import PnsPallets.Registrar

/-!
# The marketplace pallet (pns-marketplace/src/lib.rs)

Listings are not escrowed: a listing only names a seller, a price and an expiry,
and `buy_name` checks at purchase time that the seller owns the name.
-/

namespace PnsPallets.Marketplace

open Frame

variable {T : Config}

/-- `NameRegistry::canonical_name(who).ok_or(NoCanonicalName)`. -/
def canonicalNameOf (s : State T) (who : AccountId) : DispatchResult DomainHash :=
  okOr (s.registrar.ownerToPrimaryName.get who) (.marketplace .noCanonicalName)

/-- `marketplace::create_listing` (lib.rs:154–168). -/
def createListing (s : State T) (origin : Origin) (price : Balance) (expiresAt : Moment) :
    DispatchResult (State T) := do
  let who ← ensureSigned origin
  ensure (expiresAt > s.now) (.marketplace .expiryNotInFuture)
  let node ← canonicalNameOf s who
  ensure (s.listings.containsKey node = false) (.marketplace .alreadyListed)
  pure { s with
    listings := s.listings.insert node
      { seller := who, price := price, expiresAt := expiresAt } }

/-- `marketplace::cancel_listing` (lib.rs:173–181). -/
def cancelListing (s : State T) (origin : Origin) : DispatchResult (State T) := do
  let who ← ensureSigned origin
  let node ← canonicalNameOf s who
  ensure (s.listings.containsKey node = true) (.marketplace .notListed)
  pure { s with listings := s.listings.remove node }

/-- The protocol fee of a sale (lib.rs:215–217). -/
def protocolFee (T : Config) (price : Balance) : Balance :=
  saturatingMul128 price (BitVec.ofNat 128 T.protocolFeeBps.toNat) / 10000#128

/-- The node of the name a buyer asks for (lib.rs:196–197). -/
def listedNode (T : Config) (name : Bytes) : DispatchResult DomainHash := do
  let label ← okOr (Label.new T.keccak256 name) (.marketplace .invalidName)
  pure (label.encodeWithNode T.keccak256 T.baseNode)

/-- The payment of a sale: the full price from buyer to seller, then the protocol
fee burned from the seller (lib.rs:206–224). -/
def settlePayment (s : State T) (buyer : AccountId) (listing : Listing) :
    DispatchResult (State T) := do
  let paid ← ofCurrency
    (T.currency.transfer s.balances buyer listing.seller listing.price .keepAlive)
  Registrar.burnFee { s with balances := paid } listing.seller (protocolFee T listing.price)

/-- Hand the bought name over, to the buyer or as a gift to `recipient`
(lib.rs:228–263). -/
def deliver (s : State T) (buyer : AccountId) (listing : Listing) (node : DomainHash) :
    Option AccountId → DispatchResult (State T)
  | some recip => do
    ensure (recip ≠ buyer) (.marketplace .buyerIsRecipient)
    ensure (recip ≠ listing.seller) (.marketplace .sellerIsRecipient)
    Registrar.offerBoughtName s listing.seller buyer recip node
  | none => do
    let s ← Registrar.transferName s listing.seller buyer node
    let cleared := Resolvers.clearRecordsExceptSs58 s.resolvers node
    let anchored ← Resolvers.setSs58Record cleared node buyer
    let resolvers ← Resolvers.setOriginRecord anchored node s.parentHash
    pure { s with resolvers := resolvers }

/-- `marketplace::buy_name` (lib.rs:194–265). -/
def buyName (s : State T) (origin : Origin) (name : Bytes) (recipient : Option AccountId) :
    DispatchResult (State T) := do
  let buyer ← ensureSigned origin
  let node ← listedNode T name
  let listing ← okOr (s.listings.get node) (.marketplace .notListed)
  ensure (buyer ≠ listing.seller) (.marketplace .buyerIsSeller)
  ensure (listing.expiresAt > s.now) (.marketplace .listingExpired)
  ensure (some listing.seller = Registry.ownerOf s node) (.marketplace .sellerNoLongerOwns)
  let s ← settlePayment s buyer listing
  deliver { s with listings := s.listings.remove node } buyer listing node recipient

end PnsPallets.Marketplace
