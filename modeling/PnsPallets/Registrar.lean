import PnsPallets.PriceOracle
import PnsPallets.Registry

/-!
# The registrar pallet (pns-registrar/src/registrar.rs)

The extrinsics users call: registering, renewing, handing over and releasing a
canonical name, delegating subnames, and taking up a gifted name. The registrar
keeps the primary pointer `OwnerToPrimaryName` — for most calls the only thing
that says which name the caller acts on — and the pending gifts `OfferedNames`.
-/

namespace PnsPallets.Registrar

open Frame

variable {T : Config}

/-! ## Pieces several calls share -/

/-- "No valid canonical name", with the stale pointer removed: the check before
register (registrar.rs:390–399), transfer (:542–551), accept_offered_name
(:762–770) and transfer_name (:1056–1065). -/
def dropStaleCanonicalName (s : State T) (account : AccountId) :
    DispatchResult (State T) :=
  match s.registrar.ownerToPrimaryName.get account with
  | some existing =>
    if stillValid s existing then .error (.registrar .alreadyHasCanonicalName)
    else .ok { s with
      registrar.ownerToPrimaryName := s.registrar.ownerToPrimaryName.remove account }
  | none => .ok s

/-- The node of a top-level label, as add_reserved, accept_offered_name and the
`parent` argument of the subdomain calls compute it. -/
def topLevelNode (T : Config) (name : Bytes) : DispatchResult DomainHash := do
  let label ← okOr (Label.newWithLen T.keccak256 name) (.registrar .parseLabelFailed)
  pure (label.1.encodeWithNode T.keccak256 T.baseNode)

/-- The node of a label below a parent node. -/
def childNode (T : Config) (parentNode : DomainHash) (label : Bytes) :
    DispatchResult DomainHash := do
  let subLabel ← okOr (Label.newWithLen T.keccak256 label) (.registrar .parseLabelFailed)
  pure (subLabel.1.encodeWithNode T.keccak256 parentNode)

/-- `OwnerToPrimaryName::get(who).ok_or(NoCanonicalName)`. -/
def canonicalNameOf (s : State T) (who : AccountId) : DispatchResult DomainHash :=
  okOr (s.registrar.ownerToPrimaryName.get who) (.registrar .noCanonicalName)

/-- Withdraw a fee and burn it. -/
def burnFee (s : State T) (who : AccountId) (fee : Balance) : DispatchResult (State T) := do
  let withdrawn ← ofCurrency (T.currency.withdraw s.balances who fee .keepAlive)
  pure { s with balances := T.currency.dropImbalance withdrawn.1 withdrawn.2 }

/-! ## Reserved names -/

/-- `registrar::add_reserved` (registrar.rs:292–302). -/
def addReserved (s : State T) (origin : Origin) (name : Bytes) :
    DispatchResult (State T) := do
  let _who ← ensureManager origin
  let node ← topLevelNode T name
  pure { s with registrar.reservedList := s.registrar.reservedList.insert node () }

/-- `registrar::remove_reserved` (registrar.rs:308–318). -/
def removeReserved (s : State T) (origin : Origin) (name : Bytes) :
    DispatchResult (State T) := do
  let _who ← ensureManager origin
  let node ← topLevelNode T name
  pure { s with registrar.reservedList := s.registrar.reservedList.remove node }

/-! ## Registration -/

/-- The `reject_offer` phase of `register` (registrar.rs:345–361): a top-level
gift to the caller is burned, a subname offer to the caller is revoked. -/
def rejectPendingOffer (s : State T) (caller : AccountId) :
    Option Bytes → DispatchResult (State T)
  | none => .ok s
  | some rejectName => do
    let rejNode ← okOr (parseNameToNode T.keccak256 rejectName T.baseNode)
      (.registrar .parseLabelFailed)
    match s.registrar.offeredNames.get rejNode with
    | some offer => do
      let s := { s with registrar.offeredNames := s.registrar.offeredNames.remove rejNode }
      ensure (offer.recipient = caller) (.registrar .notOfferedNameRecipient)
      Registry.doBurn s caller rejNode
    | none =>
      orElseError (Registry.revokePendingOfferForTarget s rejNode caller)
        (.registrar .offeredNameNotFound)

/-- The registration record written by `register` (registrar.rs:428–443): a
re-registered name keeps its capacity. -/
def registrationInfo (s : State T) (labelNode : DomainHash) (fee : Balance)
    (expire : Moment) (labelLen : Nat) : RegistrarInfo :=
  match s.registrar.registrarInfos.get labelNode with
  | some info =>
    { info with
      registerFee := fee
      expire := expire
      labelLen := UInt32.ofNat labelLen
      lastBlock := s.blockNumber }
  | none =>
    { registerFee := fee
      expire := expire
      capacity := T.defaultCapacity
      labelLen := UInt32.ofNat labelLen
      lastBlock := s.blockNumber }

/-- Free a previous owner whose primary pointer is the re-registered name
(registrar.rs:414–418). -/
def freePreviousOwner (s : State T) (labelNode : DomainHash) :
    Option AccountId → State T
  | some preOwner =>
    if s.registrar.ownerToPrimaryName.get preOwner = some labelNode then
      { s with
        registrar.ownerToPrimaryName := s.registrar.ownerToPrimaryName.remove preOwner }
    else s
  | none => s

/-- The payment closure `register` hands to `mint_subname` (registrar.rs:411–445). -/
def registerPayments (caller : AccountId) (labelNode : DomainHash) (fee : Balance)
    (expire : Moment) (labelLen : Nat) (s : State T) (maybePreOwner : Option AccountId) :
    DispatchResult (State T) := do
  let s := freePreviousOwner s labelNode maybePreOwner
  let s ← burnFee s caller fee
  pure { s with
    registrar.registrarInfos := s.registrar.registrarInfos.insert labelNode
      (registrationInfo s labelNode fee expire labelLen) }

/-- `register` after its `reject_offer` phase (registrar.rs:363–469). -/
def registerName (s : State T) (caller : AccountId) (name : Bytes) (owner : AccountId) :
    DispatchResult (State T) := do
  ensure (name ≠ []) (.registrar .labelInvalid)
  ensure (T.isOpen = true) (.registrar .registrarClosed)
  let label ← okOr (Label.newWithLen T.keccak256 name) (.registrar .parseLabelFailed)
  ensure (isRegistrable label.2 = true) (.registrar .labelInvalid)
  let official ← Registry.getOfficialAccount s
  let expire ← okOr (Moment.checkedAdd s.now T.maxRegistrationDuration) .arithmeticOverflow
  let labelNode := label.1.encodeWithNode T.keccak256 T.baseNode
  ensure (s.registrar.reservedList.containsKey labelNode = false) (.registrar .frozen)
  let s ← dropStaleCanonicalName s owner
  ensure (Registry.hasActiveSubname s owner = false) (.registrar .alreadyHoldsSubdomain)
  let fee ← okOr (PriceOracle.registrationFee s.priceOracle label.2) .arithmeticOverflow
  let s ← Registry.mintSubname s official [] T.baseNode labelNode owner 0
    (registerPayments caller labelNode fee expire label.2)
  let s := { s with
    registrar.ownerToPrimaryName := s.registrar.ownerToPrimaryName.insert owner labelNode }
  let anchored ← Resolvers.setSs58Record s.resolvers labelNode owner
  let resolvers ← Resolvers.setOriginRecord anchored labelNode s.parentHash
  pure { s with resolvers := resolvers }

/-- `registrar::register` (registrar.rs:335–470). -/
def register (s : State T) (origin : Origin) (name : Bytes) (owner : MultiAddress)
    (rejectOffer : Option Bytes) : DispatchResult (State T) := do
  let caller ← ensureSigned origin
  let owner ← lookup owner
  let s ← rejectPendingOffer s caller rejectOffer
  registerName s caller name owner

/-- `registrar::renew` (registrar.rs:481–514). -/
def renew (s : State T) (origin : Origin) : DispatchResult (State T) := do
  let caller ← ensureSigned origin
  ensure (T.isOpen = true) (.registrar .registrarClosed)
  let labelNode ← canonicalNameOf s caller
  let info ← okOr (s.registrar.registrarInfos.get labelNode) (.registrar .notExistOrOccupied)
  ensure (s.now ≤ graceEnd T info) (.registrar .notRenewable)
  let price ← okOr (PriceOracle.registrationFee s.priceOracle info.labelLen.toNat)
    .arithmeticOverflow
  let s ← burnFee s caller price
  let expire ← okOr (Moment.checkedAdd s.now T.maxRegistrationDuration) .arithmeticOverflow
  pure { s with
    registrar.registrarInfos :=
      s.registrar.registrarInfos.insert labelNode { info with expire := expire } }

/-! ## Registration for a redeem code -/

/-- The registration record written by `for_redeem_code` (registrar.rs:950–965): no fee,
and the length is kept where there is a record. -/
def redemptionInfo (s : State T) (labelNode : DomainHash) (expire : Moment)
    (labelLen : Nat) : RegistrarInfo :=
  match s.registrar.registrarInfos.get labelNode with
  | some info =>
    { info with
      registerFee := 0
      expire := expire
      lastBlock := s.blockNumber }
  | none =>
    { registerFee := 0
      expire := expire
      capacity := T.defaultCapacity
      labelLen := UInt32.ofNat labelLen
      lastBlock := s.blockNumber }

/-- The closure `for_redeem_code` hands to `mint_subname` (registrar.rs:943–967). -/
def redeemPayments (labelNode : DomainHash) (expire : Moment) (labelLen : Nat)
    (s : State T) (maybePreOwner : Option AccountId) : DispatchResult (State T) :=
  let s := freePreviousOwner s labelNode maybePreOwner
  .ok { s with
    registrar.registrarInfos := s.registrar.registrarInfos.insert labelNode
      (redemptionInfo s labelNode expire labelLen) }

/-- `Registrar::for_redeem_code` (registrar.rs:901–987). The sums with the grace
period wrap. -/
def forRedeemCode (s : State T) (name : Bytes) (dest : AccountId) (duration : Moment)
    (label : Label) : DispatchResult (State T) := do
  let official ← Registry.getOfficialAccount s
  let duration := min duration T.maxRegistrationDuration
  let expire ← okOr (Moment.checkedAdd s.now duration) .arithmeticOverflow
  ensure (expire + T.gracePeriod > s.now + T.gracePeriod) .arithmeticOverflow
  let s ← dropStaleCanonicalName s dest
  ensure (Registry.hasActiveSubname s dest = false) (.registrar .alreadyHoldsSubdomain)
  let labelNode := label.encodeWithNode T.keccak256 T.baseNode
  let s ← Registry.mintSubname s official [] T.baseNode labelNode dest 0
    (redeemPayments labelNode expire name.length)
  let s := { s with
    registrar.ownerToPrimaryName := s.registrar.ownerToPrimaryName.insert dest labelNode }
  let resolvers ← Resolvers.setOriginRecord s.resolvers labelNode s.parentHash
  pure { s with resolvers := resolvers }

/-! ## Handing over and releasing -/

/-- `registrar::transfer` (registrar.rs:521–561). -/
def transfer (s : State T) (origin : Origin) (dest : MultiAddress) :
    DispatchResult (State T) := do
  let who ← ensureSigned origin
  let dest ← lookup dest
  ensure (T.isOpen = true) (.registrar .registrarClosed)
  let node ← canonicalNameOf s who
  ensure (∀ info ∈ s.registrar.registrarInfos.get node, graceEnd T info > s.now)
    (.registrar .notOwned)
  let s ← dropStaleCanonicalName s dest
  ensure (Registry.hasActiveSubname s dest = false) (.registrar .alreadyHoldsSubdomain)
  let s ← Registry.doTransfer s who dest node
  pure { s with
    registrar.ownerToPrimaryName :=
      (s.registrar.ownerToPrimaryName.remove who).insert dest node }

/-- `registrar::release_name` (registrar.rs:572–584). -/
def releaseName (s : State T) (origin : Origin) : DispatchResult (State T) := do
  let caller ← ensureSigned origin
  let node ← canonicalNameOf s caller
  let s := { s with
    registrar.ownerToPrimaryName := s.registrar.ownerToPrimaryName.remove caller }
  Registry.doBurn s caller node

/-! ## Subname delegation -/

/-- `registrar::offer_subdomain` (registrar.rs:594–631). -/
def offerSubdomain (s : State T) (origin : Origin) (label : Bytes)
    (target : MultiAddress) : DispatchResult (State T) := do
  let caller ← ensureSigned origin
  let target ← lookup target
  ensure (T.isOpen = true) (.registrar .registrarClosed)
  let parentNode ← canonicalNameOf s caller
  let info ← okOr (s.registrar.registrarInfos.get parentNode)
    (.registrar .notExistOrOccupied)
  ensure (s.now < info.expire) (.registrar .notUseable)
  let labelNode ← childNode T parentNode label
  let boundedLabel ← okOr (BoundedVec.tryFrom 63 label) (.registrar .labelTooLong)
  Registry.offerSubname s parentNode labelNode boundedLabel target info.capacity

/-- `registrar::accept_subdomain` (registrar.rs:640–672). -/
def acceptSubdomain (s : State T) (origin : Origin) (parent label : Bytes) :
    DispatchResult (State T) := do
  let caller ← ensureSigned origin
  let parentNode ← topLevelNode T parent
  let labelNode ← childNode T parentNode label
  let info ← okOr (s.registrar.registrarInfos.get parentNode)
    (.registrar .notExistOrOccupied)
  ensure (s.now < info.expire) (.registrar .notUseable)
  let accepted ← Registry.acceptSubnameOffer s labelNode caller
  let resolvers ← Resolvers.setSs58Record accepted.1.resolvers labelNode caller
  pure { accepted.1 with resolvers := resolvers }

/-- `registrar::reject_subdomain` (registrar.rs:680–704). -/
def rejectSubdomain (s : State T) (origin : Origin) (parent label : Bytes) :
    DispatchResult (State T) := do
  let caller ← ensureSigned origin
  let parentNode ← topLevelNode T parent
  let labelNode ← childNode T parentNode label
  Registry.rejectSubnameOffer s labelNode caller

/-- `registrar::revoke_subdomain` (registrar.rs:712–734). -/
def revokeSubdomain (s : State T) (origin : Origin) (label : Bytes) :
    DispatchResult (State T) := do
  let caller ← ensureSigned origin
  let parentNode ← canonicalNameOf s caller
  let labelNode ← childNode T parentNode label
  Registry.revokeSubname s parentNode labelNode

/-- `registrar::release_subdomain` (registrar.rs:793–817). -/
def releaseSubdomain (s : State T) (origin : Origin) (parent label : Bytes) :
    DispatchResult (State T) := do
  let caller ← ensureSigned origin
  let parentNode ← topLevelNode T parent
  let labelNode ← childNode T parentNode label
  let released ← Registry.releaseSubname s labelNode caller
  pure released.1

/-! ## Gifts and sales -/

/-- `registrar::accept_offered_name` (registrar.rs:747–784). -/
def acceptOfferedName (s : State T) (origin : Origin) (name : Bytes) :
    DispatchResult (State T) := do
  let caller ← ensureSigned origin
  let node ← topLevelNode T name
  let offer ← okOr (s.registrar.offeredNames.get node) (.registrar .offeredNameNotFound)
  let s := { s with registrar.offeredNames := s.registrar.offeredNames.remove node }
  ensure (offer.recipient = caller) (.registrar .notOfferedNameRecipient)
  let info ← okOr (s.registrar.registrarInfos.get node) (.registrar .notExistOrOccupied)
  ensure (s.now < info.expire) (.registrar .notUseable)
  let s ← dropStaleCanonicalName s caller
  ensure (Registry.hasActiveSubname s caller = false) (.registrar .alreadyHoldsSubdomain)
  let s := { s with
    registrar.ownerToPrimaryName := s.registrar.ownerToPrimaryName.insert caller node }
  let anchored ← Resolvers.setSs58Record s.resolvers node caller
  let resolvers ← Resolvers.setOriginRecord anchored node s.parentHash
  pure { s with resolvers := resolvers }

/-- Remove the seller's pointer if it is the sold name (registrar.rs:1070–1072
and :1111–1113). -/
def dropPointerTo (s : State T) (account : AccountId) (node : DomainHash) : State T :=
  if s.registrar.ownerToPrimaryName.get account = some node then
    { s with
      registrar.ownerToPrimaryName := s.registrar.ownerToPrimaryName.remove account }
  else s

/-- `NameRegistry::transfer_name` (registrar.rs:1054–1076). -/
def transferName (s : State T) (source dest : AccountId) (node : DomainHash) :
    DispatchResult (State T) := do
  let s ← dropStaleCanonicalName s dest
  ensure (Registry.hasActiveSubname s dest = false) (.registrar .alreadyHoldsSubdomain)
  let s ← Registry.doTransfer s source dest node
  let s := dropPointerTo s source node
  pure { s with
    registrar.ownerToPrimaryName := s.registrar.ownerToPrimaryName.insert dest node }

/-- `NameRegistry::offer_bought_name` (registrar.rs:1078–1132). Unlike the other
purchases it leaves a stale pointer of the recipient in place. -/
def offerBoughtName (s : State T) (seller buyer recipient : AccountId)
    (node : DomainHash) : DispatchResult (State T) := do
  ensure (s.registrar.offeredNames.containsKey node = false) (.registrar .nameAlreadyOffered)
  ensure (hasValidCanonicalName s recipient = false) (.registrar .alreadyHasCanonicalName)
  ensure (Registry.hasActiveSubname s recipient = false) (.registrar .alreadyHoldsSubdomain)
  let s ← Registry.doTransfer s seller recipient node
  let s := dropPointerTo s seller node
  pure { s with
    registrar.offeredNames := s.registrar.offeredNames.insert node
      { buyer := buyer, recipient := recipient } }

end PnsPallets.Registrar
