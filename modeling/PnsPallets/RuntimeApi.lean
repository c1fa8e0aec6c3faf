import PnsPallets.Runtime

/-!
# The runtime API (runtime/src/apis.rs:293–411)

The read paths that clients use: `get_info` and `resolve_name` return the record
of a top-level name, `lookup` and `lookup_by_name` its DNS records. The first two
ask whether the name is pending or expired; the other two read the resolvers'
storage as it is. `get_listing` reads the marketplace's listing of a name, and
`account_dashboard` collects the names, subnames and offers of an account from the
indices. `NATIVE_BASENODE` is the runtime's `BaseNode`. `Client` is what the servers of
the node see of the chain.
-/

namespace PnsPallets

open Frame Registry

variable {T : Config}

/-- `pns_types::NameRecord` (lib.rs:19–39). -/
structure NameRecord where
  owner : AccountId
  expire : Moment
  capacity : UInt32
  registerFee : Balance
  forSale : Bool
  lastBlock : UInt32
  readBlockNumber : UInt32
  readBlockHash : H256

/-- The common body of `get_info` and `resolve_name`: names in offered state and
expired names have no record. -/
def nameRecord (s : State T) (node : DomainHash) : Option NameRecord :=
  if s.registrar.offeredNames.containsKey node then none
  else do
    let info ← s.registrar.registrarInfos.get node
    if s.now ≥ info.expire then none
    else do
      let token ← s.nft.tokens.get (classZero, node)
      some
        { owner := token.owner
          expire := info.expire
          capacity := info.capacity
          registerFee := info.registerFee
          forSale := s.listings.containsKey node
          lastBlock := info.lastBlock
          readBlockNumber := 0
          readBlockHash := H256.zero }

/-- `PnsStorageApi::get_info` (apis.rs:294–317). -/
def getInfo (s : State T) (id : DomainHash) : Option NameRecord := nameRecord s id

/-- `PnsStorageApi::resolve_name` (apis.rs:337–364). -/
def resolveName (s : State T) (name : Bytes) : Option NameRecord := do
  let label ← Label.newWithLen T.keccak256 name
  nameRecord s (label.1.encodeWithNode T.keccak256 T.baseNode)

/-- `PnsStorageApi::lookup` (apis.rs:321–323). -/
def lookupNode (s : State T) (id : DomainHash) (recordTypes : List RecordType) :
    List (RecordType × Bytes) :=
  Resolvers.lookup s.resolvers id recordTypes

/-- `PnsStorageApi::lookup_by_name` (apis.rs:365–369): a name that does not parse is
looked up at the zero node. -/
def lookupByName (s : State T) (name : Bytes) (recordTypes : List RecordType) :
    List (RecordType × Bytes) :=
  Resolvers.lookup s.resolvers
    ((parseNameToNode T.keccak256 name T.baseNode).getD H256.zero) recordTypes

/-- `pns_types::ListingInfo` (lib.rs:42–54). -/
structure ListingInfo where
  seller : AccountId
  price : Balance
  expiresAt : Moment
  readBlockNumber : UInt32
  readBlockHash : H256

/-- `PnsStorageApi::get_listing` (apis.rs:324–336). -/
def getListing (s : State T) (name : Bytes) : Option ListingInfo := do
  let label ← Label.newWithLen T.keccak256 name
  let l ← s.listings.get (label.1.encodeWithNode T.keccak256 T.baseNode)
  some
    { seller := l.seller
      price := l.price
      expiresAt := l.expiresAt
      readBlockNumber := 0
      readBlockHash := H256.zero }

/-- `pns_types::AccountDashboard` (lib.rs:124–133). -/
structure AccountDashboard where
  primaryName : Option DomainHash
  subnames : List DomainHash
  pendingSubnameOffers : List DomainHash
  pendingNameOffers : List DomainHash

/-- `PnsStorageApi::account_dashboard` (apis.rs:373–392). -/
def accountDashboard (s : State T) (owner : AccountId) : AccountDashboard where
  primaryName := s.registrar.ownerToPrimaryName.get owner
  subnames := (s.registry.accountToSubnames.iterPrefix owner).map Prod.fst
  pendingSubnameOffers := (s.registry.offeredToAccount.iterPrefix owner).map Prod.fst
  pendingNameOffers := s.registrar.offeredNames.toList.filterMap fun e =>
    if e.2.recipient = owner then some e.1 else none

/-- The gate of `get_info` and `resolve_name`: no record of a name that is offered or
past its expiry. -/
theorem nameRecord_eq_none {s : State T} {node : DomainHash}
    (h : (s.registrar.offeredNames.get node).isSome = true ∨
      ∃ info, s.registrar.registrarInfos.get node = some info ∧ info.expire ≤ s.now) :
    nameRecord s node = none := by
  unfold nameRecord
  split
  · rfl
  · next hoffered =>
    rcases h with h | ⟨info, hinfo, hle⟩
    · exact absurd h hoffered
    · simp [hinfo, hle]

/-- The node that a lookup by name reads; names that do not parse have the zero node. -/
def nodeOfName (T : Config) (name : Bytes) : DomainHash :=
  (parseNameToNode T.keccak256 name T.baseNode).getD H256.zero

theorem mem_lookupByName {s : State T} {name : Bytes} {types : List RecordType}
    {e : RecordType × Bytes} :
    e ∈ lookupByName s name types ↔
      (e.2 = Resolvers.contentOf s.resolvers (nodeOfName T name) e.1 ∧ e.2 ≠ []) ∧
        (e.1 = .SS58 ∨ e.1 = .ORIGIN ∨ e.1 ∈ types ∧ e.1 ∉ Resolvers.blocked) :=
  Resolvers.mem_lookup

/-- The node's client: the number of the best block, and the state that the runtime API
reads, if the call goes through. -/
structure Client (T : Config) where
  /-- `info().best_number`, as a `u64`. -/
  bestNumber : UInt64
  bestState : Option (State T)

end PnsPallets
