import PnsPallets.Nft
import PnsPallets.Registrar.Checks
import PnsPallets.Resolvers

/-!
# The registry pallet (pns-registrar/src/registry.rs)

The registry turns NFT tokens into names: it mints, hands over and burns the
token of a name together with its place in the hierarchy (`RuntimeOrigin`), its
subname delegations (`SubnameRecords` and the three indices `SubNames`,
`OfferedToAccount`, `AccountToSubnames`), its registration and its DNS records.

`doBurn` and `mintSubname` are split just before their call into the NFT pallet
(`burnPrepare`, `mintPrepare`): the state in which `nft::burn` or `nft::mint` is
reached then has a name of its own.
-/

namespace PnsPallets.Registry

open Frame

variable {T : Config}

/-- `T::ClassId::zero()`, the class of all names. -/
def classZero : ClassId := 0

/-- `registry::verify_with_owner` (registry.rs:212–220). -/
def verifyWithOwner (caller owner : AccountId) : DispatchResult Unit :=
  ensure (caller = owner) (.registry .noPermission)

/-- `registry::verify` (registry.rs:201–209). -/
def verify (s : State T) (caller : AccountId) (node : DomainHash) :
    DispatchResult Unit := do
  let info ← okOr (s.nft.tokens.get (classZero, node)) (.registry .notExist)
  verifyWithOwner caller info.owner

/-- `Registry::owner_of` (registry.rs:636–638). -/
def ownerOf (s : State T) (node : DomainHash) : Option AccountId :=
  (s.nft.tokens.get (classZero, node)).map (·.owner)

/-- `Registry::has_active_subname` (registry.rs:650–652). -/
def hasActiveSubname (s : State T) (account : AccountId) : Bool :=
  !(s.registry.accountToSubnames.iterPrefix account).isEmpty

/-! ## Child counters -/

/-- Write back a token's child counter. -/
def setChildren (nft : NftStorage T) (node : DomainHash) (info : TokenInfo T)
    (children : UInt32) : NftStorage T :=
  { nft with
    tokens := nft.tokens.insert (classZero, node)
      { info with data := { children := children } } }

/-- `registry::add_children` (registry.rs:374–384); the addition wraps. -/
def addChildren (nft : NftStorage T) (node : DomainHash) :
    DispatchResult (NftStorage T) := do
  let info ← okOr (nft.tokens.get (classZero, node)) (.registry .notExist)
  pure (setChildren nft node info (info.data.children + 1))

/-- `registry::add_children_with_check` (registry.rs:385–399). -/
def addChildrenWithCheck (nft : NftStorage T) (node : DomainHash) (capacity : UInt32) :
    DispatchResult (NftStorage T) := do
  let info ← okOr (nft.tokens.get (classZero, node)) (.registry .notExist)
  ensure (info.data.children < capacity) (.registry .capacityNotEnough)
  pure (setChildren nft node info (info.data.children + 1))

/-- `registry::sub_children` (registry.rs:460–472): `checked_sub(1)`. -/
def subChildren (nft : NftStorage T) (node : DomainHash) :
    DispatchResult (NftStorage T) := do
  let info ← okOr (nft.tokens.get (classZero, node)) (.registry .notExist)
  ensure (1 ≤ info.data.children) .arithmeticOverflow
  pure (setChildren nft node info (info.data.children - 1))

/-! ## Clearing the subnames of a name -/

/-- Delete a delegation record with its index entry (registry.rs:493–502). -/
def dropDelegation (registry : RegistryStorage) (child : DomainHash) : RegistryStorage :=
  match registry.subnameRecords.get child with
  | none => registry
  | some record =>
    let registry := { registry with subnameRecords := registry.subnameRecords.remove child }
    match record.state with
    | .offered | .rejected =>
      { registry with
        offeredToAccount := registry.offeredToAccount.remove (record.target, child) }
    | .active =>
      { registry with
        accountToSubnames := registry.accountToSubnames.remove (record.target, child) }

/-- Burn an old-style subname token (registry.rs:504–507); an error of the burn
is ignored. -/
def burnLegacySubname (s : State T) (child : DomainHash) : State T :=
  match s.nft.tokens.get (classZero, child) with
  | none => s
  | some info =>
    { s with
      registry.accountToSubnames := s.registry.accountToSubnames.remove (info.owner, child)
      nft := commit s.nft (Nft.burn s.nft info.owner (classZero, child)) }

/-- The loop body of `clear_subnames` (registry.rs:489–508). -/
def clearChild (s : State T) (child : DomainHash) : State T :=
  let s := { s with resolvers := Resolvers.clearAllRecords s.resolvers child }
  let s := { s with registry.runtimeOrigin := s.registry.runtimeOrigin.remove child }
  let s := { s with registry := dropDelegation s.registry child }
  burnLegacySubname s child

/-- Reset a token's child counter, if there is a token. -/
def resetChildren (nft : NftStorage T) (node : DomainHash) : NftStorage T :=
  match nft.tokens.get (classZero, node) with
  | some info => setChildren nft node info 0
  | none => nft

/-- `registry::clear_subnames` (registry.rs:483–515). -/
def clearSubnames (s : State T) (rootNode : DomainHash) : State T :=
  let children := (s.registry.subNames.iterPrefix rootNode).map Prod.fst
  let s := children.foldl clearChild s
  let s := { s with registry.subNames := s.registry.subNames.clearPrefix rootNode }
  { s with nft := resetChildren s.nft rootNode }

/-! ## Burning -/

/-- The `match origin` of `do_burn` (registry.rs:237–253). -/
def leaveHierarchy (s : State T) (token : DomainHash) (info : TokenInfo T) :
    DomainTracing → DispatchResult (State T)
  | .runtimeOrigin origin => do
    ensure (info.data.children = 0) (.registry .subnodeNotClear)
    let nft ← subChildren s.nft origin
    pure { s with
      nft := nft
      registry.subNames := s.registry.subNames.remove (origin, token)
      registry.accountToSubnames := s.registry.accountToSubnames.remove (info.owner, token) }
  | .root =>
    let s := clearSubnames s token
    let s := Registrar.clearRegistrarInfo s token
    .ok { s with
      registry.accountToSubnames := s.registry.accountToSubnames.remove (info.owner, token) }

/-- `registry::do_burn` up to its call of `nft::burn` (registry.rs:223–259): the
state in which the token is burned, and its owner. -/
def burnPrepare (s : State T) (caller : AccountId) (token : DomainHash) :
    DispatchResult (State T × AccountId) := do
  let info ← okOr (s.nft.tokens.get (classZero, token)) (.registry .notExist)
  verifyWithOwner caller info.owner
  let origin ← okOr (s.registry.runtimeOrigin.get token) (.registry .banBurnBaseNode)
  let s ← leaveHierarchy s token info origin
  let s := { s with registry.runtimeOrigin := s.registry.runtimeOrigin.remove token }
  let s := { s with resolvers := Resolvers.clearAllRecords s.resolvers token }
  pure (s, info.owner)

/-- `registry::do_burn` (registry.rs:223–271). -/
def doBurn (s : State T) (caller : AccountId) (token : DomainHash) :
    DispatchResult (State T) := do
  let prepared ← burnPrepare s caller token
  let nft ← Nft.burn prepared.1.nft prepared.2 (classZero, token)
  pure { prepared.1 with nft := nft }

/-! ## Minting -/

/-- What `mint_subname` is about to do to the token of the label node: move an
expired name from its previous owner, or mint a new token. -/
inductive MintPlan (T : Config) where
  | reissue (s : State T) (prevOwner : AccountId)
  | fresh (s : State T)

/-- `registry::mint_subname` up to its first call into the NFT pallet
(registry.rs:287–315 and 329): permission, self-dealing and expiry checks, then
the caller's payment closure. -/
def mintPrepare (s : State T) (owner : AccountId) (node labelNode : DomainHash)
    (dest : AccountId) (doPayments : State T → Option AccountId → DispatchResult (State T)) :
    DispatchResult (MintPlan T) := do
  let nodeInfo ← okOr (s.nft.tokens.get (classZero, node)) (.registry .notExist)
  verifyWithOwner owner nodeInfo.owner
  let rootNode :=
    match s.registry.runtimeOrigin.get node with
    | some (.runtimeOrigin root) => root
    | _ => node
  ensure (ownerOf s rootNode ≠ some dest) (.registry .cannotOwnSubnameUnderOwnDomain)
  match s.nft.tokens.get (classZero, labelNode) with
  | some info => do
    Registrar.checkExpiresRegistrable s labelNode
    let s ← doPayments s (some info.owner)
    pure (.reissue s info.owner)
  | none => do
    let s ← doPayments s none
    pure (.fresh s)

/-- The place of a freshly minted name in the hierarchy (registry.rs:334–363). -/
def joinHierarchy (s : State T) (node labelNode : DomainHash) (capacity : UInt32) :
    DispatchResult (State T) :=
  match s.registry.runtimeOrigin.get node with
  | some (.runtimeOrigin origin) => do
    Registrar.checkExpiresUseable s origin
    let nft ← addChildrenWithCheck s.nft origin capacity
    let nft ← addChildren nft node
    pure { s with
      nft := nft
      registry.runtimeOrigin :=
        s.registry.runtimeOrigin.insert labelNode (.runtimeOrigin origin)
      registry.subNames := s.registry.subNames.insert (origin, labelNode) () }
  | some .root => do
    let nft ← addChildrenWithCheck s.nft node capacity
    pure { s with
      nft := nft
      registry.runtimeOrigin :=
        s.registry.runtimeOrigin.insert labelNode (.runtimeOrigin node)
      registry.subNames := s.registry.subNames.insert (node, labelNode) () }
  | none => do
    let nft ← addChildren s.nft node
    pure { s with
      nft := nft
      registry.runtimeOrigin := s.registry.runtimeOrigin.insert labelNode .root }

/-- The two branches of `mint_subname` after the payment (registry.rs:317–364). -/
def mintFinish (node labelNode : DomainHash) (dest : AccountId) (metadata : Bytes)
    (capacity : UInt32) : MintPlan T → DispatchResult (State T)
  | .reissue s prevOwner => do
    let s := clearSubnames s labelNode
    let s := { s with resolvers := Resolvers.clearAllRecords s.resolvers labelNode }
    let s := { s with
      registry.accountToSubnames :=
        s.registry.accountToSubnames.remove (prevOwner, labelNode) }
    let nft ← Nft.transfer s.nft prevOwner dest (classZero, labelNode)
    pure { s with
      nft := nft
      registry.accountToSubnames :=
        s.registry.accountToSubnames.insert (dest, labelNode) () }
  | .fresh s => do
    let nft ← Nft.mint s.nft dest (classZero, labelNode) metadata Record.default
    let s := { s with
      nft := nft
      registry.accountToSubnames :=
        s.registry.accountToSubnames.insert (dest, labelNode) () }
    joinHierarchy s node labelNode capacity

/-- `registry::mint_subname` (registry.rs:277–373). -/
def mintSubname (s : State T) (owner : AccountId) (metadata : Bytes)
    (node labelNode : DomainHash) (dest : AccountId) (capacity : UInt32)
    (doPayments : State T → Option AccountId → DispatchResult (State T)) :
    DispatchResult (State T) := do
  let plan ← mintPrepare s owner node labelNode dest doPayments
  mintFinish node labelNode dest metadata capacity plan

/-! ## Handing over -/

/-- The `match origin` of `do_transfer` (registry.rs:422–437). -/
def releaseHierarchy (s : State T) (owner dest : AccountId) (token : DomainHash) :
    DomainTracing → DispatchResult (State T)
  | .runtimeOrigin root => do
    Registrar.checkExpiresRenewable s root
    ensure (ownerOf s root ≠ some dest) (.registry .cannotOwnSubnameUnderOwnDomain)
    pure { s with
      registry.accountToSubnames :=
        (s.registry.accountToSubnames.remove (owner, token)).insert (dest, token) () }
  | .root => do
    Registrar.checkExpiresRenewable s token
    pure (clearSubnames s token)

/-- `registry::do_transfer` (registry.rs:405–458). -/
def doTransfer (s : State T) (source dest : AccountId) (token : DomainHash) :
    DispatchResult (State T) := do
  let info ← okOr (s.nft.tokens.get (classZero, token)) (.registry .notExist)
  verifyWithOwner source info.owner
  let origin ← okOr (s.registry.runtimeOrigin.get token) (.registry .notExist)
  let s ← releaseHierarchy s info.owner dest token origin
  let nft ← Nft.transfer s.nft info.owner dest (classZero, token)
  let cleared := Resolvers.clearRecordsExceptSs58 s.resolvers token
  let anchored ← Resolvers.setSs58Record cleared token dest
  let resolvers ← Resolvers.setOriginRecord anchored token s.parentHash
  pure { s with nft := nft, resolvers := resolvers }

/-! ## Subname delegations -/

/-- `Registry::offer_subname` (registry.rs:654–691). -/
def offerSubname (s : State T) (parent labelNode : DomainHash) (label : BoundedVec 63)
    (dest : AccountId) (capacity : UInt32) : DispatchResult (State T) := do
  ensure (s.registry.runtimeOrigin.get parent = some .root)
    (.registry .subnameDepthExceeded)
  ensure (ownerOf s parent ≠ some dest) (.registry .cannotOwnSubnameUnderOwnDomain)
  ensure (s.registry.subnameRecords.containsKey labelNode = false)
    (.registry .subnameAlreadyExists)
  let nft ← addChildrenWithCheck s.nft parent capacity
  pure { s with
    nft := nft
    registry.subnameRecords := s.registry.subnameRecords.insert labelNode
      { parent := parent, label := label, target := dest, state := .offered }
    registry.offeredToAccount := s.registry.offeredToAccount.insert (dest, labelNode) ()
    registry.subNames := s.registry.subNames.insert (parent, labelNode) () }

/-- `Registry::accept_subname_offer` (registry.rs:693–722). -/
def acceptSubnameOffer (s : State T) (labelNode : DomainHash) (acceptor : AccountId) :
    DispatchResult (State T × DomainHash) := do
  ensure (Registrar.hasValidCanonicalName s acceptor = false)
    (.registry .targetAlreadyOwnsName)
  ensure ((s.registry.accountToSubnames.iterPrefix acceptor).isEmpty = true)
    (.registry .targetAlreadyOwnsName)
  let record ← okOr (s.registry.subnameRecords.get labelNode) (.registry .subnameNotFound)
  ensure (record.state = .offered) (.registry .subnameNotOffered)
  ensure (record.target = acceptor) (.registry .notSubnameTarget)
  pure ({ s with
    registry.subnameRecords :=
      s.registry.subnameRecords.insert labelNode { record with state := .active }
    registry.offeredToAccount := s.registry.offeredToAccount.remove (acceptor, labelNode)
    registry.accountToSubnames :=
      s.registry.accountToSubnames.insert (acceptor, labelNode) () }, record.parent)

/-- `Registry::reject_subname_offer` (registry.rs:724–739). -/
def rejectSubnameOffer (s : State T) (labelNode : DomainHash) (caller : AccountId) :
    DispatchResult (State T) := do
  let record ← okOr (s.registry.subnameRecords.get labelNode) (.registry .subnameNotFound)
  ensure (record.state = .offered) (.registry .subnameNotOffered)
  ensure (record.target = caller) (.registry .notSubnameTarget)
  pure { s with
    registry.subnameRecords :=
      s.registry.subnameRecords.insert labelNode { record with state := .rejected }
    registry.offeredToAccount := s.registry.offeredToAccount.remove (caller, labelNode) }

/-- The `match record.state` of `revoke_subname` (registry.rs:746–754). -/
def forgetHolder (s : State T) (labelNode : DomainHash) (record : SubnameRecord) :
    State T :=
  match record.state with
  | .offered | .rejected =>
    { s with
      registry.offeredToAccount :=
        s.registry.offeredToAccount.remove (record.target, labelNode) }
  | .active =>
    { s with
      registry.accountToSubnames :=
        s.registry.accountToSubnames.remove (record.target, labelNode)
      resolvers := Resolvers.clearAllRecords s.resolvers labelNode }

/-- `Registry::revoke_subname` (registry.rs:741–759). -/
def revokeSubname (s : State T) (parent labelNode : DomainHash) :
    DispatchResult (State T) := do
  let record ← okOr (s.registry.subnameRecords.get labelNode) (.registry .subnameNotFound)
  let s := { s with
    registry.subnameRecords := s.registry.subnameRecords.remove labelNode }
  ensure (record.parent = parent) (.registry .notSubnameOfferer)
  let s := forgetHolder s labelNode record
  let s := { s with registry.subNames := s.registry.subNames.remove (parent, labelNode) }
  let nft ← subChildren s.nft parent
  pure { s with nft := nft }

/-- `Registry::release_subname` (registry.rs:761–779). -/
def releaseSubname (s : State T) (labelNode : DomainHash) (holder : AccountId) :
    DispatchResult (State T × DomainHash) := do
  let record ← okOr (s.registry.subnameRecords.get labelNode) (.registry .subnameNotFound)
  let s := { s with
    registry.subnameRecords := s.registry.subnameRecords.remove labelNode }
  ensure (record.state = .active) (.registry .subnameNotActive)
  ensure (record.target = holder) (.registry .notSubnameTarget)
  let s := { s with
    registry.accountToSubnames := s.registry.accountToSubnames.remove (holder, labelNode)
    registry.subNames := s.registry.subNames.remove (record.parent, labelNode) }
  let nft ← subChildren s.nft record.parent
  pure ({ s with
    nft := nft
    resolvers := Resolvers.clearAllRecords s.resolvers labelNode }, record.parent)

/-- `Registry::revoke_pending_offer_for_target` (registry.rs:781–795). -/
def revokePendingOfferForTarget (s : State T) (labelNode : DomainHash)
    (target : AccountId) : DispatchResult (State T) := do
  let record ← okOr (s.registry.subnameRecords.get labelNode) (.registry .subnameNotFound)
  ensure (record.state = .offered) (.registry .subnameNotOffered)
  ensure (record.target = target) (.registry .notSubnameTarget)
  revokeSubname s record.parent labelNode

/-- `Official::get_official_account` (registry.rs:801–803). -/
def getOfficialAccount (s : State T) : DispatchResult AccountId :=
  okOr s.registry.official (.registry .officialNotInitiated)

/-! ## Extrinsics -/

/-- `registry::name_to_node` (registry.rs:195–198). -/
def nameToNode (T : Config) (name : Bytes) : DispatchResult DomainHash :=
  okOr (parseNameToNode T.keccak256 name T.baseNode) (.registry .invalidName)

/-- `registry::burn` (registry.rs:528–534). -/
def burn (s : State T) (origin : Origin) (name : Bytes) : DispatchResult (State T) := do
  let caller ← ensureSigned origin
  let node ← nameToNode T name
  doBurn s caller node

/-- Move the base node from the old official account, if there is one
(registry.rs:544–550). -/
def moveBaseNode (nft : NftStorage T) (oldOfficial : Option AccountId)
    (official : AccountId) : DispatchResult (NftStorage T) :=
  match oldOfficial with
  | some old => Nft.transfer nft old official (classZero, T.baseNode)
  | none => .ok nft

/-- Hand the class of names to the official account (registry.rs:552–556). -/
def setClassOwner (nft : NftStorage T) (official : AccountId) : NftStorage T :=
  match nft.classes.get classZero with
  | some info =>
    { nft with classes := nft.classes.insert classZero { info with owner := official } }
  | none => nft

/-- `registry::set_official` (registry.rs:538–559). -/
def setOfficial (s : State T) (origin : Origin) (official : AccountId) :
    DispatchResult (State T) := do
  let _who ← ensureManager origin
  let oldOfficial := s.registry.official
  let s := { s with registry.official := some official }
  let nft ← moveBaseNode s.nft oldOfficial official
  pure { s with nft := setClassOwner nft official }

end PnsPallets.Registry
