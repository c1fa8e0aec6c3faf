import PnsPallets.Frame.Machine
import PnsPallets.Marketplace

/-!
# The runtime

The PNS extrinsics of the runtime as one machine. Its inputs are an extrinsic
with its origin, and the start of a block, which sets what the pallets read from
the system: timestamp, block number, parent hash, and the balances as other
pallets left them. An extrinsic runs in a storage layer, so a failing one changes
nothing.

Runs start from the preset genesis (genesis_config_presets.rs:51–119). Their
guard `Admissible L` says that time does not go back and that extrinsics mention
only labels in `L`; `L` is where collision-freedom is assumed.
-/

namespace PnsPallets

open Frame

/-- The extrinsics of the PNS pallets. -/
inductive Call (T : Config) where
  | addReserved (name : Bytes)
  | removeReserved (name : Bytes)
  | register (name : Bytes) (owner : MultiAddress) (rejectOffer : Option Bytes)
  | renew
  | transfer (dest : MultiAddress)
  | releaseName
  | offerSubdomain (label : Bytes) (target : MultiAddress)
  | acceptSubdomain (parent label : Bytes)
  | rejectSubdomain (parent label : Bytes)
  | revokeSubdomain (label : Bytes)
  | releaseSubdomain (parent label : Bytes)
  | acceptOfferedName (name : Bytes)
  | burn (name : Bytes)
  | setOfficial (official : AccountId)
  | setRecord (name : Bytes) (recordType : RecordType) (content : Content T)
  | setText (name : Bytes) (kind : TextKind) (content : Content T)
  | createListing (price : Balance) (expiresAt : Moment)
  | cancelListing
  | buyName (name : Bytes) (recipient : Option AccountId)
  | setExchangeRate (rate : Balance)
  | setBasePrice (prices : Vector Balance 11)
  | setRentPrice (prices : Vector Balance 11)

variable {T : Config}

/-- The lower-cased labels a call mentions. -/
def Call.labels : Call T → List Bytes
  | .addReserved name => [toAsciiLowercase name]
  | .removeReserved name => [toAsciiLowercase name]
  | .register name _ rejectOffer =>
    toAsciiLowercase name :: (rejectOffer.map nameLabels).getD []
  | .offerSubdomain label _ => [toAsciiLowercase label]
  | .acceptSubdomain parent label => [toAsciiLowercase parent, toAsciiLowercase label]
  | .rejectSubdomain parent label => [toAsciiLowercase parent, toAsciiLowercase label]
  | .revokeSubdomain label => [toAsciiLowercase label]
  | .releaseSubdomain parent label => [toAsciiLowercase parent, toAsciiLowercase label]
  | .acceptOfferedName name => [toAsciiLowercase name]
  | .burn name => nameLabels name
  | .setRecord name _ _ => nameLabels name
  | .setText name _ _ => nameLabels name
  | .buyName name _ => [toAsciiLowercase name]
  | .renew | .transfer _ | .releaseName | .setOfficial _ | .createListing _ _
  | .cancelListing | .setExchangeRate _ | .setBasePrice _ | .setRentPrice _ => []

/-- `PnsRegistryChecker::check_node_useable` (configs/mod.rs:280–290). -/
def checkNodeUseable (s : State T) (node : DomainHash) (owner : AccountId) : Bool :=
  match Registry.verify s owner node with
  | .error _ => false
  | .ok () =>
    match s.registrar.registrarInfos.get node with
    | some _ => (Registrar.checkExpiresUseable s node).isOk
    | none => true

/-- The body of an extrinsic. -/
def dispatch (s : State T) (origin : Origin) : Call T → DispatchResult (State T)
  | .addReserved name => Registrar.addReserved s origin name
  | .removeReserved name => Registrar.removeReserved s origin name
  | .register name owner rejectOffer => Registrar.register s origin name owner rejectOffer
  | .renew => Registrar.renew s origin
  | .transfer dest => Registrar.transfer s origin dest
  | .releaseName => Registrar.releaseName s origin
  | .offerSubdomain label target => Registrar.offerSubdomain s origin label target
  | .acceptSubdomain parent label => Registrar.acceptSubdomain s origin parent label
  | .rejectSubdomain parent label => Registrar.rejectSubdomain s origin parent label
  | .revokeSubdomain label => Registrar.revokeSubdomain s origin label
  | .releaseSubdomain parent label => Registrar.releaseSubdomain s origin parent label
  | .acceptOfferedName name => Registrar.acceptOfferedName s origin name
  | .burn name => Registry.burn s origin name
  | .setOfficial official => Registry.setOfficial s origin official
  | .setRecord name recordType content =>
    Resolvers.setRecord checkNodeUseable s origin name recordType content
  | .setText name kind content => Resolvers.setText checkNodeUseable s origin name kind content
  | .createListing price expiresAt => Marketplace.createListing s origin price expiresAt
  | .cancelListing => Marketplace.cancelListing s origin
  | .buyName name recipient => Marketplace.buyName s origin name recipient
  | .setExchangeRate rate => PriceOracle.setExchangeRate s origin rate
  | .setBasePrice prices => PriceOracle.setBasePrice s origin prices
  | .setRentPrice prices => PriceOracle.setRentPrice s origin prices

/-! ## Genesis -/

/-- The storage of the NFT pallet before genesis. -/
def NftStorage.empty : NftStorage T :=
  { nextClassId := 0, classes := .empty, tokens := .empty, tokensByOwner := .empty }

/-- The NFT pallet's genesis (nft.rs:163–184) for the preset: class 0 and the base
node's token, both of the root account. -/
def genesisNft (T : Config) (root : AccountId) : DispatchResult (NftStorage T) := do
  let created ← Nft.createClass NftStorage.empty root []
  Nft.mint created.1 root (created.2, T.baseNode) [] Record.default

/-- The preset's `reserved_names` (genesis_config_presets.rs:101–117). -/
def reservedNames : List Bytes :=
  [ [112, 111, 108, 107, 97, 100, 111, 116],                  -- polkadot
    [107, 117, 115, 97, 109, 97],                             -- kusama
    [112, 97, 115, 101, 111],                                 -- paseo
    [119, 101, 115, 116, 101, 110, 100],                      -- westend
    [102, 101, 108, 108, 111, 119, 115, 104, 105, 112],       -- fellowship
    [104, 117, 98],                                           -- hub
    [112, 111, 108, 107, 97, 100, 111, 116, 104, 117, 98],    -- polkadothub
    [97, 115, 115, 101, 116, 104, 117, 98],                   -- assethub
    [99, 111, 108, 108, 101, 99, 116, 105, 118, 101, 115],    -- collectives
    [112, 117, 115, 100],                                     -- pusd
    [112, 111, 112],                                          -- pop
    [114, 101, 118, 105, 118, 101],                           -- revive
    [106, 97, 109],                                           -- jam
    [112, 101, 111, 112, 108, 101],                           -- people
    [100, 97, 112] ]                                          -- dap

/-- Resolve reserved labels at genesis (registrar.rs:168–174). -/
def reserve (T : Config) (names : List Bytes) : StorageMap DomainHash Unit :=
  names.foldl
    (fun list name =>
      match parseNameToNode T.keccak256 name T.baseNode with
      | some node => list.insert node ()
      | none => list)
    .empty

/-- `UNIT` (runtime lib.rs:102). -/
def unit : Balance := 1000000000000

/-- The preset's `base_prices` (genesis_config_presets.rs:74–86). -/
def genesisBasePrices : Vector Balance 11 :=
  #v[1000 * unit, 100 * unit, 45 * unit, 25 * unit, 10 * unit, unit / 2, unit / 2,
    unit / 2, unit / 2, unit / 2, unit / 2]

/-- The preset genesis, `testnet_genesis` (genesis_config_presets.rs:31–120). The
sudo account, the endowed balances and the genesis parent hash are its
parameters. -/
def genesis (T : Config) (root : AccountId) (balances : T.Ledger) (parentHash : H256) :
    DispatchResult (State T) := do
  let nft ← genesisNft T root
  pure
    { now := 0
      blockNumber := 0
      parentHash := parentHash
      balances := balances
      nft := nft
      priceOracle :=
        { basePrice := genesisBasePrices
          rentPrice := Vector.replicate 11 0
          exchangeRate := 1 }
      registry :=
        { runtimeOrigin := .empty
          subNames := .empty
          accountToSubnames := .empty
          subnameRecords := .empty
          offeredToAccount := .empty
          official := some root }
      registrar :=
        { registrarInfos := .empty
          reservedList := reserve T reservedNames
          ownerToPrimaryName := .empty
          offeredNames := .empty }
      resolvers := { texts := .empty, records := .empty }
      listings := .empty }

/-! ## The chain -/

/-- What can happen next. -/
inductive Input (T : Config) where
  | extrinsic (origin : Origin) (call : Call T)
  | newBlock (now : Moment) (blockNumber : UInt32) (parentHash : H256) (balances : T.Ledger)

/-- The state after an input. -/
def apply (s : State T) : Input T → State T
  | .extrinsic origin call => commit s (dispatch s origin call)
  | .newBlock now blockNumber parentHash balances =>
    { s with
      now := now
      blockNumber := blockNumber
      parentHash := parentHash
      balances := balances }

/-- The chain, from the preset genesis of any sudo account. -/
def chain (T : Config) : Machine (State T) (Input T) where
  init s := ∃ root balances parentHash, genesis T root balances parentHash = .ok s
  step := apply

/-- Time does not go back, and extrinsics mention labels in `L`. -/
def Admissible (L : Set Bytes) (s : State T) : Input T → Prop
  | .extrinsic _ call => ∀ l ∈ call.labels, l ∈ L
  | .newBlock now _ _ _ => s.now ≤ now

/-- States the chain reaches over labels `L`. -/
def Reachable (T : Config) (L : Set Bytes) (s : State T) : Prop :=
  (chain T).Reach (Admissible L) s

/-- States the chain reaches over labels `L` by inputs that all meet `P`. -/
def ReachableBy (T : Config) (L : Set Bytes) (P : State T → Input T → Prop)
    (s : State T) : Prop :=
  (chain T).Reach (fun s i => Admissible L s i ∧ P s i) s

/-! ## The runtime's constants -/

/-- `pns_types::DOT_BASENODE`, the namehash of the TLD. -/
def dotBasenode : DomainHash :=
  ⟨[63, 206, 125, 19, 100, 168, 147, 226, 19, 188, 66, 18, 121, 43, 81, 127,
    252, 136, 245, 177, 59, 134, 200, 239, 156, 141, 57, 12, 58, 19, 112, 206], rfl⟩

/-- The runtime's configuration (configs/mod.rs:207–215 and 226–260, 313–323),
over the host's hash function and the balances pallet. -/
def runtimeConfig (keccak256 : Bytes → H256) (Ledger : Type) (currency : Currency Ledger) :
    Config where
  keccak256 := keccak256
  Ledger := Ledger
  currency := currency
  gracePeriod := 30 * 14400 * 6000
  defaultCapacity := 10
  baseNode := dotBasenode
  maxRegistrationDuration := 365 * 14400 * 6000
  isOpen := true
  maxContentLen := 1024
  maxClassMetadata := 0
  maxTokenMetadata := 0
  protocolFeeBps := 200

end PnsPallets
