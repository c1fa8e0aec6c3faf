import PnsPallets.Frame.StorageMap
import PnsPallets.Names

/-!
# Chain state

The data types of pns-types (lib.rs), the pallets' configuration, and the
storage of the six PNS pallets of the runtime, one record per pallet with one
field per storage item. Fields that no modelled function reads back (events,
weights, the RPC-only records) are left out.

A state also carries what the pallets read from the system: the timestamp, the
block number, the parent hash and the ledger of the balances pallet.
-/

namespace PnsPallets

open Frame

/-! ## Data types -/

/-- `pns_types::RegistrarInfo` (lib.rs:56–67). -/
structure RegistrarInfo where
  expire : Moment
  capacity : UInt32
  registerFee : Balance
  labelLen : UInt32
  lastBlock : UInt32

/-- `pns_types::DomainTracing` (lib.rs:70–73). -/
inductive DomainTracing where
  | runtimeOrigin (origin : DomainHash)
  | root
deriving DecidableEq

/-- `pns_types::Record` (lib.rs:79–81), the data of a name's token. -/
structure Record where
  children : UInt32

/-- `Record::default()`. -/
def Record.default : Record := ⟨0⟩

/-- `pns_types::SubnameState` (lib.rs:84–91). -/
inductive SubnameState where
  | offered
  | active
  | rejected
deriving DecidableEq

/-- `pns_types::SubnameRecord` (lib.rs:96–105). -/
structure SubnameRecord where
  parent : DomainHash
  label : BoundedVec 63
  target : AccountId
  state : SubnameState
deriving DecidableEq

/-- `pns_types::OfferedNameRecord` (lib.rs:114–119). -/
structure OfferedNameRecord where
  buyer : AccountId
  recipient : AccountId
deriving DecidableEq

/-- `pns_types::ddns::codec_type::RecordType` (ddns.rs:149–269). -/
inductive RecordType where
  | SS58 | RPC | VALIDATOR | PARA | PROXY | PUBKEY1 | AVATAR | CONTRACT | PUBKEY2
  | PUBKEY3 | ORIGIN | IPFS | CONTENT | A | AAAA | ANAME | ANY | AXFR | CAA | CDS
  | CDNSKEY | CNAME | CSYNC | DNSKEY | DS | HINFO | HTTPS | IXFR | KEY | MX | NAPTR
  | NS | NSEC | NSEC3 | NSEC3PARAM | NULL | OPENPGPKEY | OPT | PTR | RRSIG | SIG | SOA
  | SRV | SSHFP | SVCB | TLSA | TSIG | TXT
  | Unknown (code : UInt16)
  | ZERO
deriving DecidableEq

/-- `resolvers::TextKind` (resolvers.rs:42–52). -/
inductive TextKind where
  | Email | Url | Avatar | Description | Notice | Keywords | Twitter | Github | Ipfs
deriving DecidableEq

/-- `pns_marketplace::Listing` (lib.rs:66–73). -/
structure Listing where
  seller : AccountId
  price : Balance
  expiresAt : Moment
deriving DecidableEq

/-! ## Configuration -/

/-- The associated types and constants of the pallets' `Config` traits, with the
two host interfaces they call: `keccak_256` and the currency. -/
structure Config : Type 1 where
  /-- `sp_io::hashing::keccak_256`. -/
  keccak256 : Bytes → H256
  /-- The storage of the balances pallet. -/
  Ledger : Type
  /-- The operations of the balances pallet. -/
  currency : Currency Ledger
  gracePeriod : Moment
  defaultCapacity : UInt32
  baseNode : DomainHash
  maxRegistrationDuration : Moment
  /-- `IsRegistrarOpen::is_open()`. -/
  isOpen : Bool
  maxContentLen : Nat
  maxClassMetadata : Nat
  maxTokenMetadata : Nat
  protocolFeeBps : UInt32

/-! ## Storage, by pallet -/

/-- `nft::ClassInfo` (nft.rs:53–58); the class data is `()`. -/
structure ClassInfo (T : Config) where
  metadata : BoundedVec T.maxClassMetadata
  totalIssuance : BitVec 128
  owner : AccountId

/-- `nft::TokenInfo` (nft.rs:62–66). -/
structure TokenInfo (T : Config) where
  metadata : BoundedVec T.maxTokenMetadata
  owner : AccountId
  data : Record

/-- Storage of the NFT pallet (nft.rs:127–150). -/
structure NftStorage (T : Config) where
  nextClassId : ClassId
  classes : StorageMap ClassId (ClassInfo T)
  tokens : StorageMap (ClassId × DomainHash) (TokenInfo T)
  tokensByOwner : StorageMap (AccountId × ClassId × DomainHash) Unit

/-- Storage of the price oracle (price_oracle.rs:71–78). -/
structure PriceOracleStorage where
  basePrice : Vector Balance 11
  rentPrice : Vector Balance 11
  exchangeRate : Balance

/-- Storage of the registry pallet (registry.rs:60–94). -/
structure RegistryStorage where
  runtimeOrigin : StorageMap DomainHash DomainTracing
  subNames : StorageMap (DomainHash × DomainHash) Unit
  accountToSubnames : StorageMap (AccountId × DomainHash) Unit
  subnameRecords : StorageMap DomainHash SubnameRecord
  offeredToAccount : StorageMap (AccountId × DomainHash) Unit
  official : Option AccountId

/-- Storage of the registrar pallet (registrar.rs:109–129). -/
structure RegistrarStorage where
  registrarInfos : StorageMap DomainHash RegistrarInfo
  reservedList : StorageMap DomainHash Unit
  ownerToPrimaryName : StorageMap AccountId DomainHash
  offeredNames : StorageMap DomainHash OfferedNameRecord

/-- `resolvers::Content` (resolvers.rs:35). -/
abbrev Content (T : Config) : Type := BoundedVec T.maxContentLen

/-- Storage of the resolvers pallet (resolvers.rs:55–76). -/
structure ResolversStorage (T : Config) where
  texts : StorageMap (DomainHash × TextKind) (Content T)
  records : StorageMap (DomainHash × RecordType) (Content T)

/-- The chain state the PNS extrinsics read and write. -/
structure State (T : Config) where
  /-- `pallet_timestamp::now()`. -/
  now : Moment
  /-- `frame_system::block_number()`. -/
  blockNumber : UInt32
  /-- `frame_system::parent_hash()`. -/
  parentHash : H256
  balances : T.Ledger
  nft : NftStorage T
  priceOracle : PriceOracleStorage
  registry : RegistryStorage
  registrar : RegistrarStorage
  resolvers : ResolversStorage T
  /-- The marketplace's only storage item, `Listings` (lib.rs:80–85). -/
  listings : StorageMap DomainHash Listing

end PnsPallets
