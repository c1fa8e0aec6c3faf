import Mathlib.Algebra.Group.Nat.Defs
import Mathlib.Tactic.Common

/-!
# Primitive types of the runtime

The types the pallets take from `sp_core`, `sp_runtime` and `frame_support`:
fixed-width integers keep their width (`u32`, `u64` as `UInt32`, `UInt64`,
`u128` as `BitVec 128`, with `+` wrapping as in a release build and
`checked_add`/`checked_sub` explicit), hashes and accounts are 32 bytes, and a
`BoundedVec` cannot be built longer than its bound.

The balances pallet is not part of this repository. It enters as a
`Currency`: a ledger type with the two operations the pallets call, about
which nothing is assumed here.
-/

namespace PnsPallets

/-- `Vec<u8>`. -/
abbrev Bytes : Type := List UInt8

/-- `sp_core::H256`: 32 bytes. -/
structure H256 where
  bytes : Bytes
  length_eq : bytes.length = 32
deriving DecidableEq

/-- `H256::default()`. -/
def H256.zero : H256 := ⟨List.replicate 32 0, rfl⟩

/-- `AccountId32`: 32 bytes, also its SCALE encoding. -/
structure AccountId where
  bytes : Bytes
  length_eq : bytes.length = 32
deriving DecidableEq

/-- `Encode for AccountId32`: the bytes themselves. -/
def AccountId.encode (a : AccountId) : Bytes := a.bytes

/-- `pns_types::DomainHash`. -/
abbrev DomainHash : Type := H256

/-- `pallet_timestamp`'s `Moment`: milliseconds, `u64`. -/
abbrev Moment : Type := UInt64

/-- `Balance`, `u128`. -/
abbrev Balance : Type := BitVec 128

/-- The NFT pallet's `ClassId`, `u32`. -/
abbrev ClassId : Type := UInt32

/-- `BoundedVec<u8, N>`: at most `n` bytes. -/
abbrev BoundedVec (n : Nat) : Type := { bytes : Bytes // bytes.length ≤ n }

/-- `TryFrom<Vec<u8>> for BoundedVec<u8, N>`. -/
def BoundedVec.tryFrom (n : Nat) (bytes : Bytes) : Option (BoundedVec n) :=
  if h : bytes.length ≤ n then some ⟨bytes, h⟩ else none

theorem BoundedVec.tryFrom_eq_some {n : Nat} {bytes : Bytes} {v : BoundedVec n}
    (h : BoundedVec.tryFrom n bytes = some v) : v.val = bytes := by
  unfold BoundedVec.tryFrom at h
  split at h
  · cases h
    rfl
  · cases h

/-- `u64::checked_add`. -/
def Moment.checkedAdd (a b : Moment) : Option Moment :=
  if a.toNat + b.toNat < 2 ^ 64 then some (a + b) else none

/-- `u128::checked_add`. -/
def checkedAdd128 (a b : BitVec 128) : Option (BitVec 128) :=
  if a.toNat + b.toNat < 2 ^ 128 then some (a + b) else none

/-- `u128::checked_sub`. -/
def checkedSub128 (a b : BitVec 128) : Option (BitVec 128) :=
  if b.toNat ≤ a.toNat then some (a - b) else none

/-- `u128::saturating_mul`. -/
def saturatingMul128 (a b : BitVec 128) : BitVec 128 :=
  if a.toNat * b.toNat < 2 ^ 128 then a * b else BitVec.allOnes 128

theorem Moment.checkedAdd_eq_some {a b c : Moment} (h : Moment.checkedAdd a b = some c) :
    c.toNat = a.toNat + b.toNat := by
  unfold Moment.checkedAdd at h
  split at h
  · cases h
    rw [UInt64.toNat_add, Nat.mod_eq_of_lt ‹_›]
  · cases h

/-- A time plus a duration is not before the time. -/
theorem Moment.le_of_checkedAdd {now duration expire : Moment}
    (h : Moment.checkedAdd now duration = some expire) : now ≤ expire := by
  rw [UInt64.le_iff_toNat_le, Moment.checkedAdd_eq_some h]
  exact Nat.le_add_right _ _

theorem Moment.min_eq_right {a b : Moment} (h : b ≤ a) : min a b = b := by
  show (if a ≤ b then a else b) = b
  split
  · exact UInt64.le_antisymm ‹_› h
  · rfl

theorem checkedAdd128_eq_some {a b c : BitVec 128} (h : checkedAdd128 a b = some c) :
    c.toNat = a.toNat + b.toNat := by
  unfold checkedAdd128 at h
  split at h
  · cases h
    rw [BitVec.toNat_add, Nat.mod_eq_of_lt ‹_›]
  · cases h

theorem checkedSub128_eq_some {a b c : BitVec 128} (h : checkedSub128 a b = some c) :
    c.toNat + b.toNat = a.toNat := by
  unfold checkedSub128 at h
  split at h
  · cases h
    rw [BitVec.toNat_sub_of_le (BitVec.le_def.mpr ‹_›)]
    omega
  · cases h

theorem checkedSub128_isSome {a b : BitVec 128} (h : b.toNat ≤ a.toNat) :
    ∃ c, checkedSub128 a b = some c :=
  ⟨a - b, if_pos h⟩

/-! ## Origins and addresses -/

/-- `frame_system::RawOrigin`. -/
inductive Origin where
  | root
  | signed (who : AccountId)
  | none
deriving DecidableEq

/-- `sp_runtime::MultiAddress<AccountId, ()>`, the argument type of extrinsics
that take a `StaticLookup::Source`. -/
inductive MultiAddress where
  | id (account : AccountId)
  | index
  | raw (bytes : Bytes)
  | address32 (bytes : Bytes)
  | address20 (bytes : Bytes)
deriving DecidableEq

/-! ## Errors -/

/-- `nft::Error`. -/
inductive NftError where
  | noAvailableClassId
  | tokenNotFound
  | classNotFound
  | noPermission
  | cannotDestroyClass
  | maxMetadataExceeded
deriving DecidableEq

/-- `registry::Error`. -/
inductive RegistryError where
  | noPermission
  | notExist
  | capacityNotEnough
  | subnodeNotClear
  | banBurnBaseNode
  | officialNotInitiated
  | invalidName
  | cannotOwnSubnameUnderOwnDomain
  | subnameAlreadyExists
  | subnameNotFound
  | subnameNotOffered
  | subnameNotActive
  | notSubnameTarget
  | notSubnameOfferer
  | subnameDepthExceeded
  | targetAlreadyOwnsName
deriving DecidableEq

/-- `registrar::Error`. -/
inductive RegistrarError where
  | notOwned
  | occupied
  | notExistOrOccupied
  | frozen
  | parseLabelFailed
  | labelInvalid
  | notUseable
  | notRenewable
  | registryDurationInvalid
  | registrarClosed
  | alreadyHasCanonicalName
  | alreadyHoldsSubdomain
  | noCanonicalName
  | labelTooLong
  | nameAlreadyOffered
  | offeredNameNotFound
  | notOfferedNameRecipient
deriving DecidableEq

/-- `resolvers::Error`. -/
inductive ResolversError where
  | invalidPermission
  | ss58RecordProtected
  | invalidName
deriving DecidableEq

/-- `pns_marketplace::Error`. -/
inductive MarketplaceError where
  | noCanonicalName
  | alreadyListed
  | notListed
  | listingExpired
  | sellerNoLongerOwns
  | expiryNotInFuture
  | invalidName
  | buyerIsSeller
  | buyerIsRecipient
  | sellerIsRecipient
deriving DecidableEq

/-- `sp_runtime::DispatchError`. `currency` stands for the errors of the
balances pallet, by index. -/
inductive DispatchError where
  | badOrigin
  | cannotLookup
  | arithmeticOverflow
  | nft (error : NftError)
  | registry (error : RegistryError)
  | registrar (error : RegistrarError)
  | resolvers (error : ResolversError)
  | marketplace (error : MarketplaceError)
  | currency (index : Nat)
deriving DecidableEq

/-- The result type of a dispatchable body. -/
abbrev DispatchResult (α : Type) : Type := Except DispatchError α

/-- `frame_system::ensure_signed`. -/
def ensureSigned : Origin → DispatchResult AccountId
  | .signed who => .ok who
  | .root => .error .badOrigin
  | .none => .error .badOrigin

/-- The runtime's `ManagerOrigin`, `EnsureRootAsAccountId`
(configs/mod.rs:192–205): root, reported as the all-zeroes account. -/
def ensureManager : Origin → DispatchResult AccountId
  | .root => .ok ⟨List.replicate 32 0, rfl⟩
  | .signed _ => .error .badOrigin
  | .none => .error .badOrigin

/-- `AccountIdLookup::lookup`: only plain account ids resolve. -/
def lookup : MultiAddress → DispatchResult AccountId
  | .id account => .ok account
  | .index => .error .cannotLookup
  | .raw _ => .error .cannotLookup
  | .address32 _ => .error .cannotLookup
  | .address20 _ => .error .cannotLookup

theorem ensureSigned_eq_ok {o : Origin} {a : AccountId}
    (h : ensureSigned o = .ok a) : o = .signed a := by
  cases o with
  | signed who =>
    cases h
    rfl
  | root => cases h
  | none => cases h

theorem lookup_eq_ok {m : MultiAddress} {a : AccountId} (h : lookup m = .ok a) :
    m = .id a := by
  cases m with
  | id account =>
    cases h
    rfl
  | index => cases h
  | raw _ => cases h
  | address32 _ => cases h
  | address20 _ => cases h

/-! ## The currency -/

/-- `frame_support::traits::ExistenceRequirement`. -/
inductive ExistenceRequirement where
  | keepAlive
  | allowDeath
deriving DecidableEq

/-- The `Currency` trait as the pallets use it; a failure is an error of the
balances pallet. `withdraw` returns the ledger and the amount of the negative
imbalance; `dropImbalance` is what dropping that imbalance does to the ledger (it
lowers total issuance). -/
structure Currency (Ledger : Type) where
  transfer : Ledger → (source dest : AccountId) → (value : Balance) →
    ExistenceRequirement → Except Nat Ledger
  withdraw : Ledger → (who : AccountId) → (value : Balance) →
    ExistenceRequirement → Except Nat (Ledger × Balance)
  dropImbalance : Ledger → (imbalance : Balance) → Ledger

/-- A result of the balances pallet, as a dispatch result. -/
def ofCurrency {α : Type} : Except Nat α → DispatchResult α
  | .ok a => .ok a
  | .error index => .error (.currency index)

@[simp] theorem ofCurrency_eq_ok {α : Type} {r : Except Nat α} {a : α} :
    ofCurrency r = .ok a ↔ r = .ok a := by
  cases r <;> simp [ofCurrency]

end PnsPallets
