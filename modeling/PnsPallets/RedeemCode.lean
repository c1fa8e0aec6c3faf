import PnsPallets.Frame.Scale
import PnsPallets.Runtime

/-!
# The redeem-code pallet (pns-registrar/src/redeem_code.rs)

Names are also registered without a fee, for a code: a signature of the official
account over a duration and a number, the *nouce*, and for `name_redeem` over the
label too. `Redeems` holds the numbers that may still be used; `mint_redeem` adds
ranges of them, and a redemption removes its number.

The pallet is configured beside the registrar; the runtime of this repository does
not include it. What it takes from its environment is `RedeemConfig`.
-/

namespace PnsPallets

open Frame Registrar

/-- The configuration of the pallet beyond that of the registrar: the signature scheme and
the manager's origin. -/
structure RedeemConfig where
  Signature : Type
  /-- `Verify::verify` of a message by a signer. -/
  verify : Signature → Bytes → AccountId → Bool
  managerOrigin : Origin → DispatchResult AccountId

/-- `redeem_code::Error`. -/
inductive RedeemError where
  | rangeInvaild
  | parseLabelFailed
  | invalidSignature
  | redeemsHasBeenUsed
  | labelLenInvalid
deriving DecidableEq

/-- The errors of the pallet's calls. -/
inductive RedeemDispatchError where
  | redeemCode (e : RedeemError)
  | pns (e : DispatchError)
deriving DecidableEq

/-- What the calls return. -/
abbrev RedeemResult (α : Type) : Type := Except RedeemDispatchError α

/-- Errors of the other pallets are passed on. -/
def ofPns {α : Type} : DispatchResult α → RedeemResult α
  | .ok a => .ok a
  | .error e => .error (.pns e)

@[simp] theorem ofPns_eq_ok {α : Type} {r : DispatchResult α} {a : α} :
    ofPns r = .ok a ↔ r = .ok a := by
  cases r <;> simp [ofPns]

/-- The storage: that of the other pallets, and `Redeems`. -/
structure RedeemState (T : Config) where
  pns : State T
  redeems : StorageMap UInt32 Unit

variable {T : Config} (R : RedeemConfig)

/-! ## Numbers -/

/-- `while cond nouce { Redeems::insert(nouce, ()); nouce += 1 }`. The sum wraps, so the
loop need not end: `none` is a loop that has not after `fuel` rounds. -/
def insertWhile (cond : UInt32 → Bool) :
    ℕ → UInt32 → StorageMap UInt32 Unit → Option (StorageMap UInt32 Unit)
  | 0, _, _ => none
  | fuel + 1, nouce, redeems =>
    if cond nouce then insertWhile cond fuel (nouce + 1) (redeems.insert nouce ())
    else some redeems

/-- No loop over the numbers that ends takes more rounds. -/
def rounds : ℕ := 2 ^ 32 + 1

/-- `GenesisConfig::build` (redeem_code.rs:105–114). -/
def genesisRedeems : Option (UInt32 × UInt32) → Option (StorageMap UInt32 Unit)
  | some (start, stop) => insertWhile (fun nouce => nouce < stop) rounds start .empty
  | none => some .empty

/-- `redeem_code::mint_redeem` (redeem_code.rs:155–168); `none` if it does not return. -/
def mintRedeem (s : RedeemState T) (origin : Origin) (start stop : UInt32) :
    Option (RedeemResult (RedeemState T)) :=
  match ofPns (R.managerOrigin origin) with
  | .error e => some (.error e)
  | .ok _who =>
    if start < stop then
      (insertWhile (fun nouce => nouce ≤ stop) rounds start s.redeems).map
        fun redeems => .ok { s with redeems := redeems }
    else some (.error (.redeemCode .rangeInvaild))

/-! ## Redemptions -/

/-- What the code of `name_redeem` signs: the label's hash, the duration and the number. -/
def redeemMessage (labelNode : DomainHash) (duration : Moment) (nouce : UInt32) : Bytes :=
  labelNode.bytes ++ Scale.encodeU64 duration ++ Scale.encodeU32 nouce

/-- What the code of `name_redeem_any` signs: the duration and the number. -/
def redeemAnyMessage (duration : Moment) (nouce : UInt32) : Bytes :=
  Scale.encodeU64 duration ++ Scale.encodeU32 nouce

/-- `redeem_code::name_redeem` (redeem_code.rs:182–222). -/
def nameRedeem (s : RedeemState T) (origin : Origin) (name : Bytes) (duration : Moment)
    (nouce : UInt32) (code : R.Signature) (owner : AccountId) :
    RedeemResult (RedeemState T) := do
  let _who ← ofPns (ensureSigned origin)
  ensure (s.redeems.containsKey nouce = true) (.redeemCode .redeemsHasBeenUsed)
  let label ← okOr (Label.newWithLen T.keccak256 name) (.redeemCode .parseLabelFailed)
  let data := redeemMessage label.1.node duration nouce
  let signer ← ofPns (Registry.getOfficialAccount s.pns)
  ensure (R.verify code data signer = true) (.redeemCode .invalidSignature)
  let pns ← ofPns (forRedeemCode s.pns name owner duration label.1)
  pure { pns := pns, redeems := s.redeems.remove nouce }

/-- `redeem_code::name_redeem_any` (redeem_code.rs:237–279). -/
def nameRedeemAny (s : RedeemState T) (origin : Origin) (name : Bytes) (duration : Moment)
    (nouce : UInt32) (code : R.Signature) (owner : AccountId) :
    RedeemResult (RedeemState T) := do
  let _who ← ofPns (ensureSigned origin)
  ensure (s.redeems.containsKey nouce = true) (.redeemCode .redeemsHasBeenUsed)
  let label ← okOr (Label.newWithLen T.keccak256 name) (.redeemCode .parseLabelFailed)
  ensure (isRegistrable label.2 = true) (.redeemCode .labelLenInvalid)
  let data := redeemAnyMessage duration nouce
  let signer ← ofPns (Registry.getOfficialAccount s.pns)
  ensure (R.verify code data signer = true) (.redeemCode .invalidSignature)
  let pns ← ofPns (forRedeemCode s.pns name owner duration label.1)
  pure { pns := pns, redeems := s.redeems.remove nouce }

/-! ## The chain with the pallet -/

/-- What can happen next: an input of the chain, or a call of this pallet. -/
inductive RedeemInput (T : Config) where
  | pns (i : Input T)
  | mintRedeem (origin : Origin) (start stop : UInt32)
  | nameRedeem (origin : Origin) (name : Bytes) (duration : Moment) (nouce : UInt32)
      (code : R.Signature) (owner : AccountId)
  | nameRedeemAny (origin : Origin) (name : Bytes) (duration : Moment) (nouce : UInt32)
      (code : R.Signature) (owner : AccountId)

/-- The state after an input. A call that does not return is in no block. -/
def redeemStep (s : RedeemState T) : RedeemInput R T → RedeemState T
  | .pns i => { s with pns := apply s.pns i }
  | .mintRedeem origin start stop =>
    match mintRedeem R s origin start stop with
    | some r => commit s r
    | none => s
  | .nameRedeem origin name duration nouce code owner =>
    commit s (nameRedeem R s origin name duration nouce code owner)
  | .nameRedeemAny origin name duration nouce code owner =>
    commit s (nameRedeemAny R s origin name duration nouce code owner)

/-- The chain with the pallet, from a genesis that adds the numbers of `range`. -/
def redeemChain (T : Config) (range : Option (UInt32 × UInt32)) :
    Machine (RedeemState T) (RedeemInput R T) where
  init s := (chain T).init s.pns ∧ genesisRedeems range = some s.redeems
  step := redeemStep R

/-! ## The loops over the numbers -/

/-- A loop whose condition is that the number is below `stop` adds the numbers from
`nouce` up to `stop`, and ends. -/
theorem insertWhile_eq (cond : UInt32 → Bool) {stop : ℕ} (hstop : stop < 2 ^ 32)
    (hcond : ∀ m, cond m = true ↔ m.toNat < stop) (fuel : ℕ) (nouce : UInt32)
    (redeems : StorageMap UInt32 Unit) (hfuel : stop - nouce.toNat < fuel) :
    ∃ redeems', insertWhile cond fuel nouce redeems = some redeems' ∧
      ∀ m, redeems'.get m
        = if nouce.toNat ≤ m.toNat ∧ m.toNat < stop then some () else redeems.get m := by
  induction fuel generalizing nouce redeems with
  | zero => omega
  | succ fuel ih =>
    by_cases hlt : nouce.toNat < stop
    · have hnext : (nouce + 1).toNat = nouce.toNat + 1 := by
        rw [UInt32.toNat_add]
        exact Nat.mod_eq_of_lt (by simp; omega)
      obtain ⟨redeems', heq, hget⟩ := ih (nouce + 1) (redeems.insert nouce ()) (by omega)
      refine ⟨redeems', ?_, fun m => ?_⟩
      · rw [insertWhile, if_pos ((hcond nouce).mpr hlt), heq]
      · rw [hget, hnext, StorageMap.get_insert]
        have hm : m = nouce ↔ m.toNat = nouce.toNat := UInt32.toNat_inj.symm
        grind
    · refine ⟨redeems, ?_, fun m => ?_⟩
      · rw [insertWhile, if_neg fun hc => hlt ((hcond nouce).mp hc)]
      · rw [if_neg (by omega)]

/-- A loop up to and including `stop` adds the numbers from `nouce` to `stop`, and ends if
`stop` has a successor. -/
theorem insertWhile_le {stop : UInt32} (hmax : stop ≠ 4294967295) (fuel : ℕ) (nouce : UInt32)
    (redeems : StorageMap UInt32 Unit) (hfuel : stop.toNat + 1 < fuel) :
    ∃ redeems', insertWhile (fun nouce => nouce ≤ stop) fuel nouce redeems = some redeems' ∧
      ∀ m, redeems'.get m = if nouce ≤ m ∧ m ≤ stop then some () else redeems.get m := by
  have hlt : stop.toNat + 1 < 2 ^ 32 := by
    have hne : stop.toNat ≠ 4294967295 := fun he => hmax (UInt32.toNat_inj.mp he)
    have := stop.toNat_lt
    omega
  obtain ⟨redeems', heq, hget⟩ := insertWhile_eq (fun nouce => nouce ≤ stop) hlt
    (fun m => by rw [decide_eq_true_iff, UInt32.le_iff_toNat_le, Nat.lt_succ_iff]) fuel nouce
    redeems (by omega)
  refine ⟨redeems', heq, fun m => ?_⟩
  rw [hget]
  simp only [UInt32.le_iff_toNat_le, Nat.lt_succ_iff]

/-- With the largest number as its end, `mint_redeem` does not return. -/
theorem insertWhile_max (fuel : ℕ) (nouce : UInt32) (redeems : StorageMap UInt32 Unit) :
    insertWhile (fun nouce => nouce ≤ 4294967295) fuel nouce redeems = none := by
  induction fuel generalizing nouce redeems with
  | zero => rfl
  | succ fuel ih =>
    have hle : nouce ≤ 4294967295 := by
      rw [UInt32.le_iff_toNat_le]
      exact Nat.le_of_lt_succ nouce.toNat_lt
    rw [insertWhile, if_pos (decide_eq_true hle), ih]

end PnsPallets
