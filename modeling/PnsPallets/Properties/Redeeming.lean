import PnsPallets.Properties.Payments
import PnsPallets.RedeemCode
import PnsPallets.Registry.Tables

/-!
# Redeem codes

Four results about the redeem-code pallet beside the registrar:

- `mint_redeem_range_iff`: `mint_redeem` adds the numbers of its range, both ends
  included, by a loop that does not end if the range goes to the largest number;
- `redeem_codes_bound`: over any run a number is redeemed no more often than it was
  added, and a code verifies for what was signed only — the two calls sign messages
  of different lengths;
- `reserved_redeemable_iff`: `register` refuses reserved names, `name_redeem_any` does
  not look at the list. A reserved name stays unminted exactly as long as it is not
  redeemed;
- `redeem_like_register_iff`: `for_redeem_code` is a copy of the body of `register`. It
  leaves the same state up to the payment, except that it writes no SS58 record and
  keeps the length on record.

Nothing is assumed of the states of the first and the last two.
-/

namespace PnsPallets

open Frame Registry Registrar

variable {T : Config} {R : RedeemConfig} {s s' : RedeemState T} {o : Origin} {name : Bytes}
  {duration : Moment} {nouce : UInt32} {code : R.Signature} {owner : AccountId}

/-! ## Single use -/

/-- `nouce` is one of the numbers the genesis adds. -/
def genesisCovers : Option (UInt32 × UInt32) → UInt32 → Bool
  | some (start, stop), nouce => start ≤ nouce && nouce < stop
  | none, _ => false

/-- How often each number was added, and how often redeemed. -/
structure RedeemLog where
  added : UInt32 → ℕ
  redeemed : UInt32 → ℕ

/-- The log after a redemption of `nouce`. -/
def RedeemLog.redeem (log : RedeemLog) (nouce : UInt32) : RedeemLog :=
  { log with redeemed := Function.update log.redeemed nouce (log.redeemed nouce + 1) }

/-- The log after an input. -/
def noteRedeem (R : RedeemConfig) (s : RedeemState T) : RedeemInput R T → RedeemLog → RedeemLog
  | .pns _, log => log
  | .mintRedeem origin start stop, log =>
    match mintRedeem R s origin start stop with
    | some (.ok _) =>
      { log with
        added := fun k => if start ≤ k ∧ k ≤ stop then log.added k + 1 else log.added k }
    | some (.error _) | none => log
  | .nameRedeem origin name duration nouce code owner, log =>
    if (nameRedeem R s origin name duration nouce code owner).isOk then log.redeem nouce else log
  | .nameRedeemAny origin name duration nouce code owner, log =>
    if (nameRedeemAny R s origin name duration nouce code owner).isOk then log.redeem nouce
    else log

/-- The log of the genesis. -/
def genesisLog (range : Option (UInt32 × UInt32)) : RedeemLog where
  added k := if genesisCovers range k then 1 else 0
  redeemed _ := 0

/-- The chain with the log of its redemptions. -/
def redeemLogChain (R : RedeemConfig) (T : Config) (range : Option (UInt32 × UInt32)) :
    Machine (RedeemState T × RedeemLog) (RedeemInput R T) :=
  (redeemChain R T range).logging (genesisLog range) (noteRedeem R)

theorem genesisRedeems_get {range : Option (UInt32 × UInt32)} {redeems : StorageMap UInt32 Unit}
    (h : genesisRedeems range = some redeems) (k : UInt32) :
    (redeems.get k).isSome = genesisCovers range k := by
  cases range with
  | none =>
    obtain rfl := Option.some.inj h
    simp [genesisCovers]
  | some pair =>
    obtain ⟨start, stop⟩ := pair
    obtain ⟨redeems', heq, hget⟩ := insertWhile_eq (fun nouce => nouce < stop) stop.toNat_lt
      (by simp [UInt32.lt_iff_toNat_lt]) rounds start .empty
      (by have := stop.toNat_lt; unfold rounds; omega)
    obtain rfl : redeems' = redeems := Option.some.inj (heq.symm.trans h)
    rw [hget]
    simp only [genesisCovers, UInt32.le_iff_toNat_le, UInt32.lt_iff_toNat_lt]
    split
    · next hk => simp [hk]
    · next hk => simpa using hk

/-- A call of `mint_redeem` that succeeds adds the numbers from `start` to `stop`. -/
theorem mintRedeem_eq_ok {start stop : UInt32}
    (h : mintRedeem R s o start stop = some (.ok s')) :
    s'.pns = s.pns ∧ ∀ k, s'.redeems.get k
      = if start ≤ k ∧ k ≤ stop then some () else s.redeems.get k := by
  unfold mintRedeem at h
  split at h
  · cases h
  · split at h
    · obtain ⟨redeems, hloop, hs'⟩ := Option.map_eq_some_iff.mp h
      obtain rfl := Except.ok.inj hs'
      refine ⟨rfl, fun k => ?_⟩
      -- the condition is `nouce ≤ end`, so an end at the largest number never stops the loop
      have hmax : stop ≠ 4294967295 := by
        rintro rfl
        rw [insertWhile_max] at hloop
        cases hloop
      obtain ⟨redeems', heq, hget⟩ := insertWhile_le hmax rounds start s.redeems
        (by have := stop.toNat_lt; unfold rounds; omega)
      obtain rfl : redeems' = redeems := Option.some.inj (heq.symm.trans hloop)
      exact hget k
    · cases h

/-- A call by the manager for a range is the loop. -/
theorem mintRedeem_eq (s : RedeemState T) {who : AccountId}
    (hmanager : R.managerOrigin o = .ok who) {start stop : UInt32} (hlt : start < stop) :
    mintRedeem R s o start stop
      = (insertWhile (fun nouce => nouce ≤ stop) rounds start s.redeems).map
        fun redeems => .ok { s with redeems := redeems } := by
  unfold mintRedeem
  rw [hmanager]
  exact if_pos hlt

/-- `mint_redeem` of a range `start < stop`, the only condition it checks, returns with exactly
the numbers of the range added if and only if `stop` is not the largest number. There the
loop condition `nouce <= end` always holds, and the loop does not end. -/
theorem mint_redeem_range_iff (R : RedeemConfig) (s : RedeemState T) {who : AccountId}
    (hmanager : R.managerOrigin o = .ok who) {start stop : UInt32} (hlt : start < stop) :
    ((∃ s', mintRedeem R s o start stop = some (.ok s') ∧ s'.pns = s.pns ∧
        ∀ k, s'.redeems.get k = if start ≤ k ∧ k ≤ stop then some () else s.redeems.get k) ↔
      stop ≠ 4294967295) ∧
    ((∃ fuel redeems, insertWhile (fun nouce => nouce ≤ stop) fuel start s.redeems = some redeems) ↔
      stop ≠ 4294967295) := by
  have hcall := mintRedeem_eq s hmanager hlt
  have hends : (∃ fuel redeems,
      insertWhile (fun nouce => nouce ≤ stop) fuel start s.redeems = some redeems) ↔
      stop ≠ 4294967295 := by
    constructor
    · rintro ⟨fuel, redeems, hloop⟩ rfl
      rw [insertWhile_max] at hloop
      cases hloop
    · intro hmax
      obtain ⟨redeems, hloop, -⟩ := insertWhile_le hmax (stop.toNat + 2) start s.redeems (by omega)
      exact ⟨_, redeems, hloop⟩
  refine ⟨⟨?_, fun hmax => ?_⟩, hends⟩
  · rintro ⟨s', hs', -⟩
    rw [hcall] at hs'
    obtain ⟨redeems, hloop, -⟩ := Option.map_eq_some_iff.mp hs'
    exact hends.mp ⟨rounds, redeems, hloop⟩
  · obtain ⟨redeems, hloop, hget⟩ := insertWhile_le hmax rounds start s.redeems
      (by have := stop.toNat_lt; unfold rounds; omega)
    refine ⟨{ s with redeems := redeems }, ?_, rfl, hget⟩
    rw [hcall, hloop]
    rfl

/-- A request to redeem: what its code has to sign. -/
inductive RedeemRequest where
  | name (name : Bytes) (duration : Moment) (nouce : UInt32)
  | any (duration : Moment) (nouce : UInt32)

/-- The number of a request. -/
def RedeemRequest.number : RedeemRequest → UInt32
  | .name _ _ nouce => nouce
  | .any _ nouce => nouce

/-- The message of a request. -/
def RedeemRequest.message (keccak256 : Bytes → H256) : RedeemRequest → Bytes
  | .name name duration nouce => redeemMessage (keccak256 (toAsciiLowercase name)) duration nouce
  | .any duration nouce => redeemAnyMessage duration nouce

/-- What a request hashes. -/
def RedeemRequest.labels : RedeemRequest → List Bytes
  | .name name _ _ => [toAsciiLowercase name]
  | .any _ _ => []

/-- A request up to the case of its label. -/
def RedeemRequest.lowercase : RedeemRequest → RedeemRequest
  | .name name duration nouce => .name (toAsciiLowercase name) duration nouce
  | .any duration nouce => .any duration nouce

/-- The code redeems the request. -/
inductive Redeems (R : RedeemConfig) (s : RedeemState T) (code : R.Signature) :
    RedeemRequest → RedeemState T → Prop where
  | name {o : Origin} {name : Bytes} {duration : Moment} {nouce : UInt32} {owner : AccountId}
      {s' : RedeemState T} : nameRedeem R s o name duration nouce code owner = .ok s' →
      Redeems R s code (.name name duration nouce) s'
  | any {o : Origin} {name : Bytes} {duration : Moment} {nouce : UInt32} {owner : AccountId}
      {s' : RedeemState T} : nameRedeemAny R s o name duration nouce code owner = .ok s' →
      Redeems R s code (.any duration nouce) s'

theorem nameRedeem_eq_ok (h : nameRedeem R s o name duration nouce code owner = .ok s') :
    (s.redeems.get nouce).isSome = true ∧ ∃ label signer,
      Label.newWithLen T.keccak256 name = some label ∧
      R.verify code (redeemMessage label.1.node duration nouce) signer = true ∧
      forRedeemCode s.pns name owner duration label.1 = .ok s'.pns ∧
      s'.redeems = s.redeems.remove nouce := by
  unfold nameRedeem at h
  simp only [bind_eq_ok, ofPns_eq_ok, okOr_eq_ok, ensure_eq_ok, pure_eq_ok] at h
  obtain ⟨-, -, -, hnouce, label, hlabel, signer, -, -, hverify, pns, hpns, rfl⟩ := h
  exact ⟨hnouce, label, signer, hlabel, hverify, hpns, rfl⟩

theorem nameRedeemAny_eq_ok (h : nameRedeemAny R s o name duration nouce code owner = .ok s') :
    (s.redeems.get nouce).isSome = true ∧ ∃ label signer,
      Label.newWithLen T.keccak256 name = some label ∧
      R.verify code (redeemAnyMessage duration nouce) signer = true ∧
      forRedeemCode s.pns name owner duration label.1 = .ok s'.pns ∧
      s'.redeems = s.redeems.remove nouce := by
  unfold nameRedeemAny at h
  simp only [bind_eq_ok, ofPns_eq_ok, okOr_eq_ok, ensure_eq_ok, pure_eq_ok] at h
  obtain ⟨-, -, -, hnouce, label, hlabel, -, -, signer, -, -, hverify, pns, hpns, rfl⟩ := h
  exact ⟨hnouce, label, signer, hlabel, hverify, hpns, rfl⟩

/-- A redemption takes a number that is there, and its code verifies for the request. -/
theorem Redeems.spec {r : RedeemRequest} (h : Redeems R s code r s') :
    (s.redeems.get r.number).isSome = true ∧ s'.redeems = s.redeems.remove r.number ∧
      ∃ signer, R.verify code (r.message T.keccak256) signer = true := by
  cases h with
  | name h =>
    obtain ⟨hnouce, label, signer, hlabel, hverify, -, hredeems⟩ := nameRedeem_eq_ok h
    rw [label_newWithLen_node hlabel] at hverify
    exact ⟨hnouce, hredeems, signer, hverify⟩
  | any h =>
    obtain ⟨hnouce, label, signer, -, hverify, -, hredeems⟩ := nameRedeemAny_eq_ok h
    exact ⟨hnouce, hredeems, signer, hverify⟩

/-- What was redeemed, and what may still be, was added. -/
def Accounted (s : RedeemState T) (log : RedeemLog) : Prop :=
  ∀ k, log.redeemed k + (if (s.redeems.get k).isSome then 1 else 0) ≤ log.added k

theorem Accounted.redeem {log : RedeemLog} {r : RedeemRequest} (ha : Accounted s log)
    (h : Redeems R s code r s') : Accounted s' (log.redeem r.number) := by
  obtain ⟨hthere, hredeems, -⟩ := h.spec
  intro k
  have hk := ha k
  rw [hredeems, StorageMap.get_remove]
  by_cases hkr : k = r.number
  · subst hkr
    simp [RedeemLog.redeem, hthere] at hk ⊢
    exact hk
  · simp [RedeemLog.redeem, hkr]
    exact hk

theorem Accounted.mint {log : RedeemLog} {start stop : UInt32} (ha : Accounted s log)
    (h : mintRedeem R s o start stop = some (.ok s')) :
    Accounted s' { log with
      added := fun k => if start ≤ k ∧ k ≤ stop then log.added k + 1 else log.added k } := by
  intro k
  have hk := ha k
  rw [(mintRedeem_eq_ok h).2]
  show log.redeemed k + _ ≤ if _ then _ else _
  split
  · have : log.redeemed k ≤ log.added k := le_trans (Nat.le_add_right _ _) hk
    simpa using this
  · exact hk

/-- The books balance in every reached state. -/
theorem redeemLogChain_accounted {range : Option (UInt32 × UInt32)}
    {p : RedeemState T × RedeemLog}
    (h : (redeemLogChain R T range).Reach (fun _ _ => True) p) : Accounted p.1 p.2 := by
  refine Machine.Reach.invariant (I := fun p : RedeemState T × RedeemLog => Accounted p.1 p.2)
    ?_ ?_ h
  · rintro ⟨s, log⟩ ⟨⟨-, hgenesis⟩, rfl⟩ k
    rw [genesisRedeems_get hgenesis]
    simp [genesisLog]
  · rintro ⟨s, log⟩ i ha -
    cases i with
    | pns i => exact ha
    | mintRedeem origin start stop =>
      show Accounted (redeemStep R s (.mintRedeem origin start stop))
        (noteRedeem R s (.mintRedeem origin start stop) log)
      cases hres : mintRedeem R s origin start stop with
      | none => simpa [redeemStep, noteRedeem, hres] using ha
      | some r =>
        cases r with
        | error err => simpa [redeemStep, noteRedeem, hres, commit] using ha
        | ok s' => simpa [redeemStep, noteRedeem, hres, commit] using ha.mint hres
    | nameRedeem origin name duration nouce code owner =>
      show Accounted (commit s (nameRedeem R s origin name duration nouce code owner))
        (if (nameRedeem R s origin name duration nouce code owner).isOk then log.redeem nouce
          else log)
      cases hres : nameRedeem R s origin name duration nouce code owner with
      | error err => exact ha
      | ok s' => exact ha.redeem (.name hres)
    | nameRedeemAny origin name duration nouce code owner =>
      show Accounted (commit s (nameRedeemAny R s origin name duration nouce code owner))
        (if (nameRedeemAny R s origin name duration nouce code owner).isOk then log.redeem nouce
          else log)
      cases hres : nameRedeemAny R s origin name duration nouce code owner with
      | error err => exact ha
      | ok s' => exact ha.redeem (.any hres)

/-! ## Messages -/

theorem length_redeemMessage (labelNode : DomainHash) (duration : Moment) (nouce : UInt32) :
    (redeemMessage labelNode duration nouce).length = 44 := by
  simp [redeemMessage, labelNode.length_eq]

theorem length_redeemAnyMessage (duration : Moment) (nouce : UInt32) :
    (redeemAnyMessage duration nouce).length = 12 := by
  simp [redeemAnyMessage]

theorem redeemAnyMessage_inj {duration' : Moment} {nouce' : UInt32}
    (h : redeemAnyMessage duration nouce = redeemAnyMessage duration' nouce') :
    duration = duration' ∧ nouce = nouce' := by
  obtain ⟨hd, hn⟩ := List.append_inj h (by simp)
  exact ⟨Scale.encodeU64_inj hd, Scale.encodeU32_inj hn⟩

theorem redeemMessage_inj {labelNode labelNode' : DomainHash} {duration' : Moment}
    {nouce' : UInt32}
    (h : redeemMessage labelNode duration nouce = redeemMessage labelNode' duration' nouce') :
    labelNode = labelNode' ∧ duration = duration' ∧ nouce = nouce' := by
  unfold redeemMessage at h
  rw [List.append_assoc, List.append_assoc] at h
  obtain ⟨hl, hrest⟩ := List.append_inj h (by rw [labelNode.length_eq, labelNode'.length_eq])
  obtain ⟨hd, hn⟩ := redeemAnyMessage_inj hrest
  exact ⟨H256.bytes_inj hl, hd, hn⟩

/-- Requests with the same message are the same up to the case of the label, if the hash does
not collide on their labels. -/
theorem RedeemRequest.message_inj {keccak256 : Bytes → H256} {r r' : RedeemRequest}
    (hinj : ∀ x ∈ r.labels, ∀ y ∈ r'.labels, keccak256 x = keccak256 y → x = y)
    (h : r.message keccak256 = r'.message keccak256) : r.lowercase = r'.lowercase := by
  have hlen := congrArg List.length h
  cases r with
  | name name duration nouce =>
    cases r' with
    | name name' duration' nouce' =>
      obtain ⟨hl, rfl, rfl⟩ := redeemMessage_inj h
      have hname := hinj _ List.mem_cons_self _ List.mem_cons_self hl
      simp only [RedeemRequest.lowercase, hname]
    | any duration' nouce' =>
      simp [RedeemRequest.message, length_redeemMessage, length_redeemAnyMessage] at hlen
  | any duration nouce =>
    cases r' with
    | name name' duration' nouce' =>
      simp [RedeemRequest.message, length_redeemMessage, length_redeemAnyMessage] at hlen
    | any duration' nouce' =>
      obtain ⟨rfl, rfl⟩ := redeemAnyMessage_inj h
      rfl

/-- Over any run no number is redeemed more often than it was added, and a failed redemption
leaves the numbers as they are. Requests that differ in more than the case of the label
have different messages as far as the hash does not collide on their labels; so a code that
verifies for one message redeems, whenever and through whichever call, one request. -/
theorem redeem_codes_bound {range : Option (UInt32 × UInt32)} {p : RedeemState T × RedeemLog}
    (h : (redeemLogChain R T range).Reach (fun _ _ => True) p) :
    (∀ k, p.2.redeemed k ≤ p.2.added k) ∧
    (∀ o name duration nouce code owner,
      ((nameRedeem R p.1 o name duration nouce code owner).isOk = false →
        (redeemStep R p.1 (.nameRedeem o name duration nouce code owner)).redeems
          = p.1.redeems) ∧
      ((nameRedeemAny R p.1 o name duration nouce code owner).isOk = false →
        (redeemStep R p.1 (.nameRedeemAny o name duration nouce code owner)).redeems
          = p.1.redeems)) ∧
    (∀ r r' : RedeemRequest,
      (∀ x ∈ r.labels, ∀ y ∈ r'.labels, T.keccak256 x = T.keccak256 y → x = y) →
      r.lowercase ≠ r'.lowercase → r.message T.keccak256 ≠ r'.message T.keccak256) ∧
    ∀ (code : R.Signature) (s₁ s₁' s₂ s₂' : RedeemState T) (r r' : RedeemRequest),
      (∀ m m' a a', R.verify code m a = true → R.verify code m' a' = true → m = m') →
      (∀ x ∈ r.labels, ∀ y ∈ r'.labels, T.keccak256 x = T.keccak256 y → x = y) →
      Redeems R s₁ code r s₁' → Redeems R s₂ code r' s₂' → r.lowercase = r'.lowercase := by
  refine ⟨fun k => ?_, fun o name duration nouce code owner => ⟨?_, ?_⟩, ?_, ?_⟩
  · exact le_trans (Nat.le_add_right _ _) (redeemLogChain_accounted h k)
  · intro hfail
    rw [redeemStep, commit_of_fail hfail]
  · intro hfail
    rw [redeemStep, commit_of_fail hfail]
  · exact fun r r' hinj hne hmsg => hne (RedeemRequest.message_inj hinj hmsg)
  · intro code s₁ s₁' s₂ s₂' r r' hone hinj h₁ h₂
    obtain ⟨-, -, signer, hverify⟩ := h₁.spec
    obtain ⟨-, -, signer', hverify'⟩ := h₂.spec
    exact RedeemRequest.message_inj hinj (hone _ _ _ _ hverify hverify')

namespace Devnet

/-- `TestSignature`, the scheme of the pallet's tests (mock.rs:318): a signature is the signer
and the message itself. -/
def redeemConfig : RedeemConfig where
  Signature := AccountId × Bytes
  verify code message signer := decide (code = (signer, message))
  managerOrigin := ensureManager

/-- The genesis state of the chain, with the numbers 0 to 2 to redeem. -/
def redeemStart : RedeemState config where
  pns := start
  redeems := (genesisRedeems (some (0, 3))).get (by decide +kernel)

theorem redeemStart_init : (redeemChain redeemConfig config (some (0, 3))).init redeemStart :=
  ⟨start_init, by rw [redeemStart, Option.some_get]⟩

/-- The code of the official account, account 0, for `alice` and the number 0. -/
def nameCode (duration : Moment) : redeemConfig.Signature :=
  (account 0, redeemMessage (keccak256 alice) duration 0)

/-- The code of the official account for any name and the number 0. -/
def anyCode (duration : Moment) : redeemConfig.Signature :=
  (account 0, redeemAnyMessage duration 0)

/-- Account 1 redeems the number 0 for `alice`. -/
def redeemAlice : RedeemInput redeemConfig config :=
  .nameRedeem (.signed (account 1)) alice 1000 0 (nameCode 1000) (account 1)

end Devnet

open Devnet in
/-- Account 1 redeems the number 0 for `alice`, and fails to redeem it again. -/
theorem redeem_codes_bound_alice :
    let p := (redeemLogChain redeemConfig config (some (0, 3))).run
      (redeemStart, genesisLog (some (0, 3))) [redeemAlice, redeemAlice]
    p.2.redeemed 0 = 1 ∧ p.2.redeemed 0 ≤ p.2.added 0 := by
  intro p
  have hreach : (redeemLogChain redeemConfig config (some (0, 3))).Reach (fun _ _ => True) p :=
    .run (.init ⟨redeemStart_init, rfl⟩) ⟨trivial, trivial, trivial⟩
  exact ⟨by decide +kernel, (redeem_codes_bound hreach).1 0⟩

open Devnet in
/-- Root adds the numbers 5 to 9. -/
theorem mint_redeem_range_iff_root :
    ∃ s', mintRedeem redeemConfig redeemStart .root 5 9 = some (.ok s') ∧
      s'.redeems.get 9 = some () := by
  obtain ⟨s', hs', -, hget⟩ :=
    (mint_redeem_range_iff redeemConfig redeemStart (o := .root) rfl
      (by decide : (5 : UInt32) < 9)).1.mpr (by decide)
  exact ⟨s', hs', (hget 9).trans (if_pos (by decide))⟩

open Devnet in
/-- `mint_redeem(0, u32::MAX)` does not return, however long it runs. -/
theorem mint_to_max_does_not_return :
    (0 : UInt32) < 4294967295 ∧
    mintRedeem redeemConfig redeemStart .root 0 4294967295 = none ∧
    ∀ fuel, insertWhile (fun nouce => nouce ≤ 4294967295) fuel 0 redeemStart.redeems = none := by
  refine ⟨by decide, ?_, fun fuel => insertWhile_max fuel 0 _⟩
  rw [mintRedeem_eq (R := redeemConfig) redeemStart (o := .root) rfl (by decide), insertWhile_max]
  rfl

/-! ## Reserved names -/

section Reserved

variable {t t' : State T} {a : AccountId} {n c : DomainHash}

theorem registerPayments_nft {fee : Balance} {expire : Moment} {len : ℕ} {prev : Option AccountId}
    (h : registerPayments a n fee expire len t prev = .ok t') : t'.nft = t.nft := by
  obtain ⟨balances, primary, -, rfl⟩ := registerPayments_eq h
  rfl

/-- The closure of `for_redeem_code` touches pointers and the registration record. -/
theorem redeemPayments_eq {expire : Moment} {len : ℕ} {prev : Option AccountId}
    (h : redeemPayments n expire len t prev = .ok t') :
    ∃ primary, t' = { t with
      registrar.ownerToPrimaryName := primary
      registrar.registrarInfos :=
        t.registrar.registrarInfos.insert n (redemptionInfo t n expire len) } := by
  obtain ⟨primary, heq, -⟩ := freePreviousOwner_eq t n prev
  unfold redeemPayments at h
  rw [heq] at h
  cases h
  exact ⟨primary, rfl⟩

theorem redeemPayments_nft {expire : Moment} {len : ℕ} {prev : Option AccountId}
    (h : redeemPayments n expire len t prev = .ok t') : t'.nft = t.nft := by
  obtain ⟨primary, rfl⟩ := redeemPayments_eq h
  rfl

/-- `register` gives its name to the owner and no other name to anyone. -/
theorem registerName_ownerOf (h : registerName t a name owner = .ok t') :
    ∃ m, topLevelNode T name = .ok m ∧ t.registrar.reservedList.containsKey m = false ∧
      t'.nft.ownerOf m = some owner ∧
      ∀ k, k ≠ m → t'.nft.ownerOf k = t.nft.ownerOf k ∨ t'.nft.ownerOf k = none := by
  obtain ⟨m, fee, expire, primary, t₁, v₁, v₂, hr, rfl⟩ := registerName_eq_ok h
  obtain ⟨official, -, hmint⟩ := hr.mint
  have hown := mintSubname_ownerOf (fun prev s' hpay => registerPayments_nft hpay) hmint
  exact ⟨m, hr.node, hr.unreserved, hown.1, hown.2⟩

/-- So does a redemption, without a look at the reserved names. -/
theorem forRedeemCode_ownerOf {label : Label}
    (h : forRedeemCode t name owner duration label = .ok t') :
    t'.nft.ownerOf (label.encodeWithNode T.keccak256 T.baseNode) = some owner ∧
      ∀ k, k ≠ label.encodeWithNode T.keccak256 T.baseNode →
        t'.nft.ownerOf k = t.nft.ownerOf k ∨ t'.nft.ownerOf k = none := by
  unfold forRedeemCode at h
  simp only [bind_eq_ok, okOr_eq_ok, ensure_eq_ok, pure_eq_ok] at h
  obtain ⟨official, -, expire, -, -, -, t₀, ht₀, -, -, t₁, hmint, v, -, rfl⟩ := h
  obtain ⟨-, primary, -, rfl⟩ := dropStaleCanonicalName_eq ht₀
  have hown := mintSubname_ownerOf (fun prev s' hpay => redeemPayments_nft hpay) hmint
  exact hown

/-- Some account owns `n` afterwards that did not before: the name was minted, or moved to a
new owner. -/
def Grants (n : DomainHash) (t t' : State T) : Prop :=
  ∃ a, t'.nft.ownerOf n = some a ∧ t.nft.ownerOf n ≠ some a

theorem not_grants_of_shrinks (h : t'.nft.ownerOf n = t.nft.ownerOf n ∨ t'.nft.ownerOf n = none) :
    ¬ Grants n t t' := by
  rintro ⟨a, hown, hnew⟩
  rcases h with heq | hnone
  · exact hnew (heq.symm.trans hown)
  · rw [hnone] at hown
    cases hown

/-- A name that nobody owns stays so exactly if it is not granted. -/
theorem not_grants_iff (h : t.nft.ownerOf n = none) :
    ¬ Grants n t t' ↔ t'.nft.ownerOf n = none := by
  constructor
  · intro hg
    cases hown : t'.nft.ownerOf n with
    | none => rfl
    | some a => exact absurd ⟨a, hown, by simp [h]⟩ hg
  · exact fun hnone => not_grants_of_shrinks (Or.inr hnone)

/-- `register` grants no reserved name. -/
theorem register_not_grants {dest : MultiAddress} {rejectOffer : Option Bytes}
    (hres : t.registrar.reservedList.containsKey n = true)
    (h : register t o name dest rejectOffer = .ok t') : ¬ Grants n t t' := by
  obtain ⟨caller, owner, t₁, -, -, hrej, hreg⟩ := register_eq_ok h
  have hshrinks := rejectPendingOffer_shrinks hrej
  obtain ⟨m, -, hfree, -, hrest⟩ := registerName_ownerOf hreg
  -- the phase before the check does not change the list
  have hne : n ≠ m := by
    rintro rfl
    rw [rejectPendingOffer_reservedList hrej, hres] at hfree
    cases hfree
  refine not_grants_of_shrinks ?_
  rcases hrest n hne with heq | hnone
  · rw [heq]
    exact hshrinks n
  · exact Or.inr hnone

/-- `name_redeem_any` grants a name exactly if it is for this name and a new owner. -/
theorem nameRedeemAny_not_grants_iff
    (h : nameRedeemAny R s o name duration nouce code owner = .ok s') :
    ¬ Grants n s.pns s'.pns ↔ topLevelNode T name ≠ .ok n ∨ s.pns.nft.ownerOf n = some owner := by
  obtain ⟨-, label, signer, hlabel, -, hpns, -⟩ := nameRedeemAny_eq_ok h
  obtain ⟨hown, hrest⟩ := forRedeemCode_ownerOf hpns
  rw [topLevelNode_eq_ok.mpr ⟨label, hlabel, rfl⟩]
  generalize label.1.encodeWithNode T.keccak256 T.baseNode = m at hown hrest
  by_cases hm : n = m
  · subst hm
    constructor
    · intro hg
      by_contra hnot
      exact hg ⟨owner, hown, fun hsame => hnot (Or.inr hsame)⟩
    · rintro (hne | hsame)
      · exact absurd rfl hne
      · exact not_grants_of_shrinks (Or.inl (hown.trans hsame.symm))
  · exact iff_of_true (not_grants_of_shrinks (hrest n hm))
      (Or.inl fun heq => hm (Except.ok.inj heq).symm)

theorem addReserved_nft (h : addReserved t o name = .ok t') : t'.nft = t.nft := by
  obtain ⟨node, -, rfl⟩ := addReserved_eq_ok h
  rfl

theorem removeReserved_nft (h : removeReserved t o name = .ok t') : t'.nft = t.nft := by
  obtain ⟨node, -, rfl⟩ := removeReserved_eq_ok h
  rfl

/-- The calls in which the caller chooses the name, the changes of the reserved names, and
new blocks. -/
inductive Chosen : RedeemInput R T → Prop where
  | register (o : Origin) (name : Bytes) (dest : MultiAddress) (rejectOffer : Option Bytes) :
      Chosen (.pns (.extrinsic o (.register name dest rejectOffer)))
  | addReserved (o : Origin) (name : Bytes) : Chosen (.pns (.extrinsic o (.addReserved name)))
  | removeReserved (o : Origin) (name : Bytes) :
      Chosen (.pns (.extrinsic o (.removeReserved name)))
  | newBlock (now : Moment) (number : UInt32) (parentHash : H256) (balances : T.Ledger) :
      Chosen (.pns (.newBlock now number parentHash balances))
  | nameRedeemAny (o : Origin) (name : Bytes) (duration : Moment) (nouce : UInt32)
      (code : R.Signature) (owner : AccountId) :
      Chosen (.nameRedeemAny o name duration nouce code owner)

/-- The input is a successful call of `name_redeem_any` for the name of node `n`. -/
def RedeemsNode (s : RedeemState T) (n : DomainHash) : RedeemInput R T → Prop
  | .nameRedeemAny o name duration nouce code owner =>
    (nameRedeemAny R s o name duration nouce code owner).isOk = true ∧ topLevelNode T name = .ok n
  | _ => False

/-- A reserved name that nobody owns stays so in a step exactly if it is not redeemed. -/
theorem chosen_step {i : RedeemInput R T} (hi : Chosen i)
    (hres : s.pns.registrar.reservedList.containsKey n = true)
    (hnone : s.pns.nft.ownerOf n = none) :
    (redeemStep R s i).pns.nft.ownerOf n = none ↔ ¬ RedeemsNode s n i := by
  -- the calls other than `name_redeem_any` redeem nothing, and leave the name to nobody
  cases hi with
  | register o name dest rejectOffer =>
    refine iff_of_true ?_ id
    exact commit_keeps (P := fun t : State T => t.nft.ownerOf n = none) hnone
      fun t' hok => (not_grants_iff hnone).mp (register_not_grants hres hok)
  | addReserved o name =>
    refine iff_of_true ?_ id
    exact commit_keeps (P := fun t : State T => t.nft.ownerOf n = none) hnone
      fun t' hok => (congrArg (NftStorage.ownerOf · n) (addReserved_nft hok)).trans hnone
  | removeReserved o name =>
    refine iff_of_true ?_ id
    exact commit_keeps (P := fun t : State T => t.nft.ownerOf n = none) hnone
      fun t' hok => (congrArg (NftStorage.ownerOf · n) (removeReserved_nft hok)).trans hnone
  | newBlock now number parentHash balances => exact iff_of_true hnone id
  | nameRedeemAny o name duration nouce code owner =>
    show (commit s (nameRedeemAny R s o name duration nouce code owner)).pns.nft.ownerOf n = none ↔
      ¬ ((nameRedeemAny R s o name duration nouce code owner).isOk = true ∧ _)
    cases hres : nameRedeemAny R s o name duration nouce code owner with
    | error err => exact iff_of_true hnone fun h => Bool.noConfusion h.1
    | ok s' =>
      rw [commit_ok, ← not_grants_iff hnone, nameRedeemAny_not_grants_iff hres, hnone]
      simp [Except.isOk, Except.toBool]

/-- `register` grants no reserved name, whatever its arguments. `name_redeem_any` does not look
at the list: it grants the name exactly if it is for this name and a new owner. So over any
run of these calls, of changes of the list and of new blocks, a name that is reserved
throughout and owned by nobody at first stays so exactly if the run does not redeem it. -/
theorem reserved_redeemable_iff (R : RedeemConfig) (T : Config) (n : DomainHash) :
    (∀ (t t' : State T) (o : Origin) (name : Bytes) (dest : MultiAddress)
      (rejectOffer : Option Bytes), t.registrar.reservedList.containsKey n = true →
      register t o name dest rejectOffer = .ok t' → ¬ Grants n t t') ∧
    (∀ (s s' : RedeemState T) (o : Origin) (name : Bytes) (duration : Moment) (nouce : UInt32)
      (code : R.Signature) (owner : AccountId),
      s.pns.registrar.reservedList.containsKey n = true →
      nameRedeemAny R s o name duration nouce code owner = .ok s' →
      (¬ Grants n s.pns s'.pns ↔
        topLevelNode T name ≠ .ok n ∨ s.pns.nft.ownerOf n = some owner)) ∧
    ∀ (range : Option (UInt32 × UInt32)) (s t : RedeemState T) (tr : List (RedeemState T)),
      (redeemChain R T range).Path (fun _ i => Chosen i) s tr t →
      (∀ u ∈ tr, u.pns.registrar.reservedList.containsKey n = true) →
      s.pns.nft.ownerOf n = none →
      ((∀ u ∈ tr, u.pns.nft.ownerOf n = none) ↔
        (redeemChain R T range).Path (fun u i => Chosen i ∧ ¬ RedeemsNode u n i) s tr t) := by
  refine ⟨fun t t' o name dest rejectOffer hres h => register_not_grants hres h,
    fun s s' o name duration nouce code owner _ h => nameRedeemAny_not_grants_iff h, ?_⟩
  intro range s t tr hpath hres hnone
  exact hpath.all_iff hnone fun u i hu hi hown => chosen_step hi (hres u hu) hown

end Reserved

namespace Devnet

/-- `polkadot`, one of the reserved names of the preset. -/
def polkadot : Bytes := [112, 111, 108, 107, 97, 100, 111, 116]

/-- Account 1 redeems the number 0 for a name of its choice. -/
def redeemAny (name : Bytes) : RedeemInput redeemConfig config :=
  .nameRedeemAny (.signed (account 1)) name 1000 0 (anyCode 1000) (account 1)

end Devnet

open Devnet in
/-- The redemption of `alice` leaves the reserved `polkadot` to nobody. -/
theorem reserved_redeemable_iff_alice :
    let M := redeemChain redeemConfig config (some (0, 3))
    (M.step redeemStart (redeemAny alice)).pns.nft.ownerOf (node alice) = some (account 1) ∧
    ∀ u ∈ [redeemStart, M.step redeemStart (redeemAny alice)],
      u.pns.nft.ownerOf (node polkadot) = none := by
  intro M
  refine ⟨by decide +kernel, ?_⟩
  have hchosen : Chosen (redeemAny alice) := .nameRedeemAny _ _ _ _ _ _
  have hother : ¬ RedeemsNode redeemStart (node polkadot) (redeemAny alice) :=
    fun h => absurd h.2 (by decide +kernel)
  have hiff := (reserved_redeemable_iff redeemConfig config (node polkadot)).2.2 (some (0, 3))
    redeemStart _ _ (.single hchosen) (by decide +kernel) (by decide +kernel)
  exact hiff.mpr (.single ⟨hchosen, hother⟩)

open Devnet in
/-- `register` refuses `polkadot`, and a code for any name redeems it. -/
theorem reserved_name_redeemed :
    start.registrar.reservedList.containsKey (node polkadot) = true ∧
    (register start (.signed (account 1)) polkadot (.id (account 1)) none).isOk = false ∧
    Grants (node polkadot) redeemStart.pns
      (redeemStep redeemConfig redeemStart (redeemAny polkadot)).pns :=
  ⟨by decide +kernel, by decide +kernel, account 1, by decide +kernel, by decide +kernel⟩

/-! ## Redeeming and registering -/

section LikeRegister

variable {t r u u' v w w' : State T} {a : AccountId} {n : DomainHash} {fee : Balance}
  {expire : Moment} {len : ℕ} {prev : Option AccountId}

/-- The two payments differ in the balances and in the registration record of the name. -/
theorem payments_agree (h : registerPayments a n fee expire len t prev = .ok w)
    (h' : redeemPayments n expire len t prev = .ok w') :
    w.registrar.registrarInfos
        = t.registrar.registrarInfos.insert n (registrationInfo t n fee expire len) ∧
      w.resolvers = t.resolvers ∧
      w' = { w with
        balances := t.balances
        registrar.registrarInfos :=
          t.registrar.registrarInfos.insert n (redemptionInfo t n expire len) } := by
  obtain ⟨primary, heq, -⟩ := freePreviousOwner_eq t n prev
  unfold registerPayments burnFee at h
  unfold redeemPayments at h'
  rw [heq] at h h'
  simp only [bind_eq_ok, pure_eq_ok] at h
  obtain ⟨w₁, ⟨withdrawn, -, rfl⟩, rfl⟩ := h
  cases h'
  exact ⟨rfl, rfl, rfl⟩

/-- So do the two mints; and the records of the name are gone if it had an owner. -/
theorem mints_agree {official dest : AccountId} {metadata : Bytes} {p : DomainHash}
    {capacity : UInt32}
    (h : mintSubname t official metadata p n dest capacity
      (registerPayments a n fee expire len) = .ok u)
    (h' : mintSubname t official metadata p n dest capacity
      (redeemPayments n expire len) = .ok u') :
    u.registrar.registrarInfos
        = t.registrar.registrarInfos.insert n (registrationInfo t n fee expire len) ∧
      (∀ rt, u.resolvers.records.get (n, rt)
        = if t.nft.ownerOf n = none then t.resolvers.records.get (n, rt) else none) ∧
      u' = { u with
        balances := t.balances
        registrar.registrarInfos :=
          t.registrar.registrarInfos.insert n (redemptionInfo t n expire len) } := by
  obtain ⟨w, hpay, hfinish⟩ := mintSubname_eq_ok h
  obtain ⟨w', hpay', hfinish'⟩ := mintSubname_eq_ok h'
  obtain ⟨hinfos, hresolvers, hw'⟩ := payments_agree hpay hpay'
  -- the rest of the mint is the same function of the tables, which the payments share
  have hu : u = u.over w := mintFinish_frame hfinish
  have hu' : u' = u.over w' := by
    have htables : w' = w.over w' := by
      rw [hw']
      rfl
    rw [htables] at hfinish'
    exact mintFinish_over hfinish hfinish'
  refine ⟨?_, fun rt => ?_, ?_⟩
  · rw [hu]
    exact hinfos
  · rw [mintFinish_records hfinish, hresolvers]
  · rw [hu', hw', hu]
    rfl

/-- The registration record without the fee. -/
def RegistrarInfo.withoutFee (info : RegistrarInfo) : RegistrarInfo :=
  { info with registerFee := 0 }

/-- The two registration records differ in the fee, and in the length where there was a record
with another one. -/
theorem redemptionInfo_withoutFee_iff :
    (redemptionInfo t n expire len).withoutFee = (registrationInfo t n fee expire len).withoutFee ↔
      ∀ info, t.registrar.registrarInfos.get n = some info → info.labelLen = UInt32.ofNat len := by
  unfold redemptionInfo registrationInfo RegistrarInfo.withoutFee
  cases t.registrar.registrarInfos.get n with
  | none => simp
  | some info => simp

/-- The two calls from the same state: they differ in the payment, and the SS58 record is
written by `register` alone. -/
theorem calls_agree (hduration : T.maxRegistrationDuration ≤ duration)
    (hreg : registerName t a name owner = .ok r) {label : Label × ℕ}
    (hlabel : Label.newWithLen T.keccak256 name = some label)
    (hred : forRedeemCode t name owner duration label.1 = .ok v)
    (hn : topLevelNode T name = .ok n) :
    ∃ (fee : Balance) (expire : Moment) (u : State T) (anchor origin : Content T),
      anchor.val = owner.encode ∧
      u.registrar.registrarInfos
        = t.registrar.registrarInfos.insert n (registrationInfo t n fee expire name.length) ∧
      (∀ rt, u.resolvers.records.get (n, rt)
        = if t.nft.ownerOf n = none then t.resolvers.records.get (n, rt) else none) ∧
      r = { u with
        resolvers.records :=
          (u.resolvers.records.insert (n, .SS58) anchor).insert (n, .ORIGIN) origin } ∧
      v = { u with
        balances := t.balances
        registrar.registrarInfos :=
          t.registrar.registrarInfos.insert n (redemptionInfo t n expire name.length)
        resolvers.records := u.resolvers.records.insert (n, .ORIGIN) origin } := by
  obtain ⟨m, fee, expire, primary, u, v₁, v₂, hr, rfl⟩ := registerName_eq_ok hreg
  obtain ⟨official, hofficial, hmint⟩ := hr.mint
  obtain rfl : n = m := Except.ok.inj (hn.symm.trans hr.node)
  obtain ⟨label', hlabel', hlabelNode⟩ := topLevelNode_eq_ok.mp hn
  obtain rfl : label = label' := Option.some.inj (hlabel.symm.trans hlabel')
  unfold forRedeemCode getOfficialAccount at hred
  simp only [bind_eq_ok, okOr_eq_ok, ensure_eq_ok, pure_eq_ok] at hred
  rw [Moment.min_eq_right hduration, hlabelNode] at hred
  obtain ⟨official', hofficial', expire', hexpire', -, -, t₀, ht₀, -, -, u', hmint', v₃, hv₃,
    rfl⟩ := hred
  -- the two bodies read the same values from the same state
  obtain rfl : official = official' := Option.some.inj (hofficial.symm.trans hofficial')
  obtain rfl : expire = expire' := Option.some.inj (hr.term.symm.trans hexpire')
  obtain rfl := Except.ok.inj (hr.drop.symm.trans ht₀)
  obtain ⟨hinfos, hrecords, rfl⟩ := mints_agree hmint hmint'
  have hss58 := hr.ss58
  have horigin := hr.origin
  unfold Resolvers.setSs58Record at hss58
  unfold Resolvers.setOriginRecord at horigin hv₃
  simp only [bind_eq_ok, okOr_eq_ok, pure_eq_ok] at hss58 horigin hv₃
  obtain ⟨anchor, hanchor, rfl⟩ := hss58
  obtain ⟨origin, horigin, rfl⟩ := horigin
  obtain ⟨origin', horigin', rfl⟩ := hv₃
  obtain rfl : origin = origin' := Option.some.inj (horigin.symm.trans horigin')
  exact ⟨fee, expire, { u with
    registrar.ownerToPrimaryName := u.registrar.ownerToPrimaryName.insert owner n }, anchor, origin,
    BoundedVec.tryFrom_eq_some hanchor, hinfos, hrecords, rfl, rfl⟩

/-- A redemption for the full term leaves the state a registration leaves, with these
exceptions: nobody is charged, and the number is used up; the registration record has no
fee, and keeps the length of one that was there; and no SS58 record is written. So the
registration records agree up to the fee exactly if the length on record, if any, is
that of the name; and the records agree exactly if the name had no owner but, already,
the SS58 record of the new one. -/
theorem redeem_like_register_iff {caller : AccountId}
    (hduration : T.maxRegistrationDuration ≤ duration)
    (hreg : register s.pns (.signed caller) name (.id owner) none = .ok r)
    (hred : nameRedeem R s o name duration nouce code owner = .ok s') :
    ∃ n fee, topLevelNode T name = .ok n ∧ Charged s.pns caller fee r ∧
      s'.redeems = s.redeems.remove nouce ∧
      s'.pns = { r with
        balances := s.pns.balances
        registrar.registrarInfos := s'.pns.registrar.registrarInfos
        resolvers.records := s'.pns.resolvers.records } ∧
      (∀ k, k ≠ n →
        s'.pns.registrar.registrarInfos.get k = r.registrar.registrarInfos.get k) ∧
      (∀ k, k ≠ (n, .SS58) → s'.pns.resolvers.records.get k = r.resolvers.records.get k) ∧
      ((∀ k, (s'.pns.registrar.registrarInfos.get k).map RegistrarInfo.withoutFee
          = (r.registrar.registrarInfos.get k).map RegistrarInfo.withoutFee) ↔
        ∀ info, s.pns.registrar.registrarInfos.get n = some info →
          info.labelLen = UInt32.ofNat name.length) ∧
      ((∀ k, s'.pns.resolvers.records.get k = r.resolvers.records.get k) ↔
        s.pns.nft.ownerOf n = none ∧
          Resolvers.recordOf s.pns.resolvers n .SS58 = some owner.encode) := by
  obtain ⟨-, label, -, hlabel, -, hpns, hredeems⟩ := nameRedeem_eq_ok hred
  obtain ⟨who, fee, hwho, -, hcharged⟩ := register_charged hreg
  obtain rfl : caller = who := Origin.signed.inj hwho
  have hn := topLevelNode_eq_ok.mpr ⟨label, hlabel, rfl⟩
  obtain ⟨who, dest, t, hwho, hdest, hnone, hreg⟩ := register_eq_ok hreg
  obtain rfl : caller = who := Origin.signed.inj hwho
  obtain rfl : owner = dest := MultiAddress.id.inj hdest
  cases hnone
  obtain ⟨fee', expire, u, anchor, origin, hanchor, hinfos, hrecords, rfl, hs'⟩ :=
    calls_agree hduration hreg hlabel hpns hn
  generalize Label.encodeWithNode _ _ _ = n at *
  have hinfo : ∀ k, k ≠ n →
      s'.pns.registrar.registrarInfos.get k = u.registrar.registrarInfos.get k := by
    intro k hk
    rw [hs', hinfos]
    simp [hk]
  have hrecord : ∀ k, k ≠ (n, .SS58) → s'.pns.resolvers.records.get k
      = ((u.resolvers.records.insert (n, .SS58) anchor).insert (n, .ORIGIN) origin).get k := by
    intro k hk
    rw [hs']
    simp [StorageMap.get_insert, hk]
  refine ⟨n, fee, hn, hcharged, hredeems, ?_, hinfo, hrecord, ?_, ?_⟩
  · rw [hs']
  · rw [forall_eq_iff_of_ne fun k hk => congrArg (Option.map RegistrarInfo.withoutFee) (hinfo k hk),
      hinfos, hs', StorageMap.get_insert, if_pos rfl, StorageMap.get_insert, if_pos rfl]
    exact Option.some_inj.trans redemptionInfo_withoutFee_iff
  · have hanchored : ((u.resolvers.records.insert (n, .SS58) anchor).insert (n, .ORIGIN) origin).get
        (n, .SS58) = some anchor := by
      simp [StorageMap.get_insert]
    have hkept : s'.pns.resolvers.records.get (n, .SS58) = u.resolvers.records.get (n, .SS58) := by
      rw [hs']
      simp [StorageMap.get_insert]
    have hval : Resolvers.recordOf s.pns.resolvers n .SS58 = some owner.encode ↔
        s.pns.resolvers.records.get (n, .SS58) = some anchor := by
      rw [← hanchor]
      exact (Option.map_injective Subtype.val_injective).eq_iff (b := some anchor)
    rw [forall_eq_iff_of_ne hrecord, hanchored, hkept, hrecords, hval]
    split
    · next hfree => simp [hfree]
    · next howned => simp [howned]

end LikeRegister

open Devnet in
/-- `alice` registered, and `alice` redeemed for the full term: the same tokens, and the same
registration record up to the fee. -/
theorem redeem_like_register_iff_alice :
    ∃ r s', register redeemStart.pns (.signed (account 1)) alice (.id (account 1)) none = .ok r ∧
      nameRedeem redeemConfig redeemStart (.signed (account 1)) alice config.maxRegistrationDuration
        0 (nameCode config.maxRegistrationDuration) (account 1) = .ok s' ∧
      s'.pns.nft = r.nft ∧ s'.pns.registry = r.registry ∧
      (s'.pns.registrar.registrarInfos.get (node alice)).map RegistrarInfo.withoutFee
        = (r.registrar.registrarInfos.get (node alice)).map RegistrarInfo.withoutFee := by
  obtain ⟨r, hr⟩ := isOk_iff.mp (by decide +kernel :
    (register redeemStart.pns (.signed (account 1)) alice (.id (account 1)) none).isOk = true)
  obtain ⟨s', hs'⟩ := isOk_iff.mp (by decide +kernel :
    (nameRedeem redeemConfig redeemStart (.signed (account 1)) alice config.maxRegistrationDuration
      0 (nameCode config.maxRegistrationDuration) (account 1)).isOk = true)
  obtain ⟨n, fee, hn, -, -, hpns, -, -, hinfos, -⟩ :=
    redeem_like_register_iff (T := config) UInt64.le_rfl hr hs'
  have hnode : topLevelNode config alice = .ok (node alice) := by decide +kernel
  obtain rfl : node alice = n := Except.ok.inj (hnode.symm.trans hn)
  have hvacant : redeemStart.pns.registrar.registrarInfos.get (node alice) = none := by
    decide +kernel
  have hagree := hinfos.mpr fun info hinfo => by
    rw [hvacant] at hinfo
    cases hinfo
  exact ⟨r, s', hr, hs', (congrArg State.nft hpns :), (congrArg State.registry hpns :), hagree _⟩

open Devnet in
/-- The registered `alice` resolves to its owner, the redeemed one to nothing. -/
theorem redeemed_name_without_anchor :
    (nameRedeem redeemConfig redeemStart (.signed (account 1)) alice config.maxRegistrationDuration
      0 (nameCode config.maxRegistrationDuration) (account 1)).isOk = true ∧
    Resolvers.recordOf afterRegistration.resolvers (node alice) .SS58 = some (account 1).encode ∧
    Resolvers.recordOf (commit redeemStart (nameRedeem redeemConfig redeemStart
      (.signed (account 1)) alice config.maxRegistrationDuration 0
      (nameCode config.maxRegistrationDuration) (account 1))).pns.resolvers (node alice) .SS58
      = none :=
  ⟨by decide +kernel, by decide +kernel, by decide +kernel⟩

end PnsPallets
