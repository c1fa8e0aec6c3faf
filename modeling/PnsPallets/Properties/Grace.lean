import PnsPallets.InGrace
import PnsPallets.Properties.Redeeming

/-!
# The grace period

A name is its holder's until `expire + GracePeriod`. The sum is written out about a
dozen times, compared with the time by `<`, `<=` and `>`, and it wraps. Two results
about it:

- `expiry_checks_partition_iff`: the checks of the `Registrar` trait and the tests
  inside the calls agree, and say who the name belongs to, at every time but the end of
  the grace period itself. There `check_expires_renewable` and `transfer` are strict
  where `renew` and `still_valid` are not, and the name is not registrable yet;
- `grace_fits_iff`: `register` and `renew` check `now + duration` only, and
  `for_redeem_code` compares two sums that may both wrap. The end of the grace period
  is a time after the expiry exactly if it is before the end of time.
-/

namespace PnsPallets

open Frame Registry Registrar

variable {T : Config} {s s' : State T} {a : AccountId} {n : DomainHash} {info : RegistrarInfo}

/-! ## One boundary, many tests -/

theorem burnFee_fails (s : State T) (who : AccountId) (fee : Balance) :
    FailsOnly (· ≠ .registrar .notRenewable) (burnFee s who fee) := by
  refine .bind ?_ fun _ _ => .ok _
  cases T.currency.withdraw s.balances who fee .keepAlive with
  | error index => exact .error (by simp)
  | ok w => exact .ok w

/-- `renew` raises `NotRenewable` at its time test, and only there. -/
theorem renew_notRenewable_iff (hopen : T.isOpen = true)
    (ha : s.registrar.ownerToPrimaryName.get a = some n)
    (hinfo : s.registrar.registrarInfos.get n = some info) :
    renew s (.signed a) = .error (.registrar .notRenewable) ↔ ¬ s.now ≤ graceEnd T info := by
  constructor
  · intro herr hle
    have hfails : FailsOnly (· ≠ .registrar .notRenewable) (renew s (.signed a)) := by
      refine .bind (.ok a) fun who hwho => ?_
      refine .bind (.ensure (by simp)) fun _ _ => ?_
      refine .bind (.okOr (by simp)) fun m hm => ?_
      refine .bind (.okOr (by simp)) fun i hi => ?_
      obtain rfl : a = who := Except.ok.inj hwho
      obtain rfl : n = m := Option.some.inj (ha.symm.trans (okOr_eq_ok.mp hm))
      obtain rfl : info = i := Option.some.inj (hinfo.symm.trans (okOr_eq_ok.mp hi))
      refine .bind (.ensure_of hle) fun _ _ => ?_
      refine .bind (.okOr (by simp)) fun price _ => ?_
      refine .bind (burnFee_fails _ _ _) fun s₁ _ => ?_
      exact .bind (.okOr (by simp)) fun _ _ => .ok _
    exact hfails _ herr rfl
  · intro hlt
    refine bind_eq_error rfl ?_
    refine bind_eq_error (ensure_eq_ok (u := ()).mpr hopen) ?_
    refine bind_eq_error (okOr_eq_ok.mpr ha) ?_
    refine bind_eq_error (okOr_eq_ok.mpr hinfo) ?_
    rw [ensure, if_neg hlt]
    rfl

/-- A name that is handed over passes the test of `transfer`. -/
theorem transfer_inGrace {dest : MultiAddress}
    (ha : s.registrar.ownerToPrimaryName.get a = some n)
    (hinfo : s.registrar.registrarInfos.get n = some info)
    (h : (transfer s (.signed a) dest).isOk = true) : s.now < graceEnd T info := by
  obtain ⟨s', hs'⟩ := isOk_iff.mp h
  obtain ⟨who, d, m, primary, s₁, ho, -, hm, htest, -⟩ := registrarTransfer_eq_ok hs'
  obtain rfl : a = who := Origin.signed.inj ho
  obtain rfl : n = m := Option.some.inj (ha.symm.trans hm)
  exact htest info hinfo

/-- The checks of a registered node, against each other and against the tests inside the
calls. Exactly one of `check_expires_registrable` and `check_expires_renewable` succeeds,
the latter agrees with `still_valid` and with the time test of `renew`, exactly if it is
not the very end of the grace period, where neither succeeds. A usable name is always
renewable, and a name that can be transferred is too. -/
theorem expiry_checks_partition_iff (hinfo : s.registrar.registrarInfos.get n = some info)
    (hfit : info.expire.toNat + T.gracePeriod.toNat < 2 ^ 64) :
    (((checkExpiresRegistrable s n).isOk = true ↔ ¬ (checkExpiresRenewable s n).isOk = true) ↔
      s.now ≠ graceEnd T info) ∧
    ((checkExpiresRegistrable s n).isOk = true ∨ (checkExpiresRenewable s n).isOk = true ↔
      s.now ≠ graceEnd T info) ∧
    (((checkExpiresRenewable s n).isOk = true ↔ stillValid s n = true) ↔
      s.now ≠ graceEnd T info) ∧
    (∀ a, s.registrar.ownerToPrimaryName.get a = some n →
      hasValidCanonicalName s a = stillValid s n ∧
      (dropStaleCanonicalName s a).isOk = !stillValid s n ∧
      (∀ dest, (transfer s (.signed a) dest).isOk = true →
        (checkExpiresRenewable s n).isOk = true) ∧
      (T.isOpen = true →
        (((checkExpiresRenewable s n).isOk = true ↔
          renew s (.signed a) ≠ .error (.registrar .notRenewable)) ↔
        s.now ≠ graceEnd T info))) ∧
    ((checkExpiresUseable s n).isOk = true → (checkExpiresRenewable s n).isOk = true) := by
  simp only [isOk_checkExpiresRegistrable hinfo, isOk_checkExpiresRenewable hinfo,
    isOk_checkExpiresUseable hinfo, stillValid_eq hinfo, decide_eq_true_iff]
  have hne : s.now ≠ graceEnd T info ↔ s.now.toNat ≠ (graceEnd T info).toNat :=
    not_congr UInt64.toNat_inj.symm
  refine ⟨?_, ?_, ?_, fun a ha =>
    ⟨?_, ?_, fun dest h => transfer_inGrace ha hinfo h, fun hopen => ?_⟩, ?_⟩
  · rw [hne, gt_iff_lt, UInt64.lt_iff_toNat_lt, UInt64.lt_iff_toNat_lt]
    omega
  · rw [hne, gt_iff_lt, UInt64.lt_iff_toNat_lt, UInt64.lt_iff_toNat_lt]
    omega
  · rw [hne, UInt64.lt_iff_toNat_lt, UInt64.le_iff_toNat_le]
    omega
  · unfold hasValidCanonicalName
    rw [ha]
    exact stillValid_eq hinfo
  · unfold dropStaleCanonicalName
    rw [ha]
    show (if stillValid s n = true then _ else _ : DispatchResult (State T)).isOk = _
    rw [stillValid_eq hinfo]
    by_cases hle : s.now ≤ graceEnd T info <;> simp [hle, Except.isOk, Except.toBool]
  · rw [Ne, renew_notRenewable_iff hopen ha hinfo, not_not, hne, UInt64.lt_iff_toNat_lt,
      UInt64.le_iff_toNat_le]
    omega
  · rw [UInt64.lt_iff_toNat_lt, UInt64.lt_iff_toNat_lt, graceEnd, UInt64.toNat_add,
      Nat.mod_eq_of_lt hfit]
    omega

/-- Account 1 registers `alice`, and the grace period of the name ends. -/
def Devnet.graceEndInputs : List (Input Devnet.config) :=
  [ .extrinsic (.signed (account 1)) (.register alice (.id (account 1)) none),
    .newBlock (config.maxRegistrationDuration + config.gracePeriod) 1 (digest 1) balances ]

open Devnet in
/-- While `alice` is in its term, it is renewable and not registrable. -/
theorem expiry_checks_partition_iff_alice :
    ((checkExpiresRegistrable afterRegistration (node alice)).isOk = true ↔
      ¬ (checkExpiresRenewable afterRegistration (node alice)).isOk = true) := by
  obtain ⟨info, hinfo, htime⟩ := Option.any_eq_true _ _ |>.mp (by decide +kernel :
    (afterRegistration.registrar.registrarInfos.get (node alice)).any (fun info =>
      decide (info.expire.toNat + config.gracePeriod.toNat < 2 ^ 64 ∧
        afterRegistration.now ≠ graceEnd config info)) = true)
  obtain ⟨hfit, hne⟩ := of_decide_eq_true htime
  exact (expiry_checks_partition_iff hinfo hfit).1.mpr hne

open Devnet in
/-- At the end of the grace period of `alice` both checks fail. The name still counts as
that of account 1, which can renew it and cannot transfer it. -/
theorem grace_end_fails_both_checks :
    Reachable config labels (after graceEndInputs) ∧
    ((after graceEndInputs).registrar.registrarInfos.get (node alice)).any (fun info =>
      decide (info.expire.toNat + config.gracePeriod.toNat < 2 ^ 64 ∧
        (after graceEndInputs).now = graceEnd config info)) = true ∧
    (checkExpiresRegistrable (after graceEndInputs) (node alice)).isOk = false ∧
    (checkExpiresRenewable (after graceEndInputs) (node alice)).isOk = false ∧
    stillValid (after graceEndInputs) (node alice) = true ∧
    (renew (after graceEndInputs) (.signed (account 1))).isOk = true ∧
    (transfer (after graceEndInputs) (.signed (account 1)) (.id (account 2))).isOk = false :=
  ⟨reachable_after (by decide +kernel), by decide +kernel⟩

/-! ## The sum wraps -/

/-- The grace period of the name ends at a time, and after its term: no moment of the term
looks like one past the grace period. -/
structure GraceFits (T : Config) (info : RegistrarInfo) : Prop where
  fits : info.expire.toNat + T.gracePeriod.toNat < 2 ^ 64
  live : ∀ t, t ≤ info.expire → t ≤ graceEnd T info

theorem graceFits_iff :
    GraceFits T info ↔ info.expire.toNat + T.gracePeriod.toNat < 2 ^ 64 := by
  refine ⟨GraceFits.fits, fun hfit => ⟨hfit, fun t ht => ?_⟩⟩
  rw [UInt64.le_iff_toNat_le] at ht ⊢
  rw [graceEnd, UInt64.toNat_add, Nat.mod_eq_of_lt hfit]
  omega

/-- A mint leaves the registrar's storage as its payment did. -/
theorem mintSubname_registrar {official dest : AccountId} {metadata : Bytes} {p : DomainHash}
    {capacity : UInt32} {pay : State T → Option AccountId → DispatchResult (State T)}
    (h : mintSubname s official metadata p n dest capacity pay = .ok s') :
    ∃ s₁, pay s (s.nft.ownerOf n) = .ok s₁ ∧ s'.registrar = s₁.registrar := by
  obtain ⟨s₁, hpay, hfinish⟩ := mintSubname_eq_ok h
  exact ⟨s₁, hpay, (congrArg State.registrar (mintFinish_frame hfinish) :)⟩

theorem redemptionInfo_expire {expire : Moment} {len : ℕ} :
    (redemptionInfo s n expire len).expire = expire := by
  unfold redemptionInfo
  cases s.registrar.registrarInfos.get n <;> rfl

/-- The expiry that `register` stores. -/
theorem register_expire {o : Origin} {name : Bytes} {owner : MultiAddress}
    {rejectOffer : Option Bytes} (h : register s o name owner rejectOffer = .ok s') :
    ∃ n info, topLevelNode T name = .ok n ∧ s'.registrar.registrarInfos.get n = some info ∧
      Moment.checkedAdd s.now T.maxRegistrationDuration = some info.expire := by
  obtain ⟨who, dest, s₁, -, -, hreject, hregister⟩ := register_eq_ok h
  obtain ⟨n, fee, expire, primary, s₂, v₁, v₂, hr, rfl⟩ := registerName_eq_ok hregister
  obtain ⟨official, -, hmint⟩ := hr.mint
  obtain ⟨s₃, hpay, hregistrar⟩ := mintSubname_registrar hmint
  obtain ⟨balances, primary', -, rfl⟩ := registerPayments_eq hpay
  refine ⟨n, registrationInfo { s₁ with registrar.ownerToPrimaryName := primary } n fee expire
    name.length, hr.node, ?_, ?_⟩
  · show s₂.registrar.registrarInfos.get n = _
    rw [hregistrar, StorageMap.get_insert, if_pos rfl]
  · rw [registrationInfo_expire, ← rejectPendingOffer_now hreject]
    exact hr.term

/-- The expiry that `renew` stores. -/
theorem renew_expire {o : Origin} (h : renew s o = .ok s') :
    ∃ who n info, o = .signed who ∧ s.registrar.ownerToPrimaryName.get who = some n ∧
      s'.registrar.registrarInfos.get n = some info ∧
      Moment.checkedAdd s.now T.maxRegistrationDuration = some info.expire := by
  obtain ⟨who, n, i, fee, balances, expire, rfl, hn, -, -, -, -, hexpire, rfl⟩ := renew_eq_ok h
  refine ⟨who, n, { i with expire := expire }, rfl, hn, ?_, hexpire⟩
  show (s.registrar.registrarInfos.insert n _).get n = _
  rw [StorageMap.get_insert, if_pos rfl]

/-- The expiry that `for_redeem_code` stores, and its overflow guard. -/
theorem forRedeemCode_expire {name : Bytes} {dest : AccountId} {duration : Moment} {label : Label}
    (h : forRedeemCode s name dest duration label = .ok s') :
    ∃ info, s'.registrar.registrarInfos.get (label.encodeWithNode T.keccak256 T.baseNode)
        = some info ∧
      Moment.checkedAdd s.now (min duration T.maxRegistrationDuration) = some info.expire ∧
      info.expire + T.gracePeriod > s.now + T.gracePeriod := by
  unfold forRedeemCode at h
  simp only [bind_eq_ok, okOr_eq_ok, ensure_eq_ok, pure_eq_ok] at h
  obtain ⟨official, -, expire, hexpire, -, hguard, s₀, hs₀, -, -, s₁, hmint, v, -, rfl⟩ := h
  obtain ⟨-, primary, -, rfl⟩ := dropStaleCanonicalName_eq hs₀
  obtain ⟨s₂, hpay, hregistrar⟩ := mintSubname_registrar hmint
  obtain ⟨primary', rfl⟩ := redeemPayments_eq hpay
  refine ⟨redemptionInfo { s with registrar.ownerToPrimaryName := primary }
    (label.encodeWithNode T.keccak256 T.baseNode) expire name.length, ?_, ?_, ?_⟩
  · show s₁.registrar.registrarInfos.get _ = _
    rw [hregistrar, StorageMap.get_insert, if_pos rfl]
  · rw [redemptionInfo_expire]
    exact hexpire
  · rw [redemptionInfo_expire]
    exact hguard

/-- The guard of `for_redeem_code`: of two sums of which the second is the smaller, both or
neither wrap. -/
theorem guard_fits_iff {now expire grace : Moment} (hle : now ≤ expire)
    (hguard : expire + grace > now + grace) :
    expire.toNat + grace.toNat < 2 ^ 64 ↔ now.toNat + grace.toNat < 2 ^ 64 := by
  rw [gt_iff_lt, UInt64.lt_iff_toNat_lt, UInt64.toNat_add, UInt64.toNat_add] at hguard
  rw [UInt64.le_iff_toNat_le] at hle
  have := expire.toNat_lt
  omega

/-- A name that `register`, `renew` or `for_redeem_code` sets the term of does not expire
before now. The end of its grace period is a time, and the name never looks expired in its
term, exactly if `now + duration + GracePeriod` is a time for `register` and `renew`, and
exactly if `now + GracePeriod` is one for `for_redeem_code`. -/
theorem grace_fits_iff (T : Config) :
    (∀ (s s' : State T) o name owner rejectOffer,
      register s o name owner rejectOffer = .ok s' →
      ∃ n info, topLevelNode T name = .ok n ∧ s'.registrar.registrarInfos.get n = some info ∧
        s.now ≤ info.expire ∧
        (GraceFits T info ↔
          s.now.toNat + T.maxRegistrationDuration.toNat + T.gracePeriod.toNat < 2 ^ 64)) ∧
    (∀ (s s' : State T) o, renew s o = .ok s' →
      ∃ who n info, o = .signed who ∧ s.registrar.ownerToPrimaryName.get who = some n ∧
        s'.registrar.registrarInfos.get n = some info ∧ s.now ≤ info.expire ∧
        (GraceFits T info ↔
          s.now.toNat + T.maxRegistrationDuration.toNat + T.gracePeriod.toNat < 2 ^ 64)) ∧
    (∀ (s s' : State T) name dest duration label,
      forRedeemCode s name dest duration label = .ok s' →
      ∃ info, s'.registrar.registrarInfos.get (label.encodeWithNode T.keccak256 T.baseNode)
          = some info ∧
        s.now ≤ info.expire ∧
        (GraceFits T info ↔ s.now.toNat + T.gracePeriod.toNat < 2 ^ 64)) := by
  refine ⟨fun s s' o name owner rejectOffer h => ?_, fun s s' o h => ?_,
    fun s s' name dest duration label h => ?_⟩
  · obtain ⟨n, info, hn, hinfo, hexpire⟩ := register_expire h
    refine ⟨n, info, hn, hinfo, Moment.le_of_checkedAdd hexpire, ?_⟩
    rw [graceFits_iff, Moment.checkedAdd_eq_some hexpire]
  · obtain ⟨who, n, info, rfl, hn, hinfo, hexpire⟩ := renew_expire h
    refine ⟨who, n, info, rfl, hn, hinfo, Moment.le_of_checkedAdd hexpire, ?_⟩
    rw [graceFits_iff, Moment.checkedAdd_eq_some hexpire]
  · obtain ⟨info, hinfo, hexpire, hguard⟩ := forRedeemCode_expire h
    have hle := Moment.le_of_checkedAdd hexpire
    exact ⟨info, hinfo, hle, graceFits_iff.trans (guard_fits_iff hle hguard)⟩

open Devnet in
/-- `alice` registered at genesis has a grace period. -/
theorem grace_fits_iff_alice :
    ∃ info, afterRegistration.registrar.registrarInfos.get (node alice) = some info ∧
      GraceFits config info := by
  obtain ⟨s', hs'⟩ := isOk_iff.mp (by decide +kernel :
    (register start (.signed (account 1)) alice (.id (account 1)) none).isOk = true)
  obtain ⟨n, info, hn, hinfo, -, hfits⟩ := (grace_fits_iff config).1 _ _ _ _ _ _ hs'
  have hnode : topLevelNode config alice = .ok (node alice) := by decide +kernel
  obtain rfl : node alice = n := Except.ok.inj (hnode.symm.trans hn)
  have hafter : afterRegistration = s' := by
    rw [afterRegistration, after_singleton]
    show commit start (register start (.signed (account 1)) alice (.id (account 1)) none) = s'
    rw [hs', commit_ok]
  rw [hafter]
  exact ⟨info, hinfo, hfits.mpr (by decide +kernel)⟩

open Devnet in
/-- Near the end of time `alice` is registered for a full year, and at once counts as
expired. At the same time the guard of `for_redeem_code` lets a redemption through, with
the same result. -/
theorem grace_period_wraps :
    Reachable config labels (after lastTermInputs) ∧
    ((after lastTermInputs).registrar.registrarInfos.get (node alice)).any (fun info =>
      decide ((after lastTermInputs).now < info.expire ∧
        2 ^ 64 ≤ info.expire.toNat + config.gracePeriod.toNat)) = true ∧
    stillValid (after lastTermInputs) (node alice) = false ∧
    stillValid (commit (apply start (.newBlock 18446744073709551000 1 (digest 1) balances))
      (forRedeemCode (apply start (.newBlock 18446744073709551000 1 (digest 1) balances)) alice
        (account 1) 100 ⟨keccak256 alice⟩)) (node alice) = false ∧
    (forRedeemCode (apply start (.newBlock 18446744073709551000 1 (digest 1) balances)) alice
        (account 1) 100 ⟨keccak256 alice⟩).isOk = true :=
  ⟨reachable_after (by decide +kernel), by decide +kernel⟩

end PnsPallets
