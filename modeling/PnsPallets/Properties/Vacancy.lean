import PnsPallets.Properties.Registering
import PnsPallets.Properties.Tenure
import PnsPallets.Properties.Terms

/-!
# How long a name can be kept

Two sides of the same clock. An owner who is left alone can renew whenever the name has not lapsed
and the fee is at hand (`tenure_renewable`), so nobody can make them lose it. And a name that
nobody renews is free again one full term and one grace period later (`name_frees_up`), whatever
was done to it in between: listings, gifts, subnames and pointers of former owners do not stand in
the way of the next registration.
-/

namespace PnsPallets

open Frame Registry Registrar Rolls

variable {T : Config} {L : Set Bytes} {s s' : State T} {o : Origin} {call : Call T}
  {a : AccountId} {n : DomainHash} {i : Input T}

/-! ## Renewals -/

theorem not_lapsed (hcf : CollisionFree T.keccak256 T.baseNode L) (h : Reachable T L s)
    (hne : n ≠ T.baseNode) (hown : s.nft.ownerOf n = some a) (hlive : ¬ Lapsed s n) :
    ∃ info, s.registrar.registrarInfos.get n = some info ∧ s.now ≤ graceEnd T info := by
  obtain ⟨info, hinfo⟩ := Option.isSome_iff_exists.mp
    (((h.consistent hcf).hierarchy.info n).mpr ⟨hne, by rw [hown]; rfl⟩)
  exact ⟨info, hinfo, UInt64.not_lt.mp fun hlt => hlive (.inr ⟨info, hinfo, hlt⟩)⟩

/-- The owner of a name that has not lapsed answers to it. -/
theorem Tenure.pointer (hcf : CollisionFree T.keccak256 T.baseNode L) (h : Reachable T L s)
    (hne : n ≠ T.baseNode) (ht : Tenure a n s) (hlive : ¬ Lapsed s n) :
    s.registrar.ownerToPrimaryName.get a = some n := by
  obtain ⟨info, hinfo, hle⟩ := not_lapsed hcf h hne ht.owned hlive
  refine (h.oneName hcf).pointer a n ⟨view_owner_eq_some.mpr ⟨hne, ht.owned⟩,
    view_live.mpr (stillValid_iff.mpr ⟨info, hinfo, hle⟩), ?_⟩
  rw [view_gift_eq_none ht.ungifted]
  simp

/-- `a` can pay for a renewal of `n`, and the new term fits in the clock. -/
structure CanRenew (a : AccountId) (n : DomainHash) (s : State T) : Prop where
  fits : s.now.toNat + T.maxRegistrationDuration.toNat < 2 ^ 64
  pays : ∀ info, s.registrar.registrarInfos.get n = some info →
    ∃ fee, PriceOracle.registrationFee s.priceOracle info.labelLen.toNat = some fee ∧
      ∃ w, T.currency.withdraw s.balances a fee .keepAlive = .ok w

theorem Tenure.renews (hcf : CollisionFree T.keccak256 T.baseNode L) (h : Reachable T L s)
    (hopen : T.isOpen = true) (hne : n ≠ T.baseNode) (ht : Tenure a n s) (hlive : ¬ Lapsed s n)
    (hpay : CanRenew a n s) :
    ∃ s' info', dispatch s (.signed a) .renew = .ok s' ∧
      s'.registrar.registrarInfos.get n = some info' ∧
      info'.expire.toNat = s.now.toNat + T.maxRegistrationDuration.toNat := by
  obtain ⟨info, hinfo, hle⟩ := not_lapsed hcf h hne ht.owned hlive
  obtain ⟨fee, hfee, w, hw⟩ := hpay.pays info hinfo
  have hpointer := ht.pointer hcf h hne hlive
  have hterm : Moment.checkedAdd s.now T.maxRegistrationDuration
      = some (s.now + T.maxRegistrationDuration) := if_pos hpay.fits
  have hok : ∃ s', renew s (.signed a) = .ok s' := by
    simp only [renew, burnFee, canonicalNameOf, bind_eq_ok, okOr_eq_ok, ensure_eq_ok,
      ofCurrency_eq_ok, pure_eq_ok]
    exact ⟨_, a, rfl, (), hopen, n, hpointer, info, hinfo, (), hle, fee, hfee, _, ⟨w, hw, rfl⟩, _,
      hterm, rfl⟩
  obtain ⟨s', hok⟩ := hok
  obtain ⟨who, m, info', fee', balances, expire, ho, hm, -, -, -, -, hexpire, rfl⟩ :=
    renew_eq_ok hok
  obtain rfl : a = who := Origin.signed.inj ho
  obtain rfl : n = m := Option.some.inj (hpointer.symm.trans hm)
  exact ⟨_, _, hok, (StorageMap.get_insert _ _ _ _).trans (if_pos rfl),
    Moment.checkedAdd_eq_some hexpire⟩

/-- **An owner can keep a name.** Along every run that leaves the name alone, in every state in
which it has not lapsed and the owner can pay, `renew` succeeds, and the name then runs for a full
term from that moment. -/
theorem tenure_renewable (hcf : CollisionFree T.keccak256 T.baseNode L) (h : Reachable T L s)
    (hopen : T.isOpen = true) (hne : n ≠ T.baseNode) (ht : Tenure a n s) {tr : List (State T)}
    {t : State T} (hpath : (chain T).Path (LeftAlone L a n) s tr t) (hlive : ¬ Lapsed t n)
    (hpay : CanRenew a n t) :
    ∃ t' info', dispatch t (.signed a) .renew = .ok t' ∧ Tenure a n t' ∧
      t'.registrar.registrarInfos.get n = some info' ∧
      info'.expire.toNat = t.now.toNat + T.maxRegistrationDuration.toNat := by
  have hadm : (chain T).Path (Admissible L) s tr t := hpath.mono fun _ _ halone => halone.1
  have hreach : Reachable T L t := hadm.reach h
  have htenure := (ht.run hcf h hne hpath t hpath.last_mem).1
  obtain ⟨t', info', hok, hinfo', hexpire⟩ :=
    htenure.renews hcf hreach hopen hne hlive hpay
  have hlabels : ∀ l ∈ (Call.renew : Call T).labels, l ∈ L := by simp [Call.labels]
  have hkept := (htenure.step (i := .extrinsic (.signed a) .renew) hcf hreach hne
    ⟨hlabels, hlive, fun _ => rfl⟩).1
  have happly : apply t (.extrinsic (.signed a) .renew) = t' := by
    show commit t (dispatch t (.signed a) .renew) = t'
    rw [hok, commit_ok]
  exact ⟨t', info', hok, happly ▸ hkept, hinfo', hexpire⟩

open Devnet in
/-- Account 1 can renew `alice`. -/
theorem tenure_renewable_alice :
    ∃ t', dispatch afterRegistration (.signed (account 1)) .renew = .ok t' ∧
      Tenure (account 1) (node alice) t' := by
  have hown : afterRegistration.nft.ownerOf (node alice) = some (account 1) := by decide +kernel
  have hterm : ∀ info ∈ afterRegistration.registrar.registrarInfos.get (node alice),
      ¬ afterRegistration.now > graceEnd config info := by decide +kernel
  have hlive : ¬ Lapsed afterRegistration (node alice) := by
    rintro (hnone | ⟨info, hinfo, hlt⟩)
    · cases hown.symm.trans hnone
    · exact hterm info hinfo hlt
  have hfee : ∀ info ∈ afterRegistration.registrar.registrarInfos.get (node alice),
      PriceOracle.registrationFee afterRegistration.priceOracle info.labelLen.toNat
        = some 10000000000000 := by decide +kernel
  have hpay : CanRenew (account 1) (node alice) afterRegistration :=
    ⟨by decide +kernel, fun info hinfo => ⟨_, hfee info hinfo, _, eq_ok_get (by decide +kernel)⟩⟩
  have htenure : Tenure (account 1) (node alice) afterRegistration :=
    .of_unlisted hown (by decide +kernel) (by decide +kernel)
  obtain ⟨t', -, hok, hkept, -⟩ := tenure_renewable collisionFree afterRegistration_reachable rfl
    (by decide +kernel) htenure .refl hlive hpay
  exact ⟨t', hok, hkept⟩

/-! ## Lapses -/

/-- The input sets the term of `n`: a successful registration or renewal of it. -/
def SetsTerm (n : DomainHash) (s : State T) : Input T → Prop
  | .extrinsic o call => (dispatch s o call).isOk = true ∧
    ∃ entry, termEntry s o call = some entry ∧ entry.node = n
  | .newBlock _ _ _ _ => False

/-- The registration of `n`, if it has one, ends at `bound` at the latest. -/
def EndsBy (n : DomainHash) (bound : ℕ) (s : State T) : Prop :=
  ∀ info, s.registrar.registrarInfos.get n = some info → info.expire.toNat ≤ bound

/-- Only a call that sets the term of a name can put off its end. -/
theorem EndsBy.kept {bound : ℕ} (hcf : CollisionFree T.keccak256 T.baseNode L)
    (h : Reachable T L s) (hL : ∀ l ∈ call.labels, l ∈ L) (hok : dispatch s o call = .ok s')
    (hother : ∀ entry, termEntry s o call = some entry → entry.node ≠ n)
    (hends : EndsBy n bound s) : EndsBy n bound s' := by
  obtain ⟨es, henrols, hleads⟩ := dispatch_enrols hcf (h.consistent hcf) hL hok
  have hkeeps : ∀ e ∈ es, e.Keeps fun m (info : RegistrarInfo) =>
      m = n → info.expire.toNat ≤ bound := by
    cases henrols with
    | @register who dest name rejectOffer m fee expire hm _ _ _ =>
      have hne : m ≠ n := hother ⟨m, .register, s.blockNumber, s.now⟩
        (by simp [termEntry, hm, Except.toOption])
      intro e he
      rcases List.mem_append.mp he with he | he
      · exact strikes_keeps e he
      · obtain rfl := List.mem_singleton.mp he
        exact fun _ _ heq => absurd heq hne
    | @renew who m expire hm _ =>
      have hne : m ≠ n := hother ⟨m, .renew, s.blockNumber, s.now⟩ (by simp [termEntry, hm])
      intro e he
      obtain rfl := List.mem_singleton.mp he
      exact fun _ _ heq => absurd heq hne
    | other _ => exact strikes_keeps
  have hall := hleads.all hkeeps fun m info hinfo heq => hends info (heq ▸ hinfo)
  exact fun info hinfo => hall n info hinfo rfl

theorem EndsBy.step {bound : ℕ} (hcf : CollisionFree T.keccak256 T.baseNode L)
    (h : Reachable T L s) (hadm : Admissible L s i) (hother : ¬ SetsTerm n s i)
    (hends : EndsBy n bound s) : EndsBy n bound (apply s i) := by
  cases i with
  | newBlock now number hash ledger => exact hends
  | extrinsic o call =>
    rcases commit_cases s (dispatch s o call) with hsame | hok
    · have hsame : apply s (.extrinsic o call) = s := hsame
      rwa [hsame]
    · refine hends.kept hcf h hadm hok fun entry hentry heq => hother ⟨?_, entry, hentry, heq⟩
      exact isOk_iff.mpr ⟨_, hok⟩

/-- Past the bound and the grace period nobody has the name any more. -/
theorem EndsBy.lapsed {bound : ℕ} (hcf : CollisionFree T.keccak256 T.baseNode L)
    (h : Reachable T L s) (hne : n ≠ T.baseNode) (hends : EndsBy n bound s)
    (htime : bound + T.gracePeriod.toNat < s.now.toNat) : Lapsed s n := by
  cases hown : s.nft.ownerOf n with
  | none => exact .inl hown
  | some a =>
    obtain ⟨info, hinfo⟩ := Option.isSome_iff_exists.mp
      (((h.consistent hcf).hierarchy.info n).mpr ⟨hne, by rw [hown]; rfl⟩)
    refine .inr ⟨info, hinfo, UInt64.lt_iff_toNat_lt.mpr ?_⟩
    have hend : (graceEnd T info).toNat ≤ info.expire.toNat + T.gracePeriod.toNat := by
      unfold graceEnd
      rw [UInt64.toNat_add]
      exact Nat.mod_le _ _
    have hle := hends info hinfo
    omega

/-- What a newcomer needs, beside a free name: the label is not reserved, they are not the
official account, they have no valid name, `AccountToSubnames` lists nothing for them (also not a
name that they let expire), and the caller can pay. -/
structure Newcomer (s : State T) (caller : AccountId) (name : Bytes) (owner : AccountId) :
    Prop where
  unreserved : s.registrar.reservedList.containsKey (registeredNode T name) = false
  unofficial : s.nft.ownerOf T.baseNode ≠ some owner
  pointer : hasValidCanonicalName s owner = false
  held : ∀ m, s.registry.accountToSubnames.get (owner, m) = none
  affordable : ∃ fee, PriceOracle.registrationFee s.priceOracle name.length = some fee ∧
    ∃ w, T.currency.withdraw s.balances caller fee .keepAlive = .ok w

/-- **A name that is not renewed is free again.** On every run on which nobody registers or renews
the name, once a full term and a grace period have passed since the start, the name is free, and
`register` succeeds for every newcomer who can pay: whoever owned, listed, gave away or delegated
it before is no obstacle. -/
theorem name_frees_up (hcf : CollisionFree T.keccak256 T.baseNode L) (hopen : T.isOpen = true)
    (hlen : 32 ≤ T.maxContentLen) (h : Reachable T L s) {name : Bytes}
    (hL : toAsciiLowercase name ∈ L) (hlabel : IsLabel name) {tr : List (State T)} {t : State T}
    (hpath : (chain T).Path
      (fun x i => Admissible L x i ∧ ¬ SetsTerm (registeredNode T name) x i) s tr t)
    (htime : s.now.toNat + T.maxRegistrationDuration.toNat + T.gracePeriod.toNat < t.now.toNat)
    (hfit : t.now.toNat + T.maxRegistrationDuration.toNat < 2 ^ 64) (hissue : Issuable t) :
    Lapsed t (registeredNode T name) ∧
    ∀ caller owner, Newcomer t caller name owner →
      ∃ t', dispatch t (.signed caller) (.register name (.id owner) none) = .ok t' ∧
        t'.nft.ownerOf (registeredNode T name) = some owner := by
  have htop : TopLevel T L (registeredNode T name) := ⟨_, hL, rfl⟩
  have hadm : (chain T).Path (Admissible L) s tr t := hpath.mono fun _ _ hx => hx.1
  have hreach : Reachable T L t := hadm.reach h
  have hstart : EndsBy (registeredNode T name)
      (s.now.toNat + T.maxRegistrationDuration.toNat) s :=
    fun info hinfo => (h.inTerm hcf _ info hinfo).expire
  have hends := (hpath.invariant (I := fun x => Reachable T L x ∧
      EndsBy (registeredNode T name) (s.now.toNat + T.maxRegistrationDuration.toNat) x)
    ⟨h, hstart⟩ fun u i hi hu => ⟨hu.1.step hi.1, hu.2.step hcf hu.1 hi.1 hi.2⟩)
    t hpath.last_mem
  have hlapsed := hends.2.lapsed hcf hreach (htop.ne_base hcf) htime
  refine ⟨hlapsed, fun caller owner hnew => ?_⟩
  have hc := hreach.consistent hcf
  obtain ⟨t', hok⟩ := (registerName_isOk hcf hc hL hopen hlen hfit hissue caller owner).mpr
    { label := hlabel
      unreserved := hnew.unreserved
      lapsed := hlapsed
      unofficial := hnew.unofficial
      pointer := hnew.pointer
      held := hnew.held
      affordable := hnew.affordable }
  exact ⟨t', hok, (registerName_eq hcf hc hL hok).1⟩

/-- A block, a year and two months after the gift of `alice`. -/
def Devnet.lateBlock : Input Devnet.config := .newBlock 40000000000 1 (digest 1) balances

open Devnet in
/-- Account 4 registers `alice`, although the gift of it to account 3 is still pending. -/
theorem name_frees_up_after_gift :
    ∃ t', dispatch (apply afterGift lateBlock) (.signed (account 4))
        (.register alice (.id (account 4)) none) = .ok t' ∧
      t'.nft.ownerOf (registeredNode config alice) = some (account 4) := by
  have hadm : Admissible labels afterGift lateBlock := by decide +kernel
  have hpath : (chain config).Path (fun x i => Admissible labels x i ∧
      ¬ SetsTerm (registeredNode config alice) x i) afterGift
      ([afterGift] ++ [apply afterGift lateBlock]) (apply afterGift lateBlock) :=
    path_step .refl ⟨hadm, id⟩
  have hissue : Issuable (apply afterGift lateBlock) := by
    have hall : ((apply afterGift lateBlock).nft.classes.get classZero).all
        (fun cls => cls.totalIssuance.toNat + 1 < 2 ^ 128) = true := by decide +kernel
    intro cls hcls
    rw [hcls] at hall
    simpa using hall
  have hheld : hasActiveSubname (apply afterGift lateBlock) (account 4) = false := by
    decide +kernel
  have hfee : PriceOracle.registrationFee (apply afterGift lateBlock).priceOracle alice.length
      = some 10000000000000 := by decide +kernel
  have hnew : Newcomer (apply afterGift lateBlock) (account 4) alice (account 4) :=
    { unreserved := by decide +kernel
      unofficial := by decide +kernel
      pointer := by decide +kernel
      held := hasActiveSubname_eq_false.mp hheld
      affordable := ⟨_, hfee, _, eq_ok_get (by decide +kernel)⟩ }
  exact (name_frees_up collisionFree rfl (by decide) afterGift_reachable (by decide +kernel)
    (by decide +kernel) hpath (by decide +kernel) (by decide +kernel) hissue).2 _ _ hnew

end PnsPallets
