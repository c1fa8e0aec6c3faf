import PnsPallets.Properties.FormerHolder

/-!
# What expiry leaves the old holder

`register` and its siblings drop the pointer to an expired name "so the owner can
register anew", and then look into `AccountToSubnames`, where `mint_subname` has
entered the name and where no expiry removes it. An account that registered a name
stays listed for as long as it owns it (`registrant_listed`), so a call that would
give it a name and gets as far as the guards is refused. The one way round is a
registration that burns the expired name on its way, by the rejection of a gift that
is still pending for it (`expired_holder_admitted_iff`).
-/

namespace PnsPallets

open Frame Registry Registrar Zones Holdings

variable {T : Config} {L : Set Bytes} {s s' : State T} {a : AccountId} {n : DomainHash}
  {o : Origin} {call : Call T}

/-! ## The guards refuse a listed account -/

theorem dropStaleCanonicalName_fails (s : State T) (a : AccountId) :
    FailsOnly (· = .registrar .alreadyHasCanonicalName) (dropStaleCanonicalName s a) := by
  unfold dropStaleCanonicalName
  split
  · split
    · exact .error rfl
    · exact .ok _
  · exact .ok _

/-- The two guards refuse an account that has or is listed for a name. -/
theorem refused_of_named {α : Type} {f : State T → DispatchResult α} (h : ¬ Unnamed s a) :
    Refused (do
      let s ← dropStaleCanonicalName s a
      ensure (hasActiveSubname s a = false) (.registrar .alreadyHoldsSubdomain)
      f s) := by
  cases hdrop : dropStaleCanonicalName s a with
  | error e => exact ⟨e, rfl, by rw [dropStaleCanonicalName_fails s a e hdrop]; rfl⟩
  | ok s₀ =>
    obtain ⟨hstale, primary, -, rfl⟩ := dropStaleCanonicalName_eq hdrop
    have hlisted : ¬ hasActiveSubname s a = false := fun hsub =>
      h ⟨hstale, hasActiveSubname_eq_false.mp hsub⟩
    exact .next rfl (.bind (.ensure hlisted rfl))

theorem acceptSubnameOffer_refused (h : ¬ Unnamed s a) (c : DomainHash) :
    Refused (acceptSubnameOffer s c a) := by
  by_cases hvalid : hasValidCanonicalName s a = false
  · have hlisted : ¬ (s.registry.accountToSubnames.iterPrefix a).isEmpty = true := by
      have hsub : ¬ hasActiveSubname s a = false := fun hsub => h (unnamed_iff.mpr ⟨hsub, hvalid⟩)
      simpa [hasActiveSubname] using hsub
    exact .next_ensure hvalid (.bind (.ensure hlisted rfl))
  · exact .bind (.ensure hvalid rfl)

/-- After its `reject_offer` phase, `register` gets as far as the guards unless the time
overflows, and they let exactly the free accounts pass. -/
theorem registerName_refused_iff (hc : Consistent T L s) (hopen : T.isOpen = true)
    {label : Bytes} (hlabel : IsLabel label)
    (hreserved : s.registrar.reservedList.containsKey (registeredNode T label) = false)
    (payer : AccountId) :
    Refused (registerName s payer label a) ↔
      s.now.toNat + T.maxRegistrationDuration.toNat < 2 ^ 64 ∧ ¬ Unnamed s a := by
  constructor
  · intro hrefused
    refine ⟨?_, fun hfree => (hfree.registerName payer label).not_refused hrefused⟩
    by_contra hfit
    refine Admitted.not_refused ?_ hrefused
    refine .bind (.ensure rfl) fun _ _ => ?_
    refine .bind (.ensure rfl) fun _ _ => ?_
    refine .bind (.okOr rfl) fun _ _ => ?_
    refine .bind (.ensure rfl) fun _ _ => ?_
    refine .bind (.okOr rfl) fun _ _ => ?_
    refine .bind (.okOr rfl) fun expire hexpire => ?_
    rw [okOr_eq_ok, Moment.checkedAdd, if_neg hfit] at hexpire
    cases hexpire
  · rintro ⟨hfit, hnamed⟩
    obtain ⟨official, hofficial, -⟩ := hc.hierarchy.base
    have hne : label ≠ [] := by
      rintro rfl
      exact absurd hlabel.1 (by decide)
    refine .next_ensure hne ?_
    refine .next_ensure hopen ?_
    refine .next_okOr (newWithLen_eq_some.mpr ⟨hlabel, rfl⟩) ?_
    refine .next_ensure (decide_eq_true hlabel.1) ?_
    refine .next_okOr hofficial ?_
    refine .next_okOr (if_pos hfit) ?_
    exact .next_ensure hreserved (refused_of_named hnamed)

/-- With its registration the caller `payer` rejects a gift of the name `n`, which is pending for
`a` itself; the name is burned by that, and `a` has and is listed for nothing besides. -/
structure GivesUp (s : State T) (a : AccountId) (n : DomainHash) (payer : AccountId)
    (rejectOffer : Option Bytes) : Prop where
  self : payer = a
  rejects : ∃ name, rejectOffer = some name ∧
    parseNameToNode T.keccak256 name T.baseNode = some n
  gift : ∃ offer, s.registrar.offeredNames.get n = some offer ∧ offer.recipient = a
  entries : ∀ m, (s.registry.accountToSubnames.get (a, m)).isSome = true → Under s n m
  pointer : ∀ m, s.registrar.ownerToPrimaryName.get a = some m → m = n ∨ stillValid s m = false

/-- A burned name is not in its term any more, and the terms of the others stay. -/
theorem doBurn_stillValid (hcf : CollisionFree T.keccak256 T.baseNode L) (hc : Consistent T L s)
    (h : doBurn s a n = .ok s') (m : DomainHash) :
    stillValid s' m = false ↔ m = n ∨ stillValid s m = false := by
  obtain ⟨-, heq⟩ := view_doBurn hcf hc h
  have hlive : (view s').Live m ↔ m ≠ n ∧ (view s).Live m := by
    rw [heq]
    simp only [Book.Live, Book.vacate, Book.dropSubs, Function.update_apply]
    by_cases hm : m = n <;> simp [hm]
  rw [view_live, view_live] at hlive
  rw [← Bool.not_eq_true, ← Bool.not_eq_true (stillValid s m), hlive]
  tauto

/-- The owner of a name it is listed for is free after the `reject_offer` phase exactly if the
phase gives up that name and nothing else is left. -/
theorem unnamed_after_rejection_iff (hcf : CollisionFree T.keccak256 T.baseNode L)
    (hc : Consistent T L s) (hown : (zone s).owner n = some a)
    (hlisted : (zone s).held a n = true) {payer : AccountId} {rejectOffer : Option Bytes}
    (h : rejectPendingOffer s payer rejectOffer = .ok s') :
    Unnamed s' a ↔ GivesUp s a n payer rejectOffer := by
  obtain ⟨hne, hminted⟩ := view_owner_eq_some.mp hown
  have htop : TopLevel T L n := hc.hierarchy.top n (by rw [hminted]; rfl) hne
  have hptr : s'.registrar.ownerToPrimaryName = s.registrar.ownerToPrimaryName := by
    obtain ⟨gifts, infos, heq⟩ := rejectPendingOffer_frame h
    exact (congrArg (·.registrar.ownerToPrimaryName) heq :)
  cases rejectPendingOffer_eq_ok h with
  | none heq =>
    subst heq
    refine iff_of_false (fun hfree => ?_) fun hgives => ?_
    · rw [zone_held_eq_false.mpr (hfree.held n)] at hlisted
      cases hlisted
    · obtain ⟨name, hname, -⟩ := hgives.rejects
      cases hname
  | @offer name r d hr hoffer hd hstate htarget hrevoke =>
    -- a subname goes, and the entry of the name stays
    obtain ⟨d', -, hw⟩ := revokeSubname_withdrawn hcf hc.indexed hrevoke
    obtain ⟨-, heq⟩ := hw.zone_eq
    refine iff_of_false (fun hfree => ?_) fun hgives => ?_
    · have hheld := zone_held_eq_false.mpr (hfree.held n)
      have hnr : n ≠ r := by
        rintro rfl
        exact (hc.indexed.named n d hd).not_topLevel hcf htop
      rw [heq] at hheld
      simp [Edit.apply, hnr, hlisted] at hheld
    · obtain ⟨name', hname, hn⟩ := hgives.rejects
      obtain ⟨offer, hgift, -⟩ := hgives.gift
      cases hname
      rw [← Option.some.inj (hr.symm.trans hn), hoffer] at hgift
      cases hgift
  | @gift name r offer hr hoffer hrecipient hburn =>
    have hc₀ : Consistent T L
        { s with registrar.offeredNames := s.registrar.offeredNames.remove r } :=
      hc.congr rfl rfl rfl
    obtain ⟨-, heq⟩ := zone_doBurn hcf hc₀ hburn
    have hvalid : ∀ m, stillValid s' m = false ↔ m = r ∨ stillValid s m = false :=
      fun m => (doBurn_stillValid hcf hc₀ hburn m :)
    have hheld : ∀ m, (zone s').held a m = false ↔
        (zone s).held a m = false ∨ (a = payer ∧ m = r) ∨ (zone s).below r m = true := by
      intro m
      rw [heq]
      show (if a = payer ∧ m = r then false else
        if (zone s).below r m then false else (zone s).held a m) = false ↔ _
      split_ifs <;> simp_all
    have hbelow : (zone s).below r n = false := by
      have hnone := hc.zone_delegation_top hcf htop
      simp [Zone.below, hnone]
    constructor
    · intro hfree
      -- the entry of the name is gone, so it is the name that was burned
      obtain ⟨rfl, rfl⟩ : a = payer ∧ n = r := by
        rcases (hheld n).mp (zone_held_eq_false.mpr (hfree.held n)) with hold | hsame | hb
        · rw [hlisted] at hold
          cases hold
        · exact hsame
        · rw [hbelow] at hb
          cases hb
      refine ⟨rfl, ⟨name, rfl, hr⟩, ⟨offer, hoffer, hrecipient⟩, fun m hm => ?_, fun m hm => ?_⟩
      · rcases (hheld m).mp (zone_held_eq_false.mpr (hfree.held m)) with hold | hsame | hb
        · rw [zone_held_eq_false.mp hold] at hm
          cases hm
        · exact .inl hsame.2
        · exact under_iff.mpr (.inr hb)
      · exact (hvalid m).mp (hfree.pointer m (by rw [hptr]; exact hm))
    · rintro ⟨rfl, ⟨name', hname, hn⟩, -, hentries, hpointer⟩
      cases hname
      obtain rfl : r = n := Option.some.inj (hr.symm.trans hn)
      constructor
      · intro m hm
        rw [hptr] at hm
        exact (hvalid m).mpr (hpointer m hm)
      · intro m
        refine zone_held_eq_false.mp ((hheld m).mpr ?_)
        cases hentry : (zone s).held payer m with
        | false => exact .inl rfl
        | true =>
          refine .inr ((under_iff.mp (hentries m hentry)).imp (fun hm => ⟨rfl, hm⟩) id)

/-- Which registrations for the owner of a name it is listed for the guards do not refuse. -/
theorem register_admitted_iff (hcf : CollisionFree T.keccak256 T.baseNode L)
    (hc : Consistent T L s) (hopen : T.isOpen = true) (hown : (zone s).owner n = some a)
    (hlisted : (zone s).held a n = true) {label : Bytes} (hlabel : IsLabel label)
    (hreserved : s.registrar.reservedList.containsKey (registeredNode T label) = false)
    (payer : AccountId) (rejectOffer : Option Bytes) :
    ¬ Refused (dispatch s (.signed payer) (.register label (.id a) rejectOffer)) ↔
      2 ^ 64 ≤ s.now.toNat + T.maxRegistrationDuration.toNat ∨
      (∃ e, rejectPendingOffer s payer rejectOffer = .error e) ∨
      GivesUp s a n payer rejectOffer := by
  have hbody : dispatch s (.signed payer) (.register label (.id a) rejectOffer)
      = rejectPendingOffer s payer rejectOffer >>= fun s => registerName s payer label a := rfl
  rw [hbody]
  cases hreject : rejectPendingOffer s payer rejectOffer with
  | error e =>
    have hplain : Plain (rejectPendingOffer s payer rejectOffer) :=
      rejectPendingOffer_plain s payer rejectOffer
    refine iff_of_true (Admitted.not_refused ?_) (.inr (.inl ⟨e, rfl⟩))
    exact .bind (hreject ▸ hplain.admitted) fun s₁ hs₁ => by cases hs₁
  | ok s₁ =>
    have hc₁ := (rejectPendingOffer_spec hcf hc hreject).1
    have hreserved₁ : s₁.registrar.reservedList.containsKey (registeredNode T label) = false := by
      rwa [rejectPendingOffer_reservedList hreject]
    show ¬ Refused (registerName s₁ payer label a) ↔ _
    rw [registerName_refused_iff hc₁ hopen hlabel hreserved₁, rejectPendingOffer_now hreject,
      unnamed_after_rejection_iff hcf hc hown hlisted hreject, not_and_or, not_not, Nat.not_lt]
    simp

/-- `wanted` is on sale and `a` can pay for it. -/
def Buyable (s : State T) (a : AccountId) (wanted : Bytes) : Prop :=
  ∃ m listing s₁, Marketplace.listedNode T wanted = .ok m ∧ s.listings.get m = some listing ∧
    a ≠ listing.seller ∧ listing.expiresAt > s.now ∧
    some listing.seller = Registry.ownerOf s m ∧
    Marketplace.settlePayment s a listing = .ok s₁

theorem purchase_refused_iff (h : ¬ Unnamed s a) (wanted : Bytes) :
    Refused (dispatch s (.signed a) (.buyName wanted none)) ↔ Buyable s a wanted := by
  constructor
  · contrapose
    intro hnot
    refine Admitted.not_refused (.bind (.ok _) fun _ ha => ?_)
    cases ha
    refine .bind (listedNode_plain _ _).admitted fun m hm => ?_
    refine .bind (.okOr rfl) fun listing hl => ?_
    refine .bind (.ensure rfl) fun _ hne => ?_
    refine .bind (.ensure rfl) fun _ hopen => ?_
    refine .bind (.ensure rfl) fun _ hown => ?_
    refine .bind (settlePayment_plain _ _ _).admitted fun s₁ hs₁ => ?_
    exact absurd ⟨m, listing, s₁, hm, okOr_eq_ok.mp hl, ensure_eq_ok.mp hne,
      ensure_eq_ok.mp hopen, ensure_eq_ok.mp hown, hs₁⟩ hnot
  · rintro ⟨m, listing, s₁, hm, hl, hne, hopen, hown, hs₁⟩
    refine .next rfl (.next hm ?_)
    refine .next_okOr hl ?_
    refine .next_ensure hne ?_
    refine .next_ensure hopen ?_
    refine .next_ensure hown ?_
    refine .next hs₁ (.bind ?_)
    obtain ⟨balances, -, rfl⟩ := settlePayment_eq hs₁
    exact refused_of_named fun hfree => h ⟨hfree.pointer, hfree.held⟩

/-- `label` is a label below a name in its term. -/
def Delegable (s : State T) (parent label : Bytes) : Prop :=
  ∃ p c info, topLevelNode T parent = .ok p ∧ childNode T p label = .ok c ∧
    s.registrar.registrarInfos.get p = some info ∧ s.now < info.expire

theorem acceptSubdomain_refused_iff (h : ¬ Unnamed s a) (parent label : Bytes) :
    Refused (dispatch s (.signed a) (.acceptSubdomain parent label)) ↔
      Delegable s parent label := by
  constructor
  · contrapose
    intro hnot
    refine Admitted.not_refused (.bind (.ok _) fun _ ha => ?_)
    cases ha
    refine .bind (topLevelNode_plain _ _).admitted fun p hp => ?_
    refine .bind (childNode_plain _ _ _).admitted fun c hchild => ?_
    refine .bind (.okOr rfl) fun info hinfo => ?_
    refine .bind (.ensure rfl) fun _ hlt => ?_
    exact absurd ⟨p, c, info, hp, hchild, okOr_eq_ok.mp hinfo, ensure_eq_ok.mp hlt⟩ hnot
  · rintro ⟨p, c, info, hp, hchild, hinfo, hlt⟩
    refine .next rfl (.next hp (.next hchild ?_))
    refine .next_okOr hinfo ?_
    refine .next_ensure hlt ?_
    exact .bind (acceptSubnameOffer_refused h c)

/-! ## A registrant stays listed -/

/-- A call hands a name over with its only edit. -/
theorem Makes.handOver_alone {es : List NameEdit} (h : Makes s o call es) (n : DomainHash)
    (a : AccountId) : (∃ e, es = [e]) ∨ ∀ e ∈ es, ∀ x t, e ≠ .handOver n x a t := by
  cases h with
  | register _ hr =>
    right
    cases hr <;> simp
  | silent _ => exact Or.inr (by simp)
  | _ => exact Or.inl ⟨_, rfl⟩

/-- The entry of an owner stays while it is the owner. -/
theorem entry_kept (hcf : CollisionFree T.keccak256 T.baseNode L) (h : Reachable T L s)
    {i : Input T} (hadm : Admissible L s i) (hown : (zone s).owner n = some a)
    (hheld : (zone s).held a n = true) (hown' : (zone (apply s i)).owner n = some a) :
    (zone (apply s i)).held a n = true := by
  cases i with
  | newBlock now number hash ledger => exact hheld
  | extrinsic o call =>
    rcases commit_cases s (dispatch s o call) with hfail | hok
    · show (zone (commit s (dispatch s o call))).held a n = true
      rw [hfail]
      exact hheld
    · obtain ⟨es, hmakes, hleads⟩ := dispatch_edits hcf (h.consistent hcf) hadm hok
      exact hleads.entered (hmakes.handOver_alone n a) (h.upkept hcf).apart hown hheld hown'

/-- So a registrant is listed for its name as long as it owns it. -/
theorem registrant_listed (hcf : CollisionFree T.keccak256 T.baseNode L) {s₀ s₁ : State T}
    {caller : AccountId} {name : Bytes} {rejectOffer : Option Bytes} {tr : List (State T)}
    (h₀ : Reachable T L s₀)
    (hL : ∀ l ∈ (Call.register name (.id a) rejectOffer : Call T).labels, l ∈ L)
    (hreg : dispatch s₀ (.signed caller) (.register name (.id a) rejectOffer) = .ok s₁)
    (hpath : (chain T).Path (Admissible L) s₁ tr s)
    (hkept : ∀ u ∈ tr, Registry.ownerOf u (registeredNode T name) = some a) :
    (zone s).held a (registeredNode T name) = true := by
  have htop : TopLevel T L (registeredNode T name) := ⟨_, hL _ List.mem_cons_self, rfl⟩
  have h₁ : Reachable T L s₁ := h₀.extrinsic hreg hL
  induction hpath with
  | refl =>
    obtain ⟨es, hmakes, hleads⟩ := dispatch_edits hcf (h₀.consistent hcf) hL hreg
    cases hmakes with
    | register hn _ =>
      obtain ⟨z, -, -, heq⟩ := hleads.of_concat
      rw [heq]
      simp [Edit.apply, topLevelNode_eq hn, registeredNode]
    | silent hs => cases hs
  | @step tr t i hpath hadm ih =>
    have hbefore := hkept t (List.mem_append_left _ hpath.last_mem)
    have hafter := hkept _ (List.mem_append_right _ (List.mem_singleton_self _))
    refine entry_kept hcf (hpath.reach h₁) hadm ?_ ?_ ?_
    · exact view_owner_eq_some.mpr ⟨htop.ne_base hcf, hbefore⟩
    · exact ih fun u hu => hkept u (List.mem_append_left _ hu)
    · exact view_owner_eq_some.mpr ⟨htop.ne_base hcf, hafter⟩

/-- **Expiry does not free the holder.** An account that registered a name and has owned it since,
however long ago the name expired, escapes the one-name guards only where a call fails before it
gets to them (a registration for overflow of the time or because the offer it is to reject cannot
be rejected, a purchase because nothing is on sale to it, the acceptance of a subname because there
is no such name in its term), or where a registration itself gives up the expired name, by the
rejection of a gift of it that is still pending for the account (`GivesUp`). -/
theorem expired_holder_admitted_iff {keccak256 : Bytes → H256} {Ledger : Type}
    {currency : Currency Ledger} (hT : T = runtimeConfig keccak256 Ledger currency)
    (hcf : CollisionFree T.keccak256 T.baseNode L) {s₀ s₁ : State T} {caller : AccountId}
    {name : Bytes} {rejectOffer : Option Bytes} {tr : List (State T)}
    (h₀ : Reachable T L s₀)
    (hL : ∀ l ∈ (Call.register name (.id a) rejectOffer : Call T).labels, l ∈ L)
    (hreg : dispatch s₀ (.signed caller) (.register name (.id a) rejectOffer) = .ok s₁)
    (hpath : (chain T).Path (Admissible L) s₁ tr s)
    (hkept : ∀ u ∈ tr, Registry.ownerOf u (registeredNode T name) = some a) :
    (∀ payer label reject, IsLabel label →
      s.registrar.reservedList.containsKey (registeredNode T label) = false →
      (¬ Refused (dispatch s (.signed payer) (.register label (.id a) reject)) ↔
        2 ^ 64 ≤ s.now.toNat + T.maxRegistrationDuration.toNat ∨
        (∃ e, rejectPendingOffer s payer reject = .error e) ∨
        GivesUp s a (registeredNode T name) payer reject)) ∧
    (∀ wanted, ¬ Refused (dispatch s (.signed a) (.buyName wanted none)) ↔
      ¬ Buyable s a wanted) ∧
    ∀ parent label, ¬ Refused (dispatch s (.signed a) (.acceptSubdomain parent label)) ↔
      ¬ Delegable s parent label := by
  have hopen : T.isOpen = true := by rw [hT]; rfl
  have hc := Reachable.consistent hcf (hpath.reach (h₀.extrinsic hreg hL))
  have htop : TopLevel T L (registeredNode T name) := ⟨_, hL _ List.mem_cons_self, rfl⟩
  have hown : (zone s).owner (registeredNode T name) = some a :=
    view_owner_eq_some.mpr ⟨htop.ne_base hcf, hkept s hpath.last_mem⟩
  have hlisted := registrant_listed hcf h₀ hL hreg hpath hkept
  have hnamed : ¬ Unnamed s a := by
    intro hfree
    rw [zone_held_eq_false.mpr (hfree.held _)] at hlisted
    cases hlisted
  refine ⟨fun payer label reject hlabel hreserved => ?_,
    fun wanted => not_congr (purchase_refused_iff hnamed wanted),
    fun parent label => not_congr (acceptSubdomain_refused_iff hnamed parent label)⟩
  exact register_admitted_iff hcf hc hopen hown hlisted hlabel hreserved payer reject

namespace Devnet

/-- Past the grace period of `alice`, registered by account 1. -/
def expiry : Input config := .newBlock 34128000001 1 (digest 0) balances

/-- Account 1 has let `alice` expire. -/
def afterExpiry : State config := apply afterRegistration expiry

theorem afterExpiry_path : (chain config).Path (Admissible labels) afterRegistration
    [afterRegistration, afterExpiry] afterExpiry :=
  path_step .refl (by decide +kernel)

end Devnet

open Devnet in
/-- Account 1 is refused `bob`. -/
theorem expired_holder_admitted_devnet :
    stillValid afterExpiry (node alice) = false ∧
      Refused (dispatch afterExpiry (.signed (account 1))
        (.register bob (.id (account 1)) none)) := by
  have hlabels : ∀ l ∈ (Call.register alice (.id (account 1)) none : Call config).labels,
      l ∈ labels := by decide
  have hreg : dispatch start (.signed (account 1)) (.register alice (.id (account 1)) none)
      = .ok afterRegistration := by
    rw [afterRegistration, after_singleton]
    exact eq_ok_commit (by decide +kernel) start
  have hkept : ∀ u ∈ [afterRegistration, afterExpiry],
      Registry.ownerOf u (registeredNode config alice) = some (account 1) := by
    decide +kernel
  have hiff := (expired_holder_admitted_iff (T := config) rfl collisionFree (.init start_init)
    hlabels hreg afterExpiry_path hkept).1 (account 1) bob none (by decide +kernel)
    (by decide +kernel)
  refine ⟨by decide +kernel, ?_⟩
  by_contra hnot
  rcases hiff.mp hnot with hover | ⟨e, he⟩ | hgives
  · exact absurd hover (by decide +kernel)
  · cases he
  · obtain ⟨rejected, hrejected, -⟩ := hgives.rejects
    cases hrejected

open Devnet in
/-- Account 3 lets a gift of `alice` lapse without an answer, registers `alice` itself and lets it
expire: with the rejection of the old gift it may register `bob`, and without it may not. -/
example :
    let s := after (presentInputs ++
      [ expiry, .extrinsic (.signed (account 3)) (.register alice (.id (account 3)) none),
        .newBlock 68256000002 2 (digest 0) balances ])
    stillValid s (node alice) = false ∧
      (dispatch s (.signed (account 3)) (.register bob (.id (account 3)) (some alice))).isOk
        = true ∧
      Refused (dispatch s (.signed (account 3)) (.register bob (.id (account 3)) none)) := by
  decide +kernel

open Devnet in
/-- The name of account 1 is past its grace period and it has no other one, but it can
neither register `bob`, which is free, nor `alice` again. -/
theorem expiry_strands_registrant :
    CollisionFree config.keccak256 config.baseNode labels ∧
      Reachable config labels afterExpiry ∧
      Registry.ownerOf afterExpiry (node alice) = some (account 1) ∧
      stillValid afterExpiry (node alice) = false ∧
      afterExpiry.registry.subnameRecords.count (fun _ _ => true) = 0 ∧
      Lapsed afterExpiry (registeredNode config bob) ∧ IsLabel bob ∧
      afterExpiry.registrar.reservedList.containsKey (registeredNode config bob) = false ∧
      Refused (dispatch afterExpiry (.signed (account 1))
        (.register bob (.id (account 1)) none)) ∧
      Refused (dispatch afterExpiry (.signed (account 1))
        (.register alice (.id (account 1)) none)) :=
  ⟨collisionFree, afterRegistration_reachable.step (by decide +kernel), by decide +kernel,
    by decide +kernel, by decide +kernel, Or.inl (by decide +kernel), by decide +kernel⟩

end PnsPallets
