import PnsPallets.Errors
import PnsPallets.Properties.Registering

/-!
# When a former holder is free again

An account may take a name if its pointer is stale and `AccountToSubnames` lists
nothing for it (`Unnamed`). `mint_subname` enters a registered name in that index,
and the hand-over of a top-level name in `do_transfer` does not move the entry. So
whether an account that gave its name away is free depends on how it got the name:
after a transfer or a sale the former holder is free exactly if it was not listed,
and a transfer there and back works exactly if neither side is
(`former_holder_free_iff`).
-/

namespace PnsPallets

open Frame Registry Registrar Holdings Zones

variable {T : Config} {L : Set Bytes} {s s' : State T} {a b who : AccountId}
  {n : DomainHash} {o : Origin} {call : Call T}

/-! ## The guards let a free account pass -/

theorem unnamed_iff :
    Unnamed s a ↔ hasActiveSubname s a = false ∧ hasValidCanonicalName s a = false := by
  rw [hasActiveSubname_eq_false, hasValidCanonicalName_eq_false]
  exact ⟨fun h => ⟨h.held, h.pointer⟩, fun h => ⟨h.2, h.1⟩⟩

/-- The calls by which `a` would get a name or a subname. -/
inductive GivesTo (a : AccountId) : Origin → Call T → Prop where
  | register {o : Origin} {name : Bytes} {rejectOffer : Option Bytes} :
      GivesTo a o (.register name (.id a) rejectOffer)
  | transfer {o : Origin} : GivesTo a o (.transfer (.id a))
  | purchase {name : Bytes} : GivesTo a (.signed a) (.buyName name none)
  | gift {o : Origin} {name : Bytes} : GivesTo a o (.buyName name (some a))
  | acceptOfferedName {name : Bytes} : GivesTo a (.signed a) (.acceptOfferedName name)
  | acceptSubdomain {parent label : Bytes} :
      GivesTo a (.signed a) (.acceptSubdomain parent label)

/-- The two guards in a row, as register, transfer, accept_offered_name and
transfer_name have them. -/
theorem Unnamed.admitted_of {α : Type} {f : State T → DispatchResult α} (h : Unnamed s a)
    (hf : ∀ s', Admitted (f s')) :
    Admitted (do
      let s ← dropStaleCanonicalName s a
      ensure (hasActiveSubname s a = false) (.registrar .alreadyHoldsSubdomain)
      f s) := by
  obtain ⟨hsub, hvalid⟩ := unnamed_iff.mp h
  obtain ⟨s₀, hs₀⟩ := dropStaleCanonicalName_isOk.mpr hvalid
  obtain ⟨-, primary, -, rfl⟩ := dropStaleCanonicalName_eq hs₀
  refine .bind (hs₀ ▸ .ok _) fun s₁ hs₁ => ?_
  obtain rfl := Except.ok.inj (hs₀.symm.trans hs₁)
  exact .bind (.ensure_of hsub) fun _ _ => hf _

theorem Unnamed.registerName (h : Unnamed s a) (caller : AccountId) (name : Bytes) :
    Admitted (registerName s caller name a) := by
  -- the label, the official account, the term and the reserved list
  refine .bind (.ensure rfl) fun _ _ => ?_
  refine .bind (.ensure rfl) fun _ _ => ?_
  refine .bind (.okOr rfl) fun label _ => ?_
  refine .bind (.ensure rfl) fun _ _ => ?_
  refine .bind (.okOr rfl) fun official _ => ?_
  refine .bind (.okOr rfl) fun expire _ => ?_
  refine .bind (.ensure rfl) fun _ _ => ?_
  -- the guards, and what comes after them
  refine h.admitted_of fun s₁ => ?_
  refine .bind (.okOr rfl) fun fee _ => ?_
  have hmint := mintSubname_plain
    (registerPayments_plain (T := T) caller (label.1.encodeWithNode T.keccak256 T.baseNode) fee
      expire label.2)
  refine .bind (hmint _ _ _ _ _ _ _).admitted fun s₂ _ => ?_
  exact (anchor_plain _ _ _ _ _).admitted

theorem Unnamed.transferName (h : Unnamed s a) (source : AccountId) (n : DomainHash) :
    Admitted (transferName s source a n) := by
  refine h.admitted_of fun s₁ => ?_
  exact .bind (doTransfer_plain _ _ _ _).admitted fun _ _ => .ok _

theorem Unnamed.offerBoughtName (h : Unnamed s a) (seller buyer : AccountId)
    (n : DomainHash) : Admitted (offerBoughtName s seller buyer a n) := by
  obtain ⟨hsub, hvalid⟩ := unnamed_iff.mp h
  refine .bind (.ensure rfl) fun _ _ => ?_
  refine .bind (.ensure_of hvalid) fun _ _ => ?_
  refine .bind (.ensure_of hsub) fun _ _ => ?_
  exact .bind (doTransfer_plain _ _ _ _).admitted fun _ _ => .ok _

theorem Unnamed.acceptSubnameOffer (h : Unnamed s a) (c : DomainHash) :
    Admitted (acceptSubnameOffer s c a) := by
  obtain ⟨hsub, hvalid⟩ := unnamed_iff.mp h
  have hempty : (s.registry.accountToSubnames.iterPrefix a).isEmpty = true := by
    simpa [hasActiveSubname] using hsub
  refine .bind (.ensure_of hvalid) fun _ _ => ?_
  refine .bind (.ensure_of hempty) fun _ _ => ?_
  refine .bind (.okOr rfl) fun record _ => ?_
  refine .bind (.ensure rfl) fun _ _ => ?_
  exact .bind (.ensure rfl) fun _ _ => .ok _

/-- Rejecting an offer gives nobody a name. -/
theorem Unnamed.rejectPendingOffer (hcf : CollisionFree T.keccak256 T.baseNode L)
    (hc : Consistent T L s) (h : Unnamed s a) {rejectOffer : Option Bytes}
    (hrej : rejectPendingOffer s who rejectOffer = .ok s') : Unnamed s' a := by
  obtain ⟨-, -, ops, hops, hruns⟩ := rejectPendingOffer_spec hcf hc hrej
  obtain ⟨-, es, hes, hleads⟩ := zone_rejectPendingOffer hcf hc hrej
  constructor
  · have hview : (view s').primary = (view s).primary ∧
        ∀ m, (view s').Live m → (view s).Live m := by
      cases hops with
      | none =>
        cases hrej
        exact ⟨rfl, fun _ hm => hm⟩
      | gift hn hoffer =>
        obtain ⟨-, heq⟩ := hruns.of_single
        rw [heq]
        refine ⟨rfl, fun m hm => ?_⟩
        obtain ⟨e, he, hle⟩ := hm
        simp only [Op.apply, Book.vacate, Function.update_apply] at he
        split at he
        · cases he
        · exact ⟨e, he, hle⟩
      | offer hn hoffer =>
        obtain ⟨-, heq⟩ := hruns.of_single
        rw [heq]
        exact ⟨rfl, fun _ hm => hm⟩
    intro m hm
    have hstale := h.pointer m ((congrFun hview.1 a).symm.trans hm)
    rw [Bool.eq_false_iff] at hstale ⊢
    exact fun hvalid => hstale (view_live.mp (hview.2 m (view_live.mpr hvalid)))
  · intro m
    have hheld : (zone s).held a m = false := zone_held_eq_false.mpr (h.held m)
    refine zone_held_eq_false.mp ?_
    cases hes with
    | none =>
      cases hrej
      exact hheld
    | gift hn hoffer hrecip =>
      obtain ⟨-, heq⟩ := hleads.of_single
      simp [heq, Edit.apply, Zone.clear, hheld]
    | offer hn hd hstate htarget =>
      obtain ⟨-, heq⟩ := hleads.of_single
      simp [heq, Edit.apply, hheld]

/-- A purchase is refused by the guards of the delivery only. -/
theorem buyName_admitted {name : Bytes} {recipient : Option AccountId}
    (hdeliver : ∀ buyer n listing balances, o = .signed buyer →
      Admitted (Marketplace.deliver
        { s with balances := balances, listings := s.listings.remove n } buyer listing n
        recipient)) :
    Admitted (Marketplace.buyName s o name recipient) := by
  refine .bind (ensureSigned_plain _).admitted fun buyer hbuyer => ?_
  refine .bind (listedNode_plain _ _).admitted fun n _ => ?_
  refine .bind (.okOr rfl) fun listing _ => ?_
  refine .bind (.ensure rfl) fun _ _ => ?_
  refine .bind (.ensure rfl) fun _ _ => ?_
  refine .bind (.ensure rfl) fun _ _ => ?_
  refine .bind (settlePayment_plain _ _ _).admitted fun s₁ hs₁ => ?_
  obtain ⟨balances, -, rfl⟩ := settlePayment_eq hs₁
  exact hdeliver buyer n listing balances (ensureSigned_eq_ok hbuyer)

/-- A free account is not refused by the guards of any call. -/
theorem Unnamed.admitted (hcf : CollisionFree T.keccak256 T.baseNode L)
    (hc : Consistent T L s) (h : Unnamed s a) (hg : GivesTo a o call) :
    Admitted (dispatch s o call) := by
  cases hg with
  | register =>
    refine .bind (ensureSigned_plain _).admitted fun caller _ => ?_
    refine .bind (.ok _) fun _ ha => ?_
    cases ha
    refine .bind (rejectPendingOffer_plain _ _ _).admitted fun s₁ hs₁ => ?_
    exact (h.rejectPendingOffer hcf hc hs₁).registerName _ _
  | transfer =>
    refine .bind (ensureSigned_plain _).admitted fun who _ => ?_
    refine .bind (.ok _) fun _ ha => ?_
    cases ha
    refine .bind (.ensure rfl) fun _ _ => ?_
    refine .bind (.okOr rfl) fun n _ => ?_
    refine .bind (.ensure rfl) fun _ _ => ?_
    refine h.admitted_of fun s₁ => ?_
    exact .bind (doTransfer_plain _ _ _ _).admitted fun _ _ => .ok _
  | purchase =>
    refine buyName_admitted fun buyer n listing balances ho => ?_
    cases ho
    have h₁ : Unnamed { s with balances := balances, listings := s.listings.remove n } a :=
      ⟨h.pointer, h.held⟩
    exact .bind (h₁.transferName _ _) fun _ _ => (anchor_plain _ _ _ _ _).admitted
  | gift =>
    refine buyName_admitted fun buyer n listing balances _ => ?_
    have h₁ : Unnamed { s with balances := balances, listings := s.listings.remove n } a :=
      ⟨h.pointer, h.held⟩
    refine .bind (.ensure rfl) fun _ _ => ?_
    refine .bind (.ensure rfl) fun _ _ => ?_
    exact h₁.offerBoughtName _ _ _
  | acceptOfferedName =>
    refine .bind (.ok _) fun _ ha => ?_
    cases ha
    refine .bind (topLevelNode_plain _ _).admitted fun n _ => ?_
    refine .bind (.okOr rfl) fun offer _ => ?_
    refine .bind (.ensure rfl) fun _ _ => ?_
    refine .bind (.okOr rfl) fun info _ => ?_
    refine .bind (.ensure rfl) fun _ _ => ?_
    have h₁ : Unnamed
        { s with registrar.offeredNames := s.registrar.offeredNames.remove n } a :=
      ⟨h.pointer, h.held⟩
    exact h₁.admitted_of fun _ => (anchor_plain _ _ _ _ _).admitted
  | acceptSubdomain =>
    refine .bind (.ok _) fun _ ha => ?_
    cases ha
    refine .bind (topLevelNode_plain _ _).admitted fun p _ => ?_
    refine .bind (childNode_plain _ _ _).admitted fun c _ => ?_
    refine .bind (.okOr rfl) fun info _ => ?_
    refine .bind (.ensure rfl) fun _ _ => ?_
    refine .bind (h.acceptSubnameOffer _) fun _ _ => ?_
    exact .bind (.bind (.okOr rfl) fun _ _ => .ok _) fun _ _ => .ok _

/-! ## What a hand-over leaves its former holder -/

/-- The calls that take the name `n` from its holder `a`. -/
inductive GivesAway (s : State T) (a : AccountId) (n : DomainHash) : Origin → Call T → Prop where
  | transfer {dest : MultiAddress} : s.registrar.ownerToPrimaryName.get a = some n →
      GivesAway s a n (.signed a) (.transfer dest)
  | sale {buyer : AccountId} {name : Bytes} {recipient : Option AccountId} :
      Marketplace.listedNode T name = .ok n → Registry.ownerOf s n = some a →
      GivesAway s a n (.signed buyer) (.buyName name recipient)

/-- A sale is to somebody else. -/
theorem buyName_apart {buyer : AccountId} {name : Bytes} {recipient : Option AccountId}
    {listing : Listing} (hn : Marketplace.listedNode T name = .ok n)
    (hlisting : s.listings.get n = some listing)
    (h : Marketplace.buyName s (.signed buyer) name recipient = .ok s') :
    buyer ≠ listing.seller := by
  obtain ⟨b, m, l, balances, ho, hm, hl, hne, -⟩ := buyName_eq_ok h
  obtain rfl := Origin.signed.inj ho
  obtain rfl : m = n := Except.ok.inj (hm.symm.trans hn)
  obtain rfl : l = listing := Option.some.inj (hl.symm.trans hlisting)
  exact hne

section HandOver

variable (hcf : CollisionFree T.keccak256 T.baseNode L) (hc : Consistent T L s)
  (hL : ∀ l ∈ call.labels, l ∈ L) (hg : GivesAway s a n o call)
  (hok : dispatch s o call = .ok s')

include hcf hc hL hg hok

/-- Entries of `AccountToSubnames` go with the subnames below the name, and stay
otherwise: also the one for the name itself. -/
theorem GivesAway.held (x : AccountId) (m : DomainHash) :
    (zone s').held x m = if (zone s).below n m then false else (zone s).held x m := by
  obtain ⟨es, hmakes, hleads⟩ := dispatch_edits hcf hc hL hok
  cases hg with
  | transfer hp =>
    cases hmakes with
    | transfer hp' =>
      obtain rfl := Option.some.inj (hp.symm.trans hp')
      obtain ⟨-, heq⟩ := hleads.of_single
      rw [heq]
      rfl
    | silent hs => cases hs
  | sale hn _ =>
    cases hmakes with
    | buyName hn' _ =>
      obtain rfl := Except.ok.inj (hn.symm.trans hn')
      obtain ⟨-, heq⟩ := hleads.of_single
      rw [heq]
      rfl
    | silent hs => cases hs

/-- The former holder loses its pointer to the name, and terms stay as they are. -/
theorem GivesAway.pointer :
    (view s').primary a = (if (view s).primary a = some n then none else (view s).primary a) ∧
      ∀ m, (view s').Live m ↔ (view s).Live m := by
  obtain ⟨ops, hperf, hruns⟩ := (dispatch_sound hcf hc hL hok).performs
  cases hg with
  | transfer hp =>
    cases hperf with
    | @transfer _ dest _ _ hp' =>
      obtain rfl := Option.some.inj (hp.symm.trans hp')
      obtain ⟨⟨-, hlive, hfree, -⟩, heq⟩ := hruns.of_single
      have hne : a ≠ dest := fun ha => hfree.1 n (ha ▸ hp) hlive
      rw [heq]
      refine ⟨?_, fun _ => Iff.rfl⟩
      show Function.update ((view s).unpoint a n) dest (some n) a = _
      rw [Function.update_of_ne hne]
      simp [Book.unpoint]
    | quiet hq => cases hq
  | sale hn hown =>
    have hseller : ∀ {seller : AccountId}, (view s).owner n = some seller → seller = a :=
      fun h => Option.some.inj ((view_owner_eq_some.mp h).2.symm.trans hown)
    cases hperf with
    | buyName hn' hlisting =>
      obtain rfl := Except.ok.inj (hn.symm.trans hn')
      obtain ⟨⟨hsold, -⟩, heq⟩ := hruns.of_single
      have hne := buyName_apart hn hlisting hok
      rw [hseller hsold] at heq hne
      rw [heq]
      refine ⟨?_, fun _ => Iff.rfl⟩
      show Function.update ((view s).unpoint a n) _ (some n) a = _
      rw [Function.update_of_ne hne.symm]
      simp [Book.unpoint]
    | buyGift hn' hlisting =>
      obtain rfl := Except.ok.inj (hn.symm.trans hn')
      obtain ⟨⟨hsold, -⟩, heq⟩ := hruns.of_single
      rw [hseller hsold] at heq
      rw [heq]
      refine ⟨?_, fun _ => Iff.rfl⟩
      simp [Op.apply, Book.unpoint]
    | quiet hq => cases hq

/-- The former holder is free exactly if it was not listed and answers to no other
name. -/
theorem GivesAway.unnamed_iff
    (hsub : ∀ c d, s.registry.subnameRecords.get c = some d → d.state = .active →
      d.target ≠ a) :
    Unnamed s' a ↔
      (∀ m, s.registry.accountToSubnames.get (a, m) = none) ∧
      ∀ m, s.registrar.ownerToPrimaryName.get a = some m → m ≠ n →
        stillValid s m = false := by
  have hheld := GivesAway.held hcf hc hL hg hok a
  obtain ⟨hptr, hlive⟩ := GivesAway.pointer hcf hc hL hg hok
  have hvalid : ∀ m, stillValid s' m = stillValid s m := fun m => by
    rw [Bool.eq_iff_iff, ← view_live, ← view_live]
    exact hlive m
  constructor
  · intro h
    refine ⟨fun m => ?_, fun m hm hmn => ?_⟩
    · have hm := zone_held_eq_false.mpr (h.held m)
      rw [hheld] at hm
      refine zone_held_eq_false.mp ?_
      split at hm
      · -- a subname of the name, so an entry would be an active subname of `a`
        next hbelow =>
        obtain ⟨_, hd, -⟩ := Zone.below_eq_true.mp hbelow
        obtain ⟨d, hd, -⟩ := zone_delegation_eq_some.mp hd
        rw [Bool.eq_false_iff]
        intro hentry
        rcases hc.indexed.held a m hentry with htop | ⟨d', hd', htarget, hstate⟩
        · exact absurd htop ((hc.indexed.named m d hd).not_topLevel hcf)
        · exact hsub m d' hd' hstate htarget
      · exact hm
    · rw [← hvalid]
      refine h.pointer m (Eq.trans hptr ?_)
      have hprimary : (view s).primary a = some m := hm
      simp [hprimary, hmn]
  · rintro ⟨hentries, hother⟩
    refine ⟨fun m hm => ?_, fun m => ?_⟩
    · have hprimary := hptr.symm.trans hm
      split at hprimary
      · cases hprimary
      · next hne =>
        rw [hvalid]
        refine hother m hprimary ?_
        rintro rfl
        exact hne hprimary
    · refine zone_held_eq_false.mp ?_
      rw [hheld, zone_held_eq_false.mpr (hentries m), ite_self]

end HandOver

/-! ## There and back -/

/-- What a transfer of `n` from `a` to `b` depends on. -/
structure Transferable (s : State T) (a b : AccountId) (n : DomainHash) : Prop where
  pointer : s.registrar.ownerToPrimaryName.get a = some n
  owned : s.nft.ownerOf n = some a
  renewable : Renewable s n
  free : Unnamed s b

/-- A name within its grace period can be handed over by its owner. -/
theorem doTransfer_isOk (hcf : CollisionFree T.keccak256 T.baseNode L)
    (hc : Consistent T L s) (hlen : 32 ≤ T.maxContentLen) (hown : s.nft.ownerOf n = some a)
    (hterm : Renewable s n) (b : AccountId) : ∃ s', doTransfer s a b n = .ok s' := by
  obtain ⟨info, hinfo, hlt⟩ := hterm
  obtain ⟨token, htoken, howner⟩ := Option.map_eq_some_iff.mp hown
  have horigin := hc.hierarchy.origin_eq_root ((hc.hierarchy.info n).mp (by rw [hinfo]; rfl))
  have hown' : (clearSubnames s n).nft.ownerOf n = some a := by
    rw [(hc.cleared hcf n).ownerOf, hown]
  obtain ⟨token', htoken', howner'⟩ := Option.map_eq_some_iff.mp hown'
  have hmove : ∃ nft, Nft.transfer (clearSubnames s n).nft token.owner b (classZero, n)
      = .ok nft := by
    simp only [Nft.transfer, bind_eq_ok, okOr_eq_ok, ensure_eq_ok, howner]
    split
    · exact ⟨_, token', htoken', (), howner', rfl⟩
    · exact ⟨_, token', htoken', (), howner', rfl⟩
  obtain ⟨nft, hnft⟩ := hmove
  obtain ⟨v₁, hv₁⟩ := setSs58Record_isOk hlen
    (Resolvers.clearRecordsExceptSs58 (clearSubnames s n).resolvers n) n b
  obtain ⟨v₂, hv₂⟩ := setOriginRecord_isOk hlen v₁ n (clearSubnames s n).parentHash
  unfold doTransfer verifyWithOwner
  simp only [bind_eq_ok, okOr_eq_ok, ensure_eq_ok, pure_eq_ok]
  refine ⟨_, token, htoken, (), howner.symm, .root, horigin, clearSubnames s n, ?_, nft, hnft,
    v₁, hv₁, v₂, hv₂, rfl⟩
  simp only [releaseHierarchy, bind_eq_ok, pure_eq_ok]
  exact ⟨(), checkExpiresRenewable_eq_ok.mpr ⟨info, hinfo, hlt⟩, trivial⟩

theorem transfer_isOk (hcf : CollisionFree T.keccak256 T.baseNode L) (hc : Consistent T L s)
    (hopen : T.isOpen = true) (hlen : 32 ≤ T.maxContentLen) (a b : AccountId) :
    (∃ s', dispatch s (.signed a) (.transfer (.id b)) = .ok s') ↔
      ∃ n, Transferable s a b n := by
  constructor
  · rintro ⟨s', h⟩
    obtain ⟨who, dest, n, primary, s₁, ho, haddress, hn, -, hunnamed, -, hmove, -⟩ :=
      registrarTransfer_eq_ok h
    cases ho
    cases haddress
    obtain ⟨-, hown, hterm, -⟩ := doTransfer_eq hcf (hc.setPrimary primary) hmove
    exact ⟨n, hn, hown, hterm, hunnamed⟩
  · rintro ⟨n, h⟩
    obtain ⟨hsub, hvalid⟩ := unnamed_iff.mp h.free
    obtain ⟨s₀, hs₀⟩ := dropStaleCanonicalName_isOk.mpr hvalid
    obtain ⟨-, primary, -, rfl⟩ := dropStaleCanonicalName_eq hs₀
    obtain ⟨s₁, hs₁⟩ := doTransfer_isOk hcf (hc.setPrimary primary) hlen h.owned h.renewable b
    have hlt : ∀ info ∈ s.registrar.registrarInfos.get n, graceEnd T info > s.now := by
      obtain ⟨info, hinfo, hlt⟩ := h.renewable
      intro info' hinfo'
      obtain rfl := Option.some.inj (hinfo.symm.trans hinfo')
      exact hlt
    simp only [dispatch, Registrar.transfer, canonicalNameOf, bind_eq_ok, okOr_eq_ok,
      ensure_eq_ok, pure_eq_ok]
    exact ⟨_, a, rfl, b, rfl, (), hopen, n, h.pointer, (), hlt, _, hs₀, (), hsub, s₁, hs₁, rfl⟩

/-- The name `n` has passed from `a` to `b`: it answers to `b`, `a` answers to nothing,
and terms are left alone. -/
structure Transferred (s s' : State T) (a b : AccountId) (n : DomainHash) : Prop where
  ne : a ≠ b
  owner : (view s').owner = Function.update (view s).owner n (some b)
  receiver : s'.registrar.ownerToPrimaryName.get b = some n
  giver : s'.registrar.ownerToPrimaryName.get a = none
  expiry : (view s').expiry = (view s).expiry
  now : (view s').now = (view s).now

theorem Transferred.ownerOf (h : Transferred s s' a b n) : Registry.ownerOf s' n = some b := by
  have hown : (view s').owner n = some b := by
    rw [h.owner]
    exact Function.update_self _ _ _
  exact (view_owner_eq_some.mp hown).2

/-- The name transferred is the one whose owner changed. -/
theorem Transferred.eq_of_ownerOf {m : DomainHash} (h : Transferred s s' a b n)
    (hm : m ≠ T.baseNode) (hown : Registry.ownerOf s m = some a)
    (hown' : Registry.ownerOf s' m = some b) : m = n := by
  by_contra hmn
  have hsame : (view s').owner m = (view s).owner m := by
    rw [h.owner]
    exact Function.update_of_ne hmn _ _
  rw [view_owner_eq_some.mpr ⟨hm, hown⟩, view_owner_eq_some.mpr ⟨hm, hown'⟩] at hsame
  exact h.ne (Option.some.inj hsame).symm

theorem transferred (hcf : CollisionFree T.keccak256 T.baseNode L) (hc : Consistent T L s)
    (hp : s.registrar.ownerToPrimaryName.get a = some n)
    (h : dispatch s (.signed a) (.transfer (.id b)) = .ok s') : Transferred s s' a b n := by
  obtain ⟨ops, hperf, hruns⟩ := (transfer_sound hcf hc h).performs
  cases hperf with
  | @transfer _ _ _ D hp' =>
    obtain rfl := Option.some.inj (hp.symm.trans hp')
    obtain ⟨⟨-, hlive, hfree, -⟩, heq⟩ := hruns.of_single
    have hab : a ≠ b := fun hab => hfree.1 n (hab ▸ hp) hlive
    have hprimary : (view s').primary
        = Function.update ((view s).unpoint a n) b (some n) := congrArg Book.primary heq
    refine ⟨hab, congrArg Book.owner heq, (congrFun hprimary b).trans
      (Function.update_self _ _ _), (congrFun hprimary a).trans ?_,
      (congrArg Book.expiry heq :), (congrArg Book.now heq :)⟩
    rw [Function.update_of_ne hab]
    exact if_pos ⟨rfl, hp⟩
  | quiet hq => cases hq

/-- The name is within its grace period, as the view has it. -/
theorem renewable_iff :
    Renewable s n ↔ ∃ e, (view s).expiry n = some e ∧ (view s).now < e := by
  constructor
  · rintro ⟨info, hinfo, hlt⟩
    exact ⟨_, Option.map_eq_some_iff.mpr ⟨info, hinfo, rfl⟩, hlt⟩
  · rintro ⟨e, he, hlt⟩
    obtain ⟨info, hinfo, rfl⟩ := Option.map_eq_some_iff.mp he
    exact ⟨info, hinfo, hlt⟩

/-- `n` can be transferred from `a` to `b` and back, which restores its owner and
both pointers. -/
def ThereAndBack (s : State T) (a b : AccountId) (n : DomainHash) : Prop :=
  ∃ s₁ s₂, dispatch s (.signed a) (.transfer (.id b)) = .ok s₁ ∧
    Registry.ownerOf s₁ n = some b ∧
    dispatch s₁ (.signed b) (.transfer (.id a)) = .ok s₂ ∧
    Registry.ownerOf s₂ n = some a ∧
    s₂.registrar.ownerToPrimaryName.get a = s.registrar.ownerToPrimaryName.get a ∧
    s₂.registrar.ownerToPrimaryName.get b = s.registrar.ownerToPrimaryName.get b

theorem thereAndBack_iff (hcf : CollisionFree T.keccak256 T.baseNode L)
    (hc : Consistent T L s) (hopen : T.isOpen = true) (hlen : 32 ≤ T.maxContentLen)
    (hsub : ∀ c d, s.registry.subnameRecords.get c = some d → d.state = .active →
      d.target ≠ a) (hne : n ≠ T.baseNode) (hown : Registry.ownerOf s n = some a) :
    ThereAndBack s a b n ↔
      s.registrar.ownerToPrimaryName.get a = some n ∧
      Renewable s n ∧
      (∀ m, s.registry.accountToSubnames.get (a, m) = none) ∧
      (∀ m, s.registry.accountToSubnames.get (b, m) = none) ∧
      s.registrar.ownerToPrimaryName.get b = none := by
  have hL : ∀ l ∈ (Call.transfer (.id b) : Call T).labels, l ∈ L :=
    fun _ hl => (List.not_mem_nil hl).elim
  constructor
  · rintro ⟨s₁, s₂, h₁, hown₁, h₂, -, -, hb⟩
    have hc₁ := (transfer_sound hcf hc h₁).consistent
    obtain ⟨k, hk⟩ := (transfer_isOk hcf hc hopen hlen a b).mp ⟨s₁, h₁⟩
    obtain rfl := (transferred hcf hc hk.pointer h₁).eq_of_ownerOf hne hown hown₁
    obtain ⟨k', hk'⟩ := (transfer_isOk hcf hc₁ hopen hlen b a).mp ⟨s₂, h₂⟩
    have hfree := ((GivesAway.transfer hk.pointer).unnamed_iff hcf hc hL h₁
      hsub).mp hk'.free
    exact ⟨hk.pointer, hk.renewable, hfree.1, hk.free.held,
      hb.symm.trans (transferred hcf hc₁ hk'.pointer h₂).giver⟩
  · rintro ⟨hp, hterm, ha, hb, hpb⟩
    have hfree : Unnamed s b := by
      refine ⟨fun m hm => ?_, hb⟩
      rw [hpb] at hm
      cases hm
    obtain ⟨s₁, h₁⟩ := (transfer_isOk hcf hc hopen hlen a b).mpr ⟨n, hp, hown, hterm, hfree⟩
    have hc₁ := (transfer_sound hcf hc h₁).consistent
    have ht₁ := transferred hcf hc hp h₁
    have hterm₁ : ∃ e, (view s₁).expiry n = some e ∧ (view s₁).now < e := by
      rw [ht₁.expiry, ht₁.now]
      exact renewable_iff.mp hterm
    have hfree₁ := ((GivesAway.transfer hp).unnamed_iff hcf hc hL h₁
      hsub).mpr ⟨ha, fun m hm hmn => absurd (Option.some.inj (hm.symm.trans hp)) hmn⟩
    obtain ⟨s₂, h₂⟩ := (transfer_isOk hcf hc₁ hopen hlen b a).mpr
      ⟨n, ht₁.receiver, ht₁.ownerOf, renewable_iff.mpr hterm₁, hfree₁⟩
    have ht₂ := transferred hcf hc₁ ht₁.receiver h₂
    exact ⟨s₁, s₂, h₁, ht₁.ownerOf, h₂, ht₂.ownerOf, ht₂.receiver.trans hp.symm,
      ht₂.giver.trans hpb.symm⟩

/-- An account that holds no active subname is free after a transfer or a sale exactly
if `AccountToSubnames` listed nothing for it and it answers to no other name; a free
account is not refused by the one-name guards; and a transfer there and back works
exactly if in addition the receiver is free as well. -/
theorem former_holder_free_iff {keccak256 : Bytes → H256} {Ledger : Type}
    {currency : Currency Ledger} (hT : T = runtimeConfig keccak256 Ledger currency)
    (hcf : CollisionFree T.keccak256 T.baseNode L) (h : Reachable T L s)
    (hsub : ∀ c d, s.registry.subnameRecords.get c = some d → d.state = .active →
      d.target ≠ a) :
    (∀ n o call s', GivesAway s a n o call → (∀ l ∈ call.labels, l ∈ L) →
      dispatch s o call = .ok s' →
      (hasActiveSubname s' a = false ∧ hasValidCanonicalName s' a = false ↔
        (∀ m, s.registry.accountToSubnames.get (a, m) = none) ∧
        ∀ m, s.registrar.ownerToPrimaryName.get a = some m → m ≠ n →
          stillValid s m = false)) ∧
    (∀ s' : State T, Reachable T L s' → hasActiveSubname s' a = false →
      hasValidCanonicalName s' a = false → ∀ o call, GivesTo a o call →
      ¬ Refused (dispatch s' o call)) ∧
    ∀ n b, n ≠ T.baseNode → Registry.ownerOf s n = some a →
      (ThereAndBack s a b n ↔
        s.registrar.ownerToPrimaryName.get a = some n ∧
        Renewable s n ∧
        (∀ m, s.registry.accountToSubnames.get (a, m) = none) ∧
        (∀ m, s.registry.accountToSubnames.get (b, m) = none) ∧
        s.registrar.ownerToPrimaryName.get b = none) := by
  have hc := h.consistent hcf
  have hopen : T.isOpen = true := by rw [hT]; rfl
  have hlen : 32 ≤ T.maxContentLen := by rw [hT]; exact (by decide : 32 ≤ 1024)
  refine ⟨fun n o call s' hg hL hok => ?_, fun s' h' hfree hvalid o call hg => ?_,
    fun n b hne hown => thereAndBack_iff hcf hc hopen hlen hsub hne hown⟩
  · rw [← unnamed_iff]
    exact hg.unnamed_iff hcf hc hL hok hsub
  · exact (Unnamed.admitted hcf (h'.consistent hcf) (unnamed_iff.mpr ⟨hfree, hvalid⟩)
      hg).not_refused

open Devnet in
/-- Account 1, which bought `alice`, can transfer it to account 3 and get it back. -/
theorem former_holder_free_after_purchase :
    ThereAndBack afterSale (account 1) (account 3) (node alice) := by
  have hentry : ∀ b, b = account 1 ∨ b = account 3 →
      hasActiveSubname afterSale b = false := by
    rintro b (rfl | rfl)
    · decide +kernel
    · decide +kernel
  have hterm : ∀ info ∈ afterSale.registrar.registrarInfos.get (node alice),
      afterSale.now < graceEnd config info := by decide +kernel
  have hinfo : (afterSale.registrar.registrarInfos.get (node alice)).isSome = true := by
    decide +kernel
  obtain ⟨info, hinfo⟩ := Option.isSome_iff_exists.mp hinfo
  have hcount : afterSale.registry.subnameRecords.count (fun _ _ => true) = 0 := by
    decide +kernel
  have hsub : ∀ c d, afterSale.registry.subnameRecords.get c = some d → d.state = .active →
      d.target ≠ account 1 :=
    fun c d hd => absurd hcount (StorageMap.count_pos hd rfl).ne'
  have hbase : node alice ≠ config.baseNode := by decide +kernel
  have hown : Registry.ownerOf afterSale (node alice) = some (account 1) := by decide +kernel
  exact ((former_holder_free_iff (T := config) rfl collisionFree afterSale_reachable hsub).2.2
    (node alice) (account 3) hbase hown).mpr
    ⟨by decide +kernel, ⟨info, hinfo, hterm info hinfo⟩,
      hasActiveSubname_eq_false.mp (hentry _ (Or.inl rfl)),
      hasActiveSubname_eq_false.mp (hentry _ (Or.inr rfl)), by decide +kernel⟩

/-- Account 1 registers `alice` and transfers it to account 2. -/
def Devnet.afterTransfer : State Devnet.config :=
  apply afterRegistration (.extrinsic (.signed (account 1)) (.transfer (.id (account 2))))

open Devnet in
/-- Account 1 registered `alice` and gave it to account 2, and has no other name or
subname; still it cannot get the name back or register another one. -/
theorem transfer_strands_registrant :
    CollisionFree config.keccak256 config.baseNode labels ∧
      Reachable config labels afterRegistration ∧
      Registry.ownerOf afterRegistration (node alice) = some (account 1) ∧
      stillValid afterRegistration (node alice) = true ∧
      afterRegistration.registry.subnameRecords.count (fun _ _ => true) = 0 ∧
      (dispatch afterRegistration (.signed (account 1))
        (.transfer (.id (account 2)))).isOk = true ∧
      hasActiveSubname afterTransfer (account 1) = true ∧
      Refused (dispatch afterTransfer (.signed (account 2)) (.transfer (.id (account 1)))) ∧
      Refused (dispatch afterTransfer (.signed (account 1))
        (.register bob (.id (account 1)) none)) :=
  ⟨collisionFree, afterRegistration_reachable, by decide +kernel⟩

end PnsPallets
