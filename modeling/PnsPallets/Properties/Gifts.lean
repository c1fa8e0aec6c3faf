import PnsPallets.Properties.Authorship
import PnsPallets.Properties.Reports

/-!
# Gifts

A name that is bought for somebody else is pending until the recipient answers
(`gift_life_cycle`): it became pending by a purchase of the buyer on record, for the recipient on
record, and only an answer of that recipient ends it, whatever else happens to the name.
-/

namespace PnsPallets

open Frame Registry Registrar Zones

variable {T : Config} {L : Set Bytes} {s s' : State T} {o : Origin} {call : Call T}
  {n : DomainHash} {g : OfferedNameRecord} {es : List (RuntimeEvent T)}

/-- The gift of the name that waits for an answer. -/
def pendingGift (s : State T) (n : DomainHash) : Option OfferedNameRecord :=
  s.registrar.offeredNames.get n

/-- The call answers the gift of `n`: it accepts it, or rejects it and registers another name. -/
def Answers (T : Config) (n : DomainHash) : Call T → Prop
  | .acceptOfferedName name => topLevelNode T name = .ok n
  | .register _ _ (some rejected) => parseNameToNode T.keccak256 rejected T.baseNode = some n
  | _ => False

/-! ## Calls that change gifts -/

/-- What a successful call does to the pending gifts, if anything. -/
inductive Gives (s : State T) :
    Origin → Call T → List (DomainHash × Option OfferedNameRecord) → Prop where
  | buy {buyer recip : AccountId} {name : Bytes} {n : DomainHash} {listing : Listing} :
      Marketplace.listedNode T name = .ok n → pendingGift s n = none →
      s.listings.get n = some listing → Registry.ownerOf s n = some listing.seller →
      Gives s (.signed buyer) (.buyName name (some recip)) [(n, some ⟨buyer, recip⟩)]
  | answer {who : AccountId} {call : Call T} {n : DomainHash} : Answers T n call →
      (∀ g, pendingGift s n = some g → g.recipient = who) →
      Gives s (.signed who) call [(n, none)]
  | quiet {o : Origin} {call : Call T} : Gives s o call []

/-- With a registration only an own gift is rejected. -/
theorem register_gives {name : Bytes} {owner : MultiAddress} {rejectOffer : Option Bytes}
    (hok : Registrar.register s o name owner rejectOffer = .ok s')
    (h : registerEvents s o name owner rejectOffer = .ok es) :
    Gives s o (.register name owner rejectOffer) (giftsOf es) := by
  obtain ⟨-, -, who, rejected, rfl, hrejected, hgifts⟩ := registerEvents_report h
  rw [hgifts]
  rcases (rejectEvents_report hrejected).2.2 with ⟨rfl, hnil⟩ | ⟨text, r, rfl, hr, hone⟩
  · rw [hnil]
    exact .quiet
  · rw [hone]
    refine .answer hr fun g hg => ?_
    obtain ⟨who', dest, s₁, hwho, -, hreject, -⟩ := register_eq_ok hok
    obtain rfl : who = who' := Origin.signed.inj hwho
    have hg' : s.registrar.offeredNames.get r = some g := hg
    cases rejectPendingOffer_eq_ok hreject with
    | gift hr' hoffer hrecipient =>
      obtain rfl := Option.some.inj (hr.symm.trans hr')
      obtain rfl := Option.some.inj (hg'.symm.trans hoffer)
      exact hrecipient
    | offer hr' hnone =>
      obtain rfl := Option.some.inj (hr.symm.trans hr')
      cases hg'.symm.trans hnone

theorem callEvents_gives (hok : dispatch s o call = .ok s') (h : callEvents s o call = .ok es) :
    Gives s o call (giftsOf es) := by
  by_cases hplain : call.isPlain = true
  · rw [giftsOf_plain (callEvents_plain hplain h)]
    exact .quiet
  cases call with
  | register name owner rejectOffer => exact register_gives hok h
  | renew =>
    simp only [callEvents, renewEvents, bind_eq_ok, pure_eq_ok] at h
    obtain ⟨-, -, -, -, -, -, -, -, -, -, rfl⟩ := h
    exact .quiet
  | acceptOfferedName name =>
    simp only [callEvents, acceptOfferedNameEvents, bind_eq_ok, pure_eq_ok] at h
    obtain ⟨who, hwho, n, hn, rfl⟩ := h
    obtain rfl := ensureSigned_eq_ok hwho
    refine .answer hn fun g hg => ?_
    obtain ⟨who', n', offer, info, primary, v₁, v₂, hwho', hn', hoffer, hrecipient, -⟩ :=
      acceptOfferedName_eq_ok hok
    obtain rfl : who = who' := Origin.signed.inj hwho'
    obtain rfl : n = n' := Except.ok.inj (hn.symm.trans hn')
    obtain rfl : g = offer := Option.some.inj (hg.symm.trans hoffer)
    exact hrecipient
  | createListing price expiresAt =>
    simp only [callEvents, Marketplace.createListingEvents, bind_eq_ok, pure_eq_ok] at h
    obtain ⟨-, -, -, -, rfl⟩ := h
    exact .quiet
  | cancelListing =>
    simp only [callEvents, Marketplace.cancelListingEvents, bind_eq_ok, pure_eq_ok] at h
    obtain ⟨-, -, -, -, rfl⟩ := h
    exact .quiet
  | buyName name recipient =>
    simp only [callEvents, Marketplace.buyNameEvents, bind_eq_ok, okOr_eq_ok] at h
    obtain ⟨buyer, hbuyer, n, hn, listing, hlisting, h⟩ := h
    obtain rfl := ensureSigned_eq_ok hbuyer
    cases recipient with
    | none =>
      cases h
      rw [giftsOf_append, giftsOf_plain (plain_transferEvents s buyer n)]
      exact .quiet
    | some recip =>
      cases h
      rw [giftsOf_append, giftsOf_plain (plain_transferEvents s recip n)]
      obtain ⟨buyer', n', listing', balances, -, hn', hlisting', -, -, hseller, -, hdeliver⟩ :=
        buyName_eq_ok hok
      obtain rfl : n = n' := Except.ok.inj (hn.symm.trans hn')
      obtain rfl : listing = listing' := Option.some.inj (hlisting.symm.trans hlisting')
      rcases deliver_cases hdeliver with ⟨_, heq, hoffer⟩ | ⟨heq, -⟩
      swap
      · cases heq
      obtain ⟨primary, s₁, hnew, -⟩ := offerBoughtName_eq_ok hoffer
      have hnone := Option.isNone_iff_eq_none.mp (Option.isSome_eq_false_iff.mp hnew)
      exact .buy hn hnone hlisting hseller.symm
  | _ => exact absurd rfl hplain

/-- The gifts after a successful call, by what it reports. -/
theorem Reachable.gives (hcf : CollisionFree T.keccak256 T.baseNode L) (h : Reachable T L s)
    (hL : ∀ l ∈ call.labels, l ∈ L) (hok : dispatch s o call = .ok s') :
    ∃ gs, Gives s o call gs ∧ pendingGift s' = gs.foldl regift (pendingGift s) := by
  obtain ⟨es, hevents, htracks⟩ := dispatch_publishes hcf (h.consistent hcf) hL hok
  refine ⟨giftsOf es, callEvents_gives hok hevents, ?_⟩
  exact (congrArg Index.gift htracks).trans (foldl_gift es (indexOf s))

/-! ## Steps -/

/-- A gift that is pending after a call was pending before, or is bought by it. -/
theorem Gives.made {gs : List (DomainHash × Option OfferedNameRecord)} (h : Gives s o call gs)
    (hgift : gs.foldl regift (pendingGift s) n = some g) :
    (∃ name, o = .signed g.buyer ∧ call = .buyName name (some g.recipient) ∧
      Marketplace.listedNode T name = .ok n ∧ pendingGift s n = none ∧
      ∃ listing, s.listings.get n = some listing ∧ Registry.ownerOf s n = some listing.seller) ∨
    pendingGift s n = some g := by
  cases h with
  | @buy buyer recip name m listing hm hnone hlisting hseller =>
    by_cases hn : n = m
    · subst hn
      have hsame : (⟨buyer, recip⟩ : OfferedNameRecord) = g := by simpa [regift] using hgift
      subst hsame
      exact .inl ⟨name, rfl, rfl, hm, hnone, listing, hlisting, hseller⟩
    · right
      simpa [regift, hn] using hgift
  | @answer who call m _ _ =>
    by_cases hn : n = m
    · subst hn
      simp [regift] at hgift
    · right
      simpa [regift, hn] using hgift
  | quiet => exact .inr hgift

/-- A pending gift stays as it is, unless its recipient answers. -/
theorem Gives.kept {gs : List (DomainHash × Option OfferedNameRecord)} (h : Gives s o call gs)
    (hgift : pendingGift s n = some g) :
    gs.foldl regift (pendingGift s) n = some g ∨
      gs.foldl regift (pendingGift s) n = none ∧ o = .signed g.recipient ∧ Answers T n call := by
  cases h with
  | @buy buyer recip name m listing hm hnone hlisting hseller =>
    have hn : n ≠ m := by
      rintro rfl
      cases hgift.symm.trans hnone
    left
    simpa [regift, hn] using hgift
  | @answer who call m hanswers hown =>
    by_cases hn : n = m
    · subst hn
      right
      exact ⟨by simp [regift], by rw [hown g hgift], hanswers⟩
    · left
      simpa [regift, hn] using hgift
  | quiet => exact .inl hgift

/-! ## Runs -/

/-- `g.recipient` answers the gift `g` of `n` in the state `x`, which ends it. -/
def AnsweredIn (n : DomainHash) (g : OfferedNameRecord) (x x' : State T) : Prop :=
  pendingGift x n = some g ∧ pendingGift x' n = none ∧
    ∃ call, Answers T n call ∧ dispatch x (.signed g.recipient) call = .ok x'

/-- Along a path a gift stays pending, or is answered on the way. -/
theorem gift_until_answered (hcf : CollisionFree T.keccak256 T.baseNode L) (h : Reachable T L s)
    (hgift : pendingGift s n = some g) {tr : List (State T)} {t : State T}
    (hpath : (chain T).Path (Admissible L) s tr t) :
    (∀ x ∈ tr, pendingGift x n = some g) ∨ ∃ x ∈ tr, ∃ x' ∈ tr, AnsweredIn n g x x' := by
  induction hpath with
  | refl => exact .inl fun x hx => by rwa [List.mem_singleton.mp hx]
  | @step tr t i hpath hadm ih =>
    rcases ih with hall | ⟨x, hx, x', hx', hanswered⟩
    swap
    · exact .inr ⟨x, List.mem_append_left _ hx, x', List.mem_append_left _ hx', hanswered⟩
    have ht : pendingGift t n = some g := hall t hpath.last_mem
    have hmem : apply t i ∈ tr ++ [apply t i] :=
      List.mem_append_right _ (List.mem_singleton_self _)
    have hstay : pendingGift (apply t i) n = some g →
        ∀ x ∈ tr ++ [apply t i], pendingGift x n = some g := by
      intro hnow x hx
      rcases List.mem_append.mp hx with hx | hx
      · exact hall x hx
      · rwa [List.mem_singleton.mp hx]
    cases i with
    | newBlock now number hash ledger => exact .inl (hstay ht)
    | extrinsic o call =>
      rcases commit_cases t (dispatch t o call) with hsame | hok
      · exact .inl (hstay ((congrArg (pendingGift · n) hsame).trans ht))
      · have hreach : Reachable T L t := hpath.reach h
        obtain ⟨gs, hgives, hafter⟩ := hreach.gives hcf hadm hok
        rcases hgives.kept ht with hkept | ⟨hnone, rfl, hanswers⟩
        · exact .inl (hstay ((congrFun hafter n).trans hkept))
        · exact .inr ⟨t, List.mem_append_left _ hpath.last_mem, _, hmem, ht,
            (congrFun hafter n).trans hnone, call, hanswers, hok⟩

/-- **The life of a gift.** Whatever run led to a pending gift, the gift was made on that run by
its buyer, who bought the name for its recipient under a listing of the owner when no gift of it
was pending, and it has been pending ever since. On every run from here it stays pending, unless
its recipient answers it: neither the buyer, nor an owner, nor the passing of time ends it. -/
theorem gift_life_cycle (hcf : CollisionFree T.keccak256 T.baseNode L) {s₀ : State T}
    {inputs : List (Input T)} (h : (chain T).RunsTo (Admissible L) s₀ inputs s)
    (hgift : pendingGift s n = some g) :
    (∃ name, Marketplace.listedNode T name = .ok n ∧
      CalledSince s₀ inputs g.buyer (.buyName name (some g.recipient))
        (fun u => pendingGift u n = none ∧ ∃ listing, u.listings.get n = some listing ∧
          Registry.ownerOf u n = some listing.seller)
        fun x => pendingGift x n = some g) ∧
    ∀ tr t, (chain T).Path (Admissible L) s tr t →
      (∀ x ∈ tr, pendingGift x n = some g) ∨ ∃ x ∈ tr, ∃ x' ∈ tr, AnsweredIn n g x x' := by
  refine ⟨?_, fun tr t hpath => gift_until_answered hcf h.reach hgift hpath⟩
  obtain ⟨w, call, ⟨name, rfl, hn⟩, hsince⟩ := calledSince_of_runsTo (L := L) pendingGift
    (P := fun gifts => gifts n = some g)
    (K := fun w gifts => gifts n = some g ∧ w = g.buyer)
    (C := fun call => ∃ name, call = .buyName name (some g.recipient) ∧
      Marketplace.listedNode T name = .ok n)
    (J := fun _ u => pendingGift u n = none ∧ ∃ listing, u.listings.get n = some listing ∧
      Registry.ownerOf u n = some listing.seller)
    (fun _ _ _ _ _ => rfl)
    (fun u hu hpending => by
      obtain ⟨root, balances, parentHash, hgenesis⟩ := hu
      have hnone := congrFun (congrArg Index.gift (genesis_index hgenesis)) n
      cases hpending.symm.trans hnone)
    (fun u o call u' hu hadm hok hpending => by
      obtain ⟨gs, hgives, hafter⟩ := hu.gives hcf hadm hok
      rcases hgives.made ((congrFun hafter n).symm.trans hpending) with
        ⟨name, rfl, rfl, hn, hnone, hlisted⟩ | hold
      · exact .inl ⟨_, rfl, ⟨name, rfl, hn⟩, ⟨hnone, hlisted⟩, hpending, rfl⟩
      · exact .inr ⟨hold, fun w hw => ⟨hpending, hw.2⟩⟩)
    h hgift
  obtain rfl := hsince.last.2
  exact ⟨name, hn, hsince.mono fun x hx => hx.1⟩

open Devnet in
/-- The gift of `alice` to account 3, from the purchase to the answer. -/
theorem gift_life_cycle_of_alice :
    (∃ name, Marketplace.listedNode config name = .ok (node alice) ∧
      CalledSince start presentInputs (account 2) (.buyName name (some (account 3)))
        (fun u => pendingGift u (node alice) = none ∧ ∃ listing,
          u.listings.get (node alice) = some listing ∧
          Registry.ownerOf u (node alice) = some listing.seller)
        fun x => pendingGift x (node alice) = some ⟨account 2, account 3⟩) ∧
    ∀ tr t, (chain config).Path (Admissible labels) afterGift tr t →
      (∀ x ∈ tr, pendingGift x (node alice) = some ⟨account 2, account 3⟩) ∨
        ∃ x ∈ tr, ∃ x' ∈ tr, AnsweredIn (node alice) ⟨account 2, account 3⟩ x x' :=
  gift_life_cycle (n := node alice) (g := ⟨account 2, account 3⟩) collisionFree
    afterGift_run (by decide +kernel)

end PnsPallets
