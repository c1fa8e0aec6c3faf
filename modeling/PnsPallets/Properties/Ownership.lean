import PnsPallets.InGrace
import PnsPallets.Properties.Payments

/-!
# Changes of ownership

A live name leaves its owner only by the owner's signature or by a purchase under
the owner's open listing (`live_name_kept`). Which extrinsics take a name from
whom is read off the operations they perform. The pallets' test for a live name
wraps, so this is so in runs of terms that fit; near the end of time anybody can
register a name that is in its term (`live_name_taken`).

Listings, however, are not tied to the ownership they were made under: they
survive a transfer, release or burn of the name, and become usable again when the
seller gets the name back. `listing_owner_constant` gives the condition under
which the seller of a used listing has owned the name ever since it was created,
and `released_name_sold` a run without it.
-/

namespace PnsPallets

open Frame Registry Registrar Holdings

variable {T : Config} {L : Set Bytes} {s s' : State T} {o : Origin} {call : Call T}
  {ops : List NameOp} {h' : Book AccountId DomainHash Nat Bytes} {a z who : AccountId}
  {n : DomainHash}

/-! ## Names stay with their owners -/

/-- Rejecting an offer takes no live name from anybody but the caller. -/
theorem rejects_owner_kept {rej : Option Bytes} (hrej : Rejects s who rej ops)
    (hruns : Runs AccountId.encode (view s) ops h') (ha : a ≠ who)
    (hown : (view s).owner n = some a) (hlive : (view s).Live n) :
    h'.owner n = some a ∧ h'.Live n := by
  cases hrej with
  | none =>
    cases hruns
    exact ⟨hown, hlive⟩
  | @gift name m offer D hm hoffer =>
    obtain ⟨hen, rfl⟩ := hruns.of_single
    have hne : n ≠ m := by
      rintro rfl
      exact ha (Option.some.inj (hown.symm.trans hen.1))
    obtain ⟨e, hexp, hle⟩ := hlive
    exact ⟨(Function.update_of_ne hne _ _).trans hown, e,
      (Function.update_of_ne hne _ _).trans hexp, hle⟩
  | offer =>
    obtain ⟨hen, rfl⟩ := hruns.of_single
    exact ⟨hown, hlive⟩

/-- The call is a purchase of `n` from `a`, under an open listing of `a`, and the balances
after it are those of the payment: the full price to `a`, and the protocol fee burned
from it. -/
def BuysFrom (a : AccountId) (n : DomainHash) (s : State T) (o : Origin) (call : Call T)
    (s' : State T) : Prop :=
  ∃ buyer name recipient listing, o = .signed buyer ∧ call = .buyName name recipient ∧
    Marketplace.listedNode T name = .ok n ∧ s.listings.get n = some listing ∧
    listing.seller = a ∧ listing.expiresAt > s.now ∧
    Settled T s.balances buyer listing s'.balances

theorem buysFrom_of_ok {buyer : AccountId} {name : Bytes} {recipient : Option AccountId}
    {listing : Listing} (hn : Marketplace.listedNode T name = .ok n)
    (hlisting : s.listings.get n = some listing) (hexp : listing.expiresAt > s.now)
    (hok : dispatch s (.signed buyer) (.buyName name recipient) = .ok s') :
    BuysFrom listing.seller n s (.signed buyer) (.buyName name recipient) s' := by
  obtain ⟨buyer', m, listing', hbuyer, hm, hlisting', -, hsettled⟩ := buyName_settled hok
  obtain rfl : buyer = buyer' := Origin.signed.inj hbuyer
  obtain rfl : n = m := Except.ok.inj (hn.symm.trans hm)
  obtain rfl : listing = listing' := Option.some.inj (hlisting.symm.trans hlisting')
  exact ⟨buyer, name, recipient, listing, rfl, rfl, hn, hlisting, rfl, hexp, hsettled⟩

/-- A name of `a` that counts as live stays with `a` in every call that `a` did not sign,
unless it is bought from `a`. -/
theorem countedName_kept (hcf : CollisionFree T.keccak256 T.baseNode L)
    (h : Reachable T L s) (hne : n ≠ T.baseNode) (hown : Registry.ownerOf s n = some a)
    (hlive : stillValid s n = true) (ho : o ≠ .signed a)
    (hL : ∀ l ∈ call.labels, l ∈ L) (hok : dispatch s o call = .ok s') :
    Registry.ownerOf s' n = some a ∨ BuysFrom a n s o call s' := by
  have hown' : (view s).owner n = some a := (view_owner hne).trans hown
  have hlive' : (view s).Live n := view_live.mpr hlive
  obtain ⟨ops, hperf, hruns⟩ := (dispatch_sound hcf (h.consistent hcf) hL hok).performs
  have hback : (view s').owner n = some a → Registry.ownerOf s' n = some a :=
    fun hs' => (view_owner_eq_some.mp hs').2
  cases hperf with
  | register hn hrej =>
    obtain ⟨h₁, hfirst, hen, heq⟩ := hruns.of_concat
    obtain ⟨hown₁, hlive₁⟩ :=
      rejects_owner_kept hrej hfirst (fun hsame => ho (hsame ▸ rfl)) hown' hlive'
    rcases Op.owner_kept hen hown₁ hlive₁ with hkept | htaken
    · exact Or.inl (hback (heq ▸ hkept))
    · exact htaken.elim
  | @buyName buyer name m listing paid D hn hlisting hexp hpaid =>
    obtain ⟨hen, heq⟩ := hruns.of_single
    rcases Op.owner_kept hen hown' hlive' with hkept | ⟨rfl, rfl⟩
    · exact Or.inl (hback (heq ▸ hkept))
    · exact Or.inr (buysFrom_of_ok hn hlisting hexp hok)
  | @buyGift buyer recip name m listing paid D hn hlisting hexp hpaid =>
    obtain ⟨hen, heq⟩ := hruns.of_single
    rcases Op.owner_kept hen hown' hlive' with hkept | ⟨rfl, rfl⟩
    · exact Or.inl (hback (heq ▸ hkept))
    · exact Or.inr (buysFrom_of_ok hn hlisting hexp hok)
  | transfer | releaseName | burn =>
    obtain ⟨hen, heq⟩ := hruns.of_single
    rcases Op.owner_kept hen hown' hlive' with hkept | ⟨-, rfl⟩
    · exact Or.inl (hback (heq ▸ hkept))
    · exact absurd rfl ho
  | renew | acceptSubdomain | acceptOfferedName | quiet =>
    obtain ⟨hen, heq⟩ := hruns.of_single
    rcases Op.owner_kept hen hown' hlive' with hkept | htaken
    · exact Or.inl (hback (heq ▸ hkept))
    · exact htaken.elim

/-- If all terms fit, a live name of `a` stays with `a` in every call that `a` did not
sign, unless it is bought under an open listing of `a` whose price is paid to `a`. -/
theorem live_name_kept (hcf : CollisionFree T.keccak256 T.baseNode L)
    (h : ReachableBy T L (OnSuccess TermsFit) s) {info : RegistrarInfo} (hne : n ≠ T.baseNode)
    (hown : Registry.ownerOf s n = some a) (hinfo : s.registrar.registrarInfos.get n = some info)
    (hlive : s.now.toNat ≤ info.expire.toNat + T.gracePeriod.toNat) (ho : o ≠ .signed a)
    (hL : ∀ l ∈ call.labels, l ∈ L) (hok : dispatch s o call = .ok s') :
    Registry.ownerOf s' n = some a ∨ BuysFrom a n s o call s' := by
  have hvalid := h.stillValid_of_live hcf hinfo hlive
  exact countedName_kept hcf h.reachable hne hown hvalid ho hL hok

/-- Account 1 has put `alice` up for sale. -/
def Devnet.afterListing : State Devnet.config :=
  apply Devnet.afterRegistration
    (.extrinsic (.signed (Devnet.account 1)) (.createListing 5000 1000000))

open Devnet in
theorem Devnet.afterListing_fits : ReachableBy config labels (OnSuccess TermsFit) afterListing :=
  afterRegistration_fits.step (by decide +kernel) (by decide +kernel)

open Devnet in
/-- Account 2 registers `bob` while `alice` is for sale. -/
theorem live_name_kept_beside_registration :
    ∃ s', dispatch afterListing (.signed (account 2)) (.register bob (.id (account 2)) none)
        = .ok s' ∧ Registry.ownerOf s' (node alice) = some (account 1) := by
  have hown : Registry.ownerOf afterListing (node alice) = some (account 1) := by
    decide +kernel
  have hlive : ∀ info ∈ afterListing.registrar.registrarInfos.get (node alice),
      afterListing.now.toNat ≤ info.expire.toNat + config.gracePeriod.toNat := by decide +kernel
  have hsome : (afterListing.registrar.registrarInfos.get (node alice)).isSome = true := by
    decide +kernel
  have hne : node alice ≠ config.baseNode := by decide +kernel
  have hL : ∀ l ∈ (Call.register bob (.id (account 2)) none : Call config).labels,
      l ∈ labels := by decide +kernel
  obtain ⟨info, hinfo⟩ := Option.isSome_iff_exists.mp hsome
  have hok := eq_ok_get (r := dispatch afterListing (.signed (account 2))
    (.register bob (.id (account 2)) none)) (by decide +kernel)
  refine ⟨_, hok, ?_⟩
  rcases live_name_kept collisionFree afterListing_fits hne hown hinfo
    (hlive info hinfo) (by decide) hL hok with hkept | ⟨_, _, _, _, -, hcall, -⟩
  · exact hkept
  · cases hcall

open Devnet in
/-- Near the end of time account 2 registers `alice`, which account 1 registered in the
same block for a year. -/
theorem live_name_taken :
    CollisionFree config.keccak256 config.baseNode labels ∧
      Reachable config labels (after lastTermInputs) ∧ node alice ≠ config.baseNode ∧
      Registry.ownerOf (after lastTermInputs) (node alice) = some (account 1) ∧
      ((after lastTermInputs).registrar.registrarInfos.get (node alice)).any
        (fun info => decide ((after lastTermInputs).now < info.expire)) = true ∧
      (dispatch (after lastTermInputs) (.signed (account 2))
        (.register alice (.id (account 2)) none)).isOk = true ∧
      Registry.ownerOf (apply (after lastTermInputs) (.extrinsic (.signed (account 2))
        (.register alice (.id (account 2)) none))) (node alice) = some (account 2) :=
  ⟨collisionFree, reachable_after (by decide +kernel), by decide +kernel⟩

/-! ## Listings and ownership -/

/-- A purchase removes the listing. -/
theorem buyName_unlists {name : Bytes} {recipient : Option AccountId}
    (hn : Marketplace.listedNode T name = .ok n)
    (h : dispatch s o (.buyName name recipient) = .ok s') : s'.listings.get n = none := by
  obtain ⟨buyer, m, listing, balances, -, hm, -, -, -, -, -, h⟩ := buyName_eq_ok h
  obtain rfl : n = m := Except.ok.inj (hn.symm.trans hm)
  have hlistings : s'.listings = s.listings.remove n := by
    rcases deliver_cases h with ⟨recip, -, hoffer⟩ | ⟨-, s₂, v₁, v₂, htransfer, -, -, rfl⟩
    · obtain ⟨primary, s₂, -, -, hmove, -, rfl⟩ := offerBoughtName_eq_ok hoffer
      exact (congrArg State.listings (doTransfer_frame hmove) :)
    · obtain ⟨primary, primary', s₁, -, -, hmove, -, rfl⟩ := transferName_eq_ok htransfer
      exact (congrArg State.listings (doTransfer_frame hmove) :)
  rw [hlistings, StorageMap.get_remove, if_pos rfl]

/-- `dest` has no open listing of `n`, or owns `n` already. -/
def ReturnsUnlisted (s : State T) (dest : AccountId) (n : DomainHash) : Prop :=
  ∀ listing ∈ s.listings.get n, listing.seller = dest → s.now < listing.expiresAt →
    Registry.ownerOf s n = some dest

instance (s : State T) (dest : AccountId) (n : DomainHash) :
    Decidable (ReturnsUnlisted s dest n) :=
  inferInstanceAs (Decidable (∀ listing ∈ s.listings.get n, listing.seller = dest →
    s.now < listing.expiresAt → Registry.ownerOf s n = some dest))

/-- The call does not give a name back to an account that has an open listing of it
from an earlier ownership: neither by registration nor by transfer. -/
def NoListedReturn (s : State T) : Origin → Call T → Prop
  | .signed _, .register name (.id dest) _ =>
    ∀ n, topLevelNode T name = .ok n → ReturnsUnlisted s dest n
  | .signed who, .transfer (.id dest) =>
    ∀ n ∈ s.registrar.ownerToPrimaryName.get who, ReturnsUnlisted s dest n
  | _, _ => True

/-- Rejecting an offer gives nobody a name. -/
theorem rejects_owner_before {rej : Option Bytes} (hrej : Rejects s who rej ops)
    (hruns : Runs AccountId.encode (view s) ops h') (hown : h'.owner n = some a) :
    (view s).owner n = some a := by
  cases hrej with
  | none =>
    cases hruns
    exact hown
  | gift | offer =>
    obtain ⟨-, rfl⟩ := hruns.of_single
    exact (Op.owner_acquired hown).resolve_right id

/-- If the seller of an open listing owns the name after a step that leaves the
listing in place, it owned the name before. -/
theorem seller_owner_before (hcf : CollisionFree T.keccak256 T.baseNode L)
    (hc : Consistent T L s) (hL : ∀ l ∈ call.labels, l ∈ L)
    (hk : NoListedReturn s o call) (hok : dispatch s o call = .ok s')
    {listing : Listing} (hlisting : s.listings.get n = some listing)
    (hlisting' : s'.listings.get n = some listing) (hopen : s.now < listing.expiresAt)
    (hown : (view s').owner n = some listing.seller) :
    (view s).owner n = some listing.seller := by
  obtain ⟨ops, hperf, hruns⟩ := (dispatch_sound hcf hc hL hok).performs
  cases hperf with
  | register hn hrej =>
    obtain ⟨h₁, hfirst, -, heq⟩ := hruns.of_concat
    rw [heq] at hown
    rcases Op.owner_acquired hown with hbefore | ⟨rfl, hdest⟩
    · exact rejects_owner_before hrej hfirst hbefore
    · have htop := topLevelNode_topLevel hn (hL _ List.mem_cons_self)
      rw [view_owner (htop.ne_base hcf), hdest]
      exact hk _ hn listing hlisting hdest hopen
  | transfer hn =>
    obtain ⟨hen, heq⟩ := hruns.of_single
    rw [heq] at hown
    rcases Op.owner_acquired hown with hbefore | ⟨rfl, hdest⟩
    · exact hbefore
    · rw [view_owner (view_owner_eq_some.mp hen.1).1, hdest]
      exact hk _ hn listing hlisting hdest hopen
  | buyName hn | buyGift hn =>
    -- a purchase would have removed the listing
    obtain ⟨-, heq⟩ := hruns.of_single
    rw [heq] at hown
    rcases Op.owner_acquired hown with hbefore | ⟨rfl, -⟩
    · exact hbefore
    · rw [buyName_unlists hn hok] at hlisting'
      cases hlisting'
  | renew | releaseName | burn | acceptSubdomain | acceptOfferedName | quiet =>
    obtain ⟨-, heq⟩ := hruns.of_single
    rw [heq] at hown
    exact (Op.owner_acquired hown).resolve_right id

/-- What a successful purchase found. -/
theorem buyName_seller (hcf : CollisionFree T.keccak256 T.baseNode L)
    (hc : Consistent T L s) {name : Bytes} {recipient : Option AccountId} {listing : Listing}
    (hL : toAsciiLowercase name ∈ L) (hn : Marketplace.listedNode T name = .ok n)
    (hlisting : s.listings.get n = some listing)
    (hok : dispatch s o (.buyName name recipient) = .ok s') :
    (view s).owner n = some listing.seller ∧ s.now < listing.expiresAt := by
  obtain ⟨ops, hperf, hruns⟩ := (dispatch_sound hcf hc (by simpa [Call.labels]) hok).performs
  cases hperf with
  | @buyName buyer _ m listing' paid D hm hlisting' hexp hpaid
  | @buyGift buyer recip _ m listing' paid D hm hlisting' hexp hpaid =>
    obtain ⟨hen, -⟩ := hruns.of_single
    obtain rfl : n = m := Except.ok.inj (hn.symm.trans hm)
    obtain rfl : listing = listing' := Option.some.inj (hlisting.symm.trans hlisting')
    exact ⟨hen.1, hexp⟩
  | quiet hq => cases hq

/-- If no step gives a listed name back to its seller, then a purchase uses a
listing only if its seller `z` has owned the name in every state since the listing
was created. `tr` are the states since then, and `hlisted` says that the listing
bought under is the one created. -/
theorem listing_owner_constant (hcf : CollisionFree T.keccak256 T.baseNode L)
    {s₀ s₁ t t' : State T} {tr : List (State T)} {price : Balance} {expiresAt : Moment}
    {name : Bytes} {recipient : Option AccountId}
    (h₀ : ReachableBy T L (OnSuccess NoListedReturn) s₀)
    (hcreate : dispatch s₀ (.signed z) (.createListing price expiresAt) = .ok s₁)
    (hz : s₀.registrar.ownerToPrimaryName.get z = some n)
    (hpath : (chain T).Path (fun s i => Admissible L s i ∧ OnSuccess NoListedReturn s i) s₁ tr t)
    (hlisted : ∀ u ∈ tr, u.listings.get n = s₁.listings.get n)
    (hn : Marketplace.listedNode T name = .ok n) (hL : toAsciiLowercase name ∈ L)
    (hbuy : dispatch t o (.buyName name recipient) = .ok t') :
    ∀ u ∈ tr, Registry.ownerOf u n = some z := by
  -- the created listing
  have hlisting : s₁.listings.get n
      = some { seller := z, price := price, expiresAt := expiresAt } := by
    obtain ⟨who, m, hwho, -, hm, -, rfl⟩ := createListing_eq_ok hcreate
    cases hwho
    obtain rfl : n = m := Option.some.inj (hz.symm.trans hm)
    exact (StorageMap.get_insert _ _ _ _).trans (if_pos rfl)
  have hs₁ : ReachableBy T L (OnSuccess NoListedReturn) s₁ :=
    h₀.extrinsic hcreate (by simp [Call.labels]) fun _ => trivial
  have hlast : (view t).owner n = some z ∧ t.now < expiresAt :=
    buyName_seller hcf (ReachableBy.consistent hcf (hpath.reach hs₁)) hL hn
      ((hlisted t hpath.last_mem).trans hlisting) hbuy
  -- ownership and the running listing are carried back along the path
  have hall := Machine.Path.all_of_last
    (P := fun u => (view u).owner n = some z ∧ u.now < expiresAt) hs₁ hpath ?_ hlast
  · exact fun u hu => (view_owner_eq_some.mp (hall u hu).1).2
  rintro u (⟨o, call⟩ | ⟨now, number, hash, ledger⟩) hu ⟨hadm, hk⟩ hmem hmem' ⟨hown, hopen⟩
  · have hc : Consistent T L u := ReachableBy.consistent hcf hu
    have hstep : (chain T).step u (.extrinsic o call) = commit u (dispatch u o call) := rfl
    rw [hstep] at hmem' hown hopen
    rcases commit_cases u (dispatch u o call) with hfail | hok
    · rw [hfail] at hown hopen
      exact ⟨hown, hopen⟩
    · have hnow : u.now < expiresAt := by
        rwa [(dispatch_sound hcf hc hadm hok).now] at hopen
      exact ⟨seller_owner_before hcf hc hadm (hk.holds hok) hok ((hlisted u hmem).trans hlisting)
        ((hlisted _ hmem').trans hlisting) hnow hown, hnow⟩
  · exact ⟨hown, UInt64.lt_of_le_of_lt hadm hopen⟩

open Devnet in
theorem Devnet.afterListing_eq :
    dispatch afterRegistration (.signed (account 1)) (.createListing 5000 1000000)
      = .ok afterListing :=
  eq_ok_commit (by decide +kernel) afterRegistration

/-- Account 3 registers `bob`. -/
def Devnet.registersBob : Input Devnet.config :=
  .extrinsic (.signed (account 3)) (.register bob (.id (account 3)) none)

open Devnet in
/-- Account 2 buys `alice` after the registration of `bob`. -/
theorem listing_owner_constant_until_sale :
    (dispatch (apply afterListing registersBob) (.signed (account 2))
        (.buyName alice none)).isOk = true ∧
      ∀ u ∈ [afterListing, apply afterListing registersBob],
        Registry.ownerOf u (node alice) = some (account 1) := by
  have hbuy : (dispatch (apply afterListing registersBob) (.signed (account 2))
      (.buyName alice none)).isOk = true := by decide +kernel
  have hreach : ReachableBy config labels (OnSuccess NoListedReturn) afterRegistration :=
    reachableBy_after (by decide +kernel)
      ⟨fun _ => (by decide +kernel : ∀ n, topLevelNode config alice = .ok n →
        ReturnsUnlisted start (account 1) n), trivial⟩
  have hpath : (chain config).Path
      (fun s i => Admissible labels s i ∧ OnSuccess NoListedReturn s i) afterListing
      [afterListing, apply afterListing registersBob] (apply afterListing registersBob) :=
    path_step .refl ⟨by decide +kernel, fun _ => (by decide +kernel : ∀ n,
      topLevelNode config bob = .ok n → ReturnsUnlisted afterListing (account 3) n)⟩
  exact ⟨hbuy, listing_owner_constant collisionFree hreach afterListing_eq
    (by decide +kernel) hpath (by decide +kernel) (by decide +kernel) (by decide +kernel)
    (eq_ok_commit hbuy (apply afterListing registersBob))⟩

/-- Account 1 releases the listed `alice`. -/
def Devnet.afterRelease : State Devnet.config :=
  apply Devnet.afterListing (.extrinsic (.signed (Devnet.account 1)) .releaseName)

/-- Account 1 registers `alice` once more. -/
def Devnet.afterReturn : State Devnet.config :=
  apply Devnet.afterRelease (.extrinsic (.signed (Devnet.account 1))
    (.register Devnet.alice (.id (Devnet.account 1)) none))

open Devnet in
/-- The old listing sells the name although its seller had released it in between. -/
theorem released_name_sold :
    CollisionFree config.keccak256 config.baseNode labels ∧
      Reachable config labels afterRegistration ∧
      dispatch afterRegistration (.signed (account 1)) (.createListing 5000 1000000)
        = .ok afterListing ∧
      afterRegistration.registrar.ownerToPrimaryName.get (account 1) = some (node alice) ∧
      (chain config).Path (Admissible labels) afterListing
        [afterListing, afterRelease, afterReturn] afterReturn ∧
      (∀ u ∈ [afterListing, afterRelease, afterReturn],
        u.listings.get (node alice) = afterListing.listings.get (node alice)) ∧
      (dispatch afterReturn (.signed (account 2)) (.buyName alice none)).isOk = true ∧
      Registry.ownerOf afterRelease (node alice) = none := by
  have hrelease : (chain config).Path (Admissible labels) afterListing
      [afterListing, afterRelease] afterRelease := path_step .refl (by decide +kernel)
  have hreturn : (chain config).Path (Admissible labels) afterListing
      [afterListing, afterRelease, afterReturn] afterReturn :=
    path_step hrelease (by decide +kernel)
  exact ⟨collisionFree, afterRegistration_reachable, afterListing_eq,
    by decide +kernel, hreturn, by decide +kernel⟩

end PnsPallets
