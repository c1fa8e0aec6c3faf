import PnsPallets.Errors
import PnsPallets.InGrace

/-!
# One name per account

An account holds at most one name or subname (`holdings_le_one`), and the owner of
a live name that is not a pending gift answers to it (`live_name_is_primary`). Both
are read off the discipline of the holdings (`Reachable.oneName`): the six
extrinsics that hand out names check `OwnerToPrimaryName` and `AccountToSubnames`,
neither of which is exact, but together they decide that the receiving account is
free.

That discipline is about names that count as live in the pallets, whose test wraps.
For names that are live the results hold in runs of terms that fit, and fail near
the end of time (`two_names_held`, `live_name_off_primary`).
-/

namespace PnsPallets

open Frame Registry Registrar Holdings

variable {T : Config} {L : Set Bytes} {s : State T} {a : AccountId} {n : DomainHash}

/-! ## Counting what an account holds -/

/-- The name counts as held by `a`: a token of `a` other than the base node, which
passes the test `live`, and not pending as a gift to `a`. -/
def holdsName (live : DomainHash → Bool) (s : State T) (a : AccountId)
    (k : ClassId × DomainHash) (token : TokenInfo T) : Bool :=
  k.1 == classZero && k.2 != T.baseNode && token.owner == a && live k.2 &&
    (s.registrar.offeredNames.get k.2).all (·.recipient != a)

/-- The number of top-level names `a` holds that pass the test `live`. -/
def heldNames (live : DomainHash → Bool) (s : State T) (a : AccountId) : Nat :=
  s.nft.tokens.count (holdsName live s a)

/-- The number of active subnames delegated to `a`. -/
def heldSubnames (s : State T) (a : AccountId) : Nat :=
  s.registry.subnameRecords.count fun _ d => d.state == .active && d.target == a

theorem holdsName_view {k : ClassId × DomainHash} {token : TokenInfo T}
    (hk : s.nft.tokens.get k = some token) (h : holdsName (stillValid s) s a k token = true) :
    k = (classZero, k.2) ∧ (view s).Holds a k.2 := by
  obtain ⟨c, n⟩ := k
  simp only [holdsName, Bool.and_eq_true, beq_iff_eq, bne_iff_ne] at h
  obtain ⟨⟨⟨⟨rfl, hne⟩, hown⟩, hlive⟩, hgift⟩ := h
  refine ⟨rfl, ?_, view_live.mpr hlive, ?_⟩
  · rw [view_owner hne, NftStorage.ownerOf, hk]
    exact congrArg some hown
  · intro hg
    obtain ⟨offer, hoffer, hrecip⟩ := view_gift_eq_some.mp hg
    rw [hoffer] at hgift
    simp [hrecip] at hgift

theorem heldNames_le_one (h : OneName (view s)) : heldNames (stillValid s) s a ≤ 1 := by
  refine StorageMap.count_le_one fun k k' t t' hk hp hk' hp' => ?_
  obtain ⟨heq, hholds⟩ := holdsName_view hk hp
  obtain ⟨heq', hholds'⟩ := holdsName_view hk' hp'
  -- both names are the account's primary
  have hsame := (h.pointer a _ hholds).symm.trans (h.pointer a _ hholds')
  rw [heq, heq', Option.some.inj hsame]

theorem heldSubnames_le_one (h : OneName (view s)) : heldSubnames s a ≤ 1 := by
  refine StorageMap.count_le_one fun c c' d d' hd hp hd' hp' => ?_
  simp only [Bool.and_eq_true, beq_iff_eq] at hp hp'
  exact h.single a c c' (activeOf_eq_some.mpr ⟨d, hd, hp⟩)
    (activeOf_eq_some.mpr ⟨d', hd', hp'⟩)

/-- Counted by the test of the pallets, the names and subnames of an account are at
most one in every reachable state. -/
theorem countedHoldings_le_one (hcf : CollisionFree T.keccak256 T.baseNode L)
    (h : Reachable T L s) (a : AccountId) :
    heldNames (stillValid s) s a + heldSubnames s a ≤ 1 := by
  have hone := h.oneName hcf
  have hnames := heldNames_le_one (a := a) hone
  have hsubs := heldSubnames_le_one (a := a) hone
  -- an account that holds a name holds no subname
  have hapart : heldNames (stillValid s) s a = 0 ∨ heldSubnames s a = 0 := by
    rcases Nat.eq_zero_or_pos (heldNames (stillValid s) s a) with hzero | hpos
    · exact Or.inl hzero
    · right
      obtain ⟨k, token, hk, hp⟩ := StorageMap.exists_of_count_pos hpos
      obtain ⟨-, hholds⟩ := holdsName_view hk hp
      refine StorageMap.count_eq_zero fun c d hd => ?_
      rw [Bool.eq_false_iff]
      intro hp'
      simp only [Bool.and_eq_true, beq_iff_eq] at hp'
      exact hone.apart a k.2 c hholds (activeOf_eq_some.mpr ⟨d, hd, hp'⟩)
  omega

/-- Every account holds at most one name if all terms fit: the names it owns that
are live and not pending as gifts to it, and the subnames active for it, are at most
one together. -/
theorem holdings_le_one (hcf : CollisionFree T.keccak256 T.baseNode L)
    (h : ReachableBy T L (OnSuccess TermsFit) s) (a : AccountId) :
    heldNames (inGrace s) s a + heldSubnames s a ≤ 1 := by
  rw [h.inGrace_eq hcf]
  exact countedHoldings_le_one hcf h.reachable a

open Devnet in
/-- Account 1 registers `alice` and delegates `bob.alice` to account 2: each of the
two holds one name. -/
theorem holdings_le_one_after_delegation :
    heldNames (inGrace afterDelegation) afterDelegation (account 1) = 1 ∧
      heldSubnames afterDelegation (account 2) = 1 ∧
      ∀ a, heldNames (inGrace afterDelegation) afterDelegation a
        + heldSubnames afterDelegation a ≤ 1 :=
  ⟨by decide +kernel, by decide +kernel, holdings_le_one collisionFree afterDelegation_fits⟩

open Devnet in
/-- Near the end of time account 1 holds two names, and both are in their term. -/
theorem two_names_held :
    CollisionFree config.keccak256 config.baseNode labels ∧
      Reachable config labels (after overrunInputs) ∧
      heldNames (inGrace (after overrunInputs)) (after overrunInputs) (account 1) = 2 ∧
      ∀ name ∈ [alice, bob],
        Registry.ownerOf (after overrunInputs) (node name) = some (account 1) ∧
        ((after overrunInputs).registrar.registrarInfos.get (node name)).any
          (fun info => decide ((after overrunInputs).now < info.expire)) = true :=
  ⟨collisionFree, reachable_after (by decide +kernel), by decide +kernel, by decide +kernel⟩

/-! ## The owner's pointer -/

/-- The calls that find the name they act on by the caller's pointer and that the
owner of a live name needs. -/
def Call.isOwnerCall : Call T → Bool
  | .renew | .transfer _ | .releaseName | .createListing _ _ => true
  | _ => false

/-- With a pointer in place the owner's calls find it. -/
theorem ownerCall_found {call : Call T} (hcall : call.isOwnerCall = true)
    (hptr : s.registrar.ownerToPrimaryName.get a = some n) :
    Found (dispatch s (.signed a) call) := by
  have hname : canonicalNameOf s a = .ok n := okOr_eq_ok.mpr hptr
  have hname' : Marketplace.canonicalNameOf s a = .ok n := okOr_eq_ok.mpr hptr
  have hfound : Found (canonicalNameOf s a) := hname ▸ .ok n
  have hfound' : Found (Marketplace.canonicalNameOf s a) := hname' ▸ .ok n
  cases call with
  | renew =>
    refine .bind (.ok _) fun who hwho => ?_
    cases hwho
    refine .bind (.ensure rfl) fun _ _ => ?_
    refine .bind hfound fun n _ => ?_
    refine .bind (.okOr rfl) fun info _ => ?_
    refine .bind (.ensure rfl) fun _ _ => ?_
    refine .bind (.okOr rfl) fun fee _ => ?_
    refine .bind (burnFee_plain _ _ _).found fun s₁ _ => ?_
    refine .bind (.okOr rfl) fun expire _ => ?_
    exact .ok _
  | transfer dest =>
    refine .bind (.ok _) fun who hwho => ?_
    cases hwho
    refine .bind (lookup_plain dest).found fun b _ => ?_
    refine .bind (.ensure rfl) fun _ _ => ?_
    refine .bind hfound fun n _ => ?_
    refine .bind (.ensure rfl) fun _ _ => ?_
    refine .bind (dropStaleCanonicalName_found _ _) fun s₁ _ => ?_
    refine .bind (.ensure rfl) fun _ _ => ?_
    refine .bind (doTransfer_plain _ _ _ _).found fun s₂ _ => ?_
    exact .ok _
  | releaseName =>
    refine .bind (.ok _) fun who hwho => ?_
    cases hwho
    refine .bind hfound fun n _ => ?_
    exact (doBurn_plain _ _ _).found
  | createListing price expiresAt =>
    refine .bind (.ok _) fun who hwho => ?_
    cases hwho
    refine .bind (.ensure rfl) fun _ _ => ?_
    refine .bind hfound' fun n _ => ?_
    refine .bind (.ensure rfl) fun _ _ => ?_
    exact .ok _
  | _ => cases hcall

/-- The owner of a name that counts as live and is not a pending gift answers to it. -/
theorem Reachable.primary_eq (hcf : CollisionFree T.keccak256 T.baseNode L)
    (h : Reachable T L s) (hne : n ≠ T.baseNode) (hown : Registry.ownerOf s n = some a)
    (hlive : stillValid s n = true) (hgift : s.registrar.offeredNames.get n = none) :
    s.registrar.ownerToPrimaryName.get a = some n := by
  have hholds : (view s).Holds a n := by
    refine ⟨(view_owner hne).trans hown, view_live.mpr hlive, ?_⟩
    rw [view_gift_eq_none hgift]
    simp
  exact (h.oneName hcf).pointer a n hholds

/-- If all terms fit, the owner of a live name that is not a pending gift answers to
it, and so its renewals, transfers, releases and listings of the name never fail for
want of a canonical name. -/
theorem live_name_is_primary (hcf : CollisionFree T.keccak256 T.baseNode L)
    (h : ReachableBy T L (OnSuccess TermsFit) s) {info : RegistrarInfo} (hne : n ≠ T.baseNode)
    (hown : Registry.ownerOf s n = some a) (hinfo : s.registrar.registrarInfos.get n = some info)
    (hlive : s.now.toNat ≤ info.expire.toNat + T.gracePeriod.toNat)
    (hgift : s.registrar.offeredNames.get n = none) :
    s.registrar.ownerToPrimaryName.get a = some n ∧
      ∀ call, call.isOwnerCall = true → ∀ e, dispatch s (.signed a) call = .error e →
        e ≠ .registrar .noCanonicalName ∧ e ≠ .marketplace .noCanonicalName := by
  have hvalid := h.stillValid_of_live hcf hinfo hlive
  have hptr := h.reachable.primary_eq hcf hne hown hvalid hgift
  refine ⟨hptr, fun call hcall e he => ?_⟩
  have hfound := ownerCall_found hcall hptr e he
  constructor
  · rintro rfl
    cases hfound
  · rintro rfl
    cases hfound

open Devnet in
theorem live_name_is_primary_after_sale :
    Registry.ownerOf afterSale (node alice) = some (account 1) ∧
      afterSale.registrar.ownerToPrimaryName.get (account 1) = some (node alice) ∧
      ∀ e, dispatch afterSale (.signed (account 1)) .renew = .error e →
        e ≠ .registrar .noCanonicalName := by
  have hown : Registry.ownerOf afterSale (node alice) = some (account 1) := by decide +kernel
  have hlive : ∀ info ∈ afterSale.registrar.registrarInfos.get (node alice),
      afterSale.now.toNat ≤ info.expire.toNat + config.gracePeriod.toNat := by decide +kernel
  have hsome : (afterSale.registrar.registrarInfos.get (node alice)).isSome = true := by
    decide +kernel
  obtain ⟨info, hinfo⟩ := Option.isSome_iff_exists.mp hsome
  obtain ⟨hptr, hcalls⟩ := live_name_is_primary collisionFree afterSale_fits
    (by decide +kernel) hown hinfo (hlive info hinfo) (by decide +kernel)
  exact ⟨hown, hptr, fun e he => (hcalls _ rfl e he).1⟩

open Devnet in
/-- Near the end of time account 1 owns `alice`, which is in its term and no gift, and
answers to `bob`: its calls are about `bob`. -/
theorem live_name_off_primary :
    CollisionFree config.keccak256 config.baseNode labels ∧
      Reachable config labels (after overrunInputs) ∧ node alice ≠ config.baseNode ∧
      Registry.ownerOf (after overrunInputs) (node alice) = some (account 1) ∧
      ((after overrunInputs).registrar.registrarInfos.get (node alice)).any
        (fun info => decide ((after overrunInputs).now < info.expire)) = true ∧
      (after overrunInputs).registrar.offeredNames.get (node alice) = none ∧
      (after overrunInputs).registrar.ownerToPrimaryName.get (account 1) = some (node bob) ∧
      node bob ≠ node alice :=
  ⟨collisionFree, reachable_after (by decide +kernel), by decide +kernel⟩

end PnsPallets
