import PnsPallets.Registry.Consistency

/-!
# The registry on any storage

What holds of the registry's operations without any assumption on the state they
start from:

- they read and write tokens, the registry's maps and the records alone, so they
  commute with a change of everything else (`clearSubnames_over`, `mintFinish_over`);
- tokens other than the one a mint is for keep their owner or are burned
  (`Shrinks`, `mintSubname_ownerOf`).
-/

namespace PnsPallets

open Frame Registry

variable {T : Config} {nft nft₁ nft' : NftStorage T} {s s' e : State T} {a dest : AccountId}
  {n p c : DomainHash}

/-! ## Tables and environment -/

/-- The tokens, the registry and the records of `s`, and everything else of `e`. -/
def State.over (s e : State T) : State T :=
  { e with nft := s.nft, registry := s.registry, resolvers := s.resolvers }

theorem burnLegacySubname_over (s e : State T) (c : DomainHash) :
    burnLegacySubname (s.over e) c = (burnLegacySubname s c).over e := by
  have htoken : (s.over e).nft.tokens.get (classZero, c) = s.nft.tokens.get (classZero, c) := rfl
  unfold burnLegacySubname
  rw [htoken]
  cases s.nft.tokens.get (classZero, c) with
  | none => rfl
  | some info => rfl

theorem clearChild_over (s e : State T) (c : DomainHash) :
    clearChild (s.over e) c = (clearChild s c).over e :=
  burnLegacySubname_over
    { s with
      resolvers := Resolvers.clearAllRecords s.resolvers c
      registry := dropDelegation
        { s.registry with runtimeOrigin := s.registry.runtimeOrigin.remove c } c } e c

theorem clearSubnames_over (s e : State T) (n : DomainHash) :
    clearSubnames (s.over e) n = (clearSubnames s n).over e := by
  have hfold : ∀ (children : List DomainHash) (s : State T),
      children.foldl clearChild (s.over e) = (children.foldl clearChild s).over e := by
    intro children
    induction children with
    | nil => exact fun s => rfl
    | cons c children ih =>
      intro s
      rw [List.foldl_cons, clearChild_over, ih, List.foldl_cons]
  -- the loop runs over the same children, as they are read off the tables
  have hchildren : ((s.over e).registry.subNames.iterPrefix n).map Prod.fst
      = (s.registry.subNames.iterPrefix n).map Prod.fst := rfl
  simp only [clearSubnames, hchildren, hfold]
  rfl

/-- Clearing the subnames of a name leaves everything else alone. -/
theorem clearSubnames_frame (s : State T) (n : DomainHash) :
    clearSubnames s n = (clearSubnames s n).over s :=
  clearSubnames_over s s n

/-- A new name joins the hierarchy in the same way in every environment in which it does. -/
theorem joinHierarchy_over {capacity : UInt32} {s₂ : State T}
    (h : joinHierarchy s p n capacity = .ok s')
    (h₂ : joinHierarchy (s.over e) p n capacity = .ok s₂) : s₂ = s'.over e := by
  have horigin : (s.over e).registry.runtimeOrigin.get p = s.registry.runtimeOrigin.get p := rfl
  unfold joinHierarchy at h h₂
  rw [horigin] at h₂
  cases hp : s.registry.runtimeOrigin.get p with
  | none =>
    simp only [hp, bind_eq_ok, pure_eq_ok] at h h₂
    obtain ⟨nft, hadd, rfl⟩ := h
    obtain ⟨nft₂, hadd₂, rfl⟩ := h₂
    obtain rfl : nft = nft₂ := Except.ok.inj (hadd.symm.trans hadd₂)
    rfl
  | some origin =>
    cases origin with
    | root =>
      simp only [hp, bind_eq_ok, pure_eq_ok] at h h₂
      obtain ⟨nft, hadd, rfl⟩ := h
      obtain ⟨nft₂, hadd₂, rfl⟩ := h₂
      obtain rfl : nft = nft₂ := Except.ok.inj (hadd.symm.trans hadd₂)
      rfl
    | runtimeOrigin root =>
      simp only [hp, bind_eq_ok, pure_eq_ok] at h h₂
      obtain ⟨-, -, nft₁, hroot, nft, hadd, rfl⟩ := h
      obtain ⟨-, -, nft₁₂, hroot₂, nft₂, hadd₂, rfl⟩ := h₂
      obtain rfl : nft₁ = nft₁₂ := Except.ok.inj (hroot.symm.trans hroot₂)
      obtain rfl : nft = nft₂ := Except.ok.inj (hadd.symm.trans hadd₂)
      rfl

theorem addChildren_ownerOf (h : addChildren nft p = .ok nft') : nft'.ownerOf = nft.ownerOf := by
  unfold addChildren at h
  simp only [bind_eq_ok, okOr_eq_ok, pure_eq_ok] at h
  obtain ⟨info, hinfo, rfl⟩ := h
  exact setChildren_ownerOf hinfo

theorem addChildrenWithCheck_ownerOf {capacity : UInt32}
    (h : addChildrenWithCheck nft p capacity = .ok nft') : nft'.ownerOf = nft.ownerOf := by
  unfold addChildrenWithCheck at h
  simp only [bind_eq_ok, okOr_eq_ok, ensure_eq_ok, pure_eq_ok] at h
  obtain ⟨info, hinfo, -, -, rfl⟩ := h
  exact setChildren_ownerOf hinfo

/-- The counters a new name adds to are no matter of owners or records. -/
theorem joinHierarchy_keeps {capacity : UInt32} (h : joinHierarchy s p n capacity = .ok s') :
    s'.nft.ownerOf = s.nft.ownerOf ∧ s'.resolvers = s.resolvers := by
  unfold joinHierarchy at h
  split at h
  · simp only [bind_eq_ok, pure_eq_ok] at h
    obtain ⟨-, -, nft₁, hadd, nft₂, hadd', rfl⟩ := h
    exact ⟨(addChildren_ownerOf hadd').trans (addChildrenWithCheck_ownerOf hadd), rfl⟩
  · simp only [bind_eq_ok, pure_eq_ok] at h
    obtain ⟨nft₁, hadd, rfl⟩ := h
    exact ⟨addChildrenWithCheck_ownerOf hadd, rfl⟩
  · simp only [bind_eq_ok, pure_eq_ok] at h
    obtain ⟨nft₁, hadd, rfl⟩ := h
    exact ⟨addChildren_ownerOf hadd, rfl⟩

/-- The plan for a name with this owner. -/
def Registry.MintPlan.of (s : State T) : Option AccountId → MintPlan T
  | some prevOwner => .reissue s prevOwner
  | none => .fresh s

/-- A mint is its payment, with the previous owner, and the rest. -/
theorem mintSubname_eq_ok {official : AccountId} {metadata : Bytes} {capacity : UInt32}
    {pay : State T → Option AccountId → DispatchResult (State T)}
    (h : mintSubname s official metadata p n dest capacity pay = .ok s') :
    ∃ s₁, pay s (s.nft.ownerOf n) = .ok s₁ ∧
      mintFinish p n dest metadata capacity (.of s₁ (s.nft.ownerOf n)) = .ok s' := by
  unfold mintSubname mintPrepare at h
  simp only [bind_eq_ok, okOr_eq_ok, ensure_eq_ok] at h
  obtain ⟨plan, ⟨_, -, -, -, -, -, hplan⟩, hfinish⟩ := h
  unfold NftStorage.ownerOf
  cases htoken : s.nft.tokens.get (classZero, n) with
  | none =>
    simp only [htoken, bind_eq_ok, pure_eq_ok] at hplan
    obtain ⟨s₁, hs₁, rfl⟩ := hplan
    exact ⟨s₁, hs₁, hfinish⟩
  | some info =>
    simp only [htoken, bind_eq_ok, pure_eq_ok] at hplan
    obtain ⟨-, -, s₁, hs₁, rfl⟩ := hplan
    exact ⟨s₁, hs₁, hfinish⟩

/-- Minting does the same to the tables in every environment in which it succeeds. -/
theorem mintFinish_over {metadata : Bytes} {capacity : UInt32} {prev : Option AccountId}
    {s₂ : State T} (h : mintFinish p n dest metadata capacity (.of s prev) = .ok s')
    (h₂ : mintFinish p n dest metadata capacity (.of (s.over e) prev) = .ok s₂) :
    s₂ = s'.over e := by
  cases prev with
  | none =>
    simp only [MintPlan.of, mintFinish, bind_eq_ok] at h h₂
    obtain ⟨nft, hmint, hjoin⟩ := h
    obtain ⟨nft₂, hmint₂, hjoin₂⟩ := h₂
    obtain rfl : nft = nft₂ := Except.ok.inj (hmint.symm.trans hmint₂)
    exact joinHierarchy_over hjoin hjoin₂
  | some a =>
    simp only [MintPlan.of, mintFinish, bind_eq_ok, pure_eq_ok, clearSubnames_over] at h h₂
    obtain ⟨nft, hmove, rfl⟩ := h
    obtain ⟨nft₂, hmove₂, rfl⟩ := h₂
    obtain rfl : nft = nft₂ := Except.ok.inj (hmove.symm.trans hmove₂)
    rfl

/-- Minting leaves everything else alone. -/
theorem mintFinish_frame {metadata : Bytes} {capacity : UInt32} {prev : Option AccountId}
    (h : mintFinish p n dest metadata capacity (.of s prev) = .ok s') : s' = s'.over s :=
  mintFinish_over h h

/-- Burning touches registration records beside the tables, and nothing else. -/
theorem doBurn_frame (h : doBurn s a n = .ok s') :
    ∃ infos, s' = { s'.over s with registrar.registrarInfos := infos } := by
  unfold doBurn burnPrepare at h
  simp only [bind_eq_ok, pure_eq_ok] at h
  obtain ⟨_, ⟨info, -, -, -, origin, -, s₁, hleave, rfl⟩, nft, -, rfl⟩ := h
  cases origin with
  | runtimeOrigin p =>
    simp only [leaveHierarchy, bind_eq_ok, pure_eq_ok] at hleave
    obtain ⟨-, -, nft₁, -, rfl⟩ := hleave
    exact ⟨s.registrar.registrarInfos, rfl⟩
  | root =>
    cases hleave
    refine ⟨s.registrar.registrarInfos.remove n, ?_⟩
    rw [clearSubnames_frame s n]
    rfl

/-- A hand-over touches the tables alone. -/
theorem doTransfer_frame (h : doTransfer s a dest n = .ok s') : s' = s'.over s := by
  unfold doTransfer at h
  simp only [bind_eq_ok, pure_eq_ok] at h
  obtain ⟨info, -, -, -, origin, -, s₁, hrelease, nft, -, v₁, -, v₂, -, rfl⟩ := h
  cases origin with
  | runtimeOrigin p =>
    simp only [releaseHierarchy, bind_eq_ok, pure_eq_ok] at hrelease
    obtain ⟨-, -, -, -, rfl⟩ := hrelease
    rfl
  | root =>
    simp only [releaseHierarchy, bind_eq_ok, pure_eq_ok] at hrelease
    obtain ⟨-, -, rfl⟩ := hrelease
    rw [clearSubnames_frame s n]
    rfl

theorem forgetHolder_frame (s : State T) (c : DomainHash) (d : SubnameRecord) :
    forgetHolder s c d = (forgetHolder s c d).over s := by
  unfold forgetHolder
  cases d.state <;> rfl

/-- Revoking a subname touches the tables alone. -/
theorem revokeSubname_frame (h : revokeSubname s p c = .ok s') : s' = s'.over s := by
  unfold revokeSubname at h
  simp only [bind_eq_ok, pure_eq_ok] at h
  obtain ⟨d, -, -, -, nft, -, rfl⟩ := h
  rw [forgetHolder_frame _ c d]
  rfl

/-- Releasing a subname touches the tables alone. -/
theorem releaseSubname_frame (h : releaseSubname s c a = .ok (s', p)) : s' = s'.over s := by
  unfold releaseSubname at h
  simp only [bind_eq_ok, pure_eq_ok, Prod.mk.injEq] at h
  obtain ⟨d, -, -, -, -, -, nft, -, rfl, -⟩ := h
  rfl

/-- A mint clears the records of a name that had an owner, and touches no record of one that
had none. -/
theorem mintFinish_records {metadata : Bytes} {capacity : UInt32} {prev : Option AccountId}
    (h : mintFinish p n dest metadata capacity (.of s prev) = .ok s') (rt : RecordType) :
    s'.resolvers.records.get (n, rt)
      = if prev = none then s.resolvers.records.get (n, rt) else none := by
  cases prev with
  | none =>
    simp only [MintPlan.of, mintFinish, bind_eq_ok] at h
    obtain ⟨nft, -, hjoin⟩ := h
    rw [(joinHierarchy_keeps hjoin).2, if_pos rfl]
  | some a =>
    simp only [MintPlan.of, mintFinish, bind_eq_ok, pure_eq_ok] at h
    obtain ⟨nft, -, rfl⟩ := h
    simp

/-! ## Owners -/

/-- Tokens keep their owners or are burned. -/
def Shrinks (nft nft' : NftStorage T) : Prop :=
  ∀ m, nft'.ownerOf m = nft.ownerOf m ∨ nft'.ownerOf m = none

theorem Shrinks.of_eq (h : nft'.ownerOf = nft.ownerOf) : Shrinks nft nft' :=
  fun m => Or.inl (congrFun h m)

theorem Shrinks.trans (h : Shrinks nft nft₁) (h' : Shrinks nft₁ nft') : Shrinks nft nft' := by
  intro m
  rcases h' m with heq | hnone
  · rw [heq]
    exact h m
  · exact Or.inr hnone

theorem burn_shrinks (h : Nft.burn nft a (classZero, n) = .ok nft') : Shrinks nft nft' := by
  intro m
  rw [burn_ownerOf h]
  split
  · exact Or.inr rfl
  · exact Or.inl rfl

theorem burnLegacySubname_shrinks (s : State T) (c : DomainHash) :
    Shrinks s.nft (burnLegacySubname s c).nft := by
  unfold burnLegacySubname
  split
  · exact .of_eq rfl
  · next info _ =>
    exact commit_keeps (.of_eq rfl) fun nft' hok => burn_shrinks hok

theorem clearSubnames_shrinks (s : State T) (n : DomainHash) :
    Shrinks s.nft (clearSubnames s n).nft := by
  have hfold : ∀ (children : List DomainHash) (s : State T),
      Shrinks s.nft (children.foldl clearChild s).nft := by
    intro children
    induction children with
    | nil => exact fun s => .of_eq rfl
    | cons c children ih =>
      intro s
      have hround : Shrinks s.nft (clearChild s c).nft := burnLegacySubname_shrinks _ c
      exact hround.trans (ih _)
  exact (hfold _ s).trans (.of_eq (resetChildren_ownerOf _ n))

theorem subChildren_shrinks (h : subChildren nft p = .ok nft') : Shrinks nft nft' := by
  obtain ⟨info, hinfo, -, rfl⟩ := subChildren_eq h
  exact .of_eq (setChildren_ownerOf hinfo)

/-- Revoking a subname changes the child counter of its parent and no owner. -/
theorem revokeSubname_shrinks (h : revokeSubname s p c = .ok s') : Shrinks s.nft s'.nft := by
  unfold revokeSubname at h
  simp only [bind_eq_ok, pure_eq_ok] at h
  obtain ⟨d, -, -, -, nft, hsub, rfl⟩ := h
  have hnft : ∀ t : State T, (forgetHolder t c d).nft = t.nft := by
    intro t
    unfold forgetHolder
    cases d.state <;> rfl
  rw [hnft] at hsub
  exact subChildren_shrinks hsub

theorem doBurn_shrinks (h : doBurn s a n = .ok s') : Shrinks s.nft s'.nft := by
  unfold doBurn burnPrepare at h
  simp only [bind_eq_ok, pure_eq_ok] at h
  obtain ⟨_, ⟨info, -, -, -, origin, -, s₁, hleave, rfl⟩, nft, hburn, rfl⟩ := h
  refine Shrinks.trans ?_ (burn_shrinks hburn)
  cases origin with
  | runtimeOrigin p =>
    simp only [leaveHierarchy, bind_eq_ok, pure_eq_ok] at hleave
    obtain ⟨-, -, nft₁, hsub, rfl⟩ := hleave
    exact subChildren_shrinks hsub
  | root =>
    cases hleave
    exact clearSubnames_shrinks s n

/-- A mint gives the name to `dest` and no other name to anyone. -/
theorem mintSubname_ownerOf {official : AccountId} {metadata : Bytes} {capacity : UInt32}
    {pay : State T → Option AccountId → DispatchResult (State T)}
    (hpay : ∀ prev s', pay s prev = .ok s' → s'.nft = s.nft)
    (h : mintSubname s official metadata p n dest capacity pay = .ok s') :
    s'.nft.ownerOf n = some dest ∧
      ∀ m, m ≠ n → s'.nft.ownerOf m = s.nft.ownerOf m ∨ s'.nft.ownerOf m = none := by
  obtain ⟨s₁, hs₁, hfinish⟩ := mintSubname_eq_ok h
  have hkeep := hpay _ _ hs₁
  cases hprev : s.nft.ownerOf n with
  | some prev =>
    simp only [hprev, MintPlan.of, mintFinish, bind_eq_ok, pure_eq_ok] at hfinish
    obtain ⟨nft, hmove, rfl⟩ := hfinish
    refine ⟨(transfer_ownerOf hmove n).trans (if_pos rfl), fun m hm => ?_⟩
    have hclear := clearSubnames_shrinks s₁ n m
    rw [hkeep] at hclear
    show nft.ownerOf m = _ ∨ nft.ownerOf m = none
    rw [transfer_ownerOf hmove, if_neg hm]
    exact hclear
  | none =>
    simp only [hprev, MintPlan.of, mintFinish, bind_eq_ok] at hfinish
    obtain ⟨nft, hmint, hjoin⟩ := hfinish
    rw [hkeep] at hmint
    have hown : s'.nft.ownerOf = nft.ownerOf := (joinHierarchy_keeps hjoin).1
    rw [hown]
    refine ⟨(mint_ownerOf hmint n).trans (if_pos rfl), fun m hm => Or.inl ?_⟩
    exact (mint_ownerOf hmint m).trans (if_neg hm)

end PnsPallets
