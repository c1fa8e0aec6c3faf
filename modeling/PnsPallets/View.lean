import PnsPallets.Holdings.Operations
import PnsPallets.Names.Grammar
import PnsPallets.Registrar.Registration

/-!
# The chain state as holdings

`view` reads the holdings of the abstract model off the storage of the pallets: a
name's owner and term, the primary pointers, the pending gifts, the holders of
active subnames and the SS58 anchors. The base node belongs to no holder.

For each registry operation this module says what it does to the view, and that a
storage check of the code (`still_valid`, `has_active_subname`) decides the guard
of the abstract operation.
-/

namespace PnsPallets

open Frame Registry Registrar Holdings

variable {T : Config} {L : Set Bytes} {s s' : State T} {a b : AccountId} {n c : DomainHash}

/-- The holder of a subname, if its delegation is active. -/
def RegistryStorage.activeOf (r : RegistryStorage) (c : DomainHash) : Option AccountId :=
  match r.subnameRecords.get c with
  | some d => if d.state = .active then some d.target else none
  | none => none

/-- The holdings stored on chain. -/
def view (s : State T) : Book AccountId DomainHash Nat Bytes where
  now := s.now.toNat
  owner n := if n = T.baseNode then none else s.nft.ownerOf n
  expiry n := (s.registrar.registrarInfos.get n).map fun info => (graceEnd T info).toNat
  primary a := s.registrar.ownerToPrimaryName.get a
  gift n := (s.registrar.offeredNames.get n).map (·.recipient)
  active c := s.registry.activeOf c
  anchor n := Resolvers.anchorOf s.resolvers n

/-! ## Guards -/

/-- `still_valid` decides whether a name is within its term. -/
theorem view_live : (view s).Live n ↔ stillValid s n = true := by
  rw [stillValid_iff]
  constructor
  · rintro ⟨e, he, hle⟩
    obtain ⟨info, hinfo, rfl⟩ := Option.map_eq_some_iff.mp he
    exact ⟨info, hinfo, hle⟩
  · rintro ⟨info, hinfo, hle⟩
    exact ⟨_, Option.map_eq_some_iff.mpr ⟨info, hinfo, rfl⟩, hle⟩

theorem activeOf_eq_some {r : RegistryStorage} :
    r.activeOf c = some a ↔
      ∃ d, r.subnameRecords.get c = some d ∧ d.state = .active ∧ d.target = a := by
  unfold RegistryStorage.activeOf
  cases r.subnameRecords.get c with
  | none => simp
  | some d => simp

/-- The account holds no canonical name and nothing in `AccountToSubnames`: what
every call checks before it gives a name to an account. -/
structure Unnamed (s : State T) (a : AccountId) : Prop where
  pointer : ∀ m, s.registrar.ownerToPrimaryName.get a = some m → stillValid s m = false
  held : ∀ m, s.registry.accountToSubnames.get (a, m) = none

theorem Unnamed.free (h : Unnamed s a) (hi : Indexed T L s.registry) : (view s).Free a := by
  constructor
  · intro m hm hlive
    have hfalse := h.pointer m hm
    rw [view_live.mp hlive] at hfalse
    cases hfalse
  · intro c hc
    obtain ⟨d, hd, hstate, rfl⟩ := activeOf_eq_some.mp hc
    have hsome := hi.active_of c d hd hstate
    rw [h.held] at hsome
    cases hsome

theorem hasActiveSubname_eq_false :
    hasActiveSubname s a = false ↔ ∀ m, s.registry.accountToSubnames.get (a, m) = none := by
  rw [hasActiveSubname, Bool.not_eq_false', List.isEmpty_iff]
  exact StorageMap.iterPrefix_eq_nil

/-- `has_valid_canonical_name` says that the pointer is not stale. -/
theorem hasValidCanonicalName_eq_false :
    hasValidCanonicalName s a = false ↔
      ∀ m, s.registrar.ownerToPrimaryName.get a = some m → stillValid s m = false := by
  unfold hasValidCanonicalName
  cases s.registrar.ownerToPrimaryName.get a with
  | none => simp
  | some m => simp

/-- Passing the "no valid canonical name" check removes a stale pointer. -/
theorem dropStaleCanonicalName_eq (h : dropStaleCanonicalName s a = .ok s') :
    (∀ m, s.registrar.ownerToPrimaryName.get a = some m → stillValid s m = false) ∧
    ∃ primary : StorageMap AccountId DomainHash,
      (∀ z, primary.get z
        = if z = a then none else s.registrar.ownerToPrimaryName.get z) ∧
      s' = { s with registrar.ownerToPrimaryName := primary } := by
  unfold dropStaleCanonicalName at h
  cases hptr : s.registrar.ownerToPrimaryName.get a with
  | none =>
    rw [hptr] at h
    cases h
    refine ⟨by simp, s.registrar.ownerToPrimaryName, fun z => ?_, rfl⟩
    split
    · next hz => rw [hz, hptr]
    · rfl
  | some m =>
    rw [hptr] at h
    cases hvalid : stillValid s m with
    | true => simp [hvalid] at h
    | false =>
      simp only [hvalid, Bool.false_eq_true, if_false, Except.ok.injEq] at h
      subst h
      refine ⟨?_, _, StorageMap.get_remove _ _, rfl⟩
      rintro m' ⟨⟩
      exact hvalid

/-- A minted name is nobody's subname. -/
theorem Consistent.view_active_top (hcf : CollisionFree T.keccak256 T.baseNode L)
    (hc : Consistent T L s) (htop : TopLevel T L n) : (view s).active n = none := by
  cases hact : s.registry.activeOf n with
  | none => exact hact
  | some a =>
    obtain ⟨d, hd, -, -⟩ := activeOf_eq_some.mp hact
    exact absurd htop ((hc.indexed.named n d hd).not_topLevel hcf)

theorem Consistent.view_unowned (hcf : CollisionFree T.keccak256 T.baseNode L)
    (hc : Consistent T L s) (n : DomainHash) :
    (view s).Unowned (childOf s.registry n) := by
  intro c hchild
  show (if c = T.baseNode then none else s.nft.ownerOf c) = none
  rw [hc.child_no_token hcf hchild, ite_self]

theorem view_owner (hne : n ≠ T.baseNode) : (view s).owner n = s.nft.ownerOf n := if_neg hne

theorem view_owner_eq_some :
    (view s).owner n = some a ↔ n ≠ T.baseNode ∧ s.nft.ownerOf n = some a := by
  show (if n = T.baseNode then none else s.nft.ownerOf n) = some a ↔ _
  split
  · next hn => simp [hn]
  · next hn => simp [hn]

theorem view_gift_eq_some :
    (view s).gift n = some a ↔
      ∃ offer, s.registrar.offeredNames.get n = some offer ∧ offer.recipient = a :=
  Option.map_eq_some_iff

theorem view_gift_eq_none (h : s.registrar.offeredNames.get n = none) :
    (view s).gift n = none :=
  Option.map_eq_none_iff.mpr h

/-! ## Effects -/

/-- A token that changes hands changes one owner of the view. -/
theorem view_owner_update {nft : NftStorage T} {v : Option AccountId} (hne : n ≠ T.baseNode)
    (hown : ∀ m, nft.ownerOf m = if m = n then v else s.nft.ownerOf m) :
    (fun m => if m = T.baseNode then none else nft.ownerOf m)
      = Function.update (view s).owner n v := by
  funext m
  rw [hown, Function.update_apply]
  by_cases hm : m = n
  · simp [hm, hne]
  · simp only [if_neg hm]
    rfl

theorem view_setPrimary (s : State T) (primary : StorageMap AccountId DomainHash) :
    view { s with registrar.ownerToPrimaryName := primary }
      = { view s with primary := primary.get } := rfl

theorem activeOf_of_records {r r' : RegistryStorage} {D : DomainHash → Bool}
    (h : ∀ c, r'.subnameRecords.get c = if D c then none else r.subnameRecords.get c)
    (c : DomainHash) : r'.activeOf c = if D c then none else r.activeOf c := by
  unfold RegistryStorage.activeOf
  rw [h]
  cases D c <;> rfl

theorem Cleared.anchorOf (hcl : Cleared n s s') (k : DomainHash) :
    Resolvers.anchorOf s'.resolvers k
      = if childOf s.registry n k then none else Resolvers.anchorOf s.resolvers k := by
  unfold Resolvers.anchorOf
  rw [hcl.records]
  split <;> rfl

/-- Subnames go, and with them their anchors; nothing else of the view changes. -/
theorem view_eq_dropSubs {D : DomainHash → Bool} (hnow : s'.now = s.now)
    (hown : s'.nft.ownerOf = s.nft.ownerOf) (hregistrar : s'.registrar = s.registrar)
    (hactive : ∀ c, s'.registry.activeOf c = if D c then none else s.registry.activeOf c)
    (hanchor : ∀ k, Resolvers.anchorOf s'.resolvers k
      = if D k then none else Resolvers.anchorOf s.resolvers k) :
    view s' = (view s).dropSubs D := by
  ext1
  · exact congrArg UInt64.toNat hnow
  · funext m
    show (if m = T.baseNode then none else s'.nft.ownerOf m) = _
    rw [hown]
    rfl
  · funext m
    show (s'.registrar.registrarInfos.get m).map _ = _
    rw [hregistrar]
    rfl
  · funext x
    show s'.registrar.ownerToPrimaryName.get x = _
    rw [hregistrar]
    rfl
  · funext m
    show (s'.registrar.offeredNames.get m).map _ = _
    rw [hregistrar]
    rfl
  · exact funext hactive
  · exact funext hanchor

/-- Clearing the subnames of a name drops its children from the view. -/
theorem Cleared.view_eq (hcl : Cleared n s s') :
    view s' = (view s).dropSubs (childOf s.registry n) := by
  have hnow : s'.now = s.now := by rw [hcl.frame]
  exact view_eq_dropSubs hnow hcl.ownerOf hcl.registrar
    (activeOf_of_records hcl.forgets.subnameRecords) hcl.anchorOf

/-- Burning a name vacates it; the owner, its pointers and gifts aside. -/
theorem view_doBurn (hcf : CollisionFree T.keccak256 T.baseNode L) (hc : Consistent T L s)
    (h : doBurn s a n = .ok s') :
    (Op.burn n a (childOf s.registry n)).Enabled (view s) ∧
      view s' = (view s).vacate n (childOf s.registry n) := by
  obtain ⟨hne, hown, s₁, nft, hcl, hburn, rfl⟩ := doBurn_eq hcf hc h
  have htop : TopLevel T L n := hc.hierarchy.top n (by rw [hown]; rfl) hne
  refine ⟨⟨?_, hc.view_active_top hcf htop, hc.view_unowned hcf n⟩, ?_⟩
  · rw [view_owner hne, hown]
  · have hview := hcl.view_eq
    ext1
    · exact (congrArg Book.now hview :)
    · refine view_owner_update hne fun m => ?_
      rw [burn_ownerOf hburn, hcl.ownerOf]
    · show (fun m => ((s₁.registrar.registrarInfos.remove n).get m).map _) = _
      rw [hcl.registrar]
      exact StorageMap.map_get_remove _ _ n
    · exact (congrArg Book.primary hview :)
    · exact (congrArg Book.gift hview :)
    · exact (congrArg Book.active hview :)
    · funext k
      show Resolvers.anchorOf (Resolvers.clearAllRecords s₁.resolvers n) k
        = Function.update ((view s).dropSubs (childOf s.registry n)).anchor n none k
      rw [Resolvers.clearAllRecords_anchorOf, hcl.anchorOf, Function.update_apply]
      rfl

/-- Handing a name over gives it and its anchor to the new owner. -/
theorem view_doTransfer (hcf : CollisionFree T.keccak256 T.baseNode L)
    (hc : Consistent T L s) (h : doTransfer s a b n = .ok s') :
    ((view s).owner n = some a ∧ (view s).Live n ∧ (view s).active n = none ∧
      (view s).Unowned (childOf s.registry n)) ∧
      view s' = (view s).handTo AccountId.encode n b (childOf s.registry n) := by
  obtain ⟨hne, hown, hterm, s₁, nft, v, hcl, hmove, hhost, rfl⟩ := doTransfer_eq hcf hc h
  have htop : TopLevel T L n := hc.hierarchy.top n (by rw [hown]; rfl) hne
  refine ⟨⟨?_, view_live.mpr hterm.stillValid, hc.view_active_top hcf htop,
    hc.view_unowned hcf n⟩, ?_⟩
  · rw [view_owner hne, hown]
  · have hview := hcl.view_eq
    ext1
    · exact (congrArg Book.now hview :)
    · refine view_owner_update hne fun m => ?_
      rw [transfer_ownerOf hmove, hcl.ownerOf]
    · exact (congrArg Book.expiry hview :)
    · exact (congrArg Book.primary hview :)
    · exact (congrArg Book.gift hview :)
    · exact (congrArg Book.active hview :)
    · funext k
      show Resolvers.anchorOf v k
        = Function.update ((view s).dropSubs (childOf s.registry n)).anchor n
            (some b.encode) k
      rw [hhost.anchorOf, hcl.anchorOf, Function.update_apply]
      rfl

/-- Withdrawing a delegation drops the subname if it was active. -/
theorem Withdrawn.view_eq {d : SubnameRecord} (hw : Withdrawn c d s s') :
    view s' = (view s).dropSubs (fun m => m = c ∧ d.state = .active) := by
  obtain ⟨info, hinfo, -, hnft⟩ := subChildren_eq hw.counter
  have hown : s'.nft.ownerOf = s.nft.ownerOf := by
    rw [hnft]
    exact setChildren_ownerOf hinfo
  have hregistrar : s'.registrar = s.registrar := by rw [hw.frame]
  have hnow : s'.now = s.now := by rw [hw.frame]
  refine view_eq_dropSubs hnow hown hregistrar (fun m => ?_) fun k => ?_
  · -- only an active delegation had a holder
    rw [activeOf_of_records hw.forgets.subnameRecords]
    by_cases hm : m = c
    · subst hm
      simp [RegistryStorage.activeOf, hw.record]
    · simp [hm]
  · rw [hw.resolvers]
    by_cases hd : d.state = .active
    · simp [hd, Resolvers.clearAllRecords_anchorOf]
    · simp [hd]

/-- A subname withdrawn is no name. -/
theorem Withdrawn.unowned (hcf : CollisionFree T.keccak256 T.baseNode L)
    {d : SubnameRecord} (hw : Withdrawn c d s s') (hc : Consistent T L s) :
    (view s).Unowned (fun m => m = c ∧ d.state = .active) := by
  intro m hm
  obtain ⟨rfl, -⟩ := of_decide_eq_true hm
  exact hc.view_unowned hcf d.parent m ((hc.indexed.index _ m).mpr ⟨d, hw.record, rfl⟩)

end PnsPallets
