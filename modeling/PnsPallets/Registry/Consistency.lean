import PnsPallets.Nft.Ledger
import PnsPallets.Registry.Delegations

/-!
# Consistency of the name storage

Four pallets keep parts of one structure: the token of a name (NFT), its
registration (registrar), its place in the hierarchy and its subname delegations
(registry). `Consistent` is what they agree on between extrinsics:

- `Ledger`: the NFT pallet's own index and issuance;
- `Hierarchy`: a name other than the base node has a token iff it has
  registration info iff its origin is `Root`; the base node belongs to the
  official account;
- `Indexed`: the delegation indices mirror the records;
- `Counted`: a token's child counter counts the delegations below it.

Each registry operation is described by the state it returns (`doBurn_eq`,
`doTransfer_eq`, …) and keeps `Consistent`.
-/

namespace PnsPallets

open Frame Registry

/-- Token, registration and hierarchy agree. -/
structure Hierarchy (T : Config) (L : Set Bytes) (s : State T) : Prop where
  /-- Tokens are top-level names, the base node apart. -/
  top : ∀ n, (s.nft.ownerOf n).isSome = true → n ≠ T.baseNode → TopLevel T L n
  /-- `RuntimeOrigin` is `Root` at the minted names and absent elsewhere. -/
  origin : ∀ n, s.registry.runtimeOrigin.get n =
    if n ≠ T.baseNode ∧ (s.nft.ownerOf n).isSome = true then some .root else none
  /-- `RegistrarInfos` covers exactly the minted names. -/
  info : ∀ n, (s.registrar.registrarInfos.get n).isSome = true ↔
    n ≠ T.baseNode ∧ (s.nft.ownerOf n).isSome = true
  /-- The official account owns the base node and the class of names. -/
  base : ∃ a, s.registry.official = some a ∧ s.nft.ownerOf T.baseNode = some a ∧
    s.nft.classOwner = some a

/-- Child counters count delegations, within the registered capacity. -/
structure Counted {T : Config} (s : State T) : Prop where
  /-- Delegations hang below minted names. -/
  parent : ∀ c d, s.registry.subnameRecords.get c = some d →
    (s.nft.ownerOf d.parent).isSome = true
  children : ∀ p k, p ≠ T.baseNode → s.nft.childrenOf p = some k →
    k.toNat = s.registry.subnameRecords.count (fun _ d => d.parent = p)
  capacity : ∀ p k i, p ≠ T.baseNode → s.nft.childrenOf p = some k →
    s.registrar.registrarInfos.get p = some i → k.toNat ≤ i.capacity.toNat

/-- The storage of the PNS pallets is consistent. -/
structure Consistent (T : Config) (L : Set Bytes) (s : State T) : Prop where
  ledger : Ledger s.nft
  hierarchy : Hierarchy T L s
  indexed : Indexed T L s.registry
  counted : Counted s

variable {T : Config} {L : Set Bytes} {s s' : State T} {a b : AccountId} {n p c : DomainHash}

/-! ## Consequences -/

/-- A subname is never a token. -/
theorem Consistent.child_no_token (hcf : CollisionFree T.keccak256 T.baseNode L)
    (hc : Consistent T L s) (hchild : childOf s.registry n c = true) :
    s.nft.ownerOf c = none := by
  obtain ⟨d, hd, -⟩ := (hc.indexed.index n c).mp hchild
  have hsub := hc.indexed.named c d hd
  cases hown : s.nft.ownerOf c with
  | none => rfl
  | some a =>
    have htop := hc.hierarchy.top c (by rw [hown]; rfl) (hsub.ne_base hcf)
    exact absurd htop (hsub.not_topLevel hcf)

/-- What is not minted has no origin; subnames are an instance. -/
theorem Hierarchy.origin_eq_none (h : Hierarchy T L s) (hown : s.nft.ownerOf n = none) :
    s.registry.runtimeOrigin.get n = none := by
  rw [h.origin, hown]
  simp

theorem Hierarchy.origin_eq_root (h : Hierarchy T L s)
    (hminted : n ≠ T.baseNode ∧ (s.nft.ownerOf n).isSome = true) :
    s.registry.runtimeOrigin.get n = some .root := by
  rw [h.origin]
  exact if_pos hminted

/-- Only minted names have children. -/
theorem Consistent.no_child_of_unminted (hc : Consistent T L s)
    (hown : s.nft.ownerOf n = none) (c : DomainHash) : childOf s.registry n c = false := by
  cases hchild : childOf s.registry n c with
  | false => rfl
  | true =>
    obtain ⟨d, hd, rfl⟩ := (hc.indexed.index n c).mp hchild
    have hsome := hc.counted.parent c d hd
    rw [hown] at hsome
    cases hsome

/-- The base node apart, the hierarchy only looks at what is minted. -/
theorem Hierarchy.of_minted (h : Hierarchy T L s)
    (hminted : ∀ m, (s'.nft.ownerOf m).isSome = (s.nft.ownerOf m).isSome)
    (horigin : ∀ m, s'.registry.runtimeOrigin.get m = s.registry.runtimeOrigin.get m)
    (hinfo : s'.registrar.registrarInfos = s.registrar.registrarInfos)
    (hbase : ∃ a, s'.registry.official = some a ∧ s'.nft.ownerOf T.baseNode = some a ∧
      s'.nft.classOwner = some a) : Hierarchy T L s' where
  top m hm hne := h.top m (hminted m ▸ hm) hne
  origin m := by
    rw [horigin, hminted]
    exact h.origin m
  info m := by
    rw [hinfo, hminted]
    exact h.info m
  base := hbase

/-- The hierarchy only looks at who owns what. -/
theorem Hierarchy.of_owner (h : Hierarchy T L s) (hown : s'.nft.ownerOf = s.nft.ownerOf)
    (hclass : s'.nft.classOwner = s.nft.classOwner)
    (horigin : ∀ m, s'.registry.runtimeOrigin.get m = s.registry.runtimeOrigin.get m)
    (hofficial : s'.registry.official = s.registry.official)
    (hinfo : s'.registrar.registrarInfos = s.registrar.registrarInfos) :
    Hierarchy T L s' := by
  refine h.of_minted (fun m => by rw [hown]) horigin hinfo ?_
  rw [hown, hclass, hofficial]
  exact h.base

/-- Counters only look at what is minted, at the child counters and the records. -/
theorem Counted.of_minted (hk : Counted s)
    (hminted : ∀ m, (s'.nft.ownerOf m).isSome = (s.nft.ownerOf m).isSome)
    (hchildren : s'.nft.childrenOf = s.nft.childrenOf)
    (hrecords : s'.registry.subnameRecords = s.registry.subnameRecords)
    (hinfo : s'.registrar.registrarInfos = s.registrar.registrarInfos) : Counted s' where
  parent c d hd := by
    rw [hrecords] at hd
    rw [hminted]
    exact hk.parent c d hd
  children := by
    rw [hchildren, hrecords]
    exact hk.children
  capacity := by
    rw [hchildren, hinfo]
    exact hk.capacity

theorem Consistent.cleared (hcf : CollisionFree T.keccak256 T.baseNode L)
    (hc : Consistent T L s) (n : DomainHash) : Cleared n s (clearSubnames s n) :=
  clearSubnames_cleared hcf hc.indexed fun _ hchild =>
    NftStorage.tokens_eq_none.mpr (hc.child_no_token hcf hchild)

/-! ## Clearing the subnames of a name -/

theorem Ledger.resetChildren {nft : NftStorage T} (hl : Ledger nft) (n : DomainHash) :
    Ledger (resetChildren nft n) := by
  unfold Registry.resetChildren
  split
  · next info hinfo => exact hl.setChildren hinfo
  · exact hl

theorem resetChildren_ownerOf (nft : NftStorage T) (n : DomainHash) :
    (resetChildren nft n).ownerOf = nft.ownerOf := by
  unfold resetChildren
  split
  · next info hinfo => exact setChildren_ownerOf hinfo
  · rfl

theorem resetChildren_childrenOf (nft : NftStorage T) (n m : DomainHash) :
    (resetChildren nft n).childrenOf m
      = if m = n then (nft.childrenOf n).map (fun _ => 0) else nft.childrenOf m := by
  unfold resetChildren
  split
  · next info hinfo =>
    rw [setChildren_childrenOf]
    simp [NftStorage.childrenOf, hinfo]
  · next hnone =>
    split
    · next hm =>
      subst hm
      simp [NftStorage.childrenOf, hnone]
    · rfl

theorem resetChildren_classOwner (nft : NftStorage T) (n : DomainHash) :
    (resetChildren nft n).classOwner = nft.classOwner := by
  unfold resetChildren
  split <;> rfl

/-- With the children of `n` deleted, the records below another name are left
and none below `n`. -/
theorem Indexed.record_left_iff {r : RegistryStorage} (h : Indexed T L r)
    {left : StorageMap DomainHash SubnameRecord}
    (hleft : ∀ c, left.get c = if childOf r n c then none else r.subnameRecords.get c)
    (p c : DomainHash) (d : SubnameRecord) :
    (left.get c = some d ∧ d.parent = p) ↔
      p ≠ n ∧ r.subnameRecords.get c = some d ∧ d.parent = p := by
  rw [hleft]
  constructor
  · rintro ⟨hd, rfl⟩
    split at hd
    · cases hd
    · next hchild =>
      refine ⟨?_, hd, rfl⟩
      rintro rfl
      exact hchild ((h.index _ c).mpr ⟨d, hd, rfl⟩)
  · rintro ⟨hp, hd, rfl⟩
    refine ⟨?_, rfl⟩
    rw [if_neg, hd]
    intro hchild
    obtain ⟨d', hd', hpar⟩ := (h.index n c).mp hchild
    rw [hd, Option.some.injEq] at hd'
    exact hp (hd' ▸ hpar)

/-- Counters stay right when the children of `n` are deleted and its counter is
zero afterwards. -/
theorem Counted.cleared (hk : Counted s) (hi : Indexed T L s.registry)
    (hrec : ∀ c, s'.registry.subnameRecords.get c
      = if childOf s.registry n c then none else s.registry.subnameRecords.get c)
    (hown : ∀ m, (s.nft.ownerOf m).isSome = true → (s'.nft.ownerOf m).isSome = true)
    (hchildren : ∀ m, m ≠ T.baseNode → ∀ k, s'.nft.childrenOf m = some k →
      (m = n ∧ k = 0) ∨ (m ≠ n ∧ s.nft.childrenOf m = some k))
    (hinfo : ∀ m, m ≠ n →
      s'.registrar.registrarInfos.get m = s.registrar.registrarInfos.get m) :
    Counted s' := by
  have hleft := hi.record_left_iff hrec
  constructor
  · intro c d hd
    exact hown _ (hk.parent c d ((hleft d.parent c d).mp ⟨hd, rfl⟩).2.1)
  · intro p k hp hpk
    rcases hchildren p hp k hpk with ⟨rfl, rfl⟩ | ⟨hpn, hpk⟩
    · -- the cleared name: counter and count are both zero
      refine (StorageMap.count_eq_zero fun c d hd => decide_eq_false ?_).symm
      intro hpar
      exact ((hleft p c d).mp ⟨hd, hpar⟩).1 rfl
    · rw [hk.children p k hp hpk]
      refine StorageMap.count_congr fun c => exists_congr fun d => ?_
      rw [decide_eq_true_iff, hleft]
      exact (and_iff_right hpn).symm
  · intro p k i hp hpk hpi
    rcases hchildren p hp k hpk with ⟨rfl, rfl⟩ | ⟨hpn, hpk⟩
    · exact Nat.zero_le _
    · rw [hinfo p hpn] at hpi
      exact hk.capacity p k i hp hpk hpi

section Clearing

variable (hcl : Cleared n s s')

include hcl

theorem Cleared.nft : s'.nft = resetChildren s.nft n := by
  rw [hcl.frame]

theorem Cleared.registrar : s'.registrar = s.registrar := by
  rw [hcl.frame]

theorem Cleared.ownerOf : s'.nft.ownerOf = s.nft.ownerOf := by
  rw [hcl.nft, resetChildren_ownerOf]

/-- The children of a name are in no hierarchy of their own, so the hierarchy map
is untouched. -/
theorem Cleared.origin (hcf : CollisionFree T.keccak256 T.baseNode L)
    (hc : Consistent T L s) (m : DomainHash) :
    s'.registry.runtimeOrigin.get m = s.registry.runtimeOrigin.get m := by
  rw [hcl.runtimeOrigin]
  split
  · next hchild => exact (hc.hierarchy.origin_eq_none (hc.child_no_token hcf hchild)).symm
  · rfl

/-- No delegation is left below a cleared name. -/
theorem Cleared.no_child (hc : Consistent T L s) {d : SubnameRecord}
    (hd : s'.registry.subnameRecords.get c = some d) : d.parent ≠ n :=
  ((hc.indexed.record_left_iff hcl.forgets.subnameRecords _ c d).mp ⟨hd, rfl⟩).1

theorem Cleared.consistent (hcf : CollisionFree T.keccak256 T.baseNode L)
    (hc : Consistent T L s) : Consistent T L s' := by
  refine ⟨?_, ?_, hc.indexed.forget hcl.forgets, ?_⟩
  · rw [hcl.nft]
    exact hc.ledger.resetChildren n
  · exact hc.hierarchy.of_owner hcl.ownerOf (by rw [hcl.nft, resetChildren_classOwner])
      (hcl.origin hcf hc) hcl.official (by rw [hcl.registrar])
  · refine hc.counted.cleared hc.indexed hcl.forgets.subnameRecords ?_ ?_ ?_
    · rw [hcl.ownerOf]
      exact fun _ hm => hm
    · intro m _ k hk
      rw [hcl.nft, resetChildren_childrenOf] at hk
      split at hk
      · next hm =>
        obtain ⟨k', -, rfl⟩ := Option.map_eq_some_iff.mp hk
        exact Or.inl ⟨hm, rfl⟩
      · next hm => exact Or.inr ⟨hm, hk⟩
    · rw [hcl.registrar]
      exact fun _ _ => rfl

end Clearing

/-! ## Burning a name -/

/-- An origin is only ever `Root`, and only names other than the base have one. -/
theorem Hierarchy.origin_eq_some (h : Hierarchy T L s) {o : DomainTracing}
    (ho : s.registry.runtimeOrigin.get n = some o) :
    o = .root ∧ n ≠ T.baseNode ∧ (s.nft.ownerOf n).isSome = true := by
  rw [h.origin] at ho
  split at ho
  · next hn =>
    cases ho
    exact ⟨rfl, hn⟩
  · cases ho

/-- The state in which `do_burn` reaches `nft::burn`. -/
theorem burnPrepare_eq (hcf : CollisionFree T.keccak256 T.baseNode L)
    (hc : Consistent T L s) {ready : State T × AccountId}
    (h : burnPrepare s a n = .ok ready) :
    n ≠ T.baseNode ∧ s.nft.ownerOf n = some a ∧ ready.2 = a ∧
    ∃ s₁, Cleared n s s₁ ∧ ready.1 = { s₁ with
      registrar.registrarInfos := s₁.registrar.registrarInfos.remove n
      registry.runtimeOrigin := s₁.registry.runtimeOrigin.remove n
      registry.accountToSubnames := s₁.registry.accountToSubnames.remove (a, n)
      resolvers := Resolvers.clearAllRecords s₁.resolvers n } := by
  unfold burnPrepare verifyWithOwner at h
  simp only [bind_eq_ok, okOr_eq_ok, ensure_eq_ok, pure_eq_ok] at h
  obtain ⟨info, hinfo, -, rfl, o, ho, s₁, hs₁, rfl⟩ := h
  obtain ⟨rfl, hne, -⟩ := hc.hierarchy.origin_eq_some ho
  cases hs₁
  exact ⟨hne, by simp [NftStorage.ownerOf, hinfo], rfl, _, hc.cleared hcf n, rfl⟩

/-- What a successful `do_burn` did. -/
theorem doBurn_eq (hcf : CollisionFree T.keccak256 T.baseNode L) (hc : Consistent T L s)
    (h : doBurn s a n = .ok s') :
    n ≠ T.baseNode ∧ s.nft.ownerOf n = some a ∧
    ∃ s₁ nft, Cleared n s s₁ ∧ Nft.burn s₁.nft a (classZero, n) = .ok nft ∧ s' = { s₁ with
      nft := nft
      registrar.registrarInfos := s₁.registrar.registrarInfos.remove n
      registry.runtimeOrigin := s₁.registry.runtimeOrigin.remove n
      registry.accountToSubnames := s₁.registry.accountToSubnames.remove (a, n)
      resolvers := Resolvers.clearAllRecords s₁.resolvers n } := by
  unfold doBurn at h
  simp only [bind_eq_ok, pure_eq_ok] at h
  obtain ⟨ready, hready, nft, hnft, rfl⟩ := h
  obtain ⟨hne, hown, hown', s₁, hcl, heq⟩ := burnPrepare_eq hcf hc hready
  rw [hown', heq] at hnft
  rw [heq]
  exact ⟨hne, hown, s₁, nft, hcl, hnft, rfl⟩

/-- Burning the token of a name without children, with its registration and its
hierarchy entry. -/
theorem Consistent.burnToken (hcf : CollisionFree T.keccak256 T.baseNode L)
    (hc : Consistent T L s) (hne : n ≠ T.baseNode)
    (hno : ∀ c d, s.registry.subnameRecords.get c = some d → d.parent ≠ n)
    {nft : NftStorage T} (hburn : Nft.burn s.nft a (classZero, n) = .ok nft)
    (resolvers : ResolversStorage T) :
    Consistent T L { s with
      nft := nft
      registrar.registrarInfos := s.registrar.registrarInfos.remove n
      registry.runtimeOrigin := s.registry.runtimeOrigin.remove n
      registry.accountToSubnames := s.registry.accountToSubnames.remove (a, n)
      resolvers := resolvers } := by
  have hown := burn_ownerOf hburn
  have hchildren := burn_childrenOf hburn
  have htop : TopLevel T L n :=
    hc.hierarchy.top n (by rw [burn_ownerOf_before hburn]; rfl) hne
  refine ⟨hc.ledger.burn hburn, ?_, (hc.indexed.unhold hcf htop).setOrigin _, ?_⟩
  · obtain ⟨htop', horigin, hinfo, hbase⟩ := hc.hierarchy
    constructor
    · intro m hm hm'
      rw [hown] at hm
      split at hm
      · cases hm
      · exact htop' m hm hm'
    · intro m
      rw [StorageMap.get_remove, hown]
      by_cases hm : m = n
      · simp [hm]
      · simp only [if_neg hm]
        exact horigin m
    · intro m
      rw [StorageMap.get_remove, hown]
      by_cases hm : m = n
      · simp [hm]
      · simp only [if_neg hm]
        exact hinfo m
    · rw [burn_classOwner hburn, hown, if_neg (Ne.symm hne)]
      exact hbase
  · obtain ⟨hparent, hcount, hcap⟩ := hc.counted
    have hleft : ∀ p k, nft.childrenOf p = some k →
        p ≠ n ∧ s.nft.childrenOf p = some k := by
      intro p k hk
      rw [hchildren] at hk
      split at hk
      · cases hk
      · next hp => exact ⟨hp, hk⟩
    constructor
    · intro c d hd
      rw [hown, if_neg (hno c d hd)]
      exact hparent c d hd
    · intro p k hp hk
      exact hcount p k hp (hleft p k hk).2
    · intro p k i hp hk hi
      obtain ⟨hpn, hk⟩ := hleft p k hk
      rw [StorageMap.get_remove, if_neg hpn] at hi
      exact hcap p k i hp hk hi

theorem Consistent.doBurn (hcf : CollisionFree T.keccak256 T.baseNode L)
    (hc : Consistent T L s) (h : doBurn s a n = .ok s') : Consistent T L s' := by
  obtain ⟨hne, -, s₁, nft, hcl, hburn, rfl⟩ := doBurn_eq hcf hc h
  exact (hcl.consistent hcf hc).burnToken hcf hne (fun _ _ hd => hcl.no_child hc hd) hburn _

/-! ## Handing a name over -/

/-- What a successful `do_transfer` did. -/
theorem doTransfer_eq (hcf : CollisionFree T.keccak256 T.baseNode L)
    (hc : Consistent T L s) (h : doTransfer s a b n = .ok s') :
    n ≠ T.baseNode ∧ s.nft.ownerOf n = some a ∧ Registrar.Renewable s n ∧
    ∃ s₁ nft resolvers, Cleared n s s₁ ∧ Nft.transfer s₁.nft a b (classZero, n) = .ok nft ∧
      Resolvers.Rehosted n b s.parentHash s₁.resolvers resolvers ∧
      s' = { s₁ with nft := nft, resolvers := resolvers } := by
  unfold doTransfer verifyWithOwner at h
  simp only [bind_eq_ok, okOr_eq_ok, ensure_eq_ok, pure_eq_ok] at h
  obtain ⟨info, hinfo, -, rfl, o, ho, s₁, hs₁, nft, hnft, v₁, hv₁, v₂, hv₂, rfl⟩ := h
  obtain ⟨rfl, hne, -⟩ := hc.hierarchy.origin_eq_some ho
  simp only [releaseHierarchy, bind_eq_ok, pure_eq_ok] at hs₁
  obtain ⟨_, hterm, rfl⟩ := hs₁
  refine ⟨hne, by simp [NftStorage.ownerOf, hinfo],
    Registrar.checkExpiresRenewable_eq_ok.mp hterm, _, nft, v₂, hc.cleared hcf n, hnft, ?_,
    rfl⟩
  have hhash : (clearSubnames s n).parentHash = s.parentHash := by
    rw [(hc.cleared hcf n).frame]
  exact hhash ▸ Resolvers.rehosted hv₁ hv₂

/-- Moving the token of a name. -/
theorem Consistent.moveToken (hc : Consistent T L s) (hne : n ≠ T.baseNode)
    {nft : NftStorage T} (hmove : Nft.transfer s.nft a b (classZero, n) = .ok nft)
    (resolvers : ResolversStorage T) :
    Consistent T L { s with nft := nft, resolvers := resolvers } := by
  have hminted := transfer_minted hmove
  refine ⟨hc.ledger.transfer hmove, ?_, hc.indexed,
    hc.counted.of_minted hminted (transfer_childrenOf hmove) rfl rfl⟩
  refine hc.hierarchy.of_minted hminted (fun _ => rfl) rfl ?_
  rw [transfer_classOwner hmove, transfer_ownerOf hmove, if_neg (Ne.symm hne)]
  exact hc.hierarchy.base

theorem Consistent.doTransfer (hcf : CollisionFree T.keccak256 T.baseNode L)
    (hc : Consistent T L s) (h : doTransfer s a b n = .ok s') : Consistent T L s' := by
  obtain ⟨hne, -, -, s₁, nft, v, hcl, hmove, -, rfl⟩ := doTransfer_eq hcf hc h
  exact (hcl.consistent hcf hc).moveToken hne hmove v

/-! ## Delegating a subname -/

/-- What a successful `offer_subname` did. -/
theorem offerSubname_eq {label : BoundedVec 63} {capacity : UInt32}
    (h : offerSubname s p c label b capacity = .ok s') :
    s.registry.runtimeOrigin.get p = some .root ∧ s.registry.subnameRecords.get c = none ∧
    ∃ info, s.nft.tokens.get (classZero, p) = some info ∧ info.data.children < capacity ∧
      s' = { s with
        nft := setChildren s.nft p info (info.data.children + 1)
        registry.subnameRecords := s.registry.subnameRecords.insert c
          { parent := p, label := label, target := b, state := .offered }
        registry.offeredToAccount := s.registry.offeredToAccount.insert (b, c) ()
        registry.subNames := s.registry.subNames.insert (p, c) () } := by
  unfold offerSubname addChildrenWithCheck at h
  simp only [bind_eq_ok, okOr_eq_ok, ensure_eq_ok, pure_eq_ok] at h
  obtain ⟨-, horigin, -, -, -, hnew, nft, ⟨info, hinfo, -, hlt, rfl⟩, rfl⟩ := h
  exact ⟨horigin, by simpa using hnew, info, hinfo, hlt, rfl⟩

/-- Counting up within the capacity does not wrap. -/
theorem toNat_add_one_of_lt {k cap : UInt32} (h : k < cap) : (k + 1).toNat = k.toNat + 1 := by
  have hlt : k.toNat < cap.toNat := h
  have hcap := cap.toNat_lt
  rw [UInt32.toNat_add]
  exact Nat.mod_eq_of_lt (show k.toNat + 1 < 2 ^ 32 by omega)

theorem Consistent.offerSubname {label : BoundedVec 63} {i : RegistrarInfo}
    (hc : Consistent T L s) (hname : SubnameOf T L p label.val c)
    (hi : s.registrar.registrarInfos.get p = some i)
    (h : offerSubname s p c label b i.capacity = .ok s') : Consistent T L s' := by
  obtain ⟨horigin, hnew, info, hinfo, hlt, rfl⟩ := offerSubname_eq h
  obtain ⟨-, hne, hminted⟩ := hc.hierarchy.origin_eq_some horigin
  have hown : (setChildren s.nft p info (info.data.children + 1)).ownerOf = s.nft.ownerOf :=
    setChildren_ownerOf hinfo
  have hchildren := setChildren_childrenOf s.nft p info (info.data.children + 1)
  have hbefore : s.nft.childrenOf p = some info.data.children := by
    simp [NftStorage.childrenOf, hinfo]
  refine ⟨hc.ledger.setChildren hinfo, hc.hierarchy.of_owner hown rfl (fun _ => rfl) rfl rfl,
    hc.indexed.offer (d := ⟨p, label, b, .offered⟩) hnew hname rfl, ?_⟩
  obtain ⟨hparent, hcount, hcap⟩ := hc.counted
  constructor
  · rw [hown]
    grind
  · intro q k hq hk
    rw [hchildren] at hk
    split at hk
    · next hqp =>
      -- the parent of the new offer: one more record, one more child
      cases hk
      subst hqp
      rw [toNat_add_one_of_lt hlt, hcount q _ hq hbefore]
      refine (StorageMap.count_add_one (k := c) (by simp [hnew]) fun m => ?_).symm
      by_cases hm : m = c
      · simp [hm]
      · simp [hm]
    · next hqp =>
      rw [hcount q k hq hk]
      refine StorageMap.count_congr fun m => ?_
      by_cases hm : m = c
      · simp [hm, hnew, Ne.symm hqp]
      · simp [hm]
  · intro q k j hq hk hj
    rw [hchildren] at hk
    split at hk
    · next hqp =>
      cases hk
      subst hqp
      rw [hi, Option.some.injEq] at hj
      subst hj
      rw [toNat_add_one_of_lt hlt]
      exact hlt
    · exact hcap q k j hq hk hj

/-- What a successful `accept_subname_offer` did. -/
theorem acceptSubnameOffer_eq (h : acceptSubnameOffer s c a = .ok (s', p)) :
    Registrar.hasValidCanonicalName s a = false ∧
    (∀ m, s.registry.accountToSubnames.get (a, m) = none) ∧
    ∃ d, s.registry.subnameRecords.get c = some d ∧ d.state = .offered ∧ d.target = a ∧
      s' = { s with
        registry.subnameRecords :=
          s.registry.subnameRecords.insert c { d with state := .active }
        registry.offeredToAccount := s.registry.offeredToAccount.remove (a, c)
        registry.accountToSubnames := s.registry.accountToSubnames.insert (a, c) () } := by
  unfold acceptSubnameOffer at h
  simp only [bind_eq_ok, okOr_eq_ok, ensure_eq_ok, pure_eq_ok, Prod.mk.injEq] at h
  obtain ⟨-, hvalid, -, hnone, d, hd, -, hs, -, ht, rfl, -⟩ := h
  exact ⟨hvalid, StorageMap.iterPrefix_eq_nil.mp (List.isEmpty_iff.mp hnone), d, hd, hs, ht,
    rfl⟩

/-- Changing the state of a delegation changes no count. -/
theorem Counted.setState (hk : Counted s) {r : RegistryStorage} {d : SubnameRecord}
    {state : SubnameState} (hd : s.registry.subnameRecords.get c = some d)
    (hr : r.subnameRecords = s.registry.subnameRecords.insert c { d with state := state }) :
    Counted { s with registry := r } := by
  obtain ⟨hparent, hcount, hcap⟩ := hk
  constructor
  · rw [hr]
    grind
  · intro q k hq hchildren
    rw [hcount q k hq hchildren, hr]
    refine StorageMap.count_congr fun m => ?_
    by_cases hm : m = c
    · simp [hm, hd]
    · simp [hm]
  · exact hcap

theorem Consistent.acceptSubnameOffer (hc : Consistent T L s)
    (h : acceptSubnameOffer s c a = .ok (s', p)) : Consistent T L s' := by
  obtain ⟨-, -, d, hd, hs, rfl, rfl⟩ := acceptSubnameOffer_eq h
  exact ⟨hc.ledger, hc.hierarchy.of_owner rfl rfl (fun _ => rfl) rfl rfl,
    hc.indexed.accept hd,
    hc.counted.setState hd rfl⟩

/-- What a successful `reject_subname_offer` did. -/
theorem rejectSubnameOffer_eq (h : rejectSubnameOffer s c a = .ok s') :
    ∃ d, s.registry.subnameRecords.get c = some d ∧ d.state = .offered ∧ d.target = a ∧
      s' = { s with
        registry.subnameRecords :=
          s.registry.subnameRecords.insert c { d with state := .rejected }
        registry.offeredToAccount := s.registry.offeredToAccount.remove (a, c) } := by
  unfold rejectSubnameOffer at h
  simp only [bind_eq_ok, okOr_eq_ok, ensure_eq_ok, pure_eq_ok] at h
  obtain ⟨d, hd, -, hs, -, ht, rfl⟩ := h
  exact ⟨d, hd, hs, ht, rfl⟩

theorem Consistent.rejectSubnameOffer (hc : Consistent T L s)
    (h : rejectSubnameOffer s c a = .ok s') : Consistent T L s' := by
  obtain ⟨d, hd, hs, rfl, rfl⟩ := rejectSubnameOffer_eq h
  exact ⟨hc.ledger, hc.hierarchy.of_owner rfl rfl (fun _ => rfl) rfl rfl,
    hc.indexed.reject hd hs,
    hc.counted.setState hd rfl⟩

/-! ## Withdrawing a subname -/

theorem subChildren_eq {nft nft' : NftStorage T} (h : subChildren nft p = .ok nft') :
    ∃ info, nft.tokens.get (classZero, p) = some info ∧ 1 ≤ info.data.children ∧
      nft' = setChildren nft p info (info.data.children - 1) := by
  unfold subChildren at h
  simp only [bind_eq_ok, okOr_eq_ok, ensure_eq_ok, pure_eq_ok] at h
  obtain ⟨info, hinfo, -, hle, rfl⟩ := h
  exact ⟨info, hinfo, hle, rfl⟩

/-- Removing one record takes one off the count of its parent. -/
theorem count_withdraw {m m' : StorageMap DomainHash SubnameRecord} {d : SubnameRecord}
    (hd : m.get c = some d) (hm : ∀ j, m'.get j = if j = c then none else m.get j)
    (q : DomainHash) :
    m.count (fun _ d => d.parent = q)
      = m'.count (fun _ d => d.parent = q) + if d.parent = q then 1 else 0 := by
  split
  · next hq =>
    refine StorageMap.count_add_one (k := c) (by simp [hm]) fun j => ?_
    by_cases hj : j = c
    · subst hj
      simp [hm, hd, hq]
    · simp [hm, hj]
  · next hq =>
    rw [Nat.add_zero]
    refine StorageMap.count_congr fun j => ?_
    by_cases hj : j = c
    · subst hj
      simp [hm, hd, hq]
    · simp [hm, hj]

theorem Withdrawn.consistent {d : SubnameRecord} (hw : Withdrawn c d s s') (hc : Consistent T L s) :
    Consistent T L s' := by
  obtain ⟨info, hinfo, hle, hnft⟩ := subChildren_eq hw.counter
  have hown : s'.nft.ownerOf = s.nft.ownerOf := by
    rw [hnft]
    exact setChildren_ownerOf hinfo
  have hchildren := setChildren_childrenOf s.nft d.parent info (info.data.children - 1)
  rw [← hnft] at hchildren
  have hregistrar : s'.registrar = s.registrar := by rw [hw.frame]
  have hrec : ∀ m, s'.registry.subnameRecords.get m
      = if m = c then none else s.registry.subnameRecords.get m := by
    simpa using hw.forgets.subnameRecords
  have hcountw := count_withdraw hw.record hrec
  refine ⟨?_, ?_, hc.indexed.forget hw.forgets, ?_⟩
  · rw [hnft]
    exact hc.ledger.setChildren hinfo
  · exact hc.hierarchy.of_owner hown (by rw [hnft]; rfl)
      (fun _ => by rw [hw.runtimeOrigin]) hw.official (by rw [hregistrar])
  · obtain ⟨hparent, hcount, hcap⟩ := hc.counted
    have hbefore : s.nft.childrenOf d.parent = some info.data.children := by
      simp [NftStorage.childrenOf, hinfo]
    have hsub : (info.data.children - 1).toNat = info.data.children.toNat - 1 :=
      UInt32.toNat_sub_of_le _ _ hle
    constructor
    · intro m e he
      rw [hown]
      rw [hrec] at he
      split at he
      · cases he
      · exact hparent m e he
    · intro q k hq hk
      rw [hchildren] at hk
      have hq' := hcountw q
      split at hk
      · next hqp =>
        cases hk
        subst hqp
        rw [if_pos rfl] at hq'
        have := hcount _ _ hq hbefore
        omega
      · next hqp =>
        rw [if_neg (Ne.symm hqp)] at hq'
        rw [hcount q k hq hk]
        omega
    · intro q k i hq hk hi
      rw [hregistrar] at hi
      rw [hchildren] at hk
      split at hk
      · next hqp =>
        cases hk
        subst hqp
        have := hcap _ _ i hq hbefore hi
        omega
      · exact hcap q k i hq hk hi

/-- The checked decrement of `sub_children` does not fail for the parent of a
delegation. -/
theorem Consistent.subChildren_isOk (hcf : CollisionFree T.keccak256 T.baseNode L)
    (hc : Consistent T L s) {d : SubnameRecord}
    (hd : s.registry.subnameRecords.get c = some d) :
    ∃ nft, subChildren s.nft d.parent = .ok nft := by
  have hminted := hc.counted.parent c d hd
  have hne := (hc.indexed.named c d hd).topLevel_parent.ne_base hcf
  cases hinfo : s.nft.tokens.get (classZero, d.parent) with
  | none => simp [NftStorage.ownerOf, hinfo] at hminted
  | some info =>
    have hcount := hc.counted.children d.parent info.data.children hne
      (by simp [NftStorage.childrenOf, hinfo])
    have hpos : 0 < s.registry.subnameRecords.count (fun _ e => e.parent = d.parent) :=
      StorageMap.count_pos hd (decide_eq_true rfl)
    have hle : 1 ≤ info.data.children := by
      show (1 : UInt32).toNat ≤ info.data.children.toNat
      rw [hcount]
      exact hpos
    refine ⟨setChildren s.nft d.parent info (info.data.children - 1), ?_⟩
    simp only [subChildren, bind_eq_ok, okOr_eq_ok, ensure_eq_ok, pure_eq_ok]
    exact ⟨info, hinfo, (), hle, rfl⟩

/-! ## The official account -/

/-- What a successful `set_official` did. -/
theorem setOfficial_eq (hc : Consistent T L s) {o : Origin}
    (h : setOfficial s o b = .ok s') :
    ∃ old nft, Nft.transfer s.nft old b (classZero, T.baseNode) = .ok nft ∧
      s' = { s with
        registry.official := some b
        nft := setClassOwner nft b } := by
  obtain ⟨old, hofficial, -, -⟩ := hc.hierarchy.base
  unfold setOfficial moveBaseNode at h
  simp only [hofficial, bind_eq_ok, pure_eq_ok] at h
  obtain ⟨-, -, nft, hnft, rfl⟩ := h
  exact ⟨old, nft, hnft, rfl⟩

/-- The base node goes to the new official account; no other token moves. -/
theorem setOfficial_ownerOf {nft : NftStorage T}
    (hmove : Nft.transfer s.nft a b (classZero, T.baseNode) = .ok nft) (m : DomainHash) :
    (setClassOwner nft b).ownerOf m
      = if m = T.baseNode then some b else s.nft.ownerOf m := by
  unfold NftStorage.ownerOf
  rw [setClassOwner_tokens]
  exact transfer_ownerOf hmove m

theorem Consistent.setOfficial (hc : Consistent T L s) {o : Origin}
    (h : setOfficial s o b = .ok s') : Consistent T L s' := by
  obtain ⟨old, nft, hmove, rfl⟩ := setOfficial_eq hc h
  have hminted : ∀ m, ((setClassOwner nft b).ownerOf m).isSome = (s.nft.ownerOf m).isSome := by
    intro m
    rw [NftStorage.ownerOf_isSome, setClassOwner_tokens, ← NftStorage.ownerOf_isSome]
    exact transfer_minted hmove m
  have hchildren : (setClassOwner nft b).childrenOf = s.nft.childrenOf := by
    rw [← transfer_childrenOf hmove]
    funext m
    unfold NftStorage.childrenOf
    rw [setClassOwner_tokens]
  refine ⟨(hc.ledger.transfer hmove).setClassOwner b, ?_, ?_,
    hc.counted.of_minted hminted hchildren rfl rfl⟩
  · obtain ⟨x, -, -, hclass⟩ := hc.hierarchy.base
    refine hc.hierarchy.of_minted hminted (fun _ => rfl) rfl ⟨b, rfl, ?_, ?_⟩
    · rw [setOfficial_ownerOf hmove, if_pos rfl]
    · rw [← transfer_classOwner hmove] at hclass
      exact setClassOwner_classOwner hclass
  · exact ⟨⟨hc.indexed.offered, hc.indexed.held⟩, hc.indexed.index, hc.indexed.named,
      hc.indexed.offered_of, hc.indexed.active_of⟩

end PnsPallets
