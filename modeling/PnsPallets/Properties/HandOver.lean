import PnsPallets.Devnet
import PnsPallets.Reachability

/-!
# Handing a name over

A name changes hands by registration, transfer, sale or gift. The four paths
clean up in different orders, but each ends with one edit of the zone that gives
the name to its new owner (`gives_last`), and that edit leaves nothing of the
previous one: `clean_hand_over`. What a registration does besides is retract the
pending offer that its caller asked to reject.
-/

namespace PnsPallets

open Frame Registry Registrar Zones

variable {T : Config} {L : Set Bytes} {s s' : State T} {o : Origin} {call : Call T}
  {a who : AccountId} {n m c : DomainHash}

/-! ## The edit that gives a name -/

/-- The node is the one that a registration rejects, or below it. -/
def Retracted (s : State T) : Call T → DomainHash → Prop
  | .register _ _ (some rejected), m =>
    ∃ r, parseNameToNode T.keccak256 rejected T.baseNode = some r ∧
      (m = r ∨ ∃ d, s.registry.subnameRecords.get m = some d ∧ d.parent = r)
  | _, _ => False

/-- What an extrinsic did before it gave a name away. -/
structure Before (s : State T) (call : Call T) (z : NameZone) : Prop where
  same : ∀ m, ¬ Retracted s call m → Zone.Same m (zone s) z
  delegation : ∀ c, z.delegation c = (zone s).delegation c ∨ z.delegation c = none
  owner : ∀ n a, z.owner n = some a → (zone s).owner n = some a
  rooted : z.Rooted

theorem Before.refl (hr : (zone s).Rooted) : Before s call (zone s) where
  same _ _ := ⟨rfl, rfl, fun _ => rfl, rfl, rfl⟩
  delegation _ := Or.inl rfl
  owner _ _ h := h
  rooted := hr

/-- An edit that takes a delegation or a name away. -/
theorem Before.retract {e : NameEdit} {z : NameZone} (hr : (zone s).Rooted)
    (he : (∃ x, e = .vacate n x) ∨ e = .withdraw n)
    (hret : ∀ m, m = n ∨ (zone s).below n m = true → Retracted s call m)
    (h : Leads (zone s) [e] z) : Before s call z := by
  obtain ⟨hen, rfl⟩ := h.of_single
  have hnode : e.node = n := by
    rcases he with ⟨x, rfl⟩ | rfl <;> rfl
  refine ⟨fun m hm => e.same (zone s) ?_ ?_, fun c => ?_, fun k a hk => ?_, hr.apply hen⟩
  · rintro rfl
    exact hm (hret _ (Or.inl hnode))
  · cases hb : (zone s).below e.node m with
    | false => rfl
    | true => exact absurd (hret m (Or.inr (hnode ▸ hb))) hm
  · have hmoves := e.moves hen c
    generalize (e.apply (zone s)).delegation c = d at hmoves
    rcases he with ⟨x, rfl⟩ | rfl
    · cases hmoves with
      | stays => exact Or.inl rfl
      | cleared => exact Or.inr rfl
    · cases hmoves with
      | stays => exact Or.inl rfl
      | withdrawn => exact Or.inr rfl
      | cleared => exact Or.inr rfl
  · rcases e.owner_cases hk with hold | ⟨t, hg⟩
    · exact hold
    · rcases he with ⟨x, rfl⟩ | rfl <;> cases hg

theorem Before.of_retracts {name : Bytes} {address : MultiAddress} {rejectOffer : Option Bytes}
    {es : List NameEdit} {z : NameZone} (hr : (zone s).Rooted)
    (hret : Retracts s who rejectOffer es) (h : Leads (zone s) es z) :
    Before s (.register name address rejectOffer) z := by
  have hbelow : ∀ {r : DomainHash} (m), m = r ∨ (zone s).below r m = true →
      m = r ∨ ∃ d, s.registry.subnameRecords.get m = some d ∧ d.parent = r := by
    intro r m hm
    refine hm.imp id fun hb => ?_
    obtain ⟨_, hd, hp⟩ := Zone.below_eq_true.mp hb
    obtain ⟨d, hrec, rfl⟩ := zone_delegation_eq_some.mp hd
    exact ⟨d, hrec, hp⟩
  cases hret with
  | none =>
    obtain ⟨-, rfl⟩ := h
    exact .refl hr
  | gift hparse =>
    exact .retract hr (Or.inl ⟨_, rfl⟩) (fun m hm => ⟨_, hparse, hbelow m hm⟩) h
  | offer hparse =>
    exact .retract hr (Or.inr rfl) (fun m hm => ⟨_, hparse, hbelow m hm⟩) h

/-- The last edit of the extrinsic gives `n` to `a`, with its anchors. -/
def EndsGiving (s : State T) (call : Call T) (n : DomainHash) (a : AccountId)
    (z' : NameZone) : Prop :=
  ∃ (z : NameZone) (e : NameEdit), Before s call z ∧ e.Enabled z ∧ z' = e.apply z ∧
    e.Gives n a (Resolvers.anchors a s.parentHash)

/-- An extrinsic after which `a` is a new owner of `n` ends with giving `n` to `a`. -/
theorem gives_last {es : List NameEdit} {z' : NameZone} (hr : (zone s).Rooted)
    (hmakes : Makes s o call es) (hleads : Leads (zone s) es z')
    (hnew : z'.owner n = some a) (hold : (zone s).owner n ≠ some a) :
    EndsGiving s call n a z' := by
  have hlast : ∀ {z : NameZone} {e : NameEdit}, Before s call z → e.Enabled z →
      z' = e.apply z → (∀ t, e.Gives n a t → t = Resolvers.anchors a s.parentHash) →
      EndsGiving s call n a z' := by
    intro z e hbefore hen heq ht
    rcases e.owner_cases (heq ▸ hnew) with hz | ⟨t, hg⟩
    · exact absurd (hbefore.owner n a hz) hold
    · exact ⟨z, e, hbefore, hen, heq, ht t hg ▸ hg⟩
  cases hmakes with
  | register hn hret =>
    obtain ⟨z, hfirst, hen, heq⟩ := hleads.of_concat
    refine hlast (.of_retracts hr hret hfirst) hen heq fun t hg => ?_
    cases hg
    rfl
  | silent =>
    obtain ⟨-, rfl⟩ := hleads
    exact absurd hnew hold
  | transfer | buyName =>
    obtain ⟨hen, heq⟩ := hleads.of_single
    refine hlast (.refl hr) hen heq fun t hg => ?_
    cases hg
    rfl
  | _ =>
    obtain ⟨hen, heq⟩ := hleads.of_single
    refine hlast (.refl hr) hen heq fun t hg => ?_
    cases hg

section EndsGiving

variable {z' : NameZone}

theorem EndsGiving.record (h : EndsGiving s call n a z') :
    z'.record n = Resolvers.anchors a s.parentHash := by
  obtain ⟨z, e, hbefore, hen, rfl, hgives⟩ := h
  exact hgives.record hen hbefore.rooted

/-- No delegation is below the name any more. -/
theorem EndsGiving.parent_ne (h : EndsGiving s call n a z')
    {d : Delegation AccountId DomainHash (BoundedVec 63)} (hd : z'.delegation c = some d) :
    d.parent ≠ n := by
  obtain ⟨z, e, -, -, rfl, hgives⟩ := h
  rw [hgives.delegation] at hd
  simp only [Zone.clear] at hd
  split at hd
  · cases hd
  · next hb => exact fun hp => hb (Zone.below_eq_true.mpr ⟨d, hd, hp⟩)

/-- The delegations below the name are gone. -/
theorem EndsGiving.child (h : EndsGiving s call n a z') (hb : (zone s).below n c = true) :
    z'.delegation c = none := by
  obtain ⟨z, e, hbefore, -, rfl, hgives⟩ := h
  rw [hgives.delegation]
  rcases hbefore.delegation c with hsame | hnone
  · have hz : z.below n c = true := by
      unfold Zone.below
      rw [hsame]
      exact hb
    simp [Zone.clear, hz]
  · simp [Zone.clear, hnone]

/-- The other nodes are left alone. -/
theorem EndsGiving.same (h : EndsGiving s call n a z') (hm : m ≠ n)
    (hb : (zone s).below n m = false) (hret : ¬ Retracted s call m) :
    Zone.Same m (zone s) z' := by
  obtain ⟨z, e, hbefore, -, rfl, hgives⟩ := h
  have hsame := hbefore.same m hret
  refine hsame.trans (e.same z ?_ ?_)
  · rw [hgives.node_eq]
    exact hm
  · rw [hgives.node_eq]
    unfold Zone.below
    rw [hsame.delegation]
    exact hb

end EndsGiving

/-! ## What is left after a hand-over -/

/-- Nothing is left of a subname. -/
structure Forgotten (s : State T) (c : DomainHash) : Prop where
  subnameRecords : s.registry.subnameRecords.get c = none
  offeredToAccount : ∀ t, s.registry.offeredToAccount.get (t, c) = none
  accountToSubnames : ∀ t, s.registry.accountToSubnames.get (t, c) = none
  runtimeOrigin : s.registry.runtimeOrigin.get c = none
  records : ∀ rt, s.resolvers.records.get (c, rt) = none
  texts : ∀ k, s.resolvers.texts.get (c, k) = none

/-- A subname without a record is forgotten: the indices mirror the records, and no
data is stored under it. -/
theorem Reachable.forgotten (hcf : CollisionFree T.keccak256 T.baseNode L)
    (h : Reachable T L s) {p : DomainHash} {label : Bytes} (hsub : SubnameOf T L p label c)
    (hnone : s.registry.subnameRecords.get c = none) : Forgotten s c := by
  have hc := h.consistent hcf
  have htop : ¬ TopLevel T L c := hsub.not_topLevel hcf
  have hunminted : ¬ (c ≠ T.baseNode ∧ (s.nft.ownerOf c).isSome = true) := fun hm =>
    htop (hc.hierarchy.top c hm.2 hm.1)
  have hbare : (zone s).Bare c := by
    refine (h.upkept hcf).rooted c ?_ (Zone.not_active_of_none (zone_delegation_eq_none.mpr hnone))
    cases hown : (zone s).owner c with
    | none => rfl
    | some x =>
      obtain ⟨hne, hown⟩ := view_owner_eq_some.mp hown
      exact absurd ⟨hne, by rw [hown]; rfl⟩ hunminted
  have hno : ∀ d, s.registry.subnameRecords.get c = some d → False := by
    intro d hd
    rw [hnone] at hd
    cases hd
  exact
    { subnameRecords := hnone
      offeredToAccount := fun t => hc.indexed.offered_eq_none fun d hd => (hno d hd).elim
      accountToSubnames := fun t => hc.indexed.held_eq_none htop fun d hd => (hno d hd).elim
      runtimeOrigin := (hc.hierarchy.origin c).trans (if_neg hunminted)
      records := fun rt => Option.map_eq_none_iff.mp (hbare.1 rt)
      texts := fun k => Option.map_eq_none_iff.mp (hbare.2 k) }

/-- A name without delegations below it has a zero child counter. -/
theorem Consistent.childrenOf_eq_zero (hc : Consistent T L s) (hne : n ≠ T.baseNode)
    (hown : (s.nft.ownerOf n).isSome = true)
    (hno : ∀ c d, s.registry.subnameRecords.get c = some d → d.parent ≠ n) :
    s.nft.childrenOf n = some 0 := by
  rw [← NftStorage.childrenOf_isSome] at hown
  obtain ⟨k, hk⟩ := Option.isSome_iff_exists.mp hown
  have hcount := hc.counted.children n k hne hk
  rw [StorageMap.count_eq_zero fun c d hd => decide_eq_false (hno c d hd)] at hcount
  rw [hk, Option.some.injEq, ← UInt32.toNat_inj]
  exact hcount

/-- Whichever successful extrinsic makes `a` a new owner of the name `n`, it leaves `a`
and the parent hash as the only records of `n`, no subname below `n` and nothing of the
former ones, and all other nodes as they were — except what a registration rejects at
the wish of its caller. -/
theorem clean_hand_over (hcf : CollisionFree T.keccak256 T.baseNode L) (h : Reachable T L s)
    (hL : ∀ l ∈ call.labels, l ∈ L) (hok : dispatch s o call = .ok s') (hne : n ≠ T.baseNode)
    (hnew : s'.nft.ownerOf n = some a) (hold : s.nft.ownerOf n ≠ some a) :
    (∀ rt, Resolvers.recordOf s'.resolvers n rt = Resolvers.anchors a s.parentHash rt) ∧
    (∀ c d, s'.registry.subnameRecords.get c = some d → d.parent ≠ n) ∧
    (∀ c, s'.registry.subNames.get (n, c) = none) ∧
    s'.nft.childrenOf n = some 0 ∧
    (∀ c d, s.registry.subnameRecords.get c = some d → d.parent = n → Forgotten s' c) ∧
    ∀ m, m ≠ n → (∀ d, s.registry.subnameRecords.get m = some d → d.parent ≠ n) →
      ¬ Retracted s call m →
      s'.registry.subnameRecords.get m = s.registry.subnameRecords.get m ∧
      (∀ rt, Resolvers.recordOf s'.resolvers m rt = Resolvers.recordOf s.resolvers m rt) ∧
      ∀ k, Resolvers.textOf s'.resolvers m k = Resolvers.textOf s.resolvers m k := by
  have hc := h.consistent hcf
  have h' : Reachable T L s' := h.extrinsic hok hL
  have hc' := h'.consistent hcf
  obtain ⟨es, hmakes, hleads⟩ := dispatch_edits hcf hc hL hok
  have hends : EndsGiving s call n a (zone s') :=
    gives_last (h.upkept hcf).rooted hmakes hleads (view_owner_eq_some.mpr ⟨hne, hnew⟩)
      fun hz => hold (view_owner_eq_some.mp hz).2
  have hgone : ∀ c d, s'.registry.subnameRecords.get c = some d → d.parent ≠ n :=
    fun c d hd => hends.parent_ne (zone_delegation_eq_some.mpr ⟨d, hd, rfl⟩)
  refine ⟨fun rt => congrFun hends.record rt, hgone, fun c => ?_, ?_, fun c d hd hp => ?_,
    fun m hm hbelow hret => ?_⟩
  · cases hsub : s'.registry.subNames.get (n, c) with
    | none => rfl
    | some u =>
      obtain ⟨d, hd, hp⟩ := (hc'.indexed.index n c).mp (by rw [hsub]; rfl)
      exact absurd hp (hgone c d hd)
  · exact hc'.childrenOf_eq_zero hne (by rw [hnew]; rfl) hgone
  · refine h'.forgotten hcf (hc.indexed.named c d hd) (zone_delegation_eq_none.mp (hends.child ?_))
    exact Zone.below_eq_true.mpr ⟨_, zone_delegation_eq_some.mpr ⟨d, hd, rfl⟩, hp⟩
  · have hb : (zone s).below n m = false := by
      rw [← Bool.not_eq_true, Zone.below_eq_true]
      rintro ⟨_, hd, hp⟩
      obtain ⟨d, hrec, rfl⟩ := zone_delegation_eq_some.mp hd
      exact hbelow d hrec hp
    have hsame := hends.same hm hb hret
    exact ⟨zone_delegation_inj hsame.delegation, fun rt => congrFun hsame.record rt,
      fun k => congrFun hsame.text k⟩

open Devnet in
/-- Account 1 transfers `alice`, with `bob.alice` delegated, to account 3. -/
theorem clean_hand_over_transfer :
    ∃ s', dispatch afterDelegation (.signed (account 1)) (.transfer (.id (account 3)))
        = .ok s' ∧ s'.nft.childrenOf (node alice) = some 0 ∧
      Forgotten s' ((Name.sub alice bob).node config.keccak256 config.baseNode) := by
  have hok := eq_ok_commit (r := dispatch afterDelegation (.signed (account 1))
    (.transfer (.id (account 3)))) (by decide +kernel) afterDelegation
  have hsome : (afterDelegation.registry.subnameRecords.get
      ((Name.sub alice bob).node config.keccak256 config.baseNode)).isSome = true := by
    decide +kernel
  have hparent : ∀ d ∈ afterDelegation.registry.subnameRecords.get
      ((Name.sub alice bob).node config.keccak256 config.baseNode),
      d.parent = node alice := by decide +kernel
  obtain ⟨d, hd⟩ := Option.isSome_iff_exists.mp hsome
  obtain ⟨-, -, -, hzero, hforgotten, -⟩ := clean_hand_over (n := node alice) (a := account 3)
    collisionFree afterDelegation_reachable (by decide) hok (by decide +kernel)
    (by decide +kernel) (by decide +kernel)
  exact ⟨_, hok, hzero, hforgotten _ d hd (hparent d hd)⟩

open Devnet in
/-- A registration of `bob` that rejects the gift `alice` burns `alice`, which is another
name, with its records. -/
theorem rejected_gift_burned :
    CollisionFree config.keccak256 config.baseNode labels ∧
      Reachable config labels afterGift ∧
      (dispatch afterGift (.signed (account 3))
        (.register bob (.id (account 3)) (some alice))).isOk = true ∧
      node alice ≠ node bob ∧ afterGift.nft.ownerOf (node bob) = none ∧
      (apply afterGift (.extrinsic (.signed (account 3))
        (.register bob (.id (account 3)) (some alice)))).nft.ownerOf (node bob)
          = some (account 3) ∧
      Resolvers.recordOf afterGift.resolvers (node alice) .SS58 = some (account 3).encode ∧
      Resolvers.recordOf (apply afterGift (.extrinsic (.signed (account 3))
        (.register bob (.id (account 3)) (some alice)))).resolvers (node alice) .SS58
          = none :=
  ⟨collisionFree, afterGift_reachable, by decide +kernel⟩

end PnsPallets
