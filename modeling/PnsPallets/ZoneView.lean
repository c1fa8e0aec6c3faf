import PnsPallets.View
import PnsPallets.Zones.Upkeep

/-!
# The chain state as a zone

`zone` reads the abstract zone off the storage of the pallets: token owners,
subname records, `AccountToSubnames`, and the resolvers' records and texts. Where
`view` keeps the terms and pointers of names, `zone` keeps the delegations and all
that is stored under a node.

For each registry operation this module says which edit of the zone it is.
-/

namespace PnsPallets

open Frame Registry Registrar Zones

variable {T : Config} {L : Set Bytes} {s s' : State T} {a b dest caller : AccountId}
  {n c m : DomainHash}

/-- The zones of the name service. -/
abbrev NameZone : Type :=
  Zone AccountId DomainHash (BoundedVec 63) RecordType TextKind Bytes

/-- Their edits. -/
abbrev NameEdit : Type :=
  Edit AccountId DomainHash (BoundedVec 63) RecordType TextKind Bytes

/-- The stage of a subname record. -/
def SubnameState.stage : SubnameState → Stage
  | .offered => .offered
  | .active => .active
  | .rejected => .rejected

/-- A subname record as a delegation. -/
def SubnameRecord.delegation (d : SubnameRecord) :
    Delegation AccountId DomainHash (BoundedVec 63) :=
  { parent := d.parent, label := d.label, target := d.target, stage := d.state.stage }

/-- The zone stored on chain. -/
def zone (s : State T) : NameZone where
  owner := (view s).owner
  delegation c := (s.registry.subnameRecords.get c).map SubnameRecord.delegation
  held a m := (s.registry.accountToSubnames.get (a, m)).isSome
  record := Resolvers.recordOf s.resolvers
  text := Resolvers.textOf s.resolvers

/-! ## Reading the zone -/

theorem SubnameState.stage_injective {x y : SubnameState} (h : x.stage = y.stage) : x = y := by
  cases x <;> cases y <;> first | rfl | cases h

theorem SubnameRecord.delegation_injective {d d' : SubnameRecord}
    (h : d.delegation = d'.delegation) : d = d' := by
  obtain ⟨parent, label, target, state⟩ := d
  obtain ⟨parent', label', target', state'⟩ := d'
  simp only [SubnameRecord.delegation, Delegation.mk.injEq] at h
  obtain ⟨rfl, rfl, rfl, hs⟩ := h
  rw [SubnameState.stage_injective hs]

theorem zone_delegation_eq_some {d : Delegation AccountId DomainHash (BoundedVec 63)} :
    (zone s).delegation c = some d ↔
      ∃ r, s.registry.subnameRecords.get c = some r ∧ r.delegation = d :=
  Option.map_eq_some_iff

theorem zone_delegation_eq_none :
    (zone s).delegation c = none ↔ s.registry.subnameRecords.get c = none :=
  Option.map_eq_none_iff

theorem zone_delegation_inj (h : (zone s').delegation c = (zone s).delegation c) :
    s'.registry.subnameRecords.get c = s.registry.subnameRecords.get c :=
  Option.map_injective (fun _ _ => SubnameRecord.delegation_injective) h

/-- A subname is active in the zone as its record says. -/
theorem zone_active : (zone s).Active c ↔
    ∃ d, s.registry.subnameRecords.get c = some d ∧ d.state = .active := by
  constructor
  · rintro ⟨_, hd, hs⟩
    obtain ⟨d, hr, rfl⟩ := zone_delegation_eq_some.mp hd
    exact ⟨d, hr, SubnameState.stage_injective (y := .active) hs⟩
  · rintro ⟨d, hd, hs⟩
    exact ⟨d.delegation, zone_delegation_eq_some.mpr ⟨d, hd, rfl⟩, congrArg SubnameState.stage hs⟩

theorem zone_held_eq_false :
    (zone s).held a m = false ↔ s.registry.accountToSubnames.get (a, m) = none :=
  Option.isSome_eq_false_iff.trans Option.isNone_iff_eq_none

/-- `SubNames` lists what is delegated below a name. -/
theorem zone_below (hi : Indexed T L s.registry) (n c : DomainHash) :
    (zone s).below n c = childOf s.registry n c := by
  rw [Bool.eq_iff_iff, Zone.below_eq_true]
  refine Iff.trans ?_ (hi.index n c).symm
  constructor
  · rintro ⟨_, hd, hp⟩
    obtain ⟨d, hr, rfl⟩ := zone_delegation_eq_some.mp hd
    exact ⟨d, hr, hp⟩
  · rintro ⟨d, hd, hp⟩
    exact ⟨_, zone_delegation_eq_some.mpr ⟨d, hd, rfl⟩, hp⟩

/-- `m` is `n`, or delegated below it. -/
def Under (s : State T) (n m : DomainHash) : Prop :=
  m = n ∨ ∃ d, s.registry.subnameRecords.get m = some d ∧ d.parent = n

theorem under_iff : Under s n m ↔ m = n ∨ (zone s).below n m = true := by
  rw [Under, Zone.below_eq_true]
  refine or_congr_right ⟨?_, ?_⟩
  · rintro ⟨d, hd, hp⟩
    exact ⟨_, zone_delegation_eq_some.mpr ⟨d, hd, rfl⟩, hp⟩
  · rintro ⟨_, hd, hp⟩
    obtain ⟨d, hrec, rfl⟩ := zone_delegation_eq_some.mp hd
    exact ⟨d, hrec, hp⟩

/-- A top-level name is nobody's subname. -/
theorem Consistent.zone_delegation_top (hcf : CollisionFree T.keccak256 T.baseNode L)
    (hc : Consistent T L s) (htop : TopLevel T L n) : (zone s).delegation n = none := by
  rw [zone_delegation_eq_none]
  cases hd : s.registry.subnameRecords.get n with
  | none => rfl
  | some d => exact absurd htop ((hc.indexed.named n d hd).not_topLevel hcf)

/-! ## Clearing, burning, handing over -/

/-- Clearing the subnames of a name clears the zone below it. -/
theorem Cleared.zone_eq (hi : Indexed T L s.registry) (hcl : Cleared n s s') :
    zone s' = (zone s).clear n := by
  have hb := zone_below hi n
  ext1
  · funext m
    show (if m = T.baseNode then none else s'.nft.ownerOf m) = _
    rw [hcl.ownerOf]
    rfl
  · funext c
    show (s'.registry.subnameRecords.get c).map _
      = if (zone s).below n c then none else (zone s).delegation c
    rw [hcl.forgets.subnameRecords, hb]
    split <;> rfl
  · funext x c
    show (s'.registry.accountToSubnames.get (x, c)).isSome
      = if (zone s).below n c then false else (zone s).held x c
    rw [hcl.forgets.accountToSubnames, hb]
    split <;> rfl
  · funext c rt
    show (s'.resolvers.records.get (c, rt)).map _
      = if (zone s).below n c then none else (zone s).record c rt
    rw [hcl.records, hb]
    split <;> rfl
  · funext c k
    show (s'.resolvers.texts.get (c, k)).map _
      = if (zone s).below n c then none else (zone s).text c k
    rw [hcl.texts, hb]
    split <;> rfl

theorem recordOf_clearAllRecords (r : ResolversStorage T) (n : DomainHash) :
    Resolvers.recordOf (Resolvers.clearAllRecords r n)
      = Function.update (Resolvers.recordOf r) n fun _ => none := by
  funext k rt
  by_cases hk : k = n
  · simp [Resolvers.recordOf, hk]
  · simp [Resolvers.recordOf, hk]

theorem textOf_clearAllRecords (r : ResolversStorage T) (n : DomainHash) :
    Resolvers.textOf (Resolvers.clearAllRecords r n)
      = Function.update (Resolvers.textOf r) n fun _ => none := by
  funext k x
  by_cases hk : k = n
  · simp [Resolvers.textOf, hk]
  · simp [Resolvers.textOf, hk]

/-- `do_burn` vacates the name. -/
theorem zone_doBurn (hcf : CollisionFree T.keccak256 T.baseNode L) (hc : Consistent T L s)
    (h : doBurn s a n = .ok s') :
    (Edit.vacate n a : NameEdit).Enabled (zone s) ∧
      zone s' = (Edit.vacate n a : NameEdit).apply (zone s) := by
  obtain ⟨hne, hown, s₁, nft, hcl, hburn, rfl⟩ := doBurn_eq hcf hc h
  have hz := hcl.zone_eq hc.indexed
  refine ⟨view_owner_eq_some.mpr ⟨hne, hown⟩, ?_⟩
  ext1
  · refine view_owner_update hne fun m => ?_
    rw [burn_ownerOf hburn, hcl.ownerOf]
  · exact (congrArg Zone.delegation hz :)
  · funext x m
    show ((s₁.registry.accountToSubnames.remove (a, n)).get (x, m)).isSome
      = if x = a ∧ m = n then false else ((zone s).clear n).held x m
    rw [← hz, StorageMap.isSome_get_remove_pair]
    rfl
  · show Resolvers.recordOf (Resolvers.clearAllRecords s₁.resolvers n)
      = Function.update ((zone s).clear n).record n fun _ => none
    rw [← hz, recordOf_clearAllRecords]
    rfl
  · show Resolvers.textOf (Resolvers.clearAllRecords s₁.resolvers n)
      = Function.update ((zone s).clear n).text n fun _ => none
    rw [← hz, textOf_clearAllRecords]
    rfl

/-- A name that is hosted anew has its two anchors and no other record. -/
theorem recordOf_rehosted {r r' : ResolversStorage T} {origin : H256}
    (h : Resolvers.Rehosted n b origin r r') :
    Resolvers.recordOf r'
      = Function.update (Resolvers.recordOf r) n (Resolvers.anchors b origin) := by
  funext k rt
  rw [h.records, Function.update_apply]
  split <;> rfl

theorem textOf_congr {r r' : ResolversStorage T} (h : r'.texts = r.texts) :
    Resolvers.textOf r' = Resolvers.textOf r := by
  unfold Resolvers.textOf
  rw [h]

/-- `do_transfer` hands the name over; who is on record as holding it stays. -/
theorem zone_doTransfer (hcf : CollisionFree T.keccak256 T.baseNode L)
    (hc : Consistent T L s) (h : doTransfer s a b n = .ok s') :
    (zone s).owner n = some a ∧
      zone s' = (Edit.handOver n a b (Resolvers.anchors b s.parentHash) : NameEdit).apply
        (zone s) := by
  obtain ⟨hne, hown, -, s₁, nft, v, hcl, hmove, hhost, rfl⟩ := doTransfer_eq hcf hc h
  have hz := hcl.zone_eq hc.indexed
  refine ⟨view_owner_eq_some.mpr ⟨hne, hown⟩, ?_⟩
  ext1
  · refine view_owner_update hne fun m => ?_
    rw [transfer_ownerOf hmove, hcl.ownerOf]
  · exact (congrArg Zone.delegation hz :)
  · exact (congrArg Zone.held hz :)
  · show Resolvers.recordOf v = Function.update ((zone s).clear n).record n _
    rw [← hz, recordOf_rehosted hhost]
    rfl
  · show Resolvers.textOf v = ((zone s).clear n).text
    rw [← hz, textOf_congr hhost.texts]
    rfl

/-! ## Subnames -/

/-- An offer is stored, with the label as it was given. -/
theorem zone_offerSubname {label : BoundedVec 63} {p : DomainHash} {capacity : UInt32}
    (h : offerSubname s p c label b capacity = .ok s') :
    zone s' = (Edit.offer c ⟨p, label, b, .offered⟩ : NameEdit).apply (zone s) := by
  obtain ⟨-, -, info, hinfo, -, rfl⟩ := offerSubname_eq h
  ext1
  · funext m
    show (if m = T.baseNode then none else NftStorage.ownerOf _ m) = _
    rw [setChildren_ownerOf hinfo]
    rfl
  · exact StorageMap.map_get_insert _ SubnameRecord.delegation c _
  all_goals rfl

/-- Accepting an offer activates the delegation and anchors the subname at its holder.
-/
theorem zone_acceptSubnameOffer {p : DomainHash} {v : ResolversStorage T}
    (h : acceptSubnameOffer s c a = .ok (s', p))
    (hv : Resolvers.setSs58Record s'.resolvers c a = .ok v) :
    (Edit.accept c a (Resolvers.ss58 a) : NameEdit).Enabled (zone s) ∧
      zone { s' with resolvers := v }
        = (Edit.accept c a (Resolvers.ss58 a) : NameEdit).apply (zone s) := by
  obtain ⟨-, hheld, d, hd, hs, rfl, rfl⟩ := acceptSubnameOffer_eq h
  obtain ⟨hrec, htext⟩ := Resolvers.setSs58Record_recordOf hv
  have hdel : (zone s).delegation c = some d.delegation :=
    zone_delegation_eq_some.mpr ⟨d, hd, rfl⟩
  refine ⟨⟨⟨d.delegation, hdel, congrArg SubnameState.stage hs, rfl⟩,
    fun m => zone_held_eq_false.mpr (hheld m)⟩, ?_⟩
  ext1
  · rfl
  · show (fun m => ((s.registry.subnameRecords.insert c _).get m).map _)
      = Function.update (zone s).delegation c (((zone s).delegation c).map _)
    rw [StorageMap.map_get_insert, hdel]
    rfl
  · funext x m
    show ((s.registry.accountToSubnames.insert (d.target, c) ()).get (x, m)).isSome
      = if x = d.target ∧ m = c then true else (zone s).held x m
    rw [StorageMap.isSome_get_insert_pair]
    rfl
  · funext k rt
    show Resolvers.recordOf v k rt = Function.update (zone s).record c _ k rt
    rw [hrec, Function.update_apply]
    by_cases hk : k = c
    · cases rt <;> simp [hk, overlay, Resolvers.ss58] <;> rfl
    · simp [hk]
      rfl
  · exact textOf_congr htext

/-- Only the account an offer is for can reject it. -/
theorem zone_rejectSubnameOffer (h : rejectSubnameOffer s c a = .ok s') :
    (Edit.reject c a : NameEdit).Enabled (zone s) ∧
      zone s' = (Edit.reject c a : NameEdit).apply (zone s) := by
  obtain ⟨d, hd, hs, rfl, rfl⟩ := rejectSubnameOffer_eq h
  have hdel : (zone s).delegation c = some d.delegation :=
    zone_delegation_eq_some.mpr ⟨d, hd, rfl⟩
  refine ⟨⟨d.delegation, hdel, congrArg SubnameState.stage hs, rfl⟩, ?_⟩
  ext1
  · rfl
  · show (fun m => ((s.registry.subnameRecords.insert c _).get m).map _)
      = Function.update (zone s).delegation c (((zone s).delegation c).map _)
    rw [StorageMap.map_get_insert, hdel]
    rfl
  all_goals rfl

/-- A withdrawn subname leaves the zone with its records, whoever withdraws it. -/
theorem Withdrawn.zone_eq {d : SubnameRecord} (hw : Withdrawn c d s s') :
    (Edit.withdraw c : NameEdit).Enabled (zone s) ∧
      zone s' = (Edit.withdraw c : NameEdit).apply (zone s) := by
  obtain ⟨info, hinfo, -, hnft⟩ := subChildren_eq hw.counter
  have hdel : (zone s).delegation c = some d.delegation :=
    zone_delegation_eq_some.mpr ⟨d, hw.record, rfl⟩
  have hstage : ((zone s).delegation c).any (fun d => d.stage = .active)
      = decide (d.state = .active) := by
    rw [hdel, Option.any_some]
    cases hs : d.state <;> simp [SubnameRecord.delegation, SubnameState.stage, hs]
  refine ⟨show ((zone s).delegation c).isSome = true by rw [hdel]; rfl, ?_⟩
  ext1
  · funext m
    show (if m = T.baseNode then none else s'.nft.ownerOf m) = _
    rw [hnft, setChildren_ownerOf hinfo]
    rfl
  · funext m
    show (s'.registry.subnameRecords.get m).map _ = Function.update (zone s).delegation c none m
    rw [hw.forgets.subnameRecords, Function.update_apply]
    by_cases hm : m = c
    · simp [hm]
    · simp [hm]
      rfl
  · funext x m
    show (s'.registry.accountToSubnames.get (x, m)).isSome
      = if m = c then false else (zone s).held x m
    rw [hw.forgets.accountToSubnames]
    by_cases hm : m = c
    · simp [hm]
    · simp [hm]
      rfl
  · funext k rt
    show Resolvers.recordOf s'.resolvers k rt = Function.update (zone s).record c _ k rt
    simp only [hstage]
    rw [hw.resolvers, Function.update_apply]
    by_cases hd : d.state = .active
    · simp only [hd, if_true, decide_true, recordOf_clearAllRecords, Function.update_apply]
      rfl
    · by_cases hk : k = c <;> simp [hd, hk] <;> rfl
  · funext k x
    show Resolvers.textOf s'.resolvers k x = Function.update (zone s).text c _ k x
    simp only [hstage]
    rw [hw.resolvers, Function.update_apply]
    by_cases hd : d.state = .active
    · simp only [hd, if_true, decide_true, textOf_clearAllRecords, Function.update_apply]
      rfl
    · by_cases hk : k = c <;> simp [hd, hk] <;> rfl

/-! ## Registering -/

/-- Writing the two anchors of a name. -/
theorem zone_setAnchors {v₁ v₂ : ResolversStorage T}
    (h₁ : Resolvers.setSs58Record s.resolvers n a = .ok v₁)
    (h₂ : Resolvers.setOriginRecord v₁ n s.parentHash = .ok v₂) :
    zone { s with resolvers := v₂ }
      = (Edit.anchor n (Resolvers.anchors a s.parentHash) : NameEdit).apply (zone s) := by
  ext1
  · rfl
  · rfl
  · rfl
  · funext k rt
    show Resolvers.recordOf v₂ k rt = Function.update (zone s).record n _ k rt
    rw [Resolvers.setAnchors_recordOf h₁ h₂, Function.update_apply]
    by_cases hk : k = n
    · subst hk
      rw [if_pos rfl, if_pos rfl]
      rfl
    · rw [if_neg hk, if_neg hk]
      rfl
  · exact textOf_congr ((Resolvers.setOriginRecord_recordOf h₂).2.trans
      (Resolvers.setSs58Record_recordOf h₁).2)

/-- `mint_subname` issues the name, without records yet. -/
theorem zone_mintSubname (hcf : CollisionFree T.keccak256 T.baseNode L)
    (hc : Consistent T L s) (htop : TopLevel T L n) {official : AccountId} {fee : Balance}
    {expire : Moment} {len : Nat}
    (h : mintSubname s official [] T.baseNode n dest 0
      (registerPayments caller n fee expire len) = .ok s') :
    zone s' = (Edit.issue n dest fun _ => none : NameEdit).apply (zone s) := by
  have hne := htop.ne_base hcf
  have hi := mintSubname_issued hcf hc htop h
  unfold mintSubname at h
  rw [bind_eq_ok] at h
  obtain ⟨plan, hplan, hfinish⟩ := h
  rcases mintPrepare_eq hplan with
    ⟨s₁, hnone, hpay, rfl⟩ | ⟨s₁, prev, hprev, -, hinfo, hpay, rfl⟩
  · -- a fresh mint: there was neither owner nor subname
    have hown : (zone s).owner n = none := (view_owner hne).trans hnone
    have hclear : (zone s).clear n = zone s := by
      have hb : ∀ c, (zone s).below n c = false := fun c => by
        rw [zone_below hc.indexed]
        exact hc.no_child_of_unminted hnone c
      simp [Zone.clear, hb]
    obtain ⟨balances, primary, -, rfl⟩ := registerPayments_eq hpay
    have hbase : s.registry.runtimeOrigin.get T.baseNode = none := by
      rw [hc.hierarchy.origin]
      simp
    unfold mintFinish joinHierarchy addChildren at hfinish
    simp only [hbase, bind_eq_ok, okOr_eq_ok, pure_eq_ok] at hfinish
    obtain ⟨nft, hmint, nft', ⟨info, hinfo, rfl⟩, rfl⟩ := hfinish
    simp only [Edit.apply, hclear, hown]
    ext1
    · exact view_owner_update hne hi.ownerOf
    · rfl
    · funext x m
      show ((s.registry.accountToSubnames.insert (dest, n) ()).get (x, m)).isSome = _
      rw [StorageMap.isSome_get_insert_pair]
      simp
      rfl
    · simp
      rfl
    · simp
      rfl
  · -- a re-registration: the previous owner's subnames, entry and data go
    have hown : (zone s).owner n = some prev := (view_owner hne).trans hprev
    obtain ⟨i, hinfo⟩ := Option.isSome_iff_exists.mp hinfo
    obtain ⟨balances, primary, -, heq⟩ := registerPayments_eq hpay
    have hc₁ : Consistent T L s₁ := by
      rw [heq]
      exact hc.rewriteInfo hinfo (registrationInfo_capacity hinfo) balances primary
    have hz₁ : zone s₁ = zone s := by rw [heq]; rfl
    have hz := (hc₁.cleared hcf n).zone_eq hc₁.indexed
    rw [hz₁] at hz
    unfold mintFinish at hfinish
    simp only [bind_eq_ok, pure_eq_ok] at hfinish
    obtain ⟨nft, hmove, rfl⟩ := hfinish
    generalize clearSubnames s₁ n = s₂ at hmove hz hi ⊢
    simp only [Edit.apply, ← hz, hown]
    ext1
    · exact view_owner_update hne hi.ownerOf
    · rfl
    · funext x m
      show (((s₂.registry.accountToSubnames.remove (prev, n)).insert (dest, n) ()).get
        (x, m)).isSome = _
      rw [StorageMap.isSome_get_insert_pair, StorageMap.isSome_get_remove_pair]
      simp only [Option.some.injEq, eq_comm (a := prev)]
      rfl
    · show Resolvers.recordOf (Resolvers.clearAllRecords s₂.resolvers n) = _
      rw [recordOf_clearAllRecords]
      simp
      rfl
    · show Resolvers.textOf (Resolvers.clearAllRecords s₂.resolvers n) = _
      rw [textOf_clearAllRecords]
      simp
      rfl

end PnsPallets
