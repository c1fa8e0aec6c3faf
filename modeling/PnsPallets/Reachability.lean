import PnsPallets.ZoneRefinement

/-!
# Reachable states

The genesis state is consistent and its holdings are vacant; a new block is a
tick of the holdings. With `dispatch_sound` this gives the two rules by which
every safety result about the chain is proved:

- `ReachableBy.invariant`: a property of the storage holds in every reached state
  if genesis, new blocks and successful (hence sound) extrinsics keep it;
- `ReachableBy.book_invariant`: the same for a property of the holdings, over the
  operations the extrinsics perform.

Where a result needs a condition on the calls of a run, the condition is asked of the
calls that succeed (`OnSuccess`).
-/

namespace PnsPallets

open Frame Registry Registrar Holdings Zones

variable {T : Config} {L : Set Bytes} {P : State T → Input T → Prop} {s : State T}
  {root : AccountId} {balances : T.Ledger} {parentHash : H256}

/-! ## Genesis -/

/-- Genesis mints the base node, in class 0, and nothing else. -/
theorem genesisNft_spec {nft : NftStorage T} (h : genesisNft T root = .ok nft) :
    Ledger nft ∧ (∀ m, nft.ownerOf m = if m = T.baseNode then some root else none) ∧
      nft.classOwner = some root := by
  unfold genesisNft Nft.createClass at h
  simp only [bind_eq_ok, okOr_eq_ok, ensure_eq_ok, pure_eq_ok] at h
  obtain ⟨_, ⟨metadata, -, -, -, rfl⟩, hmint⟩ := h
  have hl : Ledger
      { (NftStorage.empty : NftStorage T) with
        nextClassId := classZero + 1
        classes := StorageMap.empty.insert classZero
          { metadata := metadata, totalIssuance := 0, owner := root } } := by
    refine ⟨fun a k => ?_, fun c cls hcls => ?_, fun k info hk => ?_⟩
    · simp [NftStorage.empty]
    · rw [StorageMap.count_eq_zero fun k v hk => by simp [NftStorage.empty] at hk]
      simp only [StorageMap.get_insert, StorageMap.get_empty] at hcls
      split at hcls
      · cases hcls
        rfl
      · cases hcls
    · simp [NftStorage.empty] at hk
  refine ⟨hl.mint (StorageMap.get_empty _) hmint, fun m => ?_, ?_⟩
  · rw [mint_ownerOf hmint]
    rfl
  · rw [mint_classOwner hmint]
    simp [NftStorage.classOwner, NftStorage.empty, classZero]

/-- The base node is the only token of genesis, and nothing is delegated below it. -/
theorem genesis_consistent (h : genesis T root balances parentHash = .ok s) :
    Consistent T L s := by
  unfold genesis at h
  simp only [bind_eq_ok, pure_eq_ok] at h
  obtain ⟨nft, hnft, rfl⟩ := h
  obtain ⟨hledger, hown, hclass⟩ := genesisNft_spec hnft
  have hminted : ∀ m, (nft.ownerOf m).isSome = true → m = T.baseNode := by
    intro m hm
    rw [hown] at hm
    split at hm
    · assumption
    · cases hm
  refine ⟨hledger, ?_, ?_, ?_⟩
  · refine ⟨fun m hm hne => absurd (hminted m hm) hne, fun m => ?_, fun m => ?_,
      root, rfl, ?_, hclass⟩
    · exact (if_neg fun hm => hm.1 (hminted m hm.2)).symm
    · exact ⟨fun hi => by simp at hi, fun hm => absurd (hminted m hm.2) hm.1⟩
    · show nft.ownerOf T.baseNode = some root
      rw [hown, if_pos rfl]
  · refine ⟨⟨?_, ?_⟩, ?_, ?_, ?_, ?_⟩ <;> simp
  · have hchildren : ∀ p k, p ≠ T.baseNode → nft.childrenOf p = some k → False := by
      intro p k hne hk
      have hsome := NftStorage.childrenOf_isSome nft p
      rw [hk] at hsome
      exact hne (hminted p hsome.symm)
    exact ⟨fun c d hd => by simp at hd, fun p k hne hk => (hchildren p k hne hk).elim,
      fun p k i hne hk => (hchildren p k hne hk).elim⟩

/-- Nobody holds anything at genesis: the base node is no holding. -/
theorem genesis_vacant (h : genesis T root balances parentHash = .ok s) :
    (view s).Vacant := by
  unfold genesis at h
  simp only [bind_eq_ok, pure_eq_ok] at h
  obtain ⟨nft, hnft, rfl⟩ := h
  obtain ⟨-, hown, -⟩ := genesisNft_spec hnft
  refine ⟨fun m => ?_, fun x => rfl, fun m => rfl, fun c => rfl⟩
  show (if m = T.baseNode then none else nft.ownerOf m) = none
  rw [hown]
  split <;> rfl

theorem genesis_blank (h : genesis T root balances parentHash = .ok s) : (zone s).Blank := by
  have hv := genesis_vacant h
  unfold genesis at h
  simp only [bind_eq_ok, pure_eq_ok] at h
  obtain ⟨nft, -, rfl⟩ := h
  exact ⟨hv.owner, fun _ => rfl, fun _ _ => rfl, fun _ _ => rfl, fun _ _ => rfl⟩

/-! ## The invariant rules -/

/-- The condition `P`, asked of the extrinsics that succeed; the others leave no trace. -/
def OnSuccess (P : State T → Origin → Call T → Prop) (s : State T) : Input T → Prop
  | .extrinsic o call => (dispatch s o call).isOk = true → P s o call
  | .newBlock _ _ _ _ => True

instance (P : State T → Origin → Call T → Prop) [∀ s o call, Decidable (P s o call)]
    (s : State T) : (i : Input T) → Decidable (OnSuccess P s i)
  | .extrinsic o call =>
    inferInstanceAs (Decidable ((dispatch s o call).isOk = true → P s o call))
  | .newBlock _ _ _ _ => .isTrue trivial

theorem OnSuccess.holds {P : State T → Origin → Call T → Prop} {s' : State T} {o : Origin}
    {call : Call T} (h : OnSuccess P s (.extrinsic o call)) (hok : dispatch s o call = .ok s') :
    P s o call :=
  h (isOk_iff.mpr ⟨s', hok⟩)

/-- A new block changes the time of the holdings only. -/
theorem view_newBlock (s : State T) (now : Moment) (number : UInt32) (hash : H256)
    (ledger : T.Ledger) :
    view (apply s (.newBlock now number hash ledger))
      = (Op.tick now.toNat).apply AccountId.encode (view s) := rfl

/-- What genesis has and new blocks and sound extrinsics keep holds in every
reached state. -/
theorem ReachableBy.invariant (hcf : CollisionFree T.keccak256 T.baseNode L)
    {I : State T → Prop}
    (hinit : ∀ root balances parentHash s, genesis T root balances parentHash = .ok s → I s)
    (htick : ∀ s now number hash ledger, s.now ≤ now → I s →
      I (apply s (.newBlock now number hash ledger)))
    (hcall : ∀ s o call s', Consistent T L s → Admissible L s (.extrinsic o call) →
      P s (.extrinsic o call) → dispatch s o call = .ok s' → Sound L s o call s' →
      I s → I s')
    (h : ReachableBy T L P s) : Consistent T L s ∧ I s := by
  refine Machine.Reach.invariant (I := fun s => Consistent T L s ∧ I s) ?_ ?_ h
  · rintro s ⟨root, balances, parentHash, hs⟩
    exact ⟨genesis_consistent hs, hinit _ _ _ _ hs⟩
  · rintro s (⟨o, call⟩ | ⟨now, number, hash, ledger⟩) ⟨hc, hinv⟩ ⟨hadm, hP⟩
    · show Consistent T L (commit s (dispatch s o call)) ∧ I (commit s (dispatch s o call))
      refine commit_keeps (P := fun s => Consistent T L s ∧ I s) ⟨hc, hinv⟩ fun s' hok => ?_
      have hsound := dispatch_sound hcf hc hadm hok
      exact ⟨hsound.consistent, hcall s o call _ hc hadm hP hok hsound hinv⟩
    · exact ⟨hc.congr rfl rfl rfl, htick s now number hash ledger hadm hinv⟩

/-- The same with a log beside the state: failing extrinsics are not noted. -/
theorem logging_invariant {γ : Type} {start : γ} {note : State T → Input T → γ → γ}
    (hcf : CollisionFree T.keccak256 T.baseNode L) {I : State T → γ → Prop}
    (hinit : ∀ root balances parentHash s, genesis T root balances parentHash = .ok s →
      I s start)
    (htick : ∀ s log now number hash ledger, s.now ≤ now → I s log →
      I (apply s (.newBlock now number hash ledger))
        (note s (.newBlock now number hash ledger) log))
    (hfail : ∀ s log o call err, dispatch s o call = .error err →
      note s (.extrinsic o call) log = log)
    (hcall : ∀ s log o call s', Consistent T L s → Admissible L s (.extrinsic o call) →
      P s (.extrinsic o call) → dispatch s o call = .ok s' → Sound L s o call s' →
      I s log → I s' (note s (.extrinsic o call) log))
    {p : State T × γ}
    (h : ((chain T).logging start note).Reach
      (fun p i => Admissible L p.1 i ∧ P p.1 i) p) :
    Consistent T L p.1 ∧ I p.1 p.2 := by
  refine Machine.Reach.invariant (I := fun p : State T × γ => Consistent T L p.1 ∧ I p.1 p.2)
    ?_ ?_ h
  · rintro ⟨s, log⟩ ⟨⟨root, balances, parentHash, hs⟩, rfl⟩
    exact ⟨genesis_consistent hs, hinit _ _ _ _ hs⟩
  · rintro ⟨s, log⟩ (⟨o, call⟩ | ⟨now, number, hash, ledger⟩) ⟨hc, hinv⟩ ⟨hadm, hP⟩
    · show Consistent T L (commit s (dispatch s o call)) ∧
        I (commit s (dispatch s o call)) (note s (.extrinsic o call) log)
      cases hres : dispatch s o call with
      | ok s' =>
        have hsound := dispatch_sound hcf hc hadm hres
        exact ⟨hsound.consistent, hcall s log o call s' hc hadm hP hres hsound hinv⟩
      | error err =>
        rw [hfail s log o call err hres]
        exact ⟨hc, hinv⟩
    · exact ⟨hc.congr rfl rfl rfl, htick s log now number hash ledger hadm hinv⟩

/-- Whatever else is asked of a run, its states are consistent. -/
theorem ReachableBy.consistent (hcf : CollisionFree T.keccak256 T.baseNode L)
    (h : ReachableBy T L P s) : Consistent T L s :=
  (ReachableBy.invariant (I := fun _ => True) hcf (fun _ _ _ _ _ => trivial)
    (fun _ _ _ _ _ _ _ => trivial) (fun _ _ _ _ _ _ _ _ _ _ => trivial) h).1

/-- What vacant holdings have and ticks and performed operations keep holds of the
holdings in every reached state. -/
theorem ReachableBy.book_invariant (hcf : CollisionFree T.keccak256 T.baseNode L)
    {J : Book AccountId DomainHash Nat Bytes → Prop} (hvacant : ∀ h, h.Vacant → J h)
    (htick : ∀ h t, (Op.tick t).Enabled h → J h →
      J ((Op.tick t).apply AccountId.encode h))
    (hcall : ∀ s o call s' ops, Consistent T L s → Admissible L s (.extrinsic o call) →
      P s (.extrinsic o call) → dispatch s o call = .ok s' → Performs s o call ops →
      Runs AccountId.encode (view s) ops (view s') → J (view s) → J (view s'))
    (h : ReachableBy T L P s) : J (view s) := by
  refine (ReachableBy.invariant (I := fun s => J (view s)) hcf ?_ ?_ ?_ h).2
  · exact fun root balances parentHash s hs => hvacant _ (genesis_vacant hs)
  · intro s now number hash ledger hle hJ
    rw [view_newBlock]
    exact htick (view s) now.toNat hle hJ
  · intro s o call s' hc hadm hP hok hsound hJ
    obtain ⟨ops, hperf, hruns⟩ := hsound.performs
    exact hcall s o call s' ops hc hadm hP hok hperf hruns hJ

/-- What blank zones have and edits that calls make keep holds of the zone in every
reached state. -/
theorem ReachableBy.zone_invariant (hcf : CollisionFree T.keccak256 T.baseNode L)
    {J : NameZone → Prop} (hblank : ∀ z, z.Blank → J z)
    (hcall : ∀ s o call es z', Consistent T L s → Admissible L s (.extrinsic o call) →
      P s (.extrinsic o call) → Makes s o call es → Leads (zone s) es z' → J (zone s) → J z')
    (h : ReachableBy T L P s) : J (zone s) := by
  refine (ReachableBy.invariant (I := fun s => J (zone s)) hcf ?_ ?_ ?_ h).2
  · exact fun root balances parentHash s hs => hblank _ (genesis_blank hs)
  · exact fun s now number hash ledger _ hJ => hJ
  · intro s o call s' hc hadm hP hok _ hJ
    obtain ⟨es, hmakes, hleads⟩ := dispatch_edits hcf hc hadm hok
    exact hcall s o call es (zone s') hc hadm hP hmakes hleads hJ

/-- The state after a successful extrinsic. -/
theorem ReachableBy.extrinsic {s' : State T} {o : Origin} {call : Call T}
    (h : ReachableBy T L P s) (hok : dispatch s o call = .ok s')
    (hL : ∀ l ∈ call.labels, l ∈ L) (hP : P s (.extrinsic o call)) :
    ReachableBy T L P s' := by
  have hstep : ReachableBy T L P (commit s (dispatch s o call)) :=
    Machine.Reach.step (a := Input.extrinsic o call) h ⟨hL, hP⟩
  rwa [hok, commit_ok] at hstep

theorem ReachableBy.step {i : Input T} (h : ReachableBy T L P s) (hadm : Admissible L s i)
    (hP : P s i) : ReachableBy T L P (apply s i) :=
  Machine.Reach.step h ⟨hadm, hP⟩

theorem Reachable.step {i : Input T} (h : Reachable T L s) (hadm : Admissible L s i) :
    Reachable T L (apply s i) :=
  Machine.Reach.step h hadm

theorem Reachable.extrinsic {s' : State T} {o : Origin} {call : Call T} (h : Reachable T L s)
    (hok : dispatch s o call = .ok s') (hL : ∀ l ∈ call.labels, l ∈ L) : Reachable T L s' := by
  have hstep : Reachable T L (commit s (dispatch s o call)) :=
    Reachable.step (i := .extrinsic o call) h hL
  rwa [hok, commit_ok] at hstep

theorem path_step {guard : State T → Input T → Prop} {s₀ : State T} {tr : List (State T)}
    {i : Input T} (h : (chain T).Path guard s₀ tr s) (hg : guard s i) :
    (chain T).Path guard s₀ (tr ++ [apply s i]) (apply s i) :=
  .step h hg

/-- A run under a condition is a run. -/
theorem ReachableBy.reachable (h : ReachableBy T L P s) : Reachable T L s :=
  Machine.Reach.mono (fun _ _ hadm => hadm.1) h

theorem Reachable.by (h : Reachable T L s) : ReachableBy T L (fun _ _ => True) s :=
  Machine.Reach.mono (fun _ _ hadm => ⟨hadm, trivial⟩) h

theorem Reachable.consistent (hcf : CollisionFree T.keccak256 T.baseNode L)
    (h : Reachable T L s) : Consistent T L s :=
  h.by.consistent hcf

/-- What every operation keeps holds of the holdings in every reachable state. -/
theorem Reachable.book_invariant (hcf : CollisionFree T.keccak256 T.baseNode L)
    {J : Book AccountId DomainHash Nat Bytes → Prop} (hvacant : ∀ h, h.Vacant → J h)
    (hstep : ∀ h (op : NameOp), op.Enabled h → J h → J (op.apply AccountId.encode h))
    (h : Reachable T L s) : J (view s) :=
  h.by.book_invariant hcf hvacant (fun h t => hstep h (.tick t))
    fun _ _ _ _ _ _ _ _ _ _ hruns hJ => hruns.invariant hstep hJ

/-- In every reachable state an account holds at most one name or subname, and
answers to the name it holds. -/
theorem Reachable.oneName (hcf : CollisionFree T.keccak256 T.baseNode L)
    (h : Reachable T L s) : OneName (view s) :=
  h.book_invariant hcf (fun _ => OneName.of_vacant) fun _ _ => OneName.apply

/-- What is kept of the zone. -/
structure Upkept (z : NameZone) : Prop where
  apart : z.Apart
  rooted : z.Rooted
  marked : z.Marked .SS58 fun v => v.length = 32

/-- In every reachable state names and subnames are apart, data is stored under
names and active subnames only, and each of those has its SS58 record. -/
theorem Reachable.upkept (hcf : CollisionFree T.keccak256 T.baseNode L)
    (h : Reachable T L s) : Upkept (zone s) := by
  refine h.by.zone_invariant hcf (fun z hz => ⟨.of_blank hz, .of_blank hz, .of_blank hz⟩) ?_
  intro s o call es z' _ _ _ hmakes hleads hinv
  refine hleads.invariant (fun z e he hen hz => ?_) hinv
  exact ⟨hz.apart.apply hen, hz.rooted.apply hen,
    hz.marked.apply hen hz.apart (hmakes.spares (Or.inl rfl) e he) (hmakes.marks e he)⟩

end PnsPallets
