import PnsPallets.Frame.Dispatch
import PnsPallets.Storage

/-!
# The resolvers pallet (pns-resolvers/src/resolvers.rs)

DNS records and texts, keyed by node. The chain itself writes `SS58` and
`ORIGIN` (the trust anchors) and clears a node's records when its name changes
hands; everything else comes from `set_record` and `set_text`, behind the
runtime's `RegistryChecker`.
-/

namespace PnsPallets.Resolvers

open Frame

variable {T : Config}

/-- `resolvers::set_ss58_record` (resolvers.rs:288–298). -/
def setSs58Record (resolvers : ResolversStorage T) (node : DomainHash)
    (owner : AccountId) : DispatchResult (ResolversStorage T) := do
  let content ← okOr (BoundedVec.tryFrom T.maxContentLen owner.encode)
    (.resolvers .invalidPermission)
  pure { resolvers with records := resolvers.records.insert (node, .SS58) content }

/-- `resolvers::set_origin_record` (resolvers.rs:305–310). -/
def setOriginRecord (resolvers : ResolversStorage T) (node : DomainHash)
    (blockHash : H256) : DispatchResult (ResolversStorage T) := do
  let content ← okOr (BoundedVec.tryFrom T.maxContentLen blockHash.bytes)
    (.resolvers .invalidPermission)
  pure { resolvers with records := resolvers.records.insert (node, .ORIGIN) content }

/-- `resolvers::clear_records_except_ss58` (resolvers.rs:318–326). -/
def clearRecordsExceptSs58 (resolvers : ResolversStorage T) (node : DomainHash) :
    ResolversStorage T :=
  let toRemove := ((resolvers.records.iterPrefix node).filter
    fun e => e.1 ≠ RecordType.SS58).map Prod.fst
  { resolvers with
    records := resolvers.records.removeAll (toRemove.map fun rt => (node, rt)) }

/-- `resolvers::clear_all_records` (resolvers.rs:332–335). -/
def clearAllRecords (resolvers : ResolversStorage T) (node : DomainHash) :
    ResolversStorage T :=
  { records := resolvers.records.clearPrefix node
    texts := resolvers.texts.clearPrefix node }

/-! ## Lookup -/

/-- `BLOCKED` in `resolvers::lookup` (resolvers.rs:152–169). -/
def blocked : List RecordType :=
  [.SS58, .ORIGIN, .ANY, .AXFR, .IXFR, .OPT, .TSIG, .SIG, .RRSIG, .NSEC, .NSEC3, .NSEC3PARAM,
    .DNSKEY, .CDNSKEY, .CDS, .DS]

/-- `Records::get`, a `ValueQuery`: empty where nothing is stored. -/
def contentOf (resolvers : ResolversStorage T) (node : DomainHash) (recordType : RecordType) :
    Bytes :=
  ((resolvers.records.get (node, recordType)).map Subtype.val).getD []

/-- Push a record on the results if there is one. -/
def pushRecord (resolvers : ResolversStorage T) (node : DomainHash)
    (results : List (RecordType × Bytes)) (recordType : RecordType) :
    List (RecordType × Bytes) :=
  let content := contentOf resolvers node recordType
  if content ≠ [] then results ++ [(recordType, content)] else results

/-- `resolvers::lookup` (resolvers.rs:151–193): the two anchors, then what was asked
for. -/
def lookup (resolvers : ResolversStorage T) (node : DomainHash)
    (recordTypes : List RecordType) : List (RecordType × Bytes) :=
  let results := pushRecord resolvers node [] .SS58
  let results := pushRecord resolvers node results .ORIGIN
  recordTypes.foldl
    (fun results rt => if rt ∈ blocked then results else pushRecord resolvers node results rt)
    results

/-! ## Extrinsics -/

section Calls

-- `T::RegistryChecker::check_node_useable`
variable (checkNodeUseable : State T → DomainHash → AccountId → Bool)

/-- `resolvers::name_to_node` (resolvers.rs:132–135). -/
def nameToNode (T : Config) (name : Bytes) : DispatchResult DomainHash :=
  okOr (parseNameToNode T.keccak256 name T.baseNode) (.resolvers .invalidName)

/-- `resolvers::set_record` (resolvers.rs:205–230). -/
def setRecord (s : State T) (origin : Origin) (name : Bytes) (recordType : RecordType)
    (content : Content T) : DispatchResult (State T) := do
  let who ← ensureSigned origin
  ensure (recordType ≠ .SS58 ∧ recordType ≠ .ORIGIN) (.resolvers .ss58RecordProtected)
  let node ← nameToNode T name
  ensure (checkNodeUseable s node who = true) (.resolvers .invalidPermission)
  pure { s with
    resolvers.records := s.resolvers.records.insert (node, recordType) content }

/-- `resolvers::set_text` (resolvers.rs:239–254). -/
def setText (s : State T) (origin : Origin) (name : Bytes) (kind : TextKind)
    (content : Content T) : DispatchResult (State T) := do
  let who ← ensureSigned origin
  let node ← nameToNode T name
  ensure (checkNodeUseable s node who = true) (.resolvers .invalidPermission)
  pure { s with resolvers.texts := s.resolvers.texts.insert (node, kind) content }

end Calls

/-! ## The anchors under the record operations -/

/-- The SS58 record of a node: the account its name resolves to. -/
def anchorOf (resolvers : ResolversStorage T) (node : DomainHash) : Option Bytes :=
  (resolvers.records.get (node, .SS58)).map Subtype.val

/-- The records of a node. -/
def recordOf (resolvers : ResolversStorage T) (node : DomainHash) (recordType : RecordType) :
    Option Bytes :=
  (resolvers.records.get (node, recordType)).map Subtype.val

/-- The texts of a node. -/
def textOf (resolvers : ResolversStorage T) (node : DomainHash) (kind : TextKind) :
    Option Bytes :=
  (resolvers.texts.get (node, kind)).map Subtype.val

/-- The records the chain writes for the holder of a name. -/
def anchors (owner : AccountId) (origin : H256) : RecordType → Option Bytes
  | .SS58 => some owner.encode
  | .ORIGIN => some origin.bytes
  | _ => none

/-- The record the chain writes for the holder of a subname. -/
def ss58 (owner : AccountId) : RecordType → Option Bytes
  | .SS58 => some owner.encode
  | _ => none

/-- `r'` is `r` with the anchors of `owner` as the only records of the node. -/
structure Rehosted (node : DomainHash) (owner : AccountId) (origin : H256)
    (r r' : ResolversStorage T) : Prop where
  records : ∀ k rt, recordOf r' k rt
    = if k = node then anchors owner origin rt else recordOf r k rt
  texts : r'.texts = r.texts

/-- A stored record is read back, and no other record changes. -/
theorem recordOf_insert (r : ResolversStorage T) (node : DomainHash) (recordType : RecordType)
    (content : Content T) (k : DomainHash) (rt : RecordType) :
    recordOf { r with records := r.records.insert (node, recordType) content } k rt
      = if k = node ∧ rt = recordType then some content.val else recordOf r k rt := by
  by_cases hk : k = node ∧ rt = recordType
  · simp [recordOf, hk]
  · simp [recordOf, hk]

theorem setSs58Record_recordOf {r r' : ResolversStorage T} {node : DomainHash}
    {owner : AccountId} (h : setSs58Record r node owner = .ok r') :
    (∀ k rt, recordOf r' k rt
      = if k = node ∧ rt = .SS58 then some owner.encode else recordOf r k rt) ∧
    r'.texts = r.texts := by
  unfold setSs58Record at h
  simp only [bind_eq_ok, okOr_eq_ok, pure_eq_ok] at h
  obtain ⟨content, hc, rfl⟩ := h
  rw [← BoundedVec.tryFrom_eq_some hc]
  exact ⟨recordOf_insert r node .SS58 content, rfl⟩

theorem setOriginRecord_recordOf {r r' : ResolversStorage T} {node : DomainHash}
    {blockHash : H256} (h : setOriginRecord r node blockHash = .ok r') :
    (∀ k rt, recordOf r' k rt
      = if k = node ∧ rt = .ORIGIN then some blockHash.bytes else recordOf r k rt) ∧
    r'.texts = r.texts := by
  unfold setOriginRecord at h
  simp only [bind_eq_ok, okOr_eq_ok, pure_eq_ok] at h
  obtain ⟨content, hc, rfl⟩ := h
  rw [← BoundedVec.tryFrom_eq_some hc]
  exact ⟨recordOf_insert r node .ORIGIN content, rfl⟩

theorem setSs58Record_anchorOf {r r' : ResolversStorage T} {node : DomainHash}
    {owner : AccountId} (h : setSs58Record r node owner = .ok r') (k : DomainHash) :
    anchorOf r' k = if k = node then some owner.encode else anchorOf r k := by
  have hrec := (setSs58Record_recordOf h).1 k .SS58
  simp only [and_true] at hrec
  exact hrec

theorem setOriginRecord_anchorOf {r r' : ResolversStorage T} {node : DomainHash}
    {blockHash : H256} (h : setOriginRecord r node blockHash = .ok r') (k : DomainHash) :
    anchorOf r' k = anchorOf r k := by
  have hrec := (setOriginRecord_recordOf h).1 k .SS58
  rw [if_neg (by simp)] at hrec
  exact hrec

/-- The SS58 record survives `clear_records_except_ss58`, and so does every
record of another node; the rest of the node's records go. -/
@[simp] theorem get_clearRecordsExceptSs58 (r : ResolversStorage T) (node : DomainHash)
    (k : DomainHash × RecordType) :
    (clearRecordsExceptSs58 r node).records.get k
      = if k.1 = node ∧ k.2 ≠ .SS58 then none else r.records.get k := by
  obtain ⟨m, rt⟩ := k
  have hmem : (m, rt) ∈ (((r.records.iterPrefix node).filter
        fun e => e.1 ≠ RecordType.SS58).map Prod.fst).map (fun rt => (node, rt))
      ↔ m = node ∧ rt ≠ .SS58 ∧ (r.records.get (node, rt)).isSome = true := by
    rw [← StorageMap.mem_iterPrefix_keys]
    constructor
    · intro h
      obtain ⟨rt', hrt, heq⟩ := List.mem_map.mp h
      rw [Prod.mk.injEq] at heq
      obtain ⟨rfl, rfl⟩ := heq
      obtain ⟨e, he, rfl⟩ := List.mem_map.mp hrt
      obtain ⟨hin, hne⟩ := List.mem_filter.mp he
      exact ⟨rfl, of_decide_eq_true hne, List.mem_map.mpr ⟨e, hin, rfl⟩⟩
    · rintro ⟨rfl, hne, hin⟩
      obtain ⟨e, he, rfl⟩ := List.mem_map.mp hin
      exact List.mem_map.mpr ⟨e.1, List.mem_map.mpr
        ⟨e, List.mem_filter.mpr ⟨he, decide_eq_true hne⟩, rfl⟩, rfl⟩
  show (r.records.removeAll _).get (m, rt) = _
  rw [StorageMap.get_removeAll]
  by_cases hm : m = node
  · subst hm
    by_cases hrt : rt = .SS58
    · rw [if_neg fun h => (hmem.mp h).2.1 hrt, if_neg fun h => h.2 hrt]
    · rw [if_pos (show (m, rt).1 = m ∧ (m, rt).2 ≠ .SS58 from ⟨rfl, hrt⟩)]
      cases hg : r.records.get (m, rt) with
      | none => exact ite_self none
      | some c => exact if_pos (hmem.mpr ⟨rfl, hrt, by rw [hg]; rfl⟩)
  · rw [if_neg fun h => hm (hmem.mp h).1, if_neg fun h => hm h.1]

@[simp] theorem get_clearAllRecords (r : ResolversStorage T) (node : DomainHash)
    (k : DomainHash × RecordType) :
    (clearAllRecords r node).records.get k
      = if k.1 = node then none else r.records.get k :=
  StorageMap.get_clearPrefix _ _ _

@[simp] theorem get_clearAllTexts (r : ResolversStorage T) (node : DomainHash)
    (k : DomainHash × TextKind) :
    (clearAllRecords r node).texts.get k
      = if k.1 = node then none else r.texts.get k :=
  StorageMap.get_clearPrefix _ _ _

theorem clearAllRecords_anchorOf (r : ResolversStorage T) (node k : DomainHash) :
    anchorOf (clearAllRecords r node) k = if k = node then none else anchorOf r k := by
  by_cases hk : k = node
  · simp [anchorOf, hk]
  · simp [anchorOf, hk]

/-- The two anchors written over a node's records. -/
theorem setAnchors_recordOf {r v r' : ResolversStorage T} {node : DomainHash}
    {owner : AccountId} {origin : H256} (h : setSs58Record r node owner = .ok v)
    (h' : setOriginRecord v node origin = .ok r') (k : DomainHash) (rt : RecordType) :
    recordOf r' k rt
      = if k = node then (anchors owner origin rt).or (recordOf r k rt) else recordOf r k rt := by
  rw [(setOriginRecord_recordOf h').1, (setSs58Record_recordOf h).1]
  by_cases hk : k = node
  · cases rt <;> simp [hk, anchors]
  · simp [hk]

/-- The hand-over of a node's records: all but SS58 cleared, then the anchors
written (registry.rs:441–448, marketplace lib.rs:247–254). -/
theorem rehosted {r v r' : ResolversStorage T} {node : DomainHash} {owner : AccountId}
    {origin : H256} (h : setSs58Record (clearRecordsExceptSs58 r node) node owner = .ok v)
    (h' : setOriginRecord v node origin = .ok r') : Rehosted node owner origin r r' where
  records k rt := by
    rw [setAnchors_recordOf h h']
    by_cases hk : k = node
    · cases rt <;> simp [hk, anchors, recordOf]
    · simp [hk, recordOf]
  texts := by
    rw [(setOriginRecord_recordOf h').2, (setSs58Record_recordOf h).2]
    rfl

theorem Rehosted.anchorOf {r r' : ResolversStorage T} {node : DomainHash} {owner : AccountId}
    {origin : H256} (h : Rehosted node owner origin r r') (k : DomainHash) :
    anchorOf r' k = if k = node then some owner.encode else anchorOf r k :=
  h.records k .SS58

/-! ## What a lookup returns -/

theorem mem_pushRecord {r : ResolversStorage T} {node : DomainHash}
    {results : List (RecordType × Bytes)} {rt : RecordType} {e : RecordType × Bytes} :
    e ∈ pushRecord r node results rt ↔
      e ∈ results ∨ e.1 = rt ∧ e.2 = contentOf r node rt ∧ e.2 ≠ [] := by
  unfold pushRecord
  by_cases hc : contentOf r node rt = []
  · simp [hc]
  · obtain ⟨k, v⟩ := e
    rw [if_pos hc, List.mem_append, List.mem_singleton, Prod.mk.injEq]
    refine or_congr_right (and_congr_right fun _ => ⟨fun hv => ⟨hv, ?_⟩, And.left⟩)
    exact hv ▸ hc

/-- A lookup returns the non-empty records of the node, the anchors always and other
kinds if they were asked for and are not blocked. -/
theorem mem_lookup {r : ResolversStorage T} {node : DomainHash} {types : List RecordType}
    {e : RecordType × Bytes} :
    e ∈ lookup r node types ↔
      (e.2 = contentOf r node e.1 ∧ e.2 ≠ []) ∧
        (e.1 = .SS58 ∨ e.1 = .ORIGIN ∨ e.1 ∈ types ∧ e.1 ∉ blocked) := by
  have hloop : ∀ (types : List RecordType) (results : List (RecordType × Bytes)),
      e ∈ types.foldl (fun results rt =>
          if rt ∈ blocked then results else pushRecord r node results rt) results ↔
        e ∈ results ∨ (e.2 = contentOf r node e.1 ∧ e.2 ≠ []) ∧
          e.1 ∈ types ∧ e.1 ∉ blocked := by
    intro types
    induction types with
    | nil => simp
    | cons rt types ih =>
      intro results
      rw [List.foldl_cons, ih, List.mem_cons]
      by_cases hb : rt ∈ blocked
      · rw [if_pos hb]
        grind
      · rw [if_neg hb, mem_pushRecord]
        grind
  unfold lookup
  rw [hloop, mem_pushRecord, mem_pushRecord]
  grind

theorem lookup_eq_nil {r : ResolversStorage T} {node : DomainHash}
    (h : ∀ rt, recordOf r node rt = none) (types : List RecordType) :
    lookup r node types = [] := by
  refine List.eq_nil_iff_forall_not_mem.mpr fun e he => ?_
  obtain ⟨⟨hcontent, hne⟩, -⟩ := mem_lookup.mp he
  refine hne (hcontent.trans ?_)
  show (recordOf r node e.1).getD [] = []
  rw [h]
  rfl

theorem pushRecord_sublist {r : ResolversStorage T} {node : DomainHash}
    {results : List (RecordType × Bytes)} {asked : List RecordType}
    (h : (results.map Prod.fst).Sublist asked) (rt : RecordType) :
    ((pushRecord r node results rt).map Prod.fst).Sublist (asked ++ [rt]) := by
  unfold pushRecord
  dsimp only
  split
  · rw [List.map_append]
    exact h.append (List.Sublist.refl _)
  · exact h.trans (List.sublist_append_left _ _)

/-- A lookup returns a record at most as often as it was asked for. -/
theorem lookup_sublist (r : ResolversStorage T) (node : DomainHash) (types : List RecordType) :
    ((lookup r node types).map Prod.fst).Sublist (.SS58 :: .ORIGIN :: types) := by
  have hloop : ∀ (types asked : List RecordType) (results : List (RecordType × Bytes)),
      (results.map Prod.fst).Sublist asked →
        ((types.foldl (fun results rt =>
          if rt ∈ blocked then results else pushRecord r node results rt) results).map
            Prod.fst).Sublist (asked ++ types) := by
    intro types
    induction types with
    | nil =>
      intro asked results h
      rwa [List.append_nil]
    | cons rt types ih =>
      intro asked results h
      rw [List.foldl_cons, List.append_cons]
      refine ih _ _ ?_
      split
      · exact h.trans (List.sublist_append_left _ _)
      · exact pushRecord_sublist h rt
  have hstart : (([] : List (RecordType × Bytes)).map Prod.fst).Sublist [] := List.Sublist.refl []
  exact hloop types [.SS58, .ORIGIN] _
    (pushRecord_sublist (pushRecord_sublist hstart .SS58) .ORIGIN)

end PnsPallets.Resolvers
