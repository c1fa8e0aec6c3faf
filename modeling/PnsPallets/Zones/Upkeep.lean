import PnsPallets.Zones.Edits

/-!
# What edits keep of a zone

An edit changes one node, `Edit.node`, and, if it takes a name from its owner,
clears the subnames below it first. That is said once (`Edit.same_off`), and
every invariant of a zone is then proved by looking at that node
(`Edit.forall_apply`):

- `Apart`: names are not delegated as subnames;
- `Rooted`: records and texts are stored under owned names and active subnames;
- `Marked k V`: every owned name and active subname has a record of kind `k`
  whose value meets `V`.

The life cycle of a delegation (`Edit.moves`), the records the service itself wrote
last (`Logged`) and who is on record as holding a name (`Entered`) are read off the
edits as well.
-/

namespace Zones

open Frame

variable {α ν ℓ κ χ β : Type} {z z' : Zone α ν ℓ κ χ β} {n m c : ν} {a b : α}

/-! ## What is said of a zone -/

/-- The zones say the same of the node `m`. -/
structure Zone.Same (m : ν) (z z' : Zone α ν ℓ κ χ β) : Prop where
  owner : z'.owner m = z.owner m
  delegation : z'.delegation m = z.delegation m
  held : ∀ a, z'.held a m = z.held a m
  record : z'.record m = z.record m
  text : z'.text m = z.text m

theorem Zone.Same.trans {z₁ : Zone α ν ℓ κ χ β} (h : Zone.Same m z z₁)
    (h' : Zone.Same m z₁ z') : Zone.Same m z z' :=
  ⟨h'.owner.trans h.owner, h'.delegation.trans h.delegation,
    fun a => (h'.held a).trans (h.held a), h'.record.trans h.record, h'.text.trans h.text⟩

/-- No name is delegated as a subname. -/
def Zone.Apart (z : Zone α ν ℓ κ χ β) : Prop :=
  ∀ n, (z.owner n).isSome = true → z.delegation n = none

theorem Zone.Apart.of_blank (h : z.Blank) : z.Apart := fun n _ => h.delegation n

theorem Zone.Apart.unowned (h : z.Apart) {d : Delegation α ν ℓ}
    (hd : z.delegation c = some d) : z.owner c = none := by
  cases hown : z.owner c with
  | none => rfl
  | some a =>
    have hnone := h c (by rw [hown]; rfl)
    rw [hd] at hnone
    cases hnone

/-- Nothing is stored under the node. -/
def Zone.Bare (z : Zone α ν ℓ κ χ β) (n : ν) : Prop :=
  (∀ k, z.record n k = none) ∧ ∀ x, z.text n x = none

/-- Nodes that are neither owned nor active subnames are bare. -/
def Zone.Rooted (z : Zone α ν ℓ κ χ β) : Prop :=
  ∀ n, z.owner n = none → ¬ z.Active n → z.Bare n

theorem Zone.Rooted.of_blank (h : z.Blank) : z.Rooted :=
  fun n _ _ => ⟨h.record n, h.text n⟩

/-- A node that is not delegated is not active. -/
theorem Zone.not_active_of_none (h : z.delegation c = none) : ¬ z.Active c := by
  rintro ⟨d, hd, -⟩
  rw [h] at hd
  cases hd

/-- An offered or rejected delegation is not active. -/
theorem Zone.not_active_of_stage {d : Delegation α ν ℓ} (hd : z.delegation c = some d)
    (hs : d.stage ≠ .active) : ¬ z.Active c := by
  rintro ⟨d', hd', hs'⟩
  rw [hd, Option.some.injEq] at hd'
  exact hs (hd' ▸ hs')

/-- Owned names and active subnames have a record of kind `k` with a value that
meets `V`. -/
def Zone.Marked (k : κ) (V : β → Prop) (z : Zone α ν ℓ κ χ β) : Prop :=
  ∀ n, (z.owner n).isSome = true ∨ z.Active n → ∃ v, z.record n k = some v ∧ V v

@[simp] theorem overlay_none (old : κ → Option β) : overlay (fun _ => none) old = old := by
  funext k
  simp [overlay]

theorem overlay_of_some {t old : κ → Option β} {k : κ} {v : β} (h : t k = some v) :
    overlay t old k = some v := by
  simp [overlay, h]

theorem Zone.Marked.of_blank {k : κ} {V : β → Prop} (h : z.Blank) : z.Marked k V := by
  rintro n (hn | ⟨d, hd, -⟩)
  · rw [h.owner] at hn
    cases hn
  · rw [h.delegation] at hd
    cases hd

section Clearing

variable [DecidableEq ν]

theorem Zone.below_eq_true :
    z.below n c = true ↔ ∃ d, z.delegation c = some d ∧ d.parent = n := by
  unfold Zone.below
  cases z.delegation c <;> simp

/-- Clearing leaves the other nodes alone. -/
theorem Zone.same_clear (h : z.below n m = false) : Zone.Same m z (z.clear n) := by
  constructor <;> simp [Zone.clear, h]

theorem Zone.Apart.not_below (h : z.Apart) (hown : (z.owner m).isSome = true) (n : ν) :
    z.below n m = false := by
  simp [Zone.below, h m hown]

@[simp] theorem Zone.clear_owner (z : Zone α ν ℓ κ χ β) (n : ν) :
    (z.clear n).owner = z.owner := rfl

end Clearing

variable [DecidableEq α] [DecidableEq ν] [DecidableEq κ] [DecidableEq χ]
  {e : Edit α ν ℓ κ χ β}

/-! ## The node an edit is about -/

/-- The node an edit is about. -/
def Edit.node : Edit α ν ℓ κ χ β → ν
  | .vacate n _ | .issue n _ _ | .handOver n _ _ _ | .anchor n _ | .offer n _
  | .accept n _ _ | .reject n _ | .withdraw n | .setRecord n _ _ | .setText n _ _ => n

/-- The edits that take a name from its owner, if it has one. -/
def Edit.takes : Edit α ν ℓ κ χ β → Bool
  | .vacate _ _ | .issue _ _ _ | .handOver _ _ _ _ => true
  | .anchor _ _ | .offer _ _ | .accept _ _ _ | .reject _ _ | .withdraw _
  | .setRecord _ _ _ | .setText _ _ _ => false

/-- The zone in which an edit changes its node. -/
def Edit.base (z : Zone α ν ℓ κ χ β) (e : Edit α ν ℓ κ χ β) : Zone α ν ℓ κ χ β :=
  if e.takes then z.clear e.node else z

/-- An edit changes only its node, in the zone where the subnames below a taken
name are cleared. -/
theorem Edit.same_off (z : Zone α ν ℓ κ χ β) (e : Edit α ν ℓ κ χ β) (hm : m ≠ e.node) :
    Zone.Same m (e.base z) (e.apply z) := by
  cases e <;> simp only [Edit.node] at hm <;> constructor <;>
    simp [Edit.base, Edit.takes, Edit.node, Edit.apply, hm]

/-- A node other than the edited one, and not below a taken name, is left alone. -/
theorem Edit.same (z : Zone α ν ℓ κ χ β) (e : Edit α ν ℓ κ χ β) (hm : m ≠ e.node)
    (hb : z.below e.node m = false) : Zone.Same m z (e.apply z) := by
  refine Zone.Same.trans ?_ (e.same_off z hm)
  unfold Edit.base
  split
  · exact Zone.same_clear hb
  · exact ⟨rfl, rfl, fun _ => rfl, rfl, rfl⟩

/-- Rule for what is said of each node: it is kept by an edit if it is true of
cleared subnames and of the edited node. -/
theorem Edit.forall_apply {P : Zone α ν ℓ κ χ β → ν → Prop}
    (hsame : ∀ z z' m, Zone.Same m z z' → P z m → P z' m) (hz : ∀ m, P z m)
    (hbelow : ∀ n c, z.below n c = true → P (z.clear n) c) (hnode : P (e.apply z) e.node)
    (m : ν) : P (e.apply z) m := by
  by_cases hm : m = e.node
  · rw [hm]
    exact hnode
  · refine hsame _ _ m (e.same_off z hm) ?_
    unfold Edit.base
    split
    · cases hb : z.below e.node m with
      | true => exact hbelow _ m hb
      | false => exact hsame _ _ m (Zone.same_clear hb) (hz m)
    · exact hz m

/-! ## Names and subnames are apart -/

theorem Zone.Apart.apply (hen : e.Enabled z) (h : z.Apart) : (e.apply z).Apart := by
  refine Edit.forall_apply (P := fun z n => (z.owner n).isSome = true → z.delegation n = none)
    ?_ h ?_ ?_
  · intro z z' m hs hm hown
    rw [hs.delegation]
    exact hm (by rwa [hs.owner] at hown)
  · intro n c hb _
    simp [Zone.clear, hb]
  · cases e with
    | vacate n a => simp [Edit.apply, Edit.node]
    | issue n b t => simp [Edit.apply, Edit.node, Zone.clear, hen.1]
    | handOver n a b t =>
      have hn := h n (by rw [hen.1]; rfl)
      simp [Edit.apply, Edit.node, Zone.clear, hn]
    | anchor n t => exact h n
    | offer c d => simp [Edit.apply, Edit.node, hen.2.1]
    | accept c a t =>
      obtain ⟨⟨d, hd, -⟩, -⟩ := hen
      simp [Edit.apply, Edit.node, h.unowned hd]
    | reject c a =>
      obtain ⟨d, hd, -⟩ := hen
      simp [Edit.apply, Edit.node, h.unowned hd]
    | withdraw c => simp [Edit.apply, Edit.node]
    | setRecord n k v => exact h n
    | setText n x v => exact h n

/-! ## Data belongs to a name or an active subname -/

theorem Zone.Rooted.apply (hen : e.Enabled z) (h : z.Rooted) : (e.apply z).Rooted := by
  refine Edit.forall_apply (P := fun z n => z.owner n = none → ¬ z.Active n → z.Bare n)
    ?_ h ?_ ?_
  · intro z z' m hs hm hown hact
    unfold Zone.Active at hact
    unfold Zone.Bare
    rw [hs.delegation] at hact
    rw [hs.record, hs.text]
    exact hm (by rwa [hs.owner] at hown) hact
  · intro n c hb _ _
    simp [Zone.Bare, Zone.clear, hb]
  · intro hown hact
    cases e with
    | vacate n a => simp [Edit.apply, Edit.node, Zone.Bare]
    | issue n b t => simp [Edit.apply, Edit.node] at hown
    | handOver n a b t => simp [Edit.apply, Edit.node] at hown
    | anchor n t | setRecord n k v | setText n x v =>
      have hnone : z.owner n = none := hown
      have hsome : (z.owner n).isSome = true := hen
      rw [hnone] at hsome
      cases hsome
    | offer c d => exact h c hen.2.1 (Zone.not_active_of_none hen.1)
    | accept c a t =>
      obtain ⟨⟨d, hd, -⟩, -⟩ := hen
      exact absurd ⟨d.at .active, by simp [Edit.apply, Edit.node, hd], rfl⟩ hact
    | reject c a =>
      obtain ⟨d, hd, hs, -⟩ := hen
      exact h c hown (Zone.not_active_of_stage hd (by simp [hs]))
    | withdraw c =>
      obtain ⟨d, hd⟩ := Option.isSome_iff_exists.mp hen
      by_cases hs : d.stage = .active
      · simp [Edit.apply, Edit.node, Zone.Bare, hd, hs]
      · simpa [Edit.apply, Edit.node, Zone.Bare, hd, hs] using
          h c hown (Zone.not_active_of_stage hd hs)

/-! ## Records of the service -/

/-- The table the service writes with an edit. -/
def Edit.table : Edit α ν ℓ κ χ β → Option (κ → Option β)
  | .issue _ _ t | .handOver _ _ _ t | .anchor _ t | .accept _ _ t => some t
  | .vacate _ _ | .offer _ _ | .reject _ _ | .withdraw _ | .setRecord _ _ _
  | .setText _ _ _ => none

/-- The edit stores no record of kind `k` for an owner. -/
def Edit.Spares (k : κ) : Edit α ν ℓ κ χ β → Prop
  | .setRecord _ j _ => j ≠ k
  | .vacate _ _ | .issue _ _ _ | .handOver _ _ _ _ | .anchor _ _ | .offer _ _
  | .accept _ _ _ | .reject _ _ | .withdraw _ | .setText _ _ _ => True

/-- The tables of the service give kind `k` a value that meets `V`. -/
def Edit.Marks (k : κ) (V : β → Prop) (e : Edit α ν ℓ κ χ β) : Prop :=
  ∀ t, e.table = some t → ∃ v, t k = some v ∧ V v

theorem Zone.Marked.apply {k : κ} {V : β → Prop} (hen : e.Enabled z) (hap : z.Apart)
    (hspare : e.Spares k) (hmark : e.Marks k V) (h : z.Marked k V) :
    (e.apply z).Marked k V := by
  refine Edit.forall_apply (P := fun z n => (z.owner n).isSome = true ∨ z.Active n →
    ∃ v, z.record n k = some v ∧ V v) ?_ h ?_ ?_
  · intro z z' m hs hm hor
    unfold Zone.Active at hor
    rw [hs.owner, hs.delegation] at hor
    rw [hs.record]
    exact hm hor
  · -- a cleared subname is neither owned nor active
    intro n c hb hor
    obtain ⟨d, hd, -⟩ := Zone.below_eq_true.mp hb
    simp [Zone.clear, Zone.Active, hb, hap.unowned hd] at hor
  · intro hor
    cases e with
    | vacate n a =>
      have hn := hap n (by rw [hen]; rfl)
      simp [Edit.apply, Edit.node, Zone.Active, Zone.clear, hn] at hor
    | issue n b t =>
      obtain ⟨v, hv, hV⟩ := hmark t rfl
      exact ⟨v, by simp [Edit.apply, Edit.node, overlay_of_some hv], hV⟩
    | handOver n a b t =>
      obtain ⟨v, hv, hV⟩ := hmark t rfl
      exact ⟨v, by simp [Edit.apply, Edit.node, hv], hV⟩
    | anchor n t =>
      obtain ⟨v, hv, hV⟩ := hmark t rfl
      exact ⟨v, by simp [Edit.apply, Edit.node, overlay_of_some hv], hV⟩
    | offer c d =>
      simp [Edit.apply, Edit.node, Zone.Active, hen.2.1, hen.2.2] at hor
    | accept c a t =>
      obtain ⟨v, hv, hV⟩ := hmark t rfl
      exact ⟨v, by simp [Edit.apply, Edit.node, overlay_of_some hv], hV⟩
    | reject c a =>
      obtain ⟨d, hd, -⟩ := hen
      simp [Edit.apply, Edit.node, Zone.Active, Delegation.at, hd, hap.unowned hd] at hor
    | withdraw c =>
      obtain ⟨d, hd⟩ := Option.isSome_iff_exists.mp hen
      simp [Edit.apply, Edit.node, Zone.Active, hap.unowned hd] at hor
    | setRecord n j w =>
      obtain ⟨v, hv, hV⟩ := h n hor
      have hj : k ≠ j := Ne.symm hspare
      exact ⟨v, by simp [Edit.apply, Edit.node, hj, hv], hV⟩
    | setText n x w => exact h n hor

/-- Issuing a name and then writing the service's records. -/
theorem Edit.anchor_issue (z : Zone α ν ℓ κ χ β) (n : ν) (b : α) (t : κ → Option β) :
    (Edit.anchor n t).apply ((Edit.issue n b fun _ => none).apply z)
      = (Edit.issue n b t).apply z := by
  simp [Edit.apply]

/-- A spared record is one that was there or one of the service's table. -/
theorem Edit.record_cases {k : κ} {v : β} (hspare : e.Spares k)
    (hv : (e.apply z).record m k = some v) :
    z.record m k = some v ∨ m = e.node ∧ ∃ t, e.table = some t ∧ t k = some v := by
  have hover : ∀ {t old : κ → Option β}, overlay t old k = some v →
      t k = some v ∨ old k = some v := by
    intro t old h
    cases ht : t k with
    | none => exact Or.inr (by simpa [overlay, ht] using h)
    | some w => exact Or.inl (by simpa [overlay, ht] using h)
  have hclear : ∀ n, (z.clear n).record m k = some v → z.record m k = some v := by
    intro n h
    simp only [Zone.clear] at h
    split at h
    · cases h
    · exact h
  cases e with
  | vacate n a =>
    simp only [Edit.apply, Function.update_apply] at hv
    split at hv
    · cases hv
    · exact Or.inl (hclear n hv)
  | issue n b t =>
    simp only [Edit.apply, Function.update_apply] at hv
    split at hv
    · next hm =>
      rcases hover hv with ht | hold
      · exact Or.inr ⟨hm, t, rfl, ht⟩
      · split at hold
        · exact Or.inl (hclear n (hm ▸ hold))
        · cases hold
    · exact Or.inl (hclear n hv)
  | handOver n a b t =>
    simp only [Edit.apply, Function.update_apply] at hv
    split at hv
    · next hm => exact Or.inr ⟨hm, t, rfl, hv⟩
    · exact Or.inl (hclear n hv)
  | anchor n t | accept n _ t =>
    simp only [Edit.apply, Function.update_apply] at hv
    split at hv
    · next hm => exact (hover hv).symm.imp (hm ▸ ·) fun ht => ⟨hm, t, rfl, ht⟩
    · exact Or.inl hv
  | offer c d => exact Or.inl hv
  | reject c a => exact Or.inl hv
  | withdraw c =>
    simp only [Edit.apply, Function.update_apply] at hv
    split at hv
    · next hm =>
      split at hv
      · cases hv
      · exact Or.inl (hm ▸ hv)
    · exact Or.inl hv
  | setRecord n j w =>
    have hj : k ≠ j := Ne.symm hspare
    simp only [Edit.apply, Function.update_apply] at hv
    split at hv
    · next hm =>
      rw [Function.update_of_ne hj] at hv
      exact Or.inl (hm ▸ hv)
    · exact Or.inl hv
  | setText n x w => exact Or.inl hv

/-- Owners store values that meet `V` under kind `k`. -/
def Edit.Stores (k : κ) (V : β → Prop) : Edit α ν ℓ κ χ β → Prop
  | .setRecord _ j v => j = k → V v
  | .vacate _ _ | .issue _ _ _ | .handOver _ _ _ _ | .anchor _ _ | .offer _ _
  | .accept _ _ _ | .reject _ _ | .withdraw _ | .setText _ _ _ => True

/-- If what owners store and what the service writes under kind `k` meets `V`, so does
every record of that kind. -/
theorem Edit.record_all {k : κ} {V : β → Prop} (hstore : e.Stores k V)
    (htable : ∀ t, e.table = some t → ∀ v, t k = some v → V v)
    (h : ∀ m v, z.record m k = some v → V v) (m : ν) (v : β)
    (hv : (e.apply z).record m k = some v) : V v := by
  by_cases hspare : e.Spares k
  · rcases e.record_cases hspare hv with hold | ⟨-, t, ht, hk⟩
    · exact h m v hold
    · exact htable t ht v hk
  · cases e with
    | setRecord n j w =>
      obtain rfl : j = k := not_not.mp hspare
      simp only [Edit.apply, Function.update_apply] at hv
      split at hv
      · rw [Function.update_self] at hv
        exact Option.some.inj hv ▸ hstore rfl
      · exact h m v hv
    | _ => exact absurd trivial hspare

/-! ## What the service wrote last -/

/-- The table of an edit in a log of what the service wrote. -/
def Edit.note (log : ν → κ → Option β) (e : Edit α ν ℓ κ χ β) : ν → κ → Option β :=
  match e.table with
  | some t => Function.update log e.node (overlay t (log e.node))
  | none => log

/-- Records of the kinds `K` have the value that is in the log. -/
def Zone.Logged (K : κ → Prop) (log : ν → κ → Option β) (z : Zone α ν ℓ κ χ β) : Prop :=
  ∀ n k v, K k → z.record n k = some v → log n k = some v

omit [DecidableEq α] [DecidableEq ν] [DecidableEq κ] [DecidableEq χ] in
theorem Zone.Logged.of_blank {K : κ → Prop} {log : ν → κ → Option β} (h : z.Blank) :
    z.Logged K log := by
  intro n k v _ hv
  rw [h.record] at hv
  cases hv

/-- The values of its table are stored by an edit. -/
theorem Edit.record_table {t : κ → Option β} {k : κ} {w : β} (ht : e.table = some t)
    (hk : t k = some w) : (e.apply z).record e.node k = some w := by
  cases e with
  | issue n b t' | anchor n t' | accept n a t' =>
    cases ht
    simp [Edit.apply, Edit.node, overlay_of_some hk]
  | handOver n a b t' =>
    cases ht
    simpa [Edit.apply, Edit.node] using hk
  | _ => cases ht

theorem Zone.Logged.apply {K : κ → Prop} {log : ν → κ → Option β}
    (hspare : ∀ k, K k → e.Spares k) (h : z.Logged K log) :
    (e.apply z).Logged K (e.note log) := by
  intro n k v hk hv
  unfold Edit.note
  cases htable : e.table with
  | none =>
    rcases e.record_cases (hspare k hk) hv with hold | ⟨-, t, ht, -⟩
    · exact h n k v hk hold
    · rw [htable] at ht
      cases ht
  | some t =>
    show Function.update log e.node (overlay t (log e.node)) n k = some v
    by_cases hn : n = e.node
    · subst hn
      rw [Function.update_self]
      cases htk : t k with
      | some w =>
        rw [Edit.record_table htable htk] at hv
        rw [overlay_of_some htk, hv]
      | none =>
        rcases e.record_cases (hspare k hk) hv with hold | ⟨-, t', ht', htk'⟩
        · simpa [overlay, htk] using h _ k v hk hold
        · rw [htable, Option.some.injEq] at ht'
          subst ht'
          rw [htk] at htk'
          cases htk'
    · rw [Function.update_of_ne hn]
      rcases e.record_cases (hspare k hk) hv with hold | ⟨hnode, -⟩
      · exact h n k v hk hold
      · exact absurd hnode hn

theorem Leads.logged {K : κ → Prop} {log : ν → κ → Option β}
    {es : List (Edit α ν ℓ κ χ β)} (hspare : ∀ e ∈ es, ∀ k, K k → e.Spares k)
    (h : Leads z es z') (hz : z.Logged K log) : z'.Logged K (es.foldl Edit.note log) := by
  induction es generalizing z log with
  | nil =>
    obtain ⟨-, rfl⟩ := h
    exact hz
  | cons e es ih =>
    exact ih (fun e' he' => hspare e' (List.mem_cons_of_mem _ he')) (z := e.apply z)
      ⟨h.1.2, h.2⟩ (hz.apply (hspare e List.mem_cons_self))

/-! ## The life cycle of a delegation -/

/-- What an edit can do to the delegation of `c`. -/
inductive Edit.Moves (z : Zone α ν ℓ κ χ β) (c : ν) :
    Edit α ν ℓ κ χ β → Option (Delegation α ν ℓ) → Prop where
  | stays {e : Edit α ν ℓ κ χ β} : Moves z c e (z.delegation c)
  | offered {d : Delegation α ν ℓ} : z.delegation c = none → d.stage = .offered →
      Moves z c (.offer c d) (some d)
  | accepted {d : Delegation α ν ℓ} {t : κ → Option β} : z.delegation c = some d →
      d.stage = .offered → Moves z c (.accept c d.target t) (some (d.at .active))
  | rejected {d : Delegation α ν ℓ} : z.delegation c = some d → d.stage = .offered →
      Moves z c (.reject c d.target) (some (d.at .rejected))
  | withdrawn {d : Delegation α ν ℓ} : z.delegation c = some d → Moves z c (.withdraw c) none
  | cleared {d : Delegation α ν ℓ} {e : Edit α ν ℓ κ χ β} : z.delegation c = some d →
      e.takes = true → e.node = d.parent → Moves z c e none

omit [DecidableEq α] [DecidableEq κ] [DecidableEq χ] in
/-- Clearing below a taken name ends a delegation below it and no other. -/
theorem Edit.Moves.clear (ht : e.takes = true) (c : ν) :
    e.Moves z c ((z.clear e.node).delegation c) := by
  cases hb : z.below e.node c with
  | true =>
    obtain ⟨d, hd, hp⟩ := Zone.below_eq_true.mp hb
    have hnone : (z.clear e.node).delegation c = none := by simp [Zone.clear, hb]
    rw [hnone]
    exact .cleared hd ht hp.symm
  | false =>
    rw [(Zone.same_clear hb).delegation]
    exact .stays

theorem Edit.moves (hen : e.Enabled z) (c : ν) : e.Moves z c ((e.apply z).delegation c) := by
  cases e with
  | vacate n a => exact Moves.clear (e := .vacate n a) rfl c
  | issue n b t => exact Moves.clear (e := .issue n b t) rfl c
  | handOver n a b t => exact Moves.clear (e := .handOver n a b t) rfl c
  | anchor n t => exact .stays
  | offer c' d =>
    simp only [Edit.apply, Function.update_apply]
    split
    · next hc =>
      subst hc
      exact .offered hen.1 hen.2.2
    · exact .stays
  | accept c' a t =>
    obtain ⟨⟨d, hd, hs, rfl⟩, -⟩ := hen
    simp only [Edit.apply, Function.update_apply, hd]
    split
    · next hc =>
      subst hc
      exact .accepted hd hs
    · exact .stays
  | reject c' a =>
    obtain ⟨d, hd, hs, rfl⟩ := hen
    simp only [Edit.apply, Function.update_apply, hd]
    split
    · next hc =>
      subst hc
      exact .rejected hd hs
    · exact .stays
  | withdraw c' =>
    obtain ⟨d, hd⟩ := Option.isSome_iff_exists.mp hen
    simp only [Edit.apply, Function.update_apply]
    split
    · next hc =>
      subst hc
      exact .withdrawn hd
    · exact .stays
  | setRecord n k v => exact .stays
  | setText n x v => exact .stays

theorem Leads.moves (h : Leads z [e] z') (c : ν) : e.Moves z c (z'.delegation c) := by
  obtain ⟨hen, rfl⟩ := h.of_single
  exact e.moves hen c

/-! ## New owners -/

/-- The edit makes `a` the owner of `n`, with the records of the table. -/
inductive Edit.Gives (n : ν) (a : α) (t : κ → Option β) : Edit α ν ℓ κ χ β → Prop where
  | issue : Gives n a t (.issue n a t)
  | handOver {x : α} : Gives n a t (.handOver n x a t)

/-- A name gets an owner only by an edit that gives it. -/
theorem Edit.owner_cases (h : (e.apply z).owner n = some a) :
    z.owner n = some a ∨ ∃ t, e.Gives n a t := by
  cases e with
  | vacate m x =>
    simp only [Edit.apply, Function.update_apply] at h
    split at h
    · cases h
    · exact Or.inl h
  | issue m b t =>
    simp only [Edit.apply, Function.update_apply] at h
    split at h
    · next hn =>
      cases h
      subst hn
      exact Or.inr ⟨t, .issue⟩
    · exact Or.inl h
  | handOver m x b t =>
    simp only [Edit.apply, Function.update_apply] at h
    split at h
    · next hn =>
      cases h
      subst hn
      exact Or.inr ⟨t, .handOver⟩
    · exact Or.inl h
  | _ => exact Or.inl h

omit [DecidableEq α] [DecidableEq ν] [DecidableEq κ] [DecidableEq χ] in
theorem Edit.Gives.node_eq {t : κ → Option β} (h : e.Gives n a t) : e.node = n := by
  cases h <;> rfl

/-- The records of a name that gets an owner are the service's. -/
theorem Edit.Gives.record {t : κ → Option β} (h : e.Gives n a t) (hen : e.Enabled z)
    (hr : z.Rooted) : (e.apply z).record n = t := by
  cases h with
  | issue =>
    have hcleared : (fun k => if z.owner n = none then (z.clear n).record n k else none)
        = fun _ => none := by
      funext k
      split
      · next hnone =>
        have hbare := (hr n hnone (Zone.not_active_of_none hen.1)).1 k
        simp [Zone.clear, Zone.below, hen.1, hbare]
      · rfl
    simp only [Edit.apply, Function.update_self, hcleared]
    funext k
    simp [overlay]
  | handOver => simp [Edit.apply]

/-- It has no delegations below it. -/
theorem Edit.Gives.delegation {t : κ → Option β} (h : e.Gives n a t) (c : ν) :
    (e.apply z).delegation c = (z.clear n).delegation c := by
  cases h <;> rfl

/-! ## Who is on record as the holder of a name -/

/-- If `a` owns `n`, it is on record as holding it. -/
def Zone.Entered (z : Zone α ν ℓ κ χ β) (a : α) (n : ν) : Prop :=
  z.owner n = some a → z.held a n = true

/-- Only a hand-over to `a` can make `a` an owner that is not on record. -/
theorem Zone.Entered.apply (hen : e.Enabled z) (hap : z.Apart) (h : z.Entered a n)
    (hhand : ∀ x t, e = .handOver n x a t → z.owner n = some a) :
    (e.apply z).Entered a n := by
  intro hown
  -- an edit of another node changes nothing of a name
  by_cases hn : n = e.node
  · cases e with
    | vacate m x =>
      obtain rfl : n = m := hn
      simp [Edit.apply] at hown
    | issue m b t =>
      obtain rfl : n = m := hn
      obtain rfl : b = a := by simpa [Edit.apply] using hown
      simp [Edit.apply]
    | handOver m x b t =>
      obtain rfl : n = m := hn
      obtain rfl : b = a := by simpa [Edit.apply] using hown
      have hheld := h (hhand x t rfl)
      rw [hen.2 n] at hheld
      cases hheld
    | anchor m t => exact h hown
    | offer c d => exact h hown
    | accept c x t =>
      have hheld := h hown
      simp only [Edit.apply]
      split
      · rfl
      · exact hheld
    | reject c x => exact h hown
    | withdraw c =>
      obtain rfl : n = c := hn
      have hnone := hap n (by rw [show z.owner n = some a from hown]; rfl)
      have hsome : (z.delegation n).isSome = true := hen
      rw [hnone] at hsome
      cases hsome
    | setRecord m k v => exact h hown
    | setText m x v => exact h hown
  · have hs := e.same_off z hn
    rw [hs.owner] at hown
    rw [hs.held]
    have hbase : (e.base z).owner n = z.owner n := by
      unfold Edit.base
      split <;> rfl
    have hz : z.owner n = some a := hbase ▸ hown
    unfold Edit.base
    split
    · rw [(Zone.same_clear (hap.not_below (by rw [hz]; rfl) _)).held]
      exact h hz
    · exact h hz

/-- An owner on record stays on record while it is the owner, if hand-overs come
alone. -/
theorem Leads.entered {es : List (Edit α ν ℓ κ χ β)}
    (hes : (∃ e, es = [e]) ∨ ∀ e ∈ es, ∀ x t, e ≠ .handOver n x a t) (h : Leads z es z')
    (hap : z.Apart) (hown : z.owner n = some a) (hheld : z.held a n = true) :
    z'.Entered a n := by
  rcases hes with ⟨e, rfl⟩ | hes
  · obtain ⟨hen, rfl⟩ := h.of_single
    exact Zone.Entered.apply hen hap (fun _ => hheld) fun _ _ _ => hown
  · refine (h.invariant (I := fun z => z.Apart ∧ z.Entered a n) (fun z e he hen hz => ?_)
      ⟨hap, fun _ => hheld⟩).2
    exact ⟨hz.1.apply hen, hz.2.apply hen hz.1 fun x t heq => absurd heq (hes e he x t)⟩

end Zones
