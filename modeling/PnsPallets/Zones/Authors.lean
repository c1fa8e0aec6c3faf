import PnsPallets.Zones.Upkeep

/-!
# Who wrote what a zone stores

What an owner stores under a name is gone when the name changes hands, but for the texts:
a hand-over keeps them. So a record of a kind that the service does not write itself is
either stored by the edit or was there before, under the same owner (`Edit.record_author`);
a text is either stored by the edit or was there before (`Edit.text_author`). And an edit
changes what is said of its own node, and of the nodes below if it takes the name, only
(`Edit.node_or_below`, `Edit.node_of_spare`).
-/

namespace Zones

open Frame

variable {α ν ℓ κ χ β : Type} [DecidableEq α] [DecidableEq ν] [DecidableEq κ] [DecidableEq χ]
  {z z' : Zone α ν ℓ κ χ β} {e : Edit α ν ℓ κ χ β} {es : List (Edit α ν ℓ κ χ β)} {m : ν} {k : κ}
  {x : χ} {v : β}

/-- The service has no record of kind `k` to write with the edit. -/
def Edit.Leaves (k : κ) (e : Edit α ν ℓ κ χ β) : Prop := ∀ t, e.table = some t → t k = none

omit [DecidableEq κ] in
theorem overlay_of_none {t old : κ → Option β} (ht : t k = none) : overlay t old k = old k := by
  simp [overlay, ht]

/-- Off its node an edit changes no owner, and keeps a record or clears it. -/
theorem Edit.stored_off (e : Edit α ν ℓ κ χ β) (hm : m ≠ e.node) :
    (e.apply z).owner m = z.owner m ∧
      (∀ k v, (e.apply z).record m k = some v → z.record m k = some v) ∧
      ∀ x v, (e.apply z).text m x = some v → z.text m x = some v := by
  have hoff := e.same_off z hm
  have hclear : ∀ n, (z.clear n).owner m = z.owner m ∧
      (∀ k v, (z.clear n).record m k = some v → z.record m k = some v) ∧
      ∀ x v, (z.clear n).text m x = some v → z.text m x = some v := by
    intro n
    cases hb : z.below n m <;> simp [Zone.clear, hb]
  have hbase : (e.base z).owner m = z.owner m ∧
      (∀ k v, (e.base z).record m k = some v → z.record m k = some v) ∧
      ∀ x v, (e.base z).text m x = some v → z.text m x = some v := by
    unfold Edit.base
    split
    · exact hclear e.node
    · exact ⟨rfl, fun _ _ h => h, fun _ _ h => h⟩
  rw [hoff.owner, hoff.record, hoff.text]
  exact hbase

/-- A record that is not the service's is stored by the edit, or was there before under the
same owner. -/
theorem Edit.record_author (hroot : z.Rooted) (hen : e.Enabled z) (hk : e.Leaves k)
    (hv : (e.apply z).record m k = some v) :
    e = .setRecord m k v ∨ z.record m k = some v ∧ (e.apply z).owner m = z.owner m := by
  by_cases hm : m = e.node
  · subst hm
    cases e with
    | vacate n a => simp [Edit.apply, Edit.node] at hv
    | issue n b t =>
      -- where there was no owner, nothing was stored
      have hbare := fun hnone => hroot n hnone (Zone.not_active_of_none hen.1)
      simp only [Edit.apply, Edit.node, Function.update_self, overlay_of_none (hk t rfl)] at hv
      split at hv
      · next hnone =>
        have hclear : (z.clear n).record n k = none := by
          simp [Zone.clear, (hbare hnone).1 k]
        rw [hclear] at hv
        cases hv
      · cases hv
    | handOver n a b t =>
      simp [Edit.apply, Edit.node, hk t rfl] at hv
    | anchor n t =>
      simp only [Edit.apply, Edit.node, Function.update_self, overlay_of_none (hk t rfl)] at hv
      exact Or.inr ⟨hv, rfl⟩
    | accept c a t =>
      simp only [Edit.apply, Edit.node, Function.update_self, overlay_of_none (hk t rfl)] at hv
      exact Or.inr ⟨hv, rfl⟩
    | withdraw c =>
      simp only [Edit.apply, Edit.node, Function.update_self] at hv
      split at hv
      · cases hv
      · exact Or.inr ⟨hv, rfl⟩
    | setRecord n j w =>
      simp only [Edit.apply, Edit.node, Function.update_self, Function.update_apply] at hv
      split at hv
      · next hj =>
        subst hj
        cases hv
        exact Or.inl rfl
      · exact Or.inr ⟨hv, rfl⟩
    | offer c d => exact Or.inr ⟨hv, rfl⟩
    | reject c a => exact Or.inr ⟨hv, rfl⟩
    | setText n y w => exact Or.inr ⟨hv, rfl⟩
  · obtain ⟨hown, hrec, -⟩ := e.stored_off hm
    exact Or.inr ⟨hrec k v hv, hown⟩

/-- A text is stored by the edit, or was there before, and the name still has an owner if it
had one. -/
theorem Edit.text_author (hroot : z.Rooted) (hen : e.Enabled z)
    (hv : (e.apply z).text m x = some v) :
    e = .setText m x v ∨ z.text m x = some v ∧
      ((z.owner m).isSome = true → ((e.apply z).owner m).isSome = true) := by
  by_cases hm : m = e.node
  · subst hm
    cases e with
    | vacate n a => simp [Edit.apply, Edit.node] at hv
    | issue n b t =>
      have hbare := fun hnone => hroot n hnone (Zone.not_active_of_none hen.1)
      simp only [Edit.apply, Edit.node, Function.update_self] at hv
      split at hv
      · next hnone =>
        have hclear : (z.clear n).text n x = none := by
          simp [Zone.clear, (hbare hnone).2 x]
        rw [hclear] at hv
        cases hv
      · cases hv
    | handOver n a b t =>
      simp only [Edit.apply, Edit.node, Zone.clear] at hv
      split at hv
      · cases hv
      · exact Or.inr ⟨hv, fun _ => by simp [Edit.apply, Edit.node]⟩
    | withdraw c =>
      simp only [Edit.apply, Edit.node, Function.update_self] at hv
      split at hv
      · cases hv
      · exact Or.inr ⟨hv, id⟩
    | setText n y w =>
      simp only [Edit.apply, Edit.node, Function.update_self, Function.update_apply] at hv
      split at hv
      · next hy =>
        subst hy
        cases hv
        exact Or.inl rfl
      · exact Or.inr ⟨hv, id⟩
    | anchor n t => exact Or.inr ⟨hv, id⟩
    | accept c a t => exact Or.inr ⟨hv, id⟩
    | offer c d => exact Or.inr ⟨hv, id⟩
    | reject c a => exact Or.inr ⟨hv, id⟩
    | setRecord n j w => exact Or.inr ⟨hv, id⟩
  · obtain ⟨hown, -, htext⟩ := e.stored_off hm
    exact Or.inr ⟨htext x v hv, fun hsome => by rwa [hown]⟩

/-- An edit changes its node, and what is below. -/
theorem Edit.node_or_below (h : ¬ Zone.Same m z (e.apply z)) :
    m = e.node ∨ z.below e.node m = true := by
  by_contra hoff
  rw [not_or, Bool.not_eq_true] at hoff
  exact h (e.same z hoff.1 hoff.2)

/-- An edit that takes no name changes its node only. -/
theorem Edit.node_of_spare (ht : e.takes = false) (h : ¬ Zone.Same m z (e.apply z)) :
    m = e.node := by
  by_contra hm
  have hoff := e.same_off z hm
  rw [Edit.base, if_neg (by simp [ht])] at hoff
  exact h hoff

/-- The same for several edits. -/
theorem Leads.record_author (h : Leads z es z') (hroot : z.Rooted)
    (hk : ∀ e ∈ es, e.Leaves k) (hv : z'.record m k = some v) :
    .setRecord m k v ∈ es ∨ z.record m k = some v ∧ z'.owner m = z.owner m := by
  induction es generalizing z with
  | nil =>
    obtain ⟨-, rfl⟩ := h
    exact Or.inr ⟨hv, rfl⟩
  | cons e es ih =>
    have hfirst : e.Leaves k := hk e List.mem_cons_self
    rcases ih (z := e.apply z) ⟨h.1.2, h.2⟩ (hroot.apply h.1.1)
        (fun e' he' => hk e' (List.mem_cons_of_mem _ he')) with hmem | ⟨hmid, hown⟩
    · exact Or.inl (List.mem_cons_of_mem _ hmem)
    · rcases Edit.record_author hroot h.1.1 hfirst hmid with rfl | ⟨hold, hown'⟩
      · exact Or.inl List.mem_cons_self
      · exact Or.inr ⟨hold, hown.trans hown'⟩

theorem Leads.text_author (h : Leads z es z') (hroot : z.Rooted)
    (hv : z'.text m x = some v) :
    .setText m x v ∈ es ∨ z.text m x = some v ∧
      ((z.owner m).isSome = true → (z'.owner m).isSome = true) := by
  induction es generalizing z with
  | nil =>
    obtain ⟨-, rfl⟩ := h
    exact Or.inr ⟨hv, id⟩
  | cons e es ih =>
    rcases ih (z := e.apply z) ⟨h.1.2, h.2⟩ (hroot.apply h.1.1) with hmem | ⟨hmid, hown⟩
    · exact Or.inl (List.mem_cons_of_mem _ hmem)
    · rcases Edit.text_author hroot h.1.1 hmid with rfl | ⟨hold, hown'⟩
      · exact Or.inl List.mem_cons_self
      · exact Or.inr ⟨hold, fun hsome => hown (hown' hsome)⟩

end Zones
