import PnsPallets.Zones.Upkeep

/-!
# Zones without one kind of record

`Zone.forget k` is the zone as somebody sees it who cannot see the records of kind `k`. Edits
that store no such record for an owner act on it alike (`Edit.apply_forget`).
-/

namespace Zones

open Frame

variable {α ν ℓ κ χ β : Type} [DecidableEq α] [DecidableEq ν] [DecidableEq κ] [DecidableEq χ]
  {z : Zone α ν ℓ κ χ β} {e : Edit α ν ℓ κ χ β} {k : κ}

/-- A table without the kind `k`. -/
def without (k : κ) (table : κ → Option β) : κ → Option β := Function.update table k none

/-- The zone without the records of kind `k`. -/
def Zone.forget (k : κ) (z : Zone α ν ℓ κ χ β) : Zone α ν ℓ κ χ β :=
  { z with record := fun n => without k (z.record n) }

/-- The edit without what the service writes of kind `k`. -/
def Edit.forget (k : κ) : Edit α ν ℓ κ χ β → Edit α ν ℓ κ χ β
  | .issue n b table => .issue n b (without k table)
  | .handOver n a b table => .handOver n a b (without k table)
  | .anchor n table => .anchor n (without k table)
  | .accept c a table => .accept c a (without k table)
  | e => e

omit [DecidableEq α] [DecidableEq ν] [DecidableEq χ] in
theorem without_overlay (table old : κ → Option β) :
    without k (overlay table old) = overlay (without k table) (without k old) := by
  funext j
  by_cases hj : j = k
  · simp [without, overlay, hj]
  · simp [without, overlay, hj]

omit [DecidableEq α] [DecidableEq ν] [DecidableEq χ] in
theorem without_apply (table : κ → Option β) (j : κ) :
    without k table j = if j = k then none else table j :=
  Function.update_apply table k none j

omit [DecidableEq α] [DecidableEq χ] in
/-- Clearing below a name and forgetting a kind of records commute. -/
theorem Zone.clear_forget (z : Zone α ν ℓ κ χ β) (n : ν) :
    (z.clear n).forget k = (z.forget k).clear n := by
  ext1
  case record =>
    funext c j
    show without k ((z.clear n).record c) j
      = if z.below n c then none else without k (z.record c) j
    simp only [without_apply, Zone.clear]
    split <;> simp
  all_goals rfl

/-- Forgetting inside a record table that changes at one node. -/
theorem forget_update (record : ν → κ → Option β) (n : ν) (table : κ → Option β) :
    (fun c => without k (Function.update record n table c))
      = Function.update (fun c => without k (record c)) n (without k table) := by
  funext c
  by_cases hc : c = n
  · subst hc
    simp
  · simp [hc]

omit [DecidableEq ν] [DecidableEq χ] [DecidableEq α] in
/-- Forgetting inside a table that is kept or cleared as a whole. -/
theorem without_ite (p : Prop) [Decidable p] (table : κ → Option β) :
    without k (fun j => if p then table j else none)
      = fun j => if p then without k table j else none := by
  funext j
  simp only [without_apply]
  split <;> split <;> rfl

/-- Edits that store no record of kind `k` act on the zone without them as on the zone. -/
theorem Edit.apply_forget (h : e.Spares k) :
    (e.apply z).forget k = (e.forget k).apply (z.forget k) := by
  have hcleared : ∀ n, (fun c => without k ((z.clear n).record c))
      = ((z.forget k).clear n).record :=
    fun n => congrArg Zone.record (z.clear_forget n)
  cases e with
  | vacate n a =>
    ext1
    case record =>
      refine (forget_update _ n _).trans ?_
      rw [hcleared]
      exact congrArg _ (Function.update_eq_self k fun _ : κ => (none : Option β))
    all_goals rfl
  | issue n b table =>
    ext1
    case record =>
      refine (forget_update _ n _).trans ?_
      rw [hcleared, without_overlay, without_ite, show without k ((z.clear n).record n) = _ from
        congrFun (hcleared n) n]
      rfl
    all_goals rfl
  | handOver n a b table =>
    ext1
    case record =>
      refine (forget_update _ n _).trans ?_
      rw [hcleared]
      rfl
    all_goals rfl
  | anchor n table =>
    ext1
    case record =>
      refine (forget_update _ n _).trans ?_
      rw [without_overlay]
      rfl
    all_goals rfl
  | accept c a table =>
    ext1
    case record =>
      refine (forget_update _ c _).trans ?_
      rw [without_overlay]
      rfl
    all_goals rfl
  | withdraw c =>
    ext1
    case record =>
      refine (forget_update _ c _).trans ?_
      congr 1
      funext j
      simp only [without_apply, Zone.forget]
      split <;> split <;> rfl
    all_goals rfl
  | setRecord n j v =>
    ext1
    case record =>
      refine (forget_update _ n _).trans ?_
      have hcomm : without k (Function.update (z.record n) j (some v))
          = Function.update (without k (z.record n)) j (some v) := by
        unfold without
        exact Function.update_comm h _ _ _
      rw [hcomm]
      rfl
    all_goals rfl
  | offer c d => rfl
  | reject c a => rfl
  | setText n x v => rfl

end Zones
