import Mathlib.Tactic.Common

/-!
# Bloom filters

A Bloom filter reports every key that was set since it was made or cleared, and maybe
others. `Bloom` is a kind of filter with this law; a result about all kinds is what a
program can rely on. The filter that reports nothing else, `exactFilter`, shows where a
result cannot be had.
-/

namespace Frame

/-- A kind of Bloom filter over keys of type `K`. -/
structure Bloom (K : Type) where
  Filter : Type
  new : Filter
  set : Filter → K → Filter
  clear : Filter → Filter
  check : Filter → K → Bool
  check_set : ∀ f k, check (set f k) k = true
  check_set_of_check : ∀ f k k', check f k = true → check (set f k') k = true

namespace Bloom

variable {K : Type} (B : Bloom K)

/-- The filters in which nothing has been set. -/
inductive Fresh : B.Filter → Prop
  | new : Fresh B.new
  | clear (f : B.Filter) : Fresh (B.clear f)

/-- Set keys one after the other. -/
def setAll (f : B.Filter) (keys : List K) : B.Filter := keys.foldl B.set f

variable {B} {f : B.Filter} {k : K} {keys : List K}

theorem setAll_concat (f : B.Filter) (keys : List K) (k : K) :
    B.setAll f (keys ++ [k]) = B.set (B.setAll f keys) k := by
  unfold setAll
  rw [List.foldl_append]
  rfl

theorem check_setAll_of_check (h : B.check f k = true) (keys : List K) :
    B.check (B.setAll f keys) k = true := by
  induction keys generalizing f with
  | nil => exact h
  | cons k' keys ih => exact ih (B.check_set_of_check f k k' h)

/-- Every key that was set is reported. -/
theorem check_setAll (f : B.Filter) (h : k ∈ keys) : B.check (B.setAll f keys) k = true := by
  induction keys generalizing f with
  | nil => cases h
  | cons k' keys ih =>
    rcases List.mem_cons.mp h with rfl | h
    · exact check_setAll_of_check (B.check_set f k) keys
    · exact ih (B.set f k') h

/-- The filter without false positives. -/
def exactFilter (K : Type) [DecidableEq K] : Bloom K where
  Filter := List K
  new := []
  set f k := k :: f
  clear _ := []
  check f k := decide (k ∈ f)
  check_set f k := by simp
  check_set_of_check f k k' h := by simp_all

variable [DecidableEq K]

theorem exactFilter_check_eq (f : List K) : (exactFilter K).check f k = true ↔ k ∈ f :=
  decide_eq_true_iff

theorem exactFilter_check_setAll (f : List K) :
    (exactFilter K).check ((exactFilter K).setAll f keys) k = true ↔ k ∈ keys ∨ k ∈ f := by
  induction keys generalizing f with
  | nil => exact (exactFilter_check_eq f).trans (by simp)
  | cons k' keys ih => exact (ih (k' :: f)).trans (by grind)

/-- Nothing is reported but what was set. -/
theorem exactFilter_check {f : (exactFilter K).Filter} (hf : (exactFilter K).Fresh f) :
    (exactFilter K).check ((exactFilter K).setAll f keys) k = true ↔ k ∈ keys := by
  have hnil : f = ([] : List K) := by cases hf <;> rfl
  rw [hnil, exactFilter_check_setAll]
  simp

end Bloom

end Frame
