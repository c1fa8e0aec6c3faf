import Mathlib.Algebra.BigOperators.Group.List.Basic
import Mathlib.Data.UInt
import Mathlib.Tactic.Abel
import PnsPallets.Frame.Machine

/-!
# Threads over shared state

A concurrent program whose threads take one atomic action at a time: the scheduler
picks a thread, the action reads and writes the shared state, and the thread moves to
its next point. Threads are spawned at any time, and the environment may change the
shared state by events of its own. Every interleaving is a run of `Program.machine`.

Two rules carry the proofs about such programs:

- `Program.sum_rule`: a quantity of the shared state that every action changes by as much
  as the weight of its thread changes is the sum of the weights of all threads. With the
  weight 1 at some points and 0 elsewhere it counts threads (`count_rule`);
- `Program.local_rule`: an invariant of the shared state and, for each thread, an
  assertion at its point that its own actions establish and no other action breaks.

`Program.logged` keeps a log beside the shared state, for results about what happened
before.
-/

namespace Frame

/-- Shared state, and the threads with the points they are at. -/
structure Threads (σ π : Type) where
  shared : σ
  threads : List π

/-- A concurrent program. `α` is what a thread is spawned with, `χ` what an action is told
from outside, `ε` the events of the environment. -/
structure Program (σ π α χ ε : Type) where
  /-- The initial shared states. -/
  init : σ → Prop
  /-- Where a thread starts. -/
  entry : α → π
  /-- The action of a thread, with its index. -/
  act : ℕ → χ → σ → π → σ × π
  /-- An event of the environment. -/
  env : ε → σ → σ

/-- What the scheduler can do next. -/
inductive Move (α χ ε : Type) where
  | spawn (a : α)
  | act (i : ℕ) (c : χ)
  | env (e : ε)

namespace Program

variable {σ π α χ ε : Type} (P : Program σ π α χ ε)

/-- One move. -/
def step (t : Threads σ π) : Move α χ ε → Threads σ π
  | .spawn a => { t with threads := t.threads ++ [P.entry a] }
  | .act i c =>
    match t.threads[i]? with
    | none => t
    | some p =>
      { shared := (P.act i c t.shared p).1
        threads := t.threads.set i (P.act i c t.shared p).2 }
  | .env e => { t with shared := P.env e t.shared }

/-- All interleavings of the program. -/
def machine : Machine (Threads σ π) (Move α χ ε) where
  init t := P.init t.shared ∧ t.threads = []
  step := P.step

variable {P} {t : Threads σ π} {guard : Threads σ π → Move α χ ε → Prop}

theorem step_act {i : ℕ} {c : χ} {p : π} (h : t.threads[i]? = some p) :
    P.step t (.act i c) =
      { shared := (P.act i c t.shared p).1
        threads := t.threads.set i (P.act i c t.shared p).2 } := by
  simp only [step, h]

theorem step_act_none {i : ℕ} {c : χ} (h : t.threads[i]? = none) : P.step t (.act i c) = t := by
  simp only [step, h]

/-- What holds after every kind of move holds after any: a thread is spawned, a thread
acts, the environment acts, or nothing happens. -/
theorem step_cases {Q : Threads σ π → Prop} (m : Move α χ ε)
    (hspawn : ∀ a, m = .spawn a → Q { t with threads := t.threads ++ [P.entry a] })
    (hact : ∀ i c p, m = .act i c → t.threads[i]? = some p →
      Q { shared := (P.act i c t.shared p).1
          threads := t.threads.set i (P.act i c t.shared p).2 })
    (henv : ∀ e, m = .env e → Q { t with shared := P.env e t.shared })
    (hidle : Q t) : Q (P.step t m) := by
  cases m with
  | spawn a => exact hspawn a rfl
  | act i c =>
    cases h : t.threads[i]? with
    | none =>
      rw [step_act_none h]
      exact hidle
    | some p =>
      rw [step_act h]
      exact hact i c p rfl h
  | env e => exact henv e rfl

/-! ## Sums over the threads -/

/-- The sum of weights after one thread has moved. -/
theorem sum_map_set {M : Type} [AddCommGroup M] (w : π → M) {threads : List π} {i : ℕ} {p : π}
    (h : threads[i]? = some p) (p' : π) :
    ((threads.set i p').map w).sum + w p = (threads.map w).sum + w p' := by
  obtain ⟨hi, hp⟩ := List.getElem?_eq_some_iff.mp h
  have hi' : i < (threads.map w).length := by rwa [List.length_map]
  have hget : (threads.map w)[i] = w p := by rw [List.getElem_map, hp]
  rw [List.map_set, List.sum_set', dif_pos hi', hget]
  abel

/-- Sum rule: a quantity that every action changes by as much as the weight of its thread,
and that the environment leaves alone, is the sum of the weights. -/
theorem sum_rule {M : Type} [AddCommGroup M] {q : σ → M} {w : π → M}
    (hinit : ∀ s, P.init s → q s = 0) (hentry : ∀ a, w (P.entry a) = 0)
    (hact : ∀ i c s p, q (P.act i c s p).1 + w p = q s + w (P.act i c s p).2)
    (henv : ∀ e s, q (P.env e s) = q s) (h : P.machine.Reach guard t) :
    q t.shared = (t.threads.map w).sum := by
  refine Machine.Reach.invariant (I := fun t => q t.shared = (t.threads.map w).sum) ?_ ?_ h
  · rintro t ⟨hs, hnil⟩
    rw [hinit _ hs, hnil]
    rfl
  · intro t m ih _
    refine step_cases (Q := fun t => q t.shared = (t.threads.map w).sum) m ?_ ?_ ?_ ih
    · intro a _
      simp [hentry, ih]
    · intro i c p _ hp
      have hsum := sum_map_set w hp (P.act i c t.shared p).2
      have hq := hact i c t.shared p
      rw [ih] at hq
      exact add_right_cancel (hq.trans hsum.symm)
    · intro e _
      exact (henv e t.shared).trans ih

/-- The sum of the weights 1 and 0 is a count, as far as the counter goes. -/
theorem sum_indicator (p : π → Bool) (threads : List π) :
    (threads.map fun x => if p x then (1 : UInt64) else 0).sum
      = UInt64.ofNat (threads.countP p) := by
  induction threads with
  | nil => rfl
  | cons x threads ih =>
    rw [List.map_cons, List.sum_cons, ih, List.countP_cons, UInt64.ofNat_add, add_comm]
    cases p x <;> simp

/-- Count rule: a counter that goes up when a thread comes to one of the points `p`, and
down when it leaves them, is the number of threads at these points. -/
theorem count_rule {q : σ → UInt64} {p : π → Bool}
    (hinit : ∀ s, P.init s → q s = 0) (hentry : ∀ a, p (P.entry a) = false)
    (hact : ∀ i c s x, q (P.act i c s x).1 + (if p x then 1 else 0)
      = q s + if p (P.act i c s x).2 then 1 else 0)
    (henv : ∀ e s, q (P.env e s) = q s) (h : P.machine.Reach guard t) :
    q t.shared = UInt64.ofNat (t.threads.countP p) := by
  rw [← sum_indicator]
  exact sum_rule hinit (fun a => by simp [hentry]) hact henv h

/-- The number of threads at some points after one thread has moved. -/
theorem countP_moved (q : π → Bool) {threads : List π} {i : ℕ} {p : π}
    (h : threads[i]? = some p) (p' : π) :
    (threads.set i p').countP q + (if q p then 1 else 0)
      = threads.countP q + if q p' then 1 else 0 := by
  obtain ⟨hi, hp⟩ := List.getElem?_eq_some_iff.mp h
  have hle := List.boole_getElem_le_countP (p := q) hi
  rw [hp] at hle
  rw [List.countP_set hi, hp]
  omega

/-- Over a run the number of threads at points that no action leaves does not go down. -/
theorem countP_le_of_path {q : π → Bool} {t₀ : Threads σ π} {tr : List (Threads σ π)}
    (hq : ∀ i c s p, q p = true → q (P.act i c s p).2 = true)
    (h : P.machine.Path guard t₀ tr t) : t₀.threads.countP q ≤ t.threads.countP q := by
  induction h with
  | refl => exact le_refl _
  | @step tr t m _ _ ih =>
    refine step_cases (Q := fun t => t₀.threads.countP q ≤ t.threads.countP q) m ?_ ?_ ?_ ih
    · intro a _
      rw [List.countP_append]
      exact ih.trans (Nat.le_add_right _ _)
    · intro i c p _ hp
      have hmoved := countP_moved q hp (P.act i c t.shared p).2
      have hkeep : (if q p then 1 else 0) ≤ if q (P.act i c t.shared p).2 then 1 else 0 := by
        by_cases hqp : q p = true
        · rw [if_pos hqp, if_pos (hq i c t.shared p hqp)]
        · rw [if_neg hqp]
          exact Nat.zero_le _
      dsimp only
      omega
    · intro e _
      exact ih

/-! ## Local assertions -/

theorem getElem?_spawn {threads : List π} {p q : π} {j : ℕ}
    (h : (threads ++ [p])[j]? = some q) :
    threads[j]? = some q ∨ j = threads.length ∧ q = p := by
  rcases Nat.lt_or_ge j threads.length with hj | hj
  · rw [List.getElem?_append_left hj] at h
    exact Or.inl h
  · rw [List.getElem?_append_right hj, List.getElem?_singleton] at h
    split at h
    · next hzero => exact Or.inr ⟨by omega, (Option.some.inj h).symm⟩
    · cases h

theorem getElem?_moved {threads : List π} {p' q : π} {i j : ℕ}
    (h : (threads.set i p')[j]? = some q) : j = i ∧ q = p' ∨ j ≠ i ∧ threads[j]? = some q := by
  rw [List.getElem?_set] at h
  split at h
  · next hij =>
    split at h
    · exact Or.inl ⟨hij.symm, (Option.some.inj h).symm⟩
    · cases h
  · next hij => exact Or.inr ⟨fun hji => hij hji.symm, h⟩

/-- Local rule: `I` holds of the number of threads and the shared state, and `J` of every
thread, if the actions of a thread establish both for itself and keep `J` for the others, and
spawning and the environment keep both. -/
theorem local_rule {I : ℕ → σ → Prop} {J : σ → ℕ → π → Prop}
    (hinit : ∀ s, P.init s → I 0 s)
    (hspawn : ∀ n s a, I n s → I (n + 1) s ∧ J s n (P.entry a))
    (hact : ∀ n i c s p, I n s → i < n → J s i p →
      I n (P.act i c s p).1 ∧ J (P.act i c s p).1 i (P.act i c s p).2 ∧
        ∀ j q, j ≠ i → J s j q → J (P.act i c s p).1 j q)
    (henv : ∀ t e, guard t (.env e) → I t.threads.length t.shared →
      I t.threads.length (P.env e t.shared) ∧
        ∀ j q, J t.shared j q → J (P.env e t.shared) j q)
    (h : P.machine.Reach guard t) :
    I t.threads.length t.shared ∧ ∀ j q, t.threads[j]? = some q → J t.shared j q := by
  refine Machine.Reach.invariant (I := fun t => I t.threads.length t.shared ∧
    ∀ j q, t.threads[j]? = some q → J t.shared j q) ?_ ?_ h
  · rintro t ⟨hs, hnil⟩
    rw [hnil]
    exact ⟨hinit _ hs, fun j q hq => by cases hq⟩
  · rintro t m ⟨hI, hJ⟩ hg
    refine step_cases (Q := fun t => I t.threads.length t.shared ∧
      ∀ j q, t.threads[j]? = some q → J t.shared j q) m ?_ ?_ ?_ ⟨hI, hJ⟩
    · intro a _
      obtain ⟨hI', hnew⟩ := hspawn _ _ a hI
      refine ⟨by simpa using hI', fun j q hq => ?_⟩
      rcases getElem?_spawn hq with hq | ⟨rfl, rfl⟩
      · exact hJ j q hq
      · exact hnew
    · intro i c p _ hp
      obtain ⟨hi, -⟩ := List.getElem?_eq_some_iff.mp hp
      obtain ⟨hI', hself, hothers⟩ := hact _ i c t.shared p hI hi (hJ i p hp)
      refine ⟨by simpa using hI', fun j q hq => ?_⟩
      rcases getElem?_moved hq with ⟨rfl, rfl⟩ | ⟨hne, hq⟩
      · exact hself
      · exact hothers j q hne (hJ j q hq)
    · intro e hm
      subst hm
      obtain ⟨hI', hothers⟩ := henv t e hg hI
      exact ⟨hI', fun j q hq => hothers j q (hJ j q hq)⟩

/-! ## Logs -/

/-- The program that also keeps a log of its actions beside the shared state. -/
def logged {γ : Type} (P : Program σ π α χ ε) (start : γ) (note : ℕ → χ → σ → π → γ → γ) :
    Program (σ × γ) π α χ ε where
  init s := P.init s.1 ∧ s.2 = start
  entry := P.entry
  act i c s p := (((P.act i c s.1 p).1, note i c s.1 p s.2), (P.act i c s.1 p).2)
  env e s := (P.env e s.1, s.2)

end Program

end Frame
