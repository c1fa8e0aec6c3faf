import PnsPallets.Frame.StorageMap
import PnsPallets.Frame.Threads

/-!
# Rate limiters

A rate limiter decides for a key and a moment whether to let through. It `Conforms` to a
capacity and a period if in no interval it lets one key through more often than the
capacity and once per period of the interval. The generic cell rate algorithm (`gcra`) is
one that does.

In a concurrent program a limiter guards a point: threads ask it there, each with its own
key, and go on to the points behind it if it lets them through. A `Gate` is a limiter in
such a place, and `Gate.bound` carries the limit over to the number of threads behind it,
in every interleaving.
-/

namespace Frame

/-- A rate limiter for keys of type `K`. -/
structure RateLimiter (K : Type) where
  State : Type
  new : State
  /-- Whether to let a key through, and the state afterwards. -/
  check : State → K → ℕ → Bool × State

namespace RateLimiter

variable {K : Type} (l : RateLimiter K)

/-- The state after a sequence of checks. -/
def after (s : l.State) (checks : List (K × ℕ)) : l.State :=
  checks.foldl (fun s c => (l.check s c.1 c.2).2) s

theorem after_concat (s : l.State) (checks : List (K × ℕ)) (c : K × ℕ) :
    l.after s (checks ++ [c]) = (l.check (l.after s checks) c.1 c.2).2 := by
  unfold after
  rw [List.foldl_append]
  rfl

variable [DecidableEq K]

/-- Whether a check lets the key `k` through, as a number. -/
def passes (s : l.State) (k : K) (c : K × ℕ) : ℕ :=
  if c.1 = k ∧ (l.check s c.1 c.2).1 = true then 1 else 0

/-- How often a sequence of checks lets the key `k` through. -/
def admitted (k : K) : l.State → List (K × ℕ) → ℕ
  | _, [] => 0
  | s, c :: checks => l.passes s k c + admitted k (l.check s c.1 c.2).2 checks

/-- In no interval a key is let through more often than `capacity` and once per period. -/
def Conforms (capacity period : ℕ) : Prop :=
  ∀ (s : l.State) (k : K) (checks : List (K × ℕ)) (a b : ℕ),
    (checks.map Prod.snd).Pairwise (· ≤ ·) → (∀ c ∈ checks, a ≤ c.2 ∧ c.2 ≤ b) →
    l.admitted k s checks * period ≤ (b - a) + capacity * period

variable {l}

theorem admitted_concat (s : l.State) (k : K) (checks : List (K × ℕ)) (c : K × ℕ) :
    l.admitted k s (checks ++ [c]) = l.admitted k s checks + l.passes (l.after s checks) k c := by
  induction checks generalizing s with
  | nil => simp [admitted, after]
  | cons c' checks ih =>
    rw [List.cons_append, admitted, ih, admitted, Nat.add_assoc]
    rfl

/-! ## The generic cell rate algorithm -/

/-- The generic cell rate algorithm. Per key it keeps the theoretical arrival time of the
next cell; a cell may come `tau` before it, and moves it on by `t`. -/
def gcra (K : Type) [DecidableEq K] (t tau : ℕ) : RateLimiter K where
  State := StorageMap K ℕ
  new := .empty
  check s k now :=
    let tat := (s.get k).getD (now + t)
    if now + tau < tat then (false, s) else (true, s.insert k (max tat now + t))

section Gcra

variable {t tau : ℕ} {s : (gcra K t tau).State} {k : K} {now : ℕ}

/-- The theoretical arrival time of a key. -/
def arrival (s : (gcra K t tau).State) (k : K) : Option ℕ := StorageMap.get s k

theorem gcra_check_pass (h : ((gcra K t tau).check s k now).1 = true) :
    ∃ tat, (arrival s k).getD (now + t) ≤ tat ∧ now ≤ tat ∧ tat ≤ now + tau ∧
      ∀ j, arrival ((gcra K t tau).check s k now).2 j
        = if j = k then some (tat + t) else arrival s j := by
  have hle : (arrival s k).getD (now + t) ≤ now + tau := by
    by_contra hgt
    rw [show (gcra K t tau).check s k now = (false, s) from if_pos (Nat.not_le.mp hgt)] at h
    cases h
  refine ⟨max ((arrival s k).getD (now + t)) now, le_max_left _ _, le_max_right _ _, by omega,
    fun j => ?_⟩
  rw [show (gcra K t tau).check s k now
    = (true, StorageMap.insert s k (max ((arrival s k).getD (now + t)) now + t)) from
      if_neg (Nat.not_lt.mpr hle)]
  exact StorageMap.get_insert s k j _

theorem gcra_check_fail (h : ((gcra K t tau).check s k now).1 = false) :
    ((gcra K t tau).check s k now).2 = s := by
  unfold gcra at h ⊢
  dsimp only at h ⊢
  split at h
  · next hlt => rw [if_pos hlt]
  · cases h

/-- Once a key was let through, its arrival time has moved on by `t` for every time, and it
is not far ahead of the clock. -/
theorem gcra_after {checks : List (K × ℕ)} {a b : ℕ} (hab : ∀ c ∈ checks, a ≤ c.2 ∧ c.2 ≤ b) :
    (gcra K t tau).admitted k s checks = 0 ∨
      ∃ tat, arrival ((gcra K t tau).after s checks) k = some tat ∧
        a + (gcra K t tau).admitted k s checks * t ≤ tat ∧ tat ≤ b + tau + t := by
  induction checks using List.reverseRecOn with
  | nil => exact Or.inl rfl
  | append_singleton checks c ih =>
    obtain ⟨k', now⟩ := c
    obtain ⟨ha, hb⟩ := hab (k', now) (by simp)
    dsimp only at ha hb
    have hprev := ih fun c hc => hab c (List.mem_append_left _ hc)
    rw [admitted_concat, after_concat]
    cases hcheck : ((gcra K t tau).check ((gcra K t tau).after s checks) k' now).1 with
    | false =>
      rw [gcra_check_fail hcheck]
      simpa [passes, hcheck] using hprev
    | true =>
      obtain ⟨tat, hge, hnow, hle, hstate⟩ := gcra_check_pass hcheck
      rw [hstate]
      by_cases hk : k = k'
      · subst hk
        refine Or.inr ⟨tat + t, if_pos rfl, ?_, by omega⟩
        have hone : (gcra K t tau).passes ((gcra K t tau).after s checks) k (k, now) = 1 := by
          simp [passes, hcheck]
        rw [hone, Nat.add_mul, Nat.one_mul]
        rcases hprev with hzero | ⟨prev, hget, hlow, -⟩
        · rw [hzero]
          omega
        · rw [hget, Option.getD_some] at hge
          omega
      · have hzero : (gcra K t tau).passes ((gcra K t tau).after s checks) k (k', now) = 0 := by
          simp [passes, Ne.symm hk]
        rw [hzero, if_neg hk]
        exact hprev

/-- The generic cell rate algorithm lets a burst through, and then one cell per period. -/
theorem gcra_conforms (K : Type) [DecidableEq K] (t burst : ℕ) :
    (gcra K t (burst * t)).Conforms (burst + 1) t := by
  intro s k checks a b _ hab
  rw [Nat.add_mul, Nat.one_mul]
  rcases gcra_after (s := s) (k := k) hab with hzero | ⟨tat, -, hlow, hhigh⟩
  · rw [hzero]
    omega
  · omega

end Gcra

end RateLimiter

/-! ## Limiters in concurrent programs -/

/-- A limiter at a point of a concurrent program: threads at the gate ask with their key,
and those that are let through are behind the gate from then on. -/
structure Gate {σ π α χ ε : Type} (P : Program σ π α χ ε) (K : Type) where
  limiter : RateLimiter K
  state : σ → limiter.State
  clock : σ → ℕ
  /-- The key of a thread at the gate. -/
  key : π → Option K
  /-- The key of a thread behind the gate. -/
  behind : π → Option K
  behind_entry : ∀ a, behind (P.entry a) = none
  clock_act : ∀ i c s p, clock (P.act i c s p).1 = clock s
  state_env : ∀ e s, state (P.env e s) = state s
  act_elsewhere : ∀ i c s p, key p = none →
    state (P.act i c s p).1 = state s ∧ behind (P.act i c s p).2 = behind p
  act_gate : ∀ i c s p k, key p = some k → behind p = none ∧
    state (P.act i c s p).1 = (limiter.check (state s) k (clock s)).2 ∧
    behind (P.act i c s p).2
      = if (limiter.check (state s) k (clock s)).1 = true then some k else none

namespace Gate

variable {σ π α χ ε K : Type} [DecidableEq K] {P : Program σ π α χ ε} (G : Gate P K)

/-- The number of threads behind the gate with the key `k`. -/
def count (k : K) (t : Threads σ π) : ℕ := t.threads.countP fun p => G.behind p = some k

/-- The checks between two states of a run: in the order of time, they lead from the
limiter's state in the first to that in the second, and every thread that came to be
behind the gate was let through by one. -/
structure Between (t₀ t : Threads σ π) (checks : List (K × ℕ)) : Prop where
  le : G.clock t₀.shared ≤ G.clock t.shared
  sorted : (checks.map Prod.snd).Pairwise (· ≤ ·)
  within : ∀ c ∈ checks, G.clock t₀.shared ≤ c.2 ∧ c.2 ≤ G.clock t.shared
  state : G.state t.shared = G.limiter.after (G.state t₀.shared) checks
  count : ∀ k, G.count k t = G.count k t₀ + G.limiter.admitted k (G.state t₀.shared) checks

variable {G} {t₀ t : Threads σ π} {checks : List (K × ℕ)}

theorem Between.refl (t : Threads σ π) : G.Between t t [] where
  le := le_refl _
  sorted := .nil
  within c hc := by cases hc
  state := rfl
  count k := rfl

theorem Between.spawn (h : G.Between t₀ t checks) (a : α) :
    G.Between t₀ { t with threads := t.threads ++ [P.entry a] } checks where
  le := h.le
  sorted := h.sorted
  within := h.within
  state := h.state
  count k := by
    rw [← h.count k]
    simp [Gate.count, G.behind_entry]

theorem Between.env (h : G.Between t₀ t checks) {e : ε}
    (hclock : G.clock t.shared ≤ G.clock (P.env e t.shared)) :
    G.Between t₀ { t with shared := P.env e t.shared } checks where
  le := h.le.trans hclock
  sorted := h.sorted
  within c hc := ⟨(h.within c hc).1, (h.within c hc).2.trans hclock⟩
  state := (G.state_env e _).trans h.state
  count := h.count

/-- An action away from the gate. -/
theorem Between.act_elsewhere (h : G.Between t₀ t checks) {i : ℕ} {c : χ} {p : π}
    (hp : t.threads[i]? = some p) (hkey : G.key p = none) :
    G.Between t₀ { shared := (P.act i c t.shared p).1
                   threads := t.threads.set i (P.act i c t.shared p).2 } checks := by
  obtain ⟨hstate, hbehind⟩ := G.act_elsewhere i c t.shared p hkey
  have hclock := G.clock_act i c t.shared p
  exact {
    le := h.le.trans_eq hclock.symm
    sorted := h.sorted
    within := fun c' hc => ⟨(h.within c' hc).1, (h.within c' hc).2.trans_eq hclock.symm⟩
    state := hstate.trans h.state
    count := fun k => by
      have hmoved := Program.countP_moved (fun p => G.behind p = some k) hp
        (P.act i c t.shared p).2
      rw [hbehind] at hmoved
      exact (Nat.add_right_cancel hmoved).trans (h.count k) }

/-- A check at the gate. -/
theorem Between.act_gate (h : G.Between t₀ t checks) {i : ℕ} {c : χ} {p : π} {k : K}
    (hp : t.threads[i]? = some p) (hkey : G.key p = some k) :
    G.Between t₀ { shared := (P.act i c t.shared p).1
                   threads := t.threads.set i (P.act i c t.shared p).2 }
      (checks ++ [(k, G.clock t.shared)]) := by
  obtain ⟨hnone, hstate, hbehind⟩ := G.act_gate i c t.shared p k hkey
  have hclock := G.clock_act i c t.shared p
  exact {
    le := h.le.trans_eq hclock.symm
    sorted := by
      rw [List.map_append, List.pairwise_append]
      refine ⟨h.sorted, List.pairwise_singleton _ _, fun a ha b hb => ?_⟩
      obtain ⟨c', hc, rfl⟩ := List.mem_map.mp ha
      rw [List.mem_singleton.mp hb]
      exact (h.within c' hc).2
    within := fun c' hc => by
      rw [hclock]
      rcases List.mem_append.mp hc with hc | hc
      · exact h.within c' hc
      · rw [List.mem_singleton.mp hc]
        exact ⟨h.le, le_refl _⟩
    state := by rw [hstate, RateLimiter.after_concat, ← h.state]
    count := fun j => by
      have hmoved := Program.countP_moved (fun p => G.behind p = some j) hp
        (P.act i c t.shared p).2
      rw [hbehind, hnone] at hmoved
      rw [RateLimiter.admitted_concat, ← Nat.add_assoc, ← h.count j, ← h.state]
      unfold RateLimiter.passes
      simp only [reduceCtorEq, decide_false, Bool.false_eq_true, if_false, add_zero] at hmoved
      refine hmoved.trans (congrArg _ ?_)
      cases (G.limiter.check (G.state t.shared) k (G.clock t.shared)).1 <;> simp }

/-- The checks of a run. -/
theorem between_of_path {guard : Threads σ π → Move α χ ε → Prop} {tr : List (Threads σ π)}
    (hclock : ∀ t e, guard t (.env e) → G.clock t.shared ≤ G.clock (P.env e t.shared))
    (h : P.machine.Path guard t₀ tr t) : ∃ checks, G.Between t₀ t checks := by
  induction h with
  | refl => exact ⟨[], .refl _⟩
  | @step tr t m hpath hg ih =>
    obtain ⟨checks, hb⟩ := ih
    refine Program.step_cases (Q := fun t => ∃ checks, G.Between t₀ t checks) m ?_ ?_ ?_
      ⟨checks, hb⟩
    · intro a _
      exact ⟨checks, hb.spawn a⟩
    · intro i c p _ hp
      cases hkey : G.key p with
      | none => exact ⟨checks, hb.act_elsewhere hp hkey⟩
      | some k => exact ⟨_, hb.act_gate hp hkey⟩
    · intro e hm
      exact ⟨checks, hb.env (hclock t e (hm ▸ hg))⟩

/-- Between two states of a run no more threads with one key come to be behind the gate than
its limiter admits in the time between. -/
theorem bound {guard : Threads σ π → Move α χ ε → Prop} {tr : List (Threads σ π)}
    {capacity period : ℕ} (hlimit : G.limiter.Conforms capacity period)
    (hclock : ∀ t e, guard t (.env e) → G.clock t.shared ≤ G.clock (P.env e t.shared))
    (h : P.machine.Path guard t₀ tr t) (k : K) :
    G.count k t * period ≤ G.count k t₀ * period +
      (G.clock t.shared - G.clock t₀.shared) + capacity * period := by
  obtain ⟨checks, hb⟩ := between_of_path hclock h
  have hadmitted := hlimit (G.state t₀.shared) k checks _ _ hb.sorted hb.within
  rw [hb.count k, Nat.add_mul]
  omega

end Gate

end Frame
