import Mathlib.Data.List.Induction
import Mathlib.Tactic.Common

/-!
# Runs of a guarded machine

A machine has initial states and a total step function on inputs. A *guard*
`σ → α → Prop` says which inputs a run may take in which state: it carries both
the environment's promises (time does not go back) and, where a result holds
only for some runs, the condition every step of those runs meets.

- `Reach guard s`: `s` is reached from an initial state by guarded inputs;
- `Path guard s tr t`: a run from `s` to `t` through the states `tr`;
- `Reach.invariant`: what holds initially and is kept by every guarded step
  holds in every reached state — the induction of every safety result here;
- `Path.all_of_last`: what is carried *backwards* by every step of a path holds
  throughout once it holds at its end;
- `run` and `Along`: a run as a list of inputs, for evaluation (`Reach.run`);
- `RunsTo` and `Since`: a whole run from an initial state, and that something happened on it
  and a property has held ever since (`RunsTo.since`);
- `logging`: the machine that also keeps a log of its run, for results about what
  happened before.
-/

namespace Frame

/-- Initial states and a total step function. -/
structure Machine (σ α : Type) where
  /-- The initial states. -/
  init : σ → Prop
  /-- The state after an input. -/
  step : σ → α → σ

namespace Machine

variable {σ α : Type} (M : Machine σ α)

/-- States reached from an initial state by inputs that meet `guard`. -/
inductive Reach (guard : σ → α → Prop) : σ → Prop where
  | init {s : σ} : M.init s → Reach guard s
  | step {s : σ} {a : α} : Reach guard s → guard s a → Reach guard (M.step s a)

/-- A run from `s` to `t` by inputs that meet `guard`; `tr` lists the states it
visits, `s` first and `t` last. -/
inductive Path (guard : σ → α → Prop) (s : σ) : List σ → σ → Prop where
  | refl : Path guard s [s] s
  | step {tr : List σ} {t : σ} {a : α} :
      Path guard s tr t → guard t a → Path guard s (tr ++ [M.step t a]) (M.step t a)

variable {M} {guard guard' : σ → α → Prop}

/-- Invariant rule: a property of the initial states that every guarded step
keeps holds in every reached state. -/
theorem Reach.invariant {I : σ → Prop} (hinit : ∀ s, M.init s → I s)
    (hstep : ∀ s a, I s → guard s a → I (M.step s a)) {s : σ}
    (h : M.Reach guard s) : I s := by
  induction h with
  | init hs => exact hinit _ hs
  | step _ hg ih => exact hstep _ _ ih hg

/-- Fewer inputs reach fewer states. -/
theorem Reach.mono (hle : ∀ s a, guard s a → guard' s a) {s : σ}
    (h : M.Reach guard s) : M.Reach guard' s := by
  induction h with
  | init hs => exact .init hs
  | step _ hg ih => exact .step ih (hle _ _ hg)

/-- The states of a path from a reached state are reached. -/
theorem Path.reach {s t : σ} {tr : List σ} (hs : M.Reach guard s)
    (h : M.Path guard s tr t) : M.Reach guard t := by
  induction h with
  | refl => exact hs
  | step _ hg ih => exact .step ih hg

/-- Forwards rule: what holds at the start of the path, and every step keeps, holds in all its
states. -/
theorem Path.invariant {I : σ → Prop} {s t : σ} {tr : List σ} (h : M.Path guard s tr t)
    (hs : I s) (hstep : ∀ u a, guard u a → I u → I (M.step u a)) : ∀ x ∈ tr, I x := by
  have hlast : (∀ x ∈ tr, I x) ∧ I t := by
    induction h with
    | refl => exact ⟨fun x hx => by rwa [List.mem_singleton.mp hx], hs⟩
    | step _ hg ih =>
      have hnext := hstep _ _ hg ih.2
      refine ⟨fun x hx => ?_, hnext⟩
      rcases List.mem_append.mp hx with hx | hx
      · exact ih.1 x hx
      · rwa [List.mem_singleton.mp hx]
  exact hlast.1

/-- A path by fewer inputs is a path. -/
theorem Path.mono (hle : ∀ s a, guard s a → guard' s a) {s t : σ} {tr : List σ}
    (h : M.Path guard s tr t) : M.Path guard' s tr t := by
  induction h with
  | refl => exact .refl
  | step _ hg ih => exact .step ih (hle _ _ hg)

theorem Path.last_mem {s t : σ} {tr : List σ} (h : M.Path guard s tr t) :
    t ∈ tr := by
  cases h with
  | refl => exact List.mem_singleton_self _
  | step _ _ => exact List.mem_append_right _ (List.mem_singleton_self _)

/-- Backwards rule: if every step inside the path carries `P` from the state
after it to the state before it, then `P` at the end of the path gives `P` in
all its states. -/
theorem Path.all_of_last {P : σ → Prop} {s t : σ} {tr : List σ}
    (hs : M.Reach guard s) (h : M.Path guard s tr t)
    (hback : ∀ u a, M.Reach guard u → guard u a → u ∈ tr → M.step u a ∈ tr →
      P (M.step u a) → P u) (hlast : P t) : ∀ u ∈ tr, P u := by
  induction h with
  | refl =>
    intro u hu
    rw [List.mem_singleton.mp hu]
    exact hlast
  | @step tr t a hpath hg ih =>
    have ht : t ∈ tr ++ [M.step t a] := List.mem_append_left _ hpath.last_mem
    have hend : M.step t a ∈ tr ++ [M.step t a] :=
      List.mem_append_right _ (List.mem_singleton_self _)
    have hPt : P t := hback t a (hpath.reach hs) hg ht hend hlast
    have hprev := ih (fun u b hu hgu hmem hmem' hP =>
      hback u b hu hgu (List.mem_append_left _ hmem) (List.mem_append_left _ hmem') hP) hPt
    intro u hu
    rcases List.mem_append.mp hu with h₁ | h₂
    · exact hprev u h₁
    · rw [List.mem_singleton.mp h₂]
      exact hlast

theorem Path.single {s : σ} {a : α} (h : guard s a) :
    M.Path guard s [s, M.step s a] (M.step s a) :=
  .step .refl h

/-- If a step from a state of the path with `P` keeps `P` exactly if it is `good`, then all
states of the path have `P` exactly if all its steps are good. -/
theorem Path.all_iff {P : σ → Prop} {good : σ → α → Prop} {s t : σ} {tr : List σ}
    (h : M.Path guard s tr t) (hs : P s)
    (hstep : ∀ u a, u ∈ tr → guard u a → P u → (P (M.step u a) ↔ good u a)) :
    (∀ u ∈ tr, P u) ↔ M.Path (fun u a => guard u a ∧ good u a) s tr t := by
  constructor
  · intro hall
    induction h with
    | refl => exact .refl
    | @step tr u a hpath hg ih =>
      have hprev : ∀ v ∈ tr, P v := fun v hv => hall v (List.mem_append_left _ hv)
      refine .step (ih (fun v b hv => hstep v b (List.mem_append_left _ hv)) hprev) ⟨hg, ?_⟩
      exact (hstep u a (List.mem_append_left _ hpath.last_mem) hg (hprev u hpath.last_mem)).mp
        (hall _ (List.mem_append_right _ (List.mem_singleton_self _)))
  · intro hgood
    clear h
    induction hgood with
    | refl =>
      intro u hu
      rw [List.mem_singleton.mp hu]
      exact hs
    | @step tr u a hpath hg ih =>
      have hprev := ih fun v b hv => hstep v b (List.mem_append_left _ hv)
      intro v hv
      rcases List.mem_append.mp hv with hv | hv
      · exact hprev v hv
      · rw [List.mem_singleton.mp hv]
        exact (hstep u a (List.mem_append_left _ hpath.last_mem) hg.1
          (hprev u hpath.last_mem)).mpr hg.2

/-! ## Runs by their inputs -/

variable (M) (guard)

/-- The state after a list of inputs. -/
def run (s : σ) (inputs : List α) : σ := inputs.foldl M.step s

/-- Every input of the list meets the guard in the state it is taken in. -/
def Along (s : σ) : List α → Prop
  | [] => True
  | a :: inputs => guard s a ∧ Along (M.step s a) inputs

instance decidableAlong [∀ s a, Decidable (guard s a)] (s : σ) :
    (inputs : List α) → Decidable (M.Along guard s inputs)
  | [] => .isTrue trivial
  | a :: inputs =>
    have := decidableAlong (M.step s a) inputs
    inferInstanceAs (Decidable (guard s a ∧ M.Along guard (M.step s a) inputs))

variable {M} {guard}

theorem Reach.run {inputs : List α} {s : σ} (hs : M.Reach guard s)
    (h : M.Along guard s inputs) : M.Reach guard (M.run s inputs) := by
  induction inputs generalizing s with
  | nil => exact hs
  | cons a inputs ih => exact ih (.step hs h.1) h.2

/-- The path of a run that starts at the end of another. -/
theorem Path.run {inputs : List α} {s₀ s : σ} {tr : List σ} (hs : M.Path guard s₀ tr s)
    (h : M.Along guard s inputs) : ∃ tr', M.Path guard s₀ tr' (M.run s inputs) := by
  induction inputs generalizing s tr with
  | nil => exact ⟨tr, hs⟩
  | cons a inputs ih => exact ih (.step hs h.1) h.2

theorem run_append (s : σ) (inputs inputs' : List α) :
    M.run s (inputs ++ inputs') = M.run (M.run s inputs) inputs' :=
  List.foldl_append

theorem Along.append {inputs inputs' : List α} {s : σ} (h : M.Along guard s inputs)
    (h' : M.Along guard (M.run s inputs) inputs') : M.Along guard s (inputs ++ inputs') := by
  induction inputs generalizing s with
  | nil => exact h'
  | cons a inputs ih => exact ⟨h.1, ih h.2 h'⟩

theorem Along.mono (hle : ∀ s a, guard s a → guard' s a) {inputs : List α} {s : σ}
    (h : M.Along guard s inputs) : M.Along guard' s inputs := by
  induction inputs generalizing s with
  | nil => trivial
  | cons a inputs ih => exact ⟨hle _ _ h.1, ih h.2⟩

theorem Along.and {inputs : List α} {s : σ} (h : M.Along guard s inputs)
    (h' : M.Along guard' s inputs) :
    M.Along (fun s a => guard s a ∧ guard' s a) s inputs := by
  induction inputs generalizing s with
  | nil => trivial
  | cons a inputs ih => exact ⟨⟨h.1, h'.1⟩, ih h.2 h'.2⟩

theorem Along.of_concat {inputs : List α} {a : α} {s : σ} (h : M.Along guard s (inputs ++ [a])) :
    M.Along guard s inputs ∧ guard (M.run s inputs) a := by
  induction inputs generalizing s with
  | nil => exact ⟨trivial, h.1⟩
  | cons b inputs ih =>
    obtain ⟨hal, hg⟩ := ih h.2
    exact ⟨⟨h.1, hal⟩, hg⟩

/-! ## What happened on a run -/

variable (M) (guard)

/-- The inputs, each as the guard allows, lead from the initial state `s₀` to `s`. -/
structure RunsTo (s₀ : σ) (inputs : List α) (s : σ) : Prop where
  init : M.init s₀
  along : M.Along guard s₀ inputs
  ends : M.run s₀ inputs = s

/-- On the run from `s₀` one of the inputs was an event, and `I` has held in every state from
the one right after it on. -/
def Since (event : σ → α → Prop) (I : σ → Prop) (s₀ : σ) (inputs : List α) : Prop :=
  ∃ past a later, inputs = past ++ a :: later ∧ event (M.run s₀ past) a ∧
    ∀ mid, mid <+: later → I (M.run s₀ (past ++ a :: mid))

variable {M} {guard}

theorem RunsTo.reach {s₀ s : σ} {inputs : List α} (h : M.RunsTo guard s₀ inputs s) :
    M.Reach guard s :=
  h.ends ▸ Reach.run (.init h.init) h.along

section Since

variable {event : σ → α → Prop} {I I' : σ → Prop} {s₀ : σ} {inputs : List α} {a : α}

theorem Since.last (h : M.Since event I s₀ inputs) : I (M.run s₀ inputs) := by
  obtain ⟨past, a, later, rfl, -, hall⟩ := h
  exact hall later List.prefix_rfl

theorem Since.here (hevent : event (M.run s₀ inputs) a) (hI : I (M.run s₀ (inputs ++ [a]))) :
    M.Since event I s₀ (inputs ++ [a]) := by
  refine ⟨inputs, a, [], rfl, hevent, fun mid hmid => ?_⟩
  rwa [List.prefix_nil.mp hmid]

theorem Since.step (h : M.Since event I s₀ inputs) (hI : I (M.run s₀ (inputs ++ [a]))) :
    M.Since event I s₀ (inputs ++ [a]) := by
  obtain ⟨past, b, later, rfl, hevent, hall⟩ := h
  refine ⟨past, b, later ++ [a], by simp, hevent, fun mid hmid => ?_⟩
  rcases List.prefix_concat_iff.mp hmid with rfl | hmid
  · simpa using hI
  · exact hall mid hmid

theorem Since.mono (h : M.Since event I s₀ inputs) (hle : ∀ s, I s → I' s) :
    M.Since event I' s₀ inputs := by
  obtain ⟨past, a, later, rfl, hevent, hall⟩ := h
  exact ⟨past, a, later, rfl, hevent, fun mid hmid => hle _ (hall mid hmid)⟩

end Since

/-- Provenance rule: what the initial states lack, and every guarded step either brings about by
an event or keeps, was brought about by an event of the run, and what that event established has
held since. -/
theorem RunsTo.since {ι : Type} {P : σ → Prop} {E : ι → σ → α → Prop} {I : ι → σ → Prop}
    (hinit : ∀ s, M.init s → ¬ P s)
    (hstep : ∀ s a, M.Reach guard s → guard s a → P (M.step s a) →
      (∃ i, E i s a ∧ I i (M.step s a)) ∨ P s ∧ ∀ i, I i s → I i (M.step s a))
    {s₀ s : σ} {inputs : List α} (h : M.RunsTo guard s₀ inputs s) (hP : P s) :
    ∃ i, M.Since (E i) (I i) s₀ inputs := by
  obtain ⟨h₀, hal, rfl⟩ := h
  induction inputs using List.reverseRecOn with
  | nil => exact absurd hP (hinit _ h₀)
  | append_singleton inputs a ih =>
    obtain ⟨hal, hg⟩ := hal.of_concat
    -- the last step of the run
    have hlast : M.run s₀ (inputs ++ [a]) = M.step (M.run s₀ inputs) a := run_append _ _ _
    rw [hlast] at hP
    rcases hstep _ a (Reach.run (.init h₀) hal) hg hP with ⟨i, hevent, hI⟩ | ⟨hold, hkeep⟩
    · exact ⟨i, .here hevent (hlast ▸ hI)⟩
    · obtain ⟨i, hsince⟩ := ih hal hold
      exact ⟨i, hsince.step (hlast ▸ hkeep i hsince.last)⟩

/-! ## Logs -/

/-- The machine with a log beside its state: `note` says what an input does to it. -/
def logging {γ : Type} (M : Machine σ α) (start : γ) (note : σ → α → γ → γ) :
    Machine (σ × γ) α where
  init p := M.init p.1 ∧ p.2 = start
  step p a := (M.step p.1 a, note p.1 a p.2)

end Machine

end Frame
