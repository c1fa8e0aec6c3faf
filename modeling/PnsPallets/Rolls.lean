import Mathlib.Data.Finset.Card
import Mathlib.Data.Nat.ModEq
import Mathlib.Logic.Function.Basic

/-!
# Rolls: entries and a counter of enrolments

The abstract model of a register that is kept by three kinds of events: a name is
enrolled, new or again, its entry is amended, or it is struck off. Beside the
entries the register has a counter, of fixed width, that goes up when a name
without an entry is enrolled and at no other event.

It is stated over arbitrary names `ν` and entries `ρ`; the counter is a number
modulo `w`.

- `Event.all_apply`: what holds of all entries after an event, from what held
  before and what is shown of the one name the event is about; `Leads.all`: what
  every event of a run keeps;
- `Counts`: the counter is the number of entries plus the number of names struck
  off so far (`Counts.after`). So it is the number of entries exactly as long as the
  latter is a multiple of `w` (`counter_exact_iff`).
-/

namespace Rolls

variable {ν ρ : Type}

/-- The entries of a register and its counter. -/
@[ext]
structure Roll (ν ρ : Type) where
  entry : ν → Option ρ
  counter : ℕ

/-- What can happen to a register. -/
inductive Event (ν ρ : Type) where
  /-- `n` is enrolled; `f` makes its entry from the one it had, if any. -/
  | enrol (n : ν) (f : Option ρ → ρ)
  /-- The entry of `n` is amended. -/
  | amend (n : ν) (f : ρ → ρ)
  /-- `n` is struck off. -/
  | strike (n : ν)

/-- The name an event is about. -/
def Event.node : Event ν ρ → ν
  | .enrol n _ | .amend n _ | .strike n => n

/-- How many names an event strikes off. -/
def Event.strikes : Event ν ρ → ℕ
  | .strike _ => 1
  | .enrol _ _ | .amend _ _ => 0

/-- Only enrolled names are struck off. -/
def Event.Enabled (r : Roll ν ρ) : Event ν ρ → Prop
  | .strike n => (r.entry n).isSome = true
  | .enrol _ _ | .amend _ _ => True

variable [DecidableEq ν] {w k : ℕ} {r : Roll ν ρ} {e : Event ν ρ}

/-- The register after an event. -/
def Event.apply (w : ℕ) (r : Roll ν ρ) : Event ν ρ → Roll ν ρ
  | .enrol n f =>
    { entry := Function.update r.entry n (some (f (r.entry n)))
      counter := if (r.entry n).isSome then r.counter else (r.counter + 1) % w }
  | .amend n f => { r with entry := Function.update r.entry n ((r.entry n).map f) }
  | .strike n => { r with entry := Function.update r.entry n none }

/-- The events lead from `r` to `r'`, each enabled when it happens. -/
inductive Leads (w : ℕ) : Roll ν ρ → List (Event ν ρ) → Roll ν ρ → Prop where
  | nil (r : Roll ν ρ) : Leads w r [] r
  | cons {r r' : Roll ν ρ} {e : Event ν ρ} {es : List (Event ν ρ)} :
      e.Enabled r → Leads w (e.apply w r) es r' → Leads w r (e :: es) r'

theorem Leads.single {r' : Roll ν ρ} (hen : e.Enabled r) (heq : r' = e.apply w r) :
    Leads w r [e] r' := by
  subst heq
  exact .cons hen (.nil _)

/-- An event changes the entry of its name only. -/
theorem Event.entry_apply {m : ν} (hm : m ≠ e.node) : (e.apply w r).entry m = r.entry m := by
  cases e with
  | enrol n f => exact Function.update_of_ne hm _ _
  | amend n f => exact Function.update_of_ne hm _ _
  | strike n => exact Function.update_of_ne hm _ _

/-- What holds of all entries after an event: what is carried over for the other names,
and shown for the name of the event. -/
theorem Event.all_apply {P P' : ν → ρ → Prop} (h : ∀ m x, r.entry m = some x → P m x)
    (hoff : ∀ m x, m ≠ e.node → P m x → P' m x)
    (hnode : ∀ x, (e.apply w r).entry e.node = some x → P' e.node x) (m : ν) (x : ρ)
    (hx : (e.apply w r).entry m = some x) : P' m x := by
  by_cases hm : m = e.node
  · subst hm
    exact hnode x hx
  · rw [Event.entry_apply hm] at hx
    exact hoff m x hm (h m x hx)

/-- An event keeps `P`: the entry it writes has `P` if the one before it had. -/
def Event.Keeps (P : ν → ρ → Prop) : Event ν ρ → Prop
  | .enrol n f => ∀ x, (∀ y, x = some y → P n y) → P n (f x)
  | .amend n f => ∀ y, P n y → P n (f y)
  | .strike _ => True

theorem Event.Keeps.all_apply {P : ν → ρ → Prop} (he : e.Keeps P)
    (h : ∀ m x, r.entry m = some x → P m x) (m : ν) (x : ρ)
    (hx : (e.apply w r).entry m = some x) : P m x := by
  refine Event.all_apply h (fun _ _ _ hP => hP) (fun x hx => ?_) m x hx
  cases e with
  | enrol n f =>
    obtain rfl : f (r.entry n) = x := by simpa [Event.apply, Event.node] using hx
    exact he _ (h n)
  | amend n f =>
    obtain ⟨y, hy, rfl⟩ : ∃ y, r.entry n = some y ∧ f y = x := by
      simpa [Event.apply, Event.node] using hx
    exact he y (h n y hy)
  | strike n => simp [Event.apply, Event.node] at hx

/-- What every event keeps holds of all entries after a run. -/
theorem Leads.all {P : ν → ρ → Prop} {r' : Roll ν ρ} {es : List (Event ν ρ)}
    (hleads : Leads w r es r') (hes : ∀ e ∈ es, e.Keeps P)
    (h : ∀ m x, r.entry m = some x → P m x) : ∀ m x, r'.entry m = some x → P m x := by
  induction hleads with
  | nil r => exact h
  | cons hen _ ih =>
    exact ih (fun e he => hes e (List.mem_cons_of_mem _ he))
      ((hes _ List.mem_cons_self).all_apply h)

theorem leads_nil {r' : Roll ν ρ} : Leads w r [] r' ↔ r' = r := by
  constructor
  · intro h
    cases h
    rfl
  · rintro rfl
    exact .nil _

theorem leads_cons {r' : Roll ν ρ} {es : List (Event ν ρ)} :
    Leads w r (e :: es) r' ↔ e.Enabled r ∧ Leads w (e.apply w r) es r' := by
  constructor
  · intro h
    cases h with
    | cons hen hes => exact ⟨hen, hes⟩
  · rintro ⟨hen, hes⟩
    exact .cons hen hes

theorem leads_append {r' : Roll ν ρ} {es es' : List (Event ν ρ)} :
    Leads w r (es ++ es') r' ↔ ∃ r₁, Leads w r es r₁ ∧ Leads w r₁ es' r' := by
  induction es generalizing r with
  | nil => simp [leads_nil]
  | cons e es ih => simp [leads_cons, ih, and_assoc]

/-! ## The counter -/

/-- The counter is the number of entries and of the `k` names struck off so far. -/
def Counts (w : ℕ) (r : Roll ν ρ) (k : ℕ) : Prop :=
  ∃ S : Finset ν, (∀ n, n ∈ S ↔ (r.entry n).isSome = true) ∧ r.counter = (S.card + k) % w

theorem Counts.apply (hen : e.Enabled r) (h : Counts w r k) :
    Counts w (e.apply w r) (k + e.strikes) := by
  obtain ⟨S, hS, hcount⟩ := h
  cases e with
  | enrol n f =>
    refine ⟨insert n S, fun m => ?_, ?_⟩
    · by_cases hm : m = n
      · simp [Event.apply, hm]
      · simp [Event.apply, hm, hS]
    · by_cases hn : (r.entry n).isSome = true
      · rw [Finset.insert_eq_of_mem ((hS n).mpr hn)]
        exact (if_pos hn).trans hcount
      · rw [Finset.card_insert_of_notMem (mt (hS n).mp hn), Nat.add_right_comm S.card 1]
        show (if _ then _ else _) = _
        rw [if_neg hn, hcount, Nat.mod_add_mod]
        rfl
  | amend n f =>
    refine ⟨S, fun m => ?_, hcount⟩
    by_cases hm : m = n
    · simp [Event.apply, hm, hS]
    · simp [Event.apply, hm, hS]
  | strike n =>
    refine ⟨S.erase n, fun m => ?_, ?_⟩
    · by_cases hm : m = n
      · simp [Event.apply, hm]
      · simp [Event.apply, hm, hS]
    · have hcard := Finset.card_erase_add_one ((hS n).mpr hen)
      show r.counter = _
      rw [hcount, ← hcard, Nat.add_assoc, Nat.add_comm 1 k]
      rfl

theorem Counts.after {r' : Roll ν ρ} {es : List (Event ν ρ)} (hleads : Leads w r es r')
    (h : Counts w r k) : Counts w r' (k + (es.map Event.strikes).sum) := by
  induction hleads generalizing k with
  | nil r => exact h
  | cons hen _ ih =>
    rw [List.map_cons, List.sum_cons, ← Nat.add_assoc]
    exact ih (h.apply hen)

/-- The counter is the number of entries as long as these are fewer than `w` and the
names struck off are a multiple of `w`. -/
theorem counter_exact_iff (hw : 0 < w) (size k : ℕ) :
    (size + k) % w = size ↔ size < w ∧ w ∣ k := by
  constructor
  · intro h
    have hlt : size < w := h ▸ Nat.mod_lt _ hw
    refine ⟨hlt, Nat.modEq_zero_iff_dvd.mp ?_⟩
    have hmod : size + k ≡ size + 0 [MOD w] := by
      show (size + k) % w = (size + 0) % w
      rw [h, Nat.add_zero, Nat.mod_eq_of_lt hlt]
    exact Nat.ModEq.add_left_cancel' size hmod
  · rintro ⟨hlt, q, rfl⟩
    rw [Nat.add_mul_mod_self_left, Nat.mod_eq_of_lt hlt]

end Rolls
