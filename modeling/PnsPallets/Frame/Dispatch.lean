import Mathlib.Tactic.Common

/-!
# FRAME dispatchables

A dispatchable returns a `DispatchResult`: it either succeeds with a new state
or fails with an error. Bodies are written in the `Except` monad with the state
passed explicitly, `ensure!` and `ok_or` as in the Rust prelude, and every
extrinsic runs in a storage layer: a failing one leaves the state as it was
(`commit`).

The lemmas are the inversion rules by which a proof walks down a successful
body: from `x >>= f = .ok b` to the result of `x` (`bind_eq_ok`), from a
passed `ensure` to its condition, from an `okOr` to the value that was there.
`FailsOnly` bounds the errors a body can raise, statement by statement.
-/

namespace Frame

variable {ε α β σ : Type}

/-- `ensure!(condition, error)`. -/
def ensure (condition : Prop) [Decidable condition] (error : ε) : Except ε Unit :=
  if condition then .ok () else .error error

/-- `Option::ok_or`. -/
def okOr (o : Option α) (error : ε) : Except ε α :=
  match o with
  | some a => .ok a
  | none => .error error

/-- `Result::map_err` that forgets the error it replaces. -/
def orElseError (r : Except ε α) (error : ε) : Except ε α :=
  match r with
  | .ok a => .ok a
  | .error _ => .error error

/-- The storage layer around an extrinsic: keep the state it returns, or the
one it started from when it fails. -/
def commit (before : σ) (result : Except ε σ) : σ :=
  match result with
  | .ok after => after
  | .error _ => before

/-! ## Inversion of successful bodies -/

/-- A step whose result is known is passed. -/
theorem ok_bind {f : α → Except ε β} {a : α} : ((.ok a : Except ε α) >>= f) = f a := rfl

/-- A body succeeds exactly if its first statement does and then the rest. -/
theorem bind_eq_ok {x : Except ε α} {f : α → Except ε β} {b : β} :
    (x >>= f) = .ok b ↔ ∃ a, x = .ok a ∧ f a = .ok b := by
  cases x with
  | error e =>
    constructor
    · intro h
      cases h
    · rintro ⟨a, ha, -⟩
      cases ha
  | ok a =>
    constructor
    · intro h
      exact ⟨a, rfl, h⟩
    · rintro ⟨a', ha, h⟩
      cases ha
      exact h

/-- A check is passed exactly if its condition holds. -/
@[simp] theorem ensure_eq_ok {p : Prop} [Decidable p] {e : ε} {u : Unit} :
    ensure p e = .ok u ↔ p := by
  unfold ensure
  by_cases h : p <;> simp [h]

@[simp] theorem okOr_eq_ok {o : Option α} {e : ε} {a : α} :
    okOr o e = .ok a ↔ o = some a := by
  cases o <;> simp [okOr]

@[simp] theorem orElseError_eq_ok {r : Except ε α} {e : ε} {a : α} :
    orElseError r e = .ok a ↔ r = .ok a := by
  cases r <;> simp [orElseError]

@[simp] theorem pure_eq_ok {a b : α} : (pure a : Except ε α) = .ok b ↔ a = b := by
  constructor
  · intro h
    cases h
    rfl
  · rintro rfl
    rfl

/-- A body fails where the rest of it fails, after what succeeds. -/
theorem bind_eq_error {x : Except ε α} {f : α → Except ε β} {a : α} {e : ε} (hx : x = .ok a)
    (hf : f a = .error e) : (x >>= f) = .error e := by
  rw [hx]
  exact hf

/-- Conditions on the result of a computation can be evaluated. -/
instance decidableForallOk (x : Except ε α) (p : α → Prop) [∀ a, Decidable (p a)] :
    Decidable (∀ a, x = .ok a → p a) :=
  match x with
  | .ok a => decidable_of_iff (p a) ⟨fun h _ ha => Except.ok.inj ha ▸ h, fun h => h a rfl⟩
  | .error _ => .isTrue nofun

instance decidableExistsError (x : Except ε α) (p : ε → Prop) [DecidablePred p] :
    Decidable (∃ e, x = .error e ∧ p e) :=
  match x with
  | .error e => decidable_of_iff (p e) (by simp)
  | .ok _ => .isFalse (by simp)

/-! ## Errors of bodies -/

/-- The body fails, if at all, with an error in `p`. -/
def FailsOnly (p : ε → Prop) (r : Except ε α) : Prop := ∀ e, r = .error e → p e

namespace FailsOnly

variable {p : ε → Prop} {e : ε}

/-- The errors of a body are those of its statements, each after the ones before it
succeeded. -/
theorem bind {x : Except ε α} {f : α → Except ε β} (hx : FailsOnly p x)
    (hf : ∀ a, x = .ok a → FailsOnly p (f a)) : FailsOnly p (x >>= f) := by
  intro e he
  cases x with
  | error e' =>
    cases he
    exact hx e rfl
  | ok a => exact hf a rfl e he

theorem ok (a : α) : FailsOnly p (.ok a) := nofun

theorem error (he : p e) : FailsOnly p (.error e : Except ε α) := by
  intro e' heq
  cases heq
  exact he

theorem ensure {c : Prop} [Decidable c] (he : p e) : FailsOnly p (Frame.ensure c e) := by
  unfold Frame.ensure
  split
  · exact .ok ()
  · exact .error he

/-- A check that passes raises nothing. -/
theorem ensure_of {c : Prop} [Decidable c] (h : c) : FailsOnly p (Frame.ensure c e) := by
  rw [Frame.ensure, if_pos h]
  exact .ok ()

theorem okOr {o : Option α} (he : p e) : FailsOnly p (Frame.okOr o e) := by
  cases o with
  | none => exact .error he
  | some a => exact .ok a

theorem orElseError {r : Except ε α} (he : p e) : FailsOnly p (Frame.orElseError r e) := by
  cases r with
  | error e' => exact .error he
  | ok a => exact .ok a

/-- A bound on the errors can be loosened. -/
theorem mono {q : ε → Prop} {r : Except ε α} (hr : FailsOnly p r) (hpq : ∀ e, p e → q e) :
    FailsOnly q r :=
  fun e he => hpq e (hr e he)

end FailsOnly

/-! ## The storage layer -/

@[simp] theorem commit_ok (s s' : σ) : commit s (.ok s' : Except ε σ) = s' := rfl

/-- After an extrinsic, either nothing happened or it returned the new state. -/
theorem commit_cases (s : σ) (r : Except ε σ) :
    commit s r = s ∨ r = .ok (commit s r) := by
  cases r with
  | error e => exact Or.inl rfl
  | ok s' => exact Or.inr rfl

/-- What holds before an extrinsic, and after it if it succeeds, holds after it. -/
theorem commit_keeps {P : σ → Prop} {s : σ} {r : Except ε σ} (hs : P s)
    (hok : ∀ s', r = .ok s' → P s') : P (commit s r) := by
  cases r with
  | error e => exact hs
  | ok s' => exact hok s' rfl

/-- A failing extrinsic changes nothing. -/
theorem commit_of_fail {r : Except ε σ} (h : r.isOk = false) (s : σ) : commit s r = s := by
  cases r with
  | error e => rfl
  | ok s' => cases h

/-- The state after an extrinsic that succeeds is the one it returns. -/
theorem eq_ok_commit {r : Except ε σ} (h : r.isOk = true) (s : σ) : r = .ok (commit s r) := by
  cases r with
  | error e => cases h
  | ok s' => rfl

theorem isOk_iff {r : Except ε α} : r.isOk = true ↔ ∃ a, r = .ok a := by
  cases r with
  | error e => simp [Except.isOk, Except.toBool]
  | ok a => simp [Except.isOk, Except.toBool]

theorem ensure_isOk {p : Prop} [Decidable p] {e : ε} : (ensure p e).isOk = decide p := by
  unfold ensure
  by_cases h : p <;> simp [h, Except.isOk, Except.toBool]

theorem eq_ok_get {r : Except ε α} (h : r.toOption.isSome = true) :
    r = .ok (r.toOption.get h) := by
  cases r with
  | error e => cases h
  | ok a => rfl

end Frame
