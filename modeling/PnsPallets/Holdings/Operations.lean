import Mathlib.Logic.Function.Basic
import Mathlib.Order.Defs.PartialOrder

/-!
# Holdings: what a name service is about

The abstract model of a registry in which accounts hold names for a term: who
owns a name and until when, which name an account answers to (its primary
pointer), which names are gifts waiting to be taken up, who holds a subname, and
which value (`anchor`) a name or subname resolves to.

It is stated over arbitrary types: accounts `α`, names `ν`, times `τ`, anchor
values `β` with an encoding `enc` of accounts. An operation has a guard
(`Op.Enabled`) and an effect (`Op.apply`); what the operations keep is proved in
`Holdings.Discipline`.
-/

namespace Holdings

/-- A state of the name service. -/
@[ext]
structure Book (α ν τ β : Type) where
  now : τ
  /-- The owner of a name. -/
  owner : ν → Option α
  /-- The last moment at which a name is its owner's. -/
  expiry : ν → Option τ
  /-- The name an account answers to. -/
  primary : α → Option ν
  /-- The account a name waits for as a gift. -/
  gift : ν → Option α
  /-- The holder of a subname. -/
  active : ν → Option α
  /-- What a name or subname resolves to. -/
  anchor : ν → Option β

/-- What can happen to the holdings. The operations that take a name from its
owner also drop the subnames `D` below it. -/
inductive Op (α ν τ : Type) where
  /-- A vacant name is registered for `a` until `e`. -/
  | claim (n : ν) (a : α) (e : τ) (D : ν → Bool)
  /-- A name passes from `a` to `b` and becomes `b`'s primary. -/
  | move (n : ν) (a b : α) (D : ν → Bool)
  /-- A name passes from `a` to `b` as a gift yet to be accepted. -/
  | bestow (n : ν) (a b : α) (D : ν → Bool)
  /-- The recipient of a gift takes it as primary. -/
  | acceptGift (n : ν) (a : α)
  /-- The owner burns a name; pointers stay as they are. -/
  | burn (n : ν) (a : α) (D : ν → Bool)
  /-- The owner burns its primary. -/
  | release (n : ν) (a : α) (D : ν → Bool)
  /-- The owner burns a name that is a gift to it. -/
  | rejectGift (n : ν) (a : α) (D : ν → Bool)
  /-- A subname gets a holder. -/
  | acceptSub (c : ν) (a : α)
  /-- Subnames go. -/
  | drop (D : ν → Bool)
  /-- A name's term is renewed. -/
  | renew (n : ν) (e : τ)
  /-- Time passes. -/
  | tick (t : τ)

section

variable {α ν τ β : Type} [Preorder τ]

/-- A name within its term. -/
def Book.Live (h : Book α ν τ β) (n : ν) : Prop := ∃ e, h.expiry n = some e ∧ h.now ≤ e

/-- `a` holds `n`: as its owner, within the term, and not as a gift to it that it
has not accepted. -/
def Book.Holds (h : Book α ν τ β) (a : α) (n : ν) : Prop :=
  h.owner n = some a ∧ h.Live n ∧ h.gift n ≠ some a

/-- `a` is free to take a name: its pointer, if any, is stale, and it holds no
subname. -/
def Book.Free (h : Book α ν τ β) (a : α) : Prop :=
  (∀ n, h.primary a = some n → ¬ h.Live n) ∧ ∀ c, h.active c ≠ some a

/-- The nodes in `D` are not owned as names. -/
def Book.Unowned (h : Book α ν τ β) (D : ν → Bool) : Prop :=
  ∀ c, D c = true → h.owner c = none

/-- Nothing is owned, pointed to, given or held. -/
structure Book.Vacant (h : Book α ν τ β) : Prop where
  owner : ∀ n, h.owner n = none
  primary : ∀ a, h.primary a = none
  gift : ∀ n, h.gift n = none
  active : ∀ c, h.active c = none

/-- The guard of an operation. -/
def Op.Enabled (h : Book α ν τ β) : Op α ν τ → Prop
  | .claim n a _ D =>
    h.Free a ∧ (h.owner n = none ∨ ¬ h.Live n) ∧ h.active n = none ∧ h.Unowned D
  | .move n a b D =>
    h.owner n = some a ∧ h.Live n ∧ h.Free b ∧ h.active n = none ∧ h.Unowned D
  | .bestow n a b D =>
    h.owner n = some a ∧ h.Live n ∧ h.Free b ∧ h.gift n = none ∧ h.active n = none ∧
      h.Unowned D
  | .acceptGift n a => h.gift n = some a ∧ h.Free a ∧ h.active n = none
  | .burn n a D => h.owner n = some a ∧ h.active n = none ∧ h.Unowned D
  | .release n a D =>
    h.owner n = some a ∧ h.primary a = some n ∧ h.active n = none ∧ h.Unowned D
  | .rejectGift n a D =>
    h.owner n = some a ∧ h.gift n = some a ∧ h.active n = none ∧ h.Unowned D
  | .acceptSub c a => h.Free a ∧ h.owner c = none ∧ h.active c = none
  | .drop D => h.Unowned D
  | .renew n _ => h.Live n
  | .tick t => h.now ≤ t

end

section

variable {α ν τ β : Type}

/-- The holdings without the subnames in `D`. -/
def Book.dropSubs (h : Book α ν τ β) (D : ν → Bool) : Book α ν τ β :=
  { h with
    active := fun c => if D c then none else h.active c
    anchor := fun c => if D c then none else h.anchor c }

variable [DecidableEq α] [DecidableEq ν]

/-- The name `n` gone, with the subnames in `D`. -/
def Book.vacate (h : Book α ν τ β) (n : ν) (D : ν → Bool) : Book α ν τ β :=
  { h.dropSubs D with
    owner := Function.update h.owner n none
    expiry := Function.update h.expiry n none
    anchor := Function.update (h.dropSubs D).anchor n none }

/-- The name `n` handed to `b`, without the subnames in `D`. -/
def Book.handTo (enc : α → β) (h : Book α ν τ β) (n : ν) (b : α) (D : ν → Bool) :
    Book α ν τ β :=
  { h.dropSubs D with
    owner := Function.update h.owner n (some b)
    anchor := Function.update (h.dropSubs D).anchor n (some (enc b)) }

/-- The pointers, with the one of `a` removed if it is `n`. -/
def Book.unpoint (h : Book α ν τ β) (a : α) (n : ν) : α → Option ν :=
  fun x => if x = a ∧ h.primary x = some n then none else h.primary x

/-- The pointers, with the one of the owner of `n` removed if it is `n`. -/
def Book.unpointOwner (h : Book α ν τ β) (n : ν) : α → Option ν :=
  fun x => if h.owner n = some x ∧ h.primary x = some n then none else h.primary x

/-- The effect of an operation. -/
def Op.apply (enc : α → β) (h : Book α ν τ β) : Op α ν τ → Book α ν τ β
  | .claim n a e D =>
    { h.handTo enc n a D with
      expiry := Function.update h.expiry n (some e)
      primary := Function.update (h.unpointOwner n) a (some n) }
  | .move n a b D =>
    { h.handTo enc n b D with primary := Function.update (h.unpoint a n) b (some n) }
  | .bestow n a b D =>
    { h.handTo enc n b D with
      primary := h.unpoint a n
      gift := Function.update h.gift n (some b) }
  | .acceptGift n a =>
    { h with
      primary := Function.update h.primary a (some n)
      gift := Function.update h.gift n none
      anchor := Function.update h.anchor n (some (enc a)) }
  | .burn n _ D => h.vacate n D
  | .release n a D => { h.vacate n D with primary := Function.update h.primary a none }
  | .rejectGift n _ D => { h.vacate n D with gift := Function.update h.gift n none }
  | .acceptSub c a =>
    { h with
      active := Function.update h.active c (some a)
      anchor := Function.update h.anchor c (some (enc a)) }
  | .drop D => h.dropSubs D
  | .renew n e => { h with expiry := Function.update h.expiry n (some e) }
  | .tick t => { h with now := t }

variable [Preorder τ]

/-- `h'` is reached from `h` by the operations `ops`, each enabled when it is
performed. -/
inductive Runs (enc : α → β) : Book α ν τ β → List (Op α ν τ) → Book α ν τ β → Prop where
  | nil (h : Book α ν τ β) : Runs enc h [] h
  | cons {h h' : Book α ν τ β} {op : Op α ν τ} {ops : List (Op α ν τ)} :
      op.Enabled h → Runs enc (op.apply enc h) ops h' → Runs enc h (op :: ops) h'

variable {enc : α → β} {h h' : Book α ν τ β}

/-- One operation. -/
theorem Runs.single {op : Op α ν τ} (hen : op.Enabled h) (heq : h' = op.apply enc h) :
    Runs enc h [op] h' := by
  rw [heq]
  exact .cons hen (.nil _)

theorem Runs.append {h₁ : Book α ν τ β} {ops ops' : List (Op α ν τ)}
    (hrun : Runs enc h ops h₁) (hrun' : Runs enc h₁ ops' h') : Runs enc h (ops ++ ops') h' := by
  induction hrun with
  | nil h => exact hrun'
  | cons hen _ ih => exact .cons hen (ih hrun')

theorem Runs.of_single {op : Op α ν τ} (hrun : Runs enc h [op] h') :
    op.Enabled h ∧ h' = op.apply enc h := by
  cases hrun with
  | cons hen hrest =>
    cases hrest
    exact ⟨hen, rfl⟩

theorem Runs.of_append {ops ops' : List (Op α ν τ)} (hrun : Runs enc h (ops ++ ops') h') :
    ∃ h₁, Runs enc h ops h₁ ∧ Runs enc h₁ ops' h' := by
  induction ops generalizing h with
  | nil => exact ⟨h, .nil h, hrun⟩
  | cons op ops ih =>
    cases hrun with
    | cons hen hrest =>
      obtain ⟨h₁, hfirst, hsecond⟩ := ih hrest
      exact ⟨h₁, .cons hen hfirst, hsecond⟩

/-- The last operation of a run. -/
theorem Runs.of_concat {ops : List (Op α ν τ)} {op : Op α ν τ}
    (hrun : Runs enc h (ops ++ [op]) h') :
    ∃ h₁, Runs enc h ops h₁ ∧ op.Enabled h₁ ∧ h' = op.apply enc h₁ := by
  obtain ⟨h₁, hfirst, hlast⟩ := hrun.of_append
  exact ⟨h₁, hfirst, hlast.of_single⟩

/-- What every operation keeps is kept by every run of operations. -/
theorem Runs.invariant {Inv : Book α ν τ β → Prop}
    (hstep : ∀ (h : Book α ν τ β) (op : Op α ν τ), op.Enabled h → Inv h →
      Inv (op.apply enc h))
    {ops : List (Op α ν τ)} (hrun : Runs enc h ops h') (hinv : Inv h) : Inv h' := by
  induction hrun with
  | nil h => exact hinv
  | cons hen _ ih => exact ih (hstep _ _ hen hinv)

end

end Holdings
