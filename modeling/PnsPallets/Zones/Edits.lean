import Mathlib.Logic.Function.Basic
import PnsPallets.Frame.Machine

/-!
# Zones: names, delegations and what is stored about them

The abstract model of a delegating name service as a resolver sees it: who owns
a name, which labels below a name are delegated to whom and in which stage, which
nodes an account is on record as holding, and the records and texts stored under
a node.

It is stated over arbitrary types: accounts `α`, nodes `ν`, labels `ℓ`, record
kinds `κ`, text kinds `χ` and values `β`. An `Edit` is one thing a service does
to a zone, with a guard (`Edit.Enabled`) and an effect (`Edit.apply`); records
that the service writes itself come as a table `κ → Option β`. Runs of edits are
runs of the machine `zones`.
-/

namespace Zones

open Frame

/-- The stage of a delegation. -/
inductive Stage where
  | offered
  | active
  | rejected
deriving DecidableEq

/-- A label below `parent`, offered to `target`. -/
structure Delegation (α ν ℓ : Type) where
  parent : ν
  label : ℓ
  target : α
  stage : Stage

/-- A state of the name service. -/
@[ext]
structure Zone (α ν ℓ κ χ β : Type) where
  /-- The owner of a name. -/
  owner : ν → Option α
  /-- The delegation of a subname. -/
  delegation : ν → Option (Delegation α ν ℓ)
  /-- The account is on record as holding the node. -/
  held : α → ν → Bool
  /-- The records stored under a node. -/
  record : ν → κ → Option β
  /-- The texts stored under a node. -/
  text : ν → χ → Option β

/-- What can happen to a zone. -/
inductive Edit (α ν ℓ κ χ β : Type) where
  /-- The owner `a` gives the name `n` up. -/
  | vacate (n : ν) (a : α)
  /-- The name `n` is registered for `b`, new or after its previous owner. -/
  | issue (n : ν) (b : α) (table : κ → Option β)
  /-- The name `n` passes from `a` to `b`. -/
  | handOver (n : ν) (a b : α) (table : κ → Option β)
  /-- The service rewrites its records of the name `n`. -/
  | anchor (n : ν) (table : κ → Option β)
  /-- A subname is offered. -/
  | offer (c : ν) (d : Delegation α ν ℓ)
  /-- The target `a` accepts the offered subname `c`. -/
  | accept (c : ν) (a : α) (table : κ → Option β)
  /-- The target `a` rejects the offered subname `c`. -/
  | reject (c : ν) (a : α)
  /-- A delegation goes. -/
  | withdraw (c : ν)
  /-- The owner of the name `n` stores a record. -/
  | setRecord (n : ν) (k : κ) (v : β)
  /-- The owner of the name `n` stores a text. -/
  | setText (n : ν) (x : χ) (v : β)

variable {α ν ℓ κ χ β : Type}

/-- `table` written over `old`. -/
def overlay (table old : κ → Option β) : κ → Option β := fun k => (table k).or (old k)

/-- The delegation of `c` is active. -/
def Zone.Active (z : Zone α ν ℓ κ χ β) (c : ν) : Prop :=
  ∃ d, z.delegation c = some d ∧ d.stage = .active

/-- Nothing is owned, delegated, held or stored. -/
structure Zone.Blank (z : Zone α ν ℓ κ χ β) : Prop where
  owner : ∀ n, z.owner n = none
  delegation : ∀ c, z.delegation c = none
  held : ∀ a n, z.held a n = false
  record : ∀ n k, z.record n k = none
  text : ∀ n x, z.text n x = none

section Effects

variable [DecidableEq α] [DecidableEq ν] [DecidableEq κ] [DecidableEq χ]

/-- `c` is delegated below `n`. -/
def Zone.below (z : Zone α ν ℓ κ χ β) (n c : ν) : Bool :=
  (z.delegation c).any fun d => d.parent = n

/-- The zone without the delegations below `n` and all that is stored about them. -/
def Zone.clear (z : Zone α ν ℓ κ χ β) (n : ν) : Zone α ν ℓ κ χ β where
  owner := z.owner
  delegation c := if z.below n c then none else z.delegation c
  held a c := if z.below n c then false else z.held a c
  record c k := if z.below n c then none else z.record c k
  text c x := if z.below n c then none else z.text c x

/-- The stage of a delegation set. -/
def Delegation.at (d : Delegation α ν ℓ) (stage : Stage) : Delegation α ν ℓ :=
  { d with stage := stage }

/-- The guard of an edit. A name is handed only to accounts that are on record as
holding nothing, and names and subnames are different nodes. -/
def Edit.Enabled (z : Zone α ν ℓ κ χ β) : Edit α ν ℓ κ χ β → Prop
  | .vacate n a => z.owner n = some a
  | .issue n b _ => z.delegation n = none ∧ ∀ m, z.held b m = false
  | .handOver n a b _ => z.owner n = some a ∧ ∀ m, z.held b m = false
  | .anchor n _ => (z.owner n).isSome = true
  | .offer c d => z.delegation c = none ∧ z.owner c = none ∧ d.stage = .offered
  | .accept c a _ =>
    (∃ d, z.delegation c = some d ∧ d.stage = .offered ∧ d.target = a) ∧
      ∀ m, z.held a m = false
  | .reject c a => ∃ d, z.delegation c = some d ∧ d.stage = .offered ∧ d.target = a
  | .withdraw c => (z.delegation c).isSome = true
  | .setRecord n _ _ => (z.owner n).isSome = true
  | .setText n _ _ => (z.owner n).isSome = true

/-- The effect of an edit. -/
def Edit.apply (z : Zone α ν ℓ κ χ β) : Edit α ν ℓ κ χ β → Zone α ν ℓ κ χ β
  | .vacate n a =>
    { z.clear n with
      owner := Function.update z.owner n none
      held := fun x m => if x = a ∧ m = n then false else (z.clear n).held x m
      record := Function.update (z.clear n).record n fun _ => none
      text := Function.update (z.clear n).text n fun _ => none }
  | .issue n b table =>
    { z.clear n with
      owner := Function.update z.owner n (some b)
      held := fun x m =>
        if x = b ∧ m = n then true
        else if z.owner n = some x ∧ m = n then false
        else (z.clear n).held x m
      -- only a previous owner's data is cleared
      record := Function.update (z.clear n).record n
        (overlay table fun k => if z.owner n = none then (z.clear n).record n k else none)
      text := Function.update (z.clear n).text n
        fun x => if z.owner n = none then (z.clear n).text n x else none }
  | .handOver n _ b table =>
    { z.clear n with
      owner := Function.update z.owner n (some b)
      record := Function.update (z.clear n).record n table }
  | .anchor n table =>
    { z with record := Function.update z.record n (overlay table (z.record n)) }
  | .offer c d => { z with delegation := Function.update z.delegation c (some d) }
  | .accept c a table =>
    { z with
      delegation := Function.update z.delegation c ((z.delegation c).map (·.at .active))
      held := fun x m => if x = a ∧ m = c then true else z.held x m
      record := Function.update z.record c (overlay table (z.record c)) }
  | .reject c _ =>
    { z with
      delegation := Function.update z.delegation c ((z.delegation c).map (·.at .rejected)) }
  | .withdraw c =>
    { z with
      delegation := Function.update z.delegation c none
      held := fun x m => if m = c then false else z.held x m
      -- records are stored under active subnames only
      record := Function.update z.record c fun k =>
        if (z.delegation c).any (·.stage = .active) then none else z.record c k
      text := Function.update z.text c fun x =>
        if (z.delegation c).any (·.stage = .active) then none else z.text c x }
  | .setRecord n k v =>
    { z with record := Function.update z.record n (Function.update (z.record n) k (some v)) }
  | .setText n x v =>
    { z with text := Function.update z.text n (Function.update (z.text n) x (some v)) }

/-- Zones under their edits. -/
def zones (α ν ℓ κ χ β : Type) [DecidableEq α] [DecidableEq ν] [DecidableEq κ]
    [DecidableEq χ] : Machine (Zone α ν ℓ κ χ β) (Edit α ν ℓ κ χ β) where
  init := Zone.Blank
  step := Edit.apply

/-- The edits lead from `z` to `z'`, each enabled when it is made. -/
def Leads (z : Zone α ν ℓ κ χ β) (es : List (Edit α ν ℓ κ χ β)) (z' : Zone α ν ℓ κ χ β) :
    Prop :=
  (zones α ν ℓ κ χ β).Along (fun z e => e.Enabled z) z es ∧ (zones α ν ℓ κ χ β).run z es = z'

variable {z z' : Zone α ν ℓ κ χ β} {e : Edit α ν ℓ κ χ β}

theorem Leads.nil (z : Zone α ν ℓ κ χ β) : Leads z [] z := ⟨trivial, rfl⟩

theorem Leads.single (hen : e.Enabled z) (heq : z' = e.apply z) : Leads z [e] z' :=
  ⟨⟨hen, trivial⟩, heq.symm⟩

theorem Leads.of_single (h : Leads z [e] z') : e.Enabled z ∧ z' = e.apply z :=
  ⟨h.1.1, h.2.symm⟩

/-- One more edit. -/
theorem Leads.concat {z₁ : Zone α ν ℓ κ χ β} {es : List (Edit α ν ℓ κ χ β)}
    (h : Leads z es z₁) (hen : e.Enabled z₁) (heq : z' = e.apply z₁) :
    Leads z (es ++ [e]) z' := by
  obtain ⟨hal, rfl⟩ := h
  refine ⟨hal.append ⟨hen, trivial⟩, ?_⟩
  rw [heq]
  exact List.foldl_append

/-- The last edit. -/
theorem Leads.of_concat {es : List (Edit α ν ℓ κ χ β)} (h : Leads z (es ++ [e]) z') :
    ∃ z₁, Leads z es z₁ ∧ e.Enabled z₁ ∧ z' = e.apply z₁ := by
  induction es generalizing z with
  | nil => exact ⟨z, .nil z, h.of_single⟩
  | cons e' es ih =>
    obtain ⟨z₁, hrest, hlast⟩ := ih (z := e'.apply z) ⟨h.1.2, h.2⟩
    exact ⟨z₁, ⟨⟨h.1.1, hrest.1⟩, hrest.2⟩, hlast⟩

/-- What every edit of the list keeps is kept by the list. -/
theorem Leads.invariant {I : Zone α ν ℓ κ χ β → Prop} {es : List (Edit α ν ℓ κ χ β)}
    (hstep : ∀ z, ∀ e ∈ es, e.Enabled z → I z → I (e.apply z)) (h : Leads z es z')
    (hz : I z) : I z' := by
  induction es generalizing z with
  | nil =>
    obtain ⟨-, rfl⟩ := h
    exact hz
  | cons e es ih =>
    refine ih (fun z e' he' => hstep z e' (List.mem_cons_of_mem _ he')) (z := e.apply z)
      ⟨h.1.2, h.2⟩ (hstep z e List.mem_cons_self h.1.1 hz)

end Effects

end Zones
