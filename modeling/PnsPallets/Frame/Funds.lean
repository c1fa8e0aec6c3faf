import Mathlib.Tactic.Common

/-!
# Accounts and money in circulation

What a payment does to the balances of all accounts and to the money in
circulation. Payments are relations between the funds before and after, with
amounts added on the side that lost them, so that they compose by linear
arithmetic: a sale with a fee is a payment from `a` to `b` of which `b` burns a
part (`Moves.burns`).
-/

namespace Frame

variable {α : Type}

/-- The balances of all accounts, and the money in circulation. -/
structure Funds (α : Type) where
  free : α → Nat
  issuance : Nat

namespace Funds

/-- `a` pays `v`, which leaves circulation. -/
structure Burns (f f' : Funds α) (a : α) (v : Nat) : Prop where
  payer : f'.free a + v = f.free a
  others : ∀ x, x ≠ a → f'.free x = f.free x
  issuance : f'.issuance + v = f.issuance

/-- `a` pays `v` to `b`. -/
structure Moves (f f' : Funds α) (a b : α) (v : Nat) : Prop where
  payer : f'.free a + v = f.free a
  payee : f'.free b = f.free b + v
  others : ∀ x, x ≠ a → x ≠ b → f'.free x = f.free x
  issuance : f'.issuance = f.issuance

/-- `a` pays `v` to `b`, of which `w` leaves circulation. -/
structure Sells (f f' : Funds α) (a b : α) (v w : Nat) : Prop where
  payer : f'.free a + v = f.free a
  payee : f'.free b + w = f.free b + v
  others : ∀ x, x ≠ a → x ≠ b → f'.free x = f.free x
  issuance : f'.issuance + w = f.issuance

theorem Moves.burns {f f₁ f' : Funds α} {a b : α} {v w : Nat} (hab : a ≠ b)
    (h : f.Moves f₁ a b v) (h' : f₁.Burns f' b w) : f.Sells f' a b v w where
  payer := by rw [h'.others a hab, h.payer]
  payee := by rw [h'.payer, h.payee]
  others x hxa hxb := by rw [h'.others x hxb, h.others x hxa hxb]
  issuance := by rw [h'.issuance, h.issuance]

end Funds

end Frame
