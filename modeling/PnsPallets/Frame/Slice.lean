import PnsPallets.Frame.Dispatch

/-!
# Slices and panics

A computation that may panic returns an `Except Panic`; what the program returns,
an error included, is its value. The primitives are those of slices: indexing, a
tail, a copy into an array. Each has its condition as a lemma, so that a body which
checks lengths first is seen not to panic by rewriting. A traversal returns if each of
its steps does.
-/

namespace Frame

/-- Why a computation stops without returning. -/
inductive Panic where
  /-- A slice index out of bounds. -/
  | indexOutOfBounds
  /-- `copy_from_slice` of another length. -/
  | lengthMismatch
  /-- `unwrap` or `expect` of nothing. -/
  | unwrapNone
  /-- A `panic!` of the program. -/
  | explicit (message : String)
deriving DecidableEq

variable {α : Type}

/-- `data[i]`. -/
def index (data : List α) (i : ℕ) : Except Panic α := okOr data[i]? .indexOutOfBounds

/-- `&data[i..]`. -/
def sliceFrom (data : List α) (i : ℕ) : Except Panic (List α) :=
  if i ≤ data.length then .ok (data.drop i) else .error .indexOutOfBounds

/-- `copy_from_slice` into an array of length `n`. -/
def copyFromSlice (n : ℕ) (data : List α) : Except Panic { a : List α // a.length = n } :=
  if h : data.length = n then .ok ⟨data, h⟩ else .error .lengthMismatch

/-- `unwrap` and `expect`. -/
def unwrap (o : Option α) : Except Panic α := okOr o .unwrapNone

@[simp] theorem index_zero (a : α) (data : List α) : index (a :: data) 0 = .ok a := rfl

@[simp] theorem index_succ (a : α) (data : List α) (i : ℕ) :
    index (a :: data) (i + 1) = index data i := rfl

@[simp] theorem sliceFrom_zero (data : List α) : sliceFrom data 0 = .ok data :=
  if_pos (Nat.zero_le _)

@[simp] theorem sliceFrom_succ (a : α) (data : List α) (i : ℕ) :
    sliceFrom (a :: data) (i + 1) = sliceFrom data i := by
  simp [sliceFrom]

theorem copyFromSlice_eq {n : ℕ} {data : List α} (h : data.length = n) :
    copyFromSlice n data = .ok ⟨data, h⟩ :=
  dif_pos h

/-- A list with a first element, and how long the rest is at least. -/
theorem exists_cons_of_succ_le {data : List α} {k : ℕ} (h : k + 1 ≤ data.length) :
    ∃ a rest, data = a :: rest ∧ k ≤ rest.length := by
  cases data with
  | nil => cases h
  | cons a rest => exact ⟨a, rest, rfl, Nat.le_of_succ_le_succ h⟩

/-! ## Traversals -/

section Traversal

variable {ε β : Type} {f : α → Except ε β}

/-- A traversal returns if it does at every element. -/
theorem mapM_returns_iff {l : List α} :
    (∃ out, l.mapM f = .ok out) ↔ ∀ a ∈ l, ∃ b, f a = .ok b := by
  induction l with
  | nil => simp
  | cons a l ih =>
    rw [List.forall_mem_cons, ← ih, List.mapM_cons]
    constructor
    · rintro ⟨out, hout⟩
      obtain ⟨b, hb, hout⟩ := bind_eq_ok.mp hout
      obtain ⟨bs, hbs, -⟩ := bind_eq_ok.mp hout
      exact ⟨⟨b, hb⟩, bs, hbs⟩
    · rintro ⟨⟨b, hb⟩, bs, hbs⟩
      exact ⟨b :: bs, bind_eq_ok.mpr ⟨b, hb, bind_eq_ok.mpr ⟨bs, hbs, rfl⟩⟩⟩

/-- What a traversal returns comes from its elements. -/
theorem mem_of_mapM_eq_ok {l : List α} {out : List β} (h : l.mapM f = .ok out) {b : β} :
    b ∈ out ↔ ∃ a ∈ l, f a = .ok b := by
  induction l generalizing out with
  | nil =>
    obtain rfl := pure_eq_ok.mp h
    simp
  | cons a l ih =>
    rw [List.mapM_cons] at h
    obtain ⟨b', hb', h⟩ := bind_eq_ok.mp h
    obtain ⟨bs, hbs, h⟩ := bind_eq_ok.mp h
    obtain rfl := pure_eq_ok.mp h
    simp only [List.mem_cons, exists_eq_or_imp]
    rw [ih hbs, hb', Except.ok.injEq]
    exact or_congr_left eq_comm

end Traversal

/-! ## Numbers -/

/-- `u16::from_be_bytes`. -/
def u16FromBeBytes (hi lo : UInt8) : UInt16 := UInt16.ofNat (256 * hi.toNat + lo.toNat)

theorem toNat_u16FromBeBytes (hi lo : UInt8) :
    (u16FromBeBytes hi lo).toNat = 256 * hi.toNat + lo.toNat := by
  have hhi := hi.toNat_lt
  have hlo := lo.toNat_lt
  exact Nat.mod_eq_of_lt (by omega)

end Frame
