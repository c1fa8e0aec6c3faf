import Mathlib.Algebra.Order.Ring.Nat

/-!
# SCALE encoding of fixed-width integers

An unsigned integer of `w` bytes is encoded as these bytes, least significant
first; a tuple as the concatenation of its components. So encodings have a fixed
length and are injective (`encode_inj`), and so is the encoding of a tuple of them.
-/

namespace Frame.Scale

/-- The `w` bytes of a number, least significant first. -/
def encode : ℕ → ℕ → List UInt8
  | 0, _ => []
  | w + 1, n => UInt8.ofNat n :: encode w (n / 256)

@[simp] theorem length_encode (w n : ℕ) : (encode w n).length = w := by
  induction w generalizing n with
  | zero => rfl
  | succ w ih => rw [encode, List.length_cons, ih]

/-- Numbers of at most `w` bytes are told apart by them. -/
theorem encode_inj {w n m : ℕ} (hn : n < 256 ^ w) (hm : m < 256 ^ w)
    (h : encode w n = encode w m) : n = m := by
  induction w generalizing n m with
  | zero => omega
  | succ w ih =>
    obtain ⟨hlow, hhigh⟩ := List.cons.inj h
    have hmod : n % 256 = m % 256 := by simpa using congrArg UInt8.toNat hlow
    have hdiv : n / 256 = m / 256 := by
      refine ih ?_ ?_ hhigh
      · exact Nat.div_lt_of_lt_mul (by rwa [pow_succ'] at hn)
      · exact Nat.div_lt_of_lt_mul (by rwa [pow_succ'] at hm)
    omega

/-- `u32`. -/
def encodeU32 (n : UInt32) : List UInt8 := encode 4 n.toNat

/-- `u64`. -/
def encodeU64 (n : UInt64) : List UInt8 := encode 8 n.toNat

@[simp] theorem length_encodeU32 (n : UInt32) : (encodeU32 n).length = 4 := length_encode 4 _

@[simp] theorem length_encodeU64 (n : UInt64) : (encodeU64 n).length = 8 := length_encode 8 _

theorem encodeU32_inj {n m : UInt32} (h : encodeU32 n = encodeU32 m) : n = m :=
  UInt32.toNat_inj.mp (encode_inj n.toNat_lt m.toNat_lt h)

theorem encodeU64_inj {n m : UInt64} (h : encodeU64 n = encodeU64 m) : n = m :=
  UInt64.toNat_inj.mp (encode_inj n.toNat_lt m.toNat_lt h)

end Frame.Scale
