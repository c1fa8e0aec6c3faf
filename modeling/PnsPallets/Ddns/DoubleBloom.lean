import Mathlib.Data.List.DropRight
import PnsPallets.Frame.Bloom
import PnsPallets.Primitives

/-!
# The double-buffered Bloom filter (pns-ddns/src/dns_server.rs:47–97)

The server keeps names that do not exist in two Bloom filters. A name is set in the
primary one; at the saturation count the two are swapped and the old primary is
cleared. Nothing is ever set in the secondary filter, so after a swap both are
empty: what the pair reports for certain are the names since the last swap
(`reported_iff`), and the name that triggers a swap is forgotten at once
(`double_bloom_gap_iff`).

The saturation count is `(capacity as f64 * 0.80) as u64`; here it is the parameter, and
the filter kind stands for `Bloom::new_for_fp_rate(capacity, fp_rate)`.
-/

namespace PnsPallets

open Frame

variable {B : Bloom Bytes} {saturationCount : UInt64} {names : List Bytes}

/-- `BloomState` (dns_server.rs:49–53). -/
structure BloomState (B : Bloom Bytes) where
  primary : B.Filter
  secondary : B.Filter
  primaryCount : UInt64

/-- `DoubleBloom` (dns_server.rs:55–58). -/
structure DoubleBloom (B : Bloom Bytes) where
  state : BloomState B
  saturationCount : UInt64

namespace DoubleBloom

/-- `DoubleBloom::new` (dns_server.rs:61–69). -/
def new (B : Bloom Bytes) (saturationCount : UInt64) : DoubleBloom B where
  state := { primary := B.new, secondary := B.new, primaryCount := 0 }
  saturationCount := saturationCount

/-- `DoubleBloom::check` (dns_server.rs:72–76). -/
def check (bloom : DoubleBloom B) (name : Bytes) : Bool :=
  B.check bloom.state.primary name || B.check bloom.state.secondary name

/-- `DoubleBloom::set` (dns_server.rs:81–96). -/
def set (bloom : DoubleBloom B) (name : Bytes) : DoubleBloom B :=
  let primary := B.set bloom.state.primary name
  let primaryCount := bloom.state.primaryCount + 1
  if primaryCount ≥ bloom.saturationCount then
    { bloom with
      state :=
        { primary := bloom.state.secondary, secondary := B.clear primary, primaryCount := 0 } }
  else
    { bloom with
      state :=
        { primary := primary, secondary := bloom.state.secondary, primaryCount := primaryCount } }

/-- The filter after a sequence of calls of `set`. -/
def run (B : Bloom Bytes) (saturationCount : UInt64) (names : List Bytes) : DoubleBloom B :=
  names.foldl set (new B saturationCount)

theorem run_concat (names : List Bytes) (name : Bytes) :
    run B saturationCount (names ++ [name]) = (run B saturationCount names).set name := by
  unfold run
  rw [List.foldl_append]
  rfl

/-! ## What the two filters hold -/

/-- The names since the last swap. -/
def recent (saturationCount : UInt64) (names : List Bytes) : List Bytes :=
  names.rtake (names.length % saturationCount.toNat)

/-- After `names`, the primary filter holds the recent ones, and the secondary nothing. -/
structure Rotated (saturationCount : UInt64) (names : List Bytes) (bloom : DoubleBloom B) :
    Prop where
  saturation : bloom.saturationCount = saturationCount
  count : bloom.state.primaryCount.toNat = names.length % saturationCount.toNat
  primary : ∃ f, B.Fresh f ∧ bloom.state.primary = B.setAll f (recent saturationCount names)
  secondary : B.Fresh bloom.state.secondary

/-- The call that brings the count to the saturation count leaves nothing recent. -/
theorem recent_swap (h : names.length % saturationCount.toNat + 1 = saturationCount.toNat)
    (name : Bytes) :
    (names ++ [name]).length % saturationCount.toNat = 0 ∧
      recent saturationCount (names ++ [name]) = [] := by
  have hmod : (names ++ [name]).length % saturationCount.toNat = 0 := by
    refine Nat.mod_eq_zero_of_dvd ⟨names.length / saturationCount.toNat + 1, ?_⟩
    rw [List.length_append, List.length_singleton, Nat.mul_add_one]
    have hdiv := Nat.div_add_mod names.length saturationCount.toNat
    omega
  exact ⟨hmod, by rw [recent, hmod, List.rtake_zero]⟩

/-- Every other call adds its name. -/
theorem recent_concat (h : names.length % saturationCount.toNat + 1 < saturationCount.toNat)
    (name : Bytes) :
    (names ++ [name]).length % saturationCount.toNat = names.length % saturationCount.toNat + 1 ∧
      recent saturationCount (names ++ [name]) = recent saturationCount names ++ [name] := by
  have hmod : (names ++ [name]).length % saturationCount.toNat
      = names.length % saturationCount.toNat + 1 := by
    rw [List.length_append, List.length_singleton, Nat.add_mod,
      Nat.mod_eq_of_lt (by omega : 1 < saturationCount.toNat), Nat.mod_eq_of_lt h]
  exact ⟨hmod, by rw [recent, hmod, List.rtake_concat_succ]; rfl⟩

theorem Rotated.new (B : Bloom Bytes) (saturationCount : UInt64) :
    Rotated saturationCount [] (DoubleBloom.new B saturationCount) where
  saturation := rfl
  count := by simp [DoubleBloom.new]
  primary := ⟨B.new, .new, by simp [DoubleBloom.new, recent, Bloom.setAll]⟩
  secondary := .new

theorem Rotated.set {bloom : DoubleBloom B} (hsat : 1 ≤ saturationCount)
    (h : Rotated saturationCount names bloom) (name : Bytes) :
    Rotated saturationCount (names ++ [name]) (bloom.set name) := by
  have hpos : 0 < saturationCount.toNat := hsat
  have hmod := Nat.mod_lt names.length hpos
  have hcount : (bloom.state.primaryCount + 1).toNat
      = names.length % saturationCount.toNat + 1 := by
    have hlt := saturationCount.toNat_lt
    rw [UInt64.toNat_add, h.count, UInt64.toNat_one, Nat.mod_eq_of_lt (by omega)]
  obtain ⟨f, hf, hprimary⟩ := h.primary
  unfold DoubleBloom.set
  dsimp only
  split
  · next hge =>
    -- the call swaps the filters
    have hge' : saturationCount.toNat ≤ (bloom.state.primaryCount + 1).toNat := h.saturation ▸ hge
    have hswap : names.length % saturationCount.toNat + 1 = saturationCount.toNat := by omega
    obtain ⟨hzero, hnil⟩ := recent_swap hswap name
    exact {
      saturation := h.saturation
      count := by rw [hzero]; rfl
      primary := ⟨_, h.secondary, by rw [hnil]; rfl⟩
      secondary := .clear _ }
  · next hlt =>
    have hlt' : (bloom.state.primaryCount + 1).toNat < saturationCount.toNat :=
      h.saturation ▸ UInt64.not_le.mp hlt
    obtain ⟨hsucc, hconcat⟩ := recent_concat (hcount ▸ hlt') name
    exact {
      saturation := h.saturation
      count := hcount.trans hsucc.symm
      primary := ⟨f, hf, by rw [hconcat, hprimary, Bloom.setAll_concat]⟩
      secondary := h.secondary }

/-- What the two filters hold after any sequence of calls. -/
theorem rotated_run (B : Bloom Bytes) (hsat : 1 ≤ saturationCount) (names : List Bytes) :
    Rotated saturationCount names (run B saturationCount names) := by
  induction names using List.reverseRecOn with
  | nil => exact .new B saturationCount
  | append_singleton names name ih =>
    rw [run_concat]
    exact ih.set hsat name

/-! ## What is reported -/

theorem Rotated.check_of_mem {bloom : DoubleBloom B} (h : Rotated saturationCount names bloom)
    {name : Bytes} (hname : name ∈ recent saturationCount names) : bloom.check name = true := by
  obtain ⟨f, -, hprimary⟩ := h.primary
  unfold DoubleBloom.check
  rw [hprimary, Bloom.check_setAll f hname, Bool.true_or]

/-- Without false positives only the recent names are reported. -/
theorem Rotated.mem_of_check {bloom : DoubleBloom (Bloom.exactFilter Bytes)}
    (h : Rotated saturationCount names bloom) {name : Bytes} (hcheck : bloom.check name = true) :
    name ∈ recent saturationCount names := by
  obtain ⟨f, hf, hprimary⟩ := h.primary
  rcases Bool.or_eq_true_iff.mp hcheck with hp | hs
  · rw [hprimary] at hp
    exact (Bloom.exactFilter_check hf).mp hp
  · have hnil : name ∈ [] := (Bloom.exactFilter_check h.secondary).mp hs
    cases hnil

/-- The names that every kind of filter reports are the recent ones. -/
theorem reported_iff (hsat : 1 ≤ saturationCount) {name : Bytes} :
    (∀ B : Bloom Bytes, (run B saturationCount names).check name = true) ↔
      name ∈ recent saturationCount names :=
  ⟨fun h => (rotated_run _ hsat names).mem_of_check (h _),
    fun h B => (rotated_run B hsat names).check_of_mem h⟩

theorem mem_recent_concat (hsat : 1 ≤ saturationCount) (names : List Bytes) (name : Bytes) :
    name ∈ recent saturationCount (names ++ [name]) ↔
      ¬ saturationCount.toNat ∣ names.length + 1 := by
  have hpos : 0 < saturationCount.toNat := hsat
  have hmod := Nat.mod_lt names.length hpos
  rw [Nat.dvd_iff_mod_eq_zero, show names.length + 1 = (names ++ [name]).length by simp]
  rcases Nat.lt_or_eq_of_le (Nat.succ_le_of_lt hmod) with hlt | hswap
  · obtain ⟨hsucc, hconcat⟩ := recent_concat hlt name
    rw [hsucc, hconcat]
    simp
  · obtain ⟨hzero, hnil⟩ := recent_swap hswap name
    rw [hzero, hnil]
    simp

end DoubleBloom

/-- A name is reported right after it was set unless its call is one that swaps the filters,
and the last names before the saturation count are reported exactly if they are among those
since the last swap. -/
theorem double_bloom_gap_iff (hsat : 1 ≤ saturationCount) (names : List Bytes) :
    (∀ name, (∀ B : Bloom Bytes,
        ((DoubleBloom.run B saturationCount names).set name).check name = true) ↔
      ¬ saturationCount.toNat ∣ names.length + 1) ∧
    ((∀ B : Bloom Bytes, ∀ name ∈ names.rtake (saturationCount.toNat - 1),
        (DoubleBloom.run B saturationCount names).check name = true) ↔
      ∀ name ∈ names.rtake (saturationCount.toNat - 1),
        name ∈ names.rtake (names.length % saturationCount.toNat)) := by
  constructor
  · intro name
    simp only [← DoubleBloom.run_concat]
    rw [DoubleBloom.reported_iff hsat, DoubleBloom.mem_recent_concat hsat]
  · constructor
    · intro h name hname
      exact (DoubleBloom.reported_iff hsat).mp fun B => h B name hname
    · intro h B name hname
      exact (DoubleBloom.reported_iff hsat).mpr (h name hname) B

/-- The second name of a filter with the saturation count 3. -/
theorem double_bloom_gap_second :
    ((DoubleBloom.run (Bloom.exactFilter Bytes) 3 [[1]]).set [2]).check [2] = true :=
  ((double_bloom_gap_iff (by decide) [[1]]).1 [2]).mpr (by decide) _

/-- With the capacity of the server, 100000, the saturation count is 80000: the name of
every 80000th call is forgotten at once. -/
theorem saturating_name_forgotten :
    ((DoubleBloom.run (Bloom.exactFilter Bytes) 80000 (List.replicate 79999 [1])).set [2]).check [2]
      = false := by
  have hforgotten : [2] ∉ DoubleBloom.recent 80000 (List.replicate 79999 [1] ++ [[2]]) := by
    rw [DoubleBloom.mem_recent_concat (by decide), List.length_replicate]
    decide
  have hrotated := DoubleBloom.rotated_run (Bloom.exactFilter Bytes)
    (by decide : 1 ≤ (80000 : UInt64)) (List.replicate 79999 [1] ++ [[2]])
  rw [DoubleBloom.run_concat] at hrotated
  exact Bool.eq_false_iff.mpr fun hcheck => hforgotten (hrotated.mem_of_check hcheck)

end PnsPallets
