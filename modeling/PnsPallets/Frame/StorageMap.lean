import Mathlib.Data.List.AList
import Mathlib.Data.Finset.Card

/-!
# FRAME storage maps

The chain state of a FRAME pallet is a record of *storage maps*: finite
key–value maps read with `get`, written with `insert` and `remove`, and — for
the `StorageDoubleMap`s — enumerated and cleared by the first half of the key
(`iter_prefix`, `clear_prefix`). This module is the library the pallets below
are written over; it knows nothing of them.

- `StorageMap K V`: the map, an association list with distinct keys, so that a
  key bound twice cannot be built. The order of the list is the order of
  insertion. (On chain it is the order of the hashed keys; no result of this
  development depends on it.)
- `get_insert`, `get_remove`, `get_clearPrefix`: the observational interface.
  Proofs about pallets read a map through `get` only; `get_insert_update`,
  `map_get_insert` and the like say the same of the map, of its keys and of a field
  of its values, read as a function.
- `count p`: the number of bindings satisfying `p`, with the rules by which an
  index counter is compared with the map it counts (`count_congr`,
  `count_add_one`, `count_le_one`).
-/

namespace Frame

/-- Two readings that agree at all keys but one agree exactly if they agree there. -/
theorem forall_eq_iff_of_ne {K V : Type} {f g : K → V} {j : K} (h : ∀ k, k ≠ j → f k = g k) :
    (∀ k, f k = g k) ↔ f j = g j := by
  refine ⟨fun hall => hall j, fun hj k => ?_⟩
  by_cases hk : k = j
  · rw [hk, hj]
  · exact h k hk

/-- A finite map with distinct keys: the contents of one storage map. -/
structure StorageMap (K V : Type) : Type where
  /-- The bindings; `AList` carries the proof that no key is bound twice. -/
  bindings : AList (fun _ : K => V)

namespace StorageMap

variable {K K₁ K₂ V : Type}

/-- The map with no bindings (storage before genesis). -/
def empty : StorageMap K V := ⟨∅⟩

/-- The bindings, as pairs. -/
def toList (m : StorageMap K V) : List (K × V) :=
  m.bindings.entries.map fun e => (e.1, e.2)

section Observations

variable [DecidableEq K]

/-- `StorageMap::get`. -/
def get (m : StorageMap K V) (k : K) : Option V := m.bindings.lookup k

/-- `StorageMap::contains_key`. -/
def containsKey (m : StorageMap K V) (k : K) : Bool := (m.get k).isSome

/-- `StorageMap::insert`: bind `k` to `v`, replacing an earlier binding. -/
def insert (m : StorageMap K V) (k : K) (v : V) : StorageMap K V :=
  ⟨m.bindings.insert k v⟩

/-- `StorageMap::remove`. -/
def remove (m : StorageMap K V) (k : K) : StorageMap K V := ⟨m.bindings.erase k⟩

@[simp] theorem get_empty (k : K) : (empty : StorageMap K V).get k = none :=
  AList.lookup_empty k

@[simp, grind =] theorem get_insert (m : StorageMap K V) (k j : K) (v : V) :
    (m.insert k v).get j = if j = k then some v else m.get j := by
  by_cases h : j = k
  · subst h
    rw [if_pos rfl]
    exact AList.lookup_insert m.bindings
  · rw [if_neg h]
    exact AList.lookup_insert_ne h

@[simp, grind =] theorem get_remove (m : StorageMap K V) (k j : K) :
    (m.remove k).get j = if j = k then none else m.get j := by
  by_cases h : j = k
  · subst h
    rw [if_pos rfl]
    exact AList.lookup_erase j m.bindings
  · rw [if_neg h]
    exact AList.lookup_erase_ne h

@[simp, grind =] theorem containsKey_eq (m : StorageMap K V) (k : K) :
    m.containsKey k = (m.get k).isSome := rfl

theorem get_insert_update (m : StorageMap K V) (k : K) (v : V) :
    (m.insert k v).get = Function.update m.get k (some v) := by
  funext j
  rw [get_insert, Function.update_apply]

theorem get_remove_update (m : StorageMap K V) (k : K) :
    (m.remove k).get = Function.update m.get k none := by
  funext j
  rw [get_remove, Function.update_apply]

theorem containsKey_insert_update (m : StorageMap K V) (k : K) (v : V) :
    (m.insert k v).containsKey = Function.update m.containsKey k true := by
  funext j
  simp only [containsKey, get_insert, Function.update_apply]
  split <;> rfl

theorem containsKey_remove_update (m : StorageMap K V) (k : K) :
    (m.remove k).containsKey = Function.update m.containsKey k false := by
  funext j
  simp only [containsKey, get_remove, Function.update_apply]
  split <;> rfl

/-- What is read off the values changes at the inserted key only. -/
theorem map_get_insert {W : Type} (m : StorageMap K V) (f : V → W) (k : K) (v : V) :
    (fun j => ((m.insert k v).get j).map f)
      = Function.update (fun j => (m.get j).map f) k (some (f v)) := by
  funext j
  rw [get_insert, Function.update_apply]
  split <;> rfl

/-- What is read off the values changes at the removed key only. -/
theorem map_get_remove {W : Type} (m : StorageMap K V) (f : V → W) (k : K) :
    (fun j => ((m.remove k).get j).map f)
      = Function.update (fun j => (m.get j).map f) k none := by
  funext j
  rw [get_remove, Function.update_apply]
  split <;> rfl

/-- The listed bindings are the ones `get` sees. -/
theorem mem_toList {m : StorageMap K V} {k : K} {v : V} :
    (k, v) ∈ m.toList ↔ m.get k = some v := by
  have hget : m.get k = some v ↔ (⟨k, v⟩ : (_ : K) × V) ∈ m.bindings.entries :=
    AList.mem_lookup_iff
  rw [hget, toList, List.mem_map]
  constructor
  · rintro ⟨⟨k', v'⟩, hmem, heq⟩
    rw [Prod.mk.injEq] at heq
    obtain ⟨rfl, rfl⟩ := heq
    exact hmem
  · intro h
    exact ⟨⟨k, v⟩, h, rfl⟩

end Observations

/-- No key is listed twice. -/
theorem nodup_keys (m : StorageMap K V) : (m.toList.map Prod.fst).Nodup := by
  have h : m.toList.map Prod.fst = m.bindings.keys := by
    rw [toList, List.map_map]
    rfl
  rw [h]
  exact m.bindings.keys_nodup

/-! ## Removing many keys -/

/-- What is read off the bindings is without duplicates if it determines the key. -/
theorem nodup_filterMap {β : Type} (m : StorageMap K V) {f : K × V → Option β}
    (hf : ∀ e e' b, f e = some b → f e' = some b → e.1 = e'.1) :
    (m.toList.filterMap f).Nodup := by
  have hkeys := m.nodup_keys
  rw [List.Nodup, List.pairwise_map] at hkeys
  rw [List.Nodup, List.pairwise_filterMap]
  refine hkeys.imp fun hne b hb b' hb' hbb => hne (hf _ _ b hb ?_)
  rw [hbb]
  exact hb'

section Removal

variable [DecidableEq K]

/-- Remove every key of a list, one after the other. -/
def removeAll (m : StorageMap K V) (ks : List K) : StorageMap K V :=
  ks.foldl remove m

@[simp] theorem get_removeAll (ks : List K) (m : StorageMap K V) (j : K) :
    (m.removeAll ks).get j = if j ∈ ks then none else m.get j := by
  induction ks generalizing m with
  | nil => simp [removeAll]
  | cons k ks ih =>
    show ((m.remove k).removeAll ks).get j = _
    rw [ih, get_remove]
    by_cases hk : j = k <;> by_cases hks : j ∈ ks <;> simp [hk, hks]

end Removal

/-! ## Double maps -/

section DoubleMap

variable [DecidableEq K₁] [DecidableEq K₂]

/-- `StorageDoubleMap::iter_prefix`: the bindings under a first key. -/
def iterPrefix (m : StorageMap (K₁ × K₂) V) (k : K₁) : List (K₂ × V) :=
  m.toList.filterMap fun e =>
    if e.1.1 = k then some (e.1.2, e.2) else none

/-- `StorageDoubleMap::clear_prefix`, with a limit that is never reached:
remove every binding under a first key. -/
def clearPrefix (m : StorageMap (K₁ × K₂) V) (k : K₁) : StorageMap (K₁ × K₂) V :=
  m.removeAll ((m.iterPrefix k).map fun e => (k, e.1))

theorem mem_iterPrefix {m : StorageMap (K₁ × K₂) V} {k : K₁} {j : K₂} {v : V} :
    (j, v) ∈ m.iterPrefix k ↔ m.get (k, j) = some v := by
  rw [← mem_toList, iterPrefix, List.mem_filterMap]
  constructor
  · rintro ⟨⟨⟨k', j'⟩, v'⟩, hmem, heq⟩
    by_cases hk : k' = k
    · subst hk
      rw [if_pos rfl, Option.some.injEq, Prod.mk.injEq] at heq
      obtain ⟨rfl, rfl⟩ := heq
      exact hmem
    · rw [if_neg hk] at heq
      cases heq
  · intro h
    exact ⟨_, h, if_pos rfl⟩

/-- A second key is enumerated under `k` iff the pair is bound. -/
theorem mem_iterPrefix_keys {m : StorageMap (K₁ × K₂) V} {k : K₁} {j : K₂} :
    j ∈ (m.iterPrefix k).map Prod.fst ↔ (m.get (k, j)).isSome = true := by
  rw [List.mem_map, Option.isSome_iff_exists]
  constructor
  · rintro ⟨⟨j', v⟩, hmem, rfl⟩
    exact ⟨v, mem_iterPrefix.mp hmem⟩
  · rintro ⟨v, hv⟩
    exact ⟨(j, v), mem_iterPrefix.mpr hv, rfl⟩

omit [DecidableEq K₂] in
/-- No second key is enumerated twice. -/
theorem nodup_iterPrefix_keys (m : StorageMap (K₁ × K₂) V) (k : K₁) :
    ((m.iterPrefix k).map Prod.fst).Nodup := by
  rw [iterPrefix, List.map_filterMap]
  refine m.nodup_filterMap ?_
  rintro ⟨⟨i, j⟩, v⟩ ⟨⟨i', j'⟩, v'⟩ b h h'
  grind

/-- Nothing is enumerated under `k` iff nothing is bound under `k`. -/
theorem iterPrefix_eq_nil {m : StorageMap (K₁ × K₂) V} {k : K₁} :
    m.iterPrefix k = [] ↔ ∀ j, m.get (k, j) = none := by
  constructor
  · intro h j
    cases hg : m.get (k, j) with
    | none => rfl
    | some v =>
      have hmem := mem_iterPrefix.mpr hg
      rw [h] at hmem
      cases hmem
  · intro h
    refine List.eq_nil_iff_forall_not_mem.mpr fun e he => ?_
    have hg := mem_iterPrefix.mp (show (e.1, e.2) ∈ m.iterPrefix k from he)
    rw [h] at hg
    cases hg

@[simp, grind =] theorem get_clearPrefix (m : StorageMap (K₁ × K₂) V) (k : K₁)
    (j : K₁ × K₂) :
    (m.clearPrefix k).get j = if j.1 = k then none else m.get j := by
  obtain ⟨j₁, j₂⟩ := j
  have hmem : (j₁, j₂) ∈ (m.iterPrefix k).map (fun e => (k, e.1)) ↔
      j₁ = k ∧ (m.get (j₁, j₂)).isSome = true := by
    constructor
    · intro h
      obtain ⟨e, he, heq⟩ := List.mem_map.mp h
      rw [Prod.mk.injEq] at heq
      obtain ⟨rfl, rfl⟩ := heq
      exact ⟨rfl, mem_iterPrefix_keys.mp (List.mem_map.mpr ⟨e, he, rfl⟩)⟩
    · rintro ⟨rfl, h⟩
      obtain ⟨e, he, rfl⟩ := List.mem_map.mp (mem_iterPrefix_keys.mpr h)
      exact List.mem_map.mpr ⟨e, he, rfl⟩
  rw [clearPrefix, get_removeAll]
  by_cases hk : j₁ = k
  · rw [if_pos hk]
    cases hg : m.get (j₁, j₂) with
    | none => exact ite_self none
    | some v => exact if_pos (hmem.mpr ⟨hk, by rw [hg]; rfl⟩)
  · rw [if_neg hk, if_neg fun h => hk (hmem.mp h).1]

/-- If a second key is bound under one first key only, removing the pair removes the
second key. -/
theorem get_remove_pair {m : StorageMap (K₁ × K₂) V} {a : K₁} {c : K₂}
    (hno : ∀ t, t ≠ a → m.get (t, c) = none) (t : K₁) (k : K₂) :
    (m.remove (a, c)).get (t, k) = if k = c then none else m.get (t, k) := by
  rw [get_remove]
  by_cases hk : k = c
  · subst hk
    rw [if_pos rfl]
    split
    · rfl
    · next hkey => exact hno t fun hta => hkey (by rw [hta])
  · have hkey : (t, k) ≠ (a, c) := fun heq => hk (Prod.mk.inj heq).2
    rw [if_neg hkey, if_neg hk]

theorem isSome_get_insert_pair (m : StorageMap (K₁ × K₂) V) (a t : K₁) (c k : K₂) (v : V) :
    ((m.insert (a, c) v).get (t, k)).isSome
      = if t = a ∧ k = c then true else (m.get (t, k)).isSome := by
  by_cases h : t = a ∧ k = c
  · simp [h]
  · simp [h]

theorem isSome_get_remove_pair (m : StorageMap (K₁ × K₂) V) (a t : K₁) (c k : K₂) :
    ((m.remove (a, c)).get (t, k)).isSome
      = if t = a ∧ k = c then false else (m.get (t, k)).isSome := by
  by_cases h : t = a ∧ k = c
  · simp [h]
  · simp [h]

end DoubleMap

/-! ## Counting bindings -/

section Counting

variable [DecidableEq K] {W : Type}

/-- The number of bindings that satisfy `p`. -/
def count (m : StorageMap K V) (p : K → V → Bool) : Nat :=
  m.toList.countP fun e => p e.1 e.2

/-- The keys of the bindings that satisfy `p`. -/
def matching (m : StorageMap K V) (p : K → V → Bool) : Finset K :=
  ((m.toList.filter fun e => p e.1 e.2).map Prod.fst).toFinset

theorem mem_matching {m : StorageMap K V} {p : K → V → Bool} {k : K} :
    k ∈ m.matching p ↔ ∃ v, m.get k = some v ∧ p k v = true := by
  rw [matching, List.mem_toFinset, List.mem_map]
  constructor
  · rintro ⟨⟨k', v⟩, hmem, rfl⟩
    obtain ⟨hin, hp⟩ := List.mem_filter.mp hmem
    exact ⟨v, mem_toList.mp hin, hp⟩
  · rintro ⟨v, hv, hp⟩
    exact ⟨(k, v), List.mem_filter.mpr ⟨mem_toList.mpr hv, hp⟩, rfl⟩

theorem count_eq_card (m : StorageMap K V) (p : K → V → Bool) :
    m.count p = (m.matching p).card := by
  have hnodup : ((m.toList.filter fun e => p e.1 e.2).map Prod.fst).Nodup :=
    m.nodup_keys.sublist (List.filter_sublist.map Prod.fst)
  rw [matching, List.toFinset_card_of_nodup hnodup, List.length_map, count,
    List.countP_eq_length_filter]

/-- Counts agree when the same keys match. -/
theorem count_congr {m : StorageMap K V} {m' : StorageMap K W}
    {p : K → V → Bool} {q : K → W → Bool}
    (h : ∀ k, (∃ v, m.get k = some v ∧ p k v = true) ↔
      ∃ w, m'.get k = some w ∧ q k w = true) :
    m.count p = m'.count q := by
  rw [count_eq_card, count_eq_card]
  congr 1
  ext k
  rw [mem_matching, mem_matching, h]

/-- One more key matches: the count goes up by one. -/
theorem count_add_one {m : StorageMap K V} {m' : StorageMap K W}
    {p : K → V → Bool} {q : K → W → Bool} {k : K}
    (hk : ¬ ∃ v, m.get k = some v ∧ p k v = true)
    (h : ∀ j, (∃ w, m'.get j = some w ∧ q j w = true) ↔
      j = k ∨ ∃ v, m.get j = some v ∧ p j v = true) :
    m'.count q = m.count p + 1 := by
  rw [count_eq_card, count_eq_card,
    ← Finset.card_insert_of_notMem (mt mem_matching.mp hk)]
  congr 1
  ext j
  rw [mem_matching, Finset.mem_insert, mem_matching, h]

/-- Nothing matches: the count is zero. -/
theorem count_eq_zero {m : StorageMap K V} {p : K → V → Bool}
    (h : ∀ k v, m.get k = some v → p k v = false) : m.count p = 0 := by
  refine List.countP_eq_zero.mpr fun e he hp => ?_
  rw [h e.1 e.2 (mem_toList.mp he)] at hp
  cases hp

/-- A matching binding makes the count positive. -/
theorem count_pos {m : StorageMap K V} {p : K → V → Bool} {k : K} {v : V}
    (hv : m.get k = some v) (hp : p k v = true) : 0 < m.count p :=
  List.countP_pos_iff.mpr ⟨(k, v), mem_toList.mpr hv, hp⟩

/-- At most one key matches: the count is at most one. -/
theorem count_le_one {m : StorageMap K V} {p : K → V → Bool}
    (h : ∀ k k' v v', m.get k = some v → p k v = true →
      m.get k' = some v' → p k' v' = true → k = k') : m.count p ≤ 1 := by
  rw [count_eq_card, Finset.card_le_one]
  intro k hk k' hk'
  obtain ⟨v, hv, hp⟩ := mem_matching.mp hk
  obtain ⟨v', hv', hp'⟩ := mem_matching.mp hk'
  exact h k k' v v' hv hp hv' hp'

/-- A positive count is witnessed by a matching binding. -/
theorem exists_of_count_pos {m : StorageMap K V} {p : K → V → Bool}
    (h : 0 < m.count p) : ∃ k v, m.get k = some v ∧ p k v = true := by
  obtain ⟨e, he, hp⟩ := List.countP_pos_iff.mp h
  exact ⟨e.1, e.2, mem_toList.mp he, hp⟩

end Counting

end StorageMap

end Frame
