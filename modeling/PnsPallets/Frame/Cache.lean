import PnsPallets.Frame.StorageMap

/-!
# Caches with a time to live

A cache keeps each entry with the moment it was inserted at. An entry is found until its
time to live has passed. A cache of bounded capacity may drop any entry at any time: to
its users this is an `invalidate` that they did not ask for, so what they can rely on
are the properties that hold of all entries (`Entries`), which dropping keeps.
-/

namespace Frame

/-- A cache: values with the moment they were inserted at. -/
structure Cache (K V : Type) where
  timeToLive : ℕ
  entries : StorageMap K (V × ℕ)

namespace Cache

variable {K V : Type}

/-- The cache with no entries. -/
def new (timeToLive : ℕ) : Cache K V where
  timeToLive := timeToLive
  entries := .empty

section

variable [DecidableEq K]

/-- The value of a key, unless its time to live has passed. -/
def get (c : Cache K V) (now : ℕ) (k : K) : Option V := do
  let e ← c.entries.get k
  if now < e.2 + c.timeToLive then some e.1 else none

/-- Insert an entry; its time to live starts now. -/
def insert (c : Cache K V) (now : ℕ) (k : K) (v : V) : Cache K V :=
  { c with entries := c.entries.insert k (v, now) }

/-- Drop the entry of a key. -/
def invalidate (c : Cache K V) (k : K) : Cache K V :=
  { c with entries := c.entries.remove k }

variable {c : Cache K V} {k : K} {v : V} {now : ℕ}

/-- An entry is served until its time to live has passed. -/
theorem get_eq_some :
    c.get now k = some v ↔
      ∃ since, c.entries.get k = some (v, since) ∧ now < since + c.timeToLive := by
  unfold get
  rw [Option.bind_eq_bind, Option.bind_eq_some_iff]
  constructor
  · rintro ⟨⟨w, since⟩, he, hif⟩
    split at hif
    · next hlt =>
      cases hif
      exact ⟨since, he, hlt⟩
    · cases hif
  · rintro ⟨since, he, hlt⟩
    exact ⟨(v, since), he, if_pos hlt⟩

theorem get_isSome :
    (c.get now k).isSome = true ↔
      ∃ v since, c.entries.get k = some (v, since) ∧ now < since + c.timeToLive := by
  rw [Option.isSome_iff_exists]
  exact exists_congr fun v => get_eq_some

/-! ## What holds of all entries -/

/-- Every entry, with its key and the moment it was inserted at, has `P`. -/
def Entries (c : Cache K V) (P : K → V → ℕ → Prop) : Prop :=
  ∀ k v since, c.entries.get k = some (v, since) → P k v since

variable {P Q : K → V → ℕ → Prop}

theorem Entries.new (timeToLive : ℕ) : (Cache.new timeToLive : Cache K V).Entries P := by
  intro k v since h
  unfold Cache.new at h
  simp at h

theorem Entries.mono (h : c.Entries P) (hPQ : ∀ k v since, P k v since → Q k v since) :
    c.Entries Q :=
  fun k v since he => hPQ k v since (h k v since he)

/-- An inserted entry counts from the time of its insertion. -/
theorem Entries.insert (h : c.Entries P) (hkv : P k v now) : (c.insert now k v).Entries P := by
  intro j w since he
  unfold Cache.insert at he
  rw [StorageMap.get_insert] at he
  split at he
  · next hjk =>
    obtain ⟨rfl, rfl⟩ := Prod.mk.inj (Option.some.inj he)
    exact hjk ▸ hkv
  · exact h j w since he

theorem Entries.invalidate (h : c.Entries P) (k : K) : (c.invalidate k).Entries P := by
  intro j w since he
  unfold Cache.invalidate at he
  rw [StorageMap.get_remove] at he
  split at he
  · cases he
  · exact h j w since he

/-- What is served was inserted, and not too long ago. -/
theorem Entries.get (h : c.Entries P) (hget : c.get now k = some v) :
    ∃ since, P k v since ∧ now < since + c.timeToLive := by
  obtain ⟨since, he, hlt⟩ := get_eq_some.mp hget
  exact ⟨since, h k v since he, hlt⟩

@[simp] theorem timeToLive_insert : (c.insert now k v).timeToLive = c.timeToLive := rfl

@[simp] theorem timeToLive_invalidate : (c.invalidate k).timeToLive = c.timeToLive := rfl

end

end Cache

end Frame
