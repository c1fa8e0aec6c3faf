import PnsPallets.Names

/-!
# The grammar of names

A label is 1 to 63 ASCII letters or digits, a name is one label or two joined by
a dot. Both label checks accept exactly the labels (`asciiLabel_eq_some`): they
decode the bytes first, but a decoded string of letters and digits can only have
come from the bytes of these characters.

A name string therefore denotes a `Name` (`nameOf`), and `parse_name_to_node`
computes its namehash (`parseNameToNode_eq`). As far as keccak-256 does not
collide on what two names hash, different names have different namehashes
(`Name.node_injective`).
-/

namespace PnsPallets

/-! ## Decoding ASCII -/

theorem fromUtf8_ascii {s : Bytes} (h : ∀ b ∈ s, b < 0x80) :
    fromUtf8 s = some (s.map UInt8.toNat) := by
  induction s with
  | nil => simp [fromUtf8]
  | cons b s ih =>
    have hs := ih fun x hx => h x (List.mem_cons_of_mem _ hx)
    unfold fromUtf8
    rw [if_pos (h b List.mem_cons_self), hs]
    rfl

/-- A string that decodes to ASCII characters is their bytes: every multi-byte
character is at least U+0080. -/
theorem fromUtf8_eq_ascii {s : Bytes} {chars : List Nat} (h : fromUtf8 s = some chars)
    (hlt : ∀ c ∈ chars, c < 0x80) : chars = s.map UInt8.toNat := by
  fun_induction fromUtf8 s generalizing chars with
  | case1 =>
    cases h
    rfl
  | case2 b₀ rest₀ hb ih =>
    obtain ⟨tail, htail, rfl⟩ := Option.map_eq_some_iff.mp h
    rw [ih htail fun c hc => hlt c (List.mem_cons_of_mem _ hc)]
    rfl
  | case4 b₀ hb₀ b₁ rest hb =>
    obtain ⟨tail, -, rfl⟩ := Option.map_eq_some_iff.mp h
    have hc := hlt _ List.mem_cons_self
    simp only [isContinuation, Bool.and_eq_true, decide_eq_true_eq, UInt8.le_iff_toNat_le] at hb
    simp at hb
    omega
  | case6 b₀ hb₀ b₁ _ b₂ rest hb =>
    obtain ⟨tail, -, rfl⟩ := Option.map_eq_some_iff.mp h
    have hc := hlt _ List.mem_cons_self
    simp only [isContinuation, Bool.and_eq_true, Bool.or_eq_true, bne_iff_ne, ne_eq,
      decide_eq_true_eq, UInt8.le_iff_toNat_le, ← UInt8.toNat_inj] at hb
    simp at hb
    omega
  | case8 b₀ hb₀ b₁ _ b₂ _ b₃ rest hb =>
    obtain ⟨tail, -, rfl⟩ := Option.map_eq_some_iff.mp h
    have hc := hlt _ List.mem_cons_self
    simp only [isContinuation, Bool.and_eq_true, Bool.or_eq_true, bne_iff_ne, ne_eq,
      decide_eq_true_eq, UInt8.le_iff_toNat_le, ← UInt8.toNat_inj] at hb
    simp at hb
    omega
  | case3 | case5 | case7 | case9 => cases h

theorem isAsciiAlphanumeric_lt {c : Nat} (h : isAsciiAlphanumeric c = true) : c < 0x80 := by
  simp only [isAsciiAlphanumeric, Bool.or_eq_true, Bool.and_eq_true, decide_eq_true_eq] at h
  omega

/-- Lower-casing keeps letters and digits, and makes none. -/
theorem isAsciiAlphanumeric_lowercase (c : Nat) :
    isAsciiAlphanumeric (charToAsciiLowercase c) = isAsciiAlphanumeric c := by
  rw [Bool.eq_iff_iff]
  unfold charToAsciiLowercase
  split
  · simp only [isAsciiAlphanumeric, Bool.or_eq_true, Bool.and_eq_true, decide_eq_true_eq] at *
    omega
  · exact Iff.rfl

/-! ## Labels -/

/-- A label: 1 to 63 ASCII letters or digits. -/
def IsLabel (label : Bytes) : Prop :=
  1 ≤ label.length ∧ label.length ≤ 63 ∧ ∀ b ∈ label, isAsciiAlphanumeric b.toNat = true

instance (label : Bytes) : Decidable (IsLabel label) :=
  inferInstanceAs (Decidable (_ ∧ _ ∧ _))

@[simp] theorem length_toAsciiLowercase (s : Bytes) :
    (toAsciiLowercase s).length = s.length := List.length_map _

theorem asciiLabel_eq_some {lo hi : Nat} {s : Bytes} :
    asciiLabel lo hi s = some () ↔
      lo ≤ s.length ∧ s.length ≤ hi ∧ ∀ b ∈ s, isAsciiAlphanumeric b.toNat = true := by
  unfold asciiLabel
  constructor
  · intro h
    split at h
    · cases h
    · next chars hchars =>
      split at h
      · next hlen =>
        split at h
        · next hall =>
          simp only [List.all_map, List.all_eq_true, Function.comp_apply,
            isAsciiAlphanumeric_lowercase] at hall
          have hbytes := fromUtf8_eq_ascii hchars fun c hc => isAsciiAlphanumeric_lt (hall c hc)
          simp only [length_toAsciiLowercase, Bool.and_eq_true, decide_eq_true_eq] at hlen
          refine ⟨hlen.1, hlen.2, fun b hb => hall _ ?_⟩
          rw [hbytes]
          exact List.mem_map_of_mem hb
        · cases h
      · cases h
  · rintro ⟨hlo, hhi, hall⟩
    have hascii : ∀ b ∈ s, b < 0x80 := fun b hb => isAsciiAlphanumeric_lt (hall b hb)
    rw [fromUtf8_ascii hascii]
    simpa [isAsciiAlphanumeric_lowercase, hlo, hhi] using hall

/-- Both label checks accept the labels. -/
theorem checkLabel_eq_some {s : Bytes} : checkLabel s = some () ↔ IsLabel s := asciiLabel_eq_some

theorem validateLabel_eq_some {s : Bytes} : validateLabel s = some () ↔ IsLabel s :=
  asciiLabel_eq_some

theorem toNat_byteToAsciiLowercase (b : UInt8) :
    (byteToAsciiLowercase b).toNat = charToAsciiLowercase b.toNat := by
  unfold byteToAsciiLowercase charToAsciiLowercase
  have hle : (65 ≤ b && b ≤ 90) = (65 ≤ b.toNat && b.toNat ≤ 90) := by
    simp [UInt8.le_iff_toNat_le]
  rw [hle]
  split
  · next h =>
    rw [UInt8.toNat_add]
    simp only [Bool.and_eq_true, decide_eq_true_eq] at h
    exact Nat.mod_eq_of_lt (by simp; omega)
  · rfl

/-- The letters of a label may be of either case. -/
theorem isLabel_toAsciiLowercase (label : Bytes) :
    IsLabel (toAsciiLowercase label) ↔ IsLabel label := by
  unfold IsLabel
  rw [length_toAsciiLowercase]
  simp [toAsciiLowercase, toNat_byteToAsciiLowercase, isAsciiAlphanumeric_lowercase]

section Hashing

variable {keccak256 : Bytes → H256} {b : DomainHash}

theorem newWithLen_eq (s : Bytes) :
    Label.newWithLen keccak256 s
      = if IsLabel s then some (⟨keccak256 (toAsciiLowercase s)⟩, s.length) else none := by
  unfold Label.newWithLen
  split
  · next h =>
    rw [if_neg fun hl => ?_]
    rw [checkLabel_eq_some.mpr hl] at h
    cases h
  · next h => rw [if_pos (checkLabel_eq_some.mp h), length_toAsciiLowercase]

theorem newWithLen_eq_some {keccak256 : Bytes → H256} {name : Bytes} {l : Label × Nat} :
    Label.newWithLen keccak256 name = some l ↔
      IsLabel name ∧ l = (⟨keccak256 (toAsciiLowercase name)⟩, name.length) := by
  rw [newWithLen_eq]
  by_cases hl : IsLabel name
  · simp [hl, eq_comm]
  · simp [hl]

/-- A label's node does not depend on the case of its letters. -/
theorem newWithLen_congr {s t : Bytes} (h : toAsciiLowercase s = toAsciiLowercase t) :
    Label.newWithLen keccak256 s = Label.newWithLen keccak256 t := by
  have hlabel : IsLabel s ↔ IsLabel t := by
    rw [← isLabel_toAsciiLowercase s, h, isLabel_toAsciiLowercase]
  have hlen : s.length = t.length := by
    rw [← length_toAsciiLowercase s, h, length_toAsciiLowercase]
  rw [newWithLen_eq, newWithLen_eq, h, hlen]
  exact if_congr hlabel rfl rfl

theorem hashLabel_eq (s : Bytes) :
    hashLabel keccak256 s
      = if IsLabel s then some (keccak256 (toAsciiLowercase s)) else none := by
  unfold hashLabel
  split
  · next h =>
    rw [if_neg fun hl => ?_]
    rw [validateLabel_eq_some.mpr hl] at h
    cases h
  · next h => rw [if_pos (validateLabel_eq_some.mp h)]

/-! ## Dots -/

theorem IsLabel.dot_not_mem {s : Bytes} (h : IsLabel s) : dot ∉ s := by
  intro hdot
  have hc := h.2.2 dot hdot
  simp [isAsciiAlphanumeric, dot] at hc

theorem splitAtDot_eq_none {s : Bytes} : splitAtDot s = none ↔ dot ∉ s := by
  induction s with
  | nil => simp [splitAtDot]
  | cons x s ih =>
    unfold splitAtDot
    split
    · next hx => simp [hx]
    · next hx => simp [ih, Ne.symm hx]

/-- The split is at the first dot. -/
theorem splitAtDot_eq_some {s sub dom : Bytes} :
    splitAtDot s = some (sub, dom) ↔ s = sub ++ dot :: dom ∧ dot ∉ sub := by
  induction s generalizing sub with
  | nil => simp [splitAtDot]
  | cons x s ih =>
    unfold splitAtDot
    split
    · next hx =>
      subst hx
      cases sub with
      | nil => simp [eq_comm]
      | cons y sub => simp +contextual
    · next hx =>
      cases sub with
      | nil => simp [hx]
      | cons y sub =>
        simp only [Option.map_eq_some_iff, Prod.mk.injEq, List.cons.injEq, Prod.exists,
          List.cons_append, List.mem_cons, not_or]
        constructor
        · rintro ⟨sub', dom', hs, ⟨rfl, rfl⟩, rfl⟩
          obtain ⟨rfl, hdot⟩ := ih.mp hs
          exact ⟨⟨rfl, rfl⟩, Ne.symm hx, hdot⟩
        · rintro ⟨⟨rfl, rfl⟩, -, hdot⟩
          exact ⟨sub, dom, ih.mpr ⟨rfl, hdot⟩, ⟨rfl, rfl⟩, rfl⟩

theorem splitAtDot_append {s sub dom : Bytes} (h : splitAtDot s = some (sub, dom)) (t : Bytes) :
    splitAtDot (s ++ t) = some (sub, dom ++ t) := by
  obtain ⟨rfl, hdot⟩ := splitAtDot_eq_some.mp h
  exact splitAtDot_eq_some.mpr ⟨by simp, hdot⟩

/-- Lower-casing neither makes nor removes dots. -/
theorem byteToAsciiLowercase_eq_dot (x : UInt8) : byteToAsciiLowercase x = dot ↔ x = dot := by
  unfold byteToAsciiLowercase dot
  split
  · next h =>
    simp only [Bool.and_eq_true, decide_eq_true_eq, UInt8.le_iff_toNat_le] at h
    simp only [← UInt8.toNat_inj, UInt8.toNat_add]
    simp at h ⊢
    omega
  · exact Iff.rfl

theorem splitAtDot_toAsciiLowercase (s : Bytes) :
    splitAtDot (toAsciiLowercase s)
      = (splitAtDot s).map fun parts =>
        (toAsciiLowercase parts.1, toAsciiLowercase parts.2) := by
  induction s with
  | nil => rfl
  | cons x s ih =>
    show splitAtDot (byteToAsciiLowercase x :: toAsciiLowercase s) = _
    unfold splitAtDot
    simp only [byteToAsciiLowercase_eq_dot]
    split
    · rfl
    · rw [ih, Option.map_map, Option.map_map]
      rfl

theorem toAsciiLowercase_join (sub dom : Bytes) :
    toAsciiLowercase (sub ++ dot :: dom)
      = toAsciiLowercase sub ++ dot :: toAsciiLowercase dom := by
  simp [toAsciiLowercase, byteToAsciiLowercase, dot]

/-! ## Names -/

/-- A name: one label, or two joined by a single dot. -/
def IsName (name : Bytes) : Prop :=
  IsLabel name ∨ ∃ sub dom, name = sub ++ dot :: dom ∧ IsLabel sub ∧ IsLabel dom

/-- The name a string denotes. -/
def nameOf (name : Bytes) : Name :=
  match splitAtDot name with
  | some (sub, dom) => .sub (toAsciiLowercase dom) (toAsciiLowercase sub)
  | none => .top (toAsciiLowercase name)

theorem isName_of_split {name sub dom : Bytes} (hs : splitAtDot name = some (sub, dom)) :
    IsName name ↔ IsLabel dom ∧ IsLabel sub := by
  obtain ⟨rfl, hdot⟩ := splitAtDot_eq_some.mp hs
  constructor
  · rintro (h | ⟨sub', dom', heq, hsub', hdom'⟩)
    · exact absurd (by simp) h.dot_not_mem
    · have hs' := splitAtDot_eq_some.mpr ⟨heq, hsub'.dot_not_mem⟩
      rw [hs] at hs'
      cases hs'
      exact ⟨hdom', hsub'⟩
  · rintro ⟨hdom, hsub⟩
    exact Or.inr ⟨sub, dom, rfl, hsub, hdom⟩

theorem isName_of_split_none {name : Bytes} (hs : splitAtDot name = none) :
    IsName name ↔ IsLabel name := by
  refine ⟨?_, Or.inl⟩
  rintro (h | ⟨sub, dom, rfl, -, -⟩)
  · exact h
  · exact absurd (by simp) (splitAtDot_eq_none.mp hs)

/-- `parse_name_to_node` is the namehash of the name a string denotes. -/
theorem parseNameToNode_eq_some_iff {name : Bytes} {node : DomainHash} :
    parseNameToNode keccak256 name b = some node ↔
      IsName name ∧ node = (nameOf name).node keccak256 b := by
  unfold parseNameToNode nameOf
  cases hs : splitAtDot name with
  | none =>
    rw [isName_of_split_none hs]
    by_cases hl : IsLabel name
    · simp [hashLabel_eq, hl, Name.node, eq_comm]
    · simp [hashLabel_eq, hl]
  | some parts =>
    obtain ⟨sub, dom⟩ := parts
    rw [isName_of_split hs]
    by_cases hdom : IsLabel dom
    · by_cases hsub : IsLabel sub
      · simp [hashLabel_eq, hdom, hsub, Name.node, eq_comm]
      · simp [hashLabel_eq, hdom, hsub]
    · simp [hashLabel_eq, hdom]

theorem parseNameToNode_isSome {name : Bytes} :
    (parseNameToNode keccak256 name b).isSome = true ↔ IsName name := by
  rw [Option.isSome_iff_exists]
  simp [parseNameToNode_eq_some_iff]

/-- On one label the two hashers agree. -/
theorem parseNameToNode_label {name : Bytes} (hdot : dot ∉ name) :
    parseNameToNode keccak256 name b
      = (Label.newWithLen keccak256 name).map fun l => l.1.encodeWithNode keccak256 b := by
  have hs := splitAtDot_eq_none.mpr hdot
  simp only [parseNameToNode, hs, newWithLen_eq, hashLabel_eq]
  by_cases hl : IsLabel name
  · simp only [hl, if_true]
    rfl
  · simp only [hl, if_false]
    rfl

/-- What the registrar's hasher accepts, the parser reads as the same node. -/
theorem parseNameToNode_of_newWithLen {name : Bytes} {l : Label × Nat}
    (h : Label.newWithLen keccak256 name = some l) :
    parseNameToNode keccak256 name b = some (l.1.encodeWithNode keccak256 b) := by
  have hl : IsLabel name := by
    by_contra hl
    rw [newWithLen_eq, if_neg hl] at h
    cases h
  rw [parseNameToNode_label hl.dot_not_mem, h]
  rfl

/-- On two labels the parser hashes the first below the second, and refuses what is
not two labels. -/
theorem parseNameToNode_join (sub dom : Bytes) :
    parseNameToNode keccak256 (sub ++ dot :: dom) b
      = (Label.newWithLen keccak256 dom).bind fun d =>
        (Label.newWithLen keccak256 sub).map fun l =>
          l.1.encodeWithNode keccak256 (d.1.encodeWithNode keccak256 b) := by
  cases hs : splitAtDot sub with
  | some parts =>
    -- the string has two dots: neither the parser nor the registrar takes it
    have hdot : dot ∈ sub := by
      rw [(splitAtDot_eq_some.mp hs).1]
      simp
    have hsub : ¬ IsLabel sub := fun h => h.dot_not_mem hdot
    have hname : ¬ IsName (sub ++ dot :: dom) := by
      rw [isName_of_split (splitAtDot_append hs _)]
      exact fun h => h.1.dot_not_mem (by simp)
    have hnone : parseNameToNode keccak256 (sub ++ dot :: dom) b = none := by
      rw [← Option.not_isSome_iff_eq_none, parseNameToNode_isSome]
      exact hname
    rw [hnone, newWithLen_eq sub, if_neg hsub]
    cases Label.newWithLen keccak256 dom <;> rfl
  | none =>
    have hdot := splitAtDot_eq_none.mp hs
    simp only [parseNameToNode, splitAtDot_eq_some.mpr ⟨rfl, hdot⟩, newWithLen_eq, hashLabel_eq]
    by_cases hdom : IsLabel dom
    · by_cases hsub : IsLabel sub
      · simp only [hdom, hsub, if_true]
        rfl
      · simp only [hdom, hsub, if_true, if_false]
        rfl
    · simp only [hdom, if_false]
      rfl

/-! ## Names apart -/

/-- What is hashed for the namehash of a name. -/
def Name.inputs (keccak256 : Bytes → H256) (b : DomainHash) : Name → List Bytes
  | .base => []
  | .top label => [label, b.bytes ++ (keccak256 label).bytes]
  | .sub parent label =>
    [parent, b.bytes ++ (keccak256 parent).bytes, label,
      ((Name.top parent).node keccak256 b).bytes ++ (keccak256 label).bytes]

/-- The hash does not collide on the inputs, and none of them has the base node —
itself the hash of the TLD — as its hash. -/
structure HashesApart (keccak256 : Bytes → H256) (b : DomainHash) (inputs : List Bytes) :
    Prop where
  injective : ∀ x ∈ inputs, ∀ y ∈ inputs, keccak256 x = keccak256 y → x = y
  fresh : ∀ x ∈ inputs, keccak256 x ≠ b

theorem H256.bytes_inj {p q : H256} (h : p.bytes = q.bytes) : p = q := by
  cases p
  cases q
  simpa using h

theorem H256.append_inj {p q h k : H256} (heq : p.bytes ++ h.bytes = q.bytes ++ k.bytes) :
    p = q ∧ h = k := by
  obtain ⟨hp, hh⟩ := List.append_inj heq (p.length_eq.trans q.length_eq.symm)
  exact ⟨H256.bytes_inj hp, H256.bytes_inj hh⟩

/-- The parent and the label of a node, from the node. -/
theorem HashesApart.encodeWithNode_inj {inputs : List Bytes}
    (h : HashesApart keccak256 b inputs) {p q l k : DomainHash}
    (hp : p.bytes ++ l.bytes ∈ inputs) (hq : q.bytes ++ k.bytes ∈ inputs)
    (heq : encodeWithNode keccak256 p l = encodeWithNode keccak256 q k) : p = q ∧ l = k :=
  H256.append_inj (h.injective _ hp _ hq heq)

theorem Name.node_injective {x y : Name}
    (h : HashesApart keccak256 b (x.inputs keccak256 b ++ y.inputs keccak256 b))
    (heq : x.node keccak256 b = y.node keccak256 b) : x = y := by
  cases x with
  | base =>
    cases y with
    | base => rfl
    | top m => exact absurd heq.symm (h.fresh _ (by simp [Name.inputs]))
    | sub q m => exact absurd heq.symm (h.fresh _ (by simp [Name.inputs, Name.node]))
  | top l =>
    cases y with
    | base => exact absurd heq (h.fresh _ (by simp [Name.inputs]))
    | top m =>
      obtain ⟨-, hlabel⟩ := h.encodeWithNode_inj (by simp [Name.inputs])
        (by simp [Name.inputs]) heq
      rw [h.injective l (by simp [Name.inputs]) m (by simp [Name.inputs]) hlabel]
    | sub q m =>
      obtain ⟨hbase, -⟩ := h.encodeWithNode_inj (by simp [Name.inputs])
        (by simp [Name.inputs, Name.node]) heq
      exact absurd hbase.symm (h.fresh _ (by simp [Name.inputs]))
  | sub p l =>
    cases y with
    | base => exact absurd heq (h.fresh _ (by simp [Name.inputs, Name.node]))
    | top m =>
      obtain ⟨hbase, -⟩ := h.encodeWithNode_inj (by simp [Name.inputs, Name.node])
        (by simp [Name.inputs]) heq
      exact absurd hbase (h.fresh _ (by simp [Name.inputs]))
    | sub q m =>
      obtain ⟨hparent, hlabel⟩ := h.encodeWithNode_inj (by simp [Name.inputs, Name.node])
        (by simp [Name.inputs, Name.node]) heq
      obtain ⟨-, hdom⟩ := h.encodeWithNode_inj (by simp [Name.inputs])
        (by simp [Name.inputs]) hparent
      rw [h.injective p (by simp [Name.inputs]) q (by simp [Name.inputs]) hdom,
        h.injective l (by simp [Name.inputs]) m (by simp [Name.inputs]) hlabel]

/-- The string a name is denoted by. -/
def Name.text : Name → Bytes
  | .base => []
  | .top label => label
  | .sub parent label => label ++ dot :: parent

theorem text_nameOf (s : Bytes) : (nameOf s).text = toAsciiLowercase s := by
  unfold nameOf
  cases hs : splitAtDot s with
  | none => rfl
  | some parts =>
    obtain ⟨rfl, -⟩ := splitAtDot_eq_some.mp hs
    exact (toAsciiLowercase_join _ _).symm

/-- Strings denote the same name iff they are the same up to case. -/
theorem nameOf_eq_iff {s t : Bytes} :
    nameOf s = nameOf t ↔ toAsciiLowercase s = toAsciiLowercase t := by
  constructor
  · intro h
    rw [← text_nameOf s, ← text_nameOf t, h]
  · intro h
    have hsplit := splitAtDot_toAsciiLowercase s
    rw [h, splitAtDot_toAsciiLowercase t] at hsplit
    unfold nameOf
    cases hs : splitAtDot s with
    | none =>
      rw [hs, Option.map_none, Option.map_eq_none_iff] at hsplit
      rw [hsplit, h]
    | some parts =>
      rw [hs, Option.map_some] at hsplit
      obtain ⟨parts', ht, heq⟩ := Option.map_eq_some_iff.mp hsplit
      rw [ht]
      simp only [Prod.mk.injEq] at heq
      simp only [heq.1, heq.2]

end Hashing

end PnsPallets
