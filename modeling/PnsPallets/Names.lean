import Mathlib.Data.List.Nodup
import Mathlib.Data.Set.Basic
import PnsPallets.Primitives

/-!
# Labels, names and their hashes

Labels are the dot-free parts of a name; a name is one label or two (`sub.dom`).
Everything on chain is keyed by *namehash*: the hash of a name is the keccak of
its parent's hash followed by the keccak of its lower-cased label, and top-level
names hang below the TLD's base node. Two crates compute it — `Label` of
pns-registrar (traits.rs:179–273) and `parse_name_to_node` of pns-types
(lib.rs:168–220) — with the same checks written out twice.

`keccak_256` is a host function. It is a parameter here, and what the pallets
rely on is stated about the names that occur: `CollisionFree L` says that the
names built from the labels `L` have pairwise different hashes, none of them the
base node. `L` will be the labels that occur in a run, so the assumption is about
those finitely many inputs.
-/

namespace PnsPallets

/-! ## UTF-8 and ASCII -/

/-- A UTF-8 continuation byte. -/
def isContinuation (b : UInt8) : Bool := 0x80 ≤ b && b ≤ 0xBF

/-- `core::str::from_utf8`: the code points of a well-formed UTF-8 string. -/
def fromUtf8 : Bytes → Option (List Nat)
  | [] => some []
  | b₀ :: rest₀ =>
    if b₀ < 0x80 then
      (fromUtf8 rest₀).map (b₀.toNat :: ·)
    else
      match rest₀ with
      | [] => none
      | b₁ :: rest₁ =>
        if 0xC2 ≤ b₀ && b₀ ≤ 0xDF && isContinuation b₁ then
          (fromUtf8 rest₁).map (((b₀.toNat - 0xC0) * 64 + (b₁.toNat - 0x80)) :: ·)
        else
          match rest₁ with
          | [] => none
          | b₂ :: rest₂ =>
            -- no overlong forms after E0, no surrogates after ED
            if 0xE0 ≤ b₀ && b₀ ≤ 0xEF && isContinuation b₁ && isContinuation b₂
                && (b₀ != 0xE0 || 0xA0 ≤ b₁) && (b₀ != 0xED || b₁ ≤ 0x9F) then
              (fromUtf8 rest₂).map (((b₀.toNat - 0xE0) * 4096
                + (b₁.toNat - 0x80) * 64 + (b₂.toNat - 0x80)) :: ·)
            else
              match rest₂ with
              | [] => none
              | b₃ :: rest₃ =>
                -- no overlong forms after F0, nothing above U+10FFFF after F4
                if 0xF0 ≤ b₀ && b₀ ≤ 0xF4 && isContinuation b₁ && isContinuation b₂
                    && isContinuation b₃ && (b₀ != 0xF0 || 0x90 ≤ b₁)
                    && (b₀ != 0xF4 || b₁ ≤ 0x8F) then
                  (fromUtf8 rest₃).map (((b₀.toNat - 0xF0) * 262144
                    + (b₁.toNat - 0x80) * 4096 + (b₂.toNat - 0x80) * 64
                    + (b₃.toNat - 0x80)) :: ·)
                else none

/-- `char::is_ascii_alphanumeric`. -/
def isAsciiAlphanumeric (c : Nat) : Bool :=
  (48 ≤ c && c ≤ 57) || (65 ≤ c && c ≤ 90) || (97 ≤ c && c ≤ 122)

/-- `char::to_ascii_lowercase`. -/
def charToAsciiLowercase (c : Nat) : Nat := if 65 ≤ c && c ≤ 90 then c + 32 else c

/-- `u8::to_ascii_lowercase`. -/
def byteToAsciiLowercase (b : UInt8) : UInt8 := if 65 ≤ b && b ≤ 90 then b + 32 else b

/-- `str::to_ascii_lowercase`, on the bytes of the string: the bytes of a
multi-byte character are left alone. -/
def toAsciiLowercase (s : Bytes) : Bytes := s.map byteToAsciiLowercase

/-! ## Label checks -/

/-- The label check shared by `check_label` and `validate_label`: well-formed
UTF-8, length within bounds, letters and digits only. -/
def asciiLabel (minLen maxLen : Nat) (label : Bytes) : Option Unit :=
  match fromUtf8 label with
  | none => none
  | some chars =>
    if minLen ≤ (toAsciiLowercase label).length
        && (toAsciiLowercase label).length ≤ maxLen then
      if (chars.map charToAsciiLowercase).all isAsciiAlphanumeric then some () else none
    else none

/-- `LABEL_MAX_LEN` (traits.rs:182). -/
def labelMaxLen : Nat := 63

/-- `LABEL_MIN_LEN` (traits.rs:183). -/
def labelMinLen : Nat := 1

/-- `MIN_REGISTRABLE_LEN` (traits.rs:184). -/
def minRegistrableLen : Nat := 1

/-- `traits::check_label` (traits.rs:259–273). -/
def checkLabel (label : Bytes) : Option Unit := asciiLabel labelMinLen labelMaxLen label

/-- `pns_types::validate_label` (lib.rs:203–220). -/
def validateLabel (label : Bytes) : Option Unit := asciiLabel 1 63 label

/-- `Available::is_registrable` (traits.rs:284–286). -/
def isRegistrable (len : Nat) : Bool := minRegistrableLen ≤ len

/-! ## Hashes -/

/-- `Label` (traits.rs:179–181): the hash of one lower-cased label. -/
structure Label where
  node : DomainHash
deriving DecidableEq

section Hashing

variable (keccak256 : Bytes → H256)

/-- `Label::new` (traits.rs:187–193). -/
def Label.new (data : Bytes) : Option Label :=
  match checkLabel data with
  | none => none
  | some () => some ⟨keccak256 (toAsciiLowercase data)⟩

/-- `Label::new_with_len` (traits.rs:221–227). -/
def Label.newWithLen (data : Bytes) : Option (Label × Nat) :=
  match checkLabel data with
  | none => none
  | some () =>
    some (⟨keccak256 (toAsciiLowercase data)⟩, (toAsciiLowercase data).length)

/-- `Label::encode_with_node` (traits.rs:246–250). -/
def Label.encodeWithNode (l : Label) (node : DomainHash) : DomainHash :=
  keccak256 (node.bytes ++ l.node.bytes)

/-- `hash_label` inside `parse_name_to_node` (lib.rs:172–176). -/
def hashLabel (label : Bytes) : Option DomainHash :=
  match validateLabel label with
  | none => none
  | some () => some (keccak256 (toAsciiLowercase label))

/-- `encode_with_node` inside `parse_name_to_node` (lib.rs:180–183). -/
def encodeWithNode (parent labelHash : DomainHash) : DomainHash :=
  keccak256 (parent.bytes ++ labelHash.bytes)

/-- `b'.'`. -/
def dot : UInt8 := 46

/-- Split a name at its first dot, as `name[..dot]` and `name[dot + 1..]`. -/
def splitAtDot : Bytes → Option (Bytes × Bytes)
  | [] => none
  | b :: rest =>
    if b = dot then some ([], rest)
    else (splitAtDot rest).map fun parts => (b :: parts.1, parts.2)

/-- `pns_types::parse_name_to_node` (lib.rs:168–195). -/
def parseNameToNode (name : Bytes) (baseNode : DomainHash) : Option DomainHash :=
  match splitAtDot name with
  | some (subLabel, domainLabel) => do
    let domainHash ← hashLabel keccak256 domainLabel
    let subHash ← hashLabel keccak256 subLabel
    some (encodeWithNode keccak256 (encodeWithNode keccak256 baseNode domainHash) subHash)
  | none => do
    let labelHash ← hashLabel keccak256 name
    some (encodeWithNode keccak256 baseNode labelHash)

end Hashing

/-! ## Names over a set of labels -/

/-- The names of the service, by their lower-cased labels: the TLD itself, a
top-level name, a subname `label.parent`. -/
inductive Name where
  | base
  | top (label : Bytes)
  | sub (parent label : Bytes)
deriving DecidableEq

/-- The namehash of a name. -/
def Name.node (keccak256 : Bytes → H256) (baseNode : DomainHash) : Name → DomainHash
  | .base => baseNode
  | .top label => encodeWithNode keccak256 baseNode (keccak256 label)
  | .sub parent label =>
    encodeWithNode keccak256 (encodeWithNode keccak256 baseNode (keccak256 parent))
      (keccak256 label)

/-- The name is built from labels in `L`. -/
def Name.Over (L : Set Bytes) : Name → Prop
  | .base => True
  | .top label => label ∈ L
  | .sub parent label => parent ∈ L ∧ label ∈ L

/-- Namehashes are collision-free on the names built from `L`. -/
def CollisionFree (keccak256 : Bytes → H256) (baseNode : DomainHash) (L : Set Bytes) :
    Prop :=
  ∀ x y : Name, x.Over L → y.Over L →
    x.node keccak256 baseNode = y.node keccak256 baseNode → x = y

/-- The names built from a list of labels. -/
def Name.all (labels : List Bytes) : List Name :=
  .base :: labels.map .top ++ labels.flatMap fun parent => labels.map (.sub parent)

theorem Name.mem_all {labels : List Bytes} {x : Name} (hx : x.Over {l | l ∈ labels}) :
    x ∈ Name.all labels := by
  cases x with
  | base => simp [Name.all]
  | top label => simpa [Name.all, Name.Over] using hx
  | sub parent label => simpa [Name.all, Name.Over] using hx

/-- Collision-freedom over finitely many labels is a finite check. -/
theorem collisionFree_of_nodup {keccak256 : Bytes → H256} {baseNode : DomainHash}
    {labels : List Bytes}
    (h : ((Name.all labels).map (Name.node keccak256 baseNode)).Nodup) :
    CollisionFree keccak256 baseNode {l | l ∈ labels} := by
  intro x y hx hy heq
  exact List.inj_on_of_nodup_map h (Name.mem_all hx) (Name.mem_all hy) heq

/-- The lower-cased labels a name argument mentions. -/
def nameLabels (name : Bytes) : List Bytes :=
  match splitAtDot name with
  | some (subLabel, domainLabel) =>
    [toAsciiLowercase subLabel, toAsciiLowercase domainLabel]
  | none => [toAsciiLowercase name]

section Specs

variable {keccak256 : Bytes → H256}

theorem label_new_of_newWithLen {data : Bytes} {l : Label × Nat}
    (h : Label.newWithLen keccak256 data = some l) : Label.new keccak256 data = some l.1 := by
  unfold Label.newWithLen at h
  unfold Label.new
  split at h
  · cases h
  · cases h
    simp_all

theorem label_newWithLen_node {data : Bytes} {l : Label} {len : Nat}
    (h : Label.newWithLen keccak256 data = some (l, len)) :
    l.node = keccak256 (toAsciiLowercase data) := by
  unfold Label.newWithLen at h
  split at h
  · cases h
  · cases h
    rfl

/-- The node of a top-level label below the base node. -/
theorem label_encodeWithNode_top {data : Bytes} {l : Label} {baseNode : DomainHash}
    (h : l.node = keccak256 (toAsciiLowercase data)) :
    l.encodeWithNode keccak256 baseNode
      = (Name.top (toAsciiLowercase data)).node keccak256 baseNode := by
  unfold Label.encodeWithNode
  rw [h]
  rfl

theorem hashLabel_eq_some {label : Bytes} {h : DomainHash}
    (hh : hashLabel keccak256 label = some h) :
    h = keccak256 (toAsciiLowercase label) := by
  unfold hashLabel at hh
  split at hh
  · cases hh
  · cases hh
    rfl

/-- A parsed name is a top-level name or a subname over the labels it mentions. -/
theorem parseNameToNode_eq_some {name : Bytes} {baseNode node : DomainHash}
    (h : parseNameToNode keccak256 name baseNode = some node) :
    ∃ x : Name, x ≠ .base ∧ x.Over {l | l ∈ nameLabels name} ∧
      node = x.node keccak256 baseNode := by
  unfold parseNameToNode at h
  cases hs : splitAtDot name with
  | none =>
    simp only [hs, Option.bind_eq_bind, Option.bind_eq_some_iff, Option.some.injEq] at h
    obtain ⟨labelHash, hl, rfl⟩ := h
    rw [hashLabel_eq_some hl]
    refine ⟨.top (toAsciiLowercase name), by simp, ?_, rfl⟩
    simp [Name.Over, nameLabels, hs]
  | some parts =>
    obtain ⟨subLabel, domainLabel⟩ := parts
    simp only [hs, Option.bind_eq_bind, Option.bind_eq_some_iff, Option.some.injEq] at h
    obtain ⟨domainHash, hd, subHash, hsub, rfl⟩ := h
    rw [hashLabel_eq_some hd, hashLabel_eq_some hsub]
    refine ⟨.sub (toAsciiLowercase domainLabel) (toAsciiLowercase subLabel), by simp, ?_, rfl⟩
    simp [Name.Over, nameLabels, hs]

end Specs

end PnsPallets
