import PnsPallets.Registry

/-!
# Subname delegations and their indices

A delegation lives in `SubnameRecords`, keyed by the subname's node, and is
mirrored in three indices: `SubNames` by parent, `OfferedToAccount` by target
while it is offered, `AccountToSubnames` by target once it is active — the last
one shared with the canonical names, which are entered there when minted.

`Indexed` says that the indices mirror the records. Every delegation operation
keeps it, and so does the bulk deletion `clear_subnames`, whose loop is described
by `foldl_clearChild_swept` and as a whole by `clearSubnames_cleared`.
-/

namespace PnsPallets

open Frame Registry

/-! ## Top-level names and subnames -/

/-- `n` is the node of a top-level name with its label in `L`. -/
def TopLevel (T : Config) (L : Set Bytes) (n : DomainHash) : Prop :=
  ∃ l ∈ L, n = (Name.top l).node T.keccak256 T.baseNode

/-- `c` is the node of `label`, lower-cased, below the top-level name `p`. -/
def SubnameOf (T : Config) (L : Set Bytes) (p : DomainHash) (label : Bytes)
    (c : DomainHash) : Prop :=
  ∃ l ∈ L, toAsciiLowercase label ∈ L ∧
    p = (Name.top l).node T.keccak256 T.baseNode ∧
    c = (Name.sub l (toAsciiLowercase label)).node T.keccak256 T.baseNode

section Names

variable {T : Config} {L : Set Bytes} {n p c : DomainHash} {label : Bytes}

theorem TopLevel.ne_base (hcf : CollisionFree T.keccak256 T.baseNode L)
    (h : TopLevel T L n) : n ≠ T.baseNode := by
  obtain ⟨l, hl, rfl⟩ := h
  intro heq
  cases hcf (.top l) .base hl trivial heq

theorem SubnameOf.topLevel_parent (h : SubnameOf T L p label c) : TopLevel T L p := by
  obtain ⟨l, hl, -, hp, -⟩ := h
  exact ⟨l, hl, hp⟩

theorem SubnameOf.not_topLevel (hcf : CollisionFree T.keccak256 T.baseNode L)
    (h : SubnameOf T L p label c) : ¬ TopLevel T L c := by
  obtain ⟨l, hl, hlabel, -, rfl⟩ := h
  rintro ⟨l', hl', heq⟩
  cases hcf (.sub l _) (.top l') ⟨hl, hlabel⟩ hl' heq

theorem SubnameOf.ne_base (hcf : CollisionFree T.keccak256 T.baseNode L)
    (h : SubnameOf T L p label c) : c ≠ T.baseNode := by
  obtain ⟨l, hl, hlabel, -, rfl⟩ := h
  intro heq
  cases hcf (.sub l _) .base ⟨hl, hlabel⟩ trivial heq

/-- The node of a subname is the hash of its label below its parent. -/
theorem SubnameOf.node_eq (h : SubnameOf T L p label c) :
    c = encodeWithNode T.keccak256 p (T.keccak256 (toAsciiLowercase label)) := by
  obtain ⟨l, -, -, rfl, rfl⟩ := h
  rfl

/-- A subname has one parent: the one its node is computed from. -/
theorem SubnameOf.parent_eq (hcf : CollisionFree T.keccak256 T.baseNode L)
    (h : SubnameOf T L p label c) {l l' : Bytes} (hl : l ∈ L) (hl' : l' ∈ L)
    (hc : c = (Name.sub l l').node T.keccak256 T.baseNode) :
    p = (Name.top l).node T.keccak256 T.baseNode := by
  obtain ⟨k, hk, hlabel, rfl, rfl⟩ := h
  have heq := hcf (.sub k _) (.sub l l') ⟨hk, hlabel⟩ ⟨hl, hl'⟩ hc
  rw [(Name.sub.inj heq).1]

end Names

/-! ## The index invariant -/

/-- Every index entry is backed by a record: an offer by an offered one, a held
subname by an active one. `AccountToSubnames` also holds top-level names. -/
structure Backed (T : Config) (L : Set Bytes) (r : RegistryStorage) : Prop where
  offered : ∀ t c, (r.offeredToAccount.get (t, c)).isSome = true →
    ∃ d, r.subnameRecords.get c = some d ∧ d.target = t ∧ d.state = .offered
  held : ∀ t c, (r.accountToSubnames.get (t, c)).isSome = true →
    TopLevel T L c ∨
      ∃ d, r.subnameRecords.get c = some d ∧ d.target = t ∧ d.state = .active

/-- The three indices mirror the delegation records. -/
structure Indexed (T : Config) (L : Set Bytes) (r : RegistryStorage) : Prop
    extends Backed T L r where
  index : ∀ p c, (r.subNames.get (p, c)).isSome = true ↔
    ∃ d, r.subnameRecords.get c = some d ∧ d.parent = p
  named : ∀ c d, r.subnameRecords.get c = some d → SubnameOf T L d.parent d.label.val c
  offered_of : ∀ c d, r.subnameRecords.get c = some d → d.state = .offered →
    (r.offeredToAccount.get (d.target, c)).isSome = true
  active_of : ∀ c d, r.subnameRecords.get c = some d → d.state = .active →
    (r.accountToSubnames.get (d.target, c)).isSome = true

/-- `r'` is `r` without the delegations of the nodes in `D`. -/
structure Forgets (D : DomainHash → Bool) (r r' : RegistryStorage) : Prop where
  subnameRecords : ∀ c,
    r'.subnameRecords.get c = if D c then none else r.subnameRecords.get c
  subNames : ∀ p c,
    r'.subNames.get (p, c) = if D c then none else r.subNames.get (p, c)
  offeredToAccount : ∀ t c,
    r'.offeredToAccount.get (t, c) = if D c then none else r.offeredToAccount.get (t, c)
  accountToSubnames : ∀ t c,
    r'.accountToSubnames.get (t, c) = if D c then none else r.accountToSubnames.get (t, c)

section Indices

variable {T : Config} {L : Set Bytes} {r r' : RegistryStorage} {D : DomainHash → Bool}
  {c n p : DomainHash} {a : AccountId} {d : SubnameRecord}

/-- No offered record, no offer entry. -/
theorem Backed.offered_eq_none (hb : Backed T L r) {t : AccountId}
    (hno : ∀ d, r.subnameRecords.get c = some d → d.target = t → d.state ≠ .offered) :
    r.offeredToAccount.get (t, c) = none := by
  cases hg : r.offeredToAccount.get (t, c) with
  | none => rfl
  | some u =>
    obtain ⟨d, hd, ht, hs⟩ := hb.offered t c (by rw [hg]; rfl)
    exact absurd hs (hno d hd ht)

/-- No active record, no entry for a subname. -/
theorem Backed.held_eq_none (hb : Backed T L r) {t : AccountId} (hc : ¬ TopLevel T L c)
    (hno : ∀ d, r.subnameRecords.get c = some d → d.target = t → d.state ≠ .active) :
    r.accountToSubnames.get (t, c) = none := by
  cases hg : r.accountToSubnames.get (t, c) with
  | none => rfl
  | some u =>
    rcases hb.held t c (by rw [hg]; rfl) with htop | ⟨d, hd, ht, hs⟩
    · exact absurd htop hc
    · exact absurd hs (hno d hd ht)

/-- An offer entry of a node is that of its record's target: removing it removes all
entries of the node. -/
theorem Backed.offered_remove (hb : Backed T L r) (hd : r.subnameRecords.get c = some d)
    (t : AccountId) (m : DomainHash) :
    (r.offeredToAccount.remove (d.target, c)).get (t, m)
      = if m = c then none else r.offeredToAccount.get (t, m) := by
  refine StorageMap.get_remove_pair (fun t' hne => hb.offered_eq_none fun d' hd' ht' => ?_) t m
  rw [hd, Option.some.injEq] at hd'
  exact absurd (hd' ▸ ht').symm hne

theorem Backed.held_remove (hb : Backed T L r) (hc : ¬ TopLevel T L c)
    (hd : r.subnameRecords.get c = some d) (t : AccountId) (m : DomainHash) :
    (r.accountToSubnames.remove (d.target, c)).get (t, m)
      = if m = c then none else r.accountToSubnames.get (t, m) := by
  refine StorageMap.get_remove_pair (fun t' hne => hb.held_eq_none hc fun d' hd' ht' => ?_) t m
  rw [hd, Option.some.injEq] at hd'
  exact absurd (hd' ▸ ht').symm hne

/-- A node that is not offered has no offer entries to remove. -/
theorem Backed.offered_keep (hb : Backed T L r)
    (hno : ∀ d, r.subnameRecords.get c = some d → d.state ≠ .offered)
    (t : AccountId) (m : DomainHash) :
    r.offeredToAccount.get (t, m) = if m = c then none else r.offeredToAccount.get (t, m) := by
  split
  · next hm => exact hm ▸ hb.offered_eq_none fun d hd _ => hno d hd
  · rfl

theorem Backed.held_keep (hb : Backed T L r) (hc : ¬ TopLevel T L c)
    (hno : ∀ d, r.subnameRecords.get c = some d → d.state ≠ .active)
    (t : AccountId) (m : DomainHash) :
    r.accountToSubnames.get (t, m)
      = if m = c then none else r.accountToSubnames.get (t, m) := by
  split
  · next hm => exact hm ▸ hb.held_eq_none hc fun d hd _ => hno d hd
  · rfl

/-- Forgetting records and their entries leaves the other entries backed. -/
theorem Backed.forget (hb : Backed T L r)
    (hrec : ∀ c, r'.subnameRecords.get c = if D c then none else r.subnameRecords.get c)
    (hoff : ∀ t c, r'.offeredToAccount.get (t, c)
      = if D c then none else r.offeredToAccount.get (t, c))
    (hheld : ∀ t c, r'.accountToSubnames.get (t, c)
      = if D c then none else r.accountToSubnames.get (t, c)) : Backed T L r' where
  offered t c ht := by
    rw [hoff] at ht
    rw [hrec]
    cases hD : D c with
    | true => simp [hD] at ht
    | false => exact hb.offered t c (by simpa [hD] using ht)
  held t c ht := by
    rw [hheld] at ht
    rw [hrec]
    cases hD : D c with
    | true => simp [hD] at ht
    | false => exact hb.held t c (by simpa [hD] using ht)

/-- Forgetting whole delegations keeps the indices in step. -/
theorem Indexed.forget (h : Indexed T L r) (hf : Forgets D r r') : Indexed T L r' where
  toBacked := h.toBacked.forget hf.subnameRecords hf.offeredToAccount hf.accountToSubnames
  index p c := by
    rw [hf.subNames, hf.subnameRecords]
    cases hD : D c with
    | true => simp
    | false => exact h.index p c
  named c d hd := by
    rw [hf.subnameRecords] at hd
    split at hd
    · cases hd
    · exact h.named c d hd
  offered_of c d hd hs := by
    rw [hf.subnameRecords] at hd
    rw [hf.offeredToAccount]
    split at hd
    · cases hd
    · next hD =>
      rw [if_neg hD]
      exact h.offered_of c d hd hs
  active_of c d hd hs := by
    rw [hf.subnameRecords] at hd
    rw [hf.accountToSubnames]
    split at hd
    · cases hd
    · next hD =>
      rw [if_neg hD]
      exact h.active_of c d hd hs

/-! ## One delegation changes -/

/-- `r'` is `r` but for what the four maps say of the node `c`. -/
structure DiffersAt (c : DomainHash) (r r' : RegistryStorage) : Prop where
  subnameRecords : ∀ m, m ≠ c → r'.subnameRecords.get m = r.subnameRecords.get m
  subNames : ∀ p m, m ≠ c → r'.subNames.get (p, m) = r.subNames.get (p, m)
  offeredToAccount : ∀ t m, m ≠ c →
    r'.offeredToAccount.get (t, m) = r.offeredToAccount.get (t, m)
  accountToSubnames : ∀ t m, m ≠ c →
    r'.accountToSubnames.get (t, m) = r.accountToSubnames.get (t, m)

/-- The indices stay in step if they mirror the record of the node that changes. -/
theorem Indexed.of_differsAt (h : Indexed T L r) (hdiff : DiffersAt c r r')
    (hd : r'.subnameRecords.get c = some d) (hname : SubnameOf T L d.parent d.label.val c)
    (hindex : ∀ p, (r'.subNames.get (p, c)).isSome = true ↔ d.parent = p)
    (hoffered : ∀ t, (r'.offeredToAccount.get (t, c)).isSome = true ↔
      d.target = t ∧ d.state = .offered)
    (hheld : ∀ t, (r'.accountToSubnames.get (t, c)).isSome = true →
      TopLevel T L c ∨ d.target = t ∧ d.state = .active)
    (hactive : d.state = .active → (r'.accountToSubnames.get (d.target, c)).isSome = true) :
    Indexed T L r' where
  offered t m ht := by
    by_cases hm : m = c
    · subst hm
      exact ⟨d, hd, (hoffered t).mp ht⟩
    · rw [hdiff.offeredToAccount t m hm] at ht
      rw [hdiff.subnameRecords m hm]
      exact h.offered t m ht
  held t m ht := by
    by_cases hm : m = c
    · subst hm
      exact (hheld t ht).imp_right fun hcase => ⟨d, hd, hcase⟩
    · rw [hdiff.accountToSubnames t m hm] at ht
      rw [hdiff.subnameRecords m hm]
      exact h.held t m ht
  index p m := by
    by_cases hm : m = c
    · subst hm
      rw [hindex, hd]
      simp
    · rw [hdiff.subNames p m hm, hdiff.subnameRecords m hm]
      exact h.index p m
  named m e he := by
    by_cases hm : m = c
    · subst hm
      rw [hd, Option.some.injEq] at he
      exact he ▸ hname
    · exact h.named m e (hdiff.subnameRecords m hm ▸ he)
  offered_of m e he hs := by
    by_cases hm : m = c
    · subst hm
      rw [hd, Option.some.injEq] at he
      subst he
      exact (hoffered d.target).mpr ⟨rfl, hs⟩
    · rw [hdiff.offeredToAccount _ m hm]
      exact h.offered_of m e (hdiff.subnameRecords m hm ▸ he) hs
  active_of m e he hs := by
    by_cases hm : m = c
    · subst hm
      rw [hd, Option.some.injEq] at he
      subst he
      exact hactive hs
    · rw [hdiff.accountToSubnames _ m hm]
      exact h.active_of m e (hdiff.subnameRecords m hm ▸ he) hs

/-- Of a delegated node, `SubNames` lists the parent of the record only. -/
theorem Indexed.subNames_iff (h : Indexed T L r) (hd : r.subnameRecords.get c = some d)
    (p : DomainHash) : (r.subNames.get (p, c)).isSome = true ↔ d.parent = p := by
  rw [h.index, hd]
  simp

/-- What `AccountToSubnames` says of a delegated node. -/
theorem Indexed.held_record (h : Indexed T L r) (hd : r.subnameRecords.get c = some d)
    {t : AccountId} (ht : (r.accountToSubnames.get (t, c)).isSome = true) :
    TopLevel T L c ∨ d.target = t ∧ d.state = .active := by
  rcases h.held t c ht with htop | ⟨d', hd', hcase⟩
  · exact Or.inl htop
  · rw [hd, Option.some.injEq] at hd'
    exact Or.inr (hd' ▸ hcase)

/-- A new offer (`offer_subname`). -/
theorem Indexed.offer (h : Indexed T L r) (hnew : r.subnameRecords.get c = none)
    (hname : SubnameOf T L d.parent d.label.val c) (hstate : d.state = .offered) :
    Indexed T L { r with
      subnameRecords := r.subnameRecords.insert c d
      offeredToAccount := r.offeredToAccount.insert (d.target, c) ()
      subNames := r.subNames.insert (d.parent, c) () } := by
  have hdiff : DiffersAt c r { r with
      subnameRecords := r.subnameRecords.insert c d
      offeredToAccount := r.offeredToAccount.insert (d.target, c) ()
      subNames := r.subNames.insert (d.parent, c) () } :=
    ⟨fun m hm => by simp [hm], fun p m hm => by simp [hm], fun t m hm => by simp [hm],
      fun _ _ _ => rfl⟩
  -- there was no record, so the indices had no entry of `c`
  have hno : ∀ p, (r.subNames.get (p, c)).isSome = false := by
    intro p
    rw [Bool.eq_false_iff]
    intro hp
    obtain ⟨d', hd', -⟩ := (h.index p c).mp hp
    cases hnew.symm.trans hd'
  have hnone : ∀ t, r.offeredToAccount.get (t, c) = none := fun t =>
    h.offered_eq_none fun d' hd' => by cases hnew.symm.trans hd'
  refine h.of_differsAt hdiff (by simp) hname (fun p => ?_) (fun t => ?_) (fun t ht => ?_)
    fun hs => ?_
  · by_cases hp : p = d.parent
    · simp [hp]
    · simp [hp, hno p, Ne.symm hp]
  · by_cases ht : t = d.target
    · simp [ht, hstate]
    · simp [ht, hnone t, Ne.symm ht]
  · rcases h.held t c ht with htop | ⟨d', hd', -⟩
    · exact Or.inl htop
    · cases hnew.symm.trans hd'
  · cases hstate.symm.trans hs

/-- An accepted offer (`accept_subname_offer`). -/
theorem Indexed.accept (h : Indexed T L r) (hd : r.subnameRecords.get c = some d) :
    Indexed T L { r with
      subnameRecords := r.subnameRecords.insert c { d with state := .active }
      offeredToAccount := r.offeredToAccount.remove (d.target, c)
      accountToSubnames := r.accountToSubnames.insert (d.target, c) () } := by
  have hdiff : DiffersAt c r { r with
      subnameRecords := r.subnameRecords.insert c { d with state := .active }
      offeredToAccount := r.offeredToAccount.remove (d.target, c)
      accountToSubnames := r.accountToSubnames.insert (d.target, c) () } :=
    ⟨fun m hm => by simp [hm], fun _ _ _ => rfl, fun t m hm => by simp [hm],
      fun t m hm => by simp [hm]⟩
  refine h.of_differsAt (d := { d with state := .active }) hdiff (by simp) (h.named c d hd)
    (fun p => h.subNames_iff hd p) (fun t => ?_) (fun t ht => ?_) fun _ => by simp
  · rw [h.offered_remove hd, if_pos rfl]
    simp
  · by_cases hkey : d.target = t
    · exact Or.inr ⟨hkey, rfl⟩
    · have hold : (r.accountToSubnames.get (t, c)).isSome = true := by
        simpa [Ne.symm hkey] using ht
      exact (h.held_record hd hold).imp_right fun hcase => absurd hcase.1 hkey

/-- A rejected offer (`reject_subname_offer`). -/
theorem Indexed.reject (h : Indexed T L r) (hd : r.subnameRecords.get c = some d)
    (hstate : d.state = .offered) :
    Indexed T L { r with
      subnameRecords := r.subnameRecords.insert c { d with state := .rejected }
      offeredToAccount := r.offeredToAccount.remove (d.target, c) } := by
  have hdiff : DiffersAt c r { r with
      subnameRecords := r.subnameRecords.insert c { d with state := .rejected }
      offeredToAccount := r.offeredToAccount.remove (d.target, c) } :=
    ⟨fun m hm => by simp [hm], fun _ _ _ => rfl, fun t m hm => by simp [hm],
      fun _ _ _ => rfl⟩
  refine h.of_differsAt (d := { d with state := .rejected }) hdiff (by simp)
    (h.named c d hd) (fun p => h.subNames_iff hd p) (fun t => ?_) (fun t ht => ?_)
    fun hs => by cases hs
  · rw [h.offered_remove hd, if_pos rfl]
    simp
  · -- the record was offered, so an entry can only be that of a canonical name
    refine (h.held_record hd ht).imp_right fun hcase => ?_
    cases hstate.symm.trans hcase.2

/-- Entering a canonical name in `AccountToSubnames`. -/
theorem Indexed.hold (h : Indexed T L r) (hn : TopLevel T L n) :
    Indexed T L { r with accountToSubnames := r.accountToSubnames.insert (a, n) () } := by
  refine ⟨⟨h.offered, fun t c ht => ?_⟩, h.index, h.named, h.offered_of, fun c d hd hs => ?_⟩
  · rw [StorageMap.get_insert] at ht
    split at ht
    · next hkey => exact Or.inl ((Prod.mk.inj hkey).2 ▸ hn)
    · exact h.held t c ht
  · rw [StorageMap.get_insert]
    split
    · rfl
    · exact h.active_of c d hd hs

/-- Removing a canonical name from `AccountToSubnames`: no subname's entry goes. -/
theorem Indexed.unhold (hcf : CollisionFree T.keccak256 T.baseNode L) (h : Indexed T L r)
    (hn : TopLevel T L n) :
    Indexed T L { r with accountToSubnames := r.accountToSubnames.remove (a, n) } := by
  refine ⟨⟨h.offered, fun t c ht => ?_⟩, h.index, h.named, h.offered_of, fun c d hd hs => ?_⟩
  · rw [StorageMap.get_remove] at ht
    split at ht
    · cases ht
    · exact h.held t c ht
  · have hne : c ≠ n := by
      rintro rfl
      exact (h.named c d hd).not_topLevel hcf hn
    have hkey : (d.target, c) ≠ (a, n) := fun heq => hne (Prod.mk.inj heq).2
    rw [StorageMap.get_remove, if_neg hkey]
    exact h.active_of c d hd hs

/-- The hierarchy map is no index: any change to it is harmless here. -/
theorem Indexed.setOrigin (h : Indexed T L r) (o : StorageMap DomainHash DomainTracing) :
    Indexed T L { r with runtimeOrigin := o } :=
  ⟨⟨h.offered, h.held⟩, h.index, h.named, h.offered_of, h.active_of⟩

end Indices

/-! ## Deleting a delegation -/

section Deletion

variable {T : Config} {L : Set Bytes}

/-- `dropDelegation` removes a subname's record and, with it, every index entry
of the subname by account. -/
theorem dropDelegation_spec {r : RegistryStorage} (hb : Backed T L r) {c : DomainHash}
    (hc : ¬ TopLevel T L c) :
    (∀ m, (dropDelegation r c).subnameRecords.get m
      = if m = c then none else r.subnameRecords.get m) ∧
    (∀ t m, (dropDelegation r c).offeredToAccount.get (t, m)
      = if m = c then none else r.offeredToAccount.get (t, m)) ∧
    (∀ t m, (dropDelegation r c).accountToSubnames.get (t, m)
      = if m = c then none else r.accountToSubnames.get (t, m)) ∧
    (dropDelegation r c).subNames = r.subNames ∧
    (dropDelegation r c).runtimeOrigin = r.runtimeOrigin ∧
    (dropDelegation r c).official = r.official := by
  cases hd : r.subnameRecords.get c with
  | none =>
    have heq : dropDelegation r c = r := by simp only [dropDelegation, hd]
    have hno : ∀ d, r.subnameRecords.get c ≠ some d := by simp [hd]
    rw [heq]
    refine ⟨fun m => ?_, hb.offered_keep fun d hd' => absurd hd' (hno d),
      hb.held_keep hc fun d hd' => absurd hd' (hno d), rfl, rfl, rfl⟩
    split
    · next hm => rw [hm, hd]
    · rfl
  | some d =>
    have hstate : ∀ d', r.subnameRecords.get c = some d' → d'.state = d.state := by
      simp [hd]
    cases hs : d.state with
    | offered | rejected =>
      have heq : dropDelegation r c = { r with
          subnameRecords := r.subnameRecords.remove c
          offeredToAccount := r.offeredToAccount.remove (d.target, c) } := by
        simp only [dropDelegation, hd, hs]
      rw [heq]
      refine ⟨StorageMap.get_remove _ c, hb.offered_remove hd,
        hb.held_keep hc fun d' hd' => ?_, rfl, rfl, rfl⟩
      simp [hstate d' hd', hs]
    | active =>
      have heq : dropDelegation r c = { r with
          subnameRecords := r.subnameRecords.remove c
          accountToSubnames := r.accountToSubnames.remove (d.target, c) } := by
        simp only [dropDelegation, hd, hs]
      rw [heq]
      refine ⟨StorageMap.get_remove _ c, hb.offered_keep fun d' hd' => ?_,
        hb.held_remove hc hd, rfl, rfl, rfl⟩
      simp [hstate d' hd', hs]

/-- `s'` is `s` after the loop of `clear_subnames` went over the nodes in `D`:
their records, delegations and hierarchy entries are gone, and nothing else
changed; `SubNames` itself is cleared after the loop. -/
structure Swept (D : DomainHash → Bool) (s s' : State T) : Prop where
  frame : s' = { s with registry := s'.registry, resolvers := s'.resolvers }
  subnameRecords : ∀ c, s'.registry.subnameRecords.get c
    = if D c then none else s.registry.subnameRecords.get c
  offeredToAccount : ∀ t c, s'.registry.offeredToAccount.get (t, c)
    = if D c then none else s.registry.offeredToAccount.get (t, c)
  accountToSubnames : ∀ t c, s'.registry.accountToSubnames.get (t, c)
    = if D c then none else s.registry.accountToSubnames.get (t, c)
  runtimeOrigin : ∀ c, s'.registry.runtimeOrigin.get c
    = if D c then none else s.registry.runtimeOrigin.get c
  subNames : s'.registry.subNames = s.registry.subNames
  official : s'.registry.official = s.registry.official
  records : ∀ c rt, s'.resolvers.records.get (c, rt)
    = if D c then none else s.resolvers.records.get (c, rt)
  texts : ∀ c k, s'.resolvers.texts.get (c, k)
    = if D c then none else s.resolvers.texts.get (c, k)

theorem Swept.nft {D : DomainHash → Bool} {s s' : State T} (h : Swept D s s') :
    s'.nft = s.nft := by
  rw [h.frame]

theorem Swept.backed {D : DomainHash → Bool} {s s' : State T} (h : Swept D s s')
    (hb : Backed T L s.registry) : Backed T L s'.registry :=
  hb.forget h.subnameRecords h.offeredToAccount h.accountToSubnames

/-- Sweeping twice sweeps both sets of nodes. -/
theorem Swept.trans {D E : DomainHash → Bool} {s s₁ s₂ : State T} (h₁ : Swept D s s₁)
    (h₂ : Swept E s₁ s₂) : Swept (fun c => D c || E c) s s₂ := by
  have hboth : ∀ {α : Type} (c : DomainHash) (x : Option α),
      (if E c then none else if D c then none else x)
        = if D c || E c then none else x := by
    intro α c x
    cases D c <;> cases E c <;> rfl
  exact
    { frame := by rw [h₂.frame, h₁.frame]
      subnameRecords := fun c => by rw [h₂.subnameRecords, h₁.subnameRecords, hboth]
      offeredToAccount := fun t c => by rw [h₂.offeredToAccount, h₁.offeredToAccount, hboth]
      accountToSubnames := fun t c => by
        rw [h₂.accountToSubnames, h₁.accountToSubnames, hboth]
      runtimeOrigin := fun c => by rw [h₂.runtimeOrigin, h₁.runtimeOrigin, hboth]
      subNames := h₂.subNames.trans h₁.subNames
      official := h₂.official.trans h₁.official
      records := fun c rt => by rw [h₂.records, h₁.records, hboth]
      texts := fun c k => by rw [h₂.texts, h₁.texts, hboth] }

/-- One round of the loop, on a subname that is no token: the legacy burn is not
reached. -/
theorem clearChild_swept {s : State T} (hb : Backed T L s.registry) {c : DomainHash}
    (hc : ¬ TopLevel T L c) (hno : s.nft.tokens.get (classZero, c) = none) :
    Swept (fun m => m = c) s (clearChild s c) := by
  have hback : Backed T L { s.registry with
      runtimeOrigin := s.registry.runtimeOrigin.remove c } := ⟨hb.offered, hb.held⟩
  obtain ⟨hrec, hoff, hheld, hsub, horig, hofficial⟩ := dropDelegation_spec hback hc
  unfold clearChild burnLegacySubname
  simp only [hno]
  exact
    { frame := rfl
      subnameRecords := by simpa using hrec
      offeredToAccount := by simpa using hoff
      accountToSubnames := by simpa using hheld
      runtimeOrigin := by simp [horig]
      subNames := hsub
      official := hofficial
      records := by simp
      texts := by simp }

/-- The loop of `clear_subnames` over subnames none of which is a token. -/
theorem foldl_clearChild_swept (cs : List DomainHash) {s : State T}
    (hb : Backed T L s.registry)
    (hcs : ∀ c ∈ cs, ¬ TopLevel T L c ∧ s.nft.tokens.get (classZero, c) = none) :
    Swept (fun m => m ∈ cs) s (cs.foldl clearChild s) := by
  induction cs generalizing s with
  | nil => constructor <;> simp
  | cons c cs ih =>
    obtain ⟨hc, hno⟩ := hcs c List.mem_cons_self
    have h₁ := clearChild_swept hb hc hno
    have hrest : ∀ m ∈ cs, ¬ TopLevel T L m ∧
        (clearChild s c).nft.tokens.get (classZero, m) = none := by
      intro m hm
      rw [h₁.nft]
      exact hcs m (List.mem_cons_of_mem _ hm)
    have h₂ := ih (h₁.backed hb) hrest
    have hnodes : (fun m => decide (m ∈ c :: cs))
        = fun m => decide (m = c) || decide (m ∈ cs) := by
      funext m
      simp
    rw [List.foldl_cons, hnodes]
    exact h₁.trans h₂

/-! ## `clear_subnames` as a whole -/

/-- `c` is listed in `SubNames` below `n`. -/
def childOf (r : RegistryStorage) (n c : DomainHash) : Bool := (r.subNames.get (n, c)).isSome

/-- `s'` is `s` with the subnames of `n` cleared: delegations, records and
hierarchy entries of the children are gone and the child counter is reset. -/
structure Cleared (n : DomainHash) (s s' : State T) : Prop where
  frame : s' = { s with
    nft := resetChildren s.nft n, registry := s'.registry, resolvers := s'.resolvers }
  forgets : Forgets (childOf s.registry n) s.registry s'.registry
  runtimeOrigin : ∀ m, s'.registry.runtimeOrigin.get m
    = if childOf s.registry n m then none else s.registry.runtimeOrigin.get m
  official : s'.registry.official = s.registry.official
  records : ∀ m rt, s'.resolvers.records.get (m, rt)
    = if childOf s.registry n m then none else s.resolvers.records.get (m, rt)
  texts : ∀ m k, s'.resolvers.texts.get (m, k)
    = if childOf s.registry n m then none else s.resolvers.texts.get (m, k)

/-- A child has one parent: `SubNames` lists it below no other node. -/
theorem Indexed.childOf_unique {r : RegistryStorage} (h : Indexed T L r)
    {n p c : DomainHash} (hn : childOf r n c = true) (hp : childOf r p c = true) :
    p = n := by
  obtain ⟨d, hd, rfl⟩ := (h.index n c).mp hn
  obtain ⟨d', hd', rfl⟩ := (h.index p c).mp hp
  rw [hd, Option.some.injEq] at hd'
  rw [hd']

theorem Indexed.childOf_not_topLevel (hcf : CollisionFree T.keccak256 T.baseNode L)
    {r : RegistryStorage} (h : Indexed T L r) {n c : DomainHash}
    (hc : childOf r n c = true) : ¬ TopLevel T L c := by
  obtain ⟨d, hd, -⟩ := (h.index n c).mp hc
  exact (h.named c d hd).not_topLevel hcf

theorem clearSubnames_cleared (hcf : CollisionFree T.keccak256 T.baseNode L)
    {s : State T} (h : Indexed T L s.registry) {n : DomainHash}
    (hno : ∀ c, childOf s.registry n c = true → s.nft.tokens.get (classZero, c) = none) :
    Cleared n s (clearSubnames s n) := by
  have hmem : ∀ c, c ∈ (s.registry.subNames.iterPrefix n).map Prod.fst ↔
      childOf s.registry n c = true := fun c => StorageMap.mem_iterPrefix_keys
  have hswept := foldl_clearChild_swept ((s.registry.subNames.iterPrefix n).map Prod.fst)
    h.toBacked fun c hc =>
      ⟨h.childOf_not_topLevel hcf ((hmem c).mp hc), hno c ((hmem c).mp hc)⟩
  simp only [hmem, Bool.decide_eq_true] at hswept
  unfold clearSubnames
  -- `SubNames` loses the prefix `n`, which is the entries of the children
  have hsub : ∀ p c, (s.registry.subNames.clearPrefix n).get (p, c)
      = if childOf s.registry n c then none else s.registry.subNames.get (p, c) := by
    intro p c
    rw [StorageMap.get_clearPrefix]
    show (if p = n then none else _) = _
    by_cases hp : p = n
    · subst hp
      rw [if_pos rfl]
      cases hg : s.registry.subNames.get (p, c) <;> simp [childOf, hg]
    · rw [if_neg hp]
      split
      · next hchild =>
        cases hg : s.registry.subNames.get (p, c) with
        | none => rfl
        | some u => exact absurd (h.childOf_unique hchild (by simp [childOf, hg])) hp
      · rfl
  exact
    { frame := by
        dsimp only
        rw [hswept.frame]
      forgets :=
        { subnameRecords := hswept.subnameRecords
          subNames := fun p c => by
            show (StorageMap.clearPrefix _ n).get (p, c) = _
            rw [hswept.subNames, hsub]
          offeredToAccount := hswept.offeredToAccount
          accountToSubnames := hswept.accountToSubnames }
      runtimeOrigin := hswept.runtimeOrigin
      official := hswept.official
      records := hswept.records
      texts := hswept.texts }

/-! ## Withdrawing one delegation -/

/-- `s'` is `s` without the delegation `d` of `c`; an active subname loses its
records with it. -/
structure Withdrawn (c : DomainHash) (d : SubnameRecord) (s s' : State T) : Prop where
  frame : s' = { s with
    nft := s'.nft, registry := s'.registry, resolvers := s'.resolvers }
  record : s.registry.subnameRecords.get c = some d
  counter : subChildren s.nft d.parent = .ok s'.nft
  forgets : Forgets (fun m => m = c) s.registry s'.registry
  runtimeOrigin : s'.registry.runtimeOrigin = s.registry.runtimeOrigin
  official : s'.registry.official = s.registry.official
  resolvers : s'.resolvers
    = if d.state = .active then Resolvers.clearAllRecords s.resolvers c else s.resolvers

/-- Removing the parent's entry of a delegated node removes the node from `SubNames`. -/
theorem Indexed.subNames_remove {r : RegistryStorage} (h : Indexed T L r) {c : DomainHash}
    {d : SubnameRecord} (hd : r.subnameRecords.get c = some d) (p m : DomainHash) :
    (r.subNames.remove (d.parent, c)).get (p, m)
      = if m = c then none else r.subNames.get (p, m) := by
  refine StorageMap.get_remove_pair (fun q hq => ?_) p m
  rw [← Option.not_isSome_iff_eq_none, h.subNames_iff hd]
  exact Ne.symm hq

/-- Withdrawing an active delegation forgets it whole. -/
theorem Indexed.forgets_active (hcf : CollisionFree T.keccak256 T.baseNode L)
    {r : RegistryStorage} (h : Indexed T L r) {c : DomainHash} {d : SubnameRecord}
    (hd : r.subnameRecords.get c = some d) (hs : d.state = .active) :
    Forgets (fun m => m = c) r { r with
      subnameRecords := r.subnameRecords.remove c
      subNames := r.subNames.remove (d.parent, c)
      accountToSubnames := r.accountToSubnames.remove (d.target, c) } := by
  have hnot := (h.named c d hd).not_topLevel hcf
  have hno : ∀ d', r.subnameRecords.get c = some d' → d'.state ≠ .offered := by
    simp [hd, hs]
  constructor
  · simp
  · simpa using h.subNames_remove hd
  · simpa using h.offered_keep hno
  · simpa using h.held_remove hnot hd

/-- Withdrawing an offered or rejected delegation forgets it whole. -/
theorem Indexed.forgets_inactive (hcf : CollisionFree T.keccak256 T.baseNode L)
    {r : RegistryStorage} (h : Indexed T L r) {c : DomainHash} {d : SubnameRecord}
    (hd : r.subnameRecords.get c = some d) (hs : d.state ≠ .active) :
    Forgets (fun m => m = c) r { r with
      subnameRecords := r.subnameRecords.remove c
      subNames := r.subNames.remove (d.parent, c)
      offeredToAccount := r.offeredToAccount.remove (d.target, c) } := by
  have hnot := (h.named c d hd).not_topLevel hcf
  have hno : ∀ d', r.subnameRecords.get c = some d' → d'.state ≠ .active := by
    simp [hd, hs]
  constructor
  · simp
  · simpa using h.subNames_remove hd
  · simpa using h.offered_remove hd
  · simpa using h.held_keep hnot hno

theorem revokeSubname_withdrawn (hcf : CollisionFree T.keccak256 T.baseNode L)
    {s s' : State T} (h : Indexed T L s.registry) {p c : DomainHash}
    (hok : revokeSubname s p c = .ok s') :
    ∃ d, d.parent = p ∧ Withdrawn c d s s' := by
  unfold revokeSubname at hok
  simp only [bind_eq_ok, okOr_eq_ok, ensure_eq_ok, pure_eq_ok] at hok
  obtain ⟨d, hd, -, rfl, nft, hnft, rfl⟩ := hok
  refine ⟨d, rfl, ?_⟩
  unfold forgetHolder at hnft ⊢
  cases hs : d.state with
  | active =>
    rw [hs] at hnft
    exact ⟨rfl, hd, hnft, h.forgets_active hcf hd hs, rfl, rfl, (if_pos hs).symm⟩
  | offered | rejected =>
    rw [hs] at hnft
    have hne : d.state ≠ .active := by simp [hs]
    exact ⟨rfl, hd, hnft, h.forgets_inactive hcf hd hne, rfl, rfl, (if_neg hne).symm⟩

theorem releaseSubname_withdrawn (hcf : CollisionFree T.keccak256 T.baseNode L)
    {s s' : State T} (h : Indexed T L s.registry) {c p : DomainHash} {holder : AccountId}
    (hok : releaseSubname s c holder = .ok (s', p)) :
    ∃ d, d.target = holder ∧ d.state = .active ∧ Withdrawn c d s s' := by
  unfold releaseSubname at hok
  simp only [bind_eq_ok, okOr_eq_ok, ensure_eq_ok, pure_eq_ok, Prod.mk.injEq] at hok
  obtain ⟨d, hd, -, hs, -, rfl, nft, hnft, rfl, rfl⟩ := hok
  exact ⟨d, rfl, hs, rfl, hd, hnft, h.forgets_active hcf hd hs, rfl, rfl, (if_pos hs).symm⟩

end Deletion

end PnsPallets
