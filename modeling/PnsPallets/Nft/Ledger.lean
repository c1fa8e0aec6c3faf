import PnsPallets.Registry

/-!
# The NFT ledger

`nft::mint` does not look whether the id exists and the index `TokensByOwner` is
written separately from `Tokens`. `Ledger` says that the two agree and that a
class's issuance counts its tokens; each operation keeps it, `mint` for an id
that is not there. What the registry reads of a token is its owner and its child
counter (`ownerOf`, `childrenOf`): the operations are described by what they do to
these two functions.
-/

namespace PnsPallets

open Frame Registry

variable {T : Config}

/-- The owner of a name's token. -/
def NftStorage.ownerOf (nft : NftStorage T) (n : DomainHash) : Option AccountId :=
  (nft.tokens.get (classZero, n)).map (·.owner)

/-- The child counter of a name's token. -/
def NftStorage.childrenOf (nft : NftStorage T) (n : DomainHash) : Option UInt32 :=
  (nft.tokens.get (classZero, n)).map (·.data.children)

/-- The owner of the class of names. -/
def NftStorage.classOwner (nft : NftStorage T) : Option AccountId :=
  (nft.classes.get classZero).map (·.owner)

/-- A name has a counter as it has an owner: with its token. -/
theorem NftStorage.childrenOf_isSome (nft : NftStorage T) (n : DomainHash) :
    (nft.childrenOf n).isSome = (nft.ownerOf n).isSome := by
  simp [NftStorage.childrenOf, NftStorage.ownerOf]

theorem NftStorage.ownerOf_isSome (nft : NftStorage T) (n : DomainHash) :
    (nft.ownerOf n).isSome = (nft.tokens.get (classZero, n)).isSome :=
  Option.isSome_map

theorem NftStorage.tokens_eq_none {nft : NftStorage T} {n : DomainHash} :
    nft.tokens.get (classZero, n) = none ↔ nft.ownerOf n = none := by
  simp [NftStorage.ownerOf]

/-- Index and issuance agree with the tokens. -/
structure Ledger (nft : NftStorage T) : Prop where
  /-- `TokensByOwner` lists exactly the owned tokens. -/
  index : ∀ a k, (nft.tokensByOwner.get (a, k)).isSome = true ↔
    ∃ info, nft.tokens.get k = some info ∧ info.owner = a
  /-- `total_issuance` counts the tokens of the class. -/
  issuance : ∀ c cls, nft.classes.get c = some cls →
    cls.totalIssuance.toNat = nft.tokens.count (fun k _ => k.1 = c)
  /-- Tokens live in existing classes. -/
  class_exists : ∀ k info, nft.tokens.get k = some info → (nft.classes.get k.1).isSome = true

/-! ## Rewriting a token in place -/

/-- Replacing the data of a token, but not its owner, keeps the ledger. -/
theorem Ledger.setChildren {nft : NftStorage T} {n : DomainHash} {info : TokenInfo T}
    {children : UInt32} (hl : Ledger nft)
    (hinfo : nft.tokens.get (classZero, n) = some info) :
    Ledger (setChildren nft n info children) where
  index a k := by
    show (nft.tokensByOwner.get (a, k)).isSome = true ↔ _
    rw [hl.index]
    unfold Registry.setChildren
    by_cases hk : k = (classZero, n)
    · subst hk
      simp [hinfo]
    · simp [hk]
  issuance c cls hcls := by
    rw [hl.issuance c cls hcls]
    refine StorageMap.count_congr fun k => ?_
    unfold Registry.setChildren
    by_cases hk : k = (classZero, n)
    · subst hk
      simp [hinfo]
    · simp [hk]
  class_exists k info' h := by
    unfold Registry.setChildren at h
    by_cases hk : k = (classZero, n)
    · subst hk
      exact hl.class_exists _ _ hinfo
    · rw [StorageMap.get_insert, if_neg hk] at h
      exact hl.class_exists _ _ h

/-- A counter is no owner. -/
theorem setChildren_ownerOf {nft : NftStorage T} {n : DomainHash} {info : TokenInfo T}
    {children : UInt32} (hinfo : nft.tokens.get (classZero, n) = some info) :
    (setChildren nft n info children).ownerOf = nft.ownerOf := by
  funext m
  unfold NftStorage.ownerOf setChildren
  by_cases hm : m = n
  · subst hm
    simp [hinfo]
  · simp [hm]

/-- Only the counter of the name changes. -/
theorem setChildren_childrenOf (nft : NftStorage T) (n : DomainHash) (info : TokenInfo T)
    (children : UInt32) (m : DomainHash) :
    (setChildren nft n info children).childrenOf m
      = if m = n then some children else nft.childrenOf m := by
  unfold NftStorage.childrenOf setChildren
  by_cases hm : m = n
  · subst hm
    simp
  · simp [hm]

/-! ## Transfer -/

section Transfer

variable {nft nft' : NftStorage T} {source dest : AccountId} {n : DomainHash}

/-- A transfer moves one entry of the index with the token. A transfer to the owner
itself changes nothing. -/
theorem Ledger.transfer {k : ClassId × DomainHash} (hl : Ledger nft)
    (h : Nft.transfer nft source dest k = .ok nft') : Ledger nft' := by
  obtain ⟨info, hinfo, hown, ⟨-, rfl⟩ | ⟨hne, rfl⟩⟩ := Nft.transfer_eq_ok h
  · exact hl
  · -- index, issuance and classes; only the first depends on the owner
    refine ⟨fun a j => ?_, fun c cls hcls => ?_, fun j info' hj => ?_⟩
    · by_cases hj : j = k
      · subst hj
        have hidx := hl.index a j
        rw [hinfo] at hidx
        by_cases ha : a = dest
        · simp [ha]
        · by_cases ha' : a = source
          · simp [ha', hne, Ne.symm hne]
          · simp [ha, ha', Ne.symm ha]
            simpa [hown, Ne.symm ha'] using hidx
      · have hkey : ∀ b : AccountId, (a, j) ≠ (b, k) := fun b hb => hj (Prod.mk.inj hb).2
        simp only [StorageMap.get_insert, StorageMap.get_remove, if_neg (hkey _), if_neg hj]
        exact hl.index a j
    · rw [hl.issuance c cls hcls]
      refine StorageMap.count_congr fun j => ?_
      by_cases hj : j = k
      · subst hj
        simp [hinfo]
      · simp [hj]
    · by_cases hjk : j = k
      · subst hjk
        exact hl.class_exists _ _ hinfo
      · rw [StorageMap.get_insert, if_neg hjk] at hj
        exact hl.class_exists _ _ hj

/-- What is transferred is the source's. -/
theorem transfer_ownerOf_source
    (h : Nft.transfer nft source dest (classZero, n) = .ok nft') :
    nft.ownerOf n = some source := by
  obtain ⟨info, hinfo, hown, -⟩ := Nft.transfer_eq_ok h
  simp [NftStorage.ownerOf, hinfo, hown]

/-- A transfer changes the owner of its token, and of no other. -/
theorem transfer_ownerOf (h : Nft.transfer nft source dest (classZero, n) = .ok nft')
    (m : DomainHash) :
    nft'.ownerOf m = if m = n then some dest else nft.ownerOf m := by
  obtain ⟨info, hinfo, hown, ⟨rfl, rfl⟩ | ⟨-, rfl⟩⟩ := Nft.transfer_eq_ok h
  · split
    · next hm =>
      rw [hm]
      exact transfer_ownerOf_source h
    · rfl
  · by_cases hm : m = n
    · subst hm
      simp [NftStorage.ownerOf]
    · simp [NftStorage.ownerOf, hm]

/-- A transfer mints and burns nothing. -/
theorem transfer_minted (h : Nft.transfer nft source dest (classZero, n) = .ok nft')
    (m : DomainHash) :
    (nft'.ownerOf m).isSome = (nft.ownerOf m).isSome := by
  rw [transfer_ownerOf h]
  split
  · next hm =>
    rw [hm, transfer_ownerOf_source h]
    rfl
  · rfl

/-- A token takes its counter along. -/
theorem transfer_childrenOf (h : Nft.transfer nft source dest (classZero, n) = .ok nft') :
    nft'.childrenOf = nft.childrenOf := by
  obtain ⟨info, hinfo, hown, ⟨rfl, rfl⟩ | ⟨-, rfl⟩⟩ := Nft.transfer_eq_ok h
  · rfl
  · funext m
    by_cases hm : m = n
    · subst hm
      simp [NftStorage.childrenOf, hinfo]
    · simp [NftStorage.childrenOf, hm]

theorem transfer_classOwner {k : ClassId × DomainHash}
    (h : Nft.transfer nft source dest k = .ok nft') : nft'.classOwner = nft.classOwner := by
  obtain ⟨info, hinfo, hown, ⟨rfl, rfl⟩ | ⟨-, rfl⟩⟩ := Nft.transfer_eq_ok h
  · rfl
  · rfl

end Transfer

/-! ## Mint -/

section Mint

variable {nft nft' : NftStorage T} {owner : AccountId} {metadata : Bytes} {data : Record}
  {n : DomainHash}

/-- Minting a new id keeps the ledger. -/
theorem Ledger.mint {k : ClassId × DomainHash} (hl : Ledger nft)
    (hnew : nft.tokens.get k = none)
    (h : Nft.mint nft owner k metadata data = .ok nft') : Ledger nft' := by
  obtain ⟨bounded, cls, total, hcls, htotal, rfl⟩ := Nft.mint_eq_ok h
  refine ⟨fun a j => ?_, fun c cls' hcls' => ?_, fun j info' hj => ?_⟩
  · by_cases hj : j = k
    · subst hj
      have hidx := hl.index a j
      rw [hnew] at hidx
      by_cases ha : a = owner
      · simp [ha]
      · simpa [ha, Ne.symm ha] using hidx
    · have hkey : (a, j) ≠ (owner, k) := fun hb => hj (Prod.mk.inj hb).2
      simp only [StorageMap.get_insert, if_neg hkey, if_neg hj]
      exact hl.index a j
  · by_cases hc : c = k.1
    · -- the class of the new token: issuance and count both go up by one
      subst hc
      rw [StorageMap.get_insert, if_pos rfl, Option.some.injEq] at hcls'
      subst hcls'
      have hcount := hl.issuance _ _ hcls
      have hadd := checkedAdd128_eq_some htotal
      have hstep : (nft.tokens.insert k ⟨bounded, owner, data⟩).count
            (fun j _ => decide (j.1 = k.1))
          = nft.tokens.count (fun j _ => decide (j.1 = k.1)) + 1 := by
        refine StorageMap.count_add_one (k := k) (by simp [hnew]) fun j => ?_
        by_cases hj : j = k
        · simp [hj]
        · simp [hj]
      show total.toNat = _
      rw [hstep, ← hcount, hadd]
      rfl
    · rw [StorageMap.get_insert, if_neg hc] at hcls'
      rw [hl.issuance c cls' hcls']
      refine StorageMap.count_congr fun j => ?_
      by_cases hj : j = k
      · subst hj
        simp [hnew, Ne.symm hc]
      · simp [hj]
  · by_cases hjk : j = k
    · subst hjk
      simp
    · rw [StorageMap.get_insert, if_neg hjk] at hj
      have hsome := hl.class_exists _ _ hj
      by_cases hc : j.1 = k.1
      · simp [hc]
      · simpa [hc] using hsome

/-- The minted token is the given owner's. -/
theorem mint_ownerOf (h : Nft.mint nft owner (classZero, n) metadata data = .ok nft')
    (m : DomainHash) :
    nft'.ownerOf m = if m = n then some owner else nft.ownerOf m := by
  obtain ⟨bounded, cls, total, -, -, rfl⟩ := Nft.mint_eq_ok h
  by_cases hm : m = n
  · subst hm
    simp [NftStorage.ownerOf]
  · simp [NftStorage.ownerOf, hm]

/-- It has the counter of the given record. -/
theorem mint_childrenOf (h : Nft.mint nft owner (classZero, n) metadata data = .ok nft')
    (m : DomainHash) :
    nft'.childrenOf m = if m = n then some data.children else nft.childrenOf m := by
  obtain ⟨bounded, cls, total, -, -, rfl⟩ := Nft.mint_eq_ok h
  by_cases hm : m = n
  · subst hm
    simp [NftStorage.childrenOf]
  · simp [NftStorage.childrenOf, hm]

theorem mint_classOwner {k : ClassId × DomainHash}
    (h : Nft.mint nft owner k metadata data = .ok nft') :
    nft'.classOwner = nft.classOwner := by
  obtain ⟨bounded, cls, total, hcls, -, rfl⟩ := Nft.mint_eq_ok h
  by_cases hc : classZero = k.1
  · rw [← hc] at hcls
    simp [NftStorage.classOwner, ← hc, hcls]
  · simp [NftStorage.classOwner, hc]

end Mint

/-! ## Burn -/

section Burn

variable {nft nft' : NftStorage T} {owner : AccountId} {n : DomainHash}

/-- A burn removes one token, its entry of the index, and one from the issuance. -/
theorem Ledger.burn {k : ClassId × DomainHash} (hl : Ledger nft)
    (h : Nft.burn nft owner k = .ok nft') : Ledger nft' := by
  obtain ⟨t, cls, total, ht, hown, hcls, htotal, rfl⟩ := Nft.burn_eq_ok h
  refine ⟨fun a j => ?_, fun c cls' hcls' => ?_, fun j info' hj => ?_⟩
  · by_cases hj : j = k
    · subst hj
      have hidx := hl.index a j
      rw [ht] at hidx
      by_cases ha : a = owner
      · simp [ha]
      · simpa [ha, hown, Ne.symm ha] using hidx
    · have hkey : (a, j) ≠ (owner, k) := fun hb => hj (Prod.mk.inj hb).2
      simp only [StorageMap.get_remove, if_neg hkey, if_neg hj]
      exact hl.index a j
  · by_cases hc : c = k.1
    · -- the class of the burned token: issuance and count both go down by one
      subst hc
      rw [StorageMap.get_insert, if_pos rfl, Option.some.injEq] at hcls'
      subst hcls'
      have hcount := hl.issuance _ _ hcls
      have hsub := checkedSub128_eq_some htotal
      have hstep : nft.tokens.count (fun j _ => decide (j.1 = k.1))
          = (nft.tokens.remove k).count (fun j _ => decide (j.1 = k.1)) + 1 := by
        refine StorageMap.count_add_one (k := k) (by simp) fun j => ?_
        by_cases hj : j = k
        · subst hj
          simp [ht]
        · simp [hj]
      show total.toNat = _
      rw [hcount, hstep] at hsub
      exact Nat.add_right_cancel hsub
    · rw [StorageMap.get_insert, if_neg hc] at hcls'
      rw [hl.issuance c cls' hcls']
      refine StorageMap.count_congr fun j => ?_
      by_cases hj : j = k
      · subst hj
        simp [ht, Ne.symm hc]
      · simp [hj]
  · rw [StorageMap.get_remove] at hj
    split at hj
    · cases hj
    · have hsome := hl.class_exists _ _ hj
      by_cases hc : j.1 = k.1
      · simp [hc]
      · simpa [hc] using hsome

/-- On a consistent ledger an owner's burn goes through: the class is there and
the checked subtraction of its issuance does not fail. -/
theorem Ledger.burn_isOk {k : ClassId × DomainHash} {t : TokenInfo T} (hl : Ledger nft)
    (ht : nft.tokens.get k = some t) : ∃ nft', Nft.burn nft t.owner k = .ok nft' := by
  obtain ⟨cls, hcls⟩ := Option.isSome_iff_exists.mp (hl.class_exists _ _ ht)
  have hpos : 1 ≤ cls.totalIssuance.toNat := by
    rw [hl.issuance _ _ hcls]
    exact StorageMap.count_pos ht (decide_eq_true rfl)
  obtain ⟨total, htotal⟩ := checkedSub128_isSome (a := cls.totalIssuance) (b := 1) hpos
  refine ⟨{ nft with
    classes := nft.classes.insert k.1 { cls with totalIssuance := total }
    tokens := nft.tokens.remove k
    tokensByOwner := nft.tokensByOwner.remove (t.owner, k) }, ?_⟩
  simp only [Nft.burn, bind_eq_ok, okOr_eq_ok, ensure_eq_ok, pure_eq_ok]
  exact ⟨t, ht, (), rfl, cls, hcls, total, htotal, rfl⟩

/-- What is burned is the caller's. -/
theorem burn_ownerOf_before (h : Nft.burn nft owner (classZero, n) = .ok nft') :
    nft.ownerOf n = some owner := by
  obtain ⟨t, cls, total, ht, hown, -⟩ := Nft.burn_eq_ok h
  simp [NftStorage.ownerOf, ht, hown]

/-- A burned name has no owner any more. -/
theorem burn_ownerOf (h : Nft.burn nft owner (classZero, n) = .ok nft') (m : DomainHash) :
    nft'.ownerOf m = if m = n then none else nft.ownerOf m := by
  obtain ⟨t, cls, total, -, -, -, -, rfl⟩ := Nft.burn_eq_ok h
  by_cases hm : m = n
  · subst hm
    simp [NftStorage.ownerOf]
  · simp [NftStorage.ownerOf, hm]

/-- Its counter goes with it. -/
theorem burn_childrenOf (h : Nft.burn nft owner (classZero, n) = .ok nft')
    (m : DomainHash) :
    nft'.childrenOf m = if m = n then none else nft.childrenOf m := by
  obtain ⟨t, cls, total, -, -, -, -, rfl⟩ := Nft.burn_eq_ok h
  by_cases hm : m = n
  · subst hm
    simp [NftStorage.childrenOf]
  · simp [NftStorage.childrenOf, hm]

theorem burn_classOwner {k : ClassId × DomainHash}
    (h : Nft.burn nft owner k = .ok nft') : nft'.classOwner = nft.classOwner := by
  obtain ⟨t, cls, total, -, -, hcls, -, rfl⟩ := Nft.burn_eq_ok h
  by_cases hc : classZero = k.1
  · rw [← hc] at hcls
    simp [NftStorage.classOwner, ← hc, hcls]
  · simp [NftStorage.classOwner, hc]

end Burn

/-! ## The class of names -/

/-- The class can change hands without its tokens. -/
theorem Ledger.setClassOwner {nft : NftStorage T} (hl : Ledger nft) (a : AccountId) :
    Ledger (setClassOwner nft a) := by
  unfold Registry.setClassOwner
  cases hcls : nft.classes.get classZero with
  | none => exact hl
  | some cls =>
    refine ⟨hl.index, fun c cls' hcls' => ?_, fun j info hj => ?_⟩
    · rw [StorageMap.get_insert] at hcls'
      split at hcls'
      · next hc =>
        rw [Option.some.injEq] at hcls'
        subst hc hcls'
        exact hl.issuance _ cls hcls
      · exact hl.issuance _ _ hcls'
    · have hsome := hl.class_exists _ _ hj
      by_cases hc : j.1 = classZero
      · simp [hc]
      · simpa [hc] using hsome

theorem setClassOwner_classOwner {nft : NftStorage T} {a b : AccountId}
    (h : nft.classOwner = some b) : (setClassOwner nft a).classOwner = some a := by
  unfold Registry.setClassOwner
  cases hcls : nft.classes.get classZero with
  | none => simp [NftStorage.classOwner, hcls] at h
  | some cls => simp [NftStorage.classOwner]

theorem setClassOwner_tokens (nft : NftStorage T) (a : AccountId) :
    (setClassOwner nft a).tokens = nft.tokens := by
  unfold setClassOwner
  split <;> rfl

end PnsPallets
