import PnsPallets.Holdings.Operations

/-!
# The discipline of the holdings

What the operations of `Holdings.Operations` keep, and which of them can change
who owns a name:

- `OneName`: an account holds at most one name, and answers to it; kept by every
  operation;
- `PointersOwned`, `GiftsOwned`, `Anchored`: pointers, gifts and anchors name the
  owner; kept by the operations that meet a side condition (`Op.KeepsPointers`,
  `Op.KeepsGifts`, `Op.KeepsAnchors`);
- `Op.owner_kept`, `Op.owner_acquired`: the operations that take a live name from
  its owner, or give a name to somebody.
-/

namespace Holdings

variable {α ν τ β : Type} [DecidableEq α] [DecidableEq ν] [Preorder τ] {enc : α → β}
  {h : Book α ν τ β} {op : Op α ν τ}

/-! ## Where holdings come from -/

/-- The operation makes `n` the primary name of `a`. -/
def Op.Gives : Op α ν τ → α → ν → Prop
  | .claim n a _ _, x, m => x = a ∧ m = n
  | .move n _ b _, x, m => x = b ∧ m = n
  | .acceptGift n a, x, m => x = a ∧ m = n
  | _, _, _ => False

omit [DecidableEq α] in
/-- What is held after `n` was vacated was held before. -/
theorem Book.Holds.of_vacate {k : Book α ν τ β} {n m : ν} {x : α} (hh : k.Holds x m)
    (hown : k.owner = Function.update h.owner n none)
    (hexp : k.expiry = Function.update h.expiry n none) (hnow : k.now = h.now)
    (hgift : ∀ m, m ≠ n → k.gift m = h.gift m) : h.Holds x m := by
  obtain ⟨hown', ⟨e, hexp', hle⟩, hgift'⟩ := hh
  rw [hown] at hown'
  rw [hexp] at hexp'
  by_cases hm : m = n
  · subst hm
    rw [Function.update_self] at hown'
    cases hown'
  · rw [Function.update_of_ne hm] at hown' hexp'
    rw [hgift m hm] at hgift'
    exact ⟨hown', ⟨e, hexp', hnow ▸ hle⟩, hgift'⟩

/-- What an account holds after an operation it held before, or was given by it. -/
theorem Op.holds_cases (hen : op.Enabled h) {x : α} {m : ν}
    (hh : (op.apply enc h).Holds x m) : h.Holds x m ∨ op.Gives x m := by
  obtain ⟨hown, ⟨e, hexp, hle⟩, hgift⟩ := id hh
  cases op with
  | claim n a u D =>
    simp only [Op.apply, Book.handTo, Book.dropSubs] at hown hexp hgift hle
    by_cases hm : m = n
    · subst hm
      rw [Function.update_self, Option.some.injEq] at hown
      exact Or.inr ⟨hown.symm, rfl⟩
    · rw [Function.update_of_ne hm] at hown hexp
      exact Or.inl ⟨hown, ⟨e, hexp, hle⟩, hgift⟩
  | move n a b D =>
    simp only [Op.apply, Book.handTo, Book.dropSubs] at hown hexp hgift hle
    by_cases hm : m = n
    · subst hm
      rw [Function.update_self, Option.some.injEq] at hown
      exact Or.inr ⟨hown.symm, rfl⟩
    · rw [Function.update_of_ne hm] at hown
      exact Or.inl ⟨hown, ⟨e, hexp, hle⟩, hgift⟩
  | bestow n a b D =>
    simp only [Op.apply, Book.handTo, Book.dropSubs] at hown hexp hgift hle
    by_cases hm : m = n
    · -- the new owner does not hold the gift yet
      subst hm
      rw [Function.update_self] at hown hgift
      exact absurd hown hgift
    · rw [Function.update_of_ne hm] at hown hgift
      exact Or.inl ⟨hown, ⟨e, hexp, hle⟩, hgift⟩
  | acceptGift n a =>
    simp only [Op.apply] at hown hexp hgift hle
    by_cases hm : m = n ∧ x = a
    · exact Or.inr ⟨hm.2, hm.1⟩
    · refine Or.inl ⟨hown, ⟨e, hexp, hle⟩, fun hg => hm ?_⟩
      by_cases hmn : m = n
      · subst hmn
        exact ⟨rfl, Option.some.inj (hg.symm.trans hen.1)⟩
      · rw [Function.update_of_ne hmn] at hgift
        exact absurd hg hgift
  | burn n a D =>
    exact Or.inl (hh.of_vacate (n := n) rfl rfl rfl fun _ _ => rfl)
  | release n a D =>
    exact Or.inl (hh.of_vacate (n := n) rfl rfl rfl fun _ _ => rfl)
  | rejectGift n a D =>
    exact Or.inl (hh.of_vacate (n := n) rfl rfl rfl fun _ hm =>
      Function.update_of_ne hm _ _)
  | acceptSub c a => exact Or.inl ⟨hown, ⟨e, hexp, hle⟩, hgift⟩
  | drop D => exact Or.inl ⟨hown, ⟨e, hexp, hle⟩, hgift⟩
  | renew n u =>
    by_cases hm : m = n
    · subst hm
      exact Or.inl ⟨hown, hen, hgift⟩
    · simp only [Op.apply] at hexp
      rw [Function.update_of_ne hm] at hexp
      exact Or.inl ⟨hown, ⟨e, hexp, hle⟩, hgift⟩
  | tick t => exact Or.inl ⟨hown, ⟨e, hexp, le_trans hen hle⟩, hgift⟩

omit [DecidableEq α] [DecidableEq ν] in
/-- Who is given a name was free before. -/
theorem Op.gives_free (hen : op.Enabled h) {x : α} {m : ν} (hg : op.Gives x m) :
    h.Free x := by
  cases op with
  | claim n a e D => exact hg.1 ▸ hen.1
  | move n a b D => exact hg.1 ▸ hen.2.2.1
  | acceptGift n a => exact hg.1 ▸ hen.2.1
  | bestow | burn | release | rejectGift | acceptSub | drop | renew | tick => exact hg.elim

omit [Preorder τ] in
/-- Who is given a name answers to it afterwards. -/
theorem Op.gives_primary {x : α} {m : ν} (hg : op.Gives x m) :
    (op.apply enc h).primary x = some m := by
  cases op with
  | claim n a e D =>
    obtain ⟨rfl, rfl⟩ := hg
    simp [Op.apply]
  | move n a b D =>
    obtain ⟨rfl, rfl⟩ := hg
    simp [Op.apply]
  | acceptGift n a =>
    obtain ⟨rfl, rfl⟩ := hg
    simp [Op.apply]
  | bestow | burn | release | rejectGift | acceptSub | drop | renew | tick => exact hg.elim

omit [Preorder τ] in
/-- A subname's holder held it before or has just accepted it. -/
theorem Op.active_cases {x : α} {c : ν} (ha : (op.apply enc h).active c = some x) :
    h.active c = some x ∨ op = .acceptSub c x := by
  have hdrop : ∀ D : ν → Bool, (if D c then none else h.active c) = some x →
      h.active c = some x := by
    intro D hD
    split at hD
    · cases hD
    · exact hD
  cases op with
  | claim n a e D => exact Or.inl (hdrop D ha)
  | move n a b D => exact Or.inl (hdrop D ha)
  | bestow n a b D => exact Or.inl (hdrop D ha)
  | burn n a D => exact Or.inl (hdrop D ha)
  | release n a D => exact Or.inl (hdrop D ha)
  | rejectGift n a D => exact Or.inl (hdrop D ha)
  | drop D => exact Or.inl (hdrop D ha)
  | acceptSub c' a =>
    by_cases hc : c = c'
    · subst hc
      have hxa : some a = some x := by simpa [Op.apply] using ha
      cases hxa
      exact Or.inr rfl
    · exact Or.inl (by simpa [Op.apply, hc] using ha)
  | acceptGift | renew | tick => exact Or.inl ha

/-- An account that goes on holding its name goes on answering to it. -/
theorem Op.primary_kept (hen : op.Enabled h)
    (hptr : ∀ a n, h.Holds a n → h.primary a = some n) {x : α} {m : ν}
    (hh : h.Holds x m) (hh' : (op.apply enc h).Holds x m) :
    (op.apply enc h).primary x = some m := by
  have hx := hptr x m hh
  have hnotfree : ¬ h.Free x := fun hf => hf.1 m hx hh.2.1
  cases op with
  | claim n a e D =>
    have hne : x ≠ a := fun heq => hnotfree (heq ▸ hen.1)
    show Function.update (h.unpointOwner n) a (some n) x = some m
    rw [Function.update_of_ne hne, Book.unpointOwner, if_neg, hx]
    rintro ⟨hown, hn⟩
    -- the name is vacant, but `x` holds it
    obtain rfl : m = n := Option.some.inj (hx.symm.trans hn)
    rcases hen.2.1 with hnone | hdead
    · rw [hnone] at hown
      cases hown
    · exact hdead hh.2.1
  | move n a b D =>
    have hne : x ≠ b := fun heq => hnotfree (heq ▸ hen.2.2.1)
    show Function.update (h.unpoint a n) b (some n) x = some m
    rw [Function.update_of_ne hne, Book.unpoint, if_neg, hx]
    rintro ⟨rfl, hn⟩
    obtain rfl : m = n := Option.some.inj (hx.symm.trans hn)
    have hown : Function.update h.owner m (some b) m = some x := hh'.1
    rw [Function.update_self, Option.some.injEq] at hown
    exact hne hown.symm
  | bestow n a b D =>
    show h.unpoint a n x = some m
    rw [Book.unpoint, if_neg, hx]
    rintro ⟨rfl, hn⟩
    obtain rfl : m = n := Option.some.inj (hx.symm.trans hn)
    have hown : Function.update h.owner m (some b) m = some x := hh'.1
    have hgift : Function.update h.gift m (some b) m ≠ some x := hh'.2.2
    rw [Function.update_self] at hown hgift
    exact hgift hown
  | acceptGift n a =>
    have hne : x ≠ a := fun heq => hnotfree (heq ▸ hen.2.1)
    show Function.update h.primary a (some n) x = some m
    rw [Function.update_of_ne hne, hx]
  | release n a D =>
    have hne : x ≠ a := by
      rintro rfl
      obtain rfl : m = n := Option.some.inj (hx.symm.trans hen.2.1)
      have hown : Function.update h.owner m none m = some x := hh'.1
      rw [Function.update_self] at hown
      cases hown
    show Function.update h.primary a none x = some m
    rw [Function.update_of_ne hne, hx]
  | burn | rejectGift | acceptSub | drop | renew | tick => exact hx

/-! ## One name per account -/

/-- Every account holds at most one name or subname, and its pointer is the name
it holds. -/
structure OneName (h : Book α ν τ β) : Prop where
  pointer : ∀ a n, h.Holds a n → h.primary a = some n
  apart : ∀ a n c, h.Holds a n → h.active c ≠ some a
  single : ∀ a c c', h.active c = some a → h.active c' = some a → c = c'

omit [DecidableEq α] [DecidableEq ν] in
theorem OneName.of_vacant (hv : h.Vacant) : OneName h where
  pointer a n hh := by
    rw [Book.Holds, hv.owner] at hh
    cases hh.1
  apart a n c hh ha := by
    rw [hv.active] at ha
    cases ha
  single a c c' hc := by
    rw [hv.active] at hc
    cases hc

omit [DecidableEq α] [DecidableEq ν] in
/-- An account that takes up a subname was free. -/
theorem Op.free_of_acceptSub {c : ν} {x : α} (hen : op.Enabled h)
    (hop : op = .acceptSub c x) : h.Free x := by
  subst hop
  exact hen.1

/-- Every operation keeps one name per account. -/
theorem OneName.apply (hen : op.Enabled h) (hinv : OneName h) :
    OneName (op.apply enc h) where
  pointer x m hh' := by
    rcases Op.holds_cases hen hh' with hh | hg
    · exact Op.primary_kept hen hinv.pointer hh hh'
    · exact Op.gives_primary hg
  apart x m c hh' ha' := by
    rcases Op.holds_cases hen hh' with hh | hg <;> rcases Op.active_cases ha' with ha | hsub
    · exact hinv.apart x m c hh ha
    · exact (Op.free_of_acceptSub hen hsub).1 m (hinv.pointer x m hh) hh.2.1
    · exact (Op.gives_free hen hg).2 c ha
    · subst hsub
      exact hg
  single x c c' hc hc' := by
    rcases Op.active_cases hc with ha | hsub <;> rcases Op.active_cases hc' with ha' | hsub'
    · exact hinv.single x c c' ha ha'
    · exact absurd ha ((Op.free_of_acceptSub hen hsub').2 c)
    · exact absurd ha' ((Op.free_of_acceptSub hen hsub).2 c')
    · rw [hsub] at hsub'
      cases hsub'
      rfl

/-! ## Pointers -/

/-- A primary pointer names a name the account owns. -/
def Book.PointersOwned (h : Book α ν τ β) : Prop :=
  ∀ a n, h.primary a = some n → h.owner n = some a

/-- The pointers of all accounts but `x` name names they own. -/
def Book.PointersOwnedBut (h : Book α ν τ β) (x : α) : Prop :=
  ∀ a n, a ≠ x → h.primary a = some n → h.owner n = some a

/-- The operations that may leave a pointer behind do not: a burned name is not
the primary of its owner, and a gift is accepted by its owner. -/
def Op.KeepsPointers (h : Book α ν τ β) : Op α ν τ → Prop
  | .acceptGift n a => h.owner n = some a
  | .burn n a _ => h.primary a ≠ some n
  | .rejectGift n a _ => h.primary a ≠ some n
  | _ => True

omit [DecidableEq α] [DecidableEq ν] [Preorder τ] in
theorem Book.PointersOwned.but (hinv : h.PointersOwned) (x : α) : h.PointersOwnedBut x :=
  fun a n _ => hinv a n

omit [DecidableEq α] [DecidableEq ν] [Preorder τ] in
theorem Book.PointersOwned.of_vacant (hv : h.Vacant) : h.PointersOwned := by
  intro a n hptr
  rw [hv.primary] at hptr
  cases hptr

omit [Preorder τ] in
/-- A registration restores the pointer of the account it is made for. -/
theorem Book.PointersOwnedBut.claim {n : ν} {a : α} {e : τ} {D : ν → Bool}
    (hinv : h.PointersOwnedBut a) :
    ((Op.claim n a e D).apply enc h).PointersOwned := by
  intro x m hx
  simp only [Op.apply, Book.handTo, Book.dropSubs, Book.unpointOwner,
    Function.update_apply] at hx ⊢
  by_cases hxa : x = a
  · subst hxa
    rw [if_pos rfl, Option.some.injEq] at hx
    rw [if_pos hx.symm]
  · rw [if_neg hxa] at hx
    split at hx
    · cases hx
    · next hnot =>
      have hown := hinv x m hxa hx
      have hmn : m ≠ n := by
        rintro rfl
        exact hnot ⟨hown, hx⟩
      rw [if_neg hmn, hown]

/-- Burning a rejected gift leaves at most the pointer of its owner behind. -/
theorem Book.PointersOwned.rejectGift_but {n : ν} {a : α} {D : ν → Bool}
    (hinv : h.PointersOwned) (hen : (Op.rejectGift n a D).Enabled h) :
    ((Op.rejectGift n a D).apply enc h).PointersOwnedBut a := by
  intro x m hxa hx
  have hown := hinv x m hx
  have hmn : m ≠ n := by
    rintro rfl
    exact hxa (Option.some.inj (hown.symm.trans hen.1))
  show Function.update h.owner n none m = some x
  rw [Function.update_of_ne hmn, hown]

omit [DecidableEq ν] [Preorder τ] in
theorem update_eq_some_iff {f : α → Option ν} {b x : α} {v : Option ν} {m : ν} :
    Function.update f b v x = some m ↔ x = b ∧ v = some m ∨ x ≠ b ∧ f x = some m := by
  by_cases hx : x = b
  · subst hx
    simp
  · simp [hx]

omit [Preorder τ] in
/-- A pointer left by `unpoint` is an old one, and not the one removed. -/
theorem Book.unpoint_eq_some {a x : α} {n m : ν} (hx : h.unpoint a n x = some m) :
    h.primary x = some m ∧ ¬ (x = a ∧ m = n) := by
  unfold Book.unpoint at hx
  split at hx
  · cases hx
  · next hnot => exact ⟨hx, fun heq => hnot ⟨heq.1, heq.2 ▸ hx⟩⟩

omit [Preorder τ] in
/-- With the owner's pointer to `n` removed, nobody points to `n`. -/
theorem Book.PointersOwned.unpoint_ne {n : ν} {a : α} (hinv : h.PointersOwned)
    (hown : h.owner n = some a) (x : α) : h.unpoint a n x ≠ some n := by
  intro hx
  obtain ⟨hptr, hnot⟩ := Book.unpoint_eq_some hx
  exact hnot ⟨Option.some.inj ((hinv x n hptr).symm.trans hown), rfl⟩

omit [DecidableEq α] [DecidableEq ν] [Preorder τ] in
/-- Nobody points to a name that is not its owner's primary. -/
theorem Book.PointersOwned.primary_ne {n : ν} {a : α} (hinv : h.PointersOwned)
    (hown : h.owner n = some a) (hne : h.primary a ≠ some n) (x : α) :
    h.primary x ≠ some n := by
  intro hx
  obtain rfl : x = a := Option.some.inj ((hinv x n hx).symm.trans hown)
  exact hne hx

omit [DecidableEq α] [Preorder τ] in
/-- One name changes hands: pointers stay owned if those to the name are the new
owner's and the others are old. -/
theorem Book.PointersOwned.of_update {k : Book α ν τ β} {n : ν} {v : Option α}
    (hinv : h.PointersOwned) (hown : k.owner = Function.update h.owner n v)
    (hself : ∀ x, k.primary x = some n → v = some x)
    (hother : ∀ x m, m ≠ n → k.primary x = some m → h.primary x = some m) :
    k.PointersOwned := by
  intro x m hx
  rw [hown]
  by_cases hm : m = n
  · subst hm
    rw [Function.update_self, hself x hx]
  · rw [Function.update_of_ne hm]
    exact hinv x m (hother x m hm hx)

theorem Book.PointersOwned.apply (hen : op.Enabled h) (hk : op.KeepsPointers h)
    (hinv : h.PointersOwned) : (op.apply enc h).PointersOwned := by
  cases op with
  | claim n a e D => exact (hinv.but a).claim
  | move n a b D =>
    refine hinv.of_update (n := n) (v := some b) rfl (fun x hx => ?_) fun x m hm hx => ?_
    · rcases update_eq_some_iff.mp hx with ⟨rfl, -⟩ | ⟨-, hx⟩
      · rfl
      · exact absurd hx (hinv.unpoint_ne hen.1 x)
    · rcases update_eq_some_iff.mp hx with ⟨-, hn⟩ | ⟨-, hx⟩
      · exact absurd (Option.some.inj hn).symm hm
      · exact (Book.unpoint_eq_some hx).1
  | bestow n a b D =>
    refine hinv.of_update (n := n) (v := some b) rfl (fun x hx => ?_) fun x m _ hx => ?_
    · exact absurd hx (hinv.unpoint_ne hen.1 x)
    · exact (Book.unpoint_eq_some hx).1
  | acceptGift n a =>
    -- the gift is the recipient's already, so no name changes hands
    have hsame : h.owner = Function.update h.owner n (some a) :=
      (Function.update_eq_self_iff.mpr hk.symm).symm
    refine hinv.of_update (n := n) hsame (fun x hx => ?_) fun x m hm hx => ?_
    · rcases update_eq_some_iff.mp hx with ⟨rfl, -⟩ | ⟨-, hx⟩
      · rfl
      · exact hk.symm.trans (hinv x n hx)
    · rcases update_eq_some_iff.mp hx with ⟨-, hn⟩ | ⟨-, hx⟩
      · exact absurd (Option.some.inj hn).symm hm
      · exact hx
  | burn n a D | rejectGift n a D =>
    refine hinv.of_update (n := n) (v := none) rfl (fun x hx => ?_) fun _ _ _ hx => hx
    exact absurd hx (hinv.primary_ne hen.1 hk x)
  | release n a D =>
    refine hinv.of_update (n := n) (v := none) rfl (fun x hx => ?_) fun x m _ hx => ?_
    · rcases update_eq_some_iff.mp hx with ⟨-, hnone⟩ | ⟨hxa, hx⟩
      · cases hnone
      · exact absurd (Option.some.inj ((hinv x n hx).symm.trans hen.1)) hxa
    · rcases update_eq_some_iff.mp hx with ⟨-, hnone⟩ | ⟨-, hx⟩
      · cases hnone
      · exact hx
  | acceptSub | drop | renew | tick => exact hinv

/-! ## Gifts -/

/-- A gift is owned by its recipient. -/
def Book.GiftsOwned (h : Book α ν τ β) : Prop :=
  ∀ n r, h.gift n = some r → h.owner n = some r

omit [DecidableEq α] [DecidableEq ν] [Preorder τ] in
theorem Book.GiftsOwned.of_vacant (hv : h.Vacant) : h.GiftsOwned := by
  intro n r hg
  rw [hv.gift] at hg
  cases hg

/-- The operations that may take a gift away from its recipient do not. -/
def Op.KeepsGifts (h : Book α ν τ β) : Op α ν τ → Prop
  | .claim n a _ _ => ∀ r, h.gift n = some r → r = a
  | .move n _ _ _ => h.gift n = none
  | .burn n _ _ => h.gift n = none
  | .release n _ _ => h.gift n = none
  | _ => True

omit [DecidableEq α] [Preorder τ] in
/-- One name changes hands: gifts stay owned if a gift of the name is for the new
owner and the others are old. -/
theorem Book.GiftsOwned.of_update {k : Book α ν τ β} {n : ν} {v : Option α}
    (hinv : h.GiftsOwned) (hown : k.owner = Function.update h.owner n v)
    (hself : ∀ r, k.gift n = some r → v = some r)
    (hother : ∀ m, m ≠ n → k.gift m = h.gift m) : k.GiftsOwned := by
  intro m r hg
  rw [hown]
  by_cases hm : m = n
  · subst hm
    rw [Function.update_self, hself r hg]
  · rw [Function.update_of_ne hm]
    exact hinv m r (hother m hm ▸ hg)

theorem Book.GiftsOwned.apply (hen : op.Enabled h) (hk : op.KeepsGifts h)
    (hinv : h.GiftsOwned) : (op.apply enc h).GiftsOwned := by
  cases op with
  | claim n a e D =>
    refine hinv.of_update (n := n) (v := some a) rfl (fun r hr => ?_) fun _ _ => rfl
    rw [hk r hr]
  | move n a b D =>
    refine hinv.of_update (n := n) (v := some b) rfl (fun r hr => ?_) fun _ _ => rfl
    cases hk.symm.trans hr
  | burn n a D | release n a D =>
    refine hinv.of_update (n := n) (v := none) rfl (fun r hr => ?_) fun _ _ => rfl
    cases hk.symm.trans hr
  | bestow n a b D =>
    refine hinv.of_update (n := n) (v := some b) rfl (fun r hr => ?_)
      fun m hm => Function.update_of_ne hm _ _
    have hg : Function.update h.gift n (some b) n = some r := hr
    rwa [Function.update_self] at hg
  | acceptGift n a =>
    refine hinv.of_update (n := n) (Function.update_eq_self n h.owner).symm (fun r hr => ?_)
      fun m hm => Function.update_of_ne hm _ _
    have hg : Function.update h.gift n none n = some r := hr
    rw [Function.update_self] at hg
    cases hg
  | rejectGift n a D =>
    refine hinv.of_update (n := n) (v := none) rfl (fun r hr => ?_)
      fun m hm => Function.update_of_ne hm _ _
    have hg : Function.update h.gift n none n = some r := hr
    rw [Function.update_self] at hg
    cases hg
  | acceptSub | drop | renew | tick => exact hinv

/-! ## Anchors -/

/-- Names resolve to their owner and subnames to their holder. -/
structure Anchored (enc : α → β) (h : Book α ν τ β) : Prop where
  owner : ∀ n a, h.owner n = some a → h.anchor n = some (enc a)
  active : ∀ c a, h.active c = some a → h.anchor c = some (enc a)

omit [DecidableEq α] [DecidableEq ν] [Preorder τ] in
theorem Anchored.of_vacant (hv : h.Vacant) : Anchored enc h where
  owner n a hown := by
    rw [hv.owner] at hown
    cases hown
  active c a ha := by
    rw [hv.active] at ha
    cases ha

/-- A gift is accepted by its owner only. -/
def Op.KeepsAnchors (h : Book α ν τ β) : Op α ν τ → Prop
  | .acceptGift n a => h.owner n = some a
  | _ => True

omit [DecidableEq α] [DecidableEq ν] [Preorder τ] in
/-- Anchoring is about owners, subname holders and anchors only. -/
theorem Anchored.congr {k : Book α ν τ β} (hinv : Anchored enc h) (hown : k.owner = h.owner)
    (hact : k.active = h.active) (hanchor : k.anchor = h.anchor) : Anchored enc k := by
  constructor
  · rw [hown, hanchor]
    exact hinv.owner
  · rw [hact, hanchor]
    exact hinv.active

omit [DecidableEq α] [DecidableEq ν] [Preorder τ] in
/-- Subnames that go take their anchors along; names keep theirs. -/
theorem Anchored.dropSubs {D : ν → Bool} (hinv : Anchored enc h) (hun : h.Unowned D) :
    Anchored enc (h.dropSubs D) where
  owner n a hown := by
    have hD : ¬ D n = true := by
      intro hD
      cases (hun n hD).symm.trans hown
    exact (if_neg hD).trans (hinv.owner n a hown)
  active c a ha := by
    simp only [Book.dropSubs] at ha ⊢
    split at ha
    · cases ha
    · next hD =>
      rw [if_neg hD]
      exact hinv.active c a ha

omit [DecidableEq α] [Preorder τ] in
/-- One name that is no subname changes hands: it stays anchored if its anchor
changes with its owner. -/
theorem Anchored.of_update {k : Book α ν τ β} {n : ν} {v : Option α} (hinv : Anchored enc h)
    (hnot : h.active n = none) (hown : k.owner = Function.update h.owner n v)
    (hact : k.active = h.active)
    (hanchor : k.anchor = Function.update h.anchor n (v.map enc)) : Anchored enc k := by
  constructor
  · intro m a ha
    rw [hown] at ha
    rw [hanchor]
    by_cases hm : m = n
    · subst hm
      rw [Function.update_self] at ha ⊢
      rw [ha]
      rfl
    · rw [Function.update_of_ne hm] at ha ⊢
      exact hinv.owner m a ha
  · intro c a ha
    rw [hact] at ha
    have hc : c ≠ n := by
      rintro rfl
      cases hnot.symm.trans ha
    rw [hanchor, Function.update_of_ne hc]
    exact hinv.active c a ha

omit [DecidableEq α] [DecidableEq ν] [Preorder τ] in
theorem Book.active_dropSubs {D : ν → Bool} {n : ν} (hnot : h.active n = none) :
    (h.dropSubs D).active n = none := by
  show (if D n then none else h.active n) = none
  rw [hnot, ite_self]

theorem Anchored.apply (hen : op.Enabled h) (hk : op.KeepsAnchors h)
    (hinv : Anchored enc h) : Anchored enc (op.apply enc h) := by
  cases op with
  | claim n a e D =>
    obtain ⟨-, -, hnot, hun⟩ := hen
    exact (hinv.dropSubs hun).of_update (n := n) (v := some a) (Book.active_dropSubs hnot)
      rfl rfl rfl
  | move n a b D =>
    obtain ⟨-, -, -, hnot, hun⟩ := hen
    exact (hinv.dropSubs hun).of_update (n := n) (v := some b) (Book.active_dropSubs hnot)
      rfl rfl rfl
  | bestow n a b D =>
    obtain ⟨-, -, -, -, hnot, hun⟩ := hen
    exact (hinv.dropSubs hun).of_update (n := n) (v := some b) (Book.active_dropSubs hnot)
      rfl rfl rfl
  | burn n a D =>
    obtain ⟨-, hnot, hun⟩ := hen
    exact (hinv.dropSubs hun).of_update (n := n) (v := none) (Book.active_dropSubs hnot)
      rfl rfl rfl
  | release n a D | rejectGift n a D =>
    obtain ⟨-, -, hnot, hun⟩ := hen
    exact (hinv.dropSubs hun).of_update (n := n) (v := none) (Book.active_dropSubs hnot)
      rfl rfl rfl
  | acceptGift n a =>
    -- the anchor is written for the owner, who has not changed
    have hsame : h.owner = Function.update h.owner n (some a) :=
      (Function.update_eq_self_iff.mpr hk.symm).symm
    exact hinv.of_update (n := n) hen.2.2 hsame rfl rfl
  | acceptSub c a =>
    constructor
    · intro m b hb
      have hm : m ≠ c := by
        rintro rfl
        cases hen.2.1.symm.trans hb
      exact (Function.update_of_ne hm _ _).trans (hinv.owner m b hb)
    · intro m b hb
      show Function.update h.anchor c (some (enc a)) m = some (enc b)
      rcases update_eq_some_iff.mp hb with ⟨rfl, hab⟩ | ⟨hm, hb⟩
      · rw [Function.update_self, Option.some.inj hab]
      · rw [Function.update_of_ne hm]
        exact hinv.active m b hb
  | drop D => exact hinv.dropSubs hen
  | renew | tick => exact hinv.congr rfl rfl rfl

/-! ## Changes of ownership -/

/-- The operation takes `n` from its owner `a`. -/
def Op.Takes : Op α ν τ → ν → α → Prop
  | .move n a _ _, m, x => m = n ∧ x = a
  | .bestow n a _ _, m, x => m = n ∧ x = a
  | .burn n a _, m, x => m = n ∧ x = a
  | .release n a _, m, x => m = n ∧ x = a
  | .rejectGift n a _, m, x => m = n ∧ x = a
  | _, _, _ => False

/-- The operation makes `a` the owner of `n`. -/
def Op.Hands : Op α ν τ → ν → α → Prop
  | .claim n a _ _, m, x => m = n ∧ x = a
  | .move n _ b _, m, x => m = n ∧ x = b
  | .bestow n _ b _, m, x => m = n ∧ x = b
  | _, _, _ => False

/-- The operation leaves `n`, a name of `a`, without an owner. -/
def Op.Vacates : Op α ν τ → ν → α → Prop
  | .burn n a _, m, x => m = n ∧ x = a
  | .release n a _, m, x => m = n ∧ x = a
  | .rejectGift n a _, m, x => m = n ∧ x = a
  | _, _, _ => False

/-- A live name stays with its owner unless the operation takes it. -/
theorem Op.owner_kept (hen : op.Enabled h) {n : ν} {a : α} (hown : h.owner n = some a)
    (hlive : h.Live n) : (op.apply enc h).owner n = some a ∨ op.Takes n a := by
  cases op <;>
    simp only [Op.Enabled, Op.apply, Book.handTo, Book.vacate, Book.dropSubs, Op.Takes,
      Function.update_apply] at hen ⊢ <;> grind

omit [Preorder τ] in
/-- Who owns a name after an operation owned it before or was handed it. -/
theorem Op.owner_acquired {n : ν} {a : α} (hown : (op.apply enc h).owner n = some a) :
    h.owner n = some a ∨ op.Hands n a := by
  cases op <;>
    simp only [Op.apply, Book.handTo, Book.vacate, Book.dropSubs, Op.Hands,
      Function.update_apply] at hown ⊢ <;> grind

/-- A name keeps an owner unless the operation vacates it. -/
theorem Op.owner_vacated (hen : op.Enabled h) {n : ν} {a : α} (hown : h.owner n = some a)
    (hnone : (op.apply enc h).owner n = none) : op.Vacates n a := by
  cases op <;>
    simp only [Op.Enabled, Op.apply, Book.handTo, Book.vacate, Book.dropSubs, Op.Vacates,
      Function.update_apply] at hen hnone ⊢ <;> grind

omit [Preorder τ] in
/-- Only a tick moves the time. -/
theorem Op.now_kept (hop : ∀ t, op ≠ .tick t) : (op.apply enc h).now = h.now := by
  cases op with
  | tick t => exact absurd rfl (hop t)
  | claim | move | bestow | acceptGift | burn | release | rejectGift | acceptSub | drop
  | renew => rfl

end Holdings
