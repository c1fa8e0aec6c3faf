import PnsPallets.Runtime

/-!
# The errors of names and accounts

Two groups of errors say something about the names an account has: "no canonical
name", of the calls that find their name by the caller's pointer, and the errors
of the guards that keep an account to one name. All other errors are *plain*.

Which extrinsics can fail with which group is a question about a few statements
of their bodies; the registry operations, the NFT ledger, the resolvers and the
payments below them only fail plainly, which is proved here once.
-/

namespace PnsPallets

open Frame Registry Registrar

variable {T : Config}

/-- The error of a call that finds no pointer. -/
def DispatchError.isNoCanonicalName (e : DispatchError) : Bool :=
  e == .registrar .noCanonicalName || e == .marketplace .noCanonicalName

/-- The error of a guard that keeps an account to one name. -/
def DispatchError.isOneName (e : DispatchError) : Bool :=
  e == .registrar .alreadyHasCanonicalName || e == .registrar .alreadyHoldsSubdomain ||
    e == .registry .targetAlreadyOwnsName

/-- A body that does not fail for want of a pointer. -/
abbrev Found {α : Type} (r : DispatchResult α) : Prop :=
  FailsOnly (fun e => e.isNoCanonicalName = false) r

/-- A body that does not fail at a one-name guard. -/
abbrev Admitted {α : Type} (r : DispatchResult α) : Prop :=
  FailsOnly (fun e => e.isOneName = false) r

/-- The body fails at a one-name guard. -/
def Refused {α : Type} (r : DispatchResult α) : Prop :=
  ∃ e, r = .error e ∧ e.isOneName = true

instance {α : Type} (r : DispatchResult α) : Decidable (Refused r) :=
  inferInstanceAs (Decidable (∃ e, r = .error e ∧ e.isOneName = true))

/-- The two exclude each other. -/
theorem Admitted.not_refused {α : Type} {r : DispatchResult α} (h : Admitted r) :
    ¬ Refused r := by
  rintro ⟨e, he, hone⟩
  rw [h e he] at hone
  cases hone

/-- What fails at a guard fails so as the first part of a body. -/
theorem Refused.bind {α β : Type} {r : DispatchResult α} {f : α → DispatchResult β}
    (h : Refused r) : Refused (r >>= f) := by
  obtain ⟨e, rfl, he⟩ := h
  exact ⟨e, rfl, he⟩

/-- The guard comes after what succeeds. -/
theorem Refused.next {α β : Type} {r : DispatchResult α} {f : α → DispatchResult β} {v : α}
    (hr : r = .ok v) (h : Refused (f v)) : Refused (r >>= f) := by
  rw [hr]
  exact h

theorem Refused.next_ensure {β : Type} {p : Prop} [Decidable p] {e : DispatchError}
    {f : Unit → DispatchResult β} (hp : p) (h : Refused (f ())) :
    Refused (ensure p e >>= f) :=
  .next (ensure_eq_ok.mpr hp) h

theorem Refused.next_okOr {α β : Type} {x : Option α} {e : DispatchError}
    {f : α → DispatchResult β} {v : α} (hx : x = some v) (h : Refused (f v)) :
    Refused (okOr x e >>= f) :=
  .next (okOr_eq_ok.mpr hx) h

/-- The guard itself. -/
theorem Refused.ensure {p : Prop} [Decidable p] {e : DispatchError} (hp : ¬ p)
    (he : e.isOneName = true) : Refused (ensure p e) :=
  ⟨e, if_neg hp, he⟩

/-- A body that fails with neither. -/
def Plain {α : Type} (r : DispatchResult α) : Prop :=
  FailsOnly (fun e => (e.isNoCanonicalName || e.isOneName) = false) r

/-- In particular not for want of a pointer. -/
theorem Plain.found {α : Type} {r : DispatchResult α} (h : Plain r) : Found r :=
  h.mono fun _ he => (Bool.or_eq_false_iff.mp he).1

/-- In particular not at a guard. -/
theorem Plain.admitted {α : Type} {r : DispatchResult α} (h : Plain r) : Admitted r :=
  h.mono fun _ he => (Bool.or_eq_false_iff.mp he).2

/-! ## Arguments -/

theorem ensureSigned_plain (o : Origin) : Plain (ensureSigned o) := by
  cases o with
  | signed who => exact .ok who
  | root | none => exact .error rfl

theorem lookup_plain (address : MultiAddress) : Plain (lookup address) := by
  cases address with
  | id b => exact .ok b
  | index | raw _ | address32 _ | address20 _ => exact .error rfl

/-- A name or a label that does not parse is an error of its own. -/
theorem topLevelNode_plain (T : Config) (name : Bytes) : Plain (topLevelNode T name) :=
  .bind (.okOr rfl) fun _ _ => .ok _

theorem childNode_plain (T : Config) (p : DomainHash) (label : Bytes) :
    Plain (childNode T p label) :=
  .bind (.okOr rfl) fun _ _ => .ok _

theorem listedNode_plain (T : Config) (name : Bytes) :
    Plain (Marketplace.listedNode T name) :=
  .bind (.okOr rfl) fun _ _ => .ok _

/-! ## Tokens, records and payments -/

/-- The child counters fail for a node without a token, at zero and at the capacity. -/
theorem subChildren_plain (nft : NftStorage T) (p : DomainHash) :
    Plain (subChildren nft p) :=
  .bind (.okOr rfl) fun _ _ => .bind (.ensure rfl) fun _ _ => .ok _

theorem addChildrenWithCheck_plain (nft : NftStorage T) (p : DomainHash) (capacity : UInt32) :
    Plain (addChildrenWithCheck nft p capacity) :=
  .bind (.okOr rfl) fun _ _ => .bind (.ensure rfl) fun _ _ => .ok _

theorem addChildren_plain (nft : NftStorage T) (p : DomainHash) : Plain (addChildren nft p) :=
  .bind (.okOr rfl) fun _ _ => .ok _

/-- The ledger fails for a token that is missing, for another owner's, and at the bounds
of the issuance. -/
theorem nftBurn_plain (nft : NftStorage T) (a : AccountId) (k : ClassId × DomainHash) :
    Plain (Nft.burn nft a k) := by
  refine .bind (.okOr rfl) fun token _ => ?_
  refine .bind (.ensure rfl) fun _ _ => ?_
  refine .bind (.okOr rfl) fun cls _ => ?_
  exact .bind (.okOr rfl) fun _ _ => .ok _

theorem nftMint_plain (nft : NftStorage T) (a : AccountId) (k : ClassId × DomainHash)
    (metadata : Bytes) (data : Record) : Plain (Nft.mint nft a k metadata data) := by
  refine .bind (.okOr rfl) fun _ _ => ?_
  refine .bind (.okOr rfl) fun _ _ => ?_
  exact .bind (.okOr rfl) fun _ _ => .ok _

theorem nftTransfer_plain (nft : NftStorage T) (a b : AccountId)
    (k : ClassId × DomainHash) : Plain (Nft.transfer nft a b k) := by
  refine .bind (.okOr rfl) fun token _ => ?_
  refine .bind (.ensure rfl) fun _ _ => ?_
  split
  · exact .ok _
  · exact .ok _

/-- Anchoring a name can fail at most for the size of its records. -/
theorem anchor_plain {α : Type} (r : ResolversStorage T) (n : DomainHash) (a : AccountId)
    (hash : H256) (f : ResolversStorage T → α) :
    Plain (do
      let anchored ← Resolvers.setSs58Record r n a
      let resolvers ← Resolvers.setOriginRecord anchored n hash
      pure (f resolvers)) :=
  .bind (.bind (.okOr rfl) fun _ _ => .ok _) fun _ _ =>
    .bind (.bind (.okOr rfl) fun _ _ => .ok _) fun _ _ => .ok _

/-- An error of the currency is passed on as one of a foreign pallet. -/
theorem ofCurrency_plain {α : Type} (r : Except Nat α) : Plain (ofCurrency r) := by
  cases r with
  | error index => exact .error rfl
  | ok w => exact .ok w

theorem burnFee_plain (s : State T) (a : AccountId) (fee : Balance) :
    Plain (burnFee s a fee) :=
  .bind (ofCurrency_plain _) fun _ _ => .ok _

theorem settlePayment_plain (s : State T) (buyer : AccountId) (listing : Listing) :
    Plain (Marketplace.settlePayment s buyer listing) :=
  .bind (ofCurrency_plain _) fun _ _ => burnFee_plain _ _ _

/-! ## The registry -/

/-- A burn fails for the token or the hierarchy: it does not look at what else the owner
has. -/
theorem doBurn_plain (s : State T) (a : AccountId) (n : DomainHash) :
    Plain (doBurn s a n) := by
  have hleave : ∀ info origin, Plain (leaveHierarchy s n info origin) := by
    rintro info (o | _)
    · exact .bind (.ensure rfl) fun _ _ => .bind (subChildren_plain _ o) fun _ _ => .ok _
    · exact .ok _
  have hprepare : Plain (burnPrepare s a n) := by
    refine .bind (.okOr rfl) fun info _ => ?_
    refine .bind (.ensure rfl) fun _ _ => ?_
    refine .bind (.okOr rfl) fun origin _ => ?_
    exact .bind (hleave info origin) fun _ _ => .ok _
  refine .bind hprepare fun s₁ _ => ?_
  exact .bind (nftBurn_plain _ _ _) fun _ _ => .ok _

/-- Neither does a transfer. The one-name guards of its callers are not in
`do_transfer`. -/
theorem doTransfer_plain (s : State T) (a b : AccountId) (n : DomainHash) :
    Plain (doTransfer s a b n) := by
  have hcheck : ∀ m, Plain (checkExpiresRenewable s m) := fun m =>
    .bind (.okOr rfl) fun _ _ => .ensure rfl
  have hrelease : ∀ owner origin, Plain (releaseHierarchy s owner b n origin) := by
    rintro owner (r | _)
    · exact .bind (hcheck r) fun _ _ => .bind (.ensure rfl) fun _ _ => .ok _
    · exact .bind (hcheck n) fun _ _ => .ok _
  refine .bind (.okOr rfl) fun info _ => ?_
  refine .bind (.ensure rfl) fun _ _ => ?_
  refine .bind (.okOr rfl) fun origin _ => ?_
  refine .bind (hrelease info.owner origin) fun s₁ _ => ?_
  refine .bind (nftTransfer_plain _ _ _ _) fun nft _ => ?_
  exact anchor_plain _ _ _ _ _

/-- Minting fails plainly if the payment that is passed to it does. -/
theorem mintSubname_plain {pay : State T → Option AccountId → DispatchResult (State T)}
    (hpay : ∀ s prev, Plain (pay s prev)) (s : State T) (official dest : AccountId)
    (metadata : Bytes) (p n : DomainHash) (capacity : UInt32) :
    Plain (mintSubname s official metadata p n dest capacity pay) := by
  have hprepare : Plain (mintPrepare s official p n dest pay) := by
    refine .bind (.okOr rfl) fun info _ => ?_
    refine .bind (.ensure rfl) fun _ _ => ?_
    refine .bind (.ensure rfl) fun _ _ => ?_
    split
    · refine .bind (.bind (.okOr rfl) fun _ _ => .ensure rfl) fun _ _ => ?_
      exact .bind (hpay _ _) fun _ _ => .ok _
    · exact .bind (hpay _ _) fun _ _ => .ok _
  have hjoin : ∀ s₁ : State T, Plain (joinHierarchy s₁ p n capacity) := by
    intro s₁
    unfold joinHierarchy
    split
    · refine .bind (.bind (.okOr rfl) fun _ _ => .ensure rfl) fun _ _ => ?_
      refine .bind (addChildrenWithCheck_plain _ _ _) fun _ _ => ?_
      exact .bind (addChildren_plain _ _) fun _ _ => .ok _
    · exact .bind (addChildrenWithCheck_plain _ _ _) fun _ _ => .ok _
    · exact .bind (addChildren_plain _ _) fun _ _ => .ok _
  refine .bind hprepare fun plan _ => ?_
  cases plan with
  | reissue s₁ prev => exact .bind (nftTransfer_plain _ _ _ _) fun _ _ => .ok _
  | fresh s₁ => exact .bind (nftMint_plain _ _ _ _ _) fun _ _ => hjoin _

/-! ## The registrar -/

theorem registerPayments_plain (caller : AccountId) (n : DomainHash) (fee : Balance)
    (expire : Moment) (len : Nat) (s : State T) (prev : Option AccountId) :
    Plain (registerPayments caller n fee expire len s prev) :=
  .bind (burnFee_plain _ _ _) fun _ _ => .ok _

/-- Rejecting an offer fails if there is none for the caller, or with the burn. -/
theorem rejectPendingOffer_plain (s : State T) (caller : AccountId)
    (rejectOffer : Option Bytes) : Plain (rejectPendingOffer s caller rejectOffer) := by
  cases rejectOffer with
  | none => exact .ok s
  | some name =>
    refine .bind (.okOr rfl) fun n _ => ?_
    split
    · exact .bind (.ensure rfl) fun _ _ => doBurn_plain _ _ _
    · exact .orElseError rfl

/-- Dropping a stale pointer fails at a valid one, never for want of one. -/
theorem dropStaleCanonicalName_found (s : State T) (a : AccountId) :
    Found (dropStaleCanonicalName s a) := by
  unfold dropStaleCanonicalName
  split
  · split
    · exact .error rfl
    · exact .ok _
  · exact .ok _

end PnsPallets
