import PnsPallets.Devnet
import PnsPallets.Reachability

/-!
# Pointers, gifts and anchors

Three storage items refer to the owner of a name without being the token: the
primary pointer `OwnerToPrimaryName`, the pending gift `OfferedNames` and the
`SS58` record. The code keeps each of them only partially:

- the registry's `burn` burns the caller's primary name and leaves the pointer;
- a pending gift is not removed when its name is burned, handed on or registered
  anew by somebody else;
- `accept_offered_name` looks at `OfferedNames` and `RegistrarInfos`, not at the
  token, so a left-over gift lets its recipient point and anchor a name at
  itself that belongs to somebody else.

For each item: the condition on successful calls under which the reference names the
owner in every state reached, and a run that breaks it without the condition.
-/

namespace PnsPallets

open Frame Registry Registrar Holdings

variable {T : Config} {L : Set Bytes} {s : State T} {o : Origin} {call : Call T}
  {ops : List NameOp} {h' : Book AccountId DomainHash Nat Bytes} {a who : AccountId}
  {n : DomainHash}

/-- `who` accepts the gift `name` only if the name is its own. -/
def AcceptsOwned (s : State T) (who : AccountId) (name : Bytes) : Prop :=
  ∀ n, topLevelNode T name = .ok n → ∀ offer ∈ s.registrar.offeredNames.get n,
    offer.recipient = who → Registry.ownerOf s n = some who

instance (s : State T) (who : AccountId) (name : Bytes) :
    Decidable (AcceptsOwned s who name) :=
  inferInstanceAs (Decidable (∀ n, topLevelNode T name = .ok n →
    ∀ offer ∈ s.registrar.offeredNames.get n, offer.recipient = who →
      Registry.ownerOf s n = some who))

/-- An accepted gift is the recipient's own name. -/
theorem AcceptsOwned.view_owner {name : Bytes} (h : AcceptsOwned s who name)
    (hcf : CollisionFree T.keccak256 T.baseNode L) (hL : toAsciiLowercase name ∈ L)
    (hn : topLevelNode T name = .ok n) (hgift : (view s).gift n = some who) :
    (view s).owner n = some who := by
  obtain ⟨offer, hoffer, hrecip⟩ := view_gift_eq_some.mp hgift
  rw [PnsPallets.view_owner ((topLevelNode_topLevel hn hL).ne_base hcf)]
  exact h n hn offer hoffer hrecip

/-! ## The primary pointer -/

/-- The call does not strand a pointer: nobody burns its primary name through the
registry, gifts are accepted by owners, and a rejected gift that is the caller's
primary is rejected in a registration for the caller. -/
def KeepsPointers (s : State T) : Origin → Call T → Prop
  | .signed who, .burn name =>
    ∀ n ∈ parseNameToNode T.keccak256 name T.baseNode,
      s.registrar.ownerToPrimaryName.get who ≠ some n
  | .signed who, .acceptOfferedName name => AcceptsOwned s who name
  | .signed who, .register _ (.id dest) (some name) =>
    ∀ n ∈ parseNameToNode T.keccak256 name T.baseNode,
      s.registrar.ownerToPrimaryName.get who = some n → dest = who
  | _, _ => True

/-- A registration leaves pointers owned, also after rejecting a gift. -/
theorem pointersOwned_register {dest : AccountId} {rej : Option Bytes} {name : Bytes}
    {rejected : List NameOp} {e : Nat} {D : DomainHash → Bool}
    (hk : KeepsPointers s (.signed who) (.register name (.id dest) rej))
    (hrej : Rejects s who rej rejected)
    (hruns : Runs AccountId.encode (view s) (rejected ++ [.claim n dest e D]) h')
    (hinv : (view s).PointersOwned) : h'.PointersOwned := by
  obtain ⟨h₁, hfirst, -, rfl⟩ := hruns.of_concat
  refine Book.PointersOwnedBut.claim ?_
  cases hrej with
  | none =>
    cases hfirst
    exact hinv.but dest
  | @gift rejName m offer D' hm hoffer =>
    obtain ⟨hen, rfl⟩ := hfirst.of_single
    by_cases hptr : (view s).primary who = some m
    · rw [hk m hm hptr]
      exact hinv.rejectGift_but hen
    · exact (hinv.apply hen hptr).but dest
  | offer =>
    obtain ⟨hen, rfl⟩ := hfirst.of_single
    exact (hinv.apply hen trivial).but dest

/-- A step under the condition leaves pointers owned. -/
theorem pointersOwned_step (hcf : CollisionFree T.keccak256 T.baseNode L)
    (hL : ∀ l ∈ call.labels, l ∈ L) (hk : KeepsPointers s o call)
    (hp : Performs s o call ops) (hruns : Runs AccountId.encode (view s) ops h')
    (hinv : (view s).PointersOwned) : h'.PointersOwned := by
  cases hp with
  | register hn hrej => exact pointersOwned_register hk hrej hruns hinv
  | burn hn =>
    obtain ⟨hen, rfl⟩ := hruns.of_single
    exact hinv.apply hen (hk _ hn)
  | acceptOfferedName hn =>
    obtain ⟨hen, rfl⟩ := hruns.of_single
    exact hinv.apply hen (AcceptsOwned.view_owner hk hcf (hL _ List.mem_cons_self) hn hen.1)
  | renew | transfer | releaseName | acceptSubdomain | buyName | buyGift | quiet =>
    obtain ⟨hen, rfl⟩ := hruns.of_single
    exact hinv.apply hen trivial

/-- The calls whose only permission check is the caller's pointer. -/
def Call.byPointer : Call T → Bool
  | .renew | .offerSubdomain _ _ | .revokeSubdomain _ | .createListing _ _
  | .cancelListing => true
  | _ => false

/-- A successful call by pointer acts on the caller's primary name. -/
theorem byPointer_primary {s' : State T} (hcall : call.byPointer = true)
    (h : dispatch s o call = .ok s') :
    ∃ a n, o = .signed a ∧ s.registrar.ownerToPrimaryName.get a = some n := by
  cases call with
  | renew =>
    obtain ⟨a, n, info, fee, balances, expire, ha, hn, -⟩ := renew_eq_ok h
    exact ⟨a, n, ha, hn⟩
  | offerSubdomain label target =>
    obtain ⟨a, dest, n, info, c, stored, ha, -, hn, -⟩ := offerSubdomain_eq_ok h
    exact ⟨a, n, ha, hn⟩
  | revokeSubdomain label =>
    obtain ⟨a, n, c, ha, hn, -⟩ := revokeSubdomain_eq_ok h
    exact ⟨a, n, ha, hn⟩
  | createListing price expiresAt =>
    obtain ⟨a, n, ha, -, hn, -⟩ := createListing_eq_ok h
    exact ⟨a, n, ha, hn⟩
  | cancelListing =>
    obtain ⟨a, n, ha, hn, -⟩ := cancelListing_eq_ok h
    exact ⟨a, n, ha, hn⟩
  | _ => cases hcall

/-- If no step strands a pointer, then in every state reached primary pointers name
tokens of their account; so calls by pointer act on a name of the signer, and no
two accounts share a primary name. -/
theorem pointer_names_owner (hcf : CollisionFree T.keccak256 T.baseNode L)
    (h : ReachableBy T L (OnSuccess KeepsPointers) s) :
    (∀ a n, s.registrar.ownerToPrimaryName.get a = some n →
      Registry.ownerOf s n = some a) ∧
    (∀ o call s', call.byPointer = true → dispatch s o call = .ok s' →
      ∃ a n, o = .signed a ∧ s.registrar.ownerToPrimaryName.get a = some n ∧
        Registry.ownerOf s n = some a) ∧
    ∀ a b n, s.registrar.ownerToPrimaryName.get a = some n →
      s.registrar.ownerToPrimaryName.get b = some n → a = b := by
  have hinv : (view s).PointersOwned :=
    h.book_invariant hcf (fun _ => Book.PointersOwned.of_vacant)
      (fun _ _ hen hJ => hJ.apply hen trivial)
      fun _ _ _ _ _ _ hL hk hok hp hruns hJ =>
        pointersOwned_step hcf hL (hk.holds hok) hp hruns hJ
  have hown : ∀ a n, s.registrar.ownerToPrimaryName.get a = some n →
      Registry.ownerOf s n = some a := fun a n hptr =>
    (view_owner_eq_some.mp (hinv a n hptr)).2
  refine ⟨hown, fun o call s' hcall hs => ?_, fun a b n ha hb => ?_⟩
  · obtain ⟨a, n, ho, hptr⟩ := byPointer_primary hcall hs
    exact ⟨a, n, ho, hptr, hown a n hptr⟩
  · exact Option.some.inj ((hown a n ha).symm.trans (hown b n hb))

/-- Account 1 registers and lists `alice`, account 2 buys it as a gift for account
3, and account 3 accepts it. -/
def Devnet.giftInputs : List (Input Devnet.config) :=
  [ .extrinsic (.signed (account 1)) (.register alice (.id (account 1)) none),
    .extrinsic (.signed (account 1)) (.createListing 5000 1000000),
    .extrinsic (.signed (account 2)) (.buyName alice (some (account 3))),
    .extrinsic (.signed (account 3)) (.acceptOfferedName alice) ]

open Devnet in
theorem pointer_names_owner_after_gift :
    (after giftInputs).registrar.ownerToPrimaryName.get (account 3) = some (node alice) ∧
      Registry.ownerOf (after giftInputs) (node alice) = some (account 3) := by
  have hreach : ReachableBy config labels (OnSuccess KeepsPointers) (after giftInputs) :=
    reachableBy_after (by decide +kernel)
      ⟨fun _ => trivial, fun _ => trivial, fun _ => trivial,
        fun _ => (by decide +kernel : AcceptsOwned _ _ _), trivial⟩
  have hptr : (after giftInputs).registrar.ownerToPrimaryName.get (account 3)
      = some (node alice) := by decide +kernel
  exact ⟨hptr, (pointer_names_owner collisionFree hreach).1 _ _ hptr⟩

/-- Account 1 registers `alice` and burns it through the registry; account 2
registers it anew. -/
def Devnet.afterBurn : State Devnet.config := Devnet.after
  [ .extrinsic (.signed (account 1)) (.register alice (.id (account 1)) none),
    .extrinsic (.signed (account 1)) (.burn alice),
    .extrinsic (.signed (account 2)) (.register alice (.id (account 2)) none) ]

open Devnet in
/-- The pointer of account 1 outlives its ownership: it shares its primary name with
the new owner, and hands out subnames of a name it does not own. -/
theorem burn_strands_pointer :
    CollisionFree config.keccak256 config.baseNode labels ∧
      Reachable config labels afterBurn ∧
      afterBurn.registrar.ownerToPrimaryName.get (account 1) = some (node alice) ∧
      Registry.ownerOf afterBurn (node alice) = some (account 2) ∧
      afterBurn.registrar.ownerToPrimaryName.get (account 2) = some (node alice) ∧
      (dispatch afterBurn (.signed (account 1))
        (.offerSubdomain bob (.id (account 3)))).isOk = true :=
  ⟨collisionFree, reachable_after (by decide +kernel), by decide +kernel⟩

/-! ## Pending gifts -/

/-- The call does not take a pending gift from its recipient: a name is burned,
released, transferred or bought outright only while it is not a pending gift, and
registered anew only for the recipient or after rejecting the gift. -/
def KeepsGifts (s : State T) : Origin → Call T → Prop
  | .signed _, .burn name =>
    ∀ n ∈ parseNameToNode T.keccak256 name T.baseNode,
      s.registrar.offeredNames.get n = none
  | .signed who, .releaseName =>
    ∀ n ∈ s.registrar.ownerToPrimaryName.get who, s.registrar.offeredNames.get n = none
  | .signed who, .transfer _ =>
    ∀ n ∈ s.registrar.ownerToPrimaryName.get who, s.registrar.offeredNames.get n = none
  | .signed _, .buyName name none =>
    ∀ n, Marketplace.listedNode T name = .ok n → s.registrar.offeredNames.get n = none
  | .signed _, .register name (.id dest) rejectOffer =>
    ∀ n, topLevelNode T name = .ok n → ∀ offer ∈ s.registrar.offeredNames.get n,
      offer.recipient = dest ∨
        ∃ rej ∈ rejectOffer, parseNameToNode T.keccak256 rej T.baseNode = some n
  | _, _ => True

/-- A registration leaves gifts with their recipients. -/
theorem giftsOwned_register {dest : AccountId} {rej : Option Bytes} {name : Bytes}
    {rejected : List NameOp} {e : Nat} {D : DomainHash → Bool}
    (hk : KeepsGifts s (.signed who) (.register name (.id dest) rej))
    (hn : topLevelNode T name = .ok n) (hrej : Rejects s who rej rejected)
    (hruns : Runs AccountId.encode (view s) (rejected ++ [.claim n dest e D]) h')
    (hinv : (view s).GiftsOwned) : h'.GiftsOwned := by
  obtain ⟨h₁, hfirst, hen, rfl⟩ := hruns.of_concat
  -- a gift of the registered name that is neither rejected nor the new owner's is excluded
  have hgift : ∀ r, (view s).gift n = some r → r = dest ∨
      ∃ rej' ∈ rej, parseNameToNode T.keccak256 rej' T.baseNode = some n := by
    intro r hr
    obtain ⟨offer, hoffer, rfl⟩ := view_gift_eq_some.mp hr
    exact hk n hn offer hoffer
  cases hrej with
  | none =>
    cases hfirst
    refine hinv.apply hen fun r hr => ?_
    rcases hgift r hr with hdest | ⟨rej', hmem, -⟩
    · exact hdest
    · cases hmem
  | @gift rejName m offer D' hm hoffer =>
    obtain ⟨hen₁, rfl⟩ := hfirst.of_single
    refine (hinv.apply hen₁ trivial).apply hen fun r hr => ?_
    simp only [Op.apply, Book.vacate, Function.update_apply] at hr
    split at hr
    · cases hr
    · next hne =>
      rcases hgift r hr with hdest | ⟨rej', hmem, hparse⟩
      · exact hdest
      · cases hmem
        exact absurd (Option.some.inj (hparse.symm.trans hm)) hne
  | @offer rejName m D' hm hoffer =>
    obtain ⟨hen₁, rfl⟩ := hfirst.of_single
    refine (hinv.apply hen₁ trivial).apply hen fun r hr => ?_
    rcases hgift r hr with hdest | ⟨rej', hmem, hparse⟩
    · exact hdest
    · cases hmem
      obtain rfl : n = m := Option.some.inj (hparse.symm.trans hm)
      have hr' : (view s).gift n = some r := hr
      rw [view_gift_eq_none hoffer] at hr'
      cases hr'

/-- A step under the condition leaves gifts with their recipients. -/
theorem giftsOwned_step (hk : KeepsGifts s o call) (hp : Performs s o call ops)
    (hruns : Runs AccountId.encode (view s) ops h') (hinv : (view s).GiftsOwned) :
    h'.GiftsOwned := by
  cases hp with
  | register hn hrej => exact giftsOwned_register hk hn hrej hruns hinv
  | burn hn | releaseName hn | transfer hn | buyName hn =>
    -- the name that goes is not pending
    obtain ⟨hen, rfl⟩ := hruns.of_single
    exact hinv.apply hen (view_gift_eq_none (hk _ hn))
  | renew | acceptSubdomain | acceptOfferedName | buyGift | quiet =>
    obtain ⟨hen, rfl⟩ := hruns.of_single
    exact hinv.apply hen trivial

/-- If no call takes a pending gift from its recipient, then in every state reached
pending gifts belong to their recipients, and only the owner of a name can accept
it. -/
theorem gift_belongs_to_recipient (hcf : CollisionFree T.keccak256 T.baseNode L)
    (h : ReachableBy T L (OnSuccess KeepsGifts) s) :
    (∀ n offer, s.registrar.offeredNames.get n = some offer →
      Registry.ownerOf s n = some offer.recipient) ∧
    ∀ o name s', dispatch s o (.acceptOfferedName name) = .ok s' →
      ∃ who n, o = .signed who ∧ topLevelNode T name = .ok n ∧
        Registry.ownerOf s n = some who := by
  have hinv : (view s).GiftsOwned :=
    h.book_invariant hcf (fun _ => Book.GiftsOwned.of_vacant)
      (fun _ _ hen hJ => hJ.apply hen trivial)
      fun _ _ _ _ _ _ _ hk hok hp hruns hJ => giftsOwned_step (hk.holds hok) hp hruns hJ
  have hown : ∀ n offer, s.registrar.offeredNames.get n = some offer →
      Registry.ownerOf s n = some offer.recipient := fun n offer hoffer =>
    (view_owner_eq_some.mp
      (hinv n offer.recipient (view_gift_eq_some.mpr ⟨offer, hoffer, rfl⟩))).2
  refine ⟨hown, fun o name s' hs => ?_⟩
  obtain ⟨who, n, offer, info, primary, v₁, v₂, ho, hn, hoffer, rfl, -⟩ :=
    acceptOfferedName_eq_ok hs
  exact ⟨offer.recipient, n, ho, hn, hown n offer hoffer⟩

open Devnet in
theorem gift_belongs_to_recipient_after_purchase :
    afterGift.registrar.offeredNames.get (node alice)
        = some { buyer := account 2, recipient := account 3 } ∧
      Registry.ownerOf afterGift (node alice) = some (account 3) := by
  have hreach : ReachableBy config labels (OnSuccess KeepsGifts) afterGift :=
    reachableBy_after (by decide +kernel)
      ⟨fun _ => (by decide +kernel : ∀ n, topLevelNode config alice = .ok n →
        ∀ offer ∈ start.registrar.offeredNames.get n, offer.recipient = account 1 ∨
          ∃ rej ∈ none, parseNameToNode config.keccak256 rej config.baseNode = some n),
        fun _ => trivial, fun _ => trivial, trivial⟩
  have hoffer : afterGift.registrar.offeredNames.get (node alice)
      = some { buyer := account 2, recipient := account 3 } := by decide +kernel
  exact ⟨hoffer, (gift_belongs_to_recipient collisionFree hreach).1 _ _ hoffer⟩

/-- Account 3 burns the gifted name without accepting it, and account 4 registers
it. -/
def Devnet.burnedGiftInputs : List (Input Devnet.config) :=
  [ .extrinsic (.signed (account 1)) (.register alice (.id (account 1)) none),
    .extrinsic (.signed (account 1)) (.createListing 5000 1000000),
    .extrinsic (.signed (account 2)) (.buyName alice (some (account 3))),
    .extrinsic (.signed (account 3)) (.burn alice),
    .extrinsic (.signed (account 4)) (.register alice (.id (account 4)) none) ]

open Devnet in
/-- The gift is left over: it waits for account 3 while account 4 owns the name, and
account 3 can accept it. -/
theorem burn_leaves_gift :
    CollisionFree config.keccak256 config.baseNode labels ∧
      Reachable config labels (after burnedGiftInputs) ∧
      (after burnedGiftInputs).registrar.offeredNames.get (node alice)
        = some { buyer := account 2, recipient := account 3 } ∧
      Registry.ownerOf (after burnedGiftInputs) (node alice) = some (account 4) ∧
      (dispatch (after burnedGiftInputs) (.signed (account 3))
        (.acceptOfferedName alice)).isOk = true :=
  ⟨collisionFree, reachable_after (by decide +kernel), by decide +kernel⟩

/-! ## The SS58 anchor -/

/-- Gifts are accepted by the owners of the names only. -/
def AcceptsOwnGifts (s : State T) : Origin → Call T → Prop
  | .signed who, .acceptOfferedName name => AcceptsOwned s who name
  | _, _ => True

/-- A step under the condition leaves names and subnames anchored at their holders. -/
theorem anchored_step (hcf : CollisionFree T.keccak256 T.baseNode L)
    (hL : ∀ l ∈ call.labels, l ∈ L) (hk : AcceptsOwnGifts s o call)
    (hp : Performs s o call ops) (hruns : Runs AccountId.encode (view s) ops h')
    (hinv : Anchored AccountId.encode (view s)) : Anchored AccountId.encode h' := by
  cases hp with
  | register hn hrej =>
    obtain ⟨h₁, hfirst, hen, rfl⟩ := hruns.of_concat
    refine Anchored.apply hen trivial ?_
    cases hrej with
    | none =>
      cases hfirst
      exact hinv
    | gift | offer =>
      obtain ⟨hen₁, rfl⟩ := hfirst.of_single
      exact hinv.apply hen₁ trivial
  | acceptOfferedName hn =>
    obtain ⟨hen, rfl⟩ := hruns.of_single
    exact hinv.apply hen (AcceptsOwned.view_owner hk hcf (hL _ List.mem_cons_self) hn hen.1)
  | renew | transfer | releaseName | burn | acceptSubdomain | buyName | buyGift | quiet =>
    obtain ⟨hen, rfl⟩ := hruns.of_single
    exact hinv.apply hen trivial

/-- If gifts are accepted by owners only, then in every state reached the `SS58`
record of a minted name is its owner's encoding, and that of an active subname its
target's. -/
theorem ss58_names_holder (hcf : CollisionFree T.keccak256 T.baseNode L)
    (h : ReachableBy T L (OnSuccess AcceptsOwnGifts) s) :
    (∀ n a, n ≠ T.baseNode → Registry.ownerOf s n = some a →
      ∃ content, s.resolvers.records.get (n, .SS58) = some content ∧
        content.val = a.encode) ∧
    ∀ c d, s.registry.subnameRecords.get c = some d → d.state = .active →
      ∃ content, s.resolvers.records.get (c, .SS58) = some content ∧
        content.val = d.target.encode := by
  have hinv : Anchored AccountId.encode (view s) :=
    h.book_invariant hcf (fun _ => Anchored.of_vacant)
      (fun _ _ hen hJ => hJ.apply hen trivial)
      fun _ _ _ _ _ _ hL hk hok hp hruns hJ => anchored_step hcf hL (hk.holds hok) hp hruns hJ
  constructor
  · intro n a hne hown
    exact Option.map_eq_some_iff.mp (hinv.owner n a ((view_owner hne).trans hown))
  · intro c d hd hact
    exact Option.map_eq_some_iff.mp
      (hinv.active c d.target (activeOf_eq_some.mpr ⟨d, hd, hact, rfl⟩))

open Devnet in
theorem ss58_names_holder_after_gift :
    Registry.ownerOf (after giftInputs) (node alice) = some (account 3) ∧
      ∃ content, (after giftInputs).resolvers.records.get (node alice, .SS58)
        = some content ∧ content.val = (account 3).encode := by
  have hreach : ReachableBy config labels (OnSuccess AcceptsOwnGifts) (after giftInputs) :=
    reachableBy_after (by decide +kernel)
      ⟨fun _ => trivial, fun _ => trivial, fun _ => trivial,
        fun _ => (by decide +kernel : AcceptsOwned _ _ _), trivial⟩
  have hown : Registry.ownerOf (after giftInputs) (node alice) = some (account 3) := by
    decide +kernel
  exact ⟨hown, (ss58_names_holder collisionFree hreach).1 _ _ (by decide +kernel) hown⟩

open Devnet in
/-- Account 3 accepts the left-over gift of a name that account 4 owns: the name now
resolves to account 3. -/
theorem stale_gift_moves_anchor :
    let s := after
      (burnedGiftInputs ++ [.extrinsic (.signed (account 3)) (.acceptOfferedName alice)])
    CollisionFree config.keccak256 config.baseNode labels ∧ Reachable config labels s ∧
      Registry.ownerOf s (node alice) = some (account 4) ∧
      (s.resolvers.records.get (node alice, .SS58)).map (·.val)
        = some (account 3).encode :=
  ⟨collisionFree, reachable_after (by decide +kernel), by decide +kernel⟩

end PnsPallets
