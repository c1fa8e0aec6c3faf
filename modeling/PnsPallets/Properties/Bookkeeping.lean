import PnsPallets.Devnet
import PnsPallets.Reachability

/-!
# Bookkeeping across the pallets

What the storage of the NFT, registry and registrar pallets agrees on in every
reachable state:

- `token_registration_agree`: token, registration and hierarchy of a name;
- `ledger_exact`: the NFT pallet's index and issuance, and that `nft::mint` and
  `nft::burn` are called where they cannot go wrong;
- `delegations_exact`: the subname records, their indices and the child counters.

The last one needs a condition. `AccountToSubnames` also lists top-level names,
under the account they were minted for; `do_transfer` does not move the entry of a
name it hands over, and `do_burn` removes only the entry of the current owner. The
entry of a former owner thus outlives the name (`transfer_strands_entry`).
-/

namespace PnsPallets

open Frame Registry Registrar Holdings

variable {T : Config} {L : Set Bytes} {s s' : State T} {o : Origin} {call : Call T}
  {ops : List NameOp} {h' : Book AccountId DomainHash Nat Bytes} {a who : AccountId}
  {n m : DomainHash}

/-! ## Token, registration and hierarchy -/

/-- Token, registration info and origin of a name come and go together, the base
node belongs to the official account, and a minted name is never refused for
missing registration info. -/
theorem token_registration_agree (hcf : CollisionFree T.keccak256 T.baseNode L)
    (h : Reachable T L s) :
    (∀ n, n ≠ T.baseNode →
      ((s.nft.tokens.get (classZero, n)).isSome = true ↔
        (s.registrar.registrarInfos.get n).isSome = true) ∧
      ((s.nft.tokens.get (classZero, n)).isSome = true ↔
        s.registry.runtimeOrigin.get n = some .root) ∧
      (∀ p, s.registry.runtimeOrigin.get n ≠ some (.runtimeOrigin p)) ∧
      ((s.nft.tokens.get (classZero, n)).isSome = true →
        checkExpiresRegistrable s n ≠ .error (.registrar .notExistOrOccupied))) ∧
    s.registry.runtimeOrigin.get T.baseNode = none ∧
    ∃ a, Registry.ownerOf s T.baseNode = some a ∧ s.registry.official = some a ∧
      s.nft.classOwner = some a := by
  obtain ⟨-, horigin, hinfo, a, hofficial, hbase, hclass⟩ := (h.consistent hcf).hierarchy
  simp only [NftStorage.ownerOf_isSome] at horigin hinfo
  refine ⟨fun n hne => ⟨?_, ?_, fun p hp => ?_, fun htoken => ?_⟩, ?_,
    a, hbase, hofficial, hclass⟩
  · rw [hinfo]
    exact ⟨fun ht => ⟨hne, ht⟩, fun hi => hi.2⟩
  · rw [horigin]
    by_cases ht : (s.nft.tokens.get (classZero, n)).isSome = true
    · rw [if_pos ⟨hne, ht⟩]
      exact ⟨fun _ => rfl, fun _ => ht⟩
    · rw [if_neg fun hn => ht hn.2]
      exact ⟨fun ht' => absurd ht' ht, fun hroot => by cases hroot⟩
  · rw [horigin] at hp
    split at hp
    · cases hp
    · cases hp
  · intro herr
    cases checkExpiresRegistrable_fails ((hinfo n).mpr ⟨hne, htoken⟩) _ herr
  · rw [horigin, if_neg fun hn => hn.1 rfl]

/-- Account 1 has registered `alice`, and the official account has changed. -/
def Devnet.afterSetOfficial : State Devnet.config := Devnet.after
  [ .extrinsic (.signed (account 1)) (.register alice (.id (account 1)) none),
    .extrinsic .root (.setOfficial (account 4)) ]

open Devnet in
theorem token_registration_agree_after_setOfficial :
    (afterSetOfficial.nft.tokens.get (classZero, node alice)).isSome = true ∧
      (afterSetOfficial.registrar.registrarInfos.get (node alice)).isSome = true ∧
      ∃ a, Registry.ownerOf afterSetOfficial config.baseNode = some a ∧
        afterSetOfficial.registry.official = some a ∧
        afterSetOfficial.nft.classOwner = some a := by
  have htoken : (afterSetOfficial.nft.tokens.get (classZero, node alice)).isSome = true := by
    decide +kernel
  obtain ⟨hnames, -, hbase⟩ := token_registration_agree (s := afterSetOfficial) collisionFree
    (reachable_after (by decide +kernel))
  exact ⟨htoken, (hnames (node alice) (by decide +kernel)).1.mp htoken, hbase⟩

/-! ## The NFT ledger -/

/-- `t` is a state in which an extrinsic from `s` enters the registry: for the
token and registry storage, `s` itself, or the state after the `reject_offer` phase
of a registration. Before they call `mint_subname`, `do_burn` or `do_transfer` the
extrinsics change only pointers, gifts, listings and balances. -/
def EntersRegistry (s t : State T) : Prop :=
  ∃ who rejectOffer s₁, rejectPendingOffer s who rejectOffer = .ok s₁ ∧ t.nft = s₁.nft ∧
    t.registry = s₁.registry

theorem EntersRegistry.self (s : State T) : EntersRegistry s s :=
  ⟨⟨List.replicate 32 0, rfl⟩, none, s, rfl, rfl, rfl⟩

/-- A registration that finds no token calls `nft::mint` with no token there. -/
theorem mintPrepare_fresh {caller official dest : AccountId} {fee : Balance}
    {expire : Moment} {len : Nat}
    (h : mintPrepare s official T.baseNode n dest (registerPayments caller n fee expire len)
      = .ok (.fresh s')) : s'.nft.tokens.get (classZero, n) = none := by
  rcases mintPrepare_eq h with ⟨s₁, hnone, hpay, heq⟩ | ⟨s₁, prev, -, -, -, -, heq⟩
  · cases heq
    obtain ⟨balances, primary, -, rfl⟩ := registerPayments_eq hpay
    exact NftStorage.tokens_eq_none.mpr hnone
  · cases heq

/-- In every reachable state `TokensByOwner` mirrors `Tokens` and `total_issuance`
counts the tokens of a class. When an extrinsic enters the registry, `nft::mint` is
called for ids that do not exist, `nft::burn` goes through, and the subnames cleared
with a name are no tokens. -/
theorem ledger_exact (hcf : CollisionFree T.keccak256 T.baseNode L) (h : Reachable T L s) :
    (∀ a c n, (s.nft.tokensByOwner.get (a, c, n)).isSome = true ↔
      ∃ info, s.nft.tokens.get (c, n) = some info ∧ info.owner = a) ∧
    (∀ c cls, s.nft.classes.get c = some cls →
      cls.totalIssuance.toNat = s.nft.tokens.count (fun k _ => k.1 = c)) ∧
    (∀ c, s.nft.classes.get c = none → s.nft.tokens.count (fun k _ => k.1 = c) = 0) ∧
    ∀ t, EntersRegistry s t →
      (∀ caller official n dest fee expire len t',
        mintPrepare t official T.baseNode n dest (registerPayments caller n fee expire len)
          = .ok (.fresh t') → t'.nft.tokens.get (classZero, n) = none) ∧
      (∀ a n ready, burnPrepare t a n = .ok ready →
        ∃ nft, Nft.burn ready.1.nft ready.2 (classZero, n) = .ok nft) ∧
      ∀ n c, (t.registry.subNames.get (n, c)).isSome = true →
        t.nft.tokens.get (classZero, c) = none := by
  have hc := h.consistent hcf
  refine ⟨fun a c n => hc.ledger.index a (c, n), hc.ledger.issuance, fun c hnone => ?_, ?_⟩
  · refine StorageMap.count_eq_zero fun k info hk => decide_eq_false ?_
    rintro rfl
    have hsome := hc.ledger.class_exists k info hk
    rw [hnone] at hsome
    cases hsome
  rintro t ⟨who, rej, s₁, hrej, hnft, hregistry⟩
  have hc₁ := (rejectPendingOffer_spec hcf hc hrej).1
  have hchild : ∀ n c, childOf t.registry n c = true →
      t.nft.tokens.get (classZero, c) = none := by
    intro n c hchild
    rw [hregistry] at hchild
    rw [hnft]
    exact NftStorage.tokens_eq_none.mpr (hc₁.child_no_token hcf hchild)
  refine ⟨fun _ _ _ _ _ _ _ _ => mintPrepare_fresh, fun a n ready hready => ?_, hchild⟩
  unfold burnPrepare verifyWithOwner at hready
  simp only [bind_eq_ok, okOr_eq_ok, ensure_eq_ok, pure_eq_ok] at hready
  obtain ⟨info, hinfo, -, rfl, origin, horigin, s₂, hleave, rfl⟩ := hready
  rw [hregistry] at horigin
  obtain ⟨rfl, -, -⟩ := hc₁.hierarchy.origin_eq_some horigin
  cases hleave
  -- clearing the subnames only resets the child counter of the token
  have hcl := clearSubnames_cleared hcf (s := t) (hregistry ▸ hc₁.indexed) (hchild n)
  have hledger : Ledger t.nft := hnft ▸ hc₁.ledger
  obtain ⟨token, htoken, hown⟩ :
      ∃ token, (resetChildren t.nft n).tokens.get (classZero, n) = some token ∧
        token.owner = info.owner := by
    refine Option.map_eq_some_iff.mp ?_
    show (resetChildren t.nft n).ownerOf n = some info.owner
    rw [resetChildren_ownerOf, NftStorage.ownerOf, hinfo]
    rfl
  obtain ⟨nft, hburn⟩ := (hledger.resetChildren n).burn_isOk htoken
  rw [hown] at hburn
  refine ⟨nft, ?_⟩
  show Nft.burn (clearSubnames t n).nft info.owner (classZero, n) = .ok nft
  rw [hcl.nft]
  exact hburn

open Devnet in
/-- Account 1, with a subname delegated, is about to burn `alice`. -/
theorem ledger_exact_before_burn :
    let s := after
      [ .extrinsic (.signed (account 1)) (.register alice (.id (account 1)) none),
        .extrinsic (.signed (account 1)) (.offerSubdomain bob (.id (account 2))) ]
    (burnPrepare s (account 1) (node alice)).isOk = true ∧
      ∀ ready, burnPrepare s (account 1) (node alice) = .ok ready →
        ∃ nft, Nft.burn ready.1.nft ready.2 (classZero, node alice) = .ok nft :=
  ⟨by decide +kernel, fun ready hready =>
    ((ledger_exact collisionFree (reachable_after (by decide +kernel))).2.2.2 _
      (.self _)).2.1 _ _ ready hready⟩

/-! ## Subname delegations -/

/-- `AccountToSubnames` lists `n` for no account but `who`. -/
def OnlyEntry (s : State T) (who : AccountId) (n : DomainHash) : Prop :=
  ∀ t, (s.registry.accountToSubnames.get (t, n)).isSome = true → t = who

/-- The call burns a name only if the caller's entry in `AccountToSubnames` is the
only one: by `burn`, `release_name`, or the rejection of a gift that the call does
not register again. -/
def BurnsOnlyEntry (s : State T) : Origin → Call T → Prop
  | .signed who, .burn name =>
    ∀ n ∈ parseNameToNode T.keccak256 name T.baseNode, OnlyEntry s who n
  | .signed who, .releaseName =>
    ∀ n ∈ s.registrar.ownerToPrimaryName.get who, OnlyEntry s who n
  | .signed who, .register name _ (some rejectName) =>
    ∀ n ∈ parseNameToNode T.keccak256 rejectName T.baseNode,
      (s.registrar.offeredNames.get n).isSome = true → topLevelNode T name ≠ .ok n →
      OnlyEntry s who n
  | _, _ => True

/-- Top-level names listed in `AccountToSubnames` are minted. -/
def EntriesMinted (T : Config) (L : Set Bytes) (s : State T) : Prop :=
  ∀ t m, (s.registry.accountToSubnames.get (t, m)).isSome = true → TopLevel T L m →
    (s.nft.ownerOf m).isSome = true

/-- A name that a step under the condition leaves without an owner is listed for
that owner only. -/
theorem onlyEntry_of_vacated (hk : BurnsOnlyEntry s o call)
    (hp : Performs s o call ops) (hruns : Runs AccountId.encode (view s) ops h')
    (hown : (view s).owner m = some a) (hnone : h'.owner m = none) : OnlyEntry s a m := by
  cases hp with
  | @register who dest name rej n e D rejected hn hrej =>
    obtain ⟨h₁, hfirst, hen, rfl⟩ := hruns.of_concat
    -- the registered name has an owner, so another one was rejected before
    have hne : m ≠ n := by
      rintro rfl
      simp [Op.apply, Book.handTo] at hnone
    have hnone₁ : h₁.owner m = none := by
      simpa [Op.apply, Book.handTo, Book.dropSubs, hne] using hnone
    cases hrej with
    | none =>
      cases hfirst
      rw [hnone₁] at hown
      cases hown
    | @gift rejName r offer D' hr hoffer =>
      obtain ⟨hen₁, rfl⟩ := hfirst.of_single
      obtain ⟨rfl, rfl⟩ := Op.owner_vacated hen₁ hown hnone₁
      refine hk m hr (by rw [hoffer]; rfl) fun hsame => hne ?_
      exact Except.ok.inj (hsame.symm.trans hn)
    | offer =>
      obtain ⟨hen₁, rfl⟩ := hfirst.of_single
      exact (Op.owner_vacated hen₁ hown hnone₁).elim
  | burn hn | releaseName hn =>
    obtain ⟨hen, rfl⟩ := hruns.of_single
    obtain ⟨rfl, rfl⟩ := Op.owner_vacated hen hown hnone
    exact hk _ hn
  | renew | transfer | acceptSubdomain | acceptOfferedName | buyName | buyGift | quiet =>
    obtain ⟨hen, rfl⟩ := hruns.of_single
    exact (Op.owner_vacated hen hown hnone).elim

/-- A step under the condition leaves no entry of a burned name. -/
theorem entriesMinted_step (hcf : CollisionFree T.keccak256 T.baseNode L)
    (hk : BurnsOnlyEntry s o call) (hsound : Sound L s o call s')
    (hinv : EntriesMinted T L s) : EntriesMinted T L s' := by
  intro t m ht htop
  rcases hsound.entries t m ht htop with hminted | ⟨hheld, hnot⟩
  · exact hminted
  obtain ⟨a, hown⟩ := Option.isSome_iff_exists.mp (hinv t m hheld htop)
  have hne := htop.ne_base hcf
  cases hown' : s'.nft.ownerOf m with
  | some b => rfl
  | none =>
    obtain ⟨ops, hperf, hruns⟩ := hsound.performs
    have honly := onlyEntry_of_vacated hk hperf hruns ((view_owner hne).trans hown)
      ((view_owner hne).trans hown')
    rw [honly t hheld] at hnot
    exact absurd hown hnot

theorem entriesMinted (hcf : CollisionFree T.keccak256 T.baseNode L)
    (h : ReachableBy T L (OnSuccess BurnsOnlyEntry) s) : EntriesMinted T L s := by
  refine (h.invariant (I := EntriesMinted T L) hcf ?_ (fun _ _ _ _ _ _ hinv => hinv)
    fun _ _ _ _ _ _ hk hok hsound hinv =>
      entriesMinted_step hcf (hk.holds hok) hsound hinv).2
  intro root balances parentHash s hs t m ht
  unfold genesis at hs
  simp only [bind_eq_ok, pure_eq_ok] at hs
  obtain ⟨nft, -, rfl⟩ := hs
  simp at ht

/-- If names are burned only while no other account is listed for them, then in
every state reached the subname records, their indices and the child counters agree
exactly, and the checked decrement of `sub_children` goes through for every
delegation. -/
theorem delegations_exact (hcf : CollisionFree T.keccak256 T.baseNode L)
    (h : ReachableBy T L (OnSuccess BurnsOnlyEntry) s) :
    (∀ p c, (s.registry.subNames.get (p, c)).isSome = true ↔
      ∃ d, s.registry.subnameRecords.get c = some d ∧ d.parent = p) ∧
    (∀ c d, s.registry.subnameRecords.get c = some d →
      (s.nft.tokens.get (classZero, d.parent)).isSome = true ∧
      s.registry.runtimeOrigin.get d.parent = some .root ∧
      (∀ c' d', s.registry.subnameRecords.get c' = some d' → d'.parent ≠ c) ∧
      c = encodeWithNode T.keccak256 d.parent
        (T.keccak256 (toAsciiLowercase d.label.val))) ∧
    (∀ t c, (s.registry.offeredToAccount.get (t, c)).isSome = true ↔
      ∃ d, s.registry.subnameRecords.get c = some d ∧ d.state = .offered ∧ d.target = t) ∧
    (∀ t c, c = T.baseNode ∨ s.nft.tokens.get (classZero, c) = none →
      ((s.registry.accountToSubnames.get (t, c)).isSome = true ↔
        ∃ d, s.registry.subnameRecords.get c = some d ∧ d.state = .active ∧ d.target = t)) ∧
    (∀ p token, p ≠ T.baseNode → s.nft.tokens.get (classZero, p) = some token →
      token.data.children.toNat
          = s.registry.subnameRecords.count (fun _ d => d.parent = p) ∧
        ∃ info, s.registrar.registrarInfos.get p = some info ∧
          token.data.children ≤ info.capacity) ∧
    ∀ c d, s.registry.subnameRecords.get c = some d →
      ∃ nft, subChildren s.nft d.parent = .ok nft := by
  have hc := h.consistent hcf
  refine ⟨hc.indexed.index, fun c d hd => ?_, fun t c => ?_, fun t c hfree => ?_,
    fun p token hne htoken => ?_, fun c d hd => hc.subChildren_isOk hcf hd⟩
  · have hparent := hc.counted.parent c d hd
    have hsub := hc.indexed.named c d hd
    refine ⟨NftStorage.ownerOf_isSome s.nft _ ▸ hparent, ?_, fun c' d' hd' heq => ?_, hsub.node_eq⟩
    · rw [hc.hierarchy.origin, if_pos ⟨hsub.topLevel_parent.ne_base hcf, hparent⟩]
    · -- parents are top-level names, and a subname is none
      exact hsub.not_topLevel hcf (heq ▸ (hc.indexed.named c' d' hd').topLevel_parent)
  · constructor
    · intro ht
      obtain ⟨d, hd, htarget, hstate⟩ := hc.indexed.offered t c ht
      exact ⟨d, hd, hstate, htarget⟩
    · rintro ⟨d, hd, hstate, rfl⟩
      exact hc.indexed.offered_of c d hd hstate
  · constructor
    · intro ht
      rcases hc.indexed.held t c ht with htop | ⟨d, hd, htarget, hstate⟩
      · have hsome := entriesMinted hcf h t c ht htop
        rcases hfree with hbase | hnone
        · exact absurd hbase (htop.ne_base hcf)
        · rw [NftStorage.tokens_eq_none.mp hnone] at hsome
          cases hsome
      · exact ⟨d, hd, hstate, htarget⟩
    · rintro ⟨d, hd, hstate, rfl⟩
      exact hc.indexed.active_of c d hd hstate
  · have hchildren : s.nft.childrenOf p = some token.data.children := by
      rw [NftStorage.childrenOf, htoken]
      rfl
    have hinfo := (hc.hierarchy.info p).mpr ⟨hne, by rw [NftStorage.ownerOf_isSome, htoken]; rfl⟩
    obtain ⟨info, hget⟩ := Option.isSome_iff_exists.mp hinfo
    exact ⟨hc.counted.children p _ hne hchildren, info, hget,
      hc.counted.capacity p _ info hne hchildren hget⟩

open Devnet in
theorem delegations_exact_after_delegation :
    let c := (Name.sub alice bob).node config.keccak256 config.baseNode
    (afterDelegation.registry.accountToSubnames.get (account 2, c)).isSome = true ∧
      ∃ d, afterDelegation.registry.subnameRecords.get c = some d ∧ d.state = .active ∧
        d.target = account 2 := by
  intro c
  have hheld : (afterDelegation.registry.accountToSubnames.get
      (account 2, (Name.sub alice bob).node config.keccak256 config.baseNode)).isSome
        = true := by decide +kernel
  have hnone : (afterDelegation.nft.tokens.get
      (classZero, (Name.sub alice bob).node config.keccak256 config.baseNode)).isNone
        = true := by decide +kernel
  have hreach : ReachableBy config labels (OnSuccess BurnsOnlyEntry) afterDelegation :=
    reachableBy_after (by decide +kernel)
      ⟨fun _ => trivial, fun _ => trivial, fun _ => trivial, trivial⟩
  obtain ⟨-, -, -, hactive, -⟩ := delegations_exact collisionFree hreach
  exact ⟨hheld, (hactive _ c (Or.inr (Option.isNone_iff_eq_none.mp hnone))).mp hheld⟩

/-- Account 1 transfers `alice` to account 2, which releases it. -/
def Devnet.afterTransferredRelease : State Devnet.config := Devnet.after
  [ .extrinsic (.signed (account 1)) (.register alice (.id (account 1)) none),
    .extrinsic (.signed (account 1)) (.transfer (.id (account 2))),
    .extrinsic (.signed (account 2)) .releaseName ]

open Devnet in
/-- Account 1 stays listed for a node that is neither a token nor a subname, and can
register no other name. -/
theorem transfer_strands_entry :
    CollisionFree config.keccak256 config.baseNode labels ∧
      Reachable config labels afterTransferredRelease ∧
      (afterTransferredRelease.nft.tokens.get (classZero, node alice)).isNone = true ∧
      (afterTransferredRelease.registry.accountToSubnames.get (account 1, node alice)).isSome
        = true ∧
      afterTransferredRelease.registry.subnameRecords.get (node alice) = none ∧
      (dispatch afterTransferredRelease (.signed (account 1))
        (.register bob (.id (account 1)) none)).isOk = false :=
  ⟨collisionFree, reachable_after (by decide +kernel), by decide +kernel⟩

end PnsPallets
