import PnsPallets.Registrar
import PnsPallets.Registry.Consistency

/-!
# Registering a name

`mint_subname` has two branches: a fresh mint, and the re-registration of a name
past its grace period, where the token is moved and the previous owner's
subnames, records and pointer are cleared. `register` reaches it with a payment
closure that writes the registration record before there is a token.

Both branches leave the same kind of state: `Issued` describes it, and everything
later is derived from that description.
-/

namespace PnsPallets

open Frame Registry Registrar

variable {T : Config} {L : Set Bytes} {s s' : State T} {n : DomainHash}
  {caller dest : AccountId}

/-! ## The pieces of a registration -/

theorem burnFee_eq {who : AccountId} {fee : Balance} (h : burnFee s who fee = .ok s') :
    ∃ balances, s' = { s with balances := balances } := by
  unfold burnFee at h
  simp only [bind_eq_ok, pure_eq_ok] at h
  obtain ⟨withdrawn, -, rfl⟩ := h
  exact ⟨_, rfl⟩

/-- The previous owner loses a pointer to the re-registered name, and only that. -/
theorem freePreviousOwner_eq (s : State T) (n : DomainHash) (prev : Option AccountId) :
    ∃ primary : StorageMap AccountId DomainHash,
      freePreviousOwner s n prev = { s with registrar.ownerToPrimaryName := primary } ∧
      ∀ z, primary.get z =
        if prev = some z ∧ s.registrar.ownerToPrimaryName.get z = some n then none
        else s.registrar.ownerToPrimaryName.get z := by
  cases prev with
  | none => exact ⟨s.registrar.ownerToPrimaryName, rfl, by simp⟩
  | some a =>
    by_cases hptr : s.registrar.ownerToPrimaryName.get a = some n
    · refine ⟨s.registrar.ownerToPrimaryName.remove a, if_pos hptr, fun z => ?_⟩
      by_cases hz : z = a
      · subst hz
        simp [hptr]
      · simp [hz, Ne.symm hz]
    · refine ⟨s.registrar.ownerToPrimaryName, if_neg hptr, fun z => ?_⟩
      by_cases hz : z = a
      · subst hz
        simp [hptr]
      · simp [Ne.symm hz]

/-- The payment closure touches balances, pointers and the registration record. -/
theorem registerPayments_eq {fee : Balance} {expire : Moment} {len : Nat}
    {prev : Option AccountId}
    (h : registerPayments caller n fee expire len s prev = .ok s') :
    ∃ balances, ∃ primary : StorageMap AccountId DomainHash,
      (∀ z, primary.get z =
        if prev = some z ∧ s.registrar.ownerToPrimaryName.get z = some n then none
        else s.registrar.ownerToPrimaryName.get z) ∧
      s' = { s with
        balances := balances
        registrar.ownerToPrimaryName := primary
        registrar.registrarInfos := s.registrar.registrarInfos.insert n
          (registrationInfo s n fee expire len) } := by
  unfold registerPayments at h
  simp only [bind_eq_ok, pure_eq_ok] at h
  obtain ⟨s₁, hfee, rfl⟩ := h
  obtain ⟨primary, heq, hprimary⟩ := freePreviousOwner_eq s n prev
  obtain ⟨balances, rfl⟩ := burnFee_eq hfee
  refine ⟨balances, primary, hprimary, ?_⟩
  rw [heq]
  rfl

theorem registrationInfo_expire {fee : Balance} {expire : Moment} {len : Nat} :
    (registrationInfo s n fee expire len).expire = expire := by
  unfold registrationInfo
  split <;> rfl

/-- A re-registered name keeps its capacity. -/
theorem registrationInfo_capacity {i : RegistrarInfo} {fee : Balance} {expire : Moment}
    {len : Nat} (hi : s.registrar.registrarInfos.get n = some i) :
    (registrationInfo s n fee expire len).capacity = i.capacity := by
  unfold registrationInfo
  rw [hi]

/-! ## What a registration leaves -/

/-- `s'` is `s` with the vacant name `n` issued to `dest` under registration
`info`: the token, its hierarchy entry and registration are there, its subnames
and the previous owner's pointer are gone. -/
structure Issued (L : Set Bytes) (n : DomainHash) (dest : AccountId) (info : RegistrarInfo)
    (s s' : State T) : Prop where
  now : s'.now = s.now
  parentHash : s'.parentHash = s.parentHash
  listings : s'.listings = s.listings
  vacant : s.nft.ownerOf n = none ∨ stillValid s n = false
  ledger : Ledger s'.nft
  ownerOf : ∀ m, s'.nft.ownerOf m = if m = n then some dest else s.nft.ownerOf m
  childrenOf : ∀ m, m ≠ T.baseNode →
    s'.nft.childrenOf m = if m = n then some 0 else s.nft.childrenOf m
  classOwner : s'.nft.classOwner = s.nft.classOwner
  runtimeOrigin : ∀ m, s'.registry.runtimeOrigin.get m
    = if m = n then some .root else s.registry.runtimeOrigin.get m
  official : s'.registry.official = s.registry.official
  indexed : Indexed T L s'.registry
  subnameRecords : ∀ c, s'.registry.subnameRecords.get c
    = if childOf s.registry n c then none else s.registry.subnameRecords.get c
  held : ∀ t c, (s'.registry.accountToSubnames.get (t, c)).isSome = true →
    c = n ∨ (s.registry.accountToSubnames.get (t, c)).isSome = true
  registrarInfos : s'.registrar.registrarInfos = s.registrar.registrarInfos.insert n info
  offeredNames : s'.registrar.offeredNames = s.registrar.offeredNames
  primary : ∀ z, s'.registrar.ownerToPrimaryName.get z =
    if s.nft.ownerOf n = some z ∧ s.registrar.ownerToPrimaryName.get z = some n then none
    else s.registrar.ownerToPrimaryName.get z
  anchorOf : ∀ k, k ≠ n → Resolvers.anchorOf s'.resolvers k
    = if childOf s.registry n k then none else Resolvers.anchorOf s.resolvers k

section Mint

variable {official : AccountId} {fee : Balance} {expire : Moment} {len : Nat}

/-- What the checks of `mint_subname` below the base node establish. -/
theorem mintPrepare_eq {plan : MintPlan T}
    {pay : State T → Option AccountId → DispatchResult (State T)}
    (h : mintPrepare s official T.baseNode n dest pay = .ok plan) :
    (∃ s₁, s.nft.ownerOf n = none ∧ pay s none = .ok s₁ ∧ plan = .fresh s₁) ∨
    ∃ s₁ prev, s.nft.ownerOf n = some prev ∧ stillValid s n = false ∧
      (s.registrar.registrarInfos.get n).isSome = true ∧
      pay s (some prev) = .ok s₁ ∧ plan = .reissue s₁ prev := by
  unfold mintPrepare verifyWithOwner at h
  simp only [bind_eq_ok, okOr_eq_ok, ensure_eq_ok] at h
  obtain ⟨nodeInfo, hnode, -, -, -, -, h⟩ := h
  cases hinfo : s.nft.tokens.get (classZero, n) with
  | none =>
    simp only [hinfo, bind_eq_ok, pure_eq_ok] at h
    obtain ⟨s₁, hpay, rfl⟩ := h
    exact Or.inl ⟨s₁, NftStorage.tokens_eq_none.mp hinfo, hpay, rfl⟩
  | some info =>
    simp only [hinfo, bind_eq_ok, pure_eq_ok] at h
    obtain ⟨_, hcheck, s₁, hpay, rfl⟩ := h
    obtain ⟨⟨i, hi⟩, hvalid⟩ := checkExpiresRegistrable_eq_ok hcheck
    exact Or.inr ⟨s₁, info.owner, by simp [NftStorage.ownerOf, hinfo], hvalid,
      by rw [hi]; rfl, hpay, rfl⟩

/-- The fresh branch. -/
theorem issued_of_fresh (hc : Consistent T L s) (htop : TopLevel T L n)
    (hnone : s.nft.ownerOf n = none) {s₁ : State T}
    (hpay : registerPayments caller n fee expire len s none = .ok s₁)
    (h : mintFinish T.baseNode n dest [] 0 (.fresh s₁) = .ok s') :
    Issued L n dest (registrationInfo s n fee expire len) s s' := by
  obtain ⟨balances, primary, hprimary, rfl⟩ := registerPayments_eq hpay
  have hbase : s.registry.runtimeOrigin.get T.baseNode = none := by
    rw [hc.hierarchy.origin]
    simp
  unfold mintFinish joinHierarchy addChildren at h
  simp only [hbase, bind_eq_ok, okOr_eq_ok, pure_eq_ok] at h
  obtain ⟨nft, hmint, nft', ⟨info, hinfo, rfl⟩, rfl⟩ := h
  have hnew : s.nft.tokens.get (classZero, n) = none := NftStorage.tokens_eq_none.mpr hnone
  have hnochild := hc.no_child_of_unminted hnone
  exact
    { now := rfl
      parentHash := rfl
      listings := rfl
      vacant := Or.inl hnone
      ledger := (hc.ledger.mint hnew hmint).setChildren hinfo
      ownerOf := fun m => by
        show (setChildren nft _ info _).ownerOf m = _
        rw [setChildren_ownerOf hinfo, mint_ownerOf hmint]
      childrenOf := fun m hm => by
        show (setChildren nft _ info _).childrenOf m = _
        rw [setChildren_childrenOf, if_neg hm, mint_childrenOf hmint]
        rfl
      classOwner := by
        show nft.classOwner = _
        exact mint_classOwner hmint
      runtimeOrigin := fun m => StorageMap.get_insert _ _ _ _
      official := rfl
      indexed := (hc.indexed.hold htop).setOrigin _
      subnameRecords := fun c => by
        rw [hnochild]
        rfl
      held := fun t c ht => by
        show c = n ∨ _
        rw [show (StorageMap.insert _ (dest, n) ()).get (t, c) = _ from
          StorageMap.get_insert _ _ _ _] at ht
        split at ht
        · next hkey => exact Or.inl (Prod.mk.inj hkey).2
        · exact Or.inr ht
      registrarInfos := rfl
      offeredNames := rfl
      primary := fun z => by
        rw [hnone]
        simpa using hprimary z
      anchorOf := fun k _ => by
        rw [hnochild]
        rfl }

/-- The registration record of a minted name may be rewritten at will, as long as
its capacity is kept. -/
theorem Consistent.rewriteInfo (hc : Consistent T L s) {i i' : RegistrarInfo}
    (hi : s.registrar.registrarInfos.get n = some i) (hcap : i'.capacity = i.capacity)
    (balances : T.Ledger) (primary : StorageMap AccountId DomainHash) :
    Consistent T L { s with
      balances := balances
      registrar.ownerToPrimaryName := primary
      registrar.registrarInfos := s.registrar.registrarInfos.insert n i' } := by
  obtain ⟨htop, horigin, hinfo, hbase⟩ := hc.hierarchy
  obtain ⟨hparent, hcount, hcapacity⟩ := hc.counted
  refine ⟨hc.ledger, ⟨htop, horigin, ?_, hbase⟩, hc.indexed, ⟨hparent, hcount, ?_⟩⟩
  · intro m
    by_cases hm : m = n
    · subst hm
      have := hinfo m
      rw [hi] at this
      simpa using this
    · simpa [hm] using hinfo m
  · intro p k j hp hk hj
    by_cases hpn : p = n
    · subst hpn
      rw [StorageMap.get_insert, if_pos rfl, Option.some.injEq] at hj
      subst hj
      rw [hcap]
      exact hcapacity p k i hp hk hi
    · rw [StorageMap.get_insert, if_neg hpn] at hj
      exact hcapacity p k j hp hk hj

/-- The re-registration branch. -/
theorem issued_of_reissue (hcf : CollisionFree T.keccak256 T.baseNode L)
    (hc : Consistent T L s) (htop : TopLevel T L n) {prev : AccountId}
    (hprev : s.nft.ownerOf n = some prev) (hvalid : stillValid s n = false)
    (hinfo : (s.registrar.registrarInfos.get n).isSome = true) {s₁ : State T}
    (hpay : registerPayments caller n fee expire len s (some prev) = .ok s₁)
    (h : mintFinish T.baseNode n dest [] 0 (.reissue s₁ prev) = .ok s') :
    Issued L n dest (registrationInfo s n fee expire len) s s' := by
  obtain ⟨i, hi⟩ := Option.isSome_iff_exists.mp hinfo
  obtain ⟨balances, primary, hprimary, heq⟩ := registerPayments_eq hpay
  have hc₁ : Consistent T L s₁ := by
    rw [heq]
    exact hc.rewriteInfo hi (registrationInfo_capacity hi) balances primary
  unfold mintFinish at h
  simp only [bind_eq_ok, pure_eq_ok] at h
  obtain ⟨nft, hmove, rfl⟩ := h
  have hcl := hc₁.cleared hcf n
  generalize clearSubnames s₁ n = s₂ at hcl hmove ⊢
  have hown₂ : s₂.nft.ownerOf = s.nft.ownerOf := by
    rw [hcl.ownerOf, heq]
  have hchildren₂ : ∀ m, s₂.nft.childrenOf m
      = if m = n then (s.nft.childrenOf n).map (fun _ => 0) else s.nft.childrenOf m := by
    rw [hcl.nft, heq]
    exact resetChildren_childrenOf s.nft n
  have hregistry₁ : s₁.registry = s.registry := by rw [heq]
  have hresolvers₁ : s₁.resolvers = s.resolvers := by rw [heq]
  have hanchor₂ : ∀ k, Resolvers.anchorOf s₂.resolvers k
      = if childOf s.registry n k then none else Resolvers.anchorOf s.resolvers k := by
    intro k
    unfold Resolvers.anchorOf
    rw [hcl.records, hregistry₁, hresolvers₁]
    split <;> rfl
  exact
    { now := by
        show s₂.now = _
        rw [hcl.frame, heq]
      parentHash := by
        show s₂.parentHash = _
        rw [hcl.frame, heq]
      listings := by
        show s₂.listings = _
        rw [hcl.frame, heq]
      vacant := Or.inr hvalid
      ledger := (hcl.consistent hcf hc₁).ledger.transfer hmove
      ownerOf := fun m => by
        show nft.ownerOf m = _
        rw [transfer_ownerOf hmove, hown₂]
      childrenOf := fun m _ => by
        show nft.childrenOf m = _
        rw [transfer_childrenOf hmove, hchildren₂]
        split
        · have hsome : (s.nft.childrenOf n).isSome = true := by
            rw [NftStorage.childrenOf_isSome, hprev]
            rfl
          obtain ⟨k, hk⟩ := Option.isSome_iff_exists.mp hsome
          rw [hk]
          rfl
        · rfl
      classOwner := by
        show nft.classOwner = _
        rw [transfer_classOwner hmove, hcl.nft, resetChildren_classOwner, heq]
      runtimeOrigin := fun m => by
        show s₂.registry.runtimeOrigin.get m = _
        rw [hcl.origin hcf hc₁, hregistry₁]
        split
        · next hm =>
          rw [hm, hc.hierarchy.origin, hprev]
          simp [htop.ne_base hcf]
        · rfl
      official := by
        show s₂.registry.official = _
        rw [hcl.official, hregistry₁]
      indexed := ((hc₁.indexed.forget hcl.forgets).unhold hcf htop).hold htop
      subnameRecords := fun c => by
        show s₂.registry.subnameRecords.get c = _
        rw [hcl.forgets.subnameRecords, hregistry₁]
      held := fun t c ht => by
        have hheld := hcl.forgets.accountToSubnames t c
        rw [hregistry₁] at hheld
        grind
      registrarInfos := by
        show s₂.registrar.registrarInfos = _
        rw [hcl.registrar, heq]
      offeredNames := by
        show s₂.registrar.offeredNames = _
        rw [hcl.registrar, heq]
      primary := fun z => by
        show s₂.registrar.ownerToPrimaryName.get z = _
        rw [hcl.registrar, heq, hprev]
        exact hprimary z
      anchorOf := fun k hk => by
        show Resolvers.anchorOf (Resolvers.clearAllRecords s₂.resolvers n) k = _
        rw [Resolvers.clearAllRecords_anchorOf, if_neg hk, hanchor₂] }

/-- What `mint_subname` does for `register`. -/
theorem mintSubname_issued (hcf : CollisionFree T.keccak256 T.baseNode L)
    (hc : Consistent T L s) (htop : TopLevel T L n)
    (h : mintSubname s official [] T.baseNode n dest 0
      (registerPayments caller n fee expire len) = .ok s') :
    Issued L n dest (registrationInfo s n fee expire len) s s' := by
  unfold mintSubname at h
  rw [bind_eq_ok] at h
  obtain ⟨plan, hplan, hfinish⟩ := h
  rcases mintPrepare_eq hplan with
    ⟨s₁, hnone, hpay, rfl⟩ | ⟨s₁, prev, hprev, hvalid, hinfo, hpay, rfl⟩
  · exact issued_of_fresh hc htop hnone hpay hfinish
  · exact issued_of_reissue hcf hc htop hprev hvalid hinfo hpay hfinish

end Mint

/-- Issuing a name keeps the storage consistent. -/
theorem Issued.consistent {info : RegistrarInfo} (hcf : CollisionFree T.keccak256 T.baseNode L)
    (hi : Issued L n dest info s s') (htop : TopLevel T L n) (hc : Consistent T L s) :
    Consistent T L s' := by
  have hne := htop.ne_base hcf
  have hown := hi.ownerOf
  refine ⟨hi.ledger, ?_, hi.indexed, ?_⟩
  · obtain ⟨htops, horigin, hinfo, hbase⟩ := hc.hierarchy
    constructor
    · intro m hm hm'
      rw [hown] at hm
      split at hm
      · next hmn => exact hmn ▸ htop
      · exact htops m hm hm'
    · intro m
      rw [hi.runtimeOrigin, hown]
      by_cases hm : m = n
      · simp [hm, hne]
      · simp only [if_neg hm]
        exact horigin m
    · intro m
      rw [hi.registrarInfos, StorageMap.get_insert, hown]
      by_cases hm : m = n
      · simp [hm, hne]
      · simp only [if_neg hm]
        exact hinfo m
    · rw [hi.official, hi.classOwner, hown, if_neg (Ne.symm hne)]
      exact hbase
  · refine hc.counted.cleared hc.indexed hi.subnameRecords ?_ ?_ ?_
    · intro m hm
      rw [hown]
      split
      · rfl
      · exact hm
    · intro m hm k hk
      rw [hi.childrenOf m hm] at hk
      split at hk
      · next hmn =>
        cases hk
        exact Or.inl ⟨hmn, rfl⟩
      · next hmn => exact Or.inr ⟨hmn, hk⟩
    · intro m hm
      rw [hi.registrarInfos, StorageMap.get_insert, if_neg hm]

end PnsPallets
