import PnsPallets.Devnet
import PnsPallets.Names.Grammar
import PnsPallets.Reachability

/-!
# Which names there are, and when they can be registered

The name grammar is implemented twice, by `parse_name_to_node` and by `Label`;
`parse_agrees` says that both accept the same strings and hash them to the same
nodes.

`register_succeeds_iff` lists what decides a registration: the grammar, the
reserved list, the expiry of the name, the two "one name per account" indices,
the official account and the fee. Everything else `register` checks on its way
through the registry and the NFT ledger is settled by the consistency of the
storage, so no other error is reachable (`mintSubname_isOk`).
-/

namespace PnsPallets

open Frame Registry Registrar

variable {T : Config} {L : Set Bytes} {s s' : State T} {n : DomainHash}
  {caller owner dest : AccountId} {name : Bytes}

/-! ## The two name hashers -/

theorem subdomainNode_toOption (T : Config) (parent label : Bytes) :
    (topLevelNode T parent >>= fun p => childNode T p label).toOption
      = (Label.newWithLen T.keccak256 parent).bind fun d =>
        (Label.newWithLen T.keccak256 label).map fun l =>
          l.1.encodeWithNode T.keccak256 (d.1.encodeWithNode T.keccak256 T.baseNode) := by
  unfold topLevelNode childNode
  cases Label.newWithLen T.keccak256 parent with
  | none => rfl
  | some d => cases Label.newWithLen T.keccak256 label <;> rfl

/-- `parse_name_to_node` accepts the name grammar; on one label it agrees with
`Label::new_with_len` and `encode_with_node`, on two with the nodes of the subdomain
calls; and two accepted strings have the same node iff they are equal up to case. -/
theorem parse_agrees (T : Config) :
    (∀ s, (parseNameToNode T.keccak256 s T.baseNode).isSome = true ↔ IsName s) ∧
    (∀ s, dot ∉ s → parseNameToNode T.keccak256 s T.baseNode
      = (Label.newWithLen T.keccak256 s).map
          fun l => l.1.encodeWithNode T.keccak256 T.baseNode) ∧
    (∀ sub dom, parseNameToNode T.keccak256 (sub ++ dot :: dom) T.baseNode
      = (topLevelNode T dom >>= fun p => childNode T p sub).toOption) ∧
    ∀ s t, IsName s → IsName t →
      HashesApart T.keccak256 T.baseNode ((nameOf s).inputs T.keccak256 T.baseNode
        ++ (nameOf t).inputs T.keccak256 T.baseNode) →
      (parseNameToNode T.keccak256 s T.baseNode = parseNameToNode T.keccak256 t T.baseNode ↔
        toAsciiLowercase s = toAsciiLowercase t) := by
  refine ⟨fun s => parseNameToNode_isSome, fun s => parseNameToNode_label, fun sub dom => ?_, ?_⟩
  · rw [parseNameToNode_join, subdomainNode_toOption]
  · intro s t hs ht hapart
    rw [parseNameToNode_eq_some_iff.mpr ⟨hs, rfl⟩, parseNameToNode_eq_some_iff.mpr ⟨ht, rfl⟩,
      Option.some.injEq, ← nameOf_eq_iff]
    exact ⟨Name.node_injective hapart, fun h => h ▸ rfl⟩

/-- `Alice` and `bob.alice` on the development chain. -/
theorem parse_agrees_devnet :
    parseNameToNode Devnet.keccak256 (65 :: Devnet.alice.tail) dotBasenode
      ≠ parseNameToNode Devnet.keccak256 (Devnet.bob ++ dot :: Devnet.alice) dotBasenode := by
  intro heq
  have hcase := ((parse_agrees Devnet.config).2.2.2 (65 :: Devnet.alice.tail)
    (Devnet.bob ++ dot :: Devnet.alice) (Or.inl (by decide +kernel))
    (Or.inr ⟨Devnet.bob, Devnet.alice, rfl, by decide +kernel, by decide +kernel⟩)
    ⟨by decide +kernel, by decide +kernel⟩).mp heq
  exact absurd hcase (by decide)

/-! ## The pieces of a registration that cannot fail -/

theorem dropStaleCanonicalName_isOk {a : AccountId} :
    (∃ s', dropStaleCanonicalName s a = .ok s') ↔ hasValidCanonicalName s a = false := by
  unfold dropStaleCanonicalName hasValidCanonicalName
  cases s.registrar.ownerToPrimaryName.get a with
  | none => simp
  | some m => cases hvalid : stillValid s m <;> simp [hvalid]

/-- An account id fits in a record. -/
theorem setSs58Record_isOk (hlen : 32 ≤ T.maxContentLen) (r : ResolversStorage T)
    (n : DomainHash) (a : AccountId) : ∃ r', Resolvers.setSs58Record r n a = .ok r' := by
  have hle : a.encode.length ≤ T.maxContentLen := a.length_eq.le.trans hlen
  simp only [Resolvers.setSs58Record, BoundedVec.tryFrom, dif_pos hle]
  exact ⟨_, rfl⟩

theorem setOriginRecord_isOk (hlen : 32 ≤ T.maxContentLen) (r : ResolversStorage T)
    (n : DomainHash) (hash : H256) : ∃ r', Resolvers.setOriginRecord r n hash = .ok r' := by
  have hle : hash.bytes.length ≤ T.maxContentLen := hash.length_eq.le.trans hlen
  simp only [Resolvers.setOriginRecord, BoundedVec.tryFrom, dif_pos hle]
  exact ⟨_, rfl⟩

/-- The payment closure fails only for the fee. -/
theorem registerPayments_isOk {fee : Balance} {expire : Moment} {len : Nat}
    {prev : Option AccountId} :
    (∃ s', registerPayments caller n fee expire len s prev = .ok s') ↔
      ∃ w, T.currency.withdraw s.balances caller fee .keepAlive = .ok w := by
  obtain ⟨primary, heq, -⟩ := freePreviousOwner_eq s n prev
  simp only [registerPayments, burnFee, heq, bind_eq_ok, pure_eq_ok, ofCurrency_eq_ok]
  constructor
  · rintro ⟨-, -, ⟨w, hw, -⟩, -⟩
    exact ⟨w, hw⟩
  · rintro ⟨w, hw⟩
    exact ⟨_, _, ⟨w, hw, rfl⟩, rfl⟩

/-- The name is not minted, or past its grace period. -/
def Lapsed (s : State T) (n : DomainHash) : Prop :=
  s.nft.ownerOf n = none ∨
    ∃ info, s.registrar.registrarInfos.get n = some info ∧ s.now > graceEnd T info

/-- The class of names can take one more token. -/
def Issuable (s : State T) : Prop :=
  ∀ cls, s.nft.classes.get classZero = some cls → cls.totalIssuance.toNat + 1 < 2 ^ 128

theorem checkExpiresRegistrable_isOk :
    (∃ u, checkExpiresRegistrable s n = .ok u) ↔
      ∃ info, s.registrar.registrarInfos.get n = some info ∧ s.now > graceEnd T info := by
  simp only [checkExpiresRegistrable, bind_eq_ok, okOr_eq_ok, ensure_eq_ok]
  constructor
  · rintro ⟨-, info, h⟩
    exact ⟨info, h⟩
  · rintro ⟨info, h⟩
    exact ⟨(), info, h⟩

section Mint

variable {official : AccountId} {fee : Balance}

/-- What decides about a mint below the base node: the official account has the
permission, so only the name, the receiving account and the fee do. -/
theorem mintPrepare_isOk (hc : Consistent T L s)
    (hofficial : s.registry.official = some official) (expire : Moment) (len : Nat) :
    (∃ plan, mintPrepare s official T.baseNode n dest
      (registerPayments caller n fee expire len) = .ok plan) ↔
      Lapsed s n ∧ s.nft.ownerOf T.baseNode ≠ some dest ∧
        ∃ w, T.currency.withdraw s.balances caller fee .keepAlive = .ok w := by
  obtain ⟨a, ha, hown, -⟩ := hc.hierarchy.base
  obtain rfl : official = a := Option.some.inj (hofficial.symm.trans ha)
  obtain ⟨base, hbase, hperm⟩ := Option.map_eq_some_iff.mp hown
  have horigin : s.registry.runtimeOrigin.get T.baseNode = none := by
    rw [hc.hierarchy.origin]
    simp
  constructor
  · rintro ⟨plan, h⟩
    unfold mintPrepare at h
    simp only [horigin, bind_eq_ok, okOr_eq_ok, ensure_eq_ok] at h
    obtain ⟨-, -, -, -, -, hdest, h⟩ := h
    cases htoken : s.nft.tokens.get (classZero, n) with
    | none =>
      simp only [htoken, bind_eq_ok] at h
      obtain ⟨s₁, hpay, -⟩ := h
      exact ⟨Or.inl (NftStorage.tokens_eq_none.mp htoken), hdest,
        registerPayments_isOk.mp ⟨s₁, hpay⟩⟩
    | some token =>
      simp only [htoken, bind_eq_ok] at h
      obtain ⟨u, hcheck, s₁, hpay, -⟩ := h
      exact ⟨Or.inr (checkExpiresRegistrable_isOk.mp ⟨u, hcheck⟩), hdest,
        registerPayments_isOk.mp ⟨s₁, hpay⟩⟩
  · rintro ⟨hlapsed, hdest, hw⟩
    unfold mintPrepare
    simp only [horigin, bind_eq_ok, okOr_eq_ok, ensure_eq_ok]
    cases htoken : s.nft.tokens.get (classZero, n) with
    | none =>
      obtain ⟨s₁, hpay⟩ := registerPayments_isOk.mpr hw
      exact ⟨.fresh s₁, base, hbase, (), ensure_eq_ok.mpr hperm.symm, (), hdest,
        bind_eq_ok.mpr ⟨s₁, hpay, rfl⟩⟩
    | some token =>
      have hexpired : ∃ u, checkExpiresRegistrable s n = .ok u := by
        rcases hlapsed with hnone | hinfo
        · rw [← NftStorage.tokens_eq_none, htoken] at hnone
          cases hnone
        · exact checkExpiresRegistrable_isOk.mpr hinfo
      obtain ⟨u, hcheck⟩ := hexpired
      obtain ⟨s₁, hpay⟩ := registerPayments_isOk.mpr hw
      exact ⟨.reissue s₁ token.owner, base, hbase, (), ensure_eq_ok.mpr hperm.symm, (), hdest,
        bind_eq_ok.mpr ⟨u, hcheck, bind_eq_ok.mpr ⟨s₁, hpay, rfl⟩⟩⟩

/-- The NFT ledger then mints or moves the token. -/
theorem mintFinish_isOk (hcf : CollisionFree T.keccak256 T.baseNode L) (hc : Consistent T L s)
    (htop : TopLevel T L n) (hissue : Issuable s) {expire : Moment} {len : Nat}
    {plan : MintPlan T}
    (hplan : mintPrepare s official T.baseNode n dest
      (registerPayments caller n fee expire len) = .ok plan) :
    ∃ s', mintFinish T.baseNode n dest [] 0 plan = .ok s' := by
  rcases mintPrepare_eq hplan with
    ⟨s₁, hnone, hpay, rfl⟩ | ⟨s₁, prev, hprev, -, hinfo, hpay, rfl⟩
  · obtain ⟨balances, primary, -, rfl⟩ := registerPayments_eq hpay
    obtain ⟨a, -, hown, hclass⟩ := hc.hierarchy.base
    obtain ⟨cls, hcls, -⟩ := Option.map_eq_some_iff.mp hclass
    obtain ⟨base, hbase, -⟩ := Option.map_eq_some_iff.mp hown
    have horigin : s.registry.runtimeOrigin.get T.baseNode = none := by
      rw [hc.hierarchy.origin]
      simp
    have htotal : checkedAdd128 cls.totalIssuance 1 = some (cls.totalIssuance + 1) :=
      if_pos (hissue cls hcls)
    have hne : T.baseNode ≠ n := (htop.ne_base hcf).symm
    simp only [mintFinish, joinHierarchy, addChildren, Nft.mint, horigin, bind_eq_ok, okOr_eq_ok,
      pure_eq_ok]
    refine ⟨_, _, ⟨⟨[], Nat.zero_le _⟩, dif_pos _, cls, hcls, _, htotal, rfl⟩, _,
      ⟨base, ?_, rfl⟩, rfl⟩
    show (StorageMap.insert _ (classZero, n) _).get (classZero, T.baseNode) = some base
    rw [StorageMap.get_insert, if_neg (by simp [hne]), hbase]
  · obtain ⟨i, hi⟩ := Option.isSome_iff_exists.mp hinfo
    obtain ⟨balances, primary, -, heq⟩ := registerPayments_eq hpay
    have hc₁ : Consistent T L s₁ := by
      rw [heq]
      exact hc.rewriteInfo hi (registrationInfo_capacity hi) balances primary
    have hown : (clearSubnames s₁ n).nft.ownerOf n = some prev := by
      rw [(hc₁.cleared hcf n).ownerOf, heq]
      exact hprev
    obtain ⟨token, htoken, htowner⟩ := Option.map_eq_some_iff.mp hown
    simp only [mintFinish, Nft.transfer, bind_eq_ok, okOr_eq_ok, ensure_eq_ok]
    by_cases hsame : prev = dest
    · simp only [hsame, if_true, pure_eq_ok]
      exact ⟨_, _, ⟨token, htoken, (), by rw [htowner, hsame], rfl⟩, rfl⟩
    · simp only [hsame, if_false, pure_eq_ok]
      exact ⟨_, _, ⟨token, htoken, (), htowner, rfl⟩, rfl⟩

/-- A lapsed name can be minted for any account but the official one, if the caller
can pay: all other checks pass on a consistent state. -/
theorem mintSubname_isOk (hcf : CollisionFree T.keccak256 T.baseNode L)
    (hc : Consistent T L s) (htop : TopLevel T L n) (hissue : Issuable s)
    (hofficial : s.registry.official = some official) (expire : Moment) (len : Nat) :
    (∃ s', mintSubname s official [] T.baseNode n dest 0
      (registerPayments caller n fee expire len) = .ok s') ↔
      Lapsed s n ∧ s.nft.ownerOf T.baseNode ≠ some dest ∧
        ∃ w, T.currency.withdraw s.balances caller fee .keepAlive = .ok w := by
  rw [← mintPrepare_isOk hc hofficial expire len]
  unfold mintSubname
  constructor
  · rintro ⟨s', h⟩
    obtain ⟨plan, hplan, -⟩ := bind_eq_ok.mp h
    exact ⟨plan, hplan⟩
  · rintro ⟨plan, hplan⟩
    obtain ⟨s', hs'⟩ := mintFinish_isOk hcf hc htop hissue hplan
    exact ⟨s', bind_eq_ok.mpr ⟨plan, hplan, hs'⟩⟩

end Mint

/-! ## Registering -/

/-- The node a name is registered under. -/
def registeredNode (T : Config) (name : Bytes) : DomainHash :=
  (Name.top (toAsciiLowercase name)).node T.keccak256 T.baseNode

/-- What a registration of `name` for `owner`, paid by `caller`, depends on. -/
structure Registrable (s : State T) (caller : AccountId) (name : Bytes) (owner : AccountId) :
    Prop where
  label : IsLabel name
  unreserved : s.registrar.reservedList.containsKey (registeredNode T name) = false
  lapsed : Lapsed s (registeredNode T name)
  unofficial : s.nft.ownerOf T.baseNode ≠ some owner
  pointer : hasValidCanonicalName s owner = false
  held : ∀ m, s.registry.accountToSubnames.get (owner, m) = none
  affordable : ∃ fee, PriceOracle.registrationFee s.priceOracle name.length = some fee ∧
    ∃ w, T.currency.withdraw s.balances caller fee .keepAlive = .ok w

theorem registerName_isOk (hcf : CollisionFree T.keccak256 T.baseNode L)
    (hc : Consistent T L s) (hL : toAsciiLowercase name ∈ L) (hopen : T.isOpen = true)
    (hlen : 32 ≤ T.maxContentLen)
    (hfit : s.now.toNat + T.maxRegistrationDuration.toNat < 2 ^ 64) (hissue : Issuable s)
    (caller owner : AccountId) :
    (∃ s', registerName s caller name owner = .ok s') ↔ Registrable s caller name owner := by
  have htop : TopLevel T L (registeredNode T name) := ⟨_, hL, rfl⟩
  constructor
  · rintro ⟨s', h⟩
    obtain ⟨n, fee, expire, primary, s₁, v₁, v₂, hr, -⟩ := registerName_eq_ok h
    obtain ⟨official, hofficial, hmint⟩ := hr.mint
    obtain rfl : n = registeredNode T name := topLevelNode_eq hr.node
    obtain ⟨hlapsed, hbase, hw⟩ := (mintSubname_isOk hcf (hc.setPrimary primary) htop hissue
      hofficial expire _).mp ⟨s₁, hmint⟩
    exact
      { label := hr.label
        unreserved := hr.unreserved
        lapsed := hlapsed
        unofficial := hbase
        pointer := hasValidCanonicalName_eq_false.mpr hr.stale
        held := hasActiveSubname_eq_false.mp hr.held
        affordable := ⟨fee, hr.price, hw⟩ }
  · intro h
    obtain ⟨official, hofficial, -⟩ := hc.hierarchy.base
    obtain ⟨fee, hfee, hw⟩ := h.affordable
    obtain ⟨s₀, hs₀⟩ := dropStaleCanonicalName_isOk.mpr h.pointer
    obtain ⟨-, primary, -, rfl⟩ := dropStaleCanonicalName_eq hs₀
    obtain ⟨s₁, hmint⟩ := (mintSubname_isOk hcf (hc.setPrimary primary) htop hissue hofficial
      (s.now + T.maxRegistrationDuration) name.length).mpr ⟨h.lapsed, h.unofficial, hw⟩
    obtain ⟨v₁, hv₁⟩ := setSs58Record_isOk hlen s₁.resolvers (registeredNode T name) owner
    obtain ⟨v₂, hv₂⟩ := setOriginRecord_isOk hlen v₁ (registeredNode T name) s₁.parentHash
    have hne : name ≠ [] := by
      rintro rfl
      exact absurd h.label.1 (by decide)
    unfold registerName getOfficialAccount
    simp only [bind_eq_ok, okOr_eq_ok, ensure_eq_ok, newWithLen_eq_some, pure_eq_ok]
    exact ⟨_, (), hne, (), hopen, _, ⟨h.label, rfl⟩, (), decide_eq_true h.label.1, official,
      hofficial, _, if_pos hfit, (), h.unreserved, _, hs₀, (),
      hasActiveSubname_eq_false.mpr h.held, fee, hfee, s₁, hmint, v₁, hv₁, v₂, hv₂, rfl⟩

/-- What a successful registration leaves. -/
theorem registerName_eq (hcf : CollisionFree T.keccak256 T.baseNode L) (hc : Consistent T L s)
    (hL : toAsciiLowercase name ∈ L) (h : registerName s caller name owner = .ok s') :
    s'.nft.ownerOf (registeredNode T name) = some owner ∧
      s'.registrar.ownerToPrimaryName.get owner = some (registeredNode T name) ∧
      ∃ info, s'.registrar.registrarInfos.get (registeredNode T name) = some info ∧
        info.expire.toNat = s.now.toNat + T.maxRegistrationDuration.toNat := by
  have htop : TopLevel T L (registeredNode T name) := ⟨_, hL, rfl⟩
  obtain ⟨n, fee, expire, primary, s₁, v₁, v₂, hr, rfl⟩ := registerName_eq_ok h
  obtain ⟨official, -, hmint⟩ := hr.mint
  obtain rfl : n = registeredNode T name := topLevelNode_eq hr.node
  obtain ⟨info, hinfo, hi⟩ : ∃ info, info.expire = expire ∧
      Issued L (registeredNode T name) owner info
        { s with registrar.ownerToPrimaryName := primary } s₁ :=
    ⟨_, registrationInfo_expire, mintSubname_issued hcf (hc.setPrimary primary) htop hmint⟩
  have hsum : expire.toNat = s.now.toNat + T.maxRegistrationDuration.toNat :=
    Moment.checkedAdd_eq_some hr.term
  refine ⟨(hi.ownerOf _).trans (if_pos rfl), (StorageMap.get_insert _ _ _ _).trans (if_pos rfl),
    info, ?_, hinfo ▸ hsum⟩
  show s₁.registrar.registrarInfos.get _ = some info
  rw [hi.registrarInfos, StorageMap.get_insert, if_pos rfl]

/-- In the runtime `register` succeeds exactly when the name is a label, not reserved,
free or past its grace period, the owner is neither the official account nor holds a
name, and the caller can pay the fee; it then leaves the owner registered, and the
state as it was otherwise. -/
theorem register_succeeds_iff {keccak256 : Bytes → H256} {Ledger : Type}
    {currency : Currency Ledger} (hT : T = runtimeConfig keccak256 Ledger currency)
    (hcf : CollisionFree T.keccak256 T.baseNode L) (h : Reachable T L s)
    (hL : toAsciiLowercase name ∈ L)
    (hfit : s.now.toNat + T.maxRegistrationDuration.toNat < 2 ^ 64) (hissue : Issuable s) :
    ((dispatch s (.signed caller) (.register name (.id owner) none)).isOk = true ↔
      Registrable s caller name owner) ∧
    (∀ s', dispatch s (.signed caller) (.register name (.id owner) none) = .ok s' →
      s'.nft.ownerOf (registeredNode T name) = some owner ∧
      s'.registrar.ownerToPrimaryName.get owner = some (registeredNode T name) ∧
      ∃ info, s'.registrar.registrarInfos.get (registeredNode T name) = some info ∧
        info.expire.toNat = s.now.toNat + T.maxRegistrationDuration.toNat) ∧
    (¬ Registrable s caller name owner →
      apply s (.extrinsic (.signed caller) (.register name (.id owner) none)) = s) := by
  have hc := h.consistent hcf
  have hopen : T.isOpen = true := by rw [hT]; rfl
  have hlen : 32 ≤ T.maxContentLen := by rw [hT]; exact (by decide : 32 ≤ 1024)
  have hbody : dispatch s (.signed caller) (.register name (.id owner) none)
      = registerName s caller name owner := rfl
  have hiff := registerName_isOk hcf hc hL hopen hlen hfit hissue caller owner
  rw [hbody]
  refine ⟨?_, fun s' hs' => registerName_eq hcf hc hL hs', fun hnot => ?_⟩
  · rw [← hiff]
    cases registerName s caller name owner <;> simp [Except.isOk, Except.toBool]
  · show commit s (registerName s caller name owner) = s
    rcases commit_cases s (registerName s caller name owner) with hsame | hok
    · exact hsame
    · exact absurd (hiff.mp ⟨_, hok⟩) hnot

/-- Account 1 can register `alice` on the fresh development chain. -/
theorem register_succeeds_alice :
    Registrable Devnet.start (Devnet.account 1) Devnet.alice (Devnet.account 1) := by
  have hissue : Issuable Devnet.start := by
    have hall : (Devnet.start.nft.classes.get classZero).all
        (fun cls => cls.totalIssuance.toNat + 1 < 2 ^ 128) = true := by decide +kernel
    intro cls hcls
    rw [hcls] at hall
    simpa using hall
  exact (register_succeeds_iff rfl Devnet.collisionFree (.init Devnet.start_init) (by decide)
    (by decide +kernel) hissue).1.mp (by decide +kernel)

end PnsPallets
