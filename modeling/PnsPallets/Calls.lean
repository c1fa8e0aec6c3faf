import PnsPallets.Registry.Tables
import PnsPallets.Runtime
import PnsPallets.View

/-!
# What a successful call checked and did

One lemma per call, read off its body: if the call succeeds, its checks passed, and the state it
returns is this one. Whatever is said about successful calls elsewhere (of the holdings, the
zone, the roll, the events, the money) starts from these and does not look into a body again.

Calls that make use of a registry operation stop at that operation, which has its own lemmas:
`do_burn`, `do_transfer` and `mint_subname` for names, and `offer_subname` to `release_subname`
for subnames.
-/

namespace PnsPallets

open Frame Registry Registrar

variable {T : Config} {s s' : State T} {a b who : AccountId} {n p c : DomainHash} {o : Origin}

/-! ## Registration -/

theorem topLevelNode_eq_ok {name : Bytes} :
    topLevelNode T name = .ok n ↔ ∃ label, Label.newWithLen T.keccak256 name = some label ∧
      label.1.encodeWithNode T.keccak256 T.baseNode = n := by
  simp only [topLevelNode, bind_eq_ok, okOr_eq_ok, pure_eq_ok]

/-- The steps of a successful `register` after its `reject_offer` phase: `n` is the node of the
name, `primary` the pointers without a stale one of the owner, `s₁` the state after the mint,
`v₁` and `v₂` the records with the SS58 and then the ORIGIN record of the name. -/
structure RegisterSteps (s : State T) (caller : AccountId) (name : Bytes) (dest : AccountId)
    (n : DomainHash) (fee : Balance) (expire : Moment)
    (primary : StorageMap AccountId DomainHash) (s₁ : State T) (v₁ v₂ : ResolversStorage T) :
    Prop where
  label : IsLabel name
  node : topLevelNode T name = .ok n
  term : Moment.checkedAdd s.now T.maxRegistrationDuration = some expire
  unreserved : s.registrar.reservedList.containsKey n = false
  drop : dropStaleCanonicalName s dest
    = .ok { s with registrar.ownerToPrimaryName := primary }
  stale : ∀ m, s.registrar.ownerToPrimaryName.get dest = some m → stillValid s m = false
  pointers : ∀ z, primary.get z
    = if z = dest then none else s.registrar.ownerToPrimaryName.get z
  held : hasActiveSubname s dest = false
  price : PriceOracle.registrationFee s.priceOracle name.length = some fee
  mint : ∃ official, s.registry.official = some official ∧
    mintSubname { s with registrar.ownerToPrimaryName := primary } official [] T.baseNode n dest 0
      (registerPayments caller n fee expire name.length) = .ok s₁
  ss58 : Resolvers.setSs58Record s₁.resolvers n dest = .ok v₁
  origin : Resolvers.setOriginRecord v₁ n s₁.parentHash = .ok v₂

/-- `register` after its `reject_offer` phase. -/
theorem registerName_eq_ok {caller dest : AccountId} {name : Bytes}
    (h : registerName s caller name dest = .ok s') :
    ∃ n fee expire primary s₁ v₁ v₂,
      RegisterSteps s caller name dest n fee expire primary s₁ v₁ v₂ ∧
      s' = { s₁ with
        registrar.ownerToPrimaryName := s₁.registrar.ownerToPrimaryName.insert dest n
        resolvers := v₂ } := by
  unfold registerName getOfficialAccount at h
  simp only [bind_eq_ok, okOr_eq_ok, ensure_eq_ok, pure_eq_ok] at h
  obtain ⟨-, -, -, -, label, hlabel, -, -, official, hofficial, expire, hexpire, -, hfree, s₀, hs₀,
    -, hsub, fee, hfee, s₁, hmint, v₁, hv₁, v₂, hv₂, rfl⟩ := h
  obtain ⟨hstale, primary, hprimary, rfl⟩ := dropStaleCanonicalName_eq hs₀
  have hnode := topLevelNode_eq_ok.mpr ⟨label, hlabel, rfl⟩
  obtain ⟨hvalid, rfl⟩ := newWithLen_eq_some.mp hlabel
  exact ⟨_, fee, expire, primary, s₁, v₁, v₂,
    { label := hvalid
      node := hnode
      term := hexpire
      unreserved := hfree
      drop := hs₀
      stale := hstale
      pointers := hprimary
      held := hsub
      price := hfee
      mint := ⟨official, hofficial, hmint⟩
      ss58 := hv₁
      origin := hv₂ }, rfl⟩

/-- The three ways the `reject_offer` phase of a registration succeeds: nothing is to be rejected,
a gift to the caller is burned, or an offer of a subname to the caller is revoked. -/
inductive RejectSteps (s : State T) (who : AccountId) (s' : State T) : Option Bytes → Prop where
  | none : s' = s → RejectSteps s who s' none
  | gift {name : Bytes} {n : DomainHash} {offer : OfferedNameRecord} :
      parseNameToNode T.keccak256 name T.baseNode = some n →
      s.registrar.offeredNames.get n = some offer → offer.recipient = who →
      doBurn { s with registrar.offeredNames := s.registrar.offeredNames.remove n } who n
        = .ok s' →
      RejectSteps s who s' (some name)
  | offer {name : Bytes} {n : DomainHash} {d : SubnameRecord} :
      parseNameToNode T.keccak256 name T.baseNode = some n →
      s.registrar.offeredNames.get n = none →
      s.registry.subnameRecords.get n = some d → d.state = .offered → d.target = who →
      revokeSubname s d.parent n = .ok s' →
      RejectSteps s who s' (some name)

theorem rejectPendingOffer_eq_ok {rejectOffer : Option Bytes}
    (h : rejectPendingOffer s who rejectOffer = .ok s') : RejectSteps s who s' rejectOffer := by
  cases rejectOffer with
  | none =>
    cases h
    exact .none rfl
  | some name =>
    simp only [rejectPendingOffer, bind_eq_ok, okOr_eq_ok] at h
    obtain ⟨n, hn, h⟩ := h
    cases hoffer : s.registrar.offeredNames.get n with
    | none =>
      simp only [hoffer, orElseError_eq_ok, revokePendingOfferForTarget, bind_eq_ok, okOr_eq_ok,
        ensure_eq_ok] at h
      obtain ⟨d, hd, -, hstate, -, htarget, hrevoke⟩ := h
      exact .offer hn hoffer hd hstate htarget hrevoke
    | some offer =>
      simp only [hoffer, bind_eq_ok, ensure_eq_ok] at h
      obtain ⟨-, hrecipient, hburn⟩ := h
      exact .gift hn hoffer hrecipient hburn

/-- The `reject_offer` phase touches gifts and registration records beside the tables. -/
theorem rejectPendingOffer_frame {rejectOffer : Option Bytes}
    (h : rejectPendingOffer s who rejectOffer = .ok s') :
    ∃ gifts infos, s' = { s'.over s with
      registrar.offeredNames := gifts
      registrar.registrarInfos := infos } := by
  cases rejectPendingOffer_eq_ok h with
  | none heq =>
    rw [heq]
    exact ⟨_, _, rfl⟩
  | gift _ _ _ hburn =>
    obtain ⟨infos, heq⟩ := doBurn_frame hburn
    exact ⟨_, infos, heq⟩
  | offer _ _ _ _ _ hrevoke =>
    have heq := revokeSubname_frame hrevoke
    exact ⟨s.registrar.offeredNames, s.registrar.registrarInfos, heq⟩

theorem rejectPendingOffer_now {rejectOffer : Option Bytes}
    (h : rejectPendingOffer s who rejectOffer = .ok s') : s'.now = s.now := by
  obtain ⟨gifts, infos, heq⟩ := rejectPendingOffer_frame h
  exact (congrArg State.now heq :)

theorem rejectPendingOffer_reservedList {rejectOffer : Option Bytes}
    (h : rejectPendingOffer s who rejectOffer = .ok s') :
    s'.registrar.reservedList = s.registrar.reservedList := by
  obtain ⟨gifts, infos, heq⟩ := rejectPendingOffer_frame h
  exact (congrArg (·.registrar.reservedList) heq :)

/-- The `reject_offer` phase gives no token away. -/
theorem rejectPendingOffer_shrinks {rejectOffer : Option Bytes}
    (h : rejectPendingOffer s who rejectOffer = .ok s') : Shrinks s.nft s'.nft := by
  cases rejectPendingOffer_eq_ok h with
  | none heq => exact .of_eq (by rw [heq])
  | gift _ _ _ hburn => exact (doBurn_shrinks hburn :)
  | offer _ _ _ _ _ hrevoke => exact revokeSubname_shrinks hrevoke

/-- `register`: the `reject_offer` phase, then the registration. -/
theorem register_eq_ok {name : Bytes} {owner : MultiAddress}
    {rejectOffer : Option Bytes} (h : register s o name owner rejectOffer = .ok s') :
    ∃ who dest s₁, o = .signed who ∧ owner = .id dest ∧
      rejectPendingOffer s who rejectOffer = .ok s₁ ∧ registerName s₁ who name dest = .ok s' := by
  unfold register at h
  simp only [bind_eq_ok] at h
  obtain ⟨who, hwho, dest, hdest, s₁, hreject, hregister⟩ := h
  exact ⟨who, dest, s₁, ensureSigned_eq_ok hwho, lookup_eq_ok hdest, hreject, hregister⟩

/-- `renew`: the caller's primary name, up to the end of its grace period, for a full fee. -/
theorem renew_eq_ok (h : renew s o = .ok s') :
    ∃ who n info fee balances expire, o = .signed who ∧
      s.registrar.ownerToPrimaryName.get who = some n ∧
      s.registrar.registrarInfos.get n = some info ∧ s.now ≤ graceEnd T info ∧
      PriceOracle.registrationFee s.priceOracle info.labelLen.toNat = some fee ∧
      burnFee s who fee = .ok { s with balances := balances } ∧
      Moment.checkedAdd s.now T.maxRegistrationDuration = some expire ∧
      s' = { s with
        balances := balances
        registrar.registrarInfos :=
          s.registrar.registrarInfos.insert n { info with expire := expire } } := by
  unfold renew canonicalNameOf at h
  simp only [bind_eq_ok, okOr_eq_ok, ensure_eq_ok, pure_eq_ok] at h
  obtain ⟨who, hwho, -, -, n, hn, info, hinfo, -, hle, fee, hfee, s₁, hburn, expire, hexpire,
    rfl⟩ := h
  obtain ⟨balances, rfl⟩ := burnFee_eq hburn
  exact ⟨who, n, info, fee, balances, expire, ensureSigned_eq_ok hwho, hn, hinfo, hle, hfee, hburn,
    hexpire, rfl⟩

/-! ## Handing over and burning -/

/-- `burn`: of the caller's own name, by its text. -/
theorem burn_eq_ok {name : Bytes} (h : Registry.burn s o name = .ok s') :
    ∃ who n, o = .signed who ∧ parseNameToNode T.keccak256 name T.baseNode = some n ∧
      doBurn s who n = .ok s' := by
  unfold Registry.burn Registry.nameToNode at h
  simp only [bind_eq_ok, okOr_eq_ok] at h
  obtain ⟨who, hwho, n, hn, hburn⟩ := h
  exact ⟨who, n, ensureSigned_eq_ok hwho, hn, hburn⟩

/-- `release_name`: the pointer goes first, then the name. -/
theorem releaseName_eq_ok (h : releaseName s o = .ok s') :
    ∃ who n, o = .signed who ∧ s.registrar.ownerToPrimaryName.get who = some n ∧
      doBurn { s with
        registrar.ownerToPrimaryName := s.registrar.ownerToPrimaryName.remove who } who n
        = .ok s' := by
  unfold releaseName canonicalNameOf at h
  simp only [bind_eq_ok, okOr_eq_ok] at h
  obtain ⟨who, hwho, n, hn, hburn⟩ := h
  exact ⟨who, n, ensureSigned_eq_ok hwho, hn, hburn⟩

/-- `transfer`: of the caller's primary name, within its grace period, to an account that may
take one. -/
theorem registrarTransfer_eq_ok {address : MultiAddress}
    (h : Registrar.transfer s o address = .ok s') :
    ∃ (who dest : AccountId) (n : DomainHash) (primary : StorageMap AccountId DomainHash)
      (s₁ : State T),
      o = .signed who ∧ address = .id dest ∧
      s.registrar.ownerToPrimaryName.get who = some n ∧
      (∀ info ∈ s.registrar.registrarInfos.get n, graceEnd T info > s.now) ∧
      Unnamed s dest ∧
      (∀ z, primary.get z = if z = dest then none else s.registrar.ownerToPrimaryName.get z) ∧
      doTransfer { s with registrar.ownerToPrimaryName := primary } who dest n = .ok s₁ ∧
      s' = { s₁ with
        registrar.ownerToPrimaryName :=
          (s₁.registrar.ownerToPrimaryName.remove who).insert dest n } := by
  unfold Registrar.transfer canonicalNameOf at h
  simp only [bind_eq_ok, okOr_eq_ok, ensure_eq_ok, pure_eq_ok] at h
  obtain ⟨who, hwho, dest, hdest, -, -, n, hn, -, hterm, s₀, hs₀, -, hsub, s₁, hmove, rfl⟩ := h
  obtain ⟨hstale, primary, hprimary, rfl⟩ := dropStaleCanonicalName_eq hs₀
  exact ⟨who, dest, n, primary, s₁, ensureSigned_eq_ok hwho, lookup_eq_ok hdest, hn, hterm,
    ⟨hstale, hasActiveSubname_eq_false.mp hsub⟩, hprimary, hmove, rfl⟩

/-! ## Subnames -/

/-- `offer_subdomain`: below the caller's primary name, in its term. -/
theorem offerSubdomain_eq_ok {label : Bytes} {target : MultiAddress}
    (h : offerSubdomain s o label target = .ok s') :
    ∃ who dest p info c stored, o = .signed who ∧ target = .id dest ∧
      s.registrar.ownerToPrimaryName.get who = some p ∧
      s.registrar.registrarInfos.get p = some info ∧ s.now < info.expire ∧
      childNode T p label = .ok c ∧ BoundedVec.tryFrom 63 label = some stored ∧
      offerSubname s p c stored dest info.capacity = .ok s' := by
  unfold offerSubdomain canonicalNameOf at h
  simp only [bind_eq_ok, okOr_eq_ok, ensure_eq_ok] at h
  obtain ⟨who, hwho, dest, hdest, -, -, p, hp, info, hinfo, -, hterm, c, hchild, stored, hstored,
    hoffer⟩ := h
  exact ⟨who, dest, p, info, c, stored, ensureSigned_eq_ok hwho, lookup_eq_ok hdest, hp, hinfo,
    hterm, hchild, hstored, hoffer⟩

/-- `accept_subdomain`: while the name above is in its term; the subname is anchored at the
caller. -/
theorem acceptSubdomain_eq_ok {parent label : Bytes}
    (h : acceptSubdomain s o parent label = .ok s') :
    ∃ who p c info s₁ q v, o = .signed who ∧ topLevelNode T parent = .ok p ∧
      childNode T p label = .ok c ∧ s.registrar.registrarInfos.get p = some info ∧
      s.now < info.expire ∧ acceptSubnameOffer s c who = .ok (s₁, q) ∧
      Resolvers.setSs58Record s₁.resolvers c who = .ok v ∧ s' = { s₁ with resolvers := v } := by
  unfold acceptSubdomain at h
  simp only [bind_eq_ok, okOr_eq_ok, ensure_eq_ok, pure_eq_ok] at h
  obtain ⟨who, hwho, p, hp, c, hchild, info, hinfo, -, hterm, ⟨s₁, q⟩, haccept, v, hv, rfl⟩ := h
  exact ⟨who, p, c, info, s₁, q, v, ensureSigned_eq_ok hwho, hp, hchild, hinfo, hterm, haccept, hv,
    rfl⟩

/-- `reject_subdomain`. -/
theorem rejectSubdomain_eq_ok {parent label : Bytes}
    (h : rejectSubdomain s o parent label = .ok s') :
    ∃ who p c, o = .signed who ∧ topLevelNode T parent = .ok p ∧ childNode T p label = .ok c ∧
      rejectSubnameOffer s c who = .ok s' := by
  unfold rejectSubdomain at h
  simp only [bind_eq_ok] at h
  obtain ⟨who, hwho, p, hp, c, hchild, hreject⟩ := h
  exact ⟨who, p, c, ensureSigned_eq_ok hwho, hp, hchild, hreject⟩

/-- `revoke_subdomain`: below the caller's primary name. -/
theorem revokeSubdomain_eq_ok {label : Bytes} (h : revokeSubdomain s o label = .ok s') :
    ∃ who p c, o = .signed who ∧ s.registrar.ownerToPrimaryName.get who = some p ∧
      childNode T p label = .ok c ∧ revokeSubname s p c = .ok s' := by
  unfold revokeSubdomain canonicalNameOf at h
  simp only [bind_eq_ok, okOr_eq_ok] at h
  obtain ⟨who, hwho, p, hp, c, hchild, hrevoke⟩ := h
  exact ⟨who, p, c, ensureSigned_eq_ok hwho, hp, hchild, hrevoke⟩

/-- `release_subdomain`. -/
theorem releaseSubdomain_eq_ok {parent label : Bytes}
    (h : releaseSubdomain s o parent label = .ok s') :
    ∃ who p c q, o = .signed who ∧ topLevelNode T parent = .ok p ∧ childNode T p label = .ok c ∧
      releaseSubname s c who = .ok (s', q) := by
  unfold releaseSubdomain at h
  simp only [bind_eq_ok, pure_eq_ok] at h
  obtain ⟨who, hwho, p, hp, c, hchild, ⟨s₁, q⟩, hrelease, rfl⟩ := h
  exact ⟨who, p, c, q, ensureSigned_eq_ok hwho, hp, hchild, hrelease⟩

/-! ## Gifts and sales -/

/-- `accept_offered_name`: by the recipient, in the term of the name, if it may take one. -/
theorem acceptOfferedName_eq_ok {name : Bytes} (h : acceptOfferedName s o name = .ok s') :
    ∃ (who : AccountId) (n : DomainHash) (offer : OfferedNameRecord) (info : RegistrarInfo)
      (primary : StorageMap AccountId DomainHash) (v₁ v₂ : ResolversStorage T),
      o = .signed who ∧ topLevelNode T name = .ok n ∧
      s.registrar.offeredNames.get n = some offer ∧ offer.recipient = who ∧
      s.registrar.registrarInfos.get n = some info ∧ s.now < info.expire ∧ Unnamed s who ∧
      (∀ z, primary.get z = if z = who then none else s.registrar.ownerToPrimaryName.get z) ∧
      Resolvers.setSs58Record s.resolvers n who = .ok v₁ ∧
      Resolvers.setOriginRecord v₁ n s.parentHash = .ok v₂ ∧
      s' = { s with
        registrar.offeredNames := s.registrar.offeredNames.remove n
        registrar.ownerToPrimaryName := primary.insert who n
        resolvers := v₂ } := by
  unfold acceptOfferedName at h
  simp only [bind_eq_ok, okOr_eq_ok, ensure_eq_ok, pure_eq_ok] at h
  obtain ⟨who, hwho, n, hn, offer, hoffer, -, hrecipient, info, hinfo, -, hterm, s₁, hs₁, -, hsub,
    v₁, hv₁, v₂, hv₂, rfl⟩ := h
  obtain ⟨hstale, primary, hprimary, rfl⟩ := dropStaleCanonicalName_eq hs₁
  exact ⟨who, n, offer, info, primary, v₁, v₂, ensureSigned_eq_ok hwho, hn, hoffer, hrecipient,
    hinfo, hterm, ⟨hstale, hasActiveSubname_eq_false.mp hsub⟩, hprimary, hv₁, hv₂, rfl⟩

/-- The seller's pointer goes if it is to the sold name. -/
theorem dropPointerTo_eq (s : State T) (a : AccountId) (n : DomainHash) :
    ∃ primary : StorageMap AccountId DomainHash,
      dropPointerTo s a n = { s with registrar.ownerToPrimaryName := primary } ∧
      ∀ z, primary.get z =
        if z = a ∧ s.registrar.ownerToPrimaryName.get z = some n then none
        else s.registrar.ownerToPrimaryName.get z := by
  by_cases hptr : s.registrar.ownerToPrimaryName.get a = some n
  · refine ⟨s.registrar.ownerToPrimaryName.remove a, if_pos hptr, fun z => ?_⟩
    rw [StorageMap.get_remove]
    grind
  · refine ⟨s.registrar.ownerToPrimaryName, if_neg hptr, fun z => ?_⟩
    grind

/-- `transfer_name`, by which a name is sold to its buyer. -/
theorem transferName_eq_ok (h : transferName s a b n = .ok s') :
    ∃ (primary primary' : StorageMap AccountId DomainHash) (s₁ : State T),
      Unnamed s b ∧
      (∀ z, primary.get z = if z = b then none else s.registrar.ownerToPrimaryName.get z) ∧
      doTransfer { s with registrar.ownerToPrimaryName := primary } a b n = .ok s₁ ∧
      (∀ z, primary'.get z =
        if z = a ∧ s₁.registrar.ownerToPrimaryName.get z = some n then none
        else s₁.registrar.ownerToPrimaryName.get z) ∧
      s' = { s₁ with registrar.ownerToPrimaryName := primary'.insert b n } := by
  unfold transferName at h
  simp only [bind_eq_ok, ensure_eq_ok, pure_eq_ok] at h
  obtain ⟨s₀, hs₀, -, hsub, s₁, hmove, rfl⟩ := h
  obtain ⟨hstale, primary, hprimary, rfl⟩ := dropStaleCanonicalName_eq hs₀
  obtain ⟨primary', heq, hprimary'⟩ := dropPointerTo_eq s₁ a n
  refine ⟨primary, primary', s₁, ⟨hstale, hasActiveSubname_eq_false.mp hsub⟩, hprimary, hmove,
    hprimary', ?_⟩
  rw [heq]

/-- `offer_bought_name`, by which a name is sold as a gift. -/
theorem offerBoughtName_eq_ok {buyer : AccountId}
    (h : offerBoughtName s a buyer b n = .ok s') :
    ∃ (primary : StorageMap AccountId DomainHash) (s₁ : State T),
      s.registrar.offeredNames.containsKey n = false ∧ Unnamed s b ∧
      doTransfer s a b n = .ok s₁ ∧
      (∀ z, primary.get z =
        if z = a ∧ s₁.registrar.ownerToPrimaryName.get z = some n then none
        else s₁.registrar.ownerToPrimaryName.get z) ∧
      s' = { s₁ with
        registrar.ownerToPrimaryName := primary
        registrar.offeredNames :=
          s₁.registrar.offeredNames.insert n { buyer := buyer, recipient := b } } := by
  unfold offerBoughtName at h
  simp only [bind_eq_ok, ensure_eq_ok, pure_eq_ok] at h
  obtain ⟨-, hnone, -, hvalid, -, hsub, s₁, hmove, rfl⟩ := h
  obtain ⟨primary, heq, hprimary⟩ := dropPointerTo_eq s₁ a n
  refine ⟨primary, s₁, hnone, ⟨hasValidCanonicalName_eq_false.mp hvalid,
    hasActiveSubname_eq_false.mp hsub⟩, hmove, hprimary, ?_⟩
  rw [heq]

/-- What a sale does to the balances: the full price goes from the buyer to the seller, from
whom the protocol fee is then burned (lib.rs:206–224). -/
def Settled (T : Config) (before : T.Ledger) (buyer : AccountId) (listing : Listing)
    (after : T.Ledger) : Prop :=
  ∃ paid withdrawn,
    T.currency.transfer before buyer listing.seller listing.price .keepAlive = .ok paid ∧
    T.currency.withdraw paid listing.seller (Marketplace.protocolFee T listing.price) .keepAlive
      = .ok withdrawn ∧
    after = T.currency.dropImbalance withdrawn.1 withdrawn.2

theorem settlePayment_eq {buyer : AccountId} {listing : Listing}
    (h : Marketplace.settlePayment s buyer listing = .ok s') :
    ∃ balances, Settled T s.balances buyer listing balances ∧
      s' = { s with balances := balances } := by
  unfold Marketplace.settlePayment burnFee at h
  simp only [bind_eq_ok, ofCurrency_eq_ok, pure_eq_ok] at h
  obtain ⟨paid, hpaid, withdrawn, hfee, rfl⟩ := h
  exact ⟨_, ⟨paid, withdrawn, hpaid, hfee, rfl⟩, rfl⟩

/-- `buy_name`: an open listing of the owner, by somebody else, paid and then delivered. -/
theorem buyName_eq_ok {name : Bytes} {recipient : Option AccountId}
    (h : Marketplace.buyName s o name recipient = .ok s') :
    ∃ (buyer : AccountId) (n : DomainHash) (listing : Listing) (balances : T.Ledger),
      o = .signed buyer ∧ Marketplace.listedNode T name = .ok n ∧
      s.listings.get n = some listing ∧ buyer ≠ listing.seller ∧ listing.expiresAt > s.now ∧
      some listing.seller = Registry.ownerOf s n ∧
      Settled T s.balances buyer listing balances ∧
      Marketplace.deliver { s with balances := balances, listings := s.listings.remove n } buyer
        listing n recipient = .ok s' := by
  unfold Marketplace.buyName at h
  simp only [bind_eq_ok, okOr_eq_ok, ensure_eq_ok] at h
  obtain ⟨buyer, hbuyer, n, hn, listing, hlisting, -, hne, -, hexpires, -, hown, s₁, hpay, h⟩ := h
  obtain ⟨balances, hsettled, rfl⟩ := settlePayment_eq hpay
  exact ⟨buyer, n, listing, balances, ensureSigned_eq_ok hbuyer, hn, hlisting, hne, hexpires, hown,
    hsettled, h⟩

/-- A bought name goes to the recipient as a gift, or to the buyer. -/
theorem deliver_cases {buyer : AccountId} {listing : Listing} {recipient : Option AccountId}
    (h : Marketplace.deliver s buyer listing n recipient = .ok s') :
    (∃ recip, recipient = some recip ∧
      offerBoughtName s listing.seller buyer recip n = .ok s') ∨
    (recipient = none ∧ ∃ s₁ v₁ v₂, transferName s listing.seller buyer n = .ok s₁ ∧
      Resolvers.setSs58Record (Resolvers.clearRecordsExceptSs58 s₁.resolvers n) n buyer = .ok v₁ ∧
      Resolvers.setOriginRecord v₁ n s₁.parentHash = .ok v₂ ∧
      s' = { s₁ with resolvers := v₂ }) := by
  cases recipient with
  | some recip =>
    simp only [Marketplace.deliver, bind_eq_ok] at h
    obtain ⟨-, -, -, -, hoffer⟩ := h
    exact Or.inl ⟨recip, rfl, hoffer⟩
  | none =>
    simp only [Marketplace.deliver, bind_eq_ok, pure_eq_ok] at h
    obtain ⟨s₁, htransfer, v₁, hv₁, v₂, hv₂, rfl⟩ := h
    exact Or.inr ⟨rfl, s₁, v₁, v₂, htransfer, hv₁, hv₂, rfl⟩

/-- `create_listing`: of the caller's primary name, unless it is listed already. -/
theorem createListing_eq_ok {price : Balance} {expiresAt : Moment}
    (h : Marketplace.createListing s o price expiresAt = .ok s') :
    ∃ who n, o = .signed who ∧ expiresAt > s.now ∧
      s.registrar.ownerToPrimaryName.get who = some n ∧ s.listings.containsKey n = false ∧
      s' = { s with
        listings := s.listings.insert n
          { seller := who, price := price, expiresAt := expiresAt } } := by
  unfold Marketplace.createListing Marketplace.canonicalNameOf at h
  simp only [bind_eq_ok, okOr_eq_ok, ensure_eq_ok, pure_eq_ok] at h
  obtain ⟨who, hwho, -, hopen, n, hn, -, hfree, rfl⟩ := h
  exact ⟨who, n, ensureSigned_eq_ok hwho, hopen, hn, hfree, rfl⟩

/-- `cancel_listing`: of the caller's primary name, whoever listed it. -/
theorem cancelListing_eq_ok (h : Marketplace.cancelListing s o = .ok s') :
    ∃ who n, o = .signed who ∧ s.registrar.ownerToPrimaryName.get who = some n ∧
      s.listings.containsKey n = true ∧ s' = { s with listings := s.listings.remove n } := by
  unfold Marketplace.cancelListing Marketplace.canonicalNameOf at h
  simp only [bind_eq_ok, okOr_eq_ok, ensure_eq_ok, pure_eq_ok] at h
  obtain ⟨who, hwho, n, hn, -, hlisted, rfl⟩ := h
  exact ⟨who, n, ensureSigned_eq_ok hwho, hn, hlisted, rfl⟩

/-! ## Records, reserved names, the official account and prices -/

/-- `set_record`: never one of the two kinds the chain writes itself. -/
theorem setRecord_eq_ok {name : Bytes} {recordType : RecordType} {content : Content T}
    (h : Resolvers.setRecord checkNodeUseable s o name recordType content = .ok s') :
    ∃ who n, o = .signed who ∧ recordType ≠ .SS58 ∧ recordType ≠ .ORIGIN ∧
      parseNameToNode T.keccak256 name T.baseNode = some n ∧ checkNodeUseable s n who = true ∧
      s' = { s with resolvers.records := s.resolvers.records.insert (n, recordType) content } := by
  unfold Resolvers.setRecord Resolvers.nameToNode at h
  simp only [bind_eq_ok, okOr_eq_ok, ensure_eq_ok, pure_eq_ok] at h
  obtain ⟨who, hwho, -, ⟨hss58, horigin⟩, n, hn, -, huse, rfl⟩ := h
  exact ⟨who, n, ensureSigned_eq_ok hwho, hss58, horigin, hn, huse, rfl⟩

/-- `set_text`. -/
theorem setText_eq_ok {name : Bytes} {kind : TextKind} {content : Content T}
    (h : Resolvers.setText checkNodeUseable s o name kind content = .ok s') :
    ∃ who n, o = .signed who ∧ parseNameToNode T.keccak256 name T.baseNode = some n ∧
      checkNodeUseable s n who = true ∧
      s' = { s with resolvers.texts := s.resolvers.texts.insert (n, kind) content } := by
  unfold Resolvers.setText Resolvers.nameToNode at h
  simp only [bind_eq_ok, okOr_eq_ok, ensure_eq_ok, pure_eq_ok] at h
  obtain ⟨who, hwho, n, hn, -, huse, rfl⟩ := h
  exact ⟨who, n, ensureSigned_eq_ok hwho, hn, huse, rfl⟩

/-- `add_reserved`. -/
theorem addReserved_eq_ok {name : Bytes} (h : addReserved s o name = .ok s') :
    ∃ n, topLevelNode T name = .ok n ∧
      s' = { s with registrar.reservedList := s.registrar.reservedList.insert n () } := by
  unfold addReserved at h
  simp only [bind_eq_ok, pure_eq_ok] at h
  obtain ⟨-, -, n, hn, rfl⟩ := h
  exact ⟨n, hn, rfl⟩

/-- `remove_reserved`. -/
theorem removeReserved_eq_ok {name : Bytes} (h : removeReserved s o name = .ok s') :
    ∃ n, topLevelNode T name = .ok n ∧
      s' = { s with registrar.reservedList := s.registrar.reservedList.remove n } := by
  unfold removeReserved at h
  simp only [bind_eq_ok, pure_eq_ok] at h
  obtain ⟨-, -, n, hn, rfl⟩ := h
  exact ⟨n, hn, rfl⟩

/-- `set_official`: the base node and class 0 change hands. -/
theorem setOfficial_eq_ok (h : setOfficial s o b = .ok s') :
    ∃ nft, s' = { s with
      registry.official := some b
      nft := setClassOwner nft b } := by
  unfold setOfficial at h
  simp only [bind_eq_ok, pure_eq_ok] at h
  obtain ⟨-, -, nft, -, rfl⟩ := h
  exact ⟨nft, rfl⟩

/-- `set_exchange_rate`. -/
theorem setExchangeRate_eq_ok {rate : Balance}
    (h : PriceOracle.setExchangeRate s o rate = .ok s') :
    ∃ manager, ensureManager o = .ok manager ∧
      s' = { s with priceOracle.exchangeRate := rate } := by
  unfold PriceOracle.setExchangeRate at h
  simp only [bind_eq_ok, pure_eq_ok] at h
  obtain ⟨manager, hmanager, rfl⟩ := h
  exact ⟨manager, hmanager, rfl⟩

/-- `set_base_price`. -/
theorem setBasePrice_eq_ok {prices : Vector Balance 11}
    (h : PriceOracle.setBasePrice s o prices = .ok s') :
    s' = { s with priceOracle.basePrice := prices } := by
  unfold PriceOracle.setBasePrice at h
  simp only [bind_eq_ok, pure_eq_ok] at h
  obtain ⟨-, -, rfl⟩ := h
  rfl

/-- `set_rent_price`. -/
theorem setRentPrice_eq_ok {prices : Vector Balance 11}
    (h : PriceOracle.setRentPrice s o prices = .ok s') :
    s' = { s with priceOracle.rentPrice := prices } := by
  unfold PriceOracle.setRentPrice at h
  simp only [bind_eq_ok, pure_eq_ok] at h
  obtain ⟨-, -, rfl⟩ := h
  rfl

end PnsPallets
