import PnsPallets.Properties.FormerHolder
import PnsPallets.Properties.Payments
import PnsPallets.Properties.ResolverData
import PnsPallets.RollView
import PnsPallets.RuntimeApi

/-!
# What clients see

The runtime API reads other tables than the calls write to or check. Four results
compare the two sides:

- `registered_resolves_iff`: `get_info` and `resolve_name` of a name right after its
  registration. `OfferedNames` is not cleared when a gift is burned or lapses, so the
  record is there exactly if no gift of the name was left behind;
- `record_writers`: who may write records. The check reads tokens, and subnames have
  none: their holders may not;
- `advertised_purchasable_iff`: `get_listing` reads `Listings` alone, a purchase also
  asks for the time, the owner and the term;
- `dashboard_exact_iff`: the indices behind `account_dashboard`. The offers are exact;
  `AccountToSubnames` also lists names that were registered.
-/

namespace PnsPallets

open Frame Registry Registrar

variable {T : Config} {L : Set Bytes} {s s' : State T} {a b who : AccountId} {n : DomainHash}
  {name : Bytes}

/-! ## Register, then resolve -/

theorem ownerOf_eq_some {nft : NftStorage T} :
    nft.ownerOf n = some a ↔ ∃ token, nft.tokens.get (classZero, n) = some token ∧
      token.owner = a := Option.map_eq_some_iff

/-- The record of a name in its term is there unless a gift of it is pending. -/
theorem nameRecord_iff {info : RegistrarInfo} (hown : s.nft.ownerOf n = some a)
    (hinfo : s.registrar.registrarInfos.get n = some info) (hterm : s.now < info.expire) :
    (∃ record, nameRecord s n = some record ∧ record.owner = a ∧ record.expire = info.expire ∧
        record.registerFee = info.registerFee) ↔
      s.registrar.offeredNames.get n = none := by
  obtain ⟨token, htoken, rfl⟩ := ownerOf_eq_some.mp hown
  unfold nameRecord
  cases hoffer : s.registrar.offeredNames.get n with
  | some offer => simp [hoffer]
  | none => simp [hoffer, hinfo, htoken, UInt64.not_le.mpr hterm]

theorem resolveName_eq (hn : topLevelNode T name = .ok n) :
    resolveName s name = nameRecord s n := by
  obtain ⟨label, hlabel, rfl⟩ := topLevelNode_eq_ok.mp hn
  simp [resolveName, hlabel]

theorem topLevelNode_congr {name' : Bytes}
    (h : toAsciiLowercase name' = toAsciiLowercase name) :
    topLevelNode T name' = topLevelNode T name := by
  unfold topLevelNode
  rw [newWithLen_congr h]

theorem parseNameToNode_of_topLevelNode (hn : topLevelNode T name = .ok n) :
    parseNameToNode T.keccak256 name T.baseNode = some n := by
  obtain ⟨label, hlabel, rfl⟩ := topLevelNode_eq_ok.mp hn
  exact parseNameToNode_of_newWithLen hlabel

/-- A lookup returns the anchor of the node, whatever else is asked for. -/
theorem anchor_mem_lookup (hanchor : Resolvers.anchorOf s.resolvers n = some a.encode)
    (types : List RecordType) :
    (.SS58, a.encode) ∈ Resolvers.lookup s.resolvers n types := by
  have hcontent : Resolvers.contentOf s.resolvers n .SS58 = a.encode := by
    unfold Resolvers.contentOf
    rw [show (s.resolvers.records.get (n, .SS58)).map Subtype.val = some a.encode from hanchor]
    rfl
  refine Resolvers.mem_lookup.mpr ⟨⟨hcontent.symm, ?_⟩, Or.inl rfl⟩
  exact List.ne_nil_of_length_pos (a.length_eq.symm ▸ (by decide : 0 < 32))

/-- The record has this owner, end and fee. -/
def Shows (record : Option NameRecord) (owner : AccountId) (expire : ℕ) (fee : Balance) : Prop :=
  ∃ r, record = some r ∧ r.owner = owner ∧ r.expire.toNat = expire ∧ r.registerFee = fee

/-- After a registration the name, in any case of its letters, is looked up at its owner. Its
record shows the owner, the full term and the fee that was charged exactly if no gift
of the name had been left behind, or it was the one the call rejected. -/
theorem registered_resolves_iff (hcf : CollisionFree T.keccak256 T.baseNode L)
    (hduration : 0 < T.maxRegistrationDuration) (h : Reachable T L s) {caller owner : AccountId}
    {rejectOffer : Option Bytes}
    (hL : ∀ l ∈ (Call.register name (.id owner) rejectOffer : Call T).labels, l ∈ L)
    (hok : dispatch s (.signed caller) (.register name (.id owner) rejectOffer) = .ok s') :
    ∃ n fee, topLevelNode T name = .ok n ∧ Charged s caller fee s' ∧
      (Shows (getInfo s' n) owner (s.now.toNat + T.maxRegistrationDuration.toNat) fee ↔
        s.registrar.offeredNames.get n = none ∨ rejectedGift s rejectOffer = some n) ∧
      ∀ name', toAsciiLowercase name' = toAsciiLowercase name →
        resolveName s' name' = getInfo s' n ∧
        (.SS58, owner.encode) ∈ lookupByName s' name' [] := by
  obtain ⟨who, dest, s₁, n, fee, expire, hwho, hdest, hc₁, hrej, hreg⟩ :=
    register_registration hcf (h.consistent hcf) (hL _ List.mem_cons_self) hok
  obtain rfl : caller = who := Origin.signed.inj hwho
  obtain rfl : owner = dest := MultiAddress.id.inj hdest
  obtain ⟨who', fee', hwho', hfee', hcharged⟩ := register_charged hok
  obtain rfl : caller = who' := Origin.signed.inj hwho'
  have hprice := hreg.price
  rw [hrej.priceOracle, hfee'] at hprice
  obtain rfl : fee' = fee := Option.some.inj hprice
  have hexpire : expire.toNat = s.now.toNat + T.maxRegistrationDuration.toNat := by
    rw [Moment.checkedAdd_eq_some hreg.term, hrej.now]
  have hinfo : s'.registrar.registrarInfos.get n = some (enrolment T s₁.blockNumber fee' expire
      name.length (s₁.registrar.registrarInfos.get n)) := by
    rw [hreg.registrarInfos, StorageMap.get_insert, if_pos rfl]
  have hterm : s'.now < expire := by
    rw [hreg.now, hrej.now, UInt64.lt_iff_toNat_lt, hexpire]
    exact Nat.lt_add_of_pos_right (UInt64.lt_iff_toNat_lt.mp hduration)
  have hrecord := nameRecord_iff hreg.ownerOf hinfo (by rwa [enrolment_expire])
  -- a pending gift of the name survives the call unless it is the one that is rejected
  have hoffer : s'.registrar.offeredNames.get n = none ↔
      s.registrar.offeredNames.get n = none ∨ rejectedGift s rejectOffer = some n := by
    rw [hreg.offeredNames, hrej.offeredNames]
    split
    · next hgift => simp [hgift]
    · next hgift => simp [hgift]
  refine ⟨n, fee', hreg.node, hcharged, ?_, fun name' hname' => ?_⟩
  · rw [← hoffer, ← hrecord, enrolment_expire, enrolment_registerFee, ← hexpire]
    simp only [Shows, getInfo, UInt64.toNat_inj]
  · have hnode : topLevelNode T name' = .ok n := (topLevelNode_congr hname').trans hreg.node
    refine ⟨resolveName_eq hnode, ?_⟩
    unfold lookupByName
    rw [parseNameToNode_of_topLevelNode hnode]
    exact anchor_mem_lookup hreg.anchorOf []

open Devnet in
/-- Account 1 registers `alice`, which has not been a gift before. -/
theorem registered_resolves_alice :
    ∃ s' n fee, dispatch start (.signed (account 1)) (.register alice (.id (account 1)) none)
        = .ok s' ∧
      Shows (getInfo s' n) (account 1) config.maxRegistrationDuration.toNat fee := by
  obtain ⟨s', hok⟩ : ∃ s', dispatch start (.signed (account 1))
      (.register alice (.id (account 1)) none) = .ok s' := ⟨_, eq_ok_get (by decide +kernel)⟩
  obtain ⟨n, fee, -, -, hshows, -⟩ := registered_resolves_iff (T := config) collisionFree
    (by decide) (.init start_init) (by decide +kernel) hok
  have hnow : start.now.toNat = 0 := by decide +kernel
  rw [hnow, Nat.zero_add] at hshows
  exact ⟨s', n, fee, hok, hshows.mpr (Or.inl (StorageMap.get_empty n))⟩

open Devnet in
/-- Account 3 burns the gift `alice`, and account 4 registers it: it does not resolve. -/
theorem burned_gift_hides_registration :
    CollisionFree config.keccak256 config.baseNode labels ∧
      Reachable config labels (after discardedGiftInputs) ∧
      (dispatch (after discardedGiftInputs) (.signed (account 4))
        (.register alice (.id (account 4)) none)).isOk = true ∧
      (getInfo (commit (after discardedGiftInputs) (dispatch (after discardedGiftInputs)
        (.signed (account 4)) (.register alice (.id (account 4)) none))) (node alice)).isNone
        = true ∧
      (resolveName (commit (after discardedGiftInputs) (dispatch (after discardedGiftInputs)
        (.signed (account 4)) (.register alice (.id (account 4)) none))) alice).isNone = true :=
  ⟨collisionFree, reachable_after (by decide +kernel), by decide +kernel⟩

/-! ## Who may write records -/

/-- `w` owns the name `n`, in its term. -/
def HoldsName (s : State T) (w : AccountId) (n : DomainHash) : Prop :=
  s.nft.ownerOf n = some w ∧
    ∃ info, s.registrar.registrarInfos.get n = some info ∧ s.now < info.expire

/-- `w` has accepted the subname `n`, of a name in its term. -/
def HoldsSubname (s : State T) (w : AccountId) (n : DomainHash) : Prop :=
  ∃ d, s.registry.subnameRecords.get n = some d ∧ d.state = .active ∧ d.target = w ∧
    ∃ info, s.registrar.registrarInfos.get d.parent = some info ∧ s.now < info.expire

/-- On a consistent state the permission check is that of the name's owner in its term. -/
theorem checkNodeUseable_iff (hc : Consistent T L s) (hne : n ≠ T.baseNode) :
    checkNodeUseable s n who = true ↔ HoldsName s who n := by
  constructor
  · intro h
    have hown := checkNodeUseable_owner h
    obtain ⟨info, hinfo⟩ := Option.isSome_iff_exists.mp
      ((hc.hierarchy.info n).mpr ⟨hne, by rw [hown]; rfl⟩)
    unfold checkNodeUseable at h
    split at h
    · cases h
    · simp only [hinfo, isOk_iff, checkExpiresUseable, bind_eq_ok, okOr_eq_ok, ensure_eq_ok] at h
      obtain ⟨-, i, hi, hterm⟩ := h
      exact ⟨hown, i, hinfo.trans hi, hterm⟩
  · rintro ⟨hown, info, hinfo, hterm⟩
    obtain ⟨token, htoken, rfl⟩ := ownerOf_eq_some.mp hown
    have hverify : Registry.verify s token.owner n = .ok () := by
      simp only [Registry.verify, verifyWithOwner, bind_eq_ok, okOr_eq_ok, ensure_eq_ok]
      exact ⟨token, htoken, rfl⟩
    simp only [checkNodeUseable, hverify, hinfo, isOk_iff, checkExpiresUseable, bind_eq_ok,
      okOr_eq_ok, ensure_eq_ok]
    exact ⟨(), info, rfl, hterm⟩

theorem setRecord_isOk (hn : parseNameToNode T.keccak256 name T.baseNode = some n)
    {recordType : RecordType} (hss58 : recordType ≠ .SS58) (horigin : recordType ≠ .ORIGIN)
    (content : Content T) :
    (dispatch s (.signed who) (.setRecord name recordType content)).isOk = true ↔
      checkNodeUseable s n who = true := by
  simp only [isOk_iff, dispatch, Resolvers.setRecord, Resolvers.nameToNode, bind_eq_ok,
    okOr_eq_ok, ensure_eq_ok, pure_eq_ok]
  constructor
  · rintro ⟨-, w, hw, -, -, m, hm, -, huse, -⟩
    obtain rfl := Origin.signed.inj (ensureSigned_eq_ok hw)
    obtain rfl : n = m := Option.some.inj (hn.symm.trans hm)
    exact huse
  · intro huse
    exact ⟨_, who, rfl, (), ⟨hss58, horigin⟩, n, hn, (), huse, rfl⟩

theorem setText_isOk (hn : parseNameToNode T.keccak256 name T.baseNode = some n)
    (kind : TextKind) (content : Content T) :
    (dispatch s (.signed who) (.setText name kind content)).isOk = true ↔
      checkNodeUseable s n who = true := by
  simp only [isOk_iff, dispatch, Resolvers.setText, Resolvers.nameToNode, bind_eq_ok,
    okOr_eq_ok, ensure_eq_ok, pure_eq_ok]
  constructor
  · rintro ⟨-, w, hw, m, hm, -, huse, -⟩
    obtain rfl := Origin.signed.inj (ensureSigned_eq_ok hw)
    obtain rfl : n = m := Option.some.inj (hn.symm.trans hm)
    exact huse
  · intro huse
    exact ⟨_, who, rfl, n, hn, (), huse, rfl⟩

/-- A subname has no token. -/
theorem HoldsSubname.not_holdsName (hcf : CollisionFree T.keccak256 T.baseNode L)
    (hc : Consistent T L s) (hne : n ≠ T.baseNode) (h : HoldsSubname s a n) :
    ¬ HoldsName s b n := by
  rintro ⟨hown, -⟩
  obtain ⟨d, hd, -⟩ := h
  have htop := hc.hierarchy.top n (by rw [hown]; rfl) hne
  exact (hc.indexed.named n d hd).not_topLevel hcf htop

/-- `set_record`, for the kinds that are not protected, and `set_text` succeed exactly for the
owner of the name in its term. So they succeed for the holders of names and subnames
exactly as long as the caller does not hold the subname. -/
theorem record_writers (hcf : CollisionFree T.keccak256 T.baseNode L) (h : Reachable T L s)
    (hn : parseNameToNode T.keccak256 name T.baseNode = some n)
    (hL : ∀ l ∈ nameLabels name, l ∈ L) (w : AccountId) :
    (∀ recordType content, recordType ≠ .SS58 → recordType ≠ .ORIGIN →
      ((dispatch s (.signed w) (.setRecord name recordType content)).isOk = true ↔
        HoldsName s w n) ∧
      (((dispatch s (.signed w) (.setRecord name recordType content)).isOk = true ↔
        HoldsName s w n ∨ HoldsSubname s w n) ↔ ¬ HoldsSubname s w n)) ∧
    ∀ kind content,
      ((dispatch s (.signed w) (.setText name kind content)).isOk = true ↔ HoldsName s w n) ∧
      (((dispatch s (.signed w) (.setText name kind content)).isOk = true ↔
        HoldsName s w n ∨ HoldsSubname s w n) ↔ ¬ HoldsSubname s w n) := by
  have hc := h.consistent hcf
  have hne := parsed_ne_base hcf hL hn
  have huse : checkNodeUseable s n w = true ↔ HoldsName s w n := checkNodeUseable_iff hc hne
  have hsub : (HoldsName s w n ↔ HoldsName s w n ∨ HoldsSubname s w n) ↔
      ¬ HoldsSubname s w n := by
    constructor
    · intro hiff hholds
      exact hholds.not_holdsName hcf hc hne (hiff.mpr (Or.inr hholds))
    · intro hnot
      exact (or_iff_left hnot).symm
  refine ⟨fun recordType content hss58 horigin => ?_, fun kind content => ?_⟩
  · have hok := (setRecord_isOk hn hss58 horigin content).trans huse
    exact ⟨hok, by rw [hok]; exact hsub⟩
  · have hok := (setText_isOk hn kind content).trans huse
    exact ⟨hok, by rw [hok]; exact hsub⟩

open Devnet in
/-- Account 1 may write the records of `alice`. -/
theorem record_writers_alice :
    (dispatch afterDelegation (.signed (account 1))
      (.setRecord alice .TXT ⟨[1], by decide⟩)).isOk = true := by
  have hown : afterDelegation.nft.ownerOf (node alice) = some (account 1) := by decide +kernel
  have hterm : ∀ info ∈ afterDelegation.registrar.registrarInfos.get (node alice),
      afterDelegation.now < info.expire := by decide +kernel
  have hsome : (afterDelegation.registrar.registrarInfos.get (node alice)).isSome = true := by
    decide +kernel
  obtain ⟨info, hinfo⟩ := Option.isSome_iff_exists.mp hsome
  exact ((record_writers (T := config) (n := node alice) collisionFree afterDelegation_reachable
    (by decide +kernel) (by decide +kernel) (account 1)).1 _ _ (by decide) (by decide)).1.mpr
    ⟨hown, info, hinfo, hterm info hinfo⟩

open Devnet in
/-- Account 2 has accepted `bob.alice` and may write none of its records. -/
theorem subname_holder_may_not_write :
    CollisionFree config.keccak256 config.baseNode labels ∧
      Reachable config labels afterDelegation ∧
      (afterDelegation.registry.subnameRecords.get
        ((Name.sub alice bob).node keccak256 dotBasenode)).map
          (fun d => (d.state, d.target)) = some (.active, account 2) ∧
      parseNameToNode config.keccak256 (bob ++ dot :: alice) config.baseNode
        = some ((Name.sub alice bob).node keccak256 dotBasenode) ∧
      (dispatch afterDelegation (.signed (account 2))
        (.setRecord (bob ++ dot :: alice) .TXT ⟨[1], by decide⟩)).isOk = false ∧
      (dispatch afterDelegation (.signed (account 2))
        (.setText (bob ++ dot :: alice) .Email ⟨[1], by decide⟩)).isOk = false :=
  ⟨collisionFree, afterDelegation_reachable, by decide +kernel⟩

/-! ## Advertised listings -/

/-- A name goes to the buyer of a sale exactly if the seller owns it, it is renewable, and the
buyer is free to take it. -/
theorem transferName_isOk (hcf : CollisionFree T.keccak256 T.baseNode L)
    (hc : Consistent T L s) (hlen : 32 ≤ T.maxContentLen) (hown : s.nft.ownerOf n = some a) :
    (∃ s', transferName s a b n = .ok s') ↔ Renewable s n ∧ Unnamed s b := by
  constructor
  · rintro ⟨s', h⟩
    obtain ⟨primary, primary', s₁, hfree, -, hmove, -, -⟩ := transferName_eq_ok h
    obtain ⟨-, -, hterm, -⟩ := doTransfer_eq hcf (hc.setPrimary primary) hmove
    exact ⟨hterm, hfree⟩
  · rintro ⟨hterm, hfree⟩
    unfold transferName
    simp only [bind_eq_ok, ensure_eq_ok, pure_eq_ok]
    obtain ⟨s₀, hs₀⟩ := dropStaleCanonicalName_isOk.mpr
      (hasValidCanonicalName_eq_false.mpr hfree.pointer)
    obtain ⟨-, primary, -, rfl⟩ := dropStaleCanonicalName_eq hs₀
    obtain ⟨s₁, hmove⟩ := doTransfer_isOk hcf (hc.setPrimary primary) hlen hown hterm b
    exact ⟨_, _, hs₀, (), hasActiveSubname_eq_false.mpr hfree.held, s₁, hmove, rfl⟩

/-- `b` can pay the price, and the seller the fee of it. -/
def CanPay (s : State T) (b : AccountId) (l : ListingInfo) : Prop :=
  ∃ paid, T.currency.transfer s.balances b l.seller l.price .keepAlive = .ok paid ∧
    ∃ w, T.currency.withdraw paid l.seller (Marketplace.protocolFee T l.price) .keepAlive = .ok w

theorem getListing_eq_some {l : ListingInfo} (h : getListing s name = some l) :
    ∃ n listing, topLevelNode T name = .ok n ∧ Marketplace.listedNode T name = .ok n ∧
      s.listings.get n = some listing ∧ listing.seller = l.seller ∧ listing.price = l.price ∧
      listing.expiresAt = l.expiresAt := by
  unfold getListing at h
  simp only [Option.bind_eq_bind, Option.bind_eq_some_iff, Option.some.injEq] at h
  obtain ⟨label, hlabel, listing, hlisting, rfl⟩ := h
  refine ⟨_, listing, ?_, ?_, hlisting, rfl, rfl, rfl⟩
  · exact topLevelNode_eq_ok.mpr ⟨label, hlabel, rfl⟩
  · simp only [Marketplace.listedNode, bind_eq_ok, okOr_eq_ok, pure_eq_ok]
    exact ⟨label.1, label_new_of_newWithLen hlabel, rfl⟩

theorem settlePayment_isOk {listing : Listing} :
    (∃ s', Marketplace.settlePayment s b listing = .ok s') ↔
      ∃ paid, T.currency.transfer s.balances b listing.seller listing.price .keepAlive = .ok paid ∧
        ∃ w, T.currency.withdraw paid listing.seller (Marketplace.protocolFee T listing.price)
          .keepAlive = .ok w := by
  simp only [Marketplace.settlePayment, burnFee, bind_eq_ok, ofCurrency_eq_ok, pure_eq_ok]
  constructor
  · rintro ⟨-, paid, hpaid, w, hw, -⟩
    exact ⟨paid, hpaid, w, hw⟩
  · rintro ⟨paid, hpaid, w, hw⟩
    exact ⟨_, paid, hpaid, w, hw, rfl⟩

/-- What decides a purchase. -/
theorem buyName_isOk (hcf : CollisionFree T.keccak256 T.baseNode L) (hc : Consistent T L s)
    (hlen : 32 ≤ T.maxContentLen) (hn : Marketplace.listedNode T name = .ok n)
    {listing : Listing} (hlisting : s.listings.get n = some listing)
    (hne : b ≠ listing.seller) (hpay : ∃ s₁, Marketplace.settlePayment s b listing = .ok s₁) :
    (∃ s', dispatch s (.signed b) (.buyName name none) = .ok s') ↔
      listing.expiresAt > s.now ∧ s.nft.ownerOf n = some listing.seller ∧ Renewable s n ∧
        Unnamed s b := by
  simp only [dispatch, Marketplace.buyName, Marketplace.deliver, bind_eq_ok, okOr_eq_ok,
    ensure_eq_ok, pure_eq_ok]
  constructor
  · rintro ⟨s', w, hw, m, hm, l, hl, -, -, -, hopen, -, hown, s₁, hs₁, s₂, hmove, -⟩
    obtain rfl := Origin.signed.inj (ensureSigned_eq_ok hw)
    obtain rfl : n = m := Except.ok.inj (hn.symm.trans hm)
    obtain rfl : listing = l := Option.some.inj (hlisting.symm.trans hl)
    obtain ⟨balances, -, rfl⟩ := settlePayment_eq hs₁
    have hc₁ : Consistent T L { s with balances := balances, listings := s.listings.remove n } :=
      hc.congr rfl rfl rfl
    have hdeliver := (transferName_isOk hcf hc₁ hlen hown.symm).mp ⟨s₂, hmove⟩
    exact ⟨hopen, hown.symm, hdeliver.1, hdeliver.2.pointer, hdeliver.2.held⟩
  · rintro ⟨hopen, hown, hterm, hfree⟩
    obtain ⟨s₁, hs₁⟩ := hpay
    obtain ⟨balances, -, heq⟩ := settlePayment_eq hs₁
    subst heq
    have hc₁ : Consistent T L { s with balances := balances, listings := s.listings.remove n } :=
      hc.congr rfl rfl rfl
    obtain ⟨s₂, hmove⟩ := (transferName_isOk hcf hc₁ hlen hown).mpr
      ⟨hterm, hfree.pointer, hfree.held⟩
    obtain ⟨v₁, hv₁⟩ := setSs58Record_isOk hlen
      (Resolvers.clearRecordsExceptSs58 s₂.resolvers n) n b
    obtain ⟨v₂, hv₂⟩ := setOriginRecord_isOk hlen v₁ n s₂.parentHash
    exact ⟨_, b, rfl, n, hn, listing, hlisting, (), hne, (), hopen, (), hown.symm, _, hs₁, s₂,
      hmove, v₁, hv₁, v₂, hv₂, rfl⟩

/-- A purchase by an account that holds no name and can pay succeeds exactly if the listing
is open, the seller still owns the name, the name is renewable, and no registration
of the buyer is left in `AccountToSubnames`. -/
theorem advertised_purchasable_iff {keccak256 : Bytes → H256} {Ledger : Type}
    {currency : Currency Ledger} (hT : T = runtimeConfig keccak256 Ledger currency)
    (hcf : CollisionFree T.keccak256 T.baseNode L) (h : Reachable T L s) {l : ListingInfo}
    (hl : getListing s name = some l) (hne : b ≠ l.seller)
    (hpointer : ∀ m, s.registrar.ownerToPrimaryName.get b = some m → stillValid s m = false)
    (hsubs : ∀ c d, s.registry.subnameRecords.get c = some d → d.state = .active →
      d.target ≠ b)
    (hpay : CanPay s b l) :
    ∃ n, topLevelNode T name = .ok n ∧
      ((dispatch s (.signed b) (.buyName name none)).isOk = true ↔
        l.expiresAt > s.now ∧ s.nft.ownerOf n = some l.seller ∧ Renewable s n ∧
          ∀ m, TopLevel T L m → s.registry.accountToSubnames.get (b, m) = none) := by
  have hc := h.consistent hcf
  have hlen : 32 ≤ T.maxContentLen := by
    rw [hT]
    exact (by decide : 32 ≤ 1024)
  obtain ⟨n, listing, hn, hlisted, hlisting, hseller, hprice, hexpires⟩ := getListing_eq_some hl
  -- an account without a subname is listed in `AccountToSubnames` for names only
  have hfree : Unnamed s b ↔
      ∀ m, TopLevel T L m → s.registry.accountToSubnames.get (b, m) = none := by
    constructor
    · exact fun hfree m _ => hfree.held m
    · intro hnone
      refine ⟨hpointer, fun m => ?_⟩
      by_cases htop : TopLevel T L m
      · exact hnone m htop
      · exact hc.indexed.held_eq_none htop fun d hd ht hs => hsubs m d hd hs ht
  refine ⟨n, hn, ?_⟩
  rw [← hseller] at hne ⊢
  rw [isOk_iff, buyName_isOk hcf hc hlen hlisted hlisting hne ?_, hexpires, hfree]
  rw [settlePayment_isOk, hseller, hprice]
  exact hpay

/-- Account 1 has put `alice` up for sale until 1000000, and it is `now`. -/
def Devnet.listingInputs (now : Moment) : List (Input Devnet.config) :=
  [ .extrinsic (.signed (account 1)) (.register alice (.id (account 1)) none),
    .extrinsic (.signed (account 1)) (.createListing 5000 1000000),
    .newBlock now 1 (digest 1) balances ]

open Devnet in
/-- Account 2 can buy `alice` while the listing is open. -/
theorem advertised_purchasable_alice :
    (dispatch (after (listingInputs 6000)) (.signed (account 2)) (.buyName alice none)).isOk
      = true := by
  have hsome : (getListing (after (listingInputs 6000)) alice).isSome = true := by decide +kernel
  have hterms : ∀ l ∈ getListing (after (listingInputs 6000)) alice,
      l.seller = account 1 ∧ l.price = 5000 ∧ l.expiresAt = 1000000 := by decide +kernel
  obtain ⟨l, hl⟩ := Option.isSome_iff_exists.mp hsome
  obtain ⟨hseller, hprice, hexpires⟩ := hterms l hl
  obtain ⟨hvalid, hheld, hnone, hpaid⟩ :
      hasValidCanonicalName (after (listingInputs 6000)) (account 2) = false ∧
      hasActiveSubname (after (listingInputs 6000)) (account 2) = false ∧
      (after (listingInputs 6000)).registry.subnameRecords.count (fun _ _ => true) = 0 ∧
      (Marketplace.settlePayment (after (listingInputs 6000)) (account 2)
        { seller := account 1, price := 5000, expiresAt := 1000000 }).isOk = true := by
    decide +kernel
  have hpay : CanPay (after (listingInputs 6000)) (account 2) l := by
    rw [CanPay, hseller, hprice]
    exact settlePayment_isOk.mp (isOk_iff.mp hpaid)
  have hne : account 2 ≠ account 1 := by decide
  have hreach : Reachable config labels (after (listingInputs 6000)) :=
    reachable_after (by decide +kernel)
  obtain ⟨n, hn, hiff⟩ := advertised_purchasable_iff (T := config) rfl collisionFree hreach hl
    (hseller ▸ hne)
    (hasValidCanonicalName_eq_false.mp hvalid)
    (fun c d hd _ => absurd (StorageMap.count_pos hd rfl) (by rw [hnone]; decide)) hpay
  have hnode : topLevelNode config alice = .ok (node alice) := by decide +kernel
  obtain rfl : node alice = n := Except.ok.inj (hnode.symm.trans hn)
  have hinfo : ((after (listingInputs 6000)).registrar.registrarInfos.get (node alice)).isSome
      = true := by decide +kernel
  have hterm : ∀ info ∈ (after (listingInputs 6000)).registrar.registrarInfos.get (node alice),
      (after (listingInputs 6000)).now < graceEnd config info := by decide +kernel
  obtain ⟨info, hinfo⟩ := Option.isSome_iff_exists.mp hinfo
  refine hiff.mpr ⟨hexpires ▸ (by decide +kernel), hseller ▸ (by decide +kernel),
    ⟨info, hinfo, hterm info hinfo⟩, fun m _ => hasActiveSubname_eq_false.mp hheld m⟩

open Devnet in
/-- The listing of `alice` is advertised after its end, and account 2 cannot buy. -/
theorem closed_listing_advertised :
    CollisionFree config.keccak256 config.baseNode labels ∧
      Reachable config labels (after (listingInputs 1000000)) ∧
      (getListing (after (listingInputs 1000000)) alice).map
        (fun l => (l.seller, l.price, l.expiresAt)) = some (account 1, 5000, 1000000) ∧
      hasValidCanonicalName (after (listingInputs 1000000)) (account 2) = false ∧
      hasActiveSubname (after (listingInputs 1000000)) (account 2) = false ∧
      (Marketplace.settlePayment (after (listingInputs 1000000)) (account 2)
        { seller := account 1, price := 5000, expiresAt := 1000000 }).isOk = true ∧
      (dispatch (after (listingInputs 1000000)) (.signed (account 2))
        (.buyName alice none)).isOk = false :=
  ⟨collisionFree, reachable_after (by decide +kernel), by decide +kernel⟩

/-! ## The dashboard of an account -/

/-- A subname that `a` has accepted, or been offered. -/
def Delegated (s : State T) (state : SubnameState) (a : AccountId) (c : DomainHash) : Prop :=
  ∃ d, s.registry.subnameRecords.get c = some d ∧ d.state = state ∧ d.target = a

theorem mem_pendingSubnameOffers (hi : Indexed T L s.registry) {c : DomainHash} :
    c ∈ (accountDashboard s a).pendingSubnameOffers ↔ Delegated s .offered a c := by
  refine StorageMap.mem_iterPrefix_keys.trans ⟨fun hc => ?_, ?_⟩
  · obtain ⟨d, hd, ht, hs⟩ := hi.offered a c hc
    exact ⟨d, hd, hs, ht⟩
  · rintro ⟨d, hd, hs, rfl⟩
    exact hi.offered_of c d hd hs

theorem mem_pendingNameOffers :
    n ∈ (accountDashboard s a).pendingNameOffers ↔
      ∃ offer, s.registrar.offeredNames.get n = some offer ∧ offer.recipient = a := by
  unfold accountDashboard
  rw [List.mem_filterMap]
  constructor
  · rintro ⟨⟨m, offer⟩, hmem, heq⟩
    split at heq
    · next hr =>
      obtain rfl := Option.some.inj heq
      exact ⟨offer, StorageMap.mem_toList.mp hmem, hr⟩
    · cases heq
  · rintro ⟨offer, hoffer, hr⟩
    exact ⟨(n, offer), StorageMap.mem_toList.mpr hoffer, if_pos hr⟩

theorem mem_subnames {c : DomainHash} :
    c ∈ (accountDashboard s a).subnames ↔
      (s.registry.accountToSubnames.get (a, c)).isSome = true :=
  StorageMap.mem_iterPrefix_keys

/-- The dashboard lists each pending offer of a subname and each pending gift once, and nothing
else. It lists each accepted subname once; these are all it lists as subnames exactly
if `AccountToSubnames` has no top-level name for the account. -/
theorem dashboard_exact_iff (hcf : CollisionFree T.keccak256 T.baseNode L)
    (h : Reachable T L s) (a : AccountId) :
    ((accountDashboard s a).pendingSubnameOffers.Nodup ∧
      ∀ c, c ∈ (accountDashboard s a).pendingSubnameOffers ↔ Delegated s .offered a c) ∧
    ((accountDashboard s a).pendingNameOffers.Nodup ∧
      ∀ n, n ∈ (accountDashboard s a).pendingNameOffers ↔
        ∃ offer, s.registrar.offeredNames.get n = some offer ∧ offer.recipient = a) ∧
    (accountDashboard s a).subnames.Nodup ∧
    ((∀ c, c ∈ (accountDashboard s a).subnames ↔ Delegated s .active a c) ↔
      ∀ n, TopLevel T L n → s.registry.accountToSubnames.get (a, n) = none) := by
  have hi := (h.consistent hcf).indexed
  refine ⟨⟨StorageMap.nodup_iterPrefix_keys _ a, fun c => mem_pendingSubnameOffers hi⟩,
    ⟨?_, fun n => mem_pendingNameOffers⟩, StorageMap.nodup_iterPrefix_keys _ a, ?_⟩
  · refine StorageMap.nodup_filterMap _ fun e e' b he he' => ?_
    grind
  · constructor
    · intro hexact n htop
      rw [← Option.not_isSome_iff_eq_none]
      intro hentry
      obtain ⟨d, hd, -⟩ := (hexact n).mp (mem_subnames.mpr hentry)
      exact (hi.named n d hd).not_topLevel hcf htop
    · intro hnone c
      rw [mem_subnames]
      constructor
      · intro hentry
        rcases hi.held a c hentry with htop | ⟨d, hd, ht, hs⟩
        · rw [hnone c htop] at hentry
          cases hentry
        · exact ⟨d, hd, hs, ht⟩
      · rintro ⟨d, hd, hs, rfl⟩
        exact hi.active_of c d hd hs

open Devnet in
/-- Account 2 has never registered a name, and finds `bob.alice` on its dashboard. -/
theorem dashboard_exact_delegation :
    (Name.sub alice bob).node keccak256 dotBasenode
      ∈ (accountDashboard afterDelegation (account 2)).subnames := by
  have hnone : ∀ n, TopLevel config labels n →
      afterDelegation.registry.accountToSubnames.get (account 2, n) = none := by
    rintro n ⟨l, hl, rfl⟩
    have hall : ∀ l ∈ [alice, bob], afterDelegation.registry.accountToSubnames.get
        (account 2, (Name.top l).node config.keccak256 config.baseNode) = none := by
      decide +kernel
    exact hall l hl
  have hrecord : (afterDelegation.registry.subnameRecords.get
      ((Name.sub alice bob).node keccak256 dotBasenode)).map (fun d => (d.state, d.target))
        = some (.active, account 2) := by decide +kernel
  obtain ⟨d, hd, hpair⟩ := Option.map_eq_some_iff.mp hrecord
  exact ((dashboard_exact_iff (T := config) collisionFree afterDelegation_reachable
    (account 2)).2.2.2.mpr hnone _).mpr ⟨d, hd, congrArg Prod.fst hpair, congrArg Prod.snd hpair⟩

open Devnet in
/-- The dashboard of account 1 lists `alice`, which it has registered, as a subname. -/
theorem registered_name_on_dashboard :
    CollisionFree config.keccak256 config.baseNode labels ∧
      Reachable config labels afterRegistration ∧
      (accountDashboard afterRegistration (account 1)).subnames = [node alice] ∧
      afterRegistration.registry.subnameRecords.get (node alice) = none :=
  ⟨collisionFree, afterRegistration_reachable, by decide +kernel⟩

end PnsPallets
