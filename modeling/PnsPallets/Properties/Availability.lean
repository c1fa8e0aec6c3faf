import PnsPallets.Properties.Clients
import PnsPallets.Properties.Gifts
import PnsPallets.Properties.Terms

/-!
# When calls succeed

`register_succeeds_iff` says when a registration goes through. The same for the other calls that
move names and subnames, in reachable states:

- `subname_calls_succeed_iff`: the five calls about a subname;
- `name_calls_succeed_iff`: transfers, releases, burns, and the two sides of a gift.

What decides is always about the two parties and the term of the name. The checks on the
bookkeeping below (the depth of the parent, the counters of children and tokens, the length of a
stored label) never fail.
-/

namespace PnsPallets

open Frame Registry Registrar

variable {T : Config} {L : Set Bytes} {s s' : State T} {w : AccountId} {n p c : DomainHash}
  {name parent label : Bytes}

/-- The name is in term. -/
def Useable (s : State T) (n : DomainHash) : Prop :=
  ∃ info, s.registrar.registrarInfos.get n = some info ∧ s.now < info.expire

/-! ## Subnames -/

/-- The subname `c` is in the given state, for `w`. -/
def SubnameAt (s : State T) (c : DomainHash) (w : AccountId) (state : SubnameState) : Prop :=
  ∃ d, s.registry.subnameRecords.get c = some d ∧ d.state = state ∧ d.target = w

/-- How many subnames there are below a name. -/
def delegated (s : State T) (p : DomainHash) : ℕ :=
  s.registry.subnameRecords.count fun _ d => d.parent = p

theorem forgetHolder_nft (s : State T) (c : DomainHash) (d : SubnameRecord) :
    (forgetHolder s c d).nft = s.nft := by
  unfold forgetHolder
  cases d.state <;> rfl

theorem childNode_tryFrom (h : childNode T p label = .ok c) :
    ∃ stored, BoundedVec.tryFrom 63 label = some stored := by
  unfold childNode at h
  simp only [bind_eq_ok, okOr_eq_ok] at h
  obtain ⟨l, hl, -⟩ := h
  have hle : label.length ≤ 63 := (newWithLen_eq_some.mp hl).1.2.1
  exact ⟨_, dif_pos hle⟩

/-- A slot is free below a name in term exactly if it has less subnames than the capacity. -/
theorem addChildrenWithCheck_isOk (hcf : CollisionFree T.keccak256 T.baseNode L)
    (h : Reachable T L s) {info : RegistrarInfo}
    (hinfo : s.registrar.registrarInfos.get p = some info) :
    (∃ nft, addChildrenWithCheck s.nft p info.capacity = .ok nft) ↔
      delegated s p < T.defaultCapacity.toNat := by
  have hc := h.consistent hcf
  obtain ⟨hne, hminted⟩ := (hc.hierarchy.info p).mp (by rw [hinfo]; rfl)
  obtain ⟨a, hown⟩ := Option.isSome_iff_exists.mp hminted
  obtain ⟨token, htoken, -⟩ := ownerOf_eq_some.mp hown
  have hcount : token.data.children.toNat = delegated s p :=
    hc.counted.children p _ hne (by simp [NftStorage.childrenOf, htoken])
  have hcapacity := (h.inTerm hcf p info hinfo).capacity
  simp only [addChildrenWithCheck, bind_eq_ok, okOr_eq_ok, ensure_eq_ok, pure_eq_ok]
  rw [← hcount, ← UInt32.lt_iff_toNat_lt, ← hcapacity]
  constructor
  · rintro ⟨-, token', htoken', -, hlt, -⟩
    obtain rfl := Option.some.inj (htoken.symm.trans htoken')
    exact hlt
  · intro hlt
    exact ⟨_, token, htoken, (), hlt, rfl⟩

theorem offerSubdomain_isOk (hcf : CollisionFree T.keccak256 T.baseNode L)
    (hopen : T.isOpen = true) (h : Reachable T L s) (hchild : childNode T p label = .ok c)
    (hptr : s.registrar.ownerToPrimaryName.get w = some p) (target : AccountId) :
    (∃ s', dispatch s (.signed w) (.offerSubdomain label (.id target)) = .ok s') ↔
      Useable s p ∧ s.registry.subnameRecords.get c = none ∧ s.nft.ownerOf p ≠ some target ∧
        delegated s p < T.defaultCapacity.toNat := by
  have hc := h.consistent hcf
  have hprimary : canonicalNameOf s w = .ok p := okOr_eq_ok.mpr hptr
  simp only [dispatch, offerSubdomain, ensureSigned, lookup, hprimary, hchild, ok_bind]
  simp only [offerSubname, bind_eq_ok, okOr_eq_ok, ensure_eq_ok, pure_eq_ok]
  constructor
  · rintro ⟨s', -, -, info, hinfo, -, hlt, stored, -, -, -, -, hself, -, hnew, nft, hnft, -⟩
    refine ⟨⟨info, hinfo, hlt⟩, ?_, hself, (addChildrenWithCheck_isOk hcf h hinfo).mp ⟨nft, hnft⟩⟩
    simpa using hnew
  · rintro ⟨⟨info, hinfo, hlt⟩, hnew, hself, hroom⟩
    obtain ⟨stored, hstored⟩ := childNode_tryFrom hchild
    obtain ⟨nft, hnft⟩ := (addChildrenWithCheck_isOk hcf h hinfo).mpr hroom
    have horigin := hc.hierarchy.origin_eq_root ((hc.hierarchy.info p).mp (by rw [hinfo]; rfl))
    exact ⟨_, (), hopen, info, hinfo, (), hlt, stored, hstored, (), horigin, (), hself, (),
      by simp [hnew], nft, hnft, rfl⟩

theorem acceptSubdomain_isOk (hlen : 32 ≤ T.maxContentLen) (hp : topLevelNode T parent = .ok p)
    (hchild : childNode T p label = .ok c) :
    (∃ s', dispatch s (.signed w) (.acceptSubdomain parent label) = .ok s') ↔
      Useable s p ∧ Unnamed s w ∧ SubnameAt s c w .offered := by
  simp only [dispatch, acceptSubdomain, ensureSigned, hp, hchild, ok_bind]
  simp only [bind_eq_ok, okOr_eq_ok, ensure_eq_ok, pure_eq_ok]
  constructor
  · rintro ⟨s', info, hinfo, -, hlt, ⟨s₁, q'⟩, haccept, -⟩
    obtain ⟨hvalid, hheld, d, hd, hstate, htarget, -⟩ := acceptSubnameOffer_eq haccept
    exact ⟨⟨info, hinfo, hlt⟩, ⟨hasValidCanonicalName_eq_false.mp hvalid, hheld⟩, d, hd, hstate,
      htarget⟩
  · rintro ⟨⟨info, hinfo, hlt⟩, hfree, d, hd, hstate, htarget⟩
    have haccept : ∃ accepted, acceptSubnameOffer s c w = .ok accepted := by
      simp only [acceptSubnameOffer, bind_eq_ok, okOr_eq_ok, ensure_eq_ok, pure_eq_ok]
      exact ⟨_, (), hasValidCanonicalName_eq_false.mpr hfree.pointer, (),
        List.isEmpty_iff.mpr (StorageMap.iterPrefix_eq_nil.mpr hfree.held), d, hd, (), hstate, (),
        htarget, rfl⟩
    obtain ⟨accepted, haccept⟩ := haccept
    obtain ⟨v, hv⟩ := setSs58Record_isOk hlen accepted.1.resolvers c w
    exact ⟨_, info, hinfo, (), hlt, accepted, haccept, v, hv, rfl⟩

theorem rejectSubdomain_isOk (hp : topLevelNode T parent = .ok p)
    (hchild : childNode T p label = .ok c) :
    (∃ s', dispatch s (.signed w) (.rejectSubdomain parent label) = .ok s') ↔
      SubnameAt s c w .offered := by
  simp only [dispatch, rejectSubdomain, ensureSigned, hp, hchild, ok_bind]
  simp only [rejectSubnameOffer, bind_eq_ok, okOr_eq_ok, ensure_eq_ok, pure_eq_ok]
  constructor
  · rintro ⟨s', d, hd, -, hstate, -, htarget, -⟩
    exact ⟨d, hd, hstate, htarget⟩
  · rintro ⟨d, hd, hstate, htarget⟩
    exact ⟨_, d, hd, (), hstate, (), htarget, rfl⟩

/-- The parent that the texts name is the parent on record. -/
theorem record_parent (hcf : CollisionFree T.keccak256 T.baseNode L) (h : Reachable T L s)
    (hL : toAsciiLowercase parent ∈ L) (hL' : toAsciiLowercase label ∈ L)
    (hp : topLevelNode T parent = .ok p) (hchild : childNode T p label = .ok c)
    {d : SubnameRecord} (hd : s.registry.subnameRecords.get c = some d) : d.parent = p :=
  (((h.consistent hcf).indexed.named c d hd).parent_eq hcf hL hL' (childNode_sub hp hchild)).trans
    (topLevelNode_eq hp).symm

theorem revokeSubdomain_isOk (hcf : CollisionFree T.keccak256 T.baseNode L)
    (h : Reachable T L s) (hL : toAsciiLowercase parent ∈ L) (hL' : toAsciiLowercase label ∈ L)
    (hp : topLevelNode T parent = .ok p) (hchild : childNode T p label = .ok c)
    (hptr : s.registrar.ownerToPrimaryName.get w = some p) :
    (∃ s', dispatch s (.signed w) (.revokeSubdomain label) = .ok s') ↔
      (s.registry.subnameRecords.get c).isSome = true := by
  have hc := h.consistent hcf
  have hprimary : canonicalNameOf s w = .ok p := okOr_eq_ok.mpr hptr
  simp only [dispatch, revokeSubdomain, ensureSigned, hprimary, hchild, ok_bind]
  simp only [revokeSubname, bind_eq_ok, okOr_eq_ok, ensure_eq_ok, pure_eq_ok]
  constructor
  · rintro ⟨s', d, hd, -⟩
    rw [hd]
    rfl
  · intro hsome
    obtain ⟨d, hd⟩ := Option.isSome_iff_exists.mp hsome
    have hparent := record_parent hcf h hL hL' hp hchild hd
    obtain ⟨nft, hnft⟩ := hc.subChildren_isOk hcf hd
    refine ⟨_, d, hd, (), hparent, nft, ?_, rfl⟩
    rw [forgetHolder_nft, ← hparent]
    exact hnft

theorem releaseSubdomain_isOk (hcf : CollisionFree T.keccak256 T.baseNode L)
    (h : Reachable T L s) (hp : topLevelNode T parent = .ok p)
    (hchild : childNode T p label = .ok c) :
    (∃ s', dispatch s (.signed w) (.releaseSubdomain parent label) = .ok s') ↔
      SubnameAt s c w .active := by
  have hc := h.consistent hcf
  simp only [dispatch, releaseSubdomain, ensureSigned, hp, hchild, ok_bind]
  simp only [releaseSubname, bind_eq_ok, okOr_eq_ok, ensure_eq_ok, pure_eq_ok]
  constructor
  · rintro ⟨s', released, ⟨d, hd, -, hstate, -, htarget, -⟩, -⟩
    exact ⟨d, hd, hstate, htarget⟩
  · rintro ⟨d, hd, hstate, htarget⟩
    obtain ⟨nft, hnft⟩ := hc.subChildren_isOk hcf hd
    exact ⟨_, _, ⟨d, hd, (), hstate, (), htarget, nft, hnft, rfl⟩, rfl⟩

/-- **When the calls about a subname succeed.** Let `c` be the subname `label` of the name `p`.
An account with `p` as its primary name can offer `c`, to anybody but the owner of `p`, exactly if
`p` is in term, there is no `c` yet and `p` has less subnames than the capacity; and can revoke it
in every state that it is in. An offer is accepted exactly by its target, while `p` is in term
and if the target holds no other name, and rejected exactly by its target. An active subname is
released exactly by its target. -/
theorem subname_calls_succeed_iff (hcf : CollisionFree T.keccak256 T.baseNode L)
    (hopen : T.isOpen = true) (hlen : 32 ≤ T.maxContentLen) (h : Reachable T L s)
    (hL : toAsciiLowercase parent ∈ L) (hL' : toAsciiLowercase label ∈ L)
    (hp : topLevelNode T parent = .ok p) (hchild : childNode T p label = .ok c)
    (w : AccountId) :
    (s.registrar.ownerToPrimaryName.get w = some p →
      (∀ target, (∃ s', dispatch s (.signed w) (.offerSubdomain label (.id target)) = .ok s') ↔
        Useable s p ∧ s.registry.subnameRecords.get c = none ∧ s.nft.ownerOf p ≠ some target ∧
          delegated s p < T.defaultCapacity.toNat) ∧
      ((∃ s', dispatch s (.signed w) (.revokeSubdomain label) = .ok s') ↔
        (s.registry.subnameRecords.get c).isSome = true)) ∧
    ((∃ s', dispatch s (.signed w) (.acceptSubdomain parent label) = .ok s') ↔
      Useable s p ∧ Unnamed s w ∧ SubnameAt s c w .offered) ∧
    ((∃ s', dispatch s (.signed w) (.rejectSubdomain parent label) = .ok s') ↔
      SubnameAt s c w .offered) ∧
    ((∃ s', dispatch s (.signed w) (.releaseSubdomain parent label) = .ok s') ↔
      SubnameAt s c w .active) :=
  ⟨fun hptr => ⟨offerSubdomain_isOk hcf hopen h hchild hptr,
      revokeSubdomain_isOk hcf h hL hL' hp hchild hptr⟩,
    acceptSubdomain_isOk hlen hp hchild, rejectSubdomain_isOk hp hchild,
    releaseSubdomain_isOk hcf h hp hchild⟩

open Devnet in
/-- The owner of `alice` can revoke the subname of account 2, but cannot release it for them. -/
theorem subname_calls_succeed_iff_of_bob :
    (∃ s', dispatch afterDelegation (.signed (account 1)) (.revokeSubdomain bob) = .ok s') ∧
      ¬ ∃ s', dispatch afterDelegation (.signed (account 1)) (.releaseSubdomain alice bob)
        = .ok s' := by
  have hp : topLevelNode config alice = .ok (node alice) := by decide +kernel
  have hchild : childNode config (node alice) bob
      = .ok ((Name.sub alice bob).node config.keccak256 config.baseNode) := by decide +kernel
  have htarget : ∀ d ∈ afterDelegation.registry.subnameRecords.get
      ((Name.sub alice bob).node config.keccak256 config.baseNode), d.target ≠ account 1 := by
    decide +kernel
  obtain ⟨howner, -, -, hrelease⟩ := subname_calls_succeed_iff collisionFree rfl (by decide)
    afterDelegation_reachable (by decide) (by decide) hp hchild (account 1)
  refine ⟨(howner (by decide +kernel)).2.mpr (by decide +kernel), fun hok => ?_⟩
  obtain ⟨d, hd, -, heq⟩ := hrelease.mp hok
  exact htarget d hd heq

/-! ## Names -/

/-- An owner can always burn a name. -/
theorem doBurn_isOk (hcf : CollisionFree T.keccak256 T.baseNode L) (hc : Consistent T L s) :
    (∃ s', doBurn s w n = .ok s') ↔ n ≠ T.baseNode ∧ s.nft.ownerOf n = some w := by
  constructor
  · rintro ⟨s', h⟩
    obtain ⟨hne, hown, -⟩ := doBurn_eq hcf hc h
    exact ⟨hne, hown⟩
  · rintro ⟨hne, hown⟩
    obtain ⟨token, htoken, rfl⟩ := ownerOf_eq_some.mp hown
    have horigin := hc.hierarchy.origin_eq_root ⟨hne, by rw [hown]; rfl⟩
    have hcl := hc.cleared hcf n
    have hown' : (clearSubnames s n).nft.ownerOf n = some token.owner := by
      rw [hcl.ownerOf, hown]
    obtain ⟨token', htoken', howner'⟩ := ownerOf_eq_some.mp hown'
    obtain ⟨nft, hburn⟩ := (hcl.consistent hcf hc).ledger.burn_isOk htoken'
    rw [howner'] at hburn
    unfold doBurn burnPrepare verifyWithOwner
    simp only [bind_eq_ok, okOr_eq_ok, ensure_eq_ok, pure_eq_ok]
    exact ⟨_, _, ⟨token, htoken, (), rfl, .root, horigin, _, rfl, rfl⟩, nft, hburn, rfl⟩

theorem releaseName_isOk (hcf : CollisionFree T.keccak256 T.baseNode L) (hc : Consistent T L s) :
    (∃ s', dispatch s (.signed w) .releaseName = .ok s') ↔
      ∃ n, n ≠ T.baseNode ∧ s.registrar.ownerToPrimaryName.get w = some n ∧
        s.nft.ownerOf n = some w := by
  simp only [dispatch, releaseName, ensureSigned, ok_bind]
  simp only [canonicalNameOf, bind_eq_ok, okOr_eq_ok]
  constructor
  · rintro ⟨s', n, hptr, hburn⟩
    obtain ⟨hne, hown⟩ := (doBurn_isOk hcf (hc.setPrimary _)).mp ⟨s', hburn⟩
    exact ⟨n, hne, hptr, hown⟩
  · rintro ⟨n, hne, hptr, hown⟩
    obtain ⟨s', hburn⟩ := (doBurn_isOk hcf
      (hc.setPrimary (s.registrar.ownerToPrimaryName.remove w))).mpr ⟨hne, hown⟩
    exact ⟨s', n, hptr, hburn⟩

theorem burn_isOk (hcf : CollisionFree T.keccak256 T.baseNode L) (hc : Consistent T L s)
    (hn : parseNameToNode T.keccak256 name T.baseNode = some n) :
    (∃ s', dispatch s (.signed w) (.burn name) = .ok s') ↔
      n ≠ T.baseNode ∧ s.nft.ownerOf n = some w := by
  have hnode : nameToNode T name = .ok n := okOr_eq_ok.mpr hn
  simp only [dispatch, Registry.burn, ensureSigned, hnode, ok_bind]
  exact doBurn_isOk hcf hc

theorem acceptOfferedName_isOk (hlen : 32 ≤ T.maxContentLen) (hn : topLevelNode T name = .ok n) :
    (∃ s', dispatch s (.signed w) (.acceptOfferedName name) = .ok s') ↔
      Useable s n ∧ Unnamed s w ∧ ∃ g, pendingGift s n = some g ∧ g.recipient = w := by
  simp only [dispatch, acceptOfferedName, ensureSigned, hn, ok_bind]
  simp only [bind_eq_ok, okOr_eq_ok, ensure_eq_ok, pure_eq_ok]
  constructor
  · rintro ⟨s', g, hg, -, hrecipient, info, hinfo, -, hlt, s₁, hdrop, -, hsub, -⟩
    obtain ⟨hstale, primary, -, rfl⟩ := dropStaleCanonicalName_eq hdrop
    exact ⟨⟨info, hinfo, hlt⟩, ⟨hstale, hasActiveSubname_eq_false.mp hsub⟩, g, hg, hrecipient⟩
  · rintro ⟨⟨info, hinfo, hlt⟩, hfree, g, hg, hrecipient⟩
    obtain ⟨hsub, hvalid⟩ := unnamed_iff.mp hfree
    let s₀ : State T :=
      { s with registrar.offeredNames := s.registrar.offeredNames.remove n }
    have hvalid₀ : hasValidCanonicalName s₀ w = false := hvalid
    obtain ⟨s₁, hdrop⟩ := dropStaleCanonicalName_isOk.mpr hvalid₀
    have hsub₁ : hasActiveSubname s₁ w = false := by
      obtain ⟨-, primary, -, rfl⟩ := dropStaleCanonicalName_eq hdrop
      exact hsub
    obtain ⟨v₁, hv₁⟩ := setSs58Record_isOk hlen s₁.resolvers n w
    obtain ⟨v₂, hv₂⟩ := setOriginRecord_isOk hlen v₁ n s₁.parentHash
    exact ⟨_, g, hg, (), hrecipient, info, hinfo, (), hlt, s₁, hdrop, (), hsub₁, v₁, hv₁, v₂, hv₂,
      rfl⟩

/-- A name is given to the recipient of a purchase exactly if no gift of it is pending, it is
renewable, and the recipient is free to take it. -/
theorem offerBoughtName_isOk (hcf : CollisionFree T.keccak256 T.baseNode L)
    (hc : Consistent T L s) (hlen : 32 ≤ T.maxContentLen) {seller recip : AccountId}
    (hown : s.nft.ownerOf n = some seller) (buyer : AccountId) :
    (∃ s', offerBoughtName s seller buyer recip n = .ok s') ↔
      Renewable s n ∧ Unnamed s recip ∧ pendingGift s n = none := by
  simp only [offerBoughtName, bind_eq_ok, ensure_eq_ok, pure_eq_ok]
  constructor
  · rintro ⟨s', -, hgift, -, hvalid, -, hsub, s₁, hmove, -⟩
    have hnone : s.registrar.offeredNames.get n = none := by simpa using hgift
    obtain ⟨-, -, hterm, -⟩ := doTransfer_eq hcf hc hmove
    exact ⟨hterm, unnamed_iff.mpr ⟨hsub, hvalid⟩, hnone⟩
  · rintro ⟨hterm, hfree, hgift⟩
    obtain ⟨hsub, hvalid⟩ := unnamed_iff.mp hfree
    obtain ⟨s₁, hmove⟩ := doTransfer_isOk hcf hc hlen hown hterm recip
    have hnew : s.registrar.offeredNames.containsKey n = false :=
      Option.isSome_eq_false_iff.mpr (Option.isNone_iff_eq_none.mpr hgift)
    exact ⟨_, (), hnew, (), hvalid, (), hsub, s₁, hmove, rfl⟩

theorem buyForRecipient_isOk (hcf : CollisionFree T.keccak256 T.baseNode L)
    (hc : Consistent T L s) (hlen : 32 ≤ T.maxContentLen)
    (hn : Marketplace.listedNode T name = .ok n) {listing : Listing}
    (hlisting : s.listings.get n = some listing)
    (hpay : ∃ s₁, Marketplace.settlePayment s w listing = .ok s₁) (recip : AccountId) :
    (∃ s', dispatch s (.signed w) (.buyName name (some recip)) = .ok s') ↔
      w ≠ listing.seller ∧ recip ≠ w ∧ recip ≠ listing.seller ∧ listing.expiresAt > s.now ∧
        s.nft.ownerOf n = some listing.seller ∧ Renewable s n ∧ Unnamed s recip ∧
        pendingGift s n = none := by
  simp only [dispatch, Marketplace.buyName, ensureSigned, hn, ok_bind]
  simp only [Marketplace.deliver, bind_eq_ok, okOr_eq_ok, ensure_eq_ok]
  constructor
  · rintro ⟨s', l, hl, -, hne, -, hopen, -, hown, s₁, hs₁, -, hself, -, hseller, hgive⟩
    obtain rfl : listing = l := Option.some.inj (hlisting.symm.trans hl)
    obtain ⟨balances, -, rfl⟩ := settlePayment_eq hs₁
    have hc₁ : Consistent T L { s with balances := balances, listings := s.listings.remove n } :=
      hc.congr rfl rfl rfl
    obtain ⟨hterm, hfree, hgift⟩ :=
      (offerBoughtName_isOk hcf hc₁ hlen hown.symm w).mp ⟨s', hgive⟩
    exact ⟨hne, hself, hseller, hopen, hown.symm, hterm, ⟨hfree.pointer, hfree.held⟩, hgift⟩
  · rintro ⟨hne, hself, hseller, hopen, hown, hterm, hfree, hgift⟩
    obtain ⟨s₁, hs₁⟩ := hpay
    obtain ⟨balances, -, rfl⟩ := settlePayment_eq hs₁
    have hc₁ : Consistent T L { s with balances := balances, listings := s.listings.remove n } :=
      hc.congr rfl rfl rfl
    obtain ⟨s', hgive⟩ := (offerBoughtName_isOk hcf hc₁ hlen hown w).mpr
      ⟨hterm, ⟨hfree.pointer, hfree.held⟩, hgift⟩
    exact ⟨s', listing, hlisting, (), hne, (), hopen, (), hown.symm, _, hs₁, (), hself, (), hseller,
      hgive⟩

/-- **When the calls that give or take a name succeed.** A transfer goes through exactly for the
primary name of the signer, if they own it, it is not past its grace period and the receiver holds
no name. Owners can always release their primary name and burn any name of theirs, and nobody else
can. A gift is accepted exactly by its recipient, while the name is in term and if they hold no
other name. A name whose price can be paid is bought for somebody else exactly if the listing is
open and of the owner, the three parties are different, no gift of the name is pending, the name is
not past its grace period and the recipient holds no name. -/
theorem name_calls_succeed_iff (hcf : CollisionFree T.keccak256 T.baseNode L)
    (hopen : T.isOpen = true) (hlen : 32 ≤ T.maxContentLen) (h : Reachable T L s)
    (w : AccountId) :
    (∀ dest, (∃ s', dispatch s (.signed w) (.transfer (.id dest)) = .ok s') ↔
      ∃ n, Transferable s w dest n) ∧
    ((∃ s', dispatch s (.signed w) .releaseName = .ok s') ↔
      ∃ n, n ≠ T.baseNode ∧ s.registrar.ownerToPrimaryName.get w = some n ∧
        s.nft.ownerOf n = some w) ∧
    (∀ name n, parseNameToNode T.keccak256 name T.baseNode = some n →
      ((∃ s', dispatch s (.signed w) (.burn name) = .ok s') ↔
        n ≠ T.baseNode ∧ s.nft.ownerOf n = some w)) ∧
    (∀ name n, topLevelNode T name = .ok n →
      ((∃ s', dispatch s (.signed w) (.acceptOfferedName name) = .ok s') ↔
        Useable s n ∧ Unnamed s w ∧ ∃ g, pendingGift s n = some g ∧ g.recipient = w)) ∧
    ∀ name n listing, Marketplace.listedNode T name = .ok n → s.listings.get n = some listing →
      (∃ s₁, Marketplace.settlePayment s w listing = .ok s₁) →
      ∀ recip, (∃ s', dispatch s (.signed w) (.buyName name (some recip)) = .ok s') ↔
        w ≠ listing.seller ∧ recip ≠ w ∧ recip ≠ listing.seller ∧ listing.expiresAt > s.now ∧
          s.nft.ownerOf n = some listing.seller ∧ Renewable s n ∧ Unnamed s recip ∧
          pendingGift s n = none := by
  have hc := h.consistent hcf
  refine ⟨transfer_isOk hcf hc hopen hlen w, releaseName_isOk hcf hc, ?_, ?_, ?_⟩
  · intro name n hn
    exact burn_isOk hcf hc hn
  · intro name n hn
    exact acceptOfferedName_isOk hlen hn
  · intro name n listing hn hlisting hpay recip
    exact buyForRecipient_isOk hcf hc hlen hn hlisting hpay recip

open Devnet in
/-- Account 3 can accept the gift of `alice`, and account 2, who paid for it, cannot. -/
theorem name_calls_succeed_iff_of_gift :
    (∃ s', dispatch afterGift (.signed (account 3)) (.acceptOfferedName alice) = .ok s') ∧
      ¬ ∃ s', dispatch afterGift (.signed (account 2)) (.acceptOfferedName alice) = .ok s' := by
  have hn : topLevelNode config alice = .ok (node alice) := by decide +kernel
  have hgift : (pendingGift afterGift (node alice)).map OfferedNameRecord.recipient
      = some (account 3) := by decide +kernel
  obtain ⟨g, hg, hrecipient⟩ := Option.map_eq_some_iff.mp hgift
  obtain ⟨info, hinfo⟩ : ∃ info,
      afterGift.registrar.registrarInfos.get (node alice) = some info :=
    Option.isSome_iff_exists.mp (by decide +kernel)
  have hterm : ∀ info ∈ afterGift.registrar.registrarInfos.get (node alice),
      afterGift.now < info.expire := by decide +kernel
  have hfree : Unnamed afterGift (account 3) := unnamed_iff.mpr (by decide +kernel)
  have hcalls := name_calls_succeed_iff collisionFree rfl (by decide) afterGift_reachable
  refine ⟨((hcalls (account 3)).2.2.2.1 alice _ hn).mpr
    ⟨⟨info, hinfo, hterm info hinfo⟩, hfree, g, hg, hrecipient⟩, fun hok => ?_⟩
  obtain ⟨-, -, g', hg', hrecipient'⟩ := ((hcalls (account 2)).2.2.2.1 alice _ hn).mp hok
  obtain rfl := Option.some.inj (hg.symm.trans hg')
  exact absurd (hrecipient.symm.trans hrecipient') (by decide)

end PnsPallets
