import PnsPallets.Calls
import PnsPallets.Holdings.Discipline

/-!
# The runtime refines the holdings

Which abstract operations each extrinsic performs (`Performs`), and the theorem
that this is what it does: on a consistent state every successful extrinsic
returns a consistent state whose view is reached from the old one by the listed
operations, each enabled (`dispatch_sound`).

`register` performs up to two operations, the rejection of a pending offer and
the registration itself; all other extrinsics perform at most one.
-/

namespace PnsPallets

open Frame Registry Registrar Holdings

variable {T : Config}

/-! ## What the calls perform -/

/-- The operations on accounts, nodes and timestamps. -/
abbrev NameOp : Type := Op AccountId DomainHash Nat

/-- What the `reject_offer` phase of a registration performs. -/
inductive Rejects (s : State T) (who : AccountId) : Option Bytes → List NameOp → Prop where
  | none : Rejects s who none []
  | gift {name : Bytes} {n : DomainHash} {offer : OfferedNameRecord} {D : DomainHash → Bool} :
      parseNameToNode T.keccak256 name T.baseNode = some n →
      s.registrar.offeredNames.get n = some offer →
      Rejects s who (some name) [.rejectGift n who D]
  | offer {name : Bytes} {n : DomainHash} {D : DomainHash → Bool} :
      parseNameToNode T.keccak256 name T.baseNode = some n →
      s.registrar.offeredNames.get n = none →
      Rejects s who (some name) [.drop D]

/-- The calls that leave names alone: at most a subname goes. -/
def Call.isQuiet : Call T → Bool
  | .addReserved _ | .removeReserved _ | .offerSubdomain _ _ | .rejectSubdomain _ _
  | .revokeSubdomain _ | .releaseSubdomain _ _ | .setOfficial _ | .setRecord _ _ _
  | .setText _ _ _ | .createListing _ _ | .cancelListing | .setExchangeRate _
  | .setBasePrice _ | .setRentPrice _ => true
  | .register _ _ _ | .renew | .transfer _ | .releaseName | .acceptSubdomain _ _
  | .acceptOfferedName _ | .burn _ | .buyName _ _ => false

/-- What a successful extrinsic performs. A purchase comes with what was checked
and paid. -/
inductive Performs (s : State T) : Origin → Call T → List NameOp → Prop where
  | register {who dest : AccountId} {name : Bytes} {rejectOffer : Option Bytes}
      {n : DomainHash} {e : Nat} {D : DomainHash → Bool} {rejected : List NameOp} :
      topLevelNode T name = .ok n → Rejects s who rejectOffer rejected →
      Performs s (.signed who) (.register name (.id dest) rejectOffer)
        (rejected ++ [.claim n dest e D])
  | renew {who : AccountId} {n : DomainHash} {e : Nat} :
      s.registrar.ownerToPrimaryName.get who = some n →
      Performs s (.signed who) .renew [.renew n e]
  | transfer {who dest : AccountId} {n : DomainHash} {D : DomainHash → Bool} :
      s.registrar.ownerToPrimaryName.get who = some n →
      Performs s (.signed who) (.transfer (.id dest)) [.move n who dest D]
  | releaseName {who : AccountId} {n : DomainHash} {D : DomainHash → Bool} :
      s.registrar.ownerToPrimaryName.get who = some n →
      Performs s (.signed who) .releaseName [.release n who D]
  | burn {who : AccountId} {name : Bytes} {n : DomainHash} {D : DomainHash → Bool} :
      parseNameToNode T.keccak256 name T.baseNode = some n →
      Performs s (.signed who) (.burn name) [.burn n who D]
  | acceptSubdomain {who : AccountId} {parent label : Bytes} {c : DomainHash} :
      Performs s (.signed who) (.acceptSubdomain parent label) [.acceptSub c who]
  | acceptOfferedName {who : AccountId} {name : Bytes} {n : DomainHash} :
      topLevelNode T name = .ok n →
      Performs s (.signed who) (.acceptOfferedName name) [.acceptGift n who]
  | buyName {buyer : AccountId} {name : Bytes} {n : DomainHash} {listing : Listing}
      {paid : T.Ledger} {D : DomainHash → Bool} :
      Marketplace.listedNode T name = .ok n → s.listings.get n = some listing →
      listing.expiresAt > s.now →
      T.currency.transfer s.balances buyer listing.seller listing.price .keepAlive
        = .ok paid →
      Performs s (.signed buyer) (.buyName name none) [.move n listing.seller buyer D]
  | buyGift {buyer recip : AccountId} {name : Bytes} {n : DomainHash} {listing : Listing}
      {paid : T.Ledger} {D : DomainHash → Bool} :
      Marketplace.listedNode T name = .ok n → s.listings.get n = some listing →
      listing.expiresAt > s.now →
      T.currency.transfer s.balances buyer listing.seller listing.price .keepAlive
        = .ok paid →
      Performs s (.signed buyer) (.buyName name (some recip))
        [.bestow n listing.seller recip D]
  | quiet {o : Origin} {call : Call T} {D : DomainHash → Bool} :
      call.isQuiet = true → Performs s o call [.drop D]

variable {L : Set Bytes} {s s' : State T} {a b who dest : AccountId} {n p c : DomainHash}
  {o : Origin} {call : Call T}

/-- An entry of `AccountToSubnames` at a top-level name is for a minted name, or
it was there before and was not the owner's. -/
def Entries (L : Set Bytes) (s s' : State T) : Prop :=
  ∀ t m, (s'.registry.accountToSubnames.get (t, m)).isSome = true → TopLevel T L m →
    (s'.nft.ownerOf m).isSome = true ∨
      (s.registry.accountToSubnames.get (t, m)).isSome = true ∧ s.nft.ownerOf m ≠ some t

/-- What a successful extrinsic guarantees. -/
structure Sound (L : Set Bytes) (s : State T) (o : Origin) (call : Call T) (s' : State T) :
    Prop where
  consistent : Consistent T L s'
  performs : ∃ ops, Performs s o call ops ∧ Runs AccountId.encode (view s) ops (view s')
  entries : Entries L s s'

/-! ## Frames -/

/-- Consistency is about tokens, the registry and the registrations. -/
theorem Consistent.congr (hc : Consistent T L s) (hnft : s'.nft = s.nft)
    (hregistry : s'.registry = s.registry)
    (hinfo : s'.registrar.registrarInfos = s.registrar.registrarInfos) :
    Consistent T L s' := by
  refine ⟨hnft ▸ hc.ledger, ?_, hregistry ▸ hc.indexed, ?_⟩
  · exact hc.hierarchy.of_owner (by rw [hnft]) (by rw [hnft])
      (fun _ => by rw [hregistry]) (by rw [hregistry]) hinfo
  · exact hc.counted.of_minted (fun _ => by rw [hnft]) (by rw [hnft]) (by rw [hregistry])
      hinfo

/-- Pointers are not part of it. -/
theorem Consistent.setPrimary (hc : Consistent T L s)
    (primary : StorageMap AccountId DomainHash) :
    Consistent T L { s with registrar.ownerToPrimaryName := primary } :=
  hc.congr rfl rfl rfl

/-- Entries stay as they are while no token is burned. -/
theorem Entries.of_held
    (hheld : ∀ t m, (s'.registry.accountToSubnames.get (t, m)).isSome = true →
      TopLevel T L m → (s.registry.accountToSubnames.get (t, m)).isSome = true)
    (hown : ∀ m, TopLevel T L m → (s.nft.ownerOf m).isSome = true →
      (s'.nft.ownerOf m).isSome = true) : Entries L s s' := by
  intro t m ht htop
  by_cases hmt : s.nft.ownerOf m = some t
  · exact Or.inl (hown m htop (by rw [hmt]; rfl))
  · exact Or.inr ⟨hheld t m ht htop, hmt⟩

/-- A call that performs one operation. -/
theorem Sound.single (op : NameOp) (hc : Consistent T L s')
    (hview : view s' = op.apply AccountId.encode (view s)) (hen : op.Enabled (view s))
    (hp : Performs s o call [op]) (hent : Entries L s s') : Sound L s o call s' := by
  exact ⟨hc, ⟨[op], hp, .single hen hview⟩, hent⟩

/-- A call that touches neither names nor subnames. -/
theorem Sound.quiet (hq : call.isQuiet = true) (hc : Consistent T L s')
    (hview : view s' = view s) (hent : Entries L s s') : Sound L s o call s' := by
  exact .single (.drop fun _ => false) hc hview (fun _ h => Bool.noConfusion h)
    (.quiet hq) hent

/-- A call that leaves tokens, registry and registrations alone, and the view. -/
theorem Sound.frame (hq : call.isQuiet = true) (hc : Consistent T L s) (hnft : s'.nft = s.nft)
    (hregistry : s'.registry = s.registry)
    (hinfo : s'.registrar.registrarInfos = s.registrar.registrarInfos)
    (hview : view s' = view s) : Sound L s o call s' := by
  refine .quiet hq (hc.congr hnft hregistry hinfo) hview (.of_held ?_ ?_)
  · rw [hregistry]
    exact fun _ _ h _ => h
  · rw [hnft]
    exact fun _ _ h => h

/-! ## Burning -/

/-- A burn forgets the entries below the name and the caller's own; those of others for
the name stay. -/
theorem doBurn_entries (hcf : CollisionFree T.keccak256 T.baseNode L)
    (hc : Consistent T L s) (h : doBurn s a n = .ok s') : Entries L s s' := by
  obtain ⟨-, hown, s₁, nft, hcl, hburn, rfl⟩ := doBurn_eq hcf hc h
  intro t m ht _
  have hown' := burn_ownerOf hburn m
  rw [hcl.ownerOf] at hown'
  have hheld := hcl.forgets.accountToSubnames t m
  show (nft.ownerOf m).isSome = true ∨ _
  grind

/-- `burn` is the operation of that name. -/
theorem burn_sound (hcf : CollisionFree T.keccak256 T.baseNode L) (hc : Consistent T L s)
    {name : Bytes} (h : Registry.burn s o name = .ok s') : Sound L s o (.burn name) s' := by
  obtain ⟨who, n, rfl, hn, hburn⟩ := burn_eq_ok h
  obtain ⟨hen, hview⟩ := view_doBurn hcf hc hburn
  exact .single (.burn n who _) (hc.doBurn hcf hburn) hview hen (.burn hn)
    (doBurn_entries hcf hc hburn)

/-- `release_name` burns the caller's primary name and drops the pointer with it. -/
theorem releaseName_sound (hcf : CollisionFree T.keccak256 T.baseNode L)
    (hc : Consistent T L s) (h : releaseName s o = .ok s') :
    Sound L s o .releaseName s' := by
  obtain ⟨who, n, rfl, hn, hburn⟩ := releaseName_eq_ok h
  have hc₀ := hc.setPrimary (s.registrar.ownerToPrimaryName.remove who)
  obtain ⟨⟨hown, hact, hsubs⟩, hview⟩ := view_doBurn hcf hc₀ hburn
  have hptr : (s.registrar.ownerToPrimaryName.remove who).get
      = Function.update (view s).primary who none := by
    funext x
    rw [StorageMap.get_remove, Function.update_apply]
    rfl
  have heq : view s' = (Op.release n who (childOf s.registry n)).apply AccountId.encode
      (view s) := by
    rw [hview, view_setPrimary, hptr]
    rfl
  exact .single _ (hc₀.doBurn hcf hburn) heq ⟨hown, hn, hact, hsubs⟩ (.releaseName hn)
    (doBurn_entries hcf hc₀ hburn :)

/-! ## Handing over -/

/-- A transfer writes no entry for the new owner. -/
theorem doTransfer_entries (hcf : CollisionFree T.keccak256 T.baseNode L)
    (hc : Consistent T L s) (h : doTransfer s a b n = .ok s') : Entries L s s' := by
  obtain ⟨-, -, -, s₁, nft, v, hcl, hmove, -, rfl⟩ := doTransfer_eq hcf hc h
  refine .of_held (fun t m ht _ => ?_) (fun m _ hm => ?_)
  · have hheld := hcl.forgets.accountToSubnames t m
    grind
  · show (nft.ownerOf m).isSome = true
    rw [transfer_minted hmove, hcl.ownerOf]
    exact hm

theorem doTransfer_registrar (h : doTransfer s a b n = .ok s') : s'.registrar = s.registrar :=
  (congrArg State.registrar (doTransfer_frame h) :)

/-- `transfer` hands the primary name over, to an account that the guards found free. -/
theorem transfer_sound (hcf : CollisionFree T.keccak256 T.baseNode L)
    (hc : Consistent T L s) {address : MultiAddress}
    (h : Registrar.transfer s o address = .ok s') : Sound L s o (.transfer address) s' := by
  obtain ⟨who, dest, n, primary, s₁, rfl, rfl, hn, -, hunnamed, hprimary, hmove, rfl⟩ :=
    registrarTransfer_eq_ok h
  have hfree : (view s).Free dest := hunnamed.free hc.indexed
  have hc₀ := hc.setPrimary primary
  obtain ⟨⟨hown, hlive, hact, hsubs⟩, hview⟩ := view_doTransfer hcf hc₀ hmove
  have hreg := doTransfer_registrar hmove
  have hptr : ((s₁.registrar.ownerToPrimaryName.remove who).insert dest n).get
      = Function.update ((view s).unpoint who n) dest (some n) := by
    funext x
    have hx : (view s).primary x = s.registrar.ownerToPrimaryName.get x := rfl
    rw [hreg, StorageMap.get_insert, StorageMap.get_remove, hprimary, Function.update_apply,
      Book.unpoint, hx]
    grind
  have heq : view { s₁ with
        registrar.ownerToPrimaryName :=
          (s₁.registrar.ownerToPrimaryName.remove who).insert dest n }
      = (Op.move n who dest (childOf s.registry n)).apply AccountId.encode (view s) := by
    rw [view_setPrimary, hview, hptr]
    rfl
  exact .single _ ((hc₀.doTransfer hcf hmove).congr rfl rfl rfl) heq
    ⟨hown, hlive, hfree, hact, hsubs⟩ (.transfer hn) (doTransfer_entries hcf hc₀ hmove :)

/-! ## Subnames -/

theorem topLevelNode_eq {name : Bytes} (h : topLevelNode T name = .ok n) :
    n = (Name.top (toAsciiLowercase name)).node T.keccak256 T.baseNode := by
  obtain ⟨⟨label, len⟩, hlabel, rfl⟩ := topLevelNode_eq_ok.mp h
  exact label_encodeWithNode_top (label_newWithLen_node hlabel)

/-- A node that a call derives from a known label is that of a top-level name. -/
theorem topLevelNode_topLevel {name : Bytes} (h : topLevelNode T name = .ok n)
    (hL : toAsciiLowercase name ∈ L) : TopLevel T L n :=
  ⟨_, hL, topLevelNode_eq h⟩

theorem childNode_eq {label : Bytes} (h : childNode T p label = .ok c) :
    c = encodeWithNode T.keccak256 p (T.keccak256 (toAsciiLowercase label)) := by
  unfold childNode at h
  simp only [bind_eq_ok, okOr_eq_ok, pure_eq_ok] at h
  obtain ⟨⟨subLabel, len⟩, hlabel, rfl⟩ := h
  unfold Label.encodeWithNode encodeWithNode
  rw [label_newWithLen_node hlabel]

/-- The node of an offer is that of its label below the offering name. -/
theorem offered_subnameOf (hc : Consistent T L s) {label : Bytes} {stored : BoundedVec 63}
    (hL : toAsciiLowercase label ∈ L)
    (horigin : s.registry.runtimeOrigin.get p = some .root)
    (hchild : childNode T p label = .ok c)
    (hstored : BoundedVec.tryFrom 63 label = some stored) : SubnameOf T L p stored.val c := by
  obtain ⟨-, hne, hminted⟩ := hc.hierarchy.origin_eq_some horigin
  obtain ⟨l, hl, hpl⟩ := hc.hierarchy.top p hminted hne
  rw [BoundedVec.tryFrom_eq_some hstored]
  refine ⟨l, hl, hL, hpl, ?_⟩
  rw [childNode_eq hchild, hpl]
  rfl

/-- An offer is no holding yet. -/
theorem offerSubdomain_sound (hc : Consistent T L s) {label : Bytes} {target : MultiAddress}
    (hL : toAsciiLowercase label ∈ L) (h : offerSubdomain s o label target = .ok s') :
    Sound L s o (.offerSubdomain label target) s' := by
  obtain ⟨who, dest, p, i, c, stored, -, -, -, hi, -, hchild, hstored, hoffer⟩ :=
    offerSubdomain_eq_ok h
  obtain ⟨horigin, hnew, info, hinfo, -, heq⟩ := offerSubname_eq hoffer
  have hname := offered_subnameOf hc hL horigin hchild hstored
  have hown : s'.nft.ownerOf = s.nft.ownerOf := by
    rw [heq]
    exact setChildren_ownerOf hinfo
  refine .quiet rfl (hc.offerSubname hname hi hoffer) ?_ (.of_held ?_ ?_)
  · -- the new record is offered, so it has no holder yet
    rw [heq] at hown ⊢
    ext1 <;> try rfl
    · funext m
      show (if m = T.baseNode then none else NftStorage.ownerOf _ m) = _
      rw [hown]
      rfl
    · funext m
      show RegistryStorage.activeOf _ m = s.registry.activeOf m
      by_cases hm : m = c
      · simp [RegistryStorage.activeOf, hm, hnew]
      · simp [RegistryStorage.activeOf, hm]
  · rw [heq]
    exact fun _ _ ht _ => ht
  · rw [hown]
    exact fun _ _ hm => hm

/-- Accepting an offer makes the subname a holding, for an account that is free. -/
theorem acceptSubdomain_sound (hcf : CollisionFree T.keccak256 T.baseNode L)
    (hc : Consistent T L s) {parent label : Bytes}
    (h : acceptSubdomain s o parent label = .ok s') :
    Sound L s o (.acceptSubdomain parent label) s' := by
  obtain ⟨who, p, c, i, s₁, q, v, rfl, -, -, -, -, haccept, hv, rfl⟩ := acceptSubdomain_eq_ok h
  have hc₁ := hc.acceptSubnameOffer haccept
  obtain ⟨hvalid, hheld, d, hd, hs, rfl, rfl⟩ := acceptSubnameOffer_eq haccept
  have hsub := hc.indexed.named c d hd
  have hunnamed : Unnamed s d.target := ⟨hasValidCanonicalName_eq_false.mp hvalid, hheld⟩
  refine .single (.acceptSub c d.target) (hc₁.congr rfl rfl rfl) ?_
    ⟨hunnamed.free hc.indexed, ?_, ?_⟩ .acceptSubdomain (.of_held ?_ fun _ _ hm => hm)
  · ext1 <;> try rfl
    · funext m
      show RegistryStorage.activeOf _ m
        = Function.update (view s).active c (some d.target) m
      rw [Function.update_apply]
      by_cases hm : m = c
      · simp [RegistryStorage.activeOf, hm]
      · simp [RegistryStorage.activeOf, view, hm]
    · funext k
      show Resolvers.anchorOf v k
        = Function.update (view s).anchor c (some d.target.encode) k
      rw [Resolvers.setSs58Record_anchorOf hv, Function.update_apply]
      rfl
  · exact hc.view_unowned hcf d.parent c ((hc.indexed.index _ c).mpr ⟨d, hd, rfl⟩)
  · simp [view, RegistryStorage.activeOf, hd, hs]
  · intro t m ht htop
    have hm : m ≠ c := by
      rintro rfl
      exact hsub.not_topLevel hcf htop
    have hkey : (t, m) ≠ (d.target, c) := fun heq => hm (Prod.mk.inj heq).2
    simpa [hkey] using ht

/-- A rejected offer was no holding. -/
theorem rejectSubdomain_sound (hc : Consistent T L s) {parent label : Bytes}
    (h : rejectSubdomain s o parent label = .ok s') :
    Sound L s o (.rejectSubdomain parent label) s' := by
  obtain ⟨who, p, c, -, -, -, hreject⟩ := rejectSubdomain_eq_ok h
  have hc' := hc.rejectSubnameOffer hreject
  obtain ⟨d, hd, hs, rfl, rfl⟩ := rejectSubnameOffer_eq hreject
  refine .quiet rfl hc' ?_ (.of_held (fun _ _ ht _ => ht) fun _ _ hm => hm)
  ext1 <;> try rfl
  funext m
  show RegistryStorage.activeOf _ m = s.registry.activeOf m
  by_cases hm : m = c
  · simp [RegistryStorage.activeOf, hm, hd, hs]
  · simp [RegistryStorage.activeOf, hm]

/-- A subname that is withdrawn takes its entry with it. -/
theorem Withdrawn.entries {d : SubnameRecord} (hw : Withdrawn c d s s') :
    Entries L s s' := by
  obtain ⟨info, hinfo, -, hnft⟩ := subChildren_eq hw.counter
  refine .of_held (fun t m ht _ => ?_) (fun m _ hm => ?_)
  · rw [hw.forgets.accountToSubnames] at ht
    split at ht
    · cases ht
    · exact ht
  · rw [hnft, setChildren_ownerOf hinfo]
    exact hm

/-- The parent can take a subname back at any time. -/
theorem revokeSubdomain_sound (hcf : CollisionFree T.keccak256 T.baseNode L)
    (hc : Consistent T L s) {label : Bytes} (h : revokeSubdomain s o label = .ok s') :
    Sound L s o (.revokeSubdomain label) s' := by
  obtain ⟨who, p, c, -, -, -, hrevoke⟩ := revokeSubdomain_eq_ok h
  obtain ⟨d, -, hw⟩ := revokeSubname_withdrawn hcf hc.indexed hrevoke
  exact .single (.drop _) (hw.consistent hc) hw.view_eq (hw.unowned hcf hc) (.quiet rfl)
    hw.entries

/-- A holder gives its subname up. -/
theorem releaseSubdomain_sound (hcf : CollisionFree T.keccak256 T.baseNode L)
    (hc : Consistent T L s) {parent label : Bytes}
    (h : releaseSubdomain s o parent label = .ok s') :
    Sound L s o (.releaseSubdomain parent label) s' := by
  obtain ⟨who, p, c, q, -, -, -, hrelease⟩ := releaseSubdomain_eq_ok h
  obtain ⟨d, -, -, hw⟩ := releaseSubname_withdrawn hcf hc.indexed hrelease
  exact .single (.drop _) (hw.consistent hc) hw.view_eq (hw.unowned hcf hc) (.quiet rfl)
    hw.entries

/-! ## Gifts and sales -/

/-- An accepted gift becomes the primary name of its recipient. That the recipient still
owns it is not asked. -/
theorem acceptOfferedName_sound (hcf : CollisionFree T.keccak256 T.baseNode L)
    (hc : Consistent T L s) {name : Bytes} (hL : toAsciiLowercase name ∈ L)
    (h : acceptOfferedName s o name = .ok s') :
    Sound L s o (.acceptOfferedName name) s' := by
  obtain ⟨who, n, offer, i, primary, v₁, v₂, rfl, hn, hoffer, hrecip, -, -, hunnamed, hprimary,
    hv₁, hv₂, rfl⟩ := acceptOfferedName_eq_ok h
  have htop := topLevelNode_topLevel hn hL
  have hgift : (view s).gift n = some who := view_gift_eq_some.mpr ⟨offer, hoffer, hrecip⟩
  refine .single (.acceptGift n who) (hc.congr rfl rfl rfl) ?_
    ⟨hgift, hunnamed.free hc.indexed, hc.view_active_top hcf htop⟩ (.acceptOfferedName hn)
    (.of_held (fun _ _ ht _ => ht) fun _ _ hm => hm)
  ext1 <;> try rfl
  · funext x
    show (primary.insert who n).get x = Function.update (view s).primary who (some n) x
    have hx : (view s).primary x = s.registrar.ownerToPrimaryName.get x := rfl
    rw [StorageMap.get_insert, hprimary, Function.update_apply, hx]
    grind
  · exact StorageMap.map_get_remove s.registrar.offeredNames OfferedNameRecord.recipient n
  · funext k
    show Resolvers.anchorOf v₂ k = Function.update (view s).anchor n (some who.encode) k
    rw [Resolvers.setOriginRecord_anchorOf hv₂, Resolvers.setSs58Record_anchorOf hv₁,
      Function.update_apply]
    rfl

/-- A direct sale moves the name and its pointer to the buyer. -/
theorem transferName_spec (hcf : CollisionFree T.keccak256 T.baseNode L)
    (hc : Consistent T L s) (h : transferName s a b n = .ok s') :
    Consistent T L s' ∧ Entries L s s' ∧
      (Op.move n a b (childOf s.registry n)).Enabled (view s) ∧
      view s' = (Op.move n a b (childOf s.registry n)).apply AccountId.encode (view s) := by
  obtain ⟨primary, primary', s₁, hunnamed, hprimary, hmove, hprimary', rfl⟩ :=
    transferName_eq_ok h
  have hc₀ := hc.setPrimary primary
  obtain ⟨⟨hown, hlive, hact, hsubs⟩, hview⟩ := view_doTransfer hcf hc₀ hmove
  have hreg := doTransfer_registrar hmove
  refine ⟨(hc₀.doTransfer hcf hmove).congr rfl rfl rfl,
    (doTransfer_entries hcf hc₀ hmove :),
    ⟨hown, hlive, hunnamed.free hc.indexed, hact, hsubs⟩, ?_⟩
  have hptr : (primary'.insert b n).get
      = Function.update ((view s).unpoint a n) b (some n) := by
    funext x
    have hx : (view s).primary x = s.registrar.ownerToPrimaryName.get x := rfl
    rw [StorageMap.get_insert, hprimary', hreg, hprimary, Function.update_apply,
      Book.unpoint, hx]
    grind
  show { view s₁ with primary := (primary'.insert b n).get } = _
  rw [hview, hptr]
  rfl

/-- A gift purchase moves the name to the recipient, pending acceptance. -/
theorem offerBoughtName_spec (hcf : CollisionFree T.keccak256 T.baseNode L)
    (hc : Consistent T L s) {buyer : AccountId}
    (h : offerBoughtName s a buyer b n = .ok s') :
    Consistent T L s' ∧ Entries L s s' ∧
      (Op.bestow n a b (childOf s.registry n)).Enabled (view s) ∧
      view s' = (Op.bestow n a b (childOf s.registry n)).apply AccountId.encode (view s) := by
  obtain ⟨primary, s₁, hnone, hunnamed, hmove, hprimary, rfl⟩ := offerBoughtName_eq_ok h
  obtain ⟨⟨hown, hlive, hact, hsubs⟩, hview⟩ := view_doTransfer hcf hc hmove
  have hreg := doTransfer_registrar hmove
  have hgift : (view s).gift n = none := view_gift_eq_none (by simpa using hnone)
  refine ⟨(hc.doTransfer hcf hmove).congr rfl rfl rfl, (doTransfer_entries hcf hc hmove :),
    ⟨hown, hlive, hunnamed.free hc.indexed, hgift, hact, hsubs⟩, ?_⟩
  have hptr : primary.get = (view s).unpoint a n := by
    funext x
    have hx : (view s).primary x = s.registrar.ownerToPrimaryName.get x := rfl
    rw [hprimary, hreg, Book.unpoint, hx]
  have hgifts : (fun m => ((s₁.registrar.offeredNames.insert n
        { buyer := buyer, recipient := b }).get m).map OfferedNameRecord.recipient)
      = Function.update (view s).gift n (some b) := by
    rw [hreg]
    exact StorageMap.map_get_insert _ _ n _
  show { view s₁ with
    primary := primary.get
    gift := fun m => ((s₁.registrar.offeredNames.insert n
      { buyer := buyer, recipient := b }).get m).map OfferedNameRecord.recipient } = _
  rw [hview, hptr, hgifts]
  rfl

theorem Consistent.settle (hc : Consistent T L s) (balances : T.Ledger)
    (listings : StorageMap DomainHash Listing) :
    Consistent T L { s with balances := balances, listings := listings } :=
  hc.congr rfl rfl rfl

/-- Anchoring the name at the buyer once more changes no anchor. -/
theorem reanchor_view {v : ResolversStorage T} (hanchor : (view s).anchor n = some b.encode)
    (hv : ∀ k, Resolvers.anchorOf v k
      = if k = n then some b.encode else Resolvers.anchorOf s.resolvers k) :
    view { s with resolvers := v } = view s := by
  ext1 <;> try rfl
  funext k
  show Resolvers.anchorOf v k = (view s).anchor k
  rw [hv]
  split
  · next hk => rw [hk, hanchor]
  · rfl

/-- A purchase hands the name to the buyer, or to the recipient as a pending gift. -/
theorem buyName_sound (hcf : CollisionFree T.keccak256 T.baseNode L)
    (hc : Consistent T L s) {name : Bytes} {recipient : Option AccountId}
    (h : Marketplace.buyName s o name recipient = .ok s') :
    Sound L s o (.buyName name recipient) s' := by
  obtain ⟨buyer, n, listing, balances, rfl, hn, hlisting, -, hexpires, -, hsettled, h⟩ :=
    buyName_eq_ok h
  obtain ⟨paid, -, hpaid, -⟩ := hsettled
  have hc₁ := hc.settle balances (s.listings.remove n)
  rcases deliver_cases h with ⟨recip, rfl, hdeliver⟩ | ⟨rfl, s₂, v₁, v₂, hdeliver, hv₁, hv₂, rfl⟩
  · obtain ⟨hc', hent, hen, hview⟩ := offerBoughtName_spec hcf hc₁ hdeliver
    exact .single _ hc' hview hen (.buyGift hn hlisting hexpires hpaid) hent
  · -- a direct sale: the marketplace anchors the name once more, at the same account
    obtain ⟨hc', hent, hen, hview⟩ := transferName_spec hcf hc₁ hdeliver
    have hanchor : (view s₂).anchor n = some buyer.encode := by
      rw [hview]
      simp [Op.apply, Book.handTo]
    refine .single _ (hc'.congr rfl rfl rfl) ((reanchor_view hanchor fun k => ?_).trans hview)
      hen (.buyName hn hlisting hexpires hpaid) hent
    exact (Resolvers.rehosted hv₁ hv₂).anchorOf k

/-! ## Registration -/

/-- Registering a vacant name for an account that may take one. -/
theorem registerName_spec (hcf : CollisionFree T.keccak256 T.baseNode L)
    (hc : Consistent T L s) {name : Bytes} (hL : toAsciiLowercase name ∈ L)
    (h : registerName s who name dest = .ok s') :
    ∃ n e, topLevelNode T name = .ok n ∧ Consistent T L s' ∧ Entries L s s' ∧
      (∀ m, (s.nft.ownerOf m).isSome = true → (s'.nft.ownerOf m).isSome = true) ∧
      (Op.claim n dest e (childOf s.registry n)).Enabled (view s) ∧
      view s'
        = (Op.claim n dest e (childOf s.registry n)).apply AccountId.encode (view s) := by
  obtain ⟨n, fee, expire, primary, s₁, v₁, v₂, hr, rfl⟩ := registerName_eq_ok h
  obtain ⟨official, -, hmint⟩ := hr.mint
  have htop := topLevelNode_topLevel hr.node hL
  have hne := htop.ne_base hcf
  have hc₀ := hc.setPrimary primary
  have hi := mintSubname_issued hcf hc₀ htop hmint
  generalize registrationInfo _ n fee expire name.length = info at hi
  have hunnamed : Unnamed s dest := ⟨hr.stale, hasActiveSubname_eq_false.mp hr.held⟩
  have hmono : ∀ m, (s.nft.ownerOf m).isSome = true → (s₁.nft.ownerOf m).isSome = true := by
    intro m hm
    rw [hi.ownerOf]
    split
    · rfl
    · exact hm
  refine ⟨n, (graceEnd T info).toNat, hr.node, (hi.consistent hcf htop hc₀).congr rfl rfl rfl,
    ?_, hmono, ⟨hunnamed.free hc.indexed, ?_, hc.view_active_top hcf htop,
      hc.view_unowned hcf n⟩, ?_⟩
  · -- the one new entry is for the name, which is minted
    intro t m ht _
    rcases hi.held t m ht with rfl | hold
    · left
      show (s₁.nft.ownerOf m).isSome = true
      rw [hi.ownerOf, if_pos rfl]
      rfl
    · by_cases hmt : s.nft.ownerOf m = some t
      · exact Or.inl (hmono m (by rw [hmt]; rfl))
      · exact Or.inr ⟨hold, hmt⟩
  · -- what can be minted is missing, or past its grace period
    rcases hi.vacant with hnone | hdead
    · left
      rw [view_owner hne]
      exact hnone
    · right
      rw [view_live]
      exact Bool.eq_false_iff.mp hdead
  · ext1
    · exact congrArg UInt64.toNat hi.now
    · exact view_owner_update hne hi.ownerOf
    · show (fun m => (s₁.registrar.registrarInfos.get m).map _) = _
      rw [hi.registrarInfos]
      exact StorageMap.map_get_insert _ _ n info
    · funext x
      show (s₁.registrar.ownerToPrimaryName.insert dest n).get x
        = Function.update ((view s).unpointOwner n) dest (some n) x
      have hx : (view s).primary x = s.registrar.ownerToPrimaryName.get x := rfl
      rw [StorageMap.get_insert, hi.primary, hr.pointers, Function.update_apply,
        Book.unpointOwner, view_owner hne, hx]
      grind
    · funext m
      show (s₁.registrar.offeredNames.get m).map _ = (view s).gift m
      rw [hi.offeredNames]
      rfl
    · funext m
      exact activeOf_of_records hi.subnameRecords m
    · funext k
      show Resolvers.anchorOf v₂ k
        = Function.update ((view s).dropSubs (childOf s.registry n)).anchor n
            (some dest.encode) k
      rw [Resolvers.setOriginRecord_anchorOf hr.origin, Resolvers.setSs58Record_anchorOf hr.ss58,
        Function.update_apply]
      split
      · rfl
      · next hk => exact hi.anchorOf k hk

/-- The `reject_offer` phase burns a gift or revokes an offer. -/
theorem rejectPendingOffer_spec (hcf : CollisionFree T.keccak256 T.baseNode L)
    (hc : Consistent T L s) {rejectOffer : Option Bytes}
    (h : rejectPendingOffer s who rejectOffer = .ok s') :
    Consistent T L s' ∧ Entries L s s' ∧
      ∃ ops, Rejects s who rejectOffer ops ∧
        Runs AccountId.encode (view s) ops (view s') := by
  cases rejectPendingOffer_eq_ok h with
  | none heq =>
    rw [heq]
    exact ⟨hc, .of_held (fun _ _ ht _ => ht) (fun _ _ hm => hm), [], .none, .nil _⟩
  | offer hn hoffer _ _ _ hrevoke =>
    obtain ⟨d', -, hw⟩ := revokeSubname_withdrawn hcf hc.indexed hrevoke
    exact ⟨hw.consistent hc, hw.entries, [.drop _], .offer hn hoffer,
      .single (hw.unowned hcf hc) hw.view_eq⟩
  | @gift name n offer hn hoffer hrecip hburn =>
    -- the gift is taken first, so the burn runs in a state without it
    have hc₀ : Consistent T L { s with
        registrar.offeredNames := s.registrar.offeredNames.remove n } :=
      hc.congr rfl rfl rfl
    obtain ⟨⟨hown, hact, hsubs⟩, hview⟩ := view_doBurn hcf hc₀ hburn
    have hgift : (view s).gift n = some who :=
      view_gift_eq_some.mpr ⟨offer, hoffer, hrecip⟩
    have hgifts : (fun m => ((s.registrar.offeredNames.remove n).get m).map
        OfferedNameRecord.recipient) = Function.update (view s).gift n none :=
      StorageMap.map_get_remove _ _ n
    have heq : view s' = (Op.rejectGift n who (childOf s.registry n)).apply
        AccountId.encode (view s) := by
      rw [hview]
      show Book.vacate { view s with gift := fun m =>
        ((s.registrar.offeredNames.remove n).get m).map OfferedNameRecord.recipient } n _ = _
      rw [hgifts]
      rfl
    exact ⟨hc₀.doBurn hcf hburn, (doBurn_entries hcf hc₀ hburn :), [.rejectGift n who _],
      .gift hn hoffer, .single ⟨hown, hgift, hact, hsubs⟩ heq⟩

/-- A registration is the rejection, if there is one, and then a claim. -/
theorem register_sound (hcf : CollisionFree T.keccak256 T.baseNode L)
    (hc : Consistent T L s) {name : Bytes} {owner : MultiAddress} {rejectOffer : Option Bytes}
    (hL : toAsciiLowercase name ∈ L) (h : register s o name owner rejectOffer = .ok s') :
    Sound L s o (.register name owner rejectOffer) s' := by
  obtain ⟨who, dest, s₁, rfl, rfl, hreject, hregister⟩ := register_eq_ok h
  obtain ⟨hc₁, hent₁, ops, hrejects, hrun⟩ := rejectPendingOffer_spec hcf hc hreject
  obtain ⟨n, e, hn, hc₂, hent₂, hmono, hen, hview⟩ :=
    registerName_spec hcf hc₁ hL hregister
  refine ⟨hc₂, ⟨_, .register hn hrejects, hrun.append (.single hen hview)⟩, ?_⟩
  intro t m ht htop
  rcases hent₂ t m ht htop with hminted | ⟨hheld, -⟩
  · exact Or.inl hminted
  · rcases hent₁ t m hheld htop with hminted | hold
    · exact Or.inl (hmono m hminted)
    · exact Or.inr hold

/-- A renewal moves the end of the grace period. -/
theorem renew_sound (hc : Consistent T L s) (h : renew s o = .ok s') :
    Sound L s o .renew s' := by
  obtain ⟨who, n, i, price, balances, expire, rfl, hn, hi, hle, -, -, -, rfl⟩ := renew_eq_ok h
  have hcap : ({ i with expire := expire } : RegistrarInfo).capacity = i.capacity := rfl
  refine .single (.renew n (graceEnd T { i with expire := expire }).toNat)
    (hc.rewriteInfo hi hcap balances _) ?_ ?_ (.renew hn)
    (.of_held (fun _ _ ht _ => ht) fun _ _ hm => hm)
  · ext1 <;> try rfl
    exact StorageMap.map_get_insert s.registrar.registrarInfos _ n _
  · exact view_live.mpr (stillValid_iff.mpr ⟨i, hi, hle⟩)

/-! ## The other calls -/

/-- The official account has the base node, which is no holding. -/
theorem setOfficial_sound (hc : Consistent T L s) (hcf : CollisionFree T.keccak256 T.baseNode L)
    (h : setOfficial s o b = .ok s') : Sound L s o (.setOfficial b) s' := by
  have hc' := hc.setOfficial h
  obtain ⟨old, nft, hmove, rfl⟩ := setOfficial_eq hc h
  have hown := setOfficial_ownerOf hmove
  refine .quiet rfl hc' ?_ (.of_held (fun _ _ ht _ => ht) fun m htop hm => ?_)
  · ext1 <;> try rfl
    funext m
    show (if m = T.baseNode then none else (setClassOwner nft b).ownerOf m) = _
    rw [hown]
    split
    · next hm => exact (if_pos hm).symm
    · next hm => exact (if_neg hm).symm
  · rw [hown, if_neg (htop.ne_base hcf)]
    exact hm

theorem addReserved_sound (hc : Consistent T L s) {name : Bytes}
    (h : addReserved s o name = .ok s') : Sound L s o (.addReserved name) s' := by
  obtain ⟨n, -, rfl⟩ := addReserved_eq_ok h
  exact .frame rfl hc rfl rfl rfl rfl

theorem removeReserved_sound (hc : Consistent T L s) {name : Bytes}
    (h : removeReserved s o name = .ok s') : Sound L s o (.removeReserved name) s' := by
  obtain ⟨n, -, rfl⟩ := removeReserved_eq_ok h
  exact .frame rfl hc rfl rfl rfl rfl

/-- Records other than the anchors are no holdings, and the anchors are protected. -/
theorem setRecord_sound (hc : Consistent T L s) {name : Bytes} {recordType : RecordType}
    {content : Content T}
    (h : Resolvers.setRecord checkNodeUseable s o name recordType content = .ok s') :
    Sound L s o (.setRecord name recordType content) s' := by
  obtain ⟨who, n, -, hss58, -, -, -, rfl⟩ := setRecord_eq_ok h
  refine .frame rfl hc rfl rfl rfl ?_
  -- `SS58` is protected, so no anchor is written
  ext1 <;> try rfl
  funext k
  show ((s.resolvers.records.insert (n, recordType) content).get (k, .SS58)).map _ = _
  rw [StorageMap.get_insert, if_neg fun heq => hss58 (Prod.mk.inj heq).2.symm]
  rfl

theorem setText_sound (hc : Consistent T L s) {name : Bytes} {kind : TextKind}
    {content : Content T}
    (h : Resolvers.setText checkNodeUseable s o name kind content = .ok s') :
    Sound L s o (.setText name kind content) s' := by
  obtain ⟨who, n, -, -, -, rfl⟩ := setText_eq_ok h
  exact .frame rfl hc rfl rfl rfl rfl

theorem createListing_sound (hc : Consistent T L s) {price : Balance} {expiresAt : Moment}
    (h : Marketplace.createListing s o price expiresAt = .ok s') :
    Sound L s o (.createListing price expiresAt) s' := by
  obtain ⟨who, n, -, -, -, -, rfl⟩ := createListing_eq_ok h
  exact .frame rfl hc rfl rfl rfl rfl

theorem cancelListing_sound (hc : Consistent T L s)
    (h : Marketplace.cancelListing s o = .ok s') : Sound L s o .cancelListing s' := by
  obtain ⟨who, n, -, -, -, rfl⟩ := cancelListing_eq_ok h
  exact .frame rfl hc rfl rfl rfl rfl

theorem setExchangeRate_sound (hc : Consistent T L s) {rate : Balance}
    (h : PriceOracle.setExchangeRate s o rate = .ok s') :
    Sound L s o (.setExchangeRate rate) s' := by
  obtain ⟨manager, -, rfl⟩ := setExchangeRate_eq_ok h
  exact .frame rfl hc rfl rfl rfl rfl

theorem setBasePrice_sound (hc : Consistent T L s) {prices : Vector Balance 11}
    (h : PriceOracle.setBasePrice s o prices = .ok s') :
    Sound L s o (.setBasePrice prices) s' := by
  obtain rfl := setBasePrice_eq_ok h
  exact .frame rfl hc rfl rfl rfl rfl

theorem setRentPrice_sound (hc : Consistent T L s) {prices : Vector Balance 11}
    (h : PriceOracle.setRentPrice s o prices = .ok s') :
    Sound L s o (.setRentPrice prices) s' := by
  obtain rfl := setRentPrice_eq_ok h
  exact .frame rfl hc rfl rfl rfl rfl

/-! ## Every extrinsic, every state -/

/-- On a consistent state every successful extrinsic is sound. -/
theorem dispatch_sound (hcf : CollisionFree T.keccak256 T.baseNode L)
    (hc : Consistent T L s) (hL : ∀ l ∈ call.labels, l ∈ L)
    (h : dispatch s o call = .ok s') : Sound L s o call s' := by
  cases call with
  | addReserved name => exact addReserved_sound hc h
  | removeReserved name => exact removeReserved_sound hc h
  | register name owner rejectOffer =>
    exact register_sound hcf hc (hL _ List.mem_cons_self) h
  | renew => exact renew_sound hc h
  | transfer address => exact transfer_sound hcf hc h
  | releaseName => exact releaseName_sound hcf hc h
  | offerSubdomain label target =>
    exact offerSubdomain_sound hc (hL _ List.mem_cons_self) h
  | acceptSubdomain parent label => exact acceptSubdomain_sound hcf hc h
  | rejectSubdomain parent label => exact rejectSubdomain_sound hc h
  | revokeSubdomain label => exact revokeSubdomain_sound hcf hc h
  | releaseSubdomain parent label => exact releaseSubdomain_sound hcf hc h
  | acceptOfferedName name =>
    exact acceptOfferedName_sound hcf hc (hL _ List.mem_cons_self) h
  | burn name => exact burn_sound hcf hc h
  | setOfficial official => exact setOfficial_sound hc hcf h
  | setRecord name recordType content => exact setRecord_sound hc h
  | setText name kind content => exact setText_sound hc h
  | createListing price expiresAt => exact createListing_sound hc h
  | cancelListing => exact cancelListing_sound hc h
  | buyName name recipient => exact buyName_sound hcf hc h
  | setExchangeRate rate => exact setExchangeRate_sound hc h
  | setBasePrice prices => exact setBasePrice_sound hc h
  | setRentPrice prices => exact setRentPrice_sound hc h

/-- Extrinsics do not move the time. -/
theorem performs_now {ops : List NameOp}
    {h' : Book AccountId DomainHash Nat Bytes} (hp : Performs s o call ops)
    (hruns : Runs AccountId.encode (view s) ops h') : h'.now = (view s).now := by
  cases hp with
  | register hn hrej =>
    obtain ⟨h₁, hfirst, -, rfl⟩ := hruns.of_concat
    cases hrej with
    | none =>
      cases hfirst
      exact Op.now_kept (by simp)
    | gift | offer =>
      obtain ⟨-, rfl⟩ := hfirst.of_single
      exact (Op.now_kept (by simp)).trans (Op.now_kept (by simp))
  | renew | transfer | releaseName | burn | acceptSubdomain | acceptOfferedName | buyName
  | buyGift | quiet =>
    obtain ⟨-, rfl⟩ := hruns.of_single
    exact Op.now_kept (by simp)

/-- No call moves the clock. -/
theorem Sound.now (h : Sound L s o call s') : s'.now = s.now := by
  obtain ⟨ops, hp, hruns⟩ := h.performs
  exact UInt64.toNat_inj.mp (performs_now hp hruns)

end PnsPallets
