import PnsPallets.Refinement
import PnsPallets.ZoneView

/-!
# The runtime edits its zone

Which edits of the zone each extrinsic makes (`Makes`), with what the call checked
before it made them, and the theorem that this is what it does: on a consistent
state every successful extrinsic leads from the old zone to the new one by the
listed edits, each enabled (`dispatch_edits`).

`register` makes up to two edits, the retraction of a pending offer and the issue
of the name; all other extrinsics make at most one.
-/

namespace PnsPallets

open Frame Registry Registrar Zones

variable {T : Config}

/-! ## What the calls edit -/

/-- What the `reject_offer` phase of a registration edits. -/
inductive Retracts (s : State T) (who : AccountId) :
    Option Bytes → List NameEdit → Prop where
  | none : Retracts s who none []
  | gift {name : Bytes} {r : DomainHash} {offer : OfferedNameRecord} :
      parseNameToNode T.keccak256 name T.baseNode = some r →
      s.registrar.offeredNames.get r = some offer → offer.recipient = who →
      Retracts s who (some name) [.vacate r who]
  | offer {name : Bytes} {r : DomainHash} {d : SubnameRecord} :
      parseNameToNode T.keccak256 name T.baseNode = some r →
      s.registry.subnameRecords.get r = some d → d.state = .offered → d.target = who →
      Retracts s who (some name) [.withdraw r]

/-- The calls that leave the zone alone. -/
def Call.isSilent : Call T → Bool
  | .addReserved _ | .removeReserved _ | .renew | .setOfficial _ | .createListing _ _
  | .cancelListing | .setExchangeRate _ | .setBasePrice _ | .setRentPrice _ => true
  | .register _ _ _ | .transfer _ | .releaseName | .offerSubdomain _ _
  | .acceptSubdomain _ _ | .rejectSubdomain _ _ | .revokeSubdomain _
  | .releaseSubdomain _ _ | .acceptOfferedName _ | .burn _ | .setRecord _ _ _
  | .setText _ _ _ | .buyName _ _ => false

/-- What a successful extrinsic edits, and what it checked. -/
inductive Makes (s : State T) : Origin → Call T → List NameEdit → Prop where
  | register {who dest : AccountId} {name : Bytes} {rejectOffer : Option Bytes}
      {n : DomainHash} {retracted : List NameEdit} :
      topLevelNode T name = .ok n → Retracts s who rejectOffer retracted →
      Makes s (.signed who) (.register name (.id dest) rejectOffer)
        (retracted ++ [.issue n dest (Resolvers.anchors dest s.parentHash)])
  | transfer {who dest : AccountId} {n : DomainHash} :
      s.registrar.ownerToPrimaryName.get who = some n →
      Makes s (.signed who) (.transfer (.id dest))
        [.handOver n who dest (Resolvers.anchors dest s.parentHash)]
  | buyName {buyer : AccountId} {name : Bytes} {recipient : Option AccountId}
      {n : DomainHash} {listing : Listing} :
      Marketplace.listedNode T name = .ok n → s.listings.get n = some listing →
      Makes s (.signed buyer) (.buyName name recipient)
        [.handOver n listing.seller (recipient.getD buyer)
          (Resolvers.anchors (recipient.getD buyer) s.parentHash)]
  | releaseName {who : AccountId} {n : DomainHash} :
      s.registrar.ownerToPrimaryName.get who = some n →
      Makes s (.signed who) .releaseName [.vacate n who]
  | burn {who : AccountId} {name : Bytes} {n : DomainHash} :
      parseNameToNode T.keccak256 name T.baseNode = some n →
      Makes s (.signed who) (.burn name) [.vacate n who]
  | acceptOfferedName {who : AccountId} {name : Bytes} {n : DomainHash} :
      topLevelNode T name = .ok n →
      Makes s (.signed who) (.acceptOfferedName name)
        [.anchor n (Resolvers.anchors who s.parentHash)]
  | offerSubdomain {who target : AccountId} {label : Bytes} {stored : BoundedVec 63}
      {p c : DomainHash} {info : RegistrarInfo} :
      s.registrar.ownerToPrimaryName.get who = some p →
      s.registrar.registrarInfos.get p = some info → s.now < info.expire →
      childNode T p label = .ok c → BoundedVec.tryFrom 63 label = some stored →
      Makes s (.signed who) (.offerSubdomain label (.id target))
        [.offer c ⟨p, stored, target, .offered⟩]
  | acceptSubdomain {who : AccountId} {parent label : Bytes} {c : DomainHash}
      {d : SubnameRecord} {info : RegistrarInfo} :
      topLevelNode T parent = .ok d.parent → childNode T d.parent label = .ok c →
      s.registry.subnameRecords.get c = some d →
      s.registrar.registrarInfos.get d.parent = some info → s.now < info.expire →
      Makes s (.signed who) (.acceptSubdomain parent label)
        [.accept c who (Resolvers.ss58 who)]
  | rejectSubdomain {who : AccountId} {parent label : Bytes} {c : DomainHash}
      {d : SubnameRecord} :
      topLevelNode T parent = .ok d.parent → childNode T d.parent label = .ok c →
      s.registry.subnameRecords.get c = some d →
      Makes s (.signed who) (.rejectSubdomain parent label) [.reject c who]
  | revokeSubdomain {who : AccountId} {label : Bytes} {c : DomainHash}
      {d : SubnameRecord} :
      s.registrar.ownerToPrimaryName.get who = some d.parent →
      childNode T d.parent label = .ok c → s.registry.subnameRecords.get c = some d →
      Makes s (.signed who) (.revokeSubdomain label) [.withdraw c]
  | releaseSubdomain {who : AccountId} {parent label : Bytes} {c : DomainHash}
      {d : SubnameRecord} :
      topLevelNode T parent = .ok d.parent → childNode T d.parent label = .ok c →
      s.registry.subnameRecords.get c = some d → d.state = .active → d.target = who →
      Makes s (.signed who) (.releaseSubdomain parent label) [.withdraw c]
  | setRecord {who : AccountId} {name : Bytes} {recordType : RecordType}
      {content : Content T} {n : DomainHash} :
      parseNameToNode T.keccak256 name T.baseNode = some n →
      recordType ≠ .SS58 → recordType ≠ .ORIGIN →
      Makes s (.signed who) (.setRecord name recordType content)
        [.setRecord n recordType content.val]
  | setText {who : AccountId} {name : Bytes} {kind : TextKind} {content : Content T}
      {n : DomainHash} :
      parseNameToNode T.keccak256 name T.baseNode = some n →
      Makes s (.signed who) (.setText name kind content) [.setText n kind content.val]
  | silent {o : Origin} {call : Call T} : call.isSilent = true → Makes s o call []

variable {L : Set Bytes} {s s' : State T} {a b who dest : AccountId} {n p c : DomainHash}
  {o : Origin} {call : Call T}

/-- The kinds the chain writes itself are never stored for an owner. -/
theorem Makes.spares {es : List NameEdit} {k : RecordType} (hk : k = .SS58 ∨ k = .ORIGIN)
    (h : Makes s o call es) : ∀ e ∈ es, e.Spares k := by
  cases h with
  | register _ hr =>
    cases hr <;> simp [Edit.Spares]
  | setRecord _ hss58 horigin =>
    rcases hk with rfl | rfl
    · simpa [Edit.Spares] using hss58
    · simpa [Edit.Spares] using horigin
  | _ => simp [Edit.Spares]

/-- Whatever the chain writes, it writes an SS58 record of 32 bytes. -/
theorem Makes.marks {es : List NameEdit} (h : Makes s o call es) :
    ∀ e ∈ es, e.Marks .SS58 fun v => v.length = 32 := by
  have hanchors : ∀ (x : AccountId) (origin : H256),
      ∃ v, Resolvers.anchors x origin .SS58 = some v ∧ v.length = 32 :=
    fun x _ => ⟨x.encode, rfl, x.length_eq⟩
  have hss58 : ∀ x : AccountId, ∃ v, Resolvers.ss58 x .SS58 = some v ∧ v.length = 32 :=
    fun x => ⟨x.encode, rfl, x.length_eq⟩
  cases h with
  | register _ hr =>
    cases hr <;> simp [Edit.Marks, Edit.table, hanchors]
  | _ => simp [Edit.Marks, Edit.table, hanchors, hss58]

/-- The extrinsic leads from the zone of `s` to that of `s'`. -/
def Edits (s : State T) (o : Origin) (call : Call T) (s' : State T) : Prop :=
  ∃ es, Makes s o call es ∧ Leads (zone s) es (zone s')

theorem Edits.single {e : NameEdit} (hm : Makes s o call [e]) (hen : e.Enabled (zone s))
    (heq : zone s' = e.apply (zone s)) : Edits s o call s' :=
  ⟨[e], hm, .single hen heq⟩

theorem Edits.silent (hs : call.isSilent = true) (heq : zone s' = zone s) :
    Edits s o call s' :=
  ⟨[], .silent hs, heq ▸ .nil _⟩

/-! ## Burning and handing over -/

/-- A burn vacates the name. -/
theorem burn_edits (hcf : CollisionFree T.keccak256 T.baseNode L) (hc : Consistent T L s)
    {name : Bytes} (h : Registry.burn s o name = .ok s') : Edits s o (.burn name) s' := by
  obtain ⟨who, n, rfl, hn, hburn⟩ := burn_eq_ok h
  obtain ⟨hen, heq⟩ := zone_doBurn hcf hc hburn
  exact .single (.burn hn) hen heq

theorem releaseName_edits (hcf : CollisionFree T.keccak256 T.baseNode L)
    (hc : Consistent T L s) (h : releaseName s o = .ok s') : Edits s o .releaseName s' := by
  obtain ⟨who, n, rfl, hn, hburn⟩ := releaseName_eq_ok h
  obtain ⟨hen, heq⟩ := zone_doBurn hcf (hc.setPrimary _) hburn
  exact .single (.releaseName hn) hen heq

/-- `has_active_subname` reads who is on record. -/
theorem zone_held_of_hasActiveSubname (h : hasActiveSubname s a = false) (m : DomainHash) :
    (zone s).held a m = false :=
  zone_held_eq_false.mpr (hasActiveSubname_eq_false.mp h m)

/-- A transfer hands the primary name over. -/
theorem transfer_edits (hcf : CollisionFree T.keccak256 T.baseNode L) (hc : Consistent T L s)
    {address : MultiAddress} (h : Registrar.transfer s o address = .ok s') :
    Edits s o (.transfer address) s' := by
  obtain ⟨who, dest, n, primary, s₁, rfl, rfl, hn, -, hunnamed, -, hmove, rfl⟩ :=
    registrarTransfer_eq_ok h
  obtain ⟨hown, heq⟩ := zone_doTransfer hcf (hc.setPrimary primary) hmove
  exact .single (.transfer hn) ⟨hown, fun m => zone_held_eq_false.mpr (hunnamed.held m)⟩ heq

/-- A direct sale hands the name over. -/
theorem zone_transferName (hcf : CollisionFree T.keccak256 T.baseNode L)
    (hc : Consistent T L s) (h : transferName s a b n = .ok s') :
    ((Edit.handOver n a b (Resolvers.anchors b s.parentHash) : NameEdit).Enabled (zone s) ∧
      zone s' = (Edit.handOver n a b (Resolvers.anchors b s.parentHash) : NameEdit).apply
        (zone s)) ∧ s'.parentHash = s.parentHash := by
  obtain ⟨primary, primary', s₁, hfree, -, hmove, -, rfl⟩ := transferName_eq_ok h
  obtain ⟨hown, heq⟩ := zone_doTransfer hcf (hc.setPrimary primary) hmove
  exact ⟨⟨⟨hown, fun m => zone_held_eq_false.mpr (hfree.held m)⟩, heq⟩,
    (congrArg State.parentHash (doTransfer_frame hmove) :)⟩

/-- A gift purchase hands the name over too. -/
theorem zone_offerBoughtName (hcf : CollisionFree T.keccak256 T.baseNode L)
    (hc : Consistent T L s) {buyer : AccountId}
    (h : offerBoughtName s a buyer b n = .ok s') :
    (Edit.handOver n a b (Resolvers.anchors b s.parentHash) : NameEdit).Enabled (zone s) ∧
      zone s' = (Edit.handOver n a b (Resolvers.anchors b s.parentHash) : NameEdit).apply
        (zone s) := by
  obtain ⟨primary, s₁, -, hfree, hmove, -, rfl⟩ := offerBoughtName_eq_ok h
  obtain ⟨hown, heq⟩ := zone_doTransfer hcf hc hmove
  exact ⟨⟨hown, fun m => zone_held_eq_false.mpr (hfree.held m)⟩, heq⟩

/-- A purchase hands the name to the buyer, or to the recipient. -/
theorem buyName_edits (hcf : CollisionFree T.keccak256 T.baseNode L) (hc : Consistent T L s)
    {name : Bytes} {recipient : Option AccountId}
    (h : Marketplace.buyName s o name recipient = .ok s') :
    Edits s o (.buyName name recipient) s' := by
  obtain ⟨buyer, n, listing, balances, rfl, hn, hlisting, -, -, -, -, h⟩ := buyName_eq_ok h
  have hc₁ := hc.settle balances (s.listings.remove n)
  rcases deliver_cases h with ⟨recip, rfl, hdeliver⟩ | ⟨rfl, s₂, v₁, v₂, hdeliver, hv₁, hv₂, rfl⟩
  · obtain ⟨hen, heq⟩ := zone_offerBoughtName hcf hc₁ hdeliver
    exact .single (.buyName hn hlisting) hen heq
  · obtain ⟨⟨hen, heq⟩, hhash⟩ := zone_transferName hcf hc₁ hdeliver
    refine .single (.buyName hn hlisting) hen ?_
    -- the records are cleared and anchored a second time, to the same effect
    have hhost := Resolvers.rehosted hv₁ hv₂
    rw [hhash] at hhost
    ext1
    · exact (congrArg Zone.owner heq :)
    · exact (congrArg Zone.delegation heq :)
    · exact (congrArg Zone.held heq :)
    · show Resolvers.recordOf v₂ = _
      rw [recordOf_rehosted hhost, show Resolvers.recordOf s₂.resolvers = _ from
        congrArg Zone.record heq]
      exact Function.update_idem _ _ _
    · exact (textOf_congr hhost.texts).trans (congrArg Zone.text heq :)

/-! ## Subnames -/

/-- An offer is made below the caller's primary name. -/
theorem offerSubdomain_edits (hcf : CollisionFree T.keccak256 T.baseNode L)
    (hc : Consistent T L s) {label : Bytes} {target : MultiAddress}
    (hL : toAsciiLowercase label ∈ L) (h : offerSubdomain s o label target = .ok s') :
    Edits s o (.offerSubdomain label target) s' := by
  obtain ⟨who, dest, p, i, c, stored, rfl, rfl, hp, hi, hlt, hchild, hstored, hoffer⟩ :=
    offerSubdomain_eq_ok h
  obtain ⟨horigin, hnew, -⟩ := offerSubname_eq hoffer
  have hname := offered_subnameOf hc hL horigin hchild hstored
  have hunowned : (zone s).owner c = none := by
    cases hown : (zone s).owner c with
    | none => rfl
    | some x =>
      obtain ⟨hne, hown⟩ := view_owner_eq_some.mp hown
      have htop := hc.hierarchy.top c (by rw [hown]; rfl) hne
      exact absurd htop (hname.not_topLevel hcf)
  exact .single (.offerSubdomain hp hi hlt hchild hstored)
    ⟨zone_delegation_eq_none.mpr hnew, hunowned, rfl⟩ (zone_offerSubname hoffer)

/-- The node of a subdomain call, from the labels of its arguments. -/
theorem childNode_sub {parent label : Bytes} (hp : topLevelNode T parent = .ok p)
    (hc : childNode T p label = .ok c) :
    c = (Name.sub (toAsciiLowercase parent) (toAsciiLowercase label)).node T.keccak256
      T.baseNode := by
  rw [childNode_eq hc, topLevelNode_eq hp]
  rfl

/-- The parent that the names of the arguments give is the one of the record. -/
theorem Consistent.parent_eq (hcf : CollisionFree T.keccak256 T.baseNode L)
    (hc : Consistent T L s) {parent label : Bytes} (hL : toAsciiLowercase parent ∈ L)
    (hL' : toAsciiLowercase label ∈ L) {d : SubnameRecord}
    (hd : s.registry.subnameRecords.get c = some d) (hp : topLevelNode T parent = .ok p)
    (hchild : childNode T p label = .ok c) : d.parent = p :=
  ((hc.indexed.named c d hd).parent_eq hcf hL hL' (childNode_sub hp hchild)).trans
    (topLevelNode_eq hp).symm

/-- An offer is accepted by the account it is for. -/
theorem acceptSubdomain_edits (hcf : CollisionFree T.keccak256 T.baseNode L)
    (hc : Consistent T L s) {parent label : Bytes} (hL : toAsciiLowercase parent ∈ L)
    (hL' : toAsciiLowercase label ∈ L) (h : acceptSubdomain s o parent label = .ok s') :
    Edits s o (.acceptSubdomain parent label) s' := by
  obtain ⟨who, p, c, i, s₁, q, v, rfl, hp, hchild, hi, hlt, haccept, hv, rfl⟩ :=
    acceptSubdomain_eq_ok h
  obtain ⟨-, -, d, hd, -⟩ := acceptSubnameOffer_eq haccept
  obtain rfl := hc.parent_eq hcf hL hL' hd hp hchild
  obtain ⟨hen, heq⟩ := zone_acceptSubnameOffer haccept hv
  exact .single (.acceptSubdomain hp hchild hd hi hlt) hen heq

theorem rejectSubdomain_edits (hcf : CollisionFree T.keccak256 T.baseNode L)
    (hc : Consistent T L s) {parent label : Bytes} (hL : toAsciiLowercase parent ∈ L)
    (hL' : toAsciiLowercase label ∈ L)
    (h : rejectSubdomain s o parent label = .ok s') :
    Edits s o (.rejectSubdomain parent label) s' := by
  obtain ⟨who, p, c, rfl, hp, hchild, hreject⟩ := rejectSubdomain_eq_ok h
  obtain ⟨d, hd, -⟩ := rejectSubnameOffer_eq hreject
  obtain rfl := hc.parent_eq hcf hL hL' hd hp hchild
  obtain ⟨hen, heq⟩ := zone_rejectSubnameOffer hreject
  exact .single (.rejectSubdomain hp hchild hd) hen heq

theorem revokeSubdomain_edits (hcf : CollisionFree T.keccak256 T.baseNode L)
    (hc : Consistent T L s) {label : Bytes} (h : revokeSubdomain s o label = .ok s') :
    Edits s o (.revokeSubdomain label) s' := by
  obtain ⟨who, p, c, rfl, hp, hchild, hrevoke⟩ := revokeSubdomain_eq_ok h
  obtain ⟨d, rfl, hw⟩ := revokeSubname_withdrawn hcf hc.indexed hrevoke
  obtain ⟨hen, heq⟩ := hw.zone_eq
  exact .single (.revokeSubdomain hp hchild hw.record) hen heq

theorem releaseSubdomain_edits (hcf : CollisionFree T.keccak256 T.baseNode L)
    (hc : Consistent T L s) {parent label : Bytes} (hL : toAsciiLowercase parent ∈ L)
    (hL' : toAsciiLowercase label ∈ L) (h : releaseSubdomain s o parent label = .ok s') :
    Edits s o (.releaseSubdomain parent label) s' := by
  obtain ⟨who, p, c, q, rfl, hp, hchild, hrelease⟩ := releaseSubdomain_eq_ok h
  obtain ⟨d, htarget, hstate, hw⟩ := releaseSubname_withdrawn hcf hc.indexed hrelease
  obtain rfl := hc.parent_eq hcf hL hL' hw.record hp hchild
  obtain ⟨hen, heq⟩ := hw.zone_eq
  exact .single (.releaseSubdomain hp hchild hw.record hstate htarget) hen heq

/-! ## Gifts and registrations -/

/-- Accepting a gift writes the anchors again; owners stay. -/
theorem acceptOfferedName_edits (hcf : CollisionFree T.keccak256 T.baseNode L)
    (hc : Consistent T L s) {name : Bytes} (hL : toAsciiLowercase name ∈ L)
    (h : acceptOfferedName s o name = .ok s') : Edits s o (.acceptOfferedName name) s' := by
  obtain ⟨who, n, offer, i, primary, v₁, v₂, rfl, hn, -, -, hi, -, -, -, hv₁, hv₂, rfl⟩ :=
    acceptOfferedName_eq_ok h
  have hne := (topLevelNode_topLevel hn hL).ne_base hcf
  have hminted : ((zone s).owner n).isSome = true := by
    rw [show (zone s).owner n = s.nft.ownerOf n from view_owner hne]
    exact ((hc.hierarchy.info n).mp (by rw [hi]; rfl)).2
  exact .single (.acceptOfferedName hn) hminted (zone_setAnchors hv₁ hv₂ :)

/-- The name is issued to its new owner. Where it had expired but not been burned, it is
handed over by that. -/
theorem zone_registerName (hcf : CollisionFree T.keccak256 T.baseNode L)
    (hc : Consistent T L s) {name : Bytes} (hL : toAsciiLowercase name ∈ L)
    (h : registerName s who name dest = .ok s') :
    ∃ n, topLevelNode T name = .ok n ∧
      (Edit.issue n dest (Resolvers.anchors dest s.parentHash) : NameEdit).Enabled (zone s) ∧
      zone s' = (Edit.issue n dest (Resolvers.anchors dest s.parentHash) : NameEdit).apply
        (zone s) := by
  obtain ⟨n, fee, expire, primary, s₁, v₁, v₂, hr, rfl⟩ := registerName_eq_ok h
  obtain ⟨official, -, hmint⟩ := hr.mint
  have htop := topLevelNode_topLevel hr.node hL
  have hc₀ := hc.setPrimary primary
  have hi := mintSubname_issued hcf hc₀ htop hmint
  have hz := zone_mintSubname hcf hc₀ htop hmint
  refine ⟨n, hr.node, ⟨hc.zone_delegation_top hcf htop, zone_held_of_hasActiveSubname hr.held⟩, ?_⟩
  have hanchor := zone_setAnchors (s := s₁) hr.ss58 hr.origin
  rw [hz, show s₁.parentHash = s.parentHash from hi.parentHash, Edit.anchor_issue] at hanchor
  exact hanchor

/-- The `reject_offer` phase burns a gift or withdraws an offered subname. -/
theorem zone_rejectPendingOffer (hcf : CollisionFree T.keccak256 T.baseNode L)
    (hc : Consistent T L s) {rejectOffer : Option Bytes}
    (h : rejectPendingOffer s who rejectOffer = .ok s') :
    s'.parentHash = s.parentHash ∧
      ∃ retracted, Retracts s who rejectOffer retracted ∧
        Leads (zone s) retracted (zone s') := by
  have hhash : s'.parentHash = s.parentHash := by
    obtain ⟨gifts, infos, heq⟩ := rejectPendingOffer_frame h
    exact (congrArg State.parentHash heq :)
  refine ⟨hhash, ?_⟩
  cases rejectPendingOffer_eq_ok h with
  | none heq =>
    rw [heq]
    exact ⟨[], .none, .nil _⟩
  | @gift name r offer hr hoffer hrecip hburn =>
    have hc₀ : Consistent T L
        { s with registrar.offeredNames := s.registrar.offeredNames.remove r } :=
      hc.congr rfl rfl rfl
    obtain ⟨hen, heq⟩ := zone_doBurn hcf hc₀ hburn
    exact ⟨_, .gift hr hoffer hrecip, .single hen heq⟩
  | offer hr _ hd hstate htarget hrevoke =>
    obtain ⟨d', -, hw⟩ := revokeSubname_withdrawn hcf hc.indexed hrevoke
    obtain ⟨hen, heq⟩ := hw.zone_eq
    exact ⟨_, .offer hr hd hstate htarget, .single hen heq⟩

/-- A registration vacates the gift it rejects, or rejects the offer, and then issues
the name. -/
theorem register_edits (hcf : CollisionFree T.keccak256 T.baseNode L) (hc : Consistent T L s)
    {name : Bytes} {owner : MultiAddress} {rejectOffer : Option Bytes}
    (hL : toAsciiLowercase name ∈ L) (h : register s o name owner rejectOffer = .ok s') :
    Edits s o (.register name owner rejectOffer) s' := by
  obtain ⟨who, dest, s₁, rfl, rfl, hreject, hregister⟩ := register_eq_ok h
  obtain ⟨hhash, retracted, hretract, hleads⟩ := zone_rejectPendingOffer hcf hc hreject
  have hc₁ := (rejectPendingOffer_spec hcf hc hreject).1
  obtain ⟨n, hn, hen, heq⟩ := zone_registerName hcf hc₁ hL hregister
  rw [hhash] at hen heq
  exact ⟨_, .register hn hretract, hleads.concat hen heq⟩

/-! ## Records -/

/-- `check_node_useable` passes for the owner of a token only. -/
theorem checkNodeUseable_owner (h : checkNodeUseable s n a = true) :
    s.nft.ownerOf n = some a := by
  unfold checkNodeUseable at h
  split at h
  · cases h
  · next hverify =>
    unfold Registry.verify verifyWithOwner at hverify
    simp only [bind_eq_ok, okOr_eq_ok, ensure_eq_ok] at hverify
    obtain ⟨info, hinfo, rfl⟩ := hverify
    simp [NftStorage.ownerOf, hinfo]

/-- A parsed name is not the base node. -/
theorem parsed_ne_base (hcf : CollisionFree T.keccak256 T.baseNode L) {name : Bytes}
    (hL : ∀ l ∈ nameLabels name, l ∈ L)
    (h : parseNameToNode T.keccak256 name T.baseNode = some n) : n ≠ T.baseNode := by
  obtain ⟨x, hx, hover, rfl⟩ := parseNameToNode_eq_some h
  intro heq
  refine hx (hcf x .base ?_ trivial heq)
  cases x with
  | base => trivial
  | top l => exact hL l hover
  | sub q l => exact ⟨hL q hover.1, hL l hover.2⟩

/-- The node of a record is that of a name or of a subname, and the kind is no anchor.
-/
theorem setRecord_edits (hcf : CollisionFree T.keccak256 T.baseNode L) {name : Bytes}
    {recordType : RecordType} {content : Content T} (hL : ∀ l ∈ nameLabels name, l ∈ L)
    (h : Resolvers.setRecord checkNodeUseable s o name recordType content = .ok s') :
    Edits s o (.setRecord name recordType content) s' := by
  obtain ⟨who, n, rfl, hss58, horigin, hn, huse, rfl⟩ := setRecord_eq_ok h
  have hown : (zone s).owner n = some who :=
    view_owner_eq_some.mpr ⟨parsed_ne_base hcf hL hn, checkNodeUseable_owner huse⟩
  refine .single (.setRecord hn hss58 horigin)
    (show ((zone s).owner n).isSome = true by rw [hown]; rfl) ?_
  ext1 <;> try rfl
  funext k rt
  show Resolvers.recordOf _ k rt
    = Function.update (zone s).record n (Function.update ((zone s).record n) recordType _) k rt
  rw [Resolvers.recordOf_insert]
  by_cases hk : k = n
  · by_cases hrt : rt = recordType
    · simp [hk, hrt]
    · simp [hk, hrt]
      rfl
  · simp [hk]
    rfl

theorem setText_edits (hcf : CollisionFree T.keccak256 T.baseNode L) {name : Bytes}
    {kind : TextKind} {content : Content T} (hL : ∀ l ∈ nameLabels name, l ∈ L)
    (h : Resolvers.setText checkNodeUseable s o name kind content = .ok s') :
    Edits s o (.setText name kind content) s' := by
  obtain ⟨who, n, rfl, hn, huse, rfl⟩ := setText_eq_ok h
  have hown : (zone s).owner n = some who :=
    view_owner_eq_some.mpr ⟨parsed_ne_base hcf hL hn, checkNodeUseable_owner huse⟩
  refine .single (.setText hn) (show ((zone s).owner n).isSome = true by rw [hown]; rfl) ?_
  ext1 <;> try rfl
  funext k x
  show ((s.resolvers.texts.insert (n, kind) content).get (k, x)).map _
    = Function.update (zone s).text n (Function.update ((zone s).text n) kind _) k x
  by_cases hk : k = n
  · by_cases hx : x = kind
    · simp [hk, hx]
    · simp [hk, hx]
      rfl
  · simp [hk]
    rfl

/-! ## All calls -/

theorem zone_renew (h : renew s o = .ok s') : zone s' = zone s := by
  obtain ⟨who, n, info, price, balances, expire, -, -, -, -, -, -, -, rfl⟩ := renew_eq_ok h
  rfl

/-- The base node changes hands outside the zone. -/
theorem zone_setOfficial (hc : Consistent T L s) (h : setOfficial s o b = .ok s') :
    zone s' = zone s := by
  obtain ⟨old, nft, hmove, rfl⟩ := setOfficial_eq hc h
  ext1 <;> try rfl
  funext m
  show (if m = T.baseNode then none else (setClassOwner nft b).ownerOf m) = _
  rw [setOfficial_ownerOf hmove]
  split
  · next hm => exact (if_pos hm).symm
  · next hm => exact (if_neg hm).symm

/-- The other calls write to neither tokens, registry nor resolvers. -/
theorem zone_silent (hc : Consistent T L s) (hs : call.isSilent = true)
    (h : dispatch s o call = .ok s') : zone s' = zone s := by
  cases call with
  | renew => exact zone_renew h
  | setOfficial official => exact zone_setOfficial hc h
  | addReserved name =>
    obtain ⟨n, -, rfl⟩ := addReserved_eq_ok h
    rfl
  | removeReserved name =>
    obtain ⟨n, -, rfl⟩ := removeReserved_eq_ok h
    rfl
  | createListing price expiresAt =>
    obtain ⟨who, n, -, -, -, -, rfl⟩ := createListing_eq_ok h
    rfl
  | cancelListing =>
    obtain ⟨who, n, -, -, -, rfl⟩ := cancelListing_eq_ok h
    rfl
  | setExchangeRate rate =>
    obtain ⟨manager, -, rfl⟩ := setExchangeRate_eq_ok h
    rfl
  | setBasePrice prices =>
    obtain rfl := setBasePrice_eq_ok h
    rfl
  | setRentPrice prices =>
    obtain rfl := setRentPrice_eq_ok h
    rfl
  | _ => cases hs

/-- On a consistent state a successful extrinsic makes the edits it is listed with. -/
theorem dispatch_edits (hcf : CollisionFree T.keccak256 T.baseNode L)
    (hc : Consistent T L s) (hL : ∀ l ∈ call.labels, l ∈ L)
    (h : dispatch s o call = .ok s') : Edits s o call s' := by
  by_cases hs : call.isSilent = true
  · exact .silent hs (zone_silent hc hs h)
  cases call with
  | register name owner rejectOffer =>
    exact register_edits hcf hc (hL _ List.mem_cons_self) h
  | transfer address => exact transfer_edits hcf hc h
  | releaseName => exact releaseName_edits hcf hc h
  | offerSubdomain label target =>
    exact offerSubdomain_edits hcf hc (hL _ List.mem_cons_self) h
  | acceptSubdomain parent label =>
    exact acceptSubdomain_edits hcf hc (hL _ List.mem_cons_self)
      (hL _ (List.mem_cons_of_mem _ List.mem_cons_self)) h
  | rejectSubdomain parent label =>
    exact rejectSubdomain_edits hcf hc (hL _ List.mem_cons_self)
      (hL _ (List.mem_cons_of_mem _ List.mem_cons_self)) h
  | revokeSubdomain label => exact revokeSubdomain_edits hcf hc h
  | releaseSubdomain parent label =>
    exact releaseSubdomain_edits hcf hc (hL _ List.mem_cons_self)
      (hL _ (List.mem_cons_of_mem _ List.mem_cons_self)) h
  | acceptOfferedName name =>
    exact acceptOfferedName_edits hcf hc (hL _ List.mem_cons_self) h
  | burn name => exact burn_edits hcf hc h
  | setRecord name recordType content => exact setRecord_edits hcf hL h
  | setText name kind content => exact setText_edits hcf hL h
  | buyName name recipient => exact buyName_edits hcf hc h
  | _ => exact absurd rfl hs

end PnsPallets
