import PnsPallets.Devnet
import PnsPallets.Events
import PnsPallets.Frame.Journal
import PnsPallets.Reachability
import PnsPallets.RollView
import PnsPallets.Zones.Forget

/-!
# The event log

An index that sees nothing of the chain but its events, from genesis on: `Index.apply` says what
it makes of each. The result is that it is never wrong (`index_replays`): along every run the
replayed index is what is stored — who owns each name, the delegations, records and texts, the
terms and fees, the pending gifts, the listings, the reserved names and the prices.

What the events do not tell is left out of the index: ORIGIN records (the parent hash of the block
is in no event), the owner of the base node (`set_official` deposits nothing) and the primary
pointers (`release_name` and `burn` deposit the same event and treat them differently).
-/

namespace PnsPallets

open Frame Registry Registrar Zones

variable {T : Config} {L : Set Bytes} {s s₁ s' : State T} {o : Origin} {call : Call T}
  {a b who dest : AccountId} {n p c : DomainHash} {name : Bytes}
  {es es' : List (RuntimeEvent T)}

/-! ## The index -/

/-- What the events tell about a registration. -/
@[ext]
structure Term where
  registerFee : Balance
  expire : Moment
  labelLen : UInt32
deriving DecidableEq

/-- What an index keeps. -/
@[ext]
structure Index where
  /-- Owners, delegations, records and texts. -/
  zone : NameZone
  /-- The registration of a name. -/
  term : DomainHash → Option Term
  /-- The pending gift of a name. -/
  gift : DomainHash → Option OfferedNameRecord
  /-- The listing of a name. -/
  listing : DomainHash → Option Listing
  /-- The name is reserved. -/
  reserved : DomainHash → Bool
  /-- The price oracle. -/
  prices : PriceOracleStorage

/-- An edit of the zone alone. -/
def Index.edit (ix : Index) (e : NameEdit) : Index := { ix with zone := e.apply ix.zone }

/-- What an index makes of an event. -/
def Index.apply (ix : Index) : RuntimeEvent T → Index
  | .registry (.tokenMinted _ token _ owner) => ix.edit (.issue token owner (Resolvers.ss58 owner))
  | .registry (.transferred source dest _ token) =>
    ix.edit (.handOver token source dest (Resolvers.ss58 dest))
  | .registry (.tokenBurned _ token _ owner _) =>
    { ix.edit (.vacate token owner) with term := Function.update ix.term token none }
  | .registrar (.nameRegistered name node _ expire fee) =>
    { ix with
      term := Function.update ix.term node
        (some { registerFee := fee, expire := expire, labelLen := UInt32.ofNat name.length }) }
  | .registrar (.nameRenewed node _ expire _) =>
    { ix with
      term := Function.update ix.term node
        ((ix.term node).map fun term => { term with expire := expire }) }
  | .registrar (.subnameOffered parent subnode label target) =>
    match BoundedVec.tryFrom 63 label with
    | some label => ix.edit (.offer subnode ⟨parent, label, target, .offered⟩)
    | none => ix
  | .registrar (.subnameAccepted subnode target) =>
    ix.edit (.accept subnode target (Resolvers.ss58 target))
  | .registrar (.subnameRejected subnode target) => ix.edit (.reject subnode target)
  | .registrar (.subnameRevoked subnode _) => ix.edit (.withdraw subnode)
  | .registrar (.subnameReleased subnode _) => ix.edit (.withdraw subnode)
  | .registrar (.nameReserved node) => { ix with reserved := Function.update ix.reserved node true }
  | .registrar (.nameUnReserved node) =>
    { ix with reserved := Function.update ix.reserved node false }
  | .registrar (.nameBoughtForRecipient node buyer recipient) =>
    { ix with gift := Function.update ix.gift node (some ⟨buyer, recipient⟩) }
  | .registrar (.offeredNameAccepted node recipient) =>
    { ix.edit (.anchor node (Resolvers.ss58 recipient)) with
      gift := Function.update ix.gift node none }
  | .registrar (.offeredNameRejected node _) =>
    -- the event is the same for a gift, burned by an event before this one, and for a subname
    { (if (ix.zone.delegation node).isSome then ix.edit (.withdraw node) else ix) with
      gift := Function.update ix.gift node none }
  | .resolvers (.recordsChanged node kind content) => ix.edit (.setRecord node kind content.val)
  | .resolvers (.textsChanged node kind content) => ix.edit (.setText node kind content.val)
  | .marketplace (.listed node seller price expiresAt) =>
    { ix with listing := Function.update ix.listing node (some ⟨seller, price, expiresAt⟩) }
  | .marketplace (.delisted node _) => { ix with listing := Function.update ix.listing node none }
  | .marketplace (.sold node _ _ _ _) =>
    { ix with listing := Function.update ix.listing node none }
  | .marketplace (.nameBoughtForRecipient node _ _ _ _ _) =>
    { ix with listing := Function.update ix.listing node none }
  | .priceOracle (.basePriceChanged prices) => { ix with prices.basePrice := prices }
  | .priceOracle (.rentPriceChanged prices) => { ix with prices.rentPrice := prices }
  | .priceOracle (.exchangeRateChanged _ rate) => { ix with prices.exchangeRate := rate }

/-- The index before the first event: the preset genesis. -/
def Index.start (T : Config) : Index where
  zone :=
    { owner := fun _ => none
      delegation := fun _ => none
      held := fun _ _ => false
      record := fun _ _ => none
      text := fun _ _ => none }
  term _ := none
  gift _ := none
  listing _ := none
  reserved := (reserve T reservedNames).containsKey
  prices :=
    { basePrice := genesisBasePrices
      rentPrice := Vector.replicate 11 0
      exchangeRate := 1 }

/-- The index that a list of events makes. -/
def Index.replay (T : Config) (log : List (RuntimeEvent T)) : Index :=
  log.foldl Index.apply (Index.start T)

/-! ## What is stored -/

/-- The part of a registration that the events tell. -/
def RegistrarInfo.term (info : RegistrarInfo) : Term where
  registerFee := info.registerFee
  expire := info.expire
  labelLen := info.labelLen

/-- That part of the table of registrations. -/
def termsOf (infos : StorageMap DomainHash RegistrarInfo) (n : DomainHash) : Option Term :=
  (infos.get n).map RegistrarInfo.term

/-- The index read off the storage. -/
def indexOf (s : State T) : Index where
  zone := (zone s).forget .ORIGIN
  term := termsOf s.registrar.registrarInfos
  gift := s.registrar.offeredNames.get
  listing := s.listings.get
  reserved := s.registrar.reservedList.containsKey
  prices := s.priceOracle

@[simp] theorem indexOf_owner (s : State T) (n : DomainHash) :
    (indexOf s).zone.owner n = (view s).owner n := rfl

@[simp] theorem indexOf_gift (s : State T) (n : DomainHash) :
    (indexOf s).gift n = s.registrar.offeredNames.get n := rfl

/-- The events lead from the index of `s` to that of `s'`. -/
def Tracks (s : State T) (es : List (RuntimeEvent T)) (s' : State T) : Prop :=
  indexOf s' = es.foldl Index.apply (indexOf s)

theorem Tracks.append (h : Tracks s es s₁) (h' : Tracks s₁ es' s') : Tracks s (es ++ es') s' := by
  unfold Tracks at *
  rw [List.foldl_append, ← h, h']

/-- The storage beside the zone that the index reads. -/
structure SameTables (s s' : State T) : Prop where
  registrarInfos : s'.registrar.registrarInfos = s.registrar.registrarInfos
  offeredNames : s'.registrar.offeredNames = s.registrar.offeredNames
  listings : s'.listings = s.listings
  reservedList : s'.registrar.reservedList = s.registrar.reservedList
  priceOracle : s'.priceOracle = s.priceOracle

/-- The index does not see the ORIGIN record, of which no event tells. -/
theorem without_anchors (x : AccountId) (origin : H256) :
    without .ORIGIN (Resolvers.anchors x origin) = Resolvers.ss58 x := by
  funext k
  cases k <;> rfl

theorem without_ss58 (x : AccountId) :
    without .ORIGIN (Resolvers.ss58 x) = Resolvers.ss58 x := by
  funext k
  cases k <;> rfl

/-- An edit of the zone, as the index sees it. -/
theorem zone_forget {e e' : NameEdit} (hz : zone s' = e.apply (zone s))
    (hs : e.Spares .ORIGIN) (he : e.forget .ORIGIN = e') :
    (zone s').forget .ORIGIN = e'.apply ((zone s).forget .ORIGIN) := by
  rw [hz, Edit.apply_forget hs, he]

/-- A call that edits the zone and nothing else of the index. -/
theorem indexOf_edit {e e' : NameEdit} (hz : zone s' = e.apply (zone s)) (hs : e.Spares .ORIGIN)
    (he : e.forget .ORIGIN = e') (h : SameTables s s') : indexOf s' = (indexOf s).edit e' := by
  ext1
  · exact zone_forget hz hs he
  · exact congrArg termsOf h.registrarInfos
  · exact congrArg StorageMap.get h.offeredNames
  · exact congrArg StorageMap.get h.listings
  · exact congrArg StorageMap.containsKey h.reservedList
  · exact h.priceOracle

theorem termsOf_insert (infos : StorageMap DomainHash RegistrarInfo) (n : DomainHash)
    (info : RegistrarInfo) :
    termsOf (infos.insert n info) = Function.update (termsOf infos) n (some info.term) := by
  funext m
  simp only [termsOf, StorageMap.get_insert, Function.update_apply]
  split <;> rfl

theorem termsOf_remove (infos : StorageMap DomainHash RegistrarInfo) (n : DomainHash) :
    termsOf (infos.remove n) = Function.update (termsOf infos) n none := by
  funext m
  simp only [termsOf, StorageMap.get_remove, Function.update_apply]
  split <;> rfl

/-! ## The registry's operations -/

theorem Cleared.sameTables (h : Cleared n s s') : SameTables s s' where
  registrarInfos := by rw [h.frame]
  offeredNames := by rw [h.frame]
  listings := by rw [h.frame]
  reservedList := by rw [h.frame]
  priceOracle := by rw [h.frame]

theorem Withdrawn.sameTables {d : SubnameRecord} (h : Withdrawn c d s s') : SameTables s s' where
  registrarInfos := by rw [h.frame]
  offeredNames := by rw [h.frame]
  listings := by rw [h.frame]
  reservedList := by rw [h.frame]
  priceOracle := by rw [h.frame]

theorem burnEvents_eq (h : s.nft.ownerOf n = some a) (caller : AccountId) :
    burnEvents s caller n = [.registry (.tokenBurned classZero n n a caller)] := by
  obtain ⟨info, hinfo, rfl⟩ := Option.map_eq_some_iff.mp h
  simp only [burnEvents, hinfo]

theorem transferEvents_eq (h : s.nft.ownerOf n = some a) (dest : AccountId) :
    Registry.transferEvents s dest n = [.registry (.transferred a dest classZero n)] := by
  obtain ⟨info, hinfo, rfl⟩ := Option.map_eq_some_iff.mp h
  simp only [Registry.transferEvents, hinfo]

/-- The event of a burn carries the name, which is all an index needs to vacate it. -/
theorem doBurn_tracks (hcf : CollisionFree T.keccak256 T.baseNode L) (hc : Consistent T L s)
    (h : doBurn s a n = .ok s') : Tracks s (burnEvents s a n) s' := by
  obtain ⟨-, hz⟩ := zone_doBurn hcf hc h
  obtain ⟨hne, hown, s₁, nft, hcl, -, rfl⟩ := doBurn_eq hcf hc h
  have htables := hcl.sameTables
  rw [Tracks, burnEvents_eq hown]
  ext1
  · exact zone_forget hz trivial rfl
  · show termsOf (s₁.registrar.registrarInfos.remove n) = _
    rw [termsOf_remove, htables.registrarInfos]
    rfl
  · exact congrArg StorageMap.get htables.offeredNames
  · exact congrArg StorageMap.get htables.listings
  · exact congrArg StorageMap.containsKey htables.reservedList
  · exact htables.priceOracle

theorem doTransfer_sameTables (h : doTransfer s a b n = .ok s') : SameTables s s' := by
  rw [doTransfer_frame h]
  exact ⟨rfl, rfl, rfl, rfl, rfl⟩

/-- The event of a transfer carries the old and the new owner. -/
theorem doTransfer_tracks (hcf : CollisionFree T.keccak256 T.baseNode L)
    (hc : Consistent T L s) (h : doTransfer s a b n = .ok s') :
    Tracks s (Registry.transferEvents s b n) s' := by
  obtain ⟨hown, hz⟩ := zone_doTransfer hcf hc h
  rw [Tracks, transferEvents_eq (view_owner_eq_some.mp hown).2]
  exact indexOf_edit hz trivial (congrArg (Edit.handOver n a b) (without_anchors b s.parentHash))
    (doTransfer_sameTables h)

theorem Withdrawn.index_eq {d : SubnameRecord} (h : Withdrawn c d s s') :
    indexOf s' = (indexOf s).edit (.withdraw c) :=
  indexOf_edit h.zone_eq.2 trivial rfl h.sameTables

/-! ## Registration -/

/-- Minting a name leaves the tables of the registrar but its registrations alone. -/
theorem mintSubname_frame (hcf : CollisionFree T.keccak256 T.baseNode L)
    (hc : Consistent T L s) {official : AccountId} {fee : Balance} {expire : Moment} {len : Nat}
    (h : mintSubname s official [] T.baseNode n dest 0
      (registerPayments who n fee expire len) = .ok s') :
    s'.registrar.reservedList = s.registrar.reservedList ∧ s'.priceOracle = s.priceOracle := by
  unfold mintSubname at h
  rw [bind_eq_ok] at h
  obtain ⟨plan, hplan, hfinish⟩ := h
  rcases mintPrepare_eq hplan with ⟨s₁, -, hpay, rfl⟩ | ⟨s₁, prev, -, -, hinfo, hpay, rfl⟩
  · obtain ⟨balances, primary, -, rfl⟩ := registerPayments_eq hpay
    have hbase : s.registry.runtimeOrigin.get T.baseNode = none := by
      rw [hc.hierarchy.origin]
      simp
    unfold mintFinish joinHierarchy at hfinish
    simp only [hbase, bind_eq_ok, pure_eq_ok] at hfinish
    obtain ⟨nft, -, nft', -, rfl⟩ := hfinish
    exact ⟨rfl, rfl⟩
  · obtain ⟨i, hi⟩ := Option.isSome_iff_exists.mp hinfo
    obtain ⟨balances, primary, -, rfl⟩ := registerPayments_eq hpay
    have hcap : (registrationInfo s n fee expire len).capacity = i.capacity :=
      registrationInfo_capacity hi
    have hcl := ((hc.rewriteInfo hi hcap balances primary).cleared hcf n).sameTables
    unfold mintFinish at hfinish
    simp only [bind_eq_ok, pure_eq_ok] at hfinish
    obtain ⟨nft, -, rfl⟩ := hfinish
    exact ⟨hcl.reservedList, hcl.priceOracle⟩

theorem enrolment_term (block : UInt32) (fee : Balance) (expire : Moment) (len : Nat)
    (old : Option RegistrarInfo) :
    (enrolment T block fee expire len old).term = ⟨fee, expire, UInt32.ofNat len⟩ := by
  cases old <;> rfl

/-- `register` after its `reject_offer` phase. -/
theorem registerName_tracks (hcf : CollisionFree T.keccak256 T.baseNode L)
    (hc : Consistent T L s) (hL : toAsciiLowercase name ∈ L)
    (h : registerName s who name dest = .ok s') :
    ∃ n fee expire, topLevelNode T name = .ok n ∧
      PriceOracle.registrationFee s.priceOracle name.length = some fee ∧
      Moment.checkedAdd s.now T.maxRegistrationDuration = some expire ∧
      Tracks s (mintEvents T T.baseNode n dest ++
        [.registrar (.nameRegistered name n dest expire fee)]) s' := by
  obtain ⟨m, hm, -, hz⟩ := zone_registerName hcf hc hL h
  obtain ⟨n, fee, expire, primary, s₁, v₁, v₂, hr, rfl⟩ := registerName_eq_ok h
  obtain rfl : m = n := Except.ok.inj (hm.symm.trans hr.node)
  obtain ⟨official, -, hmint⟩ := hr.mint
  have htop := topLevelNode_topLevel hr.node hL
  have hi := mintSubname_issued hcf (hc.setPrimary primary) htop hmint
  obtain ⟨hreserved, hprices⟩ := mintSubname_frame hcf (hc.setPrimary primary) hmint
  refine ⟨m, fee, expire, hr.node, hr.price, hr.term, ?_⟩
  rw [Tracks]
  ext1
  · exact zone_forget hz trivial (congrArg (Edit.issue m dest) (without_anchors dest s.parentHash))
  · show termsOf s₁.registrar.registrarInfos = _
    rw [hi.registrarInfos, termsOf_insert, registrationInfo_eq, enrolment_term]
    rfl
  · exact congrArg StorageMap.get hi.offeredNames
  · exact congrArg StorageMap.get hi.listings
  · exact congrArg StorageMap.containsKey hreserved
  · exact hprices

/-- The rejection of a gift, whose token is gone. -/
theorem Index.apply_rejectedGift {ix : Index} (h : ix.zone.delegation n = none) :
    ix.apply (.registrar (.offeredNameRejected n a) : RuntimeEvent T)
      = { ix with gift := Function.update ix.gift n none } := by
  simp [Index.apply, h]

/-- The rejection of an offered subname. -/
theorem Index.apply_rejectedOffer {ix : Index} (h : (ix.zone.delegation n).isSome = true)
    (hgift : ix.gift n = none) :
    ix.apply (.registrar (.offeredNameRejected n a) : RuntimeEvent T)
      = ix.edit (.withdraw n) := by
  simp [Index.apply, h, Index.edit, hgift]

/-- The `reject_offer` phase of `register`. -/
theorem rejectPendingOffer_tracks (hcf : CollisionFree T.keccak256 T.baseNode L)
    (hc : Consistent T L s) {rejectOffer : Option Bytes}
    (h : rejectPendingOffer s who rejectOffer = .ok s') :
    ∃ es, rejectEvents s who rejectOffer = .ok es ∧ Tracks s es s' := by
  cases rejectPendingOffer_eq_ok h with
  | none heq =>
    rw [heq]
    exact ⟨[], rfl, rfl⟩
  | @gift name r offer hr hoffer hrecipient hburn =>
    have hc₀ : Consistent T L
        { s with registrar.offeredNames := s.registrar.offeredNames.remove r } :=
      hc.congr rfl rfl rfl
    obtain ⟨hne, hown, -⟩ := doBurn_eq hcf hc₀ hburn
    have htop := hc.hierarchy.top r (by rw [hown]; rfl) hne
    have hdel : (zone s).delegation r = none := hc.zone_delegation_top hcf htop
    have htracks := doBurn_tracks hcf hc₀ hburn
    rw [Tracks, burnEvents_eq hown] at htracks
    refine ⟨burnEvents s who r ++ [.registrar (.offeredNameRejected r who)], ?_, ?_⟩
    · simp only [rejectEvents, bind_eq_ok, okOr_eq_ok]
      exact ⟨r, hr, by simp only [hoffer]; rfl⟩
    · rw [burnEvents_eq (s := s) hown]
      have hgone : ((indexOf s).apply
          (.registry (.tokenBurned classZero r r who who) : RuntimeEvent T)).zone.delegation r
            = none := by
        show (if (zone s).below r r then none else (zone s).delegation r) = none
        rw [hdel, ite_self]
      show indexOf s' = ((indexOf s).apply (T := T) _).apply
        (.registrar (.offeredNameRejected r who) : RuntimeEvent T)
      rw [Index.apply_rejectedGift hgone, htracks]
      ext1
      case gift => exact StorageMap.get_remove_update s.registrar.offeredNames r
      all_goals rfl
  | @offer name r d hr hoffer hd hstate htarget hrevoke =>
    obtain ⟨d', -, hw⟩ := revokeSubname_withdrawn hcf hc.indexed hrevoke
    refine ⟨[.registrar (.offeredNameRejected r who)], ?_, ?_⟩
    · simp only [rejectEvents, bind_eq_ok, okOr_eq_ok]
      exact ⟨r, hr, by simp only [hoffer]; rfl⟩
    · have hsome : ((indexOf s).zone.delegation r).isSome = true := by
        show ((s.registry.subnameRecords.get r).map _).isSome = true
        rw [hd]
        rfl
      show indexOf s' = (indexOf s).apply
        (.registrar (.offeredNameRejected r who) : RuntimeEvent T)
      rw [Index.apply_rejectedOffer hsome hoffer, hw.index_eq]

/-! ## The calls -/

/-- The events of the call are defined and lead from the index of `s` to that of `s'`. -/
def Publishes (s : State T) (o : Origin) (call : Call T) (s' : State T) : Prop :=
  ∃ es, callEvents s o call = .ok es ∧ Tracks s es s'

/-- The events of a registration: those of the rejected offer, then those of the name.
-/
theorem register_publishes (hcf : CollisionFree T.keccak256 T.baseNode L)
    (hc : Consistent T L s) {owner : MultiAddress} {rejectOffer : Option Bytes}
    (hL : toAsciiLowercase name ∈ L) (h : register s o name owner rejectOffer = .ok s') :
    Publishes s o (.register name owner rejectOffer) s' := by
  obtain ⟨who, dest, s₁, rfl, rfl, hreject, hregister⟩ := register_eq_ok h
  have hc₁ := (rejectPendingOffer_spec hcf hc hreject).1
  have hrejected := rejectPendingOffer_rejected hcf hc hreject
  obtain ⟨rejected, hevents, hfirst⟩ := rejectPendingOffer_tracks hcf hc hreject
  obtain ⟨n, fee, expire, hn, hfee, hexpire, hsecond⟩ := registerName_tracks hcf hc₁ hL hregister
  obtain ⟨label, hlabel, rfl⟩ := topLevelNode_eq_ok.mp hn
  rw [hrejected.priceOracle] at hfee
  rw [hrejected.now] at hexpire
  have hlen : label.2 = name.length := by rw [(newWithLen_eq_some.mp hlabel).2]
  refine ⟨_, ?_, hfirst.append hsecond⟩
  simp only [callEvents, registerEvents, bind_eq_ok, okOr_eq_ok, pure_eq_ok]
  refine ⟨who, rfl, dest, rfl, rejected, hevents, label, hlabel, expire, hexpire, fee, ?_, ?_⟩
  · rw [hlen, hfee]
  · rw [List.append_assoc]

/-- The event of a renewal carries the fee and the new term. -/
theorem renew_publishes (h : renew s o = .ok s') : Publishes s o .renew s' := by
  have hz : zone s' = zone s := zone_renew h
  obtain ⟨who, n, info, price, balances, expire, rfl, hn, hinfo, -, hprice, -, hexpire, rfl⟩ :=
    renew_eq_ok h
  refine ⟨[.registrar (.nameRenewed n who expire price)], ?_, ?_⟩
  · simp only [callEvents, renewEvents, canonicalNameOf, bind_eq_ok, okOr_eq_ok, pure_eq_ok]
    exact ⟨who, rfl, n, hn, info, hinfo, price, hprice, expire, hexpire, rfl⟩
  · rw [Tracks]
    ext1
    case zone => exact congrArg (Zone.forget .ORIGIN) hz
    case term =>
      refine (termsOf_insert _ n _).trans (congrArg _ ?_)
      show _ = ((s.registrar.registrarInfos.get n).map _).map _
      rw [hinfo]
      rfl
    all_goals rfl

theorem transfer_publishes (hcf : CollisionFree T.keccak256 T.baseNode L)
    (hc : Consistent T L s) {address : MultiAddress}
    (h : Registrar.transfer s o address = .ok s') : Publishes s o (.transfer address) s' := by
  obtain ⟨who, dest, n, primary, s₁, rfl, rfl, hn, -, -, -, hmove, rfl⟩ :=
    registrarTransfer_eq_ok h
  refine ⟨Registry.transferEvents s dest n, ?_, ?_⟩
  · simp only [callEvents, Registrar.transferEvents, canonicalNameOf, bind_eq_ok, okOr_eq_ok,
      pure_eq_ok]
    exact ⟨who, rfl, dest, rfl, n, hn, rfl⟩
  · exact (doTransfer_tracks hcf (hc.setPrimary primary) hmove :)

theorem releaseName_publishes (hcf : CollisionFree T.keccak256 T.baseNode L)
    (hc : Consistent T L s) (h : releaseName s o = .ok s') : Publishes s o .releaseName s' := by
  obtain ⟨who, n, rfl, hn, hburn⟩ := releaseName_eq_ok h
  refine ⟨burnEvents s who n, ?_, (doBurn_tracks hcf (hc.setPrimary _) hburn :)⟩
  simp only [callEvents, releaseNameEvents, canonicalNameOf, bind_eq_ok, okOr_eq_ok, pure_eq_ok]
  exact ⟨who, rfl, n, hn, rfl⟩

theorem burn_publishes (hcf : CollisionFree T.keccak256 T.baseNode L) (hc : Consistent T L s)
    (h : Registry.burn s o name = .ok s') : Publishes s o (.burn name) s' := by
  obtain ⟨who, n, rfl, hn, hburn⟩ := burn_eq_ok h
  refine ⟨burnEvents s who n, ?_, doBurn_tracks hcf hc hburn⟩
  simp only [callEvents, burnCallEvents, Registry.nameToNode, bind_eq_ok, okOr_eq_ok, pure_eq_ok]
  exact ⟨who, rfl, n, hn, rfl⟩

/-- The event of an offer carries the label as the caller wrote it. -/
theorem offerSubdomain_publishes {label : Bytes} {target : MultiAddress}
    (h : offerSubdomain s o label target = .ok s') :
    Publishes s o (.offerSubdomain label target) s' := by
  obtain ⟨who, dest, p, i, c, stored, rfl, rfl, hp, -, -, hchild, hstored, hoffer⟩ :=
    offerSubdomain_eq_ok h
  refine ⟨[.registrar (.subnameOffered p c label dest)], ?_, ?_⟩
  · simp only [callEvents, offerSubdomainEvents, canonicalNameOf, bind_eq_ok, okOr_eq_ok,
      pure_eq_ok]
    exact ⟨who, rfl, dest, rfl, p, hp, c, hchild, rfl⟩
  · have hz := zone_offerSubname hoffer
    obtain ⟨-, -, info, -, -, rfl⟩ := offerSubname_eq hoffer
    refine (indexOf_edit hz trivial rfl ⟨rfl, rfl, rfl, rfl, rfl⟩).trans ?_
    simp only [List.foldl_cons, List.foldl_nil, Index.apply, hstored]
    rfl

theorem acceptSubdomain_publishes {parent label : Bytes}
    (h : acceptSubdomain s o parent label = .ok s') :
    Publishes s o (.acceptSubdomain parent label) s' := by
  obtain ⟨who, p, c, i, s₁, q, v, rfl, hp, hchild, -, -, haccept, hv, rfl⟩ :=
    acceptSubdomain_eq_ok h
  refine ⟨[.registrar (.subnameAccepted c who)], ?_, ?_⟩
  · simp only [callEvents, acceptSubdomainEvents, bind_eq_ok, pure_eq_ok]
    exact ⟨who, rfl, p, hp, c, hchild, rfl⟩
  · obtain ⟨-, hz⟩ := zone_acceptSubnameOffer haccept hv
    obtain ⟨-, -, d, -, -, -, rfl⟩ := acceptSubnameOffer_eq haccept
    exact indexOf_edit hz trivial (congrArg (Edit.accept c who) (without_ss58 who))
      ⟨rfl, rfl, rfl, rfl, rfl⟩

theorem rejectSubdomain_publishes {parent label : Bytes}
    (h : rejectSubdomain s o parent label = .ok s') :
    Publishes s o (.rejectSubdomain parent label) s' := by
  obtain ⟨who, p, c, rfl, hp, hchild, hreject⟩ := rejectSubdomain_eq_ok h
  refine ⟨[.registrar (.subnameRejected c who)], ?_, ?_⟩
  · simp only [callEvents, rejectSubdomainEvents, bind_eq_ok, pure_eq_ok]
    exact ⟨who, rfl, p, hp, c, hchild, rfl⟩
  · obtain ⟨-, hz⟩ := zone_rejectSubnameOffer hreject
    obtain ⟨d, -, -, -, rfl⟩ := rejectSubnameOffer_eq hreject
    exact indexOf_edit hz trivial rfl ⟨rfl, rfl, rfl, rfl, rfl⟩

theorem revokeSubdomain_publishes (hcf : CollisionFree T.keccak256 T.baseNode L)
    (hc : Consistent T L s) {label : Bytes} (h : revokeSubdomain s o label = .ok s') :
    Publishes s o (.revokeSubdomain label) s' := by
  obtain ⟨who, p, c, rfl, hp, hchild, hrevoke⟩ := revokeSubdomain_eq_ok h
  obtain ⟨d, -, hw⟩ := revokeSubname_withdrawn hcf hc.indexed hrevoke
  refine ⟨[.registrar (.subnameRevoked c p)], ?_, hw.index_eq⟩
  simp only [callEvents, revokeSubdomainEvents, canonicalNameOf, bind_eq_ok, okOr_eq_ok,
    pure_eq_ok]
  exact ⟨who, rfl, p, hp, c, hchild, rfl⟩

theorem releaseSubdomain_publishes (hcf : CollisionFree T.keccak256 T.baseNode L)
    (hc : Consistent T L s) {parent label : Bytes}
    (h : releaseSubdomain s o parent label = .ok s') :
    Publishes s o (.releaseSubdomain parent label) s' := by
  obtain ⟨who, p, c, q, -, hp, hchild, hrelease⟩ := releaseSubdomain_eq_ok h
  obtain ⟨d, -, -, hw⟩ := releaseSubname_withdrawn hcf hc.indexed hrelease
  refine ⟨[.registrar (.subnameReleased c d.parent)], ?_, hw.index_eq⟩
  simp only [callEvents, releaseSubdomainEvents, bind_eq_ok, okOr_eq_ok, pure_eq_ok]
  exact ⟨p, hp, c, hchild, d, hw.record, rfl⟩

theorem acceptOfferedName_publishes (h : acceptOfferedName s o name = .ok s') :
    Publishes s o (.acceptOfferedName name) s' := by
  obtain ⟨who, n, offer, i, primary, v₁, v₂, rfl, hn, -, -, -, -, -, -, hv₁, hv₂, rfl⟩ :=
    acceptOfferedName_eq_ok h
  have hz : zone { s with resolvers := v₂ } = _ := zone_setAnchors (s := s) hv₁ hv₂
  refine ⟨[.registrar (.offeredNameAccepted n who)], ?_, ?_⟩
  · simp only [callEvents, acceptOfferedNameEvents, bind_eq_ok, pure_eq_ok]
    exact ⟨who, rfl, n, hn, rfl⟩
  · rw [Tracks]
    ext1
    case zone =>
      exact zone_forget hz trivial (congrArg (Edit.anchor n) (without_anchors who s.parentHash))
    case gift => exact StorageMap.get_remove_update s.registrar.offeredNames n
    all_goals rfl

/-- The event of a record carries its content. -/
theorem setRecord_publishes (hcf : CollisionFree T.keccak256 T.baseNode L) {k : RecordType}
    {content : Content T} (hL : ∀ l ∈ nameLabels name, l ∈ L)
    (h : Resolvers.setRecord checkNodeUseable s o name k content = .ok s') :
    Publishes s o (.setRecord name k content) s' := by
  obtain ⟨es, hmakes, hleads⟩ := setRecord_edits hcf hL h
  obtain ⟨who, n, rfl, -, -, hn, -, rfl⟩ := setRecord_eq_ok h
  refine ⟨[.resolvers (.recordsChanged n k content)], ?_, ?_⟩
  · simp only [callEvents, Resolvers.setRecordEvents, Resolvers.nameToNode, bind_eq_ok, okOr_eq_ok,
      pure_eq_ok]
    exact ⟨n, hn, rfl⟩
  · cases hmakes with
    | silent hs => cases hs
    | @setRecord _ _ _ _ m hm hss58 horigin =>
      obtain rfl : n = m := Option.some.inj (hn.symm.trans hm)
      exact indexOf_edit hleads.of_single.2 horigin rfl ⟨rfl, rfl, rfl, rfl, rfl⟩

theorem setText_publishes (hcf : CollisionFree T.keccak256 T.baseNode L) {k : TextKind}
    {content : Content T} (hL : ∀ l ∈ nameLabels name, l ∈ L)
    (h : Resolvers.setText checkNodeUseable s o name k content = .ok s') :
    Publishes s o (.setText name k content) s' := by
  obtain ⟨es, hmakes, hleads⟩ := setText_edits hcf hL h
  obtain ⟨who, n, rfl, hn, -, rfl⟩ := setText_eq_ok h
  refine ⟨[.resolvers (.textsChanged n k content)], ?_, ?_⟩
  · simp only [callEvents, Resolvers.setTextEvents, Resolvers.nameToNode, bind_eq_ok, okOr_eq_ok,
      pure_eq_ok]
    exact ⟨n, hn, rfl⟩
  · cases hmakes with
    | silent hs => cases hs
    | @setText _ _ _ _ m hm =>
      obtain rfl : n = m := Option.some.inj (hn.symm.trans hm)
      exact indexOf_edit hleads.of_single.2 trivial rfl ⟨rfl, rfl, rfl, rfl, rfl⟩

/-- The events of a purchase: the transfer, the gift if it is one, and the sale. -/
theorem buyName_publishes (hcf : CollisionFree T.keccak256 T.baseNode L)
    (hc : Consistent T L s) {recipient : Option AccountId}
    (h : Marketplace.buyName s o name recipient = .ok s') :
    Publishes s o (.buyName name recipient) s' := by
  obtain ⟨es, hmakes, hleads⟩ := buyName_edits hcf hc h
  obtain ⟨buyer, n, listing, balances, rfl, hn, hlisting, -, -, hseller, -, h⟩ := buyName_eq_ok h
  have hz : (zone s').forget .ORIGIN = (Edit.handOver n listing.seller (recipient.getD buyer)
      (Resolvers.ss58 (recipient.getD buyer)) : NameEdit).apply ((zone s).forget .ORIGIN) := by
    cases hmakes with
    | silent hs => cases hs
    | @buyName _ _ _ m l hm hl =>
      obtain rfl : n = m := Except.ok.inj (hn.symm.trans hm)
      obtain rfl : listing = l := Option.some.inj (hlisting.symm.trans hl)
      exact zone_forget hleads.of_single.2 trivial
        (congrArg (Edit.handOver n _ _) (without_anchors _ s.parentHash))
  have hmoved := transferEvents_eq (T := T) hseller.symm
  have hc₁ := hc.settle balances (s.listings.remove n)
  rcases deliver_cases h with ⟨recip, rfl, hdeliver⟩ | ⟨rfl, s₂, v₁, v₂, hdeliver, -, -, rfl⟩
  · obtain ⟨primary, s₁, -, -, hmove, -, rfl⟩ := offerBoughtName_eq_ok hdeliver
    have htables := doTransfer_sameTables hmove
    refine ⟨Registry.transferEvents s recip n ++
      [ .registrar (.nameBoughtForRecipient n buyer recip),
        .marketplace (.nameBoughtForRecipient n listing.seller buyer recip listing.price
          (Marketplace.protocolFee T listing.price)) ], ?_, ?_⟩
    · simp only [callEvents, Marketplace.buyNameEvents, bind_eq_ok, okOr_eq_ok, pure_eq_ok]
      exact ⟨buyer, rfl, n, hn, listing, hlisting, rfl⟩
    · rw [Tracks, hmoved]
      ext1
      · exact hz
      · exact congrArg termsOf htables.registrarInfos
      · show (s₁.registrar.offeredNames.insert n ⟨buyer, recip⟩).get = _
        rw [StorageMap.get_insert_update, htables.offeredNames]
        rfl
      · show s₁.listings.get = _
        rw [htables.listings]
        exact StorageMap.get_remove_update s.listings n
      · exact congrArg StorageMap.containsKey htables.reservedList
      · exact htables.priceOracle
  · obtain ⟨primary, primary', s₁, -, -, hmove, -, rfl⟩ := transferName_eq_ok hdeliver
    have htables := doTransfer_sameTables hmove
    refine ⟨Registry.transferEvents s buyer n ++
      [ .marketplace (.sold n listing.seller buyer listing.price
          (Marketplace.protocolFee T listing.price)) ], ?_, ?_⟩
    · simp only [callEvents, Marketplace.buyNameEvents, bind_eq_ok, okOr_eq_ok, pure_eq_ok]
      exact ⟨buyer, rfl, n, hn, listing, hlisting, rfl⟩
    · rw [Tracks, hmoved]
      ext1
      · exact hz
      · exact congrArg termsOf htables.registrarInfos
      · exact congrArg StorageMap.get htables.offeredNames
      · show s₁.listings.get = _
        rw [htables.listings]
        exact StorageMap.get_remove_update s.listings n
      · exact congrArg StorageMap.containsKey htables.reservedList
      · exact htables.priceOracle

/-- The calls that leave the zone alone, but for `renew`. -/
theorem silent_publishes (hc : Consistent T L s) (hs : call.isSilent = true)
    (hrenew : call ≠ .renew) (h : dispatch s o call = .ok s') : Publishes s o call s' := by
  have hz : (zone s').forget .ORIGIN = (zone s).forget .ORIGIN :=
    congrArg (Zone.forget .ORIGIN) (zone_silent hc hs h)
  cases call with
  | renew => exact absurd rfl hrenew
  | setOfficial official =>
    obtain ⟨nft, rfl⟩ := setOfficial_eq_ok h
    refine ⟨[], rfl, ?_⟩
    rw [Tracks]
    ext1
    case zone => exact hz
    all_goals rfl
  | addReserved name =>
    obtain ⟨n, hn, rfl⟩ := addReserved_eq_ok h
    refine ⟨[.registrar (.nameReserved n)], ?_, ?_⟩
    · simp only [callEvents, addReservedEvents, bind_eq_ok, pure_eq_ok]
      exact ⟨n, hn, rfl⟩
    · rw [Tracks]
      ext1
      case reserved => exact StorageMap.containsKey_insert_update _ n ()
      all_goals rfl
  | removeReserved name =>
    obtain ⟨n, hn, rfl⟩ := removeReserved_eq_ok h
    refine ⟨[.registrar (.nameUnReserved n)], ?_, ?_⟩
    · simp only [callEvents, removeReservedEvents, bind_eq_ok, pure_eq_ok]
      exact ⟨n, hn, rfl⟩
    · rw [Tracks]
      ext1
      case reserved => exact StorageMap.containsKey_remove_update _ n
      all_goals rfl
  | createListing price expiresAt =>
    obtain ⟨who, n, rfl, -, hn, -, rfl⟩ := createListing_eq_ok h
    refine ⟨[.marketplace (.listed n who price expiresAt)], ?_, ?_⟩
    · simp only [callEvents, Marketplace.createListingEvents, Marketplace.canonicalNameOf,
        bind_eq_ok, okOr_eq_ok, pure_eq_ok]
      exact ⟨who, rfl, n, hn, rfl⟩
    · rw [Tracks]
      ext1
      case listing => exact StorageMap.get_insert_update _ n _
      all_goals rfl
  | cancelListing =>
    obtain ⟨who, n, rfl, hn, -, rfl⟩ := cancelListing_eq_ok h
    refine ⟨[.marketplace (.delisted n who)], ?_, ?_⟩
    · simp only [callEvents, Marketplace.cancelListingEvents, Marketplace.canonicalNameOf,
        bind_eq_ok, okOr_eq_ok, pure_eq_ok]
      exact ⟨who, rfl, n, hn, rfl⟩
    · rw [Tracks]
      ext1
      case listing => exact StorageMap.get_remove_update _ n
      all_goals rfl
  | setExchangeRate rate =>
    obtain ⟨manager, hmanager, rfl⟩ := setExchangeRate_eq_ok h
    refine ⟨[.priceOracle (.exchangeRateChanged manager rate)], ?_, rfl⟩
    simp only [callEvents, PriceOracle.setExchangeRateEvents, bind_eq_ok, pure_eq_ok]
    exact ⟨manager, hmanager, rfl⟩
  | setBasePrice prices =>
    obtain rfl := setBasePrice_eq_ok h
    exact ⟨_, rfl, rfl⟩
  | setRentPrice prices =>
    obtain rfl := setRentPrice_eq_ok h
    exact ⟨_, rfl, rfl⟩
  | _ => cases hs

/-- Every successful extrinsic publishes what it changes of the index. -/
theorem dispatch_publishes (hcf : CollisionFree T.keccak256 T.baseNode L)
    (hc : Consistent T L s) (hL : ∀ l ∈ call.labels, l ∈ L) (h : dispatch s o call = .ok s') :
    Publishes s o call s' := by
  by_cases hs : call.isSilent = true ∧ call ≠ .renew
  · exact silent_publishes hc hs.1 hs.2 h
  cases call with
  | register name owner rejectOffer =>
    exact register_publishes hcf hc (hL _ List.mem_cons_self) h
  | renew => exact renew_publishes h
  | transfer dest => exact transfer_publishes hcf hc h
  | releaseName => exact releaseName_publishes hcf hc h
  | offerSubdomain label target => exact offerSubdomain_publishes h
  | acceptSubdomain parent label => exact acceptSubdomain_publishes h
  | rejectSubdomain parent label => exact rejectSubdomain_publishes h
  | revokeSubdomain label => exact revokeSubdomain_publishes hcf hc h
  | releaseSubdomain parent label => exact releaseSubdomain_publishes hcf hc h
  | acceptOfferedName name => exact acceptOfferedName_publishes h
  | burn name => exact burn_publishes hcf hc h
  | setRecord name recordType content => exact setRecord_publishes hcf hL h
  | setText name kind content => exact setText_publishes hcf hL h
  | buyName name recipient => exact buyName_publishes hcf hc h
  | _ => simp [Call.isSilent] at hs

/-! ## Replay -/

/-- The chain with the events of its blocks. -/
def journal (T : Config) : Machine (State T × List (RuntimeEvent T)) (Input T) :=
  (chain T).journaling published

/-- Before the first event the index is that of genesis. -/
theorem genesis_index {root : AccountId} {balances : T.Ledger} {parentHash : H256}
    (h : genesis T root balances parentHash = .ok s) : indexOf s = Index.start T := by
  have hblank := genesis_blank h
  unfold genesis at h
  simp only [bind_eq_ok, pure_eq_ok] at h
  obtain ⟨nft, -, rfl⟩ := h
  ext1
  · ext1
    · exact funext hblank.owner
    · exact funext hblank.delegation
    · exact funext fun x => funext (hblank.held x)
    · funext m k
      exact (without_apply _ k).trans (by rw [hblank.record, ite_self]; rfl)
    · exact funext fun m => funext (hblank.text m)
  all_goals rfl

/-- **The event log is a full account.** Along every run, what an index makes of the events since
genesis is what the chain stores: owners, delegations, records and texts, terms and fees, pending
gifts, listings, reserved names and prices. -/
theorem index_replays (hcf : CollisionFree T.keccak256 T.baseNode L)
    {q : State T × List (RuntimeEvent T)}
    (h : (journal T).Reach (fun q i => Admissible L q.1 i) q) :
    Index.replay T q.2 = indexOf q.1 := by
  show q.2.foldl Index.apply (Index.start T) = indexOf q.1
  refine (Machine.journaling_replay ?_ ?_ h).symm
  · rintro s ⟨root, balances, parentHash, hs⟩
    exact genesis_index hs
  · intro s i hs hadm
    cases i with
    | newBlock now number hash ledger => rfl
    | extrinsic o call =>
      show indexOf (commit s (dispatch s o call)) = (deposited s o call).foldl _ _
      unfold deposited
      cases hres : dispatch s o call with
      | error err => rfl
      | ok s' =>
        have hc : Consistent T L s := Reachable.consistent hcf hs
        obtain ⟨es, hevents, htracks⟩ := dispatch_publishes hcf hc hadm hres
        rw [commit_ok, hevents]
        exact htracks

/-- The state and the events after the inputs. -/
def Devnet.recorded (inputs : List (Input Devnet.config)) :
    State Devnet.config × List (RuntimeEvent Devnet.config) :=
  (journal Devnet.config).run (Devnet.start, []) inputs

open Devnet in
theorem Devnet.recorded_reach {inputs : List (Input config)}
    (h : (journal config).Along (fun q i => Admissible labels q.1 i) (start, []) inputs) :
    (journal config).Reach (fun q i => Admissible labels q.1 i) (recorded inputs) :=
  Machine.Reach.run (.init ⟨start_init, rfl⟩) h

/-- Account 1 registers `alice` and lists it, and account 2 buys it as a gift for account 3. -/
def Devnet.purchaseInputs : List (Input Devnet.config) :=
  [ .extrinsic (.signed (account 1)) (.register alice (.id (account 1)) none),
    .extrinsic (.signed (account 1)) (.createListing 5000 1000000),
    .extrinsic (.signed (account 2)) (.buyName alice (some (account 3))) ]

open Devnet in
/-- The events of a gift purchase tell who owns the name and that the gift is pending. -/
theorem index_replays_gift :
    (Index.replay config (recorded purchaseInputs).2).zone.owner (node alice) = some (account 3) ∧
      (Index.replay config (recorded purchaseInputs).2).gift (node alice)
        = some ⟨account 2, account 3⟩ := by
  have hreach : (journal config).Reach (fun q i => Admissible labels q.1 i)
      (recorded purchaseInputs) := recorded_reach (by decide +kernel)
  rw [index_replays collisionFree hreach]
  have hown : (recorded purchaseInputs).1.nft.ownerOf (node alice) = some (account 3) := by
    decide +kernel
  have hgift : (recorded purchaseInputs).1.registrar.offeredNames.get (node alice)
      = some ⟨account 2, account 3⟩ := by decide +kernel
  rw [indexOf_owner, indexOf_gift, view_owner_eq_some]
  exact ⟨⟨by decide +kernel, hown⟩, hgift⟩

end PnsPallets
