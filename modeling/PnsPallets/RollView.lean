import PnsPallets.Names.Grammar
import PnsPallets.Refinement
import PnsPallets.Rolls

/-!
# The registrations as a roll

`roll` reads a roll off the storage: the entries are `RegistrarInfos`, the counter is
the child counter of the base node. `Enrols` says which events each extrinsic is on
the roll — a registration enrols its name, `renew` amends the entry of the caller's
name, and every call that burns a name strikes it off (`burnedBy`) — and
`dispatch_enrols` that this is all that happens to it.
-/

namespace PnsPallets

open Frame Registry Registrar Rolls

variable {T : Config} {L : Set Bytes} {s s' : State T} {a b who dest : AccountId}
  {n p c : DomainHash} {o : Origin} {call : Call T} {name : Bytes} {w : ℕ}

/-- The roll of registrations. -/
def roll (s : State T) : Roll DomainHash RegistrarInfo where
  entry := s.registrar.registrarInfos.get
  counter := ((s.nft.childrenOf T.baseNode).map UInt32.toNat).getD 0

/-- The width of the child counter. -/
def counterWidth : ℕ := 2 ^ 32

/-- The event of a registration, on the entry the name had (registrar.rs:428–443). -/
def enrolment (T : Config) (block : UInt32) (fee : Balance) (expire : Moment) (labelLen : Nat) :
    Option RegistrarInfo → RegistrarInfo
  | some info =>
    { info with
      registerFee := fee
      expire := expire
      labelLen := UInt32.ofNat labelLen
      lastBlock := block }
  | none =>
    { registerFee := fee
      expire := expire
      capacity := T.defaultCapacity
      labelLen := UInt32.ofNat labelLen
      lastBlock := block }

/-- What `register` writes is an enrolment over the row that was there. -/
theorem registrationInfo_eq (s : State T) (n : DomainHash) (fee : Balance) (expire : Moment)
    (len : Nat) :
    registrationInfo s n fee expire len
      = enrolment T s.blockNumber fee expire len (s.registrar.registrarInfos.get n) := by
  unfold registrationInfo enrolment
  cases s.registrar.registrarInfos.get n with
  | none => rfl
  | some info => rfl

section Enrolment

variable {block : UInt32} {fee : Balance} {expire : Moment} {len : Nat}
  {old : Option RegistrarInfo}

@[simp] theorem enrolment_expire : (enrolment T block fee expire len old).expire = expire := by
  cases old <;> rfl

@[simp] theorem enrolment_lastBlock :
    (enrolment T block fee expire len old).lastBlock = block := by
  cases old <;> rfl

@[simp] theorem enrolment_registerFee :
    (enrolment T block fee expire len old).registerFee = fee := by
  cases old <;> rfl

/-- The length of a label survives the conversion to `u32`. -/
theorem enrolment_labelLen (hlen : len ≤ 63) :
    (enrolment T block fee expire len old).labelLen.toNat = len := by
  have hofNat : (UInt32.ofNat len).toNat = len :=
    UInt32.toNat_ofNat_of_lt' (Nat.lt_of_le_of_lt hlen (by decide))
  cases old <;> exact hofNat

/-- The capacity is the default one if it was. -/
theorem enrolment_capacity (hold : ∀ info, old = some info → info.capacity = T.defaultCapacity) :
    (enrolment T block fee expire len old).capacity = T.defaultCapacity := by
  cases old with
  | none => rfl
  | some info => exact hold info rfl

end Enrolment

/-- The gift `register` burns for its `reject_offer` (registrar.rs:345–361). -/
def rejectedGift (s : State T) (rejectOffer : Option Bytes) : Option DomainHash :=
  (rejectOffer.bind fun name => parseNameToNode T.keccak256 name T.baseNode).filter
    fun n => s.registrar.offeredNames.containsKey n

/-- The name a call burns if it succeeds: `release_name`, `burn`, and `register` with a
gift to reject. -/
def burnedBy (s : State T) (o : Origin) : Call T → Option DomainHash
  | .releaseName =>
    match o with
    | .signed who => s.registrar.ownerToPrimaryName.get who
    | .root | .none => none
  | .burn name => parseNameToNode T.keccak256 name T.baseNode
  | .register _ _ rejectOffer => rejectedGift s rejectOffer
  | _ => none

/-- The event of a burn, if there is one. -/
def strikes (burned : Option DomainHash) : List (Event DomainHash RegistrarInfo) :=
  burned.toList.map .strike

/-- What is struck off need not meet anything. -/
theorem strikes_keeps {P : DomainHash → RegistrarInfo → Prop} {burned : Option DomainHash} :
    ∀ e ∈ strikes burned, e.Keeps P := by
  intro e he
  obtain ⟨m, -, rfl⟩ := List.mem_map.mp he
  trivial

/-- A burn leaves the other names on the roll. -/
theorem strikes_entry {r r' : Roll DomainHash RegistrarInfo} {burned : Option DomainHash}
    (h : Leads w r (strikes burned) r') (hn : burned ≠ some n) : r'.entry n = r.entry n := by
  cases burned with
  | none =>
    obtain rfl := leads_nil.mp h
    rfl
  | some m =>
    obtain ⟨-, hnil⟩ := leads_cons.mp h
    obtain rfl := leads_nil.mp hnil
    exact Event.entry_apply fun hm => hn (congrArg some hm.symm)

theorem strikes_sum (burned : Option DomainHash) :
    ((strikes burned).map Event.strikes).sum = burned.toList.length := by
  cases burned <;> rfl

/-- Whether a call sets the term of a name. -/
def Call.setsTerm : Call T → Bool
  | .register _ _ _ | .renew => true
  | .addReserved _ | .removeReserved _ | .transfer _ | .releaseName | .offerSubdomain _ _
  | .acceptSubdomain _ _ | .rejectSubdomain _ _ | .revokeSubdomain _ | .releaseSubdomain _ _
  | .acceptOfferedName _ | .burn _ | .setOfficial _ | .setRecord _ _ _ | .setText _ _ _
  | .createListing _ _ | .cancelListing | .buyName _ _ | .setExchangeRate _ | .setBasePrice _
  | .setRentPrice _ => false

/-- The events of a call on the roll. -/
inductive Enrols (s : State T) :
    Origin → Call T → List (Event DomainHash RegistrarInfo) → Prop where
  | register {who dest : AccountId} {name : Bytes} {rejectOffer : Option Bytes}
      {n : DomainHash} {fee : Balance} {expire : Moment} :
      topLevelNode T name = .ok n → IsLabel name →
      PriceOracle.registrationFee s.priceOracle name.length = some fee →
      Moment.checkedAdd s.now T.maxRegistrationDuration = some expire →
      Enrols s (.signed who) (.register name (.id dest) rejectOffer)
        (strikes (rejectedGift s rejectOffer) ++
          [.enrol n (enrolment T s.blockNumber fee expire name.length)])
  | renew {who : AccountId} {n : DomainHash} {expire : Moment} :
      s.registrar.ownerToPrimaryName.get who = some n →
      Moment.checkedAdd s.now T.maxRegistrationDuration = some expire →
      Enrols s (.signed who) .renew [.amend n fun info => { info with expire := expire }]
  | other {o : Origin} {call : Call T} : call.setsTerm = false →
      Enrols s o call (strikes (burnedBy s o call))

/-! ## What the registry operations do to the roll -/

/-- The roll is read off `RegistrarInfos` and the counter of the base node. -/
theorem roll_congr (hinfo : s'.registrar.registrarInfos = s.registrar.registrarInfos)
    (hbase : s'.nft.childrenOf T.baseNode = s.nft.childrenOf T.baseNode) :
    roll s' = roll s := by
  unfold roll
  rw [hinfo, hbase]

theorem resetChildren_base (nft : NftStorage T) (hne : n ≠ T.baseNode) :
    (resetChildren nft n).childrenOf T.baseNode = nft.childrenOf T.baseNode :=
  (resetChildren_childrenOf nft n T.baseNode).trans (if_neg (Ne.symm hne))

theorem setChildren_base (nft : NftStorage T) (hne : p ≠ T.baseNode) (info : TokenInfo T)
    (children : UInt32) :
    (setChildren nft p info children).childrenOf T.baseNode = nft.childrenOf T.baseNode :=
  (setChildren_childrenOf nft p info children T.baseNode).trans (if_neg (Ne.symm hne))

/-- A burn strikes the name off. The counter of the base node stays, as `do_burn` does
not count down there. -/
theorem roll_doBurn (hcf : CollisionFree T.keccak256 T.baseNode L) (hc : Consistent T L s)
    (h : doBurn s a n = .ok s') : Leads counterWidth (roll s) [.strike n] (roll s') := by
  obtain ⟨hne, hown, s₁, nft, hcl, hburn, rfl⟩ := doBurn_eq hcf hc h
  have hinfo : (s.registrar.registrarInfos.get n).isSome = true :=
    (hc.hierarchy.info n).mpr ⟨hne, by rw [hown]; rfl⟩
  refine .single hinfo ?_
  ext1
  · funext m
    show (s₁.registrar.registrarInfos.remove n).get m
      = Function.update s.registrar.registrarInfos.get n none m
    rw [StorageMap.get_remove, hcl.registrar, Function.update_apply]
  · show ((nft.childrenOf T.baseNode).map _).getD 0 = _
    rw [burn_childrenOf hburn, if_neg (Ne.symm hne), hcl.nft, resetChildren_base _ hne]
    rfl

/-- A name that changes hands stays on the roll as it is. -/
theorem roll_doTransfer (hcf : CollisionFree T.keccak256 T.baseNode L) (hc : Consistent T L s)
    (h : doTransfer s a b n = .ok s') : roll s' = roll s := by
  obtain ⟨hne, -, -, s₁, nft, v, hcl, hmove, -, rfl⟩ := doTransfer_eq hcf hc h
  refine roll_congr (congrArg RegistrarStorage.registrarInfos hcl.registrar) ?_
  show nft.childrenOf T.baseNode = _
  rw [transfer_childrenOf hmove, hcl.nft, resetChildren_base _ hne]

/-- Subnames are not on the roll: their counter is the parent's, which is not the base
node. -/
theorem Withdrawn.roll_eq (hcf : CollisionFree T.keccak256 T.baseNode L)
    (hc : Consistent T L s) {d : SubnameRecord} (hw : Withdrawn c d s s') : roll s' = roll s := by
  have hne := (hc.indexed.named c d hw.record).topLevel_parent.ne_base hcf
  obtain ⟨info, -, -, hnft⟩ := subChildren_eq hw.counter
  refine roll_congr ?_ ?_
  · rw [hw.frame]
  · rw [hnft, setChildren_base _ hne]

theorem roll_transferName (hcf : CollisionFree T.keccak256 T.baseNode L)
    (hc : Consistent T L s) (h : transferName s a b n = .ok s') : roll s' = roll s := by
  obtain ⟨primary, primary', s₁, -, -, hmove, -, rfl⟩ := transferName_eq_ok h
  have hroll := roll_doTransfer hcf (hc.setPrimary primary) hmove
  exact hroll

theorem roll_offerBoughtName (hcf : CollisionFree T.keccak256 T.baseNode L)
    (hc : Consistent T L s) {buyer : AccountId} (h : offerBoughtName s a buyer b n = .ok s') :
    roll s' = roll s := by
  obtain ⟨primary, s₁, -, -, hmove, -, rfl⟩ := offerBoughtName_eq_ok h
  exact (roll_doTransfer hcf hc hmove :)

/-! ## Registration -/

/-- Minting a name without a token adds one to the base node's counter; minting one that
has a token leaves it alone. -/
theorem mintSubname_counter (hcf : CollisionFree T.keccak256 T.baseNode L)
    (hc : Consistent T L s) (htop : TopLevel T L n) {official : AccountId} {fee : Balance}
    {expire : Moment} {len : Nat}
    (h : mintSubname s official [] T.baseNode n dest 0
      (registerPayments who n fee expire len) = .ok s') :
    s'.nft.childrenOf T.baseNode = if (s.nft.ownerOf n).isSome then s.nft.childrenOf T.baseNode
      else (s.nft.childrenOf T.baseNode).map (· + 1) := by
  have hne := htop.ne_base hcf
  unfold mintSubname at h
  rw [bind_eq_ok] at h
  obtain ⟨plan, hplan, hfinish⟩ := h
  rcases mintPrepare_eq hplan with
    ⟨s₁, hnone, hpay, rfl⟩ | ⟨s₁, prev, hprev, -, hinfo, hpay, rfl⟩
  · -- a name without a token: the base node has no origin, so `add_children` counts it there
    obtain ⟨balances, primary, -, rfl⟩ := registerPayments_eq hpay
    have hbase : s.registry.runtimeOrigin.get T.baseNode = none := by
      rw [hc.hierarchy.origin]
      simp
    unfold mintFinish joinHierarchy addChildren at hfinish
    simp only [hbase, bind_eq_ok, okOr_eq_ok, pure_eq_ok] at hfinish
    obtain ⟨nft, hmint, nft', ⟨info, hget, rfl⟩, rfl⟩ := hfinish
    have hold : nft.childrenOf T.baseNode = s.nft.childrenOf T.baseNode :=
      (mint_childrenOf hmint T.baseNode).trans (if_neg (Ne.symm hne))
    have hchildren : nft.childrenOf T.baseNode = some info.data.children := by
      simp [NftStorage.childrenOf, hget]
    rw [hnone, ← hold, hchildren]
    exact (setChildren_childrenOf nft T.baseNode info _ T.baseNode).trans (if_pos rfl)
  · -- a lapsed name: its token moves, and `clear_subnames` resets the name's own counter
    obtain ⟨i, hi⟩ := Option.isSome_iff_exists.mp hinfo
    obtain ⟨balances, primary, -, rfl⟩ := registerPayments_eq hpay
    have hcap : (registrationInfo s n fee expire len).capacity = i.capacity :=
      registrationInfo_capacity hi
    have hc₁ := hc.rewriteInfo hi hcap balances primary
    have hcl := hc₁.cleared hcf n
    unfold mintFinish at hfinish
    simp only [bind_eq_ok, pure_eq_ok] at hfinish
    obtain ⟨nft, hmove, rfl⟩ := hfinish
    rw [hprev]
    show nft.childrenOf T.baseNode = s.nft.childrenOf T.baseNode
    rw [transfer_childrenOf hmove]
    show (clearSubnames _ n).nft.childrenOf T.baseNode = _
    rw [hcl.nft, resetChildren_base _ hne]

/-- The base node has a counter. -/
theorem base_childrenOf (hc : Consistent T L s) :
    ∃ children, s.nft.childrenOf T.baseNode = some children := by
  obtain ⟨old, -, hown, -⟩ := hc.hierarchy.base
  unfold NftStorage.ownerOf at hown
  obtain ⟨info, hinfo, -⟩ := Option.map_eq_some_iff.mp hown
  exact ⟨info.data.children, by rw [NftStorage.childrenOf, hinfo]; rfl⟩

/-- What a successful `register` leaves of the name, after its `reject_offer` phase. -/
structure Registration (s : State T) (name : Bytes) (owner : AccountId) (n : DomainHash)
    (fee : Balance) (expire : Moment) (s' : State T) : Prop where
  node : topLevelNode T name = .ok n
  label : IsLabel name
  price : PriceOracle.registrationFee s.priceOracle name.length = some fee
  term : Moment.checkedAdd s.now T.maxRegistrationDuration = some expire
  now : s'.now = s.now
  ownerOf : s'.nft.ownerOf n = some owner
  registrarInfos : s'.registrar.registrarInfos = s.registrar.registrarInfos.insert n
    (enrolment T s.blockNumber fee expire name.length (s.registrar.registrarInfos.get n))
  offeredNames : s'.registrar.offeredNames = s.registrar.offeredNames
  anchorOf : Resolvers.anchorOf s'.resolvers n = some owner.encode
  counter : s'.nft.childrenOf T.baseNode
    = if (s.nft.ownerOf n).isSome then s.nft.childrenOf T.baseNode
      else (s.nft.childrenOf T.baseNode).map (· + 1)

/-- What a registration does to the roll: the name is enrolled for a full term from now,
at the fee of its length, and the base node has one child more if the name was not
there. -/
theorem registerName_registration (hcf : CollisionFree T.keccak256 T.baseNode L)
    (hc : Consistent T L s) (hL : toAsciiLowercase name ∈ L)
    (h : registerName s who name dest = .ok s') :
    ∃ n fee expire, Registration s name dest n fee expire s' := by
  obtain ⟨n, fee, expire, primary, s₁, v₁, v₂, hr, rfl⟩ := registerName_eq_ok h
  obtain ⟨official, -, hmint⟩ := hr.mint
  have htop := topLevelNode_topLevel hr.node hL
  have hc₀ := hc.setPrimary primary
  have hi := mintSubname_issued hcf hc₀ htop hmint
  have hcounter := mintSubname_counter hcf hc₀ htop hmint
  refine ⟨n, fee, expire, hr.node, hr.label, hr.price, hr.term, hi.now, ?_, ?_, hi.offeredNames, ?_,
    hcounter⟩
  · exact (hi.ownerOf n).trans (if_pos rfl)
  · rw [← registrationInfo_eq]
    exact hi.registrarInfos
  · show Resolvers.anchorOf v₂ n = _
    rw [Resolvers.setOriginRecord_anchorOf hr.origin, Resolvers.setSs58Record_anchorOf hr.ss58,
      if_pos rfl]

/-- A registration enrols its name. -/
theorem Registration.leads (hc : Consistent T L s) (hne : n ≠ T.baseNode) {fee : Balance}
    {expire : Moment} (h : Registration s name dest n fee expire s') :
    Leads counterWidth (roll s)
      [.enrol n (enrolment T s.blockNumber fee expire name.length)] (roll s') := by
  refine .single trivial ?_
  -- a name has an entry exactly if it has a token, so both say whether it is counted
  have hminted : ((roll s).entry n).isSome = (s.nft.ownerOf n).isSome :=
    Bool.eq_iff_iff.mpr ((hc.hierarchy.info n).trans ⟨And.right, fun h => ⟨hne, h⟩⟩)
  ext1
  · funext m
    show s'.registrar.registrarInfos.get m
      = Function.update s.registrar.registrarInfos.get n (some _) m
    rw [h.registrarInfos, StorageMap.get_insert, Function.update_apply]
    rfl
  · show ((s'.nft.childrenOf T.baseNode).map UInt32.toNat).getD 0 = if _ then _ else _
    rw [h.counter, hminted]
    split
    · rfl
    · obtain ⟨children, hchildren⟩ := base_childrenOf hc
      simp [roll, hchildren, counterWidth]

/-- What the `reject_offer` phase of `register` leaves. -/
structure Rejected (s : State T) (gift : Option DomainHash) (s' : State T) : Prop where
  now : s'.now = s.now
  blockNumber : s'.blockNumber = s.blockNumber
  priceOracle : s'.priceOracle = s.priceOracle
  offeredNames : ∀ m, s'.registrar.offeredNames.get m
    = if gift = some m then none else s.registrar.offeredNames.get m
  leads : Leads counterWidth (roll s) (strikes gift) (roll s')

/-- The `reject_offer` phase strikes a gift off and leaves the rest of the roll. -/
theorem rejectPendingOffer_rejected (hcf : CollisionFree T.keccak256 T.baseNode L)
    (hc : Consistent T L s) {rejectOffer : Option Bytes}
    (h : rejectPendingOffer s who rejectOffer = .ok s') :
    Rejected s (rejectedGift s rejectOffer) s' := by
  obtain ⟨gifts, infos, hframe⟩ := rejectPendingOffer_frame h
  have htables : (∀ m, s'.registrar.offeredNames.get m
      = if rejectedGift s rejectOffer = some m then none else s.registrar.offeredNames.get m) ∧
      Leads counterWidth (roll s) (strikes (rejectedGift s rejectOffer)) (roll s') := by
    cases rejectPendingOffer_eq_ok h with
    | none heq =>
      rw [heq]
      exact ⟨fun _ => rfl, .nil _⟩
    | @offer name n d hn hoffer hd hstate htarget hrevoke =>
      -- the offer of a subname: its record goes, and nothing on the roll
      have hgift : rejectedGift s (some name) = none := by
        simp [rejectedGift, hn, StorageMap.containsKey, hoffer]
      obtain ⟨d', -, hw⟩ := revokeSubname_withdrawn hcf hc.indexed hrevoke
      rw [hgift, hw.roll_eq hcf hc]
      refine ⟨fun m => ?_, .nil _⟩
      rw [hw.frame]
      rfl
    | @gift name n offer hn hoffer hrecipient hburn =>
      -- a gift: its token is burned, so the name is struck off
      have hgift : rejectedGift s (some name) = some n := by
        simp [rejectedGift, hn, StorageMap.containsKey, hoffer]
      have hc₀ : Consistent T L { s with
          registrar.offeredNames := s.registrar.offeredNames.remove n } :=
        hc.congr rfl rfl rfl
      have hleads := roll_doBurn hcf hc₀ hburn
      obtain ⟨-, -, s₁, nft, hcl, -, rfl⟩ := doBurn_eq hcf hc₀ hburn
      rw [hgift]
      refine ⟨fun m => ?_, hleads⟩
      show s₁.registrar.offeredNames.get m = _
      rw [hcl.registrar, StorageMap.get_remove]
      grind
  exact ⟨(congrArg State.now hframe :), (congrArg State.blockNumber hframe :),
    (congrArg State.priceOracle hframe :), htables.1, htables.2⟩

/-- A successful `register` is a rejection, if asked for, and a registration. -/
theorem register_registration (hcf : CollisionFree T.keccak256 T.baseNode L)
    (hc : Consistent T L s) {owner : MultiAddress} {rejectOffer : Option Bytes}
    (hL : toAsciiLowercase name ∈ L) (h : register s o name owner rejectOffer = .ok s') :
    ∃ who dest s₁ n fee expire, o = .signed who ∧ owner = .id dest ∧ Consistent T L s₁ ∧
      Rejected s (rejectedGift s rejectOffer) s₁ ∧ Registration s₁ name dest n fee expire s' := by
  obtain ⟨who, dest, s₁, rfl, rfl, hreject, hregister⟩ := register_eq_ok h
  obtain ⟨hc₁, -, -⟩ := rejectPendingOffer_spec hcf hc hreject
  obtain ⟨n, fee, expire, hreg⟩ := registerName_registration hcf hc₁ hL hregister
  exact ⟨who, dest, s₁, n, fee, expire, rfl, rfl, hc₁,
    rejectPendingOffer_rejected hcf hc hreject, hreg⟩

/-- `register` strikes off the rejected gift, if it is one, and enrols the name. -/
theorem register_enrols (hcf : CollisionFree T.keccak256 T.baseNode L)
    (hc : Consistent T L s) {owner : MultiAddress} {rejectOffer : Option Bytes}
    (hL : toAsciiLowercase name ∈ L) (h : register s o name owner rejectOffer = .ok s') :
    ∃ es, Enrols s o (.register name owner rejectOffer) es ∧
      Leads counterWidth (roll s) es (roll s') := by
  obtain ⟨who, dest, s₁, n, fee, expire, rfl, rfl, hc₁, hrej, hreg⟩ :=
    register_registration hcf hc hL h
  have hleads := hreg.leads hc₁ ((topLevelNode_topLevel hreg.node hL).ne_base hcf)
  rw [hrej.blockNumber] at hleads
  exact ⟨_, .register hreg.node hreg.label (hrej.priceOracle ▸ hreg.price) (hrej.now ▸ hreg.term),
    leads_append.mpr ⟨_, hrej.leads, hleads⟩⟩

/-- `renew` extends the row of the caller's primary name. -/
theorem renew_enrols (h : renew s o = .ok s') :
    ∃ es, Enrols s o .renew es ∧ Leads counterWidth (roll s) es (roll s') := by
  obtain ⟨who, n, i, price, balances, expire, rfl, hn, hi, -, -, -, hexpire, rfl⟩ := renew_eq_ok h
  refine ⟨_, .renew hn hexpire, .single trivial ?_⟩
  ext1
  · funext m
    show (s.registrar.registrarInfos.insert n _).get m
      = Function.update s.registrar.registrarInfos.get n
          ((s.registrar.registrarInfos.get n).map _) m
    rw [StorageMap.get_insert, Function.update_apply, hi]
    rfl
  · rfl

/-! ## The other calls -/

/-- The calls that burn no name and set no term leave the roll alone. -/
theorem quiet_enrols (hterm : call.setsTerm = false) (hburn : burnedBy s o call = none)
    (heq : roll s' = roll s) :
    ∃ es, Enrols s o call es ∧ Leads counterWidth (roll s) es (roll s') := by
  refine ⟨_, .other hterm, ?_⟩
  rw [hburn, heq]
  exact .nil _

/-- `release_name` strikes off the caller's primary name. -/
theorem releaseName_enrols (hcf : CollisionFree T.keccak256 T.baseNode L)
    (hc : Consistent T L s) (h : releaseName s o = .ok s') :
    ∃ es, Enrols s o .releaseName es ∧ Leads counterWidth (roll s) es (roll s') := by
  obtain ⟨who, n, rfl, hn, hburn⟩ := releaseName_eq_ok h
  refine ⟨_, .other rfl, ?_⟩
  show Leads _ _ (strikes (s.registrar.ownerToPrimaryName.get who)) _
  rw [hn]
  exact (roll_doBurn hcf (hc.setPrimary _) hburn :)

/-- `burn` strikes off the name it is given. -/
theorem burn_enrols (hcf : CollisionFree T.keccak256 T.baseNode L)
    (hc : Consistent T L s) (h : burn s o name = .ok s') :
    ∃ es, Enrols s o (.burn name) es ∧ Leads counterWidth (roll s) es (roll s') := by
  obtain ⟨who, n, -, hn, hburn⟩ := burn_eq_ok h
  refine ⟨_, .other rfl, ?_⟩
  show Leads _ _ (strikes (parseNameToNode T.keccak256 name T.baseNode)) _
  rw [hn]
  exact roll_doBurn hcf hc hburn

/-- A hand-over leaves the roll alone, as do the calls below. -/
theorem roll_transfer (hcf : CollisionFree T.keccak256 T.baseNode L)
    (hc : Consistent T L s) {address : MultiAddress}
    (h : Registrar.transfer s o address = .ok s') : roll s' = roll s := by
  obtain ⟨who, dest, n, primary, s₁, -, -, -, -, -, -, hmove, rfl⟩ := registrarTransfer_eq_ok h
  exact (roll_doTransfer hcf (hc.setPrimary primary) hmove :)

/-- An offer counts at the parent, which is a name and not the base node. -/
theorem roll_offerSubdomain (hc : Consistent T L s) {label : Bytes} {target : MultiAddress}
    (h : offerSubdomain s o label target = .ok s') : roll s' = roll s := by
  obtain ⟨who, dest, p, i, c, stored, -, -, -, -, -, -, -, hoffer⟩ := offerSubdomain_eq_ok h
  obtain ⟨horigin, -, info, -, -, rfl⟩ := offerSubname_eq hoffer
  obtain ⟨-, hne, -⟩ := hc.hierarchy.origin_eq_some horigin
  exact roll_congr rfl (setChildren_base _ hne _ _)

theorem roll_acceptSubdomain {parent label : Bytes}
    (h : acceptSubdomain s o parent label = .ok s') : roll s' = roll s := by
  obtain ⟨who, p, c, i, s₁, q, v, -, -, -, -, -, haccept, -, rfl⟩ := acceptSubdomain_eq_ok h
  obtain ⟨-, -, d, -, -, rfl, rfl⟩ := acceptSubnameOffer_eq haccept
  rfl

theorem roll_rejectSubdomain {parent label : Bytes}
    (h : rejectSubdomain s o parent label = .ok s') : roll s' = roll s := by
  obtain ⟨who, p, c, -, -, -, hreject⟩ := rejectSubdomain_eq_ok h
  obtain ⟨d, -, -, -, rfl⟩ := rejectSubnameOffer_eq hreject
  rfl

theorem roll_revokeSubdomain (hcf : CollisionFree T.keccak256 T.baseNode L)
    (hc : Consistent T L s) {label : Bytes} (h : revokeSubdomain s o label = .ok s') :
    roll s' = roll s := by
  obtain ⟨who, p, c, -, -, -, hrevoke⟩ := revokeSubdomain_eq_ok h
  obtain ⟨d, -, hw⟩ := revokeSubname_withdrawn hcf hc.indexed hrevoke
  exact hw.roll_eq hcf hc

theorem roll_releaseSubdomain (hcf : CollisionFree T.keccak256 T.baseNode L)
    (hc : Consistent T L s) {parent label : Bytes}
    (h : releaseSubdomain s o parent label = .ok s') : roll s' = roll s := by
  obtain ⟨who, p, c, q, -, -, -, hrelease⟩ := releaseSubdomain_eq_ok h
  obtain ⟨d, -, -, hw⟩ := releaseSubname_withdrawn hcf hc.indexed hrelease
  exact hw.roll_eq hcf hc

/-- An accepted gift keeps its row. -/
theorem roll_acceptOfferedName (h : acceptOfferedName s o name = .ok s') :
    roll s' = roll s := by
  obtain ⟨who, n, offer, i, primary, v₁, v₂, -, -, -, -, -, -, -, -, -, -, rfl⟩ :=
    acceptOfferedName_eq_ok h
  rfl

/-- The base node changes hands with its counter. -/
theorem roll_setOfficial (hc : Consistent T L s) (h : setOfficial s o b = .ok s') :
    roll s' = roll s := by
  obtain ⟨old, nft, hmove, rfl⟩ := setOfficial_eq hc h
  refine roll_congr rfl ?_
  show (setClassOwner nft b).childrenOf T.baseNode = _
  unfold NftStorage.childrenOf
  rw [setClassOwner_tokens]
  exact congrFun (transfer_childrenOf hmove) T.baseNode

/-- A sold name keeps its row: a purchase starts no new term. -/
theorem roll_buyName (hcf : CollisionFree T.keccak256 T.baseNode L) (hc : Consistent T L s)
    {recipient : Option AccountId} (h : Marketplace.buyName s o name recipient = .ok s') :
    roll s' = roll s := by
  obtain ⟨buyer, n, listing, balances, -, -, -, -, -, -, -, h⟩ := buyName_eq_ok h
  have hc₁ := hc.settle balances (s.listings.remove n)
  rcases deliver_cases h with ⟨recip, -, hdeliver⟩ | ⟨-, s₂, v₁, v₂, hdeliver, -, -, rfl⟩
  · exact (roll_offerBoughtName hcf hc₁ hdeliver :)
  · exact (roll_transferName hcf hc₁ hdeliver :)

/-! ## Every extrinsic -/

/-- On a consistent state every successful extrinsic does its events to the roll. -/
theorem dispatch_enrols (hcf : CollisionFree T.keccak256 T.baseNode L)
    (hc : Consistent T L s) (hL : ∀ l ∈ call.labels, l ∈ L)
    (h : dispatch s o call = .ok s') :
    ∃ es, Enrols s o call es ∧ Leads counterWidth (roll s) es (roll s') := by
  cases call with
  | register name owner rejectOffer =>
    exact register_enrols hcf hc (hL _ List.mem_cons_self) h
  | renew => exact renew_enrols h
  | releaseName => exact releaseName_enrols hcf hc h
  | burn name => exact burn_enrols hcf hc h
  | transfer address => exact quiet_enrols rfl rfl (roll_transfer hcf hc h)
  | offerSubdomain label target => exact quiet_enrols rfl rfl (roll_offerSubdomain hc h)
  | acceptSubdomain parent label => exact quiet_enrols rfl rfl (roll_acceptSubdomain h)
  | rejectSubdomain parent label => exact quiet_enrols rfl rfl (roll_rejectSubdomain h)
  | revokeSubdomain label => exact quiet_enrols rfl rfl (roll_revokeSubdomain hcf hc h)
  | releaseSubdomain parent label => exact quiet_enrols rfl rfl (roll_releaseSubdomain hcf hc h)
  | acceptOfferedName name => exact quiet_enrols rfl rfl (roll_acceptOfferedName h)
  | setOfficial official => exact quiet_enrols rfl rfl (roll_setOfficial hc h)
  | buyName name recipient => exact quiet_enrols rfl rfl (roll_buyName hcf hc h)
  | addReserved name =>
    obtain ⟨n, -, rfl⟩ := addReserved_eq_ok h
    exact quiet_enrols rfl rfl rfl
  | removeReserved name =>
    obtain ⟨n, -, rfl⟩ := removeReserved_eq_ok h
    exact quiet_enrols rfl rfl rfl
  | setRecord name recordType content =>
    obtain ⟨who, n, -, -, -, -, -, rfl⟩ := setRecord_eq_ok h
    exact quiet_enrols rfl rfl rfl
  | setText name kind content =>
    obtain ⟨who, n, -, -, -, rfl⟩ := setText_eq_ok h
    exact quiet_enrols rfl rfl rfl
  | createListing price expiresAt =>
    obtain ⟨who, n, -, -, -, -, rfl⟩ := createListing_eq_ok h
    exact quiet_enrols rfl rfl rfl
  | cancelListing =>
    obtain ⟨who, n, -, -, -, rfl⟩ := cancelListing_eq_ok h
    exact quiet_enrols rfl rfl rfl
  | setExchangeRate rate =>
    obtain ⟨manager, -, rfl⟩ := setExchangeRate_eq_ok h
    exact quiet_enrols rfl rfl rfl
  | setBasePrice prices =>
    obtain rfl := setBasePrice_eq_ok h
    exact quiet_enrols rfl rfl rfl
  | setRentPrice prices =>
    obtain rfl := setRentPrice_eq_ok h
    exact quiet_enrols rfl rfl rfl

end PnsPallets
