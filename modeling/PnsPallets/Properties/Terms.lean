import PnsPallets.InGrace
import PnsPallets.Properties.Payments

/-!
# Terms of registration

`RegistrarInfos` is written by registrations, amended by renewals and cleared by
burns; that is what the roll says of it (`dispatch_enrols`). Three results about
its rows over whole runs:

- `registration_clock`: no row runs beyond the maximal duration from now, its
  capacity is the default one and its length that of the label, so that a renewal
  never shortens a term and costs what a registration would;
- `registration_history`: the row against the calls that set terms, as the run saw
  them. The expiry is that of the latest of them, the block that of the latest
  registration: `renew` does not write `last_block`;
- `base_counter`: the child counter of the base node counts registrations and is
  never taken back. It is the number of names and of burns so far.
-/

namespace PnsPallets

open Frame Registry Registrar Rolls

variable {T : Config} {L : Set Bytes} {s s' : State T} {who : AccountId} {n : DomainHash}
  {o : Origin} {call : Call T} {es : List (Event DomainHash RegistrarInfo)}

/-! ## The clock -/

/-- What the row of a name says at time `now`. -/
structure InTerm (T : Config) (L : Set Bytes) (now : Moment) (n : DomainHash)
    (info : RegistrarInfo) : Prop where
  expire : info.expire.toNat ≤ now.toNat + T.maxRegistrationDuration.toNat
  capacity : info.capacity = T.defaultCapacity
  labelLen : ∃ l ∈ L, n = (Name.top l).node T.keccak256 T.baseNode ∧
    info.labelLen.toNat = l.length

theorem Enrols.keeps_inTerm (h : Enrols s o call es) (hL : ∀ l ∈ call.labels, l ∈ L) :
    ∀ e ∈ es, e.Keeps (InTerm T L s.now) := by
  cases h with
  | register hn hlabel hfee hexpire =>
    intro e he
    rcases List.mem_append.mp he with he | he
    · exact strikes_keeps e he
    · obtain rfl := List.mem_singleton.mp he
      intro old hold
      refine ⟨?_, enrolment_capacity fun info hinfo => (hold info hinfo).capacity, ?_⟩
      · rw [enrolment_expire, Moment.checkedAdd_eq_some hexpire]
      · refine ⟨_, hL _ List.mem_cons_self, topLevelNode_eq hn, ?_⟩
        rw [enrolment_labelLen hlabel.2.1, length_toAsciiLowercase]
  | renew hn hexpire =>
    intro e he
    obtain rfl := List.mem_singleton.mp he
    intro info hinfo
    exact ⟨(Moment.checkedAdd_eq_some hexpire).le, hinfo.capacity, hinfo.labelLen⟩
  | other _ => exact strikes_keeps

theorem Reachable.inTerm (hcf : CollisionFree T.keccak256 T.baseNode L) (h : Reachable T L s) :
    ∀ n info, s.registrar.registrarInfos.get n = some info → InTerm T L s.now n info := by
  refine (ReachableBy.invariant (I := fun s : State T => ∀ n info,
    s.registrar.registrarInfos.get n = some info → InTerm T L s.now n info)
    hcf ?_ ?_ ?_ h.by).2
  · intro root balances parentHash s hs n info hinfo
    simp [genesis_registrarInfos hs] at hinfo
  · -- time only moves on, so the bound on the expiry only gets weaker
    intro s now number hash ledger hle hinv n info hinfo
    have hin := hinv n info hinfo
    exact ⟨hin.expire.trans (Nat.add_le_add_right (UInt64.le_iff_toNat_le.mp hle) _),
      hin.capacity, hin.labelLen⟩
  · intro s o call s' hc hadm _ hok hsound hinv
    obtain ⟨es, hes, hleads⟩ := dispatch_enrols hcf hc hadm hok
    rw [hsound.now]
    exact hleads.all (hes.keeps_inTerm hadm) hinv

/-- The length on record is that of every label the name is the namehash of. -/
theorem InTerm.labelLen_eq (hcf : CollisionFree T.keccak256 T.baseNode L) {now : Moment}
    {info : RegistrarInfo} (h : InTerm T L now n info) {l : Bytes} (hl : l ∈ L)
    (hn : n = (Name.top l).node T.keccak256 T.baseNode) : info.labelLen.toNat = l.length := by
  obtain ⟨l', hl', hn', hlen⟩ := h.labelLen
  obtain rfl : l = l' := by simpa using hcf (.top l) (.top l') hl hl' (hn.symm.trans hn')
  exact hlen

/-- No row of a reachable state ends after the maximal duration from now; its capacity
is the default and its length that of the label. So a renewal sets the row to end
after exactly that duration, no sooner than before, and charges the fee that any
registration of the label is charged under the same prices. -/
theorem registration_clock (hcf : CollisionFree T.keccak256 T.baseNode L)
    (h : Reachable T L s) :
    (∀ n info, s.registrar.registrarInfos.get n = some info →
      info.expire.toNat ≤ s.now.toNat + T.maxRegistrationDuration.toNat ∧
      info.capacity = T.defaultCapacity ∧ TopLevel T L n ∧
      ∀ l ∈ L, n = (Name.top l).node T.keccak256 T.baseNode →
        info.labelLen.toNat = l.length) ∧
    ∀ o s', renew s o = .ok s' → ∃ who n info info' fee, o = .signed who ∧
      s.registrar.ownerToPrimaryName.get who = some n ∧
      s.registrar.registrarInfos.get n = some info ∧
      s'.registrar.registrarInfos.get n = some info' ∧
      info'.expire.toNat = s.now.toNat + T.maxRegistrationDuration.toNat ∧
      info.expire ≤ info'.expire ∧ Charged s who fee s' ∧
      ∀ (t t' : State T) caller name owner rejectOffer,
        t.priceOracle = s.priceOracle → toAsciiLowercase name ∈ L →
        topLevelNode T name = .ok n →
        register t (.signed caller) name owner rejectOffer = .ok t' →
        Charged t caller fee t' := by
  have hterms := h.inTerm hcf
  refine ⟨fun n info hinfo => ?_, fun o s' hrenew => ?_⟩
  · have hin := hterms n info hinfo
    obtain ⟨l, hl, hn, -⟩ := hin.labelLen
    exact ⟨hin.expire, hin.capacity, ⟨l, hl, hn⟩, fun l' hl' => hin.labelLen_eq hcf hl'⟩
  · obtain ⟨who, n, info, fee, balances, expire, rfl, hn, hinfo, -, hfee, hburn, hexpire, rfl⟩ :=
      renew_eq_ok hrenew
    have hin := hterms n info hinfo
    have hend := Moment.checkedAdd_eq_some hexpire
    refine ⟨who, n, info, { info with expire := expire }, fee, rfl, hn, hinfo, ?_, hend, ?_,
      (burnFee_charged hburn :), ?_⟩
    · exact (StorageMap.get_insert _ _ _ _).trans (if_pos rfl)
    · exact UInt64.le_iff_toNat_le.mpr (hin.expire.trans hend.ge)
    · intro t t' caller name owner rejectOffer hprices hL hname hreg
      obtain ⟨caller', fee', hcaller, hfee', hcharged'⟩ := register_charged hreg
      obtain rfl : caller = caller' := Origin.signed.inj hcaller
      have hlen : info.labelLen.toNat = name.length := by
        rw [hin.labelLen_eq hcf hL (topLevelNode_eq hname), length_toAsciiLowercase]
      rw [hprices, ← hlen, hfee] at hfee'
      obtain rfl : fee = fee' := Option.some.inj hfee'
      exact hcharged'

open Devnet in
/-- Account 1 renews `alice`: the term ends after the maximal duration from now. -/
theorem registration_clock_alice :
    ∃ s' info', renew afterRegistration (.signed (account 1)) = .ok s' ∧
      s'.registrar.registrarInfos.get (node alice) = some info' ∧
      info'.expire.toNat
        = afterRegistration.now.toNat + config.maxRegistrationDuration.toNat := by
  obtain ⟨s', hok⟩ : ∃ s', renew afterRegistration (.signed (account 1)) = .ok s' :=
    ⟨_, eq_ok_get (by decide +kernel)⟩
  obtain ⟨who, n, info, info', fee, hwho, hn, -, hinfo', hexpire, -⟩ :=
    (registration_clock (T := config) collisionFree afterRegistration_reachable).2 _ s' hok
  have hprimary : afterRegistration.registrar.ownerToPrimaryName.get (account 1)
      = some (node alice) := by decide +kernel
  obtain rfl : account 1 = who := Origin.signed.inj hwho
  obtain rfl : node alice = n := Option.some.inj (hprimary.symm.trans hn)
  exact ⟨s', info', hok, hinfo', hexpire⟩

/-! ## The history -/

/-- The calls that set a term. -/
inductive TermCall where
  | register
  | renew
deriving DecidableEq

/-- A successful call that set the term of a name, with its block and time. -/
structure TermEntry where
  node : DomainHash
  call : TermCall
  block : UInt32
  time : Moment
deriving DecidableEq

/-- The calls that set terms in a run, the latest first. -/
abbrev TermHistory : Type := List TermEntry

/-- The latest call that set the term of `n`. -/
def TermHistory.latest (hist : TermHistory) (n : DomainHash) : Option TermEntry :=
  hist.find? fun e => e.node = n

/-- The latest registration of `n`. -/
def TermHistory.latestRegister (hist : TermHistory) (n : DomainHash) : Option TermEntry :=
  hist.find? fun e => e.node = n ∧ e.call = .register

/-- What a call enters in the history if it succeeds. -/
def termEntry (s : State T) (o : Origin) : Call T → Option TermEntry
  | .register name _ _ => (topLevelNode T name).toOption.map fun n =>
    { node := n, call := .register, block := s.blockNumber, time := s.now }
  | .renew =>
    match o with
    | .signed who => (s.registrar.ownerToPrimaryName.get who).map fun n =>
      { node := n, call := .renew, block := s.blockNumber, time := s.now }
    | .root | .none => none
  | _ => none

/-- The history after an input. -/
def noteTerm (s : State T) : Input T → TermHistory → TermHistory
  | .extrinsic o call, hist =>
    if (dispatch s o call).isOk then (termEntry s o call).toList ++ hist else hist
  | .newBlock _ _ _ _, hist => hist

/-- The chain with the history of its terms. -/
def termChain (T : Config) : Machine (State T × TermHistory) (Input T) :=
  (chain T).logging [] noteTerm

/-- The row of a name is what the history says. -/
structure Recorded (T : Config) (hist : TermHistory) (n : DomainHash) (info : RegistrarInfo) :
    Prop where
  expire : ∃ e, hist.latest n = some e ∧
    info.expire.toNat = e.time.toNat + T.maxRegistrationDuration.toNat
  lastBlock : ∃ e, hist.latestRegister n = some e ∧ info.lastBlock = e.block

theorem Recorded.cons {hist : TermHistory} {info : RegistrarInfo} {e : TermEntry}
    (h : Recorded T hist n info) (hne : n ≠ e.node) : Recorded T (e :: hist) n info := by
  have hlatest : TermHistory.latest (e :: hist) n = hist.latest n :=
    List.find?_cons_of_neg (by simpa using Ne.symm hne)
  have hregister : TermHistory.latestRegister (e :: hist) n = hist.latestRegister n :=
    List.find?_cons_of_neg (by simp [Ne.symm hne])
  exact ⟨hlatest ▸ h.expire, hregister ▸ h.lastBlock⟩

theorem Enrols.recorded {hist : TermHistory} {r' : Roll DomainHash RegistrarInfo}
    (h : Enrols s o call es) (hleads : Leads counterWidth (roll s) es r')
    (hinv : ∀ m x, (roll s).entry m = some x → Recorded T hist m x) :
    ∀ m x, r'.entry m = some x → Recorded T ((termEntry s o call).toList ++ hist) m x := by
  cases h with
  | @register who dest name rejectOffer n fee expire hn hlabel hfee hexpire =>
    -- the rejected gift is struck off first; the entry of `n` is then the registration's
    obtain ⟨r₁, hstrikes, hlast⟩ := leads_append.mp hleads
    obtain ⟨-, hlast⟩ := leads_cons.mp hlast
    obtain rfl := leads_nil.mp hlast
    have hentry : termEntry s (.signed who) (.register name (.id dest) rejectOffer)
        = some ⟨n, .register, s.blockNumber, s.now⟩ := by
      simp [termEntry, hn, Except.toOption]
    rw [hentry]
    refine Event.all_apply (hstrikes.all strikes_keeps hinv) (fun m x hm hx => hx.cons hm) ?_
    intro x hx
    obtain rfl : enrolment T s.blockNumber fee expire name.length (r₁.entry n) = x := by
      simpa [Event.apply, Event.node] using hx
    refine ⟨⟨_, List.find?_cons_of_pos (by simp [Event.node]), ?_⟩,
      ⟨_, List.find?_cons_of_pos (by simp [Event.node]), ?_⟩⟩
    · rw [enrolment_expire, Moment.checkedAdd_eq_some hexpire]
    · exact enrolment_lastBlock
  | @renew who n expire hn hexpire =>
    obtain ⟨-, hlast⟩ := leads_cons.mp hleads
    obtain rfl := leads_nil.mp hlast
    have hentry : termEntry s (.signed who) .renew = some ⟨n, .renew, s.blockNumber, s.now⟩ := by
      simp [termEntry, hn]
    rw [hentry]
    refine Event.all_apply hinv (fun m x hm hx => hx.cons hm) ?_
    intro x hx
    obtain ⟨info, hinfo, rfl⟩ : ∃ info, (roll s).entry n = some info ∧
        { info with expire := expire } = x := by
      simpa [Event.apply, Event.node] using hx
    refine ⟨⟨_, List.find?_cons_of_pos (by simp [Event.node]),
      Moment.checkedAdd_eq_some hexpire⟩, ?_⟩
    -- a renewal is no registration, and the block is not written
    obtain ⟨e, he, hblock⟩ := (hinv n info hinfo).lastBlock
    exact ⟨e, (List.find?_cons_of_neg (by simp)).trans he, hblock⟩
  | other hterm =>
    have hentry : termEntry s o call = none := by
      cases call <;> first | rfl | cases hterm
    rw [hentry]
    exact hleads.all strikes_keeps hinv

theorem termChain_recorded (hcf : CollisionFree T.keccak256 T.baseNode L)
    {p : State T × TermHistory}
    (h : (termChain T).Reach (fun p i => Admissible L p.1 i) p) :
    Consistent T L p.1 ∧
      ∀ n info, p.1.registrar.registrarInfos.get n = some info → Recorded T p.2 n info := by
  refine logging_invariant (P := fun _ _ => True) (I := fun (s : State T) hist => ∀ n info,
    s.registrar.registrarInfos.get n = some info → Recorded T hist n info) hcf ?_ ?_ ?_ ?_
    (h.mono fun _ _ hadm => ⟨hadm, trivial⟩)
  · intro root balances parentHash s hs n info hinfo
    simp [genesis_registrarInfos hs] at hinfo
  · exact fun s hist now number hash ledger _ hinv => hinv
  · intro s hist o call err hres
    simp [noteTerm, hres, Except.isOk, Except.toBool]
  · intro s hist o call s' hc hadm _ hok _ hinv
    obtain ⟨es, hes, hleads⟩ := dispatch_enrols hcf hc hadm hok
    have hnote : noteTerm s (.extrinsic o call) hist = (termEntry s o call).toList ++ hist := by
      simp [noteTerm, hok, Except.isOk, Except.toBool]
    rw [hnote]
    exact hes.recorded hleads hinv

/-- In every run the expiry on record is that of the latest call that set the term of the
name, and the block that of its latest registration. So the block is that of the
latest call exactly if the name was registered in that block. The other calls change
no row, except that a burn removes that of its name. -/
theorem registration_history (hcf : CollisionFree T.keccak256 T.baseNode L)
    {p : State T × TermHistory}
    (h : (termChain T).Reach (fun p i => Admissible L p.1 i) p) :
    (∀ n info, p.1.registrar.registrarInfos.get n = some info →
      ∃ last reg, p.2.latest n = some last ∧ p.2.latestRegister n = some reg ∧
        info.expire.toNat = last.time.toNat + T.maxRegistrationDuration.toNat ∧
        info.lastBlock = reg.block ∧
        (info.lastBlock = last.block ↔ reg.block = last.block)) ∧
    ∀ o call s', call.setsTerm = false → (∀ l ∈ call.labels, l ∈ L) →
      dispatch p.1 o call = .ok s' → ∀ n, burnedBy p.1 o call ≠ some n →
        s'.registrar.registrarInfos.get n = p.1.registrar.registrarInfos.get n := by
  obtain ⟨hc, hrec⟩ := termChain_recorded hcf h
  refine ⟨fun n info hinfo => ?_, fun o call s' hterm hL hok n hn => ?_⟩
  · obtain ⟨⟨last, hlast, hexpire⟩, reg, hreg, hblock⟩ := hrec n info hinfo
    exact ⟨last, reg, hlast, hreg, hexpire, hblock, by rw [hblock]⟩
  · obtain ⟨es, hes, hleads⟩ := dispatch_enrols hcf hc hL hok
    cases hes with
    | register _ _ _ _ => cases hterm
    | renew _ _ => cases hterm
    | other _ => exact strikes_entry hleads hn

/-- Account 1 registers `alice`, and renews it in the next block. -/
def Devnet.renewalInputs : List (Input Devnet.config) :=
  [ .extrinsic (.signed (account 1)) (.register alice (.id (account 1)) none),
    .newBlock 6000 1 (digest 1) balances,
    .extrinsic (.signed (account 1)) .renew ]

/-- The development chain with the history of its terms, after some inputs. -/
def Devnet.termsAfter (inputs : List (Input Devnet.config)) :
    State Devnet.config × TermHistory :=
  (termChain config).run (start, []) inputs

open Devnet in
theorem Devnet.termsAfter_reach {inputs : List (Input config)}
    (h : (termChain config).Along (fun p i => Admissible labels p.1 i) (start, []) inputs) :
    (termChain config).Reach (fun p i => Admissible labels p.1 i) (termsAfter inputs) :=
  Machine.Reach.run (.init ⟨start_init, rfl⟩) h

open Devnet in
/-- The term of `alice` after the renewal is that of the renewal. -/
theorem registration_history_renewal :
    ∃ info last, (termsAfter renewalInputs).1.registrar.registrarInfos.get (node alice)
        = some info ∧
      (termsAfter renewalInputs).2.latest (node alice) = some last ∧ last.call = .renew ∧
      info.expire.toNat = last.time.toNat + config.maxRegistrationDuration.toNat := by
  have hsome : ((termsAfter renewalInputs).1.registrar.registrarInfos.get (node alice)).isSome
      = true := by decide +kernel
  have hcall : ∀ e ∈ (termsAfter renewalInputs).2.latest (node alice), e.call = .renew := by
    decide +kernel
  obtain ⟨info, hinfo⟩ := Option.isSome_iff_exists.mp hsome
  obtain ⟨last, reg, hlast, -, hexpire, -⟩ := (registration_history (T := config) collisionFree
    (termsAfter_reach (by decide +kernel))).1 _ info hinfo
  exact ⟨info, last, hinfo, hlast, hcall last hlast, hexpire⟩

open Devnet in
/-- After the renewal in block 1 the row still names block 0. -/
theorem renew_leaves_lastBlock :
    (termChain config).Reach (fun p i => Admissible labels p.1 i) (termsAfter renewalInputs) ∧
      ((termsAfter renewalInputs).2.latest (node alice)).map TermEntry.block = some 1 ∧
      ((termsAfter renewalInputs).1.registrar.registrarInfos.get (node alice)).map
        RegistrarInfo.lastBlock = some 0 :=
  ⟨termsAfter_reach (by decide +kernel), by decide +kernel⟩

/-! ## The counter of the base node -/

/-- The number of minted top-level names. -/
def mintedNames (s : State T) : ℕ :=
  s.nft.tokens.count fun k _ => k.1 = classZero ∧ k.2 ≠ T.baseNode

/-- The number of burns after an input. -/
def noteBurn (s : State T) : Input T → ℕ → ℕ
  | .extrinsic o call, burns =>
    if (dispatch s o call).isOk then burns + (burnedBy s o call).toList.length else burns
  | .newBlock _ _ _ _, burns => burns

/-- The chain with the number of names burned so far. -/
def burnChain (T : Config) : Machine (State T × ℕ) (Input T) := (chain T).logging 0 noteBurn

theorem Enrols.sum_strikes (h : Enrols s o call es) :
    (es.map Event.strikes).sum = (burnedBy s o call).toList.length := by
  cases h with
  | register _ _ _ _ =>
    rw [List.map_append, List.sum_append, strikes_sum]
    rfl
  | renew _ _ => rfl
  | other _ => exact strikes_sum _

theorem genesis_counts {root : AccountId} {balances : T.Ledger} {parentHash : H256}
    (h : genesis T root balances parentHash = .ok s) : Counts counterWidth (roll s) 0 := by
  refine ⟨∅, fun n => ?_, ?_⟩
  · simp [roll, genesis_registrarInfos h]
  · unfold genesis genesisNft Nft.createClass at h
    simp only [bind_eq_ok, okOr_eq_ok, ensure_eq_ok, pure_eq_ok] at h
    obtain ⟨nft, ⟨_, ⟨metadata, -, -, -, rfl⟩, hmint⟩, rfl⟩ := h
    have hchildren : nft.childrenOf T.baseNode = some 0 :=
      (mint_childrenOf hmint T.baseNode).trans (if_pos rfl)
    simp [roll, hchildren]

theorem burnChain_counts (hcf : CollisionFree T.keccak256 T.baseNode L) {p : State T × ℕ}
    (h : (burnChain T).Reach (fun p i => Admissible L p.1 i) p) :
    Consistent T L p.1 ∧ Counts counterWidth (roll p.1) p.2 := by
  refine logging_invariant (P := fun _ _ => True)
    (I := fun (s : State T) burns => Counts counterWidth (roll s) burns) hcf ?_ ?_ ?_ ?_
    (h.mono fun _ _ hadm => ⟨hadm, trivial⟩)
  · exact fun root balances parentHash s hs => genesis_counts hs
  · exact fun s burns now number hash ledger _ hinv => hinv
  · intro s burns o call err hres
    simp [noteBurn, hres, Except.isOk, Except.toBool]
  · intro s burns o call s' hc hadm _ hok _ hinv
    obtain ⟨es, hes, hleads⟩ := dispatch_enrols hcf hc hadm hok
    have hnote : noteBurn s (.extrinsic o call) burns
        = burns + (burnedBy s o call).toList.length := by
      simp [noteBurn, hok, Except.isOk, Except.toBool]
    rw [hnote, ← hes.sum_strikes]
    exact hinv.after hleads

/-- The names on the roll are the minted ones. -/
theorem card_eq_mintedNames (hc : Consistent T L s) {S : Finset DomainHash}
    (hS : ∀ n, n ∈ S ↔ ((roll s).entry n).isSome = true) : S.card = mintedNames s := by
  have hinj : Function.Injective fun n : DomainHash => (classZero, n) :=
    fun a b hab => congrArg Prod.snd hab
  rw [mintedNames, StorageMap.count_eq_card, ← Finset.card_image_of_injective S hinj]
  congr 1
  ext ⟨k, n⟩
  rw [StorageMap.mem_matching, Finset.mem_image]
  constructor
  · rintro ⟨m, hm, hmn⟩
    obtain ⟨rfl, rfl⟩ := Prod.mk.inj hmn
    obtain ⟨hne, hminted⟩ := (hc.hierarchy.info m).mp ((hS m).mp hm)
    rw [NftStorage.ownerOf_isSome] at hminted
    obtain ⟨info, hinfo⟩ := Option.isSome_iff_exists.mp hminted
    exact ⟨info, hinfo, by simpa using hne⟩
  · rintro ⟨info, hinfo, hp⟩
    obtain ⟨rfl, hne⟩ : k = classZero ∧ n ≠ T.baseNode := by simpa using hp
    refine ⟨n, (hS n).mpr ((hc.hierarchy.info n).mpr ⟨hne, ?_⟩), rfl⟩
    rw [NftStorage.ownerOf_isSome, hinfo]
    rfl

/-- The counter of the base node is the number of minted names and of the burns so far. So
it is the number of names exactly as long as the burns are a multiple of `2 ^ 32`. -/
theorem base_counter (hcf : CollisionFree T.keccak256 T.baseNode L) {p : State T × ℕ}
    (h : (burnChain T).Reach (fun p i => Admissible L p.1 i) p) :
    ∃ children, p.1.nft.childrenOf T.baseNode = some children ∧
      children.toNat = (mintedNames p.1 + p.2) % 2 ^ 32 ∧
      (children.toNat = mintedNames p.1 ↔ mintedNames p.1 < 2 ^ 32 ∧ 2 ^ 32 ∣ p.2) := by
  obtain ⟨hc, S, hS, hcount⟩ := burnChain_counts hcf h
  obtain ⟨children, hchildren⟩ := base_childrenOf hc
  have heq : children.toNat = (mintedNames p.1 + p.2) % 2 ^ 32 := by
    rw [← card_eq_mintedNames hc hS]
    simpa [roll, hchildren, counterWidth] using hcount
  refine ⟨children, hchildren, heq, ?_⟩
  rw [heq]
  exact counter_exact_iff (by decide) _ _

/-- The development chain with the number of burns, after some inputs. -/
def Devnet.burnsAfter (inputs : List (Input Devnet.config)) : State Devnet.config × ℕ :=
  (burnChain config).run (start, 0) inputs

open Devnet in
theorem Devnet.burnsAfter_reach {inputs : List (Input config)}
    (h : (burnChain config).Along (fun p i => Admissible labels p.1 i) (start, 0) inputs) :
    (burnChain config).Reach (fun p i => Admissible labels p.1 i) (burnsAfter inputs) :=
  Machine.Reach.run (.init ⟨start_init, rfl⟩) h

/-- Account 1 registers `alice`. -/
def Devnet.registrationInputs : List (Input Devnet.config) :=
  [.extrinsic (.signed (account 1)) (.register alice (.id (account 1)) none)]

open Devnet in
/-- After a registration and no burn the counter is exact. -/
theorem base_counter_registration :
    ∃ children, (burnsAfter registrationInputs).1.nft.childrenOf config.baseNode = some children ∧
      children.toNat = mintedNames (burnsAfter registrationInputs).1 := by
  have hreach : (burnChain config).Reach (fun p i => Admissible labels p.1 i)
      (burnsAfter registrationInputs) := burnsAfter_reach (by decide +kernel)
  obtain ⟨children, hchildren, -, hiff⟩ := base_counter (T := config) collisionFree hreach
  exact ⟨children, hchildren, hiff.mpr (by decide +kernel)⟩

open Devnet in
/-- Registered and released: no name is left, and the counter is one. -/
theorem release_keeps_base_counter :
    (burnChain config).Reach (fun p i => Admissible labels p.1 i)
        (burnsAfter (registrationInputs ++ [.extrinsic (.signed (account 1)) .releaseName])) ∧
      mintedNames (burnsAfter (registrationInputs ++
        [.extrinsic (.signed (account 1)) .releaseName])).1 = 0 ∧
      (burnsAfter (registrationInputs ++
        [.extrinsic (.signed (account 1)) .releaseName])).1.nft.childrenOf config.baseNode
        = some 1 :=
  ⟨burnsAfter_reach (by decide +kernel), by decide +kernel⟩

end PnsPallets
