import PnsPallets.Ddns
import PnsPallets.Devnet
import PnsPallets.Names.Grammar
import PnsPallets.Reachability
import PnsPallets.RuntimeApi

/-!
# What the resolvers store and answer

Three results about the records and texts of nodes, all read off the zone:

- data is stored under names and active subnames only (`stored_data_rooted`);
- `get_info` and `resolve_name` are silent about pending and expired names, but
  `lookup` and `lookup_by_name` read the storage without asking: they are silent
  only about names that are gone (`dead_name_dark_iff`);
- the anchors SS58 and ORIGIN are protected by their kinds, while clients see
  codes, and `Unknown` gives an owner the same codes. Without contents of these two
  kinds an answer under the code of an anchor is what the chain wrote last
  (`anchor_codes_unforged`).
-/

namespace PnsPallets

open Frame Registry Registrar Zones

variable {T : Config} {L : Set Bytes} {s : State T} {n c : DomainHash}

/-! ## No orphaned data -/

/-- The node is a top-level token or an active subname. -/
def Rooted (L : Set Bytes) (s : State T) (n : DomainHash) : Prop :=
  TopLevel T L n ∧ (s.nft.ownerOf n).isSome = true ∨
    ∃ d, s.registry.subnameRecords.get n = some d ∧ d.state = .active

theorem Reachable.bare (hcf : CollisionFree T.keccak256 T.baseNode L) (h : Reachable T L s)
    (hn : ¬ Rooted L s n) : (zone s).Bare n := by
  refine (h.upkept hcf).rooted n ?_ fun hact => hn (Or.inr (zone_active.mp hact))
  cases hown : (zone s).owner n with
  | none => rfl
  | some a =>
    obtain ⟨hne, hown⟩ := view_owner_eq_some.mp hown
    have hminted : (s.nft.ownerOf n).isSome = true := by rw [hown]; rfl
    exact absurd (Or.inl ⟨(h.consistent hcf).hierarchy.top n hminted hne, hminted⟩) hn

/-- Nothing is stored under a bare node. -/
theorem bare_resolvers (h : (zone s).Bare n) :
    (∀ rt, s.resolvers.records.get (n, rt) = none) ∧
      ∀ k, s.resolvers.texts.get (n, k) = none :=
  ⟨fun rt => Option.map_eq_none_iff.mp (h.1 rt), fun k => Option.map_eq_none_iff.mp (h.2 k)⟩

/-- No name over `L` hashes to the zero node. -/
def ZeroFree (T : Config) (L : Set Bytes) : Prop :=
  ∀ x : Name, x.Over L → x.node T.keccak256 T.baseNode ≠ H256.zero

theorem not_rooted_zero (hcf : CollisionFree T.keccak256 T.baseNode L) (hzero : ZeroFree T L)
    (h : Reachable T L s) : ¬ Rooted L s H256.zero := by
  rintro (⟨⟨l, hl, heq⟩, -⟩ | ⟨d, hd, -⟩)
  · exact hzero (.top l) hl heq.symm
  · obtain ⟨l, hl, hlabel, -, heq⟩ := (h.consistent hcf).indexed.named _ d hd
    exact hzero (.sub l _) ⟨hl, hlabel⟩ heq.symm

/-- In every reachable state records and texts are stored under top-level tokens and
active subnames only. So a step that ends a name or a subname leaves nothing stored
under it, and the lookup of a name that does not parse is empty. -/
theorem stored_data_rooted (hcf : CollisionFree T.keccak256 T.baseNode L)
    (hzero : ZeroFree T L) (h : Reachable T L s) :
    (∀ n rt, (s.resolvers.records.get (n, rt)).isSome = true → Rooted L s n) ∧
    (∀ n k, (s.resolvers.texts.get (n, k)).isSome = true → Rooted L s n) ∧
    (∀ i, Admissible L s i → ∀ n, ¬ Rooted L (apply s i) n →
      (∀ rt, (apply s i).resolvers.records.get (n, rt) = none) ∧
        ∀ k, (apply s i).resolvers.texts.get (n, k) = none) ∧
    ∀ name, parseNameToNode T.keccak256 name T.baseNode = none →
      ∀ types, lookupByName s name types = [] := by
  refine ⟨fun n rt hsome => ?_, fun n k hsome => ?_, fun i hadm n hn => ?_,
    fun name hname types => ?_⟩
  · by_contra hn
    rw [(bare_resolvers (h.bare hcf hn)).1] at hsome
    cases hsome
  · by_contra hn
    rw [(bare_resolvers (h.bare hcf hn)).2] at hsome
    cases hsome
  · exact bare_resolvers ((h.step hadm).bare hcf hn)
  · unfold lookupByName
    rw [hname]
    exact Resolvers.lookup_eq_nil (h.bare hcf (not_rooted_zero hcf hzero h)).1 types

/-- Account 1 registers `alice`, stores a text and releases the name. -/
def Devnet.releaseInputs : List (Input Devnet.config) :=
  [ .extrinsic (.signed (account 1)) (.register alice (.id (account 1)) none),
    .extrinsic (.signed (account 1)) (.setText alice .Url ⟨[1], by decide⟩),
    .extrinsic (.signed (account 1)) .releaseName ]

theorem Devnet.zeroFree : ZeroFree config labels := fun x hx =>
  (by decide +kernel : ∀ x ∈ Name.all [alice, bob], x.node keccak256 dotBasenode ≠ H256.zero)
    x (Name.mem_all hx)

open Devnet in
theorem stored_data_rooted_after_release :
    (after releaseInputs).resolvers.texts.get (node alice, .Url) = none ∧
      lookupByName (after releaseInputs) [] [.A] = [] := by
  have hreach : Reachable config labels (after releaseInputs) :=
    reachable_after (by decide +kernel)
  obtain ⟨-, htexts, -, hempty⟩ := stored_data_rooted collisionFree zeroFree hreach
  refine ⟨?_, hempty [] (by decide +kernel) _⟩
  cases htext : (after releaseInputs).resolvers.texts.get (node alice, .Url) with
  | none => rfl
  | some v =>
    have hroot := htexts (node alice) .Url (by rw [htext]; rfl)
    have hnone : (after releaseInputs).nft.ownerOf (node alice) = none := by decide +kernel
    have hsub : (after releaseInputs).registry.subnameRecords.get (node alice) = none := by
      decide +kernel
    simp [Rooted, hnone, hsub] at hroot

/-! ## Dead and pending names -/

/-- The name waits as a gift, or is past its expiry. -/
def Dead (s : State T) (n : DomainHash) : Prop :=
  (s.registrar.offeredNames.get n).isSome = true ∨
    ∃ info, s.registrar.registrarInfos.get n = some info ∧ info.expire ≤ s.now

/-- Every read path is silent about the node. -/
structure Dark (s : State T) (n : DomainHash) : Prop where
  getInfo : getInfo s n = none
  resolveName : ∀ name, parseNameToNode T.keccak256 name T.baseNode = some n →
    resolveName s name = none
  lookup : ∀ types, lookupNode s n types = []
  lookupByName : ∀ name types, parseNameToNode T.keccak256 name T.baseNode = some n →
    lookupByName s name types = []

/-- `get_info` and `resolve_name` have the gate. -/
theorem Dead.silent (h : Dead s n) :
    getInfo s n = none ∧ ∀ name, parseNameToNode T.keccak256 name T.baseNode = some n →
      resolveName s name = none := by
  refine ⟨nameRecord_eq_none h, fun name hname => ?_⟩
  unfold resolveName
  cases hlabel : Label.newWithLen T.keccak256 name with
  | none => rfl
  | some label =>
    rw [parseNameToNode_of_newWithLen hlabel, Option.some.injEq] at hname
    show nameRecord s _ = none
    rw [hname]
    exact nameRecord_eq_none h

/-- Names and active subnames have an SS58 record, which every lookup returns. -/
theorem Reachable.lookup_ne_nil (hcf : CollisionFree T.keccak256 T.baseNode L)
    (h : Reachable T L s)
    (hn : ((zone s).owner n).isSome = true ∨ (zone s).Active n) (types : List RecordType) :
    Resolvers.lookup s.resolvers n types ≠ [] := by
  obtain ⟨v, hv, hlen⟩ := (h.upkept hcf).marked n hn
  have hcontent : v = Resolvers.contentOf s.resolvers n .SS58 := by
    show v = (Resolvers.recordOf s.resolvers n .SS58).getD []
    rw [show Resolvers.recordOf s.resolvers n .SS58 = some v from hv]
    rfl
  have hne : v ≠ [] := by
    rintro rfl
    cases hlen
  exact List.ne_nil_of_mem
    (Resolvers.mem_lookup (e := (.SS58, v)).mpr ⟨⟨hcontent, hne⟩, Or.inl rfl⟩)

/-- A lookup is empty exactly if nothing is rooted at the node, whatever it asks for. -/
theorem Reachable.lookup_eq_nil_iff (hcf : CollisionFree T.keccak256 T.baseNode L)
    (h : Reachable T L s) (types : List RecordType) :
    Resolvers.lookup s.resolvers n types = [] ↔ ¬ Rooted L s n := by
  constructor
  · rintro hnil (⟨htop, hminted⟩ | hactive)
    · obtain ⟨a, hown⟩ := Option.isSome_iff_exists.mp hminted
      have hzone : (zone s).owner n = some a := view_owner_eq_some.mpr ⟨htop.ne_base hcf, hown⟩
      exact h.lookup_ne_nil hcf (Or.inl (by rw [hzone]; rfl)) types hnil
    · exact h.lookup_ne_nil hcf (Or.inr (zone_active.mpr hactive)) types hnil
  · intro hn
    exact Resolvers.lookup_eq_nil (h.bare hcf hn).1 types

/-- Of a dead name, `get_info` and `resolve_name` say nothing; the lookups are silent
exactly when the name has no token any more. The lookups of an active subname always
answer, whether its parent has expired or not. -/
theorem dead_name_dark_iff (hcf : CollisionFree T.keccak256 T.baseNode L)
    (h : Reachable T L s) :
    (∀ n, TopLevel T L n → Dead s n →
      (getInfo s n = none ∧ ∀ name, parseNameToNode T.keccak256 name T.baseNode = some n →
        resolveName s name = none) ∧
      (Dark s n ↔ s.nft.ownerOf n = none)) ∧
    ∀ c d info, s.registry.subnameRecords.get c = some d → d.state = .active →
      s.registrar.registrarInfos.get d.parent = some info → info.expire ≤ s.now →
      ∀ types, lookupNode s c types ≠ [] ∧
        ∀ name, parseNameToNode T.keccak256 name T.baseNode = some c →
          lookupByName s name types ≠ [] := by
  constructor
  · intro n htop hdead
    refine ⟨hdead.silent, fun hdark => ?_, fun hnone => ?_⟩
    · have hn := (h.lookup_eq_nil_iff hcf []).mp (hdark.lookup [])
      exact Option.not_isSome_iff_eq_none.mp fun hminted => hn (Or.inl ⟨htop, hminted⟩)
    · have hn : ¬ Rooted L s n := by
        rintro (⟨-, hminted⟩ | ⟨d, hd, -⟩)
        · rw [hnone] at hminted
          cases hminted
        · exact ((h.consistent hcf).indexed.named n d hd).not_topLevel hcf htop
      have hlookup := fun types => (h.lookup_eq_nil_iff hcf types).mpr hn
      refine ⟨hdead.silent.1, hdead.silent.2, hlookup, fun name types hname => ?_⟩
      unfold lookupByName
      rw [hname]
      exact hlookup types
  · intro c d info hd hactive _ _ types
    have hne : lookupNode s c types ≠ [] := fun hnil =>
      (h.lookup_eq_nil_iff hcf types).mp hnil (Or.inr ⟨d, hd, hactive⟩)
    refine ⟨hne, fun name hname => ?_⟩
    unfold lookupByName
    rw [hname]
    exact hne

/-- Account 3 burns a name it was given and never accepted. -/
def Devnet.discardedGiftInputs : List (Input Devnet.config) :=
  [ .extrinsic (.signed (account 1)) (.register alice (.id (account 1)) none),
    .extrinsic (.signed (account 1)) (.createListing 5000 1000000),
    .extrinsic (.signed (account 2)) (.buyName alice (some (account 3))),
    .extrinsic (.signed (account 3)) (.burn alice) ]

open Devnet in
theorem dead_name_dark_after_burn : Dark (after discardedGiftInputs) (node alice) :=
  ((dead_name_dark_iff collisionFree (reachable_after (by decide +kernel))).1 (node alice)
    ⟨alice, by decide, rfl⟩ (Or.inl (by decide +kernel))).2.mpr (by decide +kernel)

/-- Account 1 registers `alice`, and a year passes. -/
def Devnet.expiryInputs : List (Input Devnet.config) :=
  [ .extrinsic (.signed (account 1)) (.register alice (.id (account 1)) none),
    .newBlock config.maxRegistrationDuration 1 (digest 1) balances ]

open Devnet in
/-- The expired name still resolves, to the account of its old owner. -/
theorem expired_name_resolves :
    CollisionFree config.keccak256 config.baseNode labels ∧
      Reachable config labels (after expiryInputs) ∧
      ((after expiryInputs).registrar.registrarInfos.get (node alice)).any
        (fun info => info.expire ≤ (after expiryInputs).now) = true ∧
      (getInfo (after expiryInputs) (node alice)).isNone = true ∧
      lookupNode (after expiryInputs) (node alice) []
        = [(.SS58, (account 1).encode), (.ORIGIN, (digest 0).bytes)] ∧
      lookupByName (after expiryInputs) alice []
        = [(.SS58, (account 1).encode), (.ORIGIN, (digest 0).bytes)] :=
  ⟨collisionFree, reachable_after (by decide +kernel), by decide +kernel⟩

/-! ## Trust anchors -/

/-- The values the chain wrote last under a node, by record kind. -/
abbrev AnchorLog : Type := DomainHash → RecordType → Option Bytes

/-- The node at which an extrinsic calls `set_ss58_record` and `set_origin_record`, and
what it writes. -/
def chainWrites (s : State T) :
    Origin → Call T → Option (DomainHash × (RecordType → Option Bytes))
  | .signed _, .register name (.id owner) _ =>
    (topLevelNode T name).toOption.map fun n => (n, Resolvers.anchors owner s.parentHash)
  | .signed who, .transfer (.id dest) =>
    (s.registrar.ownerToPrimaryName.get who).map fun n =>
      (n, Resolvers.anchors dest s.parentHash)
  | .signed buyer, .buyName name recipient =>
    (Marketplace.listedNode T name).toOption.map fun n =>
      (n, Resolvers.anchors (recipient.getD buyer) s.parentHash)
  | .signed who, .acceptOfferedName name =>
    (topLevelNode T name).toOption.map fun n => (n, Resolvers.anchors who s.parentHash)
  | .signed who, .acceptSubdomain parent label =>
    (topLevelNode T parent >>= fun p => childNode T p label).toOption.map fun c =>
      (c, Resolvers.ss58 who)
  | _, _ => none

/-- The log after a write of the chain. -/
def noteWrite (log : AnchorLog) :
    Option (DomainHash × (RecordType → Option Bytes)) → AnchorLog
  | some (n, table) => Function.update log n (overlay table (log n))
  | none => log

/-- The log after an input. -/
def noteInput (s : State T) : Input T → AnchorLog → AnchorLog
  | .extrinsic o call, log =>
    if (dispatch s o call).isOk then noteWrite log (chainWrites s o call) else log
  | .newBlock _ _ _ _, log => log

/-- The chain with a log of what it wrote itself. -/
def loggedChain (T : Config) : Machine (State T × AnchorLog) (Input T) :=
  (chain T).logging (fun _ _ => none) noteInput

/-- The edits of an extrinsic write what it is noted with. -/
theorem Makes.note {o : Origin} {call : Call T} {es : List NameEdit} (h : Makes s o call es)
    (log : AnchorLog) :
    es.foldl Edit.note log = noteWrite log (chainWrites s o call) := by
  cases h with
  | register hn hr =>
    have hretract : ∀ {rej : Option Bytes} {es : List NameEdit} {who : AccountId},
        Retracts s who rej es → es.foldl Edit.note log = log := by
      intro rej es who hr
      cases hr <;> rfl
    simp only [List.foldl_append, hretract hr, chainWrites, hn]
    rfl
  | transfer hn =>
    simp only [chainWrites, hn]
    rfl
  | buyName hn =>
    simp only [chainWrites, hn]
    rfl
  | acceptOfferedName hn =>
    simp only [chainWrites, hn]
    rfl
  | acceptSubdomain hp hc =>
    have hnode : (topLevelNode T _ >>= fun p => childNode T p _) = .ok _ :=
      bind_eq_ok.mpr ⟨_, hp, hc⟩
    simp only [chainWrites, hnode]
    rfl
  | @silent o call hs => cases o <;> cases call <;> first | rfl | cases hs
  | _ => rfl

/-- The call stores nothing under a kind that has the code of an anchor, or an empty
content, which no lookup returns. -/
def Unforged (_ : State T) (_ : Origin) : Call T → Prop
  | .setRecord _ recordType content => content.val ≠ [] →
    recordType ≠ .Unknown ss58Code ∧ recordType ≠ .Unknown originCode
  | _ => True

theorem Makes.stores_unknown {o : Origin} {call : Call T} {es : List NameEdit} {code : UInt16}
    (h : Makes s o call es) (hun : Unforged s o call)
    (hcode : code = ss58Code ∨ code = originCode) :
    ∀ e ∈ es, e.Stores (.Unknown code) (· = []) := by
  cases h with
  | register _ hr =>
    cases hr <;> simp [Edit.Stores]
  | setRecord =>
    intro e he
    obtain rfl := List.mem_singleton.mp he
    rintro rfl
    by_contra hne
    rcases hcode with rfl | rfl
    · exact (hun hne).1 rfl
    · exact (hun hne).2 rfl
  | _ => simp [Edit.Stores]

/-- The chain writes no record of unknown kind. -/
theorem Makes.table_unknown {o : Origin} {call : Call T} {es : List NameEdit} {code : UInt16}
    (h : Makes s o call es) : ∀ e ∈ es, ∀ t, e.table = some t → t (.Unknown code) = none := by
  cases h with
  | register _ hr =>
    cases hr <;> simp [Edit.table, Resolvers.anchors]
  | _ => simp [Edit.table, Resolvers.anchors, Resolvers.ss58]

/-- The state of the logged chain: anchors have the logged values, and only empty contents
are stored under the kinds that share their codes. -/
structure Unforgeable (p : State T × AnchorLog) : Prop where
  logged : (zone p.1).Logged (fun k => k = .SS58 ∨ k = .ORIGIN) p.2
  unknown : ∀ code, code = ss58Code ∨ code = originCode →
    ∀ m v, (zone p.1).record m (.Unknown code) = some v → v = []

theorem Unforgeable.extrinsic {s' : State T} {log : AnchorLog} {o : Origin} {call : Call T}
    (hcf : CollisionFree T.keccak256 T.baseNode L) (hc : Consistent T L s)
    (hL : ∀ l ∈ call.labels, l ∈ L) (hun : Unforged s o call)
    (hok : dispatch s o call = .ok s') (h : Unforgeable (s, log)) :
    Unforgeable (s', noteWrite log (chainWrites s o call)) := by
  obtain ⟨es, hmakes, hleads⟩ := dispatch_edits hcf hc hL hok
  constructor
  · rw [← hmakes.note log]
    exact hleads.logged (fun e he k hk => hmakes.spares hk e he) h.logged
  · intro code hcode
    refine hleads.invariant (I := fun z => ∀ m v, z.record m (.Unknown code) = some v → v = [])
      (fun z e he _ hz => ?_) (h.unknown code hcode)
    refine e.record_all (hmakes.stores_unknown hun hcode e he) (fun t ht v hv => ?_) hz
    rw [hmakes.table_unknown e he t ht] at hv
    cases hv

/-- A run without such records keeps the anchors from being forged. -/
theorem loggedChain_unforgeable (hcf : CollisionFree T.keccak256 T.baseNode L)
    {p : State T × AnchorLog}
    (h : (loggedChain T).Reach (fun p i => Admissible L p.1 i ∧ OnSuccess Unforged p.1 i) p) :
    Consistent T L p.1 ∧ Unforgeable p := by
  refine logging_invariant (P := OnSuccess Unforged) (I := fun s log => Unforgeable (s, log))
    hcf ?_ ?_ ?_ ?_ h
  · intro root balances parentHash s hs
    have hblank := genesis_blank hs
    refine ⟨.of_blank hblank, fun _ _ m v hv => ?_⟩
    rw [hblank.record] at hv
    cases hv
  · intro s log now number hash ledger _ hu
    exact ⟨hu.logged, hu.unknown⟩
  · intro s log o call err hres
    simp [noteInput, hres, Except.isOk, Except.toBool]
  · intro s log o call s' hc hadm hun hres _ hu
    have hnote : noteInput s (.extrinsic o call) log = noteWrite log (chainWrites s o call) := by
      simp [noteInput, hres, Except.isOk, Except.toBool]
    rw [hnote]
    exact hu.extrinsic hcf hc hadm (hun.holds hres) hres

/-- What a lookup returns is stored, and not empty. -/
theorem record_of_mem_lookup {types : List RecordType} {e : RecordType × Bytes}
    (he : e ∈ lookupNode s n types) : (zone s).record n e.1 = some e.2 ∧ e.2 ≠ [] := by
  obtain ⟨⟨hcontent, hne⟩, -⟩ := Resolvers.mem_lookup.mp he
  refine ⟨?_, hne⟩
  show Resolvers.recordOf s.resolvers n e.1 = some e.2
  cases hr : Resolvers.recordOf s.resolvers n e.1 with
  | none => exact absurd (hcontent.trans (congrArg (Option.getD · []) hr)) hne
  | some v => rw [hcontent.trans (congrArg (Option.getD · []) hr)]; rfl

/-- A run that stores no content under the unknown kinds 65280 and 65290 forges no anchor:
whatever a lookup returns under one of these codes is what the chain wrote last for the
node. -/
theorem anchor_codes_unforged (dns : DnsCodes) (hcf : CollisionFree T.keccak256 T.baseNode L)
    {p : State T × AnchorLog}
    (h : (loggedChain T).Reach (fun p i => Admissible L p.1 i ∧ OnSuccess Unforged p.1 i) p)
    {types : List RecordType} {e : RecordType × Bytes} (he : e ∈ lookupNode p.1 n types) :
    (dns.wire e.1 = ss58Code → p.2 n .SS58 = some e.2) ∧
      (dns.wire e.1 = originCode → p.2 n .ORIGIN = some e.2) := by
  obtain ⟨-, hu⟩ := loggedChain_unforgeable hcf h
  obtain ⟨hrecord, hne⟩ := record_of_mem_lookup he
  constructor
  · intro hcode
    rcases RecordType.toDns_ss58 (dns.wire_anchor (Or.inl rfl) hcode) with hk | hk
    · exact hu.logged n .SS58 e.2 (Or.inl rfl) (hk ▸ hrecord)
    · exact absurd (hu.unknown _ (Or.inl rfl) n e.2 (hk ▸ hrecord)) hne
  · intro hcode
    rcases RecordType.toDns_origin (dns.wire_anchor (Or.inr rfl) hcode) with hk | hk
    · exact hu.logged n .ORIGIN e.2 (Or.inr rfl) (hk ▸ hrecord)
    · exact absurd (hu.unknown _ (Or.inr rfl) n e.2 (hk ▸ hrecord)) hne

/-- The codes of the assigned DNS record types. -/
def Devnet.dnsCodes : DnsCodes where
  code
    | .A => 1 | .AAAA => 28 | .ANAME => 65305 | .ANY => 255 | .AXFR => 252 | .CAA => 257
    | .CDS => 59 | .CDNSKEY => 60 | .CNAME => 5 | .CSYNC => 62 | .DNSKEY => 48 | .DS => 43
    | .HINFO => 13 | .HTTPS => 65 | .IXFR => 251 | .KEY => 25 | .MX => 15 | .NAPTR => 35
    | .NS => 2 | .NSEC => 47 | .NSEC3 => 50 | .NSEC3PARAM => 51 | .NULL => 10
    | .OPENPGPKEY => 61 | .OPT => 41 | .PTR => 12 | .RRSIG => 46 | .SIG => 24 | .SOA => 6
    | .SRV => 33 | .SSHFP => 44 | .SVCB => 64 | .TLSA => 52 | .TSIG => 250 | .TXT => 16
    | .Unknown code => code
    | .ZERO => 0
  unknown _ := rfl
  named t h := by
    cases t with
    | Unknown code => exact ⟨code, rfl⟩
    | _ => exact absurd h (by decide)

/-- The development chain with its log, after some inputs. -/
def Devnet.loggedAfter (inputs : List (Input Devnet.config)) : State Devnet.config × AnchorLog :=
  (loggedChain config).run (start, fun _ _ => none) inputs

/-- Account 1 registers `alice` and stores a record of kind `recordType`: the account id
of account 2. -/
def Devnet.recordInputs (recordType : RecordType) : List (Input Devnet.config) :=
  [ .extrinsic (.signed (account 1)) (.register alice (.id (account 1)) none),
    .extrinsic (.signed (account 1))
      (.setRecord alice recordType ⟨(account 2).encode, by decide⟩) ]

open Devnet in
theorem anchor_codes_unforged_beside_record :
    (loggedAfter (recordInputs .TXT)).2 (node alice) .SS58 = some (account 1).encode := by
  have hreach : (loggedChain config).Reach
      (fun p i => Admissible labels p.1 i ∧ OnSuccess Unforged p.1 i)
      (loggedAfter (recordInputs .TXT)) :=
    Machine.Reach.run (.init ⟨start_init, rfl⟩)
      (Machine.Along.and (by decide +kernel) ⟨fun _ => trivial, fun _ _ => (by decide :
        RecordType.TXT ≠ .Unknown ss58Code ∧ RecordType.TXT ≠ .Unknown originCode), trivial⟩)
  have hmem : (RecordType.SS58, (account 1).encode)
      ∈ lookupNode (loggedAfter (recordInputs .TXT)).1 (node alice) [.TXT] := by decide +kernel
  exact (anchor_codes_unforged dnsCodes collisionFree hreach hmem).1 rfl

open Devnet in
/-- An owner's record of the unknown kind 65280 is returned under the code of the SS58
record, with bytes of the owner's choice. -/
theorem unknown_kind_forges_anchor :
    CollisionFree config.keccak256 config.baseNode labels ∧
      (loggedChain config).Reach (fun p i => Admissible labels p.1 i)
        (loggedAfter (recordInputs (.Unknown ss58Code))) ∧
      (.Unknown ss58Code, (account 2).encode) ∈ lookupNode
        (loggedAfter (recordInputs (.Unknown ss58Code))).1 (node alice) [.Unknown ss58Code] ∧
      dnsCodes.wire (.Unknown ss58Code) = ss58Code ∧
      (loggedAfter (recordInputs (.Unknown ss58Code))).2 (node alice) .SS58
        = some (account 1).encode ∧
      (account 2).encode ≠ (account 1).encode :=
  ⟨collisionFree, Machine.Reach.run (.init ⟨start_init, rfl⟩) (by decide +kernel),
    by decide +kernel⟩

end PnsPallets
