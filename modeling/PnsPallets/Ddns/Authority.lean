import PnsPallets.Ddns.Records
import PnsPallets.RuntimeApi

/-!
# The DNS authority (pns-ddns/src/authority.rs)

`BlockChainAuthority` answers DNS queries for the zone `dot.` from the state of the
best block. The apex has a SOA and a NS record of its own. Below it a query is a
`lookup_by_name` of the runtime API for the queried type; the SS58 and ORIGIN records
come along, and the conversion drops them. An empty reply of the runtime means that
the name does not exist, an empty list of converted records that it has none of the
queried type.
-/

namespace PnsPallets

open Frame

/-- `hickory_proto::op::ResponseCode`, as far as it is used. -/
inductive ResponseCode where
  | nxDomain
  | servFail
deriving DecidableEq

/-- `hickory_server::authority::LookupError`. -/
inductive LookupError where
  | nameExists
  | responseCode (code : ResponseCode)
deriving DecidableEq

/-- `BlockChainAuthority` (authority.rs:35–39). -/
structure BlockChainAuthority (T : Config) (lib : DnsLibrary) where
  client : Client T
  origin : lib.DnsName

variable {T : Config} {lib : DnsLibrary}

/-- `"dot."`. -/
def zoneOrigin : Bytes := [100, 111, 116, 46]

/-- `BlockChainAuthority::new` (authority.rs:45–48). -/
def BlockChainAuthority.new (lib : DnsLibrary) (client : Client T) :
    Except Panic (BlockChainAuthority T lib) := do
  let origin ← unwrap (lib.fromStr zoneOrigin)
  pure { client := client, origin := origin }

/-- `str::strip_suffix`. -/
def stripSuffix (s suffix : Bytes) : Option Bytes :=
  if suffix.isSuffixOf s then some (s.take (s.length - suffix.length)) else none

/-- `extract_label` (authority.rs:105–114). -/
def extractLabel (name origin : lib.DnsName) : Option Bytes :=
  if name = origin then some []
  else stripSuffix (lib.display name) (dot :: lib.display origin)

/-- `"ns1.dot."`. -/
def nameServer : Bytes := [110, 115, 49, 46, 100, 111, 116, 46]

/-- `"hostmaster.dot."`. -/
def hostmaster : Bytes := [104, 111, 115, 116, 109, 97, 115, 116, 101, 114, 46, 100, 111, 116, 46]

/-- `synthesize_soa` (authority.rs:118–123). -/
def synthesizeSoa (origin : lib.DnsName) (serial : UInt32) : Except Panic (DnsRecord lib) := do
  let mname ← unwrap (lib.fromStr nameServer)
  let rname ← unwrap (lib.fromStr hostmaster)
  pure (.fromRdata origin 300 (.SOA mname rname serial 3600 900 86400 300))

/-- `synthesize_ns` (authority.rs:126–129). -/
def synthesizeNs (origin : lib.DnsName) : Except Panic (DnsRecord lib) := do
  let nsName ← unwrap (lib.fromStr nameServer)
  pure (.fromRdata origin 300 (.NS nsName))

/-- `MAX_CNAME_DEPTH` (lib.rs:27). -/
def maxCnameDepth : ℕ := 8

/-- The loop of `lookup` over the records of the runtime (authority.rs:342–354). -/
def convertAll (ownerName : lib.DnsName) (rtype : WireType lib.Variant) :
    List (RecordType × Bytes) → (cnameDepth : ℕ) → (dnsRecords : List (DnsRecord lib)) →
      Except Panic (List (DnsRecord lib))
  | [], _, dnsRecords => pure dnsRecords
  | (pnsType, data) :: rest, cnameDepth, dnsRecords =>
    let cnameDepth := if pnsType = .CNAME then cnameDepth + 1 else cnameDepth
    if pnsType = .CNAME ∧ cnameDepth > maxCnameDepth then pure dnsRecords
    else do
      let found ← pnsRecordToDns lib ownerName pnsType data rtype
      convertAll ownerName rtype rest cnameDepth (dnsRecords ++ found.toList)

/-- The records of the zone apex (authority.rs:287–295). -/
def apexRecords (origin : lib.DnsName) (serial : UInt32) (rtype : WireType lib.Variant) :
    Except Panic (List (DnsRecord lib)) :=
  if rtype = .known .SOA ∨ rtype = .known .ANY then do
    let soa ← synthesizeSoa origin serial
    pure [soa]
  -- the source names ANY here too; it has been taken by the arm above
  else if rtype = .known .NS ∨ rtype = .known .ANY then do
    let ns ← synthesizeNs origin
    pure [ns]
  else pure []

/-- The types the runtime is asked for (authority.rs:320–324). -/
def queryFilter (rtype : WireType lib.Variant) : Except Panic (List RecordType) :=
  if rtype = .known .ANY then pure RecordType.all
  else do
    let pnsType ← rtype.intoCodec
    pure [pnsType]

/-- `Continue(Ok(..))`, or that the name exists where there are no records. -/
def answer (records : List (DnsRecord lib)) : Except LookupError (List (DnsRecord lib)) :=
  if records.isEmpty then .error .nameExists else .ok records

/-- The answer of `lookup` for a name below the apex (authority.rs:310–361). -/
def BlockChainAuthority.lookupLabel (authority : BlockChainAuthority T lib) (name : lib.DnsName)
    (label : Bytes) (rtype : WireType lib.Variant) :
    Except Panic (Except LookupError (List (DnsRecord lib))) :=
  if rtype = .known .SOA then pure (.error .nameExists)
  else do
    let filter ← queryFilter rtype
    match authority.client.bestState with
    | none => pure (.error (.responseCode .servFail))
    | some s =>
      let rawRecords := lookupByName s label filter
      if rawRecords.isEmpty then pure (.error (.responseCode .nxDomain))
      else do
        let dnsRecords ← convertAll name rtype rawRecords 0 []
        pure (answer dnsRecords)

/-- `BlockChainAuthority::lookup` (authority.rs:269–362). -/
def BlockChainAuthority.lookup (authority : BlockChainAuthority T lib) (name : lib.DnsName)
    (rtype : WireType lib.Variant) : Except Panic (Except LookupError (List (DnsRecord lib))) :=
  let serial := authority.client.bestNumber.toUInt32
  if name = authority.origin then do
    let records ← apexRecords authority.origin serial rtype
    pure (answer records)
  else
    match extractLabel name authority.origin with
    | none => pure (.error (.responseCode .nxDomain))
    | some label => authority.lookupLabel name label rtype

/-! ## Answers below the apex -/

/-- The queried name is `label` below the apex of the zone. -/
def BlockChainAuthority.Below (authority : BlockChainAuthority T lib) (name : lib.DnsName)
    (label : Bytes) : Prop :=
  name ≠ authority.origin ∧ lib.display name = label ++ dot :: lib.display authority.origin

/-- The answer to a query has the record. -/
def BlockChainAuthority.Answers (authority : BlockChainAuthority T lib) (name : lib.DnsName)
    (rtype : WireType lib.Variant) (r : DnsRecord lib) : Prop :=
  ∃ records, authority.lookup name rtype = .ok (.ok records) ∧ r ∈ records

theorem stripSuffix_append (s suffix : Bytes) : stripSuffix (s ++ suffix) suffix = some s := by
  have hsuffix : suffix.isSuffixOf (s ++ suffix) = true :=
    List.isSuffixOf_iff_suffix.mpr (List.suffix_append s suffix)
  rw [stripSuffix, if_pos hsuffix]
  simp

variable {authority : BlockChainAuthority T lib} {name : lib.DnsName} {label : Bytes}
  {q : WireType lib.Variant} {s : State T}

theorem BlockChainAuthority.Below.extractLabel (h : authority.Below name label) :
    extractLabel name authority.origin = some label := by
  unfold PnsPallets.extractLabel
  rw [if_neg h.1, h.2, stripSuffix_append]

theorem BlockChainAuthority.Below.lookup_eq (h : authority.Below name label) :
    authority.lookup name q = authority.lookupLabel name label q := by
  unfold BlockChainAuthority.lookup
  rw [if_neg h.1, h.extractLabel]

/-- The loop converts every record, as long as the cap on CNAME records is not reached. -/
theorem convertAll_spec (owner : lib.DnsName) (q : WireType lib.Variant) :
    ∀ (raw : List (RecordType × Bytes)) (cnameDepth : ℕ) (dnsRecords : List (DnsRecord lib)),
      cnameDepth + (raw.map Prod.fst).count .CNAME ≤ maxCnameDepth →
      ∃ records, convertAll owner q raw cnameDepth dnsRecords = .ok records ∧
        ∀ r, r ∈ records ↔ r ∈ dnsRecords ∨
          ∃ e ∈ raw, pnsRecordToDns lib owner e.1 e.2 q = .ok (some r) := by
  intro raw
  induction raw with
  | nil =>
    intro cnameDepth dnsRecords _
    exact ⟨dnsRecords, rfl, fun r => by simp⟩
  | cons e raw ih =>
    intro cnameDepth dnsRecords hcap
    obtain ⟨pnsType, data⟩ := e
    rw [List.map_cons, List.count_cons] at hcap
    obtain ⟨found, hfound⟩ := pnsRecordToDns_returns owner pnsType data q
    have hbreak : ¬ (pnsType = .CNAME ∧
        (if pnsType = .CNAME then cnameDepth + 1 else cnameDepth) > maxCnameDepth) := by
      rintro ⟨rfl, hgt⟩
      simp at hcap hgt
      omega
    obtain ⟨records, hrecords, hmem⟩ := ih
      (if pnsType = .CNAME then cnameDepth + 1 else cnameDepth) (dnsRecords ++ found.toList) (by
        split
        · next heq =>
          simp [heq] at hcap
          omega
        · omega)
    refine ⟨records, ?_, fun r => ?_⟩
    · unfold convertAll
      dsimp only
      rw [if_neg hbreak, hfound]
      exact hrecords
    · rw [hmem, List.mem_append, List.exists_mem_cons_iff, hfound, Option.mem_toList, or_assoc,
        Except.ok.injEq]

/-- A query asks for CNAME records once at most. -/
theorem queryFilter_cname {filter : List RecordType} (h : queryFilter q = .ok filter) :
    filter.count .CNAME ≤ 1 := by
  unfold queryFilter at h
  split at h
  · rw [← pure_eq_ok.mp h]
    decide
  · obtain ⟨p, -, hp⟩ := bind_eq_ok.mp h
    rw [← pure_eq_ok.mp hp]
    exact (List.count_le_length).trans (le_refl 1)

/-- Below the apex, and but for SOA, a query is answered from what the runtime returns for
the types it asks for. -/
theorem lookup_below (hs : authority.client.bestState = some s) (hname : authority.Below name label)
    (hsoa : q ≠ .known .SOA) {filter : List RecordType} (hfilter : queryFilter q = .ok filter) :
    ∃ records, authority.lookup name q
        = .ok (if lookupByName s label filter = [] then .error (.responseCode .nxDomain)
          else answer records) ∧
      ∀ r, r ∈ records ↔
        ∃ e ∈ lookupByName s label filter, pnsRecordToDns lib name e.1 e.2 q = .ok (some r) := by
  have hcap : 0 + ((lookupByName s label filter).map Prod.fst).count .CNAME ≤ maxCnameDepth := by
    have hle := (Resolvers.lookup_sublist s.resolvers (nodeOfName T label) filter).count_le .CNAME
    have hone := queryFilter_cname hfilter
    calc
      _ ≤ 0 + (RecordType.SS58 :: .ORIGIN :: filter).count .CNAME := Nat.add_le_add_left hle 0
      _ ≤ 1 := by simpa using hone
      _ ≤ maxCnameDepth := by decide
  obtain ⟨records, hrecords, hmem⟩ := convertAll_spec name q _ 0 [] hcap
  refine ⟨records, ?_, fun r => ?_⟩
  · rw [hname.lookup_eq, BlockChainAuthority.lookupLabel, if_neg hsoa, hs]
    refine bind_eq_ok.mpr ⟨filter, hfilter, ?_⟩
    dsimp only
    by_cases hraw : lookupByName s label filter = []
    · rw [if_pos hraw, hraw]
      rfl
    · rw [if_neg hraw, if_neg (mt List.isEmpty_iff.mp hraw)]
      exact bind_eq_ok.mpr ⟨records, hrecords, rfl⟩
  · rw [hmem]
    simp

/-- The records of an answer are those that the records of the runtime convert to. -/
theorem answers_below (hs : authority.client.bestState = some s)
    (hname : authority.Below name label) (hsoa : q ≠ .known .SOA) {filter : List RecordType}
    (hfilter : queryFilter q = .ok filter) {r : DnsRecord lib} :
    authority.Answers name q r ↔
      ∃ e ∈ lookupByName s label filter, pnsRecordToDns lib name e.1 e.2 q = .ok (some r) := by
  obtain ⟨records, hlookup, hmem⟩ := lookup_below hs hname hsoa hfilter
  unfold BlockChainAuthority.Answers
  rw [hlookup, ← hmem]
  by_cases hraw : lookupByName s label filter = []
  · have hnone : r ∉ records := fun hr => by
      obtain ⟨e, he, -⟩ := (hmem r).mp hr
      rw [hraw] at he
      cases he
    simp [hraw, hnone]
  · cases records with
    | nil => simp [hraw, answer]
    | cons r' records => simp [hraw, answer]

/-- A query of one type is answered with the record of this type, if it is one that the
runtime returns and its bytes decode. -/
theorem answers_of_type (hs : authority.client.bestState = some s)
    (hname : authority.Below name label) {p : RecordType} (hq : q.intoCodec = .ok p)
    (hany : q ≠ .known .ANY) (hsoa : q ≠ .known .SOA) {r : DnsRecord lib} :
    authority.Answers name q r ↔
      p ∉ Resolvers.blocked ∧ Resolvers.contentOf s.resolvers (nodeOfName T label) p ≠ [] ∧
        ∃ d, Decodes lib p (Resolvers.contentOf s.resolvers (nodeOfName T label) p) d ∧
          r = .fromRdata name 300 d := by
  have hfilter : queryFilter q = .ok [p] := by
    unfold queryFilter
    rw [if_neg hany, hq]
    rfl
  obtain ⟨rfl, -⟩ := WireType.intoCodec_eq_ok.mp hq
  rw [answers_below hs hname hsoa hfilter]
  constructor
  · rintro ⟨⟨rt, data⟩, he, hr⟩
    obtain ⟨⟨hdata, hne⟩, hrt⟩ := mem_lookupByName.mp he
    dsimp only at hdata hne hrt hr
    subst hdata
    rcases hrt with rfl | rfl | ⟨hrt, hblocked⟩
    -- the anchors come along with every reply
    · rw [pnsRecordToDns_of_polkadotOnly name _ _ rfl] at hr
      simp at hr
    · rw [pnsRecordToDns_of_polkadotOnly name _ _ rfl] at hr
      simp at hr
    · obtain rfl : rt = p := List.mem_singleton.mp hrt
      exact ⟨hblocked, hne, (pnsRecordToDns_own name _).mp hr⟩
  · rintro ⟨hblocked, hne, hd⟩
    exact ⟨(p, _), mem_lookupByName.mpr ⟨⟨rfl, hne⟩, Or.inr (Or.inr ⟨List.mem_singleton_self p,
      hblocked⟩)⟩, (pnsRecordToDns_own name _).mpr hd⟩

/-- Below the apex there is no SOA record. -/
theorem lookup_soa (hname : authority.Below name label) :
    authority.lookup name (.known .SOA) = .ok (.error .nameExists) := by
  rw [hname.lookup_eq]
  rfl

theorem queryFilter_returns {p : RecordType} (hq : q.intoCodec = .ok p) :
    ∃ filter, queryFilter q = .ok filter := by
  unfold queryFilter
  split
  · exact ⟨_, rfl⟩
  · exact ⟨[p], bind_eq_ok.mpr ⟨p, hq, rfl⟩⟩

/-- Below the apex a lookup panics on the types that the conversion does not know, and on
nothing else. -/
theorem lookup_returns_iff (hname : authority.Below name label) :
    (∃ result, authority.lookup name q = .ok result) ↔ ∃ p, q.intoCodec = .ok p := by
  constructor
  · rintro ⟨result, hresult⟩
    cases q with
    | known t => exact ⟨_, rfl⟩
    | other v =>
      rw [hname.lookup_eq] at hresult
      cases hresult
  · rintro ⟨p, hq⟩
    by_cases hsoa : q = .known .SOA
    · exact ⟨_, hsoa ▸ lookup_soa hname⟩
    obtain ⟨filter, hfilter⟩ := queryFilter_returns hq
    cases hs : authority.client.bestState with
    | some s =>
      obtain ⟨records, hrecords, -⟩ := lookup_below hs hname hsoa hfilter
      exact ⟨_, hrecords⟩
    | none =>
      refine ⟨.error (.responseCode .servFail), ?_⟩
      rw [hname.lookup_eq, BlockChainAuthority.lookupLabel, if_neg hsoa, hs]
      exact bind_eq_ok.mpr ⟨filter, hfilter, rfl⟩

end PnsPallets
