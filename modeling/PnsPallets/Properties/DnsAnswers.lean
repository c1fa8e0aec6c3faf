import PnsPallets.Properties.RecordCodes

/-!
# What the DNS server answers

Three results about the answers below the apex of the zone:

- they are well typed: a record has the queried type and name, no private code, and the
  data that the stored bytes of its type decode to, whatever was stored
  (`answers_well_typed`);
- the RPC record is converted to an address or a name, but a query of one of these types
  does not ask the runtime for it. It is answered only if the record of the queried type
  says the same (`rpc_record_served_iff`);
- whether a name exists does not depend on the type that is asked for, but for SOA: the
  server says of every name that it exists (`nxDomain_agrees_iff`).
-/

namespace PnsPallets

open Frame Registry Registrar Zones

variable {T : Config} {lib : DnsLibrary} {L : Set Bytes} {s : State T}
  {authority : BlockChainAuthority T lib} {name : lib.DnsName} {label : Bytes}
  {q : WireType lib.Variant}

/-! ## Well-typed answers -/

/-- What decodes has no private code: the codec types of those codes are for the chain
alone, or the RPC record. -/
theorem Decodes.wireCode {rt : RecordType} {data : Bytes} {d : RData lib}
    (h : Decodes lib rt data d) (hrt : rt.toDns.toCodec = rt) :
    ¬ (65280 ≤ lib.wireCode d.recordType ∧ lib.wireCode d.recordType ≤ 65292) := by
  rw [h.recordType]
  rintro ⟨hle, hge⟩
  obtain ⟨c, hc⟩ := lib.known_of_private hle hge
  have hcode : lib.wireCode (.known rt.toDns) = c := by
    rw [hc]
    exact lib.unknown c
  rw [hcode] at hle hge
  rw [hc] at hrt
  rcases toCodec_private hle hge with hchain | hrpc
  · rw [hrt, h.servable.1] at hchain
    cases hchain
  · exact h.servable.2 (hrt ▸ hrpc)

/-- Every query below the apex of a type that the conversion knows is answered, and the
records of the answer are of the queried type, for the queried name, under no private
code and with the data that the stored bytes decode to. -/
theorem answers_well_typed (hs : authority.client.bestState = some s)
    (hname : authority.Below name label) {p : RecordType} (hq : q.intoCodec = .ok p)
    (hany : q ≠ .known .ANY) :
    (∃ result, authority.lookup name q = .ok result) ∧
    ∀ records, authority.lookup name q = .ok (.ok records) → ∀ r ∈ records,
      r.data.recordType = q ∧ r.name = name ∧
      ¬ (65280 ≤ lib.wireCode r.data.recordType ∧ lib.wireCode r.data.recordType ≤ 65292) ∧
      Resolvers.contentOf s.resolvers (nodeOfName T label) p ≠ [] ∧
      Decodes lib p (Resolvers.contentOf s.resolvers (nodeOfName T label) p) r.data := by
  refine ⟨(lookup_returns_iff hname).mpr ⟨p, hq⟩, fun records hlookup r hr => ?_⟩
  have hsoa : q ≠ .known .SOA := by
    rintro rfl
    rw [lookup_soa hname] at hlookup
    cases hlookup
  obtain ⟨-, hne, d, hd, rfl⟩ :=
    (answers_of_type hs hname hq hany hsoa).mp ⟨records, hlookup, hr⟩
  obtain ⟨hqp, hp⟩ := WireType.intoCodec_eq_ok.mp hq
  exact ⟨hd.recordType.trans hqp.symm, rfl, hd.wireCode hp, hne, hd⟩

/-- Account 1 registers `alice` and stores an address as its A record. -/
def Devnet.addressInputs : List (Input Devnet.config) :=
  [ .extrinsic (.signed (account 1)) (.register alice (.id (account 1)) none),
    .extrinsic (.signed (account 1)) (.setRecord alice .A ⟨[1, 2, 3, 4], by decide⟩) ]

open Devnet in
theorem answers_well_typed_a :
    Decodes dnsLibrary .A (Resolvers.contentOf (after addressInputs).resolvers
      (nodeOfName config alice) .A) (.A ⟨[1, 2, 3, 4], rfl⟩) :=
  ((answers_well_typed (q := .known .A) rfl (dnsName_below (after addressInputs) alice) rfl
    (by decide)).2 [.fromRdata (dnsName alice) 300 (.A ⟨[1, 2, 3, 4], rfl⟩)] (by decide +kernel) _
      (List.mem_singleton_self _)).2.2.2.2

/-! ## RPC records -/

/-- What the text of an RPC record stands for, by type: an address, or the name of a host if
it is no address. -/
def RpcMeans (lib : DnsLibrary) (text : Bytes) (t : DnsType) (d : RData lib) : Prop :=
  (fromUtf8 text).isSome = true ∧
    (t = .A ∧ (∃ addr, lib.parseIpv4 text = some addr ∧ d = .A addr) ∨
      t = .AAAA ∧ (∃ addr, lib.parseIpv6 text = some addr ∧ d = .AAAA addr) ∨
      t = .CNAME ∧ lib.parseIpv4 text = none ∧ lib.parseIpv6 text = none ∧
        ∃ host, lib.fromStr text = some host ∧ d = .CNAME host)

/-- The types that an RPC record stands for are looked up like any other. -/
theorem RpcMeans.type {text : Bytes} {t : DnsType} {d : RData lib} (h : RpcMeans lib text t d) :
    t ≠ .ANY ∧ t ≠ .SOA ∧ t.toCodec ∉ Resolvers.blocked := by
  rcases h.2 with ⟨rfl, -⟩ | ⟨rfl, -⟩ | ⟨rfl, -⟩ <;> decide

/-- A query for what the RPC record stands for is answered with it exactly if the record of
the queried type decodes to the same. -/
theorem rpc_record_served_iff (hs : authority.client.bestState = some s)
    (hname : authority.Below name label) {t : DnsType} {d : RData lib}
    (hrpc : RpcMeans lib (Resolvers.contentOf s.resolvers (nodeOfName T label) .RPC) t d) :
    (∃ r, authority.Answers name (.known t) r ∧ r.data = d) ↔
      Resolvers.contentOf s.resolvers (nodeOfName T label) t.toCodec ≠ [] ∧
        Decodes lib t.toCodec (Resolvers.contentOf s.resolvers (nodeOfName T label) t.toCodec)
          d := by
  obtain ⟨hany, hsoa, hblocked⟩ := hrpc.type
  have hanswers := fun r => answers_of_type (r := r) hs hname (q := .known t) rfl
    (fun h => hany (WireType.known.inj h)) (fun h => hsoa (WireType.known.inj h))
  constructor
  · rintro ⟨r, hr, rfl⟩
    obtain ⟨-, hne, d, hd, rfl⟩ := (hanswers r).mp hr
    exact ⟨hne, hd⟩
  · rintro ⟨hne, hd⟩
    exact ⟨.fromRdata name 300 d, (hanswers _).mpr ⟨hblocked, hne, d, hd, rfl⟩, rfl⟩

/-- Account 1 registers `alice` and stores the text `1.2.3.4` as its RPC record. -/
def Devnet.rpcInputs : List (Input Devnet.config) :=
  [ .extrinsic (.signed (account 1)) (.register alice (.id (account 1)) none),
    .extrinsic (.signed (account 1))
      (.setRecord alice .RPC ⟨[49, 46, 50, 46, 51, 46, 52], by decide⟩) ]

/-- Then it stores the address as the A record, too. -/
def Devnet.rpcAndAddressInputs : List (Input Devnet.config) :=
  rpcInputs ++
    [.extrinsic (.signed (account 1)) (.setRecord alice .A ⟨[1, 2, 3, 4], by decide⟩)]

open Devnet in
theorem rpc_record_served_beside_a :
    ∃ r, (dnsServer (after rpcAndAddressInputs)).Answers (dnsName alice) (.known .A) r ∧
      r.data = .A ⟨[1, 2, 3, 4], rfl⟩ :=
  (rpc_record_served_iff rfl (dnsName_below (after rpcAndAddressInputs) alice)
    ⟨by decide +kernel, Or.inl ⟨rfl, ⟨[1, 2, 3, 4], rfl⟩, by decide +kernel, rfl⟩⟩).mpr
      ⟨by decide +kernel, ⟨[1, 2, 3, 4], rfl⟩, by decide +kernel, rfl⟩

open Devnet in
/-- The RPC record is an address, and a query for addresses finds none. -/
theorem rpc_record_not_served :
    Reachable config labels (after rpcInputs) ∧
      (after rpcInputs).resolvers.records.get (node alice, .RPC)
        = some ⟨[49, 46, 50, 46, 51, 46, 52], by decide⟩ ∧
      (fromUtf8 [49, 46, 50, 46, 51, 46, 52]).isSome = true ∧
      dnsLibrary.parseIpv4 [49, 46, 50, 46, 51, 46, 52] = some ⟨[1, 2, 3, 4], rfl⟩ ∧
      (dnsServer (after rpcInputs)).lookup (dnsName alice) (.known .A)
        = .ok (.error .nameExists) :=
  ⟨reachable_after (by decide +kernel), by decide +kernel⟩

/-! ## Existence -/

/-- The server says that the name does not exist. -/
def BlockChainAuthority.NxDomain (authority : BlockChainAuthority T lib) (name : lib.DnsName)
    (q : WireType lib.Variant) : Prop :=
  authority.lookup name q = .ok (.error (.responseCode .nxDomain))

/-- The names that do not exist, for the server: nothing is rooted at their node, and the
query is not for SOA. -/
theorem nxDomain_iff (hcf : CollisionFree T.keccak256 T.baseNode L) (h : Reachable T L s)
    (hs : authority.client.bestState = some s) (hname : authority.Below name label)
    {p : RecordType} (hq : q.intoCodec = .ok p) :
    authority.NxDomain name q ↔ q ≠ .known .SOA ∧ ¬ Rooted L s (nodeOfName T label) := by
  unfold BlockChainAuthority.NxDomain
  by_cases hsoa : q = .known .SOA
  · rw [hsoa, lookup_soa hname]
    simp
  · obtain ⟨filter, hfilter⟩ := queryFilter_returns hq
    obtain ⟨records, hlookup, -⟩ := lookup_below hs hname hsoa hfilter
    have hraw : lookupByName s label filter = [] ↔ ¬ Rooted L s (nodeOfName T label) :=
      h.lookup_eq_nil_iff hcf filter
    rw [hlookup, ← hraw]
    by_cases hnil : lookupByName s label filter = []
    · simp [hnil, hsoa]
    · cases records <;> simp [hnil, answer]

/-- Queries of two types agree on whether a name exists, unless it does not and exactly one
of them is for SOA. A name with a token and an active subname always exist. -/
theorem nxDomain_agrees_iff (hcf : CollisionFree T.keccak256 T.baseNode L)
    (h : Reachable T L s) (hs : authority.client.bestState = some s)
    (hname : authority.Below name label) {q₁ q₂ : WireType lib.Variant} {p₁ p₂ : RecordType}
    (hq₁ : q₁.intoCodec = .ok p₁) (hq₂ : q₂.intoCodec = .ok p₂) :
    ((authority.NxDomain name q₁ ↔ authority.NxDomain name q₂) ↔
      Rooted L s (nodeOfName T label) ∨ (q₁ = .known .SOA ↔ q₂ = .known .SOA)) ∧
    (Rooted L s (nodeOfName T label) → ¬ authority.NxDomain name q₁) := by
  rw [nxDomain_iff hcf h hs hname hq₁, nxDomain_iff hcf h hs hname hq₂]
  tauto

open Devnet in
theorem nxDomain_agrees_for_alice :
    ¬ (dnsServer (after addressInputs)).NxDomain (dnsName alice) (.known .MX) :=
  (nxDomain_agrees_iff collisionFree (reachable_after (by decide +kernel)) rfl
    (dnsName_below (after addressInputs) alice) rfl
    (rfl : (dnsLibrary.ofCode 1).intoCodec = .ok .A)).2
      (Or.inl ⟨⟨alice, by decide, by decide +kernel⟩, by decide +kernel⟩)

open Devnet in
/-- Nobody has registered `bob`: there is no such name for a query of its address, and there
is one for SOA. -/
theorem soa_of_missing_name :
    Reachable config labels start ∧ start.nft.ownerOf (node bob) = none ∧
      (dnsServer start).lookup (dnsName bob) (.known .A)
        = .ok (.error (.responseCode .nxDomain)) ∧
      (dnsServer start).lookup (dnsName bob) (.known .SOA) = .ok (.error .nameExists) :=
  ⟨(reachable_after (by decide +kernel) : Reachable config labels (after [])), by decide +kernel⟩

end PnsPallets
