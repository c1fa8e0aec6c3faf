import PnsPallets.Ddns.Authority
import PnsPallets.PnsRpc
import PnsPallets.Properties.ResolverData

/-!
# Record type codes between clients and the chain

Clients name record types by codes, the chain by the codec enumeration. Two results:

- a code survives the conversions both ways unless the DNS library has a variant for it
  that the conversion does not name. For those the conversion panics, in the DNS server
  as well as in `pns_lookup` (`type_code_survives_iff`);
- `pns_lookup` returns what was asked for and the anchors, unless a number of more than
  16 bits is requested: it is answered under its lower 16 bits (`lookup_answers_asked_iff`).
-/

namespace PnsPallets

open Frame

variable {T : Config}

/-! ## The DNS library of the development chain -/

namespace Devnet

/-- A variant of the library that the conversions do not name. -/
inductive FurtherType where
  | CERT
deriving DecidableEq

/-- The variants that they name, but for `Unknown`. -/
def namedTypes : List DnsType :=
  [.A, .AAAA, .ANAME, .ANY, .AXFR, .CAA, .CDS, .CDNSKEY, .CNAME, .CSYNC, .DNSKEY, .DS, .HINFO,
    .HTTPS, .IXFR, .KEY, .MX, .NAPTR, .NS, .NSEC, .NSEC3, .NSEC3PARAM, .NULL, .OPENPGPKEY, .OPT,
    .PTR, .RRSIG, .SIG, .SOA, .SRV, .SSHFP, .SVCB, .TLSA, .TSIG, .TXT, .ZERO]

/-- The named type with a code, if there is one. -/
def namedType (c : UInt16) : Option DnsType := namedTypes.find? fun t => dnsCodes.code t = c

/-- `RecordType::from(u16)`. -/
def typeOf (c : UInt16) : WireType FurtherType :=
  if c = 37 then .other .CERT else .known ((namedType c).getD (.Unknown c))

theorem code_typeOf (c : UInt16) : (typeOf c).code dnsCodes.code (fun _ => 37) = c := by
  unfold typeOf
  split
  · next h => exact h.symm
  · cases hc : namedType c with
    | none => rfl
    | some t => simpa [WireType.code] using List.find?_some hc

theorem typeOf_private {c : UInt16} (hle : 65280 ≤ c) (hge : c ≤ 65292) :
    typeOf c = .known (.Unknown c) := by
  have hcodes : ∀ t ∈ namedTypes, ¬ (65280 ≤ dnsCodes.code t ∧ dnsCodes.code t ≤ 65292) := by
    decide +kernel
  have hnone : namedType c = none := by
    refine List.find?_eq_none.mpr fun t ht htc => hcodes t ht ?_
    rw [of_decide_eq_true htc]
    exact ⟨hle, hge⟩
  have hcert : c ≠ 37 := by
    rintro rfl
    exact absurd hle (by decide)
  rw [typeOf, if_neg hcert, hnone]
  rfl

/-- The record types of the library. -/
def hickory : Hickory where
  toDnsCodes := dnsCodes
  Variant := FurtherType
  decEqVariant := inferInstance
  variantCode _ := 37
  ofCode := typeOf
  code_ofCode := code_typeOf
  ofCode_code t ht := by
    cases t with
    | Unknown c => exact absurd rfl (ht c)
    | _ => decide +kernel
  ofCode_variantCode _ := rfl
  ofCode_private _ := typeOf_private

/-- A decimal number of one byte. -/
def octet (digits : Bytes) : Option UInt8 :=
  let value := digits.foldl (fun n b => 10 * n + (b.toNat - 48)) 0
  if digits ≠ [] ∧ digits.all (fun b => 48 ≤ b && b ≤ 57) ∧ value < 256 then
    some (UInt8.ofNat value)
  else none

/-- Four decimal numbers between dots. -/
def parseIpv4 (text : Bytes) : Option Ipv4Addr := do
  let octets ← (text.splitOn dot).mapM octet
  if h : octets.length = 4 then some ⟨octets, h⟩ else none

/-- A library whose names are their text, and which knows addresses of version 4 only. -/
def dnsLibrary : DnsLibrary where
  toHickory := hickory
  DnsName := Bytes
  decEqDnsName := inferInstance
  display := id
  fromStr text := if text ≠ [] ∧ text.all (fun b => 33 ≤ b && b ≤ 126) then some text else none
  parseIpv4 := parseIpv4
  parseIpv6 _ := none
  fromUtf8Lossy data := if (fromUtf8 data).isSome then data else [0xEF, 0xBF, 0xBD]

/-- A client that reads a state. -/
def client (s : State config) : Client config where
  bestNumber := 1
  bestState := some s

/-- The DNS server over a state. -/
def dnsServer (s : State config) : BlockChainAuthority config dnsLibrary :=
  (BlockChainAuthority.new dnsLibrary (client s)).toOption.get rfl

/-- The name of a label in the zone. -/
def dnsName (label : Bytes) : dnsLibrary.DnsName := label ++ dot :: zoneOrigin

theorem dnsName_below (s : State config) (label : Bytes) :
    (dnsServer s).Below (dnsName label) label := by
  refine ⟨fun h => ?_, rfl⟩
  have hlength : (label ++ dot :: zoneOrigin).length = zoneOrigin.length := congrArg List.length h
  rw [List.length_append, List.length_cons] at hlength
  omega

end Devnet

/-! ## Codes both ways -/

/-- The codes that survive the way to the codec enumeration and back, and with which the
servers return, are those of no further variant of the DNS library. -/
theorem type_code_survives_iff (lib : DnsLibrary) (c : UInt16) :
    ((∃ rt, (lib.ofCode c).intoCodec = .ok rt ∧ lib.wire rt = c) ↔
      ∀ v, lib.variantCode v ≠ c) ∧
    (∀ (authority : BlockChainAuthority T lib) (name : lib.DnsName) (label : Bytes),
      authority.Below name label →
      ((∃ result, authority.lookup name (lib.ofCode c) = .ok result) ↔
        ∀ v, lib.variantCode v ≠ c)) ∧
    ∀ (client : Client T) (node : DomainHash) (name : Bytes) (codes : List UInt32),
      ((∃ result, PnsRpc.lookup lib.toHickory client node codes = .ok result) ↔
        ∀ code ∈ codes, ∀ v, lib.variantCode v ≠ code.toUInt16) ∧
      ((∃ result, PnsRpc.lookupByName lib.toHickory client name codes = .ok result) ↔
        ∀ code ∈ codes, ∀ v, lib.variantCode v ≠ code.toUInt16) := by
  refine ⟨?_, fun authority name label hname => ?_, fun client node name codes => ?_⟩
  · rw [← lib.intoCodec_returns_iff]
    exact exists_congr fun rt => and_iff_left_of_imp lib.wire_of_ofCode
  · rw [lookup_returns_iff hname]
    exact lib.intoCodec_returns_iff
  · exact ⟨PnsRpc.lookupWith_returns_iff, PnsRpc.lookupWith_returns_iff⟩

open Devnet in
theorem type_code_survives_a :
    ∃ result, (dnsServer start).lookup (dnsName alice) (dnsLibrary.ofCode 1) = .ok result :=
  ((type_code_survives_iff dnsLibrary 1).2.1 (dnsServer start) (dnsName alice) alice
    (dnsName_below start alice)).mpr (by
      rintro ⟨⟩
      decide)

open Devnet in
/-- A query of type CERT panics, and so does a request of this type. -/
theorem cert_code_panics :
    dnsLibrary.variantCode FurtherType.CERT = 37 ∧
      (dnsLibrary.ofCode 37).intoCodec = .error (.explicit "unsupported record type") ∧
      (dnsServer start).lookup (dnsName alice) (dnsLibrary.ofCode 37)
        = .error (.explicit "unsupported record type") ∧
      PnsRpc.lookup hickory (client start) (node alice) [37]
        = .error (.explicit "unsupported record type") := by
  decide +kernel

/-! ## Codes that were asked for -/

namespace PnsRpc

variable {H : Hickory} {client : Client T} {s : State T} {n : DomainHash} {codes : List UInt32}

/-- The number was requested, or is the code of an anchor. -/
def Asked (codes : List UInt32) (code : UInt32) : Prop :=
  code ∈ codes ∨ code = 65280 ∨ code = 65290

instance (codes : List UInt32) (code : UInt32) : Decidable (Asked codes code) :=
  inferInstanceAs (Decidable (_ ∨ _))

/-- A requested number of more than 16 bits does not bring a record of a type that was not
asked for: its lower 16 bits were requested too, or there is no such record to return. -/
def NoAlias (H : Hickory) (s : State T) (n : DomainHash) (codes : List UInt32) : Prop :=
  ∀ code ∈ codes, 65536 ≤ code → Asked codes code.toUInt16.toUInt32 ∨
    ∀ rt, typeOfCode H code = .ok rt →
      rt ∈ Resolvers.blocked ∨ Resolvers.contentOf s.resolvers n rt = []

theorem toUInt32_toUInt16 {code : UInt32} (h : code < 65536) : code.toUInt16.toUInt32 = code := by
  refine UInt32.toNat_inj.mp ?_
  have hlt : code.toNat < 65536 := h
  simp
  omega

theorem codeOfType_anchor : codeOfType H .SS58 = 65280 ∧ codeOfType H .ORIGIN = 65290 := by
  unfold codeOfType DnsCodes.wire
  simp [RecordType.toDns, H.unknown]

/-- What the common body returns was asked for exactly if no number is an alias. -/
theorem lookupWith_asked_iff {call : State T → List RecordType → List (RecordType × Bytes)}
    (hcall : ∀ types, call s types = Resolvers.lookup s.resolvers n types)
    (hs : client.bestState = some s) {records : List (UInt32 × Bytes)}
    (h : lookupWith H call client codes = .ok (.ok records)) :
    (∀ r ∈ records, Asked codes r.1) ↔ NoAlias H s n codes := by
  obtain ⟨types, htypes, rfl⟩ := lookupWith_eq_ok hs h
  rw [hcall, List.forall_mem_map]
  constructor
  · intro hall code hcode _
    by_cases hasked : Asked codes code.toUInt16.toUInt32
    · exact Or.inl hasked
    · refine Or.inr fun rt hrt => ?_
      by_contra hstored
      obtain ⟨hblocked, hne⟩ := not_or.mp hstored
      have hmem := Resolvers.mem_lookup (e := (rt, Resolvers.contentOf s.resolvers n rt)).mpr
        ⟨⟨rfl, hne⟩, Or.inr (Or.inr ⟨(htypes rt).mpr ⟨code, hcode, hrt⟩, hblocked⟩)⟩
      exact hasked (codeOfType_of_typeOfCode hrt ▸ hall _ hmem)
  · rintro hno ⟨rt, data⟩ he
    obtain ⟨⟨hdata, hne⟩, hrt⟩ := Resolvers.mem_lookup.mp he
    dsimp only at hdata hne hrt ⊢
    rcases hrt with rfl | rfl | ⟨hrt, hblocked⟩
    · exact Or.inr (Or.inl codeOfType_anchor.1)
    · exact Or.inr (Or.inr codeOfType_anchor.2)
    · obtain ⟨code, hcode, hof⟩ := (htypes rt).mp hrt
      rw [codeOfType_of_typeOfCode hof]
      by_cases hlt : code < 65536
      · rw [toUInt32_toUInt16 hlt]
        exact Or.inl hcode
      · rcases hno code hcode (UInt32.not_lt.mp hlt) with hasked | hnone
        · exact hasked
        · rcases hnone rt hof with hb | hempty
          · exact absurd hb hblocked
          · exact absurd (hdata.trans hempty) hne

end PnsRpc

/-- Every returned record has a requested number or is an anchor exactly if no requested
number is the alias of a record that was not asked for. -/
theorem lookup_answers_asked_iff {H : Hickory} {client : Client T} {s : State T}
    (hs : client.bestState = some s) (codes : List UInt32) (records : List (UInt32 × Bytes)) :
    (∀ node, PnsRpc.lookup H client node codes = .ok (.ok records) →
      ((∀ r ∈ records, PnsRpc.Asked codes r.1) ↔ PnsRpc.NoAlias H s node codes)) ∧
    ∀ name, PnsRpc.lookupByName H client name codes = .ok (.ok records) →
      ((∀ r ∈ records, PnsRpc.Asked codes r.1) ↔
        PnsRpc.NoAlias H s (nodeOfName T name) codes) :=
  ⟨fun _ h => PnsRpc.lookupWith_asked_iff (fun _ => rfl) hs h,
    fun _ h => PnsRpc.lookupWith_asked_iff (fun _ => rfl) hs h⟩

open Devnet in
theorem lookup_answers_asked_a :
    ∃ records, PnsRpc.lookup hickory (client (after (recordInputs .A))) (node alice) [1]
        = .ok (.ok records) ∧ ∀ r ∈ records, PnsRpc.Asked [1] r.1 := by
  have hlookup : PnsRpc.lookup hickory (client (after (recordInputs .A))) (node alice) [1]
      = .ok (.ok [(65280, (account 1).encode), (65290, (digest 0).bytes),
        (1, (account 2).encode)]) := by
    decide +kernel
  refine ⟨_, hlookup, ((lookup_answers_asked_iff rfl [1] _).1 (node alice) hlookup).mpr ?_⟩
  intro code hcode hle
  rw [List.mem_singleton.mp hcode] at hle
  exact absurd hle (by decide)

open Devnet in
/-- The number 65537 is answered with the A record. -/
theorem large_number_aliases :
    PnsRpc.lookup hickory (client (after (recordInputs .A))) (node alice) [65537]
      = .ok (.ok [(65280, (account 1).encode), (65290, (digest 0).bytes),
        (1, (account 2).encode)]) ∧
    PnsRpc.lookupByName hickory (client (after (recordInputs .A))) alice [65537]
      = .ok (.ok [(65280, (account 1).encode), (65290, (digest 0).bytes),
        (1, (account 2).encode)]) ∧
    ¬ PnsRpc.Asked [65537] 1 := by
  decide +kernel

end PnsPallets
