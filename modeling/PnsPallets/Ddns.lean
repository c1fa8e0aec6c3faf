import PnsPallets.Frame.Slice
import PnsPallets.Storage

/-!
# DNS record types (pns-types/src/ddns.rs)

On chain a record type is the codec enumeration `RecordType`; clients see the
16-bit code of the DNS record type it converts to. The thirteen private kinds
have no DNS type of their own and are sent as `Unknown` codes from the private-use
range — and the codec enumeration has an `Unknown` of its own.

The DNS library's `RecordType` is not part of this repository: its codes are the
parameter `DnsCodes`, about which the conversion needs two facts. For the way back, from
a code of the wire to the codec enumeration, the parameter is `Hickory`: the library has
more named variants than the conversion matches, and for those it panics.
-/

namespace PnsPallets

open Frame

/-- `hickory_proto::rr::RecordType`, the variants the conversion produces. -/
inductive DnsType where
  | A | AAAA | ANAME | ANY | AXFR | CAA | CDS | CDNSKEY | CNAME | CSYNC | DNSKEY | DS | HINFO
  | HTTPS | IXFR | KEY | MX | NAPTR | NS | NSEC | NSEC3 | NSEC3PARAM | NULL | OPENPGPKEY | OPT
  | PTR | RRSIG | SIG | SOA | SRV | SSHFP | SVCB | TLSA | TSIG | TXT
  | Unknown (code : UInt16)
  | ZERO
deriving DecidableEq

/-- `From<codec_type::RecordType> for RecordType` (ddns.rs:9–65). -/
def RecordType.toDns : RecordType → DnsType
  | .A => .A
  | .AAAA => .AAAA
  | .ANAME => .ANAME
  | .ANY => .ANY
  | .AXFR => .AXFR
  | .CAA => .CAA
  | .CDS => .CDS
  | .CDNSKEY => .CDNSKEY
  | .CNAME => .CNAME
  | .CSYNC => .CSYNC
  | .DNSKEY => .DNSKEY
  | .DS => .DS
  | .HINFO => .HINFO
  | .HTTPS => .HTTPS
  | .IXFR => .IXFR
  | .KEY => .KEY
  | .MX => .MX
  | .NAPTR => .NAPTR
  | .NS => .NS
  | .NSEC => .NSEC
  | .NSEC3 => .NSEC3
  | .NSEC3PARAM => .NSEC3PARAM
  | .NULL => .NULL
  | .OPENPGPKEY => .OPENPGPKEY
  | .OPT => .OPT
  | .PTR => .PTR
  | .RRSIG => .RRSIG
  | .SIG => .SIG
  | .SOA => .SOA
  | .SRV => .SRV
  | .SSHFP => .SSHFP
  | .SVCB => .SVCB
  | .TLSA => .TLSA
  | .TSIG => .TSIG
  | .TXT => .TXT
  | .SS58 => .Unknown 65280
  | .RPC => .Unknown 65281
  | .VALIDATOR => .Unknown 65282
  | .PARA => .Unknown 65283
  | .PROXY => .Unknown 65284
  | .PUBKEY1 => .Unknown 65285
  | .AVATAR => .Unknown 65286
  | .CONTRACT => .Unknown 65287
  | .PUBKEY2 => .Unknown 65288
  | .PUBKEY3 => .Unknown 65289
  | .ORIGIN => .Unknown 65290
  | .IPFS => .Unknown 65291
  | .CONTENT => .Unknown 65292
  | .Unknown unknow => .Unknown unknow
  | .ZERO => .ZERO

/-- The code of the SS58 record. -/
def ss58Code : UInt16 := 65280

/-- The code of the ORIGIN record. -/
def originCode : UInt16 := 65290

/-- The codes of the DNS library, `u16::from(RecordType)`: an unknown type is its
code, and no type with a name has one of the two codes of the anchors. -/
structure DnsCodes where
  code : DnsType → UInt16
  unknown : ∀ c, code (.Unknown c) = c
  named : ∀ t, code t = ss58Code ∨ code t = originCode → ∃ c, t = .Unknown c

/-- The code of a record type on the wire. -/
def DnsCodes.wire (dns : DnsCodes) (recordType : RecordType) : UInt16 :=
  dns.code recordType.toDns

/-- Two record types have the code of an anchor: the anchor itself and the codec's
own `Unknown`. -/
theorem DnsCodes.wire_anchor (dns : DnsCodes) {rt : RecordType} {c : UInt16}
    (hc : c = ss58Code ∨ c = originCode) (h : dns.wire rt = c) :
    rt.toDns = .Unknown c := by
  obtain ⟨c', hrt⟩ := dns.named rt.toDns (by
    rw [show dns.code rt.toDns = c from h]
    exact hc)
  have hcode : dns.code rt.toDns = c := h
  rw [hrt, dns.unknown] at hcode
  rw [hrt, hcode]

theorem RecordType.toDns_ss58 {rt : RecordType} (h : rt.toDns = .Unknown ss58Code) :
    rt = .SS58 ∨ rt = .Unknown ss58Code := by
  cases rt <;> simp_all [RecordType.toDns, ss58Code]

theorem RecordType.toDns_origin {rt : RecordType} (h : rt.toDns = .Unknown originCode) :
    rt = .ORIGIN ∨ rt = .Unknown originCode := by
  cases rt <;> simp_all [RecordType.toDns, originCode]

/-! ## From the wire -/

/-- `Into<codec_type::RecordType> for RecordType` (ddns.rs:67–123), on the variants that it
names. -/
def DnsType.toCodec : DnsType → RecordType
  | .A => .A
  | .AAAA => .AAAA
  | .ANAME => .ANAME
  | .ANY => .ANY
  | .AXFR => .AXFR
  | .CAA => .CAA
  | .CDS => .CDS
  | .CDNSKEY => .CDNSKEY
  | .CNAME => .CNAME
  | .CSYNC => .CSYNC
  | .DNSKEY => .DNSKEY
  | .DS => .DS
  | .HINFO => .HINFO
  | .HTTPS => .HTTPS
  | .IXFR => .IXFR
  | .KEY => .KEY
  | .MX => .MX
  | .NAPTR => .NAPTR
  | .NS => .NS
  | .NSEC => .NSEC
  | .NSEC3 => .NSEC3
  | .NSEC3PARAM => .NSEC3PARAM
  | .NULL => .NULL
  | .OPENPGPKEY => .OPENPGPKEY
  | .OPT => .OPT
  | .PTR => .PTR
  | .RRSIG => .RRSIG
  | .SIG => .SIG
  | .SOA => .SOA
  | .SRV => .SRV
  | .SSHFP => .SSHFP
  | .SVCB => .SVCB
  | .TLSA => .TLSA
  | .TSIG => .TSIG
  | .TXT => .TXT
  | .Unknown 65280 => .SS58
  | .Unknown 65281 => .RPC
  | .Unknown 65282 => .VALIDATOR
  | .Unknown 65283 => .PARA
  | .Unknown 65284 => .PROXY
  | .Unknown 65285 => .PUBKEY1
  | .Unknown 65286 => .AVATAR
  | .Unknown 65287 => .CONTRACT
  | .Unknown 65288 => .PUBKEY2
  | .Unknown 65289 => .PUBKEY3
  | .Unknown 65290 => .ORIGIN
  | .Unknown 65291 => .IPFS
  | .Unknown 65292 => .CONTENT
  | .Unknown unknow => .Unknown unknow
  | .ZERO => .ZERO

/-- `hickory_proto::rr::RecordType`: the variants that the conversions name, and the named
variants `V` that they do not. -/
inductive WireType (V : Type) where
  | known (t : DnsType)
  | other (v : V)
deriving DecidableEq

/-- `Into<codec_type::RecordType> for RecordType`, with its last arm. -/
def WireType.intoCodec {V : Type} : WireType V → Except Panic RecordType
  | .known t => .ok t.toCodec
  | .other _ => .error (.explicit "unsupported record type")

/-- `RecordType::all` (ddns.rs:272–325). -/
def RecordType.all : List RecordType :=
  [.A, .AAAA, .ANAME, .ANY, .AXFR, .CAA, .CDS, .CDNSKEY, .CNAME, .CSYNC, .DNSKEY, .DS, .HINFO,
    .HTTPS, .IXFR, .KEY, .MX, .NAPTR, .NS, .NSEC, .NSEC3, .NSEC3PARAM, .NULL, .OPENPGPKEY, .OPT,
    .PTR, .RRSIG, .SIG, .SOA, .SRV, .SSHFP, .SVCB, .TLSA, .TSIG, .TXT, .ZERO, .SS58, .RPC,
    .VALIDATOR, .PARA, .PROXY, .PUBKEY1, .AVATAR, .CONTRACT, .PUBKEY2, .PUBKEY3, .ORIGIN, .IPFS,
    .CONTENT]

/-- `u16::from(RecordType)`, from the codes of the two kinds of variants. -/
def WireType.code {V : Type} (knownCode : DnsType → UInt16) (otherCode : V → UInt16) :
    WireType V → UInt16
  | .known t => knownCode t
  | .other v => otherCode v

/-- The record types of the DNS library with their codes: beside the variants that the
conversions name it has the named variants `Variant`, codes without a name are `Unknown`,
and the thirteen private codes have no name. -/
structure Hickory extends DnsCodes where
  Variant : Type
  decEqVariant : DecidableEq Variant
  variantCode : Variant → UInt16
  /-- `RecordType::from(u16)`. -/
  ofCode : UInt16 → WireType Variant
  code_ofCode : ∀ c, (ofCode c).code code variantCode = c
  ofCode_code : ∀ t, (∀ c, t ≠ .Unknown c) → ofCode (code t) = .known t
  ofCode_variantCode : ∀ v, ofCode (variantCode v) = .other v
  ofCode_private : ∀ c : UInt16, 65280 ≤ c → c ≤ 65292 → ofCode c = .known (.Unknown c)

instance (H : Hickory) : DecidableEq H.Variant := H.decEqVariant

/-- `u16::from(RecordType)`. -/
def Hickory.wireCode (H : Hickory) (t : WireType H.Variant) : UInt16 := t.code H.code H.variantCode

/-- A type of the library survives the trip through the codec enumeration. -/
@[simp] theorem DnsType.toDns_toCodec (t : DnsType) : t.toCodec.toDns = t := by
  cases t with
  | Unknown c =>
    unfold DnsType.toCodec
    split <;> simp_all [RecordType.toDns]
  | _ => rfl

theorem WireType.intoCodec_eq_ok {V : Type} {q : WireType V} {rt : RecordType} :
    q.intoCodec = .ok rt ↔ q = .known rt.toDns ∧ rt.toDns.toCodec = rt := by
  cases q with
  | known t =>
    simp only [intoCodec, Except.ok.injEq, known.injEq]
    constructor
    · rintro rfl
      simp
    · rintro ⟨rfl, h⟩
      exact h
  | other v => simp [intoCodec]

/-- No variant with a name has a private code. -/
theorem Hickory.known_of_private (H : Hickory) {t : DnsType} (hle : 65280 ≤ H.code t)
    (hge : H.code t ≤ 65292) : ∃ c, t = .Unknown c := by
  by_contra hnamed
  have hcode := H.ofCode_code t fun c hc => hnamed ⟨c, hc⟩
  rw [H.ofCode_private _ hle hge] at hcode
  exact hnamed ⟨_, (WireType.known.inj hcode).symm⟩

/-- The codec type of a code has this code on the wire. -/
theorem Hickory.wire_of_ofCode (H : Hickory) {c : UInt16} {rt : RecordType}
    (h : (H.ofCode c).intoCodec = .ok rt) : H.wire rt = c := by
  have hcode := H.code_ofCode c
  rw [(WireType.intoCodec_eq_ok.mp h).1] at hcode
  exact hcode

/-- The codes that the conversion knows are those of no further variant of the library. -/
theorem Hickory.intoCodec_returns_iff (H : Hickory) {c : UInt16} :
    (∃ rt, (H.ofCode c).intoCodec = .ok rt) ↔ ∀ v, H.variantCode v ≠ c := by
  constructor
  · rintro ⟨rt, hrt⟩ v rfl
    rw [H.ofCode_variantCode] at hrt
    cases hrt
  · intro hno
    cases hc : H.ofCode c with
    | known t => exact ⟨_, rfl⟩
    | other v =>
      have hcode := H.code_ofCode c
      rw [hc] at hcode
      exact absurd hcode (hno v)

end PnsPallets
