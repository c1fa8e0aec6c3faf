import Mathlib.Data.List.Basic
import PnsPallets.Ddns

/-!
# DNS records from stored records (pns-ddns/src/authority.rs:81–237)

`pns_record_to_dns` turns the bytes stored under a record type into a DNS record:
addresses of a fixed length, names as text, MX and SRV with big-endian numbers before
the name, the RPC record by what its text looks like, and everything else raw.
`Decodes` says the same as a format; `toRdata_converts` is that the two agree, and
`toRdata_returns` that no payload makes the conversion panic.

Names, addresses and text are the business of the DNS library and the standard
library: their parsers are the parameter `DnsLibrary`, and total.
-/

namespace PnsPallets

open Frame

/-- `std::net::Ipv4Addr`. -/
abbrev Ipv4Addr : Type := { octets : Bytes // octets.length = 4 }

/-- `std::net::Ipv6Addr`. -/
abbrev Ipv6Addr : Type := { octets : Bytes // octets.length = 16 }

/-- What the DNS server uses of `hickory_proto` and of the standard library. -/
structure DnsLibrary extends Hickory where
  /-- `Name`, and `LowerName`. -/
  DnsName : Type
  decEqDnsName : DecidableEq DnsName
  /-- `LowerName::to_string`. -/
  display : DnsName → Bytes
  /-- `Name::from_str`. -/
  fromStr : Bytes → Option DnsName
  /-- `str::parse::<Ipv4Addr>`. -/
  parseIpv4 : Bytes → Option Ipv4Addr
  /-- `str::parse::<Ipv6Addr>`. -/
  parseIpv6 : Bytes → Option Ipv6Addr
  /-- `String::from_utf8_lossy`. -/
  fromUtf8Lossy : Bytes → Bytes

instance (lib : DnsLibrary) : DecidableEq lib.DnsName := lib.decEqDnsName

/-- `hickory_proto::rr::RData`, the variants the server makes. -/
inductive RData (lib : DnsLibrary) where
  | A (addr : Ipv4Addr)
  | AAAA (addr : Ipv6Addr)
  | CNAME (name : lib.DnsName)
  | MX (preference : UInt16) (exchange : lib.DnsName)
  | NS (name : lib.DnsName)
  | SOA (mname rname : lib.DnsName) (serial : UInt32) (refresh retry expire : Int32)
      (minimum : UInt32)
  | SRV (priority weight port : UInt16) (target : lib.DnsName)
  | TXT (strings : List Bytes)
  | Unknown (code : WireType lib.Variant) (rdata : Bytes)
deriving DecidableEq

/-- `RData::record_type`. -/
def RData.recordType {lib : DnsLibrary} : RData lib → WireType lib.Variant
  | .A _ => .known .A
  | .AAAA _ => .known .AAAA
  | .CNAME _ => .known .CNAME
  | .MX _ _ => .known .MX
  | .NS _ => .known .NS
  | .SOA _ _ _ _ _ _ _ => .known .SOA
  | .SRV _ _ _ _ => .known .SRV
  | .TXT _ => .known .TXT
  | .Unknown code _ => code

/-- `hickory_proto::rr::DNSClass`, as far as it is used. -/
inductive DnsClass where
  | IN
deriving DecidableEq

/-- `hickory_proto::rr::Record`. -/
structure DnsRecord (lib : DnsLibrary) where
  name : lib.DnsName
  dnsClass : DnsClass
  ttl : UInt32
  data : RData lib
deriving DecidableEq

variable (lib : DnsLibrary)

/-- `Record::from_rdata`. -/
def DnsRecord.fromRdata {lib : DnsLibrary} (name : lib.DnsName) (ttl : UInt32)
    (data : RData lib) : DnsRecord lib where
  name := name
  dnsClass := .IN
  ttl := ttl
  data := data

/-- `is_polkadot_only` (authority.rs:85–101). -/
def isPolkadotOnly : RecordType → Bool
  | .SS58 | .VALIDATOR | .PARA | .PROXY | .PUBKEY1 | .PUBKEY2 | .PUBKEY3 | .AVATAR | .CONTRACT
  | .CONTENT | .IPFS | .ORIGIN => true
  | _ => false

/-- The types of the private codes are for the chain alone, but for the RPC record. -/
theorem toCodec_private {c : UInt16} (hle : 65280 ≤ c) (hge : c ≤ 65292) :
    isPolkadotOnly (DnsType.Unknown c).toCodec = true ∨ (DnsType.Unknown c).toCodec = .RPC := by
  have hall : ∀ k < 13,
      isPolkadotOnly (DnsType.Unknown (UInt16.ofNat (65280 + k))).toCodec = true ∨
        (DnsType.Unknown (UInt16.ofNat (65280 + k))).toCodec = .RPC := by
    decide
  have hle' : 65280 ≤ c.toNat := hle
  have hge' : c.toNat ≤ 65292 := hge
  have hk := hall (c.toNat - 65280) (by omega)
  rwa [Nat.add_sub_of_le hle', UInt16.ofNat_toNat] at hk

/-! ## Payloads -/

/-- Text that is the name of a host. -/
def hostOf (data : Bytes) : Option lib.DnsName := do
  let _text ← fromUtf8 data
  lib.fromStr data

/-- The `A` arm of `pns_record_to_dns` (authority.rs:146–151). -/
def rdataA (data : Bytes) : Except Panic (Option (RData lib)) :=
  if data.length ≠ 4 then pure none
  else do
    let a ← index data 0
    let b ← index data 1
    let c ← index data 2
    let d ← index data 3
    pure (some (.A ⟨[a, b, c, d], rfl⟩))

/-- The `AAAA` arm (authority.rs:152–159). -/
def rdataAAAA (data : Bytes) : Except Panic (Option (RData lib)) :=
  if data.length ≠ 16 then pure none
  else do
    let arr ← copyFromSlice 16 data
    pure (some (.AAAA arr))

/-- The `MX` arm (authority.rs:168–176). -/
def rdataMX (data : Bytes) : Except Panic (Option (RData lib)) :=
  if data.length < 3 then pure none
  else do
    let hi ← index data 0
    let lo ← index data 1
    let rest ← sliceFrom data 2
    pure ((hostOf lib rest).map (.MX (u16FromBeBytes hi lo)))

/-- The `SRV` arm (authority.rs:182–192). -/
def rdataSRV (data : Bytes) : Except Panic (Option (RData lib)) :=
  if data.length < 7 then pure none
  else do
    let priority₀ ← index data 0
    let priority₁ ← index data 1
    let weight₀ ← index data 2
    let weight₁ ← index data 3
    let port₀ ← index data 4
    let port₁ ← index data 5
    let rest ← sliceFrom data 6
    pure ((hostOf lib rest).map (.SRV (u16FromBeBytes priority₀ priority₁)
      (u16FromBeBytes weight₀ weight₁) (u16FromBeBytes port₀ port₁)))

/-- The `RPC` arm (authority.rs:194–215): an address or a name, and only for queries of its
type. -/
def rdataRPC (data : Bytes) (queriedType : WireType lib.Variant) : Option (RData lib) := do
  let _text ← fromUtf8 data
  match lib.parseIpv4 data with
  | some ip4 =>
    if queriedType = .known .A ∨ queriedType = .known .ANY then some (.A ip4) else none
  | none =>
    match lib.parseIpv6 data with
    | some ip6 =>
      if queriedType = .known .AAAA ∨ queriedType = .known .ANY then some (.AAAA ip6) else none
    | none =>
      match lib.fromStr data with
      | some name =>
        if queriedType = .known .CNAME ∨ queriedType = .known .ANY then some (.CNAME name)
        else none
      | none => none

/-- The last arm (authority.rs:217–229): the bytes as they are, for queries of their type. -/
def rdataRaw (pnsType : RecordType) (data : Bytes) (queriedType : WireType lib.Variant) :
    Option (RData lib) :=
  let htype : WireType lib.Variant := .known pnsType.toDns
  if htype ≠ queriedType ∧ queriedType ≠ .known .ANY then none
  else some (.Unknown htype data)

/-- The `match pns_type` of `pns_record_to_dns` (authority.rs:144–230). -/
def toRdata (pnsType : RecordType) (data : Bytes) (queriedType : WireType lib.Variant) :
    Except Panic (Option (RData lib)) :=
  match pnsType with
  | .A => rdataA lib data
  | .AAAA => rdataAAAA lib data
  | .CNAME => pure ((hostOf lib data).map .CNAME)
  | .TXT => pure (some (.TXT [lib.fromUtf8Lossy data]))
  | .MX => rdataMX lib data
  | .NS => pure ((hostOf lib data).map .NS)
  | .SRV => rdataSRV lib data
  | .RPC => pure (rdataRPC lib data queriedType)
  | _ => pure (rdataRaw lib pnsType data queriedType)

/-- `pns_record_to_dns` (authority.rs:134–237). -/
def pnsRecordToDns (ownerName : lib.DnsName) (pnsType : RecordType) (data : Bytes)
    (queriedType : WireType lib.Variant) : Except Panic (Option (DnsRecord lib)) :=
  if isPolkadotOnly pnsType then pure none
  else do
    let rdata ← toRdata lib pnsType data queriedType
    pure (rdata.map (DnsRecord.fromRdata ownerName 300))

/-! ## The formats -/

/-- The payloads of the record types and what they stand for. Records that are for the chain
alone, and the RPC record, are no payloads of their own type. -/
def Decodes (rt : RecordType) (data : Bytes) (d : RData lib) : Prop :=
  match rt with
  | .A => ∃ addr : Ipv4Addr, data = addr.val ∧ d = .A addr
  | .AAAA => ∃ addr : Ipv6Addr, data = addr.val ∧ d = .AAAA addr
  | .CNAME => ∃ name, hostOf lib data = some name ∧ d = .CNAME name
  | .TXT => d = .TXT [lib.fromUtf8Lossy data]
  | .MX => ∃ hi lo rest preference name, data = hi :: lo :: rest ∧ rest ≠ [] ∧
      preference.toNat = 256 * hi.toNat + lo.toNat ∧ hostOf lib rest = some name ∧
      d = .MX preference name
  | .NS => ∃ name, hostOf lib data = some name ∧ d = .NS name
  | .SRV => ∃ p₀ p₁ w₀ w₁ q₀ q₁ rest priority weight port name,
      data = p₀ :: p₁ :: w₀ :: w₁ :: q₀ :: q₁ :: rest ∧ rest ≠ [] ∧
      priority.toNat = 256 * p₀.toNat + p₁.toNat ∧ weight.toNat = 256 * w₀.toNat + w₁.toNat ∧
      port.toNat = 256 * q₀.toNat + q₁.toNat ∧ hostOf lib rest = some name ∧
      d = .SRV priority weight port name
  | .RPC => False
  | rt => isPolkadotOnly rt = false ∧ d = .Unknown (.known rt.toDns) data

variable {lib} {data : Bytes} {d : RData lib} {rt : RecordType} {q : WireType lib.Variant}

/-- What decodes has the type it is stored under. -/
theorem Decodes.recordType (h : Decodes lib rt data d) : d.recordType = .known rt.toDns := by
  cases rt <;> simp only [Decodes] at h <;> grind [RData.recordType, RecordType.toDns]

/-- Records for the chain alone, and the RPC record, do not decode. -/
theorem Decodes.servable (h : Decodes lib rt data d) : isPolkadotOnly rt = false ∧ rt ≠ .RPC := by
  cases rt <;> simp_all [Decodes, isPolkadotOnly]

/-- The conversion of a payload returns, with what the payload decodes to. -/
def Converts (lib : DnsLibrary) (rt : RecordType) (data : Bytes)
    (r : Except Panic (Option (RData lib))) : Prop :=
  ∃ found, r = .ok found ∧ ∀ d, found = some d ↔ Decodes lib rt data d

theorem Converts.returns {r : Except Panic (Option (RData lib))} (h : Converts lib rt data r) :
    ∃ found, r = .ok found := by
  obtain ⟨found, hfound, -⟩ := h
  exact ⟨found, hfound⟩

/-- A payload that decodes to nothing is dropped. -/
theorem Converts.drop {r : Except Panic (Option (RData lib))} (hr : r = .ok none)
    (hno : ∀ d, ¬ Decodes lib rt data d) : Converts lib rt data r :=
  ⟨none, hr, fun d => iff_of_false (by simp) (hno d)⟩

theorem rdataA_converts (lib : DnsLibrary) (data : Bytes) :
    Converts lib .A data (rdataA lib data) := by
  by_cases hlen : data.length = 4
  · obtain ⟨a, b, c, e, rfl⟩ := List.length_eq_four.mp hlen
    refine ⟨some (.A ⟨[a, b, c, e], rfl⟩), rfl, fun d => ?_⟩
    constructor
    · intro hd
      exact ⟨_, rfl, (Option.some.inj hd).symm⟩
    · rintro ⟨⟨octets, -⟩, rfl, rfl⟩
      rfl
  · refine .drop (if_pos hlen) ?_
    rintro d ⟨addr, rfl, -⟩
    exact hlen addr.2

theorem rdataAAAA_converts (lib : DnsLibrary) (data : Bytes) :
    Converts lib .AAAA data (rdataAAAA lib data) := by
  by_cases hlen : data.length = 16
  · refine ⟨some (.AAAA ⟨data, hlen⟩), ?_, fun d => ?_⟩
    · unfold rdataAAAA
      rw [if_neg (not_not.mpr hlen), copyFromSlice_eq hlen]
      rfl
    · constructor
      · intro hd
        exact ⟨_, rfl, (Option.some.inj hd).symm⟩
      · rintro ⟨⟨octets, -⟩, rfl, rfl⟩
        rfl
  · refine .drop (if_pos hlen) ?_
    rintro d ⟨addr, rfl, -⟩
    exact hlen addr.2

theorem rdataMX_converts (lib : DnsLibrary) (data : Bytes) :
    Converts lib .MX data (rdataMX lib data) := by
  by_cases hlen : data.length < 3
  · refine .drop (if_pos hlen) ?_
    rintro d ⟨hi, lo, rest, -, -, rfl, hne, -⟩
    simp only [List.length_cons] at hlen
    exact absurd (List.length_pos_iff.mpr hne) (by omega)
  · obtain ⟨hi, rest, rfl, h₁⟩ := exists_cons_of_succ_le (not_lt.mp hlen)
    obtain ⟨lo, rest, rfl, h₂⟩ := exists_cons_of_succ_le h₁
    have hne : rest ≠ [] := List.length_pos_iff.mp h₂
    refine ⟨(hostOf lib rest).map (.MX (u16FromBeBytes hi lo)), ?_, fun d => ?_⟩
    · unfold rdataMX
      rw [if_neg hlen]
      simp only [index_zero, index_succ, sliceFrom_succ, sliceFrom_zero]
      rfl
    · rw [Option.map_eq_some_iff]
      constructor
      · rintro ⟨name, hname, rfl⟩
        exact ⟨hi, lo, rest, _, name, rfl, hne, toNat_u16FromBeBytes hi lo, hname, rfl⟩
      · rintro ⟨hi', lo', rest', preference, name, hdata, -, hpref, hname, rfl⟩
        cases hdata
        refine ⟨name, hname, ?_⟩
        rw [UInt16.toNat_inj.mp ((toNat_u16FromBeBytes hi lo).trans hpref.symm)]

theorem rdataSRV_converts (lib : DnsLibrary) (data : Bytes) :
    Converts lib .SRV data (rdataSRV lib data) := by
  by_cases hlen : data.length < 7
  · refine .drop (if_pos hlen) ?_
    rintro d ⟨p₀, p₁, w₀, w₁, q₀, q₁, rest, -, -, -, -, rfl, hne, -⟩
    simp only [List.length_cons] at hlen
    exact absurd (List.length_pos_iff.mpr hne) (by omega)
  · obtain ⟨p₀, rest, rfl, h₁⟩ := exists_cons_of_succ_le (not_lt.mp hlen)
    obtain ⟨p₁, rest, rfl, h₂⟩ := exists_cons_of_succ_le h₁
    obtain ⟨w₀, rest, rfl, h₃⟩ := exists_cons_of_succ_le h₂
    obtain ⟨w₁, rest, rfl, h₄⟩ := exists_cons_of_succ_le h₃
    obtain ⟨q₀, rest, rfl, h₅⟩ := exists_cons_of_succ_le h₄
    obtain ⟨q₁, rest, rfl, h₆⟩ := exists_cons_of_succ_le h₅
    have hne : rest ≠ [] := List.length_pos_iff.mp h₆
    refine ⟨(hostOf lib rest).map (.SRV (u16FromBeBytes p₀ p₁) (u16FromBeBytes w₀ w₁)
      (u16FromBeBytes q₀ q₁)), ?_, fun d => ?_⟩
    · unfold rdataSRV
      rw [if_neg hlen]
      simp only [index_zero, index_succ, sliceFrom_succ, sliceFrom_zero]
      rfl
    · rw [Option.map_eq_some_iff]
      constructor
      · rintro ⟨name, hname, rfl⟩
        exact ⟨p₀, p₁, w₀, w₁, q₀, q₁, rest, _, _, _, name, rfl, hne, toNat_u16FromBeBytes p₀ p₁,
          toNat_u16FromBeBytes w₀ w₁, toNat_u16FromBeBytes q₀ q₁, hname, rfl⟩
      · rintro ⟨_, _, _, _, _, _, _, priority, weight, port, name, hdata, -, hp, hw, hq, hname, rfl⟩
        cases hdata
        refine ⟨name, hname, ?_⟩
        rw [UInt16.toNat_inj.mp ((toNat_u16FromBeBytes p₀ p₁).trans hp.symm),
          UInt16.toNat_inj.mp ((toNat_u16FromBeBytes w₀ w₁).trans hw.symm),
          UInt16.toNat_inj.mp ((toNat_u16FromBeBytes q₀ q₁).trans hq.symm)]

/-- The RPC record is not served under its own code. -/
theorem rdataRPC_own (lib : DnsLibrary) (data : Bytes) :
    rdataRPC lib data (.known RecordType.RPC.toDns) = none := by
  unfold rdataRPC
  cases fromUtf8 data with
  | none => rfl
  | some text =>
    simp only [Option.bind_eq_bind, Option.bind_some, RecordType.toDns, WireType.known.injEq,
      reduceCtorEq, or_self, if_false]
    cases lib.parseIpv4 data with
    | some ip4 => rfl
    | none =>
      cases lib.parseIpv6 data with
      | some ip6 => rfl
      | none => cases lib.fromStr data <;> rfl

/-- For a query of its own type a stored payload is converted to what it decodes to. -/
theorem toRdata_converts (lib : DnsLibrary) (hchain : isPolkadotOnly rt = false) (data : Bytes) :
    Converts lib rt data (toRdata lib rt data (.known rt.toDns)) := by
  have hhost : ∀ (make : lib.DnsName → RData lib) (d : RData lib),
      (hostOf lib data).map make = some d ↔
        ∃ name, hostOf lib data = some name ∧ d = make name := by
    intro make d
    rw [Option.map_eq_some_iff]
    exact exists_congr fun name => and_congr_right fun _ => eq_comm
  have hraw : rdataRaw lib rt data (.known rt.toDns) = some (.Unknown (.known rt.toDns) data) :=
    if_neg fun hno => hno.1 rfl
  cases rt with
  | A => exact rdataA_converts lib data
  | AAAA => exact rdataAAAA_converts lib data
  | MX => exact rdataMX_converts lib data
  | SRV => exact rdataSRV_converts lib data
  | CNAME => exact ⟨_, rfl, hhost .CNAME⟩
  | NS => exact ⟨_, rfl, hhost .NS⟩
  | TXT => exact ⟨_, rfl, fun d => Option.some_inj.trans eq_comm⟩
  | RPC => exact .drop (congrArg Except.ok (rdataRPC_own lib data)) fun d hd => hd.servable.2 rfl
  | SS58 | VALIDATOR | PARA | PROXY | PUBKEY1 | PUBKEY2 | PUBKEY3 | AVATAR | CONTRACT | CONTENT
  | IPFS | ORIGIN => cases hchain
  | _ =>
    refine ⟨_, congrArg Except.ok hraw, fun d => ?_⟩
    simp only [Decodes, isPolkadotOnly, true_and]
    exact Option.some_inj.trans eq_comm

/-- No payload makes the conversion panic, whatever was asked for. -/
theorem toRdata_returns (rt : RecordType) (data : Bytes) (q : WireType lib.Variant) :
    ∃ found, toRdata lib rt data q = .ok found := by
  cases rt with
  | A => exact (rdataA_converts lib data).returns
  | AAAA => exact (rdataAAAA_converts lib data).returns
  | MX => exact (rdataMX_converts lib data).returns
  | SRV => exact (rdataSRV_converts lib data).returns
  | _ => exact ⟨_, rfl⟩

theorem pnsRecordToDns_returns (owner : lib.DnsName) (rt : RecordType) (data : Bytes)
    (q : WireType lib.Variant) : ∃ found, pnsRecordToDns lib owner rt data q = .ok found := by
  unfold pnsRecordToDns
  split
  · exact ⟨none, rfl⟩
  · obtain ⟨found, hfound⟩ := toRdata_returns rt data q
    rw [hfound]
    exact ⟨_, rfl⟩

/-- Records that are for the chain alone are not converted. -/
theorem pnsRecordToDns_of_polkadotOnly (owner : lib.DnsName) (data : Bytes)
    (q : WireType lib.Variant) (h : isPolkadotOnly rt = true) :
    pnsRecordToDns lib owner rt data q = .ok none :=
  if_pos h

/-- The record of a payload, for a query of its own type. -/
theorem pnsRecordToDns_own (owner : lib.DnsName) (data : Bytes) {r : DnsRecord lib} :
    pnsRecordToDns lib owner rt data (.known rt.toDns) = .ok (some r) ↔
      ∃ d, Decodes lib rt data d ∧ r = .fromRdata owner 300 d := by
  cases hchain : isPolkadotOnly rt with
  | true =>
    have hno : ∀ d, ¬ Decodes lib rt data d := fun d hd =>
      absurd hd.servable.1 (by simp [hchain])
    simp [pnsRecordToDns_of_polkadotOnly owner data _ hchain, hno]
  | false =>
    obtain ⟨found, hfound, hdecodes⟩ := toRdata_converts lib hchain data
    unfold pnsRecordToDns
    simp only [hchain, Bool.false_eq_true, if_false, hfound, bind_eq_ok, pure_eq_ok,
      Except.ok.injEq, exists_eq_left', Option.map_eq_some_iff, hdecodes]
    exact exists_congr fun d => and_congr_right fun _ => eq_comm

end PnsPallets
