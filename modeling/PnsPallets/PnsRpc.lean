import PnsPallets.Ddns
import PnsPallets.RuntimeApi

/-!
# The record endpoints of the node (node/src/pns_rpc.rs)

`pns_lookup` and `pns_lookupByName` take record types as numbers of 32 bits and return
records under such numbers. On the way in a number is cut to 16 bits, made a type of
the DNS library and then a type of the codec; on the way out the conversions are the
other ones.
-/

namespace PnsPallets.PnsRpc

open Frame

/-- `jsonrpsee::types::ErrorObject`, without the text of the cause. -/
structure ErrorObject where
  code : Int
  message : String
deriving DecidableEq

/-- The error of a runtime call that does not go through. -/
def runtimeError : ErrorObject where
  code := -32603
  message := "Runtime error"

variable {T : Config} (H : Hickory)

/-- `RecordType::from(code as u16).into()`. -/
def typeOfCode (code : UInt32) : Except Panic RecordType := (H.ofCode code.toUInt16).intoCodec

/-- `u16::from(RecordType::from(rt)) as u32`. -/
def codeOfType (recordType : RecordType) : UInt32 := (H.wire recordType).toUInt32

/-- The common body of the two endpoints, over the call of the runtime API. -/
def lookupWith (call : State T → List RecordType → List (RecordType × Bytes))
    (client : Client T) (recordTypes : List UInt32) :
    Except Panic (Except ErrorObject (List (UInt32 × Bytes))) := do
  let pnsTypes ← recordTypes.mapM (typeOfCode H)
  match client.bestState with
  | none => pure (.error runtimeError)
  | some s => pure (.ok ((call s pnsTypes).map fun record => (codeOfType H record.1, record.2)))

/-- `lookup` (pns_rpc.rs:93–108). -/
def lookup (client : Client T) (node : DomainHash) (recordTypes : List UInt32) :
    Except Panic (Except ErrorObject (List (UInt32 × Bytes))) :=
  lookupWith H (fun s => lookupNode s node) client recordTypes

/-- `lookup_by_name` (pns_rpc.rs:126–142). -/
def lookupByName (client : Client T) (name : Bytes) (recordTypes : List UInt32) :
    Except Panic (Except ErrorObject (List (UInt32 × Bytes))) :=
  lookupWith H (fun s => PnsPallets.lookupByName s name) client recordTypes

variable {H} {call : State T → List RecordType → List (RecordType × Bytes)} {client : Client T}
  {codes : List UInt32}

/-- The numbers a request may have without a panic. -/
theorem lookupWith_returns_iff :
    (∃ result, lookupWith H call client codes = .ok result) ↔
      ∀ code ∈ codes, ∀ v, H.variantCode v ≠ code.toUInt16 := by
  have htypes : (∃ types, codes.mapM (typeOfCode H) = .ok types) ↔
      ∀ code ∈ codes, ∀ v, H.variantCode v ≠ code.toUInt16 :=
    mapM_returns_iff.trans (forall₂_congr fun _ _ => H.intoCodec_returns_iff)
  rw [← htypes]
  constructor
  · rintro ⟨result, hresult⟩
    obtain ⟨types, htypes, -⟩ := bind_eq_ok.mp hresult
    exact ⟨types, htypes⟩
  · rintro ⟨types, htypes⟩
    unfold lookupWith
    rw [htypes]
    cases client.bestState with
    | none => exact ⟨_, rfl⟩
    | some s => exact ⟨_, rfl⟩

/-- A returned record comes from the runtime, for the types of the requested numbers. -/
theorem lookupWith_eq_ok {s : State T} (hs : client.bestState = some s)
    {records : List (UInt32 × Bytes)} (h : lookupWith H call client codes = .ok (.ok records)) :
    ∃ types, (∀ rt, rt ∈ types ↔ ∃ code ∈ codes, typeOfCode H code = .ok rt) ∧
      records = (call s types).map fun record => (codeOfType H record.1, record.2) := by
  obtain ⟨types, htypes, h⟩ := bind_eq_ok.mp h
  rw [hs] at h
  exact ⟨types, fun rt => mem_of_mapM_eq_ok htypes, (Except.ok.inj (pure_eq_ok.mp h)).symm⟩

/-- The number a record is returned under is the requested one, cut to 16 bits. -/
theorem codeOfType_of_typeOfCode {code : UInt32} {rt : RecordType}
    (h : typeOfCode H code = .ok rt) : codeOfType H rt = code.toUInt16.toUInt32 := by
  unfold codeOfType
  rw [H.wire_of_ofCode h]

end PnsPallets.PnsRpc
