import PnsPallets.Frame.Dispatch
import PnsPallets.Storage

/-!
# The `Registrar` trait (pns-registrar/src/registrar.rs:847–1000)

What the registrar answers the registry: the expiry checks of a node and whether
an account holds a canonical name that is still its own. `expire + GracePeriod`
is plain `u64` addition in the source, so it wraps here too.
-/

namespace PnsPallets.Registrar

open Frame

variable {T : Config}

/-- `expire + T::GracePeriod::get()`. -/
def graceEnd (T : Config) (info : RegistrarInfo) : Moment := info.expire + T.gracePeriod

/-- The `still_valid` test of register, transfer, accept_offered_name,
transfer_name and offer_bought_name: the node is registered and not past its
grace period. -/
def stillValid (s : State T) (node : DomainHash) : Bool :=
  match s.registrar.registrarInfos.get node with
  | some info => decide (s.now ≤ graceEnd T info)
  | none => false

/-- `check_expires_registrable` (registrar.rs:852–862). -/
def checkExpiresRegistrable (s : State T) (node : DomainHash) : DispatchResult Unit := do
  let info ← okOr (s.registrar.registrarInfos.get node) (.registrar .notExistOrOccupied)
  ensure (s.now > graceEnd T info) (.registrar .occupied)

/-- `check_expires_renewable` (registrar.rs:864–877). -/
def checkExpiresRenewable (s : State T) (node : DomainHash) : DispatchResult Unit := do
  let info ← okOr (s.registrar.registrarInfos.get node) (.registrar .notExistOrOccupied)
  ensure (s.now < graceEnd T info) (.registrar .notRenewable)

/-- `check_expires_useable` (registrar.rs:879–889). -/
def checkExpiresUseable (s : State T) (node : DomainHash) : DispatchResult Unit := do
  let info ← okOr (s.registrar.registrarInfos.get node) (.registrar .notExistOrOccupied)
  ensure (s.now < info.expire) (.registrar .notUseable)

/-- `clear_registrar_info` (registrar.rs:891–899). -/
def clearRegistrarInfo (s : State T) (node : DomainHash) : State T :=
  { s with registrar.registrarInfos := s.registrar.registrarInfos.remove node }

/-- `has_valid_canonical_name` (registrar.rs:993–999). -/
def hasValidCanonicalName (s : State T) (account : AccountId) : Bool :=
  match s.registrar.ownerToPrimaryName.get account with
  | some node => stillValid s node
  | none => false

theorem stillValid_iff {s : State T} {node : DomainHash} :
    stillValid s node = true ↔
      ∃ info, s.registrar.registrarInfos.get node = some info ∧
        s.now ≤ graceEnd T info := by
  unfold stillValid
  cases hg : s.registrar.registrarInfos.get node with
  | none => simp
  | some info => simp

/-- The name can still be handed over: the end of its grace period is to come. -/
def Renewable (s : State T) (node : DomainHash) : Prop :=
  ∃ info, s.registrar.registrarInfos.get node = some info ∧ s.now < graceEnd T info

theorem Renewable.stillValid {s : State T} {node : DomainHash} (h : Renewable s node) :
    stillValid s node = true := by
  obtain ⟨info, hinfo, hlt⟩ := h
  exact stillValid_iff.mpr ⟨info, hinfo, UInt64.le_of_lt hlt⟩

theorem checkExpiresRenewable_eq_ok {s : State T} {node : DomainHash} {u : Unit} :
    checkExpiresRenewable s node = .ok u ↔ Renewable s node := by
  simp only [checkExpiresRenewable, bind_eq_ok, okOr_eq_ok, ensure_eq_ok]
  rfl

/-! The checks of a node with registration info are comparisons of times. -/

theorem isOk_checkExpiresRegistrable {s : State T} {node : DomainHash} {info : RegistrarInfo}
    (h : s.registrar.registrarInfos.get node = some info) :
    (checkExpiresRegistrable s node).isOk = decide (s.now > graceEnd T info) := by
  unfold checkExpiresRegistrable
  rw [h]
  exact ensure_isOk

theorem isOk_checkExpiresRenewable {s : State T} {node : DomainHash} {info : RegistrarInfo}
    (h : s.registrar.registrarInfos.get node = some info) :
    (checkExpiresRenewable s node).isOk = decide (s.now < graceEnd T info) := by
  unfold checkExpiresRenewable
  rw [h]
  exact ensure_isOk

theorem isOk_checkExpiresUseable {s : State T} {node : DomainHash} {info : RegistrarInfo}
    (h : s.registrar.registrarInfos.get node = some info) :
    (checkExpiresUseable s node).isOk = decide (s.now < info.expire) := by
  unfold checkExpiresUseable
  rw [h]
  exact ensure_isOk

theorem stillValid_eq {s : State T} {node : DomainHash} {info : RegistrarInfo}
    (h : s.registrar.registrarInfos.get node = some info) :
    stillValid s node = decide (s.now ≤ graceEnd T info) := by
  unfold stillValid
  rw [h]

theorem checkExpiresRegistrable_eq_ok {s : State T} {node : DomainHash} {u : Unit}
    (h : checkExpiresRegistrable s node = .ok u) :
    (∃ info, s.registrar.registrarInfos.get node = some info) ∧
      stillValid s node = false := by
  unfold checkExpiresRegistrable at h
  simp only [bind_eq_ok, okOr_eq_ok, ensure_eq_ok] at h
  obtain ⟨info, hinfo, hlt⟩ := h
  refine ⟨⟨info, hinfo⟩, ?_⟩
  unfold stillValid
  rw [hinfo]
  exact decide_eq_false (UInt64.not_le.mpr hlt)

/-- With registration info in place only a live name is refused. -/
theorem checkExpiresRegistrable_fails {s : State T} {node : DomainHash}
    (h : (s.registrar.registrarInfos.get node).isSome = true) :
    FailsOnly (· = .registrar .occupied) (checkExpiresRegistrable s node) := by
  obtain ⟨info, hinfo⟩ := Option.isSome_iff_exists.mp h
  refine .bind ?_ fun _ _ => .ensure rfl
  rw [hinfo]
  exact .ok info

end PnsPallets.Registrar
