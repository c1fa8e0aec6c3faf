import PnsPallets.Devnet
import PnsPallets.Reachability
import PnsPallets.RollView

/-!
# Names within their grace period

A name is its holder's until `expire + GracePeriod`. That sum is meant as a number (`inGrace`), and
computed in `u64`, where it wraps (`stillValid`). The two tests agree on every row of
`RegistrarInfos` whose sum is a time, and in a run in which no call sets a term too close to the end
of time (`TermsFit`) all rows are such (`ReachableBy.inGrace_eq`). Near the end of time they differ:
there a name counts as expired in the term it has just been given (`Devnet.overrunInputs`).
-/

namespace PnsPallets

open Frame Registry Registrar Rolls

variable {T : Config} {L : Set Bytes} {s : State T} {n : DomainHash} {info : RegistrarInfo}

/-- The name is registered and not past its grace period: `now` is at most `expire + GracePeriod`,
as numbers. -/
def inGrace (s : State T) (n : DomainHash) : Bool :=
  match s.registrar.registrarInfos.get n with
  | some info => decide (s.now.toNat ≤ info.expire.toNat + T.gracePeriod.toNat)
  | none => false

/-- Where the sum is a time, the two tests agree. -/
theorem inGrace_iff_of_fits (hfit : info.expire.toNat + T.gracePeriod.toNat < 2 ^ 64) :
    s.now.toNat ≤ info.expire.toNat + T.gracePeriod.toNat ↔ s.now ≤ graceEnd T info := by
  rw [UInt64.le_iff_toNat_le, graceEnd, UInt64.toNat_add, Nat.mod_eq_of_lt hfit]

/-! ## Terms that fit -/

/-- A term that the call sets ends, with its grace period, before the end of time. -/
def TermsFit (s : State T) (_ : Origin) (call : Call T) : Prop :=
  call.setsTerm = true →
    s.now.toNat + T.maxRegistrationDuration.toNat + T.gracePeriod.toNat < 2 ^ 64

instance (s : State T) (o : Origin) (call : Call T) : Decidable (TermsFit s o call) :=
  inferInstanceAs (Decidable (call.setsTerm = true →
    s.now.toNat + T.maxRegistrationDuration.toNat + T.gracePeriod.toNat < 2 ^ 64))

/-- A call whose term fits writes rows whose sum is a time. -/
theorem Enrols.keeps_fits {o : Origin} {call : Call T}
    {es : List (Event DomainHash RegistrarInfo)} (h : Enrols s o call es)
    (hfits : TermsFit s o call) :
    ∀ e ∈ es, e.Keeps fun _ info => info.expire.toNat + T.gracePeriod.toNat < 2 ^ 64 := by
  cases h with
  | register hn hlabel hfee hexpire =>
    intro e he
    rcases List.mem_append.mp he with he | he
    · exact strikes_keeps e he
    · obtain rfl := List.mem_singleton.mp he
      intro old _
      rw [enrolment_expire, Moment.checkedAdd_eq_some hexpire]
      exact hfits rfl
  | renew hn hexpire =>
    intro e he
    obtain rfl := List.mem_singleton.mp he
    intro info _
    show _ + _ < _
    rw [Moment.checkedAdd_eq_some hexpire]
    exact hfits rfl
  | other _ => exact strikes_keeps

theorem genesis_registrarInfos {root : AccountId} {balances : T.Ledger} {parentHash : H256}
    (h : genesis T root balances parentHash = .ok s) : s.registrar.registrarInfos = .empty := by
  unfold genesis at h
  simp only [bind_eq_ok, pure_eq_ok] at h
  obtain ⟨nft, -, rfl⟩ := h
  rfl

/-- In a run of terms that fit, the grace period of every name ends at a time. -/
theorem ReachableBy.fits (hcf : CollisionFree T.keccak256 T.baseNode L)
    (h : ReachableBy T L (OnSuccess TermsFit) s) :
    ∀ n info, s.registrar.registrarInfos.get n = some info →
      info.expire.toNat + T.gracePeriod.toNat < 2 ^ 64 := by
  refine (ReachableBy.invariant (I := fun s : State T => ∀ n info,
    s.registrar.registrarInfos.get n = some info →
      info.expire.toNat + T.gracePeriod.toNat < 2 ^ 64) hcf ?_ ?_ ?_ h).2
  · intro root balances parentHash s hs n info hinfo
    simp [genesis_registrarInfos hs] at hinfo
  · exact fun s now number hash ledger _ hinv => hinv
  · intro s o call s' hc hadm hfits hok _ hinv
    obtain ⟨es, hes, hleads⟩ := dispatch_enrols hcf hc hadm hok
    exact hleads.all (hes.keeps_fits (hfits.holds hok)) hinv

/-- In such a run the test of the pallets is the one that is meant. -/
theorem ReachableBy.inGrace_eq (hcf : CollisionFree T.keccak256 T.baseNode L)
    (h : ReachableBy T L (OnSuccess TermsFit) s) : inGrace s = stillValid s := by
  funext n
  unfold inGrace stillValid
  cases hinfo : s.registrar.registrarInfos.get n with
  | none => rfl
  | some info => exact decide_eq_decide.mpr (inGrace_iff_of_fits (h.fits hcf n info hinfo))

/-- In such a run a name that is live passes the test of the pallets. -/
theorem ReachableBy.stillValid_of_live (hcf : CollisionFree T.keccak256 T.baseNode L)
    (h : ReachableBy T L (OnSuccess TermsFit) s)
    (hinfo : s.registrar.registrarInfos.get n = some info)
    (hlive : s.now.toNat ≤ info.expire.toNat + T.gracePeriod.toNat) :
    stillValid s n = true :=
  stillValid_iff.mpr ⟨info, hinfo, (inGrace_iff_of_fits (h.fits hcf n info hinfo)).mp hlive⟩

namespace Devnet

theorem afterRegistration_fits : ReachableBy config labels (OnSuccess TermsFit) afterRegistration :=
  reachableBy_after (by decide +kernel) (by decide +kernel)

theorem afterDelegation_fits : ReachableBy config labels (OnSuccess TermsFit) afterDelegation :=
  reachableBy_after (by decide +kernel) (by decide +kernel)

theorem afterSale_fits : ReachableBy config labels (OnSuccess TermsFit) afterSale :=
  reachableBy_after (by decide +kernel) (by decide +kernel)

/-! ## Near the end of time -/

/-- A block at the latest time at which `alice` can be registered, and the registration. -/
def lastTermInputs : List (Input config) :=
  [ .newBlock (18446744073709551615 - config.maxRegistrationDuration) 1 (digest 1) balances,
    .extrinsic (.signed (account 1)) (.register alice (.id (account 1)) none) ]

/-- Account 1 buys `alice`, and later renews it for a term that runs to the end of time. `alice`
then counts as expired, and account 1 registers `bob`. -/
def overrunInputs : List (Input config) :=
  [ .newBlock 18446744039581551615 1 (digest 1) balances,
    .extrinsic (.signed (account 2)) (.register alice (.id (account 2)) none),
    .extrinsic (.signed (account 2)) (.createListing 5000 18446744073709551615),
    .extrinsic (.signed (account 1)) (.buyName alice none),
    .newBlock 18446744042173551615 2 (digest 2) balances,
    .extrinsic (.signed (account 1)) .renew,
    .extrinsic (.signed (account 1)) (.register bob (.id (account 1)) none) ]

end Devnet

end PnsPallets
