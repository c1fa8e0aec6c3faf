import Mathlib.Algebra.Group.Pi.Basic
import PnsPallets.Ddns.Handler

/-!
# What the DNS server counts

The requests of the server run concurrently, and the handler keeps three kinds of counts
of them: the requests in flight, the metrics, and those of the rate limiters. The first
two are sums over the requests, each by the point it is at (`Program.sum_rule`). A rate
limiter is a gate in the program (`Frame.Gate`): what is behind it is bounded by what it
lets pass.
-/

namespace PnsPallets

open Frame

variable {lib : DnsLibrary} {parts : ServerParts} {ω : Type}
  {inner : InnerHandler lib ω} {minResponseMs : ℕ}
  {i : ℕ} {h h' : HardenedHandler parts ω} {r : Request lib} {p p' : Point}
  {t t₀ : Serving parts lib ω}

/-! ## Requests in flight -/

/-- Between the `fetch_add` of a request and its `fetch_sub`. -/
def Point.counted : Point → Bool
  | .inflightAdd | .returned _ => false
  | _ => true

/-- Past the cap: the request holds the guard. -/
def Point.guarded : Point → Bool
  | .inflightSub => false
  | p => p.counted

theorem Access.inflight (ha : Access inner i h r p h' p') :
    h'.inflight + (if p.counted then 1 else 0) = h.inflight + if p'.counted then 1 else 0 := by
  cases ha <;> simp [Point.counted]

theorem Access.maxInflight (ha : Access inner i h r p h' p') : h'.maxInflight = h.maxInflight := by
  cases ha <;> rfl

/-- A request comes past the cap at one place. -/
theorem Access.guarded (ha : Access inner i h r p h' p') (hp : p'.guarded = true) :
    p.guarded = true ∨ p = .inflightAdd ∧ h.inflight < h.maxInflight := by
  cases ha <;> simp_all [Point.guarded, Point.counted]

theorem ServerReach.inflight (ht : ServerReach parts inner minResponseMs t) :
    t.shared.inflight = UInt64.ofNat (t.threads.countP (·.point.counted)) := by
  refine Program.count_rule (q := HardenedHandler.inflight) (p := fun x => x.point.counted)
    ?_ ?_ ?_ ?_ ht
  · rintro h ⟨now, world, -, rfl⟩
    rfl
  · intro request
    rfl
  · intro i c h x
    exact (act_access inner i c h x).inflight
  · intro e h
    cases e <;> rfl

theorem ServerReach.maxInflight (ht : ServerReach parts inner minResponseMs t) :
    t.shared.maxInflight = 100 := by
  refine (Program.local_rule (I := fun _ h => h.maxInflight = 100) (J := fun _ _ _ => True)
    ?_ ?_ ?_ ?_ ht).1
  · rintro h ⟨now, world, -, rfl⟩
    rfl
  · intro _ _ _ hmax
    exact ⟨hmax, trivial⟩
  · intro _ i c h x hmax _ _
    exact ⟨(act_access inner i c h x).maxInflight.trans hmax, trivial, fun _ _ _ _ => trivial⟩
  · intro t e _ hmax
    refine ⟨?_, fun _ _ _ => trivial⟩
    cases e <;> exact hmax

theorem ServerReach.length (ht : ServerReach parts inner minResponseMs t) :
    t.threads.length < 2 ^ 64 := by
  refine Machine.Reach.invariant (I := fun t => t.threads.length < 2 ^ 64) ?_ ?_ ht
  · rintro t ⟨-, hnil⟩
    rw [hnil]
    exact Nat.two_pow_pos 64
  · intro t m hlen hg
    refine Program.step_cases (Q := fun t => t.threads.length < 2 ^ 64) m ?_ ?_ ?_ hlen
    · rintro a rfl
      rw [List.length_append, List.length_singleton]
      exact hg
    · intro i c p _ _
      rwa [List.length_set]
    · intro e _
      exact hlen

/-- The counter is the number of requests that it counts. -/
theorem ServerReach.inflight_toNat (ht : ServerReach parts inner minResponseMs t) :
    t.shared.inflight.toNat = t.threads.countP (·.point.counted) := by
  have hle : t.threads.countP (·.point.counted) ≤ t.threads.length := List.countP_le_length
  rw [ht.inflight, UInt64.toNat_ofNat', Nat.mod_eq_of_lt (hle.trans_lt ht.length)]

theorem countP_guarded_le (threads : List (Handling lib)) :
    threads.countP (·.point.guarded) ≤ threads.countP (·.point.counted) := by
  refine List.countP_mono_left fun x _ hx => ?_
  unfold Point.guarded at hx
  split at hx
  · cases hx
  · exact hx

/-- At most 100 requests are past the cap. -/
theorem ServerReach.guarded_le (ht : ServerReach parts inner minResponseMs t) :
    t.threads.countP (·.point.guarded) ≤ 100 := by
  induction ht with
  | init hinit =>
    rw [hinit.2]
    exact Nat.zero_le 100
  | @step t m ht hg ih =>
    refine Program.step_cases
      (Q := fun t : Serving parts lib ω => t.threads.countP (·.point.guarded) ≤ 100) m ?_ ?_ ?_ ih
    · intro request _
      rw [List.countP_append]
      exact ih
    · intro i c x _ hx
      have hmoved := Program.countP_moved (fun x : Handling lib => x.point.guarded) hx
        (act inner i c t.shared x).2
      have hcounted := countP_guarded_le t.threads
      rw [← ServerReach.inflight_toNat ht] at hcounted
      by_cases hout : (act inner i c t.shared x).2.point.guarded = true
      · rcases (act_access inner i c t.shared x).guarded hout with hin | ⟨-, hlt⟩
        · rw [if_pos hout, if_pos hin] at hmoved
          exact (Nat.add_right_cancel hmoved).trans_le ih
        · -- the request comes past the cap, so the count was below it
          have hlt' : t.shared.inflight.toNat < 100 := by
            rw [ServerReach.maxInflight ht] at hlt
            exact hlt
          rw [if_pos hout] at hmoved
          exact (Nat.le_of_add_right_le hmoved.le).trans (by omega)
      · rw [if_neg hout] at hmoved
        exact (Nat.le_of_add_right_le hmoved.le).trans ih
    · intro e _
      exact ih

/-! ## Metrics -/

/-- The counters that a request has incremented when it leaves. -/
def Exit.bumped : Exit → List Counter
  | .inflightCap => [.dropInflightCap]
  | .anyQuery => [.dropAnyQuery]
  | .srcRateLimit => [.dropSrcRateLimit]
  | .globalRateLimit => []
  | .zoneRateLimit => [.dropZoneRateLimit]
  | .penaltyBackoff => [.dropPenaltyBackoff]
  | .negCacheHit => [.negCacheHit]
  | .storageRateLimit => [.dropStorageRateLimit]
  | .labelValidation => [.dropLabelValidation]
  | .nxDomainFirst => [.storageLookups, .firstSeenMiss, .respNxdomain]
  | .nxDomainAgain => [.storageLookups, .firstSeenHit, .respNxdomain]
  | .answered _ => [.storageLookups, .respNoerror]
  | .timedOut => [.storageLookups, .dropStorageTimeout, .storageTimeouts]
  | .panicked => [.storageLookups]

/-- The counters that a request has incremented at a point. -/
def Point.bumped : Point → List Counter
  | .guardDrop exit | .returned exit => exit.bumped
  | .penaltyRead | .penaltyWrite _ => [.dropZoneRateLimit]
  | .lookup | .firstSeen | .negInsert | .bloomSet | .firstSeenInvalidate | .firstSeenInsert =>
    [.storageLookups]
  | _ => []

/-- The metrics that some increments make. -/
def tally (bumps : List Counter) : DnsMetrics := fun c => UInt64.ofNat (bumps.count c)

theorem tally_append (b b' : List Counter) : tally (b ++ b') = tally b + tally b' := by
  funext c
  simp [tally]

theorem foldl_fetchAdd (m : DnsMetrics) (bumps : List Counter) :
    bumps.foldl DnsMetrics.fetchAdd m = m + tally bumps := by
  induction bumps generalizing m with
  | nil =>
    funext c
    simp [tally]
  | cons b bumps ih =>
    rw [List.foldl_cons, ih, show b :: bumps = [b] ++ bumps from rfl, tally_append, ← add_assoc]
    congr 1
    funext c
    by_cases hc : c = b
    · subst hc
      simp [DnsMetrics.fetchAdd, tally]
    · simp [DnsMetrics.fetchAdd, tally, Function.update_of_ne hc, Ne.symm hc]

/-- An access increments the counters that its request has incremented after it, and not
before it. -/
theorem Access.metrics (ha : Access inner i h r p h' p') :
    ∃ bumps, h'.metrics = bumps.foldl DnsMetrics.fetchAdd h.metrics ∧
      p'.bumped = p.bumped ++ bumps := by
  cases ha with
  | leave exit => exact ⟨[], rfl, (List.append_nil _).symm⟩
  | done exit => exact ⟨[], rfl, (List.append_nil _).symm⟩
  | _ =>
    first
    | exact ⟨[], rfl, rfl⟩
    | exact ⟨[_], rfl, rfl⟩
    | exact ⟨[_, _], rfl, rfl⟩

theorem ServerReach.metrics (ht : ServerReach parts inner minResponseMs t) :
    t.shared.metrics = (t.threads.map fun x => tally x.point.bumped).sum := by
  refine Program.sum_rule (q := HardenedHandler.metrics) (w := fun x => tally x.point.bumped)
    ?_ ?_ ?_ ?_ ht
  · rintro h ⟨now, world, -, rfl⟩
    rfl
  · intro request
    rfl
  · intro i c h x
    obtain ⟨bumps, hmetrics, hbumped⟩ := (act_access inner i c h x).metrics
    change (act inner i c h x).1.metrics + tally x.point.bumped
      = h.metrics + tally (act inner i c h x).2.point.bumped
    rw [hmetrics, hbumped, foldl_fetchAdd, tally_append]
    abel
  · intro e h
    cases e <;> rfl

/-- How often the requests have incremented a counter. -/
def bumps (threads : List (Handling lib)) (c : Counter) : ℕ :=
  (threads.map fun x => x.point.bumped.count c).sum

theorem sum_tally (threads : List (Handling lib)) (c : Counter) :
    (threads.map fun x => tally x.point.bumped).sum c = UInt64.ofNat (bumps threads c) := by
  unfold bumps
  induction threads with
  | nil => rfl
  | cons x threads ih =>
    rw [List.map_cons, List.sum_cons, Pi.add_apply, ih, List.map_cons, List.sum_cons,
      UInt64.ofNat_add]
    rfl

/-- The lookups of these requests have no response yet, or panicked. -/
def Point.unanswered : Point → Bool
  | .lookup | .firstSeen | .negInsert | .bloomSet | .firstSeenInvalidate | .firstSeenInsert
  | .guardDrop .panicked | .returned .panicked => true
  | _ => false

/-- Every lookup was answered, timed out, or is unanswered. -/
theorem Point.bumped_lookups (p : Point) :
    p.bumped.count .storageLookups = p.bumped.count .respNoerror + p.bumped.count .respNxdomain +
      p.bumped.count .storageTimeouts + if p.unanswered then 1 else 0 := by
  cases p with
  | guardDrop exit => cases exit <;> rfl
  | returned exit => cases exit <;> rfl
  | _ => rfl

theorem bumps_lookups (threads : List (Handling lib)) :
    bumps threads .storageLookups = bumps threads .respNoerror + bumps threads .respNxdomain +
      bumps threads .storageTimeouts + threads.countP (·.point.unanswered) := by
  unfold bumps
  induction threads with
  | nil => rfl
  | cons x threads ih =>
    simp only [List.map_cons, List.sum_cons, List.countP_cons, ih, x.point.bumped_lookups]
    omega

/-- The counters of outcomes: refusals, timeouts and responses. -/
def Counter.outcomes : List Counter :=
  [.dropInflightCap, .dropAnyQuery, .dropSrcRateLimit, .dropZoneRateLimit, .dropPenaltyBackoff,
    .dropStorageTimeout, .dropStorageRateLimit, .dropLabelValidation, .negCacheHit, .respNoerror,
    .respNxdomain]

/-- The outcome of the request is decided, and it is not a refusal of step 4 or a panic: no
counter counts these two. -/
def Point.settled : Point → Bool
  | .guardDrop exit | .returned exit => exit ≠ .globalRateLimit ∧ exit ≠ .panicked
  | .penaltyRead | .penaltyWrite _ => true
  | _ => false

theorem Point.bumped_outcomes (p : Point) :
    (Counter.outcomes.map p.bumped.count).sum = if p.settled then 1 else 0 := by
  cases p with
  | guardDrop exit => cases exit <;> rfl
  | returned exit => cases exit <;> rfl
  | _ => rfl

theorem bumps_outcomes (threads : List (Handling lib)) :
    (Counter.outcomes.map (bumps threads)).sum = threads.countP (·.point.settled) := by
  induction threads with
  | nil => rfl
  | cons x threads ih =>
    have hcons : bumps (x :: threads) = fun c => x.point.bumped.count c + bumps threads c := by
      funext c
      exact List.sum_cons
    rw [hcons, List.sum_map_add, ih, x.point.bumped_outcomes, List.countP_cons, Nat.add_comm]

/-- The counters that nothing increments. -/
def Counter.unused : Counter → Bool
  | .dropBloomPreFilter | .dropCnameDepth | .respRefused | .respServfail | .respNotimp => true
  | _ => false

theorem Point.bumped_unused (p : Point) {c : Counter} (hc : c.unused = true) :
    p.bumped.count c = 0 := by
  cases c with
  | dropBloomPreFilter | dropCnameDepth | respRefused | respServfail | respNotimp =>
    cases p with
    | guardDrop exit => cases exit <;> rfl
    | returned exit => cases exit <;> rfl
    | _ => rfl
  | _ => cases hc

/-! ## Rate limits -/

/-- The checks that a request had passed when it left. -/
def Exit.passed : Exit → ℕ
  | .inflightCap => 0
  | .anyQuery => 1
  | .srcRateLimit => 2
  | .globalRateLimit => 3
  | .zoneRateLimit => 4
  | .penaltyBackoff => 5
  | .negCacheHit => 6
  | .storageRateLimit => 7
  | .labelValidation => 8
  | .nxDomainFirst | .nxDomainAgain | .answered _ | .timedOut | .panicked => 10

/-- The number of checks that a request has passed: the cap, ANY, the three limiters, the
penalty, the negative cache, the storage limiter, the labels, and the queue. -/
def Point.passed : Point → ℕ
  | .inflightAdd | .inflightSub => 0
  | .anyQuery => 1
  | .srcLimit => 2
  | .globalLimit => 3
  | .zoneLimit | .penaltyRead | .penaltyWrite _ => 4
  | .penaltyCheck => 5
  | .negCache => 6
  | .storageLimit => 7
  | .labels => 8
  | .enterQueue | .sending _ | .waiting _ => 9
  | .lookup | .firstSeen | .negInsert | .bloomSet | .firstSeenInvalidate | .firstSeenInsert => 10
  | .guardDrop exit | .returned exit => exit.passed

theorem Access.now (ha : Access inner i h r p h' p') : h'.now = h.now := by
  cases ha <;> rfl

/-- A limiter that the requests at the point `gate` ask, with the key `key`, and that only
those pass who have come to the check `level`. -/
def limiterGate {K : Type} [DecidableEq K] (inner : InnerHandler lib ω)
    (minResponseMs : ℕ) (limiter : RateLimiter K) (state : HardenedHandler parts ω → limiter.State)
    (key : Request lib → K) (gate : Point) (level : ℕ) (hlevel : gate.passed < level)
    (henv : ∀ e h, state (env e h) = state h)
    (helse : ∀ i h r p h' p', Access inner i h r p h' p' → p ≠ gate →
      state h' = state h ∧ (level ≤ p'.passed ↔ level ≤ p.passed))
    (hgate : ∀ i h r h' p', Access inner i h r gate h' p' →
      state h' = (limiter.check (state h) (key r) h.now).2 ∧
        (level ≤ p'.passed ↔ (limiter.check (state h) (key r) h.now).1 = true)) :
    Gate (server parts inner minResponseMs) K where
  limiter := limiter
  state := state
  clock h := h.now
  key x := if x.point = gate then some (key x.request) else none
  behind x := if level ≤ x.point.passed then some (key x.request) else none
  behind_entry request := if_neg (Nat.not_le.mpr (Nat.zero_lt_of_lt hlevel))
  clock_act i c h x := (act_access inner i c h x).now
  state_env := henv
  act_elsewhere i c h x hkey := by
    have hpoint : x.point ≠ gate := fun heq => by simp [heq] at hkey
    obtain ⟨hstate, hpassed⟩ := helse _ _ _ _ _ _ (act_access inner i c h x) hpoint
    simp only [server_act, act_request, hpassed, hstate, and_self]
  act_gate i c h x k hkey := by
    have hpoint : x.point = gate := by
      by_contra hne
      simp [hne] at hkey
    rw [if_pos hpoint] at hkey
    obtain rfl := Option.some.inj hkey
    have ha := act_access inner i c h x
    rw [hpoint] at ha
    obtain ⟨hstate, hpassed⟩ := hgate _ _ _ _ _ ha
    refine ⟨if_neg (hpoint ▸ Nat.not_le.mpr hlevel), hstate, ?_⟩
    simp only [server_act, act_request, hpassed]

theorem Access.srcRl (ha : Access inner i h r p h' p') (hp : p ≠ .srcLimit) :
    h'.srcRl = h.srcRl ∧ (3 ≤ p'.passed ↔ 3 ≤ p.passed) := by
  cases ha <;> simp_all [Point.passed, Exit.passed]

theorem Access.srcRl_check (ha : Access inner i h r .srcLimit h' p') :
    h'.srcRl = (parts.srcRl.check h.srcRl (subnetKey r.src) h.now).2 ∧
      (3 ≤ p'.passed ↔ (parts.srcRl.check h.srcRl (subnetKey r.src) h.now).1 = true) := by
  cases ha <;> simp_all [Point.passed, Exit.passed]

theorem Access.storageRl (ha : Access inner i h r p h' p') (hp : p ≠ .storageLimit) :
    h'.storageRl = h.storageRl ∧ (8 ≤ p'.passed ↔ 8 ≤ p.passed) := by
  cases ha <;> simp_all [Point.passed, Exit.passed]

theorem Access.storageRl_check (ha : Access inner i h r .storageLimit h' p') :
    h'.storageRl = (parts.storageRl.check h.storageRl () h.now).2 ∧
      (8 ≤ p'.passed ↔ (parts.storageRl.check h.storageRl () h.now).1 = true) := by
  cases ha <;> simp_all [Point.passed, Exit.passed]

/-- The source limiter, in the program. -/
def srcGate (parts : ServerParts) (inner : InnerHandler lib ω)
    (minResponseMs : ℕ) : Gate (server parts inner minResponseMs) SubnetKey :=
  limiterGate inner minResponseMs parts.srcRl HardenedHandler.srcRl (fun r => subnetKey r.src)
    .srcLimit 3 (by decide) (fun e _ => by cases e <;> rfl)
    (fun _ _ _ _ _ _ ha hp => ha.srcRl hp) (fun _ _ _ _ _ ha => ha.srcRl_check)

/-- The storage limiter, in the program. -/
def storageGate (parts : ServerParts) (inner : InnerHandler lib ω)
    (minResponseMs : ℕ) : Gate (server parts inner minResponseMs) Unit :=
  limiterGate inner minResponseMs parts.storageRl HardenedHandler.storageRl (fun _ => ())
    .storageLimit 8 (by decide) (fun e _ => by cases e <;> rfl)
    (fun _ _ _ _ _ _ ha hp => ha.storageRl hp) (fun _ _ _ _ _ ha => ha.storageRl_check)

theorem ServerRuns.clock {e : ServerEvent ω} (hg : ServerRuns inner t (.env e)) :
    t.shared.now ≤ (env e t.shared).now := by
  cases e with
  | clock now => exact hg
  | _ => exact le_refl _

/-- The requests of a subnet that have passed the source limiter. -/
def admittedOf (key : SubnetKey) (threads : List (Handling lib)) : ℕ :=
  threads.countP fun x => subnetKey x.request.src = key ∧ 3 ≤ x.point.passed

/-- Past the storage limiter, with the lookup still ahead. -/
def Point.pending : Point → Bool
  | .labels | .enterQueue | .sending _ | .waiting _ => true
  | _ => false

/-- Past the storage limiter, and refused for its labels. -/
def Point.misspelt : Point → Bool
  | .guardDrop exit | .returned exit => exit = .labelValidation
  | _ => false

/-- Where the requests are that have passed the storage limiter. -/
theorem Point.passed_storage (p : Point) :
    (if 8 ≤ p.passed then 1 else 0) = (if 10 ≤ p.passed then 1 else 0) +
      (if p.pending then 1 else 0) + if p.misspelt then 1 else 0 := by
  cases p with
  | guardDrop exit => cases exit <;> rfl
  | returned exit => cases exit <;> rfl
  | _ => rfl

/-- The storage lookups that have been started. -/
def lookups (threads : List (Handling lib)) : ℕ := threads.countP fun x => 10 ≤ x.point.passed

theorem countP_passed_storage (threads : List (Handling lib)) :
    (threads.countP fun x => 8 ≤ x.point.passed) = lookups threads +
      threads.countP (·.point.pending) + threads.countP (·.point.misspelt) := by
  unfold lookups
  induction threads with
  | nil => rfl
  | cons x threads ih =>
    have hx := x.point.passed_storage
    simp only [List.countP_cons, ih, decide_eq_true_eq]
    omega

theorem countP_pending_le (threads : List (Handling lib)) :
    threads.countP (·.point.pending) ≤ threads.countP (·.point.guarded) := by
  refine List.countP_mono_left fun x _ hx => ?_
  cases hpoint : x.point <;> simp_all [Point.pending, Point.guarded, Point.counted]

theorem Access.misspelt (ha : Access inner i h r p h' p') (hp : p.misspelt = true) :
    p'.misspelt = true := by
  cases ha with
  | leave exit => exact hp
  | done exit => exact hp
  | _ => cases hp

end PnsPallets
