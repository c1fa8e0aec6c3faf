import PnsPallets.Ddns.ResponseQueue
import PnsPallets.Ddns.Server
import PnsPallets.Properties.DnsAnswers

/-!
# The DNS server under load

Results about `HardenedHandler` in every interleaving of its requests, with time, the
queue's task, the caches and the chain moving between any two accesses:

- the counter of requests in flight is exact, and at most 100 requests are past the cap at
  any time (`inflight_exact`);
- the metrics are exact: every counter is the number of requests that have come to the
  places where it is incremented (`metrics_exact`);
- the rate limiters hold for what is behind them, though time passes between the check and
  what it protects: the requests of one subnet (`subnet_requests_bounded`), and the storage
  lookups, which the response queue delays (`storage_lookups_bounded`);
- the response queue releases every request once, and none before its time
  (`response_queue_sound`). No request needs another one to return (`request_returns`);
- a subnet has a penalty only for requests of its own (`penalties_earned`);
- a name is denied from the negative cache only after two different requests found that it
  was not on the chain (`negative_cache_backed`), and never if it is there all the time
  (`rooted_name_not_denied`).

What is not claimed: an entry of the negative cache ends 60 seconds after it was made, but
the answers behind it can be older by the time their requests took since.
-/

namespace PnsPallets

open Frame

variable {lib : DnsLibrary} {parts : ServerParts} {ω : Type} {inner : InnerHandler lib ω}
  {minResponseMs : ℕ} {i : ℕ} {t t₀ : Serving parts lib ω}

/-! ## A server of the development chain -/

namespace Devnet

/-- Limiters as `governor` makes them from a quota per second, and an exact filter. -/
def serverParts : ServerParts where
  bloom := .exactFilter Bytes
  limiter K _ perSecond := .gcra K (fromSecs 1 / perSecond) (perSecond * (fromSecs 1 / perSecond))

/-- A catalog that asks the authority for the first query. -/
def catalog : Catalog dnsLibrary where
  respond lookup request :=
    match request.queries.head? with
    | none => .ok .formErr
    | some query =>
      (lookup query.name query.queryType).map fun answer =>
        if answer = .error (.responseCode .nxDomain) then .nxDomain else .noError
  respond_nxDomain lookup request h := by
    split at h
    · cases h
    · next query hhead =>
      refine ⟨query, hhead, ?_⟩
      cases hlookup : lookup query.name query.queryType with
      | error e =>
        rw [hlookup] at h
        cases h
      | ok answer =>
        rw [hlookup] at h
        by_cases hanswer : answer = .error (.responseCode .nxDomain)
        · rw [hanswer]
        · rw [Except.map, if_neg hanswer] at h
          cases h

/-- The address 10.0.0.1. -/
def localAddress : IpAddr := .V4 ⟨[10, 0, 0, 1], rfl⟩

/-- A request for the address of a name. -/
def addressRequest (src : IpAddr) (label : Bytes) : Request dnsLibrary where
  src := src
  queries := [{ name := dnsName label, queryType := .known .A }]

/-- What the scheduler can do with the server. -/
abbrev ServerMove : Type := Move (Request dnsLibrary) Completion (ServerEvent (Client config))

/-- Request `i` comes, passes all checks, and waits in the queue. -/
def toQueue (i : ℕ) (request : Request dnsLibrary) : List ServerMove :=
  .spawn request :: List.replicate 11 (.act i .inTime)

/-- Request `i` is released at the moment `now`, and makes `n` accesses more. -/
def fromQueue (i n : ℕ) (now : Instant) : List ServerMove :=
  [.env .recv, .env (.clock now), .env .tick] ++ List.replicate n (.act i .inTime)

/-- The handler over the states with `P`. -/
def handler (P : State config → Prop) : InnerHandler dnsLibrary (Client config) :=
  chainHandler catalog (dnsServer start) P

/-- The server over a state of the chain, before the first request. -/
def idle (s : State config) : Serving serverParts dnsLibrary (Client config) where
  shared := .new serverParts 10 0 (client s)
  threads := []

/-- The server after some moves. -/
def served (P : State config → Prop) (s : State config) (moves : List ServerMove) :
    Serving serverParts dnsLibrary (Client config) :=
  (server serverParts (handler P) 10).machine.run (idle s) moves

end Devnet

section

variable (inner)

/-- The handler over a world that does not change. -/
def InnerHandler.still : InnerHandler lib ω := { inner with changes := fun _ _ => False }

instance (t : Serving parts lib ω) :
    (m : Move (Request lib) Completion (ServerEvent ω)) → Decidable (ServerRuns inner.still t m)
  | .spawn _ => inferInstanceAs (Decidable (_ < _))
  | .act _ _ => inferInstanceAs (Decidable True)
  | .env (.clock now) => inferInstanceAs (Decidable (t.shared.now ≤ now))
  | .env (.world _) => inferInstanceAs (Decidable False)
  | .env .recv => inferInstanceAs (Decidable True)
  | .env .tick => inferInstanceAs (Decidable True)
  | .env (.evictPenalty _) => inferInstanceAs (Decidable True)
  | .env (.evictNegative _) => inferInstanceAs (Decidable True)
  | .env (.evictFirstSeen _) => inferInstanceAs (Decidable True)

end

theorem ServerRuns.of_still {m : Move (Request lib) Completion (ServerEvent ω)}
    (h : ServerRuns inner.still t m) : ServerRuns inner t m := by
  match m with
  | .env (.world _) => exact h.elim
  | .spawn _ => exact h
  | .act _ _ => exact h
  | .env (.clock _) => exact h
  | .env .recv => exact h
  | .env .tick => exact h
  | .env (.evictPenalty _) => exact h
  | .env (.evictNegative _) => exact h
  | .env (.evictFirstSeen _) => exact h

theorem Devnet.idle_reach {P : State config → Prop} {s : State config} (hP : P s) :
    ServerReach serverParts (handler P) 10 (idle s) :=
  .init ⟨⟨0, client s, fun _ hs => Option.some.inj hs ▸ hP, rfl⟩, rfl⟩

theorem Devnet.served_reach {P : State config → Prop} {s : State config} {moves : List ServerMove}
    (hP : P s)
    (h : (server serverParts (handler P) 10).machine.Along (ServerRuns (handler P).still) (idle s)
      moves) :
    ServerReach serverParts (handler P) 10 (served P s moves) :=
  (idle_reach hP).run (h.mono fun _ _ => ServerRuns.of_still)

/-- A request for `bob`, which nobody has registered, waits in the queue. -/
def Devnet.bobWaits : List ServerMove := toQueue 0 (addressRequest localAddress bob)

theorem Devnet.bobWaits_reach :
    ServerReach serverParts (handler fun _ => True) 10 (served (fun _ => True) start bobWaits) :=
  served_reach trivial (by decide +kernel)

/-! ## Requests in flight -/

/-- The counter of requests in flight is exact in every interleaving, at most 100 requests
are past the cap at a time, a request is turned away exactly if 100 others are counted, and
once all requests have returned the counter is zero. -/
theorem inflight_exact (ht : ServerReach parts inner minResponseMs t) :
    t.shared.inflight.toNat = t.threads.countP (·.point.counted) ∧
      t.threads.countP (·.point.guarded) ≤ 100 ∧
      (∀ i c x, t.threads[i]? = some x → x.point = .inflightAdd →
        ((act inner i c t.shared x).2.point = .inflightSub ↔
          100 ≤ t.threads.countP (·.point.counted))) ∧
      ((∀ x ∈ t.threads, ∃ exit, x.point = .returned exit) → t.shared.inflight = 0) := by
  refine ⟨ht.inflight_toNat, ht.guarded_le, fun i c x _ hpoint => ?_, fun hall => ?_⟩
  · rw [← ht.inflight_toNat, act, hpoint]
    dsimp only
    rw [Handling.goto_point, ht.maxInflight]
    split
    · next hge => exact iff_of_true rfl hge
    · next hlt => exact iff_of_false (by simp) hlt
  · rw [ht.inflight, List.countP_eq_zero.mpr fun x hx => ?_]
    · rfl
    · obtain ⟨exit, hexit⟩ := hall x hx
      simp [hexit, Point.counted]

open Devnet in
theorem inflight_exact_in_queue :
    (served (fun _ => True) start bobWaits).shared.inflight.toNat = 1 ∧
      (served (fun _ => True) start bobWaits).threads.countP (·.point.guarded) ≤ 100 :=
  ⟨(inflight_exact bobWaits_reach).1.trans (by decide +kernel),
    (inflight_exact bobWaits_reach).2.1⟩

/-! ## Metrics -/

/-- In every interleaving every counter is the number of its increments (modulo 2^64). The
outcomes add up to the requests whose outcome is decided, but for the refusals of step 4
and the panics, and the lookups to those with a response, those that timed out and those
without. The counters of refused, failed and unimplemented responses stay at zero. -/
theorem metrics_exact (ht : ServerReach parts inner minResponseMs t) :
    (∀ c, t.shared.metrics c = UInt64.ofNat (bumps t.threads c)) ∧
      (Counter.outcomes.map t.shared.metrics).sum
        = UInt64.ofNat (t.threads.countP (·.point.settled)) ∧
      t.shared.metrics .storageLookups = t.shared.metrics .respNoerror +
        t.shared.metrics .respNxdomain + t.shared.metrics .storageTimeouts +
        UInt64.ofNat (t.threads.countP (·.point.unanswered)) ∧
      ∀ c, c.unused = true → t.shared.metrics c = 0 := by
  have hexact : ∀ c, t.shared.metrics c = UInt64.ofNat (bumps t.threads c) := fun c => by
    rw [ht.metrics, sum_tally]
  refine ⟨hexact, ?_, ?_, fun c hc => ?_⟩
  · rw [← bumps_outcomes, funext hexact]
    simp [Counter.outcomes, UInt64.ofNat_add]
  · simp only [hexact, bumps_lookups, UInt64.ofNat_add]
  · rw [hexact, show bumps t.threads c = 0 from ?_]
    · rfl
    · exact List.sum_eq_zero fun n hn => by
        obtain ⟨x, -, rfl⟩ := List.mem_map.mp hn
        exact x.point.bumped_unused hc

/-- The request for `bob` is released and answered with NXDOMAIN. -/
def Devnet.bobDenied : List ServerMove := bobWaits ++ fromQueue 0 5 10000000

theorem Devnet.bobDenied_reach :
    ServerReach serverParts (handler fun _ => True) 10 (served (fun _ => True) start bobDenied) :=
  served_reach trivial (by decide +kernel)

open Devnet in
theorem metrics_exact_after_denial :
    (Counter.outcomes.map (served (fun _ => True) start bobDenied).shared.metrics).sum = 1 ∧
      (served (fun _ => True) start bobDenied).shared.metrics .respNxdomain = 1 :=
  ⟨(metrics_exact bobDenied_reach).2.1.trans (by decide +kernel),
    ((metrics_exact bobDenied_reach).1 .respNxdomain).trans (by decide +kernel)⟩

/-! ## Rate limits -/

/-- In every interleaving and over any part of a run, no more requests of one subnet pass the
source limiter than it admits in the time that part takes. -/
theorem subnet_requests_bounded {capacity period : ℕ} {tr : List (Serving parts lib ω)}
    (hlimit : parts.srcRl.Conforms capacity period)
    (hpath : (server parts inner minResponseMs).machine.Path (ServerRuns inner) t₀ tr t)
    (key : SubnetKey) :
    admittedOf key t.threads * period ≤ admittedOf key t₀.threads * period +
      (t.shared.now - t₀.shared.now) + capacity * period := by
  have hcount : ∀ t : Serving parts lib ω,
      (srcGate parts inner minResponseMs).count key t = admittedOf key t.threads := by
    intro t
    refine List.countP_congr fun x _ => ?_
    simp [srcGate, limiterGate, and_comm]
  have hbound := Gate.bound (G := srcGate parts inner minResponseMs) hlimit
    (fun t e hg => ServerRuns.clock hg) hpath key
  rwa [hcount, hcount] at hbound

theorem Devnet.bobDenied_path :
    ∃ tr, (server serverParts (handler fun _ => True) 10).machine.Path
      (ServerRuns (handler fun _ => True)) (idle start) tr
      (served (fun _ => True) start bobDenied) :=
  Machine.Path.run .refl (Machine.Along.mono (fun _ _ => ServerRuns.of_still) (by decide +kernel))

theorem Devnet.srcRl_conforms : serverParts.srcRl.Conforms 11 (fromSecs 1 / 10) :=
  RateLimiter.gcra_conforms _ _ 10

open Devnet in
theorem subnet_requests_bounded_of_denial :
    admittedOf (subnetKey localAddress) (served (fun _ => True) start bobDenied).threads = 1 ∧
      admittedOf (subnetKey localAddress) (served (fun _ => True) start bobDenied).threads
          * (fromSecs 1 / 10)
        ≤ admittedOf (subnetKey localAddress) (idle start).threads * (fromSecs 1 / 10) +
          ((served (fun _ => True) start bobDenied).shared.now - (idle start).shared.now) +
          11 * (fromSecs 1 / 10) := by
  obtain ⟨tr, hpath⟩ := bobDenied_path
  exact ⟨by decide +kernel, subnet_requests_bounded srcRl_conforms hpath (subnetKey localAddress)⟩

/-- The storage limiter is asked before the response queue, and the lookup comes after it.
In every interleaving and over any part of a run, the lookups still exceed what the limiter
admits in the time that part takes by 100 at most, the requests that fit under the cap. -/
theorem storage_lookups_bounded {capacity period : ℕ} {tr : List (Serving parts lib ω)}
    (hlimit : parts.storageRl.Conforms capacity period)
    (ht₀ : ServerReach parts inner minResponseMs t₀)
    (hpath : (server parts inner minResponseMs).machine.Path (ServerRuns inner) t₀ tr t) :
    lookups t.threads * period ≤ lookups t₀.threads * period +
      (t.shared.now - t₀.shared.now) + (capacity + 100) * period := by
  have hcount : ∀ t : Serving parts lib ω, (storageGate parts inner minResponseMs).count () t
      = lookups t.threads + t.threads.countP (·.point.pending) +
        t.threads.countP (·.point.misspelt) := by
    intro t
    rw [← countP_passed_storage]
    refine List.countP_congr fun x _ => ?_
    simp [storageGate, limiterGate]
  have hbound : (lookups t.threads + t.threads.countP (·.point.pending) +
        t.threads.countP (·.point.misspelt)) * period ≤
      (lookups t₀.threads + t₀.threads.countP (·.point.pending) +
        t₀.threads.countP (·.point.misspelt)) * period +
        (t.shared.now - t₀.shared.now) + capacity * period := by
    rw [← hcount, ← hcount]
    exact Gate.bound hlimit (fun t e hg => ServerRuns.clock hg) hpath ()
  have hmisspelt := Program.countP_le_of_path (q := fun x : Handling lib => x.point.misspelt)
    (fun i c h x hx => (act_access inner i c h x).misspelt hx) hpath
  have hpending : t₀.threads.countP (·.point.pending) ≤ 100 :=
    (countP_pending_le t₀.threads).trans ht₀.guarded_le
  calc
    lookups t.threads * period
      ≤ (lookups t₀.threads + t₀.threads.countP (·.point.pending)) * period +
          (t.shared.now - t₀.shared.now) + capacity * period := by
        have hdrop := Nat.mul_le_mul_right period hmisspelt
        simp only [Nat.add_mul] at hbound ⊢
        omega
    _ ≤ (lookups t₀.threads + 100) * period + (t.shared.now - t₀.shared.now) +
          capacity * period := by
        have hmul := Nat.mul_le_mul_right period (Nat.add_le_add_left hpending (lookups t₀.threads))
        omega
    _ = lookups t₀.threads * period + (t.shared.now - t₀.shared.now) +
          (capacity + 100) * period := by
        simp only [Nat.add_mul]
        omega

theorem Devnet.storageRl_conforms : serverParts.storageRl.Conforms 1001 (fromSecs 1 / 1000) :=
  RateLimiter.gcra_conforms _ _ 1000

open Devnet in
theorem storage_lookups_bounded_of_denial :
    lookups (served (fun _ => True) start bobDenied).threads = 1 ∧
      lookups (served (fun _ => True) start bobDenied).threads * (fromSecs 1 / 1000)
        ≤ lookups (idle start).threads * (fromSecs 1 / 1000) +
          ((served (fun _ => True) start bobDenied).shared.now - (idle start).shared.now) +
          (1001 + 100) * (fromSecs 1 / 1000) := by
  obtain ⟨tr, hpath⟩ := bobDenied_path
  exact ⟨by decide +kernel,
    storage_lookups_bounded storageRl_conforms (idle_reach trivial) hpath⟩

/-! ## The response queue -/

/-- In every interleaving a request is known to the queue at most once. One that waits has a
message there or was released, and then its minimum time has passed; one whose lookup has
begun was released. And whenever the queue's task runs once all messages are ripe, every
waiting request goes on to its lookup. -/
theorem response_queue_sound (ht : ServerReach parts inner minResponseMs t) :
    t.shared.responseQueue.senders.Nodup ∧
      (∀ i x, t.threads[i]? = some x → 10 ≤ x.point.passed →
        i ∈ t.shared.responseQueue.released) ∧
      ∀ i x entry, t.threads[i]? = some x → x.point = .waiting entry →
        ((entry, i) ∈ t.shared.responseQueue.messages ∨
          i ∈ t.shared.responseQueue.released ∧
            entry + fromMillis minResponseMs ≤ t.shared.now) ∧
        ∀ now, (∀ m ∈ t.shared.responseQueue.messages, m.1 + fromMillis minResponseMs ≤ now) →
          ∀ c, (act inner i c ((server parts inner minResponseMs).machine.run t
            (drain t now)).shared x).2.point = .lookup := by
  obtain ⟨hsound, hholds⟩ := ht.queue
  have hmin := ht.queue_min
  refine ⟨hsound.nodup, fun i x hx hpassed => ?_, fun i x entry hx hpoint => ?_⟩
  · have hq := hholds i x hx
    unfold ResponseQueue.Holds at hq
    cases hentry : x.point.entry with
    | some entry =>
      cases hpoint : x.point <;> simp_all [Point.entry, Point.passed]
    | none =>
      rw [hentry] at hq
      dsimp only at hq
      rwa [if_pos hpassed] at hq
  · have hq := hholds i x hx
    rw [hpoint] at hq
    refine ⟨?_, fun now hripe c => ?_⟩
    · rw [← hmin]
      exact hq
    · have hsent : i ∈ t.shared.responseQueue.senders := by
        rcases hq with hm | ⟨hreleased, -⟩
        · exact ResponseQueue.mem_senders_of_mem hm
        · exact List.mem_append_right _ hreleased
      have hreleased : i ∈ ((server parts inner minResponseMs).machine.run t
          (drain t now)).shared.responseQueue.released :=
        released_drain t (by rwa [hmin]) hsent
      rw [act, hpoint]
      dsimp only
      rw [if_pos hreleased]
      rfl

open Devnet in
theorem response_queue_sound_for_bob :
    (act (handler fun _ => True) 0 .inTime
      ((server serverParts (handler fun _ => True) 10).machine.run
        (served (fun _ => True) start bobWaits)
        (drain (served (fun _ => True) start bobWaits) 10000000)).shared
      { request := addressRequest localAddress bob, point := .waiting 0 }).2.point = .lookup :=
  ((response_queue_sound bobWaits_reach).2.2 0
    { request := addressRequest localAddress bob, point := .waiting 0 } 0 rfl rfl).2 10000000
    (by decide +kernel) .inTime

/-- From every state of the server a request returns by accesses of its own, once time has
passed and the queue's task has run: no access of another request is needed for it. -/
theorem request_returns (ht : ServerReach parts inner minResponseMs t) {x : Handling lib}
    (hx : t.threads[i]? = some x) (c : Completion) :
    ∃ moves, (server parts inner minResponseMs).machine.Along (ServerRuns inner) t moves ∧
      (∀ m ∈ moves, ownMove i m = true) ∧
      ∃ y exit, ((server parts inner minResponseMs).machine.run t moves).threads[i]? = some y ∧
        y.point = .returned exit := by
  -- by induction on the accesses that are left
  induction hleft : x.point.left using Nat.strong_induction_on generalizing t x with
  | _ left ih =>
    rcases Nat.eq_zero_or_pos x.point.left with hzero | hpos
    · obtain ⟨exit, hexit⟩ := Point.left_eq_zero hzero
      exact ⟨[], trivial, fun m hm => (by cases hm), x, exit, hx, hexit⟩
    · obtain ⟨moves, halong, hown, y, hy, hlt⟩ := ht.advance hx hpos c
      obtain ⟨moves', halong', hown', z, exit, hz, hexit⟩ :=
        ih _ (hleft ▸ hlt) (Machine.Reach.run ht halong) hy rfl
      refine ⟨moves ++ moves', halong.append halong', fun m hm => ?_, z, exit, ?_, hexit⟩
      · exact (List.mem_append.mp hm).elim (hown m) (hown' m)
      · rwa [Machine.run_append]

open Devnet in
theorem request_returns_for_bob :
    ∃ moves, (∀ m ∈ moves, ownMove 0 m = true) ∧
      ∃ y exit, ((server serverParts (handler fun _ => True) 10).machine.run
        (served (fun _ => True) start bobWaits) moves).threads[0]? = some y ∧
          y.point = .returned exit := by
  obtain ⟨moves, -, hown, hreturned⟩ := request_returns bobWaits_reach (i := 0)
    (x := { request := addressRequest localAddress bob, point := .waiting 0 }) rfl .inTime
  exact ⟨moves, hown, hreturned⟩

/-! ## Penalties -/

/-- In every interleaving the strikes of a subnet's penalty are at most its requests that the
zone limiter refused. A penalty blocks for a minute at most, and its entry lives longer. No
request is refused for a penalty before one of the same subnet was refused by the limiter. -/
theorem penalties_earned (ht : ServerReach parts inner minResponseMs t) :
    (∀ key state since, t.shared.penaltyCache.entries.get key = some (state, since) →
      1 ≤ state.strikes.toNat ∧ state.strikes.toNat ≤ struckOf key t.threads ∧
        state.blockedUntil ≤ since + blockDuration state.strikes ∧
        state.blockedUntil ≤ since + fromSecs 60 ∧
        state.blockedUntil < since + t.shared.penaltyCache.timeToLive) ∧
      ∀ (i : ℕ) (x : Handling lib), t.threads[i]? = some x → x.point.backedOff = true →
        1 ≤ struckOf (subnetKey x.request.src) t.threads := by
  refine ⟨fun key state since hentry => ?_, fun i x hx hpoint => ht.backedOff hx hpoint⟩
  have hearned := ht.penalties.entries key state since hentry
  have hminute : state.blockedUntil ≤ since + fromSecs 60 :=
    hearned.blocked.trans (Nat.add_le_add_left (blockDuration_le _) _)
  refine ⟨hearned.pos, hearned.le, hearned.blocked, hminute, hminute.trans_lt ?_⟩
  rw [ht.penalties.timeToLive]
  exact Nat.add_lt_add_left (by decide) _

/-- Fifty requests for `bob` from six subnets are past the zone limiter, one more is refused,
and then a request of the same subnet for `alice` comes. -/
def Devnet.bobRush : List ServerMove :=
  ((List.range 50).flatMap fun i =>
    .spawn (addressRequest (.V4 ⟨[10, 0, UInt8.ofNat (i / 9), 1], rfl⟩) bob) ::
      List.replicate 5 (.act i .inTime)) ++
  .spawn (addressRequest (.V4 ⟨[10, 0, 7, 1], rfl⟩) bob) :: List.replicate 8 (.act 50 .inTime) ++
  .spawn (addressRequest (.V4 ⟨[10, 0, 7, 2], rfl⟩) alice) :: List.replicate 7 (.act 51 .inTime)

/-- The last request of the rush. -/
def Devnet.refused : Handling dnsLibrary :=
  ((served (fun _ => True) start bobRush).threads[51]?).get (by decide +kernel)

open Devnet in
theorem penalties_earned_in_rush :
    refused.point = .returned .penaltyBackoff ∧
      1 ≤ struckOf (subnetKey refused.request.src)
        (served (fun _ => True) start bobRush).threads :=
  ⟨by decide +kernel, (penalties_earned (served_reach trivial (by decide +kernel))).2 51 refused
    (Option.some_get _).symm (by decide +kernel)⟩

/-! ## The negative cache and the chain -/

section

variable {T : Config} {L : Set Bytes} {catalog : Catalog lib}
  {authority : BlockChainAuthority T lib} {label : Bytes}

/-- Request `i` found at the moment `moment`, in a state of the chain, that nothing is rooted at
the node of `label`. -/
def FoundMissing (L : Set Bytes) (authority : BlockChainAuthority T lib) (label : Bytes)
    (log : List (Note (Client T))) (i : ℕ) (moment : Instant) : Prop :=
  ∃ client s, .nxDomain i (authority.nameOf label) moment client ∈ log ∧
    client.bestState = some s ∧ Reachable T L s ∧ ¬ Rooted L s (nodeOfName T label)

/-- The handler says NXDOMAIN below the apex only of a name that is not on the chain. -/
theorem not_rooted_of_nxDomain (hcf : CollisionFree T.keccak256 T.baseNode L)
    {P : State T → Prop} {client : Client T} {request : Request lib}
    (hnx : (chainHandler catalog authority P).handle client request = .ok .nxDomain)
    (hname : request.queryName = authority.nameOf label) (hbest : client.Best (Reachable T L)) :
    ∃ s, client.bestState = some s ∧ Reachable T L s ∧ ¬ Rooted L s (nodeOfName T label) := by
  obtain ⟨query, -, hbelow, hlookup⟩ := chainHandler_nxDomain hnx hname
  obtain ⟨p, hq⟩ := (lookup_returns_iff hbelow).mp ⟨_, hlookup⟩
  cases hs : client.bestState with
  | some s =>
    have hnot := (nxDomain_iff hcf (hbest s hs) hs hbelow hq).mp hlookup
    exact ⟨s, rfl, hbest s hs, hnot.2⟩
  | none => exact absurd hlookup (lookup_ne_nxDomain hbelow hs)

/-- Whenever a name is denied from the negative cache, two different requests had found that it
was not on the chain. The second looked at the names seen less than ten seconds after the
first had entered it there, and the entry is less than a minute old. -/
theorem negative_cache_backed (hcf : CollisionFree T.keccak256 T.baseNode L)
    {t : Threads (HardenedHandler parts (Client T) × List (Note (Client T))) (Handling lib)}
    (ht : LoggedReach parts (chainHandler catalog authority (Reachable T L)) minResponseMs t)
    (hhit : t.shared.1.negCache.get t.shared.1.now (authority.nameOf label) = some ()) :
    ∃ i j, i ≠ j ∧ ∃ first entered second checked since,
      FoundMissing L authority label t.shared.2 j first ∧
      FoundMissing L authority label t.shared.2 i second ∧
      first ≤ entered ∧ second ≤ checked ∧
      entered ≤ checked ∧ checked < entered + fromSecs 10 ∧
      checked ≤ since ∧ t.shared.1.now < since + fromSecs 60 := by
  have hlogged := ht.logged (W := Client.Best (Reachable T L)) (fun _ h => h) (fun _ _ _ h => h)
  have hfound : ∀ i moment client,
      .nxDomain i (authority.nameOf label) moment client ∈ t.shared.2 →
        FoundMissing L authority label t.shared.2 i moment := by
    intro i moment client hnote
    obtain ⟨hbest, request, hname, hnx⟩ := hlogged.truthful _ _ _ _ hnote
    obtain ⟨s, hs, hreach, hroot⟩ := not_rooted_of_nxDomain hcf hnx hname hbest
    exact ⟨client, s, hnote, hs, hreach, hroot⟩
  obtain ⟨since, ⟨i, checked, hle, ⟨second, hsecond, client, hnote⟩, j, hne, entered, hentered, hlt,
    first, hfirst, client', hnote'⟩, hlive⟩ := hlogged.negative.get hhit
  rw [hlogged.negativeToLive] at hlive
  exact ⟨i, j, Ne.symm hne, first, entered, second, checked, since, hfound j first client' hnote',
    hfound i second client hnote, hfirst, hsecond, hentered, hlt, hle, hlive⟩

/-- A second request for `bob` is answered with NXDOMAIN. -/
def Devnet.bobDeniedTwice : List ServerMove :=
  bobDenied ++ toQueue 1 (addressRequest localAddress bob) ++ fromQueue 1 7 20000000

/-- The server with its log, after some moves. -/
def Devnet.logged (s : State config) (moves : List ServerMove) :
    Threads (HardenedHandler serverParts (Client config) × List (Note (Client config)))
      (Handling dnsLibrary) :=
  (loggedServer serverParts (handler (Reachable config labels)) 10).machine.run
    { shared := ((idle s).shared, []), threads := [] } moves

open Devnet in
theorem negative_cache_backed_for_bob :
    ∃ i j, i ≠ j ∧ ∃ first second,
      FoundMissing labels (dnsServer start) bob (logged start bobDeniedTwice).shared.2 i first ∧
      FoundMissing labels (dnsServer start) bob (logged start bobDeniedTwice).shared.2 j
        second := by
  have hreach : LoggedReach serverParts (handler (Reachable config labels)) 10
      (logged start bobDeniedTwice) :=
    Machine.Reach.run (.init ⟨⟨⟨0, client start, fun _ hs => Option.some.inj hs ▸
      .init start_init, rfl⟩, rfl⟩, rfl⟩) (Machine.Along.mono (fun _ _ => ServerRuns.of_still)
        (by decide +kernel))
  have hhit : (logged start bobDeniedTwice).shared.1.negCache.get
      (logged start bobDeniedTwice).shared.1.now ((dnsServer start).nameOf bob) = some () := by
    decide +kernel
  obtain ⟨i, j, hne, first, -, second, -, -, hj, hi, -⟩ :=
    negative_cache_backed collisionFree hreach hhit
  exact ⟨i, j, hne, second, first, hi, hj⟩

/-- As long as a name is on the chain in every best block that the server reads, no request for
it is told that it does not exist, whatever the other requests do. -/
theorem rooted_name_not_denied (hcf : CollisionFree T.keccak256 T.baseNode L)
    {t : Serving parts lib (Client T)}
    (ht : ServerReach parts (chainHandler catalog authority fun s =>
      Reachable T L s ∧ Rooted L s (nodeOfName T label)) minResponseMs t)
    {x : Handling lib} (hx : t.threads[i]? = some x)
    (hname : x.request.queryName = authority.nameOf label) : x.point.denied = false := by
  refine ht.not_denied (W := Client.Best fun s => Reachable T L s ∧ Rooted L s (nodeOfName T label))
    (fun _ h => h) (fun _ _ _ h => h) ?_ hx hname
  intro client request hbest hq hnx
  obtain ⟨s, hs, -, hroot⟩ := not_rooted_of_nxDomain hcf hnx hq fun s hs => (hbest s hs).1
  exact hroot (hbest s hs).2

/-- `alice` is on the chain. -/
def Devnet.HasAlice (s : State config) : Prop :=
  Reachable config labels s ∧ Rooted labels s (nodeOfName config alice)

theorem Devnet.hasAlice_afterRegistration : HasAlice afterRegistration :=
  ⟨afterRegistration_reachable, Or.inl ⟨⟨alice, by decide, by decide +kernel⟩, by decide +kernel⟩⟩

/-- A request for `alice`, once it has returned. -/
def Devnet.aliceAsked : Handling dnsLibrary :=
  ((served HasAlice afterRegistration
    (toQueue 0 (addressRequest localAddress alice) ++ fromQueue 0 3 10000000)).threads[0]?).get
      (by decide +kernel)

open Devnet in
theorem rooted_name_not_denied_for_alice :
    aliceAsked.point = .returned (.answered .noError) ∧ aliceAsked.point.denied = false :=
  ⟨by decide +kernel, rooted_name_not_denied collisionFree
    (served_reach hasAlice_afterRegistration (by decide +kernel)) (Option.some_get _).symm
      (by decide +kernel)⟩

end

end PnsPallets
