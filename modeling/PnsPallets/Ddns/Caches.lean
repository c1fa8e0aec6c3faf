import PnsPallets.Ddns.Accounting

/-!
# What the caches of the DNS server hold

Two caches of the handler decide about later requests, and any entry of theirs may be
dropped at any time. What can be relied on is where the entries come from:

- a penalty of a subnet has as many strikes as requests of the subnet were refused by the
  zone limiter, at most: `record_penalty` reads the cache before it writes, so strikes can
  be lost. It ends before its entry does;
- a name is in the negative cache only after two different requests for it were answered
  with NXDOMAIN. When they were, and in which world, is in a log that the server keeps
  here beside its state.
-/

namespace PnsPallets

open Frame

variable {lib : DnsLibrary} {parts : ServerParts} {ω : Type} {inner : InnerHandler lib ω}
  {minResponseMs : ℕ} {i n : ℕ} {h h' : HardenedHandler parts ω} {r : Request lib} {p p' : Point}
  {t : Serving parts lib ω}

/-! ## Penalties -/

/-- The strike of the request is recorded. -/
def Point.struck : Point → Bool
  | .guardDrop exit | .returned exit => exit = .zoneRateLimit
  | _ => false

/-- The requests of a subnet whose strikes are recorded. -/
def struckOf (key : SubnetKey) (threads : List (Handling lib)) : ℕ :=
  threads.countP fun x => subnetKey x.request.src = key ∧ x.point.struck = true

/-- What an access does to the penalties: it records one, or none. -/
theorem Access.penaltyCache (ha : Access inner i h r p h' p') :
    (∃ state, p = .penaltyWrite state ∧ p' = .guardDrop .zoneRateLimit ∧
        h'.penaltyCache = h.penaltyCache.insert h.now (subnetKey r.src) state) ∨
      h'.penaltyCache = h.penaltyCache ∧ p'.struck = p.struck ∧
        ∀ state, p' = .penaltyWrite state →
          state = .strike h.now (h.penaltyCache.get h.now (subnetKey r.src)) := by
  cases ha with
  | penaltyWrite state => exact Or.inl ⟨state, rfl, rfl, rfl⟩
  | penaltyRead => exact Or.inr ⟨rfl, rfl, fun state hstate => (Point.penaltyWrite.inj hstate).symm⟩
  | _ => exact Or.inr ⟨rfl, rfl, fun state hstate => by cases hstate⟩

theorem saturatingSucc_toNat (n : UInt8) :
    1 ≤ (saturatingSucc n).toNat ∧ (saturatingSucc n).toNat ≤ n.toNat + 1 := by
  unfold saturatingSucc
  split
  · next heq =>
    subst heq
    decide
  · next hne =>
    have hlt : n.toNat + 1 < 2 ^ 8 := by
      have hne' : n.toNat ≠ 255 := fun heq => hne (UInt8.toNat.inj heq)
      have := n.toNat_lt
      omega
    rw [UInt8.toNat_add, UInt8.toNat_one, Nat.mod_eq_of_lt hlt]
    omega

theorem blockDuration_le (strikes : UInt8) : blockDuration strikes ≤ fromSecs 60 := by
  unfold blockDuration
  split
  · decide
  · split
    · decide
    · exact le_refl _

/-- A penalty with at most `count` strikes, recorded at the moment `since` or before. -/
structure PenaltyState.Earned (state : PenaltyState) (count : ℕ) (since : Instant) : Prop where
  pos : 1 ≤ state.strikes.toNat
  le : state.strikes.toNat ≤ count
  blocked : state.blockedUntil ≤ since + blockDuration state.strikes

theorem PenaltyState.Earned.mono {state : PenaltyState} {count count' : ℕ} {since since' : Instant}
    (he : state.Earned count since) (hcount : count ≤ count') (hsince : since ≤ since') :
    state.Earned count' since' :=
  ⟨he.pos, he.le.trans hcount, he.blocked.trans (Nat.add_le_add_right hsince _)⟩

/-- One strike more. -/
theorem PenaltyState.earned_strike {existing : Option PenaltyState} {count : ℕ} {now : Instant}
    (he : ∀ state, existing = some state → state.strikes.toNat ≤ count) :
    (PenaltyState.strike now existing).Earned (count + 1) now := by
  cases existing with
  | none =>
    refine ⟨le_refl 1, Nat.le_add_left 1 count, ?_⟩
    change now + fromSecs 1 ≤ now + blockDuration 1
    rw [blockDuration, if_pos rfl]
  | some state =>
    obtain ⟨hpos, hle⟩ := saturatingSucc_toNat state.strikes
    exact ⟨hpos, hle.trans (Nat.add_le_add_right (he state rfl) 1), le_refl _⟩

/-- The penalties in the cache are earned, and those about to be written are by one request
more. -/
structure Penalties (t : Serving parts lib ω) : Prop where
  entries : t.shared.penaltyCache.Entries fun key state since =>
    state.Earned (struckOf key t.threads) since
  writers : ∀ (i : ℕ) (x : Handling lib) (state : PenaltyState), t.threads[i]? = some x →
    x.point = .penaltyWrite state →
      state.Earned (struckOf (subnetKey x.request.src) t.threads + 1) t.shared.now
  timeToLive : t.shared.penaltyCache.timeToLive = fromSecs 300

/-- The strikes of a subnet after one of the requests has moved. -/
theorem struckOf_act (inner : InnerHandler lib ω) (c : Completion) {x : Handling lib}
    (hx : t.threads[i]? = some x) (key : SubnetKey) :
    struckOf key (t.threads.set i (act inner i c t.shared x).2) +
        (if subnetKey x.request.src = key ∧ x.point.struck = true then 1 else 0)
      = struckOf key t.threads +
        if subnetKey x.request.src = key ∧ (act inner i c t.shared x).2.point.struck = true
          then 1 else 0 := by
  have hmoved := Program.countP_moved
    (fun x : Handling lib => subnetKey x.request.src = key ∧ x.point.struck = true) hx
    (act inner i c t.shared x).2
  unfold struckOf
  simpa only [act_request, decide_eq_true_eq] using hmoved

/-- An access that records no penalty. -/
theorem Penalties.act_other (hpen : Penalties t) {c : Completion} {x : Handling lib}
    (hx : t.threads[i]? = some x)
    (hcache : (act inner i c t.shared x).1.penaltyCache = t.shared.penaltyCache)
    (hstruck : (act inner i c t.shared x).2.point.struck = x.point.struck)
    (hwrite : ∀ state, (act inner i c t.shared x).2.point = .penaltyWrite state →
      state = .strike t.shared.now
        (t.shared.penaltyCache.get t.shared.now (subnetKey x.request.src))) :
    Penalties ({
      shared := (act inner i c t.shared x).1
      threads := t.threads.set i (act inner i c t.shared x).2 } : Serving parts lib ω) := by
  have hsame : ∀ key, struckOf key (t.threads.set i (act inner i c t.shared x).2)
      = struckOf key t.threads := by
    intro key
    have hact := struckOf_act inner c hx key
    rw [hstruck] at hact
    exact Nat.add_right_cancel hact
  refine ⟨?_, ?_, ?_⟩
  · simpa only [hcache, hsame] using hpen.entries
  · intro j y state hy hpoint
    rw [hsame]
    dsimp only at hy ⊢
    rw [(act_access inner i c t.shared x).now]
    rcases Program.getElem?_moved hy with ⟨-, rfl⟩ | ⟨-, hy⟩
    · rw [act_request, hwrite state hpoint]
      refine PenaltyState.earned_strike fun existing hget => ?_
      obtain ⟨since, hearned, -⟩ := hpen.entries.get hget
      exact hearned.le
    · exact hpen.writers j y state hy hpoint
  · exact (congrArg Cache.timeToLive hcache).trans hpen.timeToLive

/-- An access that records one. -/
theorem Penalties.act_write (hpen : Penalties t) {c : Completion} {x : Handling lib}
    (hx : t.threads[i]? = some x) {state : PenaltyState} (hpoint : x.point = .penaltyWrite state)
    (hout : (act inner i c t.shared x).2.point = .guardDrop .zoneRateLimit)
    (hcache : (act inner i c t.shared x).1.penaltyCache
      = t.shared.penaltyCache.insert t.shared.now (subnetKey x.request.src) state) :
    Penalties ({
      shared := (act inner i c t.shared x).1
      threads := t.threads.set i (act inner i c t.shared x).2 } : Serving parts lib ω) := by
  have hself : struckOf (subnetKey x.request.src)
      (t.threads.set i (act inner i c t.shared x).2)
        = struckOf (subnetKey x.request.src) t.threads + 1 := by
    have hact := struckOf_act inner c hx (subnetKey x.request.src)
    simpa [hpoint, hout, Point.struck] using hact
  have hle : ∀ key, struckOf key t.threads
      ≤ struckOf key (t.threads.set i (act inner i c t.shared x).2) := by
    intro key
    have hact := struckOf_act inner c hx key
    simp only [hpoint, Point.struck, Bool.false_eq_true, and_false, if_false] at hact
    omega
  refine ⟨?_, ?_, ?_⟩
  · dsimp only
    rw [hcache]
    refine Cache.Entries.insert (hpen.entries.mono fun key state since he =>
      he.mono (hle key) (le_refl _)) ?_
    rw [hself]
    exact hpen.writers i x state hx hpoint
  · intro j y state' hy hpoint'
    dsimp only at hy ⊢
    rw [(act_access inner i c t.shared x).now]
    rcases Program.getElem?_moved hy with ⟨-, rfl⟩ | ⟨-, hy⟩
    · rw [hout] at hpoint'
      cases hpoint'
    · exact (hpen.writers j y state' hy hpoint').mono (Nat.add_le_add_right (hle _) 1) (le_refl _)
  · dsimp only
    rw [hcache]
    exact hpen.timeToLive

theorem Penalties.spawn (hpen : Penalties t) (request : Request lib) :
    Penalties ({ t with
      threads := t.threads ++ [(server parts inner minResponseMs).entry request] } :
        Serving parts lib ω) := by
  have hsame : ∀ key, struckOf key (t.threads ++ [(server parts inner minResponseMs).entry request])
      = struckOf key t.threads := by
    intro key
    unfold struckOf
    rw [List.countP_append]
    simp [server, Point.struck]
  refine ⟨?_, ?_, hpen.timeToLive⟩
  · simpa only [hsame] using hpen.entries
  · intro j y state hy hpoint
    rw [hsame]
    rcases Program.getElem?_spawn hy with hy | ⟨-, rfl⟩
    · exact hpen.writers j y state hy hpoint
    · cases hpoint

theorem Penalties.env (hpen : Penalties t) {e : ServerEvent ω} (hg : ServerRuns inner t (.env e)) :
    Penalties ({ t with shared := PnsPallets.env e t.shared } : Serving parts lib ω) := by
  refine ⟨?_, ?_, ?_⟩
  · cases e with
    | evictPenalty key => exact hpen.entries.invalidate key
    | _ => exact hpen.entries
  · intro j y state hy hpoint
    exact (hpen.writers j y state hy hpoint).mono (le_refl _) (ServerRuns.clock hg)
  · cases e <;> exact hpen.timeToLive

theorem ServerReach.penalties (ht : ServerReach parts inner minResponseMs t) : Penalties t := by
  refine Machine.Reach.invariant (I := Penalties) ?_ ?_ ht
  · rintro t ⟨⟨now, world, -, hnew⟩, hnil⟩
    rw [show t = ⟨t.shared, t.threads⟩ from rfl, hnew, hnil]
    exact ⟨.new _, fun i x state hx => (by cases hx), rfl⟩
  · intro t m hpen hg
    refine Program.step_cases (Q := Penalties) m ?_ ?_ ?_ hpen
    · intro request _
      exact hpen.spawn request
    · intro i c x _ hx
      rcases (act_access inner i c t.shared x).penaltyCache with
        ⟨state, hpoint, hout, hcache⟩ | ⟨hcache, hstruck, hwrite⟩
      · exact hpen.act_write hx hpoint hout hcache
      · exact hpen.act_other hx hcache hstruck hwrite
    · intro e hm
      exact hpen.env (hm ▸ hg)

/-- The strike of a request stays recorded. -/
theorem Access.struck (ha : Access inner i h r p h' p') (hp : p.struck = true) :
    p'.struck = true := by
  cases ha with
  | leave exit => exact hp
  | done exit => exact hp
  | _ => cases hp

/-- The request was refused for a penalty. -/
def Point.backedOff : Point → Bool
  | .guardDrop exit | .returned exit => exit = .penaltyBackoff
  | _ => false

theorem Access.backedOff (ha : Access inner i h r p h' p') (hp : p'.backedOff = true) :
    p.backedOff = true ∨ p = .penaltyCheck ∧
      ∃ state, h.penaltyCache.get h.now (subnetKey r.src) = some state := by
  cases ha with
  | penalised hblocked =>
    obtain ⟨state, hstate, -⟩ := (Option.any_eq_true _ _).mp hblocked
    exact Or.inr ⟨rfl, state, hstate⟩
  | leave exit => exact Or.inl hp
  | done exit => exact Or.inl hp
  | _ => cases hp

/-- No request is refused for a penalty before the zone limiter has refused one of the same
subnet. -/
theorem ServerReach.backedOff (ht : ServerReach parts inner minResponseMs t) {x : Handling lib}
    (hx : t.threads[i]? = some x) (hpoint : x.point.backedOff = true) :
    1 ≤ struckOf (subnetKey x.request.src) t.threads := by
  induction ht generalizing i x with
  | init hinit =>
    rw [hinit.2] at hx
    cases hx
  | @step t m ht hg ih =>
    have hle : ∀ key, struckOf key t.threads
        ≤ struckOf key ((server parts inner minResponseMs).machine.step t m).threads := by
      intro key
      refine Program.countP_le_of_path ?_ (Machine.Path.single hg)
      intro j c h y hy
      rw [decide_eq_true_eq] at hy ⊢
      rw [server_act, act_request]
      exact ⟨hy.1, (act_access inner j c h y).struck hy.2⟩
    refine Program.step_cases (P := server parts inner minResponseMs)
      (Q := fun t' => (∀ key, struckOf key t.threads ≤ struckOf key t'.threads) →
        t'.threads[i]? = some x → 1 ≤ struckOf (subnetKey x.request.src) t'.threads)
      m ?_ ?_ ?_ ?_ hle hx
    · intro request _ hle hx
      rcases Program.getElem?_spawn hx with hx | ⟨-, rfl⟩
      · exact (ih hx hpoint).trans (hle _)
      · cases hpoint
    · intro j c y _ hy hle hx
      rcases Program.getElem?_moved hx with ⟨-, rfl⟩ | ⟨-, hx⟩
      · rw [server_act] at hle ⊢
        rw [act_request]
        rcases (act_access inner j c t.shared y).backedOff hpoint with hback | ⟨-, state, hstate⟩
        · exact (ih hy hback).trans (hle _)
        · obtain ⟨since, hearned, -⟩ := (ServerReach.penalties ht).entries.get hstate
          exact (hearned.pos.trans hearned.le).trans (hle _)
      · exact (ih hx hpoint).trans (hle _)
    · intro e _ hle hx
      exact ih hx hpoint
    · intro hle hx
      exact ih hx hpoint

/-! ## The log of a run -/

/-- What the log notes: request `i` was answered with NXDOMAIN in a world, and request `i` has
entered its name into the names seen. -/
inductive Note (ω : Type) where
  | nxDomain (i : ℕ) (name : Bytes) (moment : Instant) (world : ω)
  | remembered (i : ℕ) (name : Bytes) (moment : Instant)

def Note.request : Note ω → ℕ
  | .nxDomain i _ _ _ => i
  | .remembered i _ _ => i

def Note.moment : Note ω → Instant
  | .nxDomain _ _ moment _ => moment
  | .remembered _ _ moment => moment

/-- What is noted of an access that takes request `i` from `p` to `p'`. -/
def notes (i : ℕ) (h : HardenedHandler parts ω) (name : Bytes) (p p' : Point) : List (Note ω) :=
  if p = .lookup ∧ p' = .firstSeen then [.nxDomain i name h.now h.world]
  else if p = .firstSeenInsert then [.remembered i name h.now]
  else []

/-- The server with the log. -/
def loggedServer (parts : ServerParts) (inner : InnerHandler lib ω) (minResponseMs : ℕ) :
    Program (HardenedHandler parts ω × List (Note ω)) (Handling lib) (Request lib) Completion
      (ServerEvent ω) :=
  (server parts inner minResponseMs).logged [] fun i c h x log =>
    log ++ notes i h x.request.queryName x.point (act inner i c h x).2.point

/-- The states of the server with the log, in every interleaving. -/
def LoggedReach (parts : ServerParts) (inner : InnerHandler lib ω) (minResponseMs : ℕ)
    (t : Threads (HardenedHandler parts ω × List (Note ω)) (Handling lib)) : Prop :=
  (loggedServer parts inner minResponseMs).machine.Reach
    (fun t m => ServerRuns inner ⟨t.shared.1, t.threads⟩ m) t

/-! ## The negative cache -/

/-- Request `i` was answered with NXDOMAIN, by `now`, and another request within the ten
seconds before that. -/
def Confirmed (log : List (Note ω)) (now : Instant) (name : Bytes) (i : ℕ) : Prop :=
  ∃ checked ≤ now, (∃ moment ≤ checked, ∃ world, .nxDomain i name moment world ∈ log) ∧
    ∃ j ≠ i, ∃ since ≤ checked, checked < since + fromSecs 10 ∧
      ∃ moment ≤ since, ∃ world, .nxDomain j name moment world ∈ log

/-- The name was entered at the moment `since` into the names seen, by a request that was
answered with NXDOMAIN. -/
def Remembered (log : List (Note ω)) (name : Bytes) (since : Instant) : Prop :=
  ∃ i, .remembered i name since ∈ log ∧
    ∃ moment ≤ since, ∃ world, .nxDomain i name moment world ∈ log

theorem Confirmed.mono {log log' : List (Note ω)} {now now' : Instant} {name : Bytes} {i : ℕ}
    (hc : Confirmed log now name i) (hnow : now ≤ now') (hlog : log ⊆ log') :
    Confirmed log' now' name i := by
  obtain ⟨checked, hle, ⟨m, hm, w, hnote⟩, j, hne, since, hsince, hlt, m', hm', w', hnote'⟩ := hc
  exact ⟨checked, hle.trans hnow, ⟨m, hm, w, hlog hnote⟩, j, hne, since, hsince, hlt, m', hm', w',
    hlog hnote'⟩

theorem Remembered.mono {log log' : List (Note ω)} {name : Bytes} {since : Instant}
    (hr : Remembered log name since) (hlog : log ⊆ log') : Remembered log' name since := by
  obtain ⟨i, hi, m, hm, w, hnote⟩ := hr
  exact ⟨i, hlog hi, m, hm, w, hlog hnote⟩

/-- What the log says of the caches. `W` holds of the worlds of the run. -/
structure Logged (inner : InnerHandler lib ω) (W : ω → Prop) (n : ℕ) (now : Instant) (world : ω)
    (firstSeen negCache : Cache Bytes Unit) (log : List (Note ω)) : Prop where
  world : W world
  lt : ∀ e ∈ log, e.request < n
  moment : ∀ e ∈ log, e.moment ≤ now
  truthful : ∀ i name moment w, .nxDomain i name moment w ∈ log →
    W w ∧ ∃ r : Request lib, r.queryName = name ∧ inner.handle w r = .ok .nxDomain
  seen : firstSeen.Entries fun name _ since => Remembered log name since
  negative : negCache.Entries fun name _ since => ∃ i, Confirmed log since name i
  seenToLive : firstSeen.timeToLive = fromSecs 10
  negativeToLive : negCache.timeToLive = fromSecs 60

/-- The request has entered its name into the names seen. -/
def Point.remembers : Point → Bool
  | .guardDrop exit | .returned exit => exit = .nxDomainFirst
  | _ => false

/-- The request was answered with NXDOMAIN and has not written to a cache yet. -/
def Point.negative : Point → Bool
  | .firstSeen | .negInsert | .firstSeenInsert => true
  | _ => false

/-- What the log says of request `i` at a point. -/
structure LoggedAt (now : Instant) (log : List (Note ω)) (i : ℕ) (name : Bytes) (p : Point) :
    Prop where
  fresh : p.remembers = false → ∀ name' moment, .remembered i name' moment ∉ log
  answered : p.negative = true → ∃ moment world, .nxDomain i name moment world ∈ log
  confirmed : p = .negInsert → Confirmed log now name i

variable {W : ω → Prop} {name : Bytes}

section

variable {now now' : Instant} {world : ω} {firstSeen negCache : Cache Bytes Unit}
  {log : List (Note ω)} {j : ℕ}

/-- Another note. -/
theorem Logged.note (hI : Logged inner W n now world firstSeen negCache log) {e : Note ω}
    (hlt : e.request < n) (hmoment : e.moment ≤ now)
    (htrue : ∀ i name moment w, e = .nxDomain i name moment w →
      W w ∧ ∃ r : Request lib, r.queryName = name ∧ inner.handle w r = .ok .nxDomain) :
    Logged inner W n now world firstSeen negCache (log ++ [e]) := by
  have hsub : log ⊆ log ++ [e] := List.subset_append_left _ _
  have hmem : ∀ e' ∈ log ++ [e], e' ∈ log ∨ e' = e := fun e' he' => by simpa using he'
  exact {
    world := hI.world
    lt := fun e' he' => (hmem e' he').elim (hI.lt e') fun heq => heq ▸ hlt
    moment := fun e' he' => (hmem e' he').elim (hI.moment e') fun heq => heq ▸ hmoment
    truthful := fun i name moment w he' =>
      (hmem _ he').elim (hI.truthful i name moment w) fun heq => htrue i name moment w heq.symm
    seen := hI.seen.mono fun _ _ _ hr => hr.mono hsub
    negative := hI.negative.mono fun _ _ _ ⟨i, hc⟩ => ⟨i, hc.mono (le_refl _) hsub⟩
    seenToLive := hI.seenToLive
    negativeToLive := hI.negativeToLive }

/-- A note of another request. -/
theorem LoggedAt.note (hJ : LoggedAt now log j name p) {e : Note ω} (hne : e.request ≠ j) :
    LoggedAt now (log ++ [e]) j name p where
  fresh hp name' moment hmem := by
    rcases List.mem_append.mp hmem with hmem | hmem
    · exact hJ.fresh hp name' moment hmem
    · rw [← List.mem_singleton.mp hmem] at hne
      exact hne rfl
  answered hp := by
    obtain ⟨m, w, hnote⟩ := hJ.answered hp
    exact ⟨m, w, List.mem_append_left _ hnote⟩
  confirmed hp := (hJ.confirmed hp).mono (le_refl _) (List.subset_append_left _ _)

/-- A request at a point where the log has nothing to say of it but that it has not entered its
name. -/
theorem LoggedAt.quiet (hJ : LoggedAt now log i name p) (hp : p.remembers = false)
    (hp' : p'.negative = false) : LoggedAt now log i name p' where
  fresh _ := hJ.fresh hp
  answered h := by rw [hp'] at h; cases h
  confirmed h := by rw [h] at hp'; cases hp'

/-- An access keeps what the log says. -/
theorem Access.logged (ha : Access inner i h r p h' p')
    (hI : Logged inner W n h.now h.world h.firstSeen h.negCache log) (hi : i < n)
    (hJ : LoggedAt h.now log i r.queryName p) :
    Logged inner W n h'.now h'.world h'.firstSeen h'.negCache
        (log ++ notes i h r.queryName p p') ∧
      LoggedAt h'.now (log ++ notes i h r.queryName p p') i r.queryName p' ∧
      ∀ j name p'', j ≠ i → LoggedAt h.now log j name p'' →
        LoggedAt h'.now (log ++ notes i h r.queryName p p') j name p'' := by
  cases ha with
  | nxDomain hinner =>
    refine ⟨hI.note hi (le_refl _) ?_, ?_, fun j name p'' hne hj => hj.note (Ne.symm hne)⟩
    · rintro _ _ _ _ ⟨⟩
      exact ⟨hI.world, r, rfl, hinner⟩
    · exact {
        fresh := fun _ name' moment hmem => by
          rcases List.mem_append.mp hmem with hmem | hmem
          · exact hJ.fresh rfl name' moment hmem
          · cases List.mem_singleton.mp hmem
        answered := fun _ => ⟨h.now, h.world, List.mem_append_right _ (List.mem_singleton_self _)⟩
        confirmed := fun hp => by cases hp }
  | remember =>
    obtain ⟨m, w, hnote⟩ := hJ.answered rfl
    have hI' := hI.note (e := .remembered i r.queryName h.now) hi (le_refl _)
      (fun _ _ _ _ he => by cases he)
    refine ⟨{ hI' with seen := hI'.seen.insert ⟨i, ?_, m, hI.moment _ hnote, w, ?_⟩ }, ?_,
      fun j name p'' hne hj => hj.note (Ne.symm hne)⟩
    · exact List.mem_append_right _ (List.mem_singleton_self _)
    · exact List.mem_append_left _ hnote
    · exact ⟨(fun hp => by cases hp), (fun hp => by cases hp), (fun hp => by cases hp)⟩
  | seen hseen =>
    rw [show notes i h r.queryName .firstSeen .negInsert = [] from rfl, List.append_nil]
    refine ⟨hI, ⟨hJ.fresh, hJ.answered, fun _ => ?_⟩, fun j name p'' _ hj => hj⟩
    obtain ⟨m, w, hnote⟩ := hJ.answered rfl
    obtain ⟨_, since, hentry, hlt⟩ := Cache.get_isSome.mp hseen
    obtain ⟨j, hj, m', hm', w', hnote'⟩ := hI.seen _ _ _ hentry
    have hne : j ≠ i := fun heq => hJ.fresh rfl _ _ (heq ▸ hj)
    rw [hI.seenToLive] at hlt
    exact ⟨h.now, le_refl _, ⟨m, hI.moment _ hnote, w, hnote⟩, j, hne, since, hI.moment _ hj, hlt,
      m', hm', w', hnote'⟩
  | unseen hseen =>
    rw [show notes i h r.queryName .firstSeen .firstSeenInsert = [] from rfl, List.append_nil]
    exact ⟨hI, ⟨hJ.fresh, hJ.answered, fun hp => by cases hp⟩, fun j name p'' _ hj => hj⟩
  | negInsert =>
    rw [show notes i h r.queryName .negInsert .bloomSet = [] from rfl, List.append_nil]
    exact ⟨{ hI with negative := hI.negative.insert ⟨i, hJ.confirmed rfl⟩ }, hJ.quiet rfl rfl,
      fun j name p'' _ hj => hj⟩
  | forget =>
    rw [show notes i h r.queryName .firstSeenInvalidate (.guardDrop .nxDomainAgain) = [] from rfl,
      List.append_nil]
    exact ⟨{ hI with seen := hI.seen.invalidate _ }, hJ.quiet rfl rfl, fun j name p'' _ hj => hj⟩
  | leave exit =>
    rw [show notes i h r.queryName (.guardDrop exit) (.returned exit) = [] from rfl,
      List.append_nil]
    exact ⟨hI, ⟨hJ.fresh, (fun hp => by cases hp), (fun hp => by cases hp)⟩,
      fun j name p'' _ hj => hj⟩
  | done exit =>
    rw [show notes i h r.queryName (.returned exit) (.returned exit) = [] from rfl,
      List.append_nil]
    exact ⟨hI, hJ, fun j name p'' _ hj => hj⟩
  | _ =>
    -- none of the others touches the log or the two caches
    exact ⟨(List.append_nil log).symm ▸ hI, (List.append_nil log).symm ▸ hJ.quiet rfl rfl,
      fun j name p'' _ hj => (List.append_nil log).symm ▸ hj⟩

/-- In every state of the server with the log, the log says where the entries of the caches
come from. -/
theorem LoggedReach.logged {t : Threads (HardenedHandler parts ω × List (Note ω)) (Handling lib)}
    (hstart : ∀ w, inner.start w → W w) (hchanges : ∀ w w', W w → inner.changes w w' → W w')
    (ht : LoggedReach parts inner minResponseMs t) :
    Logged inner W t.threads.length t.shared.1.now t.shared.1.world t.shared.1.firstSeen
      t.shared.1.negCache t.shared.2 := by
  refine (Program.local_rule
    (I := fun n s => Logged inner W n s.1.now s.1.world s.1.firstSeen s.1.negCache s.2)
    (J := fun s i x => LoggedAt s.1.now s.2 i x.request.queryName x.point) ?_ ?_ ?_ ?_ ht).1
  · rintro ⟨h, log⟩ ⟨⟨now, world, hworld, rfl⟩, rfl⟩
    exact {
      world := hstart world hworld
      lt := fun e he => by cases he
      moment := fun e he => by cases he
      truthful := fun _ _ _ _ he => by cases he
      seen := .new _
      negative := .new _
      seenToLive := rfl
      negativeToLive := rfl }
  · intro n s request hI
    refine ⟨{ hI with lt := fun e he => Nat.lt_succ_of_lt (hI.lt e he) }, ?_⟩
    exact ⟨fun _ name moment hmem => Nat.lt_irrefl n (hI.lt _ hmem), (fun hp => by cases hp),
      (fun hp => by cases hp)⟩
  · intro n i c s x hI hi hJ
    obtain ⟨hI', hJ', hothers⟩ := (act_access inner i c s.1 x).logged hI hi hJ
    refine ⟨hI', ?_, fun j y hne hy => hothers j y.request.queryName y.point hne hy⟩
    have hrequest := act_request inner i c s.1 x
    change LoggedAt _ _ i (act inner i c s.1 x).2.request.queryName _
    rw [hrequest]
    exact hJ'
  · intro t e hg hI
    have hnow := ServerRuns.clock hg
    have hkeep : ∀ j (y : Handling lib),
        LoggedAt t.shared.1.now t.shared.2 j y.request.queryName y.point →
          LoggedAt (env e t.shared.1).now t.shared.2 j y.request.queryName y.point :=
      fun j y hy => ⟨hy.fresh, hy.answered, fun hp =>
        (hy.confirmed hp).mono hnow (List.Subset.refl _)⟩
    refine ⟨?_, hkeep⟩
    have hmoment : ∀ e' ∈ t.shared.2, e'.moment ≤ (env e t.shared.1).now :=
      fun e' he' => (hI.moment e' he').trans hnow
    cases e with
    | clock now => exact { hI with moment := hmoment }
    | world w => exact { hI with world := hchanges _ _ hI.world hg }
    | evictNegative name => exact { hI with negative := hI.negative.invalidate name }
    | evictFirstSeen name => exact { hI with seen := hI.seen.invalidate name }
    | _ => exact hI

end

/-! ## Names that exist -/

/-- The request is told that its name does not exist, or is about to be. -/
def Point.denied : Point → Bool
  | .firstSeen | .negInsert | .bloomSet | .firstSeenInvalidate | .firstSeenInsert => true
  | .guardDrop exit | .returned exit => exit.responseCode = some .nxDomain
  | _ => false

theorem Access.denied (ha : Access inner i h r p h' p') (hp : p'.denied = true) :
    p.denied = true ∨ inner.handle h.world r = .ok .nxDomain ∨
      (h.negCache.get h.now r.queryName).isSome = true := by
  cases ha with
  | nxDomain hinner => exact Or.inr (Or.inl hinner)
  | negHit hhit => exact Or.inr (Or.inr hhit)
  | answer hinner hcode =>
    rw [Point.denied, decide_eq_true_eq] at hp
    exact absurd (Option.some.inj hp) hcode
  | leave exit => exact Or.inl hp
  | done exit => exact Or.inl hp
  | _ => first | exact Or.inl rfl | cases hp

/-- What an access does to the negative cache. -/
theorem Access.negCache (ha : Access inner i h r p h' p') :
    h'.negCache = h.negCache ∨
      p = .negInsert ∧ h'.negCache = h.negCache.insert h.now r.queryName () := by
  cases ha with
  | negInsert => exact Or.inr ⟨rfl, rfl⟩
  | _ => exact Or.inl rfl

theorem Access.world (ha : Access inner i h r p h' p') : h'.world = h.world := by
  cases ha <;> rfl

/-- A name of which the inner handler never says that it does not exist: neither does the
server. -/
theorem ServerReach.not_denied (hstart : ∀ w, inner.start w → W w)
    (hchanges : ∀ w w', W w → inner.changes w w' → W w')
    (hexists : ∀ w (r : Request lib), W w → r.queryName = name → inner.handle w r ≠ .ok .nxDomain)
    (ht : ServerReach parts inner minResponseMs t) {x : Handling lib}
    (hx : t.threads[i]? = some x) (hname : x.request.queryName = name) :
    x.point.denied = false := by
  refine (Program.local_rule
    (I := fun _ h => W h.world ∧ h.negCache.Entries fun k _ _ => k ≠ name)
    (J := fun _ _ x => x.request.queryName = name → x.point.denied = false)
    ?_ ?_ ?_ ?_ ht).2 i x hx hname
  · rintro h ⟨now, world, hworld, rfl⟩
    exact ⟨hstart world hworld, .new _⟩
  · intro _ _ request hI
    exact ⟨hI, fun _ => rfl⟩
  · rintro _ i c h x ⟨hW, hneg⟩ _ hJ
    have ha := act_access inner i c h x
    refine ⟨⟨?_, ?_⟩, fun hname => ?_, fun _ _ _ hy => hy⟩
    · rw [server_act, ha.world]
      exact hW
    · rw [server_act]
      rcases ha.negCache with hsame | ⟨hpoint, hinsert⟩
      · rwa [hsame]
      · rw [hinsert]
        refine hneg.insert fun hname => ?_
        have hdenied := hJ hname
        rw [hpoint] at hdenied
        cases hdenied
    · rw [server_act, act_request] at hname
      refine Bool.eq_false_iff.mpr fun hdenied => ?_
      rcases ha.denied hdenied with hp | hinner | hhit
      · rw [hJ hname] at hp
        cases hp
      · exact hexists _ _ hW hname hinner
      · obtain ⟨_, since, hentry, -⟩ := Cache.get_isSome.mp hhit
        exact hneg _ _ _ hentry hname
  · rintro t e hg ⟨hW, hneg⟩
    refine ⟨⟨?_, ?_⟩, fun _ _ hy => hy⟩
    · cases e with
      | world w => exact hchanges _ _ hW hg
      | _ => exact hW
    · cases e with
      | evictNegative k => exact hneg.invalidate k
      | _ => exact hneg

end PnsPallets
