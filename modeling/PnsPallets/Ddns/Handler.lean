import PnsPallets.Frame.Cache
import PnsPallets.Frame.RateLimiter
import PnsPallets.Ddns.DoubleBloom
import PnsPallets.Ddns.Records

/-!
# The request handler of the DNS server (pns-ddns/src/dns_server.rs)

`HardenedHandler` puts a chain of checks in front of the catalog that answers queries: a
cap on the requests in flight, a refusal of ANY queries, three rate limiters, a penalty
for the subnets that the zone limiter has refused, a cache of names that do not exist, a
limiter on storage reads, the length of labels, and a queue that delays every request by
a minimum time.

The server runs on several threads, so requests interleave at every access to what they
share. A request is a thread here, and a `Point` the access it makes next; `act` is that
access together with the code up to the following one. The relaxed increments of the
metrics, which nothing reads back, are taken together with the access before them, and an
access uses the clock of the moment it is made at.
Time passes, entries of the caches are dropped, the queue's own task runs and the chain
goes on between any two accesses (`ServerEvent`).

Parameters are the rate limiters of `governor`, the Bloom filter, and the inner handler: a
function of the request and of a world that it reads, the chain.
-/

namespace PnsPallets

open Frame

/-! ## Time, addresses, requests -/

/-- `Instant`, in nanoseconds. -/
abbrev Instant : Type := ℕ

/-- `Duration::from_secs`. -/
def fromSecs (secs : ℕ) : ℕ := secs * 1000000000

/-- `Duration::from_millis`. -/
def fromMillis (millis : ℕ) : ℕ := millis * 1000000

/-- `std::net::IpAddr`. -/
inductive IpAddr where
  | V4 (addr : Ipv4Addr)
  | V6 (addr : Ipv6Addr)

/-- `SubnetKey` (dns_server.rs:32). -/
abbrev SubnetKey : Type := { octets : Bytes // octets.length = 4 }

/-- `subnet_key` (dns_server.rs:34–45). -/
def subnetKey : IpAddr → SubnetKey
  | .V4 v4 => ⟨v4.1.take 3 ++ [4], by simp [v4.2]⟩
  | .V6 v6 => ⟨v6.1.take 3 ++ [6], by simp [v6.2]⟩

/-- `hickory_proto::op::LowerQuery`. -/
structure Query (lib : DnsLibrary) where
  name : lib.DnsName
  queryType : WireType lib.Variant

/-- `hickory_server::server::Request`: where it comes from and what it asks. -/
structure Request (lib : DnsLibrary) where
  src : IpAddr
  queries : List (Query lib)

variable {lib : DnsLibrary}

/-- Step 2 asks for this (dns_server.rs:351–353). -/
def Request.isAny (request : Request lib) : Bool :=
  request.queries.any fun q => q.queryType = .known .ANY

/-- `HardenedHandler::zone_key` (dns_server.rs:308–317). -/
def Request.zoneKey (request : Request lib) : Option Bytes :=
  request.queries.head?.map fun q => ((lib.display q.name).splitOn dot).head?.getD []

/-- `HardenedHandler::labels_valid` (dns_server.rs:320–327). -/
def Request.labelsValid (request : Request lib) : Bool :=
  request.queries.all fun q =>
    ((lib.display q.name).splitOn dot).all fun label => label.length ≤ 63

/-- `query_name` of step 6 (dns_server.rs:399–403). -/
def Request.queryName (request : Request lib) : Bytes :=
  (request.queries.head?.map fun q => lib.display q.name).getD []

/-- The codes of responses, `hickory_proto::op::ResponseCode`. -/
inductive Rcode where
  | noError | formErr | servFail | nxDomain | notImp | refused
  | other (code : UInt16)
deriving DecidableEq

/-! ## Metrics -/

/-- The fields of `DnsMetrics` (metrics.rs:12–40). -/
inductive Counter where
  | dropInflightCap | dropAnyQuery | dropSrcRateLimit | dropZoneRateLimit | dropPenaltyBackoff
  | dropBloomPreFilter | dropStorageTimeout | dropStorageRateLimit | dropLabelValidation
  | dropCnameDepth
  | negCacheHit | firstSeenMiss | firstSeenHit
  | storageLookups | storageTimeouts
  | respNoerror | respNxdomain | respRefused | respServfail | respNotimp
deriving DecidableEq

/-- `DnsMetrics`: an `AtomicU64` for each counter. -/
abbrev DnsMetrics : Type := Counter → UInt64

/-- `fetch_add(1)`. -/
def DnsMetrics.fetchAdd (m : DnsMetrics) (c : Counter) : DnsMetrics :=
  Function.update m c (m c + 1)

/-! ## Penalties -/

/-- `PenaltyState` (dns_server.rs:102–105). -/
structure PenaltyState where
  strikes : UInt8
  blockedUntil : Instant
deriving DecidableEq

/-- `u8::saturating_add(1)`. -/
def saturatingSucc (n : UInt8) : UInt8 := if n = 255 then 255 else n + 1

/-- The backoff of `record_penalty` (dns_server.rs:285–289). -/
def blockDuration (strikes : UInt8) : ℕ :=
  if strikes = 1 then fromSecs 1 else if strikes = 2 then fromSecs 10 else fromSecs 60

/-- The new state of `record_penalty` (dns_server.rs:281–295). -/
def PenaltyState.strike (now : Instant) (existing : Option PenaltyState) : PenaltyState :=
  match existing with
  | some existing =>
    { strikes := saturatingSucc existing.strikes
      blockedUntil := now + blockDuration (saturatingSucc existing.strikes) }
  | none => { strikes := 1, blockedUntil := now + fromSecs 1 }

/-! ## The response queue -/

/-- `ResponseQueue` (dns_server.rs:123–166): the messages on its channel, the queue of its
task, and the requests whose oneshot was sent. A message is the moment at which a request
came and the request. -/
structure ResponseQueue where
  min : ℕ
  channel : List (Instant × ℕ)
  queue : List (Instant × ℕ)
  released : List ℕ

/-- `ResponseQueue::new` (dns_server.rs:128–159). -/
def ResponseQueue.new (minMs : ℕ) : ResponseQueue where
  min := fromMillis minMs
  channel := []
  queue := []
  released := []

/-- The loop of a tick (dns_server.rs:141–150): the requests it releases, and those that
stay. -/
def releaseRipe (now : Instant) (min : ℕ) :
    List (Instant × ℕ) → List ℕ × List (Instant × ℕ)
  | [] => ([], [])
  | (entry, i) :: queue =>
    if now ≥ entry + min then (i :: (releaseRipe now min queue).1, (releaseRipe now min queue).2)
    else ([], (entry, i) :: queue)

/-- The tick of the interval. -/
def ResponseQueue.tick (q : ResponseQueue) (now : Instant) : ResponseQueue :=
  { q with
    queue := (releaseRipe now q.min q.queue).2
    released := q.released ++ (releaseRipe now q.min q.queue).1 }

/-- A message is received (dns_server.rs:152–154). -/
def ResponseQueue.recv (q : ResponseQueue) : ResponseQueue :=
  { q with channel := q.channel.tail, queue := q.queue ++ q.channel.head?.toList }

/-- `tx.send` of `ResponseQueue::wait` (dns_server.rs:163). -/
def ResponseQueue.send (q : ResponseQueue) (entry : Instant) (i : ℕ) : ResponseQueue :=
  { q with channel := q.channel ++ [(entry, i)] }

/-! ## The handler -/

/-- What the handler takes from elsewhere: a kind of Bloom filter, and rate limiters by their
quota per second. -/
structure ServerParts : Type 1 where
  bloom : Bloom Bytes
  limiter : (K : Type) → [DecidableEq K] → (perSecond : ℕ) → RateLimiter K

namespace ServerParts

variable (parts : ServerParts)

/-- `src_rl` (dns_server.rs:260). -/
def srcRl : RateLimiter SubnetKey := parts.limiter SubnetKey 10

/-- `global_response_rl` (dns_server.rs:261). -/
def globalResponseRl : RateLimiter SubnetKey := parts.limiter SubnetKey 500

/-- `zone_rl` (dns_server.rs:233–235). -/
def zoneRl : RateLimiter Bytes := parts.limiter Bytes 50

/-- `storage_rl` (dns_server.rs:237–239). -/
def storageRl : RateLimiter Unit := parts.limiter Unit 1000

end ServerParts

/-- `HardenedHandler` (dns_server.rs:189–225), with the clock and the world that the inner
handler reads. -/
structure HardenedHandler (parts : ServerParts) (ω : Type) where
  now : Instant
  world : ω
  inflight : UInt64
  maxInflight : UInt64
  srcRl : parts.srcRl.State
  globalResponseRl : parts.globalResponseRl.State
  zoneRl : parts.zoneRl.State
  penaltyCache : Cache SubnetKey PenaltyState
  bloom : DoubleBloom parts.bloom
  negCache : Cache Bytes Unit
  firstSeen : Cache Bytes Unit
  storageRl : parts.storageRl.State
  responseQueue : ResponseQueue
  metrics : DnsMetrics

variable {parts : ServerParts} {ω : Type}

/-- `HardenedHandler::new` (dns_server.rs:228–271). -/
def HardenedHandler.new (parts : ServerParts) (minResponseMs : ℕ) (now : Instant) (world : ω) :
    HardenedHandler parts ω where
  now := now
  world := world
  inflight := 0
  maxInflight := 100
  srcRl := parts.srcRl.new
  globalResponseRl := parts.globalResponseRl.new
  zoneRl := parts.zoneRl.new
  penaltyCache := .new (fromSecs 300)
  bloom := .new parts.bloom 80000
  negCache := .new (fromSecs 60)
  firstSeen := .new (fromSecs 10)
  storageRl := parts.storageRl.new
  responseQueue := .new minResponseMs
  metrics := fun _ => 0

/-- The places where `handle_request` returns. -/
inductive Exit where
  | inflightCap | anyQuery | srcRateLimit | globalRateLimit | zoneRateLimit | penaltyBackoff
  | negCacheHit | storageRateLimit | labelValidation
  /-- NXDOMAIN for a name not seen before, and for one that was. -/
  | nxDomainFirst | nxDomainAgain
  | answered (code : Rcode)
  | timedOut
  /-- The inner handler panics, and the thread unwinds. -/
  | panicked
deriving DecidableEq

/-- The code of the response that `handle_request` returns. -/
def Exit.responseCode : Exit → Option Rcode
  | .inflightCap | .srcRateLimit | .globalRateLimit | .zoneRateLimit | .penaltyBackoff
  | .storageRateLimit | .labelValidation => some .refused
  | .anyQuery => some .notImp
  | .negCacheHit | .nxDomainFirst | .nxDomainAgain => some .nxDomain
  | .answered code => some code
  | .timedOut => some .servFail
  | .panicked => none

/-- The next access of a request to what it shares with the others. -/
inductive Point where
  /-- Step 1, `fetch_add`, and the `fetch_sub` of a request beyond the cap. -/
  | inflightAdd | inflightSub
  /-- Step 2. -/
  | anyQuery
  /-- Steps 3 to 5. -/
  | srcLimit | globalLimit | zoneLimit
  /-- `record_penalty`: it reads the cache and then writes to it. -/
  | penaltyRead | penaltyWrite (state : PenaltyState)
  /-- Step 5a. -/
  | penaltyCheck
  /-- Step 7. The pre-check of step 6 has no effect. -/
  | negCache
  /-- Steps 9 and 10. -/
  | storageLimit | labels
  /-- Step 13: the request reads the clock, sends its message, and waits. -/
  | enterQueue | sending (entry : Instant) | waiting (entry : Instant)
  /-- Step 8. -/
  | lookup
  /-- The answer was NXDOMAIN: was the name seen before? -/
  | firstSeen
  /-- It was: the three writes of the promotion. -/
  | negInsert | bloomSet | firstSeenInvalidate
  /-- It was not. -/
  | firstSeenInsert
  /-- The guard of step 1 is dropped. -/
  | guardDrop (exit : Exit)
  | returned (exit : Exit)
deriving DecidableEq

/-- The handler that is asked in the end, and the world it reads: the worlds a run may start
in, and how the world may change. -/
structure InnerHandler (lib : DnsLibrary) (ω : Type) where
  start : ω → Prop
  changes : ω → ω → Prop
  handle : ω → Request lib → Except Panic Rcode

/-- A request that is handled. -/
structure Handling (lib : DnsLibrary) where
  request : Request lib
  point : Point

/-- The handling goes on at `point`. -/
def Handling.goto (t : Handling lib) (point : Point) : Handling lib := { t with point := point }

@[simp] theorem Handling.goto_point (t : Handling lib) (point : Point) :
    (t.goto point).point = point := rfl

@[simp] theorem Handling.goto_request (t : Handling lib) (point : Point) :
    (t.goto point).request = t.request := rfl

/-- Whether the inner handler is done within the timeout of 100 ms. -/
inductive Completion where
  | inTime
  | tooLate

section Steps

variable (inner : InnerHandler lib ω)

/-- Step 8 and what follows it up to the next access (dns_server.rs:443–481). -/
def lookupStep (c : Completion) (h : HardenedHandler parts ω) (t : Handling lib) :
    HardenedHandler parts ω × Handling lib :=
  match c with
  | .tooLate =>
    ({ h with
        metrics := (h.metrics.fetchAdd .dropStorageTimeout).fetchAdd .storageTimeouts },
      t.goto (.guardDrop .timedOut))
  | .inTime =>
    match inner.handle h.world t.request with
    | .error _ => (h, t.goto (.guardDrop .panicked))
    | .ok code =>
      if code = .nxDomain then (h, t.goto .firstSeen)
      else ({ h with metrics := h.metrics.fetchAdd .respNoerror },
        t.goto (.guardDrop (.answered code)))

/-- An access of request `i`, by the point it is at (dns_server.rs:332–493). -/
def act (i : ℕ) (c : Completion) (h : HardenedHandler parts ω) (t : Handling lib) :
    HardenedHandler parts ω × Handling lib :=
  match t.point with
  | .inflightAdd =>
    -- `fetch_add` returns the count before
    ({ h with inflight := h.inflight + 1 },
      t.goto (if h.inflight ≥ h.maxInflight then .inflightSub else .anyQuery))
  | .inflightSub =>
    ({ h with
        inflight := h.inflight - 1
        metrics := h.metrics.fetchAdd .dropInflightCap },
      t.goto (.returned .inflightCap))
  | .anyQuery =>
    if t.request.isAny then
      ({ h with metrics := h.metrics.fetchAdd .dropAnyQuery }, t.goto (.guardDrop .anyQuery))
    else (h, t.goto .srcLimit)
  | .srcLimit =>
    let r := parts.srcRl.check h.srcRl (subnetKey t.request.src) h.now
    if r.1 then ({ h with srcRl := r.2 }, t.goto .globalLimit)
    else ({ h with srcRl := r.2, metrics := h.metrics.fetchAdd .dropSrcRateLimit },
      t.goto (.guardDrop .srcRateLimit))
  | .globalLimit =>
    let r := parts.globalResponseRl.check h.globalResponseRl (subnetKey t.request.src) h.now
    -- the one refusal that no counter counts
    ({ h with globalResponseRl := r.2 },
      t.goto (if r.1 then .zoneLimit else .guardDrop .globalRateLimit))
  | .zoneLimit =>
    match t.request.zoneKey with
    | none => (h, t.goto .penaltyCheck)
    | some zone =>
      let r := parts.zoneRl.check h.zoneRl zone h.now
      if r.1 then ({ h with zoneRl := r.2 }, t.goto .penaltyCheck)
      else ({ h with zoneRl := r.2, metrics := h.metrics.fetchAdd .dropZoneRateLimit },
        t.goto .penaltyRead)
  | .penaltyRead =>
    (h, t.goto (.penaltyWrite
      (.strike h.now (h.penaltyCache.get h.now (subnetKey t.request.src)))))
  | .penaltyWrite state =>
    ({ h with
        penaltyCache := h.penaltyCache.insert h.now (subnetKey t.request.src) state },
      t.goto (.guardDrop .zoneRateLimit))
  | .penaltyCheck =>
    if (h.penaltyCache.get h.now (subnetKey t.request.src)).any (h.now < ·.blockedUntil) then
      ({ h with metrics := h.metrics.fetchAdd .dropPenaltyBackoff },
        t.goto (.guardDrop .penaltyBackoff))
    else (h, t.goto .negCache)
  | .negCache =>
    if (h.negCache.get h.now t.request.queryName).isSome then
      ({ h with metrics := h.metrics.fetchAdd .negCacheHit }, t.goto (.guardDrop .negCacheHit))
    else (h, t.goto .storageLimit)
  | .storageLimit =>
    let r := parts.storageRl.check h.storageRl () h.now
    if r.1 then ({ h with storageRl := r.2 }, t.goto .labels)
    else ({ h with storageRl := r.2, metrics := h.metrics.fetchAdd .dropStorageRateLimit },
      t.goto (.guardDrop .storageRateLimit))
  | .labels =>
    if t.request.labelsValid then (h, t.goto .enterQueue)
    else ({ h with metrics := h.metrics.fetchAdd .dropLabelValidation },
      t.goto (.guardDrop .labelValidation))
  | .enterQueue => (h, t.goto (.sending h.now))
  | .sending entry =>
    ({ h with responseQueue := h.responseQueue.send entry i }, t.goto (.waiting entry))
  | .waiting entry =>
    -- `rx.await` goes on once the oneshot was sent
    if i ∈ h.responseQueue.released then
      ({ h with metrics := h.metrics.fetchAdd .storageLookups }, t.goto .lookup)
    else (h, t.goto (.waiting entry))
  | .lookup => lookupStep inner c h t
  | .firstSeen =>
    (h, t.goto (if (h.firstSeen.get h.now t.request.queryName).isSome then .negInsert
      else .firstSeenInsert))
  | .negInsert =>
    ({ h with negCache := h.negCache.insert h.now t.request.queryName () }, t.goto .bloomSet)
  | .bloomSet =>
    ({ h with bloom := h.bloom.set t.request.queryName }, t.goto .firstSeenInvalidate)
  | .firstSeenInvalidate =>
    ({ h with
        firstSeen := h.firstSeen.invalidate t.request.queryName
        metrics := (h.metrics.fetchAdd .firstSeenHit).fetchAdd .respNxdomain },
      t.goto (.guardDrop .nxDomainAgain))
  | .firstSeenInsert =>
    ({ h with
        firstSeen := h.firstSeen.insert h.now t.request.queryName ()
        metrics := (h.metrics.fetchAdd .firstSeenMiss).fetchAdd .respNxdomain },
      t.goto (.guardDrop .nxDomainFirst))
  | .guardDrop exit => ({ h with inflight := h.inflight - 1 }, t.goto (.returned exit))
  | .returned exit => (h, t.goto (.returned exit))

/-- What happens beside the requests: time passes, the world changes, the queue's task receives
a message or ticks, and a cache drops an entry. -/
inductive ServerEvent (ω : Type) where
  | clock (now : Instant)
  | world (w : ω)
  | recv
  | tick
  | evictPenalty (key : SubnetKey)
  | evictNegative (name : Bytes)
  | evictFirstSeen (name : Bytes)

/-- The handler after an event. -/
def env (e : ServerEvent ω) (h : HardenedHandler parts ω) : HardenedHandler parts ω :=
  match e with
  | .clock now => { h with now := now }
  | .world w => { h with world := w }
  | .recv => { h with responseQueue := h.responseQueue.recv }
  | .tick => { h with responseQueue := h.responseQueue.tick h.now }
  | .evictPenalty key => { h with penaltyCache := h.penaltyCache.invalidate key }
  | .evictNegative name => { h with negCache := h.negCache.invalidate name }
  | .evictFirstSeen name => { h with firstSeen := h.firstSeen.invalidate name }

/-- The server: every request is a thread that starts with step 1. -/
def server (parts : ServerParts) (inner : InnerHandler lib ω)
    (minResponseMs : ℕ) :
    Program (HardenedHandler parts ω) (Handling lib) (Request lib) Completion (ServerEvent ω) where
  init h := ∃ now world, inner.start world ∧ h = .new parts minResponseMs now world
  entry request := { request := request, point := .inflightAdd }
  act := act inner
  env := env

end Steps

@[simp] theorem server_act (inner : InnerHandler lib ω) (minResponseMs : ℕ) :
    (server parts inner minResponseMs).act = act inner := rfl

/-! ## The transitions -/

/-- What an access of request `i` can do: the point it is made at, the handler after it, and
the point the request goes on to. -/
inductive Access (inner : InnerHandler lib ω) (i : ℕ)
    (h : HardenedHandler parts ω) (r : Request lib) :
    Point → HardenedHandler parts ω → Point → Prop
  | enter (hlt : h.inflight < h.maxInflight) :
      Access inner i h r .inflightAdd { h with inflight := h.inflight + 1 } .anyQuery
  | overCap (hge : h.maxInflight ≤ h.inflight) :
      Access inner i h r .inflightAdd { h with inflight := h.inflight + 1 } .inflightSub
  | turnAway :
      Access inner i h r .inflightSub
        { h with inflight := h.inflight - 1, metrics := h.metrics.fetchAdd .dropInflightCap }
        (.returned .inflightCap)
  | any (hany : r.isAny = true) :
      Access inner i h r .anyQuery { h with metrics := h.metrics.fetchAdd .dropAnyQuery }
        (.guardDrop .anyQuery)
  | notAny (hany : r.isAny = false) : Access inner i h r .anyQuery h .srcLimit
  | srcPass (hpass : (parts.srcRl.check h.srcRl (subnetKey r.src) h.now).1 = true) :
      Access inner i h r .srcLimit
        { h with srcRl := (parts.srcRl.check h.srcRl (subnetKey r.src) h.now).2 } .globalLimit
  | srcDrop (hdrop : (parts.srcRl.check h.srcRl (subnetKey r.src) h.now).1 = false) :
      Access inner i h r .srcLimit
        { h with
          srcRl := (parts.srcRl.check h.srcRl (subnetKey r.src) h.now).2
          metrics := h.metrics.fetchAdd .dropSrcRateLimit }
        (.guardDrop .srcRateLimit)
  | globalPass
      (hpass : (parts.globalResponseRl.check h.globalResponseRl (subnetKey r.src) h.now).1 = true) :
      Access inner i h r .globalLimit
        { h with globalResponseRl :=
            (parts.globalResponseRl.check h.globalResponseRl (subnetKey r.src) h.now).2 }
        .zoneLimit
  | globalDrop
      (hdrop :
        (parts.globalResponseRl.check h.globalResponseRl (subnetKey r.src) h.now).1 = false) :
      Access inner i h r .globalLimit
        { h with globalResponseRl :=
            (parts.globalResponseRl.check h.globalResponseRl (subnetKey r.src) h.now).2 }
        (.guardDrop .globalRateLimit)
  | noZone (hzone : r.zoneKey = none) : Access inner i h r .zoneLimit h .penaltyCheck
  | zonePass {zone : Bytes} (hzone : r.zoneKey = some zone)
      (hpass : (parts.zoneRl.check h.zoneRl zone h.now).1 = true) :
      Access inner i h r .zoneLimit
        { h with zoneRl := (parts.zoneRl.check h.zoneRl zone h.now).2 } .penaltyCheck
  | zoneDrop {zone : Bytes} (hzone : r.zoneKey = some zone)
      (hdrop : (parts.zoneRl.check h.zoneRl zone h.now).1 = false) :
      Access inner i h r .zoneLimit
        { h with
          zoneRl := (parts.zoneRl.check h.zoneRl zone h.now).2
          metrics := h.metrics.fetchAdd .dropZoneRateLimit }
        .penaltyRead
  | penaltyRead :
      Access inner i h r .penaltyRead h
        (.penaltyWrite (.strike h.now (h.penaltyCache.get h.now (subnetKey r.src))))
  | penaltyWrite (state : PenaltyState) :
      Access inner i h r (.penaltyWrite state)
        { h with penaltyCache := h.penaltyCache.insert h.now (subnetKey r.src) state }
        (.guardDrop .zoneRateLimit)
  | penalised (hblocked : (h.penaltyCache.get h.now (subnetKey r.src)).any
        (h.now < ·.blockedUntil) = true) :
      Access inner i h r .penaltyCheck
        { h with metrics := h.metrics.fetchAdd .dropPenaltyBackoff } (.guardDrop .penaltyBackoff)
  | unpenalised (hfree : (h.penaltyCache.get h.now (subnetKey r.src)).any
        (h.now < ·.blockedUntil) = false) :
      Access inner i h r .penaltyCheck h .negCache
  | negHit (hhit : (h.negCache.get h.now r.queryName).isSome = true) :
      Access inner i h r .negCache { h with metrics := h.metrics.fetchAdd .negCacheHit }
        (.guardDrop .negCacheHit)
  | negMiss (hmiss : (h.negCache.get h.now r.queryName).isSome = false) :
      Access inner i h r .negCache h .storageLimit
  | storagePass (hpass : (parts.storageRl.check h.storageRl () h.now).1 = true) :
      Access inner i h r .storageLimit
        { h with storageRl := (parts.storageRl.check h.storageRl () h.now).2 } .labels
  | storageDrop (hdrop : (parts.storageRl.check h.storageRl () h.now).1 = false) :
      Access inner i h r .storageLimit
        { h with
          storageRl := (parts.storageRl.check h.storageRl () h.now).2
          metrics := h.metrics.fetchAdd .dropStorageRateLimit }
        (.guardDrop .storageRateLimit)
  | labelsValid (hvalid : r.labelsValid = true) : Access inner i h r .labels h .enterQueue
  | labelsInvalid (hvalid : r.labelsValid = false) :
      Access inner i h r .labels { h with metrics := h.metrics.fetchAdd .dropLabelValidation }
        (.guardDrop .labelValidation)
  | arrive : Access inner i h r .enterQueue h (.sending h.now)
  | enqueue (entry : Instant) :
      Access inner i h r (.sending entry)
        { h with responseQueue := h.responseQueue.send entry i } (.waiting entry)
  | wake {entry : Instant} (hrel : i ∈ h.responseQueue.released) :
      Access inner i h r (.waiting entry)
        { h with metrics := h.metrics.fetchAdd .storageLookups } .lookup
  | sleep {entry : Instant} (hrel : i ∉ h.responseQueue.released) :
      Access inner i h r (.waiting entry) h (.waiting entry)
  | timeout :
      Access inner i h r .lookup
        { h with metrics := (h.metrics.fetchAdd .dropStorageTimeout).fetchAdd .storageTimeouts }
        (.guardDrop .timedOut)
  | panic {e : Panic} (hinner : inner.handle h.world r = .error e) :
      Access inner i h r .lookup h (.guardDrop .panicked)
  | nxDomain (hinner : inner.handle h.world r = .ok .nxDomain) :
      Access inner i h r .lookup h .firstSeen
  | answer {code : Rcode} (hinner : inner.handle h.world r = .ok code) (hcode : code ≠ .nxDomain) :
      Access inner i h r .lookup { h with metrics := h.metrics.fetchAdd .respNoerror }
        (.guardDrop (.answered code))
  | seen (hseen : (h.firstSeen.get h.now r.queryName).isSome = true) :
      Access inner i h r .firstSeen h .negInsert
  | unseen (hseen : (h.firstSeen.get h.now r.queryName).isSome = false) :
      Access inner i h r .firstSeen h .firstSeenInsert
  | negInsert :
      Access inner i h r .negInsert
        { h with negCache := h.negCache.insert h.now r.queryName () } .bloomSet
  | bloomSet :
      Access inner i h r .bloomSet { h with bloom := h.bloom.set r.queryName }
        .firstSeenInvalidate
  | forget :
      Access inner i h r .firstSeenInvalidate
        { h with
          firstSeen := h.firstSeen.invalidate r.queryName
          metrics := (h.metrics.fetchAdd .firstSeenHit).fetchAdd .respNxdomain }
        (.guardDrop .nxDomainAgain)
  | remember :
      Access inner i h r .firstSeenInsert
        { h with
          firstSeen := h.firstSeen.insert h.now r.queryName ()
          metrics := (h.metrics.fetchAdd .firstSeenMiss).fetchAdd .respNxdomain }
        (.guardDrop .nxDomainFirst)
  | leave (exit : Exit) :
      Access inner i h r (.guardDrop exit) { h with inflight := h.inflight - 1 } (.returned exit)
  | done (exit : Exit) : Access inner i h r (.returned exit) h (.returned exit)

theorem lookupStep_access (inner : InnerHandler lib ω) (i : ℕ)
    (c : Completion) (h : HardenedHandler parts ω) (r : Request lib) :
    Access inner i h r .lookup (lookupStep inner c h ⟨r, .lookup⟩).1
      (lookupStep inner c h ⟨r, .lookup⟩).2.point := by
  cases c with
  | tooLate => exact .timeout
  | inTime =>
    unfold lookupStep
    cases hinner : inner.handle h.world r with
    | error e => exact .panic hinner
    | ok code =>
      dsimp only
      split
      · next hcode => exact .nxDomain (hcode ▸ hinner)
      · next hcode => exact .answer hinner hcode

/-- The zone limiter, by the zone of the request. -/
theorem zoneLimit_access (inner : InnerHandler lib ω) (i : ℕ)
    (c : Completion) (h : HardenedHandler parts ω) (r : Request lib) :
    Access inner i h r .zoneLimit (act inner i c h ⟨r, .zoneLimit⟩).1
      (act inner i c h ⟨r, .zoneLimit⟩).2.point := by
  unfold act
  cases hzone : r.zoneKey with
  | none => exact .noZone hzone
  | some zone =>
    dsimp only
    split
    · next hpass => exact .zonePass hzone hpass
    · next hdrop => exact .zoneDrop hzone (Bool.eq_false_iff.mpr hdrop)

/-- `act` makes an access. -/
theorem act_access (inner : InnerHandler lib ω) (i : ℕ) (c : Completion)
    (h : HardenedHandler parts ω) (t : Handling lib) :
    Access inner i h t.request t.point (act inner i c h t).1 (act inner i c h t).2.point := by
  obtain ⟨r, point⟩ := t
  cases point with
  | inflightAdd =>
    by_cases hge : h.maxInflight ≤ h.inflight
    · simpa [act, hge] using Access.overCap hge
    · simpa [act, hge] using Access.enter (UInt64.not_le.mp hge)
  | inflightSub => exact .turnAway
  | anyQuery =>
    cases hany : r.isAny with
    | true => simpa [act, hany] using Access.any hany
    | false => simpa [act, hany] using Access.notAny hany
  | srcLimit =>
    cases hcheck : (parts.srcRl.check h.srcRl (subnetKey r.src) h.now).1 with
    | true => simpa [act, hcheck] using Access.srcPass hcheck
    | false => simpa [act, hcheck] using Access.srcDrop hcheck
  | globalLimit =>
    cases hcheck :
      (parts.globalResponseRl.check h.globalResponseRl (subnetKey r.src) h.now).1 with
    | true => simpa [act, hcheck] using Access.globalPass hcheck
    | false => simpa [act, hcheck] using Access.globalDrop hcheck
  | zoneLimit => exact zoneLimit_access inner i c h r
  | penaltyRead => exact .penaltyRead
  | penaltyWrite state => exact .penaltyWrite state
  | penaltyCheck =>
    cases hblocked : (h.penaltyCache.get h.now (subnetKey r.src)).any
      (h.now < ·.blockedUntil) with
    | true => simpa [act, hblocked] using Access.penalised hblocked
    | false => simpa [act, hblocked] using Access.unpenalised hblocked
  | negCache =>
    cases hhit : (h.negCache.get h.now r.queryName).isSome with
    | true => simpa [act, hhit] using Access.negHit hhit
    | false => simpa [act, hhit] using Access.negMiss hhit
  | storageLimit =>
    cases hcheck : (parts.storageRl.check h.storageRl () h.now).1 with
    | true => simpa [act, hcheck] using Access.storagePass hcheck
    | false => simpa [act, hcheck] using Access.storageDrop hcheck
  | labels =>
    cases hvalid : r.labelsValid with
    | true => simpa [act, hvalid] using Access.labelsValid hvalid
    | false => simpa [act, hvalid] using Access.labelsInvalid hvalid
  | enterQueue => exact .arrive
  | sending entry => exact .enqueue entry
  | waiting entry =>
    by_cases hrel : i ∈ h.responseQueue.released
    · simpa [act, hrel] using Access.wake hrel
    · simpa [act, hrel] using Access.sleep hrel
  | lookup => exact lookupStep_access inner i c h r
  | firstSeen =>
    cases hseen : (h.firstSeen.get h.now r.queryName).isSome with
    | true => simpa [act, hseen] using Access.seen hseen
    | false => simpa [act, hseen] using Access.unseen hseen
  | negInsert => exact .negInsert
  | bloomSet => exact .bloomSet
  | firstSeenInvalidate => exact .forget
  | firstSeenInsert => exact .remember
  | guardDrop exit => exact .leave exit
  | returned exit => exact .done exit

/-- A request stays the same while it is handled. -/
theorem act_request (inner : InnerHandler lib ω) (i : ℕ) (c : Completion)
    (h : HardenedHandler parts ω) (t : Handling lib) :
    (act inner i c h t).2.request = t.request := by
  unfold act lookupStep
  dsimp only
  repeat' split
  all_goals rfl

/-! ## ServerRuns -/

/-- A state of the server: the handler, and the requests it has been given. -/
abbrev Serving (parts : ServerParts) (lib : DnsLibrary) (ω : Type) : Type :=
  Threads (HardenedHandler parts ω) (Handling lib)

/-- Time does not go back, the world changes as it may, and fewer than 2^64 requests come. -/
def ServerRuns (inner : InnerHandler lib ω) (t : Serving parts lib ω) :
    Move (Request lib) Completion (ServerEvent ω) → Prop
  | .spawn _ => t.threads.length + 1 < 2 ^ 64
  | .act _ _ => True
  | .env (.clock now) => t.shared.now ≤ now
  | .env (.world w) => inner.changes t.shared.world w
  | .env _ => True

/-- The states of the server, in every interleaving. -/
abbrev ServerReach (parts : ServerParts) (inner : InnerHandler lib ω)
    (minResponseMs : ℕ) (t : Serving parts lib ω) : Prop :=
  (server parts inner minResponseMs).machine.Reach (ServerRuns inner) t

end PnsPallets
