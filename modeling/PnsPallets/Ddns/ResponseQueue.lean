import Mathlib.Algebra.Order.BigOperators.Group.List
import Mathlib.Algebra.Order.Group.Nat
import PnsPallets.Ddns.Accounting

/-!
# The response queue

A request that has passed all checks sends a message to the queue's task and waits for its
release. The messages of the task's queue and of its channel are those sent and not yet
released: receiving one does not change them, and a tick moves the ripe ones at the front to
the released. In every interleaving every waiting request has a message or has been
released, never both and never twice, and it is released only after the minimum time.
-/

namespace PnsPallets

open Frame

/-! ## The queue by itself -/

namespace ResponseQueue

variable {q : ResponseQueue} {now entry : Instant} {i j : ℕ}

/-- The messages that are sent and not released, in the order of the queue. -/
def messages (q : ResponseQueue) : List (Instant × ℕ) := q.queue ++ q.channel

/-- The requests that have sent a message. -/
def senders (q : ResponseQueue) : List ℕ := q.messages.map Prod.snd ++ q.released

@[simp] theorem messages_send :
    (q.send entry i).messages = q.messages ++ [(entry, i)] := by
  simp [messages, send]

@[simp] theorem messages_recv : q.recv.messages = q.messages := by
  unfold messages recv
  cases hchannel : q.channel <;> simp

/-- A tick releases the ripe messages at the front of the queue. -/
theorem releaseRipe_spec (now : Instant) (min : ℕ) (queue : List (Instant × ℕ)) :
    ∃ ripe, queue = ripe ++ (releaseRipe now min queue).2 ∧
      (releaseRipe now min queue).1 = ripe.map Prod.snd ∧ ∀ m ∈ ripe, m.1 + min ≤ now := by
  induction queue with
  | nil => exact ⟨[], rfl, rfl, fun m hm => by cases hm⟩
  | cons m queue ih =>
    obtain ⟨entry, i⟩ := m
    unfold releaseRipe
    split
    · next hripe =>
      obtain ⟨ripe, hqueue, hfreed, hall⟩ := ih
      refine ⟨(entry, i) :: ripe, congrArg _ hqueue, by rw [hfreed]; rfl, fun m hm => ?_⟩
      rcases List.mem_cons.mp hm with rfl | hm
      · exact hripe
      · exact hall m hm
    · exact ⟨[], rfl, rfl, fun m hm => by cases hm⟩

theorem tick_spec (q : ResponseQueue) (now : Instant) :
    ∃ ripe, q.messages = ripe ++ (q.tick now).messages ∧
      (q.tick now).released = q.released ++ ripe.map Prod.snd ∧
      ∀ m ∈ ripe, m.1 + q.min ≤ now := by
  obtain ⟨ripe, hqueue, hfreed, hall⟩ := releaseRipe_spec now q.min q.queue
  refine ⟨ripe, ?_, congrArg _ hfreed, hall⟩
  unfold messages tick
  rw [← List.append_assoc, ← hqueue]

/-- No request is lost or doubled by a tick. -/
theorem senders_tick (q : ResponseQueue) (now : Instant) :
    (q.tick now).senders.Perm q.senders := by
  obtain ⟨ripe, hmessages, hreleased, -⟩ := tick_spec q now
  unfold senders
  rw [hmessages, hreleased, List.map_append, List.append_assoc, ← List.append_assoc]
  exact List.perm_append_comm

theorem senders_send : (q.send entry i).senders.Perm (i :: q.senders) := by
  unfold senders
  rw [messages_send, List.map_append, List.append_assoc]
  exact List.perm_middle

theorem mem_senders_of_mem (hm : (entry, i) ∈ q.messages) : i ∈ q.senders :=
  List.mem_append_left _ (List.mem_map.mpr ⟨(entry, i), hm, rfl⟩)

/-- A message that a tick takes is released after its time. -/
theorem mem_tick (hm : (entry, i) ∈ q.messages) :
    (entry, i) ∈ (q.tick now).messages ∨
      i ∈ (q.tick now).released ∧ entry + q.min ≤ now := by
  obtain ⟨ripe, hmessages, hreleased, hall⟩ := tick_spec q now
  rw [hmessages] at hm
  rcases List.mem_append.mp hm with hm | hm
  · refine Or.inr ⟨?_, hall _ hm⟩
    rw [hreleased]
    exact List.mem_append_right _ (List.mem_map.mpr ⟨(entry, i), hm, rfl⟩)
  · exact Or.inl hm

theorem released_tick (hi : i ∈ q.released) : i ∈ (q.tick now).released :=
  List.mem_append_left _ hi

/-! ### Progress of the task -/

theorem recv_iterate (q : ResponseQueue) (n : ℕ) :
    recv^[n] q =
      { q with channel := q.channel.drop n, queue := q.queue ++ q.channel.take n } := by
  induction n generalizing q with
  | zero => simp
  | succ n ih =>
    rw [Function.iterate_succ_apply, ih]
    unfold recv
    cases hchannel : q.channel <;> simp

/-- Once all messages are received, they are the queue. -/
theorem queue_recv_all (q : ResponseQueue) :
    (recv^[q.channel.length] q).queue = q.messages := by
  rw [recv_iterate]
  simp [messages]

/-- A tick at which all messages of the queue are ripe releases them all. -/
theorem releaseRipe_all {min : ℕ} {queue : List (Instant × ℕ)}
    (hall : ∀ m ∈ queue, m.1 + min ≤ now) :
    (releaseRipe now min queue).1 = queue.map Prod.snd := by
  induction queue with
  | nil => rfl
  | cons m queue ih =>
    obtain ⟨entry, i⟩ := m
    have hripe : now ≥ entry + min := hall _ List.mem_cons_self
    unfold releaseRipe
    rw [if_pos hripe, ih fun m hm => hall m (List.mem_cons_of_mem _ hm)]
    rfl

end ResponseQueue

/-! ## The queue in the server -/

variable {lib : DnsLibrary} {parts : ServerParts} {ω : Type}
  {inner : InnerHandler lib ω} {minResponseMs : ℕ}
  {i j n : ℕ} {h h' : HardenedHandler parts ω} {r : Request lib} {p p' : Point}
  {t : Serving parts lib ω}

/-- The moment at which a waiting request came to the queue. -/
def Point.entry : Point → Option Instant
  | .waiting entry => some entry
  | _ => none

/-- What an access does to the queue: nothing, it sends a message, or it waits for the
release. -/
theorem Access.responseQueue (ha : Access inner i h r p h' p') :
    h'.responseQueue = h.responseQueue ∧ p.entry = none ∧ p'.entry = none ∧
        (10 ≤ p'.passed ↔ 10 ≤ p.passed) ∨
      (∃ entry, h'.responseQueue = h.responseQueue.send entry i ∧ p = .sending entry ∧
        p' = .waiting entry) ∨
      h'.responseQueue = h.responseQueue ∧ ∃ entry, p = .waiting entry ∧
        (p' = .waiting entry ∨ p' = .lookup ∧ i ∈ h.responseQueue.released) := by
  cases ha with
  | enqueue entry => exact Or.inr (Or.inl ⟨entry, rfl, rfl, rfl⟩)
  | wake hrel => exact Or.inr (Or.inr ⟨rfl, _, rfl, Or.inr ⟨rfl, hrel⟩⟩)
  | sleep hrel => exact Or.inr (Or.inr ⟨rfl, _, rfl, Or.inl rfl⟩)
  | _ => exact Or.inl ⟨rfl, rfl, rfl, by simp [Point.passed, Exit.passed]⟩

namespace ResponseQueue

variable {q : ResponseQueue} {now now' entry : Instant}

/-- The queue knows each request at most once, and only requests there are. -/
structure Sound (q : ResponseQueue) (n : ℕ) : Prop where
  nodup : q.senders.Nodup
  lt : ∀ j ∈ q.senders, j < n

/-- A waiting request has a message, or was released after its time; one that has gone on was
released; and the others have not sent a message. -/
def Holds (q : ResponseQueue) (now : Instant) (i : ℕ) (p : Point) : Prop :=
  match p.entry with
  | some entry => (entry, i) ∈ q.messages ∨ i ∈ q.released ∧ entry + q.min ≤ now
  | none => if 10 ≤ p.passed then i ∈ q.released else i ∉ q.senders

theorem Sound.perm {q' : ResponseQueue} (hs : q.Sound n) (hperm : q'.senders.Perm q.senders) :
    q'.Sound n :=
  ⟨hperm.nodup_iff.mpr hs.nodup, fun j hj => hs.lt j (hperm.mem_iff.mp hj)⟩

theorem Sound.send (hs : q.Sound n) (hi : i < n) (hnew : i ∉ q.senders) :
    (q.send entry i).Sound n where
  nodup := senders_send.nodup_iff.mpr (List.nodup_cons.mpr ⟨hnew, hs.nodup⟩)
  lt j hj := by
    rcases List.mem_cons.mp (senders_send.mem_iff.mp hj) with rfl | hj
    · exact hi
    · exact hs.lt j hj

theorem senders_recv : q.recv.senders = q.senders := by
  unfold senders
  rw [messages_recv]
  rfl

theorem Holds.send (hne : j ≠ i) (hq : q.Holds now j p) : (q.send entry i).Holds now j p := by
  unfold Holds at hq ⊢
  cases hentry : p.entry with
  | some e =>
    rw [hentry] at hq
    exact hq.imp (fun hm => by rw [messages_send]; exact List.mem_append_left _ hm) id
  | none =>
    rw [hentry] at hq
    by_cases hpassed : 10 ≤ p.passed
    · simp only [if_pos hpassed] at hq ⊢
      exact hq
    · simp only [if_neg hpassed] at hq ⊢
      intro hj
      rcases List.mem_cons.mp (senders_send.mem_iff.mp hj) with hji | hj
      · exact hne hji
      · exact hq hj

theorem Holds.recv (hq : q.Holds now j p) : q.recv.Holds now j p := by
  unfold Holds at hq ⊢
  rw [messages_recv, senders_recv]
  exact hq

theorem Holds.clock (hle : now ≤ now') (hq : q.Holds now j p) : q.Holds now' j p := by
  unfold Holds at hq ⊢
  cases hentry : p.entry with
  | some e =>
    rw [hentry] at hq
    exact hq.imp id fun hr => ⟨hr.1, hr.2.trans hle⟩
  | none =>
    rw [hentry] at hq
    exact hq

theorem Holds.tick (hq : q.Holds now j p) : (q.tick now).Holds now j p := by
  unfold Holds at hq ⊢
  cases hentry : p.entry with
  | some e =>
    rw [hentry] at hq
    rcases hq with hm | ⟨hr, hle⟩
    · exact mem_tick hm
    · exact Or.inr ⟨released_tick hr, hle⟩
  | none =>
    rw [hentry] at hq
    by_cases hpassed : 10 ≤ p.passed
    · simp only [if_pos hpassed] at hq ⊢
      exact released_tick hq
    · simp only [if_neg hpassed] at hq ⊢
      exact fun hj => hq ((senders_tick q now).mem_iff.mp hj)

end ResponseQueue

theorem Access.queue (ha : Access inner i h r p h' p') (hs : h.responseQueue.Sound n) (hi : i < n)
    (hq : h.responseQueue.Holds h.now i p) :
    h'.responseQueue.Sound n ∧ h'.responseQueue.Holds h'.now i p' ∧
      ∀ j p'', j ≠ i → h.responseQueue.Holds h.now j p'' →
        h'.responseQueue.Holds h'.now j p'' := by
  rw [ha.now]
  rcases ha.responseQueue with ⟨hqueue, hp, hp', hpassed⟩ | ⟨entry, hqueue, rfl, rfl⟩ |
    ⟨hqueue, entry, rfl, hp'⟩
  · rw [hqueue]
    refine ⟨hs, ?_, fun j p'' _ hj => hj⟩
    unfold ResponseQueue.Holds at hq ⊢
    rw [hp] at hq
    rw [hp']
    simpa only [hpassed] using hq
  · rw [hqueue]
    refine ⟨hs.send hi hq, Or.inl ?_, fun j p'' hne hj => hj.send hne⟩
    rw [ResponseQueue.messages_send]
    exact List.mem_append_right _ (List.mem_singleton_self _)
  · rw [hqueue]
    refine ⟨hs, ?_, fun j p'' _ hj => hj⟩
    rcases hp' with rfl | ⟨rfl, hrel⟩
    · exact hq
    · exact hrel

/-- In every state of the server the queue is sound and holds what every request needs. -/
theorem ServerReach.queue (ht : ServerReach parts inner minResponseMs t) :
    t.shared.responseQueue.Sound t.threads.length ∧
      ∀ i x, t.threads[i]? = some x → t.shared.responseQueue.Holds t.shared.now i x.point := by
  refine Program.local_rule (I := fun n h => h.responseQueue.Sound n)
    (J := fun h i x => h.responseQueue.Holds h.now i x.point) ?_ ?_ ?_ ?_ ht
  · rintro h ⟨now, world, -, rfl⟩
    exact ⟨.nil, fun j hj => by cases hj⟩
  · intro n h request hs
    exact ⟨⟨hs.nodup, fun j hj => Nat.lt_succ_of_lt (hs.lt j hj)⟩,
      fun hj => Nat.lt_irrefl _ (hs.lt n hj)⟩
  · intro n i c h x hs hi hx
    obtain ⟨hs', hx', hothers⟩ := (act_access inner i c h x).queue hs hi hx
    exact ⟨hs', hx', fun j y hne hy => hothers j y.point hne hy⟩
  · intro t e hg hs
    cases e with
    | clock now => exact ⟨hs, fun j y hy => hy.clock hg⟩
    | recv =>
      exact ⟨hs.perm (List.Perm.of_eq ResponseQueue.senders_recv), fun j y hy => hy.recv⟩
    | tick => exact ⟨hs.perm (ResponseQueue.senders_tick _ _), fun j y hy => hy.tick⟩
    | _ => exact ⟨hs, fun j y hy => hy⟩

theorem ServerReach.queue_min (ht : ServerReach parts inner minResponseMs t) :
    t.shared.responseQueue.min = fromMillis minResponseMs := by
  refine (Program.local_rule (I := fun _ h => h.responseQueue.min = fromMillis minResponseMs)
    (J := fun _ _ _ => True) ?_ ?_ ?_ ?_ ht).1
  · rintro h ⟨now, world, -, rfl⟩
    rfl
  · intro _ _ _ hmin
    exact ⟨hmin, trivial⟩
  · intro _ i c h x hmin _ _
    refine ⟨?_, trivial, fun _ _ _ _ => trivial⟩
    rcases (act_access inner i c h x).responseQueue with ⟨hq, -⟩ | ⟨entry, hq, -⟩ | ⟨hq, -⟩ <;>
      exact (congrArg ResponseQueue.min hq).trans hmin
  · intro t e _ hmin
    refine ⟨?_, fun _ _ _ => trivial⟩
    cases e <;> exact hmin

/-! ## No request waits for ever -/

/-- The queue's task receives all messages, time passes, and it ticks. -/
def drain (t : Serving parts lib ω) (now : Instant) :
    List (Move (Request lib) Completion (ServerEvent ω)) :=
  List.replicate t.shared.responseQueue.channel.length (.env .recv) ++
    [.env (.clock now), .env .tick]

theorem run_recv (t : Serving parts lib ω) (n : ℕ) :
    (server parts inner minResponseMs).machine.run t (List.replicate n (.env .recv)) =
      { t with shared :=
          { t.shared with responseQueue := ResponseQueue.recv^[n] t.shared.responseQueue } } := by
  induction n generalizing t with
  | zero => rfl
  | succ n ih =>
    rw [List.replicate_succ]
    exact ih _

/-- After that, every request is released whose message was sent long enough ago. -/
theorem released_drain (t : Serving parts lib ω) {now : Instant}
    (hripe : ∀ m ∈ t.shared.responseQueue.messages,
      m.1 + t.shared.responseQueue.min ≤ now) {i : ℕ} (hi : i ∈ t.shared.responseQueue.senders) :
    i ∈ ((server parts inner minResponseMs).machine.run t
      (drain t now)).shared.responseQueue.released := by
  have hrun : ((server parts inner minResponseMs).machine.run t (drain t now)).shared.responseQueue
      = (ResponseQueue.recv^[t.shared.responseQueue.channel.length]
          t.shared.responseQueue).tick now := by
    rw [drain, Machine.run_append, run_recv]
    rfl
  rw [hrun]
  unfold ResponseQueue.tick
  rw [ResponseQueue.queue_recv_all, ResponseQueue.recv_iterate]
  dsimp only
  rw [ResponseQueue.releaseRipe_all hripe]
  exact List.mem_append.mpr ((List.mem_append.mp hi).symm)

theorem threads_drain (t : Serving parts lib ω) (now : Instant) :
    ((server parts inner minResponseMs).machine.run t (drain t now)).threads = t.threads := by
  rw [drain, Machine.run_append, run_recv]
  rfl

theorem along_drain (t : Serving parts lib ω) {now : Instant} (hnow : t.shared.now ≤ now) :
    (server parts inner minResponseMs).machine.Along (ServerRuns inner) t (drain t now) := by
  have hrecv : ∀ (n : ℕ) (t : Serving parts lib ω),
      (server parts inner minResponseMs).machine.Along (ServerRuns inner) t
        (List.replicate n (.env .recv)) := by
    intro n
    induction n with
    | zero => exact fun _ => trivial
    | succ n ih => exact fun _ => ⟨trivial, ih _⟩
  refine (hrecv _ t).append ?_
  rw [run_recv]
  exact ⟨hnow, trivial, trivial⟩

/-- The accesses that a request makes before it returns, at most. -/
def Point.left : Point → ℕ
  | .inflightAdd => 18
  | .anyQuery => 17
  | .srcLimit => 16
  | .globalLimit => 15
  | .zoneLimit => 14
  | .penaltyCheck => 13
  | .negCache => 12
  | .storageLimit => 11
  | .labels => 10
  | .enterQueue => 9
  | .sending _ => 8
  | .waiting _ => 7
  | .lookup => 6
  | .firstSeen => 5
  | .negInsert => 4
  | .bloomSet | .penaltyRead => 3
  | .firstSeenInvalidate | .firstSeenInsert | .penaltyWrite _ => 2
  | .inflightSub | .guardDrop _ => 1
  | .returned _ => 0

theorem Point.left_eq_zero (hp : p.left = 0) : ∃ exit, p = .returned exit := by
  cases p with
  | returned exit => exact ⟨exit, rfl⟩
  | _ => cases hp

/-- Every access brings the request closer to its return, but one that waits in vain. -/
theorem Access.left (ha : Access inner i h r p h' p') (hp : 0 < p.left)
    (hrel : ∀ entry, p = .waiting entry → i ∈ h.responseQueue.released) : p'.left < p.left := by
  cases ha with
  | done exit => exact absurd hp (Nat.lt_irrefl 0)
  | @sleep entry hnot => exact absurd (hrel entry rfl) hnot
  | _ => simp [Point.left]

/-- The moves of request `i`, of the clock and of the queue's task. -/
def ownMove (i : ℕ) : Move (Request lib) Completion (ServerEvent ω) → Bool
  | .act j _ => j = i
  | .env (.clock _) | .env .recv | .env .tick => true
  | _ => false

theorem ownMove_drain (t : Serving parts lib ω) (now : Instant) :
    ∀ m ∈ drain t now, ownMove i m = true := by
  intro m hm
  simp only [drain, List.mem_append, List.mem_replicate, List.mem_cons, List.not_mem_nil,
    or_false] at hm
  rcases hm with ⟨-, rfl⟩ | rfl | rfl <;> rfl

/-- A moment at which all messages are ripe. -/
theorem exists_ripe (messages : List (Instant × ℕ)) (now min : ℕ) :
    ∃ late : Instant, now ≤ late ∧ ∀ m ∈ messages, m.1 + min ≤ late := by
  refine ⟨now + (messages.map fun m => m.1 + min).sum, Nat.le_add_right _ _, fun m hm => ?_⟩
  have hle : m.1 + min ≤ (messages.map fun m : ℕ × ℕ => m.1 + min).sum :=
    List.le_sum_of_mem (List.mem_map_of_mem hm)
  exact hle.trans (Nat.le_add_left _ _)

/-- A request that has not returned makes an access after which it is closer to its return,
after moves of the clock and of the queue's task if it waits. -/
theorem ServerReach.advance (ht : ServerReach parts inner minResponseMs t) {x : Handling lib}
    (hx : t.threads[i]? = some x) (hleft : 0 < x.point.left) (c : Completion) :
    ∃ moves, (server parts inner minResponseMs).machine.Along (ServerRuns inner) t moves ∧
      (∀ m ∈ moves, ownMove i m = true) ∧
      ∃ y, ((server parts inner minResponseMs).machine.run t moves).threads[i]? = some y ∧
        y.point.left < x.point.left := by
  obtain ⟨hi, -⟩ := List.getElem?_eq_some_iff.mp hx
  -- the access itself, once the request is released if it waits
  have hstep : ∀ u : Serving parts lib ω, u.threads = t.threads →
      (∀ entry, x.point = .waiting entry → i ∈ u.shared.responseQueue.released) →
      ∃ y, ((server parts inner minResponseMs).machine.step u (.act i c)).threads[i]? = some y ∧
        y.point.left < x.point.left := by
    intro u hu hrel
    rw [← hu] at hx hi
    refine ⟨(act inner i c u.shared x).2, ?_, (act_access inner i c u.shared x).left hleft hrel⟩
    change ((server parts inner minResponseMs).step u (.act i c)).threads[i]? = _
    rw [Program.step_act hx]
    exact List.getElem?_set_self hi
  by_cases hwait : ∃ entry, x.point = .waiting entry
  · obtain ⟨entry, hpoint⟩ := hwait
    have hsent : i ∈ t.shared.responseQueue.senders := by
      have hholds := ht.queue.2 i x hx
      rw [hpoint] at hholds
      rcases hholds with hm | ⟨hreleased, -⟩
      · exact ResponseQueue.mem_senders_of_mem hm
      · exact List.mem_append_right _ hreleased
    obtain ⟨late, hlate, hripe⟩ :=
      exists_ripe t.shared.responseQueue.messages t.shared.now t.shared.responseQueue.min
    refine ⟨drain t late ++ [.act i c], (along_drain t hlate).append ?_, ?_, ?_⟩
    · exact ⟨trivial, trivial⟩
    · intro m hm
      rcases List.mem_append.mp hm with hm | hm
      · exact ownMove_drain t late m hm
      · rw [List.mem_singleton.mp hm]
        exact decide_eq_true rfl
    · rw [Machine.run_append]
      exact hstep _ (threads_drain t late) fun _ _ => released_drain t hripe hsent
  · refine ⟨[.act i c], ⟨trivial, trivial⟩, fun m hm => ?_, ?_⟩
    · rw [List.mem_singleton.mp hm]
      exact decide_eq_true rfl
    · exact hstep t rfl fun entry hpoint => absurd ⟨entry, hpoint⟩ hwait

end PnsPallets
