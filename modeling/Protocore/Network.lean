import Mathlib.Data.Fintype.Basic
import Protocore.Broadcast
import Protocore.Simulation

/-! # The network

What the broker and the queues are for: tasks subscribe to types, a published message goes to the live
subscribers of its type one after the other, and each task takes what it has received by priority, first
come, first served.  `Network` says this with lists of live subscribers and lists of messages.

Below it, `BroadcastSystem` has an iterator over vectors of weak pointers that are cleaned up when a
broadcast comes across them, heaps of node pointers, a counter of 32 bits and the blocks of a pool.
`refines_network`: what can be seen of it (deliveries, and what each `dequeue` returns) is a run of the
network, as long as no counter wraps. -/

namespace Protocore

/-- The live subscribers, the broadcast in progress with those who are still to receive it, and for each
task what it has received and not taken, how much of that it can keep, and whether it is shut down. -/
@[ext]
structure Network (τ : Type) where
  capacity : τ → ℕ
  alive : τ → Bool
  subs : MsgType → List τ
  sub : Option (Msg τ × List τ)
  queue : τ → List (Msg τ)
  down : τ → Bool

/-- What can be seen from outside. -/
inductive NetworkEvent (τ : Type) where
  | subscribe (task : τ) (type : MsgType)
  | expire (task : τ)
  | publish (msg : Msg τ)
  | deliver
  | finish
  | send (target : τ) (msg : Msg τ)
  | dequeue (task : τ) (result : Option (Msg τ))
  | tryDequeue (task : τ) (result : Option (Msg τ))
  | notifyShutdown (task : τ)

namespace Network

variable {τ : Type} [DecidableEq τ]

/-- Nobody has subscribed and nothing has been sent. -/
def start (capacity : τ → ℕ) : Network τ :=
  ⟨capacity, fun _ => true, fun _ => [], none, fun _ => [], fun _ => false⟩

/-- The message reaches the queue of the target, if there is room. -/
def receive (n : Network τ) (target : τ) (msg : Msg τ) : Option (Network τ) :=
  if (n.queue target).length < n.capacity target then
    some { n with queue := Function.update n.queue target (n.queue target ++ [msg]) }
  else none

/-- The task takes its first message of the highest priority; `null` says when it gets none. -/
def take (n : Network τ) (task : τ) (result : Option (Msg τ)) (null : Bool) : Option (Network τ) :=
  match StableQueue.pop Msg.getPriority (n.queue task) with
  | some (msg, rest) =>
      if result = some msg then some { n with queue := Function.update n.queue task rest } else none
  | none => if result = none ∧ null then some n else none

/-- One step. -/
def step (n : Network τ) : NetworkEvent τ → Option (Network τ)
  | .subscribe task type =>
      if n.sub.isNone ∧ n.alive task then
        some { n with
          subs := Function.update n.subs type
            (if task ∈ n.subs type then n.subs type else n.subs type ++ [task]) }
      else none
  | .expire task =>
      if n.alive task then
        some { n with
          alive := Function.update n.alive task false
          subs := fun type => (n.subs type).filter (fun t => decide (t ≠ task))
          sub := n.sub.map (fun d => (d.1, d.2.filter (fun t => decide (t ≠ task)))) }
      else none
  | .publish msg =>
      if n.sub.isNone then some { n with sub := some (msg, n.subs msg.getType) } else none
  | .deliver =>
      match n.sub with
      | some (msg, t :: rest) => (n.receive t msg).map (fun n' => { n' with sub := some (msg, rest) })
      | _ => none
  | .finish =>
      match n.sub with
      | some (_, []) => some { n with sub := none }
      | _ => none
  | .send target msg => if n.alive target then n.receive target msg else none
  | .dequeue task result => n.take task result (n.down task)
  | .tryDequeue task result => n.take task result (!n.down task)
  | .notifyShutdown task => some { n with down := Function.update n.down task true }

end Network

/-! ### One queue, call by call -/

namespace QueueSystem

section calls

variable {μ : Type} {prio : μ → ℕ} {rep : Node μ → ℕ → UInt8} {n : ℕ} {s s' : QueueSystem μ}

/-- The messages that wait, in order of arrival. -/
def messages (s : QueueSystem μ) : List μ := s.pending.map Prod.fst

/-- No call is under way. -/
structure Between (prio : μ → ℕ) (n : ℕ) (s : QueueSystem μ) : Prop where
  blocks : Blocks n s
  ordered : Ordered prio s
  held : s.held = []
  popped : s.popped = none

theorem Between.length_messages (h : Between prio n s) : s.messages.length = s.q.queue.size := by
  have hvector := h.ordered.vector.length_eq
  rw [List.length_map, Array.length_toList] at hvector
  rw [messages, List.length_map, ← hvector]

theorem Between.messages_eq_nil (h : Between prio n s) (h0 : s.q.queue.size = 0) :
    s.messages = [] := by
  apply List.eq_nil_of_length_eq_zero
  rw [h.length_messages, h0]

theorem Between.room (h : Between prio n s) {raw : ℕ} {q : MessageQueue μ}
    (halloc : s.q.allocateNode = .ok (raw, q)) : s.messages.length < n := by
  have hcapacity := h.blocks.conserved.capacity
  have hfull : s.q.queue.size ≠ n := by
    intro hsize
    have hassert := h.blocks.conserved.assertion.mpr
      (by simp [h.held, poppedNodes, h.popped, hsize])
    rw [halloc] at hassert
    cases hassert
  rw [h.length_messages]
  omega

theorem Between.enqueueCall (h : Between prio n s) {message : μ}
    (hs : enqueueCall prio rep s message = some s') (hw : s'.sinceReset < 2 ^ 32) :
    Between prio n s' ∧ s'.messages = s.messages ++ [message] ∧ s.messages.length < n ∧
      s'.q.shutdown = s.q.shutdown := by
  unfold QueueSystem.enqueueCall at hs
  split at hs
  · rename_i raw q halloc
    obtain ⟨s₁, hallocate, hrest⟩ := run_cons_eq_some.mp hs
    obtain ⟨s₂, hpush, hend⟩ := run_cons_eq_some.mp hrest
    obtain rfl := Option.some.inj hend
    have hinv₁ := step_inv s .allocate s₁ ⟨h.blocks, h.ordered⟩ (by simp [NoWrap]) hallocate
    simp only [step, halloc] at hallocate
    obtain rfl := Option.some.inj hallocate
    have hpush' := hpush
    simp only [step, h.popped, h.held, Option.isNone_none, List.mem_cons_self, and_self,
      if_true] at hpush'
    obtain rfl := Option.some.inj hpush'
    obtain ⟨hb, ho⟩ := step_inv _ (.push raw message) _ hinv₁ (fun _ _ _ => hw) hpush
    obtain ⟨pool, rfl⟩ := MessageQueue.allocateNode_frame halloc
    have hpending : (pushed prio rep _ raw message).pending = _ :=
      pushed_pending hinv₁.2.arranged raw message
    refine ⟨⟨hb, ho, by simp, rfl⟩, ?_, h.room halloc, rfl⟩
    have hmessages := congrArg (List.map Prod.fst) hpending
    rw [List.map_append] at hmessages
    exact hmessages
  · cases hs

/-- What `dequeue` and `try_dequeue` return. -/
def answered : Except Fault (Taken μ) → Option μ
  | .ok (.node _ message _) => some message
  | _ => none

/-- The second half of a call that takes a message. -/
theorem Between.release {p : ℕ} {q : MessageQueue μ} {k : ℕ} (hheld : s.held = [])
    (hinv : Blocks n (taken s p q k) ∧ Ordered prio (taken s p q k))
    (hs : step prio rep (taken s p q k) .release = some s') :
    Between prio n s' ∧ s'.pending = (taken s p q k).pending ∧ s'.q.shutdown = q.shutdown := by
  obtain ⟨hb, ho⟩ := step_inv _ .release s' hinv (by simp [NoWrap]) hs
  obtain ⟨pool, hrelease⟩ := step_release_taken prio rep hinv.1
  obtain rfl := Option.some.inj (hrelease.symm.trans hs)
  exact ⟨⟨hb, ho, hheld, rfl⟩, rfl, rfl⟩

/-- A node has been popped: its message is the first of the highest priority. -/
theorem Between.take (h : Between prio n s) {e : QueueEvent μ} {p : ℕ} {q : MessageQueue μ} {k : ℕ}
    (he : e = .dequeue ∨ e = .tryDequeue) (hpops : s.q.Pops prio p q)
    (hstep : step prio rep s e = some (taken s p q k))
    (hs : consumerCall prio rep s e = some s') :
    Between prio n s' ∧ s'.q.shutdown = s.q.shutdown ∧
      StableQueue.pop prio s.messages = some ((s.q.nodes p).message, s'.messages) := by
  have hwrap : NoWrap s e := by
    rintro raw message rfl
    rcases he with he | he <;> cases he
  have hinv := step_inv s e _ ⟨h.blocks, h.ordered⟩ hwrap hstep
  have hsome : (taken s p q k).popped.isSome = true := rfl
  unfold consumerCall at hs
  rw [hstep, Option.bind_some, if_pos hsome] at hs
  obtain ⟨hbetween, hpending, hdown⟩ := Between.release h.held hinv hs
  refine ⟨hbetween, hdown.trans hpops.shutdown, ?_⟩
  have hpop := StableQueue.pop_map prio Prod.fst (h.ordered.arranged.pop hpops k)
  rw [← hpending] at hpop
  exact hpop

/-- `dequeue` returns the first message of the highest priority, or nothing after a shutdown. -/
theorem Between.dequeueCall (h : Between prio n s)
    (hs : consumerCall prio rep s .dequeue = some s') :
    Between prio n s' ∧ s'.q.shutdown = s.q.shutdown ∧
      ((∃ message, answered (s.q.dequeuePop prio) = some message ∧
          StableQueue.pop prio s.messages = some (message, s'.messages)) ∨
        (answered (s.q.dequeuePop prio) = none ∧ s.messages = [] ∧ s'.messages = s.messages ∧
          s.q.shutdown = true)) := by
  rcases s.q.dequeuePop_cases prio with ⟨-, -, hd⟩ | ⟨h0, hdown, hd⟩ | ⟨-, p, q, hd, hpops, -⟩
  · simp [consumerCall, step, h.popped, hd] at hs
  · have hstep : step prio rep s .dequeue =
        some { s with q := { s.q with sequence := 0 }, sinceReset := 0 } := by
      simp only [step, h.popped, Option.isNone_none, if_true, hd]
    obtain ⟨hb, ho⟩ := step_inv s .dequeue _ ⟨h.blocks, h.ordered⟩ (by simp [NoWrap]) hstep
    unfold consumerCall at hs
    rw [hstep, Option.bind_some, if_neg (by simp [h.popped])] at hs
    obtain rfl := Option.some.inj hs
    exact ⟨⟨hb, ho, h.held, h.popped⟩, rfl, .inr ⟨by rw [hd]; rfl, h.messages_eq_nil h0, rfl, hdown⟩⟩
  · have hstep : step prio rep s .dequeue =
        some (taken s p q (if q.queue.size = 0 then 0 else s.sinceReset)) := by
      simp only [step, h.popped, Option.isNone_none, if_true, hd, taken]
    obtain ⟨hbetween, hdown, hpop⟩ := h.take (.inl rfl) hpops hstep hs
    exact ⟨hbetween, hdown, .inl ⟨_, by rw [hd]; rfl, hpop⟩⟩

/-- `try_dequeue` too, and nothing when its time is over on a queue that is empty. -/
theorem Between.tryDequeueCall (h : Between prio n s)
    (hs : consumerCall prio rep s .tryDequeue = some s') :
    Between prio n s' ∧ s'.q.shutdown = s.q.shutdown ∧
      ((∃ message, answered (s.q.tryDequeuePop prio) = some message ∧
          StableQueue.pop prio s.messages = some (message, s'.messages)) ∨
        (answered (s.q.tryDequeuePop prio) = none ∧ s.messages = [] ∧ s'.messages = s.messages ∧
          s.q.shutdown = false)) := by
  rcases s.q.tryDequeuePop_cases prio with ⟨h0, hup, hd⟩ | ⟨-, -, hd⟩ | ⟨-, p, q, hd, hpops, -⟩
  · have hstep : step prio rep s .tryDequeue = some s := by
      simp only [step, hd]
      rw [if_pos (by simp [h.popped])]
    unfold consumerCall at hs
    rw [hstep, Option.bind_some, if_neg (by simp [h.popped])] at hs
    obtain rfl := Option.some.inj hs
    exact ⟨h, rfl, .inr ⟨by rw [hd]; rfl, h.messages_eq_nil h0, rfl, hup⟩⟩
  · simp [consumerCall, step, h.popped, hd] at hs
  · have hstep : step prio rep s .tryDequeue = some (taken s p q s.sinceReset) := by
      simp only [step, h.popped, Option.isNone_none, if_true, hd, taken]
    obtain ⟨hbetween, hdown, hpop⟩ := h.take (.inr rfl) hpops hstep hs
    exact ⟨hbetween, hdown, .inl ⟨_, by rw [hd]; rfl, hpop⟩⟩

theorem Between.shutdownCall (h : Between prio n s)
    (hs : consumerCall prio rep s .notifyShutdown = some s') :
    Between prio n s' ∧ s'.messages = s.messages ∧ s'.q.shutdown = true := by
  have hstep : step prio rep s .notifyShutdown = some { s with q := s.q.notifyShutdown } := by
    simp only [step, h.popped, Option.isNone_none, if_true]
  obtain ⟨hb, ho⟩ := step_inv s .notifyShutdown _ ⟨h.blocks, h.ordered⟩ (by simp [NoWrap]) hstep
  unfold consumerCall at hs
  rw [hstep, Option.bind_some, if_neg (by simp [h.popped])] at hs
  obtain rfl := Option.some.inj hs
  exact ⟨⟨hb, ho, h.held, h.popped⟩, rfl, rfl⟩

end calls

end QueueSystem

/-! ### The network of the broker and the queues -/

namespace BroadcastSystem

variable {τ : Type} [DecidableEq τ] {rep : Node (Msg τ) → ℕ → UInt8} {capacity : τ → ℕ}
  {s s' : BroadcastSystem τ}

/-- The network behind the iterator, the heaps and the pools. -/
def view (capacity : τ → ℕ) (s : BroadcastSystem τ) : Network τ where
  capacity := capacity
  alive := s.broker.alive
  subs type := (s.broker.list type).filter s.broker.alive
  sub := s.broker.publishing.map (fun c =>
    (c.msg, ((s.broker.list c.msg.getType).drop c.it).filter s.broker.alive))
  queue t := (s.queues t).messages
  down t := (s.queues t).q.shutdown

/-- What is seen of a step.  The entry of a task that has expired is erased unseen. -/
def seen (s : BroadcastSystem τ) : BroadcastEvent τ → List (NetworkEvent τ)
  | .broker (.brokerInitialize _) => []
  | .broker (.subscribe task type) => [.subscribe task type]
  | .broker (.publish msg) => [.publish msg]
  | .broker .iterate =>
      match s.broker.publishing.bind (fun c => (s.broker.list c.msg.getType)[c.it]?) with
      | some t => if s.broker.alive t then [.deliver] else []
      | none => []
  | .broker .finish => [.finish]
  | .broker (.expire task) => [.expire task]
  | .deliver target msg => [.send target msg]
  | .dequeue task =>
      [.dequeue task (QueueSystem.answered ((s.queues task).q.dequeuePop Msg.getPriority))]
  | .tryDequeue task =>
      [.tryDequeue task (QueueSystem.answered ((s.queues task).q.tryDequeuePop Msg.getPriority))]
  | .notifyShutdown task => [.notifyShutdown task]

/-- No call on a queue is under way. -/
def Calm (capacity : τ → ℕ) (s : BroadcastSystem τ) : Prop :=
  ∀ t, QueueSystem.Between Msg.getPriority (capacity t) (s.queues t)

/-- No counter wraps in the step. -/
def AllUnwrapped (rep : Node (Msg τ) → ℕ → UInt8) (s : BroadcastSystem τ) (e : BroadcastEvent τ) :
    Prop :=
  ∀ task, Unwrapped rep task s e

theorem Calm.update (h : Calm capacity s) {x : τ} {q : QueueSystem (Msg τ)}
    (hq : QueueSystem.Between Msg.getPriority (capacity x) q)
    (hqueues : s'.queues = Function.update s.queues x q) : Calm capacity s' := by
  intro t
  rw [hqueues]
  by_cases ht : t = x
  · subst ht
    rwa [Function.update_self]
  · rw [Function.update_of_ne ht]
    exact h t

theorem messages_update (s : BroadcastSystem τ) (x : τ) (q : QueueSystem (Msg τ)) :
    (fun t => (Function.update s.queues x q t).messages) =
      Function.update (fun t => (s.queues t).messages) x q.messages := by
  funext t
  exact Function.apply_update (fun _ => QueueSystem.messages) s.queues x q t

theorem shutdown_update (s : BroadcastSystem τ) (x : τ) (q : QueueSystem (Msg τ)) :
    (fun t => (Function.update s.queues x q t).q.shutdown) =
      Function.update (fun t => (s.queues t).q.shutdown) x q.q.shutdown := by
  funext t
  exact Function.apply_update (fun _ (p : QueueSystem (Msg τ)) => p.q.shutdown) s.queues x q t

theorem view_queue (hbroker : s'.broker = s.broker) {x : τ} {q : QueueSystem (Msg τ)}
    (hqueues : s'.queues = Function.update s.queues x q) :
    s'.view capacity = { s.view capacity with
      queue := Function.update (s.view capacity).queue x q.messages
      down := Function.update (s.view capacity).down x q.q.shutdown } := by
  unfold view
  rw [hbroker, hqueues, messages_update, shutdown_update]

/-! ### The queues -/

theorem deliverMessage_view (h : Calm capacity s) {target : τ} {msg : Msg τ} {call : Option ℕ}
    (hs : deliverMessage rep s target msg call = some s')
    (hw : (s'.queues target).sinceReset < 2 ^ 32) :
    Calm capacity s' ∧ (s.view capacity).receive target msg = some (s'.view capacity) := by
  obtain ⟨q, hq, hs'⟩ := Option.map_eq_some_iff.mp hs
  have hqueues : s'.queues = Function.update s.queues target q := by rw [← hs']
  have hbroker : s'.broker = s.broker := by rw [← hs']
  rw [hqueues, Function.update_self] at hw
  obtain ⟨hbetween, hmessages, hroom, hdown⟩ := (h target).enqueueCall hq hw
  refine ⟨h.update hbetween hqueues, ?_⟩
  have hroom' : ((s.view capacity).queue target).length < (s.view capacity).capacity target := hroom
  have hsame : Function.update (s.view capacity).down target q.q.shutdown = (s.view capacity).down := by
    rw [hdown]
    exact Function.update_eq_self target _
  rw [view_queue hbroker hqueues, hsame, hmessages]
  unfold Network.receive
  rw [if_pos hroom']
  rfl

theorem take_view {x : τ} {q : QueueSystem (Msg τ)} {result : Option (Msg τ)} {null : Bool}
    (hdown : q.q.shutdown = (s.queues x).q.shutdown)
    (hresult : (∃ msg, result = some msg ∧
        StableQueue.pop Msg.getPriority (s.queues x).messages = some (msg, q.messages)) ∨
      (result = none ∧ (s.queues x).messages = [] ∧ q.messages = (s.queues x).messages ∧ null = true))
    (hbroker : s'.broker = s.broker) (hqueues : s'.queues = Function.update s.queues x q) :
    (s.view capacity).take x result null = some (s'.view capacity) := by
  rw [view_queue hbroker hqueues]
  have hsame : Function.update (s.view capacity).down x q.q.shutdown = (s.view capacity).down := by
    rw [hdown]
    exact Function.update_eq_self x _
  rw [hsame]
  unfold Network.take
  rcases hresult with ⟨msg, rfl, hpop⟩ | ⟨rfl, hnil, hmessages, rfl⟩
  · have hpop' : StableQueue.pop Msg.getPriority ((s.view capacity).queue x) = some (msg, q.messages) :=
      hpop
    rw [hpop']
    simp only [if_true]
  · have hpop' : StableQueue.pop Msg.getPriority ((s.view capacity).queue x) = none :=
      (StableQueue.pop_eq_none_iff _).mpr hnil
    rw [hpop', hmessages]
    simp only [and_self, if_true]
    have hqueue : Function.update (s.view capacity).queue x (s.queues x).messages =
        (s.view capacity).queue := Function.update_eq_self x _
    rw [hqueue]

/-! ### The broker -/

theorem follow_of_log {b : BrokerSystem τ} (hs : follow rep s b = some s')
    (hlog : b.log = s.broker.log) : s' = { s with broker := b } := by
  unfold follow at hs
  rw [hlog, List.drop_length] at hs
  exact (Option.some.inj hs).symm

theorem subscribe_view (capacity : τ → ℕ) {task : τ} {type : MsgType} {b : BrokerSystem τ}
    (hb : BrokerSystem.step s.broker (.subscribe task type) = some b) :
    b.log = s.broker.log ∧
      (s.view capacity).step (.subscribe task type) = some (view capacity { s with broker := b }) := by
  simp only [BrokerSystem.step] at hb
  split_ifs at hb with hfree
  obtain ⟨hnone, halive⟩ := hfree
  rw [Option.isNone_iff_eq_none] at hnone
  have hguard : (s.view capacity).sub.isNone = true ∧ (s.view capacity).alive task = true := by
    simp [view, hnone, halive]
  simp only [Broker.subscribe] at hb
  by_cases hready : s.broker.broker.initialized = true
  · rw [if_pos hready] at hb
    by_cases hany : (s.broker.broker.subscriberLists type).any
        (fun wp => s.broker.alive wp && decide (wp = task)) = true
    · rw [if_pos hany] at hb
      obtain rfl := Option.some.inj hb
      have hmem : task ∈ (s.view capacity).subs type := by
        obtain ⟨wp, hwp, hand⟩ := List.any_eq_true.mp hany
        simp only [Bool.and_eq_true, decide_eq_true_eq] at hand
        obtain ⟨hal, rfl⟩ := hand
        exact List.mem_filter.mpr ⟨hwp, hal⟩
      refine ⟨rfl, ?_⟩
      simp only [Network.step]
      rw [if_pos hguard, if_pos hmem, Function.update_eq_self]
    · rw [if_neg hany] at hb
      obtain rfl := Option.some.inj hb
      have hnew : task ∉ (s.view capacity).subs type := by
        intro hmem
        obtain ⟨hin, hal⟩ := List.mem_filter.mp hmem
        exact hany (List.any_eq_true.mpr ⟨task, hin, by simp [hal]⟩)
      refine ⟨rfl, ?_⟩
      simp only [Network.step]
      rw [if_pos hguard, if_neg hnew]
      congr 1
      ext1
      · rfl
      · rfl
      · funext ty
        by_cases hty : ty = type
        · subst hty
          simp [view, BrokerSystem.list, Broker.setList, halive]
        · simp [view, BrokerSystem.list, Broker.setList, hty]
      · simp [view, hnone]
      · rfl
      · rfl
  · rw [if_neg hready] at hb
    cases hb

theorem expire_view (capacity : τ → ℕ) {task : τ} {b : BrokerSystem τ}
    (hb : BrokerSystem.step s.broker (.expire task) = some b) :
    b.log = s.broker.log ∧
      (s.view capacity).step (.expire task) = some (view capacity { s with broker := b }) := by
  simp only [BrokerSystem.step] at hb
  split_ifs at hb with halive
  obtain rfl := Option.some.inj hb
  have hfilter : ∀ l : List τ,
      l.filter (fun t => if t = task then false else s.broker.alive t) =
        (l.filter s.broker.alive).filter (fun t => decide (t ≠ task)) := by
    intro l
    rw [List.filter_filter]
    apply List.filter_congr
    intro t _
    by_cases ht : t = task <;> simp [ht]
  refine ⟨rfl, ?_⟩
  have hguard : (s.view capacity).alive task = true := halive
  simp only [Network.step]
  rw [if_pos hguard]
  congr 1
  ext1
  · rfl
  · funext t
    by_cases ht : t = task <;> simp [view, Function.update, ht]
  · funext type
    exact (hfilter _).symm
  · simp only [view, Option.map_map]
    apply congrFun
    apply congrArg
    funext c
    exact congrArg (Prod.mk c.msg) (hfilter _).symm
  · rfl
  · rfl

theorem publish_view {msg : Msg τ} {b : BrokerSystem τ}
    (hb : BrokerSystem.step s.broker (.publish msg) = some b) :
    (s.view capacity).step (.publish msg) = some (view capacity { s with
      broker := b, published := s.published ++ [(s.broker, msg)] }) := by
  simp only [BrokerSystem.step] at hb
  split_ifs at hb with hfree
  obtain rfl := Option.some.inj hb
  have hguard : (s.view capacity).sub.isNone = true := by
    simpa [view] using hfree.1
  simp only [Network.step]
  rw [if_pos hguard]
  rfl

theorem finish_view (capacity : τ → ℕ) {b : BrokerSystem τ}
    (hb : BrokerSystem.step s.broker .finish = some b) :
    b.log = s.broker.log ∧
      (s.view capacity).step .finish = some (view capacity { s with broker := b }) := by
  simp only [BrokerSystem.step] at hb
  split at hb
  · cases hb
  · rename_i c hc
    split_ifs at hb with hend
    obtain rfl := Option.some.inj hb
    refine ⟨rfl, ?_⟩
    have hsub : (s.view capacity).sub = some (c.msg, []) := by
      simp [view, hc, List.drop_eq_nil_of_le hend]
    simp only [Network.step, hsub]
    rfl

theorem receive_sub (n : Network τ) (d : Option (Msg τ × List τ)) (target : τ) (msg : Msg τ) :
    ({ n with sub := d } : Network τ).receive target msg =
      (n.receive target msg).map (fun n' => { n' with sub := d }) := by
  unfold Network.receive
  split_ifs
  · rfl
  · rfl

theorem iterate_deliver (h : Calm capacity s) {c : Publishing τ} {t : τ}
    (hc : s.broker.publishing = some c) (ht : (s.broker.list c.msg.getType)[c.it]? = some t)
    (hal : s.broker.alive t = true) {call : Option ℕ}
    (hs : deliverMessage rep { s with broker := { s.broker with
      log := s.broker.log ++ [(t, c.msg)]
      publishing := some { c with it := c.it + 1, visits := c.visits ++ [(t, true)] } } } t c.msg call =
        some s') (hw : (s'.queues t).sinceReset < 2 ^ 32) :
    Calm capacity s' ∧ (s.view capacity).step .deliver = some (s'.view capacity) := by
  have hdelivered := fun hcalm : Calm capacity _ => deliverMessage_view hcalm hs hw
  obtain ⟨hcalm, hreceive⟩ := hdelivered h
  refine ⟨hcalm, ?_⟩
  obtain ⟨hlt, hget⟩ := List.getElem?_eq_some_iff.mp ht
  have hsub : (s.view capacity).sub =
      some (c.msg, t :: ((s.broker.list c.msg.getType).drop (c.it + 1)).filter s.broker.alive) := by
    simp [view, hc, List.drop_eq_getElem_cons hlt, hget, hal]
  simp only [Network.step, hsub]
  rw [← receive_sub]
  exact hreceive

omit [DecidableEq τ] in
/-- An entry that the filter drops may be erased before. -/
theorem filter_eraseIdx {l : List τ} {i : ℕ} {t : τ} {p : τ → Bool} (ht : l[i]? = some t)
    (hp : p t = false) : (l.eraseIdx i).filter p = l.filter p := by
  obtain ⟨hlt, hget⟩ := List.getElem?_eq_some_iff.mp ht
  have hdrop : l.drop i = t :: l.drop (i + 1) := by rw [List.drop_eq_getElem_cons hlt, hget]
  have hsplit : l.filter p = (l.take i ++ l.drop i).filter p := by rw [List.take_append_drop]
  rw [hsplit, hdrop, List.eraseIdx_eq_take_drop_succ, List.filter_append, List.filter_append,
    List.filter_cons, hp]
  rfl

omit [DecidableEq τ] in
theorem drop_eraseIdx {l : List τ} {i : ℕ} (hlt : i < l.length) :
    (l.eraseIdx i).drop i = l.drop (i + 1) := by
  have hlength : (l.take i).length = i := List.length_take_of_le (Nat.le_of_lt hlt)
  rw [List.eraseIdx_eq_take_drop_succ]
  exact List.drop_left' hlength

omit [DecidableEq τ] in
/-- One that finds none erases the entry, and nothing is seen. -/
theorem iterate_erase {c : Publishing τ} {t : τ} (hc : s.broker.publishing = some c)
    (ht : (s.broker.list c.msg.getType)[c.it]? = some t) (hal : s.broker.alive t = false) :
    view capacity { s with broker := { s.broker with
      broker := s.broker.broker.setList c.msg.getType
        ((s.broker.list c.msg.getType).eraseIdx c.it)
      publishing := some { c with visits := c.visits ++ [(t, false)] } } } = s.view capacity := by
  obtain ⟨hlt, hget⟩ := List.getElem?_eq_some_iff.mp ht
  have hdrop : ((s.broker.list c.msg.getType).drop c.it).filter s.broker.alive =
      ((s.broker.list c.msg.getType).drop (c.it + 1)).filter s.broker.alive := by
    rw [List.drop_eq_getElem_cons hlt, hget, List.filter_cons, hal]
    rfl
  ext1
  · rfl
  · rfl
  · funext type
    by_cases htype : type = c.msg.getType
    · subst htype
      simp only [view, BrokerSystem.list, BrokerSystem.setList_list, if_true]
      exact filter_eraseIdx ht hal
    · simp only [view, BrokerSystem.list, BrokerSystem.setList_list, if_neg htype]
  · have herased : (((s.broker.list c.msg.getType).eraseIdx c.it).drop c.it).filter s.broker.alive =
        ((s.broker.list c.msg.getType).drop c.it).filter s.broker.alive := by
      rw [drop_eraseIdx hlt, hdrop]
    simp only [view, hc, Option.map_some, BrokerSystem.list, BrokerSystem.setList_list, if_true]
    exact congrArg (fun l => some (c.msg, l)) herased
  · rfl
  · rfl

/-! ### Every step -/

theorem run_single {n n' : Network τ} {e : NetworkEvent τ} (h : n.step e = some n') :
    run Network.step n [e] = some n' :=
  run_cons_eq_some.mpr ⟨n', h, rfl⟩

theorem broker_view (h : Calm capacity s) {e : BrokerEvent τ} {b : BrokerSystem τ}
    (he : ∀ msg, e ≠ .publish msg) (hb : BrokerSystem.step s.broker e = some b)
    (hs : follow rep s b = some s') (hw : ∀ t, (s'.queues t).sinceReset < 2 ^ 32) :
    Calm capacity s' ∧
      run Network.step (s.view capacity) (s.seen (.broker e)) = some (s'.view capacity) := by
  cases e with
  | brokerInitialize k =>
      cases BrokerSystem.step_moves hb with
      | brokerInitialize hfree =>
          obtain rfl := follow_of_log hs rfl
          exact ⟨h, rfl⟩
  | subscribe task type =>
      obtain ⟨hlog, hstep⟩ := subscribe_view capacity hb
      obtain rfl := follow_of_log hs hlog
      exact ⟨h, run_single hstep⟩
  | publish msg => exact absurd rfl (he msg)
  | iterate =>
      cases BrokerSystem.step_moves hb with
      | @deliver c t hc ht hal =>
          unfold follow at hs
          rw [List.drop_left] at hs
          obtain ⟨hcalm, hstep⟩ := iterate_deliver h hc ht hal hs (hw t)
          refine ⟨hcalm, ?_⟩
          simp only [seen, hc, Option.bind_some, ht, hal, if_true]
          exact run_single hstep
      | @erase c t hc ht hal =>
          obtain rfl := follow_of_log hs rfl
          refine ⟨h, ?_⟩
          rw [iterate_erase hc ht hal]
          simp [seen, hc, ht, hal]
  | finish =>
      obtain ⟨hlog, hstep⟩ := finish_view capacity hb
      obtain rfl := follow_of_log hs hlog
      exact ⟨h, run_single hstep⟩
  | expire task =>
      obtain ⟨hlog, hstep⟩ := expire_view capacity hb
      obtain rfl := follow_of_log hs hlog
      exact ⟨h, run_single hstep⟩

theorem step_view (h : Calm capacity s) {e : BroadcastEvent τ} (hw : AllUnwrapped rep s e)
    (hs : step rep s e = some s') :
    Calm capacity s' ∧ run Network.step (s.view capacity) (s.seen e) = some (s'.view capacity) := by
  have hw' : ∀ t, (s'.queues t).sinceReset < 2 ^ 32 := fun t => hw t s' hs
  cases e with
  | broker e =>
      by_cases hpublish : ∃ msg, e = .publish msg
      · obtain ⟨msg, rfl⟩ := hpublish
        obtain ⟨b, hb, rfl⟩ := Option.map_eq_some_iff.mp hs
        exact ⟨h, run_single (publish_view hb)⟩
      · rw [not_exists] at hpublish
        have hbind : (BrokerSystem.step s.broker e).bind (follow rep s) = some s' := by
          cases e with
          | publish msg => exact absurd rfl (hpublish msg)
          | _ => exact hs
        obtain ⟨b, hb, hfollow⟩ := Option.bind_eq_some_iff.mp hbind
        exact broker_view h hpublish hb hfollow hw'
  | deliver target msg =>
      simp only [step] at hs
      split_ifs at hs with halive
      obtain ⟨hcalm, hreceive⟩ := deliverMessage_view h hs (hw' target)
      refine ⟨hcalm, run_single ?_⟩
      have hguard : (s.view capacity).alive target = true := halive
      simp only [Network.step]
      rw [if_pos hguard]
      exact hreceive
  | dequeue task =>
      obtain ⟨q, hq, rfl⟩ := Option.map_eq_some_iff.mp hs
      obtain ⟨hbetween, hdown, hresult⟩ := (h task).dequeueCall hq
      exact ⟨h.update hbetween rfl, run_single (take_view hdown hresult rfl rfl)⟩
  | tryDequeue task =>
      obtain ⟨q, hq, rfl⟩ := Option.map_eq_some_iff.mp hs
      obtain ⟨hbetween, hdown, hresult⟩ := (h task).tryDequeueCall hq
      refine ⟨h.update hbetween rfl, run_single (take_view hdown ?_ rfl rfl)⟩
      rcases hresult with hsome | ⟨hnone, hnil, hmessages, hup⟩
      · exact .inl hsome
      · exact .inr ⟨hnone, hnil, hmessages, by simp [view, hup]⟩
  | notifyShutdown task =>
      obtain ⟨q, hq, hs'⟩ := Option.map_eq_some_iff.mp hs
      have hqueues : s'.queues = Function.update s.queues task q := by rw [← hs']
      have hbroker : s'.broker = s.broker := by rw [← hs']
      obtain ⟨hbetween, hmessages, hdown⟩ := (h task).shutdownCall hq
      refine ⟨h.update hbetween hqueues, run_single ?_⟩
      have hqueue : Function.update (s.view capacity).queue task (s.queues task).messages =
          (s.view capacity).queue := Function.update_eq_self task _
      rw [view_queue hbroker hqueues, hmessages, hdown, hqueue]
      rfl

/-- The network explains the broker and the queues, step by step. -/
theorem simulates_network (capacity : τ → ℕ) :
    Simulates (step rep) Network.step (Calm capacity) (AllUnwrapped rep) seen (view capacity) where
  keeps _ _ _ h hw hs := (step_view h hw hs).1
  explains _ _ _ h hw hs := (step_view h hw hs).2

omit [DecidableEq τ] in
theorem Created.between {q : MessageQueue (Msg τ)} (h : Created q) :
    QueueSystem.Between Msg.getPriority q.pool.blockCount (QueueSystem.init q) ∧
      q.shutdown = false := by
  obtain ⟨msgSize, maxMsgs, base, m, nodes, hs, hc, hbase, hend, hq⟩ := h
  obtain ⟨q', hq', hempty, hseq, hup, hb⟩ := QueueSystem.create_blocks m nodes hs hc hbase hend
  obtain rfl := Except.ok.inj (hq.symm.trans hq')
  have hcount : q.pool.blockCount = maxMsgs := hb.blockCount
  rw [hcount]
  exact ⟨⟨hb, QueueSystem.init_ordered hempty hseq, rfl, rfl⟩, hup⟩

/-- **The broker and the queues refine the network.**  In every interleaving of publishers, subscribers,
expiring tasks, direct deliveries and consumers in which no counter wraps, what is seen is a run of the
network: a broadcast reaches the live subscribers one after the other, no queue holds more than its
capacity, and each call on a queue returns the first message of the highest priority. -/
theorem refines_network (rep : Node (Msg τ) → ℕ → UInt8) (q : τ → MessageQueue (Msg τ))
    (hq : ∀ t, Created (q t)) (es : List (BroadcastEvent τ)) (s : BroadcastSystem τ)
    (hrun : run (step rep) (init q) es = some s)
    (hw : Along (step rep) (AllUnwrapped rep) (init q) es) :
    run Network.step (Network.start (fun t => (q t).pool.blockCount))
      (viewed (step rep) seen (init q) es) = some (s.view (fun t => (q t).pool.blockCount)) := by
  have hcalm : Calm (fun t => (q t).pool.blockCount) (init q) := fun t => (hq t).between.1
  have hstart : (init q).view (fun t => (q t).pool.blockCount) =
      Network.start (fun t => (q t).pool.blockCount) := by
    ext1
    · rfl
    · rfl
    · rfl
    · rfl
    · rfl
    · funext t
      exact (hq t).between.2
  rw [← hstart]
  exact (simulates_network _).run_viewed hcalm hw hrun

instance decidableAllUnwrapped [Fintype τ] (rep : Node (Msg τ) → ℕ → UInt8) (s : BroadcastSystem τ)
    (e : BroadcastEvent τ) : Decidable (AllUnwrapped rep s e) :=
  inferInstanceAs (Decidable (∀ task, Unwrapped rep task s e))

/-- The task `true` expires during a broadcast to both tasks, and gets nothing. -/
def expiredMidway : List (BroadcastEvent Bool) :=
  [.broker (.brokerInitialize 16), .broker (.subscribe false .heartbeatMsg),
    .broker (.subscribe true .heartbeatMsg), .broker (.publish ⟨none, .heartbeatMsg ⟨1, 10⟩⟩),
    .broker .iterate, .broker (.expire true), .deliver false ⟨none, .stateMsg ⟨2⟩⟩, .dequeue false,
    .broker .iterate, .broker .finish, .dequeue false, .notifyShutdown false, .dequeue false]

/-- The entry that is erased on the way is not seen, nor is the initialisation. -/
theorem refines_network_expired : ∃ q s,
    MessageQueue.create 16 3 4096 (fun _ => 0) (fun _ => ⟨⟨none, .stateMsg ⟨0⟩⟩, 0⟩) = .ok q ∧
    run (step (fun _ _ => 255)) (init (fun _ : Bool => q)) expiredMidway = some s ∧
    (viewed (step (fun _ _ => 255)) seen (init (fun _ : Bool => q)) expiredMidway).length = 11 ∧
    run Network.step (Network.start (fun _ => q.pool.blockCount))
      (viewed (step (fun _ _ => 255)) seen (init (fun _ : Bool => q)) expiredMidway) =
        some (s.view (fun _ => q.pool.blockCount)) := by
  obtain ⟨q, hq, -⟩ := @QueueSystem.create_blocks _ 16 3 4096
    (fun _ => 0) (fun _ => (⟨⟨none, .stateMsg ⟨0⟩⟩, 0⟩ : Node (Msg Bool))) (by decide) (by decide)
    (by decide) (by decide)
  have hcreated : ∀ _ : Bool, Created q := fun _ =>
    ⟨16, 3, 4096, _, _, by decide, by decide, by decide, by decide, hq⟩
  have heval : (MessageQueue.create 16 3 4096 (fun _ => 0)
      (fun _ => (⟨⟨none, .stateMsg ⟨0⟩⟩, 0⟩ : Node (Msg Bool)))).toOption.bind (fun q =>
        if Along (step (fun _ _ => 255)) (AllUnwrapped (fun _ _ => 255)) (init (fun _ : Bool => q))
          expiredMidway then
        (run (step (fun _ _ => 255)) (init (fun _ : Bool => q)) expiredMidway).map (fun _ =>
          (viewed (step (fun _ _ => 255)) seen (init (fun _ : Bool => q)) expiredMidway).length)
        else none) = some 11 := by decide +kernel
  rw [hq, Except.toOption, Option.bind_some] at heval
  split_ifs at heval with halong
  obtain ⟨s, hrun, hlength⟩ := Option.map_eq_some_iff.mp heval
  exact ⟨q, s, hq, hrun, hlength,
    refines_network (fun _ _ => 255) (fun _ => q) hcreated expiredMidway s hrun halong⟩

end BroadcastSystem
end Protocore
