import Protocore.QueueOrder
import Protocore.Broker

/-! # Total-order broadcast

The broker together with the queues of all tasks: any number of threads publish, deliver
messages directly and dequeue, each enqueue and each dequeue being one atomic step, and
`sub_mutex` is held for a whole `publish`.

A published message is named by its position in the order of the `publish` calls; `origin`
remembers for every arrival in a queue which call it came from.  `total_order_broadcast`: two
tasks that dequeue the same two published messages of one priority dequeue them in the same
order, that of the calls, and none is passed over.

The link between the two queues is the order of the calls: each queue receives published
messages in that order (`Traced.increasing`), whatever else it receives in between, and returns
those of one priority in the order of arrival (`QueueSystem.Served`). -/

namespace Protocore

namespace QueueSystem

section calls
variable {μ : Type} (prio : μ → ℕ) (rep : Node μ → ℕ → UInt8)

/-- A whole call of `enqueue`. -/
def enqueueCall (s : QueueSystem μ) (message : μ) : Option (QueueSystem μ) :=
  match s.q.allocateNode with
  | .ok (raw, _) => run (step prio rep) s [.allocate, .push raw message]
  | .error _ => none

/-- A whole call of `dequeue`, `try_dequeue` or `notify_shutdown`. -/
def consumerCall (s : QueueSystem μ) (e : QueueEvent μ) : Option (QueueSystem μ) :=
  (step prio rep s e).bind
    (fun s' => if s'.popped.isSome then step prio rep s' .release else some s')

end calls

variable {μ : Type} {prio : μ → ℕ} {rep : Node μ → ℕ → UInt8}

/-- Between two calls. -/
structure Rested (prio : μ → ℕ) (s : QueueSystem μ) : Prop where
  blocks : ∃ maxMsgs, Blocks maxMsgs s
  ordered : Ordered prio s
  served : Served prio s

theorem step_rested {s s' : QueueSystem μ} {e : QueueEvent μ} (h : Rested prio s)
    (hs : step prio rep s e = some s') (hw : NoWrap s e) : Rested prio s' := by
  obtain ⟨⟨maxMsgs, hb⟩, ho, hserved⟩ := h
  obtain ⟨hb', ho'⟩ := step_inv s e s' ⟨hb, ho⟩ hw hs
  exact ⟨⟨maxMsgs, hb'⟩, ho', moves_served ho.arranged hserved (step_moves hs)⟩

theorem enqueueCall_spec {s s' : QueueSystem μ} {message : μ} (h : Rested prio s)
    (hs : enqueueCall prio rep s message = some s') (hw : s'.sinceReset < 2 ^ 32) :
    Rested prio s' ∧ s'.enqueued = s.enqueued ++ [message] := by
  unfold enqueueCall at hs
  split at hs
  · obtain ⟨s₁, halloc, hrest⟩ := run_cons_eq_some.mp hs
    obtain ⟨s₂, hpush, hend⟩ := run_cons_eq_some.mp hrest
    obtain rfl := Option.some.inj hend
    have h₁ := step_rested h halloc (by intro _ _ he; cases he)
    have hlt : s₁.sinceReset + 1 < 2 ^ 32 ∧ s₂.enqueued = s₁.enqueued ++ [message] := by
      cases step_moves hpush with
      | push => exact ⟨hw, rfl⟩
      | take hc => rcases hc with hc | hc <;> cases hc
    refine ⟨step_rested h₁ hpush (fun _ _ _ => hlt.1), ?_⟩
    rw [hlt.2]
    cases step_moves halloc with
    | allocate => rfl
    | take hc => rcases hc with hc | hc <;> cases hc
  · cases hs

/-- The events of a consumer. -/
def Consumes : QueueEvent μ → Prop
  | .dequeue => True
  | .tryDequeue => True
  | .notifyShutdown => True
  | _ => False

theorem consumerCall_spec {s s' : QueueSystem μ} {e : QueueEvent μ} (h : Rested prio s)
    (he : Consumes e) (hs : consumerCall prio rep s e = some s') :
    Rested prio s' ∧ s'.enqueued = s.enqueued := by
  obtain ⟨s₁, hstep, hrest⟩ := Option.bind_eq_some_iff.mp hs
  have h₁ := step_rested h hstep (by rintro raw message rfl; exact he.elim)
  have henq : s₁.enqueued = s.enqueued := by
    cases step_moves hstep with
    | push => exact he.elim
    | _ => rfl
  split_ifs at hrest
  · refine ⟨step_rested h₁ hrest (by intro _ _ hc; cases hc), ?_⟩
    cases step_moves hrest with
    | take hc => rcases hc with hc | hc <;> cases hc
    | release => exact henq
  · obtain rfl := Option.some.inj hrest
    exact ⟨h₁, henq⟩

end QueueSystem

/-- The broker, the queues of the tasks, and the history of the calls. -/
structure BroadcastSystem (τ : Type) where
  broker : BrokerSystem τ
  queues : τ → QueueSystem (Msg τ)
  /-- The calls of `publish` in order, each with the broker it found. -/
  published : List (BrokerSystem τ × Msg τ)
  /-- For each message enqueued to a task, the call it came from; `none` is a direct delivery. -/
  origin : τ → List (Option ℕ)

/-- The atomic steps: those of the broker, direct deliveries, and the calls on the queues. -/
inductive BroadcastEvent (τ : Type) where
  | broker (e : BrokerEvent τ)
  | deliver (target : τ) (msg : Msg τ)
  | dequeue (task : τ)
  | tryDequeue (task : τ)
  | notifyShutdown (task : τ)

namespace BroadcastSystem

variable {τ : Type} [DecidableEq τ]

/-- Nothing has been published; every task has its queue. -/
def init (q : τ → MessageQueue (Msg τ)) : BroadcastSystem τ :=
  ⟨BrokerSystem.init, fun t => QueueSystem.init (q t), [], fun _ => []⟩

section defs
variable (rep : Node (Msg τ) → ℕ → UInt8)

/-- `Broker::deliver_message`: the message is enqueued; `call` is the call of `publish` that
delivers it. -/
def deliverMessage (s : BroadcastSystem τ) (target : τ) (msg : Msg τ) (call : Option ℕ) :
    Option (BroadcastSystem τ) :=
  ((s.queues target).enqueueCall Msg.getPriority rep msg).map (fun q =>
    { s with
      queues := Function.update s.queues target q
      origin := Function.update s.origin target (s.origin target ++ [call]) })

/-- A call on the queue of a task. -/
def consume (s : BroadcastSystem τ) (task : τ) (e : QueueEvent (Msg τ)) :
    Option (BroadcastSystem τ) :=
  ((s.queues task).consumerCall Msg.getPriority rep e).map (fun q =>
    { s with queues := Function.update s.queues task q })

/-- The broker has moved on to `b`; what an iteration of `publish` delivers is what it logs. -/
def follow (s : BroadcastSystem τ) (b : BrokerSystem τ) : Option (BroadcastSystem τ) :=
  match b.log.drop s.broker.log.length with
  | (target, msg) :: _ =>
      deliverMessage rep { s with broker := b } target msg (some (s.published.length - 1))
  | [] => some { s with broker := b }

/-- One atomic step. -/
def step (s : BroadcastSystem τ) : BroadcastEvent τ → Option (BroadcastSystem τ)
  | .broker (.publish msg) =>
      (BrokerSystem.step s.broker (.publish msg)).map (fun b =>
        { s with broker := b, published := s.published ++ [(s.broker, msg)] })
  | .broker e => (BrokerSystem.step s.broker e).bind (follow rep s)
  | .deliver target msg =>
      if s.broker.alive target then deliverMessage rep s target msg none else none
  | .dequeue task => consume rep s task .dequeue
  | .tryDequeue task => consume rep s task .tryDequeue
  | .notifyShutdown task => consume rep s task .notifyShutdown

end defs

/-- The calls of `publish` whose message the task has dequeued, in order. -/
def dequeued (s : BroadcastSystem τ) (task : τ) : List ℕ :=
  (s.queues task).returned.filterMap (fun i => (s.origin task)[i]?.join)

/-- The counter of the task's queue does not wrap in this step. -/
def Unwrapped (rep : Node (Msg τ) → ℕ → UInt8) (task : τ) (s : BroadcastSystem τ)
    (e : BroadcastEvent τ) : Prop :=
  ∀ s', step rep s e = some s' → (s'.queues task).sinceReset < 2 ^ 32

variable {rep : Node (Msg τ) → ℕ → UInt8}

/-! ### What a step does to one task -/

section effect
variable (rep)

/-- The ways in which a step can concern the broker and the queue of `task`. -/
inductive Effect (task : τ) (s s' : BroadcastSystem τ) : Prop
  /-- A call begins. -/
  | publish {msg : Msg τ} (hb : BrokerSystem.step s.broker (.publish msg) = some s'.broker)
      (hp : s'.published = s.published ++ [(s.broker, msg)])
      (hq : s'.queues task = s.queues task) (ho : s'.origin task = s.origin task)
  /-- The broker moves on without a delivery to the task. -/
  | other {e : BrokerEvent τ} (he : ∀ msg, e ≠ .publish msg)
      (hb : BrokerSystem.step s.broker e = some s'.broker)
      (hlog : ∀ msg, s'.broker.log ≠ s.broker.log ++ [(task, msg)])
      (hp : s'.published = s.published) (hq : s'.queues task = s.queues task)
      (ho : s'.origin task = s.origin task)
  /-- An iteration delivers to the task. -/
  | broadcast {e : BrokerEvent τ} {msg : Msg τ} (he : ∀ msg, e ≠ .publish msg)
      (hb : BrokerSystem.step s.broker e = some s'.broker)
      (hlog : s'.broker.log = s.broker.log ++ [(task, msg)])
      (hp : s'.published = s.published)
      (hq : (s.queues task).enqueueCall Msg.getPriority rep msg = some (s'.queues task))
      (ho : s'.origin task = s.origin task ++ [some (s.published.length - 1)])
  /-- A direct delivery to the task. -/
  | direct {msg : Msg τ} (hb : s'.broker = s.broker) (hp : s'.published = s.published)
      (hq : (s.queues task).enqueueCall Msg.getPriority rep msg = some (s'.queues task))
      (ho : s'.origin task = s.origin task ++ [none])
  /-- A call of the task on its own queue. -/
  | consume {e : QueueEvent (Msg τ)} (he : QueueSystem.Consumes e)
      (hb : s'.broker = s.broker) (hp : s'.published = s.published)
      (hq : (s.queues task).consumerCall Msg.getPriority rep e = some (s'.queues task))
      (ho : s'.origin task = s.origin task)
  /-- Another queue is concerned. -/
  | elsewhere (hb : s'.broker = s.broker) (hp : s'.published = s.published)
      (hq : s'.queues task = s.queues task) (ho : s'.origin task = s.origin task)

end effect

theorem log_of_step {b b' : BrokerSystem τ} {e : BrokerEvent τ}
    (h : BrokerSystem.step b e = some b') :
    b'.log = b.log ∨ ∃ target msg, b'.log = b.log ++ [(target, msg)] := by
  cases BrokerSystem.step_moves h with
  | @deliver c t => exact Or.inr ⟨t, c.msg, rfl⟩
  | _ => exact Or.inl rfl

theorem deliverMessage_spec {s s' : BroadcastSystem τ} {target : τ} {msg : Msg τ}
    {call : Option ℕ} (h : deliverMessage rep s target msg call = some s') (task : τ) :
    s'.broker = s.broker ∧ s'.published = s.published ∧
    if task = target then
      (s.queues task).enqueueCall Msg.getPriority rep msg = some (s'.queues task) ∧
        s'.origin task = s.origin task ++ [call]
    else s'.queues task = s.queues task ∧ s'.origin task = s.origin task := by
  obtain ⟨q, hq, rfl⟩ := Option.map_eq_some_iff.mp h
  refine ⟨rfl, rfl, ?_⟩
  split_ifs with hc
  · subst hc
    simpa using hq
  · simp [hc]

theorem consume_effect {s s' : BroadcastSystem τ} {target : τ} {e : QueueEvent (Msg τ)}
    (he : QueueSystem.Consumes e) (h : consume rep s target e = some s') (task : τ) :
    Effect rep task s s' := by
  obtain ⟨q, hq, rfl⟩ := Option.map_eq_some_iff.mp h
  by_cases hc : task = target
  · subst hc
    exact .consume he rfl rfl (by simpa using hq) rfl
  · exact .elsewhere rfl rfl (by simp [hc]) rfl

theorem follow_effect {s s' : BroadcastSystem τ} {b : BrokerSystem τ} {e : BrokerEvent τ}
    (he : ∀ msg, e ≠ .publish msg) (hb : BrokerSystem.step s.broker e = some b)
    (h : follow rep s b = some s') (task : τ) : Effect rep task s s' := by
  unfold follow at h
  rcases log_of_step hb with hlog | ⟨target, msg, hlog⟩
  · rw [hlog, List.drop_length] at h
    obtain rfl := Option.some.inj h
    refine .other he hb (fun msg hc => ?_) rfl rfl rfl
    have := congrArg List.length (hlog.symm.trans hc)
    simp at this
  · rw [hlog, List.drop_left] at h
    obtain ⟨hbroker, hp, hrest⟩ := deliverMessage_spec h task
    have hb' : BrokerSystem.step s.broker e = some s'.broker := by rw [hb, hbroker]
    have hlog' : s'.broker.log = s.broker.log ++ [(target, msg)] := by rw [hbroker, hlog]
    split_ifs at hrest with hc
    · subst hc
      exact .broadcast he hb' hlog' hp hrest.1 hrest.2
    · refine .other he hb' (fun msg' hc' => hc ?_) hp hrest.1 hrest.2
      rw [hlog'] at hc'
      have := List.append_cancel_left hc'
      simp only [List.cons.injEq, Prod.mk.injEq, and_true] at this
      exact this.1.symm

theorem step_effect {s s' : BroadcastSystem τ} {e : BroadcastEvent τ}
    (h : step rep s e = some s') (task : τ) : Effect rep task s s' := by
  cases e with
  | broker e =>
      by_cases hpub : ∃ msg, e = .publish msg
      · obtain ⟨msg, rfl⟩ := hpub
        obtain ⟨b, hb, rfl⟩ := Option.map_eq_some_iff.mp h
        exact .publish hb rfl rfl rfl
      · rw [not_exists] at hpub
        have h' : (BrokerSystem.step s.broker e).bind (follow rep s) = some s' := by
          cases e with
          | publish msg => exact absurd rfl (hpub msg)
          | _ => exact h
        obtain ⟨b, hb, hfollow⟩ := Option.bind_eq_some_iff.mp h'
        exact follow_effect hpub hb hfollow task
  | deliver target msg =>
      simp only [step] at h
      split_ifs at h
      obtain ⟨hb, hp, hrest⟩ := deliverMessage_spec h task
      split_ifs at hrest with hc
      · exact .direct hb hp hrest.1 hrest.2
      · exact .elsewhere hb hp hrest.1 hrest.2
  | dequeue target => exact consume_effect (e := .dequeue) trivial h task
  | tryDequeue target => exact consume_effect (e := .tryDequeue) trivial h task
  | notifyShutdown target => exact consume_effect (e := .notifyShutdown) trivial h task

/-! ### Tracing the published messages into one queue -/

/-- A call that is inside its loop, and whether it has reached the task. -/
structure Current (task : τ) (s : BroadcastSystem τ) (c : Publishing τ) : Prop where
  call : ∃ b rest k, s.published.length = k + 1 ∧ s.published[k]? = some (b, c.msg) ∧
    BrokerSystem.Loop b c.msg s.broker c rest ∧ (b.list c.msg.getType).Nodup ∧
    (some k ∈ s.origin task ↔ task ∈ BrokerSystem.found c.visits)

/-- Every published message in the queue stands where its call says: calls enter the queue in
order, at most once each, and none that should have reached the task is missing. -/
structure Traced (task : τ) (s : BroadcastSystem τ) : Prop where
  rested : QueueSystem.Rested Msg.getPriority (s.queues task)
  length : (s.origin task).length = (s.queues task).enqueued.length
  message : ∀ (i k : ℕ), (s.origin task)[i]? = some (some k) → ∃ b msg,
    s.published[k]? = some (b, msg) ∧ (s.queues task).enqueued[i]? = some msg
  increasing : ∀ (i j k l : ℕ), (s.origin task)[i]? = some (some k) →
    (s.origin task)[j]? = some (some l) → i < j → k < l
  nodup : ∀ type, (s.broker.list type).Nodup
  current : ∀ c, s.broker.publishing = some c → Current task s c
  delivered : ∀ (k : ℕ) (b : BrokerSystem τ) (msg : Msg τ), s.published[k]? = some (b, msg) →
    task ∈ b.list msg.getType → s.broker.alive task = true →
    (s.broker.publishing.isSome = true → k + 1 < s.published.length) → some k ∈ s.origin task

section traced
variable {task : τ} {s s' : BroadcastSystem τ}

omit [DecidableEq τ] in
theorem Traced.lt_length (h : Traced task s) {k : ℕ} (hk : some k ∈ s.origin task) :
    k < s.published.length := by
  obtain ⟨i, hi⟩ := List.mem_iff_getElem?.mp hk
  obtain ⟨b, msg, hpub, -⟩ := h.message i k hi
  exact (List.getElem?_eq_some_iff.mp hpub).1

omit [DecidableEq τ] in
theorem init_traced {q : τ → MessageQueue (Msg τ)}
    (hq : QueueSystem.Rested Msg.getPriority (QueueSystem.init (q task))) :
    Traced task (init q) := by
  refine ⟨hq, rfl, ?_, ?_, fun _ => List.nodup_nil, ?_, ?_⟩
  · intro i k hi
    cases hi
  · intro i j k l hi
    cases hi
  · intro c hc
    cases hc
  · intro k b msg hk
    cases hk

omit [DecidableEq τ] in
/-- The fields that speak of the queue only, when nothing new arrived. -/
theorem Traced.same_arrivals (h : Traced task s) (hp : s'.published = s.published)
    (hrested : QueueSystem.Rested Msg.getPriority (s'.queues task))
    (henq : (s'.queues task).enqueued = (s.queues task).enqueued)
    (ho : s'.origin task = s.origin task)
    (hnodup : ∀ type, (s'.broker.list type).Nodup)
    (hcurrent : ∀ c, s'.broker.publishing = some c → Current task s' c)
    (hdelivered : ∀ (k : ℕ) (b : BrokerSystem τ) (msg : Msg τ),
      s.published[k]? = some (b, msg) → task ∈ b.list msg.getType →
      s'.broker.alive task = true →
      (s'.broker.publishing.isSome = true → k + 1 < s.published.length) →
      some k ∈ s.origin task) : Traced task s' := by
  refine ⟨hrested, ?_, ?_, ?_, hnodup, hcurrent, ?_⟩
  · rw [henq, ho]
    exact h.length
  · rw [henq, ho, hp]
    exact h.message
  · rw [ho]
    exact h.increasing
  · rw [ho, hp]
    exact hdelivered

omit [DecidableEq τ] in
theorem Traced.same_queue (h : Traced task s) (hp : s'.published = s.published)
    (hq : s'.queues task = s.queues task) (ho : s'.origin task = s.origin task)
    (hnodup : ∀ type, (s'.broker.list type).Nodup)
    (hcurrent : ∀ c, s'.broker.publishing = some c → Current task s' c)
    (hdelivered : ∀ (k : ℕ) (b : BrokerSystem τ) (msg : Msg τ),
      s.published[k]? = some (b, msg) → task ∈ b.list msg.getType →
      s'.broker.alive task = true →
      (s'.broker.publishing.isSome = true → k + 1 < s.published.length) →
      some k ∈ s.origin task) : Traced task s' :=
  h.same_arrivals hp (by rw [hq]; exact h.rested) (by rw [hq]) ho hnodup hcurrent hdelivered

omit [DecidableEq τ] in
theorem Traced.same_broker (h : Traced task s) (hb : s'.broker = s.broker)
    (hp : s'.published = s.published)
    (hrested : QueueSystem.Rested Msg.getPriority (s'.queues task))
    (henq : (s'.queues task).enqueued = (s.queues task).enqueued)
    (ho : s'.origin task = s.origin task) : Traced task s' := by
  refine h.same_arrivals hp hrested henq ho ?_ ?_ ?_
  · rw [hb]
    exact h.nodup
  · intro c hc
    rw [hb] at hc
    obtain ⟨b, rest, k, hlen, hpub, hloop, hnd, hiff⟩ := (h.current c hc).call
    exact ⟨b, rest, k, by rw [hp]; exact hlen, by rw [hp]; exact hpub, by rw [hb]; exact hloop,
      hnd, by rw [ho]; exact hiff⟩
  · rw [hb]
    exact h.delivered

omit [DecidableEq τ] in
/-- A direct delivery: one more arrival, which came from no call. -/
theorem Traced.direct (h : Traced task s) {msg : Msg τ} (hb : s'.broker = s.broker)
    (hp : s'.published = s.published)
    (hrested : QueueSystem.Rested Msg.getPriority (s'.queues task))
    (henq : (s'.queues task).enqueued = (s.queues task).enqueued ++ [msg])
    (ho : s'.origin task = s.origin task ++ [none]) : Traced task s' := by
  have hmem : ∀ k, some k ∈ s'.origin task ↔ some k ∈ s.origin task := by
    intro k
    rw [ho]
    simp
  have hold : ∀ i k, (s'.origin task)[i]? = some (some k) →
      (s.origin task)[i]? = some (some k) ∧ i < (s.origin task).length := by
    intro i k hi
    rw [ho] at hi
    rcases StableQueue.getElem?_snoc hi with hi | ⟨-, hc⟩
    · exact hi
    · cases hc
  refine ⟨hrested, ?_, ?_, ?_, ?_, ?_, ?_⟩
  · rw [ho, henq, List.length_append, List.length_append, h.length]
    rfl
  · intro i k hi
    obtain ⟨hi', hlt⟩ := hold i k hi
    obtain ⟨b, m, hpub, hm⟩ := h.message i k hi'
    refine ⟨b, m, by rw [hp]; exact hpub, ?_⟩
    rw [henq, List.getElem?_append_left (by rw [← h.length]; exact hlt)]
    exact hm
  · intro i j k l hi hj
    exact h.increasing i j k l (hold i k hi).1 (hold j l hj).1
  · rw [hb]
    exact h.nodup
  · intro c hc
    rw [hb] at hc
    obtain ⟨b, rest, k, hlen, hpub, hloop, hnd, hiff⟩ := (h.current c hc).call
    exact ⟨b, rest, k, by rw [hp]; exact hlen, by rw [hp]; exact hpub, by rw [hb]; exact hloop,
      hnd, (hmem k).trans hiff⟩
  · intro k b m hpub hsub hal hcur
    rw [hp] at hpub hcur
    rw [hb] at hal hcur
    exact (hmem k).mpr (h.delivered k b m hpub hsub hal hcur)

/-- A call begins: no arrival can have come from it yet. -/
theorem Traced.publish (h : Traced task s) {msg : Msg τ} {b : BrokerSystem τ}
    (hstep : BrokerSystem.step s.broker (.publish msg) = some b) (hb : s'.broker = b)
    (hp : s'.published = s.published ++ [(s.broker, msg)])
    (hq : s'.queues task = s.queues task) (ho : s'.origin task = s.origin task) :
    Traced task s' := by
  have hnodup := BrokerSystem.step_nodup s.broker _ b h.nodup hstep
  cases BrokerSystem.step_moves hstep with
  | publish hfree =>
      refine ⟨?_, ?_, ?_, ?_, ?_, ?_, ?_⟩
      · rw [hq]
        exact h.rested
      · rw [hq, ho]
        exact h.length
      · intro i k hi
        rw [ho] at hi
        obtain ⟨b, m, hpub, hm⟩ := h.message i k hi
        rw [hq, hp, List.getElem?_append_left (List.getElem?_eq_some_iff.mp hpub).1]
        exact ⟨b, m, hpub, hm⟩
      · rw [ho]
        exact h.increasing
      · rw [hb]
        exact hnodup
      · intro c hc
        rw [hb] at hc
        obtain rfl := Option.some.inj hc
        refine ⟨s.broker, s.broker.list msg.getType, s.published.length, ?_, ?_, ?_, h.nodup _, ?_⟩
        · rw [hp, List.length_append]
          rfl
        · rw [hp, List.getElem?_append_right (Nat.le_refl _), Nat.sub_self]
          rfl
        · rw [hb]
          exact BrokerSystem.Loop.start s.broker msg
        · rw [ho]
          constructor
          · intro hk
            exact absurd (h.lt_length hk) (Nat.lt_irrefl _)
          · intro hf
            cases hf
      · intro k b m hpub hsub hal hcur
        rw [hp, List.length_append, hb] at hcur
        have hlt : k < s.published.length := Nat.lt_of_succ_lt_succ (hcur rfl)
        rw [hp, List.getElem?_append_left hlt] at hpub
        rw [hb] at hal
        rw [ho]
        refine h.delivered k b m hpub hsub hal (fun hc => ?_)
        rw [hfree] at hc
        cases hc

omit [DecidableEq τ] in
/-- Outside a call nothing is delivered; subscriptions may come, and tasks may expire. -/
theorem Traced.idle (h : Traced task s) (hp : s'.published = s.published)
    (hq : s'.queues task = s.queues task) (ho : s'.origin task = s.origin task)
    (hnodup : ∀ type, (s'.broker.list type).Nodup) (hfree : s.broker.publishing = none)
    (hfree' : s'.broker.publishing = none)
    (halive : ∀ t, s'.broker.alive t = true → s.broker.alive t = true) : Traced task s' := by
  refine h.same_queue hp hq ho hnodup ?_ ?_
  · intro c hc
    rw [hfree'] at hc
    cases hc
  · intro k b m hpub hsub hal _
    refine h.delivered k b m hpub hsub (halive task hal) (fun hc => ?_)
    rw [hfree] at hc
    cases hc

omit [DecidableEq τ] in
/-- Inside a call the loop goes on, and does not reach the task. -/
theorem Traced.busy (h : Traced task s) (hp : s'.published = s.published)
    (hq : s'.queues task = s.queues task) (ho : s'.origin task = s.origin task)
    (hnodup : ∀ type, (s'.broker.list type).Nodup) {c c' : Publishing τ}
    (hc : s.broker.publishing = some c) (hc' : s'.broker.publishing = some c')
    (halive : ∀ t, s'.broker.alive t = true → s.broker.alive t = true) (hmsg : c'.msg = c.msg)
    (hloop' : ∀ b₀ rest, BrokerSystem.Loop b₀ c.msg s.broker c rest →
      ∃ rest', BrokerSystem.Loop b₀ c.msg s'.broker c' rest')
    (hfound : task ∈ BrokerSystem.found c'.visits ↔ task ∈ BrokerSystem.found c.visits) :
    Traced task s' := by
  refine h.same_queue hp hq ho hnodup ?_ ?_
  · intro d hd
    rw [hc'] at hd
    obtain rfl := Option.some.inj hd
    obtain ⟨b₀, rest, k, hlen, hpub, hloop, hnd, hiff⟩ := (h.current c hc).call
    obtain ⟨rest', hloop'⟩ := hloop' b₀ rest hloop
    refine ⟨b₀, rest', k, by rw [hp]; exact hlen, by rw [hp, hmsg]; exact hpub, ?_, ?_, ?_⟩
    · rw [hmsg]
      exact hloop'
    · rw [hmsg]
      exact hnd
    · rw [ho, hfound]
      exact hiff
  · intro k b₀ m hpub hsub hal hcur
    refine h.delivered k b₀ m hpub hsub (halive task hal) (fun _ => hcur ?_)
    rw [hc']
    rfl

omit [DecidableEq τ] in
theorem Traced.finish (h : Traced task s) (hp : s'.published = s.published)
    (hq : s'.queues task = s.queues task) (ho : s'.origin task = s.origin task)
    (hnodup : ∀ type, (s'.broker.list type).Nodup) {c : Publishing τ}
    (hc : s.broker.publishing = some c) (hend : (s.broker.list c.msg.getType).length ≤ c.it)
    (hfree : s'.broker.publishing = none) (halive : s'.broker.alive = s.broker.alive) :
    Traced task s' := by
  refine h.same_queue hp hq ho hnodup ?_ ?_
  · intro d hd
    rw [hfree] at hd
    cases hd
  · intro k b₀ m hpub hsub hal _
    rw [halive] at hal
    obtain ⟨b₁, rest, k₁, hlen, hpub₁, hloop, -, hiff⟩ := (h.current c hc).call
    obtain rfl := hloop.rest_eq_nil hend
    by_cases hk : k = k₁
    · subst hk
      obtain ⟨rfl, rfl⟩ := Prod.mk.inj (Option.some.inj (hpub.symm.trans hpub₁))
      exact hiff.mpr (hloop.mem_found_of_alive hsub hal)
    · have hlt := (List.getElem?_eq_some_iff.mp hpub).1
      exact h.delivered k b₀ m hpub hsub hal (fun _ => by omega)

/-- The broker moves on without a delivery to the task. -/
theorem Traced.other (h : Traced task s) {e : BrokerEvent τ} {b : BrokerSystem τ}
    (he : ∀ msg, e ≠ .publish msg) (hstep : BrokerSystem.step s.broker e = some b)
    (hb : s'.broker = b) (hlog : ∀ msg, b.log ≠ s.broker.log ++ [(task, msg)])
    (hp : s'.published = s.published) (hq : s'.queues task = s.queues task)
    (ho : s'.origin task = s.origin task) : Traced task s' := by
  have hnodup := BrokerSystem.step_nodup s.broker _ b h.nodup hstep
  rw [← hb] at hnodup
  cases BrokerSystem.step_moves hstep with
  | brokerInitialize hfree =>
      exact h.idle hp hq ho hnodup hfree (by rw [hb]; exact hfree) (by rw [hb]; exact fun _ => id)
  | known hfree =>
      exact h.idle hp hq ho hnodup hfree (by rw [hb]; exact hfree) (by rw [hb]; exact fun _ => id)
  | subscribe hfree =>
      exact h.idle hp hq ho hnodup hfree (by rw [hb]; exact hfree) (by rw [hb]; exact fun _ => id)
  | @publish msg => exact absurd rfl (he msg)
  | @deliver c t hc ht hal =>
      refine h.busy hp hq ho hnodup hc (congrArg BrokerSystem.publishing hb)
        (by rw [hb]; exact fun _ => id) rfl ?_ ?_
      · intro b₀ rest hloop
        obtain ⟨rest, rfl⟩ := hloop.exists_cons ht
        rw [hb]
        exact ⟨rest, hloop.deliver hal⟩
      · have hne : task ≠ t := by
          rintro rfl
          exact hlog c.msg rfl
        rw [BrokerSystem.found_append]
        simp [hne]
  | @erase c t hc ht hal =>
      refine h.busy hp hq ho hnodup hc (congrArg BrokerSystem.publishing hb)
        (by rw [hb]; exact fun _ => id) rfl ?_ ?_
      · intro b₀ rest hloop
        obtain ⟨rest, rfl⟩ := hloop.exists_cons ht
        rw [hb]
        exact ⟨rest, hloop.erase hal⟩
      · rw [BrokerSystem.found_append]
        simp
  | @finish c hc hend => exact h.finish hp hq ho hnodup hc hend (by rw [hb]) (by rw [hb])
  | @expire t =>
      have halive : ∀ u, s'.broker.alive u = true → s.broker.alive u = true := by
        rw [hb]
        intro u hu
        simp only at hu
        split_ifs at hu
        exact hu
      cases hc : s.broker.publishing with
      | none => exact h.idle hp hq ho hnodup hc (by rw [hb]; exact hc) halive
      | some c =>
          refine h.busy hp hq ho hnodup hc (by rw [hb]; exact hc) halive rfl ?_ Iff.rfl
          intro b₀ rest hloop
          rw [hb]
          exact ⟨rest, hloop.expire t⟩

/-- An iteration delivers to the task: it has not been reached by this call before, and all
earlier arrivals came from earlier calls. -/
theorem Traced.broadcast (h : Traced task s) {e : BrokerEvent τ} {b : BrokerSystem τ}
    {msg : Msg τ} (hstep : BrokerSystem.step s.broker e = some b) (hb : s'.broker = b)
    (hlog : b.log = s.broker.log ++ [(task, msg)]) (hp : s'.published = s.published)
    (hrested : QueueSystem.Rested Msg.getPriority (s'.queues task))
    (henq : (s'.queues task).enqueued = (s.queues task).enqueued ++ [msg])
    (ho : s'.origin task = s.origin task ++ [some (s.published.length - 1)]) :
    Traced task s' := by
  have hnodup := BrokerSystem.step_nodup s.broker _ b h.nodup hstep
  rw [← hb] at hnodup
  have hdeliver : ∃ c, s.broker.publishing = some c ∧ c.msg = msg ∧
      (s.broker.list c.msg.getType)[c.it]? = some task ∧ s.broker.alive task = true ∧
      b = { s.broker with
        log := s.broker.log ++ [(task, c.msg)]
        publishing := some { c with it := c.it + 1, visits := c.visits ++ [(task, true)] } } := by
    cases BrokerSystem.step_moves hstep with
    | @deliver c t hc ht hal =>
        obtain ⟨rfl, rfl⟩ := Prod.mk.inj (List.head_eq_of_cons_eq (List.append_cancel_left hlog))
        exact ⟨c, hc, rfl, ht, hal, rfl⟩
    | _ =>
        have := congrArg List.length hlog
        simp at this
  obtain ⟨c, hc, rfl, ht, hal, rfl⟩ := hdeliver
  obtain ⟨b₀, rest, k, hlen, hpub, hloop, hnd, hiff⟩ := (h.current c hc).call
  rw [hlen, Nat.add_sub_cancel] at ho
  obtain ⟨rest, rfl⟩ := hloop.exists_cons ht
  have hfresh : some k ∉ s.origin task := by
    intro hk
    have hvisited := (BrokerSystem.found_sublist c.visits).subset (hiff.mp hk)
    rw [hloop.before] at hnd
    exact List.disjoint_of_nodup_append hnd hvisited List.mem_cons_self
  have hbefore : ∀ (i l : ℕ), (s.origin task)[i]? = some (some l) → l < k := by
    intro i l hi
    have hmem := List.mem_of_getElem? hi
    have hlt := h.lt_length hmem
    have hne : l ≠ k := fun hl => hfresh (hl ▸ hmem)
    omega
  refine ⟨hrested, ?_, ?_, ?_, hnodup, ?_, ?_⟩
  · rw [ho, henq, List.length_append, List.length_append, h.length]
    rfl
  · intro i l hi
    rw [ho] at hi
    rw [hp, henq]
    rcases StableQueue.getElem?_snoc hi with ⟨hi, hlt⟩ | ⟨rfl, hl⟩
    · obtain ⟨b₁, m, hpub₁, hm⟩ := h.message i l hi
      rw [List.getElem?_append_left (by rw [← h.length]; exact hlt)]
      exact ⟨b₁, m, hpub₁, hm⟩
    · obtain rfl := Option.some.inj hl
      refine ⟨b₀, c.msg, hpub, ?_⟩
      rw [h.length, List.getElem?_append_right (Nat.le_refl _), Nat.sub_self]
      rfl
  · intro i j l m hi hj hlt
    rw [ho] at hi hj
    rcases StableQueue.getElem?_snoc hi with ⟨hi, hilt⟩ | ⟨rfl, hl⟩ <;>
      rcases StableQueue.getElem?_snoc hj with ⟨hj, hjlt⟩ | ⟨rfl, hm⟩
    · exact h.increasing i j l m hi hj hlt
    · obtain rfl := Option.some.inj hm
      exact hbefore i l hi
    · omega
    · omega
  · intro d hd
    rw [hb] at hd
    obtain rfl := Option.some.inj hd
    refine ⟨b₀, rest, k, by rw [hp]; exact hlen, by rw [hp]; exact hpub, ?_, hnd, ?_⟩
    · rw [hb]
      exact hloop.deliver hal
    · rw [ho, BrokerSystem.found_append]
      simp
  · intro l b₁ m hpub₁ hsub _ hcur
    rw [hp] at hpub₁ hcur
    rw [hb] at hcur
    rw [ho]
    exact List.mem_append_left _ (h.delivered l b₁ m hpub₁ hsub hal (fun _ => hcur rfl))

theorem step_traced (h : Traced task s) {e : BroadcastEvent τ} (hs : step rep s e = some s')
    (hw : (s'.queues task).sinceReset < 2 ^ 32) : Traced task s' := by
  cases step_effect hs task with
  | publish hb hp hq ho => exact h.publish hb rfl hp hq ho
  | other he hb hlog hp hq ho => exact h.other he hb rfl hlog hp hq ho
  | broadcast he hb hlog hp hq ho =>
      obtain ⟨hrested, henq⟩ := QueueSystem.enqueueCall_spec h.rested hq hw
      exact h.broadcast hb rfl hlog hp hrested henq ho
  | direct hb hp hq ho =>
      obtain ⟨hrested, henq⟩ := QueueSystem.enqueueCall_spec h.rested hq hw
      exact h.direct hb hp hrested henq ho
  | consume he hb hp hq ho =>
      obtain ⟨hrested, henq⟩ := QueueSystem.consumerCall_spec h.rested he hq
      exact h.same_broker hb hp hrested henq ho
  | elsewhere hb hp hq ho =>
      exact h.same_broker hb hp (by rw [hq]; exact h.rested) (by rw [hq]) ho

theorem run_traced {es : List (BroadcastEvent τ)} (h : Traced task s)
    (halong : Along (step rep) (Unwrapped rep task) s es) (hrun : run (step rep) s es = some s') :
    Traced task s' :=
  run_invariant_along (fun _ _ _ hi hw hs => step_traced hi hs (hw _ hs)) h halong hrun

/-! ### The order in which a task dequeues -/

omit [DecidableEq τ] in
theorem mem_dequeued {k : ℕ} : k ∈ s.dequeued task ↔
    ∃ i ∈ (s.queues task).returned, (s.origin task)[i]? = some (some k) := by
  unfold dequeued
  rw [List.mem_filterMap]
  simp only [Option.join_eq_some_iff]

/-- The messages of two calls have one priority. -/
def SamePriority (s : BroadcastSystem τ) (k l : ℕ) : Prop :=
  ∃ x y, s.published[k]? = some x ∧ s.published[l]? = some y ∧
    x.2.getPriority = y.2.getPriority

omit [DecidableEq τ] in
theorem Traced.samePrio (h : Traced task s) {i j k l : ℕ}
    (hi : (s.origin task)[i]? = some (some k)) (hj : (s.origin task)[j]? = some (some l))
    (hsame : SamePriority s k l) :
    QueueSystem.SamePrio Msg.getPriority (s.queues task) i j := by
  obtain ⟨x, y, hx, hy, heq⟩ := hsame
  obtain ⟨b, m, hk, hm⟩ := h.message i k hi
  obtain ⟨b', m', hl, hm'⟩ := h.message j l hj
  obtain rfl := Option.some.inj (hx.symm.trans hk)
  obtain rfl := Option.some.inj (hy.symm.trans hl)
  exact ⟨m, m', hm, hm', heq⟩

omit [DecidableEq τ] in
theorem Traced.dequeued_sorted (h : Traced task s) :
    (s.dequeued task).Pairwise (fun k l => SamePriority s k l → k < l) := by
  unfold dequeued
  rw [List.pairwise_filterMap]
  refine List.Pairwise.imp ?_ h.rested.served.sorted
  intro i j hij k hk l hl hsame
  rw [Option.join_eq_some_iff] at hk hl
  exact h.increasing i j k l hk hl (hij (h.samePrio hk hl hsame))

omit [DecidableEq τ] in
/-- No earlier one of those the task received is passed over. -/
theorem Traced.mem_dequeued_of_lt (h : Traced task s) {k l : ℕ} (hsame : SamePriority s k l)
    (hlt : k < l) (hk : some k ∈ s.origin task) (hl : l ∈ s.dequeued task) :
    k ∈ s.dequeued task := by
  obtain ⟨j, hj, hjl⟩ := mem_dequeued.mp hl
  obtain ⟨i, hi⟩ := List.mem_iff_getElem?.mp hk
  have hij : i < j := by
    rcases Nat.lt_trichotomy i j with hc | rfl | hc
    · exact hc
    · have := Option.some.inj (Option.some.inj (hi.symm.trans hjl))
      omega
    · have := h.increasing j i l k hjl hi hc
      omega
  exact mem_dequeued.mpr
    ⟨i, h.rested.served.closed i j (h.samePrio hi hjl hsame) hij hj, hi⟩

omit [DecidableEq τ] in
theorem pair_sublist {α : Type} {l : List α} {a b : α} (ha : a ∈ l) (hb : b ∈ l) (hne : a ≠ b) :
    [a, b].Sublist l ∨ [b, a].Sublist l := by
  obtain ⟨pre, post, rfl⟩ := List.append_of_mem ha
  rcases List.mem_append.mp hb with hb | hb
  · right
    exact (List.singleton_sublist.mpr hb).append (List.singleton_sublist.mpr List.mem_cons_self)
  · left
    rcases List.mem_cons.mp hb with rfl | hb
    · exact absurd rfl hne
    · exact ((List.singleton_sublist.mpr hb).cons_cons a).trans (List.sublist_append_right _ _)

omit [DecidableEq τ] in
theorem SamePriority.symm {k l : ℕ} (h : SamePriority s k l) : SamePriority s l k := by
  obtain ⟨x, y, hx, hy, heq⟩ := h
  exact ⟨y, x, hy, hx, heq.symm⟩

omit [DecidableEq τ] in
theorem Traced.dequeued_order (h : Traced task s) {k l : ℕ} (hsame : SamePriority s k l)
    (hk : k ∈ s.dequeued task) (hl : l ∈ s.dequeued task) (hne : k ≠ l) :
    [k, l].Sublist (s.dequeued task) ↔ k < l := by
  have hsorted : ∀ {a b}, [a, b].Sublist (s.dequeued task) → SamePriority s a b → a < b :=
    List.pairwise_iff_forall_sublist.mp h.dequeued_sorted
  constructor
  · intro hsub
    exact hsorted hsub hsame
  · intro hlt
    rcases pair_sublist hk hl hne with hsub | hsub
    · exact hsub
    · have := hsorted hsub hsame.symm
      omega

end traced

/-! ### Total order -/

/-- What two tasks can rely on. -/
structure TotalOrder (s : BroadcastSystem τ) (A B : τ) : Prop where
  /-- Two published messages of one priority that both dequeued, both dequeued in one order. -/
  same : ∀ k l, SamePriority s k l → k ≠ l → k ∈ s.dequeued A → l ∈ s.dequeued A →
    k ∈ s.dequeued B → l ∈ s.dequeued B →
    ([k, l].Sublist (s.dequeued A) ↔ [k, l].Sublist (s.dequeued B))
  /-- If the later of two messages published while `A` was subscribed is dequeued, the earlier
  one was dequeued before it. -/
  earlier : ∀ (k l : ℕ) (b : BrokerSystem τ) (msg : Msg τ), SamePriority s k l → k < l →
    s.published[k]? = some (b, msg) → A ∈ b.list msg.getType → l ∈ s.dequeued A →
    [k, l].Sublist (s.dequeued A)

omit [DecidableEq τ] in
theorem Traced.totalOrder {s : BroadcastSystem τ} {A B : τ} (hA : Traced A s) (hB : Traced B s)
    (hal : s.broker.alive A = true) : TotalOrder s A B := by
  constructor
  · intro k l hsame hne hkA hlA hkB hlB
    rw [hA.dequeued_order hsame hkA hlA hne, hB.dequeued_order hsame hkB hlB hne]
  · intro k l b msg hsame hlt hpub hsub hl
    obtain ⟨x, y, -, hy, -⟩ := id hsame
    have hbound := (List.getElem?_eq_some_iff.mp hy).1
    have hk := hA.delivered k b msg hpub hsub hal (fun _ => by omega)
    have hk' := hA.mem_dequeued_of_lt hsame hlt hk hl
    exact (hA.dequeued_order hsame hk' hl (by omega)).mpr hlt

/-- The queue of a task as its constructor leaves it. -/
def Created (q : MessageQueue (Msg τ)) : Prop :=
  ∃ msgSize maxMsgs base m nodes, sizeofPtr < msgSize ∧ 0 < maxMsgs ∧ 0 < base ∧
    base + msgSize * maxMsgs < addressSpace ∧
    MessageQueue.create msgSize maxMsgs base m nodes = .ok q

omit [DecidableEq τ] in
theorem Created.rested {q : MessageQueue (Msg τ)} (h : Created q) :
    QueueSystem.Rested Msg.getPriority (QueueSystem.init q) := by
  obtain ⟨msgSize, maxMsgs, base, m, nodes, hs, hc, hbase, hend, hq⟩ := h
  obtain ⟨q', hq', hempty, hseq, -, hb⟩ := QueueSystem.create_blocks m nodes hs hc hbase hend
  obtain rfl := Except.ok.inj (hq.symm.trans hq')
  exact ⟨⟨maxMsgs, hb⟩, QueueSystem.init_ordered hempty hseq, QueueSystem.init_served _⟩

/-- **Total-order broadcast.**  In every interleaving of publishers, direct deliveries and
consumers, two live tasks whose counters do not wrap dequeue what was published to both in one
order, by priority classes, and pass nothing over. -/
theorem total_order_broadcast (rep : Node (Msg τ) → ℕ → UInt8) (q : τ → MessageQueue (Msg τ))
    (hq : ∀ t, Created (q t)) (A B : τ) (es : List (BroadcastEvent τ)) (s : BroadcastSystem τ)
    (hrun : run (step rep) (init q) es = some s)
    (hA : Along (step rep) (Unwrapped rep A) (init q) es)
    (hB : Along (step rep) (Unwrapped rep B) (init q) es)
    (halA : s.broker.alive A = true) (halB : s.broker.alive B = true) :
    TotalOrder s A B ∧ TotalOrder s B A := by
  have hA' := run_traced (init_traced (hq A).rested) hA hrun
  have hB' := run_traced (init_traced (hq B).rested) hB hrun
  exact ⟨hA'.totalOrder hB' halA, hB'.totalOrder hA' halB⟩

/-- The counter condition of a run can be evaluated. -/
instance decidableUnwrapped (rep : Node (Msg τ) → ℕ → UInt8) (task : τ) (s : BroadcastSystem τ)
    (e : BroadcastEvent τ) : Decidable (Unwrapped rep task s e) :=
  match hs : step rep s e with
  | none => isTrue (fun s' h => by rw [hs] at h; cases h)
  | some s₁ => decidable_of_iff ((s₁.queues task).sinceReset < 2 ^ 32)
      ⟨fun h s' h' => by obtain rfl := Option.some.inj (hs.symm.trans h'); exact h,
        fun h => h s₁ hs⟩

/-- A run with two publications and a direct delivery. -/
def twoHeartbeats : List (BroadcastEvent ℕ) :=
  [.broker (.brokerInitialize 16),
    .broker (.subscribe 0 .heartbeatMsg), .broker (.subscribe 1 .heartbeatMsg),
    .broker (.publish ⟨none, .heartbeatMsg ⟨1, 10⟩⟩), .broker .iterate, .broker .iterate,
    .broker .finish, .deliver 1 ⟨none, .heartbeatMsg ⟨7, 0⟩⟩,
    .broker (.publish ⟨none, .heartbeatMsg ⟨2, 20⟩⟩), .broker .iterate, .dequeue 1,
    .broker .iterate, .dequeue 0, .dequeue 1, .broker .finish, .dequeue 1, .tryDequeue 0]

/-- Two heartbeats are published to two tasks; the second task gets a third one directly in
between and dequeues while the second call is inside its loop. -/
theorem total_order_broadcast_two : ∃ q s,
    MessageQueue.create 16 3 4096 (fun _ => 0) (fun _ => ⟨⟨none, .stateMsg ⟨0⟩⟩, 0⟩) = .ok q ∧
    run (step (fun _ _ => 255)) (init (fun _ : ℕ => q)) twoHeartbeats = some s ∧
    (s.dequeued 0 = [0, 1] ∧ s.dequeued 1 = [0, 1]) ∧ TotalOrder s 0 1 := by
  obtain ⟨q, hq, -⟩ := @QueueSystem.create_blocks _ 16 3 4096
    (fun _ => 0) (fun _ => (⟨⟨none, .stateMsg ⟨0⟩⟩, 0⟩ : Node (Msg ℕ))) (by decide) (by decide)
    (by decide) (by decide)
  have hcreated : ∀ _ : ℕ, Created q := fun _ =>
    ⟨16, 3, 4096, _, _, by decide, by decide, by decide, by decide, hq⟩
  have heval : (MessageQueue.create 16 3 4096 (fun _ => 0)
      (fun _ => (⟨⟨none, .stateMsg ⟨0⟩⟩, 0⟩ : Node (Msg ℕ)))).toOption.bind (fun q =>
        if Along (step (fun _ _ => 255)) (Unwrapped (fun _ _ => 255) 0) (init (fun _ : ℕ => q))
            twoHeartbeats ∧
          Along (step (fun _ _ => 255)) (Unwrapped (fun _ _ => 255) 1) (init (fun _ : ℕ => q))
            twoHeartbeats then
        (run (step (fun _ _ => 255)) (init (fun _ : ℕ => q)) twoHeartbeats).map
          (fun s => (s.dequeued 0, s.dequeued 1, s.broker.alive 0, s.broker.alive 1)) else none) =
      some ([0, 1], [0, 1], true, true) := by decide +kernel
  rw [hq, Except.toOption, Option.bind_some] at heval
  split_ifs at heval with halong
  obtain ⟨s, hrun, hval⟩ := Option.map_eq_some_iff.mp heval
  obtain ⟨h0, hval⟩ := Prod.mk.inj hval
  obtain ⟨h1, hval⟩ := Prod.mk.inj hval
  obtain ⟨hal0, hal1⟩ := Prod.mk.inj hval
  exact ⟨q, s, hq, hrun, ⟨h0, h1⟩, (total_order_broadcast (fun _ _ => 255) (fun _ => q) hcreated
    0 1 twoHeartbeats s hrun halong.1 halong.2 hal0 hal1).1⟩

end BroadcastSystem

end Protocore
