import Protocore.Lifecycle
import Protocore.Network

/-! # The mailbox of a task

What the queue and the queue thread of a task are for: messages wait in the order of their arrival, the
thread takes the first of the highest priority, handles it and takes the next.  `Mailbox` says this
without heap, counter, blocks, condition variable and flags of the task; `stop` and `start` do not occur
in it, except that after the first `stop` the thread may find nothing.

* `Mailbox.run_conserved`: of each priority, what was there and what is delivered is, in this order,
  what is handled and what is left.
* `refines_mailbox`: every run of a task, started and stopped any number of times and destroyed at the
  end, is a run of the mailbox.  So no message is lost or handled twice when the task is stopped: those
  that wait stay for the next `start`. -/

namespace Protocore

/-- The messages that wait, in order of arrival, the one the queue thread has in its hands, and whether
the thread may find nothing. -/
structure Mailbox (μ : Type) where
  waiting : List μ
  inHand : Option μ
  down : Bool

/-- What is seen of a task: a delivery, what `dequeue` returns, a message that has been handled, and the
shutdown of the queue. -/
inductive MailboxEvent (μ : Type) where
  | deliver (message : μ)
  | take (result : Option μ)
  | handle (message : μ)
  | notifyShutdown

/-- The message of a delivery. -/
def MailboxEvent.delivered {μ : Type} : MailboxEvent μ → Option μ
  | .deliver message => some message
  | _ => none

/-- The message that has been handled. -/
def MailboxEvent.handled {μ : Type} : MailboxEvent μ → Option μ
  | .handle message => some message
  | _ => none

namespace Mailbox

variable {μ : Type} [DecidableEq μ] {prio : μ → ℕ} {capacity : ℕ} {b b' : Mailbox μ}

/-- Nothing has been delivered. -/
def empty (μ : Type) : Mailbox μ := ⟨[], none, false⟩

/-- The queue thread takes the first message of the highest priority, or nothing after a shutdown. -/
def take (prio : μ → ℕ) (b : Mailbox μ) (result : Option μ) : Option (Mailbox μ) :=
  match StableQueue.pop prio b.waiting with
  | some (message, rest) =>
      if result = some message then some { b with waiting := rest, inHand := result } else none
  | none => if result = none ∧ b.down then some b else none

/-- One step; the queue has room for `capacity` messages. -/
def step (prio : μ → ℕ) (capacity : ℕ) (b : Mailbox μ) : MailboxEvent μ → Option (Mailbox μ)
  | .deliver message =>
      if b.waiting.length < capacity then some { b with waiting := b.waiting ++ [message] } else none
  | .take result => if b.inHand = none then b.take prio result else none
  | .handle message => if b.inHand = some message then some { b with inHand := none } else none
  | .notifyShutdown => some { b with down := true }

/-! ### What is delivered is handled -/

/-- The messages of priority `k`. -/
def ofPriority (prio : μ → ℕ) (k : ℕ) (l : List μ) : List μ := l.filter (fun m => prio m = k)

omit [DecidableEq μ] in
theorem ofPriority_append (k : ℕ) (l l' : List μ) :
    ofPriority prio k (l ++ l') = ofPriority prio k l ++ ofPriority prio k l' :=
  List.filter_append l l'

omit [DecidableEq μ] in
theorem ofPriority_pop {l l' : List μ} {message : μ}
    (h : StableQueue.pop prio l = some (message, l')) (k : ℕ) :
    ofPriority prio k l = ofPriority prio k [message] ++ ofPriority prio k l' := by
  have hg : ∀ m : μ, (Option.guard (fun m => decide (prio m = k)) m).isSome → prio m = k := by
    intro m hm
    simpa using hm
  have hpop := StableQueue.filterMap_pop prio h hg
  unfold ofPriority
  simp only [← List.filterMap_eq_filter]
  rw [hpop]
  cases hm : Option.guard (fun m => decide (prio m = k)) message <;> simp [hm]

/-- What has been delivered and not handled: in the hands of the thread or waiting. -/
def left (b : Mailbox μ) : List μ := b.inHand.toList ++ b.waiting

/-- What is left before a step and what the step delivers is what it handles and what is left after it. -/
theorem step_conserved {e : MailboxEvent μ} (hs : b.step prio capacity e = some b') (k : ℕ) :
    ofPriority prio k b.left ++ ofPriority prio k e.delivered.toList =
      ofPriority prio k e.handled.toList ++ ofPriority prio k b'.left := by
  cases e with
  | deliver message =>
      simp only [step] at hs
      split_ifs at hs
      obtain rfl := Option.some.inj hs
      simp [left, MailboxEvent.delivered, MailboxEvent.handled, ofPriority]
  | take result =>
      simp only [step] at hs
      split_ifs at hs with hhand
      unfold take at hs
      split at hs
      · rename_i message rest hpop
        split_ifs at hs with hresult
        obtain rfl := Option.some.inj hs
        have hfifo := ofPriority_pop hpop k
        simp only [left, hhand, hresult, Option.toList_none, List.nil_append, Option.toList_some,
          ofPriority_append, hfifo, MailboxEvent.delivered, MailboxEvent.handled]
        simp [ofPriority]
      · split_ifs at hs
        obtain rfl := Option.some.inj hs
        simp [MailboxEvent.delivered, MailboxEvent.handled, ofPriority]
  | handle message =>
      simp only [step] at hs
      split_ifs at hs with hhand
      obtain rfl := Option.some.inj hs
      rw [left, hhand, ofPriority_append]
      simp [left, MailboxEvent.delivered, MailboxEvent.handled, ofPriority]
  | notifyShutdown =>
      obtain rfl := Option.some.inj hs
      simp [left, MailboxEvent.delivered, MailboxEvent.handled, ofPriority]

theorem run_conserved {es : List (MailboxEvent μ)} (hrun : run (step prio capacity) b es = some b')
    (k : ℕ) :
    ofPriority prio k b.left ++ ofPriority prio k (es.filterMap MailboxEvent.delivered) =
      ofPriority prio k (es.filterMap MailboxEvent.handled) ++ ofPriority prio k b'.left := by
  induction es generalizing b with
  | nil =>
      obtain rfl : b = b' := by simpa using hrun
      simp [ofPriority]
  | cons e es ih =>
      obtain ⟨b₁, he, hes⟩ := run_cons_eq_some.mp hrun
      have hstep := step_conserved he k
      have hrest := ih hes
      have hcons : ∀ f : MailboxEvent μ → Option μ,
          ofPriority prio k ((e :: es).filterMap f) =
            ofPriority prio k (f e).toList ++ ofPriority prio k (es.filterMap f) := by
        intro f
        rw [← ofPriority_append]
        cases hf : f e <;> simp [hf]
      rw [hcons, hcons, ← List.append_assoc, hstep, List.append_assoc, hrest, List.append_assoc]

end Mailbox

/-! ### The two calls on the queue -/

namespace QueueSystem

variable {μ : Type} {prio : μ → ℕ} {rep : Node μ → ℕ → UInt8} {n : ℕ} {s : QueueSystem μ}

theorem Between.enqueue (h : Between prio n s) {message : μ} {q : MessageQueue μ}
    (hq : s.q.enqueue prio rep message = .ok q) (hw : s.q.sequence.toNat + 1 < 2 ^ 32) :
    ∃ s', Between prio n s' ∧ s'.q = q ∧ s'.messages = s.messages ++ [message] ∧
      s.messages.length < n := by
  unfold MessageQueue.enqueue at hq
  split at hq
  · rename_i raw q₁ halloc
    obtain rfl := Except.ok.inj hq
    rw [h.ordered.counter] at hw
    have hcall : QueueSystem.enqueueCall prio rep s message = some { s with
        q := q₁.pushNode prio rep raw message
        held := (raw :: s.held).erase raw
        enqueued := s.enqueued ++ [message]
        arrival := fun a => if a = raw then s.enqueued.length else s.arrival a
        sinceReset := s.sinceReset + 1 } := by
      unfold QueueSystem.enqueueCall
      simp only [halloc]
      rw [run_cons_eq_some]
      refine ⟨{ s with q := q₁, held := raw :: s.held }, ?_, ?_⟩
      · simp only [step, halloc]
      · rw [run_cons_eq_some]
        refine ⟨_, ?_, rfl⟩
        simp only [step]
        rw [if_pos ⟨by rw [h.popped]; rfl, List.mem_cons_self⟩]
    obtain ⟨hbetween, hmessages, hroom, -⟩ := h.enqueueCall hcall hw
    exact ⟨_, hbetween, rfl, hmessages, hroom⟩
  · cases hq

/-- `dequeue` is the pop under the mutex and the release of the node. -/
theorem Between.consumerCall_dequeue (rep : Node μ → ℕ → UInt8) (h : Between prio n s) {result : Option μ}
    {q : MessageQueue μ} (hq : s.q.dequeue prio = .ok (some (result, q))) :
    ∃ s', consumerCall prio rep s .dequeue = some s' ∧ s'.q = q ∧
      answered (s.q.dequeuePop prio) = result := by
  have hfree : s.popped.isNone = true := by rw [h.popped]; rfl
  unfold MessageQueue.dequeue at hq
  rcases s.q.dequeuePop_cases prio with ⟨-, -, hd⟩ | ⟨-, -, hd⟩ | ⟨-, p, q₁, hd, -, -⟩
  · rw [hd] at hq
    cases hq
  · rw [hd] at hq
    obtain ⟨rfl, rfl⟩ := Prod.mk.inj (Option.some.inj (Except.ok.inj hq))
    refine ⟨{ s with q := { s.q with sequence := 0 }, sinceReset := 0 }, ?_, rfl, ?_⟩
    · simp [consumerCall, step, h.popped, hd]
    · rw [hd]
      rfl
  · rw [hd] at hq
    simp only [Except.bind, MessageQueue.finish] at hq
    cases hf : q₁.freeNode p with
    | error f => rw [hf] at hq; cases hq
    | ok q₂ =>
        rw [hf] at hq
        obtain ⟨rfl, rfl⟩ := Prod.mk.inj (Option.some.inj (Except.ok.inj hq))
        refine ⟨{ s with
          q := q₂
          popped := none
          returned := s.returned ++ [s.arrival p]
          sinceReset := if q₁.queue.size = 0 then 0 else s.sinceReset }, ?_, rfl, ?_⟩
        · simp [consumerCall, step, hfree, hd, hf]
        · rw [hd]
          rfl

/-- `dequeue` that returns has taken the first message of the highest priority, or found nothing after a
shutdown. -/
theorem Between.dequeue (h : Between prio n s) {result : Option μ} {q : MessageQueue μ}
    (hq : s.q.dequeue prio = .ok (some (result, q))) :
    ∃ s', Between prio n s' ∧ s'.q = q ∧
      ((∃ message, result = some message ∧
          StableQueue.pop prio s.messages = some (message, s'.messages)) ∨
        (result = none ∧ s.messages = [] ∧ s'.messages = [] ∧ s.q.shutdown = true)) := by
  obtain ⟨s', hcall, rfl, hanswered⟩ := h.consumerCall_dequeue (fun _ _ => 0) hq
  obtain ⟨hbetween, -, hcases⟩ := h.dequeueCall hcall
  rw [hanswered] at hcases
  refine ⟨s', hbetween, rfl, ?_⟩
  rcases hcases with htaken | ⟨hnone, hnil, hsame, hdown⟩
  · exact .inl htaken
  · exact .inr ⟨hnone, hnil, hsame.trans hnil, hdown⟩

end QueueSystem

/-! ### A task and its mailbox -/

/-- The message in the hands of the queue thread. -/
def RunPc.message {τ : Type} : RunPc τ → Option (Msg τ)
  | .handling msg => some msg
  | _ => none

/-- The message of a delivery. -/
def LifecycleEvent.delivered {τ : Type} : LifecycleEvent τ → Option (Msg τ)
  | .deliver msg => some msg
  | _ => none

namespace LifecycleSystem

variable {τ : Type}

/-- What is seen of a step of a task. -/
def seen (s : LifecycleSystem τ) : LifecycleEvent τ → List (MailboxEvent (Msg τ))
  | .deliver msg => [.deliver msg]
  | .dequeue => [.take s.queue.front]
  | .handle => s.thread.message.toList.map .handle
  | .stopNotify => [.notifyShutdown]
  | _ => []

/-- The sequence counter does not wrap at a delivery. -/
def Unwrapped (s : LifecycleSystem τ) : LifecycleEvent τ → Prop
  | .deliver _ => s.queue.sequence.toNat + 1 < 2 ^ 32
  | _ => True

variable [DecidableEq τ]

/-- The mailbox `b` is what the task looks like from outside; `qs` is its queue with the order of
arrival. -/
structure Mirrors (n : ℕ) (b : Mailbox (Msg τ)) (qs : QueueSystem (Msg τ)) (s : LifecycleSystem τ) :
    Prop where
  tended : Tended s
  between : QueueSystem.Between Msg.getPriority n qs
  queue : qs.q = s.queue
  waiting : b.waiting = qs.messages
  inHand : b.inHand = s.thread.message
  down : b.down = s.queue.shutdown

section steps
variable {rep : Node (Msg τ) → ℕ → UInt8} {n : ℕ} {b : Mailbox (Msg τ)} {qs : QueueSystem (Msg τ)}
  {s s' : LifecycleSystem τ}

/-- A step that touches neither the queue nor the message in hand. -/
theorem Mirrors.same (h : Mirrors n b qs s) (htended : Tended s') (hqueue : s'.queue = s.queue)
    (hmessage : s'.thread.message = s.thread.message) : Mirrors n b qs s' where
  tended := htended
  between := h.between
  queue := by rw [h.queue, hqueue]
  waiting := h.waiting
  inHand := by rw [h.inHand, hmessage]
  down := by rw [h.down, hqueue]

theorem liveStep_of_step {e : LifecycleEvent τ} (hs : step rep s e = some s') :
    s.liveStep rep e = some s' := by
  unfold step at hs
  split_ifs at hs
  exact hs

theorem Mirrors.deliver (h : Mirrors n b qs s) {msg : Msg τ} (hw : Unwrapped s (.deliver msg))
    (hs : step rep s (.deliver msg) = some s') :
    ∃ b' qs', b.step Msg.getPriority n (.deliver msg) = some b' ∧ Mirrors n b' qs' s' := by
  have htended := moves_tended h.tended (step_moves hs)
  replace hs := liveStep_of_step hs
  simp only [liveStep] at hs
  split_ifs at hs
  split at hs
  · rename_i queue hqueue
    obtain rfl := Option.some.inj hs
    have hdown := MessageQueue.enqueue_shutdown hqueue
    rw [← h.queue] at hqueue
    obtain ⟨qs', hbetween, rfl, hmessages, hroom⟩ := h.between.enqueue hqueue (by rw [h.queue]; exact hw)
    refine ⟨{ b with waiting := b.waiting ++ [msg] }, qs', ?_, htended, hbetween, rfl, ?_, h.inHand, ?_⟩
    · simp only [Mailbox.step]
      rw [if_pos (by rw [h.waiting]; exact hroom)]
    · rw [hmessages, h.waiting]
    · exact h.down.trans hdown.symm
  · cases hs

theorem Mirrors.dequeue (h : Mirrors n b qs s) (hs : step rep s .dequeue = some s') :
    ∃ b' qs', b.step Msg.getPriority n (.take s.queue.front) = some b' ∧ Mirrors n b' qs' s' := by
  have htended := moves_tended h.tended (step_moves hs)
  replace hs := liveStep_of_step hs
  simp only [liveStep] at hs
  split_ifs at hs with hthread
  have hfree : b.inHand = none := by rw [h.inHand, hthread]; rfl
  have hstep : ∀ result, b.step Msg.getPriority n (.take result) = b.take Msg.getPriority result := by
    intro result
    simp only [Mailbox.step]
    rw [if_pos hfree]
  rw [hstep]
  split at hs
  · rename_i msg queue hqueue
    obtain rfl := Option.some.inj hs
    have hdown := MessageQueue.dequeue_shutdown hqueue
    rw [MessageQueue.dequeue_front hqueue]
    rw [← h.queue] at hqueue
    obtain ⟨qs', hbetween, rfl, ⟨message, heq, hpop⟩ | ⟨hnone, -⟩⟩ := h.between.dequeue hqueue
    · obtain rfl := Option.some.inj heq
      refine ⟨{ b with waiting := qs'.messages, inHand := some msg }, qs', ?_, htended, hbetween, rfl,
        rfl, rfl, h.down.trans hdown.symm⟩
      unfold Mailbox.take
      rw [h.waiting, hpop]
      exact if_pos rfl
    · cases hnone
  · rename_i queue hqueue
    obtain rfl := Option.some.inj hs
    have hdown := MessageQueue.dequeue_shutdown hqueue
    rw [MessageQueue.dequeue_front hqueue]
    rw [← h.queue] at hqueue
    obtain ⟨qs', hbetween, rfl, ⟨message, heq, -⟩ | ⟨-, hnil, hnil', hshut⟩⟩ := h.between.dequeue hqueue
    · cases heq
    · refine ⟨b, qs', ?_, htended, hbetween, rfl, ?_, hfree, h.down.trans hdown.symm⟩
      · unfold Mailbox.take
        rw [h.waiting, hnil]
        rw [h.queue, ← h.down] at hshut
        exact if_pos ⟨rfl, hshut⟩
      · rw [h.waiting, hnil, hnil']
  · cases hs
  · cases hs

omit [DecidableEq τ] in
/-- `process_message` leaves the queue alone and has the message behind it. -/
theorem processMessage_frame (s : LifecycleSystem τ) (msg : Msg τ) :
    (s.processMessage msg).queue = s.queue ∧ (s.processMessage msg).thread.message = none := by
  unfold processMessage
  split
  · exact ⟨rfl, rfl⟩
  · exact ⟨rfl, rfl⟩
  · exact ⟨rfl, rfl⟩

theorem Mirrors.handle (h : Mirrors n b qs s) (hs : step rep s .handle = some s') :
    ∃ msg b', s.thread.message = some msg ∧ b.step Msg.getPriority n (.handle msg) = some b' ∧
      Mirrors n b' qs s' := by
  have htended := moves_tended h.tended (step_moves hs)
  replace hs := liveStep_of_step hs
  simp only [liveStep] at hs
  split at hs
  · rename_i msg hthread
    obtain rfl := Option.some.inj hs
    have hmessage : s.thread.message = some msg := by rw [hthread]; rfl
    obtain ⟨hqueue, hnone⟩ := s.processMessage_frame msg
    refine ⟨msg, { b with inHand := none }, hmessage, ?_, htended, h.between, ?_, h.waiting, ?_, ?_⟩
    · simp only [Mailbox.step]
      rw [if_pos (h.inHand.trans hmessage)]
    · rw [h.queue, hqueue]
    · rw [hnone]
    · rw [hqueue]
      exact h.down
  · cases hs

theorem Mirrors.stopNotify (h : Mirrors n b qs s) (hs : step rep s .stopNotify = some s') :
    ∃ b' qs', b.step Msg.getPriority n .notifyShutdown = some b' ∧ Mirrors n b' qs' s' := by
  have htended := moves_tended h.tended (step_moves hs)
  replace hs := liveStep_of_step hs
  simp only [liveStep] at hs
  split_ifs at hs
  obtain rfl := Option.some.inj hs
  have hcall : QueueSystem.consumerCall Msg.getPriority rep qs .notifyShutdown =
      some { qs with q := qs.q.notifyShutdown } := by
    simp [QueueSystem.consumerCall, QueueSystem.step, h.between.popped]
  obtain ⟨hbetween, hmessages, -⟩ := h.between.shutdownCall hcall
  refine ⟨{ b with down := true }, _, rfl, htended, hbetween, ?_, ?_, h.inHand, rfl⟩
  · rw [h.queue]
  · rw [hmessages]
    exact h.waiting

theorem moves_unseen {e : LifecycleEvent τ} (h : Tended s) (hm : Moves s e s') (he : s.seen e = []) :
    s'.queue = s.queue ∧ s'.thread.message = s.thread.message := by
  cases hm with
  | start hstop _ hrun =>
      obtain ⟨hthread, -⟩ := h.joined hrun hstop
      exact ⟨rfl, by rw [hthread]; rfl⟩
  | stopNotify => cases he
  | deliver => cases he
  | dequeue => cases he
  | stopJoin _ hthread =>
      refine ⟨rfl, ?_⟩
      rcases hthread with hthread | hthread
      · rw [hthread]
      · rw [hthread]
        rfl
  | test hthread =>
      refine ⟨rfl, ?_⟩
      rw [hthread]
      cases s.running <;> rfl
  | handle hthread =>
      rw [seen, hthread] at he
      cases he
  | publish hthread =>
      refine ⟨rfl, ?_⟩
      rw [hthread]
      rfl
  | release hthread =>
      refine ⟨rfl, ?_⟩
      rw [hthread]
      rfl
  | _ => exact ⟨rfl, rfl⟩

theorem Mirrors.step {e : LifecycleEvent τ} (h : Mirrors n b qs s) (hw : Unwrapped s e)
    (hs : step rep s e = some s') :
    ∃ b' qs', run (Mailbox.step Msg.getPriority n) b (s.seen e) = some b' ∧ Mirrors n b' qs' s' := by
  have hm := step_moves hs
  have hunseen : s.seen e = [] →
      ∃ b' qs', run (Mailbox.step Msg.getPriority n) b (s.seen e) = some b' ∧ Mirrors n b' qs' s' := by
    intro he
    obtain ⟨hqueue, hmessage⟩ := moves_unseen h.tended hm he
    rw [he]
    exact ⟨b, qs, rfl, h.same (moves_tended h.tended hm) hqueue hmessage⟩
  have hone : ∀ x b', b.step Msg.getPriority n x = some b' →
      run (Mailbox.step Msg.getPriority n) b [x] = some b' := by
    intro x b' hx
    rw [run_cons_eq_some]
    exact ⟨b', hx, rfl⟩
  cases e with
  | deliver msg =>
      obtain ⟨b', qs', hb, hmirrors⟩ := h.deliver hw hs
      exact ⟨b', qs', hone _ _ hb, hmirrors⟩
  | dequeue =>
      obtain ⟨b', qs', hb, hmirrors⟩ := h.dequeue hs
      exact ⟨b', qs', hone _ _ hb, hmirrors⟩
  | handle =>
      obtain ⟨msg, b', hmessage, hb, hmirrors⟩ := h.handle hs
      refine ⟨b', qs, ?_, hmirrors⟩
      rw [seen, hmessage]
      exact hone _ _ hb
  | stopNotify =>
      obtain ⟨b', qs', hb, hmirrors⟩ := h.stopNotify hs
      exact ⟨b', qs', hone _ _ hb, hmirrors⟩
  | _ => exact hunseen rfl

/-! ### Whole runs -/

theorem Mirrors.run {es : List (LifecycleEvent τ)} (h : Mirrors n b qs s)
    (hw : Along (LifecycleSystem.step rep) Unwrapped s es)
    (hrun : Protocore.run (LifecycleSystem.step rep) s es = some s') :
    ∃ b' qs', Protocore.run (Mailbox.step Msg.getPriority n) b
      (viewed (LifecycleSystem.step rep) seen s es) = some b' ∧ Mirrors n b' qs' s' := by
  have hstep : ∀ l (s : LifecycleSystem τ) e s',
      (∃ b' qs', Protocore.run (Mailbox.step Msg.getPriority n) b l = some b' ∧ Mirrors n b' qs' s) →
      Unwrapped s e → LifecycleSystem.step rep s e = some s' →
      ∃ b' qs', Protocore.run (Mailbox.step Msg.getPriority n) b (l ++ seen s e) = some b' ∧
        Mirrors n b' qs' s' := by
    rintro l s e s' ⟨b₁, qs₁, hl, hmirrors⟩ hunwrapped hs
    obtain ⟨b₂, qs₂, hseen, hmirrors₂⟩ := hmirrors.step hunwrapped hs
    exact ⟨b₂, qs₂, run_append_eq_some.mpr ⟨b₁, hl, hseen⟩, hmirrors₂⟩
  have hseen := viewed_invariant (l := []) hstep ⟨b, qs, rfl, h⟩ hw hrun
  rwa [List.nil_append] at hseen

theorem created_mirrors {q : MessageQueue (Msg τ)} (hq : BroadcastSystem.Created q) (interval : Bool) :
    Mirrors q.pool.blockCount (Mailbox.empty (Msg τ)) (QueueSystem.init q) (created q interval) where
  tended := created_tended q interval
  between := hq.between.1
  queue := rfl
  waiting := rfl
  inHand := rfl
  down := hq.between.2.symm

omit [DecidableEq τ] in
theorem filterMap_seen (s : LifecycleSystem τ) (e : LifecycleEvent τ) :
    (s.seen e).filterMap MailboxEvent.delivered = e.delivered.toList := by
  cases e with
  | handle =>
      rw [seen]
      cases s.thread.message <;> rfl
  | _ => rfl

theorem viewed_delivered {es : List (LifecycleEvent τ)}
    (hrun : Protocore.run (LifecycleSystem.step rep) s es = some s') :
    (viewed (LifecycleSystem.step rep) seen s es).filterMap MailboxEvent.delivered =
      es.filterMap LifecycleEvent.delivered := by
  induction es generalizing s with
  | nil => rfl
  | cons e es ih =>
      obtain ⟨s₁, he, hes⟩ := run_cons_eq_some.mp hrun
      rw [viewed_cons he, List.filterMap_append, filterMap_seen, ih hes]
      cases hd : e.delivered <;> simp [hd]

/-- The messages in the vector of the queue. -/
def queued (s : LifecycleSystem τ) : List (Msg τ) :=
  s.queue.queue.toList.map (fun p => (s.queue.nodes p).message)

theorem Mirrors.perm (h : Mirrors n b qs s) : b.waiting.Perm s.queued := by
  have hvector := h.between.ordered.vector.map Prod.fst
  rw [List.map_map, h.queue] at hvector
  rw [h.waiting]
  have hcontent : (Prod.fst ∘ qs.content) = fun p => (s.queue.nodes p).message := by
    funext p
    simp [QueueSystem.content, h.queue]
  rw [hcontent] at hvector
  exact hvector.symm

/-- **A task handles what it is sent, once and in order, whatever starts and stops it.**  Every run in
which the sequence counter does not wrap is seen as a run of a mailbox: the queue thread takes the first
message of the highest priority, one at a time.  Of each priority, the messages that were delivered are,
in this order, those that have been handled, the one in hand and those that wait; and what waits is in
the queue. -/
theorem refines_mailbox {q : MessageQueue (Msg τ)} {interval : Bool} {es : List (LifecycleEvent τ)}
    (hq : BroadcastSystem.Created q)
    (hrun : Protocore.run (LifecycleSystem.step rep) (created q interval) es = some s)
    (hw : Along (LifecycleSystem.step rep) Unwrapped (created q interval) es) :
    ∃ b : Mailbox (Msg τ),
      Protocore.run (Mailbox.step Msg.getPriority q.pool.blockCount) (Mailbox.empty (Msg τ))
        (viewed (LifecycleSystem.step rep) seen (created q interval) es) = some b ∧
      b.inHand = s.thread.message ∧ b.waiting.Perm s.queued ∧
      ∀ k, Mailbox.ofPriority Msg.getPriority k (es.filterMap LifecycleEvent.delivered) =
        Mailbox.ofPriority Msg.getPriority k
          ((viewed (LifecycleSystem.step rep) seen (created q interval) es).filterMap
            MailboxEvent.handled) ++
        Mailbox.ofPriority Msg.getPriority k (b.inHand.toList ++ b.waiting) := by
  obtain ⟨b, qs, hb, hmirrors⟩ := (created_mirrors hq interval).run hw hrun
  refine ⟨b, hb, hmirrors.inHand, hmirrors.perm, ?_⟩
  intro k
  have hconserved := Mailbox.run_conserved hb k
  rw [viewed_delivered hrun] at hconserved
  exact hconserved

end steps

instance decidableUnwrapped (s : LifecycleSystem τ) : ∀ e, Decidable (Unwrapped s e)
  | .deliver _ => inferInstanceAs (Decidable (s.queue.sequence.toNat + 1 < 2 ^ 32))
  | .start | .stop | .stopAssign | .stopPublish | .stopNotify | .stopJoin | .stopJoinPeriodic | .test
  | .dequeue | .handle | .publish | .release | .periodicTest | .periodicProcess | .acquire | .drop
  | .destructor => inferInstanceAs (Decidable True)

/-- Two heartbeats; `stop` comes while the first is handled, and a command arrives; the second heartbeat
is still there after the next `start`, behind the command. -/
def handledAcrossStop : List (LifecycleEvent ℕ) :=
  [.start, .deliver ⟨none, .heartbeatMsg ⟨1, 0⟩⟩, .deliver ⟨none, .heartbeatMsg ⟨2, 0⟩⟩, .test, .dequeue,
    .stop, .stopAssign, .deliver ⟨none, .stateMsg ⟨2⟩⟩, .handle, .stopPublish, .stopNotify, .publish,
    .release, .test, .stopJoin, .stopJoinPeriodic, .start, .test, .dequeue, .handle]

theorem refines_mailbox_restarted : ∃ q s b,
    fourMessages = .ok q ∧
    run (step (fun _ _ => 255)) (created q false) handledAcrossStop = some s ∧
    (viewed (step (fun _ _ => 255)) seen (created q false) handledAcrossStop).filterMap
      MailboxEvent.handled = [⟨none, .heartbeatMsg ⟨1, 0⟩⟩, ⟨none, .stateMsg ⟨2⟩⟩] ∧
    run (Mailbox.step Msg.getPriority q.pool.blockCount) (Mailbox.empty (Msg ℕ))
      (viewed (step (fun _ _ => 255)) seen (created q false) handledAcrossStop) = some b ∧
    b.waiting = [⟨none, .heartbeatMsg ⟨2, 0⟩⟩] := by
  have heval : fourMessages.toOption.bind (fun q =>
      (run (step (fun _ _ => 255)) (created q false) handledAcrossStop).map (fun s =>
        (decide (Along (step (fun _ _ => 255)) Unwrapped (created q false) handledAcrossStop),
          (viewed (step (fun _ _ => 255)) seen (created q false) handledAcrossStop).filterMap
            MailboxEvent.handled, s.queued))) =
      some (true, [⟨none, .heartbeatMsg ⟨1, 0⟩⟩, ⟨none, .stateMsg ⟨2⟩⟩],
        [⟨none, .heartbeatMsg ⟨2, 0⟩⟩]) := by decide +kernel
  obtain ⟨q, hq, heval⟩ := Option.bind_eq_some_iff.mp heval
  obtain ⟨s, hrun, heval⟩ := Option.map_eq_some_iff.mp heval
  obtain ⟨hw, hrest⟩ := Prod.mk.inj heval
  obtain ⟨hhandled, hqueued⟩ := Prod.mk.inj hrest
  have hcreated : BroadcastSystem.Created q :=
    ⟨16, 4, 4096, fun _ => 0, fun _ => ⟨⟨none, .stateMsg ⟨0⟩⟩, 0⟩, by decide, by decide, by decide,
      by decide, eq_ok_of_toOption hq⟩
  obtain ⟨b, hb, -, hperm, -⟩ := refines_mailbox hcreated hrun (of_decide_eq_true hw)
  rw [hqueued] at hperm
  exact ⟨q, s, b, eq_ok_of_toOption hq, hrun, hhandled, hb, List.perm_singleton.mp hperm⟩

end LifecycleSystem

end Protocore
