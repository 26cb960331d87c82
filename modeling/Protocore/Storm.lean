import Protocore.Owed
import Protocore.Monitoring

/-! # A storm of acknowledgments

All tasks answer a command of the state manager, and all answers go into one queue with a fixed
number of blocks.  `StormSystem` puts the `MessageQueue` of the manager under the protocol: a task
that publishes its acknowledgment first allocates a block, which asserts that there is one, and then
pushes the node; the manager pops a node and gives its block back.  The list that the protocol keeps
for the manager says which messages are in the vector, `QueueSystem` says where the blocks are.

`acks_fit_iff`: one demand stays clear of the assertion in every interleaving iff the registered
tasks, with the acknowledgments they owe when it starts, fit into the queue. -/

namespace Protocore

variable {κ τ : Type} [DecidableEq κ] [LinearOrder τ]

/-- The protocol, the message queue of the manager with the threads inside its operations, and the
assertion that has failed. -/
structure StormSystem (κ τ : Type) [LinearOrder τ] where
  protocol : ProtocolSystem κ τ
  queue : QueueSystem (Msg τ)
  aborted : Option Fault

/-- The first half of `enqueue` and of `dequeue` on the manager's queue, and the steps of the
protocol; the second halves are its deliveries and dequeues. -/
inductive StormEvent (κ τ : Type) where
  | allocate
  | pop
  | protocol (e : ProtocolEvent κ τ)

namespace StormSystem

section defs

variable (subs : MsgType → List τ) (rep : Node (Msg τ) → ℕ → UInt8)

/-- The message whose delivery to the manager is next. -/
def reaching (s : StormSystem κ τ) : Option (Msg τ) :=
  match s.protocol.sub with
  | some ⟨_, msg, x :: _⟩ => if x = s.protocol.manager.self then some msg else none
  | _ => none

/-- What a step of the protocol does to the manager's queue; the manager has subscribed to
acknowledgments only. -/
def managerQueue (s : StormSystem κ τ) : ProtocolEvent κ τ → Option (QueueSystem (Msg τ))
  | .deliver =>
      match s.reaching with
      | some msg => s.queue.held.head?.bind
          (fun raw => QueueSystem.step Msg.getPriority rep s.queue (.push raw msg))
      | none => some s.queue
  | .dequeue x =>
      if x = s.protocol.manager.self then QueueSystem.step Msg.getPriority rep s.queue .release
      else some s.queue
  | .other x _ => if x = s.protocol.manager.self then none else some s.queue
  | _ => some s.queue

/-- One step; a failed assertion ends the process. -/
def step (s : StormSystem κ τ) (e : StormEvent κ τ) : Option (StormSystem κ τ) :=
  if s.aborted.isSome then none
  else match e with
    | .allocate =>
        if s.reaching.isSome ∧ s.queue.held = [] then
          match s.queue.q.allocateNode with
          | .ok (raw, q) => some { s with queue := { s.queue with q := q, held := [raw] } }
          | .error f => some { s with aborted := some f }
        else none
    | .pop =>
        match s.protocol.thread s.protocol.manager.self with
        | .idle => (QueueSystem.step Msg.getPriority rep s.queue .dequeue).map
            (fun queue => { s with queue := queue })
        | _ => none
    | .protocol e =>
        (s.managerQueue rep e).bind (fun queue =>
          (ProtocolSystem.step subs s.protocol e).map (fun protocol =>
            { s with protocol := protocol, queue := queue }))

/-- The system after the registration of `tasks` with the manager `mgr`, whose queue is `q`. -/
def start (mgr : τ) (tasks : List τ) (currentState targetState : TaskState)
    (q : MessageQueue (Msg τ)) : StormSystem κ τ :=
  ⟨ProtocolSystem.start mgr tasks currentState targetState, QueueSystem.init q, none⟩

/-- No further transition is requested. -/
def Processing : StormEvent κ τ → Prop
  | .protocol e => ProtocolSystem.Processing e
  | _ => True

/-- The acknowledgments pending in the manager's queue. -/
def pendingAcks (s : StormSystem κ τ) : List (Msg τ) :=
  (s.protocol.queue s.protocol.manager.self).filter
    (fun msg => decide (msg.getType = .stateAckMsg))

end defs

/-- Everything a step can do: the assertion fails, a producer or the manager is half-way through
its operation, or the protocol moves and the manager's queue follows. -/
inductive Moves (subs : MsgType → List τ) (rep : Node (Msg τ) → ℕ → UInt8) (s : StormSystem κ τ) :
    StormEvent κ τ → StormSystem κ τ → Prop
  | abort {msg : Msg τ} {f : Fault} (hmsg : s.reaching = some msg) (hheld : s.queue.held = [])
      (h : s.queue.q.allocateNode = .error f) : Moves subs rep s .allocate { s with aborted := some f }
  | allocate {msg : Msg τ} {raw : ℕ} {q : MessageQueue (Msg τ)} (hmsg : s.reaching = some msg)
      (hheld : s.queue.held = []) (h : s.queue.q.allocateNode = .ok (raw, q)) :
      Moves subs rep s .allocate { s with queue := { s.queue with q := q, held := [raw] } }
  | pop {queue : QueueSystem (Msg τ)}
      (h : QueueSystem.step Msg.getPriority rep s.queue .dequeue = some queue) :
      Moves subs rep s .pop { s with queue := queue }
  | protocol {e : ProtocolEvent κ τ} {queue : QueueSystem (Msg τ)} {protocol : ProtocolSystem κ τ}
      (hq : s.managerQueue rep e = some queue)
      (h : ProtocolSystem.step subs s.protocol e = some protocol) :
      Moves subs rep s (.protocol e) { s with protocol := protocol, queue := queue }

variable {subs : MsgType → List τ} {rep : Node (Msg τ) → ℕ → UInt8}

theorem step_moves {s s' : StormSystem κ τ} {e : StormEvent κ τ} (h : step subs rep s e = some s') :
    s.aborted = none ∧ Moves subs rep s e s' := by
  have ha : s.aborted = none := by
    by_contra hne
    unfold step at h
    rw [if_pos (Option.isSome_iff_ne_none.mpr hne)] at h
    cases h
  unfold step at h
  rw [if_neg (by simp [ha])] at h
  refine ⟨ha, ?_⟩
  cases e with
  | allocate =>
      simp only at h
      split_ifs at h with hc
      obtain ⟨msg, hmsg⟩ := Option.isSome_iff_exists.mp hc.1
      split at h
      · rename_i raw q hq
        obtain rfl := Option.some.inj h
        exact .allocate hmsg hc.2 hq
      · rename_i f hf
        obtain rfl := Option.some.inj h
        exact .abort hmsg hc.2 hf
  | pop =>
      simp only at h
      split at h
      · obtain ⟨queue, hq, rfl⟩ := Option.map_eq_some_iff.mp h
        exact .pop hq
      · cases h
  | protocol e =>
      simp only at h
      obtain ⟨queue, hq, h⟩ := Option.bind_eq_some_iff.mp h
      obtain ⟨protocol, hp, rfl⟩ := Option.map_eq_some_iff.mp h
      exact .protocol hq hp

/-! ### The queue of the manager follows its list -/

/-- The blocks of the manager's queue are where they should be: one for each message of its list, and
at most one in the hands of the publisher whose message is next. -/
structure Coupled (mgr : τ) (tasks : List τ) (s : StormSystem κ τ) : Prop where
  addressed : ProtocolSystem.Addressed mgr tasks s.protocol
  blocks : QueueSystem.Blocks queueMsgCount s.queue
  length : (s.protocol.queue mgr).length = s.queue.q.queue.size + s.queue.poppedNodes.length
  held : s.queue.held = [] ∨ (s.queue.held.length = 1 ∧ s.reaching.isSome)

variable {mgr : τ} {tasks : List τ} {s s' : StormSystem κ τ}

omit [DecidableEq κ] in
theorem reaching_congr (hsub : s'.protocol.sub = s.protocol.sub)
    (hself : s'.protocol.manager.self = s.protocol.manager.self) : s'.reaching = s.reaching := by
  unfold reaching
  rw [hsub, hself]

omit [DecidableEq κ] in
theorem reaching_eq_some {msg : Msg τ} (h : s.reaching = some msg) :
    ∃ p rest, s.protocol.sub = some ⟨p, msg, s.protocol.manager.self :: rest⟩ := by
  unfold reaching at h
  split at h
  · rename_i p msg' x rest hsub
    split_ifs at h with hx
    obtain rfl := Option.some.inj h
    exact ⟨p, rest, by rw [hsub, hx]⟩
  · cases h

omit [DecidableEq κ] in
theorem Coupled.held_nil (h : Coupled mgr tasks s) (hr : s.reaching = none) : s.queue.held = [] := by
  rcases h.held with hheld | ⟨-, hsome⟩
  · exact hheld
  · rw [hr] at hsome
    cases hsome

theorem protocol_deliver_coupled (hr : ProtocolSystem.Roster subs mgr tasks) (h : Coupled mgr tasks s)
    {queue : QueueSystem (Msg τ)} {protocol : ProtocolSystem κ τ}
    (hq : s.managerQueue rep .deliver = some queue)
    (hp : ProtocolSystem.step subs s.protocol .deliver = some protocol) :
    Coupled mgr tasks { s with protocol := protocol, queue := queue } := by
  have hself := h.addressed.consistent.self_eq
  have haddr := ProtocolSystem.moves_addressed hr h.addressed (ProtocolSystem.step_moves hp)
  simp only [managerQueue] at hq
  cases hreach : s.reaching with
  | none =>
      rw [hreach] at hq
      obtain rfl := Option.some.inj hq
      refine ⟨haddr, h.blocks, ?_, .inl (h.held_nil hreach)⟩
      show (protocol.queue mgr).length = _
      rw [← h.length]
      rcases ProtocolSystem.step_deliver hp with ⟨p, msg, x, rest, hsub, hqueue⟩ | ⟨-, hqueue⟩
      · have hx : mgr ≠ x := by
          rintro rfl
          simp [reaching, hsub, hself] at hreach
        rw [hqueue, Function.update_of_ne hx]
      · rw [hqueue]
  | some msg =>
      rw [hreach] at hq
      obtain ⟨raw, hraw, hq⟩ := Option.bind_eq_some_iff.mp hq
      have hheld : s.queue.held = [raw] := by
        rcases h.held with hnil | ⟨hone, -⟩
        · rw [hnil] at hraw
          cases hraw
        · obtain ⟨raw', hraw'⟩ := List.length_eq_one_iff.mp hone
          rw [hraw'] at hraw
          obtain rfl := Option.some.inj hraw
          exact hraw'
      have hm := QueueSystem.step_moves hq
      have hb := QueueSystem.moves_blocks h.blocks hm
      obtain ⟨p, rest, hsub⟩ := reaching_eq_some hreach
      have hlen : (protocol.queue mgr).length = (s.protocol.queue mgr).length + 1 := by
        rcases ProtocolSystem.step_deliver hp with ⟨p', msg', x, rest', hsub', hqueue⟩ | ⟨⟨p', msg', hsub'⟩, -⟩
        · rw [hsub] at hsub'
          cases hsub'
          rw [hqueue, hself, Function.update_self, List.length_append, List.length_singleton]
        · rw [hsub] at hsub'
          cases hsub'
      cases hm with
      | take he _ _ _ => rcases he with he | he <;> cases he
      | push hfree _ =>
          refine ⟨haddr, hb, ?_, .inl (by simp [hheld])⟩
          have hperm := s.queue.q.pushNode_queue_perm Msg.getPriority rep raw msg
          have hsize := hperm.length_eq
          simp only [Array.length_toList, List.length_cons] at hsize
          show (protocol.queue mgr).length = (s.queue.q.pushNode Msg.getPriority rep raw msg).queue.size +
            s.queue.poppedNodes.length
          have hold := h.length
          omega

theorem protocol_dequeue_coupled (hr : ProtocolSystem.Roster subs mgr tasks) (h : Coupled mgr tasks s)
    {x : τ} {queue : QueueSystem (Msg τ)} {protocol : ProtocolSystem κ τ}
    (hq : s.managerQueue rep (.dequeue x) = some queue)
    (hp : ProtocolSystem.step subs s.protocol (.dequeue x) = some protocol) :
    Coupled mgr tasks { s with protocol := protocol, queue := queue } := by
  have hself := h.addressed.consistent.self_eq
  have haddr := ProtocolSystem.moves_addressed hr h.addressed (ProtocolSystem.step_moves hp)
  obtain ⟨⟨msg, rest, hperm, hqueue⟩, hsub⟩ := ProtocolSystem.step_dequeue hp
  have hreach : reaching { s with protocol := protocol, queue := queue } = s.reaching :=
    reaching_congr hsub (haddr.consistent.self_eq.trans hself.symm)
  simp only [managerQueue, hself] at hq
  split_ifs at hq with hx
  · subst hx
    have hm := QueueSystem.step_moves hq
    have hb := QueueSystem.moves_blocks h.blocks hm
    have hlen := hperm.length_eq
    cases hm with
    | take he _ _ _ => rcases he with he | he <;> cases he
    | @release ptr message q hpopped hfree =>
        obtain ⟨pool, rfl⟩ := MessageQueue.freeNode_frame hfree
        refine ⟨haddr, hb, ?_, by rw [hreach]; exact h.held⟩
        have hold := h.length
        simp only [QueueSystem.poppedNodes, hpopped, Option.map_some, Option.toList_some,
          List.length_cons, List.length_nil] at hold hlen
        show (protocol.queue x).length = s.queue.q.queue.size + 0
        rw [hqueue, Function.update_self]
        omega
  · obtain rfl := Option.some.inj hq
    refine ⟨haddr, h.blocks, ?_, by rw [hreach]; exact h.held⟩
    show (protocol.queue mgr).length = _
    rw [hqueue, Function.update_of_ne (Ne.symm hx)]
    exact h.length

omit [DecidableEq κ] in
/-- The other steps of the protocol do not touch the manager's queue. -/
theorem managerQueue_eq {e : ProtocolEvent κ τ} (hself : s.protocol.manager.self = mgr)
    {queue : QueueSystem (Msg τ)} (hq : s.managerQueue rep e = some queue) (hd : e ≠ .deliver)
    (hdq : e ≠ .dequeue mgr) : queue = s.queue := by
  cases e with
  | deliver => exact absurd rfl hd
  | dequeue x =>
      have hx : x ≠ mgr := fun he => hdq (by rw [he])
      simp only [managerQueue, hself, if_neg hx] at hq
      exact (Option.some.inj hq).symm
  | other x msg =>
      simp only [managerQueue] at hq
      split_ifs at hq
      exact (Option.some.inj hq).symm
  | _ => exact (Option.some.inj hq).symm

omit [DecidableEq κ] in
theorem managerQueue_not_other {e : ProtocolEvent κ τ} (hself : s.protocol.manager.self = mgr)
    {queue : QueueSystem (Msg τ)} (hq : s.managerQueue rep e = some queue) (msg : Msg τ) :
    e ≠ .other mgr msg := by
  rintro rfl
  simp [managerQueue, hself] at hq

theorem moves_coupled (hr : ProtocolSystem.Roster subs mgr tasks) (h : Coupled mgr tasks s)
    {e : StormEvent κ τ} (hm : Moves subs rep s e s') : Coupled mgr tasks s' := by
  have hself := h.addressed.consistent.self_eq
  cases hm with
  | abort _ _ _ => exact ⟨h.addressed, h.blocks, h.length, h.held⟩
  | @allocate msg raw q hmsg hheld hq =>
      have hb := QueueSystem.moves_blocks h.blocks
        (QueueSystem.Moves.allocate hq : QueueSystem.Moves Msg.getPriority rep _ _ _)
      rw [hheld] at hb
      obtain ⟨pool, rfl⟩ := MessageQueue.allocateNode_frame hq
      exact ⟨h.addressed, hb, h.length, .inr ⟨rfl, Option.isSome_iff_exists.mpr ⟨msg, hmsg⟩⟩⟩
  | pop hq =>
      have hm := QueueSystem.step_moves hq
      have hb := QueueSystem.moves_blocks h.blocks hm
      cases hm with
      | @take e p q n _ hfree hpops _ =>
          refine ⟨h.addressed, hb, ?_, h.held⟩
          have hsize := hpops.perm.length_eq
          have hold := h.length
          simp only [QueueSystem.poppedNodes, hfree, Option.map_none, Option.toList_none,
            Array.length_toList, List.length_cons, List.length_nil] at hsize hold
          show (s.protocol.queue mgr).length = q.queue.size + 1
          omega
      | dequeueNull _ _ _ => exact ⟨h.addressed, hb, h.length, h.held⟩
  | @protocol e queue protocol hq hp =>
      by_cases hd : e = .deliver
      · subst hd
        exact protocol_deliver_coupled hr h hq hp
      by_cases hdq : e = .dequeue mgr
      · subst hdq
        exact protocol_dequeue_coupled hr h hq hp
      have hmoves := ProtocolSystem.step_moves hp
      have haddr := ProtocolSystem.moves_addressed hr h.addressed hmoves
      obtain rfl := managerQueue_eq hself hq hd hdq
      obtain ⟨hqueue, hsub⟩ :=
        ProtocolSystem.moves_undisturbed hmoves hd hdq (managerQueue_not_other hself hq)
      refine ⟨haddr, h.blocks, ?_, ?_⟩
      · show (protocol.queue mgr).length = _
        rw [hqueue]
        exact h.length
      · rcases hsub with hnone | hsub
        · exact .inl (h.held_nil (by simp [reaching, hnone]))
        · rw [reaching_congr (s := s) hsub (haddr.consistent.self_eq.trans hself.symm)]
          exact h.held

omit [DecidableEq κ] in
theorem start_coupled (mgr : τ) (tasks : List τ) (currentState targetState : TaskState)
    {q : MessageQueue (Msg τ)} (hempty : q.queue = #[])
    (hb : QueueSystem.Blocks queueMsgCount (QueueSystem.init q)) :
    Coupled mgr tasks (start mgr tasks currentState targetState q : StormSystem κ τ) := by
  refine ⟨⟨ProtocolSystem.start_consistent mgr tasks currentState targetState, nofun, ?_⟩, hb, ?_,
    .inl rfl⟩
  · intro t _
    rfl
  · show 0 = q.queue.size + 0
    rw [hempty]
    rfl

/-! ### The bound -/

omit [DecidableEq κ] in
/-- The assertion fails only if the queue is full while a registered task still owes the
acknowledgment it is publishing. -/
theorem Coupled.full_of_abort (hr : ProtocolSystem.Roster subs mgr tasks) (h : Coupled mgr tasks s)
    (c : κ) {msg : Msg τ} {f : Fault} (hmsg : s.reaching = some msg) (hheld : s.queue.held = [])
    (hf : s.queue.q.allocateNode = .error f) :
    queueMsgCount < s.protocol.potential subs tasks c ∧ f = .outOfMemory := by
  have hself := h.addressed.consistent.self_eq
  have hcons := h.blocks.conserved
  obtain rfl := hcons.only_assertion f hf
  have hfull := hcons.assertion.mp hf
  rw [hheld, List.length_nil] at hfull
  obtain ⟨p, rest, hsub⟩ := reaching_eq_some hmsg
  rw [hself] at hsub
  cases p with
  | controller c' =>
      exact absurd (h.addressed.sub_tasks c' msg _ hsub mgr List.mem_cons_self) hr.notMem
  | task u =>
      obtain ⟨hu, -, hpos⟩ := h.addressed.owedBy_pos hsub List.mem_cons_self
      have howed := List.sum_map_erase s.protocol.owedBy hu
      have hlen := h.length
      refine ⟨?_, rfl⟩
      unfold ProtocolSystem.potential ProtocolSystem.owed
      rw [hself]
      omega

/-- No step adds to the potential, and only the manager takes from it. -/
theorem moves_potential (hr : ProtocolSystem.Roster subs mgr tasks) (h : Coupled mgr tasks s) {c : κ}
    (halone : ProtocolSystem.Alone c s.protocol) {e : StormEvent κ τ} (he : Processing e)
    (hm : Moves subs rep s e s') : ProtocolSystem.Alone c s'.protocol ∧
      s'.protocol.potential subs tasks c ≤ s.protocol.potential subs tasks c ∧
      (e ≠ .protocol (.dequeue mgr) →
        s'.protocol.potential subs tasks c = s.protocol.potential subs tasks c) := by
  cases hm with
  | @protocol e queue protocol hq hp =>
      have hmoves := ProtocolSystem.step_moves hp
      obtain ⟨hle, heq⟩ := ProtocolSystem.moves_potential hr h.addressed halone he
        (managerQueue_not_other h.addressed.consistent.self_eq hq) hmoves
      refine ⟨ProtocolSystem.moves_alone h.addressed.consistent halone he hmoves, hle, fun hne => ?_⟩
      exact heq (fun heq => hne (by rw [heq]))
  | _ => exact ⟨halone, le_rfl, fun _ => rfl⟩

theorem run_fits (hr : ProtocolSystem.Roster subs mgr tasks) (c : κ) {es : List (StormEvent κ τ)}
    (hes : ∀ e ∈ es, Processing e) :
    ∀ {s s' : StormSystem κ τ}, Coupled mgr tasks s → ProtocolSystem.Alone c s.protocol →
      s.aborted = none → s.protocol.potential subs tasks c ≤ queueMsgCount →
      run (step subs rep) s es = some s' → s'.aborted = none ∧ Coupled mgr tasks s' ∧
        s'.protocol.potential subs tasks c ≤ queueMsgCount := by
  induction es with
  | nil =>
      intro s s' h _ ha hfit hrun
      obtain rfl : s = s' := by simpa using hrun
      exact ⟨ha, h, hfit⟩
  | cons e es ih =>
      intro s s' h halone ha hfit hrun
      obtain ⟨s₁, hstep, hrun⟩ := run_cons_eq_some.mp hrun
      obtain ⟨-, hm⟩ := step_moves hstep
      obtain ⟨halone₁, hle, -⟩ := moves_potential hr h halone (hes e List.mem_cons_self) hm
      have ha₁ : s₁.aborted = none := by
        cases hm with
        | abort hmsg hheld hf =>
            have hfull := (h.full_of_abort hr c hmsg hheld hf).1
            omega
        | _ => exact ha
      exact ih (fun e' he' => hes e' (List.mem_cons_of_mem e he')) (moves_coupled hr h hm) halone₁ ha₁
        (hle.trans hfit) hrun

/-! ### The overflow -/

/-- The steps left to the broadcast in progress; the delivery to the manager is two. -/
def deliveriesLeft (s : StormSystem κ τ) : ℕ :=
  2 * ProtocolSystem.deliveriesLeft s.protocol.sub - s.queue.held.length

theorem step_protocol {e : ProtocolEvent κ τ} {queue : QueueSystem (Msg τ)}
    {protocol : ProtocolSystem κ τ} (ha : s.aborted = none)
    (hq : s.managerQueue rep e = some queue)
    (hp : ProtocolSystem.step subs s.protocol e = some protocol) :
    step subs rep s (.protocol e) = some { s with protocol := protocol, queue := queue } := by
  unfold step
  rw [if_neg (by simp [ha])]
  simp only [hq, hp, Option.bind_some, Option.map_some]

theorem moves_popped {e : StormEvent κ τ} (hm : Moves subs rep s e s') (hpop : e ≠ .pop)
    (hself : s.protocol.manager.self = mgr) (h : s.queue.popped = none) : s'.queue.popped = none := by
  cases hm with
  | abort _ _ _ => exact h
  | allocate _ _ _ => exact h
  | pop _ => exact absurd rfl hpop
  | @protocol e queue protocol hq hp =>
      by_cases hd : e = .deliver
      · subst hd
        simp only [managerQueue] at hq
        split at hq
        · obtain ⟨raw, -, hq⟩ := Option.bind_eq_some_iff.mp hq
          cases QueueSystem.step_moves hq with
          | take he _ _ _ => rcases he with he | he <;> cases he
          | push _ _ => exact h
        · exact (Option.some.inj hq) ▸ h
      by_cases hdq : e = .dequeue mgr
      · subst hdq
        simp only [managerQueue, hself, if_true] at hq
        cases QueueSystem.step_moves hq with
        | take he _ _ _ => rcases he with he | he <;> cases he
        | release _ _ => rfl
      · exact (managerQueue_eq hself hq hd hdq) ▸ h

/-- The step lowers the work before the tasks and the call, or goes on with the broadcast; or the
assertion fails. -/
def Advances (subs : MsgType → List τ) (tasks : List τ) (c : κ) (s s' : StormSystem κ τ) : Prop :=
  s'.aborted = some .outOfMemory ∨ (s'.aborted = none ∧
    (s'.protocol.labour subs tasks c < s.protocol.labour subs tasks c ∨
      (s'.protocol.labour subs tasks c = s.protocol.labour subs tasks c ∧
        s'.deliveriesLeft < s.deliveriesLeft)))

variable (rep) in
/-- A broadcast in progress goes on, or fails at the manager's queue. -/
theorem broadcast_advances (hr : ProtocolSystem.Roster subs mgr tasks) (h : Coupled mgr tasks s)
    (c : κ) (ha : s.aborted = none) (hpopped : s.queue.popped = none) {d : Delivery κ τ}
    (hsub : s.protocol.sub = some d) : ∃ e s', (e = .allocate ∨ e = .protocol .deliver) ∧
      step subs rep s e = some s' ∧ Advances subs tasks c s s' := by
  have hpos : 0 < ProtocolSystem.deliveriesLeft s.protocol.sub := by
    rw [hsub]
    exact Nat.succ_pos _
  obtain ⟨protocol, hp, hlt⟩ := ProtocolSystem.deliver_step (c := c) hr h.addressed hsub
  -- the delivery is possible once the block for it, if it needs one, is there
  have hdeliver : ∀ queue : QueueSystem (Msg τ), s.managerQueue rep .deliver = some queue →
      queue.held = [] → s.queue.held.length ≤ 1 → ∃ e s', (e = .allocate ∨ e = .protocol .deliver) ∧
        step subs rep s e = some s' ∧ Advances subs tasks c s s' := by
    intro queue hq hnil hone
    refine ⟨.protocol .deliver, _, .inr rfl, step_protocol ha hq hp, .inr ⟨ha, ?_⟩⟩
    rcases hlt with hlt | ⟨heq, hlt⟩
    · exact .inl hlt
    · refine .inr ⟨heq, ?_⟩
      simp only [deliveriesLeft, hnil, List.length_nil]
      omega
  cases hreach : s.reaching with
  | none =>
      have hnil := h.held_nil hreach
      exact hdeliver s.queue (by simp only [managerQueue, hreach]) hnil (by simp [hnil])
  | some msg =>
      rcases h.held with hheld | ⟨hone, -⟩
      · cases hq : s.queue.q.allocateNode with
        | error f =>
            obtain ⟨-, rfl⟩ := h.full_of_abort hr c hreach hheld hq
            refine ⟨.allocate, { s with aborted := some .outOfMemory }, .inl rfl, ?_, .inl rfl⟩
            simp [step, ha, hreach, hheld, hq]
        | ok r =>
            obtain ⟨raw, q⟩ := r
            refine ⟨.allocate, { s with queue := { s.queue with q := q, held := [raw] } }, .inl rfl,
              ?_, .inr ⟨ha, .inr ⟨rfl, ?_⟩⟩⟩
            · simp [step, ha, hreach, hheld, hq]
            · simp only [deliveriesLeft, hheld, List.length_nil, List.length_singleton]
              omega
      · obtain ⟨raw, hraw⟩ := List.length_eq_one_iff.mp hone
        obtain ⟨queue, hq, hnil⟩ : ∃ queue, s.managerQueue rep .deliver = some queue ∧
            queue.held = [] := by
          simp only [managerQueue, hreach, hraw, List.head?_cons, Option.bind_some,
            QueueSystem.step, hpopped, Option.isNone_none, List.mem_singleton, and_self, if_true]
          exact ⟨_, rfl, by simp⟩
        exact hdeliver queue hq hnil hone.le

variable (rep) in
theorem progress (hr : ProtocolSystem.Roster subs mgr tasks) (h : Coupled mgr tasks s) (c : κ)
    (ha : s.aborted = none) (hpopped : s.queue.popped = none) :
    (s.protocol.owed tasks = 0 ∧ s.protocol.undelivered subs c = 0) ∨
    ∃ e s', Processing e ∧ e ≠ .pop ∧ e ≠ .protocol (.dequeue mgr) ∧
      step subs rep s e = some s' ∧ Advances subs tasks c s s' := by
  have hself := h.addressed.consistent.self_eq
  cases hsub : s.protocol.sub with
  | some d =>
      obtain ⟨e, s', he, hs', hadv⟩ := broadcast_advances rep hr h c ha hpopped hsub
      rcases he with rfl | rfl
      · exact .inr ⟨.allocate, s', trivial, by simp, by simp, hs', hadv⟩
      · exact .inr ⟨.protocol .deliver, s', trivial, by simp, by simp, hs', hadv⟩
  | none =>
      by_cases hahead : ProtocolSystem.ahead (s.protocol.controller c) = true
      · obtain ⟨protocol, hp, hlt⟩ := ProtocolSystem.call_step tasks hsub hahead
        exact .inr ⟨.protocol (.control c), _, trivial, by simp, by simp, step_protocol ha rfl hp,
          .inr ⟨ha, .inl hlt⟩⟩
      by_cases hw : ∀ t ∈ tasks, s.protocol.work t = 0
      · left
        refine ⟨ProtocolSystem.owed_eq_zero hsub hw, ?_⟩
        simp [ProtocolSystem.undelivered, ProtocolSystem.commandsLeft, hahead, hsub]
      · right
        push Not at hw
        obtain ⟨t, ht, hne⟩ := hw
        have htm : t ≠ mgr := fun he => hr.notMem (he ▸ ht)
        obtain ⟨e, protocol, he, hp, hlt⟩ :=
          ProtocolSystem.task_step (c := c) hr h.addressed hsub ht hne
        rcases he with rfl | rfl
        · exact ⟨.protocol (.process t), _, trivial, by simp, by simp, step_protocol ha rfl hp,
            .inr ⟨ha, .inl hlt⟩⟩
        · have hq : s.managerQueue rep (.dequeue t) = some s.queue := by
            simp only [managerQueue, hself, if_neg htm]
          refine ⟨.protocol (.dequeue t), _, trivial, by simp, ?_, step_protocol ha hq hp,
            .inr ⟨ha, .inl hlt⟩⟩
          rintro heq
          cases heq
          exact htm rfl

variable (rep) in
/-- Without the manager the whole potential ends up in its queue, or at the assertion. -/
theorem exists_abort (hr : ProtocolSystem.Roster subs mgr tasks) (c : κ) (s : StormSystem κ τ)
    (h : Coupled mgr tasks s) (halone : ProtocolSystem.Alone c s.protocol) (ha : s.aborted = none)
    (hpopped : s.queue.popped = none)
    (hfull : queueMsgCount < s.protocol.potential subs tasks c) :
    ∃ es s', (∀ e ∈ es, Processing e) ∧ run (step subs rep) s es = some s' ∧
      s'.aborted = some .outOfMemory := by
  rcases progress rep hr h c ha hpopped with ⟨howed, hleft⟩ |
      ⟨e, s₁, he, hpop, hdq, hstep, hadv⟩
  · have hcap := h.blocks.conserved.capacity
    have hlen := h.length
    simp only [QueueSystem.poppedNodes, hpopped, Option.map_none, Option.toList_none,
      List.length_nil] at hlen
    unfold ProtocolSystem.potential at hfull
    rw [h.addressed.consistent.self_eq] at hfull
    omega
  · rcases hadv with habort | ⟨ha₁, hlt⟩
    · refine ⟨[e], s₁, ?_, run_cons_eq_some.mpr ⟨s₁, hstep, rfl⟩, habort⟩
      intro e' he'
      rw [List.mem_singleton.mp he']
      exact he
    · obtain ⟨-, hm⟩ := step_moves hstep
      obtain ⟨halone₁, -, heq⟩ := moves_potential hr h halone he hm
      obtain ⟨es, s', hes, hrun, habort⟩ := exists_abort hr c s₁ (moves_coupled hr h hm) halone₁ ha₁
        (moves_popped hm hpop h.addressed.consistent.self_eq hpopped) (by rw [heq hdq]; exact hfull)
      refine ⟨e :: es, s', ?_, run_cons_eq_some.mpr ⟨s₁, hstep, hrun⟩, habort⟩
      intro e' he'
      rcases List.mem_cons.mp he' with rfl | he'
      · exact he
      · exact hes e' he'
termination_by (s.protocol.labour subs tasks c, s.deliveriesLeft)
decreasing_by
  rcases hlt with hlt | ⟨heq, hlt⟩
  · exact Prod.Lex.left _ _ hlt
  · rw [heq]
    exact Prod.Lex.right _ hlt

/-! ### One demand -/

variable (rep) in
theorem demand_begins (hr : ProtocolSystem.Roster subs mgr tasks) (h : Coupled mgr tasks s)
    (ha : s.aborted = none) (hempty : s.protocol.queue mgr = [])
    (hidle : ∀ c, s.protocol.controller c = .idle) (c : κ) (newState : TaskState) :
    ∃ s₁, step subs rep s (.protocol (.demandStateTransition c newState)) = some s₁ ∧
      Coupled mgr tasks s₁ ∧ ProtocolSystem.Alone c s₁.protocol ∧ s₁.aborted = none ∧
      s₁.queue.popped = none ∧
      s₁.protocol.potential subs tasks c = tasks.length + s.protocol.owed tasks := by
  have hp : ProtocolSystem.step subs s.protocol (.demandStateTransition c newState) =
      some { s.protocol with
        controller := Function.update s.protocol.controller c (.setTarget newState) } := by
    simp only [ProtocolSystem.step, hidle]
  have hstep : step subs rep s (.protocol (.demandStateTransition c newState)) = some { s with
      protocol := { s.protocol with
        controller := Function.update s.protocol.controller c (.setTarget newState) } } :=
    step_protocol ha rfl hp
  have hlen := h.length
  rw [hempty, List.length_nil] at hlen
  refine ⟨_, hstep, moves_coupled hr h (step_moves hstep).2, ?_, ha, ?_, ?_⟩
  · intro c' hc'
    exact (Function.update_of_ne hc' ..).trans (hidle c')
  · cases hpopped : s.queue.popped with
    | none => rfl
    | some node =>
        rw [QueueSystem.poppedNodes, hpopped] at hlen
        simp at hlen
  · have hleft : ProtocolSystem.commandsLeft s.protocol.sub = 0 := by
      unfold ProtocolSystem.commandsLeft
      split
      · rename_i c' msg rest hsub
        obtain ⟨newState', demand, hpc, -⟩ := h.addressed.consistent.sub_controller c' msg rest hsub
        rw [hidle c'] at hpc
        cases hpc
      · rfl
    have howed : ProtocolSystem.owed tasks { s.protocol with
        controller := Function.update s.protocol.controller c (.setTarget newState) } =
          s.protocol.owed tasks := rfl
    simp only [ProtocolSystem.potential, ProtocolSystem.undelivered, ProtocolSystem.ahead, howed,
      h.addressed.consistent.self_eq, hempty, hleft, Function.update_self, if_true, List.length_nil,
      hr.commands.length_eq]
    omega

theorem reaches_coupled (hr : ProtocolSystem.Roster subs mgr tasks)
    (hs : Reaches (step subs rep) s s') (h : Coupled mgr tasks s) : Coupled mgr tasks s' :=
  hs.invariant (fun _ _ _ h he => moves_coupled hr h (step_moves he).2) h

/-- **Acknowledgment storms.**  A demand begins with all queues empty and no other call in progress.
In every interleaving of the tasks with the manager the acknowledgments fit into the manager's queue
and its assertion holds, iff there is room for one acknowledgment of each registered task and for
those that the tasks still owe. -/
theorem acks_fit_iff (hr : ProtocolSystem.Roster subs mgr tasks) (currentState targetState : TaskState)
    (msgSize base : ℕ) (m : Bytes.Mem) (nodes : ℕ → Node (Msg τ)) (hs : sizeofPtr < msgSize)
    (hbase : 0 < base) (hend : base + msgSize * queueMsgCount < addressSpace)
    (q : MessageQueue (Msg τ)) (hq : MessageQueue.create msgSize queueMsgCount base m nodes = .ok q)
    (s : StormSystem κ τ)
    (hreach : Reaches (step subs rep) (start mgr tasks currentState targetState q) s)
    (ha : s.aborted = none) (hempty : ∀ x, s.protocol.queue x = [])
    (hidle : ∀ c, s.protocol.controller c = .idle) (c : κ) (newState : TaskState) :
    (∀ es s', (∀ e ∈ es, Processing e) →
      run (step subs rep) s (.protocol (.demandStateTransition c newState) :: es) = some s' →
        s'.aborted = none ∧ s'.pendingAcks.length ≤ queueMsgCount) ↔
      tasks.length + s.protocol.owed tasks ≤ queueMsgCount := by
  obtain ⟨q', hq', hnil, -, -, hb⟩ :=
    QueueSystem.create_blocks m nodes hs (show 0 < queueMsgCount by decide) hbase hend
  obtain rfl := Except.ok.inj (hq.symm.trans hq')
  have h := reaches_coupled hr hreach (start_coupled mgr tasks currentState targetState hnil hb)
  obtain ⟨s₁, hstep, h₁, halone, ha₁, hpopped, hpot⟩ :=
    demand_begins rep hr h ha (hempty mgr) hidle c newState
  constructor
  · intro hfits
    by_contra hlt
    obtain ⟨es, s', hes, hrun, habort⟩ :=
      exists_abort rep hr c s₁ h₁ halone ha₁ hpopped (by omega)
    have hnone := (hfits es s' hes (run_cons_eq_some.mpr ⟨s₁, hstep, hrun⟩)).1
    rw [habort] at hnone
    cases hnone
  · intro hle es s' hes hrun
    obtain ⟨s₂, hstep₂, hrun⟩ := run_cons_eq_some.mp hrun
    obtain rfl := Option.some.inj (hstep.symm.trans hstep₂)
    obtain ⟨ha', h', hpot'⟩ := run_fits hr c hes h₁ halone ha₁ (by omega) hrun
    refine ⟨ha', ?_⟩
    have hfilter : s'.pendingAcks.length ≤ (s'.protocol.queue s'.protocol.manager.self).length :=
      List.length_filter_le _ _
    unfold ProtocolSystem.potential at hpot'
    omega

/-- Two tasks in an idle system. -/
theorem acks_fit_two : ∃ q : MessageQueue (Msg ℕ),
    MessageQueue.create 64 queueMsgCount 4096 (fun _ => 0) (fun _ => ⟨⟨none, .stateMsg ⟨0⟩⟩, 0⟩) =
      .ok q ∧
    ∀ es s', (∀ e ∈ es, Processing e) →
      run (step (ProtocolSystem.wiring 0 [1, 2]) (fun _ _ => 255))
        (start 0 [1, 2] .notStarted .notStarted q : StormSystem Unit ℕ)
        (.protocol (.demandStateTransition () .idle) :: es) = some s' →
        s'.aborted = none ∧ s'.pendingAcks.length ≤ queueMsgCount := by
  obtain ⟨q, hq, -⟩ := @QueueSystem.create_blocks _ 64 queueMsgCount 4096
    (fun _ => 0) (fun _ => (⟨⟨none, .stateMsg ⟨0⟩⟩, 0⟩ : Node (Msg ℕ))) (by decide) (by decide)
    (by decide) (by decide)
  have hr : ProtocolSystem.Roster (ProtocolSystem.wiring 0 [1, 2]) 0 [1, 2] :=
    ⟨ProtocolSystem.wiring_wired 0 (by decide), List.Perm.refl _, by decide⟩
  refine ⟨q, hq, (acks_fit_iff hr .notStarted .notStarted 64 4096 (fun _ => 0) _ (by decide)
    (by decide) (by decide) q hq _ (Reaches.refl _) rfl (fun _ => rfl) (fun _ => rfl) () .idle).mpr ?_⟩
  show 2 + 0 ≤ queueMsgCount
  decide

/-- Sixty-five tasks acknowledge before the manager takes its first message. -/
theorem sixty_five_acks_overflow : ∃ q : MessageQueue (Msg ℕ),
    MessageQueue.create 64 queueMsgCount 4096 (fun _ => 0) (fun _ => ⟨⟨none, .stateMsg ⟨0⟩⟩, 0⟩) =
      .ok q ∧
    ∃ es s', (∀ e ∈ es, Processing e) ∧
      run (step (ProtocolSystem.wiring 0 (List.range' 1 65)) (fun _ _ => 255))
        (start 0 (List.range' 1 65) .notStarted .notStarted q : StormSystem Unit ℕ)
        (.protocol (.demandStateTransition () .idle) :: es) = some s' ∧
      s'.aborted = some .outOfMemory := by
  obtain ⟨q, hq, hnil, -, -, hb⟩ := @QueueSystem.create_blocks _ 64 queueMsgCount 4096
    (fun _ => 0) (fun _ => (⟨⟨none, .stateMsg ⟨0⟩⟩, 0⟩ : Node (Msg ℕ))) (by decide) (by decide)
    (by decide) (by decide)
  have hr : ProtocolSystem.Roster (ProtocolSystem.wiring 0 (List.range' 1 65)) 0
      (List.range' 1 65) :=
    ⟨ProtocolSystem.wiring_wired 0 List.nodup_range', List.Perm.refl _, by simp⟩
  have h : Coupled 0 (List.range' 1 65)
      (start 0 (List.range' 1 65) .notStarted .notStarted q : StormSystem Unit ℕ) :=
    start_coupled 0 _ .notStarted .notStarted hnil hb
  obtain ⟨s₁, hstep, h₁, halone, ha₁, hpopped, hpot⟩ :=
    demand_begins (fun _ _ => 255) hr h rfl rfl (fun _ => rfl) () .idle
  have hfull : queueMsgCount < s₁.protocol.potential
      (ProtocolSystem.wiring 0 (List.range' 1 65)) (List.range' 1 65) () := by
    rw [hpot, List.length_range']
    unfold queueMsgCount
    omega
  obtain ⟨es, s', hes, hrun, habort⟩ :=
    exists_abort (fun _ _ => 255) hr () s₁ h₁ halone ha₁ hpopped hfull
  exact ⟨q, hq, es, s', hes, run_cons_eq_some.mpr ⟨s₁, hstep, hrun⟩, habort⟩

end StormSystem

end Protocore
