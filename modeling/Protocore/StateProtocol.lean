import Protocore.Run
import Protocore.StableQueue
import Protocore.StateManager
import Mathlib.Logic.Function.Basic

/-! # The state transition protocol

Controlling threads broadcast `StateMsg`s through the broker; each task applies the state and
broadcasts a `StateAckMsg`; the state manager records it.  Queues are the stable priority queues
that `MessageQueue` refines.  A broadcast owns `sub_mutex` from its first to its last delivery, and
every delivery is a step of its own, so the steps of controllers, tasks and manager interleave
freely.  Messages of other types may arrive in any queue at any time.  The queues of `step` have
no capacity; `boundedStep` is the system in which `enqueue` asserts that a block is free.

The history variables of a task are the states of the `StateMsg`s that have reached its queue, the
states it has assigned to `current_state`, the states of its acknowledgments that have reached the
manager's queue, and the values the manager has written to its entry of `task_states`. -/

namespace Protocore

variable {κ τ : Type} [DecidableEq κ] [LinearOrder τ]

/-- Where the queue thread of a task is: waiting for a message, handling one, about to publish its
acknowledgment, or publishing it. -/
inductive ThreadPc (τ : Type) where
  | idle
  | handling (msg : Msg τ)
  | announce
  | publishing

/-- Where a controlling thread is inside `request_state_transition` or `demand_state_transition`.
`checking` is the loop of `all_tasks_in_state`, with the entries still to be read: the mutex it owns
is not taken by `handle_acknowledgment`, so acknowledgments may be recorded between two reads. -/
inductive ControlPc (τ : Type) where
  | idle
  | setTarget (newState : TaskState)
  | transition (newState : TaskState) (demand : Bool)
  | publish (newState : TaskState) (demand : Bool)
  | publishing (newState : TaskState) (demand : Bool)
  | waiting (newState : TaskState)
  | checking (newState : TaskState) (rest : List τ) (timedOut : Bool)
  | returned (newState : TaskState) (success : Bool)

/-- Who calls `Broker::publish`. -/
inductive Publisher (κ τ : Type) where
  | controller (c : κ)
  | task (t : τ)

/-- A call of `Broker::publish` that owns `sub_mutex`, with the subscribers still to come. -/
structure Delivery (κ τ : Type) where
  publisher : Publisher κ τ
  msg : Msg τ
  rest : List τ

/-- The manager, the tasks with their queues and threads, the controlling threads, the broadcast in
progress, and for each task the states commanded to it, applied and acknowledged by it, and recorded
for it. -/
structure ProtocolSystem (κ τ : Type) [LinearOrder τ] where
  manager : StateManager τ
  currentState : τ → TaskState
  queue : τ → List (Msg τ)
  thread : τ → ThreadPc τ
  controller : κ → ControlPc τ
  sub : Option (Delivery κ τ)
  commanded : τ → List TaskState
  applied : τ → List TaskState
  published : τ → List TaskState
  written : τ → List TaskState

/-- A call begins, a thread takes its next step, a wait ends, or another message arrives. -/
inductive ProtocolEvent (κ τ : Type) where
  | requestStateTransition (c : κ) (newState : TaskState)
  | demandStateTransition (c : κ) (newState : TaskState)
  | control (c : κ)
  | timeout (c : κ)
  | dequeue (x : τ)
  | process (x : τ)
  | deliver
  | other (x : τ) (msg : Msg τ)

/-- The acknowledgment published by `Task::transition_to_state`. -/
def ackMsg (t : τ) (state : TaskState) : Msg τ := ⟨some t, .stateAckMsg ⟨state.toByte⟩⟩

/-- The state acknowledged by a message of `t`. -/
def ackOf (t : τ) (msg : Msg τ) : Option TaskState :=
  match msg.msgData with
  | .stateAckMsg ack => if msg.sendingTask = some t then some (.ofByte ack.state) else none
  | _ => none

/-- The state commanded by a message. -/
def commandOf (msg : Msg τ) : Option TaskState :=
  match msg.msgData with
  | .stateMsg m => some (.ofByte m.state)
  | _ => none

omit [LinearOrder τ] in
theorem priority_of_commandOf (msg : Msg τ) (h : (commandOf msg).isSome) :
    msg.getPriority = 100 := by
  unfold commandOf at h
  split at h
  · rename_i m hdata
    rw [Msg.getPriority, Msg.getType, hdata]
    rfl
  · cases h

omit [LinearOrder τ] in
theorem commandOf_isSome_of_priority {msg : Msg τ} (h : 100 ≤ msg.getPriority) :
    (commandOf msg).isSome := by
  obtain ⟨sender, data⟩ := msg
  cases data with
  | stateMsg m => rfl
  | _ => simp [Msg.getPriority, Msg.getType, MessageVariant.type, MsgType.priority] at h

omit [LinearOrder τ] in
/-- A waiting command is dequeued before any other message. -/
theorem pop_command {l : List (Msg τ)} (h : l.filterMap commandOf ≠ []) :
    ∃ msg rest state, StableQueue.pop Msg.getPriority l = some (msg, rest) ∧
      commandOf msg = some state := by
  obtain ⟨state, hstate⟩ := List.exists_mem_of_ne_nil _ h
  obtain ⟨cmd, hmem, hcmd⟩ := List.mem_filterMap.mp hstate
  cases hpop : StableQueue.pop Msg.getPriority l with
  | none =>
      rw [(StableQueue.pop_eq_none_iff Msg.getPriority).mp hpop] at hmem
      cases hmem
  | some r =>
      obtain ⟨msg, rest⟩ := r
      have hpriority : 100 ≤ msg.getPriority := by
        have hmax := StableQueue.le_pop Msg.getPriority hpop hmem
        rwa [priority_of_commandOf cmd (by simp [hcmd])] at hmax
      obtain ⟨state', hstate'⟩ := Option.isSome_iff_exists.mp (commandOf_isSome_of_priority hpriority)
      exact ⟨msg, rest, state', rfl, hstate'⟩

namespace ProtocolSystem

/-- All tasks are registered and nothing has been sent. -/
def init (manager : StateManager τ) : ProtocolSystem κ τ where
  manager := manager
  currentState := fun _ => .notStarted
  queue := fun _ => []
  thread := fun _ => .idle
  controller := fun _ => .idle
  sub := none
  commanded := fun _ => []
  applied := fun _ => []
  published := fun _ => []
  written := fun _ => []

variable (subs : MsgType → List τ)

/-- The tasks in the order in which `all_tasks_in_state` reads their records. -/
def recorded (s : ProtocolSystem κ τ) : List τ := s.manager.taskStates.entries.map Prod.fst

/-- The next step of a controlling thread.  `wait_for` evaluates its predicate before it waits,
whenever it wakes up, and a last time after the timeout. -/
def controlStep (s : ProtocolSystem κ τ) (c : κ) : Option (ProtocolSystem κ τ) :=
  let goto := fun pc => Function.update s.controller c pc
  match s.controller c with
  | .setTarget newState =>
      some { s with
        manager := { s.manager with targetState := newState }
        controller := goto (.transition newState true) }
  | .transition newState demand =>
      some { s with
        manager := (s.manager.transitionToState newState).1
        controller := goto (.publish newState demand) }
  | .publish newState demand =>
      if s.sub.isNone then
        some { s with
          sub := some ⟨.controller c, (s.manager.transitionToState newState).2, subs .stateMsg⟩
          controller := goto (.publishing newState demand) }
      else none
  | .waiting newState =>
      some { s with controller := goto (.checking newState s.recorded false) }
  | .checking newState [] _ =>
      some { s with controller := goto (.returned newState true) }
  | .checking newState (t :: rest) timedOut =>
      some { s with
        controller := goto
          (if s.manager.taskStates.find? t = some newState then .checking newState rest timedOut
          else if timedOut then .returned newState false
          else .waiting newState) }
  | .returned _ _ => some { s with controller := goto .idle }
  | .idle => none
  | .publishing _ _ => none

/-- The next step of the queue thread of `x`: of the manager or of a task. -/
def processStep (s : ProtocolSystem κ τ) (x : τ) : Option (ProtocolSystem κ τ) :=
  let goto := fun pc => Function.update s.thread x pc
  match s.thread x with
  | .idle => none
  | .handling msg =>
      if x = s.manager.self then
        some { s with
          manager := (s.manager.processMessage msg).1
          thread := goto .idle
          written := match s.manager.acknowledged msg with
            | some (t, state) => Function.update s.written t (s.written t ++ [state])
            | none => s.written }
      else
        match msg.msgData with
        | .stateMsg m =>
            some { s with
              currentState := Function.update s.currentState x (.ofByte m.state)
              thread := goto .announce
              applied := Function.update s.applied x (s.applied x ++ [.ofByte m.state]) }
        | _ => some { s with thread := goto .idle }
  | .announce =>
      if s.sub.isNone then
        some { s with
          sub := some ⟨.task x, ackMsg x (s.currentState x), subs .stateAckMsg⟩
          thread := goto .publishing }
      else none
  | .publishing => none

/-- The next step of the broadcast in progress: one delivery, or its end. -/
def deliverStep (s : ProtocolSystem κ τ) : Option (ProtocolSystem κ τ) :=
  match s.sub with
  | none => none
  | some ⟨p, msg, x :: rest⟩ =>
      some { s with
        queue := Function.update s.queue x (s.queue x ++ [msg])
        sub := some ⟨p, msg, rest⟩
        commanded := Function.update s.commanded x (s.commanded x ++ (commandOf msg).toList)
        published := if x = s.manager.self then
            fun t => s.published t ++ (ackOf t msg).toList
          else s.published }
  | some ⟨.controller c, _, []⟩ =>
      some { s with
        sub := none
        controller := Function.update s.controller c
          (match s.controller c with
            | .publishing newState true => .waiting newState
            | _ => .idle) }
  | some ⟨.task t, _, []⟩ =>
      some { s with sub := none, thread := Function.update s.thread t .idle }

/-- One step. -/
def step (s : ProtocolSystem κ τ) : ProtocolEvent κ τ → Option (ProtocolSystem κ τ)
  | .requestStateTransition c newState =>
      match s.controller c with
      | .idle =>
          some { s with controller := Function.update s.controller c (.transition newState false) }
      | _ => none
  | .demandStateTransition c newState =>
      match s.controller c with
      | .idle => some { s with controller := Function.update s.controller c (.setTarget newState) }
      | _ => none
  | .control c => s.controlStep subs c
  | .timeout c =>
      match s.controller c with
      | .waiting newState =>
          some { s with
            controller := Function.update s.controller c (.checking newState s.recorded true) }
      | _ => none
  | .dequeue x =>
      match s.thread x with
      | .idle =>
          match StableQueue.pop Msg.getPriority (s.queue x) with
          | some (msg, rest) =>
              some { s with
                queue := Function.update s.queue x rest
                thread := Function.update s.thread x (.handling msg) }
          | none => none
      | _ => none
  | .process x => s.processStep subs x
  | .deliver => s.deliverStep
  | .other x msg =>
      if msg.getType ≠ .stateMsg ∧ msg.getType ≠ .stateAckMsg then
        some { s with queue := Function.update s.queue x (s.queue x ++ [msg]) }
      else none

/-- The task into whose queue a step enqueues a message. -/
def receiver (s : ProtocolSystem κ τ) : ProtocolEvent κ τ → Option τ
  | .deliver => s.sub.bind (fun d => d.rest.head?)
  | .other x _ => some x
  | _ => none

/-- The assertion of `MessageQueue::enqueue` fails: the queue is full. -/
def overflows (capacity : τ → ℕ) (s : ProtocolSystem κ τ) (e : ProtocolEvent κ τ) : Bool :=
  (s.receiver e).any (fun x => decide (capacity x ≤ (s.queue x).length))

/-- One step with queues of the given capacity. -/
def boundedStep (capacity : τ → ℕ) : ProtocolSystem κ τ → ProtocolEvent κ τ →
    Option (ProtocolSystem κ τ) :=
  guarded (step subs) (overflows capacity)

/-! ### Everything a step can do -/

/-- The steps; those that only move a controlling thread are one case. -/
inductive Moves (s : ProtocolSystem κ τ) : ProtocolEvent κ τ → ProtocolSystem κ τ → Prop
  | request {c : κ} {newState : TaskState} (h : s.controller c = .idle) :
      Moves s (.requestStateTransition c newState)
        { s with controller := Function.update s.controller c (.transition newState false) }
  | demand {c : κ} {newState : TaskState} (h : s.controller c = .idle) :
      Moves s (.demandStateTransition c newState)
        { s with controller := Function.update s.controller c (.setTarget newState) }
  | setTarget {c : κ} {newState : TaskState} (h : s.controller c = .setTarget newState) :
      Moves s (.control c) { s with
        manager := { s.manager with targetState := newState }
        controller := Function.update s.controller c (.transition newState true) }
  | transition {c : κ} {newState : TaskState} {demand : Bool}
      (h : s.controller c = .transition newState demand) :
      Moves s (.control c) { s with
        manager := { s.manager with currentState := newState }
        controller := Function.update s.controller c (.publish newState demand) }
  | publish {c : κ} {newState : TaskState} {demand : Bool}
      (h : s.controller c = .publish newState demand) (hfree : s.sub = none) :
      Moves s (.control c) { s with
        sub := some ⟨.controller c, ⟨some s.manager.self, .stateMsg ⟨newState.toByte⟩⟩,
          subs .stateMsg⟩
        controller := Function.update s.controller c (.publishing newState demand) }
  | check {c : κ} {e : ProtocolEvent κ τ} {newState : TaskState} {timedOut : Bool}
      (h : s.controller c = .waiting newState) :
      Moves s e { s with
        controller := Function.update s.controller c (.checking newState s.recorded timedOut) }
  | pass {c : κ} {newState : TaskState} {t : τ} {rest : List τ} {timedOut : Bool}
      (h : s.controller c = .checking newState (t :: rest) timedOut)
      (hrecord : s.manager.taskStates.find? t = some newState) :
      Moves s (.control c) { s with
        controller := Function.update s.controller c (.checking newState rest timedOut) }
  | miss {c : κ} {newState : TaskState} {t : τ} {rest : List τ} {timedOut : Bool}
      (h : s.controller c = .checking newState (t :: rest) timedOut)
      (hrecord : s.manager.taskStates.find? t ≠ some newState) :
      Moves s (.control c) { s with
        controller := Function.update s.controller c
          (if timedOut then .returned newState false else .waiting newState) }
  | succeed {c : κ} {newState : TaskState} {timedOut : Bool}
      (h : s.controller c = .checking newState [] timedOut) :
      Moves s (.control c) { s with
        controller := Function.update s.controller c (.returned newState true) }
  | leave {c : κ} {newState : TaskState} {success : Bool}
      (h : s.controller c = .returned newState success) :
      Moves s (.control c) { s with controller := Function.update s.controller c .idle }
  | dequeue {x : τ} {msg : Msg τ} {rest : List (Msg τ)} (h : s.thread x = .idle)
      (hpop : StableQueue.pop Msg.getPriority (s.queue x) = some (msg, rest)) :
      Moves s (.dequeue x) { s with
        queue := Function.update s.queue x rest
        thread := Function.update s.thread x (.handling msg) }
  | record {msg : Msg τ} {t : τ} {state : TaskState}
      (h : s.thread s.manager.self = .handling msg)
      (hack : s.manager.acknowledged msg = some (t, state)) :
      Moves s (.process s.manager.self) { s with
        manager := { s.manager with taskStates := s.manager.taskStates.insert t state }
        thread := Function.update s.thread s.manager.self .idle
        written := Function.update s.written t (s.written t ++ [state]) }
  | ignore {msg : Msg τ} (h : s.thread s.manager.self = .handling msg)
      (hack : s.manager.acknowledged msg = none) :
      Moves s (.process s.manager.self) { s with
        thread := Function.update s.thread s.manager.self .idle }
  | apply {x : τ} {msg : Msg τ} {state : TaskState} (hx : x ≠ s.manager.self)
      (h : s.thread x = .handling msg) (hcmd : commandOf msg = some state) :
      Moves s (.process x) { s with
        currentState := Function.update s.currentState x state
        thread := Function.update s.thread x .announce
        applied := Function.update s.applied x (s.applied x ++ [state]) }
  | skip {x : τ} {msg : Msg τ} (hx : x ≠ s.manager.self) (h : s.thread x = .handling msg)
      (hcmd : commandOf msg = none) :
      Moves s (.process x) { s with thread := Function.update s.thread x .idle }
  | announce {x : τ} (h : s.thread x = .announce) (hfree : s.sub = none) :
      Moves s (.process x) { s with
        sub := some ⟨.task x, ackMsg x (s.currentState x), subs .stateAckMsg⟩
        thread := Function.update s.thread x .publishing }
  | deliver {p : Publisher κ τ} {msg : Msg τ} {x : τ} {rest : List τ}
      (h : s.sub = some ⟨p, msg, x :: rest⟩) :
      Moves s .deliver { s with
        queue := Function.update s.queue x (s.queue x ++ [msg])
        sub := some ⟨p, msg, rest⟩
        commanded := Function.update s.commanded x (s.commanded x ++ (commandOf msg).toList)
        published := if x = s.manager.self then
            fun t => s.published t ++ (ackOf t msg).toList
          else s.published }
  | commanded {c : κ} {msg : Msg τ} {pc : ControlPc τ} (h : s.sub = some ⟨.controller c, msg, []⟩)
      (hpc : ∀ newState, s.controller c = .publishing newState true → pc = .waiting newState)
      (hpc' : pc = .idle ∨ ∃ newState, s.controller c = .publishing newState true) :
      Moves s .deliver { s with sub := none, controller := Function.update s.controller c pc }
  | acknowledged {t : τ} {msg : Msg τ} (h : s.sub = some ⟨.task t, msg, []⟩) :
      Moves s .deliver { s with sub := none, thread := Function.update s.thread t .idle }
  | other {x : τ} {msg : Msg τ} (hstate : msg.getType ≠ .stateMsg)
      (hack : msg.getType ≠ .stateAckMsg) :
      Moves s (.other x msg) { s with queue := Function.update s.queue x (s.queue x ++ [msg]) }

variable {subs}

theorem controlStep_moves {s s' : ProtocolSystem κ τ} {c : κ} (h : s.controlStep subs c = some s') :
    Moves subs s (.control c) s' := by
  simp only [controlStep] at h
  cases hpc : s.controller c with
  | idle => simp only [hpc] at h; cases h
  | setTarget newState =>
      simp only [hpc] at h
      obtain rfl := Option.some.inj h
      exact .setTarget hpc
  | transition newState demand =>
      simp only [hpc] at h
      obtain rfl := Option.some.inj h
      exact .transition hpc
  | publish newState demand =>
      simp only [hpc] at h
      split_ifs at h with hfree
      obtain rfl := Option.some.inj h
      exact .publish hpc (Option.isNone_iff_eq_none.mp hfree)
  | publishing newState demand => simp only [hpc] at h; cases h
  | waiting newState =>
      simp only [hpc] at h
      obtain rfl := Option.some.inj h
      exact .check hpc
  | checking newState rest timedOut =>
      cases rest with
      | nil =>
          simp only [hpc] at h
          obtain rfl := Option.some.inj h
          exact .succeed hpc
      | cons t rest =>
          simp only [hpc] at h
          obtain rfl := Option.some.inj h
          by_cases hrecord : s.manager.taskStates.find? t = some newState
          · rw [if_pos hrecord]
            exact .pass hpc hrecord
          · rw [if_neg hrecord]
            exact .miss hpc hrecord
  | returned newState success =>
      simp only [hpc] at h
      obtain rfl := Option.some.inj h
      exact .leave hpc

theorem processStep_moves {s s' : ProtocolSystem κ τ} {x : τ} (h : s.processStep subs x = some s') :
    Moves subs s (.process x) s' := by
  simp only [processStep] at h
  cases hpc : s.thread x with
  | idle => simp only [hpc] at h; cases h
  | handling msg =>
      simp only [hpc] at h
      split_ifs at h with hx
      · subst hx
        obtain rfl := Option.some.inj h
        cases hack : s.manager.acknowledged msg with
        | none =>
            rw [StateManager.processMessage_of_not_acknowledged hack]
            exact .ignore hpc hack
        | some p =>
            obtain ⟨t, state⟩ := p
            rw [StateManager.processMessage_of_acknowledged hack]
            exact .record hpc hack
      · split at h
        · rename_i m hdata
          obtain rfl := Option.some.inj h
          exact .apply hx hpc (by rw [commandOf, hdata])
        · rename_i hdata
          obtain rfl := Option.some.inj h
          refine .skip hx hpc ?_
          unfold commandOf
          split
          · rename_i m hm
            exact absurd hm (hdata m)
          · rfl
  | announce =>
      simp only [hpc] at h
      split_ifs at h with hfree
      obtain rfl := Option.some.inj h
      exact .announce hpc (Option.isNone_iff_eq_none.mp hfree)
  | publishing => simp only [hpc] at h; cases h

theorem deliverStep_moves {s s' : ProtocolSystem κ τ} (h : s.deliverStep = some s') :
    Moves subs s .deliver s' := by
  unfold deliverStep at h
  split at h
  · cases h
  · rename_i p msg x rest hsub
    obtain rfl := Option.some.inj h
    exact .deliver hsub
  · rename_i c msg hsub
    obtain rfl := Option.some.inj h
    refine .commanded hsub ?_ ?_
    · intro newState hpc
      rw [hpc]
    · split
      · rename_i newState hpc
        exact .inr ⟨newState, hpc⟩
      · exact .inl rfl
  · rename_i t msg hsub
    obtain rfl := Option.some.inj h
    exact .acknowledged hsub

theorem step_moves {s s' : ProtocolSystem κ τ} {e : ProtocolEvent κ τ}
    (h : step subs s e = some s') : Moves subs s e s' := by
  cases e with
  | requestStateTransition c newState =>
      simp only [step] at h
      split at h
      · rename_i hpc
        obtain rfl := Option.some.inj h
        exact .request hpc
      · cases h
  | demandStateTransition c newState =>
      simp only [step] at h
      split at h
      · rename_i hpc
        obtain rfl := Option.some.inj h
        exact .demand hpc
      · cases h
  | control c => exact controlStep_moves h
  | timeout c =>
      simp only [step] at h
      split at h
      · rename_i newState hpc
        obtain rfl := Option.some.inj h
        exact .check hpc
      · cases h
  | dequeue x =>
      simp only [step] at h
      split at h
      · rename_i hpc
        split at h
        · rename_i msg rest hpop
          obtain rfl := Option.some.inj h
          exact .dequeue hpc hpop
        · cases h
      · cases h
  | process x => exact processStep_moves h
  | deliver => exact deliverStep_moves h
  | other x msg =>
      simp only [step] at h
      split_ifs at h with htype
      obtain rfl := Option.some.inj h
      exact .other htype.1 htype.2

/-! ### Queues of bounded capacity -/

section bounded
variable {s s' : ProtocolSystem κ τ} {e : ProtocolEvent κ τ} {capacity : τ → ℕ}

omit [DecidableEq κ] in
theorem overflows_iff : s.overflows capacity e = true ↔
    ∃ x, s.receiver e = some x ∧ capacity x ≤ (s.queue x).length := by
  simp [overflows, Option.any_eq_true]

theorem step_queue_length (h : step subs s e = some s') (x : τ) :
    (s'.queue x).length ≤ (s.queue x).length + if s.receiver e = some x then 1 else 0 := by
  have hgrown : ∀ (y : τ) (msg : Msg τ), s.receiver e = some y →
      (Function.update s.queue y (s.queue y ++ [msg]) x).length ≤
        (s.queue x).length + if s.receiver e = some x then 1 else 0 := by
    intro y msg hy
    by_cases hx : x = y
    · subst hx
      rw [Function.update_self, if_pos hy, List.length_append, List.length_singleton]
    · rw [Function.update_of_ne hx]
      exact Nat.le_add_right _ _
  cases step_moves h with
  | @dequeue y msg rest hpc hpop =>
      have hlen := (StableQueue.pop_perm Msg.getPriority hpop).length_eq
      rw [List.length_cons] at hlen
      by_cases hx : x = y
      · subst hx
        simp only [Function.update_self]
        omega
      · simp only [Function.update_of_ne hx]
        exact Nat.le_add_right _ _
  | deliver hsub => exact hgrown _ _ (by simp [receiver, hsub])
  | other hstate hack => exact hgrown _ _ rfl
  | _ => exact Nat.le_add_right _ _

/-- No queue gets more messages than it has room for. -/
theorem boundedStep_fits (hfits : ∀ x, (s.queue x).length ≤ capacity x)
    (h : boundedStep subs capacity s e = some s') : ∀ x, (s'.queue x).length ≤ capacity x := by
  obtain ⟨hroom, hs⟩ := guarded_eq_some.mp h
  intro x
  have hgrown := step_queue_length hs x
  have hx := hfits x
  split_ifs at hgrown with hreceiver
  · have hfull : ¬ capacity x ≤ (s.queue x).length := by
      intro hfull
      rw [overflows_iff.mpr ⟨x, hreceiver, hfull⟩] at hroom
      cases hroom
    omega
  · omega

end bounded

/-! ### A check without interruption -/

/-- The loop of `all_tasks_in_state`, when no acknowledgment is recorded meanwhile. -/
theorem check_run (c : κ) (newState : TaskState) (timedOut : Bool) :
    ∀ (rest : List τ) (s : ProtocolSystem κ τ),
      s.controller c = .checking newState rest timedOut →
      Reaches (step subs) s { s with
        controller := Function.update s.controller c
          (if ∀ t ∈ rest, s.manager.taskStates.find? t = some newState then .returned newState true
          else if timedOut then .returned newState false
          else .waiting newState) }
  | [], s, hpc => Reaches.single (e := .control c) (by simp [step, controlStep, hpc])
  | t :: rest, s, hpc => by
      by_cases ht : s.manager.taskStates.find? t = some newState
      · have hstep : step subs s (.control c) = some { s with
            controller := Function.update s.controller c (.checking newState rest timedOut) } := by
          simp [step, controlStep, hpc, ht]
        have hreach := (Reaches.single hstep).trans (check_run c newState timedOut rest
          { s with controller := Function.update s.controller c (.checking newState rest timedOut) }
          (Function.update_self ..))
        simpa only [Function.update_idem, List.forall_mem_cons, ht, true_and] using hreach
      · have hnot : ¬∀ u ∈ t :: rest, s.manager.taskStates.find? u = some newState :=
          fun hall => ht (hall t List.mem_cons_self)
        rw [if_neg hnot]
        exact Reaches.single (e := .control c) (by simp [step, controlStep, hpc, ht])

/-- The predicate of `wait_for` is `all_tasks_in_state`. -/
theorem waiting_check (c : κ) {newState : TaskState} {s : ProtocolSystem κ τ}
    (hpc : s.controller c = .waiting newState) :
    Reaches (step subs) s { s with
      controller := Function.update s.controller c
        (if s.manager.allTasksInState newState then .returned newState true
        else .waiting newState) } := by
  have hstep : step subs s (.control c) = some { s with
      controller := Function.update s.controller c (.checking newState s.recorded false) } := by
    simp [step, controlStep, hpc]
  have hreach := (Reaches.single hstep).trans (check_run c newState false s.recorded
    { s with controller := Function.update s.controller c (.checking newState s.recorded false) }
    (Function.update_self ..))
  simpa only [Function.update_idem, recorded, ← StateManager.allTasksInState_iff,
    Bool.false_eq_true, if_false] using hreach

end ProtocolSystem

end Protocore
