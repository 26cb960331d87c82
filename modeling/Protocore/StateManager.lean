import Protocore.OrdMap
import Protocore.Msg

/-! # The state manager

The functions of `StateManager` (`state_manager.cpp`) on its own data: the record of the state of
each registered task, the state commanded last and the target of the last demand.  `current_state`
and `target_state` have no initializer in the source, so `create` takes their first values.  A
function that sends a message returns it; who receives it is the broker's business. -/

namespace Protocore

variable {τ : Type} [LinearOrder τ]

/-- `StateManager`. -/
structure StateManager (τ : Type) [LinearOrder τ] where
  self : τ
  taskStates : OrdMap τ TaskState
  currentState : TaskState
  targetState : TaskState

namespace StateManager

/-- The constructor. -/
def create (self : τ) (currentState targetState : TaskState) : StateManager τ :=
  ⟨self, .empty, currentState, targetState⟩

/-- `register_task`, up to the call of the observer. -/
def registerTask (m : StateManager τ) (task : τ) : StateManager τ :=
  { m with taskStates := m.taskStates.insert task .notStarted }

/-- `register_task` for each of the tasks, before any of them is started. -/
def registerAll (m : StateManager τ) (tasks : List τ) : StateManager τ :=
  tasks.foldl registerTask m

@[simp] theorem registerAll_self (m : StateManager τ) (tasks : List τ) :
    (m.registerAll tasks).self = m.self := by
  induction tasks generalizing m with
  | nil => rfl
  | cons t tasks ih => exact ih (m.registerTask t)

/-- The registered tasks are recorded as not started. -/
theorem find?_registerAll (m : StateManager τ) (tasks : List τ) (t : τ) :
    (m.registerAll tasks).taskStates.find? t =
      if t ∈ tasks then some .notStarted else m.taskStates.find? t := by
  induction tasks generalizing m with
  | nil => rfl
  | cons u tasks ih =>
      rw [registerAll, List.foldl_cons, ← registerAll, ih, registerTask, OrdMap.find?_insert]
      by_cases ht : t ∈ tasks
      · simp [ht]
      · simp [ht]

/-- `transition_to_state`: the message it publishes, after the assignment. -/
def transitionToState (m : StateManager τ) (newState : TaskState) : StateManager τ × Msg τ :=
  ({ m with currentState := newState }, ⟨some m.self, .stateMsg ⟨newState.toByte⟩⟩)

/-- `all_tasks_in_state`. -/
def allTasksInState (m : StateManager τ) (state : TaskState) : Bool :=
  m.taskStates.entries.all (fun pair => decide (pair.2 = state))

theorem allTasksInState_iff {m : StateManager τ} {state : TaskState} :
    m.allTasksInState state = true ↔
      ∀ t ∈ m.taskStates.entries.map Prod.fst, m.taskStates.find? t = some state := by
  rw [allTasksInState, List.all_eq_true, List.forall_mem_map]
  apply forall₂_congr
  intro pair hpair
  rw [decide_eq_true_eq, OrdMap.find?_eq_some_iff.mpr hpair, Option.some.injEq]

/-- The assignment `task_states[sender] = acknowledged_state` that `handle_acknowledgment` makes,
unless it returns before: the sender must be known and the message an acknowledgment. -/
def acknowledged (m : StateManager τ) (msg : Msg τ) : Option (τ × TaskState) :=
  match msg.sendingTask with
  | none => none
  | some sender =>
      match m.taskStates.find? sender with
      | none => none
      | some _ =>
          match msg.msgData with
          | .stateAckMsg ack => some (sender, .ofByte ack.state)
          | _ => none

/-- `handle_acknowledgment`, and whether it reaches `notify_one`. -/
def handleAcknowledgment (m : StateManager τ) (msg : Msg τ) : StateManager τ × Bool :=
  match m.acknowledged msg with
  | none => (m, false)
  | some (sender, acknowledgedState) =>
      let m' := { m with taskStates := m.taskStates.insert sender acknowledgedState }
      (m', m'.allTasksInState m.targetState)

/-- `process_message`. -/
def processMessage (m : StateManager τ) (msg : Msg τ) : StateManager τ × Bool :=
  if msg.getType = .stateAckMsg then m.handleAcknowledgment msg else (m, false)

theorem acknowledged_eq_some_iff {m : StateManager τ} {msg : Msg τ} {t : τ} {state : TaskState} :
    m.acknowledged msg = some (t, state) ↔ (m.taskStates.find? t).isSome ∧
      msg.sendingTask = some t ∧ ∃ ack, msg.msgData = .stateAckMsg ack ∧
        state = .ofByte ack.state := by
  unfold acknowledged
  cases hsender : msg.sendingTask with
  | none => simp
  | some sender =>
      simp only [Option.some.injEq]
      cases hf : m.taskStates.find? sender with
      | none =>
          simp only [reduceCtorEq, false_iff]
          rintro ⟨hsome, rfl, -⟩
          rw [hf] at hsome
          cases hsome
      | some st =>
          cases hdata : msg.msgData with
          | stateAckMsg ack =>
              simp only [Option.some.injEq, Prod.mk.injEq, MessageVariant.stateAckMsg.injEq,
                exists_eq_left', eq_comm (a := state)]
              constructor
              · rintro ⟨rfl, rfl⟩
                exact ⟨by rw [hf]; rfl, rfl, rfl⟩
              · rintro ⟨-, rfl, rfl⟩
                exact ⟨rfl, rfl⟩
          | _ => simp

/-- `process_message` makes the assignment of `handle_acknowledgment`, if any. -/
theorem processMessage_of_acknowledged {m : StateManager τ} {msg : Msg τ} {t : τ}
    {state : TaskState} (h : m.acknowledged msg = some (t, state)) :
    (m.processMessage msg).1 = { m with taskStates := m.taskStates.insert t state } := by
  obtain ⟨-, -, ack, hdata, -⟩ := acknowledged_eq_some_iff.mp h
  have htype : msg.getType = .stateAckMsg := by rw [Msg.getType, hdata]; rfl
  simp only [processMessage, if_pos htype, handleAcknowledgment, h]

theorem processMessage_of_not_acknowledged {m : StateManager τ} {msg : Msg τ}
    (h : m.acknowledged msg = none) : (m.processMessage msg).1 = m := by
  simp only [processMessage, handleAcknowledgment, h]
  split_ifs <;> rfl

/-- The message `mark_task_as_unresponsive` delivers to the task. -/
def unresponsiveMsg (m : StateManager τ) : Msg τ := ⟨some m.self, .stateMsg ⟨TaskState.error.toByte⟩⟩

/-- `mark_task_as_unresponsive`, after the delivery. -/
def recordUnresponsive (m : StateManager τ) (task : τ) : StateManager τ :=
  { m with taskStates := m.taskStates.insert task .error }

end StateManager

end Protocore
