import Protocore.Convergence

/-! # Marking a task as unresponsive

`mark_task_as_unresponsive` commands `ERROR` to one task and then writes `ERROR` into its record
itself, on a thread that does not write the acknowledgments.  Between its two steps any exchange of
commands and acknowledgments may take place.

`unacknowledged` is what of a task is still in flight: commands it has not handled and
acknowledgments that are not recorded.  `records_agree`: if every such write finds something of the
task in flight, or finds the task in state `ERROR`, then record and state agree whenever the task is
at rest.  A write that comes when everything is recorded and the task is in another state stays
(`late_mark_disagrees`). -/

namespace Protocore

variable {κ τ : Type} [DecidableEq κ] [LinearOrder τ]

/-- The protocol and the task that is being marked: `ERROR` has been commanded and is not written
yet.  The write is made under `state_mutex`; the model does not make it wait for the mutex. -/
structure MarkingSystem (κ τ : Type) [LinearOrder τ] where
  protocol : ProtocolSystem κ τ
  marking : Option τ

/-- A step of the protocol, or one of the two steps of `mark_task_as_unresponsive`. -/
inductive MarkingEvent (κ τ : Type) where
  | protocol (e : ProtocolEvent κ τ)
  | deliverError (task : τ)
  | recordError

namespace ProtocolSystem

/-- What of a task is in flight: commands in its queue or in its hands, and its acknowledgments on
their way to the manager, in the queue of the manager or in its hands. -/
def unacknowledged (s : ProtocolSystem κ τ) (t : τ) : List TaskState :=
  s.ackInHand t ++ (s.acksQueued t ++ (s.unpublished t ++ (s.commandInHand t ++ s.commandsQueued t)))

/-- The system with other records. -/
def withRecords (s : ProtocolSystem κ τ) (taskStates : OrdMap τ TaskState) : ProtocolSystem κ τ :=
  { s with manager := { s.manager with taskStates := taskStates } }

end ProtocolSystem

namespace MarkingSystem

section defs

variable (subs : MsgType → List τ)

/-- One step. -/
def step (s : MarkingSystem κ τ) : MarkingEvent κ τ → Option (MarkingSystem κ τ)
  | .protocol e =>
      (ProtocolSystem.step subs s.protocol e).map (fun protocol => { s with protocol := protocol })
  | .deliverError task =>
      match s.marking with
      | none =>
          let msg := s.protocol.manager.unresponsiveMsg
          some {
            protocol := { s.protocol with
              queue := Function.update s.protocol.queue task (s.protocol.queue task ++ [msg])
              commanded := Function.update s.protocol.commanded task
                (s.protocol.commanded task ++ (commandOf msg).toList) }
            marking := some task }
      | some _ => none
  | .recordError =>
      match s.marking with
      | some task =>
          some {
            protocol := { s.protocol with manager := s.protocol.manager.recordUnresponsive task }
            marking := none }
      | none => none

/-- All tasks are registered and nothing has been sent. -/
def start (mgr : τ) (tasks : List τ) (currentState targetState : TaskState) : MarkingSystem κ τ :=
  ⟨ProtocolSystem.start mgr tasks currentState targetState, none⟩

/-- When `ERROR` is written for the task, something of the task is in flight or it is in that
state. -/
def MarkInFlight (t : τ) (s : MarkingSystem κ τ) : MarkingEvent κ τ → Prop
  | .recordError => s.marking = some t →
      s.protocol.unacknowledged t ≠ [] ∨ s.protocol.currentState t = .error
  | _ => True

/-- No call is in progress, the queue of the task holds no command and its thread waits, and the
manager has no acknowledgment of the task left to handle. -/
structure AtRest (t : τ) (s : MarkingSystem κ τ) : Prop where
  controllers : ∀ c, s.protocol.controller c = .idle
  marking : s.marking = none
  commands : s.protocol.commandsQueued t = []
  thread : s.protocol.thread t = .idle
  acks : s.protocol.acksQueued t = [] ∧ s.protocol.ackInHand t = []

end defs

/-- Everything a step can do. -/
inductive Moves (subs : MsgType → List τ) (s : MarkingSystem κ τ) :
    MarkingEvent κ τ → MarkingSystem κ τ → Prop
  | protocol {e : ProtocolEvent κ τ} {protocol : ProtocolSystem κ τ}
      (h : ProtocolSystem.Moves subs s.protocol e protocol) :
      Moves subs s (.protocol e) { s with protocol := protocol }
  | deliverError {task : τ} (h : s.marking = none) : Moves subs s (.deliverError task) {
      protocol := { s.protocol with
        queue := Function.update s.protocol.queue task
          (s.protocol.queue task ++ [s.protocol.manager.unresponsiveMsg])
        commanded := Function.update s.protocol.commanded task
          (s.protocol.commanded task ++ [.error]) }
      marking := some task }
  | recordError {task : τ} (h : s.marking = some task) : Moves subs s .recordError {
      protocol := { s.protocol with manager := s.protocol.manager.recordUnresponsive task }
      marking := none }

variable {subs : MsgType → List τ}

theorem step_moves {s s' : MarkingSystem κ τ} {e : MarkingEvent κ τ} (h : step subs s e = some s') :
    Moves subs s e s' := by
  cases e with
  | protocol e =>
      obtain ⟨protocol, hp, rfl⟩ := Option.map_eq_some_iff.mp h
      exact .protocol (ProtocolSystem.step_moves hp)
  | deliverError task =>
      simp only [step] at h
      split at h
      · rename_i hnone
        obtain rfl := Option.some.inj h
        exact .deliverError hnone
      · cases h
  | recordError =>
      simp only [step] at h
      split at h
      · rename_i task hsome
        obtain rfl := Option.some.inj h
        exact .recordError hsome
      · cases h

/-! ### The flow of commands and acknowledgments

Marking writes records and nothing else, so the histories stay consistent with the records as they
would be without it. -/

/-- The histories are consistent, but for the records. -/
structure Flow (mgr : τ) (tasks : List τ) (s : ProtocolSystem κ τ) : Prop where
  consistent : ∃ taskStates,
    ProtocolSystem.Consistent mgr (fun t => decide (t ∈ tasks)) (s.withRecords taskStates)

variable {mgr : τ} {tasks : List τ} {s s' : ProtocolSystem κ τ}

omit [DecidableEq κ] in
theorem Flow.eqs (h : Flow mgr tasks s) {t : τ} (ht : t ∈ tasks) (hm : t ≠ mgr) :
    s.manager.self = mgr ∧
    s.written t ++ (s.ackInHand t ++ s.acksQueued t) = s.published t ∧
    s.published t ++ s.unpublished t = s.applied t ∧
    s.applied t ++ (s.commandInHand t ++ s.commandsQueued t) = s.commanded t ∧
    s.currentState t = (s.applied t).getLastD .notStarted := by
  obtain ⟨taskStates, hc⟩ := h
  exact ⟨hc.self_eq, hc.acks t (decide_eq_true ht), hc.publishes t hm, hc.commands t hm, hc.state t⟩

omit [DecidableEq κ] in
/-- What is in flight is what has been commanded and not been recorded. -/
theorem Flow.commanded_eq (h : Flow mgr tasks s) {t : τ} (ht : t ∈ tasks) (hm : t ≠ mgr) :
    s.written t ++ s.unacknowledged t = s.commanded t := by
  obtain ⟨-, hacks, hpub, hcmd, -⟩ := h.eqs ht hm
  rw [← hcmd, ← hpub, ← hacks]
  simp only [ProtocolSystem.unacknowledged, List.append_assoc]

omit [DecidableEq κ] in
theorem Flow.currentState_eq (h : Flow mgr tasks s) {t : τ} (ht : t ∈ tasks) (hm : t ≠ mgr)
    (hnil : s.unacknowledged t = []) : s.currentState t = (s.written t).getLastD .notStarted := by
  obtain ⟨-, hacks, hpub, -, hstate⟩ := h.eqs ht hm
  simp only [ProtocolSystem.unacknowledged, List.append_eq_nil_iff] at hnil
  obtain ⟨hhand, hqueued, hunpub, -, -⟩ := hnil
  rw [hstate, ← hpub, ← hacks, hhand, hqueued, hunpub, List.append_nil, List.append_nil,
    List.append_nil]

theorem moves_flow (hw : ProtocolSystem.Wired subs mgr) (h : Flow mgr tasks s)
    (hreg : ∀ t ∈ tasks, (s.manager.taskStates.find? t).isSome) {e : ProtocolEvent κ τ}
    (hm : ProtocolSystem.Moves subs s e s') : Flow mgr tasks s' := by
  obtain ⟨taskStates, h⟩ := h
  obtain rfl : s.manager.self = mgr := h.self_eq
  have hcontrol : ∀ {c : κ} {pc : ControlPc τ} {manager : StateManager τ},
      (∀ newState demand, s.controller c ≠ .publishing newState demand) →
      manager.self = s.manager.self → Flow s.manager.self tasks { s with
        manager := manager
        controller := Function.update s.controller c pc } :=
    fun hc hself => ⟨taskStates, h.control hc hself rfl⟩
  cases hm with
  | request hpc => exact hcontrol (by simp [hpc]) rfl
  | demand hpc => exact hcontrol (by simp [hpc]) rfl
  | setTarget hpc => exact hcontrol (by simp [hpc]) rfl
  | transition hpc => exact hcontrol (by simp [hpc]) rfl
  | publish hpc hfree => exact ⟨taskStates, h.publish hfree _⟩
  | check hpc => exact hcontrol (by simp [hpc]) rfl
  | pass hpc _ => exact hcontrol (by simp [hpc]) rfl
  | miss hpc _ => exact hcontrol (by simp [hpc]) rfl
  | succeed hpc => exact hcontrol (by simp [hpc]) rfl
  | leave hpc => exact hcontrol (by simp [hpc]) rfl
  | dequeue hpc hpop => exact ⟨taskStates, h.dequeue hpc hpop⟩
  | @record msg t state hpc hack =>
      by_cases ht : t ∈ tasks
      · obtain ⟨-, hsender, hdata⟩ := StateManager.acknowledged_eq_some_iff.mp hack
        have hsome : (taskStates.find? t).isSome := (h.isSome_find? t).trans (decide_eq_true ht)
        exact ⟨taskStates.insert t state,
          h.record hpc (StateManager.acknowledged_eq_some_iff.mpr ⟨hsome, hsender, hdata⟩)⟩
      · have hold : ∀ u, decide (u ∈ tasks) = true → u ≠ t ∧
            Function.update s.written t (s.written t ++ [state]) u = s.written u := by
          intro u hu
          have hne : u ≠ t := fun he => ht (he ▸ of_decide_eq_true hu)
          exact ⟨hne, Function.update_of_ne hne ..⟩
        refine ⟨taskStates, h.processed hpc rfl ?_ ?_⟩
        · intro u
          refine (h.records u).trans ?_
          split_ifs with hu
          · exact congrArg (fun l => some (List.getLastD l _)) (hold u hu).2.symm
          · rfl
        · intro u hu
          refine (hold u hu).2.trans ?_
          rw [ProtocolSystem.ackOf_of_acknowledged hack u, if_neg (hold u hu).1, Option.toList_none,
            List.append_nil]
          rfl
  | ignore hpc hack =>
      refine ⟨taskStates, h.processed hpc rfl h.records ?_⟩
      intro u hu
      rw [ProtocolSystem.ackOf_of_not_acknowledged hack (hreg u (of_decide_eq_true hu)),
        Option.toList_none, List.append_nil]
      rfl
  | apply hx hpc hcmd => exact ⟨taskStates, h.apply hx hpc hcmd⟩
  | skip hx hpc hcmd => exact ⟨taskStates, h.skip hx hpc hcmd⟩
  | announce hpc hfree => exact ⟨taskStates, h.announce hpc hfree hw.hears_acks (hw.nodup _)⟩
  | deliver hsub => exact ⟨taskStates, h.deliver hsub⟩
  | commanded hsub _ _ => exact ⟨taskStates, h.commanded hsub⟩
  | acknowledged hsub => exact ⟨taskStates, h.acknowledged hsub⟩
  | other hstate hack =>
      exact ⟨taskStates, h.other (ProtocolSystem.commandOf_eq_none hstate)
        (fun t => ProtocolSystem.ackOf_eq_none t hack)⟩

omit [DecidableEq κ] in
theorem Flow.deliverError (h : Flow mgr tasks s) (x : τ) : Flow mgr tasks { s with
    queue := Function.update s.queue x (s.queue x ++ [s.manager.unresponsiveMsg])
    commanded := Function.update s.commanded x (s.commanded x ++ [.error]) } := by
  obtain ⟨taskStates, h⟩ := h
  have hself : s.manager.self = mgr := h.self_eq
  refine ⟨taskStates, h.self_eq, h.manager_idle, h.sub_task, h.sub_controller, h.publishing,
    h.records, ?_, h.publishes, ?_, h.state⟩
  · intro t ht
    refine Eq.trans ?_ (h.acks t ht)
    by_cases hx : mgr = x
    · subst hx
      simp [ProtocolSystem.acksQueued, ProtocolSystem.ackInHand, ProtocolSystem.withRecords, hself,
        StateManager.unresponsiveMsg, ackOf]
    · simp only [ProtocolSystem.acksQueued, ProtocolSystem.ackInHand, ProtocolSystem.withRecords,
        hself, Function.update_of_ne hx]
  · intro t ht
    have hcmd := h.commands t ht
    by_cases hx : t = x
    · subst hx
      show s.applied t ++ (s.commandInHand t ++ (Function.update s.queue t _ t).filterMap commandOf) =
        Function.update s.commanded t _ t
      rw [Function.update_self, Function.update_self, StableQueue.filterMap_push, ← List.append_assoc,
        ← List.append_assoc, List.append_assoc (s.applied t)]
      exact congrArg (· ++ [TaskState.error]) hcmd
    · show s.applied t ++ (s.commandInHand t ++ (Function.update s.queue x _ t).filterMap commandOf) =
        Function.update s.commanded x _ t
      rw [Function.update_of_ne hx, Function.update_of_ne hx]
      exact hcmd

/-! ### The records -/

/-- What holds as long as every write of `ERROR` for `t` meets `MarkInFlight`: with nothing of the
task in flight its record is the last one that was acknowledged. -/
structure Recorded (mgr : τ) (tasks : List τ) (t : τ) (s : MarkingSystem κ τ) : Prop where
  flow : Flow mgr tasks s.protocol
  registered : ∀ u ∈ tasks, (s.protocol.manager.taskStates.find? u).isSome
  record : s.protocol.unacknowledged t = [] →
    s.protocol.manager.taskStates.find? t = some ((s.protocol.written t).getLastD .notStarted)

/-- A step of the protocol records an acknowledgment of the task, or keeps its record and perhaps
delivers a command to it. -/
theorem moves_record {e : ProtocolEvent κ τ} (hm : ProtocolSystem.Moves subs s e s') (t : τ) :
    (s'.written t = s.written t ∧
      s'.manager.taskStates.find? t = s.manager.taskStates.find? t ∧
      (s'.commanded t = s.commanded t ∨ ∃ state, s'.commanded t = s.commanded t ++ [state])) ∨
    ∃ state, s'.written t = s.written t ++ [state] ∧ s'.commanded t = s.commanded t ∧
      s'.manager.taskStates.find? t = some state := by
  cases hm with
  | @record msg u state _ _ =>
      by_cases hu : t = u
      · subst hu
        exact .inr ⟨state, Function.update_self .., rfl, by rw [OrdMap.find?_insert, if_pos rfl]⟩
      · exact .inl ⟨Function.update_of_ne hu .., by rw [OrdMap.find?_insert, if_neg hu], .inl rfl⟩
  | @deliver p msg x rest _ =>
      refine .inl ⟨rfl, rfl, ?_⟩
      show Function.update s.commanded x (s.commanded x ++ (commandOf msg).toList) t = _ ∨ _
      by_cases hx : t = x
      · subst hx
        cases hcmd : commandOf msg with
        | none => exact .inl (by simp)
        | some state => exact .inr ⟨state, Function.update_self ..⟩
      · exact .inl (Function.update_of_ne hx ..)
  | _ => exact .inl ⟨rfl, rfl, .inl rfl⟩

theorem moves_registered {e : ProtocolEvent κ τ} (hm : ProtocolSystem.Moves subs s e s') {t : τ}
    (h : (s.manager.taskStates.find? t).isSome) : (s'.manager.taskStates.find? t).isSome := by
  rcases moves_record hm t with ⟨-, heq, -⟩ | ⟨state, -, -, heq⟩
  · rw [heq]
    exact h
  · rw [heq]
    rfl

omit [DecidableEq κ] in
theorem Flow.written_eq_iff (h : Flow mgr tasks s) {t : τ} (ht : t ∈ tasks) (hm : t ≠ mgr) :
    s.unacknowledged t = [] ↔ s.written t = s.commanded t := by
  rw [← h.commanded_eq ht hm, List.self_eq_append_right]

omit [DecidableEq κ] in
/-- A command that has just been delivered is not recorded. -/
theorem Flow.written_ne (h : Flow mgr tasks s) {t : τ} (ht : t ∈ tasks) (hm : t ≠ mgr)
    (state : TaskState) : s.written t ≠ s.commanded t ++ [state] := by
  intro heq
  have hlen := congrArg List.length heq
  rw [← h.commanded_eq ht hm] at hlen
  simp only [List.length_append, List.length_singleton] at hlen
  omega

theorem protocol_recorded (hw : ProtocolSystem.Wired subs mgr) {t : τ} (ht : t ∈ tasks)
    (hm : t ≠ mgr) {s : MarkingSystem κ τ} (h : Recorded mgr tasks t s) {e : ProtocolEvent κ τ}
    {protocol : ProtocolSystem κ τ} (hmoves : ProtocolSystem.Moves subs s.protocol e protocol) :
    Recorded mgr tasks t { s with protocol := protocol } := by
  have hflow := moves_flow hw h.flow h.registered hmoves
  refine ⟨hflow, fun u hu => moves_registered hmoves (h.registered u hu), fun hnil => ?_⟩
  have hall := (hflow.written_eq_iff ht hm).mp hnil
  show protocol.manager.taskStates.find? t = some ((protocol.written t).getLastD .notStarted)
  rcases moves_record hmoves t with ⟨hwritten, hfind, hcmd⟩ | ⟨state, hwritten, -, hfind⟩
  · rw [hwritten, hfind]
    rw [hwritten] at hall
    rcases hcmd with hcmd | ⟨state, hcmd⟩
    · exact h.record ((h.flow.written_eq_iff ht hm).mpr (hall.trans hcmd))
    · exact absurd (hall.trans hcmd) (h.flow.written_ne ht hm state)
  · rw [hwritten, hfind, List.getLastD_concat]

theorem moves_recorded (hw : ProtocolSystem.Wired subs mgr) {t : τ} (ht : t ∈ tasks) (hm : t ≠ mgr)
    {s s' : MarkingSystem κ τ} (h : Recorded mgr tasks t s) {e : MarkingEvent κ τ}
    (hc : MarkInFlight t s e) (hmoves : Moves subs s e s') : Recorded mgr tasks t s' := by
  cases hmoves with
  | protocol hp => exact protocol_recorded hw ht hm h hp
  | @deliverError x hnone =>
      have hflow := h.flow.deliverError x
      refine ⟨hflow, h.registered, fun hnil => ?_⟩
      have hall := (hflow.written_eq_iff ht hm).mp hnil
      by_cases hx : t = x
      · subst hx
        exact absurd (hall.trans (Function.update_self ..)) (h.flow.written_ne ht hm .error)
      · exact h.record ((h.flow.written_eq_iff ht hm).mpr
          (hall.trans (Function.update_of_ne hx ..)))
  | @recordError x hsome =>
      obtain ⟨taskStates, hcons⟩ := h.flow
      have hflow : Flow mgr tasks { s.protocol with
          manager := s.protocol.manager.recordUnresponsive x } := ⟨taskStates, hcons⟩
      refine ⟨hflow, ?_, fun hnil => ?_⟩
      · intro u hu
        show ((s.protocol.manager.taskStates.insert x .error).find? u).isSome
        rw [OrdMap.find?_insert]
        split_ifs
        · rfl
        · exact h.registered u hu
      · show (s.protocol.manager.taskStates.insert x .error).find? t =
          some ((s.protocol.written t).getLastD .notStarted)
        have hnil' : s.protocol.unacknowledged t = [] := hnil
        rw [OrdMap.find?_insert]
        by_cases hx : t = x
        · subst hx
          rw [if_pos rfl]
          rcases hc hsome with hne | herror
          · exact absurd hnil' hne
          · rw [← h.flow.currentState_eq ht hm hnil', herror]
        · rw [if_neg hx]
          exact h.record hnil'

omit [DecidableEq κ] in
theorem start_recorded (mgr : τ) {tasks : List τ} {t : τ} (ht : t ∈ tasks)
    (currentState targetState : TaskState) :
    Recorded mgr tasks t (start mgr tasks currentState targetState : MarkingSystem κ τ) := by
  have hfind : ∀ u ∈ tasks, (start mgr tasks currentState targetState :
      MarkingSystem κ τ).protocol.manager.taskStates.find? u = some .notStarted := by
    intro u hu
    exact (StateManager.find?_registerAll _ tasks u).trans (if_pos hu)
  refine ⟨⟨_, ProtocolSystem.start_consistent mgr tasks currentState targetState⟩, ?_, ?_⟩
  · intro u hu
    rw [hfind u hu]
    rfl
  · intro _
    exact hfind t ht

omit [DecidableEq κ] in
theorem AtRest.unacknowledged_eq {t : τ} {s : MarkingSystem κ τ} (h : AtRest t s) :
    s.protocol.unacknowledged t = [] := by
  obtain ⟨-, -, hcmd, hthread, hqueued, hhand⟩ := h
  simp [ProtocolSystem.unacknowledged, ProtocolSystem.unpublished, ProtocolSystem.commandInHand, hcmd,
    hthread, hqueued, hhand]

/-- **Agreement after marking.**  In every interleaving of the two steps of
`mark_task_as_unresponsive` with requests, demands, the tasks and the manager, in which each write of
`ERROR` for a registered task finds something of the task in flight or finds it in that state, the
record of the task is its state whenever the task is at rest. -/
theorem records_agree (hw : ProtocolSystem.Wired subs mgr) (currentState targetState : TaskState)
    {t : τ} (ht : t ∈ tasks) (htmgr : t ≠ mgr) (es : List (MarkingEvent κ τ)) (s : MarkingSystem κ τ)
    (hrun : run (step subs) (start mgr tasks currentState targetState) es = some s)
    (halong : Along (step subs) (MarkInFlight t) (start mgr tasks currentState targetState) es)
    (hrest : AtRest t s) :
    s.protocol.manager.taskStates.find? t = some (s.protocol.currentState t) := by
  have h : Recorded mgr tasks t s := run_invariant_along
    (fun _ _ _ hi hc he => moves_recorded hw ht htmgr hi hc (step_moves he))
    (start_recorded mgr ht currentState targetState) halong hrun
  have hnil := hrest.unacknowledged_eq
  rw [h.record hnil, h.flow.currentState_eq ht htmgr hnil]

/-- The condition of a run can be evaluated. -/
instance decidableMarkInFlight (t : τ) (s : MarkingSystem κ τ) :
    ∀ e, Decidable (MarkInFlight t s e)
  | .recordError => inferInstanceAs (Decidable (s.marking = some t →
      s.protocol.unacknowledged t ≠ [] ∨ s.protocol.currentState t = .error))
  | .protocol _ => isTrue trivial
  | .deliverError _ => isTrue trivial

/-- The task has taken `ERROR` and is publishing its acknowledgment when the record is written. -/
def markedInFlight : List (MarkingEvent Unit ℕ) :=
  [.deliverError 1, .protocol (.dequeue 1), .protocol (.process 1), .protocol (.process 1),
    .recordError, .protocol .deliver, .protocol .deliver, .protocol (.dequeue 0),
    .protocol (.process 0)]

theorem records_agree_in_flight : ∃ s : MarkingSystem Unit ℕ,
    run (step (ProtocolSystem.wiring 0 [1])) (start 0 [1] .notStarted .notStarted) markedInFlight =
      some s ∧
    s.protocol.currentState 1 = .error ∧
    s.protocol.manager.taskStates.find? 1 = some (s.protocol.currentState 1) := by
  obtain ⟨s, hrun, hstate, hrest⟩ : ∃ s : MarkingSystem Unit ℕ,
      run (step (ProtocolSystem.wiring 0 [1])) (start 0 [1] .notStarted .notStarted)
        markedInFlight = some s ∧ s.protocol.currentState 1 = .error ∧ AtRest 1 s :=
    ⟨_, rfl, rfl, ⟨fun _ => rfl, rfl, rfl, rfl, rfl, rfl⟩⟩
  have hw : ProtocolSystem.Wired (ProtocolSystem.wiring 0 [1]) 0 :=
    ProtocolSystem.wiring_wired 0 (by decide)
  exact ⟨s, hrun, hstate, records_agree hw .notStarted .notStarted (List.mem_singleton.mpr rfl)
    (by decide) markedInFlight s hrun (by decide +kernel) hrest⟩

/-- Between the two steps the task takes and acknowledges `ERROR`, and then a requested `RUNNING`;
the write comes last. -/
theorem late_mark_disagrees : ∃ s : MarkingSystem Unit ℕ,
    run (step (ProtocolSystem.wiring 0 [1])) (start 0 [1] .notStarted .notStarted)
      [.deliverError 1, .protocol (.dequeue 1), .protocol (.process 1), .protocol (.process 1),
        .protocol .deliver, .protocol .deliver, .protocol (.dequeue 0), .protocol (.process 0),
        .protocol (.requestStateTransition () .running), .protocol (.control ()),
        .protocol (.control ()), .protocol .deliver, .protocol .deliver, .protocol (.dequeue 1),
        .protocol (.process 1), .protocol (.process 1), .protocol .deliver, .protocol .deliver,
        .protocol (.dequeue 0), .protocol (.process 0), .recordError] = some s ∧
    AtRest 1 s ∧ s.protocol.manager.taskStates.find? 1 = some .error ∧
    s.protocol.currentState 1 = .running :=
  ⟨_, rfl, ⟨fun _ => rfl, rfl, rfl, rfl, rfl, rfl⟩, rfl, rfl⟩

end MarkingSystem

end Protocore
