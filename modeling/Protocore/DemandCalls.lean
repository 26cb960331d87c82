import Protocore.Convergence
import Protocore.Reported
import Protocore.Shutdown
import Protocore.Simulation
import Protocore.Wakeup

/-! # Requesting and demanding a state

`request_state_transition` and `demand_state_transition` are part of four systems: `ProtocolSystem`
has the tasks, `WakeupSystem` the condition variable, `ShutdownSystem` the stops that follow a demand,
and `ReportSystem` all calls of one thread.  What the two functions do to the manager, and in which
order, is the same in all of them: it is `DemandCalls`, in which a record may be written at any time.

* `ProtocolSystem.simulates_calls`, `WakeupSystem.simulates_calls`, `ShutdownSystem.simulates_calls`,
  `ReportSystem.simulates_calls`: each of the systems is explained by `DemandCalls`.
* `DemandCalls.Missing`: as long as the record of a task has another state than `state`, and `state` is
  not written to it, no demand of `state` returns true.  It follows for the systems that show what a
  demand returns: `not_returned_true`. -/

namespace Protocore

variable {κ τ : Type} [DecidableEq κ] [LinearOrder τ]

/-- The manager and its callers. -/
structure DemandCalls (κ τ : Type) [LinearOrder τ] where
  manager : StateManager τ
  controller : κ → ControlPc τ

/-- The steps of the two functions, and what others do to the manager: a record is written, and
`Task::stop` calls `transition_to_state`. -/
inductive DemandCallsEvent (κ τ : Type) where
  | request (c : κ) (newState : TaskState)
  | demand (c : κ) (newState : TaskState)
  | control (c : κ)
  | published (c : κ)
  | timeout (c : κ)
  | record (task : τ) (state : TaskState)
  | transitionToState (newState : TaskState)

namespace DemandCalls

/-- The tasks in the order in which `all_tasks_in_state` reads their records. -/
def recorded (s : DemandCalls κ τ) : List τ := s.manager.taskStates.entries.map Prod.fst

/-- The next step of a caller; that it owns `sub_mutex` and `state_mutex` is not looked at. -/
def controlStep (s : DemandCalls κ τ) (c : κ) : Option (DemandCalls κ τ) :=
  let goto := fun pc => Function.update s.controller c pc
  match s.controller c with
  | .setTarget newState =>
      some ⟨{ s.manager with targetState := newState }, goto (.transition newState true)⟩
  | .transition newState demand =>
      some ⟨(s.manager.transitionToState newState).1, goto (.publish newState demand)⟩
  | .publish newState demand => some { s with controller := goto (.publishing newState demand) }
  | .waiting newState => some { s with controller := goto (.checking newState s.recorded false) }
  | .checking newState [] _ => some { s with controller := goto (.returned newState true) }
  | .checking newState (t :: rest) timedOut =>
      some { s with
        controller := goto
          (if s.manager.taskStates.find? t = some newState then .checking newState rest timedOut
          else if timedOut then .returned newState false
          else .waiting newState) }
  | .returned _ _ => some { s with controller := goto .idle }
  | .idle => none
  | .publishing _ _ => none

/-- One step. -/
def step (s : DemandCalls κ τ) : DemandCallsEvent κ τ → Option (DemandCalls κ τ)
  | .request c newState =>
      match s.controller c with
      | .idle =>
          some { s with controller := Function.update s.controller c (.transition newState false) }
      | _ => none
  | .demand c newState =>
      match s.controller c with
      | .idle => some { s with controller := Function.update s.controller c (.setTarget newState) }
      | _ => none
  | .control c => s.controlStep c
  | .published c =>
      match s.controller c with
      | .publishing newState demand =>
          some { s with
            controller := Function.update s.controller c
              (if demand then .waiting newState else .idle) }
      | _ => none
  | .timeout c =>
      match s.controller c with
      | .waiting newState =>
          some { s with
            controller := Function.update s.controller c (.checking newState s.recorded true) }
      | _ => none
  | .record task state =>
      some { s with
        manager := { s.manager with taskStates := s.manager.taskStates.insert task state } }
  | .transitionToState newState => some { s with manager := (s.manager.transitionToState newState).1 }

@[simp] theorem update_unit {α : Type*} (f : Unit → α) (a : α) : Function.update f () a = fun _ => a :=
  Function.update_eq_const_of_subsingleton ..

/-! ### Messages and checks -/

/-- What is seen of the manager while it processes a message. -/
def recordSeen (m : StateManager τ) (msg : Msg τ) : List (DemandCallsEvent κ τ) :=
  (m.acknowledged msg).elim [] (fun r => [.record r.1 r.2])

theorem run_recordSeen (m : StateManager τ) (msg : Msg τ) (controller : κ → ControlPc τ) :
    run step ⟨m, controller⟩ (recordSeen m msg) = some ⟨(m.processMessage msg).1, controller⟩ := by
  cases hack : m.acknowledged msg with
  | none =>
      rw [recordSeen, hack, StateManager.processMessage_of_not_acknowledged hack]
      rfl
  | some r =>
      rw [recordSeen, hack, StateManager.processMessage_of_acknowledged hack]
      rfl

/-- A caller reads the records one after the other, until one differs, and returns. -/
def checkSeen (m : StateManager τ) (newState : TaskState) (l : List τ) (c : κ) :
    List (DemandCallsEvent κ τ) :=
  List.replicate ((l.takeWhile (fun t => decide (m.taskStates.find? t = some newState))).length + 2)
    (.control c)

theorem run_checkSeen {m : StateManager τ} {newState : TaskState} {c : κ} {timedOut : Bool} :
    ∀ {l : List τ} {controller : κ → ControlPc τ}, controller c = .checking newState l timedOut →
      (timedOut = true ∨ ∀ t ∈ l, m.taskStates.find? t = some newState) →
      run step ⟨m, controller⟩ (checkSeen m newState l c) =
        some ⟨m, Function.update controller c .idle⟩
  | [], controller, hpc, _ => by
      simp [checkSeen, run, step, controlStep, hpc]
  | t :: l, controller, hpc, hl => by
      by_cases ht : m.taskStates.find? t = some newState
      · have hrest : timedOut = true ∨ ∀ t ∈ l, m.taskStates.find? t = some newState :=
          hl.imp id (fun h u hu => h u (List.mem_cons_of_mem t hu))
        have htail := run_checkSeen (Function.update_self c (.checking newState l timedOut) controller)
          hrest
        rw [Function.update_idem] at htail
        rw [checkSeen, List.takeWhile_cons_of_pos (by simpa using ht), List.length_cons,
          Nat.add_right_comm, List.replicate_succ, run_cons_eq_some]
        refine ⟨_, ?_, htail⟩
        simp [step, controlStep, hpc, ht]
      · have htimedOut : timedOut = true :=
          hl.resolve_right (fun h => ht (h t List.mem_cons_self))
        rw [checkSeen, List.takeWhile_cons_of_neg (by simpa using ht)]
        simp [run, step, controlStep, hpc, ht, htimedOut]

/-! ### A demand that fails -/

/-- The record of a registered task has another state; no caller that demands `state` has read it yet
in its loop, and none has returned true. -/
structure Missing (task : τ) (state : TaskState) (s : DemandCalls κ τ) : Prop where
  recorded : task ∈ s.recorded
  record : s.manager.taskStates.find? task ≠ some state
  ahead : ∀ c rest timedOut, s.controller c = .checking state rest timedOut → task ∈ rest
  fails : ∀ c, s.controller c ≠ .returned state true

variable {task : τ} {state : TaskState} {s s' : DemandCalls κ τ}

/-- A caller goes to a point that the other two conditions allow. -/
theorem Missing.goto (h : Missing task state s) {manager : StateManager τ} {c : κ} {pc : ControlPc τ}
    (hmanager : manager.taskStates = s.manager.taskStates)
    (hahead : ∀ rest timedOut, pc = .checking state rest timedOut → task ∈ rest)
    (hfails : pc ≠ .returned state true) :
    Missing task state ⟨manager, Function.update s.controller c pc⟩ where
  recorded := by
    have hrecorded := h.recorded
    rw [DemandCalls.recorded] at hrecorded ⊢
    rwa [hmanager]
  record := by
    rw [hmanager]
    exact h.record
  ahead := by
    intro c' rest timedOut hpc
    simp only [Function.update_apply] at hpc
    split_ifs at hpc
    · exact hahead rest timedOut hpc
    · exact h.ahead c' rest timedOut hpc
  fails := by
    intro c' hpc
    simp only [Function.update_apply] at hpc
    split_ifs at hpc
    · exact hfails hpc
    · exact h.fails c' hpc

theorem controlStep_missing {c : κ} (h : Missing task state s) (hs : s.controlStep c = some s') :
    Missing task state s' := by
  unfold controlStep at hs
  cases hpc : s.controller c with
  | idle => simp only [hpc] at hs; cases hs
  | publishing newState demand => simp only [hpc] at hs; cases hs
  | setTarget newState =>
      simp only [hpc] at hs
      obtain rfl := Option.some.inj hs
      exact h.goto rfl (by simp) (by simp)
  | transition newState demand =>
      simp only [hpc] at hs
      obtain rfl := Option.some.inj hs
      exact h.goto rfl (by simp) (by simp)
  | publish newState demand =>
      simp only [hpc] at hs
      obtain rfl := Option.some.inj hs
      exact h.goto rfl (by simp) (by simp)
  | returned newState success =>
      simp only [hpc] at hs
      obtain rfl := Option.some.inj hs
      exact h.goto rfl (by simp) (by simp)
  | waiting newState =>
      simp only [hpc] at hs
      obtain rfl := Option.some.inj hs
      refine h.goto rfl ?_ (by simp)
      intro rest timedOut heq
      obtain ⟨rfl, rfl, rfl⟩ := ControlPc.checking.inj heq
      exact h.recorded
  | checking newState rest timedOut =>
      cases rest with
      | nil =>
          simp only [hpc] at hs
          obtain rfl := Option.some.inj hs
          refine h.goto rfl (by simp) ?_
          intro heq
          obtain ⟨rfl, -⟩ := ControlPc.returned.inj heq
          exact absurd (h.ahead c [] timedOut hpc) List.not_mem_nil
      | cons t rest =>
          simp only [hpc] at hs
          obtain rfl := Option.some.inj hs
          split_ifs with hrecord htimedOut
          · refine h.goto rfl ?_ (by simp)
            intro rest' timedOut' heq
            obtain ⟨rfl, rfl, rfl⟩ := ControlPc.checking.inj heq
            -- the record that has just been read has the demanded state, so it is another one
            have hne : task ≠ t := fun heq => h.record (heq ▸ hrecord)
            exact (List.mem_cons.mp (h.ahead c (t :: rest) timedOut hpc)).resolve_left hne
          · exact h.goto rfl (by simp) (by simp)
          · exact h.goto rfl (by simp) (by simp)

theorem step_missing {e : DemandCallsEvent κ τ} (h : Missing task state s)
    (he : e ≠ .record task state) (hs : step s e = some s') : Missing task state s' := by
  cases e with
  | request c newState =>
      simp only [step] at hs
      split at hs
      · obtain rfl := Option.some.inj hs
        exact h.goto rfl (by simp) (by simp)
      · cases hs
  | demand c newState =>
      simp only [step] at hs
      split at hs
      · obtain rfl := Option.some.inj hs
        exact h.goto rfl (by simp) (by simp)
      · cases hs
  | control c => exact controlStep_missing h hs
  | published c =>
      simp only [step] at hs
      split at hs
      · rename_i newState demand hpc
        obtain rfl := Option.some.inj hs
        cases demand with
        | true => exact h.goto rfl (by simp) (by simp)
        | false => exact h.goto rfl (by simp) (by simp)
      · cases hs
  | timeout c =>
      simp only [step] at hs
      split at hs
      · obtain rfl := Option.some.inj hs
        refine h.goto rfl ?_ (by simp)
        intro rest timedOut heq
        obtain ⟨rfl, rfl, rfl⟩ := ControlPc.checking.inj heq
        exact h.recorded
      · cases hs
  | record t written =>
      obtain rfl := Option.some.inj hs
      refine ⟨?_, ?_, h.ahead, h.fails⟩
      · have hrecorded := h.recorded
        rw [DemandCalls.recorded, OrdMap.mem_keys_iff] at hrecorded ⊢
        rw [OrdMap.find?_insert]
        split_ifs
        · rfl
        · exact hrecorded
      · simp only [OrdMap.find?_insert]
        split_ifs with ht
        · subst ht
          intro heq
          obtain rfl := Option.some.inj heq
          exact he rfl
        · exact h.record
  | transitionToState newState =>
      obtain rfl := Option.some.inj hs
      exact ⟨h.recorded, h.record, h.ahead, h.fails⟩

/-- No demand of the state succeeds before it is written to the record. -/
theorem viewed_missing {σ ε : Type*} {cstep : σ → ε → Option σ} {P : σ → Prop} {C : σ → ε → Prop}
    {seen : σ → ε → List (DemandCallsEvent κ τ)} {view : σ → DemandCalls κ τ}
    (h : Simulates cstep step P C seen view) {es : List ε} {s s' : σ} (hP : P s)
    (hC : Along cstep C s es) (hrun : run cstep s es = some s') (hm : Missing task state (view s))
    (hseen : .record task state ∉ viewed cstep seen s es) : Missing task state (view s') := by
  have hnever : ∀ e ∈ viewed cstep seen s es, e ≠ DemandCallsEvent.record task state := by
    rintro e he rfl
    exact hseen he
  have hstep : ∀ s (e : DemandCallsEvent κ τ) s', Missing task state s → e ≠ .record task state →
      step s e = some s' → Missing task state s' := fun _ _ _ hs he hmove => step_missing hs he hmove
  exact run_invariant_along hstep hm (along_of_forall hnever) (h.run_viewed hP hC hrun)

end DemandCalls

/-! ### With the tasks -/

namespace ProtocolSystem

variable {subs : MsgType → List τ} {mgr : τ} {reg : τ → Bool} {s s' : ProtocolSystem κ τ}

/-- The manager and its callers. -/
def calls (s : ProtocolSystem κ τ) : DemandCalls κ τ := ⟨s.manager, s.controller⟩

/-- The end of a broadcast by a caller. -/
def publishedSeen : Option (Delivery κ τ) → List (DemandCallsEvent κ τ)
  | some ⟨.controller c, _, []⟩ => [.published c]
  | _ => []

/-- The manager's thread processes a message. -/
def processSeen (m : StateManager τ) (x : τ) : ThreadPc τ → List (DemandCallsEvent κ τ)
  | .handling msg => if x = m.self then DemandCalls.recordSeen m msg else []
  | _ => []

/-- What is seen of a step. -/
def callsSeen (s : ProtocolSystem κ τ) : ProtocolEvent κ τ → List (DemandCallsEvent κ τ)
  | .requestStateTransition c newState => [.request c newState]
  | .demandStateTransition c newState => [.demand c newState]
  | .control c => [.control c]
  | .timeout c => [.timeout c]
  | .process x => processSeen s.manager x (s.thread x)
  | .deliver => publishedSeen s.sub
  | .dequeue _ => []
  | .other _ _ => []

theorem control_calls {c : κ} (hs : s.controlStep subs c = some s') :
    s.calls.controlStep c = some s'.calls := by
  unfold controlStep at hs
  cases hpc : s.controller c with
  | idle => simp only [hpc] at hs; cases hs
  | publishing newState demand => simp only [hpc] at hs; cases hs
  | publish newState demand =>
      simp only [hpc] at hs
      split_ifs at hs
      obtain rfl := Option.some.inj hs
      simp [calls, DemandCalls.controlStep, hpc]
  | checking newState rest timedOut =>
      cases rest with
      | nil =>
          simp only [hpc] at hs
          obtain rfl := Option.some.inj hs
          simp [calls, DemandCalls.controlStep, hpc]
      | cons t rest =>
          simp only [hpc] at hs
          obtain rfl := Option.some.inj hs
          simp only [calls, DemandCalls.controlStep, hpc]
          rfl
  | _ =>
      simp only [hpc] at hs
      obtain rfl := Option.some.inj hs
      simp [calls, DemandCalls.controlStep, DemandCalls.recorded, recorded, hpc]

theorem process_calls {x : τ} (hs : s.processStep subs x = some s') :
    run DemandCalls.step s.calls (processSeen s.manager x (s.thread x)) = some s'.calls := by
  unfold processStep at hs
  cases hpc : s.thread x with
  | idle => simp only [hpc] at hs; cases hs
  | publishing => simp only [hpc] at hs; cases hs
  | announce =>
      simp only [hpc] at hs
      split_ifs at hs
      obtain rfl := Option.some.inj hs
      rfl
  | handling msg =>
      simp only [hpc] at hs
      by_cases hx : x = s.manager.self
      · rw [if_pos hx] at hs
        obtain rfl := Option.some.inj hs
        rw [processSeen, if_pos hx]
        exact DemandCalls.run_recordSeen ..
      · rw [if_neg hx] at hs
        rw [processSeen, if_neg hx]
        split at hs
        · obtain rfl := Option.some.inj hs
          rfl
        · obtain rfl := Option.some.inj hs
          rfl

theorem deliver_calls (h : Consistent mgr reg s) (hs : s.deliverStep = some s') :
    run DemandCalls.step s.calls (publishedSeen s.sub) = some s'.calls := by
  unfold deliverStep at hs
  cases hsub : s.sub with
  | none => simp only [hsub] at hs; cases hs
  | some d =>
      obtain ⟨publisher, msg, rest⟩ := d
      cases rest with
      | cons x rest =>
          simp only [hsub] at hs
          obtain rfl := Option.some.inj hs
          cases publisher <;> rfl
      | nil =>
          cases publisher with
          | task t =>
              simp only [hsub] at hs
              obtain rfl := Option.some.inj hs
              rfl
          | controller c =>
              simp only [hsub] at hs
              obtain rfl := Option.some.inj hs
              obtain ⟨newState, demand, hpc, -⟩ := h.sub_controller c msg [] hsub
              cases demand with
              | true => simp [publishedSeen, calls, run, DemandCalls.step, hpc]
              | false => simp [publishedSeen, calls, run, DemandCalls.step, hpc]

theorem simulates_calls (hw : Wired subs mgr) :
    Simulates (step subs) DemandCalls.step (Consistent mgr reg) (fun _ _ => True) callsSeen
      (calls : ProtocolSystem κ τ → DemandCalls κ τ) where
  keeps := fun _ _ _ h _ hs => moves_consistent hw h (step_moves hs)
  explains := by
    intro s e s' h _ hs
    cases e with
    | control c => exact run_cons_eq_some.mpr ⟨_, control_calls hs, rfl⟩
    | process x => exact process_calls hs
    | deliver => exact deliver_calls h hs
    | requestStateTransition c newState =>
        simp only [step] at hs
        split at hs
        · rename_i hpc
          obtain rfl := Option.some.inj hs
          simp [callsSeen, calls, run, DemandCalls.step, hpc]
        · cases hs
    | demandStateTransition c newState =>
        simp only [step] at hs
        split at hs
        · rename_i hpc
          obtain rfl := Option.some.inj hs
          simp [callsSeen, calls, run, DemandCalls.step, hpc]
        · cases hs
    | timeout c =>
        simp only [step] at hs
        split at hs
        · rename_i newState hpc
          obtain rfl := Option.some.inj hs
          simp [callsSeen, calls, run, DemandCalls.step, DemandCalls.recorded, recorded, hpc]
        · cases hs
    | dequeue x =>
        simp only [step] at hs
        split at hs
        · split at hs
          · obtain rfl := Option.some.inj hs
            rfl
          · cases hs
        · cases hs
    | other x msg =>
        simp only [step] at hs
        split_ifs at hs
        obtain rfl := Option.some.inj hs
        rfl

/-- No demand of the state succeeds before it is written to the record of the task. -/
theorem not_returned_true (hw : Wired subs mgr) {es : List (ProtocolEvent κ τ)} {task : τ}
    {state : TaskState} (h : Consistent mgr reg s) (hrun : run (step subs) s es = some s')
    (hm : DemandCalls.Missing task state s.calls)
    (hseen : .record task state ∉ viewed (step subs) callsSeen s es) (c : κ) :
    s'.controller c ≠ .returned state true :=
  (DemandCalls.viewed_missing (simulates_calls hw) h (along_of_forall (fun _ _ => trivial)) hrun hm
    hseen).fails c

end ProtocolSystem

/-! ### With the condition variable -/

namespace WakeupSystem

variable {s s' : WakeupSystem κ τ}

/-- A caller without the mutex and the condition variable; where it waits for one of them, it will
evaluate the predicate next. -/
def control : DemandPc τ → ControlPc τ
  | .idle => .idle
  | .setTarget newState => .setTarget newState
  | .transition newState => .transition newState true
  | .lock newState _ => .waiting newState
  | .check newState rest timedOut => .checking newState rest timedOut
  | .block newState => .waiting newState
  | .blocked newState => .waiting newState
  | .returned newState success => .returned newState success

/-- All callers. -/
def controls (demander : κ → DemandPc τ) (d : κ) : ControlPc τ := control (demander d)

/-- The manager and its callers. -/
def calls (s : WakeupSystem κ τ) : DemandCalls κ τ := ⟨s.manager, controls s.demander⟩

/-- What is seen of a step of a caller. -/
def demandSeen (d : κ) : DemandPc τ → List (DemandCallsEvent κ τ)
  | .transition _ => [.control d, .control d, .published d]
  | .lock _ true => [.timeout d]
  | .block _ => []
  | _ => [.control d]

/-- What is seen of a step. -/
def callsSeen (s : WakeupSystem κ τ) : WakeupEvent κ τ → List (DemandCallsEvent κ τ)
  | .demandStateTransition d newState => [.demand d newState]
  | .demand d => demandSeen d (s.demander d)
  | .handleAcknowledgment msg => DemandCalls.recordSeen s.manager msg
  | .recordUnresponsive task => [.record task .error]
  | _ => []

omit [LinearOrder τ] in
theorem controls_update (demander : κ → DemandPc τ) (d : κ) (pc : DemandPc τ) :
    controls (Function.update demander d pc) = Function.update (controls demander) d (control pc) :=
  funext (fun c => Function.apply_update (fun _ => control) demander d pc c)

omit [LinearOrder τ] in
/-- A caller that goes from one wait to the other. -/
theorem controls_update_self {demander : κ → DemandPc τ} {d : κ} {pc : DemandPc τ}
    (h : control pc = control (demander d)) :
    controls (Function.update demander d pc) = controls demander := by
  rw [controls_update, h]
  exact Function.update_eq_self d (controls demander)

theorem demand_calls {d : κ} (hs : s.demandStep d = some s') :
    run DemandCalls.step s.calls (demandSeen d (s.demander d)) = some s'.calls := by
  unfold demandStep at hs
  cases hpc : s.demander d with
  | idle => simp only [hpc] at hs; cases hs
  | blocked newState => simp only [hpc] at hs; cases hs
  | setTarget newState =>
      simp only [hpc] at hs
      split_ifs at hs
      obtain rfl := Option.some.inj hs
      simp [demandSeen, calls, controls, controls_update, control, run, DemandCalls.step,
        DemandCalls.controlStep, hpc]
  | transition newState =>
      simp only [hpc] at hs
      obtain rfl := Option.some.inj hs
      simp [demandSeen, calls, controls, controls_update, control, run, DemandCalls.step,
        DemandCalls.controlStep, hpc]
  | lock newState timedOut =>
      simp only [hpc] at hs
      split_ifs at hs
      obtain rfl := Option.some.inj hs
      cases timedOut <;>
        simp [demandSeen, calls, controls, controls_update, control, run, DemandCalls.step,
          DemandCalls.controlStep, DemandCalls.recorded, recorded, hpc]
  | block newState =>
      simp only [hpc] at hs
      obtain rfl := Option.some.inj hs
      have hsame : controls (Function.update s.demander d (.blocked newState)) = controls s.demander :=
        controls_update_self (by rw [hpc]; rfl)
      simp only [demandSeen, calls, hsame, run_nil]
  | returned newState success =>
      simp only [hpc] at hs
      obtain rfl := Option.some.inj hs
      simp [demandSeen, calls, controls, controls_update, control, run, DemandCalls.step,
        DemandCalls.controlStep, hpc]
  | check newState rest timedOut =>
      cases rest with
      | nil =>
          simp only [hpc] at hs
          obtain rfl := Option.some.inj hs
          simp [demandSeen, calls, controls, controls_update, control, run, DemandCalls.step,
            DemandCalls.controlStep, hpc]
      | cons t rest =>
          simp only [hpc] at hs
          split_ifs at hs with hrecord htimedOut
          · obtain rfl := Option.some.inj hs
            simp [demandSeen, calls, controls, controls_update, control, run, DemandCalls.step,
              DemandCalls.controlStep, hpc, hrecord]
          · obtain rfl := Option.some.inj hs
            simp [demandSeen, calls, controls, controls_update, control, run, DemandCalls.step,
              DemandCalls.controlStep, hpc, hrecord, htimedOut]
          · obtain rfl := Option.some.inj hs
            simp [demandSeen, calls, controls, controls_update, control, run, DemandCalls.step,
              DemandCalls.controlStep, hpc, hrecord, htimedOut]

theorem simulates_calls : Simulates step DemandCalls.step (fun _ => True) (fun _ _ => True) callsSeen
    (calls : WakeupSystem κ τ → DemandCalls κ τ) where
  keeps := fun _ _ _ _ _ _ => trivial
  explains := by
    intro s e s' _ _ hs
    cases e with
    | demand d => exact demand_calls hs
    | demandStateTransition d newState =>
        cases step_moves hs with
        | call hpc =>
            simp [callsSeen, calls, controls, controls_update, control, run, DemandCalls.step, hpc]
    | timeout d =>
        cases step_moves hs with
        | @timeout _ newState hpc =>
            have hsame : controls (Function.update s.demander d (.lock newState true)) =
                controls s.demander := controls_update_self (by rw [hpc]; rfl)
            simp only [callsSeen, calls, hsame, run_nil]
    | handleAcknowledgment msg =>
        cases step_moves hs with
        | record hidle hack =>
            rw [callsSeen, DemandCalls.recordSeen, hack]
            rfl
        | ignore hack =>
            rw [callsSeen, DemandCalls.recordSeen, hack]
            rfl
    | compare => cases step_moves hs <;> rfl
    | notifyOne d =>
        cases step_moves hs with
        | @notifyOne _ newState h hpc =>
            have hsame : controls (Function.update s.demander d (.lock newState false)) =
                controls s.demander := controls_update_self (by rw [hpc]; rfl)
            simp only [callsSeen, calls, hsame, run_nil]
    | notifyNobody => cases step_moves hs; rfl
    | recordUnresponsive task => cases step_moves hs; rfl

/-- No demand of the state succeeds before it is written to the record of the task. -/
theorem not_returned_true {es : List (WakeupEvent κ τ)} {task : τ} {state : TaskState}
    (hrun : run step s es = some s') (hm : DemandCalls.Missing task state s.calls)
    (hseen : .record task state ∉ viewed step callsSeen s es) (d : κ) :
    s'.demander d ≠ .returned state true := by
  intro hpc
  have hmissing := DemandCalls.viewed_missing simulates_calls trivial
    (along_of_forall (fun _ _ => trivial)) hrun hm hseen
  exact hmissing.fails d (congrArg control hpc)

end WakeupSystem

/-! ### With the stops -/

namespace ShutdownSystem

variable {subs : MsgType → List τ} {s s' : ShutdownSystem τ}

/-- The caller, for whom the demand of `shutdown` has returned when the stops begin. -/
def control : ShutdownPc τ → ControlPc τ
  | .idle => .idle
  | .setTarget => .setTarget .stopped
  | .transition => .transition .stopped true
  | .publish => .publish .stopped true
  | .publishing => .publishing .stopped true
  | .waiting => .waiting .stopped
  | .checking rest timedOut => .checking .stopped rest timedOut
  | .stopping success _ => .returned .stopped success
  | .assigning success _ _ => .returned .stopped success
  | .announcing success _ _ => .returned .stopped success
  | .stopPublishing success _ _ => .returned .stopped success
  | .notifying success _ _ => .returned .stopped success
  | .joining success _ _ => .returned .stopped success
  | .joiningPeriodic success _ _ => .returned .stopped success
  | .returned success => .returned .stopped success

/-- The manager and the thread in `shutdown`. -/
def calls (s : ShutdownSystem τ) : DemandCalls Unit τ := ⟨s.manager, fun _ => control s.caller⟩

/-- What is seen of a step of the thread in `shutdown`: its demand, and the stop of the manager. -/
def commandSeen (manager : τ) : ShutdownPc τ → List (DemandCallsEvent Unit τ)
  | .setTarget => [.control ()]
  | .transition => [.control ()]
  | .publish => [.control ()]
  | .waiting => [.control ()]
  | .checking _ _ => [.control ()]
  | .assigning _ x _ => if x = manager then [.transitionToState .stopped] else []
  | _ => []

/-- What is seen of a step of the manager's queue thread. -/
def queueSeen (m : StateManager τ) (x : τ) : LoopPc τ → List (DemandCallsEvent Unit τ)
  | .handling msg => if x = m.self then DemandCalls.recordSeen m msg else []
  | _ => []

/-- What is seen of a step of the periodic thread. -/
def periodicSeen : MonitorPc τ → List (DemandCallsEvent Unit τ)
  | .marking _ task _ => [.record task .error]
  | _ => []

/-- What is seen of a broadcast. -/
def publishedSeen (pc : ShutdownPc τ) : Option (Announcement τ) → List (DemandCallsEvent Unit τ)
  | some ⟨none, _, []⟩ => match pc with
      | .publishing => [.published ()]
      | _ => []
  | _ => []

/-- What is seen of a step. -/
def callsSeen (s : ShutdownSystem τ) : ShutdownEvent τ → List (DemandCallsEvent Unit τ)
  | .shutdown => [.demand () .stopped]
  | .call => commandSeen s.manager.self s.caller
  | .timeout => [.timeout ()]
  | .queueThread x _ => queueSeen s.manager x (s.loop x)
  | .periodicThread _ => periodicSeen s.periodic
  | .deliver => publishedSeen s.caller s.sub

theorem call_calls (hs : s.callStep subs = some s') :
    run DemandCalls.step s.calls (commandSeen s.manager.self s.caller) = some s'.calls := by
  have hm := callStep_moves hs
  cases hm with
  | assignManager hpc hx =>
      simp [commandSeen, calls, control, run, DemandCalls.step, hpc, hx]
  | assign hpc hx => simp [commandSeen, calls, control, hpc, hx]
  | pass hpc ht =>
      simp [commandSeen, calls, control, run, DemandCalls.step, DemandCalls.controlStep, hpc, ht]
  | giveUp hpc ht =>
      simp [commandSeen, calls, control, run, DemandCalls.step, DemandCalls.controlStep, hpc, ht]
  | waitAgain hpc ht =>
      simp [commandSeen, calls, control, run, DemandCalls.step, DemandCalls.controlStep, hpc, ht]
  | check hpc =>
      simp [commandSeen, calls, control, run, DemandCalls.step, DemandCalls.controlStep,
        DemandCalls.recorded, recorded, hpc]
  | setTarget hpc =>
      simp [commandSeen, calls, control, run, DemandCalls.step, DemandCalls.controlStep, hpc]
  | transition hpc =>
      simp [commandSeen, calls, control, run, DemandCalls.step, DemandCalls.controlStep, hpc]
  | publish hpc hfree =>
      simp [commandSeen, calls, control, run, DemandCalls.step, DemandCalls.controlStep, hpc]
  | succeed hpc =>
      simp [commandSeen, calls, control, run, DemandCalls.step, DemandCalls.controlStep, hpc]
  | returned hpc => simp [commandSeen, calls, control, hpc]
  | stop hpc hrunning => simp [commandSeen, calls, control, hpc]
  | skip hpc hrunning => simp [commandSeen, calls, control, hpc]
  | announce hpc hfree => simp [commandSeen, calls, control, hpc]
  | notify hpc => simp [commandSeen, calls, control, hpc]
  | join hpc hexited => simp [commandSeen, calls, control, hpc]
  | joinPeriodic hpc hexited => simp [commandSeen, calls, control, hpc]

theorem queue_calls {x : τ} {now : ℤ} (hm : Moves subs s (.queueThread x now) s') :
    run DemandCalls.step s.calls (queueSeen s.manager x (s.loop x)) = some s'.calls := by
  cases hm with
  | record hpc hx =>
      rw [hpc, queueSeen, if_pos hx]
      exact DemandCalls.run_recordSeen ..
  | take hpc hx hdata => rw [hpc, queueSeen, if_neg hx]; rfl
  | heartbeat hpc hx hdata => rw [hpc, queueSeen, if_neg hx]; rfl
  | acknowledged hpc hx hmonitor hfree hdata => rw [hpc, queueSeen, if_neg hx]; rfl
  | ignore hpc hx hdata => rw [hpc, queueSeen, if_neg hx]; rfl
  | test hpc => rw [hpc]; rfl
  | dequeue hpc hpop => rw [hpc]; rfl
  | dequeueNull hpc hpop hdown => rw [hpc]; rfl
  | announceState hpc hfree => rw [hpc]; rfl
  | answer hpc hfree => rw [hpc]; rfl

theorem periodic_calls {now : ℤ} (hm : Moves subs s (.periodicThread now) s') :
    run DemandCalls.step s.calls (periodicSeen s.periodic) = some s'.calls := by
  cases hm with
  | mark hpc hfree => rw [hpc]; rfl
  | periodicTest hpc => rw [hpc]; rfl
  | lockCheck hpc => rw [hpc]; rfl
  | checkedAll hpc => rw [hpc]; rfl
  | checkedTask hpc hintime => rw [hpc]; rfl
  | overdue hpc hstatus hoverdue hmanager => rw [hpc]; rfl
  | overdueAlone hpc hstatus hoverdue hmanager => rw [hpc]; rfl
  | goOn hpc => rw [hpc]; rfl
  | sentAll hpc => rw [hpc]; rfl
  | passOver hpc hawaited => rw [hpc]; rfl
  | send hpc hstatus hfree => rw [hpc]; rfl
  | wake hpc => rw [hpc]; rfl

theorem deliver_calls (hs : s.deliverStep = some s') :
    run DemandCalls.step s.calls (publishedSeen s.caller s.sub) = some s'.calls := by
  unfold deliverStep at hs
  cases hsub : s.sub with
  | none => simp only [hsub] at hs; cases hs
  | some d =>
      obtain ⟨publisher, msg, rest⟩ := d
      cases rest with
      | cons x rest =>
          simp only [hsub] at hs
          obtain rfl := Option.some.inj hs
          cases publisher <;> rfl
      | nil =>
          cases publisher with
          | some x =>
              simp only [hsub] at hs
              obtain rfl := Option.some.inj hs
              rfl
          | none =>
              simp only [hsub] at hs
              obtain rfl := Option.some.inj hs
              cases hpc : s.caller with
              | publishing =>
                  simp [publishedSeen, calls, control, run, DemandCalls.step, hpc]
              | _ => simp [publishedSeen, calls, control, hpc]

theorem simulates_calls (subs : MsgType → List τ) : Simulates (step subs) DemandCalls.step
    (fun _ => True) (fun _ _ => True) callsSeen (calls : ShutdownSystem τ → DemandCalls Unit τ) where
  keeps := fun _ _ _ _ _ _ => trivial
  explains := by
    intro s e s' _ _ hs
    have hm := step_moves hs
    cases e with
    | call => exact call_calls hs
    | queueThread x now => exact queue_calls hm
    | periodicThread now => exact periodic_calls hm
    | deliver => exact deliver_calls hs
    | shutdown =>
        cases hm with
        | shutdown hpc =>
            simp [callsSeen, calls, control, run, DemandCalls.step, hpc]
    | timeout =>
        cases hm with
        | timeout hpc =>
            simp [callsSeen, calls, control, run, DemandCalls.step, DemandCalls.recorded, recorded,
              hpc]

/-- `shutdown` does not return true before `STOPPED` is written to the record of the task. -/
theorem not_returned_true {es : List (ShutdownEvent τ)} {task : τ}
    (hrun : run (step subs) s es = some s') (hm : DemandCalls.Missing task .stopped s.calls)
    (hseen : .record task .stopped ∉ viewed (step subs) callsSeen s es) :
    s'.caller ≠ .returned true := by
  intro hpc
  have hmissing := DemandCalls.viewed_missing (simulates_calls subs) trivial
    (along_of_forall (fun _ _ => trivial)) hrun hm hseen
  exact hmissing.fails () (congrArg control hpc)

end ShutdownSystem

/-! ### With all calls of one thread -/

namespace ReportSystem

variable {s s' : ReportSystem τ}

/-- The caller inside `request_state_transition` or `demand_state_transition`. -/
def control : CommandPc τ → ControlPc τ
  | .setTarget state _ => .setTarget state
  | .transition state .returns => .transition state false
  | .transition state (.waits _) => .transition state true
  | .publish state .returns => .publish state false
  | .publish state (.waits _) => .publish state true
  | .waiting state _ => .waiting state
  | _ => .idle

/-- The manager and its caller. -/
def calls (s : ReportSystem τ) : DemandCalls Unit τ := ⟨s.manager, fun _ => control s.caller⟩

/-- What is seen of a step of the calling thread. -/
def commandSeen (s : ReportSystem τ) : CommandPc τ → List (DemandCallsEvent Unit τ)
  | .setTarget _ _ => [.control ()]
  | .transition state (.stops _) => [.transitionToState state]
  | .transition _ _ => [.control ()]
  | .publish _ (.stops _) => []
  | .publish _ _ => [.control (), .published ()]
  | .waiting state _ => .control () :: DemandCalls.checkSeen s.manager state s.recorded ()
  | _ => []

/-- What is seen of a timeout. -/
def timeoutSeen (s : ReportSystem τ) : CommandPc τ → List (DemandCallsEvent Unit τ)
  | .waiting state _ => .timeout () :: DemandCalls.checkSeen s.manager state s.recorded ()
  | _ => []

/-- What is seen of a step. -/
def callsSeen (s : ReportSystem τ) : ReportEvent τ → List (DemandCallsEvent Unit τ)
  | .managerInitialize => [.demand () .idle]
  | .requestStateTransition newState => [.request () newState]
  | .demandStateTransition newState => [.demand () newState]
  | .stop => []
  | .shutdown => [.demand () .stopped]
  | .call => s.commandSeen s.caller
  | .timeout => s.timeoutSeen s.caller
  | .processMessage msg => DemandCalls.recordSeen s.manager msg

/-- The evaluation of the predicate after which the wait ends, up to the return. -/
theorem check_calls {state : TaskState} {timedOut : Bool}
    (h : timedOut = true ∨ ∀ t ∈ s.recorded, s.manager.taskStates.find? t = some state) :
    run DemandCalls.step ⟨s.manager, fun _ => .checking state s.recorded timedOut⟩
      (DemandCalls.checkSeen s.manager state s.recorded ()) = some ⟨s.manager, fun _ => .idle⟩ := by
  generalize hcontroller : (fun _ : Unit => ControlPc.checking state s.recorded timedOut) = controller
  have hpc : controller () = .checking state s.recorded timedOut := by rw [← hcontroller]
  have hcheck := DemandCalls.run_checkSeen hpc h
  rwa [DemandCalls.update_unit] at hcheck

theorem control_afterDemand (shutdown : Bool) : control (s.afterDemand shutdown) = .idle := by
  cases shutdown with
  | true => rfl
  | false => rfl

theorem call_calls (hs : s.callStep = some s') :
    run DemandCalls.step s.calls (s.commandSeen s.caller) = some s'.calls := by
  unfold callStep at hs
  cases hpc : s.caller with
  | idle => simp only [hpc] at hs; cases hs
  | setTarget state shutdown =>
      simp only [hpc] at hs
      obtain rfl := Option.some.inj hs
      simp [commandSeen, calls, control, run, DemandCalls.step, DemandCalls.controlStep, hpc]
  | transition state after =>
      simp only [hpc] at hs
      obtain rfl := Option.some.inj hs
      cases after <;>
        simp [commandSeen, calls, control, run, DemandCalls.step, DemandCalls.controlStep, hpc]
  | publish state after =>
      simp only [hpc] at hs
      obtain rfl := Option.some.inj hs
      cases after <;>
        simp [commandSeen, calls, control, run, DemandCalls.step, DemandCalls.controlStep, hpc]
  | waiting state shutdown =>
      simp only [hpc] at hs
      split_ifs at hs with hall
      obtain rfl := Option.some.inj hs
      have hrecords := StateManager.allTasksInState_iff.mp hall
      have hfirst : DemandCalls.step ⟨s.manager, fun _ => .waiting state⟩ (.control ()) =
          some ⟨s.manager, fun _ => .checking state s.recorded false⟩ := by
        simp only [DemandCalls.step, DemandCalls.controlStep, DemandCalls.update_unit]
        rfl
      rw [calls, calls, control_afterDemand, hpc]
      exact run_cons_eq_some.mpr ⟨_, hfirst, check_calls (.inr hrecords)⟩
  | joining rest =>
      simp only [hpc] at hs
      obtain rfl := Option.some.inj hs
      simp [commandSeen, calls, control, hpc]
  | stopping rest =>
      cases rest with
      | nil =>
          simp only [hpc] at hs
          obtain rfl := Option.some.inj hs
          simp [commandSeen, calls, control, hpc]
      | cons x rest =>
          simp only [hpc] at hs
          split_ifs at hs
          · obtain rfl := Option.some.inj hs
            simp [commandSeen, calls, control, hpc]
          · obtain rfl := Option.some.inj hs
            simp [commandSeen, calls, control, hpc]

theorem simulates_calls : Simulates step DemandCalls.step (fun _ => True) (fun _ _ => True) callsSeen
    (calls : ReportSystem τ → DemandCalls Unit τ) where
  keeps := fun _ _ _ _ _ _ => trivial
  explains := by
    intro s e s' _ _ hs
    cases e with
    | call => exact call_calls hs
    | managerInitialize =>
        simp only [step] at hs
        split_ifs at hs with hpc
        obtain rfl := Option.some.inj hs
        simp [callsSeen, calls, control, run, DemandCalls.step, hpc]
    | requestStateTransition newState =>
        simp only [step] at hs
        split_ifs at hs with hpc
        obtain rfl := Option.some.inj hs
        simp [callsSeen, calls, control, run, DemandCalls.step, hpc]
    | demandStateTransition newState =>
        simp only [step] at hs
        split_ifs at hs with hpc
        obtain rfl := Option.some.inj hs
        simp [callsSeen, calls, control, run, DemandCalls.step, hpc]
    | stop =>
        simp only [step] at hs
        split_ifs at hs with hpc
        · obtain rfl := Option.some.inj hs
          simp [callsSeen, calls, control, hpc]
        · obtain rfl := Option.some.inj hs
          rfl
    | shutdown =>
        simp only [step] at hs
        split_ifs at hs with hpc
        obtain rfl := Option.some.inj hs
        simp [callsSeen, calls, control, run, DemandCalls.step, hpc]
    | timeout =>
        simp only [step] at hs
        split at hs
        · rename_i state shutdown hpc
          obtain rfl := Option.some.inj hs
          have hfirst : DemandCalls.step ⟨s.manager, fun _ => .waiting state⟩ (.timeout ()) =
              some ⟨s.manager, fun _ => .checking state s.recorded true⟩ := by
            simp only [DemandCalls.step, DemandCalls.update_unit]
            rfl
          show run DemandCalls.step s.calls (s.timeoutSeen s.caller) = _
          rw [calls, calls, control_afterDemand, hpc]
          exact run_cons_eq_some.mpr ⟨_, hfirst, check_calls (.inl rfl)⟩
        · cases hs
    | processMessage msg =>
        obtain rfl := Option.some.inj hs
        exact DemandCalls.run_recordSeen ..

end ReportSystem

end Protocore
