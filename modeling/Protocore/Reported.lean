import Mathlib.Order.Nat
import Protocore.Run
import Protocore.StateManager

/-! # What the manager reports of itself

`StateManager` declares a field `current_state` next to the one it inherits from `Task`.  Its
`transition_to_state` overrides the one of `Task` and assigns the new field; `get_current_state` is
inherited and reads the old one, which nobody writes after the constructor.  All four ways to command a
state go through the override: `request_state_transition`, `demand_state_transition`, the `IDLE` of
`initialize` and, through the virtual call in `Task::stop`, `STOPPED`.

One thread calls the manager; acknowledgments reach it at any time.  `reports_iff`: the accessor gives
the state broadcast last, after every call, exactly when no other state than `NOT_STARTED` is ever
commanded. -/

namespace Protocore

variable {τ : Type} [LinearOrder τ]

/-- What is left of the call once `transition_to_state` has returned: nothing; the wait of a demand, and
in `shutdown` the stops after it; the join of `stop` and the stops of the tasks still to come. -/
inductive CommandRest (τ : Type) where
  | returns
  | waits (shutdown : Bool)
  | stops (rest : List τ)
deriving DecidableEq

/-- Where the calling thread is. -/
inductive CommandPc (τ : Type) where
  | idle
  | setTarget (state : TaskState) (shutdown : Bool)
  | transition (state : TaskState) (after : CommandRest τ)
  | publish (state : TaskState) (after : CommandRest τ)
  | waiting (state : TaskState) (shutdown : Bool)
  | joining (rest : List τ)
  | stopping (rest : List τ)
deriving DecidableEq

/-- The manager with the field it inherits, its `running` flag, the calling thread, and the last
`StateMsg` it has broadcast. -/
structure ReportSystem (τ : Type) [LinearOrder τ] where
  manager : StateManager τ
  taskCurrentState : TaskState
  running : Bool
  caller : CommandPc τ
  broadcast : Option (Msg τ)

/-- The calls, the steps of the calling thread, the timeout of a demand, and a message that the queue
thread of the manager processes. -/
inductive ReportEvent (τ : Type) where
  | managerInitialize
  | requestStateTransition (newState : TaskState)
  | demandStateTransition (newState : TaskState)
  | stop
  | shutdown
  | call
  | timeout
  | processMessage (msg : Msg τ)

namespace ReportSystem

/-- The constructor; any tasks may be registered before the first call. -/
def created (manager : StateManager τ) : ReportSystem τ := ⟨manager, .notStarted, false, .idle, none⟩

/-- `Task::get_current_state`. -/
def getCurrentState (s : ReportSystem τ) : TaskState := s.taskCurrentState

/-- The tasks in the order of the map. -/
def recorded (s : ReportSystem τ) : List τ := s.manager.taskStates.entries.map Prod.fst

/-- Where `demand_state_transition` continues when it returns. -/
def afterDemand (s : ReportSystem τ) (shutdown : Bool) : CommandPc τ :=
  if shutdown then .stopping (s.recorded ++ [s.manager.self]) else .idle

/-- The next step of the calling thread.  The stop of another task does not touch the manager, and a
task that is registered may be the manager itself. -/
def callStep (s : ReportSystem τ) : Option (ReportSystem τ) :=
  match s.caller with
  | .idle => none
  | .setTarget state shutdown =>
      some { s with
        manager := { s.manager with targetState := state }
        caller := .transition state (.waits shutdown) }
  | .transition state after =>
      some { s with
        manager := (s.manager.transitionToState state).1
        caller := .publish state after }
  | .publish state after =>
      some { s with
        broadcast := some (s.manager.transitionToState state).2
        caller := match after with
          | .returns => .idle
          | .waits shutdown => .waiting state shutdown
          | .stops rest => .joining rest }
  | .waiting state shutdown =>
      if s.manager.allTasksInState state then some { s with caller := s.afterDemand shutdown } else none
  | .joining rest => some { s with caller := .stopping rest }
  | .stopping [] => some { s with caller := .idle }
  | .stopping (x :: rest) =>
      if x = s.manager.self ∧ s.running then
        some { s with running := false, caller := .transition .stopped (.stops rest) }
      else some { s with caller := .stopping rest }

/-- One step.  `initialize` calls `start`, which sets `running`, and starts the tasks. -/
def step (s : ReportSystem τ) : ReportEvent τ → Option (ReportSystem τ)
  | .managerInitialize =>
      if s.caller = .idle then some { s with running := true, caller := .setTarget .idle false }
      else none
  | .requestStateTransition newState =>
      if s.caller = .idle then some { s with caller := .transition newState .returns } else none
  | .demandStateTransition newState =>
      if s.caller = .idle then some { s with caller := .setTarget newState false } else none
  | .stop =>
      if s.caller = .idle then
        if s.running then
          some { s with running := false, caller := .transition .stopped (.stops []) }
        else some s
      else none
  | .shutdown =>
      if s.caller = .idle then some { s with caller := .setTarget .stopped true } else none
  | .call => s.callStep
  | .timeout =>
      match s.caller with
      | .waiting _ shutdown => some { s with caller := s.afterDemand shutdown }
      | _ => none
  | .processMessage msg => some { s with manager := (s.manager.processMessage msg).1 }

/-- The state that the last broadcast carries. -/
def lastState (s : ReportSystem τ) : Option TaskState :=
  match s.broadcast with
  | some ⟨_, .stateMsg m⟩ => some (.ofByte m.state)
  | _ => none

/-- Between two calls, the accessor gives the state that was broadcast last. -/
def Reports (s : ReportSystem τ) : Prop :=
  s.caller = .idle → ∀ state, s.lastState = some state → s.getCurrentState = state

/-- The call commands no state but `NOT_STARTED`. -/
def CommandsNotStarted (s : ReportSystem τ) : ReportEvent τ → Prop
  | .managerInitialize => False
  | .requestStateTransition newState => newState = .notStarted
  | .demandStateTransition newState => newState = .notStarted
  | .stop => s.running = false
  | .shutdown => False
  | _ => True

instance decidableCommandsNotStarted (s : ReportSystem τ) : ∀ e, Decidable (CommandsNotStarted s e)
  | .managerInitialize => isFalse id
  | .requestStateTransition newState => inferInstanceAs (Decidable (newState = .notStarted))
  | .demandStateTransition newState => inferInstanceAs (Decidable (newState = .notStarted))
  | .stop => inferInstanceAs (Decidable (s.running = false))
  | .shutdown => isFalse id
  | .call => isTrue trivial
  | .timeout => isTrue trivial
  | .processMessage _ => isTrue trivial

/-! ### What a step commands -/

/-- The state that the call is about to broadcast. -/
def pending : CommandPc τ → Option TaskState
  | .setTarget state _ => some state
  | .transition state _ => some state
  | .publish state _ => some state
  | _ => none

/-- The state that will have been broadcast last when the transition in progress is done. -/
def outcome (s : ReportSystem τ) : Option TaskState := (pending s.caller).or s.lastState

/-- The state that the event newly commands: the call does, or a `stop` inside `shutdown` that finds the
manager running. -/
def newCommand (s : ReportSystem τ) : ReportEvent τ → Option TaskState
  | .managerInitialize => some .idle
  | .requestStateTransition newState => some newState
  | .demandStateTransition newState => some newState
  | .stop => if s.running then some .stopped else none
  | .shutdown => some .stopped
  | .call =>
      match s.caller with
      | .stopping (x :: _) => if x = s.manager.self ∧ s.running then some .stopped else none
      | _ => none
  | .timeout => none
  | .processMessage _ => none

variable {s s' : ReportSystem τ}

theorem pending_afterDemand (shutdown : Bool) : pending (s.afterDemand shutdown) = none := by
  cases shutdown with
  | true => rfl
  | false => rfl

/-- What a step does: the field of `Task` is not written, only `initialize` sets `running`, and the
outcome is what the event newly commands, if anything. -/
structure Effect (s : ReportSystem τ) (e : ReportEvent τ) (s' : ReportSystem τ) : Prop where
  base : s'.taskCurrentState = s.taskCurrentState
  running : s'.running = true → s.running = true ∨ e = .managerInitialize
  outcome : s'.outcome = (newCommand s e).or s.outcome

theorem callStep_effect (hs : s.callStep = some s') : Effect s .call s' := by
  unfold callStep at hs
  cases hpc : s.caller with
  | idle => simp only [hpc] at hs; cases hs
  | setTarget state shutdown =>
      simp only [hpc] at hs
      obtain rfl := Option.some.inj hs
      refine ⟨rfl, .inl, ?_⟩
      simp only [newCommand, outcome, hpc, pending, Option.none_or]
      rfl
  | transition state after =>
      simp only [hpc] at hs
      obtain rfl := Option.some.inj hs
      refine ⟨rfl, .inl, ?_⟩
      simp only [newCommand, outcome, hpc, pending, Option.none_or]
      rfl
  | publish state after =>
      simp only [hpc] at hs
      obtain rfl := Option.some.inj hs
      refine ⟨rfl, .inl, ?_⟩
      have hlast : (none : Option TaskState).or (some (TaskState.ofByte state.toByte)) =
          some state := by
        rw [TaskState.ofByte_toByte, Option.none_or]
      simp only [newCommand, outcome, hpc, pending, Option.some_or, Option.none_or]
      cases after with
      | returns => exact hlast
      | waits shutdown => exact hlast
      | stops rest => exact hlast
  | waiting state shutdown =>
      simp only [hpc] at hs
      split_ifs at hs
      obtain rfl := Option.some.inj hs
      refine ⟨rfl, .inl, ?_⟩
      simp only [newCommand, outcome, hpc, pending_afterDemand]
      rfl
  | joining rest =>
      simp only [hpc] at hs
      obtain rfl := Option.some.inj hs
      refine ⟨rfl, .inl, ?_⟩
      simp only [newCommand, outcome, hpc, pending, Option.none_or]
      rfl
  | stopping rest =>
      cases rest with
      | nil =>
          simp only [hpc] at hs
          obtain rfl := Option.some.inj hs
          refine ⟨rfl, .inl, ?_⟩
          simp only [newCommand, outcome, hpc, pending, Option.none_or]
          rfl
      | cons x rest =>
          simp only [hpc] at hs
          split_ifs at hs with hself
          · obtain rfl := Option.some.inj hs
            refine ⟨rfl, nofun, ?_⟩
            simp only [newCommand, outcome, hpc, pending, if_pos hself, Option.some_or]
          · obtain rfl := Option.some.inj hs
            refine ⟨rfl, .inl, ?_⟩
            simp only [newCommand, outcome, hpc, pending, if_neg hself, Option.none_or]
            rfl

theorem step_effect {e : ReportEvent τ} (hs : step s e = some s') : Effect s e s' := by
  unfold step at hs
  cases e with
  | managerInitialize =>
      simp only at hs
      split_ifs at hs
      obtain rfl := Option.some.inj hs
      exact ⟨rfl, fun _ => .inr rfl, rfl⟩
  | requestStateTransition newState =>
      simp only at hs
      split_ifs at hs
      obtain rfl := Option.some.inj hs
      exact ⟨rfl, .inl, rfl⟩
  | demandStateTransition newState =>
      simp only at hs
      split_ifs at hs
      obtain rfl := Option.some.inj hs
      exact ⟨rfl, .inl, rfl⟩
  | stop =>
      simp only at hs
      split_ifs at hs with hidle hrunning
      · obtain rfl := Option.some.inj hs
        refine ⟨rfl, nofun, ?_⟩
        rw [newCommand, if_pos hrunning]
        rfl
      · obtain rfl := Option.some.inj hs
        refine ⟨rfl, .inl, ?_⟩
        rw [newCommand, if_neg hrunning]
        rfl
  | shutdown =>
      simp only at hs
      split_ifs at hs
      obtain rfl := Option.some.inj hs
      exact ⟨rfl, .inl, rfl⟩
  | call => exact callStep_effect hs
  | timeout =>
      simp only at hs
      split at hs
      · rename_i state shutdown hpc
        obtain rfl := Option.some.inj hs
        refine ⟨rfl, .inl, ?_⟩
        simp only [outcome, hpc, pending_afterDemand]
        rfl
      · cases hs
  | processMessage msg =>
      obtain rfl := Option.some.inj hs
      exact ⟨rfl, .inl, rfl⟩

/-! ### Only `NOT_STARTED` has been commanded -/

/-- The manager has not been started, and no other state than `NOT_STARTED` has been broadcast or is
about to be. -/
structure Quiet (s : ReportSystem τ) : Prop where
  base : s.taskCurrentState = .notStarted
  running : s.running = false
  commanded : ∀ state, s.outcome = some state → state = .notStarted

/-- The inherited field is untouched, and another state has been broadcast or is about to be. -/
structure Owes (s : ReportSystem τ) : Prop where
  base : s.taskCurrentState = .notStarted
  commanded : ∃ state, s.outcome = some state ∧ state ≠ .notStarted

theorem outcome_of_idle (h : s.caller = .idle) : s.outcome = s.lastState := by
  unfold outcome
  rw [h]
  rfl

theorem Quiet.reports (h : Quiet s) : Reports s := by
  intro hidle state hstate
  rw [← outcome_of_idle hidle] at hstate
  rw [h.commanded state hstate]
  exact h.base

theorem Owes.not_reports (h : Owes s) (hidle : s.caller = .idle) : ¬ Reports s := by
  intro hreports
  obtain ⟨state, hstate, hne⟩ := h.commanded
  rw [outcome_of_idle hidle] at hstate
  exact hne ((hreports hidle state hstate).symm.trans h.base)

/-- A call that commands only `NOT_STARTED` commands nothing else when the manager is not running. -/
theorem newCommand_quiet {e : ReportEvent τ} {state : TaskState} (hrunning : s.running = false)
    (hc : CommandsNotStarted s e) (h : newCommand s e = some state) : state = .notStarted := by
  unfold newCommand at h
  unfold CommandsNotStarted at hc
  cases e with
  | managerInitialize => exact hc.elim
  | requestStateTransition newState => exact (Option.some.inj h).symm.trans hc
  | demandStateTransition newState => exact (Option.some.inj h).symm.trans hc
  | stop => simp [hrunning] at h
  | shutdown => exact hc.elim
  | call =>
      simp only [hrunning] at h
      split at h
      · simp at h
      · cases h
  | timeout => cases h
  | processMessage msg => cases h

theorem step_quiet {e : ReportEvent τ} (h : Quiet s) (hc : CommandsNotStarted s e)
    (hs : step s e = some s') : Quiet s' := by
  obtain ⟨hbase, hrunning, houtcome⟩ := step_effect hs
  constructor
  · rw [hbase]
    exact h.base
  · rw [← Bool.not_eq_true]
    intro hstarted
    rcases hrunning hstarted with hrun | rfl
    · rw [h.running] at hrun
      cases hrun
    · exact hc
  · intro state hstate
    rw [houtcome, Option.or_eq_some_iff] at hstate
    rcases hstate with hnew | ⟨-, hold⟩
    · exact newCommand_quiet h.running hc hnew
    · exact h.commanded state hold

/-- Any other call owes a report. -/
theorem owes_of_command {e : ReportEvent τ} (hbase : s.taskCurrentState = .notStarted)
    (hc : ¬ CommandsNotStarted s e) (hs : step s e = some s') : Owes s' := by
  refine ⟨(step_effect hs).base.trans hbase, ?_⟩
  rw [(step_effect hs).outcome]
  unfold newCommand
  unfold CommandsNotStarted at hc
  cases e with
  | managerInitialize => exact ⟨.idle, rfl, nofun⟩
  | requestStateTransition newState => exact ⟨newState, rfl, hc⟩
  | demandStateTransition newState => exact ⟨newState, rfl, hc⟩
  | stop =>
      rw [Bool.not_eq_false] at hc
      exact ⟨.stopped, by simp [hc], nofun⟩
  | shutdown => exact ⟨.stopped, rfl, nofun⟩
  | call => exact absurd trivial hc
  | timeout => exact absurd trivial hc
  | processMessage msg => exact absurd trivial hc

theorem newCommand_busy {e : ReportEvent τ} {state : TaskState} (hbusy : s.caller ≠ .idle)
    (hs : step s e = some s') (h : newCommand s e = some state) : state = .stopped := by
  unfold step at hs
  unfold newCommand at h
  cases e with
  | managerInitialize => simp [hbusy] at hs
  | requestStateTransition newState => simp [hbusy] at hs
  | demandStateTransition newState => simp [hbusy] at hs
  | stop => simp [hbusy] at hs
  | shutdown => simp [hbusy] at hs
  | call =>
      simp only at h
      split at h
      · split_ifs at h
        exact (Option.some.inj h).symm
      · cases h
  | timeout => cases h
  | processMessage msg => cases h

theorem step_owes {e : ReportEvent τ} (h : Owes s) (hbusy : s.caller ≠ .idle)
    (hs : step s e = some s') : Owes s' := by
  refine ⟨(step_effect hs).base.trans h.base, ?_⟩
  rw [(step_effect hs).outcome]
  cases hnew : newCommand s e with
  | none => exact h.commanded
  | some state =>
      refine ⟨state, rfl, ?_⟩
      rw [newCommand_busy hbusy hs hnew]
      nofun

theorem not_throughout_of_owes : ∀ {es : List (ReportEvent τ)} {s s' : ReportSystem τ}, Owes s →
    run step s es = some s' → s'.caller = .idle → ¬ Throughout step Reports s es
  | [], s, s', h, hrun, hidle => by
      obtain rfl := Option.some.inj hrun
      exact h.not_reports hidle
  | e :: es, s, s', h, hrun, hidle => by
      intro hreports
      by_cases hnow : s.caller = .idle
      · exact h.not_reports hnow hreports.1
      · obtain ⟨s₁, he, hes⟩ := run_cons_eq_some.mp hrun
        exact not_throughout_of_owes (step_owes h hnow he) hes hidle (hreports.2 s₁ he)

/-- In a run of complete calls, the accessor gives the state broadcast last after each of them, exactly
when none of them commands another state than `NOT_STARTED`. -/
theorem reports_iff {manager : StateManager τ} {es : List (ReportEvent τ)}
    (hrun : run step (created manager) es = some s) (hidle : s.caller = .idle) :
    Throughout step Reports (created manager) es ↔
      Along step CommandsNotStarted (created manager) es := by
  constructor
  · intro hreports
    by_contra hnot
    obtain ⟨es₁, e, es₂, s₁, s₂, rfl, hrun₁, hc, he, hrun₂⟩ := exists_of_not_along hrun hnot
    have hbase : s₁.taskCurrentState = .notStarted :=
      run_invariant (P := fun s => s.taskCurrentState = .notStarted)
        (fun _ _ _ h hs => (step_effect hs).base.trans h) rfl hrun₁
    have howes := owes_of_command hbase hc he
    exact not_throughout_of_owes howes hrun₂ hidle ((hreports.rest hrun₁).2 s₂ he)
  · intro halong
    have hstep : ∀ (s : ReportSystem τ) e s', Quiet s → CommandsNotStarted s e →
        step s e = some s' → Quiet s' := fun _ _ _ h hc hs => step_quiet h hc hs
    have hquiet : Quiet (created manager) := ⟨rfl, rfl, nofun⟩
    exact (throughout_of_along hstep hquiet halong).imp (fun _ h => h.reports)

/-- A manager without tasks requests `NOT_STARTED`, and demands it. -/
theorem reports_iff_not_started : Throughout step Reports
    (created (.create 0 .idle .idle) : ReportSystem ℕ)
    [.requestStateTransition .notStarted, .call, .call, .stop, .demandStateTransition .notStarted,
      .call, .call, .call, .call] := by
  have heval : (run step (created (.create 0 .idle .idle) : ReportSystem ℕ)
      [.requestStateTransition .notStarted, .call, .call, .stop, .demandStateTransition .notStarted,
        .call, .call, .call, .call]).map (fun s => s.caller) = some .idle := by decide +kernel
  obtain ⟨s, hrun, hidle⟩ := Option.map_eq_some_iff.mp heval
  exact (reports_iff hrun hidle).mpr (by decide +kernel)

/-- `request_state_transition(RUNNING)`: the message carries `RUNNING`, the accessor gives
`NOT_STARTED`. -/
theorem running_not_reported : ∃ s : ReportSystem ℕ,
    run step (created (.create 0 .idle .idle)) [.requestStateTransition .running, .call, .call] =
      some s ∧
    s.lastState = some .running ∧ s.getCurrentState = .notStarted ∧ ¬ Reports s := by
  have heval : (run step (created (.create 0 .idle .idle) : ReportSystem ℕ)
      [.requestStateTransition .running, .call, .call]).map
        (fun s => (s.caller, s.lastState, s.getCurrentState)) =
      some (.idle, some .running, .notStarted) := by decide +kernel
  obtain ⟨s, hrun, hs⟩ := Option.map_eq_some_iff.mp heval
  obtain ⟨hidle, hrest⟩ := Prod.mk.inj hs
  obtain ⟨hlast, hcurrent⟩ := Prod.mk.inj hrest
  refine ⟨s, hrun, hlast, hcurrent, fun hreports => ?_⟩
  cases hcurrent.symm.trans (hreports hidle _ hlast)

end ReportSystem

end Protocore
