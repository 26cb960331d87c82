import Protocore.FalsePositive
import Protocore.Loop
import Protocore.Shutdown

/-! # The loops of the monitor

`check_for_timeouts` and `send_heartbeat` go through the monitored tasks.  `HeartBeatTask` has them as
functions; the systems in which the monitor is not alone take one step for each task.  The queue thread
may change the state of the monitor meanwhile, but the records are protected by `tasks_mutex`.

`Loop.computes_check`, `Loop.computes_send`: a loop whose iterations are `checkTask` or `sendTask` ends
with the records that the function computes, and what it has done to other tasks are the effects of the
function, in the same order.  `AckSystem`, `LiveSystem` and `ShutdownSystem` have such loops. -/

namespace Protocore

variable {τ : Type} [LinearOrder τ]

namespace HeartBeatTask

/-- The monitor in another state of its own: the loops do not read it. -/
def inState (hb : HeartBeatTask τ) (state : TaskState) : HeartBeatTask τ :=
  { hb with currentState := state }

theorem checkTask_inState (hb : HeartBeatTask τ) (state : TaskState) (now : ℤ) (task : τ) :
    (hb.inState state).checkTask now task =
      ((hb.checkTask now task).1.inState state, (hb.checkTask now task).2) := rfl

theorem sendTask_inState (hb : HeartBeatTask τ) (state : TaskState) (now : τ → ℤ) (task : τ) :
    (hb.inState state).sendTask now task =
      ((hb.sendTask now task).1.inState state, (hb.sendTask now task).2) := rfl

theorem checkForTimeouts_inState (hb : HeartBeatTask τ) (state : TaskState) (now : ℤ) :
    (hb.inState state).checkForTimeouts now =
      ((hb.checkForTimeouts now).1.inState state, (hb.checkForTimeouts now).2) := rfl

theorem sendHeartbeat_inState (hb : HeartBeatTask τ) (state : TaskState) (now : τ → ℤ) :
    (hb.inState state).sendHeartbeat now =
      ((hb.sendHeartbeat now).1.inState state, (hb.sendHeartbeat now).2) := rfl

/-- What is the same in one state differs in nothing but the state. -/
theorem eq_of_inState_eq {hb hb' : HeartBeatTask τ} {state : TaskState}
    (h : hb.inState state = hb'.inState state) : hb = hb'.inState hb.currentState := by
  have hback : (hb.inState state).inState hb.currentState = hb := rfl
  rw [h] at hback
  exact hback.symm

/-- An iteration of `check_for_timeouts`, with the reading of the clock. -/
def Checks (i : ℤ × τ) (hb hb' : HeartBeatTask τ) (effects : List (HeartBeatEffect τ)) : Prop :=
  hb.checkTask i.1 i.2 = (hb', effects)

/-- An iteration of `send_heartbeat`, at some reading of the clock. -/
def Sends (task : τ) (hb hb' : HeartBeatTask τ) (effects : List (HeartBeatEffect τ)) : Prop :=
  ∃ now : ℤ, hb.sendTask (fun _ => now) task = (hb', effects)

theorem checks_inState {hb hb' : HeartBeatTask τ} {now : ℤ} {task : τ}
    {effects : List (HeartBeatEffect τ)} (h : hb.checkTask now task = (hb', effects))
    (state : TaskState) : Checks (now, task) (hb.inState state) (hb'.inState state) effects := by
  rw [Checks, checkTask_inState, h]

theorem sends_inState {hb hb' : HeartBeatTask τ} {now : ℤ} {task : τ}
    {effects : List (HeartBeatEffect τ)} (h : hb.sendTask (fun _ => now) task = (hb', effects))
    (state : TaskState) : Sends task (hb.inState state) (hb'.inState state) effects :=
  ⟨now, by rw [sendTask_inState, h]⟩

theorem eachTask_of_checks {now : ℤ} : ∀ {tasks : List τ} {hb hb' : HeartBeatTask τ}
    {effects : List (HeartBeatEffect τ)}, Iterates Checks (tasks.map (Prod.mk now)) hb hb' effects →
      eachTask (checkTask now) hb tasks = (hb', effects)
  | [], hb, hb', effects, h => by
      cases h with
      | nil => rfl
  | task :: tasks, hb, hb', effects, h => by
      cases h with
      | cons hi hl =>
          have hrest := eachTask_of_checks hl
          have hfirst : hb.checkTask now task = _ := hi
          simp only [eachTask, hfirst, hrest]

/-- Only the reading made for the task counts. -/
theorem sendTask_congr {now now' : τ → ℤ} {task : τ} (h : now task = now' task)
    (hb : HeartBeatTask τ) : hb.sendTask now task = hb.sendTask now' task := by
  cases hf : hb.monitoredTasks.find? task with
  | none => rw [sendTask_of_find?_none hf, sendTask_of_find?_none hf]
  | some status =>
      cases hawait : status.awaitingResponse with
      | true => rw [sendTask_of_awaiting hf hawait, sendTask_of_awaiting hf hawait]
      | false => rw [sendTask_of_not_awaiting hf hawait, sendTask_of_not_awaiting hf hawait, h]

theorem eachTask_sendTask_congr {now now' : τ → ℤ} : ∀ {tasks : List τ} (hb : HeartBeatTask τ),
    (∀ task ∈ tasks, now task = now' task) →
      eachTask (sendTask now) hb tasks = eachTask (sendTask now') hb tasks
  | [], _, _ => rfl
  | task :: tasks, hb, h => by
      have hrest : ∀ x ∈ tasks, now x = now' x := fun x hx => h x (List.mem_cons_of_mem task hx)
      simp only [eachTask, sendTask_congr (h task List.mem_cons_self), eachTask_sendTask_congr _ hrest]

/-- The readings that the iterations make are those of one call. -/
theorem eachTask_of_sends : ∀ {tasks : List τ} {hb hb' : HeartBeatTask τ}
    {effects : List (HeartBeatEffect τ)}, Iterates Sends tasks hb hb' effects → tasks.Nodup →
      ∃ now : τ → ℤ, eachTask (sendTask now) hb tasks = (hb', effects)
  | [], hb, hb', effects, h, _ => by
      cases h with
      | nil => exact ⟨fun _ => 0, rfl⟩
  | task :: tasks, hb, hb', effects, h, hnodup => by
      cases h with
      | cons hi hl =>
          obtain ⟨hnot, hnodup'⟩ := List.nodup_cons.mp hnodup
          obtain ⟨reading, hfirst⟩ := hi
          obtain ⟨now, hrest⟩ := eachTask_of_sends hl hnodup'
          refine ⟨Function.update now task reading, ?_⟩
          have hsame : ∀ x ∈ tasks, Function.update now task reading x = now x :=
            fun x hx => Function.update_of_ne (ne_of_mem_of_not_mem hx hnot) ..
          have hself : hb.sendTask (Function.update now task reading) task =
              hb.sendTask (fun _ => reading) task := by
            apply sendTask_congr
            exact Function.update_self ..
          simp only [eachTask, hself, hfirst, eachTask_sendTask_congr _ hsame, hrest]

/-- A task that is not overdue, if it is monitored at all, is passed over. -/
theorem checkTask_of_in_time {hb : HeartBeatTask τ} {task : τ} {now : ℤ}
    (h : ∀ status, hb.monitoredTasks.find? task = some status → hb.overdue now status = false) :
    hb.checkTask now task = (hb, []) := by
  cases hf : hb.monitoredTasks.find? task with
  | none => exact checkTask_of_find?_none hf
  | some status => exact checkTask_of_not_overdue hf (h status hf)

/-- Nothing is sent to a task that is awaited. -/
theorem sendTask_of_awaited {hb : HeartBeatTask τ} {task : τ} {now : τ → ℤ}
    (h : ∀ status, hb.monitoredTasks.find? task = some status → status.awaitingResponse = true) :
    hb.sendTask now task = (hb, []) := by
  cases hf : hb.monitoredTasks.find? task with
  | none => exact sendTask_of_find?_none hf
  | some status => exact sendTask_of_awaiting hf (h status hf)

theorem checkTask_of_overdue_clear {hb : HeartBeatTask τ} {task : τ} {status : TaskStatus} {now : ℤ}
    (hf : hb.monitoredTasks.find? task = some status) (hover : hb.overdue now status = true) :
    hb.checkTask now task = (LiveSystem.clearAwaiting hb task,
      hb.handleUnresponsiveTask task status.lastHeartbeatId) := by
  rw [checkTask_of_overdue hf hover, LiveSystem.clearAwaiting, hf]

/-- Without a manager, an overdue task is no longer awaited, and that is all. -/
theorem checkTask_of_overdue_alone {hb : HeartBeatTask τ} {task : τ} {status : TaskStatus} {now : ℤ}
    (hf : hb.monitoredTasks.find? task = some status) (hover : hb.overdue now status = true)
    (hman : hb.stateManager = false) :
    hb.checkTask now task = (LiveSystem.clearAwaiting hb task, []) := by
  rw [checkTask_of_overdue_clear hf hover, handleUnresponsiveTask, hman]
  rfl

end HeartBeatTask

section loops

variable {σ ε : Type*} {step : σ → ε → Option σ} {P : σ → Prop} {monitor : σ → HeartBeatTask τ}
  {effects : σ → ε → List (HeartBeatEffect τ)} {state : TaskState}

/-- When the run leaves the loop, the records are those that `f` computes, and what has been done to
other tasks are the effects of `f`. -/
def LeavesWith {ι : Type*} (step : σ → ε → Option σ) (left : σ → Option (List ι))
    (monitor : σ → HeartBeatTask τ) (effects : σ → ε → List (HeartBeatEffect τ)) (s : σ) (es : List ε)
    (s' : σ) (f : HeartBeatTask τ → HeartBeatTask τ × List (HeartBeatEffect τ)) : Prop :=
  ∃ es₁ es₂ s₁, es = es₁ ++ es₂ ∧ run step s es₁ = some s₁ ∧ left s₁ = none ∧
    run step s₁ es₂ = some s' ∧
    monitor s₁ = (f (monitor s)).1.inState (monitor s₁).currentState ∧
    viewed step effects s es₁ = (f (monitor s)).2

/-- A loop of `check_for_timeouts` that has just begun computes the function. -/
theorem Loop.computes_check {left : σ → Option (List (ℤ × τ))}
    (h : Loop step P left (fun s => (monitor s).inState state) effects HeartBeatTask.Checks)
    {es : List ε} {s s' : σ} {now : ℤ} (hP : P s)
    (hbegin : left s = some ((monitor s).monitored.map (Prod.mk now)))
    (hrun : run step s es = some s') (hend : left s' = none) :
    LeavesWith step left monitor effects s es s' (fun hb => hb.checkForTimeouts now) := by
  obtain ⟨es₁, es₂, s₁, hes, hrun₁, hout, hrun₂, hiter⟩ := h.completes hP hbegin hrun hend
  have heach := HeartBeatTask.eachTask_of_checks hiter
  have hcomputes := ((monitor s).inState state).checkForTimeouts_eq_eachTask now
  rw [HeartBeatTask.checkForTimeouts_inState] at hcomputes
  obtain ⟨hmonitor, heffects⟩ := Prod.mk.inj (heach.symm.trans hcomputes.symm)
  exact ⟨es₁, es₂, s₁, hes, hrun₁, hout, hrun₂, HeartBeatTask.eq_of_inState_eq hmonitor, heffects⟩

/-- A loop of `send_heartbeat` that has just begun computes the function, for the readings that its
iterations make. -/
theorem Loop.computes_send {left : σ → Option (List τ)}
    (h : Loop step P left (fun s => (monitor s).inState state) effects HeartBeatTask.Sends)
    {es : List ε} {s s' : σ} (hP : P s) (hbegin : left s = some (monitor s).monitored)
    (hrun : run step s es = some s') (hend : left s' = none) :
    ∃ now, LeavesWith step left monitor effects s es s' (fun hb => hb.sendHeartbeat now) := by
  obtain ⟨es₁, es₂, s₁, hes, hrun₁, hout, hrun₂, hiter⟩ := h.completes hP hbegin hrun hend
  obtain ⟨now, heach⟩ := HeartBeatTask.eachTask_of_sends hiter (monitor s).monitoredTasks.keys_nodup
  have hcomputes := ((monitor s).inState state).sendHeartbeat_eq_eachTask now
  rw [HeartBeatTask.sendHeartbeat_inState] at hcomputes
  obtain ⟨hmonitor, heffects⟩ := Prod.mk.inj (heach.symm.trans hcomputes.symm)
  exact ⟨now, es₁, es₂, s₁, hes, hrun₁, hout, hrun₂, HeartBeatTask.eq_of_inState_eq hmonitor,
    heffects⟩

end loops

namespace AckSystem

/-- What the periodic thread has still to check. -/
def checksLeft (s : AckSystem τ) : Option (List (ℤ × τ)) :=
  match s.periodic with
  | .checking now rest => some (rest.map (Prod.mk now))
  | _ => none

/-- The tasks to which it has still to send. -/
def sendsLeft (s : AckSystem τ) : Option (List τ) :=
  match s.periodic with
  | .sending rest => some rest
  | _ => none

/-- What a step does to other tasks. -/
def effects (s : AckSystem τ) : AckEvent τ → List (HeartBeatEffect τ)
  | .periodic =>
      match s.periodic with
      | .checking now (task :: _) => (s.monitor.checkTask now task).2
      | .sending (task :: _) => (s.monitor.sendTask (fun _ => s.clock) task).2
      | _ => []
  | _ => []

variable {s s' : AckSystem τ} {e : AckEvent τ}

/-- While the periodic thread owns `tasks_mutex`, nobody else changes more than the state. -/
theorem step_owned (hs : step s e = some s') (howns : s.periodic.ownsTasks = true)
    (he : e ≠ .periodic) (state : TaskState) : s'.periodic = s.periodic ∧
      s'.monitor.inState state = s.monitor.inState state ∧ effects s e = [] := by
  cases e with
  | tick d =>
      obtain rfl := Option.some.inj hs
      exact ⟨rfl, rfl, rfl⟩
  | arrive msg =>
      simp only [step] at hs
      split_ifs at hs
      obtain rfl := Option.some.inj hs
      exact ⟨rfl, rfl, rfl⟩
  | dequeue =>
      simp only [step] at hs
      split_ifs at hs
      obtain ⟨r, -, rfl⟩ := Option.map_eq_some_iff.mp hs
      exact ⟨rfl, rfl, rfl⟩
  | handle =>
      simp only [step, howns, Bool.and_true] at hs
      obtain ⟨msg, -, hs⟩ := Option.bind_eq_some_iff.mp hs
      split_ifs at hs with hlocks
      obtain rfl := Option.some.inj hs
      refine ⟨rfl, ?_, rfl⟩
      -- a message that is handled without the mutex is no acknowledgment
      obtain ⟨sender, data⟩ := msg
      cases data with
      | heartbeatAckMsg ack => exact absurd rfl hlocks
      | stateMsg m => rfl
      | stateAckMsg m => rfl
      | heartbeatMsg m => rfl
  | periodic => exact absurd rfl he
  | notifyTaskRegistered task =>
      simp only [step, howns, Bool.and_true, decide_eq_true_eq] at hs
      split_ifs at hs with hself
      obtain rfl := Option.some.inj hs
      rw [not_not] at hself
      refine ⟨rfl, ?_, rfl⟩
      simp only [HeartBeatTask.notifyTaskRegistered, hself, if_true]

theorem checkLoop (state : TaskState) : Loop step (fun _ => True) checksLeft
    (fun s : AckSystem τ => s.monitor.inState state) effects HeartBeatTask.Checks where
  keeps := fun _ _ _ _ _ => trivial
  next := by
    intro s e s' l _ hl hs
    cases hpc : s.periodic with
    | checking now rest =>
        rw [checksLeft, hpc] at hl
        obtain rfl := Option.some.inj hl
        by_cases he : e = .periodic
        · subst he
          obtain rfl := Option.some.inj hs
          cases rest with
          | nil =>
              simp only [effects, periodicStep, checksLeft, hpc]
              exact .finish rfl rfl
          | cons task rest =>
              simp only [effects, periodicStep, checksLeft, hpc]
              exact .iterate rfl
        · obtain ⟨hstage, hmonitor, hquiet⟩ := step_owned hs (by rw [hpc]; rfl) he state
          rw [checksLeft, hstage, hpc]
          exact .other hmonitor hquiet
    | _ => simp [checksLeft, hpc] at hl

theorem sendLoop (state : TaskState) : Loop step (fun _ => True) sendsLeft
    (fun s : AckSystem τ => s.monitor.inState state) effects HeartBeatTask.Sends where
  keeps := fun _ _ _ _ _ => trivial
  next := by
    intro s e s' l _ hl hs
    cases hpc : s.periodic with
    | sending rest =>
        rw [sendsLeft, hpc] at hl
        obtain rfl := Option.some.inj hl
        by_cases he : e = .periodic
        · subst he
          obtain rfl := Option.some.inj hs
          cases rest with
          | nil =>
              simp only [effects, periodicStep, sendsLeft, hpc]
              exact .finish rfl rfl
          | cons task rest =>
              simp only [effects, periodicStep, sendsLeft, hpc]
              exact .iterate ⟨s.clock, rfl⟩
        · obtain ⟨hstage, hmonitor, hquiet⟩ := step_owned hs (by rw [hpc]; rfl) he state
          rw [sendsLeft, hstage, hpc]
          exact .other hmonitor hquiet
    | _ => simp [sendsLeft, hpc] at hl

/-- Between its two threads, the monitor checks as `check_for_timeouts` does. -/
theorem check_computes {es : List (AckEvent τ)} {now : ℤ}
    (hpc : s.periodic = .checking now s.monitor.monitored) (hrun : run step s es = some s')
    (hend : s'.checksLeft = none) :
    LeavesWith step checksLeft monitor effects s es s' (fun hb => hb.checkForTimeouts now) :=
  (checkLoop .notStarted).computes_check trivial (by rw [checksLeft, hpc]) hrun hend

/-- And it sends as `send_heartbeat` does. -/
theorem send_computes {es : List (AckEvent τ)} (hpc : s.periodic = .sending s.monitor.monitored)
    (hrun : run step s es = some s') (hend : s'.sendsLeft = none) :
    ∃ now, LeavesWith step sendsLeft monitor effects s es s' (fun hb => hb.sendHeartbeat now) :=
  (sendLoop .notStarted).computes_send trivial (by rw [sendsLeft, hpc]) hrun hend

end AckSystem

namespace LiveSystem

variable {ρ : Type} [DecidableEq ρ]

/-- What the periodic thread has still to check. -/
def checksLeft (s : LiveSystem ρ τ) : Option (List (ℤ × τ)) :=
  match s.periodic with
  | .check now rest => some (rest.map (Prod.mk now))
  | .lockState now task rest => some ((task :: rest).map (Prod.mk now))
  | .record now task rest => some ((task :: rest).map (Prod.mk now))
  | _ => none

/-- What a step does to other tasks. -/
def effects (s : LiveSystem ρ τ) : LiveEvent ρ τ → List (HeartBeatEffect τ)
  | .periodic _ sendNow =>
      match s.periodic with
      | .record now task _ => (s.monitor.checkTask now task).2
      | .send => (s.monitor.sendHeartbeat sendNow).2
      | _ => []
  | _ => []

variable {s s' : LiveSystem ρ τ} {e : LiveEvent ρ τ}

/-- Who owns which mutex, and that a task that is about to be marked is overdue. -/
structure Marks (s : LiveSystem ρ τ) : Prop where
  owned : Owned s
  overdue : ∀ now task rest,
    s.periodic = .lockState now task rest ∨ s.periodic = .record now task rest →
      ∃ status, s.monitor.monitoredTasks.find? task = some status ∧
        s.monitor.overdue now status = true

omit [DecidableEq ρ] in
theorem checksLeft_holds {l : List (ℤ × τ)} (hl : s.checksLeft = some l) :
    s.periodic.holds .tasks := by
  unfold checksLeft at hl
  cases hpc : s.periodic with
  | check now rest => exact trivial
  | lockState now task rest => exact trivial
  | record now task rest => exact trivial
  | _ => simp [hpc] at hl

/-- While the periodic thread owns `tasks_mutex`, nobody else changes more than the state. -/
theorem moves_owned_tasks (h : Owned s) (hm : Moves s e s') (howns : s.periodic.holds .tasks)
    (he : ∀ now sendNow, e ≠ .periodic now sendNow) (state : TaskState) :
    s'.periodic = s.periodic ∧ s'.monitor.inState state = s.monitor.inState state ∧
      effects s e = [] := by
  have hself : s.owner .tasks = some .periodic := (h .tasks .periodic).mpr howns
  cases hm with
  | @registerInsert r _ task hpc =>
      have howner : s.owner .tasks = some (.registrar r) :=
        (h .tasks (.registrar r)).mpr (by rw [holds, hpc]; trivial)
      rw [hself] at howner
      cases howner
  | queueHandle hpc =>
      have howner : s.owner .tasks = some .queue :=
        (h .tasks .queue).mpr (by rw [holds, hpc]; trivial)
      rw [hself] at howner
      cases howner
  | cycle hpc =>
      rw [hpc] at howns
      cases howns
  | _ => first | exact ⟨rfl, rfl, rfl⟩ | exact absurd rfl (he _ _)

theorem moves_marks (h : Marks s) (hm : Moves s e s') : Marks s' := by
  refine ⟨moves_owned h.owned hm, ?_⟩
  by_cases he : ∃ now sendNow, e = .periodic now sendNow
  · obtain ⟨now, sendNow, rfl⟩ := he
    intro now' task rest hpc'
    cases hm with
    | checkOverdue hpc hf hover _ =>
        rcases hpc' with hpc' | hpc'
        · cases hpc'
          exact ⟨_, hf, hover⟩
        · cases hpc'
    | markLockState hpc _ =>
        rcases hpc' with hpc' | hpc'
        · cases hpc'
        · cases hpc'
          exact h.overdue _ _ _ (.inl hpc)
    | checkEnd _ hpc =>
        rcases hpc with rfl | rfl
        · rcases hpc' with hpc' | hpc' <;> cases hpc'
        · rcases hpc' with hpc' | hpc' <;> cases hpc'
    | _ => rcases hpc' with hpc' | hpc' <;> cases hpc'
  · have hother : ∀ now sendNow, e ≠ .periodic now sendNow := fun now sendNow heq => he ⟨now, sendNow, heq⟩
    intro now task rest hpc'
    have hpc : s.periodic = .lockState now task rest ∨ s.periodic = .record now task rest := by
      cases hm with
      | cycle _ => rcases hpc' with hpc' | hpc' <;> cases hpc'
      | _ => first | exact hpc' | exact absurd rfl (hother _ _)
    have howns : s.periodic.holds .tasks := by
      rcases hpc with hpc | hpc <;> rw [hpc] <;> trivial
    obtain ⟨-, hmonitor, -⟩ := moves_owned_tasks h.owned hm howns hother .notStarted
    rw [HeartBeatTask.eq_of_inState_eq hmonitor]
    exact h.overdue now task rest hpc

theorem checkLoop (state : TaskState) : Loop step Marks checksLeft
    (fun s : LiveSystem ρ τ => s.monitor.inState state) effects HeartBeatTask.Checks where
  keeps := fun _ _ _ h hs => moves_marks h (step_moves hs)
  next := by
    intro s e s' l h hl hs
    have hm := step_moves hs
    by_cases he : ∃ now sendNow, e = .periodic now sendNow
    · obtain ⟨now, sendNow, rfl⟩ := he
      cases hm with
      | checkEnd hpc hpc' =>
          simp only [checksLeft, hpc] at hl
          obtain rfl := Option.some.inj hl
          rcases hpc' with rfl | rfl
          · exact .finish rfl (by simp only [effects, hpc])
          · exact .finish rfl (by simp only [effects, hpc])
      | checkNext hpc hnot =>
          simp only [checksLeft, hpc] at hl
          obtain rfl := Option.some.inj hl
          have hcheck := HeartBeatTask.checkTask_of_in_time hnot
          simp only [effects, hpc]
          exact .iterate (HeartBeatTask.checks_inState hcheck state)
      | checkOverdue hpc hf hover hman =>
          simp only [checksLeft, hpc] at hl
          obtain rfl := Option.some.inj hl
          exact .other rfl (by simp only [effects, hpc])
      | checkNull hpc hf hover hman =>
          simp only [checksLeft, hpc] at hl
          obtain rfl := Option.some.inj hl
          have hcheck := HeartBeatTask.checkTask_of_overdue_alone hf hover hman
          simp only [effects, hpc]
          exact .iterate (HeartBeatTask.checks_inState hcheck state)
      | markLockState hpc _ =>
          simp only [checksLeft, hpc] at hl
          obtain rfl := Option.some.inj hl
          exact .other rfl (by simp only [effects, hpc])
      | markRecord hpc =>
          simp only [checksLeft, hpc] at hl
          obtain rfl := Option.some.inj hl
          obtain ⟨status, hf, hover⟩ := h.overdue _ _ _ (.inr hpc)
          have hcheck := HeartBeatTask.checkTask_of_overdue_clear hf hover
          simp only [effects, hpc, hcheck]
          exact .iterate (HeartBeatTask.checks_inState hcheck state)
      | lockCheck hpc _ => simp [checksLeft, hpc] at hl
      | lockSend hpc _ => simp [checksLeft, hpc] at hl
      | send hpc => simp [checksLeft, hpc] at hl
    · obtain ⟨hpc, hmonitor, hquiet⟩ := moves_owned_tasks h.owned hm (checksLeft_holds hl)
        (fun now sendNow heq => he ⟨now, sendNow, heq⟩) state
      have hleft : s'.checksLeft = some l := by
        rw [← hl, checksLeft, hpc, ← checksLeft]
      rw [hleft]
      exact .other hmonitor hquiet

omit [DecidableEq ρ] in
theorem init_marks (monitor : HeartBeatTask τ) (manager : StateManager τ) :
    Marks (init monitor manager : LiveSystem ρ τ) := by
  refine ⟨init_owned monitor manager, ?_⟩
  rintro now task rest (hpc | hpc)
  · cases hpc
  · cases hpc

/-- With registrations in progress, the periodic thread checks as `check_for_timeouts` does. -/
theorem check_computes {hb : HeartBeatTask τ} {manager : StateManager τ} {es : List (LiveEvent ρ τ)}
    {now : ℤ} (hs : Reaches step (init hb manager) s)
    (hpc : s.periodic = .check now s.monitor.monitored) (hrun : run step s es = some s')
    (hend : s'.checksLeft = none) :
    LeavesWith step checksLeft monitor effects s es s' (fun hb => hb.checkForTimeouts now) := by
  have hmarks : Marks s := hs.invariant (fun _ _ _ h he => moves_marks h (step_moves he))
    (init_marks hb manager)
  exact (checkLoop .notStarted).computes_check hmarks (by rw [checksLeft, hpc]) hrun hend

end LiveSystem

namespace ShutdownSystem

/-- What the periodic thread has still to check. -/
def checksLeft (s : ShutdownSystem τ) : Option (List (ℤ × τ)) :=
  match s.periodic with
  | .checking now rest => some (rest.map (Prod.mk now))
  | .marking now task rest => some ((task :: rest).map (Prod.mk now))
  | _ => none

/-- The tasks to which it has still to send. -/
def sendsLeft (s : ShutdownSystem τ) : Option (List τ) :=
  match s.periodic with
  | .sending rest => some rest
  | _ => none

/-- What a step of the monitor does to other tasks; the mark counts when the record is written. -/
def effects (s : ShutdownSystem τ) : ShutdownEvent τ → List (HeartBeatEffect τ)
  | .periodicThread now =>
      match s.periodic with
      | .marking reading task _ => (s.monitor.checkTask reading task).2
      | .sending (task :: _) => (s.monitor.sendTask (fun _ => now) task).2
      | _ => []
  | _ => []

variable {subs : MsgType → List τ} {s s' : ShutdownSystem τ} {e : ShutdownEvent τ}

/-- A task that is about to be marked is overdue. -/
def Marks (s : ShutdownSystem τ) : Prop :=
  ∀ now task rest, s.periodic = .marking now task rest →
    ∃ status, s.monitor.monitoredTasks.find? task = some status ∧ s.monitor.overdue now status = true

/-- The periodic thread is moved by its own steps only, and while it owns `tasks_mutex` nobody else
changes the monitor. -/
theorem moves_monitor (hm : Moves subs s e s') (he : ∀ now, e ≠ .periodicThread now) :
    s'.periodic = s.periodic ∧ (s.periodic.ownsTasks = true → s'.monitor = s.monitor) ∧
      effects s e = [] := by
  cases hm with
  | acknowledged _ _ _ hfree _ => exact ⟨rfl, fun howns => absurd howns hfree, rfl⟩
  | _ => first | exact ⟨rfl, fun _ => rfl, rfl⟩ | exact absurd rfl (he _)

theorem moves_marks (h : Marks s) (hm : Moves subs s e s') : Marks s' := by
  by_cases he : ∃ now, e = .periodicThread now
  · obtain ⟨now, rfl⟩ := he
    intro reading task rest hpc'
    cases hm with
    | overdue hpc hf hover _ =>
        cases hpc'
        exact ⟨_, hf, hover⟩
    | periodicTest _ =>
        have hne : ∀ b : Bool, (if b = true then MonitorPc.lockCheck else .exited) ≠
            MonitorPc.marking reading task rest := by
          intro b
          split_ifs <;> nofun
        exact absurd hpc' (hne _)
    | goOn _ =>
        have hne : (if s.currentState s.monitor.self = .running then MonitorPc.sending s.monitored
            else .sleeping) ≠ MonitorPc.marking reading task rest := by
          split_ifs <;> nofun
        exact absurd hpc' hne
    | _ => cases hpc'
  · have hother : ∀ now, e ≠ .periodicThread now := fun now heq => he ⟨now, heq⟩
    obtain ⟨hpc, hmonitor, -⟩ := moves_monitor hm hother
    intro now task rest hpc'
    rw [hpc] at hpc'
    rw [hmonitor (by rw [hpc']; rfl)]
    exact h now task rest hpc'

theorem checkLoop (subs : MsgType → List τ) (state : TaskState) : Loop (step subs) Marks checksLeft
    (fun s : ShutdownSystem τ => s.monitor.inState state) effects HeartBeatTask.Checks where
  keeps := fun _ _ _ h hs => moves_marks h (step_moves hs)
  next := by
    intro s e s' l h hl hs
    have hm := step_moves hs
    by_cases he : ∃ now, e = .periodicThread now
    · obtain ⟨now, rfl⟩ := he
      cases hm with
      | checkedAll hpc =>
          simp only [checksLeft, hpc] at hl
          obtain rfl := Option.some.inj hl
          exact .finish rfl (by simp only [effects, hpc])
      | checkedTask hpc hintime =>
          simp only [checksLeft, hpc] at hl
          obtain rfl := Option.some.inj hl
          have hcheck := HeartBeatTask.checkTask_of_in_time
            (fun status hf => Bool.eq_false_iff.mpr (hintime status hf))
          simp only [effects, hpc]
          exact .iterate (HeartBeatTask.checks_inState hcheck state)
      | overdue hpc hf hover hman =>
          simp only [checksLeft, hpc] at hl
          obtain rfl := Option.some.inj hl
          exact .other rfl (by simp only [effects, hpc])
      | overdueAlone hpc hf hover hman =>
          simp only [checksLeft, hpc] at hl
          obtain rfl := Option.some.inj hl
          have hcheck := HeartBeatTask.checkTask_of_overdue_alone hf hover (Bool.eq_false_iff.mpr hman)
          simp only [effects, hpc]
          exact .iterate (HeartBeatTask.checks_inState hcheck state)
      | mark hpc _ =>
          simp only [checksLeft, hpc] at hl
          obtain rfl := Option.some.inj hl
          obtain ⟨status, hf, hover⟩ := h _ _ _ hpc
          have hcheck := HeartBeatTask.checkTask_of_overdue_clear hf hover
          simp only [effects, hpc, hcheck]
          exact .iterate (HeartBeatTask.checks_inState hcheck state)
      | periodicTest hpc => simp [checksLeft, hpc] at hl
      | lockCheck hpc => simp [checksLeft, hpc] at hl
      | goOn hpc => simp [checksLeft, hpc] at hl
      | sentAll hpc => simp [checksLeft, hpc] at hl
      | passOver hpc _ => simp [checksLeft, hpc] at hl
      | send hpc _ _ => simp [checksLeft, hpc] at hl
      | wake hpc => simp [checksLeft, hpc] at hl
    · obtain ⟨hpc, hmonitor, hquiet⟩ := moves_monitor hm (fun now heq => he ⟨now, heq⟩)
      have howns : s.periodic.ownsTasks = true := by
        cases hstage : s.periodic with
        | checking now rest => rfl
        | marking now task rest => rfl
        | _ => simp [checksLeft, hstage] at hl
      have hleft : s'.checksLeft = some l := by
        rw [← hl, checksLeft, hpc, ← checksLeft]
      rw [hleft]
      exact .other (by rw [hmonitor howns]) hquiet

theorem sendLoop (subs : MsgType → List τ) (state : TaskState) : Loop (step subs) (fun _ => True)
    sendsLeft (fun s : ShutdownSystem τ => s.monitor.inState state) effects HeartBeatTask.Sends where
  keeps := fun _ _ _ _ _ => trivial
  next := by
    intro s e s' l _ hl hs
    have hm := step_moves hs
    cases hstage : s.periodic with
    | sending rest =>
        simp only [sendsLeft, hstage] at hl
        obtain rfl := Option.some.inj hl
        by_cases he : ∃ now, e = .periodicThread now
        · obtain ⟨now, rfl⟩ := he
          cases hm with
          | sentAll hpc =>
              obtain rfl := MonitorPc.sending.inj (hstage.symm.trans hpc)
              exact .finish rfl (by simp only [effects, hstage])
          | @passOver _ task rest hpc hawaited =>
              obtain rfl := MonitorPc.sending.inj (hstage.symm.trans hpc)
              have hsend : s.monitor.sendTask (fun _ => now) task = (s.monitor, []) :=
                HeartBeatTask.sendTask_of_awaited hawaited
              simp only [effects, hstage, hsend]
              exact .iterate (HeartBeatTask.sends_inState hsend state)
          | @send _ task rest status hpc hf hfree =>
              obtain rfl := MonitorPc.sending.inj (hstage.symm.trans hpc)
              have hsend : s.monitor.sendTask (fun _ => now) task = _ :=
                HeartBeatTask.sendTask_of_not_awaiting hf (Bool.eq_false_iff.mpr hfree)
              simp only [effects, hstage, hsend]
              exact .iterate (HeartBeatTask.sends_inState hsend state)
          | periodicTest hpc => simp [hstage] at hpc
          | lockCheck hpc => simp [hstage] at hpc
          | goOn hpc => simp [hstage] at hpc
          | checkedAll hpc => simp [hstage] at hpc
          | checkedTask hpc _ => simp [hstage] at hpc
          | overdue hpc _ _ _ => simp [hstage] at hpc
          | overdueAlone hpc _ _ _ => simp [hstage] at hpc
          | mark hpc _ => simp [hstage] at hpc
          | wake hpc => simp [hstage] at hpc
        · obtain ⟨hpc, hmonitor, hquiet⟩ := moves_monitor hm (fun now heq => he ⟨now, heq⟩)
          simp only [sendsLeft, hpc, hstage]
          exact .other (by rw [hmonitor (by rw [hstage]; rfl)]) hquiet
    | _ => simp [sendsLeft, hstage] at hl

/-- In the whole system, the periodic thread checks as `check_for_timeouts` does. -/
theorem check_computes {es : List (ShutdownEvent τ)} {now : ℤ}
    (hpc : s.periodic = .checking now s.monitor.monitored) (hrun : run (step subs) s es = some s')
    (hend : s'.checksLeft = none) :
    LeavesWith (step subs) checksLeft monitor effects s es s' (fun hb => hb.checkForTimeouts now) := by
  have hmarks : Marks s := by
    intro reading task rest hpc'
    rw [hpc] at hpc'
    cases hpc'
  exact (checkLoop subs .notStarted).computes_check hmarks (by rw [checksLeft, hpc]) hrun hend

/-- And it sends as `send_heartbeat` does. -/
theorem send_computes {es : List (ShutdownEvent τ)}
    (hpc : s.periodic = .sending s.monitor.monitored) (hrun : run (step subs) s es = some s')
    (hend : s'.sendsLeft = none) :
    ∃ now, LeavesWith (step subs) sendsLeft monitor effects s es s' (fun hb => hb.sendHeartbeat now) :=
  (sendLoop subs .notStarted).computes_send trivial (by rw [sendsLeft, hpc]) hrun hend

end ShutdownSystem

end Protocore
