import Protocore.HeartBeat
import Protocore.StateManager

/-! # The action for unresponsive tasks

`HeartBeatTask` stores the action configured by `set_unresponsive_action`; what happens to an
unresponsive task is decided two calls away, in `StateManager::mark_task_as_unresponsive`, which
delivers and records `ERROR`.  The system is a monitor with its manager and the messages the two have
delivered to tasks.

`configured_action_iff`: a check takes the configured action, for every task that has timed out and
for no other, exactly when that action is `ERROR` or no task has timed out. -/

namespace Protocore

variable {τ : Type} [LinearOrder τ]

/-- `HeartBeatTask::set_unresponsive_action`. -/
def HeartBeatTask.setUnresponsiveAction (hb : HeartBeatTask τ) (action : TaskState) :
    HeartBeatTask τ :=
  { hb with unresponsiveAction := action }

/-- The monitor, its manager, and all messages they have delivered, in order. -/
structure ActionSystem (τ : Type) [LinearOrder τ] where
  monitor : HeartBeatTask τ
  manager : StateManager τ
  delivered : List (τ × Msg τ)

/-- The calls on the monitor and on its manager, with the clock readings they make. -/
inductive ActionEvent (τ : Type) where
  | setUnresponsiveAction (action : TaskState)
  | checkForTimeouts (now : ℤ)
  | sendHeartbeat (now : τ → ℤ)
  | handleAcknowledgment (sender : Option τ) (ack : HeartbeatAckMsg) (now : ℤ)
  | notifyTaskRegistered (task : τ) (now : ℤ)
  | registerTask (task : τ)
  | processMessage (msg : Msg τ)

namespace ActionSystem

/-- A monitor with a manager, as its constructor leaves it. -/
def init (self : τ) (responseTimeoutMs : ℤ) (manager : StateManager τ) : ActionSystem τ :=
  ⟨.create self true responseTimeoutMs, manager, []⟩

/-- `Broker::deliver_message` of a heartbeat, or `mark_task_as_unresponsive`. -/
def applyEffect (s : ActionSystem τ) : HeartBeatEffect τ → ActionSystem τ
  | .heartbeat task msg =>
      { s with delivered := s.delivered ++ [(task, ⟨some s.monitor.self, .heartbeatMsg msg⟩)] }
  | .unresponsive task _ =>
      { s with
        delivered := s.delivered ++ [(task, s.manager.unresponsiveMsg)]
        manager := s.manager.recordUnresponsive task }

/-- `check_for_timeouts`, with what it does through the manager. -/
def checkForTimeouts (s : ActionSystem τ) (now : ℤ) : ActionSystem τ :=
  let r := s.monitor.checkForTimeouts now
  r.2.foldl applyEffect { s with monitor := r.1 }

/-- One call. -/
def step (s : ActionSystem τ) : ActionEvent τ → Option (ActionSystem τ)
  | .setUnresponsiveAction action =>
      some { s with monitor := s.monitor.setUnresponsiveAction action }
  | .checkForTimeouts now => some (s.checkForTimeouts now)
  | .sendHeartbeat now =>
      let r := s.monitor.sendHeartbeat now
      some (r.2.foldl applyEffect { s with monitor := r.1 })
  | .handleAcknowledgment sender ack now =>
      some { s with monitor := s.monitor.handleAcknowledgment sender ack now }
  | .notifyTaskRegistered task now =>
      some { s with monitor := s.monitor.notifyTaskRegistered task now }
  | .registerTask task => some { s with manager := s.manager.registerTask task }
  | .processMessage msg => some { s with manager := (s.manager.processMessage msg).1 }

/-- The action that is set after a call. -/
def latest (action : TaskState) : ActionEvent τ → TaskState
  | .setUnresponsiveAction newAction => newAction
  | _ => action

/-- The action passed last to `set_unresponsive_action`; the field starts with `ERROR`. -/
def lastAction (es : List (ActionEvent τ)) : TaskState := es.foldl latest .error

/-- The task is monitored and its heartbeat is overdue. -/
def timedOut (s : ActionSystem τ) (now : ℤ) (t : τ) : Bool :=
  (s.monitor.monitoredTasks.find? t).any (s.monitor.overdue now)

/-- The messages delivered to one task. -/
def received (l : List (τ × Msg τ)) (t : τ) : List (Msg τ) :=
  (l.filter (fun d => decide (d.1 = t))).map Prod.snd

/-- Exactly the tasks that have timed out are commanded, once, and recorded with the action. -/
structure Takes (action : TaskState) (s : ActionSystem τ) (now : ℤ) : Prop where
  commanded : ∀ t, received (s.checkForTimeouts now).delivered t = received s.delivered t ++
    if s.timedOut now t then [⟨some s.manager.self, .stateMsg ⟨action.toByte⟩⟩] else []
  recorded : ∀ t, (s.checkForTimeouts now).manager.taskStates.find? t =
    if s.timedOut now t then some action else s.manager.taskStates.find? t

/-! ### The configured action -/

variable {s s' : ActionSystem τ}

theorem foldl_applyEffect_monitor (effects : List (HeartBeatEffect τ)) (s : ActionSystem τ) :
    (effects.foldl applyEffect s).monitor = s.monitor := by
  induction effects generalizing s with
  | nil => rfl
  | cons e effects ih =>
      rw [List.foldl_cons, ih]
      cases e with
      | heartbeat task msg => rfl
      | unresponsive task id => rfl

/-- The monitor has a manager, and the last action that was set. -/
def Configured (action : TaskState) (s : ActionSystem τ) : Prop :=
  s.monitor.stateManager = true ∧ s.monitor.unresponsiveAction = action

theorem step_configured {action : TaskState} {e : ActionEvent τ} (h : Configured action s)
    (hs : step s e = some s') : Configured (latest action e) s' := by
  obtain ⟨hmanager, haction⟩ := h
  cases e with
  | setUnresponsiveAction newAction =>
      obtain rfl := Option.some.inj hs
      exact ⟨hmanager, rfl⟩
  | checkForTimeouts now =>
      obtain rfl := Option.some.inj hs
      unfold Configured checkForTimeouts
      rw [foldl_applyEffect_monitor]
      exact ⟨hmanager, haction⟩
  | sendHeartbeat now =>
      obtain rfl := Option.some.inj hs
      unfold Configured
      rw [foldl_applyEffect_monitor]
      exact ⟨hmanager, haction⟩
  | handleAcknowledgment sender ack now =>
      obtain rfl := Option.some.inj hs
      exact ⟨hmanager, haction⟩
  | registerTask task =>
      obtain rfl := Option.some.inj hs
      exact ⟨hmanager, haction⟩
  | notifyTaskRegistered task now =>
      obtain rfl := Option.some.inj hs
      obtain ⟨m, hm⟩ := s.monitor.notifyTaskRegistered_frame task now
      unfold Configured
      rw [hm]
      exact ⟨hmanager, haction⟩
  | processMessage msg =>
      obtain rfl := Option.some.inj hs
      exact ⟨hmanager, haction⟩

theorem run_configured {es : List (ActionEvent τ)} : ∀ {action : TaskState} {s : ActionSystem τ},
    Configured action s → run step s es = some s' → Configured (es.foldl latest action) s' := by
  induction es with
  | nil =>
      intro action s h hrun
      obtain rfl := Option.some.inj hrun
      exact h
  | cons e es ih =>
      intro action s h hrun
      obtain ⟨s₁, he, hes⟩ := run_cons_eq_some.mp hrun
      exact ih (step_configured h he) hes

/-! ### What a check does -/

/-- The tasks that are overdue, in the order of the map. -/
def overdueTasks (s : ActionSystem τ) (now : ℤ) : List τ :=
  (s.monitor.monitoredTasks.entries.filter (fun e => s.monitor.overdue now e.2)).map Prod.fst

theorem overdueTasks_nodup (s : ActionSystem τ) (now : ℤ) : (s.overdueTasks now).Nodup := by
  have hkeys : (s.monitor.monitoredTasks.entries.map Prod.fst).Nodup :=
    s.monitor.monitoredTasks.sorted.imp (fun hlt => hlt.ne)
  exact hkeys.sublist (List.filter_sublist.map Prod.fst)

theorem mem_overdueTasks {now : ℤ} {t : τ} : t ∈ s.overdueTasks now ↔ s.timedOut now t = true := by
  simp only [overdueTasks, List.mem_map, List.mem_filter, Prod.exists, exists_and_right,
    exists_eq_right, ← OrdMap.find?_eq_some_iff]
  unfold timedOut
  cases hf : s.monitor.monitoredTasks.find? t with
  | none => simp
  | some status => simp

/-- A check reports the overdue tasks, in the order of the map. -/
theorem checkForTimeouts_effects (hm : s.monitor.stateManager = true) (now : ℤ) :
    (s.monitor.checkForTimeouts now).2 =
      (s.monitor.monitoredTasks.entries.filter (fun e => s.monitor.overdue now e.2)).map
        (fun e => .unresponsive e.1 e.2.lastHeartbeatId) := by
  rw [HeartBeatSystem.checkForTimeouts_eq hm]
  simp only
  induction s.monitor.monitoredTasks.entries with
  | nil => rfl
  | cons e entries ih =>
      rw [List.flatMap_cons, List.filter_cons, ih]
      split_ifs <;> rfl

theorem foldl_unresponsive (entries : List (τ × TaskStatus)) (s : ActionSystem τ) :
    (entries.map (fun e => HeartBeatEffect.unresponsive e.1 e.2.lastHeartbeatId)).foldl
        applyEffect s =
      { s with
        delivered := s.delivered ++
          (entries.map Prod.fst).map (fun t => (t, s.manager.unresponsiveMsg))
        manager := (entries.map Prod.fst).foldl StateManager.recordUnresponsive s.manager } := by
  induction entries generalizing s with
  | nil => simp
  | cons e entries ih =>
      rw [List.map_cons, List.foldl_cons, ih]
      simp [applyEffect, StateManager.unresponsiveMsg, StateManager.recordUnresponsive]

theorem find?_foldl_recordUnresponsive (tasks : List τ) (m : StateManager τ) (t : τ) :
    (tasks.foldl StateManager.recordUnresponsive m).taskStates.find? t =
      if t ∈ tasks then some .error else m.taskStates.find? t := by
  induction tasks generalizing m with
  | nil => rfl
  | cons u tasks ih =>
      rw [List.foldl_cons, ih, StateManager.recordUnresponsive, OrdMap.find?_insert]
      by_cases ht : t ∈ tasks
      · simp [ht]
      · simp [ht]

theorem received_append (l l' : List (τ × Msg τ)) (t : τ) :
    received (l ++ l') t = received l t ++ received l' t := by
  unfold received
  rw [List.filter_append, List.map_append]

theorem received_map {tasks : List τ} (hnodup : tasks.Nodup) (msg : Msg τ) (t : τ) :
    received (tasks.map (fun u => (u, msg))) t = if t ∈ tasks then [msg] else [] := by
  induction tasks with
  | nil => rfl
  | cons u tasks ih =>
      obtain ⟨hu, hnodup⟩ := List.nodup_cons.mp hnodup
      rw [List.map_cons, ← List.singleton_append, received_append, ih hnodup]
      by_cases ht : t = u
      · subst ht
        simp [received, hu]
      · simp [received, ht, Ne.symm ht]

/-- A check commands `ERROR` to the tasks that have timed out, and records it. -/
theorem takes_error (hm : s.monitor.stateManager = true) (now : ℤ) : Takes .error s now := by
  have hcheck : s.checkForTimeouts now =
      { monitor := (s.monitor.checkForTimeouts now).1
        delivered := s.delivered ++
          (s.overdueTasks now).map (fun t => (t, s.manager.unresponsiveMsg))
        manager := (s.overdueTasks now).foldl StateManager.recordUnresponsive s.manager } := by
    unfold checkForTimeouts
    simp only
    rw [checkForTimeouts_effects hm, foldl_unresponsive]
    rfl
  constructor
  · intro t
    rw [hcheck, received_append, received_map (s.overdueTasks_nodup now)]
    simp only [mem_overdueTasks]
    rfl
  · intro t
    rw [hcheck, find?_foldl_recordUnresponsive]
    simp only [mem_overdueTasks]

/-- What was taken for a task that has timed out tells the action. -/
theorem Takes.action_unique {action action' : TaskState} {now : ℤ} (h : Takes action s now)
    (h' : Takes action' s now) {t : τ} (ht : s.timedOut now t = true) : action = action' := by
  have hrec := (h.recorded t).symm.trans (h'.recorded t)
  rw [if_pos ht, if_pos ht] at hrec
  exact Option.some.inj hrec

/-- **The action that is taken.**  In every state reached by any calls, a check takes the action that
was passed last to `set_unresponsive_action` exactly when that action is `ERROR` or no task has timed
out. -/
theorem configured_action_iff (self : τ) (responseTimeoutMs : ℤ) (manager : StateManager τ)
    (es : List (ActionEvent τ)) (s : ActionSystem τ)
    (hrun : run step (init self responseTimeoutMs manager) es = some s) (now : ℤ) :
    s.monitor.unresponsiveAction = lastAction es ∧
      (Takes (lastAction es) s now ↔ lastAction es = .error ∨ ∀ t, s.timedOut now t = false) := by
  obtain ⟨hmanager, haction⟩ : Configured (lastAction es) s := run_configured ⟨rfl, rfl⟩ hrun
  have herror := takes_error hmanager now
  refine ⟨haction, ?_, ?_⟩
  · intro htakes
    by_contra hnot
    push Not at hnot
    obtain ⟨hne, t, ht⟩ := hnot
    exact hne (htakes.action_unique herror (Bool.eq_true_of_not_eq_false ht))
  · rintro (heq | hnone)
    · rw [heq]
      exact herror
    · constructor
      · intro t
        have hcommanded := herror.commanded t
        simp only [hnone t] at hcommanded ⊢
        exact hcommanded
      · intro t
        have hrecorded := herror.recorded t
        simp only [hnone t] at hrecorded ⊢
        exact hrecorded

/-- A task is registered with the manager and the monitor, and is sent a heartbeat at time zero. -/
def heartbeatAtZero : List (ActionEvent ℕ) :=
  [.registerTask 1, .notifyTaskRegistered 1 0, .sendHeartbeat (fun _ => 0)]

/-- The action is left at `ERROR`; the heartbeat is overdue after four seconds. -/
theorem configured_action_error : ∃ s : ActionSystem ℕ,
    run step (init 2 3000 (.create 0 .running .running)) heartbeatAtZero = some s ∧
    s.timedOut 4000000000 1 = true ∧ Takes .error s 4000000000 := by
  have heval : (run step (init 2 3000 (.create 0 .running .running)) heartbeatAtZero).map (fun s =>
      s.timedOut 4000000000 1) = some true := by decide +kernel
  obtain ⟨s, hrun, htimedOut⟩ := Option.map_eq_some_iff.mp heval
  exact ⟨s, hrun, htimedOut, (configured_action_iff 2 3000 (.create 0 .running .running)
    heartbeatAtZero s hrun 4000000000).2.mpr (Or.inl rfl)⟩

/-- `STOPPED` is configured, and `ERROR` is delivered and recorded. -/
theorem configured_stopped_takes_error : ∃ s : ActionSystem ℕ,
    run step (init 2 3000 (.create 0 .running .running))
      (.setUnresponsiveAction .stopped :: heartbeatAtZero) = some s ∧
    s.monitor.unresponsiveAction = .stopped ∧ s.timedOut 4000000000 1 = true ∧
    received (s.checkForTimeouts 4000000000).delivered 1 =
      received s.delivered 1 ++ [⟨some 0, .stateMsg ⟨TaskState.error.toByte⟩⟩] ∧
    (s.checkForTimeouts 4000000000).manager.taskStates.find? 1 = some .error ∧
    ¬ Takes .stopped s 4000000000 := by
  have heval : (run step (init 2 3000 (.create 0 .running .running))
      (.setUnresponsiveAction .stopped :: heartbeatAtZero)).map (fun s => decide (
        s.monitor.unresponsiveAction = .stopped ∧ s.timedOut 4000000000 1 = true ∧
        received (s.checkForTimeouts 4000000000).delivered 1 =
          received s.delivered 1 ++ [⟨some 0, .stateMsg ⟨TaskState.error.toByte⟩⟩] ∧
        (s.checkForTimeouts 4000000000).manager.taskStates.find? 1 = some .error)) =
      some true := by decide +kernel
  obtain ⟨s, hrun, hval⟩ := Option.map_eq_some_iff.mp heval
  obtain ⟨haction, htimedOut, hreceived, hrecord⟩ := of_decide_eq_true hval
  refine ⟨s, hrun, haction, htimedOut, hreceived, hrecord, fun htakes => ?_⟩
  have hrecorded := htakes.recorded 1
  rw [if_pos htimedOut, hrecord] at hrecorded
  cases hrecorded

end ActionSystem

end Protocore
