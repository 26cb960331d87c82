import Protocore.HeartbeatFlow
import Protocore.ShutdownRoom

/-! # A shutdown can always return

`StateManager::shutdown` publishes, waits, stops the tasks one after the other and joins their threads.
What it waits for may itself wait: a queue thread for `sub_mutex` or, if it is the monitor's, for
`tasks_mutex`, whose owner may wait for `state_mutex`; a periodic thread sleeps.  A `std::mutex` is not
fair, so other threads may keep the calling thread from `sub_mutex` as long as they publish; but they
never come to a state from which it cannot get on, unless a queue is full.

* `Publishing`, `Stopped`, `Narrow`: who is inside `publish`, how far the tasks are stopped, and how
  many messages the broadcast and the loops of the monitor still have for a task, in every reachable
  state.
* `frees`, `exits`, `periodic_exits`: the thread the caller waits for gets to the point it waits for,
  and how many messages each queue gets before.
* `shutdown_can_return`: from every reachable state in which the queues have room for these messages the
  call can return, and when it has returned all threads of the registered tasks and of the manager have
  finished. -/

namespace Protocore

variable {τ : Type} [LinearOrder τ]

namespace ShutdownPc

/-- Inside `Broker::publish`. -/
def broadcasts : ShutdownPc τ → Bool
  | .publishing | .stopPublishing _ _ _ => true
  | _ => false

/-- The task inside whose `stop` the caller is. -/
def current : ShutdownPc τ → Option τ
  | .assigning _ x _ | .announcing _ x _ | .stopPublishing _ x _ => some x
  | .notifying _ x _ | .joining _ x _ | .joiningPeriodic _ x _ => some x
  | _ => none

/-- The tasks that are to be stopped later. -/
def ahead : ShutdownPc τ → Option (List τ)
  | .stopping _ rest => some rest
  | .assigning _ _ rest | .announcing _ _ rest | .stopPublishing _ _ rest => some rest
  | .notifying _ _ rest | .joining _ _ rest | .joiningPeriodic _ _ rest => some rest
  | .returned _ => some []
  | _ => none

/-- After `notify_shutdown`. -/
def notified : ShutdownPc τ → Bool
  | .joining _ _ _ | .joiningPeriodic _ _ _ => true
  | _ => false

end ShutdownPc

/-- The tasks that the loop of the monitor has still to come to. -/
def MonitorPc.rest : MonitorPc τ → List τ
  | .checking _ rest | .marking _ _ rest | .sending rest => rest
  | _ => []

namespace ShutdownSystem

variable {subs : MsgType → List τ} {s s' : ShutdownSystem τ} {e : ShutdownEvent τ} {mgr hb : τ}
  {tasks : List τ}

/-! ### Who is inside `publish` -/

/-- A thread is inside `publish` exactly while the broadcast in progress is its own. -/
structure Publishing (s : ShutdownSystem τ) : Prop where
  thread : ∀ x, s.loop x = .publishing → ∃ msg rest, s.sub = some ⟨some x, msg, rest⟩
  caller : s.caller.broadcasts = true → ∃ msg rest, s.sub = some ⟨none, msg, rest⟩
  nobody : ∀ msg rest, s.sub = some ⟨none, msg, rest⟩ → s.caller.broadcasts = true

theorem Publishing.frame (h : Publishing s) (hloop : s'.loop = s.loop) (hcaller : s'.caller = s.caller)
    (hsub : s'.sub = s.sub) : Publishing s' := by
  constructor
  · rw [hloop, hsub]
    exact h.thread
  · rw [hcaller, hsub]
    exact h.caller
  · rw [hcaller, hsub]
    exact h.nobody

/-- The caller goes on outside `publish`. -/
theorem Publishing.call (h : Publishing s) (hpc : s.caller.broadcasts = false)
    (hpc' : s'.caller.broadcasts = false) (hloop : s'.loop = s.loop) (hsub : s'.sub = s.sub) :
    Publishing s' := by
  constructor
  · rw [hloop, hsub]
    exact h.thread
  · rw [hpc']
    nofun
  · rw [hsub]
    intro msg rest hnone
    rw [h.nobody msg rest hnone] at hpc
    cases hpc

/-- A queue thread goes on outside `publish`. -/
theorem Publishing.goto (h : Publishing s) {x : τ} {pc : LoopPc τ}
    (hloop : s'.loop = Function.update s.loop x pc) (hpc : pc ≠ .publishing)
    (hcaller : s'.caller = s.caller) (hsub : s'.sub = s.sub) : Publishing s' := by
  constructor
  · rw [hloop, hsub]
    intro u hu
    by_cases hux : u = x
    · rw [hux, Function.update_self] at hu
      exact absurd hu hpc
    · rw [Function.update_of_ne hux] at hu
      exact h.thread u hu
  · rw [hcaller, hsub]
    exact h.caller
  · rw [hcaller, hsub]
    exact h.nobody

/-- The caller enters `publish`. -/
theorem Publishing.callBegins (h : Publishing s) (hfree : s.sub.isNone = true) {msg : Msg τ}
    {rest : List τ} (hpc' : s'.caller.broadcasts = true) (hloop : s'.loop = s.loop)
    (hsub : s'.sub = some ⟨none, msg, rest⟩) : Publishing s' := by
  constructor
  · rw [hloop]
    intro u hu
    obtain ⟨msg', rest', hu'⟩ := h.thread u hu
    rw [hu'] at hfree
    cases hfree
  · exact fun _ => ⟨msg, rest, hsub⟩
  · exact fun _ _ _ => hpc'

/-- A queue thread enters `publish`. -/
theorem Publishing.threadBegins (h : Publishing s) (hfree : s.sub.isNone = true) {x : τ} {msg : Msg τ}
    {rest : List τ} (hloop : s'.loop = Function.update s.loop x .publishing)
    (hcaller : s'.caller = s.caller) (hsub : s'.sub = some ⟨some x, msg, rest⟩) : Publishing s' := by
  constructor
  · rw [hloop]
    intro u hu
    by_cases hux : u = x
    · exact ⟨msg, rest, hux ▸ hsub⟩
    · rw [Function.update_of_ne hux] at hu
      obtain ⟨msg', rest', hu'⟩ := h.thread u hu
      rw [hu'] at hfree
      cases hfree
  · rw [hcaller]
    intro hc
    obtain ⟨msg', rest', hc'⟩ := h.caller hc
    rw [hc'] at hfree
    cases hfree
  · rw [hsub]
    intro msg' rest' hnone
    cases hnone

/-- The end of a broadcast lets its thread go on; `Moves` does not say which one. -/
theorem Publishing.deliver (h : Publishing s) (hs : s.deliverStep = some s') : Publishing s' := by
  unfold deliverStep at hs
  split at hs
  · cases hs
  · rename_i p msg x rest hsub
    obtain rfl := Option.some.inj hs
    constructor
    · intro u hu
      obtain ⟨msg', rest', hu'⟩ := h.thread u hu
      obtain rfl : p = some u := by
        rw [hsub] at hu'
        cases hu'
        rfl
      exact ⟨msg, rest, rfl⟩
    · intro hc
      obtain ⟨msg', rest', hc'⟩ := h.caller hc
      obtain rfl : p = none := by
        rw [hsub] at hc'
        cases hc'
        rfl
      exact ⟨msg, rest, rfl⟩
    · intro msg' rest' hnone
      cases hnone
      exact h.nobody _ _ hsub
  · rename_i x msg hsub
    obtain rfl := Option.some.inj hs
    constructor
    · intro u hu
      by_cases hux : u = x
      · simp only [hux, Function.update_self] at hu
        cases hu
      · simp only [Function.update_of_ne hux] at hu
        obtain ⟨msg', rest', hu'⟩ := h.thread u hu
        rw [hsub] at hu'
        cases hu'
        exact absurd rfl hux
    · intro hc
      obtain ⟨msg', rest', hc'⟩ := h.caller hc
      rw [hsub] at hc'
      cases hc'
    · nofun
  · rename_i msg hsub
    obtain rfl := Option.some.inj hs
    constructor
    · intro u hu
      obtain ⟨msg', rest', hu'⟩ := h.thread u hu
      rw [hsub] at hu'
      cases hu'
    · intro hc
      have hbroadcasts := h.nobody _ _ hsub
      cases hcaller : s.caller with
      | publishing => simp [hcaller, ShutdownPc.broadcasts] at hc
      | stopPublishing success x rest => simp [hcaller, ShutdownPc.broadcasts] at hc
      | _ => simp [hcaller, ShutdownPc.broadcasts] at hbroadcasts
    · nofun

theorem Publishing.step (h : Publishing s) (hs : s.step subs e = some s') : Publishing s' := by
  by_cases he : e = .deliver
  · subst he
    exact h.deliver hs
  · cases step_moves hs with
    | shutdown hpc => exact h.call (by rw [hpc]; rfl) rfl rfl rfl
    | setTarget hpc => exact h.call (by rw [hpc]; rfl) rfl rfl rfl
    | transition hpc => exact h.call (by rw [hpc]; rfl) rfl rfl rfl
    | publish hpc hfree => exact h.callBegins hfree rfl rfl rfl
    | check hpc => exact h.call (by rw [hpc]; rfl) rfl rfl rfl
    | timeout hpc => exact h.call (by rw [hpc]; rfl) rfl rfl rfl
    | succeed hpc => exact h.call (by rw [hpc]; rfl) rfl rfl rfl
    | pass hpc ht => exact h.call (by rw [hpc]; rfl) rfl rfl rfl
    | giveUp hpc ht => exact h.call (by rw [hpc]; rfl) rfl rfl rfl
    | waitAgain hpc ht => exact h.call (by rw [hpc]; rfl) rfl rfl rfl
    | returned hpc => exact h.call (by rw [hpc]; rfl) rfl rfl rfl
    | stop hpc hrunning => exact h.call (by rw [hpc]; rfl) rfl rfl rfl
    | skip hpc hrunning => exact h.call (by rw [hpc]; rfl) rfl rfl rfl
    | assignManager hpc hx => exact h.call (by rw [hpc]; rfl) rfl rfl rfl
    | assign hpc hx => exact h.call (by rw [hpc]; rfl) rfl rfl rfl
    | announce hpc hfree => exact h.callBegins hfree rfl rfl rfl
    | notify hpc => exact h.call (by rw [hpc]; rfl) rfl rfl rfl
    | join hpc hexited => exact h.call (by rw [hpc]; rfl) rfl rfl rfl
    | joinPeriodic hpc hexited => exact h.call (by rw [hpc]; rfl) rfl rfl rfl
    | test hpc => exact h.goto rfl (by split_ifs <;> nofun) rfl rfl
    | dequeue hpc hpop => exact h.goto rfl nofun rfl rfl
    | dequeueNull hpc hpop hdown => exact h.goto rfl nofun rfl rfl
    | record hpc hx => exact h.goto rfl nofun rfl rfl
    | take hpc hx hdata => exact h.goto rfl nofun rfl rfl
    | heartbeat hpc hx hdata => exact h.goto rfl (by split_ifs <;> nofun) rfl rfl
    | acknowledged hpc hx hmonitor hfree hdata => exact h.goto rfl nofun rfl rfl
    | ignore hpc hx hdata => exact h.goto rfl nofun rfl rfl
    | announceState hpc hfree => exact h.threadBegins hfree rfl rfl rfl
    | answer hpc hfree => exact h.threadBegins hfree rfl rfl rfl
    | deliver => exact absurd rfl he
    | deliveredQueue => exact absurd rfl he
    | deliveredDemand => exact absurd rfl he
    | deliveredStop => exact absurd rfl he
    | delivered => exact absurd rfl he
    | _ => exact h.frame rfl rfl rfl

/-! ### How far the tasks are stopped -/

/-- The queue thread of a task has left `run`, and if it is the monitor, so has its periodic thread. -/
def Finished (s : ShutdownSystem τ) (x : τ) : Prop :=
  s.loop x = .exited ∧ (x = s.monitor.self → s.periodic = .exited)

/-- `running` is cleared for the task that is being stopped and for those whose threads have finished;
every task and the manager is among these or still to come. -/
structure Stopped (mgr : τ) (tasks : List τ) (s : ShutdownSystem τ) : Prop where
  current : ∀ x, s.caller.current = some x → s.running x = false
  down : s.caller.notified = true → ∀ x, s.caller.current = some x → s.queueDown x = true
  joined : ∀ success x rest, s.caller = .joiningPeriodic success x rest → s.loop x = .exited
  finished : ∀ x, s.running x = false → s.caller.current = some x ∨ s.Finished x
  ahead : ∀ rest, s.caller.ahead = some rest → ∀ x ∈ mgr :: tasks, x ∈ rest ∨ s.running x = false
  registered : ∀ x ∈ tasks, (s.manager.taskStates.find? x).isSome = true

/-- Another thread goes on; those that have finished do not. -/
theorem Stopped.others (h : Stopped mgr tasks s) (hcaller : s'.caller = s.caller)
    (hrunning : s'.running = s.running) (hdown : s'.queueDown = s.queueDown)
    (hself : s'.monitor.self = s.monitor.self)
    (hloop : ∀ x, s.loop x = .exited → s'.loop x = .exited)
    (hperiodic : s.periodic = .exited → s'.periodic = .exited)
    (hregistered : ∀ x, (s.manager.taskStates.find? x).isSome = true →
      (s'.manager.taskStates.find? x).isSome = true) : Stopped mgr tasks s' := by
  constructor
  · rw [hcaller, hrunning]
    exact h.current
  · rw [hcaller, hdown]
    exact h.down
  · rw [hcaller]
    exact fun success x rest hpc => hloop x (h.joined success x rest hpc)
  · rw [hcaller, hrunning]
    intro x hx
    refine (h.finished x hx).imp_right ?_
    rintro ⟨hexited, hmonitor⟩
    exact ⟨hloop x hexited, fun hx => hperiodic (hmonitor (hx.trans hself))⟩
  · rw [hcaller, hrunning]
    exact h.ahead
  · exact fun x hx => hregistered x (h.registered x hx)

/-- A queue thread that has not finished goes on. -/
theorem Stopped.goto (h : Stopped mgr tasks s) {x : τ} {pc : LoopPc τ}
    (hloop : s'.loop = Function.update s.loop x pc) (hpc : s.loop x ≠ .exited)
    (hcaller : s'.caller = s.caller) (hrunning : s'.running = s.running)
    (hdown : s'.queueDown = s.queueDown) (hself : s'.monitor.self = s.monitor.self)
    (hperiodic : s'.periodic = s.periodic)
    (hregistered : ∀ x, (s.manager.taskStates.find? x).isSome = true →
      (s'.manager.taskStates.find? x).isSome = true) : Stopped mgr tasks s' := by
  refine h.others hcaller hrunning hdown hself ?_ ?_ hregistered
  · intro u hu
    have hux : u ≠ x := fun hux => hpc (hux ▸ hu)
    rw [hloop, Function.update_of_ne hux]
    exact hu
  · rw [hperiodic]
    exact id

/-- The caller goes on with the same task, or before it has begun to stop them. -/
theorem Stopped.call (h : Stopped mgr tasks s) (hcurrent : s'.caller.current = s.caller.current)
    (hahead : s'.caller.ahead = s.caller.ahead) (hnotified : s'.caller.notified = false)
    (hloop : s'.loop = s.loop) (hperiodic : s'.periodic = s.periodic)
    (hmonitor : s'.monitor = s.monitor) (hrunning : s'.running = s.running)
    (hstates : s'.manager.taskStates = s.manager.taskStates) : Stopped mgr tasks s' := by
  constructor
  · rw [hcurrent, hrunning]
    exact h.current
  · rw [hnotified]
    nofun
  · intro success x rest hpc
    rw [hpc] at hnotified
    cases hnotified
  · unfold Finished
    rw [hcurrent, hrunning, hloop, hperiodic, hmonitor]
    exact h.finished
  · rw [hahead, hrunning]
    exact h.ahead
  · rw [hstates]
    exact h.registered

/-- The caller begins to stop all tasks, the manager last. -/
theorem Stopped.begin (h : Stopped mgr tasks s) (hmgr : s.manager.self = mgr)
    (hcurrent : s.caller.current = none) (success : Bool) :
    Stopped mgr tasks { s with caller := .stopping success (s.recorded ++ [s.manager.self]) } := by
  refine ⟨nofun, nofun, nofun, ?_, ?_, h.registered⟩
  · intro x hx
    have hfinished := h.finished x hx
    rw [hcurrent] at hfinished
    exact hfinished
  · intro rest hrest x hx
    obtain rfl := Option.some.inj hrest
    left
    rcases List.mem_cons.mp hx with rfl | hx
    · simp [hmgr]
    · exact List.mem_append_left _ (OrdMap.mem_keys_iff.mpr (h.registered x hx))

theorem Stopped.stop (h : Stopped mgr tasks s) {success : Bool} {x : τ} {rest : List τ}
    (hpc : s.caller = .stopping success (x :: rest)) :
    Stopped mgr tasks { s with
      running := Function.update s.running x false
      caller := .assigning success x rest } := by
  refine ⟨?_, nofun, nofun, ?_, ?_, h.registered⟩
  · intro u hu
    obtain rfl := Option.some.inj hu
    exact Function.update_self ..
  · intro u hu
    by_cases hux : u = x
    · exact .inl (congrArg some hux.symm)
    · right
      simp only [Function.update_of_ne hux] at hu
      have hfinished := h.finished u hu
      rw [hpc] at hfinished
      exact hfinished.resolve_left nofun
  · intro rest' hrest u hu
    obtain rfl := Option.some.inj hrest
    by_cases hux : u = x
    · right
      rw [hux]
      exact Function.update_self ..
    · rcases h.ahead (x :: rest) (by rw [hpc]; rfl) u hu with hmem | hrunning
      · exact .inl ((List.mem_cons.mp hmem).resolve_left hux)
      · right
        simp only [Function.update_of_ne hux]
        exact hrunning

theorem Stopped.skip (h : Stopped mgr tasks s) {success : Bool} {x : τ} {rest : List τ}
    (hpc : s.caller = .stopping success (x :: rest)) (hrunning : s.running x = false) :
    Stopped mgr tasks { s with caller := .stopping success rest } := by
  refine ⟨nofun, nofun, nofun, ?_, ?_, h.registered⟩
  · intro u hu
    have hfinished := h.finished u hu
    rw [hpc] at hfinished
    exact hfinished
  · intro rest' hrest u hu
    obtain rfl := Option.some.inj hrest
    rcases h.ahead (x :: rest) (by rw [hpc]; rfl) u hu with hmem | hrunning'
    · rcases List.mem_cons.mp hmem with rfl | hmem
      · exact .inr hrunning
      · exact .inl hmem
    · exact .inr hrunning'

theorem Stopped.notify (h : Stopped mgr tasks s) {success : Bool} {x : τ} {rest : List τ}
    (hpc : s.caller = .notifying success x rest) :
    Stopped mgr tasks { s with
      queueDown := Function.update s.queueDown x true
      caller := .joining success x rest } := by
  have hcurrent := h.current
  have hfinished := h.finished
  have hahead := h.ahead
  rw [hpc] at hcurrent hfinished hahead
  refine ⟨hcurrent, ?_, nofun, hfinished, hahead, h.registered⟩
  intro _ u hu
  obtain rfl := Option.some.inj hu
  exact Function.update_self ..

theorem Stopped.join (h : Stopped mgr tasks s) {success : Bool} {x : τ} {rest : List τ}
    (hpc : s.caller = .joining success x rest) (hexited : s.loop x = .exited) :
    Stopped mgr tasks { s with caller := .joiningPeriodic success x rest } := by
  have hcurrent := h.current
  have hdown := h.down
  have hfinished := h.finished
  have hahead := h.ahead
  rw [hpc] at hcurrent hdown hfinished hahead
  refine ⟨hcurrent, hdown, ?_, hfinished, hahead, h.registered⟩
  intro success' u rest' hu
  cases hu
  exact hexited

theorem Stopped.joinPeriodic (h : Stopped mgr tasks s) {success : Bool} {x : τ} {rest : List τ}
    (hpc : s.caller = .joiningPeriodic success x rest)
    (hexited : x = s.monitor.self → s.periodic = .exited) :
    Stopped mgr tasks { s with caller := .stopping success rest } := by
  refine ⟨nofun, nofun, nofun, ?_, ?_, h.registered⟩
  · intro u hu
    rcases h.finished u hu with hcurrent | hfinished
    · rw [hpc] at hcurrent
      obtain rfl := Option.some.inj hcurrent
      exact .inr ⟨h.joined success x rest hpc, hexited⟩
    · exact .inr hfinished
  · have hahead := h.ahead
    rw [hpc] at hahead
    exact hahead

theorem isSome_recordUnresponsive (m : StateManager τ) (task x : τ)
    (h : (m.taskStates.find? x).isSome = true) :
    ((m.recordUnresponsive task).taskStates.find? x).isSome = true := by
  simp only [StateManager.recordUnresponsive, OrdMap.find?_insert]
  split_ifs
  · rfl
  · exact h

theorem isSome_processMessage (m : StateManager τ) (msg : Msg τ) (x : τ)
    (h : (m.taskStates.find? x).isSome = true) :
    ((m.processMessage msg).1.taskStates.find? x).isSome = true := by
  cases hack : m.acknowledged msg with
  | none =>
      rw [StateManager.processMessage_of_not_acknowledged hack]
      exact h
  | some p =>
      rw [StateManager.processMessage_of_acknowledged hack]
      simp only [OrdMap.find?_insert]
      split_ifs
      · rfl
      · exact h

theorem Stopped.moves (h : Stopped mgr tasks s) (hw : Wired mgr hb s) (hm : Moves subs s e s') :
    Stopped mgr tasks s' := by
  cases hm with
  | shutdown hpc => exact h.call (by rw [hpc]; rfl) (by rw [hpc]; rfl) rfl rfl rfl rfl rfl rfl
  | setTarget hpc => exact h.call (by rw [hpc]; rfl) (by rw [hpc]; rfl) rfl rfl rfl rfl rfl rfl
  | transition hpc => exact h.call (by rw [hpc]; rfl) (by rw [hpc]; rfl) rfl rfl rfl rfl rfl rfl
  | publish hpc hfree => exact h.call (by rw [hpc]; rfl) (by rw [hpc]; rfl) rfl rfl rfl rfl rfl rfl
  | check hpc => exact h.call (by rw [hpc]; rfl) (by rw [hpc]; rfl) rfl rfl rfl rfl rfl rfl
  | timeout hpc => exact h.call (by rw [hpc]; rfl) (by rw [hpc]; rfl) rfl rfl rfl rfl rfl rfl
  | succeed hpc => exact h.begin hw.manager (by rw [hpc]; rfl) true
  | pass hpc ht => exact h.call (by rw [hpc]; rfl) (by rw [hpc]; rfl) rfl rfl rfl rfl rfl rfl
  | giveUp hpc ht => exact h.begin hw.manager (by rw [hpc]; rfl) false
  | waitAgain hpc ht => exact h.call (by rw [hpc]; rfl) (by rw [hpc]; rfl) rfl rfl rfl rfl rfl rfl
  | returned hpc => exact h.call (by rw [hpc]; rfl) (by rw [hpc]; rfl) rfl rfl rfl rfl rfl rfl
  | stop hpc hrunning => exact h.stop hpc
  | skip hpc hrunning => exact h.skip hpc (Bool.eq_false_of_not_eq_true hrunning)
  | assignManager hpc hx =>
      exact h.call (by rw [hpc]; rfl) (by rw [hpc]; rfl) rfl rfl rfl rfl rfl rfl
  | assign hpc hx => exact h.call (by rw [hpc]; rfl) (by rw [hpc]; rfl) rfl rfl rfl rfl rfl rfl
  | announce hpc hfree => exact h.call (by rw [hpc]; rfl) (by rw [hpc]; rfl) rfl rfl rfl rfl rfl rfl
  | notify hpc => exact h.notify hpc
  | join hpc hexited => exact h.join hpc hexited
  | joinPeriodic hpc hexited => exact h.joinPeriodic hpc hexited
  | test hpc => exact h.goto rfl (by rw [hpc]; nofun) rfl rfl rfl rfl rfl (fun _ => id)
  | dequeue hpc hpop => exact h.goto rfl (by rw [hpc]; nofun) rfl rfl rfl rfl rfl (fun _ => id)
  | dequeueNull hpc hpop hdown =>
      exact h.goto rfl (by rw [hpc]; nofun) rfl rfl rfl rfl rfl (fun _ => id)
  | record hpc hx =>
      exact h.goto rfl (by rw [hpc]; nofun) rfl rfl rfl rfl rfl (isSome_processMessage s.manager _)
  | take hpc hx hdata => exact h.goto rfl (by rw [hpc]; nofun) rfl rfl rfl rfl rfl (fun _ => id)
  | heartbeat hpc hx hdata => exact h.goto rfl (by rw [hpc]; nofun) rfl rfl rfl rfl rfl (fun _ => id)
  | acknowledged hpc hx hmonitor hfree hdata =>
      exact h.goto rfl (by rw [hpc]; nofun) rfl rfl rfl rfl rfl (fun _ => id)
  | ignore hpc hx hdata => exact h.goto rfl (by rw [hpc]; nofun) rfl rfl rfl rfl rfl (fun _ => id)
  | announceState hpc hfree =>
      exact h.goto rfl (by rw [hpc]; nofun) rfl rfl rfl rfl rfl (fun _ => id)
  | answer hpc hfree => exact h.goto rfl (by rw [hpc]; nofun) rfl rfl rfl rfl rfl (fun _ => id)
  | overdueAlone hpc hstatus hoverdue hmanager =>
      exact h.others rfl rfl rfl (clearAwaiting_frame s.monitor _).1 (fun _ => id) (by simp [hpc])
        (fun _ => id)
  | mark hpc hfree =>
      exact h.others rfl rfl rfl (clearAwaiting_frame s.monitor _).1 (fun _ => id) (by simp [hpc])
        (isSome_recordUnresponsive s.manager _)
  | deliver hsub => exact h.others rfl rfl rfl rfl (fun _ => id) id (fun _ => id)
  | deliveredQueue hsub =>
      refine h.goto rfl ?_ rfl rfl rfl rfl rfl (fun _ => id)
      rw [hw.publishes _ _ _ hsub]
      nofun
  | deliveredDemand hsub hpc =>
      exact h.call (by rw [hpc]; rfl) (by rw [hpc]; rfl) rfl rfl rfl rfl rfl rfl
  | deliveredStop hsub hpc =>
      exact h.call (by rw [hpc]; rfl) (by rw [hpc]; rfl) rfl rfl rfl rfl rfl rfl
  | delivered hsub => exact h.others rfl rfl rfl rfl (fun _ => id) id (fun _ => id)
  | periodicTest hpc => exact h.others rfl rfl rfl rfl (fun _ => id) (by simp [hpc]) (fun _ => id)
  | lockCheck hpc => exact h.others rfl rfl rfl rfl (fun _ => id) (by simp [hpc]) (fun _ => id)
  | checkedAll hpc => exact h.others rfl rfl rfl rfl (fun _ => id) (by simp [hpc]) (fun _ => id)
  | checkedTask hpc hintime =>
      exact h.others rfl rfl rfl rfl (fun _ => id) (by simp [hpc]) (fun _ => id)
  | overdue hpc hstatus hoverdue hmanager =>
      exact h.others rfl rfl rfl rfl (fun _ => id) (by simp [hpc]) (fun _ => id)
  | goOn hpc => exact h.others rfl rfl rfl rfl (fun _ => id) (by simp [hpc]) (fun _ => id)
  | sentAll hpc => exact h.others rfl rfl rfl rfl (fun _ => id) (by simp [hpc]) (fun _ => id)
  | passOver hpc hawaited => exact h.others rfl rfl rfl rfl (fun _ => id) (by simp [hpc]) (fun _ => id)
  | send hpc hstatus hfree => exact h.others rfl rfl rfl rfl (fun _ => id) (by simp [hpc]) (fun _ => id)
  | wake hpc => exact h.others rfl rfl rfl rfl (fun _ => id) (by simp [hpc]) (fun _ => id)

/-! ### How many messages are to come -/

/-- A broadcast in progress has at most `copies` messages for each task, and the loops of the monitor
come to each task once. -/
structure Narrow (copies : ℕ) (s : ShutdownSystem τ) : Prop where
  broadcast : ∀ p msg rest, s.sub = some ⟨p, msg, rest⟩ → ∀ x, rest.count x ≤ copies
  visits : s.periodic.rest.Nodup

theorem Narrow.frame {copies : ℕ} (h : Narrow copies s) (hsub : s'.sub = s.sub)
    (hperiodic : s'.periodic = s.periodic) : Narrow copies s' := by
  constructor
  · rw [hsub]
    exact h.broadcast
  · rw [hperiodic]
    exact h.visits

/-- A broadcast begins. -/
theorem Narrow.begins {copies : ℕ} (h : Narrow copies s) {p : Option τ} {msg : Msg τ} {rest : List τ}
    (hcopies : ∀ x, rest.count x ≤ copies) (hsub : s'.sub = some ⟨p, msg, rest⟩)
    (hperiodic : s'.periodic = s.periodic) : Narrow copies s' := by
  constructor
  · rw [hsub]
    rintro p' msg' rest' ⟨⟩
    exact hcopies
  · rw [hperiodic]
    exact h.visits

theorem Narrow.ends {copies : ℕ} (h : Narrow copies s) (hsub : s'.sub = none)
    (hperiodic : s'.periodic = s.periodic) : Narrow copies s' := by
  constructor
  · rw [hsub]
    nofun
  · rw [hperiodic]
    exact h.visits

/-- The periodic thread goes on. -/
theorem Narrow.periodic {copies : ℕ} (h : Narrow copies s) (hsub : s'.sub = s.sub)
    (hvisits : s'.periodic.rest.Nodup) : Narrow copies s' := by
  constructor
  · rw [hsub]
    exact h.broadcast
  · exact hvisits

theorem Narrow.moves {copies : ℕ} (hsubs : ∀ type x, (subs type).count x ≤ copies)
    (h : Narrow copies s) (hm : Moves subs s e s') : Narrow copies s' := by
  have hvisits := h.visits
  have hmonitored : s.monitored.Nodup := s.monitor.monitoredTasks.keys_nodup
  cases hm with
  | publish hpc hfree => exact h.begins (hsubs _) rfl rfl
  | announce hpc hfree => exact h.begins (hsubs _) rfl rfl
  | announceState hpc hfree => exact h.begins (hsubs _) rfl rfl
  | answer hpc hfree => exact h.begins (hsubs _) rfl rfl
  | deliver hsub =>
      refine h.begins (fun x => ?_) rfl rfl
      exact (List.count_le_count_cons ..).trans (h.broadcast _ _ _ hsub x)
  | deliveredQueue hsub => exact h.ends rfl rfl
  | deliveredDemand hsub hpc => exact h.ends rfl rfl
  | deliveredStop hsub hpc => exact h.ends rfl rfl
  | delivered hsub => exact h.ends rfl rfl
  | periodicTest hpc =>
      refine h.periodic rfl ?_
      split_ifs
      · exact List.nodup_nil
      · exact List.nodup_nil
  | lockCheck hpc => exact h.periodic rfl hmonitored
  | checkedAll hpc => exact h.periodic rfl List.nodup_nil
  | checkedTask hpc hintime =>
      rw [hpc] at hvisits
      exact h.periodic rfl (List.nodup_cons.mp hvisits).2
  | overdue hpc hstatus hoverdue hmanager =>
      rw [hpc] at hvisits
      exact h.periodic rfl (List.nodup_cons.mp hvisits).2
  | overdueAlone hpc hstatus hoverdue hmanager =>
      rw [hpc] at hvisits
      exact h.periodic rfl (List.nodup_cons.mp hvisits).2
  | mark hpc hfree =>
      rw [hpc] at hvisits
      exact h.periodic rfl hvisits
  | goOn hpc =>
      refine h.periodic rfl ?_
      split_ifs
      · exact hmonitored
      · exact List.nodup_nil
  | sentAll hpc => exact h.periodic rfl List.nodup_nil
  | passOver hpc hawaited =>
      rw [hpc] at hvisits
      exact h.periodic rfl (List.nodup_cons.mp hvisits).2
  | send hpc hstatus hfree =>
      rw [hpc] at hvisits
      exact h.periodic rfl (List.nodup_cons.mp hvisits).2
  | wake hpc => exact h.periodic rfl List.nodup_nil
  | _ => exact h.frame rfl rfl

/-- What holds in every reachable state, if a task subscribes at most `copies` times to a type. -/
structure Orderly (subs : MsgType → List τ) (copies : ℕ) (mgr hb : τ) (tasks : List τ)
    (s : ShutdownSystem τ) : Prop where
  subscribed : ∀ type x, (subs type).count x ≤ copies
  wired : Wired mgr hb s
  publishing : Publishing s
  stopped : Stopped mgr tasks s
  narrow : Narrow copies s

variable {copies : ℕ}

theorem Orderly.next (h : Orderly subs copies mgr hb tasks s) (hs : s.step subs e = some s') :
    Orderly subs copies mgr hb tasks s' where
  subscribed := h.subscribed
  wired := moves_wired h.wired (step_moves hs)
  publishing := h.publishing.step hs
  stopped := h.stopped.moves h.wired (step_moves hs)
  narrow := h.narrow.moves h.subscribed (step_moves hs)

theorem Orderly.reaches (h : Orderly subs copies mgr hb tasks s) (hs : Reaches (step subs) s s') :
    Orderly subs copies mgr hb tasks s' :=
  hs.invariant (fun _ _ _ h he => h.next he) h

theorem isSome_foldl_insert (state : TaskState) (x : τ) :
    ∀ (tasks : List τ) (m : OrdMap τ TaskState), x ∈ tasks ∨ (m.find? x).isSome = true →
      ((tasks.foldl (fun m t => m.insert t state) m).find? x).isSome = true
  | [], m, h => h.resolve_left List.not_mem_nil
  | t :: tasks, m, h => by
      apply isSome_foldl_insert state x tasks
      rw [OrdMap.find?_insert]
      by_cases hxt : x = t
      · simp [hxt]
      · rw [if_neg hxt]
        exact h.imp_left (fun hmem => (List.mem_cons.mp hmem).resolve_left hxt)

theorem started_orderly (hsubs : ∀ type x, (subs type).count x ≤ copies) (mgr hb : τ)
    (tasks : List τ) (responseTimeoutMs : ℤ) :
    Orderly subs copies mgr hb tasks (started mgr hb tasks responseTimeoutMs) where
  subscribed := hsubs
  wired := started_wired mgr hb tasks responseTimeoutMs
  publishing := ⟨nofun, nofun, nofun⟩
  stopped := by
    refine ⟨nofun, nofun, nofun, nofun, nofun, ?_⟩
    intro x hx
    exact isSome_foldl_insert .running x tasks .empty (.inl hx)
  narrow := ⟨nofun, List.nodup_nil⟩

/-! ### The threads the caller waits for -/

/-- A broadcast gets to its last subscriber. -/
theorem spreads_out (subs : MsgType → List τ) {p : Option τ} {msg : Msg τ} :
    ∀ {rest : List τ} {s : ShutdownSystem τ}, s.sub = some ⟨p, msg, rest⟩ →
      ∃ queue, Leads subs (fun x => rest.count x) s
        { s with queue := queue, sub := some ⟨p, msg, []⟩ }
  | [], s, hsub => by
      refine ⟨s.queue, ?_⟩
      rw [← hsub]
      exact Leads.refl _ s
  | y :: rest, s, hsub => by
      have hstep : step subs s .deliver =
          some { s.deliverMessage y msg with sub := some ⟨p, msg, rest⟩ } := by
        simp [step, deliverStep, hsub]
      obtain ⟨queue, hlater⟩ := spreads_out subs (s := { s.deliverMessage y msg with
        sub := some ⟨p, msg, rest⟩ }) rfl
      have hfirst : Leads subs (fun x => if y = x then 1 else 0) s
          { s.deliverMessage y msg with sub := some ⟨p, msg, rest⟩ } :=
        ReachesWithin.single hstep (fun x => (load_append s.queue x y msg).le)
      refine ⟨queue, hfirst.trans hlater (fun x => ?_)⟩
      rw [List.count_cons]
      simp only [beq_iff_eq]
      omega

/-- The broadcast of a queue thread ends. -/
theorem ends_of_thread (h : Orderly subs copies mgr hb tasks s) {x : τ} {msg : Msg τ}
    {rest : List τ} (hsub : s.sub = some ⟨some x, msg, rest⟩) :
    ∃ queue, Leads subs (fun _ => copies) s { s with
      queue := queue
      sub := none
      loop := Function.update s.loop x .testing } := by
  obtain ⟨queue, hspread⟩ := spreads_out subs hsub
  have hstep : step subs { s with queue := queue, sub := some ⟨some x, msg, []⟩ } .deliver =
      some { s with queue := queue, sub := none, loop := Function.update s.loop x .testing } := rfl
  exact ⟨queue, hspread.trans (Leads.step hstep rfl (fun _ => 0)) (h.narrow.broadcast _ _ _ hsub)⟩

/-- As long as the caller does not publish itself, `sub_mutex` becomes free without its help. -/
theorem frees (h : Orderly subs copies mgr hb tasks s) (hpc : s.caller.broadcasts = false) :
    ∃ queue loop, Leads subs (fun _ => copies) s
        { s with queue := queue, loop := loop, sub := none } ∧
      ∀ x, s.loop x ≠ .publishing → loop x = s.loop x := by
  cases hsub : s.sub with
  | none =>
      refine ⟨s.queue, s.loop, ?_, fun _ _ => rfl⟩
      rw [← hsub]
      exact Leads.refl _ s
  | some d =>
      obtain ⟨p, msg, rest⟩ := d
      cases p with
      | none =>
          rw [h.publishing.nobody msg rest hsub] at hpc
          cases hpc
      | some y =>
          obtain ⟨queue, hends⟩ := ends_of_thread h hsub
          refine ⟨queue, _, hends, fun x hx => ?_⟩
          have hxy : x ≠ y := fun hxy => hx (hxy ▸ h.wired.publishes y msg rest hsub)
          exact Function.update_of_ne hxy ..

/-- The queue thread of `x` leaves `run` without the help of the caller, and no queue grows by more
than `n` messages before. -/
def Exits (subs : MsgType → List τ) (n : ℕ) (x : τ) (s : ShutdownSystem τ) : Prop :=
  ∃ s', Leads subs (fun _ => n) s s' ∧ s'.loop x = .exited ∧ s'.caller = s.caller

section exits

variable {x : τ} {n m k : ℕ}

theorem Exits.of_leads {s₁ : ShutdownSystem τ} (h : Exits subs m x s₁)
    (hs : Leads subs (fun _ => k) s s₁) (hcaller : s₁.caller = s.caller) (hle : k + m ≤ n) :
    Exits subs n x s := by
  obtain ⟨s', hleads, hexited, hcaller'⟩ := h
  exact ⟨s', hs.trans hleads (fun _ => hle), hexited, hcaller'.trans hcaller⟩

/-- A step that enqueues nothing. -/
theorem Exits.of_step {s₁ : ShutdownSystem τ} (h : Exits subs n x s₁) (hs : s.step subs e = some s₁)
    (hqueue : ∀ y, s₁.load y ≤ s.load y) (hcaller : s₁.caller = s.caller) : Exits subs n x s :=
  h.of_leads (k := 0) (ReachesWithin.single hs hqueue) hcaller (Nat.zero_add n).le

theorem exits_testing (hrunning : s.running x = false) (hpc : s.loop x = .testing) :
    Exits subs 0 x s := by
  have hstep : step subs s (.queueThread x 0) =
      some { s with loop := Function.update s.loop x .exited } := by
    simp [step, queueStep, hpc, hrunning]
  exact ⟨_, Leads.step hstep rfl _, Function.update_self .., rfl⟩

theorem exits_publishing (h : Orderly subs copies mgr hb tasks s) (hrunning : s.running x = false)
    {msg : Msg τ} {rest : List τ} (hsub : s.sub = some ⟨some x, msg, rest⟩) :
    Exits subs copies x s := by
  obtain ⟨queue, hends⟩ := ends_of_thread h hsub
  refine Exits.of_leads ?_ hends rfl (Nat.add_zero copies).le
  exact exits_testing hrunning (Function.update_self ..)

/-- A queue thread that is about to publish waits for `sub_mutex` first. -/
theorem exits_about_to_publish (h : Orderly subs copies mgr hb tasks s)
    (hcaller : s.caller.broadcasts = false) (hrunning : s.running x = false)
    (hpc : s.loop x = .announcing ∨ ∃ m, s.loop x = .answering m) :
    Exits subs (2 * copies) x s := by
  obtain ⟨queue, loop, hfrees, hloop⟩ := frees h hcaller
  have hfree := h.reaches hfrees.reaches
  refine Exits.of_leads (m := copies) ?_ hfrees rfl (by omega)
  rcases hpc with hpc | ⟨m, hpc⟩
  · have hx : loop x = .announcing := by rw [hloop x (by simp [hpc]), hpc]
    have hstep : step subs { s with queue := queue, loop := loop, sub := none } (.queueThread x 0) =
        some { s with
          queue := queue
          sub := some ⟨some x, ackMsg x (s.currentState x), subs .stateAckMsg⟩
          loop := Function.update loop x .publishing } := by
      simp [step, queueStep, hx]
    refine Exits.of_step ?_ hstep (fun _ => le_rfl) rfl
    exact exits_publishing (hfree.next hstep) hrunning rfl
  · have hx : loop x = .answering m := by rw [hloop x (by simp [hpc]), hpc]
    have hstep : step subs { s with queue := queue, loop := loop, sub := none } (.queueThread x 0) =
        some { s with
          queue := queue
          sub := some ⟨some x, ⟨some x, .heartbeatAckMsg
            ⟨m.uniqueId, m.timestamp, UInt64.ofInt (toMilliseconds 0)⟩⟩, subs .heartbeatAckMsg⟩
          loop := Function.update loop x .publishing } := by
      simp [step, queueStep, hx]
    refine Exits.of_step ?_ hstep (fun _ => le_rfl) rfl
    exact exits_publishing (hfree.next hstep) hrunning rfl

end exits

/-! ### The periodic thread -/

/-- What a step of the periodic thread leaves alone. -/
structure Beside (s s' : ShutdownSystem τ) : Prop where
  loop : s'.loop = s.loop
  caller : s'.caller = s.caller
  running : s'.running = s.running
  monitor : s'.monitor.self = s.monitor.self
  manager : s'.manager.self = s.manager.self

theorem Beside.refl (s : ShutdownSystem τ) : Beside s s := ⟨rfl, rfl, rfl, rfl, rfl⟩

theorem Beside.trans {s₁ s₂ : ShutdownSystem τ} (h : Beside s s₁) (h' : Beside s₁ s₂) : Beside s s₂ :=
  ⟨h'.loop.trans h.loop, h'.caller.trans h.caller, h'.running.trans h.running,
    h'.monitor.trans h.monitor, h'.manager.trans h.manager⟩

/-- The periodic thread gets to a point where `P` holds, and disturbs nobody; the queue of a task `x`
does not grow by more than `n x` messages on the way. -/
def Gets (subs : MsgType → List τ) (n : τ → ℕ) (P : MonitorPc τ → Prop) (s : ShutdownSystem τ) :
    Prop :=
  ∃ s', Leads subs n s s' ∧ P s'.periodic ∧ Beside s s'

section periodic

variable {n m k : τ → ℕ} {P Q : MonitorPc τ → Prop}

theorem Gets.mono (h : Gets subs n P s) (hle : ∀ x, n x ≤ k x) : Gets subs k P s := by
  obtain ⟨s', hleads, hP, hb⟩ := h
  exact ⟨s', hleads.mono hle, hP, hb⟩

/-- The thread enqueues a message for one task. -/
theorem Gets.of_enqueue {s₁ : ShutdownSystem τ} {task : τ} (h : Gets subs n P s₁)
    (hs : s.periodicStep 0 = some s₁) (hload : ∀ x, s₁.load x = s.load x + if task = x then 1 else 0)
    (hb : Beside s s₁) : Gets subs (fun x => n x + if task = x then 1 else 0) P s := by
  obtain ⟨s', hleads, hP, hb'⟩ := h
  have hstep : step subs s (.periodicThread 0) = some s₁ := hs
  have hfirst : Leads subs (fun x => if task = x then 1 else 0) s s₁ :=
    ReachesWithin.single hstep (fun x => (hload x).le)
  exact ⟨s', hfirst.trans hleads (fun x => (Nat.add_comm _ _).le), hP, hb.trans hb'⟩

/-- The thread enqueues nothing. -/
theorem Gets.of_step {s₁ : ShutdownSystem τ} (h : Gets subs n P s₁)
    (hs : s.periodicStep 0 = some s₁) (hqueue : s₁.queue = s.queue) (hb : Beside s s₁) :
    Gets subs n P s := by
  obtain ⟨s', hleads, hP, hb'⟩ := h
  have hstep : step subs s (.periodicThread 0) = some s₁ := hs
  exact ⟨s', (Leads.step hstep hqueue (fun _ => 0)).trans hleads (fun x => (Nat.zero_add _).le), hP,
    hb.trans hb'⟩

theorem Gets.bind (h : Gets subs n P s) (hQ : ∀ s₁, P s₁.periodic → Beside s s₁ → Gets subs m Q s₁)
    (hle : ∀ x, n x + m x ≤ k x) : Gets subs k Q s := by
  obtain ⟨s₁, hleads, hP, hb⟩ := h
  obtain ⟨s', hleads', hQ', hb'⟩ := hQ s₁ hP hb
  exact ⟨s', hleads.trans hleads' hle, hQ', hb.trans hb'⟩

omit [LinearOrder τ] in
theorem count_cons_eq [DecidableEq τ] (task x : τ) (rest : List τ) :
    rest.count x + (if task = x then 1 else 0) = (task :: rest).count x := by
  rw [List.count_cons]
  simp only [beq_iff_eq]

/-- The loop of `check_for_timeouts` ends, if `state_mutex` is free for the marks. -/
theorem gets_checked (subs : MsgType → List τ) {reading : ℤ} : ∀ {rest : List τ} {s : ShutdownSystem τ},
    s.caller.ownsState = false → s.periodic = .checking reading rest →
      Gets subs (fun x => rest.count x) (· = .checked) s
  | [], s, _, hpc => by
      have hdone : Gets subs (fun _ => 0) (· = .checked) { s with periodic := .checked } :=
        ⟨_, Leads.refl _ _, rfl, Beside.refl _⟩
      refine hdone.of_step ?_ rfl ⟨rfl, rfl, rfl, rfl, rfl⟩
      simp [periodicStep, hpc]
  | task :: rest, s, hfree, hpc => by
      have hmore : ∀ x, rest.count x ≤ (task :: rest).count x := fun x => List.count_le_count_cons ..
      have hrest := gets_checked subs (s := { s with periodic := .checking reading rest }) hfree rfl
      cases hstatus : s.monitor.monitoredTasks.find? task with
      | none =>
          refine Gets.mono (hrest.of_step ?_ rfl ⟨rfl, rfl, rfl, rfl, rfl⟩) hmore
          simp [periodicStep, hpc, hstatus]
      | some status =>
          have hclear := (clearAwaiting_frame s.monitor task).1
          by_cases hover : s.monitor.overdue reading status = true
          · by_cases hmanager : s.monitor.stateManager = true
            · -- the mark is recorded before the next task is looked at
              have hmarked := gets_checked subs (s :=
                { s.deliverMessage task s.manager.unresponsiveMsg with
                  manager := s.manager.recordUnresponsive task
                  monitor := LiveSystem.clearAwaiting s.monitor task
                  periodic := .checking reading rest }) hfree rfl
              have hmarking : Gets subs (fun x => rest.count x) (· = .checked)
                  { s.deliverMessage task s.manager.unresponsiveMsg with
                    periodic := .marking reading task rest } := by
                refine hmarked.of_step ?_ rfl ⟨rfl, rfl, rfl, hclear, rfl⟩
                simp [periodicStep, deliverMessage, hfree]
              simp only [← count_cons_eq]
              refine hmarking.of_enqueue ?_ (fun x => load_append s.queue x task _)
                ⟨rfl, rfl, rfl, rfl, rfl⟩
              simp [periodicStep, hpc, hstatus, hover, hmanager]
            · have hcleared := gets_checked subs (s := { s with
                monitor := LiveSystem.clearAwaiting s.monitor task
                periodic := .checking reading rest }) hfree rfl
              refine Gets.mono (hcleared.of_step ?_ rfl ⟨rfl, rfl, rfl, hclear, rfl⟩) hmore
              simp [periodicStep, hpc, hstatus, hover, hmanager]
          · refine Gets.mono (hrest.of_step ?_ rfl ⟨rfl, rfl, rfl, rfl, rfl⟩) hmore
            simp [periodicStep, hpc, hstatus, hover]

theorem gets_checked_of_marking (subs : MsgType → List τ) (hfree : s.caller.ownsState = false)
    {reading : ℤ} {task : τ} {rest : List τ} (hpc : s.periodic = .marking reading task rest) :
    Gets subs (fun x => rest.count x) (· = .checked) s := by
  have hmarked := gets_checked subs (s := { s with
    manager := s.manager.recordUnresponsive task
    monitor := LiveSystem.clearAwaiting s.monitor task
    periodic := .checking reading rest }) hfree rfl
  refine hmarked.of_step ?_ rfl ⟨rfl, rfl, rfl, (clearAwaiting_frame s.monitor task).1, rfl⟩
  simp [periodicStep, hpc, hfree]

/-- The loop of `send_heartbeat` ends. -/
theorem gets_sleeping (subs : MsgType → List τ) : ∀ {rest : List τ} {s : ShutdownSystem τ},
    s.periodic = .sending rest → Gets subs (fun x => rest.count x) (· = .sleeping) s
  | [], s, hpc => by
      have hdone : Gets subs (fun _ => 0) (· = .sleeping) { s with periodic := .sleeping } :=
        ⟨_, Leads.refl _ _, rfl, Beside.refl _⟩
      refine hdone.of_step ?_ rfl ⟨rfl, rfl, rfl, rfl, rfl⟩
      simp [periodicStep, hpc]
  | task :: rest, s, hpc => by
      have hmore : ∀ x, rest.count x ≤ (task :: rest).count x := fun x => List.count_le_count_cons ..
      have hrest := gets_sleeping subs (s := { s with periodic := .sending rest }) rfl
      cases hstatus : s.monitor.monitoredTasks.find? task with
      | none =>
          refine Gets.mono (hrest.of_step ?_ rfl ⟨rfl, rfl, rfl, rfl, rfl⟩) hmore
          simp [periodicStep, hpc, hstatus]
      | some status =>
          by_cases hawaited : status.awaitingResponse = true
          · refine Gets.mono (hrest.of_step ?_ rfl ⟨rfl, rfl, rfl, rfl, rfl⟩) hmore
            simp [periodicStep, hpc, hstatus, hawaited]
          · simp only [← count_cons_eq]
            refine (gets_sleeping subs (s := { s.sendTo task status 0 with periodic := .sending rest })
              rfl).of_enqueue ?_ (fun x => load_append s.queue x task _) ⟨rfl, rfl, rfl, rfl, rfl⟩
            simp [periodicStep, hpc, hstatus, hawaited]

/-- Each task gets one message at most from a loop of the monitor. -/
theorem Gets.once {rest : List τ} (h : Gets subs (fun x => rest.count x) P s) (hrest : rest.Nodup) :
    Gets subs (fun _ => 1) P s :=
  h.mono (fun x => List.nodup_iff_count_le_one.mp hrest x)

/-- `tasks_mutex` becomes free. -/
theorem releases (subs : MsgType → List τ) (hfree : s.caller.ownsState = false)
    (hvisits : s.periodic.rest.Nodup) :
    Gets subs (fun _ => 1) (fun pc => pc.ownsTasks = false) s := by
  cases hpc : s.periodic with
  | checking reading rest =>
      rw [hpc] at hvisits
      obtain ⟨s', hleads, hchecked, hb⟩ := (gets_checked subs hfree hpc).once hvisits
      exact ⟨s', hleads, by rw [hchecked]; rfl, hb⟩
  | marking reading task rest =>
      rw [hpc] at hvisits
      obtain ⟨s', hleads, hchecked, hb⟩ := (gets_checked_of_marking subs hfree hpc).once hvisits
      exact ⟨s', hleads, by rw [hchecked]; rfl, hb⟩
  | sending rest =>
      rw [hpc] at hvisits
      obtain ⟨s', hleads, hsleeping, hb⟩ := (gets_sleeping subs hpc).once hvisits
      exact ⟨s', hleads, by rw [hsleeping]; rfl, hb⟩
  | _ => exact ⟨s, Leads.refl _ s, by rw [hpc]; rfl, Beside.refl s⟩

theorem exits_of_testing (hrunning : s.running s.monitor.self = false) (hpc : s.periodic = .testing) :
    Gets subs (fun _ => 0) (· = .exited) s := by
  have hdone : Gets subs (fun _ => 0) (· = .exited) { s with periodic := .exited } :=
    ⟨_, Leads.refl _ _, rfl, Beside.refl _⟩
  refine hdone.of_step ?_ rfl ⟨rfl, rfl, rfl, rfl, rfl⟩
  simp [periodicStep, hpc, hrunning]

theorem exits_of_sleeping (hrunning : s.running s.monitor.self = false) (hpc : s.periodic = .sleeping) :
    Gets subs (fun _ => 0) (· = .exited) s := by
  refine (exits_of_testing (s := { s with periodic := .testing }) hrunning rfl).of_step ?_ rfl
    ⟨rfl, rfl, rfl, rfl, rfl⟩
  simp [periodicStep, hpc]

theorem Beside.stays (hb : Beside s s') (hrunning : s.running s.monitor.self = false) :
    s'.running s'.monitor.self = false := by
  rw [hb.running, hb.monitor]
  exact hrunning

theorem exits_of_sending (hrunning : s.running s.monitor.self = false) {rest : List τ}
    (hpc : s.periodic = .sending rest) (hrest : rest.Nodup) :
    Gets subs (fun _ => 1) (· = .exited) s :=
  ((gets_sleeping subs hpc).once hrest).bind
    (fun _ hsleeping hb => exits_of_sleeping (hb.stays hrunning) hsleeping) (fun _ => le_rfl)

theorem exits_of_checked (hrunning : s.running s.monitor.self = false) (hpc : s.periodic = .checked) :
    Gets subs (fun _ => 1) (· = .exited) s := by
  by_cases hstate : s.currentState s.monitor.self = .running
  · have hsending : Gets subs (fun _ => 1) (· = .exited) { s with periodic := .sending s.monitored } :=
      exits_of_sending hrunning rfl s.monitor.monitoredTasks.keys_nodup
    refine hsending.of_step ?_ rfl ⟨rfl, rfl, rfl, rfl, rfl⟩
    simp [periodicStep, hpc, hstate]
  · have hsleeping : Gets subs (fun _ => 0) (· = .exited) { s with periodic := .sleeping } :=
      exits_of_sleeping hrunning rfl
    refine Gets.mono (hsleeping.of_step ?_ rfl ⟨rfl, rfl, rfl, rfl, rfl⟩) (fun _ => Nat.zero_le 1)
    simp [periodicStep, hpc, hstate]

/-- The check is finished before the thread looks at `running` again. -/
theorem Gets.then_exits (h : Gets subs (fun _ => 1) (· = .checked) s)
    (hrunning : s.running s.monitor.self = false) : Gets subs (fun _ => 2) (· = .exited) s :=
  h.bind (fun _ hchecked hb => exits_of_checked (hb.stays hrunning) hchecked) (fun _ => le_rfl)

/-- Once the monitor is stopped, its periodic thread finishes. -/
theorem periodic_exits (subs : MsgType → List τ) (hfree : s.caller.ownsState = false)
    (hrunning : s.running s.monitor.self = false) (hvisits : s.periodic.rest.Nodup) :
    Gets subs (fun _ => 2) (· = .exited) s := by
  cases hpc : s.periodic with
  | testing => exact (exits_of_testing hrunning hpc).mono (fun _ => Nat.zero_le 2)
  | lockCheck =>
      have hchecking := ((gets_checked subs (s := { s with
        periodic := .checking 0 s.monitored }) hfree rfl).once
          s.monitor.monitoredTasks.keys_nodup).then_exits hrunning
      refine hchecking.of_step ?_ rfl ⟨rfl, rfl, rfl, rfl, rfl⟩
      simp [periodicStep, hpc]
  | checking reading rest =>
      rw [hpc] at hvisits
      exact ((gets_checked subs hfree hpc).once hvisits).then_exits hrunning
  | marking reading task rest =>
      rw [hpc] at hvisits
      exact ((gets_checked_of_marking subs hfree hpc).once hvisits).then_exits hrunning
  | checked => exact (exits_of_checked hrunning hpc).mono (fun _ => Nat.le_succ 1)
  | sending rest =>
      rw [hpc] at hvisits
      exact (exits_of_sending hrunning hpc hvisits).mono (fun _ => Nat.le_succ 1)
  | sleeping => exact (exits_of_sleeping hrunning hpc).mono (fun _ => Nat.zero_le 2)
  | exited => exact ⟨s, Leads.refl _ s, hpc, Beside.refl s⟩

end periodic

/-! ### The queue thread of a task that is stopped -/

section stopped

variable {x : τ}

/-- Only the monitor's queue thread waits for a mutex before it handles a message. -/
theorem handleStep_of_free (hfree : s.periodic.ownsTasks = false) (msg : Msg τ) :
    ∃ s₁, s.handleStep x msg 0 = some s₁ := by
  unfold handleStep
  simp only [hfree]
  split
  · exact ⟨_, rfl⟩
  · split
    · exact ⟨_, rfl⟩
    · exact ⟨_, rfl⟩
    · split
      · exact ⟨_, rfl⟩
      · exact ⟨_, rfl⟩
    · exact ⟨_, rfl⟩

/-- After a message the thread tests `running` again or publishes an acknowledgment. -/
theorem handleStep_goes {msg : Msg τ} {s₁ : ShutdownSystem τ} (hs : s.handleStep x msg 0 = some s₁) :
    s₁.caller = s.caller ∧ s₁.running = s.running ∧ s₁.queue = s.queue ∧
      (s₁.loop x = .testing ∨ s₁.loop x = .announcing ∨ ∃ m, s₁.loop x = .answering m) := by
  unfold handleStep at hs
  simp only at hs
  split at hs
  · obtain rfl := Option.some.inj hs
    exact ⟨rfl, rfl, rfl, .inl (Function.update_self ..)⟩
  · split at hs
    · obtain rfl := Option.some.inj hs
      exact ⟨rfl, rfl, rfl, .inr (.inl (Function.update_self ..))⟩
    · rename_i m _
      obtain rfl := Option.some.inj hs
      refine ⟨rfl, rfl, rfl, ?_⟩
      simp only [Function.update_self]
      split_ifs
      · exact .inl rfl
      · exact .inr (.inr ⟨m, rfl⟩)
    · split at hs
      · split at hs
        · cases hs
        · obtain rfl := Option.some.inj hs
          exact ⟨rfl, rfl, rfl, .inl (Function.update_self ..)⟩
      · obtain rfl := Option.some.inj hs
        exact ⟨rfl, rfl, rfl, .inl (Function.update_self ..)⟩
    · obtain rfl := Option.some.inj hs
      exact ⟨rfl, rfl, rfl, .inl (Function.update_self ..)⟩

theorem exits_handling (h : Orderly subs copies mgr hb tasks s) (hcaller : s.caller.broadcasts = false)
    (hstate : s.caller.ownsState = false) (hrunning : s.running x = false) {msg : Msg τ}
    (hpc : s.loop x = .handling msg) : Exits subs (2 * copies + 1) x s := by
  -- the periodic thread may own `tasks_mutex`
  obtain ⟨s₁, hreleases, hfree, hbeside⟩ := releases subs hstate h.narrow.visits
  refine Exits.of_leads (m := 2 * copies) ?_ hreleases hbeside.caller (by omega)
  have hpc₁ : s₁.loop x = .handling msg := by rw [hbeside.loop, hpc]
  obtain ⟨s₂, hs₂⟩ := handleStep_of_free (x := x) hfree msg
  have hstep : step subs s₁ (.queueThread x 0) = some s₂ := by
    simpa only [step, queueStep, hpc₁] using hs₂
  obtain ⟨hcaller', hrunning', hqueue, hgoes⟩ := handleStep_goes hs₂
  refine Exits.of_step ?_ hstep (fun y => by simp only [load, hqueue]; exact le_rfl) hcaller'
  have hstopped : s₂.running x = false := by rw [hrunning', hbeside.running, hrunning]
  rcases hgoes with htesting | hpublish
  · exact (exits_testing hstopped htesting).of_leads (Leads.refl (fun _ => 0) s₂) rfl (by omega)
  · refine exits_about_to_publish ((h.reaches hreleases.reaches).next hstep) ?_ hstopped hpublish
    rw [hcaller', hbeside.caller, hcaller]

theorem Exits.mono {n k : ℕ} (h : Exits subs n x s) (hle : n ≤ k) : Exits subs k x s :=
  h.of_leads (Leads.refl (fun _ => 0) s) rfl (by omega)

/-- The queue thread leaves `run` once `running` is cleared and its queue is shut down. -/
theorem exits (h : Orderly subs copies mgr hb tasks s) (hcaller : s.caller.broadcasts = false)
    (hstate : s.caller.ownsState = false) (hrunning : s.running x = false)
    (hdown : s.queueDown x = true) : Exits subs (2 * copies + 1) x s := by
  cases hpc : s.loop x with
  | testing => exact (exits_testing hrunning hpc).mono (Nat.zero_le _)
  | handling msg => exact exits_handling h hcaller hstate hrunning hpc
  | announcing =>
      exact (exits_about_to_publish h hcaller hrunning (.inl hpc)).mono (Nat.le_succ _)
  | answering m =>
      exact (exits_about_to_publish h hcaller hrunning (.inr ⟨m, hpc⟩)).mono (Nat.le_succ _)
  | exited => exact ⟨s, Leads.refl _ s, hpc, rfl⟩
  | publishing =>
      obtain ⟨msg, rest, hsub⟩ := h.publishing.thread x hpc
      exact (exits_publishing h hrunning hsub).mono (by omega)
  | dequeuing =>
      cases hpop : StableQueue.pop Msg.getPriority (s.queue x) with
      | none =>
          have hstep : step subs s (.queueThread x 0) =
              some { s with loop := Function.update s.loop x .testing } := by
            simp [step, queueStep, hpc, hpop, hdown]
          refine Exits.of_step ?_ hstep (fun _ => le_rfl) rfl
          exact Exits.mono (exits_testing hrunning (Function.update_self ..)) (Nat.zero_le _)
      | some p =>
          obtain ⟨msg, rest⟩ := p
          have hstep : step subs s (.queueThread x 0) = some { s with
              queue := Function.update s.queue x rest
              loop := Function.update s.loop x (.handling msg) } := by
            simp [step, queueStep, hpc, hpop]
          have hload : ∀ y, load { s with
              queue := Function.update s.queue x rest
              loop := Function.update s.loop x (.handling msg) } y ≤ s.load y := by
            intro y
            have hgrown := step_load hstep y
            rwa [if_neg (by simp [receiver])] at hgrown
          refine Exits.of_step ?_ hstep hload rfl
          exact exits_handling (h.next hstep) hcaller hstate hrunning (Function.update_self ..)

end stopped

/-! ### The caller -/

/-- The call of `shutdown` returns in some continuation, and no queue grows by more than `n` messages
before. -/
def Returns (subs : MsgType → List τ) (n : ℕ) (s : ShutdownSystem τ) : Prop :=
  ∃ s' success, Leads subs (fun _ => n) s s' ∧ s'.caller = .returned success

theorem Returns.of_leads {n m k : ℕ} {s₁ : ShutdownSystem τ} (h : Returns subs m s₁)
    (hs : Leads subs (fun _ => k) s s₁) (hle : k + m ≤ n) : Returns subs n s := by
  obtain ⟨s', success, hleads, hreturned⟩ := h
  exact ⟨s', success, hs.trans hleads (fun _ => hle), hreturned⟩

/-- A step that enqueues nothing. -/
theorem Returns.of_step {n : ℕ} {s₁ : ShutdownSystem τ} (h : Returns subs n s₁)
    (hs : step subs s e = some s₁) (hqueue : s₁.queue = s.queue) : Returns subs n s :=
  h.of_leads (Leads.step hs hqueue (fun _ => 0)) (Nat.zero_add n).le

theorem Returns.mono {n k : ℕ} (h : Returns subs n s) (hle : n ≤ k) : Returns subs k s :=
  h.of_leads (Leads.refl (fun _ => 0) s) (by omega)

/-- The messages that a queue may get while one task is stopped: those of the broadcast in progress, of
the one of `stop`, and of the two that its queue thread may wait for and make, and three of the loops of
the monitor. -/
def stopRoom (copies : ℕ) : ℕ := 4 * copies + 3

section stop

variable {success : Bool} {x : τ} {rest : List τ} {n : ℕ}

/-- What is assumed of the tasks that are stopped after `x`. -/
def ReturnsAfter (subs : MsgType → List τ) (copies : ℕ) (mgr hb : τ) (tasks : List τ) (success : Bool)
    (rest : List τ) (n : ℕ) : Prop :=
  ∀ s : ShutdownSystem τ, Orderly subs copies mgr hb tasks s → s.caller = .stopping success rest →
    Returns subs n s

theorem returns_joiningPeriodic (hrest : ReturnsAfter subs copies mgr hb tasks success rest n)
    (h : Orderly subs copies mgr hb tasks s) (hpc : s.caller = .joiningPeriodic success x rest) :
    Returns subs (n + 2) s := by
  by_cases hx : x = s.monitor.self
  · have hrunning : s.running s.monitor.self = false := by
      apply h.stopped.current
      rw [hpc, hx]
      rfl
    obtain ⟨s₁, hleads, hexited, hbeside⟩ :=
      periodic_exits subs (by rw [hpc]; rfl) hrunning h.narrow.visits
    have hstep : step subs s₁ .call = some { s₁ with caller := .stopping success rest } := by
      simp [step, callStep, hbeside.caller, hpc, hexited]
    have hnext := (h.reaches hleads.reaches).next hstep
    exact ((hrest _ hnext rfl).of_step hstep rfl).of_leads hleads (Nat.add_comm 2 n).le
  · have hstep : step subs s .call = some { s with caller := .stopping success rest } := by
      simp [step, callStep, hpc, hx]
    exact ((hrest _ (h.next hstep) rfl).of_step hstep rfl).mono (Nat.le_add_right n 2)

theorem returns_joining (hrest : ReturnsAfter subs copies mgr hb tasks success rest n)
    (h : Orderly subs copies mgr hb tasks s) (hpc : s.caller = .joining success x rest) :
    Returns subs (n + 2 * copies + 3) s := by
  have hcurrent : s.caller.current = some x := by rw [hpc]; rfl
  obtain ⟨s₁, hleads, hexited, hcaller⟩ := exits h (by rw [hpc]; rfl)
    (by rw [hpc]; rfl) (h.stopped.current x hcurrent)
    (h.stopped.down (by rw [hpc]; rfl) x hcurrent)
  have hstep : step subs s₁ .call = some { s₁ with caller := .joiningPeriodic success x rest } := by
    simp [step, callStep, hcaller, hpc, hexited]
  have hnext := (h.reaches hleads.reaches).next hstep
  exact ((returns_joiningPeriodic hrest hnext rfl).of_step hstep rfl).of_leads hleads (by omega)

theorem returns_notifying (hrest : ReturnsAfter subs copies mgr hb tasks success rest n)
    (h : Orderly subs copies mgr hb tasks s) (hpc : s.caller = .notifying success x rest) :
    Returns subs (n + 2 * copies + 3) s := by
  have hstep : step subs s .call = some { s with
      queueDown := Function.update s.queueDown x true
      caller := .joining success x rest } := by
    simp [step, callStep, hpc]
  exact (returns_joining hrest (h.next hstep) rfl).of_step hstep rfl

theorem returns_stopPublishing (hrest : ReturnsAfter subs copies mgr hb tasks success rest n)
    (h : Orderly subs copies mgr hb tasks s) (hpc : s.caller = .stopPublishing success x rest) :
    Returns subs (n + 3 * copies + 3) s := by
  obtain ⟨msg, others, hsub⟩ := h.publishing.caller (by rw [hpc]; rfl)
  obtain ⟨queue, hspread⟩ := spreads_out subs hsub
  have hleads := hspread.mono (h.narrow.broadcast _ _ _ hsub)
  have hstep : step subs { s with queue := queue, sub := some ⟨none, msg, []⟩ } .deliver =
      some { s with queue := queue, sub := none, caller := .notifying success x rest } := by
    simp [step, deliverStep, hpc]
  have hnext := (h.reaches hleads.reaches).next hstep
  exact ((returns_notifying hrest hnext rfl).of_step hstep rfl).of_leads hleads (by omega)

theorem returns_announcing (hrest : ReturnsAfter subs copies mgr hb tasks success rest n)
    (h : Orderly subs copies mgr hb tasks s) (hpc : s.caller = .announcing success x rest) :
    Returns subs (n + stopRoom copies) s := by
  obtain ⟨queue, loop, hleads, -⟩ := frees h (by rw [hpc]; rfl)
  have hstep : step subs { s with queue := queue, loop := loop, sub := none } .call = some { s with
      queue := queue
      loop := loop
      sub := some ⟨none, s.stopMsg x, subs (s.stopMsg x).getType⟩
      caller := .stopPublishing success x rest } := by
    simp [step, callStep, hpc, stopMsg]
  have hnext := (h.reaches hleads.reaches).next hstep
  refine ((returns_stopPublishing hrest hnext rfl).of_step hstep rfl).of_leads hleads ?_
  unfold stopRoom
  omega

theorem returns_assigning (hrest : ReturnsAfter subs copies mgr hb tasks success rest n)
    (h : Orderly subs copies mgr hb tasks s) (hpc : s.caller = .assigning success x rest) :
    Returns subs (n + stopRoom copies) s := by
  by_cases hx : x = s.manager.self
  · have hstep : step subs s .call = some { s with
        manager := (s.manager.transitionToState .stopped).1
        caller := .announcing success x rest } := by
      simp [step, callStep, hpc, hx]
    exact (returns_announcing hrest (h.next hstep) rfl).of_step hstep rfl
  · have hstep : step subs s .call = some { s with
        currentState := Function.update s.currentState x .stopped
        caller := .announcing success x rest } := by
      simp [step, callStep, hpc, hx]
    exact (returns_announcing hrest (h.next hstep) rfl).of_step hstep rfl

end stop

/-- The loop over the tasks ends. -/
theorem returns_stopping (success : Bool) : ∀ rest : List τ,
    ReturnsAfter subs copies mgr hb tasks success rest (rest.length * stopRoom copies)
  | [], s, _, hpc => by
      have hstep : step subs s .call = some { s with caller := .returned success } := by
        simp [step, callStep, hpc]
      exact ⟨_, success, Leads.step hstep rfl _, rfl⟩
  | x :: rest, s, h, hpc => by
      rw [List.length_cons, Nat.succ_mul]
      by_cases hrunning : s.running x = true
      · have hstep : step subs s .call = some { s with
            running := Function.update s.running x false
            caller := .assigning success x rest } := by
          simp [step, callStep, hpc, hrunning]
        exact (returns_assigning (returns_stopping success rest) (h.next hstep) rfl).of_step hstep rfl
      · have hstep : step subs s .call = some { s with caller := .stopping success rest } := by
          simp [step, callStep, hpc, hrunning]
        exact ((returns_stopping success rest _ (h.next hstep) rfl).of_step hstep rfl).mono
          (Nat.le_add_right _ _)

/-- The tasks that are still to be stopped, the manager included, with the one in whose `stop` the
caller is. -/
def stopsLeft (s : ShutdownSystem τ) : ℕ := (s.caller.ahead.getD s.recorded).length + 1

/-- The demand has returned. -/
theorem returns_demanded (h : Orderly subs copies mgr hb tasks s) (success : Bool)
    (hpc : s.caller = .stopping success (s.recorded ++ [s.manager.self])) :
    Returns subs ((s.recorded.length + 1) * stopRoom copies) s := by
  have hreturns := returns_stopping success _ s h hpc
  rwa [List.length_append, List.length_singleton] at hreturns

/-- The last check of the demand, after the timeout. -/
theorem returns_timedOut : ∀ {rest : List τ} {s : ShutdownSystem τ},
    Orderly subs copies mgr hb tasks s → s.caller = .checking rest true →
      Returns subs ((s.recorded.length + 1) * stopRoom copies) s
  | [], s, h, hpc => by
      have hstep : step subs s .call =
          some { s with caller := .stopping true (s.recorded ++ [s.manager.self]) } := by
        simp [step, callStep, hpc]
      exact (returns_demanded (h.next hstep) true rfl).of_step hstep rfl
  | t :: rest, s, h, hpc => by
      by_cases ht : s.manager.taskStates.find? t = some .stopped
      · have hstep : step subs s .call = some { s with caller := .checking rest true } := by
          simp [step, callStep, hpc, ht]
        exact (returns_timedOut (h.next hstep) rfl).of_step hstep rfl
      · have hstep : step subs s .call =
            some { s with caller := .stopping false (s.recorded ++ [s.manager.self]) } := by
          simp [step, callStep, hpc, ht]
        exact (returns_demanded (h.next hstep) false rfl).of_step hstep rfl

theorem returns_waiting (h : Orderly subs copies mgr hb tasks s) (hpc : s.caller = .waiting) :
    Returns subs ((s.recorded.length + 1) * stopRoom copies) s := by
  have hstep : step subs s .timeout = some { s with caller := .checking s.recorded true } := by
    simp [step, hpc]
  exact (returns_timedOut (h.next hstep) rfl).of_step hstep rfl

/-- A check before the timeout. -/
theorem returns_checking : ∀ {rest : List τ} {s : ShutdownSystem τ},
    Orderly subs copies mgr hb tasks s → s.caller = .checking rest false →
      Returns subs ((s.recorded.length + 1) * stopRoom copies) s
  | [], s, h, hpc => by
      have hstep : step subs s .call =
          some { s with caller := .stopping true (s.recorded ++ [s.manager.self]) } := by
        simp [step, callStep, hpc]
      exact (returns_demanded (h.next hstep) true rfl).of_step hstep rfl
  | t :: rest, s, h, hpc => by
      by_cases ht : s.manager.taskStates.find? t = some .stopped
      · have hstep : step subs s .call = some { s with caller := .checking rest false } := by
          simp [step, callStep, hpc, ht]
        exact (returns_checking (h.next hstep) rfl).of_step hstep rfl
      · have hstep : step subs s .call = some { s with caller := .waiting } := by
          simp [step, callStep, hpc, ht]
        exact (returns_waiting (h.next hstep) rfl).of_step hstep rfl

theorem returns_publishing (h : Orderly subs copies mgr hb tasks s) (hpc : s.caller = .publishing) :
    Returns subs ((s.recorded.length + 1) * stopRoom copies + copies) s := by
  obtain ⟨msg, others, hsub⟩ := h.publishing.caller (by rw [hpc]; rfl)
  obtain ⟨queue, hspread⟩ := spreads_out subs hsub
  have hleads := hspread.mono (h.narrow.broadcast _ _ _ hsub)
  have hstep : step subs { s with queue := queue, sub := some ⟨none, msg, []⟩ } .deliver =
      some { s with queue := queue, sub := none, caller := .waiting } := by
    simp [step, deliverStep, hpc]
  have hnext := (h.reaches hleads.reaches).next hstep
  exact ((returns_waiting hnext rfl).of_step hstep rfl).of_leads hleads (Nat.add_comm _ _).le

theorem returns_publish (h : Orderly subs copies mgr hb tasks s) (hpc : s.caller = .publish) :
    Returns subs ((s.recorded.length + 1) * stopRoom copies + 2 * copies) s := by
  obtain ⟨queue, loop, hleads, -⟩ := frees h (by rw [hpc]; rfl)
  have hstep : step subs { s with queue := queue, loop := loop, sub := none } .call = some { s with
      queue := queue
      loop := loop
      sub := some ⟨none, (s.manager.transitionToState .stopped).2, subs .stateMsg⟩
      caller := .publishing } := by
    simp [step, callStep, hpc]
  have hnext := (h.reaches hleads.reaches).next hstep
  have hreturns := (returns_publishing hnext rfl).of_step hstep rfl
  refine hreturns.of_leads hleads (le_of_eq ?_)
  simp only [recorded]
  omega

theorem returns_transition (h : Orderly subs copies mgr hb tasks s) (hpc : s.caller = .transition) :
    Returns subs ((s.recorded.length + 1) * stopRoom copies + 2 * copies) s := by
  have hstep : step subs s .call = some { s with
      manager := (s.manager.transitionToState .stopped).1
      caller := .publish } := by
    simp [step, callStep, hpc]
  exact (returns_publish (h.next hstep) rfl).of_step hstep rfl

/-- The messages that a queue may get until `shutdown` has returned. -/
def returnRoom (copies : ℕ) (s : ShutdownSystem τ) : ℕ :=
  s.stopsLeft * stopRoom copies + 2 * copies

theorem Orderly.returns (h : Orderly subs copies mgr hb tasks s) (hcalled : s.caller ≠ .idle) :
    Returns subs (s.returnRoom copies) s := by
  unfold returnRoom stopsLeft
  cases hpc : s.caller with
  | idle => exact absurd hpc hcalled
  | setTarget =>
      have hstep : ShutdownSystem.step subs s .call = some { s with
          manager := { s.manager with targetState := .stopped }
          caller := .transition } := by
        simp [ShutdownSystem.step, callStep, hpc]
      exact (returns_transition (h.next hstep) rfl).of_step hstep rfl
  | transition => exact returns_transition h hpc
  | publish => exact returns_publish h hpc
  | publishing => exact (returns_publishing h hpc).mono (by simp [ShutdownPc.ahead]; omega)
  | waiting => exact (returns_waiting h hpc).mono (Nat.le_add_right _ _)
  | checking rest timedOut =>
      cases timedOut with
      | false => exact (returns_checking h hpc).mono (Nat.le_add_right _ _)
      | true => exact (returns_timedOut h hpc).mono (Nat.le_add_right _ _)
  | stopping success rest =>
      refine (returns_stopping success rest s h hpc).mono ?_
      simp only [ShutdownPc.ahead, Option.getD_some, Nat.succ_mul]
      omega
  | assigning success x rest =>
      refine (returns_assigning (returns_stopping success rest) h hpc).mono ?_
      simp only [ShutdownPc.ahead, Option.getD_some, Nat.succ_mul]
      omega
  | announcing success x rest =>
      refine (returns_announcing (returns_stopping success rest) h hpc).mono ?_
      simp only [ShutdownPc.ahead, Option.getD_some, Nat.succ_mul]
      omega
  | stopPublishing success x rest =>
      refine (returns_stopPublishing (returns_stopping success rest) h hpc).mono ?_
      simp only [ShutdownPc.ahead, Option.getD_some, Nat.succ_mul, stopRoom]
      omega
  | notifying success x rest =>
      refine (returns_notifying (returns_stopping success rest) h hpc).mono ?_
      simp only [ShutdownPc.ahead, Option.getD_some, Nat.succ_mul, stopRoom]
      omega
  | joining success x rest =>
      refine (returns_joining (returns_stopping success rest) h hpc).mono ?_
      simp only [ShutdownPc.ahead, Option.getD_some, Nat.succ_mul, stopRoom]
      omega
  | joiningPeriodic success x rest =>
      refine (returns_joiningPeriodic (returns_stopping success rest) h hpc).mono ?_
      simp only [ShutdownPc.ahead, Option.getD_some, Nat.succ_mul, stopRoom]
      omega
  | returned success => exact ⟨s, success, Leads.refl _ s, hpc⟩

/-- After the call all threads have finished. -/
theorem Stopped.all_finished (h : Stopped mgr tasks s) {success : Bool}
    (hpc : s.caller = .returned success) {x : τ} (hx : x ∈ mgr :: tasks) :
    s.running x = false ∧ s.Finished x := by
  have hrunning : s.running x = false :=
    (h.ahead [] (by rw [hpc]; rfl) x hx).resolve_left List.not_mem_nil
  refine ⟨hrunning, (h.finished x hrunning).resolve_left ?_⟩
  rw [hpc]
  nofun

/-- **A shutdown can always return.**  For any subscriptions, at most `copies` of a task to one type,
queues of any capacity, and in every state that the manager, the monitor with its two threads, the tasks
and the calling thread can come to without a failed assertion: once `shutdown` has been called and each
queue has room for `returnRoom` more messages, some schedule lets it return without one; and whenever it
has returned, `running` is cleared for the manager and every registered task, and their threads have
finished. -/
theorem shutdown_can_return {copies : ℕ} (hsubs : ∀ type x, (subs type).count x ≤ copies)
    {capacity : τ → ℕ} {responseTimeoutMs : ℤ} (s : ShutdownSystem τ)
    (hs : Reaches (boundedStep subs capacity) (started mgr hb tasks responseTimeoutMs) s) :
    (s.caller ≠ .idle → (∀ x, (s.queue x).length + s.returnRoom copies ≤ capacity x) →
      ∃ s' success, Reaches (boundedStep subs capacity) s s' ∧ s'.caller = .returned success) ∧
      ∀ success, s.caller = .returned success →
        ∀ x ∈ mgr :: tasks, s.running x = false ∧ s.Finished x := by
  have h := (started_orderly hsubs mgr hb tasks responseTimeoutMs).reaches hs.of_guarded
  refine ⟨fun hcalled hroom => ?_, fun _ hpc _ hx => h.stopped.all_finished hpc hx⟩
  obtain ⟨s', success, hleads, hreturned⟩ := h.returns hcalled
  exact ⟨s', success, hleads.reaches_bounded hroom, hreturned⟩

/-- The caller is to join the queue thread of the monitor, which has the answer of the task in hand and
waits for `tasks_mutex`; its owner, the periodic thread, is about to mark that task. -/
def heldUp (task monitor : τ) : List (ShutdownEvent τ) :=
  [.periodicThread 0, .periodicThread 0, .periodicThread 0, .periodicThread 0, .periodicThread 0,
    .periodicThread 0, .periodicThread 0, .periodicThread 0, .periodicThread 0, .queueThread task 0,
    .queueThread task 0, .queueThread task 0, .queueThread task 0, .deliver, .deliver,
    .queueThread monitor 0, .queueThread monitor 0, .periodicThread 4000000000,
    .periodicThread 4000000000, .shutdown, .call, .call, .call, .deliver, .deliver, .deliver,
    .timeout, .call, .call, .call, .call, .deliver, .deliver, .call, .queueThread task 0, .call,
    .call, .call, .call, .call, .deliver, .deliver, .call]

theorem shutdown_can_return_held_up : ∃ s : ShutdownSystem (Fin 3),
    run (boundedStep (wiring 0 2 [1, 2]) (fun _ => queueMsgCount)) (started 0 2 [1, 2] 3000)
      (heldUp 1 2) = some s ∧
    s.caller = .joining false 2 [0] ∧ s.step (wiring 0 2 [1, 2]) .call = none ∧
    s.step (wiring 0 2 [1, 2]) (.queueThread 2 0) = none ∧
    ∃ s' success, Reaches (boundedStep (wiring 0 2 [1, 2]) (fun _ => queueMsgCount)) s s' ∧
      s'.caller = .returned success := by
  have heval : (run (boundedStep (wiring 0 2 [1, 2]) (fun _ => queueMsgCount))
      (started 0 2 [1, 2] 3000) (heldUp (1 : Fin 3) 2)).map (fun s =>
        (s.caller, (s.step (wiring 0 2 [1, 2]) .call).isNone,
          (s.step (wiring 0 2 [1, 2]) (.queueThread 2 0)).isNone,
          decide (∀ x, (s.queue x).length + s.returnRoom 1 ≤ queueMsgCount))) =
      some (.joining false 2 [0], true, true, true) := by decide +kernel
  obtain ⟨s, hrun, hval⟩ := Option.map_eq_some_iff.mp heval
  obtain ⟨hcaller, hval⟩ := Prod.mk.inj hval
  obtain ⟨hcall, hval⟩ := Prod.mk.inj hval
  obtain ⟨hthread, hroom⟩ := Prod.mk.inj hval
  have hsubs : ∀ type x, (wiring (0 : Fin 3) 2 [1, 2] type).count x ≤ 1 := by
    intro type
    cases type <;> decide
  exact ⟨s, hrun, hcaller, Option.isNone_iff_eq_none.mp hcall, Option.isNone_iff_eq_none.mp hthread,
    (shutdown_can_return hsubs s ⟨_, hrun⟩).1 (by rw [hcaller]; nofun) (of_decide_eq_true hroom)⟩

end ShutdownSystem

end Protocore
