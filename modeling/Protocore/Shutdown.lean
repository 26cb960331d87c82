import Protocore.LiveRegistration
import Protocore.StateProtocol

/-! # Shutting down

`StateManager::shutdown` demands `STOPPED` from all registered tasks, calls `stop` on each of them in
the order of the map, and stops the manager.  Meanwhile the queue threads of the tasks and of the
manager and the two threads of the heartbeat monitor go on: the monitor checks for timeouts in every
state, until it is stopped itself.

A `StateMsg` overtakes a `HeartbeatMsg` that is already queued, and a queue thread that finds
`running` cleared leaves with messages still in its queue.  A task stopped that way never answers the
heartbeat, and the monitor may find it overdue before it is stopped (`stopped_with_heartbeat`).

`shutdown_recorded`: when no check that is made during the shutdown finds a heartbeat overdue, all
records are `STOPPED` after a shutdown whose demand succeeded. -/

namespace Protocore

variable {τ : Type} [LinearOrder τ]

/-- Where a queue thread is in `Task::run`: at the test of `running`, inside `dequeue`, inside
`process_message`, about to publish the acknowledgment of a state or of a heartbeat, inside
`Broker::publish`, or finished. -/
inductive LoopPc (τ : Type) where
  | testing
  | dequeuing
  | handling (msg : Msg τ)
  | announcing
  | answering (heartbeat : HeartbeatMsg)
  | publishing
  | exited

/-- Where the periodic thread of the monitor is.  It owns `tasks_mutex` while it goes through the
monitored tasks, with the clock reading made before the loop; `marking` is inside
`mark_task_as_unresponsive`, between the delivery and the write. -/
inductive MonitorPc (τ : Type) where
  | testing
  | lockCheck
  | checking (now : ℤ) (rest : List τ)
  | marking (now : ℤ) (task : τ) (rest : List τ)
  | checked
  | sending (rest : List τ)
  | sleeping
  | exited

/-- Where the calling thread is in `StateManager::shutdown`: in `demand_state_transition(STOPPED)` up to
`checking`, then in `stop` of the tasks still to come, the manager last.  `success` is what the demand
has returned. -/
inductive ShutdownPc (τ : Type) where
  | idle
  | setTarget
  | transition
  | publish
  | publishing
  | waiting
  | checking (rest : List τ) (timedOut : Bool)
  | stopping (success : Bool) (rest : List τ)
  | assigning (success : Bool) (task : τ) (rest : List τ)
  | announcing (success : Bool) (task : τ) (rest : List τ)
  | stopPublishing (success : Bool) (task : τ) (rest : List τ)
  | notifying (success : Bool) (task : τ) (rest : List τ)
  | joining (success : Bool) (task : τ) (rest : List τ)
  | joiningPeriodic (success : Bool) (task : τ) (rest : List τ)
  | returned (success : Bool)
deriving DecidableEq

/-- A call of `Broker::publish` by a queue thread or by the calling thread. -/
structure Announcement (τ : Type) where
  publisher : Option τ
  msg : Msg τ
  rest : List τ

/-- The manager, the monitor, the tasks with their queues and queue threads, the periodic thread, the
thread in `shutdown` and the broadcast in progress. -/
structure ShutdownSystem (τ : Type) [LinearOrder τ] where
  manager : StateManager τ
  monitor : HeartBeatTask τ
  currentState : τ → TaskState
  running : τ → Bool
  queue : τ → List (Msg τ)
  queueDown : τ → Bool
  loop : τ → LoopPc τ
  periodic : MonitorPc τ
  caller : ShutdownPc τ
  sub : Option (Announcement τ)

/-- `shutdown` is called, or a thread takes its next step; `now` is its clock reading. -/
inductive ShutdownEvent (τ : Type) where
  | shutdown
  | call
  | timeout
  | queueThread (x : τ) (now : ℤ)
  | periodicThread (now : ℤ)
  | deliver

/-- The monitor inside the loop of `check_for_timeouts` or `send_heartbeat` owns `tasks_mutex`. -/
def MonitorPc.ownsTasks : MonitorPc τ → Bool
  | .checking _ _ => true
  | .marking _ _ _ => true
  | .sending _ => true
  | _ => false

/-- The predicate of `wait_for` is evaluated under `state_mutex`. -/
def ShutdownPc.ownsState : ShutdownPc τ → Bool
  | .checking _ _ => true
  | _ => false

namespace ShutdownSystem

section defs

variable (subs : MsgType → List τ)

/-- The tasks in the order of the map. -/
def recorded (s : ShutdownSystem τ) : List τ := s.manager.taskStates.entries.map Prod.fst

/-- The monitored tasks in the order of the map. -/
def monitored (s : ShutdownSystem τ) : List τ := s.monitor.monitoredTasks.entries.map Prod.fst

/-- `Broker::deliver_message`. -/
def deliverMessage (s : ShutdownSystem τ) (x : τ) (msg : Msg τ) : ShutdownSystem τ :=
  { s with queue := Function.update s.queue x (s.queue x ++ [msg]) }

/-- What `stop` publishes: `transition_to_state` is virtual, and the manager's own one commands. -/
def stopMsg (s : ShutdownSystem τ) (task : τ) : Msg τ :=
  if task = s.manager.self then (s.manager.transitionToState .stopped).2
  else ackMsg task (s.currentState task)

/-- The next step of the thread in `shutdown`. -/
def callStep (s : ShutdownSystem τ) : Option (ShutdownSystem τ) :=
  match s.caller with
  | .setTarget =>
      some { s with
        manager := { s.manager with targetState := .stopped }
        caller := .transition }
  | .transition =>
      some { s with manager := (s.manager.transitionToState .stopped).1, caller := .publish }
  | .publish =>
      if s.sub.isNone then
        some { s with
          sub := some ⟨none, (s.manager.transitionToState .stopped).2, subs .stateMsg⟩
          caller := .publishing }
      else none
  | .waiting => some { s with caller := .checking s.recorded false }
  | .checking [] _ =>
      some { s with caller := .stopping true (s.recorded ++ [s.manager.self]) }
  | .checking (t :: rest) timedOut =>
      some { s with
        caller :=
          if s.manager.taskStates.find? t = some .stopped then .checking rest timedOut
          else if timedOut then .stopping false (s.recorded ++ [s.manager.self])
          else .waiting }
  | .stopping success [] => some { s with caller := .returned success }
  | .stopping success (x :: rest) =>
      if s.running x then
        some { s with
          running := Function.update s.running x false
          caller := .assigning success x rest }
      else some { s with caller := .stopping success rest }
  | .assigning success x rest =>
      if x = s.manager.self then
        some { s with
          manager := (s.manager.transitionToState .stopped).1
          caller := .announcing success x rest }
      else
        some { s with
          currentState := Function.update s.currentState x .stopped
          caller := .announcing success x rest }
  | .announcing success x rest =>
      if s.sub.isNone then
        some { s with
          sub := some ⟨none, s.stopMsg x, subs (s.stopMsg x).getType⟩
          caller := .stopPublishing success x rest }
      else none
  | .notifying success x rest =>
      some { s with
        queueDown := Function.update s.queueDown x true
        caller := .joining success x rest }
  | .joining success x rest =>
      match s.loop x with
      | .exited => some { s with caller := .joiningPeriodic success x rest }
      | _ => none
  | .joiningPeriodic success x rest =>
      if x = s.monitor.self then
        match s.periodic with
        | .exited => some { s with caller := .stopping success rest }
        | _ => none
      else some { s with caller := .stopping success rest }
  | .idle => none
  | .publishing => none
  | .stopPublishing _ _ _ => none
  | .returned _ => none

/-- `process_message` of the manager, of the monitor, and of the other tasks. -/
def handleStep (s : ShutdownSystem τ) (x : τ) (msg : Msg τ) (now : ℤ) : Option (ShutdownSystem τ) :=
  let goto := fun pc => Function.update s.loop x pc
  if x = s.manager.self then
    some { s with manager := (s.manager.processMessage msg).1, loop := goto .testing }
  else
    match msg.msgData with
    | .stateMsg m =>
        some { s with
          currentState := Function.update s.currentState x (.ofByte m.state)
          loop := goto .announcing }
    | .heartbeatMsg m =>
        some { s with loop := goto (if x = s.monitor.self then .testing else .answering m) }
    | .heartbeatAckMsg ack =>
        if x = s.monitor.self then
          if s.periodic.ownsTasks then none
          else
            some { s with
              monitor := s.monitor.handleAcknowledgment msg.sendingTask ack now
              loop := goto .testing }
        else some { s with loop := goto .testing }
    | .stateAckMsg _ => some { s with loop := goto .testing }

/-- The next step of the queue thread of `x`. -/
def queueStep (s : ShutdownSystem τ) (x : τ) (now : ℤ) : Option (ShutdownSystem τ) :=
  let goto := fun pc => Function.update s.loop x pc
  match s.loop x with
  | .testing => some { s with loop := goto (if s.running x then .dequeuing else .exited) }
  | .dequeuing =>
      match StableQueue.pop Msg.getPriority (s.queue x) with
      | some (msg, rest) =>
          some { s with queue := Function.update s.queue x rest, loop := goto (.handling msg) }
      | none => if s.queueDown x then some { s with loop := goto .testing } else none
  | .handling msg => s.handleStep x msg now
  | .announcing =>
      if s.sub.isNone then
        some { s with
          sub := some ⟨some x, ackMsg x (s.currentState x), subs .stateAckMsg⟩
          loop := goto .publishing }
      else none
  | .answering m =>
      if s.sub.isNone then
        some { s with
          sub := some ⟨some x, ⟨some x, .heartbeatAckMsg
            ⟨m.uniqueId, m.timestamp, UInt64.ofInt (toMilliseconds now)⟩⟩, subs .heartbeatAckMsg⟩
          loop := goto .publishing }
      else none
  | .publishing => none
  | .exited => none

/-- The body of the loop of `send_heartbeat` for a task that is not awaited. -/
def sendTo (s : ShutdownSystem τ) (task : τ) (status : TaskStatus) (now : ℤ) : ShutdownSystem τ :=
  let heartbeat : HeartbeatMsg :=
    ⟨s.monitor.nextHeartbeatId, UInt64.ofInt (toMilliseconds now)⟩
  { s with
    monitor := { s.monitor with
      nextHeartbeatId := s.monitor.nextHeartbeatId + 1
      monitoredTasks := s.monitor.monitoredTasks.insert task { status with
        awaitingResponse := true
        lastHeartbeatId := heartbeat.uniqueId
        lastHeartbeatTime := now } }
    queue := Function.update s.queue task
      (s.queue task ++ [⟨some s.monitor.self, .heartbeatMsg heartbeat⟩]) }

/-- The next step of the periodic thread of the monitor. -/
def periodicStep (s : ShutdownSystem τ) (now : ℤ) : Option (ShutdownSystem τ) :=
  match s.periodic with
  | .testing =>
      some { s with periodic := if s.running s.monitor.self then .lockCheck else .exited }
  | .lockCheck => some { s with periodic := .checking now s.monitored }
  | .checking _ [] => some { s with periodic := .checked }
  | .checking reading (task :: rest) =>
      match s.monitor.monitoredTasks.find? task with
      | none => some { s with periodic := .checking reading rest }
      | some status =>
          if s.monitor.overdue reading status then
            if s.monitor.stateManager then
              some { s.deliverMessage task s.manager.unresponsiveMsg with
                periodic := .marking reading task rest }
            else
              some { s with
                monitor := LiveSystem.clearAwaiting s.monitor task
                periodic := .checking reading rest }
          else some { s with periodic := .checking reading rest }
  | .marking reading task rest =>
      if s.caller.ownsState then none
      else
        some { s with
          manager := s.manager.recordUnresponsive task
          monitor := LiveSystem.clearAwaiting s.monitor task
          periodic := .checking reading rest }
  | .checked =>
      some { s with
        periodic := if s.currentState s.monitor.self = .running then .sending s.monitored
          else .sleeping }
  | .sending [] => some { s with periodic := .sleeping }
  | .sending (task :: rest) =>
      match s.monitor.monitoredTasks.find? task with
      | none => some { s with periodic := .sending rest }
      | some status =>
          if status.awaitingResponse then some { s with periodic := .sending rest }
          else some { s.sendTo task status now with periodic := .sending rest }
  | .sleeping => some { s with periodic := .testing }
  | .exited => none

/-- The next step of the broadcast in progress: one delivery, or its end. -/
def deliverStep (s : ShutdownSystem τ) : Option (ShutdownSystem τ) :=
  match s.sub with
  | none => none
  | some ⟨p, msg, x :: rest⟩ => some { s.deliverMessage x msg with sub := some ⟨p, msg, rest⟩ }
  | some ⟨some x, _, []⟩ =>
      some { s with sub := none, loop := Function.update s.loop x .testing }
  | some ⟨none, _, []⟩ =>
      some { s with
        sub := none
        caller := match s.caller with
          | .publishing => .waiting
          | .stopPublishing success x rest => .notifying success x rest
          | pc => pc }

/-- One step. -/
def step (s : ShutdownSystem τ) : ShutdownEvent τ → Option (ShutdownSystem τ)
  | .shutdown =>
      match s.caller with
      | .idle => some { s with caller := .setTarget }
      | _ => none
  | .call => s.callStep subs
  | .timeout =>
      match s.caller with
      | .waiting => some { s with caller := .checking s.recorded true }
      | _ => none
  | .queueThread x now => s.queueStep subs x now
  | .periodicThread now => s.periodicStep now
  | .deliver => s.deliverStep

end defs

variable {subs : MsgType → List τ} {s s' : ShutdownSystem τ}

/-! ### Everything a step can do -/

/-- The steps by the thread that takes them and the point where it is. -/
inductive Moves (subs : MsgType → List τ) (s : ShutdownSystem τ) :
    ShutdownEvent τ → ShutdownSystem τ → Prop
  | shutdown (hpc : s.caller = .idle) : Moves subs s .shutdown { s with caller := .setTarget }
  | setTarget (hpc : s.caller = .setTarget) :
      Moves subs s .call { s with
        manager := { s.manager with targetState := .stopped }
        caller := .transition }
  | transition (hpc : s.caller = .transition) :
      Moves subs s .call { s with
        manager := (s.manager.transitionToState .stopped).1
        caller := .publish }
  | publish (hpc : s.caller = .publish) (hfree : s.sub.isNone = true) :
      Moves subs s .call { s with
        sub := some ⟨none, (s.manager.transitionToState .stopped).2, subs .stateMsg⟩
        caller := .publishing }
  | check (hpc : s.caller = .waiting) :
      Moves subs s .call { s with caller := .checking s.recorded false }
  | timeout (hpc : s.caller = .waiting) :
      Moves subs s .timeout { s with caller := .checking s.recorded true }
  | succeed {timedOut : Bool} (hpc : s.caller = .checking [] timedOut) :
      Moves subs s .call { s with caller := .stopping true (s.recorded ++ [s.manager.self]) }
  | pass {t : τ} {rest : List τ} {timedOut : Bool} (hpc : s.caller = .checking (t :: rest) timedOut)
      (ht : s.manager.taskStates.find? t = some .stopped) :
      Moves subs s .call { s with caller := .checking rest timedOut }
  | giveUp {t : τ} {rest : List τ} (hpc : s.caller = .checking (t :: rest) true)
      (ht : s.manager.taskStates.find? t ≠ some .stopped) :
      Moves subs s .call { s with caller := .stopping false (s.recorded ++ [s.manager.self]) }
  | waitAgain {t : τ} {rest : List τ} (hpc : s.caller = .checking (t :: rest) false)
      (ht : s.manager.taskStates.find? t ≠ some .stopped) :
      Moves subs s .call { s with caller := .waiting }
  | returned {success : Bool} (hpc : s.caller = .stopping success []) :
      Moves subs s .call { s with caller := .returned success }
  | stop {success : Bool} {x : τ} {rest : List τ} (hpc : s.caller = .stopping success (x :: rest))
      (hrunning : s.running x = true) :
      Moves subs s .call { s with
        running := Function.update s.running x false
        caller := .assigning success x rest }
  | skip {success : Bool} {x : τ} {rest : List τ} (hpc : s.caller = .stopping success (x :: rest))
      (hrunning : ¬ s.running x = true) :
      Moves subs s .call { s with caller := .stopping success rest }
  | assignManager {success : Bool} {x : τ} {rest : List τ}
      (hpc : s.caller = .assigning success x rest) (hx : x = s.manager.self) :
      Moves subs s .call { s with
        manager := (s.manager.transitionToState .stopped).1
        caller := .announcing success x rest }
  | assign {success : Bool} {x : τ} {rest : List τ} (hpc : s.caller = .assigning success x rest)
      (hx : x ≠ s.manager.self) :
      Moves subs s .call { s with
        currentState := Function.update s.currentState x .stopped
        caller := .announcing success x rest }
  | announce {success : Bool} {x : τ} {rest : List τ} (hpc : s.caller = .announcing success x rest)
      (hfree : s.sub.isNone = true) :
      Moves subs s .call { s with
        sub := some ⟨none, s.stopMsg x, subs (s.stopMsg x).getType⟩
        caller := .stopPublishing success x rest }
  | notify {success : Bool} {x : τ} {rest : List τ} (hpc : s.caller = .notifying success x rest) :
      Moves subs s .call { s with
        queueDown := Function.update s.queueDown x true
        caller := .joining success x rest }
  | join {success : Bool} {x : τ} {rest : List τ} (hpc : s.caller = .joining success x rest)
      (hexited : s.loop x = .exited) :
      Moves subs s .call { s with caller := .joiningPeriodic success x rest }
  | joinPeriodic {success : Bool} {x : τ} {rest : List τ}
      (hpc : s.caller = .joiningPeriodic success x rest)
      (hexited : x = s.monitor.self → s.periodic = .exited) :
      Moves subs s .call { s with caller := .stopping success rest }
  | test {x : τ} {now : ℤ} (hpc : s.loop x = .testing) :
      Moves subs s (.queueThread x now) { s with
        loop := Function.update s.loop x (if s.running x then .dequeuing else .exited) }
  | dequeue {x : τ} {now : ℤ} {msg : Msg τ} {rest : List (Msg τ)} (hpc : s.loop x = .dequeuing)
      (hpop : StableQueue.pop Msg.getPriority (s.queue x) = some (msg, rest)) :
      Moves subs s (.queueThread x now) { s with
        queue := Function.update s.queue x rest
        loop := Function.update s.loop x (.handling msg) }
  | dequeueNull {x : τ} {now : ℤ} (hpc : s.loop x = .dequeuing)
      (hpop : StableQueue.pop Msg.getPriority (s.queue x) = none) (hdown : s.queueDown x = true) :
      Moves subs s (.queueThread x now) { s with loop := Function.update s.loop x .testing }
  | record {x : τ} {now : ℤ} {msg : Msg τ} (hpc : s.loop x = .handling msg)
      (hx : x = s.manager.self) :
      Moves subs s (.queueThread x now) { s with
        manager := (s.manager.processMessage msg).1
        loop := Function.update s.loop x .testing }
  | take {x : τ} {now : ℤ} {msg : Msg τ} {m : StateMsg} (hpc : s.loop x = .handling msg)
      (hx : x ≠ s.manager.self) (hdata : msg.msgData = .stateMsg m) :
      Moves subs s (.queueThread x now) { s with
        currentState := Function.update s.currentState x (.ofByte m.state)
        loop := Function.update s.loop x .announcing }
  | heartbeat {x : τ} {now : ℤ} {msg : Msg τ} {m : HeartbeatMsg} (hpc : s.loop x = .handling msg)
      (hx : x ≠ s.manager.self) (hdata : msg.msgData = .heartbeatMsg m) :
      Moves subs s (.queueThread x now) { s with
        loop := Function.update s.loop x (if x = s.monitor.self then .testing else .answering m) }
  | acknowledged {x : τ} {now : ℤ} {msg : Msg τ} {ack : HeartbeatAckMsg}
      (hpc : s.loop x = .handling msg) (hx : x ≠ s.manager.self) (hmonitor : x = s.monitor.self)
      (hfree : ¬ s.periodic.ownsTasks = true) (hdata : msg.msgData = .heartbeatAckMsg ack) :
      Moves subs s (.queueThread x now) { s with
        monitor := s.monitor.handleAcknowledgment msg.sendingTask ack now
        loop := Function.update s.loop x .testing }
  | ignore {x : τ} {now : ℤ} {msg : Msg τ} (hpc : s.loop x = .handling msg)
      (hx : x ≠ s.manager.self) (hdata : ∀ m, msg.msgData ≠ .stateMsg m) :
      Moves subs s (.queueThread x now) { s with loop := Function.update s.loop x .testing }
  | announceState {x : τ} {now : ℤ} (hpc : s.loop x = .announcing) (hfree : s.sub.isNone = true) :
      Moves subs s (.queueThread x now) { s with
        sub := some ⟨some x, ackMsg x (s.currentState x), subs .stateAckMsg⟩
        loop := Function.update s.loop x .publishing }
  | answer {x : τ} {now : ℤ} {m : HeartbeatMsg} (hpc : s.loop x = .answering m)
      (hfree : s.sub.isNone = true) :
      Moves subs s (.queueThread x now) { s with
        sub := some ⟨some x, ⟨some x, .heartbeatAckMsg
          ⟨m.uniqueId, m.timestamp, UInt64.ofInt (toMilliseconds now)⟩⟩, subs .heartbeatAckMsg⟩
        loop := Function.update s.loop x .publishing }
  | periodicTest {now : ℤ} (hpc : s.periodic = .testing) :
      Moves subs s (.periodicThread now) { s with
        periodic := if s.running s.monitor.self then .lockCheck else .exited }
  | lockCheck {now : ℤ} (hpc : s.periodic = .lockCheck) :
      Moves subs s (.periodicThread now) { s with periodic := .checking now s.monitored }
  | checkedAll {now reading : ℤ} (hpc : s.periodic = .checking reading []) :
      Moves subs s (.periodicThread now) { s with periodic := .checked }
  | checkedTask {now reading : ℤ} {task : τ} {rest : List τ}
      (hpc : s.periodic = .checking reading (task :: rest))
      (hintime : ∀ status, s.monitor.monitoredTasks.find? task = some status →
        ¬ s.monitor.overdue reading status = true) :
      Moves subs s (.periodicThread now) { s with periodic := .checking reading rest }
  | overdue {now reading : ℤ} {task : τ} {rest : List τ} {status : TaskStatus}
      (hpc : s.periodic = .checking reading (task :: rest))
      (hstatus : s.monitor.monitoredTasks.find? task = some status)
      (hoverdue : s.monitor.overdue reading status = true)
      (hmanager : s.monitor.stateManager = true) :
      Moves subs s (.periodicThread now) { s.deliverMessage task s.manager.unresponsiveMsg with
        periodic := .marking reading task rest }
  | overdueAlone {now reading : ℤ} {task : τ} {rest : List τ} {status : TaskStatus}
      (hpc : s.periodic = .checking reading (task :: rest))
      (hstatus : s.monitor.monitoredTasks.find? task = some status)
      (hoverdue : s.monitor.overdue reading status = true)
      (hmanager : ¬ s.monitor.stateManager = true) :
      Moves subs s (.periodicThread now) { s with
        monitor := LiveSystem.clearAwaiting s.monitor task
        periodic := .checking reading rest }
  | mark {now reading : ℤ} {task : τ} {rest : List τ} (hpc : s.periodic = .marking reading task rest)
      (hfree : ¬ s.caller.ownsState = true) :
      Moves subs s (.periodicThread now) { s with
        manager := s.manager.recordUnresponsive task
        monitor := LiveSystem.clearAwaiting s.monitor task
        periodic := .checking reading rest }
  | goOn {now : ℤ} (hpc : s.periodic = .checked) :
      Moves subs s (.periodicThread now) { s with
        periodic := if s.currentState s.monitor.self = .running then .sending s.monitored
          else .sleeping }
  | sentAll {now : ℤ} (hpc : s.periodic = .sending []) :
      Moves subs s (.periodicThread now) { s with periodic := .sleeping }
  | passOver {now : ℤ} {task : τ} {rest : List τ} (hpc : s.periodic = .sending (task :: rest))
      (hawaited : ∀ status, s.monitor.monitoredTasks.find? task = some status →
        status.awaitingResponse = true) :
      Moves subs s (.periodicThread now) { s with periodic := .sending rest }
  | send {now : ℤ} {task : τ} {rest : List τ} {status : TaskStatus}
      (hpc : s.periodic = .sending (task :: rest))
      (hstatus : s.monitor.monitoredTasks.find? task = some status)
      (hfree : ¬ status.awaitingResponse = true) :
      Moves subs s (.periodicThread now) { s.sendTo task status now with periodic := .sending rest }
  | wake {now : ℤ} (hpc : s.periodic = .sleeping) :
      Moves subs s (.periodicThread now) { s with periodic := .testing }
  | deliver {p : Option τ} {msg : Msg τ} {x : τ} {rest : List τ}
      (hsub : s.sub = some ⟨p, msg, x :: rest⟩) :
      Moves subs s .deliver { s.deliverMessage x msg with sub := some ⟨p, msg, rest⟩ }
  | deliveredQueue {x : τ} {msg : Msg τ} (hsub : s.sub = some ⟨some x, msg, []⟩) :
      Moves subs s .deliver { s with sub := none, loop := Function.update s.loop x .testing }
  | deliveredDemand {msg : Msg τ} (hsub : s.sub = some ⟨none, msg, []⟩)
      (hpc : s.caller = .publishing) :
      Moves subs s .deliver { s with sub := none, caller := .waiting }
  | deliveredStop {msg : Msg τ} {success : Bool} {x : τ} {rest : List τ}
      (hsub : s.sub = some ⟨none, msg, []⟩) (hpc : s.caller = .stopPublishing success x rest) :
      Moves subs s .deliver { s with sub := none, caller := .notifying success x rest }
  | delivered {msg : Msg τ} (hsub : s.sub = some ⟨none, msg, []⟩) :
      Moves subs s .deliver { s with sub := none }

theorem callStep_moves (hs : s.callStep subs = some s') : Moves subs s .call s' := by
  unfold callStep at hs
  cases hpc : s.caller with
  | idle => simp only [hpc] at hs; cases hs
  | setTarget =>
      simp only [hpc] at hs
      obtain rfl := Option.some.inj hs
      exact .setTarget hpc
  | transition =>
      simp only [hpc] at hs
      obtain rfl := Option.some.inj hs
      exact .transition hpc
  | publish =>
      simp only [hpc] at hs
      split_ifs at hs with hfree
      obtain rfl := Option.some.inj hs
      exact .publish hpc hfree
  | publishing => simp only [hpc] at hs; cases hs
  | waiting =>
      simp only [hpc] at hs
      obtain rfl := Option.some.inj hs
      exact .check hpc
  | checking rest timedOut =>
      cases rest with
      | nil =>
          simp only [hpc] at hs
          obtain rfl := Option.some.inj hs
          exact .succeed hpc
      | cons t rest =>
          simp only [hpc] at hs
          obtain rfl := Option.some.inj hs
          split_ifs with ht htimedOut
          · exact .pass hpc ht
          · subst htimedOut
            exact .giveUp hpc ht
          · rw [Bool.not_eq_true] at htimedOut
            subst htimedOut
            exact .waitAgain hpc ht
  | stopping success rest =>
      cases rest with
      | nil =>
          simp only [hpc] at hs
          obtain rfl := Option.some.inj hs
          exact .returned hpc
      | cons x rest =>
          simp only [hpc] at hs
          split_ifs at hs with hrunning
          · obtain rfl := Option.some.inj hs
            exact .stop hpc hrunning
          · obtain rfl := Option.some.inj hs
            exact .skip hpc hrunning
  | assigning success x rest =>
      simp only [hpc] at hs
      split_ifs at hs with hx
      · obtain rfl := Option.some.inj hs
        exact .assignManager hpc hx
      · obtain rfl := Option.some.inj hs
        exact .assign hpc hx
  | announcing success x rest =>
      simp only [hpc] at hs
      split_ifs at hs with hfree
      obtain rfl := Option.some.inj hs
      exact .announce hpc hfree
  | stopPublishing success x rest => simp only [hpc] at hs; cases hs
  | notifying success x rest =>
      simp only [hpc] at hs
      obtain rfl := Option.some.inj hs
      exact .notify hpc
  | joining success x rest =>
      simp only [hpc] at hs
      split at hs
      · rename_i hexited
        obtain rfl := Option.some.inj hs
        exact .join hpc hexited
      · cases hs
  | joiningPeriodic success x rest =>
      simp only [hpc] at hs
      split_ifs at hs with hx
      · split at hs
        · rename_i hexited
          obtain rfl := Option.some.inj hs
          exact .joinPeriodic hpc (fun _ => hexited)
        · cases hs
      · obtain rfl := Option.some.inj hs
        exact .joinPeriodic hpc (fun hself => absurd hself hx)
  | returned success => simp only [hpc] at hs; cases hs

theorem handleStep_moves {x : τ} {msg : Msg τ} {now : ℤ} (hpc : s.loop x = .handling msg)
    (hs : s.handleStep x msg now = some s') : Moves subs s (.queueThread x now) s' := by
  unfold handleStep at hs
  simp only at hs
  by_cases hx : x = s.manager.self
  · rw [if_pos hx] at hs
    obtain rfl := Option.some.inj hs
    exact .record hpc hx
  · rw [if_neg hx] at hs
    cases hdata : msg.msgData with
    | stateMsg m =>
        simp only [hdata] at hs
        obtain rfl := Option.some.inj hs
        exact .take hpc hx hdata
    | stateAckMsg ack =>
        simp only [hdata] at hs
        obtain rfl := Option.some.inj hs
        exact .ignore hpc hx (by rw [hdata]; nofun)
    | heartbeatMsg m =>
        simp only [hdata] at hs
        obtain rfl := Option.some.inj hs
        exact .heartbeat hpc hx hdata
    | heartbeatAckMsg ack =>
        simp only [hdata] at hs
        split_ifs at hs with hmonitor hfree
        · obtain rfl := Option.some.inj hs
          exact .acknowledged hpc hx hmonitor hfree hdata
        · obtain rfl := Option.some.inj hs
          exact .ignore hpc hx (by rw [hdata]; nofun)

theorem queueStep_moves {x : τ} {now : ℤ} (hs : s.queueStep subs x now = some s') :
    Moves subs s (.queueThread x now) s' := by
  unfold queueStep at hs
  simp only at hs
  cases hpc : s.loop x with
  | testing =>
      simp only [hpc] at hs
      obtain rfl := Option.some.inj hs
      exact .test hpc
  | dequeuing =>
      simp only [hpc] at hs
      split at hs
      · rename_i msg rest hpop
        obtain rfl := Option.some.inj hs
        exact .dequeue hpc hpop
      · rename_i hpop
        split_ifs at hs with hdown
        obtain rfl := Option.some.inj hs
        exact .dequeueNull hpc hpop hdown
  | handling msg =>
      simp only [hpc] at hs
      exact handleStep_moves hpc hs
  | announcing =>
      simp only [hpc] at hs
      split_ifs at hs with hfree
      obtain rfl := Option.some.inj hs
      exact .announceState hpc hfree
  | answering m =>
      simp only [hpc] at hs
      split_ifs at hs with hfree
      obtain rfl := Option.some.inj hs
      exact .answer hpc hfree
  | publishing => simp only [hpc] at hs; cases hs
  | exited => simp only [hpc] at hs; cases hs

theorem periodicStep_moves {now : ℤ} (hs : s.periodicStep now = some s') :
    Moves subs s (.periodicThread now) s' := by
  unfold periodicStep at hs
  cases hpc : s.periodic with
  | testing =>
      simp only [hpc] at hs
      obtain rfl := Option.some.inj hs
      exact .periodicTest hpc
  | lockCheck =>
      simp only [hpc] at hs
      obtain rfl := Option.some.inj hs
      exact .lockCheck hpc
  | checking reading rest =>
      cases rest with
      | nil =>
          simp only [hpc] at hs
          obtain rfl := Option.some.inj hs
          exact .checkedAll hpc
      | cons task rest =>
          simp only [hpc] at hs
          split at hs
          · rename_i hnone
            obtain rfl := Option.some.inj hs
            exact .checkedTask hpc (by rw [hnone]; nofun)
          · rename_i status hstatus
            split_ifs at hs with hoverdue hmanager
            · obtain rfl := Option.some.inj hs
              exact .overdue hpc hstatus hoverdue hmanager
            · obtain rfl := Option.some.inj hs
              exact .overdueAlone hpc hstatus hoverdue hmanager
            · obtain rfl := Option.some.inj hs
              refine .checkedTask hpc (fun status' hstatus' => ?_)
              obtain rfl := Option.some.inj (hstatus.symm.trans hstatus')
              exact hoverdue
  | marking reading task rest =>
      simp only [hpc] at hs
      split_ifs at hs with hfree
      obtain rfl := Option.some.inj hs
      exact .mark hpc hfree
  | checked =>
      simp only [hpc] at hs
      obtain rfl := Option.some.inj hs
      exact .goOn hpc
  | sending rest =>
      cases rest with
      | nil =>
          simp only [hpc] at hs
          obtain rfl := Option.some.inj hs
          exact .sentAll hpc
      | cons task rest =>
          simp only [hpc] at hs
          split at hs
          · rename_i hnone
            obtain rfl := Option.some.inj hs
            exact .passOver hpc (by rw [hnone]; nofun)
          · rename_i status hstatus
            split_ifs at hs with hawaiting
            · obtain rfl := Option.some.inj hs
              refine .passOver hpc (fun status' hstatus' => ?_)
              obtain rfl := Option.some.inj (hstatus.symm.trans hstatus')
              exact hawaiting
            · obtain rfl := Option.some.inj hs
              exact .send hpc hstatus hawaiting
  | sleeping =>
      simp only [hpc] at hs
      obtain rfl := Option.some.inj hs
      exact .wake hpc
  | exited => simp only [hpc] at hs; cases hs

theorem deliverStep_moves (hs : s.deliverStep = some s') : Moves subs s .deliver s' := by
  unfold deliverStep at hs
  split at hs
  · cases hs
  · rename_i p msg x rest hsub
    obtain rfl := Option.some.inj hs
    exact .deliver hsub
  · rename_i x msg hsub
    obtain rfl := Option.some.inj hs
    exact .deliveredQueue hsub
  · rename_i msg hsub
    obtain rfl := Option.some.inj hs
    split
    · rename_i hpc
      exact .deliveredDemand hsub hpc
    · rename_i success x rest hpc
      exact .deliveredStop hsub hpc
    · exact .delivered hsub

theorem step_moves {e : ShutdownEvent τ} (hs : s.step subs e = some s') : Moves subs s e s' := by
  unfold step at hs
  cases e with
  | shutdown =>
      simp only at hs
      split at hs
      · rename_i hpc
        obtain rfl := Option.some.inj hs
        exact .shutdown hpc
      · cases hs
  | call => exact callStep_moves hs
  | timeout =>
      simp only at hs
      split at hs
      · rename_i hpc
        obtain rfl := Option.some.inj hs
        exact .timeout hpc
      · cases hs
  | queueThread x now => exact queueStep_moves hs
  | periodicThread now => exact periodicStep_moves hs
  | deliver => exact deliverStep_moves hs

/-! ### What is said during the shutdown -/

/-- The message commands or acknowledges no state but `STOPPED`. -/
def OnlyStopped (msg : Msg τ) : Prop :=
  match msg.msgData with
  | .stateMsg m => TaskState.ofByte m.state = .stopped
  | .stateAckMsg ack => TaskState.ofByte ack.state = .stopped
  | _ => True

/-- No `StateMsg` or `StateAckMsg` is in flight: in a queue, in the hands of a queue thread, about to
be published or being broadcast; no task is being marked; and `shutdown` has not been called. -/
structure Clean (s : ShutdownSystem τ) : Prop where
  queued : ∀ x, ∀ msg ∈ s.queue x, msg.getType ≠ .stateMsg ∧ msg.getType ≠ .stateAckMsg
  inHand : ∀ x msg, s.loop x = .handling msg →
    msg.getType ≠ .stateMsg ∧ msg.getType ≠ .stateAckMsg
  announcing : ∀ x, s.loop x ≠ .announcing
  broadcast : ∀ d, s.sub = some d → d.msg.getType ≠ .stateMsg ∧ d.msg.getType ≠ .stateAckMsg
  unmarked : ∀ now task rest, s.periodic ≠ .marking now task rest
  caller : s.caller = .idle

/-- The status that the next step of `check_for_timeouts` looks at, with the clock reading. -/
def underCheck (s : ShutdownSystem τ) : Option (ℤ × TaskStatus) :=
  match s.periodic with
  | .checking now (task :: _) =>
      (s.monitor.monitoredTasks.find? task).map (fun status => (now, status))
  | _ => none

/-- A check for timeouts finds no heartbeat overdue. -/
def Responsive (s : ShutdownSystem τ) : ShutdownEvent τ → Prop
  | .periodicThread _ => ∀ p ∈ s.underCheck, s.monitor.overdue p.1 p.2 = false
  | _ => True

instance decidableResponsive (s : ShutdownSystem τ) : ∀ e, Decidable (Responsive s e)
  | .periodicThread _ =>
      inferInstanceAs (Decidable (∀ p ∈ s.underCheck, s.monitor.overdue p.1 p.2 = false))
  | .shutdown => isTrue trivial
  | .call => isTrue trivial
  | .timeout => isTrue trivial
  | .queueThread _ _ => isTrue trivial
  | .deliver => isTrue trivial

/-- The demand has returned true. -/
def succeeded : ShutdownPc τ → Bool
  | .stopping success _ => success
  | .assigning success _ _ => success
  | .announcing success _ _ => success
  | .stopPublishing success _ _ => success
  | .notifying success _ _ => success
  | .joining success _ _ => success
  | .joiningPeriodic success _ _ => success
  | .returned success => success
  | _ => false

/-- Nothing but `STOPPED` is commanded, taken, acknowledged or recorded any more.  The records that a
check has passed, and all of them once the demand has succeeded, are `STOPPED`. -/
structure Closing (s : ShutdownSystem τ) : Prop where
  queued : ∀ x, ∀ msg ∈ s.queue x, OnlyStopped msg
  inHand : ∀ x msg, s.loop x = .handling msg → OnlyStopped msg
  announcing : ∀ x, s.loop x = .announcing → s.currentState x = .stopped
  broadcast : ∀ d, s.sub = some d → OnlyStopped d.msg
  unmarked : ∀ now task rest, s.periodic ≠ .marking now task rest
  assigned : ∀ success x rest, s.caller = .announcing success x rest →
    x = s.manager.self ∨ s.currentState x = .stopped
  passed : ∀ rest timedOut, s.caller = .checking rest timedOut →
    ∀ t state, s.manager.taskStates.find? t = some state → t ∈ rest ∨ state = .stopped
  stopped : succeeded s.caller = true →
    ∀ t state, s.manager.taskStates.find? t = some state → state = .stopped

omit [LinearOrder τ] in
theorem onlyStopped_of_type {msg : Msg τ} (hmsg : msg.getType ≠ .stateMsg)
    (hack : msg.getType ≠ .stateAckMsg) : OnlyStopped msg := by
  unfold OnlyStopped
  unfold Msg.getType at hmsg hack
  split
  · rename_i m hdata
    rw [hdata] at hmsg
    exact absurd rfl hmsg
  · rename_i ack hdata
    rw [hdata] at hack
    exact absurd rfl hack
  · trivial

theorem Clean.closing (h : Clean s) : Closing s where
  queued x msg hmsg := onlyStopped_of_type (h.queued x msg hmsg).1 (h.queued x msg hmsg).2
  inHand x msg hmsg := onlyStopped_of_type (h.inHand x msg hmsg).1 (h.inHand x msg hmsg).2
  announcing x hx := absurd hx (h.announcing x)
  broadcast d hd := onlyStopped_of_type (h.broadcast d hd).1 (h.broadcast d hd).2
  unmarked := h.unmarked
  assigned success x rest hpc := by
    rw [h.caller] at hpc
    cases hpc
  passed rest timedOut hpc := by
    rw [h.caller] at hpc
    cases hpc
  stopped hs := by
    rw [h.caller] at hs
    cases hs

/-! ### The thread in `shutdown` -/

omit [LinearOrder τ] in
theorem onlyStopped_ackMsg (t : τ) : OnlyStopped (ackMsg t .stopped) := rfl

/-- The calling thread goes on to a point where it does not check and does not announce, and leaves the
records alone. -/
theorem Closing.advance (h : Closing s) {pc : ShutdownPc τ} {manager : StateManager τ}
    {running queueDown : τ → Bool} {sub : Option (Announcement τ)}
    (htasks : manager.taskStates = s.manager.taskStates)
    (hsub : ∀ d, sub = some d → OnlyStopped d.msg)
    (hcheck : ∀ rest timedOut, pc ≠ .checking rest timedOut)
    (hannounce : ∀ success x rest, pc ≠ .announcing success x rest)
    (hs : succeeded pc = true → succeeded s.caller = true) :
    Closing { s with
      manager := manager
      running := running
      queueDown := queueDown
      sub := sub
      caller := pc } :=
  { h with
    broadcast := hsub
    assigned := fun success x rest hpc => absurd hpc (hannounce success x rest)
    passed := fun rest timedOut hpc => absurd hpc (hcheck rest timedOut)
    stopped := fun hpc t state ht => h.stopped (hs hpc) t state (htasks ▸ ht) }

theorem Closing.check (h : Closing s) (timedOut : Bool) :
    Closing { s with caller := .checking s.recorded timedOut } :=
  { h with
    assigned := nofun
    passed := fun rest timedOut' hpc t state ht => by
      obtain ⟨rfl, -⟩ := ShutdownPc.checking.inj hpc
      exact .inl (List.mem_map_of_mem (OrdMap.find?_eq_some_iff.mp ht))
    stopped := nofun }

theorem Closing.pass (h : Closing s) {u : τ} {rest : List τ} {timedOut : Bool}
    (hpc : s.caller = .checking (u :: rest) timedOut)
    (hu : s.manager.taskStates.find? u = some .stopped) :
    Closing { s with caller := .checking rest timedOut } := by
  refine { h with assigned := nofun, passed := ?_, stopped := nofun }
  intro rest' timedOut' hpc' t state ht
  obtain ⟨rfl, -⟩ := ShutdownPc.checking.inj hpc'
  rcases h.passed (u :: rest) timedOut hpc t state ht with hmem | hstate
  · rcases List.mem_cons.mp hmem with rfl | hmem
    · exact .inr (Option.some.inj (ht.symm.trans hu))
    · exact .inl hmem
  · exact .inr hstate

theorem Closing.succeed (h : Closing s) {timedOut : Bool} (hpc : s.caller = .checking [] timedOut)
    (rest : List τ) : Closing { s with caller := .stopping true rest } :=
  { h with
    assigned := nofun
    passed := nofun
    stopped := fun _ t state ht =>
      (h.passed [] timedOut hpc t state ht).resolve_left List.not_mem_nil }

theorem Closing.send (h : Closing s) {p : Option τ} {msg : Msg τ} (rest : List τ)
    (hmsg : OnlyStopped msg) : Closing { s with sub := some ⟨p, msg, rest⟩ } := by
  refine { h with broadcast := ?_ }
  intro d hd
  cases hd
  exact hmsg

theorem Closing.write (h : Closing s) {manager : StateManager τ}
    (hself : manager.self = s.manager.self)
    (hw : ∀ t state, manager.taskStates.find? t = some state →
      s.manager.taskStates.find? t = some state ∨ state = .stopped) :
    Closing { s with manager := manager } :=
  { h with
    assigned := fun success x rest hpc =>
      (h.assigned success x rest hpc).imp (fun hx => hx.trans hself.symm) id
    passed := fun rest timedOut hpc t state ht =>
      (hw t state ht).elim (h.passed rest timedOut hpc t state) .inr
    stopped := fun hs t state ht => (hw t state ht).elim (h.stopped hs t state) id }

theorem Closing.assign (h : Closing s) (x : τ) :
    Closing { s with currentState := Function.update s.currentState x .stopped } := by
  have hupdate : ∀ u, s.currentState u = .stopped →
      Function.update s.currentState x .stopped u = .stopped := by
    intro u hu
    by_cases hux : u = x
    · rw [hux, Function.update_self]
    · rw [Function.update_of_ne hux]
      exact hu
  exact { h with
    announcing := fun u hu => hupdate u (h.announcing u hu)
    assigned := fun success u rest hpc => (h.assigned success u rest hpc).imp id (hupdate u) }

theorem Closing.announce (h : Closing s) {success : Bool} {x : τ} {rest : List τ}
    (hs : succeeded s.caller = success) (hx : x = s.manager.self ∨ s.currentState x = .stopped) :
    Closing { s with caller := .announcing success x rest } := by
  refine { h with assigned := ?_, passed := nofun, stopped := fun hb => h.stopped (hs.trans hb) }
  intro success' x' rest' hpc
  obtain ⟨-, rfl, -⟩ := ShutdownPc.announcing.inj hpc
  exact hx

/-! ### The queue threads -/

theorem Closing.goto (h : Closing s) {x : τ} {pc : LoopPc τ}
    (hhand : ∀ msg, pc = .handling msg → OnlyStopped msg)
    (hannounce : pc = .announcing → s.currentState x = .stopped) :
    Closing { s with loop := Function.update s.loop x pc } := by
  refine { h with inHand := ?_, announcing := ?_ }
  · intro u msg hu
    have hu' : Function.update s.loop x pc u = .handling msg := hu
    by_cases hux : u = x
    · rw [hux, Function.update_self] at hu'
      exact hhand msg hu'
    · rw [Function.update_of_ne hux] at hu'
      exact h.inHand u msg hu'
  · intro u hu
    have hu' : Function.update s.loop x pc u = .announcing := hu
    by_cases hux : u = x
    · rw [hux, Function.update_self] at hu'
      rw [hux]
      exact hannounce hu'
    · rw [Function.update_of_ne hux] at hu'
      exact h.announcing u hu'

/-- The queue of a task changes, and holds no other states. -/
theorem Closing.enqueue (h : Closing s) {x : τ} {l : List (Msg τ)}
    (hl : ∀ msg ∈ l, msg ∈ s.queue x ∨ OnlyStopped msg) :
    Closing { s with queue := Function.update s.queue x l } := by
  refine { h with queued := ?_ }
  intro u msg hmsg
  by_cases hux : u = x
  · subst hux
    have hmem : msg ∈ l := by simpa using hmsg
    exact (hl msg hmem).elim (h.queued u msg) id
  · have hmem : msg ∈ s.queue u := by simpa [Function.update_of_ne hux] using hmsg
    exact h.queued u msg hmem

/-- The manager records an acknowledgment, if the message is one. -/
theorem Closing.processMessage (h : Closing s) {msg : Msg τ} (hmsg : OnlyStopped msg) :
    Closing { s with manager := (s.manager.processMessage msg).1 } := by
  cases hack : s.manager.acknowledged msg with
  | none =>
      rw [StateManager.processMessage_of_not_acknowledged hack]
      exact h
  | some p =>
      obtain ⟨u, written⟩ := p
      obtain ⟨-, -, ack, hdata, rfl⟩ := StateManager.acknowledged_eq_some_iff.mp hack
      rw [StateManager.processMessage_of_acknowledged hack]
      apply h.write
      · rfl
      · intro t state ht
        simp only [OrdMap.find?_insert] at ht
        split_ifs at ht
        · unfold OnlyStopped at hmsg
          rw [hdata] at hmsg
          exact .inr ((Option.some.inj ht).symm.trans hmsg)
        · exact .inl ht

/-! ### The monitor and the broadcast -/

theorem Responsive.not_overdue {now reading : ℤ} {task : τ} {rest : List τ} {status : TaskStatus}
    (h : Responsive s (.periodicThread now)) (hpc : s.periodic = .checking reading (task :: rest))
    (hstatus : s.monitor.monitoredTasks.find? task = some status) :
    s.monitor.overdue reading status = false := by
  have hunder : (reading, status) ∈ s.underCheck := by
    simp [underCheck, hpc, hstatus]
  exact h _ hunder

/-- The periodic thread goes on, and does not mark a task. -/
theorem Closing.move (h : Closing s) {monitor : HeartBeatTask τ} {pc : MonitorPc τ}
    (hpc : ∀ reading task rest, pc ≠ .marking reading task rest) :
    Closing { s with monitor := monitor, periodic := pc } :=
  { h with unmarked := hpc }

theorem Closing.deliverMessage (h : Closing s) (x : τ) {msg : Msg τ} (hmsg : OnlyStopped msg) :
    Closing (s.deliverMessage x msg) := by
  apply h.enqueue
  intro m hm
  rcases List.mem_append.mp hm with hm | hm
  · exact .inl hm
  · rw [List.mem_singleton.mp hm]
    exact .inr hmsg

theorem moves_closing {e : ShutdownEvent τ} (h : Closing s) (hc : Responsive s e)
    (hm : Moves subs s e s') : Closing s' := by
  cases hm with
  | shutdown hpc => exact h.advance rfl h.broadcast nofun nofun nofun
  | setTarget hpc => exact h.advance rfl h.broadcast nofun nofun nofun
  | transition hpc => exact h.advance rfl h.broadcast nofun nofun nofun
  | publish hpc hfree =>
      have hsub : Closing { s with
          sub := some ⟨none, (s.manager.transitionToState .stopped).2, subs .stateMsg⟩ } :=
        h.send _ rfl
      exact hsub.advance rfl hsub.broadcast nofun nofun nofun
  | check hpc => exact h.check false
  | timeout hpc => exact h.check true
  | succeed hpc => exact h.succeed hpc _
  | pass hpc ht => exact h.pass hpc ht
  | giveUp hpc ht => exact h.advance rfl h.broadcast nofun nofun nofun
  | waitAgain hpc ht => exact h.advance rfl h.broadcast nofun nofun nofun
  | returned hpc => exact h.advance rfl h.broadcast nofun nofun (by rw [hpc]; exact id)
  | stop hpc hrunning => exact h.advance rfl h.broadcast nofun nofun (by rw [hpc]; exact id)
  | skip hpc hrunning => exact h.advance rfl h.broadcast nofun nofun (by rw [hpc]; exact id)
  | assignManager hpc hx =>
      have hwrite : Closing { s with manager := (s.manager.transitionToState .stopped).1 } :=
        h.write rfl (fun _ _ => .inl)
      exact hwrite.announce (by rw [hpc]; rfl) (.inl hx)
  | assign hpc hx =>
      exact (h.assign _).announce (by rw [hpc]; rfl) (.inr (Function.update_self ..))
  | @announce success x rest hpc hfree =>
      have hmsg : OnlyStopped (s.stopMsg x) := by
        unfold stopMsg
        split_ifs with hx
        · rfl
        · rw [(h.assigned success x rest hpc).resolve_left hx]
          exact onlyStopped_ackMsg x
      have hsub : Closing { s with sub := some ⟨none, s.stopMsg x, subs (s.stopMsg x).getType⟩ } :=
        h.send _ hmsg
      exact hsub.advance rfl hsub.broadcast nofun nofun (by rw [hpc]; exact id)
  | notify hpc => exact h.advance rfl h.broadcast nofun nofun (by rw [hpc]; exact id)
  | join hpc hexited => exact h.advance rfl h.broadcast nofun nofun (by rw [hpc]; exact id)
  | joinPeriodic hpc hexited => exact h.advance rfl h.broadcast nofun nofun (by rw [hpc]; exact id)
  | test hpc =>
      split_ifs
      · exact h.goto nofun nofun
      · exact h.goto nofun nofun
  | @dequeue x now msg rest hpc hpop =>
      have hperm := StableQueue.pop_perm _ hpop
      have hmsg : OnlyStopped msg := h.queued x msg (hperm.mem_iff.mpr List.mem_cons_self)
      have hrest : Closing { s with queue := Function.update s.queue x rest } :=
        h.enqueue (fun m hm => .inl (hperm.mem_iff.mpr (List.mem_cons_of_mem msg hm)))
      refine hrest.goto ?_ nofun
      intro m hm
      cases hm
      exact hmsg
  | dequeueNull hpc hpop hdown => exact h.goto nofun nofun
  | record hpc hx => exact (h.processMessage (h.inHand _ _ hpc)).goto nofun nofun
  | @take x now msg m hpc hx hdata =>
      have hstate : TaskState.ofByte m.state = .stopped := by
        have hmsg := h.inHand x msg hpc
        unfold OnlyStopped at hmsg
        rwa [hdata] at hmsg
      rw [hstate]
      exact (h.assign x).goto nofun (fun _ => Function.update_self ..)
  | heartbeat hpc hx hdata =>
      split_ifs
      · exact h.goto nofun nofun
      · exact h.goto nofun nofun
  | @acknowledged x now msg ack hpc hx hmonitor hfree hdata =>
      have hanswered : Closing { s with
          monitor := s.monitor.handleAcknowledgment msg.sendingTask ack now } := { h with }
      exact hanswered.goto nofun nofun
  | ignore hpc hx hdata => exact h.goto nofun nofun
  | @announceState x now hpc hfree =>
      have hmsg : OnlyStopped (ackMsg x (s.currentState x)) := by
        rw [h.announcing x hpc]
        exact onlyStopped_ackMsg x
      exact (h.send _ hmsg).goto nofun nofun
  | @answer x now m hpc hfree =>
      have hmsg : OnlyStopped (⟨some x, .heartbeatAckMsg
          ⟨m.uniqueId, m.timestamp, UInt64.ofInt (toMilliseconds now)⟩⟩ : Msg τ) := trivial
      exact (h.send _ hmsg).goto nofun nofun
  | periodicTest hpc =>
      apply h.move
      split_ifs
      · nofun
      · nofun
  | lockCheck hpc => exact h.move nofun
  | checkedAll hpc => exact h.move nofun
  | checkedTask hpc hintime => exact h.move nofun
  | @overdue now reading task rest status hpc hstatus hoverdue hmanager =>
      rw [hc.not_overdue hpc hstatus] at hoverdue
      cases hoverdue
  | @overdueAlone now reading task rest status hpc hstatus hoverdue hmanager =>
      rw [hc.not_overdue hpc hstatus] at hoverdue
      cases hoverdue
  | mark hpc hfree => exact absurd hpc (h.unmarked _ _ _)
  | goOn hpc =>
      apply h.move
      split_ifs
      · nofun
      · nofun
  | sentAll hpc => exact h.move nofun
  | passOver hpc hawaited => exact h.move nofun
  | @send now task rest status hpc hstatus hfree =>
      have hsent : Closing { s with
          monitor := (s.sendTo task status now).monitor
          periodic := .sending rest } := h.move nofun
      exact hsent.deliverMessage task trivial
  | wake hpc => exact h.move nofun
  | @deliver p msg x rest hsub =>
      have hmsg : OnlyStopped msg := h.broadcast _ hsub
      exact (h.send rest hmsg).deliverMessage x hmsg
  | deliveredQueue hsub =>
      have hended : Closing { s with sub := none } := { h with broadcast := nofun }
      exact hended.goto nofun nofun
  | deliveredDemand hsub hpc => exact h.advance rfl nofun nofun nofun nofun
  | deliveredStop hsub hpc => exact h.advance rfl nofun nofun nofun (by rw [hpc]; exact id)
  | delivered hsub => exact { h with broadcast := nofun }

/-- A shutdown that is called with no state in flight, whose demand succeeds and during which no check
finds a heartbeat overdue, leaves all records at `STOPPED`. -/
theorem shutdown_recorded {es : List (ShutdownEvent τ)} (hclean : Clean s)
    (hrun : run (step subs) s es = some s') (hresponsive : Along (step subs) Responsive s es)
    (hreturned : s'.caller = .returned true) :
    ∀ t state, s'.manager.taskStates.find? t = some state → state = .stopped := by
  have hstep : ∀ (s : ShutdownSystem τ) e s', Closing s → Responsive s e →
      s.step subs e = some s' → Closing s' := fun _ _ _ h hc hs => moves_closing h hc (step_moves hs)
  have hclosing : Closing s' := run_invariant_along hstep hclean.closing hresponsive hrun
  apply hclosing.stopped
  rw [hreturned]
  rfl

/-- The subscriptions of the manager, the monitor and the tasks. -/
def wiring (mgr hb : τ) (tasks : List τ) : MsgType → List τ
  | .stateMsg => tasks
  | .stateAckMsg => [mgr]
  | .heartbeatAckMsg => [hb]
  | .heartbeatMsg => []

/-- All tasks are registered and `RUNNING`, one of them is the monitor and monitors the others, and
nothing is in flight. -/
def started (mgr hb : τ) (tasks : List τ) (responseTimeoutMs : ℤ) : ShutdownSystem τ where
  manager :=
    { StateManager.create mgr .running .running with
      taskStates := tasks.foldl (fun m t => m.insert t .running) .empty }
  monitor := tasks.foldl (fun m t => m.notifyTaskRegistered t 0) (.create hb true responseTimeoutMs)
  currentState := fun _ => .running
  running := fun _ => true
  queue := fun _ => []
  queueDown := fun _ => false
  loop := fun _ => .testing
  periodic := .testing
  caller := .idle
  sub := none

theorem started_clean (mgr hb : τ) (tasks : List τ) (responseTimeoutMs : ℤ) :
    Clean (started mgr hb tasks responseTimeoutMs) where
  queued := nofun
  inHand := nofun
  announcing := nofun
  broadcast := nofun
  unmarked := nofun
  caller := rfl

theorem Clean.sendTo (h : Clean s) (task : τ) (status : TaskStatus) (now : ℤ) :
    Clean (s.sendTo task status now) := by
  refine { h with queued := ?_ }
  intro x msg hmsg
  have hmsg' : msg ∈ Function.update s.queue task (s.queue task ++ [⟨some s.monitor.self,
      .heartbeatMsg ⟨s.monitor.nextHeartbeatId, UInt64.ofInt (toMilliseconds now)⟩⟩]) x := hmsg
  by_cases hx : x = task
  · rw [hx, Function.update_self, List.mem_append, List.mem_singleton] at hmsg'
    rcases hmsg' with hmem | rfl
    · exact h.queued task msg hmem
    · exact ⟨nofun, nofun⟩
  · rw [Function.update_of_ne hx] at hmsg'
    exact h.queued x msg hmsg'

theorem Clean.periodic (h : Clean s) {pc : MonitorPc τ}
    (hpc : ∀ now task rest, pc ≠ .marking now task rest) : Clean { s with periodic := pc } :=
  { h with unmarked := hpc }

/-- The monitor `2` has sent a heartbeat to the task `1`, which has not taken it from its queue. -/
def awaiting : ShutdownSystem ℕ :=
  { (started 0 2 [1, 2] 3000).sendTo 1 {} 0 with periodic := .sleeping }

theorem awaiting_clean : Clean awaiting :=
  ((started_clean 0 2 [1, 2] 3000).sendTo 1 {} 0).periodic nofun

/-- A task takes a command from its queue, and its acknowledgment reaches the manager. -/
def acknowledges (x : ℕ) : List (ShutdownEvent ℕ) :=
  [.queueThread x 0, .queueThread x 0, .queueThread x 0, .queueThread x 0, .deliver, .deliver]

/-- The manager `0` takes an acknowledgment and records it. -/
def records : List (ShutdownEvent ℕ) := List.replicate 3 (.queueThread 0 0)

/-- `shutdown` is called and demands `STOPPED`; both tasks acknowledge, and the demand returns. -/
def demandSucceeds : List (ShutdownEvent ℕ) :=
  [[.shutdown, .call, .call, .call, .deliver, .deliver, .deliver], acknowledges 1, acknowledges 2,
    records, records, [.call, .call, .call, .call]].flatten

/-- `stop` of a task: `running` is cleared, the message published to `n` queues, the queue notified,
and the queue thread joined. -/
def stops (x n : ℕ) (now : ℤ) : List (ShutdownEvent ℕ) :=
  [[.call, .call, .call], List.replicate (n + 1) .deliver, [.call, .queueThread x now, .call]].flatten

/-- The whole shutdown, with `n` steps of the periodic thread between the stops of the task `1` and of
the monitor `2`. -/
def shutdownRun (n : ℕ) (now : ℤ) : List (ShutdownEvent ℕ) :=
  [demandSucceeds, stops 1 1 0, [.call], records, List.replicate n (.periodicThread now),
    stops 2 1 now, [.periodicThread now, .periodicThread now, .call], stops 0 2 now,
    [.call, .call]].flatten

/-- The check is made one second after the heartbeat. -/
theorem shutdown_recorded_in_time : ∃ s : ShutdownSystem ℕ,
    run (step (wiring 0 2 [1, 2])) awaiting (shutdownRun 6 1000000000) = some s ∧
    ∀ t state, s.manager.taskStates.find? t = some state → state = .stopped := by
  have heval : (run (step (wiring 0 2 [1, 2])) awaiting (shutdownRun 6 1000000000)).map (fun s =>
      s.caller) = some (.returned true) := by decide +kernel
  obtain ⟨s, hrun, hreturned⟩ := Option.map_eq_some_iff.mp heval
  exact ⟨s, hrun, shutdown_recorded awaiting_clean hrun (by decide +kernel) hreturned⟩

/-- The task `1` is stopped with the heartbeat in its queue.  The check is made four seconds after the
heartbeat, and finds it overdue. -/
theorem stopped_with_heartbeat :
    run (step (wiring 0 2 [1, 2])) (started 0 2 [1, 2] 3000) (List.replicate 7 (.periodicThread 0)) =
      some awaiting ∧
    Clean awaiting ∧
    (∀ p ∈ awaiting.monitor.monitoredTasks.entries, awaiting.monitor.overdue 0 p.2 = false) ∧
    ∃ s, run (step (wiring 0 2 [1, 2])) awaiting (shutdownRun 7 4000000000) = some s ∧
      s.caller = .returned true ∧ s.manager.taskStates.find? 1 = some .error := by
  have heval : (run (step (wiring 0 2 [1, 2])) awaiting (shutdownRun 7 4000000000)).map (fun s =>
      (s.caller, s.manager.taskStates.find? 1)) = some (.returned true, some .error) := by
    decide +kernel
  obtain ⟨s, hrun, hs⟩ := Option.map_eq_some_iff.mp heval
  exact ⟨rfl, awaiting_clean, by decide +kernel, s, hrun, congrArg Prod.fst hs, congrArg Prod.snd hs⟩

end ShutdownSystem

end Protocore
