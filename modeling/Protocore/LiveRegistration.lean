import Protocore.Locks
import Protocore.HeartBeat
import Protocore.StateManager

/-! # Registering a task while the monitor runs

`register_task` locks `state_mutex` and, through the registration observer, `tasks_mutex` inside
it.  `check_for_timeouts` locks `tasks_mutex` and, through `mark_task_as_unresponsive`,
`state_mutex` inside it.  The system here has any number of registering threads, the periodic
thread of the monitor and its queue thread, with one step for each mutex acquisition and release.

A thread is given by its program counter.  The loop of `check_for_timeouts` is unrolled: `rest` are
the tasks it has not visited yet.

* `careless_deadlocks`: the two threads can end up waiting for each other.
* `careful_no_deadlock`: they do not in a run in which a registration and a check with an overdue
  task never both are under way; and once they both are, the deadlock is reachable. -/

namespace Protocore

variable {ρ τ : Type} [DecidableEq ρ] [LinearOrder τ]

/-- The threads: those that register tasks, and the two of the monitor. -/
inductive LiveThread (ρ : Type) where
  | registrar (r : ρ)
  | periodic
  | queue
deriving DecidableEq

/-- `StateManager::state_mutex` and `HeartBeatTask::tasks_mutex`. -/
inductive LiveMutex where
  | state
  | tasks
deriving DecidableEq

/-- Where a thread is inside `register_task`. -/
inductive RegisterPc (τ : Type) where
  | idle
  | lockState (task : τ)
  | record (task : τ)
  | lockTasks (task : τ)
  | insert (task : τ)
  | unlock

/-- Where the periodic thread is inside `periodic_task_process`. -/
inductive PeriodicPc (τ : Type) where
  | idle
  | lockCheck
  | check (now : ℤ) (rest : List τ)
  | lockState (now : ℤ) (task : τ) (rest : List τ)
  | record (now : ℤ) (task : τ) (rest : List τ)
  | lockSend
  | send

/-- Where the queue thread is inside `handle_acknowledgment`. -/
inductive QueuePc (τ : Type) where
  | idle
  | lockTasks (sender : Option τ) (ack : HeartbeatAckMsg)
  | handle (sender : Option τ) (ack : HeartbeatAckMsg)

/-- The mutexes held inside `register_task`. -/
def RegisterPc.holds : RegisterPc τ → LiveMutex → Prop
  | .record _, .state => True
  | .lockTasks _, .state => True
  | .insert _, _ => True
  | .unlock, .state => True
  | _, _ => False

/-- The mutex a registering thread is waiting to acquire. -/
def RegisterPc.waits : RegisterPc τ → Option LiveMutex
  | .lockState _ => some .state
  | .lockTasks _ => some .tasks
  | _ => none

/-- The mutexes held inside `periodic_task_process`. -/
def PeriodicPc.holds : PeriodicPc τ → LiveMutex → Prop
  | .check _ _, .tasks => True
  | .lockState _ _ _, .tasks => True
  | .record _ _ _, _ => True
  | .send, .tasks => True
  | _, _ => False

/-- The mutex the periodic thread is waiting to acquire. -/
def PeriodicPc.waits : PeriodicPc τ → Option LiveMutex
  | .lockCheck => some .tasks
  | .lockState _ _ _ => some .state
  | .lockSend => some .tasks
  | _ => none

/-- The mutexes held inside `handle_acknowledgment`. -/
def QueuePc.holds : QueuePc τ → LiveMutex → Prop
  | .handle _ _, .tasks => True
  | _, _ => False

/-- The mutex the queue thread is waiting to acquire. -/
def QueuePc.waits : QueuePc τ → Option LiveMutex
  | .lockTasks _ _ => some .tasks
  | _ => none

/-- The monitor, the manager, who owns the mutexes, and where the threads are. -/
structure LiveSystem (ρ τ : Type) [LinearOrder τ] where
  monitor : HeartBeatTask τ
  manager : StateManager τ
  owner : LiveMutex → Option (LiveThread ρ)
  registrar : ρ → RegisterPc τ
  periodic : PeriodicPc τ
  queue : QueuePc τ

/-- A call begins, or a thread takes its next step; `now` and `sendNow` are its clock readings. -/
inductive LiveEvent (ρ τ : Type) where
  | registerTask (r : ρ) (task : τ)
  | register (r : ρ) (now : ℤ)
  | periodicTaskProcess
  | periodic (now : ℤ) (sendNow : τ → ℤ)
  | handleAcknowledgment (sender : Option τ) (ack : HeartbeatAckMsg)
  | transitionToState (newState : TaskState)
  | queue (now : ℤ)

namespace LiveSystem

/-- No thread is inside a call. -/
def init (monitor : HeartBeatTask τ) (manager : StateManager τ) : LiveSystem ρ τ :=
  ⟨monitor, manager, fun _ => none, fun _ => .idle, .idle, .idle⟩

/-- `status.awaiting_response = false`. -/
def clearAwaiting (hb : HeartBeatTask τ) (task : τ) : HeartBeatTask τ :=
  match hb.monitoredTasks.find? task with
  | some status =>
      { hb with
        monitoredTasks := hb.monitoredTasks.insert task { status with awaitingResponse := false } }
  | none => hb

/-- The next step of a thread in `register_task`. -/
def registerStep (s : LiveSystem ρ τ) (r : ρ) (now : ℤ) : Option (LiveSystem ρ τ) :=
  let goto := fun pc => Function.update s.registrar r pc
  match s.registrar r with
  | .idle => none
  | .lockState task =>
      if s.owner .state = none then
        some { s with
          owner := Function.update s.owner .state (some (.registrar r))
          registrar := goto (.record task) }
      else none
  | .record task =>
      -- notify_task_registered returns at once for the monitor itself
      some { s with
        manager := s.manager.registerTask task
        registrar := goto (if task = s.monitor.self then .unlock else .lockTasks task) }
  | .lockTasks task =>
      if s.owner .tasks = none then
        some { s with
          owner := Function.update s.owner .tasks (some (.registrar r))
          registrar := goto (.insert task) }
      else none
  | .insert task =>
      some { s with
        monitor := s.monitor.notifyTaskRegistered task now
        owner := Function.update s.owner .tasks none
        registrar := goto .unlock }
  | .unlock =>
      some { s with owner := Function.update s.owner .state none, registrar := goto .idle }

/-- The next step of the periodic thread. -/
def periodicStep (s : LiveSystem ρ τ) (now : ℤ) (sendNow : τ → ℤ) : Option (LiveSystem ρ τ) :=
  match s.periodic with
  | .idle => none
  | .lockCheck =>
      if s.owner .tasks = none then
        some { s with
          owner := Function.update s.owner .tasks (some .periodic)
          periodic := .check now (s.monitor.monitoredTasks.entries.map Prod.fst) }
      else none
  | .check _ [] =>
      some { s with
        owner := Function.update s.owner .tasks none
        periodic := if s.monitor.currentState = .running then .lockSend else .idle }
  | .check now (task :: rest) =>
      match s.monitor.monitoredTasks.find? task with
      | none => some { s with periodic := .check now rest }
      | some status =>
          if s.monitor.overdue now status then
            if s.monitor.stateManager then some { s with periodic := .lockState now task rest }
            else some { s with
              monitor := clearAwaiting s.monitor task
              periodic := .check now rest }
          else some { s with periodic := .check now rest }
  | .lockState now task rest =>
      if s.owner .state = none then
        some { s with
          owner := Function.update s.owner .state (some .periodic)
          periodic := .record now task rest }
      else none
  | .record now task rest =>
      some { s with
        manager := s.manager.recordUnresponsive task
        monitor := clearAwaiting s.monitor task
        owner := Function.update s.owner .state none
        periodic := .check now rest }
  | .lockSend =>
      if s.owner .tasks = none then
        some { s with
          owner := Function.update s.owner .tasks (some .periodic)
          periodic := .send }
      else none
  | .send =>
      some { s with
        monitor := (s.monitor.sendHeartbeat sendNow).1
        owner := Function.update s.owner .tasks none
        periodic := .idle }

/-- The next step of the queue thread in `handle_acknowledgment`. -/
def queueStep (s : LiveSystem ρ τ) (now : ℤ) : Option (LiveSystem ρ τ) :=
  match s.queue with
  | .idle => none
  | .lockTasks sender ack =>
      if s.owner .tasks = none then
        some { s with
          owner := Function.update s.owner .tasks (some .queue)
          queue := .handle sender ack }
      else none
  | .handle sender ack =>
      some { s with
        monitor := s.monitor.handleAcknowledgment sender ack now
        owner := Function.update s.owner .tasks none
        queue := .idle }

/-- One step of one thread. -/
def step (s : LiveSystem ρ τ) : LiveEvent ρ τ → Option (LiveSystem ρ τ)
  | .registerTask r task =>
      match s.registrar r with
      | .idle => some { s with registrar := Function.update s.registrar r (.lockState task) }
      | _ => none
  | .register r now => s.registerStep r now
  | .periodicTaskProcess =>
      match s.periodic with
      | .idle => some { s with periodic := .lockCheck }
      | _ => none
  | .periodic now sendNow => s.periodicStep now sendNow
  | .handleAcknowledgment sender ack =>
      match s.queue with
      | .idle => some { s with queue := .lockTasks sender ack }
      | _ => none
  | .transitionToState newState =>
      match s.queue with
      | .idle => some { s with monitor := { s.monitor with currentState := newState } }
      | _ => none
  | .queue now => s.queueStep now

/-! ### Holding and waiting -/

/-- The mutexes a thread holds at its program counter. -/
def holds (s : LiveSystem ρ τ) : LiveThread ρ → LiveMutex → Prop
  | .registrar r, m => (s.registrar r).holds m
  | .periodic, m => s.periodic.holds m
  | .queue, m => s.queue.holds m

/-- The mutex a thread is waiting to acquire. -/
def waits (s : LiveSystem ρ τ) : LiveThread ρ → Option LiveMutex
  | .registrar r => (s.registrar r).waits
  | .periodic => s.periodic.waits
  | .queue => s.queue.waits

/-- Two threads each own a mutex the other is waiting to acquire. -/
def Deadlocked (s : LiveSystem ρ τ) : Prop :=
  ∃ a b m m', s.owner m = some a ∧ s.waits a = some m' ∧ s.owner m' = some b ∧ s.waits b = some m

/-- The owner of a mutex is the thread that holds it. -/
def Owned (s : LiveSystem ρ τ) : Prop := Owns s.owner s.holds

/-! ### Everything a step can do -/

/-- The steps, by what they do to the two mutexes. -/
inductive Moves (s : LiveSystem ρ τ) : LiveEvent ρ τ → LiveSystem ρ τ → Prop
  | call {r : ρ} {task : τ} (h : s.registrar r = .idle) :
      Moves s (.registerTask r task)
        { s with registrar := Function.update s.registrar r (.lockState task) }
  | registerLockState {r : ρ} {now : ℤ} {task : τ} (h : s.registrar r = .lockState task)
      (hfree : s.owner .state = none) :
      Moves s (.register r now) { s with
        owner := Function.update s.owner .state (some (.registrar r))
        registrar := Function.update s.registrar r (.record task) }
  | registerSelf {r : ρ} {now : ℤ} {task : τ} (h : s.registrar r = .record task)
      (hself : task = s.monitor.self) :
      Moves s (.register r now) { s with
        manager := s.manager.registerTask task
        registrar := Function.update s.registrar r .unlock }
  | registerNotify {r : ρ} {now : ℤ} {task : τ} (h : s.registrar r = .record task)
      (hself : task ≠ s.monitor.self) :
      Moves s (.register r now) { s with
        manager := s.manager.registerTask task
        registrar := Function.update s.registrar r (.lockTasks task) }
  | registerLockTasks {r : ρ} {now : ℤ} {task : τ} (h : s.registrar r = .lockTasks task)
      (hfree : s.owner .tasks = none) :
      Moves s (.register r now) { s with
        owner := Function.update s.owner .tasks (some (.registrar r))
        registrar := Function.update s.registrar r (.insert task) }
  | registerInsert {r : ρ} {now : ℤ} {task : τ} (h : s.registrar r = .insert task) :
      Moves s (.register r now) { s with
        monitor := s.monitor.notifyTaskRegistered task now
        owner := Function.update s.owner .tasks none
        registrar := Function.update s.registrar r .unlock }
  | registerUnlock {r : ρ} {now : ℤ} (h : s.registrar r = .unlock) :
      Moves s (.register r now) { s with
        owner := Function.update s.owner .state none
        registrar := Function.update s.registrar r .idle }
  | cycle (h : s.periodic = .idle) : Moves s .periodicTaskProcess { s with periodic := .lockCheck }
  | lockCheck {now : ℤ} {sendNow : τ → ℤ} (h : s.periodic = .lockCheck)
      (hfree : s.owner .tasks = none) :
      Moves s (.periodic now sendNow) { s with
        owner := Function.update s.owner .tasks (some .periodic)
        periodic := .check now (s.monitor.monitoredTasks.entries.map Prod.fst) }
  | checkEnd {now : ℤ} {sendNow : τ → ℤ} {now' : ℤ} {pc : PeriodicPc τ}
      (h : s.periodic = .check now' []) (hpc : pc = .lockSend ∨ pc = .idle) :
      Moves s (.periodic now sendNow) { s with
        owner := Function.update s.owner .tasks none
        periodic := pc }
  | checkNext {now : ℤ} {sendNow : τ → ℤ} {now' : ℤ} {task : τ} {rest : List τ}
      (h : s.periodic = .check now' (task :: rest))
      (hnot : ∀ status, s.monitor.monitoredTasks.find? task = some status →
        s.monitor.overdue now' status = false) :
      Moves s (.periodic now sendNow) { s with periodic := .check now' rest }
  | checkOverdue {now : ℤ} {sendNow : τ → ℤ} {now' : ℤ} {task : τ} {rest : List τ}
      {status : TaskStatus} (h : s.periodic = .check now' (task :: rest))
      (hf : s.monitor.monitoredTasks.find? task = some status)
      (hover : s.monitor.overdue now' status = true) (hman : s.monitor.stateManager = true) :
      Moves s (.periodic now sendNow) { s with periodic := .lockState now' task rest }
  | checkNull {now : ℤ} {sendNow : τ → ℤ} {now' : ℤ} {task : τ} {rest : List τ}
      {status : TaskStatus} (h : s.periodic = .check now' (task :: rest))
      (hf : s.monitor.monitoredTasks.find? task = some status)
      (hover : s.monitor.overdue now' status = true) (hman : s.monitor.stateManager = false) :
      Moves s (.periodic now sendNow) { s with
        monitor := clearAwaiting s.monitor task
        periodic := .check now' rest }
  | markLockState {now : ℤ} {sendNow : τ → ℤ} {now' : ℤ} {task : τ} {rest : List τ}
      (h : s.periodic = .lockState now' task rest) (hfree : s.owner .state = none) :
      Moves s (.periodic now sendNow) { s with
        owner := Function.update s.owner .state (some .periodic)
        periodic := .record now' task rest }
  | markRecord {now : ℤ} {sendNow : τ → ℤ} {now' : ℤ} {task : τ} {rest : List τ}
      (h : s.periodic = .record now' task rest) :
      Moves s (.periodic now sendNow) { s with
        manager := s.manager.recordUnresponsive task
        monitor := clearAwaiting s.monitor task
        owner := Function.update s.owner .state none
        periodic := .check now' rest }
  | lockSend {now : ℤ} {sendNow : τ → ℤ} (h : s.periodic = .lockSend)
      (hfree : s.owner .tasks = none) :
      Moves s (.periodic now sendNow) { s with
        owner := Function.update s.owner .tasks (some .periodic)
        periodic := .send }
  | send {now : ℤ} {sendNow : τ → ℤ} (h : s.periodic = .send) :
      Moves s (.periodic now sendNow) { s with
        monitor := (s.monitor.sendHeartbeat sendNow).1
        owner := Function.update s.owner .tasks none
        periodic := .idle }
  | dequeue {sender : Option τ} {ack : HeartbeatAckMsg} (h : s.queue = .idle) :
      Moves s (.handleAcknowledgment sender ack) { s with queue := .lockTasks sender ack }
  | transition {newState : TaskState} (h : s.queue = .idle) :
      Moves s (.transitionToState newState)
        { s with monitor := { s.monitor with currentState := newState } }
  | queueLockTasks {now : ℤ} {sender : Option τ} {ack : HeartbeatAckMsg}
      (h : s.queue = .lockTasks sender ack) (hfree : s.owner .tasks = none) :
      Moves s (.queue now) { s with
        owner := Function.update s.owner .tasks (some .queue)
        queue := .handle sender ack }
  | queueHandle {now : ℤ} {sender : Option τ} {ack : HeartbeatAckMsg}
      (h : s.queue = .handle sender ack) :
      Moves s (.queue now) { s with
        monitor := s.monitor.handleAcknowledgment sender ack now
        owner := Function.update s.owner .tasks none
        queue := .idle }

theorem registerStep_moves {s s' : LiveSystem ρ τ} {r : ρ} {now : ℤ}
    (h : s.registerStep r now = some s') : Moves s (.register r now) s' := by
  simp only [registerStep] at h
  cases hpc : s.registrar r with
  | idle => simp only [hpc] at h; cases h
  | lockState task =>
      simp only [hpc] at h
      split_ifs at h with hfree
      obtain rfl := Option.some.inj h
      exact .registerLockState hpc hfree
  | record task =>
      simp only [hpc] at h
      obtain rfl := Option.some.inj h
      split_ifs with hself
      · exact .registerSelf hpc hself
      · exact .registerNotify hpc hself
  | lockTasks task =>
      simp only [hpc] at h
      split_ifs at h with hfree
      obtain rfl := Option.some.inj h
      exact .registerLockTasks hpc hfree
  | insert task =>
      simp only [hpc] at h
      obtain rfl := Option.some.inj h
      exact .registerInsert hpc
  | unlock =>
      simp only [hpc] at h
      obtain rfl := Option.some.inj h
      exact .registerUnlock hpc

theorem periodicStep_moves {s s' : LiveSystem ρ τ} {now : ℤ} {sendNow : τ → ℤ}
    (h : s.periodicStep now sendNow = some s') : Moves s (.periodic now sendNow) s' := by
  simp only [periodicStep] at h
  cases hpc : s.periodic with
  | idle => simp only [hpc] at h; cases h
  | lockCheck =>
      simp only [hpc] at h
      split_ifs at h with hfree
      obtain rfl := Option.some.inj h
      exact .lockCheck hpc hfree
  | check now' rest =>
      cases rest with
      | nil =>
          simp only [hpc] at h
          obtain rfl := Option.some.inj h
          refine .checkEnd hpc ?_
          split_ifs
          · exact .inl rfl
          · exact .inr rfl
      | cons task rest =>
          simp only [hpc] at h
          cases hf : s.monitor.monitoredTasks.find? task with
          | none =>
              simp only [hf] at h
              obtain rfl := Option.some.inj h
              exact .checkNext hpc (by simp [hf])
          | some status =>
              simp only [hf] at h
              split_ifs at h with hover hman
              · obtain rfl := Option.some.inj h
                exact .checkOverdue hpc hf hover hman
              · obtain rfl := Option.some.inj h
                exact .checkNull hpc hf hover (Bool.eq_false_iff.mpr hman)
              · obtain rfl := Option.some.inj h
                exact .checkNext hpc (by simpa [hf] using hover)
  | lockState now' task rest =>
      simp only [hpc] at h
      split_ifs at h with hfree
      obtain rfl := Option.some.inj h
      exact .markLockState hpc hfree
  | record now' task rest =>
      simp only [hpc] at h
      obtain rfl := Option.some.inj h
      exact .markRecord hpc
  | lockSend =>
      simp only [hpc] at h
      split_ifs at h with hfree
      obtain rfl := Option.some.inj h
      exact .lockSend hpc hfree
  | send =>
      simp only [hpc] at h
      obtain rfl := Option.some.inj h
      exact .send hpc

theorem queueStep_moves {s s' : LiveSystem ρ τ} {now : ℤ} (h : s.queueStep now = some s') :
    Moves s (.queue now) s' := by
  simp only [queueStep] at h
  cases hpc : s.queue with
  | idle => simp only [hpc] at h; cases h
  | lockTasks sender ack =>
      simp only [hpc] at h
      split_ifs at h with hfree
      obtain rfl := Option.some.inj h
      exact .queueLockTasks hpc hfree
  | handle sender ack =>
      simp only [hpc] at h
      obtain rfl := Option.some.inj h
      exact .queueHandle hpc

theorem step_moves {s s' : LiveSystem ρ τ} {e : LiveEvent ρ τ} (h : step s e = some s') :
    Moves s e s' := by
  cases e with
  | registerTask r task =>
      simp only [step] at h
      split at h
      · rename_i hpc
        obtain rfl := Option.some.inj h
        exact .call hpc
      · cases h
  | register r now => exact registerStep_moves h
  | periodicTaskProcess =>
      simp only [step] at h
      split at h
      · rename_i hpc
        obtain rfl := Option.some.inj h
        exact .cycle hpc
      · cases h
  | periodic now sendNow => exact periodicStep_moves h
  | handleAcknowledgment sender ack =>
      simp only [step] at h
      split at h
      · rename_i hpc
        obtain rfl := Option.some.inj h
        exact .dequeue hpc
      · cases h
  | transitionToState newState =>
      simp only [step] at h
      split at h
      · rename_i hpc
        obtain rfl := Option.some.inj h
        exact .transition hpc
      · cases h
  | queue now => exact queueStep_moves h

/-! ### Ownership -/

section Owned

variable {s s' : LiveSystem ρ τ}

theorem holds_of_registrar_update {r : ρ} {pc : RegisterPc τ}
    (hr : s'.registrar = Function.update s.registrar r pc) (hp : s'.periodic = s.periodic)
    (hq : s'.queue = s.queue) (t : LiveThread ρ) (m : LiveMutex) (ht : t ≠ .registrar r) :
    s'.holds t m ↔ s.holds t m := by
  cases t with
  | registrar r' =>
      have hne : r' ≠ r := fun heq => ht (heq ▸ rfl)
      simp only [holds, hr, Function.update_of_ne hne]
  | periodic => simp only [holds, hp]
  | queue => simp only [holds, hq]

omit [DecidableEq ρ] in
theorem holds_of_periodic_ne (hr : s'.registrar = s.registrar) (hq : s'.queue = s.queue)
    (t : LiveThread ρ) (m : LiveMutex) (ht : t ≠ .periodic) : s'.holds t m ↔ s.holds t m := by
  cases t with
  | registrar r' => simp only [holds, hr]
  | periodic => exact absurd rfl ht
  | queue => simp only [holds, hq]

omit [DecidableEq ρ] in
theorem holds_of_queue_ne (hr : s'.registrar = s.registrar) (hp : s'.periodic = s.periodic)
    (t : LiveThread ρ) (m : LiveMutex) (ht : t ≠ .queue) : s'.holds t m ↔ s.holds t m := by
  cases t with
  | registrar r' => simp only [holds, hr]
  | periodic => simp only [holds, hp]
  | queue => exact absurd rfl ht

omit [DecidableEq ρ] in
theorem init_owned (monitor : HeartBeatTask τ) (manager : StateManager τ) :
    Owned (init monitor manager : LiveSystem ρ τ) := by
  intro m t
  cases t <;> simp [init, holds, RegisterPc.holds, PeriodicPc.holds, QueuePc.holds]

theorem moves_owned {e : LiveEvent ρ τ} (h : Owned s) (hm : Moves s e s') : Owned s' := by
  cases hm with
  | call hpc =>
      refine Owns.same h (holds_of_registrar_update rfl rfl rfl) (fun m => ?_)
      cases m <;> simp [holds, hpc, RegisterPc.holds]
  | registerLockState hpc hfree =>
      refine Owns.acquire h hfree (holds_of_registrar_update rfl rfl rfl) (fun m => ?_)
      cases m <;> simp [holds, hpc, RegisterPc.holds]
  | registerSelf hpc =>
      refine Owns.same h (holds_of_registrar_update rfl rfl rfl) (fun m => ?_)
      cases m <;> simp [holds, hpc, RegisterPc.holds]
  | registerNotify hpc =>
      refine Owns.same h (holds_of_registrar_update rfl rfl rfl) (fun m => ?_)
      cases m <;> simp [holds, hpc, RegisterPc.holds]
  | registerLockTasks hpc hfree =>
      refine Owns.acquire h hfree (holds_of_registrar_update rfl rfl rfl) (fun m => ?_)
      cases m <;> simp [holds, hpc, RegisterPc.holds]
  | registerInsert hpc =>
      refine Owns.release h (by simp [holds, hpc, RegisterPc.holds])
        (holds_of_registrar_update rfl rfl rfl) (fun m => ?_)
      cases m <;> simp [holds, hpc, RegisterPc.holds]
  | registerUnlock hpc =>
      refine Owns.release h (by simp [holds, hpc, RegisterPc.holds])
        (holds_of_registrar_update rfl rfl rfl) (fun m => ?_)
      cases m <;> simp [holds, hpc, RegisterPc.holds]
  | cycle hpc =>
      refine Owns.same h (holds_of_periodic_ne rfl rfl) (fun m => ?_)
      cases m <;> simp [holds, hpc, PeriodicPc.holds]
  | lockCheck hpc hfree =>
      refine Owns.acquire h hfree (holds_of_periodic_ne rfl rfl) (fun m => ?_)
      cases m <;> simp [holds, hpc, PeriodicPc.holds]
  | checkEnd hpc hpc' =>
      refine Owns.release h (by simp [holds, hpc, PeriodicPc.holds])
        (holds_of_periodic_ne rfl rfl) (fun m => ?_)
      rcases hpc' with rfl | rfl <;> cases m <;> simp [holds, hpc, PeriodicPc.holds]
  | checkNext hpc =>
      refine Owns.same h (holds_of_periodic_ne rfl rfl) (fun m => ?_)
      cases m <;> simp [holds, hpc, PeriodicPc.holds]
  | checkOverdue hpc =>
      refine Owns.same h (holds_of_periodic_ne rfl rfl) (fun m => ?_)
      cases m <;> simp [holds, hpc, PeriodicPc.holds]
  | checkNull hpc =>
      refine Owns.same h (holds_of_periodic_ne rfl rfl) (fun m => ?_)
      cases m <;> simp [holds, hpc, PeriodicPc.holds]
  | markLockState hpc hfree =>
      refine Owns.acquire h hfree (holds_of_periodic_ne rfl rfl) (fun m => ?_)
      cases m <;> simp [holds, hpc, PeriodicPc.holds]
  | markRecord hpc =>
      refine Owns.release h (by simp [holds, hpc, PeriodicPc.holds])
        (holds_of_periodic_ne rfl rfl) (fun m => ?_)
      cases m <;> simp [holds, hpc, PeriodicPc.holds]
  | lockSend hpc hfree =>
      refine Owns.acquire h hfree (holds_of_periodic_ne rfl rfl) (fun m => ?_)
      cases m <;> simp [holds, hpc, PeriodicPc.holds]
  | send hpc =>
      refine Owns.release h (by simp [holds, hpc, PeriodicPc.holds])
        (holds_of_periodic_ne rfl rfl) (fun m => ?_)
      cases m <;> simp [holds, hpc, PeriodicPc.holds]
  | dequeue hpc =>
      refine Owns.same h (holds_of_queue_ne rfl rfl) (fun m => ?_)
      cases m <;> simp [holds, hpc, QueuePc.holds]
  | transition hpc => exact h
  | queueLockTasks hpc hfree =>
      refine Owns.acquire h hfree (holds_of_queue_ne rfl rfl) (fun m => ?_)
      cases m <;> simp [holds, hpc, QueuePc.holds]
  | queueHandle hpc =>
      refine Owns.release h (by simp [holds, hpc, QueuePc.holds])
        (holds_of_queue_ne rfl rfl) (fun m => ?_)
      cases m <;> simp [holds, hpc, QueuePc.holds]

end Owned

/-! ### The two nested acquisitions -/

/-- The thread owns `state_mutex` and will wait for `tasks_mutex`. -/
def Registering (s : LiveSystem ρ τ) (r : ρ) : Prop :=
  match s.registrar r with
  | .record task => task ≠ s.monitor.self
  | .lockTasks _ => True
  | _ => False

/-- Some of the tasks is overdue at `now` and will be reported to the state manager. -/
def SomeOverdue (hb : HeartBeatTask τ) (now : ℤ) (tasks : List τ) : Prop :=
  hb.stateManager = true ∧ ∃ task ∈ tasks, ∃ status, hb.monitoredTasks.find? task = some status ∧
    hb.overdue now status = true

/-- The periodic thread owns `tasks_mutex` and will wait for `state_mutex`. -/
def Marking (s : LiveSystem ρ τ) : Prop :=
  match s.periodic with
  | .check now rest => SomeOverdue s.monitor now rest
  | .lockState _ _ _ => True
  | .record _ _ _ => True
  | _ => False

/-- The condition on a step: a registration takes `state_mutex` only while no check is on its way
to it, and a check with an overdue task takes `tasks_mutex` only while no registration is on its
way to that. -/
def Careful (s : LiveSystem ρ τ) : LiveEvent ρ τ → Prop
  | .register r _ =>
      ∀ task, s.registrar r = .lockState task → task = s.monitor.self ∨ ¬s.Marking
  | .periodic now _ =>
      s.periodic = .lockCheck → (∀ r, ¬s.Registering r) ∨
        ¬SomeOverdue s.monitor now (s.monitor.monitoredTasks.entries.map Prod.fst)
  | _ => True

instance decidableSomeOverdue (hb : HeartBeatTask τ) (now : ℤ) (tasks : List τ) :
    Decidable (SomeOverdue hb now tasks) :=
  decidable_of_iff (hb.stateManager = true ∧
    ∃ task ∈ tasks, (hb.monitoredTasks.find? task).any (hb.overdue now) = true)
    (by simp [SomeOverdue, Option.any_eq_true])

instance decidableRegistering (s : LiveSystem ρ τ) (r : ρ) : Decidable (s.Registering r) := by
  unfold Registering
  split <;> infer_instance

instance decidableMarking (s : LiveSystem ρ τ) : Decidable s.Marking := by
  unfold Marking
  split <;> infer_instance

instance decidableCareful [Fintype ρ] (s : LiveSystem ρ τ) (e : LiveEvent ρ τ) :
    Decidable (Careful s e) := by
  cases e with
  | register r now =>
      cases hpc : s.registrar r with
      | lockState task =>
          refine decidable_of_iff (task = s.monitor.self ∨ ¬s.Marking) ?_
          simp [Careful, hpc]
      | _ => exact isTrue (by simp [Careful, hpc])
  | periodic now sendNow =>
      cases hpc : s.periodic with
      | lockCheck =>
          refine decidable_of_iff ((∀ r, ¬s.Registering r) ∨
            ¬SomeOverdue s.monitor now (s.monitor.monitoredTasks.entries.map Prod.fst)) ?_
          simp [Careful, hpc]
      | _ => exact isTrue (by simp [Careful, hpc])
  | _ => exact isTrue trivial

omit [DecidableEq ρ] in
/-- A thread that holds a mutex while it waits for another is in one of the two nestings. -/
theorem holds_and_waits {s : LiveSystem ρ τ} {t : LiveThread ρ} {m m' : LiveMutex}
    (hh : s.holds t m) (hw : s.waits t = some m') :
    (m = .state ∧ m' = .tasks ∧ ∃ r task, s.registrar r = .lockTasks task) ∨
    (m = .tasks ∧ m' = .state ∧ ∃ now task rest, s.periodic = .lockState now task rest) := by
  cases t with
  | registrar r =>
      cases hpc : s.registrar r with
      | lockTasks task =>
          cases m with
          | state =>
              refine .inl ⟨rfl, ?_, r, task, hpc⟩
              simpa [waits, hpc, RegisterPc.waits] using hw.symm
          | tasks => simp [holds, hpc, RegisterPc.holds] at hh
      | lockState task => simp [holds, hpc, RegisterPc.holds] at hh
      | _ => simp [waits, hpc, RegisterPc.waits] at hw
  | periodic =>
      cases hpc : s.periodic with
      | lockState now task rest =>
          cases m with
          | state => simp [holds, hpc, PeriodicPc.holds] at hh
          | tasks =>
              refine .inr ⟨rfl, ?_, now, task, rest, rfl⟩
              simpa [waits, hpc, PeriodicPc.waits] using hw.symm
      | lockCheck => simp [holds, hpc, PeriodicPc.holds] at hh
      | lockSend => simp [holds, hpc, PeriodicPc.holds] at hh
      | _ => simp [waits, hpc, PeriodicPc.waits] at hw
  | queue =>
      cases hpc : s.queue with
      | lockTasks sender ack => simp [holds, hpc, QueuePc.holds] at hh
      | _ => simp [waits, hpc, QueuePc.waits] at hw

omit [DecidableEq ρ] in
/-- The only way to wait for each other. -/
theorem Owned.deadlocked_iff {s : LiveSystem ρ τ} (h : Owned s) :
    Deadlocked s ↔ ∃ r task now task' rest,
      s.registrar r = .lockTasks task ∧ s.periodic = .lockState now task' rest := by
  constructor
  · rintro ⟨a, b, m, m', ha, hwa, hb, hwb⟩
    rw [h] at ha hb
    rcases holds_and_waits ha hwa with ⟨rfl, rfl, r, task, hr⟩ | ⟨rfl, rfl, now, task', rest, hp⟩
    · rcases holds_and_waits hb hwb with ⟨heq, -⟩ | ⟨-, -, now, task', rest, hp⟩
      · cases heq
      · exact ⟨r, task, now, task', rest, hr, hp⟩
    · rcases holds_and_waits hb hwb with ⟨-, -, r, task, hr⟩ | ⟨heq, -⟩
      · exact ⟨r, task, now, task', rest, hr, hp⟩
      · cases heq
  · rintro ⟨r, task, now, task', rest, hr, hp⟩
    refine ⟨.registrar r, .periodic, .state, .tasks, ?_, ?_, ?_, ?_⟩
    · rw [h]
      simp [holds, hr, RegisterPc.holds]
    · simp [waits, hr, RegisterPc.waits]
    · rw [h]
      simp [holds, hp, PeriodicPc.holds]
    · simp [waits, hp, PeriodicPc.waits]

/-! ### Careful runs -/

/-- Ownership, and never both nestings at once. -/
structure Apart (s : LiveSystem ρ τ) : Prop where
  owned : Owned s
  apart : ∀ r, s.Registering r → ¬s.Marking

omit [DecidableEq ρ] in
theorem Marking.holds_tasks {s : LiveSystem ρ τ} (h : s.Marking) : s.holds .periodic .tasks := by
  unfold Marking at h
  cases hpc : s.periodic with
  | check now rest => simp [holds, hpc, PeriodicPc.holds]
  | lockState now task rest => simp [holds, hpc, PeriodicPc.holds]
  | record now task rest => simp [holds, hpc, PeriodicPc.holds]
  | _ => simp [hpc] at h

omit [DecidableEq ρ] in
/-- While another thread owns `tasks_mutex` the periodic thread is in no check. -/
theorem Owned.not_marking {s s' : LiveSystem ρ τ} (h : Owned s) {t : LiveThread ρ}
    (ht : s.holds t .tasks) (hne : t ≠ .periodic) (hp : s'.periodic = s.periodic) : ¬s'.Marking := by
  intro hm
  have hperiodic : s.holds .periodic .tasks := by
    have := hm.holds_tasks
    simpa only [holds, hp] using this
  rw [← h] at ht hperiodic
  exact hne (Option.some.inj (ht.symm.trans hperiodic))

/-- A step of one registering thread that does not take it into the nesting. -/
theorem registering_of_update {s s' : LiveSystem ρ τ} {r r' : ρ} {pc : RegisterPc τ}
    (h : s'.Registering r') (hr : s'.registrar = Function.update s.registrar r pc)
    (hself : s'.monitor.self = s.monitor.self)
    (hpc : ∀ task, pc = .record task ∨ pc = .lockTasks task → s.Registering r) :
    s.Registering r' := by
  by_cases hne : r' = r
  · subst hne
    unfold Registering at h
    rw [hr, Function.update_self] at h
    cases pc with
    | record task => exact hpc task (.inl rfl)
    | lockTasks task => exact hpc task (.inr rfl)
    | _ => simp at h
  · unfold Registering at h ⊢
    rw [hr, Function.update_of_ne hne, hself] at h
    exact h

theorem moves_apart {s s' : LiveSystem ρ τ} {e : LiveEvent ρ τ} (h : Apart s)
    (hc : Careful s e) (hm : Moves s e s') : Apart s' := by
  refine ⟨moves_owned h.owned hm, ?_⟩
  cases hm with
  | call hpc =>
      intro r' hr'
      exact h.apart r' (registering_of_update hr' rfl rfl (by simp))
  | @registerLockState r now task hpc hfree =>
      intro r' hr'
      by_cases hne : r' = r
      · subst hne
        have htask : task ≠ s.monitor.self := by
          simpa [Registering] using hr'
        exact (hc task hpc).resolve_left htask
      · refine h.apart r' ?_
        simpa [Registering, Function.update_of_ne hne] using hr'
  | registerSelf hpc =>
      intro r' hr'
      exact h.apart r' (registering_of_update hr' rfl rfl (by simp))
  | registerNotify hpc hself =>
      intro r' hr'
      refine h.apart r' (registering_of_update hr' rfl rfl (fun _ _ => ?_))
      simpa [Registering, hpc] using hself
  | registerLockTasks hpc hfree =>
      intro r' hr'
      exact h.apart r' (registering_of_update hr' rfl rfl (by simp))
  | @registerInsert r now task hpc =>
      intro r' hr'
      have hholds : s.holds (.registrar r) .tasks := by simp [holds, hpc, RegisterPc.holds]
      exact h.owned.not_marking hholds (by simp) rfl
  | registerUnlock hpc =>
      intro r' hr'
      exact h.apart r' (registering_of_update hr' rfl rfl (by simp))
  | cycle hpc => simp [Marking]
  | lockCheck hpc hfree =>
      intro r' hr' hmark
      rcases hc hpc with hnone | hnot
      · exact hnone r' hr'
      · exact hnot hmark
  | checkEnd hpc hpc' =>
      rcases hpc' with rfl | rfl <;> simp [Marking]
  | @checkNext now sendNow now' task rest hpc hnot =>
      intro r' hr' hmark
      refine h.apart r' hr' ?_
      obtain ⟨hman, u, hu, hover⟩ := hmark
      simp only [Marking, hpc]
      exact ⟨hman, u, List.mem_cons_of_mem _ hu, hover⟩
  | @checkOverdue now sendNow now' task rest status hpc hf hover hman =>
      intro r' hr' _
      refine h.apart r' hr' ?_
      simp only [Marking, hpc]
      exact ⟨hman, task, List.mem_cons_self, status, hf, hover⟩
  | @checkNull now sendNow now' task rest status hpc hf hover hman =>
      intro r' _ hmark
      have hman' : (clearAwaiting s.monitor task).stateManager = s.monitor.stateManager := by
        unfold clearAwaiting
        split <;> rfl
      have := hmark.1
      rw [hman', hman] at this
      cases this
  | markLockState hpc hfree =>
      intro r' hr' _
      exact h.apart r' hr' (by simp [Marking, hpc])
  | @markRecord now sendNow now' task rest hpc =>
      intro r' hr' _
      have hself : (clearAwaiting s.monitor task).self = s.monitor.self := by
        unfold clearAwaiting
        split <;> rfl
      refine h.apart r' ?_ (by simp [Marking, hpc])
      simpa [Registering, hself] using hr'
  | lockSend hpc hfree => simp [Marking]
  | send hpc => simp [Marking]
  | dequeue hpc => exact h.apart
  | transition hpc =>
      intro r' hr' hmark
      exact h.apart r' hr' hmark
  | queueLockTasks hpc hfree => exact h.apart
  | queueHandle hpc =>
      intro r' hr'
      have hholds : s.holds .queue .tasks := by simp [holds, hpc, QueuePc.holds]
      exact h.owned.not_marking hholds (by simp) rfl

/-! ### Careless runs -/

/-- A check with an overdue task goes on until it waits for `state_mutex`. -/
theorem check_reaches_lockState (now : ℤ) (rest : List τ) :
    ∀ {s : LiveSystem ρ τ}, s.periodic = .check now rest → SomeOverdue s.monitor now rest →
      ∃ s' task rest', Reaches step s s' ∧ s'.registrar = s.registrar ∧
        s'.periodic = .lockState now task rest' := by
  induction rest with
  | nil =>
      rintro s - ⟨-, task, ht, -⟩
      exact absurd ht List.not_mem_nil
  | cons task rest ih =>
      rintro s hpc ⟨hman, u, hu, hover⟩
      by_cases hfirst : ∃ status, s.monitor.monitoredTasks.find? task = some status ∧
          s.monitor.overdue now status = true
      · obtain ⟨status, hf, hover⟩ := hfirst
        refine ⟨{ s with periodic := .lockState now task rest }, task, rest,
          Reaches.single (e := .periodic 0 (fun _ => 0)) ?_, rfl, rfl⟩
        simp only [step, periodicStep, hpc, hf, hover, hman, if_true]
      · have hu : u ∈ rest := (List.mem_cons.mp hu).resolve_left (by
          rintro rfl
          exact hfirst hover)
        obtain ⟨s', task', rest', hreach, hr, hp⟩ :=
          @ih { s with periodic := .check now rest } rfl ⟨hman, u, hu, hover⟩
        refine ⟨s', task', rest', (Reaches.single (e := .periodic 0 (fun _ => 0)) ?_).trans hreach,
          hr, hp⟩
        simp only [step, periodicStep, hpc]
        cases hf : s.monitor.monitoredTasks.find? task with
        | none => rfl
        | some status =>
            have hnot : ¬s.monitor.overdue now status = true := fun h => hfirst ⟨status, hf, h⟩
            simp only [if_neg hnot]

theorem Owned.deadlock_reachable {s : LiveSystem ρ τ} (h : Owned s) {r : ρ}
    (hr : s.Registering r) (hm : s.Marking) : ∃ s', Reaches step s s' ∧ Deadlocked s' := by
  -- the registering thread goes to its second lock
  obtain ⟨s₁, task, h₁, hr₁, hp₁, hm₁⟩ : ∃ s₁ task, Reaches step s s₁ ∧
      s₁.registrar r = .lockTasks task ∧ s₁.periodic = s.periodic ∧ s₁.monitor = s.monitor := by
    cases hpc : s.registrar r with
    | record task =>
        have hself : task ≠ s.monitor.self := by simpa [Registering, hpc] using hr
        refine ⟨{ s with
          manager := s.manager.registerTask task
          registrar := Function.update s.registrar r (.lockTasks task) }, task,
          Reaches.single (e := .register r 0) ?_, ?_, rfl, rfl⟩
        · simp only [step, registerStep, hpc, if_neg hself]
        · exact Function.update_self ..
    | lockTasks task => exact ⟨s, task, Reaches.refl s, hpc, rfl, rfl⟩
    | _ => simp [Registering, hpc] at hr
  have hown₁ : Owned s₁ := h₁.invariant (fun _ _ _ ho hs => moves_owned ho (step_moves hs)) h
  -- the periodic thread goes to its second lock
  obtain ⟨s₂, now, task', rest, h₂, hr₂, hp₂⟩ : ∃ s₂ now task' rest, Reaches step s₁ s₂ ∧
      s₂.registrar = s₁.registrar ∧ s₂.periodic = .lockState now task' rest := by
    cases hpc : s.periodic with
    | check now rest =>
        obtain ⟨s₂, task', rest', h₂, hr₂, hp₂⟩ := check_reaches_lockState now rest
          (hp₁.trans hpc) (by simpa [Marking, hpc, hm₁] using hm)
        exact ⟨s₂, now, task', rest', h₂, hr₂, hp₂⟩
    | lockState now task' rest => exact ⟨s₁, now, task', rest, Reaches.refl s₁, rfl, hp₁.trans hpc⟩
    | record now task' rest =>
        have hperiodic : s₁.owner .state = some .periodic := by
          rw [hown₁]
          simp [holds, hp₁, hpc, PeriodicPc.holds]
        have hregistrar : s₁.owner .state = some (.registrar r) := by
          rw [hown₁]
          simp [holds, hr₁, RegisterPc.holds]
        rw [hperiodic] at hregistrar
        cases hregistrar
    | _ => simp [Marking, hpc] at hm
  have hown₂ : Owned s₂ := h₂.invariant (fun _ _ _ ho hs => moves_owned ho (step_moves hs)) hown₁
  exact ⟨s₂, h₁.trans h₂,
    hown₂.deadlocked_iff.mpr ⟨r, task, now, task', rest, by rw [hr₂, hr₁], hp₂⟩⟩

/-- A careless step starts the second nesting while the first is under way. -/
theorem both_of_careless {s s' : LiveSystem ρ τ} {e : LiveEvent ρ τ} (hc : ¬Careful s e)
    (hs : step s e = some s') : ∃ r, s'.Registering r ∧ s'.Marking := by
  cases e with
  | register r now =>
      simp only [Careful, not_forall, not_or, not_not] at hc
      obtain ⟨task, hpc, hself, hm⟩ := hc
      cases step_moves hs with
      | registerLockState hpc' hfree =>
          rw [hpc] at hpc'
          cases hpc'
          exact ⟨r, by simpa [Registering] using hself, hm⟩
      | registerSelf hpc' => rw [hpc] at hpc'; cases hpc'
      | registerNotify hpc' => rw [hpc] at hpc'; cases hpc'
      | registerLockTasks hpc' => rw [hpc] at hpc'; cases hpc'
      | registerInsert hpc' => rw [hpc] at hpc'; cases hpc'
      | registerUnlock hpc' => rw [hpc] at hpc'; cases hpc'
  | periodic now sendNow =>
      simp only [Careful, not_forall, not_or, not_not] at hc
      obtain ⟨hpc, ⟨r, hr⟩, hover⟩ := hc
      simp only [step, periodicStep, hpc] at hs
      split_ifs at hs
      obtain rfl := Option.some.inj hs
      exact ⟨r, hr, hover⟩
  | _ => exact absurd trivial hc

/-- **Live registration.**  In a run whose steps are all careful no two threads ever wait for each
other's mutex; and from every reachable state a careless step leads to a state from which they can
get there. -/
theorem careful_no_deadlock (monitor : HeartBeatTask τ) (manager : StateManager τ)
    {es : List (LiveEvent ρ τ)} {s : LiveSystem ρ τ}
    (hrun : run step (init monitor manager) es = some s) :
    (Along step Careful (init monitor manager) es → ¬Deadlocked s) ∧
    ∀ e s', ¬Careful s e → step s e = some s' → ∃ s'', Reaches step s' s'' ∧ Deadlocked s'' := by
  have hinit : Owned (init monitor manager : LiveSystem ρ τ) := init_owned monitor manager
  constructor
  · intro halong
    have hapart : Apart s := run_invariant_along
      (fun _ _ _ hi hc hs => moves_apart hi hc (step_moves hs))
      ⟨hinit, by simp [init, Registering]⟩ halong hrun
    rw [hapart.owned.deadlocked_iff]
    rintro ⟨r, task, now, task', rest, hr, hp⟩
    exact hapart.apart r (by simp [Registering, hr]) (by simp [Marking, hp])
  · intro e s' hc hs
    have hown : Owned s := run_invariant
      (fun _ _ _ ho hs => moves_owned ho (step_moves hs)) hinit hrun
    obtain ⟨r, hr, hm⟩ := both_of_careless hc hs
    exact (moves_owned hown (step_moves hs)).deadlock_reachable hr hm

/-- Task `2` is registered while the check that finds task `1` overdue is about to lock `state_mutex`; the
registration takes that mutex after the check. -/
def registeredAfterCheck : List (LiveEvent Unit ℕ) :=
  [.registerTask () 1, .register () 0, .register () 0, .register () 0, .register () 0,
    .register () 0, .transitionToState .running, .periodicTaskProcess,
    .periodic 0 (fun _ => 0), .periodic 0 (fun _ => 0), .periodic 0 (fun _ => 0),
    .periodic 0 (fun _ => 0), .periodic 0 (fun _ => 0), .periodicTaskProcess,
    .periodic 10000000000 (fun _ => 0), .periodic 0 (fun _ => 0), .registerTask () 2,
    .periodic 0 (fun _ => 0), .periodic 0 (fun _ => 0), .register () 0, .register () 0]

theorem careful_no_deadlock_after_check : ∃ s : LiveSystem Unit ℕ,
    run step (init (.create 0 true 3000) (.create 9 .notStarted .notStarted))
      registeredAfterCheck = some s ∧
    s.manager.taskStates.find? 1 = some .error ∧ s.waits (.registrar ()) = some .tasks ∧
    s.owner .tasks = some .periodic ∧ ¬Deadlocked s := by
  have heval : (run step (init (.create 0 true 3000) (.create 9 .notStarted .notStarted) :
      LiveSystem Unit ℕ)
      registeredAfterCheck).map
          (fun s => (s.manager.taskStates.find? 1, s.waits (.registrar ()), s.owner .tasks)) =
      some (some .error, some .tasks, some .periodic) := by decide +kernel
  obtain ⟨s, hrun, hval⟩ := Option.map_eq_some_iff.mp heval
  simp only [Prod.mk.injEq] at hval
  exact ⟨s, hrun, hval.1, hval.2.1, hval.2.2,
    (careful_no_deadlock _ _ hrun).1 (by decide +kernel)⟩

/-- The monitor waits for an answer of task `1` when task `2` is registered. -/
theorem careless_deadlocks : ∃ s : LiveSystem Unit ℕ,
    run step (init (.create 0 true 3000) (.create 9 .notStarted .notStarted))
      [.registerTask () 1, .register () 0, .register () 0, .register () 0, .register () 0,
        .register () 0, .transitionToState .running, .periodicTaskProcess,
        .periodic 0 (fun _ => 0), .periodic 0 (fun _ => 0), .periodic 0 (fun _ => 0),
        .periodic 0 (fun _ => 0), .periodic 0 (fun _ => 0),
        .registerTask () 2, .register () 0, .register () 0, .periodicTaskProcess,
        .periodic 10000000000 (fun _ => 0), .periodic 0 (fun _ => 0)] = some s ∧
    Deadlocked s := by
  have heval : (run step (init (.create 0 true 3000) (.create 9 .notStarted .notStarted) :
      LiveSystem Unit ℕ)
      [.registerTask () 1, .register () 0, .register () 0, .register () 0, .register () 0,
        .register () 0, .transitionToState .running, .periodicTaskProcess,
        .periodic 0 (fun _ => 0), .periodic 0 (fun _ => 0), .periodic 0 (fun _ => 0),
        .periodic 0 (fun _ => 0), .periodic 0 (fun _ => 0),
        .registerTask () 2, .register () 0, .register () 0, .periodicTaskProcess,
        .periodic 10000000000 (fun _ => 0), .periodic 0 (fun _ => 0)]).map
          (fun s => (s.owner .state, s.waits (.registrar ()), s.owner .tasks, s.waits .periodic)) =
      some (some (.registrar ()), some .tasks, some .periodic, some .state) := by decide +kernel
  obtain ⟨s, hrun, hval⟩ := Option.map_eq_some_iff.mp heval
  simp only [Prod.mk.injEq] at hval
  exact ⟨s, hrun, .registrar (), .periodic, .state, .tasks, hval⟩

end LiveSystem

end Protocore
