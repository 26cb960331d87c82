import Protocore.Locks

/-! # The locks of the whole system

What every function of the library does to mutexes, as a `LockProg`: the broker, the queues and
their pools, the state manager, the monitor, the tasks and the logger.  Branches that depend on
data are free choices (`opt`, `either`), the lists that are walked are arbitrary where they are
not fixed by the protocol, and threads that are started more than once are numbered.

All registrations have returned, so `register_task` is no part of it (`LiveRegistration` looks at
what happens otherwise).

`startup_deadlock_free`: the mutexes are ranked so that every path acquires them upwards. -/

namespace Protocore.Locking

open LockSystem

variable {τ κ : Type}

/-- The objects that own a message queue: the manager, the monitor and the other tasks. -/
inductive Component (τ : Type) where
  | manager
  | heartBeat
  | task (t : τ)
deriving DecidableEq

/-- The mutexes; `queue` and `pool` are those of a component's message queue. -/
inductive Mutex (τ : Type) where
  | sub
  | state
  | tasks
  | queue (x : Component τ)
  | pool (x : Component τ)
  | logger
  | sink (i : ℕ)
deriving DecidableEq

/-- The threads; a component that is started again gets new ones. -/
inductive Thread (τ κ : Type) where
  | controller (c : κ)
  | queueThread (x : Component τ) (n : ℕ)
  | periodicThread (x : Component τ) (n : ℕ)
  | worker
deriving DecidableEq

/-- Programs whose choices are a component and a number. -/
abbrev Prog (τ κ : Type) := LockProg (Component τ × ℕ) (Mutex τ) (Thread τ κ)

/-! ### Control flow -/

/-- `if (...) p else q`. -/
def either (p q : Prog τ κ) : Prog τ κ := .choose fun i => if i.2 = 0 then p else q

/-- `if (...) p`. -/
def opt (p : Prog τ κ) : Prog τ κ := either .skip p

/-- Statements one after the other. -/
def block : List (Prog τ κ) → Prog τ κ
  | [] => .skip
  | p :: ps => .seq p (block ps)

/-! ### Logger -/

/-- `Logger::log`. -/
def log : Prog τ κ := opt (.withLock .logger .skip)

/-- `Logger::worker_loop`, with the mutex of each sink. -/
def workerLoop : Prog τ κ :=
  .loop (block [.withLock .logger (.loop (.wait .logger)),
    .loop (.choose fun i => .withLock (.sink i.2) .skip)])

/-! ### Pools, queues and the broker -/

/-- `MemoryPool::allocate`. -/
def allocate (x : Component τ) : Prog τ κ := .withLock (.pool x) .skip

/-- `MemoryPool::deallocate`. -/
def deallocate (x : Component τ) : Prog τ κ := .withLock (.pool x) .skip

/-- `MessageQueue::enqueue`. -/
def enqueue (x : Component τ) : Prog τ κ := block [allocate x, .withLock (.queue x) .skip]

/-- `MessageQueue::dequeue`. -/
def dequeue (x : Component τ) : Prog τ κ :=
  .withLock (.queue x) (block [.loop (.wait (.queue x)), opt (deallocate x)])

/-- `MessageQueue::notify_shutdown`. -/
def notifyShutdown (x : Component τ) : Prog τ κ := .withLock (.queue x) .skip

/-- `Broker::deliver_message`. -/
def deliverMessage (x : Component τ) : Prog τ κ := block [log, enqueue x]

/-- `Broker::publish`, to any list of subscribers. -/
def publish : Prog τ κ := .withLock .sub (.loop (.choose fun i => deliverMessage i.1))

/-! ### State manager -/

/-- `Task::transition_to_state` and `StateManager::transition_to_state`: both log and publish. -/
def transitionToState : Prog τ κ := block [log, publish]

/-- `StateManager::request_state_transition`. -/
def requestStateTransition : Prog τ κ := transitionToState

/-- `StateManager::demand_state_transition`. -/
def demandStateTransition : Prog τ κ :=
  block [log, .withLock .state .skip, transitionToState,
    .withLock .state (block [.loop (.wait .state), opt (block [log, .loop (opt log)])])]

/-- `StateManager::mark_task_as_unresponsive`. -/
def markTaskAsUnresponsive (x : Component τ) : Prog τ κ :=
  block [log, deliverMessage x, .withLock .state .skip]

/-! ### Tasks and their threads -/

/-- `Task::start`. -/
def start (x : Component τ) : Prog τ κ :=
  opt (.choose fun i => block [.spawn (.queueThread x i.2), opt (.spawn (.periodicThread x i.2))])

/-- `Task::stop`. -/
def stop (x : Component τ) : Prog τ κ :=
  opt (block [transitionToState, notifyShutdown x,
    .choose fun i => block [opt (.join (.queueThread x i.2)),
      opt (.join (.periodicThread x i.2))]])

/-- `StateManager::initialize`; `registered` are the tasks of `task_states`. -/
def managerInitialize (registered : List (Component τ)) : Prog τ κ :=
  block [log, start .manager, block (registered.map start), demandStateTransition, opt log]

/-- `StateManager::shutdown`. -/
def shutdown (registered : List (Component τ)) : Prog τ κ :=
  block [log, demandStateTransition, opt log, block (registered.map stop), stop .manager]

/-- `Task::handle_heartbeat`. -/
def handleHeartbeat : Prog τ κ := publish

/-- `HeartBeatTask::handle_acknowledgment`. -/
def handleAcknowledgment : Prog τ κ := .withLock .tasks (opt log)

/-- `process_message` of each component. -/
def processMessage : Component τ → Prog τ κ
  | .manager => log
  | .heartBeat => either transitionToState (either handleAcknowledgment log)
  | .task _ => opt (either transitionToState handleHeartbeat)

/-- `Task::run`. -/
def run (x : Component τ) : Prog τ κ := .loop (block [dequeue x, opt (processMessage x)])

/-- `HeartBeatTask::check_for_timeouts`, through `handle_unresponsive_task`. -/
def checkForTimeouts : Prog τ κ :=
  .withLock .tasks (.loop (opt (.choose fun i => block [log, opt (markTaskAsUnresponsive i.1)])))

/-- `HeartBeatTask::send_heartbeat`. -/
def sendHeartbeat : Prog τ κ :=
  .withLock .tasks (.loop (opt (.choose fun i => deliverMessage i.1)))

/-- `periodic_task_process`; the one of `Task` is empty. -/
def periodicTaskProcess : Component τ → Prog τ κ
  | .heartBeat => block [checkForTimeouts, opt sendHeartbeat]
  | _ => .skip

/-- `Task::run_periodic`. -/
def runPeriodic (x : Component τ) : Prog τ κ := .loop (periodicTaskProcess x)

/-- Any sequence of calls of one controlling thread. -/
def control (registered : List (Component τ)) : Prog τ κ :=
  .loop (.choose fun i =>
    match i.2 with
    | 0 => managerInitialize registered
    | 1 => requestStateTransition
    | 2 => demandStateTransition
    | 3 => markTaskAsUnresponsive i.1
    | _ => shutdown registered)

/-- The program of each thread. -/
def prog (registered : List (Component τ)) : Thread τ κ → Prog τ κ
  | .controller _ => control registered
  | .queueThread x _ => run x
  | .periodicThread x _ => runPeriodic x
  | .worker => workerLoop

/-- The controlling threads and the worker run from the beginning. -/
def started : Thread τ κ → Bool
  | .controller _ => true
  | .worker => true
  | _ => false

/-! ### Ranks -/

/-- The order in which the mutexes are acquired. -/
def rank : Mutex τ → ℕ
  | .tasks => 0
  | .state => 1
  | .sub => 2
  | .queue _ => 3
  | .pool _ => 4
  | .logger => 5
  | .sink _ => 6

/-- All mutexes held rank below `r`. -/
def Below (r : ℕ) (H : List (Mutex τ)) : Prop := ∀ h ∈ H, rank h < r

theorem Below.mono {r r' : ℕ} {H : List (Mutex τ)} (h : Below r H) (hr : r ≤ r') : Below r' H :=
  fun m hm => Nat.lt_of_lt_of_le (h m hm) hr

theorem Below.cons {r : ℕ} {H : List (Mutex τ)} (h : Below r H) {m : Mutex τ} (hm : rank m < r) :
    Below r (m :: H) := by
  intro m' hm'
  rcases List.mem_cons.mp hm' with rfl | hm'
  · exact hm
  · exact h m' hm'

theorem below_nil (r : ℕ) : Below r ([] : List (Mutex τ)) := fun _ hm => absurd hm List.not_mem_nil

section ordered

variable {H : List (Mutex τ)} {p q : Prog τ κ}

theorem ordered_either (hp : Ordered rank H p) (hq : Ordered rank H q) :
    Ordered rank H (either p q) := by
  intro i
  show Ordered rank H (if i.2 = 0 then p else q)
  split_ifs
  · exact hp
  · exact hq

theorem ordered_opt (hp : Ordered rank H p) : Ordered rank H (opt p) := ordered_either trivial hp

theorem ordered_block {ps : List (Prog τ κ)} (h : ∀ p ∈ ps, Ordered rank H p) :
    Ordered rank H (block ps) := by
  induction ps with
  | nil => trivial
  | cons p ps ih =>
      exact ⟨h p List.mem_cons_self, ih fun q hq => h q (List.mem_cons_of_mem p hq)⟩

/-- Waiting on a mutex that was acquired last. -/
theorem ordered_wait {m : Mutex τ} (hH : Below (rank m) H) :
    Ordered rank (m :: H) (.loop (.wait m) : Prog τ κ) := by
  refine ⟨List.mem_cons_self, fun h hh hne => ?_⟩
  exact hH h ((List.mem_cons.mp hh).resolve_left hne)

theorem log_ordered (hH : Below 5 H) : Ordered rank H (log : Prog τ κ) :=
  ordered_opt ⟨hH, trivial⟩

theorem workerLoop_ordered : Ordered rank [] (workerLoop : Prog τ κ) := by
  refine ordered_block fun p hp => ?_
  simp only [List.mem_cons, List.not_mem_nil, or_false] at hp
  obtain rfl | rfl := hp
  · exact ⟨below_nil 5, ordered_wait (below_nil 5)⟩
  · exact fun i => ⟨below_nil 6, trivial⟩

theorem enqueue_ordered (hH : Below 3 H) (x : Component τ) :
    Ordered rank H (enqueue x : Prog τ κ) :=
  ⟨⟨hH.mono (by decide : 3 ≤ 4), trivial⟩, ⟨hH, trivial⟩, trivial⟩

theorem dequeue_ordered (hH : Below 3 H) (x : Component τ) :
    Ordered rank H (dequeue x : Prog τ κ) := by
  refine ⟨hH, ordered_wait hH, ordered_opt ⟨?_, trivial⟩, trivial⟩
  exact (hH.mono (by decide : 3 ≤ 4)).cons (by decide : 3 < 4)

theorem deliverMessage_ordered (hH : Below 3 H) (x : Component τ) :
    Ordered rank H (deliverMessage x : Prog τ κ) :=
  ⟨log_ordered (hH.mono (by decide)), enqueue_ordered hH x, trivial⟩

theorem publish_ordered (hH : Below 2 H) : Ordered rank H (publish : Prog τ κ) :=
  ⟨hH, fun i => deliverMessage_ordered
    ((hH.mono (by decide)).cons (m := .sub) (by simp [rank])) i.1⟩

theorem transitionToState_ordered (hH : Below 2 H) :
    Ordered rank H (transitionToState : Prog τ κ) :=
  ⟨log_ordered (hH.mono (by decide)), publish_ordered hH, trivial⟩

theorem demandStateTransition_ordered (hH : Below 1 H) :
    Ordered rank H (demandStateTransition : Prog τ κ) := by
  have hlog : ∀ {H' : List (Mutex τ)}, Below 2 H' → Ordered rank H' (log : Prog τ κ) :=
    fun h => log_ordered (h.mono (by decide))
  have hin : Below 2 (.state :: H) := (hH.mono (by decide)).cons (m := .state) (by simp [rank])
  refine ⟨hlog (hH.mono (by decide)), ⟨hH, trivial⟩,
    transitionToState_ordered (hH.mono (by decide)), ⟨hH, ordered_wait hH, ?_, trivial⟩, trivial⟩
  exact ordered_opt ⟨hlog hin, ordered_opt (hlog hin), trivial⟩

theorem markTaskAsUnresponsive_ordered (hH : Below 1 H) (x : Component τ) :
    Ordered rank H (markTaskAsUnresponsive x : Prog τ κ) :=
  ⟨log_ordered (hH.mono (by decide)), deliverMessage_ordered (hH.mono (by decide)) x,
    ⟨hH, trivial⟩, trivial⟩

theorem start_ordered (x : Component τ) : Ordered rank H (start x : Prog τ κ) :=
  ordered_opt fun _ => ⟨trivial, ordered_opt trivial, trivial⟩

theorem stop_ordered (x : Component τ) : Ordered rank [] (stop x : Prog τ κ) :=
  ordered_opt ⟨transitionToState_ordered (below_nil 2), ⟨below_nil 3, trivial⟩,
    fun _ => ⟨ordered_opt rfl, ordered_opt rfl, trivial⟩, trivial⟩

theorem managerInitialize_ordered (registered : List (Component τ)) :
    Ordered rank [] (managerInitialize registered : Prog τ κ) := by
  refine ⟨log_ordered (below_nil 5), start_ordered _, ordered_block ?_,
    demandStateTransition_ordered (below_nil 1), ordered_opt (log_ordered (below_nil 5)), trivial⟩
  intro p hp
  obtain ⟨x, -, rfl⟩ := List.mem_map.mp hp
  exact start_ordered x

theorem shutdown_ordered (registered : List (Component τ)) :
    Ordered rank [] (shutdown registered : Prog τ κ) := by
  refine ⟨log_ordered (below_nil 5), demandStateTransition_ordered (below_nil 1),
    ordered_opt (log_ordered (below_nil 5)), ordered_block ?_, stop_ordered _, trivial⟩
  intro p hp
  obtain ⟨x, -, rfl⟩ := List.mem_map.mp hp
  exact stop_ordered x

theorem processMessage_ordered (x : Component τ) :
    Ordered rank [] (processMessage x : Prog τ κ) := by
  have htransition : Ordered rank [] (transitionToState : Prog τ κ) :=
    transitionToState_ordered (below_nil 2)
  cases x with
  | manager => exact log_ordered (below_nil 5)
  | heartBeat =>
      refine ordered_either htransition (ordered_either ⟨below_nil 0, ordered_opt ?_⟩ ?_)
      · exact log_ordered ((below_nil 5).cons (m := .tasks) (by simp [rank]))
      · exact log_ordered (below_nil 5)
  | task t => exact ordered_opt (ordered_either htransition (publish_ordered (below_nil 2)))

theorem periodicTaskProcess_ordered (x : Component τ) :
    Ordered rank [] (periodicTaskProcess x : Prog τ κ) := by
  -- everything below happens inside the scope of `tasks_mutex`
  have hin : Below 1 ([.tasks] : List (Mutex τ)) := (below_nil 1).cons (m := .tasks) (by simp [rank])
  cases x with
  | heartBeat =>
      refine ⟨⟨below_nil 0, ordered_opt fun i => ⟨log_ordered (hin.mono (by decide)),
        ordered_opt (markTaskAsUnresponsive_ordered hin i.1), trivial⟩⟩,
        ordered_opt ⟨below_nil 0, ordered_opt fun i => ?_⟩, trivial⟩
      exact deliverMessage_ordered (hin.mono (by decide)) i.1
  | manager => trivial
  | task t => trivial

/-- Every path through the library acquires its mutexes upwards. -/
theorem prog_ordered (registered : List (Component τ)) (t : Thread τ κ) :
    Ordered rank [] (prog registered t) := by
  cases t with
  | controller c =>
      intro i
      show Ordered rank [] (match i.2 with
        | 0 => _ | 1 => _ | 2 => _ | 3 => _ | _ => _)
      split
      · exact managerInitialize_ordered registered
      · exact transitionToState_ordered (below_nil 2)
      · exact demandStateTransition_ordered (below_nil 1)
      · exact markTaskAsUnresponsive_ordered (below_nil 1) i.1
      · exact shutdown_ordered registered
  | queueThread x n =>
      exact ⟨dequeue_ordered (below_nil 3) x, ordered_opt (processMessage_ordered x), trivial⟩
  | periodicThread x n => exact periodicTaskProcess_ordered x
  | worker => exact workerLoop_ordered

end ordered

/-- **Deadlock freedom of the start-up protocol.**  In every reachable state there is no cycle of
threads that wait for each other's mutexes, no thread acquires a mutex it holds, and no thread
joins another while it holds a mutex. -/
theorem startup_deadlock_free [DecidableEq τ] [DecidableEq κ] (registered : List (Component τ))
    {s : LockSystem (Component τ × ℕ) (Mutex τ) (Thread τ κ)}
    (h : Reaches step (init started (prog registered)) s) :
    (∀ t, ¬Relation.TransGen s.WaitsFor t t) ∧
    (∀ t m, wants (s.frames t) = some m → s.owner m ≠ some t) ∧
    (∀ t u, joins (s.frames t) = some u → ∀ m, s.owner m ≠ some t) := by
  have hd : Disciplined rank s :=
    h.invariant step_disciplined (init_disciplined started (prog_ordered registered))
  exact ⟨hd.no_cycle, fun t m => hd.no_reacquire, fun t u => hd.join_free⟩

/-- Two controllers call `request_state_transition`: one owns `sub_mutex`, the other waits. -/
theorem startup_deadlock_free_contended :
    ∃ s : LockSystem (Component Unit × ℕ) (Mutex Unit) (Thread Unit Bool),
      Protocore.run step (init started (prog [.heartBeat, .task ()]))
        ([false, true].flatMap (fun c => [⟨.controller c, (.manager, 0), true⟩,
          ⟨.controller c, (.manager, 1), true⟩, ⟨.controller c, (.manager, 0), true⟩,
          ⟨.controller c, (.manager, 0), true⟩, ⟨.controller c, (.manager, 0), true⟩,
          ⟨.controller c, (.manager, 0), true⟩]) ++
          [⟨.controller false, (.manager, 0), true⟩]) = some s ∧
      s.WaitsFor (.controller true) (.controller false) ∧
      ¬Relation.TransGen s.WaitsFor (.controller true) (.controller true) := by
  have heval : (Protocore.run step (init started (prog [.heartBeat, .task ()]) :
      LockSystem (Component Unit × ℕ) (Mutex Unit) (Thread Unit Bool))
        ([false, true].flatMap (fun c => [⟨.controller c, (.manager, 0), true⟩,
          ⟨.controller c, (.manager, 1), true⟩, ⟨.controller c, (.manager, 0), true⟩,
          ⟨.controller c, (.manager, 0), true⟩, ⟨.controller c, (.manager, 0), true⟩,
          ⟨.controller c, (.manager, 0), true⟩]) ++
          [⟨.controller false, (.manager, 0), true⟩])).map
            (fun s => (wants (s.frames (.controller true)), s.owner .sub)) =
      some (some .sub, some (.controller false)) := by decide +kernel
  obtain ⟨s, hrun, hval⟩ := Option.map_eq_some_iff.mp heval
  obtain ⟨hwants, howner⟩ := Prod.mk.inj hval
  exact ⟨s, hrun, ⟨.sub, hwants, howner⟩,
    (startup_deadlock_free [.heartBeat, .task ()] ⟨_, hrun⟩).1 _⟩

end Protocore.Locking
