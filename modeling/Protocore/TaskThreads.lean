import Protocore.Lifecycle
import Protocore.ShutdownReturns
import Protocore.Simulation
import Protocore.Stopping

/-! # Starting, stopping and running a task

`Task::start`, `Task::stop` and `Task::run` are part of three systems: `StoppingSystem` has the queue of
the task, `LifecycleSystem` its owners, and `ShutdownSystem` the other tasks and the broadcasts.  What
the three functions do to the flag `running`, to the state and to the queue thread is the same in all of
them: it is `TaskThreads`, in which the messages that are taken may be any.

* `StoppingSystem.simulates_threads`, `LifecycleSystem.simulates_threads`,
  `ShutdownSystem.simulates_threads`: each of the systems is explained by `TaskThreads`.
* `TaskThreads.takes_le_one`: once `running` is cleared, the queue thread takes at most one more message,
  until the task is started again.  It follows for the three systems. -/

namespace Protocore

variable {τ : Type}

/-- A task as the three functions see it. -/
structure TaskThreads (τ : Type) where
  running : Bool
  currentState : TaskState
  thread : QueueThread τ
  stopper : Stopper

/-- The steps of the three functions.  The queue thread comes out of `dequeue` with a message or with
`std::nullopt`; a message that carries no state may be answered. -/
inductive TaskThreadsEvent (τ : Type) where
  | start
  | test
  | take (msg : Msg τ)
  | wake
  | handle (answers : Bool)
  | publish
  | stop
  | stopAssign
  | stopPublish
  | stopNotify
  | stopJoin

namespace TaskThreads

variable [DecidableEq τ]

/-- One step. -/
def step (s : TaskThreads τ) : TaskThreadsEvent τ → Option (TaskThreads τ)
  | .start =>
      if s.stopper = .returned ∧ s.thread = .exited then
        some { s with running := true, thread := .testing, stopper := .idle }
      else none
  | .test =>
      if s.thread = .testing then
        some { s with thread := if s.running then .dequeuing else .exited }
      else none
  | .take msg => if s.thread = .dequeuing then some { s with thread := .handling msg } else none
  | .wake => if s.thread = .dequeuing then some { s with thread := .testing } else none
  | .handle answers =>
      match s.thread with
      | .handling msg =>
          match msg.msgData with
          | .stateMsg m => some { s with currentState := .ofByte m.state, thread := .publishing }
          | _ => some { s with thread := if answers then .publishing else .testing }
      | _ => none
  | .publish => if s.thread = .publishing then some { s with thread := .testing } else none
  | .stop =>
      if s.stopper = .idle ∧ s.running = true then
        some { s with running := false, stopper := .cleared }
      else none
  | .stopAssign =>
      if s.stopper = .cleared then some { s with currentState := .stopped, stopper := .assigned }
      else none
  | .stopPublish =>
      if s.stopper = .assigned then some { s with stopper := .published } else none
  | .stopNotify =>
      if s.stopper = .published then some { s with stopper := .notified } else none
  | .stopJoin =>
      if s.stopper = .notified ∧ s.thread = .exited then some { s with stopper := .returned }
      else none

/-- The queue thread takes a message. -/
def takes : TaskThreadsEvent τ → Bool
  | .take _ => true
  | _ => false

/-- The task is not started. -/
def NotStarted : TaskThreadsEvent τ → Prop
  | .start => False
  | _ => True

/-- How many messages the queue thread of a task that is not running still takes. -/
def takesLeft (s : TaskThreads τ) : ℕ := if s.thread = .dequeuing then 1 else 0

theorem step_takes {s s' : TaskThreads τ} {e : TaskThreadsEvent τ} (hrun : s.running = false)
    (he : NotStarted e) (hs : step s e = some s') :
    s'.running = false ∧ (takes e).toNat + s'.takesLeft ≤ s.takesLeft := by
  cases e with
  | start => exact he.elim
  | test =>
      simp only [step, hrun] at hs
      split at hs
      · obtain rfl := Option.some.inj hs
        exact ⟨rfl, Nat.zero_le _⟩
      · cases hs
  | handle answers =>
      simp only [step] at hs
      split at hs
      · split at hs
        · obtain rfl := Option.some.inj hs
          exact ⟨hrun, Nat.zero_le _⟩
        · obtain rfl := Option.some.inj hs
          refine ⟨hrun, ?_⟩
          cases answers <;> exact Nat.zero_le _
      · cases hs
  | stop =>
      simp only [step, hrun, Bool.false_eq_true, and_false, if_false] at hs
      cases hs
  | _ =>
      simp only [step] at hs
      split_ifs at hs with h
      obtain rfl := Option.some.inj hs
      exact ⟨hrun, by simp [takes, takesLeft, h]⟩

/-- A task that is not running takes the message it is waiting for, and no other. -/
theorem takes_le_one : ∀ {es : List (TaskThreadsEvent τ)} {s s' : TaskThreads τ},
    s.running = false → (∀ e ∈ es, NotStarted e) → run step s es = some s' →
      es.countP takes + s'.takesLeft ≤ s.takesLeft
  | [], s, s', _, _, hrun => by
      obtain rfl : s = s' := by simpa using hrun
      simp
  | e :: es, s, s', hnot, hes, hrun => by
      obtain ⟨s₁, he, hrest⟩ := run_cons_eq_some.mp hrun
      obtain ⟨hnot₁, hfirst⟩ := step_takes hnot (hes e List.mem_cons_self) he
      have htail := takes_le_one hnot₁ (fun e' he' => hes e' (List.mem_cons_of_mem e he')) hrest
      rw [List.countP_cons]
      cases htake : takes e with
      | true =>
          rw [htake] at hfirst
          simp only [Bool.toNat_true] at hfirst
          simp only [if_true]
          omega
      | false =>
          rw [htake] at hfirst
          simp only [Bool.toNat_false] at hfirst
          simp only [Bool.false_eq_true, if_false]
          omega

omit [DecidableEq τ] in
theorem notStarted_of_singleton {x y : TaskThreadsEvent τ} (hx : x ∈ [y]) (hy : NotStarted y) :
    NotStarted x := by
  obtain rfl := List.mem_singleton.mp hx
  exact hy

omit [DecidableEq τ] in
theorem notStarted_of_ite {c : Prop} [Decidable c] {x y : TaskThreadsEvent τ}
    (hx : x ∈ if c then [y] else []) (hy : NotStarted y) : NotStarted x := by
  split_ifs at hx
  · exact notStarted_of_singleton hx hy
  · cases hx

/-- The same in a system that is explained by the three functions. -/
theorem viewed_takes_le_one {σ ε : Type*} {cstep : σ → ε → Option σ} {P : σ → Prop}
    {C : σ → ε → Prop} {seen : σ → ε → List (TaskThreadsEvent τ)} {view : σ → TaskThreads τ}
    (h : Simulates cstep step P C seen view) {es : List ε} {s s' : σ} (hP : P s)
    (hC : Along cstep C s es) (hrun : run cstep s es = some s') (hnot : (view s).running = false)
    (hseen : ∀ s, ∀ e ∈ es, ∀ x ∈ seen s e, NotStarted x) :
    (viewed cstep seen s es).countP takes ≤ 1 := by
  have htakes := takes_le_one hnot (forall_viewed hseen) (h.run_viewed hP hC hrun)
  have hleft : (view s).takesLeft ≤ 1 := by
    unfold takesLeft
    split_ifs <;> omega
  omega

end TaskThreads

/-! ### With the queue -/

namespace StoppingSystem

/-- The task without its queue. -/
def threads (s : StoppingSystem τ) : TaskThreads τ := ⟨s.running, s.currentState, s.thread, s.stopper⟩

/-- What is seen of a step. -/
def threadsSeen (s : StoppingSystem τ) : StoppingEvent τ → List (TaskThreadsEvent τ)
  | .deliver _ => []
  | .test => [.test]
  | .dequeue => [s.queue.front.elim .wake .take]
  | .handle => [.handle false]
  | .publish => [.publish]
  | .stop => [.stop]
  | .stopAssign => [.stopAssign]
  | .stopPublish => [.stopPublish]
  | .stopNotify => [.stopNotify]
  | .stopJoin => [.stopJoin]

theorem simulates_threads [DecidableEq τ] (rep : Node (Msg τ) → ℕ → UInt8) :
    Simulates (step rep) TaskThreads.step (fun _ => True) (fun _ _ => True) threadsSeen
      (threads : StoppingSystem τ → TaskThreads τ) where
  keeps := fun _ _ _ _ _ _ => trivial
  explains := by
    intro s e s' _ _ hs
    cases step_moves hs with
    | deliver queue => rfl
    | test ht => simp [threadsSeen, threads, run, TaskThreads.step, ht]
    | take queue ht hfront => simp [threadsSeen, threads, run, TaskThreads.step, ht, hfront]
    | null queue ht hfront => simp [threadsSeen, threads, run, TaskThreads.step, ht, hfront]
    | assign ht hm => simp [threadsSeen, threads, run, TaskThreads.step, ht, hm]
    | @other msg ht hm =>
        obtain ⟨sender, data⟩ := msg
        cases data with
        | stateMsg m => exact absurd rfl (hm m)
        | _ => simp [threadsSeen, threads, run, TaskThreads.step, ht]
    | publish ht => simp [threadsSeen, threads, run, TaskThreads.step, ht]
    | stop hstop hrun => simp [threadsSeen, threads, run, TaskThreads.step, hstop, hrun]
    | stopAssign hstop => simp [threadsSeen, threads, run, TaskThreads.step, hstop]
    | stopPublish hstop => simp [threadsSeen, threads, run, TaskThreads.step, hstop]
    | stopNotify hstop => simp [threadsSeen, threads, run, TaskThreads.step, hstop]
    | stopJoin hstop ht => simp [threadsSeen, threads, run, TaskThreads.step, hstop, ht]

/-- Once `stop` has cleared `running`, at most one more message is taken out of the queue. -/
theorem takes_le_one [DecidableEq τ] {rep : Node (Msg τ) → ℕ → UInt8} {es : List (StoppingEvent τ)}
    {s s' : StoppingSystem τ} (hnot : s.running = false) (hrun : run (step rep) s es = some s') :
    (viewed (step rep) threadsSeen s es).countP TaskThreads.takes ≤ 1 := by
  refine TaskThreads.viewed_takes_le_one (simulates_threads rep) trivial
    (along_of_forall (fun _ _ => trivial)) hrun hnot ?_
  intro s e _ x hx
  cases e with
  | deliver msg => cases hx
  | dequeue =>
      obtain rfl := List.mem_singleton.mp hx
      cases s.queue.front <;> trivial
  | _ => exact TaskThreads.notStarted_of_singleton hx trivial

end StoppingSystem

/-! ### With the owners -/

namespace LifecycleSystem

/-- The queue thread, whoever owns the task meanwhile. -/
def queueThread : RunPc τ → QueueThread τ
  | .absent => .exited
  | .testing => .testing
  | .dequeuing => .dequeuing
  | .handling msg => .handling msg
  | .publishing => .publishing
  | .owning => .publishing
  | .exited => .exited

/-- The caller of `stop`; the join of the periodic thread is not looked at. -/
def stopCaller (running : Bool) : StopPc → Stopper
  | .idle => if running then .idle else .returned
  | .cleared => .cleared
  | .assigned => .assigned
  | .published => .published
  | .notified => .notified
  | .joinedQueue => .returned

/-- The task without its queue and its owners. -/
def threads (s : LifecycleSystem τ) : TaskThreads τ :=
  ⟨s.running, s.currentState, queueThread s.thread, stopCaller s.running s.stopper⟩

/-- A heartbeat is answered. -/
def answers : RunPc τ → Bool
  | .handling ⟨_, .heartbeatMsg _⟩ => true
  | _ => false

/-- What is seen of a step; the destructor stops the task if it is running. -/
def threadsSeen (s : LifecycleSystem τ) : LifecycleEvent τ → List (TaskThreadsEvent τ)
  | .start => if s.running then [] else [.start]
  | .stop => if s.running then [.stop] else []
  | .destructor => if s.running then [.stop] else []
  | .stopAssign => [.stopAssign]
  | .stopPublish => if s.owners = 0 then [] else [.stopPublish]
  | .stopNotify => [.stopNotify]
  | .stopJoin => [.stopJoin]
  | .test => [.test]
  | .dequeue => [s.queue.front.elim .wake .take]
  | .handle => [.handle (answers s.thread)]
  | .release => [.publish]
  | _ => []

theorem dequeue_threads [DecidableEq τ] {rep : Node (Msg τ) → ℕ → UInt8} {s s' : LifecycleSystem τ}
    (hs : s.liveStep rep .dequeue = some s') :
    s.thread = .dequeuing ∧ ∃ queue,
      s' = { s with queue := queue, thread := s.queue.front.elim .testing .handling } := by
  simp only [liveStep] at hs
  split_ifs at hs with hthread
  split at hs
  · rename_i msg queue hd
    obtain rfl := Option.some.inj hs
    rw [MessageQueue.dequeue_front hd]
    exact ⟨hthread, queue, rfl⟩
  · rename_i queue hd
    obtain rfl := Option.some.inj hs
    rw [MessageQueue.dequeue_front hd]
    exact ⟨hthread, queue, rfl⟩
  · cases hs
  · cases hs

theorem handle_threads [DecidableEq τ] {rep : Node (Msg τ) → ℕ → UInt8} {s s' : LifecycleSystem τ}
    (hs : s.liveStep rep .handle = some s') :
    run TaskThreads.step (threads s) (threadsSeen s .handle) = some (threads s') := by
  simp only [liveStep] at hs
  split at hs
  · rename_i msg hthread
    obtain rfl := Option.some.inj hs
    obtain ⟨sender, data⟩ := msg
    cases data with
    | stateMsg m =>
        simp [threadsSeen, threads, run, TaskThreads.step, queueThread, hthread, processMessage]
    | _ =>
        simp [threadsSeen, threads, run, TaskThreads.step, queueThread, hthread, processMessage, answers]
  · cases hs

theorem simulates_threads [DecidableEq τ] (rep : Node (Msg τ) → ℕ → UInt8) :
    Simulates (step rep) TaskThreads.step Tended (fun _ _ => True) threadsSeen
      (threads : LifecycleSystem τ → TaskThreads τ) where
  keeps := fun _ _ _ h _ hs => moves_tended h (step_moves hs)
  explains := by
    intro s e s' h _ hs
    have hlive : s.liveStep rep e = some s' := by
      unfold step at hs
      split_ifs at hs
      exact hs
    have hm := step_moves hs
    cases e with
    | dequeue =>
        obtain ⟨hthread, queue, rfl⟩ := dequeue_threads hlive
        cases hfront : s.queue.front with
        | none =>
            simp [threadsSeen, threads, run, TaskThreads.step, queueThread, hthread, hfront]
        | some msg =>
            simp [threadsSeen, threads, run, TaskThreads.step, queueThread, hthread, hfront]
    | handle => exact handle_threads hlive
    | start =>
        cases hm with
        | startKnown _ hrun => simp [threadsSeen, hrun]
        | start hstop _ hrun =>
            have hthread := (h.joined hrun hstop).1
            simp [threadsSeen, threads, run, TaskThreads.step, queueThread, stopCaller, hstop, hrun,
              hthread]
    | stop =>
        cases hm with
        | stopKnown _ hrun => simp [threadsSeen, hrun]
        | stop hstop _ hrun =>
            simp [threadsSeen, threads, run, TaskThreads.step, stopCaller, hstop, hrun]
    | stopAssign =>
        cases hm with
        | stopAssign hstop => simp [threadsSeen, threads, run, TaskThreads.step, stopCaller, hstop]
    | stopPublish =>
        cases hm with
        | stopThrow hstop howners => simp [threadsSeen, howners, threads, stopCaller]
        | stopPublish hstop howners =>
            simp [threadsSeen, howners, threads, run, TaskThreads.step, stopCaller, hstop]
    | stopNotify =>
        cases hm with
        | stopNotify hstop => simp [threadsSeen, threads, run, TaskThreads.step, stopCaller, hstop]
    | stopJoin =>
        cases hm with
        | stopJoin hstop hthread =>
            rcases hthread with hthread | hthread
            · simp [threadsSeen, threads, run, TaskThreads.step, stopCaller, queueThread, hstop, hthread]
            · simp [threadsSeen, threads, run, TaskThreads.step, stopCaller, queueThread, hstop, hthread]
    | stopJoinPeriodic =>
        cases hm with
        | stopJoinPeriodic hstop _ =>
            have hrun := h.stopping (by simp [hstop])
            simp [threadsSeen, threads, stopCaller, hstop, hrun]
    | deliver msg =>
        cases hm with
        | deliver _ _ => rfl
    | test =>
        cases hm with
        | test hthread =>
            cases hrun : s.running <;>
              simp [threadsSeen, threads, run, TaskThreads.step, queueThread, hthread, hrun]
    | publish =>
        cases hm with
        | throw hthread _ => simp [threadsSeen, threads]
        | publish hthread _ => simp [threadsSeen, threads, queueThread, hthread]
    | release =>
        cases hm with
        | release hthread =>
            simp [threadsSeen, threads, run, TaskThreads.step, queueThread, hthread, dropOwner]
    | periodicTest =>
        cases hm with
        | periodicTest _ => rfl
    | periodicProcess =>
        cases hm with
        | periodicProcess _ => rfl
    | acquire =>
        cases hm with
        | acquire _ => rfl
    | drop =>
        cases hm with
        | drop _ => rfl
    | destructor =>
        cases hm with
        | destructorStop _ hstop hrun =>
            simp [threadsSeen, threads, run, TaskThreads.step, stopCaller, hstop, hrun]
        | destroy _ hrun _ _ => simp [threadsSeen, threads, stopCaller, hrun]
        | notJoined hrun _ _ => simp [threadsSeen, threads, stopCaller, hrun]

/-- Until it is started again, a task that is not running takes at most one message. -/
theorem takes_le_one [DecidableEq τ] {rep : Node (Msg τ) → ℕ → UInt8} {es : List (LifecycleEvent τ)}
    {s s' : LifecycleSystem τ} (h : Tended s) (hnot : s.running = false) (hes : .start ∉ es)
    (hrun : run (step rep) s es = some s') :
    (viewed (step rep) threadsSeen s es).countP TaskThreads.takes ≤ 1 := by
  refine TaskThreads.viewed_takes_le_one (simulates_threads rep) h
    (along_of_forall (fun _ _ => trivial)) hrun hnot ?_
  intro s e he x hx
  cases e with
  | start => exact absurd he hes
  | dequeue =>
      obtain rfl := List.mem_singleton.mp hx
      cases s.queue.front <;> trivial
  | stop => exact TaskThreads.notStarted_of_ite hx trivial
  | destructor => exact TaskThreads.notStarted_of_ite hx trivial
  | stopPublish =>
      simp only [threadsSeen] at hx
      split_ifs at hx
      · cases hx
      · exact TaskThreads.notStarted_of_singleton hx trivial
  | _ => first | exact TaskThreads.notStarted_of_singleton hx trivial | cases hx

end LifecycleSystem

/-! ### Among the other tasks -/

namespace ShutdownSystem

variable [LinearOrder τ]

/-- The queue thread, whatever it publishes. -/
def queueThread : LoopPc τ → QueueThread τ
  | .testing => .testing
  | .dequeuing => .dequeuing
  | .handling msg => .handling msg
  | .announcing => .publishing
  | .answering _ => .publishing
  | .publishing => .publishing
  | .exited => .exited

/-- How far `stop` has come. -/
def stopStage : ShutdownPc τ → Stopper
  | .assigning _ _ _ => .cleared
  | .announcing _ _ _ => .assigned
  | .stopPublishing _ _ _ => .assigned
  | .notifying _ _ _ => .published
  | .joining _ _ _ => .notified
  | _ => .returned

/-- The caller of `stop` of one task. -/
def stopCaller (x : τ) (running : Bool) (pc : ShutdownPc τ) : Stopper :=
  if pc.current = some x then stopStage pc else if running then .idle else .returned

/-- One task, without its queue. -/
def threads (x : τ) (s : ShutdownSystem τ) : TaskThreads τ :=
  ⟨s.running x, s.currentState x, queueThread (s.loop x), stopCaller x (s.running x) s.caller⟩

/-- What the calling thread does to one task. -/
def callSeen (x : τ) (running : Bool) : ShutdownPc τ → List (TaskThreadsEvent τ)
  | .stopping _ (y :: _) => if y = x ∧ running = true then [.stop] else []
  | .assigning _ y _ => if y = x then [.stopAssign] else []
  | .notifying _ y _ => if y = x then [.stopNotify] else []
  | .joining _ y _ => if y = x then [.stopJoin] else []
  | _ => []

/-- What its queue thread does; the monitor does not answer heartbeats. -/
def loopSeen (x : τ) (s : ShutdownSystem τ) : LoopPc τ → List (TaskThreadsEvent τ)
  | .testing => [.test]
  | .dequeuing => [(StableQueue.pop Msg.getPriority (s.queue x)).elim .wake (fun r => .take r.1)]
  | .handling msg => [.handle (decide (msg.getType = .heartbeatMsg ∧ x ≠ s.monitor.self))]
  | _ => []

/-- What is seen of the end of a broadcast. -/
def deliverSeen (x : τ) (s : ShutdownSystem τ) : List (TaskThreadsEvent τ) :=
  match s.sub with
  | some ⟨some y, _, []⟩ => if y = x then [.publish] else []
  | some ⟨none, _, []⟩ =>
      match s.caller with
      | .stopPublishing _ y _ => if y = x then [.stopPublish] else []
      | _ => []
  | _ => []

/-- What is seen of a step. -/
def threadsSeen (x : τ) (s : ShutdownSystem τ) : ShutdownEvent τ → List (TaskThreadsEvent τ)
  | .call => callSeen x (s.running x) s.caller
  | .queueThread y _ => if y = x then loopSeen x s (s.loop x) else []
  | .deliver => deliverSeen x s
  | _ => []

variable {subs : MsgType → List τ} {s s' : ShutdownSystem τ} {e : ShutdownEvent τ} {mgr hb x : τ}

/-- Who publishes, and that the task that is being stopped is not running. -/
structure Stops (mgr hb : τ) (s : ShutdownSystem τ) : Prop where
  wired : Wired mgr hb s
  cleared : ∀ y, s.caller.current = some y → s.running y = false

theorem moves_stops (h : Stops mgr hb s) (hm : Moves subs s e s') : Stops mgr hb s' := by
  refine ⟨moves_wired h.wired hm, ?_⟩
  intro y hy
  cases hm with
  | stop hpc _ =>
      obtain rfl := Option.some.inj hy
      exact Function.update_self ..
  | assignManager hpc _ => exact h.cleared y (by rw [hpc]; exact hy)
  | assign hpc _ => exact h.cleared y (by rw [hpc]; exact hy)
  | announce hpc _ => exact h.cleared y (by rw [hpc]; exact hy)
  | notify hpc => exact h.cleared y (by rw [hpc]; exact hy)
  | join hpc _ => exact h.cleared y (by rw [hpc]; exact hy)
  | deliveredStop _ hpc => exact h.cleared y (by rw [hpc]; exact hy)
  | _ => first | exact h.cleared y hy | cases hy

/-- The calling thread, at the points where it is not in `stop` of the task before or after. -/
theorem call_other (hrun : s'.running x = s.running x) (hstate : s'.currentState x = s.currentState x)
    (hloop : s'.loop x = s.loop x) (hpc : s.caller.current ≠ some x) (hpc' : s'.caller.current ≠ some x)
    (hseen : callSeen x (s.running x) s.caller = []) :
    run TaskThreads.step (threads x s) (callSeen x (s.running x) s.caller) = some (threads x s') := by
  rw [hseen, run_nil, threads, threads, hrun, hstate, hloop, stopCaller, stopCaller, if_neg hpc,
    if_neg hpc']

theorem call_threads (h : Stops mgr hb s) (hx : x ≠ mgr) (hm : Moves subs s .call s') :
    run TaskThreads.step (threads x s) (callSeen x (s.running x) s.caller) = some (threads x s') := by
  have hxm : x ≠ s.manager.self := by rwa [h.wired.manager]
  cases hm with
  | @stop success y rest hpc hrunning =>
      by_cases hy : y = x
      · subst hy
        simp [callSeen, threads, stopCaller, ShutdownPc.current, stopStage, run, TaskThreads.step, hpc,
          hrunning]
      · refine call_other (Function.update_of_ne (Ne.symm hy) ..) rfl rfl ?_ ?_ ?_
        · simp [hpc, ShutdownPc.current]
        · exact fun heq => hy (Option.some.inj heq)
        · rw [hpc, callSeen, if_neg (fun hc => hy hc.1)]
  | @skip success y rest hpc hrunning =>
      refine call_other rfl rfl rfl (by simp [hpc, ShutdownPc.current]) (by simp [ShutdownPc.current]) ?_
      rw [hpc, callSeen, if_neg]
      rintro ⟨rfl, hrun⟩
      exact hrunning hrun
  | @assignManager success y rest hpc hy =>
      have hyx : y ≠ x := fun heq => hxm (heq ▸ hy)
      refine call_other rfl rfl rfl ?_ ?_ ?_
      · rw [hpc]; exact fun heq => hyx (Option.some.inj heq)
      · exact fun heq => hyx (Option.some.inj heq)
      · rw [hpc, callSeen, if_neg hyx]
  | @assign success y rest hpc hy =>
      by_cases hyx : y = x
      · subst hyx
        simp [callSeen, threads, stopCaller, ShutdownPc.current, stopStage, run, TaskThreads.step, hpc]
      · refine call_other rfl (Function.update_of_ne (Ne.symm hyx) ..) rfl ?_ ?_ ?_
        · rw [hpc]; exact fun heq => hyx (Option.some.inj heq)
        · exact fun heq => hyx (Option.some.inj heq)
        · rw [hpc, callSeen, if_neg hyx]
  | announce hpc hfree =>
      simp [callSeen, threads, stopCaller, ShutdownPc.current, stopStage, hpc]
  | @notify success y rest hpc =>
      by_cases hyx : y = x
      · subst hyx
        simp [callSeen, threads, stopCaller, ShutdownPc.current, stopStage, run, TaskThreads.step, hpc]
      · simp [callSeen, threads, stopCaller, ShutdownPc.current, hpc, hyx]
  | @join success y rest hpc hexited =>
      by_cases hyx : y = x
      · subst hyx
        simp [callSeen, threads, stopCaller, ShutdownPc.current, stopStage, queueThread, run,
          TaskThreads.step, hpc, hexited]
      · simp [callSeen, threads, stopCaller, ShutdownPc.current, hpc, hyx]
  | @joinPeriodic success y rest hpc hexited =>
      by_cases hyx : y = x
      · subst hyx
        have hrun := h.cleared y (by rw [hpc]; rfl)
        simp [callSeen, threads, stopCaller, ShutdownPc.current, stopStage, hpc, hrun]
      · simp [callSeen, threads, stopCaller, ShutdownPc.current, hpc, hyx]
  | returned hpc => simp [callSeen, threads, stopCaller, ShutdownPc.current, hpc]
  | setTarget hpc => simp [callSeen, threads, stopCaller, ShutdownPc.current, hpc]
  | transition hpc => simp [callSeen, threads, stopCaller, ShutdownPc.current, hpc]
  | publish hpc _ => simp [callSeen, threads, stopCaller, ShutdownPc.current, hpc]
  | check hpc => simp [callSeen, threads, stopCaller, ShutdownPc.current, hpc]
  | succeed hpc => simp [callSeen, threads, stopCaller, ShutdownPc.current, hpc]
  | pass hpc _ => simp [callSeen, threads, stopCaller, ShutdownPc.current, hpc]
  | giveUp hpc _ => simp [callSeen, threads, stopCaller, ShutdownPc.current, hpc]
  | waitAgain hpc _ => simp [callSeen, threads, stopCaller, ShutdownPc.current, hpc]

theorem handle_threads {msg : Msg τ} {now : ℤ} (hxm : x ≠ s.manager.self)
    (hpc : s.loop x = .handling msg) (hs : s.handleStep x msg now = some s') :
    run TaskThreads.step (threads x s) (loopSeen x s (s.loop x)) = some (threads x s') := by
  simp only [handleStep, if_neg hxm] at hs
  obtain ⟨sender, data⟩ := msg
  cases data with
  | stateMsg m =>
      obtain rfl := Option.some.inj hs
      simp [loopSeen, threads, queueThread, run, TaskThreads.step, hpc]
  | heartbeatMsg m =>
      obtain rfl := Option.some.inj hs
      by_cases hmonitor : x = s.monitor.self
      · simp [loopSeen, threads, queueThread, run, TaskThreads.step, hpc, ← hmonitor]
      · simp [loopSeen, threads, queueThread, run, TaskThreads.step, hpc, hmonitor, Msg.getType,
          MessageVariant.type]
  | heartbeatAckMsg ack =>
      simp only at hs
      split_ifs at hs
      · obtain rfl := Option.some.inj hs
        simp [loopSeen, threads, queueThread, run, TaskThreads.step, hpc, Msg.getType,
          MessageVariant.type]
      · obtain rfl := Option.some.inj hs
        simp [loopSeen, threads, queueThread, run, TaskThreads.step, hpc, Msg.getType,
          MessageVariant.type]
  | stateAckMsg ack =>
      obtain rfl := Option.some.inj hs
      simp [loopSeen, threads, queueThread, run, TaskThreads.step, hpc, Msg.getType,
        MessageVariant.type]

/-- Another queue thread does not touch the task. -/
theorem queueThread_other {y : τ} {now : ℤ} (hyx : x ≠ y) (hm : Moves subs s (.queueThread y now) s') :
    threads x s' = threads x s := by
  cases hm <;> simp only [threads, Function.update_of_ne hyx]

theorem queueThread_threads {y : τ} {now : ℤ} (h : Stops mgr hb s) (hx : x ≠ mgr)
    (hs : s.queueStep subs y now = some s') :
    run TaskThreads.step (threads x s) (threadsSeen x s (.queueThread y now)) = some (threads x s') := by
  have hxm : x ≠ s.manager.self := by rwa [h.wired.manager]
  by_cases hyx : y = x
  · subst hyx
    rw [threadsSeen, if_pos rfl]
    unfold queueStep at hs
    cases hpc : s.loop y with
    | testing =>
        simp only [hpc] at hs
        obtain rfl := Option.some.inj hs
        cases hrun : s.running y <;>
          simp [loopSeen, threads, queueThread, run, TaskThreads.step, hpc, hrun]
    | dequeuing =>
        simp only [hpc] at hs
        cases hpop : StableQueue.pop Msg.getPriority (s.queue y) with
        | none =>
            simp only [hpop] at hs
            split_ifs at hs
            obtain rfl := Option.some.inj hs
            simp [loopSeen, threads, queueThread, run, TaskThreads.step, hpc, hpop]
        | some r =>
            simp only [hpop] at hs
            obtain rfl := Option.some.inj hs
            simp [loopSeen, threads, queueThread, run, TaskThreads.step, hpc, hpop]
    | handling msg =>
        simp only [hpc] at hs
        rw [← hpc]
        exact handle_threads hxm hpc hs
    | announcing =>
        simp only [hpc] at hs
        split_ifs at hs
        obtain rfl := Option.some.inj hs
        simp [loopSeen, threads, queueThread, hpc]
    | answering m =>
        simp only [hpc] at hs
        split_ifs at hs
        obtain rfl := Option.some.inj hs
        simp [loopSeen, threads, queueThread, hpc]
    | publishing => simp only [hpc] at hs; cases hs
    | exited => simp only [hpc] at hs; cases hs
  · rw [threadsSeen, if_neg hyx, run_nil]
    exact congrArg some (queueThread_other (Ne.symm hyx) (queueStep_moves hs)).symm

theorem deliver_threads (h : Stops mgr hb s) (hs : s.deliverStep = some s') :
    run TaskThreads.step (threads x s) (deliverSeen x s) = some (threads x s') := by
  unfold deliverStep at hs
  cases hsub : s.sub with
  | none => simp only [hsub] at hs; cases hs
  | some d =>
      obtain ⟨publisher, msg, rest⟩ := d
      cases rest with
      | cons y rest =>
          simp only [hsub] at hs
          obtain rfl := Option.some.inj hs
          cases publisher <;> simp [deliverSeen, hsub, threads, deliverMessage]
      | nil =>
          cases publisher with
          | some y =>
              simp only [hsub] at hs
              obtain rfl := Option.some.inj hs
              have hpublishing := h.wired.publishes y msg [] hsub
              by_cases hyx : y = x
              · subst hyx
                simp [deliverSeen, hsub, threads, queueThread, run, TaskThreads.step, hpublishing]
              · simp [deliverSeen, hsub, threads, hyx, Function.update_of_ne (Ne.symm hyx)]
          | none =>
              simp only [hsub] at hs
              obtain rfl := Option.some.inj hs
              cases hpc : s.caller with
              | stopPublishing success y rest =>
                  by_cases hyx : y = x
                  · subst hyx
                    simp [deliverSeen, hsub, hpc, threads, stopCaller, ShutdownPc.current, stopStage,
                      run, TaskThreads.step]
                  · simp [deliverSeen, hsub, hpc, threads, stopCaller, ShutdownPc.current, hyx]
              | _ => simp [deliverSeen, hsub, hpc, threads, stopCaller, ShutdownPc.current, stopStage]

theorem simulates_threads (subs : MsgType → List τ) (mgr hb : τ) (hx : x ≠ mgr) :
    Simulates (step subs) TaskThreads.step (Stops mgr hb) (fun _ _ => True) (threadsSeen x)
      (threads x) where
  keeps := fun _ _ _ h _ hs => moves_stops h (step_moves hs)
  explains := by
    intro s e s' h _ hs
    have hm := step_moves hs
    cases e with
    | shutdown =>
        cases hm with
        | shutdown hpc => simp [threadsSeen, threads, stopCaller, ShutdownPc.current, hpc]
    | call => exact call_threads h hx hm
    | timeout =>
        cases hm with
        | timeout hpc => simp [threadsSeen, threads, stopCaller, ShutdownPc.current, hpc]
    | queueThread y now => exact queueThread_threads h hx hs
    | periodicThread now => cases hm <;> rfl
    | deliver => exact deliver_threads h hs

theorem callSeen_notStarted {running : Bool} {pc : ShutdownPc τ} :
    ∀ y ∈ callSeen x running pc, TaskThreads.NotStarted y := by
  intro y hy
  unfold callSeen at hy
  split at hy
  · exact TaskThreads.notStarted_of_ite hy trivial
  · exact TaskThreads.notStarted_of_ite hy trivial
  · exact TaskThreads.notStarted_of_ite hy trivial
  · exact TaskThreads.notStarted_of_ite hy trivial
  · cases hy

theorem loopSeen_notStarted {pc : LoopPc τ} : ∀ y ∈ loopSeen x s pc, TaskThreads.NotStarted y := by
  intro y hy
  unfold loopSeen at hy
  split at hy
  · exact TaskThreads.notStarted_of_singleton hy trivial
  · refine TaskThreads.notStarted_of_singleton hy ?_
    cases StableQueue.pop Msg.getPriority (s.queue x) <;> trivial
  · exact TaskThreads.notStarted_of_singleton hy trivial
  · cases hy

theorem deliverSeen_notStarted : ∀ y ∈ deliverSeen x s, TaskThreads.NotStarted y := by
  intro y hy
  unfold deliverSeen at hy
  split at hy
  · exact TaskThreads.notStarted_of_ite hy trivial
  · split at hy
    · exact TaskThreads.notStarted_of_ite hy trivial
    · cases hy
  · cases hy

theorem threadsSeen_notStarted : ∀ y ∈ threadsSeen x s e, TaskThreads.NotStarted y := by
  intro y hy
  cases e with
  | call => exact callSeen_notStarted y hy
  | queueThread z now =>
      simp only [threadsSeen] at hy
      split_ifs at hy
      · exact loopSeen_notStarted y hy
      · cases hy
  | deliver => exact deliverSeen_notStarted y hy
  | _ => cases hy

/-- A task that `shutdown` has begun to stop takes at most one more message. -/
theorem takes_le_one {es : List (ShutdownEvent τ)} (hx : x ≠ mgr) (h : Stops mgr hb s)
    (hnot : s.running x = false) (hrun : run (step subs) s es = some s') :
    (viewed (step subs) (threadsSeen x) s es).countP TaskThreads.takes ≤ 1 :=
  TaskThreads.viewed_takes_le_one (simulates_threads subs mgr hb hx) h
    (along_of_forall (fun _ _ => trivial)) hrun hnot (fun _ _ _ => threadsSeen_notStarted)

end ShutdownSystem

end Protocore
