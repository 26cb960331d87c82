import Protocore.Msg
import Protocore.TryDequeue

/-! # The life of a task

A task from its factory to its destructor: `start` and `stop`, by one controlling thread, any number of
times; its queue thread and, with an interval, its periodic thread; deliveries; and the shared pointers
that own it.  The threads of the task hold a raw pointer.  Whoever calls a function of the task from
outside does so through an owner, and the queue thread owns the task itself while it publishes
(`safe_publish` keeps `shared_from_this()` in a local variable): these owners cannot be dropped
meanwhile (`held`).  When the last owner goes, the destructor runs `stop`, and `shared_from_this()`
throws from then on.

* `destructor_completes_iff`: the destructor completes, with the threads joined and nothing thrown,
  exactly when the task is not running as its last owner goes.
* `dequeue_blocks_iff`: in a running task with an empty queue, `dequeue` waits exactly when no `stop` has
  taken effect before.  `notify_shutdown` sets a flag of the queue that `start` does not reset. -/

namespace Protocore

variable {τ : Type}

/-- Where the queue thread is in `Task::run`; `absent` is no thread to join.  In `publishing` it is about
to call `shared_from_this`, in `owning` it has an owner of its own. -/
inductive RunPc (τ : Type) where
  | absent
  | testing
  | dequeuing
  | handling (msg : Msg τ)
  | publishing
  | owning
  | exited
deriving DecidableEq

/-- Where the periodic thread is in `Task::run_periodic`. -/
inductive IntervalPc where
  | absent
  | testing
  | processing
  | exited
deriving DecidableEq

/-- Where `Task::stop` is, called by the controlling thread or by the destructor. -/
inductive StopPc where
  | idle
  | cleared
  | assigned
  | published
  | notified
  | joinedQueue
deriving DecidableEq

/-- The object: owned; inside its destructor; gone; or the program has been terminated by an exception of
`shared_from_this` or by the destructor of a thread that was not joined. -/
inductive Fate where
  | alive
  | destroying
  | destroyed
  | badWeakPtr
  | notJoined
deriving DecidableEq

/-- Nothing happens any more. -/
def Fate.over : Fate → Bool
  | .alive => false
  | .destroying => false
  | _ => true

/-- A task, its threads, the call of `stop` and the number of its owners. -/
structure LifecycleSystem (τ : Type) where
  running : Bool
  currentState : TaskState
  queue : MessageQueue (Msg τ)
  interval : Bool
  thread : RunPc τ
  periodic : IntervalPc
  stopper : StopPc
  owners : ℕ
  fate : Fate

/-- The calls and steps of the controlling thread, a delivery, the steps of the two threads, owners that
are copied and dropped, and the destructor. -/
inductive LifecycleEvent (τ : Type) where
  | start
  | stop
  | stopAssign
  | stopPublish
  | stopNotify
  | stopJoin
  | stopJoinPeriodic
  | deliver (msg : Msg τ)
  | test
  | dequeue
  | handle
  | publish
  | release
  | periodicTest
  | periodicProcess
  | acquire
  | drop
  | destructor

namespace MessageQueue

variable {μ : Type} {prio : μ → ℕ} {rep : Node μ → ℕ → UInt8} {q q' : MessageQueue μ}

theorem enqueue_shutdown {message : μ} (h : q.enqueue prio rep message = .ok q') :
    q'.shutdown = q.shutdown := by
  unfold enqueue at h
  cases ha : q.allocateNode with
  | error f => rw [ha] at h; cases h
  | ok r =>
      obtain ⟨raw, q₁⟩ := r
      obtain ⟨pool, rfl⟩ := allocateNode_frame ha
      rw [ha] at h
      obtain rfl := Except.ok.inj h
      rfl

theorem dequeue_shutdown {result : Option μ} (h : q.dequeue prio = .ok (some (result, q'))) :
    q'.shutdown = q.shutdown := by
  unfold dequeue at h
  rcases q.dequeuePop_cases prio with ⟨-, -, hd⟩ | ⟨-, -, hd⟩ | ⟨-, p, q₁, hd, hpops, -⟩
  · rw [hd] at h
    cases h
  · rw [hd] at h
    obtain ⟨-, rfl⟩ := Prod.mk.inj (Option.some.inj (Except.ok.inj h))
    rfl
  · rw [hd] at h
    simp only [Except.bind, finish] at h
    cases hf : q₁.freeNode p with
    | error f => rw [hf] at h; cases h
    | ok q₂ =>
        rw [hf] at h
        obtain ⟨-, rfl⟩ := Prod.mk.inj (Option.some.inj (Except.ok.inj h))
        obtain ⟨pool, rfl⟩ := freeNode_frame hf
        exact hpops.shutdown

theorem dequeue_null_of (h0 : q.queue.size = 0) (hdown : q.shutdown = true) :
    q.dequeue prio = .ok (some (none, { q with sequence := 0 })) := by
  unfold dequeue
  rcases q.dequeuePop_cases prio with ⟨-, hup, -⟩ | ⟨-, -, hd⟩ | ⟨hne, -⟩
  · rw [hdown] at hup
    cases hup
  · rw [hd]
    rfl
  · exact absurd h0 hne

theorem dequeue_blocks_of (h0 : q.queue.size = 0) : q.dequeue prio = .ok none ↔ q.shutdown = false := by
  constructor
  · intro hblocks
    rw [← Bool.not_eq_true]
    intro hdown
    rw [dequeue_null_of h0 hdown] at hblocks
    cases hblocks
  · intro hup
    unfold dequeue dequeuePop
    rw [if_pos ⟨h0, hup⟩]
    rfl

theorem create_shutdown {msgSize maxMsgs base : ℕ} {m : Bytes.Mem} {nodes : ℕ → Node μ}
    (h : create msgSize maxMsgs base m nodes = .ok q) : q.shutdown = false := by
  unfold create at h
  cases hp : MemoryPool.create msgSize maxMsgs base m with
  | error f => rw [hp] at h; cases h
  | ok pool =>
      rw [hp] at h
      obtain rfl := Except.ok.inj h
      rfl

end MessageQueue

namespace LifecycleSystem

/-- The factory has returned; `interval` says that a periodic interval is set. -/
def created (queue : MessageQueue (Msg τ)) (interval : Bool) : LifecycleSystem τ where
  running := false
  currentState := .notStarted
  queue := queue
  interval := interval
  thread := .absent
  periodic := .absent
  stopper := .idle
  owners := 1
  fate := .alive

section defs
variable [DecidableEq τ] (rep : Node (Msg τ) → ℕ → UInt8)

/-- The owners that are in use: one by the caller of `stop`, one by the queue thread. -/
def held (s : LifecycleSystem τ) : ℕ :=
  (if s.stopper = .idle then 0 else 1) + (if s.thread = .owning then 1 else 0)

/-- An owner is dropped; with the last one the destructor begins. -/
def dropOwner (s : LifecycleSystem τ) : LifecycleSystem τ :=
  { s with
    owners := s.owners - 1
    fate := if s.owners - 1 = 0 then .destroying else s.fate }

/-- `if (thread.joinable()) thread.join();` for the queue thread. -/
def joinQueue (s : LifecycleSystem τ) : Option (LifecycleSystem τ) :=
  match s.thread with
  | .absent => some { s with stopper := .joinedQueue }
  | .exited => some { s with thread := .absent, stopper := .joinedQueue }
  | _ => none

/-- The same for the periodic thread; `stop` returns. -/
def joinPeriodic (s : LifecycleSystem τ) : Option (LifecycleSystem τ) :=
  match s.periodic with
  | .absent => some { s with stopper := .idle }
  | .exited => some { s with periodic := .absent, stopper := .idle }
  | _ => none

/-- `process_message`: a task answers a command and a heartbeat. -/
def processMessage (s : LifecycleSystem τ) (msg : Msg τ) : LifecycleSystem τ :=
  match msg.msgData with
  | .stateMsg m => { s with currentState := .ofByte m.state, thread := .publishing }
  | .heartbeatMsg _ => { s with thread := .publishing }
  | _ => { s with thread := .testing }

/-- A step while the object exists.  `start` and `stop` are called through an owner, and a delivery is
made through one. -/
def liveStep (s : LifecycleSystem τ) : LifecycleEvent τ → Option (LifecycleSystem τ)
  | .start =>
      if s.stopper = .idle ∧ s.held < s.owners then
        if s.running then some s
        else
          some { s with
            running := true
            thread := .testing
            periodic := if s.interval then .testing else s.periodic }
      else none
  | .stop =>
      if s.stopper = .idle ∧ s.held < s.owners then
        if s.running then some { s with running := false, stopper := .cleared } else some s
      else none
  | .stopAssign =>
      if s.stopper = .cleared then some { s with currentState := .stopped, stopper := .assigned }
      else none
  | .stopPublish =>
      if s.stopper = .assigned then
        if s.owners = 0 then some { s with fate := .badWeakPtr }
        else some { s with stopper := .published }
      else none
  | .stopNotify =>
      if s.stopper = .published then
        some { s with queue := s.queue.notifyShutdown, stopper := .notified }
      else none
  | .stopJoin => if s.stopper = .notified then s.joinQueue else none
  | .stopJoinPeriodic => if s.stopper = .joinedQueue then s.joinPeriodic else none
  | .deliver msg =>
      if 0 < s.owners then
        match s.queue.enqueue Msg.getPriority rep msg with
        | .ok queue => some { s with queue := queue }
        | .error _ => none
      else none
  | .test =>
      if s.thread = .testing then
        some { s with thread := if s.running then .dequeuing else .exited }
      else none
  | .dequeue =>
      if s.thread = .dequeuing then
        match s.queue.dequeue Msg.getPriority with
        | .ok (some (some msg, queue)) => some { s with queue := queue, thread := .handling msg }
        | .ok (some (none, queue)) => some { s with queue := queue, thread := .testing }
        | .ok none => none
        | .error _ => none
      else none
  | .handle =>
      match s.thread with
      | .handling msg => some (s.processMessage msg)
      | _ => none
  | .publish =>
      if s.thread = .publishing then
        if s.owners = 0 then some { s with fate := .badWeakPtr }
        else some { s with owners := s.owners + 1, thread := .owning }
      else none
  | .release =>
      -- the destructor may begin here, on the queue thread itself
      if s.thread = .owning then some (dropOwner { s with thread := .testing }) else none
  | .periodicTest =>
      if s.periodic = .testing then
        some { s with periodic := if s.running then .processing else .exited }
      else none
  | .periodicProcess =>
      if s.periodic = .processing then some { s with periodic := .testing } else none
  | .acquire => if 0 < s.owners then some { s with owners := s.owners + 1 } else none
  | .drop => if s.held < s.owners then some s.dropOwner else none
  | .destructor =>
      if s.fate = .destroying ∧ s.stopper = .idle then
        if s.running then some { s with running := false, stopper := .cleared }
        else if s.thread = .absent ∧ s.periodic = .absent then some { s with fate := .destroyed }
        else some { s with fate := .notJoined }
      else none

/-- One step. -/
def step (s : LifecycleSystem τ) (e : LifecycleEvent τ) : Option (LifecycleSystem τ) :=
  if s.fate.over then none else s.liveStep rep e

/-- The destructor that has begun completes: nothing is thrown, whatever the threads do, and the object is
gone in the end, with no thread left. -/
structure Completes (s : LifecycleSystem τ) : Prop where
  quiet : ∀ s', Reaches (step rep) s s' → s'.fate ≠ .badWeakPtr ∧ s'.fate ≠ .notJoined
  ends : ∃ s', Reaches (step rep) s s' ∧ s'.fate = .destroyed ∧ s'.thread = .absent ∧
    s'.periodic = .absent

/-- A `stop`, also that of the destructor, finds the task not running and does nothing. -/
def StopsIdle (s : LifecycleSystem τ) : LifecycleEvent τ → Prop
  | .stop => s.running = false
  | .destructor => s.running = false
  | _ => True

end defs

/-! ### Everything a step can do -/

/-- The steps by what they do to the flags, the threads and the owners. -/
inductive Moves [DecidableEq τ] (s : LifecycleSystem τ) : LifecycleEvent τ → LifecycleSystem τ → Prop
  | startKnown (hheld : s.held < s.owners) (hrun : s.running = true) : Moves s .start s
  | start (hstop : s.stopper = .idle) (hheld : s.held < s.owners) (hrun : s.running = false) :
      Moves s .start { s with
        running := true
        thread := .testing
        periodic := if s.interval then .testing else s.periodic }
  | stopKnown (hheld : s.held < s.owners) (hrun : s.running = false) : Moves s .stop s
  | stop (hstop : s.stopper = .idle) (hheld : s.held < s.owners) (hrun : s.running = true) :
      Moves s .stop { s with running := false, stopper := .cleared }
  | stopAssign (hstop : s.stopper = .cleared) :
      Moves s .stopAssign { s with currentState := .stopped, stopper := .assigned }
  | stopThrow (hstop : s.stopper = .assigned) (howners : s.owners = 0) :
      Moves s .stopPublish { s with fate := .badWeakPtr }
  | stopPublish (hstop : s.stopper = .assigned) (howners : s.owners ≠ 0) :
      Moves s .stopPublish { s with stopper := .published }
  | stopNotify (hstop : s.stopper = .published) :
      Moves s .stopNotify { s with queue := s.queue.notifyShutdown, stopper := .notified }
  | stopJoin (hstop : s.stopper = .notified) (hthread : s.thread = .absent ∨ s.thread = .exited) :
      Moves s .stopJoin { s with thread := .absent, stopper := .joinedQueue }
  | stopJoinPeriodic (hstop : s.stopper = .joinedQueue)
      (hperiodic : s.periodic = .absent ∨ s.periodic = .exited) :
      Moves s .stopJoinPeriodic { s with periodic := .absent, stopper := .idle }
  | deliver {msg : Msg τ} {queue : MessageQueue (Msg τ)} (howners : 0 < s.owners)
      (hqueue : queue.shutdown = s.queue.shutdown) : Moves s (.deliver msg) { s with queue := queue }
  | test (hthread : s.thread = .testing) :
      Moves s .test { s with thread := if s.running then .dequeuing else .exited }
  | dequeue {queue : MessageQueue (Msg τ)} {pc : RunPc τ} (hthread : s.thread = .dequeuing)
      (hqueue : queue.shutdown = s.queue.shutdown) (hpc : pc ≠ .owning) :
      Moves s .dequeue { s with queue := queue, thread := pc }
  | handle {msg : Msg τ} {state : TaskState} {pc : RunPc τ} (hthread : s.thread = .handling msg)
      (hpc : pc ≠ .owning) : Moves s .handle { s with currentState := state, thread := pc }
  | throw (hthread : s.thread = .publishing) (howners : s.owners = 0) :
      Moves s .publish { s with fate := .badWeakPtr }
  | publish (hthread : s.thread = .publishing) (howners : s.owners ≠ 0) :
      Moves s .publish { s with owners := s.owners + 1, thread := .owning }
  | release (hthread : s.thread = .owning) : Moves s .release (dropOwner { s with thread := .testing })
  | periodicTest (hperiodic : s.periodic = .testing) :
      Moves s .periodicTest { s with periodic := if s.running then .processing else .exited }
  | periodicProcess (hperiodic : s.periodic = .processing) :
      Moves s .periodicProcess { s with periodic := .testing }
  | acquire (howners : 0 < s.owners) : Moves s .acquire { s with owners := s.owners + 1 }
  | drop (hheld : s.held < s.owners) : Moves s .drop s.dropOwner
  | destructorStop (hfate : s.fate = .destroying) (hstop : s.stopper = .idle)
      (hrun : s.running = true) :
      Moves s .destructor { s with running := false, stopper := .cleared }
  | destroy (hfate : s.fate = .destroying) (hrun : s.running = false) (hthread : s.thread = .absent)
      (hperiodic : s.periodic = .absent) : Moves s .destructor { s with fate := .destroyed }
  | notJoined (hrun : s.running = false) (hstop : s.stopper = .idle)
      (hthreads : ¬ (s.thread = .absent ∧ s.periodic = .absent)) :
      Moves s .destructor { s with fate := .notJoined }

section moves
variable [DecidableEq τ] {rep : Node (Msg τ) → ℕ → UInt8} {s s' : LifecycleSystem τ}

theorem joinQueue_moves (hstop : s.stopper = .notified) (hs : s.joinQueue = some s') :
    Moves s .stopJoin s' := by
  unfold joinQueue at hs
  split at hs
  · rename_i hthread
    obtain rfl := Option.some.inj hs
    have hjoin := Moves.stopJoin hstop (.inl hthread)
    rwa [← hthread] at hjoin
  · rename_i hthread
    obtain rfl := Option.some.inj hs
    exact .stopJoin hstop (.inr hthread)
  · cases hs

theorem joinPeriodic_moves (hstop : s.stopper = .joinedQueue) (hs : s.joinPeriodic = some s') :
    Moves s .stopJoinPeriodic s' := by
  unfold joinPeriodic at hs
  split at hs
  · rename_i hperiodic
    obtain rfl := Option.some.inj hs
    have hjoin := Moves.stopJoinPeriodic hstop (.inl hperiodic)
    rwa [← hperiodic] at hjoin
  · rename_i hperiodic
    obtain rfl := Option.some.inj hs
    exact .stopJoinPeriodic hstop (.inr hperiodic)
  · cases hs

theorem processMessage_moves {msg : Msg τ} (hthread : s.thread = .handling msg) :
    Moves s .handle (s.processMessage msg) := by
  unfold processMessage
  split
  · exact .handle hthread nofun
  · exact .handle hthread nofun
  · exact .handle hthread nofun

theorem step_moves {e : LifecycleEvent τ} (hs : step rep s e = some s') : Moves s e s' := by
  unfold step at hs
  split_ifs at hs
  unfold liveStep at hs
  cases e with
  | start =>
      simp only at hs
      split at hs
      · rename_i hguard
        split at hs
        · rename_i hrun
          obtain rfl := Option.some.inj hs
          exact .startKnown hguard.2 hrun
        · rename_i hrun
          obtain rfl := Option.some.inj hs
          exact .start hguard.1 hguard.2 (Bool.not_eq_true _ ▸ hrun)
      · cases hs
  | stop =>
      simp only at hs
      split_ifs at hs with hguard hrun
      · obtain rfl := Option.some.inj hs
        exact .stop hguard.1 hguard.2 hrun
      · obtain rfl := Option.some.inj hs
        exact .stopKnown hguard.2 (Bool.not_eq_true _ ▸ hrun)
  | stopAssign =>
      simp only at hs
      split_ifs at hs with hstop
      obtain rfl := Option.some.inj hs
      exact .stopAssign hstop
  | stopPublish =>
      simp only at hs
      split_ifs at hs with hstop howners
      · obtain rfl := Option.some.inj hs
        exact .stopThrow hstop howners
      · obtain rfl := Option.some.inj hs
        exact .stopPublish hstop howners
  | stopNotify =>
      simp only at hs
      split_ifs at hs with hstop
      obtain rfl := Option.some.inj hs
      exact .stopNotify hstop
  | stopJoin =>
      simp only at hs
      split_ifs at hs with hstop
      exact joinQueue_moves hstop hs
  | stopJoinPeriodic =>
      simp only at hs
      split_ifs at hs with hstop
      exact joinPeriodic_moves hstop hs
  | deliver msg =>
      simp only at hs
      split_ifs at hs with howners
      split at hs
      · rename_i queue hqueue
        obtain rfl := Option.some.inj hs
        exact .deliver howners (MessageQueue.enqueue_shutdown hqueue)
      · cases hs
  | test =>
      simp only at hs
      split at hs
      · rename_i hthread
        obtain rfl := Option.some.inj hs
        exact .test hthread
      · cases hs
  | dequeue =>
      simp only at hs
      split_ifs at hs with hthread
      split at hs
      · rename_i msg queue hqueue
        obtain rfl := Option.some.inj hs
        exact .dequeue hthread (MessageQueue.dequeue_shutdown hqueue) nofun
      · rename_i queue hqueue
        obtain rfl := Option.some.inj hs
        exact .dequeue hthread (MessageQueue.dequeue_shutdown hqueue) nofun
      · cases hs
      · cases hs
  | handle =>
      simp only at hs
      split at hs
      · rename_i msg hthread
        obtain rfl := Option.some.inj hs
        exact processMessage_moves hthread
      · cases hs
  | publish =>
      simp only at hs
      split_ifs at hs with hthread howners
      · obtain rfl := Option.some.inj hs
        exact .throw hthread howners
      · obtain rfl := Option.some.inj hs
        exact .publish hthread howners
  | release =>
      simp only at hs
      split_ifs at hs with hthread
      obtain rfl := Option.some.inj hs
      exact .release hthread
  | periodicTest =>
      simp only at hs
      split at hs
      · rename_i hperiodic
        obtain rfl := Option.some.inj hs
        exact .periodicTest hperiodic
      · cases hs
  | periodicProcess =>
      simp only at hs
      split_ifs at hs with hperiodic
      obtain rfl := Option.some.inj hs
      exact .periodicProcess hperiodic
  | acquire =>
      simp only at hs
      split_ifs at hs with howners
      obtain rfl := Option.some.inj hs
      exact .acquire howners
  | drop =>
      simp only at hs
      split_ifs at hs with hheld
      obtain rfl := Option.some.inj hs
      exact .drop hheld
  | destructor =>
      simp only at hs
      split_ifs at hs with hguard hrun hthreads
      · obtain rfl := Option.some.inj hs
        exact .destructorStop hguard.1 hguard.2 hrun
      · obtain rfl := Option.some.inj hs
        exact .destroy hguard.1 (Bool.not_eq_true _ ▸ hrun) hthreads.1 hthreads.2
      · obtain rfl := Option.some.inj hs
        exact .notJoined (Bool.not_eq_true _ ▸ hrun) hguard.2 hthreads

/-! ### Stopping and joining -/

/-- A task that is not running and not being stopped has no threads, and the owners in use are among
the owners. -/
structure Tended (s : LifecycleSystem τ) : Prop where
  stopping : s.stopper ≠ .idle → s.running = false
  joined : s.running = false → s.stopper = .idle → s.thread = .absent ∧ s.periodic = .absent
  joinedQueue : s.stopper = .joinedQueue → s.thread = .absent
  counted : s.fate = .alive → s.held ≤ s.owners

theorem created_tended (queue : MessageQueue (Msg τ)) (interval : Bool) :
    Tended (created queue interval) where
  stopping h := absurd rfl h
  joined _ _ := ⟨rfl, rfl⟩
  joinedQueue := nofun
  counted _ := Nat.zero_le 1

theorem held_congr (hstop : s'.stopper = .idle ↔ s.stopper = .idle)
    (hthread : s'.thread = .owning ↔ s.thread = .owning) : s'.held = s.held := by
  unfold held
  simp only [hstop, hthread]

theorem Tended.of_thread (h : Tended s) (hrun : s'.running = s.running)
    (hstop : s'.stopper = s.stopper) (hthread : s'.thread = s.thread ∨ s.thread ≠ .absent)
    (hperiodic : s'.periodic = s.periodic ∨ s.periodic ≠ .absent)
    (hcounted : s'.fate = .alive → s'.held ≤ s'.owners) : Tended s' where
  stopping hbusy := by
    rw [hrun]
    rw [hstop] at hbusy
    exact h.stopping hbusy
  joined hrun' hidle := by
    rw [hrun] at hrun'
    rw [hstop] at hidle
    obtain ⟨habsent, hnone⟩ := h.joined hrun' hidle
    rw [hthread.resolve_right (fun hne => hne habsent),
      hperiodic.resolve_right (fun hne => hne hnone)]
    exact ⟨habsent, hnone⟩
  joinedQueue hjoined := by
    rw [hstop] at hjoined
    have habsent := h.joinedQueue hjoined
    rw [hthread.resolve_right (fun hne => hne habsent)]
    exact habsent
  counted := hcounted

theorem Tended.counted_of (h : Tended s) (hheld : s'.held = s.held) (howners : s'.owners = s.owners)
    (hfate : s'.fate = s.fate) : s'.fate = .alive → s'.held ≤ s'.owners := by
  intro halive
  rw [hheld, howners]
  exact h.counted (hfate ▸ halive)

theorem Tended.goto (h : Tended s) {queue : MessageQueue (Msg τ)} {state : TaskState} {pc : RunPc τ}
    (hexists : s.thread ≠ .absent) (hne : s.thread ≠ .owning) (hpc : pc ≠ .owning) :
    Tended { s with queue := queue, currentState := state, thread := pc } := by
  refine h.of_thread rfl rfl (.inr hexists) (.inl rfl) ?_
  exact h.counted_of (held_congr Iff.rfl (by simp [hne, hpc])) rfl rfl

theorem Tended.stopping_step (h : Tended s) {queue : MessageQueue (Msg τ)} {state : TaskState}
    {pc : StopPc} (hbusy : s.stopper ≠ .idle) (hpc : pc ≠ .idle) (hnot : pc ≠ .joinedQueue) :
    Tended { s with queue := queue, currentState := state, stopper := pc } where
  stopping _ := h.stopping hbusy
  joined _ hidle := absurd hidle hpc
  joinedQueue hjoined := absurd hjoined hnot
  counted := h.counted_of (held_congr (by simp [hbusy, hpc]) Iff.rfl) rfl rfl

omit [DecidableEq τ] in
theorem alive_of_dropOwner (h : s.dropOwner.fate = .alive) : s.fate = .alive := by
  unfold dropOwner at h
  simp only at h
  split_ifs at h
  exact h

theorem moves_tended {e : LifecycleEvent τ} (h : Tended s) (hm : Moves s e s') : Tended s' := by
  cases hm with
  | startKnown => exact h
  | stopKnown => exact h
  | start hstop hheld hrun =>
      obtain ⟨habsent, -⟩ := h.joined hrun hstop
      refine ⟨fun hbusy => absurd hstop hbusy, nofun, fun hjoined => ?_, ?_⟩
      · rw [hstop] at hjoined
        cases hjoined
      · have hne : s.thread ≠ .owning := by rw [habsent]; nofun
        exact h.counted_of (held_congr Iff.rfl (by simp [hne])) rfl rfl
  | stop hstop hheld hrun =>
      refine ⟨fun _ => rfl, fun _ => nofun, nofun, fun _ => ?_⟩
      unfold held at hheld ⊢
      simp only [hstop, if_true] at hheld
      simp only [reduceCtorEq, if_false]
      omega
  | stopAssign hstop =>
      exact h.stopping_step (by rw [hstop]; nofun) nofun nofun
  | stopThrow hstop howners =>
      exact h.of_thread rfl rfl (.inl rfl) (.inl rfl) nofun
  | stopPublish hstop howners =>
      exact h.stopping_step (by rw [hstop]; nofun) nofun nofun
  | stopNotify hstop =>
      exact h.stopping_step (by rw [hstop]; nofun) nofun nofun
  | stopJoin hstop hgone =>
      have hbusy : s.stopper ≠ .idle := by rw [hstop]; nofun
      have hne : s.thread ≠ .owning := by
        rcases hgone with hgone | hgone
        · rw [hgone]; nofun
        · rw [hgone]; nofun
      refine ⟨fun _ => h.stopping hbusy, fun _ => nofun, fun _ => rfl, ?_⟩
      exact h.counted_of (held_congr (by simp [hbusy]) (by simp [hne])) rfl rfl
  | stopJoinPeriodic hstop hgone =>
      have habsent := h.joinedQueue hstop
      refine ⟨nofun, fun _ _ => ⟨habsent, rfl⟩, nofun, fun _ => ?_⟩
      unfold held
      simp [habsent]
  | deliver howners hqueue =>
      exact h.of_thread rfl rfl (.inl rfl) (.inl rfl) h.counted
  | test hpc =>
      refine h.goto (by rw [hpc]; nofun) (by rw [hpc]; nofun) ?_
      split_ifs
      · nofun
      · nofun
  | dequeue hpc hqueue hnext =>
      exact h.goto (by rw [hpc]; nofun) (by rw [hpc]; nofun) hnext
  | handle hpc hnext =>
      exact h.goto (by rw [hpc]; nofun) (by rw [hpc]; nofun) hnext
  | throw hpc howners => exact h.of_thread rfl rfl (.inl rfl) (.inl rfl) nofun
  | publish hpc howners =>
      refine h.of_thread rfl rfl (.inr (by rw [hpc]; nofun)) (.inl rfl) ?_
      intro halive
      have hcounted := h.counted halive
      unfold held at hcounted ⊢
      simp only [hpc, reduceCtorEq, if_false] at hcounted
      simp only [if_true]
      omega
  | release hpc =>
      refine h.of_thread rfl rfl (.inr (by rw [hpc]; nofun)) (.inl rfl) ?_
      intro halive
      have hcounted := h.counted (alive_of_dropOwner halive)
      unfold held at hcounted ⊢
      simp only [hpc, if_true] at hcounted
      simp only [dropOwner, reduceCtorEq, if_false]
      omega
  | periodicTest hpc =>
      exact h.of_thread rfl rfl (.inl rfl) (.inr (by rw [hpc]; nofun)) h.counted
  | periodicProcess hpc =>
      exact h.of_thread rfl rfl (.inl rfl) (.inr (by rw [hpc]; nofun)) h.counted
  | acquire howners =>
      refine h.of_thread rfl rfl (.inl rfl) (.inl rfl) (fun halive => ?_)
      exact Nat.le_succ_of_le (h.counted halive)
  | drop hheld =>
      refine h.of_thread rfl rfl (.inl rfl) (.inl rfl) (fun _ => ?_)
      exact Nat.le_sub_one_of_lt hheld
  | destructorStop hfate hstop hrun =>
      refine ⟨fun _ => rfl, fun _ => nofun, nofun, fun halive => ?_⟩
      have halive' : s.fate = .alive := halive
      rw [hfate] at halive'
      cases halive'
  | destroy => exact h.of_thread rfl rfl (.inl rfl) (.inl rfl) nofun
  | notJoined => exact h.of_thread rfl rfl (.inl rfl) (.inl rfl) nofun

/-! ### The destructor -/

omit [DecidableEq τ] in
theorem owners_of_dropOwner (halive : s.fate = .alive) (h : s.dropOwner.fate = .destroying) :
    s.owners - 1 = 0 := by
  unfold dropOwner at h
  simp only at h
  split_ifs at h with hlast
  · exact hlast
  · rw [halive] at h
    cases h

theorem moves_last {e : LifecycleEvent τ} (h : Tended s) (hm : Moves s e s')
    (halive : s.fate = .alive) (hlast : s'.fate = .destroying) :
    s'.stopper = .idle ∧ s'.owners = 0 ∧ s'.running = s.running := by
  have hsame : s.fate ≠ .destroying := by rw [halive]; nofun
  cases hm with
  | release hpc =>
      have howners : s.owners - 1 = 0 :=
        owners_of_dropOwner (s := { s with thread := .testing }) halive hlast
      have hcounted := h.counted halive
      unfold held at hcounted
      simp only [hpc, if_true] at hcounted
      refine ⟨?_, howners, rfl⟩
      by_contra hbusy
      have hbusy' : s.stopper ≠ .idle := hbusy
      rw [if_neg hbusy'] at hcounted
      omega
  | drop hheld =>
      have howners := owners_of_dropOwner halive hlast
      unfold held at hheld
      refine ⟨?_, howners, rfl⟩
      by_contra hbusy
      have hbusy' : s.stopper ≠ .idle := hbusy
      rw [if_neg hbusy'] at hheld
      omega
  | stopThrow => cases hlast
  | throw => cases hlast
  | destructorStop hfate => exact absurd hfate hsame
  | destroy => cases hlast
  | notJoined => cases hlast
  | _ => exact absurd hlast hsame

/-- The destructor of a task that is not running: nothing is left but its end. -/
structure Ending (s : LifecycleSystem τ) : Prop where
  fate : s.fate = .destroying ∨ s.fate = .destroyed
  running : s.running = false
  stopper : s.stopper = .idle
  thread : s.thread = .absent
  periodic : s.periodic = .absent
  owners : s.owners = 0

theorem moves_ending {e : LifecycleEvent τ} (h : Ending s) (hm : Moves s e s') : Ending s' := by
  have hheld : ¬ s.held < s.owners := by
    rw [h.owners]
    exact Nat.not_lt_zero _
  cases hm with
  | startKnown hno => exact absurd hno hheld
  | start _ hno => exact absurd hno hheld
  | stopKnown hno => exact absurd hno hheld
  | stop _ hno => exact absurd hno hheld
  | stopAssign hno => rw [h.stopper] at hno; cases hno
  | stopThrow hno => rw [h.stopper] at hno; cases hno
  | stopPublish hno => rw [h.stopper] at hno; cases hno
  | stopNotify hno => rw [h.stopper] at hno; cases hno
  | stopJoin hno => rw [h.stopper] at hno; cases hno
  | stopJoinPeriodic hno => rw [h.stopper] at hno; cases hno
  | deliver hno => rw [h.owners] at hno; cases hno
  | test hno => rw [h.thread] at hno; cases hno
  | dequeue hno => rw [h.thread] at hno; cases hno
  | handle hno => rw [h.thread] at hno; cases hno
  | throw hno => rw [h.thread] at hno; cases hno
  | publish hno => rw [h.thread] at hno; cases hno
  | release hno => rw [h.thread] at hno; cases hno
  | periodicTest hno => rw [h.periodic] at hno; cases hno
  | periodicProcess hno => rw [h.periodic] at hno; cases hno
  | acquire hno => rw [h.owners] at hno; cases hno
  | drop hno => exact absurd hno hheld
  | destructorStop _ _ hno => rw [h.running] at hno; cases hno
  | destroy => exact { h with fate := .inr rfl }
  | notJoined _ _ hno => exact absurd ⟨h.thread, h.periodic⟩ hno

theorem Ending.completes (h : Ending s) (hfate : s.fate = .destroying) : Completes rep s := by
  constructor
  · intro s' hreach
    have hending : Ending s' := hreach.invariant (fun _ _ _ h hs => moves_ending h (step_moves hs)) h
    rcases hending.fate with hfate | hfate
    · rw [hfate]
      exact ⟨nofun, nofun⟩
    · rw [hfate]
      exact ⟨nofun, nofun⟩
  · refine ⟨{ s with fate := .destroyed }, .single (e := .destructor) ?_, rfl, h.thread, h.periodic⟩
    unfold step liveStep
    rw [hfate]
    simp [Fate.over, h.stopper, h.running, h.thread, h.periodic]

/-- The destructor of a running task throws. -/
theorem not_completes (hfate : s.fate = .destroying) (hstop : s.stopper = .idle)
    (howners : s.owners = 0) (hrun : s.running = true) : ¬ Completes rep s := by
  intro h
  have hthrows : run (step rep) s [.destructor, .stopAssign, .stopPublish] =
      some { s with
        running := false, currentState := .stopped, stopper := .assigned, fate := .badWeakPtr } := by
    simp [run, step, liveStep, Fate.over, hfate, hstop, howners, hrun]
  exact (h.quiet _ ⟨_, hthrows⟩).1 rfl

/-- **Destroying a task.**  In every run, the destructor that begins when the last owner goes completes
exactly when the task is not running then: it has never been started, or a `stop` has returned since. -/
theorem destructor_completes_iff {queue : MessageQueue (Msg τ)} {interval : Bool}
    {es : List (LifecycleEvent τ)} {e : LifecycleEvent τ}
    (hrun : run (step rep) (created queue interval) es = some s) (hs : step rep s e = some s')
    (halive : s.fate = .alive) (hlast : s'.fate = .destroying) :
    Completes rep s' ↔ s.running = false := by
  have hstep : ∀ (s : LifecycleSystem τ) e s', Tended s → step rep s e = some s' → Tended s' :=
    fun _ _ _ h hs => moves_tended h (step_moves hs)
  have htended : Tended s := run_invariant hstep (created_tended queue interval) hrun
  obtain ⟨hidle, howners, hsame⟩ := moves_last htended (step_moves hs) halive hlast
  constructor
  · intro hcompletes
    rw [← Bool.not_eq_true]
    intro hrunning
    rw [← hsame] at hrunning
    exact not_completes hlast hidle howners hrunning hcompletes
  · intro hrunning
    rw [← hsame] at hrunning
    obtain ⟨hthread, hperiodic⟩ := (hstep s e s' htended hs).joined hrunning hidle
    exact Ending.completes ⟨.inl hlast, hrunning, hidle, hthread, hperiodic, howners⟩ hlast

/-- A queue of four messages, as the constructor makes it. -/
def fourMessages : Except Fault (MessageQueue (Msg ℕ)) :=
  MessageQueue.create 16 4 4096 (fun _ => 0) (fun _ => ⟨⟨none, .stateMsg ⟨0⟩⟩, 0⟩)

/-- The task is started and stopped; both threads are joined. -/
def startedAndStopped : List (LifecycleEvent ℕ) :=
  [.start, .test, .periodicTest, .stop, .stopAssign, .stopPublish, .stopNotify, .dequeue, .test,
    .periodicProcess, .periodicTest, .stopJoin, .stopJoinPeriodic]

theorem destructor_completes_after_stop : ∃ q s s',
    fourMessages = .ok q ∧
    run (step (fun _ _ => 255)) (created q true) startedAndStopped = some s ∧
    step (fun _ _ => 255) s .drop = some s' ∧ Completes (fun _ _ => 255) s' := by
  have heval : fourMessages.toOption.bind (fun q =>
      (run (step (fun _ _ => 255)) (created q true) startedAndStopped).bind (fun s =>
        (step (fun _ _ => 255) s .drop).map (fun s' => (s.running, s.fate, s'.fate)))) =
      some (false, .alive, .destroying) := by decide +kernel
  obtain ⟨q, hq, heval⟩ := Option.bind_eq_some_iff.mp heval
  obtain ⟨s, hrun, heval⟩ := Option.bind_eq_some_iff.mp heval
  obtain ⟨s', hs, heval⟩ := Option.map_eq_some_iff.mp heval
  obtain ⟨hrunning, hfates⟩ := Prod.mk.inj heval
  obtain ⟨halive, hlast⟩ := Prod.mk.inj hfates
  exact ⟨q, s, s', eq_ok_of_toOption hq, hrun, hs,
    (destructor_completes_iff hrun hs halive hlast).mpr hrunning⟩

/-- The only owner of a running task is dropped. -/
theorem destructor_throws_while_running : ∃ q s s' s'',
    fourMessages = .ok q ∧
    run (step (fun _ _ => 255)) (created q false) [.start] = some s ∧
    step (fun _ _ => 255) s .drop = some s' ∧ s'.fate = .destroying ∧
    run (step (fun _ _ => 255)) s' [.destructor, .stopAssign, .stopPublish] = some s'' ∧
    s''.fate = .badWeakPtr ∧ ¬ Completes (fun _ _ => 255) s' := by
  have heval : fourMessages.toOption.bind (fun q =>
      (run (step (fun _ _ => 255)) (created q false) [.start]).bind (fun s =>
        (step (fun _ _ => 255) s .drop).bind (fun s' =>
          (run (step (fun _ _ => 255)) s' [.destructor, .stopAssign, .stopPublish]).map (fun s'' =>
            (s'.fate, s''.fate))))) = some (.destroying, .badWeakPtr) := by decide +kernel
  obtain ⟨q, hq, heval⟩ := Option.bind_eq_some_iff.mp heval
  obtain ⟨s, hrun, heval⟩ := Option.bind_eq_some_iff.mp heval
  obtain ⟨s', hs, heval⟩ := Option.bind_eq_some_iff.mp heval
  obtain ⟨s'', hrun', heval⟩ := Option.map_eq_some_iff.mp heval
  obtain ⟨hlast, hthrown⟩ := Prod.mk.inj heval
  refine ⟨q, s, s', s'', eq_ok_of_toOption hq, hrun, hs, hlast, hrun', hthrown, ?_⟩
  intro hcompletes
  exact (hcompletes.quiet s'' ⟨_, hrun'⟩).1 hthrown

/-! ### Waiting for a message -/

/-- No `stop` has taken effect. -/
structure Unstopped (s : LifecycleSystem τ) : Prop where
  shutdown : s.queue.shutdown = false
  stopper : s.stopper = .idle

/-- A `stop` has taken effect: it has shut the queue down or is on its way there. -/
def Stopped (s : LifecycleSystem τ) : Prop :=
  s.queue.shutdown = true ∨ s.stopper = .cleared ∨ s.stopper = .assigned ∨ s.stopper = .published

theorem moves_unstopped {e : LifecycleEvent τ} (h : Unstopped s) (hc : StopsIdle s e)
    (hm : Moves s e s') : Unstopped s' := by
  have hstopper := h.stopper
  cases hm with
  | stop _ _ hrun =>
      rw [show s.running = false from hc] at hrun
      cases hrun
  | stopAssign hno => rw [hstopper] at hno; cases hno
  | stopPublish hno => rw [hstopper] at hno; cases hno
  | stopNotify hno => rw [hstopper] at hno; cases hno
  | stopJoin hno => rw [hstopper] at hno; cases hno
  | stopJoinPeriodic hno => rw [hstopper] at hno; cases hno
  | deliver _ hqueue => exact ⟨hqueue.trans h.shutdown, hstopper⟩
  | dequeue _ hqueue => exact ⟨hqueue.trans h.shutdown, hstopper⟩
  | destructorStop _ _ hrun =>
      rw [show s.running = false from hc] at hrun
      cases hrun
  | _ => exact ⟨h.shutdown, hstopper⟩

/-- A `stop` that finds the task running. -/
theorem stopped_of_not {e : LifecycleEvent τ} (hc : ¬ StopsIdle s e) (hm : Moves s e s') :
    Stopped s' := by
  cases hm with
  | stopKnown _ hrun => exact absurd hrun hc
  | stop => exact .inr (.inl rfl)
  | destructorStop => exact .inr (.inl rfl)
  | destroy _ hrun => exact absurd hrun hc
  | notJoined hrun => exact absurd hrun hc
  | _ => exact absurd trivial hc

/-- `start` does not reset the flag. -/
theorem moves_stopped {e : LifecycleEvent τ} (h : Stopped s) (hm : Moves s e s') : Stopped s' := by
  unfold Stopped at h
  cases hm with
  | stop => exact .inr (.inl rfl)
  | stopAssign => exact .inr (.inr (.inl rfl))
  | stopPublish => exact .inr (.inr (.inr rfl))
  | stopNotify => exact .inl rfl
  | stopJoin hstop =>
      rw [hstop] at h
      exact .inl (h.resolve_right nofun)
  | stopJoinPeriodic hstop =>
      rw [hstop] at h
      exact .inl (h.resolve_right nofun)
  | deliver _ hqueue =>
      rw [← hqueue] at h
      exact h
  | dequeue _ hqueue =>
      rw [← hqueue] at h
      exact h
  | destructorStop => exact .inr (.inl rfl)
  | _ => exact h

/-- **Idling.**  In every reachable state, running or not, in which no `stop` is in progress and the queue
is empty, `dequeue` waits exactly when every `stop` so far found the task not running. -/
theorem dequeue_blocks_iff {msgSize maxMsgs base : ℕ} {m : Bytes.Mem} {nodes : ℕ → Node (Msg τ)}
    {queue : MessageQueue (Msg τ)} {interval : Bool} {es : List (LifecycleEvent τ)}
    (hqueue : MessageQueue.create msgSize maxMsgs base m nodes = .ok queue)
    (hrun : run (step rep) (created queue interval) es = some s) (hidle : s.stopper = .idle)
    (hempty : s.queue.queue.size = 0) :
    s.queue.dequeue Msg.getPriority = .ok none ↔
      Along (step rep) StopsIdle (created queue interval) es := by
  rw [MessageQueue.dequeue_blocks_of hempty]
  constructor
  · intro hshutdown
    by_contra hnot
    obtain ⟨es₁, e, es₂, s₁, s₂, -, -, hc, he, hrun₂⟩ := exists_of_not_along hrun hnot
    have hstopped : Stopped s := run_invariant (fun _ _ _ h hs => moves_stopped h (step_moves hs))
      (stopped_of_not hc (step_moves he)) hrun₂
    unfold Stopped at hstopped
    rw [hshutdown, hidle] at hstopped
    simp at hstopped
  · intro halong
    have hstep : ∀ (s : LifecycleSystem τ) e s', Unstopped s → StopsIdle s e →
        step rep s e = some s' → Unstopped s' := fun _ _ _ h hc hs => moves_unstopped h hc (step_moves hs)
    have hcreated : Unstopped (created queue interval) :=
      ⟨MessageQueue.create_shutdown hqueue, rfl⟩
    exact (run_invariant_along hstep hcreated halong hrun).shutdown

/-- A task that has handled its only message, with a `stop` before it was started. -/
theorem dequeue_blocks_first_time : ∃ q s,
    fourMessages = .ok q ∧
    run (step (fun _ _ => 255)) (created q false)
      [.stop, .start, .deliver ⟨none, .heartbeatAckMsg ⟨1, 0, 0⟩⟩, .test, .dequeue, .handle, .test] =
      some s ∧
    s.running = true ∧ s.queue.dequeue Msg.getPriority = .ok none := by
  have heval : fourMessages.toOption.bind (fun q =>
      (run (step (fun _ _ => 255)) (created q false) [.stop, .start,
        .deliver ⟨none, .heartbeatAckMsg ⟨1, 0, 0⟩⟩, .test, .dequeue, .handle, .test]).map (fun s =>
          (s.running, s.stopper, s.queue.queue.size))) = some (true, .idle, 0) := by decide +kernel
  obtain ⟨q, hq, heval⟩ := Option.bind_eq_some_iff.mp heval
  obtain ⟨s, hrun, heval⟩ := Option.map_eq_some_iff.mp heval
  obtain ⟨hrunning, hrest⟩ := Prod.mk.inj heval
  obtain ⟨hidle, hempty⟩ := Prod.mk.inj hrest
  have hq' := eq_ok_of_toOption hq
  refine ⟨q, s, hq', hrun, hrunning, (dequeue_blocks_iff hq' hrun hidle hempty).mpr ?_⟩
  exact ⟨rfl, fun _ _ => ⟨trivial, fun _ _ => ⟨trivial, fun _ _ => ⟨trivial, fun _ _ =>
    ⟨trivial, fun _ _ => ⟨trivial, fun _ _ => ⟨trivial, fun _ _ => trivial⟩⟩⟩⟩⟩⟩⟩

/-- The task is started again after a `stop`: `dequeue` returns at once, without a message. -/
theorem dequeue_spins_after_restart : ∃ q s q',
    fourMessages = .ok q ∧
    run (step (fun _ _ => 255)) (created q true) (startedAndStopped ++ [.start, .test]) = some s ∧
    s.running = true ∧ s.stopper = .idle ∧ s.queue.queue.size = 0 ∧
    s.queue.dequeue Msg.getPriority = .ok (some (none, q')) := by
  have heval : fourMessages.toOption.bind (fun q =>
      (run (step (fun _ _ => 255)) (created q true) (startedAndStopped ++ [.start, .test])).map
        (fun s => (s.running, s.stopper, s.queue.queue.size, s.queue.shutdown))) =
      some (true, .idle, 0, true) := by decide +kernel
  obtain ⟨q, hq, heval⟩ := Option.bind_eq_some_iff.mp heval
  obtain ⟨s, hrun, heval⟩ := Option.map_eq_some_iff.mp heval
  obtain ⟨hrunning, hrest⟩ := Prod.mk.inj heval
  obtain ⟨hidle, hrest⟩ := Prod.mk.inj hrest
  obtain ⟨hempty, hdown⟩ := Prod.mk.inj hrest
  refine ⟨q, s, { s.queue with sequence := 0 }, eq_ok_of_toOption hq, hrun, hrunning, hidle, hempty, ?_⟩
  exact MessageQueue.dequeue_null_of hempty hdown

end moves

end LifecycleSystem

end Protocore
