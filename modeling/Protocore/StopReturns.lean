import Protocore.Lifecycle

/-! # `stop` returns

`Task::stop` clears `running`, publishes, shuts the queue down and joins the two threads.  Whatever is
in the queue, and whatever is delivered meanwhile, the queue thread finds `running` cleared after the
message in its hands, and the flag of the queue wakes it up if it has none.

`stop_returns`: in every run in which `stop` has been called through an owner, until it returns the
threads of the task and `stop` take at most twelve steps, at most one message is handled and at most one
period processed; one of these steps is always possible, and when `stop` has returned there are no
threads. -/

namespace Protocore

namespace QueueSystem

variable {μ : Type} {maxMsgs : ℕ} {q : MessageQueue μ}

/-- `dequeue` on a queue with no thread inside: it waits, or it returns and leaves such a queue. -/
theorem Settled.dequeue (h : Settled maxMsgs q) (prio : μ → ℕ) :
    (q.shutdown = false ∧ q.dequeue prio = .ok none) ∨
      ∃ result q', q.dequeue prio = .ok (some (result, q')) ∧ Settled maxMsgs q' := by
  obtain ⟨hcount, free, hv⟩ := h
  unfold MessageQueue.dequeue
  rcases q.dequeuePop_cases prio with ⟨-, hup, hd⟩ | ⟨-, -, hd⟩ | ⟨-, p, q₁, hd, hpops, -⟩
  · rw [hd]
    exact .inl ⟨hup, rfl⟩
  · rw [hd]
    exact .inr ⟨none, _, rfl, hcount, free, hv⟩
  · rw [← hpops.pool] at hv hcount
    have hp : p ∈ q.queue.toList := hpops.perm.mem_iff.mpr List.mem_cons_self
    obtain ⟨pool, hfree, hv', hcount'⟩ := freeNode_spec hv hp
    refine .inr ⟨some (q.nodes p).message, { q₁ with pool := pool }, ?_, hcount'.trans hcount, _,
      hv'.of_perm ?_⟩
    · rw [hd]
      simp only [Except.bind, MessageQueue.finish, hfree, Except.map]
    · exact (List.perm_cons_erase hp).symm.trans hpops.perm |>.cons_inv

theorem create_settled {msgSize maxMsgs base : ℕ} {m : Bytes.Mem} {nodes : ℕ → Node μ}
    (hs : sizeofPtr < msgSize) (hc : 0 < maxMsgs) (hbase : 0 < base)
    (hend : base + msgSize * maxMsgs < addressSpace)
    (hq : MessageQueue.create msgSize maxMsgs base m nodes = .ok q) : Settled maxMsgs q := by
  obtain ⟨q', hq', -, -, -, hb⟩ := create_blocks m nodes hs hc hbase hend
  obtain rfl := Except.ok.inj (hq.symm.trans hq')
  exact hb.settled rfl rfl

end QueueSystem

namespace LifecycleSystem

variable {τ : Type} [DecidableEq τ] {rep : Node (Msg τ) → ℕ → UInt8} {s s' : LifecycleSystem τ}
  {maxMsgs : ℕ}

/-- A step of `stop`, of the queue thread or of the periodic thread. -/
@[simp] def ownStep : LifecycleEvent τ → Bool
  | .stopAssign => true
  | .stopPublish => true
  | .stopNotify => true
  | .stopJoin => true
  | .stopJoinPeriodic => true
  | .test => true
  | .dequeue => true
  | .handle => true
  | .publish => true
  | .release => true
  | .periodicTest => true
  | .periodicProcess => true
  | _ => false

@[simp] def isHandle : LifecycleEvent τ → Bool
  | .handle => true
  | _ => false

@[simp] def isProcess : LifecycleEvent τ → Bool
  | .periodicProcess => true
  | _ => false

/-- The steps left to `stop`. -/
@[simp] def stopLeft : StopPc → ℕ
  | .idle => 0
  | .joinedQueue => 1
  | .notified => 2
  | .published => 3
  | .assigned => 4
  | .cleared => 5

/-- The steps left to the queue thread once `running` is cleared. -/
@[simp] def threadLeft : RunPc τ → ℕ
  | .absent => 0
  | .exited => 0
  | .testing => 1
  | .owning => 2
  | .publishing => 3
  | .handling _ => 4
  | .dequeuing => 5

/-- The messages that the queue thread still handles once `running` is cleared. -/
@[simp] def messagesLeft : RunPc τ → ℕ
  | .handling _ => 1
  | .dequeuing => 1
  | _ => 0

/-- The steps left to the periodic thread once `running` is cleared. -/
@[simp] def periodicLeft : IntervalPc → ℕ
  | .absent => 0
  | .exited => 0
  | .testing => 1
  | .processing => 2

@[simp] def periodsLeft : IntervalPc → ℕ
  | .processing => 1
  | _ => 0

/-- The steps left until `stop` returns. -/
def left (s : LifecycleSystem τ) : ℕ := stopLeft s.stopper + threadLeft s.thread + periodicLeft s.periodic

/-- The task during a `stop` that was called through an owner. -/
structure Stopping (maxMsgs : ℕ) (s : LifecycleSystem τ) : Prop where
  settled : QueueSystem.Settled maxMsgs s.queue
  tended : Tended s
  stopped : Stopped s
  alive : s.fate = .alive
  busy : s.stopper ≠ .idle

/-! ### What a step keeps -/

omit [DecidableEq τ] in
theorem notifyShutdown_settled {maxMsgs : ℕ} {q : MessageQueue (Msg τ)}
    (h : QueueSystem.Settled maxMsgs q) : QueueSystem.Settled maxMsgs q.notifyShutdown := h

theorem step_settled {maxMsgs : ℕ} {e : LifecycleEvent τ} (h : QueueSystem.Settled maxMsgs s.queue)
    (hs : step rep s e = some s') : QueueSystem.Settled maxMsgs s'.queue := by
  have hm := step_moves hs
  unfold step at hs
  split_ifs at hs
  cases e with
  | deliver msg =>
      simp only [liveStep] at hs
      split_ifs at hs
      rcases h.enqueue Msg.getPriority rep msg with ⟨-, he⟩ | ⟨q', he, hsettled, -⟩
      · rw [he] at hs
        cases hs
      · rw [he] at hs
        obtain rfl := Option.some.inj hs
        exact hsettled
  | dequeue =>
      simp only [liveStep] at hs
      split_ifs at hs
      rcases h.dequeue Msg.getPriority with ⟨-, he⟩ | ⟨result, q', he, hsettled⟩
      · rw [he] at hs
        cases hs
      · rw [he] at hs
        cases result with
        | none =>
            obtain rfl := Option.some.inj hs
            exact hsettled
        | some msg =>
            obtain rfl := Option.some.inj hs
            exact hsettled
  | stopNotify =>
      cases hm with
      | stopNotify => exact notifyShutdown_settled h
  | _ =>
      cases hm
      all_goals exact h

theorem moves_busy {e : LifecycleEvent τ} (h : s.stopper ≠ .idle → Stopped s) (hm : Moves s e s') :
    s'.stopper ≠ .idle → Stopped s' := by
  by_cases hidle : s.stopper = .idle
  · intro hbusy
    cases hm with
    | stop => exact .inr (.inl rfl)
    | destructorStop => exact .inr (.inl rfl)
    | stopAssign hno => rw [hidle] at hno; cases hno
    | stopPublish hno => rw [hidle] at hno; cases hno
    | stopNotify hno => rw [hidle] at hno; cases hno
    | stopJoin hno => rw [hidle] at hno; cases hno
    | stopJoinPeriodic hno => rw [hidle] at hno; cases hno
    | _ => exact absurd hidle hbusy
  · intro _
    exact moves_stopped (h hidle) hm

theorem Stopping.running (h : Stopping maxMsgs s) : s.running = false := h.tended.stopping h.busy

theorem Stopping.held_pos (h : Stopping maxMsgs s) : 1 ≤ s.held ∧ s.held ≤ s.owners := by
  refine ⟨?_, h.tended.counted h.alive⟩
  unfold held
  rw [if_neg h.busy]
  omega

/-- Nothing is thrown, and the last owner is not dropped. -/
theorem Stopping.stays_alive {e : LifecycleEvent τ} (h : Stopping maxMsgs s) (hm : Moves s e s') :
    s'.fate = .alive := by
  obtain ⟨hpos, hle⟩ := h.held_pos
  cases hm with
  | stopThrow hstop howners => omega
  | throw hthread howners => omega
  | release hthread =>
      have htwo : s.held = 2 := by
        unfold held
        rw [if_neg h.busy, if_pos hthread]
      unfold dropOwner
      simp only
      rw [if_neg (by omega)]
      exact h.alive
  | drop hheld =>
      unfold dropOwner
      simp only
      rw [if_neg (by omega)]
      exact h.alive
  | destructorStop hfate => rw [h.alive] at hfate; cases hfate
  | destroy hfate => rw [h.alive] at hfate; cases hfate
  | notJoined hrun hstop => exact absurd hstop h.busy
  | _ => exact h.alive

theorem Stopping.step {e : LifecycleEvent τ} (h : Stopping maxMsgs s)
    (hs : LifecycleSystem.step rep s e = some s') (hbusy : s'.stopper ≠ .idle) :
    Stopping maxMsgs s' where
  settled := step_settled h.settled hs
  tended := moves_tended h.tended (step_moves hs)
  stopped := moves_stopped h.stopped (step_moves hs)
  alive := h.stays_alive (step_moves hs)
  busy := hbusy

/-! ### What is left to do -/

/-- The queue thread comes out of `dequeue` with a message, or to its test. -/
theorem dequeue_thread (hs : step rep s .dequeue = some s') :
    s.thread = .dequeuing ∧ ((∃ msg, s'.thread = .handling msg) ∨ s'.thread = .testing) ∧
      s'.stopper = s.stopper ∧ s'.periodic = s.periodic := by
  unfold LifecycleSystem.step at hs
  split_ifs at hs
  simp only [liveStep] at hs
  split_ifs at hs with hthread
  split at hs
  · rename_i msg queue hq
    obtain rfl := Option.some.inj hs
    exact ⟨hthread, .inl ⟨msg, rfl⟩, rfl, rfl⟩
  · obtain rfl := Option.some.inj hs
    exact ⟨hthread, .inr rfl, rfl, rfl⟩
  · cases hs
  · cases hs

theorem handle_thread (hs : step rep s .handle = some s') :
    (∃ msg, s.thread = .handling msg) ∧ (s'.thread = .publishing ∨ s'.thread = .testing) ∧
      s'.stopper = s.stopper ∧ s'.periodic = s.periodic := by
  unfold LifecycleSystem.step at hs
  split_ifs at hs
  simp only [liveStep] at hs
  split at hs
  · rename_i msg hthread
    obtain rfl := Option.some.inj hs
    refine ⟨⟨msg, hthread⟩, ?_⟩
    unfold processMessage
    split
    · exact ⟨.inl rfl, rfl, rfl⟩
    · exact ⟨.inl rfl, rfl, rfl⟩
    · exact ⟨.inr rfl, rfl, rfl⟩
  · cases hs

/-- Own steps bring the return of `stop` nearer, and no other step puts it off. -/
structure Nearer (e : LifecycleEvent τ) (s s' : LifecycleSystem τ) : Prop where
  steps : (ownStep e).toNat + s'.left ≤ s.left
  messages : (isHandle e).toNat + messagesLeft s'.thread ≤ messagesLeft s.thread
  periods : (isProcess e).toNat + periodsLeft s'.periodic ≤ periodsLeft s.periodic

section nearer
variable {e : LifecycleEvent τ}

omit [DecidableEq τ] in
theorem Nearer.of_other (hown : ownStep e = false) (hhandle : isHandle e = false)
    (hprocess : isProcess e = false) (hstop : s'.stopper = s.stopper) (hthread : s'.thread = s.thread)
    (hperiodic : s'.periodic = s.periodic) : Nearer e s s' := by
  refine ⟨?_, ?_, ?_⟩
  · unfold left
    rw [hown, hstop, hthread, hperiodic, Bool.toNat_false, Nat.zero_add]
  · rw [hhandle, hthread, Bool.toNat_false, Nat.zero_add]
  · rw [hprocess, hperiodic, Bool.toNat_false, Nat.zero_add]

omit [DecidableEq τ] in
theorem Nearer.of_stop (hhandle : isHandle e = false) (hprocess : isProcess e = false)
    (hstop : stopLeft s'.stopper + 1 ≤ stopLeft s.stopper)
    (hthread : s'.thread = s.thread ∨ s'.thread = .absent)
    (hperiodic : s'.periodic = s.periodic ∨ s'.periodic = .absent) : Nearer e s s' := by
  have hown : (ownStep e).toNat ≤ 1 := Bool.toNat_le _
  have hthreads : threadLeft s'.thread ≤ threadLeft s.thread ∧
      messagesLeft s'.thread ≤ messagesLeft s.thread := by
    rcases hthread with hthread | hthread
    · rw [hthread]
      exact ⟨Nat.le_refl _, Nat.le_refl _⟩
    · rw [hthread]
      exact ⟨Nat.zero_le _, Nat.zero_le _⟩
  have hperiods : periodicLeft s'.periodic ≤ periodicLeft s.periodic ∧
      periodsLeft s'.periodic ≤ periodsLeft s.periodic := by
    rcases hperiodic with hperiodic | hperiodic
    · rw [hperiodic]
      exact ⟨Nat.le_refl _, Nat.le_refl _⟩
    · rw [hperiodic]
      exact ⟨Nat.zero_le _, Nat.zero_le _⟩
  refine ⟨?_, ?_, ?_⟩
  · unfold left
    omega
  · rw [hhandle, Bool.toNat_false]
    omega
  · rw [hprocess, Bool.toNat_false]
    omega

omit [DecidableEq τ] in
theorem Nearer.of_thread (hprocess : isProcess e = false) (hstop : s'.stopper = s.stopper)
    (hperiodic : s'.periodic = s.periodic) (hthread : threadLeft s'.thread + 1 ≤ threadLeft s.thread)
    (hmessages : (isHandle e).toNat + messagesLeft s'.thread ≤ messagesLeft s.thread) :
    Nearer e s s' := by
  have hown : (ownStep e).toNat ≤ 1 := Bool.toNat_le _
  refine ⟨?_, hmessages, ?_⟩
  · unfold left
    rw [hstop, hperiodic]
    omega
  · rw [hprocess, hperiodic, Bool.toNat_false, Nat.zero_add]

omit [DecidableEq τ] in
theorem Nearer.of_periodic (hhandle : isHandle e = false) (hstop : s'.stopper = s.stopper)
    (hthread : s'.thread = s.thread) (hperiodic : periodicLeft s'.periodic + 1 ≤ periodicLeft s.periodic)
    (hperiods : (isProcess e).toNat + periodsLeft s'.periodic ≤ periodsLeft s.periodic) :
    Nearer e s s' := by
  have hown : (ownStep e).toNat ≤ 1 := Bool.toNat_le _
  refine ⟨?_, ?_, hperiods⟩
  · unfold left
    rw [hstop, hthread]
    omega
  · rw [hhandle, hthread, Bool.toNat_false, Nat.zero_add]

end nearer

theorem Stopping.nearer {e : LifecycleEvent τ} (h : Stopping maxMsgs s)
    (hs : LifecycleSystem.step rep s e = some s') : Nearer e s s' := by
  have hrun := h.running
  have hpos := h.held_pos
  cases e with
  | dequeue =>
      obtain ⟨hthread, hnext, hstop, hperiodic⟩ := dequeue_thread hs
      rcases hnext with ⟨msg, hnext⟩ | hnext
      · exact .of_thread rfl hstop hperiodic (by simp [hthread, hnext])
          (by simp [hthread, hnext])
      · exact .of_thread rfl hstop hperiodic (by simp [hthread, hnext])
          (by simp [hthread, hnext])
  | handle =>
      obtain ⟨⟨msg, hthread⟩, hnext, hstop, hperiodic⟩ := handle_thread hs
      rcases hnext with hnext | hnext
      · exact .of_thread rfl hstop hperiodic (by simp [hthread, hnext])
          (by simp [hthread, hnext])
      · exact .of_thread rfl hstop hperiodic (by simp [hthread, hnext])
          (by simp [hthread, hnext])
  | start =>
      cases step_moves hs with
      | startKnown hheld hrun' => rw [hrun] at hrun'; cases hrun'
      | start hstop => exact absurd hstop h.busy
  | stop =>
      cases step_moves hs with
      | stopKnown => exact .of_other rfl rfl rfl rfl rfl rfl
      | stop hstop => exact absurd hstop h.busy
  | stopAssign =>
      cases step_moves hs with
      | stopAssign hstop => exact .of_stop rfl rfl (by simp [hstop]) (.inl rfl) (.inl rfl)
  | stopPublish =>
      cases step_moves hs with
      | stopThrow hstop howners => omega
      | stopPublish hstop => exact .of_stop rfl rfl (by simp [hstop]) (.inl rfl) (.inl rfl)
  | stopNotify =>
      cases step_moves hs with
      | stopNotify hstop => exact .of_stop rfl rfl (by simp [hstop]) (.inl rfl) (.inl rfl)
  | stopJoin =>
      cases step_moves hs with
      | stopJoin hstop => exact .of_stop rfl rfl (by simp [hstop]) (.inr rfl) (.inl rfl)
  | stopJoinPeriodic =>
      cases step_moves hs with
      | stopJoinPeriodic hstop => exact .of_stop rfl rfl (by simp [hstop]) (.inl rfl) (.inr rfl)
  | test =>
      cases step_moves hs with
      | test hthread =>
          rw [hrun, if_neg Bool.false_ne_true]
          exact .of_thread rfl rfl rfl (by simp [hthread]) (by simp [hthread])
  | publish =>
      cases step_moves hs with
      | throw hthread howners => omega
      | publish hthread =>
          exact .of_thread rfl rfl rfl (by simp [hthread]) (by simp [hthread])
  | release =>
      cases step_moves hs with
      | release hthread =>
          exact .of_thread rfl rfl rfl (by simp [dropOwner, hthread]) (by simp [dropOwner, hthread])
  | periodicTest =>
      cases step_moves hs with
      | periodicTest hperiodic =>
          rw [hrun, if_neg Bool.false_ne_true]
          exact .of_periodic rfl rfl rfl (by simp [hperiodic]) (by simp [hperiodic])
  | periodicProcess =>
      cases step_moves hs with
      | periodicProcess hperiodic =>
          exact .of_periodic rfl rfl rfl (by simp [hperiodic]) (by simp [hperiodic])
  | deliver msg =>
      cases step_moves hs with
      | deliver => exact .of_other rfl rfl rfl rfl rfl rfl
  | acquire =>
      cases step_moves hs with
      | acquire => exact .of_other rfl rfl rfl rfl rfl rfl
  | drop =>
      cases step_moves hs with
      | drop => exact .of_other rfl rfl rfl rfl rfl rfl
  | destructor =>
      cases step_moves hs with
      | destructorStop hfate => rw [h.alive] at hfate; cases hfate
      | destroy hfate => rw [h.alive] at hfate; cases hfate
      | notJoined hrun' hstop => exact absurd hstop h.busy

/-! ### One of the steps is always possible -/

theorem Stopping.step_eq (h : Stopping maxMsgs s) (e : LifecycleEvent τ) :
    LifecycleSystem.step rep s e = s.liveStep rep e := by
  unfold LifecycleSystem.step
  rw [h.alive]
  rfl

theorem Stopping.thread_enabled (h : Stopping maxMsgs s) (hdown : s.queue.shutdown = true)
    (habsent : s.thread ≠ .absent) (hexited : s.thread ≠ .exited) :
    ∃ e s', ownStep e = true ∧ LifecycleSystem.step rep s e = some s' := by
  obtain ⟨hpos, hle⟩ := h.held_pos
  cases hthread : s.thread with
  | absent => exact absurd hthread habsent
  | exited => exact absurd hthread hexited
  | testing =>
      refine ⟨.test, { s with thread := if s.running then .dequeuing else .exited }, rfl, ?_⟩
      rw [h.step_eq]
      simp only [liveStep, hthread, if_true]
  | dequeuing =>
      rcases h.settled.dequeue Msg.getPriority with ⟨hup, -⟩ | ⟨result, q', hq, -⟩
      · rw [hdown] at hup
        cases hup
      · cases result with
        | none =>
            refine ⟨.dequeue, { s with queue := q', thread := .testing }, rfl, ?_⟩
            rw [h.step_eq]
            simp only [liveStep, hthread, if_true, hq]
        | some msg =>
            refine ⟨.dequeue, { s with queue := q', thread := .handling msg }, rfl, ?_⟩
            rw [h.step_eq]
            simp only [liveStep, hthread, if_true, hq]
  | handling msg =>
      refine ⟨.handle, s.processMessage msg, rfl, ?_⟩
      rw [h.step_eq]
      simp only [liveStep, hthread]
  | publishing =>
      refine ⟨.publish, { s with owners := s.owners + 1, thread := .owning }, rfl, ?_⟩
      rw [h.step_eq]
      simp only [liveStep, hthread, if_true]
      rw [if_neg (by omega)]
  | owning =>
      refine ⟨.release, dropOwner { s with thread := .testing }, rfl, ?_⟩
      rw [h.step_eq]
      simp only [liveStep, hthread, if_true]

theorem Stopping.down (h : Stopping maxMsgs s) (hjoin : s.stopper = .notified ∨ s.stopper = .joinedQueue) :
    s.queue.shutdown = true := by
  have hstopped := h.stopped
  unfold Stopped at hstopped
  rcases hjoin with hjoin | hjoin
  · rw [hjoin] at hstopped
    simpa using hstopped
  · rw [hjoin] at hstopped
    simpa using hstopped

theorem Stopping.enabled (h : Stopping maxMsgs s) :
    ∃ e s', ownStep e = true ∧ LifecycleSystem.step rep s e = some s' := by
  obtain ⟨hpos, hle⟩ := h.held_pos
  cases hstop : s.stopper with
  | idle => exact absurd hstop h.busy
  | cleared =>
      refine ⟨.stopAssign, { s with currentState := .stopped, stopper := .assigned }, rfl, ?_⟩
      rw [h.step_eq]
      simp only [liveStep, hstop, if_true]
  | assigned =>
      refine ⟨.stopPublish, { s with stopper := .published }, rfl, ?_⟩
      rw [h.step_eq]
      simp only [liveStep, hstop, if_true]
      rw [if_neg (by omega)]
  | published =>
      refine ⟨.stopNotify, { s with queue := s.queue.notifyShutdown, stopper := .notified }, rfl, ?_⟩
      rw [h.step_eq]
      simp only [liveStep, hstop, if_true]
  | notified =>
      by_cases habsent : s.thread = .absent
      · refine ⟨.stopJoin, { s with stopper := .joinedQueue }, rfl, ?_⟩
        rw [h.step_eq]
        simp only [liveStep, hstop, if_true, joinQueue, habsent]
      · by_cases hexited : s.thread = .exited
        · refine ⟨.stopJoin, { s with thread := .absent, stopper := .joinedQueue }, rfl, ?_⟩
          rw [h.step_eq]
          simp only [liveStep, hstop, if_true, joinQueue, hexited]
        · exact h.thread_enabled (h.down (.inl hstop)) habsent hexited
  | joinedQueue =>
      cases hperiodic : s.periodic with
      | absent =>
          refine ⟨.stopJoinPeriodic, { s with stopper := .idle }, rfl, ?_⟩
          rw [h.step_eq]
          simp only [liveStep, hstop, if_true, joinPeriodic, hperiodic]
      | exited =>
          refine ⟨.stopJoinPeriodic, { s with periodic := .absent, stopper := .idle }, rfl, ?_⟩
          rw [h.step_eq]
          simp only [liveStep, hstop, if_true, joinPeriodic, hperiodic]
      | testing =>
          refine ⟨.periodicTest, { s with periodic := if s.running then .processing else .exited },
            rfl, ?_⟩
          rw [h.step_eq]
          simp only [liveStep, hperiodic, if_true]
      | processing =>
          refine ⟨.periodicProcess, { s with periodic := .testing }, rfl, ?_⟩
          rw [h.step_eq]
          simp only [liveStep, hperiodic, if_true]

/-! ### Whole runs -/

/-- The task keeps stopping until `stop` returns, and then has no threads. -/
theorem Stopping.run : ∀ {es : List (LifecycleEvent τ)} {s s' : LifecycleSystem τ},
    Stopping maxMsgs s → Along (LifecycleSystem.step rep) (fun s _ => s.stopper ≠ .idle) s es →
    Protocore.run (LifecycleSystem.step rep) s es = some s' →
      Along (LifecycleSystem.step rep) (fun s _ => Stopping maxMsgs s) s es ∧ s'.fate = .alive ∧
        (s'.stopper = .idle → s'.running = false ∧ s'.thread = .absent ∧ s'.periodic = .absent)
  | [], s, s', h, _, hrun => by
      obtain rfl := Option.some.inj hrun
      exact ⟨trivial, h.alive, fun hidle => absurd hidle h.busy⟩
  | e :: es, s, s', h, halong, hrun => by
      obtain ⟨s₁, he, hes⟩ := run_cons_eq_some.mp hrun
      by_cases hbusy : s₁.stopper = .idle
      · -- `stop` has returned, and the run ends here
        have hnil : es = [] := by
          cases es with
          | nil => rfl
          | cons e' es => exact absurd hbusy (halong.2 s₁ he).1
        subst hnil
        obtain rfl := Option.some.inj hes
        have htended := moves_tended h.tended (step_moves he)
        refine ⟨⟨h, fun _ _ => trivial⟩, h.stays_alive (step_moves he), fun hidle => ?_⟩
        have hrunning : s₁.running = false := by
          have hcleared := h.running
          cases step_moves he with
          | start hstop => exact absurd hstop h.busy
          | startKnown hheld hrunning => rw [hcleared] at hrunning; cases hrunning
          | stop => rfl
          | destructorStop => rfl
          | _ => exact hcleared
        exact ⟨hrunning, htended.joined hrunning hidle⟩
      · obtain ⟨halong', hend⟩ := Stopping.run (h.step he hbusy) (halong.2 s₁ he) hes
        exact ⟨along_cons he h halong', hend⟩

/-- **`stop` returns.**  In every run of a task, from every state in which a `stop` that was called
through an owner is under way: one of the steps of `stop` and of the two threads is possible, nothing is
thrown, and until `stop` returns they take at most twelve steps, with at most one message handled and at
most one period processed.  When it has returned, there are no threads. -/
theorem stop_returns {msgSize base : ℕ} {m : Bytes.Mem} {nodes : ℕ → Node (Msg τ)}
    {queue : MessageQueue (Msg τ)} {interval : Bool} {es : List (LifecycleEvent τ)}
    (hsize : sizeofPtr < msgSize) (hcount : 0 < maxMsgs) (hbase : 0 < base)
    (hend : base + msgSize * maxMsgs < addressSpace)
    (hqueue : MessageQueue.create msgSize maxMsgs base m nodes = .ok queue)
    (hrun : Protocore.run (step rep) (created queue interval) es = some s) (halive : s.fate = .alive)
    (hbusy : s.stopper ≠ .idle) :
    (∃ e s', ownStep e = true ∧ step rep s e = some s') ∧
      ∀ es' s', Protocore.run (step rep) s es' = some s' →
        Along (step rep) (fun s _ => s.stopper ≠ .idle) s es' →
          es'.countP ownStep ≤ 12 ∧ es'.countP isHandle ≤ 1 ∧ es'.countP isProcess ≤ 1 ∧
            s'.fate = .alive ∧
            (s'.stopper = .idle → s'.running = false ∧ s'.thread = .absent ∧ s'.periodic = .absent) := by
  have hsettled := QueueSystem.create_settled hsize hcount hbase hend hqueue
  have hstopping : Stopping maxMsgs s := by
    have hinv := run_invariant (P := fun s => QueueSystem.Settled maxMsgs s.queue ∧ Tended s ∧
        (s.stopper ≠ .idle → Stopped s))
      (fun _ _ _ h hs => ⟨step_settled h.1 hs, moves_tended h.2.1 (step_moves hs),
        moves_busy h.2.2 (step_moves hs)⟩)
      ⟨hsettled, created_tended queue interval, fun hbusy => absurd rfl hbusy⟩ hrun
    exact ⟨hinv.1, hinv.2.1, hinv.2.2 hbusy, halive, hbusy⟩
  refine ⟨hstopping.enabled, fun es' s' hrun' halong => ?_⟩
  obtain ⟨hC, halive', hreturned⟩ := hstopping.run halong hrun'
  refine ⟨?_, ?_, ?_, halive', hreturned⟩
  · have hle := countP_le_potential (fun s e s' h hs => (Stopping.nearer h hs).steps) hC hrun'
    have hstop : stopLeft s.stopper ≤ 5 := by cases s.stopper <;> decide
    have hthread : threadLeft s.thread ≤ 5 := by cases s.thread <;> simp
    have hperiodic : periodicLeft s.periodic ≤ 2 := by cases s.periodic <;> decide
    unfold left at hle
    omega
  · have hle := countP_le_potential (f := fun s => messagesLeft s.thread)
      (fun s e s' h hs => (Stopping.nearer h hs).messages) hC hrun'
    have hthread : messagesLeft s.thread ≤ 1 := by cases s.thread <;> simp
    omega
  · have hle := countP_le_potential (f := fun s => periodsLeft s.periodic)
      (fun s e s' h hs => (Stopping.nearer h hs).periods) hC hrun'
    have hperiodic : periodsLeft s.periodic ≤ 1 := by cases s.periodic <;> decide
    omega

/-- Two messages are queued when `stop` is called: the queue thread handles the one in its hands. -/
theorem stop_returns_with_messages : ∃ q s s',
    fourMessages = .ok q ∧
    run (step (fun _ _ => 255)) (created q true)
      [.start, .deliver ⟨none, .heartbeatMsg ⟨1, 0⟩⟩, .deliver ⟨none, .heartbeatMsg ⟨2, 0⟩⟩, .test,
        .periodicTest, .dequeue, .stop] = some s ∧
    run (step (fun _ _ => 255)) s
      [.stopAssign, .deliver ⟨none, .heartbeatMsg ⟨3, 0⟩⟩, .handle, .stopPublish, .stopNotify, .publish,
        .release, .test, .stopJoin, .periodicProcess, .periodicTest, .stopJoinPeriodic] = some s' ∧
    s.stopper ≠ .idle ∧ s'.stopper = .idle ∧ s'.queue.queue.size = 2 ∧
    (∃ e s₁, ownStep e = true ∧ step (fun _ _ => 255) s e = some s₁) := by
  have heval : fourMessages.toOption.bind (fun q =>
      (run (step (fun _ _ => 255)) (created q true)
        [.start, .deliver ⟨none, .heartbeatMsg ⟨1, 0⟩⟩, .deliver ⟨none, .heartbeatMsg ⟨2, 0⟩⟩, .test,
          .periodicTest, .dequeue, .stop]).bind (fun s =>
        (run (step (fun _ _ => 255)) s
          [.stopAssign, .deliver ⟨none, .heartbeatMsg ⟨3, 0⟩⟩, .handle, .stopPublish, .stopNotify,
            .publish, .release, .test, .stopJoin, .periodicProcess, .periodicTest,
            .stopJoinPeriodic]).map
          (fun s' => (s.fate, s.stopper, s'.stopper, s'.queue.queue.size)))) =
      some (.alive, .cleared, .idle, 2) := by decide +kernel
  obtain ⟨q, hq, heval⟩ := Option.bind_eq_some_iff.mp heval
  obtain ⟨s, hrun, heval⟩ := Option.bind_eq_some_iff.mp heval
  obtain ⟨s', hrun', heval⟩ := Option.map_eq_some_iff.mp heval
  obtain ⟨halive, hrest⟩ := Prod.mk.inj heval
  obtain ⟨hcleared, hrest⟩ := Prod.mk.inj hrest
  obtain ⟨hidle, hsize⟩ := Prod.mk.inj hrest
  have hbusy : s.stopper ≠ .idle := by rw [hcleared]; decide
  refine ⟨q, s, s', eq_ok_of_toOption hq, hrun, hrun', hbusy, hidle, hsize, ?_⟩
  exact (stop_returns (by decide) (by decide) (by decide) (by decide) (eq_ok_of_toOption hq) hrun
    halive hbusy).1

end LifecycleSystem

end Protocore
