import Protocore.Msg
import Protocore.TryDequeue

/-! # Stopping a task

`Task::start`, `Task::stop`, `Task::run` and the base `Task::transition_to_state` (`task.cpp`),
for a task that handles a `StateMsg` by calling `transition_to_state`.  Three parties take
atomic steps: the thread that calls `stop` (`running = false`; the assignment and the publish of
`transition_to_state(STOPPED)`; `notify_shutdown`; `join`), the queue thread (test of `running`;
`dequeue`; the handling of the message), and any number of threads that deliver messages.  The
queue is the real one, with any content.

The queue thread may have passed its test of `running` before `stop` clears it, and then still
takes one message and handles it.  `stopped_iff`: when `stop` has returned, the task is in
`STOPPED` exactly when that message, or the one already in the queue thread's hands when `stop`
assigns the state, was no `StateMsg` with another state. -/

namespace Protocore

variable {τ : Type}

/-- Where the queue thread is in `Task::run`. -/
inductive QueueThread (τ : Type) where
  | testing
  | dequeuing
  | handling (msg : Msg τ)
  /-- `transition_to_state` has assigned the state and is about to publish it. -/
  | publishing
  | exited
deriving DecidableEq

/-- Where the calling thread is in `Task::stop`. -/
inductive Stopper where
  | idle
  | cleared
  | assigned
  | published
  | notified
  | returned
deriving DecidableEq

/-- A started task and the threads inside it. -/
structure StoppingSystem (τ : Type) where
  running : Bool
  currentState : TaskState
  queue : MessageQueue (Msg τ)
  thread : QueueThread τ
  stopper : Stopper

/-- The atomic steps. -/
inductive StoppingEvent (τ : Type) where
  | deliver (msg : Msg τ)
  | test
  | dequeue
  | handle
  | publish
  | stop
  | stopAssign
  | stopPublish
  | stopNotify
  | stopJoin

namespace StoppingSystem

section defs
variable [DecidableEq τ] (rep : Node (Msg τ) → ℕ → UInt8)

/-- One atomic step.  What is published goes to other tasks, or comes back as a delivery. -/
def step (s : StoppingSystem τ) : StoppingEvent τ → Option (StoppingSystem τ)
  | .deliver msg =>
      match s.queue.enqueue Msg.getPriority rep msg with
      | .ok queue => some { s with queue := queue }
      | .error _ => none
  | .test =>
      if s.thread = .testing then
        some { s with thread := if s.running then .dequeuing else .exited }
      else none
  | .dequeue =>
      if s.thread = .dequeuing then
        match s.queue.dequeue Msg.getPriority with
        | .ok (some (some msg, queue)) => some { s with queue := queue, thread := .handling msg }
        | .ok (some (none, queue)) => some { s with queue := queue, thread := .testing }
        | .ok none => none
        | .error _ => none
      else none
  | .handle =>
      match s.thread with
      | .handling msg =>
          match msg.msgData with
          | .stateMsg m =>
              some { s with currentState := TaskState.ofByte m.state, thread := .publishing }
          | _ => some { s with thread := .testing }
      | _ => none
  | .publish => if s.thread = .publishing then some { s with thread := .testing } else none
  | .stop =>
      if s.stopper = .idle ∧ s.running = true then
        some { s with running := false, stopper := .cleared }
      else none
  | .stopAssign =>
      if s.stopper = .cleared then
        some { s with currentState := .stopped, stopper := .assigned }
      else none
  | .stopPublish =>
      if s.stopper = .assigned then some { s with stopper := .published } else none
  | .stopNotify =>
      if s.stopper = .published then
        some { s with queue := s.queue.notifyShutdown, stopper := .notified }
      else none
  | .stopJoin =>
      if s.stopper = .notified ∧ s.thread = .exited then some { s with stopper := .returned }
      else none

end defs

/-- `start` has returned; nothing is known of the queue and the state. -/
def Started (s : StoppingSystem τ) : Prop :=
  s.running = true ∧ s.thread = .testing ∧ s.stopper = .idle

/-- `stop` has assigned the state. -/
def PastAssign (s : StoppingSystem τ) : Prop :=
  s.stopper ≠ .idle ∧ s.stopper ≠ .cleared

/-- A `StateMsg` with a state other than `STOPPED`. -/
def OtherState (msg : Msg τ) : Prop :=
  ∃ m, msg.msgData = .stateMsg m ∧ TaskState.ofByte m.state ≠ .stopped

/-- When `stop` assigns the state the queue thread does not hold such a message, and from then on
it finds none at the front of the queue. -/
def Undisturbed (s : StoppingSystem τ) : StoppingEvent τ → Prop
  | .stopAssign => ∀ msg, s.thread = .handling msg → ¬ OtherState msg
  | .dequeue => PastAssign s → ∀ msg, s.queue.front = some msg → ¬ OtherState msg
  | _ => True

/-! ### Everything a step can do -/

/-- The steps by what they do to the flags and the threads. -/
inductive Moves (s : StoppingSystem τ) : StoppingEvent τ → StoppingSystem τ → Prop
  | deliver {msg : Msg τ} (queue : MessageQueue (Msg τ)) :
      Moves s (.deliver msg) { s with queue := queue }
  | test (ht : s.thread = .testing) :
      Moves s .test { s with thread := if s.running then .dequeuing else .exited }
  | take {msg : Msg τ} (queue : MessageQueue (Msg τ)) (ht : s.thread = .dequeuing)
      (hfront : s.queue.front = some msg) :
      Moves s .dequeue { s with queue := queue, thread := .handling msg }
  | null (queue : MessageQueue (Msg τ)) (ht : s.thread = .dequeuing)
      (hfront : s.queue.front = none) :
      Moves s .dequeue { s with queue := queue, thread := .testing }
  | assign {msg : Msg τ} {m : StateMsg} (ht : s.thread = .handling msg)
      (hm : msg.msgData = .stateMsg m) :
      Moves s .handle
        { s with currentState := TaskState.ofByte m.state, thread := .publishing }
  | other {msg : Msg τ} (ht : s.thread = .handling msg) (hm : ∀ m, msg.msgData ≠ .stateMsg m) :
      Moves s .handle { s with thread := .testing }
  | publish (ht : s.thread = .publishing) : Moves s .publish { s with thread := .testing }
  | stop (hs : s.stopper = .idle) (hrun : s.running = true) :
      Moves s .stop { s with running := false, stopper := .cleared }
  | stopAssign (hs : s.stopper = .cleared) :
      Moves s .stopAssign { s with currentState := .stopped, stopper := .assigned }
  | stopPublish (hs : s.stopper = .assigned) : Moves s .stopPublish { s with stopper := .published }
  | stopNotify (hs : s.stopper = .published) :
      Moves s .stopNotify { s with queue := s.queue.notifyShutdown, stopper := .notified }
  | stopJoin (hs : s.stopper = .notified) (ht : s.thread = .exited) :
      Moves s .stopJoin { s with stopper := .returned }

section moves
variable [DecidableEq τ] {rep : Node (Msg τ) → ℕ → UInt8}

theorem step_moves {s s' : StoppingSystem τ} {e : StoppingEvent τ}
    (h : step rep s e = some s') : Moves s e s' := by
  cases e with
  | deliver msg =>
      simp only [step] at h
      split at h
      · obtain rfl := Option.some.inj h
        exact .deliver _
      · cases h
  | test =>
      simp only [step] at h
      split at h
      · rename_i ht
        obtain rfl := Option.some.inj h
        exact .test ht
      · cases h
  | dequeue =>
      simp only [step] at h
      split at h
      · rename_i ht
        split at h
        · rename_i msg queue hd
          obtain rfl := Option.some.inj h
          exact .take queue ht (MessageQueue.dequeue_front hd)
        · rename_i queue hd
          obtain rfl := Option.some.inj h
          exact .null queue ht (MessageQueue.dequeue_front hd)
        · cases h
        · cases h
      · cases h
  | handle =>
      simp only [step] at h
      split at h
      · rename_i msg ht
        split at h
        · rename_i m hm
          obtain rfl := Option.some.inj h
          exact .assign ht hm
        · rename_i hm
          obtain rfl := Option.some.inj h
          exact .other ht hm
      · cases h
  | publish =>
      simp only [step] at h
      split_ifs at h with ht
      obtain rfl := Option.some.inj h
      exact .publish ht
  | stop =>
      simp only [step] at h
      split_ifs at h with hs
      obtain rfl := Option.some.inj h
      exact .stop hs.1 hs.2
  | stopAssign =>
      simp only [step] at h
      split_ifs at h with hs
      obtain rfl := Option.some.inj h
      exact .stopAssign hs
  | stopPublish =>
      simp only [step] at h
      split_ifs at h with hs
      obtain rfl := Option.some.inj h
      exact .stopPublish hs
  | stopNotify =>
      simp only [step] at h
      split_ifs at h with hs
      obtain rfl := Option.some.inj h
      exact .stopNotify hs
  | stopJoin =>
      simp only [step] at h
      split_ifs at h with hs
      obtain rfl := Option.some.inj h
      exact .stopJoin hs.1 hs.2

end moves

/-! ### Until `stop` returns -/

/-- `running` is cleared by `stop` alone, and `stop` returns after the queue thread is gone. -/
structure Joined (s : StoppingSystem τ) : Prop where
  running : s.running = true ↔ s.stopper = .idle
  returned : s.stopper = .returned → s.thread = .exited

theorem Started.joined {s : StoppingSystem τ} (h : Started s) : Joined s := by
  obtain ⟨hrun, -, hstop⟩ := h
  refine ⟨by simp [hrun, hstop], fun hc => ?_⟩
  rw [hstop] at hc
  cases hc

/-- What has to be found in a state for `stop` to be final. -/
structure Kept (s : StoppingSystem τ) : Prop where
  joined : Joined s
  state : PastAssign s → s.currentState = .stopped
  inHand : PastAssign s → ∀ msg, s.thread = .handling msg → ¬ OtherState msg

theorem Joined.stopped {s : StoppingSystem τ} (hj : Joined s) (h : s.stopper ≠ .idle) :
    s.running = false := by
  cases hr : s.running with
  | false => rfl
  | true => exact absurd (hj.running.mp hr) h

theorem moves_joined {s s' : StoppingSystem τ} {e : StoppingEvent τ} (h : Joined s)
    (hm : Moves s e s') : Joined s' := by
  -- the queue thread does not move once it is gone
  have hgone : s.thread ≠ .exited → ∀ thread : QueueThread τ, s.stopper = .returned →
      thread = .exited := fun hne _ hret => absurd (h.returned hret) hne
  cases hm with
  | deliver => exact ⟨h.running, h.returned⟩
  | test ht => exact ⟨h.running, hgone (by rw [ht]; simp) _⟩
  | take queue ht => exact ⟨h.running, hgone (by rw [ht]; simp) _⟩
  | null queue ht => exact ⟨h.running, hgone (by rw [ht]; simp) _⟩
  | assign ht => exact ⟨h.running, hgone (by rw [ht]; simp) _⟩
  | other ht => exact ⟨h.running, hgone (by rw [ht]; simp) _⟩
  | publish ht => exact ⟨h.running, hgone (by rw [ht]; simp) _⟩
  | stop hs => exact ⟨by simp, by simp⟩
  | stopAssign hs => exact ⟨by simp [h.running, hs], by simp⟩
  | stopPublish hs => exact ⟨by simp [h.running, hs], by simp⟩
  | stopNotify hs => exact ⟨by simp [h.running, hs], by simp⟩
  | stopJoin hs ht => exact ⟨by simp [h.running, hs], fun _ => ht⟩

theorem moves_kept {s s' : StoppingSystem τ} {e : StoppingEvent τ} (h : Kept s)
    (hu : Undisturbed s e) (hm : Moves s e s') : Kept s' := by
  refine ⟨moves_joined h.joined hm, ?_, ?_⟩
  · cases hm with
    | @assign msg m ht hm =>
        intro hpast
        by_contra hne
        exact h.inHand hpast msg ht ⟨m, hm, hne⟩
    | stop => exact fun hpast => absurd rfl hpast.2
    | stopAssign => exact fun _ => rfl
    | stopPublish hs => exact fun _ => h.state ⟨by simp [hs], by simp [hs]⟩
    | stopNotify hs => exact fun _ => h.state ⟨by simp [hs], by simp [hs]⟩
    | stopJoin hs => exact fun _ => h.state ⟨by simp [hs], by simp [hs]⟩
    | _ => exact h.state
  · cases hm with
    | deliver => exact h.inHand
    | test ht =>
        intro _ msg hc
        simp only at hc
        split_ifs at hc
    | take queue ht hfront =>
        intro hpast msg hc
        injection hc with hc
        exact hc ▸ hu hpast _ hfront
    | null => exact fun _ _ hc => by cases hc
    | assign => exact fun _ _ hc => by cases hc
    | other => exact fun _ _ hc => by cases hc
    | publish => exact fun _ _ hc => by cases hc
    | stop => exact fun hpast => absurd rfl hpast.2
    | stopAssign => exact fun _ => hu
    | stopPublish hs => exact fun _ => h.inHand ⟨by simp [hs], by simp [hs]⟩
    | stopNotify hs => exact fun _ => h.inHand ⟨by simp [hs], by simp [hs]⟩
    | stopJoin hs => exact fun _ => h.inHand ⟨by simp [hs], by simp [hs]⟩

/-! ### After a disturbance -/

/-- `stop` has assigned the state, and a message with another state is in the queue thread's
hands or has been assigned; the thread takes no further message. -/
def Disturbed (s : StoppingSystem τ) : Prop :=
  PastAssign s ∧ s.running = false ∧
    ((∃ msg, s.thread = .handling msg ∧ OtherState msg) ∨
      (s.currentState ≠ .stopped ∧
        (s.thread = .publishing ∨ s.thread = .testing ∨ s.thread = .exited)))

theorem disturbed_of_not {s s' : StoppingSystem τ} {e : StoppingEvent τ} (hj : Joined s)
    (hnot : ¬ Undisturbed s e) (hm : Moves s e s') : Disturbed s' := by
  cases hm with
  | @take msg queue ht hfront =>
      simp only [Undisturbed, not_forall, not_not] at hnot
      obtain ⟨hpast, msg', hfront', hother⟩ := hnot
      obtain rfl := Option.some.inj (hfront.symm.trans hfront')
      exact ⟨hpast, hj.stopped hpast.1, Or.inl ⟨msg, rfl, hother⟩⟩
  | null queue ht hfront =>
      simp only [Undisturbed, not_forall] at hnot
      obtain ⟨-, msg, hc, -⟩ := hnot
      rw [hfront] at hc
      cases hc
  | stopAssign hs =>
      simp only [Undisturbed, not_forall, not_not] at hnot
      obtain ⟨msg, ht, hother⟩ := hnot
      exact ⟨⟨by simp, by simp⟩, hj.stopped (by simp [hs]), Or.inl ⟨msg, ht, hother⟩⟩
  | _ => exact absurd trivial hnot

theorem moves_disturbed {s s' : StoppingSystem τ} {e : StoppingEvent τ} (h : Disturbed s)
    (hm : Moves s e s') : Disturbed s' := by
  obtain ⟨hpast, hrun, hcase⟩ := h
  have hnot : s.thread ≠ .dequeuing := by
    rcases hcase with ⟨msg, ht, -⟩ | ⟨-, ht | ht | ht⟩ <;> rw [ht] <;> simp
  cases hm with
  | deliver => exact ⟨hpast, hrun, hcase⟩
  | test ht =>
      refine ⟨hpast, hrun, Or.inr ?_⟩
      rcases hcase with ⟨msg, hc, -⟩ | ⟨hne, -⟩
      · rw [ht] at hc
        cases hc
      · exact ⟨hne, by simp [hrun]⟩
  | take queue ht => exact absurd ht hnot
  | null queue ht => exact absurd ht hnot
  | @assign msg m ht hm =>
      rcases hcase with ⟨msg', hc, m', hm', hne⟩ | ⟨-, hc | hc | hc⟩
      · rw [ht] at hc
        injection hc with hc
        subst hc
        rw [hm] at hm'
        injection hm' with hm'
        subst hm'
        exact ⟨hpast, hrun, Or.inr ⟨hne, Or.inl rfl⟩⟩
      all_goals
        rw [ht] at hc
        cases hc
  | @other msg ht hm =>
      rcases hcase with ⟨msg', hc, m', hm', hne⟩ | ⟨-, hc | hc | hc⟩
      · rw [ht] at hc
        injection hc with hc
        subst hc
        exact absurd hm' (hm m')
      all_goals
        rw [ht] at hc
        cases hc
  | publish ht =>
      refine ⟨hpast, hrun, Or.inr ?_⟩
      rcases hcase with ⟨msg, hc, -⟩ | ⟨hne, -⟩
      · rw [ht] at hc
        cases hc
      · exact ⟨hne, Or.inr (Or.inl rfl)⟩
  | stop hs => exact absurd hs hpast.1
  | stopAssign hs => exact absurd hs hpast.2
  | stopPublish => exact ⟨⟨by simp, by simp⟩, hrun, hcase⟩
  | stopNotify => exact ⟨⟨by simp, by simp⟩, hrun, hcase⟩
  | stopJoin => exact ⟨⟨by simp, by simp⟩, hrun, hcase⟩

/-- When the queue thread is gone, the disturbance shows. -/
theorem Disturbed.state {s : StoppingSystem τ} (h : Disturbed s) (ht : s.thread = .exited) :
    s.currentState ≠ .stopped := by
  obtain ⟨-, -, ⟨msg, hc, -⟩ | ⟨hne, -⟩⟩ := h
  · rw [ht] at hc
    cases hc
  · exact hne

/-! ### When `stop` is final -/

section final
variable [DecidableEq τ] {rep : Node (Msg τ) → ℕ → UInt8}

theorem run_joined {s s' : StoppingSystem τ} {es : List (StoppingEvent τ)} (h : Joined s)
    (hrun : run (step rep) s es = some s') : Joined s' :=
  run_invariant (fun _ _ _ hi hs => moves_joined hi (step_moves hs)) h hrun

theorem run_disturbed {s s' : StoppingSystem τ} {es : List (StoppingEvent τ)} (h : Disturbed s)
    (hrun : run (step rep) s es = some s') : Disturbed s' :=
  run_invariant (fun _ _ _ hi hs => moves_disturbed hi (step_moves hs)) h hrun

theorem run_kept {s s' : StoppingSystem τ} {es : List (StoppingEvent τ)} (h : Kept s)
    (halong : Along (step rep) Undisturbed s es) (hrun : run (step rep) s es = some s') :
    Kept s' :=
  run_invariant_along (fun _ _ _ hi hu hs => moves_kept hi hu (step_moves hs)) h halong hrun

/-- **When `stop` is final.**  Take any run of a started task, whatever its queue holds and
whatever is delivered to it meanwhile and afterwards.  Once `stop` has returned, the task is in
`STOPPED` exactly when every step of the run was undisturbed. -/
theorem stopped_iff (rep : Node (Msg τ) → ℕ → UInt8) (s₀ s : StoppingSystem τ)
    (es : List (StoppingEvent τ)) (h₀ : Started s₀) (hrun : run (step rep) s₀ es = some s)
    (hret : s.stopper = .returned) :
    s.currentState = .stopped ↔ Along (step rep) Undisturbed s₀ es := by
  constructor
  · intro hstate
    by_contra hnot
    obtain ⟨es₁, e, es₂, s₁, s₂, -, hrun₁, hC, hs, hrun₂⟩ := exists_of_not_along hrun hnot
    have hj := run_joined h₀.joined hrun₁
    have hd := run_disturbed (disturbed_of_not hj hC (step_moves hs)) hrun₂
    exact hd.state ((run_joined h₀.joined hrun).returned hret) hstate
  · intro halong
    have hkept : Kept s₀ := by
      refine ⟨h₀.joined, ?_, ?_⟩
      all_goals exact fun hpast => absurd h₀.2.2 hpast.1
    exact (run_kept hkept halong hrun).state ⟨by simp [hret], by simp [hret]⟩

end final

/-- The queue thread waits in `dequeue` when `stop` is called, and is woken by a heartbeat; what
is delivered after that stays in the queue. -/
theorem stopped_after_heartbeat : ∃ q s,
    MessageQueue.create 16 4 4096 (fun _ => 0) (fun _ => ⟨⟨none, .stateMsg ⟨0⟩⟩, 0⟩) = .ok q ∧
    run (step (fun _ _ => 255)) (⟨true, .idle, q, .testing, .idle⟩ : StoppingSystem ℕ)
      [.test, .stop, .stopAssign, .deliver ⟨none, .heartbeatMsg ⟨1, 0⟩⟩, .dequeue, .handle,
        .deliver ⟨none, .stateMsg ⟨2⟩⟩, .test, .stopPublish, .stopNotify, .stopJoin,
        .deliver ⟨none, .stateMsg ⟨2⟩⟩] = some s ∧
    s.currentState = .stopped ∧
    Along (step (fun _ _ => 255)) Undisturbed
      (⟨true, .idle, q, .testing, .idle⟩ : StoppingSystem ℕ)
      [.test, .stop, .stopAssign, .deliver ⟨none, .heartbeatMsg ⟨1, 0⟩⟩, .dequeue, .handle,
        .deliver ⟨none, .stateMsg ⟨2⟩⟩, .test, .stopPublish, .stopNotify, .stopJoin,
        .deliver ⟨none, .stateMsg ⟨2⟩⟩] := by
  have heval : (MessageQueue.create 16 4 4096 (fun _ => 0)
      (fun _ => (⟨⟨none, .stateMsg ⟨0⟩⟩, 0⟩ : Node (Msg ℕ)))).toOption.bind (fun q =>
        (run (step (fun _ _ => 255)) ⟨true, .idle, q, .testing, .idle⟩
          [.test, .stop, .stopAssign, .deliver ⟨none, .heartbeatMsg ⟨1, 0⟩⟩, .dequeue, .handle,
            .deliver ⟨none, .stateMsg ⟨2⟩⟩, .test, .stopPublish, .stopNotify, .stopJoin,
            .deliver ⟨none, .stateMsg ⟨2⟩⟩]).map (fun s => (s.currentState, s.stopper))) =
      some (.stopped, .returned) := by decide +kernel
  obtain ⟨q, hq, heval⟩ := Option.bind_eq_some_iff.mp heval
  obtain ⟨s, hrun, hval⟩ := Option.map_eq_some_iff.mp heval
  obtain ⟨hstate, hret⟩ := Prod.mk.inj hval
  exact ⟨q, s, eq_ok_of_toOption hq, hrun, hstate,
    (stopped_iff (fun _ _ => 255) _ s _ ⟨rfl, rfl, rfl⟩ hrun hret).mp hstate⟩

/-- The queue thread has passed its test of `running` when `stop` is called; a `StateMsg` that
arrives before `notify_shutdown` is still handled, and `stop` returns with the task running. -/
theorem restarted_while_stopping : ∃ q s,
    MessageQueue.create 16 4 4096 (fun _ => 0) (fun _ => ⟨⟨none, .stateMsg ⟨0⟩⟩, 0⟩) = .ok q ∧
    run (step (fun _ _ => 255)) (⟨true, .idle, q, .testing, .idle⟩ : StoppingSystem ℕ)
      [.test, .stop, .stopAssign, .stopPublish, .deliver ⟨none, .stateMsg ⟨2⟩⟩, .stopNotify,
        .dequeue, .handle, .publish, .test, .stopJoin] = some s ∧
    s.stopper = .returned ∧ s.currentState = .running := by
  have heval : (MessageQueue.create 16 4 4096 (fun _ => 0)
      (fun _ => (⟨⟨none, .stateMsg ⟨0⟩⟩, 0⟩ : Node (Msg ℕ)))).toOption.bind (fun q =>
        (run (step (fun _ _ => 255)) ⟨true, .idle, q, .testing, .idle⟩
          [.test, .stop, .stopAssign, .stopPublish, .deliver ⟨none, .stateMsg ⟨2⟩⟩, .stopNotify,
            .dequeue, .handle, .publish, .test, .stopJoin]).map
              (fun s => (s.stopper, s.currentState))) =
      some (.returned, .running) := by decide +kernel
  obtain ⟨q, hq, heval⟩ := Option.bind_eq_some_iff.mp heval
  obtain ⟨s, hrun, hval⟩ := Option.map_eq_some_iff.mp heval
  obtain ⟨hret, hstate⟩ := Prod.mk.inj hval
  exact ⟨q, s, eq_ok_of_toOption hq, hrun, hret, hstate⟩

end StoppingSystem

end Protocore
