import Protocore.Shutdown

/-! # Room in the queues during a shutdown

The queues of `ShutdownSystem.step` have no capacity.  `boundedStep` is the system in which `enqueue`
asserts that a block is free: a delivery, a mark or a heartbeat that comes to a full queue aborts.

`Leads n s s'`: the threads can get from `s` to `s'` without any queue growing by more than `n`
messages on the way.  With that much room such a run is one of the bounded system
(`Leads.reaches_bounded`). -/

namespace Protocore

variable {τ : Type} [LinearOrder τ]

namespace ShutdownSystem

section defs

variable (subs : MsgType → List τ)

/-- The task into whose queue a step enqueues a message: the next one of the broadcast, or the one
that the monitor marks or sends a heartbeat to. -/
def receiver (s : ShutdownSystem τ) : ShutdownEvent τ → Option τ
  | .deliver => s.sub.bind (fun d => d.rest.head?)
  | .periodicThread _ =>
      match s.periodic with
      | .checking reading (task :: _) =>
          if (s.monitor.checkTask reading task).2 = [] then none else some task
      | .sending (task :: _) =>
          if (s.monitor.sendTask (fun _ => 0) task).2 = [] then none else some task
      | _ => none
  | _ => none

/-- The assertion of `MessageQueue::enqueue` fails: the queue is full. -/
def overflows (capacity : τ → ℕ) (s : ShutdownSystem τ) (e : ShutdownEvent τ) : Bool :=
  (s.receiver e).any (fun x => decide (capacity x ≤ (s.queue x).length))

/-- One step with queues of the given capacity. -/
def boundedStep (capacity : τ → ℕ) : ShutdownSystem τ → ShutdownEvent τ → Option (ShutdownSystem τ) :=
  guarded (step subs) (overflows capacity)

/-- The messages in the queues. -/
def load (s : ShutdownSystem τ) (x : τ) : ℕ := (s.queue x).length

/-- The threads can get from one state to another while each queue grows by so many messages only. -/
def Leads (n : τ → ℕ) : ShutdownSystem τ → ShutdownSystem τ → Prop :=
  ReachesWithin (step subs) load n

end defs

variable {subs : MsgType → List τ} {s s' s₁ : ShutdownSystem τ} {e : ShutdownEvent τ}
  {capacity : τ → ℕ} {x : τ}

/-! ### Who gets a message -/

theorem receiver_checking {now reading : ℤ} {task : τ} {rest : List τ}
    (hpc : s.periodic = .checking reading (task :: rest)) :
    s.receiver (.periodicThread now) = some x ↔ x = task ∧ ∃ status,
      s.monitor.monitoredTasks.find? task = some status ∧
        s.monitor.overdue reading status = true ∧ s.monitor.stateManager = true := by
  have hcomm : task = x ↔ x = task := eq_comm
  simp only [receiver, hpc]
  cases hf : s.monitor.monitoredTasks.find? task with
  | none => simp [HeartBeatTask.checkTask_of_find?_none hf]
  | some status =>
      cases hover : s.monitor.overdue reading status with
      | false => simp [HeartBeatTask.checkTask_of_not_overdue hf hover, hover]
      | true =>
          rw [HeartBeatTask.checkTask_of_overdue hf hover, HeartBeatTask.handleUnresponsiveTask]
          cases s.monitor.stateManager <;> simp [hover, hcomm]

theorem receiver_sending {now : ℤ} {task : τ} {rest : List τ}
    (hpc : s.periodic = .sending (task :: rest)) :
    s.receiver (.periodicThread now) = some x ↔ x = task ∧ ∃ status,
      s.monitor.monitoredTasks.find? task = some status ∧ ¬ status.awaitingResponse = true := by
  have hcomm : task = x ↔ x = task := eq_comm
  simp only [receiver, hpc]
  cases hf : s.monitor.monitoredTasks.find? task with
  | none => simp [HeartBeatTask.sendTask_of_find?_none hf]
  | some status =>
      cases hawait : status.awaitingResponse with
      | true => simp [HeartBeatTask.sendTask_of_awaiting hf hawait, hawait]
      | false => simp [HeartBeatTask.sendTask_of_not_awaiting hf hawait, hawait, hcomm]

theorem load_append (queue : τ → List (Msg τ)) (x y : τ) (msg : Msg τ) :
    (Function.update queue y (queue y ++ [msg]) x).length =
      (queue x).length + if y = x then 1 else 0 := by
  by_cases hx : y = x
  · subst hx
    rw [Function.update_self, if_pos rfl, List.length_append, List.length_singleton]
  · rw [Function.update_of_ne (Ne.symm hx), if_neg hx, Nat.add_zero]

/-- Only the queue of the receiver grows, by one message. -/
theorem step_load (h : s.step subs e = some s') (x : τ) :
    s'.load x ≤ s.load x + if s.receiver e = some x then 1 else 0 := by
  have hgrown : ∀ (y : τ) (msg : Msg τ), s.receiver e = some y →
      (Function.update s.queue y (s.queue y ++ [msg]) x).length ≤
        (s.queue x).length + if s.receiver e = some x then 1 else 0 := by
    intro y msg hy
    simp [load_append, hy]
  cases step_moves h with
  | @dequeue y now msg rest hpc hpop =>
      have hlen := (StableQueue.pop_perm Msg.getPriority hpop).length_eq
      rw [List.length_cons] at hlen
      by_cases hx : x = y
      · subst hx
        simp only [load, Function.update_self]
        omega
      · simp only [load, Function.update_of_ne hx]
        exact Nat.le_add_right _ _
  | overdue hpc hstatus hoverdue hmanager =>
      exact hgrown _ _ ((receiver_checking hpc).mpr ⟨rfl, _, hstatus, hoverdue, hmanager⟩)
  | send hpc hstatus hfree =>
      exact hgrown _ _ ((receiver_sending hpc).mpr ⟨rfl, _, hstatus, hfree⟩)
  | deliver hsub => exact hgrown _ _ (by simp [receiver, hsub])
  | _ => exact Nat.le_add_right _ _

/-- The receiver gets its message. -/
theorem load_of_receiver (hs : s.step subs e = some s') (hx : s.receiver e = some x) :
    s'.load x = s.load x + 1 := by
  cases e with
  | deliver =>
      obtain ⟨⟨p, msg, subscribers⟩, hsub, hhead⟩ := Option.bind_eq_some_iff.mp hx
      obtain ⟨rest, hrest⟩ := List.head?_eq_some_iff.mp hhead
      obtain rfl : subscribers = x :: rest := hrest
      simp only [step, deliverStep, hsub] at hs
      obtain rfl := Option.some.inj hs
      simp [load, deliverMessage]
  | periodicThread now =>
      simp only [step, periodicStep] at hs
      cases hpc : s.periodic with
      | checking reading tasks =>
          cases tasks with
          | nil => simp [receiver, hpc] at hx
          | cons task rest =>
              obtain ⟨rfl, status, hf, hover, hmanager⟩ := (receiver_checking hpc).mp hx
              simp only [hpc, hf, hover, hmanager, if_true] at hs
              obtain rfl := Option.some.inj hs
              simp [load, deliverMessage]
      | sending tasks =>
          cases tasks with
          | nil => simp [receiver, hpc] at hx
          | cons task rest =>
              obtain ⟨rfl, status, hf, hawait⟩ := (receiver_sending hpc).mp hx
              simp only [hpc, hf, if_neg hawait] at hs
              obtain rfl := Option.some.inj hs
              simp [load, sendTo]
      | _ => simp [receiver, hpc] at hx
  | _ => cases hx

theorem overflows_iff : s.overflows capacity e = true ↔
    ∃ x, s.receiver e = some x ∧ capacity x ≤ s.load x := by
  simp [overflows, load, Option.any_eq_true]

/-- No queue gets more messages than it has room for. -/
theorem boundedStep_fits (hfits : ∀ x, s.load x ≤ capacity x)
    (h : boundedStep subs capacity s e = some s') : ∀ x, s'.load x ≤ capacity x := by
  obtain ⟨hroom, hs⟩ := guarded_eq_some.mp h
  intro x
  have hgrown := step_load hs x
  have hx := hfits x
  split_ifs at hgrown with hreceiver
  · have hfull : ¬ capacity x ≤ s.load x := by
      intro hfull
      rw [overflows_iff.mpr ⟨x, hreceiver, hfull⟩] at hroom
      cases hroom
    omega
  · omega

/-! ### Runs with little room -/

theorem Leads.refl (n : τ → ℕ) (s : ShutdownSystem τ) : Leads subs n s s := ReachesWithin.refl s

/-- A step that enqueues nothing. -/
theorem Leads.step (hs : s.step subs e = some s') (hqueue : s'.queue = s.queue) (n : τ → ℕ) :
    Leads subs n s s' :=
  ReachesWithin.single hs (fun x => by simp only [load, hqueue]; exact Nat.le_add_right _ _)

theorem Leads.trans {n m k : τ → ℕ} (h : Leads subs n s s₁) (h' : Leads subs m s₁ s')
    (hle : ∀ x, n x + m x ≤ k x) : Leads subs k s s' :=
  ReachesWithin.trans h h' hle

theorem Leads.mono {n k : τ → ℕ} (h : Leads subs n s s') (hle : ∀ x, n x ≤ k x) :
    Leads subs k s s' :=
  ReachesWithin.mono h hle

theorem Leads.reaches {n : τ → ℕ} (h : Leads subs n s s') : Reaches (ShutdownSystem.step subs) s s' :=
  ReachesWithin.reaches h

/-- A run with enough room does not abort. -/
theorem Leads.reaches_bounded {n : τ → ℕ} (h : Leads subs n s s')
    (hroom : ∀ x, s.load x + n x ≤ capacity x) : Reaches (boundedStep subs capacity) s s' := by
  refine ReachesWithin.reaches_guarded ?_ h hroom
  intro s e s' habort hs
  obtain ⟨x, hx, hfull⟩ := overflows_iff.mp habort
  have hgrown := load_of_receiver hs hx
  exact ⟨x, by omega⟩

end ShutdownSystem

end Protocore
