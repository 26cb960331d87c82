import Protocore.QueueRuns
import Protocore.HeartBeat
import Protocore.StateManager

/-! # Monitoring a task that hangs

The periodic thread of a `HeartBeatTask` in state `RUNNING` and the queue of one monitored task
whose own thread takes nothing out any more.  A cycle that finds the heartbeat of the task overdue
puts two messages there: the `StateMsg` of `mark_task_as_unresponsive`, and the next heartbeat,
since the check has cleared `awaiting_response`.  The queue has as many blocks as it was
constructed with, and `enqueue` asserts that there is one left.

`monitoring_survives_iff`: the cycles run without reaching that assertion iff these messages fit
into the blocks that were free at the start. -/

namespace Protocore

variable {τ : Type} [LinearOrder τ]

/-- The monitor, its state manager, and the queue of the task that hangs. -/
structure MonitorSystem (τ : Type) [LinearOrder τ] where
  monitor : HeartBeatTask τ
  manager : StateManager τ
  queue : MessageQueue (Msg τ)

/-- A cycle of the periodic thread, and what other tasks make the monitor do in between. -/
inductive MonitorEvent (τ : Type) where
  | periodicTaskProcess (now : ℤ) (sendNow : τ → ℤ)
  | handleAcknowledgment (sender : Option τ) (ack : HeartbeatAckMsg) (now : ℤ)
  | notifyTaskRegistered (task : τ) (now : ℤ)

/-- The task an effect concerns. -/
def HeartBeatEffect.task : HeartBeatEffect τ → τ
  | .heartbeat task _ => task
  | .unresponsive task _ => task

namespace MonitorSystem

variable (rep : Node (Msg τ) → ℕ → UInt8) (hung : τ)

/-- `Broker::deliver_message`; the queues of other tasks are not looked at. -/
def deliverMessage (s : MonitorSystem τ) (task : τ) (msg : Msg τ) :
    Except Fault (MonitorSystem τ) :=
  if task = hung then
    (s.queue.enqueue Msg.getPriority rep msg).map (fun queue => { s with queue := queue })
  else .ok s

/-- Carry out one effect of the monitor. -/
def perform (s : MonitorSystem τ) : HeartBeatEffect τ → Except Fault (MonitorSystem τ)
  | .heartbeat task msg =>
      s.deliverMessage rep hung task ⟨some s.monitor.self, .heartbeatMsg msg⟩
  | .unresponsive task _ =>
      (s.deliverMessage rep hung task s.manager.unresponsiveMsg).map
        (fun s => { s with manager := s.manager.recordUnresponsive task })

/-- One event; a failed assertion ends the process. -/
def step (s : MonitorSystem τ) : MonitorEvent τ → Except Fault (MonitorSystem τ)
  | .periodicTaskProcess now sendNow =>
      let r := s.monitor.periodicTaskProcess now sendNow
      r.2.foldlM (perform rep hung) { s with monitor := r.1 }
  | .handleAcknowledgment sender ack now =>
      .ok { s with monitor := s.monitor.handleAcknowledgment sender ack now }
  | .notifyTaskRegistered task now =>
      .ok { s with monitor := s.monitor.notifyTaskRegistered task now }

/-! ### What reaches the queue -/

/-- The outcome of putting `n` more messages into a queue of the given capacity: they fit and the
queue grows by `n`, or the assertion of `enqueue` fails. -/
def Grows (capacity : ℕ) (s : MonitorSystem τ) (n : ℕ) (r : Except Fault (MonitorSystem τ))
    (P : MonitorSystem τ → Prop) : Prop :=
  (∃ s', r = .ok s' ∧ QueueSystem.Settled capacity s'.queue ∧
    s'.queue.queue.size = s.queue.queue.size + n ∧ P s') ∨
  (r = .error .outOfMemory ∧ capacity < s.queue.queue.size + n)

theorem Grows.ok_iff {capacity : ℕ} {s : MonitorSystem τ} {n : ℕ}
    {r : Except Fault (MonitorSystem τ)} {P : MonitorSystem τ → Prop} (h : Grows capacity s n r P) :
    ((∃ s', r = .ok s') ↔ s.queue.queue.size + n ≤ capacity) ∧
    (r = .error .outOfMemory ↔ capacity < s.queue.queue.size + n) := by
  rcases h with ⟨s', rfl, hq, hsize, -⟩ | ⟨rfl, hlt⟩
  · have hle := hq.size_le
    exact ⟨iff_of_true ⟨s', rfl⟩ (by omega), iff_of_false (fun h => nomatch h) (by omega)⟩
  · exact ⟨iff_of_false (fun ⟨_, h⟩ => nomatch h) (by omega), iff_of_true rfl hlt⟩

theorem perform_grows {capacity : ℕ} {s : MonitorSystem τ}
    (h : QueueSystem.Settled capacity s.queue) (e : HeartBeatEffect τ) :
    Grows capacity s (if e.task = hung then 1 else 0) (s.perform rep hung e)
      (fun s' => s'.monitor = s.monitor) := by
  have hdeliver : ∀ msg : Msg τ, Grows capacity s (if e.task = hung then 1 else 0)
      (s.deliverMessage rep hung e.task msg) (fun s' => s'.monitor = s.monitor) := by
    intro msg
    simp only [deliverMessage]
    split_ifs
    · rcases h.enqueue Msg.getPriority rep msg with ⟨hfull, he⟩ | ⟨q', he, hq', hsize, -⟩
      · exact .inr ⟨by rw [he]; rfl, by omega⟩
      · exact .inl ⟨{ s with queue := q' }, by rw [he]; rfl, hq', hsize, rfl⟩
    · exact .inl ⟨s, rfl, h, rfl, rfl⟩
  cases e with
  | heartbeat task msg => exact hdeliver _
  | unresponsive task id =>
      rcases hdeliver s.manager.unresponsiveMsg with ⟨s', hs', hq, hsize, hm⟩ | ⟨he, hlt⟩
      · simp only [HeartBeatEffect.task] at hs'
        exact .inl ⟨{ s' with manager := s'.manager.recordUnresponsive task },
          by simp only [perform, hs']; rfl, hq, hsize, hm⟩
      · simp only [HeartBeatEffect.task] at he
        exact .inr ⟨by simp only [perform, he]; rfl, hlt⟩

/-- The effects that concern the hung task. -/
def concerning (hung : τ) (effects : List (HeartBeatEffect τ)) : List (HeartBeatEffect τ) :=
  effects.filter (fun e => decide (e.task = hung))

theorem foldlM_perform_grows {capacity : ℕ} (effects : List (HeartBeatEffect τ)) :
    ∀ {s : MonitorSystem τ}, QueueSystem.Settled capacity s.queue →
      Grows capacity s (concerning hung effects).length (effects.foldlM (perform rep hung) s)
        (fun s' => s'.monitor = s.monitor) := by
  induction effects with
  | nil =>
      intro s h
      exact .inl ⟨s, rfl, h, rfl, rfl⟩
  | cons e effects ih =>
      intro s h
      have hlen : (concerning hung (e :: effects)).length =
          (if e.task = hung then 1 else 0) + (concerning hung effects).length := by
        simp only [concerning, List.filter_cons, decide_eq_true_eq]
        split_ifs
        · rw [List.length_cons, Nat.add_comm]
        · rw [Nat.zero_add]
      rw [List.foldlM_cons, hlen]
      rcases perform_grows rep hung h e with ⟨s₁, he, hq, hsize, hm⟩ | ⟨he, hlt⟩
      · rw [he]
        rcases ih hq with ⟨s', hs', hq', hsize', hm'⟩ | ⟨he', hlt⟩
        · exact .inl ⟨s', hs', hq', by omega, hm'.trans hm⟩
        · exact .inr ⟨he', by omega⟩
      · rw [he]
        exact .inr ⟨rfl, by omega⟩

/-! ### One cycle, at the record of the hung task -/

/-- The messages one timeout costs: the command of the state manager, if there is one, and the
next heartbeat. -/
def perTimeout (hb : HeartBeatTask τ) : ℕ := if hb.stateManager then 2 else 1

/-- When the heartbeat that the record waits for was sent. -/
def pending (status : TaskStatus) : Option ℤ :=
  if status.awaitingResponse then some status.lastHeartbeatTime else none

/-- A heartbeat sent at `p` and not answered is overdue at `now`. -/
def timedOut (timeoutMs now : ℤ) : Option ℤ → Bool
  | none => false
  | some last => decide (toMilliseconds (now - last) > timeoutMs)

theorem overdue_eq (hb : HeartBeatTask τ) (now : ℤ) (status : TaskStatus) :
    hb.overdue now status = timedOut hb.responseTimeoutMs now (pending status) := by
  cases hawait : status.awaitingResponse <;>
    simp [HeartBeatTask.overdue, pending, timedOut, hawait]

theorem pending_afterCheck (hb : HeartBeatTask τ) (now : ℤ) (status : TaskStatus) :
    pending (HeartBeatSystem.afterCheck hb now status) =
      if timedOut hb.responseTimeoutMs now (pending status) then none else pending status := by
  rw [HeartBeatSystem.afterCheck, overdue_eq]
  split_ifs <;> rfl

theorem checkForTimeouts_visit {hb : HeartBeatTask τ} {status : TaskStatus}
    (hf : hb.monitoredTasks.find? hung = some status) (now : ℤ) :
    (hb.checkForTimeouts now).1.monitoredTasks.find? hung =
      some (HeartBeatSystem.afterCheck hb now status) ∧
    (concerning hung (hb.checkForTimeouts now).2).length =
      if hb.overdue now status then perTimeout hb - 1 else 0 := by
  have hout : ∀ effects task st, (hb.checkStatus now effects task st).1 =
      effects ++ if hb.overdue now st then hb.handleUnresponsiveTask task st.lastHeartbeatId
        else [] := by
    intro effects task st
    simp only [HeartBeatTask.checkStatus]
    split_ifs <;> simp
  have hkey : ∀ (_ : List (HeartBeatEffect τ)) (task : τ) (st : TaskStatus),
      ∀ e ∈ (if hb.overdue now st then hb.handleUnresponsiveTask task st.lastHeartbeatId else []),
        e.task = task := by
    intro _ task st e he
    simp only [HeartBeatTask.handleUnresponsiveTask] at he
    split_ifs at he
    · obtain rfl := List.mem_singleton.mp he
      rfl
    all_goals exact absurd he List.not_mem_nil
  rcases OrdMap.forEach_visit (o := id) HeartBeatEffect.task hout hkey [] hb.monitoredTasks hung with
    ⟨hnone, -⟩ | ⟨st, acc, hst, hst', hfilter⟩
  · rw [hf] at hnone
    cases hnone
  · obtain rfl := Option.some.inj (hf.symm.trans hst)
    refine ⟨hst'.trans ?_, (congrArg List.length hfilter).trans ?_⟩
    · simp only [HeartBeatTask.checkStatus, HeartBeatSystem.afterCheck]
      split_ifs <;> rfl
    · simp only [HeartBeatTask.handleUnresponsiveTask, perTimeout]
      split_ifs <;> rfl

theorem sendHeartbeat_visit {hb : HeartBeatTask τ} {status : TaskStatus}
    (hf : hb.monitoredTasks.find? hung = some status) (now : τ → ℤ) :
    (∃ status', (hb.sendHeartbeat now).1.monitoredTasks.find? hung = some status' ∧
      pending status' = some ((pending status).getD (now hung))) ∧
    (concerning hung (hb.sendHeartbeat now).2).length = if (pending status).isSome then 0 else 1 := by
  have hout : ∀ acc task st, (HeartBeatTask.sendStatus now acc task st).1.2 =
      acc.2 ++ if st.awaitingResponse then [] else
        [.heartbeat task ⟨acc.1, UInt64.ofInt (toMilliseconds (now task))⟩] := by
    intro acc task st
    simp only [HeartBeatTask.sendStatus]
    split_ifs <;> simp
  have hkey : ∀ (acc : UInt32 × List (HeartBeatEffect τ)) (task : τ) (st : TaskStatus),
      ∀ e ∈ (if st.awaitingResponse then [] else
        [HeartBeatEffect.heartbeat task ⟨acc.1, UInt64.ofInt (toMilliseconds (now task))⟩]),
          e.task = task := by
    intro acc task st e he
    split_ifs at he
    · exact absurd he List.not_mem_nil
    · obtain rfl := List.mem_singleton.mp he
      rfl
  rcases OrdMap.forEach_visit (o := Prod.snd) HeartBeatEffect.task hout hkey (hb.nextHeartbeatId, [])
    hb.monitoredTasks hung with ⟨hnone, -⟩ | ⟨st, acc, hst, hst', hfilter⟩
  · rw [hf] at hnone
    cases hnone
  · obtain rfl := Option.some.inj (hf.symm.trans hst)
    refine ⟨⟨_, hst', ?_⟩, (congrArg List.length hfilter).trans ?_⟩
    · cases hawait : status.awaitingResponse <;> simp [HeartBeatTask.sendStatus, pending, hawait]
    · cases hawait : status.awaitingResponse <;> simp [pending, hawait]

/-- The monitor is `RUNNING` and watches the task, whose unanswered heartbeat was sent at `p`. -/
structure Watching (timeoutMs : ℤ) (k : ℕ) (hb : HeartBeatTask τ) (p : Option ℤ) : Prop where
  running : hb.currentState = .running
  timeout : hb.responseTimeoutMs = timeoutMs
  cost : perTimeout hb = k
  record : ∃ status, hb.monitoredTasks.find? hung = some status ∧ pending status = p

/-- The messages of one cycle for the hung task. -/
def cycleLoad (timeoutMs : ℤ) (k : ℕ) (now : ℤ) (p : Option ℤ) : ℕ :=
  if p.isNone then 1 else if timedOut timeoutMs now p then k else 0

/-- When the heartbeat pending after one cycle was sent. -/
def cyclePending (timeoutMs now sent : ℤ) (p : Option ℤ) : ℤ :=
  if timedOut timeoutMs now p then sent else p.getD sent

theorem periodicTaskProcess_visit {timeoutMs : ℤ} {k : ℕ} {hb : HeartBeatTask τ} {p : Option ℤ}
    (h : Watching hung timeoutMs k hb p) (now : ℤ) (sendNow : τ → ℤ) :
    Watching hung timeoutMs k (hb.periodicTaskProcess now sendNow).1
      (some (cyclePending timeoutMs now (sendNow hung) p)) ∧
    (concerning hung (hb.periodicTaskProcess now sendNow).2).length =
      cycleLoad timeoutMs k now p := by
  obtain ⟨hrun, rfl, rfl, status, hf, rfl⟩ := h
  obtain ⟨hf₁, hlen₁⟩ := checkForTimeouts_visit hung hf now
  obtain ⟨⟨status₂, hf₂, hp₂⟩, hlen₂⟩ := sendHeartbeat_visit hung hf₁ sendNow
  have hcycle : hb.periodicTaskProcess now sendNow =
      (((hb.checkForTimeouts now).1.sendHeartbeat sendNow).1,
        (hb.checkForTimeouts now).2 ++ ((hb.checkForTimeouts now).1.sendHeartbeat sendNow).2) := by
    simp only [HeartBeatTask.periodicTaskProcess]
    exact if_pos hrun
  rw [hcycle]
  rw [pending_afterCheck] at hp₂ hlen₂
  rw [overdue_eq] at hlen₁
  refine ⟨⟨hrun, rfl, rfl, status₂, hf₂, hp₂.trans (congrArg some ?_)⟩, ?_⟩
  · unfold cyclePending
    split_ifs <;> rfl
  · have hk : 0 < perTimeout hb := by unfold perTimeout; split_ifs <;> decide
    rw [concerning, List.filter_append, List.length_append]
    refine (congrArg₂ (· + ·) hlen₁ hlen₂).trans ?_
    cases pending status with
    | none => rfl
    | some last =>
        cases hover : timedOut hb.responseTimeoutMs now (some last) with
        | false => simp [cycleLoad, hover]
        | true =>
            simp only [cycleLoad, hover, Option.isNone_some, Option.isSome_none,
              Bool.false_eq_true, if_false, if_true]
            omega

/-! ### All cycles -/

/-- How many of the cycles find the heartbeat overdue: a cycle is its reading of the clock for the
check and the one for the next heartbeat, and `last` is when the pending heartbeat was sent. -/
def overdueCycles (timeoutMs : ℤ) : ℤ → List (ℤ × ℤ) → ℕ
  | _, [] => 0
  | last, (now, sent) :: cs =>
      if toMilliseconds (now - last) > timeoutMs then overdueCycles timeoutMs sent cs + 1
      else overdueCycles timeoutMs last cs

/-- The messages for the hung task: one if its first heartbeat is still to be sent, and those of
the overdue cycles. -/
def load (timeoutMs : ℤ) (k : ℕ) : Option ℤ → List (ℤ × ℤ) → ℕ
  | some last, cs => k * overdueCycles timeoutMs last cs
  | none, [] => 0
  | none, (_, sent) :: cs => 1 + k * overdueCycles timeoutMs sent cs

theorem load_nil (timeoutMs : ℤ) (k : ℕ) (p : Option ℤ) : load timeoutMs k p [] = 0 := by
  cases p with
  | none => rfl
  | some last => exact Nat.mul_zero k

theorem load_cons (timeoutMs : ℤ) (k : ℕ) (p : Option ℤ) (now sent : ℤ) (cs : List (ℤ × ℤ)) :
    load timeoutMs k p ((now, sent) :: cs) =
      cycleLoad timeoutMs k now p + load timeoutMs k (some (cyclePending timeoutMs now sent p)) cs := by
  cases p with
  | none => rfl
  | some last =>
      simp only [load, overdueCycles, cycleLoad, cyclePending, timedOut, Option.isNone_some,
        Bool.false_eq_true, if_false, decide_eq_true_eq]
      split_ifs
      · rw [Nat.mul_add, Nat.mul_one, Nat.add_comm]
      · rw [Nat.zero_add, Option.getD_some]

/-- The clock readings of a cycle that matter for the hung task. -/
def cycle? : MonitorEvent τ → Option (ℤ × ℤ)
  | .periodicTaskProcess now sendNow => some (now, sendNow hung)
  | _ => none

/-- The event is not an answer of the hung task. -/
def Unanswered : MonitorEvent τ → Prop
  | .handleAcknowledgment sender _ _ => sender ≠ some hung
  | _ => True

theorem run_grows {capacity : ℕ} {timeoutMs : ℤ} {k : ℕ} {es : List (MonitorEvent τ)}
    (hes : ∀ e ∈ es, Unanswered hung e) :
    ∀ {s : MonitorSystem τ} {p : Option ℤ}, QueueSystem.Settled capacity s.queue →
      Watching hung timeoutMs k s.monitor p →
        Grows capacity s (load timeoutMs k p (es.filterMap (cycle? hung)))
          (es.foldlM (step rep hung) s) (fun _ => True) := by
  induction es with
  | nil =>
      intro s p hq _
      rw [List.filterMap_nil, load_nil]
      exact .inl ⟨s, rfl, hq, rfl, trivial⟩
  | cons e es ih =>
      intro s p hq hw
      have ih := fun {s : MonitorSystem τ} {p : Option ℤ} => @ih
        (fun e he => hes e (List.mem_cons_of_mem _ he)) s p
      rw [List.foldlM_cons]
      cases e with
      | periodicTaskProcess now sendNow =>
          obtain ⟨hw', hlen⟩ := periodicTaskProcess_visit hung hw now sendNow
          rw [List.filterMap_cons_some (show cycle? hung _ = some (now, sendNow hung) from rfl),
            load_cons, ← hlen]
          rcases foldlM_perform_grows rep hung (s.monitor.periodicTaskProcess now sendNow).2
            (s := { s with monitor := (s.monitor.periodicTaskProcess now sendNow).1 }) hq with
            ⟨s₁, hs₁, hq₁, hsize, hm⟩ | ⟨he, hlt⟩
          · have hw₁ : Watching hung timeoutMs k s₁.monitor
                (some (cyclePending timeoutMs now (sendNow hung) p)) := by
              rw [hm]
              exact hw'
            simp only [step, hs₁]
            rcases ih hq₁ hw₁ with ⟨s', hs', hq', hsize', -⟩ | ⟨he, hlt⟩
            · exact .inl ⟨s', hs', hq', by simp only at hsize; omega, trivial⟩
            · exact .inr ⟨he, by simp only at hsize; omega⟩
          · simp only [step, he]
            exact .inr ⟨rfl, by simp only at hlt; omega⟩
      | handleAcknowledgment sender ack now =>
          have hsender : sender ≠ some hung := hes _ List.mem_cons_self
          obtain ⟨hrun, htimeout, hcost, status, hf, hp⟩ := hw
          refine ih hq ⟨hrun, htimeout, hcost, status, ?_, hp⟩
          rw [HeartBeatSystem.handleAcknowledgment_find?, if_neg hsender]
          exact hf
      | notifyTaskRegistered task now =>
          obtain ⟨hrun, htimeout, hcost, status, hf, hp⟩ := hw
          obtain ⟨m, hm⟩ := s.monitor.notifyTaskRegistered_frame task now
          refine ih hq ⟨?_, ?_, ?_, status, ?_, hp⟩
          · rw [hm]
            exact hrun
          · rw [hm]
            exact htimeout
          · rw [hm]
            exact hcost
          · rw [HeartBeatSystem.notifyTaskRegistered_find? _ _ _ (.inr (by simp [hf]))]
            exact hf

/-- **Monitoring a hung task.**  Take the queue of a task as any run left it, with no thread inside,
and a monitor in state `RUNNING`.  The cycles reach the assertion of `enqueue` exactly when the
messages queued, the first heartbeat if none is pending, and the messages of the overdue cycles
are more than the blocks of the queue. -/
theorem monitoring_survives_iff {msgSize base : ℕ} {m : Bytes.Mem} {nodes : ℕ → Node (Msg τ)}
    (hsize : sizeofPtr < msgSize) (hbase : 0 < base)
    (hend : base + msgSize * queueMsgCount < addressSpace) {q : MessageQueue (Msg τ)}
    (hq : MessageQueue.create msgSize queueMsgCount base m nodes = .ok q)
    {s₀ : QueueSystem (Msg τ)}
    (hreach : Reaches (QueueSystem.step Msg.getPriority rep) (.init q) s₀)
    (hheld : s₀.held = []) (hpopped : s₀.popped = none)
    {hb : HeartBeatTask τ} (hrun : hb.currentState = .running) {status : TaskStatus}
    (hf : hb.monitoredTasks.find? hung = some status) (manager : StateManager τ)
    {es : List (MonitorEvent τ)} (hes : ∀ e ∈ es, Unanswered hung e) :
    ((∃ s, es.foldlM (step rep hung) ⟨hb, manager, s₀.q⟩ = .ok s) ↔
      s₀.q.queue.size + load hb.responseTimeoutMs (perTimeout hb) (pending status)
        (es.filterMap (cycle? hung)) ≤ queueMsgCount) ∧
    (es.foldlM (step rep hung) ⟨hb, manager, s₀.q⟩ = .error .outOfMemory ↔
      queueMsgCount < s₀.q.queue.size + load hb.responseTimeoutMs (perTimeout hb) (pending status)
        (es.filterMap (cycle? hung))) := by
  obtain ⟨q', hq', -, -, -, hblocks⟩ :=
    QueueSystem.create_blocks m nodes hsize (by decide : 0 < queueMsgCount) hbase hend
  obtain rfl := Except.ok.inj (hq.symm.trans hq')
  have hsettled := (QueueSystem.reaches_blocks hblocks hreach).settled hheld hpopped
  have hgrows := run_grows rep hung hes (s := ⟨hb, manager, s₀.q⟩) hsettled
    ⟨hrun, rfl, rfl, status, hf, rfl⟩
  exact hgrows.ok_iff

/-- A monitor with the default timeout that watches task `1`. -/
def watchdog : HeartBeatTask ℕ :=
  { (HeartBeatTask.create 0 true 3000).notifyTaskRegistered 1 0 with currentState := .running }

/-- `n` cycles at the default interval of ten seconds. -/
def everyTenSeconds (n : ℕ) : List (MonitorEvent ℕ) :=
  (List.range n).map (fun i => .periodicTaskProcess (10000000000 * i) (fun _ => 10000000000 * i))

/-- With the default interval and timeout, 32 cycles just fit. -/
theorem monitoring_survives_iff_default : ∃ q s,
    MessageQueue.create 48 queueMsgCount 4096 (fun _ => 0)
      (fun _ => ⟨⟨none, .stateMsg ⟨0⟩⟩, 0⟩) = .ok q ∧
    (everyTenSeconds 32).foldlM (step (fun _ _ => 0) 1)
      ⟨watchdog, .create 2 .notStarted .notStarted, q⟩ = .ok s := by
  obtain ⟨q, hq, hempty, -⟩ := QueueSystem.create_blocks (fun _ => 0)
    (fun _ => (⟨⟨none, .stateMsg ⟨0⟩⟩, 0⟩ : Node (Msg ℕ))) (by decide : sizeofPtr < 48)
    (by decide : 0 < queueMsgCount) (by decide : 0 < 4096) (by decide)
  have hf : watchdog.monitoredTasks.find? 1 = some {} := by decide +kernel
  have hes : ∀ e ∈ everyTenSeconds 32, Unanswered 1 e := by simp [everyTenSeconds, Unanswered]
  have hiff := monitoring_survives_iff (fun _ _ => 0) 1 (by decide) (by decide) (by decide) hq
    (Reaches.refl (QueueSystem.init q)) rfl rfl rfl hf (.create 2 .notStarted .notStarted) hes
  obtain ⟨s, hs⟩ := hiff.1.mpr (by
    simp only [QueueSystem.init, hempty]
    decide +kernel)
  exact ⟨q, s, hq, hs⟩

/-- The 33rd cycle aborts the process. -/
theorem hung_task_exhausts_pool : ∃ q,
    MessageQueue.create 48 queueMsgCount 4096 (fun _ => 0)
      (fun _ => ⟨⟨none, .stateMsg ⟨0⟩⟩, 0⟩) = .ok q ∧
    (everyTenSeconds 33).foldlM (step (fun _ _ => 0) 1)
      ⟨watchdog, .create 2 .notStarted .notStarted, q⟩ = .error .outOfMemory := by
  obtain ⟨q, hq, hempty, -, -, hblocks⟩ := QueueSystem.create_blocks (fun _ => 0)
    (fun _ => (⟨⟨none, .stateMsg ⟨0⟩⟩, 0⟩ : Node (Msg ℕ))) (by decide : sizeofPtr < 48)
    (by decide : 0 < queueMsgCount) (by decide : 0 < 4096) (by decide)
  have hf : watchdog.monitoredTasks.find? 1 = some {} := by decide +kernel
  have hes : ∀ e ∈ everyTenSeconds 33, Unanswered 1 e := by simp [everyTenSeconds, Unanswered]
  have hgrows := run_grows (fun _ _ => 0) 1 hes
    (s := ⟨watchdog, .create 2 .notStarted .notStarted, q⟩) (hblocks.settled rfl rfl)
    ⟨rfl, rfl, rfl, {}, hf, rfl⟩
  refine ⟨q, hq, hgrows.ok_iff.2.mpr ?_⟩
  simp only [hempty]
  decide +kernel

end MonitorSystem

end Protocore
