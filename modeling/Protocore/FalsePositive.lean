import Protocore.StableQueue
import Protocore.HeartBeat

/-! # False positives of the monitor

The two threads of a `HeartBeatTask`, with any traffic into its queue: the periodic thread owns
`tasks_mutex` while it goes through the monitored tasks, one step for each of them, and the queue
thread needs that mutex to handle an acknowledgment.  Messages are enqueued at any time.

An acknowledgment counts for the heartbeat it answers when the queue thread handles it, while
`check_for_timeouts` looks at `awaiting_response` alone.  `spared_iff`: no task is reported for a
heartbeat that was answered in time exactly when the queue thread is prompt, that is, has handled an
answer whenever a check comes to the task late. -/

namespace Protocore

variable {τ : Type} [LinearOrder τ]

/-- Where the periodic thread is in `periodic_task_process`; `now` is the reading of the clock before
the loop of `check_for_timeouts`, and `rest` are the tasks to come. -/
inductive PeriodicStage (τ : Type) where
  | start
  | checking (now : ℤ) (rest : List τ)
  | testing
  | lockSend
  | sending (rest : List τ)
deriving DecidableEq

/-- The periodic thread owns `tasks_mutex`. -/
def PeriodicStage.ownsTasks : PeriodicStage τ → Bool
  | .checking _ _ => true
  | .sending _ => true
  | _ => false

/-- What was enqueued, with its time, and what was handled since a heartbeat was sent. -/
structure Since (τ : Type) where
  arrived : List (Msg τ × ℤ)
  handled : List (Msg τ)
deriving DecidableEq

/-- The monitor, its queue, the message its queue thread holds, and its periodic thread. -/
structure AckSystem (τ : Type) [LinearOrder τ] where
  monitor : HeartBeatTask τ
  /-- The steady clock, in nanoseconds. -/
  clock : ℤ
  queue : List (Msg τ)
  hand : Option (Msg τ)
  periodic : PeriodicStage τ
  /-- What happened since a task was sent its last heartbeat, if it was sent one. -/
  since : τ → Option (Since τ)

/-- Time passes, a message is enqueued, a thread takes its next step, or a task is registered. -/
inductive AckEvent (τ : Type) where
  | tick (d : ℕ)
  | arrive (msg : Msg τ)
  | dequeue
  | handle
  | periodic
  | notifyTaskRegistered (task : τ)
deriving DecidableEq

namespace AckSystem

/-- A monitor as its constructor leaves it. -/
def init (self : τ) (responseTimeoutMs clock : ℤ) : AckSystem τ :=
  ⟨.create self true responseTimeoutMs, clock, [], none, .start, fun _ => none⟩

/-- `HeartBeatTask::process_message`. -/
def processMessage (hb : HeartBeatTask τ) (msg : Msg τ) (now : ℤ) : HeartBeatTask τ :=
  match msg.msgData with
  | .stateMsg m => { hb with currentState := TaskState.ofByte m.state }
  | .heartbeatAckMsg ack => hb.handleAcknowledgment msg.sendingTask ack now
  | _ => hb

/-- `handle_acknowledgment` locks `tasks_mutex`. -/
def locksTasks (msg : Msg τ) : Bool := decide (msg.getType = .heartbeatAckMsg)

/-- The next step of the periodic thread. -/
def periodicStep (s : AckSystem τ) : AckSystem τ :=
  match s.periodic with
  | .start => { s with periodic := .checking s.clock s.monitor.monitored }
  | .checking _ [] => { s with periodic := .testing }
  | .checking now (task :: rest) =>
      { s with
        monitor := (s.monitor.checkTask now task).1
        periodic := .checking now rest }
  | .testing =>
      { s with periodic := if s.monitor.currentState = .running then .lockSend else .start }
  | .lockSend => { s with periodic := .sending s.monitor.monitored }
  | .sending [] => { s with periodic := .start }
  | .sending (task :: rest) =>
      { s with
        monitor := (s.monitor.sendTask (fun _ => s.clock) task).1
        periodic := .sending rest
        -- the task is sent a heartbeat unless one is pending
        since := if (s.monitor.sendTask (fun _ => s.clock) task).2 = [] then s.since
          else Function.update s.since task (some ⟨[], []⟩) }

/-- One atomic step. -/
def step (s : AckSystem τ) : AckEvent τ → Option (AckSystem τ)
  | .tick d => some { s with clock := s.clock + d }
  | .arrive msg =>
      if s.queue.length < queueMsgCount then
        some { s with
          queue := s.queue ++ [msg]
          since := fun t => (s.since t).map
            (fun x => { x with arrived := x.arrived ++ [(msg, s.clock)] }) }
      else none
  | .dequeue =>
      if s.hand.isNone then
        (StableQueue.pop Msg.getPriority s.queue).map
          (fun r => { s with queue := r.2, hand := some r.1 })
      else none
  | .handle =>
      s.hand.bind (fun msg =>
        if locksTasks msg && s.periodic.ownsTasks then none
        else
          some { s with
            monitor := processMessage s.monitor msg s.clock
            hand := none
            since := fun t => (s.since t).map
              (fun x => { x with handled := x.handled ++ [msg] }) })
  | .periodic => some s.periodicStep
  | .notifyTaskRegistered task =>
      if decide (task ≠ s.monitor.self) && s.periodic.ownsTasks then none
      else some { s with monitor := s.monitor.notifyTaskRegistered task s.clock }

/-! ### Answers -/

/-- The message is an acknowledgment of `t` for the last heartbeat of its record. -/
def acknowledges (t : τ) (status : TaskStatus) (msg : Msg τ) : Bool :=
  match msg.msgData with
  | .heartbeatAckMsg ack =>
      decide (msg.sendingTask = some t ∧ ack.origUniqueId = status.lastHeartbeatId)
  | _ => false

/-- An answer was enqueued no later than `response_timeout_ms` after the heartbeat was sent. -/
def AnsweredInTime (s : AckSystem τ) (t : τ) (status : TaskStatus) : Prop :=
  ∃ x ∈ s.since t, ∃ a ∈ x.arrived, acknowledges t status a.1 = true ∧
    a.2 - status.lastHeartbeatTime ≤ s.monitor.responseTimeoutMs * 1000000

/-- The queue thread has handled an answer. -/
def Handled (s : AckSystem τ) (t : τ) (status : TaskStatus) : Prop :=
  ∃ x ∈ s.since t, ∃ msg ∈ x.handled, acknowledges t status msg = true

/-- The record of `t` when `check_for_timeouts` comes to it next, with the reading of the clock. -/
def visited (s : AckSystem τ) (t : τ) : Option (ℤ × TaskStatus) :=
  match s.periodic with
  | .checking now (task :: _) =>
      if task = t then (s.monitor.monitoredTasks.find? t).map (fun status => (now, status)) else none
  | _ => none

/-- No check reports `t` for a heartbeat that was answered in time. -/
def Spared (t : τ) (s : AckSystem τ) (e : AckEvent τ) : Prop :=
  e = .periodic → ∀ r ∈ s.visited t,
    .unresponsive t r.2.lastHeartbeatId ∈ (s.monitor.checkTask r.1 t).2 → ¬ s.AnsweredInTime t r.2

/-- When a check comes to `t` late, and an answer was enqueued in time, one has been handled. -/
def Prompt (t : τ) (s : AckSystem τ) (e : AckEvent τ) : Prop :=
  e = .periodic → ∀ r ∈ s.visited t,
    s.monitor.responseTimeoutMs < toMilliseconds (r.1 - r.2.lastHeartbeatTime) →
      s.AnsweredInTime t r.2 → s.Handled t r.2

instance decidableAnsweredInTime (s : AckSystem τ) (t : τ) (status : TaskStatus) :
    Decidable (s.AnsweredInTime t status) := by
  unfold AnsweredInTime
  infer_instance

instance decidableHandled (s : AckSystem τ) (t : τ) (status : TaskStatus) :
    Decidable (s.Handled t status) := by
  unfold Handled
  infer_instance

instance decidableSpared (t : τ) (s : AckSystem τ) (e : AckEvent τ) : Decidable (Spared t s e) := by
  unfold Spared
  infer_instance

instance decidablePrompt (t : τ) (s : AckSystem τ) (e : AckEvent τ) : Decidable (Prompt t s e) := by
  unfold Prompt
  infer_instance

/-! ### The records and the answers -/

/-- The record of `t` awaits a response as long as no answer has been handled; one that awaits none
though its heartbeat is not answered was reported after the timeout. -/
structure Accounts (t : τ) (s : AckSystem τ) : Prop where
  manager : s.monitor.stateManager = true
  reading : ∀ now rest, s.periodic = .checking now rest → now ≤ s.clock
  unsent : s.monitor.monitoredTasks.find? t = none → s.since t = none
  awaiting : ∀ status, s.monitor.monitoredTasks.find? t = some status →
    status.awaitingResponse = true → ¬ s.Handled t status
  settled : ∀ status, s.monitor.monitoredTasks.find? t = some status →
    status.awaitingResponse = false → s.since t = none ∨ s.Handled t status ∨
      status.lastHeartbeatTime + s.monitor.responseTimeoutMs * 1000000 < s.clock ∧
        ¬ s.AnsweredInTime t status

/-- `duration_cast` rounds towards zero. -/
theorem lt_of_lt_toMilliseconds {timeout ns : ℤ} (h : timeout < toMilliseconds ns) :
    timeout * 1000000 < ns := by
  unfold toMilliseconds at h
  by_cases hns : 0 ≤ ns
  · rw [Int.tdiv_eq_ediv_of_nonneg hns] at h
    omega
  · have hneg : ns.tdiv 1000000 = -((-ns) / 1000000) := by
      rw [← Int.tdiv_eq_ediv_of_nonneg (by omega), Int.neg_tdiv, neg_neg]
    omega

section accounts
variable {t : τ} {s s' : AckSystem τ} {status : TaskStatus}

theorem init_accounts (t self : τ) (responseTimeoutMs clock : ℤ) :
    Accounts t (init self responseTimeoutMs clock) := by
  refine ⟨rfl, ?_, fun _ => rfl, ?_, ?_⟩
  · intro now rest hpc
    cases hpc
  · intro status hf
    cases hf
  · intro status hf
    cases hf

theorem Accounts.of_same (h : Accounts t s) (hman : s'.monitor.stateManager = true)
    (htimeout : s'.monitor.responseTimeoutMs = s.monitor.responseTimeoutMs)
    (hfind : s'.monitor.monitoredTasks.find? t = s.monitor.monitoredTasks.find? t)
    (hsince : s'.since t = s.since t) (hclock : s.clock ≤ s'.clock)
    (hpc : ∀ now rest, s'.periodic = .checking now rest → now ≤ s'.clock) : Accounts t s' := by
  have hhandled : ∀ status, s'.Handled t status ↔ s.Handled t status := by
    intro status
    simp only [Handled, hsince]
  have hanswered : ∀ status, s'.AnsweredInTime t status ↔ s.AnsweredInTime t status := by
    intro status
    simp only [AnsweredInTime, hsince, htimeout]
  refine ⟨hman, hpc, ?_, ?_, ?_⟩
  · rw [hfind, hsince]
    exact h.unsent
  · intro status hf hawait
    rw [hfind] at hf
    rw [hhandled]
    exact h.awaiting status hf hawait
  · intro status hf hawait
    rw [hfind] at hf
    rw [hsince, hhandled, hanswered, htimeout]
    rcases h.settled status hf hawait with hnone | hdone | ⟨hlate, hnot⟩
    · exact Or.inl hnone
    · exact Or.inr (Or.inl hdone)
    · exact Or.inr (Or.inr ⟨lt_of_lt_of_le hlate hclock, hnot⟩)

theorem arrive_accounts (h : Accounts t s) (msg : Msg τ) (hs : step s (.arrive msg) = some s') :
    Accounts t s' := by
  simp only [step] at hs
  split_ifs at hs
  obtain rfl := Option.some.inj hs
  have hhandled : ∀ status, Handled { s with
      queue := s.queue ++ [msg]
      since := fun u => (s.since u).map
        (fun x => { x with arrived := x.arrived ++ [(msg, s.clock)] }) } t status ↔
      s.Handled t status := by
    intro status
    simp [Handled]
  refine ⟨h.manager, h.reading, ?_, ?_, ?_⟩
  · intro hf
    simp [h.unsent hf]
  · intro status hf hawait
    rw [hhandled]
    exact h.awaiting status hf hawait
  · intro status hf hawait
    rw [hhandled]
    rcases h.settled status hf hawait with hnone | hdone | ⟨hlate, hnot⟩
    · exact Or.inl (by simp [hnone])
    · exact Or.inr (Or.inl hdone)
    · refine Or.inr (Or.inr ⟨hlate, ?_⟩)
      rintro ⟨x', hx', a, ha, hack, htime⟩
      obtain ⟨x, hx, rfl⟩ := Option.map_eq_some_iff.mp hx'
      rcases List.mem_append.mp ha with ha | ha
      · exact hnot ⟨x, hx, a, ha, hack, htime⟩
      · obtain rfl := List.mem_singleton.mp ha
        simp only at htime hlate
        omega

/-- What handling a message does to the record of `t`: an answer stops the waiting. -/
theorem processMessage_find? (hb : HeartBeatTask τ) (msg : Msg τ) (now : ℤ) (t : τ) :
    (processMessage hb msg now).monitoredTasks.find? t =
      (hb.monitoredTasks.find? t).map (fun status => if acknowledges t status msg then
        { status with awaitingResponse := false, lastResponseTime := now } else status) := by
  obtain ⟨sender, data⟩ := msg
  cases data with
  | heartbeatAckMsg ack =>
      simp only [processMessage, HeartBeatSystem.handleAcknowledgment_find?, acknowledges]
      by_cases hsender : sender = some t
      · subst hsender
        rw [if_pos rfl]
        refine congrArg (fun f => Option.map f _) (funext fun status => ?_)
        simp [HeartBeatTask.acknowledgeStatus, eq_comm]
      · simp [hsender]
  | stateMsg m => simp [processMessage, acknowledges]
  | stateAckMsg m => simp [processMessage, acknowledges]
  | heartbeatMsg m => simp [processMessage, acknowledges]

theorem processMessage_frame (hb : HeartBeatTask τ) (msg : Msg τ) (now : ℤ) :
    ∃ st m, processMessage hb msg now = { hb with currentState := st, monitoredTasks := m } := by
  unfold processMessage
  split
  · exact ⟨_, _, rfl⟩
  · exact ⟨_, _, rfl⟩
  · exact ⟨_, _, rfl⟩

theorem handle_accounts (h : Accounts t s) (hs : step s .handle = some s') : Accounts t s' := by
  simp only [step] at hs
  obtain ⟨msg, -, hs⟩ := Option.bind_eq_some_iff.mp hs
  split_ifs at hs
  obtain rfl := Option.some.inj hs
  obtain ⟨st, m, hmonitor⟩ := processMessage_frame s.monitor msg s.clock
  have hfind := processMessage_find? s.monitor msg s.clock t
  rw [hmonitor] at hfind ⊢
  refine ⟨h.manager, h.reading, ?_, ?_, ?_⟩
  · intro hnone
    have hold := Option.map_eq_none_iff.mp (hfind.symm.trans hnone)
    simp [h.unsent hold]
  · intro status' hf hawait
    obtain ⟨status, hold, hstatus⟩ := Option.map_eq_some_iff.mp (hfind.symm.trans hf)
    split_ifs at hstatus with hack
    · subst hstatus
      cases hawait
    · subst hstatus
      rintro ⟨x', hx', msg', hmsg', hack'⟩
      obtain ⟨x, hx, rfl⟩ := Option.map_eq_some_iff.mp hx'
      rcases List.mem_append.mp hmsg' with hmsg' | hmsg'
      · exact h.awaiting status hold hawait ⟨x, hx, msg', hmsg', hack'⟩
      · obtain rfl := List.mem_singleton.mp hmsg'
        exact hack hack'
  · intro status' hf hawait
    obtain ⟨status, hold, hstatus⟩ := Option.map_eq_some_iff.mp (hfind.symm.trans hf)
    cases hsince : s.since t with
    | none => exact Or.inl (by simp [hsince])
    | some x =>
        split_ifs at hstatus with hack
        · subst hstatus
          exact Or.inr (Or.inl ⟨_, Option.map_eq_some_iff.mpr ⟨x, hsince, rfl⟩, msg,
            List.mem_append_right _ List.mem_cons_self, hack⟩)
        · subst hstatus
          rcases h.settled status hold hawait with hnone | ⟨y, hy, msg', hmsg', hack'⟩ | ⟨hlate, hnot⟩
          · exact absurd (hsince.symm.trans hnone) (by simp)
          · exact Or.inr (Or.inl ⟨_, Option.map_eq_some_iff.mpr ⟨y, hy, rfl⟩, msg',
              List.mem_append_left _ hmsg', hack'⟩)
          · refine Or.inr (Or.inr ⟨hlate, ?_⟩)
            rintro ⟨x', hx', a, ha, hin⟩
            obtain ⟨y, hy, rfl⟩ := Option.map_eq_some_iff.mp hx'
            exact hnot ⟨y, hy, a, ha, hin⟩

theorem notifyTaskRegistered_accounts (h : Accounts t s) {task : τ}
    (hs : step s (.notifyTaskRegistered task) = some s') : Accounts t s' := by
  simp only [step] at hs
  split_ifs at hs
  obtain rfl := Option.some.inj hs
  obtain ⟨m, hm⟩ := s.monitor.notifyTaskRegistered_frame task s.clock
  by_cases hknown : t ≠ task ∨ (s.monitor.monitoredTasks.find? t).isSome
  · have hfind := HeartBeatSystem.notifyTaskRegistered_find? s.monitor task s.clock hknown
    rw [hm] at hfind ⊢
    exact h.of_same h.manager rfl hfind rfl le_rfl h.reading
  · rw [not_or, not_not, Option.not_isSome_iff_eq_none] at hknown
    obtain ⟨rfl, hnone⟩ := hknown
    have hsince := h.unsent hnone
    refine ⟨?_, h.reading, fun _ => hsince, ?_, fun _ _ _ => Or.inl hsince⟩
    · rw [hm]
      exact h.manager
    · rintro status - - ⟨x, hx, -⟩
      exact absurd (hsince.symm.trans hx) (by simp)

/-- The check comes to `t`: an overdue record stops waiting although no answer was handled. -/
theorem checkTask_accounts (h : Accounts t s) (hprompt : Prompt t s .periodic) {now : ℤ} {task : τ}
    {rest : List τ} (hpc : s.periodic = .checking now (task :: rest)) :
    Accounts t { s with
      monitor := (s.monitor.checkTask now task).1
      periodic := .checking now rest } := by
  have hclock := h.reading now _ hpc
  have hreading : ∀ now' rest', PeriodicStage.checking now rest = .checking now' rest' →
      now' ≤ s.clock := by
    rintro now' rest' ⟨⟩
    exact hclock
  by_cases htask : task = t
  · subst htask
    cases hf : s.monitor.monitoredTasks.find? task with
    | none =>
        rw [HeartBeatTask.checkTask_of_find?_none hf]
        exact h.of_same h.manager rfl rfl rfl le_rfl hreading
    | some status =>
        cases hover : s.monitor.overdue now status with
        | false =>
            rw [HeartBeatTask.checkTask_of_not_overdue hf hover]
            exact h.of_same h.manager rfl rfl rfl le_rfl hreading
        | true =>
            rw [HeartBeatTask.checkTask_of_overdue hf hover]
            obtain ⟨hawait, hlate⟩ := Bool.and_eq_true_iff.mp hover
            have hlate := of_decide_eq_true hlate
            have hnot : ¬ s.AnsweredInTime task status := by
              intro hin
              refine h.awaiting status hf hawait (hprompt rfl (now, status) ?_ hlate hin)
              simp [visited, hpc, hf]
            refine ⟨h.manager, hreading, ?_, ?_, ?_⟩
            · intro hnone
              rw [OrdMap.find?_insert, if_pos rfl] at hnone
              cases hnone
            · intro status' hf' hawait'
              rw [OrdMap.find?_insert, if_pos rfl] at hf'
              obtain rfl := Option.some.inj hf'
              cases hawait'
            · intro status' hf' _
              rw [OrdMap.find?_insert, if_pos rfl] at hf'
              obtain rfl := Option.some.inj hf'
              have hlate := lt_of_lt_toMilliseconds hlate
              refine Or.inr (Or.inr ⟨?_, hnot⟩)
              simp only
              omega
  · refine h.of_same h.manager rfl ?_ rfl le_rfl hreading
    exact HeartBeatTask.checkTask_find?_of_ne now s.monitor (Ne.symm htask)

/-- A task that is sent a heartbeat has no answer to it yet. -/
theorem sendTask_accounts (h : Accounts t s) {task : τ} {rest : List τ}
    (hpc : s.periodic = .sending (task :: rest)) : Accounts t s.periodicStep := by
  simp only [periodicStep, hpc]
  have hreading : ∀ now' rest', PeriodicStage.sending rest = .checking now' rest' →
      now' ≤ s.clock := by
    rintro now' rest' ⟨⟩
  cases hf : s.monitor.monitoredTasks.find? task with
  | none =>
      rw [HeartBeatTask.sendTask_of_find?_none hf]
      exact h.of_same h.manager rfl rfl rfl le_rfl hreading
  | some status =>
      cases hawait : status.awaitingResponse with
      | true =>
          rw [HeartBeatTask.sendTask_of_awaiting hf hawait]
          exact h.of_same h.manager rfl rfl rfl le_rfl hreading
      | false =>
          rw [HeartBeatTask.sendTask_of_not_awaiting hf hawait]
          by_cases htask : t = task
          · subst htask
            have hsince : (Function.update s.since t (some ⟨[], []⟩)) t = some ⟨[], []⟩ :=
              Function.update_self ..
            refine ⟨h.manager, hreading, ?_, ?_, ?_⟩
            · intro hnone
              rw [OrdMap.find?_insert, if_pos rfl] at hnone
              cases hnone
            · rintro status' - - ⟨x, hx, msg, hmsg, -⟩
              obtain rfl := Option.some.inj (hsince.symm.trans hx)
              cases hmsg
            · intro status' hf' hawait'
              rw [OrdMap.find?_insert, if_pos rfl] at hf'
              obtain rfl := Option.some.inj hf'
              cases hawait'
          · refine h.of_same h.manager rfl ?_ ?_ le_rfl hreading
            · exact OrdMap.find?_insert_of_ne _ htask _
            · exact Function.update_of_ne htask _ _

theorem periodic_accounts (h : Accounts t s) (hprompt : Prompt t s .periodic) :
    Accounts t s.periodicStep := by
  cases hpc : s.periodic with
  | start =>
      simp only [periodicStep, hpc]
      refine h.of_same h.manager rfl rfl rfl le_rfl ?_
      rintro now rest ⟨⟩
      exact le_rfl
  | checking now rest =>
      cases rest with
      | nil =>
          simp only [periodicStep, hpc]
          exact h.of_same h.manager rfl rfl rfl le_rfl (by rintro now rest ⟨⟩)
      | cons task rest =>
          simp only [periodicStep, hpc]
          exact checkTask_accounts h hprompt hpc
  | testing =>
      simp only [periodicStep, hpc]
      refine h.of_same h.manager rfl rfl rfl le_rfl ?_
      intro now rest hstage
      simp only at hstage
      split_ifs at hstage
  | lockSend =>
      simp only [periodicStep, hpc]
      exact h.of_same h.manager rfl rfl rfl le_rfl (by rintro now rest ⟨⟩)
  | sending rest =>
      cases rest with
      | nil =>
          simp only [periodicStep, hpc]
          exact h.of_same h.manager rfl rfl rfl le_rfl (by rintro now rest ⟨⟩)
      | cons task rest => exact sendTask_accounts h hpc

theorem step_accounts {e : AckEvent τ} (h : Accounts t s) (hprompt : Prompt t s e)
    (hs : step s e = some s') : Accounts t s' := by
  cases e with
  | tick d =>
      obtain rfl := Option.some.inj hs
      refine h.of_same h.manager rfl rfl rfl (by simp) ?_
      intro now rest hpc
      have hreading := h.reading now rest hpc
      simp only
      omega
  | arrive msg => exact arrive_accounts h msg hs
  | dequeue =>
      simp only [step] at hs
      split_ifs at hs
      obtain ⟨r, -, rfl⟩ := Option.map_eq_some_iff.mp hs
      exact h.of_same h.manager rfl rfl rfl le_rfl h.reading
  | handle => exact handle_accounts h hs
  | periodic =>
      obtain rfl := Option.some.inj hs
      exact periodic_accounts h hprompt
  | notifyTaskRegistered task => exact notifyTaskRegistered_accounts h hs

theorem Accounts.prompt_iff (h : Accounts t s) (e : AckEvent τ) : Prompt t s e ↔ Spared t s e := by
  have hvisited : ∀ r ∈ s.visited t, s.monitor.monitoredTasks.find? t = some r.2 := by
    intro r hr
    unfold visited at hr
    split at hr
    · split_ifs at hr
      · obtain ⟨status, hf, rfl⟩ := Option.map_eq_some_iff.mp hr
        exact hf
      · cases hr
    · cases hr
  constructor
  · rintro hprompt rfl ⟨now, status⟩ hr hrep hin
    have hf := hvisited _ hr
    cases hover : s.monitor.overdue now status with
    | false =>
        rw [HeartBeatTask.checkTask_of_not_overdue hf hover] at hrep
        cases hrep
    | true =>
        obtain ⟨hawait, hlate⟩ := Bool.and_eq_true_iff.mp hover
        exact h.awaiting status hf hawait (hprompt rfl _ hr (of_decide_eq_true hlate) hin)
  · rintro hspared rfl ⟨now, status⟩ hr hlate hin
    have hf := hvisited _ hr
    cases hawait : status.awaitingResponse with
    | true =>
        have hover : s.monitor.overdue now status = true := by
          rw [HeartBeatTask.overdue, hawait, Bool.true_and]
          exact decide_eq_true hlate
        refine absurd hin (hspared rfl (now, status) hr ?_)
        rw [HeartBeatTask.checkTask_of_overdue hf hover, HeartBeatTask.handleUnresponsiveTask,
          if_pos h.manager]
        exact List.mem_cons_self
    | false =>
        rcases h.settled status hf hawait with hnone | hdone | ⟨-, hnot⟩
        · obtain ⟨x, hx, -⟩ := hin
          exact absurd (hnone.symm.trans hx) (by simp)
        · exact hdone
        · exact absurd hin hnot

end accounts

/-- **No false positive, and when.**  In every interleaving of the two threads of a monitor with any
traffic into its queue, a task is never reported for a heartbeat that was answered in time exactly
when the queue thread has handled an answer whenever a check comes to the task late. -/
theorem spared_iff (t self : τ) (responseTimeoutMs clock : ℤ) (es : List (AckEvent τ)) :
    Along step (Spared t) (init self responseTimeoutMs clock) es ↔
      Along step (Prompt t) (init self responseTimeoutMs clock) es :=
  (along_congr (P := Accounts t) (fun _ _ _ h hprompt hs => step_accounts h hprompt hs)
    (fun _ e h => h.prompt_iff e) (init_accounts t self responseTimeoutMs clock)).symm

/-- The monitor is put into `RUNNING`, checks its tasks and comes to the loop that sends. -/
def started (tasks : List ℕ) : List (AckEvent ℕ) :=
  tasks.map .notifyTaskRegistered ++ [.arrive ⟨none, .stateMsg ⟨2⟩⟩, .dequeue, .handle] ++
    List.replicate (tasks.length + 4) .periodic

/-- Task `1` answers while the monitor is about to send to task `2`; the answer is handled before
the check that comes to task `1` after the timeout. -/
theorem spared_while_sending : ∃ s : AckSystem ℕ,
    run step (init 0 3000 0) (started [1, 2] ++
      [.periodic, .tick 1000000, .arrive ⟨some 1, .heartbeatAckMsg ⟨1, 0, 0⟩⟩, .dequeue, .periodic,
        .periodic, .handle, .tick 3000000000, .periodic]) = some s ∧
    (∃ r ∈ s.visited 1, 3000 < toMilliseconds (r.1 - r.2.lastHeartbeatTime) ∧
      s.AnsweredInTime 1 r.2) ∧
    Along step (Spared 1) (init 0 3000 0) (started [1, 2] ++
      [.periodic, .tick 1000000, .arrive ⟨some 1, .heartbeatAckMsg ⟨1, 0, 0⟩⟩, .dequeue, .periodic,
        .periodic, .handle, .tick 3000000000, .periodic, .periodic]) := by
  have heval : (run step (init (0 : ℕ) 3000 0) (started [1, 2] ++
      [.periodic, .tick 1000000, .arrive ⟨some 1, .heartbeatAckMsg ⟨1, 0, 0⟩⟩, .dequeue, .periodic,
        .periodic, .handle, .tick 3000000000, .periodic])).map (fun s => decide (
      ∃ r ∈ s.visited 1, 3000 < toMilliseconds (r.1 - r.2.lastHeartbeatTime) ∧
        s.AnsweredInTime 1 r.2)) = some true := by decide +kernel
  obtain ⟨s, hrun, hval⟩ := Option.map_eq_some_iff.mp heval
  exact ⟨s, hrun, of_decide_eq_true hval, (spared_iff 1 0 3000 0 _).mpr (by decide +kernel)⟩

/-- A heartbeat is sent to task `1`, its acknowledgment is enqueued one millisecond later, a
`StateMsg` overtakes it, and three seconds pass before the queue thread comes to it. -/
def overtakenAck : List (AckEvent ℕ) :=
  started [1] ++ [.periodic, .periodic, .tick 1000000,
    .arrive ⟨some 1, .heartbeatAckMsg ⟨1, 0, 0⟩⟩, .arrive ⟨none, .stateMsg ⟨2⟩⟩, .dequeue,
    .tick 3000000000, .periodic]

/-- The check that has just begun reports task `1`. -/
theorem reported_in_time : ∃ s : AckSystem ℕ,
    run step (init 0 3000 0) overtakenAck = some s ∧
    (∃ r ∈ s.visited 1, .unresponsive 1 r.2.lastHeartbeatId ∈ (s.monitor.checkTask r.1 1).2 ∧
      s.AnsweredInTime 1 r.2) ∧
    ¬ Along step (Spared 1) (init 0 3000 0) (overtakenAck ++ [.periodic]) := by
  have heval : (run step (init (0 : ℕ) 3000 0) overtakenAck).map (fun s => decide (
      ∃ r ∈ s.visited 1, .unresponsive 1 r.2.lastHeartbeatId ∈ (s.monitor.checkTask r.1 1).2 ∧
        s.AnsweredInTime 1 r.2)) = some true := by decide +kernel
  obtain ⟨s, hrun, hval⟩ := Option.map_eq_some_iff.mp heval
  obtain ⟨r, hr, hrep, hin⟩ := of_decide_eq_true hval
  refine ⟨s, hrun, ⟨r, hr, hrep, hin⟩, fun halong => ?_⟩
  exact ((along_append.mp halong).2 s hrun).1 rfl r hr hrep hin

end AckSystem

end Protocore
