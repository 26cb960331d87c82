import Protocore.Run
import Protocore.OrdMap
import Protocore.Msg
import Mathlib.Data.List.Count
import Mathlib.Data.UInt

/-! # The heartbeat monitor

`HeartBeatTask` (`heart_beat.cpp`).  Each of `check_for_timeouts`, `send_heartbeat`,
`handle_acknowledgment` and `notify_task_registered` is one critical section of `tasks_mutex`,
hence one step of the system.  Times are readings of the steady clock in nanoseconds, and
`duration_cast<milliseconds>` truncates.

`HeartBeatSystem` adds the history of everything the monitor sent, was answered and reported.
What a heartbeat still waits for is read off that history alone (`Unresolved`); the records of
`monitored_tasks` are then proved to agree with it (`Tracks`), whatever acknowledgments arrive.

`exactly_once_verdicts` is the main result. -/

namespace Protocore

variable {τ : Type} [LinearOrder τ]

/-- `HeartBeatTask::TaskStatus`. -/
structure TaskStatus where
  awaitingResponse : Bool := false
  lastHeartbeatId : UInt32 := 0
  lastHeartbeatTime : ℤ := 0
  lastResponseTime : ℤ := 0
deriving DecidableEq, Repr

/-- `HeartBeatTask`; `stateManager` says that the pointer is not null. -/
structure HeartBeatTask (τ : Type) [LinearOrder τ] where
  self : τ
  currentState : TaskState
  stateManager : Bool
  responseTimeoutMs : ℤ
  nextHeartbeatId : UInt32
  unresponsiveAction : TaskState
  monitoredTasks : OrdMap τ TaskStatus

/-- What the monitor does to other tasks: `deliver_message` of a heartbeat, and
`mark_task_as_unresponsive` for the heartbeat that the warning names. -/
inductive HeartBeatEffect (τ : Type) where
  | heartbeat (task : τ) (msg : HeartbeatMsg)
  | unresponsive (task : τ) (heartbeatId : UInt32)
deriving DecidableEq

/-- `duration_cast<milliseconds>` of a number of nanoseconds. -/
def toMilliseconds (ns : ℤ) : ℤ := ns.tdiv 1000000

namespace HeartBeatTask

/-- The constructor. -/
def create (self : τ) (stateManager : Bool) (responseTimeoutMs : ℤ) : HeartBeatTask τ where
  self := self
  currentState := .notStarted
  stateManager := stateManager
  responseTimeoutMs := responseTimeoutMs
  nextHeartbeatId := 1
  unresponsiveAction := .error
  monitoredTasks := .empty

/-- `notify_task_registered`: the monitor does not watch itself, and a known task keeps its
status. -/
def notifyTaskRegistered (hb : HeartBeatTask τ) (task : τ) (now : ℤ) : HeartBeatTask τ :=
  if task = hb.self then hb
  else
    match hb.monitoredTasks.find? task with
    | some _ => hb
    | none =>
        { hb with monitoredTasks := hb.monitoredTasks.insert task { lastResponseTime := now } }

theorem notifyTaskRegistered_frame (hb : HeartBeatTask τ) (task : τ) (now : ℤ) :
    ∃ m, hb.notifyTaskRegistered task now = { hb with monitoredTasks := m } := by
  unfold notifyTaskRegistered
  split_ifs
  · exact ⟨_, rfl⟩
  · split <;> exact ⟨_, rfl⟩

/-- `handle_unresponsive_task`. -/
def handleUnresponsiveTask (hb : HeartBeatTask τ) (task : τ) (heartbeatId : UInt32) :
    List (HeartBeatEffect τ) :=
  if hb.stateManager then [.unresponsive task heartbeatId] else []

/-- The condition of the two tests in `check_for_timeouts`. -/
def overdue (hb : HeartBeatTask τ) (now : ℤ) (status : TaskStatus) : Bool :=
  status.awaitingResponse &&
    decide (toMilliseconds (now - status.lastHeartbeatTime) > hb.responseTimeoutMs)

/-- The body of the loop of `check_for_timeouts`. -/
def checkStatus (hb : HeartBeatTask τ) (now : ℤ) (effects : List (HeartBeatEffect τ)) (task : τ)
    (status : TaskStatus) : List (HeartBeatEffect τ) × TaskStatus :=
  if hb.overdue now status then
    (effects ++ hb.handleUnresponsiveTask task status.lastHeartbeatId,
      { status with awaitingResponse := false })
  else (effects, status)

/-- `check_for_timeouts`; the clock is read once, before the loop. -/
def checkForTimeouts (hb : HeartBeatTask τ) (now : ℤ) :
    HeartBeatTask τ × List (HeartBeatEffect τ) :=
  let r := hb.monitoredTasks.forEach (hb.checkStatus now) []
  ({ hb with monitoredTasks := r.2 }, r.1)

/-- The body of the loop of `send_heartbeat`; the variable is the identifier counter with the
heartbeats sent so far.  The clock is read in each iteration that sends: `now task` is the reading
made for `task`. -/
def sendStatus (now : τ → ℤ) (acc : UInt32 × List (HeartBeatEffect τ)) (task : τ)
    (status : TaskStatus) : (UInt32 × List (HeartBeatEffect τ)) × TaskStatus :=
  if status.awaitingResponse then (acc, status)
  else
    let currentTime := now task
    -- generate_heartbeat_id(): next_heartbeat_id++
    let heartbeatId := acc.1
    let heartbeat : HeartbeatMsg := ⟨heartbeatId, UInt64.ofInt (toMilliseconds currentTime)⟩
    ((acc.1 + 1, acc.2 ++ [.heartbeat task heartbeat]),
      { status with
        awaitingResponse := true
        lastHeartbeatId := heartbeatId
        lastHeartbeatTime := currentTime })

/-- `send_heartbeat`. -/
def sendHeartbeat (hb : HeartBeatTask τ) (now : τ → ℤ) :
    HeartBeatTask τ × List (HeartBeatEffect τ) :=
  let r := hb.monitoredTasks.forEach (sendStatus now) (hb.nextHeartbeatId, [])
  ({ hb with nextHeartbeatId := r.1.1, monitoredTasks := r.2 }, r.1.2)

/-- The body of the loop of `handle_acknowledgment`, at the entry of the sender. -/
def acknowledgeStatus (origUniqueId : UInt32) (now : ℤ) (status : TaskStatus) : TaskStatus :=
  if status.lastHeartbeatId = origUniqueId then
    { status with awaitingResponse := false, lastResponseTime := now }
  else status

/-- `handle_acknowledgment`: the loop leaves at the entry of the sender. -/
def handleAcknowledgment (hb : HeartBeatTask τ) (sender : Option τ) (ack : HeartbeatAckMsg)
    (now : ℤ) : HeartBeatTask τ :=
  { hb with
    monitoredTasks := hb.monitoredTasks.modifyFirst (fun task => decide (some task = sender))
      (acknowledgeStatus ack.origUniqueId now) }

/-- `periodic_task_process`. -/
def periodicTaskProcess (hb : HeartBeatTask τ) (now : ℤ) (sendNow : τ → ℤ) :
    HeartBeatTask τ × List (HeartBeatEffect τ) :=
  let checked := hb.checkForTimeouts now
  if checked.1.currentState = .running then
    let sent := checked.1.sendHeartbeat sendNow
    (sent.1, checked.2 ++ sent.2)
  else checked

/-! ### The loops, one task at a time -/

/-- The tasks in the order of the map. -/
def monitored (hb : HeartBeatTask τ) : List τ := hb.monitoredTasks.entries.map Prod.fst

/-- The iteration of `check_for_timeouts` at one task. -/
def checkTask (now : ℤ) (hb : HeartBeatTask τ) (task : τ) :
    HeartBeatTask τ × List (HeartBeatEffect τ) :=
  let r := OrdMap.visit (hb.checkStatus now) ([], hb.monitoredTasks) task
  ({ hb with monitoredTasks := r.2 }, r.1)

/-- The iteration of `send_heartbeat` at one task. -/
def sendTask (now : τ → ℤ) (hb : HeartBeatTask τ) (task : τ) :
    HeartBeatTask τ × List (HeartBeatEffect τ) :=
  let r := OrdMap.visit (sendStatus now) ((hb.nextHeartbeatId, []), hb.monitoredTasks) task
  ({ hb with nextHeartbeatId := r.1.1, monitoredTasks := r.2 }, r.1.2)

/-- One iteration after the other, with everything they do to other tasks. -/
def eachTask (f : HeartBeatTask τ → τ → HeartBeatTask τ × List (HeartBeatEffect τ)) :
    HeartBeatTask τ → List τ → HeartBeatTask τ × List (HeartBeatEffect τ)
  | hb, [] => (hb, [])
  | hb, task :: rest =>
      let r := eachTask f (f hb task).1 rest
      (r.1, (f hb task).2 ++ r.2)

section iterations
variable {hb : HeartBeatTask τ} {t : τ} {status : TaskStatus} {now : ℤ}

theorem checkTask_of_find?_none (h : hb.monitoredTasks.find? t = none) :
    hb.checkTask now t = (hb, []) := by
  simp only [checkTask, OrdMap.visit_of_find?_none (r := ([], hb.monitoredTasks)) h]

theorem checkTask_of_overdue (h : hb.monitoredTasks.find? t = some status)
    (hover : hb.overdue now status = true) : hb.checkTask now t =
      ({ hb with monitoredTasks :=
          hb.monitoredTasks.insert t { status with awaitingResponse := false } },
        hb.handleUnresponsiveTask t status.lastHeartbeatId) := by
  simp only [checkTask, OrdMap.visit_of_find? (r := ([], hb.monitoredTasks)) h, checkStatus, hover,
    if_true, List.nil_append]

theorem checkTask_of_not_overdue (h : hb.monitoredTasks.find? t = some status)
    (hover : hb.overdue now status = false) : hb.checkTask now t = (hb, []) := by
  simp only [checkTask, OrdMap.visit_of_find? (r := ([], hb.monitoredTasks)) h, checkStatus, hover,
    Bool.false_eq_true, if_false, OrdMap.insert_of_find? h]

theorem sendTask_of_find?_none {now : τ → ℤ} (h : hb.monitoredTasks.find? t = none) :
    hb.sendTask now t = (hb, []) := by
  simp only [sendTask, OrdMap.visit_of_find?_none (r := ((_, []), hb.monitoredTasks)) h]

theorem sendTask_of_awaiting {now : τ → ℤ} (h : hb.monitoredTasks.find? t = some status)
    (hawait : status.awaitingResponse = true) : hb.sendTask now t = (hb, []) := by
  simp only [sendTask, OrdMap.visit_of_find? (r := ((_, []), hb.monitoredTasks)) h, sendStatus,
    hawait, if_true, OrdMap.insert_of_find? h]

theorem sendTask_of_not_awaiting {now : τ → ℤ} (h : hb.monitoredTasks.find? t = some status)
    (hawait : status.awaitingResponse = false) : hb.sendTask now t =
      ({ hb with
          nextHeartbeatId := hb.nextHeartbeatId + 1
          monitoredTasks := hb.monitoredTasks.insert t { status with
            awaitingResponse := true
            lastHeartbeatId := hb.nextHeartbeatId
            lastHeartbeatTime := now t } },
        [.heartbeat t ⟨hb.nextHeartbeatId, UInt64.ofInt (toMilliseconds (now t))⟩]) := by
  simp only [sendTask, OrdMap.visit_of_find? (r := ((_, []), hb.monitoredTasks)) h, sendStatus,
    hawait, Bool.false_eq_true, if_false, List.nil_append]

theorem checkTask_find?_of_ne (now : ℤ) (hb : HeartBeatTask τ) {task : τ} (h : t ≠ task) :
    (hb.checkTask now task).1.monitoredTasks.find? t = hb.monitoredTasks.find? t :=
  OrdMap.visit_find?_of_ne _ _ h

theorem sendTask_find?_of_ne (now : τ → ℤ) (hb : HeartBeatTask τ) {task : τ} (h : t ≠ task) :
    (hb.sendTask now task).1.monitoredTasks.find? t = hb.monitoredTasks.find? t :=
  OrdMap.visit_find?_of_ne _ _ h

end iterations

/-- A loop each of whose iterations does what `body` does, after what has been done before. -/
theorem foldl_eachTask {α : Type*} (visit : α → τ → α)
    (body : HeartBeatTask τ → τ → HeartBeatTask τ × List (HeartBeatEffect τ))
    (view : α → HeartBeatTask τ × List (HeartBeatEffect τ))
    (hvisit : ∀ r task, view (visit r task) =
      ((body (view r).1 task).1, (view r).2 ++ (body (view r).1 task).2)) :
    ∀ (tasks : List τ) (r : α), view (tasks.foldl visit r) =
      ((eachTask body (view r).1 tasks).1, (view r).2 ++ (eachTask body (view r).1 tasks).2)
  | [], r => by simp only [List.foldl_nil, eachTask, List.append_nil]
  | task :: tasks, r => by
      rw [List.foldl_cons, foldl_eachTask visit body view hvisit tasks, hvisit]
      simp only [eachTask, List.append_assoc]

theorem visit_checkStatus (hb : HeartBeatTask τ) (now : ℤ)
    (r : List (HeartBeatEffect τ) × OrdMap τ TaskStatus) (task : τ) :
    OrdMap.visit (hb.checkStatus now) r task =
      (r.1 ++ (checkTask now { hb with monitoredTasks := r.2 } task).2,
        (checkTask now { hb with monitoredTasks := r.2 } task).1.monitoredTasks) := by
  cases hf : r.2.find? task with
  | none => rw [OrdMap.visit_of_find?_none hf, checkTask_of_find?_none hf, List.append_nil]
  | some status =>
      rw [OrdMap.visit_of_find? hf]
      -- the records do not enter the test
      have hsame : ({ hb with monitoredTasks := r.2 } : HeartBeatTask τ).overdue now status =
        hb.overdue now status := rfl
      cases hover : hb.overdue now status with
      | false =>
          rw [checkTask_of_not_overdue hf (hsame.trans hover), List.append_nil]
          simp only [checkStatus, hover, Bool.false_eq_true, if_false, OrdMap.insert_of_find? hf]
      | true =>
          rw [checkTask_of_overdue hf (hsame.trans hover)]
          simp only [checkStatus, hover, if_true]
          rfl

/-- `check_for_timeouts` is its iterations. -/
theorem checkForTimeouts_eq_eachTask (hb : HeartBeatTask τ) (now : ℤ) :
    hb.checkForTimeouts now = eachTask (checkTask now) hb hb.monitored := by
  have hloop := foldl_eachTask (OrdMap.visit (hb.checkStatus now)) (checkTask now)
    (fun r => ({ hb with monitoredTasks := r.2 }, r.1))
    (fun r task => by rw [visit_checkStatus]; rfl) hb.monitored ([], hb.monitoredTasks)
  rw [checkForTimeouts, OrdMap.forEach_eq_foldl]
  exact hloop

theorem visit_sendStatus (hb : HeartBeatTask τ) (now : τ → ℤ)
    (r : (UInt32 × List (HeartBeatEffect τ)) × OrdMap τ TaskStatus) (task : τ) :
    let sent := sendTask now { hb with nextHeartbeatId := r.1.1, monitoredTasks := r.2 } task
    OrdMap.visit (sendStatus now) r task =
        ((sent.1.nextHeartbeatId, r.1.2 ++ sent.2), sent.1.monitoredTasks) ∧
      sent.1 = { hb with
        nextHeartbeatId := sent.1.nextHeartbeatId
        monitoredTasks := sent.1.monitoredTasks } := by
  intro sent
  cases hf : r.2.find? task with
  | none =>
      have hsent : sent = _ := sendTask_of_find?_none hf
      rw [OrdMap.visit_of_find?_none hf, hsent, List.append_nil]
      exact ⟨rfl, rfl⟩
  | some status =>
      rw [OrdMap.visit_of_find? hf]
      cases hawait : status.awaitingResponse with
      | true =>
          have hsent : sent = _ := sendTask_of_awaiting hf hawait
          rw [hsent, List.append_nil]
          simp only [sendStatus, hawait, if_true, OrdMap.insert_of_find? hf, and_self]
      | false =>
          have hsent : sent = _ := sendTask_of_not_awaiting hf hawait
          rw [hsent]
          simp only [sendStatus, hawait, Bool.false_eq_true, if_false, and_self]

/-- `send_heartbeat` is its iterations. -/
theorem sendHeartbeat_eq_eachTask (hb : HeartBeatTask τ) (now : τ → ℤ) :
    hb.sendHeartbeat now = eachTask (sendTask now) hb hb.monitored := by
  have hloop := foldl_eachTask (OrdMap.visit (sendStatus now)) (sendTask now)
    (fun r => ({ hb with nextHeartbeatId := r.1.1, monitoredTasks := r.2 }, r.1.2))
    (fun r task => by
      obtain ⟨hvisit, hrest⟩ := visit_sendStatus hb now r task
      rw [hvisit]
      exact Prod.ext hrest.symm rfl)
    hb.monitored ((hb.nextHeartbeatId, []), hb.monitoredTasks)
  rw [sendHeartbeat, OrdMap.forEach_eq_foldl]
  exact hloop

end HeartBeatTask

/-! ### The system with its history -/

/-- One entry of the history: an effect of the monitor, or an acknowledgment it was given. -/
inductive HeartBeatOccurrence (τ : Type) where
  | did (effect : HeartBeatEffect τ)
  | received (sender : Option τ) (origUniqueId : UInt32)
deriving DecidableEq

/-- The monitor and its history, latest first. -/
structure HeartBeatSystem (τ : Type) [LinearOrder τ] where
  monitor : HeartBeatTask τ
  history : List (HeartBeatOccurrence τ)

/-- The critical sections of `tasks_mutex`, with the clock readings they make. -/
inductive HeartBeatEvent (τ : Type) where
  | checkForTimeouts (now : ℤ)
  | sendHeartbeat (now : τ → ℤ)
  | handleAcknowledgment (sender : Option τ) (ack : HeartbeatAckMsg) (now : ℤ)
  | notifyTaskRegistered (task : τ) (now : ℤ)

namespace HeartBeatSystem

/-- A monitor as its constructor leaves it. -/
def init (self : τ) (responseTimeoutMs : ℤ) : HeartBeatSystem τ :=
  ⟨.create self true responseTimeoutMs, []⟩

/-- Append effects, which come in the order in which they happened. -/
def record (history : List (HeartBeatOccurrence τ)) (effects : List (HeartBeatEffect τ)) :
    List (HeartBeatOccurrence τ) :=
  (effects.map .did).reverse ++ history

/-- One critical section. -/
def step (s : HeartBeatSystem τ) : HeartBeatEvent τ → Option (HeartBeatSystem τ)
  | .checkForTimeouts now =>
      let r := s.monitor.checkForTimeouts now
      some ⟨r.1, record s.history r.2⟩
  | .sendHeartbeat now =>
      let r := s.monitor.sendHeartbeat now
      some ⟨r.1, record s.history r.2⟩
  | .handleAcknowledgment sender ack now =>
      some ⟨s.monitor.handleAcknowledgment sender ack now,
        .received sender ack.origUniqueId :: s.history⟩
  | .notifyTaskRegistered task now => some { s with monitor := s.monitor.notifyTaskRegistered task now }

/-- The heartbeat `id` was sent to `t` and neither acknowledged by `t` nor reported since. -/
def Unresolved (t : τ) (id : UInt32) : List (HeartBeatOccurrence τ) → Prop
  | [] => False
  | .did (.heartbeat task msg) :: h => (task = t ∧ msg.uniqueId = id) ∨ Unresolved t id h
  | .did (.unresponsive task i) :: h => Unresolved t id h ∧ ¬(task = t ∧ i = id)
  | .received sender i :: h => Unresolved t id h ∧ ¬(sender = some t ∧ i = id)

/-- The identifier of a heartbeat that was sent. -/
def sentId : HeartBeatOccurrence τ → Option UInt32
  | .did (.heartbeat _ msg) => some msg.uniqueId
  | _ => none

/-- The identifiers sent so far, latest first. -/
def sentIds (h : List (HeartBeatOccurrence τ)) : List UInt32 := h.filterMap sentId

omit [LinearOrder τ] in
theorem Unresolved.mem_sentIds {t : τ} {id : UInt32} {h : List (HeartBeatOccurrence τ)}
    (hu : Unresolved t id h) : id ∈ sentIds h := by
  induction h with
  | nil => exact hu.elim
  | cons o h ih =>
      match o, hu with
      | .did (.heartbeat task msg), .inl ⟨_, hid⟩ =>
          exact List.mem_filterMap.mpr ⟨_, List.mem_cons_self, hid ▸ rfl⟩
      | .did (.heartbeat task msg), .inr hu =>
          exact List.mem_cons_of_mem _ (ih hu)
      | .did (.unresponsive task i), ⟨hu, _⟩ => exact ih hu
      | .received sender i, ⟨hu, _⟩ => exact ih hu

/-! ### The records agree with the history -/

/-- Exactly the unresolved heartbeats are pending in the records. -/
def Pending (m : OrdMap τ TaskStatus) (h : List (HeartBeatOccurrence τ)) : Prop :=
  ∀ t id, Unresolved t id h ↔
    ∃ status, m.find? t = some status ∧ status.awaitingResponse = true ∧
      status.lastHeartbeatId = id

section Pending

variable {m : OrdMap τ TaskStatus} {h : List (HeartBeatOccurrence τ)} {t : τ} {status : TaskStatus}

/-- A record that is present speaks for its task. -/
theorem Pending.of_find? (hp : Pending m h) (hf : m.find? t = some status) (id : UInt32) :
    Unresolved t id h ↔ status.awaitingResponse = true ∧ status.lastHeartbeatId = id := by
  rw [hp t id]
  constructor
  · rintro ⟨st, hst, hawait⟩
    obtain rfl := Option.some.inj (hf.symm.trans hst)
    exact hawait
  · intro hawait
    exact ⟨status, hf, hawait⟩

/-- To extend `Pending` over one occurrence, look at the task it concerns. -/
theorem Pending.insert {o : List (HeartBeatOccurrence τ)} {status' : TaskStatus}
    (hp : Pending m h)
    (hother : ∀ u id, u ≠ t → (Unresolved u id o ↔ Unresolved u id h))
    (hsame : ∀ id, Unresolved t id o ↔
      status'.awaitingResponse = true ∧ status'.lastHeartbeatId = id) :
    Pending (m.insert t status') o := by
  intro u id
  rw [OrdMap.find?_insert]
  by_cases hu : u = t
  · subst hu
    rw [hsame id, if_pos rfl]
    simp
  · rw [hother u id hu, hp u id, if_neg hu]

theorem Pending.unresponsive (hp : Pending m h) (hf : m.find? t = some status)
    (hawait : status.awaitingResponse = true) :
    Pending (m.insert t { status with awaitingResponse := false })
      (.did (.unresponsive t status.lastHeartbeatId) :: h) := by
  refine hp.insert ?_ ?_
  · intro u id hu
    simp [Unresolved, Ne.symm hu]
  · intro id
    simp [Unresolved, hp.of_find? hf, hawait]

theorem Pending.heartbeat (hp : Pending m h) (hf : m.find? t = some status)
    (hawait : status.awaitingResponse = false) (msg : HeartbeatMsg) (now : ℤ) :
    Pending (m.insert t { status with
        awaitingResponse := true, lastHeartbeatId := msg.uniqueId, lastHeartbeatTime := now })
      (.did (.heartbeat t msg) :: h) := by
  refine hp.insert ?_ ?_
  · intro u id hu
    simp [Unresolved, Ne.symm hu]
  · intro id
    simp [Unresolved, hp.of_find? hf, hawait]

theorem Pending.registered (hp : Pending m h) (hf : m.find? t = none) (now : ℤ) :
    Pending (m.insert t { lastResponseTime := now }) h := by
  refine hp.insert (fun _ _ _ => Iff.rfl) ?_
  intro id
  rw [hp t id, hf]
  simp

omit [LinearOrder τ] in
theorem senderTest_unique [DecidableEq τ] (sender : Option τ) (k k' : τ)
    (hk : decide (some k = sender) = true) (hk' : decide (some k' = sender) = true) : k = k' :=
  Option.some.inj ((of_decide_eq_true hk).trans (of_decide_eq_true hk').symm)

/-- An acknowledgment resolves the heartbeat it names, at the task that sent it, and no other. -/
theorem Pending.received (hp : Pending m h) (sender : Option τ) (i : UInt32) (now : ℤ) :
    Pending (m.modifyFirst (fun task => decide (some task = sender))
      (HeartBeatTask.acknowledgeStatus i now)) (.received sender i :: h) := by
  intro t id
  rw [OrdMap.find?_modifyFirst (senderTest_unique sender)]
  by_cases hs : sender = some t
  · subst hs
    simp only [Unresolved, hp t id, decide_true, if_true, true_and, Option.map_eq_some_iff]
    constructor
    · rintro ⟨⟨st, hf, hawait, hid⟩, hne⟩
      refine ⟨_, ⟨st, hf, rfl⟩, ?_⟩
      rw [HeartBeatTask.acknowledgeStatus, if_neg (by rw [hid]; exact Ne.symm hne)]
      exact ⟨hawait, hid⟩
    · rintro ⟨_, ⟨st, hf, rfl⟩, hawait, hid⟩
      by_cases hi : st.lastHeartbeatId = i
      · simp [HeartBeatTask.acknowledgeStatus, hi] at hawait
      · rw [HeartBeatTask.acknowledgeStatus, if_neg hi] at hawait hid
        exact ⟨⟨st, hf, hawait, hid⟩, fun heq => hi (hid.trans heq.symm)⟩
  · have hno : decide (some t = sender) = false := decide_eq_false (Ne.symm hs)
    simp [Unresolved, hp t id, hs, hno]

end Pending

/-! ### Identifiers -/

/-- The identifiers of `n` heartbeats, latest first: the counter starts at one. -/
def firstIds (n : ℕ) : List UInt32 := ((List.range n).map (fun i => UInt32.ofNat (i + 1))).reverse

theorem firstIds_succ (n : ℕ) : firstIds (n + 1) = UInt32.ofNat (n + 1) :: firstIds n := by
  simp [firstIds, List.range_succ]

/-- The counter does not wrap, so all identifiers differ. -/
theorem firstIds_nodup {n : ℕ} (hn : n < 2 ^ 32) : (firstIds n).Nodup := by
  refine List.nodup_reverse.mpr (List.nodup_range.map_on ?_)
  intro i hi j hj hij
  rw [List.mem_range] at hi hj
  have htoNat := congrArg UInt32.toNat hij
  rw [UInt32.toNat_ofNat', UInt32.toNat_ofNat', Nat.mod_eq_of_lt (by omega),
    Nat.mod_eq_of_lt (by omega)] at htoNat
  omega

/-- The next identifier has not been sent. -/
theorem ofNat_notMem_firstIds {n : ℕ} (hn : n + 1 < 2 ^ 32) :
    UInt32.ofNat (n + 1) ∉ firstIds n := by
  have hnodup := firstIds_nodup hn
  rw [firstIds_succ, List.nodup_cons] at hnodup
  exact hnodup.1

/-! ### The invariant -/

/-- The monitor and its history belong together. -/
structure Tracks (hb : HeartBeatTask τ) (h : List (HeartBeatOccurrence τ)) : Prop where
  manager : hb.stateManager = true
  counter : hb.nextHeartbeatId = UInt32.ofNat ((sentIds h).length + 1)
  ids : sentIds h = firstIds (sentIds h).length
  pending : Pending hb.monitoredTasks h
  reported : (sentIds h).length < 2 ^ 32 → ∀ t id, .did (.unresponsive t id) ∈ h →
    id ∈ sentIds h ∧ ¬Unresolved t id h
  once : (sentIds h).length < 2 ^ 32 → ∀ t id, h.count (.did (.unresponsive t id)) ≤ 1

namespace Tracks

variable {hb : HeartBeatTask τ} {h : List (HeartBeatOccurrence τ)} {t : τ} {status : TaskStatus}

theorem unresponsive (ht : Tracks hb h) (hf : hb.monitoredTasks.find? t = some status)
    (hawait : status.awaitingResponse = true) :
    Tracks { hb with
        monitoredTasks := hb.monitoredTasks.insert t { status with awaitingResponse := false } }
      (.did (.unresponsive t status.lastHeartbeatId) :: h) := by
  -- the heartbeat is still open, so it was not reported before
  have hopen : Unresolved t status.lastHeartbeatId h :=
    (ht.pending.of_find? hf _).mpr ⟨hawait, rfl⟩
  have hnew : (sentIds h).length < 2 ^ 32 →
      .did (.unresponsive t status.lastHeartbeatId) ∉ h :=
    fun hlt hm => (ht.reported hlt t _ hm).2 hopen
  refine ⟨ht.manager, ht.counter, ht.ids, ht.pending.unresponsive hf hawait, ?_, ?_⟩
  · intro hlt u id hm
    rcases List.mem_cons.mp hm with heq | hm
    · cases heq
      exact ⟨hopen.mem_sentIds, fun hu => hu.2 ⟨rfl, rfl⟩⟩
    · exact ⟨(ht.reported hlt u id hm).1, fun hu => (ht.reported hlt u id hm).2 hu.1⟩
  · intro hlt u id
    rw [List.count_cons]
    split_ifs with heq
    · cases eq_of_beq heq
      rw [List.count_eq_zero_of_not_mem (hnew hlt)]
    · exact ht.once hlt u id

theorem heartbeat (ht : Tracks hb h) (hf : hb.monitoredTasks.find? t = some status)
    (hawait : status.awaitingResponse = false) (timestamp : UInt64) (now : ℤ) :
    Tracks { hb with
        nextHeartbeatId := hb.nextHeartbeatId + 1
        monitoredTasks := hb.monitoredTasks.insert t { status with
          awaitingResponse := true
          lastHeartbeatId := hb.nextHeartbeatId
          lastHeartbeatTime := now } }
      (.did (.heartbeat t ⟨hb.nextHeartbeatId, timestamp⟩) :: h) := by
  have hids : sentIds (.did (.heartbeat t ⟨hb.nextHeartbeatId, timestamp⟩) :: h) =
      hb.nextHeartbeatId :: sentIds h := rfl
  refine ⟨ht.manager, ?_, ?_, ht.pending.heartbeat hf hawait ⟨_, _⟩ now, ?_, ?_⟩
  · rw [hids, List.length_cons, ht.counter, UInt32.ofNat_add (_ + 1) 1]
    rfl
  · rw [hids, List.length_cons, firstIds_succ, ← ht.ids, ht.counter]
  · intro hlt u id hm
    rw [hids, List.length_cons] at hlt
    have hm : .did (.unresponsive u id) ∈ h := by simpa using hm
    obtain ⟨hsent, hclosed⟩ := ht.reported (by omega) u id hm
    refine ⟨List.mem_cons_of_mem _ hsent, ?_⟩
    rintro (⟨-, rfl⟩ | hu)
    · rw [ht.ids] at hsent
      exact ofNat_notMem_firstIds hlt (ht.counter ▸ hsent)
    · exact hclosed hu
  · intro hlt u id
    rw [hids, List.length_cons] at hlt
    rw [List.count_cons_of_ne (by simp)]
    exact ht.once (by omega) u id

theorem received (ht : Tracks hb h) (sender : Option τ) (ack : HeartbeatAckMsg) (now : ℤ) :
    Tracks (hb.handleAcknowledgment sender ack now) (.received sender ack.origUniqueId :: h) := by
  refine ⟨ht.manager, ht.counter, ht.ids, ht.pending.received sender _ now, ?_, ?_⟩
  · intro hlt u id hm
    have hm : .did (.unresponsive u id) ∈ h := by simpa using hm
    exact ⟨(ht.reported hlt u id hm).1, fun hu => (ht.reported hlt u id hm).2 hu.1⟩
  · intro hlt u id
    rw [List.count_cons_of_ne (by simp)]
    exact ht.once hlt u id

theorem registered (ht : Tracks hb h) (task : τ) (now : ℤ) :
    Tracks (hb.notifyTaskRegistered task now) h := by
  simp only [HeartBeatTask.notifyTaskRegistered]
  split_ifs
  · exact ht
  · split
    · exact ht
    · rename_i hf
      exact ⟨ht.manager, ht.counter, ht.ids, ht.pending.registered hf now, ht.reported, ht.once⟩

end Tracks

omit [LinearOrder τ] in
@[simp] theorem record_snoc (h : List (HeartBeatOccurrence τ)) (effects : List (HeartBeatEffect τ))
    (e : HeartBeatEffect τ) : record h (effects ++ [e]) = .did e :: record h effects := by
  simp [record]

/-- The loop of `check_for_timeouts`, one record at a time. -/
theorem checkForTimeouts_tracks {hb : HeartBeatTask τ} {h : List (HeartBeatOccurrence τ)}
    (ht : Tracks hb h) (now : ℤ) :
    Tracks (hb.checkForTimeouts now).1 (record h (hb.checkForTimeouts now).2) := by
  refine OrdMap.forEach_induction
    (I := fun effects m => Tracks { hb with monitoredTasks := m } (record h effects)) ?_ ht
  intro effects m t status hf hI
  simp only [HeartBeatTask.checkStatus]
  split_ifs with hover
  · have hawait : status.awaitingResponse = true := (Bool.and_eq_true_iff.mp hover).1
    rw [HeartBeatTask.handleUnresponsiveTask, if_pos ht.manager, record_snoc]
    exact hI.unresponsive hf hawait
  · rw [OrdMap.insert_of_find? hf]
    exact hI

/-- The loop of `send_heartbeat`, one record at a time. -/
theorem sendHeartbeat_tracks {hb : HeartBeatTask τ} {h : List (HeartBeatOccurrence τ)}
    (ht : Tracks hb h) (now : τ → ℤ) :
    Tracks (hb.sendHeartbeat now).1 (record h (hb.sendHeartbeat now).2) := by
  refine OrdMap.forEach_induction
    (I := fun (acc : UInt32 × List (HeartBeatEffect τ)) m =>
      Tracks { hb with nextHeartbeatId := acc.1, monitoredTasks := m } (record h acc.2)) ?_ ht
  intro acc m t status hf hI
  simp only [HeartBeatTask.sendStatus]
  split_ifs with hawait
  · rw [OrdMap.insert_of_find? hf]
    exact hI
  · rw [record_snoc]
    exact hI.heartbeat hf (Bool.eq_false_iff.mpr hawait) _ _

theorem step_tracks (s : HeartBeatSystem τ) (e : HeartBeatEvent τ) (s' : HeartBeatSystem τ)
    (ht : Tracks s.monitor s.history) (hs : step s e = some s') :
    Tracks s'.monitor s'.history := by
  cases e with
  | checkForTimeouts now =>
      obtain rfl := Option.some.inj hs
      exact checkForTimeouts_tracks ht now
  | sendHeartbeat now =>
      obtain rfl := Option.some.inj hs
      exact sendHeartbeat_tracks ht now
  | handleAcknowledgment sender ack now =>
      obtain rfl := Option.some.inj hs
      exact ht.received sender ack now
  | notifyTaskRegistered task now =>
      obtain rfl := Option.some.inj hs
      exact ht.registered task now

theorem init_tracks (self : τ) (responseTimeoutMs : ℤ) :
    Tracks (init self responseTimeoutMs).monitor (init self responseTimeoutMs).history := by
  refine ⟨rfl, rfl, rfl, ?_, ?_, ?_⟩
  · intro t id
    simp [init, HeartBeatTask.create, Unresolved]
  · intro _ t id hm
    exact absurd hm List.not_mem_nil
  · intro _ t id
    exact Nat.zero_le 1

/-! ### One call, record by record -/

/-- What a check leaves of a record. -/
def afterCheck (hb : HeartBeatTask τ) (now : ℤ) (status : TaskStatus) : TaskStatus :=
  if hb.overdue now status then { status with awaitingResponse := false } else status

theorem checkForTimeouts_eq {hb : HeartBeatTask τ} (hm : hb.stateManager = true) (now : ℤ) :
    hb.checkForTimeouts now =
      ({ hb with monitoredTasks := hb.monitoredTasks.mapVal (fun _ => afterCheck hb now) },
        hb.monitoredTasks.entries.flatMap (fun e =>
          if hb.overdue now e.2 then [.unresponsive e.1 e.2.lastHeartbeatId] else [])) := by
  have hbody : ∀ effects task status, hb.checkStatus now effects task status =
      (effects ++ (if hb.overdue now status then [.unresponsive task status.lastHeartbeatId]
        else []), afterCheck hb now status) := by
    intro effects task status
    simp only [HeartBeatTask.checkStatus, HeartBeatTask.handleUnresponsiveTask, hm, afterCheck,
      if_true]
    split_ifs <;> simp
  simp only [HeartBeatTask.checkForTimeouts, OrdMap.forEach_pure hbody, List.nil_append]

/-- The reports of one check, one for each overdue record. -/
theorem mem_checkForTimeouts {hb : HeartBeatTask τ} (hm : hb.stateManager = true) (now : ℤ)
    (e : HeartBeatEffect τ) : e ∈ (hb.checkForTimeouts now).2 ↔
      ∃ t status, hb.monitoredTasks.find? t = some status ∧ hb.overdue now status = true ∧
        e = .unresponsive t status.lastHeartbeatId := by
  rw [checkForTimeouts_eq hm]
  simp only [List.mem_flatMap, Prod.exists, OrdMap.find?_eq_some_iff]
  refine exists_congr fun t => exists_congr fun status => and_congr_right fun _ => ?_
  split_ifs with hover <;> simp [hover]

theorem checkForTimeouts_nodup {hb : HeartBeatTask τ} (hm : hb.stateManager = true) (now : ℤ) :
    (hb.checkForTimeouts now).2.Nodup := by
  rw [checkForTimeouts_eq hm]
  refine List.nodup_flatMap.mpr ⟨fun e _ => by split_ifs <;> simp, ?_⟩
  -- distinct records belong to distinct tasks
  refine (List.pairwise_map.mp hb.monitoredTasks.sorted).imp ?_
  intro e e' hlt
  simp only [Function.onFun]
  split_ifs <;> simp [hlt.ne']

theorem count_record_of_notMem {h : List (HeartBeatOccurrence τ)}
    {effects : List (HeartBeatEffect τ)} {e : HeartBeatEffect τ} (he : e ∉ effects) :
    (record h effects).count (.did e) = h.count (.did e) := by
  rw [record, List.count_append, List.count_reverse, List.count_eq_zero_of_not_mem, Nat.zero_add]
  simpa using he

/-- `send_heartbeat` reports nobody. -/
theorem unresponsive_notMem_sendHeartbeat (hb : HeartBeatTask τ) (now : τ → ℤ) (t : τ)
    (id : UInt32) : .unresponsive t id ∉ (hb.sendHeartbeat now).2 := by
  refine OrdMap.forEach_induction
    (I := fun (acc : UInt32 × List (HeartBeatEffect τ)) (_ : OrdMap τ TaskStatus) =>
      .unresponsive t id ∉ acc.2) ?_ (s := (hb.nextHeartbeatId, [])) List.not_mem_nil
  intro acc m u status _ hI
  simp only [HeartBeatTask.sendStatus]
  split_ifs
  · exact hI
  · simpa using hI

/-! ### Verdicts -/

/-- What holds in a state of the system, and of the next critical section from it. -/
structure Verdicts (s : HeartBeatSystem τ) : Prop where
  /-- No identifier is sent twice. -/
  ids_nodup : (sentIds s.history).Nodup
  /-- An identifier is sent to one task only. -/
  one_task : ∀ t u msg msg', .did (.heartbeat t msg) ∈ s.history →
    .did (.heartbeat u msg') ∈ s.history → msg.uniqueId = msg'.uniqueId → t = u
  /-- A monitored task has an unresolved heartbeat iff its record awaits one: the last one. -/
  monitored : ∀ t status, s.monitor.monitoredTasks.find? t = some status → ∀ id,
    Unresolved t id s.history ↔ status.awaitingResponse = true ∧ status.lastHeartbeatId = id
  unmonitored : ∀ t, s.monitor.monitoredTasks.find? t = none → ∀ id, ¬Unresolved t id s.history
  /-- A heartbeat is reported at most once. -/
  reported_once : ∀ t id, s.history.count (.did (.unresponsive t id)) ≤ 1
  /-- A check reports exactly the unresolved heartbeats that are older than the timeout. -/
  check : ∀ now s', step s (.checkForTimeouts now) = some s' →
    ∃ effects, s'.history = record s.history effects ∧ effects.Nodup ∧
      ∀ e, e ∈ effects ↔ ∃ t id status, e = .unresponsive t id ∧ Unresolved t id s.history ∧
        s.monitor.monitoredTasks.find? t = some status ∧
        toMilliseconds (now - status.lastHeartbeatTime) > s.monitor.responseTimeoutMs
  /-- Nothing else reports a task. -/
  only_check : ∀ e s', step s e = some s' → (∀ now, e ≠ .checkForTimeouts now) → ∀ t id,
    s'.history.count (.did (.unresponsive t id)) = s.history.count (.did (.unresponsive t id))
  /-- An acknowledgment resolves a heartbeat iff it comes from its task with its identifier. -/
  acknowledged : ∀ sender ack now s', step s (.handleAcknowledgment sender ack now) = some s' →
    ∀ t status, s.monitor.monitoredTasks.find? t = some status →
      ∃ status', s'.monitor.monitoredTasks.find? t = some status' ∧
        status'.lastHeartbeatId = status.lastHeartbeatId ∧
        status'.lastHeartbeatTime = status.lastHeartbeatTime ∧
        (status.awaitingResponse = true → (status'.awaitingResponse = false ↔
          sender = some t ∧ ack.origUniqueId = status.lastHeartbeatId))
  /-- An acknowledgment leaves the records of all tasks but its sender's as they were. -/
  acknowledged_frame : ∀ sender ack now s',
    step s (.handleAcknowledgment sender ack now) = some s' → ∀ u, sender ≠ some u →
      s'.monitor.monitoredTasks.find? u = s.monitor.monitoredTasks.find? u
  /-- A registration leaves all records as they were. -/
  registered_frame : ∀ task now s', step s (.notifyTaskRegistered task now) = some s' → ∀ u,
    u ≠ task ∨ (s.monitor.monitoredTasks.find? u).isSome →
      s'.monitor.monitoredTasks.find? u = s.monitor.monitoredTasks.find? u
  /-- A check treats each record by itself. -/
  check_frame : ∀ now s', step s (.checkForTimeouts now) = some s' → ∀ u,
    s'.monitor.monitoredTasks.find? u =
      (s.monitor.monitoredTasks.find? u).map (afterCheck s.monitor now)
  /-- Sending leaves a pending record alone; any other is given its new heartbeat. -/
  send_frame : ∀ now s', step s (.sendHeartbeat now) = some s' → ∀ u,
    s'.monitor.monitoredTasks.find? u = none ∧ s.monitor.monitoredTasks.find? u = none ∨
    ∃ status id, s.monitor.monitoredTasks.find? u = some status ∧
      s'.monitor.monitoredTasks.find? u = some (if status.awaitingResponse then status
        else { status with
          awaitingResponse := true, lastHeartbeatId := id, lastHeartbeatTime := now u })

theorem handleAcknowledgment_find? (hb : HeartBeatTask τ) (sender : Option τ)
    (ack : HeartbeatAckMsg) (now : ℤ) (t : τ) :
    (hb.handleAcknowledgment sender ack now).monitoredTasks.find? t =
      if sender = some t then (hb.monitoredTasks.find? t).map
        (HeartBeatTask.acknowledgeStatus ack.origUniqueId now)
      else hb.monitoredTasks.find? t := by
  simp only [HeartBeatTask.handleAcknowledgment]
  rw [OrdMap.find?_modifyFirst (senderTest_unique sender)]
  simp only [decide_eq_true_eq, @eq_comm _ sender]

theorem notifyTaskRegistered_find? (hb : HeartBeatTask τ) (task : τ) (now : ℤ) {u : τ}
    (hu : u ≠ task ∨ (hb.monitoredTasks.find? u).isSome) :
    (hb.notifyTaskRegistered task now).monitoredTasks.find? u = hb.monitoredTasks.find? u := by
  simp only [HeartBeatTask.notifyTaskRegistered]
  split_ifs
  · rfl
  · split
    · rfl
    · rename_i hf
      have hne : u ≠ task := by
        rintro rfl
        simp [hf] at hu
      exact OrdMap.find?_insert_of_ne _ hne _

omit [LinearOrder τ] in
/-- Distinct identifiers: an identifier determines the task it was sent to. -/
theorem eq_of_uniqueId_eq {h : List (HeartBeatOccurrence τ)} (hnodup : (sentIds h).Nodup)
    {t u : τ} {msg msg' : HeartbeatMsg} (hm : .did (.heartbeat t msg) ∈ h)
    (hm' : .did (.heartbeat u msg') ∈ h) (hid : msg.uniqueId = msg'.uniqueId) : t = u := by
  induction h with
  | nil => exact absurd hm List.not_mem_nil
  | cons o h ih =>
      have hsent : ∀ {v : τ} {m : HeartbeatMsg}, .did (.heartbeat v m) ∈ h →
          m.uniqueId ∈ sentIds h :=
        fun hv => List.mem_filterMap.mpr ⟨_, hv, rfl⟩
      rcases List.mem_cons.mp hm with rfl | htail
      · rcases List.mem_cons.mp hm' with heq | htail'
        · cases heq
          rfl
        · exact absurd (hid ▸ hsent htail') (List.nodup_cons.mp hnodup).1
      · rcases List.mem_cons.mp hm' with rfl | htail'
        · exact absurd (hid ▸ hsent htail) (List.nodup_cons.mp hnodup).1
        · exact ih (hnodup.sublist ((List.sublist_cons_self o h).filterMap sentId)) htail htail'

/-- **Exactly-once heartbeat verdicts.**  For every interleaving of the monitor's operations with
arbitrary acknowledgments, any clock and fewer than `2^32` heartbeats. -/
theorem exactly_once_verdicts (self : τ) (responseTimeoutMs : ℤ) {s : HeartBeatSystem τ}
    (h : Reaches step (init self responseTimeoutMs) s)
    (hids : (sentIds s.history).length < 2 ^ 32) : Verdicts s := by
  have ht : Tracks s.monitor s.history := h.invariant step_tracks (init_tracks self _)
  have hnodup : (sentIds s.history).Nodup := ht.ids ▸ firstIds_nodup hids
  constructor
  case ids_nodup => exact hnodup
  case one_task =>
    intro t u msg msg' hm hm' hid
    exact eq_of_uniqueId_eq hnodup hm hm' hid
  case monitored =>
    intro t status hf id
    exact ht.pending.of_find? hf id
  case unmonitored =>
    intro t hf id hu
    obtain ⟨status, hst, -⟩ := (ht.pending t id).mp hu
    rw [hf] at hst
    cases hst
  case reported_once => exact ht.once hids
  case check =>
    intro now s' hs
    obtain rfl := Option.some.inj hs
    refine ⟨_, rfl, checkForTimeouts_nodup ht.manager now, ?_⟩
    intro e
    rw [mem_checkForTimeouts ht.manager]
    constructor
    · rintro ⟨t, status, hf, hover, rfl⟩
      obtain ⟨hawait, helapsed⟩ := Bool.and_eq_true_iff.mp hover
      exact ⟨t, _, status, rfl, (ht.pending.of_find? hf _).mpr ⟨hawait, rfl⟩, hf,
        of_decide_eq_true helapsed⟩
    · rintro ⟨t, id, status, rfl, hu, hf, helapsed⟩
      obtain ⟨hawait, rfl⟩ := (ht.pending.of_find? hf id).mp hu
      exact ⟨t, status, hf, Bool.and_eq_true_iff.mpr ⟨hawait, decide_eq_true helapsed⟩, rfl⟩
  case only_check =>
    intro e s' hs hne t id
    cases e with
    | checkForTimeouts now => exact absurd rfl (hne now)
    | sendHeartbeat now =>
        obtain rfl := Option.some.inj hs
        exact count_record_of_notMem (unresponsive_notMem_sendHeartbeat s.monitor now t id)
    | handleAcknowledgment sender ack now =>
        obtain rfl := Option.some.inj hs
        exact List.count_cons_of_ne (by simp)
    | notifyTaskRegistered task now =>
        obtain rfl := Option.some.inj hs
        rfl
  case acknowledged =>
    intro sender ack now s' hs t status hf
    obtain rfl := Option.some.inj hs
    simp only [handleAcknowledgment_find?, hf]
    by_cases hsender : sender = some t
    · refine ⟨_, if_pos hsender, ?_⟩
      by_cases hid : status.lastHeartbeatId = ack.origUniqueId
      · simp [HeartBeatTask.acknowledgeStatus, hid, hsender]
      · simp [HeartBeatTask.acknowledgeStatus, hid, Ne.symm hid]
    · exact ⟨status, if_neg hsender, rfl, rfl, by simp [hsender]⟩
  case acknowledged_frame =>
    intro sender ack now s' hs u hu
    obtain rfl := Option.some.inj hs
    rw [handleAcknowledgment_find?, if_neg hu]
  case registered_frame =>
    intro task now s' hs u hu
    obtain rfl := Option.some.inj hs
    exact notifyTaskRegistered_find? s.monitor task now hu
  case check_frame =>
    intro now s' hs u
    obtain rfl := Option.some.inj hs
    rw [checkForTimeouts_eq ht.manager, OrdMap.find?_mapVal]
  case send_frame =>
    intro now s' hs u
    obtain rfl := Option.some.inj hs
    rcases OrdMap.find?_forEach (HeartBeatTask.sendStatus now) (s.monitor.nextHeartbeatId, [])
      s.monitor.monitoredTasks u with ⟨hf, hf'⟩ | ⟨status, acc, hf, hf'⟩
    · exact .inl ⟨hf', hf⟩
    · refine .inr ⟨status, acc.1, hf, hf'.trans ?_⟩
      simp only [HeartBeatTask.sendStatus]
      split_ifs <;> rfl

/-- Two tasks: the first answers too late and with the other's identifier, the second in time. -/
theorem exactly_once_verdicts_late_ack : ∃ s : HeartBeatSystem ℕ,
    run step (init 0 3000) [.notifyTaskRegistered 1 0, .notifyTaskRegistered 2 0,
      .notifyTaskRegistered 0 0, .sendHeartbeat (fun _ => 0),
      .handleAcknowledgment (some 1) ⟨2, 0, 0⟩ 5, .handleAcknowledgment (some 2) ⟨2, 0, 0⟩ 6,
      .checkForTimeouts 3001000000,
      .handleAcknowledgment (some 1) ⟨1, 0, 0⟩ 3001000001] = some s ∧
    (sentIds s.history = [2, 1] ∧
      s.history.count (.did (.unresponsive 1 1)) = 1 ∧
      s.history.count (.did (.unresponsive 2 2)) = 0) ∧ Verdicts s := by
  have heval : (run step (init (0 : ℕ) 3000) [.notifyTaskRegistered 1 0,
      .notifyTaskRegistered 2 0, .notifyTaskRegistered 0 0, .sendHeartbeat (fun _ => 0),
      .handleAcknowledgment (some 1) ⟨2, 0, 0⟩ 5, .handleAcknowledgment (some 2) ⟨2, 0, 0⟩ 6,
      .checkForTimeouts 3001000000,
      .handleAcknowledgment (some 1) ⟨1, 0, 0⟩ 3001000001]).map
        (fun s => (sentIds s.history, s.history.count (.did (.unresponsive 1 1)),
          s.history.count (.did (.unresponsive 2 2)))) = some ([2, 1], 1, 0) := by decide +kernel
  obtain ⟨s, hrun, hval⟩ := Option.map_eq_some_iff.mp heval
  obtain ⟨hids, hval⟩ := Prod.mk.inj hval
  exact ⟨s, hrun, ⟨hids, Prod.mk.inj hval⟩,
    exactly_once_verdicts 0 3000 ⟨_, hrun⟩ (by rw [hids]; decide)⟩

end HeartBeatSystem

end Protocore
