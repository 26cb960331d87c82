import Protocore.CondVar
import Protocore.Convergence

/-! # The state transitions settle

`StateProtocol.lean` runs the controlling threads, the broadcasts, the tasks and the manager in any
order.  Without new calls and without other messages they run out of work: every delivery, every
`dequeue` and every step of a queue thread is paid from `workLeft` (`step_work`), where a command still
to be broadcast pays for its deliveries, each delivery for the acknowledgment it will cause, and that one
for its own deliveries.

A broadcast owns `sub_mutex` from its first to its last delivery.  The commands therefore reach all
subscribers in one order (`InStep`), and when nothing is left to do every subscriber has taken the same
states in the same order and the manager has recorded them, unless a broadcast has come to a full queue
(`tasks_settle`). -/

namespace Protocore

variable {κ τ : Type} [DecidableEq κ] [LinearOrder τ]

namespace ProtocolSystem

variable {subs : MsgType → List τ} {s s' : ProtocolSystem κ τ} {e : ProtocolEvent κ τ}

/-! ### The work that is left -/

/-- The steps of a broadcast of acknowledgments and of what it leaves in the queues. -/
def ackWork (subs : MsgType → List τ) : ℕ := 3 * (subs .stateAckMsg).length

/-- The steps a message causes from the queue on; only a command causes a broadcast. -/
def msgWork (subs : MsgType → List τ) (msg : Msg τ) : ℕ :=
  if (commandOf msg).isSome then ackWork subs + 4 else 2

def threadWork (subs : MsgType → List τ) : ThreadPc τ → ℕ
  | .idle => 0
  | .handling msg => msgWork subs msg - 1
  | .announce => ackWork subs + 2
  | .publishing => 0

def queueWork (subs : MsgType → List τ) (queue : List (Msg τ)) : ℕ := (queue.map (msgWork subs)).sum

def deliveryWork (subs : MsgType → List τ) : Option (Delivery κ τ) → ℕ
  | none => 0
  | some d => d.rest.length * (msgWork subs d.msg + 1) + 1

/-- A controlling thread that has not published yet has a whole broadcast before it. -/
def controlWork (subs : MsgType → List τ) : ControlPc τ → ℕ
  | .setTarget _ => (subs .stateMsg).length * (ackWork subs + 5) + 4
  | .transition _ _ => (subs .stateMsg).length * (ackWork subs + 5) + 3
  | .publish _ _ => (subs .stateMsg).length * (ackWork subs + 5) + 2
  | _ => 0

/-- What the threads and the broadcast in progress still have to do. -/
def workLeft [Fintype κ] [Fintype τ] (subs : MsgType → List τ) (s : ProtocolSystem κ τ) : ℕ :=
  CondVar.total (queueWork subs) s.queue + CondVar.total (threadWork subs) s.thread +
    CondVar.total (controlWork subs) s.controller + deliveryWork subs s.sub

/-- No call begins and no other message arrives. -/
def Internal : ProtocolEvent κ τ → Prop
  | .requestStateTransition _ _ | .demandStateTransition _ _ | .other _ _ => False
  | _ => True

/-- A queue thread or a broadcast goes on. -/
def worked : ProtocolEvent κ τ → Bool
  | .dequeue _ | .process _ | .deliver => true
  | _ => false

omit [LinearOrder τ] in
theorem msgWork_of_commandOf {msg : Msg τ} {state : TaskState} (h : commandOf msg = some state) :
    msgWork subs msg = ackWork subs + 4 := by
  simp [msgWork, h]

omit [LinearOrder τ] in
theorem msgWork_of_no_command {msg : Msg τ} (h : commandOf msg = none) : msgWork subs msg = 2 := by
  simp [msgWork, h]

omit [LinearOrder τ] in
theorem two_le_msgWork (subs : MsgType → List τ) (msg : Msg τ) : 2 ≤ msgWork subs msg := by
  unfold msgWork
  split_ifs
  · omega
  · omega

omit [LinearOrder τ] in
theorem queueWork_append (queue : List (Msg τ)) (msg : Msg τ) :
    queueWork subs (queue ++ [msg]) = queueWork subs queue + msgWork subs msg := by
  simp [queueWork]

omit [LinearOrder τ] in
theorem queueWork_pop {queue rest : List (Msg τ)} {msg : Msg τ}
    (h : StableQueue.pop Msg.getPriority queue = some (msg, rest)) :
    queueWork subs queue = msgWork subs msg + queueWork subs rest := by
  have hperm := (StableQueue.pop_perm Msg.getPriority h).map (msgWork subs)
  rw [queueWork, hperm.sum_eq, List.map_cons, List.sum_cons, queueWork]

/-! ### Which steps do the work -/

theorem dequeue_controller {x : τ} (h : step subs s (.dequeue x) = some s') :
    s'.controller = s.controller := by
  simp only [step] at h
  split at h
  · split at h
    · obtain rfl := Option.some.inj h
      rfl
    · cases h
  · cases h

omit [DecidableEq κ] in
theorem processStep_controller {x : τ} (h : s.processStep subs x = some s') :
    s'.controller = s.controller := by
  simp only [processStep] at h
  cases hpc : s.thread x with
  | idle => simp only [hpc] at h; cases h
  | publishing => simp only [hpc] at h; cases h
  | announce =>
      simp only [hpc] at h
      split_ifs at h
      obtain rfl := Option.some.inj h
      rfl
  | handling msg =>
      simp only [hpc] at h
      split_ifs at h
      · obtain rfl := Option.some.inj h
        rfl
      · split at h
        · obtain rfl := Option.some.inj h
          rfl
        · obtain rfl := Option.some.inj h
          rfl

/-- A broadcast never stands still. -/
theorem deliverStep_sub (h : s.deliverStep = some s') : s'.sub ≠ s.sub := by
  unfold deliverStep at h
  split at h
  · cases h
  · rename_i p msg x rest hsub
    obtain rfl := Option.some.inj h
    simp [hsub]
  · rename_i c msg hsub
    obtain rfl := Option.some.inj h
    simp [hsub]
  · rename_i t msg hsub
    obtain rfl := Option.some.inj h
    simp [hsub]

/-- The check of a waiting thread is a step of its own. -/
theorem not_worked_of_check {c : κ} {newState : TaskState} {timedOut : Bool}
    (hpc : s.controller c = .waiting newState)
    (h : step subs s e = some { s with
      controller := Function.update s.controller c (.checking newState s.recorded timedOut) }) :
    worked e = false := by
  have hmoved : Function.update s.controller c (.checking newState s.recorded timedOut) ≠
      s.controller := by
    intro heq
    have hc := congrFun heq c
    rw [Function.update_self, hpc] at hc
    cases hc
  cases e with
  | dequeue x => exact absurd (dequeue_controller h) hmoved
  | process x => exact absurd (processStep_controller h) hmoved
  | deliver =>
      have hsub := deliverStep_sub h
      exact absurd rfl hsub
  | _ => rfl

section work

variable [Fintype κ] [Fintype τ]

/-- A controlling thread takes a step that does not publish. -/
theorem control_work {c : κ} {pc pc' : ControlPc τ} (hpc : s.controller c = pc)
    (hle : controlWork subs pc' ≤ controlWork subs pc) (manager : StateManager τ) :
    workLeft subs { s with
      manager := manager
      controller := Function.update s.controller c pc' } ≤ s.workLeft subs := by
  have hcontrol := CondVar.total_update (controlWork subs) s.controller c pc'
  rw [hpc] at hcontrol
  simp only [workLeft]
  omega

omit [DecidableEq κ] [Fintype κ] in
/-- A queue thread takes a step that does not publish. -/
theorem thread_work {x : τ} {pc pc' : ThreadPc τ} (hpc : s.thread x = pc)
    (hlt : threadWork subs pc' < threadWork subs pc) :
    CondVar.total (threadWork subs) (Function.update s.thread x pc') <
      CondVar.total (threadWork subs) s.thread := by
  have hthread := CondVar.total_update (threadWork subs) s.thread x pc'
  rw [hpc] at hthread
  omega

/-- Every step of a queue thread and every delivery is paid for. -/
theorem step_work (he : Internal e) (h : step subs s e = some s') :
    (worked e).toNat + s'.workLeft subs ≤ s.workLeft subs := by
  cases step_moves h with
  | request => exact he.elim
  | demand => exact he.elim
  | other => exact he.elim
  | setTarget hpc => exact (Nat.zero_add _).trans_le (control_work hpc (by simp [controlWork]) _)
  | transition hpc => exact (Nat.zero_add _).trans_le (control_work hpc (by simp [controlWork]) _)
  | check hpc =>
      rw [not_worked_of_check hpc h]
      exact (Nat.zero_add _).trans_le (control_work hpc (by simp [controlWork]) _)
  | pass hpc => exact (Nat.zero_add _).trans_le (control_work hpc (by simp [controlWork]) _)
  | miss hpc =>
      refine (Nat.zero_add _).trans_le (control_work hpc ?_ _)
      split_ifs
      · simp [controlWork]
      · simp [controlWork]
  | succeed hpc => exact (Nat.zero_add _).trans_le (control_work hpc (by simp [controlWork]) _)
  | leave hpc => exact (Nat.zero_add _).trans_le (control_work hpc (by simp [controlWork]) _)
  | @publish c newState demand hpc hfree =>
      -- the broadcast of the command is paid for by the thread that begins it
      have hcontrol := CondVar.total_update (controlWork subs) s.controller c
        (.publishing newState demand)
      rw [hpc] at hcontrol
      have hmsg : msgWork subs ⟨some s.manager.self, .stateMsg ⟨newState.toByte⟩⟩ + 1 =
          ackWork subs + 5 := by
        rw [msgWork_of_commandOf rfl]
      simp only [controlWork] at hcontrol
      simp only [workLeft, worked, deliveryWork, hfree, hmsg, Bool.toNat_false]
      omega
  | @dequeue x msg rest hidle hpop =>
      have hthread := CondVar.total_update (threadWork subs) s.thread x (.handling msg)
      have hqueue := CondVar.total_update (queueWork subs) s.queue x rest
      rw [queueWork_pop hpop] at hqueue
      rw [hidle] at hthread
      have hmsg := two_le_msgWork subs msg
      simp only [threadWork] at hthread
      simp only [workLeft, worked, Bool.toNat_true]
      omega
  | @record msg t state hpc hack =>
      have hmsg := two_le_msgWork subs msg
      have hthread : CondVar.total (threadWork subs) (Function.update s.thread _ .idle) < _ :=
        thread_work hpc (by simp only [threadWork]; omega)
      simp only [workLeft, worked, Bool.toNat_true]
      omega
  | @ignore msg hpc hack =>
      have hmsg := two_le_msgWork subs msg
      have hthread : CondVar.total (threadWork subs) (Function.update s.thread _ .idle) < _ :=
        thread_work hpc (by simp only [threadWork]; omega)
      simp only [workLeft, worked, Bool.toNat_true]
      omega
  | @apply x msg state hx hpc hcmd =>
      have hmsg : msgWork subs msg = ackWork subs + 4 := msgWork_of_commandOf hcmd
      have hthread : CondVar.total (threadWork subs) (Function.update s.thread _ .announce) < _ :=
        thread_work hpc (by simp only [threadWork]; omega)
      simp only [workLeft, worked, Bool.toNat_true]
      omega
  | @skip x msg hx hpc hcmd =>
      have hmsg := two_le_msgWork subs msg
      have hthread : CondVar.total (threadWork subs) (Function.update s.thread _ .idle) < _ :=
        thread_work hpc (by simp only [threadWork]; omega)
      simp only [workLeft, worked, Bool.toNat_true]
      omega
  | @announce x hpc hfree =>
      have hthread := CondVar.total_update (threadWork subs) s.thread x .publishing
      rw [hpc] at hthread
      have hmsg : msgWork subs (ackMsg x (s.currentState x)) = 2 := msgWork_of_no_command rfl
      simp only [threadWork, ackWork] at hthread
      simp only [workLeft, worked, deliveryWork, hfree, hmsg, Bool.toNat_true]
      omega
  | @deliver p msg x rest hsub =>
      have hqueue := CondVar.total_update (queueWork subs) s.queue x (s.queue x ++ [msg])
      rw [queueWork_append] at hqueue
      simp only [workLeft, worked, deliveryWork, hsub, List.length_cons, Nat.succ_mul, Bool.toNat_true]
      omega
  | @commanded c msg pc hsub hpc hpc' =>
      have hcontrol := CondVar.total_update (controlWork subs) s.controller c pc
      have hzero : controlWork subs pc = 0 := by
        obtain rfl | ⟨newState, hpublishing⟩ := hpc'
        · rfl
        · rw [hpc newState hpublishing]
          rfl
      simp only [workLeft, worked, deliveryWork, hsub, Bool.toNat_true]
      omega
  | @acknowledged t msg hsub =>
      have hthread := CondVar.total_update (threadWork subs) s.thread t .idle
      simp only [threadWork] at hthread
      simp only [workLeft, worked, deliveryWork, hsub, Bool.toNat_true]
      omega

theorem countP_worked_le {es : List (ProtocolEvent κ τ)} (hes : ∀ e ∈ es, Internal e)
    (hrun : run (step subs) s es = some s') : es.countP worked ≤ s.workLeft subs :=
  countP_le_potential (fun _ _ _ he hs => step_work he hs) (along_of_forall hes) hrun

end work

/-! ### The commands come in one order -/

/-- The command of the broadcast in progress, for those who have it already. -/
def underway (s : ProtocolSystem κ τ) (t : τ) : List TaskState :=
  s.sub.elim [] (fun d => if d.rest.contains t then [] else (commandOf d.msg).toList)

/-- All subscribers have been sent the same commands in the same order, but for the broadcast in
progress. -/
structure InStep (subs : MsgType → List τ) (history : List TaskState) (s : ProtocolSystem κ τ) :
    Prop where
  nodup : ∀ d, s.sub = some d → d.rest.Nodup
  commanded : ∀ t ∈ subs .stateMsg, s.commanded t = history ++ s.underway t

theorem InStep.moves (hw : ∀ type, (subs type).Nodup) {history : List TaskState}
    (h : InStep subs history s) (hm : Moves subs s e s') : ∃ history', InStep subs history' s' := by
  cases hm with
  | publish hpc hfree =>
      refine ⟨history, ?_, fun t ht => ?_⟩
      · intro d hd
        obtain rfl := Option.some.inj hd
        exact hw _
      · rw [h.commanded t ht]
        simp [underway, hfree, ht]
  | announce hpc hfree =>
      refine ⟨history, ?_, fun t ht => ?_⟩
      · intro d hd
        obtain rfl := Option.some.inj hd
        exact hw _
      · rw [h.commanded t ht]
        simp [underway, hfree, ackMsg, commandOf]
  | @deliver p msg x rest hsub =>
      have hnodup := List.nodup_cons.mp (h.nodup _ hsub)
      refine ⟨history, ?_, fun t ht => ?_⟩
      · intro d hd
        obtain rfl := Option.some.inj hd
        exact hnodup.2
      · have hold := h.commanded t ht
        by_cases hx : t = x
        · subst hx
          simp only [underway, hsub, Option.elim_some, List.contains_cons, beq_self_eq_true,
            Bool.true_or, if_true, List.append_nil] at hold
          simp [underway, hold, hnodup.1]
        · simpa [underway, hsub, hx] using hold
  | @commanded c msg pc hsub hpc hpc' =>
      -- the command is now part of what everybody has
      refine ⟨history ++ (commandOf msg).toList, by simp, fun t ht => ?_⟩
      have hold := h.commanded t ht
      simp only [underway, hsub, Option.elim_some, List.contains_nil, Bool.false_eq_true,
        if_false] at hold
      simpa [underway] using hold
  | @acknowledged x msg hsub =>
      refine ⟨history ++ (commandOf msg).toList, by simp, fun t ht => ?_⟩
      have hold := h.commanded t ht
      simp only [underway, hsub, Option.elim_some, List.contains_nil, Bool.false_eq_true,
        if_false] at hold
      simpa [underway] using hold
  | _ => exact ⟨history, h.nodup, h.commanded⟩

theorem reaches_inStep {mgr : τ} {tasks : List τ} {currentState targetState : TaskState}
    (hw : Wired subs mgr)
    (hs : Reaches (step subs) (start mgr tasks currentState targetState) s) :
    ∃ history, InStep subs history s := by
  refine hs.invariant (P := fun s => ∃ history, InStep subs history s) ?_ ?_
  · rintro s e s' ⟨history, h⟩ he
    exact h.moves hw.nodup (step_moves he)
  · exact ⟨[], nofun, fun _ _ => rfl⟩

/-! ### Rest -/

/-- A controlling thread that has not published its command yet. -/
def Commanding : ControlPc τ → Prop
  | .setTarget _ | .transition _ _ | .publish _ _ => True
  | _ => False

/-- The steps after which a command is delivered, taken, acknowledged and recorded. -/
def Works (s : ProtocolSystem κ τ) : ProtocolEvent κ τ → Prop
  | .dequeue _ | .process _ | .deliver => True
  | .control c => Commanding (s.controller c)
  | _ => False

/-- Nothing is left to do but the checks of those who wait. -/
def Rests (subs : MsgType → List τ) (s : ProtocolSystem κ τ) : Prop :=
  ∀ e, s.Works e → step subs s e = none

theorem Rests.sub (h : Rests subs s) : s.sub = none := by
  have hstep : s.deliverStep = none := h .deliver trivial
  unfold deliverStep at hstep
  split at hstep
  · rename_i hsub
    exact hsub
  · cases hstep
  · cases hstep
  · cases hstep

theorem Rests.thread {mgr : τ} {reg : τ → Bool} (h : Rests subs s) (hc : Consistent mgr reg s)
    (x : τ) : s.thread x = .idle := by
  have hstep : s.processStep subs x = none := h (.process x) trivial
  cases hpc : s.thread x with
  | idle => rfl
  | handling msg =>
      simp only [processStep, hpc] at hstep
      split_ifs at hstep
      split at hstep
      · cases hstep
      · cases hstep
  | announce =>
      simp only [processStep, hpc, h.sub, Option.isNone_none, if_true] at hstep
      cases hstep
  | publishing =>
      obtain ⟨msg, rest, hsub⟩ := hc.publishing x hpc
      rw [h.sub] at hsub
      cases hsub

theorem Rests.queue {mgr : τ} {reg : τ → Bool} (h : Rests subs s) (hc : Consistent mgr reg s)
    (x : τ) : s.queue x = [] := by
  have hstep := h (.dequeue x) trivial
  simp only [step, h.thread hc x] at hstep
  rw [← StableQueue.pop_eq_none_iff Msg.getPriority]
  cases hpop : StableQueue.pop Msg.getPriority (s.queue x) with
  | none => rfl
  | some p =>
      rw [hpop] at hstep
      cases hstep

/-- The same commands have been taken by all subscribers and recorded for them, in the same order; a
demand that waits is satisfied exactly if its state was the last one commanded. -/
structure Settled (subs : MsgType → List τ) (mgr : τ) (tasks : List τ) (history : List TaskState)
    (s : ProtocolSystem κ τ) : Prop where
  idle : s.sub = none ∧ ∀ x, s.thread x = .idle ∧ s.queue x = []
  applied : ∀ t ∈ subs .stateMsg, t ≠ mgr →
    s.applied t = history ∧ s.currentState t = history.getLastD .notStarted
  recorded : ∀ t ∈ subs .stateMsg, t ≠ mgr → t ∈ tasks →
    s.written t = history ∧ s.manager.taskStates.find? t = some (s.currentState t)
  satisfied : tasks ≠ [] → (∀ t ∈ tasks, t ∈ subs .stateMsg ∧ t ≠ mgr) → ∀ newState,
    (s.manager.allTasksInState newState = true ↔ history.getLastD .notStarted = newState)

omit [DecidableEq κ] in
theorem Consistent.mem_entries_iff {mgr : τ} {tasks : List τ}
    (h : Consistent mgr (fun t => decide (t ∈ tasks)) s) {t : τ} :
    t ∈ s.manager.taskStates.entries.map Prod.fst ↔ t ∈ tasks := by
  rw [OrdMap.mem_keys_iff, h.isSome_find? t, decide_eq_true_eq]

theorem Rests.settled {mgr : τ} {tasks : List τ} {history : List TaskState} (h : Rests subs s)
    (hc : Consistent mgr (fun t => decide (t ∈ tasks)) s) (hi : InStep subs history s) :
    Settled subs mgr tasks history s := by
  have happlied : ∀ t ∈ subs .stateMsg, t ≠ mgr →
      s.applied t = history ∧ s.currentState t = history.getLastD .notStarted := by
    intro t ht hmgr
    have htaken : s.applied t = history := by
      have hcommands := hc.commands t hmgr
      rw [hi.commanded t ht] at hcommands
      simpa [commandInHand, commandsQueued, underway, h.thread hc t, h.queue hc t, h.sub]
        using hcommands
    exact ⟨htaken, by rw [hc.state t, htaken]⟩
  have hrecorded : ∀ t ∈ subs .stateMsg, t ≠ mgr → t ∈ tasks →
      s.written t = history ∧ s.manager.taskStates.find? t = some (s.currentState t) := by
    intro t ht hmgr htasks
    have hacks := hc.acks t (decide_eq_true htasks)
    have hpublishes := hc.publishes t hmgr
    simp only [ackInHand, acksQueued, h.thread hc, h.queue hc, List.filterMap_nil,
      List.append_nil] at hacks
    simp only [unpublished, h.thread hc t, List.append_nil] at hpublishes
    obtain ⟨htaken, hstate⟩ := happlied t ht hmgr
    have hwritten : s.written t = history := by rw [hacks, hpublishes, htaken]
    refine ⟨hwritten, ?_⟩
    rw [hc.records t, if_pos (decide_eq_true htasks), hwritten, hstate]
  refine ⟨⟨h.sub, fun x => ⟨h.thread hc x, h.queue hc x⟩⟩, happlied, hrecorded, ?_⟩
  intro hne htasks newState
  rw [StateManager.allTasksInState_iff]
  constructor
  · intro hall
    obtain ⟨t, ht⟩ := List.exists_mem_of_ne_nil tasks hne
    obtain ⟨hsub, hmgr⟩ := htasks t ht
    have hrecord := hall t (hc.mem_entries_iff.mpr ht)
    rw [(hrecorded t hsub hmgr ht).2, (happlied t hsub hmgr).2] at hrecord
    exact Option.some.inj hrecord
  · intro hlast t ht
    obtain ⟨hsub, hmgr⟩ := htasks t (hc.mem_entries_iff.mp ht)
    rw [(hrecorded t hsub hmgr (hc.mem_entries_iff.mp ht)).2, (happlied t hsub hmgr).2, hlast]

/-- The broadcast in progress has come to a full queue, whose thread is itself to publish or
publishing: `enqueue` fails its assertion. -/
def Stuck (capacity : τ → ℕ) (s : ProtocolSystem κ τ) : Prop :=
  ∃ p msg x rest, s.sub = some ⟨p, msg, x :: rest⟩ ∧ capacity x ≤ (s.queue x).length ∧
    (s.thread x = .announce ∨ s.thread x = .publishing)

/-- Nothing is left to do but the checks of those who wait, and what would fail an assertion. -/
def RestsWithin (subs : MsgType → List τ) (capacity : τ → ℕ) (s : ProtocolSystem κ τ) : Prop :=
  ∀ e, s.Works e → boundedStep subs capacity s e = none

theorem RestsWithin.stuck_or_rests {capacity : τ → ℕ} (hcap : ∀ x, 0 < capacity x)
    (h : RestsWithin subs capacity s) : Stuck capacity s ∨ Rests subs s := by
  -- only a delivery needs room
  have hfree : ∀ e, s.Works e → e ≠ .deliver → step subs s e = none := by
    intro e he hne
    have hroom : s.overflows capacity e = false := by
      cases e with
      | deliver => exact absurd rfl hne
      | other x msg => exact he.elim
      | _ => rfl
    exact (guarded_of_not_aborts hroom).symm.trans (h e he)
  cases hover : s.overflows capacity .deliver with
  | false =>
      right
      intro e he
      by_cases hdeliver : e = .deliver
      · subst hdeliver
        exact (guarded_of_not_aborts hover).symm.trans (h .deliver he)
      · exact hfree e he hdeliver
  | true =>
      left
      obtain ⟨x, hreceiver, hfull⟩ := overflows_iff.mp hover
      obtain ⟨d, hsub, hhead⟩ := Option.bind_eq_some_iff.mp hreceiver
      obtain ⟨rest, hrest⟩ := List.head?_eq_some_iff.mp hhead
      obtain ⟨p, msg, subscribers⟩ := d
      obtain rfl : subscribers = x :: rest := hrest
      refine ⟨p, msg, x, rest, hsub, hfull, ?_⟩
      cases hpc : s.thread x with
      | idle =>
          -- a thread that waits takes the next message
          have hempty := hfree (.dequeue x) trivial (by simp)
          simp only [step, hpc] at hempty
          have hpos := hcap x
          cases hpop : StableQueue.pop Msg.getPriority (s.queue x) with
          | none =>
              rw [StableQueue.pop_eq_none_iff] at hpop
              rw [hpop, List.length_nil] at hfull
              omega
          | some p =>
              rw [hpop] at hempty
              cases hempty
      | handling msg =>
          have hstep := hfree (.process x) trivial (by simp)
          simp only [step, processStep, hpc] at hstep
          split_ifs at hstep
          split at hstep
          · cases hstep
          · cases hstep
      | announce => exact Or.inl rfl
      | publishing => exact Or.inr rfl

/-- **The tasks settle in one state.**  In queues of any capacity, from every state reached without a
failed assertion: as long as no call begins and no other message arrives, queue threads and broadcasts
take at most `workLeft` steps, whatever the waiting threads check meanwhile; and when neither they nor a
thread about to publish can go on, a delivery fails at a full queue, or all subscribers have taken the
same commands in the same order and the manager has recorded them. -/
theorem tasks_settle [Fintype κ] [Fintype τ] {mgr : τ} {tasks : List τ}
    {currentState targetState : TaskState} {capacity : τ → ℕ} (hcap : ∀ x, 0 < capacity x)
    (hw : Wired subs mgr) (s : ProtocolSystem κ τ)
    (hs : Reaches (boundedStep subs capacity) (start mgr tasks currentState targetState) s) :
    (∀ es s', (∀ e ∈ es, Internal e) → run (boundedStep subs capacity) s es = some s' →
      es.countP worked ≤ s.workLeft subs) ∧
    (RestsWithin subs capacity s →
      Stuck capacity s ∨ ∃ history, Settled subs mgr tasks history s) := by
  refine ⟨fun _ _ hes hrun => countP_worked_le hes (run_of_guarded hrun), fun hrest => ?_⟩
  refine (hrest.stuck_or_rests hcap).imp_right (fun hrest => ?_)
  obtain ⟨history, hi⟩ := reaches_inStep hw hs.of_guarded
  exact ⟨history, hrest.settled (reaches_consistent hw hs.of_guarded) hi⟩

/-- Two controllers command two tasks, the second one with a demand. -/
def twoTasks : List (ProtocolEvent Bool (Fin 3)) :=
  [.requestStateTransition true .idle, .demandStateTransition false .running, .control true,
    .control false, .control true, .control false, .deliver, .dequeue 1, .process 1, .deliver,
    .deliver, .process 1, .deliver, .deliver, .control false, .deliver, .dequeue 1, .process 1,
    .dequeue 2, .process 2, .deliver, .deliver, .process 2, .deliver, .deliver, .control false,
    .dequeue 2, .process 2, .dequeue 0, .process 0, .process 2, .deliver, .deliver, .process 1,
    .deliver, .deliver, .dequeue 0, .process 0, .control false, .dequeue 0, .process 0, .dequeue 0,
    .process 0]

/-- The tasks take their steps in different orders and end in the same state. -/
theorem tasks_settle_two : ∃ s : ProtocolSystem Bool (Fin 3),
    run (boundedStep (wiring 0 [1, 2]) (fun _ => queueMsgCount))
      (start 0 [1, 2] .notStarted .notStarted) twoTasks = some s ∧
    s.applied 1 = [.idle, .running] ∧ s.applied 2 = [.idle, .running] ∧
    RestsWithin (wiring 0 [1, 2]) (fun _ => queueMsgCount) s ∧
    ∃ history, Settled (wiring 0 [1, 2]) 0 [1, 2] history s := by
  have hw : Wired (wiring (0 : Fin 3) [1, 2]) 0 := wiring_wired 0 (by decide)
  obtain ⟨s, hrun, hone, htwo, hsub, hthread, hqueue, hcontrol⟩ : ∃ s : ProtocolSystem Bool (Fin 3),
      run (boundedStep (wiring 0 [1, 2]) (fun _ => queueMsgCount))
        (start 0 [1, 2] .notStarted .notStarted) twoTasks = some s ∧
      s.applied 1 = [.idle, .running] ∧ s.applied 2 = [.idle, .running] ∧ s.sub = none ∧
      (∀ x, s.thread x = .idle) ∧ (∀ x, s.queue x = []) ∧
      ∀ c, ¬ Commanding (s.controller c) := by
    refine ⟨_, rfl, rfl, rfl, rfl, ?_, ?_, ?_⟩
    · intro x
      match x with
      | 0 => rfl
      | 1 => rfl
      | 2 => rfl
    · intro x
      match x with
      | 0 => rfl
      | 1 => rfl
      | 2 => rfl
    · intro c
      cases c <;> exact id
  have hrest : RestsWithin (wiring 0 [1, 2]) (fun _ => queueMsgCount) s := by
    intro e he
    cases e with
    | dequeue x => simp [boundedStep, guarded, step, hthread x, hqueue x]
    | process x => simp [boundedStep, guarded, step, processStep, hthread x]
    | deliver => simp [boundedStep, guarded, step, deliverStep, hsub]
    | control c => exact absurd he (hcontrol c)
    | _ => exact he.elim
  refine ⟨s, hrun, hone, htwo, hrest,
    ((tasks_settle (fun _ => by decide) hw s ⟨_, hrun⟩).2 hrest).resolve_left ?_⟩
  rintro ⟨p, msg, x, rest, hsome, -⟩
  rw [hsub] at hsome
  cases hsome

end ProtocolSystem

end Protocore
