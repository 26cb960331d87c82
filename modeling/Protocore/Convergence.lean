import Protocore.StateProtocol

/-! # Convergence of the state transitions

`Consistent` says that each history of a task is the next one followed by what is on its way in
between: nothing is lost, duplicated or reordered.  Hence in a state at rest the manager's record of
a task is the state of the task. -/

namespace Protocore

variable {κ τ : Type} [DecidableEq κ] [LinearOrder τ]

namespace ProtocolSystem

variable {subs : MsgType → List τ}

/-! ### What is on its way -/

/-- The command a thread is handling. -/
def commandInHand (s : ProtocolSystem κ τ) (t : τ) : List TaskState :=
  match s.thread t with
  | .handling msg => (commandOf msg).toList
  | _ => []

/-- The commands waiting in the queue of a task. -/
def commandsQueued (s : ProtocolSystem κ τ) (t : τ) : List TaskState :=
  (s.queue t).filterMap commandOf

/-- The state a task has taken and whose acknowledgment has not reached the manager. -/
def unpublished (s : ProtocolSystem κ τ) (t : τ) : List TaskState :=
  match s.thread t, s.sub with
  | .announce, _ => [s.currentState t]
  | .publishing, some d => if s.manager.self ∈ d.rest then [s.currentState t] else []
  | _, _ => []

/-- The acknowledgment of a task that the manager is handling. -/
def ackInHand (s : ProtocolSystem κ τ) (t : τ) : List TaskState :=
  match s.thread s.manager.self with
  | .handling msg => (ackOf t msg).toList
  | _ => []

/-- The acknowledgments of a task waiting in the queue of the manager. -/
def acksQueued (s : ProtocolSystem κ τ) (t : τ) : List TaskState :=
  (s.queue s.manager.self).filterMap (ackOf t)

/-- The histories agree with each other, with the records and with the states of the tasks.
`mgr` is the manager and `reg` tells the registered tasks. -/
structure Consistent (mgr : τ) (reg : τ → Bool) (s : ProtocolSystem κ τ) : Prop where
  self_eq : s.manager.self = mgr
  manager_idle : s.thread mgr ≠ .announce ∧ s.thread mgr ≠ .publishing
  sub_task : ∀ t msg rest, s.sub = some ⟨.task t, msg, rest⟩ →
    s.thread t = .publishing ∧ msg = ackMsg t (s.currentState t) ∧ rest.Nodup
  sub_controller : ∀ c msg rest, s.sub = some ⟨.controller c, msg, rest⟩ →
    ∃ newState demand, s.controller c = .publishing newState demand ∧
      msg = ⟨some mgr, .stateMsg ⟨newState.toByte⟩⟩
  publishing : ∀ t, s.thread t = .publishing → ∃ msg rest, s.sub = some ⟨.task t, msg, rest⟩
  records : ∀ t, s.manager.taskStates.find? t =
    if reg t then some ((s.written t).getLastD .notStarted) else none
  acks : ∀ t, reg t = true → s.written t ++ (s.ackInHand t ++ s.acksQueued t) = s.published t
  publishes : ∀ t, t ≠ mgr → s.published t ++ s.unpublished t = s.applied t
  commands : ∀ t, t ≠ mgr →
    s.applied t ++ (s.commandInHand t ++ s.commandsQueued t) = s.commanded t
  state : ∀ t, s.currentState t = (s.applied t).getLastD .notStarted

theorem priority_of_ackOf (t : τ) (msg : Msg τ) (h : (ackOf t msg).isSome) :
    msg.getPriority = 99 := by
  unfold ackOf at h
  split at h
  · rename_i m hdata
    rw [Msg.getPriority, Msg.getType, hdata]
    rfl
  · cases h

/-- What the manager writes is the acknowledgment of the sender. -/
theorem ackOf_of_acknowledged {m : StateManager τ} {msg : Msg τ} {t : τ} {state : TaskState}
    (h : m.acknowledged msg = some (t, state)) (u : τ) :
    ackOf u msg = if u = t then some state else none := by
  obtain ⟨-, hsender, ack, hdata, rfl⟩ := StateManager.acknowledged_eq_some_iff.mp h
  simp only [ackOf, hdata, hsender, Option.some.injEq, eq_comm (a := t)]

theorem ackOf_of_not_acknowledged {m : StateManager τ} {msg : Msg τ}
    (h : m.acknowledged msg = none) {t : τ} (ht : (m.taskStates.find? t).isSome) :
    ackOf t msg = none := by
  apply Option.eq_none_iff_forall_ne_some.mpr
  intro state hack
  unfold ackOf at hack
  split at hack
  · rename_i ack hdata
    split_ifs at hack with hsender
    have hsome : m.acknowledged msg = some (t, .ofByte ack.state) :=
      StateManager.acknowledged_eq_some_iff.mpr ⟨ht, hsender, ack, hdata, rfl⟩
    rw [h] at hsome
    cases hsome
  · cases hack

omit [LinearOrder τ] in
theorem commandOf_eq_none {msg : Msg τ} (h : msg.getType ≠ .stateMsg) : commandOf msg = none := by
  unfold commandOf
  split
  · rename_i m hdata
    rw [Msg.getType, hdata] at h
    exact absurd rfl h
  · rfl

theorem ackOf_eq_none (t : τ) {msg : Msg τ} (h : msg.getType ≠ .stateAckMsg) :
    ackOf t msg = none := by
  unfold ackOf
  split
  · rename_i m hdata
    rw [Msg.getType, hdata] at h
    exact absurd rfl h
  · rfl

section step

variable {mgr : τ} {reg : τ → Bool} {s : ProtocolSystem κ τ}

/-- A controlling thread that is not publishing takes a step. -/
theorem Consistent.sub_controller_update (h : Consistent mgr reg s) {c : κ} {pc : ControlPc τ}
    (hc : ∀ newState demand, s.controller c ≠ .publishing newState demand) :
    ∀ c' msg rest, s.sub = some ⟨.controller c', msg, rest⟩ →
      ∃ newState demand, Function.update s.controller c pc c' = .publishing newState demand ∧
        msg = ⟨some mgr, .stateMsg ⟨newState.toByte⟩⟩ := by
  intro c' msg rest hsub
  obtain ⟨newState, demand, hpc, hmsg⟩ := h.sub_controller c' msg rest hsub
  have hne : c' ≠ c := fun heq => hc newState demand (heq ▸ hpc)
  exact ⟨newState, demand, by rw [Function.update_of_ne hne, hpc], hmsg⟩

omit [DecidableEq κ] in
/-- A thread that is not publishing takes a step. -/
theorem Consistent.sub_task_update (h : Consistent mgr reg s) {x : τ} {pc : ThreadPc τ}
    (hx : s.thread x ≠ .publishing) (t : τ) (msg : Msg τ) (rest : List τ)
    (hsub : s.sub = some ⟨.task t, msg, rest⟩) : t ≠ x ∧
      Function.update s.thread x pc t = .publishing ∧ msg = ackMsg t (s.currentState t) ∧
        rest.Nodup := by
  obtain ⟨hpc, hmsg, hnodup⟩ := h.sub_task t msg rest hsub
  have hne : t ≠ x := fun heq => hx (heq ▸ hpc)
  exact ⟨hne, by rw [Function.update_of_ne hne, hpc], hmsg, hnodup⟩

omit [DecidableEq κ] in
theorem Consistent.publishing_update (h : Consistent mgr reg s) {x : τ} {pc : ThreadPc τ}
    (hpc : pc ≠ .publishing) (t : τ) (ht : Function.update s.thread x pc t = .publishing) :
    ∃ msg rest, s.sub = some ⟨.task t, msg, rest⟩ := by
  by_cases hne : t = x
  · rw [hne, Function.update_self] at ht
    exact absurd ht hpc
  · rw [Function.update_of_ne hne] at ht
    exact h.publishing t ht

omit [DecidableEq κ] in
/-- Only the task whose broadcast is in progress is publishing. -/
theorem Consistent.not_publishing (h : Consistent mgr reg s) {t : τ}
    (hsub : ∀ msg rest, s.sub ≠ some ⟨.task t, msg, rest⟩) : s.thread t ≠ .publishing := by
  intro ht
  obtain ⟨msg, rest, heq⟩ := h.publishing t ht
  exact hsub msg rest heq

omit [DecidableEq κ] in
theorem unpublished_congr {s' : ProtocolSystem κ τ} {t : τ} (hthread : s'.thread t = s.thread t)
    (hstate : s'.currentState t = s.currentState t) (hnot : s.thread t ≠ .publishing) :
    s'.unpublished t = s.unpublished t := by
  unfold unpublished
  rw [hthread, hstate]
  cases hpc : s.thread t with
  | publishing => exact absurd hpc hnot
  | _ => rfl

theorem Consistent.publish (h : Consistent mgr reg s) {c : κ} {newState : TaskState}
    {demand : Bool} (hfree : s.sub = none) (rest : List τ) :
    Consistent mgr reg { s with
      sub := some ⟨.controller c, ⟨some s.manager.self, .stateMsg ⟨newState.toByte⟩⟩, rest⟩
      controller := Function.update s.controller c (.publishing newState demand) } := by
  have hnot : ∀ t, s.thread t ≠ .publishing := fun t => h.not_publishing (by simp [hfree])
  have hunpublished : ∀ t, unpublished { s with
      sub := some ⟨.controller c, ⟨some s.manager.self, .stateMsg ⟨newState.toByte⟩⟩, rest⟩
      controller := Function.update s.controller c (.publishing newState demand) } t =
        s.unpublished t :=
    fun t => unpublished_congr rfl rfl (hnot t)
  refine ⟨h.self_eq, h.manager_idle, ?_, ?_, ?_, h.records, h.acks, ?_, h.commands, h.state⟩
  · intro t msg rest' hsub
    cases hsub
  · intro c' msg rest' hsub
    cases hsub
    exact ⟨newState, demand, Function.update_self .., by rw [h.self_eq]⟩
  · intro t ht
    exact absurd ht (hnot t)
  · intro t ht
    rw [hunpublished]
    exact h.publishes t ht

omit [DecidableEq κ] in
theorem Consistent.dequeue (h : Consistent mgr reg s) {x : τ} {msg : Msg τ}
    {rest : List (Msg τ)} (hidle : s.thread x = .idle)
    (hpop : StableQueue.pop Msg.getPriority (s.queue x) = some (msg, rest)) :
    Consistent mgr reg { s with
      queue := Function.update s.queue x rest
      thread := Function.update s.thread x (.handling msg) } := by
  obtain rfl := h.self_eq
  have hthread : ∀ t, t ≠ x → Function.update s.thread x (.handling msg) t = s.thread t :=
    fun t ht => Function.update_of_ne ht ..
  have hqueue : ∀ t, t ≠ x → Function.update s.queue x rest t = s.queue t :=
    fun t ht => Function.update_of_ne ht ..
  have hunpublished : ∀ t, unpublished { s with
      queue := Function.update s.queue x rest
      thread := Function.update s.thread x (.handling msg) } t = s.unpublished t := by
    intro t
    unfold unpublished
    by_cases ht : t = x
    · simp [ht, hidle]
    · simp only [hthread t ht]
  refine ⟨rfl, ?_, fun t m r hsub => (h.sub_task_update (by simp [hidle]) t m r hsub).2,
    h.sub_controller, h.publishing_update (by simp), h.records, ?_, ?_, ?_, h.state⟩
  · by_cases hx : s.manager.self = x
    · simp [hx]
    · simp only [hthread _ hx]
      exact h.manager_idle
  · intro t ht
    rw [← h.acks t ht]
    by_cases hx : s.manager.self = x
    · simp only [ackInHand, acksQueued, hx, Function.update_self, hidle, List.nil_append]
      rw [StableQueue.filterMap_pop Msg.getPriority hpop (priority_of_ackOf t)]
    · simp only [ackInHand, acksQueued, hthread _ hx, hqueue _ hx]
  · intro t ht
    rw [hunpublished]
    exact h.publishes t ht
  · intro t ht
    rw [← h.commands t ht]
    by_cases hx : t = x
    · subst hx
      simp only [commandInHand, commandsQueued, Function.update_self, hidle, List.nil_append]
      rw [StableQueue.filterMap_pop Msg.getPriority hpop priority_of_commandOf]
    · simp only [commandInHand, commandsQueued, hthread t hx, hqueue t hx]

omit [DecidableEq κ] in
/-- The manager's thread finishes a message; the histories and records that change are given. -/
theorem Consistent.processed (h : Consistent mgr reg s) {msg : Msg τ}
    (hpc : s.thread mgr = .handling msg) {manager : StateManager τ} {written : τ → List TaskState}
    (hself : manager.self = mgr)
    (hrecords : ∀ t, manager.taskStates.find? t =
      if reg t then some ((written t).getLastD .notStarted) else none)
    (hwritten : ∀ t, reg t = true → written t = s.written t ++ (ackOf t msg).toList) :
    Consistent mgr reg { s with
      manager := manager
      thread := Function.update s.thread mgr .idle
      written := written } := by
  obtain rfl := h.self_eq
  have hthread : ∀ t, t ≠ s.manager.self →
      Function.update s.thread s.manager.self .idle t = s.thread t :=
    fun t ht => Function.update_of_ne ht ..
  have hunpublished : ∀ t, t ≠ s.manager.self → unpublished { s with
      manager := manager
      thread := Function.update s.thread s.manager.self .idle
      written := written } t = s.unpublished t := by
    intro t ht
    unfold unpublished
    simp only [hthread t ht, hself]
  refine ⟨hself, by simp, fun t m r hsub => (h.sub_task_update (by simp [hpc]) t m r hsub).2,
    h.sub_controller, h.publishing_update (by simp), hrecords, ?_, ?_, ?_, h.state⟩
  · intro t ht
    rw [← h.acks t ht]
    simp only [ackInHand, acksQueued, hself, Function.update_self, hpc, hwritten t ht,
      List.append_assoc, List.nil_append]
  · intro t ht
    rw [hunpublished t ht]
    exact h.publishes t ht
  · intro t ht
    rw [← h.commands t ht]
    simp only [commandInHand, commandsQueued, hthread t ht]

omit [DecidableEq κ] in
theorem Consistent.apply (h : Consistent mgr reg s) {x : τ} {msg : Msg τ} {state : TaskState}
    (hx : x ≠ mgr) (hpc : s.thread x = .handling msg) (hcmd : commandOf msg = some state) :
    Consistent mgr reg { s with
      currentState := Function.update s.currentState x state
      thread := Function.update s.thread x .announce
      applied := Function.update s.applied x (s.applied x ++ [state]) } := by
  obtain rfl := h.self_eq
  have hthread : ∀ t, t ≠ x → Function.update s.thread x .announce t = s.thread t :=
    fun t ht => Function.update_of_ne ht ..
  have hstate : ∀ t, t ≠ x → Function.update s.currentState x state t = s.currentState t :=
    fun t ht => Function.update_of_ne ht ..
  have happlied : ∀ t, t ≠ x →
      Function.update s.applied x (s.applied x ++ [state]) t = s.applied t :=
    fun t ht => Function.update_of_ne ht ..
  refine ⟨rfl, ?_, ?_, h.sub_controller, h.publishing_update (by simp), h.records, ?_, ?_, ?_, ?_⟩
  · simp only [hthread _ hx.symm]
    exact h.manager_idle
  · intro t m r hsub
    have hnot : s.thread x ≠ .publishing := by simp [hpc]
    obtain ⟨hne, hpc', hmsg, hnodup⟩ := h.sub_task_update hnot t m r hsub
    refine ⟨hpc', ?_, hnodup⟩
    simp only [hstate t hne]
    exact hmsg
  · intro t ht
    rw [← h.acks t ht]
    simp only [ackInHand, acksQueued, hthread _ hx.symm]
  · intro t ht
    have hpublishes := h.publishes t ht
    by_cases hne : t = x
    · subst hne
      simp only [unpublished, hpc, List.append_nil] at hpublishes
      simp [unpublished, hpublishes]
    · simpa only [unpublished, hthread t hne, hstate t hne, happlied t hne] using hpublishes
  · intro t ht
    rw [← h.commands t ht]
    by_cases hne : t = x
    · subst hne
      simp [commandInHand, commandsQueued, hpc, hcmd]
    · simp only [commandInHand, commandsQueued, hthread t hne, happlied t hne]
  · intro t
    by_cases hne : t = x
    · subst hne
      simp
    · simp only [hstate t hne, happlied t hne]
      exact h.state t

omit [DecidableEq κ] in
theorem Consistent.skip (h : Consistent mgr reg s) {x : τ} {msg : Msg τ}
    (hx : x ≠ mgr) (hpc : s.thread x = .handling msg) (hcmd : commandOf msg = none) :
    Consistent mgr reg { s with thread := Function.update s.thread x .idle } := by
  obtain rfl := h.self_eq
  have hthread : ∀ t, t ≠ x → Function.update s.thread x .idle t = s.thread t :=
    fun t ht => Function.update_of_ne ht ..
  refine ⟨rfl, ?_, fun t m r hsub => (h.sub_task_update (by simp [hpc]) t m r hsub).2,
    h.sub_controller, h.publishing_update (by simp), h.records, ?_, ?_, ?_, h.state⟩
  · simp only [hthread _ hx.symm]
    exact h.manager_idle
  · intro t ht
    rw [← h.acks t ht]
    simp only [ackInHand, acksQueued, hthread _ hx.symm]
  · intro t ht
    have hpublishes := h.publishes t ht
    by_cases hne : t = x
    · subst hne
      simpa [unpublished, hpc] using hpublishes
    · simpa only [unpublished, hthread t hne] using hpublishes
  · intro t ht
    rw [← h.commands t ht]
    by_cases hne : t = x
    · subst hne
      simp [commandInHand, commandsQueued, hpc, hcmd]
    · simp only [commandInHand, commandsQueued, hthread t hne]

omit [DecidableEq κ] in
theorem Consistent.announce (h : Consistent mgr reg s) {x : τ} {rest : List τ}
    (hpc : s.thread x = .announce) (hfree : s.sub = none) (hmgr : mgr ∈ rest)
    (hnodup : rest.Nodup) :
    Consistent mgr reg { s with
      sub := some ⟨.task x, ackMsg x (s.currentState x), rest⟩
      thread := Function.update s.thread x .publishing } := by
  obtain rfl := h.self_eq
  have hx : x ≠ s.manager.self := by
    rintro rfl
    exact h.manager_idle.1 hpc
  have hnot : ∀ t, s.thread t ≠ .publishing := fun t => h.not_publishing (by simp [hfree])
  have hthread : ∀ t, t ≠ x → Function.update s.thread x .publishing t = s.thread t :=
    fun t ht => Function.update_of_ne ht ..
  have hunpublished : ∀ t, unpublished { s with
      sub := some ⟨.task x, ackMsg x (s.currentState x), rest⟩
      thread := Function.update s.thread x .publishing } t = s.unpublished t := by
    intro t
    by_cases hne : t = x
    · subst hne
      simp [unpublished, hpc, hmgr]
    · exact unpublished_congr (hthread t hne) rfl (hnot t)
  refine ⟨rfl, ?_, ?_, ?_, ?_, h.records, ?_, ?_, ?_, h.state⟩
  · simp only [hthread _ hx.symm]
    exact h.manager_idle
  · intro t msg rest' hsub
    cases hsub
    exact ⟨Function.update_self .., rfl, hnodup⟩
  · intro c msg rest' hsub
    cases hsub
  · intro t ht
    by_cases hne : t = x
    · exact ⟨_, _, by rw [hne]⟩
    · simp only [hthread t hne] at ht
      exact absurd ht (hnot t)
  · intro t ht
    rw [← h.acks t ht]
    simp only [ackInHand, acksQueued, hthread _ hx.symm]
  · intro t ht
    rw [hunpublished]
    exact h.publishes t ht
  · intro t ht
    rw [← h.commands t ht]
    by_cases hne : t = x
    · subst hne
      simp [commandInHand, commandsQueued, hpc]
    · simp only [commandInHand, commandsQueued, hthread t hne]

omit [DecidableEq κ] in
/-- A delivery moves the acknowledgment of a task from `unpublished` to `published`. -/
theorem Consistent.published_deliver (h : Consistent mgr reg s) {p : Publisher κ τ} {msg : Msg τ}
    {x : τ} {rest : List τ} (hsub : s.sub = some ⟨p, msg, x :: rest⟩) (s' : ProtocolSystem κ τ)
    (hs' : s' = { s with
      queue := Function.update s.queue x (s.queue x ++ [msg])
      sub := some ⟨p, msg, rest⟩
      commanded := Function.update s.commanded x (s.commanded x ++ (commandOf msg).toList)
      published := if x = s.manager.self then
          fun t => s.published t ++ (ackOf t msg).toList
        else s.published }) (t : τ) :
    s'.published t ++ s'.unpublished t = s.published t ++ s.unpublished t := by
  obtain rfl := h.self_eq
  subst hs'
  by_cases ht : ∃ msg' rest', s.sub = some ⟨.task t, msg', rest'⟩
  · obtain ⟨msg', rest', hsub'⟩ := ht
    obtain ⟨hpc, rfl, hnodup⟩ := h.sub_task t msg' rest' hsub'
    obtain ⟨rfl, rfl, rfl⟩ : p = .task t ∧ msg = ackMsg t (s.currentState t) ∧ rest' = x :: rest := by
      rw [hsub] at hsub'
      cases hsub'
      exact ⟨rfl, rfl, rfl⟩
    by_cases hx : x = s.manager.self
    · have hrest : s.manager.self ∉ rest := hx ▸ (List.nodup_cons.mp hnodup).1
      simp [unpublished, hpc, hsub, hx, hrest, ackOf, ackMsg]
    · simp [unpublished, hpc, hsub, hx, Ne.symm hx]
  · have hnot : s.thread t ≠ .publishing := fun hpc => ht (h.publishing t hpc)
    have hack : ackOf t msg = none := by
      cases p with
      | controller c =>
          obtain ⟨newState, demand, -, rfl⟩ := h.sub_controller c msg _ hsub
          rfl
      | task u =>
          obtain ⟨-, rfl, -⟩ := h.sub_task u msg _ hsub
          have hne : u ≠ t := by
            rintro rfl
            exact ht ⟨_, _, hsub⟩
          simp [ackOf, ackMsg, hne]
    have hpublished : (if x = s.manager.self then
        fun t => s.published t ++ (ackOf t msg).toList else s.published) t = s.published t := by
      split_ifs
      · simp [hack]
      · rfl
    exact congrArg₂ (· ++ ·) hpublished (unpublished_congr rfl rfl hnot)

omit [DecidableEq κ] in
theorem Consistent.deliver (h : Consistent mgr reg s) {p : Publisher κ τ} {msg : Msg τ}
    {x : τ} {rest : List τ} (hsub : s.sub = some ⟨p, msg, x :: rest⟩) :
    Consistent mgr reg { s with
      queue := Function.update s.queue x (s.queue x ++ [msg])
      sub := some ⟨p, msg, rest⟩
      commanded := Function.update s.commanded x (s.commanded x ++ (commandOf msg).toList)
      published := if x = s.manager.self then
          fun t => s.published t ++ (ackOf t msg).toList
        else s.published } := by
  have hpublished := h.published_deliver hsub _ rfl
  obtain rfl := h.self_eq
  refine ⟨rfl, h.manager_idle, ?_, ?_, ?_, h.records, ?_, ?_, ?_, h.state⟩
  · intro t msg' rest' hsub'
    cases hsub'
    obtain ⟨hpc, hmsg, hnodup⟩ := h.sub_task t msg _ hsub
    exact ⟨hpc, hmsg, (List.nodup_cons.mp hnodup).2⟩
  · intro c msg' rest' hsub'
    cases hsub'
    exact h.sub_controller c msg _ hsub
  · intro t ht
    obtain ⟨msg', rest', hsub'⟩ := h.publishing t ht
    rw [hsub] at hsub'
    cases hsub'
    exact ⟨msg, rest, rfl⟩
  · intro t ht
    by_cases hx : s.manager.self = x
    · simp only [acksQueued, ackInHand, hx, Function.update_self, if_true, ← h.acks t ht,
        StableQueue.filterMap_push, List.append_assoc]
    · simp only [acksQueued, ackInHand, Function.update_of_ne hx, if_neg (Ne.symm hx)]
      exact h.acks t ht
  · intro t ht
    rw [hpublished t]
    exact h.publishes t ht
  · intro t ht
    by_cases hx : t = x
    · subst hx
      simp only [commandsQueued, commandInHand, Function.update_self, ← h.commands t ht,
        StableQueue.filterMap_push, List.append_assoc]
    · simp only [commandsQueued, commandInHand, Function.update_of_ne hx]
      exact h.commands t ht

theorem Consistent.commanded (h : Consistent mgr reg s) {c : κ} {msg : Msg τ} {pc : ControlPc τ}
    (hsub : s.sub = some ⟨.controller c, msg, []⟩) : Consistent mgr reg { s with
      sub := none
      controller := Function.update s.controller c pc } := by
  have hnot : ∀ t, s.thread t ≠ .publishing := fun t => h.not_publishing (by simp [hsub])
  have hunpublished : ∀ t, unpublished { s with
      sub := none
      controller := Function.update s.controller c pc } t = s.unpublished t :=
    fun t => unpublished_congr rfl rfl (hnot t)
  refine ⟨h.self_eq, h.manager_idle, by simp, by simp, ?_, h.records, h.acks, ?_, h.commands,
    h.state⟩
  · intro t ht
    exact absurd ht (hnot t)
  · intro t ht
    rw [hunpublished]
    exact h.publishes t ht

omit [DecidableEq κ] in
theorem Consistent.acknowledged (h : Consistent mgr reg s) {x : τ} {msg : Msg τ}
    (hsub : s.sub = some ⟨.task x, msg, []⟩) : Consistent mgr reg { s with
      sub := none
      thread := Function.update s.thread x .idle } := by
  obtain rfl := h.self_eq
  obtain ⟨hpc, -, -⟩ := h.sub_task x msg [] hsub
  have hx : x ≠ s.manager.self := by
    rintro rfl
    exact h.manager_idle.2 hpc
  have hthread : ∀ t, t ≠ x → Function.update s.thread x .idle t = s.thread t :=
    fun t ht => Function.update_of_ne ht ..
  have hnot : ∀ t, t ≠ x → s.thread t ≠ .publishing := by
    intro t ht
    apply h.not_publishing
    intro msg' rest' hsub'
    rw [hsub] at hsub'
    cases hsub'
    exact ht rfl
  have hunpublished : ∀ t, unpublished { s with
      sub := none
      thread := Function.update s.thread x .idle } t = s.unpublished t := by
    intro t
    by_cases hne : t = x
    · subst hne
      simp [unpublished, hpc, hsub]
    · exact unpublished_congr (hthread t hne) rfl (hnot t hne)
  refine ⟨rfl, ?_, by simp, by simp, ?_, h.records, ?_, ?_, ?_, h.state⟩
  · simp only [hthread _ hx.symm]
    exact h.manager_idle
  · intro t ht
    by_cases hne : t = x
    · simp [hne] at ht
    · simp only [hthread t hne] at ht
      exact absurd ht (hnot t hne)
  · intro t ht
    rw [← h.acks t ht]
    simp only [ackInHand, acksQueued, hthread _ hx.symm]
  · intro t ht
    rw [hunpublished]
    exact h.publishes t ht
  · intro t ht
    rw [← h.commands t ht]
    by_cases hne : t = x
    · subst hne
      simp [commandInHand, commandsQueued, hpc]
    · simp only [commandInHand, commandsQueued, hthread t hne]

omit [DecidableEq κ] in
theorem Consistent.other (h : Consistent mgr reg s) {x : τ} {msg : Msg τ}
    (hcommand : commandOf msg = none) (hack : ∀ t, ackOf t msg = none) :
    Consistent mgr reg { s with queue := Function.update s.queue x (s.queue x ++ [msg]) } := by
  obtain rfl := h.self_eq
  refine ⟨rfl, h.manager_idle, h.sub_task, h.sub_controller, h.publishing, h.records, ?_,
    h.publishes, ?_, h.state⟩
  · intro t ht
    rw [← h.acks t ht]
    by_cases hx : s.manager.self = x
    · simp [acksQueued, ackInHand, hx, hack]
    · simp only [acksQueued, ackInHand, Function.update_of_ne hx]
  · intro t ht
    rw [← h.commands t ht]
    by_cases hx : t = x
    · simp [commandsQueued, commandInHand, hx, hcommand]
    · simp only [commandsQueued, commandInHand, Function.update_of_ne hx]

omit [DecidableEq κ] in
theorem Consistent.isSome_find? (h : Consistent mgr reg s) (t : τ) :
    (s.manager.taskStates.find? t).isSome = reg t := by
  rw [h.records t]
  cases reg t <;> rfl

omit [DecidableEq κ] in
theorem Consistent.record (h : Consistent mgr reg s) {msg : Msg τ} {t : τ} {state : TaskState}
    (hpc : s.thread mgr = .handling msg) (hack : s.manager.acknowledged msg = some (t, state)) :
    Consistent mgr reg { s with
      manager := { s.manager with taskStates := s.manager.taskStates.insert t state }
      thread := Function.update s.thread mgr .idle
      written := Function.update s.written t (s.written t ++ [state]) } := by
  have hreg : reg t = true :=
    h.isSome_find? t ▸ (StateManager.acknowledged_eq_some_iff.mp hack).1
  refine h.processed hpc ?_ ?_ ?_
  · exact h.self_eq
  · intro u
    rw [OrdMap.find?_insert]
    by_cases hu : u = t
    · subst hu
      simp [hreg, List.getLastD_eq_getLast?]
    · rw [if_neg hu, Function.update_of_ne hu]
      exact h.records u
  · intro u _
    rw [ackOf_of_acknowledged hack u]
    by_cases hu : u = t
    · subst hu
      simp
    · simp [hu]

omit [DecidableEq κ] in
theorem Consistent.ignore (h : Consistent mgr reg s) {msg : Msg τ}
    (hpc : s.thread mgr = .handling msg) (hack : s.manager.acknowledged msg = none) :
    Consistent mgr reg { s with thread := Function.update s.thread mgr .idle } := by
  apply h.processed hpc h.self_eq h.records
  intro t ht
  rw [ackOf_of_not_acknowledged hack (by rw [h.isSome_find? t, ht]), Option.toList_none,
    List.append_nil]

/-- A controlling thread that is not publishing takes a step, and the manager keeps its name and
its records. -/
theorem Consistent.control (h : Consistent mgr reg s) {c : κ} {pc : ControlPc τ}
    (hc : ∀ newState demand, s.controller c ≠ .publishing newState demand)
    {manager : StateManager τ} (hself : manager.self = s.manager.self)
    (htaskStates : manager.taskStates = s.manager.taskStates) :
    Consistent mgr reg { s with
      manager := manager
      controller := Function.update s.controller c pc } := by
  have hacks : ∀ t, ackInHand { s with
      manager := manager
      controller := Function.update s.controller c pc } t = s.ackInHand t ∧
        acksQueued { s with
          manager := manager
          controller := Function.update s.controller c pc } t = s.acksQueued t := by
    intro t
    simp only [ackInHand, acksQueued, hself, and_self]
  have hunpublished : ∀ t, unpublished { s with
      manager := manager
      controller := Function.update s.controller c pc } t = s.unpublished t := by
    intro t
    simp only [unpublished, hself]
  refine ⟨hself.trans h.self_eq, h.manager_idle, h.sub_task, h.sub_controller_update hc,
    h.publishing, ?_, ?_, ?_, h.commands, h.state⟩
  · intro t
    simp only [htaskStates]
    exact h.records t
  · intro t ht
    rw [(hacks t).1, (hacks t).2]
    exact h.acks t ht
  · intro t ht
    rw [hunpublished]
    exact h.publishes t ht

end step

/-- What the tasks and the manager set up before the tasks are started: nobody is twice in a
subscriber list, and the manager hears the acknowledgments. -/
structure Wired (subs : MsgType → List τ) (mgr : τ) : Prop where
  nodup : ∀ type, (subs type).Nodup
  hears_acks : mgr ∈ subs .stateAckMsg

theorem moves_consistent {mgr : τ} {reg : τ → Bool} (hw : Wired subs mgr)
    {s s' : ProtocolSystem κ τ} {e : ProtocolEvent κ τ} (h : Consistent mgr reg s)
    (hm : Moves subs s e s') : Consistent mgr reg s' := by
  have hmgr := h.self_eq
  cases hm with
  | request hpc => exact h.control (by simp [hpc]) rfl rfl
  | demand hpc => exact h.control (by simp [hpc]) rfl rfl
  | setTarget hpc => exact h.control (by simp [hpc]) rfl rfl
  | transition hpc => exact h.control (by simp [hpc]) rfl rfl
  | publish hpc hfree => exact h.publish hfree _
  | check hpc => exact h.control (by simp [hpc]) rfl rfl
  | pass hpc _ => exact h.control (by simp [hpc]) rfl rfl
  | miss hpc _ => exact h.control (by simp [hpc]) rfl rfl
  | succeed hpc => exact h.control (by simp [hpc]) rfl rfl
  | leave hpc => exact h.control (by simp [hpc]) rfl rfl
  | dequeue hpc hpop => exact h.dequeue hpc hpop
  | record hpc hack =>
      rw [hmgr] at hpc ⊢
      exact h.record hpc hack
  | ignore hpc hack =>
      rw [hmgr] at hpc ⊢
      exact h.ignore hpc hack
  | apply hx hpc hcmd => exact h.apply (hmgr ▸ hx) hpc hcmd
  | skip hx hpc hcmd => exact h.skip (hmgr ▸ hx) hpc hcmd
  | announce hpc hfree => exact h.announce hpc hfree hw.hears_acks (hw.nodup _)
  | deliver hsub => exact h.deliver hsub
  | commanded hsub _ _ => exact h.commanded hsub
  | acknowledged hsub => exact h.acknowledged hsub
  | other hstate hack =>
      exact h.other (commandOf_eq_none hstate) (fun t => ackOf_eq_none t hack)

/-- The system after the registration of `tasks` with the manager `mgr`. -/
def start (mgr : τ) (tasks : List τ) (currentState targetState : TaskState) :
    ProtocolSystem κ τ :=
  init ((StateManager.create mgr currentState targetState).registerAll tasks)

omit [DecidableEq κ] in
theorem start_consistent (mgr : τ) (tasks : List τ) (currentState targetState : TaskState) :
    Consistent mgr (fun t => decide (t ∈ tasks))
      (start mgr tasks currentState targetState : ProtocolSystem κ τ) := by
  refine ⟨StateManager.registerAll_self .., ⟨nofun, nofun⟩, nofun, nofun, nofun, ?_, ?_, ?_, ?_, ?_⟩
  · intro t
    simp [start, init, StateManager.find?_registerAll, StateManager.create]
  · intro t _
    rfl
  · intro t _
    rfl
  · intro t _
    rfl
  · intro t
    rfl

theorem reaches_consistent {mgr : τ} {tasks : List τ} {currentState targetState : TaskState}
    (hw : Wired subs mgr) {s : ProtocolSystem κ τ}
    (hs : Reaches (step subs) (start mgr tasks currentState targetState) s) :
    Consistent mgr (fun t => decide (t ∈ tasks)) s :=
  hs.invariant (fun _ _ _ h he => moves_consistent hw h (step_moves he))
    (start_consistent mgr tasks currentState targetState)

/-- In every reachable state the values the manager has written for a task, then the acknowledgment
it is handling, then those in its queue are the acknowledgments the task has published; these, then
the one it is about to publish, are the states it has taken; and these, then the commands it has not
handled, are the commands sent to it.  When all queues are empty and no message is being handled,
the record of the task is its state. -/
theorem records_converge {mgr : τ} {tasks : List τ} {currentState targetState : TaskState}
    (hw : Wired subs mgr) {s : ProtocolSystem κ τ}
    (hs : Reaches (step subs) (start mgr tasks currentState targetState) s) {t : τ}
    (ht : t ∈ tasks) (htmgr : t ≠ mgr) :
    s.manager.taskStates.find? t = some ((s.written t).getLastD .notStarted) ∧
    s.written t ++ (s.ackInHand t ++ s.acksQueued t) = s.published t ∧
    (s.thread mgr = .idle → s.written t ++ s.acksQueued t = s.published t) ∧
    s.published t ++ s.unpublished t = s.applied t ∧
    s.applied t ++ (s.commandInHand t ++ s.commandsQueued t) = s.commanded t ∧
    ((∀ x, s.queue x = []) → (∀ x, s.thread x = .idle) →
      s.manager.taskStates.find? t = some (s.currentState t)) := by
  have h := reaches_consistent hw hs
  have hreg : decide (t ∈ tasks) = true := decide_eq_true ht
  have hrecord : s.manager.taskStates.find? t = some ((s.written t).getLastD .notStarted) := by
    rw [h.records t, hreg, if_pos rfl]
  have hacks := h.acks t hreg
  have hidle : s.thread mgr = .idle → s.written t ++ s.acksQueued t = s.published t := by
    intro hpc
    rw [← hacks, ackInHand, h.self_eq, hpc, List.nil_append]
  refine ⟨hrecord, hacks, hidle, h.publishes t htmgr, h.commands t htmgr, fun hqueue hthread => ?_⟩
  have hwritten : s.written t = s.published t := by
    rw [← hidle (hthread mgr), acksQueued, hqueue, List.filterMap_nil, List.append_nil]
  have hunpublished : s.unpublished t = [] := by
    simp [unpublished, hthread t]
  rw [hrecord, h.state t, ← h.publishes t htmgr, hunpublished, List.append_nil, hwritten]

/-- The tasks hear the commands and the manager hears the acknowledgments. -/
def wiring (mgr : τ) (tasks : List τ) : MsgType → List τ
  | .stateMsg => tasks
  | .stateAckMsg => [mgr]
  | _ => []

omit [LinearOrder τ] in
theorem wiring_wired (mgr : τ) {tasks : List τ} (h : tasks.Nodup) : Wired (wiring mgr tasks) mgr where
  nodup := fun type => by cases type <;> simp [wiring, h]
  hears_acks := by simp [wiring]

/-- Two controllers command one task; the second command overtakes the record of the first. -/
def twoCommands : List (ProtocolEvent Bool ℕ) :=
  [.requestStateTransition true .idle, .requestStateTransition false .running,
    .control true, .control true, .control false, .deliver, .deliver, .control false, .deliver,
    .deliver, .dequeue 1, .process 1, .process 1, .deliver, .deliver, .dequeue 0,
    .dequeue 1, .process 1, .process 1, .deliver, .deliver]

/-- The manager has taken the first acknowledgment and the second is in its queue; once it has
handled both, the record is up to date. -/
theorem records_converge_two_commands : ∃ s s' : ProtocolSystem Bool ℕ,
    run (step (wiring 0 [1])) (start 0 [1] .notStarted .notStarted) twoCommands = some s ∧
    s.written 1 = [] ∧ s.published 1 = [.idle, .running] ∧
    s.written 1 ++ (s.ackInHand 1 ++ s.acksQueued 1) = s.published 1 ∧
    run (step (wiring 0 [1])) s [.process 0, .dequeue 0, .process 0] = some s' ∧
    s'.manager.taskStates.find? 1 = some (s'.currentState 1) ∧ s'.currentState 1 = .running := by
  have hw : Wired (wiring 0 [1]) 0 := wiring_wired 0 (by decide)
  obtain ⟨s, s', hrun, hwritten, hpublished, hrun', hstate, hqueue, hthread⟩ :
      ∃ s s' : ProtocolSystem Bool ℕ,
      run (step (wiring 0 [1])) (start 0 [1] .notStarted .notStarted) twoCommands = some s ∧
      s.written 1 = [] ∧ s.published 1 = [.idle, .running] ∧
      run (step (wiring 0 [1])) s [.process 0, .dequeue 0, .process 0] = some s' ∧
      s'.currentState 1 = .running ∧ (∀ x, s'.queue x = []) ∧ ∀ x, s'.thread x = .idle := by
    refine ⟨_, _, rfl, rfl, rfl, rfl, rfl, ?_, ?_⟩
    · intro x
      match x with
      | 0 => rfl
      | 1 => rfl
      | _ + 2 => rfl
    · intro x
      match x with
      | 0 => rfl
      | 1 => rfl
      | _ + 2 => rfl
  have hs' := run_append_eq_some.mpr ⟨s, hrun, hrun'⟩
  exact ⟨s, s', hrun, hwritten, hpublished,
    (records_converge hw ⟨_, hrun⟩ (by decide) (by decide)).2.1, hrun',
    (records_converge hw ⟨_, hs'⟩ (by decide) (by decide)).2.2.2.2.2 hqueue hthread, hstate⟩

end ProtocolSystem

end Protocore
