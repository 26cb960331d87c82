import Protocore.Shutdown

/-! # Where a heartbeat is

A heartbeat waits in the queue of the task, is taken by its queue thread, answered and broadcast; the
acknowledgment waits in the queue of the monitor and is taken by the monitor's queue thread.  `flow`
counts the places where a heartbeat, or its acknowledgment, is at a moment, whatever the threads of
`ShutdownSystem` do, also while the system is shut down.

`heartbeat_in_one_place`: as long as the monitor waits for the answer of a task, the heartbeat it waits
for is in exactly one place.  A check that finds a heartbeat overdue is therefore never about one that
was lost on its way, or answered before.  A task that has stopped leaves it in its queue. -/

namespace Protocore

namespace ShutdownSystem

variable {τ : Type} [LinearOrder τ]

/-! ### Places -/

/-- The heartbeat `id`. -/
def isHeartbeat (id : UInt32) (msg : Msg τ) : Bool :=
  match msg.msgData with
  | .heartbeatMsg m => decide (m.uniqueId = id)
  | _ => false

/-- The acknowledgment of the heartbeat `id` by the task `t`. -/
def isAnswer (t : τ) (id : UInt32) (msg : Msg τ) : Bool :=
  match msg.msgData with
  | .heartbeatAckMsg ack => decide (msg.sendingTask = some t ∧ ack.origUniqueId = id)
  | _ => false

/-- The message is on its way, to the task `t` or back to the monitor `hb`, if it is with `x`. -/
def carries (hb t : τ) (id : UInt32) (x : τ) (msg : Msg τ) : Bool :=
  decide (x = t) && isHeartbeat id msg || decide (x = hb) && isAnswer t id msg

/-- The message in the hands of the queue thread of `x`. -/
def holds (hb t : τ) (id : UInt32) (x : τ) : LoopPc τ → ℕ
  | .handling msg => (carries hb t id x msg).toNat
  | .answering m => (decide (x = t ∧ m.uniqueId = id)).toNat
  | _ => 0

/-- The deliveries to the monitor that a broadcast still owes. -/
def spreads (hb t : τ) (id : UInt32) : Option (Announcement τ) → ℕ
  | some d => if isAnswer t id d.msg then d.rest.count hb else 0
  | none => 0

/-- What waits in the queue of `x`. -/
def queued (hb t : τ) (id : UInt32) (x : τ) (l : List (Msg τ)) : ℕ := l.countP (carries hb t id x)

def flowOf (hb t : τ) (id : UInt32) (queue : τ → List (Msg τ)) (loop : τ → LoopPc τ)
    (sub : Option (Announcement τ)) : ℕ :=
  queued hb t id t (queue t) + queued hb t id hb (queue hb) + holds hb t id t (loop t) +
    holds hb t id hb (loop hb) + spreads hb t id sub

/-- In how many places the heartbeat `id` for `t`, or its acknowledgment, is. -/
def flow (s : ShutdownSystem τ) (t : τ) (id : UInt32) : ℕ :=
  flowOf s.monitor.self t id s.queue s.loop s.sub

section places

variable {hb t x : τ} {id : UInt32}

theorem carries_of_ne (hx : x ≠ t) (hx' : x ≠ hb) (msg : Msg τ) : carries hb t id x msg = false := by
  simp [carries, hx, hx']

theorem holds_of_ne (hx : x ≠ t) (hx' : x ≠ hb) (pc : LoopPc τ) : holds hb t id x pc = 0 := by
  cases pc with
  | handling msg => simp [holds, carries_of_ne hx hx']
  | answering m => simp [holds, hx]
  | _ => rfl

theorem queued_of_ne (hx : x ≠ t) (hx' : x ≠ hb) (l : List (Msg τ)) : queued hb t id x l = 0 := by
  unfold queued
  rw [List.countP_eq_zero]
  intro msg _
  simp [carries_of_ne hx hx']

section changes

variable (id) (queue : τ → List (Msg τ)) (loop : τ → LoopPc τ) (sub : Option (Announcement τ))

theorem flowOf_queue (hne : t ≠ hb) (x : τ) (l : List (Msg τ)) :
    flowOf hb t id (Function.update queue x l) loop sub + queued hb t id x (queue x) =
      flowOf hb t id queue loop sub + queued hb t id x l := by
  unfold flowOf
  by_cases hx : x = t
  · subst hx
    rw [Function.update_self, Function.update_of_ne hne.symm]
    omega
  · by_cases hx' : x = hb
    · subst hx'
      rw [Function.update_self, Function.update_of_ne hne]
      omega
    · rw [Function.update_of_ne (Ne.symm hx), Function.update_of_ne (Ne.symm hx'),
        queued_of_ne hx hx', queued_of_ne hx hx']

theorem flowOf_loop (hne : t ≠ hb) (x : τ) (pc : LoopPc τ) :
    flowOf hb t id queue (Function.update loop x pc) sub + holds hb t id x (loop x) =
      flowOf hb t id queue loop sub + holds hb t id x pc := by
  unfold flowOf
  by_cases hx : x = t
  · subst hx
    rw [Function.update_self, Function.update_of_ne hne.symm]
    omega
  · by_cases hx' : x = hb
    · subst hx'
      rw [Function.update_self, Function.update_of_ne hne]
      omega
    · rw [Function.update_of_ne (Ne.symm hx), Function.update_of_ne (Ne.symm hx'),
        holds_of_ne hx hx', holds_of_ne hx hx']

theorem flowOf_sub (hb t : τ) (sub' : Option (Announcement τ)) :
    flowOf hb t id queue loop sub' + spreads hb t id sub =
      flowOf hb t id queue loop sub + spreads hb t id sub' := by
  unfold flowOf
  omega

end changes

theorem isAnswer_of_type {t : τ} {msg : Msg τ} (h : msg.getType ≠ .heartbeatAckMsg) :
    isAnswer t id msg = false := by
  unfold isAnswer
  split
  · rename_i ack hdata
    refine absurd ?_ h
    unfold Msg.getType
    rw [hdata]
    rfl
  · rfl

omit [LinearOrder τ] in
theorem isHeartbeat_of_type {msg : Msg τ} (h : msg.getType ≠ .heartbeatMsg) :
    isHeartbeat id msg = false := by
  unfold isHeartbeat
  split
  · rename_i m hdata
    refine absurd ?_ h
    unfold Msg.getType
    rw [hdata]
    rfl
  · rfl

end places

/-! ### What a step does to it -/

/-- The monitor waits for the answer of `t` to the heartbeat `id`. -/
def Awaited (s : ShutdownSystem τ) (t : τ) (id : UInt32) : Prop :=
  ∃ status, s.monitor.monitoredTasks.find? t = some status ∧ status.awaitingResponse = true ∧
    status.lastHeartbeatId = id

/-- The heartbeat `id` for `t` stays where it is or moves on; it is sent; or its acknowledgment arrives,
and is no longer waited for. -/
inductive FlowStep (t : τ) (id : UInt32) (s s' : ShutdownSystem τ) : Prop
  | kept (hflow : s'.flow t id = s.flow t id) (hawaited : Awaited s' t id → Awaited s t id)
      (hnext : s'.monitor.nextHeartbeatId = s.monitor.nextHeartbeatId ∨
        s'.monitor.nextHeartbeatId = s.monitor.nextHeartbeatId + 1)
  | sent (hflow : s'.flow t id = s.flow t id + 1) (hid : id = s.monitor.nextHeartbeatId)
      (hnext : s'.monitor.nextHeartbeatId = s.monitor.nextHeartbeatId + 1)
  | answered (hflow : s'.flow t id + 1 = s.flow t id) (hawaited : ¬ Awaited s' t id)
      (hnext : s'.monitor.nextHeartbeatId = s.monitor.nextHeartbeatId)

section steps

variable {subs : MsgType → List τ} {s s' : ShutdownSystem τ} {t : τ} {id : UInt32}

theorem FlowStep.moved (hmonitor : s'.monitor = s.monitor) (hflow : s'.flow t id = s.flow t id) :
    FlowStep t id s s' := by
  refine .kept hflow ?_ (.inl (by rw [hmonitor]))
  unfold Awaited
  rw [hmonitor]
  exact fun h => h

theorem FlowStep.frame (hmonitor : s'.monitor = s.monitor) (hqueue : s'.queue = s.queue)
    (hloop : s'.loop = s.loop) (hsub : s'.sub = s.sub) : FlowStep t id s s' := by
  refine .moved hmonitor ?_
  unfold flow
  rw [hmonitor, hqueue, hloop, hsub]

/-- A queue thread goes on with the same in its hands. -/
theorem FlowStep.goto (hne : t ≠ s.monitor.self) {x : τ} {pc : LoopPc τ}
    (hmonitor : s'.monitor = s.monitor) (hqueue : s'.queue = s.queue)
    (hloop : s'.loop = Function.update s.loop x pc) (hsub : s'.sub = s.sub)
    (hholds : holds s.monitor.self t id x pc = holds s.monitor.self t id x (s.loop x)) :
    FlowStep t id s s' := by
  refine .moved hmonitor ?_
  have hl := flowOf_loop id s.queue s.loop s.sub hne x pc
  unfold flow
  rw [hmonitor, hqueue, hloop, hsub]
  omega

theorem FlowStep.announce {d : Announcement τ} (hmonitor : s'.monitor = s.monitor)
    (hqueue : s'.queue = s.queue) (hloop : s'.loop = s.loop) (hfree : s.sub.isNone = true)
    (hsub : s'.sub = some d) (htype : d.msg.getType ≠ .heartbeatAckMsg) : FlowStep t id s s' := by
  refine .moved hmonitor ?_
  rw [Option.isNone_iff_eq_none] at hfree
  have hd : spreads s.monitor.self t id (some d) = 0 := by simp [spreads, isAnswer_of_type htype]
  have hl := flowOf_sub id s.queue s.loop none s.monitor.self t (some d)
  rw [hd] at hl
  unfold flow
  rw [hmonitor, hqueue, hloop, hsub, hfree]
  simp only [spreads] at hl
  omega

theorem FlowStep.delivered {p : Option τ} {msg : Msg τ} (hmonitor : s'.monitor = s.monitor)
    (hqueue : s'.queue = s.queue) (hloop : s'.loop = s.loop) (hsub : s.sub = some ⟨p, msg, []⟩)
    (hsub' : s'.sub = none) : FlowStep t id s s' := by
  refine .moved hmonitor ?_
  have hl := flowOf_sub id s.queue s.loop s.sub s.monitor.self t none
  have hd : spreads s.monitor.self t id s.sub = 0 := by simp [hsub, spreads]
  rw [hd] at hl
  unfold flow
  rw [hmonitor, hqueue, hloop, hsub']
  simp only [spreads] at hl
  omega

omit [LinearOrder τ] in
theorem type_of_data {msg : Msg τ} {data : MessageVariant} (h : msg.msgData = data) :
    msg.getType = data.type := by
  unfold Msg.getType
  rw [h]

theorem carries_of_type {hb x : τ} {msg : Msg τ} (h : msg.getType ≠ .heartbeatMsg)
    (h' : msg.getType ≠ .heartbeatAckMsg) : carries hb t id x msg = false := by
  simp [carries, isHeartbeat_of_type h, isAnswer_of_type h']

/-! ### The monitor's records -/

theorem clearAwaiting_frame (m : HeartBeatTask τ) (task : τ) :
    (LiveSystem.clearAwaiting m task).self = m.self ∧
      (LiveSystem.clearAwaiting m task).nextHeartbeatId = m.nextHeartbeatId := by
  unfold LiveSystem.clearAwaiting
  split
  · exact ⟨rfl, rfl⟩
  · exact ⟨rfl, rfl⟩

theorem clearAwaiting_find? (m : HeartBeatTask τ) (task u : τ) {status : TaskStatus}
    (h : (LiveSystem.clearAwaiting m task).monitoredTasks.find? u = some status) :
    ∃ old, m.monitoredTasks.find? u = some old ∧ status.lastHeartbeatId = old.lastHeartbeatId ∧
      (status.awaitingResponse = true → old.awaitingResponse = true) := by
  unfold LiveSystem.clearAwaiting at h
  split at h
  · rename_i old hold
    rw [OrdMap.find?_insert] at h
    split_ifs at h with hu
    · obtain rfl := Option.some.inj h
      subst hu
      exact ⟨old, hold, rfl, fun hc => by cases hc⟩
    · exact ⟨status, h, rfl, fun hc => hc⟩
  · exact ⟨status, h, rfl, fun hc => hc⟩

theorem Awaited.of_clear {task : τ} (hmonitor : s'.monitor = LiveSystem.clearAwaiting s.monitor task)
    (h : Awaited s' t id) : Awaited s t id := by
  obtain ⟨status, hstatus, hawaiting, hid⟩ := h
  rw [hmonitor] at hstatus
  obtain ⟨old, hold, hsame, himp⟩ := clearAwaiting_find? s.monitor task t hstatus
  exact ⟨old, hold, himp hawaiting, hsame.symm.trans hid⟩

/-- A record is marked as answered, and nothing else happens to the heartbeats. -/
theorem FlowStep.clear {task : τ} (hmonitor : s'.monitor = LiveSystem.clearAwaiting s.monitor task)
    (hqueue : s'.queue = s.queue) (hloop : s'.loop = s.loop) (hsub : s'.sub = s.sub) :
    FlowStep t id s s' := by
  obtain ⟨hself, hnext⟩ := clearAwaiting_frame s.monitor task
  refine .kept ?_ (Awaited.of_clear hmonitor) (.inl (by rw [hmonitor, hnext]))
  unfold flow
  rw [hmonitor, hself, hqueue, hloop, hsub]

/-- An acknowledgment that is handled: that of another heartbeat changes nothing for this one. -/
theorem awaited_acknowledged {msg : Msg τ} {ack : HeartbeatAckMsg} {now : ℤ}
    (hmonitor : s'.monitor = s.monitor.handleAcknowledgment msg.sendingTask ack now)
    (hdata : msg.msgData = .heartbeatAckMsg ack) (h : Awaited s' t id) :
    Awaited s t id ∧ isAnswer t id msg = false := by
  obtain ⟨status, hstatus, hawaiting, hid⟩ := h
  rw [hmonitor, HeartBeatSystem.handleAcknowledgment_find?] at hstatus
  split_ifs at hstatus with hsender
  · obtain ⟨old, hold, rfl⟩ := Option.map_eq_some_iff.mp hstatus
    unfold HeartBeatTask.acknowledgeStatus at hawaiting hid
    split_ifs at hawaiting hid with hlast
    refine ⟨⟨old, hold, hawaiting, hid⟩, ?_⟩
    unfold isAnswer
    rw [hdata]
    simp only [decide_eq_false_iff_not, not_and]
    intro _ hack
    exact hlast (hid.trans hack.symm)
  · refine ⟨⟨status, hstatus, hawaiting, hid⟩, ?_⟩
    unfold isAnswer
    rw [hdata]
    simp only [decide_eq_false_iff_not, not_and]
    intro hsender' _
    exact absurd hsender' hsender

theorem flow_acknowledge (ht : t ≠ s.monitor.self) {x : τ} {msg : Msg τ} {ack : HeartbeatAckMsg}
    {now : ℤ} (hpc : s.loop x = .handling msg) (hx : x = s.monitor.self)
    (hmonitor : s'.monitor = s.monitor.handleAcknowledgment msg.sendingTask ack now)
    (hqueue : s'.queue = s.queue) (hloop : s'.loop = Function.update s.loop x .testing)
    (hsub : s'.sub = s.sub) : s'.flow t id + (isAnswer t id msg).toNat = s.flow t id := by
  have hself : s'.monitor.self = s.monitor.self := by rw [hmonitor]; rfl
  have hl := flowOf_loop id s.queue s.loop s.sub ht x .testing
  have hxt : x ≠ t := fun h => ht (h.symm.trans hx)
  have hheld : holds s.monitor.self t id x (s.loop x) = (isAnswer t id msg).toNat := by
    rw [hpc]
    simp [holds, carries, ← hx, hxt]
  have htesting : holds s.monitor.self t id x .testing = 0 := rfl
  unfold flow
  rw [hself, hqueue, hloop, hsub]
  omega

/-- The monitor handles an acknowledgment: the one that counts is no longer waited for. -/
theorem FlowStep.acknowledge (ht : t ≠ s.monitor.self) {x : τ} {msg : Msg τ} {ack : HeartbeatAckMsg}
    {now : ℤ} (hpc : s.loop x = .handling msg) (hx : x = s.monitor.self)
    (hdata : msg.msgData = .heartbeatAckMsg ack)
    (hmonitor : s'.monitor = s.monitor.handleAcknowledgment msg.sendingTask ack now)
    (hqueue : s'.queue = s.queue) (hloop : s'.loop = Function.update s.loop x .testing)
    (hsub : s'.sub = s.sub) : FlowStep t id s s' := by
  have hnext : s'.monitor.nextHeartbeatId = s.monitor.nextHeartbeatId := by rw [hmonitor]; rfl
  have hflow : s'.flow t id + (isAnswer t id msg).toNat = s.flow t id :=
    flow_acknowledge ht hpc hx hmonitor hqueue hloop hsub
  cases hanswer : isAnswer t id msg with
  | true =>
      rw [hanswer] at hflow
      refine .answered hflow ?_ hnext
      intro hawaited
      have hfalse := (awaited_acknowledged hmonitor hdata hawaited).2
      rw [hanswer] at hfalse
      cases hfalse
  | false =>
      rw [hanswer] at hflow
      exact .kept hflow (fun hawaited => (awaited_acknowledged hmonitor hdata hawaited).1) (.inl hnext)

/-! ### The queue threads -/

theorem handleStep_flow (ht : t ≠ s.monitor.self) (ht' : t ≠ s.manager.self)
    (hne : s.manager.self ≠ s.monitor.self) {x : τ} {msg : Msg τ} {now : ℤ}
    (hpc : s.loop x = .handling msg) (hs : s.handleStep x msg now = some s') :
    FlowStep t id s s' := by
  unfold handleStep at hs
  simp only at hs
  by_cases hx : x = s.manager.self
  · rw [if_pos hx] at hs
    obtain rfl := Option.some.inj hs
    have hx₁ : x ≠ t := fun h => ht' (h.symm.trans hx)
    have hx₂ : x ≠ s.monitor.self := fun h => hne (hx.symm.trans h)
    refine .goto ht rfl rfl rfl rfl ?_
    rw [holds_of_ne hx₁ hx₂, holds_of_ne hx₁ hx₂]
  · rw [if_neg hx] at hs
    cases hdata : msg.msgData with
    | stateMsg m =>
        simp only [hdata] at hs
        obtain rfl := Option.some.inj hs
        have hmsg : carries s.monitor.self t id x msg = false :=
          carries_of_type (by rw [type_of_data hdata]; nofun) (by rw [type_of_data hdata]; nofun)
        refine .goto ht rfl rfl rfl rfl ?_
        rw [hpc]
        simp [holds, hmsg]
    | stateAckMsg ack =>
        simp only [hdata] at hs
        obtain rfl := Option.some.inj hs
        have hmsg : carries s.monitor.self t id x msg = false :=
          carries_of_type (by rw [type_of_data hdata]; nofun) (by rw [type_of_data hdata]; nofun)
        refine .goto ht rfl rfl rfl rfl ?_
        rw [hpc]
        simp [holds, hmsg]
    | heartbeatMsg m =>
        simp only [hdata] at hs
        obtain rfl := Option.some.inj hs
        have hanswer : isAnswer t id msg = false :=
          isAnswer_of_type (by rw [type_of_data hdata]; nofun)
        refine .goto ht rfl rfl rfl rfl ?_
        rw [hpc]
        split_ifs with hmonitor
        · have hxt : x ≠ t := fun h => ht (h.symm.trans hmonitor)
          simp [holds, carries, hxt, hanswer]
        · -- the same heartbeat, now about to be answered
          simp [holds, carries, hmonitor, isHeartbeat, hdata]
    | heartbeatAckMsg ack =>
        simp only [hdata] at hs
        have hheartbeat : isHeartbeat id msg = false :=
          isHeartbeat_of_type (by rw [type_of_data hdata]; nofun)
        split_ifs at hs with hmonitor howns
        · obtain rfl := Option.some.inj hs
          exact .acknowledge ht hpc hmonitor hdata rfl rfl rfl rfl
        · obtain rfl := Option.some.inj hs
          refine .goto ht rfl rfl rfl rfl ?_
          rw [hpc]
          simp [holds, carries, hmonitor, hheartbeat]

theorem FlowStep.dequeue (ht : t ≠ s.monitor.self) {x : τ} {msg : Msg τ} {rest : List (Msg τ)}
    (hpc : s.loop x = .dequeuing) (hpop : StableQueue.pop Msg.getPriority (s.queue x) = some (msg, rest))
    (hmonitor : s'.monitor = s.monitor) (hqueue : s'.queue = Function.update s.queue x rest)
    (hloop : s'.loop = Function.update s.loop x (.handling msg)) (hsub : s'.sub = s.sub) :
    FlowStep t id s s' := by
  refine .moved hmonitor ?_
  have hperm := StableQueue.pop_perm _ hpop
  have hq := flowOf_queue id s.queue s'.loop s.sub ht x rest
  have hl := flowOf_loop id s.queue s.loop s.sub ht x (.handling msg)
  have hcount : queued s.monitor.self t id x (s.queue x) =
      queued s.monitor.self t id x rest + (carries s.monitor.self t id x msg).toNat := by
    unfold queued
    rw [hperm.countP_eq, List.countP_cons]
    cases carries s.monitor.self t id x msg <;> rfl
  rw [← hloop, hpc] at hl
  simp only [holds] at hl
  unfold flow
  rw [hmonitor, hqueue, hsub]
  omega

theorem FlowStep.answer (ht : t ≠ s.monitor.self) (hsubs : (subs .heartbeatAckMsg).count s.monitor.self = 1)
    {x : τ} {m : HeartbeatMsg} {time : UInt64} (hpc : s.loop x = .answering m)
    (hfree : s.sub.isNone = true) (hmonitor : s'.monitor = s.monitor) (hqueue : s'.queue = s.queue)
    (hloop : s'.loop = Function.update s.loop x .publishing)
    (hsub : s'.sub = some ⟨some x, ⟨some x, .heartbeatAckMsg ⟨m.uniqueId, m.timestamp, time⟩⟩,
      subs .heartbeatAckMsg⟩) : FlowStep t id s s' := by
  refine .moved hmonitor ?_
  rw [Option.isNone_iff_eq_none] at hfree
  have hl := flowOf_loop id s.queue s.loop none ht x .publishing
  have hd := flowOf_sub id s.queue s'.loop none s.monitor.self t s'.sub
  have hspread : spreads s.monitor.self t id s'.sub = holds s.monitor.self t id x (.answering m) := by
    rw [hsub]
    simp only [spreads, holds, isAnswer, hsubs, Option.some.injEq]
    cases decide (x = t ∧ m.uniqueId = id) <;> rfl
  have hnone : spreads s.monitor.self t id none = 0 := rfl
  have hpublishing : holds s.monitor.self t id x .publishing = 0 := rfl
  rw [← hloop, hpc] at hl
  unfold flow
  rw [hmonitor, hqueue, hfree]
  omega

theorem FlowStep.announceState (ht : t ≠ s.monitor.self) {x : τ} {d : Announcement τ}
    (hpc : s.loop x = .announcing) (hfree : s.sub.isNone = true) (hmonitor : s'.monitor = s.monitor)
    (hqueue : s'.queue = s.queue) (hloop : s'.loop = Function.update s.loop x .publishing)
    (hsub : s'.sub = some d) (htype : d.msg.getType ≠ .heartbeatAckMsg) : FlowStep t id s s' := by
  refine .moved hmonitor ?_
  rw [Option.isNone_iff_eq_none] at hfree
  have hl := flowOf_loop id s.queue s.loop none ht x .publishing
  have hd := flowOf_sub id s.queue s'.loop none s.monitor.self t s'.sub
  have hspread : spreads s.monitor.self t id s'.sub = 0 := by
    simp [hsub, spreads, isAnswer_of_type htype]
  have hnone : spreads s.monitor.self t id none = 0 := rfl
  have hannouncing : holds s.monitor.self t id x (s.loop x) = 0 := by rw [hpc]; rfl
  have hpublishing : holds s.monitor.self t id x .publishing = 0 := rfl
  rw [← hloop] at hl
  unfold flow
  rw [hmonitor, hqueue, hfree]
  omega

theorem FlowStep.deliveredQueue (ht : t ≠ s.monitor.self) {x : τ} {msg : Msg τ}
    (hpc : s.loop x = .publishing) (hsub : s.sub = some ⟨some x, msg, []⟩)
    (hmonitor : s'.monitor = s.monitor) (hqueue : s'.queue = s.queue)
    (hloop : s'.loop = Function.update s.loop x .testing) (hsub' : s'.sub = none) :
    FlowStep t id s s' := by
  refine .moved hmonitor ?_
  have hl := flowOf_loop id s.queue s.loop s.sub ht x .testing
  have hd := flowOf_sub id s.queue s'.loop s.sub s.monitor.self t none
  have hspread : spreads s.monitor.self t id s.sub = 0 := by simp [hsub, spreads]
  have hnone : spreads s.monitor.self t id none = 0 := rfl
  have hpublishing : holds s.monitor.self t id x (s.loop x) = 0 := by rw [hpc]; rfl
  have htesting : holds s.monitor.self t id x .testing = 0 := rfl
  rw [← hloop] at hl
  unfold flow
  rw [hmonitor, hqueue, hsub']
  omega

/-! ### The monitor and the broadcast -/

theorem queued_append (hb t : τ) (id : UInt32) (x : τ) (l : List (Msg τ)) (msg : Msg τ) :
    queued hb t id x (l ++ [msg]) = queued hb t id x l + (carries hb t id x msg).toNat := by
  unfold queued
  rw [List.countP_append, List.countP_singleton]
  cases carries hb t id x msg <;> rfl

/-- A message is delivered that is no heartbeat and no acknowledgment of one. -/
theorem FlowStep.enqueue (ht : t ≠ s.monitor.self) {x : τ} {msg : Msg τ}
    (htype : msg.getType ≠ .heartbeatMsg) (htype' : msg.getType ≠ .heartbeatAckMsg)
    (hmonitor : s'.monitor = s.monitor)
    (hqueue : s'.queue = Function.update s.queue x (s.queue x ++ [msg])) (hloop : s'.loop = s.loop)
    (hsub : s'.sub = s.sub) : FlowStep t id s s' := by
  refine .moved hmonitor ?_
  have hq := flowOf_queue id s.queue s.loop s.sub ht x (s.queue x ++ [msg])
  rw [queued_append, carries_of_type htype htype'] at hq
  unfold flow
  rw [hmonitor, hqueue, hloop, hsub]
  simp only [Bool.toNat_false] at hq
  omega

/-- A broadcast goes on: what the monitor is owed becomes what waits in its queue. -/
theorem FlowStep.deliver (ht : t ≠ s.monitor.self) {p : Option τ} {msg : Msg τ} {x : τ} {rest : List τ}
    (htype : msg.getType ≠ .heartbeatMsg) (hsub : s.sub = some ⟨p, msg, x :: rest⟩)
    (hmonitor : s'.monitor = s.monitor)
    (hqueue : s'.queue = Function.update s.queue x (s.queue x ++ [msg])) (hloop : s'.loop = s.loop)
    (hsub' : s'.sub = some ⟨p, msg, rest⟩) : FlowStep t id s s' := by
  refine .moved hmonitor ?_
  have hq := flowOf_queue id s.queue s.loop s.sub ht x (s.queue x ++ [msg])
  have hd := flowOf_sub id s'.queue s.loop s.sub s.monitor.self t s'.sub
  have hspread : spreads s.monitor.self t id s.sub =
      spreads s.monitor.self t id s'.sub + (carries s.monitor.self t id x msg).toNat := by
    rw [hsub, hsub']
    simp only [spreads, carries, isHeartbeat_of_type htype, Bool.and_false, Bool.false_or,
      List.count_cons, beq_iff_eq]
    cases isAnswer t id msg with
    | false => simp
    | true => by_cases hx : x = s.monitor.self <;> simp [hx]
  rw [queued_append, ← hqueue] at hq
  unfold flow
  rw [hmonitor, hloop]
  omega

/-- The heartbeat that is sent is the next one, to one task. -/
theorem flow_send (ht : t ≠ s.monitor.self) {task : τ} {status : TaskStatus} {now : ℤ}
    (hmonitor : s'.monitor = (s.sendTo task status now).monitor)
    (hqueue : s'.queue = (s.sendTo task status now).queue) (hloop : s'.loop = s.loop)
    (hsub : s'.sub = s.sub) : s'.flow t id =
      s.flow t id + (decide (task = t ∧ s.monitor.nextHeartbeatId = id)).toNat := by
  have hself : s'.monitor.self = s.monitor.self := by rw [hmonitor]; rfl
  have hq := flowOf_queue id s.queue s.loop s.sub ht task (s.queue task ++ [⟨some s.monitor.self,
    .heartbeatMsg ⟨s.monitor.nextHeartbeatId, UInt64.ofInt (toMilliseconds now)⟩⟩])
  have hcarries : carries s.monitor.self t id task (⟨some s.monitor.self,
      .heartbeatMsg ⟨s.monitor.nextHeartbeatId, UInt64.ofInt (toMilliseconds now)⟩⟩ : Msg τ) =
      decide (task = t ∧ s.monitor.nextHeartbeatId = id) := by
    simp [carries, isHeartbeat, isAnswer]
  rw [queued_append, hcarries] at hq
  unfold flow
  rw [hself, hqueue, hloop, hsub]
  unfold sendTo
  simp only at hq ⊢
  omega

theorem FlowStep.send (ht : t ≠ s.monitor.self) {task : τ} {status : TaskStatus} {now : ℤ}
    (hmonitor : s'.monitor = (s.sendTo task status now).monitor)
    (hqueue : s'.queue = (s.sendTo task status now).queue) (hloop : s'.loop = s.loop)
    (hsub : s'.sub = s.sub) : FlowStep t id s s' := by
  have hnext : s'.monitor.nextHeartbeatId = s.monitor.nextHeartbeatId + 1 := by rw [hmonitor]; rfl
  have hflow : s'.flow t id =
      s.flow t id + (decide (task = t ∧ s.monitor.nextHeartbeatId = id)).toNat :=
    flow_send ht hmonitor hqueue hloop hsub
  by_cases hnew : task = t ∧ s.monitor.nextHeartbeatId = id
  · rw [decide_eq_true hnew] at hflow
    exact .sent hflow hnew.2.symm hnext
  · rw [decide_eq_false hnew] at hflow
    refine .kept hflow ?_ (.inr hnext)
    rintro ⟨status', hstatus, hawaiting, hid⟩
    rw [hmonitor] at hstatus
    unfold sendTo at hstatus
    simp only [OrdMap.find?_insert] at hstatus
    split_ifs at hstatus with hu
    · obtain rfl := Option.some.inj hstatus
      exact absurd ⟨hu.symm, hid⟩ hnew
    · exact ⟨status', hstatus, hawaiting, hid⟩

/-! ### What a run keeps -/

theorem stopMsg_type (s : ShutdownSystem τ) (x : τ) :
    (s.stopMsg x).getType ≠ .heartbeatMsg ∧ (s.stopMsg x).getType ≠ .heartbeatAckMsg := by
  unfold stopMsg
  split_ifs
  · exact ⟨nofun, nofun⟩
  · exact ⟨nofun, nofun⟩

theorem processMessage_self (m : StateManager τ) (msg : Msg τ) :
    (m.processMessage msg).1.self = m.self := by
  cases hack : m.acknowledged msg with
  | none => rw [StateManager.processMessage_of_not_acknowledged hack]
  | some p => rw [StateManager.processMessage_of_acknowledged hack]

/-- Who the manager and the monitor are; a queue thread that broadcasts is inside `publish`, and no
heartbeat is broadcast. -/
structure Wired (mgr hb : τ) (s : ShutdownSystem τ) : Prop where
  manager : s.manager.self = mgr
  monitor : s.monitor.self = hb
  publishes : ∀ x msg rest, s.sub = some ⟨some x, msg, rest⟩ → s.loop x = .publishing
  broadcast : ∀ d, s.sub = some d → d.msg.getType ≠ .heartbeatMsg

section wired

variable {mgr hb : τ}

theorem Wired.frame (h : Wired mgr hb s) (hmanager : s'.manager.self = s.manager.self)
    (hmonitor : s'.monitor.self = s.monitor.self) (hloop : s'.loop = s.loop) (hsub : s'.sub = s.sub) :
    Wired mgr hb s' where
  manager := hmanager.trans h.manager
  monitor := hmonitor.trans h.monitor
  publishes := by
    rw [hsub, hloop]
    exact h.publishes
  broadcast := by
    rw [hsub]
    exact h.broadcast

theorem Wired.goto (h : Wired mgr hb s) {x : τ} {pc : LoopPc τ} (hx : s.loop x ≠ .publishing)
    (hmanager : s'.manager.self = s.manager.self) (hmonitor : s'.monitor.self = s.monitor.self)
    (hloop : s'.loop = Function.update s.loop x pc) (hsub : s'.sub = s.sub) : Wired mgr hb s' where
  manager := hmanager.trans h.manager
  monitor := hmonitor.trans h.monitor
  publishes := by
    rw [hsub, hloop]
    intro u msg rest hu
    have hpublishing := h.publishes u msg rest hu
    have hux : u ≠ x := fun hux => hx (hux ▸ hpublishing)
    rw [Function.update_of_ne hux]
    exact hpublishing
  broadcast := by
    rw [hsub]
    exact h.broadcast

theorem Wired.spread (h : Wired mgr hb s) {d : Announcement τ} (hmanager : s'.manager = s.manager)
    (hmonitor : s'.monitor = s.monitor) (hsub : s'.sub = some d)
    (hpublishes : ∀ x, d.publisher = some x → s'.loop x = .publishing)
    (htype : d.msg.getType ≠ .heartbeatMsg) : Wired mgr hb s' where
  manager := by
    rw [hmanager]
    exact h.manager
  monitor := by
    rw [hmonitor]
    exact h.monitor
  publishes := by
    rw [hsub]
    intro x msg rest hd
    obtain rfl := Option.some.inj hd
    exact hpublishes x rfl
  broadcast := by
    rw [hsub]
    intro d' hd
    obtain rfl := Option.some.inj hd
    exact htype

theorem Wired.ended (h : Wired mgr hb s) (hmanager : s'.manager = s.manager)
    (hmonitor : s'.monitor = s.monitor) (hsub : s'.sub = none) : Wired mgr hb s' where
  manager := by
    rw [hmanager]
    exact h.manager
  monitor := by
    rw [hmonitor]
    exact h.monitor
  publishes := by
    rw [hsub]
    nofun
  broadcast := by
    rw [hsub]
    nofun

theorem moves_wired {e : ShutdownEvent τ} (h : Wired mgr hb s) (hm : Moves subs s e s') :
    Wired mgr hb s' := by
  cases hm with
  | publish hpc hfree => exact h.spread rfl rfl rfl nofun nofun
  | announce hpc hfree => exact h.spread rfl rfl rfl nofun (stopMsg_type s _).1
  | test hpc => exact h.goto (by rw [hpc]; nofun) rfl rfl rfl rfl
  | dequeue hpc hpop => exact h.goto (by rw [hpc]; nofun) rfl rfl rfl rfl
  | dequeueNull hpc hpop hdown => exact h.goto (by rw [hpc]; nofun) rfl rfl rfl rfl
  | record hpc hx =>
      exact h.goto (by rw [hpc]; nofun) (processMessage_self s.manager _) rfl rfl rfl
  | take hpc hx hdata => exact h.goto (by rw [hpc]; nofun) rfl rfl rfl rfl
  | heartbeat hpc hx hdata => exact h.goto (by rw [hpc]; nofun) rfl rfl rfl rfl
  | acknowledged hpc hx hmonitor hfree hdata => exact h.goto (by rw [hpc]; nofun) rfl rfl rfl rfl
  | ignore hpc hx hdata => exact h.goto (by rw [hpc]; nofun) rfl rfl rfl rfl
  | announceState hpc hfree =>
      refine h.spread rfl rfl rfl ?_ nofun
      intro u hu
      obtain rfl := Option.some.inj hu
      exact Function.update_self ..
  | answer hpc hfree =>
      refine h.spread rfl rfl rfl ?_ nofun
      intro u hu
      obtain rfl := Option.some.inj hu
      exact Function.update_self ..
  | overdueAlone hpc hstatus hoverdue hmanager =>
      exact h.frame rfl (clearAwaiting_frame s.monitor _).1 rfl rfl
  | mark hpc hfree => exact h.frame rfl (clearAwaiting_frame s.monitor _).1 rfl rfl
  | @deliver p msg x rest hsub =>
      have htype := h.broadcast _ hsub
      refine h.spread rfl rfl rfl ?_ htype
      intro u hu
      obtain rfl : p = some u := hu
      exact h.publishes u msg (x :: rest) hsub
  | deliveredQueue hsub => exact h.ended rfl rfl rfl
  | deliveredDemand hsub hpc => exact h.ended rfl rfl rfl
  | deliveredStop hsub hpc => exact h.ended rfl rfl rfl
  | delivered hsub => exact h.ended rfl rfl rfl
  | _ => exact h.frame rfl rfl rfl rfl

theorem moves_flow {e : ShutdownEvent τ} (h : Wired mgr hb s) (ht : t ≠ s.monitor.self)
    (hsubs : (subs .heartbeatAckMsg).count s.monitor.self = 1)
    (hhandle : ∀ x now msg, e = .queueThread x now → s.loop x ≠ .handling msg)
    (hm : Moves subs s e s') : FlowStep t id s s' := by
  cases hm with
  | publish hpc hfree => exact .announce rfl rfl rfl hfree rfl nofun
  | announce hpc hfree => exact .announce rfl rfl rfl hfree rfl (stopMsg_type s _).2
  | @test x now hpc =>
      refine .goto ht rfl rfl rfl rfl ?_
      rw [hpc]
      split_ifs
      · rfl
      · rfl
  | dequeue hpc hpop => exact .dequeue ht hpc hpop rfl rfl rfl rfl
  | dequeueNull hpc hpop hdown => exact .goto ht rfl rfl rfl rfl (by rw [hpc]; rfl)
  | record hpc hx => exact absurd hpc (hhandle _ _ _ rfl)
  | take hpc hx hdata => exact absurd hpc (hhandle _ _ _ rfl)
  | heartbeat hpc hx hdata => exact absurd hpc (hhandle _ _ _ rfl)
  | acknowledged hpc hx hmonitor hfree hdata => exact absurd hpc (hhandle _ _ _ rfl)
  | ignore hpc hx hdata => exact absurd hpc (hhandle _ _ _ rfl)
  | announceState hpc hfree => exact .announceState ht hpc hfree rfl rfl rfl rfl nofun
  | answer hpc hfree => exact .answer ht hsubs hpc hfree rfl rfl rfl rfl
  | overdue hpc hstatus hoverdue hmanager =>
      refine .enqueue ht ?_ ?_ rfl rfl rfl rfl
      · nofun
      · nofun
  | overdueAlone hpc hstatus hoverdue hmanager => exact .clear rfl rfl rfl rfl
  | mark hpc hfree => exact .clear rfl rfl rfl rfl
  | send hpc hstatus hfree => exact .send ht rfl rfl rfl rfl
  | deliver hsub =>
      have htype := h.broadcast _ hsub
      exact .deliver ht htype hsub rfl rfl rfl rfl
  | deliveredQueue hsub => exact .deliveredQueue ht (h.publishes _ _ _ hsub) hsub rfl rfl rfl rfl
  | deliveredDemand hsub hpc => exact .delivered rfl rfl rfl hsub rfl
  | deliveredStop hsub hpc => exact .delivered rfl rfl rfl hsub rfl
  | delivered hsub => exact .delivered rfl rfl rfl hsub rfl
  | _ => exact .frame rfl rfl rfl rfl

theorem step_flow {e : ShutdownEvent τ} (h : Wired mgr hb s) (hne : mgr ≠ hb) (ht : t ≠ hb)
    (ht' : t ≠ mgr) (hsubs : (subs .heartbeatAckMsg).count hb = 1) (hs : s.step subs e = some s') :
    FlowStep t id s s' := by
  rw [← h.monitor] at hne ht hsubs
  rw [← h.manager] at hne ht'
  by_cases hhandle : ∃ x now msg, e = .queueThread x now ∧ s.loop x = .handling msg
  · -- a message in hand: `Moves` does not say which messages are ignored
    obtain ⟨x, now, msg, rfl, hpc⟩ := hhandle
    have hhandled : s.handleStep x msg now = some s' := by
      simpa only [step, queueStep, hpc] using hs
    exact handleStep_flow ht ht' hne hpc hhandled
  · refine moves_flow h ht hsubs ?_ (step_moves hs)
    intro x now msg he hpc
    exact hhandle ⟨x, now, msg, he, hpc⟩

/-- The step sends a heartbeat. -/
def sends (s : ShutdownSystem τ) : ShutdownEvent τ → Bool
  | .periodicThread _ =>
      match s.periodic with
      | .sending (task :: _) =>
          (s.monitor.monitoredTasks.find? task).any (fun status => !status.awaitingResponse)
      | _ => false
  | _ => false

/-- The counter has not wrapped when a heartbeat is sent: its id was not used before. -/
def Fresh (s : ShutdownSystem τ) (e : ShutdownEvent τ) : Prop :=
  s.sends e = true → s.monitor.nextHeartbeatId ≠ 0

instance decidableFresh (s : ShutdownSystem τ) (e : ShutdownEvent τ) : Decidable (Fresh s e) :=
  inferInstanceAs (Decidable (_ → _))

theorem Fresh.counter {e : ShutdownEvent τ} (hfresh : Fresh s e) (hm : Moves subs s e s')
    (hnext : s'.monitor.nextHeartbeatId = s.monitor.nextHeartbeatId + 1) :
    s.monitor.nextHeartbeatId ≠ 0 := by
  have hmoved : s'.monitor.nextHeartbeatId ≠ s.monitor.nextHeartbeatId := by
    intro hsame
    have htoNat := congrArg UInt32.toNat (hsame.symm.trans hnext)
    rw [UInt32.toNat_add] at htoNat
    have hlt := s.monitor.nextHeartbeatId.toNat_lt
    simp only [UInt32.reduceToNat] at htoNat
    omega
  cases hm with
  | send hpc hstatus hfree => exact hfresh (by simp [sends, hpc, hstatus, hfree])
  | overdueAlone hpc hstatus hoverdue hmanager =>
      exact absurd (clearAwaiting_frame s.monitor _).2 hmoved
  | mark hpc hfree => exact absurd (clearAwaiting_frame s.monitor _).2 hmoved
  | _ => exact absurd rfl hmoved

/-- A heartbeat that was not sent yet is nowhere, one that was is in one place at most, and one that is
awaited is somewhere. -/
structure OnePlace (t : τ) (id : UInt32) (s : ShutdownSystem τ) : Prop where
  unsent : s.monitor.nextHeartbeatId ≠ 0 →
    s.monitor.nextHeartbeatId.toNat ≤ id.toNat → s.flow t id = 0
  once : s.flow t id ≤ 1
  awaited : Awaited s t id → 1 ≤ s.flow t id

theorem FlowStep.onePlace (hflow : FlowStep t id s s')
    (hfresh : s'.monitor.nextHeartbeatId = s.monitor.nextHeartbeatId + 1 →
      s.monitor.nextHeartbeatId ≠ 0) (h : OnePlace t id s) : OnePlace t id s' := by
  -- the counter is above the one before, unless it has become zero
  have hsucc : s.monitor.nextHeartbeatId + 1 ≠ 0 →
      (s.monitor.nextHeartbeatId + 1).toNat = s.monitor.nextHeartbeatId.toNat + 1 := by
    intro hne
    rw [← UInt32.toNat_inj.ne, UInt32.toNat_add] at hne
    rw [UInt32.toNat_add]
    have hlt := s.monitor.nextHeartbeatId.toNat_lt
    simp only [UInt32.reduceToNat] at hne ⊢
    omega
  cases hflow with
  | kept hflow hawaited hnext =>
      refine ⟨fun hne hle => ?_, hflow ▸ h.once, fun ha => hflow ▸ h.awaited (hawaited ha)⟩
      rw [hflow]
      rcases hnext with hnext | hnext
      · rw [hnext] at hne hle
        exact h.unsent hne hle
      · rw [hnext] at hne hle
        rw [hsucc hne] at hle
        exact h.unsent (hfresh hnext) (by omega)
  | sent hflow hid hnext =>
      have hzero : s.flow t id = 0 := h.unsent (hfresh hnext) (by rw [hid])
      refine ⟨fun hne hle => ?_, by omega, fun _ => by omega⟩
      rw [hnext] at hne hle
      rw [hsucc hne, hid] at hle
      omega
  | answered hflow hawaited hnext =>
      have honce := h.once
      exact ⟨fun _ _ => by omega, by omega, fun ha => absurd ha hawaited⟩

end wired

/-! ### From the start -/

/-- No heartbeat has been sent. -/
def Idle (m : HeartBeatTask τ) : Prop :=
  ∀ u status, m.monitoredTasks.find? u = some status → status.awaitingResponse = false

theorem Idle.notifyTaskRegistered {m : HeartBeatTask τ} (h : Idle m) (task : τ) (now : ℤ) :
    Idle (m.notifyTaskRegistered task now) := by
  intro u status hstatus
  unfold HeartBeatTask.notifyTaskRegistered at hstatus
  split_ifs at hstatus
  · exact h u status hstatus
  · split at hstatus
    · exact h u status hstatus
    · rw [OrdMap.find?_insert] at hstatus
      split_ifs at hstatus
      · obtain rfl := Option.some.inj hstatus
        rfl
      · exact h u status hstatus

theorem registered_idle {m : HeartBeatTask τ} (h : Idle m) (tasks : List τ) :
    (tasks.foldl (fun m t => m.notifyTaskRegistered t 0) m).self = m.self ∧
      Idle (tasks.foldl (fun m t => m.notifyTaskRegistered t 0) m) := by
  induction tasks generalizing m with
  | nil => exact ⟨rfl, h⟩
  | cons task tasks ih =>
      obtain ⟨hself, hidle⟩ := ih (h.notifyTaskRegistered task 0)
      obtain ⟨tasks', hframe⟩ := m.notifyTaskRegistered_frame task 0
      refine ⟨hself.trans ?_, hidle⟩
      rw [hframe]

theorem create_idle (hb : τ) (responseTimeoutMs : ℤ) :
    Idle (HeartBeatTask.create hb true responseTimeoutMs) := nofun

theorem started_wired (mgr hb : τ) (tasks : List τ) (responseTimeoutMs : ℤ) :
    Wired mgr hb (started mgr hb tasks responseTimeoutMs) where
  manager := rfl
  monitor := (registered_idle (create_idle hb responseTimeoutMs) tasks).1
  publishes := nofun
  broadcast := nofun

theorem started_onePlace (mgr hb : τ) (tasks : List τ) (responseTimeoutMs : ℤ) (t : τ) (id : UInt32) :
    OnePlace t id (started mgr hb tasks responseTimeoutMs) where
  unsent _ _ := rfl
  once := Nat.zero_le 1
  awaited := by
    rintro ⟨status, hstatus, hawaiting, -⟩
    have hidle := (registered_idle (create_idle hb responseTimeoutMs) tasks).2 t status hstatus
    rw [hidle] at hawaiting
    cases hawaiting

/-- As long as the monitor waits for the answer of a task, the heartbeat is in exactly one place, and no
heartbeat is ever in two. -/
theorem heartbeat_in_one_place {mgr hb t : τ} {tasks : List τ} {responseTimeoutMs : ℤ}
    {es : List (ShutdownEvent τ)} (hne : mgr ≠ hb) (hmgr : mgr ∉ tasks)
    (hsubs : (subs .heartbeatAckMsg).count hb = 1)
    (hrun : run (step subs) (started mgr hb tasks responseTimeoutMs) es = some s)
    (hfresh : Along (step subs) Fresh (started mgr hb tasks responseTimeoutMs) es) (ht : t ∈ tasks)
    (hthb : t ≠ hb) (id : UInt32) :
    s.flow t id ≤ 1 ∧ (Awaited s t id → s.flow t id = 1) := by
  have htmgr : t ≠ mgr := fun h => hmgr (h ▸ ht)
  have hstep : ∀ (s : ShutdownSystem τ) e s', Wired mgr hb s ∧ OnePlace t id s → Fresh s e →
      s.step subs e = some s' → Wired mgr hb s' ∧ OnePlace t id s' := by
    intro s e s' h hf hs
    exact ⟨moves_wired h.1 (step_moves hs),
      (step_flow h.1 hne hthb htmgr hsubs hs).onePlace (hf.counter (step_moves hs)) h.2⟩
  have h := (run_invariant_along hstep
    ⟨started_wired mgr hb tasks responseTimeoutMs, started_onePlace mgr hb tasks responseTimeoutMs t id⟩
    hfresh hrun).2
  exact ⟨h.once, fun ha => le_antisymm h.once (h.awaited ha)⟩

/-- The task `1` has taken the heartbeat `1`, broadcast the answer to the monitor `2`, and waits. -/
theorem heartbeat_in_one_place_answered : ∃ s : ShutdownSystem ℕ,
    run (step (wiring 0 2 [1, 2])) (started 0 2 [1, 2] 3000)
      (List.replicate 7 (.periodicThread 0) ++ List.replicate 4 (.queueThread 1 0) ++ [.deliver]) =
        some s ∧
    Awaited s 1 1 ∧ s.queue 1 = [] ∧ s.flow 1 1 = 1 := by
  have heval : (run (step (wiring 0 2 [1, 2])) (started 0 2 [1, 2] 3000)
      (List.replicate 7 (.periodicThread 0) ++ List.replicate 4 (.queueThread 1 0) ++ [.deliver])).map
        (fun s => ((s.monitor.monitoredTasks.find? 1).map
          (fun status => (status.awaitingResponse, status.lastHeartbeatId)), (s.queue 1).length)) =
      some (some (true, 1), 0) := by decide +kernel
  obtain ⟨s, hrun, hs⟩ := Option.map_eq_some_iff.mp heval
  obtain ⟨hmap, hlength⟩ := Prod.mk.inj hs
  obtain ⟨status, hstatus, hpair⟩ := Option.map_eq_some_iff.mp hmap
  have hawaited : Awaited s 1 1 :=
    ⟨status, hstatus, congrArg Prod.fst hpair, congrArg Prod.snd hpair⟩
  exact ⟨s, hrun, hawaited, List.eq_nil_of_length_eq_zero hlength,
    (heartbeat_in_one_place (by decide) (by decide) (by decide) hrun (by decide +kernel) (by decide)
      (by decide) 1).2 hawaited⟩

end steps

end ShutdownSystem

end Protocore
