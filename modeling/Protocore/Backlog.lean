import Protocore.HeartbeatFlow
import Protocore.Simulation

/-! # The backlog of heartbeats

The monitor sends a heartbeat to a task only if it does not wait for an earlier one, and it stops
waiting for one only if the answer arrives or if it gives up on it and marks the task as unresponsive.
The heartbeats in flight are therefore the awaited one, if any, and such as the monitor has given up on
(`Accounted`).  A queue of fixed size fills up with heartbeats only as fast as its task is marked: a task
that was never marked has at most one of them in its queue (`backlog_bounded`). -/

namespace Protocore

variable {τ : Type} [LinearOrder τ]

/-- The task that is being marked as unresponsive. -/
def MonitorPc.marked : MonitorPc τ → Option τ
  | .marking _ task _ => some task
  | _ => none

/-- The id of a heartbeat. -/
def Msg.heartbeatId (msg : Msg τ) : Option UInt32 :=
  match msg.msgData with
  | .heartbeatMsg m => some m.uniqueId
  | _ => none

namespace ShutdownSystem

/-- The heartbeat of `t` that the monitor has sent last. -/
def lastSent (s : ShutdownSystem τ) (t : τ) : List UInt32 :=
  ((s.monitor.monitoredTasks.find? t).map TaskStatus.lastHeartbeatId).toList

/-- The heartbeat on which the monitor gives up in a step: it has marked `t` and clears
`awaiting_response`. -/
def gaveUp (t : τ) (s : ShutdownSystem τ) : ShutdownEvent τ → List UInt32
  | .periodicThread _ => if s.periodic.marked = some t then s.lastSent t else []
  | _ => []

variable {subs : MsgType → List τ} {s s' : ShutdownSystem τ} {e : ShutdownEvent τ} {t : τ}
  {id : UInt32} {mgr hb : τ}

theorem Awaited.mem_lastSent (h : Awaited s t id) : id ∈ s.lastSent t := by
  obtain ⟨status, hstatus, -, rfl⟩ := h
  simp [lastSent, hstatus]

/-! ### The answer that is waited for -/

theorem Awaited.frame (h : Awaited s t id)
    (hfind : s'.monitor.monitoredTasks.find? t = s.monitor.monitoredTasks.find? t) :
    Awaited s' t id := by
  obtain ⟨status, hstatus, hawaiting⟩ := h
  exact ⟨status, hfind.trans hstatus, hawaiting⟩

/-- Only the answer itself ends the wait. -/
theorem Awaited.acknowledge (h : Awaited s t id) {msg : Msg τ} {ack : HeartbeatAckMsg} {now : ℤ}
    (hdata : msg.msgData = .heartbeatAckMsg ack) (hanswer : isAnswer t id msg = false)
    (hmonitor : s'.monitor = s.monitor.handleAcknowledgment msg.sendingTask ack now) :
    Awaited s' t id := by
  obtain ⟨status, hstatus, hawaiting, hid⟩ := h
  unfold Awaited
  rw [hmonitor, HeartBeatSystem.handleAcknowledgment_find?]
  by_cases hsender : msg.sendingTask = some t
  · have hother : ¬ status.lastHeartbeatId = ack.origUniqueId := by
      intro hlast
      simp [isAnswer, hdata, hsender, ← hlast, hid] at hanswer
    refine ⟨status, ?_, hawaiting, hid⟩
    simp [hsender, hstatus, HeartBeatTask.acknowledgeStatus, hother]
  · refine ⟨status, ?_, hawaiting, hid⟩
    simpa [hsender] using hstatus

theorem clearAwaiting_find?_of_ne (m : HeartBeatTask τ) {task u : τ} (hne : u ≠ task) :
    (LiveSystem.clearAwaiting m task).monitoredTasks.find? u = m.monitoredTasks.find? u := by
  unfold LiveSystem.clearAwaiting
  split
  · exact OrdMap.find?_insert_of_ne _ hne _
  · rfl

theorem clearAwaiting_stateManager (m : HeartBeatTask τ) (task : τ) :
    (LiveSystem.clearAwaiting m task).stateManager = m.stateManager := by
  unfold LiveSystem.clearAwaiting
  split
  · rfl
  · rfl

/-- An answer is waited for until it arrives or the monitor gives up. -/
theorem moves_awaited (hmanaged : s.monitor.stateManager = true) (ht : t ≠ s.monitor.self)
    (hm : Moves subs s e s') (h : Awaited s t id) :
    Awaited s' t id ∨ s'.flow t id < s.flow t id ∨ id ∈ gaveUp t s e := by
  cases hm with
  | @acknowledged x now msg ack hpc hx hmonitor hfree hdata =>
      cases hanswer : isAnswer t id msg with
      | false => exact .inl (h.acknowledge hdata hanswer rfl)
      | true =>
          right
          left
          have hone : 1 = (isAnswer t id msg).toNat := by rw [hanswer]; rfl
          apply Nat.lt_of_succ_le
          rw [Nat.succ_eq_add_one, hone]
          apply Nat.le_of_eq
          exact flow_acknowledge ht hpc hmonitor rfl rfl rfl rfl
  | overdueAlone hpc hstatus hoverdue hmanager => exact absurd hmanaged hmanager
  | @mark now reading task rest hpc hfree =>
      by_cases htask : task = t
      · right
        right
        have hmarked : s.periodic.marked = some t := by rw [hpc, ← htask]; rfl
        simp only [gaveUp, if_pos hmarked]
        exact h.mem_lastSent
      · exact .inl (h.frame (clearAwaiting_find?_of_ne s.monitor (Ne.symm htask)))
  | @send now task rest status hpc hstatus hfree =>
      have htask : t ≠ task := by
        rintro rfl
        obtain ⟨status', hstatus', hawaiting, -⟩ := h
        rw [hstatus] at hstatus'
        obtain rfl := Option.some.inj hstatus'
        exact hfree hawaiting
      exact .inl (h.frame (OrdMap.find?_insert_of_ne _ htask _))
  | _ => exact .inl h

/-- Only `send_heartbeat` puts a heartbeat on its way, and waits for its answer from then on. -/
theorem moves_sent (ht : t ≠ s.monitor.self) (hm : Moves subs s e s') (hf : FlowStep t id s s')
    (hlt : s.flow t id < s'.flow t id) : Awaited s' t id := by
  cases hf with
  | kept hflow hawaited hnext => omega
  | answered hflow hawaited hnext => omega
  | sent hflow hid hnext =>
      have hnever : ∀ n : UInt32, n ≠ n + 1 := by
        intro n hn
        simp at hn
      cases hm with
      | overdueAlone hpc hstatus hoverdue hmanager =>
          exact absurd ((clearAwaiting_frame s.monitor _).2.symm.trans hnext) (hnever _)
      | mark hpc hfree =>
          exact absurd ((clearAwaiting_frame s.monitor _).2.symm.trans hnext) (hnever _)
      | @send now task rest status hpc hstatus hfree =>
          have hsent : s.flow t id <
              s.flow t id + (decide (task = t ∧ s.monitor.nextHeartbeatId = id)).toNat :=
            lt_of_lt_of_eq hlt (flow_send ht rfl rfl rfl rfl)
          have hthis : task = t ∧ s.monitor.nextHeartbeatId = id := by
            by_contra hother
            rw [decide_eq_false hother] at hsent
            exact lt_irrefl _ hsent
          obtain ⟨rfl, rfl⟩ := hthis
          refine ⟨{ status with
            awaitingResponse := true
            lastHeartbeatId := s.monitor.nextHeartbeatId
            lastHeartbeatTime := now }, ?_, rfl, rfl⟩
          simp [sendTo, OrdMap.find?_insert]
      | _ => exact absurd hnext (hnever _)

/-! ### What is in flight -/

/-- Every heartbeat of `t` in flight is awaited or in the list of those given up. -/
structure Accounted (mgr hb t : τ) (givenUp : List UInt32) (s : ShutdownSystem τ) : Prop where
  wired : Wired mgr hb s
  managed : s.monitor.stateManager = true
  onePlace : ∀ id, OnePlace t id s
  account : ∀ id, 1 ≤ s.flow t id → Awaited s t id ∨ id ∈ givenUp

theorem moves_managed (h : s.monitor.stateManager = true) (hm : Moves subs s e s') :
    s'.monitor.stateManager = true := by
  cases hm with
  | overdueAlone hpc hstatus hoverdue hmanager => exact (clearAwaiting_stateManager s.monitor _).trans h
  | mark hpc hfree => exact (clearAwaiting_stateManager s.monitor _).trans h
  | _ => exact h

theorem Accounted.step {givenUp : List UInt32} (h : Accounted mgr hb t givenUp s) (hne : mgr ≠ hb)
    (ht : t ≠ hb) (ht' : t ≠ mgr) (hsubs : (subs .heartbeatAckMsg).count hb = 1) (hfresh : Fresh s e)
    (hs : s.step subs e = some s') : Accounted mgr hb t (givenUp ++ gaveUp t s e) s' := by
  have hm := step_moves hs
  have hself : t ≠ s.monitor.self := by
    rw [h.wired.monitor]
    exact ht
  have hflow : ∀ id, FlowStep t id s s' := fun id => step_flow h.wired hne ht ht' hsubs hs
  refine ⟨moves_wired h.wired hm, moves_managed h.managed hm,
    fun id => (hflow id).onePlace (hfresh.counter hm) (h.onePlace id), ?_⟩
  intro id hid
  rw [List.mem_append]
  by_cases hgrows : s.flow t id < s'.flow t id
  · exact .inl (moves_sent hself hm (hflow id) hgrows)
  · rcases h.account id (by omega) with hawaited | hmem
    · rcases moves_awaited h.managed hself hm hawaited with hstill | hgone | hgave
      · exact .inl hstill
      · -- it was in one place, and now it is in none
        have honce := (h.onePlace id).once
        omega
      · exact .inr (.inr hgave)
    · exact .inr (.inl hmem)

/-! ### The queue of a task -/

omit [LinearOrder τ] in
theorem isHeartbeat_iff {msg : Msg τ} : isHeartbeat id msg = true ↔ msg.heartbeatId = some id := by
  unfold isHeartbeat Msg.heartbeatId
  cases msg.msgData with
  | heartbeatMsg m => simp
  | _ => simp

/-- The heartbeats with one id in the queue of `t`. -/
theorem count_heartbeatId_le (s : ShutdownSystem τ) (t : τ) (id : UInt32) :
    ((s.queue t).filterMap Msg.heartbeatId).count id ≤ s.flow t id := by
  have hqueued : ((s.queue t).filterMap Msg.heartbeatId).count id ≤
      queued s.monitor.self t id t (s.queue t) := by
    rw [List.count_filterMap]
    apply List.countP_mono_left
    intro msg _ hmsg
    have hid : isHeartbeat id msg = true := isHeartbeat_iff.mpr (beq_iff_eq.mp hmsg)
    simp [carries, hid]
  unfold flow flowOf
  omega

theorem Accounted.length_le {givenUp : List UInt32} (h : Accounted mgr hb t givenUp s)
    {ids : List UInt32} (hnodup : ids.Nodup) (hids : ∀ id ∈ ids, 1 ≤ s.flow t id) :
    ids.length ≤ givenUp.length + 1 := by
  have hsubset : ids ⊆ s.lastSent t ++ givenUp := by
    intro id hid
    rw [List.mem_append]
    exact (h.account id (hids id hid)).imp_left Awaited.mem_lastSent
  have hlast : (s.lastSent t).length ≤ 1 := by
    unfold lastSent
    cases s.monitor.monitoredTasks.find? t with
    | none => exact Nat.zero_le 1
    | some status => exact le_refl 1
  have hle := (hnodup.subperm hsubset).length_le
  rw [List.length_append] at hle
  omega

theorem registered_managed (tasks : List τ) {m : HeartBeatTask τ} (h : m.stateManager = true) :
    (tasks.foldl (fun m t => m.notifyTaskRegistered t 0) m).stateManager = true := by
  induction tasks generalizing m with
  | nil => exact h
  | cons task tasks ih =>
      apply ih
      obtain ⟨tasks', hframe⟩ := m.notifyTaskRegistered_frame task 0
      simp only [hframe]
      exact h

theorem started_accounted (mgr hb : τ) (tasks : List τ) (responseTimeoutMs : ℤ) (t : τ) :
    Accounted mgr hb t [] (started mgr hb tasks responseTimeoutMs) where
  wired := started_wired mgr hb tasks responseTimeoutMs
  managed := registered_managed tasks rfl
  onePlace := started_onePlace mgr hb tasks responseTimeoutMs t
  account := by
    intro id hid
    have hzero : (started mgr hb tasks responseTimeoutMs).flow t id = 0 := rfl
    omega

theorem Accounted.queue_length_le {givenUp : List UInt32} (h : Accounted mgr hb t givenUp s) :
    ((s.queue t).filterMap Msg.heartbeatId).length ≤ givenUp.length + 1 := by
  apply h.length_le
  · rw [List.nodup_iff_count_le_one]
    exact fun id => (count_heartbeatId_le s t id).trans (h.onePlace id).once
  · intro id hid
    exact (List.count_pos_iff.mpr hid).trans_le (count_heartbeatId_le s t id)

theorem run_accounted {tasks : List τ} {responseTimeoutMs : ℤ} {es : List (ShutdownEvent τ)}
    (hne : mgr ≠ hb) (hmgr : mgr ∉ tasks) (hsubs : (subs .heartbeatAckMsg).count hb = 1)
    (hrun : run (step subs) (started mgr hb tasks responseTimeoutMs) es = some s)
    (hfresh : Along (step subs) Fresh (started mgr hb tasks responseTimeoutMs) es) (ht : t ∈ tasks)
    (hthb : t ≠ hb) : Accounted mgr hb t
      (viewed (step subs) (gaveUp t) (started mgr hb tasks responseTimeoutMs) es) s := by
  have htmgr : t ≠ mgr := fun h => hmgr (h ▸ ht)
  have hstep : ∀ (givenUp : List UInt32) (s : ShutdownSystem τ) e s', Accounted mgr hb t givenUp s →
      Fresh s e → s.step subs e = some s' → Accounted mgr hb t (givenUp ++ gaveUp t s e) s' :=
    fun _ _ _ _ h hf hs => h.step hne hthb htmgr hsubs hf hs
  exact viewed_invariant hstep (started_accounted mgr hb tasks responseTimeoutMs t) hfresh hrun

/-- **Heartbeats pile up only with the marks.**  In every run of the whole system with fewer than `2^32`
heartbeats, the heartbeats in the queue of a task, and all that are on their way to it or back, are at
most one more than those on which the monitor has given up. -/
theorem backlog_bounded {tasks : List τ} {responseTimeoutMs : ℤ} {es : List (ShutdownEvent τ)}
    (hne : mgr ≠ hb) (hmgr : mgr ∉ tasks) (hsubs : (subs .heartbeatAckMsg).count hb = 1)
    (hrun : run (step subs) (started mgr hb tasks responseTimeoutMs) es = some s)
    (hfresh : Along (step subs) Fresh (started mgr hb tasks responseTimeoutMs) es) (ht : t ∈ tasks)
    (hthb : t ≠ hb) :
    ((s.queue t).filterMap Msg.heartbeatId).length ≤
      (viewed (step subs) (gaveUp t) (started mgr hb tasks responseTimeoutMs) es).length + 1 ∧
    ∀ ids : List UInt32, ids.Nodup → (∀ id ∈ ids, 1 ≤ s.flow t id) → ids.length ≤
      (viewed (step subs) (gaveUp t) (started mgr hb tasks responseTimeoutMs) es).length + 1 := by
  have h := run_accounted hne hmgr hsubs hrun hfresh ht hthb
  exact ⟨h.queue_length_le, fun ids hnodup hids => h.length_le hnodup hids⟩

/-- The task `1` takes nothing from its queue; the monitor gives up on the first heartbeat and sends the
second. -/
theorem backlog_bounded_two : ∃ s : ShutdownSystem ℕ,
    run (step (wiring 0 2 [1, 2])) (started 0 2 [1, 2] 3000)
      (List.replicate 9 (.periodicThread 0) ++ List.replicate 6 (.periodicThread 4000000000)) =
        some s ∧
    (s.queue 1).filterMap Msg.heartbeatId = [1, 2] ∧
    ((s.queue 1).filterMap Msg.heartbeatId).length ≤ (viewed (step (wiring 0 2 [1, 2])) (gaveUp 1)
      (started 0 2 [1, 2] 3000) (List.replicate 9 (.periodicThread 0) ++
        List.replicate 6 (.periodicThread 4000000000))).length + 1 := by
  have heval : (run (step (wiring 0 2 [1, 2])) (started 0 2 [1, 2] 3000)
      (List.replicate 9 (.periodicThread 0) ++ List.replicate 6 (.periodicThread 4000000000))).map
        (fun s => (s.queue 1).filterMap Msg.heartbeatId) = some [1, 2] := by decide +kernel
  obtain ⟨s, hrun, hqueue⟩ := Option.map_eq_some_iff.mp heval
  exact ⟨s, hrun, hqueue, (backlog_bounded (by decide) (by decide) (by decide) hrun
    (by decide +kernel) (by decide) (by decide)).1⟩

end ShutdownSystem

end Protocore
