import Protocore.Backlog

/-! # The pace of the monitor

The monitor marks a task only if its last heartbeat is older than `response_timeout_ms`, and it sends
the next one only afterwards.  On a clock that does not run backwards, `n` marks of one task therefore
take at least `n` times the timeout and one millisecond (`Paced.clock`): elapsed time is truncated to
milliseconds before it is compared.  With `Backlog.lean` this bounds how fast heartbeats can fill the
queue of a task that hangs (`heartbeats_paced`). -/

namespace Protocore

variable {τ : Type} [LinearOrder τ]

/-- The clock after an event: the periodic thread reads it, the other threads leave it alone. -/
def ShutdownEvent.clock (c : ℤ) : ShutdownEvent τ → ℤ
  | .periodicThread now => now
  | _ => c

/-- The clock reading with which the periodic thread compares. -/
def MonitorPc.reading : MonitorPc τ → Option ℤ
  | .checking now _ => some now
  | .marking now _ _ => some now
  | _ => none

namespace ShutdownSystem

/-- The readings of the periodic thread do not decrease. -/
def Ticking : ℤ → List (ShutdownEvent τ) → Prop
  | _, [] => True
  | c, e :: es => c ≤ e.clock c ∧ Ticking (e.clock c) es

instance decidableTicking : ∀ (c : ℤ) (es : List (ShutdownEvent τ)), Decidable (Ticking c es)
  | _, [] => isTrue trivial
  | c, e :: es =>
      have := decidableTicking (e.clock c) es
      inferInstanceAs (Decidable (_ ∧ _))

/-- The last reading. -/
def lastReading (c : ℤ) (es : List (ShutdownEvent τ)) : ℤ := es.foldl ShutdownEvent.clock c

/-- The nanoseconds that a heartbeat must be old to count as overdue. -/
def patience (responseTimeoutMs : ℤ) : ℤ := (responseTimeoutMs + 1) * 1000000

theorem patience_le_of_overdue {responseTimeoutMs ns : ℤ} (hnonneg : 0 ≤ responseTimeoutMs)
    (h : toMilliseconds ns > responseTimeoutMs) : patience responseTimeoutMs ≤ ns := by
  unfold toMilliseconds at h
  unfold patience
  rcases le_or_gt 0 ns with hns | hns
  · rw [Int.tdiv_eq_ediv_of_nonneg hns] at h
    omega
  · have hneg : 0 ≤ (-ns).tdiv 1000000 := Int.tdiv_nonneg (by omega) (by omega)
    rw [Int.neg_tdiv] at hneg
    omega

variable {subs : MsgType → List τ} {s s' : ShutdownSystem τ} {e : ShutdownEvent τ} {t : τ}
  {T start c : ℤ} {n : ℕ}

/-- `n` marks of `t` since `start`, on a clock that shows `c`: the heartbeat that is awaited was sent
after all of them, and the one that is about to be marked is old enough. -/
structure Paced (t : τ) (T start : ℤ) (n : ℕ) (c : ℤ) (s : ShutdownSystem τ) : Prop where
  timeout : s.monitor.responseTimeoutMs = T
  clock : start + n * patience T ≤ c
  reading : ∀ r, s.periodic.reading = some r → r ≤ c
  sent : ∀ status, s.monitor.monitoredTasks.find? t = some status → status.awaitingResponse = true →
    start + n * patience T ≤ status.lastHeartbeatTime
  due : ∀ r task rest, s.periodic = .marking r task rest → ∃ status,
    s.monitor.monitoredTasks.find? task = some status ∧ status.awaitingResponse = true ∧
      status.lastHeartbeatTime + patience T ≤ r

theorem Paced.frame (h : Paced t T start n c s) (hmonitor : s'.monitor = s.monitor)
    (hperiodic : s'.periodic = s.periodic) : Paced t T start n c s' := by
  constructor
  · rw [hmonitor]
    exact h.timeout
  · exact h.clock
  · rw [hperiodic]
    exact h.reading
  · rw [hmonitor]
    exact h.sent
  · rw [hmonitor, hperiodic]
    exact h.due

theorem Paced.advance (h : Paced t T start n c s) {now : ℤ} (hnow : c ≤ now)
    (hmonitor : s'.monitor = s.monitor) (hreading : ∀ r, s'.periodic.reading = some r → r ≤ now)
    (hmarking : s'.periodic.marked = none) : Paced t T start n now s' := by
  refine ⟨?_, h.clock.trans hnow, hreading, ?_, ?_⟩
  · rw [hmonitor]
    exact h.timeout
  · rw [hmonitor]
    exact h.sent
  · intro r task rest hpc
    rw [hpc] at hmarking
    cases hmarking

theorem Paced.checking (h : Paced t T start n c s) {now reading : ℤ} (hnow : c ≤ now)
    {task : τ} {rest : List τ} (hpc : s.periodic = .checking reading (task :: rest)) : reading ≤ now :=
  (h.reading reading (by rw [hpc]; rfl)).trans hnow

theorem clearAwaiting_timeout (m : HeartBeatTask τ) (task : τ) :
    (LiveSystem.clearAwaiting m task).responseTimeoutMs = m.responseTimeoutMs := by
  unfold LiveSystem.clearAwaiting
  split
  · rfl
  · rfl

/-- An answer that is still waited for after a record was cleared. -/
theorem awaiting_of_clear {m : HeartBeatTask τ} {task u : τ} {status : TaskStatus}
    (h : (LiveSystem.clearAwaiting m task).monitoredTasks.find? u = some status)
    (hawaiting : status.awaitingResponse = true) :
    u ≠ task ∧ m.monitoredTasks.find? u = some status := by
  by_cases hu : u = task
  · subst hu
    unfold LiveSystem.clearAwaiting at h
    split at h
    · simp only [OrdMap.find?_insert, if_true] at h
      obtain rfl := Option.some.inj h
      cases hawaiting
    · rename_i hfind
      rw [hfind] at h
      cases h
  · rw [clearAwaiting_find?_of_ne m hu] at h
    exact ⟨hu, h⟩

theorem Paced.mark (h : Paced t T start n c s) {now reading : ℤ} {task : τ} {rest : List τ}
    (hnow : c ≤ now) (hpc : s.periodic = .marking reading task rest) :
    Paced t T start (n + (gaveUp t s (.periodicThread now)).length) now { s with
      manager := s.manager.recordUnresponsive task
      monitor := LiveSystem.clearAwaiting s.monitor task
      periodic := .checking reading rest } := by
  obtain ⟨status, hstatus, hawaiting, hold⟩ := h.due reading task rest hpc
  have hreading : reading ≤ c := h.reading reading (by rw [hpc]; rfl)
  have htimeout : (LiveSystem.clearAwaiting s.monitor task).responseTimeoutMs = T := by
    rw [clearAwaiting_timeout, h.timeout]
  have hchecking : ∀ r x l, (MonitorPc.checking reading rest : MonitorPc τ) ≠ .marking r x l := by
    intro r x l heq
    cases heq
  by_cases htask : task = t
  · subst htask
    have hmarked : s.periodic.marked = some task := by rw [hpc]; rfl
    have hlast : s.lastSent task = [status.lastHeartbeatId] := by simp [lastSent, hstatus]
    have hlength : (gaveUp task s (.periodicThread now)).length = 1 := by
      simp [gaveUp, hmarked, hlast]
    have hsent := h.sent status hstatus hawaiting
    rw [hlength]
    refine ⟨htimeout, ?_, ?_, ?_, fun r x l heq => absurd heq (hchecking r x l)⟩
    · push_cast
      rw [add_mul, one_mul]
      omega
    · intro r hr
      obtain rfl := Option.some.inj hr
      omega
    · intro status' hstatus' hawaiting'
      exact absurd rfl (awaiting_of_clear hstatus' hawaiting').1
  · have hmarked : s.periodic.marked ≠ some t := by
      rw [hpc]
      exact fun heq => htask (Option.some.inj heq)
    have hlength : (gaveUp t s (.periodicThread now)).length = 0 := by simp [gaveUp, hmarked]
    rw [hlength, Nat.add_zero]
    refine ⟨htimeout, h.clock.trans hnow, ?_, ?_, fun r x l heq => absurd heq (hchecking r x l)⟩
    · intro r hr
      obtain rfl := Option.some.inj hr
      omega
    · intro status' hstatus' hawaiting'
      exact h.sent status' (awaiting_of_clear hstatus' hawaiting').2 hawaiting'

theorem Paced.send (h : Paced t T start n c s) {now : ℤ} {task : τ} {rest : List τ}
    {status : TaskStatus} (hnow : c ≤ now) :
    Paced t T start n now { s.sendTo task status now with periodic := .sending rest } := by
  refine ⟨h.timeout, h.clock.trans hnow, nofun, ?_, nofun⟩
  intro status' hstatus' hawaiting'
  simp only [sendTo, OrdMap.find?_insert] at hstatus'
  split_ifs at hstatus' with htask
  · obtain rfl := Option.some.inj hstatus'
    exact h.clock.trans hnow
  · exact h.sent status' hstatus' hawaiting'

theorem Paced.overdue (h : Paced t T start n c s) (hnonneg : 0 ≤ T) {now reading : ℤ} {task : τ}
    {rest : List τ} {status : TaskStatus} (hnow : c ≤ now)
    (hpc : s.periodic = .checking reading (task :: rest))
    (hstatus : s.monitor.monitoredTasks.find? task = some status)
    (hoverdue : s.monitor.overdue reading status = true) :
    Paced t T start n now { s.deliverMessage task s.manager.unresponsiveMsg with
      periodic := .marking reading task rest } := by
  refine ⟨h.timeout, h.clock.trans hnow, ?_, h.sent, ?_⟩
  · intro r hr
    obtain rfl := Option.some.inj hr
    exact h.checking hnow hpc
  · intro r task' rest' hpc'
    cases hpc'
    obtain ⟨hawaiting, helapsed⟩ := Bool.and_eq_true_iff.mp hoverdue
    have hold := patience_le_of_overdue (h.timeout ▸ hnonneg) (of_decide_eq_true helapsed)
    rw [h.timeout] at hold
    exact ⟨status, hstatus, hawaiting, by omega⟩

/-- An acknowledgment changes no time of a heartbeat. -/
theorem Paced.acknowledge (h : Paced t T start n c s) {x : τ} {msg : Msg τ} {ack : HeartbeatAckMsg}
    {now : ℤ} (hfree : ¬ s.periodic.ownsTasks = true) :
    Paced t T start n c { s with
      monitor := s.monitor.handleAcknowledgment msg.sendingTask ack now
      loop := Function.update s.loop x .testing } := by
  refine ⟨h.timeout, h.clock, h.reading, ?_, ?_⟩
  · intro status hstatus hawaiting
    rw [HeartBeatSystem.handleAcknowledgment_find?] at hstatus
    split_ifs at hstatus with hsender
    · obtain ⟨old, hold, rfl⟩ := Option.map_eq_some_iff.mp hstatus
      unfold HeartBeatTask.acknowledgeStatus at hawaiting ⊢
      split_ifs at hawaiting ⊢ with hlast
      exact h.sent old hold hawaiting
    · exact h.sent status hstatus hawaiting
  · intro r task rest hpc
    have hpc' : s.periodic = .marking r task rest := hpc
    rw [hpc'] at hfree
    exact absurd rfl hfree

theorem Paced.moves (h : Paced t T start n c s) (hnonneg : 0 ≤ T) (hm : Moves subs s e s')
    (hnow : c ≤ e.clock c) : Paced t T start (n + (gaveUp t s e).length) (e.clock c) s' := by
  -- the marks apart, no step gives up on a heartbeat
  have hnone : s.periodic.marked = none → (gaveUp t s e).length = 0 := by
    intro hpc
    unfold gaveUp
    split
    · simp [hpc]
    · rfl
  cases hm with
  | mark hpc hfree => exact h.mark hnow hpc
  | acknowledged hpc hx hmonitor hfree hdata => exact h.acknowledge hfree
  | periodicTest hpc =>
      rw [hnone (by rw [hpc]; rfl)]
      refine h.advance hnow rfl ?_ ?_
      · split_ifs <;> nofun
      · split_ifs <;> rfl
  | lockCheck hpc =>
      rw [hnone (by rw [hpc]; rfl)]
      refine h.advance hnow rfl ?_ rfl
      intro r hr
      obtain rfl := Option.some.inj hr
      exact le_refl _
  | checkedAll hpc =>
      rw [hnone (by rw [hpc]; rfl)]
      exact h.advance hnow rfl nofun rfl
  | checkedTask hpc hintime =>
      rw [hnone (by rw [hpc]; rfl)]
      refine h.advance hnow rfl ?_ rfl
      intro r hr
      obtain rfl := Option.some.inj hr
      exact h.checking hnow hpc
  | overdue hpc hstatus hoverdue hmanager =>
      rw [hnone (by rw [hpc]; rfl)]
      exact h.overdue hnonneg hnow hpc hstatus hoverdue
  | overdueAlone hpc hstatus hoverdue hmanager =>
      rw [hnone (by rw [hpc]; rfl)]
      refine ⟨(clearAwaiting_timeout s.monitor _).trans h.timeout, h.clock.trans hnow, ?_, ?_, nofun⟩
      · intro r hr
        obtain rfl := Option.some.inj hr
        exact h.checking hnow hpc
      · intro status' hstatus' hawaiting'
        exact h.sent status' (awaiting_of_clear hstatus' hawaiting').2 hawaiting'
  | goOn hpc =>
      rw [hnone (by rw [hpc]; rfl)]
      refine h.advance hnow rfl ?_ ?_
      · split_ifs <;> nofun
      · split_ifs <;> rfl
  | sentAll hpc =>
      rw [hnone (by rw [hpc]; rfl)]
      exact h.advance hnow rfl nofun rfl
  | passOver hpc hawaited =>
      rw [hnone (by rw [hpc]; rfl)]
      exact h.advance hnow rfl nofun rfl
  | send hpc hstatus hfree =>
      rw [hnone (by rw [hpc]; rfl)]
      exact h.send hnow
  | wake hpc =>
      rw [hnone (by rw [hpc]; rfl)]
      exact h.advance hnow rfl nofun rfl
  | _ => exact h.frame rfl rfl

theorem Paced.run (hnonneg : 0 ≤ T) : ∀ {es : List (ShutdownEvent τ)} {n : ℕ} {c : ℤ}
    {s s' : ShutdownSystem τ}, Paced t T start n c s → Ticking c es →
      Protocore.run (step subs) s es = some s' →
      Paced t T start (n + (viewed (step subs) (gaveUp t) s es).length) (lastReading c es) s'
  | [], n, c, s, s', h, _, hrun => by
      obtain rfl : s = s' := by simpa using hrun
      exact h
  | e :: es, n, c, s, s', h, hticks, hrun => by
      obtain ⟨s₁, he, hes⟩ := run_cons_eq_some.mp hrun
      have hrest := Paced.run hnonneg (h.moves hnonneg (step_moves he) hticks.1) hticks.2 hes
      rw [viewed_cons he, List.length_append, ← Nat.add_assoc]
      exact hrest

theorem registered_timeout (tasks : List τ) (m : HeartBeatTask τ) :
    (tasks.foldl (fun m t => m.notifyTaskRegistered t 0) m).responseTimeoutMs =
      m.responseTimeoutMs := by
  induction tasks generalizing m with
  | nil => rfl
  | cons task tasks ih =>
      obtain ⟨tasks', hframe⟩ := m.notifyTaskRegistered_frame task 0
      rw [List.foldl_cons, ih, hframe]

theorem started_paced (mgr hb : τ) (tasks : List τ) (T start : ℤ) (t : τ) :
    Paced t T start 0 start (started mgr hb tasks T) := by
  refine ⟨registered_timeout tasks _, by simp, nofun, ?_, nofun⟩
  intro status hstatus hawaiting
  have hidle := (registered_idle (create_idle hb T) tasks).2 t status hstatus
  rw [hidle] at hawaiting
  cases hawaiting

/-- **The monitor keeps a pace.**  In every run of the whole system with fewer than `2^32` heartbeats and
on a clock that does not run backwards: `n` marks of a task take at least `n` times one millisecond more
than `response_timeout_ms`, and so do `n + 1` heartbeats in its queue. -/
theorem heartbeats_paced {mgr hb : τ} {tasks : List τ} {es : List (ShutdownEvent τ)}
    (hnonneg : 0 ≤ T) (hne : mgr ≠ hb) (hmgr : mgr ∉ tasks)
    (hsubs : (subs .heartbeatAckMsg).count hb = 1)
    (hrun : Protocore.run (step subs) (started mgr hb tasks T) es = some s)
    (hfresh : Along (step subs) Fresh (started mgr hb tasks T) es) (hticks : Ticking start es)
    (ht : t ∈ tasks) (hthb : t ≠ hb) :
    (viewed (step subs) (gaveUp t) (started mgr hb tasks T) es).length * patience T ≤
      lastReading start es - start ∧
    ((((s.queue t).filterMap Msg.heartbeatId).length : ℤ) - 1) * patience T ≤
      lastReading start es - start := by
  have hpaced := (started_paced mgr hb tasks T start t).run hnonneg hticks hrun
  have hclock := hpaced.clock
  rw [Nat.zero_add] at hclock
  refine ⟨by omega, ?_⟩
  have haccounted := run_accounted hne hmgr hsubs hrun hfresh ht hthb
  have hlength := haccounted.queue_length_le
  have hpatience : 0 ≤ patience T := by
    unfold patience
    omega
  calc ((((s.queue t).filterMap Msg.heartbeatId).length : ℤ) - 1) * patience T
      ≤ (viewed (step subs) (gaveUp t) (started mgr hb tasks T) es).length * patience T :=
        Int.mul_le_mul_of_nonneg_right (by omega) hpatience
    _ ≤ lastReading start es - start := by omega

/-- The task `1` hangs: after `4` seconds it has been marked once and has two heartbeats in its queue. -/
theorem heartbeats_paced_hung : ∃ s : ShutdownSystem ℕ,
    Protocore.run (step (wiring 0 2 [1, 2])) (started 0 2 [1, 2] 3000)
      (List.replicate 9 (.periodicThread 0) ++ List.replicate 6 (.periodicThread 4000000000)) =
        some s ∧
    (s.queue 1).filterMap Msg.heartbeatId = [1, 2] ∧
    ((((s.queue 1).filterMap Msg.heartbeatId).length : ℤ) - 1) * patience 3000 ≤ 4000000000 - 0 := by
  have heval : (Protocore.run (step (wiring 0 2 [1, 2])) (started 0 2 [1, 2] 3000)
      (List.replicate 9 (.periodicThread 0) ++ List.replicate 6 (.periodicThread 4000000000))).map
        (fun s => (s.queue 1).filterMap Msg.heartbeatId) = some [1, 2] := by decide +kernel
  obtain ⟨s, hrun, hqueue⟩ := Option.map_eq_some_iff.mp heval
  exact ⟨s, hrun, hqueue, (heartbeats_paced (by decide) (by decide) (by decide) (by decide) hrun
    (by decide +kernel) (by decide) (by decide) (by decide)).2⟩

end ShutdownSystem

end Protocore
