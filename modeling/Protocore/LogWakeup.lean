import Protocore.CondVar
import Protocore.Logger

/-! # Who wakes the worker

`Logger::log` and `Logger::shutdown` leave `queue_mutex` before they call `notify_one` and
`notify_all`; the worker waits on `queue_cv`, and blocks or goes on while it owns the mutex.  The steps
on the queue are those of `LoggerSystem`; here each caller also has the notification that it still
owes, and the worker is blocked or not.

* `no_entry_unattended`: while the worker is blocked, there are no more entries queued than callers
  about to call `notify_one`, and if there has been a shutdown, a caller is about to call `notify_all`.
* `rest_flushed`: without new calls, callers and worker come to rest after a bounded number of steps;
  then the worker is gone, after a shutdown, or every sink has every entry that was accepted. -/

namespace Protocore

/-- The notification that a caller owes after its critical section. -/
inductive LogSignal where
  | none
  | one
  | all
deriving DecidableEq

/-- The logger with the notifications under way; `blocked` says that the worker waits on
`queue_cv`. -/
structure LogWaiters (θ : Type) where
  log : LoggerSystem θ
  signal : θ → LogSignal
  blocked : Bool

/-- The atomic steps of the callers and of the worker; `wake` is a wake-up for no reason. -/
inductive LogWaitEvent (θ : Type) where
  | call (t : θ) (level : LogLevel) (component message : String)
  | setLevel (level : LogLevel)
  | useRelativeTimestamps (enable : Bool)
  | shutdown (t : θ)
  | stamp (t : θ) (steady system : UInt64)
  | push (t : θ)
  | notify (t : θ)
  | evaluate
  | dispatch
  | wake

namespace LogWaiters

variable {θ : Type} [DecidableEq θ]

/-- The constructor, then `add_sink` for each of `n` sinks. -/
def init (relativeTs : Bool) (n : ℕ) : LogWaiters θ :=
  ⟨.init relativeTs n, fun _ => .none, false⟩

/-- The logger takes a step, and nothing else happens. -/
def perform (s : LogWaiters θ) (e : LoggerEvent θ) : Option (LogWaiters θ) :=
  (LoggerSystem.step s.log e).map (fun log => { s with log := log })

/-- The caller `t` takes a step of the logger and then owes a notification. -/
def owe (s : LogWaiters θ) (e : LoggerEvent θ) (t : θ) (signal : LogSignal) :
    Option (LogWaiters θ) :=
  (LoggerSystem.step s.log e).map
    (fun log => { s with log := log, signal := Function.update s.signal t signal })

/-- One atomic step. -/
def step (s : LogWaiters θ) : LogWaitEvent θ → Option (LogWaiters θ)
  | .call t level component message =>
      if s.signal t = .none then s.perform (.call t level component message) else none
  | .setLevel level => s.perform (.setLevel level)
  | .useRelativeTimestamps enable => s.perform (.useRelativeTimestamps enable)
  | .shutdown t =>
      if s.signal t = .none ∧ s.log.calls t = .idle then s.owe .shutdown t .all else none
  | .stamp t steady system => s.perform (.stamp t steady system)
  | .push t => if s.signal t = .none then s.owe (.push t) t .one else none
  | .notify t =>
      if s.signal t = .none then none
      else some { s with signal := Function.update s.signal t .none, blocked := false }
  | .evaluate =>
      if s.log.worker = .waiting ∧ s.blocked = false then
        if s.log.stopping ∨ s.log.queue ≠ [] then s.perform .take else some { s with blocked := true }
      else none
  | .dispatch => s.perform .dispatch
  | .wake => if s.blocked then some { s with blocked := false } else none

/-- Everything a step can do. -/
inductive Moves (s : LogWaiters θ) : LogWaitEvent θ → LogWaiters θ → Prop
  | caller {e : LogWaitEvent θ} {e' : LoggerEvent θ} {log : LoggerSystem θ}
      (hs : LoggerSystem.step s.log e' = some log) (hqueue : log.queue = s.log.queue)
      (hstopping : log.stopping = s.log.stopping) (hworker : log.worker = s.log.worker)
      (hsinks : log.sinks = s.log.sinks)
      (hcalls : ∀ t steady system, e = .stamp t steady system →
        ∃ level component message entry, s.log.calls t = .passed level component message ∧
          log.calls = Function.update s.log.calls t (.pushing entry))
      (he : e ≠ .evaluate ∧ e ≠ .dispatch ∧ ∀ t, e ≠ .push t ∧ e ≠ .notify t) :
      Moves s e { s with log := log }
  | push {t : θ} {entry : LogEntry θ} (hsignal : s.signal t = .none)
      (hcall : s.log.calls t = .pushing entry) :
      Moves s (.push t)
        { s with
          log := { s.log with
            queue := s.log.queue ++ [entry]
            calls := Function.update s.log.calls t .idle
            accepted := s.log.accepted ++ [entry] }
          signal := Function.update s.signal t .one }
  | shutdown {t : θ} {log : LoggerSystem θ} (hsignal : s.signal t = .none)
      (hs : LoggerSystem.step s.log .shutdown = some log) :
      Moves s (.shutdown t) { s with log := log, signal := Function.update s.signal t .all }
  | notify {t : θ} (hsignal : s.signal t ≠ .none) :
      Moves s (.notify t) { s with signal := Function.update s.signal t .none, blocked := false }
  | take {entry : LogEntry θ} {queue : List (LogEntry θ)} (hw : s.log.worker = .waiting)
      (hb : s.blocked = false) (hq : s.log.queue = entry :: queue) :
      Moves s .evaluate
        { s with log := { s.log with queue := queue, worker := .dispatching entry.formatted 0 } }
  | exit (hw : s.log.worker = .waiting) (hb : s.blocked = false) (hq : s.log.queue = [])
      (hs : s.log.stopping = true) :
      Moves s .evaluate { s with log := { s.log with worker := .exited } }
  | block (hw : s.log.worker = .waiting) (hb : s.blocked = false) (hq : s.log.queue = [])
      (hs : s.log.stopping = false) : Moves s .evaluate { s with blocked := true }
  | sink {formatted : String} {next : ℕ} (hw : s.log.worker = .dispatching formatted next)
      (hlt : next < s.log.sinks.length) :
      Moves s .dispatch
        { s with log := { s.log with
            sinks := s.log.sinks.modify next (· ++ [formatted])
            worker := .dispatching formatted (next + 1) } }
  | next {formatted : String} {next : ℕ} (hw : s.log.worker = .dispatching formatted next)
      (hge : s.log.sinks.length ≤ next) :
      Moves s .dispatch { s with log := { s.log with worker := .waiting } }
  | wake (hb : s.blocked = true) : Moves s .wake { s with blocked := false }

variable {s s' : LogWaiters θ}

theorem perform_eq_some {e : LoggerEvent θ} (h : s.perform e = some s') :
    ∃ log, LoggerSystem.step s.log e = some log ∧ s' = { s with log := log } := by
  unfold perform at h
  obtain ⟨log, hs, rfl⟩ := Option.map_eq_some_iff.mp h
  exact ⟨log, hs, rfl⟩

theorem owe_eq_some {e : LoggerEvent θ} {t : θ} {signal : LogSignal}
    (h : s.owe e t signal = some s') :
    ∃ log, LoggerSystem.step s.log e = some log ∧
      s' = { s with log := log, signal := Function.update s.signal t signal } := by
  unfold owe at h
  obtain ⟨log, hs, rfl⟩ := Option.map_eq_some_iff.mp h
  exact ⟨log, hs, rfl⟩

theorem step_moves {e : LogWaitEvent θ} (h : step s e = some s') : Moves s e s' := by
  cases e with
  | call t level component message =>
      simp only [step] at h
      split_ifs at h
      obtain ⟨log, hs, rfl⟩ := perform_eq_some h
      have hlog := hs
      simp only [LoggerSystem.step] at hlog
      split_ifs at hlog
      · obtain rfl := Option.some.inj hlog
        exact .caller hs rfl rfl rfl rfl (by simp) (by simp)
      · obtain rfl := Option.some.inj hlog
        exact .caller hs rfl rfl rfl rfl (by simp) (by simp)
  | setLevel level =>
      obtain ⟨log, hs, rfl⟩ := perform_eq_some h
      obtain rfl := Option.some.inj hs
      exact .caller hs rfl rfl rfl rfl (by simp) (by simp)
  | useRelativeTimestamps enable =>
      obtain ⟨log, hs, rfl⟩ := perform_eq_some h
      obtain rfl := Option.some.inj hs
      exact .caller hs rfl rfl rfl rfl (by simp) (by simp)
  | shutdown t =>
      simp only [step] at h
      split_ifs at h with hidle
      obtain ⟨log, hs, rfl⟩ := owe_eq_some h
      exact .shutdown hidle.1 hs
  | stamp t steady system =>
      obtain ⟨log, hs, rfl⟩ := perform_eq_some h
      have hlog := hs
      simp only [LoggerSystem.step] at hlog
      split at hlog
      · rename_i level component message hcall
        obtain rfl := Option.some.inj hlog
        refine .caller hs rfl rfl rfl rfl ?_ (by simp)
        rintro t' steady' system' heq
        cases heq
        exact ⟨level, component, message, _, hcall, rfl⟩
      · cases hlog
  | push t =>
      simp only [step] at h
      split_ifs at h with hsignal
      obtain ⟨log, hs, rfl⟩ := owe_eq_some h
      simp only [LoggerSystem.step] at hs
      split at hs
      · rename_i entry hcall
        obtain rfl := Option.some.inj hs
        exact .push hsignal hcall
      · cases hs
  | notify t =>
      simp only [step] at h
      split_ifs at h with hsignal
      obtain rfl := Option.some.inj h
      exact .notify hsignal
  | evaluate =>
      simp only [step] at h
      split_ifs at h with hfree hready
      · obtain ⟨log, hs, rfl⟩ := perform_eq_some h
        simp only [LoggerSystem.step, hfree.1] at hs
        split at hs
        · rename_i hq
          split_ifs at hs with hstop
          obtain rfl := Option.some.inj hs
          exact .exit hfree.1 hfree.2 hq hstop
        · rename_i entry queue hq
          obtain rfl := Option.some.inj hs
          exact .take hfree.1 hfree.2 hq
      · obtain rfl := Option.some.inj h
        push Not at hready
        exact .block hfree.1 hfree.2 hready.2 (Bool.eq_false_iff.mpr hready.1)
  | dispatch =>
      obtain ⟨log, hs, rfl⟩ := perform_eq_some h
      simp only [LoggerSystem.step] at hs
      split at hs
      · rename_i formatted next hw
        split_ifs at hs with hlt
        · obtain rfl := Option.some.inj hs
          exact .sink hw hlt
        · obtain rfl := Option.some.inj hs
          exact .next hw (by omega)
      · cases hs
  | wake =>
      simp only [step] at h
      split_ifs at h with hb
      obtain rfl := Option.some.inj h
      exact .wake hb

/-! ### No entry is left unattended -/

/-- The caller is about to call `notify_one`. -/
def isOne : LogSignal → ℕ
  | .one => 1
  | _ => 0

/-- The caller is about to call `notify_all`. -/
def isAll : LogSignal → ℕ
  | .all => 1
  | _ => 0

/-- The worker is about to evaluate its predicate. -/
def awake (s : LogWaiters θ) : Bool := decide (s.log.worker = .waiting) && !s.blocked

section counts

variable [Fintype θ]

/-- The worker and its callers around `queue_cv`. -/
def counts (s : LogWaiters θ) : CondVar.Counts where
  credit := s.log.queue.length
  closed := s.log.stopping
  blocked := s.blocked.toNat
  awake := s.awake.toNat
  owing := CondVar.total isOne s.signal
  closing := CondVar.total isAll s.signal

/-- Only a waiting worker is blocked. -/
def Seated (s : LogWaiters θ) : Prop := s.blocked = true → s.log.worker = .waiting

omit [Fintype θ] in
theorem moves_seated {e : LogWaitEvent θ} (h : Seated s) (hm : Moves s e s') : Seated s' := by
  intro hb
  cases hm with
  | caller hs hqueue hstopping hworker => exact hworker.trans (h hb)
  | push => exact h hb
  | shutdown hsignal hs =>
      obtain rfl := Option.some.inj hs
      exact h hb
  | notify => cases hb
  | take hw hb' => exact absurd hb (by simp [hb'])
  | exit hw hb' => exact absurd hb (by simp [hb'])
  | block hw => exact hw
  | sink hw =>
      rw [h hb] at hw
      cases hw
  | next => rfl
  | wake => cases hb

theorem signal_update (w : LogSignal → ℕ) (t : θ) (signal : LogSignal) :
    CondVar.total w (Function.update s.signal t signal) + w (s.signal t) =
      CondVar.total w s.signal + w signal :=
  CondVar.total_update w s.signal t signal

theorem notify_counts {t : θ} (hseated : Seated s) (hsignal : s.signal t ≠ .none) :
    CondVar.Counts.Step s.counts
      ({ s with signal := Function.update s.signal t .none, blocked := false } : LogWaiters θ).counts := by
  have hone := signal_update (s := s) isOne t .none
  have hall := signal_update (s := s) isAll t .none
  cases hsig : s.signal t with
  | none => exact absurd hsig hsignal
  | one =>
      simp only [hsig, isOne, isAll, Nat.add_zero] at hone hall
      cases hb : s.blocked with
      | false =>
          have hstep := CondVar.Counts.Step.notifyNobody (c := s.counts) hone.symm
            (by simp [counts, hb])
          simpa [counts, awake, hb, hall] using hstep
      | true =>
          have hstep := CondVar.Counts.Step.notifyOne (c := s.counts) (m := 0) hone.symm
            (by simp [counts, hb])
          simpa [counts, awake, hb, hall, hseated hb] using hstep
  | all =>
      simp only [hsig, isOne, isAll, Nat.add_zero] at hone hall
      have hstep := CondVar.Counts.Step.notifyAll (c := s.counts) hall.symm
      cases hb : s.blocked with
      | false => simpa [counts, awake, hb, hone] using hstep
      | true => simpa [counts, awake, hb, hone, hseated hb] using hstep

theorem moves_counts {e : LogWaitEvent θ} (hseated : Seated s) (hm : Moves s e s') :
    Relation.ReflTransGen CondVar.Counts.Step s.counts s'.counts := by
  cases hm with
  | caller hs hqueue hstopping hworker =>
      simp only [counts, awake, hqueue, hstopping, hworker]
      exact .refl
  | @push t entry hsignal hcall =>
      have hone := signal_update (s := s) isOne t .one
      have hall := signal_update (s := s) isAll t .one
      simp only [hsignal, isOne, isAll, Nat.add_zero] at hone hall
      have hstep := CondVar.Counts.Step.put (c := s.counts)
      refine .single ?_
      simpa [counts, awake, hone, hall] using hstep
  | @shutdown t log hsignal hs =>
      obtain rfl := Option.some.inj hs
      have hone := signal_update (s := s) isOne t .all
      have hall := signal_update (s := s) isAll t .all
      simp only [hsignal, isOne, isAll, Nat.add_zero] at hone hall
      have hstep := CondVar.Counts.Step.close (c := s.counts)
      refine .single ?_
      simpa [counts, awake, hone, hall] using hstep
  | notify hsignal => exact .single (notify_counts hseated hsignal)
  | @take entry queue hw hb hq =>
      have hstep := CondVar.Counts.Step.take (c := s.counts) (n := 0) (m := queue.length)
        (by simp [counts, awake, hw, hb]) (by simp [counts, hq])
      refine .single ?_
      simpa [counts, awake] using hstep
  | exit hw hb hq hs =>
      have hstep := CondVar.Counts.Step.leave (c := s.counts) (n := 0)
        (by simp [counts, awake, hw, hb]) (by simp [counts, hq])
      refine .single ?_
      simpa [counts, awake] using hstep
  | block hw hb hq hs =>
      have hstep := CondVar.Counts.Step.block (c := s.counts) (n := 0)
        (by simp [counts, awake, hw, hb]) (by simp [counts, hq]) hs
      refine .single ?_
      simpa [counts, awake, hb] using hstep
  | sink hw =>
      simp only [counts, awake, hw]
      exact .refl
  | next hw =>
      have hb : s.blocked = false := by
        rw [← Bool.not_eq_true]
        intro hb
        rw [hseated hb] at hw
        cases hw
      have hstep := CondVar.Counts.Step.arrive (c := s.counts)
      refine .single ?_
      simpa [counts, awake, hw, hb] using hstep
  | wake hb =>
      have hstep := CondVar.Counts.Step.wake (c := s.counts) (n := 0) (by simp [counts, hb])
      refine .single ?_
      simpa [counts, awake, hb, hseated hb] using hstep

/-- A worker that is gone has seen the flag. -/
def Told (s : LogWaiters θ) : Prop := s.log.worker = .exited → s.log.stopping = true

omit [Fintype θ] in
theorem moves_told {e : LogWaitEvent θ} (h : Told s) (hm : Moves s e s') : Told s' := by
  intro hw'
  cases hm with
  | caller hs hqueue hstopping hworker => exact hstopping.trans (h (hworker.symm.trans hw'))
  | push => exact h hw'
  | shutdown hsignal hs =>
      obtain rfl := Option.some.inj hs
      rfl
  | notify => exact h hw'
  | take => cases hw'
  | exit hw hb hq hs => exact hs
  | block => exact h hw'
  | sink => cases hw'
  | next => cases hw'
  | wake => exact h hw'

/-- What holds in every reachable state. -/
structure Sound (s : LogWaiters θ) : Prop where
  seated : Seated s
  told : Told s
  attended : s.counts.Attended
  flushed : s.log.Flushed

omit [Fintype θ] in
theorem moves_log_flushed {e : LogWaitEvent θ} (h : s.log.Flushed) (hm : Moves s e s') :
    s'.log.Flushed := by
  cases hm with
  | caller hs => exact LoggerSystem.moves_flushed h (LoggerSystem.step_moves hs)
  | push hsignal hcall => exact LoggerSystem.moves_flushed h (.push _ hcall)
  | shutdown hsignal hs => exact LoggerSystem.moves_flushed h (LoggerSystem.step_moves hs)
  | notify => exact h
  | take hw hb hq => exact LoggerSystem.moves_flushed h (.take hw hq)
  | exit hw hb hq hs => exact LoggerSystem.moves_flushed h (.exit hw hq hs)
  | block => exact h
  | sink hw hlt => exact LoggerSystem.moves_flushed h (.sink hw hlt)
  | next hw hge => exact LoggerSystem.moves_flushed h (.next hw hge)
  | wake => exact h

omit [DecidableEq θ] in
theorem init_sound (relativeTs : Bool) (n : ℕ) : Sound (init relativeTs n : LogWaiters θ) where
  seated hb := by cases hb
  told hw := by cases hw
  attended hb := absurd hb (Nat.lt_irrefl 0)
  flushed := LoggerSystem.init_flushed relativeTs n

theorem reaches_sound {relativeTs : Bool} {n : ℕ} (h : Reaches step (init relativeTs n) s) : Sound s := by
  refine h.invariant (fun s e s' hsound hs => ?_) (init_sound relativeTs n)
  have hm := step_moves hs
  exact ⟨moves_seated hsound.seated hm, moves_told hsound.told hm,
    CondVar.Counts.attended_of_steps (moves_counts hsound.seated hm) hsound.attended,
    moves_log_flushed hsound.flushed hm⟩

/-- **No entry is left unattended.**  For any number of callers and in every interleaving: while the
worker is blocked, every queued entry has a caller of its own that is about to call `notify_one`, and if
`shutdown` has set its flag, a caller is about to call `notify_all`. -/
theorem no_entry_unattended (relativeTs : Bool) (n : ℕ) (s : LogWaiters θ)
    (h : Reaches step (init relativeTs n) s) (hblocked : s.blocked = true) :
    s.log.queue.length ≤ CondVar.total isOne s.signal ∧
      (s.log.stopping = true → 0 < CondVar.total isAll s.signal) := by
  obtain ⟨hle, hclosed⟩ := (reaches_sound h).attended (by simp [counts, hblocked])
  simp only [counts, awake, hblocked, Bool.not_true, Bool.and_false, Bool.toNat_false,
    Nat.zero_add] at hle
  exact ⟨hle, hclosed⟩

/-- The worker is blocked; one entry has been pushed, and there has been a shutdown. -/
theorem no_entry_unattended_stopping : ∃ s : LogWaiters Bool,
    run step (init false 1) [.setLevel .info, .call true .info "A" "x", .evaluate, .stamp true 1 7,
      .push true, .shutdown false] = some s ∧
    s.blocked = true ∧ s.log.queue.length = 1 ∧ s.log.stopping = true ∧
    s.log.queue.length ≤ CondVar.total isOne s.signal ∧ 0 < CondVar.total isAll s.signal := by
  have heval : (run step (init false 1 : LogWaiters Bool) [.setLevel .info,
      .call true .info "A" "x", .evaluate, .stamp true 1 7, .push true, .shutdown false]).map
        (fun s => (s.blocked, s.log.queue.length, s.log.stopping)) = some (true, 1, true) := by
    decide +kernel
  obtain ⟨s, hrun, hval⟩ := Option.map_eq_some_iff.mp heval
  obtain ⟨hb, hval⟩ := Prod.mk.inj hval
  obtain ⟨hlen, hstop⟩ := Prod.mk.inj hval
  obtain ⟨hle, hclosed⟩ := no_entry_unattended false 1 s ⟨_, hrun⟩ hb
  exact ⟨s, hrun, hb, hlen, hstop, hle, hclosed hstop⟩

/-! ### Coming to rest -/

/-- The next step of a call that has begun, or of the worker. -/
def OfThread : LogWaitEvent θ → Prop
  | .stamp _ _ _ => True
  | .push _ => True
  | .notify _ => True
  | .evaluate => True
  | .dispatch => True
  | _ => False

/-- The steps left to a caller inside `log`, with those that its entry costs the worker. -/
def callWeight (n : ℕ) : LogCall θ → ℕ
  | .idle => 0
  | .pushing _ => n + 5
  | .passed _ _ _ => n + 6

def signalWeight : LogSignal → ℕ
  | .none => 0
  | _ => 2

/-- The steps left to the worker until it evaluates its predicate on an empty queue. -/
def workerWeight (n : ℕ) (blocked : Bool) : LogWorker → ℕ
  | .waiting => if blocked then 0 else 1
  | .dispatching _ next => n - next + 2
  | .exited => 0

/-- A bound on the steps that are left to everybody. -/
def work (s : LogWaiters θ) : ℕ :=
  CondVar.total (callWeight s.log.sinks.length) s.log.calls + CondVar.total signalWeight s.signal +
    (s.log.sinks.length + 2) * s.log.queue.length +
    workerWeight s.log.sinks.length s.blocked s.log.worker

theorem moves_work {e : LogWaitEvent θ} (he : OfThread e) (hm : Moves s e s') :
    s'.work < s.work := by
  cases hm with
  | @caller e e' log hs hqueue hstopping hworker hsinks hcalls hnot =>
      cases e with
      | stamp t steady system =>
          obtain ⟨level, component, message, entry, hcall, hlog⟩ := hcalls t steady system rfl
          have hw := CondVar.total_update (callWeight s.log.sinks.length) s.log.calls t
            (.pushing entry)
          simp only [hcall, callWeight] at hw
          simp only [work, hqueue, hworker, hsinks, hlog]
          omega
      | push t => exact absurd rfl (hnot.2.2 t).1
      | notify t => exact absurd rfl (hnot.2.2 t).2
      | evaluate => exact absurd rfl hnot.1
      | dispatch => exact absurd rfl hnot.2.1
      | call => exact he.elim
      | setLevel => exact he.elim
      | useRelativeTimestamps => exact he.elim
      | shutdown => exact he.elim
      | wake => exact he.elim
  | @push t entry hsignal hcall =>
      have hc := CondVar.total_update (callWeight s.log.sinks.length) s.log.calls t .idle
      have hn := signal_update (s := s) signalWeight t .one
      simp only [hcall, hsignal, callWeight, signalWeight] at hc hn
      simp only [work, List.length_append, List.length_singleton, Nat.mul_add, Nat.mul_one]
      omega
  | shutdown => exact he.elim
  | @notify t hsignal =>
      have hn := signal_update (s := s) signalWeight t .none
      have htwo : signalWeight (s.signal t) = 2 := by
        cases hsig : s.signal t with
        | none => exact absurd hsig hsignal
        | one => rfl
        | all => rfl
      have hworker : workerWeight s.log.sinks.length false s.log.worker ≤
          workerWeight s.log.sinks.length s.blocked s.log.worker + 1 := by
        cases hw : s.log.worker with
        | waiting => simp [workerWeight]
        | dispatching formatted next => simp [workerWeight]
        | exited => simp [workerWeight]
      simp only [signalWeight, Nat.add_zero] at hn
      simp only [work]
      omega
  | take hw hb hq =>
      simp only [work, hw, hb, hq, workerWeight, List.length_cons, Nat.mul_add, Nat.mul_one]
      simp
      omega
  | exit hw hb hq hs =>
      simp only [work, hw, hb, workerWeight]
      simp
  | block hw hb hq hs =>
      simp only [work, hw, hb, workerWeight]
      simp
  | sink hw hlt =>
      simp only [work, hw, workerWeight, List.length_modify]
      omega
  | next hw hge =>
      simp only [work, hw, workerWeight]
      split_ifs
      · omega
      · omega
  | wake => exact he.elim

theorem length_le_work {es : List (LogWaitEvent θ)} (hes : ∀ e ∈ es, OfThread e)
    (hrun : run step s es = some s') : es.length ≤ s.work := by
  have hstep : ∀ (s : LogWaiters θ) e s', OfThread e → step s e = some s' →
      1 + s'.work ≤ s.work := by
    intro s e s' he hs
    have hlt := moves_work he (step_moves hs)
    omega
  have hpaid := run_potential hstep (along_of_forall hes) hrun
  simp only [List.map_const', List.sum_replicate, smul_eq_mul, Nat.mul_one] at hpaid
  omega

/-- Neither a call that has begun nor the worker can go on. -/
def Rests (s : LogWaiters θ) : Prop := ∀ e, OfThread e → step s e = none

omit [Fintype θ] in
theorem Rests.signal (h : Rests s) (t : θ) : s.signal t = .none := by
  by_contra hsignal
  have hstep := h (.notify t) trivial
  simp only [step, if_neg hsignal] at hstep
  cases hstep

omit [Fintype θ] in
theorem Rests.calls (h : Rests s) (t : θ) : s.log.calls t = .idle := by
  cases hcall : s.log.calls t with
  | idle => rfl
  | passed level component message =>
      have hstep := h (.stamp t 0 0) trivial
      simp only [step, perform, LoggerSystem.step, hcall] at hstep
      cases hstep
  | pushing entry =>
      have hstep := h (.push t) trivial
      simp only [step, if_pos (h.signal t), owe, LoggerSystem.step, hcall] at hstep
      cases hstep

omit [Fintype θ] in
theorem Rests.worker (h : Rests s) :
    s.log.worker = .exited ∨ s.log.worker = .waiting ∧ s.blocked = true := by
  cases hw : s.log.worker with
  | exited => exact .inl rfl
  | dispatching formatted next =>
      have hstep := h .dispatch trivial
      simp only [step, perform, LoggerSystem.step, hw] at hstep
      split_ifs at hstep <;> cases hstep
  | waiting =>
      refine .inr ⟨rfl, ?_⟩
      rw [← Bool.not_eq_false]
      intro hb
      have hstep := h .evaluate trivial
      simp only [step, hw, hb, and_self, if_true] at hstep
      split_ifs at hstep with hready
      simp only [perform, LoggerSystem.step, hw] at hstep
      cases hq : s.log.queue with
      | nil =>
          have hstop : s.log.stopping = true := by
            rcases hready with hstop | hne
            · exact hstop
            · exact absurd hq hne
          simp only [hq, hstop, if_true] at hstep
          cases hstep
      | cons entry queue =>
          simp only [hq] at hstep
          cases hstep

/-- What is left when nothing goes on any more: nobody is inside `log` or `shutdown`; after a shutdown
the worker is gone, and every sink has at least what was accepted before it; without one, every sink
has everything. -/
structure AtRest (s : LogWaiters θ) : Prop where
  callers : ∀ t, s.log.calls t = .idle ∧ s.signal t = .none
  stopped : s.log.stopping = true → s.log.worker = .exited ∧ ∃ k, s.log.atShutdown = some k ∧
    ∀ (i : ℕ) (lines : List String), s.log.sinks[i]? = some lines →
      ∃ n, k ≤ n ∧ lines = (s.log.accepted.take n).map LogEntry.formatted
  running : s.log.stopping = false → s.blocked = true ∧ s.log.queue = [] ∧
    ∀ (i : ℕ) (lines : List String), s.log.sinks[i]? = some lines →
      lines = s.log.accepted.map LogEntry.formatted

theorem Rests.atRest (h : Rests s) (hs : Sound s) : AtRest s := by
  have hblocked : s.blocked = true → s.log.queue = [] ∧ s.log.stopping = false := by
    intro hb
    obtain ⟨hle, hclosed⟩ := hs.attended (by simp [counts, hb])
    have hone : CondVar.total isOne s.signal = 0 := by
      rw [CondVar.total_eq_zero_iff]
      intro t
      rw [h.signal t]
      rfl
    have hall : CondVar.total isAll s.signal = 0 := by
      rw [CondVar.total_eq_zero_iff]
      intro t
      rw [h.signal t]
      rfl
    simp only [counts, awake, hb, hone, hall, Bool.not_true, Bool.and_false, Bool.toNat_false,
      Nat.add_zero, Nat.lt_irrefl, imp_false, Bool.not_eq_true] at hle hclosed
    exact ⟨List.length_eq_zero_iff.mp (by omega), hclosed⟩
  refine ⟨fun t => ⟨h.calls t, h.signal t⟩, fun hstop => ?_, fun hrun => ?_⟩
  · rcases h.worker with hw | ⟨-, hb⟩
    · obtain ⟨k, hk, hsinks⟩ := hs.flushed.exactlyOnce.exited hw
      refine ⟨hw, k, hk, fun i lines hi => ?_⟩
      obtain ⟨n, hle, -, hlines⟩ := hsinks i lines hi
      exact ⟨n, hle, hlines⟩
    · rw [(hblocked hb).2] at hstop
      cases hstop
  · rcases h.worker with hw | ⟨hw, hb⟩
    · rw [hs.told hw] at hrun
      cases hrun
    · obtain ⟨hq, -⟩ := hblocked hb
      exact ⟨hb, hq, fun i lines hi => hs.flushed.all_received hw hq hi⟩

/-- **The logger comes to rest with everything written.**  From every reachable state: without new
calls, callers and worker take at most `work` steps; when none of them can go on, every accepted entry
is in every sink, in order, or there has been a shutdown and the worker is gone. -/
theorem rest_flushed (relativeTs : Bool) (n : ℕ) (s : LogWaiters θ)
    (h : Reaches step (init relativeTs n) s) :
    (∀ es s', (∀ e ∈ es, OfThread e) → run step s es = some s' → es.length ≤ s.work) ∧
      (Rests s → AtRest s) :=
  ⟨fun _ _ hes hrun => length_le_work hes hrun, fun hrest => hrest.atRest (reaches_sound h)⟩

/-- Two entries, the second pushed while the worker writes the first: both are written. -/
theorem rest_flushed_two : ∃ s : LogWaiters Bool,
    run step (init false 1) [.setLevel .info, .call true .info "A" "x", .evaluate, .stamp true 1 7,
      .push true, .call false .warn "B" "y", .notify true, .evaluate, .dispatch, .stamp false 2 9,
      .push false, .dispatch, .evaluate, .notify false, .dispatch, .dispatch, .evaluate] = some s ∧
    s.log.sinks = [["7 [A] INFO - x", "9 [B] WARN - y"]] ∧ Rests s ∧ AtRest s := by
  have heval : (run step (init false 1 : LogWaiters Bool) [.setLevel .info,
      .call true .info "A" "x", .evaluate, .stamp true 1 7, .push true, .call false .warn "B" "y",
      .notify true, .evaluate, .dispatch, .stamp false 2 9, .push false, .dispatch, .evaluate,
      .notify false, .dispatch, .dispatch, .evaluate]).map (fun s => (s.log.sinks,
        decide (∀ t, s.log.calls t = .idle ∧ s.signal t = .none), s.log.worker, s.blocked)) =
        some ([["7 [A] INFO - x", "9 [B] WARN - y"]], true, .waiting, true) := by
    decide +kernel
  obtain ⟨s, hrun, hval⟩ := Option.map_eq_some_iff.mp heval
  obtain ⟨hsinks, hval⟩ := Prod.mk.inj hval
  obtain ⟨hidle, hval⟩ := Prod.mk.inj hval
  obtain ⟨hworker, hblocked⟩ := Prod.mk.inj hval
  have hcallers := of_decide_eq_true hidle
  have hrest : Rests s := by
    intro e he
    cases e with
    | stamp t steady system => simp [step, perform, LoggerSystem.step, hcallers t]
    | push t => simp [step, owe, LoggerSystem.step, hcallers t]
    | notify t => simp [step, hcallers t]
    | evaluate => simp [step, hblocked]
    | dispatch => simp [step, perform, LoggerSystem.step, hworker]
    | _ => exact he.elim
  exact ⟨s, hrun, hsinks, hrest, (rest_flushed false 1 s ⟨_, hrun⟩).2 hrest⟩

end counts

end LogWaiters

end Protocore
