import Mathlib.Logic.Function.Basic
import Protocore.Run

/-! # The asynchronous logger

`Logger` (`logger.h`, `logger.cpp`): any number of threads call `log`, which drops the entry
below `min_level`, stamps it and pushes it on a queue under `queue_mutex`; one worker thread
takes the entries off the queue, formats them and hands the line to each sink in turn.
`shutdown` sets a flag; the worker leaves its loop when the flag is set and the queue is empty.

`accepted_flushed_once`: at every moment of every interleaving, what a sink has received,
followed by the line in the worker's hands if the sink has yet to receive it, followed by the
queue, is what was accepted so far, in the order in which it entered the queue; and when the
worker is gone, every sink has every entry accepted before the shutdown. -/

namespace Protocore

/-- `enum class LogLevel`. -/
inductive LogLevel where
  | debug
  | info
  | warn
  | error
  | msgTraffic
deriving DecidableEq, Repr

/-- The underlying value, by which levels are compared. -/
def LogLevel.toNat : LogLevel → ℕ
  | debug => 0
  | info => 1
  | warn => 2
  | error => 3
  | msgTraffic => 4

/-- `level_str` of `worker_loop`. -/
def LogLevel.levelStr : LogLevel → String
  | msgTraffic => "TRAFFIC"
  | debug => "DEBUG"
  | info => "INFO"
  | warn => "WARN"
  | error => "ERROR"

/-- `struct LogEntry`; `θ` are the thread ids. -/
structure LogEntry (θ : Type) where
  level : LogLevel
  component : String
  message : String
  timestampMs : UInt64
  threadId : θ
deriving DecidableEq

/-- The line written by `worker_loop`. -/
def LogEntry.formatted {θ : Type} (entry : LogEntry θ) : String :=
  toString entry.timestampMs.toNat ++ " [" ++ entry.component ++ "] " ++ entry.level.levelStr ++
    " - " ++ entry.message

/-- Where a calling thread is in `Logger::log`. -/
inductive LogCall (θ : Type) where
  | idle
  | passed (level : LogLevel) (component message : String)
  | pushing (entry : LogEntry θ)
deriving DecidableEq

/-- Where the worker is: before its critical section, in the loop over the sinks with `next`
sinks served, or out of its loop. -/
inductive LogWorker where
  | waiting
  | dispatching (formatted : String) (next : ℕ)
  | exited
deriving DecidableEq

/-- The logger, its callers, its worker, and the lines each sink has received. -/
structure LoggerSystem (θ : Type) where
  minLevel : LogLevel
  relativeTs : Bool
  queue : List (LogEntry θ)
  stopping : Bool
  calls : θ → LogCall θ
  worker : LogWorker
  sinks : List (List String)
  /-- All entries pushed on the queue so far. -/
  accepted : List (LogEntry θ)
  /-- How many of them there were when `shutdown` was called for the first time. -/
  atShutdown : Option ℕ

/-- The atomic steps. -/
inductive LoggerEvent (θ : Type) where
  | call (t : θ) (level : LogLevel) (component message : String)
  /-- `steady` and `system` are what the two clocks read, in milliseconds. -/
  | stamp (t : θ) (steady system : UInt64)
  | push (t : θ)
  | setLevel (level : LogLevel)
  | useRelativeTimestamps (enable : Bool)
  | shutdown
  | take
  | dispatch

namespace LoggerSystem

variable {θ : Type}

/-- The constructor, then `add_sink` for each of `n` sinks. -/
def init (relativeTs : Bool) (n : ℕ) : LoggerSystem θ :=
  ⟨.msgTraffic, relativeTs, [], false, fun _ => .idle, .waiting, List.replicate n [], [], none⟩

section steps
variable [DecidableEq θ]

/-- One atomic step. -/
def step (s : LoggerSystem θ) : LoggerEvent θ → Option (LoggerSystem θ)
  | .call t level component message =>
      if s.calls t = .idle then
        if level.toNat < s.minLevel.toNat then some s
        else some { s with calls := Function.update s.calls t (.passed level component message) }
      else none
  | .stamp t steady system =>
      match s.calls t with
      | .passed level component message =>
          let ms := if s.relativeTs then steady else system
          some { s with
            calls := Function.update s.calls t (.pushing ⟨level, component, message, ms, t⟩) }
      | _ => none
  | .push t =>
      match s.calls t with
      | .pushing entry =>
          some { s with
            queue := s.queue ++ [entry]
            calls := Function.update s.calls t .idle
            accepted := s.accepted ++ [entry] }
      | _ => none
  | .setLevel level => some { s with minLevel := level }
  | .useRelativeTimestamps enable => some { s with relativeTs := enable }
  | .shutdown =>
      some { s with stopping := true, atShutdown := s.atShutdown.or (some s.accepted.length) }
  | .take =>
      match s.worker with
      | .waiting =>
          match s.queue with
          | [] => if s.stopping then some { s with worker := .exited } else none
          | entry :: queue =>
              some { s with queue := queue, worker := .dispatching entry.formatted 0 }
      | _ => none
  | .dispatch =>
      match s.worker with
      | .dispatching formatted next =>
          if next < s.sinks.length then
            some { s with
              sinks := s.sinks.modify next (· ++ [formatted])
              worker := .dispatching formatted (next + 1) }
          else some { s with worker := .waiting }
      | _ => none

/-- Everything a step can do. -/
inductive Moves (s : LoggerSystem θ) : LoggerEvent θ → LoggerSystem θ → Prop
  | caller {e : LoggerEvent θ} (calls : θ → LogCall θ) (minLevel : LogLevel) (relativeTs : Bool) :
      Moves s e { s with calls := calls, minLevel := minLevel, relativeTs := relativeTs }
  | push {t : θ} (entry : LogEntry θ) (h : s.calls t = .pushing entry) :
      Moves s (.push t) { s with
        queue := s.queue ++ [entry]
        calls := Function.update s.calls t .idle
        accepted := s.accepted ++ [entry] }
  | shutdown : Moves s .shutdown
      { s with stopping := true, atShutdown := s.atShutdown.or (some s.accepted.length) }
  | exit (hw : s.worker = .waiting) (hq : s.queue = []) (hs : s.stopping = true) :
      Moves s .take { s with worker := .exited }
  | take {entry : LogEntry θ} {queue : List (LogEntry θ)} (hw : s.worker = .waiting)
      (hq : s.queue = entry :: queue) :
      Moves s .take { s with queue := queue, worker := .dispatching entry.formatted 0 }
  | sink {formatted : String} {next : ℕ} (hw : s.worker = .dispatching formatted next)
      (hlt : next < s.sinks.length) :
      Moves s .dispatch { s with
        sinks := s.sinks.modify next (· ++ [formatted])
        worker := .dispatching formatted (next + 1) }
  | next {formatted : String} {next : ℕ} (hw : s.worker = .dispatching formatted next)
      (hge : s.sinks.length ≤ next) : Moves s .dispatch { s with worker := .waiting }

theorem step_moves {s s' : LoggerSystem θ} {e : LoggerEvent θ} (h : step s e = some s') :
    Moves s e s' := by
  cases e with
  | call t level component message =>
      simp only [step] at h
      split_ifs at h
      · obtain rfl := Option.some.inj h
        exact .caller s.calls s.minLevel s.relativeTs
      · obtain rfl := Option.some.inj h
        exact .caller _ s.minLevel s.relativeTs
  | stamp t steady system =>
      simp only [step] at h
      split at h
      · obtain rfl := Option.some.inj h
        exact .caller _ s.minLevel s.relativeTs
      · cases h
  | push t =>
      simp only [step] at h
      split at h
      · rename_i entry hentry
        obtain rfl := Option.some.inj h
        exact .push entry hentry
      · cases h
  | setLevel level =>
      obtain rfl := Option.some.inj h
      exact .caller s.calls level s.relativeTs
  | useRelativeTimestamps enable =>
      obtain rfl := Option.some.inj h
      exact .caller s.calls s.minLevel enable
  | shutdown =>
      obtain rfl := Option.some.inj h
      exact .shutdown
  | take =>
      simp only [step] at h
      split at h
      · rename_i hw
        split at h
        · rename_i hq
          split_ifs at h with hs
          obtain rfl := Option.some.inj h
          exact .exit hw hq hs
        · rename_i entry queue hq
          obtain rfl := Option.some.inj h
          exact .take hw hq
      · cases h
  | dispatch =>
      simp only [step] at h
      split at h
      · rename_i formatted next hw
        split_ifs at h with hlt
        · obtain rfl := Option.some.inj h
          exact .sink hw hlt
        · obtain rfl := Option.some.inj h
          exact .next hw (by omega)
      · cases h

end steps

/-! ### What the sinks have received -/

/-- The line being dispatched, if the sink `i` has not received it yet. -/
def inHand (s : LoggerSystem θ) (i : ℕ) : List String :=
  match s.worker with
  | .dispatching formatted next => if next ≤ i then [formatted] else []
  | _ => []

/-- Received, in hand and queued make up what was accepted; the worker is gone only after a
shutdown, and not before everything accepted until then was received. -/
structure Flushed (s : LoggerSystem θ) : Prop where
  order : ∀ (i : ℕ) (lines : List String), s.sinks[i]? = some lines →
    lines ++ s.inHand i ++ s.queue.map LogEntry.formatted = s.accepted.map LogEntry.formatted
  before : ∀ k, s.atShutdown = some k → k ≤ s.accepted.length
  stopping : s.stopping = true → ∃ k, s.atShutdown = some k
  exited : s.worker = .exited → ∃ k, s.atShutdown = some k ∧
    ∀ (i : ℕ) (lines : List String), s.sinks[i]? = some lines → k ≤ lines.length

theorem inHand_of_ne {s : LoggerSystem θ} (h : ∀ formatted next,
    s.worker ≠ .dispatching formatted next) (i : ℕ) : s.inHand i = [] := by
  unfold inHand
  split
  · rename_i formatted next hw
    exact absurd hw (h formatted next)
  · rfl

theorem inHand_waiting {s : LoggerSystem θ} (h : s.worker = .waiting) (i : ℕ) :
    s.inHand i = [] :=
  inHand_of_ne (by rw [h]; intro _ _ hc; cases hc) i

/-- When the worker waits on an empty queue, the sinks have everything. -/
theorem Flushed.all_received {s : LoggerSystem θ} (h : Flushed s) (hw : s.worker = .waiting)
    (hq : s.queue = []) {i : ℕ} {lines : List String} (hi : s.sinks[i]? = some lines) :
    lines = s.accepted.map LogEntry.formatted := by
  have := h.order i lines hi
  rwa [inHand_waiting hw, hq, List.map_nil, List.append_nil, List.append_nil] at this

theorem init_flushed (relativeTs : Bool) (n : ℕ) :
    Flushed (init relativeTs n : LoggerSystem θ) := by
  refine ⟨?_, ?_, ?_, ?_⟩
  · intro i lines hi
    have hmem := List.mem_of_getElem? hi
    have : lines = [] := List.eq_of_mem_replicate hmem
    rw [this, inHand_waiting rfl]
    rfl
  · intro k hk
    cases hk
  · intro hs
    cases hs
  · intro hw
    cases hw

variable [DecidableEq θ]

theorem moves_flushed {s s' : LoggerSystem θ} {e : LoggerEvent θ} (h : Flushed s)
    (hm : Moves s e s') : Flushed s' := by
  cases hm with
  | caller => exact ⟨h.order, h.before, h.stopping, h.exited⟩
  | push entry hentry =>
      refine ⟨?_, ?_, h.stopping, h.exited⟩
      · intro i lines hi
        have := h.order i lines hi
        simp only [List.map_append]
        rw [← this, ← List.append_assoc]
        rfl
      · intro k hk
        have := h.before k hk
        simp only [List.length_append]
        omega
  | shutdown =>
      refine ⟨h.order, ?_, ?_, ?_⟩
      · intro k hk
        cases hs : s.atShutdown with
        | none =>
            rw [hs] at hk
            obtain rfl := Option.some.inj hk
            exact Nat.le_refl _
        | some k₀ =>
            rw [hs] at hk
            obtain rfl := Option.some.inj hk
            exact h.before _ hs
      · intro _
        cases s.atShutdown with
        | none => exact ⟨_, rfl⟩
        | some k => exact ⟨k, rfl⟩
      · intro hw
        obtain ⟨k, hk, hall⟩ := h.exited hw
        refine ⟨k, ?_, hall⟩
        rw [hk]
        rfl
  | exit hw hq hs =>
      refine ⟨?_, h.before, h.stopping, ?_⟩
      · intro i lines hi
        have := h.order i lines hi
        rwa [inHand_waiting hw, ← inHand_of_ne (s := { s with worker := .exited })
          (by intro _ _ hc; cases hc) i] at this
      · intro _
        obtain ⟨k, hk⟩ := h.stopping hs
        refine ⟨k, hk, fun i lines hi => ?_⟩
        rw [h.all_received hw hq hi, List.length_map]
        exact h.before k hk
  | @take entry queue hw hq =>
      refine ⟨?_, h.before, h.stopping, fun hc => by cases hc⟩
      intro i lines hi
      have := h.order i lines hi
      rw [inHand_waiting hw, hq] at this
      simpa [inHand] using this
  | @sink formatted next hw hlt =>
      refine ⟨?_, h.before, h.stopping, fun hc => by cases hc⟩
      intro i lines hi
      rw [List.getElem?_modify] at hi
      obtain ⟨old, hold, hlines⟩ := Option.map_eq_some_iff.mp hi
      have := h.order i old hold
      simp only [inHand, hw] at this ⊢
      rw [← this, ← hlines]
      -- the sink at `next` moves its line from the hand to the received ones
      rcases Nat.lt_trichotomy next i with hc | rfl | hc
      · rw [if_neg (by omega), if_pos (by omega), if_pos (by omega)]
      · rw [if_pos rfl, if_neg (by omega), if_pos (Nat.le_refl _)]
        simp
      · rw [if_neg (by omega), if_neg (by omega), if_neg (by omega)]
  | @next formatted next hw hge =>
      refine ⟨?_, h.before, h.stopping, fun hc => by cases hc⟩
      intro i lines hi
      have hlt : i < s.sinks.length := (List.getElem?_eq_some_iff.mp hi).1
      have := h.order i lines hi
      simp only [inHand, hw] at this ⊢
      rwa [if_neg (by omega)] at this

theorem reaches_flushed {relativeTs : Bool} {n : ℕ} {s : LoggerSystem θ}
    (h : Reaches step (init relativeTs n) s) : Flushed s :=
  h.invariant (fun _ _ _ hi hs => moves_flushed hi (step_moves hs)) (init_flushed relativeTs n)

/-! ### The worker comes to its end -/

/-- The rest of the loop over the sinks. -/
theorem finish_dispatch : ∀ (k : ℕ) (s : LoggerSystem θ) (formatted : String) (next : ℕ),
    s.worker = .dispatching formatted next → s.sinks.length - next = k →
      ∃ es s', (∀ e ∈ es, e = .dispatch) ∧ run step s es = some s' ∧ s'.worker = .waiting ∧
        s'.queue = s.queue ∧ s'.stopping = s.stopping
  | 0, s, formatted, next, hw, hk => by
      refine ⟨[.dispatch], { s with worker := .waiting }, by simp, ?_, rfl, rfl, rfl⟩
      apply run_cons_eq_some.mpr
      refine ⟨_, ?_, rfl⟩
      simp only [step, hw]
      rw [if_neg (by omega)]
  | k + 1, s, formatted, next, hw, hk => by
      have hstep : step s .dispatch = some { s with
          sinks := s.sinks.modify next (· ++ [formatted])
          worker := .dispatching formatted (next + 1) } := by
        simp only [step, hw]
        rw [if_pos (by omega)]
      obtain ⟨es, s', hes, hrun, hrest⟩ := finish_dispatch k { s with
          sinks := s.sinks.modify next (· ++ [formatted])
          worker := .dispatching formatted (next + 1) } formatted (next + 1) rfl
        (by simp only [List.length_modify]; omega)
      refine ⟨.dispatch :: es, s', ?_, run_cons_eq_some.mpr ⟨_, hstep, hrun⟩, hrest⟩
      intro e he
      rcases List.mem_cons.mp he with rfl | he
      · rfl
      · exact hes e he

/-- After a shutdown the worker, left alone, empties the queue and leaves its loop. -/
theorem worker_drains_waiting : ∀ (queue : List (LogEntry θ)) (s : LoggerSystem θ),
    s.queue = queue → s.stopping = true → s.worker = .waiting →
      ∃ es s', (∀ e ∈ es, e = .take ∨ e = .dispatch) ∧ run step s es = some s' ∧
        s'.worker = .exited
  | [], s, hq, hs, hw => by
      refine ⟨[.take], { s with worker := .exited }, by simp, ?_, rfl⟩
      apply run_cons_eq_some.mpr
      refine ⟨_, ?_, rfl⟩
      simp only [step, hw, hq, hs, if_true]
  | entry :: queue, s, hq, hs, hw => by
      have hstep : step s .take =
          some { s with queue := queue, worker := .dispatching entry.formatted 0 } := by
        simp only [step, hw, hq]
      obtain ⟨es, s₁, hes, hrun, hw₁, hq₁, hs₁⟩ := finish_dispatch _
        { s with queue := queue, worker := .dispatching entry.formatted 0 } _ 0 rfl rfl
      obtain ⟨es', s', hes', hrun', hend⟩ := worker_drains_waiting queue s₁ hq₁ (hs₁.trans hs) hw₁
      refine ⟨.take :: (es ++ es'), s', ?_,
        run_cons_eq_some.mpr ⟨_, hstep, run_append_eq_some.mpr ⟨s₁, hrun, hrun'⟩⟩, hend⟩
      intro e he
      rcases List.mem_cons.mp he with rfl | he
      · exact Or.inl rfl
      · rcases List.mem_append.mp he with he | he
        · exact Or.inr (hes e he)
        · exact hes' e he

theorem worker_drains {s : LoggerSystem θ} (hs : s.stopping = true) :
    ∃ es s', (∀ e ∈ es, e = .take ∨ e = .dispatch) ∧ run step s es = some s' ∧
      s'.worker = .exited := by
  cases hw : s.worker with
  | waiting => exact worker_drains_waiting s.queue s rfl hs hw
  | exited => exact ⟨[], s, by simp, rfl, hw⟩
  | dispatching formatted next =>
      obtain ⟨es, s₁, hes, hrun, hw₁, -, hs₁⟩ := finish_dispatch _ s formatted next hw rfl
      obtain ⟨es', s', hes', hrun', hend⟩ :=
        worker_drains_waiting s₁.queue s₁ rfl (hs₁.trans hs) hw₁
      refine ⟨es ++ es', s', ?_, run_append_eq_some.mpr ⟨s₁, hrun, hrun'⟩, hend⟩
      intro e he
      rcases List.mem_append.mp he with he | he
      · exact Or.inr (hes e he)
      · exact hes' e he

/-! ### Exactly once and in order -/

/-- What holds of the logger in a state of a run. -/
structure ExactlyOnce (s : LoggerSystem θ) : Prop where
  /-- Received, in hand and queued make up what was accepted, in order. -/
  order : ∀ (i : ℕ) (lines : List String), s.sinks[i]? = some lines →
    lines ++ s.inHand i ++ s.queue.map LogEntry.formatted = s.accepted.map LogEntry.formatted
  /-- The worker leaves its loop only after a shutdown, with an empty queue and every entry
  accepted so far in every sink. -/
  exit : ∀ e s', step s e = some s' → s.worker ≠ .exited → s'.worker = .exited →
    s.stopping = true ∧ s.queue = [] ∧ ∀ (i : ℕ) (lines : List String),
      s'.sinks[i]? = some lines → lines = s'.accepted.map LogEntry.formatted
  /-- With the worker gone, every sink has received, once and in order, a part of what was
  accepted that contains everything accepted before the shutdown. -/
  exited : s.worker = .exited → ∃ k, s.atShutdown = some k ∧
    ∀ (i : ℕ) (lines : List String), s.sinks[i]? = some lines →
      ∃ n, k ≤ n ∧ n ≤ s.accepted.length ∧ lines = (s.accepted.take n).map LogEntry.formatted
  /-- After a shutdown the worker can always come to its end. -/
  drains : s.stopping = true → ∃ es s', (∀ e ∈ es, e = .take ∨ e = .dispatch) ∧
    run step s es = some s' ∧ s'.worker = .exited

theorem Flushed.exactlyOnce {s : LoggerSystem θ} (h : Flushed s) : ExactlyOnce s := by
  refine ⟨h.order, ?_, ?_, worker_drains⟩
  · intro e s' hs hne hw'
    have hm := step_moves hs
    cases hm with
    | exit hw hq hstop =>
        exact ⟨hstop, hq, fun i lines hi => h.all_received hw hq hi⟩
    | caller => exact absurd hw' hne
    | push => exact absurd hw' hne
    | shutdown => exact absurd hw' hne
    | take => cases hw'
    | sink => cases hw'
    | next => cases hw'
  · intro hw
    obtain ⟨k, hk, hall⟩ := h.exited hw
    refine ⟨k, hk, fun i lines hi => ⟨lines.length, hall i lines hi, ?_, ?_⟩⟩
    · have := congrArg List.length (h.order i lines hi)
      simp only [List.length_append, List.length_map] at this
      omega
    · have horder := h.order i lines hi
      rw [List.append_assoc] at horder
      rw [List.map_take, ← horder, List.take_left]

/-- **Accepted entries are flushed exactly once and in order.**  For any number of callers and
sinks, in every interleaving of `log`, `shutdown` and the worker. -/
theorem accepted_flushed_once (relativeTs : Bool) (n : ℕ) (s : LoggerSystem θ)
    (h : Reaches step (init relativeTs n) s) : ExactlyOnce s :=
  (reaches_flushed h).exactlyOnce

/-- Two callers and two sinks: an entry is accepted between the shutdown and the exit. -/
theorem accepted_flushed_once_after_shutdown : ∃ s : LoggerSystem Bool,
    run step (init false 2) [.setLevel .info, .call true .info "A" "x", .call false .error "B" "y",
      .stamp true 1 7, .push true, .call true .debug "A" "z", .shutdown, .stamp false 2 9,
      .take, .dispatch, .push false, .dispatch, .dispatch, .take, .dispatch, .dispatch, .dispatch,
      .take] = some s ∧ s.worker = .exited ∧ s.atShutdown = some 1 ∧
    s.sinks = [["7 [A] INFO - x", "9 [B] ERROR - y"], ["7 [A] INFO - x", "9 [B] ERROR - y"]] ∧
    ExactlyOnce s := by
  have heval : (run step (init false 2 : LoggerSystem Bool)
      [.setLevel .info, .call true .info "A" "x", .call false .error "B" "y",
        .stamp true 1 7, .push true, .call true .debug "A" "z", .shutdown, .stamp false 2 9,
        .take, .dispatch, .push false, .dispatch, .dispatch, .take, .dispatch, .dispatch, .dispatch,
        .take]).map (fun s => (s.worker, s.atShutdown, s.sinks)) = some (.exited, some 1,
      [["7 [A] INFO - x", "9 [B] ERROR - y"], ["7 [A] INFO - x", "9 [B] ERROR - y"]]) := by
    decide +kernel
  obtain ⟨s, hrun, hval⟩ := Option.map_eq_some_iff.mp heval
  obtain ⟨hw, hval⟩ := Prod.mk.inj hval
  obtain ⟨hk, hsinks⟩ := Prod.mk.inj hval
  exact ⟨s, hrun, hw, hk, hsinks, accepted_flushed_once false 2 s ⟨_, hrun⟩⟩

end LoggerSystem

end Protocore
