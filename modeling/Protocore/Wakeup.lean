import Protocore.Run
import Protocore.StateManager
import Mathlib.Logic.Function.Basic
import Mathlib.Order.Nat

/-! # Waking a demand

`demand_state_transition` waits on `state_transition_cv` until all records have the demanded state.
`wait_for` evaluates its predicate while it owns `state_mutex`; when it is false, the thread releases
the mutex and blocks in one step.  The manager's thread takes no mutex: it writes the record of an
acknowledgment, compares all records with the one shared `target_state`, and calls `notify_one` if
they all have it.  `mark_task_as_unresponsive` writes a record under the mutex and notifies nobody;
the command it delivers first changes nothing here.  Any acknowledgment may arrive at any time.

`no_lost_wakeup_iff`: a blocked thread whose demanded state all records have is throughout a run the
only one blocked, with the manager on its way to the `notify_one` that wakes it, if and only if every
step of the run meets `Heard`.  An acknowledgment recorded between the evaluation and the block, with
its `notify_one` already past, is missed (`notified_before_blocked`). -/

namespace Protocore

variable {κ τ : Type} [DecidableEq κ] [LinearOrder τ]

/-- Where a thread is inside `demand_state_transition`.  `lock` waits for `state_mutex`; `check` and
`block` own it: `check` reads the records one by one, `block` has found one that differs. -/
inductive DemandPc (τ : Type) where
  | idle
  | setTarget (newState : TaskState)
  | transition (newState : TaskState)
  | lock (newState : TaskState) (timedOut : Bool)
  | check (newState : TaskState) (rest : List τ) (timedOut : Bool)
  | block (newState : TaskState)
  | blocked (newState : TaskState)
  | returned (newState : TaskState) (success : Bool)

/-- Where the manager's thread is inside `handle_acknowledgment`: outside of it, in the loop that
compares the records with `target_state`, or before `notify_one`. -/
inductive HandlerPc (τ : Type) where
  | idle
  | compare (rest : List τ)
  | notify

/-- The manager, the owner of `state_mutex`, the threads that wait on `state_transition_cv`, and where
the threads are. -/
structure WakeupSystem (κ τ : Type) [LinearOrder τ] where
  manager : StateManager τ
  stateMutex : Option κ
  waiting : List κ
  demander : κ → DemandPc τ
  handler : HandlerPc τ

/-- A call begins, a thread takes its next step, or a wait ends. -/
inductive WakeupEvent (κ τ : Type) where
  | demandStateTransition (d : κ) (newState : TaskState)
  | demand (d : κ)
  | timeout (d : κ)
  | handleAcknowledgment (msg : Msg τ)
  | compare
  | notifyOne (d : κ)
  | notifyNobody
  | recordUnresponsive (task : τ)

namespace WakeupSystem

/-- All tasks are registered and no call has begun. -/
def init (manager : StateManager τ) : WakeupSystem κ τ where
  manager := manager
  stateMutex := none
  waiting := []
  demander := fun _ => .idle
  handler := .idle

/-- The tasks in the order in which the loops read their records. -/
def recorded (s : WakeupSystem κ τ) : List τ := s.manager.taskStates.entries.map Prod.fst

/-- The next step of a demanding thread. -/
def demandStep (s : WakeupSystem κ τ) (d : κ) : Option (WakeupSystem κ τ) :=
  let goto := fun pc => Function.update s.demander d pc
  match s.demander d with
  | .setTarget newState =>
      if s.stateMutex.isNone then
        some { s with
          manager := { s.manager with targetState := newState }
          demander := goto (.transition newState) }
      else none
  | .transition newState =>
      some { s with
        manager := (s.manager.transitionToState newState).1
        demander := goto (.lock newState false) }
  | .lock newState timedOut =>
      if s.stateMutex.isNone then
        some { s with
          stateMutex := some d
          demander := goto (.check newState s.recorded timedOut) }
      else none
  | .check newState [] _ =>
      some { s with stateMutex := none, demander := goto (.returned newState true) }
  | .check newState (t :: rest) timedOut =>
      if s.manager.taskStates.find? t = some newState then
        some { s with demander := goto (.check newState rest timedOut) }
      else if timedOut then
        some { s with stateMutex := none, demander := goto (.returned newState false) }
      else some { s with demander := goto (.block newState) }
  | .block newState =>
      some { s with
        stateMutex := none
        waiting := s.waiting ++ [d]
        demander := goto (.blocked newState) }
  | .returned _ _ => some { s with demander := goto .idle }
  | .idle => none
  | .blocked _ => none

/-- One step. -/
def step (s : WakeupSystem κ τ) : WakeupEvent κ τ → Option (WakeupSystem κ τ)
  | .demandStateTransition d newState =>
      match s.demander d with
      | .idle => some { s with demander := Function.update s.demander d (.setTarget newState) }
      | _ => none
  | .demand d => s.demandStep d
  | .timeout d =>
      match s.demander d with
      | .blocked newState =>
          some { s with
            waiting := s.waiting.erase d
            demander := Function.update s.demander d (.lock newState true) }
      | _ => none
  | .handleAcknowledgment msg =>
      match s.handler with
      | .idle =>
          match s.manager.acknowledged msg with
          | some (sender, acknowledgedState) =>
              some { s with
                manager := { s.manager with
                  taskStates := s.manager.taskStates.insert sender acknowledgedState }
                handler := .compare
                  ((s.manager.taskStates.insert sender acknowledgedState).entries.map Prod.fst) }
          | none => some s
      | _ => none
  | .compare =>
      match s.handler with
      | .compare [] => some { s with handler := .notify }
      | .compare (t :: rest) =>
          if s.manager.taskStates.find? t = some s.manager.targetState then
            some { s with handler := .compare rest }
          else some { s with handler := .idle }
      | _ => none
  | .notifyOne d =>
      match s.handler, s.demander d with
      | .notify, .blocked newState =>
          some { s with
            waiting := s.waiting.erase d
            demander := Function.update s.demander d (.lock newState false)
            handler := .idle }
      | _, _ => none
  | .notifyNobody =>
      match s.handler with
      | .notify => if s.waiting = [] then some { s with handler := .idle } else none
      | _ => none
  | .recordUnresponsive task =>
      if s.stateMutex.isNone then
        some { s with manager := s.manager.recordUnresponsive task }
      else none

/-! ### When a wakeup is heard -/

/-- All records have the state. -/
def Complete (s : WakeupSystem κ τ) (state : TaskState) : Prop :=
  s.manager.allTasksInState state = true

instance decidableComplete (s : WakeupSystem κ τ) (state : TaskState) :
    Decidable (s.Complete state) :=
  inferInstanceAs (Decidable (s.manager.allTasksInState state = true))

/-- Writing a record gives all records the state. -/
def Completes (s : WakeupSystem κ τ) (task : τ) (written state : TaskState) : Prop :=
  ¬ s.Complete state ∧ StateManager.allTasksInState
    { s.manager with taskStates := s.manager.taskStates.insert task written } state = true

/-- The manager's thread has not finished its loop with `target_state` as it is, or is at
`notify_one`. -/
def Comes (s : WakeupSystem κ τ) (state : TaskState) : Prop :=
  ((∃ rest, s.handler = .compare rest) ∧ s.manager.targetState = state) ∨ s.handler = .notify

/-- The step loses no wakeup: an acknowledgment that completes the state a blocked thread demanded
finds it in `target_state` and no other thread blocked, and until the `notify_one` no other thread sets
`target_state` to something else or blocks; a thread that blocks when the state it demanded has been
completed meanwhile is alone, with the `notify_one` still to come; and so is the blocked thread whose
demanded state the marking of a task completes. -/
def Heard (s : WakeupSystem κ τ) : WakeupEvent κ τ → Prop
  | .handleAcknowledgment msg => ∀ sender written, s.manager.acknowledged msg = some (sender, written) →
      ∀ d state, s.demander d = .blocked state → s.Completes sender written state →
        s.manager.targetState = state ∧ s.waiting = [d]
  | .recordUnresponsive task => ∀ d state, s.demander d = .blocked state →
      s.Completes task .error state → s.Comes state ∧ s.waiting = [d]
  | .demand c =>
      match s.demander c with
      | .setTarget newState => ∀ d state, s.demander d = .blocked state → s.Complete state →
          newState = state ∨ s.handler = .notify
      | .block newState => (s.Complete newState → s.Comes newState ∧ s.waiting = []) ∧
          ∀ d state, s.demander d = .blocked state → ¬ s.Complete state
      | _ => True
  | _ => True

/-! ### Everything a step can do -/

/-- The steps. -/
inductive Moves (s : WakeupSystem κ τ) : WakeupEvent κ τ → WakeupSystem κ τ → Prop
  | call {d : κ} {newState : TaskState} (h : s.demander d = .idle) :
      Moves s (.demandStateTransition d newState)
        { s with demander := Function.update s.demander d (.setTarget newState) }
  | setTarget {d : κ} {newState : TaskState} (h : s.demander d = .setTarget newState) :
      Moves s (.demand d) { s with
        manager := { s.manager with targetState := newState }
        demander := Function.update s.demander d (.transition newState) }
  | transition {d : κ} {newState : TaskState} (h : s.demander d = .transition newState) :
      Moves s (.demand d) { s with
        manager := { s.manager with currentState := newState }
        demander := Function.update s.demander d (.lock newState false) }
  | lock {d : κ} {newState : TaskState} {timedOut : Bool}
      (h : s.demander d = .lock newState timedOut) (hfree : s.stateMutex = none) :
      Moves s (.demand d) { s with
        stateMutex := some d
        demander := Function.update s.demander d (.check newState s.recorded timedOut) }
  | pass {d : κ} {newState : TaskState} {t : τ} {rest : List τ} {timedOut : Bool}
      (h : s.demander d = .check newState (t :: rest) timedOut) :
      Moves s (.demand d)
        { s with demander := Function.update s.demander d (.check newState rest timedOut) }
  | miss {d : κ} {newState : TaskState} {t : τ} {rest : List τ}
      (h : s.demander d = .check newState (t :: rest) false)
      (hrecord : s.manager.taskStates.find? t ≠ some newState) :
      Moves s (.demand d) { s with demander := Function.update s.demander d (.block newState) }
  | finish {d : κ} {newState : TaskState} {rest : List τ} {timedOut success : Bool}
      (h : s.demander d = .check newState rest timedOut) :
      Moves s (.demand d) { s with
        stateMutex := none
        demander := Function.update s.demander d (.returned newState success) }
  | block {d : κ} {newState : TaskState} (h : s.demander d = .block newState) :
      Moves s (.demand d) { s with
        stateMutex := none
        waiting := s.waiting ++ [d]
        demander := Function.update s.demander d (.blocked newState) }
  | leave {d : κ} {newState : TaskState} {success : Bool}
      (h : s.demander d = .returned newState success) :
      Moves s (.demand d) { s with demander := Function.update s.demander d .idle }
  | timeout {d : κ} {newState : TaskState} (h : s.demander d = .blocked newState) :
      Moves s (.timeout d) { s with
        waiting := s.waiting.erase d
        demander := Function.update s.demander d (.lock newState true) }
  | record {msg : Msg τ} {sender : τ} {written : TaskState} (h : s.handler = .idle)
      (hack : s.manager.acknowledged msg = some (sender, written)) :
      Moves s (.handleAcknowledgment msg) { s with
        manager := { s.manager with taskStates := s.manager.taskStates.insert sender written }
        handler := .compare ((s.manager.taskStates.insert sender written).entries.map Prod.fst) }
  | ignore {msg : Msg τ} (hack : s.manager.acknowledged msg = none) :
      Moves s (.handleAcknowledgment msg) s
  | compared (h : s.handler = .compare []) : Moves s .compare { s with handler := .notify }
  | equal {t : τ} {rest : List τ} (h : s.handler = .compare (t :: rest))
      (hrecord : s.manager.taskStates.find? t = some s.manager.targetState) :
      Moves s .compare { s with handler := .compare rest }
  | different {t : τ} {rest : List τ} (h : s.handler = .compare (t :: rest))
      (hrecord : s.manager.taskStates.find? t ≠ some s.manager.targetState) :
      Moves s .compare { s with handler := .idle }
  | notifyOne {d : κ} {newState : TaskState} (h : s.handler = .notify)
      (hd : s.demander d = .blocked newState) :
      Moves s (.notifyOne d) { s with
        waiting := s.waiting.erase d
        demander := Function.update s.demander d (.lock newState false)
        handler := .idle }
  | notifyNobody (h : s.handler = .notify) (hw : s.waiting = []) :
      Moves s .notifyNobody { s with handler := .idle }
  | recordUnresponsive {task : τ} (hfree : s.stateMutex = none) :
      Moves s (.recordUnresponsive task)
        { s with manager := { s.manager with
          taskStates := s.manager.taskStates.insert task .error } }

theorem demandStep_moves {s s' : WakeupSystem κ τ} {d : κ} (h : s.demandStep d = some s') :
    Moves s (.demand d) s' := by
  simp only [demandStep] at h
  cases hpc : s.demander d with
  | idle => simp only [hpc] at h; cases h
  | setTarget newState =>
      simp only [hpc] at h
      split_ifs at h
      obtain rfl := Option.some.inj h
      exact .setTarget hpc
  | transition newState =>
      simp only [hpc] at h
      obtain rfl := Option.some.inj h
      exact .transition hpc
  | lock newState timedOut =>
      simp only [hpc] at h
      split_ifs at h with hfree
      obtain rfl := Option.some.inj h
      exact .lock hpc (Option.isNone_iff_eq_none.mp hfree)
  | check newState rest timedOut =>
      cases rest with
      | nil =>
          simp only [hpc] at h
          obtain rfl := Option.some.inj h
          exact .finish hpc
      | cons t rest =>
          simp only [hpc] at h
          split_ifs at h with hrecord htimeout
          · obtain rfl := Option.some.inj h
            exact .pass hpc
          · obtain rfl := Option.some.inj h
            exact .finish hpc
          · obtain rfl := Option.some.inj h
            rw [Bool.not_eq_true] at htimeout
            exact .miss (htimeout ▸ hpc) hrecord
  | block newState =>
      simp only [hpc] at h
      obtain rfl := Option.some.inj h
      exact .block hpc
  | blocked newState => simp only [hpc] at h; cases h
  | returned newState success =>
      simp only [hpc] at h
      obtain rfl := Option.some.inj h
      exact .leave hpc

theorem step_moves {s s' : WakeupSystem κ τ} {e : WakeupEvent κ τ} (h : step s e = some s') :
    Moves s e s' := by
  cases e with
  | demandStateTransition d newState =>
      simp only [step] at h
      split at h
      · rename_i hpc
        obtain rfl := Option.some.inj h
        exact .call hpc
      · cases h
  | demand d => exact demandStep_moves h
  | timeout d =>
      simp only [step] at h
      split at h
      · rename_i newState hpc
        obtain rfl := Option.some.inj h
        exact .timeout hpc
      · cases h
  | handleAcknowledgment msg =>
      simp only [step] at h
      split at h
      · rename_i hidle
        split at h
        · rename_i sender written hack
          obtain rfl := Option.some.inj h
          exact .record hidle hack
        · rename_i hack
          obtain rfl := Option.some.inj h
          exact .ignore hack
      · cases h
  | compare =>
      simp only [step] at h
      split at h
      · rename_i hpc
        obtain rfl := Option.some.inj h
        exact .compared hpc
      · rename_i t rest hpc
        split_ifs at h with hrecord
        · obtain rfl := Option.some.inj h
          exact .equal hpc hrecord
        · obtain rfl := Option.some.inj h
          exact .different hpc hrecord
      · cases h
  | notifyOne d =>
      simp only [step] at h
      split at h
      · rename_i newState hpc hd
        obtain rfl := Option.some.inj h
        exact .notifyOne hpc hd
      · cases h
  | notifyNobody =>
      simp only [step] at h
      split at h
      · rename_i hpc
        split_ifs at h with hw
        obtain rfl := Option.some.inj h
        exact .notifyNobody hpc hw
      · cases h
  | recordUnresponsive task =>
      simp only [step] at h
      split_ifs at h with hfree
      obtain rfl := Option.some.inj h
      exact .recordUnresponsive (Option.isNone_iff_eq_none.mp hfree)

/-! ### What the threads and the manager keep -/

/-- The wait set holds the blocked threads, and the loop reads registered tasks. -/
structure Tracked (s : WakeupSystem κ τ) : Prop where
  waiting_iff : ∀ d, d ∈ s.waiting ↔ ∃ state, s.demander d = .blocked state
  nodup : s.waiting.Nodup
  reads : ∀ rest, s.handler = .compare rest → ∀ t ∈ rest, (s.manager.taskStates.find? t).isSome

variable {s s' : WakeupSystem κ τ}

omit [DecidableEq κ] in
theorem Tracked.mem_waiting (h : Tracked s) {d : κ} {state : TaskState}
    (hd : s.demander d = .blocked state) : d ∈ s.waiting := (h.waiting_iff d).mpr ⟨state, hd⟩

omit [DecidableEq κ] in
theorem Complete.find? {state : TaskState} (h : s.Complete state) {t : τ}
    (ht : (s.manager.taskStates.find? t).isSome) : s.manager.taskStates.find? t = some state := by
  apply StateManager.allTasksInState_iff.mp h
  exact OrdMap.mem_keys_iff.mpr ht

theorem blocked_move_iff {d c : κ} {pc : DemandPc τ} {state : TaskState}
    (hold : ∀ state, s.demander d ≠ .blocked state) (hnew : ∀ state, pc ≠ .blocked state) :
    Function.update s.demander d pc c = .blocked state ↔ s.demander c = .blocked state := by
  by_cases hcd : c = d
  · rw [hcd, Function.update_self]
    exact iff_of_false (hnew state) (hold state)
  · rw [Function.update_of_ne hcd]

/-- A thread that is woken is the only one that is no longer blocked. -/
theorem blocked_wake_iff {d c : κ} {newState state : TaskState} {timedOut : Bool} :
    Function.update s.demander d (.lock newState timedOut) c = .blocked state ↔
      c ≠ d ∧ s.demander c = .blocked state := by
  by_cases hcd : c = d
  · subst hcd
    rw [Function.update_self]
    exact ⟨nofun, fun h => absurd rfl h.1⟩
  · rw [Function.update_of_ne hcd]
    exact (and_iff_right hcd).symm

theorem Tracked.move (h : Tracked s) {d : κ} {pc : DemandPc τ} {manager : StateManager τ}
    {mutex : Option κ} (hold : ∀ state, s.demander d ≠ .blocked state)
    (hnew : ∀ state, pc ≠ .blocked state) (htasks : manager.taskStates = s.manager.taskStates) :
    Tracked { s with
      manager := manager
      stateMutex := mutex
      demander := Function.update s.demander d pc } := by
  refine ⟨?_, h.nodup, ?_⟩
  · intro c
    simp only [blocked_move_iff hold hnew]
    exact h.waiting_iff c
  · intro rest hrest t ht
    show (manager.taskStates.find? t).isSome
    rw [htasks]
    exact h.reads rest hrest t ht

theorem Tracked.wake (h : Tracked s) {d : κ} {newState : TaskState} {timedOut : Bool}
    {handler : HandlerPc τ} (hhandler : ∀ rest, handler = .compare rest → s.handler = .compare rest) :
    Tracked { s with
      waiting := s.waiting.erase d
      demander := Function.update s.demander d (.lock newState timedOut)
      handler := handler } := by
  refine ⟨?_, h.nodup.erase d, fun rest hrest => h.reads rest (hhandler rest hrest)⟩
  intro c
  simp only [blocked_wake_iff, exists_and_left]
  rw [h.nodup.mem_erase_iff, h.waiting_iff c]

theorem Tracked.block (h : Tracked s) {d : κ} {newState : TaskState} {mutex : Option κ}
    (hd : s.demander d = .block newState) :
    Tracked { s with
      stateMutex := mutex
      waiting := s.waiting ++ [d]
      demander := Function.update s.demander d (.blocked newState) } := by
  have hnot : d ∉ s.waiting := by
    intro hmem
    obtain ⟨state, hstate⟩ := (h.waiting_iff d).mp hmem
    rw [hd] at hstate
    cases hstate
  refine ⟨?_, ?_, h.reads⟩
  · intro c
    rw [List.mem_append, List.mem_singleton, h.waiting_iff c]
    by_cases hcd : c = d
    · subst hcd
      exact iff_of_true (.inr rfl) ⟨newState, Function.update_self ..⟩
    · simp only [hcd, or_false, Function.update_of_ne hcd]
  · rw [List.nodup_append]
    refine ⟨h.nodup, List.nodup_cons.mpr ⟨List.not_mem_nil, List.nodup_nil⟩, ?_⟩
    intro a ha b hb
    rw [List.mem_singleton.mp hb]
    exact fun he => hnot (he ▸ ha)

omit [DecidableEq κ] in
theorem Tracked.write (h : Tracked s) {task : τ} {written : TaskState} {handler : HandlerPc τ}
    (hreads : ∀ rest, handler = .compare rest →
      rest = (s.manager.taskStates.insert task written).entries.map Prod.fst ∨
        s.handler = .compare rest) :
    Tracked { s with
      manager := { s.manager with taskStates := s.manager.taskStates.insert task written }
      handler := handler } := by
  refine ⟨h.waiting_iff, h.nodup, ?_⟩
  intro rest hrest t ht
  show ((s.manager.taskStates.insert task written).find? t).isSome
  rcases hreads rest hrest with rfl | hold
  · exact OrdMap.mem_keys_iff.mp ht
  · rw [OrdMap.find?_insert]
    split_ifs
    · rfl
    · exact h.reads rest hold t ht

theorem moves_tracked (h : Tracked s) {e : WakeupEvent κ τ} (hm : Moves s e s') : Tracked s' := by
  cases hm with
  | call hpc => exact h.move (by simp [hpc]) (by simp) rfl
  | setTarget hpc => exact h.move (by simp [hpc]) (by simp) rfl
  | transition hpc => exact h.move (by simp [hpc]) (by simp) rfl
  | lock hpc _ => exact h.move (by simp [hpc]) (by simp) rfl
  | pass hpc => exact h.move (by simp [hpc]) (by simp) rfl
  | miss hpc _ => exact h.move (by simp [hpc]) (by simp) rfl
  | finish hpc => exact h.move (by simp [hpc]) (by simp) rfl
  | block hpc => exact h.block hpc
  | leave hpc => exact h.move (by simp [hpc]) (by simp) rfl
  | timeout _ => exact h.wake (fun _ hrest => hrest)
  | record _ _ => exact h.write (fun _ hrest => .inl (HandlerPc.compare.inj hrest).symm)
  | ignore _ => exact h
  | compared _ => exact ⟨h.waiting_iff, h.nodup, nofun⟩
  | @equal t rest hpc _ =>
      refine ⟨h.waiting_iff, h.nodup, ?_⟩
      intro rest' hrest u hu
      cases hrest
      exact h.reads _ hpc u (List.mem_cons_of_mem t hu)
  | different _ _ => exact ⟨h.waiting_iff, h.nodup, nofun⟩
  | notifyOne _ _ => exact h.wake nofun
  | notifyNobody _ _ => exact ⟨h.waiting_iff, h.nodup, nofun⟩
  | recordUnresponsive _ => exact h.write (fun _ hrest => .inr hrest)

/-! ### No wakeup is lost -/

/-- A blocked thread whose demanded state all records have is alone and about to be woken. -/
def Attended (s : WakeupSystem κ τ) : Prop :=
  ∀ d state, s.demander d = .blocked state → s.Complete state → s.Comes state ∧ s.waiting = [d]

/-- A thread that was not blocked goes on and does not block, and the records stay: all depends on
`target_state`, unless the manager's thread has read it for the last time. -/
theorem attended_move_iff (hatt : Attended s) {d : κ} {pc : DemandPc τ} {manager : StateManager τ}
    {mutex : Option κ} (hold : ∀ state, s.demander d ≠ .blocked state)
    (hnew : ∀ state, pc ≠ .blocked state) (htasks : manager.taskStates = s.manager.taskStates) :
    Attended { s with
      manager := manager
      stateMutex := mutex
      demander := Function.update s.demander d pc } ↔
      ∀ c state, s.demander c = .blocked state → s.Complete state →
        manager.targetState = state ∨ s.handler = .notify := by
  have hcomplete : ∀ state, manager.allTasksInState state = true ↔ s.Complete state := by
    intro state
    rw [Complete, StateManager.allTasksInState, StateManager.allTasksInState, htasks]
  constructor
  · intro hatt' c state hc hall
    obtain ⟨⟨-, htarget⟩ | hnotify, -⟩ :=
      hatt' c state ((blocked_move_iff hold hnew).mpr hc) ((hcomplete state).mpr hall)
    · exact .inl htarget
    · exact .inr hnotify
  · intro htarget c state hc hall
    have hc' := (blocked_move_iff hold hnew).mp hc
    have hall' := (hcomplete state).mp hall
    obtain ⟨⟨hloop, -⟩ | hnotify, hw⟩ := hatt c state hc' hall'
    · exact ⟨(htarget c state hc' hall').imp_left (fun h => ⟨hloop, h⟩), hw⟩
    · exact ⟨.inr hnotify, hw⟩

theorem Attended.move (hatt : Attended s) {d : κ} {pc : DemandPc τ} {manager : StateManager τ}
    {mutex : Option κ} (hold : ∀ state, s.demander d ≠ .blocked state)
    (hnew : ∀ state, pc ≠ .blocked state) (htasks : manager.taskStates = s.manager.taskStates)
    (htarget : manager.targetState = s.manager.targetState) :
    Attended { s with
      manager := manager
      stateMutex := mutex
      demander := Function.update s.demander d pc } := by
  refine (attended_move_iff hatt hold hnew htasks).mpr ?_
  intro c state hc hall
  obtain ⟨⟨-, h⟩ | hnotify, -⟩ := hatt c state hc hall
  · exact .inl (htarget.trans h)
  · exact .inr hnotify

theorem Attended.wake (hatt : Attended s) (h : Tracked s) {d : κ} {newState : TaskState}
    {timedOut : Bool} {handler : HandlerPc τ} (hd : s.demander d = .blocked newState) :
    Attended { s with
      waiting := s.waiting.erase d
      demander := Function.update s.demander d (.lock newState timedOut)
      handler := handler } := by
  intro c state hc hall
  obtain ⟨hcd, hc'⟩ := blocked_wake_iff.mp hc
  obtain ⟨-, hw⟩ := hatt c state hc' hall
  have hmem := h.mem_waiting hd
  rw [hw, List.mem_singleton] at hmem
  exact absurd hmem.symm hcd

/-- A thread that blocks joins the wait set: afterwards it is alone there, or nobody may be about to
be woken. -/
theorem attended_block_iff (h : Tracked s) {d : κ} {newState : TaskState} {mutex : Option κ}
    (hd : s.demander d = .block newState) :
    Attended { s with
      stateMutex := mutex
      waiting := s.waiting ++ [d]
      demander := Function.update s.demander d (.blocked newState) } ↔
      (s.Complete newState → s.Comes newState ∧ s.waiting = []) ∧
        ∀ c state, s.demander c = .blocked state → ¬ s.Complete state := by
  have halone : ∀ {c : κ}, s.waiting ++ [d] = [c] → s.waiting = [] := by
    intro c hw
    exact List.eq_nil_of_length_eq_zero (by simpa using congrArg List.length hw)
  constructor
  · intro hatt'
    refine ⟨?_, ?_⟩
    · intro hall
      obtain ⟨hcomes, hw⟩ := hatt' d newState (Function.update_self ..) hall
      exact ⟨hcomes, halone hw⟩
    · intro c state hc hall
      have hcd : c ≠ d := by
        rintro rfl
        rw [hd] at hc
        cases hc
      obtain ⟨-, hw⟩ := hatt' c state ((Function.update_of_ne hcd ..).trans hc) hall
      have hmem := h.mem_waiting hc
      rw [halone hw] at hmem
      cases hmem
  · rintro ⟨hself, hothers⟩ c state hc hall
    have hc' : Function.update s.demander d (.blocked newState) c = .blocked state := hc
    by_cases hcd : c = d
    · subst hcd
      rw [Function.update_self] at hc'
      cases hc'
      obtain ⟨hcomes, hw⟩ := hself hall
      refine ⟨hcomes, ?_⟩
      show s.waiting ++ [c] = [c]
      rw [hw, List.nil_append]
    · rw [Function.update_of_ne hcd] at hc'
      exact absurd hall (hothers c state hc')

omit [DecidableEq κ] in
/-- A record is written, and all depends on the threads whose demanded state it completes.  The
manager's thread stays where it is or, if it was idle, enters its loop. -/
theorem attended_write_iff (hatt : Attended s) {task : τ} {written : TaskState}
    {handler : HandlerPc τ} (hhandler : s.handler = handler ∨ s.handler = .idle) :
    Attended { s with
      manager := { s.manager with taskStates := s.manager.taskStates.insert task written }
      handler := handler } ↔
      ∀ d state, s.demander d = .blocked state → s.Completes task written state →
        (((∃ rest, handler = .compare rest) ∧ s.manager.targetState = state) ∨ handler = .notify) ∧
          s.waiting = [d] := by
  constructor
  · intro hatt' d state hd hcompletes
    exact hatt' d state hd hcompletes.2
  · intro hcompletes d state hd hall
    by_cases hbefore : s.Complete state
    · obtain ⟨hcomes, hw⟩ := hatt d state hd hbefore
      rcases hhandler with rfl | hidle
      · exact ⟨hcomes, hw⟩
      · rcases hcomes with ⟨⟨rest, hrest⟩, -⟩ | hnotify
        · rw [hidle] at hrest
          cases hrest
        · rw [hidle] at hnotify
          cases hnotify
    · exact hcompletes d state hd ⟨hbefore, hall⟩

theorem moves_attended_iff (h : Tracked s) (hatt : Attended s) {e : WakeupEvent κ τ}
    (hm : Moves s e s') : Attended s' ↔ Heard s e := by
  cases hm with
  | call hpc => exact iff_of_true (hatt.move (by simp [hpc]) (by simp) rfl rfl) trivial
  | setTarget hpc =>
      simp only [Heard, hpc]
      exact attended_move_iff hatt (by simp [hpc]) (by simp) rfl
  | transition hpc =>
      exact iff_of_true (hatt.move (by simp [hpc]) (by simp) rfl rfl) (by simp [Heard, hpc])
  | lock hpc _ =>
      exact iff_of_true (hatt.move (by simp [hpc]) (by simp) rfl rfl) (by simp [Heard, hpc])
  | pass hpc =>
      exact iff_of_true (hatt.move (by simp [hpc]) (by simp) rfl rfl) (by simp [Heard, hpc])
  | miss hpc _ =>
      exact iff_of_true (hatt.move (by simp [hpc]) (by simp) rfl rfl) (by simp [Heard, hpc])
  | finish hpc =>
      exact iff_of_true (hatt.move (by simp [hpc]) (by simp) rfl rfl) (by simp [Heard, hpc])
  | block hpc =>
      simp only [Heard, hpc]
      exact attended_block_iff h hpc
  | leave hpc =>
      exact iff_of_true (hatt.move (by simp [hpc]) (by simp) rfl rfl) (by simp [Heard, hpc])
  | timeout hd => exact iff_of_true (hatt.wake h hd) trivial
  | @record msg sender written hidle hack =>
      refine (attended_write_iff hatt (.inr hidle)).trans ⟨?_, ?_⟩
      · intro hcompletes sender' written' hack' d state hd hall
        obtain ⟨rfl, rfl⟩ := Prod.mk.inj (Option.some.inj (hack.symm.trans hack'))
        obtain ⟨⟨-, htarget⟩ | hnotify, hw⟩ := hcompletes d state hd hall
        · exact ⟨htarget, hw⟩
        · cases hnotify
      · intro hheard d state hd hall
        obtain ⟨htarget, hw⟩ := hheard sender written hack d state hd hall
        exact ⟨.inl ⟨⟨_, rfl⟩, htarget⟩, hw⟩
  | ignore hack =>
      refine iff_of_true hatt ?_
      intro sender written hack'
      rw [hack] at hack'
      cases hack'
  | compared _ =>
      refine iff_of_true ?_ trivial
      intro d state hd hall
      exact ⟨.inr rfl, (hatt d state hd hall).2⟩
  | @equal t rest hpc _ =>
      refine iff_of_true ?_ trivial
      intro d state hd hall
      obtain ⟨⟨-, htarget⟩ | hnotify, hw⟩ := hatt d state hd hall
      · exact ⟨.inl ⟨⟨rest, rfl⟩, htarget⟩, hw⟩
      · rw [hpc] at hnotify
        cases hnotify
  | @different t rest hpc hrecord =>
      refine iff_of_true ?_ trivial
      intro d state hd hall
      obtain ⟨⟨-, htarget⟩ | hnotify, -⟩ := hatt d state hd hall
      · have hfind := Complete.find? hall (h.reads _ hpc t List.mem_cons_self)
        rw [← htarget] at hfind
        exact absurd hfind hrecord
      · rw [hpc] at hnotify
        cases hnotify
  | notifyOne _ hd => exact iff_of_true (hatt.wake h hd) trivial
  | notifyNobody _ hw =>
      refine iff_of_true ?_ trivial
      intro d state hd _
      have hmem := h.mem_waiting hd
      rw [hw] at hmem
      cases hmem
  | recordUnresponsive _ => exact attended_write_iff hatt (.inl rfl)

/-! ### The wakeup comes -/

theorem notify_wakes {d : κ} {state : TaskState} (hpc : s.handler = .notify)
    (hd : s.demander d = .blocked state) :
    ∃ s', step s (.notifyOne d) = some s' ∧ s'.demander d = .lock state false := by
  refine ⟨{ s with
    waiting := s.waiting.erase d
    demander := Function.update s.demander d (.lock state false)
    handler := .idle }, ?_, Function.update_self ..⟩
  simp only [step, hpc, hd]

/-- The manager's thread, left to itself, wakes the blocked thread. -/
theorem compare_wakes {d : κ} {state : TaskState} : ∀ (rest : List τ) (s : WakeupSystem κ τ),
    s.handler = .compare rest → (∀ t ∈ rest, (s.manager.taskStates.find? t).isSome) →
    s.Complete state → s.manager.targetState = state → s.demander d = .blocked state →
    ∃ n s', run step s (List.replicate n .compare ++ [.notifyOne d]) = some s' ∧
      s'.demander d = .lock state false
  | [], s, hpc, _, _, _, hd => by
      have hstep : step s .compare = some { s with handler := .notify } := by
        simp only [step, hpc]
      obtain ⟨s', hs', hlock⟩ := notify_wakes (s := { s with handler := .notify }) rfl hd
      exact ⟨1, s', run_cons_eq_some.mpr ⟨_, hstep, run_cons_eq_some.mpr ⟨s', hs', rfl⟩⟩, hlock⟩
  | t :: rest, s, hpc, hreads, hall, htarget, hd => by
      have hfind := Complete.find? hall (hreads t List.mem_cons_self)
      have hstep : step s .compare = some { s with handler := .compare rest } := by
        simp only [step, hpc, htarget, hfind, if_true]
      obtain ⟨n, s', hrun, hs'⟩ := compare_wakes rest { s with handler := .compare rest } rfl
        (fun u hu => hreads u (List.mem_cons_of_mem t hu)) hall htarget hd
      exact ⟨n + 1, s', run_cons_eq_some.mpr ⟨_, hstep, hrun⟩, hs'⟩

/-- The blocked thread is the only one, the manager's thread is past the write that completed its
state and before the `notify_one`, and its next steps wake the thread. -/
structure OnItsWay (s : WakeupSystem κ τ) (d : κ) (state : TaskState) : Prop where
  alone : s.waiting = [d]
  comes : s.Comes state
  wakes : ∃ n s', run step s (List.replicate n .compare ++ [.notifyOne d]) = some s' ∧
    s'.demander d = .lock state false

/-- Every blocked thread whose demanded state all records have is about to be woken. -/
def Woken (s : WakeupSystem κ τ) : Prop :=
  ∀ d state, s.demander d = .blocked state → s.manager.allTasksInState state = true →
    OnItsWay s d state

theorem Tracked.woken_iff (h : Tracked s) : Woken s ↔ Attended s := by
  constructor
  · intro hwoken d state hd hall
    exact ⟨(hwoken d state hd hall).comes, (hwoken d state hd hall).alone⟩
  · intro hatt d state hd hall
    obtain ⟨hcomes, hw⟩ := hatt d state hd hall
    refine ⟨hw, hcomes, ?_⟩
    rcases hcomes with ⟨⟨rest, hpc⟩, htarget⟩ | hpc
    · exact compare_wakes rest s hpc (h.reads rest hpc) hall htarget hd
    · obtain ⟨s', hs', hlock⟩ := notify_wakes hpc hd
      exact ⟨0, s', run_cons_eq_some.mpr ⟨s', hs', rfl⟩, hlock⟩

omit [DecidableEq κ] in
theorem init_tracked (manager : StateManager τ) : Tracked (init manager : WakeupSystem κ τ) := by
  refine ⟨?_, List.nodup_nil, nofun⟩
  intro d
  exact iff_of_false List.not_mem_nil (fun ⟨_, h⟩ => nomatch h)

/-- **No lost wakeup.**  In every interleaving of any number of demands with the acknowledgments and
with the marking of tasks: no thread is at any time blocked when all records have the state it
demanded, unless the manager's thread is on its way to wake it, if and only if every step is heard. -/
theorem no_lost_wakeup_iff (manager : StateManager τ) (es : List (WakeupEvent κ τ))
    (s : WakeupSystem κ τ) (hrun : run step (init manager) es = some s) :
    Throughout step Woken (init manager) es ↔ Along step Heard (init manager) es := by
  have htracked : Throughout step Tracked (init manager : WakeupSystem κ τ) es :=
    throughout_of_invariant (fun _ _ _ h he => moves_tracked h (step_moves he)) es
      (init_tracked manager)
  refine throughout_iff_along ?_ hrun htracked (fun d state hd => nomatch hd)
  intro s₁ e s₂ h₁ h₂ hwoken he
  exact h₂.woken_iff.trans (moves_attended_iff h₁ (h₁.woken_iff.mp hwoken) (step_moves he))

/-- One task is registered with the manager. -/
def oneTask : StateManager ℕ :=
  (StateManager.create 0 .notStarted .notStarted).registerAll [1]

/-- The demanding thread up to the evaluation of its predicate. -/
def demandIdle : List (WakeupEvent Unit ℕ) :=
  [.demandStateTransition () .idle, .demand (), .demand (), .demand (), .demand ()]

/-- The task acknowledges between the evaluation of the predicate and the block, and the thread blocks
while the manager still compares the records. -/
theorem no_lost_wakeup_while_comparing : ∃ s : WakeupSystem Unit ℕ,
    run step (init oneTask) (demandIdle ++
      [.handleAcknowledgment ⟨some 1, .stateAckMsg ⟨TaskState.idle.toByte⟩⟩, .demand ()]) = some s ∧
    s.demander () = .blocked .idle ∧ s.manager.allTasksInState .idle = true ∧
    OnItsWay s () .idle := by
  obtain ⟨s, hrun, hd, hall⟩ : ∃ s : WakeupSystem Unit ℕ,
      run step (init oneTask) (demandIdle ++
        [.handleAcknowledgment ⟨some 1, .stateAckMsg ⟨TaskState.idle.toByte⟩⟩, .demand ()]) = some s ∧
      s.demander () = .blocked .idle ∧ s.manager.allTasksInState .idle = true :=
    ⟨_, rfl, rfl, by decide +kernel⟩
  refine ⟨s, hrun, hd, hall,
    ((no_lost_wakeup_iff oneTask _ s hrun).mpr ?_).last hrun () .idle hd hall⟩
  refine along_cons rfl trivial (along_cons rfl ?_ (along_cons rfl trivial (along_cons rfl trivial
    (along_cons rfl trivial (along_cons rfl ?_ (along_cons rfl ?_ trivial))))))
  · rintro ⟨⟩ state hstate
    cases hstate
  · rintro sender written hack ⟨⟩ state hstate
    cases hstate
  · refine ⟨fun _ => ⟨.inl ⟨⟨_, rfl⟩, rfl⟩, rfl⟩, ?_⟩
    rintro ⟨⟩ state hstate
    cases hstate

/-- The task acknowledges between the evaluation of the predicate and the block; the manager notifies
nobody, and the thread blocks although all records have the state it demanded. -/
theorem notified_before_blocked : ∃ s : WakeupSystem Unit ℕ,
    run step (init oneTask) (demandIdle ++
      [.handleAcknowledgment ⟨some 1, .stateAckMsg ⟨TaskState.idle.toByte⟩⟩, .compare, .compare,
        .notifyNobody, .demand ()]) = some s ∧
    s.demander () = .blocked .idle ∧ s.manager.allTasksInState .idle = true ∧
    s.handler = .idle ∧ ¬ OnItsWay s () .idle := by
  refine ⟨_, rfl, rfl, by decide +kernel, rfl, ?_⟩
  rintro ⟨-, ⟨⟨rest, hrest⟩, -⟩ | hnotify, -⟩
  · cases hrest
  · cases hnotify

end WakeupSystem

end Protocore
