import Protocore.Shutdown

/-! # State bytes off the wire

`StateMsg` and `StateAckMsg` carry a state as one byte, and nothing between the byte and the field
looks at its value: `process_message` of a task and of the monitor cast it and call
`transition_to_state`, which assigns; `handle_acknowledgment` casts it and writes the record.  The
messages come from anywhere (`PayloadEvent.arrive`), next to those that the threads of
`ShutdownSystem` send themselves.

* `write`: the write of a payload byte that an event makes, the only one that can put a value into a
  state that is no enumerator (`step_wrote`).
* `named_along_iff`: the states entered and recorded in a run are enumerators, and a byte that names
  none leaves them alone, exactly when all bytes that are written name one. -/

namespace Protocore

variable {τ : Type} [LinearOrder τ]

namespace TaskState

/-- The value is one of the five enumerators. -/
def Named : TaskState → Prop
  | unnamed _ _ => False
  | _ => True

theorem named_notStarted : TaskState.notStarted.Named := trivial

theorem named_error : TaskState.error.Named := trivial

theorem ofByte_named_iff {b : UInt8} : (ofByte b).Named ↔ b ≤ 4 := by
  unfold ofByte
  constructor
  · intro h
    by_contra hb
    rw [dif_pos (UInt8.not_le.mp hb)] at h
    exact h
  · intro hb
    rw [dif_neg (UInt8.not_lt.mpr hb)]
    split_ifs <;> trivial

end TaskState

/-- A step of the system, a message that reaches the queue of `x` from anywhere else, or
`register_task` with both mutexes free. -/
inductive PayloadEvent (τ : Type) where
  | system (e : ShutdownEvent τ)
  | arrive (x : τ) (msg : Msg τ)
  | registerTask (task : τ) (now : ℤ)

/-- Where a payload byte goes: into `current_state` of a task, or into the record of one. -/
inductive PayloadWrite (τ : Type) where
  | assign (x : τ) (state : UInt8)
  | record (task : τ) (state : UInt8)

/-- The byte that is written. -/
def PayloadWrite.byte : PayloadWrite τ → UInt8
  | .assign _ state => state
  | .record _ state => state

/-- The state byte of a message, if it has one. -/
def Msg.stateByte? (msg : Msg τ) : Option UInt8 :=
  match msg.msgData with
  | .stateMsg m => some m.state
  | .stateAckMsg ack => some ack.state
  | _ => none

namespace PayloadSystem

section defs

variable (subs : MsgType → List τ)

/-- One step. -/
def step (s : ShutdownSystem τ) : PayloadEvent τ → Option (ShutdownSystem τ)
  | .system e => s.step subs e
  | .arrive x msg => some (s.deliverMessage x msg)
  | .registerTask task now =>
      if s.caller.ownsState || s.periodic.ownsTasks then none
      else
        some { s with
          manager := s.manager.registerTask task
          monitor := s.monitor.notifyTaskRegistered task now }

/-- The message that an event hands to `process_message`, with the task that takes it. -/
def handled (s : ShutdownSystem τ) : PayloadEvent τ → Option (τ × Msg τ)
  | .system (.queueThread x _) =>
      match s.loop x with
      | .handling msg => some (x, msg)
      | _ => none
  | _ => none

/-- The write of a payload byte that `process_message` of `x` makes.  The manager takes
acknowledgments of the tasks it has a record of, the monitor and the tasks take commands. -/
def writeOf (s : ShutdownSystem τ) (x : τ) (msg : Msg τ) : Option (PayloadWrite τ) :=
  if x = s.manager.self then
    match s.manager.acknowledged msg, msg.msgData with
    | some (sender, _), .stateAckMsg ack => some (.record sender ack.state)
    | _, _ => none
  else
    match msg.msgData with
    | .stateMsg m => some (.assign x m.state)
    | _ => none

/-- The write of a payload byte that an event makes. -/
def write (s : ShutdownSystem τ) (e : PayloadEvent τ) : Option (PayloadWrite τ) :=
  (handled s e).bind (fun p => writeOf s p.1 p.2)

end defs

/-- No `current_state` and no record is written. -/
structure Kept (s s' : ShutdownSystem τ) : Prop where
  current : s'.currentState = s.currentState
  records : s'.manager.taskStates = s.manager.taskStates

/-- What the write does, and nothing else. -/
def Performs (s s' : ShutdownSystem τ) : Option (PayloadWrite τ) → Prop
  | none => Kept s s'
  | some (.assign x b) =>
      s'.currentState = Function.update s.currentState x (.ofByte b) ∧
        s'.manager.taskStates = s.manager.taskStates
  | some (.record t b) =>
      s'.currentState = s.currentState ∧
        s'.manager.taskStates = s.manager.taskStates.insert t (.ofByte b)

/-- All that is written, to whatever task, is one of the five states. -/
structure WritesNamed (s s' : ShutdownSystem τ) : Prop where
  current : ∀ x, s'.currentState x = s.currentState x ∨ (s'.currentState x).Named
  recorded : ∀ t state, s'.manager.taskStates.find? t = some state →
    s.manager.taskStates.find? t = some state ∨ state.Named

/-- All tasks are in, and recorded in, one of the five states. -/
structure Named (s : ShutdownSystem τ) : Prop where
  current : ∀ x, (s.currentState x).Named
  recorded : ∀ t state, s.manager.taskStates.find? t = some state → state.Named

/-- A message that is handled with a state byte that names no state leaves `current_state` of all
tasks and the records as they are. -/
def Unmoved (subs : MsgType → List τ) (s : ShutdownSystem τ) (e : PayloadEvent τ) : Prop :=
  ∀ x msg b, handled s e = some (x, msg) → msg.stateByte? = some b → 4 < b →
    ∀ s', step subs s e = some s' →
      s'.currentState = s.currentState ∧ s'.manager.taskStates = s.manager.taskStates

/-- A byte that the event writes names a state. -/
def InRange (s : ShutdownSystem τ) (e : PayloadEvent τ) : Prop :=
  ∀ w ∈ write s e, w.byte ≤ 4

instance decidableInRange (s : ShutdownSystem τ) (e : PayloadEvent τ) : Decidable (InRange s e) :=
  inferInstanceAs (Decidable (∀ w ∈ write s e, w.byte ≤ 4))

variable {subs : MsgType → List τ} {s s' : ShutdownSystem τ}

/-! ### What each step writes -/

theorem Kept.writesNamed (h : Kept s s') : WritesNamed s s' where
  current x := .inl (congrFun h.current x)
  recorded t state ht := by
    rw [h.records] at ht
    exact .inl ht

/-- `stop` and `mark_task_as_unresponsive` write the states the source names. -/
theorem WritesNamed.update {x : τ} {state : TaskState}
    (hcurrent : s'.currentState = Function.update s.currentState x state)
    (hnamed : state.Named) (hrecords : s'.manager.taskStates = s.manager.taskStates) :
    WritesNamed s s' where
  current y := by
    rw [hcurrent]
    by_cases hy : y = x
    · rw [hy, Function.update_self]
      exact .inr hnamed
    · exact .inl (Function.update_of_ne hy ..)
  recorded t state ht := .inl (by rwa [hrecords] at ht)

theorem WritesNamed.insert {t : τ} {state : TaskState} (hnamed : state.Named)
    (hcurrent : s'.currentState = s.currentState)
    (hrecords : s'.manager.taskStates = s.manager.taskStates.insert t state) :
    WritesNamed s s' where
  current y := .inl (congrFun hcurrent y)
  recorded u st hu := by
    rw [hrecords, OrdMap.find?_insert] at hu
    split_ifs at hu
    · rw [← Option.some.inj hu]
      exact .inr hnamed
    · exact .inl hu

theorem handled_of_handling {x : τ} {now : ℤ} {msg : Msg τ} (hpc : s.loop x = .handling msg) :
    handled s (.system (.queueThread x now)) = some (x, msg) := by
  simp only [handled, hpc]

theorem write_of_handling {x : τ} {now : ℤ} {msg : Msg τ} (hpc : s.loop x = .handling msg) :
    write s (.system (.queueThread x now)) = writeOf s x msg := by
  unfold write
  rw [handled_of_handling hpc]
  rfl

theorem processMessage_performs {x : τ} {msg : Msg τ} (hx : x = s.manager.self)
    (hcurrent : s'.currentState = s.currentState)
    (hmanager : s'.manager = (s.manager.processMessage msg).1) : Performs s s' (writeOf s x msg) := by
  unfold writeOf
  rw [if_pos hx]
  cases hack : s.manager.acknowledged msg with
  | none =>
      rw [StateManager.processMessage_of_not_acknowledged hack] at hmanager
      exact ⟨hcurrent, by rw [hmanager]⟩
  | some p =>
      obtain ⟨sender, state⟩ := p
      obtain ⟨-, -, ack, hdata, rfl⟩ := StateManager.acknowledged_eq_some_iff.mp hack
      rw [StateManager.processMessage_of_acknowledged hack] at hmanager
      simp only [hdata]
      exact ⟨hcurrent, by rw [hmanager]⟩

/-- A task and the monitor write nothing but the byte of a command. -/
theorem writeOf_eq_none {x : τ} {msg : Msg τ} (hx : x ≠ s.manager.self)
    (hdata : ∀ m, msg.msgData ≠ .stateMsg m) : writeOf s x msg = none := by
  unfold writeOf
  rw [if_neg hx]
  split
  · rename_i m hm
    exact absurd hm (hdata m)
  · rfl

/-- Either the step hands a message to `process_message`, and what is written is the byte, or all that
is written is one of the five states. -/
theorem moves_wrote {e : ShutdownEvent τ} (hm : ShutdownSystem.Moves subs s e s') :
    Performs s s' (write s (.system e)) ∨ (handled s (.system e) = none ∧ WritesNamed s s') := by
  cases hm with
  | assign hpc hx => exact .inr ⟨rfl, WritesNamed.update rfl trivial rfl⟩
  | mark hpc hfree => exact .inr ⟨rfl, WritesNamed.insert TaskState.named_error rfl rfl⟩
  | record hpc hx =>
      rw [write_of_handling hpc]
      exact .inl (processMessage_performs hx rfl rfl)
  | take hpc hx hdata =>
      rw [write_of_handling hpc]
      simp only [writeOf, if_neg hx, hdata]
      exact .inl ⟨rfl, rfl⟩
  | heartbeat hpc hx hdata =>
      rw [write_of_handling hpc, writeOf_eq_none hx (by rw [hdata]; nofun)]
      exact .inl ⟨rfl, rfl⟩
  | acknowledged hpc hx hmonitor hfree hdata =>
      rw [write_of_handling hpc, writeOf_eq_none hx (by rw [hdata]; nofun)]
      exact .inl ⟨rfl, rfl⟩
  | ignore hpc hx hdata =>
      rw [write_of_handling hpc, writeOf_eq_none hx hdata]
      exact .inl ⟨rfl, rfl⟩
  | test hpc => exact .inr ⟨by simp only [handled, hpc], Kept.writesNamed ⟨rfl, rfl⟩⟩
  | dequeue hpc hpop => exact .inr ⟨by simp only [handled, hpc], Kept.writesNamed ⟨rfl, rfl⟩⟩
  | dequeueNull hpc hpop => exact .inr ⟨by simp only [handled, hpc], Kept.writesNamed ⟨rfl, rfl⟩⟩
  | announceState hpc hfree => exact .inr ⟨by simp only [handled, hpc], Kept.writesNamed ⟨rfl, rfl⟩⟩
  | answer hpc hfree => exact .inr ⟨by simp only [handled, hpc], Kept.writesNamed ⟨rfl, rfl⟩⟩
  | _ => exact .inr ⟨rfl, Kept.writesNamed ⟨rfl, rfl⟩⟩

theorem step_wrote {e : PayloadEvent τ} (hs : step subs s e = some s') :
    Performs s s' (write s e) ∨ (handled s e = none ∧ WritesNamed s s') := by
  unfold step at hs
  cases e with
  | system e => exact moves_wrote (ShutdownSystem.step_moves hs)
  | arrive x msg =>
      obtain rfl := Option.some.inj hs
      exact .inr ⟨rfl, Kept.writesNamed ⟨rfl, rfl⟩⟩
  | registerTask task now =>
      simp only at hs
      split_ifs at hs
      obtain rfl := Option.some.inj hs
      exact .inr ⟨rfl, WritesNamed.insert TaskState.named_notStarted rfl rfl⟩

/-! ### One step -/

theorem WritesNamed.named (h : WritesNamed s s') (hnamed : Named s) : Named s' where
  current x := by
    rcases h.current x with hx | hx
    · rw [hx]
      exact hnamed.current x
    · exact hx
  recorded t state ht := by
    rcases h.recorded t state ht with ht | ht
    · exact hnamed.recorded t state ht
    · exact ht

theorem Performs.writesNamed {w : Option (PayloadWrite τ)} (h : Performs s s' w)
    (hbyte : ∀ v, w = some v → v.byte ≤ 4) : WritesNamed s s' := by
  cases w with
  | none => exact Kept.writesNamed h
  | some v =>
      have hnamed := TaskState.ofByte_named_iff.mpr (hbyte v rfl)
      cases v with
      | assign x b => exact WritesNamed.update h.1 hnamed h.2
      | record t b => exact WritesNamed.insert hnamed h.1 h.2

theorem step_named {e : PayloadEvent τ} (hnamed : Named s) (hc : InRange s e)
    (hs : step subs s e = some s') : Named s' := by
  rcases step_wrote hs with hperforms | ⟨-, hwrites⟩
  · exact (hperforms.writesNamed hc).named hnamed
  · exact hwrites.named hnamed

theorem writeOf_byte {x : τ} {msg : Msg τ} {w : PayloadWrite τ} (h : writeOf s x msg = some w) :
    msg.stateByte? = some w.byte := by
  unfold writeOf at h
  unfold Msg.stateByte?
  split_ifs at h
  · split at h
    · rename_i sender state ack hack hdata
      obtain rfl := Option.some.inj h
      rw [hdata]
      rfl
    · cases h
  · split at h
    · rename_i m hdata
      obtain rfl := Option.some.inj h
      rw [hdata]
      rfl
    · cases h

/-- Nothing holds up a write: `process_message` waits only for `tasks_mutex`, with an acknowledgment
of a heartbeat. -/
theorem handleStep_of_write {x : τ} {msg : Msg τ} {w : PayloadWrite τ} (now : ℤ)
    (h : writeOf s x msg = some w) : ∃ s', s.handleStep x msg now = some s' := by
  unfold ShutdownSystem.handleStep
  simp only
  by_cases hx : x = s.manager.self
  · rw [if_pos hx]
    exact ⟨_, rfl⟩
  · rw [if_neg hx]
    unfold writeOf at h
    rw [if_neg hx] at h
    split at h
    · rename_i m hdata
      rw [hdata]
      exact ⟨_, rfl⟩
    · cases h

theorem write_eq_some_iff {e : PayloadEvent τ} {w : PayloadWrite τ} :
    write s e = some w ↔ ∃ x msg, handled s e = some (x, msg) ∧ writeOf s x msg = some w := by
  unfold write
  rw [Option.bind_eq_some_iff]
  exact Prod.exists

theorem step_of_write (subs : MsgType → List τ) {e : PayloadEvent τ} {w : PayloadWrite τ}
    (h : write s e = some w) :
    ∃ s', step subs s e = some s' ∧ Performs s s' (some w) := by
  obtain ⟨x, msg, hhandled, hw⟩ := write_eq_some_iff.mp h
  have hstep : ∃ s', step subs s e = some s' := by
    unfold handled at hhandled
    split at hhandled
    · rename_i y now
      split at hhandled
      · rename_i m hpc
        cases hhandled
        obtain ⟨s', hs⟩ := handleStep_of_write now hw
        exact ⟨s', by simp only [step, ShutdownSystem.step, ShutdownSystem.queueStep, hpc, hs]⟩
      · cases hhandled
    · cases hhandled
  obtain ⟨s', hs⟩ := hstep
  rcases step_wrote hs with hperforms | ⟨hnone, -⟩
  · rw [h] at hperforms
    exact ⟨s', hs, hperforms⟩
  · rw [hnone] at hhandled
    cases hhandled

/-- A byte that names no state is not where it has been written to before. -/
theorem Performs.byte_le {w : PayloadWrite τ} (h : Performs s s' (some w)) (hkept : Kept s s')
    (hnamed : Named s) : w.byte ≤ 4 := by
  cases w with
  | assign x b =>
      have hx : s.currentState x = .ofByte b := by
        rw [← hkept.current, h.1, Function.update_self]
      have hreal := hnamed.current x
      rw [hx] at hreal
      exact TaskState.ofByte_named_iff.mp hreal
  | record t b =>
      have ht : s.manager.taskStates.find? t = some (.ofByte b) := by
        rw [← hkept.records, h.2, OrdMap.find?_insert, if_pos rfl]
      exact TaskState.ofByte_named_iff.mp (hnamed.recorded t _ ht)

theorem unmoved_iff {e : PayloadEvent τ} (hnamed : Named s) : Unmoved subs s e ↔ InRange s e := by
  constructor
  · intro hunmoved w hw
    obtain ⟨x, msg, hhandled, hof⟩ := write_eq_some_iff.mp hw
    obtain ⟨s', hs, hperforms⟩ := step_of_write subs hw
    by_contra hbyte
    obtain ⟨hcurrent, hrecords⟩ :=
      hunmoved x msg w.byte hhandled (writeOf_byte hof) (UInt8.not_le.mp hbyte) s' hs
    exact hbyte (hperforms.byte_le ⟨hcurrent, hrecords⟩ hnamed)
  · intro hc x msg b hhandled hb hlt s' hs
    rcases step_wrote hs with hperforms | ⟨hnone, -⟩
    · cases hw : write s e with
      | none =>
          rw [hw] at hperforms
          exact ⟨hperforms.current, hperforms.records⟩
      | some w =>
          obtain ⟨y, m, hhandled', hof⟩ := write_eq_some_iff.mp hw
          cases hhandled.symm.trans hhandled'
          obtain rfl := Option.some.inj (hb.symm.trans (writeOf_byte hof))
          exact absurd (hc w hw) (UInt8.not_le.mpr hlt)
    · rw [hnone] at hhandled
      cases hhandled

/-- Only real states are entered and recorded, and a byte that names none changes nothing, exactly
in the runs in which every byte that is written names a state. -/
theorem named_along_iff {es : List (PayloadEvent τ)} (hnamed : Named s)
    (hrun : run (step subs) s es = some s') :
    (Along (step subs) (fun s e => Named s ∧ Unmoved subs s e) s es ∧ Named s') ↔
      Along (step subs) InRange s es := by
  have hinRange : ∀ (s : ShutdownSystem τ) e s', Named s → InRange s e → step subs s e = some s' →
      Named s' := fun _ _ _ hnamed hc hs => step_named hnamed hc hs
  have hcongr : Along (step subs) InRange s es ↔
      Along (step subs) (fun s e => Named s ∧ Unmoved subs s e) s es := by
    apply along_congr hinRange _ hnamed
    intro s e hs
    rw [unmoved_iff hs, and_iff_right hs]
  constructor
  · rintro ⟨halong, -⟩
    exact hcongr.mpr halong
  · intro halong
    exact ⟨hcongr.mp halong, run_invariant_along hinRange hnamed halong hrun⟩

/-! ### A stray byte -/

theorem foldl_running_named (tasks : List τ) {m : OrdMap τ TaskState}
    (hm : ∀ t state, m.find? t = some state → state.Named) :
    ∀ t state, (tasks.foldl (fun m t => m.insert t .running) m).find? t = some state →
      state.Named := by
  induction tasks generalizing m with
  | nil => exact hm
  | cons u tasks ih =>
      apply ih
      intro t state ht
      rw [OrdMap.find?_insert] at ht
      split_ifs at ht
      · rw [← Option.some.inj ht]
        trivial
      · exact hm t state ht

theorem started_named (mgr hb : τ) (tasks : List τ) (responseTimeoutMs : ℤ) :
    Named (ShutdownSystem.started mgr hb tasks responseTimeoutMs) where
  current _ := trivial
  recorded := foldl_running_named tasks nofun

/-- A command with the given byte reaches the task `1`, which takes it and acknowledges; the manager
`0` takes the acknowledgment. -/
def commanded (b : UInt8) : List (PayloadEvent ℕ) :=
  .arrive 1 ⟨some 0, .stateMsg ⟨b⟩⟩ ::
    (ShutdownSystem.acknowledges 1 ++ ShutdownSystem.records).map .system

/-- The byte of `IDLE`. -/
theorem named_along_iff_idle :
    Along (step (ShutdownSystem.wiring 0 2 [1, 2])) (fun s e =>
        Named s ∧ Unmoved (ShutdownSystem.wiring 0 2 [1, 2]) s e)
      (ShutdownSystem.started 0 2 [1, 2] 3000) (commanded 1) := by
  have heval : (run (step (ShutdownSystem.wiring 0 2 [1, 2]))
      (ShutdownSystem.started 0 2 [1, 2] 3000) (commanded 1)).map (fun _ => ()) = some () := by
    decide +kernel
  obtain ⟨s, hrun, -⟩ := Option.map_eq_some_iff.mp heval
  exact ((named_along_iff (started_named 0 2 [1, 2] 3000) hrun).mpr (by decide +kernel)).1

/-- The byte `9` names no state.  The task enters it, and the manager records it. -/
theorem stray_byte_recorded :
    Named (ShutdownSystem.started 0 2 [1, 2] 3000) ∧
    ∃ s, run (step (ShutdownSystem.wiring 0 2 [1, 2])) (ShutdownSystem.started 0 2 [1, 2] 3000)
        (commanded 9) = some s ∧
      ¬ (s.currentState 1).Named ∧
      ∃ state, s.manager.taskStates.find? 1 = some state ∧ ¬ state.Named := by
  have heval : (run (step (ShutdownSystem.wiring 0 2 [1, 2]))
      (ShutdownSystem.started 0 2 [1, 2] 3000) (commanded 9)).map (fun s =>
        (s.currentState 1, s.manager.taskStates.find? 1)) =
      some (.unnamed 9 (by decide), some (.unnamed 9 (by decide))) := by decide +kernel
  obtain ⟨s, hrun, hs⟩ := Option.map_eq_some_iff.mp heval
  refine ⟨started_named 0 2 [1, 2] 3000, s, hrun, ?_, _, congrArg Prod.snd hs, id⟩
  rw [show s.currentState 1 = _ from congrArg Prod.fst hs]
  exact id

end PayloadSystem

end Protocore
