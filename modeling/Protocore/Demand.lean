import Protocore.Convergence

/-! # What a successful demand promises

One controlling thread calls `request_state_transition` and `demand_state_transition`, one call
after the other.  `demand_state_transition` looks at the records only, and a record may be an old
acknowledgment that newer commands have overtaken.

The record of a task is the oldest of the states it has taken and the manager has not overwritten
(`takenStates`); what follows its present state are the commands it has not handled
(`pendingCommands`).  A demand is sound if at its call no task that has taken the demanded state has
left it or been commanded to leave it, and no command to take it is followed by one to leave it: then
this stays so until the call returns, and a record that has been read as the demanded state is
the state of the task from then on. -/

namespace Protocore

variable {τ : Type} [LinearOrder τ]

namespace ProtocolSystem

/-- The record of a task, and the states it has taken since, with the present one at the end. -/
def takenStates {κ : Type} (s : ProtocolSystem κ τ) (t : τ) : List TaskState :=
  (s.manager.taskStates.find? t).toList ++ (s.ackInHand t ++ s.acksQueued t ++ s.unpublished t)

/-- The commands a task has not handled. -/
def pendingCommands {κ : Type} (s : ProtocolSystem κ τ) (t : τ) : List TaskState :=
  s.commandInHand t ++ s.commandsQueued t

/-- Nothing leads a task out of the state, once it has taken it. -/
def Stays {κ : Type} (s : ProtocolSystem κ τ) (newState : TaskState) (t : τ) : Prop :=
  (newState ∈ s.takenStates t → ∀ a ∈ s.currentState t :: s.pendingCommands t, a = newState) ∧
    (s.pendingCommands t).Pairwise (fun a b => a = newState → b = newState)

instance {κ : Type} (s : ProtocolSystem κ τ) (newState : TaskState) (t : τ) :
    Decidable (s.Stays newState t) :=
  inferInstanceAs (Decidable (_ ∧ _))

/-- The condition on a call of `demand_state_transition`. -/
def Undisturbed (tasks : List τ) (s : ProtocolSystem Unit τ) : ProtocolEvent Unit τ → Prop
  | .demandStateTransition _ newState => ∀ t ∈ tasks, s.Stays newState t
  | _ => True

instance (tasks : List τ) (s : ProtocolSystem Unit τ) (e : ProtocolEvent Unit τ) :
    Decidable (Undisturbed tasks s e) :=
  match e with
  | .demandStateTransition _ newState =>
      inferInstanceAs (Decidable (∀ t ∈ tasks, s.Stays newState t))
  | .requestStateTransition _ _ | .control _ | .timeout _ | .dequeue _ | .process _ | .deliver
  | .other _ _ => isTrue trivial

/-- The state a controlling thread demands, and the tasks whose records it still has to read. -/
def demanding (tasks : List τ) : ControlPc τ → Option (TaskState × List τ)
  | .setTarget newState => some (newState, tasks)
  | .transition newState true => some (newState, tasks)
  | .publish newState true => some (newState, tasks)
  | .publishing newState true => some (newState, tasks)
  | .waiting newState => some (newState, tasks)
  | .checking newState rest _ => some (newState, rest)
  | .returned newState true => some (newState, [])
  | .returned newState false => some (newState, tasks)
  | _ => none

section step

variable {subs : MsgType → List τ} {mgr : τ} {tasks : List τ}

theorem drop_length_cons (a : TaskState) (l l' : List TaskState) :
    (a :: (l ++ l')).drop l.length = l.getLastD a :: l' := by
  induction l generalizing a with
  | nil => rfl
  | cons b l ih =>
      rw [List.length_cons, List.cons_append, List.drop_succ_cons, ih, List.getLastD_cons]

theorem Consistent.takenStates_eq {κ : Type} {s : ProtocolSystem κ τ}
    (h : Consistent mgr (fun t => decide (t ∈ tasks)) s) {t : τ} (ht : t ∈ tasks)
    (htmgr : t ≠ mgr) :
    s.takenStates t = (.notStarted :: s.applied t).drop (s.written t).length := by
  have hreg : decide (t ∈ tasks) = true := decide_eq_true ht
  rw [← h.publishes t htmgr, ← h.acks t hreg, List.append_assoc, drop_length_cons, takenStates,
    h.records t, hreg, if_pos rfl, Option.toList_some, List.singleton_append]

/-- The states taken, when the manager has recorded `w` and the task has taken `a` meanwhile. -/
theorem Consistent.takenStates_drop {κ : Type} {s s' : ProtocolSystem κ τ}
    (h : Consistent mgr (fun t => decide (t ∈ tasks)) s)
    (h' : Consistent mgr (fun t => decide (t ∈ tasks)) s') {t : τ} (ht : t ∈ tasks)
    (htmgr : t ≠ mgr) {w a : List TaskState} (hwritten : s'.written t = s.written t ++ w)
    (happlied : s'.applied t = s.applied t ++ a) :
    s'.takenStates t = (s.takenStates t ++ a).drop w.length := by
  have hle : (s.written t).length ≤ (TaskState.notStarted :: s.applied t).length := by
    rw [← h.publishes t htmgr, ← h.acks t (decide_eq_true ht)]
    simp only [List.length_cons, List.length_append]
    omega
  rw [h'.takenStates_eq ht htmgr, h.takenStates_eq ht htmgr, hwritten, happlied,
    ← List.drop_append_of_le_length hle, List.drop_drop, List.length_append, List.cons_append]

/-- The commands not handled, when `c` has been commanded and the task has taken `a` meanwhile. -/
theorem Consistent.pendingCommands_append {κ : Type} {s s' : ProtocolSystem κ τ}
    (h : Consistent mgr (fun t => decide (t ∈ tasks)) s)
    (h' : Consistent mgr (fun t => decide (t ∈ tasks)) s') {t : τ} (htmgr : t ≠ mgr)
    {a c : List TaskState} (happlied : s'.applied t = s.applied t ++ a)
    (hcommanded : s'.commanded t = s.commanded t ++ c) :
    a ++ s'.pendingCommands t = s.pendingCommands t ++ c := by
  have hcommands := h'.commands t htmgr
  rw [hcommanded, ← h.commands t htmgr, happlied, List.append_assoc, List.append_assoc] at hcommands
  exact List.append_cancel_left hcommands

theorem Moves.histories {κ : Type} [DecidableEq κ] {s s' : ProtocolSystem κ τ}
    {e : ProtocolEvent κ τ} (hm : Moves subs s e s') (t : τ) :
    ∃ (w c : List TaskState) (a : Option TaskState), s'.written t = s.written t ++ w ∧
      s'.applied t = s.applied t ++ a.toList ∧ s'.commanded t = s.commanded t ++ c ∧
      ∀ b ∈ c, ∃ d, s.sub = some d ∧ commandOf d.msg = some b := by
  cases hm with
  | record hpc hack =>
      rename_i msg u state
      by_cases ht : t = u
      · subst ht
        exact ⟨[state], [], none, by simp, by simp, by simp, nofun⟩
      · exact ⟨[], [], none, by simp [ht], by simp, by simp, nofun⟩
  | apply hx hpc hcmd =>
      rename_i x msg state
      by_cases ht : t = x
      · subst ht
        exact ⟨[], [], some state, by simp, by simp, by simp, nofun⟩
      · exact ⟨[], [], none, by simp, by simp [ht], by simp, nofun⟩
  | deliver hsub =>
      rename_i p msg x rest
      by_cases ht : t = x
      · subst ht
        refine ⟨[], (commandOf msg).toList, none, by simp, by simp, by simp, fun b hb => ?_⟩
        exact ⟨_, hsub, Option.mem_toList.mp hb⟩
      · exact ⟨[], [], none, by simp, by simp, by simp [ht], nofun⟩
  | _ => exact ⟨[], [], none, by simp, by simp, by simp, nofun⟩

variable {s s' : ProtocolSystem Unit τ} {e : ProtocolEvent Unit τ}

theorem Consistent.command_of_demand (h : Consistent mgr (fun t => decide (t ∈ tasks)) s)
    {newState : TaskState} {rest : List τ}
    (hd : demanding tasks (s.controller ()) = some (newState, rest)) {d : Delivery Unit τ}
    (hsub : s.sub = some d) {b : TaskState} (hb : commandOf d.msg = some b) : b = newState := by
  obtain ⟨p, msg, xs⟩ := d
  cases p with
  | controller c =>
      obtain ⟨state, demand, hpc, rfl⟩ := h.sub_controller c msg xs hsub
      rw [show s.controller () = .publishing state demand from hpc] at hd
      cases demand with
      | false => cases hd
      | true =>
          cases hd
          simpa [commandOf] using hb.symm
  | task u =>
      obtain ⟨-, rfl, -⟩ := h.sub_task u msg xs hsub
      cases hb

/-- What a step does to the states and commands of a task: old states are overwritten, demanded
ones are commanded, and the task may take the first of its commands. -/
theorem Consistent.states_step (h : Consistent mgr (fun t => decide (t ∈ tasks)) s)
    (h' : Consistent mgr (fun t => decide (t ∈ tasks)) s') (hm : Moves subs s e s') {t : τ}
    (ht : t ∈ tasks) (htmgr : t ≠ mgr) {newState : TaskState} {rest : List τ}
    (hd : demanding tasks (s.controller ()) = some (newState, rest)) :
    ∃ c, (∀ b ∈ c, b = newState) ∧
      (s'.takenStates t ⊆ s.takenStates t ∧ s'.currentState t = s.currentState t ∧
          s'.pendingCommands t = s.pendingCommands t ++ c ∨
        s'.takenStates t ⊆ s.takenStates t ++ [s'.currentState t] ∧
          s'.currentState t :: s'.pendingCommands t = s.pendingCommands t ++ c) := by
  obtain ⟨w, c, a, hwritten, happlied, hcommanded, hc⟩ := hm.histories t
  refine ⟨c, fun b hb => ?_, ?_⟩
  · obtain ⟨d, hsub, hcmd⟩ := hc b hb
    exact h.command_of_demand hd hsub hcmd
  have htaken := h.takenStates_drop h' ht htmgr hwritten happlied
  have hcommands := h.pendingCommands_append h' htmgr happlied hcommanded
  cases a with
  | none =>
      refine .inl ⟨?_, ?_, hcommands⟩
      · rw [htaken, Option.toList_none, List.append_nil]
        exact List.drop_subset ..
      · rw [h'.state, h.state, happlied, Option.toList_none, List.append_nil]
  | some state =>
      have hstate : s'.currentState t = state := by
        rw [h'.state, happlied, Option.toList_some, List.getLastD_concat]
      refine .inr ⟨?_, ?_⟩
      · rw [htaken, hstate]
        exact List.drop_subset ..
      · rw [hstate]
        exact hcommands

theorem Consistent.mem_recorded (h : Consistent mgr (fun t => decide (t ∈ tasks)) s) {t : τ}
    (ht : t ∈ tasks) : t ∈ s.recorded := by
  have hrecord := h.records t
  rw [decide_eq_true ht, if_pos rfl] at hrecord
  exact OrdMap.mem_keys_iff.mpr (Option.isSome_of_eq_some hrecord)

/-- A demand begins, or goes on and reads at most records that are as demanded. -/
theorem Consistent.demanding_step (h : Consistent mgr (fun t => decide (t ∈ tasks)) s)
    (hm : Moves subs s e s') {newState : TaskState} {rest' : List τ}
    (hd : demanding tasks (s'.controller ()) = some (newState, rest')) :
    (e = .demandStateTransition () newState ∧ rest' = tasks ∧
      ∀ t, s'.Stays newState t ↔ s.Stays newState t) ∨
    ∃ rest, demanding tasks (s.controller ()) = some (newState, rest) ∧
      ∀ t ∈ tasks, t ∈ rest → t ∈ rest' ∨ s.manager.taskStates.find? t = some newState := by
  have hsame : demanding tasks (s.controller ()) = some (newState, rest') →
      ∃ rest, demanding tasks (s.controller ()) = some (newState, rest) ∧
        ∀ t ∈ tasks, t ∈ rest → t ∈ rest' ∨ s.manager.taskStates.find? t = some newState :=
    fun hd => ⟨rest', hd, fun t _ ht => .inl ht⟩
  cases hm with
  | request hpc => simp [demanding] at hd
  | demand hpc =>
      simp only [Function.update_self, demanding, Option.some.injEq, Prod.mk.injEq] at hd
      obtain ⟨rfl, rfl⟩ := hd
      exact .inl ⟨rfl, rfl, fun _ => Iff.rfl⟩
  | setTarget hpc =>
      simp only [Function.update_self] at hd
      exact .inr (hsame (by rw [hpc]; exact hd))
  | transition hpc =>
      rename_i demand
      simp only [Function.update_self] at hd
      refine .inr (hsame ?_)
      rw [hpc]
      cases demand <;> exact hd
  | publish hpc hfree =>
      rename_i demand
      simp only [Function.update_self] at hd
      refine .inr (hsame ?_)
      rw [hpc]
      cases demand <;> exact hd
  | check hpc =>
      simp only [Function.update_self, demanding, Option.some.injEq, Prod.mk.injEq] at hd
      obtain ⟨rfl, rfl⟩ := hd
      refine .inr ⟨tasks, by rw [hpc]; rfl, fun t ht _ => .inl ?_⟩
      exact h.mem_recorded ht
  | pass hpc hrecord =>
      simp only [Function.update_self, demanding, Option.some.injEq, Prod.mk.injEq] at hd
      obtain ⟨rfl, rfl⟩ := hd
      refine .inr ⟨_, by rw [hpc]; rfl, fun t _ ht => ?_⟩
      cases ht with
      | head => exact .inr hrecord
      | tail _ ht => exact .inl ht
  | miss hpc hrecord =>
      rename_i state u rest timedOut
      simp only [Function.update_self] at hd
      obtain ⟨rfl, rfl⟩ : state = newState ∧ tasks = rest' := by
        cases timedOut <;> simpa [demanding] using hd
      exact .inr ⟨u :: rest, by rw [hpc]; rfl, fun t ht _ => .inl ht⟩
  | succeed hpc =>
      simp only [Function.update_self, demanding, Option.some.injEq, Prod.mk.injEq] at hd
      obtain ⟨rfl, rfl⟩ := hd
      exact .inr ⟨[], by rw [hpc]; rfl, fun t _ ht => .inl ht⟩
  | leave hpc => simp [demanding] at hd
  | commanded hsub hpc hpc' =>
      simp only [Function.update_self] at hd
      obtain rfl | ⟨state, hstate⟩ := hpc'
      · cases hd
      · rw [hpc state hstate] at hd
        exact .inr (hsame (by rw [hstate]; exact hd))
  | _ => exact .inr (hsame hd)

/-- While a demand is in progress every task stays in the demanded state once it has taken it, and
the tasks whose records have been read have taken it. -/
def Sound (tasks : List τ) (s : ProtocolSystem Unit τ) : Prop :=
  ∀ newState rest, demanding tasks (s.controller ()) = some (newState, rest) → ∀ t ∈ tasks,
    s.Stays newState t ∧
      (t ∉ rest → ∀ a ∈ s.currentState t :: s.pendingCommands t, a = newState)

theorem Stays.step {newState : TaskState} {t : τ} {c : List TaskState} (h : s.Stays newState t)
    (hc : ∀ b ∈ c, b = newState)
    (hstep : s'.takenStates t ⊆ s.takenStates t ∧ s'.currentState t = s.currentState t ∧
        s'.pendingCommands t = s.pendingCommands t ++ c ∨
      s'.takenStates t ⊆ s.takenStates t ++ [s'.currentState t] ∧
        s'.currentState t :: s'.pendingCommands t = s.pendingCommands t ++ c) :
    s'.Stays newState t ∧ ((∀ a ∈ s.currentState t :: s.pendingCommands t, a = newState) →
      ∀ a ∈ s'.currentState t :: s'.pendingCommands t, a = newState) := by
  have hcommands : (s.pendingCommands t ++ c).Pairwise (fun a b => a = newState → b = newState) :=
    List.pairwise_append.mpr ⟨h.2, List.pairwise_of_forall_mem_list (fun _ _ b hb _ => hc b hb),
      fun _ _ b hb _ => hc b hb⟩
  have hall : (∀ a ∈ s.currentState t :: s.pendingCommands t, a = newState) →
      ∀ a ∈ s.currentState t :: (s.pendingCommands t ++ c), a = newState := by
    intro hs a ha
    rw [← List.cons_append, List.mem_append] at ha
    exact ha.elim (hs a) (hc a)
  obtain ⟨htaken, hstate, hpending⟩ | ⟨htaken, hpending⟩ := hstep
  · rw [Stays, hstate, hpending]
    exact ⟨⟨fun hn => hall (h.1 (htaken hn)), hcommands⟩, hall⟩
  · -- the task has taken the first of its commands
    have hall' : (∀ a ∈ s.currentState t :: s.pendingCommands t, a = newState) →
        ∀ a ∈ s'.currentState t :: s'.pendingCommands t, a = newState := by
      intro hs a ha
      rw [hpending] at ha
      exact hall hs a (List.mem_cons_of_mem _ ha)
    rw [← hpending, List.pairwise_cons] at hcommands
    refine ⟨⟨fun hn => ?_, hcommands.2⟩, hall'⟩
    obtain hn | hn := List.mem_append.mp (htaken hn)
    · exact hall' (h.1 hn)
    · have hn := List.mem_singleton.mp hn
      intro a ha
      cases ha with
      | head => exact hn.symm
      | tail _ ha => exact hcommands.1 a ha hn.symm

theorem Sound.step (hmgr : mgr ∉ tasks) (hsound : Sound tasks s)
    (h : Consistent mgr (fun t => decide (t ∈ tasks)) s)
    (h' : Consistent mgr (fun t => decide (t ∈ tasks)) s') (he : Undisturbed tasks s e)
    (hm : Moves subs s e s') : Sound tasks s' := by
  intro newState rest' hd t ht
  obtain ⟨rfl, rfl, hstays⟩ | ⟨rest, hd, hread⟩ := h.demanding_step hm hd
  · exact ⟨(hstays t).mpr (he t ht), fun hnot => absurd ht hnot⟩
  · obtain ⟨hstays, hall⟩ := hsound newState rest hd t ht
    obtain ⟨c, hc, hstep⟩ := h.states_step h' hm ht (fun heq => hmgr (heq ▸ ht)) hd
    obtain ⟨hstays', hall'⟩ := hstays.step hc hstep
    refine ⟨hstays', fun hnot => hall' ?_⟩
    by_cases htrest : t ∈ rest
    · have hrecord := (hread t ht htrest).resolve_left hnot
      exact hstays.1 (by simp [takenStates, hrecord])
    · exact hall htrest

/-- When a run's demands are undisturbed and one returns true, the tasks are in its state. -/
theorem undisturbed_sound {currentState targetState : TaskState} (hw : Wired subs mgr)
    (hmgr : mgr ∉ tasks) {es : List (ProtocolEvent Unit τ)}
    (hrun : run (step subs) (start mgr tasks currentState targetState) es = some s)
    (hes : Along (step subs) (Undisturbed tasks) (start mgr tasks currentState targetState) es)
    {newState : TaskState} (hreturn : s.controller () = .returned newState true) :
    ∀ t ∈ tasks, s.currentState t = newState := by
  have hsound : Consistent mgr (fun t => decide (t ∈ tasks)) s ∧ Sound tasks s := by
    refine run_invariant_along
      (P := fun s => Consistent mgr (fun t => decide (t ∈ tasks)) s ∧ Sound tasks s)
      (fun s₁ e s₂ h₁ he hstep => ?_) ⟨start_consistent .., ?_⟩ hes hrun
    · have hm := step_moves hstep
      have h₂ := moves_consistent hw h₁.1 hm
      exact ⟨h₂, h₁.2.step hmgr h₁.1 h₂ he hm⟩
    · intro newState rest hd
      cases hd
  intro t ht
  exact (hsound.2 newState [] (by rw [hreturn]; rfl) t ht).2 List.not_mem_nil _ List.mem_cons_self

end step

end ProtocolSystem

end Protocore
