import Protocore.Demand

/-! # The condition on demands is needed

With one registered task, a demand that begins while its condition fails can return true although
the task is in another state.  The schedule, before the demand sends its command: the broadcast in
progress ends; the task handles its commands until it has left the demanded state; the manager
records acknowledgments up to the demanded state and no further. -/

namespace Protocore

variable {τ : Type} [LinearOrder τ]

namespace ProtocolSystem

variable {subs : MsgType → List τ} {mgr t : τ} {tasks : List τ} {newState : TaskState}
  {s : ProtocolSystem Unit τ}

theorem reaches_delivered {p : Publisher Unit τ} {msg : Msg τ} :
    ∀ (rest : List τ) (s : ProtocolSystem Unit τ), s.sub = some ⟨p, msg, rest⟩ →
      ∃ queue commanded published, Reaches (step subs) s { s with
        queue := queue
        sub := some ⟨p, msg, []⟩
        commanded := commanded
        published := published } ∧ (commandOf msg = none → commanded = s.commanded)
  | [], s, hsub => ⟨s.queue, s.commanded, s.published, by rw [← hsub]; exact Reaches.refl s,
      fun _ => rfl⟩
  | x :: rest, s, hsub => by
      have hstep : step subs s .deliver = some { s with
          queue := Function.update s.queue x (s.queue x ++ [msg])
          sub := some ⟨p, msg, rest⟩
          commanded := Function.update s.commanded x (s.commanded x ++ (commandOf msg).toList)
          published := if x = s.manager.self then
              fun t => s.published t ++ (ackOf t msg).toList
            else s.published } := by
        rw [step, deliverStep, hsub]
      obtain ⟨queue, commanded, published, hreach, hcommanded⟩ := reaches_delivered rest
        { s with
          queue := Function.update s.queue x (s.queue x ++ [msg])
          sub := some ⟨p, msg, rest⟩
          commanded := Function.update s.commanded x (s.commanded x ++ (commandOf msg).toList)
          published := if x = s.manager.self then
              fun t => s.published t ++ (ackOf t msg).toList
            else s.published } rfl
      refine ⟨queue, commanded, published, (Reaches.single hstep).trans hreach, fun hmsg => ?_⟩
      rw [hcommanded hmsg]
      simp [hmsg]

/-- A schedule during a demand for `newState` that has not yet sent its command.  It ends with no
broadcast in progress; meanwhile the manager has recorded `w` for the task and the task has taken
`a`. -/
structure Quiet (subs : MsgType → List τ) (t : τ) (newState : TaskState) (w a : List TaskState)
    (s s' : ProtocolSystem Unit τ) : Prop where
  reaches : Reaches (step subs) s s'
  sub : s'.sub = none
  controller : s'.controller () = .setTarget newState
  written : s'.written t = s.written t ++ w
  applied : s'.applied t = s.applied t ++ a
  commanded : s'.commanded t = s.commanded t

theorem Quiet.refl (hfree : s.sub = none) (hctl : s.controller () = .setTarget newState) :
    Quiet subs t newState [] [] s s :=
  ⟨Reaches.refl s, hfree, hctl, by simp, by simp, rfl⟩

theorem Quiet.trans {w a w' a' : List TaskState} {s₁ s' : ProtocolSystem Unit τ}
    (h : Quiet subs t newState w a s s₁) (h' : Quiet subs t newState w' a' s₁ s') :
    Quiet subs t newState (w ++ w') (a ++ a') s s' where
  reaches := h.reaches.trans h'.reaches
  sub := h'.sub
  controller := h'.controller
  written := by rw [h'.written, h.written, List.append_assoc]
  applied := by rw [h'.applied, h.applied, List.append_assoc]
  commanded := h'.commanded.trans h.commanded

theorem Consistent.reaches (hw : Wired subs mgr) {s' : ProtocolSystem Unit τ}
    (h : Consistent mgr (fun t => decide (t ∈ tasks)) s) (hs : Reaches (step subs) s s') :
    Consistent mgr (fun t => decide (t ∈ tasks)) s' :=
  hs.invariant (fun _ _ _ h he => moves_consistent hw h (step_moves he)) h

theorem Consistent.finish (h : Consistent mgr (fun t => decide (t ∈ tasks)) s)
    (hctl : s.controller () = .setTarget newState) (t : τ) : ∃ s', Quiet subs t newState [] [] s s' ∧
      (s'.thread t = .idle ∨ s'.thread t = s.thread t ∧ s.thread t ≠ .publishing) := by
  cases hsub : s.sub with
  | none =>
      have hnot : s.thread t ≠ .publishing := h.not_publishing (by simp [hsub])
      exact ⟨s, Quiet.refl hsub hctl, .inr ⟨rfl, hnot⟩⟩
  | some d =>
      obtain ⟨p, msg, rest⟩ := d
      cases p with
      | controller c =>
          obtain ⟨state, demand, hpc, -⟩ := h.sub_controller c msg rest hsub
          rw [show s.controller c = .setTarget newState from hctl] at hpc
          cases hpc
      | task u =>
          obtain ⟨-, rfl, -⟩ := h.sub_task u msg rest hsub
          obtain ⟨queue, commanded, published, hreach, hcommanded⟩ := reaches_delivered rest s hsub
          refine ⟨_, ⟨hreach.snoc (e := .deliver) rfl, rfl, hctl, by simp, by simp, ?_⟩, ?_⟩
          · rw [hcommanded rfl]
          · by_cases ht : t = u
            · exact .inl (by simp [ht])
            · refine .inr ⟨by simp [ht], h.not_publishing ?_⟩
              intro msg' rest' hsub'
              rw [hsub] at hsub'
              cases hsub'
              exact ht rfl

/-! ### The task moves on -/

theorem Consistent.handle_command (h : Consistent mgr (fun t => decide (t ∈ tasks)) s)
    (hfree : s.sub = none) (hctl : s.controller () = .setTarget newState) (htmgr : t ≠ mgr) {msg : Msg τ}
    {state : TaskState} (hpc : s.thread t = .handling msg) (hcmd : commandOf msg = some state) :
    ∃ s', Quiet subs t newState [] [state] s s' := by
  obtain rfl := h.self_eq
  obtain ⟨sender, data⟩ := msg
  cases data with
  | stateMsg m =>
      obtain rfl := Option.some.inj hcmd
      have hstep : step subs s (.process t) = some { s with
          currentState := Function.update s.currentState t (.ofByte m.state)
          thread := Function.update s.thread t .announce
          applied := Function.update s.applied t (s.applied t ++ [.ofByte m.state]) } := by
        simp only [step, processStep, hpc, if_neg htmgr]
      exact ⟨_, Reaches.single hstep, hfree, hctl, by simp, by simp, rfl⟩
  | _ => cases hcmd

theorem Consistent.next_command (h : Consistent mgr (fun t => decide (t ∈ tasks)) s)
    (hw : Wired subs mgr) (hfree : s.sub = none) (hctl : s.controller () = .setTarget newState) (htmgr : t ≠ mgr)
    (hpc : s.thread t = .idle) (hpending : s.pendingCommands t ≠ []) :
    ∃ s' x, Quiet subs t newState [] [x] s s' := by
  have hqueued : (s.queue t).filterMap commandOf ≠ [] := by
    simpa [pendingCommands, commandInHand, commandsQueued, hpc] using hpending
  obtain ⟨msg, rest, state, hpop, hcmd⟩ := pop_command hqueued
  have hstep : step subs s (.dequeue t) = some { s with
      queue := Function.update s.queue t rest
      thread := Function.update s.thread t (.handling msg) } := by
    simp only [step, hpc, hpop]
  have h₁ := moves_consistent hw h (step_moves hstep)
  have hquiet : Quiet subs t newState [] [] s { s with
      queue := Function.update s.queue t rest
      thread := Function.update s.thread t (.handling msg) } :=
    ⟨Reaches.single hstep, hfree, hctl, by simp, by simp, rfl⟩
  obtain ⟨s', hs'⟩ := h₁.handle_command hfree hctl htmgr (Function.update_self ..) hcmd
  exact ⟨s', state, hquiet.trans hs'⟩

theorem Quiet.pendingCommands_eq {w a : List TaskState} {s' : ProtocolSystem Unit τ}
    (hq : Quiet subs t newState w a s s') (hw : Wired subs mgr)
    (h : Consistent mgr (fun t => decide (t ∈ tasks)) s) (htmgr : t ≠ mgr) :
    s.pendingCommands t = a ++ s'.pendingCommands t := by
  have hcommanded : s'.commanded t = s.commanded t ++ [] := by rw [hq.commanded, List.append_nil]
  have happend :=
    h.pendingCommands_append (h.reaches hw hq.reaches) htmgr hq.applied hcommanded
  rw [happend, List.append_nil]

/-- The task takes its next command, wherever it is. -/
theorem Consistent.take_command (h : Consistent mgr (fun t => decide (t ∈ tasks)) s)
    (hw : Wired subs mgr) (hfree : s.sub = none) (hctl : s.controller () = .setTarget newState) (htmgr : t ≠ mgr)
    (hpending : s.pendingCommands t ≠ []) : ∃ s' x, Quiet subs t newState [] [x] s s' := by
  have hnext : ∀ s₁, Quiet subs t newState [] [] s s₁ → s₁.thread t = .idle →
      ∃ s' x, Quiet subs t newState [] [x] s s' := by
    intro s₁ hs₁ hpc
    have hpending₁ : s₁.pendingCommands t ≠ [] := by
      have heq := hs₁.pendingCommands_eq hw h htmgr
      rwa [heq] at hpending
    obtain ⟨s', x, hs'⟩ := (h.reaches hw hs₁.reaches).next_command hw hs₁.sub hs₁.controller htmgr
      hpc hpending₁
    exact ⟨s', x, hs₁.trans hs'⟩
  have hself := h.self_eq
  cases hpc : s.thread t with
  | idle => exact h.next_command hw hfree hctl htmgr hpc hpending
  | handling msg =>
      cases hcmd : commandOf msg with
      | some state =>
          obtain ⟨s', hs'⟩ : ∃ s', Quiet subs t newState [] [state] s s' :=
            h.handle_command hfree hctl htmgr hpc hcmd
          exact ⟨s', state, hs'⟩
      | none =>
          have hstep : step subs s (.process t) = some { s with
              thread := Function.update s.thread t .idle } := by
            obtain ⟨sender, data⟩ := msg
            cases data with
            | stateMsg m => cases hcmd
            | _ => simp only [step, processStep, hpc, hself, if_neg htmgr]
          exact hnext _ ⟨Reaches.single hstep, hfree, hctl, by simp, by simp, rfl⟩
            (Function.update_self ..)
  | announce =>
      have hstep : step subs s (.process t) = some { s with
          sub := some ⟨.task t, ackMsg t (s.currentState t), subs .stateAckMsg⟩
          thread := Function.update s.thread t .publishing } := by
        simp [step, processStep, hpc, hfree]
      have h₁ := moves_consistent hw h (step_moves hstep)
      obtain ⟨s₂, hs₂, hpc₂⟩ := h₁.finish hctl t
      have hpc₂ : s₂.thread t = .idle :=
        hpc₂.resolve_right (fun hnot => hnot.2 (Function.update_self ..))
      have hreach : Reaches (step subs) s s₂ := (Reaches.single hstep).trans hs₂.reaches
      exact hnext s₂
        ⟨hreach, hs₂.sub, hs₂.controller, hs₂.written, hs₂.applied, hs₂.commanded⟩ hpc₂
  | publishing =>
      obtain ⟨msg, rest, hsub⟩ := h.publishing t hpc
      rw [hfree] at hsub
      cases hsub

/-! ### The manager catches up -/

theorem Consistent.handle_ack (h : Consistent mgr (fun t => decide (t ∈ tasks)) s)
    (hfree : s.sub = none) (hctl : s.controller () = .setTarget newState) (ht : t ∈ tasks) {msg : Msg τ}
    (hpc : s.thread mgr = .handling msg) :
    ∃ s', Quiet subs t newState (ackOf t msg).toList [] s s' ∧ s'.thread mgr = .idle ∧
      s'.queue = s.queue := by
  obtain rfl := h.self_eq
  cases hack : s.manager.acknowledged msg with
  | none =>
      have hstep : step subs s (.process s.manager.self) = some { s with
          manager := (s.manager.processMessage msg).1
          thread := Function.update s.thread s.manager.self .idle } := by
        simp only [step, processStep, hpc, if_true, hack]
      have hsome : (s.manager.taskStates.find? t).isSome := by
        rw [h.isSome_find? t, decide_eq_true ht]
      refine ⟨_, ⟨Reaches.single hstep, hfree, hctl, ?_, by simp, rfl⟩, by simp, rfl⟩
      rw [ackOf_of_not_acknowledged hack hsome, Option.toList_none, List.append_nil]
  | some p =>
      obtain ⟨u, state⟩ := p
      have hstep : step subs s (.process s.manager.self) = some { s with
          manager := (s.manager.processMessage msg).1
          thread := Function.update s.thread s.manager.self .idle
          written := Function.update s.written u (s.written u ++ [state]) } := by
        simp only [step, processStep, hpc, if_true, hack]
      refine ⟨_, ⟨Reaches.single hstep, hfree, hctl, ?_, by simp, rfl⟩, by simp, rfl⟩
      rw [ackOf_of_acknowledged hack t]
      by_cases hu : t = u
      · subst hu
        simp
      · simp [hu]

/-- The manager takes messages from its queue until it records one of the task. -/
theorem Consistent.next_ack (hw : Wired subs mgr) (ht : t ∈ tasks) :
    ∀ (n : ℕ) (s : ProtocolSystem Unit τ), Consistent mgr (fun t => decide (t ∈ tasks)) s →
      s.sub = none → s.controller () = .setTarget newState → s.thread mgr = .idle →
      (s.queue mgr).length = n → s.acksQueued t ≠ [] → ∃ s' x, Quiet subs t newState [x] [] s s' := by
  intro n
  induction n with
  | zero =>
      intro s h _ _ _ hn hacks
      rw [acksQueued, h.self_eq, List.length_eq_zero_iff.mp hn] at hacks
      exact absurd rfl hacks
  | succ n ih =>
      intro s h hfree hctl hpc hn hacks
      cases hpop : StableQueue.pop Msg.getPriority (s.queue mgr) with
      | none =>
          rw [(StableQueue.pop_eq_none_iff Msg.getPriority).mp hpop] at hn
          cases hn
      | some r =>
          obtain ⟨msg, rest⟩ := r
          have hstep : step subs s (.dequeue mgr) = some { s with
              queue := Function.update s.queue mgr rest
              thread := Function.update s.thread mgr (.handling msg) } := by
            simp only [step, hpc, hpop]
          have h₁ := moves_consistent hw h (step_moves hstep)
          have hquiet : Quiet subs t newState [] [] s { s with
              queue := Function.update s.queue mgr rest
              thread := Function.update s.thread mgr (.handling msg) } :=
            ⟨Reaches.single hstep, hfree, hctl, by simp, by simp, rfl⟩
          obtain ⟨s₂, hs₂, hpc₂, hqueue₂⟩ := h₁.handle_ack hfree hctl ht (Function.update_self ..)
          have hs₂ := hquiet.trans hs₂
          have hfilter : s.acksQueued t = (ackOf t msg).toList ++ rest.filterMap (ackOf t) := by
            rw [acksQueued, h.self_eq]
            exact StableQueue.filterMap_pop Msg.getPriority hpop (priority_of_ackOf t)
          cases hack : ackOf t msg with
          | some x =>
              rw [hack] at hs₂
              exact ⟨s₂, x, hs₂⟩
          | none =>
              rw [hack] at hs₂ hfilter
              have h₂ := h.reaches hw hs₂.reaches
              have hqueue : s₂.queue mgr = rest := by
                rw [hqueue₂]
                exact Function.update_self ..
              have hlen : (s₂.queue mgr).length = n := by
                have hperm := (StableQueue.pop_perm Msg.getPriority hpop).length_eq
                rw [hn, List.length_cons] at hperm
                rw [hqueue]
                omega
              have hacks₂ : s₂.acksQueued t ≠ [] := by
                rw [acksQueued, h₂.self_eq, hqueue]
                rwa [hfilter] at hacks
              obtain ⟨s', x, hs'⟩ := ih s₂ h₂ hs₂.sub hs₂.controller hpc₂ hlen hacks₂
              exact ⟨s', x, hs₂.trans hs'⟩

theorem Consistent.record_ack (h : Consistent mgr (fun t => decide (t ∈ tasks)) s)
    (hw : Wired subs mgr) (hfree : s.sub = none) (hctl : s.controller () = .setTarget newState) (ht : t ∈ tasks)
    (hacks : s.ackInHand t ++ s.acksQueued t ≠ []) : ∃ s' x, Quiet subs t newState [x] [] s s' := by
  cases hpc : s.thread mgr with
  | idle =>
      apply h.next_ack hw ht _ s hfree hctl hpc rfl
      simpa [ackInHand, h.self_eq, hpc] using hacks
  | handling msg =>
      obtain ⟨s₁, hs₁, hpc₁, hqueue₁⟩ := h.handle_ack hfree hctl ht hpc
      cases hack : ackOf t msg with
      | some x =>
          rw [hack] at hs₁
          exact ⟨s₁, x, hs₁⟩
      | none =>
          rw [hack] at hs₁
          have h₁ := h.reaches hw hs₁.reaches
          have hacks₁ : s₁.acksQueued t ≠ [] := by
            rw [acksQueued, h₁.self_eq, hqueue₁, ← h.self_eq]
            simpa [ackInHand, acksQueued, h.self_eq, hpc, hack] using hacks
          obtain ⟨s', x, hs'⟩ := next_ack hw ht _ s₁ h₁ hs₁.sub hs₁.controller hpc₁ rfl hacks₁
          exact ⟨s', x, hs₁.trans hs'⟩
  | announce => exact absurd hpc h.manager_idle.1
  | publishing => exact absurd hpc h.manager_idle.2

/-! ### The demand returns -/

theorem Consistent.leave_state (hw : Wired subs mgr) (ht : t ∈ tasks) (htmgr : t ≠ mgr) :
    ∀ (n : ℕ) (s : ProtocolSystem Unit τ), Consistent mgr (fun t => decide (t ∈ tasks)) s →
      s.sub = none → s.controller () = .setTarget newState → (s.pendingCommands t).length = n →
      ¬s.Stays newState t → ∃ s' a, Quiet subs t newState [] a s s' ∧
        newState ∈ s'.takenStates t ∧ s'.currentState t ≠ newState := by
  intro n
  induction n with
  | zero =>
      intro s h hfree hctl hn hstays
      have hpending := List.length_eq_zero_iff.mp hn
      refine ⟨s, [], Quiet.refl hfree hctl, ?_⟩
      simpa [Stays, hpending] using hstays
  | succ n ih =>
      intro s h hfree hctl hn hstays
      by_cases hleft : newState ∈ s.takenStates t ∧ s.currentState t ≠ newState
      · exact ⟨s, [], Quiet.refl hfree hctl, hleft⟩
      have hne : s.pendingCommands t ≠ [] := by
        intro hnil
        rw [hnil] at hn
        cases hn
      obtain ⟨s₁, x, hs₁⟩ := h.take_command hw hfree hctl htmgr hne
      have h₁ := h.reaches hw hs₁.reaches
      have hpending : s.pendingCommands t = x :: s₁.pendingCommands t :=
        hs₁.pendingCommands_eq hw h htmgr
      have htaken : s₁.takenStates t = s.takenStates t ++ [x] :=
        h.takenStates_drop h₁ ht htmgr hs₁.written hs₁.applied
      have hstate : s₁.currentState t = x := by
        rw [h₁.state, hs₁.applied, List.getLastD_concat]
      have hstays₁ : ¬s₁.Stays newState t := by
        intro hstays₁
        rw [Stays, hstate, htaken] at hstays₁
        apply hstays
        rw [Stays, hpending]
        refine ⟨fun hmem a ha => ?_, List.pairwise_cons.mpr ⟨fun b hb hx => ?_, hstays₁.2⟩⟩
        · cases ha with
          | head =>
              by_contra hcur
              exact hleft ⟨hmem, hcur⟩
          | tail _ ha => exact hstays₁.1 (List.mem_append_left _ hmem) a ha
        · exact hstays₁.1 (by simp [hx]) b (List.mem_cons_of_mem x hb)
      have hn₁ : (s₁.pendingCommands t).length = n := by
        rw [hpending, List.length_cons] at hn
        omega
      obtain ⟨s', a, hs', hleft'⟩ := ih s₁ h₁ hs₁.sub hs₁.controller hn₁ hstays₁
      exact ⟨s', x :: a, hs₁.trans hs', hleft'⟩

theorem mem_unpublished {a : TaskState} (h : a ∈ s.unpublished t) :
    a = s.currentState t := by
  unfold unpublished at h
  split at h
  · simpa using h
  · split_ifs at h
    · simpa using h
    · cases h
  · cases h

/-- The manager goes on until the state is recorded. -/
theorem Consistent.record_state (hw : Wired subs mgr) (ht : t ∈ tasks) (htmgr : t ≠ mgr) :
    ∀ (n : ℕ) (s : ProtocolSystem Unit τ), Consistent mgr (fun t => decide (t ∈ tasks)) s →
      s.sub = none → s.controller () = .setTarget newState → (s.takenStates t).length = n →
      newState ∈ s.takenStates t → s.currentState t ≠ newState →
      ∃ s' w, Quiet subs t newState w [] s s' ∧
        s'.manager.taskStates.find? t = some newState ∧ s'.currentState t ≠ newState := by
  intro n
  induction n with
  | zero =>
      intro s _ _ _ hn hmem _
      rw [List.length_eq_zero_iff.mp hn] at hmem
      cases hmem
  | succ n ih =>
      intro s h hfree hctl hn hmem hcur
      by_cases hrecord : s.manager.taskStates.find? t = some newState
      · exact ⟨s, [], Quiet.refl hfree hctl, hrecord, hcur⟩
      have hacks : newState ∈ s.ackInHand t ++ s.acksQueued t := by
        obtain hmem | hmem := List.mem_append.mp hmem
        · exact absurd (Option.mem_toList.mp hmem) hrecord
        · obtain hmem | hmem := List.mem_append.mp hmem
          · exact hmem
          · exact absurd (mem_unpublished hmem).symm hcur
      obtain ⟨s₁, x, hs₁⟩ := h.record_ack hw hfree hctl ht (List.ne_nil_of_mem hacks)
      have h₁ := h.reaches hw hs₁.reaches
      have htaken : s₁.takenStates t = (s.takenStates t).tail := by
        rw [h.takenStates_drop h₁ ht htmgr hs₁.written hs₁.applied, List.append_nil]
        exact List.drop_one
      have hstate : s₁.currentState t = s.currentState t := by
        rw [h₁.state, h.state, hs₁.applied, List.append_nil]
      have hmem₁ : newState ∈ s₁.takenStates t := by
        rw [htaken]
        obtain ⟨r, hr⟩ : ∃ r, s.manager.taskStates.find? t = some r :=
          Option.isSome_iff_exists.mp (by rw [h.isSome_find? t, decide_eq_true ht])
        rw [takenStates, hr, Option.toList_some, List.singleton_append, List.tail_cons]
        exact List.mem_append_left _ hacks
      have hn₁ : (s₁.takenStates t).length = n := by
        rw [htaken, List.length_tail, hn]
        rfl
      obtain ⟨s', w, hs', hrecord'⟩ :=
        ih s₁ h₁ hs₁.sub hs₁.controller hn₁ hmem₁ (by rwa [hstate])
      exact ⟨s', x :: w, hs₁.trans hs', hrecord'⟩

theorem reaches_waiting (hfree : s.sub = none) (hctl : s.controller () = .setTarget newState) :
    ∃ s', Reaches (step subs) s s' ∧ s'.controller () = .waiting newState ∧
      s'.manager.taskStates = s.manager.taskStates ∧ s'.currentState = s.currentState := by
  have hrun : run (step subs) s [.control (), .control (), .control ()] = some { s with
      manager := { s.manager with targetState := newState, currentState := newState }
      sub := some ⟨.controller (), ⟨some s.manager.self, .stateMsg ⟨newState.toByte⟩⟩,
        subs .stateMsg⟩
      controller := Function.update s.controller () (.publishing newState true) } := by
    simp [run_cons, step, controlStep, hctl, hfree, StateManager.transitionToState]
  obtain ⟨queue, commanded, published, hdelivered, -⟩ := reaches_delivered (subs .stateMsg) { s with
      manager := { s.manager with targetState := newState, currentState := newState }
      sub := some ⟨.controller (), ⟨some s.manager.self, .stateMsg ⟨newState.toByte⟩⟩,
        subs .stateMsg⟩
      controller := Function.update s.controller () (.publishing newState true) } rfl
  refine ⟨_, (Reaches.trans ⟨_, hrun⟩ hdelivered).snoc (e := .deliver) rfl, ?_, rfl, rfl⟩
  simp

/-- With a record of the state, the demand returns before the task handles its command. -/
theorem Consistent.demand_returns (h : Consistent mgr (fun u => decide (u ∈ [t])) s)
    (hfree : s.sub = none) (hctl : s.controller () = .setTarget newState)
    (hrecord : s.manager.taskStates.find? t = some newState) :
    ∃ s', Reaches (step subs) s s' ∧ s'.controller () = .returned newState true ∧
      s'.currentState = s.currentState := by
  obtain ⟨s', hreach, hpc, hstates, hcur⟩ := reaches_waiting hfree hctl
  have hall : s'.manager.allTasksInState newState = true := by
    apply StateManager.allTasksInState_iff.mpr
    rw [hstates]
    intro u hu
    rw [OrdMap.mem_keys_iff, h.isSome_find? u] at hu
    have hut : u = t := by simpa using hu
    rw [hut, hrecord]
  have hcheck : Reaches (step subs) s' _ := waiting_check () hpc
  rw [if_pos hall] at hcheck
  exact ⟨_, hreach.trans hcheck, by simp, hcur⟩

/-- A demand of a single task that is disturbed at its call can return true although the task is in
another state. -/
theorem Consistent.disturbed_returns (h : Consistent mgr (fun u => decide (u ∈ [t])) s)
    (hw : Wired subs mgr) (htmgr : t ≠ mgr) (hctl : s.controller () = .setTarget newState)
    (hstays : ¬s.Stays newState t) :
    ∃ s', Reaches (step subs) s s' ∧ s'.controller () = .returned newState true ∧
      s'.currentState t ≠ newState := by
  have ht : t ∈ [t] := List.mem_singleton_self t
  obtain ⟨s₁, hs₁, -⟩ := h.finish hctl t
  have h₁ := h.reaches hw hs₁.reaches
  have hstays₁ : ¬s₁.Stays newState t := by
    have htaken := h.takenStates_drop h₁ ht htmgr hs₁.written hs₁.applied
    have hpending := hs₁.pendingCommands_eq hw h htmgr
    rw [List.append_nil, List.length_nil, List.drop_zero] at htaken
    rw [List.nil_append] at hpending
    rwa [Stays, htaken, ← hpending, h₁.state, hs₁.applied, List.append_nil, ← h.state]
  obtain ⟨s₂, a, hs₂, hmem, hcur⟩ :=
    leave_state hw ht htmgr _ s₁ h₁ hs₁.sub hs₁.controller rfl hstays₁
  have h₂ := h₁.reaches hw hs₂.reaches
  obtain ⟨s₃, w, hs₃, hrecord, hcur₃⟩ :=
    record_state hw ht htmgr _ s₂ h₂ hs₂.sub hs₂.controller rfl hmem hcur
  have h₃ := h₂.reaches hw hs₃.reaches
  obtain ⟨s', hs', hreturn, hcur'⟩ := h₃.demand_returns hs₃.sub hs₃.controller hrecord
  have hreach := hs₁.reaches.trans (hs₂.reaches.trans (hs₃.reaches.trans hs'))
  exact ⟨s', hreach, hreturn, by rwa [hcur']⟩

/-- In every run in which each demand is undisturbed at its call, when `demand_state_transition`
returns true every registered task is in the demanded state.  With one registered task the condition
is exact: a demand that begins disturbed can return true in another state of the task. -/
theorem demand_sound {currentState targetState : TaskState} (hw : Wired subs mgr)
    (hmgr : mgr ∉ tasks) {es : List (ProtocolEvent Unit τ)}
    (hrun : run (step subs) (start mgr tasks currentState targetState) es = some s) :
    (Along (step subs) (Undisturbed tasks) (start mgr tasks currentState targetState) es →
      ∀ newState, s.controller () = .returned newState true →
        ∀ t ∈ tasks, s.currentState t = newState) ∧
    ∀ t newState s₁, tasks = [t] → ¬s.Stays newState t →
      step subs s (.demandStateTransition () newState) = some s₁ →
        ∃ s', Reaches (step subs) s₁ s' ∧ s'.controller () = .returned newState true ∧
          s'.currentState t ≠ newState := by
  refine ⟨fun hes newState hreturn => undisturbed_sound hw hmgr hrun hes hreturn, ?_⟩
  rintro t newState s₁ rfl hstays hstep
  have htmgr : t ≠ mgr := fun heq => hmgr (by simp [heq])
  have h₁ := (reaches_consistent hw ⟨es, hrun⟩).reaches hw (Reaches.single hstep)
  simp only [step] at hstep
  split at hstep
  · obtain rfl := Option.some.inj hstep
    exact h₁.disturbed_returns hw htmgr (by simp) hstays
  · cases hstep

/-- A request for RUNNING is still unheard when a demand for IDLE begins and succeeds. -/
def demandBehindRequest : List (ProtocolEvent Unit ℕ) :=
  [.requestStateTransition () .running, .control (), .control (), .deliver, .deliver,
    .demandStateTransition () .idle, .control (), .control (), .control (), .deliver, .deliver,
    .dequeue 1, .process 1, .process 1, .deliver, .deliver,
    .dequeue 1, .process 1, .process 1, .deliver, .deliver,
    .dequeue 0, .process 0, .dequeue 0, .process 0, .control (), .control (), .control ()]

theorem demand_sound_behind_request : ∃ s : ProtocolSystem Unit ℕ,
    run (step (wiring 0 [1])) (start 0 [1] .notStarted .notStarted) demandBehindRequest =
      some s ∧
    s.controller () = .returned .idle true ∧ s.currentState 1 = .idle := by
  obtain ⟨s, hrun, hreturn⟩ : ∃ s : ProtocolSystem Unit ℕ,
      run (step (wiring 0 [1])) (start 0 [1] .notStarted .notStarted) demandBehindRequest =
        some s ∧ s.controller () = .returned .idle true := ⟨_, rfl, rfl⟩
  have hes : Along (step (wiring 0 [1])) (Undisturbed [1])
      (start 0 [1] .notStarted .notStarted) demandBehindRequest := by decide +kernel
  have hsound := (demand_sound (wiring_wired 0 (by decide)) (by decide) hrun).1 hes .idle hreturn
  exact ⟨s, hrun, hreturn, hsound 1 (by decide)⟩

/-- After a demand for IDLE has succeeded, RUNNING is requested and applied, but not yet
acknowledged, when IDLE is demanded again. -/
def demandOverRequest : List (ProtocolEvent Unit ℕ) :=
  [.demandStateTransition () .idle, .control (), .control (), .control (), .deliver, .deliver,
    .dequeue 1, .process 1, .process 1, .deliver, .deliver, .dequeue 0, .process 0,
    .control (), .control (), .control (), .control (),
    .requestStateTransition () .running, .control (), .control (), .deliver, .deliver,
    .dequeue 1, .process 1,
    .demandStateTransition () .idle, .control (), .control (), .control (), .deliver, .deliver,
    .control (), .control (), .control ()]

/-- The old record satisfies the second demand, and the task is RUNNING. -/
theorem old_record_satisfies_demand : ∃ s : ProtocolSystem Unit ℕ,
    run (step (wiring 0 [1])) (start 0 [1] .notStarted .notStarted) demandOverRequest = some s ∧
    s.controller () = .returned .idle true ∧ s.currentState 1 = .running :=
  ⟨_, rfl, rfl, rfl⟩

end ProtocolSystem

end Protocore
