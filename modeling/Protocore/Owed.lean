import Protocore.Convergence
import Mathlib.Algebra.BigOperators.Group.List.Basic
import Mathlib.Algebra.GroupWithZero.Nat

/-! # The acknowledgments the tasks owe

`potential` counts the messages in the manager's queue, the acknowledgments that tasks still owe for
commands they have received, and the commands still to be delivered by the one call in progress.
`moves_potential`: no step of the exchange adds to it, and only the manager takes from it.

`labour` measures the steps that the tasks and the call can take while the manager takes none.  Each
of them lowers it, or is one more delivery of a broadcast; where no such step is left, nothing is
owed any more. -/

namespace Protocore

variable {κ τ : Type} [DecidableEq κ] [LinearOrder τ]

namespace ProtocolSystem

/-! ### What the tasks owe -/

section defs

variable (subs : MsgType → List τ) (tasks : List τ) (c : κ)

/-- The commands a task has received and whose acknowledgment has not reached the manager. -/
def owedBy (s : ProtocolSystem κ τ) (t : τ) : ℕ :=
  (s.unpublished t).length + (s.commandInHand t).length + (s.commandsQueued t).length

def owed (s : ProtocolSystem κ τ) : ℕ := (tasks.map s.owedBy).sum

/-- The call has not begun to publish its command. -/
def ahead : ControlPc τ → Bool
  | .setTarget _ => true
  | .transition _ _ => true
  | .publish _ _ => true
  | _ => false

/-- The commands a broadcast has still to deliver. -/
def commandsLeft : Option (Delivery κ τ) → ℕ
  | some ⟨.controller _, _, rest⟩ => rest.length
  | _ => 0

/-- The commands of the call of `c` that are still to be delivered. -/
def undelivered (s : ProtocolSystem κ τ) : ℕ :=
  (if ahead (s.controller c) then (subs .stateMsg).length else 0) + commandsLeft s.sub

/-- All acknowledgments that are in the manager's queue or can still come there. -/
def potential (s : ProtocolSystem κ τ) : ℕ :=
  (s.queue s.manager.self).length + s.owed tasks + s.undelivered subs c

/-- No call of `request_state_transition` or `demand_state_transition` begins. -/
def Processing : ProtocolEvent κ τ → Prop
  | .requestStateTransition _ _ => False
  | .demandStateTransition _ _ => False
  | _ => True

end defs

/-- The registered tasks are the ones that hear the commands, and the manager is not among them. -/
structure Roster (subs : MsgType → List τ) (mgr : τ) (tasks : List τ) : Prop
    extends Wired subs mgr where
  commands : (subs .stateMsg).Perm tasks
  notMem : mgr ∉ tasks

/-- Commands go to registered tasks only. -/
structure Addressed (mgr : τ) (tasks : List τ) (s : ProtocolSystem κ τ) : Prop where
  consistent : Consistent mgr (fun t => decide (t ∈ tasks)) s
  sub_tasks : ∀ c msg rest, s.sub = some ⟨.controller c, msg, rest⟩ → ∀ x ∈ rest, x ∈ tasks
  commanded_nil : ∀ t, t ∉ tasks → s.commanded t = []

variable {subs : MsgType → List τ} {mgr : τ} {tasks : List τ} {s s' : ProtocolSystem κ τ}

omit [LinearOrder τ] in
theorem Roster.nodup_tasks (hr : Roster subs mgr tasks) : tasks.Nodup :=
  hr.commands.nodup_iff.mp (hr.nodup .stateMsg)

theorem moves_addressed (hr : Roster subs mgr tasks) {e : ProtocolEvent κ τ}
    (h : Addressed mgr tasks s) (hm : Moves subs s e s') : Addressed mgr tasks s' := by
  refine ⟨moves_consistent hr.toWired h.consistent hm, ?_, ?_⟩
  · cases hm with
    | publish _ _ =>
        intro c msg rest hsub x hx
        cases hsub
        exact hr.commands.mem_iff.mp hx
    | announce _ _ => nofun
    | deliver hsub =>
        intro c msg rest hsub' x hx
        cases hsub'
        exact h.sub_tasks _ _ _ hsub x (List.mem_cons_of_mem _ hx)
    | commanded _ _ _ => nofun
    | acknowledged _ => nofun
    | _ => exact h.sub_tasks
  · cases hm with
    | @deliver p msg x rest hsub =>
        intro t ht
        show Function.update s.commanded x _ t = []
        by_cases htx : t = x
        · subst htx
          cases p with
          | controller c => exact absurd (h.sub_tasks _ _ _ hsub t List.mem_cons_self) ht
          | task u =>
              obtain ⟨-, rfl, -⟩ := h.consistent.sub_task u msg _ hsub
              rw [Function.update_self, h.commanded_nil t ht]
              rfl
        · rw [Function.update_of_ne htx]
          exact h.commanded_nil t ht
    | _ => exact h.commanded_nil

omit [DecidableEq κ] in
/-- What a task owes is what it was commanded and has not acknowledged. -/
theorem Addressed.owedBy_eq (h : Addressed mgr tasks s) {t : τ} (ht : t ≠ mgr) :
    (s.published t).length + s.owedBy t = (s.commanded t).length := by
  rw [← h.consistent.commands t ht, ← h.consistent.publishes t ht]
  simp only [List.length_append, owedBy]
  omega

omit [DecidableEq κ] in
theorem Addressed.owed_congr (hr : Roster subs mgr tasks) (h : Addressed mgr tasks s)
    (h' : Addressed mgr tasks s') (hc : s'.commanded = s.commanded)
    (hp : s'.published = s.published) : s'.owed tasks = s.owed tasks := by
  unfold owed
  congr 1
  apply List.map_congr_left
  intro t ht
  have htm : t ≠ mgr := fun he => hr.notMem (he ▸ ht)
  have h₁ := h.owedBy_eq htm
  have h₂ := h'.owedBy_eq htm
  rw [hc, hp] at h₂
  omega

omit [DecidableEq κ] in
/-- An acknowledgment on its way to the manager is owed by a registered task. -/
theorem Addressed.owedBy_pos (h : Addressed mgr tasks s) {u : τ} {msg : Msg τ} {rest : List τ}
    (hsub : s.sub = some ⟨.task u, msg, rest⟩) (hmgr : mgr ∈ rest) :
    u ∈ tasks ∧ u ≠ mgr ∧ 0 < s.owedBy u := by
  obtain ⟨hpc, -, -⟩ := h.consistent.sub_task u msg rest hsub
  have hu : u ≠ mgr := by
    rintro rfl
    exact h.consistent.manager_idle.2 hpc
  have hun : s.unpublished u = [s.currentState u] := by
    simp [unpublished, hpc, hsub, h.consistent.self_eq, hmgr]
  have hpos : 0 < s.owedBy u := by
    rw [owedBy, hun, List.length_singleton]
    omega
  refine ⟨?_, hu, hpos⟩
  by_contra hnot
  have heq := h.owedBy_eq hu
  rw [h.commanded_nil u hnot, List.length_nil] at heq
  omega

/-! ### The potential -/

omit [LinearOrder τ] in
theorem sum_map_of_eq_off [DecidableEq τ] {f g : τ → ℕ} {t : τ} (hnd : tasks.Nodup) (ht : t ∈ tasks)
    (h : ∀ u ∈ tasks, u ≠ t → g u = f u) :
    (tasks.map g).sum + f t = (tasks.map f).sum + g t := by
  have hrest : (tasks.erase t).map g = (tasks.erase t).map f := by
    apply List.map_congr_left
    intro u hu
    exact h u (List.mem_of_mem_erase hu) (fun he => hnd.not_mem_erase (he ▸ hu))
  rw [← List.sum_map_erase g ht, ← List.sum_map_erase f ht, hrest]
  omega

variable {c : κ}

theorem undelivered_update {c' : κ} {pc : ControlPc τ} (manager : StateManager τ)
    (ha : ahead pc = ahead (s.controller c')) :
    undelivered subs c { s with
      manager := manager
      controller := Function.update s.controller c' pc } = s.undelivered subs c := by
  unfold undelivered
  by_cases hc : c = c'
  · subst hc
    simp only [Function.update_self, ha]
  · simp only [Function.update_of_ne hc]

omit [DecidableEq κ] in
theorem Addressed.potential_congr (hr : Roster subs mgr tasks) (h : Addressed mgr tasks s)
    (h' : Addressed mgr tasks s') (hq : s'.queue mgr = s.queue mgr)
    (hc : s'.commanded = s.commanded) (hp : s'.published = s.published)
    (hu : s'.undelivered subs c = s.undelivered subs c) :
    s'.potential subs tasks c = s.potential subs tasks c := by
  unfold potential
  rw [h.consistent.self_eq, h'.consistent.self_eq, hq, h.owed_congr hr h' hc hp, hu]

theorem Addressed.potential_command (hr : Roster subs mgr tasks) (h : Addressed mgr tasks s)
    {c' : κ} {msg : Msg τ} {x : τ} {rest : List τ}
    (hsub : s.sub = some ⟨.controller c', msg, x :: rest⟩) (hm : Moves subs s .deliver s')
    (hs' : s' = { s with
      queue := Function.update s.queue x (s.queue x ++ [msg])
      sub := some ⟨.controller c', msg, rest⟩
      commanded := Function.update s.commanded x (s.commanded x ++ (commandOf msg).toList)
      published := if x = s.manager.self then
          fun t => s.published t ++ (ackOf t msg).toList
        else s.published }) :
    s'.potential subs tasks c = s.potential subs tasks c := by
  have h' := moves_addressed hr h hm
  have hx : x ∈ tasks := h.sub_tasks _ _ _ hsub x List.mem_cons_self
  have hne : ∀ u ∈ tasks, u ≠ mgr := fun u hu he => hr.notMem (he ▸ hu)
  have hself : x ≠ s.manager.self := by
    rw [h.consistent.self_eq]
    exact hne x hx
  obtain ⟨newState, demand, -, rfl⟩ := h.consistent.sub_controller c' msg _ hsub
  have hpub : s'.published = s.published := by
    rw [hs']
    exact if_neg hself
  have hold : ∀ u ∈ tasks, u ≠ x → s'.owedBy u = s.owedBy u := by
    intro u hu hux
    have h₁ := h.owedBy_eq (hne u hu)
    have h₂ := h'.owedBy_eq (hne u hu)
    have hcmd : s'.commanded u = s.commanded u := by
      rw [hs']
      exact Function.update_of_ne hux ..
    rw [hpub, hcmd] at h₂
    omega
  have hnew : s'.owedBy x = s.owedBy x + 1 := by
    have h₁ := h.owedBy_eq (hne x hx)
    have h₂ := h'.owedBy_eq (hne x hx)
    have hcmd : (s'.commanded x).length = (s.commanded x).length + 1 := by
      rw [hs']
      simp [commandOf]
    rw [hpub, hcmd] at h₂
    omega
  have hsum := sum_map_of_eq_off hr.nodup_tasks hx hold
  have hqueue : s'.queue mgr = s.queue mgr := by
    rw [hs']
    exact Function.update_of_ne (hne x hx).symm ..
  have hleft : s.undelivered subs c = s'.undelivered subs c + 1 := by
    rw [hs']
    simp only [undelivered, commandsLeft, hsub, List.length_cons]
    omega
  unfold potential owed
  rw [h.consistent.self_eq, h'.consistent.self_eq, hqueue]
  omega

theorem Addressed.potential_ack (hr : Roster subs mgr tasks) (h : Addressed mgr tasks s)
    {u : τ} {msg : Msg τ} {x : τ} {rest : List τ}
    (hsub : s.sub = some ⟨.task u, msg, x :: rest⟩) (hm : Moves subs s .deliver s')
    (hs' : s' = { s with
      queue := Function.update s.queue x (s.queue x ++ [msg])
      sub := some ⟨.task u, msg, rest⟩
      commanded := Function.update s.commanded x (s.commanded x ++ (commandOf msg).toList)
      published := if x = s.manager.self then
          fun t => s.published t ++ (ackOf t msg).toList
        else s.published }) :
    s'.potential subs tasks c = s.potential subs tasks c := by
  have h' := moves_addressed hr h hm
  obtain ⟨-, rfl, -⟩ := h.consistent.sub_task u msg _ hsub
  have hcmd : s'.commanded = s.commanded := by
    rw [hs']
    simp [commandOf, ackMsg]
  have hleft : s'.undelivered subs c = s.undelivered subs c := by
    rw [hs']
    simp only [undelivered, commandsLeft, hsub]
  by_cases hx : x = mgr
  · subst hx
    obtain ⟨hu, hum, -⟩ := h.owedBy_pos hsub List.mem_cons_self
    have hpub : ∀ t, s'.published t =
        s.published t ++ (ackOf t (ackMsg u (s.currentState u))).toList := by
      intro t
      rw [hs']
      simp only [h.consistent.self_eq, if_true]
    have howed : ∀ t, t ≠ x → (s.published t).length + s.owedBy t =
        (s'.published t).length + s'.owedBy t := by
      intro t ht
      rw [h.owedBy_eq ht, h'.owedBy_eq ht, hcmd]
    have hold : ∀ t ∈ tasks, t ≠ u → s'.owedBy t = s.owedBy t := by
      intro t ht htu
      have heq := howed t (fun he => hr.notMem (he ▸ ht))
      have hnone : ackOf t (ackMsg u (s.currentState u)) = none := by
        simp [ackOf, ackMsg, Ne.symm htu]
      rw [hpub t, hnone, Option.toList_none, List.append_nil] at heq
      omega
    have hnew : s.owedBy u = s'.owedBy u + 1 := by
      have heq := howed u hum
      rw [hpub u] at heq
      simp only [ackOf, ackMsg, if_true, Option.toList_some, List.length_append,
        List.length_singleton] at heq
      omega
    have hsum := sum_map_of_eq_off hr.nodup_tasks hu hold
    have hqueue : (s'.queue x).length = (s.queue x).length + 1 := by
      rw [hs']
      simp
    unfold potential owed
    rw [h.consistent.self_eq, h'.consistent.self_eq, hqueue]
    omega
  · refine h.potential_congr hr h' ?_ hcmd ?_ hleft
    · rw [hs']
      exact Function.update_of_ne (Ne.symm hx) ..
    · rw [hs']
      exact if_neg (h.consistent.self_eq ▸ hx)

/-- `c` is the only thread inside a call. -/
def Alone (c : κ) (s : ProtocolSystem κ τ) : Prop := ∀ c', c' ≠ c → s.controller c' = .idle

theorem moves_alone {e : ProtocolEvent κ τ} (hcons : Consistent mgr (fun t => decide (t ∈ tasks)) s)
    (h : Alone c s) (he : Processing e) (hm : Moves subs s e s') : Alone c s' := by
  have hkeep : ∀ {c' : κ} {pc : ControlPc τ}, s.controller c' ≠ .idle → ∀ c₁, c₁ ≠ c →
      Function.update s.controller c' pc c₁ = .idle := by
    intro c' pc hpc c₁ hc₁
    have hne : c₁ ≠ c' := fun heq => hpc (heq ▸ h c₁ hc₁)
    rw [Function.update_of_ne hne]
    exact h c₁ hc₁
  cases hm with
  | request _ => exact he.elim
  | demand _ => exact he.elim
  | setTarget hpc => exact hkeep (by simp [hpc])
  | transition hpc => exact hkeep (by simp [hpc])
  | publish hpc _ => exact hkeep (by simp [hpc])
  | check hpc => exact hkeep (by simp [hpc])
  | pass hpc _ => exact hkeep (by simp [hpc])
  | miss hpc _ => exact hkeep (by simp [hpc])
  | succeed hpc => exact hkeep (by simp [hpc])
  | leave hpc => exact hkeep (by simp [hpc])
  | commanded hsub _ _ =>
      obtain ⟨newState, demand, hpc, -⟩ := hcons.sub_controller _ _ _ hsub
      exact hkeep (by simp [hpc])
  | _ => exact h

/-- A step of the exchange keeps the potential, unless the manager takes a message. -/
theorem moves_potential (hr : Roster subs mgr tasks) {e : ProtocolEvent κ τ}
    (h : Addressed mgr tasks s) (halone : Alone c s) (he : Processing e)
    (ho : ∀ msg, e ≠ .other mgr msg) (hm : Moves subs s e s') :
    s'.potential subs tasks c ≤ s.potential subs tasks c ∧
      (e ≠ .dequeue mgr → s'.potential subs tasks c = s.potential subs tasks c) := by
  have h' := moves_addressed hr h hm
  have hkept : s'.potential subs tasks c = s.potential subs tasks c →
      s'.potential subs tasks c ≤ s.potential subs tasks c ∧
        (e ≠ .dequeue mgr → s'.potential subs tasks c = s.potential subs tasks c) :=
    fun heq => ⟨heq.le, fun _ => heq⟩
  -- most steps leave all that the potential counts alone
  have hframe : s'.queue mgr = s.queue mgr → s'.commanded = s.commanded →
      s'.published = s.published → s'.undelivered subs c = s.undelivered subs c →
        s'.potential subs tasks c ≤ s.potential subs tasks c ∧
          (e ≠ .dequeue mgr → s'.potential subs tasks c = s.potential subs tasks c) :=
    fun hq hcmd hpub hu => hkept (h.potential_congr hr h' hq hcmd hpub hu)
  cases hm with
  | request _ => exact he.elim
  | demand _ => exact he.elim
  | setTarget hpc =>
      exact hframe rfl rfl rfl (undelivered_update _ (by rw [hpc]; rfl))
  | transition hpc =>
      exact hframe rfl rfl rfl (undelivered_update _ (by rw [hpc]; rfl))
  | @publish c' newState demand hpc hfree =>
      obtain rfl : c' = c := by
        by_contra hne
        rw [halone c' hne] at hpc
        cases hpc
      refine hframe rfl rfl rfl ?_
      simp [undelivered, ahead, commandsLeft, hpc, hfree]
  | check hpc =>
      exact hframe rfl rfl rfl (undelivered_update _ (by rw [hpc]; rfl))
  | pass hpc _ =>
      exact hframe rfl rfl rfl (undelivered_update _ (by rw [hpc]; rfl))
  | @miss c' newState t rest timedOut hpc _ =>
      refine hframe rfl rfl rfl (undelivered_update _ ?_)
      rw [hpc]
      cases timedOut <;> rfl
  | succeed hpc =>
      exact hframe rfl rfl rfl (undelivered_update _ (by rw [hpc]; rfl))
  | leave hpc =>
      exact hframe rfl rfl rfl (undelivered_update _ (by rw [hpc]; rfl))
  | @dequeue x msg rest hpc hpop =>
      by_cases hx : x = mgr
      · subst hx
        have howed := h.owed_congr hr h' rfl rfl
        have hlen := (StableQueue.pop_perm _ hpop).length_eq
        rw [List.length_cons] at hlen
        refine ⟨?_, fun hne => absurd rfl hne⟩
        simp only [potential, h.consistent.self_eq, howed, Function.update_self]
        exact Nat.add_le_add_right (by omega) _
      · exact hframe (Function.update_of_ne (Ne.symm hx) ..) rfl rfl rfl
  | record _ _ => exact hframe rfl rfl rfl rfl
  | ignore _ _ => exact hframe rfl rfl rfl rfl
  | apply _ _ _ => exact hframe rfl rfl rfl rfl
  | skip _ _ _ => exact hframe rfl rfl rfl rfl
  | announce _ hfree =>
      refine hframe rfl rfl rfl ?_
      simp only [undelivered, commandsLeft, hfree]
  | @deliver p msg x rest hsub =>
      cases p with
      | controller c' => exact hkept (h.potential_command hr hsub (.deliver hsub) rfl)
      | task u => exact hkept (h.potential_ack hr hsub (.deliver hsub) rfl)
  | @commanded c' msg pc hsub hpc hpc' =>
      obtain ⟨newState, demand, hcall, -⟩ := h.consistent.sub_controller _ _ _ hsub
      refine hframe rfl rfl rfl ?_
      have ha : ahead pc = ahead (s.controller c') := by
        rw [hcall]
        rcases hpc' with rfl | ⟨newState', hcall'⟩
        · rfl
        · rw [hpc newState' hcall']
          rfl
      have hu : undelivered subs c { s with controller := Function.update s.controller c' pc } =
          s.undelivered subs c := undelivered_update s.manager ha
      rw [← hu]
      simp only [undelivered, commandsLeft, hsub, List.length_nil]
  | acknowledged hsub =>
      refine hframe rfl rfl rfl ?_
      simp only [undelivered, commandsLeft, hsub]
  | @other x msg _ _ =>
      have hx : mgr ≠ x := fun heq => ho msg (by rw [heq])
      exact hframe (Function.update_of_ne hx ..) rfl rfl rfl

/-! ### What the steps do to the manager's list -/

theorem step_deliver (h : step subs s .deliver = some s') :
    (∃ p msg x rest, s.sub = some ⟨p, msg, x :: rest⟩ ∧
      s'.queue = Function.update s.queue x (s.queue x ++ [msg])) ∨
    ((∃ p msg, s.sub = some ⟨p, msg, []⟩) ∧ s'.queue = s.queue) := by
  simp only [step] at h
  unfold deliverStep at h
  split at h
  · cases h
  · rename_i p msg x rest hsub
    obtain rfl := Option.some.inj h
    exact .inl ⟨p, msg, x, rest, hsub, rfl⟩
  · rename_i c msg hsub
    obtain rfl := Option.some.inj h
    exact .inr ⟨⟨_, msg, hsub⟩, rfl⟩
  · rename_i t msg hsub
    obtain rfl := Option.some.inj h
    exact .inr ⟨⟨_, msg, hsub⟩, rfl⟩

theorem step_dequeue {x : τ} (h : step subs s (.dequeue x) = some s') :
    (∃ msg rest, (s.queue x).Perm (msg :: rest) ∧ s'.queue = Function.update s.queue x rest) ∧
      s'.sub = s.sub := by
  simp only [step] at h
  split at h
  · split at h
    · rename_i msg rest hpop
      obtain rfl := Option.some.inj h
      exact ⟨⟨msg, rest, StableQueue.pop_perm _ hpop, rfl⟩, rfl⟩
    · cases h
  · cases h

/-- The other steps leave the manager's list alone and do not interrupt a broadcast. -/
theorem moves_undisturbed {e : ProtocolEvent κ τ} (hm : Moves subs s e s') (hd : e ≠ .deliver)
    (hdq : e ≠ .dequeue mgr) (ho : ∀ msg, e ≠ .other mgr msg) :
    s'.queue mgr = s.queue mgr ∧ (s.sub = none ∨ s'.sub = s.sub) := by
  cases hm with
  | publish _ hfree => exact ⟨rfl, .inl hfree⟩
  | announce _ hfree => exact ⟨rfl, .inl hfree⟩
  | @dequeue x msg rest _ _ =>
      exact ⟨Function.update_of_ne (fun he => hdq (by rw [he])) .., .inr rfl⟩
  | deliver _ => exact absurd rfl hd
  | commanded _ _ _ => exact absurd rfl hd
  | acknowledged _ => exact absurd rfl hd
  | @other x msg _ _ =>
      exact ⟨Function.update_of_ne (fun he => ho msg (by rw [he])) .., .inr rfl⟩
  | _ => exact ⟨rfl, .inr rfl⟩

/-! ### A schedule without the manager -/

section labour

variable (subs tasks c)

/-- The steps a thread has before it until it waits for the broadcast of its acknowledgment or for
the next message. -/
def threadRank : ThreadPc τ → ℕ
  | .handling msg => if (commandOf msg).isSome then 2 else 1
  | .announce => 1
  | _ => 0

def work (s : ProtocolSystem κ τ) (t : τ) : ℕ :=
  3 * (s.commandsQueued t).length + threadRank (s.thread t)

/-- The steps of a call before its broadcast. -/
def callRank : ControlPc τ → ℕ
  | .setTarget _ => 3
  | .transition _ _ => 2
  | .publish _ _ => 1
  | _ => 0

/-- The work before the tasks and the call. -/
def labour (s : ProtocolSystem κ τ) : ℕ :=
  callRank (s.controller c) + 4 * s.undelivered subs c + (tasks.map s.work).sum

/-- The steps left to the broadcast in progress. -/
def deliveriesLeft : Option (Delivery κ τ) → ℕ
  | some d => d.rest.length + 1
  | none => 0

end labour

omit [DecidableEq κ] in
theorem labour_lt_of_work (hnd : tasks.Nodup) {t : τ} (ht : t ∈ tasks)
    (hcall : s'.controller c = s.controller c) (hleft : commandsLeft s'.sub = commandsLeft s.sub)
    (hold : ∀ u ∈ tasks, u ≠ t → s'.work u = s.work u) (hlt : s'.work t < s.work t) :
    s'.labour subs tasks c < s.labour subs tasks c := by
  have hsum := sum_map_of_eq_off hnd ht hold
  unfold labour undelivered
  rw [hcall, hleft]
  omega

theorem task_step (hr : Roster subs mgr tasks) (h : Addressed mgr tasks s) (hsub : s.sub = none)
    {t : τ} (ht : t ∈ tasks) (hw : s.work t ≠ 0) : ∃ e s', (e = .process t ∨ e = .dequeue t) ∧
      step subs s e = some s' ∧ s'.labour subs tasks c < s.labour subs tasks c := by
  have htm : t ≠ s.manager.self := by
    rw [h.consistent.self_eq]
    exact fun he => hr.notMem (he ▸ ht)
  have hthread : ∀ {pc : ThreadPc τ} {u : τ}, u ≠ t →
      threadRank (Function.update s.thread t pc u) = threadRank (s.thread u) :=
    fun hu => by rw [Function.update_of_ne hu]
  cases hpc : s.thread t with
  | idle =>
      have hne : (s.queue t).filterMap commandOf ≠ [] := by
        intro hnil
        simp [work, commandsQueued, hnil, hpc, threadRank] at hw
      obtain ⟨msg, rest, state, hpop, hcmd⟩ := pop_command hne
      have hqueued := StableQueue.filterMap_pop _ hpop priority_of_commandOf
      refine ⟨.dequeue t, _, .inr rfl, by simp only [step, hpc, hpop]; rfl, ?_⟩
      refine labour_lt_of_work hr.nodup_tasks ht ?_ ?_ ?_ ?_
      · rfl
      · rfl
      · intro u _ hu
        simp only [work, commandsQueued, Function.update_of_ne hu]
      · simp only [work, commandsQueued, Function.update_self, hpc, threadRank, hqueued, hcmd,
          Option.isSome_some, if_true, Option.toList_some, List.length_append, List.length_singleton]
        omega
  | handling msg =>
      cases hcmd : commandOf msg with
      | none =>
          have hdata : ∀ m, msg.msgData ≠ .stateMsg m := by
            intro m hm
            simp [commandOf, hm] at hcmd
          refine ⟨.process t, { s with thread := Function.update s.thread t .idle }, .inl rfl, ?_, ?_⟩
          · simp only [step, processStep, hpc, if_neg htm]
          · refine labour_lt_of_work hr.nodup_tasks ht rfl rfl ?_ ?_
            · intro u _ hu
              simp only [work, hthread hu]
              rfl
            · simp only [work, Function.update_self, hpc, threadRank, hcmd]
              exact Nat.lt_succ_self _
      | some state =>
          obtain ⟨m, hm⟩ : ∃ m, msg.msgData = .stateMsg m := by
            unfold commandOf at hcmd
            split at hcmd
            · rename_i m hm
              exact ⟨m, hm⟩
            · cases hcmd
          refine ⟨.process t, _, .inl rfl, by simp only [step, processStep, hpc, if_neg htm, hm]; rfl,
            ?_⟩
          refine labour_lt_of_work hr.nodup_tasks ht ?_ ?_ ?_ ?_
          · rfl
          · rfl
          · intro u _ hu
            simp only [work, hthread hu]
            rfl
          · simp only [work, Function.update_self, hpc, threadRank, hcmd]
            exact Nat.lt_succ_self _
  | announce =>
      refine ⟨.process t, _, .inl rfl, by simp only [step, processStep, hpc, hsub]; rfl, ?_⟩
      refine labour_lt_of_work hr.nodup_tasks ht ?_ ?_ ?_ ?_
      · rfl
      · simp only [commandsLeft, hsub]
      · intro u _ hu
        simp only [work, hthread hu]
        rfl
      · simp only [work, Function.update_self, hpc, threadRank]
        exact Nat.lt_succ_self _
  | publishing =>
      obtain ⟨msg, rest, hsome⟩ := h.consistent.publishing t hpc
      rw [hsub] at hsome
      cases hsome

variable (tasks) in
theorem call_step (hsub : s.sub = none) (ha : ahead (s.controller c) = true) :
    ∃ s', step subs s (.control c) = some s' ∧
      s'.labour subs tasks c < s.labour subs tasks c := by
  have hwork : ∀ s' : ProtocolSystem κ τ, s'.queue = s.queue → s'.thread = s.thread →
      s'.work = s.work := by
    intro s' hq ht
    funext t
    simp only [work, commandsQueued, hq, ht]
  cases hpc : s.controller c with
  | setTarget newState =>
      refine ⟨_, by simp only [step, controlStep, hpc]; rfl, ?_⟩
      simp only [labour, undelivered, ahead, callRank, Function.update_self, hpc, if_true]
      rw [hwork]
      · omega
      · rfl
      · rfl
  | transition newState demand =>
      refine ⟨_, by simp only [step, controlStep, hpc]; rfl, ?_⟩
      simp only [labour, undelivered, ahead, callRank, Function.update_self, hpc, if_true]
      rw [hwork]
      · omega
      · rfl
      · rfl
  | publish newState demand =>
      refine ⟨_, by simp only [step, controlStep, hpc, hsub]; rfl, ?_⟩
      simp only [labour, undelivered, ahead, commandsLeft, callRank, Function.update_self, hpc, hsub,
        Bool.false_eq_true, if_true, if_false]
      rw [hwork]
      · omega
      · rfl
      · rfl
  | _ =>
      rw [hpc] at ha
      cases ha

omit [DecidableEq κ] in
theorem labour_congr (hrank : callRank (s'.controller c) = callRank (s.controller c))
    (hu : s'.undelivered subs c = s.undelivered subs c) (hw : ∀ t ∈ tasks, s'.work t = s.work t) :
    s'.labour subs tasks c = s.labour subs tasks c := by
  unfold labour
  rw [hrank, hu, List.map_congr_left hw]

theorem deliver_command (hr : Roster subs mgr tasks) (h : Addressed mgr tasks s) {c' : κ}
    {msg : Msg τ} {x : τ} {rest : List τ} (hsub : s.sub = some ⟨.controller c', msg, x :: rest⟩) :
    ∃ s', step subs s .deliver = some s' ∧
      s'.labour subs tasks c < s.labour subs tasks c := by
  have hx : x ∈ tasks := h.sub_tasks c' msg _ hsub x List.mem_cons_self
  obtain ⟨newState, demand, -, rfl⟩ := h.consistent.sub_controller c' msg _ hsub
  obtain ⟨s', hs', hcall, hsub', hthread, hqueue⟩ : ∃ s', step subs s .deliver = some s' ∧
      s'.controller = s.controller ∧ commandsLeft s'.sub = rest.length ∧ s'.thread = s.thread ∧
      s'.queue = Function.update s.queue x
        (s.queue x ++ [⟨some mgr, .stateMsg ⟨newState.toByte⟩⟩]) := by
    refine ⟨_, by simp only [step, deliverStep, hsub]; rfl, ?_, ?_, ?_, ?_⟩ <;> rfl
  refine ⟨s', hs', ?_⟩
  have hold : ∀ u ∈ tasks, u ≠ x → s'.work u = s.work u := by
    intro u _ hu
    simp only [work, commandsQueued, hthread, hqueue, Function.update_of_ne hu]
  have hnew : s'.work x = s.work x + 3 := by
    simp only [work, commandsQueued, hthread, hqueue, Function.update_self,
      StableQueue.filterMap_push, List.length_append]
    simp only [commandOf, Option.toList_some, List.length_singleton]
    omega
  have hsum := sum_map_of_eq_off hr.nodup_tasks hx hold
  have hleft : commandsLeft s.sub = rest.length + 1 := by
    rw [hsub]
    rfl
  unfold labour undelivered
  rw [hcall, hsub', hleft]
  omega

theorem deliver_ack (h : Addressed mgr tasks s) {u : τ} {msg : Msg τ} {x : τ} {rest : List τ}
    (hsub : s.sub = some ⟨.task u, msg, x :: rest⟩) :
    ∃ s', step subs s .deliver = some s' ∧
      s'.labour subs tasks c = s.labour subs tasks c ∧
        deliveriesLeft s'.sub < deliveriesLeft s.sub := by
  obtain ⟨-, rfl, -⟩ := h.consistent.sub_task u msg _ hsub
  refine ⟨_, by simp only [step, deliverStep, hsub]; rfl, labour_congr ?_ ?_ ?_, ?_⟩
  · rfl
  · simp only [undelivered, commandsLeft, hsub]
  · intro t _
    by_cases ht : t = x
    · subst ht
      have hnone : commandOf (ackMsg u (s.currentState u)) = none := rfl
      simp [work, commandsQueued, hnone]
    · simp only [work, commandsQueued, Function.update_of_ne ht]
  · simp [deliveriesLeft, hsub]

/-- The end of a broadcast lets its publisher go on, to wait. -/
theorem deliver_end (h : Addressed mgr tasks s) {p : Publisher κ τ} {msg : Msg τ}
    (hsub : s.sub = some ⟨p, msg, []⟩) : ∃ s', step subs s .deliver = some s' ∧
      s'.labour subs tasks c = s.labour subs tasks c ∧
        deliveriesLeft s'.sub < deliveriesLeft s.sub := by
  cases p with
  | controller c' =>
      obtain ⟨newState, demand, hcall, -⟩ := h.consistent.sub_controller c' msg _ hsub
      obtain ⟨pc, hpc⟩ : ∃ pc, step subs s .deliver = some { s with
          sub := none
          controller := Function.update s.controller c' pc } ∧ callRank pc = 0 ∧
            ahead pc = false := by
        cases demand with
        | true => exact ⟨.waiting newState, by simp only [step, deliverStep, hsub, hcall], rfl, rfl⟩
        | false => exact ⟨.idle, by simp only [step, deliverStep, hsub, hcall], rfl, rfl⟩
      obtain ⟨hstep, hrank, hahead⟩ := hpc
      refine ⟨_, hstep, labour_congr ?_ ?_ ?_, ?_⟩
      · by_cases hc : c = c'
        · subst hc
          rw [hcall]
          simp only [Function.update_self, hrank]
          rfl
        · simp only [Function.update_of_ne hc]
      · have hu : undelivered subs c { s with controller := Function.update s.controller c' pc } =
            s.undelivered subs c := undelivered_update s.manager (by rw [hahead, hcall]; rfl)
        rw [← hu]
        simp only [undelivered, commandsLeft, hsub, List.length_nil]
      · intro t _
        rfl
      · simp [deliveriesLeft, hsub]
  | task u =>
      obtain ⟨hpc, -, -⟩ := h.consistent.sub_task u msg _ hsub
      refine ⟨_, by simp only [step, deliverStep, hsub]; rfl, labour_congr ?_ ?_ ?_, ?_⟩
      · rfl
      · simp only [undelivered, commandsLeft, hsub]
      · intro t _
        by_cases ht : t = u
        · subst ht
          simp only [work, Function.update_self, hpc]
          rfl
        · simp only [work, Function.update_of_ne ht]
          rfl
      · simp [deliveriesLeft, hsub]

theorem deliver_step (hr : Roster subs mgr tasks) (h : Addressed mgr tasks s) {d : Delivery κ τ}
    (hsub : s.sub = some d) : ∃ s', step subs s .deliver = some s' ∧
      (s'.labour subs tasks c < s.labour subs tasks c ∨
        (s'.labour subs tasks c = s.labour subs tasks c ∧
          deliveriesLeft s'.sub < deliveriesLeft s.sub)) := by
  obtain ⟨p, msg, rest⟩ := d
  cases rest with
  | nil =>
      obtain ⟨s', hs', hlt⟩ := deliver_end h hsub
      exact ⟨s', hs', .inr hlt⟩
  | cons x rest =>
      cases p with
      | controller c' =>
          obtain ⟨s', hs', hlt⟩ := deliver_command hr h hsub
          exact ⟨s', hs', .inl hlt⟩
      | task u =>
          obtain ⟨s', hs', hlt⟩ := deliver_ack h hsub
          exact ⟨s', hs', .inr hlt⟩

omit [DecidableEq κ] in
/-- Where no step is left, nothing is owed. -/
theorem owed_eq_zero (hsub : s.sub = none) (hw : ∀ t ∈ tasks, s.work t = 0) :
    s.owed tasks = 0 := by
  apply List.sum_eq_zero
  intro n hn
  obtain ⟨t, ht, rfl⟩ := List.mem_map.mp hn
  have hzero := hw t ht
  unfold work at hzero
  have hqueued : (s.commandsQueued t).length = 0 := by omega
  have hrank : threadRank (s.thread t) = 0 := by omega
  unfold owedBy
  cases hpc : s.thread t with
  | idle => simp [unpublished, commandInHand, hpc, hqueued]
  | handling msg =>
      rw [hpc, threadRank] at hrank
      split_ifs at hrank
  | announce =>
      rw [hpc] at hrank
      cases hrank
  | publishing => simp [unpublished, commandInHand, hpc, hqueued, hsub]

end ProtocolSystem

end Protocore
