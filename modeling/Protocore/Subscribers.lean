import Protocore.Broker

/-! # The capacity of the subscriber lists

`Broker::initialize(n)` reserves `n` entries for each subscriber list, so that no allocation is made
later.  `subscribe` appends; it skips a task that is already listed, but it leaves the entries of
expired tasks where they are.  Only `publish` erases these, and only from the list of its own type.

`within_capacity_iff`: as long as no more than `n` subscribed tasks are alive at a time, the list stays
within `n` entries exactly when no task newly subscribes to a list that is full and holds an expired
entry. -/

namespace Protocore

namespace BrokerSystem

variable {τ : Type} [DecidableEq τ]

/-- The entries of the list whose tasks are alive. -/
def live (s : BrokerSystem τ) (type : MsgType) : List τ := (s.list type).filter s.alive

/-- The entries whose tasks have expired, and which no `publish` has erased. -/
def expired (s : BrokerSystem τ) (type : MsgType) : List τ :=
  (s.list type).filter (fun t => !s.alive t)

/-- `Broker::initialize(n)` at the start of the program. -/
def afterInitialize (n : ℕ) : BrokerSystem τ :=
  { init with broker := (init : BrokerSystem τ).broker.brokerInitialize n }

/-- A task that is not listed subscribes only if no expired entry is left in the list or the list, with
its expired entries, has room. -/
def Room (n : ℕ) (type : MsgType) (s : BrokerSystem τ) : BrokerEvent τ → Prop
  | .subscribe task ty =>
      ty = type → task ∉ s.list type → s.expired type = [] ∨ (s.list type).length < n
  | _ => True

instance decidableRoom (n : ℕ) (type : MsgType) (s : BrokerSystem τ) :
    ∀ e, Decidable (Room n type s e)
  | .subscribe task ty =>
      inferInstanceAs (Decidable (ty = type → task ∉ s.list type →
        s.expired type = [] ∨ (s.list type).length < n))
  | .brokerInitialize _ => isTrue trivial
  | .publish _ => isTrue trivial
  | .iterate => isTrue trivial
  | .finish => isTrue trivial
  | .expire _ => isTrue trivial

variable {s s' : BrokerSystem τ} {n : ℕ} {type : MsgType}

/-! ### What a step does to the length -/

/-- `subscribe` appends the task to the list unless it is there. -/
theorem subscribe_list {task : τ} {ty : MsgType} (hs : step s (.subscribe task ty) = some s') :
    s.alive task = true ∧ s'.alive = s.alive ∧
      s'.list ty = if task ∈ s.list ty then s.list ty else s.list ty ++ [task] := by
  simp only [step] at hs
  split at hs
  · rename_i hguard
    have hany : (s.broker.subscriberLists ty).any (fun wp => s.alive wp && decide (wp = task)) = true ↔
        task ∈ s.list ty := by
      rw [List.any_eq_true]
      constructor
      · rintro ⟨wp, hmem, hwp⟩
        rw [Bool.and_eq_true, decide_eq_true_eq] at hwp
        exact hwp.2 ▸ hmem
      · intro hmem
        exact ⟨task, hmem, by simp [hguard.2]⟩
    refine ⟨hguard.2, ?_⟩
    unfold Broker.subscribe at hs
    simp only [hany] at hs
    split_ifs at hs with hinit hmem
    · obtain rfl := Option.some.inj hs
      exact ⟨rfl, (if_pos hmem).symm⟩
    · obtain rfl := Option.some.inj hs
      refine ⟨rfl, ?_⟩
      rw [if_neg hmem]
      exact if_pos rfl
  · cases hs

theorem step_length_le {e : BrokerEvent τ} (hs : step s e = some s')
    (he : ∀ task, e ≠ .subscribe task type) : (s'.list type).length ≤ (s.list type).length := by
  cases step_moves hs with
  | @subscribe task ty hfree hnew =>
      have hty : type ≠ ty := by
        rintro rfl
        exact he task rfl
      simp only [list, setList_list, if_neg hty]
      exact le_rfl
  | @erase c t hp ht hal =>
      simp only [list, setList_list]
      split_ifs with hty
      · rw [hty]
        exact List.length_eraseIdx_le ..
      · exact le_rfl
  | _ => exact le_rfl

omit [DecidableEq τ] in
theorem live_eq_list (h : s.expired type = []) : s.live type = s.list type := by
  unfold expired at h
  rw [List.filter_eq_nil_iff] at h
  unfold live
  rw [List.filter_eq_self]
  intro t ht
  simpa using h t ht

theorem step_within_iff {e : BrokerEvent τ} (hlive : (s'.live type).length ≤ n)
    (hs : step s e = some s') (hlen : (s.list type).length ≤ n) :
    (s'.list type).length ≤ n ↔ Room n type s e := by
  by_cases he : ∃ task, e = .subscribe task type
  · obtain ⟨task, rfl⟩ := he
    obtain ⟨halive, hsame, hlist⟩ := subscribe_list hs
    by_cases hmem : task ∈ s.list type
    · rw [if_pos hmem] at hlist
      rw [hlist]
      exact ⟨fun _ _ hnew => absurd hmem hnew, fun _ => hlen⟩
    · rw [if_neg hmem] at hlist
      rw [hlist, List.length_append, List.length_singleton]
      constructor
      · intro hle _ _
        exact .inr hle
      · intro hroom
        rcases hroom rfl hmem with hexpired | hlt
        · have hall : (s'.live type).length = (s.list type).length + 1 := by
            unfold live
            rw [hlist, hsame, List.filter_append, List.length_append]
            have hold := live_eq_list hexpired
            unfold live at hold
            rw [hold]
            simp [halive]
          omega
        · exact hlt
  · have hle : (s'.list type).length ≤ (s.list type).length :=
      step_length_le hs (fun task htask => he ⟨task, htask⟩)
    constructor
    · intro _
      unfold Room
      split
      · rename_i task ty
        rintro rfl
        exact absurd ⟨task, rfl⟩ he
      · trivial
    · intro _
      omega

/-- After `Broker::initialize(n)`, in every run in which at most `n` tasks subscribed to the type are
alive at a time, its list never holds more than `n` entries, exactly when no task newly subscribes to
the full list while it holds an expired entry. -/
theorem within_capacity_iff {es : List (BrokerEvent τ)}
    (hrun : run step (afterInitialize n) es = some s')
    (hlive : Throughout step (fun s => (s.live type).length ≤ n) (afterInitialize n) es) :
    Throughout step (fun s => (s.list type).length ≤ n) (afterInitialize n) es ↔
      Along step (Room n type) (afterInitialize n) es := by
  refine throughout_iff_along ?_ hrun hlive (Nat.zero_le n)
  intro s e s' _ hlive' hlen hs
  exact step_within_iff hlive' hs hlen

/-- The entry of the expired task `1` has been erased by a `publish` when the task `2` subscribes. -/
def sweptChurn : List (BrokerEvent ℕ) :=
  [.subscribe 1 .stateMsg, .expire 1, .publish ⟨none, .stateMsg ⟨1⟩⟩, .iterate, .finish,
    .subscribe 2 .stateMsg]

theorem within_capacity_iff_swept :
    Throughout step (fun s => (s.list .stateMsg).length ≤ 1) (afterInitialize 1) sweptChurn := by
  have heval : (run step (afterInitialize 1) sweptChurn).map (fun s => s.list .stateMsg) =
      some [2] := by decide +kernel
  obtain ⟨s, hrun, -⟩ := Option.map_eq_some_iff.mp heval
  exact (within_capacity_iff hrun (by decide +kernel)).mpr (by decide +kernel)

/-- Never more than one of the two tasks is alive and subscribed, and the list has both. -/
theorem expired_entry_overflows : ∃ s : BrokerSystem ℕ,
    run step (afterInitialize 1) [.subscribe 1 .stateMsg, .expire 1, .subscribe 2 .stateMsg] =
      some s ∧
    Throughout step (fun s => (s.live .stateMsg).length ≤ 1) (afterInitialize 1)
      ([.subscribe 1 .stateMsg, .expire 1, .subscribe 2 .stateMsg] : List (BrokerEvent ℕ)) ∧
    ¬ (s.list .stateMsg).length ≤ 1 := by
  have heval : (run step (afterInitialize 1) ([.subscribe 1 .stateMsg, .expire 1,
      .subscribe 2 .stateMsg] : List (BrokerEvent ℕ))).map (fun s => s.list .stateMsg) =
      some [1, 2] := by decide +kernel
  obtain ⟨s, hrun, hlist⟩ := Option.map_eq_some_iff.mp heval
  refine ⟨s, hrun, by decide +kernel, ?_⟩
  rw [hlist]
  decide

end BrokerSystem

end Protocore
