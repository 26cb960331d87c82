import Protocore.Run
import Protocore.RefGraph
import Protocore.HeartBeat
import Protocore.StateManager

/-! # Who owns whom

The shared pointers that managers, monitors and tasks hold of each other: the keys of `task_states` and
`task_registration_observer` in a `StateManager`, the keys of `monitored_tasks` and `state_manager` in a
`HeartBeatTask`.  The observer is documented as a weak pointer and declared as a shared one.
`HeartBeatTask::on_initialize` makes the new monitor the observer of the manager it points to, so the
two own each other from then on (`monitored_manager_kept`).

Any number of managers, monitors and tasks are created, in any order.  `collectable_iff`: there is never
a cycle, and all objects are destroyed when the program lets go of them, exactly when no monitor is
created with a manager and references are only given to objects that do not own the holder already. -/

namespace Protocore

open Relation

variable {τ : Type} [LinearOrder τ]

/-- An object with the shared pointers in its fields. -/
inductive OwnedObject (τ : Type) [LinearOrder τ] where
  | stateManager (manager : StateManager τ) (taskRegistrationObserver : Option τ)
  | heartBeat (monitor : HeartBeatTask τ) (stateManager : Option τ)
  | task

/-- One of the fields points to `y`. -/
def OwnedObject.Holds : OwnedObject τ → τ → Prop
  | .stateManager manager observer, y => (manager.taskStates.find? y).isSome ∨ observer = some y
  | .heartBeat monitor mgr, y => (monitor.monitoredTasks.find? y).isSome ∨ mgr = some y
  | .task, _ => False

/-- A monitor at the address `x` knows itself. -/
def OwnedObject.LabelledAs (x : τ) : OwnedObject τ → Prop
  | .heartBeat monitor _ => monitor.self = x
  | _ => True

/-- The objects created so far. -/
structure OwnershipSystem (τ : Type) [LinearOrder τ] where
  objects : τ → Option (OwnedObject τ)

/-- The factories, with the new object, `set_task_registration_observer` and `register_task`.  The
first states of a manager are what its memory holds; `now` is the clock reading of the monitor. -/
inductive OwnershipEvent (τ : Type) where
  | createStateManager (x : τ) (currentState targetState : TaskState)
  | createHeartBeatTask (x : τ) (stateManager : Option τ) (responseTimeoutMs : ℤ)
  | createTask (x : τ)
  | setTaskRegistrationObserver (manager : τ) (observer : Option τ)
  | registerTask (manager task : τ) (now : ℤ)

namespace OwnershipSystem

/-- No object has been created. -/
def init : OwnershipSystem τ := ⟨fun _ => none⟩

/-- The object `x` owns the object `y`. -/
def owns (s : OwnershipSystem τ) (x y : τ) : Prop := ∃ o, s.objects x = some o ∧ o.Holds y

/-- Write the object `x`. -/
def set (s : OwnershipSystem τ) (x : τ) (o : OwnedObject τ) : OwnershipSystem τ :=
  ⟨Function.update s.objects x (some o)⟩

/-- The call of the observer in `register_task`, after the `dynamic_cast`. -/
def notifyObserver (s : OwnershipSystem τ) (observer : Option τ) (task : τ) (now : ℤ) :
    OwnershipSystem τ :=
  match observer with
  | none => s
  | some h =>
      match s.objects h with
      | some (.heartBeat monitor mgr) =>
          s.set h (.heartBeat (monitor.notifyTaskRegistered task now) mgr)
      | _ => s

/-- One step; objects are created once, and only objects that exist are passed. -/
def step (s : OwnershipSystem τ) : OwnershipEvent τ → Option (OwnershipSystem τ)
  | .createStateManager x currentState targetState =>
      if (s.objects x).isNone then
        some (s.set x (.stateManager (.create x currentState targetState) none))
      else none
  | .createHeartBeatTask x mgr responseTimeoutMs =>
      if (s.objects x).isNone then
        match mgr with
        | none => some (s.set x (.heartBeat (.create x false responseTimeoutMs) none))
        | some m =>
            match s.objects m with
            | some (.stateManager manager _) =>
                -- state_manager->set_task_registration_observer(shared_from_this());
                some ((s.set x (.heartBeat (.create x true responseTimeoutMs) (some m))).set m
                  (.stateManager manager (some x)))
            | _ => none
      else none
  | .createTask x => if (s.objects x).isNone then some (s.set x .task) else none
  | .setTaskRegistrationObserver m observer =>
      match s.objects m with
      | some (.stateManager manager _) =>
          if observer.all (fun o => (s.objects o).isSome) then
            some (s.set m (.stateManager manager observer))
          else none
      | _ => none
  | .registerTask m task now =>
      match s.objects m with
      | some (.stateManager manager observer) =>
          if (s.objects task).isSome then
            some ((s.set m (.stateManager (manager.registerTask task) observer)).notifyObserver
              observer task now)
          else none
      | _ => none

/-- The objects that `register_task` stores the task in: the manager, and its observer if that is a
monitor other than the task. -/
def Stores (s : OwnershipSystem τ) (m task x : τ) : Prop :=
  x = m ∨ (x ≠ task ∧ (∃ manager, s.objects m = some (.stateManager manager (some x))) ∧
    ∃ monitor mgr, s.objects x = some (.heartBeat monitor mgr))

/-- No monitor is created with a manager, and an object is handed only to holders that it does not own,
directly or through others. -/
def Downward (s : OwnershipSystem τ) : OwnershipEvent τ → Prop
  | .createHeartBeatTask _ mgr _ => mgr = none
  | .setTaskRegistrationObserver m observer =>
      ∀ o, observer = some o → ¬ ReflTransGen s.owns o m
  | .registerTask m task _ => ∀ x, s.Stores m task x → ¬ ReflTransGen s.owns task x
  | _ => True

/-- Every monitor knows itself. -/
def Labelled (s : OwnershipSystem τ) : Prop := ∀ x o, s.objects x = some o → o.LabelledAs x

variable {s s' : OwnershipSystem τ}

/-! ### What a step does to the references -/

@[simp] theorem set_objects_self {x : τ} {o : OwnedObject τ} : (s.set x o).objects x = some o :=
  Function.update_self ..

theorem set_objects_of_ne {x y : τ} {o : OwnedObject τ} (h : y ≠ x) :
    (s.set x o).objects y = s.objects y :=
  Function.update_of_ne h ..

theorem set_owns_iff {x a b : τ} {o : OwnedObject τ} :
    (s.set x o).owns a b ↔ if a = x then o.Holds b else s.owns a b := by
  unfold owns
  split_ifs with hax
  · subst hax
    simp
  · simp only [set_objects_of_ne hax]

theorem registerTask_find?_isSome {manager : StateManager τ} {task b : τ} :
    ((manager.registerTask task).taskStates.find? b).isSome ↔
      (manager.taskStates.find? b).isSome ∨ b = task := by
  unfold StateManager.registerTask
  simp only [OrdMap.find?_insert]
  by_cases hb : b = task
  · simp [hb]
  · simp [hb]

theorem notifyTaskRegistered_find?_isSome {monitor : HeartBeatTask τ} {task b : τ} {now : ℤ} :
    ((monitor.notifyTaskRegistered task now).monitoredTasks.find? b).isSome ↔
      (monitor.monitoredTasks.find? b).isSome ∨ (monitor.self ≠ task ∧ b = task) := by
  unfold HeartBeatTask.notifyTaskRegistered
  split_ifs with hself
  · simp [hself]
  · have hne : monitor.self ≠ task := fun h => hself h.symm
    split
    · rename_i status hfind
      constructor
      · exact .inl
      · rintro (hb | ⟨-, rfl⟩)
        · exact hb
        · rw [hfind]
          rfl
    · simp only [OrdMap.find?_insert]
      by_cases hb : b = task
      · simp [hb, hne]
      · simp [hb]

theorem notifyObserver_monitor {x task : τ} {now : ℤ} {monitor : HeartBeatTask τ} {mgr : Option τ}
    (hx : s.objects x = some (.heartBeat monitor mgr)) :
    s.notifyObserver (some x) task now =
      s.set x (.heartBeat (monitor.notifyTaskRegistered task now) mgr) := by
  unfold notifyObserver
  simp only [hx]

/-- An object other than a monitor is not notified. -/
theorem notifyObserver_eq {observer : Option τ} {task : τ} {now : ℤ}
    (h : ∀ x monitor mgr, observer = some x → s.objects x ≠ some (.heartBeat monitor mgr)) :
    s.notifyObserver observer task now = s := by
  unfold notifyObserver
  split
  · rfl
  · rename_i x
    split
    · rename_i monitor mgr hx
      exact absurd hx (h x monitor mgr rfl)
    · rfl

theorem owns_iff {x b : τ} {o : OwnedObject τ} (hx : s.objects x = some o) : s.owns x b ↔ o.Holds b := by
  unfold owns
  simp [hx]

/-- Apart from the manager, only its observer stores the task. -/
theorem stores_iff {m task x : τ} {manager : StateManager τ} {observer : Option τ}
    (hm : s.objects m = some (.stateManager manager observer)) (hx : x ≠ m) :
    s.Stores m task x ↔ x ≠ task ∧ observer = some x ∧
      ∃ monitor mgr, s.objects x = some (.heartBeat monitor mgr) := by
  unfold Stores
  rw [hm]
  simp [hx]

theorem registerTask_owns_iff {m task a b : τ} {now : ℤ} {manager : StateManager τ}
    {observer : Option τ} (hlabelled : Labelled s)
    (hm : s.objects m = some (.stateManager manager observer)) :
    ((s.set m (.stateManager (manager.registerTask task) observer)).notifyObserver
      observer task now).owns a b ↔ RefGraph.link s.owns (s.Stores m task) task a b := by
  -- the manager itself
  have hself : (OwnedObject.stateManager (manager.registerTask task) observer).Holds b ↔
      RefGraph.link s.owns (s.Stores m task) task m b := by
    unfold RefGraph.link
    rw [owns_iff hm, and_iff_right (show s.Stores m task m from .inl rfl)]
    simp only [OwnedObject.Holds, registerTask_find?_isSome]
    exact or_right_comm
  by_cases hobserver : ∃ x monitor mgr, observer = some x ∧
      s.objects x = some (.heartBeat monitor mgr)
  · obtain ⟨x, monitor, mgr, rfl, hx⟩ := hobserver
    have hxm : x ≠ m := by
      rintro rfl
      rw [hm] at hx
      cases hx
    rw [notifyObserver_monitor ((set_objects_of_ne hxm).trans hx), set_owns_iff, set_owns_iff]
    split_ifs with hax ham
    · subst hax
      have hstores : s.Stores m task a ↔ a ≠ task := by
        rw [stores_iff hm hxm]
        exact and_iff_left ⟨rfl, monitor, mgr, hx⟩
      unfold RefGraph.link
      rw [owns_iff hx, hstores]
      have hself' : monitor.self = a := hlabelled a _ hx
      simp only [OwnedObject.Holds, notifyTaskRegistered_find?_isSome, hself']
      exact or_right_comm
    · subst ham
      exact hself
    · rw [RefGraph.link_iff_of_not_holder]
      rw [stores_iff hm ham]
      rintro ⟨-, hxa, -⟩
      exact hax (Option.some.inj hxa).symm
  · have hnotified : (s.set m (.stateManager (manager.registerTask task) observer)).notifyObserver
        observer task now = s.set m (.stateManager (manager.registerTask task) observer) := by
      apply notifyObserver_eq
      intro x monitor mgr hx hobject
      by_cases hxm : x = m
      · rw [hxm, set_objects_self] at hobject
        cases hobject
      · rw [set_objects_of_ne hxm] at hobject
        exact hobserver ⟨x, monitor, mgr, hx, hobject⟩
    rw [hnotified, set_owns_iff]
    split_ifs with ham
    · subst ham
      exact hself
    · rw [RefGraph.link_iff_of_not_holder]
      rw [stores_iff hm ham]
      rintro ⟨-, ha, monitor, mgr, hobject⟩
      exact hobserver ⟨a, monitor, mgr, ha, hobject⟩

/-! ### One step -/

theorem Labelled.set {x : τ} {o : OwnedObject τ} (h : Labelled s) (ho : o.LabelledAs x) :
    Labelled (s.set x o) := by
  intro y o' hy
  by_cases hyx : y = x
  · rw [hyx, set_objects_self] at hy
    rw [hyx, ← Option.some.inj hy]
    exact ho
  · rw [set_objects_of_ne hyx] at hy
    exact h y o' hy

theorem Labelled.notifyObserver {observer : Option τ} {task : τ} {now : ℤ} (h : Labelled s) :
    Labelled (s.notifyObserver observer task now) := by
  unfold OwnershipSystem.notifyObserver
  split
  · exact h
  · rename_i x
    split
    · rename_i monitor mgr hx
      have hself : monitor.self = x := h x _ hx
      apply h.set
      obtain ⟨tasks, htasks⟩ := monitor.notifyTaskRegistered_frame task now
      rw [htasks]
      exact hself
    · exact h

theorem step_labelled {e : OwnershipEvent τ} (h : Labelled s) (hs : step s e = some s') :
    Labelled s' := by
  unfold step at hs
  cases e with
  | createStateManager x currentState targetState =>
      simp only at hs
      split_ifs at hs
      obtain rfl := Option.some.inj hs
      exact h.set trivial
  | createHeartBeatTask x mgr responseTimeoutMs =>
      simp only at hs
      split_ifs at hs
      split at hs
      · obtain rfl := Option.some.inj hs
        exact h.set rfl
      · split at hs
        · obtain rfl := Option.some.inj hs
          exact Labelled.set (h.set rfl) trivial
        · cases hs
  | createTask x =>
      simp only at hs
      split_ifs at hs
      obtain rfl := Option.some.inj hs
      exact h.set trivial
  | setTaskRegistrationObserver m observer =>
      simp only at hs
      split at hs
      · split_ifs at hs
        obtain rfl := Option.some.inj hs
        exact h.set trivial
      · cases hs
  | registerTask m task now =>
      simp only at hs
      split at hs
      · split_ifs at hs
        obtain rfl := Option.some.inj hs
        exact Labelled.notifyObserver (h.set trivial)
      · cases hs

theorem not_holds_created {x b : τ} {currentState targetState : TaskState} :
    ¬ (OwnedObject.stateManager (.create x currentState targetState) none).Holds b := by
  rintro (hb | hb)
  · cases hb
  · cases hb

theorem not_holds_monitor {x b : τ} {responseTimeoutMs : ℤ} :
    ¬ (OwnedObject.heartBeat (.create x false responseTimeoutMs) none).Holds b := by
  rintro (hb | hb)
  · cases hb
  · cases hb

/-- A new object without references does no harm. -/
theorem collectable_set {x : τ} {o : OwnedObject τ} (h : RefGraph.Collectable s.owns)
    (ho : ∀ b, ¬ o.Holds b) : RefGraph.Collectable (s.set x o).owns := by
  apply h.mono
  intro a b hab
  rw [set_owns_iff] at hab
  split_ifs at hab
  · exact absurd hab (ho b)
  · exact hab

/-- A monitor that is created with a manager, and the manager, own each other. -/
theorem monitor_cycle (s : OwnershipSystem τ) (manager : StateManager τ) (responseTimeoutMs : ℤ)
    {x m : τ} (hxm : x ≠ m) :
    ((s.set x (.heartBeat (.create x true responseTimeoutMs) (some m))).set m
      (.stateManager manager (some x))).owns m x ∧
    ((s.set x (.heartBeat (.create x true responseTimeoutMs) (some m))).set m
      (.stateManager manager (some x))).owns x m := by
  constructor
  · rw [set_owns_iff, if_pos rfl]
    exact .inr rfl
  · rw [set_owns_iff, if_neg hxm, set_owns_iff, if_pos rfl]
    exact .inr rfl

/-- `set_task_registration_observer` does no harm exactly when the observer does not own the manager. -/
theorem collectable_observer_iff {m : τ} {manager : StateManager τ} {old observer : Option τ}
    (h : RefGraph.Collectable s.owns) (hm : s.objects m = some (.stateManager manager old)) :
    RefGraph.Collectable (s.set m (.stateManager manager observer)).owns ↔
      ∀ o, observer = some o → ¬ ReflTransGen s.owns o m := by
  -- the manager without any observer
  have hcut : ∀ a b, (s.set m (.stateManager manager none)).owns a b → s.owns a b := by
    intro a b hab
    rw [set_owns_iff] at hab
    split_ifs at hab with ham
    · rw [ham, owns_iff hm]
      exact .inl (hab.resolve_right nofun)
    · exact hab
  have hnone := h.mono hcut
  cases observer with
  | none => exact ⟨fun _ => nofun, fun _ => hnone⟩
  | some o =>
      have howns : (s.set m (.stateManager manager (some o))).owns =
          RefGraph.link (s.set m (.stateManager manager none)).owns (· = m) o := by
        funext a b
        unfold RefGraph.link
        rw [set_owns_iff, set_owns_iff]
        split_ifs with ham
        · have hsymm : some o = some b ↔ b = o := by rw [Option.some.injEq, eq_comm]
          simp only [OwnedObject.Holds, hsymm, ham, true_and, reduceCtorEq, or_false]
        · simp [ham]
      have hreach : ReflTransGen (s.set m (.stateManager manager none)).owns o m ↔
          ReflTransGen s.owns o m := by
        constructor
        · exact ReflTransGen.mono hcut o m
        · apply RefGraph.reaches_of_cut
          intro a b ham hab
          rw [set_owns_iff, if_neg ham]
          exact hab
      rw [howns, RefGraph.collectable_link_iff hnone]
      simp only [forall_eq, hreach, Option.some.injEq, forall_eq']

theorem step_collectable_iff {e : OwnershipEvent τ} (hlabelled : Labelled s)
    (h : RefGraph.Collectable s.owns) (hs : step s e = some s') :
    RefGraph.Collectable s'.owns ↔ Downward s e := by
  unfold step at hs
  cases e with
  | createStateManager x currentState targetState =>
      simp only at hs
      split_ifs at hs
      obtain rfl := Option.some.inj hs
      exact ⟨fun _ => trivial, fun _ => collectable_set h (fun _ => not_holds_created)⟩
  | createHeartBeatTask x mgr responseTimeoutMs =>
      simp only at hs
      split_ifs at hs with hnew
      split at hs
      · obtain rfl := Option.some.inj hs
        exact ⟨fun _ => rfl, fun _ => collectable_set h (fun _ => not_holds_monitor)⟩
      · rename_i m
        split at hs
        · rename_i manager observer hm
          obtain rfl := Option.some.inj hs
          have hxm : x ≠ m := by
            rintro rfl
            rw [hm] at hnew
            cases hnew
          obtain ⟨hmx, hback⟩ := monitor_cycle s manager responseTimeoutMs hxm
          constructor
          · intro hbad
            exact absurd (.tail (.single hmx) hback) (hbad.acyclic m)
          · intro hnone
            cases hnone
        · cases hs
  | createTask x =>
      simp only at hs
      split_ifs at hs
      obtain rfl := Option.some.inj hs
      exact ⟨fun _ => trivial, fun _ => collectable_set h (fun _ => id)⟩
  | setTaskRegistrationObserver m observer =>
      simp only at hs
      split at hs
      · rename_i manager old hm
        split_ifs at hs
        obtain rfl := Option.some.inj hs
        exact collectable_observer_iff h hm
      · cases hs
  | registerTask m task now =>
      simp only at hs
      split at hs
      · rename_i manager observer hm
        split_ifs at hs
        obtain rfl := Option.some.inj hs
        have howns : ((s.set m (.stateManager (manager.registerTask task) observer)).notifyObserver
            observer task now).owns = RefGraph.link s.owns (s.Stores m task) task := by
          funext a b
          exact propext (registerTask_owns_iff hlabelled hm)
        rw [howns]
        exact RefGraph.collectable_link_iff h
      · cases hs

theorem init_labelled : Labelled (init : OwnershipSystem τ) := by
  intro x o ho
  cases ho

theorem init_collectable : RefGraph.Collectable (init : OwnershipSystem τ).owns := by
  apply RefGraph.collectable_of_freed
  intro a
  refine Acc.intro a ?_
  rintro b ⟨o, ho, -⟩
  cases ho

/-- In every state of a run there is no cycle of shared pointers, and all objects are destroyed once the
program has dropped its own, exactly when each step hands references downward. -/
theorem collectable_iff {es : List (OwnershipEvent τ)} (hrun : run step init es = some s') :
    Throughout step (fun s => RefGraph.Collectable s.owns) init es ↔ Along step Downward init es := by
  have hlabelled : Throughout step Labelled (init : OwnershipSystem τ) es :=
    throughout_of_invariant (fun _ _ _ h hs => step_labelled h hs) es init_labelled
  refine throughout_iff_along ?_ hrun hlabelled init_collectable
  intro s e s' hlabelled _ h hs
  exact step_collectable_iff hlabelled h hs

/-- An object without references reaches only itself. -/
theorem eq_of_reaches {x y : τ} {o : OwnedObject τ} (hx : s.objects x = some o)
    (ho : ∀ b, ¬ o.Holds b) (h : ReflTransGen s.owns x y) : y = x := by
  rcases h.cases_head with heq | ⟨z, hz, -⟩
  · exact heq.symm
  · exact absurd ((owns_iff hx).mp hz) (ho z)

/-- A monitor that is created without a manager observes the manager `0`, and the task `2` is
registered. -/
def observed : List (OwnershipEvent ℕ) :=
  [.createStateManager 0 .notStarted .notStarted, .createHeartBeatTask 1 none 3000, .createTask 2,
    .setTaskRegistrationObserver 0 (some 1), .registerTask 0 2 0]

theorem collectable_iff_observed :
    Throughout step (fun s => RefGraph.Collectable s.owns) init observed := by
  have heval : (run step init observed).map (fun _ => ()) = some () := by decide +kernel
  obtain ⟨s, hrun, -⟩ := Option.map_eq_some_iff.mp heval
  refine (collectable_iff hrun).mpr ?_
  refine along_cons rfl trivial (along_cons rfl rfl (along_cons rfl trivial
    (along_cons rfl ?_ (along_cons rfl ?_ trivial))))
  · intro o ho hreach
    obtain rfl := Option.some.inj ho
    have hone := eq_of_reaches rfl (fun _ => not_holds_monitor) hreach
    cases hone
  · intro x hx hreach
    have htwo := eq_of_reaches (o := .task) rfl (fun _ => id) hreach
    subst htwo
    rcases hx with hx | hx
    · cases hx
    · exact hx.1 rfl

/-- A manager and a monitor that is created with it. -/
theorem monitored_manager_kept : ∃ s : OwnershipSystem ℕ,
    run step init [.createStateManager 0 .notStarted .notStarted,
      .createHeartBeatTask 1 (some 0) 3000] = some s ∧
    ¬ RefGraph.Acyclic s.owns ∧ ¬ RefGraph.Freed s.owns 0 ∧ ¬ RefGraph.Freed s.owns 1 := by
  refine ⟨_, rfl, ?_⟩
  obtain ⟨hmx, hback⟩ := monitor_cycle (init.set 0 _) _ 3000 (x := 1) (m := 0) (by decide)
  refine ⟨fun h => h 0 (.tail (.single hmx) hback), ?_, ?_⟩
  · exact RefGraph.not_freed_of_cycle (.tail (.single hmx) hback)
  · exact RefGraph.not_freed_of_cycle (.tail (.single hback) hmx)

end OwnershipSystem

end Protocore
