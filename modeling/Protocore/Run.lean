import Mathlib.Algebra.GroupWithZero.Nat
import Mathlib.Data.List.Basic

/-! # Runs of a partial step function

A system is a partial step function `step : σ → ε → Option σ`: `step s e = none` says that the
event `e` cannot happen in `s` (a mutex is taken, a guard is false, an assertion aborts).  An
interleaving of any number of threads is a list of events, and `run step s es` executes it.

* `Reaches step s s'`: some list of events leads from `s` to `s'`.
* `Reaches.invariant`: a property kept by every single step holds in every reachable state.
* `Along step C s es`: every event of the run meets the side condition `C` in the state
  in which it happens; `run_invariant_along` is the induction rule for such runs, and
  `along_congr` compares two side conditions.
* `run_potential`: a potential that pays for every step bounds what a run costs.
* `guarded step aborts`: the steps that do not abort, in a system whose `step` leaves out an
  assertion.
* `ReachesWithin step load n s s'`: `s'` is reached with little room, hence without aborting
  (`ReachesWithin.reaches_guarded`).
* `Throughout step P s es`: every state of the run meets `P`; `throughout_iff_along` turns an exact
  condition for one step into one for the run. -/

namespace Protocore

variable {σ ε : Type*}

/-- Execute a list of events; `none` as soon as one of them cannot happen. -/
def run (step : σ → ε → Option σ) : σ → List ε → Option σ
  | s, [] => some s
  | s, e :: es => (step s e).bind (fun s' => run step s' es)

variable {step : σ → ε → Option σ}

@[simp] theorem run_nil (s : σ) : run step s [] = some s := rfl

theorem run_cons (s : σ) (e : ε) (es : List ε) :
    run step s (e :: es) = (step s e).bind (fun s' => run step s' es) := rfl

theorem run_cons_eq_some {s s' : σ} {e : ε} {es : List ε} :
    run step s (e :: es) = some s' ↔ ∃ s₁, step s e = some s₁ ∧ run step s₁ es = some s' := by
  rw [run_cons, Option.bind_eq_some_iff]

theorem run_append_eq_some {s s' : σ} {es es' : List ε} :
    run step s (es ++ es') = some s' ↔ ∃ s₁, run step s es = some s₁ ∧ run step s₁ es' = some s' := by
  induction es generalizing s with
  | nil => simp
  | cons e es ih =>
      rw [List.cons_append, run_cons_eq_some]
      constructor
      · rintro ⟨s₁, he, hes⟩
        obtain ⟨s₂, h₁, h₂⟩ := ih.mp hes
        exact ⟨s₂, run_cons_eq_some.mpr ⟨s₁, he, h₁⟩, h₂⟩
      · rintro ⟨s₂, h₁, h₂⟩
        obtain ⟨s₁, he, hes⟩ := run_cons_eq_some.mp h₁
        exact ⟨s₁, he, ih.mpr ⟨s₂, hes, h₂⟩⟩

/-- `s'` is reached from `s` by some interleaving. -/
def Reaches (step : σ → ε → Option σ) (s s' : σ) : Prop := ∃ es, run step s es = some s'

theorem Reaches.refl (s : σ) : Reaches step s s := ⟨[], rfl⟩

theorem Reaches.snoc {s s₁ s' : σ} {e : ε} (h : Reaches step s s₁) (he : step s₁ e = some s') :
    Reaches step s s' := by
  obtain ⟨es, hes⟩ := h
  exact ⟨es ++ [e], run_append_eq_some.mpr ⟨s₁, hes, run_cons_eq_some.mpr ⟨s', he, rfl⟩⟩⟩

theorem Reaches.trans {s s₁ s' : σ} (h : Reaches step s s₁) (h' : Reaches step s₁ s') :
    Reaches step s s' := by
  obtain ⟨es, hes⟩ := h
  obtain ⟨es', hes'⟩ := h'
  exact ⟨es ++ es', run_append_eq_some.mpr ⟨s₁, hes, hes'⟩⟩

theorem Reaches.single {s s' : σ} {e : ε} (he : step s e = some s') : Reaches step s s' :=
  (Reaches.refl s).snoc he

/-- A property kept by every step is kept by every run. -/
theorem run_invariant {P : σ → Prop} (hstep : ∀ s e s', P s → step s e = some s' → P s') :
    ∀ {es : List ε} {s s' : σ}, P s → run step s es = some s' → P s'
  | [], s, s', hP, h => by
      obtain rfl : s = s' := by simpa using h
      exact hP
  | e :: es, s, s', hP, h => by
      obtain ⟨s₁, he, hes⟩ := run_cons_eq_some.mp h
      exact run_invariant hstep (hstep s e s₁ hP he) hes

theorem Reaches.invariant {P : σ → Prop} (hstep : ∀ s e s', P s → step s e = some s' → P s')
    {s s' : σ} (h : Reaches step s s') (hP : P s) : P s' := by
  obtain ⟨es, hes⟩ := h
  exact run_invariant hstep hP hes

/-- Every event of the run meets `C` in the state in which it happens. -/
def Along (step : σ → ε → Option σ) (C : σ → ε → Prop) : σ → List ε → Prop
  | _, [] => True
  | s, e :: es => C s e ∧ ∀ s', step s e = some s' → Along step C s' es

instance decidableAlong (C : σ → ε → Prop) [∀ s e, Decidable (C s e)] :
    ∀ s es, Decidable (Along step C s es)
  | _, [] => isTrue trivial
  | s, e :: es =>
      match hs : step s e with
      | none => decidable_of_iff (C s e) (by simp [Along, hs])
      | some s' =>
          have := decidableAlong C s' es
          decidable_of_iff (C s e ∧ Along step C s' es) (by simp [Along, hs])

/-- A property kept by every step that meets `C` is kept by every run along `C`. -/
theorem run_invariant_along {P : σ → Prop} {C : σ → ε → Prop}
    (hstep : ∀ s e s', P s → C s e → step s e = some s' → P s') :
    ∀ {es : List ε} {s s' : σ}, P s → Along step C s es → run step s es = some s' → P s'
  | [], s, s', hP, _, h => by
      obtain rfl : s = s' := by simpa using h
      exact hP
  | e :: es, s, s', hP, hC, h => by
      obtain ⟨s₁, he, hes⟩ := run_cons_eq_some.mp h
      exact run_invariant_along hstep (hstep s e s₁ hP hC.1 he) (hC.2 s₁ he) hes

/-- The first event of a run along `C`, with the state after it. -/
theorem along_cons {C : σ → ε → Prop} {s s₁ : σ} {e : ε} {es : List ε} (he : step s e = some s₁)
    (hC : C s e) (hes : Along step C s₁ es) : Along step C s (e :: es) := by
  refine ⟨hC, fun s' he' => ?_⟩
  obtain rfl := Option.some.inj (he.symm.trans he')
  exact hes

theorem along_append {C : σ → ε → Prop} {es es' : List ε} {s : σ} :
    Along step C s (es ++ es') ↔
      Along step C s es ∧ ∀ s₁, run step s es = some s₁ → Along step C s₁ es' := by
  induction es generalizing s with
  | nil => simp [Along]
  | cons e es ih =>
      rw [List.cons_append]
      constructor
      · rintro ⟨hC, hrest⟩
        refine ⟨⟨hC, fun s₁ he => (ih.mp (hrest s₁ he)).1⟩, fun s₂ hrun => ?_⟩
        obtain ⟨s₁, he, hes⟩ := run_cons_eq_some.mp hrun
        exact (ih.mp (hrest s₁ he)).2 s₂ hes
      · rintro ⟨⟨hC, hrest⟩, hlast⟩
        refine ⟨hC, fun s₁ he => ih.mpr ⟨hrest s₁ he, fun s₂ hes => ?_⟩⟩
        exact hlast s₂ (run_cons_eq_some.mpr ⟨s₁, he, hes⟩)

/-- A condition on the events alone. -/
theorem along_of_forall {C : ε → Prop} : ∀ {es : List ε} {s : σ}, (∀ e ∈ es, C e) →
    Along step (fun _ e => C e) s es
  | [], _, _ => trivial
  | e :: _, _, h =>
      ⟨h e List.mem_cons_self, fun _ _ => along_of_forall (fun e' he' => h e' (List.mem_cons_of_mem e he'))⟩

/-- What the steps of a run cost is paid from a potential. -/
theorem run_potential {C : σ → ε → Prop} {cost : ε → ℕ} {potential : σ → ℕ}
    (hstep : ∀ s e s', C s e → step s e = some s' → cost e + potential s' ≤ potential s) :
    ∀ {es : List ε} {s s' : σ}, Along step C s es → run step s es = some s' →
      (es.map cost).sum + potential s' ≤ potential s
  | [], s, s', _, h => by
      obtain rfl : s = s' := by simpa using h
      simp
  | e :: es, s, s', hC, h => by
      obtain ⟨s₁, he, hes⟩ := run_cons_eq_some.mp h
      have hfirst := hstep s e s₁ hC.1 he
      have hrest := run_potential hstep (hC.2 s₁ he) hes
      rw [List.map_cons, List.sum_cons]
      omega

/-- The same for the number of events of one kind. -/
theorem countP_le_potential {C : σ → ε → Prop} {p : ε → Bool} {f : σ → ℕ}
    (hstep : ∀ s e s', C s e → step s e = some s' → (p e).toNat + f s' ≤ f s)
    {es : List ε} {s s' : σ} (hC : Along step C s es) (h : run step s es = some s') :
    es.countP p ≤ f s := by
  have hsum : ∀ es : List ε, (es.map (fun e => (p e).toNat)).sum = es.countP p := by
    intro es
    induction es with
    | nil => rfl
    | cons e es ih =>
        rw [List.map_cons, List.sum_cons, ih, List.countP_cons]
        cases p e <;> simp [Nat.add_comm]
  have hpaid := run_potential hstep hC h
  rw [hsum] at hpaid
  omega

/-- A run that breaks its side condition does so at some step. -/
theorem exists_of_not_along {C : σ → ε → Prop} : ∀ {es : List ε} {s s' : σ},
    run step s es = some s' → ¬ Along step C s es →
      ∃ es₁ e es₂ s₁ s₂, es = es₁ ++ e :: es₂ ∧ run step s es₁ = some s₁ ∧ ¬ C s₁ e ∧
        step s₁ e = some s₂ ∧ run step s₂ es₂ = some s'
  | [], s, s', _, hnot => absurd trivial hnot
  | e :: es, s, s', hrun, hnot => by
      obtain ⟨s₂, he, hes⟩ := run_cons_eq_some.mp hrun
      by_cases hC : C s e
      · have hrest : ¬ Along step C s₂ es := by
          intro halong
          refine hnot ⟨hC, fun s₃ he' => ?_⟩
          obtain rfl := Option.some.inj (he.symm.trans he')
          exact halong
        obtain ⟨es₁, e', es₂, s₃, s₄, rfl, hrun₁, hC', he', hrun₂⟩ :=
          exists_of_not_along hes hrest
        exact ⟨e :: es₁, e', es₂, s₃, s₄, rfl, run_cons_eq_some.mpr ⟨s₂, he, hrun₁⟩, hC', he',
          hrun₂⟩
      · exact ⟨[], e, es, s, s₂, rfl, rfl, hC, he, hes⟩

/-- Two side conditions that agree wherever the first keeps an invariant admit the same runs. -/
theorem along_congr {P : σ → Prop} {C D : σ → ε → Prop}
    (hstep : ∀ s e s', P s → C s e → step s e = some s' → P s')
    (hiff : ∀ s e, P s → (C s e ↔ D s e)) :
    ∀ {es : List ε} {s : σ}, P s → (Along step C s es ↔ Along step D s es)
  | [], _, _ => Iff.rfl
  | e :: es, s, hP => by
      constructor
      · rintro ⟨hC, hrest⟩
        refine ⟨(hiff s e hP).mp hC, fun s₁ he => ?_⟩
        exact (along_congr hstep hiff (hstep s e s₁ hP hC he)).mp (hrest s₁ he)
      · rintro ⟨hD, hrest⟩
        have hC := (hiff s e hP).mpr hD
        refine ⟨hC, fun s₁ he => ?_⟩
        exact (along_congr hstep hiff (hstep s e s₁ hP hC he)).mpr (hrest s₁ he)

/-- All states of the run, the first one and the last one included, meet `P`. -/
def Throughout (step : σ → ε → Option σ) (P : σ → Prop) : σ → List ε → Prop
  | s, [] => P s
  | s, e :: es => P s ∧ ∀ s', step s e = some s' → Throughout step P s' es

instance decidableThroughout (P : σ → Prop) [DecidablePred P] :
    ∀ s es, Decidable (Throughout step P s es)
  | s, [] => inferInstanceAs (Decidable (P s))
  | s, e :: es =>
      match hs : step s e with
      | none => decidable_of_iff (P s) (by simp [Throughout, hs])
      | some s' =>
          have := decidableThroughout P s' es
          decidable_of_iff (P s ∧ Throughout step P s' es) (by simp [Throughout, hs])

theorem Throughout.first {P : σ → Prop} {s : σ} {es : List ε} (h : Throughout step P s es) : P s := by
  cases es with
  | nil => exact h
  | cons e es => exact h.1

/-- The states of the rest of a run. -/
theorem Throughout.rest {P : σ → Prop} {es' : List ε} : ∀ {es : List ε} {s s' : σ},
    Throughout step P s (es ++ es') → run step s es = some s' → Throughout step P s' es'
  | [], s, s', h, hrun => by
      obtain rfl := Option.some.inj hrun
      exact h
  | e :: es, s, s', h, hrun => by
      obtain ⟨s₁, he, hes⟩ := run_cons_eq_some.mp hrun
      exact (h.2 s₁ he).rest hes

/-- A property kept by every step that meets `C` holds in all states of a run along `C`. -/
theorem throughout_of_along {P : σ → Prop} {C : σ → ε → Prop}
    (hstep : ∀ s e s', P s → C s e → step s e = some s' → P s') :
    ∀ {es : List ε} {s : σ}, P s → Along step C s es → Throughout step P s es
  | [], _, hP, _ => hP
  | e :: _, s, hP, hC =>
      ⟨hP, fun s₁ he => throughout_of_along hstep (hstep s e s₁ hP hC.1 he) (hC.2 s₁ he)⟩

theorem Throughout.imp {P Q : σ → Prop} (himp : ∀ s, P s → Q s) : ∀ {es : List ε} {s : σ},
    Throughout step P s es → Throughout step Q s es
  | [], s, h => himp s h
  | _ :: _, s, h => ⟨himp s h.1, fun s₁ he => (h.2 s₁ he).imp himp⟩

theorem throughout_of_invariant {P : σ → Prop} (hstep : ∀ s e s', P s → step s e = some s' → P s') :
    ∀ (es : List ε) {s : σ}, P s → Throughout step P s es
  | [], _, hP => hP
  | e :: es, s, hP => ⟨hP, fun s₁ he => throughout_of_invariant hstep es (hstep s e s₁ hP he)⟩

/-- If a step from `P` leads to `P` exactly when it meets `C`, the runs that stay in `P` are those
along `C`.  `H` is what is known of all states anyway. -/
theorem throughout_iff_along {H P : σ → Prop} {C : σ → ε → Prop}
    (hstep : ∀ s e s', H s → H s' → P s → step s e = some s' → (P s' ↔ C s e)) :
    ∀ {es : List ε} {s s' : σ}, run step s es = some s' → Throughout step H s es → P s →
      (Throughout step P s es ↔ Along step C s es)
  | [], _, _, _, _, hP => ⟨fun _ => trivial, fun _ => hP⟩
  | e :: es, s, s', hrun, hH, hP => by
      obtain ⟨s₁, he, hes⟩ := run_cons_eq_some.mp hrun
      have hone := hstep s e s₁ hH.1 (hH.2 s₁ he).first hP he
      constructor
      · rintro ⟨-, hrest⟩
        have hP₁ := (hrest s₁ he).first
        have hrest₁ := (throughout_iff_along hstep hes (hH.2 s₁ he) hP₁).mp (hrest s₁ he)
        exact along_cons he (hone.mp hP₁) hrest₁
      · rintro ⟨hC, hrest⟩
        refine ⟨hP, fun s₂ he' => ?_⟩
        obtain rfl := Option.some.inj (he.symm.trans he')
        exact (throughout_iff_along hstep hes (hH.2 s₁ he) (hone.mpr hC)).mpr (hrest s₁ he)

/-! ### Steps that abort -/

/-- The steps that do not abort, where `aborts` says which ones do. -/
def guarded (step : σ → ε → Option σ) (aborts : σ → ε → Bool) (s : σ) (e : ε) : Option σ :=
  if aborts s e then none else step s e

section guarded
variable {aborts : σ → ε → Bool}

theorem guarded_eq_some {s s' : σ} {e : ε} :
    guarded step aborts s e = some s' ↔ aborts s e = false ∧ step s e = some s' := by
  unfold guarded
  cases aborts s e <;> simp

theorem guarded_of_not_aborts {s : σ} {e : ε} (h : aborts s e = false) :
    guarded step aborts s e = step s e := by
  simp [guarded, h]

theorem run_of_guarded : ∀ {es : List ε} {s s' : σ},
    run (guarded step aborts) s es = some s' → run step s es = some s'
  | [], _, _, h => h
  | e :: es, s, s', h => by
      obtain ⟨s₁, he, hes⟩ := run_cons_eq_some.mp h
      exact run_cons_eq_some.mpr ⟨s₁, (guarded_eq_some.mp he).2, run_of_guarded hes⟩

theorem Reaches.of_guarded {s s' : σ} (h : Reaches (guarded step aborts) s s') :
    Reaches step s s' := by
  obtain ⟨es, hes⟩ := h
  exact ⟨es, run_of_guarded hes⟩

end guarded

/-! ### Runs that need little room -/

theorem Throughout.append {P : σ → Prop} {es' : List ε} : ∀ {es : List ε} {s s₁ : σ},
    Throughout step P s es → run step s es = some s₁ → Throughout step P s₁ es' →
      Throughout step P s (es ++ es')
  | [], s, s₁, _, hrun, h' => by
      obtain rfl := Option.some.inj hrun
      exact h'
  | e :: es, s, s₁, h, hrun, h' => by
      obtain ⟨s₂, he, hes⟩ := run_cons_eq_some.mp hrun
      refine ⟨h.1, fun s₃ he' => ?_⟩
      obtain rfl := Option.some.inj (he.symm.trans he')
      exact (h.2 s₂ he).append hes h'

theorem Throughout.last {P : σ → Prop} {es : List ε} {s s' : σ} (h : Throughout step P s es)
    (hrun : run step s es = some s') : P s' := by
  rw [← List.append_nil es] at h
  exact h.rest hrun

/-- Some run leads from `s` to `s'`, and on the way no load exceeds that of `s` by more than `n`. -/
def ReachesWithin {ι : Type*} (step : σ → ε → Option σ) (load : σ → ι → ℕ) (n : ι → ℕ)
    (s s' : σ) : Prop :=
  ∃ es, run step s es = some s' ∧ Throughout step (fun u => ∀ x, load u x ≤ load s x + n x) s es

section room
variable {ι : Type*} {load : σ → ι → ℕ} {n m k : ι → ℕ}

theorem ReachesWithin.refl (s : σ) : ReachesWithin step load n s s :=
  ⟨[], rfl, fun _ => Nat.le_add_right _ _⟩

theorem ReachesWithin.single {s s' : σ} {e : ε} (he : step s e = some s')
    (hload : ∀ x, load s' x ≤ load s x + n x) : ReachesWithin step load n s s' := by
  refine ⟨[e], run_cons_eq_some.mpr ⟨s', he, rfl⟩, fun _ => Nat.le_add_right _ _, fun s₁ he' => ?_⟩
  obtain rfl := Option.some.inj (he.symm.trans he')
  exact hload

theorem ReachesWithin.trans {s s₁ s' : σ} (h : ReachesWithin step load n s s₁)
    (h' : ReachesWithin step load m s₁ s') (hle : ∀ x, n x + m x ≤ k x) :
    ReachesWithin step load k s s' := by
  obtain ⟨es, hrun, hload⟩ := h
  obtain ⟨es', hrun', hload'⟩ := h'
  have hbetween := hload.last hrun
  refine ⟨es ++ es', run_append_eq_some.mpr ⟨s₁, hrun, hrun'⟩, ?_⟩
  refine (hload.imp fun u hu x => ?_).append hrun (hload'.imp fun u hu x => ?_)
  · have hx := hu x
    have hkx := hle x
    omega
  · have hx := hu x
    have hsx := hbetween x
    have hkx := hle x
    omega

theorem ReachesWithin.mono {s s' : σ} (h : ReachesWithin step load n s s') (hle : ∀ x, n x ≤ k x) :
    ReachesWithin step load k s s' :=
  h.trans (m := fun _ => 0) (ReachesWithin.refl s') hle

theorem ReachesWithin.reaches {s s' : σ} (h : ReachesWithin step load n s s') :
    Reaches step s s' := by
  obtain ⟨es, hrun, -⟩ := h
  exact ⟨es, hrun⟩

/-- If only a load over the capacity aborts, a run with enough room is one that does not abort. -/
theorem ReachesWithin.reaches_guarded {aborts : σ → ε → Bool} {capacity : ι → ℕ}
    (haborts : ∀ s e s', aborts s e = true → step s e = some s' → ∃ x, capacity x < load s' x)
    {s s' : σ} (h : ReachesWithin step load n s s') (hroom : ∀ x, load s x + n x ≤ capacity x) :
    Reaches (guarded step aborts) s s' := by
  have hrun : ∀ (es : List ε) (u : σ), run step u es = some s' →
      Throughout step (fun v => ∀ x, load v x ≤ capacity x) u es →
        run (guarded step aborts) u es = some s' := by
    intro es
    induction es with
    | nil => exact fun _ hrun _ => hrun
    | cons e es ih =>
        intro u hrun hload
        obtain ⟨u₁, he, hes⟩ := run_cons_eq_some.mp hrun
        have hgoes : aborts u e = false := by
          rw [← Bool.not_eq_true]
          intro habort
          obtain ⟨x, hx⟩ := haborts u e u₁ habort he
          exact absurd ((hload.2 u₁ he).first x) (Nat.not_le.mpr hx)
        exact run_cons_eq_some.mpr ⟨u₁, guarded_eq_some.mpr ⟨hgoes, he⟩, ih u₁ hes (hload.2 u₁ he)⟩
  obtain ⟨es, hes, hload⟩ := h
  exact ⟨es, hrun es s hes (hload.imp fun u hu x => Nat.le_trans (hu x) (hroom x))⟩

end room

/-- A run of a fallible function is evaluated through its result. -/
theorem eq_ok_of_toOption {ε α : Type} {x : Except ε α} {a : α} (h : x.toOption = some a) :
    x = .ok a := by
  cases x with
  | error f => cases h
  | ok b => rw [Option.some.inj h]

end Protocore
