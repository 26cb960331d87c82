import Protocore.Run

/-! # Simulation

An abstract system explains a concrete one if it can do, while the concrete one takes a step, what can be
seen of that step from outside: nothing, one event or several.

* `viewed`: what is seen of a run.
* `Simulates`: the condition on single steps, in the states of an invariant and under a side condition.
* `Simulates.run_viewed`: what is seen of a concrete run is a run of the abstract system, and ends in the
  view of the state that the concrete one ends in.
* `Simulates.history`: the same for a history that grows by what is seen.
* `viewed_invariant`: what every step keeps, of the state and of what has been seen so far. -/

namespace Protocore

variable {σ ε α β : Type*}

/-- What is seen of a run, as events of another system. -/
def viewed (step : σ → ε → Option σ) (seen : σ → ε → List β) : σ → List ε → List β
  | _, [] => []
  | s, e :: es => seen s e ++ (step s e).elim [] (fun s' => viewed step seen s' es)

/-- Each step under `C` from a state that meets `P` is explained by what is seen of it. -/
structure Simulates (step : σ → ε → Option σ) (astep : α → β → Option α) (P : σ → Prop)
    (C : σ → ε → Prop) (seen : σ → ε → List β) (view : σ → α) : Prop where
  keeps : ∀ s e s', P s → C s e → step s e = some s' → P s'
  explains : ∀ s e s', P s → C s e → step s e = some s' →
    run astep (view s) (seen s e) = some (view s')

variable {step : σ → ε → Option σ} {astep : α → β → Option α} {P : σ → Prop} {C : σ → ε → Prop}
  {seen : σ → ε → List β} {view : σ → α}

theorem viewed_cons {s s' : σ} {e : ε} (he : step s e = some s') (es : List ε) :
    viewed step seen s (e :: es) = seen s e ++ viewed step seen s' es := by
  rw [viewed, he]
  rfl

theorem forall_viewed {Q : β → Prop} : ∀ {es : List ε} {s : σ},
    (∀ s, ∀ e ∈ es, ∀ x ∈ seen s e, Q x) → ∀ x ∈ viewed step seen s es, Q x
  | [], _, _, x, hx => absurd hx List.not_mem_nil
  | e :: es, s, h, x, hx => by
      rcases List.mem_append.mp hx with hx | hx
      · exact h s e List.mem_cons_self x hx
      · cases hs : step s e with
        | none =>
            rw [hs] at hx
            cases hx
        | some s' =>
            rw [hs] at hx
            exact forall_viewed (fun s e' he' => h s e' (List.mem_cons_of_mem e he')) x hx

theorem Simulates.run_viewed (h : Simulates step astep P C seen view) : ∀ {es : List ε} {s s' : σ},
    P s → Along step C s es → run step s es = some s' →
      run astep (view s) (viewed step seen s es) = some (view s')
  | [], s, s', _, _, hrun => by
      obtain rfl : s = s' := by simpa using hrun
      rfl
  | e :: es, s, s', hP, hC, hrun => by
      obtain ⟨s₁, he, hes⟩ := run_cons_eq_some.mp hrun
      have hfirst := h.explains s e s₁ hP hC.1 he
      have hrest := h.run_viewed (h.keeps s e s₁ hP hC.1 he) (hC.2 s₁ he) hes
      rw [viewed_cons he]
      exact run_append_eq_some.mpr ⟨view s₁, hfirst, hrest⟩

/-! ### Histories -/

/-- The abstract system that only remembers what it has seen. -/
def record (l : List β) (x : β) : Option (List β) := some (l ++ [x])

theorem run_record (l xs : List β) : run record l xs = some (l ++ xs) := by
  induction xs generalizing l with
  | nil => rw [List.append_nil, run_nil]
  | cons x xs ih =>
      rw [run_cons_eq_some]
      refine ⟨l ++ [x], rfl, ?_⟩
      rw [ih, List.append_assoc]
      rfl

/-- If each step adds to a history what is seen of it, the history of a run is what is seen of the run. -/
theorem Simulates.history {history : σ → List β} (h : Simulates step record P C seen history)
    {es : List ε} {s s' : σ} (hP : P s) (hC : Along step C s es) (hrun : run step s es = some s') :
    history s' = history s ++ viewed step seen s es := by
  have hrecord := h.run_viewed hP hC hrun
  rw [run_record] at hrecord
  exact (Option.some.inj hrecord).symm

/-- A property of the state and of what has been seen before. -/
theorem viewed_invariant {Q : List β → σ → Prop}
    (hstep : ∀ l s e s', Q l s → C s e → step s e = some s' → Q (l ++ seen s e) s') :
    ∀ {es : List ε} {l : List β} {s s' : σ}, Q l s → Along step C s es → run step s es = some s' →
      Q (l ++ viewed step seen s es) s'
  | [], l, s, s', hQ, _, hrun => by
      obtain rfl : s = s' := by simpa using hrun
      simpa [viewed] using hQ
  | e :: es, l, s, s', hQ, hC, hrun => by
      obtain ⟨s₁, he, hes⟩ := run_cons_eq_some.mp hrun
      have hrest := viewed_invariant hstep (hstep l s e s₁ hQ hC.1 he) (hC.2 s₁ he) hes
      rw [viewed_cons he, ← List.append_assoc]
      exact hrest

end Protocore
