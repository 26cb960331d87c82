import Protocore.Simulation

/-! # Loops, one iteration a step

A thread that goes through a list takes one step for each element of it, while other threads go on.  As
long as they leave alone what the loop works on, as the owner of a mutex may expect, the loop does what it
would do in one step.

* `Iterates body l a b xs`: the iterations at the elements of `l`, one after the other, can lead from `a`
  to `b`, and `xs` is what is seen of them.
* `Loop`: the condition on the single steps of the system.
* `Loop.completes`: a run that leads out of the loop first completes all of its iterations. -/

namespace Protocore

variable {σ ε ι α β : Type*}

/-- One iteration after the other, with everything that is seen of them. -/
inductive Iterates (body : ι → α → α → List β → Prop) : List ι → α → α → List β → Prop
  | nil (a : α) : Iterates body [] a a []
  | cons {i : ι} {l : List ι} {a b c : α} {xs ys : List β} (hi : body i a b xs)
      (hl : Iterates body l b c ys) : Iterates body (i :: l) a c (xs ++ ys)

/-- A step while the loop has `l` still to visit, if it leads from `a` to `b`, is seen as `xs` and leaves
`left` to visit: it is a step of another thread, an iteration, or the end of the loop. -/
inductive Loop.Step (body : ι → α → α → List β → Prop) (a b : α) (xs : List β) :
    List ι → Option (List ι) → Prop
  | other {l : List ι} (hview : b = a) (hseen : xs = []) : Loop.Step body a b xs l (some l)
  | iterate {i : ι} {l : List ι} (hi : body i a b xs) : Loop.Step body a b xs (i :: l) (some l)
  | finish (hview : b = a) (hseen : xs = []) : Loop.Step body a b xs [] none

/-- The thread is in its loop as long as `left` says what there is still to visit; `view` is what the loop
works on and `seen` what it does to others. -/
structure Loop (step : σ → ε → Option σ) (P : σ → Prop) (left : σ → Option (List ι)) (view : σ → α)
    (seen : σ → ε → List β) (body : ι → α → α → List β → Prop) : Prop where
  keeps : ∀ s e s', P s → step s e = some s' → P s'
  next : ∀ s e s' l, P s → left s = some l → step s e = some s' →
    Loop.Step body (view s) (view s') (seen s e) l (left s')

variable {step : σ → ε → Option σ} {P : σ → Prop} {left : σ → Option (List ι)} {view : σ → α}
  {seen : σ → ε → List β} {body : ι → α → α → List β → Prop}

/-- A run that leads out of the loop comes to a state in which all its iterations have been made. -/
theorem Loop.completes (h : Loop step P left view seen body) : ∀ {es : List ε} {s s' : σ} {l : List ι},
    P s → left s = some l → run step s es = some s' → left s' = none →
      ∃ es₁ es₂ s₁, es = es₁ ++ es₂ ∧ run step s es₁ = some s₁ ∧ left s₁ = none ∧
        run step s₁ es₂ = some s' ∧ Iterates body l (view s) (view s₁) (viewed step seen s es₁)
  | [], s, s', l, _, hl, hrun, hout => by
      obtain rfl : s = s' := by simpa using hrun
      rw [hl] at hout
      cases hout
  | e :: es, s, s', l, hP, hl, hrun, hout => by
      obtain ⟨s₀, he, hes⟩ := run_cons_eq_some.mp hrun
      have hP₀ := h.keeps s e s₀ hP he
      have hstep := h.next s e s₀ l hP hl he
      generalize hleft : left s₀ = l₀ at hstep
      cases hstep with
      | other hview hseen =>
          obtain ⟨es₁, es₂, s₁, rfl, hrun₁, hout₁, hrun₂, hiter⟩ := h.completes hP₀ hleft hes hout
          refine ⟨e :: es₁, es₂, s₁, rfl, run_cons_eq_some.mpr ⟨s₀, he, hrun₁⟩, hout₁, hrun₂, ?_⟩
          rw [viewed_cons he, hseen, List.nil_append, ← hview]
          exact hiter
      | iterate hi =>
          obtain ⟨es₁, es₂, s₁, rfl, hrun₁, hout₁, hrun₂, hiter⟩ := h.completes hP₀ hleft hes hout
          refine ⟨e :: es₁, es₂, s₁, rfl, run_cons_eq_some.mpr ⟨s₀, he, hrun₁⟩, hout₁, hrun₂, ?_⟩
          rw [viewed_cons he]
          exact .cons hi hiter
      | finish hview hseen =>
          refine ⟨[e], es, s₀, rfl, run_cons_eq_some.mpr ⟨s₀, he, rfl⟩, hleft, hes, ?_⟩
          rw [viewed_cons he, hseen, hview]
          exact .nil _

end Protocore
