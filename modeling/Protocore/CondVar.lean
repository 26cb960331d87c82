import Mathlib.Algebra.BigOperators.Fin
import Mathlib.Algebra.Order.BigOperators.Group.Finset
import Mathlib.Data.Fintype.BigOperators
import Mathlib.Logic.Relation

/-! # Condition variables

Threads share something that is counted (`credit`) under a mutex and wait on one condition variable for
it.  A thread that is `awake` evaluates the predicate while it owns the mutex: it takes a credit, or it
blocks, which releases the mutex in the same step.  A thread that has put a credit calls `notify_one`
later, without the mutex (`owing`); one that has closed the whole thing calls `notify_all` later
(`closing`).  A blocked thread may also wake up by itself, after a timeout or for no reason.

`Attended`: as long as a thread is blocked, the credits do not outnumber the threads that are awake or
owe a `notify_one`, and if everything is closed, a `notify_all` is still to come.  Every step keeps it
(`Step.attended`), although a `notify_one` may find nobody to wake and a credit may be taken by a thread
that was never blocked.

The threads of a system are given by a function `f : κ → α` that says where each of them is;
`total w f` adds up a weight of these points, and `total_update` says what a single thread does to it. -/

namespace Protocore.CondVar

section total

variable {κ α : Type*} [Fintype κ]

/-- The weights of the points where the threads are, added up. -/
def total (w : α → ℕ) (f : κ → α) : ℕ := ∑ k, w (f k)

variable {w : α → ℕ} {f : κ → α}

theorem total_update [DecidableEq κ] (w : α → ℕ) (f : κ → α) (k : κ) (a : α) :
    total w (Function.update f k a) + w (f k) = total w f + w a := by
  have hmoved : ∀ j, w (Function.update f k a j) = Function.update (fun j => w (f j)) k (w a) j := by
    intro j
    by_cases hj : j = k
    · simp [hj]
    · simp [hj]
  unfold total
  simp only [hmoved]
  rw [Finset.sum_update_of_mem (Finset.mem_univ k),
    Finset.sum_eq_add_sum_sdiff_singleton_of_mem (Finset.mem_univ k) (fun j => w (f j))]
  omega

theorem le_total (w : α → ℕ) (f : κ → α) (k : κ) : w (f k) ≤ total w f := by
  unfold total
  exact Finset.single_le_sum (f := fun j => w (f j)) (fun _ _ => Nat.zero_le _) (Finset.mem_univ k)

theorem total_eq_zero_iff : total w f = 0 ↔ ∀ k, w (f k) = 0 := by
  unfold total
  rw [Finset.sum_eq_zero_iff]
  simp

end total

/-- How many threads are where, and what they wait for. -/
structure Counts where
  credit : ℕ
  closed : Bool
  blocked : ℕ
  awake : ℕ
  owing : ℕ
  closing : ℕ

namespace Counts

/-- One step of one thread. -/
inductive Step (c : Counts) : Counts → Prop
  | arrive : Step c { c with awake := c.awake + 1 }
  | put : Step c { c with credit := c.credit + 1, owing := c.owing + 1 }
  | notifyOne {n m : ℕ} (ho : c.owing = n + 1) (hb : c.blocked = m + 1) :
      Step c { c with owing := n, blocked := m, awake := c.awake + 1 }
  | notifyNobody {n : ℕ} (ho : c.owing = n + 1) (hb : c.blocked = 0) : Step c { c with owing := n }
  | take {n m : ℕ} (ha : c.awake = n + 1) (hc : c.credit = m + 1) :
      Step c { c with awake := n, credit := m }
  | block {n : ℕ} (ha : c.awake = n + 1) (hc : c.credit = 0) (ho : c.closed = false) :
      Step c { c with awake := n, blocked := c.blocked + 1 }
  | leave {n : ℕ} (ha : c.awake = n + 1) (hc : c.credit = 0) : Step c { c with awake := n }
  | wake {n : ℕ} (hb : c.blocked = n + 1) :
      Step c { c with blocked := n, awake := c.awake + 1 }
  | close : Step c { c with closed := true, closing := c.closing + 1 }
  | notifyAll {n : ℕ} (hc : c.closing = n + 1) :
      Step c { c with closing := n, blocked := 0, awake := c.awake + c.blocked }

/-- Whoever is blocked misses nothing. -/
def Attended (c : Counts) : Prop :=
  0 < c.blocked → c.credit ≤ c.awake + c.owing ∧ (c.closed = true → 0 < c.closing)

variable {c c' : Counts}

theorem Step.attended (h : Step c c') (hc : Attended c) : Attended c' := by
  unfold Attended at hc ⊢
  cases h with
  | arrive =>
      intro hb
      obtain ⟨hle, hclosed⟩ := hc hb
      exact ⟨by simp only; omega, hclosed⟩
  | put =>
      intro hb
      obtain ⟨hle, hclosed⟩ := hc hb
      exact ⟨by simp only; omega, hclosed⟩
  | notifyOne ho hb' =>
      intro hb
      obtain ⟨hle, hclosed⟩ := hc (by omega)
      exact ⟨by simp only; omega, hclosed⟩
  | notifyNobody ho hb' =>
      intro hb
      simp only at hb
      omega
  | take ha hcr =>
      intro hb
      obtain ⟨hle, hclosed⟩ := hc hb
      exact ⟨by simp only; omega, hclosed⟩
  | block ha hcr ho =>
      intro _
      refine ⟨by simp only; omega, fun hclosed => ?_⟩
      simp only at hclosed
      rw [ho] at hclosed
      cases hclosed
  | leave ha hcr =>
      intro hb
      obtain ⟨hle, hclosed⟩ := hc hb
      exact ⟨by simp only; omega, hclosed⟩
  | wake hb' =>
      intro hb
      obtain ⟨hle, hclosed⟩ := hc (by omega)
      exact ⟨by simp only; omega, hclosed⟩
  | close =>
      intro hb
      exact ⟨(hc hb).1, fun _ => Nat.succ_pos _⟩
  | notifyAll =>
      intro hb
      simp only at hb
      omega

/-- Steps of several threads, one after the other. -/
theorem attended_of_steps (h : Relation.ReflTransGen Step c c') (hc : Attended c) : Attended c' := by
  induction h with
  | refl => exact hc
  | tail _ hstep ih => exact hstep.attended ih

end Counts

end Protocore.CondVar
