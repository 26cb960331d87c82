import Mathlib.Order.Lattice
import Mathlib.Data.List.Nodup
import Mathlib.Data.List.Perm.Basic
import Mathlib.Tactic.SplitIfs

/-! # Stable priority queues

The abstract queue is the list of pending elements in order of arrival.  `pop prio l` removes
the *first* element of *maximal* priority (`pop_eq_some_iff`): larger priorities first, and
first come, first served among equal ones.  Elements of one priority therefore form a plain
FIFO queue (`filterMap_pop`), however the queue is used at other priorities. -/

namespace Protocore.StableQueue

variable {α κ : Type*} [LinearOrder κ] (prio : α → κ)

/-- Remove the first element of maximal priority. -/
def pop : List α → Option (α × List α)
  | [] => none
  | x :: l =>
      match pop l with
      | none => some (x, [])
      | some (y, l') => if prio x < prio y then some (y, x :: l') else some (x, l)

@[simp] theorem pop_nil : pop prio ([] : List α) = none := rfl

theorem pop_eq_none_iff {l : List α} : pop prio l = none ↔ l = [] := by
  cases l with
  | nil => simp
  | cons x l =>
      simp only [pop]
      cases pop prio l with
      | none => simp
      | some p =>
          obtain ⟨y, l'⟩ := p
          simp only
          split_ifs <;> simp

/-- The popped element beats everything that arrived before it and is not beaten by anything
that arrived after it; the rest keeps its order. -/
theorem pop_spec : ∀ {l : List α} {y : α} {l' : List α}, pop prio l = some (y, l') →
    ∃ pre post, l = pre ++ y :: post ∧ l' = pre ++ post ∧
      (∀ x ∈ pre, prio x < prio y) ∧ ∀ x ∈ post, prio x ≤ prio y
  | [], _, _, h => by simp at h
  | x :: l, y, l', h => by
      simp only [pop] at h
      cases hl : pop prio l with
      | none =>
          rw [hl] at h
          obtain ⟨rfl, rfl⟩ := Prod.mk.inj (Option.some.inj h)
          rw [(pop_eq_none_iff prio).mp hl]
          exact ⟨[], [], rfl, rfl, by simp, by simp⟩
      | some p =>
          obtain ⟨z, l''⟩ := p
          rw [hl] at h
          obtain ⟨pre, post, rfl, rfl, hpre, hpost⟩ := pop_spec hl
          simp only at h
          split_ifs at h with hlt
          · obtain ⟨rfl, rfl⟩ := Prod.mk.inj (Option.some.inj h)
            refine ⟨x :: pre, post, rfl, rfl, ?_, hpost⟩
            intro u hu
            rcases List.mem_cons.mp hu with rfl | hu
            · exact hlt
            · exact hpre u hu
          · obtain ⟨rfl, rfl⟩ := Prod.mk.inj (Option.some.inj h)
            refine ⟨[], pre ++ z :: post, rfl, rfl, by simp, ?_⟩
            have hz : prio z ≤ prio x := not_lt.mp hlt
            intro u hu
            rcases List.mem_append.mp hu with hu | hu
            · exact (hpre u hu).le.trans hz
            · rcases List.mem_cons.mp hu with rfl | hu
              · exact hz
              · exact (hpost u hu).trans hz

theorem le_pop {l : List α} {y : α} {l' : List α} (h : pop prio l = some (y, l')) {x : α}
    (hx : x ∈ l) : prio x ≤ prio y := by
  obtain ⟨pre, post, rfl, -, hpre, hpost⟩ := pop_spec prio h
  obtain hx | hx := List.mem_append.mp hx
  · exact (hpre x hx).le
  · cases hx with
    | head => exact le_rfl
    | tail _ hx => exact hpost x hx

/-- An element with these two properties is the one that is popped. -/
theorem pop_append {pre post : List α} {y : α} (hpre : ∀ x ∈ pre, prio x < prio y)
    (hpost : ∀ x ∈ post, prio x ≤ prio y) :
    pop prio (pre ++ y :: post) = some (y, pre ++ post) := by
  induction pre with
  | nil =>
      simp only [List.nil_append, pop]
      cases hl : pop prio post with
      | none => rw [(pop_eq_none_iff prio).mp hl]
      | some p =>
          obtain ⟨z, l'⟩ := p
          obtain ⟨pre', post', rfl, -, -, -⟩ := pop_spec prio hl
          have : prio z ≤ prio y := hpost z (by simp)
          simp only
          rw [if_neg (not_lt.mpr this)]
  | cons x pre ih =>
      have hx := hpre x List.mem_cons_self
      simp only [List.cons_append, pop]
      rw [ih (fun u hu => hpre u (List.mem_cons_of_mem x hu))]
      simp only
      rw [if_pos hx]

theorem pop_eq_some_iff {l : List α} {y : α} {l' : List α} : pop prio l = some (y, l') ↔
    ∃ pre post, l = pre ++ y :: post ∧ l' = pre ++ post ∧
      (∀ x ∈ pre, prio x < prio y) ∧ ∀ x ∈ post, prio x ≤ prio y := by
  constructor
  · exact pop_spec prio
  · rintro ⟨pre, post, rfl, rfl, hpre, hpost⟩
    exact pop_append prio hpre hpost

theorem pop_perm {l : List α} {y : α} {l' : List α} (h : pop prio l = some (y, l')) :
    l.Perm (y :: l') := by
  obtain ⟨pre, post, rfl, rfl, -, -⟩ := pop_spec prio h
  exact List.perm_middle

theorem pop_map {β : Type*} (f : β → α) {l : List β} {y : β} {l' : List β}
    (h : pop (fun x => prio (f x)) l = some (y, l')) :
    pop prio (l.map f) = some (f y, l'.map f) := by
  obtain ⟨pre, post, rfl, rfl, hpre, hpost⟩ := pop_spec _ h
  rw [List.map_append, List.map_cons, List.map_append]
  exact pop_append prio (List.forall_mem_map.mpr hpre) (List.forall_mem_map.mpr hpost)

/-- Among the elements of one priority the queue is first in, first out: `g` reads something off
elements of priority `k` only. -/
theorem filterMap_pop {l : List α} {y : α} {l' : List α} (h : pop prio l = some (y, l'))
    {β : Type*} {g : α → Option β} {k : κ} (hg : ∀ x, (g x).isSome → prio x = k) :
    l.filterMap g = (g y).toList ++ l'.filterMap g := by
  obtain ⟨pre, post, rfl, rfl, hpre, -⟩ := pop_spec prio h
  simp only [List.filterMap_append, List.filterMap_cons]
  cases hy : g y with
  | none => rfl
  | some b =>
      have hnone : pre.filterMap g = [] := by
        rw [List.filterMap_eq_nil_iff]
        intro x hx
        by_contra hne
        have hlt := hpre x hx
        rw [hg x (Option.isSome_iff_ne_none.mpr hne), hg y (by simp [hy])] at hlt
        exact lt_irrefl k hlt
      rw [hnone]
      rfl

omit [LinearOrder κ] in
theorem filterMap_push {β : Type*} (g : α → Option β) (l : List α) (y : α) :
    (l ++ [y]).filterMap g = l.filterMap g ++ (g y).toList := by
  cases hy : g y <;> simp [hy]

omit [LinearOrder κ] in
/-- Arrivals are numbered from the start: a new one takes the next number and keeps the others. -/
theorem getElem?_snoc {l : List α} {x y : α} {i : ℕ} (h : (l ++ [x])[i]? = some y) :
    (l[i]? = some y ∧ i < l.length) ∨ (i = l.length ∧ x = y) := by
  rcases Nat.lt_trichotomy i l.length with hi | hi | hi
  · rw [List.getElem?_append_left hi] at h
    exact Or.inl ⟨h, hi⟩
  · rw [hi, List.getElem?_append_right (Nat.le_refl _), Nat.sub_self] at h
    exact Or.inr ⟨hi, Option.some.inj h⟩
  · rw [List.getElem?_eq_none (by simp; omega)] at h
    cases h

/-! ### Who is served before whom -/

/-- `x` is served before `y`: its priority is higher, or equal and it arrived first. -/
def Beats (x y : α × ℕ) : Prop := prio y.1 < prio x.1 ∨ prio x.1 = prio y.1 ∧ x.2 < y.2

instance (x y : α × ℕ) : Decidable (Beats prio x y) :=
  inferInstanceAs (Decidable (prio y.1 < prio x.1 ∨ prio x.1 = prio y.1 ∧ x.2 < y.2))

/-- How many elements of the queue are served before `x`. -/
def ahead (l : List (α × ℕ)) (x : α × ℕ) : ℕ := l.countP (fun y => decide (Beats prio y x))

theorem ahead_push (l : List (α × ℕ)) {x y : α × ℕ} (hlt : x.2 < y.2) :
    ahead prio (l ++ [y]) x = ahead prio l x + (decide (prio x.1 < prio y.1)).toNat := by
  have hbeats : Beats prio y x ↔ prio x.1 < prio y.1 := by
    unfold Beats
    constructor
    · rintro (h | h)
      · exact h
      · omega
    · exact Or.inl
  unfold ahead
  rw [List.countP_append, List.countP_singleton]
  by_cases h : prio x.1 < prio y.1
  · simp [hbeats, h]
  · simp [hbeats, h]

section pop

variable {l l' : List (α × ℕ)} {x y : α × ℕ}

theorem ahead_pop (hsorted : l.Pairwise (fun a b => a.2 < b.2))
    (h : pop (fun a => prio a.1) l = some (y, l')) (hx : x ∈ l') :
    ahead prio l x = ahead prio l' x + 1 := by
  obtain ⟨pre, post, rfl, rfl, hpre, hpost⟩ := pop_spec _ h
  rw [List.pairwise_append] at hsorted
  obtain ⟨-, hrest, hcross⟩ := hsorted
  have hbeats : Beats prio y x := by
    rcases List.mem_append.mp hx with hx | hx
    · exact Or.inl (hpre x hx)
    · have hlt := (List.pairwise_cons.mp hrest).1 x hx
      rcases lt_or_eq_of_le (hpost x hx) with hp | hp
      · exact Or.inl hp
      · exact Or.inr ⟨hp.symm, hlt⟩
  unfold ahead
  simp only [List.countP_append, List.countP_cons, hbeats, decide_true, if_true]
  omega

theorem ahead_popped (hsorted : l.Pairwise (fun a b => a.2 < b.2))
    (h : pop (fun a => prio a.1) l = some (y, l')) : ahead prio l y = 0 := by
  obtain ⟨pre, post, rfl, rfl, hpre, hpost⟩ := pop_spec _ h
  rw [List.pairwise_append] at hsorted
  obtain ⟨-, hrest, hcross⟩ := hsorted
  unfold ahead
  rw [List.countP_eq_zero]
  intro z hz hbeats
  have hcases : prio y.1 < prio z.1 ∨ prio z.1 = prio y.1 ∧ z.2 < y.2 := of_decide_eq_true hbeats
  rcases List.mem_append.mp hz with hz | hz
  · have hlt := hpre z hz
    rcases hcases with h | ⟨heq, -⟩
    · exact absurd h hlt.asymm
    · exact absurd heq hlt.ne
  · rcases List.mem_cons.mp hz with rfl | hz
    · rcases hcases with h | ⟨-, h⟩
      · exact absurd h (lt_irrefl _)
      · exact absurd h (Nat.lt_irrefl _)
    · have hlt := (List.pairwise_cons.mp hrest).1 z hz
      rcases hcases with h | ⟨-, h⟩
      · exact absurd h (not_lt.mpr (hpost z hz))
      · exact absurd h hlt.asymm

end pop

theorem ahead_lt_length {l : List (α × ℕ)} {x : α × ℕ} (hx : x ∈ l) : ahead prio l x < l.length := by
  unfold ahead
  refine lt_of_le_of_ne List.countP_le_length (fun heq => ?_)
  have hself := of_decide_eq_true (List.countP_eq_length.mp heq x hx)
  rcases hself with h | ⟨-, h⟩
  · exact lt_irrefl _ h
  · exact Nat.lt_irrefl _ h

end Protocore.StableQueue
