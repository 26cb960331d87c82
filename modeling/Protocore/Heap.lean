import Mathlib.Order.Lattice
import Mathlib.Tactic.SplitIfs

/-! # Binary heaps in a vector

The heap operations of the C++ standard library (`std::push_heap`, `std::pop_heap`) on a
vector, for an arbitrary comparison `lt`: the largest element is at index `0`, the parent of
index `i` is `(i - 1) / 2`.  The standard leaves the layout open; the operations here sift by
exchanging neighbours on one path of the tree.

All results are for a comparison that orders elements by a key in a linear order
(`ByKey lt key`): `pushHeap_isHeap` and `popHeap_spec` say that pushing keeps the heap and that
popping moves an element of maximal key to the end and leaves a heap before it; both only
permute the vector (`pushHeap_perm`, `popHeap_perm`). -/

namespace Protocore.Heap

variable {α κ : Type*} [Inhabited α] [LinearOrder κ]

/-- Index of the parent. -/
def parent (i : ℕ) : ℕ := (i - 1) / 2

theorem parent_lt {i : ℕ} (h : 0 < i) : parent i < i := by unfold parent; omega

section defs
variable (lt : α → α → Bool)

/-- Exchange the element at `i` with its parent while the parent is smaller. -/
def siftUp : ℕ → Array α → ℕ → Array α
  | 0, a, _ => a
  | fuel + 1, a, i =>
      if 0 < i ∧ lt a[parent i]! a[i]! then siftUp fuel (a.swapIfInBounds (parent i) i) (parent i)
      else a

/-- The larger child of `i` among the first `n` elements (the left one on ties). -/
def largerChild (n : ℕ) (a : Array α) (i : ℕ) : ℕ :=
  if 2 * i + 2 < n ∧ lt a[2 * i + 1]! a[2 * i + 2]! then 2 * i + 2 else 2 * i + 1

/-- Exchange the element at `i` with its larger child while that child is larger, within the
first `n` elements. -/
def siftDown (n : ℕ) : ℕ → Array α → ℕ → Array α
  | 0, a, _ => a
  | fuel + 1, a, i =>
      if 2 * i + 1 < n ∧ lt a[i]! a[largerChild lt n a i]! then
        siftDown n fuel (a.swapIfInBounds i (largerChild lt n a i)) (largerChild lt n a i)
      else a

/-- `std::push_heap`: the last element joins the heap before it. -/
def pushHeap (a : Array α) : Array α := siftUp lt (a.size - 1) a (a.size - 1)

/-- `std::pop_heap`: the first element moves to the end, the others form a heap before it. -/
def popHeap (a : Array α) : Array α :=
  siftDown lt (a.size - 1) (a.size - 1) (a.swapIfInBounds 0 (a.size - 1)) 0

end defs

/-! ### Exchanging two elements -/

theorem get_swap (a : Array α) {i j : ℕ} (hi : i < a.size) (hj : j < a.size) (k : ℕ) :
    (a.swapIfInBounds i j)[k]! = if k = i then a[j]! else if k = j then a[i]! else a[k]! := by
  rw [Array.swapIfInBounds_def, dif_pos hi, dif_pos hj]
  by_cases hk : k < a.size
  · rw [getElem!_pos _ k (by simpa using hk), Array.getElem_swap]
    split_ifs <;> simp_all [getElem!_pos]
  · rw [getElem!_neg _ k (by simpa using hk), if_neg (by omega), if_neg (by omega),
      getElem!_neg _ k hk]

omit [Inhabited α] in
theorem swap_perm (a : Array α) (i j : ℕ) : (a.swapIfInBounds i j).Perm a := by
  rw [Array.swapIfInBounds_def]
  split_ifs with hi hj
  · exact Array.swap_perm hi hj
  · exact Array.Perm.refl _
  · exact Array.Perm.refl _

theorem siftUp_perm (lt : α → α → Bool) : ∀ (fuel : ℕ) (a : Array α) (i : ℕ),
    (siftUp lt fuel a i).Perm a
  | 0, a, _ => Array.Perm.refl a
  | fuel + 1, a, i => by
      rw [siftUp]
      split_ifs
      · exact (siftUp_perm lt fuel _ _).trans (swap_perm a _ _)
      · exact Array.Perm.refl a

theorem siftDown_perm (lt : α → α → Bool) (n : ℕ) : ∀ (fuel : ℕ) (a : Array α) (i : ℕ),
    (siftDown lt n fuel a i).Perm a
  | 0, a, _ => Array.Perm.refl a
  | fuel + 1, a, i => by
      rw [siftDown]
      split_ifs
      · exact (siftDown_perm lt n fuel _ _).trans (swap_perm a _ _)
      · exact Array.Perm.refl a

theorem pushHeap_perm (lt : α → α → Bool) (a : Array α) : (pushHeap lt a).Perm a :=
  siftUp_perm lt _ a _

theorem popHeap_perm (lt : α → α → Bool) (a : Array α) : (popHeap lt a).Perm a :=
  (siftDown_perm lt _ _ _ _).trans (swap_perm a _ _)

/-! ### Heap order -/

/-- `lt` compares by `key`. -/
def ByKey (lt : α → α → Bool) (key : α → κ) : Prop := ∀ x y, lt x y = true ↔ key x < key y

/-- The first `n` elements form a heap. -/
def IsHeap (key : α → κ) (a : Array α) (n : ℕ) : Prop :=
  ∀ i, 0 < i → i < n → key a[i]! ≤ key a[parent i]!

/-- The first element of a heap is maximal. -/
theorem IsHeap.le_root {key : α → κ} {a : Array α} {n : ℕ} (h : IsHeap key a n) :
    ∀ i, i < n → key a[i]! ≤ key a[0]! := by
  intro i
  induction i using Nat.strong_induction_on with
  | _ i ih =>
      intro hi
      rcases Nat.eq_zero_or_pos i with rfl | hpos
      · exact le_rfl
      · have hp := parent_lt hpos
        exact (h i hpos hi).trans (ih (parent i) hp (by omega))

/-- Heap order except on the edge into `i`; the children of `i` are below its parent. -/
structure UpReady (key : α → κ) (a : Array α) (n i : ℕ) : Prop where
  edge : ∀ j, 0 < j → j < n → j ≠ i → key a[j]! ≤ key a[parent j]!
  skip : ∀ j, 0 < j → j < n → parent j = i → 0 < i → key a[j]! ≤ key a[parent i]!

/-- Heap order except on the edges out of `i`; the children of `i` are below its parent. -/
structure DownReady (key : α → κ) (a : Array α) (n i : ℕ) : Prop where
  edge : ∀ j, 0 < j → j < n → parent j ≠ i → key a[j]! ≤ key a[parent j]!
  skip : ∀ j, 0 < j → j < n → parent j = i → 0 < i → key a[j]! ≤ key a[parent i]!

variable {lt : α → α → Bool} {key : α → κ}

theorem UpReady.swap {a : Array α} {n i : ℕ} (h : UpReady key a n i) (hn : n ≤ a.size)
    (hi : 0 < i) (hin : i < n) (hlt : key a[parent i]! < key a[i]!) :
    UpReady key (a.swapIfInBounds (parent i) i) n (parent i) := by
  have hp := parent_lt hi
  have hget := get_swap a (show parent i < a.size by omega) (show i < a.size by omega)
  constructor
  · intro j hj hjn hne
    rw [hget, hget, if_neg hne]
    by_cases hji : j = i
    · subst hji
      rw [if_pos rfl, if_pos rfl]
      exact hlt.le
    · rw [if_neg hji]
      split_ifs with h1 h2
      · have := h.edge j hj hjn hji
        rw [h1] at this
        exact this.trans hlt.le
      · exact h.skip j hj hjn h2 hi
      · exact h.edge j hj hjn hji
  · intro j hj hjn hpj hpos
    have hpp := parent_lt hpos
    have hup := h.edge (parent i) hpos (by omega) (by omega)
    rw [hget, hget, if_neg (by omega : parent (parent i) ≠ parent i),
      if_neg (by omega : parent (parent i) ≠ i)]
    split_ifs with h1 h2
    · have := parent_lt hj
      omega
    · exact hup
    · have := h.edge j hj hjn h2
      rw [hpj] at this
      exact this.trans hup

theorem siftUp_isHeap (hlt : ByKey lt key) : ∀ (fuel : ℕ) (a : Array α) (n i : ℕ),
    n ≤ a.size → i < n → i ≤ fuel → UpReady key a n i → IsHeap key (siftUp lt fuel a i) n
  | 0, a, n, i, _, _, hf, h => by
      intro j hj hjn
      exact h.edge j hj hjn (by omega)
  | fuel + 1, a, n, i, hn, hin, hf, h => by
      rw [siftUp]
      split_ifs with hc
      · have hp := parent_lt hc.1
        apply siftUp_isHeap hlt fuel _ n (parent i) (by simpa using hn) (by omega) (by omega)
        exact h.swap hn hc.1 hin ((hlt _ _).mp hc.2)
      · intro j hj hjn
        by_cases hji : j = i
        · subst hji
          have : ¬ key a[parent j]! < key a[j]! := fun hk => hc ⟨hj, (hlt _ _).mpr hk⟩
          exact not_lt.mp this
        · exact h.edge j hj hjn hji

theorem largerChild_spec (hlt : ByKey lt key) (a : Array α) {n i : ℕ} (hc : 2 * i + 1 < n) :
    parent (largerChild lt n a i) = i ∧ i < largerChild lt n a i ∧ largerChild lt n a i < n ∧
      ∀ j, 0 < j → j < n → parent j = i → key a[j]! ≤ key a[largerChild lt n a i]! := by
  have hchild : ∀ j, 0 < j → parent j = i → j = 2 * i + 1 ∨ j = 2 * i + 2 := by
    intro j hj hp
    unfold parent at hp
    omega
  unfold largerChild
  split_ifs with h
  · refine ⟨by unfold parent; omega, by omega, h.1, ?_⟩
    intro j hj hjn hp
    rcases hchild j hj hp with rfl | rfl
    · exact ((hlt _ _).mp h.2).le
    · exact le_rfl
  · refine ⟨by unfold parent; omega, by omega, hc, ?_⟩
    intro j hj hjn hp
    rcases hchild j hj hp with rfl | rfl
    · exact le_rfl
    · exact not_lt.mp (fun hk => h ⟨hjn, (hlt _ _).mpr hk⟩)

theorem DownReady.swap {a : Array α} {n i c : ℕ} (h : DownReady key a n i) (hn : n ≤ a.size)
    (hpc : parent c = i) (hic : i < c) (hcn : c < n) (hlt : key a[i]! < key a[c]!)
    (hmax : ∀ j, 0 < j → j < n → parent j = i → key a[j]! ≤ key a[c]!) :
    DownReady key (a.swapIfInBounds i c) n c := by
  have hget := get_swap a (show i < a.size by omega) (show c < a.size by omega)
  constructor
  · intro j hj hjn hne
    have hp := parent_lt hj
    rw [hget, hget]
    by_cases hpi : parent j = i
    · rw [if_pos hpi, if_neg (by omega : j ≠ i)]
      split_ifs
      · exact hlt.le
      · exact hmax j hj hjn hpi
    · rw [if_neg hpi, if_neg hne]
      split_ifs with h1 h2
      · subst h1
        exact h.skip c (by omega) hcn hpc hj
      · rw [h2] at hpi
        exact absurd hpc hpi
      · exact h.edge j hj hjn hpi
  · intro j hj hjn hpj _
    have hp := parent_lt hj
    rw [hget, hget, hpc, if_pos rfl, if_neg (by omega : j ≠ i), if_neg (by omega : j ≠ c)]
    have := h.edge j hj hjn (by omega)
    rwa [hpj] at this

theorem siftDown_isHeap (hlt : ByKey lt key) (n : ℕ) : ∀ (fuel : ℕ) (a : Array α) (i : ℕ),
    n ≤ a.size → n ≤ fuel + i → DownReady key a n i → IsHeap key (siftDown lt n fuel a i) n
  | 0, a, i, _, hf, h => by
      intro j hj hjn
      refine h.edge j hj hjn ?_
      have := parent_lt hj
      omega
  | fuel + 1, a, i, hn, hf, h => by
      rw [siftDown]
      by_cases hc : 2 * i + 1 < n
      · obtain ⟨hpc, hic, hcn, hmax⟩ := largerChild_spec hlt a hc
        split_ifs with hk
        · apply siftDown_isHeap hlt n fuel _ _ (by simpa using hn) (by omega)
          exact h.swap hn hpc hic hcn ((hlt _ _).mp hk.2) hmax
        · intro j hj hjn
          by_cases hpj : parent j = i
          · have : ¬ key a[i]! < key a[largerChild lt n a i]! :=
              fun hk' => hk ⟨hc, (hlt _ _).mpr hk'⟩
            rw [hpj]
            exact (hmax j hj hjn hpj).trans (not_lt.mp this)
          · exact h.edge j hj hjn hpj
      · rw [if_neg (fun hk => hc hk.1)]
        intro j hj hjn
        refine h.edge j hj hjn ?_
        unfold parent
        omega

/-- The last index is not touched by a sift within the elements before it. -/
theorem siftDown_get_ge (hlt : ByKey lt key) (n : ℕ) : ∀ (fuel : ℕ) (a : Array α) (i k : ℕ),
    n ≤ a.size → n ≤ k → (siftDown lt n fuel a i)[k]! = a[k]!
  | 0, _, _, _, _, _ => rfl
  | fuel + 1, a, i, k, hn, hk => by
      rw [siftDown]
      split_ifs with hc
      · obtain ⟨-, hic, hcn, -⟩ := largerChild_spec hlt a hc.1
        rw [siftDown_get_ge hlt n fuel _ _ k (by simpa using hn) hk,
          get_swap a (by omega) (by omega), if_neg (by omega), if_neg (by omega)]
      · rfl

/-! ### The two operations -/

/-- Pushing the last element onto a heap gives a heap. -/
theorem pushHeap_isHeap (hlt : ByKey lt key) {a : Array α} (ha : 0 < a.size)
    (h : IsHeap key a (a.size - 1)) : IsHeap key (pushHeap lt a) a.size := by
  apply siftUp_isHeap hlt _ a a.size _ le_rfl (by omega) le_rfl
  constructor
  · intro j hj hjn hne
    exact h j hj (by omega)
  · intro j hj hjn hp
    have := parent_lt hj
    omega

/-- Popping moves the root to the end, heap or not. -/
theorem popHeap_last (hlt : ByKey lt key) {a : Array α} (ha : 0 < a.size) :
    (popHeap lt a)[a.size - 1]! = a[0]! := by
  have hget := get_swap a ha (show a.size - 1 < a.size by omega)
  unfold popHeap
  rw [siftDown_get_ge hlt _ _ _ _ _ (by simp) le_rfl, hget]
  by_cases h0 : a.size - 1 = 0
  · rw [if_pos h0, h0]
  · rw [if_neg h0, if_pos rfl]

/-- Popping a heap moves a maximal element to the end and leaves a heap before it. -/
theorem popHeap_spec (hlt : ByKey lt key) {a : Array α} (ha : 0 < a.size)
    (h : IsHeap key a a.size) :
    (popHeap lt a)[a.size - 1]! = a[0]! ∧ IsHeap key (popHeap lt a) (a.size - 1) := by
  have hget := get_swap a ha (show a.size - 1 < a.size by omega)
  constructor
  · exact popHeap_last hlt ha
  · unfold popHeap
    apply siftDown_isHeap hlt _ _ _ _ (by simp) (by omega)
    constructor
    · intro j hj hjn hne
      have := parent_lt hj
      rw [hget, hget, if_neg (by omega : j ≠ 0), if_neg (by omega : j ≠ a.size - 1),
        if_neg hne, if_neg (by omega : parent j ≠ a.size - 1)]
      exact h j hj (by omega)
    · intro j _ _ _ h0
      omega

end Protocore.Heap
