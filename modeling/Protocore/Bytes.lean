import Mathlib.Tactic.Ring
import Mathlib.Data.List.Nodup

/-! # Byte memory and intrusive linked lists

Memory is an unbounded array of bytes.  `loadLE m a n` reads `n` bytes at `a` as a
little-endian number and `storeLE m a n v` writes the low `n` bytes of `v` there; a store is
seen by a load of the same cells (`loadLE_storeLE`) and by no load of cells disjoint from
them (`loadLE_congr`, `storeLE_of_lt`, `storeLE_of_ge`).

`Chain m w a l` says that following the `w`-byte links stored in memory from the address `a`
visits exactly the addresses `l`, in this order, and ends in the null address `0`.
`Chain.congr` is the frame rule: a chain survives every write that misses its own links. -/

namespace Protocore.Bytes

/-- Byte-addressed memory. -/
abbrev Mem := ℕ → UInt8

/-- The little-endian number stored in the `n` bytes at `a`. -/
def loadLE (m : Mem) : ℕ → ℕ → ℕ
  | _, 0 => 0
  | a, n + 1 => (m a).toNat + 256 * loadLE m (a + 1) n

/-- Write the low `n` bytes of `v` at `a`, least significant first. -/
def storeLE (m : Mem) (a n v : ℕ) : Mem := fun x =>
  if a ≤ x ∧ x < a + n then UInt8.ofNat (v / 256 ^ (x - a)) else m x

theorem storeLE_of_lt (m : Mem) {a x : ℕ} (n v : ℕ) (h : x < a) : storeLE m a n v x = m x := by
  simp only [storeLE]
  rw [if_neg (by omega)]

theorem storeLE_of_ge (m : Mem) {a x n : ℕ} (v : ℕ) (h : a + n ≤ x) : storeLE m a n v x = m x := by
  simp only [storeLE]
  rw [if_neg (by omega)]

theorem loadLE_congr {m m' : Mem} : ∀ {n a : ℕ}, (∀ x, a ≤ x → x < a + n → m' x = m x) →
    loadLE m' a n = loadLE m a n
  | 0, _, _ => rfl
  | n + 1, a, h => by
      simp only [loadLE]
      rw [h a (by omega) (by omega), loadLE_congr (n := n) (a := a + 1)]
      intro x hx hx'
      exact h x (by omega) (by omega)

theorem loadLE_of_bytes {m : Mem} : ∀ {n a v : ℕ},
    (∀ i, i < n → m (a + i) = UInt8.ofNat (v / 256 ^ i)) → loadLE m a n = v % 256 ^ n
  | 0, _, v, _ => by simp [loadLE, Nat.mod_one]
  | n + 1, a, v, h => by
      have h0 : m a = UInt8.ofNat v := by simpa using h 0 (by omega)
      have hrest : loadLE m (a + 1) n = (v / 256) % 256 ^ n := by
        apply loadLE_of_bytes
        intro i hi
        have := h (i + 1) (by omega)
        rw [show a + 1 + i = a + (i + 1) by omega, this, Nat.div_div_eq_div_mul, Nat.pow_succ']
      have hbyte : (UInt8.ofNat v).toNat = v % 256 := by simp
      rw [loadLE, h0, hrest, hbyte, Nat.pow_succ', Nat.mod_mul]

/-- A load sees the store to the same cells. -/
theorem loadLE_storeLE (m : Mem) (a n v : ℕ) : loadLE (storeLE m a n v) a n = v % 256 ^ n := by
  apply loadLE_of_bytes
  intro i hi
  simp only [storeLE]
  rw [if_pos (by omega), show a + i - a = i by omega]

/-- A load of cells disjoint from a store does not see it. -/
theorem loadLE_storeLE_disjoint (m : Mem) {a b n k : ℕ} (v : ℕ) (h : a + n ≤ b ∨ b + k ≤ a) :
    loadLE (storeLE m b k v) a n = loadLE m a n := by
  apply loadLE_congr
  intro x hx hx'
  rcases h with h | h
  · exact storeLE_of_lt m k v (by omega)
  · exact storeLE_of_ge m v (by omega)

/-! ### Chains of links -/

/-- Following the `w`-byte links from `a` visits exactly `l` and ends in the null address. -/
def Chain (m : Mem) (w : ℕ) : ℕ → List ℕ → Prop
  | a, [] => a = 0
  | a, b :: l => a = b ∧ b ≠ 0 ∧ Chain m w (loadLE m b w) l

/-- Frame rule: a chain survives every change of memory outside its own links. -/
theorem Chain.congr {m m' : Mem} {w : ℕ} : ∀ {a : ℕ} {l : List ℕ}, Chain m w a l →
    (∀ b ∈ l, ∀ x, b ≤ x → x < b + w → m' x = m x) → Chain m' w a l
  | _, [], h, _ => h
  | _, b :: l, h, hm => by
      obtain ⟨hab, hb, h⟩ := h
      refine ⟨hab, hb, ?_⟩
      rw [loadLE_congr (hm b List.mem_cons_self)]
      exact Chain.congr h (fun c hc => hm c (List.mem_cons_of_mem b hc))

end Protocore.Bytes
