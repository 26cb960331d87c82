import Mathlib.Data.List.Perm.Basic
import Mathlib.Data.List.Range
import Protocore.Run
import Protocore.Bytes

/-! # The memory pool

`MemoryPool` (`memory_pool.h`, `memory_pool.cpp`) over explicit byte memory.  The free list is
intrusive: the first eight bytes of a free block hold the address of the next free block, and
the same bytes belong to the client once the block is handed out.  Addresses and `size_t` are
64-bit: products and pointer sums are taken modulo `2 ^ 64`, `0` is `nullptr`.

`Valid p free out` is the representation invariant: following the links from `free_list`
visits exactly `free` and ends in `nullptr`, and `free` together with the outstanding blocks
`out` are the blocks of the buffer, each once.  One lemma per operation says what it does to
this invariant (`create_valid`, `Valid.allocate_nil`, `Valid.allocate_cons`,
`Valid.deallocate`, `Valid.write`); `PoolClient` is the system of a pool and clients that
write any bytes into the blocks they own. -/

namespace Protocore

open Bytes

/-- The number of addresses, and of values of `size_t`. -/
def addressSpace : ℕ := 2 ^ 64

/-- `sizeof(void*)`. -/
def sizeofPtr : ℕ := 8

/-- The assertions of the source, and the library precondition a queue operation can break. -/
inductive Fault where
  | blockCount
  | blockSize
  | freeListRange
  | foreignPointer
  | outOfMemory
  | popEmpty
  | notInitialized
deriving DecidableEq, Repr

/-- The fields of `MemoryPool`, and the memory its pointers point into. -/
structure MemoryPool where
  blockSize : ℕ
  blockCount : ℕ
  poolData : ℕ
  freeList : ℕ
  mem : Mem

namespace MemoryPool

/-- `size_t` multiplication. -/
def sizeMul (a b : ℕ) : ℕ := a * b % addressSpace

/-- Pointer addition. -/
def ptrAdd (a n : ℕ) : ℕ := (a + n) % addressSpace

/-- `*reinterpret_cast<std::byte**>(a)`. -/
def loadPtr (m : Mem) (a : ℕ) : ℕ := loadLE m a sizeofPtr

/-- `*reinterpret_cast<std::byte**>(a) = v`. -/
def storePtr (m : Mem) (a v : ℕ) : Mem := storeLE m a sizeofPtr v

/-- The value-initialised buffer of `std::make_unique<std::byte[]>(n)`, granted at `base`. -/
def zeroFill (m : Mem) (base n : ℕ) : Mem := fun x => if base ≤ x ∧ x < base + n then 0 else m x

/-- The initialisation loop of the constructor: link the current block to the next one,
`n` times; returns the last block and the memory. -/
def linkBlocks (blockSize : ℕ) : ℕ → ℕ → Mem → ℕ × Mem
  | 0, currentBlock, m => (currentBlock, m)
  | n + 1, currentBlock, m =>
      let next := ptrAdd currentBlock blockSize
      linkBlocks blockSize n next (storePtr m currentBlock next)

/-- `MemoryPool::MemoryPool`; `base` is the address of the granted buffer. -/
def create (blockSize blockCount base : ℕ) (m : Mem) : Except Fault MemoryPool :=
  if ¬ 0 < blockCount then .error .blockCount
  else if ¬ sizeofPtr < blockSize then .error .blockSize
  else
    let m₀ := zeroFill m base (sizeMul blockSize blockCount)
    let last := linkBlocks blockSize (blockCount - 1) base m₀
    .ok ⟨blockSize, blockCount, base, base, storePtr last.2 last.1 0⟩

/-- The range test of both assertions: the pointer is inside `pool_data`. -/
def inRange (p : MemoryPool) (a : ℕ) : Bool :=
  decide (p.poolData ≤ a ∧ a < ptrAdd p.poolData (sizeMul p.blockSize p.blockCount))

/-- `MemoryPool::allocate`; `none` is `nullptr`. -/
def allocate (p : MemoryPool) : Except Fault (Option ℕ × MemoryPool) :=
  if p.freeList = 0 then .ok (none, p)
  else if p.inRange p.freeList then
    .ok (some p.freeList, { p with freeList := loadPtr p.mem p.freeList })
  else .error .freeListRange

/-- `MemoryPool::deallocate`. -/
def deallocate (p : MemoryPool) (ptr : ℕ) : Except Fault MemoryPool :=
  if p.inRange ptr then
    .ok { p with mem := storePtr p.mem ptr p.freeList, freeList := ptr }
  else .error .foreignPointer

/-- A client writes one byte. -/
def write (p : MemoryPool) (a : ℕ) (b : UInt8) : MemoryPool :=
  { p with mem := fun x => if x = a then b else p.mem x }

/-- The block starts of the buffer, `pool_data + i * block_size` for `i < block_count`. -/
def blocks (p : MemoryPool) : List ℕ := List.range' p.poolData p.blockCount p.blockSize

/-- Call `allocate` until it returns `nullptr`, at most `n` times. -/
def drain : ℕ → MemoryPool → Option (List ℕ)
  | 0, _ => none
  | n + 1, p =>
      match p.allocate with
      | .ok (none, _) => some []
      | .ok (some b, p') => (drain n p').map (b :: ·)
      | .error _ => none

/-! ### The representation invariant -/

/-- The free list visits exactly `free`, and `free` and `out` are the blocks of the buffer. -/
structure Valid (p : MemoryPool) (free out : List ℕ) : Prop where
  size : sizeofPtr < p.blockSize
  base : 0 < p.poolData
  bound : p.poolData + p.blockSize * p.blockCount < addressSpace
  links : Chain p.mem sizeofPtr p.freeList free
  blocks : (free ++ out).Perm (List.range' p.poolData p.blockCount p.blockSize)

/-- Two blocks of `bs` bytes do not overlap. -/
def Apart (bs a b : ℕ) : Prop := a + bs ≤ b ∨ b + bs ≤ a

theorem mem_blocks {p : MemoryPool} {a : ℕ} :
    a ∈ p.blocks ↔ ∃ i < p.blockCount, a = p.poolData + i * p.blockSize := by
  simp [MemoryPool.blocks, List.mem_range', Nat.mul_comm]

/-- Blocks lie inside the buffer. -/
theorem block_end_le {p : MemoryPool} {a : ℕ} (ha : a ∈ p.blocks) :
    p.poolData ≤ a ∧ a + p.blockSize ≤ p.poolData + p.blockSize * p.blockCount := by
  obtain ⟨i, hi, rfl⟩ := mem_blocks.mp ha
  have := Nat.mul_le_mul_right p.blockSize (show i + 1 ≤ p.blockCount from hi)
  rw [Nat.add_mul, Nat.mul_comm p.blockCount] at this
  omega

theorem apart_of_ne {p : MemoryPool} {a b : ℕ} (ha : a ∈ p.blocks) (hb : b ∈ p.blocks)
    (hne : a ≠ b) : Apart p.blockSize a b := by
  obtain ⟨i, _, rfl⟩ := mem_blocks.mp ha
  obtain ⟨j, _, rfl⟩ := mem_blocks.mp hb
  rcases Nat.lt_trichotomy i j with h | h | h
  · left
    have := Nat.mul_le_mul_right p.blockSize (show i + 1 ≤ j from h)
    rw [Nat.add_mul] at this
    omega
  · exact absurd (by rw [h]) hne
  · right
    have := Nat.mul_le_mul_right p.blockSize (show j + 1 ≤ i from h)
    rw [Nat.add_mul] at this
    omega

namespace Valid

variable {p : MemoryPool} {free out : List ℕ}

theorem nodup (h : Valid p free out) : (free ++ out).Nodup := by
  rw [h.blocks.nodup_iff]
  have hs : 0 < p.blockSize := Nat.lt_of_le_of_lt (Nat.zero_le _) h.size
  exact List.nodup_range' p.blockSize hs

theorem mem_iff (h : Valid p free out) (a : ℕ) : a ∈ free ∨ a ∈ out ↔ a ∈ p.blocks := by
  rw [MemoryPool.blocks, ← h.blocks.mem_iff, List.mem_append]

theorem free_mem (h : Valid p free out) {a : ℕ} (ha : a ∈ free) : a ∈ p.blocks :=
  (h.mem_iff a).mp (Or.inl ha)

theorem out_mem (h : Valid p free out) {a : ℕ} (ha : a ∈ out) : a ∈ p.blocks :=
  (h.mem_iff a).mp (Or.inr ha)

theorem length (h : Valid p free out) : free.length + out.length = p.blockCount := by
  have := h.blocks.length_eq
  simpa [MemoryPool.blocks] using this

theorem apart (h : Valid p free out) : (free ++ out).Pairwise (Apart p.blockSize) := by
  apply h.nodup.imp_of_mem
  intro a b ha hb hne
  exact apart_of_ne (h.blocks.mem_iff.mp ha) (h.blocks.mem_iff.mp hb) hne

/-- A free and an outstanding block do not overlap. -/
theorem apart_free_out (h : Valid p free out) {a b : ℕ} (ha : a ∈ free) (hb : b ∈ out) :
    Apart p.blockSize a b :=
  (List.pairwise_append.mp h.apart).2.2 a ha b hb

theorem ptrAdd_end (h : Valid p free out) :
    ptrAdd p.poolData (sizeMul p.blockSize p.blockCount) =
      p.poolData + p.blockSize * p.blockCount := by
  have := h.bound
  unfold ptrAdd sizeMul
  rw [Nat.mod_eq_of_lt (a := p.blockSize * p.blockCount) (by omega), Nat.mod_eq_of_lt this]

theorem inRange_block (h : Valid p free out) {a : ℕ} (ha : a ∈ p.blocks) : p.inRange a = true := by
  have h1 := block_end_le ha
  have h2 := h.size
  unfold inRange
  rw [h.ptrAdd_end, decide_eq_true_iff]
  unfold sizeofPtr at h2
  omega

theorem lt_addressSpace (h : Valid p free out) {a : ℕ} (ha : a ∈ p.blocks) : a < addressSpace := by
  have h1 := block_end_le ha
  have h2 := h.bound
  omega

theorem freeList_lt (h : Valid p free out) : p.freeList < addressSpace := by
  have hl := h.links
  cases free with
  | nil =>
      rw [show p.freeList = 0 from hl]
      decide
  | cons b free =>
      rw [hl.1]
      exact h.lt_addressSpace (h.free_mem List.mem_cons_self)

/-! ### One lemma per operation -/

theorem allocate_nil (h : Valid p [] out) : p.allocate = .ok (none, p) := by
  unfold allocate
  rw [if_pos (show p.freeList = 0 from h.links)]

theorem allocate_cons {b : ℕ} (h : Valid p (b :: free) out) :
    p.allocate = .ok (some b, { p with freeList := loadPtr p.mem b }) ∧
      Valid { p with freeList := loadPtr p.mem b } free (b :: out) := by
  obtain ⟨hb, hb0, hrest⟩ := h.links
  constructor
  · unfold allocate
    rw [if_neg (by rw [hb]; exact hb0),
      if_pos (by rw [hb]; exact h.inRange_block (h.free_mem List.mem_cons_self)), hb]
  · refine ⟨h.size, h.base, h.bound, hrest, ?_⟩
    have hperm : (free ++ b :: out).Perm (b :: free ++ out) := List.perm_middle
    exact hperm.trans h.blocks

/-- Bytes written inside outstanding blocks leave the free list alone. -/
theorem write {a : ℕ} {b : UInt8} (h : Valid p free out) {q : ℕ} (hq : q ∈ out) (hlo : q ≤ a)
    (hhi : a < q + p.blockSize) : Valid (p.write a b) free out := by
  refine ⟨h.size, h.base, h.bound, ?_, h.blocks⟩
  apply h.links.congr
  intro c hc x hx hx'
  have hap := h.apart_free_out hc hq
  have hs := h.size
  simp only [MemoryPool.write]
  rw [if_neg]
  rintro rfl
  rcases hap with hap | hap <;> omega

/-- The order of the outstanding blocks is immaterial. -/
theorem of_perm {out' : List ℕ} (h : Valid p free out) (hp : out.Perm out') : Valid p free out' :=
  ⟨h.size, h.base, h.bound, h.links, (List.Perm.append_left free hp.symm).trans h.blocks⟩

theorem deallocate {b : ℕ} (h : Valid p free out) (hb : b ∈ out) :
    p.deallocate b = .ok { p with mem := storePtr p.mem b p.freeList, freeList := b } ∧
      Valid { p with mem := storePtr p.mem b p.freeList, freeList := b } (b :: free)
        (out.erase b) := by
  have hbl := h.out_mem hb
  constructor
  · unfold MemoryPool.deallocate
    rw [if_pos (h.inRange_block hbl)]
  · refine ⟨h.size, h.base, h.bound, ⟨rfl, ?_, ?_⟩, ?_⟩
    · have := (block_end_le hbl).1
      have := h.base
      omega
    · -- the new link is read back as the old head, and misses every older link
      show Chain (storePtr p.mem b p.freeList) sizeofPtr
        (loadLE (storeLE p.mem b sizeofPtr p.freeList) b sizeofPtr) free
      rw [loadLE_storeLE, Nat.mod_eq_of_lt (show p.freeList < 256 ^ sizeofPtr from h.freeList_lt)]
      apply h.links.congr
      intro c hc x hx hx'
      have hap := h.apart_free_out hc hb
      have hs := h.size
      rcases hap with hap | hap
      · exact storeLE_of_lt _ _ _ (by omega)
      · exact storeLE_of_ge _ _ (by omega)
    · refine List.Perm.trans ?_ h.blocks
      rw [List.cons_append]
      exact List.perm_middle.symm.trans
        (List.Perm.append_left free (List.perm_cons_erase hb).symm)

end Valid

/-! ### The constructor -/

theorem linkBlocks_spec {bs : ℕ} (hs : sizeofPtr < bs) : ∀ (n cur : ℕ) (m : Mem),
    0 < cur → cur + n * bs < addressSpace →
      (linkBlocks bs n cur m).1 = cur + n * bs ∧
      (∀ x, x < cur → (linkBlocks bs n cur m).2 x = m x) ∧
      Chain (storePtr (linkBlocks bs n cur m).2 (linkBlocks bs n cur m).1 0) sizeofPtr cur
        (List.range' cur (n + 1) bs)
  | 0, cur, m, hcur, _ => by
      refine ⟨by simp [linkBlocks], fun x _ => rfl, ⟨rfl, by omega, ?_⟩⟩
      simp only [linkBlocks, storePtr]
      rw [loadLE_storeLE]
      exact Nat.zero_mod _
  | n + 1, cur, m, hcur, hb => by
      rw [Nat.add_mul, Nat.one_mul] at hb
      have hnext : ptrAdd cur bs = cur + bs := Nat.mod_eq_of_lt (by omega)
      obtain ⟨h1, h2, h3⟩ := linkBlocks_spec hs n (cur + bs) (storePtr m cur (cur + bs))
        (by omega) (by omega)
      simp only [linkBlocks, hnext]
      refine ⟨by rw [h1, Nat.add_mul]; omega, ?_, ?_⟩
      · intro x hx
        rw [h2 x (by omega)]
        exact storeLE_of_lt _ _ _ hx
      · rw [List.range'_succ]
        refine ⟨rfl, by omega, ?_⟩
        -- the link of the first block is written before, and not touched by, the rest of the loop
        have hlink : loadLE (storePtr (linkBlocks bs n (cur + bs) (storePtr m cur (cur + bs))).2
            (linkBlocks bs n (cur + bs) (storePtr m cur (cur + bs))).1 0) cur sizeofPtr = cur + bs := by
          rw [storePtr, loadLE_storeLE_disjoint _ _ (Or.inl (by rw [h1]; omega)),
            loadLE_congr (m := storePtr m cur (cur + bs)) (fun x _ hx => h2 x (by omega)),
            storePtr, loadLE_storeLE]
          exact Nat.mod_eq_of_lt (show cur + bs < addressSpace by omega)
        rw [hlink]
        exact h3

/-- The constructor builds a pool whose blocks are all free. -/
theorem create_valid {bs bc base : ℕ} (m : Mem) (hs : sizeofPtr < bs) (hc : 0 < bc)
    (hbase : 0 < base) (hend : base + bs * bc < addressSpace) :
    ∃ p, create bs bc base m = .ok p ∧ p.blockSize = bs ∧ p.blockCount = bc ∧
      p.poolData = base ∧ Valid p p.blocks [] := by
  have hb : base + (bc - 1) * bs < addressSpace := by
    have := Nat.mul_le_mul_right bs (show bc - 1 ≤ bc by omega)
    rw [Nat.mul_comm bc] at this
    omega
  obtain ⟨-, -, hchain⟩ := linkBlocks_spec hs (bc - 1) base
    (zeroFill m base (sizeMul bs bc)) hbase hb
  rw [show bc - 1 + 1 = bc by omega] at hchain
  refine ⟨_, by unfold create; rw [if_neg (by omega), if_neg (by omega)], rfl, rfl, rfl, ?_⟩
  refine ⟨hs, hbase, hend, hchain, ?_⟩
  rw [List.append_nil]
  exact List.Perm.refl _

/-! ### Draining the pool -/

/-- Draining a valid pool returns its free list, in order. -/
theorem Valid.drain {n : ℕ} : ∀ {p : MemoryPool} {free out : List ℕ}, Valid p free out →
    free.length < n → p.drain n = some free := by
  induction n with
  | zero => intro p free out _ hn; omega
  | succ n ih =>
      intro p free out h hn
      cases free with
      | nil => simp only [MemoryPool.drain, h.allocate_nil]
      | cons b free =>
          obtain ⟨ha, hv⟩ := h.allocate_cons
          simp only [MemoryPool.drain, ha]
          rw [ih hv (by simpa using hn)]
          rfl

end MemoryPool

/-! ### Clients of the pool -/

/-- A pool and the blocks its clients hold. -/
structure PoolClient where
  pool : MemoryPool
  outstanding : List ℕ

/-- What clients do: allocate, give a block back, write a byte. -/
inductive PoolEvent where
  | allocate
  | deallocate (ptr : ℕ)
  | write (addr : ℕ) (b : UInt8)

namespace PoolClient

/-- Clients return only blocks they hold and write only inside them. -/
def step (c : PoolClient) : PoolEvent → Option PoolClient
  | .allocate =>
      match c.pool.allocate with
      | .ok (some b, p) => some ⟨p, b :: c.outstanding⟩
      | .ok (none, p) => some ⟨p, c.outstanding⟩
      | .error _ => none
  | .deallocate ptr =>
      if ptr ∈ c.outstanding then
        match c.pool.deallocate ptr with
        | .ok p => some ⟨p, c.outstanding.erase ptr⟩
        | .error _ => none
      else none
  | .write a b =>
      if c.outstanding.any (fun q => decide (q ≤ a ∧ a < q + c.pool.blockSize)) then
        some { c with pool := c.pool.write a b }
      else none

/-- The pool keeps its parameters and its representation invariant. -/
structure Inv (bs bc base : ℕ) (c : PoolClient) : Prop where
  blockSize : c.pool.blockSize = bs
  blockCount : c.pool.blockCount = bc
  poolData : c.pool.poolData = base
  valid : ∃ free, c.pool.Valid free c.outstanding

theorem step_inv {bs bc base : ℕ} (c : PoolClient) (e : PoolEvent) (c' : PoolClient)
    (h : Inv bs bc base c) (hs : step c e = some c') : Inv bs bc base c' := by
  obtain ⟨h1, h2, h3, free, hv⟩ := h
  cases e with
  | allocate =>
      cases free with
      | nil =>
          simp only [step, hv.allocate_nil, Option.some.injEq] at hs
          subst hs
          exact ⟨h1, h2, h3, [], hv⟩
      | cons b free =>
          obtain ⟨ha, hv'⟩ := hv.allocate_cons
          simp only [step, ha, Option.some.injEq] at hs
          subst hs
          exact ⟨h1, h2, h3, free, hv'⟩
  | deallocate ptr =>
      simp only [step] at hs
      split at hs
      · rename_i hmem
        obtain ⟨hd, hv'⟩ := hv.deallocate hmem
        simp only [hd, Option.some.injEq] at hs
        subst hs
        exact ⟨h1, h2, h3, _, hv'⟩
      · cases hs
  | write a b =>
      simp only [step] at hs
      split at hs
      · rename_i hany
        obtain ⟨q, hq, hr⟩ := List.any_eq_true.mp hany
        rw [decide_eq_true_iff] at hr
        obtain rfl := Option.some.inj hs
        exact ⟨h1, h2, h3, free, hv.write hq hr.1 hr.2⟩
      · cases hs

/-- What a client can rely on in a state of the pool with blocks `base + i * bs`, `i < bc`. -/
structure Represents (bs bc base : ℕ) (c : PoolClient) : Prop where
  /-- The links end in `nullptr` and visit a list of blocks that do not overlap each other or
  the outstanding ones; together they are all blocks of the buffer. -/
  links : ∃ free, Bytes.Chain c.pool.mem sizeofPtr c.pool.freeList free ∧
    (free ++ c.outstanding).Nodup ∧
    (free ++ c.outstanding).Pairwise (MemoryPool.Apart bs) ∧
    ∀ a, a ∈ free ∨ a ∈ c.outstanding ↔ ∃ i < bc, a = base + i * bs
  /-- The range assertion of `allocate` does not fire. -/
  no_fault : ∀ f, c.pool.allocate ≠ .error f
  /-- `nullptr` is returned exactly when every block is outstanding. -/
  null_iff : (∃ p, c.pool.allocate = .ok (none, p)) ↔ c.outstanding.length = bc
  /-- A returned block is a block start that overlaps no outstanding block. -/
  fresh : ∀ b p, c.pool.allocate = .ok (some b, p) → (∃ i < bc, b = base + i * bs) ∧
    b ∉ c.outstanding ∧ ∀ q ∈ c.outstanding, MemoryPool.Apart bs b q
  /-- Giving back an outstanding block is accepted. -/
  accepted : ∀ q ∈ c.outstanding, ∃ p, c.pool.deallocate q = .ok p
  /-- Draining the pool yields all the blocks that are not outstanding. -/
  drained : ∃ l, c.pool.drain (bc + 1) = some l ∧ l.length + c.outstanding.length = bc

theorem Inv.represents {bs bc base : ℕ} {c : PoolClient} (h : Inv bs bc base c) :
    Represents bs bc base c := by
  obtain ⟨rfl, rfl, rfl, free, hv⟩ := h
  have hlen := hv.length
  refine ⟨⟨free, hv.links, hv.nodup, hv.apart, fun a => ?_⟩, ?_, ?_, ?_, ?_,
    ⟨free, hv.drain (by omega), hlen⟩⟩
  · rw [hv.mem_iff, MemoryPool.mem_blocks]
  · intro f hf
    cases free with
    | nil => rw [hv.allocate_nil] at hf; cases hf
    | cons b free => rw [hv.allocate_cons.1] at hf; cases hf
  · cases free with
    | nil => exact ⟨fun _ => by simpa using hlen, fun _ => ⟨_, hv.allocate_nil⟩⟩
    | cons b free =>
        rw [hv.allocate_cons.1]
        simp only [List.length_cons] at hlen
        exact ⟨fun ⟨_, hp⟩ => by simp at hp, fun hp => by omega⟩
  · intro b p hp
    cases free with
    | nil => rw [hv.allocate_nil] at hp; simp at hp
    | cons b' free =>
        rw [hv.allocate_cons.1] at hp
        simp only [Except.ok.injEq, Prod.mk.injEq, Option.some.injEq] at hp
        obtain rfl := hp.1
        refine ⟨MemoryPool.mem_blocks.mp (hv.free_mem List.mem_cons_self), ?_, ?_⟩
        · intro hb
          exact List.disjoint_of_nodup_append hv.nodup List.mem_cons_self hb
        · intro q hq
          exact hv.apart_free_out List.mem_cons_self hq
  · intro q hq
    exact ⟨_, (hv.deallocate hq).1⟩

/-- **The pool over explicit memory.**  For all sizes the constructor accepts, wherever the
buffer is granted, in every state reached by allocations, returns of outstanding blocks and
arbitrary writes into outstanding blocks, the free list and the outstanding blocks are the
blocks of the buffer. -/
theorem reachable_represents (bs bc base : ℕ) (m : Bytes.Mem) (hs : sizeofPtr < bs) (hc : 0 < bc)
    (hbase : 0 < base) (hend : base + bs * bc < addressSpace) :
    ∃ p, MemoryPool.create bs bc base m = .ok p ∧
      ∀ c, Reaches step ⟨p, []⟩ c → Represents bs bc base c := by
  obtain ⟨p, hp, h1, h2, h3, hv⟩ := MemoryPool.create_valid m hs hc hbase hend
  refine ⟨p, hp, fun c hreach => Inv.represents ?_⟩
  exact hreach.invariant step_inv ⟨h1, h2, h3, _, hv⟩

/-- A client scribbles over the link of its block before it gives the block back. -/
theorem reachable_represents_scribble : ∃ p c,
    MemoryPool.create 16 2 4096 (fun _ => 255) = .ok p ∧
    run step ⟨p, []⟩ [.allocate, .write 4096 7, .allocate, .deallocate 4096] = some c ∧
    c.outstanding = [4112] ∧ Represents 16 2 4096 c := by
  obtain ⟨p, hp, h⟩ := reachable_represents 16 2 4096 (fun _ => 255) (by decide) (by decide)
    (by decide) (by decide)
  have heval : (MemoryPool.create 16 2 4096 (fun _ => 255)).toOption.bind (fun p =>
      (run step ⟨p, []⟩ [.allocate, .write 4096 7, .allocate, .deallocate 4096]).map
        PoolClient.outstanding) = some [4112] := by decide +kernel
  rw [hp] at heval
  obtain ⟨c, hrun, hout⟩ := Option.map_eq_some_iff.mp heval
  exact ⟨p, c, hp, hrun, hout, h c ⟨_, hrun⟩⟩

end PoolClient

end Protocore
