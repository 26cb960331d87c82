import Protocore.MemoryPool

/-! # What the memory pool checks

`MemoryPool` trusts its callers in two places.  `deallocate` tests that a pointer lies in the byte
range of the buffer, not that it is the start of a block that is outstanding.  The constructor tests
`block_count` and `block_size` alone, and asks for a buffer of their product modulo `2 ^ 64`.

`deallocate_rejects`: whatever pointers clients have passed before, a call of `deallocate` fails
exactly outside of the buffer; and as long as all pointers inside the buffer are those of outstanding
blocks, the outstanding blocks do not overlap and the free list ends.  `links_inBounds_iff`: the
links written by the constructor and the blocks returned later lie inside the buffer exactly when the
product of the two sizes does not wrap. -/

namespace Protocore

open Bytes

/-! ### Pointers given back -/

namespace PoolClient

/-- Clients pass any pointers to `deallocate`; an assertion that fails leaves the pool alone. -/
def anyStep (c : PoolClient) : PoolEvent → Option PoolClient
  | .allocate => step c .allocate
  | .deallocate ptr =>
      match c.pool.deallocate ptr with
      | .ok p => some ⟨p, c.outstanding.erase ptr⟩
      | .error _ => some c
  | .write a b => step c (.write a b)

/-- The pool is the one that was constructed. -/
structure Fixed (bs bc base : ℕ) (c : PoolClient) : Prop where
  blockSize : c.pool.blockSize = bs
  blockCount : c.pool.blockCount = bc
  poolData : c.pool.poolData = base

/-- The pointer is outside of the buffer. -/
def Outside (bs bc base ptr : ℕ) : Prop := ptr < base ∨ base + bs * bc ≤ ptr

/-- A pointer that is given back is an outstanding block or outside of the buffer. -/
def Guarded (bs bc base : ℕ) (c : PoolClient) : PoolEvent → Prop
  | .deallocate ptr => ptr ∈ c.outstanding ∨ Outside bs bc base ptr
  | _ => True

/-- No two outstanding blocks overlap, and the free list visits finitely many blocks, none of them
twice. -/
def Sound (bs : ℕ) (c : PoolClient) : Prop :=
  c.outstanding.Pairwise (MemoryPool.Apart bs) ∧
    ∃ free, Chain c.pool.mem sizeofPtr c.pool.freeList free ∧ free.Nodup

instance decidableGuarded (bs bc base : ℕ) (c : PoolClient) :
    ∀ e, Decidable (Guarded bs bc base c e)
  | .allocate => isTrue trivial
  | .deallocate ptr =>
      inferInstanceAs (Decidable (ptr ∈ c.outstanding ∨ ptr < base ∨ base + bs * bc ≤ ptr))
  | .write _ _ => isTrue trivial

variable {bs bc base : ℕ}

theorem inRange_iff {p : MemoryPool} (hend : p.poolData + p.blockSize * p.blockCount < addressSpace)
    (ptr : ℕ) : p.inRange ptr = true ↔ ¬ Outside p.blockSize p.blockCount p.poolData ptr := by
  have hmul : MemoryPool.sizeMul p.blockSize p.blockCount = p.blockSize * p.blockCount :=
    Nat.mod_eq_of_lt (by omega)
  have hadd : MemoryPool.ptrAdd p.poolData (p.blockSize * p.blockCount) =
      p.poolData + p.blockSize * p.blockCount := Nat.mod_eq_of_lt hend
  unfold MemoryPool.inRange Outside
  rw [hmul, hadd, decide_eq_true_iff]
  omega

theorem Fixed.deallocate_error_iff {c : PoolClient} (h : Fixed bs bc base c)
    (hend : base + bs * bc < addressSpace) (ptr : ℕ) :
    c.pool.deallocate ptr = .error .foreignPointer ∧ anyStep c (.deallocate ptr) = some c ↔
      Outside bs bc base ptr := by
  obtain ⟨rfl, rfl, rfl⟩ := h
  have hrange := inRange_iff hend ptr
  constructor
  · rintro ⟨herr, -⟩
    by_contra hin
    unfold MemoryPool.deallocate at herr
    rw [if_pos (hrange.mpr hin)] at herr
    cases herr
  · intro hout
    have herr : c.pool.deallocate ptr = .error .foreignPointer := by
      unfold MemoryPool.deallocate
      rw [if_neg (fun hin => hrange.mp hin hout)]
    exact ⟨herr, by simp only [anyStep, herr]⟩

theorem anyStep_fixed {c c' : PoolClient} {e : PoolEvent} (h : Fixed bs bc base c)
    (hs : anyStep c e = some c') : Fixed bs bc base c' := by
  obtain ⟨h1, h2, h3⟩ := h
  cases e with
  | allocate =>
      simp only [anyStep, step, MemoryPool.allocate] at hs
      split_ifs at hs
      · obtain rfl := Option.some.inj hs
        exact ⟨h1, h2, h3⟩
      · obtain rfl := Option.some.inj hs
        exact ⟨h1, h2, h3⟩
  | deallocate ptr =>
      simp only [anyStep, MemoryPool.deallocate] at hs
      split_ifs at hs
      · obtain rfl := Option.some.inj hs
        exact ⟨h1, h2, h3⟩
      · obtain rfl := Option.some.inj hs
        exact ⟨h1, h2, h3⟩
  | write a b =>
      simp only [anyStep, step] at hs
      split_ifs at hs
      obtain rfl := Option.some.inj hs
      exact ⟨h1, h2, h3⟩

theorem Inv.fixed {c : PoolClient} (h : Inv bs bc base c) : Fixed bs bc base c :=
  ⟨h.blockSize, h.blockCount, h.poolData⟩

theorem Inv.sound {c : PoolClient} (h : Inv bs bc base c) : Sound bs c := by
  obtain ⟨free, hlinks, hnodup, hapart, -⟩ := h.represents.links
  exact ⟨(List.pairwise_append.mp hapart).2.1, free, hlinks, hnodup.of_append_left⟩

/-- A guarded call returns an outstanding block or fails. -/
theorem anyStep_inv {c c' : PoolClient} {e : PoolEvent} (hend : base + bs * bc < addressSpace)
    (h : Inv bs bc base c) (hg : Guarded bs bc base c e) (hs : anyStep c e = some c') :
    Inv bs bc base c' := by
  cases e with
  | allocate => exact step_inv c .allocate c' h hs
  | write a b => exact step_inv c (.write a b) c' h hs
  | deallocate ptr =>
      rcases hg with hmem | hout
      · apply step_inv c (.deallocate ptr) c' h
        obtain ⟨p, hp⟩ := h.represents.accepted ptr hmem
        simp only [anyStep, hp] at hs
        simp only [step, if_pos hmem, hp]
        exact hs
      · have hsame := ((h.fixed.deallocate_error_iff hend ptr).mpr hout).2
        obtain rfl := Option.some.inj (hsame.symm.trans hs)
        exact h

/-- **What `deallocate` rejects.**  In every state reached by any calls with any pointers, a call of
`deallocate` trips its assertion and changes nothing exactly when its pointer is outside of the
buffer.  In every run whose pointers are outstanding blocks or outside of the buffer, the outstanding
blocks do not overlap and the free list is not cyclic. -/
theorem deallocate_rejects (bs bc base : ℕ) (m : Mem) (hs : sizeofPtr < bs) (hc : 0 < bc)
    (hbase : 0 < base) (hend : base + bs * bc < addressSpace) :
    ∃ p, MemoryPool.create bs bc base m = .ok p ∧
      ∀ es c, run anyStep ⟨p, []⟩ es = some c →
        (∀ ptr, c.pool.deallocate ptr = .error .foreignPointer ∧
          anyStep c (.deallocate ptr) = some c ↔ Outside bs bc base ptr) ∧
        (Along anyStep (Guarded bs bc base) ⟨p, []⟩ es → Sound bs c) := by
  obtain ⟨p, hp, h1, h2, h3, hv⟩ := MemoryPool.create_valid m hs hc hbase hend
  have hinv : Inv bs bc base ⟨p, []⟩ := ⟨h1, h2, h3, _, hv⟩
  refine ⟨p, hp, fun es c hrun => ⟨?_, fun halong => ?_⟩⟩
  · have hfixed : Fixed bs bc base c :=
      run_invariant (fun _ _ _ h hstep => anyStep_fixed h hstep) hinv.fixed hrun
    exact hfixed.deallocate_error_iff hend
  · have hinv' : Inv bs bc base c :=
      run_invariant_along (fun _ _ _ h hg hstep => anyStep_inv hend h hg hstep) hinv halong hrun
    exact hinv'.sound

theorem deallocate_rejects_foreign : ∃ p c,
    MemoryPool.create 16 2 4096 (fun _ => 0) = .ok p ∧
    run anyStep ⟨p, []⟩ [.allocate, .deallocate 64, .allocate, .deallocate 4096] = some c ∧
    c.outstanding = [4112] ∧ Sound 16 c := by
  obtain ⟨p, hp, h⟩ := deallocate_rejects 16 2 4096 (fun _ => 0) (by decide) (by decide)
    (by decide) (by decide)
  have heval : (MemoryPool.create 16 2 4096 (fun _ => 0)).toOption.bind (fun p =>
      (run anyStep ⟨p, []⟩ [.allocate, .deallocate 64, .allocate, .deallocate 4096]).map
        (fun c => (c.outstanding, decide (Along anyStep (Guarded 16 2 4096) ⟨p, []⟩
          [.allocate, .deallocate 64, .allocate, .deallocate 4096])))) = some ([4112], true) := by
    decide +kernel
  rw [hp] at heval
  obtain ⟨c, hrun, hval⟩ := Option.map_eq_some_iff.mp heval
  obtain ⟨hout, hguarded⟩ := Prod.mk.inj hval
  exact ⟨p, c, hp, hrun, hout, (h _ c hrun).2 (of_decide_eq_true hguarded)⟩

/-- A block is given back twice, and then has two owners. -/
theorem freed_twice : ∃ p c c',
    MemoryPool.create 16 2 4096 (fun _ => 0) = .ok p ∧
    run anyStep ⟨p, []⟩ [.allocate, .deallocate 4096] = some c ∧
    c.outstanding = [] ∧ c.pool.deallocate 4096 ≠ .error .foreignPointer ∧
    run anyStep c [.deallocate 4096, .allocate, .allocate] = some c' ∧
    c'.outstanding = [4096, 4096] ∧ ¬ c'.outstanding.Pairwise (MemoryPool.Apart 16) := by
  have heval : (MemoryPool.create 16 2 4096 (fun _ => 0)).toOption.bind (fun p =>
      (run anyStep ⟨p, []⟩ [.allocate, .deallocate 4096]).bind (fun c =>
        (run anyStep c [.deallocate 4096, .allocate, .allocate]).map (fun c' =>
          (c.outstanding, (c.pool.deallocate 4096).toOption.isSome, c'.outstanding)))) =
      some ([], true, [4096, 4096]) := by decide +kernel
  obtain ⟨p, hp, heval⟩ := Option.bind_eq_some_iff.mp heval
  obtain ⟨c, hrun, heval⟩ := Option.bind_eq_some_iff.mp heval
  obtain ⟨c', hrun', hval⟩ := Option.map_eq_some_iff.mp heval
  obtain ⟨hout, hval⟩ := Prod.mk.inj hval
  obtain ⟨haccepted, hout'⟩ := Prod.mk.inj hval
  refine ⟨p, c, c', eq_ok_of_toOption hp, hrun, hout, ?_, hrun', hout', ?_⟩
  · intro herr
    rw [herr] at haccepted
    cases haccepted
  · rw [hout']
    unfold MemoryPool.Apart
    simp

end PoolClient

/-! ### Sizes asked for -/

namespace MemoryPool

/-- The stores of the constructor, as offsets from `pool_data` and pointers: `current_block` advances
by `block_size`, `n` times, and its last link is null.  An offset is a distance, and does not wrap. -/
def linkStores (blockSize base : ℕ) : ℕ → ℕ → List (ℕ × ℕ)
  | 0, current => [(current, 0)]
  | n + 1, current =>
      (current, ptrAdd base (current + blockSize)) :: linkStores blockSize base n (current + blockSize)

theorem linkStores_fst (blockSize base : ℕ) : ∀ n current,
    (linkStores blockSize base n current).map Prod.fst = List.range' current (n + 1) blockSize
  | 0, current => rfl
  | n + 1, current => by
      rw [List.range'_succ, ← linkStores_fst blockSize base n (current + blockSize)]
      rfl

theorem linkBlocks_eq_foldl (blockSize base : ℕ) : ∀ n current (m : Mem),
    storePtr (linkBlocks blockSize n (ptrAdd base current) m).2
        (linkBlocks blockSize n (ptrAdd base current) m).1 0 =
      (linkStores blockSize base n current).foldl
        (fun m store => storePtr m (ptrAdd base store.1) store.2) m
  | 0, current, m => rfl
  | n + 1, current, m => by
      have hnext : ptrAdd (ptrAdd base current) blockSize = ptrAdd base (current + blockSize) := by
        unfold ptrAdd
        rw [Nat.mod_add_mod, Nat.add_assoc]
      simp only [linkBlocks, linkStores, List.foldl_cons, hnext]
      exact linkBlocks_eq_foldl blockSize base n (current + blockSize) _

/-- Every link that the constructor writes, and every block that `allocate` returns in any later
state, lies inside the buffer of `size` bytes at `base`. -/
structure InBounds (p : MemoryPool) (stores : List (ℕ × ℕ)) (size : ℕ) : Prop where
  links : ∀ store ∈ stores, store.1 + sizeofPtr ≤ size
  returned : ∀ c, Reaches PoolClient.step ⟨p, []⟩ c → ∀ b p', c.pool.allocate = .ok (some b, p') →
    p.poolData ≤ b ∧ b + p.blockSize ≤ p.poolData + size

/-- The last block ends at the product of the sizes, which must be the size of the buffer. -/
theorem not_links_of_wrap {bs bc base : ℕ} (hbs : bs < addressSpace) (hc : 0 < bc)
    (hwrap : addressSpace ≤ bs * bc) :
    ¬ ∀ store ∈ linkStores bs base (bc - 1) 0, store.1 + sizeofPtr ≤ sizeMul bs bc := by
  intro hlinks
  have hmem : (bc - 1) * bs ∈ (linkStores bs base (bc - 1) 0).map Prod.fst := by
    rw [linkStores_fst, List.mem_range']
    exact ⟨bc - 1, by omega, by rw [Nat.mul_comm]; omega⟩
  obtain ⟨store, hstore, hoff⟩ := List.mem_map.mp hmem
  have hle := hlinks store hstore
  rw [hoff] at hle
  have hlast : (bc - 1) * bs + bs = bs * bc := by
    rw [← Nat.succ_mul, Nat.succ_eq_add_one, Nat.sub_add_cancel hc, Nat.mul_comm]
  have hdiv : 1 ≤ bs * bc / addressSpace := (Nat.one_le_div_iff (by decide)).mpr hwrap
  have hmod : addressSpace * (bs * bc / addressSpace) + sizeMul bs bc = bs * bc :=
    Nat.div_add_mod _ _
  have hlarge := Nat.mul_le_mul_left addressSpace hdiv
  omega

theorem create_mem {bs bc base : ℕ} (m : Mem) (hs : sizeofPtr < bs) (hc : 0 < bc)
    (hbase : base < addressSpace) : ∃ p, create bs bc base m = .ok p ∧
      p.mem = (linkStores bs base (bc - 1) 0).foldl
        (fun m store => storePtr m (ptrAdd base store.1) store.2)
        (zeroFill m base (sizeMul bs bc)) := by
  refine ⟨_, by unfold create; rw [if_neg (by omega), if_neg (by omega)], ?_⟩
  have hfold := linkBlocks_eq_foldl bs base (bc - 1) 0 (zeroFill m base (sizeMul bs bc))
  rw [show ptrAdd base 0 = base from Nat.mod_eq_of_lt hbase] at hfold
  exact hfold

theorem inBounds_of_lt {bs bc base : ℕ} {m : Mem} {p : MemoryPool} (hs : sizeofPtr < bs)
    (hc : 0 < bc) (hbase : 0 < base) (hend : base + bs * bc < addressSpace)
    (hp : create bs bc base m = .ok p) : InBounds p (linkStores bs base (bc - 1) 0) (bs * bc) := by
  obtain ⟨p', hp', rfl, rfl, rfl, hv⟩ := create_valid m hs hc hbase hend
  obtain rfl := Except.ok.inj (hp.symm.trans hp')
  constructor
  · intro store hstore
    have hmem : store.1 ∈ (linkStores p.blockSize p.poolData (p.blockCount - 1) 0).map Prod.fst :=
      List.mem_map_of_mem hstore
    rw [linkStores_fst, List.mem_range'] at hmem
    obtain ⟨i, hi, hoff⟩ := hmem
    have hblock := Nat.mul_le_mul_left p.blockSize (show i + 1 ≤ p.blockCount by omega)
    rw [Nat.mul_add] at hblock
    omega
  · intro c hreach b p' hb
    have hinv : PoolClient.Inv p.blockSize p.blockCount p.poolData c :=
      hreach.invariant PoolClient.step_inv ⟨rfl, rfl, rfl, _, hv⟩
    obtain ⟨⟨i, hi, rfl⟩, -⟩ := hinv.represents.fresh b p' hb
    exact block_end_le (mem_blocks.mpr ⟨i, hi, rfl⟩)

/-- **Which pools are in bounds.**  For all sizes that pass the assertions of the constructor and any
place at which the buffer of their wrapped product is granted, the links and the blocks lie inside the
buffer exactly when the product does not wrap. -/
theorem links_inBounds_iff (blockSize blockCount : UInt64) (base : ℕ) (m : Mem)
    (hs : sizeofPtr < blockSize.toNat) (hc : 0 < blockCount.toNat) (hbase : 0 < base)
    (hend : base + sizeMul blockSize.toNat blockCount.toNat < addressSpace) :
    ∃ p, create blockSize.toNat blockCount.toNat base m = .ok p ∧
      p.mem = (linkStores blockSize.toNat base (blockCount.toNat - 1) 0).foldl
        (fun m store => storePtr m (ptrAdd base store.1) store.2)
        (zeroFill m base (sizeMul blockSize.toNat blockCount.toNat)) ∧
      (InBounds p (linkStores blockSize.toNat base (blockCount.toNat - 1) 0)
          (sizeMul blockSize.toNat blockCount.toNat) ↔
        blockSize.toNat * blockCount.toNat < addressSpace) := by
  obtain ⟨p, hp, hmem⟩ := create_mem m hs hc (show base < addressSpace by omega)
  refine ⟨p, hp, hmem, ?_, ?_⟩
  · intro hin
    by_contra hwrap
    exact not_links_of_wrap blockSize.toNat_lt hc (by omega) hin.links
  · intro hsmall
    have hsize : sizeMul blockSize.toNat blockCount.toNat = blockSize.toNat * blockCount.toNat :=
      Nat.mod_eq_of_lt hsmall
    rw [hsize] at hend ⊢
    exact inBounds_of_lt hs hc hbase hend hp

/-- The queue of a task: 64 messages of 64 bytes. -/
theorem links_inBounds_task : ∃ p, create 64 64 4096 (fun _ => 0) = .ok p ∧
    InBounds p (linkStores 64 4096 63 0) 4096 := by
  obtain ⟨p, hp, -, hiff⟩ := links_inBounds_iff 64 64 4096 (fun _ => 0) (by decide) (by decide)
    (by decide) (by decide)
  exact ⟨p, hp, hiff.mpr (by decide)⟩

/-- A buffer of 64 bytes is granted for more than `2 ^ 58` blocks of 64 bytes, and the second link is
written behind it. -/
theorem wrapped_size_out_of_bounds : ∃ p, create 64 (2 ^ 58 + 1) 4096 (fun _ => 0) = .ok p ∧
    sizeMul 64 (2 ^ 58 + 1) = 64 ∧ 64 ∈ (linkStores 64 4096 (2 ^ 58) 0).map Prod.fst ∧
    ¬ InBounds p (linkStores 64 4096 (2 ^ 58) 0) 64 := by
  obtain ⟨p, hp, -⟩ := create_mem (fun _ => 0) (show sizeofPtr < 64 by decide)
    (show 0 < 2 ^ 58 + 1 by decide) (show 4096 < addressSpace by decide)
  have hmem : 64 ∈ (linkStores 64 4096 (2 ^ 58) 0).map Prod.fst := by
    rw [linkStores_fst, List.mem_range']
    exact ⟨1, by omega, rfl⟩
  refine ⟨p, hp, by decide +kernel, hmem, fun hin => ?_⟩
  obtain ⟨store, hstore, hoff⟩ := List.mem_map.mp hmem
  have hle := hin.links store hstore
  rw [hoff] at hle
  exact absurd hle (by decide)

end MemoryPool

end Protocore
