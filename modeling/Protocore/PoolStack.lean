import Protocore.QueueRuns

/-! # The pool as a stack

The free list of `MemoryPool` lives in the blocks themselves, as bytes that its clients overwrite as soon
as they have a block.  Seen from outside, the pool is a stack of addresses: `deallocate` pushes one and
`allocate` pops one.

* `allocate_lifo`: what the calls of `allocate` return in a run is what the stack of the blocks returns,
  whatever the clients write into their blocks and whenever they do.
* `destroy_frees`: `~MessageQueue` gives the block of every message that is still queued back to the pool,
  no assertion fails, and the pool then returns every block that no producer holds. -/

namespace Protocore

/-! ### A stack -/

/-- The calls on a stack. -/
inductive StackCall (α : Type) where
  | pop
  | push (x : α)

/-- What the calls of `pop` return; `none` is the answer of the empty stack. -/
def stackAnswers {α : Type} : List α → List (StackCall α) → List (Option α)
  | _, [] => []
  | l, .pop :: calls => l.head? :: stackAnswers l.tail calls
  | l, .push x :: calls => stackAnswers (x :: l) calls

/-! ### The pool -/

namespace PoolClient

/-- The call on the stack that an event of the clients is; a write is none. -/
def stackCall : PoolEvent → Option (StackCall ℕ)
  | .allocate => some .pop
  | .deallocate ptr => some (.push ptr)
  | .write _ _ => none

/-- What an event returns to the client. -/
def answer (c : PoolClient) : PoolEvent → Option (Option ℕ)
  | .allocate =>
      match c.pool.allocate with
      | .ok (b, _) => some b
      | .error _ => none
  | .deallocate _ => none
  | .write _ _ => none

/-- What the calls of `allocate` return in a run. -/
def answers : PoolClient → List PoolEvent → List (Option ℕ)
  | _, [] => []
  | c, e :: es => (c.answer e).toList ++ (c.step e).elim [] (fun c' => answers c' es)

theorem answers_cons {c c' : PoolClient} {e : PoolEvent} (hs : step c e = some c')
    (es : List PoolEvent) : c.answers (e :: es) = (c.answer e).toList ++ c'.answers es := by
  rw [answers, hs]
  rfl

/-- Each event answers as the stack of the free blocks does, and leaves its stack behind. -/
theorem step_stack {c c' : PoolClient} {e : PoolEvent} {free : List ℕ}
    (hv : c.pool.Valid free c.outstanding) (hs : step c e = some c') :
    ∃ free', c'.pool.Valid free' c'.outstanding ∧ ∀ calls,
      stackAnswers free ((stackCall e).toList ++ calls) =
        (c.answer e).toList ++ stackAnswers free' calls := by
  cases e with
  | allocate =>
      cases free with
      | nil =>
          simp only [step, hv.allocate_nil] at hs
          obtain rfl := Option.some.inj hs
          refine ⟨[], hv, fun calls => ?_⟩
          simp only [answer, hv.allocate_nil]
          rfl
      | cons b free =>
          obtain ⟨ha, hv'⟩ := hv.allocate_cons
          simp only [step, ha] at hs
          obtain rfl := Option.some.inj hs
          refine ⟨free, hv', fun calls => ?_⟩
          simp only [answer, ha]
          rfl
  | deallocate ptr =>
      simp only [step] at hs
      split_ifs at hs with hmem
      obtain ⟨hd, hv'⟩ := hv.deallocate hmem
      simp only [hd] at hs
      obtain rfl := Option.some.inj hs
      exact ⟨ptr :: free, hv', fun calls => rfl⟩
  | write a b =>
      simp only [step] at hs
      split_ifs at hs with hany
      obtain ⟨q, hq, hr⟩ := List.any_eq_true.mp hany
      rw [decide_eq_true_iff] at hr
      obtain rfl := Option.some.inj hs
      exact ⟨free, hv.write hq hr.1 hr.2, fun calls => rfl⟩

theorem answers_eq_stack : ∀ {es : List PoolEvent} {c c' : PoolClient} {free : List ℕ},
    c.pool.Valid free c.outstanding → run step c es = some c' →
      c.answers es = stackAnswers free (es.filterMap stackCall)
  | [], c, c', free, _, _ => rfl
  | e :: es, c, c', free, hv, hrun => by
      obtain ⟨c₁, hs, hrest⟩ := run_cons_eq_some.mp hrun
      obtain ⟨free', hv', hstack⟩ := step_stack hv hs
      have hcalls : (e :: es).filterMap stackCall =
          (stackCall e).toList ++ es.filterMap stackCall := by
        rw [List.filterMap_cons]
        cases stackCall e <;> rfl
      rw [answers_cons hs, answers_eq_stack hv' hrest, hcalls, hstack]

/-- **The pool is a stack.**  In every run of a pool that the constructor accepts, the calls of `allocate`
return what the stack of its blocks returns, the first block on top; the bytes that the clients write into
their blocks make no difference. -/
theorem allocate_lifo (bs bc base : ℕ) (m : Bytes.Mem) (hs : sizeofPtr < bs) (hc : 0 < bc)
    (hbase : 0 < base) (hend : base + bs * bc < addressSpace) :
    ∃ p, MemoryPool.create bs bc base m = .ok p ∧
      ∀ es c, run step ⟨p, []⟩ es = some c →
        answers ⟨p, []⟩ es = stackAnswers (List.range' base bc bs) (es.filterMap stackCall) := by
  obtain ⟨p, hp, h1, h2, h3, hv⟩ := MemoryPool.create_valid m hs hc hbase hend
  refine ⟨p, hp, fun es c hrun => ?_⟩
  rw [answers_eq_stack hv hrun, MemoryPool.blocks, h1, h2, h3]

/-- The block given back last is handed out first, with its link overwritten in between. -/
theorem allocate_lifo_reused : ∃ p c,
    MemoryPool.create 16 3 4096 (fun _ => 255) = .ok p ∧
    run step ⟨p, []⟩ [.allocate, .allocate, .write 4096 7, .write 4112 9, .deallocate 4112,
      .deallocate 4096, .allocate, .allocate, .allocate, .allocate] = some c ∧
    answers ⟨p, []⟩ [.allocate, .allocate, .write 4096 7, .write 4112 9, .deallocate 4112,
      .deallocate 4096, .allocate, .allocate, .allocate, .allocate] =
        [some 4096, some 4112, some 4096, some 4112, some 4128, none] := by
  obtain ⟨p, hp, h⟩ := allocate_lifo 16 3 4096 (fun _ => 255) (by decide) (by decide) (by decide)
    (by decide)
  have heval : ((MemoryPool.create 16 3 4096 (fun _ => 255)).toOption.bind (fun p =>
      run step ⟨p, []⟩ [.allocate, .allocate, .write 4096 7, .write 4112 9, .deallocate 4112,
        .deallocate 4096, .allocate, .allocate, .allocate, .allocate])).isSome = true := by
    decide +kernel
  rw [hp] at heval
  obtain ⟨c, hrun⟩ := Option.isSome_iff_exists.mp heval
  exact ⟨p, c, hp, hrun, h _ c hrun⟩

end PoolClient

/-! ### The end of a queue -/

variable {μ : Type}

/-- `MessageQueue::~MessageQueue`: the block of every node in the vector is given back, in the order of
the vector. -/
def MessageQueue.destroy (q : MessageQueue μ) : Except Fault (MessageQueue μ) :=
  (q.queue.toList.foldlM freeNode q).map (fun q => { q with queue := #[] })

namespace QueueSystem

theorem freeNodes_spec : ∀ (l : List ℕ) {q : MessageQueue μ} {free out : List ℕ},
    q.pool.Valid free (l ++ out) → ∃ pool,
      l.foldlM MessageQueue.freeNode q = .ok { q with pool := pool } ∧
        pool.Valid (l.reverse ++ free) out ∧ pool.blockCount = q.pool.blockCount
  | [], q, free, out, hv => ⟨q.pool, rfl, hv, rfl⟩
  | p :: l, q, free, out, hv => by
      obtain ⟨pool, hfree, hv₁, hcount₁⟩ := freeNode_spec hv List.mem_cons_self
      rw [List.cons_append, List.erase_cons_head] at hv₁
      have hv₁' : ({ q with pool := pool } : MessageQueue μ).pool.Valid (p :: free) (l ++ out) := hv₁
      obtain ⟨pool', hfold, hv₂, hcount₂⟩ := freeNodes_spec l hv₁'
      refine ⟨pool', ?_, ?_, hcount₂.trans hcount₁⟩
      · rw [List.foldlM_cons, hfree]
        exact hfold
      · rw [List.reverse_cons, List.append_assoc]
        exact hv₂

/-- **The end of a queue.**  From every state that producers and consumers can reach, with no consumer
under the mutex that the destructor takes: no assertion fails, and the pool returns every block that no
producer holds, those of the messages that were still queued first. -/
theorem destroy_frees (prio : μ → ℕ) (rep : Node μ → ℕ → UInt8) (msgSize maxMsgs base : ℕ)
    (m : Bytes.Mem) (nodes : ℕ → Node μ) (hs : sizeofPtr < msgSize) (hc : 0 < maxMsgs)
    (hbase : 0 < base) (hend : base + msgSize * maxMsgs < addressSpace) :
    ∃ q, MessageQueue.create msgSize maxMsgs base m nodes = .ok q ∧
      ∀ s, Reaches (step prio rep) (init q) s → s.popped = none →
        ∃ q' free, s.q.destroy = .ok q' ∧ q'.queue = #[] ∧
          q'.pool.drain (maxMsgs + 1) = some (s.q.queue.toList.reverse ++ free) ∧
          (s.q.queue.toList.reverse ++ free ++ s.held).Perm q'.pool.blocks := by
  obtain ⟨q, hq, -, -, -, hb⟩ := create_blocks m nodes hs hc hbase hend
  refine ⟨q, hq, fun s hreach hpopped => ?_⟩
  obtain ⟨hcount, free, hv⟩ := reaches_blocks hb hreach
  have hv' : s.q.pool.Valid free (s.q.queue.toList ++ s.held) := by
    simpa [out, poppedNodes, hpopped] using hv
  obtain ⟨pool, hfold, hvalid, hcount'⟩ := freeNodes_spec s.q.queue.toList hv'
  refine ⟨{ s.q with pool := pool, queue := #[] }, free, ?_, rfl, ?_, hvalid.blocks⟩
  · unfold MessageQueue.destroy
    rw [hfold]
    rfl
  · apply hvalid.drain
    have hlength := hvalid.length
    omega

/-- Two messages are queued and a producer holds the third block. -/
theorem destroy_frees_two : ∃ q s q' free,
    MessageQueue.create 16 4 4096 (fun _ => 0) (fun _ => ⟨7, 0⟩) = .ok q ∧
    run (step (fun m : ℕ => m) (fun _ _ => 255)) (init q)
      [.allocate, .push 4096 3, .allocate, .push 4112 5, .allocate] = some s ∧
    s.q.queue.toList = [4112, 4096] ∧ s.held = [4128] ∧ s.q.destroy = .ok q' ∧
    q'.pool.drain 5 = some ([4096, 4112] ++ free) := by
  obtain ⟨q, hq, h⟩ := destroy_frees (fun m : ℕ => m) (fun _ _ => 255) 16 4 4096 (fun _ => 0)
    (fun _ => ⟨7, 0⟩) (by decide) (by decide) (by decide) (by decide)
  have heval : (MessageQueue.create 16 4 4096 (fun _ => 0) (fun _ => ⟨7, 0⟩)).toOption.bind
      (fun q => (run (step (fun m : ℕ => m) (fun _ _ => 255)) (init q)
        [.allocate, .push 4096 3, .allocate, .push 4112 5, .allocate]).map
          (fun s => (s.q.queue.toList, s.held, s.popped))) =
        some ([4112, 4096], [4128], none) := by decide +kernel
  rw [hq] at heval
  obtain ⟨s, hrun, hval⟩ := Option.map_eq_some_iff.mp heval
  obtain ⟨hqueue, hval⟩ := Prod.mk.inj hval
  obtain ⟨hheld, hpopped⟩ := Prod.mk.inj hval
  obtain ⟨q', free, hdestroy, -, hdrain, -⟩ := h s ⟨_, hrun⟩ hpopped
  rw [hqueue] at hdrain
  exact ⟨q, s, q', free, hq, hrun, hqueue, hheld, hdestroy, hdrain⟩

end QueueSystem

end Protocore
