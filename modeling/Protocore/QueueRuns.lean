import Protocore.Run
import Protocore.MessageQueue

/-! # Concurrent runs of a message queue

Any number of producers and consumers share one `MessageQueue`.  A producer's `enqueue` is two
atomic steps (`allocate`, then `push` under `queue_mutex`); a consumer's `dequeue` or
`try_dequeue` that finds a message is two steps taken while it holds `queue_mutex` (the node is
popped, then `release` gives its block back and returns).  Between them only steps that do not
need `queue_mutex` can happen.

`QueueSystem` records, besides the queue and the blocks in the hands of the threads, the
history of the run: the messages in the order their critical sections took place, the arrival
number of the message in each block, and the numbers returned so far.

`reachable_conserved`: every block is free, in the vector, in the hands of a producer, or the one node
being released, and in one of these places only. -/

namespace Protocore

variable {μ : Type}

/-- A message queue, the threads inside its operations, and the history of the run. -/
structure QueueSystem (μ : Type) where
  q : MessageQueue μ
  /-- Blocks of producers that are between their two steps. -/
  held : List ℕ
  /-- The node popped and not yet deallocated, with the message to return; a consumer holds
  `queue_mutex` as long as there is one. -/
  popped : Option (ℕ × μ)
  /-- All messages enqueued so far, in order. -/
  enqueued : List μ
  /-- The position in `enqueued` of the message constructed last in a block. -/
  arrival : ℕ → ℕ
  /-- The positions of the messages returned so far. -/
  returned : List ℕ
  /-- The number of enqueues since `sequence` was last reset. -/
  sinceReset : ℕ

/-- The atomic steps of the threads. -/
inductive QueueEvent (μ : Type) where
  | allocate
  | push (raw : ℕ) (message : μ)
  | dequeue
  | tryDequeue
  | release
  | notifyShutdown

namespace QueueSystem

/-- No thread is inside an operation and nothing has happened yet. -/
def init (q : MessageQueue μ) : QueueSystem μ := ⟨q, [], none, [], fun _ => 0, [], 0⟩

section defs
variable (prio : μ → ℕ) (rep : Node μ → ℕ → UInt8)

/-- One atomic step; a failed assertion or undefined behaviour ends the run. -/
def step (s : QueueSystem μ) : QueueEvent μ → Option (QueueSystem μ)
  | .allocate =>
      match s.q.allocateNode with
      | .ok (raw, q) => some { s with q := q, held := raw :: s.held }
      | .error _ => none
  | .push raw message =>
      if s.popped.isNone ∧ raw ∈ s.held then
        some { s with
          q := s.q.pushNode prio rep raw message
          held := s.held.erase raw
          enqueued := s.enqueued ++ [message]
          arrival := fun a => if a = raw then s.enqueued.length else s.arrival a
          sinceReset := s.sinceReset + 1 }
      else none
  | .dequeue =>
      if s.popped.isNone then
        match s.q.dequeuePop prio with
        | .ok (.node p message q) =>
            some { s with
              q := q
              popped := some (p, message)
              returned := s.returned ++ [s.arrival p]
              sinceReset := if q.queue.size = 0 then 0 else s.sinceReset }
        | .ok (.null q) => some { s with q := q, sinceReset := 0 }
        | .ok .blocked => none
        | .error _ => none
      else none
  | .tryDequeue =>
      if s.popped.isNone then
        match s.q.tryDequeuePop prio with
        | .ok (.node p message q) =>
            some { s with
              q := q
              popped := some (p, message)
              returned := s.returned ++ [s.arrival p] }
        | .ok (.null q) => some { s with q := q }
        | .ok .blocked => none
        | .error _ => none
      else none
  | .release =>
      match s.popped with
      | some (p, _) =>
          match s.q.freeNode p with
          | .ok q => some { s with q := q, popped := none }
          | .error _ => none
      | none => none
  | .notifyShutdown =>
      if s.popped.isNone then some { s with q := s.q.notifyShutdown } else none

/-- The node of a consumer between its two steps. -/
def poppedNodes (s : QueueSystem μ) : List ℕ := (s.popped.map Prod.fst).toList

/-- The blocks that are out of the free list. -/
def out (s : QueueSystem μ) : List ℕ := s.q.queue.toList ++ (s.held ++ s.poppedNodes)

/-- Everything a step can do. -/
inductive Moves (s : QueueSystem μ) : QueueEvent μ → QueueSystem μ → Prop
  | allocate {raw : ℕ} {q : MessageQueue μ} (h : s.q.allocateNode = .ok (raw, q)) :
      Moves s .allocate { s with q := q, held := raw :: s.held }
  | push {raw : ℕ} {message : μ} (hfree : s.popped = none) (h : raw ∈ s.held) :
      Moves s (.push raw message) { s with
        q := s.q.pushNode prio rep raw message
        held := s.held.erase raw
        enqueued := s.enqueued ++ [message]
        arrival := fun a => if a = raw then s.enqueued.length else s.arrival a
        sinceReset := s.sinceReset + 1 }
  | take {e : QueueEvent μ} {p : ℕ} {q : MessageQueue μ} {n : ℕ}
      (he : e = .dequeue ∨ e = .tryDequeue) (hfree : s.popped = none)
      (hpops : s.q.Pops prio p q)
      (hseq : (q.sequence = s.q.sequence ∧ n = s.sinceReset) ∨
        (q.queue.size = 0 ∧ q.sequence = 0 ∧ n = 0)) :
      Moves s e { s with
        q := q
        popped := some (p, (s.q.nodes p).message)
        returned := s.returned ++ [s.arrival p]
        sinceReset := n }
  | dequeueNull (hfree : s.popped = none) (hempty : s.q.queue.size = 0)
      (hdown : s.q.shutdown = true) :
      Moves s .dequeue { s with q := { s.q with sequence := 0 }, sinceReset := 0 }
  | tryNull (hfree : s.popped = none) (hempty : s.q.queue.size = 0)
      (hup : s.q.shutdown = false) : Moves s .tryDequeue s
  | release {p : ℕ} {message : μ} {q : MessageQueue μ} (hp : s.popped = some (p, message))
      (h : s.q.freeNode p = .ok q) : Moves s .release { s with q := q, popped := none }
  | notifyShutdown (hfree : s.popped = none) :
      Moves s .notifyShutdown { s with q := s.q.notifyShutdown }

end defs

variable {prio : μ → ℕ} {rep : Node μ → ℕ → UInt8}

theorem step_moves {s s' : QueueSystem μ} {e : QueueEvent μ} (h : step prio rep s e = some s') :
    Moves prio rep s e s' := by
  cases e with
  | allocate =>
      simp only [step] at h
      split at h
      · rename_i raw q hq
        obtain rfl := Option.some.inj h
        exact .allocate hq
      · cases h
  | push raw message =>
      simp only [step] at h
      split at h
      · rename_i hc
        obtain rfl := Option.some.inj h
        exact .push (Option.isNone_iff_eq_none.mp hc.1) hc.2
      · cases h
  | dequeue =>
      simp only [step] at h
      split at h
      · rename_i hfree
        rw [Option.isNone_iff_eq_none] at hfree
        rcases s.q.dequeuePop_cases prio with ⟨-, -, hd⟩ | ⟨h0, hs, hd⟩ | ⟨h0, p, q, hd, hP, hseq⟩
        · simp only [hd] at h
          cases h
        · simp only [hd] at h
          obtain rfl := Option.some.inj h
          exact .dequeueNull hfree h0 hs
        · simp only [hd] at h
          obtain rfl := Option.some.inj h
          refine .take (Or.inl rfl) hfree hP ?_
          by_cases hz : q.queue.size = 0
          · rw [if_pos hz] at hseq ⊢
            exact Or.inr ⟨hz, hseq, rfl⟩
          · rw [if_neg hz] at hseq ⊢
            exact Or.inl ⟨hseq, rfl⟩
      · cases h
  | tryDequeue =>
      simp only [step] at h
      split at h
      · rename_i hfree
        rw [Option.isNone_iff_eq_none] at hfree
        rcases s.q.tryDequeuePop_cases prio with ⟨h0, hs, hd⟩ | ⟨-, -, hd⟩ | ⟨-, p, q, hd, hP, hseq⟩
        · simp only [hd] at h
          obtain rfl := Option.some.inj h
          exact .tryNull hfree h0 hs
        · simp only [hd] at h
          cases h
        · simp only [hd] at h
          obtain rfl := Option.some.inj h
          exact .take (Or.inr rfl) hfree hP (Or.inl ⟨hseq, rfl⟩)
      · cases h
  | release =>
      simp only [step] at h
      split at h
      · rename_i p message hp
        split at h
        · rename_i q hq
          obtain rfl := Option.some.inj h
          exact .release hp hq
        · cases h
      · cases h
  | notifyShutdown =>
      simp only [step] at h
      split at h
      · rename_i hfree
        obtain rfl := Option.some.inj h
        exact .notifyShutdown (Option.isNone_iff_eq_none.mp hfree)
      · cases h

/-! ### Conservation of blocks -/

/-- The pool keeps its size, and its outstanding blocks are the ones in `out`. -/
structure Blocks (maxMsgs : ℕ) (s : QueueSystem μ) : Prop where
  blockCount : s.q.pool.blockCount = maxMsgs
  valid : ∃ free, s.q.pool.Valid free s.out

theorem allocateNode_spec {q : MessageQueue μ} {free o : List ℕ} (hv : q.pool.Valid free o) :
    (free = [] ∧ q.allocateNode = .error .outOfMemory) ∨
    ∃ raw free' pool, free = raw :: free' ∧ q.allocateNode = .ok (raw, { q with pool := pool }) ∧
      pool.Valid free' (raw :: o) ∧ pool.blockCount = q.pool.blockCount := by
  cases free with
  | nil =>
      left
      exact ⟨rfl, by unfold MessageQueue.allocateNode; rw [hv.allocate_nil]⟩
  | cons raw free =>
      right
      obtain ⟨ha, hv'⟩ := hv.allocate_cons
      refine ⟨raw, free, _, rfl, ?_, hv', rfl⟩
      unfold MessageQueue.allocateNode
      rw [ha]

theorem freeNode_spec {q : MessageQueue μ} {free o : List ℕ} (hv : q.pool.Valid free o) {p : ℕ}
    (hp : p ∈ o) : ∃ pool, q.freeNode p = .ok { q with pool := pool } ∧
      pool.Valid (p :: free) (o.erase p) ∧ pool.blockCount = q.pool.blockCount := by
  obtain ⟨hd, hv'⟩ := hv.deallocate hp
  refine ⟨_, ?_, hv', rfl⟩
  unfold MessageQueue.freeNode
  rw [hd]
  rfl

theorem moves_blocks {maxMsgs : ℕ} {s s' : QueueSystem μ} {e : QueueEvent μ}
    (hi : Blocks maxMsgs s) (h : Moves prio rep s e s') : Blocks maxMsgs s' := by
  obtain ⟨hc, free, hv⟩ := hi
  cases h with
  | allocate h =>
      rcases allocateNode_spec hv with ⟨-, he⟩ | ⟨raw, free', pool, -, he, hv', hc'⟩
      · rw [he] at h; cases h
      · rw [he] at h
        obtain ⟨rfl, rfl⟩ := Prod.mk.inj (Except.ok.inj h)
        refine ⟨hc'.trans hc, free', hv'.of_perm ?_⟩
        exact List.perm_middle.symm
  | @push raw message hfree h =>
      refine ⟨hc, free, MemoryPool.Valid.of_perm (@MemoryPool.Valid.fillBlock _ _ _ hv raw ?_ _) ?_⟩
      · exact List.mem_append_right _ (List.mem_append_left _ h)
      · have h1 := s.q.pushNode_queue_perm prio rep raw message
        have h2 := List.perm_cons_erase h
        rw [List.perm_iff_count] at h1 h2 ⊢
        intro a
        have := h1 a
        have := h2 a
        simp only [out, poppedNodes, List.count_append, List.count_cons] at *
        omega
  | take he hfree hpops hseq =>
      refine ⟨by rw [hpops.pool]; exact hc, free, ?_⟩
      rw [hpops.pool]
      refine hv.of_perm ?_
      have h1 := hpops.perm
      rw [List.perm_iff_count] at h1 ⊢
      intro a
      have := h1 a
      simp only [out, poppedNodes, hfree, Option.map_none, Option.map_some, Option.toList,
        List.count_append, List.count_cons, List.count_nil] at *
      omega
  | dequeueNull => exact ⟨hc, free, hv⟩
  | tryNull => exact ⟨hc, free, hv⟩
  | @release p message q hp h =>
      have hmem : p ∈ s.out := by simp [out, poppedNodes, hp]
      obtain ⟨pool, he, hv', hc'⟩ := freeNode_spec hv hmem
      rw [he] at h
      obtain rfl := Except.ok.inj h
      refine ⟨hc'.trans hc, _, hv'.of_perm ?_⟩
      have h1 := List.perm_cons_erase hmem
      rw [List.perm_iff_count] at h1 ⊢
      intro a
      have := h1 a
      simp only [out, poppedNodes, hp, Option.map_none, Option.map_some, Option.toList,
        List.count_append, List.count_cons, List.count_nil] at *
      omega
  | notifyShutdown => exact ⟨hc, free, hv⟩

/-- Where the blocks are, and what follows for `enqueue` and the vector. -/
structure Conserved (maxMsgs : ℕ) (s : QueueSystem μ) : Prop where
  /-- The node pointers in the vector are pairwise distinct. -/
  nodup : s.q.queue.toList.Nodup
  /-- The free list, the vector, the producers and the releasing consumer share out the blocks
  of the pool, and none is in two places. -/
  partition : ∃ free, Bytes.Chain s.q.pool.mem sizeofPtr s.q.pool.freeList free ∧
    (free ++ (s.q.queue.toList ++ (s.held ++ s.poppedNodes))).Nodup ∧
    (∀ a, a ∈ s.q.pool.blocks ↔
      a ∈ free ∨ a ∈ s.q.queue.toList ∨ a ∈ s.held ∨ a ∈ s.poppedNodes) ∧
    free.length + s.q.queue.size + s.held.length + s.poppedNodes.length = maxMsgs
  /-- The vector stays within its reserved capacity. -/
  capacity : s.q.queue.size ≤ maxMsgs
  /-- A producer never gets a block that is in use. -/
  fresh : ∀ raw q, s.q.allocateNode = .ok (raw, q) →
    raw ∉ s.q.queue.toList ∧ raw ∉ s.held ∧ raw ∉ s.poppedNodes
  /-- The assertion of `enqueue` fires exactly when all blocks are in use; no other one does. -/
  assertion : s.q.allocateNode = .error .outOfMemory ↔
    s.q.queue.size + s.held.length + s.poppedNodes.length = maxMsgs
  only_assertion : ∀ f, s.q.allocateNode = .error f → f = .outOfMemory
  /-- The pool takes the popped node back. -/
  release : ∀ p message, s.popped = some (p, message) → ∃ q, s.q.freeNode p = .ok q

theorem Blocks.conserved {maxMsgs : ℕ} {s : QueueSystem μ} (h : Blocks maxMsgs s) :
    Conserved maxMsgs s := by
  obtain ⟨rfl, free, hv⟩ := h
  have hnd : (free ++ s.out).Nodup := hv.nodup
  have hlen : free.length + (s.q.queue.size + (s.held.length + s.poppedNodes.length)) =
      s.q.pool.blockCount := by simpa [out] using hv.length
  have hspec := allocateNode_spec hv
  refine ⟨(List.nodup_append.mp (List.nodup_append.mp hnd).2.1).1,
    ⟨free, hv.links, hnd, ?_, by omega⟩, by omega, ?_, ?_, ?_, ?_⟩
  · intro a
    rw [← hv.mem_iff, out, List.mem_append, List.mem_append]
  · intro raw q hq
    rcases hspec with ⟨-, he⟩ | ⟨raw', free', pool, rfl, he, -, -⟩
    · rw [he] at hq; cases hq
    · rw [he] at hq
      obtain ⟨rfl, -⟩ := Prod.mk.inj (Except.ok.inj hq)
      have hout : raw' ∉ s.out := fun hm =>
        List.disjoint_of_nodup_append hnd List.mem_cons_self hm
      simpa [out, not_or] using hout
  · rcases hspec with ⟨rfl, he⟩ | ⟨raw', free', pool, rfl, he, -, -⟩
    · rw [he]
      simp only [List.length_nil] at hlen
      simp only [true_iff]
      omega
    · rw [he]
      simp only [List.length_cons] at hlen
      simp only [reduceCtorEq, false_iff]
      omega
  · intro f hf
    rcases hspec with ⟨-, he⟩ | ⟨raw', free', pool, -, he, -, -⟩
    · rw [he] at hf
      exact (Except.error.inj hf).symm
    · rw [he] at hf; cases hf
  · intro p message hp
    obtain ⟨pool, he, -, -⟩ := freeNode_spec (p := p) hv (by simp [out, poppedNodes, hp])
    exact ⟨_, he⟩

/-- A queue as its constructor leaves it satisfies the block invariant. -/
theorem create_blocks {msgSize maxMsgs base : ℕ} (m : Bytes.Mem) (nodes : ℕ → Node μ)
    (hs : sizeofPtr < msgSize) (hc : 0 < maxMsgs) (hbase : 0 < base)
    (hend : base + msgSize * maxMsgs < addressSpace) :
    ∃ q, MessageQueue.create msgSize maxMsgs base m nodes = .ok q ∧ q.queue = #[] ∧
      q.sequence = 0 ∧ q.shutdown = false ∧ Blocks maxMsgs (init q) := by
  obtain ⟨pool, hp, -, hbc, -, hv⟩ := MemoryPool.create_valid m hs hc hbase hend
  refine ⟨⟨pool, #[], nodes, false, 0⟩, ?_, rfl, rfl, rfl, hbc, _, hv⟩
  unfold MessageQueue.create
  rw [hp]
  rfl

theorem reaches_blocks {maxMsgs : ℕ} {s s' : QueueSystem μ} (hb : Blocks maxMsgs s)
    (h : Reaches (step prio rep) s s') : Blocks maxMsgs s' :=
  h.invariant (fun _ _ _ hi hs => moves_blocks hi (step_moves hs)) hb

/-- **Conservation of blocks.**  In every interleaving of producers and consumers, each block
is in exactly one place. -/
theorem reachable_conserved (prio : μ → ℕ) (rep : Node μ → ℕ → UInt8) (msgSize maxMsgs base : ℕ)
    (m : Bytes.Mem) (nodes : ℕ → Node μ) (hs : sizeofPtr < msgSize) (hc : 0 < maxMsgs)
    (hbase : 0 < base) (hend : base + msgSize * maxMsgs < addressSpace) :
    ∃ q, MessageQueue.create msgSize maxMsgs base m nodes = .ok q ∧
      ∀ s, Reaches (step prio rep) (init q) s → Conserved maxMsgs s := by
  obtain ⟨q, hq, -, -, -, hb⟩ := create_blocks m nodes hs hc hbase hend
  exact ⟨q, hq, fun s hreach => (reaches_blocks hb hreach).conserved⟩

/-- One message queued, one producer between its steps: the pool is exhausted. -/
theorem reachable_conserved_exhausted : ∃ q s,
    MessageQueue.create 16 2 4096 (fun _ => 0) (fun _ => ⟨7, 0⟩) = .ok q ∧
    run (step (fun m : ℕ => m) (fun _ _ => 255)) (init q)
      [.allocate, .push 4096 3, .allocate] = some s ∧
    (s.q.queue.toList = [4096] ∧ s.held = [4112]) ∧ Conserved 2 s := by
  obtain ⟨q, hq, h⟩ := reachable_conserved (fun m : ℕ => m) (fun _ _ => 255) 16 2 4096 (fun _ => 0)
    (fun _ => ⟨7, 0⟩) (by decide) (by decide) (by decide) (by decide)
  have heval : (MessageQueue.create 16 2 4096 (fun _ => 0) (fun _ => ⟨7, 0⟩)).toOption.bind
      (fun q => (run (step (fun m : ℕ => m) (fun _ _ => 255)) (init q)
        [.allocate, .push 4096 3, .allocate]).map (fun s => (s.q.queue.toList, s.held))) =
          some ([4096], [4112]) := by decide +kernel
  rw [hq] at heval
  obtain ⟨s, hrun, hval⟩ := Option.map_eq_some_iff.mp heval
  exact ⟨q, s, hq, hrun, Prod.mk.inj hval, h s ⟨_, hrun⟩⟩

/-! ### A queue with no thread inside -/

/-- The blocks out of the pool are those in the vector. -/
def Settled (maxMsgs : ℕ) (q : MessageQueue μ) : Prop :=
  q.pool.blockCount = maxMsgs ∧ ∃ free, q.pool.Valid free q.queue.toList

/-- `enqueue` on such a queue: it is full and the assertion fails, or it grows by one. -/
theorem Settled.enqueue {maxMsgs : ℕ} {q : MessageQueue μ} (h : Settled maxMsgs q)
    (prio : μ → ℕ) (rep : Node μ → ℕ → UInt8) (message : μ) :
    (q.queue.size = maxMsgs ∧ q.enqueue prio rep message = .error .outOfMemory) ∨
    ∃ q', q.enqueue prio rep message = .ok q' ∧ Settled maxMsgs q' ∧
      q'.queue.size = q.queue.size + 1 ∧ q.queue.size < maxMsgs := by
  obtain ⟨rfl, free, hv⟩ := h
  have hlen : free.length + q.queue.size = q.pool.blockCount := by simpa using hv.length
  rcases allocateNode_spec hv with ⟨rfl, ha⟩ | ⟨raw, free', pool, rfl, ha, hv', hc⟩
  · refine .inl ⟨by simpa using hlen, ?_⟩
    simp only [MessageQueue.enqueue, ha]
  · right
    have hperm := MessageQueue.pushNode_queue_perm prio rep { q with pool := pool } raw message
    refine ⟨MessageQueue.pushNode prio rep { q with pool := pool } raw message, ?_, ?_, ?_, ?_⟩
    · simp only [MessageQueue.enqueue, ha]
    · refine ⟨hc, free', ?_⟩
      exact (MemoryPool.Valid.fillBlock hv' List.mem_cons_self _).of_perm hperm.symm
    · simpa using hperm.length_eq
    · simp only [List.length_cons] at hlen
      omega

theorem Settled.size_le {maxMsgs : ℕ} {q : MessageQueue μ} (h : Settled maxMsgs q) :
    q.queue.size ≤ maxMsgs := by
  obtain ⟨rfl, free, hv⟩ := h
  have hlen : free.length + q.queue.size = q.pool.blockCount := by simpa using hv.length
  omega

/-- A queue with no thread inside is settled. -/
theorem Blocks.settled {maxMsgs : ℕ} {s : QueueSystem μ} (h : Blocks maxMsgs s)
    (hheld : s.held = []) (hpopped : s.popped = none) : Settled maxMsgs s.q := by
  obtain ⟨hc, free, hv⟩ := h
  refine ⟨hc, free, ?_⟩
  simpa [out, poppedNodes, hheld, hpopped] using hv

end QueueSystem

end Protocore
