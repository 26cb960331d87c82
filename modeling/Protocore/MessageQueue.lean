import Mathlib.Data.Prod.Lex
import Protocore.Heap
import Protocore.MemoryPool

/-! # The message queue

`MessageQueue` (`message_queue.h`, `message_queue.cpp`): a vector of node pointers kept as a
heap by `NodeComparator`, nodes constructed in blocks of a `MemoryPool`, a `uint32_t` counter
that numbers the nodes, and a shutdown flag.  The queue is generic in the message type `μ` and
its priority `prio`, as the message variant of the source is.

The operations are cut where the source takes and leaves its two mutexes: `enqueue` is
`allocateNode` (under `pool_mutex`) followed by `pushNode` (under `queue_mutex`); `dequeue` and
`try_dequeue` first take a node out of the vector (`dequeuePop`, `tryDequeuePop`) and then give
its block back (`freeNode`), all under `queue_mutex`.

A node is read and written as an object (`nodes`), and constructing it also overwrites the
bytes of its block: `rep` is the object representation of a node, which no result depends on. -/

namespace Protocore

variable {μ : Type}

/-- `MessageQueue::Node`. -/
structure Node (μ : Type) where
  message : μ
  sequenceNumber : UInt32

/-- `MessageQueue`; `nodes` are the node objects in the blocks of the pool. -/
structure MessageQueue (μ : Type) where
  pool : MemoryPool
  queue : Array ℕ
  nodes : ℕ → Node μ
  shutdown : Bool
  sequence : UInt32

/-- What `dequeue` and `try_dequeue` find under the mutex: nothing yet, a reason to return
`std::nullopt`, or a node popped from the vector together with a copy of its message. -/
inductive Taken (μ : Type) where
  | blocked
  | null (q : MessageQueue μ)
  | node (ptr : ℕ) (message : μ) (q : MessageQueue μ)

/-- Overwrite the bytes of the block at `raw`. -/
def MemoryPool.fillBlock (p : MemoryPool) (raw : ℕ) (bytes : ℕ → UInt8) : MemoryPool :=
  { p with mem := fun x => if raw ≤ x ∧ x < raw + p.blockSize then bytes (x - raw) else p.mem x }

/-- Filling an outstanding block leaves the free list alone. -/
theorem MemoryPool.Valid.fillBlock {p : MemoryPool} {free out : List ℕ} (h : p.Valid free out)
    {raw : ℕ} (hraw : raw ∈ out) (bytes : ℕ → UInt8) : (p.fillBlock raw bytes).Valid free out := by
  refine ⟨h.size, h.base, h.bound, ?_, h.blocks⟩
  apply h.links.congr
  intro c hc x hx hx'
  have hs := h.size
  simp only [MemoryPool.fillBlock]
  rw [if_neg]
  rintro ⟨hlo, hhi⟩
  rcases h.apart_free_out hc hraw with hap | hap <;> omega

namespace MessageQueue

section defs
variable (prio : μ → ℕ) (rep : Node μ → ℕ → UInt8)

/-- `NodeComparator`. -/
def nodeComparator (a b : Node μ) : Bool :=
  if prio a.message < prio b.message then true
  else if prio b.message < prio a.message then false
  else decide (b.sequenceNumber < a.sequenceNumber)

/-- The constructor: a pool of `maxMsgs` blocks and an empty vector.  `base`, `m` and `nodes`
are the place and the previous content of the granted buffer. -/
def create (msgSize maxMsgs base : ℕ) (m : Bytes.Mem) (nodes : ℕ → Node μ) :
    Except Fault (MessageQueue μ) :=
  (MemoryPool.create msgSize maxMsgs base m).map (fun pool => ⟨pool, #[], nodes, false, 0⟩)

/-- First half of `enqueue`: `pool.allocate()` and the assertion on its result. -/
def allocateNode (q : MessageQueue μ) : Except Fault (ℕ × MessageQueue μ) :=
  match q.pool.allocate with
  | .ok (some raw, pool) => .ok (raw, { q with pool := pool })
  | .ok (none, _) => .error .outOfMemory
  | .error f => .error f

/-- Second half of `enqueue`, under `queue_mutex`: construct the node in its block, push its
pointer and restore the heap. -/
def pushNode (q : MessageQueue μ) (raw : ℕ) (message : μ) : MessageQueue μ :=
  let node : Node μ := ⟨message, q.sequence⟩
  let nodes := fun a => if a = raw then node else q.nodes a
  { q with
    pool := q.pool.fillBlock raw (rep node)
    nodes := nodes
    sequence := q.sequence + 1
    queue := Heap.pushHeap (fun a b => nodeComparator prio (nodes a) (nodes b)) (q.queue.push raw) }

/-- `MessageQueue::enqueue`. -/
def enqueue (q : MessageQueue μ) (message : μ) : Except Fault (MessageQueue μ) :=
  match q.allocateNode with
  | .ok (raw, q') => .ok (q'.pushNode prio rep raw message)
  | .error f => .error f

/-- `std::pop_heap`, `back` and `pop_back`: the popped node and the queue without it.  On an
empty vector the behaviour is undefined. -/
def popNode (q : MessageQueue μ) : Except Fault (ℕ × MessageQueue μ) :=
  if q.queue.size = 0 then .error .popEmpty
  else
    let queue := Heap.popHeap (fun a b => nodeComparator prio (q.nodes a) (q.nodes b)) q.queue
    .ok (queue[queue.size - 1]!, { q with queue := queue.pop })

/-- `dequeue` up to and including the copy of the message. -/
def dequeuePop (q : MessageQueue μ) : Except Fault (Taken μ) :=
  if q.queue.size = 0 ∧ q.shutdown = false then .ok .blocked
  else if q.shutdown = true ∧ q.queue.size = 0 then .ok (.null { q with sequence := 0 })
  else
    match q.popNode prio with
    | .ok (ptr, q') =>
        .ok (.node ptr (q.nodes ptr).message
          (if q'.queue.size = 0 then { q' with sequence := 0 } else q'))
    | .error f => .error f

/-- `try_dequeue` up to and including the copy of the message; the wait fails when its time is
over and there is neither a message nor a shutdown. -/
def tryDequeuePop (q : MessageQueue μ) : Except Fault (Taken μ) :=
  if q.queue.size = 0 ∧ q.shutdown = false then .ok (.null q)
  else
    match q.popNode prio with
    | .ok (ptr, q') => .ok (.node ptr (q.nodes ptr).message q')
    | .error f => .error f

/-- Give the block of a popped node back to the pool. -/
def freeNode (q : MessageQueue μ) (ptr : ℕ) : Except Fault (MessageQueue μ) :=
  (q.pool.deallocate ptr).map (fun pool => { q with pool := pool })

/-- `MessageQueue::notify_shutdown`. -/
def notifyShutdown (q : MessageQueue μ) : MessageQueue μ := { q with shutdown := true }

end defs

/-! ### The order of the nodes -/

/-- Nodes are ordered by priority, then by the number they were given, earlier ones first. -/
def nodeKey (prio : μ → ℕ) (n : Node μ) : ℕ ×ₗ ℕᵒᵈ :=
  toLex (prio n.message, OrderDual.toDual n.sequenceNumber.toNat)

theorem nodeKey_lt_iff {prio : μ → ℕ} {a b : Node μ} : nodeKey prio a < nodeKey prio b ↔
    prio a.message < prio b.message ∨
      prio a.message = prio b.message ∧ b.sequenceNumber.toNat < a.sequenceNumber.toNat := by
  unfold nodeKey
  rw [Prod.Lex.toLex_lt_toLex]
  simp only [OrderDual.toDual_lt_toDual]

theorem nodeKey_le_iff {prio : μ → ℕ} {a b : Node μ} : nodeKey prio a ≤ nodeKey prio b ↔
    prio a.message < prio b.message ∨
      prio a.message = prio b.message ∧ b.sequenceNumber.toNat ≤ a.sequenceNumber.toNat := by
  unfold nodeKey
  rw [Prod.Lex.toLex_le_toLex]
  simp only [OrderDual.toDual_le_toDual]

theorem nodeComparator_iff {prio : μ → ℕ} (a b : Node μ) :
    nodeComparator prio a b = true ↔ nodeKey prio a < nodeKey prio b := by
  rw [nodeKey_lt_iff]
  unfold nodeComparator
  split_ifs with h1 h2
  · simp [h1]
  · simp only [false_iff]
    omega
  · rw [decide_eq_true_iff, UInt32.lt_iff_toNat_lt]
    omega

theorem byKey (prio : μ → ℕ) (nodes : ℕ → Node μ) :
    Heap.ByKey (fun a b => nodeComparator prio (nodes a) (nodes b))
      (fun a => nodeKey prio (nodes a)) :=
  fun a b => nodeComparator_iff (nodes a) (nodes b)

/-! ### One lemma per critical section -/

/-- Allocating and freeing a node touch the pool only. -/
theorem allocateNode_frame {q q' : MessageQueue μ} {raw : ℕ} (h : q.allocateNode = .ok (raw, q')) :
    ∃ pool, q' = { q with pool := pool } := by
  unfold allocateNode at h
  split at h
  · obtain ⟨-, rfl⟩ := Prod.mk.inj (Except.ok.inj h)
    exact ⟨_, rfl⟩
  · cases h
  · cases h

theorem freeNode_frame {q q' : MessageQueue μ} {ptr : ℕ} (h : q.freeNode ptr = .ok q') :
    ∃ pool, q' = { q with pool := pool } := by
  unfold freeNode at h
  cases hd : q.pool.deallocate ptr with
  | error f => rw [hd] at h; cases h
  | ok pool =>
      rw [hd] at h
      obtain rfl := Except.ok.inj h
      exact ⟨pool, rfl⟩

theorem pushNode_queue_perm (prio : μ → ℕ) (rep : Node μ → ℕ → UInt8) (q : MessageQueue μ)
    (raw : ℕ) (message : μ) :
    (q.pushNode prio rep raw message).queue.toList.Perm (raw :: q.queue.toList) := by
  have h := (Heap.pushHeap_perm (fun a b => nodeComparator prio
    ((q.pushNode prio rep raw message).nodes a) ((q.pushNode prio rep raw message).nodes b))
    (q.queue.push raw)).toList
  rw [Array.toList_push] at h
  exact h.trans List.perm_append_comm

/-- `q'` is `q` after its node `p` was popped from the vector. -/
structure Pops (prio : μ → ℕ) (q : MessageQueue μ) (p : ℕ) (q' : MessageQueue μ) : Prop where
  perm : q.queue.toList.Perm (p :: q'.queue.toList)
  pool : q'.pool = q.pool
  nodes : q'.nodes = q.nodes
  shutdown : q'.shutdown = q.shutdown
  /-- In a heap the popped node is maximal and the rest is a heap. -/
  max : Heap.IsHeap (fun a => nodeKey prio (q.nodes a)) q.queue q.queue.size →
    (∀ r ∈ q.queue.toList, nodeKey prio (q.nodes r) ≤ nodeKey prio (q.nodes p)) ∧
    Heap.IsHeap (fun a => nodeKey prio (q.nodes a)) q'.queue q'.queue.size

theorem toList_pop_append {a : Array ℕ} (ha : 0 < a.size) :
    a.toList = a.pop.toList ++ [a[a.size - 1]!] := by
  rw [getElem!_pos a (a.size - 1) (by omega), Array.toList_pop]
  have hne : a.toList ≠ [] := by
    intro h
    have := congrArg List.length h
    simp only [Array.length_toList, List.length_nil] at this
    omega
  conv_lhs => rw [← List.dropLast_append_getLast hne]
  rw [List.getLast_eq_getElem]
  simp

theorem popNode_spec (prio : μ → ℕ) {q : MessageQueue μ} (hq : q.queue.size ≠ 0) :
    ∃ p q', q.popNode prio = .ok (p, q') ∧ Pops prio q p q' ∧ q'.sequence = q.sequence := by
  let lt := fun a b => nodeComparator prio (q.nodes a) (q.nodes b)
  have hperm := (Heap.popHeap_perm lt q.queue).toList
  have hsize : (Heap.popHeap lt q.queue).size = q.queue.size := by
    simpa using hperm.length_eq
  have hsplit := toList_pop_append (a := Heap.popHeap lt q.queue) (by omega)
  refine ⟨(Heap.popHeap lt q.queue)[(Heap.popHeap lt q.queue).size - 1]!,
    { q with queue := (Heap.popHeap lt q.queue).pop }, ?_, ⟨?_, rfl, rfl, rfl, ?_⟩, rfl⟩
  · unfold popNode
    rw [if_neg hq]
  · have := hperm.symm
    rw [hsplit] at this
    exact this.trans List.perm_append_comm
  · intro hheap
    obtain ⟨hlast, hrest⟩ := Heap.popHeap_spec (byKey prio q.nodes) (by omega) hheap
    rw [← hsize] at hlast
    constructor
    · intro r hr
      obtain ⟨i, hi, rfl⟩ := List.mem_iff_getElem.mp hr
      have := hheap.le_root i (by simpa using hi)
      rw [hlast]
      rwa [getElem!_pos q.queue i (by simpa using hi)] at this
    · intro i hi hin
      rw [Array.size_pop, hsize] at hin
      have hp := Heap.parent_lt hi
      have hget : ∀ k, k < q.queue.size - 1 →
          (Heap.popHeap lt q.queue).pop[k]! = (Heap.popHeap lt q.queue)[k]! := by
        intro k hk
        rw [getElem!_pos _ k (by rw [Array.size_pop, hsize]; omega),
          getElem!_pos _ k (by rw [hsize]; omega), Array.getElem_pop]
      have := hrest i hi hin
      rw [hget i hin, hget _ (by omega)]
      exact this

/-- What `dequeue` does under the mutex, by the state of the queue. -/
theorem dequeuePop_cases (prio : μ → ℕ) (q : MessageQueue μ) :
    (q.queue.size = 0 ∧ q.shutdown = false ∧ q.dequeuePop prio = .ok .blocked) ∨
    (q.queue.size = 0 ∧ q.shutdown = true ∧
      q.dequeuePop prio = .ok (.null { q with sequence := 0 })) ∨
    (q.queue.size ≠ 0 ∧ ∃ p q', q.dequeuePop prio = .ok (.node p (q.nodes p).message q') ∧
      Pops prio q p q' ∧ q'.sequence = if q'.queue.size = 0 then 0 else q.sequence) := by
  by_cases hq : q.queue.size = 0
  · rcases Bool.eq_false_or_eq_true q.shutdown with hs | hs
    · right; left
      refine ⟨hq, hs, ?_⟩
      unfold dequeuePop
      rw [if_neg (by simp [hs]), if_pos ⟨hs, hq⟩]
    · left
      exact ⟨hq, hs, by unfold dequeuePop; rw [if_pos ⟨hq, hs⟩]⟩
  · right; right
    obtain ⟨p, q', hpop, hP, hseq⟩ := popNode_spec prio hq
    refine ⟨hq, p, if q'.queue.size = 0 then { q' with sequence := 0 } else q', ?_, ?_, ?_⟩
    · unfold dequeuePop
      rw [if_neg (fun h => hq h.1), if_neg (fun h => hq h.2), hpop]
    · split_ifs
      · exact ⟨hP.perm, hP.pool, hP.nodes, hP.shutdown, hP.max⟩
      · exact hP
    · by_cases h0 : q'.queue.size = 0
      · simp only [if_pos h0]
      · simp only [if_neg h0]
        exact hseq

/-- What `try_dequeue` does under the mutex, by the state of the queue. -/
theorem tryDequeuePop_cases (prio : μ → ℕ) (q : MessageQueue μ) :
    (q.queue.size = 0 ∧ q.shutdown = false ∧ q.tryDequeuePop prio = .ok (.null q)) ∨
    (q.queue.size = 0 ∧ q.shutdown = true ∧ q.tryDequeuePop prio = .error .popEmpty) ∨
    (q.queue.size ≠ 0 ∧ ∃ p q', q.tryDequeuePop prio = .ok (.node p (q.nodes p).message q') ∧
      Pops prio q p q' ∧ q'.sequence = q.sequence) := by
  by_cases hq : q.queue.size = 0
  · rcases Bool.eq_false_or_eq_true q.shutdown with hs | hs
    · right; left
      refine ⟨hq, hs, ?_⟩
      unfold tryDequeuePop popNode
      rw [if_neg (by simp [hs]), if_pos hq]
    · left
      exact ⟨hq, hs, by unfold tryDequeuePop; rw [if_pos ⟨hq, hs⟩]⟩
  · right; right
    obtain ⟨p, q', hpop, hP, hseq⟩ := popNode_spec prio hq
    refine ⟨hq, p, q', ?_, hP, hseq⟩
    unfold tryDequeuePop
    rw [if_neg (fun h => hq h.1), hpop]

end MessageQueue

end Protocore
