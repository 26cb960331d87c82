import Protocore.StableQueue
import Protocore.QueueRuns

/-! # The message queue is a stable priority queue

The abstract queue of a run is the list of messages enqueued and not yet returned, in order of
arrival (`pending`).  `refines_stableQueue`: as long as fewer than `2 ^ 32` enqueues happen
between two resets of the counter, every `dequeue` and `try_dequeue` that returns a message
pops the abstract queue of `StableQueue.lean`, and the vector holds exactly its messages.

The invariant (`Ordered`) relates the three orders of the source: the heap order of the vector,
the numbers stored in the nodes, and the order of arrival.  The counter is reset only when the
vector is empty, where the last two agree trivially. -/

namespace Protocore

namespace QueueSystem

variable {μ : Type} {prio : μ → ℕ} {rep : Node μ → ℕ → UInt8}

/-- The messages enqueued and not yet returned, in order of arrival, with their positions. -/
def pending (s : QueueSystem μ) : List (μ × ℕ) :=
  s.enqueued.zipIdx.filter (fun x => decide (x.2 ∉ s.returned))

/-- The message of a node, and its position in the order of arrival. -/
def content (s : QueueSystem μ) (p : ℕ) : μ × ℕ := ((s.q.nodes p).message, s.arrival p)

theorem mem_pending {s : QueueSystem μ} {x : μ × ℕ} :
    x ∈ s.pending ↔ s.enqueued[x.2]? = some x.1 ∧ x.2 ∉ s.returned := by
  simp [pending, List.mem_zipIdx_iff_getElem?]

theorem pending_pairwise (s : QueueSystem μ) : s.pending.Pairwise (fun x y => x.2 < y.2) := by
  apply List.Pairwise.filter
  have h : (s.enqueued.zipIdx.map Prod.snd).Pairwise (· < ·) := by
    rw [List.zipIdx_map_snd]
    exact List.pairwise_lt_range'
  exact List.pairwise_map.mp h

/-- The vector is a heap that holds the pending messages; the numbers of its nodes follow the
order of arrival and are below the counter. -/
structure Ordered (prio : μ → ℕ) (s : QueueSystem μ) : Prop where
  heap : Heap.IsHeap (fun a => MessageQueue.nodeKey prio (s.q.nodes a)) s.q.queue s.q.queue.size
  vector : (s.q.queue.toList.map s.content).Perm s.pending
  numbered : ∀ p ∈ s.q.queue.toList, ∀ r ∈ s.q.queue.toList, s.arrival p < s.arrival r →
    (s.q.nodes p).sequenceNumber.toNat < (s.q.nodes r).sequenceNumber.toNat
  below : ∀ p ∈ s.q.queue.toList, (s.q.nodes p).sequenceNumber.toNat < s.sinceReset
  counter : s.q.sequence.toNat = s.sinceReset
  returned_nodup : s.returned.Nodup
  returned_lt : ∀ i ∈ s.returned, i < s.enqueued.length

/-- The part of the order that says nothing about the counter. -/
structure Arranged (prio : μ → ℕ) (s : QueueSystem μ) : Prop where
  heap : Heap.IsHeap (fun a => MessageQueue.nodeKey prio (s.q.nodes a)) s.q.queue s.q.queue.size
  vector : (s.q.queue.toList.map s.content).Perm s.pending
  numbered : ∀ p ∈ s.q.queue.toList, ∀ r ∈ s.q.queue.toList, s.arrival p < s.arrival r →
    (s.q.nodes p).sequenceNumber.toNat < (s.q.nodes r).sequenceNumber.toNat
  returned_nodup : s.returned.Nodup
  returned_lt : ∀ i ∈ s.returned, i < s.enqueued.length

/-- The number of the next node is greater than those of the queued ones. -/
def Fresh (s : QueueSystem μ) : Prop :=
  ∀ p ∈ s.q.queue.toList, (s.q.nodes p).sequenceNumber.toNat < s.q.sequence.toNat

theorem Ordered.arranged {s : QueueSystem μ} (h : Ordered prio s) : Arranged prio s :=
  ⟨h.heap, h.vector, h.numbered, h.returned_nodup, h.returned_lt⟩

theorem Ordered.fresh {s : QueueSystem μ} (h : Ordered prio s) : Fresh s := by
  intro p hp
  rw [h.counter]
  exact h.below p hp

/-- Fewer than `2 ^ 32` enqueues happen between two resets of the counter. -/
def NoWrap (s : QueueSystem μ) (e : QueueEvent μ) : Prop :=
  ∀ raw message, e = .push raw message → s.sinceReset + 1 < 2 ^ 32

theorem Arranged.mem_pending_of_mem {s : QueueSystem μ} (h : Arranged prio s) {p : ℕ}
    (hp : p ∈ s.q.queue.toList) : s.content p ∈ s.pending :=
  h.vector.mem_iff.mp (List.mem_map_of_mem hp)

/-- The order does not depend on the pool, the flag and the threads. -/
theorem Arranged.frame {s : QueueSystem μ} (h : Arranged prio s) (pool : MemoryPool) (down : Bool)
    (held : List ℕ) (popped : Option (ℕ × μ)) :
    Arranged prio { s with
      q := { s.q with pool := pool, shutdown := down }, held := held, popped := popped } :=
  ⟨h.heap, h.vector, h.numbered, h.returned_nodup, h.returned_lt⟩

theorem init_ordered {q : MessageQueue μ} (hq : q.queue = #[]) (hseq : q.sequence = 0) :
    Ordered prio (init q) := by
  constructor
  · intro i _ hi
    simp [init, hq] at hi
  · simp [init, hq, pending]
  · simp [init, hq]
  · simp [init, hq]
  · simp [init, hseq]
  · simp [init]
  · simp [init]

/-! ### Enqueueing -/

/-- The system after the critical section of `enqueue`. -/
def pushed (prio : μ → ℕ) (rep : Node μ → ℕ → UInt8) (s : QueueSystem μ) (raw : ℕ) (message : μ) :
    QueueSystem μ :=
  { s with
    q := s.q.pushNode prio rep raw message
    held := s.held.erase raw
    enqueued := s.enqueued ++ [message]
    arrival := fun a => if a = raw then s.enqueued.length else s.arrival a
    sinceReset := s.sinceReset + 1 }

theorem pushed_pending {s : QueueSystem μ} (h : Arranged prio s) (raw : ℕ) (message : μ) :
    (pushed prio rep s raw message).pending = s.pending ++ [(message, s.enqueued.length)] := by
  have hn : s.enqueued.length ∉ s.returned := fun hm => Nat.lt_irrefl _ (h.returned_lt _ hm)
  simp only [pending, pushed, List.zipIdx_append, List.filter_append]
  congr 1
  simp [hn]

theorem pushed_nodes_of_ne {s : QueueSystem μ} {raw p : ℕ} (message : μ) (hp : p ≠ raw) :
    (pushed prio rep s raw message).q.nodes p = s.q.nodes p ∧
      (pushed prio rep s raw message).arrival p = s.arrival p := by
  simp [pushed, MessageQueue.pushNode, hp]

theorem pushed_nodes_self (prio : μ → ℕ) (rep : Node μ → ℕ → UInt8) (s : QueueSystem μ) (raw : ℕ)
    (message : μ) :
    (pushed prio rep s raw message).q.nodes raw = ⟨message, s.q.sequence⟩ ∧
      (pushed prio rep s raw message).arrival raw = s.enqueued.length := by
  simp [pushed, MessageQueue.pushNode]

theorem mem_pushed_queue {s : QueueSystem μ} {raw p : ℕ} {message : μ} :
    p ∈ (pushed prio rep s raw message).q.queue.toList ↔ p = raw ∨ p ∈ s.q.queue.toList := by
  have h := (s.q.pushNode_queue_perm prio rep raw message).mem_iff (a := p)
  rw [List.mem_cons] at h
  exact h

/-- Positions of pending messages are below the next one. -/
theorem Arranged.arrival_lt {s : QueueSystem μ} (h : Arranged prio s) {p : ℕ}
    (hp : p ∈ s.q.queue.toList) : s.arrival p < s.enqueued.length := by
  have hm := mem_pending.mp (h.mem_pending_of_mem hp)
  exact (List.getElem?_eq_some_iff.mp hm.1).1

theorem pushed_heap {s : QueueSystem μ} (h : Arranged prio s) {raw : ℕ} (message : μ)
    (hraw : raw ∉ s.q.queue.toList) :
    Heap.IsHeap (fun a => MessageQueue.nodeKey prio ((pushed prio rep s raw message).q.nodes a))
      (pushed prio rep s raw message).q.queue (pushed prio rep s raw message).q.queue.size := by
  have hsize : (pushed prio rep s raw message).q.queue.size = (s.q.queue.push raw).size := by
    have h := (s.q.pushNode_queue_perm prio rep raw message).length_eq
    rw [Array.length_toList, List.length_cons, Array.length_toList] at h
    rw [Array.size_push]
    exact h
  rw [hsize]
  apply Heap.pushHeap_isHeap (MessageQueue.byKey prio (pushed prio rep s raw message).q.nodes)
    (by simp)
  intro i hi hin
  rw [Array.size_push, Nat.add_sub_cancel] at hin
  have hget : ∀ k, k < s.q.queue.size → (s.q.queue.push raw)[k]! = s.q.queue[k]! ∧
      (pushed prio rep s raw message).q.nodes s.q.queue[k]! = s.q.nodes s.q.queue[k]! := by
    intro k hk
    have hmem : s.q.queue[k]! ∈ s.q.queue.toList := by
      rw [getElem!_pos s.q.queue k hk]
      simp
    have hne : s.q.queue[k]! ≠ raw := by
      intro he
      rw [he] at hmem
      exact hraw hmem
    refine ⟨?_, (pushed_nodes_of_ne message hne).1⟩
    rw [getElem!_pos _ k (by simp; omega), Array.getElem_push_lt hk, getElem!_pos s.q.queue k hk]
  have hp := Heap.parent_lt hi
  have hold := h.heap i hi hin
  rw [(hget i hin).1, (hget _ (by omega)).1]
  simp only [(hget i hin).2, (hget _ (show Heap.parent i < s.q.queue.size by omega)).2]
  exact hold

theorem pushed_arranged {s : QueueSystem μ} (h : Arranged prio s) {raw : ℕ} (message : μ)
    (hraw : raw ∉ s.q.queue.toList) (hfresh : Fresh s) :
    Arranged prio (pushed prio rep s raw message) := by
  have hne : ∀ {p}, p ∈ s.q.queue.toList → p ≠ raw := fun hp he => hraw (he ▸ hp)
  have hself := pushed_nodes_self prio rep s raw message
  have hold : ∀ {p}, p ∈ s.q.queue.toList →
      (pushed prio rep s raw message).q.nodes p = s.q.nodes p ∧
        (pushed prio rep s raw message).arrival p = s.arrival p :=
    fun hp => pushed_nodes_of_ne message (hne hp)
  refine ⟨pushed_heap h message hraw, ?_, ?_, h.returned_nodup, ?_⟩
  · have hmap : s.q.queue.toList.map (pushed prio rep s raw message).content =
        s.q.queue.toList.map s.content := by
      apply List.map_congr_left
      intro p hp
      unfold content
      rw [(hold hp).1, (hold hp).2]
    have hperm := (s.q.pushNode_queue_perm prio rep raw message).map
      (pushed prio rep s raw message).content
    rw [List.map_cons, hmap] at hperm
    have hraw' : (pushed prio rep s raw message).content raw = (message, s.enqueued.length) := by
      unfold content
      rw [hself.1, hself.2]
    rw [hraw'] at hperm
    rw [pushed_pending h]
    exact hperm.trans ((List.Perm.cons _ h.vector).trans (List.perm_append_singleton _ _).symm)
  · intro p hp r hr hlt
    rcases mem_pushed_queue.mp hp with hp' | hp' <;> rcases mem_pushed_queue.mp hr with hr' | hr'
    · rw [hp', hr'] at hlt
      exact absurd hlt (Nat.lt_irrefl _)
    · rw [hp', hself.2, (hold hr').2] at hlt
      have := h.arrival_lt hr'
      omega
    · rw [hr', (hold hp').1, hself.1]
      exact hfresh p hp'
    · rw [(hold hp').2, (hold hr').2] at hlt
      rw [(hold hp').1, (hold hr').1]
      exact h.numbered p hp' r hr' hlt
  · intro i hi
    have := h.returned_lt i hi
    simp only [pushed, List.length_append, List.length_cons, List.length_nil]
    omega

theorem pushed_ordered {s : QueueSystem μ} (h : Ordered prio s) {raw : ℕ} (message : μ)
    (hraw : raw ∉ s.q.queue.toList) (hwrap : s.sinceReset + 1 < 2 ^ 32) :
    Ordered prio (pushed prio rep s raw message) := by
  obtain ⟨hheap, hvector, hnumbered, hnodup, hlt⟩ : Arranged prio (pushed prio rep s raw message) :=
    pushed_arranged h.arranged message hraw h.fresh
  refine ⟨hheap, hvector, hnumbered, ?_, ?_, hnodup, hlt⟩
  · intro p hp
    show _ < s.sinceReset + 1
    rcases mem_pushed_queue.mp hp with rfl | hp
    · rw [(pushed_nodes_self prio rep s p message).1, ← h.counter]
      exact Nat.lt_succ_self _
    · have hne : p ≠ raw := fun he => hraw (he ▸ hp)
      rw [(pushed_nodes_of_ne message hne).1]
      have := h.below p hp
      omega
  · show (s.q.sequence + 1).toNat = s.sinceReset + 1
    rw [UInt32.toNat_add, h.counter, UInt32.toNat_one, Nat.mod_eq_of_lt hwrap]

/-! ### Taking a message -/

/-- The system after a consumer popped the node `p`, with `n` enqueues since the last reset. -/
def taken (s : QueueSystem μ) (p : ℕ) (q : MessageQueue μ) (n : ℕ) : QueueSystem μ :=
  { s with
    q := q
    popped := some (p, (s.q.nodes p).message)
    returned := s.returned ++ [s.arrival p]
    sinceReset := n }

section take
variable {s : QueueSystem μ} {p : ℕ} {q : MessageQueue μ}

theorem Pops.mem_self (hpops : s.q.Pops prio p q) : p ∈ s.q.queue.toList :=
  hpops.perm.mem_iff.mpr List.mem_cons_self

theorem Pops.mem_of_mem (hpops : s.q.Pops prio p q) {r : ℕ} (hr : r ∈ q.queue.toList) :
    r ∈ s.q.queue.toList :=
  hpops.perm.mem_iff.mpr (List.mem_cons_of_mem p hr)

/-- The popped message has maximal priority and arrived first among those of its priority. -/
theorem Arranged.best (h : Arranged prio s) (hpops : s.q.Pops prio p q) :
    ∀ x ∈ s.pending, prio x.1 ≤ prio (s.q.nodes p).message ∧
      (prio x.1 = prio (s.q.nodes p).message → s.arrival p ≤ x.2) := by
  intro x hx
  obtain ⟨r, hr, rfl⟩ := List.mem_map.mp (h.vector.mem_iff.mpr hx)
  have hmax := MessageQueue.nodeKey_le_iff.mp ((hpops.max h.heap).1 r hr)
  show prio (s.q.nodes r).message ≤ _ ∧ (prio (s.q.nodes r).message = _ → s.arrival p ≤ s.arrival r)
  refine ⟨by omega, fun heq => ?_⟩
  by_contra hlt
  have := h.numbered r hr p (Pops.mem_self hpops) (by omega)
  omega

theorem taken_pending (n : ℕ) :
    (taken s p q n).pending = s.pending.filter (fun x => decide (x.2 ≠ s.arrival p)) := by
  simp only [pending, taken, List.filter_filter]
  apply List.filter_congr
  intro x _
  simp [not_or, Bool.and_comm]

/-- The concrete step pops the abstract queue. -/
theorem Arranged.pop (h : Arranged prio s) (hpops : s.q.Pops prio p q) (n : ℕ) :
    StableQueue.pop (fun x => prio x.1) s.pending =
      some (s.content p, (taken s p q n).pending) := by
  have hbest := h.best hpops
  obtain ⟨pre, post, hsplit⟩ := List.append_of_mem
    (h.mem_pending_of_mem (Pops.mem_self hpops))
  have hsorted := s.pending_pairwise
  rw [hsplit, List.pairwise_append] at hsorted
  obtain ⟨-, hpost, hpre⟩ := hsorted
  rw [List.pairwise_cons] at hpost
  have hprelt : ∀ x ∈ pre, x.2 < s.arrival p := fun x hx => hpre x hx _ List.mem_cons_self
  have hpostlt : ∀ x ∈ post, s.arrival p < x.2 := fun x hx => hpost.1 x hx
  rw [StableQueue.pop_eq_some_iff]
  refine ⟨pre, post, hsplit, ?_, ?_, ?_⟩
  · rw [taken_pending, hsplit, List.filter_append, List.filter_cons]
    have h1 : pre.filter (fun x => decide (x.2 ≠ s.arrival p)) = pre := by
      rw [List.filter_eq_self]
      intro x hx
      have := hprelt x hx
      simp only [decide_eq_true_eq]
      omega
    have h2 : post.filter (fun x => decide (x.2 ≠ s.arrival p)) = post := by
      rw [List.filter_eq_self]
      intro x hx
      have := hpostlt x hx
      simp only [decide_eq_true_eq]
      omega
    rw [h1, h2]
    simp [content]
  · intro x hx
    have hb := hbest x (by rw [hsplit]; exact List.mem_append_left _ hx)
    have := hprelt x hx
    show prio x.1 < prio (s.q.nodes p).message
    omega
  · intro x hx
    exact (hbest x (by rw [hsplit]; exact List.mem_append_right _ (List.mem_cons_of_mem _ hx))).1

theorem taken_arranged (h : Arranged prio s) (hpops : s.q.Pops prio p q) (n : ℕ) :
    Arranged prio (taken s p q n) := by
  have hcontent : (taken s p q n).content = s.content := by
    funext r
    simp only [content, taken, hpops.nodes]
  have hself := mem_pending.mp (h.mem_pending_of_mem (Pops.mem_self hpops))
  refine ⟨?_, ?_, ?_, ?_, ?_⟩
  · simp only [taken, hpops.nodes]
    exact (hpops.max h.heap).2
  · have hpop := StableQueue.pop_perm _ (h.pop hpops n)
    have hperm := hpops.perm.map s.content
    rw [List.map_cons] at hperm
    rw [hcontent]
    exact ((hperm.symm.trans h.vector).trans hpop).cons_inv
  · intro r hr u hu hlt
    simp only [taken, hpops.nodes] at hr hu hlt ⊢
    exact h.numbered r (Pops.mem_of_mem hpops hr) u (Pops.mem_of_mem hpops hu) hlt
  · simp only [taken]
    exact List.nodup_append.mpr ⟨h.returned_nodup, by simp, by
      intro i hi j hj
      rw [List.mem_singleton] at hj
      rintro rfl
      rw [hj] at hi
      exact hself.2 hi⟩
  · intro i hi
    simp only [taken, List.mem_append, List.mem_singleton] at hi
    rcases hi with hi | rfl
    · exact h.returned_lt i hi
    · exact h.arrival_lt (Pops.mem_self hpops)

theorem taken_ordered (h : Ordered prio s) (hpops : s.q.Pops prio p q) {n : ℕ}
    (hseq : (q.sequence = s.q.sequence ∧ n = s.sinceReset) ∨
      (q.queue.size = 0 ∧ q.sequence = 0 ∧ n = 0)) : Ordered prio (taken s p q n) := by
  obtain ⟨hheap, hvector, hnumbered, hnodup, hlt⟩ := taken_arranged h.arranged hpops n
  refine ⟨hheap, hvector, hnumbered, ?_, ?_, hnodup, hlt⟩
  · intro r hr
    simp only [taken, hpops.nodes] at hr ⊢
    rcases hseq with ⟨-, rfl⟩ | ⟨h0, -, rfl⟩
    · exact h.below r (Pops.mem_of_mem hpops hr)
    · rw [← Array.length_toList, List.length_eq_zero_iff] at h0
      rw [h0] at hr
      cases hr
  · rcases hseq with ⟨hs, rfl⟩ | ⟨-, hs, rfl⟩
    · simp only [taken, hs]
      exact h.counter
    · simp only [taken, hs]
      rfl

end take

/-! ### Whole runs -/

/-- A block in the hands of a producer is not in the vector. -/
theorem Blocks.held_not_mem {maxMsgs : ℕ} {s : QueueSystem μ} (hb : Blocks maxMsgs s) {raw : ℕ}
    (hraw : raw ∈ s.held) : raw ∉ s.q.queue.toList := by
  intro hq
  obtain ⟨free, hv⟩ := hb.valid
  have hnd := (List.nodup_append.mp hv.nodup).2.1
  exact List.disjoint_of_nodup_append hnd hq (List.mem_append_left _ hraw)

/-- The arrangement is kept by every step that gives a fresh number to what it enqueues. -/
theorem moves_arranged {maxMsgs : ℕ} {s s' : QueueSystem μ} {e : QueueEvent μ}
    (hb : Blocks maxMsgs s) (ha : Arranged prio s) (h : Moves prio rep s e s')
    (hfresh : ∀ raw message, e = .push raw message → Fresh s) : Arranged prio s' := by
  cases h with
  | @allocate raw q hq =>
      obtain ⟨pool, rfl⟩ := MessageQueue.allocateNode_frame hq
      exact ha.frame pool _ _ _
  | @push raw message hfree hraw =>
      exact pushed_arranged ha message (hb.held_not_mem hraw) (hfresh raw message rfl)
  | take he hfree hpops hseq => exact taken_arranged ha hpops _
  | dequeueNull => exact ⟨ha.heap, ha.vector, ha.numbered, ha.returned_nodup, ha.returned_lt⟩
  | tryNull => exact ha
  | @release p message q hp hf =>
      obtain ⟨pool, rfl⟩ := MessageQueue.freeNode_frame hf
      exact ha.frame pool _ _ _
  | notifyShutdown => exact ha.frame _ _ _ _

/-- Blocks and order together are kept by every step that does not wrap the counter. -/
theorem step_inv {maxMsgs : ℕ} (s : QueueSystem μ) (e : QueueEvent μ) (s' : QueueSystem μ)
    (hi : Blocks maxMsgs s ∧ Ordered prio s) (hw : NoWrap s e)
    (h : step prio rep s e = some s') : Blocks maxMsgs s' ∧ Ordered prio s' := by
  obtain ⟨hb, ho⟩ := hi
  have hm := step_moves h
  refine ⟨moves_blocks hb hm, ?_⟩
  obtain ⟨hheap, hvector, hnumbered, hnodup, hlt⟩ :=
    moves_arranged hb ho.arranged hm (fun _ _ _ => ho.fresh)
  cases hm with
  | @allocate raw q ha =>
      obtain ⟨pool, rfl⟩ := MessageQueue.allocateNode_frame ha
      exact ⟨hheap, hvector, hnumbered, ho.below, ho.counter, hnodup, hlt⟩
  | @push raw message hfree hraw =>
      exact pushed_ordered ho message (hb.held_not_mem hraw) (hw raw message rfl)
  | take he hfree hpops hseq => exact taken_ordered ho hpops hseq
  | dequeueNull hfree hempty hdown =>
      rw [← Array.length_toList, List.length_eq_zero_iff] at hempty
      refine ⟨hheap, hvector, hnumbered, ?_, rfl, hnodup, hlt⟩
      intro p hp
      simp only [hempty] at hp
      cases hp
  | tryNull => exact ho
  | @release p message q hp hf =>
      obtain ⟨pool, rfl⟩ := MessageQueue.freeNode_frame hf
      exact ⟨hheap, hvector, hnumbered, ho.below, ho.counter, hnodup, hlt⟩
  | notifyShutdown => exact ⟨hheap, hvector, hnumbered, ho.below, ho.counter, hnodup, hlt⟩

/-! ### Messages of one priority -/

/-- Two arrivals have messages of one priority. -/
def SamePrio (prio : μ → ℕ) (s : QueueSystem μ) (i j : ℕ) : Prop :=
  ∃ x y, s.enqueued[i]? = some x ∧ s.enqueued[j]? = some y ∧ prio x = prio y

/-- Messages of one priority are returned in order of arrival, none is passed over. -/
structure Served (prio : μ → ℕ) (s : QueueSystem μ) : Prop where
  closed : ∀ i j, SamePrio prio s i j → i < j → j ∈ s.returned → i ∈ s.returned
  sorted : s.returned.Pairwise (fun i j => SamePrio prio s i j → i < j)

theorem SamePrio.symm {s : QueueSystem μ} {i j : ℕ} (h : SamePrio prio s i j) :
    SamePrio prio s j i := by
  obtain ⟨x, y, hx, hy, heq⟩ := h
  exact ⟨y, x, hy, hx, heq.symm⟩

theorem init_served (q : MessageQueue μ) : Served prio (init q) :=
  ⟨fun _ _ _ _ hj => absurd hj List.not_mem_nil, List.Pairwise.nil⟩

/-- An arrival that was there before a push keeps its message. -/
theorem SamePrio.of_append {s s' : QueueSystem μ} {message : μ} {i j : ℕ}
    (henq : s'.enqueued = s.enqueued ++ [message]) (hi : i < s.enqueued.length)
    (hj : j < s.enqueued.length) (h : SamePrio prio s' i j) : SamePrio prio s i j := by
  obtain ⟨x, y, hx, hy, heq⟩ := h
  rw [henq, List.getElem?_append_left hi] at hx
  rw [henq, List.getElem?_append_left hj] at hy
  exact ⟨x, y, hx, hy, heq⟩

theorem pushed_served {s : QueueSystem μ} (ha : Arranged prio s) (h : Served prio s) (raw : ℕ)
    (message : μ) : Served prio (pushed prio rep s raw message) := by
  constructor
  · intro i j hsame hlt hj
    have hj' := ha.returned_lt j hj
    exact h.closed i j (hsame.of_append rfl (by omega) hj') hlt hj
  · refine List.Pairwise.imp_of_mem ?_ h.sorted
    intro i j hi hj hlt hsame
    exact hlt (hsame.of_append rfl (ha.returned_lt i hi) (ha.returned_lt j hj))

theorem taken_served {s : QueueSystem μ} {p : ℕ} {q : MessageQueue μ} (ha : Arranged prio s)
    (h : Served prio s) (hpops : s.q.Pops prio p q) (n : ℕ) : Served prio (taken s p q n) := by
  obtain ⟨hself, hnew⟩ := mem_pending.mp (ha.mem_pending_of_mem (Pops.mem_self hpops))
  change s.arrival p ∉ s.returned at hnew
  -- a pending message of the same priority did not arrive earlier
  have hfirst : ∀ i, SamePrio prio s i (s.arrival p) → i < s.arrival p → i ∈ s.returned := by
    rintro i ⟨x, y, hx, hy, heq⟩ hlt
    by_contra hi
    have hbest := (ha.best hpops (x, i) (mem_pending.mpr ⟨hx, hi⟩)).2
    obtain rfl := Option.some.inj (hself.symm.trans hy)
    have := hbest heq
    omega
  constructor
  · intro i j hsame hlt hj
    rcases List.mem_append.mp hj with hj | hj
    · exact List.mem_append_left _ (h.closed i j hsame hlt hj)
    · rw [List.mem_singleton] at hj
      subst hj
      exact List.mem_append_left _ (hfirst i hsame hlt)
  · refine List.pairwise_append.mpr ⟨h.sorted, List.pairwise_singleton _ _, ?_⟩
    intro i hi j hj hsame
    rw [List.mem_singleton] at hj
    subst hj
    have hne : i ≠ s.arrival p := fun he => hnew (he ▸ hi)
    have hge : ¬ s.arrival p < i := fun hlt => hnew (h.closed _ i hsame.symm hlt hi)
    omega

theorem moves_served {s s' : QueueSystem μ} {e : QueueEvent μ} (ha : Arranged prio s)
    (h : Served prio s) (hm : Moves prio rep s e s') : Served prio s' := by
  cases hm with
  | @push raw message hfree hraw => exact pushed_served ha h raw message
  | take he hfree hpops hseq => exact taken_served ha h hpops _
  | _ => exact ⟨h.closed, h.sorted⟩

/-- The shutdown flag records whether `notify_shutdown` was called. -/
theorem run_shutdown : ∀ {es : List (QueueEvent μ)} {s s' : QueueSystem μ},
    run (step prio rep) s es = some s' → s'.q.shutdown = true →
      s.q.shutdown = true ∨ .notifyShutdown ∈ es
  | [], s, s', h, hs => by
      obtain rfl := Option.some.inj h
      exact Or.inl hs
  | e :: es, s, s', h, hs => by
      obtain ⟨s₁, he, hes⟩ := run_cons_eq_some.mp h
      rcases run_shutdown hes hs with h₁ | h₁
      · cases step_moves he with
        | @allocate raw q ha =>
            obtain ⟨pool, rfl⟩ := MessageQueue.allocateNode_frame ha
            exact Or.inl h₁
        | push => exact Or.inl h₁
        | take _ _ hpops =>
            left
            rw [← hpops.shutdown]
            exact h₁
        | dequeueNull => exact Or.inl h₁
        | tryNull => exact Or.inl h₁
        | @release p message q hp hf =>
            obtain ⟨pool, rfl⟩ := MessageQueue.freeNode_frame hf
            exact Or.inl h₁
        | notifyShutdown => exact Or.inr List.mem_cons_self
      · exact Or.inr (List.mem_cons_of_mem e h₁)

/-- A step that leaves a popped node behind popped it itself. -/
theorem moves_popped {s s' : QueueSystem μ} {e : QueueEvent μ} {p : ℕ} {message : μ}
    (h : Moves prio rep s e s') (he : e = .dequeue ∨ e = .tryDequeue)
    (hp : s'.popped = some (p, message)) :
    ∃ q n, s.q.Pops prio p q ∧ message = (s.q.nodes p).message ∧ s' = taken s p q n := by
  cases h with
  | take _ hfree hpops hseq =>
      obtain ⟨rfl, rfl⟩ := Prod.mk.inj (Option.some.inj hp)
      exact ⟨_, _, hpops, rfl, rfl⟩
  | dequeueNull hfree => rw [hfree] at hp; cases hp
  | tryNull hfree => rw [hfree] at hp; cases hp
  | allocate => rcases he with he | he <;> cases he
  | push => rcases he with he | he <;> cases he
  | release => rcases he with he | he <;> cases he
  | notifyShutdown => rcases he with he | he <;> cases he

/-- On a non-empty vector, outside a critical section, `dequeue` takes a message. -/
theorem step_dequeue_of_ne (prio : μ → ℕ) (rep : Node μ → ℕ → UInt8) {s : QueueSystem μ}
    (hfree : s.popped = none) (hne : s.q.queue.size ≠ 0) :
    ∃ p q n, step prio rep s .dequeue = some (taken s p q n) ∧ s.q.Pops prio p q := by
  rcases s.q.dequeuePop_cases prio with ⟨h0, -, -⟩ | ⟨h0, -, -⟩ | ⟨-, p, q, hd, hpops, -⟩
  · exact absurd h0 hne
  · exact absurd h0 hne
  · refine ⟨p, q, if q.queue.size = 0 then 0 else s.sinceReset, ?_, hpops⟩
    simp only [step, hfree, Option.isNone_none, if_true, hd, taken]

/-- So does `try_dequeue`, and it leaves the counter alone. -/
theorem step_tryDequeue_of_ne (prio : μ → ℕ) (rep : Node μ → ℕ → UInt8) {s : QueueSystem μ}
    (hfree : s.popped = none) (hne : s.q.queue.size ≠ 0) :
    ∃ p q, step prio rep s .tryDequeue = some (taken s p q s.sinceReset) ∧ s.q.Pops prio p q ∧
      q.sequence = s.q.sequence := by
  rcases s.q.tryDequeuePop_cases prio with ⟨h0, -, -⟩ | ⟨h0, -, -⟩ | ⟨-, p, q, hd, hpops, hseq⟩
  · exact absurd h0 hne
  · exact absurd h0 hne
  · refine ⟨p, q, ?_, hpops, hseq⟩
    simp only [step, hfree, Option.isNone_none, if_true, hd, taken]

/-- The consumer can always finish: the pool takes the popped node back. -/
theorem step_release_taken (prio : μ → ℕ) (rep : Node μ → ℕ → UInt8) {maxMsgs n : ℕ}
    {s : QueueSystem μ} {p : ℕ} {q : MessageQueue μ} (hb : Blocks maxMsgs (taken s p q n)) :
    ∃ pool, step prio rep (taken s p q n) .release =
      some { taken s p q n with q := { q with pool := pool }, popped := none } := by
  obtain ⟨free, hv⟩ := hb.valid
  have hout : p ∈ (taken s p q n).out := by simp [out, poppedNodes, taken]
  obtain ⟨pool, hfreeNode, -, -⟩ := freeNode_spec (p := p) hv hout
  refine ⟨pool, ?_⟩
  have hq : (taken s p q n).q = q := rfl
  rw [hq] at hfreeNode
  simp only [step, taken, hfreeNode]

/-- Repeated `dequeue` calls empty the vector, one message each. -/
theorem drain_run (rep : Node μ → ℕ → UInt8) {maxMsgs : ℕ} : ∀ (n : ℕ) (s : QueueSystem μ),
    Blocks maxMsgs s ∧ Ordered prio s → s.popped = none → s.q.queue.size = n →
      ∃ s', run (step prio rep) s (List.replicate n [QueueEvent.dequeue, .release]).flatten =
        some s' ∧ Ordered prio s' ∧ s'.q.queue.size = 0 ∧ s'.enqueued = s.enqueued
  | 0, s, hi, _, hn => ⟨s, rfl, hi.2, hn, rfl⟩
  | n + 1, s, hi, hfree, hn => by
      obtain ⟨p, q, k, hstep, hpops⟩ := step_dequeue_of_ne prio rep hfree (by omega)
      have hi₁ := step_inv s .dequeue _ hi (by intro _ _ he; cases he) hstep
      obtain ⟨pool, hrel⟩ := step_release_taken prio rep hi₁.1
      have hi₂ := step_inv _ .release _ hi₁ (by intro _ _ he; cases he) hrel
      have hlen := hpops.perm.length_eq
      rw [Array.length_toList, List.length_cons, Array.length_toList] at hlen
      obtain ⟨s', hrun, hend⟩ := drain_run rep n _ hi₂ rfl
        (show q.queue.size = n by omega)
      refine ⟨s', ?_, hend⟩
      rw [List.replicate_succ, List.flatten_cons, run_append_eq_some]
      exact ⟨_, run_cons_eq_some.mpr ⟨_, hstep, run_cons_eq_some.mpr ⟨_, hrel, rfl⟩⟩, hrun⟩

/-- What users of the queue can rely on after the events `es` have led to `s`. -/
structure StablePriority (prio : μ → ℕ) (rep : Node μ → ℕ → UInt8) (es : List (QueueEvent μ))
    (s : QueueSystem μ) : Prop where
  /-- Each message is returned at most once, and only after it was enqueued. -/
  once : s.returned.Nodup ∧ ∀ i ∈ s.returned, i < s.enqueued.length
  /-- The messages in the vector are exactly those enqueued and not yet returned. -/
  vector : (s.q.queue.toList.map s.content).Perm s.pending
  /-- A returned message has maximal priority among the pending ones, and is the earliest of
  that priority. -/
  best : ∀ e s', e = .dequeue ∨ e = .tryDequeue → step prio rep s e = some s' →
    ∀ p message, s'.popped = some (p, message) → ∃ i, s'.returned = s.returned ++ [i] ∧
      (message, i) ∈ s.pending ∧
      ∀ x ∈ s.pending, prio x.1 ≤ prio message ∧ (prio x.1 = prio message → i ≤ x.2)
  /-- Such a step pops the abstract stable priority queue. -/
  refines : ∀ e s', e = .dequeue ∨ e = .tryDequeue → step prio rep s e = some s' →
    ∀ p message, s'.popped = some (p, message) →
      ∃ i, StableQueue.pop (fun x => prio x.1) s.pending = some ((message, i), s'.pending)
  /-- `dequeue` returns `std::nullopt` only after a shutdown and on an empty queue. -/
  null : ∀ s', step prio rep s .dequeue = some s' → s'.popped = none →
    .notifyShutdown ∈ es ∧ s.q.queue.size = 0 ∧ s.pending = []
  /-- A pending message is never lost: as many `dequeue` calls return all of them. -/
  drains : s.popped = none → ∃ s', run (step prio rep) s
    (List.replicate s.q.queue.size [QueueEvent.dequeue, .release]).flatten = some s' ∧
      s'.enqueued = s.enqueued ∧ s'.pending = []
  /-- Neither operation runs into undefined behaviour, `try_dequeue` as long as there was no
  shutdown. -/
  no_fault : (∀ f, s.q.dequeuePop prio ≠ .error f) ∧
    (.notifyShutdown ∉ es → ∀ f, s.q.tryDequeuePop prio ≠ .error f)

theorem Ordered.pending_eq_nil {s : QueueSystem μ} (h : Ordered prio s)
    (h0 : s.q.queue.size = 0) : s.pending = [] := by
  rw [← Array.length_toList, List.length_eq_zero_iff] at h0
  have := h.vector
  rw [h0] at this
  exact this.nil_eq.symm

theorem Ordered.stablePriority {maxMsgs : ℕ} {es : List (QueueEvent μ)} {s : QueueSystem μ}
    (hb : Blocks maxMsgs s) (h : Ordered prio s)
    (hdown : s.q.shutdown = true → .notifyShutdown ∈ es) : StablePriority prio rep es s := by
  refine ⟨⟨h.returned_nodup, h.returned_lt⟩, h.vector, ?_, ?_, ?_, ?_, ?_, ?_⟩
  · intro e s' he hs p message hp
    obtain ⟨q, n, hpops, rfl, rfl⟩ := moves_popped (step_moves hs) he hp
    exact ⟨s.arrival p, rfl, h.arranged.mem_pending_of_mem (Pops.mem_self hpops),
      h.arranged.best hpops⟩
  · intro e s' he hs p message hp
    obtain ⟨q, n, hpops, rfl, rfl⟩ := moves_popped (step_moves hs) he hp
    exact ⟨s.arrival p, h.arranged.pop hpops n⟩
  · intro s' hs hnone
    cases step_moves hs with
    | take => cases hnone
    | dequeueNull _ hempty hd => exact ⟨hdown hd, hempty, h.pending_eq_nil hempty⟩
  · intro hfree
    obtain ⟨s', hrun, ho, h0, henq⟩ := drain_run rep _ s ⟨hb, h⟩ hfree rfl
    exact ⟨s', hrun, henq, ho.pending_eq_nil h0⟩
  · intro f
    rcases s.q.dequeuePop_cases prio with ⟨-, -, hd⟩ | ⟨-, -, hd⟩ | ⟨-, p, q, hd, -⟩ <;>
      rw [hd] <;> simp
  · intro hnot f
    rcases s.q.tryDequeuePop_cases prio with ⟨-, -, hd⟩ | ⟨-, hs, -⟩ | ⟨-, p, q, hd, -⟩
    · rw [hd]; simp
    · exact absurd (hdown hs) hnot
    · rw [hd]; simp

/-- **The message queue is a stable priority queue.**  In every interleaving of producers and
consumers, and every order of shutdown and the two ways to dequeue, messages leave by priority
and first come, first served, as long as the counter does not wrap between two resets. -/
theorem refines_stableQueue (prio : μ → ℕ) (rep : Node μ → ℕ → UInt8) (msgSize maxMsgs base : ℕ)
    (m : Bytes.Mem) (nodes : ℕ → Node μ) (hs : sizeofPtr < msgSize) (hc : 0 < maxMsgs)
    (hbase : 0 < base) (hend : base + msgSize * maxMsgs < addressSpace) :
    ∃ q, MessageQueue.create msgSize maxMsgs base m nodes = .ok q ∧
      ∀ es s, run (step prio rep) (init q) es = some s →
        Along (step prio rep) NoWrap (init q) es → StablePriority prio rep es s := by
  obtain ⟨q, hq, hempty, hseq, hup, hb⟩ := create_blocks m nodes hs hc hbase hend
  refine ⟨q, hq, fun es s hrun halong => ?_⟩
  obtain ⟨hb', ho⟩ := run_invariant_along (P := fun s => Blocks maxMsgs s ∧ Ordered prio s)
    step_inv ⟨hb, init_ordered hempty hseq⟩ halong hrun
  refine ho.stablePriority hb' (fun hd => ?_)
  rcases run_shutdown hrun hd with h | h
  · rw [show (init q).q = q from rfl, hup] at h
    cases h
  · exact h

/-- Runs of fewer than `2 ^ 32` events do not wrap the counter. -/
theorem along_noWrap : ∀ (es : List (QueueEvent μ)) (s : QueueSystem μ),
    s.sinceReset + es.length < 2 ^ 32 → Along (step prio rep) NoWrap s es
  | [], _, _ => trivial
  | e :: es, s, h => by
      rw [List.length_cons] at h
      refine ⟨fun _ _ _ => by omega, fun s' hs => along_noWrap es s' ?_⟩
      have hle : s'.sinceReset ≤ s.sinceReset + 1 := by
        cases step_moves hs with
        | @take e p q n _ _ _ hseq =>
            show n ≤ s.sinceReset + 1
            omega
        | dequeueNull => exact Nat.zero_le _
        | push => exact Nat.le_refl _
        | _ => exact Nat.le_succ _
      omega

/-- Two producers and a consumer: the second message overtakes the first by priority. -/
theorem refines_stableQueue_overtaking : ∃ q s,
    MessageQueue.create 16 2 4096 (fun _ => 0) (fun _ => ⟨7, 0⟩) = .ok q ∧
    run (step (fun m : ℕ => m) (fun _ _ => 255)) (init q)
      [.allocate, .allocate, .push 4112 3, .push 4096 8, .dequeue] = some s ∧
    s.returned = [1] ∧
    StablePriority (fun m : ℕ => m) (fun _ _ => 255)
      [.allocate, .allocate, .push 4112 3, .push 4096 8, .dequeue] s := by
  obtain ⟨q, hq, h⟩ := refines_stableQueue (fun m : ℕ => m) (fun _ _ => 255) 16 2 4096
    (fun _ => 0) (fun _ => ⟨7, 0⟩) (by decide) (by decide) (by decide) (by decide)
  have heval : (MessageQueue.create 16 2 4096 (fun _ => 0) (fun _ => ⟨7, 0⟩)).toOption.bind
      (fun q => (run (step (fun m : ℕ => m) (fun _ _ => 255)) (init q)
        [.allocate, .allocate, .push 4112 3, .push 4096 8, .dequeue]).map
          QueueSystem.returned) = some [1] := by decide +kernel
  rw [hq] at heval
  obtain ⟨s, hrun, hret⟩ := Option.map_eq_some_iff.mp heval
  exact ⟨q, s, hq, hrun, hret, h _ s hrun (along_noWrap _ _ (by simp [init]))⟩

end QueueSystem

end Protocore
