import Protocore.QueueOrder

/-! # The 32-bit counter

`sequence` is a `uint32_t`: it is incremented by every `enqueue` and reset only by a `dequeue`
that finds or leaves the vector empty.  `first_served_iff`: a run is first come, first served
among messages of equal priority, with a fresh number for every node, exactly when no message
is enqueued on a non-empty queue at a moment when the counter has come round to zero.

`sustained_run` drives the counter around: one message is always queued and `try_dequeue`,
which never resets the counter, takes the older of two. -/

namespace Protocore

namespace QueueSystem

variable {μ : Type} {prio : μ → ℕ} {rep : Node μ → ℕ → UInt8}

/-- The node of an `enqueue` gets a greater number than every queued one, and what is returned
is the earliest pending message of its priority. -/
def FirstServed (prio : μ → ℕ) (rep : Node μ → ℕ → UInt8) (s : QueueSystem μ)
    (e : QueueEvent μ) : Prop :=
  (∀ raw message, e = .push raw message → Fresh s) ∧
  ∀ s' p message, step prio rep s e = some s' → e = .dequeue ∨ e = .tryDequeue →
    s'.popped = some (p, message) → ∃ i, s'.returned = s.returned ++ [i] ∧
      ∀ x ∈ s.pending, prio x.1 = prio message → i ≤ x.2

/-- The counter stands at zero only when nothing is queued. -/
def NotRound (s : QueueSystem μ) (e : QueueEvent μ) : Prop :=
  ∀ raw message, e = .push raw message → s.q.sequence = 0 → s.q.queue.size = 0

instance decidableNotRound (s : QueueSystem μ) : ∀ e, Decidable (NotRound s e)
  | .push raw message =>
      decidable_of_iff (s.q.sequence = 0 → s.q.queue.size = 0)
        ⟨fun h _ _ _ => h, fun h => h raw message rfl⟩
  | .allocate => isTrue (fun _ _ he => by cases he)
  | .dequeue => isTrue (fun _ _ he => by cases he)
  | .tryDequeue => isTrue (fun _ _ he => by cases he)
  | .release => isTrue (fun _ _ he => by cases he)
  | .notifyShutdown => isTrue (fun _ _ he => by cases he)

/-- The vector is arranged, and the counter is above its nodes unless it came round. -/
structure Counted (maxMsgs : ℕ) (prio : μ → ℕ) (s : QueueSystem μ) : Prop where
  blocks : Blocks maxMsgs s
  arranged : Arranged prio s
  fresh : s.q.sequence ≠ 0 → Fresh s

theorem toList_eq_nil_of_size {a : Array ℕ} (h : a.size = 0) : a.toList = [] := by
  rwa [← Array.length_toList, List.length_eq_zero_iff] at h

theorem Counted.fresh_iff {maxMsgs : ℕ} {s : QueueSystem μ} (h : Counted maxMsgs prio s) :
    Fresh s ↔ (s.q.sequence = 0 → s.q.queue.size = 0) := by
  constructor
  · intro hfresh h0
    rw [← Array.length_toList, List.length_eq_zero_iff, List.eq_nil_iff_forall_not_mem]
    intro p hp
    have := hfresh p hp
    rw [h0] at this
    exact Nat.not_lt_zero _ this
  · intro hround
    by_cases h0 : s.q.sequence = 0
    · intro p hp
      rw [toList_eq_nil_of_size (hround h0)] at hp
      cases hp
    · exact h.fresh h0

theorem Counted.notRound_iff {maxMsgs : ℕ} {s : QueueSystem μ} (h : Counted maxMsgs prio s)
    (e : QueueEvent μ) : NotRound s e ↔ FirstServed prio rep s e := by
  constructor
  · intro hround
    refine ⟨fun raw message he => h.fresh_iff.mpr (hround raw message he), ?_⟩
    intro s' p message hstep he hp
    obtain ⟨q, n, hpops, rfl, rfl⟩ := moves_popped (step_moves hstep) he hp
    exact ⟨s.arrival p, rfl, fun x hx heq => (h.arranged.best hpops x hx).2 heq⟩
  · intro hserved raw message he
    exact h.fresh_iff.mp (hserved.1 raw message he)

/-- Incrementing the counter leaves it above all numbers, or brings it to zero. -/
theorem lt_succ_or_eq_zero (c : UInt32) : c + 1 = 0 ∨ (c + 1).toNat = c.toNat + 1 := by
  have hc := c.toNat_lt
  by_cases hlt : c.toNat + 1 < 2 ^ 32
  · right
    rw [UInt32.toNat_add, UInt32.toNat_one, Nat.mod_eq_of_lt hlt]
  · left
    apply UInt32.toNat_inj.mp
    rw [UInt32.toNat_add, UInt32.toNat_one, UInt32.toNat_zero]
    omega

theorem pushed_fresh {s : QueueSystem μ} (h : Fresh s) {raw : ℕ} (message : μ)
    (hraw : raw ∉ s.q.queue.toList) (hne : s.q.sequence + 1 ≠ 0) :
    Fresh (pushed prio rep s raw message) := by
  intro p hp
  have hsucc := (lt_succ_or_eq_zero s.q.sequence).resolve_left hne
  show _ < (s.q.sequence + 1).toNat
  rcases mem_pushed_queue.mp hp with rfl | hp'
  · rw [(pushed_nodes_self prio rep s p message).1]
    show s.q.sequence.toNat < _
    omega
  · have hpne : p ≠ raw := fun he => hraw (he ▸ hp')
    have hlt := h p hp'
    rw [(pushed_nodes_of_ne message hpne).1]
    omega

theorem step_counted {maxMsgs : ℕ} (s : QueueSystem μ) (e : QueueEvent μ) (s' : QueueSystem μ)
    (h : Counted maxMsgs prio s) (hround : NotRound s e) (hs : step prio rep s e = some s') :
    Counted maxMsgs prio s' := by
  have hm := step_moves hs
  have hpush : ∀ raw message, e = .push raw message → Fresh s :=
    fun raw message he => h.fresh_iff.mpr (hround raw message he)
  refine ⟨moves_blocks h.blocks hm, moves_arranged h.blocks h.arranged hm hpush, ?_⟩
  cases hm with
  | @allocate raw q hq =>
      obtain ⟨pool, rfl⟩ := MessageQueue.allocateNode_frame hq
      exact h.fresh
  | @push raw message hfree hraw =>
      intro hne
      exact pushed_fresh (hpush raw message rfl) message (h.blocks.held_not_mem hraw) hne
  | take he hfree hpops hseq =>
      intro hne p hp
      rcases hseq with ⟨hseq, -⟩ | ⟨-, hseq, -⟩
      · simp only [hpops.nodes, hseq] at hne hp ⊢
        exact h.fresh hne p (Pops.mem_of_mem hpops hp)
      · exact absurd hseq hne
  | dequeueNull => exact fun hne => absurd rfl hne
  | tryNull => exact h.fresh
  | @release p message q hp hf =>
      obtain ⟨pool, rfl⟩ := MessageQueue.freeNode_frame hf
      exact h.fresh
  | notifyShutdown => exact h.fresh

theorem create_counted {msgSize maxMsgs base : ℕ} (prio : μ → ℕ) (m : Bytes.Mem)
    (nodes : ℕ → Node μ) (hs : sizeofPtr < msgSize) (hc : 0 < maxMsgs) (hbase : 0 < base)
    (hend : base + msgSize * maxMsgs < addressSpace) :
    ∃ q, MessageQueue.create msgSize maxMsgs base m nodes = .ok q ∧ q.queue = #[] ∧
      q.sequence = 0 ∧ Counted maxMsgs prio (init q) := by
  obtain ⟨q, hq, hempty, hseq, -, hb⟩ := create_blocks m nodes hs hc hbase hend
  exact ⟨q, hq, hempty, hseq, hb, (init_ordered hempty hseq).arranged, fun hne => absurd hseq hne⟩

/-- **First come, first served, and the 32-bit counter.**  Every run of any length gives fresh
numbers and returns messages of equal priority in order exactly when it never enqueues on a
non-empty queue with the counter at zero. -/
theorem first_served_iff (prio : μ → ℕ) (rep : Node μ → ℕ → UInt8) (msgSize maxMsgs base : ℕ)
    (m : Bytes.Mem) (nodes : ℕ → Node μ) (hs : sizeofPtr < msgSize) (hc : 2 ≤ maxMsgs)
    (hbase : 0 < base) (hend : base + msgSize * maxMsgs < addressSpace) :
    ∃ q, MessageQueue.create msgSize maxMsgs base m nodes = .ok q ∧
      ∀ es, Along (step prio rep) (FirstServed prio rep) (init q) es ↔
        Along (step prio rep) NotRound (init q) es := by
  obtain ⟨q, hq, -, -, hinit⟩ := create_counted prio m nodes hs (by omega) hbase hend
  refine ⟨q, hq, fun es => ?_⟩
  exact (along_congr step_counted (fun s e h => h.notRound_iff e) hinit).symm

/-- Two messages of one priority are returned in order. -/
theorem first_served_two : ∃ q,
    MessageQueue.create 16 2 4096 (fun _ => 0) (fun _ => ⟨7, 0⟩) = .ok q ∧
    Along (step (fun m : ℕ => m) (fun _ _ => 255)) (FirstServed (fun m : ℕ => m) (fun _ _ => 255))
      (init q) [.allocate, .allocate, .push 4112 7, .push 4096 7, .dequeue, .release, .dequeue] := by
  obtain ⟨q, hq, h⟩ := first_served_iff (fun m : ℕ => m) (fun _ _ => 255) 16 2 4096
    (fun _ => 0) (fun _ => ⟨7, 0⟩) (by decide) (by decide) (by decide) (by decide)
  have heval : (MessageQueue.create 16 2 4096 (fun _ => 0) (fun _ => ⟨7, 0⟩)).toOption.map
      (fun q => decide (Along (step (fun m : ℕ => m) (fun _ _ => 255)) NotRound (init q)
        [.allocate, .allocate, .push 4112 7, .push 4096 7, .dequeue, .release, .dequeue])) =
      some true := by decide +kernel
  rw [hq] at heval
  exact ⟨q, hq, (h _).mpr (of_decide_eq_true (Option.some.inj heval))⟩

/-! ### Driving the counter around -/

/-- One message with number `k` is queued, no thread is inside the queue, and the counter is
one ahead. -/
structure Lone (prio : μ → ℕ) (x : μ) (k : ℕ) (s : QueueSystem μ) : Prop where
  blocks : Blocks 2 s
  arranged : Arranged prio s
  held : s.held = []
  popped : s.popped = none
  single : ∃ p, s.q.queue.toList = [p] ∧ (s.q.nodes p).message = x ∧
    (s.q.nodes p).sequenceNumber.toNat = k
  counter : s.q.sequence.toNat = (k + 1) % 2 ^ 32

theorem step_allocate_of_lt (prio : μ → ℕ) (rep : Node μ → ℕ → UInt8) {maxMsgs : ℕ}
    {s : QueueSystem μ} (hb : Blocks maxMsgs s)
    (hlt : s.q.queue.size + s.held.length + s.poppedNodes.length < maxMsgs) :
    ∃ raw pool, step prio rep s .allocate =
      some { s with q := { s.q with pool := pool }, held := raw :: s.held } := by
  obtain ⟨rfl, free, hv⟩ := hb
  have hlen : free.length + (s.q.queue.size + (s.held.length + s.poppedNodes.length)) =
      s.q.pool.blockCount := by simpa [out] using hv.length
  rcases allocateNode_spec hv with ⟨rfl, -⟩ | ⟨raw, free', pool, -, ha, -, -⟩
  · simp only [List.length_nil] at hlen
    omega
  · exact ⟨raw, pool, by simp only [step, ha]⟩

/-- A producer has taken the block `raw`, with the message in `p` queued, and can enqueue a
second message. -/
structure Second (prio : μ → ℕ) (rep : Node μ → ℕ → UInt8) (x : μ) (k : ℕ) (s s₁ : QueueSystem μ)
    (raw p : ℕ) : Prop where
  allocate : step prio rep s .allocate = some s₁
  push : step prio rep s₁ (.push raw x) = some (pushed prio rep s₁ raw x)
  blocks : Blocks 2 (pushed prio rep s₁ raw x)
  arranged : Arranged prio s₁
  not_mem : raw ∉ s₁.q.queue.toList
  list : s₁.q.queue.toList = [p]
  message : (s₁.q.nodes p).message = x
  number : (s₁.q.nodes p).sequenceNumber.toNat = k
  counter : s₁.q.sequence.toNat = (k + 1) % 2 ^ 32
  held : s₁.held = [raw]
  popped : s₁.popped = none

theorem Lone.second {x : μ} {k : ℕ} {s : QueueSystem μ} (h : Lone prio x k s)
    (rep : Node μ → ℕ → UInt8) : ∃ s₁ raw p, Second prio rep x k s s₁ raw p := by
  obtain ⟨p, hlist, hmsg, hnum⟩ := h.single
  have hsize : s.q.queue.size = 1 := by
    rw [← Array.length_toList, hlist]
    rfl
  obtain ⟨raw, pool, halloc⟩ := step_allocate_of_lt prio rep h.blocks
    (by simp [hsize, h.held, poppedNodes, h.popped])
  rw [h.held] at halloc
  have hb₁ := moves_blocks h.blocks (step_moves halloc)
  have hpush : step prio rep { s with q := { s.q with pool := pool }, held := [raw] }
      (.push raw x) = some (pushed prio rep
        { s with q := { s.q with pool := pool }, held := [raw] } raw x) := by
    simp [step, pushed, h.popped]
  exact ⟨_, raw, p, halloc, hpush, moves_blocks hb₁ (step_moves hpush),
    h.arranged.frame _ _ _ _, hb₁.held_not_mem List.mem_cons_self, hlist, hmsg, hnum, h.counter,
    rfl, h.popped⟩

section second
variable {x : μ} {k raw p : ℕ} {s s₁ : QueueSystem μ}

theorem Second.ne (h : Second prio rep x k s s₁ raw p) : p ≠ raw := by
  rintro rfl
  exact h.not_mem (by rw [h.list]; exact List.mem_cons_self)

theorem Second.perm (h : Second prio rep x k s s₁ raw p) :
    (pushed prio rep s₁ raw x).q.queue.toList.Perm [raw, p] := by
  have := s₁.q.pushNode_queue_perm prio rep raw x
  rw [h.list] at this
  exact this

theorem Second.size_ne (h : Second prio rep x k s s₁ raw p) :
    (pushed prio rep s₁ raw x).q.queue.size ≠ 0 := by
  have hsize := h.perm.length_eq
  rw [Array.length_toList] at hsize
  simp [hsize]

theorem Second.nodes (h : Second prio rep x k s s₁ raw p) :
    (pushed prio rep s₁ raw x).q.nodes p = s₁.q.nodes p ∧
      (pushed prio rep s₁ raw x).q.nodes raw = ⟨x, s₁.q.sequence⟩ :=
  ⟨(pushed_nodes_of_ne x h.ne).1, (pushed_nodes_self prio rep s₁ raw x).1⟩

end second

theorem pops_smaller {s : QueueSystem μ} {p q' : ℕ} {q : MessageQueue μ} {r : ℕ}
    (hheap : Heap.IsHeap (fun a => MessageQueue.nodeKey prio (s.q.nodes a)) s.q.queue
      s.q.queue.size)
    (hpops : s.q.Pops prio r q) (hlist : s.q.queue.toList.Perm [p, q'])
    (hprio : prio (s.q.nodes p).message = prio (s.q.nodes q').message)
    (hlt : (s.q.nodes p).sequenceNumber.toNat < (s.q.nodes q').sequenceNumber.toNat) :
    r = p ∧ q.queue.toList = [q'] := by
  have hp : p ∈ s.q.queue.toList := hlist.mem_iff.mpr List.mem_cons_self
  have hr := hlist.mem_iff.mp (Pops.mem_self hpops)
  have hmax := MessageQueue.nodeKey_le_iff.mp ((hpops.max hheap).1 p hp)
  have hrp : r = p := by
    simp only [List.mem_cons, List.not_mem_nil, or_false] at hr
    rcases hr with hr | rfl
    · exact hr
    · omega
  subst hrp
  exact ⟨rfl, List.perm_singleton.mp ((hpops.perm.symm.trans hlist).cons_inv)⟩

theorem toNat_succ (c : UInt32) : (c + 1).toNat = (c.toNat + 1) % 2 ^ 32 := by
  rw [UInt32.toNat_add, UInt32.toNat_one]

/-- `enqueue`, then `try_dequeue`: the older message is returned and the counter moves on. -/
theorem Lone.round {x : μ} {k : ℕ} {s : QueueSystem μ} (h : Lone prio x k s)
    (rep : Node μ → ℕ → UInt8) (hk : k + 1 < 2 ^ 32) :
    ∃ es s', run (step prio rep) s es = some s' ∧ Lone prio x (k + 1) s' := by
  obtain ⟨s₁, raw, p, h₁⟩ := h.second rep
  obtain ⟨hold, hnew⟩ := h₁.nodes
  have hcounter : s₁.q.sequence.toNat = k + 1 := by rw [h₁.counter, Nat.mod_eq_of_lt hk]
  have hfresh : Fresh s₁ := by
    intro r hr
    rw [h₁.list, List.mem_singleton] at hr
    rw [hr, h₁.number, hcounter]
    exact Nat.lt_succ_self k
  have ha₂ : Arranged prio (pushed prio rep s₁ raw x) :=
    pushed_arranged h₁.arranged x h₁.not_mem hfresh
  obtain ⟨r, q, htry, hpops, hseq⟩ := step_tryDequeue_of_ne prio rep
    (s := pushed prio rep s₁ raw x) h₁.popped h₁.size_ne
  obtain ⟨rfl, hrest⟩ := pops_smaller ha₂.heap hpops (h₁.perm.trans (List.Perm.swap p raw []))
    (by rw [hold, hnew, h₁.message])
    (by rw [hold, hnew, h₁.number]; show k < s₁.q.sequence.toNat; omega)
  have hb₃ := moves_blocks h₁.blocks (step_moves htry)
  obtain ⟨pool, hrel⟩ := step_release_taken prio rep hb₃
  refine ⟨[.allocate, .push raw x, .tryDequeue, .release], _,
    run_cons_eq_some.mpr ⟨_, h₁.allocate, run_cons_eq_some.mpr ⟨_, h₁.push,
      run_cons_eq_some.mpr ⟨_, htry, run_cons_eq_some.mpr ⟨_, hrel, rfl⟩⟩⟩⟩, ?_⟩
  refine ⟨moves_blocks hb₃ (step_moves hrel), ?_, ?_, rfl, ⟨raw, hrest, ?_, ?_⟩, ?_⟩
  · exact (taken_arranged ha₂ hpops _).frame pool _ _ none
  · show s₁.held.erase raw = []
    rw [h₁.held]
    simp
  · show (q.nodes raw).message = x
    rw [hpops.nodes, hnew]
  · show (q.nodes raw).sequenceNumber.toNat = k + 1
    rw [hpops.nodes, hnew]
    exact hcounter
  · show q.sequence.toNat = _
    rw [hseq]
    show (s₁.q.sequence + 1).toNat = _
    rw [toNat_succ, hcounter]

/-- As many rounds as one likes before the counter comes round. -/
theorem sustained_run {x : μ} (rep : Node μ → ℕ → UInt8) {s : QueueSystem μ}
    (h : Lone prio x 0 s) : ∀ k, k < 2 ^ 32 →
      ∃ es s', run (step prio rep) s es = some s' ∧ Lone prio x k s'
  | 0, _ => ⟨[], s, rfl, h⟩
  | k + 1, hk => by
      obtain ⟨es, s₁, hrun, h₁⟩ := sustained_run rep h k (by omega)
      obtain ⟨es', s₂, hrun', h₂⟩ := h₁.round rep hk
      exact ⟨es ++ es', s₂, run_append_eq_some.mpr ⟨s₁, hrun, hrun'⟩, h₂⟩

theorem init_lone (prio : μ → ℕ) (rep : Node μ → ℕ → UInt8) (x : μ) {q : MessageQueue μ}
    (hempty : q.queue = #[]) (hseq : q.sequence = 0) (hc : Counted 2 prio (init q)) :
    ∃ es s, run (step prio rep) (init q) es = some s ∧ Lone prio x 0 s := by
  obtain ⟨raw, pool, halloc⟩ := step_allocate_of_lt prio rep hc.blocks
    (by simp [init, hempty, poppedNodes])
  have hc₁ := step_counted (init q) .allocate _ hc (by intro _ _ he; cases he) halloc
  have hpush : step prio rep { init q with q := { q with pool := pool }, held := [raw] }
      (.push raw x) = some (pushed prio rep
        { init q with q := { q with pool := pool }, held := [raw] } raw x) := by
    simp [step, pushed, init]
  have hc₂ := step_counted _ (.push raw x) _ hc₁
    (by intro _ _ _ _; show q.queue.size = 0; rw [hempty]; rfl) hpush
  refine ⟨[.allocate, .push raw x], _, run_cons_eq_some.mpr ⟨_, halloc,
    run_cons_eq_some.mpr ⟨_, hpush, rfl⟩⟩, hc₂.blocks, hc₂.arranged, ?_, rfl, ⟨raw, ?_, ?_, ?_⟩, ?_⟩
  · show [raw].erase raw = []
    simp
  · apply List.perm_singleton.mp
    refine (MessageQueue.pushNode_queue_perm prio rep { q with pool := pool } raw x).trans ?_
    show (raw :: q.queue.toList).Perm [raw]
    rw [hempty]
  · rw [(pushed_nodes_self prio rep _ raw x).1]
  · rw [(pushed_nodes_self prio rep _ raw x).1]
    show q.sequence.toNat = 0
    rw [hseq]
    rfl
  · show (q.sequence + 1).toNat = _
    rw [hseq]
    rfl

/-- With the counter at zero and one message queued, the next message overtakes it. -/
theorem Lone.overtaken {x : μ} {s : QueueSystem μ} (h : Lone prio x (2 ^ 32 - 1) s)
    (rep : Node μ → ℕ → UInt8) : ∃ raw s₁ s₂ s₃ i,
      step prio rep s .allocate = some s₁ ∧ step prio rep s₁ (.push raw x) = some s₂ ∧
      step prio rep s₂ .dequeue = some s₃ ∧ ¬ Fresh s₁ ∧
      (x, i) ∈ s₂.pending ∧ i < s₁.enqueued.length ∧
      s₃.returned = s₂.returned ++ [s₁.enqueued.length] := by
  obtain ⟨s₁, raw, p, h₁⟩ := h.second rep
  obtain ⟨hold, hnew⟩ := h₁.nodes
  have hcounter : s₁.q.sequence.toNat = 0 := h₁.counter
  have hp : p ∈ s₁.q.queue.toList := by
    rw [h₁.list]
    exact List.mem_cons_self
  obtain ⟨r, q, n, hdeq, hpops⟩ := step_dequeue_of_ne prio rep
    (s := pushed prio rep s₁ raw x) h₁.popped h₁.size_ne
  obtain ⟨rfl, -⟩ := pops_smaller (pushed_heap h₁.arranged x h₁.not_mem) hpops h₁.perm
    (by rw [hold, hnew, h₁.message])
    (by rw [hold, hnew, h₁.number]; show s₁.q.sequence.toNat < _; rw [hcounter]; decide)
  refine ⟨r, s₁, _, _, s₁.arrival p, h₁.allocate, h₁.push, hdeq, ?_, ?_,
    h₁.arranged.arrival_lt hp, ?_⟩
  · intro hfresh
    have := hfresh p hp
    rw [hcounter] at this
    exact Nat.not_lt_zero _ this
  · rw [pushed_pending h₁.arranged]
    apply List.mem_append_left
    have := h₁.arranged.mem_pending_of_mem hp
    unfold content at this
    rwa [h₁.message] at this
  · show _ ++ [(pushed prio rep s₁ r x).arrival r] = _
    rw [(pushed_nodes_self prio rep s₁ r x).2]

/-- After `2 ^ 32` enqueues without a reset the next message gets the number zero while one with
the number `2 ^ 32 - 1` is queued, and is returned before it. -/
theorem wrapped_counter_reverses_order : ∃ q es s raw s₁ s₂ i,
    MessageQueue.create 16 2 4096 (fun _ => 0) (fun _ => ⟨7, 0⟩) = .ok q ∧
    run (step (fun m : ℕ => m) (fun _ _ => 255)) (init q) es = some s ∧ ¬ Fresh s ∧
    step (fun m : ℕ => m) (fun _ _ => 255) s (.push raw 7) = some s₁ ∧
    step (fun m : ℕ => m) (fun _ _ => 255) s₁ .dequeue = some s₂ ∧
    (7, i) ∈ s₁.pending ∧ i < s.enqueued.length ∧
    s₂.returned = s₁.returned ++ [s.enqueued.length] ∧
    ¬ Along (step (fun m : ℕ => m) (fun _ _ => 255)) (FirstServed (fun m : ℕ => m) (fun _ _ => 255))
      (init q) (es ++ [.push raw 7]) := by
  obtain ⟨q, hq, hempty, hseq, hc⟩ := @create_counted _ 16 2 4096
    (fun m : ℕ => m) (fun _ => 0) (fun _ => (⟨7, 0⟩ : Node ℕ)) (by decide) (by decide) (by decide)
    (by decide)
  obtain ⟨es₀, s₀, hrun₀, h₀⟩ := init_lone (fun m : ℕ => m) (fun _ _ => 255) 7 hempty hseq hc
  obtain ⟨es, s, hrun, hs⟩ := sustained_run (fun _ _ => 255) h₀ (2 ^ 32 - 1) (by decide)
  obtain ⟨raw, s₁, s₂, s₃, i, halloc, hpush, hdeq, hfresh, hi, hlt, hret⟩ :=
    hs.overtaken (fun _ _ => 255)
  have hall : run (step (fun m : ℕ => m) (fun _ _ => 255)) (init q) (es₀ ++ (es ++ [.allocate])) =
      some s₁ :=
    run_append_eq_some.mpr ⟨s₀, hrun₀, run_append_eq_some.mpr ⟨s, hrun,
      run_cons_eq_some.mpr ⟨s₁, halloc, rfl⟩⟩⟩
  refine ⟨q, _, s₁, raw, s₂, s₃, i, hq, hall, hfresh, hpush, hdeq, hi, hlt, hret, ?_⟩
  intro halong
  exact hfresh (((along_append.mp halong).2 s₁ hall).1.1 raw 7 rfl)

end QueueSystem

end Protocore
