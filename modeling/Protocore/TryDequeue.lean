import Protocore.QueueRuns

/-! # `dequeue` against `try_dequeue`

The two functions of `message_queue.cpp` wait for the same predicate and pop the same way, but
only `dequeue` looks again at what ended the wait.  `dequeue_agrees_tryDequeue_iff`: in a state
in which neither has to wait, they return the same and leave the same queue behind exactly when
there is a message; woken by a shutdown on an empty queue, `try_dequeue` goes on to `pop_heap`
and `back` on an empty vector. -/

namespace Protocore

variable {μ : Type}

namespace MessageQueue

section defs
variable (prio : μ → ℕ)

/-- The predicate both functions wait for. -/
def ready (q : MessageQueue μ) : Bool := q.queue.size != 0 || q.shutdown

/-- The last lines of both functions: the block goes back to the pool and the copy of the
message is returned.  `none` says that the caller still waits. -/
def finish : Taken μ → Except Fault (Option (Option μ × MessageQueue μ))
  | .blocked => .ok none
  | .null q => .ok (some (none, q))
  | .node ptr message q => (q.freeNode ptr).map (fun q' => some (some message, q'))

/-- `MessageQueue::dequeue`. -/
def dequeue (q : MessageQueue μ) : Except Fault (Option (Option μ × MessageQueue μ)) :=
  (q.dequeuePop prio).bind finish

/-- `queue_condition.wait_for`: the queue at the first of the next `n` moments at which the
predicate holds, or at the end of the time; `later k` is the queue after `k` moments. -/
def waitFor : ℕ → (ℕ → MessageQueue μ) → MessageQueue μ
  | 0, later => later 0
  | n + 1, later => if (later 0).ready then later 0 else waitFor n (fun k => later (k + 1))

/-- `MessageQueue::try_dequeue`; a negative timeout is over at once. -/
def tryDequeue (timeout : ℤ) (later : ℕ → MessageQueue μ) :
    Except Fault (Option (Option μ × MessageQueue μ)) :=
  ((waitFor timeout.toNat later).tryDequeuePop prio).bind finish

/-- Both functions return, with the same optional message, and leave the same nodes in the
vector and the same pool; they return `std::nullopt` exactly when the queue was empty. -/
def Agree (q : MessageQueue μ) (d t : Except Fault (Option (Option μ × MessageQueue μ))) : Prop :=
  ∃ result q₁ q₂, d = .ok (some (result, q₁)) ∧ t = .ok (some (result, q₂)) ∧
    q₁.queue = q₂.queue ∧ q₁.nodes = q₂.nodes ∧ q₁.pool = q₂.pool ∧
    (result = none ↔ q.queue.size = 0)

end defs

theorem waitFor_of_ready {later : ℕ → MessageQueue μ} (h : (later 0).ready = true) (n : ℕ) :
    waitFor n later = later 0 := by
  cases n with
  | zero => rfl
  | succ n =>
      unfold waitFor
      rw [if_pos h]

theorem ready_iff {q : MessageQueue μ} : q.ready = true ↔ q.queue.size ≠ 0 ∨ q.shutdown = true := by
  simp [ready]

variable {prio : μ → ℕ}

variable (prio) in
/-- With a message in the queue both functions pop the same node. -/
theorem dequeuePop_tryDequeuePop_of_ne {q : MessageQueue μ} (hq : q.queue.size ≠ 0) :
    ∃ p q₁ q₂, q.dequeuePop prio = .ok (.node p (q.nodes p).message q₁) ∧
      q.tryDequeuePop prio = .ok (.node p (q.nodes p).message q₂) ∧
      Pops prio q p q₂ ∧ q₁ = { q₂ with sequence := q₁.sequence } := by
  obtain ⟨p, q', hpop, hP, -⟩ := popNode_spec prio hq
  refine ⟨p, if q'.queue.size = 0 then { q' with sequence := 0 } else q', q', ?_, ?_, hP, ?_⟩
  · unfold dequeuePop
    rw [if_neg (fun h => hq h.1), if_neg (fun h => hq h.2), hpop]
  · unfold tryDequeuePop
    rw [if_neg (fun h => hq h.1), hpop]
  · split_ifs <;> rfl

theorem agree_of_ne {free out : List ℕ} {q : MessageQueue μ} (hv : q.pool.Valid free out)
    (hout : ∀ p ∈ q.queue.toList, p ∈ out) (hq : q.queue.size ≠ 0) :
    Agree q (q.dequeue prio) ((q.tryDequeuePop prio).bind finish) := by
  obtain ⟨p, q₁, q₂, hd, ht, hP, hq₁⟩ := dequeuePop_tryDequeuePop_of_ne prio hq
  have hp : p ∈ out := hout p (hP.perm.mem_iff.mpr List.mem_cons_self)
  rw [← hP.pool] at hv
  obtain ⟨pool, hfree, -, -⟩ := QueueSystem.freeNode_spec hv hp
  -- giving the block back reads the pool only, which the two results share
  have hfree₁ : q₁.freeNode p = .ok { q₁ with pool := pool } := by
    rw [hq₁]
    unfold freeNode at hfree ⊢
    cases hdealloc : q₂.pool.deallocate p with
    | error f => rw [hdealloc] at hfree; cases hfree
    | ok pool' =>
        rw [hdealloc] at hfree
        have hpool := congrArg MessageQueue.pool (Except.ok.inj hfree)
        obtain rfl : pool' = pool := hpool
        rfl
  refine ⟨some (q.nodes p).message, { q₁ with pool := pool }, { q₂ with pool := pool },
    ?_, ?_, ?_, ?_, rfl, ?_⟩
  · unfold dequeue
    rw [hd]
    simp only [Except.bind, finish, hfree₁, Except.map]
  · rw [ht]
    simp only [Except.bind, finish, hfree, Except.map]
  · rw [hq₁]
  · rw [hq₁]
  · simp [hq]

/-- The message at the root of the vector, if there is one. -/
def front (q : MessageQueue μ) : Option μ :=
  if q.queue.size = 0 then none else some (q.nodes q.queue[0]!).message

theorem popNode_root {q q' : MessageQueue μ} {p : ℕ} (h : q.popNode prio = .ok (p, q')) :
    q.queue.size ≠ 0 ∧ p = q.queue[0]! := by
  unfold popNode at h
  split_ifs at h with hq
  obtain ⟨rfl, -⟩ := Prod.mk.inj (Except.ok.inj h)
  refine ⟨hq, ?_⟩
  have hsize := (Heap.popHeap_perm (fun a b => nodeComparator prio (q.nodes a) (q.nodes b))
    q.queue).toList.length_eq
  rw [Array.length_toList, Array.length_toList] at hsize
  rw [hsize]
  exact Heap.popHeap_last (byKey prio q.nodes) (Nat.pos_of_ne_zero hq)

theorem dequeuePop_front {q q' : MessageQueue μ} {p : ℕ} {message : μ}
    (h : q.dequeuePop prio = .ok (.node p message q')) : q.front = some message := by
  unfold dequeuePop at h
  split_ifs at h
  · cases h
  · cases h
  · cases hpop : q.popNode prio with
    | error f => rw [hpop] at h; cases h
    | ok r =>
        obtain ⟨p', q''⟩ := r
        obtain ⟨hq, hroot⟩ := popNode_root hpop
        rw [hpop] at h
        injection Except.ok.inj h with _ hmsg _
        unfold front
        rw [if_neg hq, ← hmsg, hroot]

theorem dequeuePop_null_front {q q' : MessageQueue μ}
    (h : q.dequeuePop prio = .ok (.null q')) : q.front = none := by
  rcases q.dequeuePop_cases prio with ⟨-, -, hd⟩ | ⟨hq, -, -⟩ | ⟨-, p, q₁, hd, -⟩
  · rw [hd] at h
    cases h
  · unfold front
    rw [if_pos hq]
  · rw [hd] at h
    cases h

theorem dequeue_front {q q' : MessageQueue μ} {result : Option μ}
    (h : q.dequeue prio = .ok (some (result, q'))) : q.front = result := by
  unfold dequeue at h
  cases hd : q.dequeuePop prio with
  | error f => rw [hd] at h; cases h
  | ok t =>
      rw [hd] at h
      simp only [Except.bind] at h
      cases t with
      | blocked => cases h
      | null q₁ =>
          rw [dequeuePop_null_front hd]
          exact (Prod.mk.inj (Option.some.inj (Except.ok.inj h))).1
      | node p m q₁ =>
          rw [dequeuePop_front hd]
          simp only [finish] at h
          cases hf : q₁.freeNode p with
          | error f => rw [hf] at h; cases h
          | ok q₂ =>
              rw [hf] at h
              exact (Prod.mk.inj (Option.some.inj (Except.ok.inj h))).1

/-- Woken by a shutdown on an empty queue, `try_dequeue` pops an empty vector. -/
theorem tryDequeuePop_of_shutdown {q : MessageQueue μ} (h0 : q.queue.size = 0)
    (hdown : q.shutdown = true) : q.tryDequeuePop prio = .error .popEmpty := by
  unfold tryDequeuePop popNode
  rw [if_neg (by simp [hdown]), if_pos h0]

end MessageQueue

namespace QueueSystem

open MessageQueue (Agree)

variable {prio : μ → ℕ} {rep : Node μ → ℕ → UInt8}

theorem Blocks.agree_iff {maxMsgs : ℕ} {s : QueueSystem μ} (hb : Blocks maxMsgs s)
    (hready : s.q.queue.size ≠ 0 ∨ s.q.shutdown = true) :
    Agree s.q (s.q.dequeue prio) ((s.q.tryDequeuePop prio).bind MessageQueue.finish) ↔
      s.q.queue.size ≠ 0 := by
  obtain ⟨-, free, hv⟩ := hb
  refine ⟨?_, MessageQueue.agree_of_ne hv (fun p hp => List.mem_append_left _ hp)⟩
  rintro ⟨result, q₁, q₂, -, ht, -⟩ h0
  rw [MessageQueue.tryDequeuePop_of_shutdown h0 (hready.resolve_left (fun h => h h0))] at ht
  cases ht

/-- **When `dequeue` and `try_dequeue` agree.**  In every reachable state in which neither has to
wait, and for every timeout, they agree exactly when there is a message to return. -/
theorem dequeue_agrees_tryDequeue_iff (prio : μ → ℕ) (rep : Node μ → ℕ → UInt8)
    (msgSize maxMsgs base : ℕ) (m : Bytes.Mem) (nodes : ℕ → Node μ) (hs : sizeofPtr < msgSize)
    (hc : 0 < maxMsgs) (hbase : 0 < base) (hend : base + msgSize * maxMsgs < addressSpace) :
    ∃ q, MessageQueue.create msgSize maxMsgs base m nodes = .ok q ∧
      ∀ s, Reaches (step prio rep) (init q) s → s.popped = none →
        s.q.queue.size ≠ 0 ∨ s.q.shutdown = true →
        ∀ timeout later, later 0 = s.q →
          (Agree s.q (s.q.dequeue prio) (MessageQueue.tryDequeue prio timeout later) ↔
            s.q.queue.size ≠ 0) := by
  obtain ⟨q, hq, -, -, -, hb⟩ := create_blocks m nodes hs hc hbase hend
  refine ⟨q, hq, fun s hreach _ hready timeout later hlater => ?_⟩
  have hready' : (later 0).ready = true := by
    rw [hlater]
    exact MessageQueue.ready_iff.mpr hready
  unfold MessageQueue.tryDequeue
  rw [MessageQueue.waitFor_of_ready hready', hlater]
  exact (reaches_blocks hb hreach).agree_iff hready

/-- A message is there and the shutdown flag is set: the two agree. -/
theorem dequeue_agrees_tryDequeue_after_shutdown : ∃ q s,
    MessageQueue.create 16 2 4096 (fun _ => 0) (fun _ => ⟨7, 0⟩) = .ok q ∧
    run (step (fun m : ℕ => m) (fun _ _ => 255)) (init q)
      [.allocate, .push 4096 3, .notifyShutdown] = some s ∧ s.q.shutdown = true ∧
    Agree s.q (s.q.dequeue (fun m : ℕ => m))
      (MessageQueue.tryDequeue (fun m : ℕ => m) 10 (fun _ => s.q)) := by
  obtain ⟨q, hq, h⟩ := dequeue_agrees_tryDequeue_iff (fun m : ℕ => m) (fun _ _ => 255) 16 2 4096
    (fun _ => 0) (fun _ => ⟨7, 0⟩) (by decide) (by decide) (by decide) (by decide)
  have heval : (MessageQueue.create 16 2 4096 (fun _ => 0) (fun _ => ⟨7, 0⟩)).toOption.bind
      (fun q => (run (step (fun m : ℕ => m) (fun _ _ => 255)) (init q)
        [.allocate, .push 4096 3, .notifyShutdown]).map
          (fun s => (s.q.queue.size, s.popped, s.q.shutdown))) = some (1, none, true) := by
    decide +kernel
  rw [hq] at heval
  obtain ⟨s, hrun, hval⟩ := Option.map_eq_some_iff.mp heval
  obtain ⟨hsize, hval⟩ := Prod.mk.inj hval
  obtain ⟨hpopped, hdown⟩ := Prod.mk.inj hval
  have hne : s.q.queue.size ≠ 0 := by omega
  exact ⟨q, s, hq, hrun, hdown,
    (h s ⟨_, hrun⟩ hpopped (Or.inl hne) 10 (fun _ => s.q) rfl).mpr hne⟩

/-- After a shutdown of an empty queue `dequeue` returns `std::nullopt` and `try_dequeue` pops
an empty vector. -/
theorem dequeue_differs_tryDequeue_on_empty : ∃ q s,
    MessageQueue.create 16 2 4096 (fun _ => 0) (fun _ => ⟨7, 0⟩) = .ok q ∧
    run (step (fun m : ℕ => m) (fun _ _ => 255)) (init q) [.notifyShutdown] = some s ∧
    s.popped = none ∧ s.q.shutdown = true ∧
    (∃ q', s.q.dequeue (fun m : ℕ => m) = .ok (some (none, q'))) ∧
    MessageQueue.tryDequeue (fun m : ℕ => m) 0 (fun _ => s.q) = .error .popEmpty ∧
    ¬ Agree s.q (s.q.dequeue (fun m : ℕ => m))
      (MessageQueue.tryDequeue (fun m : ℕ => m) 0 (fun _ => s.q)) := by
  obtain ⟨q, hq, hempty, -, -, -⟩ := @create_blocks _ 16 2 4096
    (fun _ => 0) (fun _ => (⟨7, 0⟩ : Node ℕ)) (by decide) (by decide) (by decide) (by decide)
  have h0 : q.notifyShutdown.queue.size = 0 := by
    show q.queue.size = 0
    rw [hempty]
    rfl
  have htry : MessageQueue.tryDequeue (fun m : ℕ => m) 0 (fun _ => q.notifyShutdown) =
      .error .popEmpty := by
    unfold MessageQueue.tryDequeue
    rw [MessageQueue.waitFor_of_ready (by simp [MessageQueue.ready, MessageQueue.notifyShutdown]),
      MessageQueue.tryDequeuePop_of_shutdown h0 rfl]
    rfl
  refine ⟨q, { init q with q := q.notifyShutdown }, hq, rfl, rfl, rfl, ?_, htry, ?_⟩
  · refine ⟨{ q.notifyShutdown with sequence := 0 }, ?_⟩
    unfold MessageQueue.dequeue MessageQueue.dequeuePop
    rw [if_neg (by simp [MessageQueue.notifyShutdown]), if_pos ⟨rfl, h0⟩]
    rfl
  · rintro ⟨result, q₁, q₂, -, ht, -⟩
    rw [htry] at ht
    cases ht

end QueueSystem

end Protocore
