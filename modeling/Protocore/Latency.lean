import Protocore.QueueOrder

/-! # How long a message waits

A message leaves the queue after those of higher priority and those of its own priority that came
before it.  `ahead` counts them in a state of a run.  `served_after_exactly`: while a message waits,
`ahead` goes down by one with every message that is returned and up by one with every message of higher
priority that is enqueued, and by nothing else; the message is returned when nothing is ahead of it
(`ReturnedAt`).  So its place among the returned messages is known up to the messages that overtake it, and a message
that is never overtaken is among the next `maxMsgs` returned ones. -/

namespace Protocore

namespace QueueSystem

variable {μ : Type} {prio : μ → ℕ} {rep : Node μ → ℕ → UInt8} {s s' : QueueSystem μ} {x : μ × ℕ}

/-- The event enqueues a message of higher priority than `message`. -/
def overtakes (prio : μ → ℕ) (message : μ) : QueueEvent μ → Bool
  | .push _ other => decide (prio message < prio other)
  | _ => false

/-- How many pending messages are returned before `x`, as things stand. -/
def ahead (prio : μ → ℕ) (s : QueueSystem μ) (x : μ × ℕ) : ℕ := StableQueue.ahead prio s.pending x

/-! ### One step -/

/-- A message that goes on waiting: one less is ahead of it, or one more if it is overtaken. -/
theorem moves_ahead {e : QueueEvent μ} (ha : Arranged prio s) (h : Moves prio rep s e s')
    (hx : x ∈ s.pending) (hx' : x ∈ s'.pending) :
    s'.ahead prio x + s'.returned.length =
      s.ahead prio x + s.returned.length + (overtakes prio x.1 e).toNat := by
  cases h with
  | @push raw message hfree hraw =>
      have hlt : x.2 < s.enqueued.length := (List.getElem?_eq_some_iff.mp (mem_pending.mp hx).1).1
      have hpush := StableQueue.ahead_push prio s.pending (x := x) (y := (message, s.enqueued.length)) hlt
      have hpending : (pushed prio rep s raw message).pending =
          s.pending ++ [(message, s.enqueued.length)] := pushed_pending ha raw message
      rw [← hpending] at hpush
      simp only at hpush
      change StableQueue.ahead prio (pushed prio rep s raw message).pending x + s.returned.length =
        StableQueue.ahead prio s.pending x + s.returned.length +
          (decide (prio x.1 < prio message)).toNat
      omega
  | @take e p q n he hfree hpops hseq =>
      have hpop := StableQueue.ahead_pop prio s.pending_pairwise (ha.pop hpops n) hx'
      have hover : overtakes prio x.1 e = false := by
        rcases he with rfl | rfl <;> rfl
      rw [hover]
      change StableQueue.ahead prio (taken s p q n).pending x +
        (s.returned ++ [s.arrival p]).length = StableQueue.ahead prio s.pending x + s.returned.length + 0
      rw [List.length_append, List.length_singleton]
      omega
  | allocate => rfl
  | dequeueNull => rfl
  | tryNull => rfl
  | release => rfl
  | notifyShutdown => rfl

theorem moves_served_now {e : QueueEvent μ} (ha : Arranged prio s) (h : Moves prio rep s e s')
    (hx : x ∈ s.pending) (hx' : x ∉ s'.pending) :
    s.ahead prio x = 0 ∧ s'.returned = s.returned ++ [x.2] := by
  cases h with
  | @push raw message hfree hraw =>
      refine absurd ?_ hx'
      change x ∈ (pushed prio rep s raw message).pending
      rw [pushed_pending ha]
      exact List.mem_append_left _ hx
  | @take e p q n he hfree hpops hseq =>
      have hpop := ha.pop hpops n
      have hself : x = s.content p := by
        rcases List.mem_cons.mp ((StableQueue.pop_perm _ hpop).mem_iff.mp hx) with h | h
        · exact h
        · exact absurd h hx'
      subst hself
      exact ⟨StableQueue.ahead_popped prio s.pending_pairwise hpop, rfl⟩
  | allocate => exact absurd hx hx'
  | dequeueNull => exact absurd hx hx'
  | tryNull => exact absurd hx hx'
  | release => exact absurd hx hx'
  | notifyShutdown => exact absurd hx hx'

theorem moves_returned {e : QueueEvent μ} (h : Moves prio rep s e s') :
    s.returned <+: s'.returned := by
  cases h with
  | take => exact List.prefix_append _ _
  | allocate => exact List.prefix_rfl
  | push => exact List.prefix_rfl
  | dequeueNull => exact List.prefix_rfl
  | tryNull => exact List.prefix_rfl
  | release => exact List.prefix_rfl
  | notifyShutdown => exact List.prefix_rfl

theorem run_returned : ∀ {es : List (QueueEvent μ)} {s s' : QueueSystem μ},
    run (step prio rep) s es = some s' → s.returned <+: s'.returned
  | [], s, s', h => by
      obtain rfl := Option.some.inj h
      exact List.prefix_rfl
  | e :: es, s, s', h => by
      obtain ⟨s₁, he, hes⟩ := run_cons_eq_some.mp h
      exact (moves_returned (step_moves he)).trans (run_returned hes)

/-! ### Whole runs -/

theorem countP_overtakes (message : μ) (e : QueueEvent μ) (es : List (QueueEvent μ)) :
    (e :: es).countP (overtakes prio message) =
      es.countP (overtakes prio message) + (overtakes prio message e).toNat := by
  rw [List.countP_cons]
  cases overtakes prio message e <;> rfl

/-- The step that returns `x`: it is pending before, and exactly as many others have been returned by
then as were ahead of it or overtook it. -/
def ReturnedAt (prio : μ → ℕ) (rep : Node μ → ℕ → UInt8) (s : QueueSystem μ) (es : List (QueueEvent μ))
    (s' : QueueSystem μ) (x : μ × ℕ) : Prop :=
  ∃ es₁ e es₂ s₁ s₂, es = es₁ ++ e :: es₂ ∧ run (step prio rep) s es₁ = some s₁ ∧ x ∈ s₁.pending ∧
    step prio rep s₁ e = some s₂ ∧ s₂.returned = s₁.returned ++ [x.2] ∧
    s₁.returned.length = s.returned.length + s.ahead prio x + es₁.countP (overtakes prio x.1) ∧
    s₂.returned <+: s'.returned

theorem run_ahead {maxMsgs : ℕ} : ∀ {es : List (QueueEvent μ)} {s s' : QueueSystem μ},
    Blocks maxMsgs s ∧ Ordered prio s → Along (step prio rep) NoWrap s es →
    run (step prio rep) s es = some s' → x ∈ s.pending →
      (x ∈ s'.pending ∧ s'.ahead prio x + s'.returned.length =
        s.ahead prio x + s.returned.length + es.countP (overtakes prio x.1)) ∨
      ReturnedAt prio rep s es s' x
  | [], s, s', _, _, hrun, hx => by
      obtain rfl := Option.some.inj hrun
      exact .inl ⟨hx, rfl⟩
  | e :: es, s, s', hi, halong, hrun, hx => by
      obtain ⟨s₁, he, hes⟩ := run_cons_eq_some.mp hrun
      have hm := step_moves he
      by_cases hx₁ : x ∈ s₁.pending
      · have hstep := moves_ahead hi.2.arranged hm hx hx₁
        rcases run_ahead (step_inv s e s₁ hi halong.1 he) (halong.2 s₁ he) hes hx₁ with
          ⟨hx', heq⟩ | ⟨es₁, e', es₂, s₂, s₃, rfl, hrun₁, hx₂, he', hret, hlen, hprefix⟩
        · refine .inl ⟨hx', ?_⟩
          rw [countP_overtakes]
          omega
        · refine .inr ⟨e :: es₁, e', es₂, s₂, s₃, rfl, run_cons_eq_some.mpr ⟨s₁, he, hrun₁⟩, hx₂, he',
            hret, ?_, hprefix⟩
          rw [countP_overtakes, hlen]
          omega
      · obtain ⟨hzero, hret⟩ := moves_served_now hi.2.arranged hm hx hx₁
        refine .inr ⟨[], e, es, s, s₁, rfl, rfl, hx, he, hret, ?_, run_returned hes⟩
        simp [hzero]

/-- What is known at `s'` about a message that was pending at `s`, with the events `es` in between. -/
structure Latency (prio : μ → ℕ) (rep : Node μ → ℕ → UInt8) (maxMsgs : ℕ) (s : QueueSystem μ)
    (es : List (QueueEvent μ)) (s' : QueueSystem μ) (x : μ × ℕ) : Prop where
  /-- At the beginning fewer than `maxMsgs` messages are ahead. -/
  bounded : s.ahead prio x < maxMsgs
  /-- As long as the message waits, returned messages and messages that overtake it balance. -/
  waiting : x.2 ∉ s'.returned → s'.ahead prio x + s'.returned.length =
    s.ahead prio x + s.returned.length + es.countP (overtakes prio x.1)
  /-- It is returned after those that were ahead of it and those that overtook it until then. -/
  served : x.2 ∈ s'.returned → ReturnedAt prio rep s es s' x
  /-- It is among the next `maxMsgs` returned ones, plus one for each message that overtakes it. -/
  within : s.returned.length + maxMsgs + es.countP (overtakes prio x.1) ≤ s'.returned.length →
    x.2 ∈ s'.returned

theorem Ordered.pending_length_le {maxMsgs : ℕ} (hb : Blocks maxMsgs s) (ho : Ordered prio s) :
    s.pending.length ≤ maxMsgs := by
  have hlen := ho.vector.length_eq
  have hcap := hb.conserved.capacity
  rw [List.length_map, Array.length_toList] at hlen
  omega

/-- **How long a message waits.**  In every interleaving of producers and consumers in which the counter
does not wrap between two resets, a message that is pending is returned after exactly those that are
ahead of it and those that overtake it while it waits. -/
theorem served_after_exactly (prio : μ → ℕ) (rep : Node μ → ℕ → UInt8) (msgSize maxMsgs base : ℕ)
    (m : Bytes.Mem) (nodes : ℕ → Node μ) (hs : sizeofPtr < msgSize) (hc : 0 < maxMsgs)
    (hbase : 0 < base) (hend : base + msgSize * maxMsgs < addressSpace) :
    ∃ q, MessageQueue.create msgSize maxMsgs base m nodes = .ok q ∧
      ∀ es s es' s', run (step prio rep) (init q) es = some s → run (step prio rep) s es' = some s' →
        Along (step prio rep) NoWrap (init q) (es ++ es') →
          ∀ x ∈ s.pending, Latency prio rep maxMsgs s es' s' x := by
  obtain ⟨q, hq, hempty, hseq, hup, hb⟩ := create_blocks m nodes hs hc hbase hend
  refine ⟨q, hq, fun es s es' s' hrun hrun' halong x hx => ?_⟩
  obtain ⟨halong₁, halong₂⟩ := along_append.mp halong
  have hi : Blocks maxMsgs s ∧ Ordered prio s := run_invariant_along
    (P := fun s => Blocks maxMsgs s ∧ Ordered prio s) step_inv ⟨hb, init_ordered hempty hseq⟩
    halong₁ hrun
  have hbounded : s.ahead prio x < maxMsgs :=
    (StableQueue.ahead_lt_length prio hx).trans_le (hi.2.pending_length_le hi.1)
  rcases run_ahead hi (halong₂ s hrun) hrun' hx with ⟨hx', heq⟩ | hserved
  · have hnot := (mem_pending.mp hx').2
    refine ⟨hbounded, fun _ => heq, fun hin => absurd hin hnot, fun hle => ?_⟩
    omega
  · have hin : x.2 ∈ s'.returned := by
      obtain ⟨es₁, e, es₂, s₁, s₂, -, -, -, -, hret, -, hprefix⟩ := hserved
      exact hprefix.subset (hret ▸ List.mem_append_right _ List.mem_cons_self)
    exact ⟨hbounded, fun hnot => absurd hin hnot, fun _ => hserved, fun _ => hin⟩

/-- The first of two messages of one priority, overtaken once: it is the second one returned. -/
theorem served_after_exactly_overtaken : ∃ q s s',
    MessageQueue.create 16 3 4096 (fun _ => 0) (fun _ => ⟨7, 0⟩) = .ok q ∧
    run (step (fun m : ℕ => m) (fun _ _ => 255)) (init q)
      [.allocate, .push 4096 3, .allocate, .push 4112 3] = some s ∧
    run (step (fun m : ℕ => m) (fun _ _ => 255)) s
      [.allocate, .push 4128 8, .dequeue, .release, .dequeue, .release] = some s' ∧
    (3, 0) ∈ s.pending ∧ s'.returned = [2, 0] ∧
    Latency (fun m : ℕ => m) (fun _ _ => 255) 3 s
      [.allocate, .push 4128 8, .dequeue, .release, .dequeue, .release] s' (3, 0) := by
  obtain ⟨q, hq, h⟩ := served_after_exactly (fun m : ℕ => m) (fun _ _ => 255) 16 3 4096
    (fun _ => 0) (fun _ => ⟨7, 0⟩) (by decide) (by decide) (by decide) (by decide)
  have heval : (MessageQueue.create 16 3 4096 (fun _ => 0) (fun _ => ⟨7, 0⟩)).toOption.bind
      (fun q => (run (step (fun m : ℕ => m) (fun _ _ => 255)) (init q)
        [.allocate, .push 4096 3, .allocate, .push 4112 3]).bind (fun s =>
          (run (step (fun m : ℕ => m) (fun _ _ => 255)) s
            [.allocate, .push 4128 8, .dequeue, .release, .dequeue, .release]).map
              (fun s' => (decide ((3, 0) ∈ s.pending), s'.returned)))) = some (true, [2, 0]) := by
    decide +kernel
  rw [hq] at heval
  simp only [Except.toOption, Option.bind_some] at heval
  obtain ⟨s, hrun, heval⟩ := Option.bind_eq_some_iff.mp heval
  obtain ⟨s', hrun', hval⟩ := Option.map_eq_some_iff.mp heval
  obtain ⟨hmem, hret⟩ := Prod.mk.inj hval
  have hx : (3, 0) ∈ s.pending := of_decide_eq_true hmem
  exact ⟨q, s, s', hq, hrun, hrun', hx, hret,
    h _ s _ s' hrun hrun' (along_noWrap _ _ (by simp [init])) (3, 0) hx⟩

end QueueSystem

end Protocore
