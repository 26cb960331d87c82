import Mathlib.Data.Nat.Notation
import Mathlib.Logic.Function.Basic
import Mathlib.Logic.Relation
import Mathlib.Tactic.SplitIfs
import Protocore.Run

/-! # Locks

Threads `T` that acquire and release mutexes `M`.

* `Owns owner holds`: the owner of a mutex is the thread that holds it; one rule for a step that
  acquires, one for a step that releases and one for any other step.
* `LockProg`: what a function does to mutexes, with nested scopes, waiting on a condition variable,
  starting and joining threads; data-dependent control flow is a free choice.  `LockSystem.step` is
  its small-step semantics, one acquisition or release at a time.
* `Ordered rank held p`: inside every scope of `p` only mutexes of higher rank are acquired, and
  threads are joined outside all scopes.
* `LockSystem.no_cycle`, `no_reacquire`, `join_free`: threads that run ordered programs never wait for
  each other in a cycle, never acquire a mutex they hold and never join while they hold one. -/

namespace Protocore

variable {ι M T : Type}

/-! ### Ownership -/

/-- The owner of a mutex is the thread that holds it. -/
def Owns (owner : M → Option T) (holds : T → M → Prop) : Prop := ∀ m t, owner m = some t ↔ holds t m

section Owns

variable {owner : M → Option T} {holds holds' : T → M → Prop} {m₀ : M} {t₀ : T}

/-- A step of `t₀` that neither acquires nor releases. -/
theorem Owns.same (h : Owns owner holds) (hother : ∀ t m, t ≠ t₀ → (holds' t m ↔ holds t m))
    (hself : ∀ m, holds' t₀ m ↔ holds t₀ m) : Owns owner holds' := by
  intro m t
  rw [h m t]
  by_cases ht : t = t₀
  · rw [ht, hself]
  · rw [hother t m ht]

theorem Owns.acquire [DecidableEq M] (h : Owns owner holds) (hfree : owner m₀ = none)
    (hother : ∀ t m, t ≠ t₀ → (holds' t m ↔ holds t m))
    (hself : ∀ m, holds' t₀ m ↔ holds t₀ m ∨ m = m₀) :
    Owns (Function.update owner m₀ (some t₀)) holds' := by
  intro m t
  have hnobody : ∀ u, ¬holds u m₀ := by
    intro u hu
    rw [← h m₀ u, hfree] at hu
    cases hu
  by_cases hm : m = m₀
  · subst hm
    rw [Function.update_self]
    by_cases ht : t = t₀
    · simp [ht, hself]
    · rw [hother t m ht]
      exact iff_of_false (fun heq => ht (Option.some.inj heq).symm) (hnobody t)
  · rw [Function.update_of_ne hm, h m t]
    by_cases ht : t = t₀
    · rw [ht, hself, or_iff_left hm]
    · rw [hother t m ht]

theorem Owns.release [DecidableEq M] (h : Owns owner holds) (hheld : holds t₀ m₀)
    (hother : ∀ t m, t ≠ t₀ → (holds' t m ↔ holds t m))
    (hself : ∀ m, holds' t₀ m ↔ holds t₀ m ∧ m ≠ m₀) :
    Owns (Function.update owner m₀ none) holds' := by
  intro m t
  by_cases hm : m = m₀
  · subst hm
    rw [Function.update_self]
    refine iff_of_false (by simp) ?_
    by_cases ht : t = t₀
    · simp [ht, hself]
    · rw [hother t m ht, ← h m t, (h m t₀).mpr hheld]
      exact fun heq => ht (Option.some.inj heq).symm
  · rw [Function.update_of_ne hm, h m t]
    by_cases ht : t = t₀
    · rw [ht, hself, and_iff_left hm]
    · rw [hother t m ht]

end Owns

/-! ### Programs -/

/-- What a function does to mutexes; `ι` indexes its free choices. -/
inductive LockProg (ι M T : Type) where
  | skip
  | seq (p q : LockProg ι M T)
  /-- `{ std::lock_guard lock(m); p }` -/
  | withLock (m : M) (p : LockProg ι M T)
  /-- One blocking round of a condition variable: give `m` back and acquire it again. -/
  | wait (m : M)
  | choose (f : ι → LockProg ι M T)
  | loop (p : LockProg ι M T)
  | spawn (t : T)
  | join (t : T)

/-- What is left to do: run a program, leave a scope, or acquire a mutex again after a wait. -/
inductive LockFrame (ι M T : Type) where
  | run (p : LockProg ι M T)
  | unlock (m : M)
  | relock (m : M)

/-- The owners of the mutexes, and what each thread has left to do. -/
structure LockSystem (ι M T : Type) where
  owner : M → Option T
  started : T → Bool
  frames : T → List (LockFrame ι M T)

/-- A thread takes a step; `index` resolves a choice and `again` whether a loop goes on. -/
structure LockEvent (ι T : Type) where
  thread : T
  index : ι
  again : Bool

namespace LockSystem

variable [DecidableEq M] [DecidableEq T]

/-- All threads are at the beginning of their programs; `started` are running already. -/
def init (started : T → Bool) (prog : T → LockProg ι M T) : LockSystem ι M T :=
  ⟨fun _ => none, started, fun t => [.run (prog t)]⟩

/-- Thread `t` goes on with the frames `k`. -/
def goto (s : LockSystem ι M T) (t : T) (k : List (LockFrame ι M T)) : LockSystem ι M T :=
  { s with frames := Function.update s.frames t k }

/-- Set the owner of a mutex. -/
def setOwner (s : LockSystem ι M T) (m : M) (o : Option T) : LockSystem ι M T :=
  { s with owner := Function.update s.owner m o }

/-- The next step of thread `t`; `none` if it has to wait. -/
def advance (s : LockSystem ι M T) (t : T) (i : ι) (again : Bool) : Option (LockSystem ι M T) :=
  match s.frames t with
  | [] => none
  | .unlock m :: k => some ((s.setOwner m none).goto t k)
  | .relock m :: k =>
      if (s.owner m).isNone then some ((s.setOwner m (some t)).goto t k) else none
  | .run .skip :: k => some (s.goto t k)
  | .run (.seq p q) :: k => some (s.goto t (.run p :: .run q :: k))
  | .run (.withLock m p) :: k =>
      if (s.owner m).isNone then some ((s.setOwner m (some t)).goto t (.run p :: .unlock m :: k))
      else none
  | .run (.wait m) :: k => some ((s.setOwner m none).goto t (.relock m :: k))
  | .run (.choose f) :: k => some (s.goto t (.run (f i) :: k))
  | .run (.loop p) :: k => some (s.goto t (if again then .run p :: .run (.loop p) :: k else k))
  | .run (.spawn u) :: k =>
      some (({ s with started := Function.update s.started u true }).goto t k)
  | .run (.join u) :: k => if (s.frames u).isEmpty then some (s.goto t k) else none

/-- One step of one thread. -/
def step (s : LockSystem ι M T) (e : LockEvent ι T) : Option (LockSystem ι M T) :=
  if s.started e.thread then s.advance e.thread e.index e.again else none

/-- The mutexes a thread holds, innermost first. -/
def held : List (LockFrame ι M T) → List M
  | [] => []
  | .run _ :: k => held k
  | .unlock m :: k => m :: held k
  | .relock m :: k => (held k).filter (· ≠ m)

/-- The mutex a thread is about to acquire. -/
def wants : List (LockFrame ι M T) → Option M
  | .run (.withLock m _) :: _ => some m
  | .relock m :: _ => some m
  | _ => none

/-- The thread a thread is about to join. -/
def joins : List (LockFrame ι M T) → Option T
  | .run (.join t) :: _ => some t
  | _ => none

/-! ### Ranks -/

variable (rank : M → ℕ)

/-- With the mutexes `H` held, the program acquires only mutexes of higher rank, and it joins a
thread only if `H` is empty. -/
def Ordered : List M → LockProg ι M T → Prop
  | _, .skip => True
  | H, .seq p q => Ordered H p ∧ Ordered H q
  | H, .withLock m p => (∀ h ∈ H, rank h < rank m) ∧ Ordered (m :: H) p
  | H, .wait m => m ∈ H ∧ ∀ h ∈ H, h ≠ m → rank h < rank m
  | H, .choose f => ∀ i, Ordered H (f i)
  | H, .loop p => Ordered H p
  | _, .spawn _ => True
  | H, .join _ => H = []

/-- `Ordered` for what is left to do. -/
def OrderedFrames : List (LockFrame ι M T) → Prop
  | [] => True
  | .run p :: k => Ordered rank (held k) p ∧ OrderedFrames k
  | .unlock m :: k => (∀ h ∈ held k, rank h < rank m) ∧ OrderedFrames k
  | .relock m :: k => (m ∈ held k ∧ ∀ h ∈ held k, h ≠ m → rank h < rank m) ∧ OrderedFrames k

/-- Ownership is what the frames say, and what is left to do is ordered. -/
structure Disciplined (s : LockSystem ι M T) : Prop where
  owns : Owns s.owner (fun t m => m ∈ held (s.frames t))
  ordered : ∀ t, OrderedFrames rank (s.frames t)

variable {rank}

omit [DecidableEq T] in
theorem init_disciplined (started : T → Bool) {prog : T → LockProg ι M T}
    (h : ∀ t, Ordered rank [] (prog t)) : Disciplined rank (init started prog) := by
  refine ⟨fun m t => ?_, fun t => ⟨h t, trivial⟩⟩
  simp [init, held]

section step

variable {s : LockSystem ι M T} {t : T} {k : List (LockFrame ι M T)}

theorem Disciplined.ordered_goto (h : Disciplined rank s) (hk : OrderedFrames rank k) (u : T) :
    OrderedFrames rank (Function.update s.frames t k u) := by
  by_cases hu : u = t
  · rw [hu, Function.update_self]
    exact hk
  · rw [Function.update_of_ne hu]
    exact h.ordered u

theorem mem_held_goto_of_ne (u : T) (m : M) (hu : u ≠ t) :
    m ∈ held (Function.update s.frames t k u) ↔ m ∈ held (s.frames u) := by
  rw [Function.update_of_ne hu]

theorem Disciplined.goto (h : Disciplined rank s) (hk : OrderedFrames rank k)
    (hheld : held k = held (s.frames t)) : Disciplined rank (s.goto t k) := by
  refine ⟨h.owns.same mem_held_goto_of_ne (fun m => ?_), h.ordered_goto hk⟩
  show m ∈ held (Function.update s.frames t k t) ↔ _
  rw [Function.update_self, hheld]

theorem Disciplined.acquire (h : Disciplined rank s) {m : M} (hfree : s.owner m = none)
    (hk : OrderedFrames rank k) (hheld : ∀ m', m' ∈ held k ↔ m' ∈ held (s.frames t) ∨ m' = m) :
    Disciplined rank ((s.setOwner m (some t)).goto t k) := by
  refine ⟨h.owns.acquire hfree mem_held_goto_of_ne (fun m' => ?_), h.ordered_goto hk⟩
  show m' ∈ held (Function.update s.frames t k t) ↔ _
  rw [Function.update_self, hheld]

theorem Disciplined.release (h : Disciplined rank s) {m : M} (hm : m ∈ held (s.frames t))
    (hk : OrderedFrames rank k) (hheld : ∀ m', m' ∈ held k ↔ m' ∈ held (s.frames t) ∧ m' ≠ m) :
    Disciplined rank ((s.setOwner m none).goto t k) := by
  refine ⟨h.owns.release hm mem_held_goto_of_ne (fun m' => ?_), h.ordered_goto hk⟩
  show m' ∈ held (Function.update s.frames t k t) ↔ _
  rw [Function.update_self, hheld]

end step

theorem advance_disciplined {s s' : LockSystem ι M T} {t : T} {i : ι} {again : Bool}
    (h : Disciplined rank s) (hs : s.advance t i again = some s') : Disciplined rank s' := by
  have hord := h.ordered t
  unfold advance at hs
  cases hfr : s.frames t with
  | nil => simp only [hfr] at hs; cases hs
  | cons f k =>
      rw [hfr] at hord
      cases f with
      | unlock m =>
          simp only [hfr] at hs
          obtain rfl := Option.some.inj hs
          refine h.release (by simp [hfr, held]) hord.2 (fun m' => ?_)
          have hnot : m ∉ held k := fun hm => Nat.lt_irrefl _ (hord.1 m hm)
          rw [hfr, held, List.mem_cons]
          constructor
          · intro hm'
            exact ⟨.inr hm', fun heq => hnot (heq ▸ hm')⟩
          · rintro ⟨hm', hne⟩
            exact hm'.resolve_left hne
      | relock m =>
          simp only [hfr] at hs
          split_ifs at hs with hfree
          obtain rfl := Option.some.inj hs
          refine h.acquire (Option.isNone_iff_eq_none.mp hfree) hord.2 (fun m' => ?_)
          have hmem := hord.1.1
          rw [hfr, held, List.mem_filter]
          by_cases heq : m' = m <;> simp [heq, hmem]
      | run p =>
          have hheld : held (s.frames t) = held k := by rw [hfr, held]
          cases p with
          | skip =>
              simp only [hfr] at hs
              obtain rfl := Option.some.inj hs
              exact h.goto hord.2 hheld.symm
          | seq p q =>
              simp only [hfr] at hs
              obtain rfl := Option.some.inj hs
              exact h.goto ⟨hord.1.1, hord.1.2, hord.2⟩ hheld.symm
          | withLock m p =>
              simp only [hfr] at hs
              split_ifs at hs with hfree
              obtain rfl := Option.some.inj hs
              refine h.acquire (Option.isNone_iff_eq_none.mp hfree)
                ⟨hord.1.2, hord.1.1, hord.2⟩ (fun m' => ?_)
              rw [hheld, held, held, List.mem_cons, or_comm]
          | wait m =>
              simp only [hfr] at hs
              obtain rfl := Option.some.inj hs
              refine h.release (hheld ▸ hord.1.1) ⟨hord.1, hord.2⟩ (fun m' => ?_)
              rw [hheld, held, List.mem_filter]
              simp
          | choose f =>
              simp only [hfr] at hs
              obtain rfl := Option.some.inj hs
              exact h.goto ⟨hord.1 i, hord.2⟩ hheld.symm
          | loop p =>
              simp only [hfr] at hs
              obtain rfl := Option.some.inj hs
              cases again with
              | true => exact h.goto ⟨hord.1, hord⟩ hheld.symm
              | false => exact h.goto hord.2 hheld.symm
          | spawn u =>
              simp only [hfr] at hs
              obtain rfl := Option.some.inj hs
              have h' : Disciplined rank { s with started := Function.update s.started u true } :=
                ⟨h.owns, h.ordered⟩
              exact h'.goto hord.2 hheld.symm
          | join u =>
              simp only [hfr] at hs
              split_ifs at hs
              obtain rfl := Option.some.inj hs
              exact h.goto hord.2 hheld.symm

theorem step_disciplined (s : LockSystem ι M T) (e : LockEvent ι T) (s' : LockSystem ι M T)
    (h : Disciplined rank s) (hs : step s e = some s') : Disciplined rank s' := by
  unfold step at hs
  split_ifs at hs
  exact advance_disciplined h hs

/-! ### No deadlock -/

/-- Thread `t` waits for a mutex that `u` owns. -/
def WaitsFor (s : LockSystem ι M T) (t u : T) : Prop :=
  ∃ m, wants (s.frames t) = some m ∧ s.owner m = some u

omit [DecidableEq T] in
/-- A wanted mutex ranks above all that are held. -/
theorem OrderedFrames.rank_lt {k : List (LockFrame ι M T)} (h : OrderedFrames rank k) {m m' : M}
    (hw : wants k = some m) (hm' : m' ∈ held k) : rank m' < rank m := by
  match k, h, hw with
  | .run (.withLock _ p) :: k, h, rfl => exact h.1.1 m' hm'
  | .relock _ :: k, h, rfl =>
      obtain ⟨hmem, hne⟩ := List.mem_filter.mp hm'
      exact h.1.2 m' hmem (of_decide_eq_true hne)

omit [DecidableEq T] in
/-- Ranks rise along a chain of waiting threads. -/
theorem Disciplined.rank_lt {s : LockSystem ι M T} (h : Disciplined rank s) {t u : T}
    (htu : Relation.TransGen s.WaitsFor t u) {m m' : M} (hm : wants (s.frames t) = some m)
    (hm' : wants (s.frames u) = some m') : rank m < rank m' := by
  induction htu generalizing m' with
  | single hwait =>
      obtain ⟨m₁, hw, ho⟩ := hwait
      obtain rfl := Option.some.inj (hm.symm.trans hw)
      exact (h.ordered _).rank_lt hm' ((h.owns m _).mp ho)
  | tail _ hwait ih =>
      obtain ⟨m₁, hw, ho⟩ := hwait
      exact Nat.lt_trans (ih hw) ((h.ordered _).rank_lt hm' ((h.owns m₁ _).mp ho))

omit [DecidableEq T] in
/-- Ordered programs never wait for each other in a cycle. -/
theorem Disciplined.no_cycle {s : LockSystem ι M T} (h : Disciplined rank s) (t : T) :
    ¬Relation.TransGen s.WaitsFor t t := by
  intro hcycle
  obtain ⟨u, ⟨m, hm, -⟩, -⟩ := Relation.TransGen.head'_iff.mp hcycle
  exact Nat.lt_irrefl _ (h.rank_lt hcycle hm hm)

omit [DecidableEq T] in
theorem Disciplined.no_reacquire {s : LockSystem ι M T} (h : Disciplined rank s) {t : T} {m : M}
    (hw : wants (s.frames t) = some m) : s.owner m ≠ some t :=
  fun ho => h.no_cycle t (.single ⟨m, hw, ho⟩)

omit [DecidableEq T] in
theorem Disciplined.join_free {s : LockSystem ι M T} (h : Disciplined rank s) {t u : T}
    (hj : joins (s.frames t) = some u) (m : M) : s.owner m ≠ some t := by
  rw [Ne, h.owns m t]
  have hord := h.ordered t
  match hfr : s.frames t, hj with
  | .run (.join _) :: k, rfl =>
      rw [hfr] at hord
      have hnil : held k = [] := hord.1
      simp [hfr, held, hnil]

end LockSystem

end Protocore
