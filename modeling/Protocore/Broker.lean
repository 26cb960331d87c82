import Protocore.Run
import Protocore.MemoryPool
import Protocore.Msg

/-! # The broker

`Broker` (`broker.h`): one list of weak pointers per message type.  `publish` walks the list of
its type with an iterator while it holds `sub_mutex`; an entry that can still be locked is
delivered to, an expired one is erased where it stands.  Tasks lose their last owner at any
time, also between two iterations.

A task is identified by its control block: `τ` is never reused, so that an expired entry stays
expired.  A task that has not been created yet counts as alive; it cannot be subscribed before
it exists.

`exact_delivery`: no list ever holds a task twice, and a call of `publish` delivers one copy, in
subscription order, to exactly the entries it finds alive, and erases exactly the others. -/

namespace Protocore

variable {τ : Type} [DecidableEq τ]

/-- The static members of `Broker`; `maxSubscribers` is the capacity reserved for each list. -/
structure Broker (τ : Type) where
  initialized : Bool
  maxSubscribers : ℕ
  subscriberLists : MsgType → List τ

namespace Broker

/-- `Broker::initialize`. -/
def brokerInitialize (b : Broker τ) (maxSubscribers : ℕ) : Broker τ :=
  { b with initialized := true, maxSubscribers := max b.maxSubscribers maxSubscribers }

/-- Replace the list of one type. -/
def setList (b : Broker τ) (type : MsgType) (l : List τ) : Broker τ :=
  { b with subscriberLists := fun ty => if ty = type then l else b.subscriberLists ty }

/-- `Broker::subscribe`: append the task unless a live entry of the list is the same task. -/
def subscribe (b : Broker τ) (alive : τ → Bool) (task : τ) (type : MsgType) :
    Except Fault (Broker τ) :=
  if b.initialized then
    if (b.subscriberLists type).any (fun wp => alive wp && decide (wp = task)) then .ok b
    else .ok (b.setList type (b.subscriberLists type ++ [task]))
  else .error .notInitialized

end Broker

/-- A call of `publish` inside its loop: the message, the iterator, and the entries visited so
far with what `lock()` found. -/
structure Publishing (τ : Type) where
  msg : Msg τ
  it : ℕ
  visits : List (τ × Bool)

/-- The broker, the liveness of the tasks, the call that holds `sub_mutex`, and all messages
enqueued so far, in order. -/
structure BrokerSystem (τ : Type) where
  broker : Broker τ
  alive : τ → Bool
  publishing : Option (Publishing τ)
  log : List (τ × Msg τ)

/-- The atomic steps of publishers, subscribers and owners. -/
inductive BrokerEvent (τ : Type) where
  | brokerInitialize (maxSubscribers : ℕ)
  | subscribe (task : τ) (type : MsgType)
  | publish (msg : Msg τ)
  | iterate
  | finish
  | expire (task : τ)

namespace BrokerSystem

/-- The program starts with empty lists. -/
def init : BrokerSystem τ := ⟨⟨false, 0, fun _ => []⟩, fun _ => true, none, []⟩

/-- The subscriber list of a type. -/
def list (s : BrokerSystem τ) (type : MsgType) : List τ := s.broker.subscriberLists type

/-- The messages enqueued to one task. -/
def received (s : BrokerSystem τ) (t : τ) : List (Msg τ) :=
  (s.log.filter (fun d => decide (d.1 = t))).map Prod.snd

/-- One step; `subscribe` and `publish` wait for `sub_mutex`, a failed assertion ends the run. -/
def step (s : BrokerSystem τ) : BrokerEvent τ → Option (BrokerSystem τ)
  | .brokerInitialize n =>
      if s.publishing.isNone then some { s with broker := s.broker.brokerInitialize n } else none
  | .subscribe task type =>
      if s.publishing.isNone ∧ s.alive task then
        match s.broker.subscribe s.alive task type with
        | .ok b => some { s with broker := b }
        | .error _ => none
      else none
  | .publish msg =>
      if s.publishing.isNone ∧ s.broker.initialized then
        some { s with publishing := some ⟨msg, 0, []⟩ }
      else none
  | .iterate =>
      match s.publishing with
      | none => none
      | some c =>
          match (s.list c.msg.getType)[c.it]? with
          | none => none
          | some t =>
              if s.alive t then
                -- deliver_message(subscriber, msg); ++it;
                some { s with
                  log := s.log ++ [(t, c.msg)]
                  publishing := some { c with it := c.it + 1, visits := c.visits ++ [(t, true)] } }
              else
                -- it = subscribers.erase(it);
                some { s with
                  broker := s.broker.setList c.msg.getType
                    ((s.list c.msg.getType).eraseIdx c.it)
                  publishing := some { c with visits := c.visits ++ [(t, false)] } }
  | .finish =>
      match s.publishing with
      | none => none
      | some c =>
          if (s.list c.msg.getType).length ≤ c.it then some { s with publishing := none } else none
  | .expire task =>
      if s.alive task then
        some { s with alive := fun t => if t = task then false else s.alive t }
      else none

/-! ### Everything a step can do -/

/-- The steps that change the broker, the log or the call in progress. -/
inductive Moves (s : BrokerSystem τ) : BrokerEvent τ → BrokerSystem τ → Prop
  | brokerInitialize {n : ℕ} (h : s.publishing = none) :
      Moves s (.brokerInitialize n) { s with broker := s.broker.brokerInitialize n }
  | known {task : τ} {type : MsgType} (h : s.publishing = none) : Moves s (.subscribe task type) s
  | subscribe {task : τ} {type : MsgType} (h : s.publishing = none)
      (hnew : task ∉ s.list type) :
      Moves s (.subscribe task type)
        { s with broker := s.broker.setList type (s.list type ++ [task]) }
  | publish {msg : Msg τ} (h : s.publishing = none) :
      Moves s (.publish msg) { s with publishing := some ⟨msg, 0, []⟩ }
  | deliver {c : Publishing τ} {t : τ} (h : s.publishing = some c)
      (ht : (s.list c.msg.getType)[c.it]? = some t) (hal : s.alive t = true) :
      Moves s .iterate { s with
        log := s.log ++ [(t, c.msg)]
        publishing := some { c with it := c.it + 1, visits := c.visits ++ [(t, true)] } }
  | erase {c : Publishing τ} {t : τ} (h : s.publishing = some c)
      (ht : (s.list c.msg.getType)[c.it]? = some t) (hal : s.alive t = false) :
      Moves s .iterate { s with
        broker := s.broker.setList c.msg.getType ((s.list c.msg.getType).eraseIdx c.it)
        publishing := some { c with visits := c.visits ++ [(t, false)] } }
  | finish {c : Publishing τ} (h : s.publishing = some c)
      (hend : (s.list c.msg.getType).length ≤ c.it) : Moves s .finish { s with publishing := none }
  | expire {task : τ} :
      Moves s (.expire task) { s with alive := fun t => if t = task then false else s.alive t }

theorem step_moves {s s' : BrokerSystem τ} {e : BrokerEvent τ} (h : step s e = some s') :
    Moves s e s' := by
  cases e with
  | brokerInitialize n =>
      simp only [step] at h
      split at h
      · rename_i hp
        obtain rfl := Option.some.inj h
        exact .brokerInitialize (Option.isNone_iff_eq_none.mp hp)
      · cases h
  | subscribe task type =>
      simp only [step] at h
      split at h
      · rename_i hp
        have hfree := Option.isNone_iff_eq_none.mp hp.1
        simp only [Broker.subscribe] at h
        cases hi : s.broker.initialized with
        | false => simp [hi] at h
        | true =>
            by_cases hany : (s.broker.subscriberLists type).any
                (fun wp => s.alive wp && decide (wp = task)) = true
            · simp only [hi, hany, if_true] at h
              obtain rfl := Option.some.inj h
              exact .known hfree
            · simp only [hi, hany, if_true] at h
              obtain rfl := Option.some.inj h
              refine .subscribe hfree (fun hmem => hany ?_)
              rw [List.any_eq_true]
              exact ⟨task, hmem, by simp [hp.2]⟩
      · cases h
  | publish msg =>
      simp only [step] at h
      split at h
      · rename_i hp
        obtain rfl := Option.some.inj h
        exact .publish (Option.isNone_iff_eq_none.mp hp.1)
      · cases h
  | iterate =>
      simp only [step] at h
      cases hp : s.publishing with
      | none => rw [hp] at h; cases h
      | some c =>
          simp only [hp] at h
          cases ht : (s.list c.msg.getType)[c.it]? with
          | none => rw [ht] at h; cases h
          | some t =>
              simp only [ht] at h
              cases hal : s.alive t with
              | true =>
                  rw [if_pos hal] at h
                  obtain rfl := Option.some.inj h
                  exact .deliver hp ht hal
              | false =>
                  rw [if_neg (by simp [hal])] at h
                  obtain rfl := Option.some.inj h
                  exact .erase hp ht hal
  | finish =>
      simp only [step] at h
      cases hp : s.publishing with
      | none => rw [hp] at h; cases h
      | some c =>
          simp only [hp] at h
          split at h
          · rename_i hend
            obtain rfl := Option.some.inj h
            exact .finish hp hend
          · cases h
  | expire task =>
      simp only [step] at h
      split at h
      · obtain rfl := Option.some.inj h
        exact .expire
      · cases h

omit [DecidableEq τ] in
@[simp] theorem setList_list (s : BrokerSystem τ) (type ty : MsgType) (l : List τ) :
    (s.broker.setList type l).subscriberLists ty = if ty = type then l else s.list ty := rfl

/-! ### No task is subscribed twice -/

theorem step_nodup (s : BrokerSystem τ) (e : BrokerEvent τ) (s' : BrokerSystem τ)
    (hi : ∀ type, (s.list type).Nodup) (h : step s e = some s') : ∀ type, (s'.list type).Nodup := by
  intro ty
  cases step_moves h with
  | @subscribe task type hfree hnew =>
      simp only [list, setList_list]
      split_ifs with hty
      · exact List.nodup_append.mpr ⟨hi type, List.nodup_singleton task, by
          intro a ha b hb
          rw [List.mem_singleton] at hb
          rintro rfl
          rw [hb] at ha
          exact hnew ha⟩
      · exact hi ty
  | @erase c t hp ht hal =>
      simp only [list, setList_list]
      split_ifs with hty
      · exact (hi c.msg.getType).eraseIdx c.it
      · exact hi ty
  | _ => exact hi ty

/-! ### The publish loop -/

/-- The entries found alive, in order. -/
def found (visits : List (τ × Bool)) : List τ := (visits.filter Prod.snd).map Prod.fst

omit [DecidableEq τ] in
theorem found_append (visits : List (τ × Bool)) (t : τ) (b : Bool) :
    found (visits ++ [(t, b)]) = found visits ++ if b then [t] else [] := by
  cases b <;> simp [found]

/-- A call `publish(msg)` that started in `s₀` is inside its loop: the visited entries have been
delivered to or erased, `rest` is still to come. -/
structure Loop (s₀ : BrokerSystem τ) (msg : Msg τ) (s : BrokerSystem τ) (c : Publishing τ)
    (rest : List τ) : Prop where
  call : s.publishing = some c
  msg_eq : c.msg = msg
  before : s₀.list msg.getType = c.visits.map Prod.fst ++ rest
  after : s.list msg.getType = found c.visits ++ rest
  it_eq : c.it = (found c.visits).length
  log : s.log = s₀.log ++ (found c.visits).map (fun t => (t, msg))
  others : ∀ type, type ≠ msg.getType → s.list type = s₀.list type
  alive : ∀ t, s.alive t = true → s₀.alive t = true
  found_alive : ∀ t, (t, true) ∈ c.visits → s₀.alive t = true
  found_expired : ∀ t, (t, false) ∈ c.visits → s.alive t = false

namespace Loop

variable {s₀ s : BrokerSystem τ} {msg : Msg τ} {c : Publishing τ} {rest : List τ}

omit [DecidableEq τ] in
/-- The loop begins with all entries to come. -/
theorem start (s₀ : BrokerSystem τ) (msg : Msg τ) :
    Loop s₀ msg { s₀ with publishing := some ⟨msg, 0, []⟩ } ⟨msg, 0, []⟩
      (s₀.list msg.getType) :=
  ⟨rfl, rfl, rfl, rfl, rfl, (List.append_nil _).symm, fun _ _ => rfl, fun _ ht => ht,
    fun _ ht => absurd ht List.not_mem_nil, fun _ ht => absurd ht List.not_mem_nil⟩

omit [DecidableEq τ] in
theorem rest_eq_nil (h : Loop s₀ msg s c rest) (hend : (s.list c.msg.getType).length ≤ c.it) :
    rest = [] := by
  rw [h.msg_eq, h.after, h.it_eq, List.length_append] at hend
  exact List.eq_nil_of_length_eq_zero (by omega)

omit [DecidableEq τ] in
/-- An entry of the old list was visited, and `lock()` either succeeded or failed. -/
theorem visited (h : Loop s₀ msg s c []) {t : τ} (ht : t ∈ s₀.list msg.getType) :
    (t, true) ∈ c.visits ∨ (t, false) ∈ c.visits := by
  rw [h.before, List.append_nil, List.mem_map] at ht
  obtain ⟨⟨u, b⟩, hu, rfl⟩ := ht
  cases b with
  | true => exact .inl hu
  | false => exact .inr hu

omit [DecidableEq τ] in
theorem mem_found_of_alive (h : Loop s₀ msg s c []) {t : τ} (ht : t ∈ s₀.list msg.getType)
    (hal : s.alive t = true) : t ∈ found c.visits := by
  have hfalse : (t, false) ∉ c.visits := by
    intro hv
    have hexp := h.found_expired t hv
    rw [hal] at hexp
    cases hexp
  simp only [found, List.mem_map, List.mem_filter]
  exact ⟨(t, true), ⟨(h.visited ht).resolve_right hfalse, rfl⟩, rfl⟩

omit [DecidableEq τ] in
/-- The iterator points at the first entry that was not visited. -/
theorem getElem?_it (h : Loop s₀ msg s c rest) : (s.list msg.getType)[c.it]? = rest[0]? := by
  rw [h.after, h.it_eq, List.getElem?_append_right (Nat.le_refl _), Nat.sub_self]

omit [DecidableEq τ] in
theorem exists_cons {t : τ} (h : Loop s₀ msg s c rest)
    (ht : (s.list c.msg.getType)[c.it]? = some t) : ∃ rest', rest = t :: rest' := by
  rw [h.msg_eq, h.getElem?_it] at ht
  cases rest with
  | nil => cases ht
  | cons u rest =>
      obtain rfl := Option.some.inj ht
      exact ⟨rest, rfl⟩

omit [DecidableEq τ] in
theorem deliver {t : τ} (h : Loop s₀ msg s c (t :: rest)) (hal : s.alive t = true) :
    Loop s₀ msg { s with
      log := s.log ++ [(t, c.msg)]
      publishing := some { c with it := c.it + 1, visits := c.visits ++ [(t, true)] } }
      { c with it := c.it + 1, visits := c.visits ++ [(t, true)] } rest := by
  refine ⟨rfl, h.msg_eq, by simp [h.before], ?_, ?_, ?_, h.others, h.alive, ?_, ?_⟩
  · rw [found_append]
    simpa [list] using h.after
  · rw [found_append, h.it_eq]
    simp
  · rw [found_append, h.log, h.msg_eq]
    simp
  · intro u hu
    rcases List.mem_append.mp hu with hu | hu
    · exact h.found_alive u hu
    · obtain rfl : u = t := by simpa using hu
      exact h.alive u hal
  · intro u hu
    rcases List.mem_append.mp hu with hu | hu
    · exact h.found_expired u hu
    · simp at hu

omit [DecidableEq τ] in
theorem erase {t : τ} (h : Loop s₀ msg s c (t :: rest)) (hal : s.alive t = false) :
    Loop s₀ msg { s with
      broker := s.broker.setList c.msg.getType ((s.list c.msg.getType).eraseIdx c.it)
      publishing := some { c with visits := c.visits ++ [(t, false)] } }
      { c with visits := c.visits ++ [(t, false)] } rest := by
  obtain rfl := h.msg_eq
  refine ⟨rfl, rfl, by simp [h.before], ?_, ?_, ?_, ?_, h.alive, ?_, ?_⟩
  · simp only [list, setList_list, if_true]
    rw [found_append, h.it_eq, show s.broker.subscriberLists c.msg.getType = _ from h.after,
      List.eraseIdx_append_of_length_le (Nat.le_refl _), Nat.sub_self]
    simp
  · rw [found_append, h.it_eq]
    simp
  · rw [found_append, h.log]
    simp
  · intro type hne
    simp only [list, setList_list, if_neg hne]
    exact h.others type hne
  · intro u hu
    rcases List.mem_append.mp hu with hu | hu
    · exact h.found_alive u hu
    · simp at hu
  · intro u hu
    rcases List.mem_append.mp hu with hu | hu
    · exact h.found_expired u hu
    · obtain rfl : u = t := by simpa using hu
      exact hal

theorem expire (h : Loop s₀ msg s c rest) (task : τ) :
    Loop s₀ msg { s with alive := fun t => if t = task then false else s.alive t } c rest := by
  refine ⟨h.call, h.msg_eq, h.before, h.after, h.it_eq, h.log, h.others, ?_, h.found_alive, ?_⟩
  · intro t ht
    simp only at ht
    split_ifs at ht
    exact h.alive t ht
  · intro t ht
    simp only
    split_ifs
    · rfl
    · exact h.found_expired t ht

/-- Until it finishes, the call keeps `sub_mutex`: only its own iterations and expiries happen. -/
theorem step {e : BrokerEvent τ} {s' : BrokerSystem τ} (h : Loop s₀ msg s c rest)
    (hs : BrokerSystem.step s e = some s') (he : e ≠ .finish) :
    ∃ c' rest', Loop s₀ msg s' c' rest' := by
  have hbusy : s.publishing ≠ none := by rw [h.call]; exact Option.some_ne_none c
  cases step_moves hs with
  | brokerInitialize hfree => exact absurd hfree hbusy
  | known hfree => exact absurd hfree hbusy
  | subscribe hfree => exact absurd hfree hbusy
  | publish hfree => exact absurd hfree hbusy
  | @deliver c' t hc ht hal =>
      obtain rfl := Option.some.inj (h.call.symm.trans hc)
      obtain ⟨rest, rfl⟩ := h.exists_cons ht
      exact ⟨_, rest, h.deliver hal⟩
  | @erase c' t hc ht hal =>
      obtain rfl := Option.some.inj (h.call.symm.trans hc)
      obtain ⟨rest, rfl⟩ := h.exists_cons ht
      exact ⟨_, rest, h.erase hal⟩
  | finish => exact absurd rfl he
  | @expire task => exact ⟨c, rest, h.expire task⟩

theorem run {es : List (BrokerEvent τ)} (hes : .finish ∉ es) :
    ∀ {s : BrokerSystem τ} {c : Publishing τ} {rest : List τ} {s' : BrokerSystem τ},
      Loop s₀ msg s c rest → Protocore.run BrokerSystem.step s es = some s' →
        ∃ c' rest', Loop s₀ msg s' c' rest' := by
  induction es with
  | nil =>
      intro s c rest s' h hrun
      obtain rfl := Option.some.inj hrun
      exact ⟨c, rest, h⟩
  | cons e es ih =>
      intro s c rest s' h hrun
      obtain ⟨s₁, he, hrest⟩ := run_cons_eq_some.mp hrun
      have hne : e ≠ .finish := fun heq => hes (heq ▸ List.mem_cons_self)
      obtain ⟨c₁, rest₁, h₁⟩ := h.step he hne
      exact ih (fun hm => hes (List.mem_cons_of_mem e hm)) h₁ hrest

theorem completes : ∀ (rest : List τ) {s : BrokerSystem τ} {c : Publishing τ},
    Loop s₀ msg s c rest → ∃ s₁, Protocore.run BrokerSystem.step s
      (List.replicate rest.length .iterate ++ [.finish]) = some s₁
  | [], s, c, h => by
      have hlen : (s.list c.msg.getType).length ≤ c.it := by
        rw [h.msg_eq, h.after, h.it_eq, List.append_nil]
      refine ⟨{ s with publishing := none }, run_cons_eq_some.mpr ⟨_, ?_, rfl⟩⟩
      simp only [BrokerSystem.step, h.call, if_pos hlen]
  | t :: rest, s, c, h => by
      have ht : (s.list c.msg.getType)[c.it]? = some t := by
        rw [h.msg_eq, h.getElem?_it]
        rfl
      cases hal : s.alive t with
      | true =>
          obtain ⟨s₁, hrun⟩ := completes rest (h.deliver hal)
          refine ⟨s₁, run_cons_eq_some.mpr ⟨_, ?_, hrun⟩⟩
          simp only [BrokerSystem.step, h.call, ht, if_pos hal]
      | false =>
          obtain ⟨s₁, hrun⟩ := completes rest (h.erase hal)
          refine ⟨s₁, run_cons_eq_some.mpr ⟨_, ?_, hrun⟩⟩
          simp only [BrokerSystem.step, h.call, ht, hal, Bool.false_eq_true, if_false]

end Loop

/-! ### Exact delivery -/

/-- What a whole call `publish(msg)` from `s₀` to `s₁` did; `visits` are the entries it locked. -/
structure Delivered (s₀ : BrokerSystem τ) (msg : Msg τ) (s₁ : BrokerSystem τ)
    (visits : List (τ × Bool)) : Prop where
  visited : visits.map Prod.fst = s₀.list msg.getType
  found_alive : ∀ t, (t, true) ∈ visits → s₀.alive t = true
  found_expired : ∀ t, (t, false) ∈ visits → s₁.alive t = false
  log : s₁.log = s₀.log ++ (found visits).map (fun t => (t, msg))
  kept : s₁.list msg.getType = found visits
  others : ∀ type, type ≠ msg.getType → s₁.list type = s₀.list type
  stays_alive : ∀ t ∈ s₀.list msg.getType, s₁.alive t = true →
    s₁.received t = s₀.received t ++ [msg]
  expires : ∀ t ∈ s₀.list msg.getType, s₁.alive t = false →
    s₁.received t = s₀.received t ∨ s₁.received t = s₀.received t ++ [msg]
  expired : ∀ t, s₀.alive t = false → s₁.received t = s₀.received t
  unsubscribed : ∀ t, t ∉ s₀.list msg.getType → s₁.received t = s₀.received t

omit [DecidableEq τ] in
theorem mem_found {visits : List (τ × Bool)} {t : τ} : t ∈ found visits ↔ (t, true) ∈ visits := by
  simp [found]

omit [DecidableEq τ] in
theorem found_sublist (visits : List (τ × Bool)) :
    (found visits).Sublist (visits.map Prod.fst) :=
  List.filter_sublist.map Prod.fst

/-- Appending one copy for each task of a list without duplicates. -/
theorem received_append {s₀ : BrokerSystem τ} (s₁ : BrokerSystem τ) {msg : Msg τ} {l : List τ}
    (hl : l.Nodup) (hlog : s₁.log = s₀.log ++ l.map (fun t => (t, msg))) (t : τ) :
    s₁.received t = s₀.received t ++ if t ∈ l then [msg] else [] := by
  simp only [received, hlog, List.filter_append, List.map_append, List.append_cancel_left_eq]
  rw [List.filter_map, List.map_map]
  have hfilter : l.filter ((fun d : τ × Msg τ => decide (d.1 = t)) ∘ fun u => (u, msg)) =
      if t ∈ l then [t] else [] := by
    have hcomp : ((fun d : τ × Msg τ => decide (d.1 = t)) ∘ fun u => (u, msg)) = (· == t) := by
      funext u
      exact (beq_eq_decide u t).symm
    rw [hcomp, List.filter_beq]
    split_ifs with hmem
    · rw [List.count_eq_one_of_mem hl hmem]
      rfl
    · rw [List.count_eq_zero_of_not_mem hmem]
      rfl
  rw [hfilter]
  split_ifs <;> rfl

/-- The loop has come to the end of the list. -/
theorem Loop.delivered {s₀ s : BrokerSystem τ} {msg : Msg τ} {c : Publishing τ}
    (h : Loop s₀ msg s c []) (hnodup : (s₀.list msg.getType).Nodup) :
    Delivered s₀ msg { s with publishing := none } c.visits := by
  have hvisited : c.visits.map Prod.fst = s₀.list msg.getType := by
    rw [h.before, List.append_nil]
  have hfound : (found c.visits).Nodup := (hvisited ▸ hnodup).sublist (found_sublist c.visits)
  have hreceived := received_append { s with publishing := none } hfound h.log
  refine ⟨hvisited, h.found_alive, h.found_expired, h.log, ?_, h.others, ?_, ?_, ?_, ?_⟩
  · exact h.after.trans (List.append_nil _)
  · intro t ht hal
    rw [hreceived, if_pos (h.mem_found_of_alive ht hal)]
  · intro t _ _
    rw [hreceived]
    split_ifs
    · exact .inr rfl
    · exact .inl (List.append_nil _)
  · intro t hexp
    have hnot : t ∉ found c.visits := fun hm => by
      have halive := h.found_alive t (mem_found.mp hm)
      rw [hexp] at halive
      cases halive
    rw [hreceived, if_neg hnot, List.append_nil]
  · intro t hnot
    have hnot' : t ∉ found c.visits := fun hm =>
      hnot (hvisited ▸ (found_sublist c.visits).subset hm)
    rw [hreceived, if_neg hnot', List.append_nil]

/-- **Exact delivery.**  In every reachable state no list holds a task twice.  Take any call of
`publish` from there: whatever happens between its iterations, it can be completed, and if it
returns it has looked at every entry of the list once, delivered one copy to exactly those it
found alive, in subscription order, and erased exactly the others. -/
theorem exact_delivery {s₀ : BrokerSystem τ} (h : Reaches step init s₀) :
    (∀ type, (s₀.list type).Nodup) ∧
    ∀ (msg : Msg τ) (es : List (BrokerEvent τ)) (s : BrokerSystem τ), .finish ∉ es →
      run step s₀ (.publish msg :: es) = some s →
        ∃ c, s.publishing = some c ∧
          (∀ s₁, step s .finish = some s₁ → Delivered s₀ msg s₁ c.visits) ∧
          ∃ n s₁, run step s (List.replicate n .iterate ++ [.finish]) = some s₁ := by
  have hnodup : ∀ type, (s₀.list type).Nodup :=
    h.invariant step_nodup (fun _ => List.nodup_nil)
  refine ⟨hnodup, ?_⟩
  intro msg es s hes hrun
  obtain ⟨s', hpublish, hrest⟩ := run_cons_eq_some.mp hrun
  cases step_moves hpublish with
  | publish hfree =>
      obtain ⟨c, rest, hloop⟩ := Loop.run hes (Loop.start s₀ msg) hrest
      refine ⟨c, hloop.call, ?_, rest.length, Loop.completes rest hloop⟩
      intro s₁ hfinish
      cases step_moves hfinish with
      | @finish c' hc hend =>
          obtain rfl := Option.some.inj (hloop.call.symm.trans hc)
          obtain rfl := hloop.rest_eq_nil hend
          exact hloop.delivered (hnodup _)

/-- Of four subscribers the second is expired before the call and the third expires inside it. -/
theorem exact_delivery_adjacent_expired : ∃ (s₀ s s₁ : BrokerSystem ℕ) (c : Publishing ℕ),
    run step init [.brokerInitialize 16, .subscribe 1 .stateMsg, .subscribe 2 .stateMsg,
      .subscribe 3 .stateMsg, .subscribe 4 .stateMsg, .subscribe 4 .stateMsg, .expire 2] =
        some s₀ ∧
    run step s₀ [.publish ⟨none, .stateMsg ⟨1⟩⟩, .iterate, .expire 3, .iterate, .iterate,
      .iterate] = some s ∧
    step s .finish = some s₁ ∧
    Delivered s₀ ⟨none, .stateMsg ⟨1⟩⟩ s₁ c.visits ∧ s₁.list .stateMsg = [1, 4] := by
  have heval : (run step (init : BrokerSystem ℕ) [.brokerInitialize 16, .subscribe 1 .stateMsg,
      .subscribe 2 .stateMsg, .subscribe 3 .stateMsg, .subscribe 4 .stateMsg,
      .subscribe 4 .stateMsg, .expire 2]).bind (fun s₀ =>
        (run step s₀ [.publish ⟨none, .stateMsg ⟨1⟩⟩, .iterate, .expire 3, .iterate, .iterate,
          .iterate]).bind (fun s => (step s .finish).map (fun s₁ => s₁.list .stateMsg))) =
            some [1, 4] := by decide +kernel
  obtain ⟨s₀, h₀, heval⟩ := Option.bind_eq_some_iff.mp heval
  obtain ⟨s, hrun, heval⟩ := Option.bind_eq_some_iff.mp heval
  obtain ⟨s₁, hfinish, hlist⟩ := Option.map_eq_some_iff.mp heval
  obtain ⟨c, -, hdelivered, -⟩ := (exact_delivery ⟨_, h₀⟩).2 _
    [.iterate, .expire 3, .iterate, .iterate, .iterate] s (by simp) hrun
  exact ⟨s₀, s, s₁, c, h₀, hrun, hfinish, hdelivered s₁ hfinish, hlist⟩

end BrokerSystem

end Protocore
