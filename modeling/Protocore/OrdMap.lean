import Mathlib.Order.Lattice
import Mathlib.Data.List.Basic
import Mathlib.Data.List.Pairwise
import Mathlib.Tactic.SplitIfs

/-! # Ordered maps

`OrdMap κ β` is a `std::map`: a list of entries in increasing order of their keys.  `m[k] = v` is
`insert`, and a range-for loop whose body may assign to the mapped value and to a local variable is
`forEach`; `modifyFirst` is such a loop that leaves by `break`.

* `forEach_eq_foldl`: the loop is `visit` at one key after the other.
* `forEach_induction`: a property kept by every single assignment `m[k] = v` the body makes is
  kept by the loop.
* `forEach_pure`: a body that only appends to its variable visits the entries independently.
* `forEach_visit`, `find?_forEach`: the loop visits every key once. -/

namespace Protocore

variable {κ β γ σ : Type*} [LinearOrder κ]

/-- A map, as the list of its entries in the order of iteration. -/
structure OrdMap (κ β : Type*) [LinearOrder κ] where
  entries : List (κ × β)
  sorted : (entries.map Prod.fst).Pairwise (· < ·)

namespace OrdMap

@[ext] theorem ext {m m' : OrdMap κ β} (h : m.entries = m'.entries) : m = m' := by
  cases m
  cases m'
  cases h
  rfl

theorem keys_nodup (m : OrdMap κ β) : (m.entries.map Prod.fst).Nodup :=
  m.sorted.imp (fun h => h.ne)

/-- The empty map. -/
def empty : OrdMap κ β := ⟨[], List.Pairwise.nil⟩

/-- `m.find(k)`. -/
def find? (m : OrdMap κ β) (k : κ) : Option β :=
  (m.entries.find? (fun e => decide (e.1 = k))).map Prod.snd

@[simp] theorem find?_empty (k : κ) : (empty : OrdMap κ β).find? k = none := rfl

/-- The keys are distinct, so an entry is found under its own key. -/
theorem find?_eq_some_iff {m : OrdMap κ β} {k : κ} {v : β} :
    m.find? k = some v ↔ (k, v) ∈ m.entries := by
  obtain ⟨es, hs⟩ := m
  simp only [find?]
  induction es with
  | nil => simp
  | cons e es ih =>
      obtain ⟨k', v'⟩ := e
      rw [List.map_cons, List.pairwise_cons] at hs
      by_cases hk : k' = k
      · subst hk
        have hnot : (k', v) ∉ es := fun hm =>
          lt_irrefl k' (hs.1 k' (List.mem_map_of_mem hm))
        rw [List.find?_cons_of_pos (by simp), List.mem_cons, or_iff_left hnot]
        simp [eq_comm]
      · rw [List.find?_cons_of_neg (by simpa using hk), List.mem_cons, ih hs.2]
        simp [Ne.symm hk]

theorem mem_keys_iff {m : OrdMap κ β} {k : κ} :
    k ∈ m.entries.map Prod.fst ↔ (m.find? k).isSome := by
  rw [Option.isSome_iff_exists, List.mem_map]
  constructor
  · rintro ⟨⟨k', v⟩, hentry, rfl⟩
    exact ⟨v, find?_eq_some_iff.mpr hentry⟩
  · rintro ⟨v, hv⟩
    exact ⟨(k, v), find?_eq_some_iff.mp hv, rfl⟩

/-! ### Assignment -/

/-- Put an entry into its place, over the old one of the same key. -/
def insertEntry (k : κ) (v : β) : List (κ × β) → List (κ × β)
  | [] => [(k, v)]
  | e :: es =>
      if k < e.1 then (k, v) :: e :: es
      else if k = e.1 then (k, v) :: es
      else e :: insertEntry k v es

theorem mem_insertEntry {k : κ} {v : β} {es : List (κ × β)}
    (hs : (es.map Prod.fst).Pairwise (· < ·)) {e : κ × β} :
    e ∈ insertEntry k v es ↔ e = (k, v) ∨ e.1 ≠ k ∧ e ∈ es := by
  induction es with
  | nil => simp [insertEntry]
  | cons d es ih =>
      rw [List.map_cons, List.pairwise_cons] at hs
      have hlater : ∀ x ∈ es, d.1 < x.1 := fun x hx => hs.1 x.1 (List.mem_map_of_mem hx)
      simp only [insertEntry]
      split_ifs with hlt heq
      · have hne : ∀ x ∈ d :: es, x.1 ≠ k := by
          intro x hx
          rcases List.mem_cons.mp hx with rfl | hx
          · exact hlt.ne'
          · exact (hlt.trans (hlater x hx)).ne'
        rw [List.mem_cons]
        exact or_congr_right ⟨fun h => ⟨hne e h, h⟩, fun h => h.2⟩
      · have hne : ∀ x ∈ es, x.1 ≠ k := fun x hx => heq ▸ (hlater x hx).ne'
        rw [List.mem_cons, List.mem_cons]
        refine or_congr_right ⟨fun h => ⟨hne e h, .inr h⟩, fun h => ?_⟩
        rcases h with ⟨hk, rfl | h⟩
        · exact absurd heq.symm hk
        · exact h
      · rw [List.mem_cons, List.mem_cons, ih hs.2]
        constructor
        · rintro (rfl | rfl | h)
          · exact .inr ⟨Ne.symm heq, .inl rfl⟩
          · exact .inl rfl
          · exact .inr ⟨h.1, .inr h.2⟩
        · rintro (rfl | ⟨hk, rfl | h⟩)
          · exact .inr (.inl rfl)
          · exact .inl rfl
          · exact .inr (.inr ⟨hk, h⟩)

theorem insertEntry_sorted {k : κ} {v : β} {es : List (κ × β)}
    (hs : (es.map Prod.fst).Pairwise (· < ·)) :
    ((insertEntry k v es).map Prod.fst).Pairwise (· < ·) := by
  induction es with
  | nil => simp [insertEntry]
  | cons d es ih =>
      have hs' := hs
      rw [List.map_cons, List.pairwise_cons] at hs'
      simp only [insertEntry]
      split_ifs with hlt heq
      · refine List.pairwise_cons.mpr ⟨fun x hx => ?_, hs⟩
        rcases List.mem_cons.mp hx with rfl | hx
        · exact hlt
        · exact hlt.trans (hs'.1 x hx)
      · exact List.pairwise_cons.mpr ⟨fun x hx => heq ▸ hs'.1 x hx, hs'.2⟩
      · refine List.pairwise_cons.mpr ⟨fun x hx => ?_, ih hs'.2⟩
        obtain ⟨e, he, rfl⟩ := List.mem_map.mp hx
        rcases (mem_insertEntry hs'.2).mp he with rfl | ⟨-, he⟩
        · exact lt_of_le_of_ne (not_lt.mp hlt) (Ne.symm heq)
        · exact hs'.1 e.1 (List.mem_map_of_mem he)

/-- `m[k] = v`. -/
def insert (m : OrdMap κ β) (k : κ) (v : β) : OrdMap κ β :=
  ⟨insertEntry k v m.entries, insertEntry_sorted m.sorted⟩

theorem find?_insert (m : OrdMap κ β) (k : κ) (v : β) (k' : κ) :
    (m.insert k v).find? k' = if k' = k then some v else m.find? k' := by
  apply Option.ext
  intro w
  rw [find?_eq_some_iff, insert, mem_insertEntry m.sorted]
  split_ifs with hk
  · subst hk
    simp [eq_comm]
  · rw [find?_eq_some_iff]
    simp [hk]

theorem find?_insert_of_ne (m : OrdMap κ β) {k k' : κ} (h : k' ≠ k) (v : β) :
    (m.insert k v).find? k' = m.find? k' := by
  rw [find?_insert, if_neg h]

/-- Assigning to a key that is present changes its entry and nothing else. -/
theorem insertEntry_append {done rest : List (κ × β)} {k : κ} {v v' : β}
    (hs : ((done ++ (k, v) :: rest).map Prod.fst).Pairwise (· < ·)) :
    insertEntry k v' (done ++ (k, v) :: rest) = done ++ (k, v') :: rest := by
  induction done with
  | nil => simp [insertEntry]
  | cons d done ih =>
      rw [List.cons_append, List.map_cons, List.pairwise_cons] at hs
      have hlt : d.1 < k := hs.1 k (by simp)
      simp only [List.cons_append, insertEntry]
      rw [if_neg hlt.asymm, if_neg hlt.ne', ih hs.2]

theorem insert_of_find? {m : OrdMap κ β} {k : κ} {v : β} (h : m.find? k = some v) :
    m.insert k v = m := by
  obtain ⟨done, rest, hm⟩ := List.append_of_mem (find?_eq_some_iff.mp h)
  have hsorted := m.sorted
  rw [hm] at hsorted
  exact ext (by simp only [insert, hm, insertEntry_append hsorted])

/-! ### Loops over the map -/

/-- `for (auto& [key, value] : m)`: the body updates its variable and the value. -/
def forEachEntry (f : σ → κ → β → σ × β) : σ → List (κ × β) → σ × List (κ × β)
  | s, [] => (s, [])
  | s, (k, v) :: es =>
      let r := forEachEntry f (f s k v).1 es
      (r.1, (k, (f s k v).2) :: r.2)

omit [LinearOrder κ] in
theorem forEachEntry_keys (f : σ → κ → β → σ × β) (s : σ) (es : List (κ × β)) :
    (forEachEntry f s es).2.map Prod.fst = es.map Prod.fst := by
  induction es generalizing s with
  | nil => rfl
  | cons e es ih => simp [forEachEntry, ih]

/-- The loop on the whole map. -/
def forEach (f : σ → κ → β → σ × β) (s : σ) (m : OrdMap κ β) : σ × OrdMap κ β :=
  ((forEachEntry f s m.entries).1,
    ⟨(forEachEntry f s m.entries).2, (forEachEntry_keys f s m.entries).symm ▸ m.sorted⟩)

/-- One iteration of the loop, at the key `k`; an absent key is not visited. -/
def visit (f : σ → κ → β → σ × β) (r : σ × OrdMap κ β) (k : κ) : σ × OrdMap κ β :=
  (r.2.find? k).elim r (fun v => ((f r.1 k v).1, r.2.insert k (f r.1 k v).2))

theorem visit_of_find? {f : σ → κ → β → σ × β} {r : σ × OrdMap κ β} {k : κ} {v : β}
    (h : r.2.find? k = some v) :
    visit f r k = ((f r.1 k v).1, r.2.insert k (f r.1 k v).2) := by
  rw [visit, h, Option.elim_some]

theorem visit_of_find?_none {f : σ → κ → β → σ × β} {r : σ × OrdMap κ β} {k : κ}
    (h : r.2.find? k = none) : visit f r k = r := by
  rw [visit, h, Option.elim_none]

theorem visit_find?_of_ne (f : σ → κ → β → σ × β) (r : σ × OrdMap κ β) {k k' : κ} (hk : k' ≠ k) :
    (visit f r k).2.find? k' = r.2.find? k' := by
  cases h : r.2.find? k with
  | none => rw [visit_of_find?_none h]
  | some v =>
      rw [visit_of_find? h]
      exact find?_insert_of_ne _ hk _

/-- The loop, one iteration after the other. -/
theorem forEach_eq_foldl (f : σ → κ → β → σ × β) (s : σ) (m : OrdMap κ β) :
    forEach f s m = (m.entries.map Prod.fst).foldl (visit f) (s, m) := by
  -- the entries before the iterator are final, those after it are untouched
  have hloop : ∀ (rest : List (κ × β)) (s : σ) (done : List (κ × β)) (m m' : OrdMap κ β),
      m.entries = done ++ rest → m'.entries = done ++ (forEachEntry f s rest).2 →
        ((forEachEntry f s rest).1, m') = (rest.map Prod.fst).foldl (visit f) (s, m) := by
    intro rest
    induction rest with
    | nil =>
        intro s done m m' hm hm'
        obtain rfl : m = m' := ext (hm.trans hm'.symm)
        rfl
    | cons e rest ih =>
        obtain ⟨k, v⟩ := e
        intro s done m m' hm hm'
        have hfind : m.find? k = some v := find?_eq_some_iff.mpr (by simp [hm])
        have hins : (m.insert k (f s k v).2).entries = (done ++ [(k, (f s k v).2)]) ++ rest := by
          have hsorted := m.sorted
          rw [hm] at hsorted
          simp only [insert, hm, insertEntry_append hsorted, List.append_assoc,
            List.singleton_append]
        rw [List.map_cons, List.foldl_cons, visit_of_find? hfind]
        exact ih (f s k v).1 (done ++ [(k, (f s k v).2)]) _ m' hins (by simpa [forEachEntry] using hm')
  exact hloop m.entries s [] m _ rfl rfl

/-- The loop is a sequence of assignments `m[k] = v` to keys that are present. -/
theorem forEach_induction {f : σ → κ → β → σ × β} {I : σ → OrdMap κ β → Prop}
    (hstep : ∀ s m k v, m.find? k = some v → I s m → I (f s k v).1 (m.insert k (f s k v).2))
    {s : σ} {m : OrdMap κ β} (h : I s m) : I (forEach f s m).1 (forEach f s m).2 := by
  rw [forEach_eq_foldl]
  refine List.foldlRecOn (motive := fun r : σ × OrdMap κ β => I r.1 r.2) _ _ h ?_
  intro r hI k _
  cases hf : r.2.find? k with
  | none =>
      rw [visit_of_find?_none hf]
      exact hI
  | some v =>
      rw [visit_of_find? hf]
      exact hstep r.1 r.2 k v hf hI

/-- What the loop does at one key: an absent key is left alone, a present one is visited once, and
nothing the body emits elsewhere has this key. -/
theorem forEach_visit {f : σ → κ → β → σ × β} {o : σ → List γ} {g : σ → κ → β → List γ}
    (key : γ → κ) (hout : ∀ s k v, o (f s k v).1 = o s ++ g s k v)
    (hkey : ∀ s k v, ∀ x ∈ g s k v, key x = k) (s : σ) (m : OrdMap κ β) (k : κ) :
    (m.find? k = none ∧ (forEach f s m).2.find? k = none ∧
      (o (forEach f s m).1).filter (fun x => decide (key x = k)) =
        (o s).filter (fun x => decide (key x = k))) ∨
    ∃ v s', m.find? k = some v ∧ (forEach f s m).2.find? k = some (f s' k v).2 ∧
      (o (forEach f s m).1).filter (fun x => decide (key x = k)) =
        (o s).filter (fun x => decide (key x = k)) ++ g s' k v := by
  have hskip : ∀ s k' v, k' ≠ k →
      (o (f s k' v).1).filter (fun x => decide (key x = k)) =
        (o s).filter (fun x => decide (key x = k)) := by
    intro s k' v hk
    rw [hout, List.filter_append, List.append_right_eq_self, List.filter_eq_nil_iff]
    intro x hx
    rw [hkey s k' v x hx]
    simpa using hk
  obtain ⟨es, hs⟩ := m
  simp only [find?, forEach]
  induction es generalizing s with
  | nil => exact .inl ⟨rfl, rfl, rfl⟩
  | cons e es ih =>
      obtain ⟨k', v'⟩ := e
      have hs' := List.pairwise_cons.mp hs
      by_cases hk : k' = k
      · subst hk
        refine .inr ⟨v', s, by simp, by simp [forEachEntry], ?_⟩
        -- the key does not come again
        have hrest : ∀ (es : List (κ × β)) (s : σ), k' ∉ es.map Prod.fst →
            (o (forEachEntry f s es).1).filter (fun x => decide (key x = k')) =
              (o s).filter (fun x => decide (key x = k')) := by
          intro es
          induction es with
          | nil => intro s _; rfl
          | cons d es ihrest =>
              intro s hd
              rw [List.map_cons, List.mem_cons, not_or] at hd
              exact (ihrest _ hd.2).trans (hskip s d.1 d.2 (Ne.symm hd.1))
        have hnot : k' ∉ es.map Prod.fst := fun hm => lt_irrefl k' (hs'.1 k' hm)
        simp only [forEachEntry]
        rw [hrest es _ hnot, hout, List.filter_append, List.append_cancel_left_eq,
          List.filter_eq_self]
        intro x hx
        exact decide_eq_true (hkey s k' v' x hx)
      · simp only [forEachEntry, List.find?_cons_of_neg, hk, decide_false, Bool.false_eq_true,
          not_false_eq_true]
        rw [← hskip s k' v' hk]
        exact ih (f s k' v').1 hs'.2

/-- The loop visits each key once, with the value found there. -/
theorem find?_forEach (f : σ → κ → β → σ × β) (s : σ) (m : OrdMap κ β) (k : κ) :
    (m.find? k = none ∧ (forEach f s m).2.find? k = none) ∨
    ∃ v s', m.find? k = some v ∧ (forEach f s m).2.find? k = some (f s' k v).2 := by
  have hvisit := forEach_visit (f := f) (o := fun _ => ([] : List κ)) (g := fun _ _ _ => []) id
    (fun _ _ _ => rfl) (fun _ _ _ x hx => absurd hx List.not_mem_nil) s m k
  rcases hvisit with ⟨h, h', -⟩ | ⟨v, s', h, h', -⟩
  · exact .inl ⟨h, h'⟩
  · exact .inr ⟨v, s', h, h'⟩

/-- Change every value. -/
def mapVal (g : κ → β → β) (m : OrdMap κ β) : OrdMap κ β :=
  ⟨m.entries.map (fun e => (e.1, g e.1 e.2)), by
    rw [List.map_map]
    exact m.sorted⟩

@[simp] theorem find?_mapVal (g : κ → β → β) (m : OrdMap κ β) (k : κ) :
    (m.mapVal g).find? k = (m.find? k).map (g k) := by
  apply Option.ext
  intro w
  rw [find?_eq_some_iff, Option.map_eq_some_iff]
  simp only [mapVal, List.mem_map, Prod.mk.injEq, Prod.exists, find?_eq_some_iff]
  constructor
  · rintro ⟨k', v, hm, rfl, rfl⟩
    exact ⟨v, hm, rfl⟩
  · rintro ⟨v, hm, rfl⟩
    exact ⟨k, v, hm, rfl, rfl⟩

/-- A body that only appends to its variable. -/
theorem forEach_pure {f : List γ → κ → β → List γ × β} {out : κ → β → List γ} {g : κ → β → β}
    (hf : ∀ s k v, f s k v = (s ++ out k v, g k v)) (s : List γ) (m : OrdMap κ β) :
    forEach f s m = (s ++ m.entries.flatMap (fun e => out e.1 e.2), m.mapVal g) := by
  have hentries : ∀ (es : List (κ × β)) (s : List γ), forEachEntry f s es =
      (s ++ es.flatMap (fun e => out e.1 e.2), es.map (fun e => (e.1, g e.1 e.2))) := by
    intro es
    induction es with
    | nil => simp [forEachEntry]
    | cons e es ih =>
        intro s
        simp [forEachEntry, hf, ih]
  exact Prod.ext (by simp [forEach, hentries]) (ext (by simp [forEach, hentries, mapVal]))

/-- The entries up to the first key that passes the test. -/
def modifyEntry (p : κ → Bool) (f : β → β) : List (κ × β) → List (κ × β)
  | [] => []
  | (k, v) :: es => if p k then (k, f v) :: es else (k, v) :: modifyEntry p f es

omit [LinearOrder κ] in
theorem modifyEntry_keys (p : κ → Bool) (f : β → β) (es : List (κ × β)) :
    (modifyEntry p f es).map Prod.fst = es.map Prod.fst := by
  induction es with
  | nil => rfl
  | cons e es ih =>
      simp only [modifyEntry]
      split_ifs <;> simp [ih]

/-- `for (auto& [key, value] : m) if (p(key)) { value = f(value); break; }`. -/
def modifyFirst (p : κ → Bool) (f : β → β) (m : OrdMap κ β) : OrdMap κ β :=
  ⟨modifyEntry p f m.entries, (modifyEntry_keys p f m.entries).symm ▸ m.sorted⟩

theorem find?_modifyFirst {p : κ → Bool} (hp : ∀ k k', p k → p k' → k = k') (f : β → β)
    (m : OrdMap κ β) (k : κ) :
    (m.modifyFirst p f).find? k = if p k then (m.find? k).map f else m.find? k := by
  obtain ⟨es, hs⟩ := m
  simp only [find?, modifyFirst]
  induction es with
  | nil => simp [modifyEntry]
  | cons e es ih =>
      obtain ⟨k', v'⟩ := e
      by_cases hk : k' = k
      · subst hk
        by_cases hpk : p k' = true <;> simp [modifyEntry, hpk]
      · by_cases hpk' : p k' = true
        · have hpk : ¬p k = true := fun h => hk (hp k' k hpk' h)
          simp [modifyEntry, hpk', hpk, hk]
        · simp only [modifyEntry, hpk', List.find?_cons_of_neg, hk, decide_false,
            Bool.false_eq_true, not_false_eq_true, if_false]
          exact ih (List.pairwise_cons.mp hs).2

end OrdMap

end Protocore
