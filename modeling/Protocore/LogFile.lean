import Protocore.Logger
import Protocore.Simulation

/-! # What a log file says

A sink writes each line and a newline to its stream (`FileSink::log`, `ConsoleSink::log`).  The lines have
the form `timestamp [component] LEVEL - message`, with no escapes.

* `file_unambiguous`: if no component contains `]` or a newline and no message contains a newline, the
  text in a sink determines the entries, up to the threads they came from, whichever runs wrote it.
* `calls_in_order`: the entries of one thread are those of its calls of `log` whose level was not below
  `min_level` at the time of the call, in the order of the calls, but for the one that is under way. -/

namespace Protocore

/-- Two texts that agree, agree up to the first delimiter and after it. -/
theorem split_at_delimiter {α : Type} {d : α} {l l' r r' : List α} (hl : d ∉ l) (hl' : d ∉ l')
    (h : l ++ d :: r = l' ++ d :: r') : l = l' ∧ r = r' := by
  induction l generalizing l' with
  | nil =>
      cases l' with
      | nil => exact ⟨rfl, (List.cons.inj h).2⟩
      | cons x l' => exact absurd (List.mem_cons.mpr (.inl (List.cons.inj h).1)) hl'
  | cons x l ih =>
      cases l' with
      | nil => exact absurd (List.mem_cons.mpr (.inl (List.cons.inj h).1.symm)) hl
      | cons y l' =>
          obtain ⟨rfl, hrest⟩ := List.cons.inj h
          rw [List.mem_cons, not_or] at hl hl'
          obtain ⟨rfl, rfl⟩ := ih hl.2 hl'.2 hrest
          exact ⟨rfl, rfl⟩

/-- `FileSink::log` and `ConsoleSink::log`: what the stream holds afterwards. -/
def sinkLog (text formatted : String) : String := text ++ formatted ++ "\n"

/-- The stream after all these lines. -/
def sinkText (lines : List String) : String := lines.foldl sinkLog ""

namespace LogEntry

variable {θ : Type}

/-- What a line shows of an entry: all but the thread. -/
def shown (entry : LogEntry θ) : UInt64 × String × LogLevel × String :=
  (entry.timestampMs, entry.component, entry.level, entry.message)

/-- The delimiters of a line do not occur where they would be taken for one. -/
structure Plain (entry : LogEntry θ) : Prop where
  bracket : ']' ∉ entry.component.toList
  component : '\n' ∉ entry.component.toList
  message : '\n' ∉ entry.message.toList

instance decidablePlain (entry : LogEntry θ) : Decidable (Plain entry) :=
  decidable_of_iff (']' ∉ entry.component.toList ∧ '\n' ∉ entry.component.toList ∧
      '\n' ∉ entry.message.toList)
    ⟨fun h => ⟨h.1, h.2.1, h.2.2⟩, fun h => ⟨h.bracket, h.component, h.message⟩⟩

/-! ### One line -/

theorem toList_formatted (entry : LogEntry θ) : entry.formatted.toList =
    Nat.toDigits 10 entry.timestampMs.toNat ++ ' ' :: '[' :: (entry.component.toList ++
      ']' :: ' ' :: (entry.level.levelStr.toList ++ ' ' :: '-' :: ' ' :: entry.message.toList)) := by
  unfold formatted
  have hdigits : (toString entry.timestampMs.toNat).toList = Nat.toDigits 10 entry.timestampMs.toNat :=
    Nat.toList_repr
  simp only [String.toList_append, hdigits, List.append_assoc]
  rfl

theorem not_mem_digits {c : Char} (hc : c.isDigit = false) (n : ℕ) : c ∉ Nat.toDigits 10 n := by
  intro hmem
  have hdigit := Nat.isDigit_of_mem_toDigits (by decide) (by decide) hmem
  rw [hc] at hdigit
  cases hdigit

theorem split_after_digits {d : Char} (hd : d.isDigit = false) {n n' : ℕ} {r r' : List Char}
    (h : Nat.toDigits 10 n ++ d :: r = Nat.toDigits 10 n' ++ d :: r') : n = n' ∧ r = r' := by
  obtain ⟨hdigits, hrest⟩ := split_at_delimiter (not_mem_digits hd n) (not_mem_digits hd n') h
  refine ⟨?_, hrest⟩
  have hparsed := congrArg (fun l => Nat.ofDigitChars 10 l 0) hdigits
  simpa only [Nat.ofDigitChars_ten_toDigits] using hparsed

theorem not_mem_levelStr {c : Char} (hc : c = ' ' ∨ c = '\n') (level : LogLevel) :
    c ∉ level.levelStr.toList := by
  rcases hc with rfl | rfl <;> cases level <;> decide

theorem levelStr_injective {level level' : LogLevel} (h : level.levelStr = level'.levelStr) :
    level = level' := by
  cases level <;> cases level' <;> first | rfl | exact absurd h (by decide)

theorem formatted_inj {θ' : Type} {entry : LogEntry θ} {entry' : LogEntry θ'}
    (hplain : ']' ∉ entry.component.toList) (hplain' : ']' ∉ entry'.component.toList)
    (h : entry.formatted = entry'.formatted) : entry.shown = entry'.shown := by
  have hlist := congrArg String.toList h
  rw [toList_formatted, toList_formatted] at hlist
  obtain ⟨htimestamp, hlist⟩ := split_after_digits (by decide) hlist
  obtain ⟨hcomponent, hlist⟩ := split_at_delimiter hplain hplain' (List.cons.inj hlist).2
  obtain ⟨hlevel, hlist⟩ := split_at_delimiter (not_mem_levelStr (.inl rfl) _)
    (not_mem_levelStr (.inl rfl) _) (List.cons.inj hlist).2
  have hmessage := (List.cons.inj (List.cons.inj hlist).2).2
  unfold shown
  rw [UInt64.toNat_inj.mp htimestamp, String.toList_inj.mp hcomponent,
    levelStr_injective (String.toList_inj.mp hlevel), String.toList_inj.mp hmessage]

theorem Plain.not_mem_formatted {entry : LogEntry θ} (h : Plain entry) :
    '\n' ∉ entry.formatted.toList := by
  rw [toList_formatted]
  simp only [List.mem_append, List.mem_cons, not_or]
  refine ⟨not_mem_digits (by decide) _, by decide, by decide, h.component, by decide, by decide,
    not_mem_levelStr (.inr rfl) _, by decide, by decide, by decide, h.message⟩

end LogEntry

/-! ### The whole text -/

theorem toList_sinkText (lines : List String) :
    (sinkText lines).toList = lines.flatMap (fun line => line.toList ++ ['\n']) := by
  have hfold : ∀ text : String, (lines.foldl sinkLog text).toList =
      text.toList ++ lines.flatMap (fun line => line.toList ++ ['\n']) := by
    induction lines with
    | nil =>
        intro text
        simp
    | cons line lines ih =>
        intro text
        rw [List.foldl_cons, ih, List.flatMap_cons]
        simp [sinkLog]
  exact hfold ""

theorem sinkText_inj {lines lines' : List String} (hplain : ∀ line ∈ lines, '\n' ∉ line.toList)
    (hplain' : ∀ line ∈ lines', '\n' ∉ line.toList) (h : sinkText lines = sinkText lines') :
    lines = lines' := by
  have hlist := congrArg String.toList h
  rw [toList_sinkText, toList_sinkText] at hlist
  clear h
  induction lines generalizing lines' with
  | nil =>
      cases lines' with
      | nil => rfl
      | cons line' lines' => simp at hlist
  | cons line lines ih =>
      cases lines' with
      | nil => simp at hlist
      | cons line' lines' =>
          rw [List.flatMap_cons, List.flatMap_cons, List.append_assoc, List.append_assoc] at hlist
          obtain ⟨hline, hrest⟩ := split_at_delimiter (hplain line List.mem_cons_self)
            (hplain' line' List.mem_cons_self) hlist
          rw [String.toList_inj.mp hline, ih (fun l hl => hplain l (List.mem_cons_of_mem line hl))
            (fun l hl => hplain' l (List.mem_cons_of_mem line' hl)) hrest]

/-- A text written from plain entries determines what it shows of them. -/
theorem entries_of_text {θ θ' : Type} {entries : List (LogEntry θ)} {entries' : List (LogEntry θ')}
    (hplain : ∀ entry ∈ entries, entry.Plain) (hplain' : ∀ entry ∈ entries', entry.Plain)
    (h : sinkText (entries.map LogEntry.formatted) = sinkText (entries'.map LogEntry.formatted)) :
    entries.map LogEntry.shown = entries'.map LogEntry.shown := by
  have hlines := sinkText_inj
    (List.forall_mem_map.mpr (fun entry he => (hplain entry he).not_mem_formatted))
    (List.forall_mem_map.mpr (fun entry he => (hplain' entry he).not_mem_formatted)) h
  clear h
  induction entries generalizing entries' with
  | nil =>
      cases entries' with
      | nil => rfl
      | cons entry' entries' => cases hlines
  | cons entry entries ih =>
      cases entries' with
      | nil => cases hlines
      | cons entry' entries' =>
          obtain ⟨hline, hrest⟩ := List.cons.inj hlines
          have hshown := LogEntry.formatted_inj (hplain entry List.mem_cons_self).bracket
            (hplain' entry' List.mem_cons_self).bracket hline
          rw [List.map_cons, List.map_cons, hshown,
            ih (fun e he => hplain e (List.mem_cons_of_mem entry he))
              (fun e he => hplain' e (List.mem_cons_of_mem entry' he)) hrest]

namespace LoggerSystem

variable {θ θ' : Type} [DecidableEq θ] [DecidableEq θ']

omit [DecidableEq θ] in
theorem Flushed.received {s : LoggerSystem θ} (h : Flushed s) {i : ℕ} {lines : List String}
    (hi : s.sinks[i]? = some lines) :
    lines = (s.accepted.take lines.length).map LogEntry.formatted := by
  have horder := h.order i lines hi
  rw [List.append_assoc] at horder
  rw [List.map_take, ← horder, List.take_left]

/-- **A log file is unambiguous.**  Two sinks, of any two loggers in any two runs, that hold the same text
have received the same entries in the same order, if components and messages are plain. -/
theorem file_unambiguous {relativeTs relativeTs' : Bool} {n n' i j : ℕ} {s : LoggerSystem θ}
    {s' : LoggerSystem θ'} {lines lines' : List String} (h : Reaches step (init relativeTs n) s)
    (h' : Reaches step (init relativeTs' n') s') (hi : s.sinks[i]? = some lines)
    (hj : s'.sinks[j]? = some lines') (hplain : ∀ entry ∈ s.accepted, entry.Plain)
    (hplain' : ∀ entry ∈ s'.accepted, entry.Plain) (htext : sinkText lines = sinkText lines') :
    (s.accepted.take lines.length).map LogEntry.shown =
      (s'.accepted.take lines'.length).map LogEntry.shown := by
  have hlines := (reaches_flushed h).received hi
  have hlines' := (reaches_flushed h').received hj
  apply entries_of_text
  · exact fun entry he => hplain entry (List.mem_of_mem_take he)
  · exact fun entry he => hplain' entry (List.mem_of_mem_take he)
  · rw [← hlines, ← hlines', htext]

/-- The same two lines, written by two threads in one run and by one thread in another. -/
theorem file_unambiguous_two : ∃ s s' : LoggerSystem Bool,
    run step (init false 1) [.setLevel .info, .call true .info "A" "x", .call false .warn "B" "y",
      .stamp true 1 7, .push true, .stamp false 2 9, .push false, .take, .dispatch, .dispatch, .take,
      .dispatch] = some s ∧
    run step (init true 1) [.setLevel .debug, .call true .info "A" "x", .stamp true 7 1, .push true,
      .take, .dispatch, .dispatch, .call true .warn "B" "y", .stamp true 9 2, .push true,
      .call true .debug "C" "z", .stamp true 9 3, .push true, .take, .dispatch] = some s' ∧
    s.accepted.length = 2 ∧ s'.accepted.length = 3 ∧
    (s.accepted.take 2).map LogEntry.shown = (s'.accepted.take 2).map LogEntry.shown := by
  have heval : (run step (init false 1 : LoggerSystem Bool) [.setLevel .info,
      .call true .info "A" "x", .call false .warn "B" "y", .stamp true 1 7, .push true,
      .stamp false 2 9, .push false, .take, .dispatch, .dispatch, .take, .dispatch]).map (fun s =>
        (s.sinks[0]?, s.accepted.length, decide (∀ entry ∈ s.accepted, entry.Plain))) =
      some (some ["7 [A] INFO - x", "9 [B] WARN - y"], 2, true) := by decide +kernel
  have heval' : (run step (init true 1 : LoggerSystem Bool) [.setLevel .debug,
      .call true .info "A" "x", .stamp true 7 1, .push true, .take, .dispatch, .dispatch,
      .call true .warn "B" "y", .stamp true 9 2, .push true, .call true .debug "C" "z",
      .stamp true 9 3, .push true, .take, .dispatch]).map (fun s =>
        (s.sinks[0]?, s.accepted.length, decide (∀ entry ∈ s.accepted, entry.Plain))) =
      some (some ["7 [A] INFO - x", "9 [B] WARN - y"], 3, true) := by decide +kernel
  obtain ⟨s, hrun, hval⟩ := Option.map_eq_some_iff.mp heval
  obtain ⟨s', hrun', hval'⟩ := Option.map_eq_some_iff.mp heval'
  obtain ⟨hsink, hval⟩ := Prod.mk.inj hval
  obtain ⟨hsink', hval'⟩ := Prod.mk.inj hval'
  obtain ⟨hlength, hplain⟩ := Prod.mk.inj hval
  obtain ⟨hlength', hplain'⟩ := Prod.mk.inj hval'
  exact ⟨s, s', hrun, hrun', hlength, hlength', file_unambiguous ⟨_, hrun⟩ ⟨_, hrun'⟩ hsink hsink'
    (of_decide_eq_true hplain) (of_decide_eq_true hplain') rfl⟩

-- a bracket in the component: two entries with the same line
example : (⟨.warn, "A] INFO - x", "y", 7, ()⟩ : LogEntry Unit).formatted =
    (⟨.info, "A", "x] WARN - y", 7, ()⟩ : LogEntry Unit).formatted := by decide

/-! ### The calls of one thread -/

/-- What a call of `log` is given. -/
def said (entry : LogEntry θ) : LogLevel × String × String :=
  (entry.level, entry.component, entry.message)

/-- The call that is under way, if it is past the test of the level. -/
def unfinished : LogCall θ → List (LogLevel × String × String)
  | .idle => []
  | .passed level component message => [(level, component, message)]
  | .pushing entry => [said entry]

/-- What the thread has contributed to the log. -/
def contribution (t : θ) (s : LoggerSystem θ) : List (LogLevel × String × String) :=
  (s.accepted.filter (fun entry => decide (entry.threadId = t))).map said ++ unfinished (s.calls t)

/-- A call of `log` by the thread, unless the level is below `min_level`. -/
def issue (t : θ) (s : LoggerSystem θ) : LoggerEvent θ → List (LogLevel × String × String)
  | .call u level component message =>
      if u = t ∧ s.minLevel.toNat ≤ level.toNat then [(level, component, message)] else []
  | _ => []

/-- An entry carries the thread that pushes it. -/
def Stamped (s : LoggerSystem θ) : Prop :=
  ∀ t entry, s.calls t = .pushing entry → entry.threadId = t

theorem Stamped.update {s s' : LoggerSystem θ} (h : Stamped s) {u : θ} {c : LogCall θ}
    (hcalls : s'.calls = Function.update s.calls u c)
    (hc : ∀ entry, c = .pushing entry → entry.threadId = u) : Stamped s' := by
  intro t entry ht
  rw [hcalls] at ht
  by_cases htu : t = u
  · subst htu
    rw [Function.update_self] at ht
    exact hc entry ht
  · rw [Function.update_of_ne htu] at ht
    exact h t entry ht

theorem contribution_update {s s' : LoggerSystem θ} {t u : θ} {c : LogCall θ}
    (hcalls : s'.calls = Function.update s.calls u c) (haccepted : s'.accepted = s.accepted)
    {l : List (LogLevel × String × String)}
    (hc : u = t → unfinished c = unfinished (s.calls t) ++ l) (hl : u ≠ t → l = []) :
    contribution t s' = contribution t s ++ l := by
  unfold contribution
  rw [hcalls, haccepted]
  by_cases hut : u = t
  · subst hut
    rw [Function.update_self, hc rfl, List.append_assoc]
  · rw [Function.update_of_ne (Ne.symm hut), hl hut, List.append_nil]

theorem step_contribution {s s' : LoggerSystem θ} {e : LoggerEvent θ} (t : θ) (h : Stamped s)
    (hs : step s e = some s') :
    Stamped s' ∧ contribution t s' = contribution t s ++ issue t s e := by
  cases e with
  | call u level component message =>
      simp only [step] at hs
      split_ifs at hs with hidle hlevel
      · obtain rfl := Option.some.inj hs
        refine ⟨h, ?_⟩
        rw [issue, if_neg (by omega), List.append_nil]
      · obtain rfl := Option.some.inj hs
        refine ⟨h.update rfl (by simp), ?_⟩
        apply contribution_update
        · rfl
        · rfl
        · rintro rfl
          rw [issue, if_pos ⟨rfl, Nat.le_of_not_lt hlevel⟩, hidle]
          rfl
        · intro hut
          rw [issue, if_neg (fun hc => hut hc.1)]
  | stamp u steady system =>
      simp only [step] at hs
      split at hs
      · rename_i level component message hu
        obtain rfl := Option.some.inj hs
        refine ⟨h.update rfl ?_, ?_⟩
        · intro entry he
          obtain rfl := LogCall.pushing.inj he
          rfl
        · apply contribution_update
          · rfl
          · rfl
          · rintro rfl
            rw [hu]
            rfl
          · exact fun _ => rfl
      · cases hs
  | push u =>
      simp only [step] at hs
      split at hs
      · rename_i entry hu
        obtain rfl := Option.some.inj hs
        refine ⟨h.update rfl (by simp), ?_⟩
        have hthread := h u entry hu
        simp only [contribution, issue, List.filter_append, List.map_append, List.append_nil]
        by_cases hut : u = t
        · subst hut
          rw [Function.update_self, hu]
          simp [hthread, unfinished]
        · rw [Function.update_of_ne (Ne.symm hut)]
          simp [hthread, hut]
      · cases hs
  | setLevel level =>
      obtain rfl := Option.some.inj hs
      exact ⟨h, (List.append_nil _).symm⟩
  | useRelativeTimestamps enable =>
      obtain rfl := Option.some.inj hs
      exact ⟨h, (List.append_nil _).symm⟩
  | shutdown =>
      obtain rfl := Option.some.inj hs
      exact ⟨h, (List.append_nil _).symm⟩
  | take =>
      simp only [step] at hs
      split at hs
      · split at hs
        · split_ifs at hs
          obtain rfl := Option.some.inj hs
          exact ⟨h, (List.append_nil _).symm⟩
        · obtain rfl := Option.some.inj hs
          exact ⟨h, (List.append_nil _).symm⟩
      · cases hs
  | dispatch =>
      simp only [step] at hs
      split at hs
      · split_ifs at hs
        · obtain rfl := Option.some.inj hs
          exact ⟨h, (List.append_nil _).symm⟩
        · obtain rfl := Option.some.inj hs
          exact ⟨h, (List.append_nil _).symm⟩
      · cases hs

/-- **The entries of a thread are its calls.**  In every interleaving, what a thread has in the log and
what it is about to push are its calls of `log` that were not below `min_level` when they were made, in
the order in which it made them. -/
theorem calls_in_order (relativeTs : Bool) (n : ℕ) (es : List (LoggerEvent θ)) (s : LoggerSystem θ)
    (hrun : run step (init relativeTs n) es = some s) (t : θ) :
    (s.accepted.filter (fun entry => decide (entry.threadId = t))).map said ++ unfinished (s.calls t) =
      viewed step (issue t) (init relativeTs n) es := by
  have hsimulates : Simulates step record Stamped (fun _ _ => True) (issue t) (contribution t) := by
    refine ⟨fun s e s' h _ hs => (step_contribution t h hs).1, fun s e s' h _ hs => ?_⟩
    rw [run_record, (step_contribution t h hs).2]
  have halong : Along step (fun _ _ => True) (init relativeTs n : LoggerSystem θ) es :=
    along_of_forall (fun _ _ => trivial)
  have hstamped : Stamped (init relativeTs n : LoggerSystem θ) := nofun
  exact hsimulates.history hstamped halong hrun

/-- The second call of the thread `true` is below the level that was set in between; the third one is
under way. -/
theorem calls_in_order_filtered : ∃ s : LoggerSystem Bool,
    run step (init false 1) [.setLevel .debug, .call true .info "A" "x", .call false .info "B" "y",
      .stamp true 1 7, .setLevel .warn, .push true, .call true .info "A" "z", .stamp false 1 8,
      .call true .error "A" "w", .push false] = some s ∧
    (s.accepted.filter (fun entry => decide (entry.threadId = true))).map said ++
      unfinished (s.calls true) = [(.info, "A", "x"), (.error, "A", "w")] := by
  have hviewed : viewed step (issue true) (init false 1 : LoggerSystem Bool) [.setLevel .debug,
      .call true .info "A" "x", .call false .info "B" "y", .stamp true 1 7, .setLevel .warn,
      .push true, .call true .info "A" "z", .stamp false 1 8, .call true .error "A" "w",
      .push false] = [(.info, "A", "x"), (.error, "A", "w")] := by decide +kernel
  have heval : (run step (init false 1 : LoggerSystem Bool) [.setLevel .debug,
      .call true .info "A" "x", .call false .info "B" "y", .stamp true 1 7, .setLevel .warn,
      .push true, .call true .info "A" "z", .stamp false 1 8, .call true .error "A" "w",
      .push false]).isSome = true := by decide +kernel
  obtain ⟨s, hrun⟩ := Option.isSome_iff_exists.mp heval
  exact ⟨s, hrun, (calls_in_order false 1 _ s hrun true).trans hviewed⟩

end LoggerSystem

end Protocore
