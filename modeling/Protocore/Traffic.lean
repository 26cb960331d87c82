import Protocore.Msg
import Protocore.LogFile

/-! # What the log says of the traffic

`Broker::deliver_message` logs each message before it enqueues it: level `MSG_TRAFFIC`, the name of the
sender as component, and `Msg::str` as message.  The text of a message begins with its type and names its
fields; states are written by `task_state_to_string`, which has one name for all bytes that stand for no
state.

* `str_eq_iff`: the text says what the message is, but for those bytes.
* `traffic_unambiguous`: two log files with the same text tell of the same deliveries. -/

namespace Protocore

/-- `task::task_state_to_string`. -/
def TaskState.taskStateToString : TaskState → String
  | .notStarted => "NOT_STARTED"
  | .idle => "IDLE"
  | .running => "RUNNING"
  | .stopped => "STOPPED"
  | .error => "ERROR"
  | .unnamed _ _ => "UNKNOWN"

/-- `StateMsg::str`. -/
def StateMsg.str (m : StateMsg) : String :=
  "StateMsg \x7b State = " ++ (TaskState.ofByte m.state).taskStateToString ++ " \x7d"

/-- `StateAckMsg::str`. -/
def StateAckMsg.str (m : StateAckMsg) : String :=
  "StateAckMsg \x7b State = " ++ (TaskState.ofByte m.state).taskStateToString ++ " \x7d"

/-- `HeartbeatMsg::str`. -/
def HeartbeatMsg.str (m : HeartbeatMsg) : String :=
  "HeartBeatMsg \x7b Unique_id = " ++ toString m.uniqueId.toNat ++ " timestamp = " ++
    toString m.timestamp.toNat ++ " \x7d"

/-- `HeartbeatAckMsg::str`. -/
def HeartbeatAckMsg.str (m : HeartbeatAckMsg) : String :=
  "HeartbeatAckMsg \x7b orig Unique_id = " ++ toString m.origUniqueId.toNat ++ " orig timestamp = " ++
    toString m.origTimestamp.toNat ++ " ack timestamp = " ++ toString m.ackTimestamp.toNat ++ " \x7d"

/-- `Msg::str`. -/
def MessageVariant.str : MessageVariant → String
  | .stateMsg m => m.str
  | .stateAckMsg m => m.str
  | .heartbeatMsg m => m.str
  | .heartbeatAckMsg m => m.str

/-! ### States -/

/-- The state, if it has a name. -/
def TaskState.named? : TaskState → Option TaskState
  | .unnamed _ _ => none
  | state => some state

theorem taskStateToString_eq_iff {state state' : TaskState} :
    state.taskStateToString = state'.taskStateToString ↔ state.named? = state'.named? := by
  cases state <;> cases state' <;> simp [TaskState.taskStateToString, TaskState.named?]

theorem not_mem_taskStateToString {c : Char} (hc : c = ' ' ∨ c = '\n') (state : TaskState) :
    c ∉ state.taskStateToString.toList := by
  rcases hc with rfl | rfl <;> cases state <;> simp [TaskState.taskStateToString]

/-! ### One message -/

namespace MessageVariant

/-- What the text of a message shows: its type, the state if it has a name, and the numbers. -/
def shown : MessageVariant → MsgType × Option TaskState × List ℕ
  | .stateMsg m => (.stateMsg, (TaskState.ofByte m.state).named?, [])
  | .stateAckMsg m => (.stateAckMsg, (TaskState.ofByte m.state).named?, [])
  | .heartbeatMsg m => (.heartbeatMsg, none, [m.uniqueId.toNat, m.timestamp.toNat])
  | .heartbeatAckMsg m =>
      (.heartbeatAckMsg, none, [m.origUniqueId.toNat, m.origTimestamp.toNat, m.ackTimestamp.toNat])

/-- The word that the text begins with. -/
def firstWord : MsgType → String
  | .stateMsg => "StateMsg"
  | .stateAckMsg => "StateAckMsg"
  | .heartbeatMsg => "HeartBeatMsg"
  | .heartbeatAckMsg => "HeartbeatAckMsg"

/-- The text after the first word. -/
def fields : MessageVariant → List Char
  | .stateMsg m =>
      "\x7b State = ".toList ++ ((TaskState.ofByte m.state).taskStateToString.toList ++ ' ' :: ['\x7d'])
  | .stateAckMsg m =>
      "\x7b State = ".toList ++ ((TaskState.ofByte m.state).taskStateToString.toList ++ ' ' :: ['\x7d'])
  | .heartbeatMsg m =>
      "\x7b Unique_id = ".toList ++ (Nat.toDigits 10 m.uniqueId.toNat ++ ' ' ::
        ("timestamp = ".toList ++ (Nat.toDigits 10 m.timestamp.toNat ++ ' ' :: ['\x7d'])))
  | .heartbeatAckMsg m =>
      "\x7b orig Unique_id = ".toList ++ (Nat.toDigits 10 m.origUniqueId.toNat ++ ' ' ::
        ("orig timestamp = ".toList ++ (Nat.toDigits 10 m.origTimestamp.toNat ++ ' ' ::
          ("ack timestamp = ".toList ++ (Nat.toDigits 10 m.ackTimestamp.toNat ++ ' ' :: ['\x7d'])))))

theorem toList_str (d : MessageVariant) :
    d.str.toList = (firstWord d.type).toList ++ ' ' :: d.fields := by
  have hdigits : ∀ n : ℕ, (toString n).toList = Nat.toDigits 10 n := fun n => Nat.toList_repr
  have hblank : " ".toList = [' '] := rfl
  have hbrace : " \x7d".toList = ' ' :: ['\x7d'] := rfl
  cases d with
  | stateMsg m =>
      have hword : "StateMsg \x7b State = " = firstWord .stateMsg ++ (" " ++ "\x7b State = ") := by decide
      show m.str.toList = (firstWord .stateMsg).toList ++ ' ' :: fields (.stateMsg m)
      unfold StateMsg.str
      rw [hword]
      simp only [String.toList_append, List.append_assoc, hblank, hbrace]
      rfl
  | stateAckMsg m =>
      have hword : "StateAckMsg \x7b State = " = firstWord .stateAckMsg ++ (" " ++ "\x7b State = ") := by
        decide
      show m.str.toList = (firstWord .stateAckMsg).toList ++ ' ' :: fields (.stateAckMsg m)
      unfold StateAckMsg.str
      rw [hword]
      simp only [String.toList_append, List.append_assoc, hblank, hbrace]
      rfl
  | heartbeatMsg m =>
      have hword : "HeartBeatMsg \x7b Unique_id = " =
        firstWord .heartbeatMsg ++ (" " ++ "\x7b Unique_id = ") := by decide
      have htime : " timestamp = " = " " ++ "timestamp = " := by decide
      show m.str.toList = (firstWord .heartbeatMsg).toList ++ ' ' :: fields (.heartbeatMsg m)
      unfold HeartbeatMsg.str
      rw [hword, htime]
      simp only [String.toList_append, List.append_assoc, hdigits, hblank, hbrace]
      rfl
  | heartbeatAckMsg m =>
      have hword : "HeartbeatAckMsg \x7b orig Unique_id = " =
        firstWord .heartbeatAckMsg ++ (" " ++ "\x7b orig Unique_id = ") := by decide
      have htime : " orig timestamp = " = " " ++ "orig timestamp = " := by decide
      have hack : " ack timestamp = " = " " ++ "ack timestamp = " := by decide
      show m.str.toList = (firstWord .heartbeatAckMsg).toList ++ ' ' :: fields (.heartbeatAckMsg m)
      unfold HeartbeatAckMsg.str
      rw [hword, htime, hack]
      simp only [String.toList_append, List.append_assoc, hdigits, hblank, hbrace]
      rfl

theorem not_mem_firstWord {c : Char} (hc : c = ' ' ∨ c = '\n') (t : MsgType) :
    c ∉ (firstWord t).toList := by
  rcases hc with rfl | rfl <;> cases t <;> decide

theorem firstWord_injective {t t' : MsgType} (h : firstWord t = firstWord t') : t = t' := by
  cases t <;> cases t' <;> first | rfl | exact absurd h (by decide)

theorem type_of_str {d d' : MessageVariant} (h : d.str = d'.str) :
    d.type = d'.type ∧ d.fields = d'.fields := by
  have hlist := congrArg String.toList h
  rw [toList_str, toList_str] at hlist
  obtain ⟨hword, hfields⟩ := split_at_delimiter (not_mem_firstWord (.inl rfl) _)
    (not_mem_firstWord (.inl rfl) _) hlist
  exact ⟨firstWord_injective (String.toList_inj.mp hword), hfields⟩

/-- A state is over at the next blank. -/
theorem named?_of_text {state state' : TaskState} {r r' : List Char}
    (h : state.taskStateToString.toList ++ ' ' :: r = state'.taskStateToString.toList ++ ' ' :: r') :
    state.named? = state'.named? := by
  obtain ⟨hname, -⟩ := split_at_delimiter (not_mem_taskStateToString (.inl rfl) _)
    (not_mem_taskStateToString (.inl rfl) _) h
  exact taskStateToString_eq_iff.mp (String.toList_inj.mp hname)

/-- **The text of a message says what it is**: two messages have the same text exactly if they have the
same type, the same numbers and the same state, where all bytes that stand for no state are one. -/
theorem str_eq_iff {d d' : MessageVariant} : d.str = d'.str ↔ d.shown = d'.shown := by
  constructor
  · intro h
    obtain ⟨htype, hfields⟩ := type_of_str h
    cases d <;> cases d' <;> cases htype
    case stateMsg.stateMsg.refl m m' =>
      rw [shown, shown, named?_of_text (List.append_cancel_left hfields)]
    case stateAckMsg.stateAckMsg.refl m m' =>
      rw [shown, shown, named?_of_text (List.append_cancel_left hfields)]
    case heartbeatMsg.heartbeatMsg.refl m m' =>
      obtain ⟨hid, hrest⟩ := LogEntry.split_after_digits (by decide) (List.append_cancel_left hfields)
      obtain ⟨htime, -⟩ := LogEntry.split_after_digits (by decide) (List.append_cancel_left hrest)
      rw [shown, shown, hid, htime]
    case heartbeatAckMsg.heartbeatAckMsg.refl m m' =>
      obtain ⟨hid, hrest⟩ := LogEntry.split_after_digits (by decide) (List.append_cancel_left hfields)
      obtain ⟨htime, hrest⟩ := LogEntry.split_after_digits (by decide) (List.append_cancel_left hrest)
      obtain ⟨hack, -⟩ := LogEntry.split_after_digits (by decide) (List.append_cancel_left hrest)
      rw [shown, shown, hid, htime, hack]
  · intro h
    cases d <;> cases d' <;> simp only [shown, Prod.mk.injEq, reduceCtorEq, false_and, and_false] at h
    case stateMsg.stateMsg m m' =>
      show m.str = m'.str
      unfold StateMsg.str
      rw [taskStateToString_eq_iff.mpr h.2.1]
    case stateAckMsg.stateAckMsg m m' =>
      show m.str = m'.str
      unfold StateAckMsg.str
      rw [taskStateToString_eq_iff.mpr h.2.1]
    case heartbeatMsg.heartbeatMsg m m' =>
      show m.str = m'.str
      obtain ⟨-, -, hnumbers⟩ := h
      simp only [List.cons.injEq, and_true] at hnumbers
      unfold HeartbeatMsg.str
      rw [hnumbers.1, hnumbers.2]
    case heartbeatAckMsg.heartbeatAckMsg m m' =>
      show m.str = m'.str
      obtain ⟨-, -, hnumbers⟩ := h
      simp only [List.cons.injEq, and_true] at hnumbers
      unfold HeartbeatAckMsg.str
      rw [hnumbers.1, hnumbers.2.1, hnumbers.2.2]

theorem not_mem_str (d : MessageVariant) : '\n' ∉ d.str.toList := by
  have hdigits : ∀ n, '\n' ∉ Nat.toDigits 10 n := LogEntry.not_mem_digits (by decide)
  have hstate : ∀ state : TaskState, '\n' ∉ state.taskStateToString.toList :=
    not_mem_taskStateToString (.inr rfl)
  rw [toList_str, List.mem_append, List.mem_cons, not_or, not_or]
  refine ⟨not_mem_firstWord (.inr rfl) _, by decide, ?_⟩
  cases d with
  | stateMsg m =>
      apply List.not_mem_append (by decide)
      exact List.not_mem_append (hstate _) (by decide)
  | stateAckMsg m =>
      apply List.not_mem_append (by decide)
      exact List.not_mem_append (hstate _) (by decide)
  | heartbeatMsg m =>
      apply List.not_mem_append (by decide)
      apply List.not_mem_append (hdigits _)
      apply List.not_mem_cons_of_ne_of_not_mem (by decide)
      apply List.not_mem_append (by decide)
      exact List.not_mem_append (hdigits _) (by decide)
  | heartbeatAckMsg m =>
      apply List.not_mem_append (by decide)
      apply List.not_mem_append (hdigits _)
      apply List.not_mem_cons_of_ne_of_not_mem (by decide)
      apply List.not_mem_append (by decide)
      apply List.not_mem_append (hdigits _)
      apply List.not_mem_cons_of_ne_of_not_mem (by decide)
      apply List.not_mem_append (by decide)
      exact List.not_mem_append (hdigits _) (by decide)

end MessageVariant

/-! ### The log of the deliveries -/

section traffic
variable {τ τ' θ θ' : Type}

/-- The call of `log` in `Broker::deliver_message`. -/
def deliveryLog (getName : τ → String) (msg : Msg τ) : LogLevel × String × String :=
  (.msgTraffic, msg.sendingTask.elim "UnknownSender" getName, msg.msgData.str)

/-- What such an entry shows of a message. -/
def deliveryShown (getName : τ → String) (msg : Msg τ) :
    String × MsgType × Option TaskState × List ℕ :=
  (msg.sendingTask.elim "UnknownSender" getName, msg.msgData.shown)

/-- The entries of level `MSG_TRAFFIC`. -/
def traffic (entries : List (LogEntry θ)) : List (LogLevel × String × String) :=
  (entries.map LoggerSystem.said).filter (fun call => decide (call.1 = .msgTraffic))

theorem deliveryLog_inj {getName : τ → String} {getName' : τ' → String} {msg : Msg τ} {msg' : Msg τ'}
    (h : deliveryLog getName msg = deliveryLog getName' msg') :
    deliveryShown getName msg = deliveryShown getName' msg' := by
  obtain ⟨-, hrest⟩ := Prod.mk.inj h
  obtain ⟨hname, hstr⟩ := Prod.mk.inj hrest
  unfold deliveryShown
  rw [hname, MessageVariant.str_eq_iff.mp hstr]

theorem deliveryShown_of_map {getName : τ → String} {getName' : τ' → String} {ms : List (Msg τ)}
    {ms' : List (Msg τ')} (h : ms.map (deliveryLog getName) = ms'.map (deliveryLog getName')) :
    ms.map (deliveryShown getName) = ms'.map (deliveryShown getName') := by
  induction ms generalizing ms' with
  | nil =>
      cases ms' with
      | nil => rfl
      | cons msg' ms' => cases h
  | cons msg ms ih =>
      cases ms' with
      | nil => cases h
      | cons msg' ms' =>
          obtain ⟨hfirst, hrest⟩ := List.cons.inj h
          rw [List.map_cons, List.map_cons, deliveryLog_inj hfirst, ih hrest]

/-- What a line shows includes what `log` was given. -/
theorem said_of_shown {entries : List (LogEntry θ)} {entries' : List (LogEntry θ')}
    (h : entries.map LogEntry.shown = entries'.map LogEntry.shown) :
    entries.map LoggerSystem.said = entries'.map LoggerSystem.said := by
  have hmap := congrArg (List.map (fun x => (x.2.2.1, x.2.1, x.2.2.2))) h
  rw [List.map_map, List.map_map] at hmap
  exact hmap

/-- The name can stand between brackets on a line. -/
structure PlainName (name : String) : Prop where
  bracket : ']' ∉ name.toList
  newline : '\n' ∉ name.toList

theorem plain_of_deliveryLog {getName : τ → String} (hname : ∀ t, PlainName (getName t))
    {entry : LogEntry θ} {msg : Msg τ} (h : LoggerSystem.said entry = deliveryLog getName msg) :
    entry.Plain := by
  obtain ⟨-, hrest⟩ := Prod.mk.inj h
  obtain ⟨hcomponent, hmessage⟩ := Prod.mk.inj hrest
  have hplain : PlainName (msg.sendingTask.elim "UnknownSender" getName) := by
    cases msg.sendingTask with
    | none =>
        show PlainName "UnknownSender"
        exact ⟨by decide, by decide⟩
    | some t => exact hname t
  rw [← hcomponent] at hplain
  refine ⟨hplain.bracket, hplain.newline, ?_⟩
  rw [hmessage]
  exact msg.msgData.not_mem_str

/-- The entries of a log whose traffic comes from `deliver_message` are plain if the others are. -/
theorem plain_of_traffic {getName : τ → String} (hname : ∀ t, PlainName (getName t))
    {entries : List (LogEntry θ)} {ms : List (Msg τ)}
    (hms : traffic entries = ms.map (deliveryLog getName))
    (hplain : ∀ entry ∈ entries, entry.level ≠ .msgTraffic → entry.Plain) :
    ∀ entry ∈ entries, entry.Plain := by
  intro entry hentry
  by_cases hlevel : entry.level = .msgTraffic
  · have hmem : LoggerSystem.said entry ∈ traffic entries :=
      List.mem_filter.mpr ⟨List.mem_map_of_mem hentry, decide_eq_true hlevel⟩
    rw [hms] at hmem
    obtain ⟨msg, -, heq⟩ := List.mem_map.mp hmem
    exact plain_of_deliveryLog hname heq.symm
  · exact hplain entry hentry hlevel

end traffic

namespace LoggerSystem

variable {τ τ' θ θ' : Type} [DecidableEq θ] [DecidableEq θ']

/-- **The log of the traffic is unambiguous.**  Two sinks, of any two loggers in any two runs, hold the
same text; the entries of level `MSG_TRAFFIC` that they have received are those of the deliveries `ms`
and `ms'`.  Then these are as many messages, from senders of the same names, of the same types, with the
same numbers and the same states, but for states without a name. -/
theorem traffic_unambiguous {getName : τ → String} {getName' : τ' → String}
    {relativeTs relativeTs' : Bool} {n n' i j : ℕ} {s : LoggerSystem θ} {s' : LoggerSystem θ'}
    {lines lines' : List String} {ms : List (Msg τ)} {ms' : List (Msg τ')}
    (h : Reaches step (init relativeTs n) s) (h' : Reaches step (init relativeTs' n') s')
    (hi : s.sinks[i]? = some lines) (hj : s'.sinks[j]? = some lines')
    (hms : traffic (s.accepted.take lines.length) = ms.map (deliveryLog getName))
    (hms' : traffic (s'.accepted.take lines'.length) = ms'.map (deliveryLog getName'))
    (hname : ∀ t, PlainName (getName t)) (hname' : ∀ t, PlainName (getName' t))
    (hplain : ∀ entry ∈ s.accepted, entry.level ≠ .msgTraffic → entry.Plain)
    (hplain' : ∀ entry ∈ s'.accepted, entry.level ≠ .msgTraffic → entry.Plain)
    (htext : sinkText lines = sinkText lines') :
    ms.map (deliveryShown getName) = ms'.map (deliveryShown getName') := by
  have hlines := (reaches_flushed h).received hi
  have hlines' := (reaches_flushed h').received hj
  have hshown := entries_of_text
    (plain_of_traffic hname hms (fun entry he => hplain entry (List.mem_of_mem_take he)))
    (plain_of_traffic hname' hms' (fun entry he => hplain' entry (List.mem_of_mem_take he)))
    (by rw [← hlines, ← hlines', htext])
  apply deliveryShown_of_map
  rw [← hms, ← hms']
  unfold traffic
  rw [said_of_shown hshown]

/-- A command and a heartbeat, logged by two threads and written one after the other. -/
def writtenApart : List (LoggerEvent Bool) :=
  [.call true .msgTraffic "A" (MessageVariant.str (.stateMsg ⟨7⟩)), .stamp true 1 7, .push true, .take,
    .dispatch, .dispatch,
    .call false .msgTraffic "UnknownSender" (MessageVariant.str (.heartbeatMsg ⟨1, 10⟩)),
    .stamp false 2 9, .push false, .take, .dispatch]

/-- The same by one thread; the worker writes when both are queued. -/
def writtenTogether : List (LoggerEvent Bool) :=
  [.call true .msgTraffic "A" (MessageVariant.str (.stateMsg ⟨8⟩)), .stamp true 7 1, .push true,
    .call true .msgTraffic "UnknownSender" (MessageVariant.str (.heartbeatMsg ⟨1, 10⟩)),
    .stamp true 9 2, .push true, .take, .dispatch, .dispatch, .take, .dispatch]

/-- The commands carry two bytes that stand for no state. -/
theorem traffic_unambiguous_two : ∃ s s' : LoggerSystem Bool,
    run step (init false 1) writtenApart = some s ∧ run step (init true 1) writtenTogether = some s' ∧
    s.sinks[0]? = s'.sinks[0]? ∧
    [(⟨some (), .stateMsg ⟨7⟩⟩ : Msg Unit), ⟨none, .heartbeatMsg ⟨1, 10⟩⟩].map
        (deliveryShown (fun _ => "A")) =
      [(⟨some (), .stateMsg ⟨8⟩⟩ : Msg Unit), ⟨none, .heartbeatMsg ⟨1, 10⟩⟩].map
        (deliveryShown (fun _ => "A")) := by
  have heval : (run step (init false 1) writtenApart).map (fun s =>
      (s.sinks[0]?, traffic (s.accepted.take 2),
        decide (∀ entry ∈ s.accepted, entry.level = .msgTraffic))) =
      some (some ["7 [A] TRAFFIC - StateMsg \x7b State = UNKNOWN \x7d",
          "9 [UnknownSender] TRAFFIC - HeartBeatMsg \x7b Unique_id = 1 timestamp = 10 \x7d"],
        [(⟨some (), .stateMsg ⟨7⟩⟩ : Msg Unit), ⟨none, .heartbeatMsg ⟨1, 10⟩⟩].map
          (deliveryLog (fun _ => "A")), true) := by decide +kernel
  have heval' : (run step (init true 1) writtenTogether).map (fun s =>
      (s.sinks[0]?, traffic (s.accepted.take 2),
        decide (∀ entry ∈ s.accepted, entry.level = .msgTraffic))) =
      some (some ["7 [A] TRAFFIC - StateMsg \x7b State = UNKNOWN \x7d",
          "9 [UnknownSender] TRAFFIC - HeartBeatMsg \x7b Unique_id = 1 timestamp = 10 \x7d"],
        [(⟨some (), .stateMsg ⟨8⟩⟩ : Msg Unit), ⟨none, .heartbeatMsg ⟨1, 10⟩⟩].map
          (deliveryLog (fun _ => "A")), true) := by decide +kernel
  obtain ⟨s, hrun, hval⟩ := Option.map_eq_some_iff.mp heval
  obtain ⟨s', hrun', hval'⟩ := Option.map_eq_some_iff.mp heval'
  obtain ⟨hsinks, hval⟩ := Prod.mk.inj hval
  obtain ⟨hsinks', hval'⟩ := Prod.mk.inj hval'
  obtain ⟨hms, hlevel⟩ := Prod.mk.inj hval
  obtain ⟨hms', hlevel'⟩ := Prod.mk.inj hval'
  have hname : ∀ _ : Unit, PlainName "A" := fun _ => ⟨by decide, by decide⟩
  refine ⟨s, s', hrun, hrun', hsinks.trans hsinks'.symm, ?_⟩
  exact traffic_unambiguous ⟨_, hrun⟩ ⟨_, hrun'⟩ hsinks hsinks' hms hms' hname hname
    (fun entry he hne => absurd (of_decide_eq_true hlevel entry he) hne)
    (fun entry he hne => absurd (of_decide_eq_true hlevel' entry he) hne) rfl

end LoggerSystem

end Protocore
