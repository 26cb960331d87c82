import Mathlib.Data.Nat.Notation
import Mathlib.Tactic.SplitIfs

/-! # Task states and messages

`task::TaskState` (`task_state.h`), the system messages (`system_msgs.h`), the message variant
with its priorities (`msg_variant_types_default.h`) and `msg::Msg` (`msg.h`).  Messages carry a
state as one byte; `TaskState.ofByte` is the `static_cast` of such a byte, which may name no
enumerator.  A sender is a raw `task::Task*`: `none` is `nullptr`, and `τ` is the type of tasks. -/

namespace Protocore

/-- `task::TaskState`: the enumerators, and the other values a cast byte can take. -/
inductive TaskState where
  | notStarted
  | idle
  | running
  | stopped
  | error
  | unnamed (raw : UInt8) (h : 4 < raw)
deriving DecidableEq, Repr

namespace TaskState

/-- `static_cast<uint8_t>(state)`. -/
def toByte : TaskState → UInt8
  | notStarted => 0
  | idle => 1
  | running => 2
  | stopped => 3
  | error => 4
  | unnamed raw _ => raw

/-- `static_cast<task::TaskState>(b)`. -/
def ofByte (b : UInt8) : TaskState :=
  if h : 4 < b then .unnamed b h
  else if b = 0 then .notStarted
  else if b = 1 then .idle
  else if b = 2 then .running
  else if b = 3 then .stopped
  else .error

/-- A state survives the trip through a message. -/
@[simp] theorem ofByte_toByte (s : TaskState) : ofByte s.toByte = s := by
  cases s with
  | unnamed raw h =>
      show ofByte raw = .unnamed raw h
      unfold ofByte
      rw [dif_pos h]
  | _ => rfl

end TaskState

/-- `msg::StateMsg`. -/
structure StateMsg where
  state : UInt8
deriving DecidableEq, Repr

/-- `msg::StateAckMsg`. -/
structure StateAckMsg where
  state : UInt8
deriving DecidableEq, Repr

/-- `msg::HeartbeatMsg`. -/
structure HeartbeatMsg where
  uniqueId : UInt32
  timestamp : UInt64
deriving DecidableEq, Repr

/-- `msg::HeartbeatAckMsg`. -/
structure HeartbeatAckMsg where
  origUniqueId : UInt32
  origTimestamp : UInt64
  ackTimestamp : UInt64
deriving DecidableEq, Repr

/-- `msg::MessageVariant`. -/
inductive MessageVariant where
  | stateMsg (m : StateMsg)
  | stateAckMsg (m : StateAckMsg)
  | heartbeatMsg (m : HeartbeatMsg)
  | heartbeatAckMsg (m : HeartbeatAckMsg)
deriving DecidableEq, Repr

/-- `msg::Type`: one enumerator per alternative of the variant, in the same order. -/
inductive MsgType where
  | stateMsg
  | stateAckMsg
  | heartbeatMsg
  | heartbeatAckMsg
deriving DecidableEq, Repr

/-- The index of the alternative held by the variant, as `msg::Type`. -/
def MessageVariant.type : MessageVariant → MsgType
  | stateMsg _ => .stateMsg
  | stateAckMsg _ => .stateAckMsg
  | heartbeatMsg _ => .heartbeatMsg
  | heartbeatAckMsg _ => .heartbeatAckMsg

/-- `msg::message_priorities`. -/
def MsgType.priority : MsgType → ℕ
  | stateMsg => 100
  | stateAckMsg => 99
  | heartbeatMsg => 50
  | heartbeatAckMsg => 49

/-- `msg::Msg`: the sender and the data; the priority and the type are those of the data. -/
structure Msg (τ : Type) where
  sendingTask : Option τ
  msgData : MessageVariant
deriving DecidableEq, Repr

namespace Msg

variable {τ : Type}

/-- `Msg::get_type`. -/
def getType (m : Msg τ) : MsgType := m.msgData.type

/-- `Msg::get_priority`. -/
def getPriority (m : Msg τ) : ℕ := m.getType.priority

end Msg

/-- The default of `queue_msg_count` in the constructor of `Task`. -/
def queueMsgCount : ℕ := 64

end Protocore
