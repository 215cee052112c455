import PttTerminal.Scanner

/-!
# The records that both sides exchange

The native code fills in a floor status for each response of the server, and the application
keeps one for the current group. Groups and members are told to the application one by one.
-/
namespace PttTerminal

/-- The states of the floor, in the order of their numbers from `PTT_IDLE = -1`. -/
inductive PttStatus where
  | idle
  | init
  | free
  | listening
  | busy
  | waiting
  | rejected
  | canceled
  | forbidden
  | speaking
  | accepted
  | applying
  | canceling
  | closed
  deriving Repr, DecidableEq

/-- A fresh record is idle and belongs to no call. -/
structure PttGroupStatus where
  groupNum : Option Bytes := none
  callId : ℤ := -1
  status : PttStatus := .idle
  speakerNum : Option Bytes := none
  seqCallId : ℤ := 0
  rejectReason : ℤ := 0
  totalWaitingCount : ℤ := 0
  currentWaitingPos : ℤ := 0
  deriving Repr, DecidableEq

/-- What the application is told about a group. -/
structure GroupEntry where
  name : Bytes
  number : Bytes
  level : UInt8
  deriving Repr, DecidableEq

/-- What the application is told about a member. -/
structure MemberEntry where
  number : Bytes
  name : Bytes
  state : ℤ
  deriving Repr, DecidableEq

end PttTerminal
