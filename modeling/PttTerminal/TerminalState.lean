import Mathlib.Tactic
import PttTerminal.GroupStatus

/-!
# The state of the application

What the managers of the application keep in memory, the commands that were broadcast and not
received yet, and a journal: the requests to the native code, what it reports, the commands that
are sent and each status that is set, the latest first. The source writes all of these to its log.
Drawing, sounds and the notes about members are left out.
-/
namespace PttTerminal

inductive PttKey where
  | down
  | up
  deriving Repr, DecidableEq

/-- The states of a call, in the order of the constants from `CALL_IDLE = 0`, with `CALL_ENDED` and
`CALL_ENDING` where they are used. -/
inductive CallStatus where
  | idle
  | dialing
  | ringback
  | ringing
  | talking
  | ended
  | ending
  | error
  | canceling
  | rejecting
  deriving Repr, DecidableEq

/-- A call as the native code reports it; a fresh record holds zeros. -/
structure CallState where
  callId : ℤ := 0
  number : Option Bytes := none
  callState : CallStatus := .idle
  errorCode : ℤ := 0
  deriving Repr, DecidableEq

/-- The commands of the service; `makeCall` carries the number that is dialled. -/
inductive Command where
  | hangupPttCall
  | applyPttRight
  | cancelPttRight
  | openPttUi
  | startApp
  | updatePttUi
  | closePtt
  | makeCall (number : Option Bytes)
  | sendDtmf
  | answerCall
  | hangupCall
  deriving Repr, DecidableEq

/-- Which activity is on top. -/
inductive Screen where
  | ptt
  | inCall
  | alert
  | other
  deriving Repr, DecidableEq

/-- The activity on top, and whether there is an instance of the two others. -/
structure Ui where
  topActivity : Screen := .other
  pttActivity : Bool := false
  inCallScreenActivity : Bool := false
  deriving Repr, DecidableEq

inductive Entry where
  | status (s : PttStatus)
  | command (c : Command)
  | mInviteIndicate (groupNum speaker : Option Bytes)
  | response (s : PttStatus)
  | callState (cs : CallState)
  /-- The request for the floor of a group, with the numbers of the groups at that moment and the
  result: a request that the native code refuses is not sent. -/
  | requestApplyPttRight (groupNum : Bytes) (numbers : List Bytes) (result : ℤ)
  | requestCancelPttRight (groupNum : Bytes)
  /-- A hang-up by `hangupPttCall`. -/
  | hangupPttCall (callId : ℤ)
  | requestHangup (callId : ℤ)
  | requestAnswer (callId : ℤ)
  deriving Repr, DecidableEq

/-- `releasing` holds while the handler of a released key sleeps: the main thread receives
nothing then, but the native code goes on reporting. -/
structure Terminal where
  pttGroupStatus : PttGroupStatus := {}
  callState : CallStatus := .idle
  ePttKeyStatus : PttKey := .up
  bPttErrorShowing : Bool := false
  currentCallState : CallState := {}
  bForceInSC : Bool := false
  lstGroupData : List GroupEntry := []
  bDynamic : Bool := false
  currGrpNum : Option Bytes := none
  username : Bytes := []
  registered : Bool := false
  exitFlag : Bool := false
  ui : Ui := {}
  commands : List Command := []
  releasing : Bool := false
  journal : List Entry := []
  deriving Repr, DecidableEq

/-- `isStrBlank`: `trim` takes away every character up to the blank. -/
def isStrBlank (str : Option Bytes) : Bool := (str.getD []).all (· ≤ 32)

/-- `TextUtils.isEmpty`. -/
def isEmptyStr (str : Option Bytes) : Bool := (str.getD []).isEmpty

namespace Terminal

/-! ### Setters -/

@[simps]
def note (e : Entry) (t : Terminal) : Terminal := { t with journal := e :: t.journal }

@[simps]
def setStatus (s : PttStatus) (t : Terminal) : Terminal :=
  { t with
    pttGroupStatus := { t.pttGroupStatus with status := s }
    journal := .status s :: t.journal }

@[simps]
def setSpeakerNum (n : Option Bytes) (t : Terminal) : Terminal :=
  { t with pttGroupStatus := { t.pttGroupStatus with speakerNum := n } }

@[simps]
def setGroupNum (n : Option Bytes) (t : Terminal) : Terminal :=
  { t with pttGroupStatus := { t.pttGroupStatus with groupNum := n } }

@[simps]
def setCallId (i : ℤ) (t : Terminal) : Terminal :=
  { t with pttGroupStatus := { t.pttGroupStatus with callId := i } }

@[simps]
def setRejectReason (r : ℤ) (t : Terminal) : Terminal :=
  { t with pttGroupStatus := { t.pttGroupStatus with rejectReason := r } }

@[simps]
def setCallState (s : CallStatus) (t : Terminal) : Terminal := { t with callState := s }

@[simps]
def setBPttErrorShowing (b : Bool) (t : Terminal) : Terminal := { t with bPttErrorShowing := b }

/-- Broadcast a command of the service. -/
@[simps]
def sendPttCommand (c : Command) (t : Terminal) : Terminal :=
  { t with commands := t.commands ++ [c], journal := .command c :: t.journal }

/-- Every field is copied but the id of the call. -/
@[simps]
def setCurrentPttState (src : PttGroupStatus) (t : Terminal) : Terminal :=
  { t with
    pttGroupStatus := { src with callId := t.pttGroupStatus.callId }
    journal := .status src.status :: t.journal }

/-- `PTTManager.clear`: a new status and a released key; the state of the call stays. -/
@[simps]
def clear (t : Terminal) : Terminal :=
  { t with pttGroupStatus := {}, ePttKeyStatus := .up, journal := .status .idle :: t.journal }

/-- `CallStateManager.clear`. -/
@[simps]
def clearCall (t : Terminal) : Terminal := { t with currentCallState := {}, bForceInSC := false }

/-! ### Queries -/

def isSingleCallOnTop (t : Terminal) : Bool :=
  t.ui.inCallScreenActivity && t.ui.topActivity = .inCall

def isPttUIOnTop (t : Terminal) : Bool := t.ui.pttActivity && t.ui.topActivity = .ptt

/-- `isbForceInSC() || isSingleCallOnTop()`. -/
def inSingleCall (t : Terminal) : Bool := t.bForceInSC || t.isSingleCallOnTop

/-- The single call is neither ended nor idle. -/
def singleCallActive (t : Terminal) : Bool :=
  t.currentCallState.callState ≠ .ended && t.currentCallState.callState ≠ .idle

/-- The answer, and the flag, which is taken back when another activity is on top. -/
def isbPttErrorShowing (t : Terminal) : Bool × Terminal :=
  if t.bPttErrorShowing && t.ui.topActivity ≠ .alert then (false, t.setBPttErrorShowing false)
  else (t.bPttErrorShowing, t)

def getCurrentGroupInfo (t : Terminal) : Option GroupEntry :=
  if isStrBlank t.currGrpNum then none
  else t.lstGroupData.find? fun g => some g.number = t.currGrpNum

def getPttGroup (t : Terminal) : Option GroupEntry := t.lstGroupData.head?

def checkIsGroupNum (callNum : Option Bytes) (t : Terminal) : Bool :=
  !isStrBlank callNum && t.lstGroupData.any fun g => some g.number = callNum

def checkErrorCode (errorCode : ℤ) : Bool := errorCode > 300 && errorCode ≠ 487

@[simp]
def isUser (n : Option Bytes) (t : Terminal) : Bool := n = some t.username

/-! ### What a note leaves alone -/

@[simp]
theorem inSingleCall_note (e : Entry) (t : Terminal) :
    (t.note e).inSingleCall = t.inSingleCall := rfl

@[simp]
theorem singleCallActive_note (e : Entry) (t : Terminal) :
    (t.note e).singleCallActive = t.singleCallActive := rfl

@[simp]
theorem checkIsGroupNum_note (n : Option Bytes) (e : Entry) (t : Terminal) :
    (t.note e).checkIsGroupNum n = t.checkIsGroupNum n := rfl

end Terminal

end PttTerminal
