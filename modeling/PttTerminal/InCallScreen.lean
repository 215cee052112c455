import PttTerminal.CallLog
import PttTerminal.Library.Runs
import PttTerminal.TerminalState

/-!
# The screen of a single call

The native code reports the states of a call on a thread of its own. The screen is opened, resumed,
left and destroyed later, on the main thread, where it also receives that the state changed; what it
reads is the state that the call has by then. When it closes it stores its log.
-/
namespace PttTerminal

open Tables Runs

/-- `CallStateManager`. The current call comes first, then the state before the last change. -/
structure CallStateManager where
  callId : ℤ := 0
  number : Option String := none
  callState : CallStatus := .idle
  formerState : CallStatus := .idle
  bForceInSC : Bool := false
  deriving Repr, DecidableEq

namespace CallStateManager

def setCurrentCallState (callId : ℤ) (number : Option String) (callState : CallStatus)
    (m : CallStateManager) : CallStateManager :=
  { m with
    callId := callId
    number := number
    callState := callState
    formerState := m.callState }

def setCallState (callState : CallStatus) (m : CallStateManager) : CallStateManager :=
  { m with callState := callState, formerState := m.callState }

end CallStateManager

/-- The log that a screen begins; `LOG_ALL` stands where no type is set. -/
def initCallLog (iCallState : CallStatus) (time : ℤ) : CallLog where
  callId := 0
  num := none
  logType := match iCallState with
    | .dialing => .out
    | .ringing => .answered
    | _ => .all
  duration := 0
  reason := none
  time := time

/-- The type of a log that is saved after `formerCallState`. -/
def savedType (formerCallState : CallStatus) (bMoFlag : Bool) (logType : LogType) : LogType :=
  match formerCallState with
  | .dialing | .canceling => .out
  | .ringing | .rejecting => .missing
  | .talking | .ending => if bMoFlag then .out else .answered
  | _ => logType

/-- One instance of the screen. -/
structure InCallScreen where
  callLog : CallLog := initCallLog .idle 0
  duration : ℤ := 0
  timer : Bool := false
  bMoFlag : Bool := false
  isMyHangUP : Bool := false
  isOtherHangUP : Bool := false
  /-- Whether the button is visible. -/
  answerBtn : Bool := false
  /-- The broadcasts that it will receive. -/
  broadcasts : ℕ := 0
  resumed : Bool := false
  finishing : Bool := false
  destroyed : Bool := false
  deriving Repr, DecidableEq

namespace InCallScreen

/-- `log_reason_1` to `log_reason_3`. -/
def reason (c : InCallScreen) : String :=
  if c.isMyHangUP then "myself hangup"
  else if c.isOtherHangUP then "other hangup"
  else "expetion hangup"

/-- The log as `saveCallLog` fills it. -/
def filledLog (m : CallStateManager) (c : InCallScreen) : CallLog where
  callId := m.callId
  num := m.number
  logType := savedType m.formerState c.bMoFlag c.callLog.logType
  duration := if 0 < c.duration then c.duration else c.callLog.duration
  reason := some c.reason
  time := c.callLog.time

/-- Who ended the call. -/
def otherHangUP (m : CallStateManager) (c : InCallScreen) : InCallScreen :=
  match m.formerState with
  | .talking | .dialing | .ringing =>
    { c with isOtherHangUP := c.isOtherHangUP || !c.isMyHangUP }
  | _ => c

end InCallScreen

/-- The manager, all screens there were with `InCallScreenActivity.instance`, whether one is to be
opened, the commands that the service did not take yet, the table and the time. Then what the run is
about: when it began, who began the call, whether it was ever talking, and what was reported
last. -/
structure InCallApp where
  manager : CallStateManager := {}
  screens : List InCallScreen := []
  screenInstance : Option ℕ := none
  opening : Bool := false
  commands : List Command := []
  db : CallLogs := {}
  clock : ℤ := 0
  start : ℤ := 0
  dialled : Bool := false
  talked : Bool := false
  reported : CallStatus := .idle
  deriving Repr, DecidableEq

inductive InCallEvent where
  | report (callId : ℤ) (number : String) (callState : CallStatus)
  | create (time : ℤ)
  | resume (k : ℕ)
  | pause (k : ℕ)
  | stop (k : ℕ)
  | destroy (k : ℕ)
  | receive (k : ℕ)
  | tick (k : ℕ)
  | answer (k : ℕ)
  | hangup (k : ℕ)
  /-- The service takes a command, and the native code accepts its request or not. -/
  | command (result : Bool)
  deriving Repr, DecidableEq

namespace InCallApp

def screen (s : InCallApp) (k : ℕ) : InCallScreen := s.screens.getD k {}

def setScreen (s : InCallApp) (k : ℕ) (c : InCallScreen) : InCallApp :=
  { s with screens := s.screens.set k c }

/-! ### `PTTService` -/

/-- There is one instance at most that is not finishing, and it is brought to the front. -/
def openSingleCallUI (s : InCallApp) : InCallApp :=
  { s with opening := s.opening || s.screens.all InCallScreen.finishing }

def sendBroadcast (s : InCallApp) : InCallApp :=
  { s with
    screens := s.screens.map fun c =>
      if c.destroyed then c else { c with broadcasts := c.broadcasts + 1 } }

def setCurrentCallState (s : InCallApp) (callId : ℤ) (number : String) (callState : CallStatus) :
    InCallApp :=
  { s with manager := s.manager.setCurrentCallState callId number callState }

def jniUpdateCallState (s : InCallApp) (callId : ℤ) (number : String) (callState : CallStatus) :
    InCallApp :=
  let s := s.setCurrentCallState callId number callState
  match callState with
  | .ringing => s.openSingleCallUI
  | .dialing => if s.manager.bForceInSC then s.openSingleCallUI else s
  | .talking => if s.screenInstance.isNone then s.openSingleCallUI else s.sendBroadcast
  | .ended =>
    (if s.screenInstance.isNone then s.setCurrentCallState callId number .idle
    else s).sendBroadcast
  | _ => s

/-- `finish` of the screen. -/
def finish (s : InCallApp) (k : ℕ) : InCallApp :=
  s.setScreen k { s.screen k with finishing := true }

/-- The manager is cleared, and the screen that is on top is finished without a log. -/
def requestFailed (s : InCallApp) : InCallApp :=
  let s := { s with manager := {} }
  match s.screenInstance with
  | some k => if s.screens.any InCallScreen.resumed then s.finish k else s
  | none => s

/-- `COMM_ANSWER_CALL` and `COMM_HANGUP_CALL`. -/
def handleCommand (s : InCallApp) (result : Bool) : InCallApp :=
  let s := { s with commands := s.commands.tail }
  if s.manager.callId < 0 ∨ result then s else s.requestFailed

/-! ### `InCallScreenActivity` -/

def onCreate (s : InCallApp) (time : ℤ) : InCallApp :=
  { s with
    screens := s.screens ++
      [{ callLog := initCallLog s.manager.callState time
         answerBtn := s.manager.callState = .ringing }]
    screenInstance := some s.screens.length
    opening := false
    clock := time }

def saveLog (s : InCallApp) (k : ℕ) : InCallApp :=
  let callLog := (s.screen k).filledLog s.manager
  { s with db := saveCallLog s.db (some callLog) }.setScreen k
    { s.screen k with callLog := callLog }

def closeCallUI (s : InCallApp) (k : ℕ) : InCallApp := (s.saveLog k).finish k

def updateCallState (s : InCallApp) (k : ℕ) (callState : CallStatus) : InCallApp :=
  match callState with
  | .talking => s.setScreen k { s.screen k with timer := true }
  | .ended =>
    (s.setScreen k { (s.screen k).otherHangUP s.manager with timer := false }).closeCallUI k
  | _ => s

/-- What a screen that is resumed does with the state of the call. -/
def resumeCallState (s : InCallApp) (k : ℕ) : InCallApp :=
  match s.manager.callState with
  | .ringing => s.setScreen k { s.screen k with bMoFlag := false }
  | .dialing => s.setScreen k { s.screen k with bMoFlag := true }
  | .ended => (s.setScreen k ((s.screen k).otherHangUP s.manager)).closeCallUI k
  | .idle => s.closeCallUI k
  | .talking => s.updateCallState k .talking
  | _ => s

def onResume (s : InCallApp) (k : ℕ) : InCallApp :=
  (s.setScreen k { s.screen k with resumed := true }).resumeCallState k

def onPause (s : InCallApp) (k : ℕ) : InCallApp :=
  s.setScreen k { s.screen k with resumed := false }

def onStop (s : InCallApp) (k : ℕ) : InCallApp :=
  s.setScreen k { s.screen k with isMyHangUP := false, isOtherHangUP := false }

/-- A screen that is destroyed receives nothing; while the call goes on the rest is left out. -/
def onDestroy (s : InCallApp) (k : ℕ) : InCallApp :=
  let s := s.setScreen k { s.screen k with destroyed := true, broadcasts := 0 }
  match s.manager.callState with
  | .ringing | .talking | .dialing => s
  | _ => { s with screenInstance := none, manager := {} }

def onReceive (s : InCallApp) (k : ℕ) : InCallApp :=
  (s.setScreen k { s.screen k with broadcasts := (s.screen k).broadcasts - 1 }).updateCallState k
    s.manager.callState

/-- The timer runs every second. -/
def onTick (s : InCallApp) (k : ℕ) : InCallApp :=
  s.setScreen k { s.screen k with duration := (s.screen k).duration + 1 }

def answer (s : InCallApp) (k : ℕ) : InCallApp :=
  let s := { s with
    commands := s.commands ++ [Command.answerCall]
    manager := s.manager.setCallState .talking }
  let s := s.updateCallState k .talking
  s.setScreen k { s.screen k with answerBtn := false }

/-- The state of a call that the user hangs up. -/
def hangupState : CallStatus → CallStatus
  | .dialing => .canceling
  | .talking => .ending
  | .ringing => .rejecting
  | callstate => callstate

def hangup (s : InCallApp) (k : ℕ) : InCallApp :=
  let callstate := s.manager.callState
  if s.manager.callId < 0 then s
  else if callstate = .idle ∨ callstate = .ended ∨ s.manager.number = none then
    if s.screenInstance.isSome then s.closeCallUI k else s.finish k
  else
    let c := s.screen k
    let s := s.setScreen k
      { c with timer := c.timer && decide (callstate ≠ .talking), isMyHangUP := true }
    let s := { s with
      manager := { s.manager.setCallState (hangupState callstate) with bForceInSC := false } }
    { s.closeCallUI k with commands := s.commands ++ [.hangupCall] }

/-! ### The run of a call -/

/-- A call comes in. -/
def incoming (m : CallStateManager) (db : CallLogs) (clock : ℤ) : InCallApp :=
  { manager := m, db := db, clock := clock, start := clock }

/-- The user dials on the screen with the digits, which opens the screen of the call. -/
def makeCall (m : CallStateManager) (db : CallLogs) (clock : ℤ) (strNum : String) : InCallApp :=
  { manager := { m.setCurrentCallState 0 strNum .dialing with bForceInSC := true }
    opening := true
    db := db
    clock := clock
    start := clock
    dialled := true }

/-- `COMM_MAKE_CALL`: the user dials a contact. -/
def commMakeCall (m : CallStateManager) (db : CallLogs) (clock : ℤ) (number : String) : InCallApp :=
  { manager := { m with callState := .dialing, number := number, bForceInSC := true }
    db := db
    clock := clock
    start := clock
    dialled := true }

/-- The call goes from one state to the next. -/
def progress : CallStatus → ℕ
  | .dialing | .ringing => 1
  | .talking => 2
  | .ended => 3
  | _ => 0

/-- A state that the native code reports: the same again or a later one. -/
def reportable (s : InCallApp) (callState : CallStatus) : Bool :=
  match callState with
  | .dialing => s.dialled && decide (progress s.reported ≤ 1)
  | .ringing => !s.dialled && decide (progress s.reported ≤ 1)
  | .talking => decide (progress s.reported ≤ 2)
  | .ended => true
  | _ => false

/-- What is known of the call when a state is reported. -/
def noteReport (s : InCallApp) (callState : CallStatus) : InCallApp :=
  { s with talked := s.talked || decide (callState = .talking), reported := callState }

/-- The rows from a moment on. -/
def rowsFrom (db : CallLogs) (start : ℤ) : List (Row CallLog) :=
  db.rows.filter fun r => start ≤ r.cols.time

/-- The logs that are stored for the call. -/
def stored (s : InCallApp) : List CallLog := (rowsFrom s.db s.start).map Row.cols

/-- The end was reported, and no screen is left or to be opened. -/
def isOver (s : InCallApp) : Bool :=
  s.reported = .ended && !s.opening && s.screens.all InCallScreen.destroyed

end InCallApp

namespace InCallEvent

open InCallApp

def step (s : InCallApp) : InCallEvent → InCallApp
  | report callId number callState =>
    (s.noteReport callState).jniUpdateCallState callId number callState
  | create time => s.onCreate time
  | resume k => s.onResume k
  | pause k => s.onPause k
  | stop k => s.onStop k
  | destroy k => s.onDestroy k
  | receive k => s.onReceive k
  | tick k => s.onTick k
  | answer k => { s with talked := true }.answer k
  | hangup k => s.hangup k
  | command result => s.handleCommand result

/-- The user acts on the screen in front, while it is not finishing. -/
def possible (s : InCallApp) : InCallEvent → Bool
  | report _ _ callState => s.reportable callState
  | create time => s.opening && decide (s.clock ≤ time)
  | resume k => decide (k < s.screens.length) && !(s.screen k).resumed && !(s.screen k).finishing
  | pause k => decide (k < s.screens.length) && (s.screen k).resumed
  | stop k => decide (k < s.screens.length) && !(s.screen k).resumed && !(s.screen k).destroyed
  | destroy k => decide (k < s.screens.length) && !(s.screen k).resumed && (s.screen k).finishing &&
      !(s.screen k).destroyed
  | receive k => decide (k < s.screens.length) && decide (0 < (s.screen k).broadcasts)
  | tick k => decide (k < s.screens.length) && (s.screen k).timer
  | answer k => decide (k < s.screens.length) && (s.screen k).resumed &&
      !(s.screen k).finishing && ((s.screen k).answerBtn || s.manager.callState = .ringing)
  | hangup k => decide (k < s.screens.length) && (s.screen k).resumed && !(s.screen k).finishing
  | command _ => !s.commands.isEmpty

end InCallEvent

/-- One call, begun by the user or coming in, from a moment at which no call is there. -/
def inCallApp : System InCallApp InCallEvent where
  init s := ∃ (m : CallStateManager) (db : CallLogs) (clock : ℤ),
    m.callState = .idle ∧ (∀ r ∈ db.rows, r.cols.time < clock) ∧
      (s = .incoming m db clock ∨
        ∃ number, s = .makeCall m db clock number ∨ s = .commMakeCall m db clock number)
  enabled s e := e.possible s = true
  next := InCallEvent.step

instance (s : InCallApp) (e : InCallEvent) : Decidable (inCallApp.enabled s e) :=
  inferInstanceAs (Decidable (e.possible s = true))

end PttTerminal
