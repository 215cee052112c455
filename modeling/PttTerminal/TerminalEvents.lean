import PttTerminal.Library.Runs
import PttTerminal.TerminalService

/-!
# The events of the application

What the native code reports, the key of the user, and the commands that are received. The main
thread receives keys and commands one at a time; a report of the native code comes on a thread of
its own and is taken as one step.
-/
namespace PttTerminal

open Runs

namespace Terminal

/-! ### `JniCallback.showCallState` -/

/-- A call that failed. -/
def showCallError (cs : CallState) (t : Terminal) : Terminal :=
  let t :=
    if t.inSingleCall || !t.checkIsGroupNum cs.number then
      match t.currentCallState.callState with
      | .ringing | .rejecting =>
        if cs.errorCode = 486 ∧ cs.callState = .ended then t.jniUpdateCallState cs else t
      | _ => t.jniUpdateCallState cs
    else if t.ePttKeyStatus = .down || t.isPttUIOnTop then
      let t := if cs.errorCode = 486 ∨ cs.errorCode = 504 then
          let t := (t.setStatus .free).setSpeakerNum none
          if cs.errorCode = 504 then t.setBPttErrorShowing true else t
        else t
      t.setCallState cs.callState
    else t
  if cs.errorCode = 504 then t.requestHangup cs.callId else t

/-- The call of a group rings. The first component tells whether the method is left. -/
def groupRinging (iPttStatus : PttStatus) (cs : CallState) (t : Terminal) : Bool × Terminal :=
  match iPttStatus with
  | .idle | .free | .applying | .accepted | .waiting | .canceling | .listening | .rejected =>
    (true, (t.setCallId cs.callId).note (.requestAnswer cs.callId))
  | _ => (false, if t.ePttKeyStatus ≠ .down then t.requestHangup cs.callId else t)

/-- A status without a group is given the selected one. -/
def answerGroup (t : Terminal) : Terminal :=
  if t.pttGroupStatus.groupNum.isNone then
    match t.getCurrentGroupInfo with
    | some g => t.setGroupNum (some g.number)
    | none => t
  else t

/-- Unless somebody else speaks, the user does; the one who holds the key is the speaker. -/
def answerSpeaker (t : Terminal) : Terminal :=
  let speakerNum := t.pttGroupStatus.speakerNum
  let t := if t.isUser speakerNum || isEmptyStr speakerNum then t.setStatus .speaking else t
  if t.ePttKeyStatus = .down then t.setSpeakerNum (some t.username) else t

/-- The call of a group is up, and the key is held or somebody speaks. -/
def groupAnswered (native : ℤ) (cs : CallState) (t : Terminal) : Terminal :=
  (t.answerGroup.answerSpeaker.setCallId cs.callId).updateOwnPttState native

/-- The statuses in which the call is answered or hung up; a free one only for the stored call. -/
def awaitsTalk (iPttStatus : PttStatus) (cs : CallState) (t : Terminal) : Bool :=
  match iPttStatus with
  | .free => t.pttGroupStatus.callId = cs.callId
  | .accepted | .canceling | .canceled | .waiting | .applying | .listening | .idle => true
  | _ => false

def groupTalking (native : ℤ) (iPttStatus : PttStatus) (cs : CallState) (t : Terminal) : Terminal :=
  if !t.awaitsTalk iPttStatus cs then t
  else if (t.ePttKeyStatus = .up ∧ t.pttGroupStatus.status = .listening) ∨
    t.ePttKeyStatus = .down then
    t.groupAnswered native cs
  else t.hangupPttCall

def groupEnded (native : ℤ) (iPttStatus : PttStatus) (t : Terminal) : Bool × Terminal :=
  match iPttStatus with
  | .free | .accepted | .waiting =>
    if t.ePttKeyStatus = .up then
      let state := if isStrBlank t.pttGroupStatus.speakerNum then .free else .listening
      if iPttStatus = .waiting then
        (true, ((t.cancelPttRight native).setStatus .canceling).updateOwnPttState native)
      else (true, (t.setStatus state).updateOwnPttState native)
    else (false, t)
  | .speaking => (true, ((t.setSpeakerNum none).setStatus .free).updateOwnPttState native)
  | .listening => (false, ((t.setSpeakerNum none).setStatus .free).updateOwnPttState native)
  | _ => (false, t)

def storeCall (cs : CallState) (t : Terminal) : Terminal :=
  (if 0 ≤ cs.callId then t.setCallId cs.callId else t).setCallState cs.callState

/-- The call of a group that was not dialled here. -/
def groupCall (native : ℤ) (iPttStatus : PttStatus) (cs : CallState) (t : Terminal) :
    Bool × Terminal :=
  let t := t.storeCall cs
  match cs.callState with
  | .ringing => t.groupRinging iPttStatus cs
  | .talking => (false, t.groupTalking native iPttStatus cs)
  | .ended => t.groupEnded native iPttStatus
  | _ => (false, t)

/-- The call of another number, or of a group where the method was not left: it is the single call,
or the held key takes it for the call of the group. -/
def otherCall (iPttStatus : PttStatus) (cs : CallState) (t : Terminal) : Terminal :=
  if !t.isPttUIOnTop then
    if t.isSingleCallOnTop then t.jniUpdateCallState cs
    else match iPttStatus with
      | .free | .applying | .idle =>
        if t.ePttKeyStatus = .up then t.jniUpdateCallState cs else t.setCallId cs.callId
      | _ => t
  else match iPttStatus with
    | .free | .idle => if t.checkIsGroupNum cs.number then t else t.jniUpdateCallState cs
    | _ => t

def showCallState (native : ℤ) (cs : CallState) (t : Terminal) : Terminal :=
  let t := t.note (.callState cs)
  let iPttStatus := t.pttGroupStatus.status
  if checkErrorCode cs.errorCode then t.showCallError cs
  else if t.checkIsGroupNum cs.number then
    if t.bForceInSC then t.jniUpdateCallState cs
    else
      let (left, t) := t.groupCall native iPttStatus cs
      if left then t else t.otherCall iPttStatus cs
  else t.otherCall iPttStatus cs

/-! ### `JniCallback.receivePttRightResponse` -/

def receivePttRightResponse (native : ℤ) (responseStatus : PttStatus) (t : Terminal) : Terminal :=
  let t := t.note (.response responseStatus)
  let blank := isStrBlank t.pttGroupStatus.speakerNum
  if t.pttGroupStatus.status = .speaking then t
  else match responseStatus with
    | .busy => (t.setStatus .accepted).updateOwnPttState native
    | .canceled | .rejected =>
      let s := if t.ePttKeyStatus = .up then if blank then .free else .listening else responseStatus
      (t.setStatus s).updateOwnPttState native
    | .forbidden =>
      if t.ePttKeyStatus = .down then
        { t.clear with ePttKeyStatus := .down }.sendPttCommand .applyPttRight
      else t.clear
    | s => (t.setStatus s).updateOwnPttState native

def updatePttState (native : ℤ) (obj : PttGroupStatus) (t : Terminal) : Terminal :=
  (t.note (.response obj.status)).jniUpdatePttState native obj

/-! ### `PTTKeyReceiver` -/

/-- The command is sent again while the key repeats. -/
def handlePttDown (t : Terminal) : Terminal :=
  if t.singleCallActive then t
  else match t.ePttKeyStatus with
    | .down =>
      match t.pttGroupStatus.status with
      | .init | .free | .rejected | .canceled | .listening =>
        if t.isUser t.pttGroupStatus.speakerNum then t else t.sendPttCommand .applyPttRight
      | .canceling => t.sendPttCommand .applyPttRight
      | _ => t
    | .up =>
      let t := { t with ePttKeyStatus := .down }
      match t.pttGroupStatus.status with
      | .listening | .free | .rejected | .canceled | .idle | .init => t.sendPttCommand .applyPttRight
      | _ => t

/-- The key is released, and the handler sleeps. -/
def handlePttUp (t : Terminal) : Terminal := { t with ePttKeyStatus := .up, releasing := true }

/-- What is sent depends on the status after the sleep. -/
def resumePttUp (t : Terminal) : Terminal :=
  let t := { t with releasing := false }
  match t.pttGroupStatus.status with
  | .applying | .waiting => t.sendPttCommand .cancelPttRight
  | .speaking | .accepted => t.sendPttCommand .hangupPttCall
  | .rejected | .canceled =>
    let t := t.setRejectReason (-1)
    (t.setStatus (if isStrBlank t.pttGroupStatus.speakerNum then .free else .listening)).sendPttCommand
      .updatePttUi
  | _ => t

/-- The first command that was broadcast is received. -/
def deliver (native : ℤ) (t : Terminal) : Terminal :=
  match t.commands with
  | [] => t
  | c :: cs => { t with commands := cs }.handleCommand native c

end Terminal

/-! ### The system -/

inductive Event where
  | keyDown
  | keyUp
  | keyUpResume
  | deliver (native : ℤ)
  | sendCommand (c : Command)
  | mInviteIndicate (native : ℤ) (groupNum speaker : Option Bytes)
  | mByeIndicate
  | receivePttRightResponse (native : ℤ) (responseStatus : PttStatus)
  | updatePttState (native : ℤ) (obj : PttGroupStatus)
  | showCallState (native : ℤ) (cs : CallState)
  | receiveGroupInfo (native : ℤ) (groupInfos : List GroupEntry)
  | receiveMessage (number : Option Bytes)
  | setCurrentGrp (grpNum : Bytes)
  | clear
  /-- The activities on the screen change. -/
  | showUi (ui : Ui)
  /-- The alert sets or takes back its flag. -/
  | alert (showing : Bool)
  | register (registered : Bool)
  /-- The activity of the single call sets the state of the call, or leaves it. -/
  | setSingleCall (s : CallStatus)
  | leaveSingleCall (s : CallStatus)
  | clearSingleCall
  deriving Repr, DecidableEq

namespace Event

/-- Keys and commands are received by the main thread, which sleeps while a key is released. -/
def onMainThread : Event → Bool
  | .keyDown | .keyUp | .deliver _ => true
  | _ => false

def enabled (t : Terminal) : Event → Bool
  | .keyUpResume => t.releasing
  | e => !(t.releasing && e.onMainThread)

def handle (t : Terminal) : Event → Terminal
  | .keyDown => t.handlePttDown
  | .keyUp => t.handlePttUp
  | .keyUpResume => t.resumePttUp
  | .deliver native => t.deliver native
  | .sendCommand c => t.sendPttCommand c
  | .mInviteIndicate native groupNum speaker => t.mInviteIndicate native groupNum speaker
  | .mByeIndicate => t.mByeIndicate
  | .receivePttRightResponse native s => t.receivePttRightResponse native s
  | .updatePttState native obj => t.updatePttState native obj
  | .showCallState native cs => t.showCallState native cs
  | .receiveGroupInfo native gs => t.jniAddGroupInfo native gs
  | .receiveMessage number => t.jniReceiveMessage number
  | .setCurrentGrp n => { t with currGrpNum := some n }
  | .clear => t.clear
  | .showUi ui => { t with ui := ui }
  | .alert b => t.setBPttErrorShowing b
  | .register b => { t with registered := b }
  | .setSingleCall s => { t with currentCallState.callState := s }
  | .leaveSingleCall s => { t with currentCallState.callState := s, bForceInSC := false }
  | .clearSingleCall => t.clearCall

end Event

/-- The service has started: the managers hold fresh records, and nothing was sent. The groups, the
selected group, the screen and the registration may be any. -/
structure Terminal.Fresh (t : Terminal) : Prop where
  status : t.pttGroupStatus = {}
  callState : t.callState = .idle
  key : t.ePttKeyStatus = .up
  single : t.currentCallState = {}
  force : t.bForceInSC = false
  exitFlag : t.exitFlag = false
  commands : t.commands = []
  releasing : t.releasing = false
  journal : t.journal = []

/-- What the native code sends: the responses that `receivePttRightResponse` tells apart, and a
status that is free, without a speaker, waiting or rejected. -/
def Event.ofNative : Event → Bool
  | .receivePttRightResponse _ s => s = .busy || s = .canceled || s = .rejected || s = .forbidden
  | .updatePttState _ obj =>
    (obj.status = .free && obj.speakerNum.isNone) || obj.status = .waiting || obj.status = .rejected
  | _ => true

/-- Everything but the messages that bring new groups. -/
def Event.keepsGroups : Event → Bool
  | .receiveGroupInfo _ _ => false
  | _ => true

/-- The events of a set, in any order. -/
def terminal (start : Terminal → Prop) (events : Event → Bool) : System Terminal Event where
  init := start
  enabled t e := events e ∧ e.enabled t
  next t e := e.handle t

instance (start : Terminal → Prop) (events : Event → Bool) (t : Terminal) (e : Event) :
    Decidable ((terminal start events).enabled t e) :=
  inferInstanceAs (Decidable (events e ∧ e.enabled t))

/-- A registered terminal with two groups, the first of which is selected. -/
def Terminal.ready : Terminal where
  lstGroupData := [⟨ascii "day", ascii "8001", 1⟩, ⟨ascii "night", ascii "8002", 1⟩]
  currGrpNum := some (ascii "8001")
  username := ascii "100"
  registered := true

theorem fresh_ready : Terminal.ready.Fresh := by
  constructor <;> rfl

end PttTerminal
