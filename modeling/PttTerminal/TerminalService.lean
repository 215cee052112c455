import PttTerminal.TerminalState

/-!
# The service and its managers

The requests to the native code, the commands, and what is made of a new floor status and of a
floor indication. `native` is the result of the request that is made in the step. A method that
is given the status stored in the manager is given a copy of it here: where the original is changed
through one of the names, the other is not read again or is set to the value it has.
-/
namespace PttTerminal

namespace Terminal

/-! ### `SipProxy` -/

/-- A failed request ends the floor status. -/
def checkResult (result : ℤ) (t : Terminal) : Terminal :=
  if result ≠ 0 then
    let t := (t.setSpeakerNum none).setStatus .free
    if result = 70010 ∨ result = 120128 then t.setBPttErrorShowing true else t
  else t

def checkValidation (bCheckGroup : Bool) (t : Terminal) : Bool :=
  t.registered && (!bCheckGroup || !t.lstGroupData.isEmpty)

def requestApplyPttRight (native : ℤ) (groupNumber : Bytes) (t : Terminal) : Terminal :=
  if !t.checkValidation true then t
  else
    let t := if isStrBlank groupNumber then t.setBPttErrorShowing true else t
    (t.note (.requestApplyPttRight groupNumber (t.lstGroupData.map GroupEntry.number) native)).checkResult
      native

def requestCancelPttRight (native : ℤ) (groupNumber : Bytes) (t : Terminal) : Terminal :=
  (t.note (.requestCancelPttRight groupNumber)).checkResult native

def requestHangup (callId : ℤ) (t : Terminal) : Terminal :=
  if callId < 0 then t else t.note (.requestHangup callId)

/-- The result, and the state after it. -/
def requestMakeCall (native : ℤ) (t : Terminal) : ℤ × Terminal :=
  if !t.checkValidation false then (-1, t)
  else (native, { t with bForceInSC := true }.checkResult native)

/-! ### `PTTManager` -/

/-- The group that is applied for, unless there is none: the stored one if it is not blank, and
else the selected one. -/
def applyGroup (t : Terminal) : Option Bytes :=
  if isStrBlank t.pttGroupStatus.groupNum then t.getCurrentGroupInfo.map GroupEntry.number
  else t.pttGroupStatus.groupNum

def applyPttRight (native : ℤ) (t : Terminal) : Terminal :=
  match t.applyGroup with
  | none => t
  | some grpNum => (t.setGroupNum (some grpNum)).requestApplyPttRight native grpNum

def cancelPttRight (native : ℤ) (t : Terminal) : Terminal :=
  match t.getPttGroup with
  | none => t
  | some groupInfo => t.requestCancelPttRight native groupInfo.number

def hangupPttCall (t : Terminal) : Terminal :=
  if t.pttGroupStatus.callId < 0 then t else t.note (.hangupPttCall t.pttGroupStatus.callId)

/-! ### `PTTService.handleCommand` -/

/-- No error is on the screen, the terminal is registered and knows of a group. -/
def handleApply (native : ℤ) (t : Terminal) : Terminal :=
  let (showing, t) := t.isbPttErrorShowing
  if showing || !t.registered then t
  else if t.lstGroupData.isEmpty then t.setStatus .init
  else (t.setStatus .applying).applyPttRight native

def handleCancel (native : ℤ) (t : Terminal) : Terminal :=
  let t := t.setStatus (if isStrBlank t.pttGroupStatus.speakerNum then .free else .listening)
  t.cancelPttRight native

/-- The state of the call is set to ending before it is looked at. -/
def handleHangup (t : Terminal) : Terminal :=
  let t := ((t.setStatus .free).setSpeakerNum none).setCallState .ending
  if t.callState ≠ .idle ∧ t.callState ≠ .ended then t.hangupPttCall else t

def handleClose (t : Terminal) : Terminal :=
  let t := match t.callState with
    | .ringing | .talking | .dialing => t.hangupPttCall
    | _ => t
  t.clear

def handleMakeCall (native : ℤ) (number : Option Bytes) (t : Terminal) : Terminal :=
  if number.isNone || t.checkIsGroupNum number then t
  else
    let t := { t with currentCallState.callState := .dialing, currentCallState.number := number }
    let (result, t) := t.requestMakeCall native
    if result ≠ 0 then t.clearCall else t

/-- Answer or hang up the single call. -/
def handleSingleCall (native : ℤ) (e : ℤ → Entry) (t : Terminal) : Terminal :=
  let callId := t.currentCallState.callId
  if callId < 0 then t
  else
    let t := t.note (e callId)
    if native ≠ 0 then t.clearCall else t

def handleCommand (native : ℤ) (c : Command) (t : Terminal) : Terminal :=
  if t.exitFlag then t
  else match c with
    | .applyPttRight => t.handleApply native
    | .cancelPttRight => t.handleCancel native
    | .hangupPttCall => t.handleHangup
    | .openPttUi => if t.isPttUIOnTop then t else t.isbPttErrorShowing.2
    | .startApp | .sendDtmf => t
    | .updatePttUi => t.isbPttErrorShowing.2
    | .closePtt => t.handleClose
    | .makeCall number => t.handleMakeCall native number
    | .answerCall => t.handleSingleCall native .requestAnswer
    | .hangupCall => t.handleSingleCall native .requestHangup

/-! ### `PTTService.JNIUpdatePTTState` -/

/-- Whether a free floor is set aside: the key is held, and there is a request or a speech. -/
def ignoresFree (t : Terminal) : Bool :=
  t.ePttKeyStatus = .down && match t.pttGroupStatus.status with
    | .applying | .waiting | .accepted | .speaking | .rejected => true
    | _ => false

/-- Store the new status. The speaker of the given record, which a waiting or rejected response
takes from the stored one, comes with the new state; nothing does when the method is left. -/
def storePttState (obj : PttGroupStatus) (t : Terminal) : Option (Option Bytes × Terminal) :=
  match obj.status with
  | .free => some (obj.speakerNum, if t.ignoresFree then t else t.setCurrentPttState obj)
  | .waiting | .rejected =>
    if t.pttGroupStatus.status = .speaking ∧ t.ePttKeyStatus = .down then none
    else
      let obj := { obj with
        groupNum := t.pttGroupStatus.groupNum
        speakerNum := t.pttGroupStatus.speakerNum }
      some (obj.speakerNum, t.setCurrentPttState obj)
  | _ => some (obj.speakerNum, t)

/-- The user holds the key and the call is up. -/
def resetSpeaking (iStatus : PttStatus) (speaker : Option Bytes) (t : Terminal) : Terminal :=
  if t.callState = .talking ∧ iStatus ≠ .speaking ∧ t.ePttKeyStatus = .down ∧ t.isUser speaker then
    (t.setStatus .speaking).setSpeakerNum (some t.username)
  else t

/-- The user is the speaker: the floor is given back when the key is released. -/
def checkSpeaker (speaker : Option Bytes) (t : Terminal) : Terminal :=
  if (t.pttGroupStatus.status = .listening ∨ t.pttGroupStatus.status = .speaking) ∧
      t.isUser speaker then
    if t.ePttKeyStatus = .up then
      let t := if t.callState = .talking then t.hangupPttCall else t
      (t.setStatus .free).setSpeakerNum none
    else t.setStatus .speaking
  else t

/-- With the key released, a speech is hung up if it is the single call, a request is cancelled,
and an accepted request without a call is forgotten. -/
def checkKeyUp (native : ℤ) (t : Terminal) : Terminal :=
  if t.ePttKeyStatus = .down then t
  else match t.pttGroupStatus.status with
    | .speaking =>
      if t.currentCallState.callId = t.pttGroupStatus.callId ∧
        t.singleCallActive then t.hangupPttCall
      else t
    | .waiting | .applying => t.cancelPttRight native
    | .accepted =>
      if t.callState = .idle ∨
        t.callState = .ended then (t.setStatus .free).setSpeakerNum none else t
    | _ => t

def jniUpdatePttState (native : ℤ) (obj : PttGroupStatus) (t : Terminal) : Terminal :=
  match t.storePttState obj with
  | none => t
  | some (speaker, t) =>
    if t.inSingleCall then t
    else ((t.resetSpeaking obj.status speaker).checkSpeaker speaker).checkKeyUp native

/-- The stored status is given to the method itself. -/
def updateOwnPttState (native : ℤ) (t : Terminal) : Terminal :=
  t.jniUpdatePttState native t.pttGroupStatus

/-! ### `PTTService.mInviteIndicate` and `mByeIndicate` -/

/-- An indication during a single call is stored when it is for a listed group and names a
speaker. -/
def indicateInCall (groupNum : Bytes) (speaker : Option Bytes) (t : Terminal) : Terminal :=
  if !t.checkIsGroupNum (some groupNum) || isStrBlank speaker then t
  else ((t.setStatus .listening).setSpeakerNum speaker).setGroupNum (some groupNum)

/-- The last part of the method, which the group is stored in. -/
def endIndication (groupNum : Bytes) (speaker : Option Bytes) (t : Terminal) : Terminal :=
  let t := t.setGroupNum (some groupNum)
  match t.pttGroupStatus.status with
  | .idle =>
    let t := t.setSpeakerNum speaker
    t.setStatus (if t.isUser speaker then .speaking else .listening)
  | _ => t

/-- The floor of the group is free. -/
def indicateFree (native : ℤ) (groupNum : Bytes) (speaker : Option Bytes)
    (t : Terminal) : Terminal :=
  match t.pttGroupStatus.status with
  | .accepted | .applying => t
  | .waiting => (t.hangupPttCall.setStatus .applying).setSpeakerNum none
  | s =>
    let t := if s = .listening then t.hangupPttCall else t
    (((t.setStatus .free).setSpeakerNum none).updateOwnPttState native).endIndication groupNum speaker

/-- A request of the user is kept while the key is held. -/
def keepsRequest (t : Terminal) : Bool :=
  t.ePttKeyStatus = .down && match t.pttGroupStatus.status with
    | .waiting | .applying | .rejected => true
    | _ => false

/-- There is a speaker. -/
def indicateSpeaker (native : ℤ) (groupNum : Bytes) (speaker : Option Bytes) (t : Terminal) :
    Terminal :=
  let iPttStatus := t.pttGroupStatus.status
  let keeps := t.keepsRequest
  let t := (t.setStatus .listening).setSpeakerNum speaker
  if t.isUser speaker then
    ((t.setStatus .speaking).updateOwnPttState native).endIndication groupNum speaker
  else if keeps then (t.setStatus iPttStatus).updateOwnPttState native
  else ((t.setStatus .listening).updateOwnPttState native).endIndication groupNum speaker

/-- Without a group, the connection timed out. A single call that is neither on top nor was dialled
here is taken for an error and forgotten. -/
def mInviteIndicate (native : ℤ) (groupNum speaker : Option Bytes) (t : Terminal) : Terminal :=
  let t := t.note (.mInviteIndicate groupNum speaker)
  match groupNum with
  | none => t.clear.setBPttErrorShowing true
  | some groupNum =>
    if t.singleCallActive && t.inSingleCall then t.indicateInCall groupNum speaker
    else
      let t := if t.singleCallActive then t.clearCall else t
      if isStrBlank speaker then t.indicateFree native groupNum speaker
      else t.indicateSpeaker native groupNum speaker

def mByeIndicate (t : Terminal) : Terminal := t.clear

/-! ### `PTTService.JNIAddGroupInfo` -/

def isDeleted (currentGrpNum : Bytes) (groupInfos : List GroupEntry) : Bool :=
  groupInfos.all fun g => g.number ≠ currentGrpNum

/-- The new list, and a selected group that is on it. -/
def addGroups (groupInfos : List GroupEntry) (t : Terminal) : Terminal :=
  let t := { t with lstGroupData := groupInfos }
  match groupInfos.head? with
  | none => { t with currGrpNum := some [] }
  | some first =>
    match t.getCurrentGroupInfo with
    | none => { t with currGrpNum := some first.number }
    | some g => if isDeleted g.number groupInfos then { t with currGrpNum := some first.number } else t

/-- The groups that an application waited for. -/
def resumeApply (native : ℤ) (t : Terminal) : Terminal :=
  if t.pttGroupStatus.status ≠ .init then t
  else match t.getCurrentGroupInfo with
    | none => t.clear
    | some g =>
      let t := t.setGroupNum (some g.number)
      if t.ePttKeyStatus = .down then t.handleCommand native .applyPttRight else t.setStatus .free

/-- The group that the user is in was deleted. A stored status without a group stops the method with
an exception, so that the flag of the regroup message stays. -/
def regroup (groupInfos : List GroupEntry) (t : Terminal) : Terminal :=
  if !t.bDynamic then t
  else if (t.currentCallState.callState ≠ .idle && t.isSingleCallOnTop) ||
      t.pttGroupStatus.status = .idle then { t with bDynamic := false }
  else if groupInfos.isEmpty then leave t
  else match t.pttGroupStatus.groupNum with
    | none => t
    | some n => if isDeleted n groupInfos then leave t else { t with bDynamic := false }
where
  leave (t : Terminal) : Terminal :=
    let t := if t.pttGroupStatus.status = .speaking ∧ t.ePttKeyStatus = .down then t.hangupPttCall
      else t
    { t.clear with bDynamic := false }

def jniAddGroupInfo (native : ℤ) (groupInfos : List GroupEntry) (t : Terminal) : Terminal :=
  ((t.addGroups groupInfos).resumeApply native).regroup groupInfos

/-- A message without a number announces new groups; the text of another one is only broadcast. -/
def jniReceiveMessage (number : Option Bytes) (t : Terminal) : Terminal :=
  if isStrBlank number then { t with bDynamic := true } else t

/-! ### `PTTService.JNIUpdateCallState` -/

/-- The call is the single call. A call that ended without its activity is idle. -/
def jniUpdateCallState (cs : CallState) (t : Terminal) : Terminal :=
  let t := { t with currentCallState := cs }
  if cs.callState = .ended ∧ !t.ui.inCallScreenActivity then
    { t with currentCallState.callState := .idle }
  else t

end Terminal

end PttTerminal
