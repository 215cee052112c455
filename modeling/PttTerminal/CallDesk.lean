import PttTerminal.CallBook
import PttTerminal.SingleCall

/-!
# The screen of the single call

The user dials, answers and hangs up on a screen, and the commands that the screen sends are handled
later. A command names the call whose id is stored when it is handled. `CallDesk` adds what the user
acted on: a call that is alive, or a number that was dialled and not reported yet.
-/
namespace PttTerminal

open Runs

namespace Terminal

/-! ### `DialActivity` and `InCallScreenActivity` -/

/-- `DialActivity.makeCall`: the record is a new one, and the result is not looked at. -/
def makeCall (native : ℤ) (number : Bytes) (t : Terminal) : Terminal :=
  if number.isEmpty then t
  else
    let t := { t with currentCallState := { number := some number, callState := .dialing } }
    (t.requestMakeCall native).2

/-- The screen is only closed when there is nothing to hang up. -/
def mayHangup (t : Terminal) : Bool :=
  0 ≤ t.currentCallState.callId && t.currentCallState.callState.isActive &&
    t.currentCallState.number.isSome

def hangup (t : Terminal) : Terminal :=
  let callstate := match t.currentCallState.callState with
    | .dialing => .canceling
    | .talking => .ending
    | .ringing => .rejecting
    | s => s
  { t with currentCallState.callState := callstate, bForceInSC := false }

def answer (t : Terminal) : Terminal := { t with currentCallState.callState := .talking }

/-- The screen stays while a call is up, and clears the record otherwise. -/
def keepsScreen (t : Terminal) : Bool := t.currentCallState.callState.isUp

def onDestroy (t : Terminal) : Terminal :=
  if t.keepsScreen then t else { t.clearCall with ui.inCallScreenActivity := false }

/-! ### `PTTService.JNIUpdateRegisterState` -/

/-- `GroupManager.clear`. -/
def clearGroups (t : Terminal) : Terminal := { t with lstGroupData := [], bDynamic := false }

/-- `REG_ERROR`: a call that is going on is hung up and forgotten. -/
def regError (native : ℤ) (t : Terminal) : Terminal :=
  let t := if t.pttGroupStatus.status ≠ .idle then t.hangupPttCall.clear else t
  let t := if t.currentCallState.callState ≠ .idle then
      (t.handleCommand native .hangupCall).clearCall
    else t
  t.clearGroups

/-- `REG_NOT`: it is only forgotten. -/
def regNot (t : Terminal) : Terminal :=
  let t := if t.pttGroupStatus.status ≠ .idle then t.clear else t
  let t := if t.currentCallState.callState ≠ .idle then t.clearCall else t
  t.clearGroups

/-! ### Which reports are stored -/

/-- A failed call is stored unless it is a group's, or another call is about to be answered or
rejected. -/
def storesError (cs : CallState) (t : Terminal) : Bool :=
  (t.inSingleCall || !t.checkIsGroupNum cs.number) &&
    match t.currentCallState.callState with
    | .ringing | .rejecting => cs.errorCode = 486 && cs.callState = .ended
    | _ => true

/-- The reports that are done with when the call of a group was looked at. -/
def endsGroupCall (cs : CallState) (t : Terminal) : Bool :=
  match cs.callState, t.pttGroupStatus.status with
  | .ringing, .idle | .ringing, .free | .ringing, .applying | .ringing, .accepted
  | .ringing, .waiting | .ringing, .canceling | .ringing, .listening | .ringing, .rejected => true
  | .ended, .free | .ended, .accepted | .ended, .waiting => t.ePttKeyStatus = .up
  | .ended, .speaking => true
  | _, _ => false

/-- The report of a group's call that was not done with. -/
def storesGroupCall (cs : CallState) (t : Terminal) : Bool :=
  t.bForceInSC || !t.endsGroupCall cs && !t.isPttUIOnTop && (t.isSingleCallOnTop ||
    (t.ePttKeyStatus = .up && (t.pttGroupStatus.status = .free ||
      t.pttGroupStatus.status = .applying || t.pttGroupStatus.status = .idle)))

def storesCall (cs : CallState) (t : Terminal) : Bool :=
  if checkErrorCode cs.errorCode then t.storesError cs
  else if t.checkIsGroupNum cs.number then t.storesGroupCall cs
  else t.passesCall

/-- The record of the single call, the screens, the key and the groups are the same. -/
def SameDesk (t t' : Terminal) : Prop :=
  t'.currentCallState = t.currentCallState ∧ t'.bForceInSC = t.bForceInSC ∧ t'.ui = t.ui ∧
    t'.ePttKeyStatus = t.ePttKeyStatus ∧ t'.lstGroupData = t.lstGroupData

section
variable {native : ℤ} {t t' t'' : Terminal} {cs : CallState}

theorem SameDesk.refl (t : Terminal) : SameDesk t t := ⟨rfl, rfl, rfl, rfl, rfl⟩

theorem SameDesk.trans (h : SameDesk t t') (h' : SameDesk t' t'') : SameDesk t t'' :=
  ⟨h'.1.trans h.1, h'.2.1.trans h.2.1, h'.2.2.1.trans h.2.2.1, h'.2.2.2.1.trans h.2.2.2.1,
    h'.2.2.2.2.trans h.2.2.2.2⟩

theorem OnlyFloor.sameDesk (h : OnlyFloor t t') : SameDesk t t' := by
  unfold OnlyFloor at h
  rw [h]
  exact .refl _

theorem sameDesk_requestHangup (callId : ℤ) (t : Terminal) :
    SameDesk t (t.requestHangup callId) := by
  unfold requestHangup
  split <;> exact .refl _

theorem sameDesk_groupRinging (s : PttStatus) (cs : CallState) (t : Terminal) :
    SameDesk t (t.groupRinging s cs).2 := by
  cases s
  case init | busy | canceled | forbidden | speaking | closed =>
    show SameDesk t (if t.ePttKeyStatus ≠ .down then t.requestHangup cs.callId else t)
    split
    · exact sameDesk_requestHangup _ _
    · exact .refl _
  all_goals exact .refl _

theorem sameDesk_answerGroup (t : Terminal) : SameDesk t t.answerGroup := by
  obtain ⟨n, h⟩ := answerGroup_eq t
  rw [h]
  exact .refl _

theorem sameDesk_groupTalking (native : ℤ) (s : PttStatus) (cs : CallState) (t : Terminal) :
    SameDesk t (t.groupTalking native s cs) := by
  unfold groupTalking
  split
  · exact .refl _
  · split
    · have hs : SameDesk t t.answerGroup.answerSpeaker :=
        (sameDesk_answerGroup t).trans (onlyFloor_answerSpeaker _).sameDesk
      have hi : SameDesk t (t.answerGroup.answerSpeaker.setCallId cs.callId) := hs
      exact hi.trans (onlyFloor_updateOwn native _).sameDesk
    · exact (onlyFloor_hangupPttCall t).sameDesk

theorem sameDesk_groupEnded (native : ℤ) (s : PttStatus) (t : Terminal) :
    SameDesk t (t.groupEnded native s).2 := by
  have hu : ∀ t₁, SameDesk t t₁ → SameDesk t (t₁.updateOwnPttState native) := fun t₁ h =>
    h.trans (onlyFloor_updateOwn native t₁).sameDesk
  obtain he | he | ⟨-, he | he⟩ := groupEnded_cases native s t
  · rw [he]
    exact .refl _
  · rw [he]
    exact hu _ (.refl _)
  · rw [he]
    exact hu _ ((onlyFloor_cancelPttRight native t).trans (onlyFloor_setStatus _ _)).sameDesk
  · rw [he]
    exact hu _ (onlyFloor_setStatus _ t).sameDesk

theorem sameDesk_groupCall (native : ℤ) (s : PttStatus) (cs : CallState) (t : Terminal) :
    SameDesk t (t.groupCall native s cs).2 := by
  obtain ⟨i, hi⟩ := storeCall_eq cs t
  have hst : SameDesk t (t.storeCall cs) := by
    rw [hi]
    exact .refl _
  unfold groupCall
  dsimp only
  split
  · exact hst.trans (sameDesk_groupRinging s cs _)
  · exact hst.trans (sameDesk_groupTalking native s cs _)
  · exact hst.trans (sameDesk_groupEnded native s _)
  · exact hst

/-- The method is left for the group's call in the cases that `endsGroupCall` lists. -/
theorem groupCall_fst : (t.groupCall native t.pttGroupStatus.status cs).1 = t.endsGroupCall cs := by
  have hk : (t.storeCall cs).ePttKeyStatus = t.ePttKeyStatus := by
    obtain ⟨i, hi⟩ := storeCall_eq cs t
    rw [hi]
    rfl
  cases hc : cs.callState <;> cases hs : t.pttGroupStatus.status <;> cases hu : t.ePttKeyStatus <;>
    simp [groupCall, endsGroupCall, hc, hs, hu, hk, groupRinging, groupEnded]

/-- The report of a group's call that was not done with is the single call in few cases. -/
theorem otherCall_group (hg : t.checkIsGroupNum cs.number = true) (s : PttStatus) :
    (t.otherCall s cs).currentCallState =
      if !t.isPttUIOnTop && (t.isSingleCallOnTop || (t.ePttKeyStatus = .up && (s = .free ||
        s = .applying || s = .idle))) then t.keptCall cs else t.currentCallState := by
  have hkept : (t.jniUpdateCallState cs).currentCallState = t.keptCall cs := by
    rw [jniUpdateCallState_kept]
  unfold otherCall
  cases ht : t.isPttUIOnTop <;> cases hc : t.isSingleCallOnTop <;> cases hk : t.ePttKeyStatus <;>
    cases s <;> simp [hg, hkept]

theorem keptCall_sameDesk (h : SameDesk t t') (cs : CallState) :
    t'.keptCall cs = t.keptCall cs := by
  unfold keptCall
  rw [h.2.2.1]

theorem requestHangup_call (callId : ℤ) (p : Prop) [Decidable p] (t : Terminal) :
    (if p then t.requestHangup callId else t).currentCallState = t.currentCallState := by
  split
  · exact (sameDesk_requestHangup _ _).1
  · rfl

theorem showCallError_stored (cs : CallState) (t : Terminal) :
    (t.showCallError cs).currentCallState =
      if t.storesError cs then t.keptCall cs else t.currentCallState := by
  have hkept : (t.jniUpdateCallState cs).currentCallState = t.keptCall cs := by
    rw [jniUpdateCallState_kept]
  unfold showCallError
  dsimp only
  rw [requestHangup_call]
  unfold storesError
  cases hg : t.inSingleCall || !t.checkIsGroupNum cs.number with
  | true =>
    by_cases he : cs.errorCode = 486 ∧ cs.callState = .ended <;>
      cases hs : t.currentCallState.callState <;> simp [he, hkept]
  | false =>
    simp only [Bool.false_eq_true, if_false, Bool.false_and]
    split
    · split
      · split <;> rfl
      · rfl
    · rfl

theorem showCallState_group (native : ℤ) (he : checkErrorCode cs.errorCode = false)
    (hg : t.checkIsGroupNum cs.number = true) :
    (t.showCallState native cs).currentCallState =
      if t.storesGroupCall cs then t.keptCall cs else t.currentCallState := by
  set t₁ := t.note (.callState cs)
  have hg₁ : t₁.checkIsGroupNum cs.number = true := hg
  have hd := sameDesk_groupCall native t.pttGroupStatus.status cs t₁
  have hleft : (t₁.groupCall native t.pttGroupStatus.status cs).1 = t.endsGroupCall cs :=
    groupCall_fst (t := t₁)
  unfold showCallState storesGroupCall
  dsimp only
  rw [if_neg (by simp [he]), if_pos hg₁]
  cases hf : t.bForceInSC with
  | true =>
    rw [if_pos (show t₁.bForceInSC = true from hf), jniUpdateCallState_kept]
    rfl
  | false =>
    rw [if_neg (show ¬t₁.bForceInSC = true by simp [t₁, hf])]
    set g := t₁.groupCall native t.pttGroupStatus.status cs
    change (if g.1 = true then g.2 else g.2.otherCall t.pttGroupStatus.status cs).currentCallState = _
    rw [hleft]
    cases hend : t.endsGroupCall cs with
    | true => exact hd.1
    | false =>
      have hg₂ : g.2.checkIsGroupNum cs.number = true := by
        unfold checkIsGroupNum
        rw [hd.2.2.2.2]
        exact hg₁
      have hui : ∀ t₂ : Terminal, SameDesk t₁ t₂ → t₂.isPttUIOnTop = t.isPttUIOnTop ∧
          t₂.isSingleCallOnTop = t.isSingleCallOnTop ∧ t₂.ePttKeyStatus = t.ePttKeyStatus := by
        intro t₂ h
        unfold isPttUIOnTop isSingleCallOnTop
        rw [h.2.2.1, h.2.2.2.1]
        exact ⟨rfl, rfl, rfl⟩
      obtain ⟨h₁, h₂, h₃⟩ := hui _ hd
      simp only [Bool.false_eq_true, if_false]
      rw [otherCall_group hg₂, h₁, h₂, h₃, keptCall_sameDesk hd, hd.1]
      simp only [Bool.false_or, Bool.not_false, Bool.true_and]
      rfl

/-- In any state, a report becomes the single call where it is stored, and leaves it as it was where
it is not. -/
theorem showCallState_stored (native : ℤ) (cs : CallState) (t : Terminal) :
    (t.showCallState native cs).currentCallState =
      if t.storesCall cs then t.keptCall cs else t.currentCallState := by
  unfold storesCall
  cases he : checkErrorCode cs.errorCode with
  | true =>
    have h : t.showCallState native cs = (t.note (.callState cs)).showCallError cs := by
      unfold showCallState
      rw [if_pos he]
    rw [h, showCallError_stored]
    rfl
  | false =>
    cases hg : t.checkIsGroupNum cs.number with
    | false =>
      cases h : t.passesCall with
      | true => exact showCallState_kept hg he h
      | false => exact showCallState_dropped hg he h
    | true => exact showCallState_group native he hg

/-! ### Which commands clear the record -/

/-- A call that cannot be made, answered or hung up is forgotten. -/
def clearsCall (native : ℤ) (c : Command) (t : Terminal) : Bool :=
  !t.exitFlag && match c with
    | .makeCall number => number.isSome && !t.checkIsGroupNum number &&
        (!t.checkValidation false || native ≠ 0)
    | .answerCall | .hangupCall => 0 ≤ t.currentCallState.callId && native ≠ 0
    | _ => false

theorem checkResult_call (result : ℤ) (t : Terminal) :
    (t.checkResult result).currentCallState = t.currentCallState :=
  (onlyFloor_checkResult result t).currentCallState

theorem sameDesk_handleApply (native : ℤ) (t : Terminal) : SameDesk t (t.handleApply native) := by
  obtain ⟨b, hb⟩ := isbPttErrorShowing_eq t
  unfold handleApply
  dsimp only
  rw [hb]
  split
  · exact .refl _
  · split
    · exact .refl _
    · unfold applyPttRight
      split
      · exact .refl _
      · unfold requestApplyPttRight
        split
        · exact .refl _
        · dsimp only
          refine .trans ?_ (onlyFloor_checkResult _ _).sameDesk
          split <;> exact .refl _

theorem handleClose_call (t : Terminal) : t.handleClose.currentCallState = t.currentCallState := by
  unfold handleClose
  dsimp only
  split
  · exact (onlyFloor_hangupPttCall t).currentCallState
  · exact (onlyFloor_hangupPttCall t).currentCallState
  · exact (onlyFloor_hangupPttCall t).currentCallState
  · rfl

theorem sameDesk_handleHangup (t : Terminal) : SameDesk t t.handleHangup := by
  rw [handleHangup_eq]
  exact (onlyFloor_hangupPttCall _).sameDesk

theorem requestMakeCall_call (native : ℤ) (t : Terminal) :
    (t.requestMakeCall native).2.currentCallState = t.currentCallState := by
  unfold requestMakeCall
  split
  · rfl
  · exact checkResult_call native _

theorem requestMakeCall_fails (native : ℤ) (t : Terminal) :
    (t.requestMakeCall native).1 ≠ 0 ↔ (!t.checkValidation false || native ≠ 0) = true := by
  unfold requestMakeCall
  cases t.checkValidation false <;> simp

theorem handleMakeCall_callId (native : ℤ) (number : Option Bytes) (t : Terminal) :
    (t.handleMakeCall native number).currentCallState.callId =
      if number.isSome && !t.checkIsGroupNum number && (!t.checkValidation false || native ≠ 0) then 0
      else t.currentCallState.callId := by
  unfold handleMakeCall
  cases hn : number.isNone || t.checkIsGroupNum number with
  | true => cases number <;> simp_all
  | false =>
    have hs : (number.isSome && !t.checkIsGroupNum number) = true := by
      cases number <;> simp_all
    simp only [Bool.false_eq_true, if_false, hs, Bool.true_and]
    set t₁ : Terminal := { t with
      currentCallState.callState := .dialing
      currentCallState.number := number }
    have hf := requestMakeCall_fails native t₁
    have hv : t₁.checkValidation false = t.checkValidation false := rfl
    rw [hv] at hf
    by_cases h : (t₁.requestMakeCall native).1 ≠ 0
    · rw [if_pos h, if_pos (hf.mp h)]
      rfl
    · rw [if_neg h, if_neg (mt hf.mpr h), requestMakeCall_call]

theorem handleSingleCall_journal (native : ℤ) (e : ℤ → Entry) (t : Terminal) :
    (t.handleSingleCall native e).journal =
      if 0 ≤ t.currentCallState.callId then e t.currentCallState.callId :: t.journal else t.journal := by
  unfold handleSingleCall
  by_cases hi : t.currentCallState.callId < 0
  · simp [hi, not_le.mpr hi]
  · by_cases h0 : native = 0
    · simp [hi, h0, not_lt.mp hi]
    · simp [hi, h0, not_lt.mp hi, clearCall]

theorem handleSingleCall_callId (native : ℤ) (e : ℤ → Entry) (t : Terminal) :
    (t.handleSingleCall native e).currentCallState.callId =
      if 0 ≤ t.currentCallState.callId && native ≠ 0 then 0 else t.currentCallState.callId := by
  unfold handleSingleCall
  by_cases hi : t.currentCallState.callId < 0
  · simp [hi]
  · by_cases h0 : native = 0
    · simp [hi, h0]
    · simp [hi, h0, not_lt.mp hi]

/-- A command leaves the id of the single call, unless it clears the record. -/
theorem handleCommand_callId (native : ℤ) (c : Command) (t : Terminal) :
    (t.handleCommand native c).currentCallState.callId =
      if t.clearsCall native c then 0 else t.currentCallState.callId := by
  unfold handleCommand clearsCall
  cases hx : t.exitFlag with
  | true => rfl
  | false =>
    cases c with
    | makeCall number => exact handleMakeCall_callId native number t
    | answerCall => exact handleSingleCall_callId native .requestAnswer t
    | hangupCall => exact handleSingleCall_callId native .requestHangup t
    | applyPttRight => exact congrArg CallState.callId (sameDesk_handleApply native t).1
    | cancelPttRight =>
      exact congrArg CallState.callId (onlyFloor_cancelPttRight native _).currentCallState
    | hangupPttCall => exact congrArg CallState.callId (sameDesk_handleHangup t).1
    | closePtt => exact congrArg CallState.callId (handleClose_call t)
    | openPttUi =>
      obtain ⟨b, hb⟩ := isbPttErrorShowing_eq t
      simp only [Bool.false_eq_true, if_false, hb]
      split <;> rfl
    | updatePttUi =>
      obtain ⟨b, hb⟩ := isbPttErrorShowing_eq t
      simp only [Bool.false_eq_true, if_false, hb]
      rfl
    | startApp => rfl
    | sendDtmf => rfl

/-! ### Where the id becomes zero -/

theorem makeCall_callId (native : ℤ) (number : Bytes) (t : Terminal) :
    (t.makeCall native number).currentCallState.callId =
      if number.isEmpty then t.currentCallState.callId else 0 := by
  unfold makeCall
  split
  · rfl
  · exact congrArg CallState.callId (requestMakeCall_call native _)

theorem onDestroy_callId (t : Terminal) :
    t.onDestroy.currentCallState.callId = if t.keepsScreen then t.currentCallState.callId else 0 := by
  unfold onDestroy
  split <;> rfl

theorem regError_callId (native : ℤ) (t : Terminal) :
    (t.regError native).currentCallState.callId =
      if t.currentCallState.callState = .idle then t.currentCallState.callId else 0 := by
  have hf :
    (if t.pttGroupStatus.status ≠ .idle then t.hangupPttCall.clear else t).currentCallState =
      t.currentCallState := by
    split
    · exact (onlyFloor_hangupPttCall t).currentCallState
    · rfl
  unfold regError
  dsimp only
  rw [hf]
  by_cases hi : t.currentCallState.callState = .idle
  · rw [if_pos hi, if_neg (not_not.mpr hi)]
    exact congrArg CallState.callId hf
  · rw [if_neg hi, if_pos hi]
    rfl

theorem regNot_callId (t : Terminal) :
    t.regNot.currentCallState.callId =
      if t.currentCallState.callState = .idle then t.currentCallState.callId else 0 := by
  have hf : (if t.pttGroupStatus.status ≠ .idle then t.clear else t).currentCallState =
      t.currentCallState := by
    split <;> rfl
  unfold regNot
  dsimp only
  rw [hf]
  by_cases hi : t.currentCallState.callState = .idle
  · rw [if_pos hi, if_neg (not_not.mpr hi)]
    exact congrArg CallState.callId hf
  · rw [if_neg hi, if_pos hi]
    rfl

end

end Terminal

/-! ### The desk -/

/-- What the user acts on. -/
inductive Target where
  /-- The call with this id and number, which was reported. -/
  | call (callId : ℤ) (number : Option Bytes)
  /-- The number on the screen, for which no call was reported yet. -/
  | dialled (number : Option Bytes)
  /-- A call that has ended since. -/
  | ended
  deriving Repr, DecidableEq

/-- What becomes of a target with a report. -/
def Target.after (cs : CallState) (single : Bool) : Target → Target
  | .call callId number =>
    if cs.callId = callId ∧ ¬(single ∧ cs.number = number) then .ended else .call callId number
  | .dialled number =>
    if single ∧ cs.number = number then .call cs.callId number else .dialled number
  | .ended => .ended

/-- A command on its way to the service. -/
inductive Queued where
  | hangup (target : Target)
  | answer (target : Target)
  | other (c : Command)
  deriving Repr, DecidableEq

namespace Queued

def command : Queued → Command
  | .hangup _ => .hangupCall
  | .answer _ => .answerCall
  | .other c => c

def target : Queued → Option Target
  | .hangup target | .answer target => some target
  | .other _ => none

def after (cs : CallState) (single : Bool) : Queued → Queued
  | .hangup target => .hangup (target.after cs single)
  | .answer target => .answer (target.after cs single)
  | .other c => .other c

end Queued

/-- The id that was requested, what the user acted on, and whether the id was that of a single call
that was alive. -/
structure Request where
  callId : ℤ
  target : Target
  alive : Bool
  deriving Repr, DecidableEq

def Request.inOrder (r : Request) : Bool :=
  r.alive && match r.target with
    | .call callId _ => callId = r.callId
    | _ => false

/-- `calls` are the ids and numbers of the single calls that are alive. -/
structure CallDesk where
  terminal : Terminal
  queue : List Queued := []
  calls : List (ℤ × Option Bytes) := []
  requests : List Request := []
  deriving Repr, DecidableEq

namespace CallDesk

/-- What is on the screen. -/
def target (d : CallDesk) : Target :=
  let cs := d.terminal.currentCallState
  if (cs.callId, cs.number) ∈ d.calls then .call cs.callId cs.number else .dialled cs.number

/-- The report of a call that is alive and not a group's. -/
def single (d : CallDesk) (cs : CallState) : Bool :=
  cs.callState.isActive && !d.terminal.checkIsGroupNum cs.number

def showCallState (native : ℤ) (cs : CallState) (d : CallDesk) : CallDesk :=
  let others := d.calls.filter fun c => c.1 ≠ cs.callId
  { d with
    terminal := d.terminal.showCallState native cs
    queue := d.queue.map (Queued.after cs (d.single cs))
    calls := if d.single cs then (cs.callId, cs.number) :: others else others }

/-- The service asks for the stored call to be hung up or answered, if it can be. -/
def asks (d : CallDesk) : Bool := !d.terminal.exitFlag && 0 ≤ d.terminal.currentCallState.callId

def request (target : Target) (d : CallDesk) : CallDesk :=
  if d.asks then
    let callId := d.terminal.currentCallState.callId
    { d with requests := ⟨callId, target, d.calls.any fun c => c.1 = callId⟩ :: d.requests }
  else d

/-- The calls that are noted as requested are those that the service asks for. -/
theorem request_iff_noted (native : ℤ) (target : Target) (d : CallDesk) :
    (d.request target).requests.length = d.requests.length + 1 ↔
      (d.terminal.handleCommand native .hangupCall).journal =
        .requestHangup d.terminal.currentCallState.callId :: d.terminal.journal := by
  have hj := Terminal.handleSingleCall_journal native .requestHangup d.terminal
  unfold request Terminal.handleCommand asks
  cases hx : d.terminal.exitFlag with
  | true => simp
  | false =>
    by_cases hi : 0 ≤ d.terminal.currentCallState.callId
    · simp [hi, hj]
    · simp [hi, hj]

def handle (native : ℤ) (q : Queued) (d : CallDesk) : CallDesk :=
  let d := match q.target with
    | some target => d.request target
    | none => d
  { d with terminal := d.terminal.handleCommand native q.command }

/-- Commands come by broadcast and by intent, so that any of those on their way may be next. -/
def deliver (k : ℕ) (native : ℤ) (d : CallDesk) : CallDesk :=
  match d.queue[k]? with
  | none => d
  | some q => { d with queue := d.queue.eraseIdx k }.handle native q

def hangup (d : CallDesk) : CallDesk :=
  if d.terminal.mayHangup then
    { d with terminal := d.terminal.hangup, queue := d.queue ++ [.hangup d.target] }
  else d

def answer (d : CallDesk) : CallDesk :=
  { d with terminal := d.terminal.answer, queue := d.queue ++ [.answer d.target] }

def regError (native : ℤ) (d : CallDesk) : CallDesk :=
  let d' := if d.terminal.currentCallState.callState ≠ .idle then d.request d.target else d
  { d' with terminal := d.terminal.regError native }

end CallDesk

inductive DeskEvent where
  | makeCall (native : ℤ) (number : Bytes)
  | showCallState (native : ℤ) (cs : CallState)
  | answer
  | hangup
  | onDestroy
  | sendCommand (c : Command)
  | deliver (k : ℕ) (native : ℤ)
  | regError (native : ℤ)
  | regNot
  | showUi (ui : Ui)
  deriving Repr, DecidableEq

namespace DeskEvent

def handle (d : CallDesk) : DeskEvent → CallDesk
  | .makeCall native number => { d with terminal := d.terminal.makeCall native number }
  | .showCallState native cs => d.showCallState native cs
  | .answer => d.answer
  | .hangup => d.hangup
  | .onDestroy => { d with terminal := d.terminal.onDestroy }
  | .sendCommand c => { d with queue := d.queue ++ [.other c] }
  | .deliver k native => d.deliver k native
  | .regError native => d.regError native
  | .regNot => { d with terminal := d.terminal.regNot }
  | .showUi ui => { d with terminal.ui := ui }

/-- The commands to answer and to hang up come from the screen only. -/
def enabled : DeskEvent → Bool
  | .sendCommand c => c ≠ .answerCall && c ≠ .hangupCall
  | _ => true

end DeskEvent

/-- The service has started, and no call was made or reported. -/
def CallDesk.Fresh (d : CallDesk) : Prop :=
  d.terminal.Fresh ∧ d.queue = [] ∧ d.calls = [] ∧ d.requests = []

def callDesk : System CallDesk DeskEvent where
  init := CallDesk.Fresh
  enabled _ e := e.enabled
  next d e := e.handle d

instance (d : CallDesk) (e : DeskEvent) : Decidable (callDesk.enabled d e) :=
  inferInstanceAs (Decidable (e.enabled = true))

theorem fresh_desk : CallDesk.Fresh { terminal := .ready } := ⟨fresh_ready, rfl, rfl, rfl⟩

end PttTerminal
