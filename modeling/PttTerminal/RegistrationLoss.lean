import PttTerminal.GroupManager

/-!
# Losing and forcing a registration

When the registration is lost, or is forced anew, the session, the single call and the groups are
forgotten. A forced registration takes a call that is not idle for the proof that its screen exists,
and a successful one takes the alert on top for the proof that the alert exists. Both screens are
started first and created later, and the field that is read is set when they are created.
-/
namespace PttTerminal

open Runs

/-! ### The screens -/

/-- An object of an activity, from its creation on. -/
structure ActivityObject where
  finishing : Bool := false
  destroyed : Bool := false
  deriving Repr, DecidableEq

/-- An activity that has one unfinished object at most: the objects there were, the static field
`instance`, and whether it was started and is to be created. -/
structure ActivityLife where
  objects : List ActivityObject := []
  current : Option ℕ := none
  opening : Bool := false
  deriving Repr, DecidableEq

namespace ActivityLife

def object (a : ActivityLife) (k : ℕ) : ActivityObject := a.objects.getD k { destroyed := true }

def setObject (k : ℕ) (o : ActivityObject) (a : ActivityLife) : ActivityLife :=
  { a with objects := a.objects.set k o }

/-- An object that is not finishing is brought to the front instead. -/
def start (a : ActivityLife) : ActivityLife :=
  { a with opening := a.opening || a.objects.all ActivityObject.finishing }

def create (a : ActivityLife) : ActivityLife where
  objects := a.objects ++ [{}]
  current := some a.objects.length
  opening := false

def finish (k : ℕ) (a : ActivityLife) : ActivityLife :=
  a.setObject k { a.object k with finishing := true }

/-- `instance.finish()`, if there is one. -/
def finishCurrent (a : ActivityLife) : ActivityLife :=
  match a.current with
  | some k => a.finish k
  | none => a

def destroy (k : ℕ) (a : ActivityLife) : ActivityLife :=
  a.setObject k { a.object k with destroyed := true }

/-- The activity may be on top: from its start on, and until it is finished. -/
def shown (a : ActivityLife) : Bool := a.opening || a.objects.any fun o => !o.finishing

end ActivityLife

/-! ### The application -/

/-- The service, the screens and the activity on top. Then whether a null pointer was read, and
whether the last event took the registration away. -/
structure LineApp where
  service : GroupService := {}
  inCall : ActivityLife := {}
  alert : ActivityLife := {}
  topActivity : Screen := .other
  pttActivity : Bool := false
  fault : Bool := false
  lost : Bool := false

/-- What `JNIUpdateRegisterState` is called with; `native` is the result of the hang-up of a call
when the registration failed. -/
inductive RegisterState where
  | regError (native : ℤ)
  | regEd
  | regNot
  | other
  deriving Repr, DecidableEq

inductive LineEvent where
  | dial (native : ℤ) (strNum : Bytes)
  | showCallState (native : ℤ) (cs : CallState)
  /-- The events of the terminal but for its calls and screens. -/
  | floor (e : Event)
  | memberInfo (groupNum : Bytes) (members : List MemberEntry)
  | clearNumMemberMap
  | answer (k : ℕ)
  | hangup (k : ℕ)
  /-- The user leaves the call for the session of a group. -/
  | openPtt (k : ℕ)
  | createInCall
  | finishInCall (k : ℕ)
  | destroyInCall (k : ℕ)
  | startAlert
  | createAlert
  | finishAlert (k : ℕ)
  | destroyAlert (k : ℕ)
  | showTop (top : Screen) (pttActivity : Bool)
  | handleRegister (bForce : Bool)
  | jniUpdateRegisterState (state : RegisterState)
  deriving Repr, DecidableEq

namespace LineApp

/-- The terminal with its screens. -/
def terminal (s : LineApp) : Terminal :=
  { s.service.terminal with ui := ⟨s.topActivity, s.pttActivity, s.inCall.current.isSome⟩ }

def setTerminal (t : Terminal) (s : LineApp) : LineApp :=
  { s with service := { s.service with terminal := t } }

/-- What is finished is no longer on top. -/
def settleTop (s : LineApp) : LineApp :=
  match s.topActivity with
  | .inCall => if s.inCall.shown then s else { s with topActivity := .other }
  | .alert => if s.alert.shown then s else { s with topActivity := .other }
  | _ => s

/-- `CallStateManager.closeCallUI`. -/
def closeCallUI (s : LineApp) : LineApp := { s with inCall := s.inCall.finishCurrent }.settleTop

def finishAlert (s : LineApp) : LineApp := { s with alert := s.alert.finishCurrent }.settleTop

def openSingleCallUI (s : LineApp) : LineApp :=
  let s := s.finishAlert
  if s.terminal.exitFlag then s else { s with inCall := s.inCall.start }

/-! ### The registration -/

/-- `PTTService.handleRegister`. The log of the call is saved by the screen, which has to exist. -/
def handleRegister (bForce : Bool) (s : LineApp) : Option LineApp :=
  if !bForce then some s
  else
    let t := s.terminal
    let s := if t.pttGroupStatus.status ≠ .idle then s.setTerminal t.clear else s
    let t := s.terminal
    let closed : Option LineApp :=
      if t.currentCallState.callState ≠ .idle then
        match s.inCall.current with
        | none => none
        | some _ => some (s.closeCallUI.setTerminal t.clearCall)
      else some s
    closed.map fun s => { s with service := s.service.clear }

/-- The session, the call and the groups are forgotten, and the screen of the call is closed. -/
def forget (t : Terminal) (s : LineApp) : LineApp :=
  let s := if s.terminal.currentCallState.callState ≠ .idle then s.closeCallUI else s
  { s with service := { terminal := t, groupNumMebersMap := ∅ } }

def jniUpdateRegisterState (state : RegisterState) (s : LineApp) : Option LineApp :=
  match state with
  | .regError native => some (s.forget (s.terminal.regError native))
  | .regNot => some (s.forget s.terminal.regNot)
  | .regEd =>
    if s.alert.current.isSome ∨ s.topActivity = .alert then
      match s.alert.current with
      | none => none
      | some _ => some s.finishAlert
    else some s
  | .other => some s

/-! ### The calls -/

/-- `DialActivity.makeCall`. -/
def dial (native : ℤ) (strNum : Bytes) (s : LineApp) : LineApp :=
  let t := s.terminal.makeCall native strNum
  if strNum.isEmpty then s else { s.setTerminal t with inCall := s.inCall.start }

/-- The report is stored and opens the screen. -/
def opensScreen (cs : CallState) (s : LineApp) : Bool :=
  s.terminal.storesCall cs && match cs.callState with
    | .ringing => true
    | .dialing => s.terminal.bForceInSC
    | .talking => s.inCall.current.isNone
    | _ => false

def showCallState (native : ℤ) (cs : CallState) (s : LineApp) : LineApp :=
  let s' := s.setTerminal (s.terminal.showCallState native cs)
  if s.opensScreen cs then s'.openSingleCallUI else s'

/-- A call that cannot be answered or hung up is forgotten, and its screen is closed. -/
def commandCloses (native : ℤ) (t : Terminal) : Bool :=
  match t.commands.head? with
  | some .answerCall | some .hangupCall =>
    !t.exitFlag && 0 ≤ t.currentCallState.callId && native ≠ 0 && t.isSingleCallOnTop
  | _ => false

def floor (e : Event) (s : LineApp) : LineApp :=
  match e with
  | .receiveGroupInfo native gs =>
    { s with
      service := ({ s.service with terminal := s.terminal }.jniAddGroupInfo native (some gs)).service }
  | .deliver native =>
    let s' := s.setTerminal (s.terminal.deliver native)
    if commandCloses native s.terminal then s'.closeCallUI else s'
  | e => s.setTerminal (e.handle s.terminal)

/-- The screen of the call is closed by itself. -/
def finishInCall (k : ℕ) (s : LineApp) : LineApp := { s with inCall := s.inCall.finish k }.settleTop

def answer (s : LineApp) : LineApp :=
  s.setTerminal (s.terminal.answer.sendPttCommand .answerCall)

def hangup (k : ℕ) (s : LineApp) : LineApp :=
  let t := s.terminal
  if t.currentCallState.callId < 0 then s
  else if t.mayHangup then (s.setTerminal (t.hangup.sendPttCommand .hangupCall)).finishInCall k
  else s.finishInCall k

/-- The dialog of an indication: the call is taken for ended. -/
def openPtt (k : ℕ) (s : LineApp) : LineApp :=
  (s.setTerminal { s.terminal with currentCallState.callState := .ended }).finishInCall k

/-- `InCallScreenActivity.onDestroy` is ignored while the call goes on. -/
def destroyInCall (k : ℕ) (s : LineApp) : LineApp :=
  let s := { s with inCall := s.inCall.destroy k }
  if s.terminal.keepsScreen then s
  else { s.setTerminal s.terminal.clearCall with inCall.current := none }

def destroyAlert (k : ℕ) (s : LineApp) : LineApp :=
  { s with alert := { s.alert.destroy k with current := none } }.setTerminal
    (s.terminal.setBPttErrorShowing false)

end LineApp

namespace LineEvent

open LineApp

/-- `none` when a null pointer is read. -/
def handle (s : LineApp) : LineEvent → Option LineApp
  | .dial native strNum => some (s.dial native strNum)
  | .showCallState native cs => some (s.showCallState native cs)
  | .floor e => some (s.floor e)
  | .memberInfo groupNum members =>
    some { s with service := (s.service.jniReceiveMemberInfo groupNum members).2 }
  | .clearNumMemberMap => some { s with service := s.service.clearNumMemberMap }
  | .answer _ => some s.answer
  | .hangup k => some (s.hangup k)
  | .openPtt k => some (s.openPtt k)
  | .createInCall => some { s with inCall := s.inCall.create }
  | .finishInCall k => some (s.finishInCall k)
  | .destroyInCall k => some (s.destroyInCall k)
  | .startAlert => some { s with alert := s.alert.start }
  | .createAlert => some { s with alert := s.alert.create }
  | .finishAlert k => some { s with alert := s.alert.finish k }.settleTop
  | .destroyAlert k => some (s.destroyAlert k)
  | .showTop top pttActivity => some { s with topActivity := top, pttActivity := pttActivity }
  | .handleRegister bForce => s.handleRegister bForce
  | .jniUpdateRegisterState state => s.jniUpdateRegisterState state

/-- The registration is forced, or lost. -/
def loses : LineEvent → Bool
  | .handleRegister bForce => bForce
  | .jniUpdateRegisterState (.regError _) | .jniUpdateRegisterState .regNot => true
  | _ => false

/-- A screen is created after its start, and is on top no later than its end. -/
def possible (s : LineApp) : LineEvent → Bool
  | .floor e => (match e with
    | .showCallState _ _ | .showUi _ | .setSingleCall _ | .leaveSingleCall _ | .clearSingleCall => false
    | e => e.enabled s.terminal)
  | .answer k | .hangup k | .openPtt k | .finishInCall k | .destroyInCall k =>
    !(s.inCall.object k).destroyed
  | .createInCall => s.inCall.opening
  | .createAlert => s.alert.opening
  | .finishAlert k | .destroyAlert k => !(s.alert.object k).destroyed
  | .showTop .inCall _ => s.inCall.shown
  | .showTop .alert _ => s.alert.shown
  | _ => true

/-- Nothing follows on a null pointer. -/
def step (s : LineApp) (e : LineEvent) : LineApp :=
  match e.handle s with
  | none => { s with fault := true }
  | some s' => { s' with lost := e.loses }

/-- The screens that are read exist: that of a call that is not idle, and that of the alert on top. -/
def fits (s : LineApp) : LineEvent → Bool
  | .handleRegister true =>
    s.terminal.currentCallState.callState = .idle || s.inCall.current.isSome
  | .jniUpdateRegisterState .regEd => s.topActivity ≠ .alert || s.alert.current.isSome
  | _ => true

end LineEvent

/-- No session, no call, no group and no members. -/
def LineApp.cleared (s : LineApp) : Bool :=
  s.terminal.pttGroupStatus.status = .idle && s.terminal.currentCallState.callState = .idle &&
    s.service.lstGroupData.isEmpty && s.service.groupNumMebersMap.size = 0

/-- No null pointer was read, and a registration that was just lost has left nothing. -/
def LineApp.InOrder (s : LineApp) : Prop := s.fault = false ∧ (s.lost = true → s.cleared = true)

def lineApp : System LineApp LineEvent where
  init s := s.service.terminal.Fresh ∧ s = { service := { terminal := s.service.terminal } }
  enabled s e := s.fault = false ∧ e.possible s = true
  next := LineEvent.step

instance (s : LineApp) (e : LineEvent) : Decidable (lineApp.enabled s e) :=
  inferInstanceAs (Decidable (s.fault = false ∧ e.possible s = true))

/-! ### What a step does -/

namespace LineApp

variable {s s' : LineApp} {e : LineEvent}

theorem settleTop_eq (s : LineApp) : ∃ top, s.settleTop = { s with topActivity := top } := by
  unfold settleTop
  split
  · split_ifs
    · exact ⟨_, rfl⟩
    · exact ⟨_, rfl⟩
  · split_ifs
    · exact ⟨_, rfl⟩
    · exact ⟨_, rfl⟩
  · exact ⟨_, rfl⟩

@[simp]
theorem settleTop_fault (s : LineApp) : s.settleTop.fault = s.fault := by
  obtain ⟨top, h⟩ := settleTop_eq s
  rw [h]

@[simp]
theorem settleTop_service (s : LineApp) : s.settleTop.service = s.service := by
  obtain ⟨top, h⟩ := settleTop_eq s
  rw [h]

@[simp]
theorem closeCallUI_fault (s : LineApp) : s.closeCallUI.fault = s.fault := settleTop_fault _

@[simp]
theorem finishAlert_fault (s : LineApp) : s.finishAlert.fault = s.fault := settleTop_fault _

@[simp]
theorem finishInCall_fault (k : ℕ) (s : LineApp) : (s.finishInCall k).fault = s.fault :=
  settleTop_fault _

@[simp]
theorem setTerminal_fault (t : Terminal) (s : LineApp) : (s.setTerminal t).fault = s.fault := rfl

theorem forget_fault (t : Terminal) (s : LineApp) : (s.forget t).fault = s.fault := by
  unfold forget
  split_ifs
  · exact closeCallUI_fault s
  · rfl

/-- The state when the session was closed. -/
def closeSession (s : LineApp) : LineApp :=
  if s.terminal.pttGroupStatus.status ≠ .idle then s.setTerminal s.terminal.clear else s

theorem closeSession_eq (s : LineApp) : s.closeSession.terminal.pttGroupStatus.status = .idle ∧
    s.closeSession.terminal.currentCallState = s.terminal.currentCallState ∧
    s.closeSession.inCall = s.inCall ∧ s.closeSession.fault = s.fault := by
  unfold closeSession
  by_cases h : s.terminal.pttGroupStatus.status ≠ .idle
  · rw [if_pos h]
    exact ⟨rfl, rfl, rfl, rfl⟩
  · rw [if_neg h]
    exact ⟨not_not.mp h, rfl, rfl, rfl⟩

theorem handleRegister_force (s : LineApp) : s.handleRegister true =
    if s.closeSession.terminal.currentCallState.callState ≠ .idle then
      match s.inCall.current with
      | none => none
      | some _ => some { s.closeSession.closeCallUI with
          service := (s.closeSession.setTerminal s.closeSession.terminal.clearCall).service.clear }
    else some { s.closeSession with service := s.closeSession.service.clear } := by
  have hcurrent := (closeSession_eq s).2.2.1
  unfold handleRegister
  rw [if_neg (by simp)]
  change Option.map _ (if s.closeSession.terminal.currentCallState.callState ≠ .idle then
    match s.closeSession.inCall.current with
    | none => none
    | some _ => some (s.closeSession.closeCallUI.setTerminal s.closeSession.terminal.clearCall)
    else some s.closeSession) = _
  rw [hcurrent]
  by_cases h : s.closeSession.terminal.currentCallState.callState ≠ .idle
  · rw [if_pos h, if_pos h]
    cases s.inCall.current with
    | none => rfl
    | some k =>
      simp only [Option.map_some, Option.some_inj]
      unfold setTerminal GroupService.clear closeCallUI
      simp
  · rw [if_neg h, if_neg h]
    rfl

/-- A forced registration reads the screen of a call that is not idle. -/
theorem handleRegister_eq_none (s : LineApp) : s.handleRegister true = none ↔
    LineEvent.fits s (.handleRegister true) = false := by
  rw [handleRegister_force, (closeSession_eq s).2.1]
  by_cases h : s.terminal.currentCallState.callState = .idle
  · rw [if_neg (not_not.mpr h)]
    simp [LineEvent.fits, h]
  · rw [if_pos h]
    cases hcurrent : s.inCall.current <;> simp [LineEvent.fits, h, hcurrent]

theorem handleRegister_clears (h : s.handleRegister true = some s') :
    s'.fault = s.fault ∧ s'.cleared = true := by
  obtain ⟨hstatus, -, -, hfault⟩ := closeSession_eq s
  rw [handleRegister_force] at h
  by_cases hidle : s.closeSession.terminal.currentCallState.callState = .idle
  · rw [if_neg (not_not.mpr hidle)] at h
    cases h
    refine ⟨hfault, ?_⟩
    have hcleared := hidle
    simp only [terminal] at hstatus hcleared
    simp [cleared, terminal, GroupService.clear, GroupService.lstGroupData, Terminal.clearGroups,
      hstatus, hcleared]
  · rw [if_pos hidle] at h
    cases hcurrent : s.inCall.current with
    | none => simp [hcurrent] at h
    | some k =>
      rw [hcurrent] at h
      cases h
      refine ⟨(closeCallUI_fault _).trans hfault, ?_⟩
      simp only [terminal] at hstatus
      simp [cleared, terminal, GroupService.clear, GroupService.lstGroupData, Terminal.clearGroups,
        setTerminal, hstatus]

theorem regEd_eq_none (s : LineApp) : s.jniUpdateRegisterState .regEd = none ↔
    LineEvent.fits s (.jniUpdateRegisterState .regEd) = false := by
  simp only [jniUpdateRegisterState]
  cases hcurrent : s.alert.current with
  | none => by_cases htop : s.topActivity = .alert <;> simp [LineEvent.fits, hcurrent, htop]
  | some k => simp [LineEvent.fits, hcurrent]

theorem handleHangupCall_status (native : ℤ) (t : Terminal) :
    (t.handleCommand native .hangupCall).pttGroupStatus = t.pttGroupStatus := by
  unfold Terminal.handleCommand
  by_cases hexit : t.exitFlag = true
  · rw [if_pos hexit]
  · rw [if_neg hexit]
    obtain h | ⟨c, b, h⟩ := Terminal.handleSingleCall_eq native .requestHangup t
    · exact congrArg Terminal.pttGroupStatus h
    · refine (congrArg Terminal.pttGroupStatus h).trans ?_
      rfl

theorem regError_idle (native : ℤ) (t : Terminal) :
    (t.regError native).pttGroupStatus.status = .idle ∧
      (t.regError native).currentCallState.callState = .idle ∧
      (t.regError native).lstGroupData = [] := by
  set u := if t.pttGroupStatus.status ≠ .idle then t.hangupPttCall.clear else t with hu
  have hidle : u.pttGroupStatus.status = .idle := by
    rw [hu]
    split_ifs with h
    · rfl
    · exact not_not.mp h
  change (Terminal.clearGroups (if u.currentCallState.callState ≠ .idle then
    (u.handleCommand native .hangupCall).clearCall else u)).pttGroupStatus.status = .idle ∧
    (Terminal.clearGroups (if u.currentCallState.callState ≠ .idle then
    (u.handleCommand native .hangupCall).clearCall else u)).currentCallState.callState = .idle ∧ _
  by_cases hcall : u.currentCallState.callState = .idle
  · rw [if_neg (not_not.mpr hcall)]
    exact ⟨hidle, hcall, rfl⟩
  · rw [if_pos hcall]
    refine ⟨?_, rfl, rfl⟩
    rw [← hidle, ← handleHangupCall_status native u]
    rfl

theorem regNot_idle (t : Terminal) : t.regNot.pttGroupStatus.status = .idle ∧
    t.regNot.currentCallState.callState = .idle ∧ t.regNot.lstGroupData = [] := by
  unfold Terminal.regNot
  by_cases hstatus : t.pttGroupStatus.status = .idle
  · by_cases hcall : t.currentCallState.callState = .idle
    · simp [hstatus, hcall, Terminal.clearGroups]
    · simp [hstatus, hcall, Terminal.clearGroups]
  · by_cases hcall : t.currentCallState.callState = .idle
    · simp [hstatus, hcall, Terminal.clearGroups]
    · simp [hstatus, hcall, Terminal.clearGroups]

theorem forget_cleared {t : Terminal} (h : t.pttGroupStatus.status = .idle ∧
    t.currentCallState.callState = .idle ∧ t.lstGroupData = []) (s : LineApp) :
    (s.forget t).cleared = true := by
  simp [cleared, forget, terminal, GroupService.lstGroupData, h.1, h.2.1, h.2.2]

/-! ### The steps -/

theorem floor_fault (ev : Event) (s : LineApp) : (s.floor ev).fault = s.fault := by
  unfold floor
  split
  · rfl
  · dsimp only
    split_ifs
    · exact closeCallUI_fault _
    · rfl
  · rfl

theorem showCallState_fault (native : ℤ) (cs : CallState) (s : LineApp) :
    (s.showCallState native cs).fault = s.fault := by
  unfold showCallState openSingleCallUI
  dsimp only
  split_ifs <;> simp

theorem hangup_fault (k : ℕ) (s : LineApp) : (s.hangup k).fault = s.fault := by
  unfold hangup
  dsimp only
  split_ifs <;> simp

theorem dial_fault (native : ℤ) (strNum : Bytes) (s : LineApp) :
    (s.dial native strNum).fault = s.fault := by
  unfold dial
  dsimp only
  split_ifs <;> rfl

theorem destroyInCall_fault (k : ℕ) (s : LineApp) : (s.destroyInCall k).fault = s.fault := by
  unfold destroyInCall
  dsimp only
  split_ifs <;> rfl

/-- An event that is handled reads no null pointer. -/
theorem handle_fault (h : e.handle s = some s') : s'.fault = s.fault := by
  cases e with
  | dial native strNum => cases h; exact dial_fault native strNum s
  | showCallState native cs => cases h; exact showCallState_fault native cs s
  | floor ev => cases h; exact floor_fault ev s
  | hangup k => cases h; exact hangup_fault k s
  | openPtt k => cases h; exact finishInCall_fault k _
  | finishInCall k => cases h; exact finishInCall_fault k s
  | destroyInCall k => cases h; exact destroyInCall_fault k s
  | finishAlert k => cases h; exact settleTop_fault _
  | handleRegister bForce =>
    cases bForce with
    | false => cases h; rfl
    | true => exact (handleRegister_clears h).1
  | jniUpdateRegisterState state =>
    cases state with
    | regError native => cases h; exact forget_fault _ s
    | regNot => cases h; exact forget_fault _ s
    | regEd =>
      simp only [LineEvent.handle, jniUpdateRegisterState] at h
      split_ifs at h
      · cases hcurrent : s.alert.current with
        | none => simp [hcurrent] at h
        | some k =>
          rw [hcurrent] at h
          cases h
          exact finishAlert_fault s
      · cases h
        rfl
    | other => cases h; rfl
  | _ => cases h; rfl

/-- One that loses the registration leaves no call, no floor and no group. -/
theorem handle_cleared (h : e.handle s = some s') (hloses : e.loses = true) :
    s'.cleared = true := by
  cases e with
  | handleRegister bForce =>
    cases bForce with
    | false => cases hloses
    | true => exact (handleRegister_clears h).2
  | jniUpdateRegisterState state =>
    cases state with
    | regError native => cases h; exact forget_cleared (regError_idle native _) s
    | regNot => cases h; exact forget_cleared (regNot_idle _) s
    | regEd | other => cases hloses
  | _ => cases hloses

theorem handle_eq_none : e.handle s = none ↔ e.fits s = false := by
  cases e with
  | handleRegister bForce =>
    cases bForce with
    | false => simp [LineEvent.handle, handleRegister, LineEvent.fits]
    | true => exact handleRegister_eq_none s
  | jniUpdateRegisterState state =>
    cases state with
    | regEd => exact regEd_eq_none s
    | _ => simp [LineEvent.handle, jniUpdateRegisterState, LineEvent.fits]
  | _ => simp [LineEvent.handle, LineEvent.fits]

/-- A step is in order exactly when the screens that it reads exist. -/
theorem step_inOrder (h : s.InOrder) : (e.step s).InOrder ↔ e.fits s = true := by
  unfold LineEvent.step
  cases hrun : e.handle s with
  | none => simp [InOrder, handle_eq_none.mp hrun]
  | some s' =>
    have hfits : e.fits s = true := by
      by_contra hfits
      simp [handle_eq_none.mpr (by simpa using hfits)] at hrun
    have hcleared : e.loses = true → s'.cleared = true := handle_cleared hrun
    exact iff_of_true ⟨(handle_fault hrun).trans h.1, hcleared⟩ hfits

end LineApp

/-- In every run, no null pointer is read and each loss of the registration leaves nothing, exactly
as long as the screens that are read exist. -/
theorem runs_registrationLost {s : LineApp} {es : List LineEvent} (hinit : lineApp.init s)
    (hes : lineApp.Allowed (fun _ _ => True) s es) :
    lineApp.Allowed (fun s e => e.fits s = true) s es ↔
      ∀ es', es' <+: es → (lineApp.run s es').InOrder := by
  have hstart : s.InOrder := by
    rw [hinit.2]
    exact ⟨rfl, fun h => absurd h Bool.false_ne_true⟩
  exact System.allowed_iff (P := LineApp.InOrder) (fun _ h => h)
    (fun _ _ h _ hfits => (LineApp.step_inOrder h).mpr hfits)
    (fun _ _ h _ hfits hbad => hfits ((LineApp.step_inOrder h).mp hbad)) hstart hes

/-- The screen of a call that was dialled is created before the registration is forced, and an alert
before the registration comes back. -/
def screensCreated : List LineEvent :=
  [.dial 0 (ascii "200"), .createInCall, .handleRegister true, .startAlert, .createAlert,
    .showTop .alert false, .jniUpdateRegisterState .regEd]

theorem screens_created_inOrder : (lineApp.run { service := { terminal := .ready } }
    screensCreated).InOrder :=
  (runs_registrationLost ⟨fresh_ready, rfl⟩ (by decide +kernel)).mp (by decide +kernel) _ List.prefix_rfl

/-- The registration is forced when a call was dialled whose screen is not created yet, or comes back
when an alert is on top that is not. -/
theorem screens_missing :
    (lineApp.Allowed (fun _ _ => True) { service := { terminal := .ready } }
        [.dial 0 (ascii "200"), .handleRegister true] ∧
      ¬ (lineApp.run { service := { terminal := .ready } }
        [.dial 0 (ascii "200"), .handleRegister true]).InOrder) ∧
    lineApp.Allowed (fun _ _ => True) { service := { terminal := .ready } }
        [.startAlert, .showTop .alert false, .jniUpdateRegisterState .regEd] ∧
      ¬ (lineApp.run { service := { terminal := .ready } }
        [.startAlert, .showTop .alert false, .jniUpdateRegisterState .regEd]).InOrder :=
  ⟨⟨by decide +kernel, fun h => absurd h.1 (by decide +kernel)⟩, by decide +kernel,
    fun h => absurd h.1 (by decide +kernel)⟩

end PttTerminal
