import PttTerminal.MulticastSession

/-!
# The calls of the native code

Several calls may exist at the same time. One of them is `current_call`, which moves on to the next
active call when it ends. Each change of a call is shown to the application by `show_call_state`,
which passes over the end of a call that is not the current one, and over an end while somebody
speaks in another group than the one that was dialled. A confirmed call has a timer that goes off
again and again; all the timers share one counter, which is reset by every request.
-/
namespace PttTerminal

open Runs

inductive InvState where
  | null
  | calling
  | incoming
  | early
  | connecting
  | confirmed
  | disconnected
  deriving Repr, DecidableEq

/-- The states of a call that the application is shown. -/
inductive EnumCallState where
  | idle
  | dailing
  | ringback
  | ringing
  | talking
  | ending
  | error
  deriving Repr, DecidableEq

structure CallReport where
  callId : ℕ
  number : Bytes
  callState : EnumCallState
  errorCode : ℤ
  deriving Repr, DecidableEq

/-- A place for a call: the state of its session, if there is one, and whether its timer runs. -/
structure CallSlot where
  inv : Option InvState := none
  timer : Bool := false
  deriving Repr, DecidableEq

/-- What a multicast packet says. A packet that came another way leaves the record as it was
allocated, all zero: the type of the heartbeat and no list. -/
inductive MulticastSignal where
  | heartbeat (header : List Bytes)
  | info
  | invite (inv : MulticastInvite)
  | bye (callId : Bytes)
  | memberState
  deriving Repr, DecidableEq

def MulticastSignal.zero : MulticastSignal := .heartbeat []

/-- What the native code is called for. `remoteInfo` is the address of the other party. -/
inductive CallEvent where
  | incoming (callId : ℕ) (remoteInfo : Bytes) (lastStatus : ℤ)
  | state (callId : ℕ) (state : InvState) (remoteInfo : Bytes) (lastStatus : ℤ)
  | expiry (callId : ℕ) (remoteInfo : Bytes)
  /-- `terminated` holds when hanging up the current call finds its session over; `host` is the
  address of the account from its `@` on. -/
  | makeCall (number : Bytes) (terminated : Bool) (host : Option Bytes)
  | makeCallSipUri (sipUri : Bytes) (terminated : Bool)
  | request (o : Outside) (signal : MulticastSignal)
  | session (e : NativeEvent)
  | signalTimer
  deriving Repr, DecidableEq

/-- An event, whether it was about the current call, and what the application was shown. -/
structure CallRecord where
  event : CallEvent
  current : Bool
  shown : Option CallReport
  deriving Repr, DecidableEq

/-- The session of the groups and the calls; there are as many places as calls are allowed. -/
structure NativeApp where
  info : PttInfo
  calls : List CallSlot
  currentCall : Option ℕ := none
  destNum : Bytes := []
  sipcallTimerCount : ℕ := 0
  pttTimerCount : ℕ := 0
  fault : Option Fault := none
  journal : List CallRecord := []

/-! ### The number in an address -/

/-- The text from the first `c` on. -/
def strchr (c : UInt8) (s : Bytes) : Option Bytes :=
  match s.dropWhile (· ≠ c) with
  | [] => none
  | r => some r

/-- `%.*s`: a negative precision is none. -/
def printPrecision (precision : ℤ) (s : Bytes) : Bytes :=
  if precision < 0 then s else s.take precision.toNat

/-- The text behind the first colon, without leading blanks, up to the first `@`; both have to be
there. When the `@` stands in front, the length is negative. -/
def uriNumber (text : Bytes) : Option Bytes :=
  match strchr 58 (cString text), strchr 64 (cString text) with
  | some p1, some p2 =>
    let p1 := p1.tail.dropWhile (· = 32)
    some (printPrecision ((p1.length : ℤ) - p2.length) p1)
  | _, _ => none

/-- A text that is printed into a buffer has to leave room for the NUL. -/
def sprintf (size : ℕ) (text : Bytes) : Except Fault Bytes :=
  if text.length < size then .ok text else .error .overflow

/-- The number of the other party, in a buffer of 32 bytes. -/
def inNumber (remoteInfo : Bytes) : Except Fault Bytes :=
  sprintf 32 ((uriNumber remoteInfo).getD (cString remoteInfo))

namespace NativeApp

/-! ### The table of calls -/

def slot (app : NativeApp) (i : ℕ) : CallSlot := app.calls.getD i {}

/-- `pjsua_call_is_active`. -/
def isActive (app : NativeApp) (i : ℕ) : Bool :=
  match (app.slot i).inv with
  | none => false
  | some st => st ≠ .disconnected

def setInv (i : ℕ) (inv : Option InvState) (app : NativeApp) : NativeApp :=
  { app with calls := app.calls.set i { app.slot i with inv := inv } }

def setTimer (i : ℕ) (timer : Bool) (app : NativeApp) : NativeApp :=
  { app with calls := app.calls.set i { app.slot i with timer := timer } }

/-- `pjsua_call_get_count`. -/
def callCount (app : NativeApp) : ℕ := app.calls.countP (·.inv.isSome)

/-- The active call behind the current one, or the first one in front of it. -/
def findNextCall (app : NativeApp) : NativeApp :=
  let i := app.currentCall.elim 0 (· + 1)
  let behind := (List.range' i (app.calls.length - i)).find? app.isActive
  let front := (List.range (app.currentCall.getD 0)).find? app.isActive
  { app with currentCall := behind.or front }

/-! ### Showing a call -/

/-- What is shown when a call has ended: nothing when another call is the current one, and nothing
while somebody speaks in another group than the one that was dialled. Without a group the number is
read through the null pointer. -/
def showEnding (report : CallReport) (app : NativeApp) :
    Except Fault (Option CallReport × NativeApp) :=
  if app.currentCall ≠ none ∧ app.currentCall ≠ some report.callId then .ok (none, app)
  else
    let tmp := app.destNum
    let app := { app with destNum := [] }
    if app.info.pttState = .busy then do
      let (_, cur) ← app.info.deref app.info.gCurrentGroup
      return if strncmpEq tmp cur.val.number then (some report, app) else (none, app)
    else .ok (some report, app)

/-- What is shown; the number of an incoming call is kept. -/
def showCallState (callId : ℕ) (number : Bytes) (invState : InvState) (errorCode : ℤ)
    (app : NativeApp) : Except Fault (Option CallReport × NativeApp) :=
  let report (s : EnumCallState) : CallReport := ⟨callId, number, s, errorCode⟩
  match invState with
  | .null => .ok (some (report .idle), app)
  | .calling => .ok (some (report .dailing), app)
  | .incoming => .ok (some (report .ringing), { app with destNum := number })
  | .confirmed => .ok (some (report .talking), app)
  | .disconnected => app.showEnding (report .ending)
  | .early | .connecting => .ok (none, app)

/-! ### The callbacks -/

/-- Stopping a timer resets the counter of all of them. -/
def stopTimer (callId : ℕ) (app : NativeApp) : NativeApp :=
  if (app.slot callId).timer then { app with sipcallTimerCount := 0 }.setTimer callId false
  else app

/-- A call that ends stops its timer, and the next call becomes the current one. -/
def endCall (callId : ℕ) (app : NativeApp) : NativeApp :=
  let app := app.stopTimer callId
  if app.currentCall = some callId then app.findNextCall else app

/-- Without a current call this one becomes it. -/
def claimCurrent (callId : ℕ) (app : NativeApp) : NativeApp :=
  if app.currentCall = none then { app with currentCall := some callId } else app

/-- A confirmed call starts its timer. -/
def goOn (callId : ℕ) (state : InvState) (app : NativeApp) : NativeApp :=
  let app := if state = .confirmed then app.setTimer callId true else app
  app.claimCurrent callId

/-- The session of the call is in `state` by now. -/
def onCallState (callId : ℕ) (state : InvState) (remoteInfo : Bytes) (lastStatus : ℤ)
    (app : NativeApp) : Except Fault (Option CallReport × NativeApp) := do
  let app := if state = .disconnected then app.endCall callId else app.goOn callId state
  let number ← inNumber remoteInfo
  if state = .incoming then return (none, app)
  else app.showCallState callId number state lastStatus

/-- The session of a call moves on; it is gone after its end. -/
def callState (callId : ℕ) (state : InvState) (remoteInfo : Bytes) (lastStatus : ℤ)
    (app : NativeApp) : Except Fault (Option CallReport × NativeApp) := do
  let (shown, app) ←
    (app.setInv callId (some state)).onCallState callId state remoteInfo lastStatus
  return (shown, if state = .disconnected then app.setInv callId none else app)

def onIncomingCall (callId : ℕ) (remoteInfo : Bytes) (lastStatus : ℤ) (app : NativeApp) :
    Except Fault (Option CallReport × NativeApp) := do
  let app := (app.setInv callId (some .incoming)).claimCurrent callId
  let number ← inNumber remoteInfo
  app.showCallState callId number .incoming lastStatus

/-- The timer of a call goes off. It is started again until the counter reaches nine; then the error
504 is shown. -/
def callTimeoutCallback (callId : ℕ) (remoteInfo : Bytes) (app : NativeApp) :
    Except Fault (Option CallReport × NativeApp) := do
  let app := { app with sipcallTimerCount := app.sipcallTimerCount + 1 }
  if app.sipcallTimerCount < 9 then return (none, app)
  else
    let app := { app with sipcallTimerCount := 0 }.setTimer callId false
    let number ← inNumber remoteInfo
    app.showCallState callId number .disconnected 504

/-- The number is kept, the current call is hung up and the media are closed. The new call itself
comes with its states. -/
def makeCall (number : Bytes) (terminated : Bool) (host : Option Bytes) (app : NativeApp) :
    Except Fault NativeApp := do
  let number ← sprintf 64 number
  let app := { app with destNum := number }
  let app := if terminated then { app with currentCall := none } else app
  match host with
  | none => return app
  | some host => do
    let _ ← sprintf 64 (ascii "sip:" ++ number ++ host)
    return { app with info := pttCloseMedia app.info }

def makeCallSipUri (sipUri : Bytes) (terminated : Bool) (app : NativeApp) :
    Except Fault NativeApp := do
  let _ ← sprintf 64 sipUri
  let app := if terminated then { app with currentCall := none } else app
  return { app with info := pttCloseMedia app.info }

/-- The signals but for the counters. Those of members are only shown. -/
def onSignal (o : Outside) (app : NativeApp) : MulticastSignal → Except Fault PttInfo
  | .heartbeat header => multicastHeartbeat header app.info
  | .invite inv =>
    multicastInvite { o with callCount := app.callCount, destNumber := app.destNum } inv app.info
  | .bye callId => .ok (multicastBye callId app.info)
  | .info | .memberState => .ok app.info

/-- Every request resets both counters, and none is left to other modules. -/
def multicastModOnRxRequest (o : Outside) (signal : MulticastSignal) (app : NativeApp) :
    Except Fault (Bool × NativeApp) := do
  let app := { app with pttTimerCount := 0, sipcallTimerCount := 0 }
  let info ← app.onSignal o signal
  return (true, { app with info := info })

/-- `ptt_signal_timer_cb` as far as its counter. -/
def pttSignalTimerCb (app : NativeApp) : NativeApp :=
  let count := app.pttTimerCount + 1
  { app with pttTimerCount := if count = 9 then 0 else count }

end NativeApp

/-! ### The system -/

namespace CallEvent

def callId : CallEvent → Option ℕ
  | .incoming c _ _ | .state c _ _ _ | .expiry c _ => some c
  | _ => none

/-- What the event shows, and the new state. -/
def handle (app : NativeApp) : CallEvent → Except Fault (Option CallReport × NativeApp)
  | .incoming c remoteInfo lastStatus => app.onIncomingCall c remoteInfo lastStatus
  | .state c st remoteInfo lastStatus => app.callState c st remoteInfo lastStatus
  | .expiry c remoteInfo => app.callTimeoutCallback c remoteInfo
  | .makeCall number terminated host => (app.makeCall number terminated host).map (none, ·)
  | .makeCallSipUri sipUri terminated => (app.makeCallSipUri sipUri terminated).map (none, ·)
  | .request o signal => (app.multicastModOnRxRequest o signal).map fun r => (none, r.2)
  | .session e => (e.step app.info).map fun info => (none, { app with info := info })
  | .signalTimer => .ok (none, app.pttSignalTimerCb)

/-- A call has its place in the table, only a timer that runs goes off, and the signals come as
requests. -/
def possible (app : NativeApp) : CallEvent → Bool
  | .incoming c _ _ | .state c _ _ _ => c < app.calls.length
  | .expiry c _ => (app.slot c).timer
  | .session (.invite _ _) | .session (.bye _) | .session (.heartbeat _) => false
  | _ => true

def record (app : NativeApp) (shown : Option CallReport) (e : CallEvent) : CallRecord :=
  ⟨e, e.callId.any fun c => app.currentCall = some c, shown⟩

/-- A handler that does not come back leaves its event in the journal, and nothing follows. -/
def step (app : NativeApp) (e : CallEvent) : NativeApp :=
  match e.handle app with
  | .ok (shown, app') => { app' with journal := e.record app shown :: app.journal }
  | .error f => { app with fault := some f, journal := e.record app none :: app.journal }

/-- What the application is shown by the step. -/
def shown (app : NativeApp) (e : CallEvent) : Option CallReport :=
  match e.handle app with
  | .ok (shown, _) => shown
  | .error _ => none

theorem step_journal (app : NativeApp) (e : CallEvent) :
    (e.step app).journal = e.record app (e.shown app) :: app.journal := by
  unfold step shown
  cases e.handle app <;> rfl

end CallEvent

def nativeApp : System NativeApp CallEvent where
  init app := ∃ udpCreate n, app = { info := .initial udpCreate, calls := List.replicate n {} }
  enabled app e := app.fault = none ∧ e.possible app = true
  next := CallEvent.step

instance (app : NativeApp) (e : CallEvent) : Decidable (nativeApp.enabled app e) :=
  inferInstanceAs (Decidable (app.fault = none ∧ e.possible app = true))

end PttTerminal
