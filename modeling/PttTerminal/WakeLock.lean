import PttTerminal.GroupStatus
import PttTerminal.Library.Runs

/-!
# The wake lock

The conversation screen and the call screen keep the phone awake with one lock between them, which
each takes when it comes to the front, and either lets go of for both. The first time the lock is
asked for only the processor is kept awake; asked for again, the keyguard is disabled. A message of
the conversation screen's timer may still arrive when the screen is gone.
-/
namespace PttTerminal

open Runs

structure Power where
  /-- `sPttWakeLock`, which is held whenever it is there. -/
  wakeLock : Bool := false
  keyguardLock : Bool := false
  /-- `PTTActivity` is in front, with its receiver registered. -/
  pttResumed : Bool := false
  /-- `InCallScreenActivity` came to the front and was not stopped since. -/
  callStarted : Bool := false
  /-- The timer of the conversation screen runs. -/
  timer : Bool := false
  /-- The messages of the timer that were not handled yet. -/
  messages : ℕ := 0
  status : PttStatus := .idle
  deriving Repr, DecidableEq

namespace Power

def acquireWakeLock (s : Power) : Power :=
  if !s.wakeLock then { s with wakeLock := true }
  else if !s.keyguardLock then { s with keyguardLock := true }
  else s

def releaseWakeLock (s : Power) : Power := { s with wakeLock := false, keyguardLock := false }

def cancelTimer (s : Power) : Power := { s with timer := false }

/-- A screen that is not on top starts its timer anew. -/
def dynamicShowMsg (onTop : Bool) (s : Power) : Power :=
  let s := if !s.pttResumed || !onTop then s.cancelTimer else s
  { s with timer := true }

/-- The statuses while something is being waited for. -/
def isPending : PttStatus → Bool
  | .applying | .init | .accepted => true
  | _ => false

/-- The screen that is to be closed only finishes. -/
def getPttStatus (mbye onTop : Bool) (s : Power) : Power :=
  if mbye then s
  else
    let s := s.acquireWakeLock
    if isPending s.status then s.dynamicShowMsg onTop else s.cancelTimer

def pttOnResume (onTop : Bool) (s : Power) : Power :=
  { s with pttResumed := true }.acquireWakeLock.getPttStatus false onTop

def pttOnPause (s : Power) : Power :=
  { s.releaseWakeLock.cancelTimer with pttResumed := false }

/-- A message of the timer: once somebody speaks, the screen is shown again. -/
def handleMessage (onTop : Bool) (s : Power) : Power :=
  let s := { s with messages := s.messages - 1 }
  if s.status = .speaking ∨ s.status = .listening then (s.getPttStatus false onTop).cancelTimer
  else s

def callOnResume (s : Power) : Power := { s with callStarted := true }.acquireWakeLock

def callOnStop (s : Power) : Power := { s.releaseWakeLock with callStarted := false }

end Power

inductive PowerEvent where
  | pttOnResume (onTop : Bool)
  | pttOnPause
  /-- A broadcast that the conversation screen receives. -/
  | onReceive (mbye onTop : Bool)
  | timerTask
  | handleMessage (onTop : Bool)
  | setStatus (status : PttStatus)
  | callOnResume
  | callOnStop
  /-- The call screen is destroyed when there is no call. -/
  | callOnDestroy
  /-- `StateManager.reset`, when the service or the main page ends. -/
  | reset
  deriving Repr, DecidableEq

namespace PowerEvent

def next (s : Power) : PowerEvent → Power
  | pttOnResume onTop => s.pttOnResume onTop
  | pttOnPause => s.pttOnPause
  | onReceive mbye onTop => s.getPttStatus mbye onTop
  | timerTask => { s with messages := s.messages + 1 }
  | handleMessage onTop => s.handleMessage onTop
  | setStatus status => { s with status := status }
  | callOnResume => s.callOnResume
  | callOnStop => s.callOnStop
  | callOnDestroy => s.releaseWakeLock
  | reset => s.releaseWakeLock

def enabled (s : Power) : PowerEvent → Bool
  | pttOnResume _ => !s.pttResumed
  | pttOnPause => s.pttResumed
  | onReceive _ _ => s.pttResumed
  | timerTask => s.timer
  | handleMessage _ => 0 < s.messages
  | callOnStop => s.callStarted
  | callOnDestroy => !s.callStarted
  | _ => true

end PowerEvent

def power : System Power PowerEvent where
  init s := s = {}
  enabled s e := e.enabled s = true
  next := PowerEvent.next

namespace Power

variable {s : Power}

/-- The lock is held just while one of the two screens needs it. -/
def Awake (s : Power) : Prop := s.wakeLock = true ↔ s.pttResumed = true ∨ s.callStarted = true

/-- What holds whatever the screens do: the keyguard goes with the lock, and the timer with the
screen. -/
structure Tidy (s : Power) : Prop where
  keyguard : s.keyguardLock = true → s.wakeLock = true
  timer : s.timer = true → s.pttResumed = true

@[simp]
theorem acquireWakeLock_wakeLock : s.acquireWakeLock.wakeLock = true := by
  unfold acquireWakeLock
  split_ifs with h
  · rfl
  · simpa using h
  · simpa using h

/-- Neither asking for the lock nor showing the screen changes which screens are there. -/
theorem acquireWakeLock_screens : s.acquireWakeLock.pttResumed = s.pttResumed ∧
    s.acquireWakeLock.callStarted = s.callStarted ∧ s.acquireWakeLock.timer = s.timer ∧
    s.acquireWakeLock.status = s.status := by
  unfold acquireWakeLock
  split_ifs <;> exact ⟨rfl, rfl, rfl, rfl⟩

theorem dynamicShowMsg_eq (onTop : Bool) (s : Power) :
    s.dynamicShowMsg onTop = { s with timer := true } := by
  unfold dynamicShowMsg
  split_ifs <;> rfl

/-- The screen that is shown asks for the lock, and its timer runs while something is waited for. -/
theorem getPttStatus_eq (onTop : Bool) (s : Power) :
    s.getPttStatus false onTop = { s.acquireWakeLock with timer := isPending s.status } := by
  have hstatus := s.acquireWakeLock_screens.2.2.2
  change (if isPending s.acquireWakeLock.status = true then s.acquireWakeLock.dynamicShowMsg onTop
    else s.acquireWakeLock.cancelTimer) = _
  rw [hstatus]
  cases isPending s.status with
  | true => rw [if_pos rfl, dynamicShowMsg_eq]
  | false => rfl

end Power

/-- The events after which the lock is as the screens need it. -/
def PowerEvent.KeepsAwake (s : Power) : PowerEvent → Prop
  | .pttOnPause => s.callStarted = false
  | .callOnStop => s.pttResumed = false
  | .callOnDestroy | .reset => s.pttResumed = false ∧ s.callStarted = false
  | .handleMessage _ => s.status = .speaking ∨ s.status = .listening →
      s.pttResumed = true ∨ s.callStarted = true
  | _ => True

namespace Power

variable {s : Power}

/-- A message that finds somebody speaking asks for the lock, whoever is in front. -/
theorem handleMessage_eq (onTop : Bool) (s : Power)
    (h : s.status = .speaking ∨ s.status = .listening) : s.handleMessage onTop =
      { { s with messages := s.messages - 1 }.acquireWakeLock with timer := false } := by
  unfold handleMessage
  rw [if_pos h, getPttStatus_eq]
  rfl

theorem Tidy.acquire (h : s.Tidy) : s.acquireWakeLock.Tidy := by
  obtain ⟨hptt, -, htimer, -⟩ := s.acquireWakeLock_screens
  exact ⟨fun _ => acquireWakeLock_wakeLock, by rw [hptt, htimer]; exact h.timer⟩

theorem Tidy.release (h : s.Tidy) : s.releaseWakeLock.Tidy := ⟨fun h' => (by cases h'), h.timer⟩

/-- Showing the screen while it is in front. -/
theorem Tidy.shown (h : s.Tidy) (hfront : s.pttResumed = true) (mbye onTop : Bool) :
    (s.getPttStatus mbye onTop).Tidy := by
  cases mbye with
  | true => exact h
  | false =>
    rw [getPttStatus_eq]
    refine ⟨h.acquire.keyguard, fun _ => ?_⟩
    change s.acquireWakeLock.pttResumed = true
    rw [s.acquireWakeLock_screens.1, hfront]

theorem Tidy.next (h : s.Tidy) {e : PowerEvent} (he : e.enabled s = true) : (e.next s).Tidy := by
  cases e with
  | pttOnResume onTop =>
    have hfront : Tidy { s with pttResumed := true } := ⟨h.keyguard, fun _ => rfl⟩
    refine hfront.acquire.shown ?_ false onTop
    rw [acquireWakeLock_screens.1]
  | pttOnPause => exact ⟨fun h' => (by cases h'), fun h' => (by cases h')⟩
  | onReceive mbye onTop => exact h.shown he mbye onTop
  | timerTask => exact ⟨h.keyguard, h.timer⟩
  | handleMessage onTop =>
    by_cases hspeaks : s.status = .speaking ∨ s.status = .listening
    · rw [PowerEvent.next, handleMessage_eq onTop s hspeaks]
      exact ⟨fun _ => acquireWakeLock_wakeLock, fun h' => by cases h'⟩
    · rw [PowerEvent.next, handleMessage, if_neg hspeaks]
      exact ⟨h.keyguard, h.timer⟩
  | setStatus status => exact ⟨h.keyguard, h.timer⟩
  | callOnResume =>
    have hstarted : Tidy { s with callStarted := true } := ⟨h.keyguard, h.timer⟩
    exact hstarted.acquire
  | callOnStop => exact ⟨fun h' => (by cases h'), h.timer⟩
  | callOnDestroy => exact h.release
  | reset => exact h.release

/-- Once the lock was asked for, it is held as it should be just when a screen is there. -/
theorem awake_acquired {t : Power} (hlock : t.wakeLock = true) :
    t.Awake ↔ t.pttResumed = true ∨ t.callStarted = true := by simp [Awake, hlock]

theorem awake_released {t : Power} (hlock : t.wakeLock = false) :
    t.Awake ↔ t.pttResumed = false ∧ t.callStarted = false := by simp [Awake, hlock]

/-- Each event keeps the lock as the screens need it, or breaks that. -/
theorem awake_next_iff (h : s.Awake) {e : PowerEvent} (he : e.enabled s = true) :
    (e.next s).Awake ↔ e.KeepsAwake s := by
  cases e with
  | pttOnResume onTop =>
    refine iff_of_true ?_ trivial
    rw [PowerEvent.next, pttOnResume, getPttStatus_eq]
    refine (awake_acquired acquireWakeLock_wakeLock).mpr (.inl ?_)
    rw [acquireWakeLock_screens.1, acquireWakeLock_screens.1]
  | pttOnPause =>
    rw [PowerEvent.next, awake_released rfl]
    exact ⟨fun h' => h'.2, fun h' => ⟨rfl, h'⟩⟩
  | onReceive mbye onTop =>
    refine iff_of_true ?_ trivial
    cases mbye with
    | true => exact h
    | false =>
      rw [PowerEvent.next, getPttStatus_eq]
      refine (awake_acquired acquireWakeLock_wakeLock).mpr (.inl ?_)
      rw [acquireWakeLock_screens.1]
      exact he
  | timerTask => exact iff_of_true h trivial
  | handleMessage onTop =>
    by_cases hspeaks : s.status = .speaking ∨ s.status = .listening
    · rw [PowerEvent.next, handleMessage_eq onTop s hspeaks]
      refine (awake_acquired acquireWakeLock_wakeLock).trans ?_
      rw [acquireWakeLock_screens.1, acquireWakeLock_screens.2.1]
      exact ⟨fun h' _ => h', fun h' => h' hspeaks⟩
    · rw [PowerEvent.next, handleMessage, if_neg hspeaks]
      exact iff_of_true h fun h' => absurd h' hspeaks
  | setStatus status => exact iff_of_true h trivial
  | callOnResume =>
    refine iff_of_true ?_ trivial
    rw [PowerEvent.next, callOnResume, awake_acquired acquireWakeLock_wakeLock,
      acquireWakeLock_screens.2.1]
    exact .inr rfl
  | callOnStop =>
    rw [PowerEvent.next, awake_released rfl]
    exact ⟨fun h' => h'.1, fun h' => ⟨h', rfl⟩⟩
  | callOnDestroy => exact awake_released rfl
  | reset => exact awake_released rfl

end Power

/-- Whatever the screens do, the keyguard goes with the lock and the timer with its screen; and the
lock is held just while a screen needs it in the runs in which no screen goes while the other one is
there, and none is shown by a message when both are gone. -/
theorem runs_awake {s : Power} (hs : power.init s) {es : List PowerEvent}
    (hes : power.Allowed (fun _ _ => True) s es) :
    (power.run s es).Tidy ∧
    (power.Allowed PowerEvent.KeepsAwake s es ↔ ∀ es', es' <+: es → (power.run s es').Awake) := by
  obtain rfl : s = {} := hs
  constructor
  · have hreached : power.Reached (fun _ _ => True) (power.run {} es) := System.reached_run rfl hes
    refine hreached.invariant (fun s hs => ?_) fun s e h he _ => h.next he
    obtain rfl : s = {} := hs
    exact ⟨fun h => (by cases h), fun h => (by cases h)⟩
  · apply System.allowed_iff (P := Power.Awake) (Q := Power.Awake) (fun _ h => h) _ _ _ hes
    · exact fun s e h he hok => (Power.awake_next_iff h he).mpr hok
    · exact fun s e h he hok => mt (Power.awake_next_iff h he).mp hok
    · simp [Power.Awake]

instance (s : Power) (e : PowerEvent) : Decidable (power.enabled s e) :=
  inferInstanceAs (Decidable (e.enabled s = true))

instance (s : Power) : (e : PowerEvent) → Decidable (e.KeepsAwake s)
  | .pttOnPause => inferInstanceAs (Decidable (s.callStarted = false))
  | .callOnStop => inferInstanceAs (Decidable (s.pttResumed = false))
  | .callOnDestroy | .reset =>
    inferInstanceAs (Decidable (s.pttResumed = false ∧ s.callStarted = false))
  | .handleMessage _ => inferInstanceAs (Decidable (s.status = .speaking ∨ s.status = .listening →
      s.pttResumed = true ∨ s.callStarted = true))
  | .pttOnResume _ | .onReceive _ _ | .timerTask | .setStatus _ | .callOnResume => isTrue trivial

/-- A conversation that is put aside for a call and comes back once the call screen is gone. -/
def conversationAndCall : List PowerEvent :=
  [.setStatus .applying, .pttOnResume true, .timerTask, .pttOnPause, .callOnResume,
    .handleMessage true, .callOnStop, .callOnDestroy, .setStatus .speaking, .pttOnResume true,
    .onReceive true true, .pttOnPause, .reset]

theorem conversationAndCall_awake : (power.run {} conversationAndCall).Tidy ∧
    (power.Allowed PowerEvent.KeepsAwake {} conversationAndCall ↔
      ∀ es', es' <+: conversationAndCall → (power.run {} es').Awake) :=
  runs_awake rfl (by decide)

end PttTerminal
