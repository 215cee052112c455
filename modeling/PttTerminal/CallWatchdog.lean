import Mathlib.Data.List.GetD
import PttTerminal.CallEndings
import PttTerminal.Library.Journals

/-!
# The watchdog of a call

The timer of a confirmed call is meant to show an error after going off nine times in a row while
the server is silent. All timers count with one counter, so that this holds of the runs in which
they do not get in each other's way.
-/
namespace PttTerminal

open Runs Journals

/-! ### The counter and the timers -/

/-- The timers that run, and the counter that they share. -/
structure Watch where
  timer : ℕ → Bool
  count : ℕ

namespace Watch

variable {w : Watch} {e : CallEvent}

/-- Below nine the timer starts again. -/
def expire (c : ℕ) (w : Watch) : Watch :=
  if w.count + 1 < 9 then { w with count := w.count + 1 }
  else { timer := Function.update w.timer c false, count := 0 }

def stop (c : ℕ) (w : Watch) : Watch :=
  if w.timer c then { timer := Function.update w.timer c false, count := 0 } else w

def next (w : Watch) : CallEvent → Watch
  | .expiry c _ => w.expire c
  | .state c .confirmed _ _ => { w with timer := Function.update w.timer c true }
  | .state c .disconnected _ _ => w.stop c
  | .request _ _ => { w with count := 0 }
  | _ => w

theorem next_count (h : w.count ≤ 8) : (w.next e).count ≤ 8 := by
  unfold next expire stop
  split
  · split
    · dsimp only
      omega
    · exact Nat.zero_le 8
  · exact h
  · split
    · exact Nat.zero_le 8
    · exact h
  · exact Nat.zero_le 8
  · exact h

end Watch

namespace NativeApp

variable {app app' : NativeApp} {c : ℕ} {shown : Option CallReport}

def watch (app : NativeApp) : Watch := ⟨fun i => (app.slot i).timer, app.sipcallTimerCount⟩

theorem watch_setInv (c : ℕ) (inv : Option InvState) (app : NativeApp) :
    (app.setInv c inv).watch = app.watch := by
  have h : ∀ i, ((app.setInv c inv).slot i).timer = (app.slot i).timer := by
    intro i
    by_cases hi : i = c
    · subst hi
      by_cases hlen : i < app.calls.length <;> simp [setInv, slot, hlen]
    · rw [slot_setInv_ne hi]
  simp only [watch, h]
  rfl

theorem watch_setTimer (hc : c < app.calls.length) (timer : Bool) :
    (app.setTimer c timer).watch = { app.watch with
      timer := Function.update app.watch.timer c timer } := by
  have h : ∀ i, ((app.setTimer c timer).slot i).timer =
      Function.update app.watch.timer c timer i := by
    intro i
    by_cases hi : i = c
    · subst hi
      simp [setTimer, slot, hc]
    · rw [slot_setTimer_ne hi, Function.update_of_ne hi]
      rfl
  simp only [watch, h]
  rfl

theorem watch_stopTimer (hc : c < app.calls.length) :
    (app.stopTimer c).watch = app.watch.stop c := by
  unfold stopTimer Watch.stop
  by_cases htimer : (app.slot c).timer = true
  · rw [if_pos htimer, if_pos (show app.watch.timer c = true from htimer),
      watch_setTimer (show c < ({ app with sipcallTimerCount := 0 } : NativeApp).calls.length from
        hc)]
    rfl
  · rw [if_neg htimer, if_neg (show ¬app.watch.timer c = true from htimer)]

theorem watch_claimCurrent (c : ℕ) (app : NativeApp) : (app.claimCurrent c).watch = app.watch := by
  unfold claimCurrent
  split <;> rfl

theorem watch_endCall (hc : c < app.calls.length) : (app.endCall c).watch = app.watch.stop c := by
  unfold endCall
  dsimp only
  split
  · exact watch_stopTimer hc
  · exact watch_stopTimer hc

theorem watch_goOn (hc : c < app.calls.length) (st : InvState) : (app.goOn c st).watch =
    if st = .confirmed then { app.watch with timer := Function.update app.watch.timer c true }
    else app.watch := by
  unfold goOn
  rw [watch_claimCurrent]
  split
  · exact watch_setTimer hc true
  · rfl

theorem watch_showEnding {report : CallReport} (h : app.showEnding report = .ok (shown, app')) :
    app'.watch = app.watch := by
  unfold showEnding at h
  split_ifs at h
  · cases h
    rfl
  · dsimp only at h
    split_ifs at h
    · obtain ⟨cur, -, h⟩ := bind_eq_ok.mp h
      split_ifs at h <;> cases h <;> rfl
    · cases h
      rfl

theorem watch_showCallState {number : Bytes} {st : InvState} {errorCode : ℤ}
    (h : app.showCallState c number st errorCode = .ok (shown, app')) : app'.watch = app.watch := by
  cases st with
  | disconnected => exact watch_showEnding h
  | _ =>
    cases h
    rfl

theorem watch_onCallState {st : InvState} {remoteInfo : Bytes} {lastStatus : ℤ}
    (hc : c < app.calls.length)
    (h : app.onCallState c st remoteInfo lastStatus = .ok (shown, app')) :
    app'.watch = app.watch.next (.state c st remoteInfo lastStatus) := by
  obtain ⟨number, -, h⟩ := bind_eq_ok.mp h
  have hend : (if st = .disconnected then app.endCall c else app.goOn c st).watch =
      app.watch.next (.state c st remoteInfo lastStatus) := by
    cases st with
    | disconnected => exact watch_endCall hc
    | _ => exact watch_goOn hc _
  by_cases hincoming : st = .incoming
  · rw [if_pos hincoming] at h
    cases h
    exact hend
  · rw [if_neg hincoming] at h
    exact (watch_showCallState h).trans hend

theorem watch_callState {st : InvState} {remoteInfo : Bytes} {lastStatus : ℤ}
    (hc : c < app.calls.length)
    (h : app.callState c st remoteInfo lastStatus = .ok (shown, app')) :
    app'.watch = app.watch.next (.state c st remoteInfo lastStatus) := by
  obtain ⟨⟨shown₁, app₁⟩, hstate, h⟩ := bind_eq_ok.mp h
  have hwatch : app₁.watch = app.watch.next (.state c st remoteInfo lastStatus) := by
    rw [watch_onCallState (by simpa [setInv] using hc) hstate, watch_setInv]
  cases h
  split
  · exact (watch_setInv c none app₁).trans hwatch
  · exact hwatch

theorem watch_onIncomingCall {remoteInfo : Bytes} {lastStatus : ℤ}
    (h : app.onIncomingCall c remoteInfo lastStatus = .ok (shown, app')) :
    app'.watch = app.watch := by
  obtain ⟨number, -, h⟩ := bind_eq_ok.mp h
  rw [watch_showCallState h, watch_claimCurrent, watch_setInv]

theorem lt_of_timer (h : (app.slot c).timer = true) : c < app.calls.length := by
  by_contra hc
  simp [slot, hc] at h

theorem watch_callTimeoutCallback {remoteInfo : Bytes} (htimer : (app.slot c).timer = true)
    (h : app.callTimeoutCallback c remoteInfo = .ok (shown, app')) :
    app'.watch = app.watch.expire c := by
  unfold callTimeoutCallback at h
  unfold Watch.expire
  by_cases hcount : app.sipcallTimerCount + 1 < 9
  · rw [if_pos hcount] at h
    rw [if_pos (show app.watch.count + 1 < 9 from hcount)]
    cases h
    rfl
  · rw [if_neg hcount] at h
    rw [if_neg (show ¬app.watch.count + 1 < 9 from hcount)]
    obtain ⟨number, -, h⟩ := bind_eq_ok.mp h
    rw [watch_showCallState h,
      watch_setTimer (show c < ({ app with sipcallTimerCount := 0 } : NativeApp).calls.length from
        lt_of_timer htimer)]
    rfl

theorem watch_makeCall {number : Bytes} {terminated : Bool} {host : Option Bytes}
    (h : app.makeCall number terminated host = .ok app') : app'.watch = app.watch := by
  obtain ⟨number, -, h⟩ := bind_eq_ok.mp h
  cases host with
  | none =>
    cases h
    split <;> rfl
  | some host =>
    obtain ⟨text, -, h⟩ := bind_eq_ok.mp h
    cases h
    cases terminated <;> rfl

theorem watch_makeCallSipUri {sipUri : Bytes} {terminated : Bool}
    (h : app.makeCallSipUri sipUri terminated = .ok app') : app'.watch = app.watch := by
  obtain ⟨text, -, h⟩ := bind_eq_ok.mp h
  cases h
  cases terminated <;> rfl

end NativeApp

namespace CallEvent

variable {app app' : NativeApp} {e : CallEvent} {shown : Option CallReport}

/-- The timers and their counter move as the watch does. -/
theorem handle_watch (hpossible : e.possible app = true) (h : e.handle app = .ok (shown, app')) :
    app'.watch = app.watch.next e := by
  cases e with
  | incoming c remoteInfo lastStatus => exact NativeApp.watch_onIncomingCall h
  | state c st remoteInfo lastStatus =>
    exact NativeApp.watch_callState (by simpa [possible] using hpossible) h
  | expiry c remoteInfo => exact NativeApp.watch_callTimeoutCallback hpossible h
  | makeCall number terminated host =>
    obtain ⟨app₁, hcall, hpair⟩ := map_eq_ok.mp h
    cases hpair
    exact NativeApp.watch_makeCall hcall
  | makeCallSipUri sipUri terminated =>
    obtain ⟨app₁, hcall, hpair⟩ := map_eq_ok.mp h
    cases hpair
    exact NativeApp.watch_makeCallSipUri hcall
  | request o signal =>
    obtain ⟨r, hreq, hpair⟩ := map_eq_ok.mp h
    obtain ⟨info, -, hok⟩ := bind_eq_ok.mp hreq
    cases hok
    cases hpair
    rfl
  | session e =>
    obtain ⟨info, -, hpair⟩ := map_eq_ok.mp h
    cases hpair
    rfl
  | signalTimer =>
    cases h
    rfl

end CallEvent

/-! ### The law of the watchdog -/

/-- One more event, after the timer of `c` went off `n` times since the call was confirmed or ended
or the server was heard. -/
def ownNext (c n : ℕ) : CallEvent → ℕ
  | .expiry d _ => if d = c then n + 1 else n
  | .state d .confirmed _ _ | .state d .disconnected _ _ => if d = c then 0 else n
  | .request _ _ => 0
  | _ => n

def ownExpiries (c : ℕ) (journal : List CallRecord) : ℕ :=
  journal.foldr (fun r n => ownNext c n r.event) 0

/-- The error 504 is shown for the call. -/
def TimedOut (c : ℕ) (shown : Option CallReport) : Prop :=
  ∃ number, shown = some ⟨c, number, .ending, 504⟩

/-- When the timer of a call goes off, the error is shown no sooner than at the ninth time, and it
is shown then. -/
def WatchLaw (r : CallRecord) (past : List CallRecord) : Prop :=
  match r.event with
  | .expiry c _ => (TimedOut c r.shown → 9 ≤ ownExpiries c past + 1) ∧
      (ownExpiries c past + 1 = 9 → TimedOut c r.shown)
  | _ => True

/-- A timer goes off while no other one runs. A call is confirmed while the counter is zero, and so
does a call end that runs a timer beside others. -/
def Watch.Alone (w : Watch) : CallEvent → Prop
  | .expiry c _ => ∀ i, i ≠ c → w.timer i = false
  | .state _ .confirmed _ _ => w.count = 0
  | .state c .disconnected _ _ =>
    w.timer c = true → w.count = 0 ∨ ∀ i, i ≠ c → w.timer i = false
  | _ => True

/-- A timer that runs has gone off as often as the counter says. -/
def Watch.Counts (w : Watch) (own : ℕ → ℕ) : Prop := ∀ i, w.timer i = true → own i = w.count

namespace Watch

variable {w : Watch} {own : ℕ → ℕ} {c : ℕ}

theorem Counts.expire (h : w.Counts own) (halone : ∀ i, i ≠ c → w.timer i = false) :
    (w.expire c).Counts fun i => if c = i then own i + 1 else own i := by
  intro i hi
  have heq : w.timer i = true → i = c := fun hi => by
    by_contra hne
    simp [halone i hne] at hi
  unfold Watch.expire at hi ⊢
  split at hi
  · next hcount =>
    obtain rfl := heq hi
    rw [if_pos hcount]
    simp [h i hi]
  · by_cases hne : i = c
    · simp [hne] at hi
    · dsimp only at hi
      rw [Function.update_of_ne hne] at hi
      exact absurd (heq hi) hne

theorem Counts.confirm (h : w.Counts own) (hcount : w.count = 0) :
    Counts { w with timer := Function.update w.timer c true }
      fun i => if c = i then 0 else own i := by
  intro i hi
  by_cases hne : i = c
  · subst hne
    simp [hcount]
  · dsimp only at hi
    rw [Function.update_of_ne hne] at hi
    simp [Ne.symm hne, h i hi]

theorem Counts.stop (h : w.Counts own)
    (halone : w.timer c = true → w.count = 0 ∨ ∀ i, i ≠ c → w.timer i = false) :
    (w.stop c).Counts fun i => if c = i then 0 else own i := by
  intro i hi
  unfold Watch.stop at hi ⊢
  by_cases hc : w.timer c = true
  · rw [if_pos hc] at hi ⊢
    by_cases hne : i = c
    · simp [hne]
    · dsimp only at hi
      rw [Function.update_of_ne hne] at hi
      obtain hcount | hothers := halone hc
      · simp [Ne.symm hne, h i hi, hcount]
      · simp [hothers i hne] at hi
  · rw [if_neg hc] at hi ⊢
    have hne : c ≠ i := fun heq => hc (heq ▸ hi)
    simp [hne, h i hi]

/-- One step keeps the count. -/
theorem Counts.next (h : w.Counts own) {e : CallEvent} (halone : w.Alone e) :
    (w.next e).Counts fun i => ownNext i (own i) e := by
  cases e with
  | expiry c remoteInfo => exact h.expire halone
  | state c st remoteInfo lastStatus =>
    cases st with
    | confirmed => exact h.confirm halone
    | disconnected => exact h.stop halone
    | _ => exact h
  | request o signal => exact fun i _ => rfl
  | _ => exact h

end Watch

namespace NativeApp

variable {app : NativeApp} {e : CallEvent}

def Watched (app : NativeApp) : Prop := Throughout WatchLaw app.journal

/-- No other call runs a timer. -/
def OnlyTimer (app : NativeApp) (c : ℕ) : Prop :=
  ∀ i < app.calls.length, i ≠ c → (app.slot i).timer = false

instance (app : NativeApp) (c : ℕ) : Decidable (app.OnlyTimer c) :=
  inferInstanceAs (Decidable (∀ i < app.calls.length, _))

/-- The timers do not get in each other's way, and the ninth time the error can be shown. -/
def WatchesOne (app : NativeApp) : CallEvent → Prop
  | .expiry c remoteInfo => app.OnlyTimer c ∧
      (app.sipcallTimerCount = 8 → (inNumber remoteInfo).toBool = true ∧ app.shows c = true)
  | .state _ .confirmed _ _ => app.sipcallTimerCount = 0
  | .state c .disconnected _ _ =>
    (app.slot c).timer = true → app.sipcallTimerCount = 0 ∨ app.OnlyTimer c
  | _ => True

instance (app : NativeApp) : (e : CallEvent) → Decidable (app.WatchesOne e)
  | .expiry c _ => inferInstanceAs (Decidable (app.OnlyTimer c ∧ (_ → _ ∧ _)))
  | .state _ .confirmed _ _ => inferInstanceAs (Decidable (_ = 0))
  | .state c .disconnected _ _ => inferInstanceAs (Decidable (_ → _ ∨ app.OnlyTimer c))
  | .state _ .null _ _ | .state _ .calling _ _ | .state _ .incoming _ _ | .state _ .early _ _
  | .state _ .connecting _ _ | .incoming _ _ _ | .makeCall _ _ _ | .makeCallSipUri _ _
  | .request _ _ | .session _ | .signalTimer => isTrue trivial

theorem OnlyTimer.watch {c : ℕ} (h : app.OnlyTimer c) (i : ℕ) (hne : i ≠ c) :
    app.watch.timer i = false := by
  by_contra hi
  have hi : (app.slot i).timer = true := by simpa [NativeApp.watch] using hi
  have := h i (lt_of_timer hi) hne
  rw [hi] at this
  cases this

theorem WatchesOne.alone (h : app.WatchesOne e) : app.watch.Alone e := by
  cases e with
  | expiry c remoteInfo => exact h.1.watch
  | state c st remoteInfo lastStatus =>
    cases st with
    | confirmed => exact h
    | disconnected => exact fun hc => (h hc).imp_right OnlyTimer.watch
    | _ => trivial
  | _ => trivial

/-- Until the process is gone, the timers count, and no further than to eight. -/
structure Counted (app : NativeApp) : Prop where
  law : app.Watched
  counts : app.fault = none → app.watch.Counts fun i => ownExpiries i app.journal
  bound : app.watch.count ≤ 8

theorem shown_expiry_of_lt {c : ℕ} {remoteInfo : Bytes} (hcount : app.sipcallTimerCount + 1 < 9) :
    (CallEvent.expiry c remoteInfo).shown app = none := by
  simp only [CallEvent.shown, CallEvent.handle, callTimeoutCallback, hcount, if_true]
  rfl

theorem shown_expiry_of_shows {c : ℕ} {remoteInfo : Bytes} (hcount : app.sipcallTimerCount = 8)
    (hnum : (inNumber remoteInfo).toBool = true) (hshows : app.shows c = true) :
    TimedOut c ((CallEvent.expiry c remoteInfo).shown app) := by
  cases hnumber : inNumber remoteInfo with
  | error f => simp [hnumber, Except.toBool] at hnum
  | ok number =>
    have hend : ({ app with sipcallTimerCount := 0 }.setTimer c false).showEnding
        ⟨c, number, .ending, 504⟩ = _ := showEnding_of_shows _ hshows
    refine ⟨number, ?_⟩
    simp only [CallEvent.shown, CallEvent.handle, callTimeoutCallback, hcount, hnumber, ok_bind,
      showCallState, hend]
    rfl

theorem Counted.watchLaw (h : app.Counted) (hfault : app.fault = none)
    (hpossible : e.possible app = true) (hok : app.WatchesOne e) :
    WatchLaw (e.record app (e.shown app)) app.journal := by
  cases e with
  | expiry c remoteInfo =>
    have hown : ownExpiries c app.journal = app.sipcallTimerCount := h.counts hfault c hpossible
    have hbound : app.sipcallTimerCount ≤ 8 := h.bound
    show (TimedOut c _ → 9 ≤ ownExpiries c app.journal + 1) ∧
      (ownExpiries c app.journal + 1 = 9 → TimedOut c _)
    rw [hown]
    by_cases hcount : app.sipcallTimerCount = 8
    · obtain ⟨hnum, hshows⟩ := hok.2 hcount
      exact ⟨fun _ => by omega, fun _ => shown_expiry_of_shows hcount hnum hshows⟩
    · constructor
      · rintro ⟨number, hshown⟩
        rw [CallEvent.record, shown_expiry_of_lt (by omega)] at hshown
        cases hshown
      · intro hnine
        omega
  | _ => trivial

theorem Counted.step (h : app.Counted) (hfault : app.fault = none)
    (hpossible : e.possible app = true) (hok : app.WatchesOne e) :
    (e.step app).Counted := by
  have hlaw : (e.step app).Watched := by
    rw [Watched, CallEvent.step_journal, throughout_cons]
    exact ⟨h.watchLaw hfault hpossible hok, h.law⟩
  have hcounts := (h.counts hfault).next hok.alone
  cases hhandle : e.handle app with
  | error f =>
    have hstep : e.step app =
        { app with fault := some f, journal := e.record app none :: app.journal } := by
      simp only [CallEvent.step, hhandle]
    rw [hstep] at hlaw ⊢
    exact ⟨hlaw, fun hnone => (nomatch hnone), h.bound⟩
  | ok r =>
    have hstep : e.step app = { r.2 with journal := e.record app r.1 :: app.journal } := by
      simp only [CallEvent.step, hhandle]
    have hwatch : r.2.watch = app.watch.next e := CallEvent.handle_watch hpossible hhandle
    rw [hstep] at hlaw ⊢
    refine ⟨hlaw, fun _ => ?_, ?_⟩
    · show r.2.watch.Counts _
      rw [hwatch]
      exact hcounts
    · show r.2.watch.count ≤ 8
      rw [hwatch]
      exact Watch.next_count h.bound

end NativeApp

/-! ### Whole runs -/

/-- In every run whose timers do not get in each other's way, the application is shown the error of
a call at the ninth expiry of its own timer and no sooner. -/
theorem runs_watched {app : NativeApp} (h : nativeApp.Reached NativeApp.WatchesOne app) :
    app.Watched := by
  have hcounted : app.Counted := by
    apply h.invariant
    · rintro app ⟨udpCreate, n, rfl⟩
      refine ⟨trivial, fun _ i hi => ?_, Nat.zero_le 8⟩
      simp [NativeApp.watch, NativeApp.slot] at hi
    · rintro app e h ⟨hfault, hpossible⟩ hok
      exact h.step hfault hpossible hok
  exact hcounted.law

def confirmedCall (c : ℕ) : CallEvent := .state c .confirmed (ascii "<sip:8001@host>") 200

def expiryOf (c : ℕ) : CallEvent := .expiry c (ascii "<sip:8001@host>")

set_option maxRecDepth 4000 in
/-- A call whose timer goes off twice before the server is heard, and then nine times. -/
theorem watched_alone : (nativeApp.run .four (confirmedCall 0 :: expiryOf 0 :: expiryOf 0 ::
    .request {} .zero :: List.replicate 9 (expiryOf 0))).Watched :=
  runs_watched (System.reached_run (show nativeApp.init .four from ⟨_, 4, rfl⟩) (by decide))

/-- Two confirmed calls, whose timers go off in turns. -/
def inTurns : List CallEvent :=
  confirmedCall 0 :: confirmedCall 1 ::
    (List.replicate 4 [expiryOf 0, expiryOf 1]).flatten ++ [expiryOf 0]

set_option maxRecDepth 2000 in
/-- The first call is given up when its timer has gone off five times. -/
theorem watched_together : nativeApp.init .four ∧
    nativeApp.Allowed (fun _ _ => True) .four inTurns ∧
    ¬(nativeApp.run .four inTurns).Watched := by
  refine ⟨⟨_, 4, rfl⟩, by decide, ?_⟩
  intro h
  have hjournal : (nativeApp.run .four inTurns).journal =
      ⟨expiryOf 0, true, some ⟨0, ascii "8001", .ending, 504⟩⟩ ::
        (nativeApp.run .four inTurns.dropLast).journal := by decide
  rw [NativeApp.Watched, hjournal] at h
  have hnine : 9 ≤ ownExpiries 0 (nativeApp.run .four inTurns.dropLast).journal + 1 :=
    h.1.1 ⟨_, rfl⟩
  revert hnine
  decide

end PttTerminal
