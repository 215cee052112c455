import PttTerminal.NativeCalls

/-!
# Ends of calls that are shown

When the current call ends, the next active call becomes the current one before the end is shown,
and the end of a call that is not the current one is passed over. So the application hears of the
end when no other call is active, and when nobody speaks in another group than the one that was
dialled.
-/
namespace PttTerminal

open Runs

namespace NativeApp

/-! ### The next call -/

variable {app : NativeApp} {c i : ℕ}

@[simp]
theorem slot_setInv_ne (h : i ≠ c) (inv : Option InvState) :
    (app.setInv c inv).slot i = app.slot i := by
  simp [setInv, slot, List.getElem?_set_ne h.symm]

@[simp]
theorem slot_setTimer_ne (h : i ≠ c) (timer : Bool) :
    (app.setTimer c timer).slot i = app.slot i := by
  simp [setTimer, slot, List.getElem?_set_ne h.symm]

/-- The current call moves on when another call is active. -/
theorem findNextCall_none (hcur : app.currentCall = some c) :
    app.findNextCall.currentCall = none ↔
      ∀ i < app.calls.length, i ≠ c → app.isActive i = false := by
  simp only [findNextCall, hcur, Option.or_eq_none_iff, List.find?_eq_none, List.mem_range'_1,
    List.mem_range, Option.elim_some, Option.getD_some, Bool.not_eq_true]
  constructor
  · rintro ⟨hbehind, hfront⟩ i hi hne
    obtain hlt | hlt := Nat.lt_or_gt_of_ne hne
    · exact hfront i hlt
    · apply hbehind
      omega
  · intro h
    refine ⟨fun i hi => h i (by omega) (by omega), fun i hi => ?_⟩
    by_cases hlen : i < app.calls.length
    · exact h i hlen (by omega)
    · simp [isActive, slot, hlen]

theorem findNextCall_ne (hcur : app.currentCall = some c) :
    app.findNextCall.currentCall ≠ some c := by
  intro h
  simp only [findNextCall, hcur, Option.elim_some, Option.getD_some, Option.or_eq_some_iff] at h
  obtain h | ⟨-, h⟩ := h
  · have := List.mem_range'_1.mp (List.mem_of_find?_eq_some h)
    omega
  · have := List.mem_range.mp (List.mem_of_find?_eq_some h)
    omega

/-! ### Showing an end -/

/-- Somebody who speaks speaks in the group that was dialled. -/
def floorAllows (app : NativeApp) : Bool :=
  if app.info.pttState = .busy then
    match app.info.deref app.info.gCurrentGroup with
    | .ok (_, cur) => strncmpEq app.destNum cur.val.number
    | .error _ => false
  else true

/-- The end of the call is shown: no other call is the current one. -/
def shows (app : NativeApp) (callId : ℕ) : Bool :=
  (app.currentCall = none || app.currentCall = some callId) && app.floorAllows

variable {report : CallReport}

variable (report) in
theorem showEnding_of_shows (h : app.shows report.callId = true) :
    app.showEnding report = .ok (some report, { app with destNum := [] }) := by
  simp only [shows, Bool.and_eq_true, Bool.or_eq_true, decide_eq_true_eq, floorAllows] at h
  obtain ⟨hcur, hfloor⟩ := h
  have hpass : ¬(app.currentCall ≠ none ∧ app.currentCall ≠ some report.callId) := by tauto
  unfold showEnding
  rw [if_neg hpass]
  dsimp only
  by_cases hbusy : app.info.pttState = .busy
  · rw [if_pos hbusy] at hfloor ⊢
    cases hderef : app.info.deref app.info.gCurrentGroup with
    | error f => simp [hderef] at hfloor
    | ok cur =>
      simp only [hderef] at hfloor
      simp [ok_bind, hfloor, pure, Except.pure]
  · rw [if_neg hbusy]

theorem showEnding_of_not_shows (h : app.shows report.callId = false)
    {shown : Option CallReport} {app' : NativeApp}
    (hok : app.showEnding report = .ok (shown, app')) : shown = none := by
  unfold showEnding at hok
  by_cases hcur : app.currentCall ≠ none ∧ app.currentCall ≠ some report.callId
  · rw [if_pos hcur] at hok
    cases hok
    rfl
  · have hcur' : app.currentCall = none ∨ app.currentCall = some report.callId := by tauto
    rw [if_neg hcur] at hok
    dsimp only at hok
    by_cases hbusy : app.info.pttState = .busy
    · rw [if_pos hbusy] at hok
      obtain ⟨cur, hderef, hok⟩ := bind_eq_ok.mp hok
      have hfloor : strncmpEq app.destNum cur.2.val.number = false := by
        simpa [shows, hcur', floorAllows, hbusy, hderef] using h
      simp only [hfloor, Bool.false_eq_true, if_false] at hok
      cases hok
      rfl
    · simp only [shows, floorAllows, hbusy, if_false, Bool.and_true, Bool.or_eq_false_iff,
        decide_eq_false_iff_not] at h
      tauto

/-! ### The end of the current call -/

@[simp]
theorem isActive_setInv_ne (h : i ≠ c) (inv : Option InvState) :
    (app.setInv c inv).isActive i = app.isActive i := by simp [isActive, h]

@[simp]
theorem isActive_setTimer (c : ℕ) (timer : Bool) :
    (app.setTimer c timer).isActive i = app.isActive i := by
  by_cases h : i = c
  · subst h
    by_cases hlen : i < app.calls.length <;> simp [isActive, setTimer, slot, hlen]
  · simp [isActive, h]

@[simp]
theorem isActive_stopTimer (c : ℕ) : (app.stopTimer c).isActive i = app.isActive i := by
  unfold stopTimer
  split
  · exact isActive_setTimer c false
  · rfl

theorem stopTimer_keeps (c : ℕ) (app : NativeApp) :
    (app.stopTimer c).info = app.info ∧ (app.stopTimer c).destNum = app.destNum ∧
      (app.stopTimer c).currentCall = app.currentCall ∧
      (app.stopTimer c).calls.length = app.calls.length := by
  unfold stopTimer
  split <;> simp [setTimer]

/-- The session of the call `c` is over. -/
def ended (c : ℕ) (app : NativeApp) : NativeApp := (app.setInv c (some .disconnected)).endCall c

theorem ended_keeps (c : ℕ) (app : NativeApp) :
    (app.ended c).info = app.info ∧ (app.ended c).destNum = app.destNum := by
  obtain ⟨hinfo, hnum, -, -⟩ := stopTimer_keeps c (app.setInv c (some .disconnected))
  unfold ended endCall
  dsimp only
  split_ifs
  · exact ⟨hinfo, hnum⟩
  · exact ⟨hinfo, hnum⟩

/-- Without another active call there is no current call any more. -/
theorem ended_currentCall (hcur : app.currentCall = some c) :
    (app.ended c).currentCall ≠ some c ∧ ((app.ended c).currentCall = none ↔
      ∀ i < app.calls.length, i ≠ c → app.isActive i = false) := by
  obtain ⟨-, -, hkeep, hlen⟩ := stopTimer_keeps c (app.setInv c (some .disconnected))
  have hcur' : ((app.setInv c (some .disconnected)).stopTimer c).currentCall = some c :=
    hkeep.trans hcur
  have hnext : app.ended c = ((app.setInv c (some .disconnected)).stopTimer c).findNextCall :=
    if_pos hcur'
  rw [hnext]
  refine ⟨findNextCall_ne hcur', (findNextCall_none hcur').trans ?_⟩
  rw [hlen]
  simp only [setInv, List.length_set, isActive_stopTimer]
  constructor
  · intro h i hi hne
    rw [← isActive_setInv_ne hne (some .disconnected)]
    exact h i hi hne
  · intro h i hi hne
    exact (isActive_setInv_ne hne (some .disconnected)).trans (h i hi hne)

theorem shows_ended (hcur : app.currentCall = some c) : (app.ended c).shows c = true ↔
    (∀ i < app.calls.length, i ≠ c → app.isActive i = false) ∧ app.floorAllows = true := by
  obtain ⟨hne, hnone⟩ := ended_currentCall hcur
  obtain ⟨hinfo, hnum⟩ := ended_keeps c app
  have hfloor : (app.ended c).floorAllows = app.floorAllows := by
    simp only [floorAllows, hinfo, hnum]
  simp [shows, hfloor, hne, hnone]

end NativeApp

namespace CallEvent

variable {app : NativeApp} {c : ℕ} {remoteInfo : Bytes} {lastStatus : ℤ}

/-- The report says that the call `c` is ending. -/
def IsEnding (c : ℕ) (shown : Option CallReport) : Prop :=
  ∃ report, shown = some report ∧ report.callId = c ∧ report.callState = .ending

instance (c : ℕ) (shown : Option CallReport) : Decidable (IsEnding c shown) :=
  match shown with
  | none => isFalse fun ⟨_, h, _⟩ => nomatch h
  | some report => decidable_of_iff (report.callId = c ∧ report.callState = .ending)
      ⟨fun h => ⟨report, rfl, h⟩, fun ⟨_, h, h'⟩ => by cases h; exact h'⟩

theorem handle_disconnected (app : NativeApp) (c : ℕ) (remoteInfo : Bytes) (lastStatus : ℤ) :
    (CallEvent.state c .disconnected remoteInfo lastStatus).handle app = (do
      let number ← inNumber remoteInfo
      let (shown, app) ← (app.ended c).showEnding ⟨c, number, .ending, lastStatus⟩
      return (shown, app.setInv c none)) := by
  simp only [handle, NativeApp.callState, NativeApp.onCallState, NativeApp.showCallState, if_true,
    reduceCtorEq, if_false, NativeApp.ended, bind_assoc]

/-- The end of the current call is shown when no other call is active. -/
theorem shown_disconnected (hcur : app.currentCall = some c) :
    IsEnding c ((CallEvent.state c .disconnected remoteInfo lastStatus).shown app) ↔
      (∀ i < app.calls.length, i ≠ c → app.isActive i = false) ∧
        (inNumber remoteInfo).toBool = true ∧ app.floorAllows = true := by
  have hshow := NativeApp.shows_ended hcur
  unfold shown
  rw [handle_disconnected]
  cases inNumber remoteInfo with
  | error f => simp [bind, Except.bind, IsEnding, Except.toBool]
  | ok number =>
    rw [ok_bind]
    by_cases hs : (app.ended c).shows c = true
    · rw [NativeApp.showEnding_of_shows ⟨c, number, .ending, lastStatus⟩ hs, ok_bind]
      obtain ⟨hothers, hfloor⟩ := hshow.mp hs
      exact iff_of_true ⟨_, rfl, rfl, rfl⟩ ⟨hothers, rfl, hfloor⟩
    · apply iff_of_false
      · cases hend : (app.ended c).showEnding ⟨c, number, .ending, lastStatus⟩ with
        | error f => simp [bind, Except.bind, IsEnding]
        | ok r =>
          have hnone : r.1 = none := NativeApp.showEnding_of_not_shows (by simpa using hs) hend
          simp [ok_bind, pure, Except.pure, hnone, IsEnding]
      · rintro ⟨hothers, -, hfloor⟩
        exact hs (hshow.mpr ⟨hothers, hfloor⟩)

end CallEvent

/-! ### Whole runs -/

/-- If the record is the end of the current call, the application was shown it. -/
def CallRecord.EndShown (r : CallRecord) : Prop :=
  match r.event with
  | .state c .disconnected _ _ => r.current = true → CallEvent.IsEnding c r.shown
  | _ => True

namespace NativeApp

/-- The application was shown every end of a current call. -/
def EndsShown (app : NativeApp) : Prop := ∀ r ∈ app.journal, r.EndShown

/-- When the current call ends, no other call is active, its number fits, and nobody speaks in
another group than the one that was dialled. -/
def EndsAlone (app : NativeApp) : CallEvent → Prop
  | .state c .disconnected remoteInfo _ => app.currentCall = some c →
      (∀ i < app.calls.length, i ≠ c → app.isActive i = false) ∧
        (inNumber remoteInfo).toBool = true ∧ app.floorAllows = true
  | _ => True

instance (app : NativeApp) : (e : CallEvent) → Decidable (app.EndsAlone e)
  | .state _ .disconnected _ _ => inferInstanceAs (Decidable (_ → _ ∧ _ ∧ _))
  | .state _ .null _ _ | .state _ .calling _ _ | .state _ .incoming _ _ | .state _ .early _ _
  | .state _ .connecting _ _ | .state _ .confirmed _ _ | .incoming _ _ _ | .expiry _ _
  | .makeCall _ _ _ | .makeCallSipUri _ _ | .request _ _ | .session _ | .signalTimer =>
    isTrue trivial

theorem record_current (app : NativeApp) (c : ℕ) (st : InvState) (remoteInfo : Bytes)
    (lastStatus : ℤ) (shown : Option CallReport) :
    ((CallEvent.state c st remoteInfo lastStatus).record app shown).current = true ↔
      app.currentCall = some c := by
  simp [CallEvent.record, CallEvent.callId]

theorem record_endShown (app : NativeApp) (e : CallEvent) :
    (e.record app (e.shown app)).EndShown ↔ app.EndsAlone e := by
  cases e with
  | state c st remoteInfo lastStatus =>
    cases st with
    | disconnected =>
      exact imp_congr_ctx (record_current ..) fun h => CallEvent.shown_disconnected h
    | _ => exact Iff.rfl
  | _ => exact Iff.rfl

theorem endsShown_step (app : NativeApp) (e : CallEvent) :
    (e.step app).EndsShown ↔ app.EndsAlone e ∧ app.EndsShown := by
  simp only [EndsShown, CallEvent.step_journal, List.forall_mem_cons, record_endShown]

end NativeApp

/-- Over a whole run, with any calls in any order, the application is shown every end of a current
call exactly when each of them ends alone. -/
theorem runs_endsShown {app : NativeApp} (hinit : nativeApp.init app) {es : List CallEvent}
    (hes : nativeApp.Allowed (fun _ _ => True) app es) :
    (∀ es', es' <+: es → (nativeApp.run app es').EndsShown) ↔
      nativeApp.Allowed NativeApp.EndsAlone app es := by
  symm
  apply System.allowed_iff (P := NativeApp.EndsShown) (fun _ h => h) _ _ _ hes
  · intro app e h _ hok
    exact (NativeApp.endsShown_step app e).mpr ⟨hok, h⟩
  · intro app e _ _ hok h
    exact hok ((NativeApp.endsShown_step app e).mp h).1
  · obtain ⟨udpCreate, n, rfl⟩ := hinit
    simp [NativeApp.EndsShown]

/-- Two calls, of which the second one is refused before the first one ends. -/
def twoCalls : List CallEvent :=
  [.state 0 .calling (ascii "<sip:8001@host>") 0, .state 0 .confirmed (ascii "<sip:8001@host>") 200,
    .incoming 1 (ascii "<sip:8002@host>") 0, .state 1 .disconnected (ascii "<sip:8002@host>") 486,
    .state 0 .disconnected (ascii "<sip:8001@host>") 200]

/-- The terminal before the first event, with places for four calls. -/
def NativeApp.four : NativeApp :=
  { info := .initial fun _ _ => true, calls := List.replicate 4 {} }

theorem endsShown_two : (nativeApp.run .four twoCalls).EndsShown :=
  (runs_endsShown ⟨_, 4, rfl⟩ (by decide)).mpr (by decide) _ List.prefix_rfl

/-- A call that ends while another one rings: nothing is shown. -/
theorem end_passed_over : nativeApp.init .four ∧ nativeApp.Allowed (fun _ _ => True) .four
      [.state 0 .confirmed (ascii "<sip:8001@host>") 200, .incoming 1 (ascii "<sip:8002@host>") 0,
        .state 0 .disconnected (ascii "<sip:8001@host>") 200] ∧
    ¬(nativeApp.run .four
      [.state 0 .confirmed (ascii "<sip:8001@host>") 200, .incoming 1 (ascii "<sip:8002@host>") 0,
        .state 0 .disconnected (ascii "<sip:8001@host>") 200]).EndsShown := by
  refine ⟨⟨_, 4, rfl⟩, by decide, ?_⟩
  intro h
  have hshown := h ⟨.state 0 .disconnected (ascii "<sip:8001@host>") 200, true, none⟩ (by decide)
  obtain ⟨report, hnone, -⟩ := hshown rfl
  cases hnone

end PttTerminal
