import PttTerminal.InCallScreen

/-!
# The classification of calls

The type of a log is found when the screen closes, from the state before the last change and a flag
that is set when the screen is resumed while it dials. A run passes three phases: no screen was
created yet, the screen is open and nothing is stored, the screen has closed and one row is stored.
-/
namespace PttTerminal

open Tables Runs DBHelper InCallApp

namespace InCallApp

/-- The type that belongs to the call. -/
def callType (s : InCallApp) : LogType :=
  if s.dialled then .out else if s.talked then .answered else .missing

/-- Of a call that is over one row is stored, and it has the type of the call. -/
def Classified (s : InCallApp) : Prop :=
  s.isOver → s.stored.map CallLog.logType = [s.callType]

instance (s : InCallApp) : Decidable s.Classified :=
  inferInstanceAs (Decidable (s.isOver = true → _))

/-- A screen has closed. -/
def closed (s : InCallApp) : Bool := s.screens.any InCallScreen.finishing

/-- The screen was created while a call was dialling that the user dialled, or while a call rang
that was answered since. -/
def beganRight (s : InCallApp) (c : InCallScreen) : Bool :=
  match c.callLog.logType with
  | .out => s.dialled
  | .answered => !s.dialled && s.talked
  | _ => false

/-- The screen is there, and no report took back that the call talks. An end that was reported
before may be reported again when the log was begun right. -/
def mayEnd (s : InCallApp) : Bool :=
  !s.screens.isEmpty && !(s.manager.callState = .ringing && s.talked) &&
    (s.manager.callState ≠ .ended || s.screens.all s.beganRight)

end InCallApp

/-- What a step may be for the log to be right. -/
def InCallEvent.fits (s : InCallApp) : InCallEvent → Bool
  | report _ _ .ringing => !s.closed
  | report _ _ .talking =>
    if s.closed then s.screenInstance.isSome && (s.dialled || s.talked)
    else !s.dialled || s.screens.any InCallScreen.bMoFlag
  | report _ _ .ended => s.closed || s.mayEnd
  | answer _ => s.manager.callState ≠ .ended
  | hangup _ => !(s.manager.callState = .ringing && s.talked)
  | command result => result || s.closed
  | _ => true

/-! ### The table -/

section table

variable {db : CallLogs} {start : ℤ} {l : CallLog}

theorem rowsFrom_delete (h : rowsFrom db start = []) (p : Row CallLog → Bool) :
    rowsFrom (db.delete p) start = [] := by
  simp only [rowsFrom, List.filter_eq_nil_iff] at h ⊢
  intro r hr
  exact h r (List.mem_filter.mp hr).1

theorem rowsFrom_insert (h : rowsFrom db start = []) (hnum : l.num.isSome) (hr : l.reason.isSome)
    (htime : start ≤ l.time) : (rowsFrom (insertCallLog db l) start).map Row.cols = [l] := by
  rw [insertCallLog, if_pos ⟨hnum, hr⟩]
  simp only [rowsFrom] at h
  simp [rowsFrom, Table.insert, h, htime]

/-- Only the rows from a moment on can have a time from this moment on. -/
theorem countByTime_rowsFrom (htime : start ≤ l.time) :
    queryLogCountByTime db l.time =
      javaInt ((rowsFrom db start).filter fun r => r.cols.time = l.time).length := by
  have heq : (rowsFrom db start).filter (fun r => r.cols.time = l.time) =
      db.rows.filter fun r => r.cols.time = l.time := by
    rw [rowsFrom, List.filter_filter]
    apply List.filter_congr
    intro r _
    by_cases ht : r.cols.time = l.time
    · simp [ht, htime]
    · simp [ht]
  rw [heq, queryLogCountByTime]

theorem queryLatestLog_ne_none (h : (callLogMax : ℤ) ≤ queryLogCount db .all) :
    queryLatestLog db ≠ none := by
  intro hnone
  simp only [queryLatestLog, List.head?_eq_none_iff] at hnone
  have hlen := congrArg List.length hnone
  rw [List.length_insertionSort, List.length_nil] at hlen
  rw [queryLogCount, List.length_eq_zero_iff.mp hlen] at h
  revert h
  decide

/-- The first log of the call is stored, whatever makes room for it. -/
theorem rowsFrom_save (h : rowsFrom db start = []) (hs : l.saveable = true)
    (hr : l.reason.isSome) (htime : start ≤ l.time) :
    (rowsFrom (saveCallLog db (some l)) start).map Row.cols = [l] := by
  simp only [CallLog.saveable, Bool.and_eq_true, decide_eq_true_eq] at hs
  have hcond : ¬(l.num = none ∨ l.logType = .all) := by
    simp [hs.2, Option.ne_none_iff_isSome.mpr hs.1]
  have hcount : ¬ 0 < queryLogCountByTime db l.time := by
    rw [countByTime_rowsFrom htime, h, List.filter_nil, List.length_nil]
    decide
  simp only [saveCallLog, if_neg hcond, if_neg hcount, storeCallLog]
  split_ifs with hfull
  · cases hlatest : queryLatestLog db with
    | none => exact absurd hlatest (queryLatestLog_ne_none hfull)
    | some log => exact rowsFrom_insert (rowsFrom_delete h _) hs.1 hr htime
  · exact rowsFrom_insert h hs.1 hr htime

/-- A log that was stored is not stored again. -/
theorem saveCallLog_again {l' : CallLog} (h : (rowsFrom db start).map Row.cols = [l'])
    (htime : start ≤ l.time) (heq : l.time = l'.time) : saveCallLog db (some l) = db := by
  obtain ⟨r, hr, hcols⟩ := List.map_eq_singleton_iff.mp h
  have hcount : queryLogCountByTime db l.time = 1 := by
    rw [countByTime_rowsFrom htime, hr, heq, ← hcols]
    simp
    decide
  simp only [saveCallLog, hcount, zero_lt_one, if_true, ite_self]

end table

/-! ### The three phases -/

namespace InCallApp

/-- The state of the manager belongs to the call; `bMoFlag` is the flag of its screen. -/
structure Follows (m : CallStateManager) (dialled talked : Bool) (reported : CallStatus)
    (bMoFlag : Bool) : Prop where
  number : m.number.isSome
  dialing : m.callState = .dialing → dialled = true ∧ talked = false
  ringing : m.callState = .ringing → dialled = false
  talking : m.callState = .talking → talked = true
  ended : m.callState = .ended → reported = .ended
  known : m.callState ∈ [.dialing, .ringing, .talking, .ended]
  out : dialled = true → talked = true → bMoFlag = true ∧ 2 ≤ progress reported
  came : dialled = false → bMoFlag = false

/-- No screen was created yet. -/
structure Unopened (s : InCallApp) : Prop where
  screens : s.screens = []
  screenInstance : s.screenInstance = none
  commands : s.commands = []
  time : s.start ≤ s.clock
  rows : rowsFrom s.db s.start = []
  reported : s.reported ≠ .ended
  follows : s.manager.callState = .idle ∧ s.dialled = false ∧ s.opening = false ∨
    Follows s.manager s.dialled s.talked s.reported false

/-- The screen is open. -/
structure Open (s : InCallApp) (c : InCallScreen) : Prop where
  screens : s.screens = [c]
  screenInstance : s.screenInstance = some 0
  opening : s.opening = false
  finishing : c.finishing = false
  destroyed : c.destroyed = false
  time : s.start ≤ c.callLog.time
  rows : rowsFrom s.db s.start = []
  answerBtn : c.answerBtn = true → s.dialled = false
  follows : Follows s.manager s.dialled s.talked s.reported c.bMoFlag
  ended : s.manager.callState = .ended →
    savedType s.manager.formerState c.bMoFlag c.callLog.logType = s.callType

/-- The screen has closed. A call that the user hung up opens no other screen. -/
structure Closed (s : InCallApp) (c : InCallScreen) : Prop where
  screens : s.screens = [c]
  opening : s.opening = false
  finishing : c.finishing = true
  time : s.start ≤ c.callLog.time
  stored : ∃ l, s.stored = [l] ∧ l.time = c.callLog.time ∧ l.logType = s.callType
  forced : s.manager.bForceInSC = true → s.reported = .ended

def InOrder (s : InCallApp) : Prop := s.Unopened ∨ ∃ c, s.Open c ∨ s.Closed c

variable {s : InCallApp} {c : InCallScreen}

theorem inOrder_of_open (h : ∃ c, s.Open c) : s.InOrder := by
  obtain ⟨c, hc⟩ := h
  exact .inr ⟨c, .inl hc⟩

theorem inOrder_of_closed (h : ∃ c, s.Closed c) : s.InOrder := by
  obtain ⟨c, hc⟩ := h
  exact .inr ⟨c, .inr hc⟩

theorem callType_ne_all : s.callType ≠ .all := by
  unfold callType
  split_ifs <;> decide

theorem screen_of_single (hs : s.screens = [c]) : s.screen 0 = c := by
  simp [screen, hs]

theorem setScreen_of_single (hs : s.screens = [c]) (c' : InCallScreen) :
    s.setScreen 0 c' = { s with screens := [c'] } := by
  simp [setScreen, hs]

theorem closeCallUI_of_single (hs : s.screens = [c]) :
    s.closeCallUI 0 =
      { s with
        db := saveCallLog s.db (some (c.filledLog s.manager))
        screens := [{ c with callLog := c.filledLog s.manager, finishing := true }] } := by
  simp [closeCallUI, saveLog, finish, screen, setScreen, hs]

/-! ### Closing -/

/-- A screen that closes with the type of the call stores its one row. -/
theorem closes (hs : s.screens = [c]) (hopening : s.opening = false)
    (htime : s.start ≤ c.callLog.time) (hrows : rowsFrom s.db s.start = [])
    (hnumber : s.manager.number.isSome)
    (htype : savedType s.manager.formerState c.bMoFlag c.callLog.logType = s.callType)
    (hforced : s.manager.bForceInSC = true → s.reported = .ended) :
    ∃ c', (s.closeCallUI 0).Closed c' := by
  have hsaveable : (c.filledLog s.manager).saveable = true := by
    simp [CallLog.saveable, InCallScreen.filledLog, hnumber, htype, callType_ne_all]
  rw [closeCallUI_of_single hs]
  refine ⟨_, rfl, hopening, rfl, htime, ⟨c.filledLog s.manager, ?_, rfl, htype⟩, hforced⟩
  exact rowsFrom_save hrows hsaveable rfl htime

/-- A screen that closes again stores nothing. -/
theorem Closed.closeCallUI (h : s.Closed c) : ∃ c', (s.closeCallUI 0).Closed c' := by
  obtain ⟨l, hl, htime, htype⟩ := h.stored
  have hdb : saveCallLog s.db (some (c.filledLog s.manager)) = s.db :=
    saveCallLog_again hl h.time htime.symm
  rw [closeCallUI_of_single h.screens, hdb]
  exact ⟨_, rfl, h.opening, rfl, h.time, ⟨l, hl, htime, htype⟩, h.forced⟩

/-- A closed screen keeps its log, whatever else of it changes. -/
theorem Closed.setScreen (h : s.Closed c) {c' : InCallScreen} (hfinishing : c'.finishing = true)
    (hlog : c'.callLog = c.callLog) : (s.setScreen 0 c').Closed c' := by
  rw [setScreen_of_single h.screens]
  refine ⟨rfl, h.opening, hfinishing, ?_, ?_, h.forced⟩
  · rw [hlog]
    exact h.time
  · rw [hlog]
    exact h.stored

theorem Open.setScreen (h : s.Open c) {c' : InCallScreen} (hfinishing : c'.finishing = false)
    (hdestroyed : c'.destroyed = false) (hlog : c'.callLog = c.callLog)
    (hmo : c'.bMoFlag = c.bMoFlag) (hbtn : c'.answerBtn = true → c.answerBtn = true) :
    (s.setScreen 0 c').Open c' := by
  rw [setScreen_of_single h.screens]
  refine ⟨rfl, h.screenInstance, h.opening, hfinishing, hdestroyed, ?_, h.rows,
    fun hb => h.answerBtn (hbtn hb), ?_, fun he => ?_⟩
  · rw [hlog]
    exact h.time
  · rw [hmo]
    exact h.follows
  · rw [hmo, hlog]
    exact h.ended he

/-- An open screen closes right once the end was reported. -/
theorem Open.closeCallUI (h : s.Open c) (hended : s.manager.callState = .ended) :
    ∃ c', (s.closeCallUI 0).Closed c' :=
  closes h.screens h.opening h.time h.rows h.follows.number (h.ended hended)
    fun _ => h.follows.ended hended

/-! ### Reports -/

/-- The state that the call was in before it ends gives the type of the call. -/
theorem Open.savedType_callState (h : s.Open c) (hended : s.manager.callState ≠ .ended)
    (hring : s.manager.callState = .ringing → s.talked = false) :
    savedType s.manager.callState c.bMoFlag c.callLog.logType = s.callType := by
  have hf := h.follows
  have hknown := hf.known
  simp only [List.mem_cons, List.not_mem_nil, or_false, hended] at hknown
  obtain hst | hst | hst := hknown
  · simp [hst, savedType, callType, hf.dialing hst]
  · simp [hst, savedType, callType, hf.ringing hst, hring hst]
  · have htalked := hf.talking hst
    cases hd : s.dialled with
    | true => simp [hst, savedType, callType, hd, (hf.out hd htalked).1]
    | false => simp [hst, savedType, callType, hd, htalked, hf.came hd]

theorem logType_of_beganRight (h : s.beganRight c = true) : c.callLog.logType = s.callType := by
  unfold beganRight at h
  split at h
  · next hlog => simp [hlog, callType, h]
  · next hlog =>
    simp only [Bool.and_eq_true, Bool.not_eq_true'] at h
    simp [hlog, callType, h]
  · cases h

theorem openSingleCallUI_of_live (hs : s.screens = [c]) (hfinishing : c.finishing = false) :
    s.openSingleCallUI = s := by
  have hall : s.screens.all InCallScreen.finishing = false := by simp [hs, hfinishing]
  rw [openSingleCallUI, hall, Bool.or_false]

theorem sendBroadcast_of_single (hs : s.screens = [c]) :
    s.sendBroadcast = s.setScreen 0
      (if c.destroyed then c else { c with broadcasts := c.broadcasts + 1 }) := by
  simp [sendBroadcast, setScreen, hs]

/-- An open screen stays open when the manager changes with the call. -/
theorem Open.changed (h : s.Open c) {m : CallStateManager} {talked : Bool} {reported : CallStatus}
    {commands : List Command} (hf : Follows m s.dialled talked reported c.bMoFlag)
    (hended : m.callState = .ended → savedType m.formerState c.bMoFlag c.callLog.logType =
      { s with talked := talked }.callType) :
    { s with
      manager := m, talked := talked, reported := reported, commands := commands }.Open c :=
  ⟨h.screens, h.screenInstance, h.opening, h.finishing, h.destroyed, h.time, h.rows, h.answerBtn,
    hf, hended⟩

theorem Open.broadcast (h : s.Open c) : ∃ c', s.sendBroadcast.Open c' := by
  rw [sendBroadcast_of_single h.screens, if_neg (by simp [h.destroyed])]
  exact ⟨_, h.setScreen h.finishing h.destroyed rfl rfl id⟩

/-- The manager takes a state that is reported. -/
theorem follows_report {m : CallStateManager} {dialled talked bMoFlag : Bool} {callId : ℤ}
    {number : String} {callState : CallStatus}
    (hknown : callState ∈ [.dialing, .ringing, .talking, .ended])
    (hdialing : callState = .dialing → dialled = true ∧ talked = false)
    (hringing : callState = .ringing → dialled = false)
    (htalking : callState = .talking → dialled = true → bMoFlag = true)
    (hended : callState = .ended → dialled = true → talked = true → bMoFlag = true)
    (hcame : dialled = false → bMoFlag = false) :
    Follows (m.setCurrentCallState callId number callState) dialled
      (talked || decide (callState = .talking)) callState bMoFlag := by
  refine ⟨rfl, fun hst => ?_, hringing, fun hst => ?_, id, hknown, fun hd ht => ?_, hcame⟩
  · obtain ⟨hd, ht⟩ := hdialing hst
    change callState = .dialing at hst
    simp [hd, ht, hst]
  · change callState = .talking at hst
    simp [hst]
  · simp only [List.mem_cons, List.not_mem_nil, or_false] at hknown
    obtain rfl | rfl | rfl | rfl := hknown
    · simp [(hdialing rfl).2] at ht
    · simp [hringing rfl] at hd
    · exact ⟨htalking rfl hd, le_rfl⟩
    · exact ⟨hended rfl hd (by simpa using ht), by decide⟩

/-- A call that the user dialled and that talks does not dial again. -/
theorem Follows.not_talked {m : CallStateManager} {dialled talked bMoFlag : Bool}
    {reported : CallStatus} (h : Follows m dialled talked reported bMoFlag) (hd : dialled = true)
    (hr : progress reported ≤ 1) : talked = false := by
  by_contra ht
  have := (h.out hd (by simpa using ht)).2
  omega

theorem reportable_dialing (he : s.reportable .dialing = true) :
    s.dialled = true ∧ progress s.reported ≤ 1 := by
  simpa [reportable] using he

theorem reportable_ringing (he : s.reportable .ringing = true) : s.dialled = false := by
  simp only [reportable, Bool.and_eq_true, Bool.not_eq_true'] at he
  exact he.1

theorem reportable_mem {callState : CallStatus} (he : s.reportable callState = true) :
    callState ∈ [.dialing, .ringing, .talking, .ended] := by
  cases callState <;> first | decide | cases he

/-- The manager of an open screen takes a state that is reported. -/
theorem Open.note (h : s.Open c) {callId : ℤ} {number : String} {callState : CallStatus}
    (he : s.reportable callState = true)
    (hok : (InCallEvent.report callId number callState).fits s = true) :
    ((s.noteReport callState).setCurrentCallState callId number callState).Open c := by
  have hf := h.follows
  have hclosed : s.closed = false := by simp [closed, h.screens, h.finishing]
  apply h.changed
  · apply follows_report (reportable_mem he) _ _ _ _ hf.came
    · rintro rfl
      obtain ⟨hd, hr⟩ := reportable_dialing he
      exact ⟨hd, hf.not_talked hd hr⟩
    · rintro rfl
      exact reportable_ringing he
    · rintro rfl hd
      simpa [InCallEvent.fits, hclosed, h.screens, hd] using hok
    · intro _ hd ht
      exact (hf.out hd ht).1
  · intro hst
    obtain rfl : callState = .ended := hst
    simp only [InCallEvent.fits, hclosed, Bool.false_or, mayEnd, Bool.and_eq_true] at hok
    obtain ⟨⟨-, hring⟩, hagain⟩ := hok
    have htype : savedType s.manager.callState c.bMoFlag c.callLog.logType = s.callType := by
      by_cases hended : s.manager.callState = .ended
      · have hbegan : s.beganRight c = true := by simpa [hended, h.screens] using hagain
        rw [hended]
        exact logType_of_beganRight hbegan
      · exact h.savedType_callState hended fun hst => by simpa [hst] using hring
    simpa [callType, noteReport, CallStateManager.setCurrentCallState] using htype

/-- A state that is reported to an open screen. -/
theorem Open.report (h : s.Open c) {callId : ℤ} {number : String} {callState : CallStatus}
    (he : s.reportable callState = true)
    (hok : (InCallEvent.report callId number callState).fits s = true) :
    ∃ c', ((InCallEvent.report callId number callState).step s).Open c' := by
  have hnote := h.note he hok
  simp only [InCallEvent.step, jniUpdateCallState]
  cases callState with
  | dialing =>
    refine ⟨c, ?_⟩
    simp only [openSingleCallUI_of_live hnote.screens hnote.finishing, ite_self]
    exact hnote
  | ringing =>
    refine ⟨c, ?_⟩
    simp only [openSingleCallUI_of_live hnote.screens hnote.finishing]
    exact hnote
  | talking =>
    simp only [hnote.screenInstance, Option.isNone_some, Bool.false_eq_true, if_false]
    exact hnote.broadcast
  | ended =>
    simp only [hnote.screenInstance, Option.isNone_some, Bool.false_eq_true, if_false]
    exact hnote.broadcast
  | _ => cases he

/-- A state that is reported before the screen is there opens it at most. -/
theorem Unopened.report (h : s.Unopened) {callId : ℤ} {number : String} {callState : CallStatus}
    (he : s.reportable callState = true)
    (hok : (InCallEvent.report callId number callState).fits s = true) :
    ((InCallEvent.report callId number callState).step s).Unopened := by
  have hclosed : s.closed = false := by simp [closed, h.screens]
  have hne : callState ≠ .ended := by
    rintro rfl
    simp [InCallEvent.fits, hclosed, mayEnd, h.screens] at hok
  have hfollows : Follows (s.manager.setCurrentCallState callId number callState) s.dialled
      (s.talked || decide (callState = .talking)) callState false := by
    apply follows_report (reportable_mem he) _ _ _ _ fun _ => rfl
    · rintro rfl
      obtain ⟨hd, hr⟩ := reportable_dialing he
      refine ⟨hd, ?_⟩
      obtain ⟨-, hno, -⟩ | hf := h.follows
      · simp [hd] at hno
      · exact hf.not_talked hd hr
    · rintro rfl
      exact reportable_ringing he
    · rintro rfl hd
      simp [InCallEvent.fits, hclosed, h.screens, hd] at hok
    · intro hst
      exact absurd hst hne
  have hopening : ∀ opening, { (s.noteReport callState).setCurrentCallState callId number
      callState with opening := opening }.Unopened := fun _ =>
    ⟨h.screens, h.screenInstance, h.commands, h.time, h.rows, hne, .inr hfollows⟩
  simp only [InCallEvent.step, jniUpdateCallState]
  cases callState with
  | dialing =>
    dsimp only
    split_ifs
    · apply hopening
    · apply hopening
  | ringing => apply hopening
  | talking =>
    have hnone : s.screenInstance.isNone = true := by simp [h.screenInstance]
    simp only [noteReport, setCurrentCallState, hnone, if_true]
    apply hopening
  | ended => exact absurd rfl hne
  | _ => cases he

/-- A closed screen stays closed when the manager changes. -/
theorem Closed.changed (h : s.Closed c) {m : CallStateManager} {talked : Bool}
    {reported : CallStatus} {screenInstance : Option ℕ} {commands : List Command}
    (htype : { s with talked := talked }.callType = s.callType)
    (hforced : m.bForceInSC = true → reported = .ended) :
    { s with
      manager := m
      talked := talked
      reported := reported
      screenInstance := screenInstance
      commands := commands }.Closed c := by
  obtain ⟨l, hl, htime, hlog⟩ := h.stored
  exact ⟨h.screens, h.opening, h.finishing, h.time, ⟨l, hl, htime, hlog.trans htype.symm⟩, hforced⟩

theorem Closed.broadcast (h : s.Closed c) : ∃ c', s.sendBroadcast.Closed c' := by
  rw [sendBroadcast_of_single h.screens]
  refine ⟨_, h.setScreen ?_ ?_⟩
  · split_ifs
    · exact h.finishing
    · exact h.finishing
  · split_ifs <;> rfl

/-- After the screen has closed a state opens no other one. -/
theorem Closed.report (h : s.Closed c) {callId : ℤ} {number : String} {callState : CallStatus}
    (he : s.reportable callState = true)
    (hok : (InCallEvent.report callId number callState).fits s = true) :
    ∃ c', ((InCallEvent.report callId number callState).step s).Closed c' := by
  have hclosed : s.closed = true := by simp [closed, h.screens, h.finishing]
  have hforced : progress s.reported ≤ 2 → s.manager.bForceInSC = false := by
    intro hp
    by_contra hb
    rw [h.forced (by simpa using hb)] at hp
    exact absurd hp (by decide)
  simp only [InCallEvent.step, jniUpdateCallState]
  cases callState with
  | dialing =>
    obtain ⟨-, hr⟩ := reportable_dialing he
    have hb := hforced (by omega)
    simp only [noteReport, setCurrentCallState, CallStateManager.setCurrentCallState, hb,
      Bool.false_eq_true, if_false]
    refine ⟨c, h.changed ?_ ?_⟩
    · simp [callType]
    · simp
  | ringing => simp [InCallEvent.fits, hclosed] at hok
  | talking =>
    simp only [reportable, decide_eq_true_eq] at he
    have hb := hforced he
    simp only [InCallEvent.fits, hclosed, if_true, Bool.and_eq_true, Bool.or_eq_true] at hok
    have hnone : s.screenInstance.isNone = false := by
      rw [← Option.not_isSome, hok.1, Bool.not_true]
    simp only [noteReport, setCurrentCallState, hnone, Bool.false_eq_true, if_false]
    apply Closed.broadcast (c := c)
    apply h.changed
    · obtain hd | ht := hok.2
      · simp [callType, hd]
      · simp [callType, ht]
    · simp [CallStateManager.setCurrentCallState, hb]
  | ended =>
    apply Closed.broadcast (c := c)
    have htype : (s.noteReport .ended).callType = s.callType := by simp [callType, noteReport]
    split_ifs
    · exact h.changed htype fun _ => rfl
    · exact h.changed htype fun _ => rfl
  | _ => cases he

/-! ### What the screen does -/

theorem eq_zero_of_single {k : ℕ} (hs : s.screens = [c]) (hk : k < s.screens.length) : k = 0 := by
  rw [hs, List.length_singleton] at hk
  omega

/-- The first screen begins its log and has no flag yet. -/
theorem Unopened.onCreate (h : s.Unopened) {time : ℤ} (hopening : s.opening = true)
    (htime : s.clock ≤ time) : ∃ c, (s.onCreate time).Open c := by
  obtain ⟨-, -, hno⟩ | hf := h.follows
  · rw [hno] at hopening
    cases hopening
  have hscreens : (s.onCreate time).screens = [{
      callLog := initCallLog s.manager.callState time
      answerBtn := s.manager.callState = .ringing }] := by simp [InCallApp.onCreate, h.screens]
  refine ⟨_, hscreens, ?_, rfl, rfl, rfl, h.time.trans htime, h.rows, ?_, hf, ?_⟩
  · simp [InCallApp.onCreate, h.screens]
  · intro hbtn
    exact hf.ringing (of_decide_eq_true hbtn)
  · intro hended
    exact absurd (hf.ended hended) h.reported

/-- Who ended the call is all that `otherHangUP` sets. -/
theorem otherHangUP_eq (c : InCallScreen) (m : CallStateManager) :
    ∃ isOtherHangUP, c.otherHangUP m = { c with isOtherHangUP := isOtherHangUP } := by
  unfold InCallScreen.otherHangUP
  split
  all_goals exact ⟨_, rfl⟩

theorem Open.startTimer (h : s.Open c) : ∃ c', (s.updateCallState 0 .talking).Open c' := by
  simp only [InCallApp.updateCallState, screen_of_single h.screens]
  exact ⟨_, h.setScreen h.finishing h.destroyed rfl rfl id⟩

/-- An open screen that reads the state of the call closes when the call has ended. -/
theorem Open.updateCallState (h : s.Open c) :
    (s.updateCallState 0 s.manager.callState).InOrder := by
  have hscreen := screen_of_single h.screens
  cases hst : s.manager.callState with
  | talking =>
    exact inOrder_of_open h.startTimer
  | ended =>
    obtain ⟨b, hb⟩ := otherHangUP_eq c s.manager
    simp only [InCallApp.updateCallState, hscreen, hb]
    have hopen : (s.setScreen 0 { c with isOtherHangUP := b, timer := false }).Open _ :=
      h.setScreen h.finishing h.destroyed rfl rfl id
    exact inOrder_of_closed (hopen.closeCallUI hst)
  | _ => exact inOrder_of_open ⟨c, h⟩

/-- A flag that goes with the state of the call. -/
theorem Open.setMo (h : s.Open c) {bMoFlag : Bool} (hended : s.manager.callState ≠ .ended)
    (hf : Follows s.manager s.dialled s.talked s.reported bMoFlag) :
    (s.setScreen 0 { c with bMoFlag := bMoFlag }).Open { c with bMoFlag := bMoFlag } := by
  rw [setScreen_of_single h.screens]
  exact ⟨rfl, h.screenInstance, h.opening, h.finishing, h.destroyed, h.time, h.rows, h.answerBtn,
    hf, fun he => absurd he hended⟩

/-- Resuming sets the flag of a call that dials, and clears it for a call that comes in. -/
theorem Open.resumeCallState (h : s.Open c) : (s.resumeCallState 0).InOrder := by
  have hscreen := screen_of_single h.screens
  have hf := h.follows
  unfold InCallApp.resumeCallState
  cases hst : s.manager.callState with
  | ringing =>
    have hd := hf.ringing hst
    simp only [hscreen]
    refine inOrder_of_open ⟨_, h.setMo (by simp [hst]) ⟨hf.number, hf.dialing, hf.ringing,
      hf.talking, hf.ended, hf.known, ?_, fun _ => rfl⟩⟩
    simp [hd]
  | dialing =>
    obtain ⟨hd, ht⟩ := hf.dialing hst
    simp only [hscreen]
    refine inOrder_of_open ⟨_, h.setMo (by simp [hst]) ⟨hf.number, hf.dialing, hf.ringing,
      hf.talking, hf.ended, hf.known, ?_, ?_⟩⟩
    · simp [ht]
    · simp [hd]
  | ended =>
    obtain ⟨b, hb⟩ := otherHangUP_eq c s.manager
    simp only [hscreen, hb]
    have hopen : (s.setScreen 0 { c with isOtherHangUP := b }).Open _ :=
      h.setScreen h.finishing h.destroyed rfl rfl id
    exact inOrder_of_closed (hopen.closeCallUI hst)
  | talking =>
    have hupdate := h.updateCallState
    rwa [hst] at hupdate
  | _ =>
    have hknown := hf.known
    rw [hst] at hknown
    simp at hknown

theorem Open.onResume (h : s.Open c) : (s.onResume 0).InOrder := by
  unfold InCallApp.onResume
  rw [screen_of_single h.screens]
  have hopen : (s.setScreen 0 { c with resumed := true }).Open _ :=
    h.setScreen h.finishing h.destroyed rfl rfl id
  exact hopen.resumeCallState

theorem Open.onReceive (h : s.Open c) : (s.onReceive 0).InOrder := by
  unfold InCallApp.onReceive
  rw [screen_of_single h.screens]
  have hopen : (s.setScreen 0 { c with broadcasts := c.broadcasts - 1 }).Open _ :=
    h.setScreen h.finishing h.destroyed rfl rfl id
  exact hopen.updateCallState

/-- A closed screen that reads the state of the call stores nothing. -/
theorem Closed.updateCallState (h : s.Closed c) (callState : CallStatus) :
    ∃ c', (s.updateCallState 0 callState).Closed c' := by
  have hscreen := screen_of_single h.screens
  cases callState with
  | talking =>
    simp only [InCallApp.updateCallState, hscreen]
    exact ⟨_, h.setScreen h.finishing rfl⟩
  | ended =>
    obtain ⟨b, hb⟩ := otherHangUP_eq c s.manager
    simp only [InCallApp.updateCallState, hscreen, hb]
    have hclosed : (s.setScreen 0 { c with isOtherHangUP := b, timer := false }).Closed _ :=
      h.setScreen h.finishing rfl
    exact hclosed.closeCallUI
  | _ => exact ⟨c, h⟩

theorem Closed.onReceive (h : s.Closed c) : ∃ c', (s.onReceive 0).Closed c' := by
  unfold InCallApp.onReceive
  rw [screen_of_single h.screens]
  have hclosed : (s.setScreen 0 { c with broadcasts := c.broadcasts - 1 }).Closed _ :=
    h.setScreen h.finishing rfl
  exact hclosed.updateCallState _

/-- A screen that is destroyed clears the manager, or leaves it as it is. -/
theorem Closed.onDestroy (h : s.Closed c) : ∃ c', (s.onDestroy 0).Closed c' := by
  unfold InCallApp.onDestroy
  rw [screen_of_single h.screens]
  have hclosed : (s.setScreen 0 { c with destroyed := true, broadcasts := 0 }).Closed _ :=
    h.setScreen h.finishing rfl
  have hcleared : { s.setScreen 0 { c with destroyed := true, broadcasts := 0 } with
      screenInstance := none
      manager := {} }.Closed _ := hclosed.changed rfl (by simp)
  dsimp only
  split
  all_goals first | exact ⟨_, hclosed⟩ | exact ⟨_, hcleared⟩

/-! ### What the user does -/

/-- The user answers a call that has not ended. -/
theorem Open.answer (h : s.Open c) (hbtn : c.answerBtn = true ∨ s.manager.callState = .ringing) :
    ∃ c', ({ s with talked := true }.answer 0).Open c' := by
  have hf := h.follows
  have hd : s.dialled = false := by
    obtain hbtn | hst := hbtn
    · exact h.answerBtn hbtn
    · exact hf.ringing hst
  have htalks : { s with
      talked := true
      commands := s.commands ++ [Command.answerCall]
      manager := s.manager.setCallState .talking }.Open c := by
    apply h.changed
    · refine ⟨hf.number, ?_, ?_, ?_, ?_, ?_, ?_, hf.came⟩
      all_goals simp [CallStateManager.setCallState, hd]
    · simp [CallStateManager.setCallState]
  obtain ⟨c', hc'⟩ := htalks.startTimer
  unfold InCallApp.answer
  dsimp only
  rw [screen_of_single hc'.screens]
  exact ⟨_, hc'.setScreen hc'.finishing hc'.destroyed rfl rfl nofun⟩

/-- The user hangs up a call that is in the state it was in. -/
theorem Open.hangup (h : s.Open c)
    (hring : s.manager.callState = .ringing → s.talked = false) : (s.hangup 0).InOrder := by
  have hf := h.follows
  have hscreen := screen_of_single h.screens
  have hnumber : s.manager.number ≠ none := Option.isSome_iff_ne_none.mp hf.number
  have hidle : s.manager.callState ≠ .idle := by
    intro hst
    have hknown := hf.known
    simp [hst] at hknown
  unfold InCallApp.hangup
  by_cases hid : s.manager.callId < 0
  · simp only [if_pos hid]
    exact inOrder_of_open ⟨c, h⟩
  by_cases hended : s.manager.callState = .ended
  · simp only [if_neg hid, hended, or_true, true_or, if_true, h.screenInstance, Option.isSome_some]
    exact inOrder_of_closed (h.closeCallUI hended)
  simp only [if_neg hid, hidle, hended, hnumber, or_self, if_false, hscreen]
  have hopen : (s.setScreen 0 { c with
      timer := c.timer && decide (s.manager.callState ≠ .talking)
      isMyHangUP := true }).Open _ := h.setScreen h.finishing h.destroyed rfl rfl id
  have hclosed := closes (s := { s.setScreen 0 { c with
      timer := c.timer && decide (s.manager.callState ≠ .talking)
      isMyHangUP := true } with
      manager := { s.manager.setCallState (hangupState s.manager.callState) with
        bForceInSC := false } }) hopen.screens hopen.opening hopen.time hopen.rows hf.number
    (h.savedType_callState hended hring) (by simp)
  obtain ⟨c', hc'⟩ := hclosed
  exact inOrder_of_closed ⟨c', hc'.changed rfl hc'.forced⟩

theorem Closed.finish (h : s.Closed c) (k : ℕ) : ∃ c', (s.finish k).Closed c' := by
  cases k with
  | zero =>
    unfold InCallApp.finish
    rw [screen_of_single h.screens]
    exact ⟨_, h.setScreen rfl rfl⟩
  | succ k =>
    have hset : ∀ c', s.screens.set (k + 1) c' = s.screens := fun _ =>
      List.set_eq_of_length_le (by simp [h.screens])
    rw [InCallApp.finish, InCallApp.setScreen, hset]
    exact ⟨c, h⟩

theorem Closed.requestFailed (h : s.Closed c) : ∃ c', s.requestFailed.Closed c' := by
  have hcleared : { s with manager := {} }.Closed c := h.changed rfl (by simp)
  unfold InCallApp.requestFailed
  dsimp only
  split
  · split_ifs
    · exact hcleared.finish _
    · exact ⟨c, hcleared⟩
  · exact ⟨c, hcleared⟩

/-- A request that fails after the screen has closed stores nothing. -/
theorem Closed.handleCommand (h : s.Closed c) (result : Bool) :
    ∃ c', (s.handleCommand result).Closed c' := by
  have htail : { s with commands := s.commands.tail }.Closed c := h.changed rfl h.forced
  unfold InCallApp.handleCommand
  dsimp only
  split_ifs
  · exact ⟨c, htail⟩
  · exact htail.requestFailed

/-! ### The run -/

theorem init_inOrder (h : inCallApp.init s) : s.InOrder := by
  obtain ⟨m, db, clock, hidle, htimes, hs⟩ := h
  have hrows : rowsFrom db clock = [] := by
    simp only [rowsFrom, List.filter_eq_nil_iff, decide_eq_true_eq, not_le]
    exact htimes
  left
  obtain rfl | ⟨number, rfl | rfl⟩ := hs
  · exact ⟨rfl, rfl, rfl, le_rfl, hrows, nofun, .inl ⟨hidle, rfl, rfl⟩⟩
  · refine ⟨rfl, rfl, rfl, le_rfl, hrows, nofun, .inr ⟨rfl, ?_, ?_, ?_, ?_, ?_, ?_, ?_⟩⟩
    all_goals simp [makeCall, CallStateManager.setCurrentCallState]
  · refine ⟨rfl, rfl, rfl, le_rfl, hrows, nofun, .inr ⟨rfl, ?_, ?_, ?_, ?_, ?_, ?_, ?_⟩⟩
    all_goals simp [commMakeCall]

theorem Unopened.step (h : s.Unopened) {e : InCallEvent} (he : e.possible s = true)
    (hok : e.fits s = true) : (e.step s).InOrder := by
  cases e with
  | report callId number callState => exact .inl (h.report he hok)
  | create time =>
    simp only [InCallEvent.possible, Bool.and_eq_true, decide_eq_true_eq] at he
    exact inOrder_of_open (h.onCreate he.1 he.2)
  | command result => simp [InCallEvent.possible, h.commands] at he
  | _ => simp [InCallEvent.possible, h.screens] at he

theorem Open.step (h : s.Open c) {e : InCallEvent} (he : e.possible s = true)
    (hok : e.fits s = true) : (e.step s).InOrder := by
  have hscreen := screen_of_single h.screens
  have hzero : ∀ {k}, k < s.screens.length → k = 0 := eq_zero_of_single h.screens
  cases e with
  | report callId number callState =>
    exact inOrder_of_open (h.report he hok)
  | create time => simp [InCallEvent.possible, h.opening] at he
  | command result =>
    have hclosed : s.closed = false := by simp [closed, h.screens, h.finishing]
    simp only [InCallEvent.fits, hclosed, Bool.or_false] at hok
    simp only [InCallEvent.step, InCallApp.handleCommand, hok, or_true, if_true]
    exact inOrder_of_open ⟨c, h.changed h.follows h.ended⟩
  | destroy k =>
    simp only [InCallEvent.possible, Bool.and_eq_true, decide_eq_true_eq] at he
    obtain rfl := hzero he.1.1.1
    simp [hscreen, h.finishing] at he
  | resume k =>
    simp only [InCallEvent.possible, Bool.and_eq_true, decide_eq_true_eq] at he
    obtain rfl := hzero he.1.1
    exact h.onResume
  | receive k =>
    simp only [InCallEvent.possible, Bool.and_eq_true, decide_eq_true_eq] at he
    obtain rfl := hzero he.1
    exact h.onReceive
  | answer k =>
    simp only [InCallEvent.possible, Bool.and_eq_true, Bool.or_eq_true, decide_eq_true_eq] at he
    obtain ⟨⟨⟨hk, -⟩, -⟩, hbtn⟩ := he
    obtain rfl := hzero hk
    rw [hscreen] at hbtn
    exact inOrder_of_open (h.answer hbtn)
  | hangup k =>
    simp only [InCallEvent.possible, Bool.and_eq_true, decide_eq_true_eq] at he
    obtain rfl := hzero he.1.1
    exact h.hangup fun hst => by simpa [InCallEvent.fits, hst] using hok
  | pause k | stop k | tick k =>
    all_goals
      simp only [InCallEvent.possible, Bool.and_eq_true, decide_eq_true_eq] at he
      obtain rfl : k = 0 := hzero (by tauto)
      simp only [InCallEvent.step, onPause, onStop, onTick, hscreen]
      exact inOrder_of_open ⟨_, h.setScreen h.finishing h.destroyed rfl rfl id⟩

theorem Closed.step (h : s.Closed c) {e : InCallEvent} (he : e.possible s = true)
    (hok : e.fits s = true) : ∃ c', (e.step s).Closed c' := by
  have hscreen := screen_of_single h.screens
  have hzero : ∀ {k}, k < s.screens.length → k = 0 := eq_zero_of_single h.screens
  cases e with
  | report callId number callState => exact h.report he hok
  | create time => simp [InCallEvent.possible, h.opening] at he
  | command result => exact h.handleCommand result
  | destroy k =>
    simp only [InCallEvent.possible, Bool.and_eq_true, decide_eq_true_eq] at he
    obtain rfl := hzero he.1.1.1
    exact h.onDestroy
  | receive k =>
    simp only [InCallEvent.possible, Bool.and_eq_true, decide_eq_true_eq] at he
    obtain rfl := hzero he.1
    exact h.onReceive
  | resume k | answer k | hangup k =>
    all_goals
      simp only [InCallEvent.possible, Bool.and_eq_true, decide_eq_true_eq] at he
      obtain rfl : k = 0 := hzero (by tauto)
      simp [hscreen, h.finishing] at he
  | pause k | stop k | tick k =>
    all_goals
      simp only [InCallEvent.possible, Bool.and_eq_true, decide_eq_true_eq] at he
      obtain rfl : k = 0 := hzero (by tauto)
      simp only [InCallEvent.step, onPause, onStop, onTick, hscreen]
      exact ⟨_, h.setScreen h.finishing rfl⟩

/-- A step that fits keeps the phase or leads to the next one. -/
theorem InOrder.step (h : s.InOrder) {e : InCallEvent} (he : e.possible s = true)
    (hok : e.fits s = true) : (e.step s).InOrder := by
  obtain h | ⟨c, h | h⟩ := h
  · exact h.step he hok
  · exact h.step he hok
  · exact inOrder_of_closed (h.step he hok)

/-- A call that is over left its one row. -/
theorem InOrder.classified (h : s.InOrder) : s.Classified := by
  intro hover
  simp only [isOver, Bool.and_eq_true, decide_eq_true_eq] at hover
  obtain h | ⟨c, h | h⟩ := h
  · exact absurd hover.1.1 h.reported
  · simp [h.screens, h.destroyed] at hover
  · obtain ⟨l, hl, -, htype⟩ := h.stored
    rw [hl, List.map_singleton, htype]

end InCallApp

open InCallApp

/-- Where every step of a run fits, the call leaves one row and it has the type of the call. -/
theorem call_classified {s : InCallApp}
    (h : inCallApp.Reached (fun s e => e.fits s = true) s) : s.Classified := by
  have hinOrder : s.InOrder := by
    apply h.invariant
    · intro s hs
      exact init_inOrder hs
    · intro s e hs he hok
      exact hs.step he hok
  exact hinOrder.classified

theorem init_commMakeCall : inCallApp.init (.commMakeCall {} {} 5 "100") :=
  ⟨{}, {}, 5, rfl, nofun, .inr ⟨"100", .inr rfl⟩⟩

/-- The user dials, talks, and the other one hangs up. -/
def dialledRun : List InCallEvent :=
  [.report 0 "100" .dialing, .create 5, .resume 0, .report 0 "100" .talking, .receive 0,
    .report 0 "100" .ended, .receive 0, .pause 0, .stop 0, .destroy 0]

theorem dialledRun_classified :
    (inCallApp.run (.commMakeCall {} {} 5 "100") dialledRun).isOver ∧
      (inCallApp.run (.commMakeCall {} {} 5 "100") dialledRun).Classified :=
  ⟨by decide +kernel, call_classified (System.reached_run init_commMakeCall (by decide +kernel))⟩

/-- A call rings and ends unanswered, and the end is reported twice before the screen reads it. -/
def endedTwiceRun : List InCallEvent :=
  [.report 0 "100" .ringing, .create 5, .resume 0, .report 0 "100" .ended, .report 0 "100" .ended,
    .receive 0, .pause 0, .stop 0, .destroy 0]

/-- The call was never talking, and its row says that it was answered. -/
theorem ended_twice_is_answered :
    ¬∀ s, inCallApp.Reached (fun _ _ => True) s → s.Classified := by
  intro h
  have hinit : inCallApp.init (.incoming {} {} 5) := ⟨{}, {}, 5, rfl, nofun, .inl rfl⟩
  have hreached : inCallApp.Reached (fun _ _ => True)
      (inCallApp.run (.incoming {} {} 5) endedTwiceRun) :=
    System.reached_run hinit (by decide +kernel)
  have hclassified := h _ hreached
  revert hclassified
  decide +kernel

end PttTerminal
