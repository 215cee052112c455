import PttTerminal.CallDesk

/-!
# A dial that fails

A number is dialled on its screen, which calls `RequestMakeCall` itself, or by a command of the
service. Only the command looks for the number among the groups and forgets the call when the request
fails. On both ways a request that the native code refuses ends the floor status, as a refused
application for the floor does, while one that is refused before it is made leaves it alone.
-/
namespace PttTerminal

open Terminal

/-- A number is dialled; the number of a command may be missing. -/
inductive DialPath where
  | dialActivity (strNum : Bytes)
  | command (numberInfo : Option Bytes)
  deriving Repr, DecidableEq

namespace DialPath

def number : DialPath → Option Bytes
  | .dialActivity strNum => some strNum
  | .command numberInfo => numberInfo

def run (native : ℤ) (t : Terminal) : DialPath → Terminal
  | .dialActivity strNum => t.makeCall native strNum
  | .command numberInfo => t.handleCommand native (.makeCall numberInfo)

/-- The state with the number in the record of the call, which is a new one on the screen. -/
def dialling (t : Terminal) : DialPath → Terminal
  | .dialActivity strNum =>
    { t with currentCallState := { number := some strNum, callState := .dialing } }
  | .command numberInfo =>
    { t with currentCallState.callState := .dialing, currentCallState.number := numberInfo }

/-- Whether `RequestMakeCall` is called. -/
def asks (t : Terminal) : DialPath → Bool
  | .dialActivity strNum => !strNum.isEmpty
  | .command numberInfo => !t.exitFlag && numberInfo.isSome && !t.checkIsGroupNum numberInfo

/-- What follows on the result. -/
def close (r : ℤ × Terminal) : DialPath → Terminal
  | .dialActivity _ => r.2
  | .command _ => if r.1 ≠ 0 then r.2.clearCall else r.2

variable {native : ℤ} {t : Terminal} {path : DialPath}

/-- Where it is called, in that state, both ways go on with the result. -/
theorem run_of_asks (h : path.asks t = true) :
    path.run native t = path.close ((path.dialling t).requestMakeCall native) := by
  cases path with
  | dialActivity strNum =>
    have hempty : ¬ strNum.isEmpty = true := by simpa [asks] using h
    simp only [run, Terminal.makeCall]
    rw [if_neg hempty]
    rfl
  | command numberInfo =>
    obtain ⟨⟨he, hsome⟩, hgroup⟩ : (t.exitFlag = false ∧ numberInfo.isSome = true) ∧
        t.checkIsGroupNum numberInfo = false := by simpa [asks] using h
    have hskip : ¬ (numberInfo.isNone || t.checkIsGroupNum numberInfo) = true := by
      simp [hgroup, Option.isSome_iff_ne_none.mp hsome]
    simp only [run, handleCommand, handleMakeCall]
    rw [if_neg (by simp [he]), if_neg hskip]
    rfl

theorem run_of_not_asks (h : path.asks t = false) : path.run native t = t := by
  cases path with
  | dialActivity strNum =>
    simp only [run, Terminal.makeCall]
    rw [if_pos (by simpa [asks] using h)]
  | command numberInfo =>
    simp only [run, handleCommand]
    by_cases he : t.exitFlag = true
    · rw [if_pos he]
    · rw [if_neg he, handleMakeCall, if_pos]
      cases numberInfo with
      | none => rfl
      | some number => simpa [asks, he] using h

/-- The request is made and does not succeed. -/
def fails (native : ℤ) (t : Terminal) (path : DialPath) : Bool :=
  path.asks t && ((path.dialling t).requestMakeCall native).1 ≠ 0

/-- The number is that of a group. -/
def listed (t : Terminal) (path : DialPath) : Bool :=
  t.lstGroupData.any fun g => some g.number = path.number

/-- Nothing is asked for a group, and after a failed request no call is left, and the floor is as it
was. -/
structure LeavesNoTrace (native : ℤ) (t : Terminal) (path : DialPath) : Prop where
  group : path.listed t = true → path.asks t = false
  callState : path.fails native t = true →
    (path.run native t).currentCallState.callState = .idle
  force : path.fails native t = true → (path.run native t).bForceInSC = false
  status : path.fails native t = true →
    (path.run native t).pttGroupStatus.status = t.pttGroupStatus.status
  speaker : path.fails native t = true →
    (path.run native t).pttGroupStatus.speakerNum = t.pttGroupStatus.speakerNum

/-- The native code is not asked, or takes the call. -/
def accepted (native : ℤ) (t : Terminal) : Bool := !t.registered || native = 0

/-- The screen dials nothing, or a number that is no group's, with success. The command may fail in
front of the native code, or while the floor is free and nobody speaks. -/
def harmless (native : ℤ) (t : Terminal) (path : DialPath) : Bool :=
  match path with
  | .dialActivity strNum => strNum.isEmpty || !path.listed t && t.registered && native = 0
  | .command numberInfo =>
    t.exitFlag || numberInfo.isNone || t.checkIsGroupNum numberInfo ||
      !path.listed t && (accepted native t ||
        t.pttGroupStatus.status = .free && t.pttGroupStatus.speakerNum.isNone)

/-- Only a request that the native code refuses changes the floor. -/
theorem requestMakeCall_floor (native : ℤ) (t : Terminal) :
    (t.requestMakeCall native).2.pttGroupStatus =
      if accepted native t then t.pttGroupStatus
      else { t.pttGroupStatus with status := .free, speakerNum := none } := by
  unfold requestMakeCall accepted
  cases hreg : t.registered with
  | false => rw [if_pos (by simp [checkValidation, hreg])]; rfl
  | true =>
    rw [if_neg (by simp [checkValidation, hreg]), checkResult]
    by_cases hnative : native = 0
    · simp [hnative]
    · have haccepted : (!true || decide (native = 0)) = false := by simp [hnative]
      rw [if_pos hnative, haccepted]
      by_cases hshow : native = 70010 ∨ native = 120128
      · rw [if_pos hshow]
        rfl
      · rw [if_neg hshow]
        rfl

theorem fails_eq (native : ℤ) (t : Terminal) (path : DialPath) :
    path.fails native t = (path.asks t && (!t.registered || native ≠ 0)) := by
  have hvalid : (path.dialling t).checkValidation false = t.registered := by
    cases path <;> simp [dialling, checkValidation]
  rw [fails, decide_eq_decide.mpr (requestMakeCall_fails native (path.dialling t)), Bool.decide_coe,
    hvalid]

theorem dialActivity_callState {strNum : Bytes} (native : ℤ)
    (hasks : (dialActivity strNum).asks t = true) :
    ((dialActivity strNum).run native t).currentCallState.callState = .dialing := by
  rw [run_of_asks hasks]
  exact congrArg CallState.callState (requestMakeCall_call native _)

theorem command_failed {numberInfo : Option Bytes} (h : (command numberInfo).fails native t = true) :
    (command numberInfo).run native t =
      (((command numberInfo).dialling t).requestMakeCall native).2.clearCall := by
  obtain ⟨hasks, hresult⟩ := Bool.and_eq_true_iff.mp h
  rw [run_of_asks hasks, close, if_pos (of_decide_eq_true hresult)]

theorem command_floor {numberInfo : Option Bytes} (h : (command numberInfo).fails native t = true) :
    ((command numberInfo).run native t).pttGroupStatus =
      if accepted native t then t.pttGroupStatus
      else { t.pttGroupStatus with status := .free, speakerNum := none } := by
  rw [command_failed h]
  exact requestMakeCall_floor native _

/-- The floor is as it was after a failed command exactly if the native code did not refuse it, or
there was nothing to lose. -/
theorem command_floor_iff {numberInfo : Option Bytes}
    (h : (command numberInfo).fails native t = true) :
    (((command numberInfo).run native t).pttGroupStatus.status = t.pttGroupStatus.status ∧
      ((command numberInfo).run native t).pttGroupStatus.speakerNum =
        t.pttGroupStatus.speakerNum) ↔
      (accepted native t ||
        t.pttGroupStatus.status = .free && t.pttGroupStatus.speakerNum.isNone) = true := by
  rw [command_floor h]
  cases accepted native t with
  | true => exact iff_of_true ⟨rfl, rfl⟩ rfl
  | false =>
    simp only [Bool.false_eq_true, if_false, Bool.false_or, Bool.and_eq_true, decide_eq_true_eq,
      Option.isNone_iff_eq_none]
    exact and_congr eq_comm eq_comm

theorem LeavesNoTrace.not_listed (h : path.LeavesNoTrace native t) (hasks : path.asks t = true) :
    path.listed t = false := by
  by_contra hl
  simpa [hasks] using h.group (by simpa using hl)

/-- A dial that is not made leaves no trace. -/
theorem leavesNoTrace_of_not_asks (h : path.asks t = false) : path.LeavesNoTrace native t := by
  have hfails : path.fails native t = false := by rw [fails_eq, h, Bool.false_and]
  constructor <;> simp [h, hfails]

theorem dialActivity_iff (native : ℤ) (t : Terminal) (strNum : Bytes) :
    (dialActivity strNum).LeavesNoTrace native t ↔
      (dialActivity strNum).harmless native t = true := by
  cases hasks : (dialActivity strNum).asks t with
  | false =>
    have hempty : strNum.isEmpty = true := by simpa [asks] using hasks
    exact iff_of_true (leavesNoTrace_of_not_asks hasks) (by simp [harmless, hempty])
  | true =>
    have hempty : strNum.isEmpty = false := by simpa [asks] using hasks
    have hdialing := dialActivity_callState native hasks
    have hfails := fails_eq native t (dialActivity strNum)
    rw [hasks, Bool.true_and] at hfails
    simp only [harmless, hempty, Bool.false_or]
    constructor
    · intro h
      have hlisted := h.not_listed hasks
      have hok : (dialActivity strNum).fails native t = false := by
        by_contra hf
        simpa [hdialing] using h.callState (by simpa using hf)
      rw [hfails] at hok
      simpa [hlisted] using hok
    · intro h
      obtain ⟨⟨hlisted, hreg⟩, hnative⟩ : ((dialActivity strNum).listed t = false ∧
          t.registered = true) ∧ native = 0 := by simpa using h
      rw [hreg, hnative] at hfails
      constructor <;> simp [hlisted, hfails, hnative]

theorem command_iff (native : ℤ) (t : Terminal) (numberInfo : Option Bytes) :
    (command numberInfo).LeavesNoTrace native t ↔
      (command numberInfo).harmless native t = true := by
  cases hasks : (command numberInfo).asks t with
  | false =>
    refine iff_of_true (leavesNoTrace_of_not_asks hasks) ?_
    have hskip : (t.exitFlag || numberInfo.isNone || t.checkIsGroupNum numberInfo) = true := by
      have hnot := congrArg not hasks
      simpa [asks, or_assoc] using hnot
    simp only [harmless, hskip, Bool.true_or]
  | true =>
    have hskip : (t.exitFlag || numberInfo.isNone || t.checkIsGroupNum numberInfo) = false := by
      simpa [asks, and_assoc] using hasks
    simp only [harmless, hskip, Bool.false_or]
    constructor
    · intro h
      rw [h.not_listed hasks, Bool.not_false, Bool.true_and]
      cases haccepted : accepted native t with
      | true => rfl
      | false =>
        have hfails : (command numberInfo).fails native t = true := by
          rw [fails_eq, hasks]
          simp only [accepted, Bool.or_eq_false_iff, decide_eq_false_iff_not] at haccepted
          simp [haccepted.2]
        rw [← haccepted]
        exact (command_floor_iff hfails).mp ⟨h.status hfails, h.speaker hfails⟩
    · intro h
      obtain ⟨hlisted, hfloor⟩ := Bool.and_eq_true_iff.mp h
      refine ⟨fun hl => ?_, fun hf => ?_, fun hf => ?_,
        fun hf => ((command_floor_iff hf).mpr hfloor).1,
        fun hf => ((command_floor_iff hf).mpr hfloor).2⟩
      · simp [hl] at hlisted
      · rw [command_failed hf]
        rfl
      · rw [command_failed hf]
        rfl

/-- In any state, on both ways and for every result of the native code, exactly the harmless dials
leave no trace. -/
theorem leavesNoTrace_iff (native : ℤ) (t : Terminal) (path : DialPath) :
    path.LeavesNoTrace native t ↔ path.harmless native t = true := by
  cases path with
  | dialActivity strNum => exact dialActivity_iff native t strNum
  | command numberInfo => exact command_iff native t numberInfo

/-- Without a registration a number that is dialled on the screen stays dialled; with one, a command
that the native code refuses ends the speech of the user. -/
theorem dial_leaves_trace :
    ¬ (dialActivity (ascii "200")).LeavesNoTrace 0 {} ∧
      ¬ (command (some (ascii "200"))).LeavesNoTrace (-1)
        { registered := true, pttGroupStatus := { status := .speaking } } :=
  ⟨fun h => absurd (h.callState (by decide)) (by decide),
    fun h => absurd (h.status (by decide)) (by decide)⟩

end DialPath

end PttTerminal
