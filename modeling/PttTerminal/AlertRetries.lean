import PttTerminal.Library.Journals
import PttTerminal.MessageStore
import PttTerminal.RegistrationLoss

/-!
# The retries of the alert

The alert for an error of the server forces a new registration every second time. What counts is the
parity of one counter, which goes on each time the alert is resumed, also when there is no new
error. A successful registration makes it odd again.
-/
namespace PttTerminal

open Runs Journals

/-- Who started the last registration. -/
inductive EnumRegByWho where
  | regByUser
  | regByCm
  | regByErrorCode
  deriving Repr, DecidableEq

/-- The errors that are retried. -/
def specialErrors : List ℤ := [503, 120128, 408, 504]

/-- What happened: such an error was reported, its alert was resumed and perhaps started a forced
registration, or a registration was successful. -/
inductive AlertNote where
  | reported
  | resumed (starts : Bool)
  | registered
  deriving Repr, DecidableEq

/-- `AlertActivity`, of which one object at most is not finished. The intent and `resumed` are those
of this object. -/
structure AlertApp where
  alert : ActivityLife := {}
  intent : ℤ := -1
  resumed : Bool := false
  count : ℤ := 1
  settingIsOn : Bool := false
  regStarter : Option EnumRegByWho := none
  journal : List AlertNote := []
  deriving Repr, DecidableEq

inductive AlertEvent where
  | report (errorCode : ℤ)
  | resume
  | pause
  | finish (k : ℕ)
  | destroy (k : ℕ)
  | registered (onTop : Bool)
  | surroundings (settingIsOn : Bool) (regStarter : Option EnumRegByWho)
  deriving Repr, DecidableEq

namespace AlertApp

variable (s : AlertApp)

/-- The alert is started, and made unless it is there. -/
def errorAlert (errorCode : ℤ) : AlertApp :=
  { s with
    alert := if s.alert.shown then s.alert else s.alert.create
    intent := errorCode
    resumed := false
    journal := if errorCode ∈ specialErrors then .reported :: s.journal else s.journal }

/-- The remainder is that of Java, which is negative for a negative number. -/
def OddCount (count : ℤ) : Prop := count.tmod 2 = 1

instance (count : ℤ) : Decidable (OddCount count) := inferInstanceAs (Decidable (_ = _))

/-- The registration is left to somebody else. -/
def Suppressed : Prop := s.settingIsOn = true ∨ s.regStarter = some .regByCm

instance : Decidable s.Suppressed := inferInstanceAs (Decidable (_ ∨ _))

def advance : AlertApp := { s with count := javaInt (s.count + 1) }

def note (n : AlertNote) : AlertApp := { s with journal := n :: s.journal }

def checkSpecialError : AlertApp :=
  if s.intent ∈ specialErrors then
    if OddCount s.count then
      if s.Suppressed then s.advance.note (.resumed false)
      else { s with regStarter := some .regByErrorCode }.advance.note (.resumed true)
    else s.advance.note (.resumed false)
  else s

def onResume : AlertApp := { s with resumed := true }.checkSpecialError

def restartCount : AlertApp := if s.count.tmod 2 = 0 then s.advance else s

/-- The case `REG_ED` of `JNIUpdateRegisterState`. When the alert is on top without an instance, a
null pointer is read before `restartCount`. -/
def regEd (onTop : Bool) : AlertApp :=
  if s.alert.current.isSome || onTop then
    match s.alert.current with
    | none => s
    | some _ => { s with alert := s.alert.finishCurrent, resumed := false }.restartCount
  else s.restartCount

/-- `onDestroy` forgets the instance, also when there is a new one. -/
def onDestroy (k : ℕ) : AlertApp :=
  { s with alert := { s.alert.destroy k with current := none } }

def step : AlertEvent → AlertApp
  | .report errorCode => s.errorAlert errorCode
  | .resume => s.onResume
  | .pause => { s with resumed := false }
  | .finish k => { s with alert := s.alert.finish k, resumed := false }
  | .destroy k => s.onDestroy k
  | .registered onTop => (s.regEd onTop).note .registered
  | .surroundings settingIsOn regStarter =>
    { s with settingIsOn := settingIsOn, regStarter := regStarter }

def possible : AlertEvent → Bool
  | .resume => s.alert.shown && !s.resumed
  | .pause => s.resumed
  | .finish k => decide (k < s.alert.objects.length) && !(s.alert.object k).finishing
  | .destroy k => (s.alert.object k).finishing && !(s.alert.object k).destroyed
  | .registered onTop => !onTop || s.alert.shown
  | .report _ | .surroundings _ _ => true

end AlertApp

def alertApp : System AlertApp AlertEvent where
  init s := s = {}
  enabled s e := s.possible e = true
  next := AlertApp.step

instance (s : AlertApp) (e : AlertEvent) : Decidable (alertApp.enabled s e) :=
  inferInstanceAs (Decidable (s.possible e = true))

/-! ### The law -/

namespace AlertNote

/-- Whether the last error reported was handled. -/
def handles : AlertNote → Option Bool
  | reported => some false
  | resumed _ => some true
  | registered => none

/-- The error that was reported last has not been handled yet. -/
def Unhandled (es : List AlertNote) : Prop := latest handles es = some false

instance (es : List AlertNote) : Decidable (Unhandled es) := inferInstanceAs (Decidable (_ = _))

/-- The notes since the last report and since the last success. -/
def sinceReport (es : List AlertNote) : List AlertNote :=
  (es.takeWhile (· ≠ registered)).takeWhile (· ≠ reported)

/-- The notes between the last two reports, back to the last success. -/
def beforeReport (es : List AlertNote) : List AlertNote :=
  ((es.takeWhile (· ≠ registered)).dropWhile (· ≠ reported)).tail.takeWhile (· ≠ reported)

/-- A start is for an error that was not handled before, and the error before it had no start, or a
registration was successful since. -/
def Follows : AlertNote → List AlertNote → Prop
  | resumed true, es => Unhandled es ∧ resumed true ∉ beforeReport es
  | _, _ => True

instance : (n : AlertNote) → (es : List AlertNote) → Decidable (Follows n es)
  | resumed true, es => inferInstanceAs (Decidable (Unhandled es ∧ resumed true ∉ beforeReport es))
  | resumed false, _ | reported, _ | registered, _ => isTrue trivial

/-- A start for the error that was handled last is not answered by a success yet. -/
def Owed (es : List AlertNote) : Prop :=
  if Unhandled es then resumed true ∈ beforeReport es else resumed true ∈ sinceReport es

instance (es : List AlertNote) : Decidable (Owed es) :=
  inferInstanceAs (Decidable (if Unhandled es then resumed true ∈ beforeReport es
    else resumed true ∈ sinceReport es))

end AlertNote

open AlertNote

namespace AlertApp

/-- An alert that was handled is resumed again only while its registration is left to somebody else
or the counter is even, and not so that the counter becomes odd while a start is not answered. -/
def Settled (s : AlertApp) : AlertEvent → Prop
  | .resume => s.intent ∈ specialErrors → ¬Unhandled s.journal →
      (OddCount s.count → s.Suppressed) ∧ (Owed s.journal → ¬OddCount (javaInt (s.count + 1)))
  | _ => True

instance (s : AlertApp) : (e : AlertEvent) → Decidable (s.Settled e)
  | .resume => inferInstanceAs (Decidable (s.intent ∈ specialErrors → ¬Unhandled s.journal →
      (OddCount s.count → s.Suppressed) ∧ (Owed s.journal → ¬OddCount (javaInt (s.count + 1)))))
  | .report _ | .pause | .finish _ | .destroy _ | .registered _ | .surroundings _ _ =>
    isTrue trivial

/-- What `onResume` does with a special error. -/
def starts (s : AlertApp) : Bool := OddCount s.count ∧ ¬s.Suppressed

/-- Every start follows a failure, and the counter is not odd while a start is not answered. -/
structure InOrder (s : AlertApp) : Prop where
  follows : Throughout Follows s.journal
  owed : Owed s.journal → ¬OddCount s.count

end AlertApp

/-! ### Notes -/

namespace AlertNote

variable {es : List AlertNote} {starts : Bool}

theorem unhandled_reported : Unhandled (reported :: es) :=
  latest_cons_of_some (rfl : reported.handles = some false) es

theorem not_unhandled_resumed : ¬Unhandled (resumed starts :: es) := by
  unfold Unhandled
  rw [latest_cons_of_some (rfl : (resumed starts).handles = some true)]
  decide

@[simp]
theorem sinceReport_reported : sinceReport (reported :: es) = [] := rfl

@[simp]
theorem sinceReport_resumed :
    sinceReport (resumed starts :: es) = resumed starts :: sinceReport es := rfl

@[simp]
theorem sinceReport_registered : sinceReport (registered :: es) = [] := rfl

@[simp]
theorem beforeReport_reported : beforeReport (reported :: es) = sinceReport es := rfl

@[simp]
theorem beforeReport_resumed : beforeReport (resumed starts :: es) = beforeReport es := rfl

@[simp]
theorem beforeReport_registered : beforeReport (registered :: es) = [] := rfl

/-- The alert of an error that is not handled yet was not resumed. -/
theorem notMem_sinceReport (h : Unhandled es) : resumed starts ∉ sinceReport es := by
  cases es with
  | nil => exact List.not_mem_nil
  | cons n es =>
    cases n with
    | reported => exact List.not_mem_nil
    | resumed _ => exact absurd h not_unhandled_resumed
    | registered => exact List.not_mem_nil

theorem owed_of_reported (h : Owed (reported :: es)) : Owed es := by
  rw [Owed, if_pos unhandled_reported, beforeReport_reported] at h
  rw [Owed, if_neg fun hun => notMem_sinceReport hun h]
  exact h

theorem owed_resumed :
    Owed (resumed starts :: es) ↔ starts = true ∨ resumed true ∈ sinceReport es := by
  rw [Owed, if_neg not_unhandled_resumed, sinceReport_resumed, List.mem_cons, AlertNote.resumed.injEq,
    eq_comm]

theorem not_owed_registered : ¬Owed (registered :: es) := by
  unfold Owed
  split <;> exact List.not_mem_nil

end AlertNote

/-! ### Steps -/

namespace AlertApp

variable {s : AlertApp} {e : AlertEvent}

/-- A negative number has no remainder 1. -/
theorem oddCount_iff {count : ℤ} : OddCount count ↔ 0 < count ∧ count % 2 = 1 := by
  unfold OddCount
  rw [Int.tmod_eq_emod]
  split_ifs with hsign <;> omega

theorem not_odd_advance {count : ℤ} (h : OddCount count) : ¬OddCount (javaInt (count + 1)) := by
  have hmod : javaInt (count + 1) % (2 ^ 32 : ℕ) = (count + 1) % (2 ^ 32 : ℕ) := Int.bmod_emod
  rw [oddCount_iff] at *
  omega

theorem checkSpecialError_special (h : s.intent ∈ specialErrors) :
    s.checkSpecialError.count = javaInt (s.count + 1) ∧
      s.checkSpecialError.journal = .resumed s.starts :: s.journal := by
  unfold checkSpecialError starts
  rw [if_pos h]
  by_cases hodd : OddCount s.count
  · by_cases hsuppressed : s.Suppressed
    · simp [hodd, hsuppressed, advance, note]
    · simp [hodd, hsuppressed, advance, note]
  · simp [hodd, advance, note]

theorem restartCount_journal (s : AlertApp) : s.restartCount.journal = s.journal := by
  unfold restartCount
  split <;> rfl

theorem regEd_journal (s : AlertApp) (onTop : Bool) : (s.regEd onTop).journal = s.journal := by
  unfold regEd
  split
  · split
    · rfl
    · exact restartCount_journal _
  · exact restartCount_journal s

theorem report_inOrder (h : s.InOrder) (errorCode : ℤ) : (s.errorAlert errorCode).InOrder := by
  unfold errorAlert
  by_cases hspecial : errorCode ∈ specialErrors
  · simp only [if_pos hspecial]
    exact ⟨⟨trivial, h.follows⟩, fun howed => h.owed (owed_of_reported howed)⟩
  · simp only [if_neg hspecial]
    exact ⟨h.follows, h.owed⟩

/-- A resume that is settled. -/
theorem resume_inOrder (h : s.InOrder) (hok : s.Settled .resume) : s.onResume.InOrder := by
  by_cases hspecial : s.intent ∈ specialErrors
  · obtain ⟨hcount, hjournal⟩ := checkSpecialError_special (s := { s with resumed := true }) hspecial
    have hstarts : ({ s with resumed := true } : AlertApp).starts = s.starts := rfl
    constructor
    · rw [onResume, hjournal, hstarts, throughout_cons]
      refine ⟨?_, h.follows⟩
      cases hs : s.starts with
      | false => trivial
      | true =>
        obtain ⟨hodd, hfree⟩ := of_decide_eq_true hs
        have hun : Unhandled s.journal := by
          by_contra hun
          exact hfree ((hok hspecial hun).1 hodd)
        refine ⟨hun, fun hmem => h.owed ?_ hodd⟩
        rwa [Owed, if_pos hun]
    · rw [onResume, hjournal, hcount, hstarts, owed_resumed]
      rintro (hs | hmem)
      · exact not_odd_advance (of_decide_eq_true hs).1
      · have hun : ¬Unhandled s.journal := fun hun => notMem_sinceReport hun hmem
        refine (hok hspecial hun).2 ?_
        rwa [Owed, if_neg hun]
  · rw [onResume, checkSpecialError, if_neg hspecial]
    exact ⟨h.follows, h.owed⟩

theorem registered_inOrder (h : s.InOrder) (onTop : Bool) :
    ((s.regEd onTop).note .registered).InOrder := by
  refine ⟨⟨trivial, ?_⟩, fun howed => absurd howed not_owed_registered⟩
  rw [regEd_journal]
  exact h.follows

theorem step_inOrder (h : s.InOrder) (hok : s.Settled e) : (s.step e).InOrder := by
  cases e with
  | report errorCode => exact report_inOrder h errorCode
  | resume => exact resume_inOrder h hok
  | registered onTop => exact registered_inOrder h onTop
  | pause => exact ⟨h.follows, h.owed⟩
  | finish k => exact ⟨h.follows, h.owed⟩
  | destroy k => exact ⟨h.follows, h.owed⟩
  | surroundings settingIsOn regStarter => exact ⟨h.follows, h.owed⟩

theorem reached_inOrder (h : alertApp.Reached Settled s) : s.InOrder := by
  refine h.invariant ?_ ?_
  · rintro _ rfl
    exact ⟨trivial, by decide⟩
  · intro s e hs _ hok
    exact step_inOrder hs hok

end AlertApp

/-- While every resume is settled, each start is for a new error, one at most for each, and never
for two errors in a row without a success between them. -/
theorem runs_startsFollowFailures {s : AlertApp} (h : alertApp.Reached AlertApp.Settled s) :
    Throughout Follows s.journal :=
  (AlertApp.reached_inOrder h).follows

namespace AlertApp

variable {s : AlertApp}

/-- A start for an error that was handled before. -/
theorem onResume_breaks (hspecial : s.intent ∈ specialErrors) (hodd : OddCount s.count)
    (hfree : ¬s.Suppressed) (hun : ¬Unhandled s.journal) :
    ¬Throughout Follows s.onResume.journal := by
  have hstarts : ({ s with resumed := true } : AlertApp).starts = true :=
    decide_eq_true (p := OddCount s.count ∧ ¬s.Suppressed) ⟨hodd, hfree⟩
  rw [onResume, (checkSpecialError_special (s := { s with resumed := true }) hspecial).2, hstarts,
    throughout_cons]
  rintro ⟨⟨hun', -⟩, -⟩
  exact hun hun'

theorem checkSpecialError_eq (s : AlertApp) : ∃ count regStarter journal, s.checkSpecialError =
    { s with count := count, regStarter := regStarter, journal := journal } := by
  unfold checkSpecialError
  split_ifs <;> exact ⟨_, _, _, rfl⟩

/-- No resume can be left out of the condition: one that is not settled starts a registration for an
error that was handled, or the next one may. -/
theorem unsettled_leads_astray (he : s.possible .resume = true) (hno : ¬s.Settled .resume) :
    ∃ es, alertApp.Allowed (fun _ _ => True) (s.step .resume) es ∧
      ¬Throughout Follows (alertApp.run (s.step .resume) es).journal := by
  simp only [Settled, Classical.not_imp] at hno
  obtain ⟨hspecial, hun, hno⟩ := hno
  by_cases hstart : OddCount s.count ∧ ¬s.Suppressed
  · exact ⟨[], trivial, onResume_breaks hspecial hstart.1 hstart.2 hun⟩
  · have hodd : OddCount (javaInt (s.count + 1)) := by
      by_contra heven
      refine hno ⟨fun hodd => ?_, fun _ => heven⟩
      by_contra hfree
      exact hstart ⟨hodd, hfree⟩
    have hshown : s.alert.shown = true := (Bool.and_eq_true_iff.mp he).1
    obtain ⟨hcount, hjournal⟩ :=
      checkSpecialError_special (s := { s with resumed := true }) hspecial
    obtain ⟨count, regStarter, journal, heq⟩ := checkSpecialError_eq { s with resumed := true }
    rw [heq] at hcount hjournal
    refine ⟨[.pause, .surroundings false none, .resume], ?_, ?_⟩
    · rw [step, onResume, heq]
      exact ⟨rfl, trivial, rfl, trivial, by simp [alertApp, possible, step, hshown], trivial, trivial⟩
    · have hfree : ¬({ s with
          count := count, journal := journal, resumed := false, settingIsOn := false,
          regStarter := none } : AlertApp).Suppressed := by simp [Suppressed]
      rw [step, onResume, heq]
      refine onResume_breaks hspecial ?_ hfree ?_
      · exact (congrArg OddCount hcount).mpr hodd
      · exact fun hun => not_unhandled_resumed ((congrArg Unhandled hjournal).mp hun)

end AlertApp

/-- Three errors, a success, and an alert that is taken up again while the settings are open. -/
def retriesRun : List AlertEvent :=
  [.report 503, .resume, .report 408, .resume, .report 504, .resume, .registered true, .destroy 0,
    .surroundings true none, .report 503, .resume, .pause, .resume]

theorem retriesRun_follows : Throughout Follows (alertApp.run {} retriesRun).journal :=
  runs_startsFollowFailures (System.reached_run rfl
    (by decide +kernel : alertApp.Allowed AlertApp.Settled {} retriesRun))

/-- An alert that is put away and taken up again twice. -/
def takenUpRun : List AlertEvent := [.report 503, .resume, .pause, .resume, .pause, .resume]

/-- An alert that is taken up again once, and then a new error. -/
def newErrorRun : List AlertEvent := [.report 503, .resume, .pause, .resume, .report 503, .resume]

theorem resumed_alert_starts :
    (alertApp.Allowed (fun _ _ => True) {} takenUpRun ∧
      ¬Throughout Follows (alertApp.run {} takenUpRun).journal) ∧
    alertApp.Allowed (fun _ _ => True) {} newErrorRun ∧
      ¬Throughout Follows (alertApp.run {} newErrorRun).journal := by
  decide +kernel

end PttTerminal
