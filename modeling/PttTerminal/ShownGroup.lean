import PttTerminal.GroupManager
import PttTerminal.Library.Runs

/-!
# The group that is shown

The screen of a session shows the number of a group and its name. The number is that of the session,
or the selected one, and the name is looked up in the list of groups. The list is replaced by
messages of its own, so that the number that is looked up need not be in it.
-/
namespace PttTerminal

open Runs

/-- `trim`: the characters up to the blank are taken away at both ends. -/
def trim (str : Bytes) : Bytes :=
  ((str.dropWhile (· ≤ 32)).reverse.dropWhile (· ≤ 32)).reverse

/-- Numbers are compared without the blanks around them. -/
def sameNumber (n m : Bytes) : Bool := trim n = trim m

/-- The loop of `getGroupInfo`, whose variable is what is returned. -/
def searchGroup (grpNum : Bytes) : GroupEntry → List GroupEntry → GroupEntry
  | info, [] => info
  | _, g :: gs => if sameNumber grpNum g.number then g else searchGroup grpNum g gs

/-- The new record has no name until it is returned for an empty list. -/
def getGroupInfo (lstGroupData : List GroupEntry) (grpNum : Bytes) : GroupEntry :=
  let info : GroupEntry := ⟨[], grpNum, 0⟩
  if lstGroupData.isEmpty then { info with name := grpNum }
  else searchGroup grpNum info lstGroupData

/-- The list can answer for a number: there is no group, or one with this number. -/
def Answerable (lst : List GroupEntry) (n : Bytes) : Prop :=
  lst = [] ∨ ∃ g ∈ lst, sameNumber n g.number = true

instance (lst : List GroupEntry) (n : Bytes) : Decidable (Answerable lst n) :=
  inferInstanceAs (Decidable (lst = [] ∨ ∃ g ∈ lst, sameNumber n g.number = true))

/-- The group that is returned has the number, and the name that the list has for it. -/
structure AnswersFor (lst : List GroupEntry) (n : Bytes) : Prop where
  number : sameNumber n (getGroupInfo lst n).number = true
  name : ∀ g, (lst.find? fun g => sameNumber n g.number) = some g →
    (getGroupInfo lst n).name = g.name

/-- The same to the character. -/
structure AnswersExactly (lst : List GroupEntry) (n : Bytes) : Prop where
  number : (getGroupInfo lst n).number = n
  name : ∀ g, (lst.find? fun g => g.number = n) = some g → (getGroupInfo lst n).name = g.name

section answers

variable {lst : List GroupEntry} {n : Bytes} {g : GroupEntry}

theorem searchGroup_eq (info : GroupEntry) (lst : List GroupEntry) : searchGroup n info lst =
    (lst.find? fun g => sameNumber n g.number).getD (lst.getLast?.getD info) := by
  induction lst generalizing info with
  | nil => rfl
  | cons g gs ih =>
    rw [searchGroup, List.find?_cons]
    cases hsame : sameNumber n g.number with
    | true => rfl
    | false =>
      rw [if_neg Bool.false_ne_true, ih g, List.getLast?_cons]
      rfl

theorem getGroupInfo_nil (n : Bytes) : getGroupInfo [] n = ⟨n, n, 0⟩ := rfl

theorem getGroupInfo_of_find (h : (lst.find? fun g => sameNumber n g.number) = some g) :
    getGroupInfo lst n = g := by
  have hne : lst.isEmpty = false := by
    rw [List.isEmpty_eq_false_iff]
    rintro rfl
    simp at h
  simp only [getGroupInfo, hne, searchGroup_eq, h, Bool.false_eq_true, if_false, Option.getD_some]

/-- Where no group has the number, the last one is returned. -/
theorem getGroupInfo_of_forall (hne : lst ≠ []) (h : ∀ g ∈ lst, sameNumber n g.number = false) :
    getGroupInfo lst n ∈ lst := by
  have hfind : (lst.find? fun g => sameNumber n g.number) = none := by
    simpa [List.find?_eq_none] using h
  have hempty : lst.isEmpty = false := List.isEmpty_eq_false_iff.mpr hne
  simp only [getGroupInfo, hempty, searchGroup_eq, hfind, List.getLast?_eq_some_getLast hne,
    Bool.false_eq_true, if_false, Option.getD_none, Option.getD_some]
  exact List.getLast_mem hne

/-- The number is that of the group that is returned just when the list can answer for it. -/
theorem sameNumber_getGroupInfo :
    sameNumber n (getGroupInfo lst n).number = true ↔ Answerable lst n := by
  constructor
  · intro h
    by_contra hno
    simp only [Answerable, not_or, not_exists, not_and, Bool.not_eq_true] at hno
    rw [hno.2 _ (getGroupInfo_of_forall hno.1 hno.2)] at h
    exact Bool.false_ne_true h
  · rintro (rfl | ⟨g, hg, hsame⟩)
    · simp [getGroupInfo_nil, sameNumber]
    · cases hfind : lst.find? fun g => sameNumber n g.number with
      | none => simp [List.find?_eq_none.mp hfind g hg] at hsame
      | some g' =>
        rw [getGroupInfo_of_find hfind]
        exact List.find?_some (p := fun g : GroupEntry => sameNumber n g.number) hfind

/-- A narrower condition that the first element with the wider one meets finds it as well. -/
theorem find?_of_imp {α : Type} {p q : α → Bool} {l : List α} {a : α} (h : l.find? p = some a)
    (hq : q a = true) (hqp : ∀ b, q b = true → p b = true) : l.find? q = some a := by
  rw [List.find?_eq_some_iff_append] at h ⊢
  obtain ⟨-, before, after, hl, hbefore⟩ := h
  refine ⟨hq, before, after, hl, fun b hb => ?_⟩
  have hp := hbefore b hb
  cases hqb : q b with
  | false => rfl
  | true => simp [hqp b hqb] at hp

theorem answersFor_iff : AnswersFor lst n ↔ Answerable lst n := by
  constructor
  · exact fun h => sameNumber_getGroupInfo.mp h.number
  · intro h
    refine ⟨sameNumber_getGroupInfo.mpr h, fun g hg => ?_⟩
    rw [getGroupInfo_of_find hg]

/-- To the character it is answered when the first group with the number has it so. -/
theorem answersExactly_iff : AnswersExactly lst n ↔
    lst = [] ∨ ∃ g, (lst.find? fun g => sameNumber n g.number) = some g ∧ g.number = n := by
  constructor
  · intro h
    have hanswered : Answerable lst n := by
      rw [← sameNumber_getGroupInfo, h.number]
      simp [sameNumber]
    refine hanswered.imp id ?_
    rintro ⟨g, hg, hsame⟩
    cases hfind : lst.find? fun g => sameNumber n g.number with
    | none => simp [List.find?_eq_none.mp hfind g hg] at hsame
    | some g' => exact ⟨g', rfl, by rw [← getGroupInfo_of_find hfind, h.number]⟩
  · rintro (rfl | ⟨g, hfind, hnumber⟩)
    · exact ⟨rfl, by simp⟩
    · refine ⟨by rw [getGroupInfo_of_find hfind, hnumber], fun g' hg' => ?_⟩
      have hexact : (lst.find? fun g => g.number = n) = some g :=
        find?_of_imp hfind (by simpa using hnumber) fun b hb => by
          rw [of_decide_eq_true hb]
          simp [sameNumber]
      rw [hexact, Option.some.injEq] at hg'
      rw [getGroupInfo_of_find hfind, hg']

end answers

/-! ### The screen -/

/-- The texts behind the labels. There is no number while the groups are being fetched. Beside the
name stands the record that it was taken from. -/
structure ShownTexts where
  pttGroup : Option Bytes := none
  pttGroupName : Bytes := []
  named : Option GroupEntry := none
  deriving Repr, DecidableEq

def generateGrp (grpNum : Option Bytes) : Bytes :=
  if isStrBlank grpNum then [] else grpNum.getD []

def generateGrpName (grpName : Option Bytes) : Bytes :=
  if isStrBlank grpName then [] else grpName.getD []

/-- The number of the session, and the name of its group. -/
def sessionTexts (lst : List GroupEntry) (groupNum : Option Bytes) : ShownTexts :=
  let info := if isStrBlank groupNum then none else some (getGroupInfo lst (groupNum.getD []))
  ⟨some (generateGrp groupNum), generateGrpName (info.map GroupEntry.name), info⟩

/-- `getPTTStatus`, as far as the group is concerned. Without a session the selected group is shown;
when none is selected, the name remains that of the session. -/
def getPTTStatus (mbye : Bool) (s : GroupService) (texts : ShownTexts) : ShownTexts :=
  if mbye then texts
  else
    let shown := sessionTexts s.lstGroupData s.terminal.pttGroupStatus.groupNum
    match s.terminal.pttGroupStatus.status with
    | .closed | .idle =>
      let grp := s.terminal.currGrpNum.getD []
      if isStrBlank (some grp) then { shown with pttGroup := some grp }
      else
        let info := getGroupInfo s.lstGroupData grp
        ⟨some grp, info.name, some info⟩
    | .init => { texts with pttGroup := none }
    | .busy | .forbidden => texts
    | _ => shown

/-- The name is that of a group with the number that is shown, and without a number there is no
name. -/
structure ShownTexts.Agree (texts : ShownTexts) : Prop where
  number : ∀ grp ∈ texts.pttGroup, ∀ info ∈ texts.named,
    isStrBlank (some grp) = false ∧ sameNumber grp info.number = true
  name : generateGrpName (some texts.pttGroupName) =
    generateGrpName (texts.named.map GroupEntry.name)

/-- The list can answer for the number that is shown, and where no number is shown there is none in
the session either. -/
def StatusAnswered (lst : List GroupEntry) (groupNum : Option Bytes) (grp : Bytes) :
    PttStatus → Prop
  | .closed | .idle =>
    if isStrBlank (some grp) then isStrBlank groupNum = true else Answerable lst grp
  | .init | .busy | .forbidden => True
  | _ => isStrBlank groupNum = true ∨ Answerable lst (groupNum.getD [])

instance (lst : List GroupEntry) (groupNum : Option Bytes) (grp : Bytes) :
    (status : PttStatus) → Decidable (StatusAnswered lst groupNum grp status)
  | .closed | .idle => inferInstanceAs (Decidable (if isStrBlank (some grp) then
      isStrBlank groupNum = true else Answerable lst grp))
  | .init | .busy | .forbidden => isTrue trivial
  | .free | .listening | .waiting | .rejected | .canceled | .speaking | .accepted | .applying
  | .canceling => inferInstanceAs (Decidable (isStrBlank groupNum = true ∨
      Answerable lst (groupNum.getD [])))

def ShownAnswered (s : GroupService) : Prop :=
  StatusAnswered s.lstGroupData s.terminal.pttGroupStatus.groupNum
    (s.terminal.currGrpNum.getD []) s.terminal.pttGroupStatus.status

instance (s : GroupService) : Decidable (ShownAnswered s) :=
  inferInstanceAs (Decidable (StatusAnswered _ _ _ _))

theorem generateGrpName_idem (name : Option Bytes) :
    generateGrpName (some (generateGrpName name)) = generateGrpName name := by
  unfold generateGrpName
  cases h : isStrBlank name with
  | true => rfl
  | false =>
    have hname : isStrBlank (some (name.getD [])) = false := by simpa [isStrBlank] using h
    simp [hname]

section shown

variable {s : GroupService} {texts : ShownTexts}

theorem sessionTexts_blank {n : Option Bytes} (h : isStrBlank n = true) (lst : List GroupEntry) :
    sessionTexts lst n = { pttGroup := some [] } := by
  simp only [sessionTexts, generateGrp, h, if_true]
  rfl

theorem sessionTexts_number {n : Option Bytes} (h : isStrBlank n = false) (lst : List GroupEntry) :
    sessionTexts lst n = ⟨some (n.getD []),
      generateGrpName (some (getGroupInfo lst (n.getD [])).name),
      some (getGroupInfo lst (n.getD []))⟩ := by
  simp only [sessionTexts, generateGrp, h, Bool.false_eq_true, if_false, Option.map_some]

/-- What is shown for a session agrees when the list can answer for its number. -/
theorem sessionTexts_agree_iff (n : Option Bytes) (lst : List GroupEntry) :
    (sessionTexts lst n).Agree ↔ isStrBlank n = true ∨ Answerable lst (n.getD []) := by
  cases hblank : isStrBlank n with
  | true =>
    rw [sessionTexts_blank hblank]
    exact iff_of_true ⟨by simp, rfl⟩ (.inl rfl)
  | false =>
    have hnumber : isStrBlank (some (n.getD [])) = false := by simpa [isStrBlank] using hblank
    rw [sessionTexts_number hblank]
    simp only [Bool.false_eq_true, false_or]
    constructor
    · intro h
      exact sameNumber_getGroupInfo.mp (h.number _ rfl _ rfl).2
    · intro h
      refine ⟨?_, generateGrpName_idem _⟩
      rintro _ ⟨⟩ _ ⟨⟩
      exact ⟨hnumber, sameNumber_getGroupInfo.mpr h⟩

theorem selected_agrees_iff {grp : Bytes} (hgrp : isStrBlank (some grp) = false)
    (lst : List GroupEntry) :
    ShownTexts.Agree ⟨some grp, (getGroupInfo lst grp).name, some (getGroupInfo lst grp)⟩ ↔
      Answerable lst grp := by
  constructor
  · intro h
    exact sameNumber_getGroupInfo.mp (h.number _ rfl _ rfl).2
  · intro h
    refine ⟨?_, rfl⟩
    rintro _ ⟨⟩ _ ⟨⟩
    exact ⟨hgrp, sameNumber_getGroupInfo.mpr h⟩

/-- Where no group is selected, the name of the session's group stands without a number. -/
theorem unselected_agrees_iff {grp : Bytes} (hgrp : isStrBlank (some grp) = true)
    (n : Option Bytes) (lst : List GroupEntry) :
    ShownTexts.Agree { sessionTexts lst n with pttGroup := some grp } ↔ isStrBlank n = true := by
  cases hblank : isStrBlank n with
  | true =>
    rw [sessionTexts_blank hblank]
    exact iff_of_true ⟨by simp, rfl⟩ rfl
  | false =>
    rw [sessionTexts_number hblank]
    simp only [Bool.false_eq_true, iff_false]
    intro h
    have hshown := (h.number _ rfl _ rfl).1
    rw [hgrp] at hshown
    exact Bool.false_ne_true hshown.symm

/-- After the screen was brought up to date its texts agree just when the list can answer. -/
theorem getPTTStatus_agree_iff (h : texts.Agree) :
    (getPTTStatus false s texts).Agree ↔ ShownAnswered s := by
  unfold getPTTStatus ShownAnswered StatusAnswered
  rw [if_neg Bool.false_ne_true]
  dsimp only
  cases s.terminal.pttGroupStatus.status with
  | idle | closed =>
    cases hgrp : isStrBlank (some (s.terminal.currGrpNum.getD [])) with
    | true => exact unselected_agrees_iff hgrp _ _
    | false => exact selected_agrees_iff hgrp _
  | init => exact iff_of_true ⟨by simp, h.name⟩ trivial
  | busy | forbidden => exact iff_of_true h trivial
  | free | listening | waiting | rejected | canceled | speaking | accepted | applying | canceling =>
    exact sessionTexts_agree_iff _ _

end shown

/-! ### Runs -/

/-- The groups change, the activity starts anew, or it is told that the session changed. -/
inductive ActivityEvent where
  | manager (e : GroupEvent)
  | onCreate
  | onReceive (mbye : Bool)
  deriving Repr, DecidableEq

structure PttActivity where
  service : GroupService
  texts : ShownTexts := {}

namespace PttActivity

def next (a : PttActivity) : ActivityEvent → PttActivity
  | .manager e => { a with service := e.next a.service }
  | .onCreate => { a with texts := {} }
  | .onReceive mbye => { a with texts := getPTTStatus mbye a.service a.texts }

def enabled (a : PttActivity) : ActivityEvent → Bool
  | .manager e => e.enabled a.service
  | _ => true

/-- The list can answer for the number when the screen is brought up to date. -/
def Answers (a : PttActivity) : ActivityEvent → Prop
  | .onReceive false => ShownAnswered a.service
  | _ => True

end PttActivity

instance (a : PttActivity) : (e : ActivityEvent) → Decidable (a.Answers e)
  | .onReceive false => inferInstanceAs (Decidable (ShownAnswered a.service))
  | .onReceive true | .manager _ | .onCreate => isTrue trivial

def pttActivity (start : GroupService → Prop) : System PttActivity ActivityEvent where
  init a := start a.service ∧ a.texts = {}
  enabled a e := a.enabled e
  next a e := a.next e

instance (start : GroupService → Prop) (a : PttActivity) (e : ActivityEvent) :
    Decidable ((pttActivity start).enabled a e) := inferInstanceAs (Decidable (a.enabled e = true))

theorem next_agree_iff {a : PttActivity} {e : ActivityEvent} (h : a.texts.Agree) :
    (a.next e).texts.Agree ↔ a.Answers e := by
  cases e with
  | manager e => exact iff_of_true h trivial
  | onCreate => exact iff_of_true ⟨by simp [PttActivity.next], rfl⟩ trivial
  | onReceive mbye =>
    cases mbye with
    | true => exact iff_of_true h trivial
    | false => exact getPTTStatus_agree_iff h

/-- Whatever happened to the groups, a number is answered with its group exactly when there is no
group or one with this number; and the screen never shows a number with the name of another group
exactly in the runs in which the list can answer each time the screen is brought up to date. -/
theorem runs_groupShown {start : GroupService → Prop} {a : PttActivity}
    (ha : (pttActivity start).init a) {es : List ActivityEvent}
    (hes : (pttActivity start).Allowed (fun _ _ => True) a es) :
    (∀ n, AnswersFor ((pttActivity start).run a es).service.lstGroupData n ↔
      Answerable ((pttActivity start).run a es).service.lstGroupData n) ∧
    (∀ n, AnswersExactly ((pttActivity start).run a es).service.lstGroupData n ↔
      ((pttActivity start).run a es).service.lstGroupData = [] ∨
        ∃ g, (((pttActivity start).run a es).service.lstGroupData.find? fun g =>
          sameNumber n g.number) = some g ∧ g.number = n) ∧
    ((pttActivity start).Allowed PttActivity.Answers a es ↔
      ∀ es', es' <+: es → ((pttActivity start).run a es').texts.Agree) := by
  refine ⟨fun n => answersFor_iff, fun n => answersExactly_iff, ?_⟩
  have hstart : a.texts.Agree := by
    rw [ha.2]
    exact ⟨by simp, rfl⟩
  apply System.allowed_iff (P := fun a : PttActivity => a.texts.Agree)
    (Q := fun a : PttActivity => a.texts.Agree) (fun _ h => h) _ _ hstart hes
  · intro a e h _ hok
    exact (next_agree_iff h).mpr hok
  · intro a e h _ hok
    exact mt (next_agree_iff h).mp hok

/-- The group of the session is renamed while it is listened to. -/
def renamedRun : List ActivityEvent :=
  [.manager (.addGroupInfo 0 (some [⟨ascii "day", ascii "8001", 1⟩])), .onCreate,
    .manager (.terminal (.mInviteIndicate 0 (some (ascii "8001")) (some (ascii "101")))),
    .onReceive false,
    .manager (.addGroupInfo 0 (some [⟨ascii "night", ascii "8002", 1⟩,
      ⟨ascii "early", ascii "8001", 1⟩])),
    .onReceive false]

theorem renamedRun_agrees :
    ((pttActivity fun s => s = {}).run ⟨{}, {}⟩ renamedRun).texts.Agree := by
  have hrun : (pttActivity fun s => s = {}).Allowed (fun _ _ => True) ⟨{}, {}⟩ renamedRun := by
    decide +kernel
  exact (runs_groupShown ⟨rfl, rfl⟩ hrun).2.2.mp (by decide +kernel) renamedRun List.prefix_rfl

/-- The group of the session is no longer in the list. -/
def unlistedRun : List ActivityEvent :=
  [.manager (.addGroupInfo 0 (some [⟨ascii "day", ascii "8001", 1⟩])), .onCreate,
    .manager (.terminal (.mInviteIndicate 0 (some (ascii "8001")) (some (ascii "101")))),
    .manager (.addGroupInfo 0 (some [⟨ascii "night", ascii "8002", 1⟩])), .onReceive false]

/-- The number of the session is shown with the name of the group that is listed. -/
theorem unlisted_group_misnamed :
    (pttActivity fun s => s = {}).Allowed (fun _ _ => True) ⟨{}, {}⟩ unlistedRun ∧
    ((pttActivity fun s => s = {}).run ⟨{}, {}⟩ unlistedRun).texts =
      ⟨some (ascii "8001"), ascii "night", some ⟨ascii "night", ascii "8002", 1⟩⟩ ∧
    ¬ AnswersFor ((pttActivity fun s => s = {}).run ⟨{}, {}⟩ unlistedRun).service.lstGroupData
      (ascii "8001") ∧
    ¬ ((pttActivity fun s => s = {}).run ⟨{}, {}⟩ unlistedRun).texts.Agree := by
  have htexts : ((pttActivity fun s => s = {}).run ⟨{}, {}⟩ unlistedRun).texts =
      ⟨some (ascii "8001"), ascii "night", some ⟨ascii "night", ascii "8002", 1⟩⟩ := by
    decide +kernel
  refine ⟨by decide +kernel, htexts, ?_, fun h => ?_⟩
  · rw [answersFor_iff]
    decide +kernel
  · rw [htexts] at h
    exact absurd (h.number _ rfl _ rfl).2 (by decide +kernel)

end PttTerminal
