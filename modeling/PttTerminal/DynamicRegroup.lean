import PttTerminal.FreeFloor
import PttTerminal.GroupManager
import PttTerminal.RegroupFlag

/-!
# New groups during a session

A regroup message announces new groups, and the list that follows closes the session of a group that
is no longer on it. A single call in front is not disturbed, an empty list closes any session, and a
session that waited for its groups is closed when none can be selected. A session that holds no group
is compared with the list all the same, which stops the method.
-/
namespace PttTerminal

namespace Terminal

variable {native : ℤ} {t : Terminal}

/-- A single call is going on and its screen is in front. -/
def singleCallInFront (t : Terminal) : Bool :=
  t.currentCallState.callState ≠ .idle && t.isSingleCallOnTop

/-- The group of the session is missing in the list. -/
def sessionDeleted (groupInfos : List GroupEntry) (t : Terminal) : Prop :=
  ∃ n, t.pttGroupStatus.groupNum = some n ∧ ∀ g ∈ groupInfos, g.number ≠ n

/-- The session is closed for the new list. -/
def closesFor (groupInfos : List GroupEntry) (t : Terminal) : Prop :=
  match t.pttGroupStatus.status with
  | .idle => False
  | .init => (t.addGroups groupInfos).getCurrentGroupInfo = none
  | _ => t.singleCallInFront = false ∧ (groupInfos = [] ∨ t.sessionDeleted groupInfos)

/-- The method does not look for a group that is not there. -/
def comparable (groupInfos : List GroupEntry) (t : Terminal) : Bool :=
  match t.pttGroupStatus.status with
  | .idle | .init => true
  | _ => t.singleCallInFront || groupInfos.isEmpty || t.pttGroupStatus.groupNum.isSome

/-- There was a session and there is none. -/
def Closes (t t' : Terminal) : Prop :=
  t.pttGroupStatus.status ≠ .idle ∧ t'.pttGroupStatus.status = .idle

theorem isDeleted_iff {n : Bytes} {groupInfos : List GroupEntry} :
    isDeleted n groupInfos = true ↔ ∀ g ∈ groupInfos, g.number ≠ n := by
  simp [isDeleted]

/-! ### The regroup message -/

/-- Where the session has a group or the list is empty, the message closes the session exactly when
the group is missing. -/
theorem regroup_idle_iff {groupInfos : List GroupEntry} (hflag : t.bDynamic = true)
    (hs : t.pttGroupStatus.status ≠ .idle)
    (h : t.singleCallInFront = true ∨ groupInfos = [] ∨ t.pttGroupStatus.groupNum.isSome = true) :
    (t.regroup groupInfos).pttGroupStatus.status = .idle ↔
      t.singleCallInFront = false ∧ (groupInfos = [] ∨ t.sessionDeleted groupInfos) := by
  have hignores : GroupService.ignoresRegroup t = t.singleCallInFront := by
    simp [GroupService.ignoresRegroup, singleCallInFront, hs]
  rw [GroupService.regroup_dynamic hflag, hignores]
  cases hcall : t.singleCallInFront with
  | true => simp [hs]
  | false =>
    cases groupInfos with
    | nil => simp [regroup.leave]
    | cons g gs =>
      obtain ⟨n, hn⟩ : ∃ n, t.pttGroupStatus.groupNum = some n := by
        simpa [hcall, Option.isSome_iff_exists] using h
      have hdeleted : t.sessionDeleted (g :: gs) ↔ isDeleted n (g :: gs) = true := by
        rw [isDeleted_iff]
        constructor
        · rintro ⟨m, hm, hmiss⟩
          rw [hn] at hm
          cases hm
          exact hmiss
        · intro hmiss
          exact ⟨n, hn, hmiss⟩
      rw [hdeleted, hn]
      cases hd : isDeleted n (g :: gs) with
      | true => simp [regroup.leave, hd]
      | false => simp [hd, hs]

/-! ### A session that waits for its groups -/

theorem getCurrentGroupInfo_not_blank {g : GroupEntry} (h : t.getCurrentGroupInfo = some g) :
    isStrBlank (some g.number) = false := by
  unfold getCurrentGroupInfo at h
  split_ifs at h with hblank
  have hnumber := List.find?_some h
  rw [of_decide_eq_true hnumber]
  simpa using hblank

/-- There is a session of this group. -/
def SessionOf (n : Bytes) (t : Terminal) : Prop :=
  t.pttGroupStatus.groupNum = some n ∧ t.pttGroupStatus.status ≠ .idle

theorem SessionOf.checkResult {n : Bytes} (h : t.SessionOf n) (result : ℤ) :
    (t.checkResult result).SessionOf n := by
  have hf : ((t.setSpeakerNum none).setStatus .free).SessionOf n := ⟨h.1, by simp⟩
  unfold Terminal.checkResult
  split
  · dsimp only
    split
    · exact hf
    · exact hf
  · exact h

/-- An application for a stored group keeps the group and the session. -/
theorem SessionOf.handleApply {n : Bytes} (h : t.SessionOf n) (hb : isStrBlank (some n) = false)
    (native : ℤ) : (t.handleApply native).SessionOf n := by
  obtain ⟨b, hshow⟩ := isbPttErrorShowing_eq t
  have ht : (t.setBPttErrorShowing b).SessionOf n := h
  unfold Terminal.handleApply
  dsimp only
  rw [hshow]
  split
  · exact ht
  · split
    · exact ⟨h.1, by simp⟩
    · have happly : ((t.setBPttErrorShowing b).setStatus .applying).applyGroup = some n := by
        have hgroup : ((t.setBPttErrorShowing b).setStatus .applying).pttGroupStatus.groupNum =
          some n := h.1
        rw [applyGroup, hgroup, hb]
        rfl
      have hset : (((t.setBPttErrorShowing b).setStatus .applying).setGroupNum (some n)).SessionOf n :=
        ⟨rfl, by simp⟩
      unfold applyPttRight
      rw [happly]
      dsimp only [requestApplyPttRight]
      rw [hb]
      split
      · exact hset
      · refine SessionOf.checkResult ?_ native
        exact hset

theorem SessionOf.handleCommandApply {n : Bytes} (h : t.SessionOf n)
    (hb : isStrBlank (some n) = false) (native : ℤ) :
    (t.handleCommand native .applyPttRight).SessionOf n := by
  unfold handleCommand
  split
  · exact h
  · exact h.handleApply hb native

/-- A session that waited for its groups goes on with the selected one, or is closed. -/
theorem resumeApply_init (hs : t.pttGroupStatus.status = .init) (native : ℤ) :
    (t.getCurrentGroupInfo = none ∧ t.resumeApply native = t.clear) ∨
      ∃ g, t.getCurrentGroupInfo = some g ∧ (t.resumeApply native).SessionOf g.number := by
  unfold resumeApply
  rw [if_neg (by simp [hs])]
  cases hg : t.getCurrentGroupInfo with
  | none => exact .inl ⟨rfl, rfl⟩
  | some g =>
    have hset : (t.setGroupNum (some g.number)).SessionOf g.number := ⟨rfl, by simp [hs]⟩
    refine .inr ⟨g, rfl, ?_⟩
    dsimp only
    split
    · exact hset.handleCommandApply (getCurrentGroupInfo_not_blank hg) native
    · exact ⟨rfl, by simp⟩

theorem resumeApply_of_ne_init (hs : t.pttGroupStatus.status ≠ .init) (native : ℤ) :
    t.resumeApply native = t := if_pos hs

theorem addGroups_singleCallInFront (gs : List GroupEntry) (t : Terminal) :
    (t.addGroups gs).singleCallInFront = t.singleCallInFront := by
  obtain ⟨n, hn⟩ := addGroups_eq gs t
  rw [hn]
  rfl

@[simp]
theorem addGroups_status (gs : List GroupEntry) (t : Terminal) :
    (t.addGroups gs).pttGroupStatus = t.pttGroupStatus := by
  obtain ⟨n, hn⟩ := addGroups_eq gs t
  rw [hn]

theorem addGroups_bDynamic (gs : List GroupEntry) (t : Terminal) :
    (t.addGroups gs).bDynamic = t.bDynamic := by
  obtain ⟨n, hn⟩ := addGroups_eq gs t
  rw [hn]

theorem addGroups_current_mem {gs : List GroupEntry} {g : GroupEntry}
    (h : (t.addGroups gs).getCurrentGroupInfo = some g) : g ∈ gs := by
  have hmem := getCurrentGroupInfo_mem h
  obtain ⟨n, hn⟩ := addGroups_eq gs t
  rw [hn] at hmem
  exact hmem

/-- Outside of a session and of the wait for groups, a comparison needs a group or has no need of
one. -/
theorem comparable_iff {gs : List GroupEntry} (hidle : t.pttGroupStatus.status ≠ .idle)
    (hinit : t.pttGroupStatus.status ≠ .init) : t.comparable gs = true ↔
      t.singleCallInFront = true ∨ gs = [] ∨ t.pttGroupStatus.groupNum.isSome = true := by
  unfold comparable
  cases hs : t.pttGroupStatus.status <;> simp_all [or_assoc]

theorem closesFor_iff {gs : List GroupEntry} (hidle : t.pttGroupStatus.status ≠ .idle)
    (hinit : t.pttGroupStatus.status ≠ .init) : t.closesFor gs ↔
      t.singleCallInFront = false ∧ (gs = [] ∨ t.sessionDeleted gs) := by
  unfold closesFor
  cases hs : t.pttGroupStatus.status <;> simp_all

end Terminal

/-! ### The law -/

namespace GroupService

variable {s : GroupService}

open Terminal

theorem comparesNull_of_idle {t : Terminal} (gs : List GroupEntry)
    (h : t.pttGroupStatus.status = .idle) : comparesNull gs t = false := by
  simp [comparesNull, ignoresRegroup, h]

theorem comparesNull_of_group {t : Terminal} (gs : List GroupEntry)
    (h : t.pttGroupStatus.groupNum.isSome = true) : comparesNull gs t = false := by
  obtain ⟨n, hn⟩ := Option.isSome_iff_exists.mp h
  simp [comparesNull, hn]

theorem comparesNull_of_comparable {t : Terminal} {gs : List GroupEntry}
    (h : t.singleCallInFront = true ∨ gs = [] ∨ t.pttGroupStatus.groupNum.isSome = true) :
    comparesNull gs t = false := by
  obtain hcall | rfl | hgroup := h
  · have hignores : ignoresRegroup t = true := by
      have hcall' : (decide (t.currentCallState.callState ≠ .idle) && t.isSingleCallOnTop) = true :=
        hcall
      rw [ignoresRegroup, hcall', Bool.true_or]
    simp [comparesNull, hignores]
  · simp [comparesNull]
  · exact comparesNull_of_group gs hgroup

/-- A session that waits for groups is resolved before any group is compared: it is closed where no
group can be selected, and goes on with the selected one otherwise. -/
theorem regroup_session_init (native : ℤ) {gs : List GroupEntry} {t : Terminal}
    (hflag : t.bDynamic = true) (hinit : t.pttGroupStatus.status = .init) :
    comparesNull gs ((t.addGroups gs).resumeApply native) = false ∧
      (Closes t (((t.addGroups gs).resumeApply native).regroup gs) ↔
        (t.addGroups gs).getCurrentGroupInfo = none) := by
  have hst : (t.addGroups gs).pttGroupStatus = t.pttGroupStatus := addGroups_status gs t
  obtain ⟨hnone, hclear⟩ | ⟨g, hg, hsession⟩ :=
    resumeApply_init ((congrArg PttGroupStatus.status hst).trans hinit) native
  · rw [hclear]
    refine ⟨comparesNull_of_idle gs rfl, iff_of_true ⟨by simp [hinit], ?_⟩ hnone⟩
    have hignores : ignoresRegroup (t.addGroups gs).clear = true := by simp [ignoresRegroup]
    rw [regroup_dynamic (t := (t.addGroups gs).clear) ((addGroups_bDynamic gs t).trans hflag),
      hignores]
    rfl
  · refine ⟨comparesNull_of_group gs (by simp [hsession.1]), iff_of_false ?_ (by simp [hg])⟩
    rintro ⟨-, hclosed⟩
    rw [regroup_listed (addGroups_current_mem hg) hsession.1] at hclosed
    exact hsession.2 hclosed

/-- What becomes of the session, and that the method runs to its end. -/
theorem regroup_session (native : ℤ) {gs : List GroupEntry} {t : Terminal} (hflag : t.bDynamic = true)
    (h : t.comparable gs = true) :
    comparesNull gs ((t.addGroups gs).resumeApply native) = false ∧
      (Closes t (((t.addGroups gs).resumeApply native).regroup gs) ↔ t.closesFor gs) := by
  by_cases hinit : t.pttGroupStatus.status = .init
  · have hclosesFor : t.closesFor gs ↔ (t.addGroups gs).getCurrentGroupInfo = none := by
      unfold closesFor
      rw [hinit]
    rw [hclosesFor]
    exact regroup_session_init native hflag hinit
  · set u := t.addGroups gs with hu
    have hst : u.pttGroupStatus = t.pttGroupStatus := addGroups_status gs t
    have hdyn : u.bDynamic = true := (addGroups_bDynamic gs t).trans hflag
    rw [resumeApply_of_ne_init (fun hs => hinit (hst ▸ hs))]
    by_cases hidle : t.pttGroupStatus.status = .idle
    · refine ⟨comparesNull_of_idle gs (by rw [hst, hidle]), iff_of_false (fun hc => hc.1 hidle) ?_⟩
      simp [closesFor, hidle]
    · have hcomparable := (comparable_iff hidle hinit).mp h
      have hfront : u.singleCallInFront = t.singleCallInFront := addGroups_singleCallInFront gs t
      rw [← hfront, ← hst] at hcomparable
      refine ⟨comparesNull_of_comparable hcomparable, ?_⟩
      rw [closesFor_iff hidle hinit]
      have hiff := regroup_idle_iff hdyn (fun hs => hidle (hst ▸ hs)) hcomparable
      have hdeleted : u.sessionDeleted gs ↔ t.sessionDeleted gs := by simp [sessionDeleted, hst]
      rw [hfront, hdeleted] at hiff
      exact ⟨fun hc => hiff.mp hc.2, fun hc => ⟨hidle, hiff.mpr hc⟩⟩

/-- With a regroup message, where there is a group to compare or no need of one, new groups are
handled to the end, told of once and the flag is taken back; and the session is closed exactly when
it waited for groups and none can be selected, or no single call is in front and the list is empty
or lacks the session's group. -/
theorem dynamic_regroup (native : ℤ) (groupInfos : Option (List GroupEntry)) (s : GroupService)
    (hflag : s.terminal.bDynamic = true) (h : s.terminal.comparable (groupInfos.getD []) = true) :
    (s.jniAddGroupInfo native groupInfos).completed = true ∧
      (s.jniAddGroupInfo native groupInfos).service.terminal.bDynamic = false ∧
      (s.jniAddGroupInfo native groupInfos).broadcasts = 1 ∧
      (Closes s.terminal (s.jniAddGroupInfo native groupInfos).service.terminal ↔
        s.terminal.closesFor (groupInfos.getD [])) := by
  obtain ⟨hnull, hcloses⟩ := regroup_session native hflag h
  simp only [jniAddGroupInfo, hnull, Bool.false_eq_true, if_false, true_and]
  exact hcloses

/-- A session of group 8001, and a regroup message. -/
def sessionRun : List Event :=
  [.mInviteIndicate 0 (some (ascii "8001")) (some (ascii "101")), .receiveMessage none]

/-- The same with a single call on its screen. -/
def callRun : List Event :=
  [.mInviteIndicate 0 (some (ascii "8001")) (some (ascii "101")), .setSingleCall .talking,
    .showUi { topActivity := .inCall, inCallScreenActivity := true }, .receiveMessage none]

def after (es : List Event) : GroupService where
  terminal := (Runs.System.run (PttTerminal.terminal Terminal.Fresh Event.ofNative) .ready es)

/-- The group of the session is taken away. -/
theorem session_closed : Closes (after sessionRun).terminal
    ((after sessionRun).jniAddGroupInfo 0 (some [⟨ascii "night", ascii "8002", 1⟩])).service.terminal :=
  (dynamic_regroup 0 (some [⟨ascii "night", ascii "8002", 1⟩]) (after sessionRun) (by decide +kernel)
    (by decide +kernel)).2.2.2.mpr ⟨by decide +kernel, .inr ⟨ascii "8001", by decide +kernel, by decide⟩⟩

/-- During a single call the session of a group that is taken away goes on. -/
theorem session_kept_in_call :
    (PttTerminal.terminal Terminal.Fresh Event.ofNative).Allowed (fun _ _ => True) .ready callRun ∧
      (after callRun).terminal.bDynamic = true ∧
      (after callRun).terminal.sessionDeleted [⟨ascii "night", ascii "8002", 1⟩] ∧
      ¬ Closes (after callRun).terminal
        ((after callRun).jniAddGroupInfo 0 (some [⟨ascii "night", ascii "8002", 1⟩])).service.terminal :=
  ⟨by decide +kernel, by decide +kernel, ⟨ascii "8001", by decide +kernel, by decide⟩,
    fun h => absurd h.2 (by decide +kernel)⟩

end GroupService

end PttTerminal
