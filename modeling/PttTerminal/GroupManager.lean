import Mathlib.Data.List.AList
import PttTerminal.CallDesk

/-!
# The group manager

Beside the list of groups there is a map from the number of a group to its members, which come one
group at a time. Members are only added for a number that is not in the map yet. When there are as
many entries as groups, the members are announced.
-/
namespace PttTerminal

/-- `groupNumMebersMap`: one entry for a number at most. -/
abbrev MemberMap := AList fun _ : Bytes => List MemberEntry

namespace MemberMap

def size (m : MemberMap) : ℕ := m.keys.length

/-- The members of a number that is in the map are not replaced. -/
def addReceivedMembers (grpNumber : Bytes) (members : List MemberEntry) (m : MemberMap) : MemberMap :=
  if grpNumber ∈ m then m else m.insert grpNumber members

variable {m : MemberMap} {n grpNumber : Bytes} {members : List MemberEntry}

@[simp]
theorem size_empty : size ∅ = 0 := rfl

@[simp]
theorem mem_addReceivedMembers : n ∈ m.addReceivedMembers grpNumber members ↔ n = grpNumber ∨ n ∈ m := by
  unfold addReceivedMembers
  split_ifs with h
  · constructor
    · exact .inr
    · rintro (rfl | hn)
      · exact h
      · exact hn
  · exact AList.mem_insert m

theorem lookup_addReceivedMembers : (m.addReceivedMembers grpNumber members).lookup n =
    if n = grpNumber ∧ grpNumber ∉ m then some members else m.lookup n := by
  unfold addReceivedMembers
  by_cases h : grpNumber ∈ m
  · rw [if_pos h, if_neg (by simp [h])]
  · rw [if_neg h]
    by_cases hn : n = grpNumber
    · subst hn
      rw [if_pos ⟨rfl, h⟩]
      exact AList.lookup_insert m
    · rw [if_neg (by simp [hn])]
      exact AList.lookup_insert_ne hn

end MemberMap

/-- The terminal, whose list of groups and flag belong to the manager, and the map. -/
structure GroupService where
  terminal : Terminal := {}
  groupNumMebersMap : MemberMap := ∅

/-- What `JNIAddGroupInfo` comes to: whether it ran to its end, and how often it broadcast that the
groups changed. -/
structure GroupUpdate where
  service : GroupService
  completed : Bool
  broadcasts : ℕ

namespace GroupService

def lstGroupData (s : GroupService) : List GroupEntry := s.terminal.lstGroupData

/-- `getGroupData().getNumber()` of every group. -/
def grpNumbers (s : GroupService) : List Bytes := s.lstGroupData.map GroupEntry.number

def checkReceiveAll (s : GroupService) : Bool :=
  s.groupNumMebersMap.size = s.lstGroupData.length

def clear (s : GroupService) : GroupService where
  terminal := s.terminal.clearGroups
  groupNumMebersMap := ∅

def clearNumMemberMap (s : GroupService) : GroupService := { s with groupNumMebersMap := ∅ }

/-- Whether `ACTION_MEMBERS_INFO` is broadcast, and the new state. -/
def jniReceiveMemberInfo (groupNum : Bytes) (members : List MemberEntry) (s : GroupService) :
    Bool × GroupService :=
  let s := { s with
    groupNumMebersMap := s.groupNumMebersMap.addReceivedMembers groupNum members }
  (s.checkReceiveAll, s)

/-- A single call is in front, or there is no session of a group. -/
def ignoresRegroup (t : Terminal) : Bool :=
  (t.currentCallState.callState ≠ .idle && t.isSingleCallOnTop) || t.pttGroupStatus.status = .idle

/-- The number of the session's group is compared though there is none. -/
def comparesNull (groupInfos : List GroupEntry) (t : Terminal) : Bool :=
  t.bDynamic && !ignoresRegroup t && !groupInfos.isEmpty && t.pttGroupStatus.groupNum.isNone

/-- `JNIAddGroupInfo`. The requests for the members, which are answered later, are left out. -/
def jniAddGroupInfo (native : ℤ) (groupInfos : Option (List GroupEntry)) (s : GroupService) :
    GroupUpdate :=
  let gs := groupInfos.getD []
  let members := if gs.isEmpty then ∅ else s.groupNumMebersMap
  let t := (s.terminal.addGroups gs).resumeApply native
  if comparesNull gs t then ⟨⟨t, members⟩, false, 0⟩
  else
    let members := if t.bDynamic then ∅ else members
    ⟨⟨{ t.regroup gs with bDynamic := false }, members⟩, true, 1⟩

variable {s : GroupService} {native : ℤ} {groupInfos : Option (List GroupEntry)}

/-- Without a null pointer a regroup message closes the session, or leaves it alone. -/
theorem regroup_dynamic {t : Terminal} {gs : List GroupEntry} (h : t.bDynamic = true) :
    t.regroup gs =
      if ignoresRegroup t then { t with bDynamic := false }
      else if gs.isEmpty then Terminal.regroup.leave t
      else match t.pttGroupStatus.groupNum with
        | none => t
        | some n =>
          if Terminal.isDeleted n gs then Terminal.regroup.leave t else { t with bDynamic := false } := by
  rw [Terminal.regroup, if_neg (by simp [h])]
  rfl

/-- The flag is taken back unless the method stops. -/
theorem regroup_bDynamic (gs : List GroupEntry) (t : Terminal) :
    (t.regroup gs).bDynamic = comparesNull gs t := by
  unfold comparesNull
  cases hflag : t.bDynamic with
  | false => simp [Terminal.regroup, hflag]
  | true =>
    rw [regroup_dynamic hflag]
    cases hignores : ignoresRegroup t with
    | true => rfl
    | false =>
      cases hempty : gs.isEmpty with
      | true => rfl
      | false =>
        cases hgroup : t.pttGroupStatus.groupNum with
        | none => exact hflag
        | some n =>
          cases hdeleted : Terminal.isDeleted n gs <;> simp [hdeleted, Terminal.regroup.leave]

theorem regroup_null {t : Terminal} {gs : List GroupEntry} (h : comparesNull gs t = true) :
    t.regroup gs = t := by
  obtain ⟨⟨⟨hflag, hignores⟩, hempty⟩, hgroup⟩ : ((t.bDynamic = true ∧ ignoresRegroup t = false) ∧
      gs.isEmpty = false) ∧ t.pttGroupStatus.groupNum = none := by
    simpa [comparesNull, -List.isEmpty_iff, -List.isEmpty_eq_false_iff] using h
  rw [regroup_dynamic hflag, hignores, hempty, hgroup]
  rfl

/-- The update is that of the terminal. -/
theorem jniAddGroupInfo_terminal (native : ℤ) (groupInfos : Option (List GroupEntry))
    (s : GroupService) : (s.jniAddGroupInfo native groupInfos).service.terminal =
      s.terminal.jniAddGroupInfo native (groupInfos.getD []) := by
  set gs := groupInfos.getD []
  set t := (s.terminal.addGroups gs).resumeApply native
  have hflag := regroup_bDynamic gs t
  change (if comparesNull gs t then (⟨⟨t, _⟩, false, 0⟩ : GroupUpdate)
    else ⟨⟨{ t.regroup gs with bDynamic := false }, _⟩, true, 1⟩).service.terminal = t.regroup gs
  cases hnull : comparesNull gs t with
  | true => exact (regroup_null hnull).symm
  | false =>
    rw [hnull] at hflag
    rw [if_neg Bool.false_ne_true, ← hflag]

end GroupService

/-! ### The events -/

/-- What changes the groups and their members. `requestFreshView` asks for the members of every
group, which come later if at all. -/
inductive GroupEvent where
  | addGroupInfo (native : ℤ) (groupInfos : Option (List GroupEntry))
  | receiveMemberInfo (groupNum : Bytes) (members : List MemberEntry)
  | requestFreshView
  | clearNumMemberMap
  | clear
  /-- The view sorts the members of a group in place. -/
  | sortMembers (grpNumber : Bytes) (members : List MemberEntry)
  /-- The other events of the terminal. A group is selected from the list. -/
  | terminal (e : Event)
  deriving Repr, DecidableEq

namespace GroupEvent

def enabled (s : GroupService) : GroupEvent → Bool
  | .sortMembers n members => (s.groupNumMebersMap.lookup n).any members.isPerm
  | .terminal (.receiveGroupInfo _ _) => false
  | .terminal (.setCurrentGrp n) => s.lstGroupData.any fun g => g.number = n
  | .terminal e => e.enabled s.terminal
  | _ => true

def next (s : GroupService) : GroupEvent → GroupService
  | .addGroupInfo native groupInfos => (s.jniAddGroupInfo native groupInfos).service
  | .receiveMemberInfo n members => (s.jniReceiveMemberInfo n members).2
  | .requestFreshView => s
  | .clearNumMemberMap => s.clearNumMemberMap
  | .clear => s.clear
  | .sortMembers n members =>
    { s with groupNumMebersMap := s.groupNumMebersMap.insert n members }
  | .terminal e => { s with terminal := e.handle s.terminal }

end GroupEvent

def groupManager (start : GroupService → Prop) : Runs.System GroupService GroupEvent where
  init := start
  enabled s e := e.enabled s
  next s e := e.next s

instance (start : GroupService → Prop) (s : GroupService) (e : GroupEvent) :
    Decidable ((groupManager start).enabled s e) := inferInstanceAs (Decidable (e.enabled s = true))

end PttTerminal
