import Mathlib.Data.List.Dedup
import PttTerminal.GroupSelection

/-!
# The lists of members

The members of the groups come one group at a time and are announced when there are as many entries
as groups. Entries of groups that are no longer on the list count as well, and a group that has an
entry keeps it. So the entries are complete when they are announced as long as none of a group that is
not on the list is counted, and they are the latest as long as none is sent for a group that has one.
-/
namespace PttTerminal

open Runs

/-! ### Counting what is not on a list -/

section
variable {α : Type*} [DecidableEq α] {keys listed : List α}

/-- How often an element of the list was there before. -/
def repeats (listed : List α) : ℕ := listed.length - listed.dedup.length

/-- The keys that are not on the list. -/
def strangers (listed keys : List α) : List α := keys.filter (· ∉ listed)

theorem length_strangers (listed keys : List α) :
    (keys.filter (· ∈ listed)).length + (strangers listed keys).length = keys.length := by
  have h := List.length_eq_length_filter_add (l := keys) (fun k => decide (k ∈ listed))
  simp only [strangers, decide_not]
  exact h.symm

/-- As many keys as the list is long are all of the list, if those that are not on it are no more than
its repetitions. -/
theorem subset_iff_strangers (hnodup : keys.Nodup) (h : keys.length = listed.length) :
    listed ⊆ keys ↔ (strangers listed keys).length ≤ repeats listed := by
  have hcount := length_strangers listed keys
  have hdedup : listed.dedup.length ≤ listed.length := (List.dedup_sublist listed).length_le
  have hinside : keys.filter (· ∈ listed) ⊆ listed.dedup := by
    intro k hk
    simpa using (List.mem_filter.mp hk).2
  have hsubperm := (hnodup.filter (· ∈ listed)).subperm hinside
  unfold repeats
  constructor
  · intro hsub
    have hback : listed.dedup ⊆ keys.filter (· ∈ listed) := by
      intro k hk
      have hk' := List.mem_dedup.mp hk
      exact List.mem_filter.mpr ⟨hsub hk', by simpa using hk'⟩
    have hle := ((List.nodup_dedup listed).subperm hback).length_le
    omega
  · intro hle k hk
    have hperm := hsubperm.perm_of_length_le (by omega)
    exact (List.mem_filter.mp (hperm.mem_iff.mpr (List.mem_dedup.mpr hk))).1

end

/-! ### The history -/

/-- The manager, whether the last event announced the members, and what was delivered, the latest
first. -/
structure MemberDesk where
  service : GroupService := {}
  announced : Bool := false
  delivered : List (Bytes × List MemberEntry) := []

namespace MemberDesk

def next (d : MemberDesk) (e : GroupEvent) : MemberDesk where
  service := e.next d.service
  announced := match e with
    | .receiveMemberInfo n members => (d.service.jniReceiveMemberInfo n members).1
    | _ => false
  delivered := match e with
    | .receiveMemberInfo n members => (n, members) :: d.delivered
    | _ => d.delivered

/-- The members that were delivered last for a number. -/
def latest (n : Bytes) (d : MemberDesk) : Option (List MemberEntry) := d.delivered.lookup n

/-- The manager is new: there are no members. The terminal may be in any state. -/
structure Fresh (d : MemberDesk) : Prop where
  members : d.service.groupNumMebersMap = ∅
  announced : d.announced = false
  delivered : d.delivered = []

end MemberDesk

def memberDesk : System MemberDesk GroupEvent where
  init := MemberDesk.Fresh
  enabled d e := e.enabled d.service
  next d e := d.next e

instance (d : MemberDesk) (e : GroupEvent) : Decidable (memberDesk.enabled d e) :=
  inferInstanceAs (Decidable (e.enabled d.service = true))

theorem fresh_memberDesk : MemberDesk.Fresh {} := ⟨rfl, rfl, rfl⟩

/-! ### Announced members are complete -/

namespace GroupService

/-- Every number of the list has an entry. -/
def Complete (s : GroupService) : Prop := ∀ n ∈ s.grpNumbers, n ∈ s.groupNumMebersMap

instance (s : GroupService) : Decidable s.Complete :=
  inferInstanceAs (Decidable (∀ n ∈ s.grpNumbers, n ∈ s.groupNumMebersMap))

/-- The numbers that have an entry when the members of `n` have come. -/
def numbersWith (n : Bytes) (s : GroupService) : List Bytes :=
  if n ∈ s.groupNumMebersMap then s.groupNumMebersMap.keys else n :: s.groupNumMebersMap.keys

/-- There are as many of these as groups, but too many are of no group on the list. -/
def countsStrangers (n : Bytes) (s : GroupService) : Bool :=
  (s.numbersWith n).length = s.grpNumbers.length &&
    repeats s.grpNumbers < (strangers s.grpNumbers (s.numbersWith n)).length

variable {s : GroupService} {n : Bytes} {members : List MemberEntry}

theorem keys_receiveMemberInfo (n : Bytes) (members : List MemberEntry) (s : GroupService) :
    (s.jniReceiveMemberInfo n members).2.groupNumMebersMap.keys = s.numbersWith n := by
  unfold jniReceiveMemberInfo numbersWith MemberMap.addReceivedMembers
  dsimp only
  split_ifs with h
  · rfl
  · rw [AList.keys, AList.entries_insert_of_notMem h]
    rfl

/-- The members are announced when there are as many numbers as groups. -/
theorem announces_iff : (s.jniReceiveMemberInfo n members).1 = true ↔
    (s.numbersWith n).length = s.grpNumbers.length := by
  have hlength : s.grpNumbers.length = s.terminal.lstGroupData.length := List.length_map _
  rw [← keys_receiveMemberInfo n members s, hlength]
  exact decide_eq_true_iff

theorem complete_iff (h : (s.numbersWith n).length = s.grpNumbers.length) :
    (s.jniReceiveMemberInfo n members).2.Complete ↔
      (strangers s.grpNumbers (s.numbersWith n)).length ≤ repeats s.grpNumbers := by
  have hkeys := keys_receiveMemberInfo n members s
  have hnodup := (s.jniReceiveMemberInfo n members).2.groupNumMebersMap.keys_nodup
  rw [hkeys] at hnodup
  rw [← subset_iff_strangers hnodup h, ← hkeys]
  rfl

end GroupService

namespace MemberDesk

/-- The members are announced in a state in which every listed group has an entry. -/
def Announced (d : MemberDesk) : Prop := d.announced = true → d.service.Complete

instance (d : MemberDesk) : Decidable d.Announced :=
  inferInstanceAs (Decidable (d.announced = true → d.service.Complete))

/-- With the members that come, no group that is not on the list makes up the number. -/
def countsListed (d : MemberDesk) : GroupEvent → Prop
  | .receiveMemberInfo n _ => d.service.countsStrangers n = false
  | _ => True

instance (d : MemberDesk) : (e : GroupEvent) → Decidable (d.countsListed e)
  | .receiveMemberInfo n _ => inferInstanceAs (Decidable (d.service.countsStrangers n = false))
  | .addGroupInfo _ _ | .requestFreshView | .clearNumMemberMap | .clear | .sortMembers _ _
  | .terminal _ => isTrue trivial

/-- The members that are announced with an event are complete exactly when it counts what is
listed. -/
theorem announced_next_iff (d : MemberDesk) (e : GroupEvent) :
    (d.next e).Announced ↔ d.countsListed e := by
  cases e with
  | receiveMemberInfo n members =>
    show ((d.service.jniReceiveMemberInfo n members).1 = true →
      (d.service.jniReceiveMemberInfo n members).2.Complete) ↔ d.service.countsStrangers n = false
    rw [GroupService.announces_iff]
    unfold GroupService.countsStrangers
    by_cases h : (d.service.numbersWith n).length = d.service.grpNumbers.length
    · rw [GroupService.complete_iff h]
      simp [h]
    · simp [h]
  | _ => exact iff_of_true (fun h => by cases h) trivial

end MemberDesk

/-- From a new manager on, the members of every run are complete whenever they are announced, exactly
when each step counts what is listed. -/
theorem runs_announced {d : MemberDesk} (hd : memberDesk.init d) {es : List GroupEvent}
    (hes : memberDesk.Allowed (fun _ _ => True) d es) :
    memberDesk.Allowed MemberDesk.countsListed d es ↔
      ∀ es', es' <+: es → (memberDesk.run d es').Announced := by
  have hstart : d.Announced := fun h => by rw [hd.announced] at h; cases h
  apply System.allowed_iff (fun _ h => h) _ _ hstart hes
  · intro d e _ _ hok
    exact (MemberDesk.announced_next_iff d e).mpr hok
  · intro d e _ _ hok
    exact mt (MemberDesk.announced_next_iff d e).mp hok

/-- The members of one group come, and the list is the same two groups all along. -/
def listedRun : List GroupEvent :=
  [.addGroupInfo 0 (some [⟨ascii "day", ascii "8001", 1⟩, ⟨ascii "night", ascii "8002", 1⟩]),
    .receiveMemberInfo (ascii "8001") [⟨ascii "101", ascii "a", 3⟩],
    .receiveMemberInfo (ascii "8002") [⟨ascii "102", ascii "b", 0⟩]]

theorem announced_along_run : (memberDesk.run {} listedRun).announced = true ∧
    (memberDesk.run {} listedRun).service.Complete := by
  have hannounced : (memberDesk.run {} listedRun).announced = true := by decide +kernel
  have hrun : memberDesk.Allowed (fun _ _ => True) {} listedRun := by decide +kernel
  have hlaw := (runs_announced fresh_memberDesk hrun).mp (by decide +kernel) listedRun List.prefix_rfl
  exact ⟨hannounced, hlaw hannounced⟩

/-- The list is replaced by two other groups, and the members of one of them come. -/
def staleRun : List GroupEvent :=
  [.addGroupInfo 0 (some [⟨ascii "day", ascii "8001", 1⟩]),
    .receiveMemberInfo (ascii "8001") [⟨ascii "101", ascii "a", 3⟩],
    .addGroupInfo 0 (some [⟨ascii "night", ascii "8002", 1⟩, ⟨ascii "late", ascii "8003", 1⟩]),
    .receiveMemberInfo (ascii "8002") [⟨ascii "102", ascii "b", 0⟩]]

/-- The members are announced, and the last group has none. -/
theorem stale_members_announced : memberDesk.Allowed (fun _ _ => True) {} staleRun ∧
    (memberDesk.run {} staleRun).announced = true ∧ ¬(memberDesk.run {} staleRun).service.Complete := by
  decide +kernel

/-! ### Entries are the latest -/

namespace GroupService

/-- The map is cleared without groups, and with a regroup message unless the method stops. -/
def keepsMembers (native : ℤ) (groupInfos : Option (List GroupEntry)) (s : GroupService) : Bool :=
  !(groupInfos.getD []).isEmpty && (!s.terminal.bDynamic ||
    comparesNull (groupInfos.getD []) ((s.terminal.addGroups (groupInfos.getD [])).resumeApply native))

variable {s : GroupService} {native : ℤ} {groupInfos : Option (List GroupEntry)}

theorem jniAddGroupInfo_members (native : ℤ) (groupInfos : Option (List GroupEntry))
    (s : GroupService) : (s.jniAddGroupInfo native groupInfos).service.groupNumMebersMap =
      if s.keepsMembers native groupInfos then s.groupNumMebersMap else ∅ := by
  unfold jniAddGroupInfo keepsMembers
  set gs := groupInfos.getD []
  set t := (s.terminal.addGroups gs).resumeApply native
  have hflag : t.bDynamic = s.terminal.bDynamic := by
    obtain ⟨n, hn⟩ := Terminal.addGroups_eq gs s.terminal
    refine (congrArg (fun d => d.2.2) (Terminal.groupData_resumeApply native _)).trans ?_
    rw [hn]
    rfl
  dsimp only
  rw [hflag]
  by_cases hnull : comparesNull gs t = true
  · rw [if_pos hnull, hnull]
    by_cases hempty : gs.isEmpty = true
    · simp only [hempty, if_true, Bool.not_true, Bool.false_and, Bool.false_eq_true, if_false]
    · simp only [hempty, Bool.or_true, Bool.not_false, Bool.and_true, if_true, Bool.false_eq_true,
        if_false]
  · rw [if_neg hnull, Bool.eq_false_iff.mpr hnull]
    by_cases hempty : gs.isEmpty = true
    · simp [hempty]
    · cases s.terminal.bDynamic <;> simp [hempty]

theorem jniAddGroupInfo_grpNumbers (native : ℤ) (groupInfos : Option (List GroupEntry))
    (s : GroupService) : (s.jniAddGroupInfo native groupInfos).service.grpNumbers =
      (groupInfos.getD []).map GroupEntry.number := by
  unfold grpNumbers lstGroupData
  rw [jniAddGroupInfo_terminal, (Terminal.jniAddGroupInfo_groups native _ _).1]

end GroupService

namespace MemberDesk

variable {d : MemberDesk} {n : Bytes} {members : List MemberEntry}

/-- An entry for the number holds the members that came last, in any order. -/
def Current (n : Bytes) (d : MemberDesk) : Prop :=
  ∀ kept ∈ d.service.groupNumMebersMap.lookup n, ∃ members ∈ d.latest n, kept.Perm members

instance (n : Bytes) (d : MemberDesk) : Decidable (d.Current n) :=
  inferInstanceAs (Decidable (∀ kept ∈ d.service.groupNumMebersMap.lookup n,
    ∃ members ∈ d.latest n, kept.Perm members))

/-- The entries of the listed groups are the latest. -/
def AllCurrent (d : MemberDesk) : Prop := ∀ n ∈ d.service.grpNumbers, d.Current n

instance (d : MemberDesk) : Decidable d.AllCurrent :=
  inferInstanceAs (Decidable (∀ n ∈ d.service.grpNumbers, d.Current n))

/-- What comes for a listed group with an entry is what it has, and a list that does not clear the
map lists no group whose entry is out of date. -/
def refreshes (d : MemberDesk) : GroupEvent → Prop
  | .receiveMemberInfo n members => n ∈ d.service.grpNumbers →
      ∀ kept ∈ d.service.groupNumMebersMap.lookup n, kept.Perm members
  | .addGroupInfo native groupInfos => d.service.keepsMembers native groupInfos = true →
      ∀ g ∈ groupInfos.getD [], d.Current g.number
  | _ => True

instance (d : MemberDesk) : (e : GroupEvent) → Decidable (d.refreshes e)
  | .receiveMemberInfo n members => inferInstanceAs (Decidable (n ∈ d.service.grpNumbers →
      ∀ kept ∈ d.service.groupNumMebersMap.lookup n, kept.Perm members))
  | .addGroupInfo native groupInfos => inferInstanceAs (Decidable
      (d.service.keepsMembers native groupInfos = true → ∀ g ∈ groupInfos.getD [], d.Current g.number))
  | .requestFreshView | .clearNumMemberMap | .clear | .sortMembers _ _ | .terminal _ => isTrue trivial

theorem current_of_empty (h : d.service.groupNumMebersMap = ∅) (n : Bytes) : d.Current n := by
  unfold Current
  rw [h]
  intro kept hk
  cases hk

theorem latest_receive (n n' : Bytes) (members : List MemberEntry) (d : MemberDesk) :
    (d.next (.receiveMemberInfo n members)).latest n' =
      if n' = n then some members else d.latest n' := by
  unfold latest next
  rw [List.lookup_cons]
  by_cases h : n' = n
  · subst h
    simp
  · rw [beq_eq_false_iff_ne.mpr h, if_neg h]

/-- Members that come leave the other numbers as they are. -/
theorem current_receive_of_ne {n' : Bytes} (h : n' ≠ n) :
    (d.next (.receiveMemberInfo n members)).Current n' ↔ d.Current n' := by
  have hlookup : (d.next (.receiveMemberInfo n members)).service.groupNumMebersMap.lookup n' =
      d.service.groupNumMebersMap.lookup n' := by
    refine MemberMap.lookup_addReceivedMembers.trans (if_neg ?_)
    simp [h]
  unfold Current
  rw [hlookup, latest_receive, if_neg h]

/-- Members that come are in the map if there were none, or if they are the same. -/
theorem current_receive : (d.next (.receiveMemberInfo n members)).Current n ↔
    ∀ kept ∈ d.service.groupNumMebersMap.lookup n, kept.Perm members := by
  have hlookup : (d.next (.receiveMemberInfo n members)).service.groupNumMebersMap.lookup n = _ :=
    MemberMap.lookup_addReceivedMembers
  unfold Current
  rw [hlookup, latest_receive, if_pos rfl]
  by_cases hmem : n ∈ d.service.groupNumMebersMap
  · simp [hmem]
  · simp [hmem, AList.lookup_eq_none.mpr hmem]

/-- An update that does not clear the map changes no entry. -/
theorem current_addGroupInfo_of_keeps {native : ℤ} {groupInfos : Option (List GroupEntry)}
    (hkeeps : d.service.keepsMembers native groupInfos = true) :
    (d.next (.addGroupInfo native groupInfos)).Current n ↔ d.Current n := by
  have hmap : (d.next (.addGroupInfo native groupInfos)).service.groupNumMebersMap =
      d.service.groupNumMebersMap :=
    (GroupService.jniAddGroupInfo_members native groupInfos d.service).trans (if_pos hkeeps)
  unfold Current
  rw [hmap]
  rfl

/-- An entry that is sorted holds the same members. -/
theorem Current.sort (h : d.Current n) {n' : Bytes}
    (he : (GroupEvent.sortMembers n' members).enabled d.service = true) :
    (d.next (.sortMembers n' members)).Current n := by
  intro kept hk
  have hk' : kept ∈ (d.service.groupNumMebersMap.insert n' members).lookup n := hk
  by_cases hn : n = n'
  · subst hn
    rw [AList.lookup_insert] at hk'
    cases hk'
    obtain ⟨old, hold, hperm⟩ : ∃ old ∈ d.service.groupNumMebersMap.lookup n, members.Perm old := by
      simpa [GroupEvent.enabled, Option.any_eq_true, List.isPerm_iff] using he
    obtain ⟨latest, hlatest, hkept⟩ := h old hold
    exact ⟨latest, hlatest, hperm.trans hkept⟩
  · rw [AList.lookup_insert_ne hn] at hk'
    exact h kept hk'

theorem AllCurrent.of_terminal {t : Terminal} (h : d.AllCurrent)
    (hlist : t.lstGroupData = d.service.terminal.lstGroupData) (b : Bool) :
    AllCurrent { d with service.terminal := t, announced := b } := by
  intro n hn
  refine h n ?_
  unfold GroupService.grpNumbers GroupService.lstGroupData at *
  rw [← hlist]
  exact hn

theorem allCurrent_next_iff (h : d.AllCurrent) {e : GroupEvent} (he : e.enabled d.service = true) :
    (d.next e).AllCurrent ↔ d.refreshes e := by
  cases e with
  | receiveMemberInfo n members =>
    constructor
    · intro hnext hn
      exact current_receive.mp (hnext n hn)
    · intro hok n' hn'
      by_cases hne : n' = n
      · subst hne
        exact current_receive.mpr (hok hn')
      · exact (current_receive_of_ne hne).mpr (h n' hn')
  | addGroupInfo native groupInfos =>
    have hmap := GroupService.jniAddGroupInfo_members native groupInfos d.service
    have hnumbers := GroupService.jniAddGroupInfo_grpNumbers native groupInfos d.service
    cases hkeeps : d.service.keepsMembers native groupInfos with
    | false =>
      rw [hkeeps] at hmap
      refine iff_of_true (fun n _ => current_of_empty hmap n) ?_
      intro hk
      rw [hkeeps] at hk
      cases hk
    | true =>
      constructor
      · intro hnext _ g hg
        refine (current_addGroupInfo_of_keeps hkeeps).mp (hnext _ ?_)
        exact hnumbers ▸ List.mem_map_of_mem hg
      · intro hok n hn
        obtain ⟨g, hg, rfl⟩ := List.mem_map.mp (hnumbers ▸ hn)
        exact (current_addGroupInfo_of_keeps hkeeps).mpr (hok hkeeps g hg)
  | requestFreshView => exact iff_of_true h trivial
  | clearNumMemberMap => exact iff_of_true (fun n _ => current_of_empty rfl n) trivial
  | clear => exact iff_of_true (fun n _ => current_of_empty rfl n) trivial
  | sortMembers n' members => exact iff_of_true (fun n hn => (h n hn).sort he) trivial
  | terminal e =>
    refine iff_of_true (h.of_terminal (Terminal.lstGroupData_handle ?_ _) false) trivial
    cases e with
    | receiveGroupInfo native gs => cases he
    | _ => rfl

end MemberDesk

/-- From a new manager on, the entries of the listed groups are the latest in every state of a run
exactly when each step of it refreshes them. -/
theorem runs_membersCurrent {d : MemberDesk} (hd : memberDesk.init d) {es : List GroupEvent}
    (hes : memberDesk.Allowed (fun _ _ => True) d es) :
    memberDesk.Allowed MemberDesk.refreshes d es ↔
      ∀ es', es' <+: es → (memberDesk.run d es').AllCurrent := by
  have hstart : d.AllCurrent := fun n _ => MemberDesk.current_of_empty hd.members n
  apply System.allowed_iff (fun _ h => h) _ _ hstart hes
  · intro d e h he hok
    exact (MemberDesk.allCurrent_next_iff h he).mpr hok
  · intro d e h he hok
    exact mt (MemberDesk.allCurrent_next_iff h he).mp hok

/-- The menu clears the map before the members are requested again. -/
def refreshedRun : List GroupEvent :=
  [.addGroupInfo 0 (some [⟨ascii "day", ascii "8001", 1⟩]),
    .receiveMemberInfo (ascii "8001") [⟨ascii "101", ascii "a", 0⟩, ⟨ascii "102", ascii "b", 3⟩],
    .sortMembers (ascii "8001") [⟨ascii "102", ascii "b", 3⟩, ⟨ascii "101", ascii "a", 0⟩],
    .clearNumMemberMap, .requestFreshView,
    .receiveMemberInfo (ascii "8001") [⟨ascii "101", ascii "a", 3⟩, ⟨ascii "102", ascii "b", 3⟩]]

theorem current_along_run : (memberDesk.run {} refreshedRun).Current (ascii "8001") := by
  have hrun : memberDesk.Allowed (fun _ _ => True) {} refreshedRun := by decide +kernel
  exact (runs_membersCurrent fresh_memberDesk hrun).mp (by decide +kernel) refreshedRun List.prefix_rfl
    (ascii "8001") (by decide +kernel)

/-- The timer requests the members again, and the map is not cleared. -/
def timerRun : List GroupEvent :=
  [.addGroupInfo 0 (some [⟨ascii "day", ascii "8001", 1⟩]),
    .receiveMemberInfo (ascii "8001") [⟨ascii "101", ascii "a", 0⟩], .requestFreshView,
    .receiveMemberInfo (ascii "8001") [⟨ascii "101", ascii "a", 3⟩]]

/-- The member that came online stays offline. -/
theorem timer_members_stale : memberDesk.Allowed (fun _ _ => True) {} timerRun ∧
    (memberDesk.run {} timerRun).service.groupNumMebersMap.lookup (ascii "8001") =
      some [⟨ascii "101", ascii "a", 0⟩] ∧
    (memberDesk.run {} timerRun).latest (ascii "8001") = some [⟨ascii "101", ascii "a", 3⟩] ∧
    ¬(memberDesk.run {} timerRun).AllCurrent := by
  decide +kernel

end PttTerminal
