import PttTerminal.GroupManager
import PttTerminal.RegroupFlag

/-!
# The selected group

The number of the selected group outlives the list that it was selected from. When a list comes, a
number that is on it stays selected, and else the first group is taken. The user selects from the
list only, so that the number is on the list from the first list on, until the groups are cleared.
-/
namespace PttTerminal

open Runs

/-! ### A selection that stays -/

section
variable {α : Type*} [DecidableEq α] {listed : List α} {selected : Option α} {x : α}

/-- What is selected from a list if it is on it, and else the first. -/
def keepOrFirst (listed : List α) (selected : Option α) : Option α :=
  if ∃ x ∈ listed, selected = some x then selected else listed.head?

theorem keepOrFirst_of_mem (hx : x ∈ listed) (h : selected = some x) :
    keepOrFirst listed selected = some x := by
  rw [keepOrFirst, if_pos ⟨x, hx, h⟩, h]

theorem keepOrFirst_of_forall (h : ∀ x ∈ listed, selected ≠ some x) :
    keepOrFirst listed selected = listed.head? := by
  apply if_neg
  rintro ⟨x, hx, hs⟩
  exact h x hx hs

/-- From a list that is not empty, something on it is selected. -/
theorem exists_keepOrFirst (h : listed ≠ []) (selected : Option α) :
    ∃ x ∈ listed, keepOrFirst listed selected = some x := by
  by_cases hs : ∃ x ∈ listed, selected = some x
  · obtain ⟨x, hx, hs⟩ := hs
    exact ⟨x, hx, keepOrFirst_of_mem hx hs⟩
  · refine ⟨listed.head h, List.head_mem h, ?_⟩
    rw [keepOrFirst, if_neg hs]
    exact List.head?_eq_some_head h

end

namespace Terminal

variable {native : ℤ} {t : Terminal} {groupInfos : List GroupEntry}

/-- No number of the list is blank. -/
def AllNumbered (groupInfos : List GroupEntry) : Prop :=
  ∀ g ∈ groupInfos, isStrBlank (some g.number) = false

instance (groupInfos : List GroupEntry) : Decidable (AllNumbered groupInfos) :=
  inferInstanceAs (Decidable (∀ g ∈ groupInfos, isStrBlank (some g.number) = false))

/-! ### The selection with a list -/

theorem getCurrentGroupInfo_of_mem {g : GroupEntry} (hg : g ∈ t.lstGroupData)
    (hn : t.currGrpNum = some g.number) (hb : isStrBlank (some g.number) = false) :
    ∃ g', t.getCurrentGroupInfo = some g' ∧ g'.number = g.number := by
  have hsome : (t.lstGroupData.find? fun g => some g.number = t.currGrpNum).isSome = true := by
    rw [List.find?_isSome]
    exact ⟨g, hg, by simp [hn]⟩
  obtain ⟨g', hg'⟩ := Option.isSome_iff_exists.mp hsome
  refine ⟨g', ?_, ?_⟩
  · rw [getCurrentGroupInfo, if_neg (by simp [hn, hb])]
    exact hg'
  · have hnumber : some g'.number = t.currGrpNum := by simpa using List.find?_some hg'
    rw [hn] at hnumber
    exact Option.some.inj hnumber

theorem getCurrentGroupInfo_of_forall (h : ∀ g ∈ t.lstGroupData, t.currGrpNum ≠ some g.number) :
    t.getCurrentGroupInfo = none := by
  unfold getCurrentGroupInfo
  split
  · rfl
  · rw [List.find?_eq_none]
    intro g hg
    simpa using (h g hg).symm

/-- The list and the selection that the method stores are those of a selection that stays. -/
theorem addGroups_currGrpNum (h : AllNumbered groupInfos) (t : Terminal) :
    (t.addGroups groupInfos).currGrpNum =
      some ((keepOrFirst (groupInfos.map GroupEntry.number) t.currGrpNum).getD []) := by
  cases groupInfos with
  | nil => simp [addGroups, keepOrFirst]
  | cons first gs =>
    set t₁ : Terminal := { t with lstGroupData := first :: gs } with ht₁
    by_cases hs : ∃ g ∈ first :: gs, t.currGrpNum = some g.number
    · obtain ⟨g, hg, hn⟩ := hs
      obtain ⟨g', hinfo, hnumber⟩ := getCurrentGroupInfo_of_mem (t := t₁) hg hn (h g hg)
      have hlisted : isDeleted g'.number (first :: gs) = false := by
        rw [hnumber, isDeleted, List.all_eq_false]
        exact ⟨g, hg, by simp⟩
      rw [keepOrFirst_of_mem (List.mem_map_of_mem hg) hn]
      simp only [addGroups, List.head?_cons, ← ht₁, hinfo, hlisted]
      exact hn
    · push Not at hs
      have hinfo : t₁.getCurrentGroupInfo = none := getCurrentGroupInfo_of_forall hs
      have hfirst : keepOrFirst ((first :: gs).map GroupEntry.number) t.currGrpNum =
          some first.number := by
        apply keepOrFirst_of_forall
        intro n hn
        obtain ⟨g, hg, rfl⟩ := List.mem_map.mp hn
        exact hs g hg
      rw [hfirst]
      simp only [addGroups, List.head?_cons, ← ht₁, hinfo]
      rfl

theorem regroup_groups (groupInfos : List GroupEntry) (t : Terminal) :
    (t.regroup groupInfos).lstGroupData = t.lstGroupData ∧
      (t.regroup groupInfos).currGrpNum = t.currGrpNum := by
  have hleave : (regroup.leave t).lstGroupData = t.lstGroupData ∧
      (regroup.leave t).currGrpNum = t.currGrpNum := by
    have hdata := groupData_hangupPttCall t
    unfold regroup.leave
    split
    · exact ⟨congrArg Prod.fst hdata, congrArg (fun d => d.2.1) hdata⟩
    · exact ⟨rfl, rfl⟩
  unfold regroup
  split
  · exact ⟨rfl, rfl⟩
  · split
    · exact ⟨rfl, rfl⟩
    · split
      · exact hleave
      · split
        · exact ⟨rfl, rfl⟩
        · split
          · exact hleave
          · exact ⟨rfl, rfl⟩

/-- The rest of the method leaves the list and the selection. -/
theorem jniAddGroupInfo_groups (native : ℤ) (groupInfos : List GroupEntry) (t : Terminal) :
    (t.jniAddGroupInfo native groupInfos).lstGroupData = groupInfos ∧
      (t.jniAddGroupInfo native groupInfos).currGrpNum = (t.addGroups groupInfos).currGrpNum := by
  have hresume := groupData_resumeApply native (t.addGroups groupInfos)
  obtain ⟨hlist, hselected⟩ := regroup_groups groupInfos ((t.addGroups groupInfos).resumeApply native)
  constructor
  · obtain ⟨n, hn⟩ := addGroups_eq groupInfos t
    refine hlist.trans ((congrArg Prod.fst hresume).trans ?_)
    rw [hn]
    rfl
  · exact hselected.trans (congrArg (fun d => d.2.1) hresume)

/-- What `JNIAddGroupInfo` promises of the selection. -/
structure SelectsGroup (groupInfos : List GroupEntry) (t t' : Terminal) : Prop where
  empty : groupInfos = [] → t'.currGrpNum = some []
  listed : groupInfos ≠ [] → ∃ g ∈ groupInfos, t'.currGrpNum = some g.number
  kept : ∀ g ∈ groupInfos, t.currGrpNum = some g.number → t'.currGrpNum = some g.number
  first : groupInfos ≠ [] → (∀ g ∈ groupInfos, t.currGrpNum ≠ some g.number) →
    t'.currGrpNum = groupInfos.head?.map GroupEntry.number
  info : t'.getCurrentGroupInfo = groupInfos.find? fun g => some g.number = t'.currGrpNum

theorem selectsGroup_of_keepOrFirst {t' : Terminal} (h : AllNumbered groupInfos)
    (hlist : t'.lstGroupData = groupInfos)
    (hn : t'.currGrpNum = some ((keepOrFirst (groupInfos.map GroupEntry.number) t.currGrpNum).getD [])) :
    SelectsGroup groupInfos t t' := by
  have hlisted : groupInfos ≠ [] → ∃ g ∈ groupInfos, t'.currGrpNum = some g.number := by
    intro hne
    obtain ⟨n, hmem, hkept⟩ := exists_keepOrFirst (mt List.map_eq_nil_iff.mp hne) t.currGrpNum
    obtain ⟨g, hg, rfl⟩ := List.mem_map.mp hmem
    exact ⟨g, hg, by rw [hn, hkept]; rfl⟩
  constructor
  case empty =>
    intro he
    simp [hn, he, keepOrFirst]
  case listed => exact hlisted
  case kept =>
    intro g hg hs
    rw [hn, keepOrFirst_of_mem (List.mem_map_of_mem hg) hs]
    rfl
  case first =>
    intro hne hs
    have hfirst : keepOrFirst (groupInfos.map GroupEntry.number) t.currGrpNum =
        (groupInfos.map GroupEntry.number).head? := by
      apply keepOrFirst_of_forall
      simpa using hs
    obtain ⟨first, gs, rfl⟩ := List.exists_cons_of_ne_nil hne
    rw [hn, hfirst]
    rfl
  case info =>
    unfold getCurrentGroupInfo
    rw [hlist]
    by_cases hne : groupInfos = []
    · subst hne
      simp
    · obtain ⟨g, hg, hs⟩ := hlisted hne
      apply if_neg
      rw [hs, h g hg]
      simp

end Terminal

/-! ### Runs -/

open Terminal

/-- The arrays hold numbers that are not blank. -/
def GroupEvent.numbered : GroupEvent → Prop
  | .addGroupInfo _ groupInfos => AllNumbered (groupInfos.getD [])
  | _ => True

instance : (e : GroupEvent) → Decidable e.numbered
  | .addGroupInfo _ groupInfos => inferInstanceAs (Decidable (AllNumbered (groupInfos.getD [])))
  | .receiveMemberInfo _ _ | .requestFreshView | .clearNumMemberMap | .clear | .sortMembers _ _
  | .terminal _ => isTrue trivial

theorem jniAddGroupInfo_selects {groupInfos : Option (List GroupEntry)}
    (h : AllNumbered (groupInfos.getD [])) (native : ℤ) (s : GroupService) :
    SelectsGroup (groupInfos.getD []) s.terminal
      (s.jniAddGroupInfo native groupInfos).service.terminal := by
  rw [GroupService.jniAddGroupInfo_terminal]
  obtain ⟨hlist, hselected⟩ := jniAddGroupInfo_groups native (groupInfos.getD []) s.terminal
  exact selectsGroup_of_keepOrFirst h hlist (hselected.trans (addGroups_currGrpNum h _))

/-- The first array takes the place of an old selection, the user selects the second group, which is
kept while the list changes around it, and then the groups end. -/
def selectionRun : List GroupEvent :=
  [.addGroupInfo 0 (some [⟨ascii "day", ascii "8001", 1⟩, ⟨ascii "night", ascii "8002", 1⟩]),
    .terminal (.setCurrentGrp (ascii "8002")),
    .addGroupInfo 0 (some [⟨ascii "late", ascii "8003", 1⟩, ⟨ascii "night", ascii "8002", 2⟩]),
    .addGroupInfo 0 none]

/-- After every array of a run, the selection is the empty text without groups, stays if it is in the
array, and else is the first group; and the group of that number is found. -/
theorem runs_selectedGroup {start : GroupService → Prop} {s : GroupService} {es : List GroupEvent}
    (hes : (groupManager start).Allowed (fun _ e => e.numbered) s es) :
    ∀ es' native groupInfos, es' ++ [.addGroupInfo native groupInfos] <+: es →
      SelectsGroup (groupInfos.getD []) ((groupManager start).run s es').terminal
        ((groupManager start).run s (es' ++ [.addGroupInfo native groupInfos])).terminal := by
  rintro es' native groupInfos ⟨rest, rfl⟩
  obtain ⟨-, -, hnumbered, -⟩ := System.allowed_append.mp (System.allowed_append.mp hes).1
  rw [System.run_append]
  exact jniAddGroupInfo_selects hnumbered native _

theorem selected_along_run : SelectsGroup
    [⟨ascii "late", ascii "8003", 1⟩, ⟨ascii "night", ascii "8002", 2⟩]
    ((groupManager fun _ => True).run {} (selectionRun.take 2)).terminal
    ((groupManager fun _ => True).run {} (selectionRun.take 3)).terminal := by
  have hes : (groupManager fun _ => True).Allowed (fun _ e => e.numbered) {} selectionRun := by
    decide +kernel
  exact runs_selectedGroup hes (selectionRun.take 2) 0
    (some [⟨ascii "late", ascii "8003", 1⟩, ⟨ascii "night", ascii "8002", 2⟩])
    ⟨[.addGroupInfo 0 none], by decide⟩

/-! ### Between two lists -/

/-- The selection is on the list, or both are empty. -/
def Terminal.Listed (t : Terminal) : Prop :=
  (t.lstGroupData = [] ∧ t.currGrpNum = some []) ∨ ∃ g ∈ t.lstGroupData, t.currGrpNum = some g.number

theorem Terminal.Listed.of_groupData {t t' : Terminal} (h : t.Listed)
    (hlist : t'.lstGroupData = t.lstGroupData) (hselected : t'.currGrpNum = t.currGrpNum) :
    t'.Listed := by
  unfold Terminal.Listed
  rw [hlist, hselected]
  exact h

theorem Terminal.SelectsGroup.toListed {t t' : Terminal} {groupInfos : List GroupEntry}
    (h : SelectsGroup groupInfos t t') (hlist : t'.lstGroupData = groupInfos) : t'.Listed := by
  by_cases hne : groupInfos = []
  · exact .inl ⟨hlist.trans hne, h.empty hne⟩
  · obtain ⟨g, hg, hs⟩ := h.listed hne
    exact .inr ⟨g, hlist ▸ hg, hs⟩

theorem Terminal.Listed.handle {s : GroupService} (h : s.terminal.Listed) {e : Event}
    (he : (GroupEvent.terminal e).enabled s = true) : (e.handle s.terminal).Listed := by
  cases hleaves : leavesGroups e with
  | true =>
    have hdata := groupData_handle hleaves s.terminal
    exact h.of_groupData (congrArg Prod.fst hdata) (congrArg (fun d => d.2.1) hdata)
  | false =>
    cases e with
    | receiveGroupInfo native gs => cases he
    | receiveMessage number =>
      obtain ⟨hlist, hselected⟩ := groups_jniReceiveMessage number s.terminal
      exact h.of_groupData hlist hselected
    | setCurrentGrp n =>
      obtain ⟨g, hg, hn⟩ := List.any_eq_true.mp he
      exact .inr ⟨g, hg, congrArg some (of_decide_eq_true hn).symm⟩
    | _ => cases hleaves

/-- Until the groups are cleared, the selection stays on the list. -/
theorem reached_listed {s : GroupService}
    (h : (groupManager fun s => s.terminal.Listed).Reached (fun _ e => e.numbered ∧ e ≠ .clear) s) :
    s.terminal.Listed := by
  refine h.invariant (P := fun s => s.terminal.Listed) (fun s hs => hs) ?_
  rintro s e hs he ⟨hnumbered, hclear⟩
  cases e with
  | addGroupInfo native groupInfos =>
    have hlist : (s.jniAddGroupInfo native groupInfos).service.terminal.lstGroupData =
        groupInfos.getD [] := by
      rw [GroupService.jniAddGroupInfo_terminal]
      exact (jniAddGroupInfo_groups native _ _).1
    exact (jniAddGroupInfo_selects hnumbered native s).toListed hlist
  | clear => exact absurd rfl hclear
  | terminal e => exact hs.handle he
  | _ => exact hs

end PttTerminal
