import Mathlib.Data.List.Sort
import PttTerminal.GroupSelection

/-!
# The view of the groups

`freshView` replaces four arrays and fills them from the list of groups and the map of members. Two
are as long as the list and two as the map has entries, and an exception ends the method where it
stands. So the rows fit the groups when there is an entry for each group and no other, or when one of
the two collections is empty and a blank row is shown.
-/
namespace PttTerminal

open Runs

/-! ### Sorting -/

/-- `MemberInfo.compareTo`, a difference of two `int`s. -/
def MemberEntry.compareTo (m another : MemberEntry) : ℤ := (another.state - m.state).bmod (2 ^ 32)

/-- `Arrays.sort`: the array afterwards, and whether it returned. It may throw where the comparison
contradicts itself, and sorts stably where no difference overflows. -/
structure ArraySort where
  sort : List MemberEntry → List MemberEntry × Bool
  perm : ∀ ms, (sort ms).2 = true → (sort ms).1.Perm ms
  sorts : ∀ ms, (∀ a ∈ ms, ∀ b ∈ ms, a.compareTo b = b.state - a.state) →
    sort ms = (ms.insertionSort fun a b => a.compareTo b ≤ 0, true)

/-- A sort that never looks for a contradiction. -/
def ArraySort.stable : ArraySort where
  sort ms := (ms.insertionSort fun a b => a.compareTo b ≤ 0, true)
  perm ms _ := ms.perm_insertionSort _
  sorts _ _ := rfl

/-! ### `GroupActivity` -/

/-- The arrays and maps of the activity. An element of `memberInfos` is the array that the map of the
manager has under a number. -/
structure GroupView where
  groups : List (Option Bytes) := [some []]
  groupString : List (Option Bytes) := [some []]
  memberInfos : List (Option Bytes) := []
  memberInfoString : List (Option (List Bytes)) := [some [[]]]
  groupStatusMap : AList (fun _ : Bytes => ℤ) := ∅
  groupNameMap : AList (fun _ : Bytes => Bytes) := ∅

/-- `number--(name)`. -/
def GroupEntry.text (g : GroupEntry) : Bytes := g.number ++ ascii "--(" ++ g.name ++ ascii ")"

/-- The method under way: the view, the map whose arrays it sorts, and whether an exception was
thrown. -/
structure Refresh where
  view : GroupView
  groupInfoMap : MemberMap
  thrown : Bool := false

namespace Refresh

/-- A turn of the first loop. -/
def fillGroup (A : ArraySort) (i : ℕ) (group : GroupEntry) (r : Refresh) : Refresh :=
  let view := { r.view with
    groupString := r.view.groupString.set i (some group.text)
    groups := r.view.groups.set i (some group.number) }
  if view.memberInfos.length ≤ i then { r with view := view, thrown := true }
  else match r.groupInfoMap.lookup group.number with
    | none =>
      { r with view := { view with memberInfos := view.memberInfos.set i none }, thrown := true }
    | some members => {
        view := { view with memberInfos := view.memberInfos.set i (some group.number) }
        groupInfoMap := r.groupInfoMap.insert group.number (A.sort members).1
        thrown := !(A.sort members).2 }

def fillGroups (A : ArraySort) : ℕ → List GroupEntry → Refresh → Refresh
  | _, [], r => r
  | i, group :: groups, r =>
    let r := r.fillGroup A i group
    if r.thrown then r else fillGroups A (i + 1) groups r

/-- A turn of the second loop. -/
def fillMembers (i : ℕ) (r : Refresh) : Refresh :=
  match (r.view.memberInfos.getD i none).bind fun n => r.groupInfoMap.lookup n with
  | none => { r with thrown := true }
  | some members => { r with view := { r.view with
      memberInfoString := r.view.memberInfoString.set i (some (members.map MemberEntry.number))
      groupStatusMap := members.foldl (fun m e => m.insert e.number e.state) r.view.groupStatusMap
      groupNameMap := members.foldl (fun m e => m.insert e.number e.name) r.view.groupNameMap } }

/-- `rows` turns are left. -/
def fillRows : (rows i : ℕ) → Refresh → Refresh
  | 0, _, r => r
  | rows + 1, i, r =>
    let r := r.fillMembers i
    if r.thrown then r else fillRows rows (i + 1) r

end Refresh

namespace GroupView

/-- Two of the new arrays are as long as the list, and two as the map has entries. -/
def startRefresh (s : GroupService) (v : GroupView) : Refresh where
  view := { v with
    groups := .replicate s.lstGroupData.length none
    groupString := .replicate s.lstGroupData.length none
    memberInfos := .replicate s.groupNumMebersMap.size none
    memberInfoString := .replicate s.groupNumMebersMap.size none }
  groupInfoMap := s.groupNumMebersMap

/-- The view and the service after `GroupActivity.freshView`. -/
def freshView (A : ArraySort) (s : GroupService) (v : GroupView) : GroupView × GroupService :=
  if s.lstGroupData.length > 0 ∧ s.groupNumMebersMap.size > 0 then
    let r := (v.startRefresh s).fillGroups A 0 s.lstGroupData
    let r := if r.thrown then r else r.fillRows s.groupNumMebersMap.size 0
    (r.view, { s with groupNumMebersMap := r.groupInfoMap })
  else ({ v with groupString := [some []], memberInfoString := [some [[]]] }, s)

end GroupView

/-! ### `MyExpandableListAdapter` -/

namespace GroupView

variable (v : GroupView)

def getGroupCount : ℕ := v.groupString.length

/-- Nothing, where the index is out of range or null is read; and so below. -/
def getGroup (groupPosition : ℕ) : Option Bytes := (v.groupString[groupPosition]?).join

def getChildren (groupPosition : ℕ) : Option (List Bytes) :=
  (v.memberInfoString[groupPosition]?).join

def getChildrenCount (groupPosition : ℕ) : Option ℕ := (v.getChildren groupPosition).map List.length

def getChild (groupPosition childPosition : ℕ) : Option Bytes :=
  (v.getChildren groupPosition).bind fun row => row[childPosition]?

/-- The text of a member, and its status; a blank child has none. -/
def getChildView (groupPosition childPosition : ℕ) : Option (Bytes × Option ℤ) :=
  (v.getChild groupPosition childPosition).bind fun mebNum =>
    if mebNum.isEmpty then some ([], none)
    else (v.groupStatusMap.lookup mebNum).map fun mebStatus =>
      let mebName := (v.groupNameMap.lookup mebNum).getD (ascii "null")
      (mebNum ++ ascii "--(" ++ mebName ++ ascii ")", some mebStatus)

end GroupView

/-! ### What the loops do -/

/-- The arrays of the numbers are sorted one after the other, unless a number has none or a sort
throws. -/
def sortArrays (A : ArraySort) : List Bytes → MemberMap → Option MemberMap
  | [], m => some m
  | n :: ns, m => (m.lookup n).bind fun members =>
    if (A.sort members).2 then sortArrays A ns (m.insert n (A.sort members).1) else none

section
variable {A : ArraySort} {m m' : MemberMap} {n : Bytes} {ns : List Bytes}

theorem sortArrays_cons (h : sortArrays A (n :: ns) m = some m') : ∃ members,
    m.lookup n = some members ∧ (A.sort members).2 = true ∧
      sortArrays A ns (m.insert n (A.sort members).1) = some m' := by
  obtain ⟨members, hlookup, hsort⟩ := Option.bind_eq_some_iff.mp h
  refine ⟨members, hlookup, ?_⟩
  split_ifs at hsort with hreturned
  exact ⟨hreturned, hsort⟩

/-- Sorting keeps the numbers that have an entry. -/
theorem sortArrays_mem (h : sortArrays A ns m = some m') (n : Bytes) : n ∈ m' ↔ n ∈ m := by
  induction ns generalizing m with
  | nil =>
    cases h
    rfl
  | cons k ns ih =>
    obtain ⟨members, hlookup, -, hrest⟩ := sortArrays_cons h
    have hk : k ∈ m := AList.lookup_isSome.mp (by simp [hlookup])
    rw [ih hrest, AList.mem_insert]
    constructor
    · rintro (rfl | hn)
      · exact hk
      · exact hn
    · exact .inr

/-- Each number has an entry. -/
theorem mem_of_sortArrays (h : sortArrays A ns m = some m') : ∀ n ∈ ns, n ∈ m := by
  induction ns generalizing m with
  | nil => simp
  | cons k ns ih =>
    obtain ⟨members, hlookup, -, hrest⟩ := sortArrays_cons h
    have hk : k ∈ m := AList.lookup_isSome.mp (by simp [hlookup])
    intro n hn
    obtain rfl | hn := List.mem_cons.mp hn
    · exact hk
    · obtain rfl | hn := (AList.mem_insert _).mp (ih hrest n hn)
      · exact hk
      · exact hn

/-- Where every sort returns, it takes an entry for each number. -/
theorem sortArrays_isSome (hA : ∀ ms, (A.sort ms).2 = true) :
    (sortArrays A ns m).isSome = true ↔ ∀ n ∈ ns, n ∈ m := by
  constructor
  · intro h
    obtain ⟨m', hm'⟩ := Option.isSome_iff_exists.mp h
    exact mem_of_sortArrays hm'
  · intro h
    induction ns generalizing m with
    | nil => rfl
    | cons k ns ih =>
      obtain ⟨members, hlookup⟩ := Option.isSome_iff_exists.mp
        (AList.lookup_isSome.mpr (h k List.mem_cons_self))
      simp only [sortArrays, hlookup, Option.bind_some, hA members, if_true]
      apply ih
      intro n hn
      exact (AList.mem_insert _).mpr (.inr (h n (List.mem_cons_of_mem k hn)))

end

namespace Refresh

variable {A : ArraySort} {r : Refresh}

theorem set_at_end {α : Type*} (done rest : List α) (x y : α) :
    (done ++ x :: rest).set done.length y = (done ++ [y]) ++ rest := by
  simp

/-- The first loop fills the texts and the arrays of its groups when it is not left. -/
theorem fillGroups_done {gs : List GroupEntry} {m : MemberMap} (texts arrays : List (Option Bytes))
    (rest : ℕ) (hsort : sortArrays A (gs.map GroupEntry.number)
      r.groupInfoMap = some m) (harrays : arrays.length = texts.length)
    (hs : r.view.groupString = texts ++ .replicate gs.length none)
    (hm : r.view.memberInfos = arrays ++ .replicate (gs.length + rest) none)
    (ht : r.thrown = false) :
    ∃ groups, r.fillGroups A texts.length gs = { r with
      view := { r.view with
        groups := groups
        groupString := texts ++ gs.map fun g => some g.text
        memberInfos := arrays ++ (gs.map fun g => some g.number) ++ .replicate rest none }
      groupInfoMap := m } := by
  induction gs generalizing r texts arrays with
  | nil =>
    cases hsort
    refine ⟨r.view.groups, ?_⟩
    have hs' : r.view.groupString = texts ++ [] := hs
    have hm' : r.view.memberInfos = arrays ++ [] ++ .replicate rest none := by simpa using hm
    rw [fillGroups, List.map_nil, List.map_nil, ← hs', ← hm']
  | cons g gs ih =>
    obtain ⟨members, hlookup, hreturned, hrest⟩ := sortArrays_cons hsort
    have hlength : ¬r.view.memberInfos.length ≤ texts.length := by
      rw [hm, List.length_append, List.length_replicate, List.length_cons]
      omega
    have hs' : r.view.groupString.set texts.length (some g.text) =
        (texts ++ [some g.text]) ++ .replicate gs.length none := by
      rw [hs, List.length_cons, List.replicate_succ, set_at_end]
    have hm' : r.view.memberInfos.set texts.length (some g.number) =
        (arrays ++ [some g.number]) ++ .replicate (gs.length + rest) none := by
      rw [hm, List.length_cons, Nat.add_right_comm, List.replicate_succ, ← harrays, set_at_end]
    have hturn : r.fillGroup A texts.length g = {
        view := { r.view with
          groupString := r.view.groupString.set texts.length (some g.text)
          groups := r.view.groups.set texts.length (some g.number)
          memberInfos := r.view.memberInfos.set texts.length (some g.number) }
        groupInfoMap := r.groupInfoMap.insert g.number (A.sort members).1
        thrown := false } := by
      simp only [fillGroup, hlength, if_false, hlookup, hreturned, Bool.not_true]
    obtain ⟨groups, hdone⟩ := ih (r := r.fillGroup A texts.length g)
      (texts ++ [some g.text]) (arrays ++ [some g.number]) (by rw [hturn]; exact hrest)
      (by simp [harrays]) (by rw [hturn]; exact hs') (by rw [hturn]; exact hm') (by rw [hturn])
    refine ⟨groups, ?_⟩
    have hthrown : (r.fillGroup A texts.length g).thrown = false := by rw [hturn]
    have hnext : texts.length + 1 = (texts ++ [some g.text]).length := by simp
    rw [fillGroups]
    simp only [hthrown, Bool.false_eq_true, if_false]
    rw [hnext, hdone, hturn]
    simp [ht]

theorem fillGroup_lengths (A : ArraySort) (i : ℕ) (g : GroupEntry) (r : Refresh) :
    (r.fillGroup A i g).view.memberInfos.length = r.view.memberInfos.length ∧
      (r.fillGroup A i g).view.memberInfoString = r.view.memberInfoString := by
  unfold fillGroup
  dsimp only
  split
  · exact ⟨rfl, rfl⟩
  · split
    · exact ⟨List.length_set, rfl⟩
    · exact ⟨List.length_set, rfl⟩

/-- The first loop does not touch the rows. -/
theorem fillGroups_rows (A : ArraySort) (i : ℕ) (gs : List GroupEntry) (r : Refresh) :
    (r.fillGroups A i gs).view.memberInfoString = r.view.memberInfoString := by
  induction gs generalizing i r with
  | nil => rfl
  | cons g gs ih =>
    have hturn := (fillGroup_lengths A i g r).2
    rw [fillGroups]
    split
    · exact hturn
    · exact (ih (i + 1) _).trans hturn

/-- It is left by an exception when the arrays are too few or cannot be sorted. -/
theorem fillGroups_thrown {i : ℕ} {gs : List GroupEntry} (hi : i ≤ r.view.memberInfos.length)
    (h : ¬(i + gs.length ≤ r.view.memberInfos.length ∧
      (sortArrays A (gs.map GroupEntry.number) r.groupInfoMap).isSome = true)) :
    (r.fillGroups A i gs).thrown = true := by
  induction gs generalizing i r with
  | nil => exact absurd ⟨hi, rfl⟩ h
  | cons g gs ih =>
    rw [fillGroups]
    split
    next hthrown => exact hthrown
    next hthrown =>
      by_cases hroom : r.view.memberInfos.length ≤ i
      · exact absurd (by simp [fillGroup, hroom]) hthrown
      · cases hlookup : r.groupInfoMap.lookup g.number with
        | none => exact absurd (by simp [fillGroup, hroom, hlookup]) hthrown
        | some members =>
          have hreturned : (A.sort members).2 = true := by
            simpa [fillGroup, hroom, hlookup] using hthrown
          have hmap : (r.fillGroup A i g).groupInfoMap =
              r.groupInfoMap.insert g.number (A.sort members).1 := by
            simp [fillGroup, hroom, hlookup]
          have hlength := (fillGroup_lengths A i g r).1
          apply ih
          · omega
          · rintro ⟨hle, hsorted⟩
            rw [hmap] at hsorted
            refine h ⟨?_, ?_⟩
            · rw [List.length_cons]
              omega
            · simpa [sortArrays, hlookup, hreturned] using hsorted

/-! The second loop -/

/-- The row of a number. -/
def row (m : MemberMap) (n : Bytes) : Option (List Bytes) :=
  (m.lookup n).map fun members => members.map MemberEntry.number

theorem fillMembers_frame (i : ℕ) (r : Refresh) :
    (r.fillMembers i).view.groupString = r.view.groupString ∧
      (r.fillMembers i).groupInfoMap = r.groupInfoMap ∧
      (r.fillMembers i).view.memberInfoString.length = r.view.memberInfoString.length := by
  unfold fillMembers
  split
  · exact ⟨rfl, rfl, rfl⟩
  · exact ⟨rfl, rfl, List.length_set⟩

theorem fillRows_frame (rows i : ℕ) (r : Refresh) :
    (r.fillRows rows i).view.groupString = r.view.groupString ∧
      (r.fillRows rows i).groupInfoMap = r.groupInfoMap ∧
      (r.fillRows rows i).view.memberInfoString.length = r.view.memberInfoString.length := by
  induction rows generalizing i r with
  | zero => exact ⟨rfl, rfl, rfl⟩
  | succ rows ih =>
    obtain ⟨hs, hm, hl⟩ := fillMembers_frame i r
    rw [fillRows]
    split
    · exact ⟨hs, hm, hl⟩
    · obtain ⟨hs', hm', hl'⟩ := ih (i + 1) (r.fillMembers i)
      exact ⟨hs'.trans hs, hm'.trans hm, hl'.trans hl⟩

/-- The second loop fills the rows of its arrays when each of them is in the map. -/
theorem fillRows_done {ns : List Bytes} (arrays : List (Option Bytes))
    (rows : List (Option (List Bytes))) (hmem : ∀ n ∈ ns, n ∈ r.groupInfoMap)
    (hlength : arrays.length = rows.length) (hm : r.view.memberInfos = arrays ++ ns.map some)
    (hrows : r.view.memberInfoString = rows ++ .replicate ns.length none) (ht : r.thrown = false) :
    (r.fillRows ns.length rows.length).view.memberInfoString =
      rows ++ ns.map (row r.groupInfoMap) := by
  induction ns generalizing r arrays rows with
  | nil =>
    rw [List.length_nil, fillRows, hrows]
    rfl
  | cons n ns ih =>
    obtain ⟨members, hlookup⟩ := Option.isSome_iff_exists.mp
      (AList.lookup_isSome.mpr (hmem n List.mem_cons_self))
    have harray : r.view.memberInfos.getD rows.length none = some n := by
      rw [hm, ← hlength]
      simp
    have hrow : row r.groupInfoMap n = some (members.map MemberEntry.number) := by
      rw [row, hlookup]
      rfl
    have hrows' : r.view.memberInfoString.set rows.length (some (members.map MemberEntry.number)) =
        (rows ++ [row r.groupInfoMap n]) ++ .replicate ns.length none := by
      rw [hrows, List.length_cons, List.replicate_succ, set_at_end, hrow]
    obtain ⟨-, hmap, -⟩ := fillMembers_frame rows.length r
    have hturn : (r.fillMembers rows.length).view.memberInfos = r.view.memberInfos ∧
        (r.fillMembers rows.length).view.memberInfoString =
          r.view.memberInfoString.set rows.length (some (members.map MemberEntry.number)) ∧
        (r.fillMembers rows.length).thrown = false := by
      unfold fillMembers
      rw [harray, Option.bind_some, hlookup]
      exact ⟨rfl, rfl, ht⟩
    obtain ⟨hinfos, hstring, hthrown⟩ := hturn
    have hnext := ih (r := r.fillMembers rows.length) (arrays ++ [some n])
      (rows ++ [row r.groupInfoMap n])
      (fun k hk => hmap ▸ hmem k (List.mem_cons_of_mem n hk)) (by simp [hlength])
      (by rw [hinfos, hm]; simp) (hstring.trans hrows') hthrown
    have hsucc : rows.length + 1 = (rows ++ [row r.groupInfoMap n]).length := by simp
    rw [List.length_cons, fillRows]
    simp only [hthrown, Bool.false_eq_true, if_false]
    rw [hsucc, hnext, hmap]
    simp

/-! The status of each member that is shown -/

/-- The members of the rows have a status, unless their number is empty. -/
def KnownRows (v : GroupView) : Prop :=
  ∀ row, some row ∈ v.memberInfoString → ∀ n ∈ row, n = [] ∨ n ∈ v.groupStatusMap

theorem mem_foldl_insert (members : List MemberEntry) (m : AList fun _ : Bytes => ℤ) (n : Bytes) :
    n ∈ members.foldl (fun m e => m.insert e.number e.state) m ↔
      n ∈ m ∨ n ∈ members.map MemberEntry.number := by
  induction members generalizing m with
  | nil => simp
  | cons e members ih =>
    rw [List.foldl_cons, ih, AList.mem_insert, List.map_cons, List.mem_cons]
    tauto

theorem KnownRows.fillMembers (h : KnownRows r.view) (i : ℕ) : KnownRows (r.fillMembers i).view := by
  unfold Refresh.fillMembers
  split
  · exact h
  next members _ =>
    intro row hrow n hn
    obtain hrow | hrow := List.mem_or_eq_of_mem_set hrow
    · obtain hempty | hknown := h row hrow n hn
      · exact .inl hempty
      · exact .inr ((mem_foldl_insert members _ n).mpr (.inl hknown))
    · cases hrow
      exact .inr ((mem_foldl_insert members _ n).mpr (.inr hn))

theorem KnownRows.fillRows (h : KnownRows r.view) (rows i : ℕ) :
    KnownRows (r.fillRows rows i).view := by
  induction rows generalizing i r with
  | zero => exact h
  | succ rows ih =>
    rw [Refresh.fillRows]
    split
    · exact h.fillMembers i
    · exact ih (h.fillMembers i) (i + 1)

end Refresh

/-! ### Consistent views -/

open Refresh

/-- At a position of the list there is a group with this text and these numbers of members. -/
def GroupService.Shows (s : GroupService) (i : ℕ) (text : Bytes) (row : List Bytes) : Prop :=
  ∃ g members, s.lstGroupData[i]? = some g ∧ text = g.text ∧
    s.groupNumMebersMap.lookup g.number = some members ∧ row = members.map MemberEntry.number

namespace GroupView

/-- No index that the adapter takes from its counts is out of range, and nothing it reads is null. -/
def AdapterSafe (v : GroupView) : Prop :=
  ∀ i < v.getGroupCount, (v.getGroup i).isSome = true ∧ ∃ count, v.getChildrenCount i = some count ∧
    ∀ j < count, (v.getChildView i j).isSome = true

/-- What the view shows of the service: there are as many rows as texts, no row is null, and each
position shows a group and its members, or a blank row. -/
structure Consistent (v : GroupView) (s : GroupService) : Prop where
  length : v.groupString.length = v.memberInfoString.length
  rows : none ∉ v.memberInfoString
  members : ∀ i < v.groupString.length, ∃ text row, v.groupString[i]? = some (some text) ∧
    v.memberInfoString[i]? = some (some row) ∧ (text = [] ∧ row = [[]] ∨ s.Shows i text row)
  adapter : v.AdapterSafe

variable {v : GroupView} {s : GroupService} {A : ArraySort}

theorem adapterSafe_of_rows (h : ∀ i < v.groupString.length, ∃ text row,
      v.groupString[i]? = some (some text) ∧ v.memberInfoString[i]? = some (some row))
    (hknown : KnownRows v) : v.AdapterSafe := by
  intro i hi
  obtain ⟨text, row, htext, hrow⟩ := h i hi
  have hchildren : v.getChildren i = some row := by rw [getChildren, hrow]; rfl
  refine ⟨by rw [getGroup, htext]; rfl, row.length, by rw [getChildrenCount, hchildren]; rfl, ?_⟩
  intro j hj
  have hchild : v.getChild i j = some row[j] := by
    rw [getChild, hchildren, Option.bind_some, List.getElem?_eq_getElem hj]
  unfold getChildView
  rw [hchild, Option.bind_some]
  split
  · rfl
  next hempty =>
    have hmem : row[j] ∈ v.groupStatusMap := by
      obtain he | hmem := hknown row (List.mem_of_getElem? hrow) _ (List.getElem_mem hj)
      · exact absurd (by simp [he]) hempty
      · exact hmem
    rw [Option.isSome_map]
    exact AList.lookup_isSome.mpr hmem

/-- The one blank row of an empty view. -/
theorem consistent_blank (hs : v.groupString = [some []]) (hr : v.memberInfoString = [some [[]]])
    (s : GroupService) : v.Consistent s := by
  have hrows : ∀ i < v.groupString.length, v.groupString[i]? = some (some []) ∧
      v.memberInfoString[i]? = some (some [[]]) := by
    intro i hi
    obtain rfl : i = 0 := by simpa [hs] using hi
    rw [hs, hr]
    exact ⟨rfl, rfl⟩
  refine ⟨by rw [hs, hr]; rfl, by simp [hr], fun i hi => ?_, adapterSafe_of_rows (fun i hi => ?_) ?_⟩
  · obtain ⟨htext, hrow⟩ := hrows i hi
    exact ⟨[], [[]], htext, hrow, .inl ⟨rfl, rfl⟩⟩
  · obtain ⟨htext, hrow⟩ := hrows i hi
    exact ⟨[], [[]], htext, hrow⟩
  · intro row hrow n hn
    have hblank : row = [[]] := by simpa [hr] using hrow
    rw [hblank] at hn
    exact .inl (List.mem_singleton.mp hn)

/-- A view of every group with its members. -/
theorem consistent_of_rows (hs : v.groupString = s.lstGroupData.map fun g => some g.text)
    (hr : v.memberInfoString = s.grpNumbers.map (row s.groupNumMebersMap))
    (hmem : ∀ n ∈ s.grpNumbers, n ∈ s.groupNumMebersMap) (hknown : KnownRows v) : v.Consistent s := by
  have hlength : v.groupString.length = s.lstGroupData.length := by rw [hs, List.length_map]
  have hrow : ∀ n ∈ s.grpNumbers, ∃ members, s.groupNumMebersMap.lookup n = some members := fun n hn =>
    Option.isSome_iff_exists.mp (AList.lookup_isSome.mpr (hmem n hn))
  have hshows : ∀ i < v.groupString.length, ∃ text row, v.groupString[i]? = some (some text) ∧
      v.memberInfoString[i]? = some (some row) ∧ s.Shows i text row := by
    intro i hi
    rw [hlength] at hi
    have hg := List.getElem?_eq_getElem hi
    obtain ⟨members, hmembers⟩ := hrow _ (List.mem_map_of_mem (List.getElem_mem hi))
    refine ⟨s.lstGroupData[i].text, members.map MemberEntry.number, ?_, ?_, s.lstGroupData[i], members,
      hg, rfl, hmembers, rfl⟩
    · rw [hs, List.getElem?_map, hg]
      rfl
    · rw [hr, GroupService.grpNumbers, List.getElem?_map, List.getElem?_map, hg]
      simp only [Option.map_some, row, hmembers]
  constructor
  case length => rw [hs, hr, GroupService.grpNumbers]; simp
  case rows =>
    rw [hr]
    intro hnone
    obtain ⟨n, hn, hnull⟩ := List.mem_map.mp hnone
    obtain ⟨members, hmembers⟩ := hrow n hn
    simp [row, hmembers] at hnull
  case members =>
    intro i hi
    obtain ⟨text, row, htext, hrow, hshown⟩ := hshows i hi
    exact ⟨text, row, htext, hrow, .inr hshown⟩
  case adapter =>
    refine adapterSafe_of_rows (fun i hi => ?_) hknown
    obtain ⟨text, row, htext, hrow, -⟩ := hshows i hi
    exact ⟨text, row, htext, hrow⟩

end GroupView

/-- One of the collections is empty, or there are as many entries as groups, and each group has one
that is sorted without an exception. -/
def GroupService.viewable (A : ArraySort) (s : GroupService) : Bool :=
  s.lstGroupData.isEmpty || s.groupNumMebersMap.size = 0 ||
    (s.groupNumMebersMap.size = s.lstGroupData.length &&
      (sortArrays A s.grpNumbers s.groupNumMebersMap).isSome)

/-- Where no sort throws, it is enough that each group has an entry. -/
theorem viewable_iff {A : ArraySort} (hA : ∀ ms, (A.sort ms).2 = true) (s : GroupService) :
    s.viewable A = true ↔ s.lstGroupData = [] ∨ s.groupNumMebersMap.size = 0 ∨
      s.groupNumMebersMap.size = s.lstGroupData.length ∧
        ∀ n ∈ s.grpNumbers, n ∈ s.groupNumMebersMap := by
  rw [← sortArrays_isSome hA]
  simp [GroupService.viewable, or_assoc]

namespace GroupView

variable {v : GroupView} {s : GroupService} {A : ArraySort}

theorem freshView_of_empty (h : s.lstGroupData = [] ∨ s.groupNumMebersMap.size = 0) :
    v.freshView A s = ({ v with groupString := [some []], memberInfoString := [some [[]]] }, s) := by
  apply if_neg
  rintro ⟨hlist, hmap⟩
  obtain hnil | hzero := h
  · simp [hnil] at hlist
  · omega

theorem freshView_of_pos (hlist : s.lstGroupData ≠ []) (hmap : s.groupNumMebersMap.size ≠ 0) :
    v.freshView A s =
      let r := (v.startRefresh s).fillGroups A 0 s.lstGroupData
      let r := if r.thrown then r else r.fillRows s.groupNumMebersMap.size 0
      (r.view, { s with groupNumMebersMap := r.groupInfoMap }) := by
  apply if_pos
  exact ⟨List.length_pos_iff.mpr hlist, by omega⟩

/-- An entry for each group and no other is shown. -/
theorem freshView_consistent {m : MemberMap} (hlist : s.lstGroupData ≠ [])
    (hsize : s.groupNumMebersMap.size = s.lstGroupData.length)
    (hsort : sortArrays A s.grpNumbers s.groupNumMebersMap = some m) :
    (v.freshView A s).1.Consistent (v.freshView A s).2 := by
  have hpos : s.groupNumMebersMap.size ≠ 0 := by
    rw [hsize]
    exact (List.length_pos_iff.mpr hlist).ne'
  obtain ⟨groups, hgroups⟩ := fillGroups_done (r := v.startRefresh s) [] [] 0 hsort rfl rfl
    (by rw [Nat.add_zero, ← hsize]; rfl) rfl
  rw [freshView_of_pos hlist hpos]
  change (v.startRefresh s).fillGroups A 0 s.lstGroupData = _ at hgroups
  rw [hgroups]
  set r : Refresh := { v.startRefresh s with
    view := { (v.startRefresh s).view with
      groups := groups
      groupString := [] ++ s.lstGroupData.map fun g => some g.text
      memberInfos := [] ++ (s.lstGroupData.map fun g => some g.number) ++ .replicate 0 none }
    groupInfoMap := m }
  have hmem : ∀ n ∈ s.grpNumbers, n ∈ m := fun n hn =>
    (sortArrays_mem hsort n).mpr (mem_of_sortArrays hsort n hn)
  have hnumbers : s.grpNumbers.length = s.groupNumMebersMap.size := by
    rw [hsize, GroupService.grpNumbers, List.length_map]
  have hrows := fillRows_done (r := r) [] [] hmem rfl (by simp [r, GroupService.grpNumbers])
    (by rw [hnumbers]; rfl) rfl
  obtain ⟨hstring, hmap, -⟩ := fillRows_frame s.groupNumMebersMap.size 0 r
  have hknown : KnownRows r.view := by
    intro row hrow
    have hnone := List.eq_of_mem_replicate hrow
    cases hnone
  rw [hnumbers] at hrows
  refine consistent_of_rows hstring ?_ ?_ (hknown.fillRows _ _)
  · show (r.fillRows s.groupNumMebersMap.size 0).view.memberInfoString =
      s.grpNumbers.map (row (r.fillRows s.groupNumMebersMap.size 0).groupInfoMap)
    rw [hmap]
    exact hrows
  · show ∀ n ∈ s.grpNumbers, n ∈ (r.fillRows s.groupNumMebersMap.size 0).groupInfoMap
    rw [hmap]
    exact hmem

/-- A null row is left, or there are more rows than groups. -/
theorem freshView_inconsistent (hlist : s.lstGroupData ≠ []) (hpos : s.groupNumMebersMap.size ≠ 0)
    (h : ¬(s.groupNumMebersMap.size = s.lstGroupData.length ∧
      (sortArrays A s.grpNumbers s.groupNumMebersMap).isSome = true)) :
    ¬(v.freshView A s).1.Consistent (v.freshView A s).2 := by
  have hinfos : (v.startRefresh s).view.memberInfos.length = s.groupNumMebersMap.size :=
    List.length_replicate
  have hrows := fillGroups_rows A 0 s.lstGroupData (v.startRefresh s)
  rw [freshView_of_pos hlist hpos]
  by_cases hdone : s.lstGroupData.length ≤ s.groupNumMebersMap.size ∧
      (sortArrays A s.grpNumbers s.groupNumMebersMap).isSome = true
  · obtain ⟨hle, hsorted⟩ := hdone
    obtain ⟨m, hsort⟩ := Option.isSome_iff_exists.mp hsorted
    obtain ⟨groups, hgroups⟩ := fillGroups_done (r := v.startRefresh s) [] []
      (s.groupNumMebersMap.size - s.lstGroupData.length) hsort rfl rfl
      (by rw [Nat.add_sub_cancel' hle]; rfl) rfl
    change (v.startRefresh s).fillGroups A 0 s.lstGroupData = _ at hgroups
    have hthrown : ((v.startRefresh s).fillGroups A 0 s.lstGroupData).thrown = false := by
      rw [hgroups]
      rfl
    obtain ⟨hstring, -, hlength⟩ := fillRows_frame s.groupNumMebersMap.size 0
      ((v.startRefresh s).fillGroups A 0 s.lstGroupData)
    intro hc
    have hcount := hc.length
    simp only [hthrown, Bool.false_eq_true, if_false] at hcount
    rw [hstring, hlength, hrows, hgroups] at hcount
    have hsame : s.lstGroupData.length = s.groupNumMebersMap.size := by
      simpa [startRefresh] using hcount
    exact h ⟨hsame.symm, hsorted⟩
  · have hthrown : ((v.startRefresh s).fillGroups A 0 s.lstGroupData).thrown = true := by
      apply fillGroups_thrown (Nat.zero_le _)
      rw [hinfos, Nat.zero_add]
      exact hdone
    intro hc
    apply hc.rows
    simp only [hthrown, if_true]
    rw [hrows]
    exact List.mem_replicate.mpr ⟨hpos, rfl⟩

theorem freshView_consistent_iff (A : ArraySort) (v : GroupView) (s : GroupService) :
    (v.freshView A s).1.Consistent (v.freshView A s).2 ↔ s.viewable A = true := by
  by_cases hempty : s.lstGroupData = [] ∨ s.groupNumMebersMap.size = 0
  · rw [freshView_of_empty hempty]
    refine iff_of_true (consistent_blank rfl rfl s) ?_
    obtain h | h := hempty <;> simp [GroupService.viewable, h]
  · push Not at hempty
    obtain ⟨hlist, hpos⟩ := hempty
    have hviewable : s.viewable A = true ↔ s.groupNumMebersMap.size = s.lstGroupData.length ∧
        (sortArrays A s.grpNumbers s.groupNumMebersMap).isSome = true := by
      simp [GroupService.viewable, hlist, hpos]
    rw [hviewable]
    constructor
    · intro hc
      by_contra h
      exact freshView_inconsistent hlist hpos h hc
    · rintro ⟨hsize, hsorted⟩
      obtain ⟨m, hsort⟩ := Option.isSome_iff_exists.mp hsorted
      exact freshView_consistent hlist hsize hsort

end GroupView

/-! ### What the view does to the manager -/

/-- A run of the manager that sorts entries. -/
def GroupService.SortsTo (s s' : GroupService) : Prop :=
  ∃ es, (∀ e ∈ es, ∃ n members, e = GroupEvent.sortMembers n members) ∧
    (groupManager fun _ => True).Allowed (fun _ _ => True) s es ∧
    (groupManager fun _ => True).run s es = s'

section
variable {A : ArraySort} {s s' s'' : GroupService}

theorem GroupService.SortsTo.refl (s : GroupService) : s.SortsTo s := ⟨[], by simp, trivial, rfl⟩

theorem GroupService.SortsTo.trans (h : s.SortsTo s') (h' : s'.SortsTo s'') : s.SortsTo s'' := by
  obtain ⟨es, hes, hallowed, rfl⟩ := h
  obtain ⟨es', hes', hallowed', rfl⟩ := h'
  refine ⟨es ++ es', ?_, System.allowed_append.mpr ⟨hallowed, hallowed'⟩, System.run_append _ _ _⟩
  intro e he
  obtain he | he := List.mem_append.mp he
  · exact hes e he
  · exact hes' e he

theorem sortsTo_insert {n : Bytes} {members : List MemberEntry}
    (hA : ∀ ms, (A.sort ms).2 = true) (hlookup : s.groupNumMebersMap.lookup n = some members) :
    s.SortsTo { s with groupNumMebersMap := s.groupNumMebersMap.insert n (A.sort members).1 } := by
  refine ⟨[.sortMembers n (A.sort members).1], ?_, ⟨?_, trivial, trivial⟩, rfl⟩
  · intro e he
    exact ⟨_, _, List.mem_singleton.mp he⟩
  · show (s.groupNumMebersMap.lookup n).any (A.sort members).1.isPerm = true
    rw [hlookup]
    exact List.isPerm_iff.mpr (A.perm members (hA members))

theorem sortsTo_fillGroups (hA : ∀ ms, (A.sort ms).2 = true) (gs : List GroupEntry) (i : ℕ)
    {r : Refresh} (hr : r.groupInfoMap = s.groupNumMebersMap) :
    s.SortsTo { s with groupNumMebersMap := (r.fillGroups A i gs).groupInfoMap } := by
  have hsame : ∀ r' : Refresh, r'.groupInfoMap = s.groupNumMebersMap →
      s.SortsTo { s with groupNumMebersMap := r'.groupInfoMap } := by
    intro r' hr'
    rw [hr']
    exact .refl s
  induction gs generalizing s r i with
  | nil => exact hsame _ hr
  | cons g gs ih =>
    have hturn : s.SortsTo { s with groupNumMebersMap := (r.fillGroup A i g).groupInfoMap } := by
      unfold fillGroup
      dsimp only
      split
      · exact hsame _ hr
      · cases hlookup : r.groupInfoMap.lookup g.number with
        | none => exact hsame _ hr
        | some members =>
          dsimp only
          rw [hr] at hlookup ⊢
          exact sortsTo_insert hA hlookup
    rw [fillGroups]
    split
    · exact hturn
    · refine hturn.trans (ih (i + 1) rfl ?_)
      intro r' hr'
      rw [hr']
      exact .refl _

/-- Where no sort throws, all that the view does to the manager is to sort entries in place. -/
theorem sortsTo_freshView (hA : ∀ ms, (A.sort ms).2 = true) (v : GroupView) (s : GroupService) :
    s.SortsTo (v.freshView A s).2 := by
  unfold GroupView.freshView
  split
  · have hgroups := sortsTo_fillGroups hA s.lstGroupData 0 (r := v.startRefresh s) rfl
    dsimp only
    split
    · exact hgroups
    · rw [(fillRows_frame _ _ _).2.1]
      exact hgroups
  · exact .refl s

end

/-! ### Runs -/

/-- The service, the view, and what the service was when the view was made. -/
structure ViewDesk where
  service : GroupService := {}
  view : GroupView := {}
  seen : GroupService := {}

inductive ViewEvent where
  | manager (e : GroupEvent)
  | onCreate
  /-- A broadcast is received, or the menu refreshes the view. -/
  | freshView
  deriving Repr, DecidableEq

namespace ViewDesk

def freshView (A : ArraySort) (v : GroupView) (d : ViewDesk) : ViewDesk :=
  let (view, service) := v.freshView A d.service
  ⟨service, view, service⟩

def next (A : ArraySort) (d : ViewDesk) : ViewEvent → ViewDesk
  | .manager e => { d with service := e.next d.service }
  | .onCreate => d.freshView A {}
  | .freshView => d.freshView A d.view

def enabled (d : ViewDesk) : ViewEvent → Bool
  | .manager e => e.enabled d.service
  | _ => true

/-- The manager and the view are new. -/
structure Fresh (d : ViewDesk) : Prop where
  members : d.service.groupNumMebersMap = ∅
  view : d.view = {}

/-- The view is made when it can be. -/
def viewable (A : ArraySort) (d : ViewDesk) : ViewEvent → Bool
  | .manager _ => true
  | .onCreate | .freshView => d.service.viewable A

/-- What is shown is what there was when the view was made. -/
def Consistent (d : ViewDesk) : Prop := d.view.Consistent d.seen

theorem consistent_next_iff (A : ArraySort) {d : ViewDesk} (h : d.Consistent) (e : ViewEvent) :
    (d.next A e).Consistent ↔ d.viewable A e = true := by
  cases e with
  | manager e => exact iff_of_true h rfl
  | onCreate => exact GroupView.freshView_consistent_iff A {} d.service
  | freshView => exact GroupView.freshView_consistent_iff A d.view d.service

end ViewDesk

def viewDesk (A : ArraySort) : System ViewDesk ViewEvent where
  init := ViewDesk.Fresh
  enabled d e := d.enabled e
  next d e := d.next A e

instance (A : ArraySort) (d : ViewDesk) (e : ViewEvent) : Decidable ((viewDesk A).enabled d e) :=
  inferInstanceAs (Decidable (d.enabled e = true))

theorem fresh_viewDesk : ViewDesk.Fresh {} := ⟨rfl, rfl⟩

/-- However the array is sorted, from a new manager and a new view on, the view of every run is
consistent exactly when each time it is made there is an entry for each group and no other, which can
be sorted, or no entry or no group at all. -/
theorem runs_viewConsistent (A : ArraySort) {d : ViewDesk} (hd : (viewDesk A).init d)
    {es : List ViewEvent} (hes : (viewDesk A).Allowed (fun _ _ => True) d es) :
    (viewDesk A).Allowed (fun d e => d.viewable A e = true) d es ↔
      ∀ es', es' <+: es → ((viewDesk A).run d es').Consistent := by
  have hstart : d.Consistent := by
    unfold ViewDesk.Consistent
    rw [hd.view]
    exact GroupView.consistent_blank rfl rfl _
  apply System.allowed_iff (fun _ h => h) _ _ hstart hes
  · intro d e h _ hok
    exact (ViewDesk.consistent_next_iff A h e).mpr hok
  · intro d e h _ hok
    exact mt (ViewDesk.consistent_next_iff A h e).mp hok

/-- Both groups have their members when the view is made. -/
def viewRun : List ViewEvent :=
  [.onCreate,
    .manager (.addGroupInfo 0
      (some [⟨ascii "day", ascii "8001", 1⟩, ⟨ascii "night", ascii "8002", 1⟩])),
    .manager (.receiveMemberInfo (ascii "8002")
      [⟨ascii "102", ascii "b", 0⟩, ⟨ascii "103", ascii "c", 3⟩]),
    .manager (.receiveMemberInfo (ascii "8001") [⟨ascii "101", ascii "a", 3⟩]), .freshView]

theorem view_along_run : ((viewDesk .stable).run {} viewRun).Consistent := by
  have hrun : (viewDesk .stable).Allowed (fun _ _ => True) {} viewRun := by decide +kernel
  exact (runs_viewConsistent .stable fresh_viewDesk hrun).mp (by decide +kernel) viewRun
    List.prefix_rfl

/-- Other groups come, and the view is made with the members of the old one. -/
def staleViewRun : List ViewEvent :=
  [.onCreate, .manager (.addGroupInfo 0 (some [⟨ascii "day", ascii "8001", 1⟩])),
    .manager (.receiveMemberInfo (ascii "8001") [⟨ascii "101", ascii "a", 3⟩]), .freshView,
    .manager (.addGroupInfo 0
      (some [⟨ascii "night", ascii "8002", 1⟩, ⟨ascii "late", ascii "8003", 1⟩])),
    .freshView]

/-- There is one row for two groups, and it is null. -/
theorem stale_view : (viewDesk .stable).Allowed (fun _ _ => True) {} staleViewRun ∧
    ((viewDesk .stable).run {} staleViewRun).view.groupString.length = 2 ∧
    ((viewDesk .stable).run {} staleViewRun).view.memberInfoString = [none] ∧
    ¬((viewDesk .stable).run {} staleViewRun).Consistent :=
  ⟨by decide +kernel, by decide +kernel, by decide +kernel,
    fun h => absurd h.length (by decide +kernel)⟩

end PttTerminal
