import PttTerminal.GroupLines
import PttTerminal.RegroupLaw

/-!
# Well-formed regroup messages

The lines of groups of a message, printed as the server prints them, and what the terminal makes
of the message: which groups there are afterwards and with which attributes.
-/
namespace PttTerminal

open LinkedCells

/-- The lines of groups and the emergency line of a message. The text given to the handler starts
with the line feed of the first line of the message, if that line ends in CR LF. -/
structure RegroupText where
  lineFeed : Bool
  rows : List (List GroupText)
  emergency : Bytes
  rows_ne : rows ≠ []
  row_ne : ∀ row ∈ rows, row ≠ []
  clean : ∀ row ∈ rows, ∀ t ∈ row, t.Clean
  emergency_free : Free [CR, LF] emergency

namespace RegroupText

def lines (c : RegroupText) : Bytes :=
  (c.rows.map lineText).flatten ++ (emergencyLit ++ (c.emergency ++ [CR, LF]))

def text (c : RegroupText) : Bytes := (if c.lineFeed then [LF] else []) ++ c.lines

def numbers (c : RegroupText) : List (List Bytes) := c.rows.map (List.map GroupText.number)

end RegroupText

/-! ### Both readers take the text in its lines -/

section contents

variable (c : RegroupText)

theorem RegroupText.tail_free : Free [LF] (emergencyLit ++ (c.emergency ++ [CR])) :=
  (show Free [LF] emergencyLit by decide).append
    ((c.emergency_free.mono (by decide)).append (by decide))

theorem RegroupText.skip_tail : skipLine (emergencyLit ++ (c.emergency ++ [CR, LF])) = [] := by
  have := skipLine_last c.tail_free
  simpa using this

theorem emergencyLit_le_append (rows : List (List GroupText)) (m : Bytes) :
    emergencyLit.length ≤ ((rows.map lineText).flatten ++ (emergencyLit ++ m)).length := by
  simp only [List.length_append]
  omega

theorem RegroupText.load_lines : Lines LoadLine c.rows c.lines := by
  have htail : Lines LoadLine [] (emergencyLit ++ (c.emergency ++ [CR, LF])) := by
    refine .cons (o := none) (by simp) (.emergency (List.prefix_append _ _)) ?_
    rw [c.skip_tail]
    exact .nil
  have hrows : ∀ rows : List (List GroupText), (∀ row ∈ rows, row ≠ [] ∧ ∀ t ∈ row, t.Clean) →
      Lines LoadLine rows ((rows.map lineText).flatten ++
        (emergencyLit ++ (c.emergency ++ [CR, LF]))) := by
    intro rows
    induction rows with
    | nil => exact fun _ => htail
    | cons row rows ih =>
      intro h
      have hrow := h row (by simp)
      rw [List.map_cons, List.flatten_cons, List.append_assoc]
      exact .cons (o := some row) (by simp [lineText, generalLit, ascii])
        (loadLine_lineText hrow.1 hrow.2 (emergencyLit_le_append _ _))
        (ih fun r hr => h r (by simp [hr]))
  exact hrows c.rows fun row hrow => ⟨c.row_ne row hrow, c.clean row hrow⟩

theorem RegroupText.merge_lines : Lines MergeLine c.rows c.lines := by
  have hapart : ¬ emergencyLit <+: generalLit ∧ ¬ generalLit <+: emergencyLit := by decide
  have htail : Lines MergeLine [] (emergencyLit ++ (c.emergency ++ [CR, LF])) := by
    have hlen : generalLit.length ≤ emergencyLit.length := by decide
    refine .cons (o := none) (by simp) (.other ?_ ?_) ?_
    · rw [List.length_append]
      omega
    · exact not_prefix_of_apart hapart (List.prefix_append _ _)
    · rw [c.skip_tail]
      exact .nil
  have hrows : ∀ rows : List (List GroupText), (∀ row ∈ rows, row ≠ [] ∧ ∀ t ∈ row, t.Clean) →
      Lines MergeLine rows ((rows.map lineText).flatten ++
        (emergencyLit ++ (c.emergency ++ [CR, LF]))) := by
    intro rows
    induction rows with
    | nil => exact fun _ => htail
    | cons row rows ih =>
      intro h
      have hrow := h row (by simp)
      rw [List.map_cons, List.flatten_cons, List.append_assoc]
      exact .cons (o := some row) (by simp [lineText, generalLit, ascii])
        (mergeLine_lineText hrow.1 hrow.2 _) (ih fun r hr => h r (by simp [hr]))
  exact hrows c.rows fun row hrow => ⟨c.row_ne row hrow, c.clean row hrow⟩

theorem lineFeed_apart {lit r : Bytes} (h : lit.head? ≠ some LF) (hl : lit ≠ []) :
    ¬ lit <+: LF :: r := by
  rintro ⟨m, hm⟩
  cases lit with
  | nil => exact hl rfl
  | cons a lit =>
    obtain ⟨rfl, -⟩ : a = LF ∧ lit ++ m = r := by simpa using hm
    exact h rfl

theorem RegroupText.load_text : Lines LoadLine c.rows c.text := by
  cases hf : c.lineFeed with
  | false => simpa [RegroupText.text, hf] using c.load_lines
  | true =>
    rw [RegroupText.text, hf]
    refine .cons (o := none) (by simp) (m := c.lines) ?_ c.load_lines
    have hlen : emergencyLit.length ≤ (LF :: c.lines).length := by
      have := emergencyLit_le_append c.rows (c.emergency ++ [CR, LF])
      rw [List.length_cons]
      exact this.trans (Nat.le_succ _)
    exact .other hlen (lineFeed_apart (by decide) (by decide))
      (lineFeed_apart (by decide) (by decide)) (lineFeed_apart (by decide) (by decide))

theorem RegroupText.merge_text : Lines MergeLine c.rows c.text := by
  cases hf : c.lineFeed with
  | false => simpa [RegroupText.text, hf] using c.merge_lines
  | true =>
    rw [RegroupText.text, hf]
    refine .cons (o := none) (by simp) (m := c.lines) ?_ c.merge_lines
    have hlen : generalLit.length ≤ (LF :: c.lines).length := by
      have := emergencyLit_le_append c.rows (c.emergency ++ [CR, LF])
      have hlit : generalLit.length ≤ emergencyLit.length := by decide
      rw [List.length_cons]
      exact (hlit.trans this).trans (Nat.le_succ _)
    exact .other hlen (lineFeed_apart (by decide) (by decide))

end contents

/-! ### Which groups there are afterwards -/

/-- The pass ends with a circular list in which each of the numbers occurs once, and no other. -/
def RegroupLaw (info : PttInfo) (content : Bytes) (listed : List Bytes) : Prop :=
  ∃ info' xs, cleanupOnRegroup info content = .ok info' ∧ info'.Groups xs ∧
    ∀ n, (numbers (xs.map Prod.snd)).count n = if n ∈ listed then 1 else 0

/-- The last line has no number twice and has the numbers of all lines. -/
def LastLineComplete (rows : List (List Bytes)) : Prop :=
  ∃ last ∈ rows.getLast?, last.Nodup ∧ ∀ row ∈ rows, ∀ n ∈ row, n ∈ last

/-- When the two passes agree. If a group is kept, every kept group has to be listed and no search
may miss its number; otherwise the last line alone makes the new list. -/
def Regroupable (content : Bytes) (cur : List (ℕ × GroupInfo)) (rows : List (List Bytes)) : Prop :=
  if kept content cur = [] then LastLineComplete rows
  else (∀ p ∈ kept content cur, p.2.number ∈ rows.flatten) ∧
    NoneMissed (numbers ((kept content cur).map Prod.snd)) rows

theorem count_law {xs listed : List Bytes} :
    (∀ n, xs.count n = if n ∈ listed then 1 else 0) ↔ xs.Nodup ∧ ∀ n, n ∈ xs ↔ n ∈ listed := by
  constructor
  · intro h
    refine ⟨List.nodup_iff_count_le_one.mpr fun n => ?_, fun n => ?_⟩
    · rw [h]
      split_ifs <;> omega
    · rw [← List.count_pos_iff, h]
      split_ifs with hn <;> simp [hn]
  · rintro ⟨hnd, hmem⟩ n
    by_cases hn : n ∈ listed
    · rw [if_pos hn]
      exact List.count_eq_one_of_mem hnd ((hmem n).mpr hn)
    · rw [if_neg hn, List.count_eq_zero]
      exact fun hx => hn ((hmem n).mp hx)

theorem numbers_attributes (xs : List (ℕ × GroupInfo)) :
    numbers (xs.map fun p => p.2.attributes) = numbers (xs.map Prod.snd) := by
  simp [numbers, GroupInfo.attributes, GroupInfo.setTransport]

theorem numbers_group (row : List GroupText) :
    numbers (row.map GroupText.group) = row.map GroupText.number := by
  simp [numbers, GroupText.group]

section law

variable {info : PttInfo} {cur : List (ℕ × GroupInfo)} {c : RegroupText}

theorem regroupLaw_iff_numbers (h : info.Groups cur) (hd : Deletable info c.text cur)
    (listed : List Bytes) :
    RegroupLaw info c.text listed ↔
      (numbers (afterRegroup c.text cur c.rows)).Nodup ∧
        ∀ n, n ∈ numbers (afterRegroup c.text cur c.rows) ↔ n ∈ listed := by
  obtain ⟨info', xs, hrun, hg, hxs⟩ := cleanup_ok h hd c.load_text c.merge_text
  rw [← count_law, ← hxs, numbers_attributes]
  constructor
  · rintro ⟨info'', ys, hrun', hg', hcount⟩
    rw [hrun] at hrun'
    cases hrun'
    rwa [hg.unique hg']
  · exact fun hcount => ⟨info', xs, hrun, hg, hcount⟩

/-- With no group kept, the list is that of the last line. -/
theorem last_line_law (rows : List (List GroupText)) (hne : rows ≠ []) :
    ((numbers (afterLines rows [])).Nodup ∧
      ∀ n, n ∈ numbers (afterLines rows []) ↔ n ∈ (rows.map (List.map GroupText.number)).flatten) ↔
      LastLineComplete (rows.map (List.map GroupText.number)) := by
  obtain ⟨last, hlast⟩ : ∃ last, rows.getLast? = some last :=
    ⟨_, List.getLast?_eq_some_getLast hne⟩
  have hmem : last ∈ rows := List.mem_of_mem_getLast? hlast
  have hnum : numbers (afterLines rows []) = last.map GroupText.number := by
    simp only [afterLines, afterLine, hlast, Option.map_some, Option.getD_some, numbers_group]
  rw [hnum]
  simp only [LastLineComplete, List.getLast?_map, hlast, Option.map_some, Option.mem_def,
    Option.some.injEq, exists_eq_left', List.mem_flatten, List.mem_map, exists_exists_and_eq_and,
    forall_exists_index, and_imp, forall_apply_eq_imp_iff₂]
  refine and_congr_right fun _ => ⟨fun h row hrow t ht => ?_, fun h n => ⟨?_, ?_⟩⟩
  · exact (h t.number).mpr ⟨row, hrow, t, ht, rfl⟩
  · rintro ⟨t, ht, rfl⟩
    exact ⟨last, hmem, t, ht, rfl⟩
  · rintro ⟨row, hrow, t, ht, rfl⟩
    exact h row hrow t ht

/-- With some group kept, the list is right when every kept group is listed and no number missed. -/
theorem merge_law (gs : List GroupInfo) (rows : List (List GroupText)) (hnd : (numbers gs).Nodup) :
    ((numbers (mergeRows (gs, 0) (rows.map (List.map GroupText.group))).1).Nodup ∧
      ∀ n, n ∈ numbers (mergeRows (gs, 0) (rows.map (List.map GroupText.group))).1 ↔
        n ∈ (rows.map (List.map GroupText.number)).flatten) ↔
      (∀ n ∈ numbers gs, n ∈ (rows.map (List.map GroupText.number)).flatten) ∧
        NoneMissed (numbers gs) (rows.map (List.map GroupText.number)) := by
  have hrows : (rows.map (List.map GroupText.group)).map numbers =
      rows.map (List.map GroupText.number) := by
    rw [List.map_map]
    exact List.map_congr_left fun row _ => numbers_group row
  have hstart := Tracks.start hnd
  constructor
  · rintro ⟨hnodup, hmem⟩
    refine ⟨fun n hn => (hmem n).mp ?_, ?_⟩
    · have hpre := (prefix_mergeRows (gs, 0) (rows.map (List.map GroupText.group))).map
        GroupInfo.number
      exact hpre.subset hn
    · by_contra hno
      rw [← hrows] at hno
      exact hstart.missed_rows hno hnodup
  · rintro ⟨hlisted, hno⟩
    rw [← hrows] at hno
    have hin := hstart.after_rows hno
    refine ⟨hin.nodup, fun n => ?_⟩
    rw [hin.mem, hrows, List.mem_append]
    exact ⟨fun hn => hn.elim (hlisted n) id, .inr⟩

theorem regroupLaw_of_deletable (h : info.Groups cur) (hnd : (numbers (cur.map Prod.snd)).Nodup)
    (hd : Deletable info c.text cur) :
    RegroupLaw info c.text c.numbers.flatten ↔ Regroupable c.text cur c.numbers := by
  rw [regroupLaw_iff_numbers h hd]
  by_cases hk : kept c.text cur = []
  · simp only [afterRegroup, hk, Regroupable, if_true]
    exact last_line_law c.rows c.rows_ne
  · simp only [afterRegroup, hk, Regroupable, if_false]
    have hkn : (numbers ((kept c.text cur).map fun p => p.2.attributes)).Nodup := by
      rw [numbers_attributes]
      exact hnd.sublist ((List.filter_sublist.map _).map _)
    rw [show c.numbers = c.rows.map (List.map GroupText.number) from rfl, merge_law _ _ hkn,
      numbers_attributes]
    refine and_congr_left fun _ => ?_
    rw [numbers, List.map_map]
    exact List.forall_mem_map

theorem not_regroupLaw (h : info.Groups cur) (hd : ¬ Deletable info c.text cur)
    (listed : List Bytes) :
    ¬ RegroupLaw info c.text listed := by
  rintro ⟨info', xs, hrun, -⟩
  obtain ⟨e, he⟩ := cleanup_error h hd
  rw [he] at hrun
  cases hrun

end law

/-! ### The law as a whole -/

/-- A group with this name and number, written as in a message. -/
def GroupText.sample (name number : String) : GroupText :=
  ⟨ascii name, ascii number, ascii "1", ascii "30", ascii "60", ascii "239.1.1.1", ascii "5000"⟩

/-- A message with one line of one group. -/
def RegroupText.one (t : GroupText) (h : t.Clean) : RegroupText where
  lineFeed := true
  rows := [[t]]
  emergency := []
  rows_ne := by simp
  row_ne := by simp
  clean := by simpa using h
  emergency_free := by decide

/-- The terminal with one group and no session. -/
def PttInfo.withGroup (t : GroupText) : PttInfo :=
  { (PttInfo.initial fun _ _ => true).alloc t.group with generalGroup := some 0 }

theorem PttInfo.withGroup_groups (t : GroupText) : (PttInfo.withGroup t).Groups [(0, t.group)] :=
  (PttInfo.initial_groups _).newHead t.group

theorem PttInfo.withGroup_deletable (t : GroupText) (content : Bytes) :
    Deletable (PttInfo.withGroup t) content [(0, t.group)] := .inr (.inl rfl)

/-- The terminal with two groups and no session. -/
def PttInfo.withGroups (t u : GroupText) : PttInfo :=
  (((PttInfo.withGroup t).alloc u.group).pjListPushBack 0 1).toOption.getD (PttInfo.withGroup t)

theorem PttInfo.withGroups_spec (t u : GroupText) :
    (PttInfo.withGroups t u).Groups [(0, t.group), (1, u.group)] ∧
      (PttInfo.withGroups t u).pttState = .uninit := by
  have halloc := (PttInfo.withGroup_groups t).alloc u.group
  have hv : ((PttInfo.withGroup t).alloc u.group).heap.vl 1 = some u.group := by
    rw [show ((PttInfo.withGroup t).alloc u.group).heap =
      (PttInfo.withGroup t).heap.alloc 1 u.group from rfl, Store.alloc_vl, Function.update_self]
  obtain ⟨info', hrun, hg, heap, -, hinfo⟩ := halloc.pushBack (by simp) hv
  have hrun' : ((PttInfo.withGroup t).alloc u.group).pjListPushBack 0 1 = .ok info' := hrun
  rw [PttInfo.withGroups, hrun', Except.toOption, Option.getD_some]
  exact ⟨hg, by rw [hinfo]; rfl⟩

/-- A regroup message leaves just the groups it lists exactly when a deletion finds the session in
order and the two passes agree about every number. -/
theorem regroup_leaves_listed_groups_iff (info : PttInfo) (cur : List (ℕ × GroupInfo))
    (c : RegroupText) (h : info.Groups cur) (hnd : (numbers (cur.map Prod.snd)).Nodup) :
    RegroupLaw info c.text c.numbers.flatten ↔
      Deletable info c.text cur ∧ Regroupable c.text cur c.numbers := by
  by_cases hd : Deletable info c.text cur
  · simp only [hd, true_and]
    exact regroupLaw_of_deletable h hnd hd
  · simp only [hd, false_and, iff_false]
    exact not_regroupLaw h hd _

/-- Two lines, each with a group that is there already and one that is new. -/
def twoLines : RegroupText where
  lineFeed := true
  rows := [[.sample "B" "2", .sample "C" "3"], [.sample "C" "3", .sample "D" "4"]]
  emergency := []
  rows_ne := by decide
  row_ne := by decide
  clean := by decide
  emergency_free := by decide

/-- Of the groups 7 and 2 the first one goes, and 3 and 4 are added. -/
theorem regroup_two_lines :
    RegroupLaw (PttInfo.withGroups (.sample "A" "7") (.sample "B" "2")) twoLines.text
      [ascii "2", ascii "3", ascii "3", ascii "4"] := by
  obtain ⟨hg, hstate⟩ := PttInfo.withGroups_spec (.sample "A" "7") (.sample "B" "2")
  refine (regroup_leaves_listed_groups_iff _ _ twoLines hg (by decide)).mpr
    ⟨.inr (.inl hstate), ?_⟩
  have hkept : kept twoLines.text [(0, (GroupText.sample "A" "7").group),
      (1, (GroupText.sample "B" "2").group)] = [(1, (GroupText.sample "B" "2").group)] := by
    decide +kernel
  rw [Regroupable, hkept, if_neg (by simp)]
  refine ⟨by decide, noneMissed_cons.mpr ⟨fun x _ _ => ?_, noneMissed_cons.mpr
    ⟨fun x _ _ => ?_, by simp [NoneMissed]⟩⟩⟩
  · exact not_missed_new (l := []) (y := ascii "2") (by decide)
  · exact not_missed_new (l := [ascii "2", ascii "2"]) (y := ascii "3") (by decide)

/-- The number 1 and its comma are found inside the number 21, so that group 1 stays. -/
theorem regroup_keeps_unlisted_group :
    ¬ RegroupLaw (PttInfo.withGroup (.sample "A" "1"))
      (RegroupText.one (.sample "B" "21") ⟨by decide, by decide, by decide, by decide, by decide,
        by decide, by decide⟩).text [ascii "21"] := by
  intro h
  have := (regroupLaw_of_deletable (c := RegroupText.one (.sample "B" "21") _)
    (PttInfo.withGroup_groups _) (by decide) (PttInfo.withGroup_deletable _ _)).mp h
  rw [Regroupable, if_neg (by decide)] at this
  exact absurd this.1 (by decide)

/-! ### With which attributes -/

/-- Name, number, level, heartbeats, address and port of each group of a list. -/
def values (xs : List (ℕ × GroupInfo)) : List GroupInfo := xs.map fun p => p.2.attributes

theorem values_eq (xs : List (ℕ × GroupInfo)) :
    values xs = (xs.map Prod.snd).map GroupInfo.attributes := by
  rw [List.map_map]
  rfl

/-- Each group that the content gives when it is loaded first is in the list after the regroup,
and has the same attributes there. -/
def AgreesWithFreshLoad (info fresh : PttInfo) (content : Bytes) : Prop :=
  ∃ info' xs fresh' ys, pttReceiveGroupInfoParse info content true = .ok info' ∧ info'.Groups xs ∧
    pttReceiveGroupInfoParse fresh content false = .ok fresh' ∧ fresh'.Groups ys ∧
    ∀ q ∈ values ys, (∃ p ∈ values xs, p.number = q.number) ∧
      ∀ p ∈ values xs, p.number = q.number → p = q

theorem fresh_load (c : RegroupText) {fresh : PttInfo} (hf : fresh.Groups [])
    (ht : fresh.transportId = none) :
    ∃ fresh' ys, pttReceiveGroupInfoParse fresh c.text false = .ok fresh' ∧ fresh'.Groups ys ∧
      values ys = afterLines c.rows [] := by
  obtain ⟨fresh', ys, hrun, hg, hys⟩ := loadGroupInfo_ok hf ht c.load_text
  refine ⟨fresh', ys, by simpa [pttReceiveGroupInfoParse] using hrun, hg, ?_⟩
  rw [values_eq, hys, List.map_nil, afterLines_attributes]

theorem agreesWithFreshLoad_iff {info fresh : PttInfo} {cur : List (ℕ × GroupInfo)}
    (c : RegroupText) (h : info.Groups cur) (hd : Deletable info c.text cur) (hf : fresh.Groups [])
    (ht : fresh.transportId = none) :
    AgreesWithFreshLoad info fresh c.text ↔ ∀ q ∈ afterLines c.rows [],
      (∃ p ∈ afterRegroup c.text cur c.rows, p.number = q.number) ∧
        ∀ p ∈ afterRegroup c.text cur c.rows, p.number = q.number → p = q := by
  obtain ⟨info', xs, hrun, hg, hxs⟩ := cleanup_ok h hd c.load_text c.merge_text
  obtain ⟨fresh', ys, hload, hg', hys⟩ := fresh_load c hf ht
  have hrun' : pttReceiveGroupInfoParse info c.text true = .ok info' := by
    simpa [pttReceiveGroupInfoParse] using hrun
  rw [← show values xs = afterRegroup c.text cur c.rows from hxs, ← hys]
  constructor
  · rintro ⟨info'', xs', fresh'', ys', hr, hx, hl, hy, hall⟩
    obtain rfl : info' = info'' := by simpa [hrun'] using hr
    obtain rfl : fresh' = fresh'' := by simpa [hload] using hl
    rwa [values_eq xs, hg.unique hx, ← values_eq, values_eq ys,
      hg'.unique hy, ← values_eq]
  · exact fun hall => ⟨info', xs, fresh', ys, hrun', hg, hload, hg', hall⟩

/-- A line with a group under a new name and with a new group. -/
def renamedAndNew : RegroupText where
  lineFeed := true
  rows := [[.sample "X" "2", .sample "C" "3"]]
  emergency := []
  rows_ne := by decide
  row_ne := by decide
  clean := by decide
  emergency_free := by decide

end PttTerminal
