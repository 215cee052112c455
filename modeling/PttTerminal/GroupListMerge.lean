import PttTerminal.GroupListLoad

/-!
# What the merger makes of a text

The merger is followed on plain lists: the groups in their order, without their transports, and
the place where the next search for the first group of a line starts.
-/
namespace PttTerminal

open Loops LinkedCells

/-! ### The list without its cells -/

/-- Look for the number of `g` from the given place on; append `g` if it is not there. -/
def mergeOne (s : List GroupInfo × ℕ) (g : GroupInfo) : List GroupInfo × ℕ :=
  let j := s.2 + (s.1.drop s.2).findIdx fun h => h.number = g.number
  if j < s.1.length then (s.1, j) else (s.1 ++ [g], 0)

/-- The groups behind the first one of a line are searched for from the start. -/
def mergeRest (s : List GroupInfo × ℕ) (row : List GroupInfo) : List GroupInfo × ℕ :=
  row.foldl (fun s g => mergeOne (s.1, 0) g) s

def mergeRow (s : List GroupInfo × ℕ) : List GroupInfo → List GroupInfo × ℕ
  | [] => s
  | g :: row => mergeRest (mergeOne s g) row

def mergeRows (s : List GroupInfo × ℕ) (rows : List (List GroupInfo)) : List GroupInfo × ℕ :=
  rows.foldl mergeRow s

def GroupInfo.attributes (g : GroupInfo) : GroupInfo := g.setTransport none

/-- The list in the heap is `s.1`, and `node` is the cell at place `s.2`; `P` holds of its cells. -/
def Merging (P : PttInfo → List (ℕ × GroupInfo) → Prop) (info : PttInfo) (head node : ℕ)
    (s : List GroupInfo × ℕ) : Prop :=
  ∃ x xs y, info.Groups (x :: xs) ∧ P info (x :: xs) ∧ head = x.1 ∧ (x :: xs)[s.2]? = some y ∧
    node = y.1 ∧ (x :: xs).map (fun p => p.2.attributes) = s.1

/-- What is kept when a group is added, and when the record of a known group is dropped. -/
structure MergeRule (P : PttInfo → List (ℕ × GroupInfo) → Prop) : Prop where
  added : ∀ {info info' xs y}, P info xs → Added info info' y → P info' (xs ++ [y])
  dropped : ∀ {info : PttInfo} {xs g}, info.Groups xs → g.transport = none → P info xs →
    P ((info.alloc g).poolRelease info.fresh) xs

section steps

variable {info : PttInfo} {head node : ℕ} {s : List GroupInfo × ℕ}
  {P : PttInfo → List (ℕ × GroupInfo) → Prop}

theorem Merging.at_head (h : Merging P info head node s) : Merging P info head head (s.1, 0) := by
  obtain ⟨x, xs, y, hg, hP, rfl, hy, rfl, hgs⟩ := h
  exact ⟨x, xs, x, hg, hP, rfl, rfl, rfl, hgs⟩

theorem mergeGroup_ok (hrule : MergeRule P) (h : Merging P info head node s) {t : GroupText}
    {r m : Bytes} (ht : Record t r m) :
    ∃ info' node', mergeGroup head info node r = .ok (info', node', m) ∧
      Merging P info' head node' (mergeOne s t.group) := by
  obtain ⟨gs, i⟩ := s
  obtain ⟨x, xs, y, hg, hP, rfl, hy, rfl, rfl⟩ := h
  obtain ⟨hi, hyi⟩ := List.getElem?_eq_some_iff.mp hy
  have hsplit : x :: xs = (x :: xs).take i ++ y :: (x :: xs).drop (i + 1) := by
    conv_lhs => rw [← List.take_append_drop i (x :: xs), List.drop_eq_getElem_cons hi, hyi]
  have hdrop : (x :: xs).drop i = y :: (x :: xs).drop (i + 1) := by
    rw [List.drop_eq_getElem_cons hi, hyi]
  have hg₁ := hg.alloc t.group
  have hsearch := search_eq hg₁ hsplit t.group.number
  rw [← hdrop, List.find?_eq_getElem?_findIdx, List.getElem?_drop] at hsearch
  set j := i + ((x :: xs).drop i).findIdx (fun p => p.2.number = t.group.number) with hj
  have hidx : i + (((x :: xs).map (fun p => p.2.attributes)).drop i).findIdx
      (fun h => h.number = t.group.number) = j := by
    rw [← List.map_drop, List.findIdx_map]
    rfl
  have hparse := pttGroupInfoParse_eq_ok.mpr ⟨t, ht, rfl⟩
  rw [mergeOne, hidx, List.length_map]
  by_cases hlt : j < (x :: xs).length
  · rw [if_pos hlt]
    rw [List.getElem?_eq_getElem hlt] at hsearch
    refine ⟨_, ((x :: xs)[j]).1, ?_, x, xs, (x :: xs)[j], hg.alloc_release t.group,
      hrule.dropped hg rfl hP, rfl, List.getElem?_eq_getElem hlt, rfl, rfl⟩
    simp only [mergeGroup, hparse, ok_bind, hsearch, if_true, pure, Except.pure]
  · rw [if_neg hlt]
    rw [List.getElem?_eq_none (Nat.le_of_not_lt hlt)] at hsearch
    have hfresh := hg.fresh_notMem (i := info.fresh) le_rfl
    obtain ⟨info₂, tr, hcreate, hg₂, hvl₂, hopen⟩ := hg₁.create hfresh
      (by simp [PttInfo.alloc, Store.alloc_nx]) (info.alloc_vl t.group)
    obtain ⟨info₃, hpush, hg₃, heap, hvl₃, rfl⟩ := hg₂.pushBack hfresh hvl₂
    have hadd : Added info info₂ (info.fresh, t.group.setTransport tr) := hopen.added rfl
    refine ⟨_, x.1, ?_, x, xs ++ [(info.fresh, t.group.setTransport tr)], x, hg₃,
      hrule.added hP (hadd.of_vl hvl₃), rfl, rfl, rfl, ?_⟩
    · simp only [mergeGroup, hparse, ok_bind, hsearch, Bool.false_eq_true, if_false, hcreate, hpush,
        pure, Except.pure]
    · simp [GroupInfo.attributes, GroupInfo.setTransport, GroupText.group]

theorem mergeGroup_sound {info' : PttInfo} {node' : ℕ} {r m : Bytes}
    (h : mergeGroup head info node r = .ok (info', node', m)) : ∃ t, Record t r m := by
  simp only [mergeGroup, bind_eq_ok, Prod.exists] at h
  obtain ⟨g, k, hparse, b, n, -, h⟩ := h
  obtain ⟨t, ht, rfl⟩ := pttGroupInfoParse_eq_ok.mp hparse
  refine ⟨t, ?_⟩
  split_ifs at h
  · cases h
    exact ht
  · simp only [bind_eq_ok] at h
    obtain ⟨_, -, _, -, h⟩ := h
    cases h
    exact ht

end steps

/-! ### One line -/

section lines

variable {info info' : PttInfo} {head node : ℕ} {s : List GroupInfo × ℕ} {ts : List GroupText}
  {o : Option (List GroupText)} {c d : UInt8} {r x e m k : Bytes}
  {P : PttInfo → List (ℕ × GroupInfo) → Prop}

theorem mergeMore_records (hrule : MergeRule P) (ht : MoreRecords ts c r d k) {n : ℕ}
    (hf : r.length < n) :
    ∀ {info node s}, Merging P info head node s →
      ∃ info' node', loop .hang (mergeMoreBody head) n (info, node, c, r) =
          .ok (info', node', d, k) ∧
        Merging P info' head node' (mergeRest s (ts.map GroupText.group)) := by
  induction ht generalizing n with
  | stop hc =>
    intro info node s h
    obtain ⟨n, rfl⟩ : ∃ k, n = k + 1 := ⟨n - 1, by omega⟩
    refine ⟨info, node, loop_exit ?_ n, h⟩
    simp only [mergeMoreBody, hc, if_false, pure, Except.pure]
  | @more t ts r d m c k hrec _ ih =>
    intro info node s h
    obtain ⟨n, rfl⟩ : ∃ k, n = k + 1 := ⟨n - 1, by omega⟩
    have hlt := hrec.length_lt
    simp only [List.length_cons] at hlt
    obtain ⟨info₁, node₁, hmerge, h₁⟩ := mergeGroup_ok hrule h.at_head hrec
    have hstep : mergeMoreBody head (info, node, 59, r) = .ok (.next (info₁, node₁, d, m)) := by
      simp only [mergeMoreBody, if_true, hmerge, ok_bind,
        pjScanGetChar_eq_ok.mpr ⟨rfl, hrec.delim_ne_zero⟩, pure, Except.pure]
    rw [loop_next hstep]
    exact ih (n := n) (by omega) h₁

theorem mergeMore_sound {n : ℕ} {t u : PttInfo × ℕ × UInt8 × Bytes}
    (h : loop .hang (mergeMoreBody head) n t = .ok u) :
    ∃ ts, MoreRecords ts t.2.2.1 t.2.2.2 u.2.2.1 u.2.2.2 := by
  induction n generalizing t with
  | zero => simp [loop] at h
  | succ n ih =>
    obtain ⟨info, node, c, r⟩ := t
    by_cases hc : c = 59
    · subst hc
      cases hb : mergeMoreBody head (info, node, 59, r) with
      | error e => simp [loop_fault hb] at h
      | ok ctl =>
        have hb' := hb
        simp only [mergeMoreBody, if_true, bind_eq_ok, Prod.exists] at hb'
        obtain ⟨info₁, node₁, m, hmerge, d, k, hchar, hctl⟩ := hb'
        obtain ⟨t, ht⟩ := mergeGroup_sound hmerge
        obtain ⟨rfl, -⟩ := pjScanGetChar_eq_ok.mp hchar
        cases hctl
        rw [loop_next hb] at h
        obtain ⟨ts, hts⟩ := ih h
        exact ⟨t :: ts, .more ht hts⟩
    · have hb : mergeMoreBody head (info, node, c, r) = .ok (.exit (info, node, c, r)) := by
        simp only [mergeMoreBody, hc, if_false, pure, Except.pure]
      rw [loop_exit hb] at h
      cases h
      exact ⟨[], .stop hc⟩

theorem mergeGeneralGroup_groups (hrule : MergeRule P) (h : Merging P info head node s)
    (hrec : Records ts x c e) (hnl : RestOfLineEnd c e m) :
    ∃ info' node', mergeGeneralGroup head info node (generalLit ++ x) = .ok (info', node', m) ∧
      Merging P info' head node' (mergeRow s (ts.map GroupText.group)) := by
  cases ts with
  | nil => exact hrec.elim
  | cons t ts =>
    obtain ⟨d, k, ht, hmore⟩ := hrec
    obtain ⟨info₁, node₁, hmerge, h₁⟩ := mergeGroup_ok hrule h ht
    obtain ⟨info', node', hrun, h'⟩ := mergeMore_records hrule hmore (n := k.length + 1)
      (Nat.lt_succ_self _) h₁
    refine ⟨info', node', ?_, h'⟩
    simp only [mergeGeneralGroup, getField_general, ok_bind, hmerge,
      pjScanGetChar_eq_ok.mpr ⟨rfl, ht.delim_ne_zero⟩, hrun]
    unfold RestOfLineEnd at hnl
    split_ifs at hnl ⊢
    · simp only [pjScanGetNewline_eq_ok.mpr hnl, ok_bind, pure, Except.pure]
    · rw [hnl]
      rfl

theorem mergeGeneralGroup_sound {node' : ℕ}
    (h : mergeGeneralGroup head info node (generalLit ++ x) = .ok (info', node', m)) :
    ∃ ts c e, Records ts x c e ∧ RestOfLineEnd c e m := by
  simp only [mergeGeneralGroup, getField_general, ok_bind, bind_eq_ok, Prod.exists] at h
  obtain ⟨info₁, node₁, y, hmerge, d, k, hchar, info₂, node₂, c, e, hrun, h⟩ := h
  obtain ⟨t, ht⟩ := mergeGroup_sound hmerge
  obtain ⟨rfl, -⟩ := pjScanGetChar_eq_ok.mp hchar
  obtain ⟨ts, hts⟩ := mergeMore_sound hrun
  refine ⟨t :: ts, c, e, ⟨d, k, ht, hts⟩, ?_⟩
  unfold RestOfLineEnd
  split_ifs at h ⊢
  · simp only [bind_eq_ok, Prod.exists] at h
    obtain ⟨⟨⟩, k', hnl, h⟩ := h
    cases h
    exact pjScanGetNewline_eq_ok.mp hnl
  · cases h
    rfl

theorem mergeBody_eq (hr : r ≠ []) : mergeBody head (info, node, r) =
    if r.length < generalLit.length then .error .syntaxError
    else if generalLit <+: r then (mergeGeneralGroup head info node r).map .next
    else .ok (.next (info, node, skipLine r)) := by
  have hempty : r.isEmpty = false := by simpa using hr
  have hskip : pjScanSkipLine r = .ok ((), skipLine r) := rfl
  have hpre : generalLit.isPrefixOf r = decide (generalLit <+: r) := by
    by_cases h : generalLit <+: r <;> simp [h, Bool.eq_false_iff]
  simp only [mergeBody, hempty, Bool.false_eq_true, if_false]
  change (pjScanStrcmp generalLit r >>= _) = _
  by_cases h1 : r.length < generalLit.length
  · rw [if_pos h1, pjScanStrcmp, if_pos h1]
    rfl
  rw [if_neg h1, pjScanStrcmp, if_neg h1, ok_bind, hpre]
  by_cases hg : generalLit <+: r
  · simp only [hg, decide_true, if_true]
    cases mergeGeneralGroup head info node r <;> rfl
  · simp only [hg, decide_false, Bool.false_eq_true, if_false, hskip, ok_bind]
    rfl

theorem mergeBody_exit {u : PttInfo} :
    mergeBody head (info, node, r) = .ok (.exit u) ↔ r = [] ∧ u = info := by
  by_cases hr : r = []
  · subst hr
    have : mergeBody head (info, node, []) = .ok (.exit info) := rfl
    rw [this]
    simp [eq_comm]
  · rw [mergeBody_eq hr]
    simp only [hr, false_and, iff_false]
    split_ifs
    · simp
    · cases mergeGeneralGroup head info node r <;> simp [Except.map]
    · simp

/-- The list after a line. -/
def mergeLine (s : List GroupInfo × ℕ) (o : Option (List GroupText)) : List GroupInfo × ℕ :=
  mergeRows s (o.toList.map (List.map GroupText.group))

theorem mergeBody_line (hrule : MergeRule P) (h : Merging P info head node s) (hr : r ≠ [])
    (hl : MergeLine o r m) :
    ∃ info' node', mergeBody head (info, node, r) = .ok (.next (info', node', m)) ∧
      Merging P info' head node' (mergeLine s o) := by
  rw [mergeBody_eq hr]
  cases hl with
  | @groups ts x c e m hrec hnl =>
    have hp : generalLit <+: generalLit ++ x := List.prefix_append _ _
    obtain ⟨info', node', hrun, h'⟩ := mergeGeneralGroup_groups hrule h hrec hnl
    rw [if_neg (Nat.not_lt.mpr hp.length_le), if_pos hp, hrun]
    exact ⟨info', node', rfl, h'⟩
  | other hlen hg =>
    rw [if_neg (by omega), if_neg hg]
    exact ⟨info, node, rfl, h⟩

theorem mergeBody_sound {node' : ℕ} (hr : r ≠ [])
    (h : mergeBody head (info, node, r) = .ok (.next (info', node', m))) :
      ∃ o, MergeLine o r m := by
  rw [mergeBody_eq hr] at h
  split_ifs at h with h1 hg
  · obtain ⟨x, rfl⟩ := hg
    cases hrun : mergeGeneralGroup head info node (generalLit ++ x) with
    | error e => simp [hrun, Except.map] at h
    | ok p =>
      simp only [hrun, Except.map, Except.ok.injEq, Ctl.next.injEq] at h
      subst h
      obtain ⟨ts, c, e, hrec, hnl⟩ := mergeGeneralGroup_sound hrun
      exact ⟨some ts, .groups hrec hnl⟩
  · cases h
    exact ⟨none, .other (by omega) hg⟩

end lines

/-! ### The whole text -/

theorem mergeLoop_lines {P : PttInfo → List (ℕ × GroupInfo) → Prop} (hrule : MergeRule P)
    {head : ℕ} {ls : List (List GroupText)} {r : Bytes} (hl : Lines MergeLine ls r) {n : ℕ}
    (hf : r.length < n) :
    ∀ {info node s}, Merging P info head node s →
      ∃ info' node', loop .hang (mergeBody head) n (info, node, r) = .ok info' ∧
        Merging P info' head node' (mergeRows s (ls.map (List.map GroupText.group))) := by
  induction hl generalizing n with
  | nil =>
    intro info node s h
    obtain ⟨n, rfl⟩ : ∃ k, n = k + 1 := ⟨n - 1, by omega⟩
    exact ⟨info, node, loop_exit (mergeBody_exit.mpr ⟨rfl, rfl⟩) n, h⟩
  | @cons o ls r m hr hline _ ih =>
    intro info node s h
    obtain ⟨n, rfl⟩ : ∃ k, n = k + 1 := ⟨n - 1, by omega⟩
    have hlt := hline.length_lt hr
    obtain ⟨info₁, node₁, hstep, h₁⟩ := mergeBody_line hrule h hr hline
    obtain ⟨info', node', hrun, h'⟩ := ih (n := n) (by omega) h₁
    refine ⟨info', node', by rw [loop_next hstep, hrun], ?_⟩
    rw [List.map_append, mergeRows, List.foldl_append]
    exact h'

theorem mergeLoop_sound {head n : ℕ} {t : PttInfo × ℕ × Bytes} {info' : PttInfo}
    (h : loop .hang (mergeBody head) n t = .ok info') : ∃ ls, Lines MergeLine ls t.2.2 := by
  induction n generalizing t with
  | zero => simp [loop] at h
  | succ n ih =>
    obtain ⟨info, node, r⟩ := t
    cases hb : mergeBody head (info, node, r) with
    | error e => simp [loop_fault hb] at h
    | ok ctl =>
      cases ctl with
      | exit u =>
        obtain ⟨rfl, -⟩ := mergeBody_exit.mp hb
        exact ⟨[], .nil⟩
      | next u =>
        rw [loop_next hb] at h
        obtain ⟨ls, hls⟩ := ih h
        have hr : r ≠ [] := by
          rintro rfl
          rw [mergeBody_exit.mpr ⟨rfl, rfl⟩] at hb
          cases hb
        obtain ⟨o, ho⟩ := mergeBody_sound hr hb
        exact ⟨o.toList ++ ls, .cons hr ho hls⟩

end PttTerminal
