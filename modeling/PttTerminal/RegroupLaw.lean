import PttTerminal.RegroupDelete
import PttTerminal.RegroupOrder

/-!
# What a regroup message makes of the list

The deletion pass decides by a search for text and the merger by comparing numbers, so that the
list after a regroup message is the one the message describes only under conditions on both.
-/
namespace PttTerminal

open Loops LinkedCells

/-- The groups that the deletion pass keeps. -/
def kept (content : Bytes) (cur : List (ℕ × GroupInfo)) : List (ℕ × GroupInfo) :=
  cur.filter fun p => mentions content p.2

/-- Nothing is deleted, or the session is in order. -/
def Deletable (info : PttInfo) (content : Bytes) (cur : List (ℕ × GroupInfo)) : Prop :=
  (∀ p ∈ cur, mentions content p.2 = true) ∨ info.SessionReadable

/-- What holds of the list through a regroup message: groups are removed, added and dropped, the
head is set, and the groups are reported; without a group, everything is set back. -/
structure RegroupRule (P : PttInfo → List (ℕ × GroupInfo) → Prop) : Prop extends MergeRule P where
  removed : ∀ {info info' y l rs}, P info (l ++ y :: rs) → Removed info info' y → P info' (l ++ rs)
  head : ∀ {info xs} head, P info xs → P { info with generalGroup := head } xs
  report : ∀ {info xs} groups, P info xs →
    P { info with effects := .receiveGroupInfo groups :: info.effects } xs
  reset : ∀ {info}, P info [] →
    P (groupInfoInit (bzeroPttInfo { info with generalGroup := none, transportId := none })) []

theorem regroupRule_true : RegroupRule fun _ _ => True where
  added _ _ := trivial
  dropped _ _ _ := trivial
  removed _ _ := trivial
  head _ _ := trivial
  report _ _ := trivial
  reset _ := trivial

section cleanup

variable {info : PttInfo} {content : Bytes} {cur : List (ℕ × GroupInfo)}
  {P : PttInfo → List (ℕ × GroupInfo) → Prop}

/-- When no group is kept, the content is loaded as the first one. -/
theorem cleanup_none (hrule : RegroupRule P) (h : info.Groups cur) (hP : P info cur)
    (hd : Deletable info content cur) (hk : kept content cur = []) :
    ∃ info₁, cleanupOnRegroup info content = loadGroupInfo info₁ content ∧ info₁.Groups [] ∧
      P info₁ [] ∧ info₁.transportId = none := by
  obtain ⟨info', hdel, hg, hP'⟩ := deleteGroups_rule (fun _ _ _ _ _ => hrule.removed)
    (fun _ _ => hrule.head) h hP hd
  rw [show (cur.filter fun p => mentions content p.2) = [] from hk] at hg hP'
  have hgen : info'.generalGroup = none := hg.holds
  refine ⟨groupInfoInit (bzeroPttInfo { info' with generalGroup := none, transportId := none }), ?_,
    ⟨rfl, hg.bounded⟩, hrule.reset hP', rfl⟩
  simp only [cleanupOnRegroup, hdel, ok_bind, hgen, groupInfoDestroy,
    pttMediaTransportDestroy, pure,
    Except.pure]

/-- When some group is kept, the content is merged into the list of the kept groups. -/
theorem cleanup_some (hrule : RegroupRule P) (h : info.Groups cur) (hP : P info cur)
    (hd : Deletable info content cur) (hk : kept content cur ≠ []) :
    ∃ info₁ head, cleanupOnRegroup info content =
        (loop .hang (mergeBody head) (content.length + 1)
          (info₁, head, content) >>= receiveGroupInfo) ∧
      Merging P info₁ head head ((kept content cur).map fun p => p.2.attributes, 0) := by
  obtain ⟨info', hdel, hg, hP'⟩ := deleteGroups_rule (fun _ _ _ _ _ => hrule.removed)
    (fun _ _ => hrule.head) h hP hd
  obtain ⟨x, xs, hx⟩ := List.exists_cons_of_ne_nil hk
  have hg' : info'.Groups (x :: xs) := by rw [← hx]; exact hg
  have hP'' : P info' (x :: xs) := by rw [← hx]; exact hP'
  have hgen : info'.generalGroup = some x.1 := hg'.holds.1
  refine ⟨info', x.1, ?_, x, xs, x, hg', hP'', rfl, rfl, rfl, by rw [hx]⟩
  simp only [cleanupOnRegroup, hdel, ok_bind, hgen]

theorem cleanup_error (h : info.Groups cur) (hd : ¬ Deletable info content cur) :
    ∃ e, cleanupOnRegroup info content = .error e := by
  rw [Deletable, not_or] at hd
  obtain ⟨e, he⟩ := deleteGroups_error h hd.1 hd.2
  exact ⟨e, by simp [cleanupOnRegroup, he, bind, Except.bind]⟩

theorem merging_attributes {head node : ℕ} {s : List GroupInfo × ℕ}
    (h : Merging P info head node s) :
    ∃ xs, info.Groups xs ∧ P info xs ∧ xs.map (fun p => p.2.attributes) = s.1 := by
  obtain ⟨x, xs, y, hg, hP, -, -, -, hs⟩ := h
  exact ⟨x :: xs, hg, hP, hs⟩

theorem attributes_group (t : GroupText) : t.group.attributes = t.group := rfl

/-- The list after the pass, without its transports. -/
def afterRegroup (content : Bytes) (cur : List (ℕ × GroupInfo)) (rows : List (List GroupText)) :
    List GroupInfo :=
  if kept content cur = [] then afterLines rows []
  else (mergeRows ((kept content cur).map fun p => p.2.attributes, 0)
    (rows.map (List.map GroupText.group))).1

theorem afterLines_attributes (rows : List (List GroupText)) :
    (afterLines rows []).map GroupInfo.attributes = afterLines rows [] := by
  unfold afterLines afterLine
  cases rows.getLast? <;> simp [Function.comp_def, attributes_group]

/-- A content that both readers take in the same lines. -/
theorem cleanup_ok (h : info.Groups cur) (hd : Deletable info content cur)
    {rows : List (List GroupText)} (hl : Lines LoadLine rows content)
    (hm : Lines MergeLine rows content) :
    ∃ info' xs, cleanupOnRegroup info content = .ok info' ∧ info'.Groups xs ∧
      xs.map (fun p => p.2.attributes) = afterRegroup content cur rows := by
  by_cases hk : kept content cur = []
  · obtain ⟨info₁, hrun, hg, -, ht⟩ := cleanup_none regroupRule_true h trivial hd hk
    obtain ⟨info', ys, hload, hg', hys⟩ := loadGroupInfo_ok hg ht hl
    refine ⟨info', ys, by rw [hrun, hload], hg', ?_⟩
    rw [afterRegroup, if_pos hk, ← afterLines_attributes, show afterLines rows [] =
      afterLines rows (([] : List (ℕ × GroupInfo)).map Prod.snd) from rfl, ← hys, List.map_map]
    rfl
  · obtain ⟨info₁, head, hrun, hmerge⟩ := cleanup_some regroupRule_true h trivial hd hk
    obtain ⟨info₂, node, hloop, h₂⟩ :=
      mergeLoop_lines regroupRule_true.toMergeRule hm (Nat.lt_succ_self _) hmerge
    obtain ⟨xs, hg, -, hxs⟩ := merging_attributes h₂
    obtain ⟨groups, he⟩ := receiveGroupInfo_ok hg
    refine ⟨{ info₂ with effects := .receiveGroupInfo groups :: info₂.effects }, xs, ?_,
      ⟨hg.holds, hg.bounded⟩, ?_⟩
    · rw [hrun, hloop, ok_bind, he]
    · rw [hxs, afterRegroup, if_neg hk]

/-- The pass comes to its end exactly on the contents that the reader it chooses can read. -/
theorem cleanup_isOk (h : info.Groups cur) :
    (∃ info', cleanupOnRegroup info content = .ok info') ↔ Deletable info content cur ∧
      if kept content cur = [] then ∃ rows, Lines LoadLine rows content
      else ∃ rows, Lines MergeLine rows content := by
  by_cases hd : Deletable info content cur
  · simp only [hd, true_and]
    split_ifs with hk
    · obtain ⟨info₁, hrun, hg, -, ht⟩ := cleanup_none regroupRule_true h trivial hd hk
      rw [hrun]
      exact loadGroupInfo_isOk hg ht
    · obtain ⟨info₁, head, hrun, hmerge⟩ := cleanup_some regroupRule_true h trivial hd hk
      rw [hrun]
      constructor
      · rintro ⟨info', hok⟩
        obtain ⟨info₂, hloop, -⟩ := bind_eq_ok.mp hok
        exact mergeLoop_sound hloop
      · rintro ⟨rows, hrows⟩
        obtain ⟨info₂, node, hloop, h₂⟩ :=
          mergeLoop_lines regroupRule_true.toMergeRule hrows (Nat.lt_succ_self _) hmerge
        obtain ⟨xs, hg, -, -⟩ := merging_attributes h₂
        obtain ⟨e, he⟩ := receiveGroupInfo_ok hg
        exact ⟨_, by rw [hloop, ok_bind, he]⟩
  · obtain ⟨e, he⟩ := cleanup_error h hd
    simp [he, hd]

/-- What a regroup message makes of the list: the one it was merged into, or one that was loaded
when no group was kept. -/
theorem cleanup_rule (hrule : RegroupRule P) {info' : PttInfo} (h : info.Groups cur)
    (hP : P info cur)
    (hrun : cleanupOnRegroup info content = .ok info') :
    (∃ ys, info'.Groups ys ∧ P info' ys) ∨
      kept content cur = [] ∧ ∃ info₁, info₁.Groups [] ∧ P info₁ [] ∧ info₁.transportId = none ∧
        loadGroupInfo info₁ content = .ok info' := by
  obtain ⟨hd, hl⟩ := (cleanup_isOk h).mp ⟨info', hrun⟩
  by_cases hk : kept content cur = []
  · obtain ⟨info₁, heq, hg, hP₁, ht⟩ := cleanup_none hrule h hP hd hk
    exact .inr ⟨hk, info₁, hg, hP₁, ht, heq ▸ hrun⟩
  · rw [if_neg hk] at hl
    obtain ⟨rows, hrows⟩ := hl
    obtain ⟨info₁, head, heq, hmerge⟩ := cleanup_some hrule h hP hd hk
    obtain ⟨info₂, node, hloop, h₂⟩ := mergeLoop_lines hrule.toMergeRule hrows (Nat.lt_succ_self _)
      hmerge
    obtain ⟨xs, hg, hP₂, -⟩ := merging_attributes h₂
    obtain ⟨groups, he⟩ := receiveGroupInfo_ok hg
    rw [heq, hloop, ok_bind, he] at hrun
    cases hrun
    exact .inl ⟨xs, ⟨hg.holds, hg.bounded⟩, hrule.report groups hP₂⟩

theorem cleanup_groups {info' : PttInfo} (h : info.Groups cur)
    (hrun : cleanupOnRegroup info content = .ok info') : ∃ ys, info'.Groups ys := by
  obtain ⟨ys, hg, -⟩ | ⟨-, info₁, hg, -, -, hload⟩ := cleanup_rule regroupRule_true h trivial hrun
  · exact ⟨ys, hg⟩
  · exact loadGroupInfo_groups hg hload

end cleanup

end PttTerminal
