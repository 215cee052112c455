import PttTerminal.GroupListMerge

/-!
# Which searches of the merger miss a number

The numbers that were met so far stand in the list in the order of their first occurrences. The
search for the first number of a line starts at the last number before it if that one was in the
list already, and then it does not see the numbers in front.
-/
namespace PttTerminal

def numbers (gs : List GroupInfo) : List Bytes := gs.map GroupInfo.number

/-- The last number met had been met before, and `x` was met even earlier. -/
def Missed (seen : List Bytes) (x : Bytes) : Prop :=
  ∃ l y, seen = l ++ [y] ∧ y ∈ l ∧ seen.idxOf x < seen.idxOf y

theorem not_missed_new {l : List Bytes} {x y : Bytes} (h : y ∉ l) : ¬ Missed (l ++ [y]) x := by
  rintro ⟨l', y', hl, hy, -⟩
  obtain ⟨rfl, rfl⟩ : l = l' ∧ y = y' := by simpa using hl
  exact h hy

/-- No line starts with a number that its search misses. -/
def NoneMissed (seen : List Bytes) (rows : List (List Bytes)) : Prop :=
  ∀ pre x row post, rows = pre ++ (x :: row) :: post → ¬ Missed (seen ++ pre.flatten) x

theorem noneMissed_cons {seen row : List Bytes} {rows : List (List Bytes)} :
    NoneMissed seen (row :: rows) ↔
      (∀ x tl, row = x :: tl → ¬ Missed seen x) ∧ NoneMissed (seen ++ row) rows := by
  constructor
  · intro h
    refine ⟨fun x tl hrow => ?_, fun pre x tl post hrows => ?_⟩
    · simpa using h [] x tl rows (by simp [hrow])
    · simpa using h (row :: pre) x tl post (by simp [hrows])
  · rintro ⟨hfirst, hrest⟩ pre x tl post hrows
    cases pre with
    | nil =>
      obtain ⟨rfl, rfl⟩ : row = x :: tl ∧ rows = post := by simpa using hrows
      simpa using hfirst x tl rfl
    | cons p pre =>
      obtain ⟨rfl, rfl⟩ : row = p ∧ rows = pre ++ (x :: tl) :: post := by simpa using hrows
      simpa using hrest pre x tl post rfl

/-- `xs` holds the numbers met so far, each once, in the order of their first occurrences. -/
structure InOrder (seen xs : List Bytes) : Prop where
  nodup : xs.Nodup
  mem : ∀ n, n ∈ xs ↔ n ∈ seen
  order : ∀ a ∈ seen, ∀ b ∈ seen, (xs.idxOf a < xs.idxOf b ↔ seen.idxOf a < seen.idxOf b)

/-- The place at which the search for the first number of the next line starts. -/
structure SearchStart (seen : List Bytes) (s : List GroupInfo × ℕ) : Prop where
  again : ∀ l y, seen = l ++ [y] → y ∈ l → s.2 = (numbers s.1).idxOf y
  new : ∀ l y, seen = l ++ [y] → y ∉ l → s.2 = 0
  start : seen = [] → s.2 = 0

theorem InOrder.refl {xs : List Bytes} (h : xs.Nodup) : InOrder xs xs :=
  ⟨h, fun _ => Iff.rfl, fun _ _ _ _ => Iff.rfl⟩

theorem InOrder.again {seen xs : List Bytes} {x : Bytes} (h : InOrder seen xs) (hx : x ∈ seen) :
    InOrder (seen ++ [x]) xs where
  nodup := h.nodup
  mem := fun n => by
    rw [h.mem]
    simp only [List.mem_append, List.mem_singleton]
    exact ⟨.inl, fun hn => hn.elim id fun hn => hn ▸ hx⟩
  order := fun a ha b hb => by
    have hin : ∀ n, n ∈ seen ++ [x] → n ∈ seen := by
      intro n hn
      rcases List.mem_append.mp hn with hn | hn
      · exact hn
      · exact List.mem_singleton.mp hn ▸ hx
    rw [List.idxOf_append_of_mem (hin a ha), List.idxOf_append_of_mem (hin b hb)]
    exact h.order a (hin a ha) b (hin b hb)

theorem InOrder.new {seen xs : List Bytes} {x : Bytes} (h : InOrder seen xs) (hx : x ∉ seen) :
    InOrder (seen ++ [x]) (xs ++ [x]) := by
  have hx' : x ∉ xs := fun hmem => hx ((h.mem x).mp hmem)
  have hlt : ∀ {l : List Bytes} {n}, n ∈ l → l.idxOf n < l.length := List.idxOf_lt_length_of_mem
  refine ⟨?_, fun n => ?_, fun a ha b hb => ?_⟩
  · rw [List.nodup_append]
    refine ⟨h.nodup, by simp, ?_⟩
    rintro a ha b hb rfl
    exact hx' (List.mem_singleton.mp hb ▸ ha)
  · simp only [List.mem_append, List.mem_singleton, h.mem]
  · have hlast : ∀ l : List Bytes, x ∉ l → (l ++ [x]).idxOf x = l.length := by
      intro l hl
      rw [List.idxOf_append_of_notMem hl]
      simp
    simp only [List.mem_append, List.mem_singleton] at ha hb
    rcases ha with ha | rfl <;> rcases hb with hb | rfl
    · rw [List.idxOf_append_of_mem ha, List.idxOf_append_of_mem hb,
        List.idxOf_append_of_mem ((h.mem a).mpr ha), List.idxOf_append_of_mem ((h.mem b).mpr hb)]
      exact h.order a ha b hb
    · rw [List.idxOf_append_of_mem ha, List.idxOf_append_of_mem ((h.mem a).mpr ha),
        hlast _ hx, hlast _ hx']
      have h1 := hlt ha
      have h2 := hlt ((h.mem a).mpr ha)
      exact ⟨fun _ => h1, fun _ => h2⟩
    · rw [List.idxOf_append_of_mem hb, List.idxOf_append_of_mem ((h.mem b).mpr hb),
        hlast _ hx, hlast _ hx']
      have h1 := hlt hb
      have h2 := hlt ((h.mem b).mpr hb)
      omega
    · exact ⟨fun h => absurd h (lt_irrefl _), fun h => absurd h (lt_irrefl _)⟩

section merging

variable {s : List GroupInfo × ℕ} {g : GroupInfo} {seen : List Bytes}

/-- Where the search from place `s.2` finds a number. -/
theorem findIdx_drop {x : Bytes} (hle : s.2 ≤ (numbers s.1).idxOf x) :
    s.2 + (s.1.drop s.2).findIdx (fun h => h.number = x) = (numbers s.1).idxOf x := by
  have hidx : (s.1.drop s.2).findIdx (fun h => h.number = x) =
      ((numbers s.1).drop s.2).idxOf x := by
    rw [numbers, ← List.map_drop, List.idxOf, List.findIdx_map]
    congr 1
    funext h
    by_cases hx : h.number = x <;> simp [hx]
  have hnot : x ∉ (numbers s.1).take s.2 := by
    intro hmem
    have hlt := List.idxOf_lt_length_of_mem hmem
    have heq : (numbers s.1).idxOf x = ((numbers s.1).take s.2).idxOf x := by
      conv_lhs => rw [← List.take_append_drop s.2 (numbers s.1)]
      exact List.idxOf_append_of_mem hmem
    rw [List.length_take] at hlt
    omega
  have hlen : ((numbers s.1).take s.2).length = s.2 := by
    have := List.idxOf_le_length (a := x) (l := numbers s.1)
    rw [List.length_take]
    omega
  have : ((numbers s.1).take s.2 ++ (numbers s.1).drop s.2).idxOf x =
      ((numbers s.1).take s.2).length + ((numbers s.1).drop s.2).idxOf x :=
    List.idxOf_append_of_notMem hnot
  rw [List.take_append_drop, hlen] at this
  rw [hidx, this]

/-- A search that starts at or before the number finds it. -/
theorem mergeOne_found (hmem : g.number ∈ numbers s.1) (hle : s.2 ≤ (numbers s.1).idxOf g.number) :
    mergeOne s g = (s.1, (numbers s.1).idxOf g.number) := by
  have hlt : (numbers s.1).idxOf g.number < s.1.length := by
    simpa [numbers] using List.idxOf_lt_length_of_mem hmem
  simp only [mergeOne, findIdx_drop hle, hlt, if_true]

/-- A number that is not there, or only before the start, is appended. -/
theorem mergeOne_append (hnot : g.number ∉ (numbers s.1).drop s.2) (hs : s.2 ≤ s.1.length) :
    mergeOne s g = (s.1 ++ [g], 0) := by
  have hidx : (s.1.drop s.2).findIdx (fun h => h.number = g.number) = (s.1.drop s.2).length := by
    rw [List.findIdx_eq_length]
    intro h hh
    rw [decide_eq_false_iff_not]
    intro he
    refine hnot ?_
    rw [numbers, ← List.map_drop, ← he]
    exact List.mem_map_of_mem hh
  have hlt : ¬ s.2 + (s.1.drop s.2).length < s.1.length := by
    rw [List.length_drop]
    omega
  simp only [mergeOne, hidx, hlt, if_false]

/-- The list so far, and the place of the next first search. -/
structure Tracks (seen : List Bytes) (s : List GroupInfo × ℕ) : Prop where
  inOrder : InOrder seen (numbers s.1)
  place : SearchStart seen s
  le : s.2 ≤ s.1.length

theorem Tracks.start {gs : List GroupInfo} (h : (numbers gs).Nodup) : Tracks (numbers gs)
    (gs, 0) where
  inOrder := .refl h
  place := by
    refine ⟨fun l y hl hy => ?_, fun _ _ _ _ => rfl, fun _ => rfl⟩
    rw [hl, List.nodup_append] at h
    exact absurd rfl (h.2.2 y hy y (by simp))
  le := Nat.zero_le _

/-- A search that does not miss its number keeps the list in order. -/
theorem Tracks.after_one (h : InOrder seen (numbers s.1)) (hs : s.2 ≤ s.1.length)
    (hle : g.number ∈ seen → s.2 ≤ (numbers s.1).idxOf g.number) :
    Tracks (seen ++ [g.number]) (mergeOne s g) := by
  by_cases hx : g.number ∈ seen
  · have hmem := (h.mem _).mpr hx
    have hlt : (numbers s.1).idxOf g.number < s.1.length := by
      simpa [numbers] using List.idxOf_lt_length_of_mem hmem
    rw [mergeOne_found hmem (hle hx)]
    refine ⟨h.again hx, ⟨fun l y hl _ => ?_, fun l y hl hy => ?_, by simp⟩, hlt.le⟩
    · obtain ⟨-, rfl⟩ : seen = l ∧ g.number = y := by simpa using hl
      rfl
    · obtain ⟨rfl, rfl⟩ : seen = l ∧ g.number = y := by simpa using hl
      exact absurd hx hy
  · have hnot : g.number ∉ (numbers s.1).drop s.2 := fun hmem =>
      hx ((h.mem _).mp (List.mem_of_mem_drop hmem))
    rw [mergeOne_append hnot hs]
    have hnums : numbers (s.1 ++ [g]) = numbers s.1 ++ [g.number] := by simp [numbers]
    refine ⟨hnums ▸ h.new hx, ⟨fun l y hl hy => ?_, fun _ _ _ _ => rfl, fun _ => rfl⟩,
      Nat.zero_le _⟩
    obtain ⟨rfl, rfl⟩ : seen = l ∧ g.number = y := by simpa using hl
    exact absurd hy hx

theorem Tracks.after_rest (h : Tracks seen s) (row : List GroupInfo) :
    Tracks (seen ++ numbers row) (mergeRest s row) := by
  induction row generalizing s seen with
  | nil => simpa [numbers, mergeRest] using h
  | cons g row ih =>
    have h₁ :=
      Tracks.after_one (s := (s.1, 0)) (g := g) h.inOrder (Nat.zero_le _) fun _ => Nat.zero_le _
    have := ih h₁
    simpa [numbers, mergeRest] using this

/-- A first search that misses nothing starts at or before its number. -/
theorem Tracks.place_le {x : Bytes} (h : Tracks seen s) (hx : x ∈ seen) (hm : ¬ Missed seen x) :
    s.2 ≤ (numbers s.1).idxOf x := by
  rcases List.eq_nil_or_concat seen with rfl | ⟨l, y, hl⟩
  · simp at hx
  rw [List.concat_eq_append] at hl
  by_cases hy : y ∈ l
  · rw [h.place.again l y hl hy]
    by_contra hlt
    have hys : y ∈ seen := by rw [hl]; simp
    exact hm ⟨l, y, hl, hy, (h.inOrder.order x hx y hys).mp (by omega)⟩
  · rw [h.place.new l y hl hy]
    exact Nat.zero_le _

/-- A first search that misses its number appends it a second time. -/
theorem Tracks.missed_one (h : Tracks seen s) (hm : Missed seen g.number) :
    ¬ (numbers (mergeOne s g).1).Nodup := by
  obtain ⟨l, y, hl, hy, hlt⟩ := hm
  have hys : y ∈ seen := by rw [hl]; simp
  have hxs : g.number ∈ seen := by
    by_contra hx
    rw [List.idxOf_eq_length hx] at hlt
    have := List.idxOf_lt_length_of_mem hys
    omega
  have hmem := (h.inOrder.mem _).mpr hxs
  have hidx : (numbers s.1).idxOf g.number < s.2 := by
    rw [h.place.again l y hl hy]
    exact (h.inOrder.order _ hxs _ hys).mpr hlt
  have hnot : g.number ∉ (numbers s.1).drop s.2 := by
    intro hdrop
    have htake : g.number ∈ (numbers s.1).take s.2 := by
      rw [List.mem_take_iff_idxOf_lt hmem]
      exact hidx
    have hnd := h.inOrder.nodup
    rw [← List.take_append_drop s.2 (numbers s.1), List.nodup_append] at hnd
    exact hnd.2.2 _ htake _ hdrop rfl
  rw [mergeOne_append hnot h.le]
  have hnums : numbers (s.1 ++ [g]) = numbers s.1 ++ [g.number] := by simp [numbers]
  rw [hnums, List.nodup_append]
  exact fun hnd => hnd.2.2 _ hmem _ (by simp) rfl

/-! ### A line on its own -/

/-- A search that starts at the head appends exactly the numbers that are not there. -/
theorem mergeOne_head (gs : List GroupInfo) (g : GroupInfo) :
    (mergeOne (gs, 0) g).1 = if g.number ∈ numbers gs then gs else gs ++ [g] := by
  split_ifs with hmem
  · rw [mergeOne_found hmem (Nat.zero_le _)]
  · rw [mergeOne_append (by simpa using hmem) (Nat.zero_le _)]

/-- A line of different numbers adds its new ones, in their order. -/
theorem mergeRest_list {row : List GroupInfo} (hnd : (numbers row).Nodup) (s : List GroupInfo × ℕ) :
    (mergeRest s row).1 = s.1 ++ row.filter fun g => g.number ∉ numbers s.1 := by
  induction row generalizing s with
  | nil => simp [mergeRest]
  | cons g row ih =>
    obtain ⟨hg, hrow⟩ := List.nodup_cons.mp (show (g.number :: numbers row).Nodup from hnd)
    have hstep : (mergeRest s (g :: row)).1 = (mergeRest (mergeOne (s.1, 0) g) row).1 := rfl
    rw [hstep, ih hrow, mergeOne_head]
    split_ifs with hmem
    · rw [List.filter_cons_of_neg (by simpa using hmem)]
    · rw [List.filter_cons_of_pos (by simpa using hmem), List.append_assoc, List.singleton_append]
      congr 2
      refine List.filter_congr fun h hh => ?_
      have hne : h.number ≠ g.number := by
        rintro he
        exact hg (he ▸ List.mem_map_of_mem hh)
      simp [numbers, hne]

theorem mergeRow_list {row : List GroupInfo} (hnd : (numbers row).Nodup) (gs : List GroupInfo) :
    (mergeRow (gs, 0) row).1 = gs ++ row.filter fun g => g.number ∉ numbers gs := by
  rw [← mergeRest_list hnd (gs, 0)]
  cases row with
  | nil => rfl
  | cons g row => rfl

/-! ### Nothing is ever taken out -/

theorem prefix_mergeOne (s : List GroupInfo × ℕ) (g : GroupInfo) : s.1 <+: (mergeOne s g).1 := by
  unfold mergeOne
  dsimp only
  split_ifs
  · exact List.prefix_refl _
  · exact List.prefix_append _ _

theorem prefix_mergeRest (s : List GroupInfo × ℕ) (row : List GroupInfo) :
    s.1 <+: (mergeRest s row).1 := by
  induction row generalizing s with
  | nil => exact List.prefix_refl _
  | cons g row ih => exact (prefix_mergeOne (s.1, 0) g).trans (ih _)

theorem prefix_mergeRow (s : List GroupInfo × ℕ) (row : List GroupInfo) :
    s.1 <+: (mergeRow s row).1 := by
  cases row with
  | nil => exact List.prefix_refl _
  | cons g row => exact (prefix_mergeOne s g).trans (prefix_mergeRest _ row)

theorem prefix_mergeRows (s : List GroupInfo × ℕ) (rows : List (List GroupInfo)) :
    s.1 <+: (mergeRows s rows).1 := by
  induction rows generalizing s with
  | nil => exact List.prefix_refl _
  | cons row rows ih => exact (prefix_mergeRow s row).trans (ih _)

theorem not_nodup_of_prefix {gs hs : List GroupInfo} (h : gs <+: hs) (hn : ¬ (numbers gs).Nodup) :
    ¬ (numbers hs).Nodup := fun hnd => hn (hnd.sublist (h.map _).sublist)

/-! ### All lines -/

theorem Tracks.after_rows {rows : List (List GroupInfo)} (h : Tracks seen s)
    (hm : NoneMissed seen (rows.map numbers)) :
    InOrder (seen ++ (rows.map numbers).flatten) (numbers (mergeRows s rows).1) := by
  induction rows generalizing s seen with
  | nil => simpa [mergeRows] using h.inOrder
  | cons row rows ih =>
    rw [List.map_cons, noneMissed_cons] at hm
    cases row with
    | nil =>
      have := ih h (by simpa [numbers] using hm.2)
      simpa [mergeRows, mergeRow, numbers] using this
    | cons g row =>
      have hg : ¬ Missed seen g.number := hm.1 g.number (numbers row) rfl
      have h₁ := (Tracks.after_one h.inOrder h.le fun hx => h.place_le hx hg).after_rest row
      have := ih h₁ (by simpa [numbers] using hm.2)
      simpa [mergeRows, mergeRow, numbers] using this

theorem Tracks.missed_rows {rows : List (List GroupInfo)} (h : Tracks seen s)
    (hm : ¬ NoneMissed seen (rows.map numbers)) : ¬ (numbers (mergeRows s rows).1).Nodup := by
  induction rows generalizing s seen with
  | nil =>
    refine absurd ?_ hm
    rintro pre x row post hrows
    simp at hrows
  | cons row rows ih =>
    rw [List.map_cons, noneMissed_cons] at hm
    cases row with
    | nil =>
      refine ih h fun hno => hm ⟨?_, by simpa [numbers] using hno⟩
      rintro x tl htl
      simp [numbers] at htl
    | cons g row =>
      by_cases hg : Missed seen g.number
      · exact not_nodup_of_prefix ((prefix_mergeRest _ row).trans (prefix_mergeRows _ rows))
          (h.missed_one hg)
      · have h₁ := (Tracks.after_one h.inOrder h.le fun hx => h.place_le hx hg).after_rest row
        refine ih h₁ fun hno => hm ⟨?_, by simpa [numbers] using hno⟩
        rintro x tl htl
        obtain ⟨rfl, -⟩ : g.number = x ∧ numbers row = tl := by simpa [numbers] using htl
        exact hg

end merging

end PttTerminal
