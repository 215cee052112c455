import PttTerminal.GroupListText

/-!
# Printed lines of groups

A line of groups as the server prints it: the groups are separated by semicolons, and no field
holds a delimiter. Both readers take such a line as one line with these groups.
-/
namespace PttTerminal

/-- No field holds a delimiter. -/
structure GroupText.Clean (t : GroupText) : Prop where
  name : Free [44, 59, 58, CR, LF] t.name
  number : Free [44, 59, 58, CR, LF] t.number
  level : Free [44, 59, 58, CR, LF] t.level
  report : Free [44, 59, 58, CR, LF] t.report
  update : Free [44, 59, 58, CR, LF] t.update
  address : Free [44, 59, 58, CR, LF] t.address
  port : Free [44, 59, 58, CR, LF] t.port

instance GroupText.decidableClean (t : GroupText) : Decidable t.Clean :=
  decidable_of_iff (∀ x ∈ [t.name, t.number, t.level, t.report, t.update, t.address, t.port],
    Free [44, 59, 58, CR, LF] x) (by
      simp only [List.forall_mem_cons, List.not_mem_nil, false_imp_iff, implies_true, and_true]
      exact ⟨fun ⟨h₁, h₂, h₃, h₄, h₅, h₆, h₇⟩ => ⟨h₁, h₂, h₃, h₄, h₅, h₆, h₇⟩,
        fun h => ⟨h.name, h.number, h.level, h.report, h.update, h.address, h.port⟩⟩)

/-- The groups of a line, separated by semicolons. -/
def rowText : List GroupText → Bytes
  | [] => []
  | [t] => t.text
  | t :: u :: ts => t.text ++ 59 :: rowText (u :: ts)

def lineText (row : List GroupText) : Bytes := generalLit ++ (rowText row ++ [CR, LF])

/-! ### Both readers take the line -/

theorem GroupText.Clean.delimited {t : GroupText} (h : t.Clean) : t.Delimited where
  name := h.name.mono (by decide)
  number := h.number.mono (by decide)
  level := h.level.mono (by decide)
  report := h.report.mono (by decide)
  update := h.update.mono (by decide)
  address := h.address.mono (by decide)
  port := h.port.mono (by decide)

theorem GroupText.Clean.text_free {t : GroupText} (h : t.Clean) : Free [CR, LF] t.text := by
  have hs : [CR, LF] ⊆ [44, 59, 58, CR, LF] := by decide
  have hcomma : (44 : UInt8) ∉ [CR, LF] := by decide
  refine (h.name.mono hs).append (.cons hcomma ((h.number.mono hs).append (.cons hcomma
    ((h.level.mono hs).append (.cons hcomma ((h.report.mono hs).append (.cons hcomma
      ((h.update.mono hs).append (.cons hcomma ((h.address.mono hs).append (.cons (by decide)
        (h.port.mono hs))))))))))))

theorem GroupText.record {t : GroupText} (h : t.Clean) {d : UInt8} (hd : d ∈ [59, CR, LF])
    (m : Bytes) :
    Record t (t.text ++ d :: m) (d :: m) where
  eq := rfl
  delimited := h.delimited
  more := by simp
  stop := by simpa using hd

theorem records_rowText {row : List GroupText} (hne : row ≠ []) (h : ∀ t ∈ row, t.Clean)
    (m : Bytes) :
    Records row (rowText row ++ CR :: m) CR m := by
  have hcr : (CR : UInt8) ∈ [59, CR, LF] := by decide
  have hmore : ∀ ts : List GroupText, ∀ t, t.Clean → (∀ u ∈ ts, u.Clean) →
      ∃ d k, Record t (rowText (t :: ts) ++ CR :: m) (d :: k) ∧ MoreRecords ts d k CR m := by
    intro ts
    induction ts with
    | nil => exact fun t ht _ => ⟨CR, m, GroupText.record ht hcr m, .stop (by decide)⟩
    | cons u ts ih =>
      intro t ht hts
      obtain ⟨d, k, hu, hk⟩ := ih u (hts u (by simp)) fun v hv => hts v (by simp [hv])
      refine ⟨59, rowText (u :: ts) ++ CR :: m, ?_, .more hu hk⟩
      have := GroupText.record ht (d := 59) (by decide) (rowText (u :: ts) ++ CR :: m)
      simpa [rowText] using this
  cases row with
  | nil => exact absurd rfl hne
  | cons t ts =>
    obtain ⟨d, k, ht, hk⟩ := hmore ts t (h t (by simp)) fun u hu => h u (by simp [hu])
    exact ⟨d, k, ht, hk⟩

/-- The first bytes of a group are no line end. -/
theorem rowText_not_blank {row : List GroupText} (hne : row ≠ []) (h : ∀ t ∈ row, t.Clean)
    (m : Bytes) : crOrSecondLf (rowText row ++ m) = false := by
  obtain ⟨t, k, hk, ht⟩ : ∃ (t : GroupText) (k : Bytes),
    rowText row ++ m = t.text ++ k ∧ t.Clean := by
    match row, hne with
    | [t], _ => exact ⟨t, m, rfl, h t (by simp)⟩
    | t :: u :: ts, _ => exact ⟨t, 59 :: rowText (u :: ts) ++ m, by simp [rowText], h t (by simp)⟩
  have hlen : 2 ≤ t.text.length := by
    simp only [GroupText.text, List.length_append, List.length_cons]
    omega
  rw [hk]
  exact crOrSecondLf_append ht.text_free hlen k

theorem loadLine_lineText {row : List GroupText} (hne : row ≠ [])
    (h : ∀ t ∈ row, t.Clean) {m : Bytes}
    (hm : emergencyLit.length ≤ m.length) : LoadLine (some row) (lineText row ++ m) m := by
  have : LoadLine (some row) (generalLit ++ (rowText row ++ CR :: LF :: m)) m :=
    .groups (rowText_not_blank hne h _) (records_rowText hne h _) (.inr (.inr rfl)) hm
  simpa [lineText] using this

theorem mergeLine_lineText {row : List GroupText} (hne : row ≠ []) (h : ∀ t ∈ row, t.Clean)
    (m : Bytes) : MergeLine (some row) (lineText row ++ m) m := by
  have : MergeLine (some row) (generalLit ++ (rowText row ++ CR :: LF :: m)) m :=
    .groups (records_rowText hne h _) (.inr (.inr rfl))
  simpa [lineText] using this

/-- Nothing stands behind the first line feed when the text ends with it. -/
theorem skipLine_last {a : Bytes} (h : Free [LF] a) : skipLine (a ++ [LF]) = [] := by
  have hsuf := List.dropWhile_suffix (l := a ++ [LF]) fun c => c ≠ LF && c ≠ 0
  unfold skipLine
  split
  · rename_i c rest heq
    rw [heq] at hsuf
    split_ifs with hc
    · subst hc
      obtain ⟨pre, hpre⟩ := hsuf
      rcases List.eq_nil_or_concat rest with rfl | ⟨rest, z, rfl⟩
      · rfl
      · rw [List.concat_eq_append, ← List.cons_append, ← List.append_assoc] at hpre
        have hmem : LF ∈ a := by
          rw [← (List.append_inj' hpre rfl).1]
          simp
        exact absurd (by simp) (h LF hmem)
    · rfl
  · rfl

end PttTerminal
