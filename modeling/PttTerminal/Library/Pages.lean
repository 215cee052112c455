import Mathlib.Tactic

/-!
# Pages of a list

A list that is too long is read page by page. What was read so far goes on in order just when the
next page begins where it ends, or when there is no next page.
-/
namespace PttTerminal.Pages

variable {α : Type*} {rows shown : List α} {offset size n : ℕ}

/-- No more than `size` entries from `offset` on. -/
def page (rows : List α) (offset size : ℕ) : List α := (rows.drop offset).take size

theorem page_eq_nil (hsize : 0 < size) : page rows offset size = [] ↔ rows.length ≤ offset := by
  rw [page, List.take_eq_nil_iff, List.drop_eq_nil_iff]
  constructor
  · rintro (h | h)
    · omega
    · exact h
  · exact .inr

/-- A page that begins where the entries shown end is the one that comes next. -/
theorem prefix_append_page (h : shown <+: rows) :
    shown ++ page rows shown.length size <+: rows := by
  obtain ⟨rest, rfl⟩ := h
  rw [page, List.drop_left]
  exact (List.prefix_append_right_inj shown).mpr (List.take_prefix size rest)

/-- Of rows without a duplicate, what is shown stays a beginning with a page exactly when the page
begins where it ends, or is empty. -/
theorem prefix_append_page_iff (hnd : rows.Nodup) (h : shown <+: rows) (hsize : 0 < size) :
    shown ++ page rows offset size <+: rows ↔ offset = shown.length ∨ rows.length ≤ offset := by
  constructor
  · intro hpre
    by_contra hne
    obtain ⟨hne, hlt⟩ := not_or.mp hne
    have hpage : page rows offset size ≠ [] := fun hnil => hlt ((page_eq_nil hsize).mp hnil)
    have hoffset : offset < rows.length := by omega
    -- the row at the offset would stand at the end of what is shown, too
    have hfirst : (shown ++ page rows offset size)[shown.length]? = rows[offset]? := by
      rw [List.getElem?_append_right le_rfl, Nat.sub_self, page, List.getElem?_take_of_lt hsize,
        List.getElem?_drop, Nat.add_zero]
    have hsome : rows[shown.length]? = rows[offset]? := by
      obtain ⟨rest, hrest⟩ := hpre
      have hpos := List.length_pos_iff.mpr hpage
      have hlen : shown.length < (shown ++ page rows offset size).length := by
        rw [List.length_append]
        omega
      rw [← hfirst, ← List.getElem?_append_left hlen, hrest]
    have hlen : shown.length < rows.length := by
      by_contra hge
      rw [List.getElem?_eq_none (by omega), List.getElem?_eq_getElem hoffset] at hsome
      cases hsome
    exact hne ((List.getElem?_inj hlen hnd).mp hsome).symm
  · rintro (rfl | hlen)
    · exact prefix_append_page h
    · rw [(page_eq_nil hsize).mpr hlen, List.append_nil]
      exact h

end PttTerminal.Pages
