import Mathlib.Tactic

/-!
# Texts that are written over one another

A text is written to the start of an array and leaves what stands behind it. After several texts
each place holds what the last text that reaches it brought.
-/
namespace PttTerminal.Overwrites

variable {α : Type*}

def overwrite (buf t : List α) : List α := t ++ buf.drop t.length

def written (buf : List α) (ts : List (List α)) : List α := ts.foldl overwrite buf

/-- The last of the texts that reaches the place `i`, or what was there before. -/
def lastReaching (buf : List α) (ts : List (List α)) (i : ℕ) : List α :=
  (ts.reverse.find? fun t => i < t.length).getD buf

variable {buf t : List α} {ts : List (List α)} {i : ℕ}

@[simp]
theorem written_append : written buf (ts ++ [t]) = overwrite (written buf ts) t := by
  simp [written]

theorem overwrite_getElem? :
    (overwrite buf t)[i]? = if i < t.length then t[i]? else buf[i]? := by
  unfold overwrite
  split_ifs with hi
  · exact List.getElem?_append_left hi
  · rw [List.getElem?_append_right (by omega), List.getElem?_drop]
    congr 1
    omega

/-- Each place holds what the last text that reaches it brought. -/
theorem written_getElem? : (written buf ts)[i]? = (lastReaching buf ts i)[i]? := by
  induction ts using List.reverseRecOn with
  | nil => rfl
  | append_singleton ts t ih =>
    rw [written_append, overwrite_getElem?, ih]
    by_cases hi : i < t.length <;> simp [lastReaching, hi]

end PttTerminal.Overwrites
