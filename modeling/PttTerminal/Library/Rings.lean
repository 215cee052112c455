import Mathlib.Tactic

/-!
# Rings of slots

An array of `m` slots that is read round and round: `view` are the slots from `head` on. It loses
slots in front, gets them behind, and is written in between; a stretch of it is at most two stretches
of the array.
-/
namespace PttTerminal.Rings

variable {α β : Type*} {f g : ℕ → α} {m head size k n : ℕ}

/-- The next `size` slots from `head` on. -/
def view (f : ℕ → α) (m head size : ℕ) : List α := (List.range size).map fun k => f ((head + k) % m)

@[simp]
theorem length_view : (view f m head size).length = size := by simp [view]

@[simp]
theorem view_zero : view f m head 0 = [] := rfl

theorem getElem?_view (h : k < size) : (view f m head size)[k]? = some (f ((head + k) % m)) := by
  simp [view, List.getElem?_range h]

theorem mem_view {a : α} : a ∈ view f m head size ↔ ∃ k < size, f ((head + k) % m) = a := by
  simp [view]

theorem view_mod : view f m (head % m) size = view f m head size := by
  simp [view, Nat.mod_add_mod]

theorem view_add (a b : ℕ) : view f m head (a + b) = view f m head a ++ view f m (head + a) b := by
  simp only [view, List.range_add, List.map_append, List.map_map, Function.comp_def, add_assoc]

theorem view_drop (h : n ≤ size) :
    (view f m head size).drop n = view f m (head + n) (size - n) := by
  obtain ⟨k, rfl⟩ := Nat.exists_eq_add_of_le h
  rw [view_add, List.drop_append_of_le_length (by simp), Nat.add_sub_cancel_left]
  simp

theorem view_take (h : n ≤ size) : (view f m head size).take n = view f m head n := by
  obtain ⟨k, rfl⟩ := Nat.exists_eq_add_of_le h
  rw [view_add, List.take_append_of_le_length (by simp)]
  simp

theorem view_congr (h : ∀ k < size, f ((head + k) % m) = g ((head + k) % m)) :
    view f m head size = view g m head size :=
  List.map_congr_left fun k hk => h k (List.mem_range.mp hk)

/-- Two of `m` slots in a row are not the same. -/
theorem slot_inj {j : ℕ} (hk : k < m) (hj : j < m) (h : (head + k) % m = (head + j) % m) : k = j := by
  have hmod : k ≡ j [MOD m] := Nat.ModEq.add_left_cancel' head h
  rwa [Nat.ModEq, Nat.mod_eq_of_lt hk, Nat.mod_eq_of_lt hj] at hmod

theorem view_update (a : α) (hk : k < size) (hsize : size ≤ m) :
    view (Function.update f ((head + k) % m) a) m head size = (view f m head size).set k a := by
  apply List.ext_getElem?
  intro j
  by_cases hj : j < size
  · rw [getElem?_view hj, List.getElem?_set, getElem?_view hj]
    by_cases hkj : k = j
    · subst hkj
      simp [hk]
    · rw [if_neg hkj, Function.update_of_ne]
      exact fun h => hkj (slot_inj (by omega) (by omega) h.symm)
  · rw [List.getElem?_eq_none (by simpa using hj), List.getElem?_eq_none (by simpa using hj)]

/-- A stretch that goes over the end of the array is one up to the end and one from the beginning. -/
theorem view_split (hhead : head ≤ m) (hn : n ≤ m) (f : ℕ → α) :
    view f m head n = (List.range' head (min n (m - head))).map f ++
      (List.range' 0 (n - min n (m - head))).map f := by
  have hfirst : ∀ k ≤ m - head, view f m head k = (List.range' head k).map f := by
    intro k hk
    rw [List.range'_eq_map_range, List.map_map]
    refine List.map_congr_left fun j hj => ?_
    rw [List.mem_range] at hj
    rw [Nat.mod_eq_of_lt (by omega)]
    rfl
  rcases Nat.le_total n (m - head) with h | h
  · rw [min_eq_left h, Nat.sub_self, hfirst n h]
    simp
  · obtain ⟨k, rfl⟩ := Nat.exists_eq_add_of_le h
    rw [min_eq_right h, view_add, hfirst _ le_rfl, Nat.add_sub_cancel_left]
    congr 1
    rw [List.range'_eq_map_range, List.map_map]
    refine List.map_congr_left fun j hj => ?_
    rw [List.mem_range] at hj
    rw [show head + (m - head) + j = j + m by omega, Nat.add_mod_right, Nat.mod_eq_of_lt (by omega)]
    simp

/-- The slots of such a stretch. -/
theorem mem_split {i : ℕ} (hhead : head ≤ m) (hn : n ≤ m) :
    (head ≤ i ∧ i < head + min n (m - head)) ∨ i < n - min n (m - head) ↔
      ∃ k < n, (head + k) % m = i := by
  have hmem : i ∈ view id m head n ↔ ∃ k < n, id ((head + k) % m) = i := mem_view
  rw [view_split hhead hn] at hmem
  simp only [List.map_id, List.mem_append, List.mem_range'_1, Nat.zero_le, true_and, Nat.zero_add,
    id] at hmem
  exact hmem

end PttTerminal.Rings
