import Mathlib.Tactic

/-!
# The users of something shared

Each of finitely many users has a flag, and a counter beside the flags is to tell how many are up.
-/
namespace PttTerminal.Users

variable {ι : Type*} [Fintype ι]

/-- How many flags are up. -/
def users (flag : ι → Bool) : ℕ := (Finset.univ.filter fun i => flag i = true).card

variable {flag : ι → Bool} {i : ι}

@[simp]
theorem users_none : users (fun _ : ι => false) = 0 := by simp [users]

theorem users_pos : 0 < users flag ↔ ∃ i, flag i = true := by
  simp [users, Finset.card_pos, Finset.filter_nonempty_iff]

theorem users_eq_zero : users flag = 0 ↔ ∀ i, flag i = false := by
  simp [users, Finset.card_eq_zero, Finset.filter_eq_empty_iff]

variable [DecidableEq ι]

theorem filter_update_true :
    (Finset.univ.filter fun j => Function.update flag i true j = true) =
      insert i (Finset.univ.filter fun j => flag j = true) := by
  ext j
  by_cases hj : j = i
  · simp [hj]
  · simp [hj]

theorem users_up (h : flag i = false) : users (Function.update flag i true) = users flag + 1 := by
  rw [users, filter_update_true, Finset.card_insert_of_notMem (by simp [h])]
  rfl

theorem users_down (h : flag i = true) :
    users (Function.update flag i false) + 1 = users flag := by
  have hoff : Function.update flag i false i = false := Function.update_self ..
  have hup := users_up hoff
  rw [Function.update_idem, ← h, Function.update_eq_self] at hup
  exact hup.symm

end PttTerminal.Users
