import Mathlib.Tactic

/-!
# Binary heaps in an array

The keys of a heap stand in the first `n` slots of an array, and none is smaller than the key of the
slot above. While one key is on its way up or down, every other pair is in order; `UpOrdered` and
`DownOrdered` say what a sift starts with, `move` is one step of it and `finish` its end.
-/
namespace PttTerminal.Heaps

/-- The slot above a slot. The topmost slot is above itself. -/
def parent (i : ℕ) : ℕ := if i = 0 then 0 else (i - 1) / 2

def leftChild (i : ℕ) : ℕ := i + i + 1

theorem parent_lt {i : ℕ} (h : 0 < i) : parent i < i := by
  unfold parent
  split <;> omega

theorem parent_eq_iff {i s : ℕ} (h : 0 < i) :
    parent i = s ↔ i = leftChild s ∨ i = leftChild s + 1 := by
  unfold parent leftChild
  split <;> omega

theorem lt_leftChild (s : ℕ) : s < leftChild s := by
  unfold leftChild
  omega

section Swapped

variable {β : Type*} (k : ℕ → β) (s c : ℕ)

/-- The keys after those of two slots changed their places. -/
def swapped : ℕ → β := k ∘ Equiv.swap s c

@[simp]
theorem swapped_left : swapped k s c s = k c := by simp [swapped]

@[simp]
theorem swapped_right : swapped k s c c = k s := by simp [swapped]

theorem swapped_of_ne {i : ℕ} (hs : i ≠ s) (hc : i ≠ c) : swapped k s c i = k i := by
  simp [swapped, Equiv.swap_apply_of_ne_of_ne hs hc]

end Swapped

variable {α : Type*} [LinearOrder α] {k k' : ℕ → α} {n m s c : ℕ}

def Ordered (k : ℕ → α) (n : ℕ) : Prop := ∀ i, 0 < i → i < n → k (parent i) ≤ k i

/-- The topmost key is a smallest one. -/
theorem Ordered.top_le (h : Ordered k n) {i : ℕ} (hi : i < n) : k 0 ≤ k i := by
  induction i using Nat.strong_induction_on with
  | h i ih =>
    rcases Nat.eq_zero_or_pos i with rfl | hpos
    · exact le_rfl
    · have hp := parent_lt hpos
      exact (ih (parent i) hp (by omega)).trans (h i hpos hi)

/-- Only the key in slot `s` may be smaller than the key above it. -/
structure UpOrdered (k : ℕ → α) (n s : ℕ) : Prop where
  edges : ∀ i, 0 < i → i < n → i ≠ s → k (parent i) ≤ k i
  across : ∀ i, 0 < i → i < n → parent i = s → 0 < s → k (parent s) ≤ k i

/-- Only the key in slot `s` may be greater than a key below it. -/
structure DownOrdered (k : ℕ → α) (n s : ℕ) : Prop where
  edges : ∀ i, 0 < i → i < n → parent i ≠ s → k (parent i) ≤ k i
  across : ∀ i, 0 < i → i < n → parent i = s → 0 < s → k (parent s) ≤ k i

/-! ### On the way up -/

theorem UpOrdered.move (h : UpOrdered k n s) (hs : 0 < s) (hsn : s < n)
    (hlt : k s < k (parent s)) : UpOrdered (swapped k s (parent s)) n (parent s) := by
  have hps := parent_lt hs
  refine ⟨fun i hi hin hne => ?_, fun i hi hin hpi hp => ?_⟩
  · have hpi := parent_lt hi
    by_cases his : i = s
    · subst his
      rw [swapped_left, swapped_right]
      exact hlt.le
    rw [swapped_of_ne k s _ his hne]
    by_cases hp : parent i = s
    · rw [hp, swapped_left]
      exact h.across i hi hin hp hs
    have hle := h.edges i hi hin his
    by_cases hp' : parent i = parent s
    · rw [hp', swapped_right]
      rw [hp'] at hle
      exact hlt.le.trans hle
    · rw [swapped_of_ne k s _ hp hp']
      exact hle
  · have hpp := parent_lt hp
    have hle := h.edges (parent s) hp (by omega) (by omega)
    rw [swapped_of_ne k s _ (i := parent (parent s)) (by omega) (by omega)]
    by_cases his : i = s
    · subst his
      rw [swapped_left]
      exact hle
    · have hpi' := parent_lt hi
      rw [swapped_of_ne k s _ his (by omega)]
      have := h.edges i hi hin his
      rw [hpi] at this
      exact hle.trans this

theorem UpOrdered.finish (h : UpOrdered k n s) (hstop : 0 < s → k (parent s) ≤ k s) :
    Ordered k n := by
  intro i hi hin
  by_cases his : i = s
  · subst his
    exact hstop hi
  · exact h.edges i hi hin his

/-- A key that is put behind the last one may have to go up. -/
theorem Ordered.append (h : Ordered k n) (hk : ∀ i, i < n → k' i = k i) :
    UpOrdered k' (n + 1) n := by
  refine ⟨fun i hi hin hne => ?_, fun i hi hin hpi _ => ?_⟩
  · have hpi := parent_lt hi
    rw [hk i (by omega), hk (parent i) (by omega)]
    exact h i hi (by omega)
  · have := parent_lt hi
    omega

/-! ### On the way down -/

theorem DownOrdered.move (h : DownOrdered k n s) (hc : 0 < c) (hcn : c < n) (hpc : parent c = s)
    (hmin : ∀ i, 0 < i → i < n → parent i = s → k c ≤ k i) (hlt : k c < k s) :
    DownOrdered (swapped k s c) n c := by
  have hsc : s < c := hpc ▸ parent_lt hc
  refine ⟨fun i hi hin hne => ?_, fun i hi hin hpi _ => ?_⟩
  · have hpi := parent_lt hi
    by_cases hic : i = c
    · subst hic
      rw [hpc, swapped_left, swapped_right]
      exact hlt.le
    by_cases his : i = s
    · subst his
      rw [swapped_left, swapped_of_ne k i c (by omega) hne]
      exact h.across c hc hcn hpc hi
    rw [swapped_of_ne k s c his hic]
    by_cases hp : parent i = s
    · rw [hp, swapped_left]
      exact hmin i hi hin hp
    · rw [swapped_of_ne k s c hp hne]
      exact h.edges i hi hin hp
  · have hpi' := parent_lt hi
    rw [hpc, swapped_left, swapped_of_ne k s c (by omega) (by omega), ← hpi]
    exact h.edges i hi hin (by omega)

theorem DownOrdered.finish (h : DownOrdered k n s)
    (hstop : ∀ i, 0 < i → i < n → parent i = s → k s ≤ k i) : Ordered k n := by
  intro i hi hin
  by_cases hp : parent i = s
  · rw [hp]
    exact hstop i hi hin hp
  · exact h.edges i hi hin hp

/-! ### Replacing a key -/

/-- A key that replaces another one and is not smaller than the key above may have to go down. -/
theorem Ordered.replace_down (h : Ordered k n) (hm : m ≤ n) (hs : s < n)
    (hk : ∀ i, i < m → i ≠ s → k' i = k i) (hsm : s < m)
    (hle : 0 < s → k' (parent s) ≤ k' s) : DownOrdered k' m s := by
  refine ⟨fun i hi him hne => ?_, fun i hi him hpi hpos => ?_⟩
  · have hpi := parent_lt hi
    by_cases his : i = s
    · subst his
      exact hle hi
    · rw [hk i him his, hk (parent i) (by omega) hne]
      exact h i hi (by omega)
  · have hps := parent_lt hpos
    have hpi' := parent_lt hi
    rw [hk i him (by omega), hk (parent s) (by omega) (by omega)]
    have := h i hi (by omega)
    rw [hpi] at this
    exact (h s hpos hs).trans this

/-- A key that replaces another one and is smaller than the key above has to go up. -/
theorem Ordered.replace_up (h : Ordered k n) (hm : m ≤ n) (hs : s < n)
    (hk : ∀ i, i < m → i ≠ s → k' i = k i) (hsm : s < m) (hpos : 0 < s)
    (hlt : k' s < k' (parent s)) : UpOrdered k' m s := by
  have hps := parent_lt hpos
  have hup : k (parent s) ≤ k s := h s hpos hs
  rw [hk (parent s) (by omega) (by omega)] at hlt
  refine ⟨fun i hi him hne => ?_, fun i hi him hpi _ => ?_⟩
  · have hpi := parent_lt hi
    have hle := h i hi (by omega)
    rw [hk i him hne]
    by_cases hp : parent i = s
    · rw [hp] at hle ⊢
      exact (hlt.le.trans hup).trans hle
    · rw [hk (parent i) (by omega) hp]
      exact hle
  · have hpi' := parent_lt hi
    have hle := h i hi (by omega)
    rw [hk i him (by omega), hk (parent s) (by omega) (by omega)]
    rw [hpi] at hle
    exact hup.trans hle

end PttTerminal.Heaps
