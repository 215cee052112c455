import PttTerminal.Library.LinkedCells
import PttTerminal.Library.Loops

/-!
# Walks round a circular list

A loop that reads the cell it stands at, gathers something from it and goes on to the next cell ends
where it comes back to the cell it started at. It gathers from every cell of the list, in order.
-/
namespace PttTerminal.Walks

open Loops LinkedCells

variable {ι α β ρ ε : Type*} {heap : Store ι α} {x y : ι × α} {xs l vs : List (ι × α)}

/-- One round gathers `f` from its cell and is the last one when the next cell is the head. -/
def Gathers (body : ι × β → Except ε (Ctl (ι × β) β)) (heap : Store ι α) (head : ι)
    (f : β → ι × α → β) : Prop :=
  ∀ i c acc, heap i = some c →
    (c.next = head → body (i, acc) = .ok (.exit (f acc (i, c.val)))) ∧
    (c.next ≠ head → body (i, acc) = .ok (.next (c.next, f acc (i, c.val))))

theorem next_ne_head (h : heap.Ring x xs) (hs : x :: xs = l ++ y :: vs) {z : ι × α}
    (hz : z ∈ vs) : z.1 ≠ x.1 := by
  apply h.notMem
  cases l with
  | nil =>
    obtain ⟨rfl, rfl⟩ : x = y ∧ xs = vs := by simpa using hs
    exact hz
  | cons u l =>
    obtain ⟨rfl, rfl⟩ : x = u ∧ xs = l ++ y :: vs := by simpa using hs
    simp [hz]

/-- From a cell of the list on, the rest of the list is gathered. -/
theorem loop_ring {body : ι × β → Except ε (Ctl (ι × β) β)} {f : β → ι × α → β} {hang : ε}
    (hbody : Gathers body heap x.1 f) (h : heap.Ring x xs) (hs : x :: xs = l ++ y :: vs) {n : ℕ}
    (hn : vs.length < n) (acc : β) :
    loop hang body n (y.1, acc) = .ok ((y :: vs).foldl f acc) := by
  induction vs generalizing l y n acc with
  | nil =>
    obtain ⟨n, rfl⟩ : ∃ k, n = k + 1 := ⟨n - 1, by simp at hn; omega⟩
    obtain ⟨c, hc, hnext, hval⟩ := h.cell_of_split hs
    rw [loop_exit ((hbody y.1 c acc hc).1 (by simpa using hnext)) n, hval]
    rfl
  | cons z vs ih =>
    obtain ⟨n, rfl⟩ : ∃ k, n = k + 1 := ⟨n - 1, by simp at hn; omega⟩
    obtain ⟨c, hc, hnext, hval⟩ := h.cell_of_split hs
    have hne : c.next ≠ x.1 := by
      rw [hnext]
      exact next_ne_head h hs (by simp)
    have hz : c.next = z.1 := hnext
    have hrest : x :: xs = (l ++ [y]) ++ z :: vs := by simpa using hs
    rw [loop_next ((hbody y.1 c acc hc).2 hne), hz, hval,
      ih hrest (by simpa using hn) (f acc y)]
    rfl

/-- One round leaves the walk at a cell that meets `p` with `hit`, and with `miss` where the next
cell is the head. -/
def Seeks (body : ι → Except ε (Ctl ι ρ)) (heap : Store ι α) (head : ι) (p : ι × α → Bool)
    (hit : ι × α → ρ) (miss : ρ) : Prop :=
  ∀ i c, heap i = some c →
    (p (i, c.val) = true → body i = .ok (.exit (hit (i, c.val)))) ∧
    (p (i, c.val) = false → c.next = head → body i = .ok (.exit miss)) ∧
    (p (i, c.val) = false → c.next ≠ head → body i = .ok (.next c.next))

/-- The walk is left at the first cell of the rest of the list that meets `p`. -/
theorem loop_seek {body : ι → Except ε (Ctl ι ρ)} {p : ι × α → Bool} {hit : ι × α → ρ} {miss : ρ}
    {hang : ε} (hbody : Seeks body heap x.1 p hit miss) (h : heap.Ring x xs)
    (hs : x :: xs = l ++ y :: vs) {n : ℕ} (hn : vs.length < n) :
    loop hang body n y.1 = .ok (((y :: vs).find? p).elim miss hit) := by
  induction vs generalizing l y n with
  | nil =>
    obtain ⟨n, rfl⟩ : ∃ k, n = k + 1 := ⟨n - 1, by simp at hn; omega⟩
    obtain ⟨c, hc, hnext, hval⟩ := h.cell_of_split hs
    obtain ⟨hfound, hend, -⟩ := hbody y.1 c hc
    rw [hval] at hfound hend
    cases hp : p y with
    | true => rw [loop_exit (hfound hp), List.find?_cons_of_pos hp, Option.elim_some]
    | false =>
      rw [loop_exit (hend hp (by simpa using hnext)), List.find?_cons_of_neg (by simp [hp])]
      rfl
  | cons z vs ih =>
    obtain ⟨n, rfl⟩ : ∃ k, n = k + 1 := ⟨n - 1, by simp at hn; omega⟩
    obtain ⟨c, hc, hnext, hval⟩ := h.cell_of_split hs
    obtain ⟨hfound, -, hgo⟩ := hbody y.1 c hc
    rw [hval] at hfound hgo
    have hz : c.next = z.1 := hnext
    cases hp : p y with
    | true => rw [loop_exit (hfound hp), List.find?_cons_of_pos hp, Option.elim_some]
    | false =>
      have hne : c.next ≠ x.1 := by
        rw [hz]
        exact next_ne_head h hs List.mem_cons_self
      have hrest : x :: xs = (l ++ [y]) ++ z :: vs := by simpa using hs
      have hskip : (y :: z :: vs).find? p = (z :: vs).find? p :=
        List.find?_cons_of_neg (by simp [hp])
      rw [loop_next (hgo hp hne), hz, hskip, ih hrest (by simpa using hn)]

end PttTerminal.Walks
