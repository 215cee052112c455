import Mathlib.Data.List.Rotate
import Mathlib.Tactic

/-!
# Circular doubly linked lists in a store of cells

A store gives each address the cell that lives there, or nothing once the address is
released. The operations are the pointer assignments of an intrusive list library, in
their order; reading or writing a released address has no result. `Ring s xs` says
that the cells `xs` form one circular list, in this order and with these values.
-/
namespace PttTerminal.LinkedCells

structure Cell (ι : Type*) (α : Type*) where
  prev : ι
  next : ι
  val : α
  deriving Repr

abbrev Store (ι : Type*) (α : Type*) := ι → Option (Cell ι α)

namespace Store

variable {ι α : Type*}

/-- The three fields of a cell, as partial functions of its address. -/
def nx (s : Store ι α) (i : ι) : Option ι := (s i).map Cell.next
def pv (s : Store ι α) (i : ι) : Option ι := (s i).map Cell.prev
def vl (s : Store ι α) (i : ι) : Option α := (s i).map Cell.val

variable [DecidableEq ι]

def modify (s : Store ι α) (i : ι) (f : Cell ι α → Cell ι α) : Option (Store ι α) :=
  (s i).map fun c => Function.update s i (some (f c))

def setNext (s : Store ι α) (i n : ι) : Option (Store ι α) :=
    s.modify i fun c => { c with next := n }
def setPrev (s : Store ι α) (i p : ι) : Option (Store ι α) :=
    s.modify i fun c => { c with prev := p }

/-- Change the value of a cell in place. -/
def setVal (s : Store ι α) (i : ι) (v : α) : Option (Store ι α) :=
    s.modify i fun c => { c with val := v }

/-- `p->next = n; n->prev = p`. -/
def linkNode (s : Store ι α) (p n : ι) : Option (Store ι α) := do
  let s ← s.setNext p n
  s.setPrev n p

/-- A cell linked to itself. -/
def initNode (s : Store ι α) (i : ι) : Option (Store ι α) := do
  let s ← s.setPrev i i
  s.setNext i i

def insertAfter (s : Store ι α) (pos node : ι) : Option (Store ι α) := do
  let s ← s.setPrev node pos
  let c ← s pos
  let s ← s.setNext node c.next
  let c ← s pos
  let s ← s.setPrev c.next node
  s.setNext pos node

def insertBefore (s : Store ι α) (pos node : ι) : Option (Store ι α) := do
  let c ← s pos
  s.insertAfter c.prev node

def erase (s : Store ι α) (node : ι) : Option (Store ι α) := do
  let c ← s node
  let s ← s.linkNode c.prev c.next
  s.initNode node

/-- A new cell at a fresh address, linked to itself. -/
def alloc (s : Store ι α) (i : ι) (v : α) : Store ι α :=
  Function.update s i (some ⟨i, i, v⟩)

def release (s : Store ι α) (i : ι) : Store ι α := Function.update s i none

theorem modify_eq {s : Store ι α} {i : ι} {c : Cell ι α} (h : s i = some c)
    (f : Cell ι α → Cell ι α) : s.modify i f = some (Function.update s i (some (f c))) := by
  simp [modify, h]

omit [DecidableEq ι] in
theorem isSome_iff_vl (s : Store ι α) (i : ι) : (s i).isSome ↔ (s.vl i).isSome := by simp [vl]

omit [DecidableEq ι] in
theorem exists_cell {s : Store ι α} {i : ι} (h : (s.vl i).isSome) :
    ∃ c, s i = some c ∧ s.nx i = some c.next ∧ s.pv i = some c.prev ∧ s.vl i = some c.val := by
  obtain ⟨c, hc⟩ := Option.isSome_iff_exists.mp ((isSome_iff_vl s i).mpr h)
  exact ⟨c, hc, by simp [nx, hc], by simp [pv, hc], by simp [vl, hc]⟩

theorem setNext_spec {s : Store ι α} {i : ι} (h : (s.vl i).isSome) (n : ι) :
    ∃ t, s.setNext i n = some t ∧ t.nx = Function.update s.nx i (some n) ∧ t.pv = s.pv ∧
      t.vl = s.vl := by
  obtain ⟨c, hc, -, hp, hv⟩ := exists_cell h
  refine ⟨_, modify_eq hc _, ?_, ?_, ?_⟩ <;> funext j <;> by_cases hj : j = i <;>
    simp_all [nx, pv, vl]

theorem setPrev_spec {s : Store ι α} {i : ι} (h : (s.vl i).isSome) (p : ι) :
    ∃ t, s.setPrev i p = some t ∧ t.nx = s.nx ∧ t.pv = Function.update s.pv i (some p) ∧
      t.vl = s.vl := by
  obtain ⟨c, hc, hn, -, hv⟩ := exists_cell h
  refine ⟨_, modify_eq hc _, ?_, ?_, ?_⟩ <;> funext j <;> by_cases hj : j = i <;>
    simp_all [nx, pv, vl]

theorem setVal_spec {s : Store ι α} {i : ι} (h : (s.vl i).isSome) (v : α) :
    ∃ t, s.setVal i v = some t ∧ t.nx = s.nx ∧ t.pv = s.pv ∧
      t.vl = Function.update s.vl i (some v) := by
  obtain ⟨c, hc, hn, hp, -⟩ := exists_cell h
  refine ⟨_, modify_eq hc _, ?_, ?_, ?_⟩ <;> funext j <;> by_cases hj : j = i <;>
    simp_all [nx, pv, vl]

/-- What `erase` does to every link: the neighbours are joined, then the node is self-linked. -/
theorem erase_spec {s : Store ι α} {x p n : ι} (hx : (s.vl x).isSome) (hp : s.pv x = some p)
    (hn : s.nx x = some n) (hsp : (s.vl p).isSome) (hsn : (s.vl n).isSome) :
    ∃ t, s.erase x = some t ∧
      t.nx = Function.update (Function.update s.nx p (some n)) x (some x) ∧
      t.pv = Function.update (Function.update s.pv n (some p)) x (some x) ∧ t.vl = s.vl := by
  obtain ⟨c, hc, hcn, hcp, -⟩ := exists_cell hx
  obtain rfl : c.prev = p := by simpa [hp] using hcp.symm
  obtain rfl : c.next = n := by simpa [hn] using hcn.symm
  obtain ⟨s₁, h₁, n₁, p₁, v₁⟩ := setNext_spec hsp c.next
  obtain ⟨s₂, h₂, n₂, p₂, v₂⟩ := setPrev_spec (s := s₁) (i := c.next) (by rwa [v₁]) c.prev
  obtain ⟨s₃, h₃, n₃, p₃, v₃⟩ := setPrev_spec (s := s₂) (i := x) (by rwa [v₂, v₁]) x
  obtain ⟨s₄, h₄, n₄, p₄, v₄⟩ := setNext_spec (s := s₃) (i := x) (by rwa [v₃, v₂, v₁]) x
  refine ⟨s₄, ?_, ?_, ?_, ?_⟩
  · simp [erase, linkNode, initNode, hc, h₁, h₂, h₃, h₄]
  · rw [n₄, n₃, n₂, n₁]
  · rw [p₄, p₃, p₂, p₁]
  · rw [v₄, v₃, v₂, v₁]

/-- What `insertBefore` does to every link, when `pos` is where its predecessor leads. -/
theorem insertBefore_spec {s : Store ι α} {pos p node : ι} (hpos : (s.vl pos).isSome)
    (hp : s.pv pos = some p) (hsp : (s.vl p).isSome) (hpn : s.nx p = some pos)
    (hnode : (s.vl node).isSome) (hne : node ≠ pos) (hnp : node ≠ p) :
    ∃ t, s.insertBefore pos node = some t ∧
      t.nx = Function.update (Function.update s.nx node (some pos)) p (some node) ∧
      t.pv = Function.update (Function.update s.pv node (some p)) pos (some node) ∧
      t.vl = s.vl := by
  obtain ⟨c, hc, -, hcp, -⟩ := exists_cell hpos
  obtain rfl : c.prev = p := by simpa [hp] using hcp.symm
  obtain ⟨s₁, h₁, n₁, p₁, v₁⟩ := setPrev_spec hnode c.prev
  obtain ⟨d, hd, hdn, -, -⟩ := exists_cell (s := s₁) (i := c.prev) (by rwa [v₁])
  obtain rfl : d.next = pos := by rw [n₁, hpn] at hdn; exact (Option.some.inj hdn).symm
  obtain ⟨s₂, h₂, n₂, p₂, v₂⟩ := setNext_spec (s := s₁) (i := node) (by rwa [v₁]) d.next
  obtain ⟨e, he, hen, -, -⟩ := exists_cell (s := s₂) (i := c.prev) (by rwa [v₂, v₁])
  have hed : e.next = d.next := by
    rw [n₂, Function.update_of_ne hnp.symm, n₁, hpn] at hen
    exact (Option.some.inj hen).symm
  obtain ⟨s₃, h₃, n₃, p₃, v₃⟩ := setPrev_spec (s := s₂) (i := d.next) (by rwa [v₂, v₁]) node
  obtain ⟨s₄, h₄, n₄, p₄, v₄⟩ := setNext_spec (s := s₃) (i := c.prev) (by rwa [v₃, v₂, v₁]) node
  refine ⟨s₄, ?_, ?_, ?_, ?_⟩
  · simp [insertBefore, insertAfter, hc, h₁, hd, h₂, he, hed, h₃, h₄]
  · rw [n₄, n₃, n₂, n₁]
  · rw [p₄, p₃, p₂, p₁]
  · rw [v₄, v₃, v₂, v₁]

/-! ### What an operation that has a result did to the values -/

theorem modify_vl {s t : Store ι α} {i : ι} {f : Cell ι α → Cell ι α} (h : s.modify i f = some t)
    (hf : ∀ c, (f c).val = c.val) : t.vl = s.vl := by
  obtain ⟨c, hc, rfl⟩ := Option.map_eq_some_iff.mp h
  funext j
  by_cases hj : j = i
  · subst hj
    simp [vl, hc, hf]
  · simp [vl, hj]

theorem setNext_vl {s t : Store ι α} {i n : ι} (h : s.setNext i n = some t) : t.vl = s.vl :=
  modify_vl h fun _ => rfl

theorem setPrev_vl {s t : Store ι α} {i p : ι} (h : s.setPrev i p = some t) : t.vl = s.vl :=
  modify_vl h fun _ => rfl

theorem linkNode_vl {s t : Store ι α} {p n : ι} (h : s.linkNode p n = some t) : t.vl = s.vl := by
  obtain ⟨u, hu, ht⟩ := Option.bind_eq_some_iff.mp h
  exact (setPrev_vl ht).trans (setNext_vl hu)

theorem initNode_vl {s t : Store ι α} {i : ι} (h : s.initNode i = some t) : t.vl = s.vl := by
  obtain ⟨u, hu, ht⟩ := Option.bind_eq_some_iff.mp h
  exact (setNext_vl ht).trans (setPrev_vl hu)

theorem erase_vl {s t : Store ι α} {x : ι} (h : s.erase x = some t) : t.vl = s.vl := by
  obtain ⟨c, -, h⟩ := Option.bind_eq_some_iff.mp h
  obtain ⟨u, hu, ht⟩ := Option.bind_eq_some_iff.mp h
  exact (initNode_vl ht).trans (linkNode_vl hu)

theorem insertAfter_vl {s t : Store ι α} {pos node : ι} (h : s.insertAfter pos node = some t) :
    t.vl = s.vl := by
  obtain ⟨s₁, h₁, h⟩ := Option.bind_eq_some_iff.mp h
  obtain ⟨c, -, h⟩ := Option.bind_eq_some_iff.mp h
  obtain ⟨s₂, h₂, h⟩ := Option.bind_eq_some_iff.mp h
  obtain ⟨d, -, h⟩ := Option.bind_eq_some_iff.mp h
  obtain ⟨s₃, h₃, h⟩ := Option.bind_eq_some_iff.mp h
  exact (setNext_vl h).trans ((setPrev_vl h₃).trans ((setNext_vl h₂).trans (setPrev_vl h₁)))

theorem setVal_vl {s t : Store ι α} {i : ι} {v : α} (h : s.setVal i v = some t) :
    t.vl = Function.update s.vl i (some v) := by
  obtain ⟨c, hc, rfl⟩ := Option.map_eq_some_iff.mp h
  funext j
  by_cases hj : j = i <;> simp [vl, hj]

theorem alloc_nx (s : Store ι α) (i : ι) (v : α) :
    (s.alloc i v).nx = Function.update s.nx i (some i) := by
  funext j; by_cases hj : j = i <;> simp [alloc, nx, hj]

theorem alloc_pv (s : Store ι α) (i : ι) (v : α) :
    (s.alloc i v).pv = Function.update s.pv i (some i) := by
  funext j; by_cases hj : j = i <;> simp [alloc, pv, hj]

theorem alloc_vl (s : Store ι α) (i : ι) (v : α) :
    (s.alloc i v).vl = Function.update s.vl i (some v) := by
  funext j; by_cases hj : j = i <;> simp [alloc, vl, hj]

theorem release_nx (s : Store ι α) (i : ι) :
    (s.release i).nx = Function.update s.nx i none := by
  funext j; by_cases hj : j = i <;> simp [release, nx, hj]

theorem release_pv (s : Store ι α) (i : ι) :
    (s.release i).pv = Function.update s.pv i none := by
  funext j; by_cases hj : j = i <;> simp [release, pv, hj]

theorem release_vl (s : Store ι α) (i : ι) :
    (s.release i).vl = Function.update s.vl i none := by
  funext j; by_cases hj : j = i <;> simp [release, vl, hj]

/-- `y` follows `x`, in both directions. -/
def Linked (s : Store ι α) (x y : ι) : Prop := s.nx x = some y ∧ s.pv y = some x

/-- The links lead from `x` through `ys` to `z`. -/
def Path (s : Store ι α) : ι → List ι → ι → Prop
  | x, [], z => s.Linked x z
  | x, y :: ys, z => s.Linked x y ∧ s.Path y ys z

/-- The cells with these addresses and values form one circular list, in this order. -/
structure Ring (s : Store ι α) (x : ι × α) (xs : List (ι × α)) : Prop where
  nodup : ((x :: xs).map Prod.fst).Nodup
  path : s.Path x.1 (xs.map Prod.fst) x.1
  vals : ∀ p ∈ x :: xs, s.vl p.1 = some p.2

section rings

variable {s t : Store ι α} {x y : ι × α} {xs ys l vs : List (ι × α)}

omit [DecidableEq ι] in
theorem path_append (a b c : ι) (l vs : List ι) :
    s.Path a (l ++ b :: vs) c ↔ s.Path a l b ∧ s.Path b vs c := by
  induction l generalizing a with
  | nil => rfl
  | cons u l ih => simp only [List.cons_append, Path, ih, and_assoc]

omit [DecidableEq ι] in
/-- A path only depends on the forward links before its end and the backward links after its
start. -/
theorem Path.congr {a c : ι} {l : List ι} (h : s.Path a l c)
    (hn : ∀ i ∈ a :: l, t.nx i = s.nx i) (hp : ∀ i ∈ l ++ [c], t.pv i = s.pv i) :
    t.Path a l c := by
  induction l generalizing a with
  | nil => exact ⟨by rw [hn a (by simp)]; exact h.1, by rw [hp c (by simp)]; exact h.2⟩
  | cons u l ih =>
    refine ⟨⟨by rw [hn a (by simp)]; exact h.1.1, by rw [hp u (by simp)]; exact h.1.2⟩, ?_⟩
    exact ih h.2 (fun i hi => hn i (List.mem_cons_of_mem _ hi))
      (fun i hi => hp i (List.mem_cons_of_mem _ hi))

omit [DecidableEq ι] in
/-- Stores that agree on the cells of a ring have the ring in common. -/
theorem Ring.congr (h : s.Ring x xs)
    (ht : ∀ p ∈ x :: xs, t.nx p.1 = s.nx p.1 ∧ t.pv p.1 = s.pv p.1 ∧ t.vl p.1 = s.vl p.1) :
    t.Ring x xs where
  nodup := h.nodup
  path := by
    have hmem : ∀ i ∈ (x :: xs).map Prod.fst, t.nx i = s.nx i ∧ t.pv i = s.pv i := by
      intro i hi
      obtain ⟨p, hp, rfl⟩ := List.mem_map.mp hi
      exact ⟨(ht p hp).1, (ht p hp).2.1⟩
    refine h.path.congr (fun i hi => (hmem i hi).1) (fun i hi => (hmem i ?_).2)
    simp only [List.mem_append, List.mem_singleton] at hi
    simp only [List.map_cons, List.mem_cons]
    exact hi.symm
  vals := fun p hp => by rw [(ht p hp).2.2]; exact h.vals p hp

omit [DecidableEq ι] in
/-- A ring is a ring from each of its cells. -/
theorem Ring.rotate (h : s.Ring x (l ++ y :: vs)) : s.Ring y (vs ++ x :: l) where
  nodup := by
    refine (List.Perm.nodup_iff ?_).mp h.nodup
    refine List.Perm.map _ ?_
    have hp : (x :: l ++ y :: vs).Perm (y :: vs ++ x :: l) := List.perm_append_comm
    simpa using hp
  path := by
    have hp := h.path
    simp only [List.map_append, List.map_cons, path_append] at hp ⊢
    exact hp.symm
  vals := by
    intro p hp
    refine h.vals p ?_
    simp only [List.mem_cons, List.mem_append] at hp ⊢
    tauto

omit [DecidableEq ι] in
theorem Ring.vl_isSome (h : s.Ring x xs) {p : ι × α} (hp : p ∈ x :: xs) : (s.vl p.1).isSome := by
  simp [h.vals p hp]

omit [DecidableEq ι] in
theorem Ring.notMem (h : s.Ring x xs) {p : ι × α} (hp : p ∈ xs) : p.1 ≠ x.1 := by
  intro he
  have := (List.nodup_cons.mp h.nodup).1
  exact this (List.mem_map.mpr ⟨p, hp, he⟩)

omit [DecidableEq ι] in
theorem Path.nx_eq {a c : ι} {l : List ι} (h : s.Path a l c) :
    s.nx a = some (l.head?.getD c) := by
  cases l with
  | nil => exact h.1
  | cons u l => exact h.1.1

omit [DecidableEq ι] in
/-- Each cell of a ring leads to the next one, and the last one back to the first. -/
theorem Ring.nx_of_split (h : s.Ring x xs) (hs : x :: xs = l ++ y :: vs) :
    s.nx y.1 = some (vs.head?.getD x).1 := by
  have hpath : s.Path y.1 (vs.map Prod.fst) x.1 := by
    cases l with
    | nil =>
      obtain ⟨rfl, rfl⟩ : x = y ∧ xs = vs := by simpa using hs
      exact h.path
    | cons u l =>
      obtain ⟨rfl, rfl⟩ : x = u ∧ xs = l ++ y :: vs := by simpa using hs
      have hp := h.path
      rw [List.map_append, List.map_cons, path_append] at hp
      exact hp.2
  rw [hpath.nx_eq]
  cases vs <;> rfl

omit [DecidableEq ι] in
/-- The cell behind a cell of a ring, with its value. -/
theorem Ring.cell_of_split (h : s.Ring x xs) (hs : x :: xs = l ++ y :: vs) :
    ∃ c, s y.1 = some c ∧ c.next = (vs.head?.getD x).1 ∧ c.val = y.2 := by
  have hmem : y ∈ x :: xs := by rw [hs]; simp
  obtain ⟨c, hc, hn, -, hv⟩ := exists_cell (h.vl_isSome hmem)
  refine ⟨c, hc, ?_, ?_⟩
  · rw [h.nx_of_split hs] at hn
    exact (Option.some.inj hn).symm
  · rw [h.vals y hmem] at hv
    exact (Option.some.inj hv).symm

/-- Erasing the first cell of a longer ring leaves the rest, and the cell linked to itself. -/
theorem Ring.erase (h : s.Ring x (y :: ys)) :
    ∃ t, s.erase x.1 = some t ∧ t.Ring y ys ∧ t.Linked x.1 x.1 ∧ t.vl = s.vl := by
  obtain ⟨hxy, hpath⟩ : s.Linked x.1 y.1 ∧ s.Path y.1 (ys.map Prod.fst) x.1 := h.path
  have hnd : ((y :: ys).map Prod.fst).Nodup := (List.nodup_cons.mp h.nodup).2
  have hx : x.1 ∉ (y :: ys).map Prod.fst := (List.nodup_cons.mp h.nodup).1
  have hyx : y.1 ≠ x.1 := h.notMem (by simp)
  -- the last cell of the ring, which the erased cell comes after
  rcases List.eq_nil_or_concat ys with rfl | ⟨ws, z, rfl⟩
  · obtain ⟨t, ht, hn, hp, hv⟩ := erase_spec (h.vl_isSome (by simp)) hpath.2 hxy.1
      (h.vl_isSome (p := y) (by simp)) (h.vl_isSome (p := y) (by simp))
    refine ⟨t, ht, ⟨hnd, ⟨?_, ?_⟩, fun p hp => ?_⟩, ⟨?_, ?_⟩, hv⟩
    · rw [hn, Function.update_of_ne hyx, Function.update_self]
    · rw [hp, Function.update_of_ne hyx, Function.update_self]
    · rw [hv]; exact h.vals p (List.mem_cons_of_mem _ hp)
    · rw [hn, Function.update_self]
    · rw [hp, Function.update_self]
  · simp only [List.concat_eq_append, List.map_append, List.map_cons, List.map_nil] at hpath hnd hx
    rw [path_append] at hpath
    obtain ⟨hyz, hzx⟩ := hpath
    have hzx' : s.Linked z.1 x.1 := hzx
    have hne : z.1 ≠ x.1 := h.notMem (by simp)
    obtain ⟨t, ht, hn, hp, hv⟩ := erase_spec (h.vl_isSome (by simp)) hzx'.2 hxy.1
      (h.vl_isSome (p := z) (by simp)) (h.vl_isSome (p := y) (by simp))
    refine ⟨t, ht, ⟨by simpa using hnd, ?_, fun p hp => ?_⟩, ⟨?_, ?_⟩, hv⟩
    · simp only [List.concat_eq_append, List.map_append, List.map_cons, List.map_nil]
      rw [path_append]
      refine ⟨hyz.congr (fun i hi => ?_) (fun i hi => ?_), ?_, ?_⟩
      · have hiz : i ≠ z.1 := by
          rintro rfl
          simp only [List.nodup_cons, List.mem_append, List.nodup_append] at hnd
          grind
        have hix : i ≠ x.1 := by rintro rfl; grind
        rw [hn, Function.update_of_ne hix, Function.update_of_ne hiz]
      · have hiy : i ≠ y.1 := by rintro rfl; grind
        have hix : i ≠ x.1 := by rintro rfl; grind
        rw [hp, Function.update_of_ne hix, Function.update_of_ne hiy]
      · rw [hn, Function.update_of_ne hne, Function.update_self]
      · rw [hp, Function.update_of_ne hyx, Function.update_self]
    · rw [hv]; exact h.vals p (List.mem_cons_of_mem _ hp)
    · rw [hn, Function.update_self]
    · rw [hp, Function.update_self]

/-- Erasing the only cell of a ring changes nothing. -/
theorem Ring.erase_single (h : s.Ring x []) :
    ∃ t, s.erase x.1 = some t ∧ t.Ring x [] ∧ t.vl = s.vl := by
  obtain ⟨hn, hp⟩ : s.Linked x.1 x.1 := h.path
  obtain ⟨t, ht, hn', hp', hv⟩ := erase_spec (h.vl_isSome (by simp)) hp hn
    (h.vl_isSome (p := x) (by simp)) (h.vl_isSome (p := x) (by simp))
  refine ⟨t, ht, h.congr fun p hp'' => ?_, hv⟩
  obtain rfl : p = x := by simpa using hp''
  rw [hn', hp', hv, Function.update_self, Function.update_self]
  exact ⟨hn.symm, hp.symm, rfl⟩

/-- Inserting a cell before the first one appends it to the ring. -/
theorem Ring.insertBefore {node : ι} {v : α} (h : s.Ring x xs)
    (hnode : node ∉ (x :: xs).map Prod.fst) (hv : s.vl node = some v) :
    ∃ t, s.insertBefore x.1 node = some t ∧ t.Ring x (xs ++ [(node, v)]) ∧ t.vl = s.vl := by
  have hnx : node ≠ x.1 := by rintro rfl; simp at hnode
  have hnd := h.nodup
  have hlist : ((x :: (xs ++ [(node, v)])).map Prod.fst).Nodup := by
    simp only [← List.cons_append, List.map_append, List.map_cons, List.map_nil]
    rw [List.nodup_append]
    exact ⟨hnd, by simp,
      by rintro a ha b hb rfl; simp only [List.mem_singleton] at hb; exact hnode (hb ▸ ha)⟩
  have hvals : ∀ t : Store ι α, t.vl = s.vl → ∀ p ∈ x :: (xs ++ [(node, v)]),
    t.vl p.1 = some p.2 := by
    intro t ht p hp
    rw [ht]
    simp only [List.mem_cons, List.mem_append, List.not_mem_nil, or_false] at hp
    rcases hp with rfl | hp | rfl
    · exact h.vals _ (by simp)
    · exact h.vals _ (by simp [hp])
    · exact hv
  rcases List.eq_nil_or_concat xs with rfl | ⟨ws, z, rfl⟩
  · obtain ⟨hn, hp⟩ : s.Linked x.1 x.1 := h.path
    obtain ⟨t, ht, hn', hp', hv'⟩ := insertBefore_spec (h.vl_isSome (by simp)) hp
      (h.vl_isSome (p := x) (by simp)) hn (by simp [hv]) hnx hnx
    refine ⟨t, ht, ⟨hlist, ⟨⟨?_, ?_⟩, ?_, ?_⟩, hvals t hv'⟩, hv'⟩
    · rw [hn', Function.update_self]
    · rw [hp', Function.update_of_ne hnx, Function.update_self]
    · rw [hn', Function.update_of_ne hnx, Function.update_self]
    · rw [hp', Function.update_self]
  · simp only [List.concat_eq_append] at h hnode hnd ⊢ hlist
    have hpath := h.path
    simp only [List.map_append, List.map_cons, List.map_nil, path_append] at hpath
    obtain ⟨hxz, hzx⟩ := hpath
    have hzx' : s.Linked z.1 x.1 := hzx
    have hnz : node ≠ z.1 := by rintro rfl; simp at hnode
    have hzx_ne : z.1 ≠ x.1 := h.notMem (by simp)
    obtain ⟨t, ht, hn', hp', hv'⟩ := insertBefore_spec (h.vl_isSome (by simp)) hzx'.2
      (h.vl_isSome (p := z) (by simp)) hzx'.1 (by simp [hv]) hnx hnz
    refine ⟨t, ht, ⟨hlist, ?_, by simpa using hvals t hv'⟩, hv'⟩
    simp only [List.map_append, List.map_cons, List.map_nil, List.append_assoc, List.cons_append,
      List.nil_append]
    rw [path_append]
    refine ⟨hxz.congr (fun i hi => ?_) (fun i hi => ?_), ⟨?_, ?_⟩, ?_, ?_⟩
    · have hiz : i ≠ z.1 := by
        rintro rfl
        simp only [List.map_append, List.map_cons, List.map_nil] at hnd
        grind
      have hin : i ≠ node :=
        by rintro rfl; simp only [List.map_append, List.map_cons] at hnode; grind
      rw [hn', Function.update_of_ne hiz, Function.update_of_ne hin]
    · have hix : i ≠ x.1 := by
        rintro rfl
        simp only [List.map_append, List.map_cons, List.map_nil] at hnd
        grind
      have hin : i ≠ node :=
        by rintro rfl; simp only [List.map_append, List.map_cons] at hnode; grind
      rw [hp', Function.update_of_ne hix, Function.update_of_ne hin]
    · rw [hn', Function.update_self]
    · rw [hp', Function.update_of_ne hnx, Function.update_self]
    · rw [hn', Function.update_of_ne hnz, Function.update_self]
    · rw [hp', Function.update_self]

theorem insertBefore_eq {pos p node : ι} (hp : s.pv pos = some p) :
    s.insertBefore pos node = s.insertAfter p node := by
  obtain ⟨c, hc, rfl⟩ := Option.map_eq_some_iff.mp hp
  simp [Store.insertBefore, hc]

/-- Inserting a cell after the first one makes it the second. -/
theorem Ring.insertAfter {node : ι} {v : α} (h : s.Ring x xs)
    (hnode : node ∉ (x :: xs).map Prod.fst) (hv : s.vl node = some v) :
    ∃ t, s.insertAfter x.1 node = some t ∧ t.Ring x ((node, v) :: xs) ∧ t.vl = s.vl := by
  cases xs with
  | nil =>
    have hpath : s.Linked x.1 x.1 := h.path
    obtain ⟨t, ht, hring, hvl⟩ := h.insertBefore hnode hv
    rw [insertBefore_eq hpath.2] at ht
    exact ⟨t, ht, hring, hvl⟩
  | cons y ys =>
    -- the cell before the second one is the first
    have hpath : s.Linked x.1 y.1 := h.path.1
    have hrot : s.Ring y (ys ++ [x]) := h.rotate (l := [])
    have hnode' : node ∉ (y :: (ys ++ [x])).map Prod.fst := by
      simp only [List.map_cons, List.map_append, List.mem_cons, List.mem_append] at hnode ⊢
      tauto
    obtain ⟨t, ht, hring, hvl⟩ := hrot.insertBefore hnode' hv
    rw [insertBefore_eq hpath.2] at ht
    rw [List.append_assoc] at hring
    exact ⟨t, ht, hring.rotate, hvl⟩

theorem Ring.alloc {i : ι} {v : α} (h : s.Ring x xs) (hi : i ∉ (x :: xs).map Prod.fst) :
    (s.alloc i v).Ring x xs := by
  refine h.congr fun p hp => ?_
  have hne : p.1 ≠ i := by rintro rfl; exact hi (List.mem_map_of_mem hp)
  rw [alloc_nx, alloc_pv, alloc_vl]
  simp only [Function.update_of_ne hne, and_self]

theorem Ring.release {i : ι} (h : s.Ring x xs) (hi : i ∉ (x :: xs).map Prod.fst) :
    (s.release i).Ring x xs := by
  refine h.congr fun p hp => ?_
  have hne : p.1 ≠ i := by rintro rfl; exact hi (List.mem_map_of_mem hp)
  rw [release_nx, release_pv, release_vl]
  simp only [Function.update_of_ne hne, and_self]

/-- The first cell of a ring may be given another value. -/
theorem Ring.setVal_first (h : s.Ring x xs) (v : α) :
    ∃ t, s.setVal x.1 v = some t ∧ t.Ring (x.1, v) xs ∧
      t.vl = Function.update s.vl x.1 (some v) := by
  obtain ⟨t, ht, hn, hp, hvl⟩ := setVal_spec (h.vl_isSome List.mem_cons_self) v
  refine ⟨t, ht, ⟨h.nodup, h.path.congr (fun i _ => by rw [hn]) (fun i _ => by rw [hp]), ?_⟩, hvl⟩
  intro p hp'
  rw [hvl]
  obtain rfl | hp' := List.mem_cons.mp hp'
  · simp
  · rw [Function.update_of_ne (h.notMem hp')]
    exact h.vals p (List.mem_cons_of_mem _ hp')

omit [DecidableEq ι] in
theorem eq_none_iff_vl (s : Store ι α) (i : ι) : s i = none ↔ s.vl i = none := by simp [vl]

/-- A list whose cells all lie below `n` has no more than `n` of them. -/
theorem Ring.length_lt {s : Store ℕ α} {x : ℕ × α} {xs : List (ℕ × α)} (h : s.Ring x xs) {n : ℕ}
    (hn : ∀ i, n ≤ i → s i = none) : xs.length < n := by
  have hsub : (x :: xs).map Prod.fst ⊆ List.range n := by
    intro i hi
    obtain ⟨p, hp, rfl⟩ := List.mem_map.mp hi
    by_contra hge
    have hlive := h.vl_isSome hp
    rw [← isSome_iff_vl, hn p.1 (by simpa using hge)] at hlive
    cases hlive
  simpa using (h.nodup.subperm hsub).length_le

/-- A fresh cell is a ring of its own. -/
theorem ring_alloc (s : Store ι α) (i : ι) (v : α) : (s.alloc i v).Ring (i, v) [] where
  nodup := by simp
  path := ⟨by simp [alloc_nx], by simp [alloc_pv]⟩
  vals := by simp [alloc_vl]

/-- The list a head pointer leads to; no pointer is the empty list. -/
def Holds (s : Store ι α) (head : Option ι) : List (ι × α) → Prop
  | [] => head = none
  | x :: xs => head = some x.1 ∧ s.Ring x xs

omit [DecidableEq ι] in
/-- A list whose head is linked to itself has no other cell. -/
theorem Holds.eq_single {i : ι} {ys : List (ι × α)} (h : s.Holds (some i) ys)
    (hself : s.nx i = some i) : ys.map Prod.fst = [i] := by
  cases ys with
  | nil => cases h
  | cons y ys =>
    obtain ⟨hi, hring⟩ := h
    obtain rfl : i = y.1 := Option.some.inj hi
    cases ys with
    | nil => rfl
    | cons z ys =>
      obtain ⟨c, hc, hn, -⟩ := hring.cell_of_split (l := []) rfl
      have hnext : c.next = z.1 := hn
      rw [nx, hc, Option.map_some, hnext] at hself
      exact absurd (Option.some.inj hself) (hring.notMem List.mem_cons_self)

end rings

end Store
end PttTerminal.LinkedCells
