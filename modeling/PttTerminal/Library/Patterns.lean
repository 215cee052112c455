import Mathlib.Computability.Language
import Mathlib.Tactic

/-!
# Patterns with backtracking

A pattern is tried at a place in a text and answers with the places where it may end, in the order
in which backtracking comes to them. A pattern that looks at nothing but what it reads has a
language; what looks ahead or back depends on the place.
-/
namespace PttTerminal.Patterns

/-- What stands before a place in a text, the nearest character first, and what stands behind it. -/
structure Place where
  before : List Char
  behind : List Char
  deriving Repr, DecidableEq

inductive Pattern where
  | one (p : Char → Bool)
  /-- One character or more, as many as there are first. -/
  | many (p : Char → Bool)
  | seq (a b : Pattern)
  | alt (a b : Pattern)
  | notAhead (a : Pattern)
  /-- A character of a word on one side only. -/
  | boundary (word : Char → Bool)

def manyFrom (p : Char → Bool) : List Char → List Char → List Place
  | _, [] => []
  | before, c :: cs =>
    if p c then manyFrom p (c :: before) cs ++ [⟨c :: before, cs⟩] else []

def Place.atBoundary (word : Char → Bool) (x : Place) : Bool :=
  x.before.head?.any word != x.behind.head?.any word

namespace Pattern

def ends : Pattern → Place → List Place
  | one p, ⟨before, c :: behind⟩ => if p c then [⟨c :: before, behind⟩] else []
  | one _, ⟨_, []⟩ => []
  | many p, x => manyFrom p x.before x.behind
  | seq a b, x => (a.ends x).flatMap b.ends
  | alt a b, x => a.ends x ++ b.ends x
  | notAhead a, x => if (a.ends x).isEmpty then [x] else []
  | boundary word, x => if x.atBoundary word then [x] else []

/-- The whole text is matched. -/
def matchesAll (a : Pattern) (cs : List Char) : Bool :=
  (a.ends ⟨[], cs⟩).any fun y => y.behind.isEmpty

end Pattern

/-- `y` lies behind `x` by the text `cs`. -/
def Place.Moved (x : Place) (cs : List Char) (y : Place) : Prop :=
  x.behind = cs ++ y.behind ∧ y.before = cs.reverse ++ x.before

namespace Place.Moved

variable {x y z : Place} {cs ds : List Char}

theorem refl (x : Place) : x.Moved [] x := ⟨rfl, rfl⟩

theorem one (before behind : List Char) (c : Char) :
    Place.Moved ⟨before, c :: behind⟩ [c] ⟨c :: before, behind⟩ := ⟨rfl, rfl⟩

theorem trans (h : x.Moved cs y) (h' : y.Moved ds z) : x.Moved (cs ++ ds) z := by
  refine ⟨?_, ?_⟩
  · rw [h.1, h'.1, List.append_assoc]
  · rw [h'.2, h.2, List.reverse_append, List.append_assoc]

/-- A text leads to one place only. -/
theorem unique (h : x.Moved cs y) (h' : x.Moved cs z) : y = z := by
  have hbehind : y.behind = z.behind := List.append_cancel_left (h.1.symm.trans h'.1)
  cases y
  cases z
  exact (Place.mk.injEq ..).mpr ⟨h.2.trans h'.2.symm, hbehind⟩

/-- On the way there is a place after each part of the text. -/
theorem split (h : x.Moved (cs ++ ds) y) :
    x.Moved cs ⟨cs.reverse ++ x.before, ds ++ y.behind⟩ ∧
      Place.Moved ⟨cs.reverse ++ x.before, ds ++ y.behind⟩ ds y := by
  refine ⟨⟨?_, rfl⟩, rfl, ?_⟩
  · rw [h.1, List.append_assoc]
  · rw [h.2, List.reverse_append, List.append_assoc]

end Place.Moved

namespace Pattern

variable {a b : Pattern} {p : Char → Bool} {x y : Place}

@[simp]
theorem mem_ends_seq : y ∈ (seq a b).ends x ↔ ∃ z ∈ a.ends x, y ∈ b.ends z := by
  simp [ends]

@[simp]
theorem mem_ends_alt : y ∈ (alt a b).ends x ↔ y ∈ a.ends x ∨ y ∈ b.ends x := by
  simp [ends]

@[simp]
theorem mem_ends_notAhead : y ∈ (notAhead a).ends x ↔ y = x ∧ ∀ z, z ∉ a.ends x := by
  rw [ends]
  split_ifs with hempty
  · rw [List.isEmpty_iff] at hempty
    simp [hempty]
  · rw [List.isEmpty_iff] at hempty
    obtain ⟨z, hz⟩ := List.exists_mem_of_ne_nil _ hempty
    exact iff_of_false List.not_mem_nil fun hno => hno.2 z hz

@[simp]
theorem mem_ends_boundary {word : Char → Bool} :
    y ∈ (boundary word).ends x ↔ y = x ∧ x.atBoundary word = true := by
  rw [ends]
  split_ifs with hword <;> simp [hword]

theorem matchesAll_iff {cs : List Char} :
    a.matchesAll cs = true ↔ ∃ y ∈ a.ends ⟨[], cs⟩, y.behind = [] := by
  simp [matchesAll]

/-! ### Patterns with a language -/

/-- Where the pattern ends depends only on the text that it reads. -/
def Reads (a : Pattern) (L : Language Char) : Prop :=
  ∀ x y, y ∈ a.ends x ↔ ∃ cs ∈ L, x.Moved cs y

/-- One character of a class. -/
def single (p : Char → Bool) : Language Char := {cs | ∃ c, p c = true ∧ cs = [c]}

/-- The texts over a class but for the empty one. -/
def nonempty (p : Char → Bool) : Language Char := {cs | cs ≠ [] ∧ ∀ c ∈ cs, p c = true}

theorem reads_one (p : Char → Bool) : (one p).Reads (single p) := by
  rintro ⟨before, behind⟩ y
  cases behind with
  | nil =>
    refine iff_of_false List.not_mem_nil ?_
    rintro ⟨_, ⟨c, -, rfl⟩, hmoved⟩
    cases hmoved.1
  | cons c behind =>
    rw [ends]
    constructor
    · intro hy
      split_ifs at hy with hp
      · obtain rfl := List.mem_singleton.mp hy
        exact ⟨[c], ⟨c, hp, rfl⟩, rfl, rfl⟩
      · cases hy
    · rintro ⟨_, ⟨d, hp, rfl⟩, hbehind, hbefore⟩
      obtain ⟨rfl, rfl⟩ := List.cons.inj hbehind
      rw [if_pos hp, List.mem_singleton]
      have hmoved : Place.Moved ⟨before, c :: y.behind⟩ [c] y := ⟨rfl, hbefore⟩
      exact hmoved.unique (Place.Moved.one before y.behind c)

theorem mem_manyFrom {before behind : List Char} : y ∈ manyFrom p before behind ↔
    ∃ cs, cs ≠ [] ∧ (∀ c ∈ cs, p c = true) ∧ Place.Moved ⟨before, behind⟩ cs y := by
  induction behind generalizing before with
  | nil =>
    refine iff_of_false List.not_mem_nil ?_
    rintro ⟨cs, hne, -, hmoved⟩
    exact hne (List.append_eq_nil_iff.mp hmoved.1.symm).1
  | cons c behind ih =>
    rw [manyFrom]
    constructor
    · intro hy
      split_ifs at hy with hp
      · obtain hy | hy := List.mem_append.mp hy
        · obtain ⟨cs, -, hcs, hmoved⟩ := ih.mp hy
          refine ⟨c :: cs, List.cons_ne_nil _ _, List.forall_mem_cons.mpr ⟨hp, hcs⟩, ?_⟩
          exact (Place.Moved.one before behind c).trans hmoved
        · obtain rfl := List.mem_singleton.mp hy
          exact ⟨[c], List.cons_ne_nil _ _, by simpa using hp, rfl, rfl⟩
      · cases hy
    · rintro ⟨cs, hne, hcs, hmoved⟩
      cases cs with
      | nil => exact absurd rfl hne
      | cons d cs =>
        obtain ⟨rfl, -⟩ := List.cons.inj hmoved.1
        obtain ⟨hp, hcs⟩ := List.forall_mem_cons.mp hcs
        rw [if_pos hp, List.mem_append, List.mem_singleton]
        cases cs with
        | nil => exact .inr (hmoved.unique (Place.Moved.one before behind c))
        | cons e cs =>
          have hfirst : Place.Moved ⟨before, c :: behind⟩ ([c] ++ e :: cs) y := hmoved
          obtain ⟨-, hrest⟩ := hfirst.split
          refine .inl (ih.mpr ⟨e :: cs, List.cons_ne_nil _ _, hcs, ?_, hrest.2⟩)
          exact (List.cons.inj hmoved.1).2

theorem reads_many (p : Char → Bool) : (many p).Reads (nonempty p) := by
  intro x y
  rw [ends, mem_manyFrom]
  exact exists_congr fun cs => and_assoc.symm

variable {L M : Language Char}

theorem Reads.seq (ha : a.Reads L) (hb : b.Reads M) : (a.seq b).Reads (L * M) := by
  intro x y
  rw [mem_ends_seq]
  constructor
  · rintro ⟨z, hz, hy⟩
    obtain ⟨cs, hcs, hmoved⟩ := (ha x z).mp hz
    obtain ⟨ds, hds, hmoved'⟩ := (hb z y).mp hy
    exact ⟨cs ++ ds, Language.append_mem_mul hcs hds, hmoved.trans hmoved'⟩
  · rintro ⟨_, hmem, hmoved⟩
    obtain ⟨cs, hcs, ds, hds, rfl⟩ := Language.mem_mul.mp hmem
    obtain ⟨hleft, hright⟩ := hmoved.split
    exact ⟨_, (ha _ _).mpr ⟨cs, hcs, hleft⟩, (hb _ _).mpr ⟨ds, hds, hright⟩⟩

theorem Reads.alt (ha : a.Reads L) (hb : b.Reads M) : (a.alt b).Reads (L + M) := by
  intro x y
  rw [mem_ends_alt, ha x y, hb x y, ← exists_or]
  refine exists_congr fun cs => ?_
  rw [Language.mem_add, or_and_right]

end Pattern

end PttTerminal.Patterns
