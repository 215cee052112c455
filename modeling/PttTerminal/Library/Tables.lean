import Mathlib.Tactic

/-!
# Tables with a key of their own

A table holds its rows in the order in which they were inserted. Each row gets a key that no row had
before, also when rows are deleted. `Paired` says that the values of two columns go together: two
rows agree in the one exactly when they agree in the other.
-/
namespace PttTerminal.Tables

structure Row (ρ : Type*) where
  id : ℕ
  cols : ρ
  deriving Repr, DecidableEq

/-- `seq` is the last key that was given. -/
structure Table (ρ : Type*) where
  rows : List (Row ρ) := []
  seq : ℕ := 0
  deriving Repr, DecidableEq

namespace Table

variable {ρ α β : Type*}

def insert (t : Table ρ) (v : ρ) : Table ρ where
  rows := t.rows ++ [⟨t.seq + 1, v⟩]
  seq := t.seq + 1

def delete (t : Table ρ) (p : Row ρ → Bool) : Table ρ :=
  { t with rows := t.rows.filter fun r => !p r }

def update (t : Table ρ) (p : Row ρ → Bool) (f : ρ → ρ) : Table ρ :=
  { t with rows := t.rows.map fun r => if p r then { r with cols := f r.cols } else r }

/-- The first row that satisfies `p`. -/
def first (t : Table ρ) (p : ρ → Bool) : Option (Row ρ) := t.rows.find? fun r => p r.cols

variable {t : Table ρ} {p : Row ρ → Bool} {v : ρ} {r : Row ρ}

@[simp]
theorem mem_insert : r ∈ (t.insert v).rows ↔ r ∈ t.rows ∨ r = ⟨t.seq + 1, v⟩ := by
  simp [insert]

@[simp]
theorem mem_delete : r ∈ (t.delete p).rows ↔ r ∈ t.rows ∧ p r = false := by
  simp [delete]

theorem mem_update {f : ρ → ρ} : r ∈ (t.update p f).rows ↔
    ∃ r₀ ∈ t.rows, (if p r₀ then { r₀ with cols := f r₀.cols } else r₀) = r := by
  simp [update]

@[simp]
theorem insert_seq : (t.insert v).seq = t.seq + 1 := rfl

@[simp]
theorem delete_seq : (t.delete p).seq = t.seq := rfl

@[simp]
theorem update_seq {f : ρ → ρ} : (t.update p f).seq = t.seq := rfl

theorem first_eq_some {q : ρ → Bool} (h : t.first q = some r) : r ∈ t.rows ∧ q r.cols = true := by
  unfold first at h
  exact ⟨List.mem_of_find?_eq_some h, List.find?_some (p := fun r : Row ρ => q r.cols) h⟩

theorem first_eq_none {q : ρ → Bool} : t.first q = none ↔ ∀ r ∈ t.rows, q r.cols = false := by
  simp [first]

/-! ### Keys -/

/-- No two rows have the same key, and the next one is new. -/
structure Keyed (t : Table ρ) : Prop where
  unique : ∀ r ∈ t.rows, ∀ r' ∈ t.rows, r.id = r'.id → r = r'
  bound : ∀ r ∈ t.rows, r.id ≤ t.seq

theorem keyed_empty : ({} : Table ρ).Keyed := ⟨by simp, by simp⟩

theorem Keyed.insert (h : t.Keyed) (v : ρ) : (t.insert v).Keyed := by
  constructor
  · intro r hr r' hr' hid
    rw [mem_insert] at hr hr'
    rcases hr with hr | rfl <;> rcases hr' with hr' | rfl
    · exact h.unique r hr r' hr' hid
    · have := h.bound r hr
      simp only at hid
      omega
    · have := h.bound r' hr'
      simp only at hid
      omega
    · rfl
  · intro r hr
    rw [mem_insert] at hr
    rcases hr with hr | rfl
    · exact (h.bound r hr).trans (Nat.le_succ _)
    · exact le_rfl

theorem Keyed.delete (h : t.Keyed) (p : Row ρ → Bool) : (t.delete p).Keyed := by
  constructor
  · intro r hr r' hr' hid
    exact h.unique r (mem_delete.mp hr).1 r' (mem_delete.mp hr').1 hid
  · intro r hr
    exact h.bound r (mem_delete.mp hr).1

theorem Keyed.update (h : t.Keyed) (p : Row ρ → Bool) (f : ρ → ρ) : (t.update p f).Keyed := by
  have hid : ∀ r : Row ρ, (if p r then { r with cols := f r.cols } else r).id = r.id := by
    intro r
    split <;> rfl
  constructor
  · intro r hr r' hr' heq
    obtain ⟨r₀, h₀, rfl⟩ := mem_update.mp hr
    obtain ⟨r₁, h₁, rfl⟩ := mem_update.mp hr'
    rw [hid, hid] at heq
    rw [h.unique r₀ h₀ r₁ h₁ heq]
  · intro r hr
    obtain ⟨r₀, h₀, rfl⟩ := mem_update.mp hr
    rw [hid]
    exact h.bound r₀ h₀

/-- The rows stand in the order of their keys, and the next key is greater. -/
structure Ordered (t : Table ρ) : Prop where
  sorted : t.rows.Pairwise fun r r' => r.id < r'.id
  bound : ∀ r ∈ t.rows, r.id ≤ t.seq

theorem ordered_empty : ({} : Table ρ).Ordered := ⟨List.Pairwise.nil, by simp⟩

theorem Ordered.nodup (h : t.Ordered) : (t.rows.map Row.id).Nodup :=
  List.pairwise_map.mpr (h.sorted.imp fun hlt => hlt.ne)

theorem Ordered.keyed (h : t.Ordered) : t.Keyed :=
  ⟨fun _ hr _ hr' hid => List.inj_on_of_nodup_map h.nodup hr hr' hid, h.bound⟩

theorem Ordered.insert (h : t.Ordered) (v : ρ) : (t.insert v).Ordered := by
  constructor
  · simp only [Table.insert, List.pairwise_append, List.pairwise_singleton, List.mem_singleton]
    refine ⟨h.sorted, trivial, ?_⟩
    rintro r hr _ rfl
    exact Nat.lt_succ_of_le (h.bound r hr)
  · exact (h.keyed.insert v).bound

theorem Ordered.delete (h : t.Ordered) (p : Row ρ → Bool) : (t.delete p).Ordered :=
  ⟨h.sorted.filter _, (h.keyed.delete p).bound⟩

theorem Ordered.update (h : t.Ordered) (p : Row ρ → Bool) (f : ρ → ρ) :
    (t.update p f).Ordered := by
  refine ⟨?_, (h.keyed.update p f).bound⟩
  rw [Table.update, List.pairwise_map]
  refine h.sorted.imp fun hlt => ?_
  split <;> split <;> exact hlt

/-- The row that is found is the one with the least key. -/
theorem Ordered.first_le (h : t.Ordered) {q : ρ → Bool} (hfirst : t.first q = some r) {r' : Row ρ}
    (hr' : r' ∈ t.rows) (hq : q r'.cols = true) : r.id ≤ r'.id := by
  obtain ⟨-, l, rest, hrows, hl⟩ := List.find?_eq_some_iff_append.mp hfirst
  rw [hrows, List.mem_append, List.mem_cons] at hr'
  obtain hr' | rfl | hr' := hr'
  · exact absurd hq (by simpa using hl r' hr')
  · exact le_rfl
  · have hsorted := h.sorted
    rw [hrows] at hsorted
    have hrest := (List.pairwise_append.mp hsorted).2.1
    exact ((List.pairwise_cons.mp hrest).1 r' hr').le

/-! ### What holds of every row -/

/-- What holds of the columns of every row. -/
def All (t : Table ρ) (q : ρ → Prop) : Prop := ∀ r ∈ t.rows, q r.cols

variable {q : ρ → Prop}

theorem All.insert (h : t.All q) (hv : q v) : (t.insert v).All q := by
  intro r hr
  rcases mem_insert.mp hr with hr | rfl
  · exact h r hr
  · exact hv

theorem All.delete (h : t.All q) (p : Row ρ → Bool) : (t.delete p).All q :=
  fun r hr => h r (mem_delete.mp hr).1

theorem All.update {f : ρ → ρ} (h : t.All q) (p : Row ρ → Bool) (hf : ∀ v, q v → q (f v)) :
    (t.update p f).All q := by
  intro r hr
  obtain ⟨r₀, h₀, rfl⟩ := mem_update.mp hr
  split
  · exact hf _ (h r₀ h₀)
  · exact h r₀ h₀

/-! ### A column without duplicates -/

def Distinct (t : Table ρ) (f : ρ → α) : Prop := (t.rows.map fun r => f r.cols).Nodup

section
variable {f : ρ → α}

theorem distinct_empty : ({} : Table ρ).Distinct f := List.nodup_nil

theorem Distinct.delete (h : t.Distinct f) (p : Row ρ → Bool) : (t.delete p).Distinct f :=
  List.Nodup.sublist (List.filter_sublist.map _) h

theorem Distinct.insert_iff (h : t.Distinct f) :
    (t.insert v).Distinct f ↔ f v ∉ t.rows.map fun r => f r.cols := by
  simp only [Distinct, Table.insert, List.map_append, List.map_cons, List.map_nil]
  rw [List.nodup_append]
  constructor
  · rintro ⟨-, -, hne⟩ hmem
    exact hne _ hmem _ (List.mem_singleton_self _) rfl
  · intro hv
    refine ⟨h, List.nodup_singleton _, fun a ha b hb hab => hv ?_⟩
    rwa [← List.mem_singleton.mp hb, ← hab]

/-- A single row may take a value that no other row has. -/
theorem Distinct.update_iff (h : t.Distinct f) (hr : r ∈ t.rows)
    (hp : ∀ r' ∈ t.rows, p r' = true ↔ r' = r) :
    (t.update p fun _ => v).Distinct f ↔ ∀ r' ∈ t.rows, r' ≠ r → f r'.cols ≠ f v := by
  have hvalue : ∀ r' : Row ρ, f (if p r' then { r' with cols := v } else r').cols =
      if p r' then f v else f r'.cols := by
    intro r'
    split <;> rfl
  simp only [Distinct, Table.update, List.map_map, Function.comp_def, hvalue]
  constructor
  · intro hnodup r' hr' hne heq
    refine hne (List.inj_on_of_nodup_map hnodup hr' hr ?_)
    rw [if_pos ((hp r hr).mpr rfl), if_neg fun hp' => hne ((hp r' hr').mp hp'), heq]
  · intro hother
    refine List.pairwise_map.mpr ((List.pairwise_map.mp h).imp_of_mem fun {a b} ha hb hne => ?_)
    split_ifs with hpa hpb hpb
    · exact absurd (((hp a ha).mp hpa).trans ((hp b hb).mp hpb).symm) fun hab => hne (hab ▸ rfl)
    · exact (hother b hb fun hbr => hpb ((hp b hb).mpr hbr)).symm
    · exact hother a ha fun har => hpa ((hp a ha).mpr har)
    · exact hne

end

/-! ### Two columns that go together -/

variable {f : ρ → α} {g : ρ → β}

def Paired (t : Table ρ) (f : ρ → α) (g : ρ → β) : Prop :=
  ∀ r ∈ t.rows, ∀ r' ∈ t.rows, f r.cols = f r'.cols ↔ g r.cols = g r'.cols

theorem paired_empty : ({} : Table ρ).Paired f g := by
  intro r hr
  simp at hr

/-- A row may be inserted when its two values agree with those of each row together or not at
all. -/
theorem Paired.insert (h : t.Paired f g) (hv : t.All fun w => f w = f v ↔ g w = g v) :
    (t.insert v).Paired f g := by
  intro r hr r' hr'
  rw [mem_insert] at hr hr'
  rcases hr with hr | rfl <;> rcases hr' with hr' | rfl
  · exact h r hr r' hr'
  · exact hv r hr
  · have hback : f r'.cols = f v ↔ g r'.cols = g v := hv r' hr'
    rwa [eq_comm, @eq_comm _ (g v)]
  · simp

theorem Paired.delete (h : t.Paired f g) (p : Row ρ → Bool) : (t.delete p).Paired f g :=
  fun r hr r' hr' => h r (mem_delete.mp hr).1 r' (mem_delete.mp hr').1

theorem Paired.update {u : ρ → ρ} (h : t.Paired f g) (p : Row ρ → Bool) (hf : ∀ v, f (u v) = f v)
    (hg : ∀ v, g (u v) = g v) : (t.update p u).Paired f g := by
  intro r hr r' hr'
  obtain ⟨r₀, h₀, rfl⟩ := mem_update.mp hr
  obtain ⟨r₁, h₁, rfl⟩ := mem_update.mp hr'
  have := h r₀ h₀ r₁ h₁
  split <;> split <;> simpa [hf, hg] using this

end Table

/-! ### Rows with consecutive keys -/

section
variable {ρ : Type*}

/-- The rows that hold `vs`, with the keys that follow `k` one after the other. -/
def numbered (k : ℕ) : List ρ → List (Row ρ)
  | [] => []
  | v :: vs => ⟨k + 1, v⟩ :: numbered (k + 1) vs

@[simp]
theorem numbered_cols (k : ℕ) (vs : List ρ) : (numbered k vs).map Row.cols = vs := by
  induction vs generalizing k with
  | nil => rfl
  | cons v vs ih => simp [numbered, ih]

@[simp]
theorem numbered_length (k : ℕ) (vs : List ρ) : (numbered k vs).length = vs.length := by
  induction vs generalizing k with
  | nil => rfl
  | cons v vs ih => simp [numbered, ih]

theorem numbered_append (k : ℕ) (vs ws : List ρ) :
    numbered k (vs ++ ws) = numbered k vs ++ numbered (k + vs.length) ws := by
  induction vs generalizing k with
  | nil => simp [numbered]
  | cons v vs ih => simp [numbered, ih, Nat.add_comm, Nat.add_left_comm]

theorem pairwise_numbered {k : ℕ} {vs : List ρ} {q : ρ → ρ → Prop} :
    (numbered k vs).Pairwise (fun r r' => q r.cols r'.cols) ↔ vs.Pairwise q := by
  rw [← List.pairwise_map, numbered_cols]

theorem lt_of_mem_numbered {k : ℕ} {vs : List ρ} {r : Row ρ} (h : r ∈ numbered k vs) :
    k < r.id ∧ r.id ≤ k + vs.length := by
  induction vs generalizing k with
  | nil => simp [numbered] at h
  | cons v vs ih =>
    simp only [numbered, List.mem_cons, List.length_cons] at h ⊢
    rcases h with rfl | h
    · simp
    · have := ih h
      omega

namespace Table

/-- The rows are `vs` in this order, and their keys are those that were given last, without a
gap. -/
structure Lists (t : Table ρ) (k : ℕ) (vs : List ρ) : Prop where
  rows : t.rows = numbered k vs
  seq : t.seq = k + vs.length

variable {t : Table ρ} {k : ℕ} {v : ρ} {vs : List ρ}

theorem lists_empty : ({} : Table ρ).Lists 0 [] := ⟨rfl, rfl⟩

theorem Lists.cols (h : t.Lists k vs) : t.rows.map Row.cols = vs := by
  rw [h.rows, numbered_cols]

theorem Lists.length (h : t.Lists k vs) : t.rows.length = vs.length := by
  rw [h.rows, numbered_length]

theorem Lists.insert (h : t.Lists k vs) (v : ρ) : (t.insert v).Lists k (vs ++ [v]) := by
  constructor
  · simp [Table.insert, h.rows, h.seq, numbered_append, numbered]
  · simp [h.seq, Nat.add_assoc]

/-- The first row goes by its key, and the others stay. -/
theorem Lists.deleteFirst (h : t.Lists k (v :: vs)) {p : Row ρ → Bool}
    (hp : ∀ r ∈ t.rows, p r = true ↔ r.id = k + 1) : (t.delete p).Lists (k + 1) vs := by
  constructor
  · have hfirst := hp ⟨k + 1, v⟩ (by simp [h.rows, numbered])
    have hrest : ∀ r ∈ numbered (k + 1) vs, (!p r) = true := by
      intro r hr
      have hid := (lt_of_mem_numbered hr).1
      have := hp r (by simp [h.rows, numbered, hr])
      rw [Bool.not_eq_true', ← Bool.not_eq_true, this]
      omega
    simp only [delete, h.rows, numbered]
    rw [List.filter_cons_of_neg (by simpa using hfirst), List.filter_eq_self.mpr hrest]
  · simp [h.seq, Nat.add_comm, Nat.add_left_comm]

end Table

end

end PttTerminal.Tables
