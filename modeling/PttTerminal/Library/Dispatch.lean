import Mathlib.Tactic

/-!
# Requests that are offered to modules

Modules stand in a list in the order of their priorities, behind those of the same priority that
were there before. A request is offered to one after the other until one takes it; each may change
the state, and a fault ends everything. The calls that were made are recorded.
-/
namespace PttTerminal.Dispatch

structure Module (ι ρ σ φ : Type) where
  name : ι
  priority : ℕ
  onRxRequest : Option (ρ → σ → Except φ (Bool × σ))

/-- A module that was called, the states around the call, and whether it took the request. -/
structure Call (ι σ : Type) where
  name : ι
  before : σ
  after : σ
  handled : Bool

variable {ι ρ σ φ : Type} {m : Module ι ρ σ φ} {ms pre post : List (Module ι ρ σ φ)} {r : ρ} {s : σ}
  {calls : List (Call ι σ)}

/-! ### The list of modules -/

def insert (m : Module ι ρ σ φ) : List (Module ι ρ σ φ) → List (Module ι ρ σ φ)
  | [] => [m]
  | m' :: ms => if m'.priority > m.priority then m :: m' :: ms else m' :: insert m ms

def Sorted (ms : List (Module ι ρ σ φ)) : Prop := ms.Pairwise fun m m' => m.priority ≤ m'.priority

theorem insert_perm (m : Module ι ρ σ φ) (ms : List (Module ι ρ σ φ)) :
    (insert m ms).Perm (m :: ms) := by
  induction ms with
  | nil => exact .refl _
  | cons m' ms ih =>
    unfold insert
    split
    · exact .refl _
    · exact (ih.cons m').trans (.swap m m' ms)

theorem mem_insert {m' : Module ι ρ σ φ} : m' ∈ insert m ms ↔ m' = m ∨ m' ∈ ms := by
  rw [(insert_perm m ms).mem_iff, List.mem_cons]

theorem Sorted.insert (h : Sorted ms) (m : Module ι ρ σ φ) : Sorted (insert m ms) := by
  induction ms with
  | nil => exact List.pairwise_singleton _ _
  | cons m₁ ms ih =>
    obtain ⟨hfirst, hrest⟩ := List.pairwise_cons.mp h
    unfold Dispatch.insert
    split_ifs with hlt
    · apply List.Pairwise.cons _ h
      intro m' hm'
      obtain rfl | hm' := List.mem_cons.mp hm'
      · omega
      · have := hfirst m' hm'
        omega
    · apply List.Pairwise.cons _ (ih hrest)
      intro m' hm'
      obtain rfl | hm' := mem_insert.mp hm'
      · omega
      · exact hfirst m' hm'

/-- Of two modules with different priorities the first one is in front. -/
theorem Sorted.not_mem_front (h : Sorted (pre ++ m :: post)) {m' : Module ι ρ σ φ}
    (hlt : m.priority < m'.priority) : m' ∉ pre := by
  intro hm'
  have := (List.pairwise_append.mp h).2.2 m' hm' m (by simp)
  omega

/-! ### Offering a request -/

def offer (r : ρ) : List (Module ι ρ σ φ) → σ → Except φ (List (Call ι σ))
  | [], _ => .ok []
  | m :: ms, s => match m.onRxRequest with
    | none => offer r ms s
    | some f => match f r s with
      | .error e => .error e
      | .ok (true, s') => .ok [⟨m.name, s, s', true⟩]
      | .ok (false, s') => (offer r ms s').map (⟨m.name, s, s', false⟩ :: ·)

theorem offer_cons : offer r (m :: ms) s = match m.onRxRequest with
    | none => offer r ms s
    | some f => match f r s with
      | .error e => .error e
      | .ok (true, s') => .ok [⟨m.name, s, s', true⟩]
      | .ok (false, s') => (offer r ms s').map (⟨m.name, s, s', false⟩ :: ·) := rfl

/-- Some module took the request. -/
def Taken (calls : List (Call ι σ)) : Prop := ∃ c ∈ calls, c.handled = true

instance (calls : List (Call ι σ)) : Decidable (Taken calls) :=
  inferInstanceAs (Decidable (∃ c ∈ calls, c.handled = true))

theorem offer_names (h : offer r ms s = .ok calls) :
    ∀ c ∈ calls, c.name ∈ ms.map Module.name := by
  induction ms generalizing s calls with
  | nil =>
    cases h
    simp
  | cons m ms ih =>
    rw [offer_cons] at h
    split at h
    · exact fun c hc => List.mem_cons_of_mem _ (ih h c hc)
    · split at h
      · cases h
      · cases h
        simp
      · next s' _ =>
        cases hrest : offer r ms s' with
        | error e => simp [hrest, Except.map] at h
        | ok cs =>
          rw [hrest] at h
          cases h
          intro c hc
          obtain rfl | hc := List.mem_cons.mp hc
          · simp
          · exact List.mem_cons_of_mem _ (ih hrest c hc)

/-- The modules behind are called when those in front leave the request. -/
theorem offer_append (h : offer r (pre ++ post) s = .ok calls) :
    ∃ cs, offer r pre s = .ok cs ∧ (Taken cs ∧ calls = cs ∨
      ¬Taken cs ∧ ∃ s' cs', offer r post s' = .ok cs' ∧ calls = cs ++ cs') := by
  induction pre generalizing s calls with
  | nil => exact ⟨[], rfl, .inr ⟨by simp [Taken], s, calls, h, rfl⟩⟩
  | cons m pre ih =>
    rw [List.cons_append, offer_cons] at h
    rw [offer_cons]
    split at h
    · exact ih h
    · split at h
      · cases h
      · cases h
        exact ⟨_, rfl, .inl ⟨⟨_, List.mem_singleton_self _, rfl⟩, rfl⟩⟩
      · next s' _ =>
        cases hrest : offer r (pre ++ post) s' with
        | error e => simp [hrest, Except.map] at h
        | ok cs =>
          rw [hrest] at h
          cases h
          obtain ⟨cs₁, hpre, hcases⟩ := ih hrest
          refine ⟨_, by rw [hpre]; rfl, ?_⟩
          obtain ⟨htaken, rfl⟩ | ⟨hpass, s'', cs₂, hpost, rfl⟩ := hcases
          · exact .inl ⟨by simpa [Taken] using htaken, rfl⟩
          · exact .inr ⟨by simpa [Taken] using hpass, s'', cs₂, hpost, rfl⟩

end PttTerminal.Dispatch
