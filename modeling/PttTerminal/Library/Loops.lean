import Mathlib.Tactic

/-!
# Loops that may fault, leave or go round

One iteration of a `while` loop is a function from the loop state to `Ctl`: either
the next loop state or the value the loop is left with. An iteration may also fault.
`Halts` says without any fuel that the loop is left after finitely many iterations;
`loop` is the executable form, whose fuel is shown to be irrelevant once it suffices.
-/
namespace PttTerminal.Loops

/-- How one iteration ends: back at the loop head, or out of the loop. -/
inductive Ctl (σ : Type*) (ρ : Type*) where
  | next (s : σ)
  | exit (r : ρ)
  deriving Repr

variable {σ ρ ε : Type*}

/-- Run at most `fuel` iterations; `hang` stands for a loop that is still going round. -/
def loop (hang : ε) (body : σ → Except ε (Ctl σ ρ)) : ℕ → σ → Except ε ρ
  | 0, _ => .error hang
  | fuel + 1, s =>
    match body s with
    | .error e => .error e
    | .ok (.exit r) => .ok r
    | .ok (.next t) => loop hang body fuel t

/-- The loop started in `s` is left, by a fault or by its exit, after finitely many iterations. -/
inductive Halts (body : σ → Except ε (Ctl σ ρ)) : σ → Prop
  | fault {s e} : body s = .error e → Halts body s
  | exit {s r} : body s = .ok (.exit r) → Halts body s
  | next {s t} : body s = .ok (.next t) → Halts body t → Halts body s

/-- `t` is a loop state at the loop head of the run started in `s`. -/
inductive Reaches (body : σ → Except ε (Ctl σ ρ)) : σ → σ → Prop
  | refl (s) : Reaches body s s
  | next {s t u} : body s = .ok (.next t) → Reaches body t u → Reaches body s u

/-- The loop started in `s` is left regularly, with `r`. -/
inductive Completes (body : σ → Except ε (Ctl σ ρ)) : σ → ρ → Prop
  | exit {s r} : body s = .ok (.exit r) → Completes body s r
  | next {s t r} : body s = .ok (.next t) → Completes body t r → Completes body s r

variable {body : σ → Except ε (Ctl σ ρ)} {hang : ε}

theorem Reaches.halts {s t : σ} (h : Reaches body s t) (hs : Halts body s) : Halts body t := by
  induction h with
  | refl s => exact hs
  | next hb _ ih =>
    cases hs with
    | fault h => simp [hb] at h
    | exit h => simp [hb] at h
    | next h ht =>
      rw [hb] at h
      cases h
      exact ih ht

theorem Reaches.trans {s t u : σ} (h : Reaches body s t) (h' : Reaches body t u) :
    Reaches body s u := by
  induction h with
  | refl s => exact h'
  | next hb _ ih => exact .next hb (ih h')

theorem Reaches.completes {s t : σ} {r : ρ} (h : Reaches body s t) (ht : Completes body t r) :
    Completes body s r := by
  induction h with
  | refl s => exact ht
  | next hb _ ih => exact .next hb (ih ht)

/-- A set of loop states that no iteration leaves is a loop without end. -/
theorem not_halts_of_invariant (P : σ → Prop)
    (hP : ∀ s, P s → ∃ t, body s = .ok (.next t) ∧ P t) {s : σ} (hs : P s) :
    ¬ Halts body s := by
  intro h
  induction h with
  | fault h | exit h =>
    obtain ⟨t, ht, _⟩ := hP _ hs
    simp [ht] at h
  | next h _ ih =>
    obtain ⟨t, ht, hPt⟩ := hP _ hs
    rw [ht] at h
    cases h
    exact ih hPt

/-- When every state reached makes progress, the loop is left. -/
theorem halts_of_measure (μ : σ → ℕ) {s : σ}
    (hμ : ∀ u t, Reaches body s u → body u = .ok (.next t) → μ t < μ u) : Halts body s := by
  induction hn : μ s using Nat.strong_induction_on generalizing s with
  | h n ih =>
    cases hb : body s with
    | error e => exact .fault hb
    | ok c =>
      cases c with
      | exit r => exact .exit hb
      | next t =>
        have hlt : μ t < μ s := hμ s t (.refl s) hb
        exact .next hb (ih (μ t) (hn ▸ hlt) (fun u v hu hv => hμ u v (.next hb hu) hv) rfl)

theorem loop_succ (fuel : ℕ) (s : σ) :
    loop hang body (fuel + 1) s = match body s with
      | .error e => .error e
      | .ok (.exit r) => .ok r
      | .ok (.next t) => loop hang body fuel t := rfl

theorem loop_next {s t : σ} (h : body s = .ok (.next t)) (fuel : ℕ) :
    loop hang body (fuel + 1) s = loop hang body fuel t := by rw [loop_succ, h]

theorem loop_exit {s : σ} {r : ρ} (h : body s = .ok (.exit r)) (fuel : ℕ) :
    loop hang body (fuel + 1) s = .ok r := by rw [loop_succ, h]

theorem loop_fault {s : σ} {e : ε} (h : body s = .error e) (fuel : ℕ) :
    loop hang body (fuel + 1) s = .error e := by rw [loop_succ, h]

/-- A result other than `hang` does not change with more fuel. -/
theorem loop_mono {fuel : ℕ} {s : σ} {x : Except ε ρ} (h : loop hang body fuel s = x)
    (hx : x ≠ .error hang) {more : ℕ} (hm : fuel ≤ more) : loop hang body more s = x := by
  induction fuel generalizing s more with
  | zero => exact absurd h.symm hx
  | succ fuel ih =>
    obtain ⟨more, rfl⟩ : ∃ k, more = k + 1 := ⟨more - 1, by omega⟩
    rw [loop_succ] at h ⊢
    cases hb : body s with
    | error e => simpa only [hb] using h
    | ok c =>
      cases c with
      | exit r => simpa only [hb] using h
      | next t =>
        simp only [hb] at h
        exact ih h (by omega)

/-- A loop that goes on for ever has no result at any fuel. -/
theorem loop_of_not_halts {s : σ} (h : ¬ Halts body s) (fuel : ℕ) :
    loop hang body fuel s = .error hang := by
  induction fuel generalizing s with
  | zero => rfl
  | succ fuel ih =>
    cases hb : body s with
    | error e => exact absurd (.fault hb) h
    | ok c =>
      cases c with
      | exit r => exact absurd (.exit hb) h
      | next t =>
        rw [loop_next hb]
        exact ih fun ht => h (.next hb ht)

/-- With a bound on the iterations, any fuel above it gives the same result. -/
theorem loop_congr_of_measure (μ : σ → ℕ) {s : σ}
    (hμ : ∀ u t, Reaches body s u → body u = .ok (.next t) → μ t < μ u) {fuel more : ℕ}
    (hf : μ s < fuel) (hm : μ s < more) : loop hang body fuel s = loop hang body more s := by
  induction fuel generalizing s more with
  | zero => omega
  | succ fuel ih =>
    obtain ⟨more, rfl⟩ : ∃ k, more = k + 1 := ⟨more - 1, by omega⟩
    cases hb : body s with
    | error e => rw [loop_fault hb, loop_fault hb]
    | ok c =>
      cases c with
      | exit r => rw [loop_exit hb, loop_exit hb]
      | next t =>
        have hlt := hμ s t (.refl s) hb
        rw [loop_next hb, loop_next hb]
        exact ih (fun v w hv hw => hμ v w (.next hb hv) hw) (by omega) (by omega)

theorem halts_of_loop_eq_ok {s : σ} {fuel : ℕ} {r : ρ} (h : loop hang body fuel s = .ok r) :
    Halts body s := by
  by_contra hs
  rw [loop_of_not_halts hs] at h
  simp at h

theorem completes_of_loop_eq_ok {s : σ} {fuel : ℕ} {r : ρ} (h : loop hang body fuel s = .ok r) :
    Completes body s r := by
  induction fuel generalizing s with
  | zero => simp [loop] at h
  | succ fuel ih =>
    rw [loop_succ] at h
    rcases hb : body s with e | ⟨t | r'⟩
    · simp [hb] at h
    · simp only [hb] at h
      exact .next hb (ih h)
    · simp only [hb, Except.ok.injEq] at h
      exact h ▸ .exit hb

/-- When every iteration makes progress, the loop has a result just when it is left regularly. -/
theorem loop_eq_ok_iff (μ : σ → ℕ) (hμ : ∀ s t, body s = .ok (.next t) → μ t < μ s) {s : σ}
    {fuel : ℕ} {r : ρ} (hf : μ s < fuel) : loop hang body fuel s = .ok r ↔ Completes body s r := by
  refine ⟨completes_of_loop_eq_ok, fun h => ?_⟩
  induction h generalizing fuel with
  | exit hb =>
    obtain ⟨k, rfl⟩ : ∃ k, fuel = k + 1 := ⟨fuel - 1, by omega⟩
    exact loop_exit hb k
  | next hb _ ih =>
    have := hμ _ _ hb
    obtain ⟨k, rfl⟩ : ∃ k, fuel = k + 1 := ⟨fuel - 1, by omega⟩
    rw [loop_next hb]
    exact ih (by omega)

/-- What an iteration preserves holds in every loop state reached. -/
theorem Reaches.invariant (P : σ → Prop)
    (hP : ∀ s t, P s → body s = .ok (.next t) → P t) {s t : σ} (h : Reaches body s t)
    (hs : P s) : P t := by
  induction h with
  | refl s => exact hs
  | next hb _ ih => exact ih (hP _ _ hs hb)

/-- A loop that is left from a state with the invariant is left with what the exits give. -/
theorem Completes.invariant {P : σ → Prop} {Q : ρ → Prop}
    (hnext : ∀ s t, P s → body s = .ok (.next t) → P t)
    (hexit : ∀ s r, P s → body s = .ok (.exit r) → Q r) {s : σ} {r : ρ} (h : Completes body s r)
    (hs : P s) : Q r := by
  induction h with
  | exit hb => exact hexit _ _ hs hb
  | next hb _ ih => exact ih (hnext _ _ hs hb)

theorem loop_invariant {P : σ → Prop} {Q : ρ → Prop}
    (hnext : ∀ s t, P s → body s = .ok (.next t) → P t)
    (hexit : ∀ s r, P s → body s = .ok (.exit r) → Q r) {s : σ} {fuel : ℕ} {r : ρ}
    (h : loop hang body fuel s = .ok r) (hs : P s) : Q r :=
  (completes_of_loop_eq_ok h).invariant hnext hexit hs

end PttTerminal.Loops
