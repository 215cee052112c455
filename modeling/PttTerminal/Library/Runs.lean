import Mathlib.Tactic

/-!
# Runs under a condition on their steps

A system starts in one of its first states and takes one event after the other. An event that is
not enabled does not happen. `Reached` are the states of the runs all of whose steps meet a
condition on the state before the step and the event, so that what a system does in order is
separated from what breaks it.
-/
namespace PttTerminal.Runs

structure System (σ : Type*) (ε : Type*) where
  init : σ → Prop
  enabled : σ → ε → Prop
  next : σ → ε → σ

variable {σ ε : Type*} {S : System σ ε} {ok : σ → ε → Prop}

/-- The states of the runs whose steps all meet `ok`. -/
inductive System.Reached (S : System σ ε) (ok : σ → ε → Prop) : σ → Prop
  | start {s} : S.init s → S.Reached ok s
  | step {s e} : S.Reached ok s → S.enabled s e → ok s e → S.Reached ok (S.next s e)

/-- What the first states have and each step keeps holds in every state of a run. -/
theorem System.Reached.invariant {P : σ → Prop} (hinit : ∀ s, S.init s → P s)
    (hstep : ∀ s e, P s → S.enabled s e → ok s e → P (S.next s e)) {s : σ} (h : S.Reached ok s) :
    P s := by
  induction h with
  | start h => exact hinit _ h
  | step _ he hok ih => exact hstep _ _ ih he hok

/-- The events of `es` are enabled one after the other and meet the condition. -/
def System.Allowed (S : System σ ε) (ok : σ → ε → Prop) : σ → List ε → Prop
  | _, [] => True
  | s, e :: es => S.enabled s e ∧ ok s e ∧ S.Allowed ok (S.next s e) es

def System.run (S : System σ ε) (s : σ) (es : List ε) : σ := es.foldl S.next s

theorem System.Reached.run {s : σ} (h : S.Reached ok s) {es : List ε} (hes : S.Allowed ok s es) :
    S.Reached ok (S.run s es) := by
  induction es generalizing s with
  | nil => exact h
  | cons e es ih => exact ih (h.step hes.1 hes.2.1) hes.2.2

@[simp]
theorem System.run_append (s : σ) (es es' : List ε) :
    S.run s (es ++ es') = S.run (S.run s es) es' := by
  simp [System.run]

theorem System.allowed_append {s : σ} {es es' : List ε} :
    S.Allowed ok s (es ++ es') ↔ S.Allowed ok s es ∧ S.Allowed ok (S.run s es) es' := by
  induction es generalizing s with
  | nil => simp [System.Allowed, System.run]
  | cons e es ih =>
    simp only [List.cons_append, System.Allowed, ih, and_assoc]
    rfl

theorem System.Allowed.imp {ok' : σ → ε → Prop} (hok : ∀ s e, ok s e → ok' s e) {s : σ}
    {es : List ε} (h : S.Allowed ok s es) : S.Allowed ok' s es := by
  induction es generalizing s with
  | nil => trivial
  | cons e es ih => exact ⟨h.1, hok s e h.2.1, ih h.2.2⟩

/-- A run that meets the condition in every step is in order at its end. -/
theorem System.reached_run {s : σ} (hinit : S.init s) {es : List ε} (hes : S.Allowed ok s es) :
    S.Reached ok (S.run s es) :=
  (System.Reached.start hinit).run hes

/-- Where steps in order keep `P`, and the others break what `P` promises, the runs in order are
those that never break it. -/
theorem System.allowed_iff {P Q : σ → Prop} (hPQ : ∀ s, P s → Q s)
    (hkeep : ∀ s e, P s → S.enabled s e → ok s e → P (S.next s e))
    (hbreak : ∀ s e, P s → S.enabled s e → ¬ok s e → ¬Q (S.next s e)) {s : σ} (hs : P s)
    {es : List ε} (hes : S.Allowed (fun _ _ => True) s es) :
    S.Allowed ok s es ↔ ∀ es', es' <+: es → Q (S.run s es') := by
  induction es generalizing s with
  | nil =>
    simp only [System.Allowed, true_iff, List.prefix_nil]
    rintro _ rfl
    exact hPQ s hs
  | cons e es ih =>
    obtain ⟨he, -, hes⟩ := hes
    by_cases hok : ok s e
    · have ih := ih (hkeep s e hs he hok) hes
      simp only [System.Allowed, he, hok, true_and, ih]
      constructor
      · intro h es' hp
        cases es' with
        | nil => exact hPQ s hs
        | cons e' es' =>
          rw [List.cons_prefix_cons] at hp
          obtain ⟨rfl, hp⟩ := hp
          exact h es' hp
      · intro h es' hp
        exact h (e :: es') (List.cons_prefix_cons.mpr ⟨rfl, hp⟩)
    · simp only [System.Allowed, hok, false_and, and_false, false_iff, not_forall]
      refine ⟨[e], ?_, hbreak s e hs he hok⟩
      simp

def System.decAllowed [∀ s e, Decidable (S.enabled s e)] [∀ s e, Decidable (ok s e)] :
    (s : σ) → (es : List ε) → Decidable (S.Allowed ok s es)
  | _, [] => isTrue trivial
  | s, e :: es =>
    have := System.decAllowed (S.next s e) es
    inferInstanceAs (Decidable (S.enabled s e ∧ ok s e ∧ S.Allowed ok (S.next s e) es))

instance [∀ s e, Decidable (S.enabled s e)] [∀ s e, Decidable (ok s e)] (s : σ) (es : List ε) :
    Decidable (S.Allowed ok s es) := System.decAllowed s es

end PttTerminal.Runs
