import Mathlib.Tactic

/-!
# Journals

A journal holds what happened, the latest entry first. A law about the past is a relation between an
entry and the journal it was written to; `Throughout` says that every entry met it when it was
written. `latest` is the last word on a question that only some entries answer.
-/
namespace PttTerminal.Journals

variable {ε α : Type*}

/-- Each entry meets the law with the entries before it. -/
def Throughout (law : ε → List ε → Prop) : List ε → Prop
  | [] => True
  | e :: es => law e es ∧ Throughout law es

variable {law : ε → List ε → Prop}

@[simp]
theorem throughout_nil : Throughout law [] := trivial

@[simp]
theorem throughout_cons {e : ε} {es : List ε} :
    Throughout law (e :: es) ↔ law e es ∧ Throughout law es := Iff.rfl

def decThroughout [∀ e es, Decidable (law e es)] : (es : List ε) → Decidable (Throughout law es)
  | [] => isTrue trivial
  | e :: es =>
    have := decThroughout es
    inferInstanceAs (Decidable (law e es ∧ Throughout law es))

instance [∀ e es, Decidable (law e es)] (es : List ε) : Decidable (Throughout law es) :=
  decThroughout es

/-- The answer of the last entry that has one. -/
def latest (answer : ε → Option α) (es : List ε) : Option α := es.findSome? answer

variable {answer : ε → Option α}

@[simp]
theorem latest_nil : latest answer [] = none := rfl

theorem latest_cons (e : ε) (es : List ε) :
    latest answer (e :: es) = (answer e).or (latest answer es) := by
  unfold latest
  rw [List.findSome?_cons]
  cases answer e <;> rfl

theorem latest_cons_of_some {e : ε} {a : α} (h : answer e = some a) (es : List ε) :
    latest answer (e :: es) = some a := by simp [latest_cons, h]

/-- An entry that does not answer leaves the last word as it was. -/
theorem latest_cons_of_none {e : ε} (h : answer e = none) (es : List ε) :
    latest answer (e :: es) = latest answer es := by simp [latest_cons, h]

end PttTerminal.Journals
