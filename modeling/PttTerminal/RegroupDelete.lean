import PttTerminal.DeletionPass

/-!
# The groups that a regroup message deletes

The groups that the message mentions are kept, in their order. As soon as one is deleted the group
of the session is read, if there is a session.
-/
namespace PttTerminal

open Loops LinkedCells

/-- The group `y` was taken away, and the session ended if it was the one of its number. -/
def Removed (info info' : PttInfo) (y : ℕ × GroupInfo) : Prop :=
  ∃ info₁ head, endSession info y.2.number = .ok info₁ ∧
    Freed { info₁ with generalGroup := head } info' y

section pass

variable {info : PttInfo} {content : Bytes} {cur : List (ℕ × GroupInfo)}

/-- The pass keeps the groups the content mentions, in their order, and what is kept when a group is
removed and when the head is set. -/
theorem deleteGroups_rule {P : PttInfo → List (ℕ × GroupInfo) → Prop}
    (hremoved : ∀ info info' y l rs, P info (l ++ y :: rs) →
      Removed info info' y → P info' (l ++ rs))
    (hhead : ∀ info xs head, P info xs → P { info with generalGroup := head } xs)
    (h : info.Groups cur) (hP : P info cur)
    (hr : (∀ p ∈ cur, mentions content p.2 = true) ∨ info.SessionReadable) :
    ∃ info', deleteGroups content info = .ok info' ∧
      info'.Groups (cur.filter fun p => mentions content p.2) ∧
      P info' (cur.filter fun p => mentions content p.2) := by
  rw [deleteGroups_pass]
  exact regroupPass.deleteGroups_rule (fun info info' y l rs _ _ => hremoved info info' y l rs)
    hhead h hP hr

/-- A session whose group cannot be read ends the pass at the first group that is deleted. -/
theorem deleteGroups_error (h : info.Groups cur)
    (hall : ¬ ∀ p ∈ cur, mentions content p.2 = true) (hr : ¬ info.SessionReadable) :
    ∃ e, deleteGroups content info = .error e := by
  rw [deleteGroups_pass]
  exact regroupPass.deleteGroups_error h hall hr

end pass

end PttTerminal
