import PttTerminal.Regroup
import PttTerminal.Responses

/-!
# The texts of group lists

The same text is read in two ways. The loader knows three kinds of lines and wants something
behind each line of groups; the merger only knows the lines of groups. Both step over every
other line, as long as the text that is left is not shorter than what it is compared with.
-/
namespace PttTerminal

open Loops

theorem skipLine_length_lt {r : Bytes} (h : r ≠ []) : (skipLine r).length < r.length := by
  have hle := (List.dropWhile_suffix (l := r) fun c => c ≠ LF && c ≠ 0).length_le
  have hpos := List.length_pos_iff.mpr h
  unfold skipLine
  split
  · rename_i c rest heq
    rw [heq, List.length_cons] at hle
    split_ifs
    · omega
    · simpa using hpos
  · simpa using hpos

/-- The groups that follow while `ichar` is a semicolon, up to the byte `c` behind the last one. -/
inductive MoreRecords : List GroupText → UInt8 → Bytes → UInt8 → Bytes → Prop
  | stop {c r} : c ≠ 59 → MoreRecords [] c r c r
  | more {t ts r d m c k} : Record t r (d :: m) → MoreRecords ts d m c k →
      MoreRecords (t :: ts) 59 r c k

/-- The groups of one line, the byte behind the last one, and the rest of the text. -/
def Records : List GroupText → Bytes → UInt8 → Bytes → Prop
  | [], _, _, _ => False
  | t :: ts, x, c, k => ∃ d m, Record t x (d :: m) ∧ MoreRecords ts d m c k

def generalLit : Bytes := ascii "general-group:"
def emergencyLit : Bytes := ascii "emergency-group:"
def signalLit : Bytes := ascii "signal-address:"

/-- An address and a port. -/
def SignalLine (r m : Bytes) : Prop :=
  ∃ addr port e, r = signalLit ++ (addr ++ 58 :: (port ++ e)) ∧ Free [58] addr ∧
    Free [CR, LF] port ∧ Newline e m

/-- One line as the loader reads it, with its groups if it is a line of groups. -/
inductive LoadLine : Option (List GroupText) → Bytes → Bytes → Prop
  | blank {x m} : Blank x m → LoadLine none (generalLit ++ x) m
  | groups {ts x c e m} : crOrSecondLf x = false → Records ts x c e → Newline e m →
      emergencyLit.length ≤ m.length → LoadLine (some ts) (generalLit ++ x) m
  | emergency {r} : emergencyLit <+: r → LoadLine none r (skipLine r)
  | signal {r m} : SignalLine r m → LoadLine none r m
  | other {r} : emergencyLit.length ≤ r.length → ¬ generalLit <+: r → ¬ emergencyLit <+: r →
      ¬ signalLit <+: r → LoadLine none r (skipLine r)

/-- The line end behind a line of groups, of which the byte `c` was read already. -/
def RestOfLineEnd (c : UInt8) (e m : Bytes) : Prop := if c = CR then Newline e m else m = e

/-- One line as the merger reads it. -/
inductive MergeLine : Option (List GroupText) → Bytes → Bytes → Prop
  | groups {ts x c e m} : Records ts x c e → RestOfLineEnd c e m →
      MergeLine (some ts) (generalLit ++ x) m
  | other {r} : generalLit.length ≤ r.length → ¬ generalLit <+: r → MergeLine none r (skipLine r)

/-- A text read line by line to its end, with its lines of groups. -/
inductive Lines (line : Option (List GroupText) → Bytes → Bytes → Prop) :
    List (List GroupText) → Bytes → Prop
  | nil : Lines line [] []
  | cons {o ls r m} : r ≠ [] → line o r m → Lines line ls m → Lines line (o.toList ++ ls) r

theorem MoreRecords.length_le {ts : List GroupText} {c d : UInt8} {r k : Bytes}
    (h : MoreRecords ts c r d k) : k.length ≤ r.length := by
  induction h with
  | stop _ => exact le_rfl
  | more ht _ ih =>
    have := ht.length_lt
    simp only [List.length_cons] at this
    omega

theorem Records.length_lt {ts : List GroupText} {c : UInt8} {x k : Bytes} (h : Records ts x c k) :
    k.length < x.length := by
  cases ts with
  | nil => exact h.elim
  | cons t ts =>
    obtain ⟨d, m, ht, hm⟩ := h
    have := ht.length_lt
    have := hm.length_le
    simp only [List.length_cons] at *
    omega

theorem LoadLine.length_lt {o : Option (List GroupText)} {r m : Bytes} (h : LoadLine o r m)
    (hr : r ≠ []) : m.length < r.length := by
  cases h with
  | blank hb =>
    have := hb.2.length_lt
    simp only [List.length_append]
    omega
  | groups _ hrec hnl _ =>
    have := hrec.length_lt
    have := hnl.length_lt
    simp only [List.length_append]
    omega
  | emergency _ | other _ _ _ _ => exact skipLine_length_lt hr
  | signal hs =>
    obtain ⟨addr, port, e, rfl, -, -, hnl⟩ := hs
    have := hnl.length_lt
    simp only [List.length_append, List.length_cons]
    omega

theorem MergeLine.length_lt {o : Option (List GroupText)} {r m : Bytes} (h : MergeLine o r m)
    (hr : r ≠ []) : m.length < r.length := by
  cases h with
  | groups hrec hnl =>
    have hx := hrec.length_lt
    simp only [List.length_append]
    unfold RestOfLineEnd at hnl
    split_ifs at hnl
    · have := hnl.length_lt
      omega
    · subst hnl
      omega
  | other _ _ => exact skipLine_length_lt hr

end PttTerminal
