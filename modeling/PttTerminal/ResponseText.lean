import PttTerminal.MulticastSession
import PttTerminal.WaitingLines

/-!
# Floor responses that are delivered

A response that rejects a request or makes it wait is delivered when the application is told, once,
the reason, the speaker and the place in the queue that are written. Which orders of the lines, line
ends and values are read so far is stated for all of them.
-/
namespace PttTerminal

open Loops

/-! ### The bodies, and what is told of them -/

/-- What a body says, nothing where a line is absent or blank. -/
structure Written where
  speaker : Bytes := []
  pos : Bytes := []
  total : Bytes := []
  reason : Bytes := []
  deriving Repr, DecidableEq

def NumberTold (t : Bytes) (z : ℤ) : Prop := if t = [] then z ≤ 0 else z = numberOf t

/-- The status says what is written, and what is not written is not given. -/
structure Tells (s : PttGroupStatus) (w : Written) : Prop where
  speaker : s.speakerNum.getD [] = w.speaker
  pos : NumberTold w.pos s.currentWaitingPos
  total : NumberTold w.total s.totalWaitingCount
  reason : NumberTold w.reason s.rejectReason

def WaitingBody.written (b : WaitingBody) : Written where
  speaker := (b.fields.findSome? fun | .speaker v => some v | .queue _ => none).getD []
  pos := (b.fields.findSome? fun | .speaker _ => none | .queue q => q.map Prod.fst).getD []
  total := (b.fields.findSome? fun | .speaker _ => none | .queue q => q.map Prod.snd).getD []

def WaitingField.isSpeaker : WaitingField → Bool
  | .speaker _ => true
  | .queue _ => false

/-- Every line is there once at most. -/
structure WaitingBody.WellFormed (b : WaitingBody) : Prop where
  fields : ∀ f ∈ b.fields, f.WellFormed
  once : b.fields.Pairwise fun f g => f.isSpeaker ≠ g.isSpeaker

/-- A response that is not an answer of one word. -/
inductive ResponseBody where
  | waiting (b : WaitingBody)
  | reject (b : RejectBody)
  deriving Repr, DecidableEq

namespace ResponseBody

def text : ResponseBody → Bytes
  | .waiting b => b.text
  | .reject b => b.text

/-- The status that the text is handed over with. -/
def status : ResponseBody → PttStatus
  | .waiting _ => .waiting
  | .reject _ => .rejected

def written : ResponseBody → Written
  | .waiting b => b.written
  | .reject b => { reason := b.error.getD [] }

def WellFormed : ResponseBody → Prop
  | .waiting b => b.WellFormed
  | .reject b => b.WellFormed

end ResponseBody

/-- What is made of a response, with the length of the array of the speaker. -/
def receiveResponseCopy (info : PttInfo) (status : PttStatus) (msgContent : Bytes) :
    Except Fault PttInfo :=
  match status with
  | .waiting => do
    let s ← parseWaitingCopy msgContent
    return info.report (.updatePttState s)
  | _ => receivePttRightResponse info status msgContent

/-- Where the copy is in bounds, this is what is made of the response. -/
theorem receiveResponseCopy_eq {info : PttInfo} {status : PttStatus} {msgContent : Bytes}
    (h : Avoids waitingRules (longField waitingFields) [] msgContent) :
    receiveResponseCopy info status msgContent =
      receivePttRightResponse info status msgContent := by
  cases status with
  | waiting =>
    simp only [receiveResponseCopy, receivePttRightResponse, parseWaitingCopy_eq h]
    rfl
  | _ => rfl

/-- The application is told once what is written. -/
def ResponseDelivered (info : PttInfo) (b : ResponseBody) : Prop :=
  ∃ s, receiveResponseCopy info b.status b.text = .ok (info.report (.updatePttState s)) ∧
    s.status = b.status ∧ Tells s b.written

/-! ### Which bodies are delivered -/

/-- The lines of a waiting response come in an order, and end in a way, that the reader follows to
the end: behind the speaker it expects the queue, and behind the queue the first line again. -/
def WaitingBody.InOrder (b : WaitingBody) : Prop :=
  match b.fields with
  | [] => b.ended = true
  | [.speaker v] => b.ended = false ∧ v ≠ []
  | [.queue none] => b.lineEnd = .crlf ∧ b.ended = true
  | [.queue (some _)] => True
  | [.speaker _, .queue none] => b.lineEnd = .crlf ∧ b.ended = true
  | [.speaker v, .queue (some _)] => b.lineEnd = .lf → v.length ≠ 1
  | [.queue none, .speaker v] => b.lineEnd = .crlf ∧ v = []
  | [.queue (some _), .speaker v] => b.ended = false ∧ 7 ≤ v.length
  | _ => False

/-- The order is one that is read, the speaker fits and has no NUL, and the numbers have 31 bits. -/
structure WaitingBody.Readable (b : WaitingBody) : Prop where
  inOrder : b.InOrder
  room : b.written.speaker.length < 64
  nul : 0 ∉ b.written.speaker
  pos : numberOf b.written.pos < 2 ^ 31
  total : numberOf b.written.total < 2 ^ 31

/-- There is a reason, of 31 bits, or its line is blank and ends; a single digit before LF is not
read. -/
def RejectBody.Readable (b : RejectBody) : Prop :=
  match b.error with
  | none => False
  | some [] => b.ended = true
  | some n => ¬(b.ended = true ∧ b.lineEnd = .lf ∧ n.length = 1) ∧ numberOf n < 2 ^ 31

def ResponseBody.Readable : ResponseBody → Prop
  | .waiting b => b.Readable
  | .reject b => b.Readable

theorem numberTold_digits {t : Bytes} (h : Digits t) :
    NumberTold t (jint (pjStrtoul t)) ↔ numberOf t < 2 ^ 31 := by
  rw [NumberTold, if_neg h.1, jint_digits h]

theorem numberTold_nil {z : ℤ} : NumberTold [] z ↔ z ≤ 0 := by simp [NumberTold]

section delivered

variable {info : PttInfo} {nl : LineEnd} {ended : Bool} {v m pos total : Bytes} {x : WaitingVars}

theorem tells_waitingStatus {w : Written} {speaker : Option Bytes} {p t : ℤ} :
    Tells (waitingStatus speaker p t) w ↔ speaker.getD [] = w.speaker ∧ NumberTold w.pos p ∧
      NumberTold w.total t ∧ NumberTold w.reason 0 :=
  ⟨fun h => ⟨h.speaker, h.pos, h.total, h.reason⟩, fun h => ⟨h.1, h.2.1, h.2.2.1, h.2.2.2⟩⟩

theorem report_eq_ok {parsed : Except Fault PttGroupStatus} {s : PttGroupStatus} :
    (do let s ← parsed; return info.report (.updatePttState s) : Except Fault PttInfo) =
      .ok (info.report (.updatePttState s)) ↔ parsed.toOption = some s := by
  cases parsed with
  | error e => simp [bind, Except.bind, Except.toOption]
  | ok s' => simp [bind, Except.bind, pure, Except.pure, PttInfo.report, Except.toOption]

theorem waitingDelivered_iff {b : WaitingBody} : ResponseDelivered info (.waiting b) ↔
    ∃ s, (parseWaitingCopy b.text).toOption = some s ∧ s.status = .waiting ∧ Tells s b.written :=
  exists_congr fun _ => and_congr_left fun _ => report_eq_ok

theorem rejectDelivered_iff {b : RejectBody} : ResponseDelivered info (.reject b) ↔
    ∃ s, (parseRejectMsg b.text).toOption = some s ∧ s.status = .rejected ∧
      Tells s { reason := b.error.getD [] } :=
  exists_congr fun _ => and_congr_left fun _ => report_eq_ok

/-- A rejected response is delivered just when its reason is read. -/
theorem reject_delivered_iff {b : RejectBody} (h : b.WellFormed) :
    ResponseDelivered info (.reject b) ↔ b.Readable := by
  rw [rejectDelivered_iff]
  cases herr : b.error with
  | none =>
    rw [parseReject_absent herr]
    simp [RejectBody.Readable, herr, Except.toOption]
  | some n =>
    have hfree : Free [CR, LF] n := by
      by_cases hn : n = []
      · simp [hn, Free]
      · exact (h n herr hn).free (by decide)
    have htells : ∀ z,
        (∃ s : PttGroupStatus, some { status := .rejected, rejectReason := z } = some s ∧
        s.status = .rejected ∧ Tells s { reason := n }) ↔ NumberTold n z := by
      intro z
      constructor
      · rintro ⟨s, hs, -, ht⟩
        cases hs
        exact ht.reason
      · intro ht
        exact ⟨_, rfl, rfl, rfl, numberTold_nil.mpr le_rfl, numberTold_nil.mpr le_rfl, ht⟩
    rw [parseReject_present herr hfree, rejectReason, RejectBody.Readable, herr]
    by_cases hn : n = []
    · subst hn
      cases b.ended with
      | false => simp
      | true =>
        simp only [if_true, Option.map_some, Option.getD_some, htells, numberTold_nil]
        split <;> simp
    · have hd := h n herr hn
      cases n with
      | nil => simp at hn
      | cons c n =>
        simp only [reduceCtorEq, if_false, Option.getD_some]
        split_ifs with h1
        · simp [h1]
        · simp only [Option.map_some, htells, numberTold_digits hd, h1, not_false_eq_true, true_and]

/-! #### What is delivered -/

/-- The reader comes to a waiting status that says what is written. -/
def Given (r : Bytes) (w : Written) : Prop :=
  ∃ s, (parseWaitingCopy r).toOption = some s ∧ s.status = .waiting ∧ Tells s w

theorem given_iff {r : Bytes} {w : Written} {speaker : Option Bytes} {p t : ℤ}
    (hr : (parseWaitingCopy r).toOption = some (waitingStatus speaker p t)) :
    Given r w ↔ Tells (waitingStatus speaker p t) w := by
  unfold Given
  rw [hr]
  constructor
  · rintro ⟨s, hs, -, ht⟩
    cases hs
    exact ht
  · intro ht
    exact ⟨_, rfl, rfl, ht⟩

theorem not_given {r : Bytes} {w : Written} (hr : (parseWaitingCopy r).toOption = none) :
    ¬Given r w := by
  simp [Given, hr]

theorem speaker_told {v : Bytes} : (some (cString v)).getD [] = v ↔ 0 ∉ v := cString_eq_self_iff

theorem readable_iff {b : WaitingBody} : b.Readable ↔ b.InOrder ∧ b.written.speaker.length < 64 ∧
    0 ∉ b.written.speaker ∧ numberOf b.written.pos < 2 ^ 31 ∧ numberOf b.written.total < 2 ^ 31 :=
  ⟨fun h => ⟨h.inOrder, h.room, h.nul, h.pos, h.total⟩,
    fun h => ⟨h.1, h.2.1, h.2.2.1, h.2.2.2.1, h.2.2.2.2⟩⟩

theorem numberOf_nil : numberOf [] = 0 := rfl

def queueNumbers (q : Option (Bytes × Bytes)) : Bytes × Bytes := q.getD ([], [])

/-- What is told of the place in the queue. -/
theorem queue_told {q : Option (Bytes × Bytes)} {speaker : Option Bytes} {w : Bytes} {z : ℤ × ℤ}
    (hq : (WaitingField.queue q).WellFormed) (hz : queueRead nl ended q = some z) :
    Tells (waitingStatus speaker z.1 z.2)
        { speaker := w, pos := (queueNumbers q).1, total := (queueNumbers q).2 } ↔
      speaker.getD [] = w ∧ numberOf (queueNumbers q).1 < 2 ^ 31 ∧
        numberOf (queueNumbers q).2 < 2 ^ 31 := by
  rw [tells_waitingStatus]
  match q with
  | none =>
    unfold queueRead at hz
    split_ifs at hz
    cases hz
    simp [queueNumbers, numberTold_nil, numberOf_nil]
  | some (pos, total) =>
    cases hz
    simp [queueNumbers, numberTold_digits hq.1, numberTold_digits hq.2, numberTold_nil]

/-- A queue can be read just when it is given, or blank before CR LF. -/
theorem queueRead_isSome {q : Option (Bytes × Bytes)} :
    (queueRead nl ended q).isSome ↔ (q = none → nl = .crlf ∧ ended = true) := by
  match q with
  | none => by_cases h : nl = .crlf ∧ ended = true <;> simp [queueRead, h]
  | some (pos, total) => simp [queueRead]

section shapes

variable {q : Option (Bytes × Bytes)}

theorem linesText_cons (nl : LineEnd) (ended : Bool) (t : Bytes) (ts : List Bytes) :
    linesText nl ended (t :: ts) = nl.text ++ (t ++ linesText nl ended ts) := rfl

theorem waiting_text (nl : LineEnd) (ended : Bool) (fields : List WaitingField) :
    WaitingBody.text ⟨nl, ended, fields⟩ =
      ascii "rsp:ptt-waiting" ++ linesText nl ended (fields.map WaitingField.text) := rfl

theorem text_speaker (v m : Bytes) :
    (WaitingField.speaker v).text ++ m = ascii "speaker:" ++ (v ++ m) := List.append_assoc _ _ _

theorem text_queue (pos total m : Bytes) : (WaitingField.queue (some (pos, total))).text ++ m =
    ascii "queue:" ++ (pos ++ 47 :: (total ++ m)) := by
  simp only [WaitingField.text, List.append_assoc, List.cons_append]

variable (nl) in
theorem given_noField : Given (WaitingBody.text ⟨nl, ended, []⟩) {} ↔ ended = true := by
  have hparse : (parseWaitingCopy (WaitingBody.text ⟨nl, ended, []⟩)).toOption = _ :=
    parse_noField nl ended
  cases ended with
  | false => simpa using not_given hparse
  | true =>
    rw [given_iff hparse, tells_waitingStatus]
    simp [numberTold_nil]

theorem given_speaker (hv : Free [CR, LF] v) :
    Given (WaitingBody.text ⟨nl, ended, [.speaker v]⟩) { speaker := v } ↔
      (ended = false ∧ v ≠ []) ∧ v.length < 64 ∧ 0 ∉ v := by
  have hparse := parse_speaker nl ended hv
  rw [← text_speaker, ← linesText_cons] at hparse
  simp only [waiting_text, List.map_cons, List.map_nil]
  by_cases hread : ended = true ∨ v = [] ∨ 64 ≤ v.length
  · rw [if_pos hread] at hparse
    refine iff_of_false (not_given hparse) ?_
    rintro ⟨⟨rfl, hne⟩, hroom, -⟩
    simp only [Bool.false_eq_true, false_or, hne] at hread
    omega
  · rw [if_neg hread] at hparse
    simp only [not_or, not_le, Bool.not_eq_true] at hread
    rw [given_iff hparse, tells_waitingStatus, speaker_told]
    simp [hread, numberTold_nil]

theorem given_queue (hq : (WaitingField.queue q).WellFormed) :
    Given (WaitingBody.text ⟨nl, ended, [.queue q]⟩)
        { pos := (queueNumbers q).1, total := (queueNumbers q).2 } ↔
      (q = none → nl = .crlf ∧ ended = true) ∧ numberOf (queueNumbers q).1 < 2 ^ 31 ∧
        numberOf (queueNumbers q).2 < 2 ^ 31 := by
  have hparse := parse_queue nl ended hq
  rw [← linesText_cons] at hparse
  simp only [waiting_text, List.map_cons, List.map_nil]
  rw [← queueRead_isSome]
  cases hz : queueRead nl ended q with
  | none =>
    rw [hz] at hparse
    simpa using not_given hparse
  | some z =>
    rw [hz] at hparse
    rw [given_iff hparse, queue_told hq hz]
    simp

theorem given_speakerQueue (hv : Free [CR, LF] v) (hq : (WaitingField.queue q).WellFormed) :
    Given (WaitingBody.text ⟨nl, ended, [.speaker v, .queue q]⟩)
        { speaker := v, pos := (queueNumbers q).1, total := (queueNumbers q).2 } ↔
      ((q = none → nl = .crlf ∧ ended = true) ∧ (nl = .lf → v.length ≠ 1)) ∧ v.length < 64 ∧
        0 ∉ v ∧ numberOf (queueNumbers q).1 < 2 ^ 31 ∧ numberOf (queueNumbers q).2 < 2 ^ 31 := by
  have hparse := parse_speakerQueue nl ended hv hq
  rw [← linesText_cons, ← text_speaker, ← linesText_cons] at hparse
  simp only [waiting_text, List.map_cons, List.map_nil]
  rw [← queueRead_isSome]
  cases hz : queueRead nl ended q with
  | none =>
    rw [hz] at hparse
    simpa using not_given (hparse.trans (by cases speakerGiven nl v <;> rfl))
  | some z =>
    rw [hz] at hparse
    unfold speakerGiven at hparse
    by_cases hlen : 64 ≤ v.length
    · rw [if_pos hlen] at hparse
      refine iff_of_false (not_given hparse) ?_
      rintro ⟨-, hroom, -⟩
      omega
    rw [if_neg hlen] at hparse
    cases nl with
    | crlf =>
      have hroom : v.length < 64 := by omega
      rw [given_iff hparse, queue_told hq hz]
      by_cases hnil : v = []
      · simp [hnil]
      · rw [if_neg hnil, speaker_told]
        simp [hroom]
    | lf =>
      have hroom : v.length < 64 := by omega
      dsimp only at hparse
      by_cases h1 : v.length = 1
      · rw [if_pos h1] at hparse
        simpa [h1] using not_given hparse
      · rw [if_neg h1] at hparse
        rw [given_iff hparse, queue_told hq hz, speaker_told]
        simp [hroom, h1]

theorem given_blankQueueSpeaker (hv : Free [CR, LF] v) :
    Given (WaitingBody.text ⟨nl, ended, [.queue none, .speaker v]⟩) { speaker := v } ↔
      nl = .crlf ∧ v = [] := by
  have htext : WaitingBody.text ⟨nl, ended, [.queue none, .speaker v]⟩ = ascii "rsp:ptt-waiting" ++
      (nl.text ++ (ascii "queue:" ++ (nl.text ++ (ascii "speaker:" ++
        (v ++ linesText nl ended []))))) := by
    rw [waiting_text, List.map_cons, List.map_cons, linesText_cons, linesText_cons, text_speaker]
    rfl
  rw [htext]
  cases nl with
  | crlf =>
    rw [given_iff (parse_blankQueue _), tells_waitingStatus]
    simp [numberTold_nil, eq_comm]
  | lf =>
    refine iff_of_false ?_ (by simp)
    rintro ⟨s, hs, -, ht⟩
    obtain ⟨hnone, hne⟩ := parse_queueLf hv hs
    have hspeaker := ht.speaker
    rw [hnone] at hspeaker
    exact hne hspeaker.symm

theorem given_queueSpeaker (hpos : Digits pos) (htotal : Digits total) (hv : Free [CR, LF] v) :
    Given (WaitingBody.text ⟨nl, ended, [.queue (some (pos, total)), .speaker v]⟩)
        { speaker := v, pos := pos, total := total } ↔
      (ended = false ∧ 7 ≤ v.length) ∧ v.length < 64 ∧ 0 ∉ v ∧ numberOf pos < 2 ^ 31 ∧
        numberOf total < 2 ^ 31 := by
  have hparse := parse_queueSpeaker nl ended hpos htotal hv
  rw [← text_speaker, ← linesText_cons, ← text_queue, ← linesText_cons] at hparse
  simp only [waiting_text, List.map_cons, List.map_nil]
  by_cases hread : ended = true ∨ v.length < 7 ∨ 64 ≤ v.length
  · rw [if_pos hread] at hparse
    refine iff_of_false (not_given hparse) ?_
    rintro ⟨⟨rfl, hlen⟩, hroom, -⟩
    simp only [Bool.false_eq_true, false_or] at hread
    omega
  · rw [if_neg hread] at hparse
    simp only [not_or, not_le, not_lt, Bool.not_eq_true] at hread
    rw [given_iff hparse, tells_waitingStatus, speaker_told, numberTold_digits hpos,
      numberTold_digits htotal]
    simp [hread, numberTold_nil]

end shapes

/-- A waiting response is delivered just when its lines are in an order that is read. -/
theorem waiting_delivered_iff {b : WaitingBody} (h : b.WellFormed) :
    ResponseDelivered info (.waiting b) ↔ b.Readable := by
  rw [waitingDelivered_iff, readable_iff]
  obtain ⟨nl, ended, fields⟩ := b
  obtain ⟨hfields, honce⟩ := h
  match fields with
  | [] =>
    refine (given_noField nl).trans ?_
    simp [WaitingBody.InOrder, WaitingBody.written, numberOf_nil]
  | [.speaker v] =>
    refine (given_speaker (hfields (.speaker v) (by simp))).trans ?_
    simp [WaitingBody.InOrder, WaitingBody.written, numberOf_nil]
  | [.queue none] =>
    refine (given_queue (hfields (.queue none) (by simp))).trans ?_
    simp [WaitingBody.InOrder, WaitingBody.written, queueNumbers, numberOf_nil]
  | [.queue (some (pos, total))] =>
    refine (given_queue (hfields (.queue (some (pos, total))) (by simp))).trans ?_
    simp [WaitingBody.InOrder, WaitingBody.written, queueNumbers]
  | [.speaker v, .queue none] =>
    refine (given_speakerQueue (hfields (.speaker v) (by simp))
      (hfields (.queue none) (by simp))).trans ?_
    simp [WaitingBody.InOrder, WaitingBody.written, queueNumbers, numberOf_nil]
    rintro - - rfl -
    simp
  | [.speaker v, .queue (some (pos, total))] =>
    refine (given_speakerQueue (hfields (.speaker v) (by simp))
      (hfields (.queue (some (pos, total))) (by simp))).trans ?_
    simp [WaitingBody.InOrder, WaitingBody.written, queueNumbers]
  | [.queue none, .speaker v] =>
    refine (given_blankQueueSpeaker (hfields (.speaker v) (by simp))).trans ?_
    simp [WaitingBody.InOrder, WaitingBody.written, numberOf_nil]
    rintro - rfl
    simp
  | [.queue (some (pos, total)), .speaker v] =>
    have hq := hfields (.queue (some (pos, total))) (by simp)
    refine (given_queueSpeaker hq.1 hq.2 (hfields (.speaker v) (by simp))).trans ?_
    simp [WaitingBody.InOrder, WaitingBody.written]
  | [.speaker v, .speaker w] => simp [WaitingField.isSpeaker] at honce
  | [.queue v, .queue w] => simp [WaitingField.isSpeaker] at honce
  | f :: g :: k :: fs =>
    simp only [List.pairwise_cons, List.mem_cons, forall_eq_or_imp] at honce
    obtain ⟨⟨hfg, hfk, -⟩, ⟨hgk, -⟩, -⟩ := honce
    cases hf : f.isSpeaker <;> cases hg : g.isSpeaker <;> cases hk : k.isSpeaker <;> simp_all

end delivered

/-- A response is delivered as it is written just when its lines are in an order that is read to the
end, the values fit, and no single digit stands before LF. -/
theorem response_delivered_iff (info : PttInfo) (b : ResponseBody) (h : b.WellFormed) :
    ResponseDelivered info b ↔ b.Readable := by
  cases b with
  | waiting b => exact waiting_delivered_iff h
  | reject b => exact reject_delivered_iff h

/-- The speaker 101 and the second place of five, with CR LF. -/
def WaitingBody.second : WaitingBody :=
  ⟨.crlf, true, [.speaker (ascii "101"), .queue (some (ascii "2", ascii "5"))]⟩

theorem WaitingBody.second_wellFormed : WaitingBody.second.WellFormed :=
  ⟨by decide, by decide⟩

theorem second_delivered :
    ResponseDelivered (PttInfo.initial fun _ _ => true) (.waiting .second) := by
  have hread : WaitingBody.second.Readable := by
    refine ⟨?_, by decide, by decide, by decide, by decide⟩
    intro hlf
    cases hlf
  exact (response_delivered_iff _ (.waiting .second) WaitingBody.second_wellFormed).mpr hread

/-- The reason 2 before LF is not delivered. -/
theorem single_digit_not_delivered : ¬∀ (info : PttInfo) (b : ResponseBody), b.WellFormed →
    ResponseDelivered info b := by
  intro h
  have hwell : RejectBody.WellFormed ⟨.lf, true, some (ascii "2")⟩ := by
    rintro n ⟨⟩ -
    decide
  have hdelivered :=
    h (PttInfo.initial fun _ _ => true) (.reject ⟨.lf, true, some (ascii "2")⟩) hwell
  have hread := (reject_delivered_iff hwell).mp hdelivered
  exact absurd hread.1 (by decide)

end PttTerminal
