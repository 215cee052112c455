import PttTerminal.ResponseLines

/-!
# The lines of a waiting response

The speaker and the place in the queue stand in lines of their own. The reader looks for these lines
in a fixed order, and compares literals with rests that are too short for them.
-/
namespace PttTerminal

open Loops

/-! ### The waiting response -/

inductive WaitingField where
  | speaker (v : Bytes)
  /-- The position and the total, unless the line is blank. -/
  | queue (q : Option (Bytes × Bytes))
  deriving Repr, DecidableEq

def WaitingField.text : WaitingField → Bytes
  | .speaker v => ascii "speaker:" ++ v
  | .queue none => ascii "queue:"
  | .queue (some (pos, total)) => ascii "queue:" ++ (pos ++ 47 :: total)

/-- The speaker is one line, and the place in the queue is two numbers. -/
def WaitingField.WellFormed : WaitingField → Prop
  | .speaker v => Free [CR, LF] v
  | .queue none => True
  | .queue (some (pos, total)) => Digits pos ∧ Digits total

instance (f : WaitingField) : Decidable f.WellFormed :=
  match f with
  | .speaker v => inferInstanceAs (Decidable (∀ c ∈ v, c ∉ [CR, LF]))
  | .queue none => inferInstanceAs (Decidable True)
  | .queue (some (pos, total)) => inferInstanceAs (Decidable (Digits pos ∧ Digits total))

structure WaitingBody where
  lineEnd : LineEnd
  ended : Bool
  fields : List WaitingField
  deriving Repr, DecidableEq

def WaitingBody.text (b : WaitingBody) : Bytes :=
  ascii "rsp:ptt-waiting" ++ linesText b.lineEnd b.ended (b.fields.map WaitingField.text)

/-- The status of a waiting response. -/
def waitingStatus (speaker : Option Bytes) (pos total : ℤ) : PttGroupStatus :=
  { status := .waiting
    speakerNum := speaker
    currentWaitingPos := pos
    totalWaitingCount := total }

section waiting

variable {nl : LineEnd} {ended : Bool} {v m pos total : Bytes} {x : WaitingVars}

theorem lineValue_append {e : Bytes} (hv : Free [CR, LF] v) (he : ∀ c ∈ e.head?, c ∈ [CR, LF]) :
    lineValue (v ++ e) = v := by
  have hall : ∀ c ∈ v, (!([CR, LF].contains c)) = true := fun c hc => by simpa using hv c hc
  unfold lineValue
  rw [List.takeWhile_append_of_pos hall]
  cases e with
  | nil => simp
  | cons c e =>
    have hc : [CR, LF].contains c = true := by simpa using he c rfl
    rw [List.takeWhile_cons_of_neg (by rw [hc]; decide), List.append_nil]

theorem text_head (nl : LineEnd) (m : Bytes) : ∀ c ∈ (nl.text ++ m).head?, c ∈ [CR, LF] := by
  cases nl <;> simp [LineEnd.text]

/-! #### The line of the speaker -/

/-- A speaker who is read, and one who is not named. -/
def readSpeaker (v : Bytes) (x : WaitingVars) : WaitingVars := x.clearSpeaker.setSpeaker v

def readNoSpeaker (x : WaitingVars) : WaitingVars := x.clearSpeaker.setNoSpeaker

/-- What is read of a speaker before a line end, if the line can be read. -/
def speakerRead (nl : LineEnd) (v : Bytes) : Option (WaitingVars → WaitingVars) :=
  if 64 ≤ v.length then none
  else match nl with
    | .crlf => some (if v = [] then readNoSpeaker else readSpeaker v)
    | .lf => if v.length = 1 then none else some (readSpeaker v)

/-- Only a speaker of 64 bytes or more does not fit. -/
theorem speakerCopy_eq {e : Bytes} (hv : Free [CR, LF] v) (he : ∀ c ∈ e.head?, c ∈ [CR, LF]) :
    waitingSpeakerCopy.block (ascii "speaker:" ++ (v ++ e)) =
      if 64 ≤ v.length then .error .overflow
      else waitingSpeaker.block (ascii "speaker:" ++ (v ++ e)) := by
  have heq : waitingSpeakerCopy.block (ascii "speaker" ++ 58 :: (v ++ e)) = _ :=
    fieldCopyBlock_eq (by decide) (by decide)
  have hlit : ascii "speaker:" ++ (v ++ e) = ascii "speaker" ++ 58 :: (v ++ e) := rfl
  rw [hlit, heq, lineValue_append hv he]
  by_cases hlen : 64 ≤ v.length
  · rw [if_pos ⟨crOrSecondLf_append hv (by omega) e, hlen⟩, if_pos hlen]
  · rw [if_neg (fun h => hlen h.2), if_neg hlen]
    rfl

theorem speakerBlock_toOption (hv : Free [CR, LF] v) (hm : m.head? ≠ some LF) :
    (waitingSpeakerCopy.block (ascii "speaker:" ++ (v ++ (nl.text ++ m)))).toOption =
      (speakerRead nl v).map fun f => (.next f, m) := by
  rw [speakerCopy_eq hv (text_head nl m)]
  by_cases hlen : 64 ≤ v.length
  · simp [speakerRead, hlen, Except.toOption]
  rw [if_neg hlen]
  have hvalue : crOrSecondLf (v ++ (nl.text ++ m)) = false →
      waitingSpeaker.block (ascii "speaker:" ++ (v ++ (nl.text ++ m))) =
        .ok (.next (readSpeaker v), m) :=
    fieldBlock_value (ascii "speaker") (by decide) hv
  rw [crOrSecondLf_value hv hm] at hvalue
  cases nl with
  | crlf =>
    by_cases hnil : v = []
    · have hb : waitingSpeaker.block (ascii "speaker:" ++ ([] ++ (LineEnd.crlf.text ++ m))) =
          .ok (.next readNoSpeaker, m) := fieldBlock_blank (ascii "speaker") (by decide)
      rw [hnil, hb]
      rfl
    · rw [hvalue (by simpa using hnil)]
      simp [speakerRead, hlen, hnil, Except.toOption]
  | lf =>
    by_cases h1 : v.length = 1
    · have hb : waitingSpeaker.block (ascii "speaker:" ++ (v ++ (LineEnd.lf.text ++ m))) =
          .error .syntaxError := fieldBlock_single (ascii "speaker") (by decide) hv h1
      rw [hb]
      simp [speakerRead, h1, Except.toOption]
    · rw [hvalue (by simpa using h1)]
      simp [speakerRead, hlen, h1, Except.toOption]

/-- The speaker is the last text of the body. -/
theorem speakerBlock_last (hv : Free [CR, LF] v) :
    (waitingSpeakerCopy.block (ascii "speaker:" ++ v)).toOption =
      if v = [] ∨ 64 ≤ v.length then none else some (.exit (readSpeaker v), []) := by
  have hcopy := speakerCopy_eq (e := []) hv (by simp)
  rw [List.append_nil] at hcopy
  rw [hcopy]
  by_cases hlen : 64 ≤ v.length
  · simp [hlen, Except.toOption]
  by_cases hnil : v = []
  · have hb : waitingSpeaker.block (ascii "speaker:" ++ []) = .error .syntaxError :=
      fieldBlock_end (ascii "speaker") (by decide)
    rw [if_neg hlen, hnil, hb]
    rfl
  · have hb : waitingSpeaker.block (ascii "speaker:" ++ v) = .ok (.exit (readSpeaker v), []) :=
      fieldBlock_last (ascii "speaker") (by decide) hv hnil
    rw [if_neg hlen, hb]
    simp [hlen, hnil, Except.toOption]

/-! #### The line of the queue -/

theorem crOrSecondLf_digits (hpos : Digits pos) (t : Bytes) :
    crOrSecondLf (pos ++ 47 :: t) = false := by
  have hfree : Free [CR, LF] pos := hpos.free (by decide)
  match pos, hpos.1, hfree with
  | [a], _, hfree =>
    have ha : a ≠ CR := fun h => hfree a (by simp) (by simp [h])
    simp [crOrSecondLf, ha, show (47 : UInt8) ≠ LF by decide]
  | a :: b :: w, _, hfree => exact crOrSecondLf_append hfree (by simp) _

theorem queueBlock_last (hpos : Digits pos) (htotal : Digits total) :
    waitingQueue.block (ascii "queue:" ++ (pos ++ 47 :: total)) =
      .ok (.exit (WaitingVars.setQueue pos total), []) :=
  (queueBlock_eq_ok (List.prefix_append _ _)).mpr ⟨_, rfl, .inr ⟨pos, total, [], by simp,
    hpos.free (by decide), crOrSecondLf_digits hpos _, by simpa using htotal.1,
    htotal.free (by decide), .inl ⟨rfl, rfl, rfl⟩⟩⟩

theorem queueBlock_value (hpos : Digits pos) (htotal : Digits total) :
    waitingQueue.block (ascii "queue:" ++ (pos ++ 47 :: (total ++ (nl.text ++ m)))) =
      .ok (.next (WaitingVars.setQueue pos total), m) :=
  (queueBlock_eq_ok (List.prefix_append _ _)).mpr ⟨_, rfl, .inr ⟨pos, total, nl.text ++ m, rfl,
    hpos.free (by decide), crOrSecondLf_digits hpos _, by simp [htotal.1],
    htotal.free (by decide), .inr ⟨newline_text _ _, rfl⟩⟩⟩

theorem queueBlock_blank : waitingQueue.block (ascii "queue:" ++ (LineEnd.crlf.text ++ m)) =
    .ok (.exit (WaitingVars.setTotal (-1)), m) :=
  (queueBlock_eq_ok (List.prefix_append _ _)).mpr ⟨_, rfl, .inl ⟨⟨.inl rfl, .inl rfl⟩, rfl⟩⟩

/-- A position that is looked for in a text without a slash. -/
theorem queueBlock_noSlash {y : Bytes} (hb : crOrSecondLf y = false) (hy : (47 : UInt8) ∉ y) :
    (waitingQueue.block (ascii "queue:" ++ y)).toOption = none := by
  cases h : waitingQueue.block (ascii "queue:" ++ y) with
  | error e => rfl
  | ok p =>
    obtain ⟨z, hz, ⟨hblank, -⟩ | ⟨pos, total, e, rfl, -⟩⟩ :=
      (queueBlock_eq_ok (List.prefix_append _ _)).mp h
    · obtain rfl := List.append_cancel_left hz
      rw [(blank_iff.mp hblank).1] at hb
      cases hb
    · obtain rfl := List.append_cancel_left hz
      simp at hy

/-! #### What the tests make of the lines -/

def waitingRest : List (Stage WaitingVars) := [waitingSpeakerCopy, waitingQueue]

theorem waitingLit_free : Free [CR, LF] (ascii "rsp:ptt-waiting") := by decide

variable (nl) in
theorem runStages_waiting (hm : m ≠ []) :
    runStages waitingCopyStages x (ascii "rsp:ptt-waiting" ++ (nl.text ++ m)) =
      runStages waitingRest x m :=
  runStages_header waitingLit_free (if_neg hm)

theorem runQueue_given (nl : LineEnd) (ended : Bool) (x : WaitingVars) (hpos : Digits pos)
    (htotal : Digits total) :
    runStages [waitingQueue] x
        (ascii "queue:" ++ (pos ++ 47 :: (total ++ linesText nl ended []))) =
      .ok (if ended then .next (x.setQueue pos total) else .exit (x.setQueue pos total), []) := by
  cases ended with
  | true =>
    have hb : waitingQueue.block
        (ascii "queue:" ++ (pos ++ 47 :: (total ++ (nl.text ++ [])))) = _ :=
      queueBlock_value hpos htotal
    rw [List.append_nil] at hb
    exact runStages_line (List.prefix_append _ _) hb
  | false =>
    have hb := queueBlock_last hpos htotal
    have hp : waitingQueue.lit <+: ascii "queue:" ++ (pos ++ 47 :: total) := List.prefix_append _ _
    simp only [linesText, Bool.false_eq_true, if_false, List.append_nil]
    rw [runStages_match hp, hb]

theorem runQueue_blank (nl : LineEnd) (ended : Bool) (x : WaitingVars) :
    (runStages [waitingQueue] x (ascii "queue:" ++ linesText nl ended [])).toOption =
      if nl = .crlf ∧ ended then some (.exit (x.setTotal (-1)), []) else none := by
  have hp : waitingQueue.lit <+: ascii "queue:" ++ linesText nl ended [] := List.prefix_append _ _
  rw [runStages_toOption hp]
  cases ended with
  | false =>
    rw [queueBlock_noSlash rfl (by simp [linesText]), if_neg (by simp)]
    rfl
  | true =>
    cases nl with
    | lf =>
      rw [queueBlock_noSlash (by decide) (by decide), if_neg (by simp)]
      rfl
    | crlf =>
      have hb := queueBlock_blank (m := [])
      rw [List.append_nil] at hb
      simp only [linesText, if_true, hb]
      rfl

theorem runRest_pass {y : Bytes} (x : WaitingVars) (hy : 2 ≤ y.length) :
    runStages waitingRest x (ascii "queue:" ++ y) =
      runStages [waitingQueue] x (ascii "queue:" ++ y) := by
  have hlen : (ascii "queue:" ++ y).length = 6 + y.length := List.length_append
  have hlit : waitingSpeakerCopy.lit.length = 8 := rfl
  apply runStages_pass (by omega)
  rintro ⟨t, ht⟩
  cases ht

/-- In front of the queue the speaker is looked for, for which two more bytes have to follow. -/
theorem runRest_queue (x : WaitingVars) (y : Bytes) :
    (runStages waitingRest x (ascii "queue:" ++ y)).toOption = if y.length < 2 then none
      else (runStages [waitingQueue] x (ascii "queue:" ++ y)).toOption := by
  have hlen : (ascii "queue:" ++ y).length = 6 + y.length := List.length_append
  have hlit : waitingSpeakerCopy.lit.length = 8 := rfl
  split_ifs with hy
  · rw [waitingRest, runStages_short (by omega)]
    rfl
  · rw [runRest_pass x (by omega)]

variable (nl) in
theorem runRest_speaker (hv : Free [CR, LF] v) (hm : m.head? ≠ some LF) :
    (runStages waitingRest x (ascii "speaker:" ++ (v ++ (nl.text ++ m)))).toOption =
      (speakerRead nl v).bind fun f => (runStages [waitingQueue] (f x) m).toOption := by
  have hp : waitingSpeakerCopy.lit <+: ascii "speaker:" ++ (v ++ (nl.text ++ m)) :=
    List.prefix_append _ _
  rw [waitingRest, runStages_toOption hp, speakerBlock_toOption hv hm]
  cases speakerRead nl v <;> rfl

/-- Behind a speaker with a line end the queue is looked for. -/
theorem runRest_speakerEnd (nl : LineEnd) (ended : Bool) (x : WaitingVars) (hv : Free [CR, LF] v) :
    (runStages waitingRest x (ascii "speaker:" ++ (v ++ linesText nl ended []))).toOption =
      if ended ∨ v = [] ∨ 64 ≤ v.length then none else some (.exit (readSpeaker v x), []) := by
  cases ended with
  | true =>
    have hrun := runRest_speaker nl (m := []) (x := x) hv (by simp)
    rw [List.append_nil] at hrun
    simp only [linesText, if_true, true_or]
    rw [hrun]
    cases speakerRead nl v with
    | none => rfl
    | some f =>
      rw [Option.bind_some, runStages_short (by decide)]
      rfl
  | false =>
    simp only [linesText, Bool.false_eq_true, if_false, List.append_nil, false_or]
    have hp : waitingSpeakerCopy.lit <+: ascii "speaker:" ++ v := List.prefix_append _ _
    rw [waitingRest, runStages_toOption hp, speakerBlock_last hv]
    split_ifs <;> rfl

/-- In front of the speaker the first line is looked for again. -/
theorem runStages_speakerEnd (nl : LineEnd) (ended : Bool) (x : WaitingVars)
    (hv : Free [CR, LF] v) :
    (runStages waitingCopyStages x (ascii "speaker:" ++ (v ++ linesText nl ended []))).toOption =
      if ended ∨ v.length < 7 ∨ 64 ≤ v.length then none
      else some (.exit (readSpeaker v x), []) := by
  have hrest := runRest_speakerEnd nl ended x hv
  have hlit : waitingHeader.lit.length = 15 := rfl
  have hlen : (ascii "speaker:" ++ (v ++ linesText nl ended [])).length =
      8 + (v.length + (linesText nl ended []).length) := by
    rw [List.length_append, List.length_append]
    rfl
  rcases Nat.lt_or_ge (ascii "speaker:" ++ (v ++ linesText nl ended [])).length 15 with hs | hs
  · rw [waitingCopyStages, runStages_short (by omega)]
    cases ended with
    | true => rfl
    | false =>
      have hnil : (linesText nl false []).length = 0 := rfl
      have hv7 : v.length < 7 := by omega
      simp [hv7, Except.toOption]
  · have hpass : runStages waitingCopyStages x (ascii "speaker:" ++ (v ++ linesText nl ended [])) =
        runStages waitingRest x (ascii "speaker:" ++ (v ++ linesText nl ended [])) := by
      apply runStages_pass (by omega)
      rintro ⟨t, ht⟩
      cases ht
    rw [hpass, hrest]
    cases ended with
    | true => rfl
    | false =>
      have hnil : (linesText nl false []).length = 0 := rfl
      have hv7 : ¬v.length < 7 := by omega
      have hne : v ≠ [] := List.length_pos_iff.mp (by omega)
      simp [hv7, hne]

end waiting

/-! ### The orders of the lines -/

section orders

variable {nl : LineEnd} {ended : Bool} {v m pos total : Bytes} {x : WaitingVars}

theorem readSpeaker_status {speaker : Option Bytes} {p t : ℤ}
    (hx : x.speaker = List.replicate 64 0)
    (hs : x.objPttGroupStatus = waitingStatus speaker p t) (v : Bytes) :
    (readSpeaker v x).objPttGroupStatus = waitingStatus (some (cString v)) p t := by
  have hz : bzeroText (List.replicate 64 0) = List.replicate 64 0 := by decide
  have hcopy : cString (strncpy (bzeroText x.speaker) v) = cString v := by
    rw [hx, hz, cString_strncpy_zeros]
  have hset : (readSpeaker v x).objPttGroupStatus =
      { x.objPttGroupStatus with speakerNum := some (cString (strncpy (bzeroText x.speaker) v)) } :=
    rfl
  rw [hset, hcopy, hs]
  rfl

theorem setQueue_status {speaker : Option Bytes} {p t : ℤ}
    (hs : x.objPttGroupStatus = waitingStatus speaker p t) (pos total : Bytes) :
    (x.setQueue pos total).objPttGroupStatus =
      waitingStatus speaker (jint (pjStrtoul pos)) (jint (pjStrtoul total)) := by
  have hset : (x.setQueue pos total).objPttGroupStatus =
      { x.objPttGroupStatus with
        currentWaitingPos := jint (pjStrtoul pos)
        totalWaitingCount := jint (pjStrtoul total) } := rfl
  rw [hset, hs]
  rfl

theorem setTotal_status {speaker : Option Bytes} {p t : ℤ}
    (hs : x.objPttGroupStatus = waitingStatus speaker p t) (z : ℤ) :
    (x.setTotal z).objPttGroupStatus = waitingStatus speaker p z := by
  have hset : (x.setTotal z).objPttGroupStatus =
      { x.objPttGroupStatus with totalWaitingCount := z } := rfl
  rw [hset, hs]
  rfl

theorem parseWaitingCopy_toOption (r : Bytes) : (parseWaitingCopy r).toOption =
    (lineLoop waitingCopyStages {} r).toOption.map WaitingVars.objPttGroupStatus := by
  unfold parseWaitingCopy
  cases lineLoop waitingCopyStages {} r <;> rfl

/-- The body is read in one iteration of the loop. -/
theorem parseWaiting_lines {o : Option (Ctl WaitingVars WaitingVars × Bytes)} (hm : m ≠ [])
    (ho : (runStages waitingRest {} m).toOption = o)
    (hend : ∀ y k, o = some (.next y, k) → k = []) :
    (parseWaitingCopy (ascii "rsp:ptt-waiting" ++ (nl.text ++ m))).toOption =
      o.map fun p => (ctlValue p.1).objPttGroupStatus := by
  have hne : ascii "rsp:ptt-waiting" ++ (nl.text ++ m) ≠ [] :=
    List.append_ne_nil_of_left_ne_nil (by decide) _
  have hrun := runStages_waiting nl (x := {}) hm
  have hloop : (lineLoop waitingCopyStages {}
      (ascii "rsp:ptt-waiting" ++ (nl.text ++ m))).toOption =
        o.map fun p => ctlValue p.1 := by
    rw [lineLoop, loop_toOption hne (List.length_pos_iff.mpr hne), hrun, ho]
    intro y k h
    rw [hrun] at h
    exact hend y k (by rw [← ho, h]; rfl)
  rw [parseWaitingCopy_toOption, hloop, Option.map_map]
  rfl

/-- Only the first line. -/
theorem parse_noField (nl : LineEnd) (ended : Bool) :
    (parseWaitingCopy (ascii "rsp:ptt-waiting" ++ linesText nl ended [])).toOption =
      if ended then some (waitingStatus none 0 0) else none := by
  have hne : ascii "rsp:ptt-waiting" ++ linesText nl ended [] ≠ [] :=
    List.append_ne_nil_of_left_ne_nil (by decide) _
  have hp : waitingHeader.lit <+: ascii "rsp:ptt-waiting" ++ linesText nl ended [] :=
    List.prefix_append _ _
  cases ended with
  | true =>
    have hb : waitingHeader.block (ascii "rsp:ptt-waiting" ++ (nl.text ++ [])) =
        .ok (.exit id, []) :=
      headerBlock_line waitingLit_free
    rw [List.append_nil] at hb
    have hrun : runStages waitingCopyStages {} (ascii "rsp:ptt-waiting" ++ linesText nl true []) =
        .ok (.exit {}, []) := by
      rw [waitingCopyStages, runStages_match hp]
      simp only [linesText, if_true, hb]
      rfl
    rw [parseWaitingCopy, lineLoop_exit hne hrun]
    rfl
  | false =>
    have hrun : runStages waitingCopyStages {} (ascii "rsp:ptt-waiting" ++ linesText nl false []) =
        .error .syntaxError := by
      simp only [linesText, Bool.false_eq_true, if_false, List.append_nil]
      exact runStages_bare (by decide) waitingLit_free
    rw [parseWaitingCopy, lineLoop_error hne hrun]
    rfl

theorem parse_speaker (nl : LineEnd) (ended : Bool) (hv : Free [CR, LF] v) :
    (parseWaitingCopy (ascii "rsp:ptt-waiting" ++
        (nl.text ++ (ascii "speaker:" ++ (v ++ linesText nl ended []))))).toOption =
      if ended ∨ v = [] ∨ 64 ≤ v.length then none
      else some (waitingStatus (some (cString v)) 0 0) := by
  rw [parseWaiting_lines (by simp [ascii]) (runRest_speakerEnd nl ended {} hv)]
  · split_ifs
    · rfl
    · exact congrArg some (readSpeaker_status (x := {}) rfl rfl v)
  · split_ifs <;> simp

/-- What the line of the queue gives, if it can be read where the text ends behind it. -/
def queueRead (nl : LineEnd) (ended : Bool) : Option (Bytes × Bytes) → Option (ℤ × ℤ)
  | none => if nl = .crlf ∧ ended then some (0, -1) else none
  | some (pos, total) => some (jint (pjStrtoul pos), jint (pjStrtoul total))

variable (nl) in
/-- The queue is read last, from whatever the speaker was. -/
theorem runQueue_end {q : Option (Bytes × Bytes)} {speaker : Option Bytes} (ended : Bool)
    (hq : (WaitingField.queue q).WellFormed)
    (hs : x.objPttGroupStatus = waitingStatus speaker 0 0) :
    ∃ o, (runStages [waitingQueue] x
        ((WaitingField.queue q).text ++ linesText nl ended [])).toOption = o ∧
      (∀ y k, o = some (.next y, k) → k = []) ∧
      (o.map fun p => (ctlValue p.1).objPttGroupStatus) =
        (queueRead nl ended q).map fun z => waitingStatus speaker z.1 z.2 := by
  refine ⟨_, rfl, ?_⟩
  match q with
  | none =>
    have hrun := runQueue_blank nl ended x
    simp only [WaitingField.text, queueRead]
    rw [hrun]
    split_ifs
    · refine ⟨fun y k h => by simp at h, ?_⟩
      exact congrArg some (setTotal_status hs (-1))
    · exact ⟨fun y k h => by simp at h, rfl⟩
  | some (pos, total) =>
    have hrun := runQueue_given nl ended x hq.1 hq.2
    simp only [WaitingField.text, queueRead, List.append_assoc, List.cons_append]
    rw [hrun]
    refine ⟨fun y k h => ?_, ?_⟩
    · simp only [Except.toOption, Option.some.injEq, Prod.mk.injEq] at h
      exact h.2.symm
    · refine congrArg some ?_
      dsimp only
      rw [← setQueue_status hs]
      cases ended <;> rfl

theorem parse_queue {q : Option (Bytes × Bytes)} (nl : LineEnd) (ended : Bool)
    (hq : (WaitingField.queue q).WellFormed) :
    (parseWaitingCopy (ascii "rsp:ptt-waiting" ++
        (nl.text ++ ((WaitingField.queue q).text ++ linesText nl ended [])))).toOption =
      (queueRead nl ended q).map fun z => waitingStatus none z.1 z.2 := by
  obtain ⟨o, ho, hend, hmap⟩ := runQueue_end nl (x := {}) ended hq rfl
  rw [← hmap]
  apply parseWaiting_lines _ _ hend
  · cases q <;> simp [WaitingField.text, ascii]
  · match q with
    | none =>
      have hrun := runRest_queue {} (linesText nl ended [])
      simp only [WaitingField.text] at ho ⊢
      rw [hrun, ho]
      split_ifs with hlen
      · rw [← ho, runQueue_blank, if_neg]
        rintro ⟨rfl, rfl⟩
        simp [linesText, LineEnd.text] at hlen
      · rfl
    | some (pos, total) =>
      have hpos := List.length_pos_iff.mpr hq.1.1
      simp only [WaitingField.text, List.append_assoc] at ho ⊢
      rw [runRest_queue, if_neg, ho]
      simp only [List.length_append, List.length_cons]
      omega

/-- The speaker as a status names it, if the line can be read. -/
def speakerGiven (nl : LineEnd) (v : Bytes) : Option (Option Bytes) :=
  if 64 ≤ v.length then none
  else match nl with
    | .crlf => some (if v = [] then none else some (cString v))
    | .lf => if v.length = 1 then none else some (some (cString v))

theorem speakerRead_cases (nl : LineEnd) (v : Bytes) :
    speakerRead nl v = none ∧ speakerGiven nl v = none ∨
      ∃ f speaker, speakerRead nl v = some f ∧ speakerGiven nl v = some speaker ∧
        (f {}).objPttGroupStatus = waitingStatus speaker 0 0 := by
  have hread : (readSpeaker v {}).objPttGroupStatus = waitingStatus (some (cString v)) 0 0 :=
    readSpeaker_status rfl rfl v
  unfold speakerRead speakerGiven
  by_cases hlen : 64 ≤ v.length
  · exact .inl ⟨if_pos hlen, if_pos hlen⟩
  rw [if_neg hlen, if_neg hlen]
  cases nl with
  | crlf =>
    refine .inr ⟨_, _, rfl, rfl, ?_⟩
    split_ifs
    · rfl
    · exact hread
  | lf =>
    by_cases h1 : v.length = 1
    · exact .inl ⟨if_pos h1, if_pos h1⟩
    · exact .inr ⟨_, _, if_neg h1, if_neg h1, hread⟩

theorem parse_speakerQueue {q : Option (Bytes × Bytes)} (nl : LineEnd) (ended : Bool)
    (hv : Free [CR, LF] v) (hq : (WaitingField.queue q).WellFormed) :
    (parseWaitingCopy (ascii "rsp:ptt-waiting" ++ (nl.text ++ (ascii "speaker:" ++
        (v ++ (nl.text ++ ((WaitingField.queue q).text ++ linesText nl ended []))))))).toOption =
      (speakerGiven nl v).bind fun speaker =>
        (queueRead nl ended q).map fun z => waitingStatus speaker z.1 z.2 := by
  have hhead : ((WaitingField.queue q).text ++ linesText nl ended []).head? ≠ some LF := by
    match q with
    | none => simp [WaitingField.text, ascii]; decide
    | some (pos, total) => simp [WaitingField.text, ascii]; decide
  have hrun := runRest_speaker nl (x := {}) hv hhead
  obtain ⟨hread, hgiven⟩ | ⟨f, speaker, hread, hgiven, hs⟩ := speakerRead_cases nl v
  · rw [hread] at hrun
    rw [parseWaiting_lines (by simp [ascii]) hrun (by simp), hgiven]
    rfl
  · obtain ⟨o, ho, hend, hmap⟩ := runQueue_end nl ended hq hs
    rw [hread, Option.bind_some, ho] at hrun
    rw [parseWaiting_lines (by simp [ascii]) hrun hend, hmap, hgiven]
    rfl

/-- Behind a blank queue nothing is read. -/
theorem parse_blankQueue (m : Bytes) :
    (parseWaitingCopy (ascii "rsp:ptt-waiting" ++ (LineEnd.crlf.text ++
        (ascii "queue:" ++ (LineEnd.crlf.text ++ m))))).toOption =
      some (waitingStatus none 0 (-1)) := by
  have hp : waitingQueue.lit <+: ascii "queue:" ++ (LineEnd.crlf.text ++ m) :=
    List.prefix_append _ _
  have hrun : (runStages waitingRest {} (ascii "queue:" ++ (LineEnd.crlf.text ++ m))).toOption =
      some (.exit (({} : WaitingVars).setTotal (-1)), m) := by
    rw [runRest_queue, if_neg (by simp [LineEnd.text]), runStages_match hp, queueBlock_blank]
    rfl
  rw [parseWaiting_lines (by simp [ascii]) hrun (by simp)]
  rfl

/-- A slash that stands in the speaker is where a queue that is blank before LF is divided. -/
theorem queueLf_line {k : Bytes} {c : Assign WaitingVars} (hv : Free [CR, LF] v)
    (h : QueueLine (ascii "queue:" ++ (LineEnd.lf.text ++ (ascii "speaker:" ++
      (v ++ linesText .lf ended [])))) c k) :
    v ≠ [] ∧ k = [] ∧ ∃ pos total,
      c = .exit (WaitingVars.setQueue pos total) ∨ c = .next (WaitingVars.setQueue pos total) := by
  have htail : (47 : UInt8) ∉ linesText .lf ended [] := by cases ended <;> decide
  have hfront : (47 : UInt8) ∉ LineEnd.lf.text ++ ascii "speaker:" := by decide
  obtain ⟨y, hy, hcases⟩ := h
  obtain rfl := List.append_cancel_left hy
  obtain ⟨hblank, -⟩ | ⟨pos, total, e, hdiv, hpos, -, -, htotal, hend⟩ := hcases
  · exact absurd (blank_iff.mp hblank).1 (by simp [crOrSecondLf, LineEnd.text, ascii]; decide)
  have hmem : (47 : UInt8) ∈ v := by
    have hin : (47 : UInt8) ∈
        LineEnd.lf.text ++ (ascii "speaker:" ++ (v ++ linesText .lf ended [])) :=
      hdiv ▸ by simp
    simp only [List.mem_append] at hin hfront
    tauto
  refine ⟨List.ne_nil_of_mem hmem, ?_, pos, total, hend.imp (fun h => h.2.2) (fun h => h.2)⟩
  obtain ⟨v₁, v₂, rfl, hv₁⟩ := List.eq_append_cons_of_mem hmem
  have hfirst : Free [47] (LineEnd.lf.text ++ (ascii "speaker:" ++ v₁)) := by
    intro c hc hc47
    rw [List.mem_singleton] at hc47
    subst hc47
    rw [← List.append_assoc] at hc
    exact (List.mem_append.mp hc).elim hfront hv₁
  have hsame : total ++ e = v₂ ++ linesText .lf ended [] := by
    have h₁ := (getField_eq_ok (by decide)).mpr ⟨hdiv, hpos⟩
    have h₂ := (getField_eq_ok (d := 47) (m := v₂ ++ linesText .lf ended []) (by decide)).mpr
      ⟨show LineEnd.lf.text ++ (ascii "speaker:" ++ (v₁ ++ 47 :: v₂ ++ linesText .lf ended [])) = _
        by simp, hfirst⟩
    rw [h₁] at h₂
    exact (Prod.mk.inj (Except.ok.inj h₂)).2
  have he : e = linesText .lf ended [] := by
    have hehead : ∀ c ∈ e.head?, c ∈ [CR, LF] := by
      apply head_mem_crlf.mpr
      exact hend.imp (fun h => h.1) fun h => ⟨k, h.1⟩
    have hthead : ∀ c ∈ (linesText .lf ended []).head?, c ∈ [CR, LF] := by
      cases ended <;> simp [linesText, LineEnd.text]
    have hv₂ : Free [CR, LF] v₂ := fun c hc => hv c (by simp [hc])
    have hvalue := congrArg lineValue hsame
    rw [lineValue_append htotal hehead, lineValue_append hv₂ hthead] at hvalue
    exact List.append_cancel_left (hvalue ▸ hsame)
  obtain ⟨-, hk, -⟩ | ⟨hnl, -⟩ := hend
  · exact hk
  · have hlt := hnl.length_lt
    have hle : (linesText .lf ended []).length ≤ 1 := by cases ended <;> decide
    rw [he] at hlt
    exact List.eq_nil_of_length_eq_zero (by omega)

/-- With LF the queue is looked for in the line of the speaker, which is not read as such. -/
theorem parse_queueLf {s : PttGroupStatus} (hv : Free [CR, LF] v)
    (h : (parseWaitingCopy (ascii "rsp:ptt-waiting" ++ (LineEnd.lf.text ++ (ascii "queue:" ++
      (LineEnd.lf.text ++ (ascii "speaker:" ++ (v ++ linesText .lf ended []))))))).toOption =
        some s) : s.speakerNum = none ∧ v ≠ [] := by
  have hp : waitingQueue.lit <+: ascii "queue:" ++ (LineEnd.lf.text ++ (ascii "speaker:" ++
      (v ++ linesText .lf ended []))) := List.prefix_append _ _
  have hrun : (runStages [waitingQueue] {} _).toOption = _ := runStages_toOption hp
  rw [← runRest_pass _ (by simp [LineEnd.text, ascii])] at hrun
  cases hb : waitingQueue.block (ascii "queue:" ++ (LineEnd.lf.text ++ (ascii "speaker:" ++
      (v ++ linesText .lf ended [])))) with
  | error e =>
    rw [hb] at hrun
    rw [parseWaiting_lines (by simp [ascii]) hrun (by simp [Except.toOption])] at h
    cases h
  | ok p =>
    obtain ⟨c, k⟩ := p
    obtain ⟨hne, rfl, pos, total, rfl | rfl⟩ := queueLf_line hv ((queueBlock_eq_ok hp).mp hb)
    all_goals
      rw [hb] at hrun
      rw [parseWaiting_lines (by simp [ascii]) hrun (by simp [Except.toOption, runStages])] at h
      cases h
      exact ⟨rfl, hne⟩

/-- In front of the speaker the first line is looked for again, which is longer. -/
theorem parse_queueSpeaker (nl : LineEnd) (ended : Bool) (hpos : Digits pos) (htotal : Digits total)
    (hv : Free [CR, LF] v) :
    (parseWaitingCopy (ascii "rsp:ptt-waiting" ++ (nl.text ++ (ascii "queue:" ++ (pos ++ 47 ::
        (total ++ (nl.text ++ (ascii "speaker:" ++ (v ++ linesText nl ended []))))))))).toOption =
      if ended ∨ v.length < 7 ∨ 64 ≤ v.length then none
      else some (waitingStatus (some (cString v))
        (jint (pjStrtoul pos)) (jint (pjStrtoul total))) := by
  have hspeaker := runStages_speakerEnd nl ended (({} : WaitingVars).setQueue pos total) hv
  generalize hm : ascii "speaker:" ++ (v ++ linesText nl ended []) = m at *
  have hmne : m ≠ [] := by simp [← hm, ascii]
  have hpos0 := List.length_pos_iff.mpr hpos.1
  have htotal0 := List.length_pos_iff.mpr htotal.1
  have hqueue : runStages [waitingQueue] {}
      (ascii "queue:" ++ (pos ++ 47 :: (total ++ (nl.text ++ m)))) =
        .ok (.next (({} : WaitingVars).setQueue pos total), m) :=
    runStages_line (List.prefix_append _ _) (queueBlock_value hpos htotal)
  rw [← runRest_pass _ (by simp only [List.length_append, List.length_cons]; omega),
    ← runStages_waiting nl (by simp [ascii])] at hqueue
  generalize hr : ascii "rsp:ptt-waiting" ++ (nl.text ++ (ascii "queue:" ++ (pos ++ 47 ::
    (total ++ (nl.text ++ m))))) = r at *
  have hrne : r ≠ [] := by simp [← hr, ascii]
  obtain ⟨n, hn, hn0⟩ : ∃ n, r.length = n + 1 ∧ 0 < n := by
    refine ⟨r.length - 1, ?_, ?_⟩ <;>
    · rw [← hr, List.length_append]
      have hlit : (ascii "rsp:ptt-waiting").length = 15 := rfl
      omega
  have hloop : (lineLoop waitingCopyStages {} r).toOption =
      (runStages waitingCopyStages (({} : WaitingVars).setQueue pos total) m).toOption.map
        fun p => ctlValue p.1 := by
    rw [lineLoop_next hrne hqueue, hn]
    apply loop_toOption hmne hn0
    intro y k hy
    rw [hy] at hspeaker
    split_ifs at hspeaker <;> simp [Except.toOption] at hspeaker
  rw [parseWaitingCopy_toOption, hloop, hspeaker]
  split_ifs
  · rfl
  · have hset : (({} : WaitingVars).setQueue pos total).objPttGroupStatus = _ :=
      setQueue_status (p := 0) (t := 0) rfl pos total
    exact congrArg some (readSpeaker_status rfl hset v)

end orders

end PttTerminal
