import PttTerminal.GroupStatus
import PttTerminal.LineLoop

/-!
# Floor responses and floor indications sent as messages

The three handlers that read a message line by line: the rejected and the waiting response to
a floor request, and the floor indication that some networks send as a message. Each is a
`lineLoop` over its own tests. The arrays that fields are copied to are taken to be long enough.
-/
namespace PttTerminal

open Loops

variable {σ : Type}

/-- What a block assigns, and whether it leaves the loop. -/
abbrev Assign (σ : Type) := Ctl (σ → σ) (σ → σ)

/-! ### The blocks -/

/-- The first line of the message, whose text is not looked at. -/
def headerBlock (atEnd : Assign σ) : Scan (Assign σ) := do
  let _ ← pjScanGetUntilChr [CR, LF]
  pjScanGetNewline
  if ← pjScanIsEof then pure atEnd
  else pure (.next id)

/-- A line `name:value`. At a value that looks blank only the line end is read; another value
may be the last text of the message, without a line end. -/
def fieldBlock (blank : Assign σ) (value last : Bytes → Assign σ) : Scan (Assign σ) := do
  let _ ← getField 58
  if ← looksBlank then
    pjScanGetNewline
    pure blank
  else
    let out ← pjScanGetUntilChr [CR, LF]
    if ← pjScanIsEof then pure (last out)
    else
      pjScanGetNewline
      pure (value out)

/-! ### Which texts the blocks read -/

/-- A value that is taken for blank, and what follows its line end. -/
def Blank (x m : Bytes) : Prop := (x.head? = some CR ∨ [LF, LF] <+: x) ∧ Newline x m

/-- The value `v`, which is not taken for blank, stands before a line end or the end of the text. -/
structure Value (v x e : Bytes) : Prop where
  eq : x = v ++ e
  ne : x ≠ []
  free : Free [CR, LF] v
  stop : e = [] ∨ ∃ m, Newline e m
  notBlank : crOrSecondLf x = false

def HeaderLine (atEnd : Assign σ) (r : Bytes) (c : Assign σ) (m : Bytes) : Prop :=
  ∃ t, Line t r m ∧ c = if m = [] then atEnd else .next id

def FieldLine (lit : Bytes) (blank : Assign σ) (value last : Bytes → Assign σ)
    (r : Bytes) (c : Assign σ) (m : Bytes) : Prop :=
  ∃ x, r = lit ++ x ∧ ((Blank x m ∧ c = blank) ∨
    ∃ v e, Value v x e ∧ ((e = [] ∧ m = [] ∧ c = last v) ∨ (Newline e m ∧ c = value v)))

/-- A text whose first byte is CR or LF starts with a line end. -/
theorem head_mem_crlf {m : Bytes} : (∀ c ∈ m.head?, c ∈ [CR, LF]) ↔ m = [] ∨ ∃ k, Newline m k := by
  cases m with
  | nil => simp
  | cons c m =>
    simp only [List.head?_cons, Option.mem_def, Option.some.injEq, forall_eq',
      reduceCtorEq, false_or]
    constructor
    · exact exists_newline
    · rintro ⟨k, hk⟩
      obtain ⟨d, rest, hd, hmem⟩ := hk.head
      cases hd
      exact hmem

theorem pjScanGetUntilChr_crlf {r out m : Bytes} :
    pjScanGetUntilChr [CR, LF] r = .ok (out, m) ↔
      r ≠ [] ∧ r = out ++ m ∧ Free [CR, LF] out ∧ (m = [] ∨ ∃ k, Newline m k) := by
  rw [pjScanGetUntilChr_eq_ok, head_mem_crlf]

theorem pjScanIsEof_apply (r : Bytes) : pjScanIsEof r = .ok (r.isEmpty, r) := rfl

theorem looksBlank_apply (r : Bytes) : looksBlank r = .ok (crOrSecondLf r, r) := rfl

theorem headerBlock_eq_ok {atEnd : Assign σ} {r m : Bytes} {c : Assign σ} :
    headerBlock atEnd r = .ok (c, m) ↔ HeaderLine atEnd r c m := by
  have hend : ∀ k, (do if ← pjScanIsEof then pure atEnd else pure (.next id) : Scan (Assign σ)) k
      = .ok (if k = [] then atEnd else .next id, k) := by
    intro k
    cases k <;> rfl
  unfold headerBlock
  simp only [Scan.bind_eq_ok, hend]
  constructor
  · rintro ⟨t, e, ht, ⟨⟩, k, hk, h⟩
    cases h
    rw [pjScanGetUntilChr_crlf] at ht
    exact ⟨t, ⟨ht.2.2.1, e, ht.2.1, pjScanGetNewline_eq_ok.mp hk⟩, rfl⟩
  · rintro ⟨t, ⟨hfree, e, rfl, he⟩, rfl⟩
    refine ⟨t, e, ?_, (), m, pjScanGetNewline_eq_ok.mpr he, rfl⟩
    rw [pjScanGetUntilChr_crlf]
    refine ⟨?_, rfl, hfree, .inr ⟨m, he⟩⟩
    obtain ⟨d, rest, rfl, -⟩ := he.head
    simp

/-- A line whose name holds no colon is read from behind its colon on. -/
theorem skipName_eq {α : Type} {name x : Bytes} (h : (58 : UInt8) ∉ name) (k : Scan α) :
    ((do let _ ← getField 58; k) : Scan α) (name ++ 58 :: x) = k x := by
  have hfree : Free [58] name := fun c hc hmem => h (List.mem_singleton.mp hmem ▸ hc)
  exact Scan.bind_of_ok ((getField_eq_ok (by decide)).mpr ⟨rfl, hfree⟩)

/-- A value that looks blank is blank when its line end is where it has to be. -/
theorem blank_iff {x m : Bytes} : Blank x m ↔ crOrSecondLf x = true ∧ Newline x m := by
  simp only [Blank, crOrSecondLf, Bool.or_eq_true, decide_eq_true_eq]
  refine and_congr_left fun hnl => ?_
  obtain ⟨c, rest, rfl, hc⟩ := hnl.head
  rcases rest with _ | ⟨d, rest⟩
  · simp
  · simp only [List.head?_cons, Option.some.injEq, List.getElem?_cons_zero, List.cons_prefix_cons,
      List.getElem?_cons_succ, List.nil_prefix, and_true]
    simp only [List.mem_cons, List.not_mem_nil, or_false] at hc
    constructor
    · rintro (rfl | ⟨-, rfl⟩)
      · exact .inl rfl
      · exact .inr rfl
    · rintro (rfl | rfl)
      · exact .inl rfl
      · exact hc.imp id fun h => ⟨h.symm, rfl⟩

theorem fieldBlock_eq_ok {name r m : Bytes} {blank c : Assign σ} {value last : Bytes → Assign σ}
    (hname : (58 : UInt8) ∉ name) (hr : name ++ [58] <+: r) :
    fieldBlock blank value last r = .ok (c, m) ↔
      FieldLine (name ++ [58]) blank value last r c m := by
  obtain ⟨x, rfl⟩ := hr
  have hx : ∀ y, name ++ [58] ++ x = name ++ [58] ++ y ↔ x = y := fun y => by simp
  simp only [fieldBlock, List.append_assoc, List.singleton_append, skipName_eq hname]
  rw [Scan.bind_of_ok (looksBlank_apply x)]
  simp only [FieldLine, List.append_assoc, List.singleton_append, List.append_cancel_left_eq,
    List.cons.injEq, true_and, exists_eq_left']
  cases hb : crOrSecondLf x with
  | true =>
    simp only [if_true, Scan.bind_eq_ok]
    constructor
    · rintro ⟨⟨⟩, k, hk, h⟩
      cases h
      exact .inl ⟨blank_iff.mpr ⟨hb, pjScanGetNewline_eq_ok.mp hk⟩, rfl⟩
    · rintro (⟨hbl, rfl⟩ | ⟨v, e, hv, -⟩)
      · exact ⟨(), m, pjScanGetNewline_eq_ok.mpr (blank_iff.mp hbl).2, rfl⟩
      · simp [hv.notBlank] at hb
  | false =>
    simp only [Bool.false_eq_true, if_false, Scan.bind_eq_ok, pjScanGetUntilChr_crlf]
    constructor
    · rintro ⟨v, e, ⟨hne, heq, hfree, hstop⟩, b, k, hk, h⟩
      refine .inr ⟨v, e, ⟨heq, hne, hfree, hstop, hb⟩, ?_⟩
      rw [pjScanIsEof_apply] at hk
      cases hk
      cases e with
      | nil =>
        cases h
        exact .inl ⟨rfl, rfl, rfl⟩
      | cons d e =>
        simp only [List.isEmpty_cons, Bool.false_eq_true, if_false, Scan.bind_eq_ok] at h
        obtain ⟨⟨⟩, k, hk, h⟩ := h
        cases h
        exact .inr ⟨pjScanGetNewline_eq_ok.mp hk, rfl⟩
    · rintro (⟨hbl, -⟩ | ⟨v, e, hv, h⟩)
      · simp [(blank_iff.mp hbl).1] at hb
      · refine ⟨v, e, ⟨hv.ne, hv.eq, hv.free, hv.stop⟩, e.isEmpty, e, pjScanIsEof_apply e, ?_⟩
        rcases h with ⟨rfl, rfl, rfl⟩ | ⟨he, rfl⟩
        · rfl
        · obtain ⟨d, rest, rfl, -⟩ := he.head
          simp only [List.isEmpty_cons, Bool.false_eq_true, if_false, Scan.bind_eq_ok]
          exact ⟨(), m, pjScanGetNewline_eq_ok.mpr he, rfl⟩

/-! ### The rules of the lines -/

theorem Line.length_lt {t r m : Bytes} (h : Line t r m) : m.length < r.length := by
  obtain ⟨-, e, rfl, he⟩ := h
  have := he.length_lt
  simp only [List.length_append]
  omega

theorem FieldLine.length_lt {lit r m : Bytes} {blank c : Assign σ} {value last : Bytes → Assign σ}
    (hl : lit ≠ []) (h : FieldLine lit blank value last r c m) : m.length < r.length := by
  have hpos := List.length_pos_iff.mpr hl
  obtain ⟨x, rfl, ⟨⟨-, hnl⟩, -⟩ | ⟨v, e, hv, h⟩⟩ := h
  · have := hnl.length_lt
    simp only [List.length_append]
    omega
  · have hle : x.length = v.length + e.length := by rw [hv.eq, List.length_append]
    rcases h with ⟨rfl, rfl, -⟩ | ⟨he, -⟩
    · simp only [List.length_append, List.length_nil]
      omega
    · have := he.length_lt
      simp only [List.length_append]
      omega

/-- The first line of a message, `lit` being the text it starts with. -/
def headerRule (lit : Bytes) (hl : lit ≠ []) (atEnd : Assign σ) : LineRule σ where
  lit := lit
  skips r f m := HeaderLine atEnd r (.next f) m
  ends r f := ∃ m, HeaderLine atEnd r (.exit f) m
  pos := hl
  consumes := fun _ _ _ ⟨_, ht, _⟩ => ht.length_lt

/-- The lines `name:value`. -/
def fieldRule (name : Bytes) (blank : Assign σ) (value last : Bytes → Assign σ) : LineRule σ where
  lit := name ++ [58]
  skips r f m := FieldLine (name ++ [58]) blank value last r (.next f) m
  ends r f := ∃ m, FieldLine (name ++ [58]) blank value last r (.exit f) m
  pos := by simp
  consumes := fun _ _ _ h => h.length_lt (by simp)

theorem headerBlock_obeys {lit : Bytes} (hl : lit ≠ []) (atEnd : Assign σ) :
    Obeys ⟨lit, headerBlock atEnd⟩ (headerRule lit hl atEnd) where
  lit := rfl
  next := fun _ _ _ _ => headerBlock_eq_ok
  exit := fun _ _ _ => exists_congr fun _ => headerBlock_eq_ok

theorem fieldBlock_obeys (name : Bytes) (hname : (58 : UInt8) ∉ name) (blank : Assign σ)
    (value last : Bytes → Assign σ) :
    Obeys ⟨name ++ [58], fieldBlock blank value last⟩ (fieldRule name blank value last) where
  lit := rfl
  next := fun _ hr _ _ => fieldBlock_eq_ok hname hr
  exit := fun _ hr _ => exists_congr fun _ => fieldBlock_eq_ok hname hr

/-! ### The rejected response -/

def setRejectReason (v : ℤ) (s : PttGroupStatus) : PttGroupStatus := { s with rejectReason := v }

def rejectHeader : Stage PttGroupStatus := ⟨ascii "rsp:ptt-reject", headerBlock (.next id)⟩

def rejectError : Stage PttGroupStatus where
  lit := ascii "error:"
  block := fieldBlock (.next (setRejectReason (-1)))
    (fun out => .next (setRejectReason (jint (pjStrtoul out))))
    (fun out => .next (setRejectReason (jint (pjStrtoul out))))

def rejectStages : List (Stage PttGroupStatus) := [rejectHeader, rejectError]

/-- The status given to `updatePttState`. -/
def parseRejectMsg (msgContent : Bytes) : Except Fault PttGroupStatus :=
  lineLoop rejectStages { status := .rejected } msgContent

/-! ### The waiting response -/

/-- The local array, and the status that is filled in. -/
structure WaitingVars where
  speaker : Bytes := List.replicate 64 0
  objPttGroupStatus : PttGroupStatus := { status := .waiting }

namespace WaitingVars

def clearSpeaker (x : WaitingVars) : WaitingVars := { x with speaker := bzeroText x.speaker }

def setNoSpeaker (x : WaitingVars) : WaitingVars :=
  { x with objPttGroupStatus := { x.objPttGroupStatus with speakerNum := none } }

def setSpeaker (out : Bytes) (x : WaitingVars) : WaitingVars :=
  let speaker := strncpy x.speaker out
  { speaker := speaker
    objPttGroupStatus := { x.objPttGroupStatus with speakerNum := some (cString speaker) } }

def setTotal (v : ℤ) (x : WaitingVars) : WaitingVars :=
  { x with objPttGroupStatus := { x.objPttGroupStatus with totalWaitingCount := v } }

def setPos (v : ℤ) (x : WaitingVars) : WaitingVars :=
  { x with objPttGroupStatus := { x.objPttGroupStatus with currentWaitingPos := v } }

def setQueue (pos total : Bytes) (x : WaitingVars) : WaitingVars :=
  (x.setPos (jint (pjStrtoul pos))).setTotal (jint (pjStrtoul total))

end WaitingVars

def waitingHeader : Stage WaitingVars := ⟨ascii "rsp:ptt-waiting", headerBlock (.exit id)⟩

def waitingSpeaker : Stage WaitingVars where
  lit := ascii "speaker:"
  block := fieldBlock (.next fun x => x.clearSpeaker.setNoSpeaker)
    (fun out => .next fun x => x.clearSpeaker.setSpeaker out)
    (fun out => .exit fun x => x.clearSpeaker.setSpeaker out)

/-- The position stands before a slash, wherever that is, and the total up to the line end. -/
def queueBlock : Scan (Assign WaitingVars) := do
  let _ ← getField 58
  if ← looksBlank then
    pjScanGetNewline
    pure (.exit (WaitingVars.setTotal (-1)))
  else
    let pos ← getField 47
    let total ← pjScanGetUntilChr [CR, LF]
    if ← pjScanIsEof then pure (.exit (WaitingVars.setQueue pos total))
    else
      pjScanGetNewline
      pure (.next (WaitingVars.setQueue pos total))

def waitingQueue : Stage WaitingVars := ⟨ascii "queue:", queueBlock⟩

def waitingStages : List (Stage WaitingVars) := [waitingHeader, waitingSpeaker, waitingQueue]

/-- The status given to `updatePttState`. -/
def parseWaitingMsg (msgContent : Bytes) : Except Fault PttGroupStatus :=
  (lineLoop waitingStages {} msgContent).map WaitingVars.objPttGroupStatus

/-! ### The floor indication -/

/-- The local arrays, and the lengths of the two strings that point into them once they are
assigned. -/
structure InviteVars where
  speaker : Bytes := List.replicate 64 0
  group : Bytes := List.replicate 64 0
  pjGroup : Option ℕ := none
  pjSpeaker : Option ℕ := none
  bFind : Bool := true

namespace InviteVars

def notFound (x : InviteVars) : InviteVars := { x with bFind := false }

def clearSpeaker (x : InviteVars) : InviteVars := { x with speaker := bzeroText x.speaker }

def setGroup (out : Bytes) (x : InviteVars) : InviteVars :=
  let group := strncpy x.group out
  { x with group := group, pjGroup := some (cString group).length }

def setSpeaker (out : Bytes) (x : InviteVars) : InviteVars :=
  let speaker := strncpy x.speaker out
  { x with speaker := speaker, pjSpeaker := some (cString speaker).length }

end InviteVars

def inviteHeader : Stage InviteVars :=
  ⟨ascii "ind:call-info", headerBlock (.exit InviteVars.notFound)⟩

def inviteGroup : Stage InviteVars where
  lit := ascii "group:"
  block := fieldBlock (.exit fun x => x.clearSpeaker.notFound)
    (fun out => .next fun x => x.clearSpeaker.setGroup out)
    (fun out => .exit fun x => x.clearSpeaker.setGroup out)

def inviteSpeaker : Stage InviteVars where
  lit := ascii "speaker:"
  block := fieldBlock (.exit id) (fun out => .next (InviteVars.setSpeaker out))
    (fun out => .exit (InviteVars.setSpeaker out))

def inviteCallId : Stage InviteVars := ⟨ascii "call-id:", pure (.exit id)⟩

def inviteStages : List (Stage InviteVars) :=
    [inviteHeader, inviteGroup, inviteSpeaker, inviteCallId]

/-- The texts that `multicast_invite_indicate` takes from its arguments. A string that was never
assigned holds no text one could name. -/
structure Indicated where
  group : Option Bytes
  speaker : Option Bytes
  deriving Repr, DecidableEq

/-- What is indicated at the end, if anything is. -/
def doReceiveMinviteBySmessage (msgContent : Bytes) : Except Fault (Option Indicated) := do
  let x ← lineLoop inviteStages {} msgContent
  if x.bFind then
    return some ⟨x.pjGroup.map fun n => cString (x.group.take n),
      x.pjSpeaker.map fun n => cString (x.speaker.take n)⟩
  else return none

/-! ### What the three loops read -/

def QueueLine (r : Bytes) (c : Assign WaitingVars) (m : Bytes) : Prop :=
  ∃ x, r = ascii "queue:" ++ x ∧ ((Blank x m ∧ c = .exit (WaitingVars.setTotal (-1))) ∨
    ∃ pos total e, x = pos ++ 47 :: (total ++ e) ∧ Free [47] pos ∧ crOrSecondLf x = false ∧
      total ++ e ≠ [] ∧ Free [CR, LF] total ∧
      ((e = [] ∧ m = [] ∧ c = .exit (WaitingVars.setQueue pos total)) ∨
        (Newline e m ∧ c = .next (WaitingVars.setQueue pos total))))

theorem queueBlock_eq_ok {r m : Bytes} {c : Assign WaitingVars} (hr : ascii "queue:" <+: r) :
    queueBlock r = .ok (c, m) ↔ QueueLine r c m := by
  obtain ⟨x, rfl⟩ := hr
  have hname : (58 : UInt8) ∉ ascii "queue" := by decide
  have hlit : ascii "queue:" ++ x = ascii "queue" ++ 58 :: x := rfl
  simp only [QueueLine, List.append_cancel_left_eq, exists_eq_left']
  simp only [hlit, queueBlock, skipName_eq hname]
  rw [Scan.bind_of_ok (looksBlank_apply x)]
  cases hb : crOrSecondLf x with
  | true =>
    simp only [if_true, Scan.bind_eq_ok]
    constructor
    · rintro ⟨⟨⟩, k, hk, h⟩
      cases h
      exact .inl ⟨blank_iff.mpr ⟨hb, pjScanGetNewline_eq_ok.mp hk⟩, rfl⟩
    · rintro (⟨hbl, rfl⟩ | ⟨pos, total, e, -, -, hno, -⟩)
      · exact ⟨(), m, pjScanGetNewline_eq_ok.mpr (blank_iff.mp hbl).2, rfl⟩
      · cases hno
  | false =>
    simp only [Bool.false_eq_true, if_false, Scan.bind_eq_ok, pjScanGetUntilChr_crlf,
      getField_eq_ok (show (47 : UInt8) ≠ 0 by decide)]
    constructor
    · rintro ⟨pos, y, ⟨rfl, hpos⟩, total, e, ⟨hne, rfl, hfree, -⟩, b, k, hk, h⟩
      refine .inr ⟨pos, total, e, rfl, hpos, trivial, hne, hfree, ?_⟩
      cases hk
      cases e with
      | nil =>
        cases h
        exact .inl ⟨rfl, rfl, rfl⟩
      | cons d e =>
        simp only [List.isEmpty_cons, Bool.false_eq_true, if_false, Scan.bind_eq_ok] at h
        obtain ⟨⟨⟩, k, hk, h⟩ := h
        cases h
        exact .inr ⟨pjScanGetNewline_eq_ok.mp hk, rfl⟩
    · rintro (⟨hbl, -⟩ | ⟨pos, total, e, rfl, hpos, -, hne, hfree, h⟩)
      · simp [(blank_iff.mp hbl).1] at hb
      · refine ⟨pos, total ++ e, ⟨rfl, hpos⟩, total, e, ⟨hne, rfl, hfree, ?_⟩, e.isEmpty, e,
          pjScanIsEof_apply e, ?_⟩
        · rcases h with ⟨rfl, -⟩ | ⟨he, -⟩
          · exact .inl rfl
          · exact .inr ⟨m, he⟩
        · rcases h with ⟨rfl, rfl, rfl⟩ | ⟨he, rfl⟩
          · rfl
          · obtain ⟨d, rest, rfl, -⟩ := he.head
            simp only [List.isEmpty_cons, Bool.false_eq_true, if_false, Scan.bind_eq_ok]
            exact ⟨(), m, pjScanGetNewline_eq_ok.mpr he, rfl⟩

theorem QueueLine.length_lt {r m : Bytes} {c : Assign WaitingVars} (h : QueueLine r c m) :
    m.length < r.length := by
  have hl : (ascii "queue:").length = 6 := rfl
  obtain ⟨x, rfl, ⟨⟨-, hnl⟩, -⟩ | ⟨pos, total, e, rfl, -, -, -, -, h⟩⟩ := h
  · have := hnl.length_lt
    simp only [List.length_append]
    omega
  · simp only [List.length_append, List.length_cons]
    rcases h with ⟨rfl, rfl, -⟩ | ⟨he, -⟩
    · simp only [List.length_nil]
      omega
    · have := he.length_lt
      omega

def queueRule : LineRule WaitingVars where
  lit := ascii "queue:"
  skips r f m := QueueLine r (.next f) m
  ends r f := ∃ m, QueueLine r (.exit f) m
  pos := by decide
  consumes := fun _ _ _ h => h.length_lt

theorem waitingQueue_obeys : Obeys waitingQueue queueRule where
  lit := rfl
  next := fun _ hr _ _ => queueBlock_eq_ok hr
  exit := fun _ hr _ => exists_congr fun _ => queueBlock_eq_ok hr

def callIdRule : LineRule InviteVars where
  lit := ascii "call-id:"
  skips _ _ _ := False
  ends _ f := f = id
  pos := by decide
  consumes := fun _ _ _ h => h.elim

theorem inviteCallId_obeys : Obeys inviteCallId callIdRule where
  lit := rfl
  next := fun r _ f m => by simp [inviteCallId, callIdRule]
  exit := fun r _ f => by simp [inviteCallId, callIdRule, eq_comm]

def rejectRules : List (LineRule PttGroupStatus) :=
  [headerRule (ascii "rsp:ptt-reject") (by decide) (.next id),
    fieldRule (ascii "error") (.next (setRejectReason (-1)))
      (fun out => .next (setRejectReason (jint (pjStrtoul out))))
      (fun out => .next (setRejectReason (jint (pjStrtoul out))))]

def waitingRules : List (LineRule WaitingVars) :=
  [headerRule (ascii "rsp:ptt-waiting") (by decide) (.exit id),
    fieldRule (ascii "speaker") (.next fun x => x.clearSpeaker.setNoSpeaker)
      (fun out => .next fun x => x.clearSpeaker.setSpeaker out)
      (fun out => .exit fun x => x.clearSpeaker.setSpeaker out),
    queueRule]

def inviteRules : List (LineRule InviteVars) :=
  [headerRule (ascii "ind:call-info") (by decide) (.exit InviteVars.notFound),
    fieldRule (ascii "group") (.exit fun x => x.clearSpeaker.notFound)
      (fun out => .next fun x => x.clearSpeaker.setGroup out)
      (fun out => .exit fun x => x.clearSpeaker.setGroup out),
    fieldRule (ascii "speaker") (.exit id) (fun out => .next (InviteVars.setSpeaker out))
      (fun out => .exit (InviteVars.setSpeaker out)),
    callIdRule]

theorem rejectStages_obey : List.Forall₂ Obeys rejectStages rejectRules :=
  .cons (headerBlock_obeys _ _) (.cons (fieldBlock_obeys (ascii "error") (by decide) _ _ _) .nil)

theorem waitingStages_obey : List.Forall₂ Obeys waitingStages waitingRules :=
  .cons (headerBlock_obeys _ _) (.cons (fieldBlock_obeys (ascii "speaker") (by decide) _ _ _)
    (.cons waitingQueue_obeys .nil))

theorem inviteStages_obey : List.Forall₂ Obeys inviteStages inviteRules :=
  .cons (headerBlock_obeys _ _) (.cons (fieldBlock_obeys (ascii "group") (by decide) _ _ _)
    (.cons (fieldBlock_obeys (ascii "speaker") (by decide) _ _ _) (.cons inviteCallId_obeys .nil)))

/-- The rejected response is read to its end exactly when it is a text of its lines. -/
theorem parseRejectMsg_eq_ok {r : Bytes} {y : PttGroupStatus} :
    parseRejectMsg r = .ok y ↔ Reads rejectRules [] { status := .rejected } r y :=
  lineLoop_eq_ok rejectStages_obey

theorem parseWaitingMsg_eq_ok {r : Bytes} {y : PttGroupStatus} :
    parseWaitingMsg r = .ok y ↔ ∃ x, Reads waitingRules [] {} r x ∧ x.objPttGroupStatus = y := by
  simp only [← lineLoop_eq_ok waitingStages_obey, parseWaitingMsg]
  rcases lineLoop waitingStages {} r with e | x <;> simp [Except.map]

theorem doReceiveMinviteBySmessage_isOk {r : Bytes} :
    (∃ o, doReceiveMinviteBySmessage r = .ok o) ↔ ∃ x, Reads inviteRules [] {} r x := by
  simp only [← lineLoop_eq_ok inviteStages_obey, doReceiveMinviteBySmessage]
  rcases lineLoop inviteStages {} r with e | x
  · simp [bind, Except.bind]
  · simp only [bind, Except.bind, Except.ok.injEq, exists_eq', iff_true]
    split_ifs <;> exact ⟨_, rfl⟩

/-! ### On which messages the loops end -/

/-- Literals that differ before the end of the shorter one cannot both be the start of a text. -/
theorem separated_of_pairwise {n : ℕ} {rules : List (LineRule σ)}
    (hle : ∀ ru ∈ rules, ru.lit.length ≤ n) (hfirst : ∃ ru ∈ rules, ru.lit.length = n)
    (hne : rules.Pairwise fun a b => ¬ a.lit <+: b.lit ∧ ¬ b.lit <+: a.lit) :
    Separated n rules where
  le := hle
  first := hfirst
  unique := by
    intro a ha b hb r har hbr
    by_contra hab
    have hpre := List.prefix_or_prefix_of_prefix har hbr
    have hsymm : Std.Symm fun a b : LineRule σ => ¬ a.lit <+: b.lit ∧ ¬ b.lit <+: a.lit :=
      ⟨fun _ _ h => ⟨h.2, h.1⟩⟩
    exact hpre.elim (hne.forall ha hb hab).1 (hne.forall ha hb hab).2

theorem rejectRules_separated : Separated 14 rejectRules := by
  refine separated_of_pairwise ?_ ⟨_, List.mem_cons_self, rfl⟩ ?_
  · simp only [rejectRules, headerRule, fieldRule, List.forall_mem_cons]
    decide
  · simp only [rejectRules, headerRule, fieldRule, List.pairwise_cons, List.forall_mem_cons]
    decide

theorem waitingRules_separated : Separated 15 waitingRules := by
  refine separated_of_pairwise ?_ ⟨_, List.mem_cons_self, rfl⟩ ?_
  · simp only [waitingRules, headerRule, fieldRule, queueRule, List.forall_mem_cons]
    decide
  · simp only [waitingRules, headerRule, fieldRule, queueRule, List.pairwise_cons,
      List.forall_mem_cons]
    decide

theorem inviteRules_separated : Separated 13 inviteRules := by
  refine separated_of_pairwise ?_ ⟨_, List.mem_cons_self, rfl⟩ ?_
  · simp only [inviteRules, headerRule, fieldRule, callIdRule, List.forall_mem_cons]
    decide
  · simp only [inviteRules, headerRule, fieldRule, callIdRule, List.pairwise_cons,
      List.forall_mem_cons]
    decide

/-- Each of the three loops ends exactly on the messages whose lines it recognises: nothing else
moves the scanner, so that an unknown line is compared with the same literals for ever. -/
theorem message_loops_end_iff (msgContent : Bytes) :
    (Terminates rejectStages { status := .rejected } msgContent ↔
      Recognised rejectRules 14 msgContent) ∧
    (Terminates waitingStages {} msgContent ↔ Recognised waitingRules 15 msgContent) ∧
    (Terminates inviteStages {} msgContent ↔ Recognised inviteRules 13 msgContent) :=
  ⟨terminates_iff rejectStages_obey rejectRules_separated _,
    terminates_iff waitingStages_obey waitingRules_separated _,
    terminates_iff inviteStages_obey inviteRules_separated _⟩

/-- An unknown line behind the first one keeps the loop from ending. -/
theorem reject_loop_unknown_line :
    ¬ Terminates rejectStages { status := .rejected }
      (ascii "rsp:ptt-reject\r\nreason: unknown\r\n") := by
  rw [terminates_iff rejectStages_obey rejectRules_separated]
  intro h
  have hskip : Skip rejectRules (ascii "rsp:ptt-reject\r\nreason: unknown\r\n")
      (ascii "reason: unknown\r\n") :=
    ⟨_, List.mem_cons_self, by decide, id, ascii "rsp:ptt-reject",
      ⟨by decide, CR :: LF :: ascii "reason: unknown\r\n", by decide, .inl rfl⟩, (ite_self _).symm⟩
  obtain ⟨ru, hru, hlit⟩ := h _ (.single hskip) (by decide)
  revert hlit
  simp only [rejectRules, headerRule, fieldRule, List.mem_cons, List.not_mem_nil, or_false] at hru
  rcases hru with rfl | rfl <;> decide

end PttTerminal
