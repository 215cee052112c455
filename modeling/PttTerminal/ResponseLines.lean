import PttTerminal.CallInfo
import PttTerminal.Decimal
import PttTerminal.FieldCopies

/-!
# The lines of a rejected response

The reason of a rejected response stands in a line behind the first one. The reader looks for this
line whether it is there or not, and takes a value of one byte before LF for blank.
-/
namespace PttTerminal

open Loops

/-! ### Numbers as they are written -/

/-- At least one byte, and digits only. -/
def Digits (t : Bytes) : Prop := t ≠ [] ∧ ∀ c ∈ t, 48 ≤ c ∧ c ≤ 57

instance (t : Bytes) : Decidable (Digits t) :=
  inferInstanceAs (Decidable (t ≠ [] ∧ ∀ c ∈ t, 48 ≤ c ∧ c ≤ 57))

/-- The number that is written. -/
def numberOf (t : Bytes) : ℕ := t.foldl (fun v c => v * 10 + (c.toNat - 48)) 0

theorem digit_value {c : UInt8} (h : 48 ≤ c ∧ c ≤ 57) :
    (c - 48).toUInt32 = UInt32.ofNat (c.toNat - 48) := by
  have h48 : 48 ≤ c.toNat := UInt8.le_iff_toNat_le.mp h.1
  apply UInt32.toNat_inj.mp
  rw [UInt8.toNat_toUInt32, UInt8.toNat_sub_of_le c 48 h.1, UInt32.toNat_ofNat']
  have := c.toNat_lt
  show c.toNat - 48 = (c.toNat - 48) % 2 ^ 32
  omega

theorem foldl_digits {t : Bytes} (h : ∀ c ∈ t, 48 ≤ c ∧ c ≤ 57) (n : ℕ) :
    t.foldl (fun v c => v * 10 + (c - 48).toUInt32) (UInt32.ofNat n) =
      UInt32.ofNat (t.foldl (fun v c => v * 10 + (c.toNat - 48)) n) := by
  induction t generalizing n with
  | nil => rfl
  | cons c t ih =>
    obtain ⟨hc, ht⟩ := List.forall_mem_cons.mp h
    rw [List.foldl_cons, List.foldl_cons, ← ih ht, digit_value hc]
    congr 1
    rw [UInt32.ofNat_add, UInt32.ofNat_mul]
    rfl

theorem pjStrtoul_digits {t : Bytes} (h : Digits t) : pjStrtoul t = UInt32.ofNat (numberOf t) := by
  have hall : t.takeWhile (fun c => 48 ≤ c && c ≤ 57) = t :=
    List.takeWhile_eq_self_iff.mpr fun c hc => by simpa using h.2 c hc
  rw [pjStrtoul, hall]
  exact foldl_digits h.2 0

/-- A number is reported as it is written when it has 31 bits. -/
theorem jint_digits {t : Bytes} (h : Digits t) :
    jint (pjStrtoul t) = numberOf t ↔ numberOf t < 2 ^ 31 := by
  rw [pjStrtoul_digits h]
  constructor
  · intro heq
    have := (UInt32.ofNat (numberOf t)).toInt32.toInt_lt
    unfold jint at heq
    omega
  · exact jint_ofNat

theorem Digits.free {t spec : Bytes} (h : Digits t) (hs : ∀ c ∈ spec, ¬(48 ≤ c ∧ c ≤ 57)) :
    Free spec t := fun c hc hmem => hs c hmem (h.2 c hc)

/-! ### Lines behind the first one -/

/-- What follows a line: more lines, and a line end behind the last one if `ended`. -/
def linesText (nl : LineEnd) (ended : Bool) : List Bytes → Bytes
  | [] => if ended then nl.text else []
  | t :: ts => nl.text ++ (t ++ linesText nl ended ts)

section blocks

variable {σ : Type} {nl : LineEnd} {lit name v m : Bytes} {sts : List (Stage σ)} {x y : σ}
  {atEnd blank : Assign σ} {value last : Bytes → Assign σ}

theorem headerBlock_line (hlit : Free [CR, LF] lit) :
    headerBlock atEnd (lit ++ (nl.text ++ m)) = .ok (if m = [] then atEnd else .next id, m) :=
  headerBlock_eq_ok.mpr ⟨lit, ⟨hlit, nl.text ++ m, rfl, newline_text _ _⟩, rfl⟩

/-- The lines behind the first one come to the tests behind the first one. -/
theorem runStages_header (hlit : Free [CR, LF] lit)
    (hm : (if m = [] then atEnd else Ctl.next id) = .next id) :
    runStages (⟨lit, headerBlock atEnd⟩ :: sts) x (lit ++ (nl.text ++ m)) = runStages sts x m := by
  have hb : headerBlock atEnd (lit ++ (nl.text ++ m)) = _ := headerBlock_line hlit
  rw [hm] at hb
  have hp : (⟨lit, headerBlock atEnd⟩ : Stage σ).lit <+: lit ++ (nl.text ++ m) :=
    List.prefix_append _ _
  exact runStages_line hp hb

/-- Without a line end the first line cannot be read. -/
theorem runStages_bare (hne : lit ≠ []) (hlit : Free [CR, LF] lit) :
    runStages (⟨lit, headerBlock atEnd⟩ :: sts) x lit = .error .syntaxError := by
  have huntil : pjScanGetUntilChr [CR, LF] lit = .ok (lit, []) :=
    pjScanGetUntilChr_crlf.mpr ⟨hne, by simp, hlit, .inl rfl⟩
  have hb : headerBlock atEnd lit = .error .syntaxError := by
    rw [headerBlock, Scan.bind_of_ok huntil]
    rfl
  rw [runStages_match (List.prefix_refl _)]
  dsimp only
  rw [hb]

variable (name) in
/-- The last value of a text needs no line end. -/
theorem fieldBlock_last (hname : (58 : UInt8) ∉ name) (hv : Free [CR, LF] v) (hne : v ≠ []) :
    fieldBlock blank value last (name ++ [58] ++ v) = .ok (last v, []) := by
  have hb : crOrSecondLf v = false := by
    match v, hne with
    | [a], _ =>
      have ha : a ≠ CR := fun h => hv a (by simp) (by simp [h])
      simp [crOrSecondLf, ha]
    | a :: b :: w, _ => simpa using crOrSecondLf_append hv (by simp) []
  exact (fieldBlock_eq_ok hname (List.prefix_append _ _)).mpr ⟨v, rfl, .inr
    ⟨v, [], ⟨by simp, hne, hv, .inl rfl, hb⟩, .inl ⟨rfl, rfl, rfl⟩⟩⟩

variable (name) in
/-- A text that ends behind the colon. -/
theorem fieldBlock_end (hname : (58 : UInt8) ∉ name) :
    fieldBlock blank value last (name ++ [58] ++ []) = .error .syntaxError := by
  rw [fieldBlock, List.append_nil, skipName_eq hname]
  rfl

/-- The loop goes round once more. -/
theorem lineLoop_next {r : Bytes} (hr : r ≠ [])
    (h : runStages sts x r = .ok (.next y, m)) :
    lineLoop sts x r = loop .hang (lineBody sts) r.length (y, m) := by
  rw [lineLoop, loop_succ, lineBody_cons sts x hr, h]

theorem lineLoop_next_nil {r : Bytes} (hr : r ≠ [])
    (h : runStages sts x r = .ok (.next y, [])) : lineLoop sts x r = .ok y := by
  obtain ⟨n, hn⟩ := Nat.exists_eq_succ_of_ne_zero (List.length_pos_iff.mpr hr).ne'
  rw [lineLoop_next hr h, hn]
  exact loop_exit (by simp [lineBody]) _

/-- A line that fits, as far as it can be read. -/
theorem runStages_toOption {st : Stage σ} {r : Bytes} (hp : st.lit <+: r) :
    (runStages (st :: sts) x r).toOption = (st.block r).toOption.bind fun p => match p with
      | (.next f, m) => (runStages sts (f x) m).toOption
      | (.exit f, m) => some (.exit (f x), m) := by
  rw [runStages_match hp]
  rcases st.block r with e | ⟨f | f, m⟩ <;> rfl

/-- The variables after an iteration. -/
def ctlValue : Ctl σ σ → σ
  | .next y => y
  | .exit y => y

/-- A loop that ends with the iteration, as it is left or as the text is read. -/
theorem loop_toOption {r : Bytes} {n : ℕ} (hr : r ≠ []) (hn : 0 < n)
    (hend : ∀ y m, runStages sts x r = .ok (.next y, m) → m = []) :
    (loop .hang (lineBody sts) (n + 1) (x, r)).toOption =
      (runStages sts x r).toOption.map fun p => ctlValue p.1 := by
  obtain ⟨n, rfl⟩ := Nat.exists_eq_succ_of_ne_zero hn.ne'
  rw [loop_succ, lineBody_cons sts x hr]
  rcases hrun : runStages sts x r with e | ⟨y | y, m⟩
  · rfl
  · obtain rfl := hend y m hrun
    have hexit : loop .hang (lineBody sts) n.succ (y, []) = .ok y :=
      loop_exit (by simp [lineBody]) n
    dsimp only
    rw [hexit]
    rfl
  · rfl

end blocks

/-! ### The rejected response -/

/-- The reason may be absent or blank. -/
structure RejectBody where
  lineEnd : LineEnd
  ended : Bool
  error : Option Bytes
  deriving Repr, DecidableEq

def RejectBody.lines (b : RejectBody) : List Bytes := b.error.toList.map (ascii "error:" ++ ·)

def RejectBody.text (b : RejectBody) : Bytes :=
  ascii "rsp:ptt-reject" ++ linesText b.lineEnd b.ended b.lines

/-- A number behind `error:`, if anything. -/
def RejectBody.WellFormed (b : RejectBody) : Prop := ∀ n ∈ b.error, n ≠ [] → Digits n

section reject

variable {b : RejectBody} {n : Bytes}

theorem rejectLit_free : Free [CR, LF] (ascii "rsp:ptt-reject") := by decide

theorem RejectBody.text_ne_nil (b : RejectBody) : b.text ≠ [] :=
  List.append_ne_nil_of_left_ne_nil (by decide) _

theorem runStages_reject (nl : LineEnd) (m : Bytes) (x : PttGroupStatus) :
    runStages rejectStages x (ascii "rsp:ptt-reject" ++ (nl.text ++ m)) =
      runStages [rejectError] x m :=
  runStages_header rejectLit_free (ite_self _)

/-- Without its line the reason is looked for in an empty text. -/
theorem parseReject_absent (h : b.error = none) : parseRejectMsg b.text = .error .syntaxError := by
  apply lineLoop_error b.text_ne_nil
  unfold RejectBody.text RejectBody.lines
  rw [h]
  cases b.ended with
  | true =>
    have hrun := runStages_reject b.lineEnd [] { status := .rejected }
    rw [List.append_nil] at hrun
    exact hrun.trans (runStages_short (by decide))
  | false =>
    exact (congrArg _ (List.append_nil _)).trans (runStages_bare (by decide) rejectLit_free)

/-- What is read behind `error:`. -/
def rejectReason (b : RejectBody) (n : Bytes) : Option ℤ :=
  if n = [] then if b.ended then some (if b.lineEnd = .crlf then -1 else 0) else none
  else if b.ended ∧ b.lineEnd = .lf ∧ n.length = 1 then none
  else some (jint (pjStrtoul n))

/-- A value before a line end, unless it is the single byte before LF. -/
theorem errorBlock_value (hn : Free [CR, LF] n) (hlf : b.lineEnd = .crlf → n ≠ [])
    (h1 : b.lineEnd = .lf → n.length ≠ 1) :
    rejectError.block (ascii "error:" ++ (n ++ (b.lineEnd.text ++ []))) =
      .ok (.next (setRejectReason (jint (pjStrtoul n))), []) := by
  apply fieldBlock_value (ascii "error") (by decide) hn
  rw [crOrSecondLf_value hn (by simp)]
  cases hl : b.lineEnd with
  | crlf => simpa using hlf hl
  | lf => simpa using h1 hl

theorem errorBlock_toOption (h : Free [CR, LF] n) :
    (rejectError.block (ascii "error:" ++ (n ++ linesText b.lineEnd b.ended []))).toOption =
      (rejectReason b n).map fun v => (.next (setRejectReason v), []) := by
  unfold rejectReason linesText
  cases hend : b.ended with
  | false =>
    simp only [Bool.false_eq_true, if_false, List.append_nil, false_and]
    by_cases hn : n = []
    · have hb : rejectError.block (ascii "error:" ++ []) = .error .syntaxError :=
        fieldBlock_end (ascii "error") (by decide)
      rw [hn, hb]
      rfl
    · have hb : rejectError.block (ascii "error:" ++ n) =
          .ok (.next (setRejectReason (jint (pjStrtoul n))), []) :=
        fieldBlock_last (ascii "error") (by decide) h hn
      rw [hb, if_neg hn]
      rfl
  | true =>
    simp only [if_true, true_and]
    rw [← List.append_nil b.lineEnd.text]
    by_cases hn : n = []
    · subst hn
      cases hl : b.lineEnd with
      | crlf =>
        have hb : rejectError.block (ascii "error:" ++ ([] ++ (LineEnd.crlf.text ++ []))) =
            .ok (.next (setRejectReason (-1)), []) := fieldBlock_blank (ascii "error") (by decide)
        rw [hb]
        rfl
      | lf =>
        have hb := errorBlock_value (b := b) (n := []) h (by simp [hl]) (by simp)
        rw [hl] at hb
        rw [hb]
        rfl
    · rw [if_neg hn]
      by_cases h1 : b.lineEnd = .lf ∧ n.length = 1
      · have hb : rejectError.block (ascii "error:" ++ (n ++ (LineEnd.lf.text ++ []))) =
            .error .syntaxError := fieldBlock_single (ascii "error") (by decide) h h1.2
        rw [if_pos h1, h1.1, hb]
        rfl
      · rw [if_neg h1, errorBlock_value h (fun _ => hn) fun hl hlen => h1 ⟨hl, hlen⟩]
        rfl

theorem parseReject_present (h : b.error = some n) (hn : Free [CR, LF] n) :
    (parseRejectMsg b.text).toOption =
      (rejectReason b n).map fun v => { status := .rejected, rejectReason := v } := by
  have htext : b.text = ascii "rsp:ptt-reject" ++
      (b.lineEnd.text ++ (ascii "error:" ++ n ++ linesText b.lineEnd b.ended [])) := by
    simp [RejectBody.text, RejectBody.lines, h, linesText]
  have hrun := runStages_reject b.lineEnd (ascii "error:" ++ n ++ linesText b.lineEnd b.ended [])
    { status := .rejected }
  rw [← htext, List.append_assoc] at hrun
  have hp : rejectError.lit <+: ascii "error:" ++ (n ++ linesText b.lineEnd b.ended []) :=
    List.prefix_append _ _
  have hblock := errorBlock_toOption (b := b) hn
  cases hreason : rejectReason b n with
  | none =>
    rw [hreason] at hblock
    cases hb : rejectError.block (ascii "error:" ++ (n ++ linesText b.lineEnd b.ended [])) with
    | error e =>
      rw [runStages_match hp, hb] at hrun
      rw [parseRejectMsg, lineLoop_error b.text_ne_nil hrun]
      rfl
    | ok r => simp [hb, Except.toOption] at hblock
  | some v =>
    rw [hreason] at hblock
    cases hb : rejectError.block (ascii "error:" ++ (n ++ linesText b.lineEnd b.ended [])) with
    | error e => simp [hb, Except.toOption] at hblock
    | ok r =>
      obtain rfl : r = (.next (setRejectReason v), []) := by
        simpa [hb, Except.toOption] using hblock
      rw [runStages_line hp hb] at hrun
      rw [parseRejectMsg, lineLoop_next_nil b.text_ne_nil hrun]
      rfl

end reject

end PttTerminal
