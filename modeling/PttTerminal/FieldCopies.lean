import PttTerminal.Responses

/-!
# Copies into arrays

Where a handler copies a field into an array, the bound that it passes is the length of the field.
Here the copies are made with the lengths of the arrays: one that leaves no room for a zero ends the
handler. Up to there a handler does what it does with arrays that are long enough.
-/
namespace PttTerminal

open Loops

variable {σ : Type}

/-- `pj_ansi_strncpy(dst, src.ptr, src.slen)` for an array of `size` bytes. -/
def copyInto (size : ℕ) (src : Bytes) : Scan Unit := fun r =>
  if src.length < size then .ok ((), r) else .error .overflow

/-- A line `name:value` whose value is copied into an array. -/
def fieldCopyBlock (size : ℕ) (blank : Assign σ) (value last : Bytes → Assign σ) :
    Scan (Assign σ) := do
  let _ ← getField 58
  if ← looksBlank then
    pjScanGetNewline
    pure blank
  else
    let out ← pjScanGetUntilChr [CR, LF]
    copyInto size out
    if ← pjScanIsEof then pure (last out)
    else
      pjScanGetNewline
      pure (value out)

/-! ### Lines whose values are too long -/

/-- What is read up to the end of the line. -/
def lineValue (x : Bytes) : Bytes := x.takeWhile fun c => !([CR, LF].contains c)

/-- The text starts with one of the literals, behind which a value of the length or more stands. -/
def longField (fields : List (Bytes × ℕ)) (r : Bytes) : Bool :=
  fields.any fun f => f.1.isPrefixOf r && !crOrSecondLf (r.drop f.1.length) &&
    decide (f.2 ≤ (lineValue (r.drop f.1.length)).length)

/-- The stage `st` is `st₀` but for the texts that it ends at. -/
structure Guards (bad : Bytes → Bool) (st st₀ : Stage σ) : Prop where
  lit : st.lit = st₀.lit
  block : ∀ r, st₀.lit <+: r → st.block r = if bad r then .error .overflow else st₀.block r
  quiet : ∀ r, st₀.lit <+: r → st₀.block r ≠ .error .overflow

/-- Standing before the tests given first, the loop comes to a line at the text given last, and one
of its literals fits there. -/
inductive ComesTo (rules : List (LineRule σ)) : List (LineRule σ) → Bytes → Bytes → Prop
  | here {ru rest r} : ru.lit <+: r → ComesTo rules (ru :: rest) r r
  | again {r t} : r ≠ [] → ComesTo rules rules r t → ComesTo rules [] r t
  | pass {ru rest r t} : ru.lit.length ≤ r.length → ¬ ru.lit <+: r → ComesTo rules rest r t →
      ComesTo rules (ru :: rest) r t
  | line {ru rest r m t f} : ru.lit <+: r → ru.skips r f m → ComesTo rules rest m t →
      ComesTo rules (ru :: rest) r t

/-- No line that the loop comes to is one of the texts. -/
def Avoids (rules : List (LineRule σ)) (bad : Bytes → Bool) (rest : List (LineRule σ)) (r : Bytes) :
    Prop :=
  ∀ t, ComesTo rules rest r t → bad t = false

section guards

variable {bad : Bytes → Bool} {all all₀ sts sts₀ : List (Stage σ)} {rules rest : List (LineRule σ)}
  {x y : σ} {r m : Bytes}

/-- Where the loop comes to none of the texts, the tests do the same. -/
theorem runStages_guards (hg : List.Forall₂ (Guards bad) sts sts₀)
    (ho : List.Forall₂ Obeys sts₀ rest) (hr : Avoids rules bad rest r) :
    runStages sts x r = runStages sts₀ x r ∧
      ∀ y m, runStages sts₀ x r = .ok (.next y, m) → Avoids rules bad [] m := by
  induction hg generalizing rest x r with
  | nil =>
    cases ho
    refine ⟨rfl, fun y m h => ?_⟩
    cases h
    exact hr
  | @cons st st₀ sts sts₀ hst _ ih =>
    obtain _ | ⟨hob, ho⟩ := ho
    rename_i ru rest
    rcases Nat.lt_or_ge r.length st₀.lit.length with hlen | hlen
    · rw [runStages_short hlen, runStages_short (by rwa [hst.lit])]
      exact ⟨rfl, fun y m h => by cases h⟩
    by_cases hp : st₀.lit <+: r
    · have hp' : ru.lit <+: r := hob.lit ▸ hp
      have hblock : st.block r = st₀.block r := by rw [hst.block r hp, hr r (.here hp')]; rfl
      rw [runStages_match hp, runStages_match (by rwa [hst.lit]), hblock]
      rcases hb : st₀.block r with e | ⟨f | f, k⟩
      · exact ⟨rfl, fun y m h => by cases h⟩
      · exact ih ho fun t ht => hr t (.line hp' ((hob.next r hp' f k).mp hb) ht)
      · exact ⟨rfl, fun y m h => by cases h⟩
    · rw [runStages_pass hlen hp, runStages_pass (by rwa [hst.lit]) (by rwa [hst.lit])]
      exact ih ho fun t ht => hr t (.pass (hob.lit ▸ hlen) (hob.lit ▸ hp) ht)

theorem loop_guards (hg : List.Forall₂ (Guards bad) all all₀) (ho : List.Forall₂ Obeys all₀ rules)
    {n : ℕ} (hr : Avoids rules bad [] r) :
    loop .hang (lineBody all) n (x, r) = loop .hang (lineBody all₀) n (x, r) := by
  induction n generalizing x r with
  | zero => rfl
  | succ n ih =>
    by_cases hnil : r = []
    · rw [hnil, loop_exit (show lineBody all (x, []) = .ok (.exit x) from rfl),
        loop_exit (show lineBody all₀ (x, []) = .ok (.exit x) from rfl)]
    · obtain ⟨heq, hnext⟩ := runStages_guards (x := x) hg ho fun t ht => hr t (.again hnil ht)
      rw [loop_succ, loop_succ, lineBody_cons _ _ hnil, lineBody_cons _ _ hnil, heq]
      rcases hrun : runStages all₀ x r with e | ⟨y | y, m⟩
      · rfl
      · exact ih (hnext y m hrun)
      · rfl

/-- A loop that comes to none of the texts does what it does without them. -/
theorem lineLoop_guards (hg : List.Forall₂ (Guards bad) all all₀)
    (ho : List.Forall₂ Obeys all₀ rules) (hr : Avoids rules bad [] r) :
    lineLoop all x r = lineLoop all₀ x r :=
  loop_guards hg ho hr

theorem runStages_quiet (hg : List.Forall₂ (Guards bad) sts sts₀) :
    runStages sts₀ x r ≠ .error .overflow := by
  induction hg generalizing x r with
  | nil => simp [runStages]
  | @cons st st₀ sts sts₀ hst _ ih =>
    rcases Nat.lt_or_ge r.length st₀.lit.length with hlen | hlen
    · simp [runStages_short hlen]
    by_cases hp : st₀.lit <+: r
    · have hq := hst.quiet r hp
      rw [runStages_match hp]
      rcases hb : st₀.block r with e | ⟨f | f, k⟩
      · simpa [hb] using hq
      · exact ih
      · simp
    · rw [runStages_pass hlen hp]
      exact ih

theorem lineLoop_quiet (hg : List.Forall₂ (Guards bad) all all₀) :
    lineLoop all₀ x r ≠ .error .overflow := by
  unfold lineLoop
  generalize r.length + 1 = n
  induction n generalizing x r with
  | zero => simp [loop]
  | succ n ih =>
    by_cases hnil : r = []
    · rw [hnil, loop_exit (show lineBody all₀ (x, []) = .ok (.exit x) from rfl)]
      simp
    · have hq := runStages_quiet (x := x) (r := r) hg
      rw [loop_succ, lineBody_cons _ _ hnil]
      rcases hrun : runStages all₀ x r with e | ⟨y | y, m⟩
      · simpa [hrun] using hq
      · exact ih
      · simp

/-! ### The texts that the guarded loop ends at -/

/-- The lines of the rule but for the texts. -/
def LineRule.without (ru : LineRule σ) (bad : Bytes → Bool) : LineRule σ where
  lit := ru.lit
  skips r f m := ru.skips r f m ∧ bad r = false
  ends r f := ru.ends r f ∧ bad r = false
  pos := ru.pos
  consumes := fun r f m h => ru.consumes r f m h.1

theorem Guards.obeys {st st₀ : Stage σ} {ru : LineRule σ} (hg : Guards bad st st₀)
    (ho : Obeys st₀ ru) : Obeys st (ru.without bad) where
  lit := hg.lit.trans ho.lit
  next := by
    intro r hp f m
    rw [hg.block r (ho.lit ▸ hp)]
    cases hb : bad r with
    | true => simp [LineRule.without, hb]
    | false => simpa [LineRule.without, hb] using ho.next r hp f m
  exit := by
    intro r hp f
    rw [hg.block r (ho.lit ▸ hp)]
    cases hb : bad r with
    | true => simp [LineRule.without, hb]
    | false => simpa [LineRule.without, hb] using ho.exit r hp f

theorem obeys_without (hg : List.Forall₂ (Guards bad) sts sts₀)
    (ho : List.Forall₂ Obeys sts₀ rest) :
    List.Forall₂ Obeys sts (rest.map (LineRule.without · bad)) := by
  induction hg generalizing rest with
  | nil =>
    cases ho
    exact .nil
  | cons hst _ ih =>
    obtain _ | ⟨hob, ho⟩ := ho
    exact .cons (hst.obeys hob) (ih ho)

theorem ComesTo.overflows (ha : List.Forall₂ (Guards bad) all all₀)
    (hoa : List.Forall₂ Obeys all₀ rules) {t : Bytes} (h : ComesTo rules rest r t)
    (ht : bad t = true) : ∀ {sts sts₀ x}, List.Forall₂ (Guards bad) sts sts₀ →
      List.Forall₂ Obeys sts₀ rest → ∃ fuel, runFrom all sts fuel x r = .error .overflow := by
  induction h with
  | @here ru rest r hp =>
    intro sts sts₀ x hg ho
    obtain _ | ⟨hob, ho⟩ := ho
    obtain _ | ⟨hst, hg⟩ := hg
    have hp' := hob.lit.symm ▸ hp
    refine ⟨0, ?_⟩
    rw [runFrom, runStages_match (by rwa [hst.lit]), hst.block r hp', ht]
    rfl
  | @again r t hr _ ih =>
    intro sts sts₀ x hg ho
    cases ho
    cases hg
    obtain ⟨fuel, hf⟩ := ih ht (x := x) ha hoa
    refine ⟨fuel + 1, ?_⟩
    rw [runFrom_again hr, hf]
  | @pass ru rest r t hlen hp _ ih =>
    intro sts sts₀ x hg ho
    obtain _ | ⟨hob, ho⟩ := ho
    obtain _ | ⟨hst, hg⟩ := hg
    obtain ⟨fuel, hf⟩ := ih ht (x := x) hg ho
    have hlit := hst.lit.trans hob.lit
    exact ⟨fuel, by rw [runFrom, runStages_pass (by rwa [hlit]) (by rwa [hlit])]; exact hf⟩
  | @line ru rest r m t f hp hskip _ ih =>
    intro sts sts₀ x hg ho
    obtain _ | ⟨hob, ho⟩ := ho
    obtain _ | ⟨hst, hg⟩ := hg
    have hp' := hob.lit.symm ▸ hp
    cases hb : bad r with
    | true =>
      refine ⟨0, ?_⟩
      rw [runFrom, runStages_match (by rwa [hst.lit]), hst.block r hp', hb]
      rfl
    | false =>
      obtain ⟨fuel, hf⟩ := ih ht (x := f x) hg ho
      have hblock := hst.block r hp'
      rw [hb, (hob.next r hp f m).mpr hskip] at hblock
      exact ⟨fuel, by rw [runFrom, runStages_line (by rwa [hst.lit]) hblock]; exact hf⟩

/-- A loop whose stages are guarded ends at one of the texts just when it comes to one. -/
theorem lineLoop_overflow (hg : List.Forall₂ (Guards bad) all all₀)
    (ho : List.Forall₂ Obeys all₀ rules) :
    lineLoop all x r ≠ .error .overflow ↔ Avoids rules bad [] r := by
  constructor
  · intro h t ht
    by_contra hbad
    obtain ⟨fuel, hf⟩ := ht.overflows hg ho (by simpa using hbad) (x := x) .nil .nil
    have hf' : loop .hang (lineBody all) fuel (x, r) = .error .overflow := hf
    have hhalts : Halts (lineBody all) (x, r) := by
      by_contra hno
      simp [loop_of_not_halts hno] at hf'
    apply h
    rw [lineLoop_of_halts (obeys_without hg ho) hhalts (n := fuel + r.length + 1) (by omega)]
    exact loop_mono hf' (by simp) (by omega)
  · intro h
    rw [lineLoop_guards hg ho h]
    exact lineLoop_quiet hg

end guards

/-! ### Scans that copy nothing -/

/-- The scan does not end for want of room. -/
def Scan.InBounds {α : Type} (x : Scan α) : Prop := ∀ r, x r ≠ .error .overflow

section scans

variable {α β : Type}

theorem Scan.InBounds.bind {x : Scan α} {f : α → Scan β} (hx : x.InBounds)
    (hf : ∀ a, (f a).InBounds) : Scan.InBounds (x >>= f) := by
  intro r
  rw [Scan.bind_apply]
  rcases hr : x r with e | ⟨a, m⟩
  · simpa [hr] using hx r
  · exact hf a m

theorem inBounds_pure (a : α) : Scan.InBounds (pure a) := fun r => by simp

theorem inBounds_ite {c : Prop} [Decidable c] {x y : Scan α} (hx : x.InBounds) (hy : y.InBounds) :
    Scan.InBounds (if c then x else y) := by
  split
  · exact hx
  · exact hy

theorem scanUntil_inBounds (stop : UInt8 → Bool) : (scanUntil stop).InBounds := by
  intro r
  unfold scanUntil
  split <;> simp

theorem pjScanGetNewline_inBounds : pjScanGetNewline.InBounds := by
  intro r
  unfold pjScanGetNewline
  split
  · simp
  · split_ifs <;> simp

theorem pjScanGetChar_inBounds : pjScanGetChar.InBounds := by
  intro r
  cases r with
  | nil => simp [pjScanGetChar]
  | cons c r =>
    simp only [pjScanGetChar]
    split_ifs <;> simp

theorem pjScanIsEof_inBounds : pjScanIsEof.InBounds := fun r => by simp [pjScanIsEof]

theorem looksBlank_inBounds : looksBlank.InBounds := fun r => by simp [looksBlank]

theorem getField_inBounds (d : UInt8) : (getField d).InBounds :=
  (scanUntil_inBounds _).bind fun _ => pjScanGetChar_inBounds.bind fun _ => inBounds_pure _

end scans

theorem headerBlock_inBounds (atEnd : Assign σ) : (headerBlock atEnd).InBounds := by
  refine (scanUntil_inBounds _).bind fun _ => pjScanGetNewline_inBounds.bind fun _ => ?_
  exact pjScanIsEof_inBounds.bind fun _ => inBounds_ite (inBounds_pure _) (inBounds_pure _)

theorem fieldBlock_inBounds (blank : Assign σ) (value last : Bytes → Assign σ) :
    (fieldBlock blank value last).InBounds := by
  refine (getField_inBounds _).bind fun _ => looksBlank_inBounds.bind fun _ => inBounds_ite ?_ ?_
  · exact pjScanGetNewline_inBounds.bind fun _ => inBounds_pure _
  · refine (scanUntil_inBounds _).bind fun _ => pjScanIsEof_inBounds.bind fun _ => ?_
    exact inBounds_ite (inBounds_pure _) (pjScanGetNewline_inBounds.bind fun _ => inBounds_pure _)

theorem queueBlock_inBounds : queueBlock.InBounds := by
  refine (getField_inBounds _).bind fun _ => looksBlank_inBounds.bind fun _ => inBounds_ite ?_ ?_
  · exact pjScanGetNewline_inBounds.bind fun _ => inBounds_pure _
  · refine (getField_inBounds _).bind fun _ => (scanUntil_inBounds _).bind fun _ => ?_
    refine pjScanIsEof_inBounds.bind fun _ => inBounds_ite (inBounds_pure _) ?_
    exact pjScanGetNewline_inBounds.bind fun _ => inBounds_pure _

/-! ### The stages -/

theorem fieldCopyBlock_eq {name x : Bytes} {size : ℕ} {blank : Assign σ}
    {value last : Bytes → Assign σ} (hname : (58 : UInt8) ∉ name) (hsize : 0 < size) :
    fieldCopyBlock size blank value last (name ++ 58 :: x) =
      if crOrSecondLf x = false ∧ size ≤ (lineValue x).length then .error .overflow
      else fieldBlock blank value last (name ++ 58 :: x) := by
  simp only [fieldCopyBlock, fieldBlock, skipName_eq hname]
  rw [Scan.bind_of_ok (looksBlank_apply x), Scan.bind_of_ok (looksBlank_apply x)]
  cases hb : crOrSecondLf x with
  | true => simp
  | false =>
    simp only [Bool.false_eq_true, if_false, true_and]
    by_cases hx : x = []
    · have huntil : pjScanGetUntilChr [CR, LF] x = .error .syntaxError := by
        simp [pjScanGetUntilChr, scanUntil, hx]
      rw [Scan.bind_of_error huntil, Scan.bind_of_error huntil, hx,
        if_neg (by simp [lineValue]; omega)]
    · have huntil : pjScanGetUntilChr [CR, LF] x =
          .ok (lineValue x, x.dropWhile fun c => !([CR, LF].contains c)) := by
        simp [pjScanGetUntilChr, scanUntil, hx, lineValue]
      rw [Scan.bind_of_ok huntil, Scan.bind_of_ok huntil]
      by_cases hlen : size ≤ (lineValue x).length
      · have hcopy : ∀ r, copyInto size (lineValue x) r = .error .overflow := fun r =>
          if_neg (by omega)
        rw [Scan.bind_of_error (hcopy _), if_pos hlen]
      · have hcopy : ∀ r, copyInto size (lineValue x) r = .ok ((), r) := fun r => if_pos (by omega)
        rw [Scan.bind_of_ok (hcopy _), if_neg hlen]

section stages

variable {fields : List (Bytes × ℕ)} {lit x : Bytes} {size : ℕ}

theorem longField_apart (hap : ∀ f ∈ fields, ¬ f.1 <+: lit ∧ ¬ lit <+: f.1) :
    longField fields (lit ++ x) = false := by
  simp only [longField, List.any_eq_false, Bool.and_eq_true, not_and]
  intro f hf hpre
  have hpre' : f.1 <+: lit ++ x := by simpa using hpre.1
  exact ((List.prefix_or_prefix_of_prefix hpre' (List.prefix_append _ _)).elim (hap f hf).1
    (hap f hf).2).elim

theorem longField_eq (hmem : (lit, size) ∈ fields)
    (hap : ∀ f ∈ fields, f ≠ (lit, size) → ¬ f.1 <+: lit ∧ ¬ lit <+: f.1) :
    longField fields (lit ++ x) =
      decide (crOrSecondLf x = false ∧ size ≤ (lineValue x).length) := by
  rw [Bool.eq_iff_iff, decide_eq_true_iff, longField, List.any_eq_true]
  simp only [Bool.and_eq_true, List.isPrefixOf_iff_prefix, Bool.not_eq_true', decide_eq_true_iff]
  constructor
  · rintro ⟨f, hf, ⟨hpre, hb⟩, hlen⟩
    obtain rfl : f = (lit, size) := by
      by_contra hne
      exact (List.prefix_or_prefix_of_prefix hpre (List.prefix_append _ _)).elim (hap f hf hne).1
        (hap f hf hne).2
    simpa using And.intro hb hlen
  · intro h
    exact ⟨(lit, size), hmem, by simpa [and_assoc] using h⟩

theorem guards_refl {st : Stage σ} (hap : ∀ f ∈ fields, ¬ f.1 <+: st.lit ∧ ¬ st.lit <+: f.1)
    (hq : st.block.InBounds) : Guards (longField fields) st st where
  lit := rfl
  block := by
    rintro r ⟨x, rfl⟩
    rw [longField_apart hap]
    rfl
  quiet := fun r _ => hq r

variable {name : Bytes} {blank : Assign σ} {value last : Bytes → Assign σ}

variable (name) in
theorem guards_fieldCopy (hname : (58 : UInt8) ∉ name) (hsize : 0 < size)
    (hmem : (name ++ [58], size) ∈ fields)
    (hap : ∀ f ∈ fields, f ≠ (name ++ [58], size) →
      ¬ f.1 <+: name ++ [58] ∧ ¬ name ++ [58] <+: f.1) :
    Guards (longField fields) ⟨name ++ [58], fieldCopyBlock size blank value last⟩
      ⟨name ++ [58], fieldBlock blank value last⟩ where
  lit := rfl
  block := by
    rintro r ⟨x, rfl⟩
    have heq : fieldCopyBlock size blank value last (name ++ 58 :: x) = _ :=
      fieldCopyBlock_eq hname hsize
    rw [longField_eq hmem hap]
    simpa using heq
  quiet := fun r _ => fieldBlock_inBounds _ _ _ r

end stages

/-! ### The waiting response and the floor indication -/

def waitingSpeakerCopy : Stage WaitingVars where
  lit := ascii "speaker:"
  block := fieldCopyBlock 64 (.next fun x => x.clearSpeaker.setNoSpeaker)
    (fun out => .next fun x => x.clearSpeaker.setSpeaker out)
    (fun out => .exit fun x => x.clearSpeaker.setSpeaker out)

def waitingCopyStages : List (Stage WaitingVars) :=
  [waitingHeader, waitingSpeakerCopy, waitingQueue]

def waitingFields : List (Bytes × ℕ) := [(ascii "speaker:", 64)]

/-- The waiting response with the length of its array. -/
def parseWaitingCopy (msgContent : Bytes) : Except Fault PttGroupStatus :=
  (lineLoop waitingCopyStages {} msgContent).map WaitingVars.objPttGroupStatus

def inviteGroupCopy : Stage InviteVars where
  lit := ascii "group:"
  block := fieldCopyBlock 64 (.exit fun x => x.clearSpeaker.notFound)
    (fun out => .next fun x => x.clearSpeaker.setGroup out)
    (fun out => .exit fun x => x.clearSpeaker.setGroup out)

def inviteSpeakerCopy : Stage InviteVars where
  lit := ascii "speaker:"
  block := fieldCopyBlock 64 (.exit id) (fun out => .next (InviteVars.setSpeaker out))
    (fun out => .exit (InviteVars.setSpeaker out))

def inviteCopyStages : List (Stage InviteVars) :=
  [inviteHeader, inviteGroupCopy, inviteSpeakerCopy, inviteCallId]

def inviteFields : List (Bytes × ℕ) := [(ascii "group:", 64), (ascii "speaker:", 64)]

theorem waitingCopyStages_guard :
    List.Forall₂ (Guards (longField waitingFields)) waitingCopyStages waitingStages :=
  .cons (guards_refl (by decide) (headerBlock_inBounds _))
    (.cons (guards_fieldCopy (ascii "speaker") (by decide) (by decide) (by decide)
      (by decide)) (.cons (guards_refl (by decide) queueBlock_inBounds) .nil))

theorem inviteCopyStages_guard :
    List.Forall₂ (Guards (longField inviteFields)) inviteCopyStages inviteStages :=
  .cons (guards_refl (by decide) (headerBlock_inBounds _))
    (.cons (guards_fieldCopy (ascii "group") (by decide) (by decide) (by decide) (by decide))
      (.cons (guards_fieldCopy (ascii "speaker") (by decide) (by decide) (by decide)
        (by decide)) (.cons (guards_refl (by decide) (inBounds_pure _)) .nil)))

/-- The waiting response is read in bounds just when no speaker that the loop comes to has 64 bytes
or more. -/
theorem parseWaitingCopy_inBounds {msgContent : Bytes} :
    parseWaitingCopy msgContent ≠ .error .overflow ↔
      Avoids waitingRules (longField waitingFields) [] msgContent := by
  rw [← lineLoop_overflow (x := {}) waitingCopyStages_guard waitingStages_obey]
  unfold parseWaitingCopy
  cases lineLoop waitingCopyStages {} msgContent <;> simp [Except.map]

theorem parseWaitingCopy_eq {msgContent : Bytes}
    (h : Avoids waitingRules (longField waitingFields) [] msgContent) :
    parseWaitingCopy msgContent = parseWaitingMsg msgContent := by
  rw [parseWaitingCopy, lineLoop_guards waitingCopyStages_guard waitingStages_obey h]
  rfl

end PttTerminal
