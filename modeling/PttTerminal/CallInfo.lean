import PttTerminal.PagerHandlers

/-!
# Floor indications that are delivered

A floor indication that comes as a message names the group and the speaker in lines of their own.
The lines end in CR LF or in LF. `CallInfo.Delivered` says that the application is told exactly the
group and the speaker; a speaker who is not named has to arrive as the empty text.
-/
namespace PttTerminal

open Loops

/-- The two ends that a line may have. -/
inductive LineEnd where
  | crlf
  | lf
  deriving Repr, DecidableEq

def LineEnd.text : LineEnd → Bytes
  | .crlf => [CR, LF]
  | .lf => [LF]

/-- A floor indication and what stands behind `call-id:`. -/
structure CallInfo where
  lineEnd : LineEnd
  group : Bytes
  speaker : Bytes
  callId : Bytes
  deriving Repr, DecidableEq

/-- One floor indication more. -/
def PttInfo.indicate (info : PttInfo) (group speaker : Option Bytes) : PttInfo :=
  { info with effects := .mInviteIndicate group speaker :: info.effects }

namespace CallInfo

/-- The line of the speaker, and what follows. -/
def speakerText (i : CallInfo) : Bytes :=
  ascii "speaker:" ++ (i.speaker ++ (i.lineEnd.text ++ (ascii "call-id:" ++ i.callId)))

def groupText (i : CallInfo) : Bytes :=
  ascii "group:" ++ (i.group ++ (i.lineEnd.text ++ i.speakerText))

/-- The body of the message. -/
def text (i : CallInfo) : Bytes := ascii "ind:call-info" ++ (i.lineEnd.text ++ i.groupText)

/-- The group is named, both texts fit, and neither holds a line end. -/
structure WellFormed (i : CallInfo) : Prop where
  groupNum : i.group ≠ []
  groupFits : i.group.length ≤ 31
  groupFree : Free [CR, LF] i.group
  speakerFits : i.speaker.length ≤ 31
  speakerFree : Free [CR, LF] i.speaker

/-- The application is told the group and the speaker, once. -/
def Delivered (info : PttInfo) (i : CallInfo) : Prop :=
  receiveMinvite info i.text = .ok (info.indicate (some i.group) (some i.speaker))

/-- With CR LF a speaker has to be named. With LF alone the second byte of a value must not be the
line end, which is a speaker who is not named or one with more than one digit. NULs end a text. -/
def Deliverable (i : CallInfo) : Prop :=
  0 ∉ i.group ∧ 0 ∉ i.speaker ∧ match i.lineEnd with
    | .crlf => i.speaker ≠ []
    | .lf => i.group.length ≠ 1 ∧ i.speaker.length ≠ 1

instance (i : CallInfo) : Decidable i.Deliverable := by
  unfold Deliverable
  cases i.lineEnd <;> infer_instance

end CallInfo

/-! ### Values before a line end -/

section
variable {nl : LineEnd} {v m : Bytes}

theorem newline_text (nl : LineEnd) (m : Bytes) : Newline (nl.text ++ m) m := by
  cases nl with
  | crlf => exact .inl rfl
  | lf => exact .inr (.inr rfl)

/-- The test for a blank value looks at two bytes: with LF alone it misses the empty value, and
takes a value of one byte for blank. -/
theorem crOrSecondLf_value (hv : Free [CR, LF] v) (hm : m.head? ≠ some LF) :
    crOrSecondLf (v ++ (nl.text ++ m)) = match nl with
      | .crlf => decide (v = [])
      | .lf => decide (v.length = 1) := by
  have hhead : ∀ a ∈ v, a ≠ CR ∧ a ≠ LF := fun a ha => by simpa [not_or] using hv a ha
  match v, nl with
  | [], .crlf => rfl
  | [], .lf =>
    have hm' : (m[0]? = some LF) = False := by simpa [List.head?_eq_getElem?] using hm
    simp [crOrSecondLf, LineEnd.text, hm', show LF ≠ CR by decide]
  | [a], .crlf =>
    have ha := hhead a (by simp)
    simp [crOrSecondLf, LineEnd.text, ha.1, show CR ≠ LF by decide]
  | [a], .lf => simp [crOrSecondLf, LineEnd.text]
  | a :: b :: v, .crlf =>
    rw [crOrSecondLf_append hv (by simp)]
    simp
  | a :: b :: v, .lf =>
    rw [crOrSecondLf_append hv (by simp)]
    simp

variable {σ : Type} {name : Bytes} {blank : Assign σ} {value last : Bytes → Assign σ}

variable (name) in
/-- A value that is not taken for blank is read. -/
theorem fieldBlock_value (hname : (58 : UInt8) ∉ name) (hv : Free [CR, LF] v)
    (hb : crOrSecondLf (v ++ (nl.text ++ m)) = false) :
    fieldBlock blank value last (name ++ [58] ++ (v ++ (nl.text ++ m))) = .ok (value v, m) := by
  refine (fieldBlock_eq_ok hname (List.prefix_append _ _)).mpr ⟨v ++ (nl.text ++ m), rfl, .inr
    ⟨v, nl.text ++ m, ⟨rfl, ?_, hv, .inr ⟨m, newline_text nl m⟩, hb⟩,
      .inr ⟨newline_text nl m, rfl⟩⟩⟩
  cases nl <;> simp [LineEnd.text]

variable (name) in
theorem fieldBlock_blank (hname : (58 : UInt8) ∉ name) :
    fieldBlock blank value last (name ++ [58] ++ ([] ++ (LineEnd.crlf.text ++ m))) =
      .ok (blank, m) := by
  refine (fieldBlock_eq_ok hname (List.prefix_append _ _)).mpr ⟨_, rfl, .inl ⟨⟨.inl rfl, ?_⟩, rfl⟩⟩
  exact .inl rfl

variable (name) in
/-- A value of one byte before LF is taken for blank, and its line end is not where it has to be. -/
theorem fieldBlock_single (hname : (58 : UInt8) ∉ name) (hv : Free [CR, LF] v) (h1 : v.length = 1) :
    fieldBlock blank value last (name ++ [58] ++ (v ++ (LineEnd.lf.text ++ m))) =
      .error .syntaxError := by
  obtain ⟨a, rfl⟩ := List.length_eq_one_iff.mp h1
  have ha : a ≠ CR ∧ a ≠ LF := by simpa [not_or] using hv a (by simp)
  have hb : crOrSecondLf ([a] ++ (LineEnd.lf.text ++ m)) = true := by
    simp [crOrSecondLf, LineEnd.text]
  have hn : pjScanGetNewline ([a] ++ (LineEnd.lf.text ++ m)) = .error .syntaxError := by
    simp [pjScanGetNewline, ha.1, ha.2]
  rw [List.append_assoc name, List.singleton_append, fieldBlock, skipName_eq hname,
    Scan.bind_of_ok (looksBlank_apply _), hb, if_pos rfl]
  exact Scan.bind_of_error hn

end

/-! ### The four lines -/

section
variable {i : CallInfo} {x : InviteVars} {info : PttInfo}

theorem lineLoop_exit {σ : Type} {sts : List (Stage σ)} {x y : σ} {r m : Bytes} (hr : r ≠ [])
    (h : runStages sts x r = .ok (.exit y, m)) : lineLoop sts x r = .ok y := by
  refine loop_exit ?_ _
  rw [lineBody_cons sts x hr, h]

theorem lineLoop_error {σ : Type} {sts : List (Stage σ)} {x : σ} {r : Bytes} {e : Fault}
    (hr : r ≠ []) (h : runStages sts x r = .error e) : lineLoop sts x r = .error e := by
  refine loop_fault ?_ _
  rw [lineBody_cons sts x hr, h]

theorem CallInfo.text_ne_nil (i : CallInfo) : i.text ≠ [] := by
  unfold CallInfo.text
  exact List.append_ne_nil_of_left_ne_nil (by decide) _

theorem runStages_callInfo (i : CallInfo) (x : InviteVars) :
    runStages inviteStages x i.text =
      runStages [inviteGroup, inviteSpeaker, inviteCallId] x i.groupText := by
  have hne : i.groupText ≠ [] := by
    unfold CallInfo.groupText
    exact List.append_ne_nil_of_left_ne_nil (by decide) _
  have hb : inviteHeader.block i.text = .ok (.next id, i.groupText) :=
    headerBlock_eq_ok.mpr ⟨ascii "ind:call-info",
      ⟨by decide, i.lineEnd.text ++ i.groupText, rfl, newline_text _ _⟩, by rw [if_neg hne]⟩
  have hp : inviteHeader.lit <+: i.text := List.prefix_append (ascii "ind:call-info") _
  rw [inviteStages, runStages_line hp hb, id_eq]

/-- The line of the group. -/
theorem runStages_group (hg : Free [CR, LF] i.group) (hne : i.group ≠ []) :
    runStages [inviteGroup, inviteSpeaker, inviteCallId] x i.groupText =
      if i.lineEnd = .lf ∧ i.group.length = 1 then .error .syntaxError
      else runStages [inviteSpeaker, inviteCallId] (x.clearSpeaker.setGroup i.group)
        i.speakerText := by
  have hp : inviteGroup.lit <+: i.groupText := List.prefix_append _ _
  have hm : i.speakerText.head? ≠ some LF := by
    rw [show i.speakerText.head? = some 115 from rfl]
    decide
  split
  next h =>
    have hb : inviteGroup.block i.groupText = .error .syntaxError := by
      unfold CallInfo.groupText
      rw [h.1]
      exact fieldBlock_single (ascii "group") (by decide) hg h.2
    rw [runStages_match hp, hb]
  next h =>
    have hcr : crOrSecondLf (i.group ++ (i.lineEnd.text ++ i.speakerText)) = false := by
      rw [crOrSecondLf_value hg hm]
      cases hl : i.lineEnd with
      | crlf => simpa using hne
      | lf => simpa [hl] using h
    have hb : inviteGroup.block i.groupText =
        .ok (.next fun x => x.clearSpeaker.setGroup i.group, i.speakerText) :=
      fieldBlock_value (ascii "group") (by decide) hg hcr
    exact runStages_line hp hb

/-- The line of the speaker, and the end at the last one. -/
theorem runStages_speaker (hs : Free [CR, LF] i.speaker) :
    runStages [inviteSpeaker, inviteCallId] x i.speakerText =
      match i.lineEnd with
      | .lf => if i.speaker.length = 1 then .error .syntaxError
        else .ok (.exit (x.setSpeaker i.speaker), ascii "call-id:" ++ i.callId)
      | .crlf => if i.speaker = [] then .ok (.exit x, ascii "call-id:" ++ i.callId)
        else .ok (.exit (x.setSpeaker i.speaker), ascii "call-id:" ++ i.callId) := by
  have hp : inviteSpeaker.lit <+: i.speakerText := List.prefix_append _ _
  have hm : (ascii "call-id:" ++ i.callId).head? ≠ some LF := by
    rw [show (ascii "call-id:" ++ i.callId).head? = some 99 from rfl]
    decide
  have hid : ∀ y, runStages [inviteCallId] y (ascii "call-id:" ++ i.callId) =
      .ok (.exit y, ascii "call-id:" ++ i.callId) := fun y => by
    have hc : inviteCallId.lit <+: ascii "call-id:" ++ i.callId := List.prefix_append _ _
    rw [runStages_match hc]
    rfl
  have hread :
    crOrSecondLf (i.speaker ++ (i.lineEnd.text ++ (ascii "call-id:" ++ i.callId))) = false →
      runStages [inviteSpeaker, inviteCallId] x i.speakerText =
        .ok (.exit (x.setSpeaker i.speaker), ascii "call-id:" ++ i.callId) := fun hcr => by
    have hb : inviteSpeaker.block i.speakerText =
        .ok (.next (InviteVars.setSpeaker i.speaker), ascii "call-id:" ++ i.callId) :=
      fieldBlock_value (ascii "speaker") (by decide) hs hcr
    rw [runStages_line hp hb, hid]
  rw [crOrSecondLf_value hs hm] at hread
  cases hl : i.lineEnd with
  | crlf =>
    rw [hl] at hread
    dsimp only at hread ⊢
    split
    next h =>
      have hb : inviteSpeaker.block i.speakerText =
        .ok (.exit id, ascii "call-id:" ++ i.callId) := by
        unfold CallInfo.speakerText
        rw [hl, h]
        exact fieldBlock_blank (ascii "speaker") (by decide)
      rw [runStages_match hp, hb]
      rfl
    next h => exact hread (by simpa using h)
  | lf =>
    rw [hl] at hread
    dsimp only at hread ⊢
    split
    next h =>
      have hb : inviteSpeaker.block i.speakerText = .error .syntaxError := by
        unfold CallInfo.speakerText
        rw [hl]
        exact fieldBlock_single (ascii "speaker") (by decide) hs h
      rw [runStages_match hp, hb]
    next h => exact hread (by simpa using h)

/-! ### What is indicated -/

/-- The variables when both lines were read, and when the speaker is not named. -/
def CallInfo.vars (i : CallInfo) : InviteVars := ({} : InviteVars).clearSpeaker.setGroup i.group

theorem indicated_group (i : CallInfo) :
    (i.vars.pjGroup.map fun n => cString (i.vars.group.take n)) =
    some (cString i.group) := by
  show some (cString ((strncpy (List.replicate 64 0) i.group).take
    (cString (strncpy (List.replicate 64 0) i.group)).length)) = _
  rw [cString_take_cString, cString_strncpy_zeros]

theorem indicated_speaker (i : CallInfo) :
    ((i.vars.setSpeaker i.speaker).pjSpeaker.map fun n =>
      cString ((i.vars.setSpeaker i.speaker).speaker.take n)) = some (cString i.speaker) := by
  have hz : i.vars.speaker = List.replicate 64 0 := rfl
  show some (cString ((strncpy i.vars.speaker i.speaker).take
    (cString (strncpy i.vars.speaker i.speaker)).length)) = _
  rw [cString_take_cString, hz, cString_strncpy_zeros]

/-- What the loop of the handler comes to. -/
theorem receiveMinvite_callInfo (h : i.WellFormed) (info : PttInfo) :
    receiveMinvite info i.text =
      if i.lineEnd = .lf ∧ (i.group.length = 1 ∨ i.speaker.length = 1) then .error .syntaxError
      else .ok (info.indicate (some (cString i.group))
        (if i.lineEnd = .crlf ∧ i.speaker = [] then none else some (cString i.speaker))) := by
  have hgroup := runStages_group (x := {}) h.groupFree h.groupNum
  have hspeaker := runStages_speaker (x := i.vars) h.speakerFree
  rw [← runStages_callInfo] at hgroup
  have hok : ∀ y m, runStages inviteStages {} i.text = .ok (.exit y, m) → y.bFind = true →
      receiveMinvite info i.text =
        .ok (info.indicate (y.pjGroup.map fun n => cString (y.group.take n))
          (y.pjSpeaker.map fun n => cString (y.speaker.take n))) := fun y m hy hf => by
    simp only [receiveMinvite, doReceiveMinviteBySmessage, lineLoop_exit i.text_ne_nil hy,
      ok_bind, hf,
      if_true, pure, Except.pure]
    rfl
  have hread : ∀ m, runStages inviteStages {} i.text =
    .ok (.exit (i.vars.setSpeaker i.speaker), m) →
      receiveMinvite info i.text =
        .ok (info.indicate (some (cString i.group)) (some (cString i.speaker))) := fun m hy => by
    rw [hok _ _ hy rfl, indicated_speaker, ← indicated_group]
    rfl
  have herr : runStages inviteStages {} i.text = .error .syntaxError →
      receiveMinvite info i.text = .error .syntaxError := fun he => by
    simp only [receiveMinvite, doReceiveMinviteBySmessage, lineLoop_error i.text_ne_nil he]
    rfl
  by_cases hg : i.lineEnd = .lf ∧ i.group.length = 1
  · rw [if_pos hg] at hgroup
    rw [herr hgroup, if_pos ⟨hg.1, .inl hg.2⟩]
  · rw [if_neg hg, show ({} : InviteVars).clearSpeaker.setGroup i.group = i.vars from rfl,
      hspeaker] at hgroup
    cases hl : i.lineEnd with
    | crlf =>
      rw [hl] at hgroup
      dsimp only at hgroup
      rw [if_neg (by simp)]
      split at hgroup
      next hs =>
        have hnone : (i.vars.pjSpeaker.map fun n => cString (i.vars.speaker.take n)) = none := rfl
        rw [hok _ _ hgroup rfl, indicated_group, hnone, if_pos ⟨rfl, hs⟩]
      next hs => rw [hread _ hgroup, if_neg (by simp [hs])]
    | lf =>
      rw [hl] at hgroup hg
      dsimp only at hgroup
      split at hgroup
      next hs => rw [herr hgroup, if_pos ⟨rfl, .inr hs⟩]
      next hs =>
        have hg' : ¬i.group.length = 1 := by simpa using hg
        rw [hread _ hgroup, if_neg (by simp [hs, hg']), if_neg (by simp)]

end

/-- A well-formed floor indication is delivered exactly when it is deliverable. -/
theorem callInfo_delivered_iff (info : PttInfo) (i : CallInfo) (h : i.WellFormed) :
    CallInfo.Delivered info i ↔ i.Deliverable := by
  have hinj : ∀ g s : Option Bytes, info.indicate g s =
      info.indicate (some i.group) (some i.speaker) ↔ g = some i.group ∧ s = some i.speaker := by
    intro g s
    constructor
    · intro he
      have he' := congrArg PttInfo.effects he
      simpa [PttInfo.indicate] using he'
    · rintro ⟨rfl, rfl⟩
      rfl
  unfold CallInfo.Delivered CallInfo.Deliverable
  rw [receiveMinvite_callInfo h]
  cases hl : i.lineEnd with
  | crlf =>
    rw [if_neg (by simp), Except.ok.injEq, hinj]
    by_cases hs : i.speaker = []
    · simp [hs]
    · simp [hs, cString_eq_self_iff]
  | lf =>
    by_cases h1 : i.group.length = 1 ∨ i.speaker.length = 1
    · rw [if_pos ⟨rfl, h1⟩]
      simp only [reduceCtorEq, false_iff, not_and, not_not]
      intro _ _ hg
      exact h1.resolve_left hg
    · rw [if_neg (by simp [h1]), if_neg (by simp), Except.ok.injEq, hinj]
      simp only [not_or] at h1
      simp [h1.1, h1.2, cString_eq_self_iff]

/-- A speaker of three digits, with either line end. -/
theorem callInfo_delivered :
    CallInfo.Delivered (PttInfo.initial fun _ _ => true)
      ⟨.crlf, ascii "8001", ascii "101", ascii "c1"⟩ ∧
    CallInfo.Delivered (PttInfo.initial fun _ _ => true)
      ⟨.lf, ascii "8001", ascii "101", ascii "c1"⟩ :=
  ⟨(callInfo_delivered_iff _ _ ⟨by decide, by decide, by decide, by decide,
    by decide⟩).mpr (by decide),
    (callInfo_delivered_iff _ _ ⟨by decide, by decide, by decide, by decide,
      by decide⟩).mpr (by decide)⟩

/-- Nobody speaks, in a message with CR LF: the string of the speaker is handed over unassigned. -/
theorem free_floor_not_delivered :
    CallInfo.WellFormed ⟨.crlf, ascii "8001", [], ascii "c1"⟩ ∧
      ¬CallInfo.Delivered (PttInfo.initial fun _ _ => true)
        ⟨.crlf, ascii "8001", [], ascii "c1"⟩ := by
  have hw : CallInfo.WellFormed ⟨.crlf, ascii "8001", [], ascii "c1"⟩ :=
    ⟨by decide, by decide, by decide, by decide, by decide⟩
  refine ⟨hw, fun hd => ?_⟩
  unfold CallInfo.Delivered at hd
  rw [receiveMinvite_callInfo hw, if_neg (by decide), if_pos (by decide)] at hd
  have he : (PttInfo.indicate (PttInfo.initial fun _ _ => true) (some (cString (ascii "8001")))
      none).effects = _ := congrArg PttInfo.effects (Except.ok.inj hd)
  simp [PttInfo.indicate] at he

end PttTerminal
