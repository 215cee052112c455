import PttTerminal.Library.Overwrites
import PttTerminal.MulticastSession

/-!
# The texts of the session

The identifier of the call and the speaker are each kept in an array. A new text is written over the
old one and neither terminated nor cleared, and what comes in is compared up to its own length.
Which texts match is a question about all the texts that were written since the array was cleared.
-/
namespace PttTerminal

open Loops Runs Overwrites

/-! ### Texts in an array -/

/-- What `strncpy` writes: behind a NUL there are only NULs. -/
def padded (src : Bytes) : Bytes :=
  cString src ++ List.replicate (src.length - (cString src).length) 0

/-- The byte at the place `i`. -/
def byteAt (b : Bytes) (i : ℕ) : UInt8 := b[i]?.getD 0

section texts

variable {buf buf' src x : Bytes} {c : UInt8}

theorem cString_length_le (b : Bytes) : (cString b).length ≤ b.length :=
  (List.takeWhile_sublist _).length_le

@[simp]
theorem padded_length : (padded src).length = src.length := by
  have := cString_length_le src
  simp only [padded, List.length_append, List.length_replicate]
  omega

theorem padded_eq_self (h : 0 ∉ src) : padded src = src := by
  simp [padded, cString_eq_self h]

theorem strncpy_eq_overwrite : strncpy buf src = overwrite buf (padded src) := by
  rw [overwrite, padded_length]
  rfl

theorem strncmpEq_congr (h : cString buf = cString buf') : strncmpEq buf x = strncmpEq buf' x := by
  unfold strncmpEq
  rw [h]

@[simp]
theorem strncmpEq_nil : strncmpEq buf [] = true := by simp [strncmpEq, cString]

/-- The first bytes agree, and behind a common NUL nothing is compared. -/
theorem strncmpEq_cons : strncmpEq buf (c :: x) = true ↔
    byteAt buf 0 = c ∧ (c = 0 ∨ strncmpEq buf.tail x = true) := by
  by_cases hc : c = 0
  · cases buf with
    | nil => simp [strncmpEq, cString, byteAt, hc]
    | cons b buf => by_cases hb : b = 0 <;> simp [strncmpEq, cString, byteAt, hb, hc]
  · have hc' : ¬ 0 = c := fun h => hc h.symm
    cases buf with
    | nil => simp [strncmpEq, cString, byteAt, hc, hc']
    | cons b buf => by_cases hb : b = 0 <;> simp [strncmpEq, cString, byteAt, hb, hc, hc']

/-- The bytes are compared one after the other up to a NUL. -/
theorem strncmpEq_iff : strncmpEq buf x = true ↔
    ∀ i < x.length, (∀ j < i, byteAt x j ≠ 0) → byteAt buf i = byteAt x i := by
  induction x generalizing buf with
  | nil => simp
  | cons c x ih =>
    rw [strncmpEq_cons, ih]
    have htail : ∀ i, byteAt buf.tail i = byteAt buf (i + 1) := by
      intro i
      cases buf <;> simp [byteAt]
    constructor
    · rintro ⟨hfirst, hrest⟩ i hi hne
      cases i with
      | zero => simpa [byteAt] using hfirst
      | succ i =>
        have hc : c ≠ 0 := by simpa [byteAt] using hne 0 (by omega)
        have := hrest.resolve_left hc i (by simpa using hi) fun j hj => by
          simpa [byteAt] using hne (j + 1) (by omega)
        rw [htail] at this
        simpa [byteAt] using this
    · intro h
      refine ⟨by simpa [byteAt] using h 0 (by simp) (by simp), ?_⟩
      by_cases hc : c = 0
      · exact .inl hc
      · right
        intro i hi hne
        rw [htail]
        have := h (i + 1) (by simpa using hi) fun j hj => by
          cases j with
          | zero => simpa [byteAt] using hc
          | succ j => simpa [byteAt] using hne j (by omega)
        simpa [byteAt] using this

theorem cString_append_of_mem (h : 0 ∈ src) (b : Bytes) : cString (src ++ b) = cString src := by
  induction src with
  | nil => simp at h
  | cons c src ih =>
    by_cases hc : c = 0
    · simp [cString, hc]
    · have h' : 0 ∈ src := by simpa [Ne.symm hc] using h
      simpa [cString, hc] using ih h'

theorem cString_append_of_notMem (h : 0 ∉ src) (b : Bytes) :
    cString (src ++ b) = src ++ cString b := by
  unfold cString
  apply List.takeWhile_append_of_pos
  intro c hc
  simpa using fun h0 : c = 0 => h (h0 ▸ hc)

/-- What is read back after a text was written. -/
theorem cString_strncpy : cString (strncpy buf src) =
    if 0 ∈ src then cString src else src ++ cString (buf.drop src.length) := by
  split_ifs with h
  · have hmem : 0 ∈ padded src := by
      have hlt : (cString src).length < src.length := by
        apply lt_of_le_of_ne (cString_length_le src)
        intro heq
        exact cString_eq_self_iff.mp ((List.takeWhile_sublist _).eq_of_length heq) h
      simp only [padded, List.mem_append, List.mem_replicate]
      exact .inr ⟨by omega, trivial⟩
    have hpad : cString (padded src) = cString src :=
      cString_append_zeros (zero_notMem_cString src) _
    rw [strncpy_eq_overwrite, overwrite, cString_append_of_mem hmem, hpad]
  · rw [strncpy_eq_overwrite, overwrite, padded_length, padded_eq_self h,
      cString_append_of_notMem h]

/-- A text matches when it was written last. -/
theorem strncmpEq_strncpy : strncmpEq (strncpy buf src) src = true := by
  unfold strncmpEq
  rw [cString_strncpy]
  split_ifs with h
  · simp [List.take_of_length_le (cString_length_le src)]
  · simp [cString_eq_self h]

end texts

/-! ### Which texts an invitation writes -/

/-- The invitation is for a group of the list, and for that of the session if there is one. -/
def PttInfo.takesInvite (info : PttInfo) (inv : MulticastInvite) : Bool :=
  match info.generalGroup with
  | none => false
  | some head =>
    match search info head inv.groupNum head with
    | .ok (listed, _) => (invitedGroup info inv.groupNum listed).toOption.getD false
    | .error _ => false

/-- Both texts stay as they are. -/
structure SameTexts (info info' : PttInfo) : Prop where
  currentCallId : info'.currentCallId = info.currentCallId
  gSpeaker : info'.gSpeaker = info.gSpeaker

section invite

variable {o : Outside} {inv : MulticastInvite} {info info' info₁ : PttInfo} {node : ℕ}

theorem SameTexts.trans (h : SameTexts info info₁) (h' : SameTexts info₁ info') :
    SameTexts info info' :=
  ⟨h'.currentCallId.trans h.currentCallId, h'.gSpeaker.trans h.gSpeaker⟩

theorem callIncoming_texts {success : Bool}
    (h : multicastCallIncoming o info = .ok (success, info')) : SameTexts info info' := by
  obtain ⟨⟨node, c⟩, -, h⟩ := bind_eq_ok.mp h
  dsimp only at h
  cases htransport : c.val.transport with
  | none =>
    rw [htransport] at h
    obtain ⟨_, -, h⟩ := bind_eq_ok.mp h
    cases h
  | some t =>
    rw [htransport] at h
    dsimp only at h
    unfold assertReturn at h
    split_ifs at h <;> cases h
    · obtain ⟨effects, transports, hclose⟩ := pjmediaTransportClose_eq info c.val
      rw [hclose]
      exact ⟨rfl, rfl⟩
    all_goals exact ⟨rfl, rfl⟩

theorem openMedia_texts (h : pttOpenMedia o info = .ok info') : SameTexts info info' := by
  cases hstate : info.pttState with
  | init =>
    simp only [pttOpenMedia, hstate] at h
    obtain ⟨⟨success, info₁⟩, hcall, h⟩ := bind_eq_ok.mp h
    have hreport : SameTexts info (info.report .callHangupAll) := ⟨rfl, rfl⟩
    have hsame : SameTexts info info₁ := hreport.trans (callIncoming_texts hcall)
    dsimp only at h
    split_ifs at h <;> cases h
    · exact hsame.trans ⟨rfl, rfl⟩
    · exact hsame
  | _ =>
    simp only [pttOpenMedia, hstate] at h
    cases h
    exact ⟨rfl, rfl⟩

theorem openUnlessCalling_texts (h : openUnlessCalling o info = .ok info') :
    SameTexts info info' := by
  unfold openUnlessCalling at h
  split_ifs at h
  · exact openMedia_texts h
  · cases h
    exact ⟨rfl, rfl⟩

theorem invited_texts {bSpeakerChanged : Bool}
    (h : invited o inv node bSpeakerChanged info = .ok info') : SameTexts info info' := by
  obtain ⟨info₁, hrun, h⟩ := bind_eq_ok.mp h
  have hsame : SameTexts info info₁ := by
    split_ifs at hrun
    · obtain ⟨info₂, hmedia, hrun⟩ := bind_eq_ok.mp hrun
      cases hrun
      split_ifs at hmedia
      · cases hmedia
        exact ⟨rfl, rfl⟩
      · have hopen := openUnlessCalling_texts hmedia
        exact ⟨hopen.currentCallId, hopen.gSpeaker⟩
    · have hopen := openUnlessCalling_texts hrun
      exact ⟨hopen.currentCallId, hopen.gSpeaker⟩
  split_ifs at h <;> cases h
  · exact hsame.trans ⟨rfl, rfl⟩
  · exact hsame

theorem takesInvite_eq {head : ℕ} {listed bfind : Bool} (hgen : info.generalGroup = some head)
    (hsearch : search info head inv.groupNum head = .ok (listed, node))
    (hfind : invitedGroup info inv.groupNum listed = .ok bfind) :
    info.takesInvite inv = bfind := by
  simp [PttInfo.takesInvite, hgen, hsearch, hfind, Except.toOption]

/-- An invitation that is taken leaves both of its texts, and another one no more than the
speaker. -/
theorem invite_texts (h : multicastInvite o inv info = .ok info') :
    info'.currentCallId =
        (if info.takesInvite inv then strncpy info.currentCallId inv.callId
          else info.currentCallId) ∧
      info'.gSpeaker = (if info.takesInvite inv = true ∧ inv.speaker = [] then []
        else (recordSpeaker inv.speaker info).gSpeaker) := by
  obtain ⟨t, ht⟩ := recordSpeaker_eq inv.speaker info
  unfold multicastInvite at h
  dsimp only at h
  rw [ht] at h ⊢
  obtain hgen | ⟨head, hgen⟩ := Option.eq_none_or_eq_some info.generalGroup
  · simp only [hgen] at h
    cases h
    simp [PttInfo.takesInvite, hgen]
  · simp only [hgen] at h
    obtain ⟨⟨listed, node⟩, hsearch, h⟩ := bind_eq_ok.mp h
    obtain ⟨bfind, hfind, h⟩ := bind_eq_ok.mp h
    have htakes : info.takesInvite inv = bfind := takesInvite_eq hgen hsearch hfind
    rw [htakes]
    cases bfind with
    | false =>
      cases h
      simp
    | true =>
      simp only [Bool.not_true, Bool.false_eq_true, if_false] at h
      by_cases hempty : inv.speaker = []
      · rw [if_pos (by simp [hempty])] at h
        cases h
        simp [hempty, pttEnterState, PttInfo.report]
      · rw [if_neg (by simp [hempty])] at h
        simp only [if_true, hempty, and_false, if_false]
        split_ifs at h
        · cases h
          simp
        · have hsame := invited_texts h
          exact ⟨hsame.currentCallId, hsame.gSpeaker⟩

end invite

/-! ### The call that a BYE ends -/

/-- The invitations are taken one after the other. -/
inductive AcceptedCalls : PttInfo → List (Outside × MulticastInvite) → PttInfo → Prop
  | nil (info) : AcceptedCalls info [] info
  | cons {info info₁ info' o inv calls} : info.takesInvite inv = true →
      multicastInvite o inv info = .ok info₁ → AcceptedCalls info₁ calls info' →
      AcceptedCalls info ((o, inv) :: calls) info'

/-- The array of 512 bytes holds each identifier and a NUL behind it. -/
def IdsFit (calls : List (Outside × MulticastInvite)) : Prop := ∀ c ∈ calls, c.2.callId.length < 512

instance (calls : List (Outside × MulticastInvite)) : Decidable (IdsFit calls) :=
  inferInstanceAs (Decidable (∀ c ∈ calls, _))

/-- After the calls a BYE ends the session just when it is for the last of them. -/
def EndsLast (info' : PttInfo) (last : Outside × MulticastInvite) (callId : Bytes) : Prop :=
  (multicastBye callId info').pttState = .uninit ↔ callId = last.2.callId

/-- Some byte of the identifier, no later than its first NUL, differs from what the last of the
identifiers that reaches its place brought. -/
def Differs (old : Bytes) (ids : List Bytes) (callId : Bytes) : Prop :=
  ∃ i < callId.length, (∀ j < i, byteAt callId j ≠ 0) ∧
    byteAt (lastReaching old (ids.map padded) i) i ≠ byteAt callId i

section bye

variable {info info' : PttInfo} {calls : List (Outside × MulticastInvite)}

theorem AcceptedCalls.currentCallId (h : AcceptedCalls info calls info') :
    info'.currentCallId =
      written info.currentCallId (calls.map fun c => padded c.2.callId) := by
  induction h with
  | nil => rfl
  | cons htakes hstep _ ih =>
    have hid := (invite_texts hstep).1
    rw [if_pos htakes, strncpy_eq_overwrite] at hid
    rw [ih, hid]
    rfl

theorem strncmpEq_written {old x : Bytes} {ids : List Bytes} :
    strncmpEq (written old (ids.map padded)) x = false ↔ Differs old ids x := by
  have hbyte : ∀ i, byteAt (written old (ids.map padded)) i =
      byteAt (lastReaching old (ids.map padded) i) i := by
    intro i
    rw [byteAt, written_getElem?]
    rfl
  rw [← Bool.not_eq_true, strncmpEq_iff]
  simp only [hbyte, Differs]
  push Not
  rfl

theorem multicastBye_uninit {callId : Bytes} (h : info.pttState ≠ .uninit) :
    (multicastBye callId info).pttState = .uninit ↔
      strncmpEq info.currentCallId callId = true := by
  unfold multicastBye
  by_cases heq : strncmpEq info.currentCallId callId = true
  · rw [if_pos ⟨h, heq⟩]
    exact iff_of_true rfl heq
  · rw [if_neg (by simp [heq])]
    exact iff_of_false h heq

end bye

/-- The identifiers stay in their array and a BYE ends the session just when it is for the last
invitation, exactly when they fit and the BYE has the identifier of the last invitation, or a byte
in which it differs from what the identifiers left. -/
theorem bye_matches_iff {info info' : PttInfo} (calls : List (Outside × MulticastInvite))
    (last : Outside × MulticastInvite) (hcalls : AcceptedCalls info (calls ++ [last]) info')
    (hstate : info'.pttState ≠ .uninit) (callId : Bytes) :
    IdsFit (calls ++ [last]) ∧ EndsLast info' last callId ↔
      IdsFit (calls ++ [last]) ∧ (callId = last.2.callId ∨
        Differs info.currentCallId ((calls ++ [last]).map fun c => c.2.callId) callId) := by
  have hstored := hcalls.currentCallId
  have hids : (calls ++ [last]).map (fun c => padded c.2.callId) =
      ((calls ++ [last]).map fun c => c.2.callId).map padded := by
    rw [List.map_map]
    rfl
  have hlast : strncmpEq info'.currentCallId last.2.callId = true := by
    rw [hstored, List.map_append, List.map_singleton, written_append, ← strncpy_eq_overwrite]
    exact strncmpEq_strncpy
  apply and_congr_right
  intro _
  rw [EndsLast, multicastBye_uninit hstate, ← strncmpEq_written, ← hids, ← hstored]
  by_cases heq : callId = last.2.callId
  · simp [heq, hlast]
  · simp [heq]

/-- The variables once the list of the group 1 was read. -/
def listed : PttInfo := (native fun _ => true).run (.initial fun _ _ => true) [.groupInfo listOfOne]

/-- An invitation for the group 1 during a call. -/
def callOf (speaker callId : Bytes) : Outside × MulticastInvite :=
  ({ callCount := 1 }, ⟨ascii "1", speaker, callId⟩)

/-- The variables after the invitations. -/
def afterCalls (info : PttInfo) (calls : List (Outside × MulticastInvite)) : PttInfo :=
  calls.foldl (fun info c => (multicastInvite c.1 c.2 info).toOption.getD info) info

def allTaken : PttInfo → List (Outside × MulticastInvite) → Bool
  | _, [] => true
  | info, c :: calls => info.takesInvite c.2 && (multicastInvite c.1 c.2 info).toBool &&
    allTaken (afterCalls info [c]) calls

theorem acceptedCalls_of_allTaken (info : PttInfo) (calls : List (Outside × MulticastInvite))
    (h : allTaken info calls = true) : AcceptedCalls info calls (afterCalls info calls) := by
  induction calls generalizing info with
  | nil => exact .nil info
  | cons c calls ih =>
    simp only [allTaken, Bool.and_eq_true] at h
    obtain ⟨⟨htakes, hstep⟩, hrest⟩ := h
    cases hrun : multicastInvite c.1 c.2 info with
    | error f => simp [hrun, Except.toBool] at hstep
    | ok info₁ =>
      have hnext : afterCalls info [c] = info₁ := by simp [afterCalls, hrun, Except.toOption]
      have hall : afterCalls info (c :: calls) = afterCalls info₁ calls := by
        simp [afterCalls, hrun, Except.toOption]
      rw [hnext] at hrest
      rw [hall]
      exact .cons htakes hrun (ih info₁ hrest)

/-- The identifier of the earlier call was longer. -/
def shorterCalls : List (Outside × MulticastInvite) :=
  [callOf (ascii "7") (ascii "c23"), callOf (ascii "7") (ascii "d")]

/-- The BYE of the call `d2` ends the call `d`. -/
theorem shorter_call_left_over : ¬ ∀ (info info' : PttInfo)
    (calls : List (Outside × MulticastInvite)) (last : Outside × MulticastInvite),
    AcceptedCalls info (calls ++ [last]) info' → (∀ c ∈ calls ++ [last], c.2.callId ≠ []) →
    info'.pttState ≠ .uninit → ∀ callId, EndsLast info' last callId := by
  intro h
  have hcalls := acceptedCalls_of_allTaken listed shorterCalls (by decide)
  have hbye := h listed _ [callOf (ascii "7") (ascii "c23")] (callOf (ascii "7") (ascii "d")) hcalls
    (by decide) (by decide) (ascii "d2")
  exact absurd (hbye.mp (by decide)) (by decide)

theorem bye_of_last_call :
    IdsFit shorterCalls ∧
        EndsLast (afterCalls listed shorterCalls) (callOf (ascii "7") (ascii "d")) (ascii "d") ↔
      IdsFit shorterCalls ∧ (ascii "d" = ascii "d" ∨
        Differs listed.currentCallId [ascii "c23", ascii "d"] (ascii "d")) :=
  bye_matches_iff [callOf (ascii "7") (ascii "c23")] (callOf (ascii "7") (ascii "d"))
    (acceptedCalls_of_allTaken listed shorterCalls (by decide)) (by decide) (ascii "d")

/-! ### The change of the speaker -/

/-- The flag `b_speaker_changed` of an invitation. -/
def bSpeakerChanged (info : PttInfo) (inv : MulticastInvite) : Bool :=
  !strncmpEq info.gSpeaker inv.speaker

/-- `previous` is the speaker of the last invitation of the session, and `told` says that every flag
so far was right. -/
structure SpeakerRun where
  info : PttInfo
  previous : Bytes := []
  told : Bool := true

namespace SpeakerRun

def next (s : SpeakerRun) (e : Outside × MulticastInvite) : SpeakerRun :=
  let info := (multicastInvite e.1 e.2 s.info).toOption.getD s.info
  if s.info.takesInvite e.2 then
    { info := info
      previous := e.2.speaker
      told := s.told && bSpeakerChanged s.info e.2 = decide (e.2.speaker ≠ s.previous) }
  else { s with info := info }

/-- Every flag was right, and the recorded speaker is that of the session's last invitation. -/
def SpeakerTold (s : SpeakerRun) : Prop := s.told = true ∧ cString s.info.gSpeaker = s.previous

/-- In the session no speaker is shorter than the one before. -/
def NotShorter (s : SpeakerRun) (e : Outside × MulticastInvite) : Prop :=
  if s.info.takesInvite e.2 then 0 ∉ e.2.speaker ∧ s.previous.length ≤ e.2.speaker.length
  else strncmpEq s.previous e.2.speaker = true

instance (s : SpeakerRun) : Decidable s.SpeakerTold :=
  inferInstanceAs (Decidable (_ ∧ _))

instance (s : SpeakerRun) (e : Outside × MulticastInvite) : Decidable (s.NotShorter e) :=
  inferInstanceAs (Decidable (if s.info.takesInvite e.2 then 0 ∉ e.2.speaker ∧ _ else _))

end SpeakerRun

/-- The session starts with a cleared speaker. -/
def speakerRuns : System SpeakerRun (Outside × MulticastInvite) where
  init s := (∀ c ∈ s.info.gSpeaker, c = 0) ∧ s.previous = [] ∧ s.told = true
  enabled s e := e.2.speaker.length < 512 ∧ (multicastInvite e.1 e.2 s.info).toBool = true
  next s e := s.next e

instance (s : SpeakerRun) (e : Outside × MulticastInvite) : Decidable (speakerRuns.enabled s e) :=
  inferInstanceAs (Decidable (_ ∧ _))

section speaker

variable {s : SpeakerRun} {e : Outside × MulticastInvite}

/-- The array holds the speaker and nothing behind it. -/
structure SpeakerExact (s : SpeakerRun) : Prop where
  told : s.told = true
  noZero : 0 ∉ s.previous
  stored : ∃ n, s.info.gSpeaker = s.previous ++ List.replicate n 0

theorem SpeakerExact.text (h : SpeakerExact s) : cString s.info.gSpeaker = s.previous := by
  obtain ⟨n, hn⟩ := h.stored
  rw [hn, cString_append_zeros h.noZero]

theorem SpeakerExact.speakerTold (h : SpeakerExact s) : s.SpeakerTold := ⟨h.told, h.text⟩

theorem speakerExact_init (h : speakerRuns.init s) : SpeakerExact s := by
  obtain ⟨hzero, hprev, htold⟩ := h
  refine ⟨htold, by simp [hprev], s.info.gSpeaker.length, ?_⟩
  rw [hprev, List.nil_append]
  exact List.eq_replicate_of_mem hzero

theorem recordSpeaker_gSpeaker (speaker : Bytes) (info : PttInfo) :
    (recordSpeaker speaker info).gSpeaker =
      if strncmpEq info.gSpeaker speaker then info.gSpeaker
      else strncpy info.gSpeaker speaker := by
  unfold recordSpeaker
  split <;> rfl

/-- A speaker that is no shorter than the recorded one matches only when it is the same. -/
theorem SpeakerExact.matches_iff (h : SpeakerExact s) {x : Bytes} (hx : 0 ∉ x)
    (hlen : s.previous.length ≤ x.length) :
    strncmpEq s.info.gSpeaker x = true ↔ x = s.previous := by
  unfold strncmpEq
  rw [h.text, cString_eq_self hx, List.take_of_length_le hlen, decide_eq_true_eq]
  exact eq_comm

theorem SpeakerExact.strncpy_stored (h : SpeakerExact s) {x : Bytes} (hx : 0 ∉ x)
    (hlen : s.previous.length ≤ x.length) :
    ∃ n, strncpy s.info.gSpeaker x = x ++ List.replicate n 0 := by
  obtain ⟨n, hn⟩ := h.stored
  refine ⟨n - (x.length - s.previous.length), ?_⟩
  rw [strncpy_eq_overwrite, overwrite, padded_length, padded_eq_self hx, hn,
    List.drop_append, List.drop_eq_nil_of_le hlen, List.drop_replicate, List.nil_append]

theorem speakerRuns_runs (he : speakerRuns.enabled s e) :
    ∃ info', multicastInvite e.1 e.2 s.info = .ok info' := by
  have hrun := he.2
  cases hcopy : multicastInvite e.1 e.2 s.info with
  | error f => simp [hcopy, Except.toBool] at hrun
  | ok info' => exact ⟨info', rfl⟩

/-- What an invitation for the session leaves of the speaker. -/
theorem next_taken (he : speakerRuns.enabled s e) (htakes : s.info.takesInvite e.2 = true) :
    (s.next e).previous = e.2.speaker ∧
      (s.next e).told = (s.told &&
        bSpeakerChanged s.info e.2 = decide (e.2.speaker ≠ s.previous)) ∧
      (s.next e).info.gSpeaker = if e.2.speaker = [] then []
        else if strncmpEq s.info.gSpeaker e.2.speaker then s.info.gSpeaker
        else strncpy s.info.gSpeaker e.2.speaker := by
  obtain ⟨info', hrun⟩ := speakerRuns_runs he
  have htext := (invite_texts hrun).2
  rw [recordSpeaker_gSpeaker] at htext
  simp only [htakes, true_and] at htext
  simp [SpeakerRun.next, hrun, htakes, Except.toOption, htext]

/-- What an invitation for another group leaves of the speaker. -/
theorem next_passed (he : speakerRuns.enabled s e) (htakes : ¬s.info.takesInvite e.2 = true) :
    (s.next e).previous = s.previous ∧ (s.next e).told = s.told ∧
      (s.next e).info.gSpeaker = if strncmpEq s.info.gSpeaker e.2.speaker then s.info.gSpeaker
        else strncpy s.info.gSpeaker e.2.speaker := by
  obtain ⟨info', hrun⟩ := speakerRuns_runs he
  have htext := (invite_texts hrun).2
  rw [recordSpeaker_gSpeaker] at htext
  simp only [htakes] at htext
  simp [SpeakerRun.next, hrun, htakes, Except.toOption, htext]

/-- For another group only what is recorded already is in order. -/
theorem SpeakerExact.matches_previous (h : SpeakerExact s) (x : Bytes) :
    strncmpEq s.info.gSpeaker x = strncmpEq s.previous x := by
  apply strncmpEq_congr
  rw [h.text, cString_eq_self h.noZero]

/-- An invitation that is in order leaves its own speaker and told whether it is another one. -/
theorem SpeakerExact.next (h : SpeakerExact s) (he : speakerRuns.enabled s e)
    (hok : s.NotShorter e) : SpeakerExact (s.next e) := by
  by_cases htakes : s.info.takesInvite e.2 = true
  · rw [SpeakerRun.NotShorter, if_pos htakes] at hok
    obtain ⟨hprev, htold, htext⟩ := next_taken he htakes
    have hmatch := h.matches_iff hok.1 hok.2
    refine ⟨?_, by rw [hprev]; exact hok.1, ?_⟩
    · rw [htold]
      simp [h.told, bSpeakerChanged, ← hmatch]
    · rw [hprev, htext]
      split_ifs with hempty hsame
      · exact ⟨0, by simp [hempty]⟩
      · rw [hmatch.mp hsame]
        exact h.stored
      · exact h.strncpy_stored hok.1 hok.2
  · rw [SpeakerRun.NotShorter, if_neg htakes] at hok
    obtain ⟨hprev, htold, htext⟩ := next_passed he htakes
    rw [h.matches_previous, if_pos hok] at htext
    refine ⟨?_, ?_, ?_⟩
    · rw [htold]
      exact h.told
    · rw [hprev]
      exact h.noZero
    · rw [hprev, htext]
      exact h.stored

/-- Behind a shorter text the rest of the recorded speaker stays. -/
theorem SpeakerExact.tail_left (h : SpeakerExact s) {x : Bytes}
    (hlen : x.length < s.previous.length) : cString (strncpy s.info.gSpeaker x) ≠ x := by
  intro heq
  have hx : 0 ∉ x := heq ▸ zero_notMem_cString _
  obtain ⟨n, hn⟩ := h.stored
  have hrest : 0 ∉ s.previous.drop x.length := fun h0 => h.noZero (List.mem_of_mem_drop h0)
  rw [cString_strncpy, if_neg hx, hn, List.drop_append_of_le_length hlen.le,
    cString_append_zeros hrest, List.append_right_eq_self, List.drop_eq_nil_iff] at heq
  omega

/-- Any other invitation is told wrongly, or leaves another text than the speaker. -/
theorem SpeakerExact.breaks (h : SpeakerExact s) (he : speakerRuns.enabled s e)
    (hok : ¬s.NotShorter e) : ¬(s.next e).SpeakerTold := by
  rintro ⟨htrue, hstored⟩
  by_cases htakes : s.info.takesInvite e.2 = true
  · rw [SpeakerRun.NotShorter, if_pos htakes] at hok
    obtain ⟨hprev, htold, htext⟩ := next_taken he htakes
    rw [hprev] at hstored
    have hzero : 0 ∉ e.2.speaker := hstored ▸ zero_notMem_cString _
    have hlen : e.2.speaker.length < s.previous.length := by
      by_contra hge
      exact hok ⟨hzero, by omega⟩
    have hne : e.2.speaker ≠ s.previous := fun heq => by simp [heq] at hlen
    have hchanged : strncmpEq s.info.gSpeaker e.2.speaker = false := by
      simpa [htold, h.told, bSpeakerChanged, hne] using htrue
    have hempty : e.2.speaker ≠ [] := by
      intro hnil
      simp [hnil] at hchanged
    rw [htext, if_neg hempty, hchanged] at hstored
    exact h.tail_left hlen hstored
  · rw [SpeakerRun.NotShorter, if_neg htakes] at hok
    obtain ⟨hprev, -, htext⟩ := next_passed he htakes
    rw [h.matches_previous, if_neg hok] at htext
    have hsame : strncmpEq (strncpy s.info.gSpeaker e.2.speaker) e.2.speaker = true :=
      strncmpEq_strncpy
    apply hok
    rw [← hsame]
    apply strncmpEq_congr
    rw [cString_eq_self h.noZero, ← htext, hstored, hprev]

end speaker

/-- In every sequence of invitations each change of the speaker is told, and the speaker recorded,
exactly as long as no speaker of the session is shorter than the one before. -/
theorem speakers_told_iff {s : SpeakerRun} (hs : speakerRuns.init s)
    {es : List (Outside × MulticastInvite)} (hes : speakerRuns.Allowed (fun _ _ => True) s es) :
    speakerRuns.Allowed SpeakerRun.NotShorter s es ↔
      ∀ es', es' <+: es → (speakerRuns.run s es').SpeakerTold :=
  System.allowed_iff (fun _ h => h.speakerTold) (fun _ _ h he hok => h.next he hok)
    (fun _ _ h he hok => h.breaks he hok) (speakerExact_init hs) hes

/-- A speaker whose number the one before starts with. -/
def prefixSpeakers : List (Outside × MulticastInvite) :=
  [callOf (ascii "1002") (ascii "c"), callOf (ascii "100") (ascii "c")]

theorem shorter_speaker_not_told : ¬ ∀ s es, speakerRuns.init s →
    speakerRuns.Allowed (fun _ _ => True) s es →
    ∀ es', es' <+: es → (speakerRuns.run s es').SpeakerTold := by
  intro h
  have htold := h { info := listed } prefixSpeakers ⟨by decide, rfl, rfl⟩ (by decide) _
    (List.prefix_refl _)
  exact absurd htold (by decide)

theorem longer_speaker_told :
    speakerRuns.Allowed SpeakerRun.NotShorter { info := listed } prefixSpeakers.reverse ↔
      ∀ es', es' <+: prefixSpeakers.reverse →
        (speakerRuns.run { info := listed } es').SpeakerTold :=
  speakers_told_iff ⟨by decide, rfl, rfl⟩ (by decide)

end PttTerminal
