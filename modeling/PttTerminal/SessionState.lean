import PttTerminal.MulticastSession
import PttTerminal.SessionFrame

/-!
# The state of the session

The state, the group, the identifier of the call, the speaker and the media of a session are
variables of their own, each written where a signal is handled. Whether they agree is a question
about every run.
-/
namespace PttTerminal

open Loops LinkedCells Runs

/-- Nothing is left of a session. -/
structure Released (info : PttInfo) : Prop where
  stream : info.stream = false
  sndPort : info.sndPort = false
  sndPool : info.sndPool = false
  gCurrentGroup : info.gCurrentGroup = none
  gSpeaker : cString info.gSpeaker = []
  currentCallId : cString info.currentCallId = []

/-- What a session keeps: a reader of groups leaves it, a session that is over has it, and it is
kept when the media are opened and closed. -/
structure SessionRule (P : PttInfo → Prop) : Prop where
  kept : ∀ {info info'}, P info → SessionKept info info' → P info'
  released : ∀ {info}, info.pttState = .uninit → Released info → P info
  openMedia : ∀ {o info info'}, P info → pttOpenMedia o info = .ok info' → P info'
  closeMedia : ∀ {info}, P info → P (pttCloseMedia info)

section rule

variable {info info' : PttInfo} {P : PttInfo → Prop}

theorem closeSession_released (info : PttInfo) :
    (closeSession info).pttState = .uninit ∧ Released (closeSession info) := by
  obtain ⟨hstream, hport, hpool⟩ := pttCloseMedia_media info
  exact ⟨rfl, hstream, hport, hpool, rfl, rfl, rfl⟩

theorem endSession_released {number : Bytes} (h : endSession info number = .ok info') :
    info' = info ∨ info'.pttState = .uninit ∧ Released info' := by
  obtain ⟨rfl, -⟩ | ⟨-, rfl⟩ := endSession_frame h
  · exact .inl rfl
  · exact .inr (closeSession_released info)

/-- All but the invitations and the older message keep what sessions keep. -/
theorem SessionRule.step (hrule : SessionRule P) {e : NativeEvent} (hP : P info)
    (hs : e.step info = .ok info')
    (hinvite : ∀ o inv, e = .invite o inv → multicastInvite o inv info = .ok info' → P info')
    (hmessage : ∀ content, e = .message content → pttMessageContentParse info content = .ok info' →
      P info') : P info' := by
  have hclose : ∀ info, P (closeSession info) := fun info =>
    hrule.released (closeSession_released info).1 (closeSession_released info).2
  have hreport : ∀ info e, P info → P (info.report e) := fun info e hP =>
    hrule.kept hP (sessionKept_of_session rfl)
  cases e with
  | groupInfo content => exact hrule.kept hP (loadGroupInfo_kept hs)
  | regroup content =>
    refine cleanup_session (fun _ _ => hrule.kept) (fun _ _ _ hP hend => ?_) hs (hreport _ _ hP)
    obtain rfl | ⟨hstate, hreleased⟩ := endSession_released hend
    · exact hP
    · exact hrule.released hstate hreleased
  | memberInfo content => exact hrule.kept hP (memberInfo_kept hs)
  | message content => exact hmessage content rfl hs
  | invite o inv => exact hinvite o inv rfl hs
  | bye callId =>
    cases hs
    unfold multicastBye
    split
    · exact hclose _
    · exact hP
  | heartbeat header =>
    obtain rfl | rfl := heartbeat_cases hs
    · exact hP
    · exact hclose _
  | openMedia o => exact hrule.openMedia hP hs
  | closeMedia =>
    cases hs
    exact hrule.closeMedia hP
  | checkPttError pttErrNo =>
    cases hs
    unfold checkPttError
    dsimp only
    split_ifs
    · exact hreport _ _ (hclose _)
    · exact hreport _ _ hP
    · exact hP
  | destroy =>
    obtain ⟨info₁, hdestroy, h⟩ := bind_eq_ok.mp hs
    cases h
    exact hrule.kept hP ((groupInfoDestroy_kept hdestroy).trans
      ((bzero_kept info₁).trans ⟨rfl, rfl, rfl, rfl, id, id, id⟩))
  | init =>
    cases hs
    exact hrule.kept hP (groupInfoInit_kept info)

end rule

/-! ### A session has a group -/

/-- The search of an invitation finds the number. -/
def PttInfo.lists (info : PttInfo) (number : Bytes) : Bool :=
  match info.generalGroup with
  | none => false
  | some head =>
    match search info head number head with
    | .ok (bfind, _) => bfind
    | .error _ => false

def HasGroup (info : PttInfo) : Prop := info.pttState ≠ .uninit → info.gCurrentGroup ≠ none

instance (info : PttInfo) : Decidable (HasGroup info) :=
  inferInstanceAs (Decidable (info.pttState ≠ .uninit → info.gCurrentGroup ≠ none))

/-- No invitation without a speaker is for a group of the list while there is no session. -/
def ChoosesGroup (info : PttInfo) : NativeEvent → Prop
  | .invite _ inv =>
    inv.speaker = [] → info.lists inv.groupNum = true → info.gCurrentGroup ≠ none
  | _ => True

instance (info : PttInfo) (e : NativeEvent) : Decidable (ChoosesGroup info e) := by
  cases e <;> unfold ChoosesGroup <;> infer_instance

section hasGroup

variable {info info' : PttInfo}

theorem hasGroup_rule : SessionRule HasGroup where
  kept hP hk := by
    unfold HasGroup
    rw [hk.pttState, hk.gCurrentGroup]
    exact hP
  released hstate _ hne := absurd hstate hne
  openMedia {o info info'} hP hopen hne := by
    obtain ⟨-, hgroup, hsame, -⟩ := pttOpenMedia_ok hopen
    rw [hgroup]
    refine hP fun hstate => hne ?_
    rw [hsame hstate, hstate]
  closeMedia {info} hP := by
    unfold HasGroup pttCloseMedia
    dsimp only
    split_ifs with hstate
    · exact fun _ => hP hstate
    · exact fun hne => absurd hne hstate

theorem lists_of_none {number : Bytes} (h : info.generalGroup = none) :
    info.lists number = false := by
  simp [PttInfo.lists, h]

theorem lists_of_search {number : Bytes} {head node : ℕ} {bfind : Bool}
    (h : info.generalGroup = some head) (hs : search info head number head = .ok (bfind, node)) :
    info.lists number = bfind := by
  simp [PttInfo.lists, h, hs]

/-- An invitation for a group of the list, without a speaker and without a session, is the one that
leaves a session without a group. -/
theorem hasGroup_invite {o : Outside} {inv : MulticastInvite} (hP : HasGroup info)
    (h : multicastInvite o inv info = .ok info') :
    HasGroup info' ↔ ChoosesGroup info (.invite o inv) := by
  obtain ⟨t, ht⟩ := recordSpeaker_eq inv.speaker info
  obtain ⟨rfl, hlist⟩ | ⟨head, node, hgen, hsearch, hans⟩ := invite_cases h
  · rw [ht]
    refine iff_of_true hP fun _ hlisted => ?_
    obtain hnone | ⟨head, bfind, node, hgen, hsearch, rfl | hcur⟩ := hlist
    · simp [lists_of_none hnone] at hlisted
    · simp [lists_of_search hgen hsearch] at hlisted
    · exact hcur
  · have hlisted : info.lists inv.groupNum = true := lists_of_search hgen hsearch
    cases hans with
    | silent e hspeaker h =>
      rw [h, recordCall, ht]
      simp [HasGroup, ChoosesGroup, pttEnterState, PttInfo.report, hspeaker, hlisted]
    | own hspeaker _ h =>
      rw [h, recordCall, ht]
      exact iff_of_true hP fun hempty => absurd hempty hspeaker
    | group _ hspeaker _ h =>
      obtain ⟨-, hgroup, -⟩ := invited_ok h
      exact iff_of_true (fun _ => by simp [hgroup]) fun hempty => absurd hempty hspeaker

theorem hasGroup_message {content : Bytes} (hP : HasGroup info)
    (h : pttMessageContentParse info content = .ok info') : HasGroup info' := by
  obtain ⟨info₁, hdel, hkept⟩ := message_kept h
  refine hasGroup_rule.kept (messageDeleteGroups_session (P := HasGroup)
    (fun _ _ hP hs => hasGroup_rule.kept hP hs.kept)
      (fun info _ _ _ hP _ _ hend => ?_) hdel hP) hkept
  obtain rfl | ⟨-, -, rfl⟩ := messageEndSession_frame hend
  · exact hP
  · exact fun hne => absurd rfl hne

/-- In every run without such an invitation, a session has a group. -/
theorem runs_hasGroup (h : (native fun _ => true).Reached ChoosesGroup info) : HasGroup info := by
  refine native_invariant (fun udpCreate hne => absurd rfl hne) ?_ h
  intro info info' e hP _ hok hs
  refine hasGroup_rule.step hP hs (fun o inv he hinvite => ?_) fun content _ => hasGroup_message hP
  exact (hasGroup_invite hP hinvite).mpr (he ▸ hok)

end hasGroup

/-- Somebody speaks in the group, and then nobody. -/
def conversationRun : List NativeEvent :=
  [.groupInfo listOfOne, .invite { callCount := 1 } ⟨ascii "1", ascii "7", ascii "c"⟩,
    .invite {} ⟨ascii "1", [], ascii "c"⟩]

theorem conversation_has_group :
    HasGroup ((native fun _ => true).run (.initial fun _ _ => true) conversationRun) :=
  runs_hasGroup (System.reached_run (native_init _) (by decide))

/-- The first signal says that nobody speaks. -/
def silentStartRun : List NativeEvent :=
  [.groupInfo listOfOne, .invite {} ⟨ascii "1", [], ascii "c"⟩]

theorem silent_start_has_no_group :
    ¬ ∀ info, (native fun _ => true).Reached (fun _ _ => True) info → HasGroup info := by
  intro h
  have hrun : (native fun _ => true).Reached (fun _ _ => True)
    ((native fun _ => true).run (.initial fun _ _ => true) silentStartRun) :=
    System.reached_run (native_init _) (by decide)
  exact absurd (h _ hrun) (by decide)

/-! ### Nothing is left of a session that is over -/

def ReleasedWhenIdle (info : PttInfo) : Prop := info.pttState = .uninit → Released info

/-- Outside of a session an invitation for an unknown group names no speaker, and one from the
terminal itself has no text; an older message mentions the group of the session, unless nothing is
recorded. -/
def LeavesNothing (info : PttInfo) : NativeEvent → Prop
  | .invite o inv => info.pttState ≠ .uninit ∨
    if info.lists inv.groupNum = true then
      inv.speaker = [] ∨ checkSpeaker o inv.speaker = false ∨
        cString inv.speaker = [] ∧ cString inv.callId = []
    else cString inv.speaker = []
  | .message content => info.pttState = .uninit ∨
    cString info.gSpeaker = [] ∧ cString info.currentCallId = [] ∨
    (info.gCurrentGroup.bind info.heap.vl).all (messageMentions content) = true
  | _ => True

instance (info : PttInfo) (e : NativeEvent) : Decidable (LeavesNothing info e) := by
  cases e <;> unfold LeavesNothing <;> infer_instance

section released

variable {info info' : PttInfo}

theorem Released.kept (h : Released info) (hk : SessionKept info info') : Released info' where
  stream := by simpa [h.stream] using hk.stream
  sndPort := by simpa [h.sndPort] using hk.sndPort
  sndPool := by simpa [h.sndPool] using hk.sndPool
  gCurrentGroup := hk.gCurrentGroup.trans h.gCurrentGroup
  gSpeaker := by rw [hk.gSpeaker, h.gSpeaker]
  currentCallId := by rw [hk.currentCallId, h.currentCallId]

theorem released_rule : SessionRule ReleasedWhenIdle where
  kept hP hk hstate := (hP (hk.pttState ▸ hstate)).kept hk
  released _ hreleased _ := hreleased
  openMedia {o info info'} hP hopen hstate := by
    obtain ⟨-, -, hsame, hne⟩ := pttOpenMedia_ok hopen
    by_cases h : info.pttState = .uninit
    · rw [hsame h]
      exact hP h
    · exact absurd hstate (hne h)
  closeMedia {info} hP hstate := by
    by_cases h : info.pttState = .uninit
    · have hclosed : pttCloseMedia info = multicastCallEnding info := by
        simp [pttCloseMedia, multicastCallEnding, h]
      rw [hclosed]
      exact (hP h).kept ⟨rfl, rfl, rfl, rfl, by simp [multicastCallEnding],
        by simp [multicastCallEnding], by simp [multicastCallEnding]⟩
    · simp [pttCloseMedia, multicastCallEnding, pttEnterState, h] at hstate

theorem recordSpeaker_empty {speaker : Bytes} (h : cString info.gSpeaker = []) :
    cString (recordSpeaker speaker info).gSpeaker = [] ↔ cString speaker = [] := by
  unfold recordSpeaker
  split_ifs with heq
  · simp only [strncmpEq, h, List.take_nil, decide_eq_true_eq] at heq
    simp [h, heq.symm]
  · exact cString_strncpy_eq_nil h

/-- An invitation ends no session. -/
theorem invite_goes_on {o : Outside} {inv : MulticastInvite} (hstate : info.pttState ≠ .uninit)
    (h : multicastInvite o inv info = .ok info') : info'.pttState ≠ .uninit := by
  obtain ⟨t, ht⟩ := recordSpeaker_eq inv.speaker info
  obtain ⟨rfl, -⟩ | ⟨head, node, -, -, hans⟩ := invite_cases h
  · rwa [ht]
  · cases hans with
    | silent e _ h => simp [h, pttEnterState]
    | own _ _ h => rwa [h, recordCall, ht]
    | group _ _ _ h => exact (invited_ok h).2.2

/-- What an invitation records outside of a session, unless it opens one. -/
theorem released_invite {o : Outside} {inv : MulticastInvite} (hP : ReleasedWhenIdle info)
    (h : multicastInvite o inv info = .ok info') :
    ReleasedWhenIdle info' ↔ LeavesNothing info (.invite o inv) := by
  obtain ⟨t, ht⟩ := recordSpeaker_eq inv.speaker info
  have hspeaker : Released info → (cString t = [] ↔ cString inv.speaker = []) := fun hr => by
    have hrecord : cString (recordSpeaker inv.speaker info).gSpeaker = [] ↔
      cString inv.speaker = [] := recordSpeaker_empty hr.gSpeaker
    rwa [ht] at hrecord
  by_cases hstate : info.pttState = .uninit
  case neg =>
    exact iff_of_true (fun hidle => absurd hidle (invite_goes_on hstate h)) (.inl hstate)
  have hr := hP hstate
  obtain ⟨rfl, hlist⟩ | ⟨head, node, hgen, hsearch, hans⟩ := invite_cases h
  · have hlisted : info.lists inv.groupNum = false := by
      obtain hnone | ⟨head, bfind, node, hgen, hsearch, rfl | hcur⟩ := hlist
      · exact lists_of_none hnone
      · exact lists_of_search hgen hsearch
      · exact absurd hr.gCurrentGroup hcur
    simp only [LeavesNothing, hstate, hlisted, ne_eq, not_true_eq_false, false_or,
      Bool.false_eq_true, if_false]
    rw [← hspeaker hr, ht]
    exact ⟨fun hP' => (hP' hstate).gSpeaker, fun hempty _ =>
      ⟨hr.stream, hr.sndPort, hr.sndPool, hr.gCurrentGroup, hempty, hr.currentCallId⟩⟩
  · have hlisted : info.lists inv.groupNum = true := lists_of_search hgen hsearch
    simp only [LeavesNothing, hstate, hlisted, ne_eq, not_true_eq_false, false_or, if_true]
    cases hans with
    | silent e hempty h =>
      rw [h]
      exact iff_of_true (fun hidle => by simp [pttEnterState] at hidle) (.inl hempty)
    | own hne hown h =>
      rw [h, recordCall, ht]
      simp only [hne, hown, Bool.true_eq_false, false_or]
      have hcall : cString (strncpy info.currentCallId inv.callId) = [] ↔ cString inv.callId = [] :=
        cString_strncpy_eq_nil hr.currentCallId
      rw [← hspeaker hr, ← hcall]
      exact ⟨fun hP' => ⟨(hP' hstate).gSpeaker, (hP' hstate).currentCallId⟩, fun hempty _ =>
        ⟨hr.stream, hr.sndPort, hr.sndPool, hr.gCurrentGroup, hempty.1, hempty.2⟩⟩
    | group _ _ hown h =>
      obtain ⟨-, -, hne⟩ := invited_ok h
      exact iff_of_true (fun hidle => absurd hidle hne) (.inr (.inl hown))

theorem messageMentions_congr {content : Bytes} {g g' : GroupInfo} (h : g.number = g'.number) :
    messageMentions content g = messageMentions content g' := by
  rw [messageMentions, messageMentions, h]

/-- The older message forgets to clear the texts of a session that it ends. -/
theorem released_message {content : Bytes} (hP : ReleasedWhenIdle info)
    (hok : LeavesNothing info (.message content))
    (h : pttMessageContentParse info content = .ok info') : ReleasedWhenIdle info' := by
  obtain ⟨info₁, hdel, hkept⟩ := message_kept h
  refine released_rule.kept (messageDeleteGroups_session (P := fun info => ReleasedWhenIdle info ∧
    LeavesNothing info (.message content)) ?_ ?_ hdel ⟨hP, hok⟩).1 hkept
  · rintro info info' ⟨hP, hok⟩ hs
    refine ⟨released_rule.kept hP hs.kept, ?_⟩
    unfold LeavesNothing at hok ⊢
    rw [hs.kept.pttState, hs.kept.gSpeaker, hs.kept.currentCallId, hs.kept.gCurrentGroup]
    refine hok.imp_right (Or.imp_right fun hall => ?_)
    cases hcur : info.gCurrentGroup.bind info'.heap.vl with
    | none => rfl
    | some g' =>
      obtain ⟨i, hi, hg'⟩ := Option.bind_eq_some_iff.mp hcur
      obtain ⟨g, hg, hnum⟩ := hs.numbers i g' hg'
      rw [hi, Option.bind_some, hg, Option.all_some, messageMentions_congr hnum] at hall
      exact hall
  · rintro info info' node g ⟨hP, hok⟩ hvl hmention hend
    obtain rfl | ⟨hstate, ⟨i, g', hi, hg', hnum⟩, rfl⟩ := messageEndSession_frame hend
    · exact ⟨hP, hok⟩
    · obtain ⟨hstream, hport, hpool⟩ := pttCloseMedia_media info
      refine ⟨fun _ => ?_, .inl rfl⟩
      obtain hidle | ⟨hspeaker, hcall⟩ | hall := hok
      · exact absurd hidle hstate
      · refine ⟨hstream, hport, hpool, rfl, ?_, ?_⟩ <;>
          simpa only [pttEnterState, pttCloseMedia_texts info]
      · rw [hi, Option.bind_some, hg', Option.all_some, messageMentions_congr hnum] at hall
        exact absurd hall (by simp [hmention])

/-- In every run that meets the condition, nothing is left of a session that is over. -/
theorem runs_releasedWhenIdle (h : (native fun _ => true).Reached LeavesNothing info) :
    ReleasedWhenIdle info := by
  refine native_invariant (fun udpCreate _ => ⟨rfl, rfl, rfl, rfl, rfl, rfl⟩) ?_ h
  intro info info' e hP _ hok hs
  refine released_rule.step hP hs (fun o inv he hinvite => ?_) fun content he hmessage => ?_
  · exact (released_invite hP hinvite).mpr (he ▸ hok)
  · exact released_message hP (he ▸ hok) hmessage

end released

/-- Somebody speaks in the group until the call ends. -/
def callRun : List NativeEvent :=
  [.groupInfo listOfOne, .invite { callCount := 1 } ⟨ascii "1", ascii "7", ascii "c"⟩,
    .bye (ascii "c")]

theorem call_releases :
    ReleasedWhenIdle ((native fun _ => true).run (.initial fun _ _ => true) callRun) :=
  runs_releasedWhenIdle (System.reached_run (native_init _) (by decide))

/-- Somebody speaks in a group that is not in the list. -/
def otherGroupRun : List NativeEvent :=
  [.groupInfo listOfOne, .invite {} ⟨ascii "2", ascii "7", ascii "c"⟩]

theorem other_speaker_stays :
    ¬ ∀ info, (native fun _ => true).Reached (fun _ _ => True) info → ReleasedWhenIdle info := by
  intro h
  have hrun : (native fun _ => true).Reached (fun _ _ => True)
    ((native fun _ => true).run (.initial fun _ _ => true) otherGroupRun) :=
    System.reached_run (native_init _) (by decide)
  exact absurd (h _ hrun (by decide)).gSpeaker (by decide)

end PttTerminal
