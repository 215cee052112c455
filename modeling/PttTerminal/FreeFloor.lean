import PttTerminal.FloorUpdate

/-!
# A free floor names no speaker

The key and the commands tell a free floor from one that is listened to by the stored speaker, so
that a status that is free needs a speaker that is blank. Each place that frees the floor forgets the
speaker or looks at it first, but for one: the groups that an application waited for free the floor
and leave the speaker as it is.
-/
namespace PttTerminal

open Runs

namespace Terminal

/-- A free floor has a speaker that is null or blank. -/
def FreeSilent (t : Terminal) : Prop :=
  t.pttGroupStatus.status = .free → isStrBlank t.pttGroupStatus.speakerNum = true

instance (t : Terminal) : Decidable t.FreeSilent :=
  inferInstanceAs (Decidable (t.pttGroupStatus.status = .free →
    isStrBlank t.pttGroupStatus.speakerNum = true))

/-- The law, and what is stored as a speaker: nothing, a number that is not blank, or the user's. -/
def Silent (t : Terminal) : Prop :=
  t.FreeSilent ∧ (isEmptyStr t.pttGroupStatus.speakerNum = true ∨
    isStrBlank t.pttGroupStatus.speakerNum = false ∨ t.isUser t.pttGroupStatus.speakerNum = true)

section
variable {native : ℤ} {t t' : Terminal} {s : PttStatus}

/-! ### Writes -/

theorem silent_free (t : Terminal) : t.free.Silent := ⟨fun _ => rfl, .inl rfl⟩

theorem silent_clear (t : Terminal) : t.clear.Silent := ⟨fun h => by simp at h, .inl rfl⟩

theorem Silent.setStatus (h : t.Silent) (hs : s ≠ .free) : (t.setStatus s).Silent :=
  ⟨fun hf => absurd hf hs, h.2⟩

/-- The status that the stored speaker suggests. -/
theorem Silent.bySpeaker (h : t.Silent) :
    (t.setStatus (if isStrBlank t.pttGroupStatus.speakerNum then .free else .listening)).Silent := by
  split
  next hb => exact ⟨fun _ => hb, h.2⟩
  next => exact h.setStatus (by simp)

/-- Somebody speaks, or the user does. -/
theorem silent_speaker {n : Option Bytes} (hs : t.pttGroupStatus.status ≠ .free)
    (hn : isStrBlank n = false ∨ t.isUser n = true) : (t.setSpeakerNum n).Silent :=
  ⟨fun hf => absurd hf hs, .inr hn⟩

/-! ### Requests and updates -/

theorem Silent.checkResult (h : t.Silent) (result : ℤ) : (t.checkResult result).Silent := by
  have hf : ((t.setSpeakerNum none).setStatus .free).Silent := silent_free t
  unfold Terminal.checkResult
  split
  · dsimp only
    split
    · exact hf
    · exact hf
  · exact h

theorem Silent.hangupPttCall (h : t.Silent) : t.hangupPttCall.Silent := by
  unfold Terminal.hangupPttCall
  split
  · exact h
  · exact h

theorem Silent.cancelPttRight (h : t.Silent) (native : ℤ) : (t.cancelPttRight native).Silent := by
  unfold Terminal.cancelPttRight
  split
  · exact h
  next groupInfo _ =>
    have hn : (t.note (.requestCancelPttRight groupInfo.number)).Silent := h
    exact hn.checkResult native

theorem Silent.settled (h : t.Silent) (hs : Settled native t t') : t'.Silent := by
  cases hs with
  | kept => exact h
  | speaks => exact h.setStatus (by simp)
  | starts => exact (h.setStatus (by simp)).setStatus (by simp)
  | silenced => exact silent_free _
  | hungUp => exact h.hangupPttCall
  | cancelled => exact h.cancelPttRight native
  | forgotten => exact silent_free t

theorem Silent.updateOwn (h : t.Silent) (native : ℤ) : (t.updateOwnPttState native).Silent := by
  obtain ⟨t₁, h₁ | h₁, hs⟩ := updateOwn_settled native t
  · rw [h₁] at hs
    exact h.settled hs
  · have ht : t₁.Silent := h₁ ▸ h
    exact ht.settled hs

/-! ### Indications -/

theorem Silent.indicateInCall (h : t.Silent) (groupNum : Bytes) (speaker : Option Bytes) :
    (t.indicateInCall groupNum speaker).Silent := by
  unfold Terminal.indicateInCall
  split
  · exact h
  next hi =>
    have hb : isStrBlank speaker = false := by
      simp only [Bool.or_eq_true, not_or, Bool.not_eq_true] at hi
      exact hi.2
    have hl : ((t.setStatus .listening).setSpeakerNum speaker).Silent :=
      silent_speaker (by simp) (.inl hb)
    exact hl

/-- The end of an indication stores the group, since the status is not idle by then. -/
theorem Silent.endIndication (h : t.Silent) (hs : t.pttGroupStatus.status ≠ .idle)
    (groupNum : Bytes) (speaker : Option Bytes) :
    ((t.updateOwnPttState native).endIndication groupNum speaker).Silent := by
  rw [endIndication_of_ne_idle (updateOwn_ne_idle hs)]
  exact h.updateOwn native

theorem Silent.indicateFree (h : t.Silent) (native : ℤ) (groupNum : Bytes) (speaker : Option Bytes) :
    (t.indicateFree native groupNum speaker).Silent := by
  unfold Terminal.indicateFree
  split
  · exact h
  · exact h
  · exact ⟨fun hf => by simp at hf, .inl rfl⟩
  · exact (silent_free _).endIndication (by simp) groupNum speaker

theorem silent_indicateSpeaker (t : Terminal) (native : ℤ) (groupNum : Bytes)
    {speaker : Option Bytes} (hb : isStrBlank speaker = false) :
    (t.indicateSpeaker native groupNum speaker).Silent := by
  have hsp : ((t.setStatus .listening).setSpeakerNum speaker).Silent :=
    silent_speaker (by simp) (.inl hb)
  unfold Terminal.indicateSpeaker
  dsimp only
  split
  · exact (hsp.setStatus (by simp)).endIndication (by simp) groupNum speaker
  · split
    next hk =>
      have hs : t.pttGroupStatus.status ≠ .free := by
        intro hf
        simp [keepsRequest, hf] at hk
      exact (hsp.setStatus hs).updateOwn native
    next => exact (hsp.setStatus (by simp)).endIndication (by simp) groupNum speaker

theorem Silent.mInviteIndicate (h : t.Silent) (native : ℤ) (groupNum speaker : Option Bytes) :
    (t.mInviteIndicate native groupNum speaker).Silent := by
  cases groupNum with
  | none => exact silent_clear _
  | some groupNum =>
    have hn : (t.note (.mInviteIndicate (some groupNum) speaker)).Silent := h
    obtain ⟨-, hi⟩ | ⟨-, u, hu, hi⟩ := mInviteIndicate_cases native groupNum speaker t
    · rw [hi]
      exact hn.indicateInCall groupNum speaker
    · have hs : u.Silent := by
        obtain ⟨-, rfl⟩ | ⟨-, rfl⟩ := hu
        · exact hn
        · exact hn
      obtain ⟨-, hi⟩ | ⟨hb, hi⟩ := hi
      · rw [hi]
        exact hs.indicateFree native groupNum speaker
      · rw [hi]
        exact silent_indicateSpeaker u native groupNum hb

/-! ### Commands -/

theorem Silent.requestApplyPttRight (h : t.Silent) (native : ℤ) (groupNumber : Bytes) :
    (t.requestApplyPttRight native groupNumber).Silent := by
  unfold Terminal.requestApplyPttRight
  split
  · exact h
  · have hb : (if isStrBlank groupNumber then t.setBPttErrorShowing true else t).Silent := by
      split
      · exact h
      · exact h
    refine Silent.checkResult ?_ native
    exact hb

theorem Silent.handleApply (h : t.Silent) (native : ℤ) : (t.handleApply native).Silent := by
  obtain ⟨b, hb⟩ := isbPttErrorShowing_eq t
  have ht : (t.setBPttErrorShowing b).Silent := h
  unfold Terminal.handleApply
  dsimp only
  rw [hb]
  split
  · exact ht
  · split
    · exact ht.setStatus (by simp)
    · have happlying := ht.setStatus (s := .applying) (by simp)
      unfold Terminal.applyPttRight
      split
      · exact happlying
      next grpNum _ =>
        have hgroup : (((t.setBPttErrorShowing b).setStatus .applying).setGroupNum
          (some grpNum)).Silent := happlying
        exact hgroup.requestApplyPttRight native grpNum

theorem Silent.handleMakeCall (h : t.Silent) (native : ℤ) (number : Option Bytes) :
    (t.handleMakeCall native number).Silent := by
  obtain ⟨c, b, hc | hc⟩ := handleMakeCall_eq native number t
  · rw [hc]
    exact h
  · have hb : ({ t with currentCallState := c, bForceInSC := b } : Terminal).Silent := h
    rw [hc]
    exact hb.checkResult native

theorem Silent.handleSingleCall (h : t.Silent) (native : ℤ) (e : ℤ → Entry) :
    (t.handleSingleCall native e).Silent := by
  obtain hs | ⟨c, b, hs⟩ := handleSingleCall_eq native e t
  · rw [hs]
    exact h
  · rw [hs]
    exact h

theorem Silent.isbPttErrorShowing (h : t.Silent) : t.isbPttErrorShowing.2.Silent := by
  obtain ⟨b, hb⟩ := isbPttErrorShowing_eq t
  rw [hb]
  exact h

theorem Silent.handleCommand (h : t.Silent) (native : ℤ) (c : Command) :
    (t.handleCommand native c).Silent := by
  unfold Terminal.handleCommand
  split
  · exact h
  · cases c with
    | hangupPttCall =>
      have hf : (t.free.setCallState .ending).Silent := silent_free t
      show Terminal.Silent t.handleHangup
      rw [handleHangup_eq]
      exact hf.hangupPttCall
    | applyPttRight => exact h.handleApply native
    | cancelPttRight => exact h.bySpeaker.cancelPttRight native
    | openPttUi =>
      dsimp only
      split
      · exact h
      · exact h.isbPttErrorShowing
    | startApp => exact h
    | updatePttUi => exact h.isbPttErrorShowing
    | closePtt => exact silent_clear _
    | makeCall number => exact h.handleMakeCall native number
    | sendDtmf => exact h
    | answerCall => exact h.handleSingleCall native _
    | hangupCall => exact h.handleSingleCall native _

theorem Silent.deliver (h : t.Silent) (native : ℤ) : (t.deliver native).Silent := by
  unfold Terminal.deliver
  split
  · exact h
  next c cs _ =>
    have hc : ({ t with commands := cs } : Terminal).Silent := h
    exact hc.handleCommand native c

/-! ### Responses -/

theorem Silent.receivePttRightResponse (h : t.Silent)
    (ho : Event.ofNative (.receivePttRightResponse native s)) :
    (t.receivePttRightResponse native s).Silent := by
  have hn : (t.note (.response s)).Silent := h
  obtain ⟨-, he⟩ | ⟨-, ⟨-, he⟩ | ⟨hs, he⟩ | ⟨-, he⟩⟩ := receivePttRightResponse_cases t ho
  · rw [he]
    exact hn
  · rw [he]
    exact (hn.setStatus (by simp)).updateOwn native
  · rw [he]
    refine Silent.updateOwn ?_ native
    split
    · exact hn.bySpeaker
    · refine hn.setStatus ?_
      obtain rfl | rfl := hs <;> simp
  · rw [he]
    have hclear : (t.note (.response s)).clear.Silent := silent_clear _
    split
    · exact hclear
    · exact hclear

theorem Silent.updatePttState (h : t.Silent) {obj : PttGroupStatus}
    (ho : Event.ofNative (.updatePttState native obj)) : (t.updatePttState native obj).Silent := by
  have hn : (t.note (.response obj.status)).Silent := h
  obtain he | ⟨-, hnone, he⟩ | ⟨hw, -, he⟩ := updatePttState_cases t ho
  · rw [he]
    exact hn
  · rw [he]
    have hblank : isStrBlank obj.speakerNum = true ∧ isEmptyStr obj.speakerNum = true := by
      rw [hnone]
      exact ⟨rfl, rfl⟩
    exact ⟨fun _ => hblank.1, .inl hblank.2⟩
  · have hs : obj.status ≠ .free := by obtain hw | hw := hw <;> simp [hw]
    have hstored : ((t.note (.response obj.status)).setCurrentPttState { obj with
        groupNum := t.pttGroupStatus.groupNum
        speakerNum := t.pttGroupStatus.speakerNum }).Silent := ⟨fun hf => absurd hf hs, h.2⟩
    exact hstored.settled he

/-! ### Calls -/

theorem Silent.jniUpdateCallState (h : t.Silent) (cs : CallState) :
    (t.jniUpdateCallState cs).Silent := by
  obtain ⟨c, hc⟩ := jniUpdateCallState_eq cs t
  rw [hc]
  exact h

theorem Silent.otherCall (h : t.Silent) (iPttStatus : PttStatus) (cs : CallState) :
    (t.otherCall iPttStatus cs).Silent := by
  obtain ho | ho | ⟨-, -, -, -, ho⟩ := otherCall_cases iPttStatus cs t
  · rw [ho]
    exact h
  · rw [ho]
    exact h.jniUpdateCallState cs
  · rw [ho]
    exact h

theorem Silent.requestHangup (h : t.Silent) (callId : ℤ) : (t.requestHangup callId).Silent := by
  unfold Terminal.requestHangup
  split
  · exact h
  · exact h

theorem Silent.showCallError (h : t.Silent) (cs : CallState) : (t.showCallError cs).Silent := by
  have hset : ∀ u : Terminal, u.Silent →
      (if cs.errorCode = 504 then u.requestHangup cs.callId else u).Silent := fun u hu => by
    split
    · exact hu.requestHangup cs.callId
    · exact hu
  have hf : t.free.Silent := silent_free t
  obtain ⟨u, hu, ⟨-, rfl | rfl⟩ | ⟨-, rfl | ⟨b, rfl⟩⟩⟩ := showCallError_cases cs t
  · rw [hu]
    exact hset _ h
  · rw [hu]
    exact hset _ (h.jniUpdateCallState cs)
  · rw [hu]
    exact hset _ h
  · rw [hu]
    exact hset _ hf

/-- The user is stored as the speaker of a floor that is not free: without a speaker it is the user
who speaks. -/
theorem Silent.answerSpeaker (h : t.Silent) : t.answerSpeaker.Silent := by
  cases hk : t.ePttKeyStatus with
  | up =>
    rw [answerSpeaker_keyUp hk]
    split
    · exact h.setStatus (by simp)
    · exact h
  | down =>
    rw [answerSpeaker_keyDown hk]
    split
    · exact silent_speaker (by simp) (.inr (by simp [isUser]))
    next hu =>
      have hu' : t.isUser t.pttGroupStatus.speakerNum = false ∧
          isEmptyStr t.pttGroupStatus.speakerNum = false := by simpa using hu
      have hnamed : isStrBlank t.pttGroupStatus.speakerNum = false := by
        obtain he | hb | hn := h.2
        · simp [hu'.2] at he
        · exact hb
        · exact absurd (hn.symm.trans hu'.1) (by simp)
      refine silent_speaker (fun hf => ?_) (.inr (by simp [isUser]))
      simp [h.1 hf] at hnamed

theorem Silent.groupAnswered (h : t.Silent) (native : ℤ) (cs : CallState) :
    (t.groupAnswered native cs).Silent := by
  obtain ⟨n, hn⟩ := answerGroup_eq t
  have hg : (t.setGroupNum n).Silent := h
  have hs : ((t.setGroupNum n).answerSpeaker.setCallId cs.callId).Silent := hg.answerSpeaker
  unfold Terminal.groupAnswered
  rw [hn]
  exact hs.updateOwn native

theorem Silent.groupTalking (h : t.Silent) (native : ℤ) (iPttStatus : PttStatus) (cs : CallState) :
    (t.groupTalking native iPttStatus cs).Silent := by
  unfold Terminal.groupTalking
  split
  · exact h
  · split
    · exact h.groupAnswered native cs
    · exact h.hangupPttCall

theorem Silent.groupRinging (h : t.Silent) (iPttStatus : PttStatus) (cs : CallState) :
    (t.groupRinging iPttStatus cs).2.Silent := by
  have ha : ((t.setCallId cs.callId).note (.requestAnswer cs.callId)).Silent := h
  have hr : (if t.ePttKeyStatus ≠ .down then t.requestHangup cs.callId else t).Silent := by
    split
    · exact h.requestHangup cs.callId
    · exact h
  cases iPttStatus <;> first | exact ha | exact hr

theorem Silent.groupEnded (h : t.Silent) (native : ℤ) (iPttStatus : PttStatus) :
    (t.groupEnded native iPttStatus).2.Silent := by
  have hf : ((t.setSpeakerNum none).setStatus .free).Silent := silent_free t
  obtain he | he | ⟨-, he | he⟩ := groupEnded_cases native iPttStatus t
  · rw [he]
    exact h
  · rw [he]
    exact hf.updateOwn native
  · rw [he]
    exact ((h.cancelPttRight native).setStatus (by simp)).updateOwn native
  · rw [he]
    exact h.bySpeaker.updateOwn native

theorem Silent.groupCall (h : t.Silent) (native : ℤ) (iPttStatus : PttStatus) (cs : CallState) :
    (t.groupCall native iPttStatus cs).2.Silent := by
  obtain ⟨i, hi⟩ := storeCall_eq cs t
  have hs : ((t.setCallId i).setCallState cs.callState).Silent := h
  unfold Terminal.groupCall
  rw [hi]
  dsimp only
  split
  · exact hs.groupRinging iPttStatus cs
  · exact hs.groupTalking native iPttStatus cs
  · exact hs.groupEnded native iPttStatus
  · exact hs

theorem Silent.showCallState (h : t.Silent) (native : ℤ) (cs : CallState) :
    (t.showCallState native cs).Silent := by
  have hn : (t.note (.callState cs)).Silent := h
  have hc := hn.groupCall native t.pttGroupStatus.status cs
  unfold Terminal.showCallState
  dsimp only
  split
  · exact hn.showCallError cs
  · split
    · split
      · exact hn.jniUpdateCallState cs
      · split
        · exact hc
        · exact hc.otherCall _ cs
    · exact hn.otherCall _ cs

/-! ### Keys and groups -/

theorem Silent.handlePttDown (h : t.Silent) : t.handlePttDown.Silent := by
  obtain hc | hc | hc | hc := handlePttDown_cases t
  · rw [hc]
    exact h
  · rw [hc]
    exact h
  · rw [hc]
    exact h
  · rw [hc]
    exact h

theorem Silent.resumePttUp (h : t.Silent) : t.resumePttUp.Silent := by
  have hr : (({ t with releasing := false } : Terminal).setRejectReason (-1)).Silent := h
  unfold Terminal.resumePttUp
  dsimp only
  split
  · exact h
  · exact h
  · exact h
  · exact h
  · exact hr.bySpeaker
  · exact hr.bySpeaker
  · exact h

/-- The groups that an application waited for free the floor of a speaker. -/
def freesSpeaker (groupInfos : List GroupEntry) (t : Terminal) : Bool :=
  t.pttGroupStatus.status = .init && t.ePttKeyStatus = .up &&
    (t.addGroups groupInfos).getCurrentGroupInfo.isSome && !isStrBlank t.pttGroupStatus.speakerNum

theorem Silent.resumeApply (h : t.Silent) (hok : t.pttGroupStatus.status = .init →
    t.ePttKeyStatus = .up → t.getCurrentGroupInfo.isSome = true →
      isStrBlank t.pttGroupStatus.speakerNum = true) (native : ℤ) : (t.resumeApply native).Silent := by
  unfold Terminal.resumeApply
  split
  · exact h
  next hs =>
    cases hg : t.getCurrentGroupInfo with
    | none => exact silent_clear t
    | some g =>
      have hgroup : (t.setGroupNum (some g.number)).Silent := h
      dsimp only
      cases hk : t.ePttKeyStatus with
      | down =>
        rw [if_pos (by simp [hk])]
        exact hgroup.handleCommand native _
      | up =>
        rw [if_neg (by simp [hk])]
        exact ⟨fun _ => hok (not_not.mp hs) hk (by simp [hg]), h.2⟩

theorem Silent.regroup (h : t.Silent) (groupInfos : List GroupEntry) :
    (t.regroup groupInfos).Silent := by
  have hleave : (Terminal.regroup.leave t).Silent := silent_clear _
  unfold Terminal.regroup
  split
  · exact h
  · split
    · exact h
    · split
      · exact hleave
      · split
        · exact h
        · split
          · exact hleave
          · exact h

theorem Silent.jniAddGroupInfo (h : t.Silent) (native : ℤ) {groupInfos : List GroupEntry}
    (hok : t.freesSpeaker groupInfos = false) : (t.jniAddGroupInfo native groupInfos).Silent := by
  obtain ⟨n, hn⟩ := addGroups_eq groupInfos t
  have hadd : (t.addGroups groupInfos).Silent := by
    rw [hn]
    exact h
  refine Silent.regroup (hadd.resumeApply (fun hs hk hg => ?_) native) groupInfos
  have hs' : t.pttGroupStatus.status = .init := by rw [hn] at hs; exact hs
  have hk' : t.ePttKeyStatus = .up := by rw [hn] at hk; exact hk
  have hblank : isStrBlank t.pttGroupStatus.speakerNum = true := by
    simpa [freesSpeaker, hs', hk', hg] using hok
  rw [hn]
  exact hblank

/-- A regroup message keeps the session of a group that is on the list. -/
theorem regroup_listed {groupInfos : List GroupEntry} {g : GroupEntry} (hmem : g ∈ groupInfos)
    (hgroup : t.pttGroupStatus.groupNum = some g.number) :
    (t.regroup groupInfos).pttGroupStatus = t.pttGroupStatus := by
  have hempty : groupInfos.isEmpty = false := by
    cases groupInfos with
    | nil => cases hmem
    | cons g' gs => rfl
  have hkept : isDeleted g.number groupInfos = false := by
    rw [isDeleted, List.all_eq_false]
    exact ⟨g, hmem, by simp⟩
  unfold Terminal.regroup
  simp only [hempty, hgroup, hkept, Bool.false_eq_true, if_false]
  split_ifs <;> rfl

theorem getCurrentGroupInfo_mem {g : GroupEntry} (h : t.getCurrentGroupInfo = some g) :
    g ∈ t.lstGroupData := by
  unfold getCurrentGroupInfo at h
  split_ifs at h
  exact List.mem_of_find?_eq_some h

/-- The group that is selected by then is on the list, so that the floor stays free. -/
theorem not_freeSilent_jniAddGroupInfo (native : ℤ) {groupInfos : List GroupEntry}
    (h : t.freesSpeaker groupInfos = true) : ¬ (t.jniAddGroupInfo native groupInfos).FreeSilent := by
  obtain ⟨⟨⟨hs, hk⟩, hg⟩, hblank⟩ : ((t.pttGroupStatus.status = .init ∧ t.ePttKeyStatus = .up) ∧
      (t.addGroups groupInfos).getCurrentGroupInfo.isSome = true) ∧
      isStrBlank t.pttGroupStatus.speakerNum = false := by simpa [freesSpeaker] using h
  obtain ⟨g, hg⟩ := Option.isSome_iff_exists.mp hg
  obtain ⟨n, hn⟩ := addGroups_eq groupInfos t
  have hmem : g ∈ groupInfos := by
    have hmem := getCurrentGroupInfo_mem hg
    rw [hn] at hmem
    exact hmem
  have hadd : (t.addGroups groupInfos).pttGroupStatus = t.pttGroupStatus := by rw [hn]
  have hkey : (t.addGroups groupInfos).ePttKeyStatus = .up := by rw [hn]; exact hk
  have hresume : (t.addGroups groupInfos).resumeApply native =
      ((t.addGroups groupInfos).setGroupNum (some g.number)).setStatus .free := by
    unfold Terminal.resumeApply
    rw [if_neg (by simp [hadd, hs]), hg]
    exact if_neg (by simp [hkey])
  have hstatus : (t.jniAddGroupInfo native groupInfos).pttGroupStatus =
      { t.pttGroupStatus with groupNum := some g.number, status := .free } := by
    unfold Terminal.jniAddGroupInfo
    rw [hresume, regroup_listed hmem rfl, ← hadd]
    rfl
  unfold FreeSilent
  rw [hstatus]
  simp [hblank]

/-! ### Runs -/

/-- The steps that free no floor of a speaker. -/
def keepsSilence (t : Terminal) : Event → Bool
  | .receiveGroupInfo _ groupInfos => !t.freesSpeaker groupInfos
  | _ => true

theorem Silent.handle {e : Event} (h : t.Silent) (ho : e.ofNative) (hok : t.keepsSilence e) :
    (e.handle t).Silent := by
  cases e with
  | keyDown => exact h.handlePttDown
  | keyUpResume => exact h.resumePttUp
  | deliver native => exact h.deliver native
  | mInviteIndicate native groupNum speaker => exact h.mInviteIndicate native groupNum speaker
  | mByeIndicate => exact silent_clear t
  | receivePttRightResponse native s => exact h.receivePttRightResponse ho
  | updatePttState native obj => exact h.updatePttState ho
  | showCallState native cs => exact h.showCallState native cs
  | receiveGroupInfo native groupInfos =>
    exact h.jniAddGroupInfo native (by simpa [keepsSilence] using hok)
  | receiveMessage number =>
    unfold Event.handle jniReceiveMessage
    dsimp only
    split
    · exact h
    · exact h
  | clear => exact silent_clear t
  | _ => exact h

theorem not_freeSilent_handle {e : Event} (hok : ¬ t.keepsSilence e = true) :
    ¬ (e.handle t).FreeSilent := by
  cases e with
  | receiveGroupInfo native groupInfos =>
    exact not_freeSilent_jniAddGroupInfo native (by simpa [keepsSilence] using hok)
  | _ => simp [keepsSilence] at hok

theorem Fresh.silent (h : t.Fresh) : t.Silent := by
  constructor
  · intro hf
    simp [h.status] at hf
  · rw [h.status]
    exact .inl rfl

end

end Terminal

/-- In every run, a free floor names no speaker exactly as long as no step frees the floor of a
speaker. -/
theorem runs_freeSilent {t : Terminal} {es : List Event} (hinit : t.Fresh)
    (hes : (terminal Terminal.Fresh Event.ofNative).Allowed (fun _ _ => True) t es) :
    (terminal Terminal.Fresh Event.ofNative).Allowed (fun t e => t.keepsSilence e = true) t es ↔
      ∀ es', es' <+: es → ((terminal Terminal.Fresh Event.ofNative).run t es').FreeSilent :=
  System.allowed_iff (fun _ h => h.1) (fun _ _ h he hok => h.handle he.1 hok)
    (fun _ _ _ _ hok => Terminal.not_freeSilent_handle hok) hinit.silent hes

/-- Somebody speaks, the groups are taken away, the user asks for the floor, and the groups come
back. -/
def waitsForGroups : List Event :=
  [.mInviteIndicate 0 (some (ascii "8001")) (some (ascii "101")), .receiveGroupInfo 0 [], .keyDown,
    .deliver 0, .keyUp, .keyUpResume, .receiveGroupInfo 0 Terminal.ready.lstGroupData]

theorem silent_until_groups : ((terminal Terminal.Fresh Event.ofNative).run .ready
    (waitsForGroups.take 6)).FreeSilent :=
  (runs_freeSilent fresh_ready (by decide +kernel)).mp (by decide +kernel) _ List.prefix_rfl

theorem groups_free_speaker :
    (terminal Terminal.Fresh Event.ofNative).Allowed (fun _ _ => True) .ready waitsForGroups ∧
      ¬ ((terminal Terminal.Fresh Event.ofNative).run .ready waitsForGroups).FreeSilent :=
  ⟨by decide +kernel, by decide +kernel⟩

end PttTerminal
