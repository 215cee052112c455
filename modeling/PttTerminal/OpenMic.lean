import PttTerminal.Library.Journals
import PttTerminal.FloorUpdate

/-!
# The microphone of a released key

A terminal whose status is speaking sends what its microphone hears. Whenever the key is up and no
handler is at work, a hang-up has been requested since the status became speaking: the command
was sent, or the call was hung up. `ClosesMic` are the steps that keep this so. It is broken by an
update that is left early because a single call is on the screen.
-/
namespace PttTerminal

open Runs Journals

/-- The status that was set last. -/
def statusOf (es : List Entry) : PttStatus :=
  (latest (fun
    | .status s => some s
    | _ => none) es).getD .idle

/-- Whether a hang-up was requested after the status became speaking. -/
def hangupSince : List Entry → Bool
  | [] => false
  | .hangupPttCall _ :: _ => true
  | .command .hangupPttCall :: _ => true
  | .status .speaking :: es => statusOf es = .speaking && hangupSince es
  | .status _ :: _ => false
  | _ :: es => hangupSince es

/-- An entry that sets no status. -/
def Entry.keepsStatus : Entry → Bool
  | .status _ => false
  | _ => true

theorem statusOf_cons {e : Entry} (he : e.keepsStatus) (es : List Entry) :
    statusOf (e :: es) = statusOf es := by
  cases e <;> first | rfl | simp [Entry.keepsStatus] at he

theorem hangupSince_cons {e : Entry} (he : e.keepsStatus) {es : List Entry} (h : hangupSince es) :
    hangupSince (e :: es) := by
  cases e with
  | status s => simp [Entry.keepsStatus] at he
  | command c => cases c <;> simp [hangupSince, h]
  | _ => simp [hangupSince, h]

namespace Terminal

/-- A terminal that listens knows of somebody to listen to. -/
def Named (t : Terminal) : Prop :=
  t.pttGroupStatus.status = .listening →
    t.isUser t.pttGroupStatus.speakerNum ∨ isEmptyStr t.pttGroupStatus.speakerNum = false

/-- No open microphone. -/
def HungUp (t : Terminal) : Prop :=
  t.releasing = false → t.ePttKeyStatus = .up → t.pttGroupStatus.status = .speaking →
    hangupSince t.journal

instance (t : Terminal) : Decidable t.HungUp := by
  unfold HungUp
  infer_instance

/-- The journal tells the status, and the microphone is closed. -/
def MicClosed (t : Terminal) : Prop :=
  statusOf t.journal = t.pttGroupStatus.status ∧ t.Named ∧ t.HungUp

section
variable {native : ℤ} {t t' : Terminal} {s : PttStatus}

/-! ### Writes -/

theorem isEmptyStr_of_not_blank {n : Option Bytes} (h : isStrBlank n = false) :
    isEmptyStr n = false := by
  cases n with
  | none => simp [isStrBlank] at h
  | some n => cases n <;> simp_all [isStrBlank, isEmptyStr]

theorem micClosed_setStatus (hs : s ≠ .speaking)
    (hn : s = .listening → isStrBlank t.pttGroupStatus.speakerNum = false) :
    (t.setStatus s).MicClosed :=
  ⟨rfl, fun h => .inr (isEmptyStr_of_not_blank (hn h)), fun _ _ h => absurd h hs⟩

/-- The user may speak while the key is down, and until the handler of the released key is done. -/
theorem micClosed_speaking (hk : t.releasing = false → t.ePttKeyStatus = .down) :
    (t.setStatus .speaking).MicClosed := by
  refine ⟨rfl, fun h => by simp at h, fun hr hu _ => ?_⟩
  have hd : t.ePttKeyStatus = .down := hk hr
  simp [hd] at hu

theorem MicClosed.restate (h : t.MicClosed) : (t.setStatus t.pttGroupStatus.status).MicClosed := by
  refine ⟨rfl, h.2.1, fun hr hk hs => ?_⟩
  have hs' : t.pttGroupStatus.status = .speaking := hs
  simp [hangupSince, hs', h.1, h.2.2 hr hk hs']

theorem micClosed_free (t : Terminal) : t.free.MicClosed :=
  ⟨rfl, fun h => by simp at h, fun _ _ h => by simp at h⟩

theorem micClosed_clear (t : Terminal) : t.clear.MicClosed :=
  ⟨rfl, fun h => by simp at h, fun _ _ h => by simp at h⟩

theorem MicClosed.note (h : t.MicClosed) {e : Entry} (he : e.keepsStatus) : (t.note e).MicClosed :=
  ⟨(statusOf_cons he _).trans h.1, h.2.1, fun hr hk hs => hangupSince_cons he (h.2.2 hr hk hs)⟩

theorem MicClosed.sendPttCommand (h : t.MicClosed) (c : Command) : (t.sendPttCommand c).MicClosed :=
  ⟨h.1, h.2.1, fun hr hk hs => hangupSince_cons rfl (h.2.2 hr hk hs)⟩

theorem MicClosed.setBPttErrorShowing (h : t.MicClosed) (b : Bool) :
    (t.setBPttErrorShowing b).MicClosed := h

theorem MicClosed.isbPttErrorShowing (h : t.MicClosed) : t.isbPttErrorShowing.2.MicClosed := by
  unfold Terminal.isbPttErrorShowing
  split <;> exact h

/-! ### Requests -/

theorem MicClosed.checkResult (h : t.MicClosed) (result : ℤ) :
    (t.checkResult result).MicClosed := by
  unfold Terminal.checkResult
  split
  · have hf : ((t.setSpeakerNum none).setStatus .free).MicClosed :=
      micClosed_setStatus (by simp) (by simp)
    dsimp only
    split
    · exact hf.setBPttErrorShowing true
    · exact hf
  · exact h

theorem MicClosed.hangupPttCall (h : t.MicClosed) : t.hangupPttCall.MicClosed := by
  unfold Terminal.hangupPttCall
  split
  · exact h
  · exact h.note rfl

theorem MicClosed.cancelPttRight (h : t.MicClosed) (native : ℤ) :
    (t.cancelPttRight native).MicClosed := by
  unfold Terminal.cancelPttRight
  split
  · exact h
  · exact (h.note rfl).checkResult native

theorem MicClosed.applyPttRight (h : t.MicClosed) (native : ℤ) :
    (t.applyPttRight native).MicClosed := by
  unfold Terminal.applyPttRight
  split
  · exact h
  next grpNum _ =>
    have hg : (t.setGroupNum (some grpNum)).MicClosed := h
    unfold requestApplyPttRight
    split
    · exact hg
    · dsimp only
      split
      · exact ((hg.setBPttErrorShowing true).note rfl).checkResult native
      · exact (hg.note rfl).checkResult native

theorem MicClosed.requestHangup (h : t.MicClosed) (callId : ℤ) :
    (t.requestHangup callId).MicClosed := by
  unfold Terminal.requestHangup
  split
  · exact h
  · exact h.note rfl

/-! ### Updates of the floor -/

theorem MicClosed.settled (h : t.MicClosed) (hs : Settled native t t') : t'.MicClosed := by
  cases hs with
  | kept => exact h
  | speaks _ hk => exact micClosed_speaking fun _ => hk
  | starts _ hk => exact micClosed_speaking fun _ => hk
  | silenced => exact micClosed_free _
  | hungUp => exact h.hangupPttCall
  | cancelled => exact h.cancelPttRight native
  | forgotten => exact micClosed_free t

theorem MicClosed.updateOwn (h : t.MicClosed) (native : ℤ) :
    (t.updateOwnPttState native).MicClosed := by
  obtain ⟨t₁, h₁ | h₁, hs⟩ := updateOwn_settled native t
  · exact (h₁ ▸ h : t₁.MicClosed).settled hs
  · exact (h₁ ▸ h.restate : t₁.MicClosed).settled hs

/-- The user is taken for the speaker: where the key is up, the update has to go through. -/
theorem micClosed_updateOwn_user (hu : t.isUser t.pttGroupStatus.speakerNum)
    (hk : t.releasing = false → t.ePttKeyStatus = .up → t.inSingleCall = false) (native : ℤ) :
    ((t.setStatus .speaking).updateOwnPttState native).MicClosed := by
  by_cases hr : t.releasing = false ∧ t.ePttKeyStatus = .up
  · obtain ⟨t₁, h₁, hs⟩ := updateOwn_settled native (t.setStatus .speaking)
    have hin : t₁.inSingleCall = false := by obtain rfl | rfl := h₁ <;> exact hk hr.1 hr.2
    have hk₁ : t₁.ePttKeyStatus = .up := by obtain rfl | rfl := h₁ <;> exact hr.2
    have hs₁ : t₁.pttGroupStatus.status = .speaking := by obtain rfl | rfl := h₁ <;> rfl
    have hu₁ : t₁.isUser t₁.pttGroupStatus.speakerNum := by obtain rfl | rfl := h₁ <;> exact hu
    generalize (t.setStatus .speaking).updateOwnPttState native = t' at hs
    cases hs with
    | kept hkept => exact absurd hs₁ ((hkept hin hk₁).2.2 hu₁).2
    | speaks _ hd => simp [hk₁] at hd
    | starts _ hd => simp [hk₁] at hd
    | silenced => exact micClosed_free _
    | hungUp _ _ _ hn => exact absurd hu₁ (by rw [hn]; simp)
    | cancelled _ _ hw => simp [hs₁] at hw
    | forgotten => exact micClosed_free _
  · have hd : t.releasing = false → t.ePttKeyStatus = .down := fun h => by
      cases hk' : t.ePttKeyStatus with
      | down => rfl
      | up => exact absurd ⟨h, hk'⟩ hr
    exact (micClosed_speaking hd).updateOwn native

/-! ### Indications -/

theorem MicClosed.indicateInCall (h : t.MicClosed) (groupNum : Bytes) (speaker : Option Bytes) :
    (t.indicateInCall groupNum speaker).MicClosed := by
  unfold Terminal.indicateInCall
  split
  · exact h
  next hn =>
    have hn' : isStrBlank speaker = false := by
      simp only [Bool.or_eq_true, not_or, Bool.not_eq_true] at hn
      exact hn.2
    exact ⟨rfl, fun _ => .inr (isEmptyStr_of_not_blank hn'), fun _ _ hs => by simp at hs⟩

theorem MicClosed.indicateFree (h : t.MicClosed) (native : ℤ) (groupNum : Bytes)
    (speaker : Option Bytes) : (t.indicateFree native groupNum speaker).MicClosed := by
  unfold Terminal.indicateFree
  split
  · exact h
  · exact h
  · exact ⟨rfl, fun hl => by simp at hl, fun _ _ hs => by simp at hs⟩
  · dsimp only
    rw [endIndication_of_ne_idle (updateOwn_ne_idle (by simp))]
    exact (micClosed_free _).updateOwn native

theorem micClosed_indicateSpeaker {speaker : Option Bytes}
    (hb : isStrBlank speaker = false)
    (hk : t.releasing = false → t.ePttKeyStatus = .up → t.isUser speaker →
      t.inSingleCall = false) (native : ℤ) (groupNum : Bytes) :
    (t.indicateSpeaker native groupNum speaker).MicClosed := by
  have hl : ((t.setStatus .listening).setSpeakerNum speaker).MicClosed :=
    ⟨rfl, fun _ => .inr (isEmptyStr_of_not_blank hb), fun _ _ hs => by simp at hs⟩
  have hl' : (((t.setStatus .listening).setSpeakerNum speaker).setStatus .listening).MicClosed :=
    micClosed_setStatus (by simp) fun _ => hb
  unfold Terminal.indicateSpeaker
  dsimp only
  split
  next hu =>
    rw [endIndication_of_ne_idle (updateOwn_ne_idle (by simp))]
    exact micClosed_updateOwn_user (t := (t.setStatus .listening).setSpeakerNum speaker) hu
      (fun hr hk' => hk hr hk' hu) native
  next =>
    split
    next hkeep =>
      refine (micClosed_setStatus ?_ fun _ => hb).updateOwn native
      intro hs
      simp [keepsRequest, hs] at hkeep
    next =>
      rw [endIndication_of_ne_idle (updateOwn_ne_idle (by simp))]
      exact hl'.updateOwn native

/-- The step that leaves the microphone open: an indication that names the user, with the key up,
while the screen of a single call that is over covers the update. -/
def indicationOpensMic (speaker : Option Bytes) (t : Terminal) : Bool :=
  !t.releasing && t.ePttKeyStatus = .up && t.isUser speaker && !isStrBlank speaker &&
    !t.singleCallActive && t.inSingleCall

theorem MicClosed.mInviteIndicate {speaker : Option Bytes} (h : t.MicClosed)
    (hok : t.indicationOpensMic speaker = false) (native : ℤ) (groupNum : Option Bytes) :
    (t.mInviteIndicate native groupNum speaker).MicClosed := by
  have hnote : (t.note (.mInviteIndicate groupNum speaker)).MicClosed := h.note rfl
  cases groupNum with
  | none => exact micClosed_clear _
  | some groupNum =>
    obtain ⟨-, hi⟩ | ⟨hin, u, hu, hi⟩ := mInviteIndicate_cases native groupNum speaker t
    · rw [hi]
      exact hnote.indicateInCall groupNum speaker
    · obtain ⟨-, hi⟩ | ⟨hb, hi⟩ := hi
      · have hu' : u.MicClosed := by
          obtain ⟨-, rfl⟩ | ⟨-, rfl⟩ := hu
          · exact hnote
          · exact hnote
        rw [hi]
        exact hu'.indicateFree native groupNum speaker
      · rw [hi]
        obtain ⟨ha, rfl⟩ | ⟨ha, rfl⟩ := hu
        · refine micClosed_indicateSpeaker hb (fun hr hk hu => ?_) native groupNum
          have hr' : t.releasing = false := hr
          have hk' : t.ePttKeyStatus = .up := hk
          have hu' : t.isUser speaker = true := hu
          simp only [indicationOpensMic, hr', hk', hu', ha, hb] at hok
          simpa using hok
        · have ha' : t.inSingleCall = false := by simpa [ha] using hin
          simp only [inSingleCall, Bool.or_eq_false_iff] at ha'
          exact micClosed_indicateSpeaker (t := (t.note _).clearCall) hb
            (fun _ _ _ => ha'.2) native groupNum

/-! ### Commands -/

theorem MicClosed.handleApply (h : t.MicClosed) (native : ℤ) :
    (t.handleApply native).MicClosed := by
  unfold Terminal.handleApply
  dsimp only
  split
  · exact h.isbPttErrorShowing
  · split
    · exact micClosed_setStatus (by simp) (by simp)
    · exact (micClosed_setStatus (by simp) (by simp)).applyPttRight native

theorem micClosed_handleCancel (native : ℤ) (t : Terminal) : (t.handleCancel native).MicClosed := by
  unfold Terminal.handleCancel
  split
  · exact (micClosed_setStatus (by simp) (by simp)).cancelPttRight native
  next hb => exact (micClosed_setStatus (by simp) fun _ => by simpa using hb).cancelPttRight native

theorem micClosed_handleHangup (t : Terminal) : t.handleHangup.MicClosed := by
  have hf : (t.free.setCallState .ending).MicClosed := micClosed_free t
  rw [handleHangup_eq]
  exact hf.hangupPttCall

theorem MicClosed.handleMakeCall (h : t.MicClosed) (native : ℤ) (number : Option Bytes) :
    (t.handleMakeCall native number).MicClosed := by
  obtain ⟨c, b, hc | hc⟩ := handleMakeCall_eq native number t
  · rw [hc]
    exact h
  · have hb : ({ t with currentCallState := c, bForceInSC := b } : Terminal).MicClosed := h
    rw [hc]
    exact hb.checkResult native

theorem MicClosed.handleSingleCall (h : t.MicClosed) (native : ℤ) {e : ℤ → Entry}
    (he : ∀ i, (e i).keepsStatus) : (t.handleSingleCall native e).MicClosed := by
  obtain hs | ⟨c, b, hs⟩ := handleSingleCall_eq native e t
  · rw [hs]
    exact h
  · rw [hs]
    exact h.note (he _)

theorem MicClosed.handleCommand (h : t.MicClosed) (native : ℤ) (c : Command) :
    (t.handleCommand native c).MicClosed := by
  unfold Terminal.handleCommand
  split
  · exact h
  · cases c with
    | hangupPttCall => exact micClosed_handleHangup t
    | applyPttRight => exact h.handleApply native
    | cancelPttRight => exact micClosed_handleCancel native t
    | openPttUi =>
      dsimp only
      split
      · exact h
      · exact h.isbPttErrorShowing
    | startApp => exact h
    | updatePttUi => exact h.isbPttErrorShowing
    | closePtt => exact micClosed_clear _
    | makeCall number => exact h.handleMakeCall native number
    | sendDtmf => exact h
    | answerCall => exact h.handleSingleCall native fun _ => rfl
    | hangupCall => exact h.handleSingleCall native fun _ => rfl

/-! ### Groups and responses -/

theorem MicClosed.resumeApply (h : t.MicClosed) (native : ℤ) :
    (t.resumeApply native).MicClosed := by
  unfold Terminal.resumeApply
  split
  · exact h
  · split
    · exact micClosed_clear t
    next g _ =>
      have hg : (t.setGroupNum (some g.number)).MicClosed := h
      dsimp only
      split
      · exact hg.handleCommand native _
      · exact micClosed_setStatus (by simp) (by simp)

theorem MicClosed.regroup (h : t.MicClosed) (groupInfos : List GroupEntry) :
    (t.regroup groupInfos).MicClosed := by
  have hleave : ∀ t : Terminal, (Terminal.regroup.leave t).MicClosed := fun t => micClosed_clear _
  unfold Terminal.regroup
  split
  · exact h
  · split
    · exact h
    · split
      · exact hleave t
      · split
        · exact h
        · split
          · exact hleave t
          · exact h

theorem MicClosed.jniAddGroupInfo (h : t.MicClosed) (native : ℤ) (groupInfos : List GroupEntry) :
    (t.jniAddGroupInfo native groupInfos).MicClosed := by
  obtain ⟨n, hn⟩ := addGroups_eq groupInfos t
  have ha : (t.addGroups groupInfos).MicClosed := by
    rw [hn]
    exact h
  exact (ha.resumeApply native).regroup groupInfos

theorem micClosed_answer (hs : s ≠ .speaking) (hl : s ≠ .listening) (native : ℤ) (t : Terminal) :
    ((t.setStatus (if t.ePttKeyStatus = .up then
      if isStrBlank t.pttGroupStatus.speakerNum then .free else .listening else s)).updateOwnPttState
      native).MicClosed := by
  refine MicClosed.updateOwn ?_ native
  split
  · split
    · exact micClosed_setStatus (by simp) (by simp)
    next hb => exact micClosed_setStatus (by simp) fun _ => by simpa using hb
  · exact micClosed_setStatus hs fun h => absurd h hl

theorem MicClosed.receivePttRightResponse (h : t.MicClosed)
    (ho : Event.ofNative (.receivePttRightResponse native s)) :
    (t.receivePttRightResponse native s).MicClosed := by
  have hn : (t.note (.response s)).MicClosed := h.note rfl
  obtain ⟨-, he⟩ | ⟨-, ⟨rfl, he⟩ | ⟨hs, he⟩ | ⟨rfl, he⟩⟩ := receivePttRightResponse_cases t ho
  · rw [he]
    exact hn
  · rw [he]
    exact (micClosed_setStatus (by simp) (by simp)).updateOwn native
  · rw [he]
    have hne : s ≠ .speaking ∧ s ≠ .listening := by
      obtain rfl | rfl := hs <;> simp
    exact micClosed_answer hne.1 hne.2 native (t.note _)
  · rw [he]
    split
    · have hc : ({ (t.note (.response .forbidden)).clear with
          ePttKeyStatus := .down } : Terminal).MicClosed :=
        ⟨rfl, fun hl => by simp at hl, fun _ hk => by simp at hk⟩
      exact hc.sendPttCommand _
    · exact micClosed_clear _

theorem MicClosed.updatePttState (h : t.MicClosed) {obj : PttGroupStatus}
    (ho : Event.ofNative (.updatePttState native obj)) :
      (t.updatePttState native obj).MicClosed := by
  have hn : (t.note (.response obj.status)).MicClosed := h.note rfl
  obtain he | ⟨hf, -, he⟩ | ⟨hw, -, he⟩ := updatePttState_cases t ho
  · rw [he]
    exact hn
  · rw [he]
    exact ⟨rfl, fun hl => by simp [hf] at hl, fun _ _ hl => by simp [hf] at hl⟩
  · refine MicClosed.settled ⟨rfl, ?_, ?_⟩ he
    · intro hl
      obtain hw | hw := hw <;> simp [hw] at hl
    · intro _ _ hl
      obtain hw | hw := hw <;> simp [hw] at hl

/-! ### Calls -/

theorem MicClosed.jniUpdateCallState (h : t.MicClosed) (cs : CallState) :
    (t.jniUpdateCallState cs).MicClosed := by
  obtain ⟨c, hc⟩ := jniUpdateCallState_eq cs t
  rw [hc]
  exact h

theorem MicClosed.otherCall (h : t.MicClosed) (iPttStatus : PttStatus) (cs : CallState) :
    (t.otherCall iPttStatus cs).MicClosed := by
  obtain ho | ho | ⟨-, -, -, -, ho⟩ := otherCall_cases iPttStatus cs t
  · rw [ho]
    exact h
  · rw [ho]
    exact h.jniUpdateCallState cs
  · rw [ho]
    exact h

theorem MicClosed.showCallError (h : t.MicClosed) (cs : CallState) :
    (t.showCallError cs).MicClosed := by
  have hset : ∀ u : Terminal, u.MicClosed →
      (if cs.errorCode = 504 then u.requestHangup cs.callId else u).MicClosed := fun u hu => by
    split
    · exact hu.requestHangup cs.callId
    · exact hu
  have hf : t.free.MicClosed := micClosed_free t
  obtain ⟨u, hu, ⟨-, rfl | rfl⟩ | ⟨-, rfl | ⟨b, rfl⟩⟩⟩ := showCallError_cases cs t
  · rw [hu]
    exact hset _ h
  · rw [hu]
    exact hset _ (h.jniUpdateCallState cs)
  · rw [hu]
    exact hset _ h
  · rw [hu]
    exact hset _ hf

theorem MicClosed.groupAnswered (h : t.MicClosed)
    (hk : (t.ePttKeyStatus = .up ∧ t.pttGroupStatus.status = .listening) ∨ t.ePttKeyStatus = .down)
    (hok : t.releasing = false → t.ePttKeyStatus = .up → t.isUser t.pttGroupStatus.speakerNum →
      t.inSingleCall = false) (native : ℤ) (cs : CallState) :
    (t.groupAnswered native cs).MicClosed := by
  obtain ⟨n, hn⟩ := answerGroup_eq t
  have hg : (t.setGroupNum n).MicClosed := h
  unfold Terminal.groupAnswered
  rw [hn]
  obtain ⟨hk, hl⟩ | hk := hk
  · rw [answerSpeaker_keyUp (t := t.setGroupNum n) hk]
    split
    next hu =>
      have hu' : t.isUser t.pttGroupStatus.speakerNum := by
        obtain hn | hn := h.2.1 hl
        · exact hn
        · simpa [hn] using hu
      exact micClosed_updateOwn_user (t := (t.setGroupNum n).setCallId cs.callId) hu'
        (fun hr hk' => hok hr hk' hu') native
    next => exact MicClosed.updateOwn (t := (t.setGroupNum n).setCallId cs.callId) hg native
  · rw [answerSpeaker_keyDown (t := t.setGroupNum n) hk]
    have hd : ∀ {P : Prop}, t.ePttKeyStatus = .up → P := fun hu => by simp [hk] at hu
    split
    next =>
      exact MicClosed.updateOwn (t := (((t.setGroupNum n).setStatus .speaking).setSpeakerNum
        (some t.username)).setCallId cs.callId)
          ⟨rfl, fun hl => by simp at hl, fun _ hu => hd hu⟩ native
    next =>
      exact MicClosed.updateOwn (t := ((t.setGroupNum n).setSpeakerNum
        (some t.username)).setCallId cs.callId) ⟨h.1, fun _ => by simp, fun _ hu => hd hu⟩ native

/-- The call of a group is up, the user was named as the speaker with the key up, and the screen of
the single call covers the update. -/
def callOpensMic (cs : CallState) (t : Terminal) : Bool :=
  !t.releasing && t.ePttKeyStatus = .up && t.pttGroupStatus.status = .listening &&
    t.isUser t.pttGroupStatus.speakerNum && t.isSingleCallOnTop && !t.bForceInSC &&
    !checkErrorCode cs.errorCode && t.checkIsGroupNum cs.number && cs.callState = .talking

theorem MicClosed.groupTalking (h : t.MicClosed)
    (hok : t.releasing = false → t.ePttKeyStatus = .up → t.pttGroupStatus.status = .listening →
      t.isUser t.pttGroupStatus.speakerNum → t.inSingleCall = false)
    (native : ℤ) (iPttStatus : PttStatus) (cs : CallState) :
    (t.groupTalking native iPttStatus cs).MicClosed := by
  unfold Terminal.groupTalking
  split
  · exact h
  · split
    next hk =>
      refine h.groupAnswered hk (fun hr hu huser => ?_) native cs
      obtain ⟨-, hl⟩ | hd := hk
      · exact hok hr hu hl huser
      · simp [hd] at hu
    next => exact h.hangupPttCall

theorem MicClosed.groupRinging (h : t.MicClosed) (iPttStatus : PttStatus) (cs : CallState) :
    (t.groupRinging iPttStatus cs).2.MicClosed := by
  have ha : ((t.setCallId cs.callId).note (.requestAnswer cs.callId)).MicClosed :=
    MicClosed.note (t := t.setCallId cs.callId) h rfl
  have hr : (if t.ePttKeyStatus ≠ .down then t.requestHangup cs.callId else t).MicClosed := by
    split
    · exact h.requestHangup cs.callId
    · exact h
  cases iPttStatus <;> first | exact ha | exact hr

theorem MicClosed.groupEnded (h : t.MicClosed) (native : ℤ) (iPttStatus : PttStatus) :
    (t.groupEnded native iPttStatus).2.MicClosed := by
  have hf : (((t.setSpeakerNum none).setStatus .free).updateOwnPttState native).MicClosed :=
    (micClosed_setStatus (by simp) (by simp)).updateOwn native
  have hc : (((t.cancelPttRight native).setStatus .canceling).updateOwnPttState native).MicClosed :=
    (micClosed_setStatus (by simp) (by simp)).updateOwn native
  have hb : ((t.setStatus (if isStrBlank t.pttGroupStatus.speakerNum then .free
      else .listening)).updateOwnPttState native).MicClosed := by
    refine MicClosed.updateOwn ?_ native
    split
    · exact micClosed_setStatus (by simp) (by simp)
    next hb => exact micClosed_setStatus (by simp) fun _ => by simpa using hb
  obtain he | he | ⟨-, he | he⟩ := groupEnded_cases native iPttStatus t
  · rw [he]
    exact h
  · rw [he]
    exact hf
  · rw [he]
    exact hc
  · rw [he]
    exact hb

theorem MicClosed.groupCall (h : t.MicClosed) (native : ℤ) (iPttStatus : PttStatus) (cs : CallState)
    (hok : cs.callState = .talking → t.releasing = false → t.ePttKeyStatus = .up →
      t.pttGroupStatus.status = .listening → t.isUser t.pttGroupStatus.speakerNum →
      t.inSingleCall = false) :
    (t.groupCall native iPttStatus cs).2.MicClosed := by
  obtain ⟨i, hi⟩ := storeCall_eq cs t
  have hs : ((t.setCallId i).setCallState cs.callState).MicClosed := h
  unfold Terminal.groupCall
  rw [hi]
  dsimp only
  split
  next => exact hs.groupRinging iPttStatus cs
  next ht => exact hs.groupTalking (hok ht) native iPttStatus cs
  next => exact hs.groupEnded native iPttStatus
  next => exact hs

theorem MicClosed.showCallState (h : t.MicClosed) {cs : CallState} (hok : t.callOpensMic cs = false)
    (native : ℤ) : (t.showCallState native cs).MicClosed := by
  have hn : (t.note (.callState cs)).MicClosed := h.note rfl
  unfold Terminal.showCallState
  dsimp only
  split
  · exact hn.showCallError cs
  next he =>
    split
    next hg =>
      split
      · exact hn.jniUpdateCallState cs
      next hforce =>
        have hc :
          ((t.note (.callState cs)).groupCall native t.pttGroupStatus.status cs).2.MicClosed := by
          refine hn.groupCall native _ cs fun ht hr hk hl hu => ?_
          have hforce' : t.bForceInSC = false := by simpa using hforce
          have hr' : t.releasing = false := hr
          have hk' : t.ePttKeyStatus = .up := hk
          have hl' : t.pttGroupStatus.status = .listening := hl
          have hu' : t.isUser t.pttGroupStatus.speakerNum = true := hu
          have hg' : t.checkIsGroupNum cs.number = true := hg
          have he' : checkErrorCode cs.errorCode = false := by simpa using he
          simp only [callOpensMic, hr', hk', hl', hu', hforce', he', hg', ht] at hok
          have htop : t.isSingleCallOnTop = false := by simpa using hok
          show t.inSingleCall = false
          simp [inSingleCall, hforce', htop]
        split
        · exact hc
        · exact hc.otherCall _ cs
    next => exact hn.otherCall _ cs

/-! ### Keys -/

theorem MicClosed.handlePttDown (h : t.MicClosed) : t.handlePttDown.MicClosed := by
  have hd : ({ t with ePttKeyStatus := .down } : Terminal).MicClosed :=
    ⟨h.1, h.2.1, fun _ hk => by simp at hk⟩
  obtain hc | hc | hc | hc := handlePttDown_cases t <;> rw [hc]
  · exact h
  · exact h.sendPttCommand _
  · exact hd
  · exact hd.sendPttCommand _

/-- While the handler sleeps, the microphone may be open. -/
theorem MicClosed.handlePttUp (h : t.MicClosed) : t.handlePttUp.MicClosed :=
  ⟨h.1, h.2.1, fun hr => by simp [Terminal.handlePttUp] at hr⟩

/-- The handler of the released key hangs up. -/
theorem MicClosed.resumePttUp (h : t.MicClosed) : t.resumePttUp.MicClosed := by
  have hq : t.pttGroupStatus.status ≠ .speaking →
      ({ t with releasing := false } : Terminal).MicClosed := fun hs =>
    ⟨h.1, h.2.1, fun _ _ hs' => absurd hs' hs⟩
  have hr : (((({ t with releasing := false } : Terminal).setRejectReason (-1)).setStatus
      (if isStrBlank t.pttGroupStatus.speakerNum then .free else .listening)).sendPttCommand
      .updatePttUi).MicClosed := by
    refine MicClosed.sendPttCommand ?_ _
    split
    · exact micClosed_setStatus (by simp) (by simp)
    next hb => exact micClosed_setStatus (by simp) fun _ => by simpa using hb
  unfold Terminal.resumePttUp
  dsimp only
  split
  next hs => exact (hq (by simp [hs])).sendPttCommand _
  next hs => exact (hq (by simp [hs])).sendPttCommand _
  next hs => exact ⟨h.1, h.2.1, fun _ _ _ => rfl⟩
  next hs => exact (hq (by simp [hs])).sendPttCommand _
  next => exact hr
  next => exact hr
  next hs _ _ _ => exact hq hs

theorem MicClosed.deliver (h : t.MicClosed) (native : ℤ) : (t.deliver native).MicClosed := by
  unfold Terminal.deliver
  split
  · exact h
  next c cs _ => exact MicClosed.handleCommand (t := { t with commands := cs }) h native c

/-! ### Runs -/

/-- The steps that leave no microphone open. -/
def closesMic (t : Terminal) : Event → Bool
  | .mInviteIndicate _ _ speaker => !t.indicationOpensMic speaker
  | .showCallState _ cs => !t.callOpensMic cs
  | _ => true

theorem MicClosed.handle (h : t.MicClosed) {e : Event} (ho : e.ofNative) (hok : t.closesMic e) :
    (e.handle t).MicClosed := by
  cases e with
  | keyDown => exact h.handlePttDown
  | keyUp => exact h.handlePttUp
  | keyUpResume => exact h.resumePttUp
  | deliver native => exact h.deliver native
  | sendCommand c => exact h.sendPttCommand c
  | mInviteIndicate native groupNum speaker =>
    exact h.mInviteIndicate (by simpa [closesMic] using hok) native groupNum
  | mByeIndicate => exact micClosed_clear t
  | receivePttRightResponse native s => exact h.receivePttRightResponse ho
  | updatePttState native obj => exact h.updatePttState ho
  | showCallState native cs => exact h.showCallState (by simpa [closesMic] using hok) native
  | receiveGroupInfo native groupInfos => exact h.jniAddGroupInfo native groupInfos
  | receiveMessage number =>
    unfold Event.handle jniReceiveMessage
    dsimp only
    split <;> exact h
  | clear => exact micClosed_clear t
  | _ => exact h

theorem Fresh.micClosed (h : t.Fresh) : t.MicClosed := by
  refine ⟨?_, ?_, ?_⟩
  · rw [h.journal, h.status]
    rfl
  · intro hs
    simp [h.status] at hs
  · intro _ _ hs
    simp [h.status] at hs

end

end Terminal

/-- In every run whose steps all meet the condition, no state has an open microphone. -/
theorem runs_hungUp {t : Terminal}
    (h : (terminal Terminal.Fresh Event.ofNative).Reached (fun t e => t.closesMic e) t) :
      t.HungUp := by
  have hm : t.MicClosed := h.invariant (fun s (hs : s.Fresh) => hs.micClosed)
    fun s e (hs : s.MicClosed) he hok => hs.handle he.1 hok
  exact hm.2.2

/-- The key is released during a speech: the handler sends the command that hangs up. -/
theorem release_hangs_up :
    let t := (terminal Terminal.Fresh Event.ofNative).run .ready [.keyDown, .deliver 0,
      .receivePttRightResponse 0 .busy, .showCallState 0 ⟨0, some (ascii "8001"), .talking, 0⟩,
      .keyUp, .keyUpResume]
    t.pttGroupStatus.status = .speaking ∧ t.ePttKeyStatus = .up ∧ t.HungUp :=
  ⟨by decide, by decide, runs_hungUp (System.reached_run fresh_ready (by decide))⟩

/-- The screen of a single call stays on top after the call ended. An indication that names the user
makes the status speaking, the update is left early, and nothing hangs up. -/
theorem ended_call_opens_mic :
    let t := (terminal Terminal.Fresh Event.ofNative).run .ready
      [.showCallState 0 ⟨0, some (ascii "200"), .ringing, 0⟩,
        .showUi { topActivity := .inCall, inCallScreenActivity := true },
        .showCallState 0 ⟨0, some (ascii "200"), .ended, 0⟩,
        .mInviteIndicate 0 (some (ascii "8001")) (some (ascii "100"))]
    (terminal Terminal.Fresh Event.ofNative).Reached (fun _ _ => True) t ∧ ¬t.HungUp :=
  ⟨System.reached_run fresh_ready (by decide), by decide⟩

end PttTerminal
