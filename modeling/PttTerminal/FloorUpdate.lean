import PttTerminal.TerminalEvents

/-!
# What an update of the floor comes to

`updateOwnPttState` ends in one of seven ways, whatever state it is called in. `Settled` names them
with the tests that lead there, and the later modules look at these instead of the method. The
native code's own updates end in the same ways once the new status is stored.
-/
namespace PttTerminal

namespace Terminal

/-- Give up the floor: free, without a speaker. -/
@[simps!]
def free (t : Terminal) : Terminal := (t.setStatus .free).setSpeakerNum none

/-- Hang up if the call of the group is up. -/
def hangupIfTalking (t : Terminal) : Terminal :=
  if t.callState = .talking then t.hangupPttCall else t

/-- The ends of an update from a state whose status is stored. -/
inductive Settled (native : ℤ) (t : Terminal) : Terminal → Prop
  | kept : (t.inSingleCall = false → t.ePttKeyStatus = .up →
      t.pttGroupStatus.status ≠ .waiting ∧ t.pttGroupStatus.status ≠ .applying ∧
      (t.isUser t.pttGroupStatus.speakerNum = true →
        t.pttGroupStatus.status ≠ .listening ∧ t.pttGroupStatus.status ≠ .speaking)) →
      Settled native t t
  | speaks : t.inSingleCall = false → t.ePttKeyStatus = .down →
      t.isUser t.pttGroupStatus.speakerNum = true →
      (t.pttGroupStatus.status = .listening ∨ t.pttGroupStatus.status = .speaking) →
      Settled native t (t.setStatus .speaking)
  | starts : t.inSingleCall = false → t.ePttKeyStatus = .down →
      t.isUser t.pttGroupStatus.speakerNum = true → t.callState = .talking →
      t.pttGroupStatus.status ≠ .speaking →
      Settled native t ((t.setStatus .speaking).setStatus .speaking)
  | silenced : t.inSingleCall = false → t.ePttKeyStatus = .up →
      t.isUser t.pttGroupStatus.speakerNum = true →
      (t.pttGroupStatus.status = .listening ∨ t.pttGroupStatus.status = .speaking) →
      Settled native t t.hangupIfTalking.free
  | hungUp : t.inSingleCall = false → t.ePttKeyStatus = .up → t.pttGroupStatus.status = .speaking →
      t.isUser t.pttGroupStatus.speakerNum = false → t.singleCallActive = true →
      t.currentCallState.callId = t.pttGroupStatus.callId → Settled native t t.hangupPttCall
  | cancelled : t.inSingleCall = false → t.ePttKeyStatus = .up →
      (t.pttGroupStatus.status = .waiting ∨ t.pttGroupStatus.status = .applying) →
      Settled native t (t.cancelPttRight native)
  | forgotten : t.inSingleCall = false → t.ePttKeyStatus = .up →
      t.pttGroupStatus.status = .accepted →
      (t.callState = .idle ∨ t.callState = .ended) → Settled native t t.free

section
variable {native : ℤ} {t : Terminal}

/-- The speaker that is set is the one that is stored. -/
theorem setStatus_speaking_user {s : PttStatus} (h : t.isUser t.pttGroupStatus.speakerNum = true) :
    (t.setStatus s).setSpeakerNum (some t.username) = t.setStatus s := by
  have h' : t.pttGroupStatus.speakerNum = some t.username := by simpa using h
  simp [setStatus, setSpeakerNum, ← h']

theorem checkKeyUp_of_keyDown (hk : t.ePttKeyStatus = .down) : t.checkKeyUp native = t := by
  simp [checkKeyUp, hk]

variable (native) in
/-- The call is up and the user holds the key: the user speaks. -/
theorem talks_keyDown (hk : t.ePttKeyStatus = .down)
    (hu : t.isUser t.pttGroupStatus.speakerNum = true)
    (hc : t.callState = .talking) (hp : t.pttGroupStatus.status ≠ .speaking) :
    ((t.resetSpeaking t.pttGroupStatus.status t.pttGroupStatus.speakerNum).checkSpeaker
      t.pttGroupStatus.speakerNum).checkKeyUp native =
      (t.setStatus .speaking).setStatus .speaking := by
  have hu' : t.pttGroupStatus.speakerNum = some t.username := by simpa using hu
  have hr : t.resetSpeaking t.pttGroupStatus.status t.pttGroupStatus.speakerNum =
      t.setStatus .speaking := by
    rw [resetSpeaking, if_pos ⟨hc, hp, hk, hu⟩, setStatus_speaking_user hu]
  have hd : (t.setStatus .speaking).checkSpeaker t.pttGroupStatus.speakerNum =
      (t.setStatus .speaking).setStatus .speaking := by
    simp [checkSpeaker, hu', hk]
  rw [hr, hd, checkKeyUp_of_keyDown (by simp [hk])]

theorem settled_keyDown (hs : t.inSingleCall = false) (hk : t.ePttKeyStatus = .down) :
    Settled native t (((t.resetSpeaking t.pttGroupStatus.status t.pttGroupStatus.speakerNum).checkSpeaker
      t.pttGroupStatus.speakerNum).checkKeyUp native) := by
  by_cases hu : t.isUser t.pttGroupStatus.speakerNum = true
  · have hu' : t.pttGroupStatus.speakerNum = some t.username := by simpa using hu
    by_cases hc : t.callState = .talking ∧ t.pttGroupStatus.status ≠ .speaking
    · rw [talks_keyDown _ hk hu hc.1 hc.2]
      exact .starts hs hk hu hc.1 hc.2
    · have hr : t.resetSpeaking t.pttGroupStatus.status t.pttGroupStatus.speakerNum = t := by
        rw [resetSpeaking, if_neg]
        exact fun h => hc ⟨h.1, h.2.1⟩
      rw [hr]
      by_cases hl : t.pttGroupStatus.status = .listening ∨ t.pttGroupStatus.status = .speaking
      · have hd : t.checkSpeaker t.pttGroupStatus.speakerNum = t.setStatus .speaking := by
          simp [checkSpeaker, hl, hu', hk]
        rw [hd, checkKeyUp_of_keyDown (by simp [hk])]
        exact .speaks hs hk hu hl
      · have hd : t.checkSpeaker t.pttGroupStatus.speakerNum = t := by simp [checkSpeaker, hl]
        rw [hd, checkKeyUp_of_keyDown hk]
        exact .kept (by simp [hk])
  · have hu' : t.pttGroupStatus.speakerNum ≠ some t.username := by simpa using hu
    have hr : t.resetSpeaking t.pttGroupStatus.status t.pttGroupStatus.speakerNum = t := by
      simp [resetSpeaking, hu']
    have hd : t.checkSpeaker t.pttGroupStatus.speakerNum = t := by simp [checkSpeaker, hu']
    rw [hr, hd, checkKeyUp_of_keyDown hk]
    exact .kept (by simp [hk])

theorem settled_keyUp (hs : t.inSingleCall = false) (hk : t.ePttKeyStatus = .up) :
    Settled native t (((t.resetSpeaking t.pttGroupStatus.status t.pttGroupStatus.speakerNum).checkSpeaker
      t.pttGroupStatus.speakerNum).checkKeyUp native) := by
  have : t.resetSpeaking t.pttGroupStatus.status t.pttGroupStatus.speakerNum = t := by
    simp [resetSpeaking, hk]
  rw [this]
  by_cases hl : (t.pttGroupStatus.status = .listening ∨ t.pttGroupStatus.status = .speaking) ∧
      t.isUser t.pttGroupStatus.speakerNum
  · have hd : t.checkSpeaker t.pttGroupStatus.speakerNum = t.hangupIfTalking.free := by
      rw [checkSpeaker, if_pos hl, if_pos hk]
      rfl
    have hf : t.hangupIfTalking.free.checkKeyUp native = t.hangupIfTalking.free := by
      simp [checkKeyUp]
    rw [hd, hf]
    exact .silenced hs hk hl.2 hl.1
  · rw [checkSpeaker, if_neg hl]
    have hl' : t.isUser t.pttGroupStatus.speakerNum = true →
        t.pttGroupStatus.status ≠ .listening ∧ t.pttGroupStatus.status ≠ .speaking := fun hu =>
      ⟨fun h => hl ⟨.inl h, hu⟩, fun h => hl ⟨.inr h, hu⟩⟩
    unfold checkKeyUp
    rw [if_neg (by simp [hk])]
    split
    next h =>
      split
      next hc => exact .hungUp hs hk h (by simpa [h] using hl) hc.2 hc.1
      next => exact .kept fun _ _ => ⟨by simp [h], by simp [h], hl'⟩
    next h => exact .cancelled hs hk (.inl h)
    next h => exact .cancelled hs hk (.inr h)
    next h =>
      split
      next hc => exact .forgotten hs hk h hc
      next => exact .kept fun _ _ => ⟨by simp [h], by simp [h], hl'⟩
    next h₁ h₂ _ => exact .kept fun _ _ => ⟨h₁, h₂, hl'⟩

/-- The part of the update after the status is stored. -/
theorem settled_of_stored :
    Settled native t (if t.inSingleCall then t else
      ((t.resetSpeaking t.pttGroupStatus.status t.pttGroupStatus.speakerNum).checkSpeaker
        t.pttGroupStatus.speakerNum).checkKeyUp native) := by
  split
  next h => exact .kept (by simp [h])
  next h =>
    cases hk : t.ePttKeyStatus with
    | down => exact settled_keyDown (by simpa using h) hk
    | up => exact settled_keyUp (by simpa using h) hk

/-- The status is stored again when it is free, waiting or rejected. -/
theorem storePttState_own (t : Terminal) :
    t.storePttState t.pttGroupStatus = some (t.pttGroupStatus.speakerNum, t) ∨
      t.storePttState t.pttGroupStatus =
        some (t.pttGroupStatus.speakerNum, t.setStatus t.pttGroupStatus.status) := by
  have hself : t.setCurrentPttState t.pttGroupStatus = t.setStatus t.pttGroupStatus.status := rfl
  unfold storePttState
  split
  next h => simp [ignoresFree, h, hself]
  next h =>
    rw [if_neg (by simp [h])]
    exact .inr rfl
  next h =>
    rw [if_neg (by simp [h])]
    exact .inr rfl
  next => exact .inl rfl

theorem updateOwn_settled (native : ℤ) (t : Terminal) :
    ∃ t₁, (t₁ = t ∨ t₁ = t.setStatus t.pttGroupStatus.status) ∧
      Settled native t₁ (t.updateOwnPttState native) := by
  unfold updateOwnPttState jniUpdatePttState
  obtain h | h := storePttState_own t
  · rw [h]
    exact ⟨t, .inl rfl, settled_of_stored⟩
  · rw [h]
    exact ⟨_, .inr rfl, settled_of_stored (t := t.setStatus t.pttGroupStatus.status)⟩

/-- The update of a call that is up makes the user who holds the key the speaker. -/
theorem updateOwn_talks (hs : t.inSingleCall = false) (hk : t.ePttKeyStatus = .down)
    (hu : t.isUser t.pttGroupStatus.speakerNum = true) (hc : t.callState = .talking)
    (hp : t.pttGroupStatus.status ≠ .speaking) (native : ℤ) :
    (t.updateOwnPttState native).pttGroupStatus.status = .speaking := by
  unfold updateOwnPttState jniUpdatePttState
  obtain h | h := storePttState_own t
  · rw [h]
    dsimp only
    rw [if_neg (by simp [hs]), talks_keyDown _ hk hu hc hp]
    rfl
  · rw [h]
    dsimp only
    have hs' : ¬(t.setStatus t.pttGroupStatus.status).inSingleCall = true := by
      rw [show (t.setStatus t.pttGroupStatus.status).inSingleCall = t.inSingleCall from rfl]
      simp [hs]
    rw [if_neg hs']
    exact congrArg (fun u => u.pttGroupStatus.status)
      (talks_keyDown (t := t.setStatus t.pttGroupStatus.status) native hk hu hc hp)

/-- A free floor without a speaker is stored, unless the held key keeps it out. -/
theorem jniUpdate_free {obj : PttGroupStatus} (hf : obj.status = .free)
    (hn : obj.speakerNum = none) :
    t.jniUpdatePttState native obj = if t.ignoresFree then t else t.setCurrentPttState obj := by
  unfold jniUpdatePttState storePttState
  rw [hf, hn]
  by_cases hi : t.ignoresFree = true
  · have hk : t.ePttKeyStatus = .down := by
      simp only [ignoresFree, Bool.and_eq_true, decide_eq_true_eq] at hi
      exact hi.1
    simp [hi, resetSpeaking, checkSpeaker, checkKeyUp, hk]
  · cases hk : t.ePttKeyStatus <;>
      simp [hi, resetSpeaking, checkSpeaker, checkKeyUp, hk, hf]

variable (native) in
/-- A waiting or rejected response is stored with the group and the speaker that are known, unless
the user speaks. -/
theorem jniUpdate_waiting {obj : PttGroupStatus}
    (hw : obj.status = .waiting ∨ obj.status = .rejected) :
    (t.pttGroupStatus.status = .speaking ∧ t.ePttKeyStatus = .down ∧
      t.jniUpdatePttState native obj = t) ∨
    (¬(t.pttGroupStatus.status = .speaking ∧ t.ePttKeyStatus = .down) ∧
      Settled native (t.setCurrentPttState { obj with
        groupNum := t.pttGroupStatus.groupNum
        speakerNum := t.pttGroupStatus.speakerNum }) (t.jniUpdatePttState native obj)) := by
  by_cases hs : t.pttGroupStatus.status = .speaking ∧ t.ePttKeyStatus = .down
  · refine .inl ⟨hs.1, hs.2, ?_⟩
    obtain h | h := hw <;> simp [jniUpdatePttState, storePttState, h, hs]
  · refine .inr ⟨hs, ?_⟩
    have hstore : t.storePttState obj = some (t.pttGroupStatus.speakerNum, t.setCurrentPttState
        { obj with
          groupNum := t.pttGroupStatus.groupNum
          speakerNum := t.pttGroupStatus.speakerNum }) := by
      obtain h | h := hw <;> simp [storePttState, h, hs]
    rw [jniUpdatePttState, hstore]
    exact settled_of_stored (t := t.setCurrentPttState { obj with
      groupNum := t.pttGroupStatus.groupNum
      speakerNum := t.pttGroupStatus.speakerNum })

variable (t) in
/-- What the answer to a request does: a speech goes on, and otherwise the floor is waited for, it
is free or somebody else has it, or the state is cleared and the held key asks again. -/
theorem receivePttRightResponse_cases {s : PttStatus}
    (ho : Event.ofNative (.receivePttRightResponse native s)) :
    (t.pttGroupStatus.status = .speaking ∧
      t.receivePttRightResponse native s = t.note (.response s)) ∨
    (t.pttGroupStatus.status ≠ .speaking ∧
      (s = .busy ∧ t.receivePttRightResponse native s =
          ((t.note (.response s)).setStatus .accepted).updateOwnPttState native ∨
      (s = .canceled ∨ s = .rejected) ∧ t.receivePttRightResponse native s =
          ((t.note (.response s)).setStatus (if t.ePttKeyStatus = .up then
            if isStrBlank t.pttGroupStatus.speakerNum then .free else .listening
            else s)).updateOwnPttState native ∨
      s = .forbidden ∧ t.receivePttRightResponse native s = if t.ePttKeyStatus = .down then
          { (t.note (.response s)).clear with
            ePttKeyStatus := .down }.sendPttCommand .applyPttRight
        else (t.note (.response s)).clear)) := by
  have hs : ((s = .busy ∨ s = .canceled) ∨ s = .rejected) ∨ s = .forbidden := by
    simpa [Event.ofNative] using ho
  unfold receivePttRightResponse
  dsimp only
  split
  next hp => exact .inl ⟨hp, rfl⟩
  next hp =>
    obtain ((rfl | rfl) | rfl) | rfl := hs
    · exact .inr ⟨hp, .inl ⟨rfl, rfl⟩⟩
    · exact .inr ⟨hp, .inr (.inl ⟨.inl rfl, rfl⟩)⟩
    · exact .inr ⟨hp, .inr (.inl ⟨.inr rfl, rfl⟩)⟩
    · exact .inr ⟨hp, .inr (.inr ⟨rfl, rfl⟩)⟩

variable (t) in
/-- What a status that the native code sends does: nothing more than to be noted, a free floor is
stored, or it is stored with the group and the speaker that are known. -/
theorem updatePttState_cases {obj : PttGroupStatus}
    (ho : Event.ofNative (.updatePttState native obj)) :
    t.updatePttState native obj = t.note (.response obj.status) ∨
    (obj.status = .free ∧ obj.speakerNum = none ∧
      t.updatePttState native obj = (t.note (.response obj.status)).setCurrentPttState obj) ∨
    ((obj.status = .waiting ∨ obj.status = .rejected) ∧
      ¬(t.pttGroupStatus.status = .speaking ∧ t.ePttKeyStatus = .down) ∧
      Settled native ((t.note (.response obj.status)).setCurrentPttState { obj with
        groupNum := t.pttGroupStatus.groupNum
        speakerNum := t.pttGroupStatus.speakerNum }) (t.updatePttState native obj)) := by
  have hs : (obj.status = .free ∧ obj.speakerNum = none ∨ obj.status = .waiting) ∨
      obj.status = .rejected := by
    simpa [Event.ofNative] using ho
  unfold updatePttState
  obtain hf | hw : (obj.status = .free ∧ obj.speakerNum = none) ∨
      (obj.status = .waiting ∨ obj.status = .rejected) := or_assoc.mp hs
  · rw [jniUpdate_free hf.1 hf.2]
    split
    · exact .inl rfl
    · exact .inr (.inl ⟨hf.1, hf.2, rfl⟩)
  · obtain ⟨-, -, he⟩ | ⟨hk, he⟩ := jniUpdate_waiting native (t := t.note _) hw
    · exact .inl he
    · exact .inr (.inr ⟨hw, hk, he⟩)

end

/-! ### What it leaves alone -/

/-- The status, the speaker, the error flag and the journal may differ, and nothing else. -/
def OnlyFloor (t t' : Terminal) : Prop :=
  t' = { t with
    pttGroupStatus := { t.pttGroupStatus with
      status := t'.pttGroupStatus.status
      speakerNum := t'.pttGroupStatus.speakerNum }
    bPttErrorShowing := t'.bPttErrorShowing
    journal := t'.journal }

section
variable {native : ℤ} {t t' t'' : Terminal}

theorem OnlyFloor.trans (h : OnlyFloor t t') (h' : OnlyFloor t' t'') : OnlyFloor t t'' := by
  unfold OnlyFloor at *
  rw [h', h]

theorem onlyFloor_setStatus (s : PttStatus) (t : Terminal) : OnlyFloor t (t.setStatus s) := rfl

theorem onlyFloor_free (t : Terminal) : OnlyFloor t t.free := rfl

theorem onlyFloor_note (e : Entry) (t : Terminal) : OnlyFloor t (t.note e) := rfl

theorem onlyFloor_hangupPttCall (t : Terminal) : OnlyFloor t t.hangupPttCall := by
  unfold hangupPttCall
  split <;> rfl

theorem onlyFloor_hangupIfTalking (t : Terminal) : OnlyFloor t t.hangupIfTalking := by
  unfold hangupIfTalking
  split
  · exact onlyFloor_hangupPttCall t
  · rfl

theorem onlyFloor_checkResult (result : ℤ) (t : Terminal) : OnlyFloor t (t.checkResult result) := by
  unfold checkResult
  split
  · dsimp only
    split <;> rfl
  · rfl

theorem onlyFloor_cancelPttRight (native : ℤ) (t : Terminal) :
    OnlyFloor t (t.cancelPttRight native) := by
  unfold cancelPttRight
  split
  · rfl
  · exact (onlyFloor_note _ t).trans (onlyFloor_checkResult _ _)

theorem Settled.onlyFloor (h : Settled native t t') : OnlyFloor t t' := by
  cases h with
  | kept => rfl
  | speaks => rfl
  | starts => rfl
  | silenced => exact (onlyFloor_hangupIfTalking t).trans (onlyFloor_free _)
  | hungUp => exact onlyFloor_hangupPttCall t
  | cancelled => exact onlyFloor_cancelPttRight native t
  | forgotten => rfl

theorem onlyFloor_updateOwn (native : ℤ) (t : Terminal) :
    OnlyFloor t (t.updateOwnPttState native) := by
  obtain ⟨t₁, h | h, hs⟩ := updateOwn_settled native t
  · exact h ▸ hs.onlyFloor
  · exact (onlyFloor_setStatus _ t).trans (h ▸ hs.onlyFloor)

/-- A failed request and each end of an update either leave the status or set it to free or
speaking. -/
theorem cancelPttRight_ne_idle (h : t.pttGroupStatus.status ≠ .idle) :
    (t.cancelPttRight native).pttGroupStatus.status ≠ .idle := by
  unfold cancelPttRight
  split
  · exact h
  · unfold requestCancelPttRight checkResult
    split
    · dsimp only
      split <;> simp
    · exact h

theorem Settled.ne_idle (hs : Settled native t t') (h : t.pttGroupStatus.status ≠ .idle) :
    t'.pttGroupStatus.status ≠ .idle := by
  cases hs with
  | kept => exact h
  | speaks => simp
  | starts => simp
  | silenced => simp
  | hungUp =>
    unfold hangupPttCall
    split <;> exact h
  | cancelled => exact cancelPttRight_ne_idle h
  | forgotten => simp

theorem updateOwn_ne_idle (h : t.pttGroupStatus.status ≠ .idle) :
    (t.updateOwnPttState native).pttGroupStatus.status ≠ .idle := by
  obtain ⟨t₁, h₁ | h₁, hs⟩ := updateOwn_settled native t
  · exact hs.ne_idle (h₁ ▸ h)
  · exact hs.ne_idle (h₁ ▸ h)

/-- After an update of a known status, the end of an indication stores the group. -/
theorem endIndication_of_ne_idle (h : t.pttGroupStatus.status ≠ .idle) (groupNum : Bytes)
    (speaker : Option Bytes) :
      t.endIndication groupNum speaker = t.setGroupNum (some groupNum) := by
  unfold endIndication
  dsimp only
  split
  next hi => exact absurd hi h
  next => rfl

end

section
variable {t t' : Terminal} (h : OnlyFloor t t')
include h

theorem OnlyFloor.groupNum : t'.pttGroupStatus.groupNum = t.pttGroupStatus.groupNum := by rw [h]

theorem OnlyFloor.callId : t'.pttGroupStatus.callId = t.pttGroupStatus.callId := by rw [h]

theorem OnlyFloor.callState : t'.callState = t.callState := by rw [h]

theorem OnlyFloor.key : t'.ePttKeyStatus = t.ePttKeyStatus := by rw [h]

theorem OnlyFloor.currentCallState : t'.currentCallState = t.currentCallState := by rw [h]

end

/-! ### Groups, calls and keys -/

section
variable {t : Terminal}

theorem addGroups_eq (groupInfos : List GroupEntry) (t : Terminal) :
    ∃ n, t.addGroups groupInfos = { t with lstGroupData := groupInfos, currGrpNum := n } := by
  unfold addGroups
  dsimp only
  split
  · exact ⟨_, rfl⟩
  · split
    · exact ⟨_, rfl⟩
    · split
      · exact ⟨_, rfl⟩
      · exact ⟨t.currGrpNum, rfl⟩

theorem jniUpdateCallState_eq (cs : CallState) (t : Terminal) :
    ∃ c, t.jniUpdateCallState cs = { t with currentCallState := c } := by
  unfold jniUpdateCallState
  dsimp only
  split <;> exact ⟨_, rfl⟩

theorem storeCall_eq (cs : CallState) (t : Terminal) :
    ∃ i, t.storeCall cs = (t.setCallId i).setCallState cs.callState := by
  unfold storeCall
  split
  · exact ⟨_, rfl⟩
  · exact ⟨t.pttGroupStatus.callId, rfl⟩

theorem answerGroup_eq (t : Terminal) : ∃ n, t.answerGroup = t.setGroupNum n := by
  unfold answerGroup
  split
  · split
    · exact ⟨_, rfl⟩
    · exact ⟨t.pttGroupStatus.groupNum, rfl⟩
  · exact ⟨t.pttGroupStatus.groupNum, rfl⟩

theorem answerSpeaker_keyUp (hk : t.ePttKeyStatus = .up) :
    t.answerSpeaker = if t.isUser t.pttGroupStatus.speakerNum || isEmptyStr t.pttGroupStatus.speakerNum
      then t.setStatus .speaking else t := by
  unfold answerSpeaker
  dsimp only
  split <;> simp [hk]

theorem answerSpeaker_keyDown (hk : t.ePttKeyStatus = .down) :
    t.answerSpeaker = (if t.isUser t.pttGroupStatus.speakerNum ||
      isEmptyStr t.pttGroupStatus.speakerNum then t.setStatus .speaking else t).setSpeakerNum
        (some t.username) := by
  unfold answerSpeaker
  dsimp only
  split <;> simp [hk]

/-- A call that is not handled as the call of the group is the single call, or the held key stores
its id. -/
theorem otherCall_cases (iPttStatus : PttStatus) (cs : CallState) (t : Terminal) :
    t.otherCall iPttStatus cs = t ∨ t.otherCall iPttStatus cs = t.jniUpdateCallState cs ∨
      (t.isPttUIOnTop = false ∧ t.isSingleCallOnTop = false ∧ t.ePttKeyStatus = .down ∧
        (iPttStatus = .free ∨ iPttStatus = .applying ∨ iPttStatus = .idle) ∧
        t.otherCall iPttStatus cs = t.setCallId cs.callId) := by
  unfold otherCall
  cases ht : t.isPttUIOnTop with
  | true =>
    apply Or.imp_right Or.inl
    cases iPttStatus <;> cases hg : t.checkIsGroupNum cs.number <;> simp
  | false =>
    cases hc : t.isSingleCallOnTop with
    | true => exact .inr (.inl (by simp))
    | false =>
      cases hk : t.ePttKeyStatus with
      | up =>
        apply Or.imp_right Or.inl
        cases iPttStatus <;> simp
      | down => cases iPttStatus <;> simp

theorem isbPttErrorShowing_fst (t : Terminal) :
    t.isbPttErrorShowing.1 = (t.bPttErrorShowing && t.ui.topActivity = .alert) := by
  unfold isbPttErrorShowing
  cases hb : t.bPttErrorShowing <;> by_cases ht : t.ui.topActivity = .alert <;> simp [ht]

theorem isbPttErrorShowing_eq (t : Terminal) :
    ∃ b, t.isbPttErrorShowing.2 = t.setBPttErrorShowing b := by
  unfold isbPttErrorShowing
  split
  · exact ⟨_, rfl⟩
  · exact ⟨t.bPttErrorShowing, rfl⟩

/-- Without a single call on the screen an indication goes by its speaker, and a single call that was
not dialled here is forgotten. -/
theorem mInviteIndicate_cases (native : ℤ) (groupNum : Bytes) (speaker : Option Bytes)
    (t : Terminal) :
    ((t.singleCallActive && t.inSingleCall) = true ∧
      t.mInviteIndicate native (some groupNum) speaker =
        (t.note (.mInviteIndicate (some groupNum) speaker)).indicateInCall groupNum speaker) ∨
    ((t.singleCallActive && t.inSingleCall) = false ∧
      ∃ u, (t.singleCallActive = false ∧ u = t.note (.mInviteIndicate (some groupNum) speaker) ∨
        t.singleCallActive = true ∧
          u = (t.note (.mInviteIndicate (some groupNum) speaker)).clearCall) ∧
      (isStrBlank speaker = true ∧ t.mInviteIndicate native (some groupNum) speaker =
          u.indicateFree native groupNum speaker ∨
        isStrBlank speaker = false ∧ t.mInviteIndicate native (some groupNum) speaker =
          u.indicateSpeaker native groupNum speaker)) := by
  unfold mInviteIndicate
  cases hs : t.singleCallActive with
  | true =>
    have hs' : (t.note (.mInviteIndicate (some groupNum) speaker)).singleCallActive = true := hs
    cases hin : t.inSingleCall with
    | true =>
      have hin' : (t.note (.mInviteIndicate (some groupNum) speaker)).inSingleCall = true := hin
      simp [hs', hin']
    | false =>
      have hin' : (t.note (.mInviteIndicate (some groupNum) speaker)).inSingleCall = false := hin
      cases hb : isStrBlank speaker <;> simp [hs', hin']
  | false =>
    have hs' : (t.note (.mInviteIndicate (some groupNum) speaker)).singleCallActive = false := hs
    cases hb : isStrBlank speaker <;> simp [hs']

/-- The state of the call is ending when it is looked at. -/
theorem handleHangup_eq (t : Terminal) :
    t.handleHangup = (t.free.setCallState .ending).hangupPttCall := by
  unfold handleHangup
  exact if_pos ⟨by simp, by simp⟩

/-- Apart from the record of the single call, a number that is dialled changes nothing, unless the
result of the request does. -/
theorem handleMakeCall_eq (native : ℤ) (number : Option Bytes) (t : Terminal) :
    ∃ c b, t.handleMakeCall native number = { t with currentCallState := c, bForceInSC := b } ∨
      t.handleMakeCall native number =
        checkResult native { t with currentCallState := c, bForceInSC := b } := by
  unfold handleMakeCall
  split
  · exact ⟨t.currentCallState, t.bForceInSC, .inl rfl⟩
  · unfold requestMakeCall
    dsimp only
    split
    · exact ⟨{}, false, .inl rfl⟩
    · split
      · refine ⟨{}, false, .inr ?_⟩
        unfold checkResult
        dsimp only
        split_ifs <;> rfl
      · exact ⟨_, _, .inr rfl⟩

/-- An answer and a hang-up are requested, and the record of the single call may be cleared. -/
theorem handleSingleCall_eq (native : ℤ) (e : ℤ → Entry) (t : Terminal) :
    t.handleSingleCall native e = t ∨ ∃ c b, t.handleSingleCall native e =
      { t.note (e t.currentCallState.callId) with currentCallState := c, bForceInSC := b } := by
  unfold handleSingleCall
  dsimp only
  split
  · exact .inl rfl
  · split
    · exact .inr ⟨_, _, rfl⟩
    · exact .inr ⟨t.currentCallState, t.bForceInSC, rfl⟩

/-- At the end of a group's call the speaker is forgotten if there is one. Under a released key a
request is cancelled, and any other status is set by the speaker that is stored. -/
theorem groupEnded_cases (native : ℤ) (iPttStatus : PttStatus) (t : Terminal) :
    (t.groupEnded native iPttStatus).2 = t ∨
    (t.groupEnded native iPttStatus).2 =
      ((t.setSpeakerNum none).setStatus .free).updateOwnPttState native ∨
    (iPttStatus ≠ .speaking ∧
      ((t.groupEnded native iPttStatus).2 =
          ((t.cancelPttRight native).setStatus .canceling).updateOwnPttState native ∨
        (t.groupEnded native iPttStatus).2 = (t.setStatus (if isStrBlank t.pttGroupStatus.speakerNum
          then .free else .listening)).updateOwnPttState native)) := by
  cases hk : t.ePttKeyStatus with
  | up => cases iPttStatus <;> simp [groupEnded, hk]
  | down => cases iPttStatus <;> simp [groupEnded, hk]

/-- A failed call is recorded as the single call or passed over. On the screen of the floor the
state of a group's call is stored, and the floor may be given up. -/
theorem showCallError_cases (cs : CallState) (t : Terminal) :
    ∃ u, t.showCallError cs = (if cs.errorCode = 504 then u.requestHangup cs.callId else u) ∧
      ((t.inSingleCall || !t.checkIsGroupNum cs.number ||
          !(t.ePttKeyStatus = .down || t.isPttUIOnTop)) = true ∧
          (u = t ∨ u = t.jniUpdateCallState cs) ∨
        (t.inSingleCall || !t.checkIsGroupNum cs.number ||
          !(t.ePttKeyStatus = .down || t.isPttUIOnTop)) = false ∧
          (u = t.setCallState cs.callState ∨
            ∃ b, u = (t.free.setBPttErrorShowing b).setCallState cs.callState)) := by
  unfold showCallError
  refine ⟨_, rfl, ?_⟩
  cases hin : t.inSingleCall || !t.checkIsGroupNum cs.number with
  | true =>
    left
    simp only [if_true, Bool.true_or, true_and]
    split
    · exact (ite_eq_or_eq _ _ _).symm
    · exact (ite_eq_or_eq _ _ _).symm
    · exact .inr rfl
  | false =>
    simp only [Bool.false_eq_true, if_false, Bool.false_or]
    cases hk : t.ePttKeyStatus = .down || t.isPttUIOnTop with
    | true =>
      simp only [if_true, Bool.not_true, true_and]
      right
      split
      · right
        split
        · exact ⟨_, rfl⟩
        · exact ⟨t.bPttErrorShowing, rfl⟩
      · exact .inl rfl
    | false => simp

/-- A pressed key is down, and sends an application at most. -/
theorem handlePttDown_cases (t : Terminal) :
    t.handlePttDown = t ∨ t.handlePttDown = t.sendPttCommand .applyPttRight ∨
      t.handlePttDown = { t with ePttKeyStatus := .down } ∨
      t.handlePttDown = { t with ePttKeyStatus := .down }.sendPttCommand .applyPttRight := by
  unfold handlePttDown
  cases hs : t.singleCallActive with
  | true => exact .inl (by simp)
  | false =>
    cases hk : t.ePttKeyStatus with
    | down =>
      by_cases hu : t.pttGroupStatus.speakerNum = some t.username <;>
        cases hp : t.pttGroupStatus.status <;> simp [hu]
    | up => cases hp : t.pttGroupStatus.status <;> simp [hp]

end

end Terminal

end PttTerminal
