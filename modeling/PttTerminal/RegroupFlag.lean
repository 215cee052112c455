import PttTerminal.FloorUpdate
import PttTerminal.TerminalEvents

/-!
# The list, the selected group and the flag

What the terminal knows of its groups is the list, the number of the selected group and the flag of
a regroup message, which says that the next list was announced. Of all that the terminal handles,
only the list, the selection and that message change them. The flag is taken back when the list
comes.
-/
namespace PttTerminal

namespace Terminal

/-- The list, the selected number and the flag. -/
def groupData (t : Terminal) : List GroupEntry × Option Bytes × Bool :=
  (t.lstGroupData, t.currGrpNum, t.bDynamic)

variable {t t' : Terminal} {native : ℤ}

/-! ### Setters -/

@[simp]
theorem groupData_note (e : Entry) (t : Terminal) : (t.note e).groupData = t.groupData := rfl

@[simp]
theorem groupData_setStatus (s : PttStatus) (t : Terminal) :
    (t.setStatus s).groupData = t.groupData := rfl

@[simp]
theorem groupData_setSpeakerNum (n : Option Bytes) (t : Terminal) :
    (t.setSpeakerNum n).groupData = t.groupData := rfl

@[simp]
theorem groupData_setGroupNum (n : Option Bytes) (t : Terminal) :
    (t.setGroupNum n).groupData = t.groupData := rfl

@[simp]
theorem groupData_setCallId (i : ℤ) (t : Terminal) : (t.setCallId i).groupData = t.groupData := rfl

@[simp]
theorem groupData_setRejectReason (r : ℤ) (t : Terminal) :
    (t.setRejectReason r).groupData = t.groupData := rfl

@[simp]
theorem groupData_setCallState (s : CallStatus) (t : Terminal) :
    (t.setCallState s).groupData = t.groupData := rfl

@[simp]
theorem groupData_setBPttErrorShowing (b : Bool) (t : Terminal) :
    (t.setBPttErrorShowing b).groupData = t.groupData := rfl

@[simp]
theorem groupData_sendPttCommand (c : Command) (t : Terminal) :
    (t.sendPttCommand c).groupData = t.groupData := rfl

@[simp]
theorem groupData_setCurrentPttState (src : PttGroupStatus) (t : Terminal) :
    (t.setCurrentPttState src).groupData = t.groupData := rfl

@[simp]
theorem groupData_clear (t : Terminal) : t.clear.groupData = t.groupData := rfl

@[simp]
theorem groupData_clearCall (t : Terminal) : t.clearCall.groupData = t.groupData := rfl

@[simp]
theorem groupData_free (t : Terminal) : t.free.groupData = t.groupData := rfl

theorem OnlyFloor.groupData (h : OnlyFloor t t') : t'.groupData = t.groupData := by
  unfold OnlyFloor at h
  rw [h]
  rfl

/-! ### Requests and commands -/

@[simp]
theorem groupData_checkResult (result : ℤ) (t : Terminal) :
    (t.checkResult result).groupData = t.groupData :=
  (onlyFloor_checkResult result t).groupData

@[simp]
theorem groupData_cancelPttRight (native : ℤ) (t : Terminal) :
    (t.cancelPttRight native).groupData = t.groupData :=
  (onlyFloor_cancelPttRight native t).groupData

@[simp]
theorem groupData_hangupPttCall (t : Terminal) : t.hangupPttCall.groupData = t.groupData :=
  (onlyFloor_hangupPttCall t).groupData

@[simp]
theorem groupData_updateOwn (native : ℤ) (t : Terminal) :
    (t.updateOwnPttState native).groupData = t.groupData :=
  (onlyFloor_updateOwn native t).groupData

@[simp]
theorem groupData_isbPttErrorShowing (t : Terminal) :
    t.isbPttErrorShowing.2.groupData = t.groupData := by
  unfold isbPttErrorShowing
  split <;> rfl

@[simp]
theorem groupData_requestHangup (callId : ℤ) (t : Terminal) :
    (t.requestHangup callId).groupData = t.groupData := by
  unfold requestHangup
  split <;> rfl

@[simp]
theorem groupData_applyPttRight (native : ℤ) (t : Terminal) :
    (t.applyPttRight native).groupData = t.groupData := by
  unfold applyPttRight requestApplyPttRight
  split
  · rfl
  · dsimp only
    split_ifs <;> simp

theorem groupData_handleApply (native : ℤ) (t : Terminal) :
    (t.handleApply native).groupData = t.groupData := by
  unfold handleApply
  dsimp only
  split_ifs <;> simp

theorem groupData_handleMakeCall (native : ℤ) (number : Option Bytes) (t : Terminal) :
    (t.handleMakeCall native number).groupData = t.groupData := by
  obtain ⟨c, b, hc | hc⟩ := handleMakeCall_eq native number t
  · rw [hc]
    rfl
  · rw [hc, groupData_checkResult]
    rfl

theorem groupData_handleSingleCall (native : ℤ) (e : ℤ → Entry) (t : Terminal) :
    (t.handleSingleCall native e).groupData = t.groupData := by
  obtain hs | ⟨c, b, hs⟩ := handleSingleCall_eq native e t
  · rw [hs]
  · rw [hs]
    rfl

theorem groupData_handleHangup (t : Terminal) : t.handleHangup.groupData = t.groupData := by
  simp [handleHangup_eq]

theorem groupData_handleClose (t : Terminal) : t.handleClose.groupData = t.groupData := by
  unfold handleClose
  dsimp only
  split <;> simp

@[simp]
theorem groupData_handleCommand (native : ℤ) (c : Command) (t : Terminal) :
    (t.handleCommand native c).groupData = t.groupData := by
  unfold handleCommand
  split
  · rfl
  · cases c with
    | applyPttRight => exact groupData_handleApply native t
    | hangupPttCall => exact groupData_handleHangup t
    | closePtt => exact groupData_handleClose t
    | makeCall number => exact groupData_handleMakeCall native number t
    | answerCall | hangupCall => exact groupData_handleSingleCall native _ t
    | openPttUi =>
      dsimp only
      split <;> simp
    | _ => simp [handleCancel]

/-! ### The floor -/

@[simp]
theorem groupData_jniUpdatePttState (native : ℤ) (obj : PttGroupStatus) (t : Terminal) :
    (t.jniUpdatePttState native obj).groupData = t.groupData := by
  have hstore : ∀ {s t₁}, t.storePttState obj = some (s, t₁) → t₁.groupData = t.groupData := by
    intro s t₁ h
    unfold storePttState at h
    split at h
    · split_ifs at h <;> cases h <;> rfl
    · dsimp only at h
      split_ifs at h
      cases h
      rfl
    · dsimp only at h
      split_ifs at h
      cases h
      rfl
    · cases h
      rfl
  have hreset : ∀ s n (t₁ : Terminal), (t₁.resetSpeaking s n).groupData = t₁.groupData := by
    intro s n t₁
    unfold resetSpeaking
    split <;> rfl
  have hcheck : ∀ n (t₁ : Terminal), (t₁.checkSpeaker n).groupData = t₁.groupData := by
    intro n t₁
    unfold checkSpeaker
    dsimp only
    split_ifs <;> simp
  have hkey : ∀ t₁ : Terminal, (t₁.checkKeyUp native).groupData = t₁.groupData := by
    intro t₁
    unfold checkKeyUp
    split
    · rfl
    · split
      · split_ifs <;> simp
      · simp
      · simp
      · split_ifs <;> simp
      · rfl
  unfold jniUpdatePttState
  split
  · rfl
  · next heq =>
    split
    · exact hstore heq
    · rw [hkey, hcheck, hreset, hstore heq]

@[simp]
theorem groupData_endIndication (groupNum : Bytes) (speaker : Option Bytes) (t : Terminal) :
    (t.endIndication groupNum speaker).groupData = t.groupData := by
  unfold endIndication
  dsimp only
  split <;> simp

theorem groupData_mInviteIndicate (native : ℤ) (groupNum speaker : Option Bytes) (t : Terminal) :
    (t.mInviteIndicate native groupNum speaker).groupData = t.groupData := by
  have hcall : ∀ n (t₁ : Terminal), (t₁.indicateInCall n speaker).groupData = t₁.groupData := by
    intro n t₁
    unfold indicateInCall
    split <;> simp
  have hfree : ∀ n (t₁ : Terminal), (t₁.indicateFree native n speaker).groupData = t₁.groupData := by
    intro n t₁
    unfold indicateFree
    split
    · rfl
    · rfl
    · simp
    · dsimp only
      split_ifs <;> simp
  have hspeaker : ∀ n (t₁ : Terminal),
      (t₁.indicateSpeaker native n speaker).groupData = t₁.groupData := by
    intro n t₁
    unfold indicateSpeaker
    dsimp only
    split_ifs <;> simp
  cases groupNum with
  | none => rfl
  | some groupNum =>
    obtain ⟨-, hi⟩ | ⟨-, u, hu, hi⟩ := mInviteIndicate_cases native groupNum speaker t
    · rw [hi, hcall]
      rfl
    · have hk : u.groupData = t.groupData := by
        obtain ⟨-, rfl⟩ | ⟨-, rfl⟩ := hu
        · rfl
        · rfl
      obtain ⟨-, hi⟩ | ⟨-, hi⟩ := hi
      · rw [hi, hfree, hk]
      · rw [hi, hspeaker, hk]

/-! ### Groups and keys -/

@[simp]
theorem groupData_resumeApply (native : ℤ) (t : Terminal) :
    (t.resumeApply native).groupData = t.groupData := by
  unfold resumeApply
  split
  · rfl
  · split
    · rfl
    · dsimp only
      split <;> simp

/-- A list of groups only takes the flag back. -/
theorem bDynamic_jniAddGroupInfo {gs : List GroupEntry}
    (h : (t.jniAddGroupInfo native gs).bDynamic = true) : t.bDynamic = true := by
  have hadd : (t.addGroups gs).bDynamic = t.bDynamic := by
    obtain ⟨n, hn⟩ := addGroups_eq gs t
    rw [hn]
  have hregroup : ∀ t₁ : Terminal, (t₁.regroup gs).bDynamic = true → t₁.bDynamic = true := by
    intro t₁ h
    cases hflag : t₁.bDynamic with
    | true => rfl
    | false => simp [regroup, hflag] at h
  have hresume : ((t.addGroups gs).resumeApply native).bDynamic = (t.addGroups gs).bDynamic :=
    congrArg (fun d => d.2.2) (groupData_resumeApply native _)
  rw [← hadd, ← hresume]
  exact hregroup _ h

theorem groupData_handlePttDown (t : Terminal) : t.handlePttDown.groupData = t.groupData := by
  unfold handlePttDown
  split
  · rfl
  · split
    · split
      all_goals first | rfl | split_ifs <;> simp
    · dsimp only
      split <;> rfl

theorem groupData_resumePttUp (t : Terminal) : t.resumePttUp.groupData = t.groupData := by
  unfold resumePttUp
  dsimp only
  split <;> rfl

theorem groupData_receivePttRightResponse (native : ℤ) (s : PttStatus) (t : Terminal) :
    (t.receivePttRightResponse native s).groupData = t.groupData := by
  unfold receivePttRightResponse
  dsimp only
  split
  · rfl
  · split
    · simp
    · simp
    · simp
    · split_ifs <;> rfl
    · simp

/-! ### Calls -/

@[simp]
theorem groupData_jniUpdateCallState (cs : CallState) (t : Terminal) :
    (t.jniUpdateCallState cs).groupData = t.groupData := by
  obtain ⟨c, hc⟩ := jniUpdateCallState_eq cs t
  rw [hc]
  rfl

theorem groupData_showCallError (cs : CallState) (t : Terminal) :
    (t.showCallError cs).groupData = t.groupData := by
  have hcall : ∀ t₁ : Terminal, (if cs.errorCode = 504 then t₁.requestHangup cs.callId
      else t₁).groupData = t₁.groupData := by
    intro t₁
    split <;> simp
  obtain ⟨u, hu, ⟨-, rfl | rfl⟩ | ⟨-, rfl | ⟨b, rfl⟩⟩⟩ := showCallError_cases cs t
  · rw [hu, hcall]
  · rw [hu, hcall, groupData_jniUpdateCallState]
  · rw [hu, hcall]
    rfl
  · rw [hu, hcall]
    rfl

theorem groupData_groupTalking (s : PttStatus) (cs : CallState) (t : Terminal) :
    (t.groupTalking native s cs).groupData = t.groupData := by
  have hanswer : ∀ t₁ : Terminal, t₁.answerSpeaker.groupData = t₁.groupData := by
    intro t₁
    unfold answerSpeaker
    dsimp only
    split_ifs <;> simp
  unfold groupTalking
  split
  · rfl
  · split
    · obtain ⟨n, hn⟩ := answerGroup_eq t
      simp [groupAnswered, hanswer, hn]
    · simp

theorem groupData_groupEnded (s : PttStatus) (t : Terminal) :
    (t.groupEnded native s).2.groupData = t.groupData := by
  obtain he | he | ⟨-, he | he⟩ := groupEnded_cases native s t
  · rw [he]
  · simp [he]
  · simp [he]
  · simp [he]

theorem groupData_groupCall (s : PttStatus) (cs : CallState) (t : Terminal) :
    (t.groupCall native s cs).2.groupData = t.groupData := by
  obtain ⟨i, hi⟩ := storeCall_eq cs t
  have hringing : ∀ t₁ : Terminal, (t₁.groupRinging s cs).2.groupData = t₁.groupData := by
    intro t₁
    unfold groupRinging
    split
    all_goals first | rfl | (dsimp only; split <;> simp)
  unfold groupCall
  dsimp only
  split
  · simp [hringing, hi]
  · simp [groupData_groupTalking, hi]
  · simp [groupData_groupEnded, hi]
  · simp [hi]

theorem groupData_otherCall (s : PttStatus) (cs : CallState) (t : Terminal) :
    (t.otherCall s cs).groupData = t.groupData := by
  obtain hc | hc | ⟨-, -, -, -, hc⟩ := otherCall_cases s cs t
  · rw [hc]
  · rw [hc, groupData_jniUpdateCallState]
  · rw [hc]
    rfl

theorem groupData_showCallState (cs : CallState) (t : Terminal) :
    (t.showCallState native cs).groupData = t.groupData := by
  unfold showCallState
  dsimp only
  split_ifs
  · simp [groupData_showCallError]
  · simp
  · simp [groupData_groupCall]
  · simp [groupData_otherCall, groupData_groupCall]
  · simp [groupData_otherCall]

/-! ### The events -/

theorem groupData_deliver (native : ℤ) (t : Terminal) : (t.deliver native).groupData = t.groupData := by
  unfold deliver
  split
  · rfl
  · rw [groupData_handleCommand]
    rfl

/-- All but the list, the selection and the message. -/
def leavesGroups : Event → Bool
  | .receiveGroupInfo _ _ | .receiveMessage _ | .setCurrentGrp _ => false
  | _ => true

theorem groupData_handle {e : Event} (h : leavesGroups e = true) (t : Terminal) :
    (e.handle t).groupData = t.groupData := by
  cases e with
  | receiveGroupInfo native gs => cases h
  | receiveMessage number => cases h
  | setCurrentGrp n => cases h
  | keyDown => exact groupData_handlePttDown t
  | keyUpResume => exact groupData_resumePttUp t
  | deliver native => exact groupData_deliver native t
  | mInviteIndicate native groupNum speaker =>
    exact groupData_mInviteIndicate native groupNum speaker t
  | receivePttRightResponse native s => exact groupData_receivePttRightResponse native s t
  | updatePttState native obj =>
    exact (groupData_jniUpdatePttState native obj _).trans (groupData_note _ t)
  | showCallState native cs => exact groupData_showCallState cs t
  | _ => rfl

/-- A message leaves the list and the selection. -/
theorem groups_jniReceiveMessage (number : Option Bytes) (t : Terminal) :
    (t.jniReceiveMessage number).lstGroupData = t.lstGroupData ∧
      (t.jniReceiveMessage number).currGrpNum = t.currGrpNum := by
  unfold jniReceiveMessage
  split <;> exact ⟨rfl, rfl⟩

/-- Only a list changes the list. -/
theorem lstGroupData_handle {e : Event} (h : e.keepsGroups = true) (t : Terminal) :
    (e.handle t).lstGroupData = t.lstGroupData := by
  cases hleaves : leavesGroups e with
  | true => exact congrArg Prod.fst (groupData_handle hleaves t)
  | false =>
    cases e with
    | receiveGroupInfo native gs => cases h
    | receiveMessage number => exact (groups_jniReceiveMessage number t).1
    | setCurrentGrp n => rfl
    | _ => cases hleaves

/-- Whatever the terminal handles, only a message without a number sets the flag. -/
theorem bDynamic_handle {e : Event} (h : t.bDynamic = false) (h' : (e.handle t).bDynamic = true) :
    ∃ number, e = .receiveMessage number ∧ isStrBlank number = true := by
  have hsame : (e.handle t).bDynamic ≠ t.bDynamic := by rw [h, h']; simp
  cases hleaves : leavesGroups e with
  | true => exact absurd (congrArg (fun d => d.2.2) (groupData_handle hleaves t)) hsame
  | false =>
    cases e with
    | receiveMessage number =>
      refine ⟨number, rfl, ?_⟩
      by_contra hblank
      exact hsame (by simp [Event.handle, jniReceiveMessage, hblank])
    | receiveGroupInfo native gs =>
      rw [bDynamic_jniAddGroupInfo h'] at h
      cases h
    | setCurrentGrp n => exact absurd rfl hsame
    | _ => cases hleaves

end Terminal

end PttTerminal
