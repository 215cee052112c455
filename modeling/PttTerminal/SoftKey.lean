import PttTerminal.CallDesk

/-!
# The soft key

The button on the screen sends one broadcast when it is pressed for long and another when it is
released, and the receiver of the keys sets the key of the terminal. `PairsKey` are the steps after
which a key that is down, or about to be, has an end on its way. It is broken by a long press that
is taken away from the button: no broadcast tells of its end.
-/
namespace PttTerminal

open Runs

/-- The gesture on the button, if there is one. -/
inductive Touch where
  | none
  | pressed
  | longPressed
  deriving Repr, DecidableEq

/-- `MotionEvent`. -/
inductive MotionAction where
  | down
  | move
  | up
  | cancel
  deriving Repr, DecidableEq

/-- The terminal, the gesture, and the broadcasts of the button that were not received yet. -/
structure SoftKey where
  terminal : Terminal := {}
  touch : Touch := .none
  broadcasts : List PttKey := []
  deriving Repr, DecidableEq

namespace SoftKey

/-! ### `PTTActivity` -/

def sendBroadcast (key : PttKey) (k : SoftKey) : SoftKey :=
  { k with broadcasts := k.broadcasts ++ [key] }

def onLongClick (k : SoftKey) : SoftKey := { k with touch := .longPressed }.sendBroadcast .down

/-- Of the actions, only the release of the button is looked at. -/
def onTouch (action : MotionAction) (k : SoftKey) : SoftKey :=
  let k := match action with
    | .down => { k with touch := .pressed }
    | .move => k
    | .up | .cancel => { k with touch := .none }
  match action with
  | .up => k.sendBroadcast .up
  | _ => k

/-! ### `PTTKeyReceiver.onReceive` -/

def onReceive (k : SoftKey) : SoftKey :=
  match k.broadcasts with
  | [] => k
  | key :: keys =>
    { k with
      broadcasts := keys
      terminal := match key with
        | .down => k.terminal.handlePttDown
        | .up => k.terminal.handlePttUp }

end SoftKey

inductive SoftKeyEvent where
  | onTouch (action : MotionAction)
  | onLongClick
  | onReceive
  | terminal (e : Event)
  deriving Repr, DecidableEq

namespace SoftKeyEvent

/-- There is one gesture at a time, with one long press at most. The main thread brings the touches
and the broadcasts, and there is no other key. -/
def enabled (k : SoftKey) : SoftKeyEvent → Bool
  | .onTouch .down => k.touch = .none && !k.terminal.releasing
  | .onTouch _ => k.touch ≠ .none && !k.terminal.releasing
  | .onLongClick => k.touch = .pressed && !k.terminal.releasing
  | .onReceive => !k.broadcasts.isEmpty && !k.terminal.releasing
  | .terminal e => e ≠ .keyDown && e ≠ .keyUp && e.enabled k.terminal

def handle (k : SoftKey) : SoftKeyEvent → SoftKey
  | .onTouch action => k.onTouch action
  | .onLongClick => k.onLongClick
  | .onReceive => k.onReceive
  | .terminal e => { k with terminal := e.handle k.terminal }

end SoftKeyEvent

/-- The service has started, nobody touches the button, and no broadcast was sent. -/
def SoftKey.Fresh (k : SoftKey) : Prop :=
  k.terminal.Fresh ∧ k.touch = .none ∧ k.broadcasts = []

def softKey : System SoftKey SoftKeyEvent where
  init := SoftKey.Fresh
  enabled k e := e.enabled k
  next k e := e.handle k

instance (k : SoftKey) (e : SoftKeyEvent) : Decidable (softKey.enabled k e) :=
  inferInstanceAs (Decidable (e.enabled k = true))

theorem fresh_softKey : SoftKey.Fresh { terminal := .ready } := ⟨fresh_ready, rfl, rfl⟩

/-! ### A key that is up stays up until it is pressed -/

namespace Terminal

section
variable {native : ℤ} {t t' : Terminal} {s : PttStatus} {cs : CallState}

theorem SameDesk.key (h : SameDesk t t') : t'.ePttKeyStatus = t.ePttKeyStatus := h.2.2.2.1

def KeyUp (t : Terminal) : Prop := t.ePttKeyStatus = .up

theorem keyUp_clear (t : Terminal) : t.clear.KeyUp := rfl

theorem KeyUp.sameDesk (h : t.KeyUp) (hd : SameDesk t t') : t'.KeyUp := hd.key.trans h

theorem KeyUp.onlyFloor (h : t.KeyUp) (ho : OnlyFloor t t') : t'.KeyUp := ho.key.trans h

theorem KeyUp.hangupPttCall (h : t.KeyUp) : t.hangupPttCall.KeyUp :=
  h.onlyFloor (onlyFloor_hangupPttCall t)

theorem KeyUp.updateOwn (h : t.KeyUp) (native : ℤ) : (t.updateOwnPttState native).KeyUp :=
  h.onlyFloor (onlyFloor_updateOwn native t)

theorem KeyUp.updateStatus (h : t.KeyUp) (s : PttStatus) (native : ℤ) :
    ((t.setStatus s).updateOwnPttState native).KeyUp := by
  have hs : (t.setStatus s).KeyUp := h
  exact hs.updateOwn native

theorem KeyUp.isbPttErrorShowing (h : t.KeyUp) : t.isbPttErrorShowing.2.KeyUp := by
  obtain ⟨b, hb⟩ := isbPttErrorShowing_eq t
  rw [hb]
  exact h

theorem KeyUp.handleMakeCall (h : t.KeyUp) (native : ℤ) (number : Option Bytes) :
    (t.handleMakeCall native number).KeyUp := by
  obtain ⟨c, b, hc | hc⟩ := handleMakeCall_eq native number t
  · rw [hc]
    exact h
  · have hb : ({ t with currentCallState := c, bForceInSC := b } : Terminal).KeyUp := h
    rw [hc]
    exact hb.onlyFloor (onlyFloor_checkResult native _)

theorem KeyUp.handleSingleCall (h : t.KeyUp) (native : ℤ) (e : ℤ → Entry) :
    (t.handleSingleCall native e).KeyUp := by
  obtain hs | ⟨c, b, hs⟩ := handleSingleCall_eq native e t
  · rw [hs]
    exact h
  · rw [hs]
    exact h

theorem KeyUp.handleCommand (h : t.KeyUp) (native : ℤ) (c : Command) :
    (t.handleCommand native c).KeyUp := by
  unfold Terminal.handleCommand
  split
  · exact h
  · cases c with
    | applyPttRight => exact h.sameDesk (sameDesk_handleApply native t)
    | cancelPttRight =>
      exact h.onlyFloor ((onlyFloor_setStatus _ t).trans (onlyFloor_cancelPttRight native _))
    | hangupPttCall => exact h.sameDesk (sameDesk_handleHangup t)
    | closePtt => exact keyUp_clear _
    | makeCall number => exact h.handleMakeCall native number
    | answerCall => exact h.handleSingleCall native _
    | hangupCall => exact h.handleSingleCall native _
    | updatePttUi => exact h.isbPttErrorShowing
    | openPttUi =>
      dsimp only
      split
      · exact h
      · exact h.isbPttErrorShowing
    | startApp => exact h
    | sendDtmf => exact h

/-! Indications -/

theorem KeyUp.endIndication (h : t.KeyUp) (groupNum : Bytes) (speaker : Option Bytes) :
    (t.endIndication groupNum speaker).KeyUp := by
  unfold Terminal.endIndication
  dsimp only
  split <;> exact h

theorem KeyUp.indicateFree (h : t.KeyUp) (native : ℤ) (groupNum : Bytes) (speaker : Option Bytes) :
    (t.indicateFree native groupNum speaker).KeyUp := by
  unfold Terminal.indicateFree
  split
  · exact h
  · exact h
  · exact h.hangupPttCall
  · refine KeyUp.endIndication (KeyUp.updateOwn ?_ native) groupNum speaker
    split
    · exact h.hangupPttCall
    · exact h

theorem KeyUp.indicateSpeaker (h : t.KeyUp) (native : ℤ) (groupNum : Bytes)
    (speaker : Option Bytes) : (t.indicateSpeaker native groupNum speaker).KeyUp := by
  have hl : ((t.setStatus .listening).setSpeakerNum speaker).KeyUp := h
  unfold Terminal.indicateSpeaker
  dsimp only
  split
  · exact (hl.updateStatus .speaking native).endIndication _ _
  · split
    · exact hl.updateStatus _ native
    · exact (hl.updateStatus .listening native).endIndication _ _

theorem KeyUp.indicateInCall (h : t.KeyUp) (groupNum : Bytes) (speaker : Option Bytes) :
    (t.indicateInCall groupNum speaker).KeyUp := by
  unfold Terminal.indicateInCall
  split <;> exact h

theorem KeyUp.mInviteIndicate (h : t.KeyUp) (native : ℤ) (groupNum speaker : Option Bytes) :
    (t.mInviteIndicate native groupNum speaker).KeyUp := by
  have hn : (t.note (.mInviteIndicate groupNum speaker)).KeyUp := h
  cases groupNum with
  | none => exact keyUp_clear t
  | some groupNum =>
    obtain ⟨-, hi⟩ | ⟨-, u, hu, hi⟩ := mInviteIndicate_cases native groupNum speaker t
    · rw [hi]
      exact hn.indicateInCall groupNum speaker
    · have hk : u.KeyUp := by
        obtain ⟨-, rfl⟩ | ⟨-, rfl⟩ := hu
        · exact h
        · exact h
      obtain ⟨-, hi⟩ | ⟨-, hi⟩ := hi
      · rw [hi]
        exact hk.indicateFree native groupNum speaker
      · rw [hi]
        exact hk.indicateSpeaker native groupNum speaker

/-! Responses and calls -/

/-- A refusal sets the key down again, if it was. -/
theorem KeyUp.receivePttRightResponse (h : t.KeyUp) (native : ℤ) (s : PttStatus) :
    (t.receivePttRightResponse native s).KeyUp := by
  have hn : (t.note (.response s)).KeyUp := h
  unfold Terminal.receivePttRightResponse
  dsimp only
  split
  · exact h
  · split
    · exact hn.updateStatus _ native
    · exact hn.updateStatus _ native
    · exact hn.updateStatus _ native
    · split
      next hd =>
        have hd' : t.ePttKeyStatus = .down := hd
        exact absurd (h.symm.trans hd') (by decide)
      next => exact keyUp_clear _
    · exact hn.updateStatus _ native

theorem KeyUp.stored (h : t.KeyUp) {obj : PttGroupStatus} {r : Option Bytes × Terminal}
    (hr : t.storePttState obj = some r) : r.2.KeyUp := by
  unfold storePttState at hr
  split at hr
  · cases hr
    dsimp only
    split <;> exact h
  · split at hr
    · cases hr
    · cases hr
      exact h
  · split at hr
    · cases hr
    · cases hr
      exact h
  · cases hr
    exact h

theorem KeyUp.checkSpeaker (h : t.KeyUp) (speaker : Option Bytes) :
    (t.checkSpeaker speaker).KeyUp := by
  unfold Terminal.checkSpeaker
  split
  · split
    · dsimp only
      split
      · exact h.hangupPttCall
      · exact h
    · exact h
  · exact h

theorem KeyUp.checkKeyUp (h : t.KeyUp) (native : ℤ) : (t.checkKeyUp native).KeyUp := by
  unfold Terminal.checkKeyUp
  split
  · exact h
  · split
    · split
      · exact h.hangupPttCall
      · exact h
    · exact h.onlyFloor (onlyFloor_cancelPttRight native t)
    · exact h.onlyFloor (onlyFloor_cancelPttRight native t)
    · split <;> exact h
    · exact h

theorem KeyUp.jniUpdatePttState (h : t.KeyUp) (native : ℤ) (obj : PttGroupStatus) :
    (t.jniUpdatePttState native obj).KeyUp := by
  unfold Terminal.jniUpdatePttState
  split
  · exact h
  next speaker t₁ hr =>
    have h₁ : t₁.KeyUp := h.stored hr
    split
    · exact h₁
    · have hs : (t₁.resetSpeaking obj.status speaker).KeyUp := by
        unfold resetSpeaking
        split <;> exact h₁
      exact (hs.checkSpeaker speaker).checkKeyUp native

theorem KeyUp.jniUpdateCallState (h : t.KeyUp) (cs : CallState) :
    (t.jniUpdateCallState cs).KeyUp := by
  obtain ⟨c, hc⟩ := jniUpdateCallState_eq cs t
  rw [hc]
  exact h

theorem KeyUp.requestHangup (h : t.KeyUp) (callId : ℤ) : (t.requestHangup callId).KeyUp :=
  h.sameDesk (sameDesk_requestHangup callId t)

theorem KeyUp.otherCall (h : t.KeyUp) (s : PttStatus) (cs : CallState) :
    (t.otherCall s cs).KeyUp := by
  obtain hc | hc | ⟨-, -, -, -, hc⟩ := otherCall_cases s cs t
  · rw [hc]
    exact h
  · rw [hc]
    exact h.jniUpdateCallState cs
  · rw [hc]
    exact h

theorem KeyUp.showCallError (h : t.KeyUp) (cs : CallState) : (t.showCallError cs).KeyUp := by
  have hend : ∀ u : Terminal, u.KeyUp →
      (if cs.errorCode = 504 then u.requestHangup cs.callId else u).KeyUp := fun u hu => by
    split
    · exact hu.requestHangup cs.callId
    · exact hu
  obtain ⟨u, hu, ⟨-, rfl | rfl⟩ | ⟨-, rfl | ⟨b, rfl⟩⟩⟩ := showCallError_cases cs t
  · rw [hu]
    exact hend _ h
  · rw [hu]
    exact hend _ (h.jniUpdateCallState cs)
  · rw [hu]
    exact hend _ h
  · rw [hu]
    exact hend _ h

theorem KeyUp.showCallState (h : t.KeyUp) (native : ℤ) (cs : CallState) :
    (t.showCallState native cs).KeyUp := by
  have hn : (t.note (.callState cs)).KeyUp := h
  unfold Terminal.showCallState
  dsimp only
  split
  · exact hn.showCallError cs
  · split
    · split
      · exact hn.jniUpdateCallState cs
      · have hg := hn.sameDesk (sameDesk_groupCall native t.pttGroupStatus.status cs _)
        split
        · exact hg
        · exact hg.otherCall _ cs
    · exact hn.otherCall _ cs

/-! Groups -/

theorem KeyUp.resumeApply (h : t.KeyUp) (native : ℤ) : (t.resumeApply native).KeyUp := by
  unfold Terminal.resumeApply
  split
  · exact h
  · split
    · exact keyUp_clear t
    next g _ =>
      have hg : (t.setGroupNum (some g.number)).KeyUp := h
      dsimp only
      split
      · exact hg.handleCommand native _
      · exact h

theorem KeyUp.regroup (h : t.KeyUp) (groupInfos : List GroupEntry) :
    (t.regroup groupInfos).KeyUp := by
  have hleave : ∀ t : Terminal, (Terminal.regroup.leave t).KeyUp := fun _ => rfl
  unfold Terminal.regroup
  split
  · exact h
  · split
    · exact h
    · split
      · exact hleave t
      · split
        · exact h
        · split
          · exact hleave t
          · exact h

theorem KeyUp.jniAddGroupInfo (h : t.KeyUp) (native : ℤ) (groupInfos : List GroupEntry) :
    (t.jniAddGroupInfo native groupInfos).KeyUp := by
  obtain ⟨n, hn⟩ := addGroups_eq groupInfos t
  have ha : (t.addGroups groupInfos).KeyUp := by
    rw [hn]
    exact h
  exact (ha.resumeApply native).regroup groupInfos

/-! Keys and events -/

theorem KeyUp.resumePttUp (h : t.KeyUp) : t.resumePttUp.KeyUp := by
  unfold Terminal.resumePttUp
  dsimp only
  split <;> exact h

theorem KeyUp.deliver (h : t.KeyUp) (native : ℤ) : (t.deliver native).KeyUp := by
  unfold Terminal.deliver
  split
  · exact h
  next cs _ =>
    have hc : ({ t with commands := cs } : Terminal).KeyUp := h
    exact hc.handleCommand native _

/-- Only a pressed key sets a key down that is up. -/
theorem KeyUp.event (h : t.KeyUp) {e : Event} (he : e ≠ .keyDown) : (e.handle t).KeyUp := by
  cases e with
  | keyDown => exact absurd rfl he
  | keyUp => rfl
  | keyUpResume => exact h.resumePttUp
  | deliver native => exact h.deliver native
  | sendCommand c => exact h
  | mInviteIndicate native groupNum speaker => exact h.mInviteIndicate native groupNum speaker
  | mByeIndicate => exact keyUp_clear t
  | receivePttRightResponse native s => exact h.receivePttRightResponse native s
  | updatePttState native obj =>
    have hn : (t.note (.response obj.status)).KeyUp := h
    exact hn.jniUpdatePttState native obj
  | showCallState native cs => exact h.showCallState native cs
  | receiveGroupInfo native gs => exact h.jniAddGroupInfo native gs
  | receiveMessage number =>
    show (t.jniReceiveMessage number).KeyUp
    unfold jniReceiveMessage
    split <;> exact h
  | setCurrentGrp n => exact h
  | clear => exact keyUp_clear t
  | showUi ui => exact h
  | alert b => exact h
  | register b => exact h
  | setSingleCall s => exact h
  | leaveSingleCall s => exact h
  | clearSingleCall => exact h

end

end Terminal

/-! ### Every long press ends -/

namespace SoftKey

/-- A key that nobody touches, and that nothing is on its way to, is up. -/
def Released (k : SoftKey) : Prop :=
  k.touch = .none → k.broadcasts = [] → k.terminal.ePttKeyStatus = .up

/-- A long press is taken away only where the key stayed up. -/
def pairsKey (k : SoftKey) : SoftKeyEvent → Bool
  | .onTouch .cancel => k.touch ≠ .longPressed ||
      (k.terminal.ePttKeyStatus = .up && .down ∉ k.broadcasts)
  | _ => true

/-- The key is up and stays so, or the release of the button is the last broadcast. -/
def Ends (k : SoftKey) : Prop :=
  k.terminal.ePttKeyStatus = .up ∧ .down ∉ k.broadcasts ∨ k.broadcasts.getLast? = some .up

/-- Without a long press, the key has its end. -/
def Paired (k : SoftKey) : Prop := k.touch ≠ .longPressed → k.Ends

section
variable {k : SoftKey}

theorem Paired.released (h : k.Paired) : k.Released := by
  intro ht hb
  obtain hup | hlast := h (by simp [ht])
  · exact hup.1
  · simp [hb] at hlast

/-- A broadcast that is received leaves the later ones, and the release is later than each press. -/
theorem Ends.onReceive (h : k.Ends) : k.onReceive.Ends := by
  unfold SoftKey.onReceive
  split
  · exact h
  next key keys hb =>
    rw [Ends, hb] at h
    cases keys with
    | nil =>
      cases key with
      | up => exact .inl ⟨rfl, List.not_mem_nil⟩
      | down => simp at h
    | cons key' keys =>
      obtain ⟨hup, hno⟩ | hlast := h
      · cases key with
        | up => exact .inl ⟨rfl, fun hm => hno (List.mem_cons_of_mem _ hm)⟩
        | down => exact absurd List.mem_cons_self hno
      · exact .inr (by simpa using hlast)

theorem ends_release (k : SoftKey) : (k.sendBroadcast .up).Ends := .inr (by simp [sendBroadcast])

theorem Paired.onTouch (h : k.Paired) {action : MotionAction}
    (hok : k.pairsKey (.onTouch action) = true)
      (he : (SoftKeyEvent.onTouch action).enabled k = true) :
    (k.onTouch action).Paired := by
  cases action with
  | down =>
    have ht : k.touch = .none := by
      simp only [SoftKeyEvent.enabled, Bool.and_eq_true, decide_eq_true_eq] at he
      exact he.1
    exact fun _ => h (by simp [ht])
  | move => exact h
  | up => exact fun _ => ends_release _
  | cancel =>
    intro _
    by_cases ht : k.touch = .longPressed
    · have hup : k.terminal.ePttKeyStatus = .up ∧ .down ∉ k.broadcasts := by
        simpa [pairsKey, ht] using hok
      exact .inl hup
    · exact h ht

theorem Paired.event (h : k.Paired) {e : SoftKeyEvent} (hok : k.pairsKey e = true)
    (he : e.enabled k = true) : (e.handle k).Paired := by
  cases e with
  | onTouch action => exact h.onTouch hok he
  | onLongClick => exact fun ht => absurd rfl ht
  | onReceive =>
    have ht : k.onReceive.touch = k.touch := by
      unfold SoftKey.onReceive
      split <;> rfl
    exact fun hl => (h (ht ▸ hl)).onReceive
  | terminal e =>
    have hd : e ≠ .keyDown := by
      rintro rfl
      simp [SoftKeyEvent.enabled] at he
    intro ht
    obtain ⟨hup, hno⟩ | hlast := h ht
    · exact .inl ⟨Terminal.KeyUp.event hup hd, hno⟩
    · exact .inr hlast

end

end SoftKey

/-- In every run that takes no long press away from the button while the key is down or about to be,
a key that nobody touches is up when the last broadcast was received. -/
theorem runs_keyReleased (k : SoftKey)
    (h : softKey.Reached (fun k e => k.pairsKey e = true) k) : k.Released := by
  have hrun : k.Paired := h.invariant
    (fun k hk _ => .inl ⟨hk.1.key, by simp [hk.2.2]⟩)
    (fun k e hk he hok => hk.event hok he)
  exact hrun.released

/-- The button is pressed for long and released; the refusal of the application comes in between. -/
theorem long_press_released :
    let k := softKey.run { terminal := .ready } [
      .terminal (.showUi { topActivity := .ptt, pttActivity := true }), .onTouch .down,
        .onLongClick,
      .onReceive, .terminal (.receivePttRightResponse 0 .forbidden), .onTouch .move, .onTouch .up,
      .onReceive]
    k.touch = .none ∧ k.broadcasts = [] ∧ k.Released :=
  ⟨by decide, by decide, runs_keyReleased _ (System.reached_run fresh_softKey (by decide))⟩

/-- The activity is left while the button is held, so that the gesture is cancelled: the key stays
down. -/
theorem cancelled_press_keeps_key_down :
    let k := softKey.run { terminal := .ready } [
      .terminal (.showUi { topActivity := .ptt, pttActivity := true }), .onTouch .down,
        .onLongClick,
      .onReceive, .terminal (.showUi {}), .onTouch .cancel]
    softKey.Reached (fun _ _ => True) k ∧ ¬k.Released ∧ k.terminal.ePttKeyStatus = .down :=
  ⟨System.reached_run fresh_softKey (by decide), fun h => absurd (h rfl rfl) (by decide), by decide⟩

end PttTerminal
