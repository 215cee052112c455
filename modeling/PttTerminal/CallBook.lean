import PttTerminal.Library.Journals
import PttTerminal.FloorUpdate

/-!
# The book of the group's call

The terminal keeps the id of the group's call in one record and the state of the call in another.
The native code reports calls of all kinds, and ids are used again. Every hang-up by the floor's
code names a call that is alive and a group's, and so does the stored id while the call is up.
`KeepsBook` are the steps that keep this so. It is broken by a record that is cleared while the call
is up, by a call that is hung up after its end, and by an id or a state that is stored without the
other.
-/
namespace PttTerminal

open Runs Journals

namespace CallStatus

/-- Neither ended nor idle. -/
def isActive (s : CallStatus) : Bool := s ≠ .ended && s ≠ .idle

/-- The states in which a closing service hangs up. -/
def isUp (s : CallStatus) : Bool := s = .ringing || s = .dialing || s = .talking

theorem isActive_of_isUp {s : CallStatus} (h : s.isUp = true) : s.isActive = true := by
  cases s <;> simp [isUp] at h <;> rfl

end CallStatus

namespace Entry

/-- What an entry reports of the call with an id. -/
def reports (callId : ℤ) : Entry → Option CallState
  | .callState cs => if cs.callId = callId then some cs else none
  | _ => none

/-- Neither a report nor a hang-up by the floor's code. -/
def keepsCalls : Entry → Bool
  | .callState _ | .hangupPttCall _ => false
  | _ => true

theorem reports_of_keepsCalls {e : Entry} (he : e.keepsCalls = true) (callId : ℤ) :
    e.reports callId = none := by
  cases e <;> first | rfl | simp [keepsCalls] at he

end Entry

namespace Terminal

/-- The latest report of the call says that it is alive and a group's. -/
def liveGroupCall (t : Terminal) (callId : ℤ) (es : List Entry) : Bool :=
  (latest (Entry.reports callId) es).any fun cs =>
    cs.callState.isActive && t.checkIsGroupNum cs.number

/-- A hang-up names a live call of a group. -/
def hangsUpLive (t : Terminal) : Entry → List Entry → Prop
  | .hangupPttCall callId, es => t.liveGroupCall callId es = true
  | _, _ => True

instance (t : Terminal) : (e : Entry) → (es : List Entry) → Decidable (t.hangsUpLive e es)
  | .hangupPttCall callId, es => inferInstanceAs (Decidable (t.liveGroupCall callId es = true))
  | .status _, _ | .command _, _ | .mInviteIndicate .., _ | .response _, _ | .callState _, _ |
    .requestApplyPttRight .., _ | .requestCancelPttRight _, _ | .requestHangup _, _ |
    .requestAnswer _, _ => isTrue trivial

/-- Every hang-up was in order when it was made, and while the call is up, the stored id is the id
of a live call of a group. -/
def CallsBooked (t : Terminal) : Prop :=
  Throughout t.hangsUpLive t.journal ∧
    (t.callState.isUp = true → t.liveGroupCall t.pttGroupStatus.callId t.journal = true)

instance (t : Terminal) : Decidable t.CallsBooked := by
  unfold CallsBooked
  infer_instance

/-- A stored id beside an active call state is the id of a live call of a group as well. -/
def Booked (t : Terminal) : Prop :=
  t.CallsBooked ∧ (t.callState.isActive = true → 0 ≤ t.pttGroupStatus.callId →
    t.liveGroupCall t.pttGroupStatus.callId t.journal = true)

section
variable {native : ℤ} {t t' : Terminal} {s : PttStatus}

theorem liveGroupCall_cons {e : Entry} {callId : ℤ} (he : e.reports callId = none)
    (es : List Entry) :
    t.liveGroupCall callId (e :: es) = t.liveGroupCall callId es := by
  rw [liveGroupCall, latest_cons_of_none he]
  rfl

theorem liveGroupCall_reported (cs : CallState) (es : List Entry) :
    t.liveGroupCall cs.callId (.callState cs :: es) =
      (cs.callState.isActive && t.checkIsGroupNum cs.number) := by
  rw [liveGroupCall, latest_cons_of_some (a := cs) (by simp [Entry.reports])]
  rfl

theorem reports_other {cs : CallState} {callId : ℤ} (h : cs.callId ≠ callId) :
    (Entry.callState cs).reports callId = none := by
  simp [Entry.reports, h]

/-! ### Writes -/

theorem Booked.note (h : t.Booked) {e : Entry} (he : e.keepsCalls = true) : (t.note e).Booked := by
  have hl : ∀ i, t.liveGroupCall i (e :: t.journal) = t.liveGroupCall i t.journal := fun i =>
    liveGroupCall_cons (Entry.reports_of_keepsCalls he i) t.journal
  have hlaw : t.hangsUpLive e t.journal := by
    cases e <;> trivial
  exact ⟨⟨⟨hlaw, h.1.1⟩, fun hu => (hl _).trans (h.1.2 hu)⟩,
    fun ha hi => (hl _).trans (h.2 ha hi)⟩

theorem Booked.setStatus (h : t.Booked) (s : PttStatus) : (t.setStatus s).Booked :=
  h.note (e := .status s) rfl

theorem Booked.sendPttCommand (h : t.Booked) (c : Command) : (t.sendPttCommand c).Booked :=
  h.note (e := .command c) rfl

theorem Booked.free (h : t.Booked) : t.free.Booked := h.setStatus .free

/-- The record may be cleared while the call is not up. -/
theorem Booked.clear (h : t.Booked) (hu : t.callState.isUp = false) : t.clear.Booked := by
  refine ⟨⟨⟨trivial, h.1.1⟩, fun hu' => ?_⟩, fun _ hi => by simp at hi⟩
  have hu'' : t.callState.isUp = true := hu'
  simp [hu] at hu''

theorem Booked.isbPttErrorShowing (h : t.Booked) : t.isbPttErrorShowing.2.Booked := by
  unfold Terminal.isbPttErrorShowing
  split <;> exact h

/-! ### Requests -/

theorem Booked.checkResult (h : t.Booked) (result : ℤ) : (t.checkResult result).Booked := by
  unfold Terminal.checkResult
  split
  · dsimp only
    split
    · exact h.free
    · exact h.free
  · exact h

/-- The call may be hung up while its state is active, or when there is none. -/
theorem Booked.hangupPttCall (h : t.Booked)
    (ha : t.pttGroupStatus.callId < 0 ∨ t.callState.isActive = true) : t.hangupPttCall.Booked := by
  unfold Terminal.hangupPttCall
  split
  · exact h
  next hi =>
    have hl := h.2 (ha.resolve_left hi) (by omega)
    have hcons : ∀ i, t.liveGroupCall i (.hangupPttCall t.pttGroupStatus.callId :: t.journal) =
        t.liveGroupCall i t.journal := fun i => liveGroupCall_cons rfl t.journal
    exact ⟨⟨⟨hl, h.1.1⟩, fun hu => (hcons _).trans (h.1.2 hu)⟩,
      fun ha' hi' => (hcons _).trans (h.2 ha' hi')⟩

theorem Booked.hangupIfTalking (h : t.Booked) : t.hangupIfTalking.Booked := by
  unfold Terminal.hangupIfTalking
  split
  next hc => exact h.hangupPttCall (.inr (by rw [hc]; rfl))
  next => exact h

theorem Booked.cancelPttRight (h : t.Booked) (native : ℤ) : (t.cancelPttRight native).Booked := by
  unfold Terminal.cancelPttRight
  split
  · exact h
  · exact (h.note rfl).checkResult native

theorem Booked.applyPttRight (h : t.Booked) (native : ℤ) : (t.applyPttRight native).Booked := by
  unfold Terminal.applyPttRight
  split
  · exact h
  next grpNum _ =>
    have hg : (t.setGroupNum (some grpNum)).Booked := h
    have hb : ((t.setGroupNum (some grpNum)).setBPttErrorShowing true).Booked := h
    unfold requestApplyPttRight
    split
    · exact hg
    · dsimp only
      split
      · exact (hb.note rfl).checkResult native
      · exact (hg.note rfl).checkResult native

theorem Booked.requestHangup (h : t.Booked) (callId : ℤ) : (t.requestHangup callId).Booked := by
  unfold Terminal.requestHangup
  split
  · exact h
  · exact h.note rfl

/-! ### Updates of the floor -/

/-- An update hangs up a call that is up, or the single call that covers a speech. -/
theorem Booked.settled (h : t.Booked) (hs : Settled native t t')
    (hok : t.pttGroupStatus.status = .speaking → t.isUser t.pttGroupStatus.speakerNum = false →
      t.pttGroupStatus.callId < 0 ∨ t.callState.isActive = true) : t'.Booked := by
  cases hs with
  | kept => exact h
  | speaks => exact h.setStatus _
  | starts => exact (h.setStatus _).setStatus _
  | silenced => exact h.hangupIfTalking.free
  | hungUp _ _ hp hu => exact h.hangupPttCall (hok hp hu)
  | cancelled => exact h.cancelPttRight native
  | forgotten => exact h.free

theorem Booked.updateOwn (h : t.Booked)
    (hok : t.pttGroupStatus.status = .speaking → t.isUser t.pttGroupStatus.speakerNum = false →
      t.pttGroupStatus.callId < 0 ∨ t.callState.isActive = true) (native : ℤ) :
    (t.updateOwnPttState native).Booked := by
  obtain ⟨t₁, h₁ | h₁, hs⟩ := updateOwn_settled native t
  · subst h₁
    exact h.settled hs hok
  · subst h₁
    exact (h.setStatus _).settled hs hok

theorem Booked.updateOwn_of_ne (h : t.Booked) (hp : t.pttGroupStatus.status ≠ .speaking)
    (native : ℤ) : (t.updateOwnPttState native).Booked :=
  h.updateOwn (fun hs => absurd hs hp) native

/-! ### Indications -/

/-- An id is stored whose call is over. -/
def callOver (t : Terminal) : Bool := 0 ≤ t.pttGroupStatus.callId && !t.callState.isActive

theorem mayHangup_of (h : t.callOver = false) :
    t.pttGroupStatus.callId < 0 ∨ t.callState.isActive = true := by
  by_cases hi : t.pttGroupStatus.callId < 0
  · exact .inl hi
  · right
    simpa [callOver, not_lt.mp hi] using h

/-- The connection times out while the call is up, or the floor gets free after the call is over. -/
def indicationMisbooks (groupNum speaker : Option Bytes) (t : Terminal) : Bool :=
  match groupNum with
  | none => t.callState.isUp
  | some _ => !(t.singleCallActive && t.inSingleCall) && isStrBlank speaker &&
      (t.pttGroupStatus.status = .waiting || t.pttGroupStatus.status = .listening) && t.callOver

theorem Booked.indicateFree (h : t.Booked)
    (hok : t.pttGroupStatus.status = .waiting ∨ t.pttGroupStatus.status = .listening →
      t.callOver = false) (native : ℤ) (groupNum : Bytes) (speaker : Option Bytes) :
    (t.indicateFree native groupNum speaker).Booked := by
  unfold Terminal.indicateFree
  split
  · exact h
  · exact h
  next hs => exact (h.hangupPttCall (mayHangup_of (hok (.inl hs)))).setStatus _
  next =>
    dsimp only
    rw [endIndication_of_ne_idle (updateOwn_ne_idle (by simp))]
    split
    next hs =>
      exact (h.hangupPttCall (mayHangup_of (hok (.inr hs)))).free.updateOwn_of_ne (by simp) native
    next => exact h.free.updateOwn_of_ne (by simp) native

theorem Booked.indicateSpeaker (h : t.Booked) (native : ℤ) (groupNum : Bytes)
    (speaker : Option Bytes) : (t.indicateSpeaker native groupNum speaker).Booked := by
  have hl : ((t.setStatus .listening).setSpeakerNum speaker).Booked := h.setStatus _
  unfold Terminal.indicateSpeaker
  dsimp only
  split
  next hu =>
    rw [endIndication_of_ne_idle (updateOwn_ne_idle (by simp))]
    refine (hl.setStatus .speaking).updateOwn (fun _ hn => ?_) native
    have hu' : Terminal.isUser speaker t = true := hu
    have hn' : Terminal.isUser speaker t = false := hn
    exact absurd (hu'.symm.trans hn') (by simp)
  next =>
    split
    next hk =>
      refine (hl.setStatus _).updateOwn_of_ne (fun hs => ?_) native
      have hs' : t.pttGroupStatus.status = .speaking := hs
      simp [keepsRequest, hs'] at hk
    next =>
      rw [endIndication_of_ne_idle (updateOwn_ne_idle (by simp))]
      exact (hl.setStatus .listening).updateOwn_of_ne (by simp) native

theorem Booked.mInviteIndicate {groupNum speaker : Option Bytes} (h : t.Booked)
    (hok : t.indicationMisbooks groupNum speaker = false) (native : ℤ) :
    (t.mInviteIndicate native groupNum speaker).Booked := by
  have hn : (t.note (.mInviteIndicate groupNum speaker)).Booked := h.note rfl
  cases groupNum with
  | none => exact hn.clear hok
  | some groupNum =>
    obtain ⟨-, hi⟩ | ⟨hc, u, hu, hi⟩ := mInviteIndicate_cases native groupNum speaker t
    · rw [hi]
      unfold indicateInCall
      split
      · exact hn
      · exact hn.setStatus .listening
    · obtain ⟨hb, hi⟩ | ⟨-, hi⟩ := hi
      · have hover : t.pttGroupStatus.status = .waiting ∨ t.pttGroupStatus.status = .listening →
            t.callOver = false := fun hs => by
          simpa [indicationMisbooks, hc, hb, hs] using hok
        rw [hi]
        obtain ⟨-, rfl⟩ | ⟨-, rfl⟩ := hu
        · exact Booked.indicateFree (t := t.note _) hn hover native groupNum speaker
        · exact Booked.indicateFree (t := (t.note _).clearCall) hn hover native groupNum speaker
      · rw [hi]
        obtain ⟨-, rfl⟩ | ⟨-, rfl⟩ := hu
        · exact hn.indicateSpeaker native groupNum speaker
        · exact Booked.indicateSpeaker (t := (t.note _).clearCall) hn native groupNum speaker

/-! ### Commands -/

theorem Booked.handleApply (h : t.Booked) (native : ℤ) : (t.handleApply native).Booked := by
  unfold Terminal.handleApply
  dsimp only
  split
  · exact h.isbPttErrorShowing
  · split
    · exact h.isbPttErrorShowing.setStatus _
    · exact (h.isbPttErrorShowing.setStatus _).applyPttRight native

theorem Booked.handleCancel (h : t.Booked) (native : ℤ) : (t.handleCancel native).Booked :=
  (h.setStatus _).cancelPttRight native

/-- The state of the call is ending when it is hung up. -/
theorem Booked.handleHangup (h : t.Booked) (hok : t.callOver = false) : t.handleHangup.Booked := by
  have hf : t.free.Booked := h.free
  have he : (t.free.setCallState .ending).Booked := by
    refine ⟨⟨hf.1.1, fun hu => ?_⟩, fun _ hi => ?_⟩
    · simp [CallStatus.isUp] at hu
    · refine hf.2 ((mayHangup_of hok).resolve_left ?_) hi
      have hi' : 0 ≤ t.pttGroupStatus.callId := hi
      omega
  rw [handleHangup_eq]
  exact he.hangupPttCall (.inr rfl)

theorem Booked.handleClose (h : t.Booked) (hok : t.callState.isUp = false) :
    t.handleClose.Booked := by
  unfold Terminal.handleClose
  dsimp only
  split
  next hc => simp [hc, CallStatus.isUp] at hok
  next hc => simp [hc, CallStatus.isUp] at hok
  next hc => simp [hc, CallStatus.isUp] at hok
  next => exact h.clear hok

theorem Booked.handleMakeCall (h : t.Booked) (native : ℤ) (number : Option Bytes) :
    (t.handleMakeCall native number).Booked := by
  obtain ⟨c, b, hc | hc⟩ := handleMakeCall_eq native number t
  · rw [hc]
    exact h
  · have hb : ({ t with currentCallState := c, bForceInSC := b } : Terminal).Booked := h
    rw [hc]
    exact hb.checkResult native

theorem Booked.handleSingleCall (h : t.Booked) (native : ℤ) {e : ℤ → Entry}
    (he : ∀ i, (e i).keepsCalls = true) : (t.handleSingleCall native e).Booked := by
  have hn : (t.note (e t.currentCallState.callId)).Booked := h.note (he _)
  obtain hs | ⟨c, b, hs⟩ := handleSingleCall_eq native e t
  · rw [hs]
    exact h
  · rw [hs]
    exact hn

/-- The call is hung up after it is over, or the service is closed while it is up. -/
def commandMisbooks (t : Terminal) : Bool :=
  !t.exitFlag && match t.commands.head? with
    | some .hangupPttCall => t.callOver
    | some .closePtt => t.callState.isUp
    | _ => false

theorem Booked.handleCommand (h : t.Booked) (native : ℤ) (c : Command)
    (hh : t.exitFlag = false → c = .hangupPttCall → t.callOver = false)
    (hc : t.exitFlag = false → c = .closePtt → t.callState.isUp = false) :
    (t.handleCommand native c).Booked := by
  unfold Terminal.handleCommand
  split
  · exact h
  next hx =>
    have hx' : t.exitFlag = false := by simpa using hx
    cases c with
    | hangupPttCall => exact h.handleHangup (hh hx' rfl)
    | applyPttRight => exact h.handleApply native
    | cancelPttRight => exact h.handleCancel native
    | openPttUi =>
      dsimp only
      split
      · exact h
      · exact h.isbPttErrorShowing
    | startApp => exact h
    | updatePttUi => exact h.isbPttErrorShowing
    | closePtt => exact h.handleClose (hc hx' rfl)
    | makeCall number => exact h.handleMakeCall native number
    | sendDtmf => exact h
    | answerCall => exact h.handleSingleCall native fun _ => rfl
    | hangupCall => exact h.handleSingleCall native fun _ => rfl

theorem Booked.deliver (h : t.Booked) (hok : t.commandMisbooks = false) (native : ℤ) :
    (t.deliver native).Booked := by
  unfold Terminal.deliver
  split
  · exact h
  next c cs hcs =>
    have hh : t.commands.head? = some c := by rw [hcs]; rfl
    refine Booked.handleCommand (t := { t with commands := cs }) h native c ?_ ?_
    · rintro hx rfl
      have hx' : t.exitFlag = false := hx
      have ho : t.callOver = false := by simpa [commandMisbooks, hh, hx'] using hok
      exact ho
    · rintro hx rfl
      have hx' : t.exitFlag = false := hx
      simpa [commandMisbooks, hh, hx'] using hok

/-! ### Responses -/

/-- The request is forbidden while the call is up. -/
def responseMisbooks (s : PttStatus) (t : Terminal) : Bool :=
  s = .forbidden && t.pttGroupStatus.status ≠ .speaking && t.callState.isUp

theorem Booked.receivePttRightResponse (h : t.Booked)
    (ho : Event.ofNative (.receivePttRightResponse native s)) (hok : t.responseMisbooks s = false) :
    (t.receivePttRightResponse native s).Booked := by
  have hn : (t.note (.response s)).Booked := h.note rfl
  obtain ⟨-, he⟩ | ⟨hp, ⟨rfl, he⟩ | ⟨hs, he⟩ | ⟨rfl, he⟩⟩ := receivePttRightResponse_cases t ho
  · rw [he]
    exact hn
  · rw [he]
    exact (hn.setStatus .accepted).updateOwn_of_ne (by simp) native
  · rw [he]
    refine (hn.setStatus _).updateOwn_of_ne ?_ native
    split
    · split <;> simp
    · obtain rfl | rfl := hs <;> simp
  · have hc : (t.note (.response .forbidden)).clear.Booked :=
      hn.clear (by simpa [responseMisbooks, hp] using hok)
    have hc' : ({ (t.note (.response .forbidden)).clear with
        ePttKeyStatus := .down } : Terminal).Booked := hc
    rw [he]
    split
    · exact hc'.sendPttCommand _
    · exact hc

theorem Booked.setCurrentPttState (h : t.Booked) (src : PttGroupStatus) :
    (t.setCurrentPttState src).Booked := h.setStatus src.status

theorem Booked.updatePttState (h : t.Booked) {obj : PttGroupStatus}
    (ho : Event.ofNative (.updatePttState native obj)) : (t.updatePttState native obj).Booked := by
  have hn : (t.note (.response obj.status)).Booked := h.note rfl
  obtain he | ⟨-, -, he⟩ | ⟨hw, -, he⟩ := updatePttState_cases t ho
  · rw [he]
    exact hn
  · rw [he]
    exact hn.setCurrentPttState obj
  · refine (hn.setCurrentPttState _).settled he fun hp => ?_
    have hp' : obj.status = .speaking := hp
    obtain hw | hw := hw <;> simp [hw] at hp'

/-! ### Calls -/

/-- A report of the call whose id is stored beside an active state, and which is over or not a
group's. -/
def overwritesCall (cs : CallState) (t : Terminal) : Bool :=
  cs.callId = t.pttGroupStatus.callId && t.callState.isActive &&
    !(cs.callState.isActive && t.checkIsGroupNum cs.number)

/-- A report that does not touch the stored call. -/
theorem Booked.report (h : t.Booked) {cs : CallState} (hok : t.overwritesCall cs = false) :
    (t.note (.callState cs)).Booked := by
  have hl : t.callState.isActive = true → t.liveGroupCall t.pttGroupStatus.callId t.journal = true →
      t.liveGroupCall t.pttGroupStatus.callId (.callState cs :: t.journal) = true :=
        fun ha hold => by
    by_cases hi : cs.callId = t.pttGroupStatus.callId
    · rw [← hi, liveGroupCall_reported]
      simpa [overwritesCall, hi, ha] using hok
    · rw [liveGroupCall_cons (reports_other hi)]
      exact hold
  exact ⟨⟨⟨trivial, h.1.1⟩, fun hu => hl (CallStatus.isActive_of_isUp hu) (h.1.2 hu)⟩,
    fun ha hi => hl ha (h.2 ha hi)⟩

/-- The book of a call whose stored id is the id of a live call, while its state is active. -/
theorem booked_of_live (hj : Throughout t.hangsUpLive t.journal)
    (hl : t.callState.isActive = true → t.liveGroupCall t.pttGroupStatus.callId t.journal = true) :
    t.Booked :=
  ⟨⟨hj, fun hu => hl (CallStatus.isActive_of_isUp hu)⟩, fun ha _ => hl ha⟩

/-- The id may be stored that is stored already, and any id beside a state that is not active. -/
theorem Booked.setCallId (h : t.Booked) {callId : ℤ}
    (hi : t.callState.isActive = true → t.pttGroupStatus.callId = callId) :
    (t.setCallId callId).Booked := by
  cases ha : t.callState.isActive with
  | true =>
    obtain rfl := hi ha
    exact h
  | false =>
    refine booked_of_live h.1.1 fun ha' => ?_
    have ha'' : t.callState.isActive = true := ha'
    simp [ha] at ha''

/-- The report of a group's call is stored: its state, and its id unless it is over. -/
def BookedAs (cs : CallState) (t : Terminal) : Prop :=
  t.Booked ∧ t.callState = cs.callState ∧
    (t.callState.isActive = true → t.pttGroupStatus.callId = cs.callId)

variable {cs : CallState}

theorem BookedAs.setCallId (h : t.BookedAs cs) : (t.setCallId cs.callId).BookedAs cs :=
  ⟨h.1.setCallId h.2.2, h.2.1, fun _ => rfl⟩

theorem BookedAs.onlyFloor (h : t.BookedAs cs) (ho : OnlyFloor t t') (hb : t'.Booked) :
    t'.BookedAs cs := by
  refine ⟨hb, ho.callState.trans h.2.1, fun ha => ?_⟩
  rw [ho.callState] at ha
  exact ho.callId.trans (h.2.2 ha)

theorem Booked.storeCall (h : t.Booked) (hg : t.checkIsGroupNum cs.number = true)
    (hi : cs.callId < 0 → cs.callState.isActive = false) :
    ((t.note (.callState cs)).storeCall cs).BookedAs cs := by
  have hj : Throughout t.hangsUpLive (.callState cs :: t.journal) := ⟨trivial, h.1.1⟩
  unfold Terminal.storeCall
  split
  · refine ⟨booked_of_live hj fun ha => ?_, rfl, fun _ => rfl⟩
    have ha' : cs.callState.isActive = true := ha
    show t.liveGroupCall cs.callId (.callState cs :: t.journal) = true
    rw [liveGroupCall_reported, ha', hg]
    rfl
  next hn =>
    have ha := hi (not_le.mp hn)
    have hno : ((t.note (.callState cs)).setCallState cs.callState).callState.isActive = true →
        False := fun h' => by
      have h'' : cs.callState.isActive = true := h'
      simp [ha] at h''
    exact ⟨booked_of_live hj fun h' => (hno h').elim, rfl, fun h' => (hno h').elim⟩

theorem BookedAs.groupRinging (h : t.BookedAs cs) (iPttStatus : PttStatus) :
    (t.groupRinging iPttStatus cs).2.BookedAs cs := by
  have ha : ((t.setCallId cs.callId).note (.requestAnswer cs.callId)).BookedAs cs :=
    h.setCallId.onlyFloor (onlyFloor_note _ _) (h.setCallId.1.note rfl)
  have hr : (if t.ePttKeyStatus ≠ .down then t.requestHangup cs.callId else t).BookedAs cs := by
    split
    · unfold requestHangup
      split
      · exact h
      · exact h.onlyFloor (onlyFloor_note _ _) (h.1.note rfl)
    · exact h
  cases iPttStatus <;> first | exact ha | exact hr

theorem Booked.answerSpeaker (h : t.Booked) : t.answerSpeaker.Booked := by
  unfold Terminal.answerSpeaker
  dsimp only
  split
  · split
    · exact h.setStatus .speaking
    · exact h.setStatus .speaking
  · split
    · exact h
    · exact h

theorem onlyFloor_answerSpeaker (t : Terminal) : OnlyFloor t t.answerSpeaker := by
  unfold Terminal.answerSpeaker
  dsimp only
  split <;> split <;> rfl

theorem BookedAs.groupAnswered (h : t.BookedAs cs) (hc : t.callState = .talking) (native : ℤ) :
    (t.groupAnswered native cs).BookedAs cs := by
  obtain ⟨n, hn⟩ := answerGroup_eq t
  have hg : (t.setGroupNum n).BookedAs cs := h
  have hi : ((t.setGroupNum n).answerSpeaker.setCallId cs.callId).BookedAs cs :=
    (hg.onlyFloor (onlyFloor_answerSpeaker _) hg.1.answerSpeaker).setCallId
  have htalk : (t.setGroupNum n).answerSpeaker.callState = .talking :=
    (onlyFloor_answerSpeaker (t.setGroupNum n)).callState.trans hc
  unfold Terminal.groupAnswered
  rw [hn]
  refine hi.onlyFloor (onlyFloor_updateOwn native _) (hi.1.updateOwn (fun _ _ => .inr ?_) native)
  exact (congrArg CallStatus.isActive htalk).trans rfl

theorem BookedAs.groupTalking (h : t.BookedAs cs) (hc : t.callState = .talking) (native : ℤ)
    (iPttStatus : PttStatus) : (t.groupTalking native iPttStatus cs).BookedAs cs := by
  unfold Terminal.groupTalking
  split
  · exact h
  · split
    · exact h.groupAnswered hc native
    · exact h.onlyFloor (onlyFloor_hangupPttCall t) (h.1.hangupPttCall (.inr (by rw [hc]; rfl)))

theorem BookedAs.groupEnded (h : t.BookedAs cs) (native : ℤ) (iPttStatus : PttStatus) :
    (t.groupEnded native iPttStatus).2.BookedAs cs := by
  have hup : ∀ u : Terminal, u.BookedAs cs → u.pttGroupStatus.status ≠ .speaking →
      (u.updateOwnPttState native).BookedAs cs := fun u hu hp =>
    hu.onlyFloor (onlyFloor_updateOwn native u) (hu.1.updateOwn_of_ne hp native)
  have hset : ∀ u : Terminal, u.BookedAs cs → ∀ s, (u.setStatus s).BookedAs cs := fun u hu s =>
    hu.onlyFloor (onlyFloor_setStatus s u) (hu.1.setStatus s)
  have hf : (((t.setSpeakerNum none).setStatus .free).updateOwnPttState native).BookedAs cs :=
    hup _ (hset (t.setSpeakerNum none) h _) (by simp)
  have hc :
    (((t.cancelPttRight native).setStatus .canceling).updateOwnPttState native).BookedAs cs :=
    hup _ (hset _ (h.onlyFloor (onlyFloor_cancelPttRight native t) (h.1.cancelPttRight native)) _)
      (by simp)
  have hb : ((t.setStatus (if isStrBlank t.pttGroupStatus.speakerNum then .free
      else .listening)).updateOwnPttState native).BookedAs cs := by
    refine hup _ (hset t h _) ?_
    split <;> simp
  obtain he | he | ⟨-, he | he⟩ := groupEnded_cases native iPttStatus t
  · rw [he]
    exact h
  · rw [he]
    exact hf
  · rw [he]
    exact hc
  · rw [he]
    exact hb

theorem Booked.jniUpdateCallState (h : t.Booked) (cs : CallState) :
    (t.jniUpdateCallState cs).Booked := by
  obtain ⟨c, hc⟩ := jniUpdateCallState_eq cs t
  rw [hc]
  exact h

theorem BookedAs.otherCall (h : t.BookedAs cs) (iPttStatus : PttStatus) :
    (t.otherCall iPttStatus cs).Booked := by
  obtain ho | ho | ⟨-, -, -, -, ho⟩ := otherCall_cases iPttStatus cs t
  · rw [ho]
    exact h.1
  · rw [ho]
    exact h.1.jniUpdateCallState cs
  · rw [ho]
    exact h.setCallId.1

/-- The held key takes the call for the call of the group. -/
def takesCall (t : Terminal) : Bool :=
  !t.isPttUIOnTop && !t.isSingleCallOnTop && t.ePttKeyStatus = .down &&
    (t.pttGroupStatus.status = .free || t.pttGroupStatus.status = .applying ||
      t.pttGroupStatus.status = .idle)

theorem Booked.otherCall (h : t.Booked) (hok : t.takesCall = true → t.callState.isActive = false) :
    (t.otherCall t.pttGroupStatus.status cs).Booked := by
  obtain ho | ho | ⟨hp, hc, hk, hs, ho⟩ := otherCall_cases t.pttGroupStatus.status cs t
  · rw [ho]
    exact h
  · rw [ho]
    exact h.jniUpdateCallState cs
  · rw [ho]
    have ht : t.takesCall = true := by
      simpa [takesCall, hp, hc, hk, or_assoc] using hs
    exact h.setCallId fun ha => by simp [hok ht] at ha

/-- The failure of a group's call is recorded: its state is stored, and its id is not. -/
def recordsError (cs : CallState) (t : Terminal) : Bool :=
  !t.inSingleCall && t.checkIsGroupNum cs.number && (t.ePttKeyStatus = .down || t.isPttUIOnTop)

/-- An active state comes beside the id of another call, which is not known to be up. -/
def errorMisbooks (cs : CallState) (t : Terminal) : Bool :=
  cs.callState.isActive && cs.callId ≠ t.pttGroupStatus.callId &&
    !(t.callState.isActive && 0 ≤ t.pttGroupStatus.callId) &&
    !(t.pttGroupStatus.callId < 0 && !cs.callState.isUp)

theorem Booked.recordError (h : t.Booked) (hg : t.checkIsGroupNum cs.number = true)
    (hok : t.errorMisbooks cs = false) :
    ((t.note (.callState cs)).setCallState cs.callState).Booked := by
  have hl : cs.callState.isActive = true →
      (t.pttGroupStatus.callId < 0 → cs.callState.isUp = true) →
      t.liveGroupCall t.pttGroupStatus.callId (.callState cs :: t.journal) = true := fun ha hn => by
    by_cases hi : cs.callId = t.pttGroupStatus.callId
    · rw [← hi, liveGroupCall_reported, ha, hg]
      rfl
    · rw [liveGroupCall_cons (reports_other hi)]
      have hb : t.callState.isActive = true ∧ 0 ≤ t.pttGroupStatus.callId := by
        by_contra hno
        have hno' : ¬(t.pttGroupStatus.callId < 0 ∧ cs.callState.isUp = false) := fun hc => by
          simp [hn hc.1] at hc
        simp only [errorMisbooks, ha, Bool.true_and, Bool.and_eq_false_iff, decide_eq_false_iff_not,
          Bool.not_eq_false', Bool.and_eq_true, decide_eq_true_eq, Bool.not_eq_true'] at hok
        exact hok.elim (Or.elim · (· hi) hno) hno'
      exact h.2 hb.1 hb.2
  refine ⟨⟨⟨trivial, h.1.1⟩, fun hu => ?_⟩, fun ha hi => hl ha fun hn => ?_⟩
  · exact hl (CallStatus.isActive_of_isUp hu) fun _ => hu
  · have hi' : 0 ≤ t.pttGroupStatus.callId := hi
    omega

theorem Booked.showCallError (h : t.Booked)
    (hrec : t.recordsError cs = true → t.errorMisbooks cs = false)
    (hno : t.recordsError cs = false → t.overwritesCall cs = false) :
    ((t.note (.callState cs)).showCallError cs).Booked := by
  have hset : ∀ u : Terminal, u.Booked →
      (if cs.errorCode = 504 then u.requestHangup cs.callId else u).Booked := fun u hu => by
    split
    · exact hu.requestHangup cs.callId
    · exact hu
  have hr : t.recordsError cs = !(t.inSingleCall || !t.checkIsGroupNum cs.number ||
      !(t.ePttKeyStatus = .down || t.isPttUIOnTop)) := by
    simp [recordsError, Bool.not_or]
  obtain ⟨u, hu, ⟨hno', hcase⟩ | ⟨hrec', hcase⟩⟩ := showCallError_cases cs (t.note (.callState cs))
  · have hn := h.report (hno (hr.trans (congrArg Bool.not hno')))
    rw [hu]
    obtain rfl | rfl := hcase
    · exact hset _ hn
    · exact hset _ (hn.jniUpdateCallState cs)
  · have hrec'' : t.recordsError cs = true := hr.trans (congrArg Bool.not hrec')
    have hin : t.checkIsGroupNum cs.number = true := by
      simp only [recordsError, Bool.and_eq_true] at hrec''
      exact hrec''.1.2
    have hb := h.recordError hin (hrec hrec'')
    rw [hu]
    obtain rfl | ⟨b, rfl⟩ := hcase
    · exact hset _ hb
    · exact hset _ hb.free

/-- A report that leaves the stored id beside a call that is over or not a group's. -/
def callMisbooks (cs : CallState) (t : Terminal) : Bool :=
  if checkErrorCode cs.errorCode then
    if t.recordsError cs then t.errorMisbooks cs else t.overwritesCall cs
  else if t.checkIsGroupNum cs.number && !t.bForceInSC then cs.callId < 0 && cs.callState.isActive
  else t.overwritesCall cs ||
    (!t.checkIsGroupNum cs.number && t.takesCall && t.callState.isActive)

theorem Booked.showCallState (h : t.Booked) (hok : t.callMisbooks cs = false) (native : ℤ) :
    (t.showCallState native cs).Booked := by
  unfold callMisbooks at hok
  unfold Terminal.showCallState
  dsimp only
  split
  next he =>
    rw [if_pos he] at hok
    refine h.showCallError (fun hr => ?_) fun hr => ?_
    · simpa [hr] using hok
    · simpa [hr] using hok
  next he =>
    rw [if_neg he] at hok
    split
    next hg =>
      have hg' : t.checkIsGroupNum cs.number = true := hg
      split
      next hf =>
        have hf' : t.bForceInSC = true := hf
        rw [if_neg (by simp [hf']), Bool.or_eq_false_iff] at hok
        exact (h.report hok.1).jniUpdateCallState cs
      next hf =>
        have hf' : t.bForceInSC = false := by simpa using hf
        rw [if_pos (by simp [hf', hg'])] at hok
        have hs := h.storeCall hg' fun hi => by simpa [hi] using hok
        have hc : ((t.note (.callState cs)).groupCall native t.pttGroupStatus.status cs).2.BookedAs
            cs := by
          unfold Terminal.groupCall
          dsimp only
          split
          next => exact hs.groupRinging _
          next ht => exact hs.groupTalking (hs.2.1.trans ht) native _
          next => exact hs.groupEnded native _
          next => exact hs
        split
        · exact hc.1
        · exact hc.otherCall _
    next hg =>
      have hg' : t.checkIsGroupNum cs.number = false := by simpa using hg
      rw [if_neg (by simp [hg']), Bool.or_eq_false_iff] at hok
      refine (h.report hok.1).otherCall fun ht => ?_
      have ht' : t.takesCall = true := ht
      simpa [hg', ht'] using hok.2

/-! ### Runs -/

theorem Booked.handlePttDown (h : t.Booked) : t.handlePttDown.Booked := by
  have hd : ({ t with ePttKeyStatus := .down } : Terminal).Booked := h
  obtain hc | hc | hc | hc := handlePttDown_cases t <;> rw [hc]
  · exact h
  · exact h.sendPttCommand _
  · exact hd
  · exact hd.sendPttCommand _

theorem Booked.resumePttUp (h : t.Booked) : t.resumePttUp.Booked := by
  have hr : ({ t with releasing := false } : Terminal).Booked := h
  have hset : ∀ s, (((({ t with releasing := false } : Terminal).setRejectReason (-1)).setStatus
      s).sendPttCommand .updatePttUi).Booked := fun s => (hr.setStatus s).sendPttCommand _
  unfold Terminal.resumePttUp
  dsimp only
  split
  next => exact hr.sendPttCommand _
  next => exact hr.sendPttCommand _
  next => exact hr.sendPttCommand _
  next => exact hr.sendPttCommand _
  next => exact hset _
  next => exact hset _
  next => exact hr

/-- The steps that keep the book of the group's call. -/
def keepsBook (t : Terminal) : Event → Bool
  | .clear | .mByeIndicate => !t.callState.isUp
  | .mInviteIndicate _ groupNum speaker => !t.indicationMisbooks groupNum speaker
  | .receivePttRightResponse _ s => !t.responseMisbooks s
  | .deliver _ => !t.commandMisbooks
  | .showCallState _ cs => !t.callMisbooks cs
  | _ => true

theorem Booked.handle {e : Event} (h : t.Booked) (ho : e.ofNative) (hg : e.keepsGroups)
    (hok : t.keepsBook e) : (e.handle t).Booked := by
  cases e with
  | keyDown => exact h.handlePttDown
  | keyUpResume => exact h.resumePttUp
  | deliver native => exact h.deliver (by simpa [keepsBook] using hok) native
  | sendCommand c => exact h.sendPttCommand c
  | mInviteIndicate native groupNum speaker =>
    exact h.mInviteIndicate (by simpa [keepsBook] using hok) native
  | mByeIndicate => exact h.clear (by simpa [keepsBook] using hok)
  | receivePttRightResponse native s =>
    exact h.receivePttRightResponse ho (by simpa [keepsBook] using hok)
  | updatePttState native obj => exact h.updatePttState ho
  | showCallState native cs => exact h.showCallState (by simpa [keepsBook] using hok) native
  | receiveGroupInfo native groupInfos => simp [Event.keepsGroups] at hg
  | receiveMessage number =>
    unfold Event.handle jniReceiveMessage
    dsimp only
    split <;> exact h
  | clear => exact h.clear (by simpa [keepsBook] using hok)
  | _ => exact h

theorem Fresh.booked (h : t.Fresh) : t.Booked := by
  refine ⟨⟨?_, fun hu => ?_⟩, fun ha => ?_⟩
  · rw [h.journal]
    trivial
  · simp [h.callState, CallStatus.isUp] at hu
  · simp [h.callState, CallStatus.isActive] at ha

end

end Terminal

/-- In every run whose steps all meet the condition, every hang-up by the floor's code named a live
call of a group, and so does the stored id while the call is up. -/
theorem runs_callsBooked {t : Terminal}
    (h : (terminal Terminal.Fresh fun e => e.ofNative && e.keepsGroups).Reached
      (fun t e => t.keepsBook e) t) : t.CallsBooked := by
  have hb : t.Booked := h.invariant (fun s (hs : s.Fresh) => hs.booked)
    fun s e (hs : s.Booked) he hok => by
      have he' : e.ofNative = true ∧ e.keepsGroups = true := by
        rw [← Bool.and_eq_true]
        exact he.1
      exact hs.handle he'.1 he'.2 hok
  exact hb.1

/-- A call of the group comes up during a speech and is hung up when the key is released. -/
theorem released_call_hung_up :
    let t := (terminal Terminal.Fresh fun e => e.ofNative && e.keepsGroups).run .ready
      [.keyDown, .deliver 0, .receivePttRightResponse 0 .busy,
        .showCallState 0 ⟨1, some (ascii "8001"), .talking, 0⟩, .keyUp, .keyUpResume, .deliver 0]
    .hangupPttCall 1 ∈ t.journal ∧ t.CallsBooked :=
  ⟨by decide, runs_callsBooked (System.reached_run fresh_ready (by decide))⟩

/-- The call of the group ends, its id is used again for a single call, and the floor gets free: the
single call is hung up. -/
theorem reused_id_hung_up :
    let t := (terminal Terminal.Fresh fun e => e.ofNative && e.keepsGroups).run .ready
      [.showCallState 0 ⟨1, some (ascii "8001"), .talking, 0⟩,
        .showCallState 0 ⟨1, some (ascii "8001"), .ended, 0⟩,
        .showCallState 0 ⟨1, some (ascii "200"), .ringing, 0⟩,
        .mInviteIndicate 0 (some (ascii "8001")) (some (ascii "101")),
        .mInviteIndicate 0 (some (ascii "8001")) none]
    (terminal Terminal.Fresh fun e => e.ofNative && e.keepsGroups).Reached (fun _ _ => True) t ∧
      ¬t.CallsBooked :=
  ⟨System.reached_run fresh_ready (by decide), by decide⟩

end PttTerminal
