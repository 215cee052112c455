import PttTerminal.GroupMessage
import PttTerminal.Library.Runs
import PttTerminal.MemberInfo

/-!
# The multicast session

The server announces on the multicast address who speaks in which group. The handler of these
signals follows the session with a state, the node of its group, the identifier of its call and the
speaker, and opens the media of the group.
-/
namespace PttTerminal

open Loops LinkedCells Runs

/-- Which of the media operations succeed. `extraCheck` is `PJ_ENABLE_EXTRA_CHECK`, without which no
`PJ_ASSERT_RETURN` returns, and `noValue` is what the caller finds where nothing was returned. -/
structure MediaOutcome where
  streamCreate : Bool := true
  getPort : Bool := true
  poolCreate : Bool := true
  createPlayer : Bool := true
  connect : Bool := true
  extraCheck : Bool := false
  noValue : Bool := true
  deriving Repr, DecidableEq

/-- What the rest of the native code answers while a signal is handled: how many calls there are,
before and after the media were opened, the number that was dialled, the user of the account, and
what opening the media comes to. -/
structure Outside where
  callCount : ℕ := 0
  callCountAfter : ℕ := 0
  destNumber : Bytes := []
  username : Option Bytes := none
  media : MediaOutcome := {}
  deriving Repr, DecidableEq

structure MulticastInvite where
  groupNum : Bytes
  speaker : Bytes
  callId : Bytes
  deriving Repr, DecidableEq

/-- `pj_ansi_strncmp(buf, src.ptr, src.slen)` finds no difference. -/
def strncmpEq (buf src : Bytes) : Bool := (cString buf).take src.length = cString src

def PttInfo.report (info : PttInfo) (e : Effect) : PttInfo :=
    { info with effects := e :: info.effects }

/-! ### The media -/

/-- `PJ_ASSERT_RETURN` of a condition that does not hold. -/
def assertReturn {α : Type} (o : MediaOutcome) (a : α) : Except Fault (Bool × α) :=
  if o.extraCheck then .ok (false, a) else .error .assertion

theorem assertReturn_eq_ok {α : Type} {o : MediaOutcome} {a : α} {r : Bool × α} :
    assertReturn o a = .ok r ↔ o.extraCheck = true ∧ r = (false, a) := by
  unfold assertReturn
  split_ifs with hcheck
  · simp [hcheck, eq_comm]
  · simp [hcheck]

/-- Whether the call came up. A group without a transport gets one, but the stream is created with
the null pointer that was read before. -/
def multicastCallIncoming (o : Outside) (info : PttInfo) : Except Fault (Bool × PttInfo) := do
  let (node, c) ← info.deref info.gCurrentGroup
  match c.val.transport with
  | none =>
    let _ ← pttMediaTransportCreate info node
    .error .nullPointer
  | some _ =>
    if !o.media.streamCreate then return (false, pjmediaTransportClose info c.val)
    else
      let info := { info with stream := true }
      if !o.media.getPort then assertReturn o.media info
      else if !o.media.poolCreate then assertReturn o.media { info with sndPool := false }
      else
        let info := { info with sndPool := true }
        if !o.media.createPlayer then return (false, info)
        else return (o.media.connect, { info with sndPort := true })

def pttOpenMedia (o : Outside) (info : PttInfo) : Except Fault PttInfo :=
  match info.pttState with
  | .init => do
    let (success, info) ← multicastCallIncoming o (info.report .callHangupAll)
    return if success then pttEnterState info .busy else info
  | .free => .ok (pttEnterState (info.report .callHangupAll) .busy)
  | _ => .ok info

/-- The statements that end a session. -/
def closeSession (info : PttInfo) : PttInfo :=
  let info := pttCloseMedia info
  let info := pttEnterState { info with currentCallId := [], gSpeaker := [] } .uninit
  { info with gCurrentGroup := none }

/-! ### The signals -/

/-- The group of the session has to be among the groups of the heartbeat, if there are any. -/
def heartbeatFinds (header : List Bytes) (info : PttInfo) : Except Fault Bool :=
  if header.isEmpty then .ok (info.pttState ≠ .uninit)
  else do
    let (_, cur) ← info.deref info.gCurrentGroup
    return header.any fun groupNum => cur.val.number.isPrefixOf groupNum

def multicastHeartbeat (header : List Bytes) (info : PttInfo) : Except Fault PttInfo := do
  if info.gCurrentGroup.isNone then return info
  else
    let bfind ← heartbeatFinds header info
    if bfind then return info else return closeSession (info.report .mByeIndicate)

def checkSpeaker (o : Outside) (speaker : Bytes) : Bool := o.username = some speaker

/-- With a call, the media are left to it. -/
def openUnlessCalling (o : Outside) (info : PttInfo) : Except Fault PttInfo :=
  if o.callCount = 0 then pttOpenMedia o info else .ok info

/-- The session goes on in the group at `node`. -/
def resumeSession (o : Outside) (inv : MulticastInvite) (node : ℕ) (info : PttInfo) :
    Except Fault PttInfo := do
  let info := { info with gCurrentGroup := some node }
  let info ← (if info.stream then .ok info else openUnlessCalling o (pttEnterState info .init))
  return pttEnterState info
    (if o.callCountAfter ≠ 0 ∧ o.destNumber ≠ inv.groupNum then .free else .busy)

def beginSession (o : Outside) (node : ℕ) (info : PttInfo) : Except Fault PttInfo :=
  openUnlessCalling o (pttEnterState { info with gCurrentGroup := some node } .init)

/-- Somebody speaks in the group at `node`. -/
def invited (o : Outside) (inv : MulticastInvite) (node : ℕ) (bSpeakerChanged : Bool)
    (info : PttInfo) : Except Fault PttInfo := do
  let info ← (if info.gCurrentGroup.isSome then resumeSession o inv node info
    else beginSession o node info)
  if o.destNumber ≠ inv.groupNum || bSpeakerChanged then
    return info.report (.mInviteIndicate (some (cString inv.groupNum)) (some (cString inv.speaker)))
  else return info

/-- The speaker is recorded before the group is looked for. -/
def recordSpeaker (speaker : Bytes) (info : PttInfo) : PttInfo :=
  if strncmpEq info.gSpeaker speaker then info
  else { info with gSpeaker := strncpy info.gSpeaker speaker }

/-- Another group than that of the session is passed over. -/
def invitedGroup (info : PttInfo) (groupNum : Bytes) (listed : Bool) : Except Fault Bool :=
  if !listed then .ok false
  else if info.gCurrentGroup.isNone then .ok true
  else do
    let (_, cur) ← info.deref info.gCurrentGroup
    return cur.val.number = groupNum

def multicastInvite (o : Outside) (inv : MulticastInvite) (info : PttInfo) :
    Except Fault PttInfo := do
  let bSpeakerChanged := !strncmpEq info.gSpeaker inv.speaker
  let info := recordSpeaker inv.speaker info
  match info.generalGroup with
  | none => return info
  | some head =>
    let (listed, node) ← search info head inv.groupNum head
    let bfind ← invitedGroup info inv.groupNum listed
    if !bfind then return info
    else
      let info := { info with currentCallId := strncpy info.currentCallId inv.callId }
      if inv.speaker.isEmpty then
        let info := { info with gSpeaker := [] }
        let status : PttGroupStatus := { groupNum := some (cString inv.groupNum), status := .free }
        return pttEnterState (info.report (.updatePttState status)) .free
      else if checkSpeaker o inv.speaker then return info
      else invited o inv node bSpeakerChanged info

def multicastBye (callId : Bytes) (info : PttInfo) : PttInfo :=
  if info.pttState ≠ .uninit ∧ strncmpEq info.currentCallId callId then
    closeSession (info.report .mByeIndicate)
  else info

def checkPttError (pttErrNo : ℕ) (info : PttInfo) : PttInfo :=
  if pttErrNo = 1 then
    let info := if info.pttState ≠ .uninit then closeSession info else info
    info.report .mByeIndicate
  else info

/-- The pointer into the list and the state of the session stay. -/
def pttDestroy (info : PttInfo) : Except Fault PttInfo := do
  let info ← groupInfoDestroy info
  return { bzeroPttInfo info with transportId := none }

def pttInit (info : PttInfo) : PttInfo := groupInfoInit info

/-! ### What the signals change -/

/-- The list of groups stays as it is. -/
structure SameList (info info' : PttInfo) : Prop where
  heap : info'.heap = info.heap
  fresh : info'.fresh = info.fresh
  generalGroup : info'.generalGroup = info.generalGroup

theorem SameList.refl (info : PttInfo) : SameList info info := ⟨rfl, rfl, rfl⟩

theorem SameList.trans {info info₁ info' : PttInfo} (h : SameList info info₁)
    (h' : SameList info₁ info') : SameList info info' :=
  ⟨h'.heap.trans h.heap, h'.fresh.trans h.fresh, h'.generalGroup.trans h.generalGroup⟩

section signals

variable {o : Outside} {inv : MulticastInvite} {info info' : PttInfo} {node : ℕ}

theorem pttCloseMedia_sameList (info : PttInfo) : SameList info (pttCloseMedia info) := by
  unfold pttCloseMedia
  dsimp only
  split <;> exact ⟨rfl, rfl, rfl⟩

theorem pttCloseMedia_media (info : PttInfo) : (pttCloseMedia info).stream = false ∧
    (pttCloseMedia info).sndPort = false ∧ (pttCloseMedia info).sndPool = false := by
  unfold pttCloseMedia
  dsimp only
  split <;> exact ⟨rfl, rfl, rfl⟩

theorem pttCloseMedia_texts (info : PttInfo) : (pttCloseMedia info).gSpeaker = info.gSpeaker ∧
    (pttCloseMedia info).currentCallId = info.currentCallId := by
  unfold pttCloseMedia
  dsimp only
  split <;> exact ⟨rfl, rfl⟩

theorem report_sameList (info : PttInfo) (e : Effect) : SameList info (info.report e) :=
    ⟨rfl, rfl, rfl⟩

theorem enterState_sameList (info : PttInfo) (newState : NativeStatus) :
    SameList info (pttEnterState info newState) := ⟨rfl, rfl, rfl⟩

theorem closeSession_sameList (info : PttInfo) : SameList info (closeSession info) :=
  (pttCloseMedia_sameList info).trans ⟨rfl, rfl, rfl⟩

theorem callIncoming_ok {success : Bool} (h : multicastCallIncoming o info = .ok (success, info')) :
    SameList info info' ∧ info'.pttState = info.pttState ∧
      info'.gCurrentGroup = info.gCurrentGroup := by
  obtain ⟨⟨node, c⟩, -, h⟩ := bind_eq_ok.mp h
  dsimp only at h
  split at h
  · obtain ⟨_, -, h⟩ := bind_eq_ok.mp h
    cases h
  · unfold assertReturn at h
    split_ifs at h <;> cases h
    · obtain ⟨effects, transports, hclose⟩ := pjmediaTransportClose_eq info c.val
      rw [hclose]
      exact ⟨⟨rfl, rfl, rfl⟩, rfl, rfl⟩
    all_goals exact ⟨⟨rfl, rfl, rfl⟩, rfl, rfl⟩

/-- Outside of a session the media are not opened, and opening them neither begins nor ends one. -/
theorem pttOpenMedia_ok (h : pttOpenMedia o info = .ok info') :
    SameList info info' ∧ info'.gCurrentGroup = info.gCurrentGroup ∧
      (info.pttState = .uninit → info' = info) ∧
      (info.pttState ≠ .uninit → info'.pttState ≠ .uninit) := by
  unfold pttOpenMedia at h
  split at h
  · next hstate =>
    obtain ⟨⟨success, info₁⟩, hcall, h⟩ := bind_eq_ok.mp h
    obtain ⟨hlist, hstate₁, hgroup⟩ := callIncoming_ok hcall
    have hlist' : SameList info info₁ := (report_sameList info _).trans hlist
    dsimp only at h
    split_ifs at h <;> cases h
    · exact ⟨hlist'.trans (enterState_sameList _ _), hgroup, by simp [hstate],
        by simp [pttEnterState]⟩
    · refine ⟨hlist', hgroup, by simp [hstate], fun _ => ?_⟩
      rw [hstate₁]
      simp [PttInfo.report, hstate]
  · next hstate =>
    cases h
    exact ⟨⟨rfl, rfl, rfl⟩, rfl, by simp [hstate], by simp [pttEnterState]⟩
  · cases h
    exact ⟨.refl info, rfl, fun _ => rfl, id⟩

theorem openUnlessCalling_ok (h : openUnlessCalling o info = .ok info') :
    SameList info info' ∧ info'.gCurrentGroup = info.gCurrentGroup ∧
      (info.pttState ≠ .uninit → info'.pttState ≠ .uninit) := by
  unfold openUnlessCalling at h
  split_ifs at h
  · obtain ⟨hlist, hgroup, -, hstate⟩ := pttOpenMedia_ok h
    exact ⟨hlist, hgroup, hstate⟩
  · cases h
    exact ⟨.refl info, rfl, id⟩

theorem resumeSession_ok (h : resumeSession o inv node info = .ok info') :
    SameList info info' ∧ info'.gCurrentGroup = some node ∧ info'.pttState ≠ .uninit := by
  obtain ⟨info₁, hmedia, h⟩ := bind_eq_ok.mp h
  have hok : SameList info info₁ ∧ info₁.gCurrentGroup = some node := by
    split_ifs at hmedia
    · cases hmedia
      exact ⟨⟨rfl, rfl, rfl⟩, rfl⟩
    · obtain ⟨hlist, hgroup, -⟩ := openUnlessCalling_ok hmedia
      exact ⟨⟨hlist.heap, hlist.fresh, hlist.generalGroup⟩, hgroup⟩
  cases h
  refine ⟨hok.1.trans (enterState_sameList _ _), hok.2, ?_⟩
  simp only [pttEnterState]
  split_ifs <;> simp

theorem beginSession_ok (h : beginSession o node info = .ok info') :
    SameList info info' ∧ info'.gCurrentGroup = some node ∧ info'.pttState ≠ .uninit := by
  obtain ⟨hlist, hgroup, hstate⟩ := openUnlessCalling_ok h
  exact ⟨⟨hlist.heap, hlist.fresh, hlist.generalGroup⟩, hgroup, hstate (by simp [pttEnterState])⟩

/-- After an invitation the session is that of the group at `node`. -/
theorem invited_ok {bSpeakerChanged : Bool}
    (h : invited o inv node bSpeakerChanged info = .ok info') :
    SameList info info' ∧ info'.gCurrentGroup = some node ∧ info'.pttState ≠ .uninit := by
  obtain ⟨info₁, hrun, h⟩ := bind_eq_ok.mp h
  have hok : SameList info info₁ ∧ info₁.gCurrentGroup = some node ∧ info₁.pttState ≠ .uninit := by
    split_ifs at hrun
    · exact resumeSession_ok hrun
    · exact beginSession_ok hrun
  split_ifs at h <;> cases h
  · exact ⟨hok.1.trans (report_sameList _ _), hok.2⟩
  · exact hok

theorem recordSpeaker_eq (speaker : Bytes) (info : PttInfo) :
    ∃ t, recordSpeaker speaker info = { info with gSpeaker := t } := by
  unfold recordSpeaker
  split <;> exact ⟨_, rfl⟩

theorem heartbeat_cases {header : List Bytes} (h : multicastHeartbeat header info = .ok info') :
    info' = info ∨ info' = closeSession (info.report .mByeIndicate) := by
  unfold multicastHeartbeat at h
  split_ifs at h
  · cases h
    exact .inl rfl
  · obtain ⟨bfind, -, h⟩ := bind_eq_ok.mp h
    split_ifs at h <;> cases h
    · exact .inl rfl
    · exact .inr rfl

/-- The variables once the identifier of the call is recorded, too. -/
def recordCall (inv : MulticastInvite) (info : PttInfo) : PttInfo :=
  let info := recordSpeaker inv.speaker info
  { info with currentCallId := strncpy info.currentCallId inv.callId }

/-- What an invitation comes to for the group at `node`: nobody speaks, the terminal itself speaks,
or the session is with the group. -/
inductive Answered (o : Outside) (inv : MulticastInvite) (node : ℕ) (info info' : PttInfo) : Prop
  | silent (e : Effect) : inv.speaker = [] →
      info' = pttEnterState ({ recordCall inv info with gSpeaker := [] }.report e) .free →
      Answered o inv node info info'
  | own : inv.speaker ≠ [] → checkSpeaker o inv.speaker = true → info' = recordCall inv info →
      Answered o inv node info info'
  | group (bSpeakerChanged : Bool) : inv.speaker ≠ [] → checkSpeaker o inv.speaker = false →
      invited o inv node bSpeakerChanged (recordCall inv info) = .ok info' →
      Answered o inv node info info'

/-- An invitation for another group leaves no more than the speaker. -/
theorem invite_cases (h : multicastInvite o inv info = .ok info') :
    info' = recordSpeaker inv.speaker info ∧
        (info.generalGroup = none ∨ ∃ head bfind node, info.generalGroup = some head ∧
          search info head inv.groupNum head = .ok (bfind, node) ∧
          (bfind = false ∨ info.gCurrentGroup ≠ none)) ∨
      ∃ head node, info.generalGroup = some head ∧
        search info head inv.groupNum head = .ok (true, node) ∧ Answered o inv node info info' := by
  obtain ⟨t, ht⟩ := recordSpeaker_eq inv.speaker info
  unfold multicastInvite at h
  dsimp only at h
  rw [ht] at h
  split at h
  · next hgen =>
    cases h
    exact .inl ⟨ht.symm, .inl hgen⟩
  · next head hgen =>
    obtain ⟨⟨listed, node⟩, hsearch, h⟩ := bind_eq_ok.mp h
    obtain ⟨bfind, hfind, h⟩ := bind_eq_ok.mp h
    dsimp only at hfind
    cases bfind with
    | false =>
      cases h
      refine .inl ⟨ht.symm, .inr ⟨head, listed, node, hgen, hsearch, ?_⟩⟩
      cases listed with
      | false => exact .inl rfl
      | true => exact .inr fun hnone => by simp [invitedGroup, hnone] at hfind
    | true =>
      have hlisted : listed = true := by
        cases listed with
        | false => simp [invitedGroup] at hfind
        | true => rfl
      refine .inr ⟨head, node, hgen, hlisted ▸ hsearch, ?_⟩
      have hcall : recordCall inv info = { info with
          gSpeaker := t
          currentCallId := strncpy info.currentCallId inv.callId } := by
        simp [recordCall, ht]
      simp only [Bool.not_true, Bool.false_eq_true, if_false] at h
      split_ifs at h with hempty hown
      · cases h
        exact .silent _ (by simpa using hempty) (by rw [hcall])
      · cases h
        exact .own (by simpa using hempty) hown hcall.symm
      · exact .group _ (by simpa using hempty) (by simpa using hown) (by rw [hcall]; exact h)

/-- An invitation leaves the list as it is. -/
theorem invite_sameList (h : multicastInvite o inv info = .ok info') : SameList info info' := by
  obtain ⟨t, ht⟩ := recordSpeaker_eq inv.speaker info
  have hcall : SameList info (recordCall inv info) := by
    rw [recordCall, ht]
    exact ⟨rfl, rfl, rfl⟩
  obtain ⟨rfl, -⟩ | ⟨head, node, -, -, hans⟩ := invite_cases h
  · rw [ht]
    exact ⟨rfl, rfl, rfl⟩
  · cases hans with
    | silent e _ heq =>
      subst heq
      exact hcall.trans ⟨rfl, rfl, rfl⟩
    | own _ _ heq => exact heq ▸ hcall
    | group _ _ _ hinvited => exact hcall.trans (invited_ok hinvited).1

end signals

/-! ### The system -/

inductive NativeEvent where
  | groupInfo (content : Bytes)
  | regroup (content : Bytes)
  | memberInfo (content : Bytes)
  /-- The older message. -/
  | message (content : Bytes)
  | invite (o : Outside) (inv : MulticastInvite)
  | bye (callId : Bytes)
  | heartbeat (header : List Bytes)
  | openMedia (o : Outside)
  | closeMedia
  | checkPttError (pttErrNo : ℕ)
  | destroy
  | init
  deriving Repr, DecidableEq

namespace NativeEvent

def step (info : PttInfo) : NativeEvent → Except Fault PttInfo
  | .groupInfo content => pttReceiveGroupInfoParse info content false
  | .regroup content => pttReceiveGroupInfoParse (info.report .receiveRegroup) content true
  | .memberInfo content => doReceiveMemberInfo info content
  | .message content => pttMessageContentParse info content
  | .invite o inv => multicastInvite o inv info
  | .bye callId => .ok (multicastBye callId info)
  | .heartbeat header => multicastHeartbeat header info
  | .openMedia o => pttOpenMedia o info
  | .closeMedia => .ok (pttCloseMedia info)
  | .checkPttError pttErrNo => .ok (PttTerminal.checkPttError pttErrNo info)
  | .destroy => pttDestroy info
  | .init => .ok (pttInit info)

end NativeEvent

/-- The events that do not bring, read or drop groups. -/
def NativeEvent.isSignal : NativeEvent → Bool
  | .invite _ _ | .bye _ | .heartbeat _ | .openMedia _ | .closeMedia | .checkPttError _ => true
  | _ => false

theorem signal_sameList {info info' : PttInfo} {e : NativeEvent} (he : e.isSignal = true)
    (hs : e.step info = .ok info') : SameList info info' := by
  cases e with
  | invite o inv => exact invite_sameList hs
  | bye callId =>
    cases hs
    unfold multicastBye
    split_ifs
    · exact (report_sameList _ _).trans (closeSession_sameList _)
    · exact .refl info
  | heartbeat header =>
    obtain rfl | rfl := heartbeat_cases hs
    · exact .refl _
    · exact (report_sameList _ _).trans (closeSession_sameList _)
  | openMedia o => exact (pttOpenMedia_ok hs).1
  | closeMedia =>
    cases hs
    exact pttCloseMedia_sameList info
  | checkPttError pttErrNo =>
    cases hs
    unfold checkPttError
    dsimp only
    split_ifs
    · exact (closeSession_sameList info).trans (report_sameList _ _)
    · exact report_sameList _ _
    · exact .refl info
  | _ => cases he

/-- After a fault the process is gone, so that only the events without one are steps. -/
def native (events : NativeEvent → Bool) : System PttInfo NativeEvent where
  init info := ∃ udpCreate, info = .initial udpCreate
  enabled info e := events e ∧ (e.step info).toBool
  next info e := (e.step info).toOption.getD info

instance (events : NativeEvent → Bool) (info : PttInfo) (e : NativeEvent) :
    Decidable ((native events).enabled info e) :=
  inferInstanceAs (Decidable (events e ∧ (e.step info).toBool))

/-- The list of the group 1. -/
def listOfOne : Bytes := ascii "general-group:A,1,0,0,0,a:1\r\nemergency-group:\r\n"

theorem native_init (events : NativeEvent → Bool) :
    (native events).init (.initial fun _ _ => true) := ⟨_, rfl⟩

/-- What every event without a fault keeps holds in every state of a run. -/
theorem native_invariant {events : NativeEvent → Bool} {ok : PttInfo → NativeEvent → Prop}
    {P : PttInfo → Prop} (hinit : ∀ udpCreate, P (.initial udpCreate))
    (hstep : ∀ info info' e, P info → events e → ok info e → e.step info = .ok info' → P info')
    {info : PttInfo} (h : (native events).Reached ok info) : P info := by
  refine h.invariant ?_ ?_
  · rintro _ ⟨udpCreate, rfl⟩
    exact hinit udpCreate
  · rintro info e hP ⟨hevent, hok⟩ he
    cases hrun : e.step info with
    | error f => simp [hrun, Except.toBool] at hok
    | ok info' =>
      have hnext : (native events).next info e = info' := by simp [native, hrun, Except.toOption]
      rw [hnext]
      exact hstep info info' e hP hevent he hrun

end PttTerminal
