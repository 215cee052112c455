import PttTerminal.CurrentGroup
import PttTerminal.GroupCopies
import PttTerminal.MemberCopies
import PttTerminal.ResponseText

/-!
# The lengths of the fields

No parser checks how long a field is. Every handler is run here with the lengths of its arrays, and
ends with `noRoom` where a copy leaves no room for a zero. In each state that is reached without
such a copy, the messages that are copied in bounds are told by their texts and by the list.
-/
namespace PttTerminal

open Loops LinkedCells Runs
open Checked (Stop lift check InRoom Follows inRoom_lift inRoom_ok inRoom_check inRoom_lift_bind
  inRoom_check_bind follows_lift follows_check_bind lift_eq_ok check_eq_ok)

/-! ### The handlers with their arrays -/

/-- The copies of a scan end it with `overflow`. -/
def ofScan {α : Type} : Except Fault α → Except (Stop Fault) α
  | .error .overflow => .error .noRoom
  | x => lift x

/-- A string that was never assigned has no length. -/
def Assigned (size : ℕ) (slen : Option ℕ) : Prop := ∃ n ∈ slen, n < size

instance (size : ℕ) : (slen : Option ℕ) → Decidable (Assigned size slen)
  | none => isFalse (by rintro ⟨n, hn, -⟩; cases hn)
  | some n => decidable_of_iff (n < size) ⟨fun h => ⟨n, rfl, h⟩, by rintro ⟨_, ⟨⟩, h⟩; exact h⟩

/-- The strings are copied a second time when they are indicated. -/
def indicateCopy (info : PttInfo) (x : InviteVars) : Except (Stop Fault) PttInfo := do
  if x.bFind then
    check (Assigned 32 x.pjGroup ∧ Assigned 32 x.pjSpeaker)
    return info.report (.mInviteIndicate (x.pjGroup.map fun n => cString (x.group.take n))
      (x.pjSpeaker.map fun n => cString (x.speaker.take n)))
  else return info

def receiveMinviteCopy (info : PttInfo) (msgContent : Bytes) : Except (Stop Fault) PttInfo := do
  let x ← ofScan (lineLoop inviteCopyStages {} msgContent)
  indicateCopy info x

/-- `invited` with the copies of `multicast_invite_indicate`. -/
def invitedCopy (o : Outside) (inv : MulticastInvite) (node : ℕ) (bSpeakerChanged : Bool)
    (info : PttInfo) : Except (Stop Fault) PttInfo := do
  let info ← lift (if info.gCurrentGroup.isSome then resumeSession o inv node info
    else beginSession o node info)
  if o.destNumber ≠ inv.groupNum || bSpeakerChanged then
    check (inv.groupNum.length < 32 ∧ inv.speaker.length < 32)
    return info.report (.mInviteIndicate (some (cString inv.groupNum)) (some (cString inv.speaker)))
  else return info

/-- What follows once the group at the node is found. -/
def addressedCopy (o : Outside) (inv : MulticastInvite) (node : ℕ) (bSpeakerChanged : Bool)
    (info : PttInfo) : Except (Stop Fault) PttInfo := do
  check (inv.callId.length < 512)
  let info := { info with currentCallId := strncpy info.currentCallId inv.callId }
  if inv.speaker.isEmpty then
    let info := { info with gSpeaker := [] }
    check (inv.groupNum.length < 32)
    let status : PttGroupStatus := { groupNum := some (cString inv.groupNum), status := .free }
    return pttEnterState (info.report (.updatePttState status)) .free
  else if checkSpeaker o inv.speaker then return info
  else invitedCopy o inv node bSpeakerChanged info

/-- What follows once the speaker is recorded. -/
def answerCopy (o : Outside) (inv : MulticastInvite) (bSpeakerChanged : Bool) (info : PttInfo) :
    Except (Stop Fault) PttInfo :=
  match info.generalGroup with
  | none => .ok info
  | some head => do
    let (listed, node) ← lift (search info head inv.groupNum head)
    let bfind ← lift (invitedGroup info inv.groupNum listed)
    if !bfind then return info else addressedCopy o inv node bSpeakerChanged info

/-- The speaker and the identifier of the call are kept in arrays of 512 bytes. -/
def multicastInviteCopy (o : Outside) (inv : MulticastInvite) (info : PttInfo) :
    Except (Stop Fault) PttInfo := do
  let bSpeakerChanged := !strncmpEq info.gSpeaker inv.speaker
  check (bSpeakerChanged = true → inv.speaker.length < 512)
  answerCopy o inv bSpeakerChanged (recordSpeaker inv.speaker info)

structure MulticastMemberState where
  num : Bytes
  name : Bytes
  status : ℤ
  deriving Repr, DecidableEq

/-- What the application is told; nothing is copied when the change is about all members. -/
def receiveMemberStateChange (m : MulticastMemberState) :
    Except (Stop Fault) (Option MemberEntry) := do
  if strncmpEq (ascii "all") m.num then return none
  else
    check (m.name.length < 32 ∧ m.num.length < 32)
    return some ⟨cString m.num, cString m.name, m.status⟩

/-- What comes in. -/
inductive Arrival where
  | native (e : NativeEvent)
  | callInfo (msgContent : Bytes)
  | response (status : PttStatus) (msgContent : Bytes)
  | memberState (m : MulticastMemberState)
  deriving Repr, DecidableEq

namespace Arrival

def step (info : PttInfo) : Arrival → Except (Stop Fault) PttInfo
  | .native (.groupInfo content) => loadGroupInfoCopy info content
  | .native (.regroup content) => cleanupOnRegroupCopy (info.report .receiveRegroup) content
  | .native (.memberInfo content) => doReceiveMemberInfoCopy info content
  | .native (.invite o inv) => multicastInviteCopy o inv info
  | .native e => lift (e.step info)
  | .callInfo msgContent => receiveMinviteCopy info msgContent
  | .response status msgContent => ofScan (receiveResponseCopy info status msgContent)
  | .memberState m => do
    let _ ← receiveMemberStateChange m
    return info

/-- The older message is read by no handler. -/
def isRead : Arrival → Bool
  | .native e => isNotMessage e
  | _ => true

end Arrival

/-- After a fault, and after a copy out of bounds, nothing is known. -/
def arrivals : System PttInfo Arrival where
  init info := ∃ udpCreate, info = .initial udpCreate
  enabled info a := a.isRead = true ∧ (a.step info).toBool = true
  next info a := (a.step info).toOption.getD info

instance (info : PttInfo) (a : Arrival) : Decidable (arrivals.enabled info a) :=
  inferInstanceAs (Decidable (a.isRead = true ∧ (a.step info).toBool = true))

/-! ### What fits -/

/-- No `PJ_ASSERT_RETURN` of the call that comes in stops the process. -/
def MediaOutcome.returns (o : MediaOutcome) : Bool :=
  !o.streamCreate || o.extraCheck || (o.getPort && o.poolCreate)

/-- The group at the node can be opened, or its media are left alone. -/
def Opens (o : Outside) (info : PttInfo) (node : ℕ) : Prop :=
  (∃ g, info.heap.vl node = some g ∧ g.transport.isSome ∧ o.media.returns = true) ∨
    o.callCount ≠ 0 ∨ info.gCurrentGroup.isSome ∧ info.stream = true

/-- The speaker is kept when it is another one. The identifier of the call is kept for the group of
the session, which every group can become; there a speaker is indicated who is another one or speaks
in a group that was not dialled. -/
structure InviteFits (o : Outside) (inv : MulticastInvite) (info : PttInfo) : Prop where
  speaker : strncmpEq info.gSpeaker inv.speaker = false → inv.speaker.length < 512
  addressed : ∀ head node, info.generalGroup = some head →
    search info head inv.groupNum head = .ok (true, node) →
    invitedGroup info inv.groupNum true = .ok true →
    inv.callId.length < 512 ∧ (inv.speaker ≠ [] → checkSpeaker o inv.speaker = false →
      (o.destNumber ≠ inv.groupNum ∨ strncmpEq info.gSpeaker inv.speaker = false) →
      Opens o info node → inv.speaker.length < 32)

/-- No group and no speaker that the loop comes to has 64 bytes, and what is indicated at the end
was assigned and has less than 32. -/
structure CallInfoFits (msgContent : Bytes) : Prop where
  lines : Avoids inviteRules (longField inviteFields) [] msgContent
  indicated : ∀ x, Reads inviteRules [] {} msgContent x → x.bFind = true →
    Assigned 32 x.pjGroup ∧ Assigned 32 x.pjSpeaker

namespace Arrival

/-- What arrives is short enough for the arrays that it is copied into. -/
def Fits (info : PttInfo) : Arrival → Prop
  | .native (.groupInfo content) => info.transportId = none → LoadFits content
  | .native (.regroup content) => RegroupFits info content
  | .native (.memberInfo content) => MembersFit content
  | .native (.invite o inv) => InviteFits o inv info
  | .native _ => True
  | .callInfo msgContent => CallInfoFits msgContent
  | .response status msgContent =>
    status = .waiting → Avoids waitingRules (longField waitingFields) [] msgContent
  | .memberState m =>
    strncmpEq (ascii "all") m.num = false → m.name.length < 32 ∧ m.num.length < 32

end Arrival

/-! ### One message -/

section scans

variable {α : Type} {x : Except Fault α} {info info' : PttInfo} {msgContent : Bytes}

theorem ofScan_inRoom : InRoom (ofScan x) ↔ x ≠ .error .overflow := by
  rcases x with (_ | _ | _ | _ | _ | _) | a <;> simp [ofScan, InRoom]

theorem ofScan_eq_ok {a : α} : ofScan x = .ok a ↔ x = .ok a := by
  rcases x with (_ | _ | _ | _ | _ | _) | b <;> simp [ofScan]

theorem inRoom_ofScan_bind {β : Type} {f : α → Except (Stop Fault) β} :
    InRoom (ofScan x >>= f) ↔ x ≠ .error .overflow ∧ ∀ a, x = .ok a → InRoom (f a) := by
  simp only [Checked.inRoom_bind, ofScan_inRoom, ofScan_eq_ok]

theorem indicate_inRoom {x : InviteVars} : InRoom (indicateCopy info x) ↔
    (x.bFind = true → Assigned 32 x.pjGroup ∧ Assigned 32 x.pjSpeaker) := by
  unfold indicateCopy
  split_ifs with hfind
  · rw [inRoom_check_bind]
    simp [hfind, pure, Except.pure]
  · simp [hfind, pure, Except.pure]

theorem callInfo_inRoom :
    InRoom (receiveMinviteCopy info msgContent) ↔ CallInfoFits msgContent := by
  rw [receiveMinviteCopy, inRoom_ofScan_bind,
    lineLoop_overflow inviteCopyStages_guard inviteStages_obey]
  simp only [indicate_inRoom]
  constructor
  · rintro ⟨hlines, hend⟩
    refine ⟨hlines, fun x hx => hend x ?_⟩
    rw [lineLoop_guards inviteCopyStages_guard inviteStages_obey hlines]
    exact (lineLoop_eq_ok inviteStages_obey).mpr hx
  · intro h
    refine ⟨h.lines, fun x hx => h.indicated x ?_⟩
    rw [lineLoop_guards inviteCopyStages_guard inviteStages_obey h.lines] at hx
    exact (lineLoop_eq_ok inviteStages_obey).mp hx

theorem follows_ofScan : Follows (ofScan x) x := by
  intro h
  rcases x with (_ | _ | _ | _ | _ | _) | a <;> first | rfl | exact absurd rfl h

/-- In bounds the handler does what it does with arrays that are long enough. -/
theorem callInfo_follows :
    Follows (receiveMinviteCopy info msgContent) (receiveMinvite info msgContent) := by
  intro hroom
  have hscan : lineLoop inviteCopyStages {} msgContent = lineLoop inviteStages {} msgContent :=
    lineLoop_guards inviteCopyStages_guard inviteStages_obey (callInfo_inRoom.mp hroom).lines
  have hplain : receiveMinvite info msgContent = lineLoop inviteCopyStages {} msgContent >>= fun x =>
      if x.bFind then .ok (info.report (.mInviteIndicate
          (x.pjGroup.map fun n => cString (x.group.take n))
          (x.pjSpeaker.map fun n => cString (x.speaker.take n))))
        else .ok info := by
    rw [receiveMinvite, doReceiveMinviteBySmessage, hscan]
    rcases lineLoop inviteStages {} msgContent with e | x
    · rfl
    · simp only [ok_bind]
      split_ifs <;> rfl
  rw [hplain]
  refine Follows.bind follows_ofScan (fun x => ?_) hroom
  unfold indicateCopy
  split_ifs
  · exact follows_check_bind (follows_lift (.ok _))
  · exact follows_lift (.ok _)

theorem rejectStages_quiet {r : Bytes} {y : PttGroupStatus} :
    lineLoop rejectStages y r ≠ .error .overflow := by
  have hguard : List.Forall₂ (Guards (longField [])) rejectStages rejectStages :=
    .cons (guards_refl (by simp) (headerBlock_inBounds _))
      (.cons (guards_refl (by simp) (fieldBlock_inBounds _ _ _)) .nil)
  exact lineLoop_quiet hguard

theorem response_inRoom {status : PttStatus} :
    InRoom (ofScan (receiveResponseCopy info status msgContent)) ↔
      (status = .waiting → Avoids waitingRules (longField waitingFields) [] msgContent) := by
  rw [ofScan_inRoom]
  cases status with
  | waiting =>
    rw [← parseWaitingCopy_inBounds]
    cases hparse : parseWaitingCopy msgContent <;>
      simp [receiveResponseCopy, hparse, bind, Except.bind, pure, Except.pure]
  | rejected =>
    have hquiet := rejectStages_quiet (r := msgContent) (y := { status := .rejected })
    rw [← parseRejectMsg] at hquiet
    cases hparse : parseRejectMsg msgContent <;>
      simp_all [receiveResponseCopy, receivePttRightResponse, bind, Except.bind, pure, Except.pure]
  | _ => simp [receiveResponseCopy, receivePttRightResponse]

theorem response_follows {status : PttStatus} :
    Follows (ofScan (receiveResponseCopy info status msgContent))
      (receivePttRightResponse info status msgContent) := by
  intro hroom
  have hfit := response_inRoom.mp hroom
  rw [follows_ofScan hroom]
  cases status with
  | waiting => rw [receiveResponseCopy_eq (hfit rfl)]
  | _ => rfl

theorem memberState_inRoom {m : MulticastMemberState} : InRoom (receiveMemberStateChange m) ↔
    (strncmpEq (ascii "all") m.num = false → m.name.length < 32 ∧ m.num.length < 32) := by
  unfold receiveMemberStateChange
  split_ifs with hall
  · simp [hall, pure, Except.pure]
  · rw [inRoom_check_bind]
    simp [hall, pure, Except.pure]

end scans

/-! ### The invitation -/

section invitations

variable {o : Outside} {inv : MulticastInvite} {info info' : PttInfo} {node : ℕ} {g : GroupInfo}
  {xs : List (ℕ × GroupInfo)} {b : Bool}

theorem assertReturn_isOk {α : Type} {m : MediaOutcome} {a : α} :
    (∃ r, assertReturn m a = .ok r) ↔ m.extraCheck = true := by
  simp only [assertReturn_eq_ok, exists_and_left, exists_eq, and_true]

/-- A call that comes in needs a transport and media that do not stop the process. -/
theorem callIncoming_isOk (hcur : info.gCurrentGroup = some node)
    (hg : info.heap.vl node = some g) :
    (∃ r, multicastCallIncoming o info = .ok r) ↔
      g.transport.isSome ∧ o.media.returns = true := by
  obtain ⟨c, hc, -, -, hcv⟩ := Store.exists_cell (s := info.heap) (i := node) (by simp [hg])
  obtain rfl : g = c.val := by rw [hg] at hcv; exact Option.some.inj hcv
  have hderef : info.deref (some node) = .ok (node, c) := by
    simp [PttInfo.deref, hc, bind, Except.bind, pure, Except.pure]
  simp only [multicastCallIncoming, hcur, hderef, ok_bind]
  cases c.val.transport with
  | none => simp [bind_eq_ok]
  | some t =>
    simp only [Option.isSome_some, true_and, MediaOutcome.returns]
    cases hs : o.media.streamCreate with
    | false => simp [pure, Except.pure]
    | true =>
      cases hp : o.media.getPort with
      | false => simpa using assertReturn_isOk
      | true =>
        cases hk : o.media.poolCreate with
        | false => simpa using assertReturn_isOk
        | true => cases o.media.createPlayer <;> simp [pure, Except.pure]

theorem openUnlessCalling_isOk (hstate : info.pttState = .init)
    (hcur : info.gCurrentGroup = some node) (hg : info.heap.vl node = some g) :
    (∃ info', openUnlessCalling o info = .ok info') ↔
      (g.transport.isSome ∧ o.media.returns = true) ∨ o.callCount ≠ 0 := by
  unfold openUnlessCalling
  split_ifs with hcount
  · rw [← callIncoming_isOk (o := o)
      (show (info.report .callHangupAll).gCurrentGroup = some node from hcur) hg]
    simp only [pttOpenMedia, hstate, bind_eq_ok, hcount, ne_eq, not_true_eq_false, or_false]
    constructor
    · rintro ⟨info', r, hr, -⟩
      exact ⟨r, hr⟩
    · rintro ⟨⟨success, info₁⟩, hr⟩
      exact ⟨_, (success, info₁), hr, rfl⟩
  · simp [hcount]

variable (inv) in
/-- The session goes on, or begins, unless its media have to be opened and cannot be. -/
theorem session_isOk (hg : info.heap.vl node = some g) :
    (∃ info', (if info.gCurrentGroup.isSome then resumeSession o inv node info
      else beginSession o node info) = .ok info') ↔ Opens o info node := by
  have hopen : ∀ info₁ : PttInfo, info₁.heap = info.heap →
      ((∃ info', openUnlessCalling o
          (pttEnterState { info₁ with gCurrentGroup := some node } .init) = .ok info') ↔
        (∃ g, info.heap.vl node = some g ∧ g.transport.isSome ∧ o.media.returns = true) ∨
          o.callCount ≠ 0) := by
    intro info₁ hheap
    rw [openUnlessCalling_isOk (g := g) rfl rfl (by rw [← hg, ← hheap]; rfl)]
    simp [hg]
  unfold Opens
  rw [← or_assoc, ← hopen info rfl]
  split_ifs with hcur
  · simp only [resumeSession, bind_eq_ok, hcur, true_and]
    cases hstream : info.stream with
    | true =>
      simp only [if_true, or_true, iff_true]
      exact ⟨_, _, rfl, rfl⟩
    | false =>
      simp only [Bool.false_eq_true, if_false, or_false]
      constructor
      · rintro ⟨info', info₁, hrun, -⟩
        exact ⟨info₁, hrun⟩
      · rintro ⟨info₁, hrun⟩
        exact ⟨_, info₁, hrun, rfl⟩
  · simp [beginSession, hcur]

theorem invitedCopy_inRoom (hg : info.heap.vl node = some g) (hnum : inv.groupNum.length < 32) :
    InRoom (invitedCopy o inv node b info) ↔
      ((o.destNumber ≠ inv.groupNum ∨ b = true) → Opens o info node →
        inv.speaker.length < 32) := by
  have hend : ∀ info₁ : PttInfo, InRoom (if o.destNumber ≠ inv.groupNum || b then do
        (check (inv.groupNum.length < 32 ∧ inv.speaker.length < 32) : Except (Stop Fault) Unit)
        return info₁.report
          (.mInviteIndicate (some (cString inv.groupNum)) (some (cString inv.speaker)))
      else return info₁) ↔
        (o.destNumber ≠ inv.groupNum ∨ b = true → inv.speaker.length < 32) := by
    intro info₁
    by_cases hindicated : o.destNumber ≠ inv.groupNum ∨ b = true
    · have hif : (decide (o.destNumber ≠ inv.groupNum) || b) = true := by simpa using hindicated
      rw [if_pos hif, inRoom_check_bind]
      simp [hindicated, hnum, pure, Except.pure]
    · have hif : ¬ (decide (o.destNumber ≠ inv.groupNum) || b) = true := by simpa using hindicated
      rw [if_neg hif]
      simp [hindicated, pure, Except.pure]
  rw [invitedCopy, inRoom_lift_bind]
  simp only [hend]
  rw [← session_isOk inv hg]
  constructor
  · rintro h hindicated ⟨info₁, hrun⟩
    exact h info₁ hrun hindicated
  · intro h info₁ hrun hindicated
    exact h hindicated ⟨info₁, hrun⟩

theorem addressedCopy_inRoom (hg : info.heap.vl node = some g)
    (hnum : inv.groupNum.length < 32) : InRoom (addressedCopy o inv node b info) ↔
      inv.callId.length < 512 ∧ (inv.speaker ≠ [] → checkSpeaker o inv.speaker = false →
        (o.destNumber ≠ inv.groupNum ∨ b = true) → Opens o info node →
          inv.speaker.length < 32) := by
  rw [addressedCopy, inRoom_check_bind]
  refine and_congr_right fun _ => ?_
  dsimp only
  split_ifs with hempty hown
  · rw [inRoom_check_bind]
    simp_all [pure, Except.pure]
  · simp [hown, pure, Except.pure]
  · have hspeaker : inv.speaker ≠ [] := by simpa using hempty
    have hinvited : InRoom (invitedCopy o inv node b
        { info with currentCallId := strncpy info.currentCallId inv.callId }) ↔
        ((o.destNumber ≠ inv.groupNum ∨ b = true) → Opens o info node →
          inv.speaker.length < 32) := invitedCopy_inRoom hg hnum
    simpa [hspeaker, hown] using hinvited

/-- The number of the group fits, because it is the number of a group of the list. -/
theorem answerCopy_inRoom (h : info.Groups xs) (hs : AllShort xs) :
    InRoom (answerCopy o inv b info) ↔ ∀ head node, info.generalGroup = some head →
      search info head inv.groupNum head = .ok (true, node) →
      invitedGroup info inv.groupNum true = .ok true →
      inv.callId.length < 512 ∧ (inv.speaker ≠ [] → checkSpeaker o inv.speaker = false →
        (o.destNumber ≠ inv.groupNum ∨ b = true) → Opens o info node →
          inv.speaker.length < 32) := by
  have hfound : ∀ {head node}, info.generalGroup = some head →
      search info head inv.groupNum head = .ok (true, node) →
      ∃ g, info.heap.vl node = some g ∧ inv.groupNum.length < 32 := by
    intro head node hgen hsearch
    obtain ⟨p, hp, rfl, hnum⟩ := search_found h hgen hsearch
    exact ⟨p.2, h.tracked.vl p hp, hnum ▸ (hs p hp).1⟩
  unfold answerCopy
  cases hgen : info.generalGroup with
  | none => simp
  | some head =>
    simp only [inRoom_lift_bind, Prod.forall]
    constructor
    · intro hroom head' node hhead hsearch hinvited
      obtain rfl := Option.some.inj hhead
      obtain ⟨g, hvl, hlen⟩ := hfound hgen hsearch
      exact (addressedCopy_inRoom hvl hlen).mp (hroom true node hsearch true hinvited)
    · intro hfit listed node hsearch bfind hfind
      cases bfind with
      | false => exact inRoom_ok info
      | true =>
        cases listed with
        | false => simp [invitedGroup] at hfind
        | true =>
          obtain ⟨g, hvl, hlen⟩ := hfound hgen hsearch
          exact (addressedCopy_inRoom hvl hlen).mpr (hfit head node rfl hsearch hfind)

/-- An invitation is copied in bounds just when its speaker and the identifier of its call fit. -/
theorem invite_inRoom (h : info.Groups xs) (hs : AllShort xs) :
    InRoom (multicastInviteCopy o inv info) ↔ InviteFits o inv info := by
  obtain ⟨t, ht⟩ := recordSpeaker_eq inv.speaker info
  have hchanged : (!strncmpEq info.gSpeaker inv.speaker) = true ↔
      strncmpEq info.gSpeaker inv.speaker = false := by simp
  have h' : (recordSpeaker inv.speaker info).Groups xs := by
    rw [ht]
    exact ⟨h.holds, h.bounded⟩
  rw [multicastInviteCopy, inRoom_check_bind, answerCopy_inRoom h' hs, hchanged, ht]
  constructor
  · rintro ⟨hspeaker, haddressed⟩
    exact ⟨hspeaker, haddressed⟩
  · rintro ⟨hspeaker, haddressed⟩
    exact ⟨hspeaker, haddressed⟩

/-! In bounds the invitation does what it does with arrays that are long enough. -/

theorem invitedCopy_plain (h : invitedCopy o inv node b info = .ok info') :
    invited o inv node b info = .ok info' := by
  simp only [invitedCopy, Checked.bind_eq_ok, lift_eq_ok] at h
  obtain ⟨info₁, hrun, h⟩ := h
  rw [invited, hrun, ok_bind]
  split_ifs at h ⊢
  · obtain ⟨-, -, h⟩ := Checked.bind_eq_ok.mp h
    cases h
    rfl
  · cases h
    rfl

theorem invite_plain (h : multicastInviteCopy o inv info = .ok info') :
    multicastInvite o inv info = .ok info' := by
  obtain ⟨-, -, h⟩ := Checked.bind_eq_ok.mp h
  unfold multicastInvite
  dsimp only at h ⊢
  generalize recordSpeaker inv.speaker info = info₁ at h ⊢
  unfold answerCopy at h
  obtain hgen | ⟨head, hgen⟩ := Option.eq_none_or_eq_some info₁.generalGroup
  · simp only [hgen] at h ⊢
    cases h
    rfl
  · simp only [hgen, Checked.bind_eq_ok, lift_eq_ok] at h
    obtain ⟨⟨listed, node⟩, hsearch, bfind, hfind, h⟩ := h
    simp only [hgen, hsearch, ok_bind, hfind]
    cases bfind with
    | false =>
      cases h
      rfl
    | true =>
      simp only [Bool.not_true, Bool.false_eq_true, if_false] at h ⊢
      obtain ⟨-, -, h⟩ := Checked.bind_eq_ok.mp h
      simp only [hgen] at h
      split_ifs at h ⊢
      · obtain ⟨-, -, h⟩ := Checked.bind_eq_ok.mp h
        cases h
        rfl
      · cases h
        rfl
      · exact invitedCopy_plain h

end invitations

/-! ### Runs -/

/-- What is made of an arrival with arrays that are long enough. -/
def Arrival.plain (info : PttInfo) : Arrival → Except Fault PttInfo
  | .native e => e.step info
  | .callInfo msgContent => receiveMinvite info msgContent
  | .response status msgContent => receivePttRightResponse info status msgContent
  | .memberState _ => .ok info

/-- The list is in order, and its groups were copied before. -/
def ListShort (info : PttInfo) : Prop := ∃ xs, info.Groups xs ∧ AllShort xs

theorem arrivals_init (udpCreate : Bytes → UInt32 → Bool) : arrivals.init (.initial udpCreate) :=
  ⟨udpCreate, rfl⟩

section runs

variable {info info' : PttInfo} {a : Arrival} {xs : List (ℕ × GroupInfo)}

theorem regroupFits_report {e : Effect} {content : Bytes} :
    RegroupFits (info.report e) content ↔ RegroupFits info content :=
  ⟨fun h cur hg hd => h cur ⟨hg.holds, hg.bounded⟩ hd,
    fun h cur hg hd => h cur ⟨hg.holds, hg.bounded⟩ hd⟩

theorem step_inRoom (h : ListShort info) : InRoom (a.step info) ↔ a.Fits info := by
  obtain ⟨xs, hg, hs⟩ := h
  have hg' : (info.report .receiveRegroup).Groups xs := hg.of_sameList (report_sameList _ _)
  cases a with
  | native e =>
    cases e with
    | groupInfo content => exact loadGroupInfoCopy_inRoom hg hs
    | regroup content => exact (cleanupCopy_inRoom hg' hs).trans regroupFits_report
    | memberInfo content => exact memberInfo_inRoom
    | invite o inv => exact invite_inRoom hg hs
    | _ => simp only [Arrival.step, inRoom_lift, Arrival.Fits]
  | callInfo msgContent => exact callInfo_inRoom
  | response status msgContent => exact response_inRoom
  | memberState m =>
    simp only [Arrival.step, Checked.inRoom_bind, pure, Except.pure, inRoom_ok, implies_true,
      and_true]
    exact memberState_inRoom

/-- Up to a copy out of bounds, an arrival does what it does with arrays that are long enough. -/
theorem step_plain (h : ListShort info) (hstep : a.step info = .ok info') :
    a.plain info = .ok info' := by
  obtain ⟨xs, hg, hs⟩ := h
  have hg' : (info.report .receiveRegroup).Groups xs := hg.of_sameList (report_sameList _ _)
  cases a with
  | native e =>
    cases e with
    | groupInfo content => exact loadGroupInfoCopy_follows.eq_ok hstep
    | regroup content => exact (cleanupCopy_follows hg' hs).eq_ok hstep
    | memberInfo content => exact memberInfo_plain hstep
    | invite o inv => exact invite_plain hstep
    | _ => exact lift_eq_ok.mp hstep
  | callInfo msgContent => exact callInfo_follows.eq_ok hstep
  | response status msgContent => exact response_follows.eq_ok hstep
  | memberState m =>
    obtain ⟨_, -, h⟩ := Checked.bind_eq_ok.mp hstep
    cases h
    rfl

theorem receiveMinvite_sameList {msgContent : Bytes}
    (h : receiveMinvite info msgContent = .ok info') : SameList info info' := by
  obtain ⟨o, -, h⟩ := bind_eq_ok.mp h
  cases o with
  | none =>
    cases h
    exact .refl info
  | some i =>
    cases h
    exact report_sameList _ _

theorem response_sameList {status : PttStatus} {msgContent : Bytes}
    (h : receivePttRightResponse info status msgContent = .ok info') : SameList info info' := by
  unfold receivePttRightResponse at h
  split at h
  · obtain ⟨_, -, h⟩ := bind_eq_ok.mp h
    cases h
    exact report_sameList _ _
  · obtain ⟨_, -, h⟩ := bind_eq_ok.mp h
    cases h
    exact report_sameList _ _
  · cases h
    exact report_sameList _ _
  · cases h
    exact report_sameList _ _
  · cases h
    exact report_sameList _ _
  · cases h
    exact .refl info

theorem ListShort.of_sameList (h : ListShort info) (hsame : SameList info info') :
    ListShort info' := by
  obtain ⟨xs, hg, hs⟩ := h
  exact ⟨xs, hg.of_sameList hsame, hs⟩

/-- Whatever is read in bounds leaves a list that is short. -/
theorem step_listShort (h : ListShort info) (ha : a.isRead = true)
    (hstep : a.step info = .ok info') : ListShort info' := by
  have hplain := step_plain h hstep
  cases a with
  | native e =>
    by_cases hsignal : e.isSignal = true
    · exact h.of_sameList (signal_sameList hsignal hplain)
    cases e with
    | groupInfo content =>
      obtain ⟨xs, hg, hs⟩ := h
      obtain ⟨ys, hys⟩ := loadGroupInfo_groups hg hplain
      exact ⟨ys, hys, loadGroupInfoCopy_short hstep ys hys⟩
    | regroup content =>
      obtain ⟨xs, hg, hs⟩ := h
      have hg' : (info.report .receiveRegroup).Groups xs := hg.of_sameList (report_sameList _ _)
      obtain ⟨ys, hys⟩ := cleanup_groups hg' hplain
      exact ⟨ys, hys, cleanupCopy_short hg' hs hstep ys hys⟩
    | memberInfo content =>
      obtain ⟨effects, tmpPools, rfl⟩ := doReceiveMemberInfo_frame hplain
      exact h.of_sameList ⟨rfl, rfl, rfl⟩
    | message content => cases ha
    | destroy =>
      obtain ⟨xs, hg, hs⟩ := h
      exact ⟨[], pttDestroy_groups hg hplain, by simp [AllShort]⟩
    | init =>
      obtain ⟨xs, hg, hs⟩ := h
      cases hplain
      exact ⟨[], ⟨rfl, hg.bounded⟩, by simp [AllShort]⟩
    | _ => exact absurd rfl hsignal
  | callInfo msgContent => exact h.of_sameList (receiveMinvite_sameList hplain)
  | response status msgContent => exact h.of_sameList (response_sameList hplain)
  | memberState m =>
    cases hplain
    exact h

theorem reached_listShort {cond : PttInfo → Arrival → Prop} (h : arrivals.Reached cond info) :
    ListShort info := by
  refine h.invariant ?_ ?_
  · rintro _ ⟨udpCreate, rfl⟩
    exact ⟨[], PttInfo.initial_groups udpCreate, by simp [AllShort]⟩
  · rintro info a hP ⟨hread, hok⟩ -
    cases hrun : a.step info with
    | error f => simp [hrun, Except.toBool] at hok
    | ok info' =>
      have hnext : arrivals.next info a = info' := by simp [arrivals, hrun, Except.toOption]
      rw [hnext]
      exact step_listShort hP hread hrun

end runs

/-- A list with a group whose name has 32 bytes. -/
def longNameList : Bytes :=
  ascii "general-group:" ++ List.replicate 32 65 ++ ascii ",1,0,0,0,a:1\r\nemergency-group:\r\n"

end PttTerminal
