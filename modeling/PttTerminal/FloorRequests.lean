import PttTerminal.Library.Journals
import PttTerminal.FloorUpdate

/-!
# Requests for the floor

A request is pending from the moment it is sent until it is answered or cancelled. For each event of
the keys, the commands and the responses, this module says what becomes of the request and of the
statuses that ask for the floor. One request at a time follows when an application and a hang-up
are not received while the status asks for the floor: the test that the handlers lack.
-/
namespace PttTerminal

open Runs Journals

/-- An entry that sends a request, or answers or cancels it. -/
def Entry.requests : Entry → Option Bool
  | .requestApplyPttRight _ _ result => if result = 0 then some true else none
  | .requestCancelPttRight _ => some false
  | .response .busy | .response .rejected | .response .canceled | .response .forbidden => some false
  | _ => none

/-- Whether a request was sent that is neither answered nor cancelled. -/
def pending (es : List Entry) : Bool := (latest Entry.requests es).getD false

/-- A request is made when no other is pending. -/
def OnlyRequest : Entry → List Entry → Prop
  | .requestApplyPttRight .., es => pending es = false
  | _, _ => True

instance : (e : Entry) → (es : List Entry) → Decidable (OnlyRequest e es)
  | .requestApplyPttRight .., es => inferInstanceAs (Decidable (pending es = false))
  | .status _, _ | .command _, _ | .mInviteIndicate .., _ | .response _, _ | .callState _, _ |
    .requestCancelPttRight _, _ | .hangupPttCall _, _ | .requestHangup _, _ |
    .requestAnswer _, _ => isTrue trivial

/-- An entry that has nothing to do with the floor. -/
def Entry.isNeutral (e : Entry) : Bool :=
  e.requests.isNone && match e with
    | .requestApplyPttRight .. => false
    | _ => true

theorem pending_of_neutral {e : Entry} (he : e.isNeutral) (es : List Entry) :
    pending (e :: es) = pending es := by
  have hn : e.requests = none := by
    simp only [Entry.isNeutral, Bool.and_eq_true, Option.isNone_iff_eq_none] at he
    exact he.1
  rw [pending, latest_cons_of_none hn, pending]

theorem pending_of_answer {e : Entry} (he : e.requests = some false) (es : List Entry) :
    pending (e :: es) = false := by
  rw [pending, latest_cons_of_some he]
  rfl

/-- The commands of the key handlers and of a refused request. -/
def Command.ofKey : Command → Bool
  | .applyPttRight | .cancelPttRight | .hangupPttCall | .updatePttUi => true
  | _ => false

/-- Key presses and releases, the delivery of commands, and the responses to requests. -/
def Event.ofFloor : Event → Bool
  | .keyDown | .keyUp | .keyUpResume | .deliver _ => true
  | .receivePttRightResponse native s => Event.ofNative (.receivePttRightResponse native s)
  | .updatePttState _ obj => obj.status = .waiting || obj.status = .rejected
  | _ => false

/-- What the law of requests looks at: whether a request is pending, whether the status asks for the
floor, whether every request was made alone, the key, its handler, the commands on their way, and
whether there are groups. -/
structure Floor where
  pending : Bool
  asking : Bool
  alone : Prop
  key : PttKey
  releasing : Bool
  commands : List Command
  groups : Bool

namespace Floor

/-- A request is made; the native code may refuse to send it. -/
def request (sent : Bool) (f : Floor) : Floor :=
  { f with alone := f.alone ∧ f.pending = false, pending := f.pending || sent, asking := sent }

/-- The request is cancelled, where there is a group. A cancellation that fails ends the
question. -/
def cancel (sent : Bool) (f : Floor) : Floor :=
  if f.groups then { f with pending := false, asking := f.asking && sent } else f

/-- Every request was made alone, and while one is pending, the status asks for the floor of a
group. -/
def Single (f : Floor) : Prop := f.alone ∧ (f.pending = true → f.asking = true ∧ f.groups = true)

theorem Single.cancel {f : Floor} (h : f.Single) (sent : Bool) : (f.cancel sent).Single := by
  unfold Floor.cancel
  split
  · exact ⟨h.1, by simp⟩
  · exact h

end Floor

namespace Terminal

/-- Every request was made when no other was pending. -/
def OneRequest (t : Terminal) : Prop := Throughout OnlyRequest t.journal

instance (t : Terminal) : Decidable t.OneRequest :=
  inferInstanceAs (Decidable (Throughout OnlyRequest t.journal))

def asking (t : Terminal) : Bool :=
  t.pttGroupStatus.status = .applying || t.pttGroupStatus.status = .waiting

def floor (t : Terminal) : Floor where
  pending := pending t.journal
  asking := t.asking
  alone := t.OneRequest
  key := t.ePttKeyStatus
  releasing := t.releasing
  commands := t.commands
  groups := !t.lstGroupData.isEmpty

section
variable {native : ℤ} {t t' : Terminal}

/-! ### Writes -/

theorem oneRequest_neutral {e : Entry} (he : e.isNeutral) (es : List Entry) :
    Throughout OnlyRequest (e :: es) ↔ Throughout OnlyRequest es := by
  have hl : OnlyRequest e es := by
    cases e <;> first | trivial | simp [Entry.isNeutral] at he
  simp [hl]

theorem floor_note {e : Entry} (he : e.isNeutral) (t : Terminal) : (t.note e).floor = t.floor := by
  simp [floor, pending_of_neutral he, asking, OneRequest, oneRequest_neutral he]

theorem floor_answer {e : Entry} (he : e.requests = some false) (t : Terminal) :
    (t.note e).floor = { t.floor with pending := false } := by
  have hl : OnlyRequest e t.journal := by
    cases e with
    | requestApplyPttRight g l r => simp [Entry.requests] at he
    | _ => trivial
  simp [floor, pending_of_answer he, asking, OneRequest, hl]

theorem floor_setStatus (s : PttStatus) (t : Terminal) :
    (t.setStatus s).floor = { t.floor with asking := s = .applying || s = .waiting } := by
  simp [floor, pending_of_neutral (e := .status s) rfl, asking, OneRequest,
    oneRequest_neutral (e := .status s) rfl]

theorem floor_restate (t : Terminal) : (t.setStatus t.pttGroupStatus.status).floor = t.floor := by
  rw [floor_setStatus]
  rfl

theorem floor_setStatus_of_not (s : PttStatus) (hs : s ≠ .applying) (hw : s ≠ .waiting)
    (t : Terminal) :
    (t.setStatus s).floor = { t.floor with asking := false } := by
  simp [floor_setStatus, hs, hw]

theorem floor_free (t : Terminal) : t.free.floor = { t.floor with asking := false } :=
  floor_setStatus_of_not .free (by simp) (by simp) t

theorem floor_setCurrentPttState (src : PttGroupStatus) (t : Terminal) :
    (t.setCurrentPttState src).floor =
      { t.floor with asking := src.status = .applying || src.status = .waiting } := by
  simp [floor, pending_of_neutral (e := .status src.status) rfl, asking, OneRequest,
    oneRequest_neutral (e := .status src.status) rfl]

theorem floor_clear (t : Terminal) :
    t.clear.floor = { t.floor with asking := false, key := .up } := by
  simp [floor, pending_of_neutral (e := .status .idle) rfl, asking, OneRequest,
    oneRequest_neutral (e := .status .idle) rfl]

theorem floor_sendPttCommand (c : Command) (t : Terminal) :
    (t.sendPttCommand c).floor = { t.floor with commands := t.commands ++ [c] } := by
  simp [floor, pending_of_neutral (e := .command c) rfl, asking, OneRequest,
    oneRequest_neutral (e := .command c) rfl]

theorem floor_hangupPttCall (t : Terminal) : t.hangupPttCall.floor = t.floor := by
  unfold hangupPttCall
  split
  · rfl
  · exact floor_note rfl t

theorem floor_checkResult (result : ℤ) (t : Terminal) :
    (t.checkResult result).floor = if result = 0 then t.floor else { t.floor with asking := false } := by
  have hf : ((t.setSpeakerNum none).setStatus .free).floor = { t.floor with asking := false } :=
    floor_setStatus_of_not .free (by simp) (by simp) _
  unfold checkResult
  by_cases h : result = 0
  · simp [h]
  · rw [if_pos h, if_neg h]
    dsimp only
    split
    · exact hf
    · exact hf

theorem floor_cancelPttRight (native : ℤ) (t : Terminal) :
    (t.cancelPttRight native).floor = t.floor.cancel (native = 0) := by
  unfold cancelPttRight getPttGroup
  cases hl : t.lstGroupData with
  | nil => simp [Floor.cancel, floor, hl]
  | cons g gs =>
    have hg : t.floor.groups = true := by simp [floor, hl]
    simp only [List.head?_cons, requestCancelPttRight]
    rw [floor_checkResult, floor_answer rfl, Floor.cancel, if_pos hg]
    by_cases h : native = 0
    · simp [h]
    · simp [h]

theorem pending_request (g : Bytes) (l : List Bytes) (result : ℤ) (es : List Entry) :
    pending (.requestApplyPttRight g l result :: es) = (pending es || decide (result = 0)) := by
  by_cases h : result = 0
  · simp [pending, latest_cons, Entry.requests, h]
  · simp [pending, latest_cons, Entry.requests, h]

theorem floor_noteRequest {g : Bytes} {l : List Bytes} (ha : t.asking) :
    ((t.note (.requestApplyPttRight g l native)).checkResult native).floor =
      t.floor.request (native = 0) := by
  have hn : (t.note (.requestApplyPttRight g l native)).floor =
      { t.floor with
        alone := t.OneRequest ∧ pending t.journal = false
        pending := pending t.journal || decide (native = 0) } := by
    simp [floor, pending_request, asking, OneRequest, OnlyRequest, and_comm]
  rw [floor_checkResult, hn]
  by_cases h : native = 0
  · simp [h, Floor.request, floor, ha]
  · simp [h, Floor.request, floor]

theorem floor_applyPttRight (hr : t.registered) (hl : t.lstGroupData ≠ []) (ha : t.asking) :
    (t.applyPttRight native).floor =
      if t.applyGroup.isNone then t.floor else t.floor.request (native = 0) := by
  unfold applyPttRight
  cases hg : t.applyGroup with
  | none => rfl
  | some g =>
    have hv : (t.setGroupNum (some g)).checkValidation true = true := by
      simp [checkValidation, hr, hl]
    simp only [requestApplyPttRight, hv]
    split
    next h => simp at h
    next =>
      split
      · exact floor_noteRequest (t := (t.setGroupNum (some g)).setBPttErrorShowing true) ha
      · exact floor_noteRequest (t := t.setGroupNum (some g)) ha

/-! ### Updates -/

/-- A status that does not ask for the floor may be replaced by another such. -/
theorem floor_of_not_asking {f : Floor} (ha : t.asking = false)
    (hf : f = { t.floor with asking := false }) :
    f = t.floor := by
  rw [hf]
  simp [floor, ha]

theorem floor_hangupIfTalking (t : Terminal) : t.hangupIfTalking.floor = t.floor := by
  unfold hangupIfTalking
  split
  · exact floor_hangupPttCall t
  · rfl

/-- An update cancels the request of a released key, and leaves the floor alone otherwise. -/
theorem floor_settled (hc : t.callState ≠ .talking) (hs : Settled native t t') :
    t'.floor = if t.inSingleCall = false ∧ t.ePttKeyStatus = .up ∧ t.asking
      then t.floor.cancel (native = 0) else t.floor := by
  cases hs with
  | kept hk =>
    rw [if_neg]
    rintro ⟨hs, hu, ha⟩
    have := hk hs hu
    simp [asking, this.1, this.2.1] at ha
  | speaks _ hd _ hl =>
    have ha : t.asking = false := by obtain h | h := hl <;> simp [asking, h]
    rw [if_neg (by simp [hd])]
    exact floor_of_not_asking ha (floor_setStatus_of_not _ (by simp) (by simp) t)
  | starts _ _ _ ht => exact absurd ht hc
  | silenced _ _ _ hl =>
    have ha : t.asking = false := by obtain h | h := hl <;> simp [asking, h]
    rw [if_neg (by simp [ha])]
    exact floor_of_not_asking ha (by rw [floor_free, floor_hangupIfTalking])
  | hungUp _ _ hp =>
    rw [if_neg (by simp [asking, hp])]
    exact floor_hangupPttCall t
  | cancelled hs hu hw =>
    have ha : t.asking = true := by obtain h | h := hw <;> simp [asking, h]
    rw [if_pos ⟨hs, hu, ha⟩]
    exact floor_cancelPttRight native t
  | forgotten _ _ hp =>
    have ha : t.asking = false := by simp [asking, hp]
    rw [if_neg (by simp [ha])]
    exact floor_of_not_asking ha (floor_free t)

theorem floor_updateOwn (hc : t.callState ≠ .talking) :
    (t.updateOwnPttState native).floor =
      if t.inSingleCall = false ∧ t.ePttKeyStatus = .up ∧ t.asking
        then t.floor.cancel (native = 0) else t.floor := by
  obtain ⟨t₁, rfl | rfl, hs⟩ := updateOwn_settled native t
  · exact floor_settled hc hs
  · have := floor_settled (t := t.setStatus t.pttGroupStatus.status) hc hs
    rw [floor_restate] at this
    exact this

theorem floor_updateOwn_of_not (hc : t.callState ≠ .talking) (ha : t.asking = false) :
    (t.updateOwnPttState native).floor = t.floor := by
  rw [floor_updateOwn hc, if_neg (by simp [ha])]

/-! ### Commands -/

theorem floor_isbPttErrorShowing (t : Terminal) : t.isbPttErrorShowing.2.floor = t.floor := by
  obtain ⟨b, hb⟩ := isbPttErrorShowing_eq t
  rw [hb]
  rfl

/-- An application is refused, waits for the groups, finds no group, or is a request. -/
theorem floor_handleApply (native : ℤ) (t : Terminal) :
    (t.handleApply native).floor =
      if t.isbPttErrorShowing.1 || !t.registered then t.floor
      else if t.lstGroupData.isEmpty then { t.floor with asking := false }
      else if t.applyGroup.isNone then { t.floor with asking := true }
      else t.floor.request (native = 0) := by
  obtain ⟨b, hb⟩ := isbPttErrorShowing_eq t
  unfold handleApply
  dsimp only
  rw [hb]
  simp only [setBPttErrorShowing_registered, setBPttErrorShowing_lstGroupData]
  split
  · rfl
  next hr =>
    split
    · exact floor_setStatus_of_not _ (by simp) (by simp) _
    next hl =>
      have hr' : t.registered = true := by
        simp only [Bool.or_eq_true, not_or, Bool.not_eq_true, Bool.not_eq_false'] at hr
        exact hr.2
      have hs : ((t.setBPttErrorShowing b).setStatus .applying).floor =
          { t.floor with asking := true } := by
        rw [floor_setStatus]
        rfl
      rw [floor_applyPttRight (t := (t.setBPttErrorShowing b).setStatus .applying) hr'
        (by simpa using hl) (by simp [asking]), hs]
      rfl

/-- A cancel command always gives up, and cancels where there is a group. -/
theorem floor_handleCancel (native : ℤ) (t : Terminal) :
    (t.handleCancel native).floor =
      { t.floor with asking := false, pending := pending t.journal && t.lstGroupData.isEmpty } := by
  have hs : ∀ s, s = .free ∨ s = .listening → ((t.setStatus s).cancelPttRight native).floor =
      { t.floor with asking := false, pending := pending t.journal && t.lstGroupData.isEmpty } := by
    intro s hs
    have ha : s ≠ .applying ∧ s ≠ .waiting := by obtain rfl | rfl := hs <;> simp
    rw [floor_cancelPttRight, floor_setStatus_of_not s ha.1 ha.2]
    cases hl : t.lstGroupData with
    | nil => simp [Floor.cancel, floor, hl]
    | cons g gs => simp [Floor.cancel, floor, hl]
  unfold handleCancel
  split
  · exact hs _ (.inl rfl)
  · exact hs _ (.inr rfl)

theorem floor_handleHangup (t : Terminal) : t.handleHangup.floor =
    { t.floor with asking := false } := by
  have hf : (t.free.setCallState .ending).floor = { t.floor with asking := false } := floor_free t
  rw [handleHangup_eq, floor_hangupPttCall]
  exact hf

/-! ### Responses -/

/-- After an answer, a status that does not ask for the floor is set and the floor is updated. -/
theorem floor_afterAnswer {s : PttStatus} (hc : t.callState ≠ .talking) (hs : s ≠ .applying)
    (hw : s ≠ .waiting) : ((t.setStatus s).updateOwnPttState native).floor =
      { t.floor with asking := false } := by
  rw [floor_updateOwn_of_not (t := t.setStatus s) hc (by simp [asking, hs, hw]),
    floor_setStatus_of_not s hs hw]

variable (native) in
/-- A response that answers the request. A refused one is made again while the key is held. -/
theorem floor_response {s : PttStatus} (hc : t.callState ≠ .talking)
    (hs : Event.ofNative (.receivePttRightResponse native s)) :
    ∃ l, (∀ c ∈ l, c = .applyPttRight) ∧ (t.receivePttRightResponse native s).floor =
      { t.floor with pending := false, asking := false, commands := t.commands ++ l } := by
  have hr : (Entry.response s).requests = some false := by
    have : ((s = .busy ∨ s = .canceled) ∨ s = .rejected) ∨ s = .forbidden := by
      simpa [Event.ofNative] using hs
    obtain ((rfl | rfl) | rfl) | rfl := this <;> rfl
  have hn : (t.note (.response s)).floor = { t.floor with pending := false } := floor_answer hr t
  have hnil : { t.floor with pending := false, asking := false, commands := t.commands ++ [] } =
      { t.floor with pending := false, asking := false } := by simp [floor]
  have hans : ∀ s', s' ≠ .applying → s' ≠ .waiting →
      (((t.note (.response s)).setStatus s').updateOwnPttState native).floor =
        { t.floor with pending := false, asking := false, commands := t.commands ++ [] } := by
    intro s' h h'
    rw [floor_afterAnswer (t := t.note (.response s)) hc h h', hn, hnil]
  obtain ⟨hsp, he⟩ | ⟨-, ⟨rfl, he⟩ | ⟨hs', he⟩ | ⟨rfl, he⟩⟩ := receivePttRightResponse_cases t hs
  · refine ⟨[], by simp, ?_⟩
    have ha : t.asking = false := by simp [asking, hsp]
    rw [he, hn, hnil]
    simp [floor, ha]
  · rw [he]
    exact ⟨[], by simp, hans .accepted (by simp) (by simp)⟩
  · rw [he]
    have hne : s ≠ .applying ∧ s ≠ .waiting := by
      obtain rfl | rfl := hs' <;> simp
    refine ⟨[], by simp, hans _ ?_ ?_⟩ <;> split_ifs <;> simp [hne]
  · have hc' : (t.note (.response .forbidden)).clear.floor =
        { t.floor with pending := false, asking := false, key := .up } := by rw [floor_clear, hn]
    rw [he]
    split
    next hk =>
      refine ⟨[.applyPttRight], by simp, ?_⟩
      rw [floor_sendPttCommand]
      have hd : ({ (t.note (.response .forbidden)).clear with ePttKeyStatus := .down } :
          Terminal).floor =
            { (t.note (.response .forbidden)).clear.floor with key := .down } := rfl
      rw [hd, hc']
      simp [floor, hk]
    next hk =>
      have hk' : t.ePttKeyStatus = .up := by
        cases hu : t.ePttKeyStatus with
        | up => rfl
        | down => exact absurd hu hk
      refine ⟨[], by simp, ?_⟩
      rw [hc', hnil]
      simp [floor, hk']

variable (native) in
/-- A waiting response asks for the floor, and with the key released it cancels the request. -/
theorem floor_waiting {obj : PttGroupStatus} (hc : t.callState ≠ .talking)
    (hw : obj.status = .waiting) :
    (t.ePttKeyStatus = .down ∧ (t.updatePttState native obj).floor = t.floor) ∨
    (t.updatePttState native obj).floor =
      if t.inSingleCall = false ∧ t.ePttKeyStatus = .up
        then { t.floor with asking := true }.cancel (native = 0) else { t.floor with asking := true } := by
  have hn : (t.note (.response obj.status)).floor = t.floor := floor_note (by rw [hw]; rfl) t
  unfold updatePttState
  obtain ⟨-, hk, he⟩ | ⟨-, hs⟩ :=
    jniUpdate_waiting native (t := t.note (.response obj.status)) (.inl hw)
  · rw [he]
    exact .inl ⟨hk, hn⟩
  · right
    generalize ht₁ : (t.note (.response obj.status)).setCurrentPttState _ = t₁ at hs
    have hin : t₁.inSingleCall = t.inSingleCall := by rw [← ht₁]; rfl
    have hk : t₁.ePttKeyStatus = t.ePttKeyStatus := by rw [← ht₁]; rfl
    have ha : t₁.asking = true := by simp [← ht₁, asking, hw]
    have hfl : t₁.floor = { t.floor with asking := true } := by
      rw [← ht₁, floor_setCurrentPttState, hn]
      simp [hw]
    have hc₁ : t₁.callState ≠ .talking := by rw [← ht₁]; exact hc
    rw [floor_settled hc₁ hs, hin, hk, ha, hfl]
    simp

theorem floor_rejected {obj : PttGroupStatus} (hc : t.callState ≠ .talking)
    (hw : obj.status = .rejected) :
    (t.updatePttState native obj).floor = { t.floor with pending := false, asking := false } := by
  have hn : (t.note (.response obj.status)).floor = { t.floor with pending := false } :=
    floor_answer (by rw [hw]; rfl) t
  unfold updatePttState
  obtain ⟨hsp, -, he⟩ | ⟨-, hs⟩ :=
    jniUpdate_waiting native (t := t.note (.response obj.status)) (.inr hw)
  · rw [he, hn]
    have hsp' : t.pttGroupStatus.status = .speaking := hsp
    simp [floor, asking, hsp']
  · have hf := floor_settled (t := (t.note (.response obj.status)).setCurrentPttState
      { obj with
        groupNum := t.pttGroupStatus.groupNum
        speakerNum := t.pttGroupStatus.speakerNum }) hc hs
    rw [if_neg (by simp [asking, hw]), floor_setCurrentPttState, hn] at hf
    rw [hf]
    simp [hw]

/-! ### Keys -/

theorem floor_handlePttDown (t : Terminal) : ∃ k l, (∀ c ∈ l, c = .applyPttRight) ∧
    (k = t.ePttKeyStatus ∨ k = .down) ∧
    t.handlePttDown.floor = { t.floor with key := k, commands := t.commands ++ l } := by
  obtain h | h | h | h := handlePttDown_cases t <;> rw [h]
  · exact ⟨t.ePttKeyStatus, [], by simp, .inl rfl, by simp [floor]⟩
  · exact ⟨t.ePttKeyStatus, [.applyPttRight], by simp, .inl rfl, by rw [floor_sendPttCommand]; rfl⟩
  · exact ⟨.down, [], by simp, .inr rfl, by simp [floor, asking, OneRequest]⟩
  · refine ⟨.down, [.applyPttRight], by simp, .inr rfl, ?_⟩
    rw [floor_sendPttCommand]
    rfl

/-- The handler of the released key cancels a question for the floor. -/
theorem floor_resumePttUp (t : Terminal) : ∃ l, (∀ c ∈ l, c = .cancelPttRight ∨ c = .hangupPttCall ∨
      c = .updatePttUi) ∧ (t.asking → .cancelPttRight ∈ l) ∧
    t.resumePttUp.floor = { t.floor with releasing := false, commands := t.commands ++ l } := by
  have hsend : ∀ c, (({ t with releasing := false } : Terminal).sendPttCommand c).floor =
      { t.floor with releasing := false, commands := t.commands ++ [c] } := fun c => by
    rw [floor_sendPttCommand]
    rfl
  have hrefused : t.asking = false →
      (((({ t with releasing := false } : Terminal).setRejectReason (-1)).setStatus
        (if isStrBlank t.pttGroupStatus.speakerNum then .free else .listening)).sendPttCommand
        .updatePttUi).floor =
      { t.floor with releasing := false, commands := t.commands ++ [.updatePttUi] } := fun ha => by
    rw [floor_sendPttCommand, floor_setStatus_of_not _ (by split <;> simp) (by split <;> simp)]
    simp [floor, ha, OneRequest]
  unfold resumePttUp
  dsimp only
  split
  next => exact ⟨[.cancelPttRight], by simp, by simp, hsend _⟩
  next => exact ⟨[.cancelPttRight], by simp, by simp, hsend _⟩
  next h => exact ⟨[.hangupPttCall], by simp, by simp [asking, h], hsend _⟩
  next h => exact ⟨[.hangupPttCall], by simp, by simp [asking, h], hsend _⟩
  next h => exact ⟨[.updatePttUi], by simp, by simp [asking, h], hrefused (by simp [asking, h])⟩
  next h => exact ⟨[.updatePttUi], by simp, by simp [asking, h], hrefused (by simp [asking, h])⟩
  next h h' _ _ _ _ =>
    exact ⟨[], by simp, by simpa [asking] using ⟨h, h'⟩, by simp [floor, asking, OneRequest]⟩

/-! ### What else the events need -/

/-- No call of the group is up, the service runs, and every command was sent for a key. -/
def Ready (t : Terminal) : Prop :=
  t.callState ≠ .talking ∧ t.exitFlag = false ∧ ∀ c ∈ t.commands, c.ofKey

theorem OnlyFloor.ready (h : OnlyFloor t t') (hr : t.Ready) : t'.Ready := by
  unfold Ready
  rw [h]
  exact hr

theorem ready_applyPttRight (h : t.Ready) : (t.applyPttRight native).Ready := by
  unfold applyPttRight requestApplyPttRight
  split
  · exact h
  · split
    · exact h
    · dsimp only
      split
      · exact (onlyFloor_checkResult native _).ready h
      · exact (onlyFloor_checkResult native _).ready h

theorem ready_handleCommand {c : Command} (h : t.Ready) (hc : c.ofKey) :
    (t.handleCommand native c).Ready := by
  have hshow : t.isbPttErrorShowing.2.Ready := by
    obtain ⟨b, hb⟩ := isbPttErrorShowing_eq t
    rw [hb]
    exact h
  unfold handleCommand
  rw [if_neg (by simp [h.2.1])]
  cases c with
  | hangupPttCall =>
    dsimp only [handleHangup]
    have hf : (t.free.setCallState .ending).Ready := ⟨by simp, h.2⟩
    split
    · exact (onlyFloor_hangupPttCall _).ready hf
    · exact hf
  | applyPttRight =>
    dsimp only [handleApply]
    split
    · exact hshow
    · split
      · exact hshow
      · exact ready_applyPttRight hshow
  | cancelPttRight => exact (onlyFloor_cancelPttRight native _).ready h
  | updatePttUi => exact hshow
  | _ => simp [Command.ofKey] at hc

theorem ready_sendPttCommand {c : Command} (h : t.Ready) (hc : c.ofKey) :
    (t.sendPttCommand c).Ready := by
  refine ⟨h.1, h.2.1, ?_⟩
  intro c' hc'
  rw [sendPttCommand_commands, List.mem_append, List.mem_singleton] at hc'
  obtain hc' | rfl := hc'
  · exact h.2.2 c' hc'
  · exact hc

theorem ready_handle {e : Event} (h : t.Ready) (he : e.ofFloor) : (e.handle t).Ready := by
  cases e with
  | keyDown =>
    dsimp only [Event.handle]
    have hd : ({ t with ePttKeyStatus := .down } : Terminal).Ready := h
    obtain hk | hk | hk | hk := handlePttDown_cases t <;> rw [hk]
    · exact h
    · exact ready_sendPttCommand h rfl
    · exact hd
    · exact ready_sendPttCommand hd rfl
  | keyUp => exact h
  | keyUpResume =>
    have hr : ({ t with releasing := false } : Terminal).Ready := h
    dsimp only [Event.handle, resumePttUp]
    split
    · exact ready_sendPttCommand hr rfl
    · exact ready_sendPttCommand hr rfl
    · exact ready_sendPttCommand hr rfl
    · exact ready_sendPttCommand hr rfl
    · refine ready_sendPttCommand ?_ rfl
      exact hr
    · refine ready_sendPttCommand ?_ rfl
      exact hr
    · exact hr
  | deliver native =>
    dsimp only [Event.handle, deliver]
    split
    · exact h
    next c cs hcs =>
      have ht : ({ t with commands := cs } : Terminal).Ready :=
        ⟨h.1, h.2.1, fun c' hc' => h.2.2 c' (by rw [hcs]; exact List.mem_cons_of_mem _ hc')⟩
      exact ready_handleCommand ht (h.2.2 c (by rw [hcs]; exact List.mem_cons_self))
  | receivePttRightResponse native s =>
    have hs : ((s = .busy ∨ s = .canceled) ∨ s = .rejected) ∨ s = .forbidden := by
      simpa [Event.ofFloor, Event.ofNative] using he
    have hu : ∀ s', (((t.note (.response s)).setStatus s').updateOwnPttState native).Ready :=
      fun s' => (onlyFloor_updateOwn native _).ready h
    dsimp only [Event.handle, receivePttRightResponse]
    split
    · exact h
    · obtain ((rfl | rfl) | rfl) | rfl := hs
      · exact hu _
      · exact hu _
      · exact hu _
      · dsimp only
        split
        · refine ready_sendPttCommand ?_ rfl
          exact h
        · exact h
  | updatePttState native obj =>
    have hw : obj.status = .waiting ∨ obj.status = .rejected := by simpa [Event.ofFloor] using he
    obtain ⟨-, -, hj⟩ | ⟨-, hj⟩ :=
      jniUpdate_waiting native (t := t.note (.response obj.status)) hw
    · dsimp only [Event.handle, updatePttState]
      rw [hj]
      exact h
    · exact hj.onlyFloor.ready h
  | _ => simp [Event.ofFloor] at he

/-! ### One request at a time -/

/-- The application is acted on: no error is shown, the terminal is registered and there are
groups. -/
def opensApply (t : Terminal) : Bool :=
  !t.isbPttErrorShowing.1 && t.registered && !t.lstGroupData.isEmpty

theorem opensApply_commands (cs : List Command) (t : Terminal) :
    ({ t with commands := cs } : Terminal).opensApply = t.opensApply := by
  simp only [opensApply, isbPttErrorShowing_fst]

/-- The application becomes a request: no error is shown, the terminal is registered, there are
groups, and one of them is the group to apply for. -/
def acceptsApply (t : Terminal) : Bool :=
  !t.isbPttErrorShowing.1 && t.registered && !t.lstGroupData.isEmpty && t.applyGroup.isSome

theorem acceptsApply_commands (cs : List Command) (t : Terminal) :
    ({ t with commands := cs } : Terminal).acceptsApply = t.acceptsApply := by
  simp only [acceptsApply, isbPttErrorShowing_fst]
  rfl

/-- The test that the handlers of an application and of a hang-up lack. -/
def asksOnce (t : Terminal) : Event → Bool
  | .deliver _ => match t.commands with
    | .applyPttRight :: _ => !t.acceptsApply || !t.asking
    | .hangupPttCall :: _ => !t.asking
    | _ => true
  | _ => true

theorem single_handleApply (h : t.floor.Single) (hok : t.acceptsApply = true → t.asking = false) :
    (t.handleApply native).floor.Single := by
  rw [floor_handleApply]
  split
  · exact h
  next hr =>
    simp only [Bool.or_eq_true, not_or, Bool.not_eq_true, Bool.not_eq_false'] at hr
    split
    next hl =>
      refine ⟨h.1, fun hp => ?_⟩
      have hg : t.floor.groups = true := (h.2 hp).2
      simp [floor, hl] at hg
    next hl =>
      split
      · exact ⟨h.1, fun hp => ⟨rfl, (h.2 hp).2⟩⟩
      next hg =>
        have hl' : t.lstGroupData.isEmpty = false := by simpa using hl
        have hg' : t.applyGroup.isSome = true := by
          rw [Option.isSome_iff_ne_none]
          simpa using hg
        have ha : t.asking = false := hok (by simp [acceptsApply, hr.1, hr.2, hl', hg'])
        have hp : t.floor.pending = false := by
          rw [← Bool.not_eq_true]
          intro hp
          have hask : t.asking = true := (h.2 hp).1
          simp [ha] at hask
        refine ⟨⟨h.1, hp⟩, fun hs => ⟨?_, ?_⟩⟩
        · simpa [Floor.request, hp] using hs
        · simp [Floor.request, floor, hl']

theorem single_deliver (hr : t.Ready) (h : t.floor.Single) (hok : t.asksOnce (.deliver native)) :
    (t.deliver native).floor.Single := by
  unfold deliver
  split
  · exact h
  next c cs hcs =>
    have hu : ({ t with commands := cs } : Terminal).floor.Single := h
    have hc : c.ofKey := hr.2.2 c (by rw [hcs]; exact List.mem_cons_self)
    unfold handleCommand
    rw [if_neg (by simp [hr.2.1])]
    simp only [asksOnce, hcs] at hok
    cases c with
    | applyPttRight =>
      refine single_handleApply hu fun ha => ?_
      rw [acceptsApply_commands] at ha
      have ht : t.asking = false := by simpa [ha] using hok
      exact ht
    | cancelPttRight =>
      dsimp only
      rw [floor_handleCancel]
      refine ⟨h.1, fun hp => ?_⟩
      have hp' : pending t.journal = true ∧ t.lstGroupData.isEmpty = true := by simpa using hp
      have hg : t.floor.groups = true := (h.2 hp'.1).2
      simp [floor, hp'.2] at hg
    | hangupPttCall =>
      dsimp only
      rw [floor_handleHangup]
      refine ⟨h.1, fun hp => ?_⟩
      have ha : t.asking = true := (h.2 hp).1
      simp [ha] at hok
    | updatePttUi =>
      dsimp only
      rw [floor_isbPttErrorShowing]
      exact hu
    | _ => simp [Command.ofKey] at hc

theorem single_updatePttState {obj : PttGroupStatus} (hc : t.callState ≠ .talking)
    (h : t.floor.Single) (hw : obj.status = .waiting ∨ obj.status = .rejected) :
    (t.updatePttState native obj).floor.Single := by
  have ha : Floor.Single { t.floor with asking := true } := ⟨h.1, fun hp => ⟨rfl, (h.2 hp).2⟩⟩
  obtain hw | hw := hw
  · obtain ⟨-, hf⟩ | hf := floor_waiting native hc hw
    · rw [hf]
      exact h
    · rw [hf]
      split
      · exact ha.cancel _
      · exact ha
  · rw [floor_rejected hc hw]
    exact ⟨h.1, by simp⟩

theorem single_handle {e : Event} (hr : t.Ready) (h : t.floor.Single) (he : e.ofFloor)
    (hok : t.asksOnce e) : (e.handle t).floor.Single := by
  cases e with
  | keyDown =>
    obtain ⟨k, l, -, -, hf⟩ := floor_handlePttDown t
    exact hf ▸ h
  | keyUp => exact h
  | keyUpResume =>
    obtain ⟨l, -, -, hf⟩ := floor_resumePttUp t
    exact hf ▸ h
  | deliver native => exact single_deliver hr h hok
  | receivePttRightResponse native s =>
    obtain ⟨l, -, hf⟩ := floor_response native hr.1 he
    exact hf ▸ ⟨h.1, by simp⟩
  | updatePttState native obj =>
    exact single_updatePttState hr.1 h (by simpa [Event.ofFloor] using he)
  | _ => simp [Event.ofFloor] at he

end

/-- Nobody asks for the floor: the key is up, no command is on its way, no call of the group is
up. -/
structure Quiet (t : Terminal) : Prop where
  key : t.ePttKeyStatus = .up
  asking : t.asking = false
  callState : t.callState ≠ .talking
  exitFlag : t.exitFlag = false
  commands : t.commands = []
  releasing : t.releasing = false
  journal : t.journal = []

theorem Fresh.quiet {t : Terminal} (h : t.Fresh) : t.Quiet where
  key := h.key
  asking := by simp [Terminal.asking, h.status]
  callState := by simp [h.callState]
  exitFlag := h.exitFlag
  commands := h.commands
  releasing := h.releasing
  journal := h.journal

theorem Quiet.ready {t : Terminal} (h : t.Quiet) : t.Ready :=
  ⟨h.callState, h.exitFlag, by simp [h.commands]⟩

end Terminal

/-- In every run from a quiet terminal whose steps all meet the condition, no request is made while
another is neither answered nor cancelled. -/
theorem runs_oneRequest {t : Terminal}
    (h : (terminal Terminal.Quiet Event.ofFloor).Reached (fun t e => t.asksOnce e) t) :
    t.OneRequest := by
  have hs : t.Ready ∧ t.floor.Single := by
    refine h.invariant (P := fun t => t.Ready ∧ t.floor.Single) (fun s (hs : s.Quiet) => ?_) ?_
    · refine ⟨hs.ready, ?_, fun hp => ?_⟩
      · simp [Terminal.floor, Terminal.OneRequest, hs.journal]
      · simp [Terminal.floor, hs.journal, pending] at hp
    · intro s e ih he hok
      exact ⟨Terminal.ready_handle ih.1 he.1, Terminal.single_handle ih.1 ih.2 he.1 hok⟩
  exact hs.2.1

/-- A terminal whose floor was left free by an earlier speech. -/
def Terminal.afterSpeech : Terminal :=
  { Terminal.ready with pttGroupStatus := { status := .free, groupNum := some (ascii "8001") } }

theorem quiet_afterSpeech : Terminal.afterSpeech.Quiet := by
  constructor <;> first | rfl | decide

/-- The second of two speeches asks for the floor when the first request is answered. -/
theorem second_press_requests_alone :
    let t := (terminal Terminal.Quiet Event.ofFloor).run .afterSpeech
      [.keyDown, .deliver 0, .receivePttRightResponse 0 .busy, .keyUp, .keyUpResume, .deliver 0,
        .keyDown, .deliver 0]
    t.asking ∧ t.OneRequest :=
  ⟨by decide, runs_oneRequest (System.reached_run quiet_afterSpeech (by decide))⟩

/-- The key repeats before its first command is received. The second command makes a request while
the first request is pending. -/
theorem repeated_key_requests_twice :
    let t := (terminal Terminal.Quiet Event.ofFloor).run .afterSpeech
      [.keyDown, .keyDown, .deliver 0, .deliver 0]
    (terminal Terminal.Quiet Event.ofFloor).Reached (fun _ _ => True) t ∧ ¬t.OneRequest :=
  ⟨System.reached_run quiet_afterSpeech (by decide), by decide⟩

end PttTerminal
