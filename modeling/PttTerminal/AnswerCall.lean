import PttTerminal.NativeCalls

/-!
# Answering a call

The application answers a call by its identifier. The role and the state that are tested before are
those of the current call.
-/
namespace PttTerminal

/-- `pjsip_role_e`. -/
inductive SipRole where
  | uac
  | uas
  deriving Repr, DecidableEq

/-- The state is before `PJSIP_INV_STATE_CONNECTING`. -/
def InvState.beforeConnecting : InvState → Bool
  | .null | .calling | .incoming | .early => true
  | .connecting | .confirmed | .disconnected => false

/-- The fields of `pjsua_call_info` that are read. -/
structure SipCallInfo where
  role : SipRole
  state : InvState
  deriving Repr, DecidableEq

/-- A place for a call: the role of its dialog, if there is one, and the state of its session. -/
structure DialogSlot where
  role : Option SipRole
  inv : Option InvState
  deriving Repr, DecidableEq

/-- Whether the answer 200 was sent, and the status that is returned. -/
structure AnswerResult where
  sent : Bool
  status : ℤ
  deriving Repr, DecidableEq

/-- The calls and the roles of their dialogs. -/
structure AnsweringApp where
  app : NativeApp
  role : ℕ → Option SipRole

namespace AnsweringApp

def dialog (a : AnsweringApp) (i : ℕ) : DialogSlot := ⟨a.role i, (a.app.slot i).inv⟩

/-- An incoming call that is not yet connecting. -/
def answerable (d : DialogSlot) : Bool :=
  d.role = some .uas && d.inv.any InvState.beforeConnecting

/-- What is read of a place in the table: without a dialog the record is all zero. -/
def infoOf (d : DialogSlot) : SipCallInfo :=
  match d.role with
  | some role => ⟨role, d.inv.getD .disconnected⟩
  | none => ⟨.uac, .null⟩

/-- `pjsua_call_get_info` of the current call. An identifier outside of the table fails its
assertion; `unread` is what is found when the process goes on. -/
def currentInfo (a : AnsweringApp) (unread : Option SipCallInfo) : Except Fault SipCallInfo :=
  match a.app.currentCall with
  | some i => if i < a.app.calls.length then .ok (infoOf (a.dialog i)) else readUnread unread
  | none => readUnread unread
where
  readUnread : Option SipCallInfo → Except Fault SipCallInfo
    | none => .error .assertion
    | some info => .ok info

/-- The record passes the test of `answer`. -/
def passes (info : SipCallInfo) : Bool := info.role = .uas && info.state.beforeConnecting

/-- `pjsuaCallAnswer2` answers the call of one place. -/
def answer (pjsuaCallAnswer2 : DialogSlot → Except Fault AnswerResult) (a : AnsweringApp)
    (unread : Option SipCallInfo) : Option ℕ → Except Fault AnswerResult
  | none => .ok ⟨false, -1⟩
  | some callId => do
    let info ← a.currentInfo unread
    if passes info then pjsuaCallAnswer2 (a.dialog callId) else return ⟨false, -1⟩

/-- What an answer to the call itself comes to: an incoming call that is not yet connecting is
answered, and any other one is refused. -/
def answerCall (pjsuaCallAnswer2 : DialogSlot → Except Fault AnswerResult) (d : DialogSlot) :
    Except Fault AnswerResult :=
  if answerable d then pjsuaCallAnswer2 d else .ok ⟨false, -1⟩

/-- The 200 is sent exactly to an incoming call that is not yet connecting, and the outcome is that
of the call itself. -/
structure Addresses (pjsuaCallAnswer2 : DialogSlot → Except Fault AnswerResult) (d : DialogSlot)
    (result : Except Fault AnswerResult) : Prop where
  sent : (∃ r, result = .ok r ∧ r.sent = true) ↔ answerable d = true
  outcome : result = answerCall pjsuaCallAnswer2 d

/-- The current call passes the test exactly when the call itself is to be answered, or answering a
call that is not to be answered comes to the refusal, too. -/
def TestsAlike (pjsuaCallAnswer2 : DialogSlot → Except Fault AnswerResult) (a : AnsweringApp)
    (unread : Option SipCallInfo) (callId : ℕ) : Prop :=
  ∃ info, a.currentInfo unread = .ok info ∧ (passes info = answerable (a.dialog callId) ∨
    answerable (a.dialog callId) = false ∧
      pjsuaCallAnswer2 (a.dialog callId) = .ok ⟨false, -1⟩)

section

variable {pjsuaCallAnswer2 : DialogSlot → Except Fault AnswerResult} {a : AnsweringApp}
  {unread : Option SipCallInfo} {d : DialogSlot} {callId : ℕ}

theorem answer_of_info {info : SipCallInfo} (h : a.currentInfo unread = .ok info) :
    answer pjsuaCallAnswer2 a unread (some callId) =
      if passes info then pjsuaCallAnswer2 (a.dialog callId) else .ok ⟨false, -1⟩ := by
  simp only [answer, h, ok_bind, pure, Except.pure]

/-- The outcome of the call itself is in order. -/
theorem answerCall_sent (hsends : ∀ d, answerable d = true →
      ∃ r, pjsuaCallAnswer2 d = .ok r ∧ r.sent = true) (d : DialogSlot) :
    (∃ r, answerCall pjsuaCallAnswer2 d = .ok r ∧ r.sent = true) ↔ answerable d = true := by
  unfold answerCall
  split_ifs with h
  · exact iff_of_true (hsends d h) h
  · simp [h]

end

/-- Whatever calls there are, a call is answered as it has to be exactly when the test of the
current call comes out as that of the call. -/
theorem answer_addresses_iff (pjsuaCallAnswer2 : DialogSlot → Except Fault AnswerResult)
    (hsends : ∀ d, answerable d = true → ∃ r, pjsuaCallAnswer2 d = .ok r ∧ r.sent = true)
    (a : AnsweringApp) (unread : Option SipCallInfo) (callId : ℕ) :
    Addresses pjsuaCallAnswer2 (a.dialog callId)
        (answer pjsuaCallAnswer2 a unread (some callId)) ↔
      TestsAlike pjsuaCallAnswer2 a unread callId := by
  constructor
  · rintro ⟨-, houtcome⟩
    cases hinfo : a.currentInfo unread with
    | error f =>
      have hfault : answer pjsuaCallAnswer2 a unread (some callId) = .error f := by
        simp only [answer, hinfo]
        rfl
      rw [hfault, answerCall] at houtcome
      split_ifs at houtcome with h
      obtain ⟨r, hr, -⟩ := hsends _ h
      rw [hr] at houtcome
      cases houtcome
    | ok info =>
      refine ⟨info, hinfo, ?_⟩
      rw [answer_of_info hinfo, answerCall] at houtcome
      cases hp : passes info <;> cases ha : answerable (a.dialog callId)
      · exact .inl rfl
      · obtain ⟨r, hr, hsent⟩ := hsends _ ha
        rw [hp, ha, hr] at houtcome
        cases houtcome
        cases hsent
      · rw [hp, ha] at houtcome
        exact .inr ⟨rfl, houtcome⟩
      · exact .inl rfl
  · rintro ⟨info, hinfo, halike⟩
    have houtcome : answer pjsuaCallAnswer2 a unread (some callId) =
        answerCall pjsuaCallAnswer2 (a.dialog callId) := by
      rw [answer_of_info hinfo, answerCall]
      rcases halike with hsame | ⟨hno, hrefused⟩
      · rw [hsame]
      · simp [hno, hrefused]
    refine ⟨?_, houtcome⟩
    rw [houtcome]
    exact answerCall_sent hsends _

/-- The answer of a call that came in and is not yet connecting, and the error of any other one. -/
def answer200 (d : DialogSlot) : Except Fault AnswerResult :=
  if answerable d then .ok ⟨true, 0⟩ else .ok ⟨false, 171140⟩

/-- The call 0 was confirmed before the call 1 came in. -/
def overlapping : AnsweringApp where
  app :=
    { info := .initial fun _ _ => true
      calls := [⟨some .confirmed, true⟩, ⟨some .incoming, false⟩]
      currentCall := some 0 }
  role _ := some .uas

theorem second_call_not_answered : ¬ ∀ (pjsuaCallAnswer2 : DialogSlot → Except Fault AnswerResult),
    (∀ d, answerable d = true → ∃ r, pjsuaCallAnswer2 d = .ok r ∧ r.sent = true) →
    ∀ (a : AnsweringApp) (unread : Option SipCallInfo) (callId : ℕ),
      (a.app.slot callId).inv ≠ none →
      Addresses pjsuaCallAnswer2 (a.dialog callId)
        (answer pjsuaCallAnswer2 a unread (some callId)) := by
  intro h
  have hsends : ∀ d, answerable d = true → ∃ r, answer200 d = .ok r ∧ r.sent = true :=
    fun d hd => ⟨⟨true, 0⟩, by simp [answer200, hd], rfl⟩
  obtain ⟨r, hr, hsent⟩ := (h answer200 hsends overlapping none 1 (by decide)).sent.mpr (by decide)
  have hrefused : answer answer200 overlapping none (some 1) = .ok ⟨false, -1⟩ := by rfl
  rw [hrefused] at hr
  cases hr
  cases hsent

/-- Two calls have come in, and the one that is not current is answered. -/
def bothRinging : AnsweringApp where
  app :=
    { info := .initial fun _ _ => true
      calls := [⟨some .early, true⟩, ⟨some .incoming, false⟩]
      currentCall := some 0 }
  role _ := some .uas

theorem second_call_answered : Addresses answer200 (bothRinging.dialog 1)
    (answer answer200 bothRinging none (some 1)) :=
  (answer_addresses_iff answer200 (fun d hd => ⟨⟨true, 0⟩, by simp [answer200, hd], rfl⟩)
    bothRinging none 1).mpr ⟨infoOf (bothRinging.dialog 0), rfl, .inl rfl⟩

end AnsweringApp

end PttTerminal
