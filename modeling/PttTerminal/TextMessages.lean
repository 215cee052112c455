import PttTerminal.Library.ModifiedUtf8
import PttTerminal.NativeCalls
import PttTerminal.Pager
import PttTerminal.RegroupFlag

/-!
# Text messages

A text message and the announcement of new groups come to the application by the same call, and only
the number tells them apart: the announcement has none. The number of a text message is cut out of
its From header by two searches. The native code has bytes, and the application the strings that
`NewStringUTF` makes of them: of the modified UTF-8 of a text it makes the text.
-/
namespace PttTerminal

open Checked (Stop lift)

/-- A request MESSAGE: the From header as it is printed, the type and the body. -/
structure PagerMessage where
  sender : Bytes
  mimeType : Bytes
  body : Bytes
  deriving Repr, DecidableEq

/-- The arguments of `jni_cb_receive_msg`. -/
structure ReceivedMessage where
  number : Option Bytes
  text : Option Bytes
  deriving Repr, DecidableEq

def doReceiveSms (sender body : Bytes) : Except Fault ReceivedMessage := do
  let fromNumber ← match uriNumber sender with
    | some number => sprintf 32 number
    | none => .ok []
  return ⟨some fromNumber, some (cString body)⟩

/-- A type that is shorter than the one it is compared with has to be the start of it. -/
def PagerMessage.isSms (m : PagerMessage) : Bool := strncmpEq (ascii "text/plain") m.mimeType

/-- The message with new groups, of which the application is told before the groups are read. -/
def PagerMessage.isRegroup (m : PagerMessage) : Bool := (ascii "ind:re-groupInfo").isPrefixOf m.body

/-- `on_pager2`, and the calls of `jni_cb_receive_msg`. -/
def onPager2Message (info : PttInfo) (m : PagerMessage) :
    Except (Stop Fault) (PttInfo × List ReceivedMessage) := do
  if m.isSms then
    let received ← lift (doReceiveSms m.sender m.body)
    return (info, [received])
  else if strncmpEq (ascii "application/zzy-ptt") m.mimeType then
    let info ← onPager2 info m.body
    return (info, if m.isRegroup then [⟨none, none⟩] else [])
  else return (info, [])

/-- A string of the application, in UTF-16 units. -/
abbrev JavaString := List UInt16

/-- `trim` takes away every unit up to the blank. -/
def isBlankString (str : Option JavaString) : Bool := (str.getD []).all (· ≤ 32)

/-- The terminal, and the texts that were broadcast with their numbers, the latest first. -/
structure PagerState where
  info : PttInfo
  terminal : Terminal
  newMessages : List (JavaString × Option JavaString) := []

def PagerState.jniReceiveMessage (s : PagerState) (number text : Option JavaString) : PagerState :=
  if isBlankString number then { s with terminal := s.terminal.jniReceiveMessage none }
  else { s with newMessages := (number.getD [], text) :: s.newMessages }

section

variable (newStringUTF : Bytes → JavaString)

/-- No string is made of a null pointer. -/
def PagerState.jniCbReceiveMsg (s : PagerState) (r : ReceivedMessage) : PagerState :=
  s.jniReceiveMessage (r.number.map newStringUTF) (r.text.map newStringUTF)

/-- The events of the terminal but for `receiveMessage`, which only a message leads to. -/
abbrev OtherEvent := { e : Event // ∀ number, e ≠ .receiveMessage number }

inductive PagerEvent where
  | message (m : PagerMessage)
  | other (e : OtherEvent)

def PagerEvent.step (s : PagerState) : PagerEvent → Except (Stop Fault) PagerState
  | .message m => do
    let (info, received) ← onPager2Message s.info m
    return received.foldl (PagerState.jniCbReceiveMsg newStringUTF) { s with info := info }
  | .other e => .ok { s with terminal := e.val.handle s.terminal }

/-- A text message is broadcast once with its body, and only a regroup message sets the flag. -/
structure ToldApart (e : PagerEvent) : Prop where
  text : ∀ m, e = .message m → m.mimeType = ascii "text/plain" → ∀ s, ∃ s' number text,
    e.step newStringUTF s = .ok s' ∧ s'.newMessages = (number, some text) :: s.newMessages ∧
      ModifiedUtf8.encode text = m.body
  flag : ∀ s s', e.step newStringUTF s = .ok s' → s.terminal.bDynamic = false →
    s'.terminal.bDynamic = true → ∃ m, e = .message m ∧ m.isRegroup = true

/-- What is cut out of the header. -/
def PagerMessage.number (m : PagerMessage) : Bytes := (uriNumber m.sender).getD []

/-- The number of a text message fits and is not blank, and the body is the modified UTF-8 of a
text. A message of no type, or of a type that is the start of `text/plain`, is taken for a text
message, too. -/
structure PagerMessage.Numbered (m : PagerMessage) : Prop where
  text : m.mimeType = ascii "text/plain" → m.number.length < 32 ∧
    isBlankString (some (newStringUTF m.number)) = false ∧ m.body ∈ Set.range ModifiedUtf8.encode
  flag : m.isSms = true → m.isRegroup = false →
    32 ≤ m.number.length ∨ isBlankString (some (newStringUTF m.number)) = false

def PagerEvent.Numbered : PagerEvent → Prop
  | .message m => m.Numbered newStringUTF
  | .other _ => True

end

section

variable {newStringUTF : Bytes → JavaString} {m : PagerMessage} {s s' : PagerState}
  {info info' : PttInfo}

theorem doReceiveSms_eq : doReceiveSms m.sender m.body =
    if m.number.length < 32 then .ok ⟨some m.number, some (cString m.body)⟩
    else .error .overflow := by
  unfold doReceiveSms PagerMessage.number sprintf
  cases uriNumber m.sender with
  | none => rfl
  | some number =>
    dsimp only [Option.getD_some]
    split_ifs <;> rfl

/-- What a text message does. -/
theorem step_sms (h : m.isSms = true) : (PagerEvent.message m).step newStringUTF s =
    if m.number.length < 32 then .ok (s.jniReceiveMessage (some (newStringUTF m.number))
      (some (newStringUTF (cString m.body))))
    else .error (.fault .overflow) := by
  simp only [PagerEvent.step, onPager2Message, h, if_true, doReceiveSms_eq]
  split_ifs <;> rfl

theorem received_ptt {received : List ReceivedMessage} (h : m.isSms = false)
    (hrun : onPager2Message info m = .ok (info', received)) :
    received = [] ∨ m.isRegroup = true ∧ received = [⟨none, none⟩] := by
  unfold onPager2Message at hrun
  rw [if_neg (by simp [h])] at hrun
  by_cases hptt : strncmpEq (ascii "application/zzy-ptt") m.mimeType = true
  · rw [if_pos hptt] at hrun
    obtain ⟨info₁, -, hrun⟩ := Checked.bind_eq_ok.mp hrun
    cases hregroup : m.isRegroup with
    | true =>
      rw [hregroup] at hrun
      cases hrun
      exact .inr ⟨rfl, rfl⟩
    | false =>
      rw [hregroup] at hrun
      cases hrun
      exact .inl rfl
  · rw [if_neg hptt] at hrun
    cases hrun
    exact .inl rfl

/-- A message of the other type tells no text, and sets the flag when it is a regroup message. -/
theorem step_ptt (h : m.isSms = false)
    (hstep : (PagerEvent.message m).step newStringUTF s = .ok s') :
    s'.terminal = s.terminal ∨ m.isRegroup = true := by
  obtain ⟨⟨info, received⟩, hrun, hstep⟩ := Checked.bind_eq_ok.mp hstep
  cases hstep
  obtain rfl | ⟨hregroup, -⟩ := received_ptt h hrun
  · exact .inl rfl
  · exact .inr hregroup

theorem isSms_text (h : m.mimeType = ascii "text/plain") : m.isSms = true := by
  unfold PagerMessage.isSms
  rw [h]
  decide

theorem jniReceiveMessage_blank {number text : Option JavaString}
    (h : isBlankString number = true) :
    (s.jniReceiveMessage number text).newMessages = s.newMessages ∧
      (s.jniReceiveMessage number text).terminal.bDynamic = true := by
  rw [PagerState.jniReceiveMessage, if_pos h]
  exact ⟨rfl, rfl⟩

theorem jniReceiveMessage_number {number text : Option JavaString}
    (h : isBlankString number = false) :
    (s.jniReceiveMessage number text).newMessages = (number.getD [], text) :: s.newMessages ∧
      (s.jniReceiveMessage number text).terminal = s.terminal := by
  rw [PagerState.jniReceiveMessage, if_neg (by simp [h])]
  exact ⟨rfl, rfl⟩

/-- A text message is broadcast with its body just when it has a number and its body is the modified
UTF-8 of a text. -/
theorem sms_told_iff (hjni : ∀ t, newStringUTF (ModifiedUtf8.encode t) = t) (h : m.isSms = true) :
    (∃ s' number text, (PagerEvent.message m).step newStringUTF s = .ok s' ∧
      s'.newMessages = (number, some text) :: s.newMessages ∧ ModifiedUtf8.encode text = m.body) ↔
      m.number.length < 32 ∧ isBlankString (some (newStringUTF m.number)) = false ∧
        m.body ∈ Set.range ModifiedUtf8.encode := by
  rw [step_sms h]
  constructor
  · rintro ⟨s', number, text, hstep, hnew, hbody⟩
    split_ifs at hstep with hlen
    cases hstep
    refine ⟨hlen, ?_, text, hbody⟩
    by_contra hblank
    rw [Bool.not_eq_false] at hblank
    rw [(jniReceiveMessage_blank hblank).1] at hnew
    exact absurd (congrArg List.length hnew) (by simp)
  · rintro ⟨hlen, hblank, text, hbody⟩
    have hfree : cString m.body = m.body :=
      cString_eq_self_iff.mpr (hbody ▸ ModifiedUtf8.zero_notMem_encode text)
    rw [if_pos hlen, hfree, ← hbody, hjni]
    exact ⟨_, newStringUTF m.number, text, rfl, (jniReceiveMessage_number hblank).1, rfl⟩

/-- Text messages and regroup messages are told apart just when the text messages have numbers. -/
theorem toldApart_iff (newStringUTF : Bytes → JavaString)
    (hjni : ∀ t, newStringUTF (ModifiedUtf8.encode t) = t) (e : PagerEvent) :
    ToldApart newStringUTF e ↔ e.Numbered newStringUTF := by
  cases e with
  | other e =>
    refine iff_of_true ⟨fun m hm => (by cases hm), fun s s' hstep hset hset' => ?_⟩ trivial
    cases hstep
    obtain ⟨number, he, -⟩ := Terminal.bDynamic_handle hset hset'
    exact absurd he (e.property number)
  | message m =>
    constructor
    · intro h
      refine ⟨fun hmime => ?_, fun hsms hregroup => ?_⟩
      · have hstart := h.text m rfl hmime ⟨.initial fun _ _ => true, {}, []⟩
        exact (sms_told_iff hjni (isSms_text hmime)).mp hstart
      · by_contra hno
        rw [not_or, Nat.not_le, Bool.not_eq_false] at hno
        let s : PagerState := ⟨.initial fun _ _ => true, {}, []⟩
        have hstep : (PagerEvent.message m).step newStringUTF s = _ := step_sms hsms
        rw [if_pos hno.1] at hstep
        obtain ⟨m', hm', hregroup'⟩ := h.flag _ _ hstep rfl (jniReceiveMessage_blank hno.2).2
        cases hm'
        rw [hregroup] at hregroup'
        cases hregroup'
    · intro h
      refine ⟨fun m' hm' hmime s => ?_, fun s s' hstep hset hset' => ?_⟩
      · cases hm'
        exact (sms_told_iff hjni (isSms_text hmime)).mpr (h.text hmime)
      · refine ⟨m, rfl, ?_⟩
        by_contra hregroup
        rw [Bool.not_eq_true] at hregroup
        cases hsms : m.isSms with
        | true =>
          rw [step_sms hsms] at hstep
          split_ifs at hstep with hlen
          cases hstep
          have hblank := (h.flag hsms hregroup).resolve_left (by omega)
          rw [(jniReceiveMessage_number hblank).2, hset] at hset'
          cases hset'
        | false =>
          obtain hsame | hregroup' := step_ptt hsms hstep
          · rw [hsame, hset] at hset'
            cases hset'
          · rw [hregroup] at hregroup'
            cases hregroup'

end

/-- A function that does what `NewStringUTF` does on modified UTF-8. -/
def decoded (b : Bytes) : JavaString := (ModifiedUtf8.decode b).getD []

theorem decoded_encode (t : JavaString) : decoded (ModifiedUtf8.encode t) = t := by simp [decoded]

/-- A text with an umlaut from a subscriber. -/
theorem subscriber_message_told : ToldApart decoded (.message
    ⟨ascii "<sip:8001@10.0.0.9>", ascii "text/plain", ascii "gr" ++ [0xC3, 0xBC] ++ ascii "n"⟩) := by
  refine (toldApart_iff decoded decoded_encode _).mpr
    ⟨fun _ => ?_, fun _ _ => .inr (by decide +kernel)⟩
  exact ⟨by decide, by decide +kernel, [103, 114, 252, 110], by decide +kernel⟩

/-- A text message from a telephone number is taken for the announcement of new groups. -/
theorem tel_message_not_told : ¬ ∀ e : PagerEvent, ToldApart decoded e := by
  intro h
  let m : PagerMessage := ⟨ascii "<tel:+4989123>", ascii "text/plain", ascii "hello"⟩
  obtain ⟨s', number, text, hstep, hnew, -⟩ :=
    (h (.message m)).text m rfl rfl ⟨.initial fun _ _ => true, {}, []⟩
  rw [step_sms (by decide), if_pos (by decide)] at hstep
  cases hstep
  rw [(jniReceiveMessage_blank (by decide +kernel)).1] at hnew
  cases hnew

end PttTerminal
