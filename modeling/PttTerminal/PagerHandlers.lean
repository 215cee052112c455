import PttTerminal.MemberInfo
import PttTerminal.RegroupLaw

/-!
# What a message is handed to

A message of the type `application/zzy-ptt` is handed to one of a few handlers, which read its text
with a scanner whose faults nobody catches. Here is what they read when their arrays are long
enough.
-/
namespace PttTerminal

open Loops

/-- What is made of a response to a request for the floor. -/
def receivePttRightResponse (info : PttInfo) (status : PttStatus) (msgContent : Bytes) :
    Except Fault PttInfo :=
  match status with
  | .waiting => do
    let s ← parseWaitingMsg msgContent
    return { info with effects := .updatePttState s :: info.effects }
  | .rejected => do
    let s ← parseRejectMsg msgContent
    return { info with effects := .updatePttState s :: info.effects }
  | .busy | .canceled | .forbidden =>
    .ok { info with effects := .receivePttRightResponse status :: info.effects }
  | _ => .ok info

def receiveMinvite (info : PttInfo) (body : Bytes) : Except Fault PttInfo := do
  match ← doReceiveMinviteBySmessage body with
  | some i => return { info with effects := .mInviteIndicate i.group i.speaker :: info.effects }
  | none => return info

section readable

variable {info : PttInfo} {cur : List (ℕ × GroupInfo)} {body content : Bytes}

theorem groupInfo_isOk (h : info.Groups cur) :
    (∃ info', loadGroupInfo info content = .ok info') ↔
      (info.transportId = none → ∃ rows, Lines LoadLine rows content) := by
  cases ht : info.transportId with
  | none => simpa using loadGroupInfo_isOk h ht
  | some t =>
    obtain ⟨e, he⟩ := receiveGroupInfo_ok h
    simp [loadGroupInfo, ht, he]

theorem waiting_isOk : (∃ info', receivePttRightResponse info .waiting body = .ok info') ↔
    ∃ x, Reads waitingRules [] {} body x := by
  simp only [receivePttRightResponse, bind_eq_ok, parseWaitingMsg_eq_ok]
  exact ⟨fun ⟨_, _, ⟨x, hx, _⟩, _⟩ => ⟨x, hx⟩, fun ⟨x, hx⟩ => ⟨_, _, ⟨x, hx, rfl⟩, rfl⟩⟩

theorem reject_isOk : (∃ info', receivePttRightResponse info .rejected body = .ok info') ↔
    ∃ y, Reads rejectRules [] { status := .rejected } body y := by
  simp only [receivePttRightResponse, bind_eq_ok, parseRejectMsg_eq_ok]
  exact ⟨fun ⟨_, y, hy, _⟩ => ⟨y, hy⟩, fun ⟨y, hy⟩ => ⟨_, y, hy, rfl⟩⟩

theorem minvite_isOk : (∃ info', receiveMinvite info body = .ok info') ↔
    ∃ x, Reads inviteRules [] {} body x := by
  rw [← doReceiveMinviteBySmessage_isOk]
  simp only [receiveMinvite, bind_eq_ok]
  constructor
  · rintro ⟨_, o, ho, -⟩
    exact ⟨o, ho⟩
  · rintro ⟨o, ho⟩
    cases o with
    | none => exact ⟨_, none, ho, rfl⟩
    | some i => exact ⟨_, some i, ho, rfl⟩

end readable

end PttTerminal
