import PttTerminal.GroupListLoad

/-!
# The multicast packets

A packet of the multicast address is read into a record that outlives it: its type and a union of
what the types have. The record is copied out when the packet has been read. A heartbeat brings a
circular list of groups, whose nodes lie in a pool of their own.
-/
namespace PttTerminal

open Loops LinkedCells Walks

/-- `MULTICAST_TYPE`, and the -1 of a line that is not recognised. -/
inductive MulticastType where
  | heartbeat
  | info
  | invite
  | bye
  | memberState
  | unknown
  deriving Repr, DecidableEq

/-- A word of the union: a number (the null pointer is zero), a pointer to a text, or a pointer to
a node of a list. -/
inductive Word where
  | num (n : ℕ)
  | text (t : Bytes)
  | node (i : ℕ)
  deriving Repr, DecidableEq

structure PjStr where
  ptr : Word := .num 0
  slen : Word := .num 0
  deriving Repr, DecidableEq

def PjStr.ofText (t : Bytes) : PjStr := ⟨.text t, .num t.length⟩

/-- The union by its words. The records of all types begin at its first word. -/
structure Multi where
  str0 : PjStr := {}
  str1 : PjStr := {}
  str2 : PjStr := {}
  str3 : PjStr := {}
  codec : ℕ := 0
  deriving Repr, DecidableEq

/-- `multicast_signal`; a static variable starts with zeros. -/
structure MulticastInfo where
  type : MulticastType := .heartbeat
  multi : Multi := {}
  deriving Repr, DecidableEq

structure InviteRecord where
  groupNum : PjStr
  speaker : PjStr
  callId : PjStr
  startTime : PjStr
  codec : ℕ
  deriving Repr, DecidableEq

structure ByeRecord where
  groupNum : PjStr
  callId : PjStr
  startTime : PjStr
  deriving Repr, DecidableEq

structure MemberStateRecord where
  num : PjStr
  name : PjStr
  status : Word
  deriving Repr, DecidableEq

namespace Multi

/-! ### The records that share the words -/

/-- The pointer to the list of a heartbeat. -/
def header (m : Multi) : Word := m.str0.ptr
def inv (m : Multi) : InviteRecord := ⟨m.str0, m.str1, m.str2, m.str3, m.codec⟩
def bye (m : Multi) : ByeRecord := ⟨m.str0, m.str1, m.str2⟩
def memberState (m : Multi) : MemberStateRecord := ⟨m.str0, m.str1, m.str2.ptr⟩

def setHeader (m : Multi) (w : Word) : Multi := { m with str0 := { m.str0 with ptr := w } }

/-- The start time is not read. -/
def setInv (m : Multi) (groupNum speaker callId : Bytes) : Multi :=
  { m with
    str0 := .ofText groupNum
    str1 := .ofText speaker
    str2 := .ofText callId
    codec := 0xff }

/-- Neither is it here. -/
def setBye (m : Multi) (groupNum callId : Bytes) : Multi :=
  { m with str0 := .ofText groupNum, str1 := .ofText callId }

def setMemberState (m : Multi) (num name : Bytes) (status : UInt32) : Multi :=
  { m with
    str0 := .ofText num
    str1 := .ofText name
    str2 := { m.str2 with ptr := .num status.toNat } }

end Multi

/-! ### The nodes of the heartbeats -/

/-- `pool` is where the node lies; it is named after the first node that lies there. -/
structure HeartBeatGroupInfo where
  groupNum : Bytes
  pool : ℕ
  deriving Repr, DecidableEq

/-- The nodes, and the addresses that were never used. -/
structure HeartMemory where
  heap : Store ℕ HeartBeatGroupInfo
  fresh : ℕ
  bounded : ∀ i, fresh ≤ i → heap i = none

namespace HeartMemory

def empty : HeartMemory := ⟨fun _ => none, 0, fun _ _ => rfl⟩

theorem bounded_alloc (m : HeartMemory) (v : HeartBeatGroupInfo) (i : ℕ) (hi : m.fresh + 1 ≤ i) :
    m.heap.alloc m.fresh v i = none := by
  have hne : i ≠ m.fresh := by omega
  rw [Store.alloc, Function.update_of_ne hne]
  exact m.bounded i (by omega)

/-- A node that is linked to itself. -/
def alloc (m : HeartMemory) (v : HeartBeatGroupInfo) : HeartMemory where
  heap := m.heap.alloc m.fresh v
  fresh := m.fresh + 1
  bounded := m.bounded_alloc v

/-- `pj_list_push_back(&heart->header, node)`: the pointer to the list is taken for a node of the
list. What stands for its `prev` is the first node, after which the new one comes. -/
def pushBack (m : HeartMemory) (header node : ℕ) : Except Fault HeartMemory :=
  match h : m.heap.insertAfter header node with
  | none => .error .useAfterFree
  | some heap => .ok
    { heap := heap
      fresh := m.fresh
      bounded := fun i hi => by
        rw [Store.eq_none_iff_vl, Store.insertAfter_vl h, ← Store.eq_none_iff_vl]
        exact m.bounded i hi }

def releasePool (m : HeartMemory) (pool : ℕ) : HeartMemory where
  heap i := (m.heap i).filter fun c => c.val.pool ≠ pool
  fresh := m.fresh
  bounded i hi := by rw [m.bounded i hi, Option.filter_none]

end HeartMemory

/-- What outlives a packet. -/
structure ParserState where
  info : MulticastInfo := {}
  mem : HeartMemory := .empty

/-! ### The parser -/

/-- `while` over the text that is left. -/
def Scan.round {σ ρ : Type} (body : σ → Scan (Ctl σ ρ)) (s : σ × Bytes) :
    Except Fault (Ctl (σ × Bytes) (ρ × Bytes)) := do
  let (c, r) ← body s.1 s.2
  match c with
  | .next t => return .next (t, r)
  | .exit x => return .exit (x, r)

def Scan.whileText {σ ρ : Type} (body : σ → Scan (Ctl σ ρ)) (s : σ) : Scan ρ := fun r =>
  loop .hang (Scan.round body) (r.length + 1) (s, r)

def Scan.lift {α : Type} (x : Except Fault α) : Scan α := fun r => x.map (·, r)

/-- `(scanner.end - scanner.curptr) <= 2` -/
def atMostTwoLeft : Scan Bool := fun r => .ok (r.length ≤ 2, r)

def getLine : Scan Bytes := do
  let out ← pjScanGetUntilChr [CR, LF]
  pjScanGetNewline
  return out

/-- What stands behind the next colon on its line. -/
def getValue : Scan Bytes := do
  let _ ← getField 58
  pjScanGetUntilChr [CR, LF]

def getValueLine : Scan Bytes := do
  let v ← getValue
  pjScanGetNewline
  return v

def multicastParseInvite (inv : Multi) : Scan Multi := do
  let groupNum ← getValueLine
  let speaker ← getValueLine
  let callId ← getValue
  return inv.setInv groupNum speaker callId

def multicastParseBye (bye : Multi) : Scan Multi := do
  let groupNum ← getValueLine
  let callId ← getValue
  return bye.setBye groupNum callId

def multicastParseMemberstatus (memberInfo : Multi) : Scan Multi := do
  let num ← getField 44
  let name ← getField 44
  let out ← getField 59
  return memberInfo.setMemberState num name (pjStrtoul out)

/-- One round of the loop over the groups behind the first one; the byte is the last one read. -/
def groupRound (header : ℕ) (s : HeartMemory × UInt8) :
    Scan (Ctl (HeartMemory × UInt8) (HeartMemory × UInt8)) := do
  if s.2 ≠ 44 then return .exit s
  else
    let groupNum ← pjScanGetUntilCh 44
    let mem ← Scan.lift ((s.1.alloc ⟨groupNum, header⟩).pushBack header s.1.fresh)
    if ← atMostTwoLeft then return .exit (mem, s.2)
    else
      let ichar ← pjScanGetChar
      return .next (mem, ichar)

/-- The groups of a heartbeat. -/
def parseGroups (p : ParserState) : Scan (Ctl ParserState ParserState) := do
  let groupNum ← pjScanGetUntilCh 44
  let header := p.mem.fresh
  let mem := p.mem.alloc ⟨groupNum, header⟩
  let info := { p.info with multi := p.info.multi.setHeader (.node header) }
  if ← atMostTwoLeft then return .exit ⟨info, mem⟩
  else
    let ichar ← pjScanGetChar
    let (mem, ichar) ← Scan.whileText (groupRound header) (mem, ichar)
    if ichar = CR ∨ ichar = LF then return .exit ⟨info, mem⟩ else return .next ⟨info, mem⟩

/-- What follows `ind:`. -/
def parseIndication (p : ParserState) : Scan (Ctl ParserState ParserState) := do
  if ← pjScanStrcmp (ascii "call-info") then
    let _ ← getLine
    let multi ← multicastParseInvite p.info.multi
    return .exit { p with info := ⟨.invite, multi⟩ }
  else if ← pjScanStrcmp (ascii "close") then
    let _ ← getLine
    let multi ← multicastParseBye p.info.multi
    return .exit { p with info := ⟨.bye, multi⟩ }
  else if ← pjScanStrcmp (ascii "member-statuschange") then
    let _ ← getLine
    let multi ← multicastParseMemberstatus p.info.multi
    return .exit { p with info := ⟨.memberState, multi⟩ }
  else return .next p

def ParserState.setType (p : ParserState) (type : MulticastType) : ParserState :=
  { p with info := { p.info with type := type } }

/-- One round of the loop over the packet. -/
def packetRound (size : ℕ) (p : ParserState) : Scan (Ctl ParserState ParserState) := do
  if ← pjScanIsEof then return .exit p
  else if ← pjScanStrcmp (ascii "ind:") then
    let _ ← getField 58
    parseIndication p
  else if ← pjScanStrcmp (ascii "heartbeat:") then
    let p := p.setType .heartbeat
    if size = 12 then
      return .exit { p with info := { p.info with multi := p.info.multi.setHeader (.num 0) } }
    else
      let _ ← getField 58
      parseGroups p
  else
    pjScanSkipLine
    return .next (p.setType .unknown)

/-- The record that is left in `info` is the one that is copied to `rdata`. -/
def multicastParseRdata (buf : Bytes) (p : ParserState) : Except Fault ParserState :=
  (Scan.whileText (packetRound buf.length) p buf).map Prod.fst

end PttTerminal
