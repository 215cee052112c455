import PttTerminal.Regroup

/-!
# The older group messages

Before there were messages for groups, a group list came with the answer to the registration and
changed by a message of another format, whose lines of groups start with `ipm-group:` and a blank.
The readers have remained.
-/
namespace PttTerminal

open Loops LinkedCells

/-! ### The answer to the registration -/

/-- A line of groups replaces the list. -/
def regGroup (info : PttInfo) (r : Bytes) : Except Fault (PttInfo × Bytes) := do
  let (_, r) ← getField 32 r
  let (g, r) ← pttGroupInfoParse r
  let head := info.fresh
  let info := { info.alloc g with generalGroup := some head }
  let (ichar, r) ← pjScanGetChar r
  let (info, ichar, r) ← loop .hang (loadMoreBody head) (r.length + 1) (info, ichar, r)
  if ichar = CR then
    let (_, r) ← pjScanGetNewline r
    return (info, r)
  else return (info, r)

def regSignalAddress (info : PttInfo) (r : Bytes) : Except Fault (PttInfo × Bytes) := do
  let (_, r) ← getField 32 r
  let (addr, r) ← getField 58 r
  let (out, r) ← pjScanGetUntilChr [CR, LF] r
  let (_, r) ← pjScanGetNewline r
  return ({ info with signalAddress := addr, signalPort := pjStrtoul out }, r)

def regBody (s : PttInfo × Bytes) : Except Fault (Ctl (PttInfo × Bytes) PttInfo) := do
  let (info, r) := s
  if r.isEmpty then return .exit info
  let (group, r) ← pjScanStrcmp (ascii "ipm-group:") r
  if group then return .next (← regGroup info r)
  let (emergency, r) ← pjScanStrcmp (ascii "ipm-emergency-call:") r
  if emergency then
    let (_, r) ← pjScanSkipLine r
    return .next (info, r)
  let (signal, r) ← pjScanStrcmp (ascii "ipm-signal-address:") r
  if signal then return .next (← regSignalAddress info r)
  let (_, r) ← pjScanSkipLine r
  return .next (info, r)

/-- Nothing is told to the application. -/
def pttReg200okContentParse (info : PttInfo) (content : Bytes) : Except Fault PttInfo :=
  if info.transportId.isSome then .ok info
  else loop .hang regBody (content.length + 1) (info, content)

/-! ### The message -/

/-- `strstr(content, group_num)`; there is no comma behind the number. -/
def messageMentions (content : Bytes) (g : GroupInfo) : Bool :=
    cString g.number <:+: cString content

/-- The identifier of the call and the speaker stay. -/
def messageEndSession (info : PttInfo) (number : Bytes) : Except Fault PttInfo := do
  if info.pttState ≠ .uninit then
    let (_, cur) ← info.deref info.gCurrentGroup
    if cur.val.number = number then
      let info := pttEnterState (pttCloseMedia info) .uninit
      return { info with gCurrentGroup := none }
    else return info
  else return info

def messageDeleteGroup (info : PttInfo) (nodeErase node : ℕ) (number : Bytes) :
    Except Fault PttInfo := do
  let info ← messageEndSession info number
  let info := if info.generalGroup = some nodeErase then { info with generalGroup := some node }
    else info
  let heap ← live (info.heap.erase nodeErase)
  pttMediaTransportDestroy { info with heap := heap } (some nodeErase) false

def messageDeleteBody (content : Bytes) (s : PttInfo × ℕ) :
    Except Fault (Ctl (PttInfo × ℕ) (PttInfo × ℕ × Option ℕ)) := do
  let (info, nodeErase) := s
  let c ← live (info.heap nodeErase)
  let node := c.next
  if messageMentions content c.val then
    if info.generalGroup ≠ some node then return .next (info, node)
    else return .exit (info, node, none)
  else
    let info ← messageDeleteGroup info nodeErase node c.val.number
    let bContinue := info.generalGroup = some node ∧ node ≠ nodeErase
    if info.generalGroup ≠ some node ∨ bContinue then return .next (info, node)
    else return .exit (info, node, some nodeErase)

def messageDeleteGroups (content : Bytes) (info : PttInfo) : Except Fault PttInfo :=
  match info.generalGroup with
  | none => .ok info
  | some head => do
    let (info, node, nodeErase) ←
      loop .hang (messageDeleteBody content) (2 * info.fresh + 1) (info, head)
    if nodeErase = some node then return { info with generalGroup := none } else return info

/-- Read a line of groups; the search for the first one starts where the last search ended. -/
def messageMergeGroup (head : ℕ) (info : PttInfo) (node : ℕ) (r : Bytes) :
    Except Fault (PttInfo × ℕ × Bytes) := do
  let (_, r) ← getField 32 r
  let (info, node, r) ← mergeGroup head info node r
  let (ichar, r) ← pjScanGetChar r
  let (info, node, ichar, r) ← loop .hang (mergeMoreBody head) (r.length + 1) (info, node, ichar, r)
  if ichar = CR then
    let (_, r) ← pjScanGetNewline r
    return (info, node, r)
  else return (info, node, r)

def messageMergeBody (head : ℕ) (s : PttInfo × ℕ × Bytes) :
    Except Fault (Ctl (PttInfo × ℕ × Bytes) PttInfo) := do
  let (info, node, r) := s
  if r.isEmpty then return .exit info
  let (group, r) ← pjScanStrcmp (ascii "ipm-group:") r
  if group then return .next (← messageMergeGroup head info node r)
  let (_, r) ← pjScanSkipLine r
  return .next (info, node, r)

def pttMessageContentParse (info : PttInfo) (content : Bytes) : Except Fault PttInfo := do
  let info ← messageDeleteGroups content info
  match info.generalGroup with
  | none =>
    let info ← groupInfoDestroy info
    pttReg200okContentParse (groupInfoInit (bzeroPttInfo info)) content
  | some head =>
    let info ← loop .hang (messageMergeBody head) (content.length + 1) (info, head, content)
    receiveGroupInfo info

end PttTerminal
