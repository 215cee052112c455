import PttTerminal.GroupStore

/-!
# Loading and changing the list of groups

A group list is loaded from a text whose lines are told apart by their first word. When the
groups change, the groups that the new text does not mention are deleted first and the others
are added to the list; if none is left, the text is loaded as if it was the first.
-/
namespace PttTerminal

open Loops LinkedCells

/-! ### The first list -/

/-- The groups behind the first one of a line, each after a semicolon. -/
def loadMoreBody (head : ℕ) (s : PttInfo × UInt8 × Bytes) :
    Except Fault (Ctl (PttInfo × UInt8 × Bytes) (PttInfo × UInt8 × Bytes)) := do
  let (info, ichar, r) := s
  if ichar = 59 then
    let (g, r) ← pttGroupInfoParse r
    let node := info.fresh
    let info ← (info.alloc g).pjListPushBack head node
    let (ichar, r) ← pjScanGetChar r
    return .next (info, ichar, r)
  else return .exit s

/-- A line of groups replaces the list. -/
def loadGeneralGroup (info : PttInfo) (r : Bytes) : Except Fault (PttInfo × Bytes) := do
  let (_, r) ← getField 58 r
  if crOrSecondLf r then
    let (_, r) ← pjScanGetNewline r
    return (info, r)
  else
    let (g, r) ← pttGroupInfoParse r
    let head := info.fresh
    let info := { info.alloc g with generalGroup := some head }
    let (ichar, r) ← pjScanGetChar r
    let (info, ichar, r) ← loop .hang (loadMoreBody head) (r.length + 1) (info, ichar, r)
    if ichar = CR ∨ ichar = LF then
      let (_, r) ← pjScanGetNewline r
      let (_, r) ← pjScanStrcmp (ascii "emergency-group:") r
      return (info, r)
    else return (info, r)

def loadSignalAddress (info : PttInfo) (r : Bytes) : Except Fault (PttInfo × Bytes) := do
  let (_, r) ← pjScanGetChar r
  let (_, r) ← getField 58 r
  let (addr, r) ← getField 58 r
  let (out, r) ← pjScanGetUntilChr [CR, LF] r
  let (_, r) ← pjScanGetNewline r
  return ({ info with signalAddress := addr, signalPort := pjStrtoul out }, r)

def loadBody (s : PttInfo × Bytes) : Except Fault (Ctl (PttInfo × Bytes) PttInfo) := do
  let (info, r) := s
  if r.isEmpty then return .exit info
  let (general, r) ← pjScanStrcmp (ascii "general-group:") r
  if general then return .next (← loadGeneralGroup info r)
  let (emergency, r) ← pjScanStrcmp (ascii "emergency-group:") r
  if emergency then
    let (_, r) ← pjScanSkipLine r
    return .next (info, r)
  let (signal, r) ← pjScanStrcmp (ascii "signal-address:") r
  if signal then return .next (← loadSignalAddress info r)
  let (_, r) ← pjScanSkipLine r
  return .next (info, r)

/-- `ptt_receive_group_info_parse` without the regroup flag. -/
def loadGroupInfo (info : PttInfo) (content : Bytes) : Except Fault PttInfo := do
  if info.transportId.isSome then receiveGroupInfo info
  else
    let info ← loop .hang loadBody (content.length + 1) (info, content)
    receiveGroupInfo info

/-! ### Deleting groups -/

/-- What the content is searched for: the number, and a comma behind it. -/
def groupNum (number : Bytes) : Bytes := cString (number ++ [44])

/-- `strstr(content, group_num)` finds something. -/
def mentions (content : Bytes) (g : GroupInfo) : Bool := groupNum g.number <:+: cString content

/-- A session ends when the group that is deleted has the number of its group. -/
def endSession (info : PttInfo) (number : Bytes) : Except Fault PttInfo := do
  if info.pttState ≠ .uninit then
    let (_, cur) ← info.deref info.gCurrentGroup
    if cur.val.number = number then
      let info := pttCloseMedia info
      let info := pttEnterState { info with currentCallId := [], gSpeaker := [] } .uninit
      return { info with gCurrentGroup := none }
    else return info
  else return info

/-- Take a group out of the list, which `node` comes next in, and release it. -/
def deleteGroup (info : PttInfo) (nodeErase node : ℕ) (number : Bytes) : Except Fault PttInfo := do
  let info ← endSession info number
  let info := if info.generalGroup = some nodeErase then { info with generalGroup := some node }
    else info
  let heap ← live (info.heap.erase nodeErase)
  pttMediaTransportDestroy { info with heap := heap } (some nodeErase) false

/-- One round of the loop; it is left with `node` and `node_erase`. -/
def deleteBody (content : Bytes) (s : PttInfo × ℕ) :
    Except Fault (Ctl (PttInfo × ℕ) (PttInfo × ℕ × Option ℕ)) := do
  let (info, nodeErase) := s
  let c ← live (info.heap nodeErase)
  let node := c.next
  if mentions content c.val then
    if info.generalGroup ≠ some node then return .next (info, node)
    else return .exit (info, node, none)
  else
    let info ← deleteGroup info nodeErase node c.val.number
    let bContinue := info.generalGroup = some node ∧ node ≠ nodeErase
    if info.generalGroup ≠ some node ∨ bContinue then return .next (info, node)
    else return .exit (info, node, some nodeErase)

/-- Every group is looked at twice at most. -/
def deleteGroups (content : Bytes) (info : PttInfo) : Except Fault PttInfo :=
  match info.generalGroup with
  | none => .ok info
  | some head => do
    let (info, node, nodeErase) ← loop .hang (deleteBody content) (2 * info.fresh + 1) (info, head)
    if nodeErase = some node then return { info with generalGroup := none } else return info

/-! ### Adding groups -/

/-- Read a group and look for its number from `node` to the end of the list. If it is there, the
new record is dropped; otherwise it is appended. -/
def mergeGroup (head : ℕ) (info : PttInfo) (node : ℕ) (r : Bytes) :
    Except Fault (PttInfo × ℕ × Bytes) := do
  let (g, r) ← pttGroupInfoParse r
  let generalGroup := info.fresh
  let info := info.alloc g
  let (bfind, node) ← search info head g.number node
  if bfind then return (info.poolRelease generalGroup, node, r)
  else
    let info ← pttMediaTransportCreate info generalGroup
    let info ← info.pjListPushBack head generalGroup
    return (info, node, r)

def mergeMoreBody (head : ℕ) (s : PttInfo × ℕ × UInt8 × Bytes) :
    Except Fault (Ctl (PttInfo × ℕ × UInt8 × Bytes) (PttInfo × ℕ × UInt8 × Bytes)) := do
  let (info, _, ichar, r) := s
  if ichar = 59 then
    let (info, node, r) ← mergeGroup head info head r
    let (ichar, r) ← pjScanGetChar r
    return .next (info, node, ichar, r)
  else return .exit s

/-- The search for the first group of a line starts where the last search ended. -/
def mergeGeneralGroup (head : ℕ) (info : PttInfo) (node : ℕ) (r : Bytes) :
    Except Fault (PttInfo × ℕ × Bytes) := do
  let (_, r) ← getField 58 r
  let (info, node, r) ← mergeGroup head info node r
  let (ichar, r) ← pjScanGetChar r
  let (info, node, ichar, r) ← loop .hang (mergeMoreBody head) (r.length + 1) (info, node, ichar, r)
  if ichar = CR then
    let (_, r) ← pjScanGetNewline r
    return (info, node, r)
  else return (info, node, r)

def mergeBody (head : ℕ) (s : PttInfo × ℕ × Bytes) :
    Except Fault (Ctl (PttInfo × ℕ × Bytes) PttInfo) := do
  let (info, node, r) := s
  if r.isEmpty then return .exit info
  let (general, r) ← pjScanStrcmp (ascii "general-group:") r
  if general then return .next (← mergeGeneralGroup head info node r)
  let (_, r) ← pjScanSkipLine r
  return .next (info, node, r)

def cleanupOnRegroup (info : PttInfo) (content : Bytes) : Except Fault PttInfo := do
  let info ← deleteGroups content info
  match info.generalGroup with
  | none =>
    let info ← groupInfoDestroy info
    loadGroupInfo (groupInfoInit (bzeroPttInfo info)) content
  | some head =>
    let info ← loop .hang (mergeBody head) (content.length + 1) (info, head, content)
    receiveGroupInfo info

def pttReceiveGroupInfoParse (info : PttInfo) (content : Bytes) (bRegroup : Bool) :
    Except Fault PttInfo :=
  if bRegroup then cleanupOnRegroup info content else loadGroupInfo info content

end PttTerminal
