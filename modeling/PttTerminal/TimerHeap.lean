import PttTerminal.Library.Heaps
import PttTerminal.Library.Loops

/-!
# The heap of the timers

The timers of the endpoint stand in an array that is a heap by the times at which they expire. A
second array says for each identifier in which slot its timer stands; the identifiers that are not
in use are linked through the same array by negative values. Every access to one of the arrays is
checked here against the length it was allocated with.
-/
namespace PttTerminal

open Loops

/-! ### Times -/

/-- `pj_time_val`. -/
structure TimeVal where
  sec : ℤ
  msec : ℤ
  deriving Repr, DecidableEq

namespace TimeVal

def gt (t u : TimeVal) : Bool := t.sec > u.sec || (t.sec = u.sec && t.msec > u.msec)
def eq (t u : TimeVal) : Bool := t.sec = u.sec && t.msec = u.msec
def gte (t u : TimeVal) : Bool := t.gt u || t.eq u
def lt (t u : TimeVal) : Bool := !t.gte u
def lte (t u : TimeVal) : Bool := !t.gt u

/-- `PJ_TIME_VAL_MSEC`. -/
def inMsec (t : TimeVal) : ℤ := t.sec * 1000 + t.msec

/-- The loop that carries seconds into the milliseconds, at most `n` times. -/
def carry : ℕ → TimeVal → TimeVal
  | 0, t => t
  | n + 1, t => if t.msec ≤ -1000 then carry n ⟨t.sec - 1, t.msec + 1000⟩ else t

/-- The first statement of `pj_time_val_normalize`. -/
def carrySeconds (t : TimeVal) : TimeVal :=
  if t.msec ≥ 1000 then ⟨t.sec + t.msec / 1000, t.msec % 1000⟩
  else if t.msec ≤ -1000 then carry t.msec.natAbs t
  else t

/-- `pj_time_val_normalize`. -/
def normalize (t : TimeVal) : TimeVal :=
  let t := t.carrySeconds
  if t.sec ≥ 1 ∧ t.msec < 0 then ⟨t.sec - 1, t.msec + 1000⟩
  else if t.sec < 0 ∧ t.msec > 0 then ⟨t.sec + 1, t.msec - 1000⟩
  else t

def add (t u : TimeVal) : TimeVal := normalize ⟨t.sec + u.sec, t.msec + u.msec⟩
def sub (t u : TimeVal) : TimeVal := normalize ⟨t.sec - u.sec, t.msec - u.msec⟩

end TimeVal

/-! ### Times in order -/

namespace TimeVal

instance : LinearOrder TimeVal :=
  LinearOrder.lift' (fun t => toLex (t.sec, t.msec)) fun t u h => by
    cases t
    cases u
    simpa using h

theorem lt_def {t u : TimeVal} : t < u ↔ t.sec < u.sec ∨ t.sec = u.sec ∧ t.msec < u.msec :=
  Prod.Lex.toLex_lt_toLex

theorem le_def {t u : TimeVal} : t ≤ u ↔ t.sec < u.sec ∨ t.sec = u.sec ∧ t.msec ≤ u.msec :=
  Prod.Lex.toLex_le_toLex

@[simp]
theorem gt_iff {t u : TimeVal} : t.gt u = true ↔ u < t := by
  simp only [gt, Bool.or_eq_true, Bool.and_eq_true, decide_eq_true_eq, lt_def]
  omega

@[simp]
theorem lte_iff {t u : TimeVal} : t.lte u = true ↔ t ≤ u := by
  rw [lte, Bool.not_eq_true', Bool.eq_false_iff, ne_eq, gt_iff, not_lt]

@[simp]
theorem gte_iff {t u : TimeVal} : t.gte u = true ↔ u ≤ t := by
  simp only [gte, eq, Bool.or_eq_true, gt_iff, Bool.and_eq_true, decide_eq_true_eq, lt_def, le_def]
  omega

@[simp]
theorem lt_iff {t u : TimeVal} : t.lt u = true ↔ t < u := by
  rw [lt, Bool.not_eq_true', Bool.eq_false_iff, ne_eq, gte_iff, not_le]

/-- Seconds and milliseconds have one sign, and the milliseconds are less than a second. -/
structure Normalized (t : TimeVal) : Prop where
  below : t.msec < 1000
  above : -1000 < t.msec
  pos : 1 ≤ t.sec → 0 ≤ t.msec
  neg : t.sec < 0 → t.msec ≤ 0

theorem carry_spec (n : ℕ) {t : TimeVal} (h : t.msec ≤ 0) (hn : -(n : ℤ) ≤ t.msec) :
    (carry n t).inMsec = t.inMsec ∧ (carry n t).msec ≤ 0 ∧ -1000 < (carry n t).msec := by
  induction n generalizing t with
  | zero => exact ⟨rfl, h, by simp only [carry]; omega⟩
  | succ n ih =>
    rw [carry]
    split_ifs with hlow
    · obtain ⟨hm, hle, hgt⟩ := ih (t := ⟨t.sec - 1, t.msec + 1000⟩) (by simp only; omega)
        (by simp only; omega)
      refine ⟨?_, hle, hgt⟩
      rw [hm]
      simp only [inMsec]
      omega
    · exact ⟨rfl, h, by omega⟩

theorem carrySeconds_spec (t : TimeVal) : t.carrySeconds.inMsec = t.inMsec ∧
    -1000 < t.carrySeconds.msec ∧ t.carrySeconds.msec < 1000 := by
  unfold carrySeconds
  split_ifs with hhigh hlow
  · refine ⟨?_, ?_, ?_⟩
    · simp only [inMsec]
      omega
    · simp only
      omega
    · simp only
      omega
  · obtain ⟨hm, hle, hgt⟩ := carry_spec t.msec.natAbs (t := t) (by omega) (by omega)
    exact ⟨hm, hgt, by omega⟩
  · exact ⟨rfl, by omega, by omega⟩

theorem normalize_spec (t : TimeVal) :
    (normalize t).inMsec = t.inMsec ∧ (normalize t).Normalized := by
  obtain ⟨hm, hlow, hhigh⟩ := carrySeconds_spec t
  simp only [normalize]
  split_ifs with hpos hneg
  · refine ⟨?_, ⟨?_, ?_, ?_, ?_⟩⟩
    · rw [← hm]
      simp only [inMsec]
      omega
    all_goals simp only
    all_goals omega
  · refine ⟨?_, ⟨?_, ?_, ?_, ?_⟩⟩
    · rw [← hm]
      simp only [inMsec]
      omega
    all_goals simp only
    all_goals omega
  · exact ⟨hm, hhigh, hlow, by omega, by omega⟩

@[simp]
theorem inMsec_add (t u : TimeVal) : (t.add u).inMsec = t.inMsec + u.inMsec := by
  rw [add, (normalize_spec _).1]
  simp only [inMsec]
  omega

@[simp]
theorem inMsec_sub (t u : TimeVal) : (t.sub u).inMsec = t.inMsec - u.inMsec := by
  rw [sub, (normalize_spec _).1]
  simp only [inMsec]
  omega

theorem normalized_sub (t u : TimeVal) : (t.sub u).Normalized := (normalize_spec _).2

end TimeVal

/-! ### The two arrays -/

/-- What an operation of the heap may come to: an access outside an array, a slot that was never
written, an assertion that fails, which ends the process or is passed over, or a loop without end. -/
inductive TimerFault where
  | outOfBounds
  | uninitialized
  | assertion
  | hang
  deriving Repr, DecidableEq

/-- The fields of `pj_timer_entry` that the heap reads and writes. -/
structure TimerEntry where
  timerId : ℤ := -1
  timerValue : TimeVal := ⟨0, 0⟩
  /-- Whether the entry has a callback. -/
  cb : Bool := true
  deriving Repr, DecidableEq

/-- `pj_timer_heap_t`, with the entries wherever their owners keep them, by address. -/
structure TimerHeap where
  maxSize : ℕ
  curSize : ℕ
  maxEntriesPerPoll : ℕ
  heap : ℕ → Option ℕ
  timerIds : ℕ → ℤ
  timerIdsFreelist : ℤ
  entries : ℕ → TimerEntry

def heapParent (x : ℕ) : ℕ := if x = 0 then 0 else (x - 1) / 2
def heapLeft (x : ℕ) : ℕ := (x + x) + 1

namespace TimerHeap

def idOf (ht : TimerHeap) (e : ℕ) : ℤ := (ht.entries e).timerId
def valueOf (ht : TimerHeap) (e : ℕ) : TimeVal := (ht.entries e).timerValue

def heapAt (ht : TimerHeap) (slot : ℕ) : Except TimerFault ℕ :=
  if slot < ht.maxSize then
    match ht.heap slot with
    | some e => .ok e
    | none => .error .uninitialized
  else .error .outOfBounds

def setHeap (ht : TimerHeap) (slot e : ℕ) : Except TimerFault TimerHeap :=
  if slot < ht.maxSize then .ok { ht with heap := Function.update ht.heap slot (some e) }
  else .error .outOfBounds

def idAt (ht : TimerHeap) (i : ℤ) : Except TimerFault ℤ :=
  if 0 ≤ i ∧ i < ht.maxSize then .ok (ht.timerIds i.toNat) else .error .outOfBounds

def setIdAt (ht : TimerHeap) (i v : ℤ) : Except TimerFault TimerHeap :=
  if 0 ≤ i ∧ i < ht.maxSize then
    .ok { ht with timerIds := Function.update ht.timerIds i.toNat v }
  else .error .outOfBounds

def setEntry (ht : TimerHeap) (e : ℕ) (entry : TimerEntry) : TimerHeap :=
  { ht with entries := Function.update ht.entries e entry }

def copyNode (ht : TimerHeap) (slot movedNode : ℕ) : Except TimerFault TimerHeap := do
  let ht ← ht.setHeap slot movedNode
  ht.setIdAt (ht.idOf movedNode) slot

def popFreelist (ht : TimerHeap) : Except TimerFault (ℤ × TimerHeap) := do
  let newId := ht.timerIdsFreelist
  let next ← ht.idAt ht.timerIdsFreelist
  return (newId, { ht with timerIdsFreelist := -next })

def pushFreelist (ht : TimerHeap) (oldId : ℤ) : Except TimerFault TimerHeap := do
  let ht ← ht.setIdAt oldId (-ht.timerIdsFreelist)
  return { ht with timerIdsFreelist := oldId }

/-! ### Moving a timer to its place -/

/-- The smaller of the two children. -/
def chooseChild (ht : TimerHeap) (child : ℕ) : Except TimerFault ℕ := do
  if child + 1 < ht.curSize then
    let r ← ht.heapAt (child + 1)
    let l ← ht.heapAt child
    return if (ht.valueOf r).lt (ht.valueOf l) then child + 1 else child
  else return child

def reheapDownBody (movedNode : ℕ) (s : TimerHeap × ℕ × ℕ) :
    Except TimerFault (Ctl (TimerHeap × ℕ × ℕ) (TimerHeap × ℕ)) := do
  let (ht, slot, child) := s
  if child < ht.curSize then
    let child ← ht.chooseChild child
    let c ← ht.heapAt child
    if (ht.valueOf c).lt (ht.valueOf movedNode) then
      let ht ← ht.copyNode slot c
      return .next (ht, child, heapLeft child)
    else return .exit (ht, slot)
  else return .exit (ht, slot)

def reheapDown (ht : TimerHeap) (movedNode slot child : ℕ) : Except TimerFault TimerHeap := do
  let (ht, slot) ← loop .hang (reheapDownBody movedNode) (ht.curSize + 1) (ht, slot, child)
  ht.copyNode slot movedNode

def reheapUpBody (movedNode : ℕ) (s : TimerHeap × ℕ × ℕ) :
    Except TimerFault (Ctl (TimerHeap × ℕ × ℕ) (TimerHeap × ℕ)) := do
  let (ht, slot, parent) := s
  if slot > 0 then
    let p ← ht.heapAt parent
    if (ht.valueOf movedNode).lt (ht.valueOf p) then
      let ht ← ht.copyNode slot p
      return .next (ht, parent, heapParent parent)
    else return .exit (ht, slot)
  else return .exit (ht, slot)

def reheapUp (ht : TimerHeap) (movedNode slot parent : ℕ) : Except TimerFault TimerHeap := do
  let (ht, slot) ← loop .hang (reheapUpBody movedNode) (slot + 1) (ht, slot, parent)
  ht.copyNode slot movedNode

/-- The last timer goes where the removed one stood, and from there down or up. -/
def removeNode (ht : TimerHeap) (slot : ℕ) : Except TimerFault (ℕ × TimerHeap) := do
  let removedNode ← ht.heapAt slot
  let ht ← ht.pushFreelist (ht.idOf removedNode)
  let ht := { ht with curSize := ht.curSize - 1 }
  let ht := ht.setEntry removedNode { ht.entries removedNode with timerId := -1 }
  if slot < ht.curSize then
    let movedNode ← ht.heapAt ht.curSize
    let ht ← ht.copyNode slot movedNode
    let p ← ht.heapAt (heapParent slot)
    let ht ←
      if (ht.valueOf movedNode).gte (ht.valueOf p) then
        ht.reheapDown movedNode slot (heapLeft slot)
      else ht.reheapUp movedNode slot (heapParent slot)
    return (removedNode, ht)
  else return (removedNode, ht)

/-- Both arrays are copied to arrays of twice the length. The pool is taken to have the memory. -/
def growHeap (ht : TimerHeap) : TimerHeap where
  maxSize := ht.maxSize * 2
  curSize := ht.curSize
  maxEntriesPerPoll := ht.maxEntriesPerPoll
  heap i := if i < ht.maxSize then ht.heap i else none
  timerIds i := if i < ht.maxSize then ht.timerIds i else -((i : ℤ) + 1)
  timerIdsFreelist := ht.timerIdsFreelist
  entries := ht.entries

def insertNode (ht : TimerHeap) (newNode : ℕ) : Except TimerFault TimerHeap := do
  let ht := if ht.curSize + 2 ≥ ht.maxSize then ht.growHeap else ht
  let ht ← ht.reheapUp newNode ht.curSize (heapParent ht.curSize)
  return { ht with curSize := ht.curSize + 1 }

/-! ### The operations -/

/-- What `pj_timer_heap_schedule` returns. -/
inductive TimerStatus where
  | success
  /-- The value -1 of a full heap. -/
  | full
  deriving Repr, DecidableEq

def scheduleEntry (ht : TimerHeap) (entry : ℕ) (futureTime : TimeVal) :
    Except TimerFault (TimerStatus × TimerHeap) := do
  if ht.curSize < ht.maxSize then
    let (newId, ht) ← ht.popFreelist
    let ht := ht.setEntry entry
      { ht.entries entry with timerId := newId, timerValue := futureTime }
    let ht ← ht.insertNode entry
    return (.success, ht)
  else return (.full, ht)

/-- `cancel`, which no caller asks to call the callback. -/
def cancel (ht : TimerHeap) (entry : ℕ) : Except TimerFault (ℕ × TimerHeap) := do
  if ht.idOf entry < 0 ∨ (ht.maxSize : ℤ) < ht.idOf entry then return (0, ht)
  let timerNodeSlot ← ht.idAt (ht.idOf entry)
  if timerNodeSlot < 0 then return (0, ht)
  let e ← ht.heapAt timerNodeSlot.toNat
  if entry ≠ e then return (0, ht)
  let (_, ht) ← ht.removeNode timerNodeSlot.toNat
  return (1, ht)

/-- `pj_timer_heap_create`, with the entries that there are. -/
def create (size : ℕ) (entries : ℕ → TimerEntry) : TimerHeap where
  maxSize := size + 2
  curSize := 0
  maxEntriesPerPoll := 64
  heap _ := none
  timerIds i := -((i : ℤ) + 1)
  timerIdsFreelist := 1
  entries := entries

/-- `pj_timer_entry_init`. -/
def entryInit (ht : TimerHeap) (entry : ℕ) : TimerHeap :=
  ht.setEntry entry { ht.entries entry with timerId := -1, cb := true }

/-- `pj_timer_heap_schedule`, when the clock says `now`. The two checks are compiled to assertions:
that a timer is not set again while it is set is up to the callers. -/
def schedule (ht : TimerHeap) (entry : ℕ) (delay now : TimeVal) :
    Except TimerFault (TimerStatus × TimerHeap) :=
  if !(ht.entries entry).cb then .error .assertion
  else if ht.idOf entry ≥ 1 then .error .assertion
  else ht.scheduleEntry entry (now.add delay)

/-- A call of `pj_timer_heap_poll` that goes on: the time it began at and the timers it took. -/
structure Poll where
  now : TimeVal
  count : ℕ := 0
  deriving Repr, DecidableEq

/-- The time to wait when no timer is there. -/
def forever : TimeVal := ⟨2147483647, 2147483647⟩

/-- How one look at the heap ends, between two callbacks. -/
inductive PollRound where
  /-- A timer was taken, and its callback is called without the lock. -/
  | took (node : ℕ) (poll : Poll)
  | ended (count : ℕ) (nextDelay : TimeVal)
  deriving Repr, DecidableEq

def nextDelay (ht : TimerHeap) (now : TimeVal) : Except TimerFault TimeVal := do
  if ht.curSize ≠ 0 then
    let top ← ht.heapAt 0
    let delay := (ht.valueOf top).sub now
    return if delay.sec < 0 ∨ delay.msec < 0 then ⟨0, 0⟩ else delay
  else return forever

/-- Whether the condition of the loop in `pj_timer_heap_poll` holds. -/
def pollTakes (ht : TimerHeap) (poll : Poll) : Except TimerFault Bool := do
  if ht.curSize ≠ 0 then
    let top ← ht.heapAt 0
    return (ht.valueOf top).lte poll.now && poll.count < ht.maxEntriesPerPoll
  else return false

def pollRound (ht : TimerHeap) (poll : Poll) : Except TimerFault (PollRound × TimerHeap) := do
  if ← ht.pollTakes poll then
    let (node, ht) ← ht.removeNode 0
    return (.took node { poll with count := poll.count + 1 }, ht)
  else
    let delay ← ht.nextDelay poll.now
    return (.ended poll.count delay, ht)

end TimerHeap

end PttTerminal
