import PttTerminal.Library.Loops
import PttTerminal.Library.Rings

/-!
# The frames of a jitter buffer

The frames that have come in and were not played yet stand in a ring of slots by their numbers,
from `origin` at the head on. A frame that comes late is refused, one that is far behind or far
ahead starts the numbers anew, and a discarded frame keeps its slot until the head gets there.
-/
namespace PttTerminal

open Loops Rings

/-- What an operation of the buffer may come to: an access outside the arrays, a failed assertion, a
division by zero, or a loop without end. -/
inductive JbFault where
  | outOfBounds
  | assertion
  | divByZero
  | hang
  deriving Repr, DecidableEq

/-- `pjmedia_jb_frame_type`, and the type of a discarded frame, which is not returned. -/
inductive JbFrameType where
  | missing
  | normal
  | zeroPrefetch
  | zeroEmpty
  | discarded
  deriving Repr, DecidableEq

inductive JbStatus where
  | success
  | etoosmall
  | etoomany
  | eexists
  deriving Repr, DecidableEq

/-- What the arrays of the frame list hold at one index. -/
structure JbSlot where
  frameType : JbFrameType := .missing
  contentLen : ℕ := 0
  bitInfo : ℕ := 0
  ts : ℕ := 0
  content : List UInt8 := []
  deriving Repr, DecidableEq

/-- A frame as the codec gave it. -/
structure JbFrame where
  content : List UInt8
  bitInfo : ℕ
  ts : ℕ
  deriving Repr, DecidableEq

namespace JbSlot

/-- The frame that a slot holds. -/
def frame (slot : JbSlot) : JbFrame := ⟨slot.content.take slot.contentLen, slot.bitInfo, slot.ts⟩

def isDiscarded (slot : JbSlot) : Bool := slot.frameType = .discarded

/-- The slot after a frame was put into it; bytes are copied for a normal frame only. -/
def written (slot : JbSlot) (frame : List UInt8) (frameSize bitInfo ts : ℕ)
    (frameType : JbFrameType) : JbSlot where
  frameType := frameType
  contentLen := frameSize
  bitInfo := bitInfo
  ts := ts
  content :=
    if frameType = .normal then frame.take frameSize ++ slot.content.drop frameSize
    else slot.content

/-- A slot that was left; its bytes stay. -/
def left (slot : JbSlot) : JbSlot := { slot with frameType := .missing, contentLen := 0 }

@[simp]
theorem left_frameType (slot : JbSlot) : slot.left.frameType = .missing := rfl

@[simp]
theorem isDiscarded_iff {slot : JbSlot} :
    slot.isDiscarded = true ↔ slot.frameType = .discarded := by
  simp [isDiscarded]

end JbSlot

/-- `jb_framelist_t`. -/
structure JbFramelist where
  frameSize : ℕ
  maxCount : ℕ
  slots : ℕ → JbSlot
  head : ℕ
  size : ℕ
  discardedNum : ℕ
  /-- An `int`, the range of which the numbers of a stream do not leave. -/
  origin : ℤ

namespace JbFramelist

def invalidOffset : ℤ := -9999

def slotAt (fl : JbFramelist) (pos : ℕ) : Except JbFault JbSlot :=
  if pos < fl.maxCount then .ok (fl.slots pos) else .error .outOfBounds

def setSlot (fl : JbFramelist) (pos : ℕ) (slot : JbSlot) : Except JbFault JbFramelist :=
  if pos < fl.maxCount then .ok { fl with slots := Function.update fl.slots pos slot }
  else .error .outOfBounds

/-- The index that is `distance` slots after the head. -/
def posOf (fl : JbFramelist) (distance : ℕ) : Except JbFault ℕ :=
  if fl.maxCount = 0 then .error .divByZero else .ok ((fl.head + distance) % fl.maxCount)

def reset (fl : JbFramelist) : JbFramelist where
  frameSize := fl.frameSize
  maxCount := fl.maxCount
  slots i := if i < fl.maxCount then (fl.slots i).left else fl.slots i
  head := 0
  size := 0
  discardedNum := 0
  origin := invalidOffset

/-- `jb_framelist_init`, with the arrays as the pool gives them. -/
def init (frameSize maxCount : ℕ) (memory : ℕ → JbSlot) : JbFramelist :=
  reset { frameSize := frameSize, maxCount := maxCount, slots := memory, head := 0, size := 0,
          discardedNum := 0, origin := 0 }

def effSize (fl : JbFramelist) : ℕ := fl.size - fl.discardedNum

/-! ### Leaving the head -/

def uncountSlot (fl : JbFramelist) (i : ℕ) : Except JbFault JbFramelist := do
  let slot ← fl.slotAt i
  if slot.frameType = .discarded then
    if fl.discardedNum > 0 then return { fl with discardedNum := fl.discardedNum - 1 }
    else throw .assertion
  else return fl

/-- The loop that counts the discarded slots off. -/
def uncount (fl : JbFramelist) (start n : ℕ) : Except JbFault JbFramelist :=
  (List.range' start n).foldlM uncountSlot fl

def clear (fl : JbFramelist) (start n : ℕ) : Except JbFault JbFramelist :=
  if start + n ≤ fl.maxCount then
    .ok { fl with
      slots := fun i => if start ≤ i ∧ i < start + n then (fl.slots i).left else fl.slots i }
  else .error .outOfBounds

/-- One of the two steps of `jb_framelist_remove_head`. -/
def emptyStretch (fl : JbFramelist) (start n : ℕ) : Except JbFault JbFramelist := do
  let fl ← fl.uncount start n
  fl.clear start n

/-- The second step, where the stretch goes over the end of the arrays. -/
def emptyOverlap (fl : JbFramelist) (step2 : ℕ) : Except JbFault JbFramelist :=
  if step2 ≠ 0 then fl.emptyStretch 0 step2 else .ok fl

def removeHead (fl : JbFramelist) (count : ℕ) : Except JbFault (ℕ × JbFramelist) := do
  let count := if count > fl.size then fl.size else count
  if count ≠ 0 then
    let step1 := if fl.head + count > fl.maxCount then fl.maxCount - fl.head else count
    let step2 := if fl.head + count > fl.maxCount then count - step1 else 0
    let fl ← fl.emptyStretch fl.head step1
    let fl ← fl.emptyOverlap step2
    let head ← fl.posOf count
    return (count, { fl with origin := fl.origin + count, head := head, size := fl.size - count })
  else return (0, fl)

def skipBody (s : JbFramelist × Bool) :
    Except JbFault (Ctl (JbFramelist × Bool) (JbFramelist × Bool)) := do
  let slot ← s.1.slotAt s.1.head
  if slot.frameType = .discarded then
    let (_, fl) ← s.1.removeHead 1
    return .next (fl, true)
  else return .exit s

/-- What `jb_framelist_get` writes to its pointers. -/
structure JbGot where
  frameType : JbFrameType
  size : ℕ
  bitInfo : ℕ
  ts : ℕ
  seq : ℤ
  /-- Nothing is written for the frame after a discarded one. -/
  frame : Option (List UInt8)
  deriving Repr, DecidableEq

/-- After a discarded frame the next one is said to be missing too. -/
def got (slot : JbSlot) (seq : ℤ) (prevDiscarded : Bool) : JbGot :=
  if prevDiscarded then
    { frameType := .missing, size := 0, bitInfo := 0, ts := slot.ts, seq := seq, frame := none }
  else
    { frameType := slot.frameType, size := slot.contentLen, bitInfo := slot.bitInfo, ts := slot.ts,
      seq := seq, frame := some slot.content }

/-- The slot at the head is emptied, and the head goes on. -/
def leaveHead (fl : JbFramelist) (slot : JbSlot) : Except JbFault JbFramelist := do
  let fl ← fl.setSlot fl.head { slot.left with bitInfo := 0, ts := 0 }
  let head ← fl.posOf 1
  return { fl with origin := fl.origin + 1, head := head, size := fl.size - 1 }

/-- `jb_framelist_get`; `none` when there is no frame. -/
def get (fl : JbFramelist) : Except JbFault (Option JbGot × JbFramelist) := do
  if fl.size ≠ 0 then
    let (fl, prevDiscarded) ← loop .hang skipBody (fl.size + 1) (fl, false)
    if fl.size ≠ 0 then
      let slot ← fl.slotAt fl.head
      let left ← fl.leaveHead slot
      return (some (got slot fl.origin prevDiscarded), left)
    else return (none, fl)
  else return (none, fl)

/-! ### Putting and discarding -/

def maxMisorder : ℤ := 100
def maxDropout : ℤ := 3000

/-- The numbers start anew with a frame that is before the head. -/
def restart (fl : JbFramelist) (index : ℤ) : JbFramelist :=
  if index < fl.origin then { fl with origin := index - fl.size } else fl

/-- In an empty buffer the frame goes to the head. -/
def startEmpty (fl : JbFramelist) (index : ℤ) : Except JbFault JbFramelist :=
  if fl.size = 0 then
    if fl.discardedNum = 0 then .ok { fl with origin := index } else .error .assertion
  else .ok fl

def resetAt (fl : JbFramelist) (index : ℤ) : JbFramelist := { fl.reset with origin := index }

/-- The frame is put into its slot, unless there is one. -/
def store (fl : JbFramelist) (index distance : ℤ) (frame : List UInt8) (frameSize bitInfo ts : ℕ)
    (frameType : JbFrameType) : Except JbFault (JbStatus × JbFramelist) := do
  let pos ← fl.posOf distance.toNat
  let slot ← fl.slotAt pos
  if slot.frameType ≠ .missing then return (.eexists, fl)
  else
    let fl ← fl.setSlot pos (slot.written frame frameSize bitInfo ts frameType)
    return (.success,
      { fl with size := if fl.origin + fl.size ≤ index then (distance + 1).toNat else fl.size })

def putAt (fl : JbFramelist) (index : ℤ) (frame : List UInt8) (frameSize bitInfo ts : ℕ)
    (frameType : JbFrameType) : Except JbFault (JbStatus × JbFramelist) := do
  if frameSize > fl.frameSize then throw .assertion
  else if index < fl.origin ∧ fl.origin - index < maxMisorder then return (.etoosmall, fl)
  else
    let fl ← (fl.restart index).startEmpty index
    let distance := index - fl.origin
    if distance ≥ fl.maxCount then
      if distance > maxDropout then
        (fl.resetAt index).store index 0 frame frameSize bitInfo ts frameType
      else return (.etoomany, fl)
    else fl.store index distance frame frameSize bitInfo ts frameType

def discard (fl : JbFramelist) (index : ℤ) : Except JbFault JbFramelist := do
  if fl.origin ≤ index ∧ index < fl.origin + fl.size then
    let pos ← fl.posOf (index - fl.origin).toNat
    let slot ← fl.slotAt pos
    let fl ← fl.setSlot pos { slot with frameType := .discarded }
    return { fl with discardedNum := fl.discardedNum + 1 }
  else throw .assertion

/-! ### The window -/

/-- The slots from the head on. -/
def window (fl : JbFramelist) : List JbSlot := view fl.slots fl.maxCount fl.head fl.size

/-- The ring is within its arrays, the discarded slots are counted, and there is nothing outside the
window. -/
structure Valid (fl : JbFramelist) : Prop where
  maxCount_pos : 0 < fl.maxCount
  head_lt : fl.head < fl.maxCount
  size_le : fl.size ≤ fl.maxCount
  discardedNum : fl.discardedNum = fl.window.countP JbSlot.isDiscarded
  beyond : ∀ k, fl.size ≤ k → k < fl.maxCount →
    (fl.slots ((fl.head + k) % fl.maxCount)).frameType = .missing

variable {fl fl' : JbFramelist} {index : ℤ} {slot : JbSlot}

@[simp]
theorem length_window : fl.window.length = fl.size := length_view

theorem getElem?_window {k : ℕ} (h : k < fl.size) :
    fl.window[k]? = some (fl.slots ((fl.head + k) % fl.maxCount)) := getElem?_view h

theorem slotAt_of_lt {pos : ℕ} (h : pos < fl.maxCount) : fl.slotAt pos = .ok (fl.slots pos) :=
  if_pos h

theorem setSlot_of_lt {pos : ℕ} (h : pos < fl.maxCount) (slot : JbSlot) :
    fl.setSlot pos slot = .ok { fl with slots := Function.update fl.slots pos slot } := if_pos h

theorem posOf_of_pos (h : 0 < fl.maxCount) (distance : ℕ) :
    fl.posOf distance = .ok ((fl.head + distance) % fl.maxCount) := if_neg h.ne'

theorem Valid.pos_lt (h : fl.Valid) (n : ℕ) : n % fl.maxCount < fl.maxCount :=
  Nat.mod_lt n h.maxCount_pos

theorem Valid.discardedNum_le (h : fl.Valid) : fl.discardedNum ≤ fl.size := by
  rw [h.discardedNum, ← length_window]
  exact List.countP_le_length

theorem Valid.effSize (h : fl.Valid) :
    fl.effSize = fl.window.countP fun slot => !slot.isDiscarded := by
  have hlen := List.length_eq_countP_add_countP (l := fl.window) JbSlot.isDiscarded
  have hnot : fl.window.countP (fun slot => decide (¬slot.isDiscarded = true)) =
      fl.window.countP fun slot => !slot.isDiscarded :=
    List.countP_congr (by simp [JbSlot.isDiscarded])
  rw [length_window, ← h.discardedNum, hnot] at hlen
  rw [JbFramelist.effSize]
  omega

theorem Valid.reset (h : 0 < fl.maxCount) : fl.reset.Valid where
  maxCount_pos := h
  head_lt := h
  size_le := Nat.zero_le _
  discardedNum := rfl
  beyond k _ hk := by
    change k < fl.maxCount at hk
    simp [JbFramelist.reset, Nat.mod_eq_of_lt hk, hk]

theorem Valid.withOrigin (h : fl.Valid) (origin : ℤ) : { fl with origin := origin }.Valid :=
  ⟨h.maxCount_pos, h.head_lt, h.size_le, h.discardedNum, h.beyond⟩

/-- The first `n` slots of the window were left. -/
structure Drops (fl : JbFramelist) (n : ℕ) (fl' : JbFramelist) : Prop where
  valid : fl'.Valid
  window : fl'.window = fl.window.drop n
  origin : fl'.origin = fl.origin + n
  maxCount : fl'.maxCount = fl.maxCount
  frameSize : fl'.frameSize = fl.frameSize

theorem Drops.size {n : ℕ} (h : fl.Drops n fl') : fl'.size = fl.size - n := by
  rw [← length_window, h.window, List.length_drop, length_window]

theorem Drops.refl (h : fl.Valid) : fl.Drops 0 fl := ⟨h, rfl, by simp, rfl, rfl⟩

theorem Drops.trans {n k : ℕ} {fl'' : JbFramelist} (h : fl.Drops n fl') (h' : fl'.Drops k fl'') :
    fl.Drops (n + k) fl'' where
  valid := h'.valid
  window := by rw [h'.window, h.window, List.drop_drop]
  origin := by
    rw [h'.origin, h.origin]
    push_cast
    ring
  maxCount := h'.maxCount.trans h.maxCount
  frameSize := h'.frameSize.trans h.frameSize

/-- Where the head goes `n` slots on, and leaves them empty and counted off. -/
theorem Valid.drops {n : ℕ} (h : fl.Valid) (hn : n ≤ fl.size) (hmax : fl'.maxCount = fl.maxCount)
    (hframe : fl'.frameSize = fl.frameSize) (hhead : fl'.head = (fl.head + n) % fl.maxCount)
    (hsize : fl'.size = fl.size - n) (horigin : fl'.origin = fl.origin + n)
    (hnum : fl'.discardedNum = fl.discardedNum - (fl.window.take n).countP JbSlot.isDiscarded)
    (hgone : ∀ k < n, (fl'.slots ((fl.head + k) % fl.maxCount)).frameType = .missing)
    (hkept : ∀ k, n ≤ k → k < fl.maxCount →
      fl'.slots ((fl.head + k) % fl.maxCount) = fl.slots ((fl.head + k) % fl.maxCount)) :
    fl.Drops n fl' := by
  have hle := h.size_le
  have hwindow : fl'.window = fl.window.drop n := by
    rw [window, window, hmax, hhead, hsize, view_mod, view_drop hn]
    refine view_congr fun k hk => ?_
    rw [add_assoc]
    exact hkept (n + k) (by omega) (by omega)
  refine ⟨⟨hmax ▸ h.maxCount_pos, ?_, by omega, ?_, ?_⟩, hwindow, horigin, hmax, hframe⟩
  · rw [hmax, hhead]
    exact h.pos_lt _
  · rw [hnum, hwindow, h.discardedNum]
    have hcount := congrArg (List.countP JbSlot.isDiscarded) (List.take_append_drop n fl.window)
    rw [List.countP_append] at hcount
    omega
  · intro k hk hkm
    rw [hmax] at hkm
    rw [hmax, hhead, Nat.mod_add_mod, add_assoc]
    rcases Nat.lt_or_ge (n + k) fl.maxCount with hlt | hge
    · rw [hkept _ (by omega) hlt]
      exact h.beyond _ (by omega) hlt
    · have hround : (fl.head + (n + k)) % fl.maxCount =
          (fl.head + (n + k - fl.maxCount)) % fl.maxCount := by
        rw [← Nat.add_mod_right (fl.head + (n + k - fl.maxCount))]
        congr 1
        omega
      rw [hround]
      exact hgone _ (by omega)

/-! ### The slots by their numbers -/

/-- The slot for the number `index`. -/
def At (fl : JbFramelist) (index : ℤ) (slot : JbSlot) : Prop :=
  ∃ k : ℕ, fl.window[k]? = some slot ∧ fl.origin + k = index

theorem At.bounds (h : fl.At index slot) : fl.origin ≤ index ∧ index < fl.origin + fl.size := by
  obtain ⟨k, hslot, hk⟩ := h
  obtain ⟨hlt, -⟩ := List.getElem?_eq_some_iff.mp hslot
  rw [length_window] at hlt
  omega

theorem exists_at (hle : fl.origin ≤ index) (hlt : index < fl.origin + fl.size) :
    ∃ slot, fl.At index slot :=
  ⟨_, (index - fl.origin).toNat, getElem?_window (by omega), by omega⟩

theorem not_at_of_empty (h : fl.size = 0) : ¬fl.At index slot := fun hat => by
  have := hat.bounds
  omega

/-- The buffer went on: what is left of its slots has the numbers that it had, and no new one is
before its old end. -/
structure Passes (fl fl' : JbFramelist) : Prop where
  origin_le : fl.origin ≤ fl'.origin
  end_le : fl.origin + fl.size ≤ fl'.origin + fl'.size
  slot : ∀ index slot', fl'.At index slot' → ∃ slot, fl.At index slot ∧
    (slot' = slot ∨ slot' = { slot with frameType := .discarded })

theorem Passes.refl (fl : JbFramelist) : fl.Passes fl :=
  ⟨le_rfl, le_rfl, fun _ slot h => ⟨slot, h, .inl rfl⟩⟩

theorem Passes.trans {fl'' : JbFramelist} (h : fl.Passes fl') (h' : fl'.Passes fl'') :
    fl.Passes fl'' := by
  refine ⟨h.origin_le.trans h'.origin_le, h.end_le.trans h'.end_le, fun index slot'' hat => ?_⟩
  obtain ⟨slot', hat', hslot'⟩ := h'.slot index slot'' hat
  obtain ⟨slot, hat, hslot⟩ := h.slot index slot' hat'
  refine ⟨slot, hat, ?_⟩
  rcases hslot with rfl | rfl
  · exact hslot'
  · exact .inr (hslot'.elim id id)

/-- The buffer went on without a change of what is left, and is in order. -/
structure Advances (fl fl' : JbFramelist) : Prop where
  valid : fl'.Valid
  origin_le : fl.origin ≤ fl'.origin
  end_le : fl.origin + fl.size ≤ fl'.origin + fl'.size
  slot : ∀ index slot, fl'.At index slot → fl.At index slot
  maxCount : fl'.maxCount = fl.maxCount
  frameSize : fl'.frameSize = fl.frameSize

theorem Advances.passes (h : fl.Advances fl') : fl.Passes fl' :=
  ⟨h.origin_le, h.end_le, fun index slot hat => ⟨slot, h.slot index slot hat, .inl rfl⟩⟩

theorem Advances.refl (h : fl.Valid) : fl.Advances fl :=
  ⟨h, le_rfl, le_rfl, fun _ _ hat => hat, rfl, rfl⟩

theorem Advances.trans {fl'' : JbFramelist} (h : fl.Advances fl') (h' : fl'.Advances fl'') :
    fl.Advances fl'' :=
  ⟨h'.valid, h.origin_le.trans h'.origin_le, h.end_le.trans h'.end_le,
    fun index slot hat => h.slot index slot (h'.slot index slot hat),
    h'.maxCount.trans h.maxCount, h'.frameSize.trans h.frameSize⟩

theorem Drops.advances {n : ℕ} (h : fl.Drops n fl') (hn : n ≤ fl.size) : fl.Advances fl' where
  valid := h.valid
  origin_le := by
    rw [h.origin]
    omega
  end_le := by
    rw [h.origin, h.size]
    omega
  slot index slot := by
    rintro ⟨k, hslot, hk⟩
    rw [h.window, List.getElem?_drop] at hslot
    refine ⟨n + k, hslot, ?_⟩
    rw [h.origin] at hk
    push_cast
    omega
  maxCount := h.maxCount
  frameSize := h.frameSize

/-! ### What leaving the head does -/

theorem uncount_list (is : List ℕ) (hpos : ∀ i ∈ is, i < fl.maxCount)
    (hnum : (is.map fl.slots).countP JbSlot.isDiscarded ≤ fl.discardedNum) :
    is.foldlM uncountSlot fl = .ok { fl with
      discardedNum := fl.discardedNum - (is.map fl.slots).countP JbSlot.isDiscarded } := by
  induction is generalizing fl with
  | nil => rfl
  | cons i is ih =>
    rw [List.map_cons, List.countP_cons] at hnum
    have hi := slotAt_of_lt (hpos i List.mem_cons_self)
    have hrest : ∀ i ∈ is, i < fl.maxCount := fun i hi => hpos i (List.mem_cons_of_mem _ hi)
    rw [List.foldlM_cons]
    by_cases hd : (fl.slots i).frameType = .discarded
    · rw [if_pos (JbSlot.isDiscarded_iff.mpr hd)] at hnum
      have hslot : fl.uncountSlot i = .ok { fl with discardedNum := fl.discardedNum - 1 } := by
        simp only [uncountSlot, hi, bind, Except.bind, if_pos hd,
          if_pos (show fl.discardedNum > 0 by omega)]
        rfl
      have hcounted := @ih { fl with discardedNum := fl.discardedNum - 1 } hrest
        (Nat.le_sub_of_add_le hnum)
      rw [hslot]
      refine hcounted.trans ?_
      rw [List.map_cons, List.countP_cons_of_pos (JbSlot.isDiscarded_iff.mpr hd), Nat.sub_sub,
        Nat.add_comm 1]
    · have hd' : ¬(fl.slots i).isDiscarded = true := by simpa using hd
      rw [if_neg hd'] at hnum
      have hslot : fl.uncountSlot i = .ok fl := by
        simp only [uncountSlot, hi, bind, Except.bind, if_neg hd]
        rfl
      rw [hslot]
      refine (ih hrest hnum).trans ?_
      rw [List.map_cons, List.countP_cons_of_neg hd']

theorem uncount_rule {start n : ℕ} (hend : start + n ≤ fl.maxCount)
    (hnum : ((List.range' start n).map fl.slots).countP JbSlot.isDiscarded ≤ fl.discardedNum) :
    fl.uncount start n = .ok { fl with discardedNum :=
      fl.discardedNum - ((List.range' start n).map fl.slots).countP JbSlot.isDiscarded } :=
  uncount_list _ (fun i hi => by rw [List.mem_range'_1] at hi; omega) hnum

/-- The slots of a stretch are counted off and left. -/
theorem emptyStretch_rule {start n : ℕ} (hend : start + n ≤ fl.maxCount)
    (hnum : ((List.range' start n).map fl.slots).countP JbSlot.isDiscarded ≤ fl.discardedNum) :
    fl.emptyStretch start n = .ok { fl with
      slots := fun i => if start ≤ i ∧ i < start + n then (fl.slots i).left else fl.slots i
      discardedNum :=
        fl.discardedNum - ((List.range' start n).map fl.slots).countP JbSlot.isDiscarded } := by
  rw [emptyStretch, uncount_rule hend hnum]
  exact if_pos hend

theorem emptyStretch_zero (fl : JbFramelist) (start : ℕ) (h : start ≤ fl.maxCount) :
    fl.emptyStretch start 0 = .ok fl := by
  rw [emptyStretch_rule (by omega) (by simp)]
  have hslots : (fun i => if start ≤ i ∧ i < start + 0 then (fl.slots i).left else fl.slots i) =
      fl.slots := by
    funext i
    exact if_neg (by omega)
  rw [hslots]
  rfl

theorem emptyOverlap_eq (fl : JbFramelist) (step2 : ℕ) :
    fl.emptyOverlap step2 = fl.emptyStretch 0 step2 := by
  rw [emptyOverlap]
  split_ifs with hs
  · rfl
  · rw [not_not.mp hs, emptyStretch_zero _ _ (Nat.zero_le _)]

/-- The two steps together leave the first `n` slots of the window. -/
theorem emptyStretches_rule {n step1 step2 : ℕ} (h : fl.Valid) (hn : n ≤ fl.size)
    (h1 : step1 = min n (fl.maxCount - fl.head)) (h2 : step2 = n - step1) :
    ∃ fl₁, fl.emptyStretch fl.head step1 = .ok fl₁ ∧ fl₁.emptyOverlap step2 = .ok { fl with
      slots := fun i =>
        if (fl.head ≤ i ∧ i < fl.head + step1) ∨ i < step2 then (fl.slots i).left else fl.slots i
      discardedNum := fl.discardedNum - (fl.window.take n).countP JbSlot.isDiscarded } := by
  have hhead := h.head_lt
  have hsize := h.size_le
  have hsplit : fl.window.take n = (List.range' fl.head step1).map fl.slots ++
      (List.range' 0 step2).map fl.slots := by
    rw [window, view_take hn, view_split hhead.le (by omega), ← h1, ← h2]
  have hnum := h.discardedNum ▸ (List.take_sublist n fl.window).countP_le (p := JbSlot.isDiscarded)
  rw [hsplit, List.countP_append] at hnum ⊢
  refine ⟨_, emptyStretch_rule (by omega) (by omega), ?_⟩
  -- the slots of the second step are before those of the first
  have hbefore : ∀ i < step2,
      (if fl.head ≤ i ∧ i < fl.head + step1 then (fl.slots i).left else fl.slots i) = fl.slots i :=
    fun i hi => if_neg (by omega)
  have hsame : (List.range' 0 step2).map (fun i =>
      if fl.head ≤ i ∧ i < fl.head + step1 then (fl.slots i).left else fl.slots i) =
      (List.range' 0 step2).map fl.slots := by
    refine List.map_congr_left fun i hi => hbefore i ?_
    rw [List.mem_range'_1] at hi
    omega
  have hslots : (fun i => if 0 ≤ i ∧ i < 0 + step2 then
      (if fl.head ≤ i ∧ i < fl.head + step1 then (fl.slots i).left else fl.slots i).left
      else if fl.head ≤ i ∧ i < fl.head + step1 then (fl.slots i).left else fl.slots i) =
      fun i => if (fl.head ≤ i ∧ i < fl.head + step1) ∨ i < step2 then (fl.slots i).left
        else fl.slots i := by
    funext i
    by_cases hi : i < step2
    · rw [if_pos (by omega), hbefore i hi, if_pos (.inr hi)]
    · rw [if_neg (by omega)]
      simp only [hi, or_false]
  rw [emptyOverlap_eq, emptyStretch_rule (by simp only; omega) (by simp only [hsame]; omega)]
  simp only [hsame, hslots, Nat.sub_sub]

theorem removeHead_rule (h : fl.Valid) (n : ℕ) :
    ∃ fl', fl.removeHead n = .ok (min n fl.size, fl') ∧ fl.Drops (min n fl.size) fl' := by
  have hsize := h.size_le
  have hhead := h.head_lt
  obtain ⟨c, hc⟩ : ∃ c, c = min n fl.size := ⟨_, rfl⟩
  have hcount : (if n > fl.size then fl.size else n) = c := by
    split_ifs <;> omega
  rw [removeHead, ← hc]
  simp only [hcount]
  by_cases hzero : c = 0
  · subst hzero
    exact ⟨fl, rfl, .refl h⟩
  obtain ⟨step1, h1⟩ : ∃ s, s = min c (fl.maxCount - fl.head) := ⟨_, rfl⟩
  obtain ⟨step2, h2⟩ : ∃ s, s = c - step1 := ⟨_, rfl⟩
  have hstep1 : (if fl.head + c > fl.maxCount then fl.maxCount - fl.head else c) = step1 := by
    split_ifs <;> omega
  have hstep2 : (if fl.head + c > fl.maxCount then c - step1 else 0) = step2 := by
    split_ifs <;> omega
  obtain ⟨fl₁, hfirst, hsecond⟩ := emptyStretches_rule h (by omega) h1 h2
  refine ⟨{ fl with
    slots := fun i =>
      if (fl.head ≤ i ∧ i < fl.head + step1) ∨ i < step2 then (fl.slots i).left else fl.slots i
    head := (fl.head + c) % fl.maxCount
    size := fl.size - c
    discardedNum := fl.discardedNum - (fl.window.take c).countP JbSlot.isDiscarded
    origin := fl.origin + c }, ?_, ?_⟩
  · rw [if_pos hzero, hstep1, hstep2, hfirst]
    simp only [bind, Except.bind, hsecond, posOf, if_neg h.maxCount_pos.ne']
    rfl
  · refine h.drops (by omega) rfl rfl rfl rfl rfl rfl (fun k hk => ?_) fun k hk hkm => ?_
    · have hmem :=
        (mem_split (i := (fl.head + k) % fl.maxCount) hhead.le (by omega)).mpr ⟨k, hk, rfl⟩
      rw [← h1, ← h2] at hmem
      simp only [if_pos hmem, JbSlot.left_frameType]
    · refine if_neg fun hmem => ?_
      rw [h2, h1, mem_split hhead.le (by omega)] at hmem
      obtain ⟨j, hj, hjk⟩ := hmem
      exact absurd (slot_inj (by omega) hkm hjk) (by omega)

/-! ### What getting does -/

theorem Valid.head_cons (h : fl.Valid) (hs : 0 < fl.size) :
    fl.window = fl.slots fl.head :: fl.window.drop 1 := by
  have h0 := getElem?_window hs
  rw [Nat.add_zero, Nat.mod_eq_of_lt h.head_lt] at h0
  cases hw : fl.window with
  | nil => simp [hw] at h0
  | cons slot rest =>
    rw [hw] at h0
    rw [Option.some.inj h0]
    rfl

/-- How many discarded slots are at the head. -/
def skipped (fl : JbFramelist) : ℕ := (fl.window.takeWhile JbSlot.isDiscarded).length

theorem skipped_le : fl.skipped ≤ fl.size := by
  rw [← length_window]
  exact (List.takeWhile_prefix _).length_le

theorem skipped_cons {rest : List JbSlot} (h : fl.window = slot :: rest) (hd : slot.isDiscarded) :
    fl.skipped = (rest.takeWhile JbSlot.isDiscarded).length + 1 := by
  rw [skipped, h, List.takeWhile_cons_of_pos hd, List.length_cons]

theorem Valid.skipped_eq_zero (h : fl.Valid) (hd : (fl.slots fl.head).frameType ≠ .discarded) :
    fl.skipped = 0 := by
  rcases Nat.eq_zero_or_pos fl.size with hs | hs
  · have := fl.skipped_le
    omega
  · rw [skipped, h.head_cons hs, List.takeWhile_cons_of_neg (by simpa using hd), List.length_nil]

theorem skipBody_exit (h : fl.Valid) (hd : (fl.slots fl.head).frameType ≠ .discarded)
    (prev : Bool) : skipBody (fl, prev) = .ok (.exit (fl, prev)) := by
  simp [skipBody, slotAt_of_lt h.head_lt, bind, Except.bind, hd, pure, Except.pure]

theorem skip_rule (h : fl.Valid) (prev : Bool) : ∃ fl',
    loop .hang skipBody (fl.size + 1) (fl, prev) = .ok (fl', prev || decide (0 < fl.skipped)) ∧
      fl.Drops fl.skipped fl' := by
  induction hn : fl.size generalizing fl prev with
  | zero =>
    have hmissing := h.beyond 0 (by omega) h.maxCount_pos
    rw [Nat.add_zero, Nat.mod_eq_of_lt h.head_lt] at hmissing
    have hd : (fl.slots fl.head).frameType ≠ .discarded := by simp [hmissing]
    have hzero := h.skipped_eq_zero hd
    refine ⟨fl, ?_, hzero ▸ .refl h⟩
    rw [loop_exit (skipBody_exit h hd prev), hzero]
    simp
  | succ n ih =>
    by_cases hd : (fl.slots fl.head).frameType = .discarded
    · obtain ⟨fl₁, hremove, hdrops⟩ := removeHead_rule h 1
      rw [min_eq_left (by omega)] at hremove hdrops
      obtain ⟨fl', hloop, hdrops'⟩ := ih hdrops.valid true (by rw [hdrops.size]; omega)
      have hskipped : fl.skipped = fl₁.skipped + 1 := by
        rw [skipped_cons (h.head_cons (by omega)) (by simpa using hd), ← hdrops.window]
        rfl
      refine ⟨fl', ?_, by rw [hskipped, Nat.add_comm]; exact hdrops.trans hdrops'⟩
      have hbody : skipBody (fl, prev) = .ok (.next (fl₁, true)) := by
        simp [skipBody, slotAt_of_lt h.head_lt, bind, Except.bind, hd, hremove, pure, Except.pure]
      rw [loop_next hbody, hloop, hskipped]
      simp
    · have hzero := h.skipped_eq_zero hd
      refine ⟨fl, ?_, hzero ▸ .refl h⟩
      rw [loop_exit (skipBody_exit h hd prev), hzero]
      simp

theorem leaveHead_rule (h : fl.Valid) (hs : 0 < fl.size)
    (hd : (fl.slots fl.head).frameType ≠ .discarded) :
    ∃ fl', fl.leaveHead (fl.slots fl.head) = .ok fl' ∧ fl.Drops 1 fl' := by
  have hsize := h.size_le
  have hhead : (fl.head + 0) % fl.maxCount = fl.head := Nat.mod_eq_of_lt h.head_lt
  refine ⟨{ fl with
    slots := Function.update fl.slots fl.head { (fl.slots fl.head).left with bitInfo := 0, ts := 0 }
    origin := fl.origin + 1
    head := (fl.head + 1) % fl.maxCount
    size := fl.size - 1 }, ?_, ?_⟩
  · rw [leaveHead, setSlot_of_lt h.head_lt]
    simp only [bind, Except.bind, posOf, if_neg h.maxCount_pos.ne']
    rfl
  · refine h.drops hs rfl rfl rfl rfl rfl ?_ (fun k hk => ?_) fun k hk hkm => ?_
    · rw [h.head_cons hs, List.take_succ_cons, List.take_zero,
        List.countP_cons_of_neg (by simpa using hd), List.countP_nil, Nat.sub_zero]
    · obtain rfl : k = 0 := by omega
      simp only [hhead, Function.update_self]
      rfl
    · refine Function.update_of_ne (fun heq => ?_) _ _
      have := slot_inj hkm h.maxCount_pos (heq.trans hhead.symm)
      omega

/-- Where only discarded slots are left there is no frame. -/
theorem get_none (h : fl.Valid) (hnone : fl.skipped = fl.size) :
    ∃ fl', fl.get = .ok (none, fl') ∧ fl.Drops fl.size fl' := by
  by_cases hs : fl.size = 0
  · refine ⟨fl, ?_, hs ▸ .refl h⟩
    rw [get, if_neg (not_not.mpr hs)]
    rfl
  · obtain ⟨fl', hloop, hdrops⟩ := skip_rule h false
    refine ⟨fl', ?_, hnone ▸ hdrops⟩
    have hempty : fl'.size = 0 := by rw [hdrops.size, hnone, Nat.sub_self]
    rw [get, if_pos hs, hloop]
    simp [bind, Except.bind, hempty, pure, Except.pure]

theorem getElem?_skipped :
    fl.window[fl.skipped]? = (fl.window.dropWhile JbSlot.isDiscarded).head? := by
  obtain ⟨l, hl⟩ : ∃ l, l = fl.window.takeWhile JbSlot.isDiscarded := ⟨_, rfl⟩
  have hparts := List.takeWhile_append_dropWhile (p := JbSlot.isDiscarded) (l := fl.window)
  rw [skipped, ← hl]
  rw [← hl] at hparts
  conv_lhs => rw [← hparts]
  rw [List.getElem?_append_right le_rfl, Nat.sub_self, List.head?_eq_getElem?]

theorem not_discarded_of_skipped (h : fl.window[fl.skipped]? = some slot) :
    slot.frameType ≠ .discarded := by
  have hfirst := List.head?_dropWhile_not JbSlot.isDiscarded fl.window
  rw [← getElem?_skipped, h] at hfirst
  simpa [JbSlot.isDiscarded] using hfirst

/-- The first slot that is not discarded is returned, and left. -/
theorem get_some (h : fl.Valid) (hsome : fl.window[fl.skipped]? = some slot) :
    slot.frameType ≠ .discarded ∧ ∃ fl', fl.Drops (fl.skipped + 1) fl' ∧
      fl.get =
        .ok (some (got slot (fl.origin + fl.skipped) (decide (0 < fl.skipped))), fl') := by
  obtain ⟨hlt, -⟩ := List.getElem?_eq_some_iff.mp hsome
  rw [length_window] at hlt
  obtain ⟨fl₁, hloop, hdrops⟩ := skip_rule h false
  have hs₁ : 0 < fl₁.size := by
    rw [hdrops.size]
    omega
  have hcons := hdrops.valid.head_cons hs₁
  have hslot : fl₁.slots fl₁.head = slot := by
    have h0 : fl₁.window[0]? = some slot := by
      rw [hdrops.window, List.getElem?_drop, Nat.add_zero, hsome]
    rw [hcons] at h0
    exact Option.some.inj h0
  have hd := not_discarded_of_skipped hsome
  obtain ⟨fl', hleave, hleft⟩ := leaveHead_rule hdrops.valid hs₁ (hslot ▸ hd)
  refine ⟨hd, fl', hdrops.trans hleft, ?_⟩
  rw [get, if_pos (by omega), hloop]
  rw [hslot] at hleave
  simp only [bind, Except.bind, slotAt_of_lt hdrops.valid.head_lt, hslot, hleave, hs₁.ne', ne_eq,
    not_false_eq_true, if_true, Bool.false_or, hdrops.origin]
  rfl

/-! ### What discarding does -/

/-- The frame `k` slots after the head was discarded. -/
structure Discards (fl : JbFramelist) (k : ℕ) (slot : JbSlot) (fl' : JbFramelist) : Prop where
  valid : fl'.Valid
  window : fl'.window = fl.window.set k { slot with frameType := .discarded }
  origin : fl'.origin = fl.origin
  maxCount : fl'.maxCount = fl.maxCount
  frameSize : fl'.frameSize = fl.frameSize

theorem Discards.at_cases {k : ℕ} {slot' : JbSlot} (h : fl.Discards k slot fl')
    (hslot : fl.window[k]? = some slot) (hat : fl'.At index slot') :
    index = fl.origin + k ∧ slot' = { slot with frameType := .discarded } ∨
      fl.At index slot' := by
  obtain ⟨j, hj, hindex⟩ := hat
  rw [h.origin] at hindex
  rw [h.window] at hj
  by_cases hk : k = j
  · subst hk
    obtain ⟨hlt, -⟩ := List.getElem?_eq_some_iff.mp hslot
    rw [List.getElem?_set_self hlt] at hj
    exact .inl ⟨hindex.symm, (Option.some.inj hj).symm⟩
  · rw [List.getElem?_set_ne hk] at hj
    exact .inr ⟨j, hj, hindex⟩

theorem Discards.passes {k : ℕ} (h : fl.Discards k slot fl') (hslot : fl.window[k]? = some slot) :
    fl.Passes fl' where
  origin_le := h.origin.ge
  end_le := by rw [h.origin, ← length_window, ← length_window, h.window, List.length_set]
  slot index slot' hat := by
    rcases h.at_cases hslot hat with ⟨rfl, rfl⟩ | hat
    · exact ⟨slot, ⟨k, hslot, rfl⟩, .inr rfl⟩
    · exact ⟨slot', hat, .inl rfl⟩

theorem Discards.size {k : ℕ} (h : fl.Discards k slot fl') : fl'.size = fl.size := by
  rw [← length_window, h.window, List.length_set, length_window]

theorem discard_rule {k : ℕ} (h : fl.Valid) (hslot : fl.window[k]? = some slot)
    (hindex : fl.origin + k = index) (hd : slot.frameType ≠ .discarded) :
    ∃ fl', fl.discard index = .ok fl' ∧ fl.Discards k slot fl' := by
  obtain ⟨hk, hget⟩ := List.getElem?_eq_some_iff.mp hslot
  have hks := hk
  rw [length_window] at hks
  have hsize := h.size_le
  rw [getElem?_window hks] at hslot
  have hslot := Option.some.inj hslot
  have hpos : (index - fl.origin).toNat = k := by omega
  obtain ⟨new, hnew⟩ : ∃ new : JbSlot, new = { slot with frameType := .discarded } := ⟨_, rfl⟩
  obtain ⟨fl', hfl'⟩ : ∃ x, x = { fl with
    slots := Function.update fl.slots ((fl.head + k) % fl.maxCount) new
    discardedNum := fl.discardedNum + 1 } := ⟨_, rfl⟩
  have hwindow : fl'.window = fl.window.set k new := by
    rw [hfl']
    exact view_update new hks h.size_le
  refine ⟨fl', ?_, ⟨?_, hnew ▸ hwindow, by rw [hfl'], by rw [hfl'], by rw [hfl']⟩⟩
  · rw [discard, if_pos (by omega), hpos, hfl']
    simp only [posOf_of_pos h.maxCount_pos, bind, Except.bind, slotAt_of_lt (h.pos_lt _), hslot,
      ← hnew, setSlot_of_lt (h.pos_lt _)]
    rfl
  · refine ⟨?_, ?_, ?_, ?_, ?_⟩
    · rw [hfl']
      exact h.maxCount_pos
    · rw [hfl']
      exact h.head_lt
    · rw [hfl']
      exact h.size_le
    · have hold : ¬slot.isDiscarded = true := by simpa using hd
      rw [hwindow, List.countP_set hk, hget, if_neg hold, ← h.discardedNum, hnew, hfl']
      rfl
    · intro j hj hjm
      rw [hfl'] at hj hjm ⊢
      simp only at hj hjm ⊢
      rw [Function.update_of_ne]
      · exact h.beyond j hj hjm
      · exact fun heq => absurd (slot_inj hjm (by omega) heq) (by omega)

end JbFramelist

end PttTerminal
