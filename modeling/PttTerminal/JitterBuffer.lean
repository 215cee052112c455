import PttTerminal.JitterPuts

/-!
# The jitter buffer

Frames are put when packets come and got when the sound device wants them. The longest burst of
frames between two gets is the level; it says how many frames are collected before the first is
played, and from which size on frames are discarded so that the delay gets shorter.
-/
namespace PttTerminal

open Loops

inductive JbOp where
  | init
  | put
  | get
  deriving Repr, DecidableEq

inductive DiscardAlgo where
  | none
  | static
  | progressive
  deriving Repr, DecidableEq

/-- The settings of `pjmedia_jbuf`. -/
structure JbSettings where
  jbFrameSize : ℕ
  framePtime : ℕ
  jbMaxCount : ℕ
  initPrefetch : ℤ
  minPrefetch : ℤ
  maxPrefetch : ℤ
  maxBurst : ℤ
  minShrinkGap : ℤ
  discardAlgo : DiscardAlgo

/-- `pjmedia_jbuf` without its name and the statistics of delays and bursts, which are only
printed. -/
structure Jbuf extends JbSettings where
  framelist : JbFramelist
  level : ℤ
  maxHistLevel : ℤ
  stableHist : ℤ
  lastOp : JbOp
  effLevel : ℤ
  prefetch : ℤ
  prefetching : Bool
  /-- The status is `JB_STATUS_PROCESSING`. -/
  processing : Bool
  initCycleCnt : ℤ
  discardRef : ℤ
  discardDist : ℤ
  lost : ℕ
  discard : ℕ
  empty : ℕ

namespace Jbuf

/-! ### Settings -/

def reset (jb : Jbuf) : Jbuf :=
  { jb with
    level := 0, lastOp := .init, stableHist := 0, processing := false, initCycleCnt := 0,
    maxHistLevel := 0, prefetching := jb.prefetch ≠ 0, discardDist := 0,
    framelist := jb.framelist.reset }

def setFixed (jb : Jbuf) (prefetch : ℕ) : Except JbFault Jbuf :=
  if prefetch ≤ jb.jbMaxCount then
    .ok { jb with minPrefetch := prefetch, maxPrefetch := prefetch, prefetch := prefetch,
                  initPrefetch := prefetch }
  else .error .assertion

def setAdaptive (jb : Jbuf) (prefetch minPrefetch maxPrefetch : ℕ) : Except JbFault Jbuf :=
  if minPrefetch ≤ maxPrefetch ∧ prefetch ≤ maxPrefetch ∧ maxPrefetch ≤ jb.jbMaxCount then
    .ok { jb with prefetch := prefetch, initPrefetch := prefetch, minPrefetch := minPrefetch,
                  maxPrefetch := maxPrefetch }
  else .error .assertion

def setDiscard (jb : Jbuf) (algo : DiscardAlgo) : Jbuf := { jb with discardAlgo := algo }

/-- A new buffer for frames of `ptime` milliseconds. -/
def initial (frameSize ptime maxCount : ℕ) (memory : ℕ → JbSlot) : Jbuf :=
  reset <| setDiscard
    { jbFrameSize := frameSize, framePtime := ptime, jbMaxCount := maxCount, initPrefetch := 0,
      minPrefetch := 0, maxPrefetch := (maxCount * 4 / 5 : ℕ),
      maxBurst := max (1000 / ptime) (maxCount * 3 / 4 : ℕ), minShrinkGap := (200 / ptime : ℕ),
      discardAlgo := .none, framelist := .init frameSize maxCount memory, level := 0,
      maxHistLevel := 0, stableHist := 0, lastOp := .init, effLevel := 0,
      prefetch := min 15 (maxCount * 4 / 5 : ℕ), prefetching := false, processing := false,
      initCycleCnt := 0, discardRef := 0, discardDist := 0, lost := 0, discard := 0, empty := 0 }
    .progressive

/-- `pjmedia_jbuf_create`. -/
def create (frameSize ptime maxCount : ℕ) (memory : ℕ → JbSlot) : Except JbFault Jbuf :=
  if ptime = 0 then .error .divByZero else .ok (initial frameSize ptime maxCount memory)

/-! ### The level -/

def initCycle : ℤ := 10
def stableHistoryLimit : ℤ := 20

/-- By how much the level goes down. -/
def levelDiff (jb : Jbuf) : ℤ :=
  let diff := (jb.effLevel - jb.maxHistLevel).tdiv 3
  if diff < 1 then 1 else diff

/-- The prefetch for a lower level. -/
def loweredPrefetch (jb : Jbuf) (effLevel : ℤ) : ℤ :=
  if jb.initPrefetch ≠ 0 then if effLevel < jb.minPrefetch then jb.minPrefetch else effLevel
  else jb.prefetch

def raisedPrefetch (jb : Jbuf) (effLevel : ℤ) : ℤ :=
  if jb.initPrefetch ≠ 0 then if effLevel > jb.maxPrefetch then jb.maxPrefetch else effLevel
  else jb.prefetch

/-- The level goes down once it was lower for long enough. -/
def lowerLevel (jb : Jbuf) : Jbuf :=
  let jb := { jb with stableHist := jb.stableHist + 1 }
  if jb.stableHist > stableHistoryLimit then
    { jb with
      effLevel := jb.effLevel - jb.levelDiff
      prefetch := jb.loweredPrefetch (jb.effLevel - jb.levelDiff)
      maxHistLevel := 0
      stableHist := 0 }
  else jb

def raiseLevel (jb : Jbuf) : Jbuf :=
  let effLevel := min jb.maxHistLevel (jb.jbMaxCount * 4 / 5 : ℕ)
  { jb with
    effLevel := effLevel
    prefetch := jb.raisedPrefetch effLevel
    stableHist := 0 }

def calculateJitter (jb : Jbuf) : Jbuf :=
  let jb := { jb with maxHistLevel := max jb.maxHistLevel jb.level }
  if jb.level < jb.effLevel then jb.lowerLevel
  else if jb.level > jb.effLevel then jb.raiseLevel
  else { jb with stableHist := 0 }

/-! ### Discarding -/

/-- Where the last frame was removed, unless the numbers started anew since. -/
def removalRef (jb : Jbuf) : ℤ :=
  if jb.framelist.origin < jb.discardRef then jb.framelist.origin else jb.discardRef

def discardStatic (jb : Jbuf) : Except JbFault Jbuf := do
  let burstLevel := max jb.effLevel jb.level
  let diff := (jb.framelist.effSize : ℤ) - burstLevel * 2
  if diff ≥ 1 then
    let jb := { jb with discardRef := jb.removalRef }
    if jb.framelist.origin - jb.discardRef ≥ jb.minShrinkGap then
      let (removed, fl) ← jb.framelist.removeHead 1
      return { jb with framelist := fl, discardRef := fl.origin, discard := jb.discard + removed }
    else return jb
  else return jb

/-- The time in which the overflow is to be discarded. -/
def discardTime (burstLevel : ℕ) : ℕ :=
  if burstLevel ≤ 1 then 2000
  else if burstLevel ≥ 100 then 10000
  else 2000 + (10000 - 2000) * (burstLevel - 1) / (100 - 1)

/-- The last frame that was discarded, or where a schedule begins. -/
def scheduleRef (jb : Jbuf) (lastSeq : ℤ) : ℤ :=
  if jb.discardDist = 0 then lastSeq
  else if lastSeq < jb.discardRef then lastSeq
  else jb.discardRef

/-- A frame is discarded once the schedule has come to one that is there. -/
def discardNow (jb : Jbuf) (lastSeq : ℤ) : Except JbFault Jbuf := do
  if lastSeq ≥ jb.discardRef + jb.discardDist then
    let discardSeq := max (jb.discardRef + jb.discardDist) jb.framelist.origin
    let fl ← jb.framelist.discard discardSeq
    return { jb with framelist := fl, discardRef := discardSeq }
  else return jb

def discardProgressive (jb : Jbuf) : Except JbFault Jbuf :=
  if jb.lastOp ≠ .put then .ok jb
  else
    let curSize := jb.framelist.effSize
    let burstLevel := (max jb.effLevel jb.level).toNat
    if curSize ≤ burstLevel then .ok { jb with discardDist := 0 }
    else if jb.framePtime = 0 then .error .divByZero
    else
      let overflow := curSize - burstLevel
      let discardDist : ℕ := discardTime burstLevel / overflow / jb.framePtime
      let lastSeq := jb.framelist.origin + jb.framelist.size - 1
      { jb with
        discardRef := jb.scheduleRef lastSeq
        discardDist := max jb.minShrinkGap discardDist }.discardNow lastSeq

def runDiscard (jb : Jbuf) : Except JbFault Jbuf :=
  match jb.discardAlgo with
  | .none => .ok jb
  | .static => jb.discardStatic
  | .progressive => jb.discardProgressive

/-- The buffer leaves its first phase with a get, after some changes between puts and gets. -/
def startProcessing (jb : Jbuf) (oper : JbOp) : Jbuf :=
  let jb := { jb with initCycleCnt := jb.initCycleCnt + 1 }
  if jb.initCycleCnt ≥ initCycle ∧ oper = .get then
    { jb with processing := true, level := min jb.level jb.maxBurst }
  else { jb with level := 0 }

/-- What is left of `jbuf_update` when the operation is another one than the last. -/
def switchOp (jb : Jbuf) (oper : JbOp) : Jbuf :=
  let jb := if oper = .get ∧ jb.level ≤ jb.maxBurst then jb.calculateJitter else jb
  { jb with level := 0 }

def beginOp (jb : Jbuf) (oper : JbOp) : Jbuf :=
  let jb := { jb with lastOp := oper }
  if jb.processing then jb else jb.startProcessing oper

def update (jb : Jbuf) (oper : JbOp) : Except JbFault Jbuf :=
  if jb.lastOp ≠ oper then
    let jb := jb.beginOp oper
    if jb.processing then (jb.switchOp oper).runDiscard else .ok jb
  else if jb.processing then jb.runDiscard
  else .ok jb

/-! ### Putting and getting -/

/-- One round of the loop that makes room for a frame. -/
def makeRoomBody (frame : List UInt8) (frameSize bitInfo ts : ℕ) (seq : ℤ) (s : JbStatus × Jbuf) :
    Except JbFault (Ctl (JbStatus × Jbuf) (JbStatus × Jbuf)) := do
  let (status, jb) := s
  if status = .etoomany then
    let distance := seq - jb.framelist.origin - jb.jbMaxCount + 1
    if distance > 0 then
      let (removed, fl) ← jb.framelist.removeHead distance.toNat
      let (status, fl) ← fl.putAt seq frame frameSize bitInfo ts .normal
      return .next (status, { jb with framelist := fl, discard := jb.discard + removed })
    else throw .assertion
  else return .exit (status, jb)

def place (jb : Jbuf) (frame : List UInt8) (frameSize bitInfo ts : ℕ) (seq : ℤ) :
    Except JbFault (JbStatus × Jbuf) := do
  let (status, fl) ← jb.framelist.putAt seq frame frameSize bitInfo ts .normal
  loop .hang (makeRoomBody frame frameSize bitInfo ts seq) (fl.size + 2)
    (status, { jb with framelist := fl })

/-- What is done about the prefetch and the level after a frame was put. -/
def afterPut (jb : Jbuf) (curSize : ℕ) : Jbuf :=
  let newSize := jb.framelist.effSize
  { jb with
    prefetching := jb.prefetching && !decide ((newSize : ℤ) ≥ jb.prefetch)
    level := jb.level + if newSize > curSize then (newSize : ℤ) - curSize else 1 }

/-- `pjmedia_jbuf_put_frame3`; the result says whether the frame was discarded. -/
def putFrame (jb : Jbuf) (frame : List UInt8) (bitInfo : ℕ) (frameSeq : ℤ) (ts : ℕ) :
    Except JbFault (Bool × Jbuf) := do
  let curSize := jb.framelist.effSize
  let minFrameSize := min frame.length jb.jbFrameSize
  let (status, jb) ← jb.place frame minFrameSize bitInfo ts frameSeq
  if status = .success then
    let jb ← (jb.afterPut curSize).update .put
    return (false, jb)
  else return (true, { jb with discard := jb.discard + 1 })

/-- What `pjmedia_jbuf_get_frame3` writes to its pointers. -/
structure Out where
  frameType : JbFrameType
  size : ℕ := 0
  bitInfo : Option ℕ := none
  ts : Option ℕ := none
  seq : Option ℤ := none
  frame : Option (List UInt8) := none
  deriving Repr, DecidableEq

def outOf (frameType : JbFrameType) (got : JbFramelist.JbGot) : Out where
  frameType := frameType
  size := got.size
  bitInfo := got.bitInfo
  ts := got.ts
  seq := got.seq
  frame := got.frame

/-- Taking a frame from the list, or finding that there is none. -/
def take (jb : Jbuf) : Except JbFault (Out × Jbuf) := do
  let (got, fl) ← jb.framelist.get
  match got with
  | some got =>
    if got.frameType = .normal then
      return (outOf .normal got, { jb with framelist := fl })
    else return (outOf .missing got, { jb with framelist := fl, lost := jb.lost + 1 })
  | none =>
    return ({ frameType := .zeroEmpty, frame := some (List.replicate fl.frameSize 0) },
      { jb with
        framelist := fl
        prefetching := if jb.prefetch ≠ 0 then true else jb.prefetching
        empty := jb.empty + 1 })

/-- While frames are collected none is taken. -/
def fetch (jb : Jbuf) : Except JbFault (Out × Jbuf) :=
  if jb.prefetching then .ok ({ frameType := .zeroPrefetch }, { jb with empty := jb.empty + 1 })
  else jb.take

/-- `pjmedia_jbuf_get_frame3`. -/
def getFrame (jb : Jbuf) : Except JbFault (Out × Jbuf) := do
  let (out, jb) ← jb.fetch
  let jb ← { jb with level := jb.level + 1 }.update .get
  return (out, jb)

/-! ### What holds of the buffer -/

/-- The settings of a buffer for frames of at most 200 milliseconds. -/
structure Settings (settings : JbSettings) : Prop where
  ptime_pos : 0 < settings.framePtime
  gap_pos : 0 < settings.minShrinkGap
  gap_le : settings.minShrinkGap ≤ 200
  maxCount_le : settings.jbMaxCount ≤ 2 ^ 28
  maxBurst_nonneg : 0 ≤ settings.maxBurst
  minPrefetch_le : settings.minPrefetch ≤ settings.jbMaxCount
  maxPrefetch_nonneg : 0 ≤ settings.maxPrefetch
  maxPrefetch_le : settings.maxPrefetch ≤ settings.jbMaxCount

/-- The levels are not negative, and no more frames are waited for than the buffer holds. -/
structure Levels (jb : Jbuf) : Prop where
  settings : Settings jb.toJbSettings
  level_nonneg : 0 ≤ jb.level
  maxHistLevel_nonneg : 0 ≤ jb.maxHistLevel
  effLevel_nonneg : 0 ≤ jb.effLevel
  effLevel_le : jb.effLevel ≤ (jb.jbMaxCount * 4 / 5 : ℕ)
  prefetch_nonneg : 0 ≤ jb.prefetch
  prefetch_le : jb.prefetch ≤ jb.jbMaxCount

/-- The frames are in order, and while a discard is scheduled the discarded ones are not after the
last one. -/
structure Frames (jb : Jbuf) : Prop where
  valid : jb.framelist.Valid
  maxCount : jb.framelist.maxCount = jb.jbMaxCount
  frameSize : jb.framelist.frameSize = jb.jbFrameSize
  discardDist_nonneg : 0 ≤ jb.discardDist
  marked : jb.discardDist ≠ 0 → ∀ index slot, jb.framelist.At index slot →
    slot.frameType = .discarded → index ≤ jb.discardRef
  unscheduled : jb.discardAlgo ≠ .progressive → jb.discardDist = 0

/-- The numbers of the frames and the counts are so far from the ends of an `int` that their sums,
their differences and their doubles are within it, too. -/
structure Ranges (jb : Jbuf) : Prop where
  origin_ge : -2 ^ 28 ≤ jb.framelist.origin
  end_le : jb.framelist.origin + jb.framelist.size ≤ 2 ^ 30
  discardRef_ge : -2 ^ 28 ≤ jb.discardRef
  discardRef_le : jb.discardRef ≤ 2 ^ 30
  discardDist_le : jb.discardDist ≤ 10000
  level_le : jb.level ≤ 2 ^ 29 + 2 ^ 28
  maxHistLevel_le : jb.maxHistLevel ≤ 2 ^ 29 + 2 ^ 28

variable {jb jb' : Jbuf} {oper : JbOp}

/-- The counts of a burst do not get higher. -/
structure Counts (jb jb' : Jbuf) : Prop where
  level_le : jb'.level ≤ max jb.level 0
  maxHistLevel_le : jb'.maxHistLevel ≤ max (max jb.maxHistLevel jb.level) 0

theorem Counts.of_eq (hlevel : jb'.level = jb.level) (hhist : jb'.maxHistLevel = jb.maxHistLevel) :
    jb.Counts jb' := by
  constructor
  · omega
  · omega

theorem Counts.trans {jb'' : Jbuf} (h : jb.Counts jb') (h' : jb'.Counts jb'') :
    jb.Counts jb'' := by
  obtain ⟨hlevel, hhist⟩ := h
  obtain ⟨hlevel', hhist'⟩ := h'
  constructor
  · omega
  · omega

/-- The numbers stay between those that there were. -/
structure Between (jb jb' : Jbuf) : Prop where
  origin_le : jb.framelist.origin ≤ jb'.framelist.origin
  end_le : jb'.framelist.origin + jb'.framelist.size ≤ jb.framelist.origin + jb.framelist.size
  discardRef_ge : min jb.discardRef jb.framelist.origin ≤ jb'.discardRef
  discardRef_le : jb'.discardRef ≤ max jb.discardRef (jb.framelist.origin + jb.framelist.size)
  discardDist_le : jb'.discardDist ≤ max jb.discardDist 10000
  counts : jb.Counts jb'

theorem Between.trans {jb'' : Jbuf} (h : jb.Between jb') (h' : jb'.Between jb'') :
    jb.Between jb'' := by
  obtain ⟨horigin, hend, hge, hle, hdist, hcounts⟩ := h
  obtain ⟨horigin', hend', hge', hle', hdist', hcounts'⟩ := h'
  refine ⟨?_, ?_, ?_, ?_, ?_, hcounts.trans hcounts'⟩
  all_goals omega

theorem Between.ranges (h : jb.Between jb') (hjb : jb.Ranges) : jb'.Ranges := by
  obtain ⟨horigin, hend, hge, hle, hdist, hlevel, hhist⟩ := h
  obtain ⟨horigin', hend', hge', hle', hdist', hlevel', hhist'⟩ := hjb
  refine ⟨?_, ?_, ?_, ?_, ?_, ?_, ?_⟩
  all_goals omega

/-! ### What a change of the level keeps -/

/-- The frames and the schedule of the discards are not changed. -/
structure SameFrames (jb jb' : Jbuf) : Prop where
  settings : jb'.toJbSettings = jb.toJbSettings
  framelist : jb'.framelist = jb.framelist
  discardRef : jb'.discardRef = jb.discardRef
  discardDist : jb'.discardDist = jb.discardDist

theorem SameFrames.refl (jb : Jbuf) : jb.SameFrames jb := ⟨rfl, rfl, rfl, rfl⟩

theorem SameFrames.trans {jb'' : Jbuf} (h : jb.SameFrames jb') (h' : jb'.SameFrames jb'') :
    jb.SameFrames jb'' :=
  ⟨h'.settings.trans h.settings, h'.framelist.trans h.framelist, h'.discardRef.trans h.discardRef,
    h'.discardDist.trans h.discardDist⟩

theorem SameFrames.frames (h : jb.SameFrames jb') (hjb : jb.Frames) : jb'.Frames where
  valid := h.framelist ▸ hjb.valid
  maxCount := by rw [h.framelist, h.settings, hjb.maxCount]
  frameSize := by rw [h.framelist, h.settings, hjb.frameSize]
  discardDist_nonneg := by
    rw [h.discardDist]
    exact hjb.discardDist_nonneg
  marked := by
    rw [h.framelist, h.discardDist, h.discardRef]
    exact hjb.marked
  unscheduled := by
    rw [h.settings, h.discardDist]
    exact hjb.unscheduled

theorem calculateJitter_same (jb : Jbuf) : jb.SameFrames jb.calculateJitter := by
  simp only [calculateJitter, lowerLevel, raiseLevel]
  split_ifs <;> exact ⟨rfl, rfl, rfl, rfl⟩

theorem SameFrames.between (h : jb.SameFrames jb') (hcounts : jb.Counts jb') : jb.Between jb' := by
  obtain ⟨-, hfl, href, hdist⟩ := h
  refine ⟨?_, ?_, ?_, ?_, ?_, hcounts⟩
  · rw [hfl]
  · rw [hfl]
  · rw [href]
    exact min_le_left _ _
  · rw [href]
    exact le_max_left _ _
  · rw [hdist]
    exact le_max_left _ _

theorem calculateJitter_counts (jb : Jbuf) : jb.Counts jb.calculateJitter := by
  simp only [calculateJitter, lowerLevel, raiseLevel]
  split_ifs
  all_goals constructor
  all_goals simp only
  all_goals omega

theorem switchOp_counts (jb : Jbuf) (oper : JbOp) : jb.Counts (jb.switchOp oper) := by
  unfold switchOp
  split_ifs
  · exact ⟨le_max_right _ _, (calculateJitter_counts jb).maxHistLevel_le⟩
  · refine ⟨le_max_right _ _, ?_⟩
    simp only
    omega

theorem startProcessing_counts (jb : Jbuf) (oper : JbOp) : jb.Counts (jb.startProcessing oper) := by
  simp only [startProcessing]
  split_ifs
  all_goals constructor
  all_goals simp only
  all_goals omega

theorem beginOp_counts (jb : Jbuf) (oper : JbOp) : jb.Counts (jb.beginOp oper) := by
  have hop : jb.Counts { jb with lastOp := oper } := .of_eq rfl rfl
  simp only [beginOp]
  split_ifs
  · exact hop
  · exact hop.trans (startProcessing_counts _ oper)

theorem switchOp_same (jb : Jbuf) (oper : JbOp) : jb.SameFrames (jb.switchOp oper) := by
  unfold switchOp
  split_ifs
  · exact (calculateJitter_same jb).trans ⟨rfl, rfl, rfl, rfl⟩
  · exact ⟨rfl, rfl, rfl, rfl⟩

theorem startProcessing_same (jb : Jbuf) (oper : JbOp) :
    jb.SameFrames (jb.startProcessing oper) := by
  simp only [startProcessing]
  split_ifs <;> exact ⟨rfl, rfl, rfl, rfl⟩

theorem beginOp_same (jb : Jbuf) (oper : JbOp) : jb.SameFrames (jb.beginOp oper) := by
  have hop : jb.SameFrames { jb with lastOp := oper } := ⟨rfl, rfl, rfl, rfl⟩
  simp only [beginOp]
  split_ifs
  · exact hop
  · exact hop.trans (startProcessing_same _ oper)

/-- The level goes down by a third of the difference, but at least by one, and not below zero. -/
theorem levelDiff_bounds (hpos : 0 < jb.effLevel) (hhist : 0 ≤ jb.maxHistLevel) :
    1 ≤ jb.levelDiff ∧ jb.levelDiff ≤ jb.effLevel := by
  simp only [levelDiff]
  split_ifs with hone
  · omega
  · rcases Int.le_total 0 (jb.effLevel - jb.maxHistLevel) with hle | hle
    · rw [Int.tdiv_eq_ediv_of_nonneg hle] at hone ⊢
      omega
    · have hneg := Int.neg_tdiv (jb.maxHistLevel - jb.effLevel) 3
      rw [neg_sub, Int.tdiv_eq_ediv_of_nonneg (show 0 ≤ jb.maxHistLevel - jb.effLevel by omega)]
        at hneg
      omega

theorem Levels.lowerLevel (h : jb.Levels) (hpos : 0 < jb.effLevel) : jb.lowerLevel.Levels := by
  obtain ⟨hlow, hlow'⟩ := levelDiff_bounds hpos h.maxHistLevel_nonneg
  have hmin := h.settings.minPrefetch_le
  have heff := h.effLevel_le
  have hpre := h.prefetch_nonneg
  have hpre' := h.prefetch_le
  have hprefetch : 0 ≤ jb.loweredPrefetch (jb.effLevel - jb.levelDiff) ∧
      jb.loweredPrefetch (jb.effLevel - jb.levelDiff) ≤ jb.jbMaxCount := by
    rw [loweredPrefetch]
    split_ifs <;> omega
  rw [Jbuf.lowerLevel]
  simp only
  split_ifs with hstable
  · refine ⟨h.settings, h.level_nonneg, le_rfl, ?_, ?_, hprefetch.1, hprefetch.2⟩
    · change 0 ≤ jb.effLevel - jb.levelDiff
      omega
    · change jb.effLevel - jb.levelDiff ≤ (jb.jbMaxCount * 4 / 5 : ℕ)
      omega
  · exact ⟨h.settings, h.level_nonneg, h.maxHistLevel_nonneg, h.effLevel_nonneg, heff, hpre, hpre'⟩

theorem Levels.raiseLevel (h : jb.Levels) : jb.raiseLevel.Levels := by
  have hhist := h.maxHistLevel_nonneg
  have hmax := h.settings.maxPrefetch_nonneg
  have hmax' := h.settings.maxPrefetch_le
  have hpre := h.prefetch_nonneg
  have hpre' := h.prefetch_le
  have heff : 0 ≤ min jb.maxHistLevel (jb.jbMaxCount * 4 / 5 : ℕ) := by omega
  have hprefetch : ∀ e : ℤ, 0 ≤ e → e ≤ (jb.jbMaxCount * 4 / 5 : ℕ) →
      0 ≤ jb.raisedPrefetch e ∧ jb.raisedPrefetch e ≤ jb.jbMaxCount := by
    intro e hle hle'
    rw [raisedPrefetch]
    split_ifs <;> omega
  obtain ⟨hlow, hhigh⟩ := hprefetch _ heff (min_le_right _ _)
  exact ⟨h.settings, h.level_nonneg, hhist, heff, min_le_right _ _, hlow, hhigh⟩

theorem Levels.calculateJitter (h : jb.Levels) : jb.calculateJitter.Levels := by
  have hhist : Levels { jb with maxHistLevel := max jb.maxHistLevel jb.level } :=
    ⟨h.settings, h.level_nonneg, le_max_of_le_left h.maxHistLevel_nonneg, h.effLevel_nonneg,
      h.effLevel_le, h.prefetch_nonneg, h.prefetch_le⟩
  have hlevel := h.level_nonneg
  simp only [Jbuf.calculateJitter]
  split_ifs with hlow hhigh
  · exact hhist.lowerLevel (show 0 < jb.effLevel by omega)
  · exact hhist.raiseLevel
  · exact ⟨h.settings, h.level_nonneg, hhist.maxHistLevel_nonneg, h.effLevel_nonneg, h.effLevel_le,
      h.prefetch_nonneg, h.prefetch_le⟩

/-- The rest does not depend on the level that is counted now. -/
theorem Levels.withLevel (h : jb.Levels) (hsettings : jb'.toJbSettings = jb.toJbSettings)
    (hhist : jb'.maxHistLevel = jb.maxHistLevel) (heff : jb'.effLevel = jb.effLevel)
    (hprefetch : jb'.prefetch = jb.prefetch) (hlevel : 0 ≤ jb'.level) : jb'.Levels where
  settings := hsettings ▸ h.settings
  level_nonneg := hlevel
  maxHistLevel_nonneg := hhist ▸ h.maxHistLevel_nonneg
  effLevel_nonneg := heff ▸ h.effLevel_nonneg
  effLevel_le := by rw [heff, hsettings]; exact h.effLevel_le
  prefetch_nonneg := hprefetch ▸ h.prefetch_nonneg
  prefetch_le := by rw [hprefetch, hsettings]; exact h.prefetch_le

theorem Levels.switchOp (h : jb.Levels) (oper : JbOp) : (jb.switchOp oper).Levels := by
  unfold Jbuf.switchOp
  split_ifs
  · exact h.calculateJitter.withLevel rfl rfl rfl rfl le_rfl
  · exact h.withLevel rfl rfl rfl rfl le_rfl

theorem Levels.startProcessing (h : jb.Levels) (oper : JbOp) :
    (jb.startProcessing oper).Levels := by
  have hburst := h.settings.maxBurst_nonneg
  simp only [Jbuf.startProcessing]
  split_ifs
  · exact h.withLevel rfl rfl rfl rfl (le_min h.level_nonneg hburst)
  · exact h.withLevel rfl rfl rfl rfl le_rfl

theorem Levels.beginOp (h : jb.Levels) (oper : JbOp) : (jb.beginOp oper).Levels := by
  have hop : Levels { jb with lastOp := oper } := h.withLevel rfl rfl rfl rfl h.level_nonneg
  simp only [Jbuf.beginOp]
  split_ifs
  · exact hop
  · exact hop.startProcessing oper

/-! ### What a step does -/

/-- An operation kept the buffer in order, and went on with the frames. -/
structure Steps (jb jb' : Jbuf) : Prop where
  levels : jb'.Levels
  frames : jb'.Frames
  settings : jb'.toJbSettings = jb.toJbSettings
  passes : jb.framelist.Passes jb'.framelist
  between : jb.Between jb'

theorem Steps.trans {jb'' : Jbuf} (h : jb.Steps jb') (h' : jb'.Steps jb'') : jb.Steps jb'' :=
  ⟨h'.levels, h'.frames, h'.settings.trans h.settings, h.passes.trans h'.passes,
    h.between.trans h'.between⟩

theorem SameFrames.steps (h : jb.SameFrames jb') (hjb : jb.Frames) (hlevels : jb'.Levels)
    (hcounts : jb.Counts jb') : jb.Steps jb' :=
  ⟨hlevels, h.frames hjb, h.settings, h.framelist ▸ .refl _, h.between hcounts⟩

theorem Steps.refl (h : jb.Levels) (hf : jb.Frames) : jb.Steps jb :=
  (SameFrames.refl jb).steps hf h (.of_eq rfl rfl)

/-- Where the frames go on, the discarded ones are still not after the last one. -/
theorem Frames.advance {fl : JbFramelist} (h : jb.Frames) (hadv : jb.framelist.Advances fl)
    (hsettings : jb'.toJbSettings = jb.toJbSettings) (hfl : jb'.framelist = fl)
    (href : jb'.discardRef = jb.discardRef) (hdist : jb'.discardDist = jb.discardDist) :
    jb'.Frames where
  valid := hfl ▸ hadv.valid
  maxCount := by rw [hfl, hadv.maxCount, hsettings, h.maxCount]
  frameSize := by rw [hfl, hadv.frameSize, hsettings, h.frameSize]
  discardDist_nonneg := hdist ▸ h.discardDist_nonneg
  marked hne index slot hat hd := by
    rw [hfl] at hat
    rw [href]
    exact h.marked (hdist ▸ hne) index slot (hadv.slot index slot hat) hd
  unscheduled := by
    rw [hsettings, hdist]
    exact h.unscheduled

/-- Without a schedule nothing is said about the discarded ones. -/
theorem Frames.unscheduled_advance {fl : JbFramelist} (h : jb.Frames)
    (hadv : jb.framelist.Advances fl) (hsettings : jb'.toJbSettings = jb.toJbSettings)
    (hfl : jb'.framelist = fl) (hdist : jb'.discardDist = 0) : jb'.Frames where
  valid := hfl ▸ hadv.valid
  maxCount := by rw [hfl, hadv.maxCount, hsettings, h.maxCount]
  frameSize := by rw [hfl, hadv.frameSize, hsettings, h.frameSize]
  discardDist_nonneg := hdist.ge
  marked hne := absurd hdist hne
  unscheduled _ := hdist

theorem discardStatic_rule (h : jb.Levels) (hf : jb.Frames) (hdist : jb.discardDist = 0) :
    ∃ jb', jb.discardStatic = .ok jb' ∧ jb.Steps jb' := by
  have hgo : ∀ {fl ref removed}, jb.framelist.Advances fl →
      fl.origin + fl.size ≤ jb.framelist.origin + jb.framelist.size →
      min jb.discardRef jb.framelist.origin ≤ ref →
      ref ≤ max jb.discardRef (jb.framelist.origin + jb.framelist.size) →
      jb.Steps { jb with framelist := fl, discardRef := ref, discard := removed } :=
    fun hadv hend hge hle => ⟨h.withLevel rfl rfl rfl rfl h.level_nonneg,
      hf.unscheduled_advance hadv rfl rfl hdist, rfl, hadv.passes,
      hadv.origin_le, hend, hge, hle, le_max_left _ _, .of_eq rfl rfl⟩
  have href : min jb.discardRef jb.framelist.origin ≤ jb.removalRef ∧
      jb.removalRef ≤ jb.discardRef := by
    unfold removalRef
    split_ifs <;> omega
  rw [discardStatic]
  simp only
  split_ifs
  · obtain ⟨fl, hremove, hdrops⟩ := JbFramelist.removeHead_rule hf.valid 1
    have horigin := hdrops.origin
    have hsize := hdrops.size
    refine ⟨{ jb with
      framelist := fl
      discardRef := fl.origin
      discard := jb.discard + min 1 jb.framelist.size }, ?_,
      hgo (hdrops.advances (min_le_right _ _)) (by omega) (by omega) (by omega)⟩
    rw [hremove]
    rfl
  · exact ⟨_, rfl, hgo (.refl hf.valid) le_rfl href.1 (by omega)⟩
  · exact ⟨_, rfl, .refl h hf⟩

/-- The last frame that was discarded is still the last one when the schedule is renewed. -/
theorem Frames.scheduleRef {index : ℤ} {slot : JbSlot} (hf : jb.Frames)
    (hat : jb.framelist.At index slot) (hd : slot.frameType = .discarded) :
    index ≤ jb.scheduleRef (jb.framelist.origin + jb.framelist.size - 1) := by
  have hbounds := hat.bounds
  rw [Jbuf.scheduleRef]
  split_ifs with hdist hlast
  · omega
  · omega
  · exact hf.marked hdist index slot hat hd

theorem discardNow_rule (h : jb.Levels) (hf : jb.Frames) (halgo : jb.discardAlgo = .progressive)
    (hdist : 0 < jb.discardDist) (hsize : 0 < jb.framelist.size) :
    ∃ jb', jb.discardNow (jb.framelist.origin + jb.framelist.size - 1) = .ok jb' ∧
      jb.Steps jb' := by
  rw [discardNow]
  split_ifs with hnow
  · obtain ⟨seq, hseq⟩ : ∃ seq, seq = max (jb.discardRef + jb.discardDist) jb.framelist.origin :=
      ⟨_, rfl⟩
    obtain ⟨slot, hat⟩ := jb.framelist.exists_at (show _ ≤ seq by omega) (by omega)
    have hd : slot.frameType ≠ .discarded := fun hd => by
      have := hf.marked hdist.ne' seq slot hat hd
      omega
    obtain ⟨k, hslot, hk⟩ := hat
    obtain ⟨fl, hdiscard, hdiscards⟩ := JbFramelist.discard_rule hf.valid hslot hk hd
    refine ⟨{ jb with framelist := fl, discardRef := seq }, ?_,
      h.withLevel rfl rfl rfl rfl h.level_nonneg, ⟨hdiscards.valid,
        hdiscards.maxCount.trans hf.maxCount, hdiscards.frameSize.trans hf.frameSize, hdist.le,
        fun _ index slot' hat hd' => ?_, fun hne => absurd halgo hne⟩, rfl, hdiscards.passes hslot,
        ?_⟩
    · simp only [← hseq]
      rw [hdiscard]
      rfl
    · change index ≤ seq
      rcases hdiscards.at_cases hslot hat with ⟨hindex, -⟩ | hat
      · omega
      · have := hf.marked hdist.ne' index slot' hat hd'
        omega
    · have horigin := hdiscards.origin
      have hsize' := hdiscards.size
      refine ⟨?_, ?_, ?_, ?_, le_max_left _ _, .of_eq rfl rfl⟩
      all_goals simp only
      all_goals omega
  · exact ⟨jb, rfl, .refl h hf⟩

/-- Frames are discarded at the latest after ten thousand others. -/
theorem discardDist_le (burstLevel overflow ptime : ℕ) :
    discardTime burstLevel / overflow / ptime ≤ 10000 := by
  have htime : discardTime burstLevel ≤ 10000 := by
    unfold discardTime
    split_ifs <;> omega
  exact (Nat.div_le_self _ _).trans ((Nat.div_le_self _ _).trans htime)

theorem discardProgressive_rule (h : jb.Levels) (hf : jb.Frames)
    (halgo : jb.discardAlgo = .progressive) :
    ∃ jb', jb.discardProgressive = .ok jb' ∧ jb.Steps jb' := by
  have hptime := h.settings.ptime_pos
  have hgap := h.settings.gap_pos
  have heff : jb.framelist.effSize ≤ jb.framelist.size := Nat.sub_le _ _
  rw [discardProgressive]
  simp only
  split_ifs with hop hsize hzero
  · exact ⟨jb, rfl, .refl h hf⟩
  · refine ⟨_, rfl, h.withLevel rfl rfl rfl rfl h.level_nonneg,
      hf.unscheduled_advance (.refl hf.valid) rfl rfl rfl, rfl, .refl _, le_rfl, le_rfl,
      min_le_left _ _, le_max_left _ _, ?_, .of_eq rfl rfl⟩
    simp only
    omega
  · omega
  · obtain ⟨lastSeq, hlast⟩ :
        ∃ seq, seq = jb.framelist.origin + jb.framelist.size - 1 := ⟨_, rfl⟩
    obtain ⟨dist, hdist⟩ : ∃ dist, dist = max jb.minShrinkGap
        (discardTime (max jb.effLevel jb.level).toNat /
          (jb.framelist.effSize - (max jb.effLevel jb.level).toNat) / jb.framePtime : ℕ) := ⟨_, rfl⟩
    have hpos : 0 < dist := by omega
    -- the schedule before the step may begin anew
    have hscheduled :
        Frames { jb with discardRef := jb.scheduleRef lastSeq, discardDist := dist } :=
      ⟨hf.valid, hf.maxCount, hf.frameSize, hpos.le,
        fun _ index slot hat hd => hlast ▸ hf.scheduleRef hat hd, fun hne => absurd halgo hne⟩
    have hlevels : Levels { jb with discardRef := jb.scheduleRef lastSeq, discardDist := dist } :=
      h.withLevel rfl rfl rfl rfl h.level_nonneg
    obtain ⟨jb', hnow, hsteps⟩ :=
      discardNow_rule hlevels hscheduled halgo hpos (show 0 < jb.framelist.size by omega)
    have hschedule : jb.Between
        { jb with discardRef := jb.scheduleRef lastSeq, discardDist := dist } := by
      have hgap' := h.settings.gap_le
      have htime := discardDist_le (max jb.effLevel jb.level).toNat
        (jb.framelist.effSize - (max jb.effLevel jb.level).toNat) jb.framePtime
      have href : jb.scheduleRef lastSeq = lastSeq ∨ jb.scheduleRef lastSeq = jb.discardRef := by
        unfold Jbuf.scheduleRef
        split_ifs <;> simp
      refine ⟨le_rfl, le_rfl, ?_, ?_, ?_, .of_eq rfl rfl⟩
      all_goals simp only
      all_goals omega
    rw [← hdist, ← hlast]
    simp only [← hlast] at hnow
    exact ⟨jb', hnow, hsteps.levels, hsteps.frames, hsteps.settings, hsteps.passes,
      hschedule.trans hsteps.between⟩

theorem runDiscard_rule (h : jb.Levels) (hf : jb.Frames) :
    ∃ jb', jb.runDiscard = .ok jb' ∧ jb.Steps jb' := by
  unfold runDiscard
  cases halgo : jb.discardAlgo with
  | none => exact ⟨jb, rfl, .refl h hf⟩
  | static => exact discardStatic_rule h hf (hf.unscheduled (by simp [halgo]))
  | progressive => exact discardProgressive_rule h hf halgo

theorem update_rule (h : jb.Levels) (hf : jb.Frames) (oper : JbOp) :
    ∃ jb', jb.update oper = .ok jb' ∧ jb.Steps jb' := by
  have hbegin := beginOp_same jb oper
  have hlevels := h.beginOp oper
  rw [update]
  simp only
  split_ifs with hswitch hphase hphase
  · have hsame := hbegin.trans (switchOp_same _ oper)
    have hsteps := hsame.steps hf (hlevels.switchOp oper)
      ((beginOp_counts jb oper).trans (switchOp_counts _ oper))
    obtain ⟨jb', hrun, hsteps'⟩ := runDiscard_rule hsteps.levels hsteps.frames
    exact ⟨jb', hrun, hsteps.trans hsteps'⟩
  · exact ⟨_, rfl, hbegin.steps hf hlevels (beginOp_counts jb oper)⟩
  · exact runDiscard_rule h hf
  · exact ⟨jb, rfl, .refl h hf⟩

/-! ### Putting -/

/-- The frame is late, or its slot is taken. -/
def Refuses (jb : Jbuf) (seq : ℤ) : Prop := jb.framelist.Late seq ∨ jb.framelist.Taken seq

/-- The frame as far as a slot of the buffer holds it. -/
def cut (jb : Jbuf) (frame : List UInt8) (bitInfo ts : ℕ) : JbFrame :=
  ⟨frame.take (min frame.length jb.jbFrameSize), bitInfo, ts⟩

section Put

variable {frame : List UInt8} {bitInfo ts : ℕ} {seq : ℤ}

theorem makeRoomBody_exit {status : JbStatus} (hstatus : status ≠ .etoomany) (jb : Jbuf)
    (frameSize : ℕ) : makeRoomBody frame frameSize bitInfo ts seq (status, jb) =
      .ok (.exit (status, jb)) := by
  simp [makeRoomBody, hstatus, pure, Except.pure]

theorem place_of_putAt {status : JbStatus} {fl : JbFramelist} {frameSize : ℕ}
    (hstatus : status ≠ .etoomany)
    (hput : jb.framelist.putAt seq frame frameSize bitInfo ts .normal = .ok (status, fl)) :
    jb.place frame frameSize bitInfo ts seq = .ok (status, { jb with framelist := fl }) := by
  simp only [place, hput, bind, Except.bind]
  exact loop_exit (makeRoomBody_exit hstatus _ _) _

theorem place_refused (hf : jb.Frames) (h : jb.Refuses seq) (frame : List UInt8)
    (bitInfo ts : ℕ) :
    ∃ status, status ≠ .success ∧
      jb.place frame (min frame.length jb.jbFrameSize) bitInfo ts seq = .ok (status, jb) := by
  have hlen : min frame.length jb.jbFrameSize ≤ jb.framelist.frameSize :=
    hf.frameSize ▸ min_le_right _ _
  by_cases hlate : jb.framelist.Late seq
  · refine ⟨.etoosmall, by decide, ?_⟩
    exact place_of_putAt (by decide) (JbFramelist.putAt_late hlen hlate _ _ _)
  · refine ⟨.eexists, by decide, ?_⟩
    rcases JbFramelist.putAt_rule hf.valid (min_le_left _ _) hlen bitInfo ts hlate with
      ⟨-, hput⟩ | ⟨hfree, -⟩
    · exact place_of_putAt (by decide) hput
    · exact absurd (h.resolve_left hlate) hfree

/-- Where the ring is too short as few slots as needed are removed, once. -/
theorem makeRoom (jb : Jbuf) {fl : JbFramelist} (h : fl.Valid) (hmax : fl.maxCount = jb.jbMaxCount)
    (hsize : fl.frameSize = jb.jbFrameSize) (hfl : jb.framelist = fl)
    (hfar : fl.origin + fl.maxCount ≤ seq) :
    ∃ fl' discard,
      makeRoomBody frame (min frame.length jb.jbFrameSize) bitInfo ts seq (.etoomany, jb) =
        .ok (.next (.success, { jb with framelist := fl', discard := discard })) ∧
      fl.Puts seq (jb.cut frame bitInfo ts) fl' := by
  have hpos := h.maxCount_pos
  obtain ⟨d, hd⟩ : ∃ d : ℕ, seq - fl.origin - jb.jbMaxCount + 1 = d :=
    ⟨(seq - fl.origin - jb.jbMaxCount + 1).toNat, by omega⟩
  obtain ⟨fl₂, hremove, hdrops⟩ := JbFramelist.removeHead_rule h d
  have horigin := hdrops.origin
  have hsize₂ := hdrops.size
  have hle := h.size_le
  have hlate : ¬fl₂.Late seq := fun hlate => by
    have := hlate.1
    omega
  have hlen : min frame.length jb.jbFrameSize ≤ fl₂.frameSize :=
    hdrops.frameSize ▸ hsize ▸ min_le_right _ _
  rcases JbFramelist.putAt_rule hdrops.valid (min_le_left frame.length jb.jbFrameSize) hlen bitInfo
    ts hlate with ⟨⟨slot, hat, -⟩, -⟩ | ⟨-, ⟨fl', hput, hputs⟩ | ⟨-, hfar₂, hne⟩⟩
  · have := hat.bounds
    omega
  · rw [JbFramelist.restart_of_le (by omega)] at hputs
    obtain ⟨fl₃, slot, hadv, hend, hstores⟩ := hputs
    refine ⟨fl', jb.discard + min d fl.size, ?_, fl₃, slot,
      (hdrops.advances (min_le_right _ _)).trans hadv, by omega, hstores⟩
    simp only [makeRoomBody, if_true, hfl, hd, if_pos (show (d : ℤ) > 0 by omega),
      Int.toNat_natCast, hremove, bind, Except.bind, hput]
    rfl
  · rw [JbFramelist.restart_of_le (by omega), hdrops.maxCount] at hfar₂
    omega

theorem place_accepted (hf : jb.Frames) (h : ¬jb.Refuses seq) (frame : List UInt8)
    (bitInfo ts : ℕ) : ∃ fl' discard,
    jb.place frame (min frame.length jb.jbFrameSize) bitInfo ts seq =
      .ok (.success, { jb with framelist := fl', discard := discard }) ∧
    (jb.framelist.restart seq).Puts seq (jb.cut frame bitInfo ts) fl' := by
  obtain ⟨hlate, htaken⟩ := not_or.mp h
  have hlen : min frame.length jb.jbFrameSize ≤ jb.framelist.frameSize :=
    hf.frameSize ▸ min_le_right _ _
  rcases JbFramelist.putAt_rule hf.valid (min_le_left _ _) hlen bitInfo ts hlate with
    ⟨htaken', -⟩ | ⟨-, ⟨fl', hput, hputs⟩ | ⟨hput, hfar, -⟩⟩
  · exact absurd htaken' htaken
  · exact ⟨fl', jb.discard, place_of_putAt (by decide) hput, hputs⟩
  · obtain ⟨fl', discard, hbody, hputs⟩ :=
      makeRoom { jb with framelist := jb.framelist.restart seq }
        (JbFramelist.restart_valid hf.valid seq)
        ((JbFramelist.restart_maxCount _ _).trans hf.maxCount)
        ((JbFramelist.restart_frameSize _ _).trans hf.frameSize) rfl (by simpa using hfar)
    refine ⟨fl', discard, ?_, hputs⟩
    simp only [place, hput, bind, Except.bind]
    exact (loop_next hbody _).trans (loop_exit (makeRoomBody_exit (by decide) _ _) _)

/-- The new slot is not a discarded one, and the others may have got lower numbers. -/
theorem Frames.puts {fl' : JbFramelist} {f : JbFrame} (hf : jb.Frames) (discard : ℕ)
    (hputs : (jb.framelist.restart seq).Puts seq f fl') :
    Frames { jb with framelist := fl', discard := discard } := by
  obtain ⟨fl₂, slot, hadv, -, hstores, hnormal, -⟩ := hputs
  refine ⟨hstores.valid, ?_, ?_, hf.discardDist_nonneg, fun hdist i slot' hat hd => ?_,
    hf.unscheduled⟩
  · simp only [hstores.maxCount, hadv.maxCount, JbFramelist.restart_maxCount, hf.maxCount]
  · simp only [hstores.frameSize, hadv.frameSize, JbFramelist.restart_frameSize, hf.frameSize]
  · rcases hstores.slot i slot' hat with ⟨-, rfl⟩ | ⟨-, hat | ⟨hmissing, -⟩⟩
    · rw [hnormal] at hd
      cases hd
    · have hold := JbFramelist.at_restart.mp (hadv.slot i slot' hat)
      have := hf.marked hdist _ slot' hold hd
      have := jb.framelist.goesBack_nonneg seq
      change i ≤ jb.discardRef
      omega
    · rw [hmissing] at hd
      cases hd

theorem putFrame_refused (hf : jb.Frames) (h : jb.Refuses seq) :
    jb.putFrame frame bitInfo seq ts = .ok (true, { jb with discard := jb.discard + 1 }) := by
  obtain ⟨status, hstatus, hplace⟩ := place_refused hf h frame bitInfo ts
  simp only [putFrame, hplace, bind, Except.bind, if_neg hstatus]
  rfl

theorem Levels.afterPut (h : jb.Levels) (curSize : ℕ) : (jb.afterPut curSize).Levels := by
  refine h.withLevel rfl rfl rfl rfl ?_
  have := h.level_nonneg
  simp only [Jbuf.afterPut]
  split_ifs <;> omega

theorem afterPut_same (jb : Jbuf) (curSize : ℕ) : jb.SameFrames (jb.afterPut curSize) :=
  ⟨rfl, rfl, rfl, rfl⟩

/-- A frame with a number of a stream keeps the numbers in their range. -/
theorem Ranges.afterPut {fl' : JbFramelist} {f : JbFrame} {d : ℕ} (h : jb.Levels)
    (hjb : jb.Ranges) (hf : Frames { jb with framelist := fl', discard := d })
    (hputs : (jb.framelist.restart seq).Puts seq f fl') (hsize : jb.framelist.size ≤ jb.jbMaxCount)
    (hseq : 0 ≤ seq ∧ seq < 2 ^ 30) (hlevel : jb.level < 2 ^ 29) (curSize : ℕ) :
    Ranges (Jbuf.afterPut { jb with framelist := fl', discard := d } curSize) := by
  have horigin := hputs.origin_le
  have hend := hputs.end_le
  have hmax := h.settings.maxCount_le
  have hcount : fl'.effSize ≤ jb.jbMaxCount :=
    (Nat.sub_le _ _).trans (hf.maxCount ▸ hf.valid.size_le)
  obtain ⟨horigin', hend', hge, hle, hdist, -, hhist⟩ := hjb
  have hrestart : (jb.framelist.restart seq).origin + (jb.framelist.restart seq).size ≤ 2 ^ 30 ∧
      -2 ^ 28 ≤ (jb.framelist.restart seq).origin := by
    rw [JbFramelist.restart_size]
    unfold JbFramelist.restart
    split_ifs
    · simp only
      omega
    · omega
  refine ⟨?_, ?_, hge, hle, hdist, ?_, hhist⟩
  · change -2 ^ 28 ≤ fl'.origin
    omega
  · change fl'.origin + fl'.size ≤ 2 ^ 30
    omega
  · change jb.level + (if fl'.effSize > curSize then (fl'.effSize : ℤ) - curSize else 1) ≤ _
    split_ifs <;> omega

/-- A frame that is not refused is put into its slot, and then frames may be discarded. -/
theorem putFrame_accepted (h : jb.Levels) (hf : jb.Frames) (hrefuses : ¬jb.Refuses seq)
    (frame : List UInt8) (bitInfo ts : ℕ) : ∃ jb' fl',
      jb.putFrame frame bitInfo seq ts = .ok (false, jb') ∧ jb'.Levels ∧ jb'.Frames ∧
      jb'.toJbSettings = jb.toJbSettings ∧
      (jb.framelist.restart seq).Puts seq (jb.cut frame bitInfo ts) fl' ∧
      fl'.Passes jb'.framelist ∧
      (jb.Ranges → 0 ≤ seq ∧ seq < 2 ^ 30 → jb.level < 2 ^ 29 → jb'.Ranges) := by
  obtain ⟨fl', discard, hplace, hputs⟩ := place_accepted hf hrefuses frame bitInfo ts
  have hlevels : Levels { jb with framelist := fl', discard := discard } :=
    h.withLevel rfl rfl rfl rfl h.level_nonneg
  have hafter := (afterPut_same _ jb.framelist.effSize).frames (hf.puts discard hputs)
  obtain ⟨jb', hupdate, hsteps⟩ :=
    update_rule (hlevels.afterPut jb.framelist.effSize) hafter .put
  have hranges : jb.Ranges → 0 ≤ seq ∧ seq < 2 ^ 30 → jb.level < 2 ^ 29 → jb'.Ranges := by
    intro hjb hseq hlevel
    have hsize := hf.maxCount ▸ hf.valid.size_le
    exact hsteps.between.ranges
      (hjb.afterPut h (hf.puts discard hputs) hputs hsize hseq hlevel _)
  refine ⟨jb', fl', ?_, hsteps.levels, hsteps.frames, hsteps.settings, hputs, hsteps.passes,
    hranges⟩
  simp only [putFrame, hplace, bind, Except.bind, if_true, hupdate]
  rfl

end Put

/-! ### Getting -/

/-- The frame that is played, if there is one. -/
def Out.played (out : Out) : Option JbFrame :=
  if out.frameType = .normal then
    out.frame.map fun frame => ⟨frame.take out.size, out.bitInfo.getD 0, out.ts.getD 0⟩
  else none

/-- What a get plays stood at the head of the buffer, which goes on. -/
def Plays (jb : Jbuf) (out : Out) (jb' : Jbuf) : Prop :=
  ∀ frame, out.played = some frame → jb.framelist.origin < jb'.framelist.origin ∧
    out.seq = some jb.framelist.origin ∧ ∃ slot, jb.framelist.At jb.framelist.origin slot ∧
      slot.frameType = .normal ∧ slot.frame = frame

theorem got_normal {slot : JbSlot} {seq : ℤ} {prevDiscarded : Bool}
    (h : (JbFramelist.got slot seq prevDiscarded).frameType = .normal) :
    prevDiscarded = false ∧ slot.frameType = .normal := by
  unfold JbFramelist.got at h
  split_ifs at h with hd
  exact ⟨by simpa using hd, h⟩

theorem take_rule (h : jb.Levels) (hf : jb.Frames) :
    ∃ out jb', jb.take = .ok (out, jb') ∧ jb.Steps jb' ∧ jb'.level = jb.level ∧
      jb.Plays out jb' := by
  have hsteps : ∀ fl n prefetching lost empty, jb.framelist.Drops n fl → n ≤ jb.framelist.size →
      jb.Steps { jb with
        framelist := fl, prefetching := prefetching, lost := lost, empty := empty } := by
    intro fl n prefetching lost empty hdrops hn
    have hadv := hdrops.advances hn
    have horigin := hdrops.origin
    have hsize := hdrops.size
    refine ⟨h.withLevel rfl rfl rfl rfl h.level_nonneg, hf.advance hadv rfl rfl rfl rfl, rfl,
      hadv.passes, hadv.origin_le, ?_, min_le_left _ _, le_max_left _ _, le_max_left _ _,
      .of_eq rfl rfl⟩
    simp only
    omega
  rcases Nat.lt_or_ge jb.framelist.skipped jb.framelist.size with hlt | hge
  · obtain ⟨slot, hslot⟩ : ∃ slot, jb.framelist.window[jb.framelist.skipped]? = some slot :=
      ⟨_, JbFramelist.getElem?_window hlt⟩
    obtain ⟨-, fl, hdrops, hget⟩ := JbFramelist.get_some hf.valid hslot
    obtain ⟨got, hgot⟩ : ∃ got, got = JbFramelist.got slot
      (jb.framelist.origin + jb.framelist.skipped) (decide (0 < jb.framelist.skipped)) := ⟨_, rfl⟩
    rw [← hgot] at hget
    by_cases hnormal : got.frameType = .normal
    · have hplayed := hsteps fl _ jb.prefetching jb.lost jb.empty hdrops hlt
      obtain ⟨hskip, hslot'⟩ := got_normal (hgot ▸ hnormal)
      have hzero : jb.framelist.skipped = 0 := by simpa using hskip
      rw [hzero, Nat.cast_zero, add_zero] at hgot
      rw [hzero] at hslot hdrops
      refine ⟨outOf .normal got, _, ?_, hplayed, rfl, fun frame hframe => ?_⟩
      · simp only [take, hget, bind, Except.bind, if_pos hnormal]
        rfl
      · have horigin := hdrops.origin
        have hseq : (outOf .normal got).seq = some jb.framelist.origin := by
          simp [outOf, hgot, JbFramelist.got]
        refine ⟨by simp only; omega, hseq, slot, ⟨0, hslot, by simp⟩, hslot', ?_⟩
        simpa [Out.played, outOf, hgot, JbFramelist.got, JbSlot.frame] using hframe
    · refine ⟨outOf .missing got, _, ?_,
        hsteps fl _ jb.prefetching (jb.lost + 1) jb.empty hdrops hlt, rfl, fun frame hframe => ?_⟩
      · simp only [take, hget, bind, Except.bind, if_neg hnormal]
        rfl
      · simp [Out.played, outOf] at hframe
  · obtain ⟨fl, hget, hdrops⟩ := JbFramelist.get_none hf.valid (JbFramelist.skipped_le.antisymm hge)
    refine ⟨{ frameType := .zeroEmpty, frame := some (List.replicate fl.frameSize 0) }, _, ?_,
      hsteps fl _ (if jb.prefetch ≠ 0 then true else jb.prefetching) jb.lost (jb.empty + 1) hdrops
        le_rfl, rfl, fun frame hframe => ?_⟩
    · simp only [take, hget, bind, Except.bind]
      rfl
    · simp [Out.played] at hframe

theorem fetch_rule (h : jb.Levels) (hf : jb.Frames) :
    ∃ out jb', jb.fetch = .ok (out, jb') ∧ jb.Steps jb' ∧ jb'.level = jb.level ∧
      jb.Plays out jb' := by
  rw [fetch]
  split_ifs
  · exact ⟨{ frameType := .zeroPrefetch }, _, rfl,
      SameFrames.steps ⟨rfl, rfl, rfl, rfl⟩ hf (h.withLevel rfl rfl rfl rfl h.level_nonneg)
        (.of_eq rfl rfl), rfl, fun frame hframe => by simp [Out.played] at hframe⟩
  · exact take_rule h hf

theorem getFrame_rule (h : jb.Levels) (hf : jb.Frames) :
    ∃ out jb', jb.getFrame = .ok (out, jb') ∧ jb'.Levels ∧ jb'.Frames ∧
      jb.framelist.Passes jb'.framelist ∧ jb.Plays out jb' ∧
      (jb.Ranges → jb.level < 2 ^ 29 → jb'.Ranges) := by
  obtain ⟨out, jb₁, hfetch, hsteps, hsame, hplays⟩ := fetch_rule h hf
  have hlevel := hsteps.levels.level_nonneg
  have hcount : jb₁.SameFrames { jb₁ with level := jb₁.level + 1 } := ⟨rfl, rfl, rfl, rfl⟩
  have hlevels : Levels { jb₁ with level := jb₁.level + 1 } :=
    hsteps.levels.withLevel rfl rfl rfl rfl (show 0 ≤ jb₁.level + 1 by omega)
  obtain ⟨jb', hupdate, hsteps'⟩ := update_rule hlevels (hcount.frames hsteps.frames) .get
  refine ⟨out, jb', ?_, hsteps'.levels, hsteps'.frames, hsteps.passes.trans hsteps'.passes,
    fun frame hframe => ?_, fun hjb hlow => ?_⟩
  · simp only [getFrame, hfetch, bind, Except.bind, hupdate]
    rfl
  · obtain ⟨horigin, hrest⟩ := hplays frame hframe
    exact ⟨horigin.trans_le hsteps'.passes.origin_le, hrest⟩
  · obtain ⟨horigin, hend, hge, hle, hdist, -, hhist⟩ := hsteps.between.ranges hjb
    refine hsteps'.between.ranges ⟨horigin, hend, hge, hle, hdist, ?_, hhist⟩
    simp only
    omega

/-! ### Creating and resetting -/

theorem reset_rule (h : jb.Levels) (hf : jb.Frames) :
    jb.reset.Levels ∧ jb.reset.Frames ∧ (jb.Ranges → jb.reset.Ranges) := by
  refine ⟨⟨h.settings, le_rfl, le_rfl, h.effLevel_nonneg, h.effLevel_le, h.prefetch_nonneg,
    h.prefetch_le⟩, ⟨JbFramelist.Valid.reset hf.valid.maxCount_pos, hf.maxCount, hf.frameSize,
    le_rfl, fun hne => absurd rfl hne, fun _ => rfl⟩, fun hjb => ⟨?_, ?_, hjb.discardRef_ge,
    hjb.discardRef_le, ?_, ?_, ?_⟩⟩
  all_goals simp only [reset, JbFramelist.reset, JbFramelist.invalidOffset]
  all_goals omega

theorem create_rule {ptime maxCount : ℕ} (hptime : 0 < ptime) (hgap : ptime ≤ 200)
    (hmax : 0 < maxCount ∧ maxCount ≤ 2 ^ 28) (frameSize : ℕ) (memory : ℕ → JbSlot) :
    ∃ jb, create frameSize ptime maxCount memory = .ok jb ∧ jb.framelist.size = 0 ∧ ∀ algo,
      (jb.setDiscard algo).Levels ∧ (jb.setDiscard algo).Frames ∧
        (jb.setDiscard algo).Ranges := by
  have hshrink : 0 < 200 / ptime := Nat.div_pos hgap hptime
  have hshrink' : 200 / ptime ≤ 200 := Nat.div_le_self _ _
  refine ⟨_, if_neg hptime.ne', rfl, fun algo => ⟨⟨⟨hptime, ?_, ?_, hmax.2, ?_, ?_, ?_, ?_⟩, le_rfl,
    le_rfl, le_rfl, ?_, ?_, ?_⟩, ⟨JbFramelist.Valid.reset hmax.1, rfl, rfl, le_rfl,
    fun hne => absurd rfl hne, fun _ => rfl⟩, ?_⟩⟩
  · exact Int.natCast_pos.mpr hshrink
  · exact Int.ofNat_le.mpr hshrink'
  · exact le_max_of_le_right (Int.natCast_nonneg _)
  · exact Int.natCast_nonneg _
  · exact Int.natCast_nonneg _
  · change ((maxCount * 4 / 5 : ℕ) : ℤ) ≤ maxCount
    omega
  · exact Int.natCast_nonneg _
  · change (0 : ℤ) ≤ min 15 ((maxCount * 4 / 5 : ℕ) : ℤ)
    omega
  · change min 15 ((maxCount * 4 / 5 : ℕ) : ℤ) ≤ maxCount
    omega
  · refine ⟨?_, ?_, ?_, ?_, ?_, ?_, ?_⟩
    all_goals simp only [initial, setDiscard, reset, JbFramelist.init, JbFramelist.reset,
      JbFramelist.invalidOffset]
    all_goals decide

theorem setAdaptive_rule {prefetch minPrefetch maxPrefetch : ℕ} (h : jb.Levels) (hf : jb.Frames)
    (hset : minPrefetch ≤ maxPrefetch ∧ prefetch ≤ maxPrefetch ∧ maxPrefetch ≤ jb.jbMaxCount) :
    ∃ jb', jb.setAdaptive prefetch minPrefetch maxPrefetch = .ok jb' ∧ jb'.Levels ∧ jb'.Frames ∧
      jb'.framelist = jb.framelist ∧ (jb.Ranges → jb'.Ranges) := by
  obtain ⟨hptime, hgap, hgap', hmax, hburst, -, -, -⟩ := h.settings
  refine ⟨_, if_pos hset, ⟨⟨hptime, hgap, hgap', hmax, hburst, ?_, ?_, ?_⟩, h.level_nonneg,
    h.maxHistLevel_nonneg, h.effLevel_nonneg, h.effLevel_le, ?_, ?_⟩, ⟨hf.valid, hf.maxCount,
    hf.frameSize, hf.discardDist_nonneg, hf.marked, hf.unscheduled⟩, rfl,
    fun ⟨h1, h2, h3, h4, h5, h6, h7⟩ => ⟨h1, h2, h3, h4, h5, h6, h7⟩⟩
  all_goals simp only
  all_goals omega

theorem setFixed_rule {prefetch : ℕ} (h : jb.Levels) (hf : jb.Frames)
    (hset : prefetch ≤ jb.jbMaxCount) :
    ∃ jb', jb.setFixed prefetch = .ok jb' ∧ jb'.Levels ∧ jb'.Frames ∧
      jb'.framelist = jb.framelist ∧ (jb.Ranges → jb'.Ranges) := by
  obtain ⟨hptime, hgap, hgap', hmax, hburst, -, -, -⟩ := h.settings
  refine ⟨_, if_pos hset, ⟨⟨hptime, hgap, hgap', hmax, hburst, ?_, ?_, ?_⟩, h.level_nonneg,
    h.maxHistLevel_nonneg, h.effLevel_nonneg, h.effLevel_le, ?_, ?_⟩, ⟨hf.valid, hf.maxCount,
    hf.frameSize, hf.discardDist_nonneg, hf.marked, hf.unscheduled⟩, rfl,
    fun ⟨h1, h2, h3, h4, h5, h6, h7⟩ => ⟨h1, h2, h3, h4, h5, h6, h7⟩⟩
  all_goals simp only
  all_goals omega

end Jbuf

end PttTerminal
