import PttTerminal.JitterBuffer
import PttTerminal.Library.Journals
import PttTerminal.Library.Runs

/-!
# The jitter buffer over whole runs

The network puts frames, the sound device gets them, and a restart of the session resets the buffer;
the mutex of the stream makes each of them one step. The journal gives every frame a rank, its
number and what was added when numbers started anew, so that one can say which frame is played when.
-/
namespace PttTerminal

open Journals Runs

inductive JitterNote where
  | put (seq rank : ℤ) (frame : JbFrame)
  | played (rank : ℤ) (frame : JbFrame)
  /-- From here on `shift` is added to a number for the rank. -/
  | anew (shift : ℤ)
  deriving Repr, DecidableEq

def JitterNote.shift? : JitterNote → Option ℤ
  | .anew shift => some shift
  | _ => none

def shiftOf (journal : List JitterNote) : ℤ := (latest JitterNote.shift? journal).getD 0

/-- The buffer, and what happened, the latest first. -/
structure Jitter where
  jb : Jbuf
  journal : List JitterNote := []
  fault : Option JbFault := none

inductive JitterEvent where
  | put (frame : List UInt8) (bitInfo : ℕ) (seq : ℤ) (ts : ℕ)
  | get
  | reset
  | setAdaptive (prefetch minPrefetch maxPrefetch : ℕ)
  | setFixed (prefetch : ℕ)
  deriving Repr, DecidableEq

/-- What is written before a frame that goes back in the numbers. -/
def renewal (fl : JbFramelist) (seq : ℤ) (journal : List JitterNote) : List JitterNote :=
  if fl.goesBack seq = 0 then journal
  else .anew (shiftOf journal + fl.goesBack seq) :: journal

namespace Jitter

def put (frame : List UInt8) (bitInfo : ℕ) (seq : ℤ) (ts : ℕ) (s : Jitter) : Jitter :=
  match s.jb.putFrame frame bitInfo seq ts with
  | .error fault => { s with fault := some fault }
  | .ok (true, jb) => { s with jb := jb }
  | .ok (false, jb) =>
    let journal := renewal s.jb.framelist seq s.journal
    { s with
      jb := jb
      journal := .put seq (seq + shiftOf journal) (s.jb.cut frame bitInfo ts) :: journal }

def get (s : Jitter) : Jitter :=
  match s.jb.getFrame with
  | .error fault => { s with fault := some fault }
  | .ok (out, jb) =>
    match out.played with
    | none => { s with jb := jb }
    | some frame =>
      { s with
        jb := jb
        journal := .played (out.seq.getD 0 + shiftOf s.journal) frame :: s.journal }

/-- What is put after a reset comes behind all that was there. -/
def reset (s : Jitter) : Jitter :=
  let fl := s.jb.framelist
  { s with
    jb := s.jb.reset
    journal := .anew (shiftOf s.journal + fl.origin + fl.size - JbFramelist.invalidOffset) ::
      s.journal }

def set (result : Except JbFault Jbuf) (s : Jitter) : Jitter :=
  match result with
  | .error fault => { s with fault := some fault }
  | .ok jb => { s with jb := jb }

end Jitter

/-- The numbers that a stream can put, which divides time stamps of 32 bits by the samples of a
frame, while no burst is so long that its count leaves an `int`; and the settings that the
assertions allow. -/
def JitterEvent.enabled (s : Jitter) : JitterEvent → Prop
  | .put _ _ seq _ => (0 ≤ seq ∧ seq < 2 ^ 30) ∧ s.jb.level < 2 ^ 29
  | .get => s.jb.level < 2 ^ 29
  | .setAdaptive prefetch minPrefetch maxPrefetch =>
    minPrefetch ≤ maxPrefetch ∧ prefetch ≤ maxPrefetch ∧ maxPrefetch ≤ s.jb.jbMaxCount
  | .setFixed prefetch => prefetch ≤ s.jb.jbMaxCount
  | _ => True

def JitterEvent.next (s : Jitter) : JitterEvent → Jitter
  | .put frame bitInfo seq ts => s.put frame bitInfo seq ts
  | .get => s.get
  | .reset => s.reset
  | .setAdaptive prefetch minPrefetch maxPrefetch =>
    s.set (s.jb.setAdaptive prefetch minPrefetch maxPrefetch)
  | .setFixed prefetch => s.set (s.jb.setFixed prefetch)

/-- A buffer for at least one frame, of at most 200 milliseconds, with any algorithm. -/
def jitter : System Jitter JitterEvent where
  init s := ∃ frameSize ptime maxCount memory algo jb, 0 < ptime ∧ ptime ≤ 200 ∧
    (0 < maxCount ∧ maxCount ≤ 2 ^ 28) ∧
    Jbuf.create frameSize ptime maxCount memory = .ok jb ∧ s = { jb := jb.setDiscard algo }
  enabled := JitterEvent.enabled
  next := JitterEvent.next

/-! ### What the journal says -/

/-- The numbers have just started anew. -/
def renewed : List JitterNote → Prop
  | .anew _ :: _ => True
  | _ => False

/-- A frame gets a rank that no frame had, behind all that were played, and behind all that were put
when numbers start anew; a frame is played as it was put, once, and behind all that were played. -/
def jitterLaw : JitterNote → List JitterNote → Prop
  | .put seq rank _, j => rank = seq + shiftOf j ∧ (∀ seq' frame, .put seq' rank frame ∉ j) ∧
    (∀ r frame, .played r frame ∈ j → r < rank) ∧
    (renewed j → ∀ seq' r frame, .put seq' r frame ∈ j → r < rank)
  | .played rank frame, j => (∃ seq, .put seq rank frame ∈ j) ∧
    ∀ r frame', .played r frame' ∈ j → r < rank
  | .anew _, _ => True

/-- The slots hold what the journal says was put for their ranks. -/
structure Holds (fl : JbFramelist) (shift : ℤ) (j : List JitterNote) : Prop where
  normal : ∀ i slot, fl.At i slot → slot.frameType = .normal →
    ∃ seq, .put seq (i + shift) slot.frame ∈ j
  missing : ∀ i slot, fl.At i slot → slot.frameType = .missing →
    ∀ seq frame, .put seq (i + shift) frame ∉ j
  ends : ∀ seq r frame, .put seq r frame ∈ j → r < fl.origin + fl.size + shift
  past : ∀ r frame, .played r frame ∈ j → r < fl.origin + shift

/-- No access failed, and the buffer holds what the journal says. -/
structure Jitter.InOrder (s : Jitter) : Prop where
  fault : s.fault = none
  levels : s.jb.Levels
  frames : s.jb.Frames
  ranges : s.jb.Ranges
  holds : Holds s.jb.framelist (shiftOf s.journal) s.journal
  behind : renewed s.journal → ∀ seq r frame, .put seq r frame ∈ s.journal →
    r < s.jb.framelist.origin + shiftOf s.journal
  law : Throughout jitterLaw s.journal

variable {fl fl' : JbFramelist} {shift seq : ℤ} {j : List JitterNote} {frame : JbFrame}

@[simp]
theorem shiftOf_put (seq rank : ℤ) (frame : JbFrame) (j : List JitterNote) :
    shiftOf (.put seq rank frame :: j) = shiftOf j := rfl

@[simp]
theorem shiftOf_played (rank : ℤ) (frame : JbFrame) (j : List JitterNote) :
    shiftOf (.played rank frame :: j) = shiftOf j := rfl

@[simp]
theorem shiftOf_anew (shift : ℤ) (j : List JitterNote) : shiftOf (.anew shift :: j) = shift := rfl

theorem holds_anew {s : ℤ} : Holds fl shift (.anew s :: j) ↔ Holds fl shift j := by
  constructor
  · exact fun ⟨h1, h2, h3, h4⟩ => ⟨by simpa using h1, by simpa using h2, by simpa using h3,
      by simpa using h4⟩
  · exact fun ⟨h1, h2, h3, h4⟩ => ⟨by simpa using h1, by simpa using h2, by simpa using h3,
      by simpa using h4⟩

theorem Holds.passes (h : Holds fl shift j) (hpasses : fl.Passes fl') : Holds fl' shift j where
  normal i slot' hat hnormal := by
    obtain ⟨slot, hat, rfl | rfl⟩ := hpasses.slot i slot' hat
    · exact h.normal i slot' hat hnormal
    · cases hnormal
  missing i slot' hat hmissing := by
    obtain ⟨slot, hat, rfl | rfl⟩ := hpasses.slot i slot' hat
    · exact h.missing i slot' hat hmissing
    · cases hmissing
  ends seq r frame hput := by
    have := h.ends seq r frame hput
    have := hpasses.end_le
    omega
  past r frame hplayed := by
    have := h.past r frame hplayed
    have := hpasses.origin_le
    omega

/-- A restart changes numbers, not ranks. -/
theorem Holds.restart (h : Holds fl shift j) (seq : ℤ) :
    Holds (fl.restart seq) (shift + fl.goesBack seq) j := by
  have hback : (fl.restart seq).origin + fl.goesBack seq = fl.origin := by
    unfold JbFramelist.goesBack
    omega
  have hrank : ∀ i, i + (shift + fl.goesBack seq) = i + fl.goesBack seq + shift := fun i => by ring
  refine ⟨fun i slot hat hnormal => ?_, fun i slot hat hmissing => ?_, fun seq' r frame hput => ?_,
    fun r frame hplayed => ?_⟩
  · rw [hrank]
    exact h.normal _ slot (JbFramelist.at_restart.mp hat) hnormal
  · rw [hrank]
    exact h.missing _ slot (JbFramelist.at_restart.mp hat) hmissing
  · have := h.ends seq' r frame hput
    rw [JbFramelist.restart_size]
    omega
  · have := h.past r frame hplayed
    omega

/-- A frame that is put has a rank of its own. -/
theorem Holds.puts (h : Holds fl shift j) (hputs : fl.Puts seq frame fl') :
    Holds fl' shift (.put seq (seq + shift) frame :: j) ∧
      (∀ seq' frame', .put seq' (seq + shift) frame' ∉ j) ∧
      ∀ r frame', .played r frame' ∈ j → r < seq + shift := by
  obtain ⟨fl₂, slot, hadv, -, hstores, hnormal, hframe⟩ := hputs
  have h₂ := h.passes hadv.passes
  have hend := hstores.end_eq
  have horigin := hstores.origin
  have hle := hstores.origin_le
  have hfresh : ∀ seq' frame', .put seq' (seq + shift) frame' ∉ j := by
    intro seq' frame' hput
    have hlt := h₂.ends seq' _ frame' hput
    obtain ⟨old, hat⟩ := fl₂.exists_at hle (by omega)
    exact h₂.missing seq old hat (hstores.free old hat) seq' frame' hput
  refine ⟨⟨fun i slot' hat hn => ?_, fun i slot' hat hm seq' frame' hput => ?_,
    fun seq' r frame' hput => ?_, fun r frame' hplayed => ?_⟩, hfresh, fun r frame' hplayed => ?_⟩
  · rcases hstores.slot i slot' hat with ⟨rfl, rfl⟩ | ⟨-, hat | ⟨hmissing, -⟩⟩
    · exact ⟨i, by rw [hframe]; exact List.mem_cons_self⟩
    · obtain ⟨seq', hput⟩ := h₂.normal i slot' hat hn
      exact ⟨seq', List.mem_cons_of_mem _ hput⟩
    · rw [hmissing] at hn
      cases hn
  · rcases hstores.slot i slot' hat with ⟨rfl, rfl⟩ | ⟨hne, hold⟩
    · rw [hnormal] at hm
      cases hm
    · rcases List.mem_cons.mp hput with heq | hput
      · rw [JitterNote.put.injEq] at heq
        omega
      · rcases hold with hat | ⟨-, hbehind⟩
        · exact h₂.missing i slot' hat hm seq' frame' hput
        · have := h₂.ends seq' _ frame' hput
          omega
  · rcases List.mem_cons.mp hput with heq | hput
    · cases heq
      omega
    · have := h₂.ends seq' r frame' hput
      omega
  · have := h₂.past r frame' (by simpa using hplayed)
    omega
  · have := h₂.past r frame' hplayed
    omega

theorem holds_renewal (h : Holds fl (shiftOf j) j) (seq : ℤ) :
    Holds (fl.restart seq) (shiftOf (renewal fl seq j)) (renewal fl seq j) := by
  have hrestart := h.restart seq
  unfold renewal
  split_ifs with hback
  · rwa [hback, add_zero] at hrestart
  · exact holds_anew.mpr hrestart

theorem throughout_renewal (h : Throughout jitterLaw j) (seq : ℤ) :
    Throughout jitterLaw (renewal fl seq j) := by
  unfold renewal
  split_ifs
  · exact h
  · exact ⟨trivial, h⟩

/-- A frame that starts the numbers anew comes behind all that the buffer holds. -/
theorem restart_behind (hback : fl.goesBack seq ≠ 0) :
    (fl.restart seq).origin + fl.size = seq := by
  unfold JbFramelist.goesBack JbFramelist.restart at *
  split_ifs at hback ⊢
  · simp only
    omega
  · omega

theorem origin_le_of_goesBack (hback : fl.goesBack seq = 0) : fl.origin ≤ seq := by
  unfold JbFramelist.goesBack JbFramelist.restart at hback
  split_ifs at hback
  · simp only at hback
    omega
  · omega

namespace Jitter

variable {s : Jitter}

/-- Steps that write nothing. -/
theorem InOrder.steps {jb' : Jbuf} (h : s.InOrder) (hlevels : jb'.Levels) (hframes : jb'.Frames)
    (hranges : jb'.Ranges) (hpasses : s.jb.framelist.Passes jb'.framelist) :
    InOrder { s with jb := jb' } := by
  refine ⟨h.fault, hlevels, hframes, hranges, h.holds.passes hpasses,
    fun hnew seq r frame hput => ?_, h.law⟩
  have := h.behind hnew seq r frame hput
  have := hpasses.origin_le
  change r < jb'.framelist.origin + shiftOf s.journal
  omega

/-- When the numbers have just started anew, the next frame comes behind all that were put. -/
theorem InOrder.renewed_behind (h : s.InOrder) (seq : ℤ)
    (hnew : renewed (renewal s.jb.framelist seq s.journal)) (seq' r : ℤ) (frame : JbFrame)
    (hput : .put seq' r frame ∈ renewal s.jb.framelist seq s.journal) :
    r < seq + shiftOf (renewal s.jb.framelist seq s.journal) := by
  have hends := (holds_renewal h.holds seq).ends seq' r frame hput
  unfold renewal at hnew hput hends ⊢
  split_ifs at hnew hput hends ⊢ with hback
  · have := h.behind hnew seq' r frame hput
    have := origin_le_of_goesBack hback
    omega
  · have := restart_behind hback
    rw [JbFramelist.restart_size] at hends
    omega

theorem InOrder.put (h : s.InOrder) (frame : List UInt8) (bitInfo : ℕ) {seq : ℤ} (ts : ℕ)
    (hseq : 0 ≤ seq ∧ seq < 2 ^ 30) (hlevel : s.jb.level < 2 ^ 29) :
    (s.put frame bitInfo seq ts).InOrder := by
  by_cases hrefuses : s.jb.Refuses seq
  · rw [Jitter.put, Jbuf.putFrame_refused h.frames hrefuses]
    have hsame : s.jb.SameFrames { s.jb with discard := s.jb.discard + 1 } := ⟨rfl, rfl, rfl, rfl⟩
    exact h.steps (h.levels.withLevel rfl rfl rfl rfl h.levels.level_nonneg)
      (hsame.frames h.frames) ((hsame.between (.of_eq rfl rfl)).ranges h.ranges) (.refl _)
  · obtain ⟨jb', fl', hput, hlevels, hframes, -, hputs, hpasses, hranges⟩ :=
      Jbuf.putFrame_accepted h.levels h.frames hrefuses frame bitInfo ts
    obtain ⟨hholds, hfresh, hplayed⟩ := (holds_renewal h.holds seq).puts hputs
    rw [Jitter.put, hput]
    exact ⟨h.fault, hlevels, hframes, hranges h.ranges hseq hlevel, hholds.passes hpasses,
      fun hnew => hnew.elim, ⟨rfl, hfresh, hplayed, h.renewed_behind seq⟩,
      throughout_renewal h.law seq⟩

theorem InOrder.get (h : s.InOrder) (hlevel : s.jb.level < 2 ^ 29) : s.get.InOrder := by
  obtain ⟨out, jb', hget, hlevels, hframes, hpasses, hplays, hranges⟩ :=
    Jbuf.getFrame_rule h.levels h.frames
  have hranges := hranges h.ranges hlevel
  rw [Jitter.get, hget]
  cases hplayed : out.played with
  | none =>
    simp only [hplayed]
    exact h.steps hlevels hframes hranges hpasses
  | some frame =>
    obtain ⟨hlt, hseq, slot, hat, hnormal, hframe⟩ := hplays frame hplayed
    simp only [hplayed, hseq, Option.getD_some]
    have hrank : s.jb.framelist.origin + shiftOf s.journal <
        jb'.framelist.origin + shiftOf s.journal := by omega
    obtain ⟨h1, h2, h3, h4⟩ := h.holds.passes hpasses
    obtain ⟨seq, hput⟩ := h.holds.normal _ slot hat hnormal
    refine ⟨h.fault, hlevels, hframes, hranges, ⟨by simpa using h1, by simpa using h2,
      by simpa using h3, fun r frame' hmem => ?_⟩, fun hnew => hnew.elim,
      ⟨⟨seq, hframe ▸ hput⟩, h.holds.past⟩, h.law⟩
    rcases List.mem_cons.mp hmem with heq | hmem
    · rw [JitterNote.played.injEq] at heq
      rw [heq.1]
      exact hrank
    · exact h4 r frame' hmem

theorem InOrder.reset (h : s.InOrder) : s.reset.InOrder := by
  obtain ⟨hlevels, hframes, hranges⟩ := Jbuf.reset_rule h.levels h.frames
  have hnone : ∀ i slot, ¬s.jb.framelist.reset.At i slot :=
    fun i slot => JbFramelist.not_at_of_empty rfl
  have hbehind : ∀ seq r frame, .put seq r frame ∈ s.journal → r < JbFramelist.invalidOffset +
      (shiftOf s.journal + s.jb.framelist.origin + s.jb.framelist.size -
        JbFramelist.invalidOffset) := fun seq r frame hput => by
    have := h.holds.ends seq r frame hput
    omega
  refine ⟨h.fault, hlevels, hframes, hranges h.ranges,
    holds_anew.mpr ⟨fun i slot hat => absurd hat (hnone i slot),
      fun i slot hat => absurd hat (hnone i slot), fun seq r frame hput => ?_,
      fun r frame hplayed => ?_⟩, fun _ seq r frame hput => ?_, trivial, h.law⟩
  · have := hbehind seq r frame hput
    change r < JbFramelist.invalidOffset + (0 : ℕ) + _
    rw [Nat.cast_zero, add_zero]
    exact this
  · have := h.holds.past r frame hplayed
    change r < JbFramelist.invalidOffset + (_ + s.jb.framelist.origin + s.jb.framelist.size - _)
    omega
  · exact hbehind seq r frame (by simpa [Jitter.reset] using hput)

theorem InOrder.set {result : Except JbFault Jbuf} {jb' : Jbuf} (h : s.InOrder)
    (hresult : result = .ok jb') (hlevels : jb'.Levels) (hframes : jb'.Frames)
    (hfl : jb'.framelist = s.jb.framelist) (hranges : jb'.Ranges) : (s.set result).InOrder := by
  subst hresult
  exact h.steps hlevels hframes hranges (hfl ▸ .refl _)

end Jitter

theorem jitter_next {s : Jitter} (h : s.InOrder) {e : JitterEvent} (he : e.enabled s) :
    (e.next s).InOrder := by
  cases e with
  | put frame bitInfo seq ts => exact h.put frame bitInfo ts he.1 he.2
  | get => exact h.get he
  | reset => exact h.reset
  | setAdaptive prefetch minPrefetch maxPrefetch =>
    obtain ⟨jb', hset, hlevels, hframes, hfl, hranges⟩ :=
      Jbuf.setAdaptive_rule h.levels h.frames he
    exact h.set hset hlevels hframes hfl (hranges h.ranges)
  | setFixed prefetch =>
    obtain ⟨jb', hset, hlevels, hframes, hfl, hranges⟩ := Jbuf.setFixed_rule h.levels h.frames he
    exact h.set hset hlevels hframes hfl (hranges h.ranges)

theorem jitter_init {s : Jitter} (h : jitter.init s) : s.InOrder := by
  obtain ⟨frameSize, ptime, maxCount, memory, algo, jb, hptime, hgap, hmax, hcreate, rfl⟩ := h
  obtain ⟨jb', hcreate', hempty, hrule⟩ := Jbuf.create_rule hptime hgap hmax frameSize memory
  rw [hcreate'] at hcreate
  cases hcreate
  obtain ⟨hlevels, hframes, hranges⟩ := hrule algo
  have hnone : ∀ i slot, ¬jb.framelist.At i slot :=
    fun i slot => JbFramelist.not_at_of_empty hempty
  exact ⟨rfl, hlevels, hframes, hranges, ⟨fun i slot hat => absurd hat (hnone i slot),
    fun i slot hat => absurd hat (hnone i slot), by simp, by simp⟩, fun hnew => hnew.elim, trivial⟩

instance JitterEvent.decEnabled (s : Jitter) :
    (e : JitterEvent) → Decidable (JitterEvent.enabled s e)
  | .put .. => inferInstanceAs (Decidable ((_ ∧ _) ∧ _))
  | .get => inferInstanceAs (Decidable (_ < _))
  | .reset => isTrue trivial
  | .setAdaptive .. => inferInstanceAs (Decidable (_ ∧ _ ∧ _))
  | .setFixed _ => inferInstanceAs (Decidable (_ ≤ _))

instance (s : Jitter) (e : JitterEvent) : Decidable (jitter.enabled s e) :=
  inferInstanceAs (Decidable (JitterEvent.enabled s e))

theorem jitter_inOrder {s : Jitter} (h : jitter.Reached (fun _ _ => True) s) : s.InOrder :=
  h.invariant (fun _ => jitter_init) fun _ _ h he _ => jitter_next h he

/-- No access fails, no assertion breaks, no loop goes on for ever and no number leaves an `int`;
the size that is told counts the frames that are not discarded, and no more frames are waited for
than the buffer holds. -/
theorem jitter_never_faults {s : Jitter} (h : jitter.Reached (fun _ _ => True) s) :
    s.fault = none ∧ s.jb.framelist.Valid ∧ s.jb.Ranges ∧
      s.jb.framelist.effSize = s.jb.framelist.window.countP (fun slot => !slot.isDiscarded) ∧
      0 ≤ s.jb.effLevel ∧ s.jb.effLevel ≤ (s.jb.jbMaxCount * 4 / 5 : ℕ) ∧
      0 ≤ s.jb.prefetch ∧ s.jb.prefetch ≤ s.jb.jbMaxCount := by
  obtain ⟨hfault, hlevels, hframes, hranges, -, -, -⟩ := jitter_inOrder h
  exact ⟨hfault, hframes.valid, hranges, hframes.valid.effSize, hlevels.effLevel_nonneg,
    hlevels.effLevel_le, hlevels.prefetch_nonneg, hlevels.prefetch_le⟩

/-- Frames come out of order, late, twice and far ahead, and then the sender starts anew. -/
def jitterRun : List JitterEvent :=
  [.setAdaptive 0 1 4, .put [1, 2] 0 210 0, .put [5] 0 212 0, .put [3, 4] 0 211 0, .get, .get,
    .put [9] 0 210 0, .put [6] 0 212 0, .get, .put [7] 0 220 0, .put [8] 0 225 0,
    .put [1, 2, 3, 4, 5] 0 226 0, .get, .get, .get, .get, .put [2] 0 3 0, .get, .get, .reset,
    .put [3] 0 5 0, .get]

def jitterStart : Jitter := { jb := (Jbuf.initial 4 20 5 fun _ => {}).setDiscard .progressive }

theorem jitterStart_init : jitter.init jitterStart :=
  ⟨4, 20, 5, fun _ => {}, .progressive, .initial 4 20 5 fun _ => {}, by decide, by decide,
    by decide, rfl, rfl⟩

/-- Where the run comes to. -/
def jitterEnd : Jitter := jitter.run jitterStart jitterRun

theorem jitterEnd_reached : jitter.Reached (fun _ _ => True) jitterEnd :=
  System.reached_run jitterStart_init (by decide +kernel)

theorem jitterRun_never_faults : jitterEnd.fault = none ∧ jitterEnd.jb.framelist.Valid ∧
    jitterEnd.jb.Ranges ∧
    jitterEnd.jb.framelist.effSize =
      jitterEnd.jb.framelist.window.countP (fun slot => !slot.isDiscarded) ∧
    0 ≤ jitterEnd.jb.effLevel ∧ jitterEnd.jb.effLevel ≤ (jitterEnd.jb.jbMaxCount * 4 / 5 : ℕ) ∧
    0 ≤ jitterEnd.jb.prefetch ∧ jitterEnd.jb.prefetch ≤ jitterEnd.jb.jbMaxCount :=
  jitter_never_faults jitterEnd_reached

/-- Frames are played in the order of their ranks, each at most once and as it was put, and the
buffer holds what was put for the ranks to come. -/
theorem jitter_follows_journal {s : Jitter} (h : jitter.Reached (fun _ _ => True) s) :
    Throughout jitterLaw s.journal ∧ Holds s.jb.framelist (shiftOf s.journal) s.journal :=
  ⟨(jitter_inOrder h).law, (jitter_inOrder h).holds⟩

theorem jitterRun_follows_journal :
    jitterEnd.journal =
      [.played 10232 ⟨[3], 0, 0⟩, .put 5 10232 ⟨[3], 0, 0⟩, .anew 10227, .played 227 ⟨[2], 0, 0⟩,
        .put 3 227 ⟨[2], 0, 0⟩, .anew 224, .played 226 ⟨[1, 2, 3, 4], 0, 0⟩,
        .played 225 ⟨[8], 0, 0⟩, .put 226 226 ⟨[1, 2, 3, 4], 0, 0⟩, .put 225 225 ⟨[8], 0, 0⟩,
        .put 220 220 ⟨[7], 0, 0⟩, .played 212 ⟨[5], 0, 0⟩, .played 211 ⟨[3, 4], 0, 0⟩,
        .played 210 ⟨[1, 2], 0, 0⟩, .put 211 211 ⟨[3, 4], 0, 0⟩, .put 212 212 ⟨[5], 0, 0⟩,
        .put 210 210 ⟨[1, 2], 0, 0⟩] ∧
    Throughout jitterLaw jitterEnd.journal ∧
    Holds jitterEnd.jb.framelist (shiftOf jitterEnd.journal) jitterEnd.journal :=
  ⟨by decide +kernel, jitter_follows_journal jitterEnd_reached⟩

/-- Whatever has happened, a frame is refused only when it is less than a hundred frames late or
when there is a frame in its slot; the frames then stay as they were. A full ring, a gap and a
restart of the numbers do not keep a frame out. -/
theorem jitter_refuses_iff {s : Jitter} (h : jitter.Reached (fun _ _ => True) s)
    (frame : List UInt8) (bitInfo : ℕ) {seq : ℤ} (ts : ℕ)
    (hput : (JitterEvent.put frame bitInfo seq ts).enabled s) :
    ∃ refused jb', s.jb.putFrame frame bitInfo seq ts = .ok (refused, jb') ∧
      (refused = true ↔ s.jb.framelist.Late seq ∨ s.jb.framelist.Taken seq) ∧
      (refused = true → jb'.framelist = s.jb.framelist) ∧ jb'.Ranges := by
  obtain ⟨-, hlevels, hframes, hranges, -, -, -⟩ := jitter_inOrder h
  by_cases hrefuses : s.jb.Refuses seq
  · have hsame : s.jb.SameFrames { s.jb with discard := s.jb.discard + 1 } := ⟨rfl, rfl, rfl, rfl⟩
    exact ⟨true, _, Jbuf.putFrame_refused hframes hrefuses, iff_of_true rfl hrefuses, fun _ => rfl,
      (hsame.between (.of_eq rfl rfl)).ranges hranges⟩
  · obtain ⟨jb', fl', haccepted, -, -, -, -, -, hranges'⟩ :=
      Jbuf.putFrame_accepted hlevels hframes hrefuses frame bitInfo ts
    exact ⟨false, jb', haccepted, iff_of_false (by simp) hrefuses, by simp,
      hranges' hranges hput.1 hput.2⟩

/-- The frame that was played last does not come in again. -/
theorem jitterEnd_refuses : jitterEnd.jb.framelist.Late 5 ∧
    ∃ refused jb', jitterEnd.jb.putFrame [3] 0 5 0 = .ok (refused, jb') ∧
      (refused = true ↔ jitterEnd.jb.framelist.Late 5 ∨ jitterEnd.jb.framelist.Taken 5) ∧
      (refused = true → jb'.framelist = jitterEnd.jb.framelist) ∧ jb'.Ranges :=
  ⟨by decide +kernel, jitter_refuses_iff jitterEnd_reached [3] 0 0 (by decide +kernel)⟩

end PttTerminal
