import PttTerminal.JitterFrames

/-!
# Putting frames

A frame that is not late goes into the slot for its number. Where the numbers start anew the frames
that wait get new numbers, in their order, and the new frame comes behind them.
-/
namespace PttTerminal

open Loops Rings

namespace JbFramelist

variable {fl fl' : JbFramelist} {index : ℤ} {slot : JbSlot}

/-! ### What putting does -/

/-- A new frame stands in the slot for its number, and nothing else is new. -/
structure Stores (fl : JbFramelist) (index : ℤ) (new : JbSlot) (fl' : JbFramelist) : Prop where
  valid : fl'.Valid
  origin_le : fl.origin ≤ index
  end_eq : fl'.origin + fl'.size = max (fl.origin + fl.size) (index + 1)
  free : ∀ slot, fl.At index slot → slot.frameType = .missing
  put : fl'.At index new
  slot : ∀ i slot, fl'.At i slot → i = index ∧ slot = new ∨
    i ≠ index ∧ (fl.At i slot ∨ slot.frameType = .missing ∧ fl.origin + fl.size ≤ i)
  origin : fl'.origin = fl.origin
  maxCount : fl'.maxCount = fl.maxCount
  frameSize : fl'.frameSize = fl.frameSize

/-- What a wider window shows behind the frames. -/
theorem Valid.missing_behind (h : fl.Valid) {size : ℕ} (hsize : size ≤ fl.maxCount) {j : ℕ}
    (hj : fl.size ≤ j) (hslot : (view fl.slots fl.maxCount fl.head size)[j]? = some slot) :
    slot.frameType = .missing := by
  obtain ⟨hlt, -⟩ := List.getElem?_eq_some_iff.mp hslot
  rw [length_view] at hlt
  rw [getElem?_view hlt] at hslot
  rw [← Option.some.inj hslot]
  exact h.beyond j hj (by omega)

theorem Valid.countP_wider (h : fl.Valid) {size : ℕ} (hle : fl.size ≤ size)
    (hsize : size ≤ fl.maxCount) :
    (view fl.slots fl.maxCount fl.head size).countP JbSlot.isDiscarded = fl.discardedNum := by
  obtain ⟨n, rfl⟩ := Nat.exists_eq_add_of_le hle
  rw [view_add, List.countP_append, ← window, ← h.discardedNum]
  have hzero : (view fl.slots fl.maxCount (fl.head + fl.size) n).countP JbSlot.isDiscarded = 0 := by
    rw [List.countP_eq_zero]
    intro slot hslot
    obtain ⟨k, hk, rfl⟩ := mem_view.mp hslot
    rw [add_assoc]
    simp [h.beyond (fl.size + k) (by omega) (by omega)]
  omega

def stored (fl : JbFramelist) (k : ℕ) (new : JbSlot) : JbFramelist :=
  { fl with
    slots := Function.update fl.slots ((fl.head + k) % fl.maxCount) new
    size := max fl.size (k + 1) }

theorem window_stored {k : ℕ} (h : fl.Valid) (hk : k < fl.maxCount) (new : JbSlot) :
    (fl.stored k new).window =
      (view fl.slots fl.maxCount fl.head (max fl.size (k + 1))).set k new :=
  view_update new (lt_max_of_lt_right k.lt_succ_self) (max_le h.size_le hk)

theorem Valid.stored {k : ℕ} {new : JbSlot} (h : fl.Valid) (hk : k < fl.maxCount)
    (hfree : (fl.slots ((fl.head + k) % fl.maxCount)).frameType = .missing)
    (hnew : new.frameType ≠ .discarded) : (fl.stored k new).Valid where
  maxCount_pos := h.maxCount_pos
  head_lt := h.head_lt
  size_le := max_le h.size_le hk
  discardedNum := by
    have hle := max_le h.size_le (Nat.succ_le_of_lt hk)
    have hlt : k < max fl.size (k + 1) := by omega
    have hold : ¬(fl.slots ((fl.head + k) % fl.maxCount)).isDiscarded = true := by simp [hfree]
    have hslot : (view fl.slots fl.maxCount fl.head (max fl.size (k + 1)))[k]? =
        some (fl.slots ((fl.head + k) % fl.maxCount)) := getElem?_view hlt
    rw [List.getElem?_eq_getElem (by simp)] at hslot
    rw [window_stored h hk, List.countP_set (by simp), h.countP_wider (by omega) hle,
      Option.some.inj hslot, if_neg hold, if_neg (by simpa using hnew)]
    rfl
  beyond j hj hjm := by
    have hle : max fl.size (k + 1) ≤ j := hj
    change (Function.update fl.slots _ new ((fl.head + j) % fl.maxCount)).frameType = .missing
    rw [Function.update_of_ne]
    · exact h.beyond j (by omega) hjm
    · exact fun heq => absurd (slot_inj hjm hk heq) (by omega)

theorem stores_rule {k : ℕ} {new : JbSlot} (h : fl.Valid) (hk : k < fl.maxCount)
    (hindex : fl.origin + k = index)
    (hfree : (fl.slots ((fl.head + k) % fl.maxCount)).frameType = .missing)
    (hnew : new.frameType ≠ .discarded) : fl.Stores index new (fl.stored k new) where
  valid := h.stored hk hfree hnew
  origin_le := by omega
  end_eq := by
    change fl.origin + (max fl.size (k + 1) : ℕ) = _
    omega
  free slot := by
    rintro ⟨j, hslot, hj⟩
    obtain rfl : j = k := by omega
    obtain ⟨hlt, -⟩ := List.getElem?_eq_some_iff.mp hslot
    rw [length_window] at hlt
    rw [getElem?_window hlt] at hslot
    rw [← Option.some.inj hslot, hfree]
  put := ⟨k, by rw [window_stored h hk, List.getElem?_set_self (by simp)], hindex⟩
  slot i slot := by
    rintro ⟨j, hslot, hj⟩
    change fl.origin + j = i at hj
    rw [window_stored h hk] at hslot
    by_cases hjk : k = j
    · subst hjk
      rw [List.getElem?_set_self (by simp)] at hslot
      exact .inl ⟨by omega, (Option.some.inj hslot).symm⟩
    · rw [List.getElem?_set_ne hjk] at hslot
      refine .inr ⟨by omega, ?_⟩
      rcases Nat.lt_or_ge j fl.size with hlt | hge
      · rw [getElem?_view (by omega), ← getElem?_window hlt] at hslot
        exact .inl ⟨j, hslot, hj⟩
      · exact .inr ⟨h.missing_behind (max_le h.size_le hk) hge hslot, by omega⟩
  origin := rfl
  maxCount := rfl
  frameSize := rfl

theorem store_taken {k : ℕ} (h : fl.Valid) (hk : k < fl.size)
    (hslot : fl.window[k]? = some slot) (htaken : slot.frameType ≠ .missing) (frame : List UInt8)
    (frameSize bitInfo ts : ℕ) (frameType : JbFrameType) :
    fl.store index k frame frameSize bitInfo ts frameType = .ok (.eexists, fl) := by
  rw [getElem?_window hk] at hslot
  simp only [store, posOf_of_pos h.maxCount_pos, Int.toNat_natCast, bind, Except.bind,
    slotAt_of_lt (h.pos_lt _), Option.some.inj hslot, if_pos htaken]
  rfl

theorem store_free {k : ℕ} (h : fl.Valid) (hindex : fl.origin + k = index)
    (hfree : (fl.slots ((fl.head + k) % fl.maxCount)).frameType = .missing) (frame : List UInt8)
    (frameSize bitInfo ts : ℕ) (frameType : JbFrameType) :
    fl.store index k frame frameSize bitInfo ts frameType = .ok (.success, fl.stored k
      ((fl.slots ((fl.head + k) % fl.maxCount)).written frame frameSize bitInfo ts frameType)) := by
  have hsize : (if fl.origin + fl.size ≤ index then ((k : ℤ) + 1).toNat else fl.size) =
      max fl.size (k + 1) := by
    split_ifs <;> omega
  simp only [store, posOf_of_pos h.maxCount_pos, Int.toNat_natCast, bind, Except.bind,
    slotAt_of_lt (h.pos_lt _), hfree, ne_eq, not_true_eq_false, if_false,
    setSlot_of_lt (h.pos_lt _), hsize]
  rfl

/-- The frame comes less than a hundred frames after its turn. -/
def Late (fl : JbFramelist) (index : ℤ) : Prop :=
  index < fl.origin ∧ fl.origin - index < maxMisorder

instance (fl : JbFramelist) (index : ℤ) : Decidable (fl.Late index) :=
  inferInstanceAs (Decidable (_ ∧ _))

/-- There is a frame, or was a discarded one, in the slot for the number `index`. -/
def Taken (fl : JbFramelist) (index : ℤ) : Prop :=
  ∃ slot, fl.At index slot ∧ slot.frameType ≠ .missing

/-- A frame was put into the slot for its number, at the end of the buffer or before. -/
def Puts (fl : JbFramelist) (index : ℤ) (frame : JbFrame) (fl' : JbFramelist) : Prop :=
  ∃ fl₂ slot, fl.Advances fl₂ ∧ fl₂.origin + fl₂.size ≤ max (fl.origin + fl.size) index ∧
    fl₂.Stores index slot fl' ∧ slot.frameType = .normal ∧ slot.frame = frame

theorem Puts.origin_le {frame : JbFrame} (h : fl.Puts index frame fl') :
    fl.origin ≤ fl'.origin := by
  obtain ⟨fl₂, slot, hadv, -, hstores, -⟩ := h
  rw [hstores.origin]
  exact hadv.origin_le

theorem Puts.end_le {frame : JbFrame} (h : fl.Puts index frame fl') :
    fl'.origin + fl'.size ≤ max (fl.origin + fl.size) (index + 1) := by
  obtain ⟨fl₂, slot, -, hend, hstores, -⟩ := h
  have := hstores.end_eq
  omega

theorem frame_written {frame : List UInt8} {frameSize : ℕ} (h : frameSize ≤ frame.length)
    (slot : JbSlot) (bitInfo ts : ℕ) :
    (slot.written frame frameSize bitInfo ts .normal).frame =
      ⟨frame.take frameSize, bitInfo, ts⟩ := by
  simp only [JbSlot.frame, JbSlot.written, if_true]
  rw [List.take_left' (by rw [List.length_take]; omega)]

theorem restart_valid (h : fl.Valid) (index : ℤ) : (fl.restart index).Valid := by
  unfold restart
  split_ifs
  · exact h.withOrigin _
  · exact h

@[simp]
theorem restart_maxCount (fl : JbFramelist) (index : ℤ) :
    (fl.restart index).maxCount = fl.maxCount := by
  unfold restart
  split_ifs <;> rfl

@[simp]
theorem restart_frameSize (fl : JbFramelist) (index : ℤ) :
    (fl.restart index).frameSize = fl.frameSize := by
  unfold restart
  split_ifs <;> rfl

@[simp]
theorem restart_size (fl : JbFramelist) (index : ℤ) : (fl.restart index).size = fl.size := by
  unfold restart
  split_ifs <;> rfl

@[simp]
theorem restart_window (fl : JbFramelist) (index : ℤ) : (fl.restart index).window = fl.window := by
  unfold restart
  split_ifs <;> rfl

theorem restart_of_le (h : fl.origin ≤ index) : fl.restart index = fl := if_neg (by omega)

theorem restart_origin_le (fl : JbFramelist) (index : ℤ) : (fl.restart index).origin ≤ index := by
  unfold restart
  split_ifs
  · simp only
    omega
  · omega

/-- How far the numbers go back in a restart. -/
def goesBack (fl : JbFramelist) (index : ℤ) : ℤ := fl.origin - (fl.restart index).origin

theorem goesBack_nonneg (fl : JbFramelist) (index : ℤ) : 0 ≤ fl.goesBack index := by
  unfold goesBack restart
  split_ifs
  · simp only
    omega
  · omega

theorem at_restart {i : ℤ} :
    (fl.restart index).At i slot ↔ fl.At (i + fl.goesBack index) slot := by
  simp only [At, restart_window, goesBack]
  constructor
  · exact fun ⟨k, hslot, hk⟩ => ⟨k, hslot, by omega⟩
  · exact fun ⟨k, hslot, hk⟩ => ⟨k, hslot, by omega⟩

/-- An empty buffer goes to the number of the frame. -/
theorem startEmpty_rule (h : fl.Valid) (hle : fl.origin ≤ index) : ∃ fl',
    fl.startEmpty index = .ok fl' ∧ fl.Advances fl' ∧ fl'.window = fl.window ∧
      fl'.origin ≤ index ∧ (fl.size = 0 → fl'.origin = index) ∧ (fl.size ≠ 0 → fl' = fl) := by
  by_cases hs : fl.size = 0
  · have hnum : fl.discardedNum = 0 := by
      have := h.discardedNum_le
      omega
    refine ⟨{ fl with origin := index }, ?_, ⟨h.withOrigin index, hle, ?_, fun i slot hat => ?_,
      rfl, rfl⟩, rfl, le_rfl, fun _ => rfl, fun hs' => absurd hs hs'⟩
    · rw [startEmpty, if_pos hs, if_pos hnum]
    · exact Int.add_le_add_right hle _
    · exact absurd hat (not_at_of_empty hs)
  · refine ⟨fl, if_neg hs, .refl h, rfl, hle, fun hs' => absurd hs' hs, fun _ => rfl⟩

theorem Valid.resetAt (h : fl.Valid) (index : ℤ) : (fl.resetAt index).Valid :=
  (Valid.reset h.maxCount_pos).withOrigin index

/-- A restart leaves no frame with the number of the new one. -/
theorem taken_restart : (fl.restart index).Taken index ↔ fl.Taken index := by
  rcases Int.lt_or_le index fl.origin with hlt | hle
  · constructor
    · rintro ⟨slot, hat, -⟩
      have := hat.bounds
      simp only [restart, if_pos hlt] at this
      omega
    · rintro ⟨slot, hat, -⟩
      have := hat.bounds
      omega
  · rw [restart_of_le hle]

theorem taken_congr (hsize : fl'.size = fl.size) (heq : fl.size ≠ 0 → fl' = fl) :
    fl'.Taken index ↔ fl.Taken index := by
  by_cases hs : fl.size = 0
  · constructor
    · exact fun ⟨slot, hat, _⟩ => absurd hat (not_at_of_empty (hsize.trans hs))
    · exact fun ⟨slot, hat, _⟩ => absurd hat (not_at_of_empty hs)
  · rw [heq hs]

/-- A slot of the ring for a number that is not taken is free. -/
theorem Valid.free {k : ℕ} (h : fl.Valid) (hk : k < fl.maxCount) (hindex : fl.origin + k = index)
    (htaken : ¬fl.Taken index) :
    (fl.slots ((fl.head + k) % fl.maxCount)).frameType = .missing := by
  by_contra hne
  rcases Nat.lt_or_ge k fl.size with hlt | hge
  · exact htaken ⟨_, ⟨k, getElem?_window hlt, hindex⟩, hne⟩
  · exact hne (h.beyond k hge hk)

/-- The buffer starts anew at a number that is behind all that it holds. -/
theorem resetAt_advances (h : fl.Valid) (hend : fl.origin + fl.size ≤ index) :
    fl.Advances (fl.resetAt index) := by
  refine ⟨h.resetAt index, ?_, ?_, fun i slot hat => absurd hat (not_at_of_empty rfl), rfl, rfl⟩
  · change fl.origin ≤ index
    omega
  · change _ ≤ index + (0 : ℕ)
    omega

theorem resetAt_end : (fl.resetAt index).origin + (fl.resetAt index).size = index := by
  change index + ((0 : ℕ) : ℤ) = index
  omega

theorem not_taken_resetAt : ¬(fl.resetAt index).Taken index :=
  fun ⟨_, hat, _⟩ => not_at_of_empty rfl hat

/-- What a store in a free slot comes to. -/
theorem store_puts {fl₁ : JbFramelist} {k frameSize : ℕ} {frame : List UInt8}
    (hadv : fl.Advances fl₁) (hend : fl₁.origin + fl₁.size ≤ max (fl.origin + fl.size) index)
    (hk : k < fl₁.maxCount) (hindex : fl₁.origin + k = index) (hfree : ¬fl₁.Taken index)
    (hframe : frameSize ≤ frame.length) (bitInfo ts : ℕ) :
    ∃ fl', fl₁.store index k frame frameSize bitInfo ts .normal = .ok (.success, fl') ∧
      fl.Puts index ⟨frame.take frameSize, bitInfo, ts⟩ fl' := by
  have hslot := hadv.valid.free hk hindex hfree
  exact ⟨_, store_free hadv.valid hindex hslot frame frameSize bitInfo ts .normal, fl₁, _, hadv,
    hend, stores_rule hadv.valid hk hindex hslot (by simp [JbSlot.written]), rfl,
    frame_written hframe _ bitInfo ts⟩

theorem putAt_late {frameSize : ℕ} (hlen : frameSize ≤ fl.frameSize) (hlate : fl.Late index)
    (frame : List UInt8) (bitInfo ts : ℕ) :
    fl.putAt index frame frameSize bitInfo ts .normal = .ok (.etoosmall, fl) := by
  unfold Late at hlate
  rw [putAt, if_neg (by omega), if_pos hlate]
  rfl

/-- A frame that is not late goes into its slot, unless that is taken or outside the ring. -/
theorem putAt_rule {frame : List UInt8} {frameSize : ℕ} (h : fl.Valid)
    (hframe : frameSize ≤ frame.length) (hlen : frameSize ≤ fl.frameSize) (bitInfo ts : ℕ)
    (hlate : ¬fl.Late index) :
    fl.Taken index ∧ fl.putAt index frame frameSize bitInfo ts .normal = .ok (.eexists, fl) ∨
    ¬fl.Taken index ∧
      ((∃ fl', fl.putAt index frame frameSize bitInfo ts .normal = .ok (.success, fl') ∧
        (fl.restart index).Puts index ⟨frame.take frameSize, bitInfo, ts⟩ fl') ∨
      fl.putAt index frame frameSize bitInfo ts .normal = .ok (.etoomany, fl.restart index) ∧
        (fl.restart index).origin + fl.maxCount ≤ index ∧ fl.size ≠ 0) := by
  obtain ⟨fl₁, hstart, hadv, hwindow, hle, hempty, hsame⟩ :=
    startEmpty_rule (restart_valid h index) (restart_origin_le fl index)
  have hput : fl.putAt index frame frameSize bitInfo ts .normal =
      if index - fl₁.origin ≥ fl₁.maxCount then
        if index - fl₁.origin > maxDropout then
          (fl₁.resetAt index).store index 0 frame frameSize bitInfo ts .normal
        else .ok (.etoomany, fl₁)
      else fl₁.store index (index - fl₁.origin) frame frameSize bitInfo ts .normal := by
    unfold Late at hlate
    rw [putAt, if_neg (by omega), if_neg hlate, hstart]
    rfl
  have hsize₁ : fl₁.size = (fl.restart index).size := by
    rw [← length_window, hwindow, length_window]
  have hiff : fl₁.Taken index ↔ fl.Taken index :=
    (taken_congr hsize₁ hsame).trans taken_restart
  have hend : fl₁.origin + fl₁.size ≤
      max ((fl.restart index).origin + (fl.restart index).size) index := by
    by_cases hs : (fl.restart index).size = 0
    · have := hempty hs
      omega
    · rw [hsame hs]
      exact le_max_left _ _
  obtain ⟨k, hk⟩ : ∃ k : ℕ, fl₁.origin + k = index := ⟨(index - fl₁.origin).toNat, by omega⟩
  have hdistance : index - fl₁.origin = k := by omega
  rw [hput, hdistance]
  by_cases htaken : fl.Taken index
  · obtain ⟨slot, hat, hne⟩ := id htaken
    have hbounds := hat.bounds
    have hfl : fl₁ = fl := by
      rw [restart_of_le hbounds.1] at hsame
      exact hsame (by omega)
    subst hfl
    obtain ⟨j, hslot, hj⟩ := hat
    obtain rfl : j = k := by omega
    have hsize := h.size_le
    have hks : j < fl₁.size := by omega
    refine .inl ⟨htaken, ?_⟩
    rw [if_neg (by omega), store_taken h hks hslot hne]
  · refine .inr ⟨htaken, ?_⟩
    by_cases hfar : (k : ℤ) ≥ fl₁.maxCount
    · by_cases hjump : (k : ℤ) > maxDropout
      · have hsize := hadv.valid.size_le
        have hreset := hadv.trans (resetAt_advances hadv.valid (show _ ≤ index by omega))
        obtain ⟨fl', hstore, hputs⟩ := store_puts hreset
          (by rw [resetAt_end]; exact le_max_right _ _) hreset.valid.maxCount_pos
          (by simp [resetAt]) not_taken_resetAt hframe bitInfo ts
        refine .inl ⟨fl', ?_, hputs⟩
        rw [if_pos hfar, if_pos hjump]
        exact hstore
      · have hpos := hadv.valid.maxCount_pos
        have hsize : fl.size ≠ 0 := fun hs => by
          have := hempty (by rw [restart_size, hs])
          omega
        have hfl : fl₁ = fl.restart index := hsame (by rwa [restart_size])
        have hmax := hadv.maxCount
        rw [restart_maxCount] at hmax
        refine .inr ⟨?_, by rw [← hfl]; omega, hsize⟩
        rw [if_pos hfar, if_neg hjump, ← hfl]
    · obtain ⟨fl', hstore, hputs⟩ := store_puts hadv hend (by omega) hk (hiff.not.mpr htaken) hframe
        bitInfo ts
      refine .inl ⟨fl', ?_, hputs⟩
      rw [if_neg hfar, hstore]

end JbFramelist

end PttTerminal
