import Mathlib.Tactic

/-!
# Modified UTF-8

Strings of UTF-16 units as texts without a zero byte: a unit takes one, two or three bytes, the unit
0 takes two, and the two units of a surrogate pair are written one by one.
-/
namespace PttTerminal.ModifiedUtf8

def encodeUnit (u : UInt16) : List UInt8 :=
  if 0 < u.toNat ∧ u.toNat < 0x80 then [.ofNat u.toNat]
  else if u.toNat < 0x800 then [.ofNat (0xC0 + u.toNat / 64), .ofNat (0x80 + u.toNat % 64)]
  else
    [.ofNat (0xE0 + u.toNat / 4096), .ofNat (0x80 + u.toNat / 64 % 64), .ofNat (0x80 + u.toNat % 64)]

def encode (s : List UInt16) : List UInt8 := s.flatMap encodeUnit

def decode : List UInt8 → Option (List UInt16)
  | [] => some []
  | b :: r =>
    if b.toNat < 0x80 then (decode r).map (.ofNat b.toNat :: ·)
    else if b.toNat < 0xE0 then
      match r with
      | c :: r => (decode r).map (.ofNat (b.toNat % 32 * 64 + c.toNat % 64) :: ·)
      | _ => none
    else
      match r with
      | c :: d :: r =>
        (decode r).map
          (.ofNat (b.toNat % 16 * 4096 + c.toNat % 64 * 64 + d.toNat % 64) :: ·)
      | _ => none

variable {u : UInt16} {s t : List UInt16} {b : UInt8}

@[simp]
theorem encode_nil : encode [] = [] := rfl

@[simp]
theorem encode_cons : encode (u :: s) = encodeUnit u ++ encode s := rfl

@[simp]
theorem encode_append : encode (s ++ t) = encode s ++ encode t := List.flatMap_append

theorem toNat_ofNat_byte {n : ℕ} (h : n < 256) : (UInt8.ofNat n).toNat = n := by
  rw [UInt8.toNat_ofNat']
  omega

theorem ofNat_unit {n : ℕ} (h : u.toNat = n) : UInt16.ofNat n = u := by
  rw [← h, UInt16.ofNat_toNat]

theorem decode_one (h : b.toNat < 0x80) (r : List UInt8) :
    decode (b :: r) = (decode r).map (.ofNat b.toNat :: ·) := by
  rw [decode.eq_def]
  exact if_pos h

theorem decode_two {c : UInt8} (h1 : ¬b.toNat < 0x80) (h2 : b.toNat < 0xE0) (r : List UInt8) :
    decode (b :: c :: r) =
      (decode r).map (.ofNat (b.toNat % 32 * 64 + c.toNat % 64) :: ·) := by
  rw [decode.eq_def]
  exact (if_neg h1).trans (if_pos h2)

theorem decode_three {c d : UInt8} (h1 : ¬b.toNat < 0x80) (h2 : ¬b.toNat < 0xE0) (r : List UInt8) :
    decode (b :: c :: d :: r) = (decode r).map
      (.ofNat (b.toNat % 16 * 4096 + c.toNat % 64 * 64 + d.toNat % 64) :: ·) := by
  rw [decode.eq_def]
  exact (if_neg h1).trans (if_neg h2)

theorem decode_encodeUnit_append (u : UInt16) (r : List UInt8) :
    decode (encodeUnit u ++ r) = (decode r).map (u :: ·) := by
  have hu := u.toNat_lt
  unfold encodeUnit
  split_ifs with hone htwo
  · have hb := toNat_ofNat_byte (n := u.toNat) (by omega)
    rw [List.singleton_append, decode_one (by omega), hb, ofNat_unit rfl]
  · have hb := toNat_ofNat_byte (n := 0xC0 + u.toNat / 64) (by omega)
    have hc := toNat_ofNat_byte (n := 0x80 + u.toNat % 64) (by omega)
    have hunit : UInt16.ofNat ((0xC0 + u.toNat / 64) % 32 * 64 + (0x80 + u.toNat % 64) % 64) = u :=
      ofNat_unit (by omega)
    rw [List.cons_append, List.singleton_append, decode_two (by omega) (by omega), hb, hc, hunit]
  · have hb := toNat_ofNat_byte (n := 0xE0 + u.toNat / 4096) (by omega)
    have hc := toNat_ofNat_byte (n := 0x80 + u.toNat / 64 % 64) (by omega)
    have hd := toNat_ofNat_byte (n := 0x80 + u.toNat % 64) (by omega)
    have hunit : UInt16.ofNat ((0xE0 + u.toNat / 4096) % 16 * 4096 +
        (0x80 + u.toNat / 64 % 64) % 64 * 64 + (0x80 + u.toNat % 64) % 64) = u :=
      ofNat_unit (by omega)
    rw [List.cons_append, List.cons_append, List.singleton_append,
      decode_three (by omega) (by omega), hb, hc, hd, hunit]

/-- No string is lost, and no two become one. -/
@[simp]
theorem decode_encode (s : List UInt16) : decode (encode s) = some s := by
  induction s with
  | nil => rfl
  | cons u s ih => rw [encode_cons, decode_encodeUnit_append, ih, Option.map_some]

theorem length_encodeUnit_le (u : UInt16) : (encodeUnit u).length ≤ 3 := by
  unfold encodeUnit
  split_ifs <;> simp

theorem length_encode_le (s : List UInt16) : (encode s).length ≤ 3 * s.length := by
  induction s with
  | nil => simp
  | cons u s ih =>
    have := length_encodeUnit_le u
    simp only [encode_cons, List.length_append, List.length_cons]
    omega

/-- A byte below 128 stands for itself only. -/
theorem mem_encodeUnit (hb : b.toNat < 0x80) :
    b ∈ encodeUnit u ↔ u.toNat = b.toNat ∧ b ≠ 0 := by
  have hu := u.toNat_lt
  have hzero : b ≠ 0 ↔ b.toNat ≠ 0 := by simp [← UInt8.toNat_inj]
  have hmem : ∀ n, n < 256 → (b = UInt8.ofNat n ↔ b.toNat = n) := fun n hn => by
    rw [← UInt8.toNat_inj, toNat_ofNat_byte hn]
  unfold encodeUnit
  split_ifs with hone htwo
  · rw [List.mem_singleton, hmem _ (by omega), hzero]
    omega
  · simp only [List.mem_cons, List.not_mem_nil, or_false]
    rw [hmem _ (by omega), hmem _ (by omega), hzero]
    omega
  · simp only [List.mem_cons, List.not_mem_nil, or_false]
    rw [hmem _ (by omega), hmem _ (by omega), hmem _ (by omega), hzero]
    omega

theorem mem_encode (hb : b.toNat < 0x80) (hzero : b ≠ 0) :
    b ∈ encode s ↔ UInt16.ofNat b.toNat ∈ s := by
  induction s with
  | nil => simp
  | cons u s ih =>
    rw [encode_cons, List.mem_append, List.mem_cons, ih, mem_encodeUnit hb, ← UInt16.toNat_inj,
      UInt16.toNat_ofNat']
    have : b.toNat % 2 ^ 16 = b.toNat := by omega
    rw [this]
    simp [hzero, eq_comm]

theorem zero_notMem_encode (s : List UInt16) : 0 ∉ encode s := by
  induction s with
  | nil => simp
  | cons u s ih =>
    rw [encode_cons, List.mem_append, mem_encodeUnit (by decide)]
    simp [ih]

/-- A string of units below 128 is written unit by unit. -/
theorem length_encode_of_lt (h : ∀ u ∈ s, 0 < u.toNat ∧ u.toNat < 0x80) :
    (encode s).length = s.length := by
  induction s with
  | nil => rfl
  | cons u s ih =>
    obtain ⟨hu, hs⟩ := List.forall_mem_cons.mp h
    rw [encode_cons, List.length_append, ih hs, encodeUnit, if_pos hu]
    simp only [List.length_cons, List.length_nil]
    omega

end PttTerminal.ModifiedUtf8
