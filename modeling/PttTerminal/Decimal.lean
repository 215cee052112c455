import Mathlib.Data.List.TakeWhile
import PttTerminal.Scanner

/-!
# Decimal numbers in messages

The server writes numbers in decimal. `pj_strtoul` reads them back as far as they fit into 32 bits;
it knows no sign, so that a negative number is read as zero.
-/
namespace PttTerminal

/-- The byte of a digit. -/
def digitByte (d : ℕ) : UInt8 := (48 + d).toUInt8

/-- The decimal digits of a number, the first one first. -/
def decimal (n : ℕ) : Bytes :=
  if n < 10 then [digitByte n] else decimal (n / 10) ++ [digitByte (n % 10)]
termination_by n
decreasing_by omega

/-- A number with a sign. -/
def decimalInt (z : ℤ) : Bytes := if z < 0 then 45 :: decimal z.natAbs else decimal z.toNat

theorem digitByte_isDigit {d : ℕ} (h : d < 10) :
    (decide (48 ≤ digitByte d) && decide (digitByte d ≤ 57)) = true := by
  interval_cases d <;> decide

theorem digitByte_value {d : ℕ} (h : d < 10) : (digitByte d - 48).toUInt32 = UInt32.ofNat d := by
  interval_cases d <;> decide

theorem decimal_isDigit (n : ℕ) : ∀ c ∈ decimal n, (decide (48 ≤ c) && decide (c ≤ 57)) = true := by
  induction n using Nat.strong_induction_on with
  | h n ih =>
    intro c hc
    rw [decimal] at hc
    split at hc
    next hn =>
      obtain rfl := List.mem_singleton.mp hc
      exact digitByte_isDigit hn
    next hn =>
      obtain hc | hc := List.mem_append.mp hc
      · exact ih (n / 10) (by omega) c hc
      · obtain rfl := List.mem_singleton.mp hc
        exact digitByte_isDigit (Nat.mod_lt n (by decide))

/-- A decimal number holds no byte that is not a digit. -/
theorem decimal_free {spec : Bytes}
    (h : ∀ c ∈ spec, (decide (48 ≤ c) && decide (c ≤ 57)) = false) (n : ℕ) :
      Free spec (decimal n) := by
  intro c hc hs
  have := decimal_isDigit n c hc
  rw [h c hs] at this
  exact absurd this (by simp)

theorem decimal_ne_nil (n : ℕ) : decimal n ≠ [] := by
  rw [decimal]
  split <;> simp

theorem decimalInt_free {spec : Bytes}
    (h : ∀ c ∈ spec, (decide (48 ≤ c) && decide (c ≤ 57)) = false)
      (hm : (45 : UInt8) ∉ spec) (z : ℤ) :
    Free spec (decimalInt z) := by
  unfold decimalInt
  split
  · intro c hc
    obtain rfl | hc := List.mem_cons.mp hc
    · exact hm
    · exact decimal_free h _ c hc
  · exact decimal_free h _

/-- Each digit multiplies what was read by ten. -/
def addDigit (v : UInt32) (c : UInt8) : UInt32 := v * 10 + (c - 48).toUInt32

theorem foldl_decimal (n : ℕ) : (decimal n).foldl addDigit 0 = UInt32.ofNat n := by
  induction n using Nat.strong_induction_on with
  | h n ih =>
    rw [decimal]
    split
    next hn =>
      rw [List.foldl_cons, List.foldl_nil, addDigit, digitByte_value hn]
      simp
    next hn =>
      rw [List.foldl_append, ih (n / 10) (by omega), List.foldl_cons, List.foldl_nil, addDigit,
        digitByte_value (Nat.mod_lt n (by decide)), show (10 : UInt32) = UInt32.ofNat 10 from rfl,
        ← UInt32.ofNat_mul, ← UInt32.ofNat_add]
      congr 1
      omega

/-- What is read of a decimal number. -/
theorem pjStrtoul_decimal (n : ℕ) : pjStrtoul (decimal n) = UInt32.ofNat n := by
  have hall : (decimal n).takeWhile (fun c => 48 ≤ c && c ≤ 57) = decimal n :=
    List.takeWhile_eq_self_iff.mpr (decimal_isDigit n)
  rw [pjStrtoul, hall]
  exact foldl_decimal n

theorem jint_ofNat {n : ℕ} (h : n < 2 ^ 31) : jint (UInt32.ofNat n) = n := by
  rw [jint, Int32.toInt, UInt32.toBitVec_toInt32, UInt32.toBitVec_ofNat']
  rw [BitVec.toInt_eq_toNat_of_lt]
  · rw [BitVec.toNat_ofNat]
    omega
  · rw [BitVec.toNat_ofNat]
    omega

/-- A number that fits is read back if it has no sign, and as zero if it has one. -/
theorem jint_decimalInt {z : ℤ} (h : z < 2 ^ 31) :
    jint (pjStrtoul (decimalInt z)) = if z < 0 then 0 else z := by
  unfold decimalInt
  split
  next => rfl
  next hz =>
    rw [pjStrtoul_decimal, jint_ofNat (by omega)]
    omega

end PttTerminal
