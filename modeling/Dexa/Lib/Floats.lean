import Mathlib.Data.BitVec
import Mathlib.Data.Nat.Log
import Mathlib.Tactic.IntervalCases
import Mathlib.Tactic.NormNum

/-! # Conversions between number formats, on bit patterns

IEEE single and half precision, bfloat16 (the high half of a single) and unsigned 16-bit
integers.  Narrowing rounds to nearest, ties to even; each format survives being widened to
single precision and narrowed again.
-/

namespace Dexa.Lib

/-- A single from its sign, biased exponent and mantissa. -/
def single (sign exponent mantissa : Nat) : BitVec 32 :=
  BitVec.ofNat 32 (sign * 2 ^ 31 + exponent * 2 ^ 23 + mantissa)

def signOf (u : BitVec 32) : Nat := u.toNat / 2 ^ 31

def exponentOf (u : BitVec 32) : Nat := u.toNat / 2 ^ 23 % 2 ^ 8

def mantissaOf (u : BitVec 32) : Nat := u.toNat % 2 ^ 23

section Fields

variable {sign exponent mantissa : Nat} (hs : sign < 2) (he : exponent < 2 ^ 8)
  (hm : mantissa < 2 ^ 23)
include hs he hm

theorem toNat_single : (single sign exponent mantissa).toNat = sign * 2 ^ 31 + exponent * 2 ^ 23 +
    mantissa := by
  rw [single, BitVec.toNat_ofNat, Nat.mod_eq_of_lt]
  omega

theorem signOf_single : signOf (single sign exponent mantissa) = sign := by
  rw [signOf, toNat_single hs he hm]
  omega

theorem exponentOf_single : exponentOf (single sign exponent mantissa) = exponent := by
  rw [exponentOf, toNat_single hs he hm]
  omega

theorem mantissaOf_single : mantissaOf (single sign exponent mantissa) = mantissa := by
  rw [mantissaOf, toNat_single hs he hm]
  omega

end Fields

/-- `m / 2^k`, rounded to nearest, ties to even. -/
def roundShift (m k : Nat) : Nat :=
  let q := m / 2 ^ k
  let r := m % 2 ^ k
  if 2 ^ k < 2 * r ∨ 2 ^ k = 2 * r ∧ q % 2 = 1 then q + 1 else q

theorem roundShift_mul (q k : Nat) : roundShift (q * 2 ^ k) k = q := by
  have positive : 0 < 2 ^ k := Nat.two_pow_pos k
  simp only [roundShift, Nat.mul_div_cancel q positive, Nat.mul_mod_left]
  rw [if_neg]
  omega

theorem roundShift_eq_zero {m k : Nat} : roundShift m k = 0 ↔ 2 * m ≤ 2 ^ k := by
  have positive : 0 < 2 ^ k := Nat.two_pow_pos k
  simp only [roundShift]
  by_cases below : m < 2 ^ k
  · rw [Nat.div_eq_of_lt below, Nat.mod_eq_of_lt below]
    split <;> omega
  · have := Nat.div_pos (Nat.not_lt.1 below) positive
    split <;> omega

theorem roundShift_le (m k : Nat) : roundShift m k ≤ m / 2 ^ k + 1 := by
  simp only [roundShift]
  split <;> omega

theorem roundShift_mono {m n : Nat} (below : m ≤ n) (k : Nat) :
    roundShift m k ≤ roundShift n k := by
  have quotients : m / 2 ^ k ≤ n / 2 ^ k := Nat.div_le_div_right below
  have left := Nat.div_add_mod m (2 ^ k)
  have right := Nat.div_add_mod n (2 ^ k)
  obtain less | same := quotients.lt_or_eq
  · refine (roundShift_le m k).trans ?_
    simp only [roundShift]
    split <;> omega
  · rw [same] at left
    simp only [roundShift, same]
    split <;> split <;> omega

def halfToFloat (h : BitVec 16) : BitVec 32 :=
  let sign := h.toNat / 2 ^ 15
  let exponent := h.toNat / 2 ^ 10 % 2 ^ 5
  let mantissa := h.toNat % 2 ^ 10
  if exponent = 31 then single sign 255 (mantissa * 2 ^ 13)
  else if exponent ≠ 0 then single sign (exponent + 112) (mantissa * 2 ^ 13)
  else if mantissa = 0 then single sign 0 0
  -- a subnormal half is a normal single
  else single sign (103 + Nat.log 2 mantissa)
    ((mantissa - 2 ^ Nat.log 2 mantissa) * 2 ^ (23 - Nat.log 2 mantissa))

/-- Exponent and mantissa of the nearest half. -/
def halfMagnitude (exponent mantissa : Nat) : Nat :=
  if exponent = 255 then
    if mantissa = 0 then 31 * 2 ^ 10 else 31 * 2 ^ 10 + max (mantissa / 2 ^ 13) 1
  else if 143 ≤ exponent then 31 * 2 ^ 10
  else if 113 ≤ exponent then (exponent - 112) * 2 ^ 10 + roundShift mantissa 13
  else if exponent = 0 then roundShift mantissa 125
  else roundShift (2 ^ 23 + mantissa) (126 - exponent)

theorem halfMagnitude_lt {exponent mantissa : Nat} (he : exponent < 2 ^ 8)
    (hm : mantissa < 2 ^ 23) :
    halfMagnitude exponent mantissa < 2 ^ 15 := by
  rw [halfMagnitude]
  split_ifs
  · omega
  · omega
  · omega
  · have := roundShift_le mantissa 13
    omega
  · have := roundShift_le mantissa 125
    rw [Nat.div_eq_of_lt (hm.trans (by norm_num))] at this
    omega
  · have := roundShift_le (2 ^ 23 + mantissa) (126 - exponent)
    have : (2 ^ 23 + mantissa) / 2 ^ (126 - exponent) ≤ (2 ^ 23 + mantissa) / 2 ^ 14 :=
      Nat.div_le_div_left (Nat.pow_le_pow_right (by omega) (by omega)) (by omega)
    omega

def floatToHalf (u : BitVec 32) : BitVec 16 :=
  BitVec.ofNat 16 (signOf u * 2 ^ 15 + halfMagnitude (exponentOf u) (mantissaOf u))

theorem floatToHalf_single {sign exponent mantissa : Nat} (hs : sign < 2) (he : exponent < 2 ^ 8)
    (hm : mantissa < 2 ^ 23) :
    floatToHalf (single sign exponent mantissa) = BitVec.ofNat 16
      (sign * 2 ^ 15 + halfMagnitude exponent mantissa) := by
  rw [floatToHalf, signOf_single hs he hm, exponentOf_single hs he hm, mantissaOf_single hs he hm]

/-- A number with leading bit `k`, without that bit and moved up to the mantissa of a single. -/
theorem leading_bit {m k : Nat} (low : 2 ^ k ≤ m) (high : m < 2 ^ (k + 1)) (bound : k ≤ 23) :
    (m - 2 ^ k) * 2 ^ (23 - k) < 2 ^ 23 ∧
      2 ^ 23 + (m - 2 ^ k) * 2 ^ (23 - k) = m * 2 ^ (23 - k) := by
  have split : 2 ^ 23 = 2 ^ k * 2 ^ (23 - k) := by
    rw [← Nat.pow_add]
    congr 1
    omega
  constructor
  · rw [split]
    apply Nat.mul_lt_mul_of_pos_right _ (Nat.two_pow_pos _)
    rw [Nat.pow_succ] at high
    omega
  · rw [split, ← Nat.add_mul, Nat.add_sub_cancel' low]

/-- The leading bit of a number below `2^n` is below `n`. -/
theorem leading_lt {m k n : Nat} (low : 2 ^ k ≤ m) (small : m < 2 ^ n) : k < n := by
  by_contra large
  have : 2 ^ n ≤ 2 ^ k := Nat.pow_le_pow_right (by omega) (by omega)
  omega

/-- A subnormal half, as the significand of a single. -/
theorem halfMagnitude_subnormal {m : Nat} (positive : m ≠ 0) (small : m < 2 ^ 10) :
    (m - 2 ^ Nat.log 2 m) * 2 ^ (23 - Nat.log 2 m) < 2 ^ 23 ∧ Nat.log 2 m < 10 ∧
      halfMagnitude (103 + Nat.log 2 m) ((m - 2 ^ Nat.log 2 m) * 2 ^ (23 - Nat.log 2 m)) = m := by
  have low : 2 ^ Nat.log 2 m ≤ m := Nat.pow_log_le_self 2 positive
  have high : m < 2 ^ (Nat.log 2 m + 1) := Nat.lt_pow_succ_log_self (by omega) m
  have bound : Nat.log 2 m < 10 := leading_lt low small
  obtain ⟨fits, mantissa⟩ := leading_bit low high (by omega)
  refine ⟨fits, bound, ?_⟩
  rw [halfMagnitude, if_neg (by omega), if_neg (by omega), if_neg (by omega), if_neg (by omega),
    mantissa,
    show 126 - (103 + Nat.log 2 m) = 23 - Nat.log 2 m by omega, roundShift_mul]

/-- Infinities and NaN keep their payload. -/
theorem halfMagnitude_special (m : Nat) : halfMagnitude 255 (m * 2 ^ 13) = 31 * 2 ^ 10 + m := by
  cases m with
  | zero => decide
  | succ m =>
    rw [halfMagnitude, if_pos rfl, if_neg (by simp), Nat.mul_div_cancel _ (by omega),
      Nat.max_eq_left (by omega)]

theorem floatToHalf_halfToFloat (h : BitVec 16) : floatToHalf (halfToFloat h) = h := by
  have range := h.isLt
  have sign : h.toNat / 2 ^ 15 < 2 := by omega
  have fields : ∀ magnitude, magnitude = h.toNat % 2 ^ 15 →
      BitVec.ofNat 16 (h.toNat / 2 ^ 15 * 2 ^ 15 + magnitude) = h := by
    intro magnitude same
    apply BitVec.eq_of_toNat_eq
    rw [BitVec.toNat_ofNat, same]
    omega
  rw [halfToFloat]
  split
  next special =>
    rw [floatToHalf_single sign (by omega) (by omega)]
    apply fields
    rw [halfMagnitude_special]
    omega
  split
  next finite normal =>
    rw [floatToHalf_single sign (by omega) (by omega)]
    apply fields
    rw [halfMagnitude, if_neg (by omega), if_neg (by omega), if_pos (by omega), roundShift_mul]
    omega
  split
  next zero =>
    rw [floatToHalf_single sign (by omega) (by omega)]
    apply fields
    rw [show halfMagnitude 0 0 = 0 by decide]
    omega
  next subnormal =>
    obtain ⟨fits, bound, same⟩ := halfMagnitude_subnormal subnormal (by omega)
    rw [floatToHalf_single sign (by omega) fits]
    apply fields
    rw [same]
    omega

/-- Round to the high half; `u + bias` wraps. -/
def floatToBf16 (u : BitVec 32) : BitVec 16 :=
  let bias := ((u >>> 16) &&& 1#32) + 0x7FFF#32
  ((u + bias) >>> 16).setWidth 16

def bf16ToFloat (b : BitVec 16) : BitVec 32 := b.setWidth 32 <<< 16

theorem toNat_bf16ToFloat (b : BitVec 16) : (bf16ToFloat b).toNat = b.toNat * 2 ^ 16 := by
  have range := b.isLt
  rw [bf16ToFloat, BitVec.toNat_shiftLeft, BitVec.toNat_setWidth, Nat.shiftLeft_eq]
  omega

theorem floatToBf16_bf16ToFloat (b : BitVec 16) : floatToBf16 (bf16ToFloat b) = b := by
  have range := b.isLt
  have lsb : ((bf16ToFloat b >>> 16) &&& 1#32).toNat = b.toNat % 2 := by
    rw [BitVec.toNat_and, BitVec.toNat_ushiftRight, toNat_bf16ToFloat, Nat.shiftRight_eq_div_pow,
      Nat.mul_div_cancel _ (by omega)]
    exact Nat.and_two_pow_sub_one_eq_mod b.toNat 1
  -- the low half of the sum stays below `2^16`: nothing is carried
  have bias : (((bf16ToFloat b >>> 16) &&& 1#32) + 0x7FFF#32).toNat = b.toNat % 2 + 0x7FFF := by
    rw [BitVec.toNat_add, lsb, BitVec.toNat_ofNat]
    omega
  have sum : (bf16ToFloat b + (((bf16ToFloat b >>> 16) &&& 1#32) + 0x7FFF#32)).toNat =
      b.toNat * 2 ^ 16 + (b.toNat % 2 + 0x7FFF) := by
    rw [BitVec.toNat_add, bias, toNat_bf16ToFloat, Nat.mod_eq_of_lt (by omega)]
  apply BitVec.eq_of_toNat_eq
  rw [floatToBf16, BitVec.toNat_setWidth, BitVec.toNat_ushiftRight, sum, Nat.shiftRight_eq_div_pow,
    Nat.mul_comm,
    Nat.mul_add_div (by omega), Nat.div_eq_of_lt (by omega), Nat.add_zero, Nat.mod_eq_of_lt range]

/-- The single of an integer below `2^16`, which it represents exactly. -/
def uint16ToFloat (n : BitVec 16) : BitVec 32 :=
  if n = 0 then 0
  else single 0 (127 + Nat.log 2 n.toNat)
    ((n.toNat - 2 ^ Nat.log 2 n.toNat) * 2 ^ (23 - Nat.log 2 n.toNat))

/-- No integer of `k + 1` bits has the same bits as a single, shifted down. -/
theorem single_ne_shifted {n k : Nat} (bound : k < 16) (low : 2 ^ k ≤ n) (high : n < 2 ^ (k + 1)) :
    (127 + k) * 2 ^ 23 + (n - 2 ^ k) * 2 ^ (23 - k) ≠ n * 2 ^ 16 := by
  obtain ⟨rest, rfl⟩ := Nat.exists_eq_add_of_le low
  rw [Nat.add_sub_cancel_left]
  interval_cases k <;> norm_num at high ⊢ <;> omega

/-- Only zero is the same number as an integer and as a bfloat16. -/
theorem uint16ToFloat_eq_bf16ToFloat {b : BitVec 16} : uint16ToFloat b = bf16ToFloat b ↔ b = 0 := by
  constructor
  · intro same
    by_contra nonzero
    have positive : b.toNat ≠ 0 := fun zero => nonzero (BitVec.eq_of_toNat_eq zero)
    have range := b.isLt
    have low : 2 ^ Nat.log 2 b.toNat ≤ b.toNat := Nat.pow_log_le_self 2 positive
    have high : b.toNat < 2 ^ (Nat.log 2 b.toNat + 1) := Nat.lt_pow_succ_log_self (by omega) _
    rw [uint16ToFloat, if_neg nonzero] at same
    have value := congrArg BitVec.toNat same
    generalize Nat.log 2 b.toNat = k at low high value
    have bound : k < 16 := leading_lt low range
    obtain ⟨mantissa, _⟩ := leading_bit low high (by omega)
    rw [toNat_bf16ToFloat, toNat_single (by omega) (by omega) mantissa, Nat.zero_mul,
      Nat.zero_add] at value
    exact single_ne_shifted bound low high value
  · rintro rfl
    decide

end Dexa.Lib
