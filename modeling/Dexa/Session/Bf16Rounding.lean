import Dexa.Lib.FloatFormat
import Dexa.Session.State

/-! # Conversion to `bfloat16` (`dexa/session/state.py`)

An addition of a bias and a shift, on the pattern.  Below the sign the pattern is the body of the
number, so the sum rounds the body (`roundShift`) and the carry moves mantissa, exponent and
infinity alike.  All of it stays in 32 bits for every pattern that is no NaN.
-/

namespace Dexa.Session

open Dexa.Lib

def float32 : FloatFormat := ⟨8, 23⟩

def bfloat16 : FloatFormat := ⟨8, 7⟩

/-- `bias`, which depends on the lowest kept bit. -/
def bias (u : BitVec 32) : BitVec 32 := ((u >>> 16) &&& 1#32) + 0x7FFF#32

/-- `_f32_to_bf16_bits`, one element. -/
def f32ToBf16Bits (u : BitVec 32) : BitVec 16 := ((u + bias u) >>> 16).setWidth 16

/-- `_bf16_bits_to_f32`, one element. -/
def bf16BitsToF32 (u16 : BitVec 16) : BitVec 32 := u16.setWidth 32 <<< 16

theorem floatToBf16_eq (u : BitVec 32) : floatToBf16 u = f32ToBf16Bits u := rfl

theorem bf16ToFloat_eq (b : BitVec 16) : bf16ToFloat b = bf16BitsToF32 b := rfl

theorem toNat_bias (u : BitVec 32) : (bias u).toNat = u.toNat / 2 ^ 16 % 2 + 0x7FFF := by
  have lsb : ((u >>> 16) &&& 1#32).toNat = u.toNat / 2 ^ 16 % 2 := by
    rw [BitVec.toNat_and, BitVec.toNat_ushiftRight, Nat.shiftRight_eq_div_pow]
    exact Nat.and_two_pow_sub_one_eq_mod _ 1
  rw [bias, BitVec.toNat_add, lsb, BitVec.toNat_ofNat]
  omega

/-- The carry out of the low half rounds the body; the sign is above it. -/
theorem div_add_bias (n : Nat) :
    (n + (n / 2 ^ 16 % 2 + 0x7FFF)) / 2 ^ 16 = n / 2 ^ 31 * 2 ^ 15 + roundShift
      (n % 2 ^ 31) 16 := by
  have split : n / 2 ^ 16 = n / 2 ^ 31 * 2 ^ 15 + n % 2 ^ 31 / 2 ^ 16 := by omega
  have low : n % 2 ^ 31 % 2 ^ 16 = n % 2 ^ 16 := by omega
  have odd : n / 2 ^ 16 % 2 = n % 2 ^ 31 / 2 ^ 16 % 2 := by omega
  have carry : (n + (n / 2 ^ 16 % 2 + 0x7FFF)) / 2 ^ 16 =
      n / 2 ^ 16 +
        (if 2 ^ 16 < 2 * (n % 2 ^ 16) ∨ 2 ^ 16 = 2 * (n % 2 ^ 16) ∧ n / 2 ^ 16 % 2 = 1 then 1
        else 0) := by
    split_ifs <;> omega
  simp only [roundShift, low, ← odd]
  rw [carry, split]
  split_ifs <;> omega

section Number

variable {u : BitVec 32} (number : ¬ float32.IsNaN u.toNat)
include number

/-- The body is at most that of the infinities. -/
theorem body_le : u.toNat % 2 ^ 31 ≤ 0x7F800000 := Nat.not_lt.1 number

theorem sum_lt : u.toNat + (bias u).toNat < 2 ^ 32 := by
  have range := u.isLt
  have body := body_le number
  rw [toNat_bias]
  omega

theorem toNat_f32ToBf16Bits : (f32ToBf16Bits u).toNat = bfloat16.narrow 16 u.toNat := by
  have range := u.isLt
  have body := body_le number
  have narrow : bfloat16.narrow 16 u.toNat = u.toNat / 2 ^ 31 * 2 ^ 15 + roundShift
    (u.toNat % 2 ^ 31) 16 := rfl
  have rounded := roundShift_le (u.toNat % 2 ^ 31) 16
  rw [narrow, f32ToBf16Bits, BitVec.toNat_setWidth, BitVec.toNat_ushiftRight, BitVec.toNat_add,
    Nat.mod_eq_of_lt (sum_lt number),
    toNat_bias, Nat.shiftRight_eq_div_pow, div_add_bias, Nat.mod_eq_of_lt (by omega)]

theorem body_f32ToBf16Bits :
    bfloat16.body (f32ToBf16Bits u).toNat = roundShift (float32.body u.toNat) 16 := by
  rw [toNat_f32ToBf16Bits number]
  exact bfloat16.body_narrow (k := 16) number

end Number

/-- Nothing is lost where the low half is zero. -/
theorem bf16BitsToF32_f32ToBf16Bits {u : BitVec 32} (exact : u.toNat % 2 ^ 16 = 0) :
    bf16BitsToF32 (f32ToBf16Bits u) = u := by
  have range := u.isLt
  have widened : u = bf16ToFloat (BitVec.ofNat 16 (u.toNat / 2 ^ 16)) := by
    apply BitVec.eq_of_toNat_eq
    rw [toNat_bf16ToFloat, BitVec.toNat_ofNat]
    omega
  rw [widened, ← floatToBf16_eq, floatToBf16_bf16ToFloat, bf16ToFloat_eq]

/-- The greatest finite number and half a step. -/
def overflow : ℚ := bfloat16.value 0x7F7F + (bfloat16.value 0x7F7F - bfloat16.value 0x7F7E) / 2

/-- Its pattern is half way to the infinity. -/
theorem overflow_eq : overflow = float32.magnitude 0x7F7F8000 := by
  norm_num [overflow, FloatFormat.value, FloatFormat.signed, FloatFormat.sign, FloatFormat.body,
    FloatFormat.magnitude,
    FloatFormat.units, FloatFormat.bias, float32, bfloat16]

theorem abs_value_lt_overflow (u : BitVec 32) : |float32.value u.toNat| < overflow ↔
    float32.body u.toNat < 0x7F7F8000 := by
  rw [float32.abs_value, overflow_eq, float32.magnitude_strictMono.lt_iff_lt]

/-- `u16` is the number of `u`, rounded to nearest with ties to even. -/
structure CorrectlyRounded (u : BitVec 32) (u16 : BitVec 16) : Prop where
  sign : bfloat16.sign u16.toNat = float32.sign u.toNat
  zero : float32.body u.toNat = 0 → bfloat16.body u16.toNat = 0
  finite : float32.IsFinite u.toNat → |float32.value u.toNat| < overflow →
    bfloat16.IsFinite u16.toNat
  nearest : float32.IsFinite u.toNat → |float32.value u.toNat| < overflow → ∀ b :
    BitVec 16, bfloat16.IsFinite b.toNat →
    |bfloat16.value u16.toNat - float32.value u.toNat| < |bfloat16.value b.toNat - float32.value u.toNat| ∨
      bfloat16.value b.toNat = bfloat16.value u16.toNat ∨
      |bfloat16.value u16.toNat - float32.value u.toNat| = |bfloat16.value b.toNat - float32.value u.toNat| ∧ u16.toNat % 2 = 0
  overflows : float32.IsFinite u.toNat → overflow ≤ |float32.value u.toNat| →
    bfloat16.body u16.toNat = bfloat16.infinity
  infinity : float32.body u.toNat = float32.infinity → bfloat16.body u16.toNat = bfloat16.infinity

theorem f32ToBf16Bits_rounds {u : BitVec 32} (number : ¬ float32.IsNaN u.toNat) :
    CorrectlyRounded u (f32ToBf16Bits u) where
  sign := by
    rw [toNat_f32ToBf16Bits number]
    exact bfloat16.sign_narrow (k := 16) number
  zero := by
    intro zero
    rw [body_f32ToBf16Bits number, zero]
    rfl
  finite := by
    intro _ below
    have rounded := roundShift_mono (Nat.le_of_lt_succ ((abs_value_lt_overflow u).1 below)) 16
    rw [FloatFormat.IsFinite, body_f32ToBf16Bits number]
    exact rounded.trans_lt (by decide)
  nearest := by
    intro _ _ b _
    have body : bfloat16.body (f32ToBf16Bits u).toNat % 2 = (f32ToBf16Bits u).toNat % 2 :=
      Nat.mod_mod_of_dvd _ (by decide)
    rw [← body, toNat_f32ToBf16Bits number]
    exact bfloat16.narrow_nearest (k := 16) number b.toNat
  overflows := by
    intro _ above
    have rounded := roundShift_mono (Nat.not_lt.1 (mt (abs_value_lt_overflow u).2 above.not_gt)) 16
    rw [body_f32ToBf16Bits number]
    exact Nat.le_antisymm (bfloat16.roundShift_body_le (k := 16) number) rounded
  infinity := by
    intro last
    rw [body_f32ToBf16Bits number, last]
    rfl

theorem f32ToBf16Bits_mono {u v : BitVec 32} (number : ¬ float32.IsNaN u.toNat)
    (number' : ¬ float32.IsNaN v.toNat)
    (ordered : float32.extended u.toNat ≤ float32.extended v.toNat) :
    bfloat16.extended (f32ToBf16Bits u).toNat ≤ bfloat16.extended (f32ToBf16Bits v).toNat := by
  have bit : ∀ w : BitVec 32, float32.sign w.toNat < 2 := fun w => Nat.div_lt_of_lt_mul w.isLt
  have bit' : ∀ w : BitVec 16, bfloat16.sign w.toNat < 2 := fun w => Nat.div_lt_of_lt_mul w.isLt
  rw [float32.extended_le_extended (by decide) number number' (bit u) (bit v)] at ordered
  have rounded := bfloat16.value_narrow_mono (k := 16) number number' ordered
  have left := bfloat16.not_isNaN_narrow (k := 16) number
  have right := bfloat16.not_isNaN_narrow (k := 16) number'
  rw [← toNat_f32ToBf16Bits number] at rounded left
  rw [← toNat_f32ToBf16Bits number'] at rounded right
  exact (bfloat16.extended_le_extended (by decide) left right (bit' _) (bit' _)).2 rounded

/-- The conversion stays in 32 bits, rounds to nearest, keeps the order and, without low bits,
    everything. -/
theorem f32ToBf16Bits_correct :
    (∀ u, ¬ float32.IsNaN u.toNat → u.toNat + (bias u).toNat < 2 ^ 32 ∧
      CorrectlyRounded u (f32ToBf16Bits u)) ∧
    (∀ u v, ¬ float32.IsNaN u.toNat → ¬ float32.IsNaN v.toNat →
      float32.extended u.toNat ≤ float32.extended v.toNat →
      bfloat16.extended (f32ToBf16Bits u).toNat ≤ bfloat16.extended (f32ToBf16Bits v).toNat) ∧
    ∀ u : BitVec 32, u.toNat % 2 ^ 16 = 0 → bf16BitsToF32 (f32ToBf16Bits u) = u :=
  ⟨fun _ number => ⟨sum_lt number, f32ToBf16Bits_rounds number⟩, fun _ _ => f32ToBf16Bits_mono,
    fun _ => bf16BitsToF32_f32ToBf16Bits⟩

end Dexa.Session
