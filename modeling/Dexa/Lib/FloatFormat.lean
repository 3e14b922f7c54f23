import Dexa.Lib.Floats
import Mathlib.Algebra.Order.Field.Basic
import Mathlib.Algebra.Order.Field.Rat
import Mathlib.Order.WithBot
import Mathlib.Tactic.FieldSimp
import Mathlib.Tactic.Linarith
import Mathlib.Tactic.Positivity
import Mathlib.Tactic.Ring

/-! # Binary floating-point formats and rounding to fewer bits

A pattern is a sign bit over a body: exponent and mantissa, read as one number.  The magnitude
grows with the body and is linear between two neighbours of a format with a shorter mantissa, so
dropping bits of the body by `roundShift` rounds the value to nearest, ties to even.
-/

namespace Dexa.Lib

/-- Point `q` is nearest to `x`, and even when another point is as near. -/
def NearestEven (grid : Nat → ℚ) (x : ℚ) (q : Nat) : Prop :=
  ∀ c, |grid q - x| < |grid c - x| ∨ c = q ∨ |grid q - x| = |grid c - x| ∧ q % 2 = 0

section Grid

variable {grid : Nat → ℚ} (grows : StrictMono grid) {b : Nat} {x : ℚ} (low : grid b ≤ x)
  (high : x ≤ grid (b + 1))
include grows low high

theorem nearestEven_low (nearer : x - grid b < grid (b + 1) - x ∨ x - grid b = grid (b + 1) - x ∧
    b % 2 = 0) :
    NearestEven grid x b := by
  intro c
  rw [abs_of_nonpos (sub_nonpos.2 low)]
  obtain below | rfl | above := Nat.lt_trichotomy c b
  · have := grows below
    rw [abs_of_nonpos (by linarith)]
    exact .inl (by linarith)
  · exact .inr (.inl rfl)
  · have next : grid (b + 1) ≤ grid c := grows.monotone (Nat.succ_le_of_lt above)
    rw [abs_of_nonneg (by linarith)]
    obtain less | ⟨tie, even⟩ := nearer
    · exact .inl (by linarith)
    · -- as near only where `c` is the other neighbour
      obtain same | less := next.eq_or_lt
      · exact .inr (.inr ⟨by linarith, even⟩)
      · exact .inl (by linarith)

theorem nearestEven_high (nearer : grid (b + 1) - x < x - grid b ∨ grid (b + 1) - x = x - grid b ∧
    (b + 1) % 2 = 0) :
    NearestEven grid x (b + 1) := by
  intro c
  rw [abs_of_nonneg (sub_nonneg.2 high)]
  obtain below | rfl | above := Nat.lt_trichotomy c (b + 1)
  · have next : grid c ≤ grid b := grows.monotone (Nat.le_of_lt_succ below)
    rw [abs_of_nonpos (by linarith)]
    obtain less | ⟨tie, even⟩ := nearer
    · exact .inl (by linarith)
    · obtain same | less := next.eq_or_lt
      · exact .inr (.inr ⟨by linarith, even⟩)
      · exact .inl (by linarith)
  · exact .inr (.inl rfl)
  · have := grows above
    rw [abs_of_nonneg (by linarith)]
    exact .inl (by linarith)

end Grid

/-- Sign, exponent and mantissa, with the usual bias; the greatest exponent is for infinities and
    NaN. -/
structure FloatFormat where
  exponentBits : Nat
  mantissaBits : Nat
  deriving DecidableEq, Repr

namespace FloatFormat

variable (fmt : FloatFormat)

def bias : Nat := 2 ^ (fmt.exponentBits - 1) - 1

def sign (bits : Nat) : Nat := bits / 2 ^ (fmt.exponentBits + fmt.mantissaBits)

def body (bits : Nat) : Nat := bits % 2 ^ (fmt.exponentBits + fmt.mantissaBits)

/-- The body of the infinities. -/
def infinity : Nat := (2 ^ fmt.exponentBits - 1) * 2 ^ fmt.mantissaBits

def IsFinite (bits : Nat) : Prop := fmt.body bits < fmt.infinity

def IsNaN (bits : Nat) : Prop := fmt.infinity < fmt.body bits

/-- A body's magnitude, counted in the least subnormal. -/
def units (a : Nat) : Nat :=
  let exponent := a / 2 ^ fmt.mantissaBits
  let mantissa := a % 2 ^ fmt.mantissaBits
  if exponent = 0 then mantissa else (2 ^ fmt.mantissaBits + mantissa) * 2 ^ (exponent - 1)

/-- The least subnormal is `2 ^ (1 - bias - mantissaBits)`. -/
def magnitude (a : Nat) : ℚ := 2 * fmt.units a / 2 ^ (fmt.bias + fmt.mantissaBits)

/-- The number with a sign and a body. -/
def signed (s a : Nat) : ℚ := (-1) ^ s * fmt.magnitude a

/-- The value of a finite pattern. -/
def value (bits : Nat) : ℚ := fmt.signed (fmt.sign bits) (fmt.body bits)

/-- The value of a pattern that is no NaN. -/
def extended (bits : Nat) : WithBot (WithTop ℚ) :=
  if fmt.body bits < fmt.infinity then ((fmt.value bits : WithTop ℚ) : WithBot (WithTop ℚ))
  else if fmt.sign bits = 0 then ((⊤ : WithTop ℚ) : WithBot (WithTop ℚ)) else ⊥

/-- The format with `k` more bits of mantissa. -/
def widen (k : Nat) : FloatFormat := ⟨fmt.exponentBits, fmt.mantissaBits + k⟩

/-- The distance to the next magnitude, in the least subnormal. -/
def gap (a : Nat) : Nat := 2 ^ (a / 2 ^ fmt.mantissaBits - 1)

theorem units_widen_of_lt {k r : Nat} (b : Nat) (inside : r < 2 ^ k) :
    (fmt.widen k).units (b * 2 ^ k + r) = fmt.units b * 2 ^ k + r * fmt.gap b := by
  have positive : 0 < 2 ^ k := Nat.two_pow_pos k
  have exponent : (b * 2 ^ k + r) / 2 ^ (fmt.mantissaBits + k) = b / 2 ^ fmt.mantissaBits := by
    rw [Nat.pow_add, Nat.mul_comm (2 ^ fmt.mantissaBits), ← Nat.div_div_eq_div_mul, Nat.mul_comm b,
      Nat.mul_add_div positive,
      Nat.div_eq_of_lt inside, Nat.add_zero]
  have mantissa : (b * 2 ^ k + r) % 2 ^ (fmt.mantissaBits + k) = b % 2 ^ fmt.mantissaBits * 2 ^ k +
    r := by
    rw [Nat.pow_add, Nat.mul_comm (2 ^ fmt.mantissaBits), Nat.mod_mul, Nat.mul_comm b,
      Nat.mul_add_mod, Nat.mod_eq_of_lt inside,
      Nat.mul_add_div positive, Nat.div_eq_of_lt inside, Nat.add_zero]
    ring
  simp only [units, widen, exponent, mantissa, gap]
  split
  case isTrue subnormal => rw [subnormal, Nat.zero_sub, Nat.pow_zero, Nat.mul_one]
  case isFalse =>
    rw [Nat.pow_add]
    ring

theorem units_succ (a : Nat) : fmt.units (a + 1) = fmt.units a + fmt.gap a := by
  have positive : 0 < 2 ^ fmt.mantissaBits := Nat.two_pow_pos _
  have split := Nat.div_add_mod a (2 ^ fmt.mantissaBits)
  have below := Nat.mod_lt a positive
  simp only [units, gap]
  generalize a / 2 ^ fmt.mantissaBits = e at split ⊢
  generalize a % 2 ^ fmt.mantissaBits = m at split below ⊢
  subst split
  by_cases last : m + 1 = 2 ^ fmt.mantissaBits
  · -- the exponent steps, the mantissa starts again
    have next : 2 ^ fmt.mantissaBits * e + m + 1 = 2 ^ fmt.mantissaBits * (e + 1) := by
      rw [Nat.mul_succ]
      omega
    rw [next, Nat.mul_div_cancel_left _ positive, Nat.mul_mod_right, if_neg (by omega),
      Nat.add_sub_cancel, Nat.add_zero,
      ← last]
    cases e with
    | zero => rw [if_pos rfl, Nat.zero_sub, Nat.pow_zero, Nat.mul_one]
    | succ e =>
      rw [if_neg (by omega), Nat.add_sub_cancel, Nat.pow_succ]
      ring
  · rw [Nat.add_assoc, Nat.mul_add_div positive, Nat.mul_add_mod,
      Nat.div_eq_of_lt (show m + 1 < _ by omega),
      Nat.mod_eq_of_lt (show m + 1 < _ by omega), Nat.add_zero]
    split
    case isTrue subnormal => rw [subnormal, Nat.zero_sub, Nat.pow_zero]
    case isFalse => ring

theorem units_strictMono : StrictMono fmt.units := by
  apply strictMono_nat_of_lt_succ
  intro a
  rw [units_succ]
  exact Nat.lt_add_of_pos_right (Nat.two_pow_pos _)

theorem magnitude_strictMono : StrictMono fmt.magnitude := by
  intro a b below
  have := fmt.units_strictMono below
  rw [magnitude, magnitude]
  gcongr

@[simp] theorem magnitude_zero : fmt.magnitude 0 = 0 := by
  simp [magnitude, units]

theorem magnitude_nonneg (a : Nat) : 0 ≤ fmt.magnitude a := by
  rw [magnitude]
  positivity

/-- Between two neighbours the wider format is linear. -/
theorem magnitude_widen {k r : Nat} (b : Nat) (inside : r < 2 ^ k) :
    ((fmt.widen k).magnitude (b * 2 ^ k + r) - fmt.magnitude b) * 2 ^ k =
      r * (fmt.magnitude (b + 1) - fmt.magnitude b) := by
  have power : (2 : ℚ) ^ ((fmt.widen k).bias + (fmt.widen k).mantissaBits) =
    2 ^ (fmt.bias + fmt.mantissaBits) * 2 ^ k := by
    rw [← pow_add, Nat.add_assoc]
    rfl
  rw [magnitude, magnitude, magnitude, units_widen_of_lt fmt b inside, units_succ, power]
  push_cast
  field_simp
  ring

/-- Dropping bits of the body rounds the magnitude. -/
theorem nearestEven_roundShift (k a : Nat) : NearestEven fmt.magnitude ((fmt.widen k).magnitude a)
    (roundShift a k) := by
  have inside : a % 2 ^ k < 2 ^ k := Nat.mod_lt a (Nat.two_pow_pos k)
  have gap : 0 < fmt.magnitude (a / 2 ^ k + 1) - fmt.magnitude (a / 2 ^ k) :=
    sub_pos.2 (fmt.magnitude_strictMono (Nat.lt_succ_self _))
  have linear := fmt.magnitude_widen (a / 2 ^ k) inside
  rw [Nat.mul_comm, Nat.div_add_mod] at linear
  generalize (fmt.widen k).magnitude a = x at linear ⊢
  have grows := fmt.magnitude_strictMono
  -- the distances to both neighbours, scaled
  have power : (0 : ℚ) < 2 ^ k := by positivity
  have rest : (fmt.magnitude (a / 2 ^ k + 1) - x) * 2 ^ k =
      (2 ^ k - a % 2 ^ k : Nat) * (fmt.magnitude (a / 2 ^ k + 1) - fmt.magnitude (a / 2 ^ k)) := by
    rw [Nat.cast_sub inside.le]
    push_cast
    linarith
  have low : fmt.magnitude (a / 2 ^ k) ≤ x := by
    rw [← sub_nonneg, ← mul_nonneg_iff_of_pos_right power, linear]
    positivity
  have high : x ≤ fmt.magnitude (a / 2 ^ k + 1) := by
    rw [← sub_nonneg, ← mul_nonneg_iff_of_pos_right power, rest]
    positivity
  simp only [roundShift]
  split
  -- above the middle, or in the middle below an even neighbour
  case isTrue up =>
    apply nearestEven_high grows low high
    rw [← mul_lt_mul_iff_left₀ power, ← mul_left_inj' power.ne', linear, rest,
      mul_lt_mul_iff_left₀ gap, mul_left_inj' gap.ne',
      Nat.cast_lt, Nat.cast_inj]
    omega
  case isFalse down =>
    apply nearestEven_low grows low high
    rw [← mul_lt_mul_iff_left₀ power, ← mul_left_inj' power.ne', linear, rest,
      mul_lt_mul_iff_left₀ gap, mul_left_inj' gap.ne',
      Nat.cast_lt, Nat.cast_inj]
    omega

/-! ## Signs -/

theorem signed_eq_or (s : Nat) : (∀ fmt : FloatFormat, ∀ a, fmt.signed s a = fmt.magnitude a) ∨
    (∀ fmt : FloatFormat, ∀ a, fmt.signed s a = -fmt.magnitude a) := by
  obtain positive | negative := neg_one_pow_eq_or ℚ s
  · exact .inl fun fmt a => by rw [signed, positive, one_mul]
  · exact .inr fun fmt a => by rw [signed, negative, neg_one_mul]

theorem abs_value (bits : Nat) : |fmt.value bits| = fmt.magnitude (fmt.body bits) := by
  have nonneg := fmt.magnitude_nonneg (fmt.body bits)
  rw [value]
  obtain plus | minus := signed_eq_or (fmt.sign bits)
  · rw [plus, abs_of_nonneg nonneg]
  · rw [minus, abs_neg, abs_of_nonneg nonneg]

/-- No number of the other sign is nearer: zero is between. -/
theorem nearestEven_opposite {x : ℚ} {q : Nat} (nonneg : 0 ≤ x)
    (near : NearestEven fmt.magnitude x q) (b : Nat) :
    |fmt.magnitude q - x| < fmt.magnitude b + x ∨ fmt.magnitude q = 0 ∧ fmt.magnitude b = 0 ∨
      |fmt.magnitude q - x| = fmt.magnitude b + x ∧ q % 2 = 0 := by
  have positive := fmt.magnitude_nonneg b
  have zero := near 0
  rw [magnitude_zero, zero_sub, abs_neg, abs_of_nonneg nonneg] at zero
  obtain nearer | rfl | ⟨tie, even⟩ := zero
  · exact .inl (by linarith)
  · rw [magnitude_zero, zero_sub, abs_neg, abs_of_nonneg nonneg]
    obtain vanishes | less := positive.eq_or_lt
    · exact .inr (.inl ⟨rfl, vanishes.symm⟩)
    · exact .inl (by linarith)
  · obtain vanishes | less := positive.eq_or_lt
    · exact .inr (.inr ⟨by linarith, even⟩)
    · exact .inl (by linarith)

/-- A nearest magnitude with the number's sign is nearest among all numbers. -/
theorem signed_nearest {k a q : Nat}
    (near : NearestEven fmt.magnitude ((fmt.widen k).magnitude a) q) (s t b : Nat) :
    |fmt.signed s q - (fmt.widen k).signed s a| < |fmt.signed t b - (fmt.widen k).signed s a| ∨
      fmt.signed t b = fmt.signed s q ∨
      |fmt.signed s q - (fmt.widen k).signed s a| = |fmt.signed t b - (fmt.widen k).signed s a| ∧
        q % 2 = 0 := by
  have nonneg := (fmt.widen k).magnitude_nonneg a
  have positive := fmt.magnitude_nonneg b
  have same := near b
  have opposite := fmt.nearestEven_opposite nonneg near b
  obtain plus | minus := signed_eq_or s
  · obtain plus' | minus' := signed_eq_or t
    · rw [plus, plus, plus']
      exact same.imp_right (Or.imp_left (congrArg _))
    -- numbers of different signs: the distances add up
    · have below : -fmt.magnitude b - (fmt.widen k).magnitude a ≤ 0 := by linarith
      rw [plus, plus, minus', abs_of_nonpos below, neg_sub, sub_neg_eq_add,
        add_comm _ (fmt.magnitude b)]
      refine opposite.imp_right (Or.imp_left fun zeros => ?_)
      rw [zeros.1, zeros.2, neg_zero]
  · obtain plus' | minus' := signed_eq_or t
    · have above : 0 ≤ fmt.magnitude b + (fmt.widen k).magnitude a := by linarith
      rw [minus, minus, plus', neg_sub_neg, abs_sub_comm, sub_neg_eq_add, abs_of_nonneg above]
      refine opposite.imp_right (Or.imp_left fun zeros => ?_)
      rw [zeros.1, zeros.2, neg_zero]
    · rw [minus, minus, minus', neg_sub_neg, neg_sub_neg, abs_sub_comm,
        abs_sub_comm _ (fmt.magnitude b)]
      exact same.imp_right (Or.imp_left fun index => by rw [index])

theorem signed_mono {k s t a b : Nat}
    (ordered : (fmt.widen k).signed s a ≤ (fmt.widen k).signed t b) :
    fmt.signed s (roundShift a k) ≤ fmt.signed t (roundShift b k) := by
  have left := fmt.magnitude_nonneg (roundShift a k)
  have right := fmt.magnitude_nonneg (roundShift b k)
  have grows := (fmt.widen k).magnitude_strictMono
  have rounds : Monotone fun m => fmt.magnitude (roundShift m k) :=
    fmt.magnitude_strictMono.monotone.comp fun _ _ below => roundShift_mono below k
  obtain plus | minus := signed_eq_or s
  · obtain plus' | minus' := signed_eq_or t
    · rw [plus, plus', grows.le_iff_le] at ordered
      rw [plus, plus']
      exact rounds ordered
    · -- both are zero
      rw [plus, minus'] at ordered
      have zeros : ∀ m, (fmt.widen k).magnitude m ≤ 0 → m = 0 := by
        intro m least
        rw [← (fmt.widen k).magnitude_zero, grows.le_iff_le] at least
        omega
      have := (fmt.widen k).magnitude_nonneg a
      have := (fmt.widen k).magnitude_nonneg b
      rw [plus, minus', zeros a (by linarith), zeros b (by linarith),
        roundShift_eq_zero.2 (by positivity), magnitude_zero,
        neg_zero]
  · obtain plus' | minus' := signed_eq_or t
    · rw [minus, plus']
      linarith
    · rw [minus, minus', neg_le_neg_iff, grows.le_iff_le] at ordered
      rw [minus, minus', neg_le_neg_iff]
      exact rounds ordered

/-! ## Patterns -/

theorem infinity_lt : fmt.infinity < 2 ^ (fmt.exponentBits + fmt.mantissaBits) := by
  rw [infinity, Nat.pow_add]
  exact Nat.mul_lt_mul_of_pos_right (Nat.sub_lt (Nat.two_pow_pos _) Nat.one_pos) (Nat.two_pow_pos _)

theorem infinity_widen (k : Nat) : (fmt.widen k).infinity = fmt.infinity * 2 ^ k := by
  rw [infinity, infinity, Nat.mul_assoc, ← Nat.pow_add]
  rfl

/-- The pattern of the shorter format, `k` bits rounded away. -/
def narrow (k bits : Nat) : Nat :=
  (fmt.widen k).sign bits * 2 ^ (fmt.exponentBits + fmt.mantissaBits) + roundShift
    ((fmt.widen k).body bits) k

section Narrow

variable {k bits : Nat} (number : ¬ (fmt.widen k).IsNaN bits)
include number

theorem roundShift_body_le : roundShift ((fmt.widen k).body bits) k ≤ fmt.infinity := by
  have rounded := roundShift_mono (Nat.not_lt.1 number) k
  rwa [infinity_widen, roundShift_mul] at rounded

theorem sign_narrow : fmt.sign (fmt.narrow k bits) = (fmt.widen k).sign bits := by
  have small := (fmt.roundShift_body_le number).trans_lt fmt.infinity_lt
  rw [sign, narrow, Nat.mul_comm, Nat.mul_add_div (Nat.two_pow_pos _), Nat.div_eq_of_lt small,
    Nat.add_zero]

theorem body_narrow : fmt.body (fmt.narrow k bits) = roundShift ((fmt.widen k).body bits) k := by
  have small := (fmt.roundShift_body_le number).trans_lt fmt.infinity_lt
  rw [body, narrow, Nat.mul_comm, Nat.mul_add_mod, Nat.mod_eq_of_lt small]

theorem not_isNaN_narrow : ¬ fmt.IsNaN (fmt.narrow k bits) := by
  rw [IsNaN, body_narrow fmt number]
  exact Nat.not_lt.2 (fmt.roundShift_body_le number)

/-- No pattern is nearer, and one that is as near has another value only if the result is even. -/
theorem narrow_nearest (c : Nat) :
    |fmt.value
      (fmt.narrow k bits) - (fmt.widen k).value bits| < |fmt.value c - (fmt.widen k).value bits| ∨
      fmt.value c = fmt.value (fmt.narrow k bits) ∨
      |fmt.value
        (fmt.narrow k bits) - (fmt.widen k).value bits| = |fmt.value c - (fmt.widen k).value bits| ∧
        fmt.body (fmt.narrow k bits) % 2 = 0 := by
  rw [value, value, sign_narrow fmt number, body_narrow fmt number]
  exact fmt.signed_nearest (fmt.nearestEven_roundShift k _) _ _ _

end Narrow

theorem value_narrow_mono {k bits bits' : Nat} (number : ¬ (fmt.widen k).IsNaN bits)
    (number' : ¬ (fmt.widen k).IsNaN bits')
    (ordered : (fmt.widen k).value bits ≤ (fmt.widen k).value bits') :
    fmt.value (fmt.narrow k bits) ≤ fmt.value (fmt.narrow k bits') := by
  rw [value, value, sign_narrow fmt number, body_narrow fmt number, sign_narrow fmt number',
    body_narrow fmt number']
  exact fmt.signed_mono ordered

theorem extended_cases {bits : Nat} (number : ¬ fmt.IsNaN bits) (bit : fmt.sign bits < 2) :
    fmt.extended bits = ((fmt.value bits : WithTop ℚ) : WithBot (WithTop ℚ)) ∧ |fmt.value bits| <
      fmt.magnitude fmt.infinity ∨
    fmt.extended bits = ((⊤ : WithTop ℚ) : WithBot (WithTop ℚ)) ∧
      fmt.value bits = fmt.magnitude fmt.infinity ∨
    fmt.extended bits = ⊥ ∧ fmt.value bits = -fmt.magnitude fmt.infinity := by
  by_cases finite : fmt.body bits < fmt.infinity
  · refine .inl ⟨if_pos finite, ?_⟩
    rw [abs_value]
    exact fmt.magnitude_strictMono finite
  · have last : fmt.body bits = fmt.infinity := by
      rw [IsNaN] at number
      omega
    rw [extended, if_neg finite, value, last]
    obtain plus | minus : fmt.sign bits = 0 ∨ fmt.sign bits = 1 := by omega
    · rw [plus, if_pos rfl, signed, pow_zero, one_mul]
      exact .inr (.inl ⟨rfl, rfl⟩)
    · rw [minus, if_neg Nat.one_ne_zero, signed, pow_one, neg_one_mul]
      exact .inr (.inr ⟨rfl, rfl⟩)

/-- An infinity is ordered as if the numbers went on. -/
theorem extended_le_extended (least : 0 < fmt.infinity) {bits bits' : Nat}
    (number : ¬ fmt.IsNaN bits)
    (number' : ¬ fmt.IsNaN bits') (bit : fmt.sign bits < 2) (bit' : fmt.sign bits' < 2) :
    fmt.extended bits ≤ fmt.extended bits' ↔ fmt.value bits ≤ fmt.value bits' := by
  have positive := fmt.magnitude_strictMono least
  rw [magnitude_zero] at positive
  obtain ⟨left, inside⟩ | ⟨left, top⟩ | ⟨left, bottom⟩ := fmt.extended_cases number bit
  · rw [abs_lt] at inside
    obtain ⟨right, inside'⟩ | ⟨right, top'⟩ | ⟨right, bottom'⟩ := fmt.extended_cases number' bit'
    · rw [left, right, WithBot.coe_le_coe, WithTop.coe_le_coe]
    · rw [left, right, WithBot.coe_le_coe, top']
      exact iff_of_true le_top inside.2.le
    · rw [left, right, bottom']
      exact iff_of_false (WithBot.bot_lt_coe _).not_ge (not_le.2 inside.1)
  · obtain ⟨right, inside'⟩ | ⟨right, top'⟩ | ⟨right, bottom'⟩ := fmt.extended_cases number' bit'
    · rw [left, right, WithBot.coe_le_coe, top]
      rw [abs_lt] at inside'
      exact iff_of_false (WithTop.coe_lt_top _).not_ge (not_le.2 inside'.2)
    · rw [left, right, top, top']
      exact iff_of_true le_rfl le_rfl
    · rw [left, right, top, bottom']
      refine iff_of_false (WithBot.bot_lt_coe _).not_ge (not_le.2 ?_)
      linarith
  · rw [left, bottom]
    refine iff_of_true bot_le ?_
    obtain ⟨-, inside'⟩ | ⟨-, top'⟩ | ⟨-, bottom'⟩ := fmt.extended_cases number' bit'
    · exact (abs_lt.1 inside').1.le
    · rw [top']
      linarith
    · rw [bottom']

end FloatFormat

end Dexa.Lib
