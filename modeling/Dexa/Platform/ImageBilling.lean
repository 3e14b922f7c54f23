import Mathlib.Tactic.Linarith
import Mathlib.Tactic.FieldSimp
import Mathlib.Data.Rat.Floor
import Mathlib.Algebra.Order.Field.Basic
import Dexa.Platform.Pricing

/-! # When image billing degenerates

Every scheme scales the two sides separately.  A side that is short enough rounds to nothing, or is
raised to one block while the other keeps its length; how short is a matter of the aspect ratio.
-/

namespace Dexa.Platform

/-- An even bound is kept up to its half. -/
theorem roundHalfEven_le_iff {q : ℚ} {n : Int} (even : n % 2 = 0) : roundHalfEven q ≤ n ↔
    q ≤ n + 1 / 2 := by
  have below : (q.floor : ℚ) ≤ q := Rat.floor_le q
  have above : q < q.floor + 1 := by exact_mod_cast Rat.lt_floor_add_one q
  have reach : q.floor ≤ n ↔ (q.floor : ℚ) ≤ n := Int.cast_le.symm
  have reachNext : q.floor + 1 ≤ n ↔ (q.floor : ℚ) + 1 ≤ n := by exact_mod_cast Int.cast_le.symm
  have beyond : ¬q.floor ≤ n → (n : ℚ) + 1 ≤ q.floor :=
    fun past => by exact_mod_cast Int.add_one_le_of_lt (not_le.1 past)
  simp only [roundHalfEven]
  split_ifs with low high tie
  · constructor
    · intro le
      linarith [reach.1 le]
    · intro le
      by_contra past
      linarith [beyond past]
  · constructor
    · intro le
      linarith [reachNext.1 le]
    · intro le
      by_contra past
      have : (n : ℚ) < q.floor + 1 := by exact_mod_cast not_le.1 past
      have : (n : ℚ) ≤ q.floor := by exact_mod_cast Int.lt_add_one_iff.1 (not_le.1 past)
      linarith
  · constructor
    · intro le
      linarith [reach.1 le]
    · intro le
      by_contra past
      linarith [beyond past]
  · -- an odd number below an even one is below its predecessor
    have odd : q.floor + 1 ≤ n ↔ q.floor ≤ n := by omega
    rw [odd, reach]
    constructor <;> intro le <;> linarith

theorem roundHalfEven_le_of_lt {q : ℚ} {n : Int} (under : q < n + 1 / 2) : roundHalfEven q ≤ n := by
  have below : (q.floor : ℚ) ≤ q := Rat.floor_le q
  have reach : q.floor ≤ n := by
    have : (q.floor : ℚ) < (n + 1 : Int) := by
      push_cast
      linarith
    exact Int.lt_add_one_iff.1 (Int.cast_lt.1 this)
  simp only [roundHalfEven]
  split_ifs with low high tie
  · exact reach
  · have : (q.floor : ℚ) < n := by linarith
    exact Int.add_one_le_of_lt (Int.cast_lt.1 this)
  · exact reach
  · have : (q.floor : ℚ) < n := by linarith
    exact Int.add_one_le_of_lt (Int.cast_lt.1 this)

theorem toNat_roundHalfEven_le_iff {q : ℚ} {n : Nat} (even : n % 2 = 0) :
    (roundHalfEven q).toNat ≤ n ↔ q ≤ n + 1 / 2 := by
  rw [Int.toNat_le, roundHalfEven_le_iff (by omega), Int.cast_natCast]

theorem toNat_roundHalfEven_pos_iff {q : ℚ} : 1 ≤ (roundHalfEven q).toNat ↔ 1 / 2 < q := by
  have zero := toNat_roundHalfEven_le_iff (q := q) (n := 0) rfl
  rw [Nat.cast_zero, zero_add] at zero
  rw [← not_le, ← zero]
  omega

namespace Pricing

theorem floorSqrt_lt_iff {q : ℚ} (nonneg : 0 ≤ q) {n : Nat} : floorSqrt q < n ↔ q < n ^ 2 := by
  have floor : 0 ≤ q.floor := Rat.le_floor_iff.2 (by simpa using nonneg)
  have square : ((n ^ 2 : Nat) : Int) = (n : Int) ^ 2 := Nat.cast_pow n 2
  rw [floorSqrt, Nat.sqrt_lt', ← Int.ofNat_lt, Int.toNat_of_nonneg floor, Rat.floor_lt_iff, square]
  norm_cast

theorem floorSqrt_sq_le {q : ℚ} (nonneg : 0 ≤ q) : (floorSqrt q : ℚ) ^ 2 ≤ q :=
  not_lt.1 (mt (floorSqrt_lt_iff nonneg).2 (lt_irrefl _))

theorem roundSqrt_pos_iff {q : ℚ} (nonneg : 0 ≤ q) : 1 ≤ roundSqrt q ↔ 1 / 4 < q := by
  have small : floorSqrt q < 1 ↔ q < 1 := by simpa using floorSqrt_lt_iff nonneg (n := 1)
  by_cases under : floorSqrt q < 1
  · have zero : floorSqrt q = 0 := by omega
    simp only [roundSqrt, zero]
    norm_num
    split_ifs with low high <;> simp <;> linarith
  · have large : 1 ≤ q := not_lt.1 (mt small.2 under)
    have counted : 1 ≤ roundSqrt q := by
      simp only [roundSqrt]
      split_ifs <;> omega
    exact iff_of_true counted (by linarith)

/-- One side of `scaled`. -/
def scaledSide (s : ℚ) (x : Nat) : Nat := (roundHalfEven (x * s)).toNat

theorem scaled_eq (s : ℚ) (wh : Nat × Nat) : scaled s wh = (scaledSide s wh.1, scaledSide s wh.2) :=
  rfl

theorem scaledSide_le {s : ℚ} {x n : Nat} (even : n % 2 = 0) (fits : x * s ≤ n) :
    scaledSide s x ≤ n := by
  rw [scaledSide, toNat_roundHalfEven_le_iff even]
  linarith

theorem scaledSide_pos_iff {s : ℚ} {x : Nat} : 1 ≤ scaledSide s x ↔ 1 / 2 < x * s :=
  toNat_roundHalfEven_pos_iff

/-- The first step of the tiling fits both sides in 2048; a side vanishes where it is a 4096th of
    the longer one. -/
theorem scaledSide_2048 {x long : Nat} (within : x ≤ long) (large : 2048 < long) :
    scaledSide (2048 / long) x ≤ 2048 ∧ (1 ≤ scaledSide (2048 / long) x ↔ long < 4096 * x) := by
  have positive : (0 : ℚ) < long := by exact_mod_cast (show 0 < long by omega)
  have shape : (x : ℚ) * (2048 / long) = x * 2048 / long := mul_div_assoc' _ _ _
  constructor
  · apply scaledSide_le rfl
    rw [shape, div_le_iff₀ positive, mul_comm]
    exact mul_le_mul_of_nonneg_left (Nat.cast_le.2 within) (by norm_num)
  · rw [scaledSide_pos_iff, shape, lt_div_iff₀ positive]
    constructor
    · intro half
      have : (long : ℚ) < (4096 * x : Nat) := by
        push_cast
        linarith
      exact_mod_cast this
    · intro half
      have : (long : ℚ) < (4096 * x : Nat) := by exact_mod_cast half
      push_cast at this
      linarith

/-- The second step fits the shorter side in 768 and lets none vanish. -/
theorem scaledSide_768 {x short : Nat} (within : short ≤ x) (bounded : x ≤ 2048)
    (large : 768 < short) :
    scaledSide (768 / short) x ≤ 2048 ∧ 1 ≤ scaledSide (768 / short) x ∧
      scaledSide (768 / short) short ≤ 768 := by
  have positive : (0 : ℚ) < short := by exact_mod_cast (show 0 < short by omega)
  have shape (y : Nat) : (y : ℚ) * (768 / short) = y * 768 / short := mul_div_assoc' _ _ _
  have least : (768 : ℚ) ≤ short := by exact_mod_cast large.le
  have most : (x : ℚ) ≤ 2048 := by exact_mod_cast bounded
  have longer : (short : ℚ) ≤ x := by exact_mod_cast within
  refine ⟨?_, ?_, ?_⟩
  · apply scaledSide_le rfl
    rw [shape, div_le_iff₀ positive]
    push_cast
    nlinarith
  · rw [scaledSide_pos_iff, shape, lt_div_iff₀ positive]
    linarith
  · apply scaledSide_le rfl
    rw [shape, div_le_iff₀ positive]
    push_cast
    linarith

/-- Tiles of sides that fit: two by four at most, and none where a side is empty. -/
theorem tiles_of_sides {a b : Nat} (ha : a ≤ 2048) (hb : b ≤ 2048) (short : min a b ≤ 768) :
    (a + 511) / 512 * ((b + 511) / 512) ≤ 8 ∧
      (1 ≤ (a + 511) / 512 * ((b + 511) / 512) ↔ 1 ≤ a ∧ 1 ≤ b) := by
  have rows : (a + 511) / 512 ≤ 4 := by omega
  have columns : (b + 511) / 512 ≤ 4 := by omega
  have filled {x : Nat} : 0 < (x + 511) / 512 ↔ 0 < x := by omega
  constructor
  · by_cases first : a ≤ b
    · have half : (a + 511) / 512 ≤ 2 := by omega
      exact Nat.mul_le_mul half columns
    · have half : (b + 511) / 512 ≤ 2 := by omega
      exact Nat.mul_le_mul rows half
  · rw [Nat.one_le_iff_ne_zero, Nat.mul_ne_zero_iff, ← Nat.pos_iff_ne_zero, ← Nat.pos_iff_ne_zero,
      filled, filled]
    exact Iff.rfl

/-- The tiles of an image: at most eight, and none exactly where the longer side is 4096 times the
    shorter one or more. -/
theorem openaiTiles_spec {w h : Nat} (hw : 1 ≤ w) (hh : 1 ≤ h) :
    openaiTiles w h ≤ 8 ∧ (1 ≤ openaiTiles w h ↔ max w h < 4096 * min w h) := by
  obtain ⟨a, b, first, ha, hb, filled⟩ : ∃ a b : Nat,
      (if max w h > 2048 then scaled (2048 / (max w h : Nat)) (w, h) else (w, h)) = (a, b) ∧
        a ≤ 2048 ∧ b ≤ 2048 ∧
        (1 ≤ a ∧ 1 ≤ b ↔ max w h < 4096 * min w h) := by
    by_cases large : 2048 < max w h
    · obtain ⟨fitsW, filledW⟩ := scaledSide_2048 (le_max_left w h) large
      obtain ⟨fitsH, filledH⟩ := scaledSide_2048 (le_max_right w h) large
      refine ⟨_, scaledSide (2048 / (max w h : Nat)) h, (if_pos large).trans (scaled_eq _ _),
        fitsW, fitsH, ?_⟩
      rw [filledW, filledH]
      omega
    · exact ⟨w, h, if_neg large, by omega, by omega, by omega⟩
  obtain ⟨c, d, second, hc, hd, short, kept⟩ : ∃ c d : Nat,
      (if min a b > 768 then scaled (768 / (min a b : Nat)) (a, b) else (a, b)) = (c, d) ∧
        c ≤ 2048 ∧ d ≤ 2048 ∧
        min c d ≤ 768 ∧ (1 ≤ c ∧ 1 ≤ d ↔ 1 ≤ a ∧ 1 ≤ b) := by
    by_cases large : 768 < min a b
    · obtain ⟨fitsC, filledC, -⟩ := scaledSide_768 (min_le_left a b) ha large
      obtain ⟨fitsD, filledD, shorter⟩ := scaledSide_768 (min_le_right a b) hb large
      refine ⟨_, _, (if_pos large).trans (scaled_eq _ _), fitsC, fitsD, ?_,
        iff_of_true ⟨filledC, filledD⟩ ⟨by omega, by omega⟩⟩
      -- the shorter side is one of the two
      cases Nat.le_total a b with
      | inl le => exact min_le_of_left_le (by rwa [min_eq_left le] at shorter ⊢)
      | inr le => exact min_le_of_right_le (by rwa [min_eq_right le] at shorter ⊢)
    · exact ⟨a, b, if_neg large, ha, hb, by omega, Iff.rfl⟩
  obtain ⟨most, counted⟩ := tiles_of_sides hc hd short
  have tiles : openaiTiles w h = (c + 511) / 512 * ((d + 511) / 512) := by
    simp only [openaiTiles, first, second]
  rw [tiles]
  exact ⟨most, counted.trans (kept.trans filled)⟩

/-! ## Pixels -/

/-- The tokens of an image at Anthropic: none exactly where the longer side is 4600000 times the
    shorter one or more. -/
theorem anthropicImageTokens_pos_iff {w h : Nat} (hw : 1 ≤ w) (hh : 1 ≤ h) :
    1 ≤ anthropicImageTokens w h ↔ max w h < 4600000 * min w h := by
  have billed (a b : Nat) : 1 ≤ (a * b + 749) / 750 ↔ 1 ≤ a ∧ 1 ≤ b := by
    have pixels : 1 ≤ a * b ↔ 1 ≤ a ∧ 1 ≤ b := by
      rw [Nat.one_le_iff_ne_zero, Nat.mul_ne_zero_iff, ← Nat.one_le_iff_ne_zero,
        ← Nat.one_le_iff_ne_zero]
    rw [← pixels]
    omega
  by_cases large : w * h > 1150000
  · have side {x y : Nat} (hy : 1 ≤ y) : 1 ≤ roundSqrt ((x * 1150000 : ℚ) / y) ↔
      y < 4600000 * x := by
      have positive : (0 : ℚ) < y := by exact_mod_cast (show 0 < y by omega)
      rw [roundSqrt_pos_iff (by positivity), lt_div_iff₀ positive]
      constructor
      · intro quarter
        have : (y : ℚ) < (4600000 * x : Nat) := by
          push_cast
          linarith
        exact_mod_cast this
      · intro quarter
        have : (y : ℚ) < (4600000 * x : Nat) := by exact_mod_cast quarter
        push_cast at this
        linarith
    simp only [anthropicImageTokens, if_pos large, billed]
    rw [side hh, side hw]
    omega
  · simp only [anthropicImageTokens, if_neg large, billed]
    have bounded : max w h ≤ w * h :=
      max_le (Nat.le_mul_of_pos_right w hh) (Nat.le_mul_of_pos_left h hw)
    exact iff_of_true ⟨hw, hh⟩ (by omega)

/-- The blocks of 56 pixels along a side, before and after the image is scaled to the budget. -/
def blocks (x : Nat) : Nat := max 1 (roundHalfEven ((x : ℚ) / 56)).toNat

def scaledBlocks (x other : Nat) : Nat := max 1 (floorSqrt ((x * 1048576 : ℚ) / (other * 56 ^ 2)))

/-- 334 blocks are within the budget and 335 are not; no image has less than one block. -/
theorem qwenVisionTokens_eq {w h : Nat} (hw : 1 ≤ w) (hh : 1 ≤ h) :
    qwenVisionTokens w h =
      if 334 < blocks h * blocks w then scaledBlocks h w * scaledBlocks w h
        else blocks h * blocks w := by
  have side (n : Nat) : max 56 (n * 56) = max 1 n * 56 := by omega
  have pixels (a b : Nat) : a * 56 * (b * 56) = a * b * 3136 := by ring
  have some : ¬(w = 0 ∨ h = 0) := by omega
  have one : 1 ≤ blocks h * blocks w := Nat.mul_pos (le_max_left 1 _) (le_max_left 1 _)
  have budget (n : Nat) : n * 3136 > 1048576 ↔ 334 < n := by omega
  have unscaled (x : Nat) : max 1 (roundHalfEven ((x : ℚ) / (28 * 2 : Nat))).toNat = blocks x := by
    rw [blocks]
    norm_num
  have resized (x y : Nat) :
      max 1 (floorSqrt ((x * (1048576 : Nat) : ℚ) / (y * (28 * 2 : Nat) ^ 2))) =
        scaledBlocks x y := by
    rw [scaledBlocks]
    norm_num
  have noMinimum : ¬blocks h * blocks w * 3136 < 3136 := by omega
  simp only [qwenVisionTokens, if_neg some, side, pixels,
    Nat.mul_div_cancel _ (show 0 < 28 * 2 by decide), unscaled,
    resized, budget, if_neg noMinimum]

theorem qwenVisionTokens_comm {w h : Nat} (hw : 1 ≤ w) (hh : 1 ≤ h) :
    qwenVisionTokens w h = qwenVisionTokens h w := by
  rw [qwenVisionTokens_eq hw hh, qwenVisionTokens_eq hh hw, Nat.mul_comm (blocks h),
    Nat.mul_comm (scaledBlocks h w)]

theorem qwenVisionTokens_pos {w h : Nat} (hw : 1 ≤ w) (hh : 1 ≤ h) : 1 ≤ qwenVisionTokens w h := by
  rw [qwenVisionTokens_eq hw hh]
  split
  · exact Nat.mul_pos (le_max_left 1 _) (le_max_left 1 _)
  · exact Nat.mul_pos (le_max_left 1 _) (le_max_left 1 _)

theorem blocks_le_iff (x : Nat) : blocks x ≤ 334 ↔ x ≤ 18732 := by
  have rounded : (roundHalfEven ((x : ℚ) / 56)).toNat ≤ 334 ↔ x ≤ 18732 := by
    rw [toNat_roundHalfEven_le_iff rfl, div_le_iff₀ (by norm_num)]
    norm_num
  rw [blocks, max_le_iff, rounded]
  exact and_iff_right (by norm_num)

/-- A side of one block is shorter than one and a half. -/
theorem two_le_blocks {x : Nat} (more : 2 ≤ blocks x) : 84 ≤ x := by
  by_contra small
  have below : roundHalfEven ((x : ℚ) / 56) ≤ 1 := by
    have short : (x : ℚ) ≤ 83 := by exact_mod_cast (show x ≤ 83 by omega)
    apply roundHalfEven_le_of_lt
    rw [div_lt_iff₀ (by norm_num)]
    push_cast
    linarith
  rw [blocks] at more
  omega

theorem scaledBlocks_le_iff {x other : Nat} (positive : 1 ≤ other) :
    scaledBlocks x other ≤ 334 ↔ x * 16384 < 5499025 * other := by
  have some : (0 : ℚ) < other * 56 ^ 2 := by
    have : (0 : ℚ) < other := by exact_mod_cast (show 0 < other by omega)
    positivity
  have root : floorSqrt ((x * 1048576 : ℚ) / (other * 56 ^ 2)) < 335 ↔
    x * 16384 < 5499025 * other := by
    rw [floorSqrt_lt_iff (by positivity), div_lt_iff₀ some]
    constructor
    · intro less
      have : ((x * 16384 : Nat) : ℚ) < (5499025 * other : Nat) := by
        push_cast at less ⊢
        linarith
      exact_mod_cast this
    · intro less
      have : ((x * 16384 : Nat) : ℚ) < (5499025 * other : Nat) := by exact_mod_cast less
      push_cast at this ⊢
      linarith
  rw [← root, scaledBlocks]
  omega

/-- Scaling both sides by one factor keeps the blocks within the budget if neither side is
    raised. -/
theorem floorSqrt_mul_le {w h : Nat} (hw : 1 ≤ w) (hh : 1 ≤ h) :
    floorSqrt ((h * 1048576 : ℚ) / (w * 56 ^ 2)) * floorSqrt ((w * 1048576 : ℚ) / (h * 56 ^ 2)) ≤
      334 := by
  have someW : (0 : ℚ) < w := by exact_mod_cast (show 0 < w by omega)
  have someH : (0 : ℚ) < h := by exact_mod_cast (show 0 < h by omega)
  have rows := floorSqrt_sq_le (q := (h * 1048576 : ℚ) / (w * 56 ^ 2)) (by positivity)
  have columns := floorSqrt_sq_le (q := (w * 1048576 : ℚ) / (h * 56 ^ 2)) (by positivity)
  generalize floorSqrt ((h * 1048576 : ℚ) / (w * 56 ^ 2)) = a at rows ⊢
  generalize floorSqrt ((w * 1048576 : ℚ) / (h * 56 ^ 2)) = b at columns ⊢
  have cancels : (h * 1048576 : ℚ) / (w * 56 ^ 2) * ((w * 1048576 : ℚ) / (h * 56 ^ 2)) =
    (1048576 / 56 ^ 2) ^ 2 := by
    field_simp
  have area : ((a * b : Nat) : ℚ) ^ 2 ≤ (1048576 / 56 ^ 2) ^ 2 := by
    rw [← cancels, Nat.cast_mul, mul_pow]
    exact mul_le_mul rows columns (by positivity) (by positivity)
  have root : ((a * b : Nat) : ℚ) ≤ 1048576 / 56 ^ 2 := le_of_sq_le_sq area (by norm_num)
  have under : ((a * b : Nat) : ℚ) < (335 : Nat) := root.trans_lt (by norm_num)
  exact Nat.lt_succ_iff.1 (Nat.cast_lt.1 under)

theorem scaledBlocks_mul_le_iff {short long : Nat} (hs : 1 ≤ short) (hl : short ≤ long) :
    scaledBlocks short long * scaledBlocks long short ≤ 334 ↔ long * 16384 < 5499025 * short := by
  rw [← scaledBlocks_le_iff hs]
  constructor
  · exact (Nat.le_mul_of_pos_left _ (le_max_left 1 _)).trans
  · intro fits
    have area := floorSqrt_mul_le (hs.trans hl) hs
    have longer : ¬floorSqrt ((long * 1048576 : ℚ) / (short * 56 ^ 2)) < 1 := by
      have some : (0 : ℚ) < short := by exact_mod_cast (show 0 < short by omega)
      have order : (short : ℚ) ≤ long := Nat.cast_le.2 hl
      rw [floorSqrt_lt_iff (by positivity), div_lt_iff₀ (by positivity)]
      push_cast
      linarith
    simp only [scaledBlocks] at fits ⊢
    generalize floorSqrt ((short * 1048576 : ℚ) / (long * 56 ^ 2)) = a at area ⊢
    generalize floorSqrt ((long * 1048576 : ℚ) / (short * 56 ^ 2)) = b at area fits longer ⊢
    have unraised : max 1 b = b := max_eq_right (not_lt.1 longer)
    rw [unraised] at fits ⊢
    -- a shorter side raised to one block leaves the longer one's blocks
    by_cases raised : a ≤ 1
    · rwa [max_eq_left raised, Nat.one_mul]
    · rwa [max_eq_right (not_le.1 raised).le]

/-- The image stays in its pixel budget exactly where its longer side is short enough to need no
    scaling at all, or its sides are not too unequal to be scaled. -/
theorem qwenVisionTokens_budget_iff {w h : Nat} (hw : 1 ≤ w) (hh : 1 ≤ h) :
    qwenVisionTokens w h * 56 * 56 ≤ 1048576 ↔ max w h ≤ 18732 ∨
      max w h * 16384 < 5499025 * min w h := by
  wlog order : w ≤ h generalizing w h
  · rw [qwenVisionTokens_comm hw hh, max_comm, min_comm]
    exact this hh hw (not_le.1 order).le
  have budget : qwenVisionTokens w h * 56 * 56 ≤ 1048576 ↔ qwenVisionTokens w h ≤ 334 := by omega
  rw [budget, max_eq_right order, min_eq_left order, qwenVisionTokens_eq hw hh]
  have one : 1 ≤ blocks w := le_max_left 1 _
  by_cases large : 334 < blocks h * blocks w
  · rw [if_pos large, Nat.mul_comm, scaledBlocks_mul_le_iff hw order]
    refine (or_iff_right_of_imp ?_).symm
    intro short
    -- few blocks along the longer side but too many in all: the shorter one has two or more
    have few := (blocks_le_iff h).2 short
    have more : 2 ≤ blocks w := by
      by_contra single
      have : blocks w = 1 := by omega
      rw [this] at large
      omega
    have := two_le_blocks more
    omega
  · rw [if_neg large]
    refine iff_of_true (not_lt.1 large) (.inl ((blocks_le_iff h).1 ?_))
    exact (Nat.le_mul_of_pos_right _ one).trans (not_lt.1 large)

/-! ## All schemes -/

/-- No scheme counts nothing for an image, and each stays within its cap. -/
structure SoundlyBilled (w h : Nat) : Prop where
  tiles_pos : 1 ≤ openaiTiles w h
  tiles_le : openaiTiles w h ≤ 8
  anthropic_pos : 1 ≤ anthropicImageTokens w h
  qwen_pos : 1 ≤ qwenVisionTokens w h
  qwen_budget : qwenVisionTokens w h * 56 * 56 ≤ 1048576

/-- An image is billed soundly exactly where its longer side is below 335.6 times the shorter one,
    or, being at most 18732 pixels, below 4096 times. -/
theorem soundlyBilled_iff {w h : Nat} (hw : 1 ≤ w) (hh : 1 ≤ h) :
    SoundlyBilled w h ↔
      max w h * 16384 < 5499025 * min w h ∨ max w h ≤ 18732 ∧ max w h < 4096 * min w h := by
  obtain ⟨tilesCap, tiles⟩ := openaiTiles_spec hw hh
  have pixels := anthropicImageTokens_pos_iff hw hh
  have budget := qwenVisionTokens_budget_iff hw hh
  constructor
  · intro sound
    have ratio := tiles.1 sound.tiles_pos
    cases budget.1 sound.qwen_budget with
    | inl short => exact .inr ⟨short, ratio⟩
    | inr even => exact .inl even
  · intro condition
    have ratio : max w h < 4096 * min w h := by omega
    have within : max w h ≤ 18732 ∨ max w h * 16384 < 5499025 * min w h := by omega
    exact ⟨tiles.2 ratio, tilesCap, pixels.2 (by omega), qwenVisionTokens_pos hw hh,
      budget.2 within⟩

theorem soundlyBilled_screen : SoundlyBilled 1280 800 :=
  (soundlyBilled_iff (by decide) (by decide)).2 (.inl (by decide))

/-- A strip of one pixel by 5000 has no tile, one of five million no token at Anthropic, and one of
    a million exceeds the pixel budget. -/
theorem not_soundlyBilled_strip :
    openaiTiles 1 5000 = 0 ∧ anthropicImageTokens 1 5000000 = 0 ∧
      1048576 < qwenVisionTokens 1 1000000 * 56 * 56 ∧
      ¬∀ w h : Nat, 1 ≤ w → 1 ≤ h → SoundlyBilled w h := by
  have none : openaiTiles 1 5000 = 0 := by decide +kernel
  refine ⟨none, by decide +kernel, by decide +kernel, ?_⟩
  intro all
  have tiles := (all 1 5000 (by decide) (by decide)).tiles_pos
  rw [none] at tiles
  exact absurd tiles (by decide)

end Pricing

end Dexa.Platform
