import Mathlib.Algebra.Order.BigOperators.Group.List
import Mathlib.LinearAlgebra.Matrix.DotProduct
import Mathlib.LinearAlgebra.Matrix.ToLinearEquiv
import Mathlib.LinearAlgebra.Matrix.Trace
import Mathlib.Tactic.LinearCombination
import Mathlib.Tactic.Linarith

/-! # Ridge regression

The normal equations of a least-squares problem may be singular; with a positive multiple of the
identity added they are not, and their solution is the one that minimizes the penalized error.  The
problem is given by the rows of its matrices.
-/

namespace Dexa.Lib

open Matrix

variable {α : Type*} [Field α] {k : Nat}

/-- `Xᵀ X`. -/
def gram (X : List (Fin k → α)) : Matrix (Fin k) (Fin k) α :=
  fun i j => (X.map fun row => row i * row j).sum

theorem gram_cons (row : Fin k → α) (X : List (Fin k → α)) :
    gram (row :: X) = vecMulVec row row + gram X := by
  ext i j
  simp [gram, vecMulVec_apply]

section Loss

variable {d : Nat}

/-- `Xᵀ Y`. -/
def moment (X : List (Fin k → α)) (Y : List (Fin d → α)) : Matrix (Fin k) (Fin d) α :=
  fun i c => (List.zipWith (fun x y => x i * y c) X Y).sum

/-- How far `X C` is from `Y`, squared. -/
def squaredError (X : List (Fin k → α)) (Y : List (Fin d → α)) (C : Matrix (Fin k) (Fin d) α) : α :=
  (List.zipWith (fun x y => ∑ c, ((x ᵥ* C) c - y c) ^ 2) X Y).sum

def squaredSize (C : Matrix (Fin k) (Fin d) α) : α := ∑ i, ∑ c, C i c ^ 2

/-- The error, with a penalty for large coefficients. -/
def ridgeLoss (X : List (Fin k → α)) (Y : List (Fin d → α)) (lam : α)
    (C : Matrix (Fin k) (Fin d) α) : α :=
  squaredError X Y C + lam * squaredSize C

/-- One row, and how a change of the coefficients shows in it. -/
theorem squaredRow_add (x : Fin k → α) (y : Fin d → α) (C D : Matrix (Fin k) (Fin d) α) :
    ∑ c, ((x ᵥ* (C + D)) c - y c) ^ 2 = ∑ c, ((x ᵥ* C) c - y c) ^ 2 + ∑ c, (x ᵥ* D) c ^ 2 +
      2 * ∑ i, ∑ c, D i c * ((vecMulVec x x * C) i c - x i * y c) := by
  have cross : ∑ i, ∑ c, D i c * ((vecMulVec x x * C) i c - x i * y c) = ∑ c,
    (x ᵥ* D) c * ((x ᵥ* C) c - y c) := by
    rw [Finset.sum_comm]
    refine Finset.sum_congr rfl fun c _ => ?_
    rw [vecMul, dotProduct, Finset.sum_mul]
    refine Finset.sum_congr rfl fun i _ => ?_
    rw [vecMulVec_mul, vecMulVec_apply]
    ring
  rw [cross, Finset.mul_sum, ← Finset.sum_add_distrib, ← Finset.sum_add_distrib]
  refine Finset.sum_congr rfl fun c _ => ?_
  rw [vecMul_add, Pi.add_apply]
  ring

theorem squaredError_add {X : List (Fin k → α)} {Y : List (Fin d → α)} (same : Y.length = X.length)
    (C D : Matrix (Fin k) (Fin d) α) :
    squaredError X Y (C + D) = squaredError X Y C + (X.map fun x => ∑ c, (x ᵥ* D) c ^ 2).sum +
      2 * ∑ i, ∑ c, D i c * ((gram X * C) i c - moment X Y i c) := by
  induction X generalizing Y with
  | nil =>
    have zero : gram ([] : List (Fin k → α)) = 0 := rfl
    simp [squaredError, moment, zero]
  | cons x X ih =>
    obtain ⟨y, Y, rfl⟩ := List.exists_cons_of_length_eq_add_one same
    have rest := ih (Nat.succ.inj same)
    have split : ∀ i c, D i c * ((gram (x :: X) * C) i c - moment (x :: X) (y :: Y) i c) =
        D i c * ((vecMulVec x x * C) i c - x i * y c) +
          D i c * ((gram X * C) i c - moment X Y i c) := by
      intro i c
      rw [gram_cons, Matrix.add_mul, Matrix.add_apply, moment, List.zipWith_cons_cons,
        List.sum_cons, moment]
      ring
    simp only [squaredError, List.zipWith_cons_cons, List.sum_cons, List.map_cons, split,
      Finset.sum_add_distrib, squaredRow_add] at rest ⊢
    rw [rest]
    ring

/-- How the loss changes from a solution of the normal equations. -/
theorem ridgeLoss_add {X : List (Fin k → α)} {Y : List (Fin d → α)} (same : Y.length = X.length)
    {lam : α}
    {C : Matrix (Fin k) (Fin d) α} (solves : (gram X + lam • 1) * C = moment X Y)
    (D : Matrix (Fin k) (Fin d) α) :
    ridgeLoss X Y lam (C + D) = ridgeLoss X Y lam C +
      ((X.map fun x => ∑ c, (x ᵥ* D) c ^ 2).sum + lam * squaredSize D) := by
  have sizes : squaredSize (C + D) = squaredSize C + squaredSize D + 2 * ∑ i, ∑ c,
    D i c * C i c := by
    simp only [squaredSize, Finset.mul_sum, ← Finset.sum_add_distrib, Matrix.add_apply]
    refine Finset.sum_congr rfl fun i _ => Finset.sum_congr rfl fun c _ => ?_
    ring
  -- the terms that are linear in the change vanish
  have linear : ∑ i, ∑ c, D i c * ((gram X * C) i c - moment X Y i c) + lam * ∑ i, ∑ c,
    D i c * C i c = 0 := by
    simp only [← solves, Finset.mul_sum, ← Finset.sum_add_distrib]
    refine Finset.sum_eq_zero fun i _ => Finset.sum_eq_zero fun c _ => ?_
    rw [Matrix.add_mul, Matrix.add_apply, Matrix.smul_mul, Matrix.one_mul, Matrix.smul_apply,
      smul_eq_mul]
    ring
  rw [ridgeLoss, ridgeLoss, squaredError_add same, sizes]
  linear_combination 2 * linear

end Loss

variable [LinearOrder α] [IsStrictOrderedRing α]

theorem trace_gram_nonneg (X : List (Fin k → α)) : 0 ≤ (gram X).trace := by
  apply Finset.sum_nonneg
  intro i _
  apply List.sum_nonneg
  intro x member
  obtain ⟨row, -, rfl⟩ := List.mem_map.1 member
  exact mul_self_nonneg (row i)

theorem dotProduct_gram_nonneg (X : List (Fin k → α)) (v : Fin k → α) : 0 ≤ v ⬝ᵥ gram X *ᵥ v := by
  induction X with
  | nil =>
    have zero : gram ([] : List (Fin k → α)) = 0 := rfl
    simp [zero]
  | cons row X ih =>
    have square : v ⬝ᵥ vecMulVec row row *ᵥ v = (row ⬝ᵥ v) * (row ⬝ᵥ v) := by
      rw [vecMulVec_mulVec, dotProduct_comm]
      simp
    rw [gram_cons, add_mulVec, dotProduct_add, square]
    exact add_nonneg (mul_self_nonneg _) ih

theorem det_ridge_ne_zero (X : List (Fin k → α)) {lam : α} (positive : 0 < lam) :
    (gram X + lam • 1).det ≠ 0 := by
  intro singular
  obtain ⟨v, nonzero, kernel⟩ := exists_mulVec_eq_zero_iff.2 singular
  have form : v ⬝ᵥ (gram X + lam • 1) *ᵥ v = v ⬝ᵥ gram X *ᵥ v + lam * (v ⬝ᵥ v) := by
    simp [add_mulVec, smul_mulVec]
  have lower := dotProduct_gram_nonneg X v
  have norm : 0 < v ⬝ᵥ v := by
    have nonneg : 0 ≤ v ⬝ᵥ v := Finset.sum_nonneg fun i _ => mul_self_nonneg (v i)
    exact lt_of_le_of_ne nonneg fun zero => nonzero (dotProduct_self_eq_zero.1 zero.symm)
  rw [kernel, dotProduct_zero] at form
  exact absurd form (add_pos_of_nonneg_of_pos lower (mul_pos positive norm)).ne

section Optimal

variable {d : Nat} {X : List (Fin k → α)} {Y : List (Fin d → α)} {lam : α}
  {C : Matrix (Fin k) (Fin d) α}

theorem squaredSize_nonneg (C : Matrix (Fin k) (Fin d) α) : 0 ≤ squaredSize C :=
  Finset.sum_nonneg fun _ _ => Finset.sum_nonneg fun _ _ => sq_nonneg _

theorem squaredSize_eq_zero : squaredSize C = 0 ↔ C = 0 := by
  constructor
  · intro none
    have rows :=
      (Finset.sum_eq_zero_iff_of_nonneg fun i _ => Finset.sum_nonneg
        fun c _ => sq_nonneg (C i c)).1 none
    ext i c
    have cells :=
      (Finset.sum_eq_zero_iff_of_nonneg fun c _ => sq_nonneg (C i c)).1 (rows i (Finset.mem_univ i))
    exact pow_eq_zero_iff two_ne_zero |>.1 (cells c (Finset.mem_univ c))
  · rintro rfl
    simp [squaredSize]

theorem squaredRows_nonneg (X : List (Fin k → α)) (D : Matrix (Fin k) (Fin d) α) :
    0 ≤ (X.map fun x => ∑ c, (x ᵥ* D) c ^ 2).sum := by
  apply List.sum_nonneg
  intro s member
  obtain ⟨x, -, rfl⟩ := List.mem_map.1 member
  exact Finset.sum_nonneg fun _ _ => sq_nonneg _

variable (same : Y.length = X.length) (solves : (gram X + lam • 1) * C = moment X Y)
include same solves

/-- The solution of the normal equations has the least loss. -/
theorem ridgeLoss_le (C' : Matrix (Fin k) (Fin d) α) :
    ridgeLoss X Y lam C + lam * squaredSize (C' - C) ≤ ridgeLoss X Y lam C' := by
  have change := ridgeLoss_add same solves (C' - C)
  rw [add_sub_cancel] at change
  rw [change]
  have rows := squaredRows_nonneg X (C' - C)
  linarith

/-- No other coefficients have it. -/
theorem eq_of_ridgeLoss_le (positive : 0 < lam) {C' : Matrix (Fin k) (Fin d) α}
    (least : ridgeLoss X Y lam C' ≤ ridgeLoss X Y lam C) :
    C' = C := by
  have gap := ridgeLoss_le same solves C'
  have none : squaredSize (C' - C) = 0 := by
    have lower := squaredSize_nonneg (C' - C)
    have upper : lam * squaredSize (C' - C) ≤ 0 := by linarith
    exact le_antisymm (nonpos_of_mul_nonpos_right upper positive) lower
  exact sub_eq_zero.1 (squaredSize_eq_zero.1 none)

/-- The error and the coefficients are bounded by what is fitted to. -/
theorem squaredError_le :
    squaredError X Y C + 2 * (lam * squaredSize C) ≤ (Y.map fun y => ∑ c, y c ^ 2).sum := by
  have zero : squaredError X Y 0 = (Y.map fun y => ∑ c, y c ^ 2).sum := by
    have rows :
      List.zipWith (fun (x : Fin k → α) (y : Fin d → α) => ∑ c,
      ((x ᵥ* (0 : Matrix (Fin k) (Fin d) α)) c - y c) ^ 2) X Y =
        Y.map fun y => ∑ c, y c ^ 2 := by
      apply List.ext_getElem
      · simp [same]
      · intro i left right
        simp
    rw [squaredError, rows]
  have least := ridgeLoss_le same solves 0
  have opposite : squaredSize (0 - C) = squaredSize C := by simp [squaredSize]
  have empty : squaredSize (0 : Matrix (Fin k) (Fin d) α) = 0 := squaredSize_eq_zero.2 rfl
  rw [opposite, ridgeLoss, ridgeLoss, zero, empty, mul_zero, add_zero] at least
  linarith

end Optimal

end Dexa.Lib
