import Mathlib.Analysis.SpecialFunctions.Log.Basic

/-! # Divergence of distributions

A distribution over finitely many outcomes is given by its logarithms.  The divergence of one from
another is never negative, and 0 only between equal ones (Gibbs).
-/

namespace Dexa.Lib.Divergence

/-- The logarithms of the probabilities. -/
noncomputable def logSoftmax (logits : List ℝ) : List ℝ :=
  logits.map (· - Real.log (logits.map Real.exp).sum)

/-- The divergence of `q` from `p`, both by their logarithms. -/
noncomputable def divergence (p q : List ℝ) : ℝ :=
  (List.zipWith (fun p q => Real.exp p * (p - q)) p q).sum

@[simp] theorem length_logSoftmax (logits : List ℝ) : (logSoftmax logits).length = logits.length :=
  List.length_map _

theorem sum_exp_pos {logits : List ℝ} (nonempty : logits ≠ []) : 0 < (logits.map Real.exp).sum := by
  apply List.sum_pos
  · simpa using fun x _ => Real.exp_pos x
  · simpa using nonempty

theorem sum_exp_logSoftmax {logits : List ℝ} (nonempty : logits ≠ []) :
    ((logSoftmax logits).map Real.exp).sum = 1 := by
  have total := sum_exp_pos nonempty
  have shares : (logSoftmax logits).map Real.exp = (logits.map Real.exp).map
    (· * (logits.map Real.exp).sum⁻¹) := by
    simp [logSoftmax, Real.exp_sub, Real.exp_log total, div_eq_mul_inv]
  rw [shares, List.sum_map_mul_right, List.map_id', mul_inv_cancel₀ total.ne']

/-- The tangent of the exponential at `q` lies below it. -/
theorem exp_sub_exp_le (p q : ℝ) : Real.exp p - Real.exp q ≤ Real.exp p * (p - q) := by
  have tangent := Real.add_one_le_exp (q - p)
  have scaled := mul_le_mul_of_nonneg_left tangent (Real.exp_pos p).le
  rw [← Real.exp_add, add_sub_cancel] at scaled
  linarith

theorem exp_sub_exp_lt {p q : ℝ} (differ : p ≠ q) :
    Real.exp p - Real.exp q < Real.exp p * (p - q) := by
  have tangent := Real.add_one_lt_exp (sub_ne_zero.2 differ.symm)
  have scaled := mul_lt_mul_of_pos_left tangent (Real.exp_pos p)
  rw [← Real.exp_add, add_sub_cancel] at scaled
  linarith

theorem sum_sub_sum_le_divergence {p q : List ℝ} (sameLength : p.length = q.length) :
    (p.map Real.exp).sum - (q.map Real.exp).sum ≤ divergence p q := by
  induction p generalizing q with
  | nil =>
    obtain rfl := List.length_eq_zero_iff.1 sameLength.symm
    simp [divergence]
  | cons x p ih =>
    cases q with
    | nil => cases sameLength
    | cons y q =>
      have rest := ih (Nat.succ.inj sameLength)
      have here := exp_sub_exp_le x y
      simp only [divergence, List.zipWith_cons_cons, List.sum_cons, List.map_cons] at rest ⊢
      linarith

theorem eq_of_divergence {p q : List ℝ} (sameLength : p.length = q.length)
    (tight : divergence p q = (p.map Real.exp).sum - (q.map Real.exp).sum) : p = q := by
  induction p generalizing q with
  | nil => exact (List.length_eq_zero_iff.1 sameLength.symm).symm
  | cons x p ih =>
    cases q with
    | nil => cases sameLength
    | cons y q =>
      have below := sum_sub_sum_le_divergence (Nat.succ.inj sameLength)
      have here := exp_sub_exp_le x y
      simp only [divergence, List.zipWith_cons_cons, List.sum_cons, List.map_cons] at tight below
      have first : x = y := by
        by_contra differ
        have strict := exp_sub_exp_lt differ
        linarith
      subst first
      rw [ih (Nat.succ.inj sameLength) (by simp only [divergence]; linarith)]

theorem divergence_self (p : List ℝ) : divergence p p = 0 := by
  simp [divergence]

section Distributions

variable {p q : List ℝ} (sameLength : p.length = q.length) (nonempty : p ≠ [])
include sameLength nonempty

/-- The divergence of two distributions is not negative. -/
theorem divergence_nonneg : 0 ≤ divergence (logSoftmax p) (logSoftmax q) := by
  have below :=
    sum_sub_sum_le_divergence (p := logSoftmax p) (q := logSoftmax q) (by simpa using sameLength)
  rw [sum_exp_logSoftmax nonempty,
    sum_exp_logSoftmax (List.length_pos_iff.1 (sameLength ▸ List.length_pos_iff.2 nonempty)),
    sub_self] at below
  exact below

theorem divergence_eq_zero_iff : divergence (logSoftmax p) (logSoftmax q) = 0 ↔
    logSoftmax p = logSoftmax q := by
  constructor
  · intro zero
    apply eq_of_divergence (by simpa using sameLength)
    rw [zero, sum_exp_logSoftmax nonempty,
      sum_exp_logSoftmax (List.length_pos_iff.1 (sameLength ▸ List.length_pos_iff.2 nonempty)),
      sub_self]
  · intro same
    rw [same, divergence_self]

end Distributions

end Dexa.Lib.Divergence
