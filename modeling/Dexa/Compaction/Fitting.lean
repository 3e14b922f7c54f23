import Mathlib.Analysis.SpecialFunctions.Log.Basic
import Mathlib.LinearAlgebra.Matrix.NonsingularInverse
import Dexa.Compaction.Selections

/-! # The fit of a head does not fail

With a key to keep there is a row to normalize, and the matrix that the values solve is not
singular. A head that is fitted keeps the keys that were selected, each with a bias and a value.
-/

namespace Dexa.Compaction

open Dexa.Core Dexa.Lib Dexa.Platform

section Heads

variable {α : Type} [Field α] [LinearOrder α]

/-- `argsort` sorts, and `solve` solves what is not singular. -/
structure Numerics.Lawful (np : Numerics α) : Prop where
  argsorts : np.toNumpy.Argsorts
  solves : ∀ {k d : Nat} (A : Matrix (Fin k) (Fin k) α) (B : Matrix (Fin k) (Fin d) α), A.det ≠ 0 →
    (np.solve A B).isSome

theorem mapM_index_ok {β : Type} {l : List β} {S : List Nat} (bound : ∀ i ∈ S, i < l.length)
    (filler : β) :
    S.mapM (index l) = .ok (S.map fun i => l.getD i filler) := by
  induction S with
  | nil => rfl
  | cons i S ih =>
    have inside : i < l.length := bound i List.mem_cons_self
    have here : l[i]? = some (l.getD i filler) := by simp [inside]
    rw [List.mapM_cons, index_ok here, ih fun j member => bound j (List.mem_cons_of_mem i member)]
    rfl

variable (np : Numerics α) {d : Nat}

theorem fitBias_ok {T : Nat} (some : 0 < T) (Q Ck : List (Fin d → α))
    (fullLogits : List (Fin T → α)) (scale : α) :
    ∃ beta, fitBias np Q Ck fullLogits scale = .ok beta ∧ beta.length = Ck.length := by
  have each : ∀ row ∈ fullLogits, ∃ c, rowMax row = .ok c ∧ True := by
    intro row _
    obtain ⟨c, found⟩ := rowMax_ok some row
    exact ⟨c, found, trivial⟩
  obtain ⟨c, maxima, -⟩ := Fallible.mapM_ok each
  unfold fitBias
  simp only [maxima, bind, Except.bind]
  exact ⟨_, rfl, List.length_ofFn⟩

theorem le_of_mem_linspace {last n i : Nat} (member : i ∈ linspace last n) : i ≤ last := by
  obtain ⟨j, inside, rfl⟩ := List.mem_map.1 member
  have := List.mem_range.1 inside
  apply Nat.div_le_of_le_mul
  exact Nat.mul_le_mul_right last (by omega)

omit [LinearOrder α] in
theorem trainRows_ok (valueTrainFrac : ℚ) {t : Nat} {X : List (Fin t → α)} {Y : List (Fin d → α)}
    (same : Y.length = X.length) :
    ∃ X' Y', trainRows valueTrainFrac X Y = .ok (X', Y') := by
  unfold trainRows
  split_ifs with part
  · have bound : ∀ i ∈ linspace (X.length - 1) (max t (roundShare valueTrainFrac X.length).toNat),
      i < X.length := by
      intro i member
      have := le_of_mem_linspace member
      omega
    have first := mapM_index_ok bound (fun _ => 0)
    have second := mapM_index_ok (l := Y) (fun i member => same ▸ bound i member) (fun _ => 0)
    simp only [first, second, bind, Except.bind]
    exact ⟨_, _, rfl⟩
  · exact ⟨X, Y, rfl⟩

theorem clippedZero_ok {V : List (Fin d → α)} (some : V ≠ []) (c : Fin d) :
    ∃ z, clippedZero V c = .ok z := by
  have column : V.map (· c) ≠ [] := by simpa using some
  obtain ⟨lo, least⟩ := Option.isSome_iff_exists.1 (List.isSome_min?_iff.2 column)
  obtain ⟨hi, greatest⟩ := Option.isSome_iff_exists.1 (List.isSome_max?_iff.2 column)
  exact ⟨min (max 0 lo) hi, by rw [clippedZero, least, greatest]⟩

variable [IsStrictOrderedRing α]

theorem ridgeOf_pos (valueRidge : α) {n : Nat} (X : List (Fin n → α)) :
    0 < ridgeOf valueRidge X := by
  unfold ridgeOf
  split_ifs with given
  · exact given
  · have trace := trace_gram_nonneg X
    positivity

variable (lawful : np.Lawful)
include lawful

theorem solveValueMap_ok (valueRidge : α) {n : Nat} (X : List (Fin n → α)) (Y : List (Fin d → α)) :
    ∃ C, solveValueMap np valueRidge X Y = .ok C := by
  have solved :=
    lawful.solves (gram X + ridgeOf valueRidge X • 1)
      (fun i c => (List.zipWith (fun x y => x i * y c) X Y).sum)
    (det_ridge_ne_zero X (ridgeOf_pos valueRidge X))
  obtain ⟨C, found⟩ := Option.isSome_iff_exists.1 solved
  exact ⟨C, by simp only [solveValueMap, found]⟩

theorem fitValues_ok (config : MatchingConfig α) (Q : List (Fin d → α)) {Ck K V : List (Fin d → α)}
    (kept : Ck ≠ []) (some : K ≠ [])
    (same : V.length = K.length) (beta : List α) (scale : α) :
    ∃ Cv, fitValues np config Q Ck K V beta scale = .ok Cv ∧ Cv.length = Ck.length := by
  have keys : 0 < Ck.length := List.length_pos_iff.2 kept
  have all : 0 < K.length := List.length_pos_iff.2 some
  obtain ⟨X, weights⟩ :=
    softmax_ok np keys ((logitsOf Q Ck scale).map fun row j => row j + beta.getD j 0)
  obtain ⟨A, full⟩ := softmax_ok np all (logitsOf Q K scale)
  have rows : A.length = X.length := by
    have first := Fallible.length_of_mapM weights
    have second := Fallible.length_of_mapM full
    simp only [logitsOf, List.length_map] at first second
    omega
  have values : ∀ c, ∃ z, clippedZero V c = .ok z := by
    have present : V ≠ [] := List.length_pos_iff.1 (same ▸ all)
    exact clippedZero_ok present
  have each : ∀ c ∈ List.finRange d, ∃ z, clippedZero V c = .ok z ∧ True :=
    fun c _ => (values c).imp fun _ found => ⟨found, trivial⟩
  obtain ⟨dead, clipped, -⟩ := Fallible.mapM_ok each
  obtain ⟨X', Y', trained⟩ := trainRows_ok config.valueTrainFrac (X := X)
    (Y := A.map fun row c => ∑ j : Fin K.length, row j * V.getD j (fun _ => 0) c)
    (by rw [List.length_map, rows])
  obtain ⟨C, solved⟩ := solveValueMap_ok np lawful config.valueRidge
    (X'.map fun row (i : Fin (liveKeys X').length) => row ((liveKeys X').get i)) Y'
  unfold fitValues
  simp only [weights, full, bind, Except.bind, same, ne_eq, not_true, if_false, trained, clipped]
  split_ifs with none
  · exact ⟨_, rfl, by simp⟩
  · rw [solved]
    exact ⟨_, rfl, by simp⟩

/-- A head that keeps `t` of the keys, in their order, each with a bias and a value. -/
structure Fitted.Keeps (fitted : Fitted α d) (K : List (Fin d → α)) (t : Int) : Prop where
  chooses : Chooses K.length t fitted.selected
  increasing : fitted.selected.Pairwise (· < ·)
  keys : fitted.keys = fitted.selected.map fun i => K.getD i fun _ => 0
  values : fitted.values.length = fitted.selected.length
  biases : fitted.biases.length = fitted.selected.length

theorem fitHead_ok (config : MatchingConfig α) (Q : List (Fin d → α)) {K V : List (Fin d → α)}
    (some : K ≠ [])
    (same : V.length = K.length) {t : Int} (positive : 1 ≤ t) (scale : α) :
    ∃ fitted, fitHead np config Q K V t scale = .ok fitted ∧ fitted.Keeps K t ∧
      ∀ i < K.length, (K.length : Int) ≤ i + min (roundShare config.recentFrac t) t →
        i ∈ fitted.selected := by
  by_cases all : (K.length : Int) ≤ t
  · refine ⟨⟨K, V, List.replicate K.length 0, List.range K.length⟩, ?_, ?_,
      fun i inside _ => List.mem_range.2 inside⟩
    · simp only [fitHead, if_pos all]
      rfl
    · constructor
      case chooses => exact ⟨List.nodup_range, fun i member => List.mem_range.1 member,
        by rw [List.length_range]; omega⟩
      case increasing => exact List.pairwise_lt_range
      case keys =>
        apply List.ext_getElem
        · simp
        · intro i left right
          simp [left]
      case values => rw [same, List.length_range]
      case biases => simp
  · obtain ⟨S, selected, chooses, recent⟩ :=
      selectKeys_ok np lawful.argsorts config (logitsOf Q K scale) (by omega) (not_le.1 all)
    obtain ⟨sorted, isSorted⟩ : ∃ sorted, sorted = S.mergeSort fun i j => decide (i ≤ j) := ⟨_, rfl⟩
    obtain ⟨Ck, kept⟩ : ∃ Ck, Ck = sorted.map fun i => K.getD i fun _ => 0 := ⟨_, rfl⟩
    have sorts : Chooses K.length t sorted := isSorted ▸ chooses.sort
    have read : sorted.mapM (index K) = .ok Ck := kept ▸ mapM_index_ok sorts.below _
    have size : Ck.length = sorted.length := by rw [kept, List.length_map]
    have nonempty : Ck ≠ [] := by
      have length := sorts.length
      have := List.length_pos_iff.2 some
      rw [← List.length_pos_iff]
      omega
    obtain ⟨beta, biases, betaLength⟩ :=
      fitBias_ok np (List.length_pos_iff.2 some) Q Ck (logitsOf Q K scale) scale
    obtain ⟨Cv, values, valuesLength⟩ :=
      fitValues_ok np lawful config Q nonempty some same beta scale
    refine ⟨⟨Ck, Cv, beta, sorted⟩, ?_,
      ⟨sorts, ?_, kept, valuesLength.trans size, betaLength.trans size⟩, fun i inside last => ?_⟩
    · simp only [fitHead, if_neg all, selected, bind, Except.bind, ← isSorted, read, biases, values]
      rfl
    · rw [isSorted]
      exact sort_increasing chooses.nodup
    · rw [isSorted]
      exact (List.mergeSort_perm S _).mem_iff.2 (recent i inside last)

omit [IsStrictOrderedRing α] lawful in
/-- A head that may keep nothing has no weights to normalize. -/
theorem fitHead_zero (argsorts : np.toNumpy.Argsorts) (config : MatchingConfig α)
    {Q K : List (Fin d → α)} (asked : Q ≠ [])
    (some : K ≠ []) (V : List (Fin d → α)) (scale : α) :
    fitHead np config Q K V 0 scale =
      .error emptyMaximum := by
  have positive := List.length_pos_iff.2 some
  have less : ¬ (K.length : Int) ≤ 0 := by omega
  obtain ⟨S, selected, chooses, -⟩ :=
    selectKeys_ok np argsorts config (logitsOf Q K scale) le_rfl (not_le.1 less)
  have none : S = [] := by
    have length := chooses.length
    exact List.eq_nil_of_length_eq_zero (by omega)
  subst none
  obtain ⟨beta, biases, -⟩ := fitBias_ok np positive Q [] (logitsOf Q K scale) scale
  have values : fitValues np config Q [] K V beta scale =
      .error emptyMaximum := by
    obtain ⟨q, Q, rfl⟩ := List.exists_cons_of_ne_nil asked
    rfl
  have read : ([] : List Nat).mapM (index K) = .ok [] := rfl
  simp only [fitHead, if_neg less, selected, bind, Except.bind, List.mergeSort_nil, read,
    biases, values]

end Heads

/-- How far `A w` is from `b`, squared. -/
def squaredResidual {k : Nat} (A : List (Fin k → ℝ)) (b : List ℝ) (w : Fin k → ℝ) : ℝ :=
  (List.zipWith (fun row bi => (bi - ∑ i, row i * w i) ^ 2) A b).sum

/-- The functions themselves, where the libraries approximate them. -/
noncomputable def realNumerics : Numerics ℝ where
  toNumpy := Segments.Numpy.stable Real.sqrt
  exp := Real.exp
  log := Real.log
  nnls A b _ := some (Classical.epsilon fun w =>
    (∀ j, 0 ≤ w j) ∧ ∀ w', (∀ j, 0 ≤ w' j) → squaredResidual A b w ≤ squaredResidual A b w')
  lstsq A b := Classical.epsilon fun w => ∀ w', squaredResidual A b w ≤ squaredResidual A b w'
  solve A B := if A.det = 0 then none else some (A⁻¹ * B)
  repr _ := ⟨"0.0".toList, by decide⟩

theorem realNumerics_lawful : realNumerics.Lawful where
  argsorts := Segments.Numpy.stable_argsorts Real.sqrt
  solves A B regular := by simp [realNumerics, regular]

end Dexa.Compaction
