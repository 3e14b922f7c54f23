import Dexa.Compaction.KeptTokens
import Mathlib.Algebra.BigOperators.Field
import Mathlib.Data.List.GetD

/-! # The values of a head are the best ones

The value map solves the normal equations over the keys that the queries attend to.  So no other
values of these keys come as close to the full attention output, up to the ridge, and the ridge
bounds them; every other key has a value between old ones.
-/

namespace Dexa.Compaction

open Dexa.Core Dexa.Lib

variable {α : Type} [Field α] [LinearOrder α] {np : Numerics α} {d : Nat}

/-- `solve` returns solutions. -/
def Numerics.Solves (np : Numerics α) : Prop :=
  ∀ {k d : Nat} (A : Matrix (Fin k) (Fin k) α) (B C : Matrix (Fin k) (Fin d) α),
    np.solve A B = some C → A * C = B

variable (np) in
/-- The first half of `_fit_values`: for each query that is trained on, the weights of the kept keys
    and the full output. -/
def trainingData (config : MatchingConfig α) (Q Ck K V : List (Fin d → α)) (beta : List α)
    (scale : α) :
    Except Raised (List (Fin Ck.length → α) × List (Fin d → α)) := do
  let X ← softmax np ((logitsOf Q Ck scale).map fun row j => row j + beta.getD j 0)
  let A ← softmax np (logitsOf Q K scale)
  if V.length ≠ K.length then .error coreMismatch
  trainRows config.valueTrainFrac X (A.map fun row c => ∑ j : Fin K.length,
    row j * V.getD j (fun _ => 0) c)

section Live

variable {t : Nat} (X : List (Fin t → α))

def liveWeights : List (Fin (liveKeys X).length → α) := X.map fun row i => row ((liveKeys X).get i)

def liveValues (values : List (Fin d → α)) : Matrix (Fin (liveKeys X).length) (Fin d) α :=
  fun i => values.getD ((liveKeys X).get i) fun _ => 0

/-- How far attention with these values is from the full output, with the ridge. -/
def valueLoss (config : MatchingConfig α) (Y values : List (Fin d → α)) : α :=
  ridgeLoss (liveWeights X) Y (ridgeOf config.valueRidge (liveWeights X)) (liveValues X values)

end Live

/-- What a fit that returns has computed. -/
theorem fitValues_parts {config : MatchingConfig α} {Q Ck K V : List (Fin d → α)} {beta : List α}
    {scale : α} {Cv : List (Fin d → α)}
    (fits : fitValues np config Q Ck K V beta scale = .ok Cv) :
    ∃ X Y C dead, trainingData np config Q Ck K V beta scale = .ok (X, Y) ∧
      (liveKeys X ≠ [] → solveValueMap np config.valueRidge (liveWeights X) Y = .ok C) ∧
      (List.finRange d).mapM (clippedZero V) = .ok dead ∧
      Cv = (List.finRange Ck.length).map fun j c =>
        if here : (liveKeys X).idxOf j < (liveKeys X).length then C ⟨(liveKeys X).idxOf j, here⟩ c
          else dead.getD c 0 := by
  unfold fitValues at fits
  obtain ⟨X₀, weights, fits⟩ := Fallible.ok_of_bind fits
  obtain ⟨A, full, fits⟩ := Fallible.ok_of_bind fits
  by_cases mismatch : V.length = K.length
  · rw [if_neg (not_not.2 mismatch)] at fits
    obtain ⟨⟨X, Y⟩, trained, fits⟩ := Fallible.ok_of_bind fits
    have data : trainingData np config Q Ck K V beta scale = .ok (X, Y) := by
      simp only [trainingData, weights, full, bind, Except.bind, mismatch, ne_eq, not_true_eq_false,
        if_false, trained]
    dsimp only at fits
    -- without such keys nothing is solved
    split at fits
    next none =>
      obtain ⟨C, solved, fits⟩ := Fallible.ok_of_bind fits
      obtain ⟨dead, clipped, fits⟩ := Fallible.ok_of_bind fits
      exact ⟨X, Y, C, dead, data, fun some => absurd none some, clipped, (Except.ok.inj fits).symm⟩
    next =>
      obtain ⟨C, solved, fits⟩ := Fallible.ok_of_bind fits
      obtain ⟨dead, clipped, fits⟩ := Fallible.ok_of_bind fits
      exact ⟨X, Y, C, dead, data, fun _ => solved, clipped, (Except.ok.inj fits).symm⟩
  · rw [if_pos mismatch] at fits
    cases fits

theorem mem_of_mapM_index {β : Type} {l rows : List β} {ids : List Nat}
    (read : ids.mapM (index l) = .ok rows) {x : β}
    (member : x ∈ rows) : x ∈ l := by
  obtain ⟨i, -, here⟩ := Fallible.of_mem_mapM_ok read member
  exact List.mem_of_getElem? (getElem?_of_index here)

omit [Field α] [LinearOrder α] in
/-- The rows that are trained on are rows of both sides. -/
theorem trainRows_spec {valueTrainFrac : ℚ} {t : Nat} {X X' : List (Fin t → α)}
    {Y Y' : List (Fin d → α)} (same : Y.length = X.length)
    (trained : trainRows valueTrainFrac X Y = .ok (X', Y')) : Y'.length = X'.length ∧
      ∀ y ∈ Y', y ∈ Y := by
  unfold trainRows at trained
  split at trained
  · obtain ⟨rows, first, trained⟩ := Fallible.ok_of_bind trained
    obtain ⟨outputs, second, trained⟩ := Fallible.ok_of_bind trained
    obtain ⟨rfl, rfl⟩ := Prod.mk.inj (Except.ok.inj trained)
    exact ⟨(Fallible.length_of_mapM second).trans (Fallible.length_of_mapM first).symm,
      fun y member => mem_of_mapM_index second member⟩
  · obtain ⟨rfl, rfl⟩ := Prod.mk.inj (Except.ok.inj trained)
    exact ⟨same, fun y member => member⟩

section Bounds

variable [IsStrictOrderedRing α]

/-- Attention weights are not negative, and sum up to 1 at most. -/
theorem softmaxRow_bounds (positive : ∀ x, 0 ≤ np.exp x) {k : Nat} {row w : Fin k → α}
    (weights : softmaxRow np row = .ok w) :
    (∀ j, 0 ≤ w j) ∧ ∑ j, w j ≤ 1 := by
  obtain ⟨e, exponentials, weights⟩ := Fallible.ok_of_bind weights
  obtain ⟨m, -, exponentials⟩ := Fallible.ok_of_bind exponentials
  obtain rfl := Except.ok.inj exponentials
  obtain rfl := Except.ok.inj weights
  have floor : (0 : α) < 1 / 10 ^ 12 := by positivity
  have total : 0 < max (∑ j, np.exp (row j - m)) (1 / 10 ^ 12) := lt_max_of_lt_right floor
  constructor
  · exact fun j => div_nonneg (positive _) total.le
  · rw [← Finset.sum_div, div_le_one total]
    exact le_max_left _ _

/-- What is fitted to lies within the bounds of the old values. -/
theorem trainingData_spec (positive : ∀ x, 0 ≤ np.exp x) {config : MatchingConfig α}
    {Q Ck K V : List (Fin d → α)} {beta : List α}
    {scale : α} {X : List (Fin Ck.length → α)} {Y : List (Fin d → α)}
    (trained : trainingData np config Q Ck K V beta scale = .ok (X, Y)) :
    Y.length = X.length ∧ ∀ M : Fin d → α, (∀ c, 0 ≤ M c) → (∀ v ∈ V, ∀ c, |v c| ≤ M c) →
      ∀ y ∈ Y, ∀ c, |y c| ≤ M c := by
  obtain ⟨X₀, weights, trained⟩ := Fallible.ok_of_bind trained
  obtain ⟨A, full, trained⟩ := Fallible.ok_of_bind trained
  by_cases mismatch : V.length = K.length
  · rw [if_neg (not_not.2 mismatch)] at trained
    have rows : A.length = X₀.length := by
      have first := Fallible.length_of_mapM weights
      have second := Fallible.length_of_mapM full
      simp only [logitsOf, List.length_map] at first second
      omega
    obtain ⟨same, kept⟩ := trainRows_spec (by rw [List.length_map, rows]) trained
    refine ⟨same, fun M nonneg bound y member c => ?_⟩
    obtain ⟨w, inside, rfl⟩ := List.mem_map.1 (kept y member)
    obtain ⟨_, -, row⟩ := Fallible.of_mem_mapM_ok full inside
    obtain ⟨weight, sum⟩ := softmaxRow_bounds positive row
    have value : ∀ j : Fin K.length, |V.getD j (fun _ => 0) c| ≤ M c := by
      intro j
      have below : j.val < V.length := mismatch.symm ▸ j.isLt
      rw [List.getD_eq_getElem _ _ below]
      exact bound _ (List.getElem_mem below) c
    -- an output is an average of the old values, up to the floor of the denominator
    calc |∑ j : Fin K.length, w j * V.getD j (fun _ => 0) c|
        ≤ ∑ j : Fin K.length, |w j * V.getD j (fun _ => 0) c| := Finset.abs_sum_le_sum_abs _ _
      _ ≤ ∑ j : Fin K.length, w j * M c := by
          refine Finset.sum_le_sum fun j _ => ?_
          rw [abs_mul, abs_of_nonneg (weight j)]
          exact mul_le_mul_of_nonneg_left (value j) (weight j)
      _ ≤ M c := by
          rw [← Finset.sum_mul]
          exact mul_le_of_le_one_left (nonneg c) sum
  · rw [if_pos mismatch] at trained
    cases trained

omit [IsStrictOrderedRing α] in
/-- A key that no query attends to has a value between old ones. -/
theorem clippedZero_spec {V : List (Fin d → α)} {c : Fin d} {z : α}
    (clipped : clippedZero V c = .ok z) :
    ∃ lo ∈ V, ∃ hi ∈ V, lo c ≤ z ∧ z ≤ hi c := by
  unfold clippedZero at clipped
  split at clipped
  next lo hi least greatest =>
    obtain ⟨v, member, rfl⟩ := List.mem_map.1 (List.min?_mem least)
    obtain ⟨w, member', rfl⟩ := List.mem_map.1 (List.max?_mem greatest)
    obtain rfl := Except.ok.inj clipped
    have order : v c ≤ w c := (List.max?_eq_some_iff.1 greatest).2 _ (List.mem_map_of_mem member)
    exact ⟨v, member, w, member', le_min (le_max_right _ _) order, min_le_right _ _⟩
  next => cases clipped

end Bounds

/-! ## The best values -/

/-- The values `Cv` of the kept keys are the best ones for the weights `X` that the queries give
    these keys and the full outputs `Y`. -/
structure BestValues (config : MatchingConfig α) (V : List (Fin d → α)) {t : Nat}
    (X : List (Fin t → α)) (Y Cv : List (Fin d → α)) :
    Prop where
  length : Cv.length = t
  rows : Y.length = X.length
  /-- no values come closer -/
  least : ∀ values, valueLoss X config Y Cv ≤ valueLoss X config Y values
  /-- no others come as close -/
  unique : ∀ values, valueLoss X config Y values ≤ valueLoss X config Y Cv →
    liveValues X values = liveValues X Cv
  /-- neither the error nor the values outgrow the outputs -/
  bounded : squaredError (liveWeights X) Y (liveValues X Cv) +
    2 * (ridgeOf config.valueRidge (liveWeights X) * squaredSize (liveValues X Cv)) ≤
      (Y.map fun y => ∑ c, y c ^ 2).sum
  outputs : ∀ M : Fin d → α, (∀ c, 0 ≤ M c) → (∀ v ∈ V, ∀ c, |v c| ≤ M c) →
    ∀ y ∈ Y, ∀ c, |y c| ≤ M c
  /-- a key that no query attends to stays between old values -/
  dead : ∀ j : Fin t, j ∉ liveKeys X → ∀ c, ∃ lo ∈ V, ∃ hi ∈ V, lo c ≤ Cv.getD j (fun _ => 0) c ∧
    Cv.getD j (fun _ => 0) c ≤ hi c

theorem getD_map_finRange {β : Type} {t : Nat} (f : Fin t → β) (j : Fin t) (filler : β) :
    ((List.finRange t).map f).getD j filler = f j := by
  simp

theorem clippedZeros_spec {V : List (Fin d → α)} {dead : List α}
    (clipped : (List.finRange d).mapM (clippedZero V) = .ok dead) (c : Fin d) :
    ∃ lo ∈ V, ∃ hi ∈ V, lo c ≤ dead.getD c 0 ∧ dead.getD c 0 ≤ hi c := by
  have here : (List.finRange d)[c.val]? = some c := by simp
  obtain ⟨z, read, value⟩ := Fallible.getElem?_of_mapM_ok clipped here
  rw [List.getD_eq_getElem?_getD, read]
  exact clippedZero_spec value

theorem solveValueMap_solves (solves : np.Solves) {valueRidge : α} {n : Nat} {X : List (Fin n → α)}
    {Y : List (Fin d → α)}
    {C : Matrix (Fin n) (Fin d) α} (solved : solveValueMap np valueRidge X Y = .ok C) :
    (gram X + ridgeOf valueRidge X • 1) * C = moment X Y := by
  unfold solveValueMap at solved
  dsimp only at solved
  split at solved
  next found =>
    obtain rfl := Except.ok.inj solved
    exact solves _ _ _ found
  next => cases solved

theorem liveValues_fitted {t : Nat} (X : List (Fin t → α))
    (C : Matrix (Fin (liveKeys X).length) (Fin d) α) (dead : List α) :
    liveValues X ((List.finRange t).map fun j c =>
      if here : (liveKeys X).idxOf j < (liveKeys X).length then C ⟨(liveKeys X).idxOf j, here⟩ c
        else dead.getD c 0) = C := by
  have once : (liveKeys X).Nodup := (List.nodup_finRange t).filter _
  ext i c
  have place : (liveKeys X).idxOf ((liveKeys X).get i) = i.val := List.get_idxOf once i
  have here : (liveKeys X).idxOf ((liveKeys X).get i) < (liveKeys X).length := place.symm ▸ i.isLt
  rw [liveValues, getD_map_finRange, dif_pos here]
  exact congrArg (C · c) (Fin.ext place)

section Best

variable [IsStrictOrderedRing α]

theorem fitValues_best (solves : np.Solves) (positive : ∀ x, 0 ≤ np.exp x)
    {config : MatchingConfig α} {Q Ck K V : List (Fin d → α)}
    {beta : List α} {scale : α} {Cv : List (Fin d → α)}
    (fits : fitValues np config Q Ck K V beta scale = .ok Cv) :
    ∃ X Y, trainingData np config Q Ck K V beta scale = .ok (X, Y) ∧
      BestValues config V X Y Cv := by
  obtain ⟨X, Y, C, dead, trained, solved, clipped, rfl⟩ := fitValues_parts fits
  obtain ⟨rows, outputs⟩ := trainingData_spec positive trained
  have normal : (gram (liveWeights X) + ridgeOf config.valueRidge (liveWeights X) • 1) * C = moment
    (liveWeights X) Y := by
    by_cases none : liveKeys X = []
    · -- there are no equations
      ext i
      have empty : (liveKeys X).length = 0 := List.length_eq_zero_iff.2 none
      exact absurd i.isLt (by omega)
    · exact solveValueMap_solves solves (solved none)
  have fitted := liveValues_fitted X C dead
  have same : Y.length = (liveWeights X).length := by rw [liveWeights, List.length_map, rows]
  have ridge := ridgeOf_pos config.valueRidge (liveWeights X)
  refine ⟨X, Y, trained, ?_⟩
  constructor
  case length => simp
  case rows => exact rows
  case outputs => exact outputs
  case least =>
    intro values
    have least := ridgeLoss_le same normal (liveValues X values)
    have change := mul_nonneg ridge.le (squaredSize_nonneg (liveValues X values - C))
    rw [valueLoss, valueLoss, fitted]
    linarith
  case unique =>
    intro values least
    rw [valueLoss, valueLoss, fitted] at least
    rw [fitted]
    exact eq_of_ridgeLoss_le same normal ridge least
  case bounded =>
    rw [fitted]
    exact squaredError_le same normal
  case dead =>
    intro j unseen c
    have past : ¬ (liveKeys X).idxOf j < (liveKeys X).length := by rwa [List.idxOf_lt_length_iff]
    rw [getD_map_finRange, dif_neg past]
    exact clippedZeros_spec clipped c

/-! ## The heads of a compact cache -/

variable [Inhabited α]

/-- What attention matching makes of a head with keys `K` and values `V`, with queries `Q` and a
    budget of `t`. -/
structure BestHead (np : Numerics α) (config : MatchingConfig α) (Q K V : List (Fin d → α))
    (t : Int) (scale : α) (head : CompactHead α) :
    Prop where
  /-- within the budget, the head as it is -/
  whole : K.length ≤ t → head.key = ofRows K ∧ head.value = ofRows V ∧
    head.biases = List.replicate K.length 0
  /-- else the best values for the keys and biases that are chosen -/
  best : t < K.length → ∃ keys values X Y, head.key = ofRows keys ∧ head.value = ofRows values ∧
    trainingData np config Q keys K V head.biases scale = .ok (X, Y) ∧
      BestValues config V X Y values

theorem fitHead_best (solves : np.Solves) (positive : ∀ x, 0 ≤ np.exp x) {config : MatchingConfig α}
    {Q K V : List (Fin d → α)} {t : Int}
    {scale : α} {fitted : Fitted α d} (fits : fitHead np config Q K V t scale = .ok fitted)
    (positions : List Int) :
    BestHead np config Q K V t scale { key := ofRows fitted.keys, value := ofRows fitted.values, biases := fitted.biases, positions } := by
  by_cases whole : (K.length : Int) ≤ t
  · simp only [fitHead, if_pos whole] at fits
    obtain rfl := Except.ok.inj fits
    exact ⟨fun _ => ⟨rfl, rfl, rfl⟩, fun fewer => absurd whole (not_le.2 fewer)⟩
  · simp only [fitHead, if_neg whole] at fits
    obtain ⟨S, -, fits⟩ := Fallible.ok_of_bind fits
    obtain ⟨Ck, -, fits⟩ := Fallible.ok_of_bind fits
    obtain ⟨beta, -, fits⟩ := Fallible.ok_of_bind fits
    obtain ⟨Cv, values, fits⟩ := Fallible.ok_of_bind fits
    obtain rfl := Except.ok.inj fits
    obtain ⟨X, Y, trained, best⟩ := fitValues_best solves positive values
    exact ⟨fun within => absurd within whole, fun _ => ⟨Ck, Cv, X, Y, rfl, rfl, trained, best⟩⟩

theorem matchHead_best (solves : np.Solves) (positive : ∀ x, 0 ≤ np.exp x)
    {config : MatchingConfig α} {cache : KVCache α}
    {layer : LayerKV α} {Qs : List (List (Fin cache.spec.headDim → α))} {tPerHead : List Int}
    {scale : α} {h : Nat} {head : CompactHead α}
    (matched : matchHead np config cache layer Qs tPerHead scale h = .ok head) :
    ∃ Q K V t, Qs[h]? = some Q ∧ rowsOf layer.key h cache.spec.headDim = .ok K ∧
      rowsOf layer.value h cache.spec.headDim = .ok V ∧
      tPerHead[h]? = some t ∧ BestHead np config Q K V t scale head := by
  obtain ⟨K, keys, matched⟩ := Fallible.ok_of_bind matched
  obtain ⟨V, values, matched⟩ := Fallible.ok_of_bind matched
  obtain ⟨Q, queries, matched⟩ := Fallible.ok_of_bind matched
  obtain ⟨t, budget, matched⟩ := Fallible.ok_of_bind matched
  obtain ⟨fitted, fits, matched⟩ := Fallible.ok_of_bind matched
  obtain ⟨positions, -, matched⟩ := Fallible.ok_of_bind matched
  obtain rfl := Except.ok.inj matched
  exact ⟨Q, K, V, t, getElem?_of_index queries, keys, values, getElem?_of_index budget,
    fitHead_best solves positive fits positions⟩

/-- Every head of layer `l` is fitted to its queries, keys and values, with its share of the
    budget. -/
def BestLayer (np : Numerics α) (config : MatchingConfig α) (cache : KVCache α)
    (refs : RefQueries α) (t minT : Int) (scale : α) (l : Nat)
    (compact : CompactLayer α) : Prop :=
  ∃ layer qAll tPerHead, cache.layers[l]? = some layer ∧ refs.layers[l]? = some qAll ∧
    layerBudgets np config cache refs t minT scale l = .ok tPerHead ∧
    ∀ h < cache.spec.nKvHeads, ∃ Q K V share head, groupQueries qAll cache.spec h = .ok Q ∧
      rowsOf layer.key h cache.spec.headDim = .ok K ∧
        rowsOf layer.value h cache.spec.headDim = .ok V ∧
      tPerHead[h]? = some share ∧ compact.head? h = some head ∧
        BestHead np config Q K V share scale head

theorem matchLayer_best (solves : np.Solves) (positive : ∀ x, 0 ≤ np.exp x)
    {config : MatchingConfig α} {cache : KVCache α}
    {refs : RefQueries α} {t minT : Int} {scale : α} {l : Nat} {compact : CompactLayer α}
    (matched : matchLayer np config cache refs t minT scale l = .ok compact) :
    BestLayer np config cache refs t minT scale l compact := by
  obtain ⟨layer, there, matched⟩ := Fallible.ok_of_bind matched
  obtain ⟨qAll, asked, matched⟩ := Fallible.ok_of_bind matched
  obtain ⟨Qs, grouped, matched⟩ := Fallible.ok_of_bind matched
  obtain ⟨tPerHead, allocated, matched⟩ := Fallible.ok_of_bind matched
  obtain ⟨heads, fitted, matched⟩ := Fallible.ok_of_bind matched
  obtain rfl := Except.ok.inj matched
  refine ⟨layer, qAll, tPerHead, getElem?_of_index there, getElem?_of_index asked, ?_,
    fun h inside => ?_⟩
  · simp only [layerBudgets, there, asked, grouped, allocated, bind, Except.bind]
  · have number : (List.range cache.spec.nKvHeads)[h]? = some h := by simp [inside]
    obtain ⟨head, made, matched⟩ := Fallible.getElem?_of_mapM_ok fitted number
    obtain ⟨Q, K, V, share, queries, keys, values, budget, best⟩ :=
      matchHead_best solves positive matched
    -- the queries of the head are those of its group
    obtain ⟨Q', found, group⟩ := Fallible.getElem?_of_mapM_ok grouped number
    obtain rfl := Option.some.inj (queries.symm.trans found)
    exact ⟨Q, K, V, share, head, group, keys, values, budget,
      by rw [CompactLayer.head?_ofHeads, made], best⟩

/-- Attention matching returns, and every head of what it returns answers as well as one with its
    keys and biases can. -/
theorem attentionMatching_best (lawful : np.Lawful) (solves : np.Solves)
    (positive : ∀ x, 0 ≤ np.exp x) (config : MatchingConfig α)
    {cache : KVCache α} (shaped : CacheShaped cache) {refs : RefQueries α}
    (queries : RefsShaped cache.spec refs)
    {budget : CompactionBudget} {target : Int} (given : budget.targetT cache.seqLen = .ok target)
    (enough : config.budgetAlloc = .uniform → 1 ≤ target) :
    ∃ compact, (attentionMatching np config).compact cache budget (some refs) = .ok compact ∧
      ∀ l < cache.spec.nLayers, ∃ layer, compact.layers[l]? = some layer ∧
        BestLayer np config cache refs (min target cache.seqLen) (min budget.minTokens cache.seqLen)
          (1 / np.sqrt cache.spec.headDim) l
          layer := by
  obtain ⟨_, -, -, compact, made, -⟩ :=
    attentionMatching_keeps np lawful config shaped queries given enough
  refine ⟨compact, made, fun l inside => ?_⟩
  simp only [attentionMatching, given] at made
  obtain ⟨_, same, made⟩ := Fallible.ok_of_bind made
  obtain rfl := Except.ok.inj same
  obtain ⟨layers, matched, made⟩ := Fallible.ok_of_bind made
  obtain rfl := Except.ok.inj made
  have number : (List.range cache.spec.nLayers)[l]? = some l := by simp [inside]
  obtain ⟨layer, there, fitted⟩ := Fallible.getElem?_of_mapM_ok matched number
  exact ⟨layer, there, matchLayer_best solves positive fitted⟩

end Best

theorem realNumerics_solves : realNumerics.Solves := by
  intro k d A B C solved
  by_cases singular : A.det = 0
  · simp [realNumerics, singular] at solved
  · obtain rfl : A⁻¹ * B = C := by simpa [realNumerics, singular] using solved
    rw [← Matrix.mul_assoc, Matrix.mul_nonsing_inv A (isUnit_iff_ne_zero.2 singular),
      Matrix.one_mul]

theorem attentionMatching_best_tiny : ∃ compact,
    (attentionMatching realNumerics plainMatching).compact tinyCache { tokensPerHead := some 1 }
    (some tinyRefs) = .ok compact ∧
      ∀ l < 1, ∃ layer, compact.layers[l]? = some layer ∧
        BestLayer realNumerics plainMatching tinyCache tinyRefs (min 1 tinyCache.seqLen)
          (min 1 tinyCache.seqLen)
          (1 / realNumerics.sqrt tinyCache.spec.headDim) l layer := by
  have given : CompactionBudget.targetT { tokensPerHead := some 1 } tinyCache.seqLen = .ok 1 := rfl
  have positive : ∀ x, 0 ≤ realNumerics.exp x := fun x => (Real.exp_pos x).le
  exact attentionMatching_best realNumerics_lawful realNumerics_solves positive plainMatching tinyCache_shaped tinyRefs_shaped given
    fun _ => le_rfl

end Dexa.Compaction
