import Mathlib.Algebra.BigOperators.Fin
import Mathlib.Data.Matrix.Mul
import Mathlib.LinearAlgebra.Matrix.Trace
import Dexa.Compaction.Base
import Dexa.Lib.Greedy
import Dexa.Lib.Ridge
import Dexa.Segments.Selection

/-! # Attention matching (`dexa/compaction/attention_matching.py`)

For each head: choose the keys to keep, then a bias for each so that they draw the attention all
keys drew, then values so that they answer as all values did.  With `sensitivity` the heads of a
layer share its budget by how much their keys matter.  A matrix is the list of its rows.  The floats
are not rounded, so `astype` is left out; what numpy and scipy compute beyond field operations is
`Numerics`.
-/

namespace Dexa.Compaction

open Dexa.Core Dexa.Lib Dexa.Platform

section Scores

structure Numerics (α : Type) extends Segments.Numpy α where
  exp : α → α
  log : α → α
  /-- `nnls(A, b, maxiter=...)`, absent where the iterations run out -/
  nnls {k : Nat} : List (Fin k → α) → List α → Nat → Option (Fin k → α)
  lstsq {k : Nat} : List (Fin k → α) → List α → Fin k → α
  /-- `np.linalg.solve(A, B)`, absent for a singular `A` -/
  solve {k d : Nat} : Matrix (Fin k) (Fin k) α → Matrix (Fin k) (Fin d) α →
    Option (Matrix (Fin k) (Fin d) α)
  /-- `repr` of a float -/
  repr : α → FloatText

variable {α : Type}

def coreMismatch : Raised :=
  .valueError "matmul: Input operand 1 has a mismatch in its core dimension 0"

def emptyMaximum : Raised :=
  .valueError "zero-size array to reduction operation maximum which has no identity"

/-- The rows of `a[h]`; rows of another width fail the products they go into. -/
def rowsOf [Inhabited α] (a : NDArray α) (h d : Nat) : Except Raised (List (Fin d → α)) := do
  let m ← headOf a h
  match m.shape with
  | [n, width] => if width = d then return (List.range n).map fun i c => m.getD [i, c] default else .error coreMismatch
  | _ => .error coreMismatch

/-- The array of such rows. -/
def ofRows [Inhabited α] {d : Nat} (rows : List (Fin d → α)) : NDArray α :=
  NDArray.ofFn [rows.length, d] fun ix =>
    if inside : ix.getD 1 0 < d then rows.getD (ix.getD 0 0) (fun _ => default)
      ⟨ix.getD 1 0, inside⟩ else default

section Rows

variable [Inhabited α]

theorem rowsOf_ok {a : NDArray α} {heads n d h : Nat} (shape : a.shape = [heads, n, d])
    (inside : h < heads) :
    ∃ rows, rowsOf a h d = .ok rows ∧ rows.length = n ∧
      ∀ i row, rows[i]? = some row → ∀ c : Fin d, a.get? [h, i, c] = some (row c) := by
  obtain ⟨m, found, mShape⟩ := headOf_ok shape inside
  have same : m = a.select0 h := by
    rw [headOf, shape, List.headD_cons, if_pos inside] at found
    exact (Except.ok.inj found).symm
  refine ⟨(List.range n).map fun i c => m.getD [i, c] default, ?_, by simp, fun i row here c => ?_⟩
  · simp only [rowsOf, found, bind, Except.bind, mShape, if_true]
    rfl
  · obtain ⟨insideI, rfl⟩ := List.getElem?_eq_some_iff.1 here
    rw [List.length_map, List.length_range] at insideI
    rw [List.getElem_map, List.getElem_range, same,
      NDArray.some_getD default (by simp [NDArray.shape_select0 h shape, insideI]),
      NDArray.get?_select0 shape inside]

@[simp] theorem shape_ofRows {d : Nat} (rows : List (Fin d → α)) :
    (ofRows rows).shape = [rows.length, d] := rfl

theorem get?_ofRows {d : Nat} {rows : List (Fin d → α)} {j : Nat} {row : Fin d → α}
    (here : rows[j]? = some row) (c : Fin d) :
    (ofRows rows).get? [j, c] = some (row c) := by
  obtain ⟨inside, rfl⟩ := List.getElem?_eq_some_iff.1 here
  rw [ofRows, NDArray.get?_ofFn_inBounds _ (by simp [inside])]
  simp [inside]

end Rows

/-- The query heads that share kv head `h`. -/
def groupHeads (spec : ModelSpec) (h : Nat) : Except Raised (List Nat) :=
  if spec.groupSize = 0 ∧ spec.nQHeads ≠ 0 then .error .zeroDivision
  else .ok ((List.range spec.nQHeads).filter fun qh => spec.kvHeadOf qh = h)

/-- `np.concatenate(blocks, axis=0)`. -/
def stackRows {β : Type} (blocks : List (List β)) : Except Raised (List β) :=
  if blocks = [] then .error (.valueError "need at least one array to concatenate")
    else .ok blocks.flatten

/-- `_group_queries`. -/
def groupQueries [Inhabited α] (qAll : NDArray α) (spec : ModelSpec) (h : Nat) :
    Except Raised (List (Fin spec.headDim → α)) := do
  stackRows (← (← groupHeads spec h).mapM fun qh => rowsOf qAll qh spec.headDim)

theorem groupHeads_ok {spec : ModelSpec} {h : Nat} (grouped : spec.nKvHeads ≤ spec.nQHeads)
    (inside : h < spec.nKvHeads) :
    ∃ qHeads, groupHeads spec h = .ok qHeads ∧ qHeads ≠ [] ∧ ∀ qh ∈ qHeads, qh < spec.nQHeads := by
  have positive : 0 < spec.groupSize := Nat.div_pos grouped (by omega)
  -- the first head of the group
  have first : h * spec.groupSize < spec.nQHeads :=
    calc h * spec.groupSize < spec.nKvHeads * spec.groupSize := Nat.mul_lt_mul_of_pos_right inside positive
      _ ≤ spec.nQHeads := Nat.mul_div_le ..
  have there : h * spec.groupSize ∈ (List.range spec.nQHeads).filter
    fun qh => spec.kvHeadOf qh = h := by
    simp [first, ModelSpec.kvHeadOf, Nat.mul_div_cancel _ positive]
  refine ⟨_, if_neg (by omega), List.ne_nil_of_mem there, fun qh member => ?_⟩
  exact List.mem_range.1 (List.mem_filter.1 member).1

theorem groupQueries_ok [Inhabited α] {qAll : NDArray α} {spec : ModelSpec} {nRef h : Nat}
    (shape : qAll.shape = [spec.nQHeads, nRef, spec.headDim]) (asked : 0 < nRef)
    (grouped : spec.nKvHeads ≤ spec.nQHeads)
    (inside : h < spec.nKvHeads) : ∃ Q, groupQueries qAll spec h = .ok Q ∧ Q ≠ [] := by
  obtain ⟨qHeads, found, nonempty, bound⟩ := groupHeads_ok grouped inside
  have each : ∀ qh ∈ qHeads, ∃ rows, rowsOf qAll qh spec.headDim = .ok rows ∧ rows.length = nRef :=
    fun qh member =>
    (rowsOf_ok shape (bound qh member)).imp fun _ read => ⟨read.1, read.2.1⟩
  obtain ⟨blocks, read, related⟩ := Fallible.mapM_ok each
  obtain ⟨rows, more, rfl, size⟩ : ∃ rows more, blocks = rows :: more ∧ rows.length = nRef := by
    cases related with
    | nil => exact absurd rfl nonempty
    | cons size _ => exact ⟨_, _, rfl, size⟩
  refine ⟨(rows :: more).flatten, ?_, ?_⟩
  · simp only [groupQueries, found, read, bind, Except.bind, stackRows,
      if_neg (List.cons_ne_nil _ _)]
  · rw [List.flatten_cons, ← List.length_pos_iff, List.length_append]
    omega

variable [Field α] [LinearOrder α]

/-- `(Q @ K.T) * scale`. -/
def logitsOf {d : Nat} (Q K : List (Fin d → α)) (scale : α) : List (Fin K.length → α) :=
  Q.map fun q j => (∑ c, q c * K.get j c) * scale

/-- `row.max()`. -/
def rowMax {k : Nat} (row : Fin k → α) : Except Raised α :=
  match (List.ofFn row).max? with
  | some m => .ok m
  | none => .error emptyMaximum

variable (np : Numerics α)

/-- `np.exp(row - row.max())`. -/
def expRow {k : Nat} (row : Fin k → α) : Except Raised (Fin k → α) := do
  let m ← rowMax row
  return fun j => np.exp (row j - m)

def softmaxRow {k : Nat} (row : Fin k → α) : Except Raised (Fin k → α) := do
  let e ← expRow np row
  return fun j => e j / max (∑ i, e i) (1 / 10 ^ 12)

/-- `_softmax(logits, axis=-1)`. -/
def softmax {k : Nat} (logits : List (Fin k → α)) : Except Raised (List (Fin k → α)) :=
  logits.mapM (softmaxRow np)

/-- `np.sqrt(np.mean(A ** 2, axis=0))`. -/
def importance {k : Nat} (A : List (Fin k → α)) (j : Fin k) : α :=
  np.sqrt ((A.map fun row => row j ^ 2).sum / A.length)

/-- `A.sum(axis=0)`. -/
def mass {k : Nat} (A : List (Fin k → α)) (j : Fin k) : α := (A.map fun row => row j).sum

/-- `np.argsort(scores)[::-1]`. -/
def bestFirst {k : Nat} (scores : Fin k → WithBot α) : List Nat :=
  (np.argsort (List.ofFn scores)).reverse

omit [Field α] in
theorem rowMax_ok {k : Nat} (positive : 0 < k) (row : Fin k → α) : ∃ m, rowMax row = .ok m := by
  have present : ((List.ofFn row).max?).isSome := by
    rw [List.isSome_max?_iff]
    intro empty
    have length := congrArg List.length empty
    simp only [List.length_ofFn, List.length_nil] at length
    omega
  obtain ⟨m, found⟩ := Option.isSome_iff_exists.1 present
  exact ⟨m, by rw [rowMax, found]⟩

theorem expRow_ok {k : Nat} (positive : 0 < k) (row : Fin k → α) : ∃ e, expRow np row = .ok e := by
  obtain ⟨m, found⟩ := rowMax_ok positive row
  exact ⟨_, by rw [expRow, found]; rfl⟩

theorem softmax_ok {k : Nat} (positive : 0 < k) (logits : List (Fin k → α)) :
    ∃ A, softmax np logits = .ok A := by
  have each : ∀ row ∈ logits, ∃ probabilities, softmaxRow np row = .ok probabilities ∧ True := by
    intro row _
    obtain ⟨e, found⟩ := expRow_ok np positive row
    exact ⟨_, by rw [softmaxRow, found]; rfl, trivial⟩
  obtain ⟨A, ok, -⟩ := Fallible.mapM_ok each
  exact ⟨A, ok⟩

omit [Field α] in
theorem bestFirst_perm (argsorts : np.toNumpy.Argsorts) {k : Nat} (scores : Fin k → WithBot α) :
    (bestFirst np scores).Perm (List.range k) := by
  have perm := argsorts.perm (List.ofFn scores)
  rw [List.length_ofFn] at perm
  exact (List.reverse_perm _).trans perm

end Scores

inductive KeySelection where
  | highestAttention
  | omp
  deriving DecidableEq, Repr

def KeySelection.name : KeySelection → String
  | highestAttention => "highest_attention"
  | omp => "omp"

inductive BudgetAlloc where
  | uniform
  | sensitivity
  deriving DecidableEq, Repr

def BudgetAlloc.name : BudgetAlloc → String
  | uniform => "uniform"
  | sensitivity => "sensitivity"

/-- What the constructor accepts. -/
structure MatchingConfig (α : Type) [Zero α] [LE α] where
  keySelection : KeySelection := .highestAttention
  budgetAlloc : BudgetAlloc := .uniform
  valueRidge : α
  valueTrainFrac : ℚ := 1
  massFrac : ℚ := 0
  recentFrac : ℚ := 0
  ridge : 0 ≤ valueRidge
  train : 0 < valueTrainFrac ∧ valueTrainFrac ≤ 1
  mass : 0 ≤ massFrac ∧ massFrac ≤ 1
  recent : 0 ≤ recentFrac ∧ recentFrac ≤ 1

variable {α : Type} [Field α] [LinearOrder α] (np : Numerics α)

/-- Head budgets out of each head's importances in descending order. -/
def allocateGreedily (imp : List (List α)) (t : Int) (T : Nat) (minT : Int) : List Int :=
  let nKv := imp.length
  let total := t * nKv
  let minT := max 1 (min minT t)
  let alloc := List.replicate nKv minT
  let remaining := total - minT * nKv
  if remaining ≤ 0 then alloc.map fun a => min a T
  else
    let cands := (List.range nKv).flatMap fun h =>
      (List.range' minT.toNat (T - minT.toNat)).map fun r => ((imp.getD h []).getD r 0, h)
    let taken := (ranked Prod.fst cands).take remaining.toNat
    (taken.foldl (fun alloc c => alloc.modify c.2 (· + 1)) alloc).map fun a => min a T

section Heads

variable [Inhabited α] {d : Nat}

/-- The importances of one head's keys, in descending order. -/
def headImportances (kAll : NDArray α) (scale : α) (e : List (Fin d → α) × Nat) :
    Except Raised (List α) := do
  let A ← softmax np (logitsOf e.1 (← rowsOf kAll e.2 d) scale)
  return ((List.ofFn (importance np A)).mergeSort fun x y => decide (x ≤ y)).reverse

/-- `_allocate_budget`. -/
def allocateBudget (alloc : BudgetAlloc) (Qs : List (List (Fin d → α))) (kAll : NDArray α) (t : Int)
    (T : Nat) (minT : Int)
    (scale : α) : Except Raised (List Int) := do
  if alloc = .uniform ∨ T ≤ t then return List.replicate Qs.length t
  let imp ← Qs.zipIdx.mapM (headImportances np kAll scale)
  return allocateGreedily imp t T minT

end Heads

/-- `l[:t]`. -/
def sliceTo {β : Type} (l : List β) (t : Int) : List β := if t < 0 then l.take (l.length + t).toNat
    else l.take t.toNat

/-- `_select_highest_attention`. -/
def selectHighestAttention {T : Nat} (fullLogits : List (Fin T → α)) : Except Raised (List Nat) :=
  do
  let A ← softmax np fullLogits
  return bestFirst np fun j => ((importance np A j : α) : WithBot α)

/-- `take(order, k)`, from what is chosen already. -/
def takeUnseen : List Nat → List Nat → Int → List Nat
  | chosen, [], _ => chosen
  | chosen, i :: order, k =>
    if k ≤ 0 then chosen
    else if i ∈ chosen then takeUnseen chosen order k
    else takeUnseen (chosen ++ [i]) order (k - 1)

/-- `int(round(frac * t))`. -/
def roundShare (frac : ℚ) (t : Int) : Int := roundHalfEven (frac * t)

/-- `_select_hybrid`. -/
def selectHybrid (massFrac recentFrac : ℚ) {T : Nat} (fullLogits : List (Fin T → α)) (t : Int) :
    Except Raised (List Nat) := do
  let A ← softmax np fullLogits
  let nRecent := min (roundShare recentFrac t) t
  let nMass := min (roundShare massFrac t) (t - nRecent)
  let chosen := takeUnseen [] (List.range T).reverse nRecent
  let chosen := takeUnseen chosen (bestFirst np fun j => ((mass A j : α) : WithBot α)) nMass
  return takeUnseen chosen (bestFirst np fun j => ((importance np A j : α) : WithBot α))
    (t - chosen.length)

/-- `_nnls_robust`. -/
def nnlsRobust {k : Nat} (A : List (Fin k → α)) (b : List α) : Fin k → α :=
  match np.nnls A b (max 50 (20 * k)) with
  | some w => w
  | none => fun j => max (np.lstsq A b j) 0

/-- The correlation of key `j` with the residual; a selected key has none. -/
def correlation {T : Nat} (Phi : List (Fin T → α)) (selected : List (Fin T)) (residual : List α)
    (j : Fin T) : WithBot α :=
  if j ∈ selected then ⊥
  else
    let norm := np.sqrt ((Phi.map fun row => row j ^ 2).sum) + 1 / 10 ^ 12
    ((|(List.zipWith (fun row r => row j * r) Phi residual).sum| / norm : α) : WithBot α)

/-- A round of the loop in `_select_omp`, over the selected keys and the residual. -/
def ompRound {T : Nat} (Phi : List (Fin T → α)) (m : List α) (s : List (Fin T) × List α) (_ : Nat) :
    Except Raised (List (Fin T) × List α) :=
  match (List.finRange T).argmax (correlation np Phi s.1 s.2) with
  | none => .error (.valueError "attempt to get argmax of an empty sequence")
  | some j =>
    let selected := s.1 ++ [j]
    let A := Phi.map fun row i => row (selected.get i)
    let w := nnlsRobust np A m
    .ok (selected, List.zipWith (fun row mi => mi - ∑ i, row i * w i) A m)

/-- `_select_omp`. -/
def selectOmp {T : Nat} (fullLogits : List (Fin T → α)) (t : Int) : Except Raised (List Nat) := do
  let Phi ← fullLogits.mapM (expRow np)
  let m := Phi.map fun row => ∑ j, row j
  let s ← (List.range (min t T).toNat).foldlM (ompRound np Phi m) ([], m)
  return s.1.map Fin.val

/-- The choice among the selections in `_fit_head`. -/
def selectKeys (config : MatchingConfig α) {T : Nat} (fullLogits : List (Fin T → α)) (t : Int) :
    Except Raised (List Nat) :=
  if 0 < config.massFrac ∨
    0 < config.recentFrac then selectHybrid np config.massFrac config.recentFrac fullLogits t
  else
    match config.keySelection with
    | .omp => selectOmp np fullLogits t
    | .highestAttention => (selectHighestAttention np fullLogits).map (sliceTo · t)

variable {d : Nat}

/-- `_fit_bias`. -/
def fitBias {T : Nat} (Q Ck : List (Fin d → α)) (fullLogits : List (Fin T → α)) (scale : α) :
    Except Raised (List α) := do
  let compactLogits := logitsOf Q Ck scale
  let c ← fullLogits.mapM rowMax
  let A := List.zipWith (fun row ci j => np.exp (row j - ci)) compactLogits c
  let m := List.zipWith (fun row ci => ∑ j, np.exp (row j - ci)) fullLogits c
  let w := nnlsRobust np A m
  return List.ofFn fun j => np.log (max (w j) (1 / 10 ^ 9))

/-! ## Step 3: the values -/

/-- The ridge of `_solve_value_map`. -/
def ridgeOf (valueRidge : α) {n : Nat} (X : List (Fin n → α)) : α :=
  if 0 < valueRidge then valueRidge
    else 1 / 10 ^ 6 * ((gram X).trace / (max n 1 : Nat)) + 1 / 10 ^ 12

/-- `_solve_value_map`. -/
def solveValueMap (valueRidge : α) {n : Nat} (X : List (Fin n → α)) (Y : List (Fin d → α)) :
    Except Raised (Matrix (Fin n) (Fin d) α) :=
  let XtY : Matrix (Fin n) (Fin d) α := fun i c => (List.zipWith (fun x y => x i * y c) X Y).sum
  match np.solve (gram X + ridgeOf valueRidge X • 1) XtY with
  | some C => .ok C
  | none => .error (.valueError "Singular matrix")

/-- `np.linspace(0, last, n).astype(int)`, in exact arithmetic: rounded floats can truncate to the
    integer below. -/
def linspace (last n : Nat) : List Nat := (List.range n).map fun i => i * last / (n - 1)

/-- The rows that the value map is fitted to. -/
def trainRows (valueTrainFrac : ℚ) {t : Nat} (X : List (Fin t → α)) (Y : List (Fin d → α)) :
    Except Raised (List (Fin t → α) × List (Fin d → α)) :=
  if valueTrainFrac < 1 ∧ t < X.length then do
    let nFit := max t (roundShare valueTrainFrac X.length).toNat
    let idx := linspace (X.length - 1) nFit
    return (← idx.mapM (index X), ← idx.mapM (index Y))
  else return (X, Y)

/-- `np.clip(0, V.min(axis=0), V.max(axis=0))`. -/
def clippedZero (V : List (Fin d → α)) (c : Fin d) : Except Raised α :=
  match (V.map (· c)).min?, (V.map (· c)).max? with
  | some lo, some hi => .ok (min (max 0 lo) hi)
  | _, _ => .error (.valueError "zero-size array to reduction operation minimum which has no identity")

/-- The keys that the queries attend to. -/
def liveKeys {t : Nat} (X : List (Fin t → α)) : List (Fin t) :=
  (List.finRange t).filter fun j => 1 / 10 ^ 6 * (X.length : α) < mass X j

/-- `_fit_values`. -/
def fitValues (config : MatchingConfig α) (Q Ck K V : List (Fin d → α)) (beta : List α) (scale : α) :
    Except Raised (List (Fin d → α)) := do
  let X ← softmax np ((logitsOf Q Ck scale).map fun row j => row j + beta.getD j 0)
  let A ← softmax np (logitsOf Q K scale)
  if V.length ≠ K.length then .error coreMismatch
  let Y := A.map fun row c => ∑ j : Fin K.length, row j * V.getD j (fun _ => 0) c
  let (X, Y) ← trainRows config.valueTrainFrac X Y
  let live := liveKeys X
  let fitted ←
    if live = [] then pure 0
    else solveValueMap np config.valueRidge (X.map fun row (i : Fin live.length) => row (live.get i)) Y
  let dead ← (List.finRange d).mapM (clippedZero V)
  return (List.finRange Ck.length).map fun j c =>
    if here : live.idxOf j < live.length then fitted ⟨live.idxOf j, here⟩ c else dead.getD c 0

/-! ## The fit -/

/-- What a head is fitted to, and the indices of the keys it keeps. -/
structure Fitted (α : Type) (d : Nat) where
  keys : List (Fin d → α)
  values : List (Fin d → α)
  biases : List α
  selected : List Nat

/-- `_fit_head`. -/
def fitHead (config : MatchingConfig α) (Q K V : List (Fin d → α)) (t : Int) (scale : α) :
    Except Raised (Fitted α d) := do
  let T := K.length
  if T ≤ t then return { keys := K, values := V, biases := List.replicate T 0, selected := List.range T }
  let fullLogits := logitsOf Q K scale
  let S ← selectKeys np config fullLogits t
  let S := S.mergeSort fun i j => decide (i ≤ j)
  let Ck ← S.mapM (index K)
  let beta ← fitBias np Q Ck fullLogits scale
  let Cv ← fitValues np config Q Ck K V beta scale
  return { keys := Ck, values := Cv, biases := beta, selected := S }

section Compact

variable [Inhabited α] (config : MatchingConfig α)

def matchHead (cache : KVCache α) (layer : LayerKV α)
    (Qs : List (List (Fin cache.spec.headDim → α))) (tPerHead : List Int)
    (scale : α) (h : Nat) : Except Raised (CompactHead α) := do
  let K ← rowsOf layer.key h cache.spec.headDim
  let V ← rowsOf layer.value h cache.spec.headDim
  let fitted ← fitHead np config (← index Qs h) K V (← index tPerHead h) scale
  let positions ← fitted.selected.mapM (index cache.positions)
  return { key := ofRows fitted.keys, value := ofRows fitted.values, biases := fitted.biases, positions }

def matchLayer (cache : KVCache α) (refs : RefQueries α) (t minT : Int) (scale : α) (l : Nat) :
    Except Raised (CompactLayer α) := do
  let layer ← index cache.layers l
  let qAll ← index refs.layers l
  let Qs ← (List.range cache.spec.nKvHeads).mapM (groupQueries qAll cache.spec)
  let tPerHead ← allocateBudget np config.budgetAlloc Qs layer.key t cache.seqLen minT scale
  let heads ← (List.range cache.spec.nKvHeads).mapM
    (matchHead np config cache layer Qs tPerHead scale)
  return .ofHeads heads

/-- `AttentionMatching`. -/
def attentionMatching : Compactor α where
  name := "attention_matching"
  needsRefQueries := true
  compact cache budget
    | none => .error (.valueError "AttentionMatching requires ref_queries")
    | some refs => do
      let scale := 1 / np.sqrt cache.spec.headDim
      let T := cache.seqLen
      let t := min (← budget.targetT T) T
      let minT := min budget.minTokens T
      let layers ← (List.range cache.spec.nLayers).mapM
        (matchLayer np config cache refs t minT scale)
      return { spec := cache.spec, layers, logicalLength := T, method := "attention_matching",
               metadata := Dict.ofList
                 [("key_selection", .str config.keySelection.name), ("target_t", .int t),
                  ("budget_alloc", .str config.budgetAlloc.name),
                    ("value_ridge", .float (np.repr config.valueRidge))] }

end Compact

end Dexa.Compaction
