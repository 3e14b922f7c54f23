import Dexa.Compaction.KeptTokens
import Dexa.Memory.HeadShares

/-! # The working memory over budgets by sensitivity

Sensitivity takes tokens from the heads whose keys matter less and gives them to the others, which
then hold more than the memory's budget.  That does not happen exactly while the budget of every
head ends between a key of its own that matters more than what the other heads leave out, and one
that matters less than what they keep.
-/

namespace Dexa.Memory.WorkingMemory

open Dexa.Core Dexa.Lib Dexa.Compaction

variable {α : Type} [Inhabited α] [Field α] [LinearOrder α]

/-- How much the keys of layer `l` matter to the reference queries, on each head in descending
    order. -/
def layerImportances (np : Numerics α) (cache : KVCache α) (refs : RefQueries α) (l : Nat) :
    Except Raised (List (List α)) := do
  let layer ← index cache.layers l
  let qAll ← index refs.layers l
  let Qs ← (List.range cache.spec.nKvHeads).mapM (groupQueries qAll cache.spec)
  Qs.zipIdx.mapM (headImportances np layer.key (1 / np.sqrt cache.spec.headDim))

/-- With `size` keys a head, the last key of each head matters more than the first one left out of
    any other; where they matter the same, the earlier head comes first. -/
def Balanced (imp : List (List α)) (size : Nat) : Prop :=
  ∀ h < imp.length, ∀ h' < imp.length, h ≠ h' →
    importanceAt imp (h', size) < importanceAt imp (h, size - 1) ∨
      importanceAt imp (h', size) = importanceAt imp (h, size - 1) ∧ h < h'

/-- What is older than the recent window is balanced on each layer, when the text is over the
    budget. -/
def BalancedText (np : Numerics α) (backend : ModelBackend α) (config : WorkingMemoryConfig)
    (tokens : List Int) : Prop :=
  config.budgetTokens < tokens.length →
    let old := tokens.take (tokens.length - config.keepRecentTokens)
    config.compactBudget = 1 ∨ ∀ l < backend.spec.nLayers, ∃ imp,
      layerImportances np (backend.prefill old 0)
        (backend.referenceQueries old config.refStrategy config.refPerHead) l = .ok imp ∧
        Balanced imp config.compactBudget

theorem leastBudget_one (t : Int) : leastBudget t 1 = 1 := by
  unfold leastBudget
  omega

section Shares

variable (np : Numerics α) (config : MatchingConfig α) (backend : ModelBackend α)
  (strategy : String) (perHead : Int) (size : Nat)

/-- What head `h` of layer `l` may keep of a text, with `size` tokens a head. -/
def sensitiveShare (tokens : List Int) (l h : Nat) : Nat :=
  let budgets :=
    layerBudgets np config (backend.prefill tokens 0)
      (backend.referenceQueries tokens strategy perHead) size 1
    (1 / np.sqrt backend.spec.headDim) l
  ((budgets.toOption.getD []).getD h 0).toNat

variable {np config backend strategy perHead size}

section Measured

variable (shaped : Shaped backend)
  (asked : ∀ tokens, tokens ≠ [] →
    RefsShaped backend.spec (backend.referenceQueries tokens strategy perHead))
include shaped

omit [Inhabited α] [Field α] [LinearOrder α] in
theorem prefill_shaped {tokens : List Int} (some : tokens ≠ []) :
    CacheShaped (backend.prefill tokens 0) := by
  constructor
  case nonempty =>
    rw [shaped.seqLen]
    exact List.length_pos_iff.2 some
  case layers =>
    intro l inside
    rw [shaped.spec] at inside ⊢
    rw [shaped.seqLen]
    have present : l < (backend.prefill tokens 0).layers.length := by rwa [shaped.layers_length]
    exact ⟨_, List.getElem?_eq_getElem present,
      shaped.layer_shape tokens 0 _ (List.getElem_mem present)⟩

include asked

variable (np) in
theorem layerBudgets_sensitivity (sensitive : config.budgetAlloc = .sensitivity) {tokens : List Int}
    (longer : size < tokens.length)
    {l : Nat} (inside : l < backend.spec.nLayers) :
    ∃ imp, layerImportances np (backend.prefill tokens 0)
      (backend.referenceQueries tokens strategy perHead) l = .ok imp ∧
      imp.length = backend.spec.nKvHeads ∧
        (∀ row ∈ imp, row.length = tokens.length ∧ row.Pairwise (· ≥ ·)) ∧
      layerBudgets np config (backend.prefill tokens 0)
        (backend.referenceQueries tokens strategy perHead) size 1
        (1 / np.sqrt backend.spec.headDim) l = .ok (allocateGreedily imp size tokens.length 1) := by
  have some : tokens ≠ [] := List.length_pos_iff.1 (by omega)
  have spec := shaped.spec tokens 0
  have seqLen := shaped.seqLen tokens 0
  obtain ⟨layer, there, keyShape, -⟩ := (prefill_shaped shaped some).layers l (spec ▸ inside)
  obtain ⟨qAll, nRef, found, asks, queryShape⟩ := (asked tokens some).layers l inside
  rw [spec, seqLen] at keyShape
  obtain ⟨Qs, grouped, length, -⟩ :=
    Fallible.mapM_range_ok (f := groupQueries qAll backend.spec) (P := fun _ Q => Q ≠ [])
    (n := backend.spec.nKvHeads) fun h insideHead => groupQueries_ok queryShape asks
      (asked tokens some).grouped insideHead
  obtain ⟨imp, measured, heads, rows⟩ :=
    mapM_headImportances_ok np keyShape (List.length_pos_iff.2 some)
    (1 / np.sqrt backend.spec.headDim) length
  refine ⟨imp, ?_, heads, rows, ?_⟩
  · simp only [layerImportances, index_ok there, index_ok found, bind, Except.bind]
    rw [spec, grouped]
    exact measured
  · have branch : ¬ (config.budgetAlloc = .uniform ∨ (tokens.length : Int) ≤ size) := by
      simp [sensitive, longer]
    simp only [layerBudgets, index_ok there, index_ok found, bind, Except.bind]
    rw [spec, seqLen, grouped]
    simp only [allocateBudget, if_neg branch, measured, bind, Except.bind]
    rfl

end Measured

section Allocated

variable {tokens : List Int} {l : Nat} {imp : List (List α)} (positive : 1 ≤ size)
  (longer : size < tokens.length)
  (heads : imp.length = backend.spec.nKvHeads)
  (allocated : layerBudgets np config (backend.prefill tokens 0)
    (backend.referenceQueries tokens strategy perHead) size 1
    (1 / np.sqrt backend.spec.headDim) l = .ok (allocateGreedily imp size tokens.length 1))
include positive longer heads allocated

/-- One token, which is the least, and what the greedy allocation adds. -/
theorem sensitiveShare_eq {h : Nat} (inside : h < backend.spec.nKvHeads) :
    sensitiveShare np config backend strategy perHead size tokens l h =
      1 + extraShare imp size tokens.length 1 h := by
  have closed := allocateGreedily_eq imp (t := size) (T := tokens.length) 1 (by omega) (by omega)
  unfold sensitiveShare
  rw [allocated]
  simp [heads, inside, closed, leastBudget_one, Except.toOption]
  omega

theorem sensitiveShare_le {h : Nat} (inside : h < backend.spec.nKvHeads) :
    sensitiveShare np config backend strategy perHead size tokens l h ≤ tokens.length := by
  have room : extraShare imp size tokens.length 1 h ≤ tokens.length - leastBudget (size : Int) 1 :=
    share_le h
  rw [leastBudget_one] at room
  rw [sensitiveShare_eq positive longer heads allocated inside]
  omega

theorem sum_sensitiveShare :
    ((List.range backend.spec.nKvHeads).map
      (sensitiveShare np config backend strategy perHead size tokens l)).sum =
      backend.spec.nKvHeads * size := by
  have extra : ((List.range imp.length).map (extraShare imp size tokens.length 1)).sum =
      ((size : Int).toNat - leastBudget size 1) * imp.length := sum_extraShare (by omega)
      (by omega) 1
  have each :
    (List.range backend.spec.nKvHeads).map
    (sensitiveShare np config backend strategy perHead size tokens l) =
      (List.range backend.spec.nKvHeads).map fun h => 1 + extraShare imp size tokens.length 1 h :=
    List.map_congr_left fun h member => sensitiveShare_eq positive longer heads allocated
      (List.mem_range.1 member)
  rw [each, List.sum_map_add, ← heads, extra, leastBudget_one]
  obtain ⟨n, rfl⟩ : ∃ n, size = n + 1 := ⟨size - 1, by omega⟩
  simp
  ring

theorem sensitiveShare_even_iff (rows : ∀ row ∈ imp, row.length = tokens.length ∧
    row.Pairwise (· ≥ ·)) :
    (∀ h < backend.spec.nKvHeads,
      sensitiveShare np config backend strategy perHead size tokens l h = size) ↔
      size = 1 ∨ Balanced imp size := by
  have lengths : ∀ row ∈ imp, row.length = tokens.length := fun row member => (rows row member).1
  have descending : ∀ row ∈ imp, row.Pairwise (· ≥ ·) := fun row member => (rows row member).2
  have even := allocateGreedily_even_iff (t := size) lengths descending (by omega) (by omega) 1
  rw [leastBudget_one, Int.toNat_natCast, eq_comm (a := 1)] at even
  unfold Balanced
  rw [← even, allocateGreedily_eq imp (t := size) (T := tokens.length) 1 (by omega) (by omega),
    leastBudget_one]
  simp only [List.mem_map, List.mem_range, forall_exists_index, and_imp, forall_apply_eq_imp_iff₂,
    heads]
  refine forall₂_congr fun h inside => ?_
  rw [sensitiveShare_eq positive longer heads allocated inside]
  exact Nat.cast_inj.symm

end Allocated

variable [IsStrictOrderedRing α] (lawful : np.Lawful) (shaped : Shaped backend)
  (asked : ∀ tokens, tokens ≠ [] →
    RefsShaped backend.spec (backend.referenceQueries tokens strategy perHead))
  (sensitive : config.budgetAlloc = .sensitivity) (positive : 1 ≤ size)
include lawful shaped asked sensitive positive

theorem attentionMatching_divides :
    Divides (attentionMatching np config) backend strategy perHead size
      (sensitiveShare np config backend strategy perHead size) := by
  constructor
  case total =>
    intro tokens longer l inside
    obtain ⟨imp, -, heads, -, allocated⟩ :=
      layerBudgets_sensitivity np shaped asked sensitive longer inside
    exact sum_sensitiveShare positive longer heads allocated
  case compact =>
    intro tokens longer
    have some : tokens ≠ [] := List.length_pos_iff.1 (by omega)
    have spec := shaped.spec tokens 0
    have seqLen := shaped.seqLen tokens 0
    have given : CompactionBudget.targetT { tokensPerHead := Option.some (size : Int) }
      (backend.prefill tokens 0).seqLen =
        .ok size := by
      simp [CompactionBudget.targetT]
      omega
    obtain ⟨budgets, same, -, cache, ok, -, layers⟩ :=
      attentionMatching_keeps np lawful config (prefill_shaped shaped some)
      (spec ▸ asked tokens some) given (by simp [sensitive])
    refine ⟨cache, ok, fun l inside h insideHead => ?_⟩
    obtain ⟨imp, -, heads, -, allocated⟩ :=
      layerBudgets_sensitivity np shaped asked sensitive longer inside
    have small := sensitiveShare_le positive longer heads allocated insideHead
    rw [← spec] at inside insideHead
    obtain ⟨layer, kept, -, there, keeps⟩ := layers l inside
    obtain ⟨head, S, found, headKeeps, length, -⟩ := keeps h insideHead
    refine ⟨kept, head.key, there, (CompactLayer.head?_eq_some.1 found).1, ?_⟩
    -- the budgets that the compactor makes are those of the shares
    have target : min (size : Int) (backend.prefill tokens 0).seqLen = size := by omega
    have least : min (1 : Int) (backend.prefill tokens 0).seqLen = 1 := by omega
    have made := same l inside
    rw [target, least, spec] at made
    have share : sensitiveShare np config backend strategy perHead size tokens l h =
      ((budgets l).getD h 0).toNat := by
      unfold sensitiveShare
      rw [made]
      rfl
    simp only at length
    rw [headKeeps.keyShape, List.getElem?_cons_zero]
    congr 1
    omega

end Shares

/-! ## Every run -/

section Runs

variable {np : Numerics α} (matching : MatchingConfig α) {backend : ModelBackend α}

/-- The heads are given the same exactly where the layers are balanced. -/
theorem evenlyKept_iff (shaped : Shaped backend) {config : WorkingMemoryConfig}
    (asked : ∀ tokens, tokens ≠ [] →
      RefsShaped backend.spec
      (backend.referenceQueries tokens config.refStrategy config.refPerHead))
    (sensitive : matching.budgetAlloc = .sensitivity) (tokens : List Int) :
    EvenlyKept backend config
      (sensitiveShare np matching backend config.refStrategy config.refPerHead config.compactBudget) tokens ↔
      BalancedText np backend config tokens := by
  unfold EvenlyKept BalancedText
  refine imp_congr_right fun long => ?_
  have share := config.fits
  have budget : config.compactBudget = config.budgetTokens - config.keepRecentTokens := rfl
  have longer :
    config.compactBudget < (tokens.take (tokens.length - config.keepRecentTokens)).length := by
    rw [List.length_take]
    omega
  have layer : ∀ l < backend.spec.nLayers,
      (∀ h < backend.spec.nKvHeads,
        sensitiveShare np matching backend config.refStrategy config.refPerHead config.compactBudget
        (tokens.take (tokens.length - config.keepRecentTokens)) l h = config.compactBudget) ↔
      config.compactBudget = 1 ∨ ∃ imp, layerImportances np
        (backend.prefill (tokens.take (tokens.length - config.keepRecentTokens)) 0)
        (backend.referenceQueries
          (tokens.take (tokens.length - config.keepRecentTokens)) config.refStrategy config.refPerHead) l =
          .ok imp ∧ Balanced imp config.compactBudget := by
    intro l inside
    obtain ⟨imp, measured, heads, rows, allocated⟩ :=
      layerBudgets_sensitivity np shaped asked sensitive longer inside
    rw [sensitiveShare_even_iff (by omega) longer heads allocated rows]
    refine or_congr_right ⟨fun balanced => ⟨imp, measured, balanced⟩, ?_⟩
    rintro ⟨imp', measured', balanced⟩
    obtain rfl := Except.ok.inj (measured.symm.trans measured')
    exact balanced
  rw [forall₂_congr layer]
  by_cases single : config.compactBudget = 1
  · simp [single]
  · simp [single]

variable [IsStrictOrderedRing α] (lawful : np.Lawful) (shaped : Shaped backend) {strategy : String}
  {perHead : Int}
  (asked : ∀ tokens, tokens ≠ [] →
    RefsShaped backend.spec (backend.referenceQueries tokens strategy perHead))
  (sensitive : matching.budgetAlloc = .sensitivity) {budget keep : Int} {start : WorkingMemory α}
  (accepted : new budget keep strategy perHead = .ok start)
include lawful shaped asked sensitive accepted

theorem new_divides :
    Divides (attentionMatching np matching) backend start.config.refStrategy start.config.refPerHead start.config.compactBudget
      (sensitiveShare np matching backend start.config.refStrategy start.config.refPerHead start.config.compactBudget) := by
  obtain ⟨-, -, strategy_eq, perHead_eq⟩ := new_settled backend (fun _ _ _ => 0) accepted
  have share := start.config.fits
  have positive : 1 ≤ start.config.compactBudget := Nat.sub_pos_of_lt share
  exact attentionMatching_divides lawful shaped
    (by rwa [strategy_eq, perHead_eq]) sensitive positive

/-- Over budgets by sensitivity every head is within the budget, and within what is reported, after
    each of the calls exactly if the text is balanced after each of them. -/
theorem sensitive_headsWithinBudget_iff (calls : List (List Int)) :
    (∀ done, done <+: calls → ∃ s, Ends (attentionMatching np matching) backend start done s ∧
      HeadsWithinBudget backend.spec s) ↔
      ∀ done, done <+: calls → BalancedText np backend start.config done.flatten := by
  obtain ⟨fresh, empty, strategy_eq, perHead_eq⟩ := new_settled backend
    (sensitiveShare np matching backend start.config.refStrategy start.config.refPerHead start.config.compactBudget) accepted
  rw [headsWithinBudget_runs_iff shaped
    (new_divides matching lawful shaped asked sensitive accepted) fresh empty]
  refine forall₂_congr fun done _ => ?_
  exact evenlyKept_iff matching shaped (by rwa [strategy_eq, perHead_eq]) sensitive done.flatten

end Runs

/-! ## A model of two heads -/

section Pair

def pairSpec : ModelSpec :=
  { name := "pair", nLayers := 1, nQHeads := 2, nKvHeads := 2, headDim := 1, hiddenSize := 2 }

/-- The first head has the same key for every token, the second the token itself. -/
noncomputable def pairKeys (tokens : List Int) : NDArray ℝ :=
  NDArray.ofFn [2, tokens.length, 1] fun ix => if ix.getD 0 0 = 0 then 0
    else ((tokens.getD (ix.getD 1 0) 0 : Int) : ℝ)

noncomputable def pairBackend : ModelBackend ℝ where
  spec := pairSpec
  prefill tokens offset :=
    { spec := pairSpec, layers := [⟨pairKeys tokens, pairKeys tokens⟩], positions := arange offset (offset + tokens.length),
      tokenIds := some tokens }
  referenceQueries _ _ _ := { spec := pairSpec, layers := [NDArray.ofFn [2, 1, 1] fun _ => 1] }

/-- `AttentionMatching(budget_alloc="sensitivity")`. -/
noncomputable def sensitiveMatching : MatchingConfig ℝ :=
  { plainMatching with budgetAlloc := .sensitivity }

theorem pairBackend_shaped : Shaped pairBackend where
  layer := by decide
  head := by decide
  spec _ _ := rfl
  positions _ _ := rfl
  layers_length _ _ := rfl
  layer_shape tokens offset l member := by
    obtain rfl : l = ⟨pairKeys tokens, pairKeys tokens⟩ := List.mem_singleton.1 member
    exact ⟨rfl, rfl⟩

theorem pairBackend_asked (tokens : List Int) (strategy : String) (perHead : Int) :
    RefsShaped pairBackend.spec (pairBackend.referenceQueries tokens strategy perHead) where
  grouped := by decide
  layers l inside := by
    obtain rfl : l = 0 := Nat.lt_one_iff.1 inside
    exact ⟨_, 1, rfl, Nat.one_pos, rfl⟩

theorem rowsOf_pairKeys (tokens : List Int) {h : Nat} (inside : h < 2) :
    rowsOf (pairKeys tokens) h 1 = .ok (tokens.map fun (token : Int) _ => if h = 0 then 0
      else (token : ℝ)) := by
  obtain ⟨rows, read, length, cells⟩ := rowsOf_ok (a := pairKeys tokens) (d := 1) rfl inside
  rw [read]
  congr 1
  apply List.ext_getElem
  · rw [length, List.length_map]
  · intro i left right
    have small : i < tokens.length := length ▸ left
    funext c
    have cell := cells i _ (List.getElem?_eq_getElem left) c
    rw [pairKeys, NDArray.get?_ofFn_inBounds _ (by simp [inside, small])] at cell
    simpa [small] using (Option.some.inj cell).symm

theorem groupQueries_pair {h : Nat} (inside : h < 2) :
    groupQueries (NDArray.ofFn [2, 1, 1] fun _ => (1 : ℝ)) pairSpec h = .ok [fun _ => 1] := by
  have heads : groupHeads pairSpec h = .ok [h] := by
    obtain rfl | rfl : h = 0 ∨ h = 1 := by omega
    · rfl
    · rfl
  obtain ⟨rows, read, length, cells⟩ :=
    rowsOf_ok (a := NDArray.ofFn [2, 1, 1] fun _ => (1 : ℝ)) (d := 1) rfl inside
  obtain ⟨row, rfl⟩ := List.length_eq_one_iff.1 length
  have ones : row = fun _ => 1 := by
    funext c
    have cell := cells 0 row rfl c
    rw [NDArray.get?_ofFn_inBounds _ (by simp [inside])] at cell
    exact (Option.some.inj cell).symm
  have ask : rowsOf (NDArray.ofFn [2, 1, 1] fun _ => (1 : ℝ)) h pairSpec.headDim =
    .ok [fun _ => 1] := by
    rw [ones] at read
    exact read
  simp only [groupQueries, heads, List.mapM_cons, ask, bind, Except.bind]
  rfl

/-- The importances for one query are its probabilities, put in descending order. -/
theorem headImportances_single {kAll : NDArray ℝ} {d h : Nat} {K : List (Fin d → ℝ)}
    (read : rowsOf kAll h d = .ok K) {q : Fin d → ℝ}
    {scale : ℝ} {a : Fin K.length → ℝ}
    (probabilities : softmaxRow realNumerics (fun j => (∑ c, q c * K.get j c) * scale) = .ok a)
    (nonneg : ∀ j, 0 ≤ a j) {row : List ℝ} (perm : row.Perm (List.ofFn a))
    (descending : row.Pairwise (· ≥ ·)) :
    headImportances realNumerics kAll scale ([q], h) = .ok row := by
  have same : importance realNumerics [a] = a := by
    funext j
    simp [importance, realNumerics, Segments.Numpy.stable, Real.sqrt_sq (nonneg j)]
  have sorted : ((List.ofFn a).mergeSort fun x y => decide (x ≤ y)).reverse = row := by
    have all :=
      (List.reverse_perm _).trans
        ((List.mergeSort_perm (List.ofFn a) fun x y => decide (x ≤ y)).trans perm.symm)
    exact all.eq_of_pairwise' (pairwise_reverse_mergeSort (List.ofFn a)) descending
  simp only [headImportances, read, bind, Except.bind, softmax, logitsOf, List.map_cons,
    List.map_nil, List.mapM_cons, List.mapM_nil,
    probabilities, pure, Except.pure, same, sorted]

/-- The probabilities of three logits in descending order. -/
theorem softmaxRow_three {x y z : ℝ} (xy : y ≤ x) (yz : z ≤ y) :
    softmaxRow realNumerics ![x, y, z] =
      .ok fun j => Real.exp (![x, y, z] j - x) / (1 + Real.exp (y - x) + Real.exp (z - x)) := by
  have maximum : rowMax ![x, y, z] = .ok x := by
    have greatest : (List.ofFn ![x, y, z]).max? = some x := by
      simp [List.max?, xy, yz.trans xy]
    rw [rowMax, greatest]
  have total : ∑ i :
    Fin 3, Real.exp (![x, y, z] i - x) = 1 + Real.exp (y - x) + Real.exp (z - x) := by
    simp [Fin.sum_univ_three]
  have large : (1 : ℝ) / 10 ^ 12 ≤ 1 + Real.exp (y - x) + Real.exp (z - x) := by
    have := Real.exp_pos (y - x)
    have := Real.exp_pos (z - x)
    norm_num
    linarith
  have weights : expRow realNumerics ![x, y, z] = .ok fun j => Real.exp (![x, y, z] j - x) := by
    rw [expRow, maximum]
    rfl
  rw [softmaxRow, weights]
  simp only [bind, Except.bind, total, max_eq_left large, pure, Except.pure]

/-- Three keys in descending order, for the query 1. -/
theorem headImportances_three {kAll : NDArray ℝ} {h : Nat} {x y z : ℝ}
    (read : rowsOf kAll h 1 = .ok [fun _ => x, fun _ => y, fun _ => z]) (xy : y ≤ x) (yz : z ≤ y) :
    headImportances realNumerics kAll 1 ([fun (_ : Fin 1) => 1], h) =
      .ok ([1, Real.exp (y - x), Real.exp (z - x)].map
        (· / (1 + Real.exp (y - x) + Real.exp (z - x)))) := by
  have logits :
    (fun j : Fin 3 => (∑ c : Fin 1, 1 * [fun _ : Fin 1 => x, fun _ => y, fun _ => z].get j c) * 1) =
    ![x, y, z] := by
    funext j
    fin_cases j <;> simp
  have probabilities := softmaxRow_three xy yz
  rw [← logits] at probabilities
  have positive : 0 < 1 + Real.exp (y - x) + Real.exp (z - x) := by positivity
  refine headImportances_single read probabilities (fun j => by positivity) ?_ ?_
  · simp [List.ofFn_succ]
  · have second : Real.exp (y - x) ≤ 1 := Real.exp_le_one_iff.2 (by linarith)
    have third : Real.exp (z - x) ≤ Real.exp (y - x) := Real.exp_le_exp.2 (by linarith)
    have ordered : [1, Real.exp (y - x), Real.exp (z - x)].Pairwise (· ≥ ·) := by
      simp [second, third, third.trans second]
    exact List.pairwise_map.2 (ordered.imp fun le => div_le_div_of_nonneg_right le positive.le)

theorem layerImportances_pair (strategy : String) (perHead : Int) :
    layerImportances realNumerics (pairBackend.prefill [1, 0, 0] 0)
      (pairBackend.referenceQueries [1, 0, 0] strategy perHead) 0 =
      .ok [[1 / 3, 1 / 3, 1 / 3],
        [1, Real.exp (-1), Real.exp (-1)].map (· / (1 + Real.exp (-1) + Real.exp (-1)))] := by
  have scale : (1 : ℝ) / realNumerics.sqrt ((1 : Nat) : ℝ) = 1 := by
    simp [realNumerics, Segments.Numpy.stable]
  have queries :
    (List.range 2).mapM (groupQueries (NDArray.ofFn [2, 1, 1] fun _ => (1 : ℝ)) pairSpec) =
      .ok [[fun _ => 1], [fun _ => 1]] := by
    rw [List.range_succ_eq_map, List.mapM_cons, groupQueries_pair Nat.two_pos]
    simp only [List.range_one, List.map_cons, List.map_nil, List.mapM_cons,
      groupQueries_pair Nat.one_lt_two, bind, Except.bind]
    rfl
  have keys : rowsOf (pairKeys [1, 0, 0]) 0 1 = .ok [fun _ => 0, fun _ => 0, fun _ => 0] := by
    simpa using rowsOf_pairKeys [1, 0, 0] Nat.two_pos
  have keys' : rowsOf (pairKeys [1, 0, 0]) 1 1 = .ok [fun _ => 1, fun _ => 0, fun _ => 0] := by
    simpa using rowsOf_pairKeys [1, 0, 0] Nat.one_lt_two
  have first := headImportances_three keys le_rfl le_rfl
  have second := headImportances_three keys' zero_le_one le_rfl
  have loop :
    [([fun _ => 1], 0), ([fun _ => 1], 1)].mapM
    (headImportances (d := 1) realNumerics (pairKeys [1, 0, 0]) 1) =
      .ok [[1 / 3, 1 / 3, 1 / 3],
        [1, Real.exp (-1), Real.exp (-1)].map (· / (1 + Real.exp (-1) + Real.exp (-1)))] := by
    simp only [List.mapM_cons, first, second, bind, Except.bind]
    norm_num [pure, Except.pure]
  change ((List.range 2).mapM (groupQueries (NDArray.ofFn [2, 1, 1] fun _ => (1 : ℝ)) pairSpec) >>=
    fun Qs =>
    Qs.zipIdx.mapM
      (headImportances (d := 1) realNumerics (pairKeys [1, 0, 0])
      (1 / realNumerics.sqrt ((1 : Nat) : ℝ)))) = _
  rw [queries, scale]
  simp only [bind, Except.bind, List.zipIdx_cons, List.zipIdx_nil, zero_add]
  exact loop

/-- The first head, whose keys matter alike, takes a token from the second, where the first key
    matters most. -/
theorem sensitive_exceeds_budget :
    ∃ start s, new 3 1 = .ok start ∧
      Ends (attentionMatching realNumerics sensitiveMatching) pairBackend start [[1, 0, 0, 0]] s ∧
      ¬ HeadsWithinBudget pairBackend.spec s := by
  have accepted : (new 3 1 : Except Raised (WorkingMemory ℝ)) = .ok _ := rfl
  have asked := fun tokens (_ : tokens ≠ []) => pairBackend_asked tokens "repeat_prefill" 128
  have divides :=
    new_divides sensitiveMatching realNumerics_lawful pairBackend_shaped asked rfl accepted
  obtain ⟨fresh, empty, -, -⟩ := new_settled pairBackend
    (sensitiveShare realNumerics sensitiveMatching pairBackend "repeat_prefill" 128 2) accepted
  have started : Reached (attentionMatching realNumerics sensitiveMatching) pairBackend _ _ [] _ :=
    ⟨fun _ _ => rfl, fresh, empty, rfl⟩
  obtain ⟨s, reached⟩ :=
    started.append pairBackend_shaped divides (fun long => absurd long (by decide)) [1, 0, 0, 0]
  refine ⟨_, s, accepted, reached.ends, fun within => ?_⟩
  have even := (reached.within_iff pairBackend_shaped divides).1 ⟨s, reached.ends, within⟩
  obtain single | balanced :=
    (evenlyKept_iff sensitiveMatching pairBackend_shaped asked rfl _).1 even (by decide)
  · cases single
  · obtain ⟨imp, measured, balanced⟩ := balanced 0 Nat.one_pos
    obtain rfl := Except.ok.inj ((layerImportances_pair "repeat_prefill" 128).symm.trans measured)
    have less : Real.exp (-1) < 1 := Real.exp_lt_one_iff.2 (by norm_num)
    have behind : Real.exp (-1) / (1 + Real.exp (-1) + Real.exp (-1)) < 1 / 3 := by
      rw [div_lt_div_iff₀ (by positivity) (by norm_num)]
      linarith
    obtain before | ⟨-, order⟩ := balanced 1 Nat.one_lt_two 0 Nat.two_pos Nat.one_ne_zero
    · simp only [importanceAt, List.map_cons, List.getD_cons_succ, List.getD_cons_zero] at before
      exact lt_asymm before behind
    · omega

/-- With one token a head there is nothing to take. -/
theorem sensitive_headsWithinBudget_single :
    ∃ start, new 2 1 = .ok start ∧ ∀ done, done <+: [[1, 0, 0], [0]] →
      ∃ s, Ends (attentionMatching realNumerics sensitiveMatching) pairBackend start done s ∧
        HeadsWithinBudget pairBackend.spec s := by
  have accepted : (new 2 1 : Except Raised (WorkingMemory ℝ)) = .ok _ := rfl
  have balanced :=
    sensitive_headsWithinBudget_iff sensitiveMatching realNumerics_lawful pairBackend_shaped
    (fun tokens _ => pairBackend_asked tokens "repeat_prefill" 128) rfl accepted [[1, 0, 0], [0]]
  exact ⟨_, accepted, balanced.2 fun _ _ _ => .inl rfl⟩

end Pair

end Dexa.Memory.WorkingMemory
