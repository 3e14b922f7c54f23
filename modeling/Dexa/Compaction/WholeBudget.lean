import Dexa.Compaction.KeptTokens

/-! # A budget for the whole cache

With a budget of all its tokens a cache comes out of every compactor as it went in: each head keeps
all keys and values, in order, with zero biases.
-/

namespace Dexa.Compaction

open Dexa.Core Dexa.Lib Dexa.Platform

variable {α : Type} [Inhabited α] [Zero α]

/-- All of one head. -/
def wholeHead (cache : KVCache α) (layer : LayerKV α) (h : Nat) : CompactHead α :=
  { key := layer.key.select0 h, value := layer.value.select0 h, biases := List.replicate cache.seqLen 0, positions := cache.positions }

def wholeLayer (cache : KVCache α) (layer : LayerKV α) : CompactLayer α :=
  .ofHeads ((List.range cache.spec.nKvHeads).map (wholeHead cache layer))

/-- The cache with all of its tokens kept on every head. -/
def keepAll (cache : KVCache α) (method : String) (metadata : Dict String MetaValue := Dict.empty) :
    CompactCache α :=
  { spec := cache.spec, layers := (cache.layers.take cache.spec.nLayers).map (wholeLayer cache), logicalLength := cache.seqLen,
    method, metadata }

omit [Zero α] in
theorem gatherHead_all {a : NDArray α} {heads t d h : Nat} (shape : a.shape = [heads, t, d])
    (inside : h < heads) :
    gatherHead a h (List.range t) = .ok (a.select0 h) := by
  have rows := NDArray.shape_select0 h shape
  have below : ∀ i ∈ List.range t, i < t := fun i member => List.mem_range.1 member
  have found : headOf a h = .ok (a.select0 h) := by
    rw [headOf, shape, List.headD_cons, if_pos inside]
  have same : (a.select0 h).gatherRows (List.range t) = a.select0 h := by
    have shapes : ((a.select0 h).gatherRows (List.range t)).shape = (a.select0 h).shape := by
      rw [NDArray.shape_gatherRows _ rows, rows, List.length_range]
    apply NDArray.ext_get? shapes
    intro ix cell
    rw [shapes, rows] at cell
    obtain ⟨j, c, rfl, row, -⟩ := NDArray.inBounds_two cell
    exact NDArray.get?_gatherRows rows row (List.getElem?_range row)
  simp only [gatherHead, found, bind, Except.bind, NDArray.indexSelect_eq_some rows below, same,
    pure, Except.pure]

omit [Inhabited α] [Zero α] in
theorem mapM_index_range {β : Type} (l : List β) :
    (List.range l.length).mapM (index l) = .ok l := by
  cases l with
  | nil => rfl
  | cons x l =>
    rw [mapM_index_ok (fun i member => List.mem_range.1 member) x]
    congr 1
    apply List.ext_getElem
    · simp
    · intro i left right
      rw [List.getElem_map, List.getElem_range, List.getD_eq_getElem _ _ right]

/-- A choice of all tokens, sorted. -/
theorem Chooses.sort_range {T : Nat} {t : Int} {S : List Nat} (chooses : Chooses T t S)
    (whole : (T : Int) ≤ t) :
    (S.mergeSort fun i j => decide (i ≤ j)) = List.range T := by
  have among : S.Subperm (List.range T) :=
    List.subperm_of_subset chooses.nodup fun j member => List.mem_range.2 (chooses.below j member)
  have length := chooses.length
  have perm : (S.mergeSort fun i j => decide (i ≤ j)).Perm (List.range T) :=
    (List.mergeSort_perm S _).trans (among.perm_of_length_le (by rw [List.length_range]; omega))
  exact perm.eq_of_pairwise (fun i j _ _ lt gt => absurd lt (Nat.lt_asymm gt))
    (sort_increasing chooses.nodup) List.pairwise_lt_range

section Whole

variable {cache : KVCache α}

theorem makeLayer_whole {layer : LayerKV α}
    (keyShape : layer.key.shape = [cache.spec.nKvHeads, cache.seqLen, cache.spec.headDim])
    (valueShape : layer.value.shape = [cache.spec.nKvHeads, cache.seqLen, cache.spec.headDim])
    {t : Int} (whole : (cache.seqLen : Int) ≤ t)
    {selPerHead : List (List Nat)} (length : selPerHead.length = cache.spec.nKvHeads)
    (chooses : ∀ S ∈ selPerHead, Chooses cache.seqLen t S) :
    makeLayer layer.key layer.value cache.positions selPerHead = .ok (wholeLayer cache layer) := by
  have each : ∀ e ∈ selPerHead.zipIdx, makeHead layer.key layer.value cache.positions e =
    .ok (wholeHead cache layer e.2) := by
    intro e member
    have found : selPerHead[e.2]? = some e.1 := List.mem_zipIdx_iff_getElem?.1 member
    have inside : e.2 < cache.spec.nKvHeads := length ▸ (List.getElem?_eq_some_iff.1 found).1
    have sorted := (chooses _ (List.mem_of_getElem? found)).sort_range whole
    have positions : (List.range cache.seqLen).mapM (index cache.positions) = .ok cache.positions :=
      mapM_index_range cache.positions
    simp only [makeHead, sorted, gatherHead_all keyShape inside, gatherHead_all valueShape inside,
      positions, bind, Except.bind, pure,
      Except.pure, wholeHead, List.length_range]
  have heads : selPerHead.zipIdx.map (fun e => wholeHead cache layer e.2) =
    (List.range cache.spec.nKvHeads).map (wholeHead cache layer) := by
    rw [← length, List.range_eq_range', ← List.zipIdx_map_snd 0 selPerHead, List.map_map]
    rfl
  rw [makeLayer, Fallible.mapM_eq_map each, heads]
  rfl

/-- The layers that a loop over a well-formed cache makes, each from the cache's. -/
theorem mapM_layers_whole (shaped : CacheShaped cache) {f : Nat → Except Raised (CompactLayer α)}
    (each : ∀ l < cache.spec.nLayers, ∀ layer, cache.layers[l]? = some layer →
      layer.key.shape = [cache.spec.nKvHeads, cache.seqLen, cache.spec.headDim] →
      layer.value.shape = [cache.spec.nKvHeads, cache.seqLen, cache.spec.headDim] →
        f l = .ok (wholeLayer cache layer)) :
    (List.range cache.spec.nLayers).mapM f =
      .ok ((cache.layers.take cache.spec.nLayers).map (wholeLayer cache)) := by
  have round : ∀ l ∈ List.range cache.spec.nLayers, ∃ made, f l = .ok made ∧
    cache.layers[l]?.map (wholeLayer cache) = some made := by
    intro l member
    obtain ⟨layer, there, keyShape, valueShape⟩ := shaped.layers l (List.mem_range.1 member)
    exact ⟨_, each l (List.mem_range.1 member) layer there keyShape valueShape, by rw [there]; rfl⟩
  obtain ⟨made, ok, related⟩ := Fallible.mapM_ok round
  rw [ok]
  congr 1
  apply List.ext_getElem?
  intro l
  by_cases inside : l < cache.spec.nLayers
  · obtain ⟨layer, there, same⟩ := forall₂_getElem? related (List.getElem?_range inside)
    rw [there, List.getElem?_map, List.getElem?_take_of_lt inside, same]
  · have count := related.length_eq
    rw [List.length_range] at count
    rw [List.getElem?_eq_none (by omega),
      List.getElem?_eq_none (by rw [List.length_map, List.length_take]; omega)]

theorem selectLayers_whole (shaped : CacheShaped cache) (method : String)
    {selPerHead : Nat → LayerKV α → Except Raised (List (List Nat))}
    {t : Int} (whole : (cache.seqLen : Int) ≤ t)
    (select : ∀ l < cache.spec.nLayers, ∀ layer, cache.layers[l]? = some layer →
      layer.key.shape = [cache.spec.nKvHeads, cache.seqLen, cache.spec.headDim] →
      ∃ sels, selPerHead l layer = .ok sels ∧ sels.length = cache.spec.nKvHeads ∧
        ∀ (h : Nat) (S : List Nat), sels[h]? = some S → Chooses cache.seqLen t S) :
    selectLayers cache method selPerHead = .ok (keepAll cache method) := by
  have loop := mapM_layers_whole shaped (f := fun l => do
    let layer ← index cache.layers l
    makeLayer layer.key layer.value cache.positions (← selPerHead l layer))
      fun l inside layer there keyShape valueShape => by
      obtain ⟨sels, selected, length, chooses⟩ := select l inside layer there keyShape
      have each : ∀ S ∈ sels, Chooses cache.seqLen t S := by
        intro S member
        obtain ⟨h, inside', rfl⟩ := List.getElem_of_mem member
        exact chooses h _ (List.getElem?_eq_getElem inside')
      simp only [index_ok there, bind, Except.bind, selected]
      exact makeLayer_whole keyShape valueShape whole length each
  rw [selectLayers, loop]
  rfl

theorem fullKV_whole (shaped : CacheShaped cache) (budget : CompactionBudget)
    (refs : Option (RefQueries α)) :
    fullKV.compact cache budget refs = .ok (keepAll cache "full_kv") := by
  refine selectLayers_whole shaped "full_kv" le_rfl
    fun l _ layer _ _ => ⟨_, rfl, List.length_replicate, fun h S found => ?_⟩
  obtain rfl := List.eq_of_mem_replicate (List.mem_of_getElem? found)
  exact ⟨List.nodup_range, fun i member => List.mem_range.1 member,
    by rw [List.length_range, min_self]⟩

section Budgets

variable (shaped : CacheShaped cache) {budget : CompactionBudget} {target : Int}
  (given : budget.targetT cache.seqLen = .ok target) (whole : (cache.seqLen : Int) ≤ target)
include shaped given whole

theorem recentWindow_whole (refs : Option (RefQueries α)) :
    recentWindow.compact cache budget refs = .ok (keepAll cache "recent_window") := by
  have all : min target (cache.seqLen : Int) = cache.seqLen := min_eq_right whole
  have same : recentWindow.compact cache budget refs = selectLayers cache "recent_window" fun _ _ =>
      .ok (List.replicate cache.spec.nKvHeads
        (List.range' (cache.seqLen - min target (cache.seqLen : Int)).toNat
        (min target (cache.seqLen : Int)).toNat)) := by
    simp only [recentWindow, given]
    rfl
  rw [same, all]
  refine selectLayers_whole shaped "recent_window" whole
    fun l _ layer _ _ => ⟨_, rfl, List.length_replicate, fun h S found => ?_⟩
  obtain rfl := List.eq_of_mem_replicate (List.mem_of_getElem? found)
  refine ⟨List.nodup_range' .., fun i member => ?_, ?_⟩
  · have := (List.mem_range'_1.1 member).2
    omega
  · rw [List.length_range']
    omega

theorem randomSubset_whole {rng : Sampling}
    (draws : ∀ seed T size, size ≤ T → Chooses T size (rng.choice seed T size))
    (hashed : (Engine.hashInput (cache.tokenIds.getD cache.positions)).isSome)
    (refs : Option (RefQueries α)) :
    (randomSubset rng).compact cache budget refs = .ok (keepAll cache "random_subset") := by
  obtain ⟨data, hashes⟩ := Option.isSome_iff_exists.1 hashed
  have seeded : rng.seedOf cache = .ok (rng.digest data) := by rw [Sampling.seedOf, hashes]
  simp only [randomSubset, given, seeded, bind, Except.bind]
  refine selectLayers_whole shaped "random_subset" whole fun l _ layer _ _ => Fallible.mapM_range_ok
    fun h _ => ?_
  have drawn :=
    draws (rng.digest data + l * cache.spec.nKvHeads + h) cache.seqLen
      (min target cache.seqLen).toNat (by omega)
  have length := drawn.length
  exact ⟨_, if_neg (by omega), drawn.nodup, drawn.below, by omega⟩

end Budgets

end Whole

section Scores

variable {α : Type} [Inhabited α] [Field α] [LinearOrder α] {np : Numerics α} {cache : KVCache α}
  (shaped : CacheShaped cache)
  {budget : CompactionBudget} {target : Int} (given : budget.targetT cache.seqLen = .ok target)
  (whole : (cache.seqLen : Int) ≤ target)
  {refs : RefQueries α} (queries : RefsShaped cache.spec refs)
include shaped given whole queries

section Selected

variable (argsorts : np.toNumpy.Argsorts) {recentFrac : ℚ} (frac : 0 ≤ recentFrac)
include argsorts frac

theorem heavyHitter_whole :
    (heavyHitter np recentFrac).compact cache budget (some refs) =
      .ok (keepAll cache "heavy_hitter") := by
  have nonneg : 0 ≤ target := by omega
  simp only [heavyHitter, given, bind, Except.bind]
  refine selectLayers_whole shaped "heavy_hitter" whole fun l inside layer there keyShape => ?_
  obtain ⟨qAll, nRef, found, asked, queryShape⟩ := queries.layers l inside
  simp only [index_ok found]
  refine Fallible.mapM_range_ok fun h insideHead => ?_
  obtain ⟨Q, grouped, -⟩ := groupQueries_ok queryShape asked queries.grouped insideHead
  simp only [grouped]
  obtain ⟨S, selected, chooses, -⟩ :=
    selectByMass_ok shaped nonneg argsorts frac keyShape insideHead _ Q
  exact ⟨S, selected, chooses⟩

theorem snapKVLite_whole (window : Int) :
    (snapKVLite np window recentFrac).compact cache budget (some refs) =
      .ok (keepAll cache "snapkv") := by
  have nonneg : 0 ≤ target := by omega
  simp only [snapKVLite, given, bind, Except.bind]
  refine selectLayers_whole shaped "snapkv" whole fun l inside layer there keyShape => ?_
  obtain ⟨qAll, nRef, found, asked, queryShape⟩ := queries.layers l inside
  simp only [index_ok found]
  refine Fallible.mapM_range_ok fun h insideHead => ?_
  obtain ⟨Q, grouped, -⟩ := groupQueries_ok queryShape asked queries.grouped insideHead
  obtain ⟨obs, observed⟩ := observationWindow_ok queryShape queries.grouped insideHead window
  simp only [grouped, observed]
  obtain ⟨S, selected, chooses, -⟩ :=
    selectByMass_ok shaped nonneg argsorts frac keyShape insideHead _ obs
  exact ⟨S, selected, chooses⟩

end Selected

omit [Field α] [LinearOrder α] shaped given whole queries in
/-- The rows of a head make its array again. -/
theorem ofRows_rowsOf {a : NDArray α} {heads t d h : Nat} (shape : a.shape = [heads, t, d])
    (inside : h < heads) :
    ∃ rows, rowsOf a h d = .ok rows ∧ rows.length = t ∧ ofRows rows = a.select0 h := by
  obtain ⟨rows, read, length, cells⟩ := rowsOf_ok shape inside
  have slice := NDArray.shape_select0 h shape
  refine ⟨rows, read, length, NDArray.ext_get? (by rw [shape_ofRows, slice, length]) ?_⟩
  intro ix cell
  rw [shape_ofRows, length] at cell
  obtain ⟨i, c, rfl, row, column⟩ := NDArray.inBounds_two cell
  have here : rows[i]? = some rows[i] := List.getElem?_eq_getElem (by omega)
  have there := cells i _ here ⟨c, column⟩
  rw [NDArray.get?_select0 shape inside, there]
  exact get?_ofRows here ⟨c, column⟩

/-- `AttentionMatching` fits nothing where it may keep everything. -/
theorem attentionMatching_whole (config : MatchingConfig α) :
    (attentionMatching np config).compact cache budget (some refs) =
      .ok (keepAll cache "attention_matching" (Dict.ofList
      [("key_selection", .str config.keySelection.name), ("target_t", .int cache.seqLen),
        ("budget_alloc", .str config.budgetAlloc.name),
          ("value_ridge", .float (np.repr config.valueRidge))])) := by
  have all : min target (cache.seqLen : Int) = cache.seqLen := min_eq_right whole
  have layers : ∀ minT scale,
    (List.range cache.spec.nLayers).mapM (matchLayer np config cache refs cache.seqLen minT scale) =
      .ok ((cache.layers.take cache.spec.nLayers).map (wholeLayer cache)) := by
    intro minT scale
    refine mapM_layers_whole shaped fun l inside layer there keyShape valueShape => ?_
    obtain ⟨qAll, nRef, found, asked, queryShape⟩ := queries.layers l inside
    have groups : ∀ h < cache.spec.nKvHeads, ∃ Q, groupQueries qAll cache.spec h = .ok Q ∧ True :=
      fun h insideHead =>
      (groupQueries_ok queryShape asked queries.grouped insideHead).imp
        fun _ grouped => ⟨grouped.1, trivial⟩
    obtain ⟨Qs, grouped, length, -⟩ := Fallible.mapM_range_ok groups
    -- with room for every token either allocation gives all heads the same
    have budgets :
      allocateBudget np config.budgetAlloc Qs layer.key cache.seqLen cache.seqLen minT scale =
        .ok (List.replicate cache.spec.nKvHeads (cache.seqLen : Int)) := by
      rw [allocateBudget, if_pos (.inr le_rfl), length]
      rfl
    have heads : (List.range cache.spec.nKvHeads).mapM (matchHead np config cache layer Qs
        (List.replicate cache.spec.nKvHeads (cache.seqLen : Int)) scale) =
        .ok ((List.range cache.spec.nKvHeads).map (wholeHead cache layer)) := by
      refine Fallible.mapM_eq_map fun h member => ?_
      have insideHead := List.mem_range.1 member
      obtain ⟨K, readK, lengthK, keys⟩ := ofRows_rowsOf keyShape insideHead
      obtain ⟨V, readV, -, values⟩ := ofRows_rowsOf valueShape insideHead
      have some : Qs[h]? = some (Qs.getD h []) := by simp [length, insideHead]
      have budget : (List.replicate cache.spec.nKvHeads (cache.seqLen : Int))[h]? = Option.some
        (cache.seqLen : Int) := by
        simp [insideHead]
      have fitted : fitHead np config (Qs.getD h []) K V cache.seqLen scale =
          .ok ⟨K, V, List.replicate cache.seqLen 0, List.range cache.seqLen⟩ := by
        rw [fitHead, if_pos (Int.ofNat_le.2 lengthK.le), lengthK]
        rfl
      have positions : (List.range cache.seqLen).mapM (index cache.positions) =
        .ok cache.positions := mapM_index_range cache.positions
      simp only [matchHead, readK, readV, index_ok some, index_ok budget, fitted, positions, bind,
        Except.bind, keys, values]
      rfl
    simp only [matchLayer, index_ok there, index_ok found, grouped, budgets, heads,
      bind, Except.bind]
    rfl
  simp only [attentionMatching, given, bind, Except.bind, all, layers]
  rfl

end Scores

end Dexa.Compaction
