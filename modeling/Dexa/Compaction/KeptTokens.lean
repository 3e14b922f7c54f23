import Mathlib.Data.List.GetD
import Dexa.Compaction.Fitting
import Dexa.Compaction.HeadBudgets

/-! # What the compactors keep of a cache

On each head of each layer a compactor keeps tokens of the cache, in their order and with their
keys, as many as the budget of the head says, or all of them.  With no token to keep attention
matching fails: it would normalize empty rows.
-/

namespace Dexa.Compaction

open Dexa.Core Dexa.Lib Dexa.Platform

variable {α : Type} [Inhabited α]

/-- A cache of at least one token, with a layer for each of the model's. -/
structure CacheShaped (cache : KVCache α) : Prop where
  nonempty : 0 < cache.seqLen
  layers : ∀ l < cache.spec.nLayers, ∃ layer, cache.layers[l]? = some layer ∧
    layer.key.shape = [cache.spec.nKvHeads, cache.seqLen, cache.spec.headDim] ∧
    layer.value.shape = [cache.spec.nKvHeads, cache.seqLen, cache.spec.headDim]

/-- Reference queries for each layer, at least one for each query head. -/
structure RefsShaped (spec : ModelSpec) (refs : RefQueries α) : Prop where
  grouped : spec.nKvHeads ≤ spec.nQHeads
  layers : ∀ l < spec.nLayers, ∃ q nRef, refs.layers[l]? = some q ∧ 0 < nRef ∧
    q.shape = [spec.nQHeads, nRef, spec.headDim]

theorem positions_increasing {positions : List Int} (ordered : positions.Pairwise (· < ·))
    {S : List Nat}
    (increasing : S.Pairwise (· < ·)) (below : ∀ i ∈ S, i < positions.length) :
    (S.map fun i => positions.getD i 0).Pairwise (· < ·) := by
  rw [List.pairwise_map]
  refine increasing.imp_of_mem fun {i j} memberI memberJ lt => ?_
  rw [List.getD_eq_getElem _ _ (below i memberI), List.getD_eq_getElem _ _ (below j memberJ)]
  exact List.pairwise_iff_getElem.1 ordered i j (below i memberI) (below j memberJ) lt

/-- The head keeps the tokens `S` of the cache, in the cache's order. -/
structure HeadKeeps (cache : KVCache α) (layer : LayerKV α) (h : Nat) (S : List Nat)
    (head : CompactHead α) : Prop where
  increasing : S.Pairwise (· < ·)
  below : ∀ i ∈ S, i < cache.seqLen
  positions : head.positions = S.map fun i => cache.positions.getD i 0
  ordered : cache.positions.Pairwise (· < ·) → head.positions.Pairwise (· < ·)
  keyShape : head.key.shape = [S.length, cache.spec.headDim]
  key : ∀ j i c, S[j]? = some i → head.key.get? [j, c] = layer.key.get? [h, i, c]
  valueShape : head.value.shape = [S.length, cache.spec.headDim]
  biases : head.biases.length = S.length

/-- A layer whose head `h` keeps `t h` tokens of the cache, its recent window among them. -/
def LayerKeeps (cache : KVCache α) (layer : LayerKV α) (t recent : Nat → Int)
    (compact : CompactLayer α) : Prop :=
  ∀ h < cache.spec.nKvHeads, ∃ head S, compact.head? h = some head ∧
    HeadKeeps cache layer h S head ∧
    (S.length : Int) = min (t h) cache.seqLen ∧ ∀ i < cache.seqLen,
      (cache.seqLen : Int) ≤ i + min (recent h) (t h) → i ∈ S

theorem gatherHead_get? {a : NDArray α} {heads t d h : Nat} (shape : a.shape = [heads, t, d])
    (inside : h < heads) {S : List Nat}
    (bound : ∀ i ∈ S, i < t) {b : NDArray α} (ok : gatherHead a h S = .ok b) {j i c : Nat}
    (there : S[j]? = some i) :
    b.get? [j, c] = a.get? [h, i, c] := by
  have rows := NDArray.shape_select0 h shape
  have found : headOf a h = .ok (a.select0 h) := by
    rw [headOf, shape, List.headD_cons, if_pos inside]
  simp only [gatherHead, found, bind, Except.bind, NDArray.indexSelect_eq_some rows bound, pure,
    Except.pure] at ok
  obtain rfl := Except.ok.inj ok
  rw [NDArray.get?_gatherRows rows (bound i (List.mem_of_getElem? there)) there,
    NDArray.get?_select0 shape inside]

section Selected

variable [Zero α] {cache : KVCache α} {layer : LayerKV α}
  (keyShape : layer.key.shape = [cache.spec.nKvHeads, cache.seqLen, cache.spec.headDim])
  (valueShape : layer.value.shape = [cache.spec.nKvHeads, cache.seqLen, cache.spec.headDim])
include keyShape valueShape

theorem makeHead_keeps {t : Int} {S : List Nat} {h : Nat} (inside : h < cache.spec.nKvHeads)
    (chooses : Chooses cache.seqLen t S) :
    ∃ head, makeHead layer.key layer.value cache.positions (S, h) = .ok head ∧
      HeadKeeps cache layer h (S.mergeSort fun i j => decide (i ≤ j)) head := by
  obtain ⟨sorted, isSorted⟩ : ∃ sorted, sorted = S.mergeSort fun i j => decide (i ≤ j) := ⟨_, rfl⟩
  have sorts : Chooses cache.seqLen t sorted := isSorted ▸ chooses.sort
  have increasing : sorted.Pairwise (· < ·) := isSorted ▸ sort_increasing chooses.nodup
  obtain ⟨key, keyOk, keyRows⟩ := gatherHead_ok keyShape inside sorts.below
  obtain ⟨value, valueOk, valueRows⟩ := gatherHead_ok valueShape inside sorts.below
  have positions :
    sorted.mapM (index cache.positions) = .ok (sorted.map fun i => cache.positions.getD i 0) :=
    mapM_index_ok sorts.below 0
  refine ⟨⟨key, value, List.replicate sorted.length 0,
    sorted.map fun i => cache.positions.getD i 0⟩, ?_, ?_⟩
  · simp only [makeHead, ← isSorted, keyOk, valueOk, positions, bind, Except.bind,
      pure, Except.pure]
  · rw [← isSorted]
    constructor
    case increasing => exact increasing
    case below => exact sorts.below
    case positions => rfl
    case ordered => exact fun ordered => positions_increasing ordered increasing sorts.below
    case keyShape => exact keyRows
    case key => exact fun j i c there => gatherHead_get? keyShape inside sorts.below keyOk there
    case valueShape => exact valueRows
    case biases => exact List.length_replicate

/-- A layer made of selections of as many tokens as the heads may keep. -/
theorem makeLayer_keeps {t recent : Nat → Int} {selPerHead : List (List Nat)}
    (length : selPerHead.length = cache.spec.nKvHeads)
    (chooses : ∀ h S, selPerHead[h]? = some S → Chooses cache.seqLen (t h) S ∧
      ∀ i < cache.seqLen, (cache.seqLen : Int) ≤ i + min (recent h) (t h) → i ∈ S) :
    ∃ compact, makeLayer layer.key layer.value cache.positions selPerHead = .ok compact ∧
      LayerKeeps cache layer t recent compact := by
  have each : ∀ e ∈ selPerHead.zipIdx, ∃ head,
    makeHead layer.key layer.value cache.positions e = .ok head ∧
      HeadKeeps cache layer e.2 (e.1.mergeSort fun i j => decide (i ≤ j)) head := by
    intro e member
    have found : selPerHead[e.2]? = some e.1 := List.mem_zipIdx_iff_getElem?.1 member
    have inside : e.2 < cache.spec.nKvHeads := length ▸ (List.getElem?_eq_some_iff.1 found).1
    exact makeHead_keeps keyShape valueShape inside (chooses _ _ found).1
  obtain ⟨made, ok, related⟩ := Fallible.mapM_ok each
  refine ⟨.ofHeads made, ?_, fun h inside => ?_⟩
  · rw [makeLayer, ok]
    rfl
  · have there : h < selPerHead.length := length ▸ inside
    have found : selPerHead[h]? = some selPerHead[h] := List.getElem?_eq_getElem there
    have entry : selPerHead.zipIdx[h]? = some (selPerHead[h], h) := by simp [found]
    obtain ⟨head, present, keeps⟩ := forall₂_getElem? related entry
    obtain ⟨chosen, window⟩ := chooses h _ found
    refine ⟨head, _, by rw [CompactLayer.head?_ofHeads, present], keeps, ?_, fun i small last => ?_⟩
    · rw [List.length_mergeSort, chosen.length]
    · exact (List.mergeSort_perm _ _).mem_iff.2 (window i small last)

end Selected

/-! ## The selection-only compactors -/

/-- The compactor keeps on head `h` of layer `l` as many tokens as `t l h` says, its recent window
    among them. -/
def KeepsBudget (cache : KVCache α) (made : Except Raised (CompactCache α))
    (t recent : Nat → Nat → Int) : Prop :=
  ∃ compact, made = .ok compact ∧ compact.logicalLength = cache.seqLen ∧
    ∀ l < cache.spec.nLayers, ∃ layer kept, cache.layers[l]? = some layer ∧
      compact.layers[l]? = some kept ∧
      LayerKeeps cache layer (t l) (recent l) kept

theorem selectLayers_keeps [Zero α] {cache : KVCache α} (shaped : CacheShaped cache)
    (method : String)
    {selPerHead : Nat → LayerKV α → Except Raised (List (List Nat))} {t recent : Nat → Nat → Int}
    (select : ∀ l < cache.spec.nLayers, ∀ layer, cache.layers[l]? = some layer →
      layer.key.shape = [cache.spec.nKvHeads, cache.seqLen, cache.spec.headDim] →
      ∃ sels, selPerHead l layer = .ok sels ∧ sels.length = cache.spec.nKvHeads ∧
        ∀ h S, sels[h]? = some S → Chooses cache.seqLen (t l h) S ∧
          ∀ i < cache.seqLen, (cache.seqLen : Int) ≤ i + min (recent l h) (t l h) → i ∈ S) :
    KeepsBudget cache (selectLayers cache method selPerHead) t recent := by
  have each : ∀ l ∈ List.range cache.spec.nLayers, ∃ kept, (do
        let layer ← index cache.layers l
        makeLayer layer.key layer.value cache.positions (← selPerHead l layer)) = .ok kept ∧
      ∃ layer, cache.layers[l]? = some layer ∧ LayerKeeps cache layer (t l) (recent l) kept := by
    intro l member
    have inside := List.mem_range.1 member
    obtain ⟨layer, there, keyShape, valueShape⟩ := shaped.layers l inside
    obtain ⟨sels, selected, length, chooses⟩ := select l inside layer there keyShape
    obtain ⟨kept, made, keeps⟩ := makeLayer_keeps keyShape valueShape length chooses
    refine ⟨kept, ?_, layer, there, keeps⟩
    rw [index_ok there]
    simp only [bind, Except.bind, selected]
    exact made
  obtain ⟨layers, made, related⟩ := Fallible.mapM_ok each
  refine ⟨{ spec := cache.spec, layers, logicalLength := cache.seqLen, method }, ?_, rfl,
    fun l inside => ?_⟩
  · rw [selectLayers, made]
    rfl
  · obtain ⟨kept, present, layer, there, keeps⟩ :=
      forall₂_getElem? related (List.getElem?_range inside)
    exact ⟨layer, kept, there, present, keeps⟩

theorem observationWindow_ok {qAll : NDArray α} {spec : ModelSpec} {nRef h : Nat}
    (shape : qAll.shape = [spec.nQHeads, nRef, spec.headDim])
    (grouped : spec.nKvHeads ≤ spec.nQHeads)
    (inside : h < spec.nKvHeads) (window : Int) :
      ∃ obs, observationWindow qAll spec window h = .ok obs := by
  obtain ⟨qHeads, found, nonempty, bound⟩ := groupHeads_ok grouped inside
  have count : index qAll.shape 1 = .ok nRef := index_ok (by rw [shape]; rfl)
  have each : ∀ qh ∈ qHeads, ∃ rows, (do
      return (← rowsOf qAll qh spec.headDim).drop ((nRef : Int) - min (nRef : Int) window).toNat) =
        .ok rows ∧ True := by
    intro qh member
    obtain ⟨rows, read, -⟩ := rowsOf_ok shape (bound qh member)
    rw [read]
    exact ⟨_, rfl, trivial⟩
  obtain ⟨blocks, read, related⟩ := Fallible.mapM_ok each
  have some : blocks ≠ [] := by
    rintro rfl
    exact nonempty (List.forall₂_nil_right_iff.1 related)
  refine ⟨blocks.flatten, ?_⟩
  simp only [observationWindow, count, found, bind, Except.bind] at read ⊢
  rw [read]
  simp only [stackRows, if_neg some]

/-- The whole cache is its own recent window. -/
theorem Chooses.mem_of_le {T : Nat} {t : Int} {S : List Nat} (chooses : Chooses T t S)
    (whole : (T : Int) ≤ t) {i : Nat}
    (inside : i < T) : i ∈ S := by
  have among : S.Subperm (List.range T) :=
    List.subperm_of_subset chooses.nodup fun j member => List.mem_range.2 (chooses.below j member)
  have length := chooses.length
  have perm := among.perm_of_length_le (by rw [List.length_range]; omega)
  exact perm.mem_iff.2 (List.mem_range.2 inside)

/-- What is chosen under the smaller of a budget and the cache is what the budget says. -/
theorem Chooses.of_min {T : Nat} {t : Int} {S : List Nat} (chooses : Chooses T (min t T) S)
    {frac : ℚ}
    (window : ∀ i < T, (T : Int) ≤ i + min (roundShare frac (min t T)) (min t T) → i ∈ S) :
    Chooses T t S ∧ ∀ i < T, (T : Int) ≤ i + min (roundShare frac t) t → i ∈ S := by
  have length := chooses.length
  refine ⟨⟨chooses.nodup, chooses.below, by omega⟩, fun i inside last => ?_⟩
  by_cases whole : (T : Int) ≤ t
  · exact chooses.mem_of_le (by omega) inside
  · rw [min_eq_left (not_le.1 whole).le] at window
    exact window i inside last

section Baselines

variable {cache : KVCache α} (shaped : CacheShaped cache) {budget : CompactionBudget} {target : Int}
  (given : budget.targetT cache.seqLen = .ok target) (nonneg : 0 ≤ target)
include shaped given nonneg

theorem recentWindow_keeps [Zero α] (refs : Option (RefQueries α)) :
    KeepsBudget cache (recentWindow.compact cache budget refs) (fun _ _ => target)
      (fun _ _ => target) := by
  let t := min target (cache.seqLen : Int)
  let sel := List.range' (cache.seqLen - t).toNat t.toNat
  have loop :
    KeepsBudget cache
    (selectLayers cache "recent_window" fun _ _ => .ok (List.replicate cache.spec.nKvHeads sel))
      (fun _ _ => target) (fun _ _ => target) :=
    selectLayers_keeps shaped "recent_window" fun l _ layer _ _ => by
      refine ⟨_, rfl, List.length_replicate, fun h S found => ?_⟩
      obtain rfl := List.eq_of_mem_replicate (List.mem_of_getElem? found)
      refine ⟨⟨List.nodup_range' .., fun i member => ?_, ?_⟩,
        fun i inside last => List.mem_range'_1.2 ⟨?_, ?_⟩⟩
      · have := (List.mem_range'_1.1 member).2
        omega
      · rw [List.length_range']
        omega
      · omega
      · omega
  have same : recentWindow.compact cache budget refs =
      selectLayers cache "recent_window" fun _ _ => .ok
        (List.replicate cache.spec.nKvHeads sel) := by
    simp only [recentWindow, given]
    rfl
  rw [same]
  exact loop

theorem randomSubset_keeps [Zero α] {rng : Sampling}
    (draws : ∀ seed T size, size ≤ T → Chooses T size (rng.choice seed T size))
    (hashed : (Engine.hashInput (cache.tokenIds.getD cache.positions)).isSome)
    (refs : Option (RefQueries α)) :
    KeepsBudget cache ((randomSubset rng).compact cache budget refs) (fun _ _ => target)
      (fun _ _ => 0) := by
  obtain ⟨data, hashes⟩ := Option.isSome_iff_exists.1 hashed
  have seeded : rng.seedOf cache = .ok (rng.digest data) := by rw [Sampling.seedOf, hashes]
  simp only [randomSubset, given, seeded, bind, Except.bind]
  refine selectLayers_keeps shaped "random_subset" fun l _ layer _ _ => Fallible.mapM_range_ok
    fun h _ => ?_
  have drawn :=
    draws (rng.digest data + l * cache.spec.nKvHeads + h) cache.seqLen
      (min target cache.seqLen).toNat (by omega)
  refine ⟨_, if_neg (by omega), ⟨drawn.nodup, drawn.below, ?_⟩, fun i inside last => ?_⟩
  · have length := drawn.length
    omega
  · omega

variable [Field α] [LinearOrder α] {np : Numerics α} (argsorts : np.toNumpy.Argsorts)
  {recentFrac : ℚ} (frac : 0 ≤ recentFrac)
include argsorts frac

omit given in
theorem selectByMass_ok {layer : LayerKV α}
    (keyShape : layer.key.shape = [cache.spec.nKvHeads, cache.seqLen, cache.spec.headDim])
    {h : Nat} (inside : h < cache.spec.nKvHeads) (scale : α)
    (Q : List (Fin cache.spec.headDim → α)) :
    ∃ S, selectByMass np layer.key scale (min target cache.seqLen) cache.seqLen
      (roundShare recentFrac (min target cache.seqLen)) h Q =
        .ok S ∧ Chooses cache.seqLen target S ∧
      ∀ i < cache.seqLen, (cache.seqLen : Int) ≤ i + min (roundShare recentFrac target) target →
        i ∈ S := by
  obtain ⟨K, read, length, -⟩ := rowsOf_ok keyShape inside
  obtain ⟨A, probabilities⟩ := softmax_ok np (length ▸ shaped.nonempty) (logitsOf Q K scale)
  have share := roundShare_nonneg frac (t := min target cache.seqLen) (by omega)
  refine ⟨_, by simp only [selectByMass, read, bind, Except.bind, probabilities]; rfl, ?_⟩
  rw [← length] at share ⊢
  obtain ⟨chooses, window⟩ :=
    topkWithRecent_ok np argsorts (mass A) (t := min target K.length) (by omega) (by omega) share
  exact chooses.of_min window

variable {refs : RefQueries α} (queries : RefsShaped cache.spec refs)
include queries

theorem heavyHitter_keeps :
    KeepsBudget cache ((heavyHitter np recentFrac).compact cache budget (some refs))
      (fun _ _ => target)
      (fun _ _ => roundShare recentFrac target) := by
  simp only [heavyHitter, given, bind, Except.bind]
  refine selectLayers_keeps shaped "heavy_hitter" fun l inside layer there keyShape => ?_
  obtain ⟨qAll, nRef, found, asked, queryShape⟩ := queries.layers l inside
  simp only [index_ok found]
  refine Fallible.mapM_range_ok fun h insideHead => ?_
  obtain ⟨Q, grouped, -⟩ := groupQueries_ok queryShape asked queries.grouped insideHead
  simp only [grouped]
  exact selectByMass_ok shaped nonneg argsorts frac keyShape insideHead _ Q

theorem snapKVLite_keeps (window : Int) :
    KeepsBudget cache ((snapKVLite np window recentFrac).compact cache budget (some refs))
      (fun _ _ => target)
      (fun _ _ => roundShare recentFrac target) := by
  simp only [snapKVLite, given, bind, Except.bind]
  refine selectLayers_keeps shaped "snapkv" fun l inside layer there keyShape => ?_
  obtain ⟨qAll, nRef, found, asked, queryShape⟩ := queries.layers l inside
  simp only [index_ok found]
  refine Fallible.mapM_range_ok fun h insideHead => ?_
  obtain ⟨Q, grouped, -⟩ := groupQueries_ok queryShape asked queries.grouped insideHead
  obtain ⟨obs, observed⟩ := observationWindow_ok queryShape queries.grouped insideHead window
  simp only [grouped, observed]
  exact selectByMass_ok shaped nonneg argsorts frac keyShape insideHead _ obs

end Baselines

/-! ## Attention matching -/

section Matching

variable [Field α] [LinearOrder α] [IsStrictOrderedRing α] (np : Numerics α) (lawful : np.Lawful)
  (config : MatchingConfig α)

/-- The budgets of the heads of layer `l`. -/
def layerBudgets (cache : KVCache α) (refs : RefQueries α) (t minT : Int) (scale : α) (l : Nat) :
    Except Raised (List Int) := do
  let layer ← index cache.layers l
  let qAll ← index refs.layers l
  let Qs ← (List.range cache.spec.nKvHeads).mapM (groupQueries qAll cache.spec)
  allocateBudget np config.budgetAlloc Qs layer.key t cache.seqLen minT scale

omit [IsStrictOrderedRing α] in
theorem layerBudgets_uniform {config : MatchingConfig α} (uniform : config.budgetAlloc = .uniform)
    {cache : KVCache α}
    {refs : RefQueries α} {t minT : Int} {scale : α} {l : Nat} {tPerHead : List Int}
    (allocated : layerBudgets np config cache refs t minT scale l = .ok tPerHead) :
    tPerHead = List.replicate cache.spec.nKvHeads t := by
  obtain ⟨layer, -, allocated⟩ := Fallible.ok_of_bind allocated
  obtain ⟨qAll, -, allocated⟩ := Fallible.ok_of_bind allocated
  obtain ⟨Qs, grouped, allocated⟩ := Fallible.ok_of_bind allocated
  have length := Fallible.length_of_mapM grouped
  rw [List.length_range] at length
  rw [allocateBudget, if_pos (.inl uniform), length] at allocated
  exact (Except.ok.inj allocated).symm

omit [Inhabited α] [Field α] [IsStrictOrderedRing α] in
theorem pairwise_reverse_mergeSort (l : List α) :
    (l.mergeSort fun x y => decide (x ≤ y)).reverse.Pairwise (· ≥ ·) := by
  have sorted := @List.pairwise_mergeSort _ (fun x y : α => decide (x ≤ y))
    (fun x y z first second => decide_eq_true
      ((of_decide_eq_true first).trans (of_decide_eq_true second)))
    (fun x y => by simpa using le_total _ _) l
  exact List.pairwise_reverse.2 (sorted.imp of_decide_eq_true)

omit [IsStrictOrderedRing α] in
theorem headImportances_ok {kAll : NDArray α} {heads T d : Nat} (shape : kAll.shape = [heads, T, d])
    (some : 0 < T) (scale : α)
    {e : List (Fin d → α) × Nat} (inside : e.2 < heads) :
    ∃ row, headImportances np kAll scale e = .ok row ∧ row.length = T ∧ row.Pairwise (· ≥ ·) := by
  obtain ⟨K, read, length, -⟩ := rowsOf_ok shape inside
  obtain ⟨A, probabilities⟩ := softmax_ok np (length ▸ some) (logitsOf e.1 K scale)
  refine ⟨_,
    by simp only [headImportances, read, bind, Except.bind,
    probabilities]; rfl, by simp [length], ?_⟩
  exact pairwise_reverse_mergeSort (List.ofFn (importance np A))

omit [IsStrictOrderedRing α] in
theorem mapM_headImportances_ok {kAll : NDArray α} {heads T d : Nat}
    (shape : kAll.shape = [heads, T, d]) (some : 0 < T) (scale : α)
    {Qs : List (List (Fin d → α))} (grouped : Qs.length = heads) :
    ∃ imp, Qs.zipIdx.mapM (headImportances np kAll scale) = .ok imp ∧ imp.length = heads ∧
      ∀ row ∈ imp, row.length = T ∧ row.Pairwise (· ≥ ·) := by
  have each : ∀ e ∈ Qs.zipIdx, ∃ row, headImportances np kAll scale e = .ok row ∧ row.length = T ∧
    row.Pairwise (· ≥ ·) := by
    intro e member
    have inside := (List.getElem?_eq_some_iff.1 (List.mem_zipIdx_iff_getElem?.1 member)).1
    exact headImportances_ok np shape some scale (grouped ▸ inside)
  obtain ⟨imp, measured, related⟩ := Fallible.mapM_ok each
  have length : imp.length = heads := by rw [← related.length_eq, List.length_zipIdx, grouped]
  refine ⟨imp, measured, length, fun row member => ?_⟩
  obtain ⟨i, inside, rfl⟩ := List.getElem_of_mem member
  exact related.get (related.length_eq.symm ▸ inside) inside

omit [IsStrictOrderedRing α] in
theorem allocateBudget_ok {kAll : NDArray α} {heads T d : Nat} (shape : kAll.shape = [heads, T, d])
    (some : 0 < T) (scale : α)
    {Qs : List (List (Fin d → α))} (grouped : Qs.length = heads) (alloc : BudgetAlloc) {t : Int}
    (positive : alloc = .uniform → 1 ≤ t) (minT : Int) :
    ∃ tPerHead, allocateBudget np alloc Qs kAll t T minT scale = .ok tPerHead ∧
      tPerHead.length = heads ∧ ∀ a ∈ tPerHead, 1 ≤ a := by
  unfold allocateBudget
  split_ifs with even
  · refine ⟨_, rfl, by rw [List.length_replicate, grouped], fun a member => ?_⟩
    obtain rfl := List.eq_of_mem_replicate member
    obtain uniform | whole := even
    · exact positive uniform
    · omega
  · obtain ⟨imp, measured, length, -⟩ := mapM_headImportances_ok np shape some scale grouped
    obtain ⟨size, positive⟩ := allocateGreedily_positive imp t some minT
    refine ⟨allocateGreedily imp t T minT, ?_, size.trans length, positive⟩
    simp only [measured, bind, Except.bind]
    rfl

include lawful

theorem matchHead_keeps {cache : KVCache α} (shaped : CacheShaped cache) {layer : LayerKV α}
    (keyShape : layer.key.shape = [cache.spec.nKvHeads, cache.seqLen, cache.spec.headDim])
    (valueShape : layer.value.shape = [cache.spec.nKvHeads, cache.seqLen, cache.spec.headDim])
    {Qs : List (List (Fin cache.spec.headDim → α))} {tPerHead : List Int}
    (grouped : Qs.length = cache.spec.nKvHeads)
    (allocated : tPerHead.length = cache.spec.nKvHeads) (positive : ∀ a ∈ tPerHead, 1 ≤ a)
    (scale : α) {h : Nat}
    (inside : h < cache.spec.nKvHeads) :
    ∃ head, matchHead np config cache layer Qs tPerHead scale h = .ok head ∧
      ∃ S, HeadKeeps cache layer h S head ∧
      (S.length : Int) = min (tPerHead.getD h 0) cache.seqLen ∧
      ∀ i < cache.seqLen, (cache.seqLen : Int) ≤
        i + min (roundShare config.recentFrac (tPerHead.getD h 0)) (tPerHead.getD h 0) → i ∈ S := by
  obtain ⟨K, readK, lengthK, cells⟩ := rowsOf_ok keyShape inside
  obtain ⟨V, readV, lengthV, -⟩ := rowsOf_ok valueShape inside
  have nonempty : K ≠ [] := by
    rw [← List.length_pos_iff, lengthK]
    exact shaped.nonempty
  have queries : Qs[h]? = some (Qs.getD h []) := by simp [grouped, inside]
  have budget : tPerHead[h]? = some (tPerHead.getD h 0) := by simp [allocated, inside]
  obtain ⟨fitted, fits, keeps, window⟩ :=
    fitHead_ok np lawful config (Qs.getD h []) nonempty (lengthV.trans lengthK.symm)
    (positive _ (List.mem_of_getElem? budget)) scale
  rw [lengthK] at window
  have chooses := keeps.chooses
  rw [lengthK] at chooses
  have positions :
    fitted.selected.mapM (index cache.positions) =
    .ok (fitted.selected.map fun i => cache.positions.getD i 0) :=
    mapM_index_ok chooses.below 0
  refine ⟨⟨ofRows fitted.keys, ofRows fitted.values, fitted.biases, fitted.selected.map
    fun i => cache.positions.getD i 0⟩, ?_,
    fitted.selected, ?_, chooses.length, window⟩
  · simp only [matchHead, readK, readV, index_ok queries, index_ok budget, fits, positions,
      bind, Except.bind]
    rfl
  · constructor
    case increasing => exact keeps.increasing
    case below => exact chooses.below
    case positions => rfl
    case ordered => exact fun ordered => positions_increasing ordered keeps.increasing chooses.below
    case keyShape => rw [shape_ofRows, keeps.keys, List.length_map]
    case key =>
      intro j i c there
      have insideI := chooses.below i (List.mem_of_getElem? there)
      have row : K[i]? = some (K.getD i fun _ => 0) := by simp [lengthK, insideI]
      have kept : fitted.keys[j]? = some (K.getD i fun _ => 0) := by
        rw [keeps.keys, List.getElem?_map, there, Option.map_some]
      by_cases channel : c < cache.spec.headDim
      · rw [get?_ofRows kept ⟨c, channel⟩, cells i _ row ⟨c, channel⟩]
      · rw [NDArray.get?_eq_none (by simp [channel]),
          NDArray.get?_eq_none (by simp [keyShape, channel])]
    case valueShape => rw [shape_ofRows, keeps.values]
    case biases => exact keeps.biases

theorem matchLayer_keeps {cache : KVCache α} (shaped : CacheShaped cache) {refs : RefQueries α}
    (queries : RefsShaped cache.spec refs)
    {t : Int} (positive : config.budgetAlloc = .uniform → 1 ≤ t) (minT : Int) (scale : α) {l : Nat}
    (inside : l < cache.spec.nLayers) :
    ∃ compact, matchLayer np config cache refs t minT scale l = .ok compact ∧ ∃ layer tPerHead,
      cache.layers[l]? = some layer ∧
      layerBudgets np config cache refs t minT scale l = .ok tPerHead ∧
      (tPerHead.length = cache.spec.nKvHeads ∧ ∀ a ∈ tPerHead, 1 ≤ a) ∧
      LayerKeeps cache layer (fun h => tPerHead.getD h 0)
        (fun h => roundShare config.recentFrac (tPerHead.getD h 0)) compact := by
  obtain ⟨layer, there, keyShape, valueShape⟩ := shaped.layers l inside
  obtain ⟨qAll, nRef, found, asked, queryShape⟩ := queries.layers l inside
  obtain ⟨Qs, grouped, length, -⟩ :=
    Fallible.mapM_range_ok (f := groupQueries qAll cache.spec) (P := fun _ Q => Q ≠ [])
    (n := cache.spec.nKvHeads)
      fun h insideHead => groupQueries_ok queryShape asked queries.grouped insideHead
  obtain ⟨tPerHead, allocated, size, atLeast⟩ :=
    allocateBudget_ok np keyShape shaped.nonempty scale length config.budgetAlloc positive minT
  obtain ⟨heads, matched, count, keeps⟩ := Fallible.mapM_range_ok fun h insideHead =>
    matchHead_keeps np lawful config shaped keyShape valueShape length size atLeast scale insideHead
  refine ⟨.ofHeads heads, ?_, layer, tPerHead, there, ?_, ⟨size, atLeast⟩, fun h insideHead => ?_⟩
  · simp only [matchLayer, index_ok there, index_ok found, grouped, allocated, matched,
      bind, Except.bind]
    rfl
  · simp only [layerBudgets, index_ok there, index_ok found, grouped, allocated, bind, Except.bind]
  · have present : h < heads.length := count ▸ insideHead
    obtain ⟨S, kept⟩ := keeps h heads[h] (List.getElem?_eq_getElem present)
    exact ⟨heads[h], S, by rw [CompactLayer.head?_ofHeads, List.getElem?_eq_getElem present], kept⟩

theorem attentionMatching_keeps {cache : KVCache α} (shaped : CacheShaped cache)
    {refs : RefQueries α}
    (queries : RefsShaped cache.spec refs) {budget : CompactionBudget} {target : Int}
    (given : budget.targetT cache.seqLen = .ok target)
    (positive : config.budgetAlloc = .uniform → 1 ≤ target) :
    ∃ tPerHead : Nat → List Int,
      (∀ l < cache.spec.nLayers, layerBudgets np config cache refs (min target cache.seqLen)
        (min budget.minTokens cache.seqLen)
        (1 / np.sqrt cache.spec.headDim) l = .ok (tPerHead l)) ∧
      (∀ l < cache.spec.nLayers, (tPerHead l).length = cache.spec.nKvHeads ∧
        ∀ t ∈ tPerHead l, 1 ≤ t) ∧
      KeepsBudget cache ((attentionMatching np config).compact cache budget (some refs))
        (fun l h => (tPerHead l).getD h 0)
        (fun l h => roundShare config.recentFrac ((tPerHead l).getD h 0)) := by
  have nonempty := shaped.nonempty
  let t := min target (cache.seqLen : Int)
  let minT := min budget.minTokens (cache.seqLen : Int)
  let scale := 1 / np.sqrt (cache.spec.headDim : α)
  have enough : config.budgetAlloc = .uniform → 1 ≤ t := by
    intro uniform
    have := positive uniform
    omega
  have each :=
    fun l (inside : l < cache.spec.nLayers) => matchLayer_keeps np lawful config shaped queries enough minT scale inside
  obtain ⟨layers, matched, count, keeps⟩ := Fallible.mapM_range_ok each
  let tPerHead := fun l => (layerBudgets np config cache refs t minT scale l).toOption.getD []
  have read : ∀ l budgets, layerBudgets np config cache refs t minT scale l = .ok budgets →
    tPerHead l = budgets := by
    intro l budgets allocated
    simp only [tPerHead, allocated]
    rfl
  have made : ∃ compact, (attentionMatching np config).compact cache budget (some refs) =
    .ok compact ∧
      compact.logicalLength = cache.seqLen ∧ compact.layers = layers := by
    simp only [attentionMatching, given, bind, Except.bind]
    rw [matched]
    exact ⟨_, rfl, rfl, rfl⟩
  obtain ⟨compact, ok, logical, isLayers⟩ := made
  refine ⟨tPerHead, fun l inside => ?_, fun l inside => ?_, compact, ok, logical,
    fun l inside => ?_⟩
  · obtain ⟨_, -, _, budgets, -, allocated, -⟩ := each l inside
    rw [read l budgets allocated]
    exact allocated
  · obtain ⟨_, -, _, budgets, -, allocated, heads, -⟩ := each l inside
    rw [read l budgets allocated]
    exact heads
  · have present : layers[l]? = Option.some layers[l] := List.getElem?_eq_getElem (count ▸ inside)
    obtain ⟨layer, budgets, there, allocated, -, kept⟩ := keeps l _ present
    refine ⟨layer, layers[l], there, by rw [isLayers, present], ?_⟩
    simpa only [read l budgets allocated] using kept

omit lawful [IsStrictOrderedRing α] in
/-- An empty budget for every head cannot be fitted. -/
theorem attentionMatching_zero (argsorts : np.toNumpy.Argsorts) {cache : KVCache α}
    (shaped : CacheShaped cache)
    {refs : RefQueries α} (queries : RefsShaped cache.spec refs) {budget : CompactionBudget}
    (given : budget.targetT cache.seqLen = .ok 0) (uniform : config.budgetAlloc = .uniform)
    (layers : 0 < cache.spec.nLayers)
    (heads : 0 < cache.spec.nKvHeads) :
    (attentionMatching np config).compact cache budget (some refs) =
      .error emptyMaximum := by
  obtain ⟨layer, there, keyShape, valueShape⟩ := shaped.layers 0 layers
  obtain ⟨qAll, nRef, found, asked, queryShape⟩ := queries.layers 0 layers
  obtain ⟨Qs, grouped, length, nonempty⟩ :=
    Fallible.mapM_range_ok (f := groupQueries qAll cache.spec) (P := fun _ Q => Q ≠ [])
    (n := cache.spec.nKvHeads)
      fun h insideHead => groupQueries_ok queryShape asked queries.grouped insideHead
  obtain ⟨K, readK, lengthK, -⟩ := rowsOf_ok keyShape heads
  obtain ⟨V, readV, -⟩ := rowsOf_ok valueShape heads
  have some : K ≠ [] := by
    rw [← List.length_pos_iff, lengthK]
    exact shaped.nonempty
  have queries : Qs[0]? = Option.some (Qs.getD 0 []) := by simp [length, heads]
  have none : min (0 : Int) cache.seqLen = 0 := by omega
  have budgets : ∀ minT scale,
    allocateBudget np config.budgetAlloc Qs layer.key 0 cache.seqLen minT scale =
      .ok (List.replicate cache.spec.nKvHeads 0) := by
    intro minT scale
    rw [allocateBudget, if_pos (.inl uniform), length]
    rfl
  have budget : (List.replicate cache.spec.nKvHeads (0 : Int))[0]? = Option.some 0 := by
    simp [heads]
  have head :
    ∀ scale, matchHead np config cache layer Qs (List.replicate cache.spec.nKvHeads 0) scale 0 =
      .error emptyMaximum := by
    intro scale
    have fails := fitHead_zero np argsorts config (nonempty 0 _ queries) some V scale
    simp only [matchHead, readK, readV, index_ok queries, index_ok budget, fails, bind, Except.bind]
  have first : ∀ minT scale, matchLayer np config cache refs 0 minT scale 0 =
      .error emptyMaximum := by
    intro minT scale
    have loop := Fallible.mapM_range_error heads (head scale)
    simp only [matchLayer, index_ok there, index_ok found, grouped, budgets, loop,
      bind, Except.bind]
  simp only [attentionMatching, given, none, Fallible.mapM_range_error layers (first _ _),
    bind, Except.bind]

end Matching

/-! ## All of them -/

/-- Under a budget that gives every head a token each compactor keeps on each head as many tokens as
    the budget says, or all, and its recent window; the baselines do so under an empty budget
    too. -/
theorem selectors_keep_budget [Field α] [LinearOrder α] [IsStrictOrderedRing α] {np : Numerics α}
    (lawful : np.Lawful)
    {rng : Sampling} (draws : ∀ seed T size, size ≤ T → Chooses T size (rng.choice seed T size))
    {cache : KVCache α}
    (shaped : CacheShaped cache) {refs : RefQueries α} (queries : RefsShaped cache.spec refs)
    {budget : CompactionBudget}
    {target : Int} (given : budget.targetT cache.seqLen = .ok target) :
    (0 ≤ target →
      KeepsBudget cache (recentWindow.compact cache budget (some refs)) (fun _ _ => target)
        (fun _ _ => target) ∧
      (∀ recentFrac, 0 ≤ recentFrac →
        KeepsBudget cache ((heavyHitter np recentFrac).compact cache budget (some refs))
          (fun _ _ => target)
          (fun _ _ => roundShare recentFrac target) ∧
        ∀ window,
          KeepsBudget cache ((snapKVLite np window recentFrac).compact cache budget (some refs))
          (fun _ _ => target)
          (fun _ _ => roundShare recentFrac target)) ∧
      ((Engine.hashInput (cache.tokenIds.getD cache.positions)).isSome →
        KeepsBudget cache ((randomSubset rng).compact cache budget (some refs)) (fun _ _ => target)
          (fun _ _ => 0))) ∧
    ∀ config : MatchingConfig α, (config.budgetAlloc = .uniform → 1 ≤ target) →
      ∃ tPerHead : Nat → List Int,
        (∀ l < cache.spec.nLayers, layerBudgets np config cache refs (min target cache.seqLen)
          (min budget.minTokens cache.seqLen)
          (1 / np.sqrt cache.spec.headDim) l = .ok (tPerHead l)) ∧
        (∀ l < cache.spec.nLayers, (tPerHead l).length = cache.spec.nKvHeads ∧
          ∀ t ∈ tPerHead l, 1 ≤ t) ∧
        (config.budgetAlloc = .uniform → ∀ l < cache.spec.nLayers,
          tPerHead l = List.replicate cache.spec.nKvHeads (min target cache.seqLen)) ∧
        KeepsBudget cache ((attentionMatching np config).compact cache budget (some refs))
          (fun l h => (tPerHead l).getD h 0)
          (fun l h => roundShare config.recentFrac ((tPerHead l).getD h 0)) := by
  refine ⟨fun nonneg => ⟨?_, fun recentFrac frac => ⟨?_, fun window => ?_⟩, fun hashed => ?_⟩,
    fun config positive => ?_⟩
  · exact recentWindow_keeps shaped given nonneg (some refs)
  · exact heavyHitter_keeps shaped given nonneg lawful.argsorts frac queries
  · exact snapKVLite_keeps shaped given nonneg lawful.argsorts frac queries window
  · exact randomSubset_keeps shaped given nonneg draws hashed (some refs)
  · obtain ⟨tPerHead, allocated, heads, keeps⟩ :=
      attentionMatching_keeps np lawful config shaped queries given positive
    exact ⟨tPerHead, allocated, heads, fun uniform l inside => layerBudgets_uniform np uniform
      (allocated l inside), keeps⟩

section Tiny

def tinySpec : ModelSpec :=
  { name := "tiny", nLayers := 1, nQHeads := 1, nKvHeads := 1, headDim := 1, hiddenSize := 1 }

/-- Two tokens and one query. -/
noncomputable def tinyCache : KVCache ℝ where
  spec := tinySpec
  layers := [⟨⟨[1, 2, 1], [0, 1], rfl⟩, ⟨[1, 2, 1], [3, 5], rfl⟩⟩]
  positions := [0, 1]
  tokenIds := some [7, 9]

noncomputable def tinyRefs : RefQueries ℝ where
  spec := tinySpec
  layers := [⟨[1, 1, 1], [2], rfl⟩]

/-- `AttentionMatching()`. -/
noncomputable def plainMatching : MatchingConfig ℝ where
  valueRidge := 0
  ridge := le_rfl
  train := by decide
  mass := by decide
  recent := by decide

def firstTokens : Sampling where
  digest _ := 0
  choice _ _ size := List.range size

theorem firstTokens_draws (seed T size : Nat) (le : size ≤ T) :
    Chooses T size (firstTokens.choice seed T size) where
  nodup := List.nodup_range
  below i member := (List.mem_range.1 member).trans_le le
  length := by
    simp only [firstTokens, List.length_range]
    omega

theorem tinyCache_shaped : CacheShaped tinyCache where
  nonempty := by decide
  layers l inside := by
    obtain rfl : l = 0 := Nat.lt_one_iff.1 inside
    exact ⟨_, rfl, rfl, rfl⟩

theorem tinyRefs_shaped : RefsShaped tinyCache.spec tinyRefs where
  grouped := by decide
  layers l inside := by
    obtain rfl : l = 0 := Nat.lt_one_iff.1 inside
    exact ⟨_, 1, rfl, Nat.one_pos, rfl⟩

/-- Three tokens on two heads. -/
noncomputable def pairCache : KVCache ℝ where
  spec := { tinySpec with nQHeads := 2, nKvHeads := 2 }
  layers := [⟨⟨[2, 3, 1], [0, 1, 2, 5, 0, 1], rfl⟩, ⟨[2, 3, 1], [3, 5, 1, 0, 2, 4], rfl⟩⟩]
  positions := [0, 1, 2]
  tokenIds := some [7, 8, 9]

noncomputable def pairRefs : RefQueries ℝ where
  spec := pairCache.spec
  layers := [⟨[2, 1, 1], [2, 1], rfl⟩]

theorem pairCache_shaped : CacheShaped pairCache where
  nonempty := by decide
  layers l inside := by
    obtain rfl : l = 0 := Nat.lt_one_iff.1 inside
    exact ⟨_, rfl, rfl, rfl⟩

theorem pairRefs_shaped : RefsShaped pairCache.spec pairRefs where
  grouped := by decide
  layers l inside := by
    obtain rfl : l = 0 := Nat.lt_one_iff.1 inside
    exact ⟨_, 1, rfl, Nat.one_pos, rfl⟩

theorem selectors_keep_budget_pair :
    KeepsBudget pairCache
      (recentWindow.compact pairCache { tokensPerHead := some 2 } (some pairRefs)) (fun _ _ => 2)
      (fun _ _ => 2) ∧
      KeepsBudget pairCache
        ((heavyHitter realNumerics (1 / 4)).compact pairCache { tokensPerHead := some 2 }
        (some pairRefs))
        (fun _ _ => 2) (fun _ _ => roundShare (1 / 4) 2) ∧
      KeepsBudget pairCache
        ((randomSubset firstTokens).compact pairCache { tokensPerHead := some 2 } (some pairRefs))
        (fun _ _ => 2)
        (fun _ _ => 0) ∧
      (∃ tPerHead : Nat → List Int, tPerHead 0 = [2, 2] ∧
        KeepsBudget pairCache
          ((attentionMatching realNumerics plainMatching).compact pairCache { tokensPerHead := some 2 } (some pairRefs))
          (fun l h => (tPerHead l).getD h 0) (fun l h => roundShare 0 ((tPerHead l).getD h 0))) ∧
      ∃ tPerHead : Nat → List Int, (tPerHead 0).length = 2 ∧ (∀ t ∈ tPerHead 0, 1 ≤ t) ∧
        KeepsBudget pairCache
          ((attentionMatching realNumerics { plainMatching with budgetAlloc := .sensitivity }).compact pairCache
          { tokensPerHead := some 2 } (some pairRefs)) (fun l h => (tPerHead l).getD h 0)
          (fun l h => roundShare 0 ((tPerHead l).getD h 0)) := by
  have given : CompactionBudget.targetT { tokensPerHead := some 2 } pairCache.seqLen = .ok 2 := rfl
  obtain ⟨baselines, matching⟩ :=
    selectors_keep_budget realNumerics_lawful firstTokens_draws pairCache_shaped pairRefs_shaped given
  obtain ⟨window, scored, sampled⟩ := baselines (by decide)
  obtain ⟨even, -, -, uniform, evenly⟩ := matching plainMatching fun _ => by decide
  obtain ⟨budgets, -, heads, -, keeps⟩ :=
    matching { plainMatching with budgetAlloc := .sensitivity } fun _ => by decide
  obtain ⟨length, positive⟩ := heads 0 Nat.one_pos
  exact ⟨window, (scored (1 / 4) (by norm_num)).1, sampled rfl,
    ⟨even, uniform rfl 0 Nat.one_pos, evenly⟩, budgets, length, positive, keeps⟩

/-- Attention matching fails on an empty budget, a sample of negative size is refused, and tokens of
    more than four bytes have no hash. -/
theorem selectors_fail :
    ¬ KeepsBudget tinyCache
      ((attentionMatching realNumerics plainMatching).compact tinyCache { tokensPerHead := some 0, minTokens := 0 }
      (some tinyRefs)) (fun _ _ => 0) (fun _ _ => 0) ∧
    ¬ KeepsBudget tinyCache
      ((randomSubset firstTokens).compact tinyCache { tokensPerHead := some (-1), minTokens := -1 } none)
      (fun _ _ => -1) (fun _ _ => 0) ∧
    ¬ KeepsBudget { tinyCache with tokenIds := some [7, 2 ^ 31] }
      ((randomSubset firstTokens).compact { tinyCache with tokenIds := some [7, 2 ^ 31] } { tokensPerHead := some 1 } none)
      (fun _ _ => 1) (fun _ _ => 0) := by
  refine ⟨?_, ?_, ?_⟩
  · have given :
      CompactionBudget.targetT { tokensPerHead := some 0, minTokens := 0 } tinyCache.seqLen =
      .ok 0 := rfl
    have fails :=
      attentionMatching_zero realNumerics plainMatching realNumerics_lawful.argsorts tinyCache_shaped tinyRefs_shaped
      given rfl (by decide) (by decide)
    rintro ⟨compact, made, -⟩
    rw [fails] at made
    cases made
  · rintro ⟨compact, made, -⟩
    cases made
  · rintro ⟨compact, made, -⟩
    cases made

end Tiny

end Dexa.Compaction
