import Dexa.Compaction.WholeBudget
import Dexa.Engine.NativeLoad
import Dexa.Engine.RaggedDecoding

/-! # A cache that keeps everything decodes as the cache

Where every head keeps every token, what goes to the device is what a raw cache sends there.  So a
compactor whose budget covers the cache changes neither scores nor generated tokens.
-/

namespace Dexa.Engine

open Dexa.Core Dexa.Lib Dexa.Segments Dexa.Compaction

variable {α τ Λ : Type} [Inhabited α] [Field α]

namespace HFBackend

variable {b : HFBackend α τ Λ} {context context' : HostContext α}
  (same : ∀ inputIds, b.contextLogits context inputIds = b.contextLogits context' inputIds)
include same

theorem contextGenerateLoop_congr (prompt : List Int) (pick : Nat → Λ → Int) (remaining : Nat)
    (generated : List Int) (last : Λ) :
    b.contextGenerateLoop context prompt pick remaining generated last =
      b.contextGenerateLoop context' prompt pick remaining generated last := by
  induction remaining generalizing generated last with
  | zero => rfl
  | succ remaining ih => simp only [contextGenerateLoop, same, ih]

/-- Scoring after a prompt. -/
theorem contextScore_congr {prompt : List Int} (prompted : prompt ≠ []) (target : List Int) :
    b.contextScore context prompt target = b.contextScore context' prompt target := by
  simp only [contextScore, ne_eq, prompted, not_false_eq_true, if_true, same]

theorem contextGenerate_congr {prompt : List Int} (prompted : prompt ≠ []) (maxNewTokens : Nat)
    (pick : Nat → Λ → Int) :
    b.contextGenerate context prompt maxNewTokens pick =
      b.contextGenerate context' prompt maxNewTokens pick := by
  have loop :=
    fun remaining generated last => contextGenerateLoop_congr same prompt pick remaining generated last
  simp only [contextGenerate, ne_eq, prompted, not_false_eq_true, if_true, same, loop]

variable (boundary : ∀ inputIds,
  (contextDropLast context >>= fun e => b.contextLogits e.1 (e.2 :: inputIds)) =
  (contextDropLast context' >>= fun e => b.contextLogits e.1 (e.2 :: inputIds)))
include boundary

omit same in
theorem boundary_bind {γ : Type} (inputIds : List Int) (f : List Λ → Option γ) :
    (contextDropLast context >>= fun e => b.contextLogits e.1 (e.2 :: inputIds) >>= f) =
      (contextDropLast context' >>= fun e => b.contextLogits e.1 (e.2 :: inputIds) >>= f) := by
  have regroup : ∀ c : HostContext α,
    (contextDropLast c >>= fun e => b.contextLogits e.1 (e.2 :: inputIds) >>= f) =
      (contextDropLast c >>= fun e => b.contextLogits e.1 (e.2 :: inputIds)) >>= f :=
  fun c => (bind_assoc ..).symm
  rw [regroup, regroup, boundary]

/-- Scoring with or without a prompt. -/
theorem contextScore_boundary (prompt target : List Int) :
    b.contextScore context prompt target = b.contextScore context' prompt target := by
  by_cases prompted : prompt = []
  · subst prompted
    unfold contextScore
    split
    · rfl
    · exact boundary_bind boundary target _
  · exact contextScore_congr same prompted target

theorem contextGenerate_boundary (prompt : List Int) (maxNewTokens : Nat) (pick : Nat → Λ → Int) :
    b.contextGenerate context prompt maxNewTokens pick =
      b.contextGenerate context' prompt maxNewTokens pick := by
  by_cases prompted : prompt = []
  · subst prompted
    have loop :=
      fun remaining generated last => contextGenerateLoop_congr same [] pick remaining generated last
    simp only [contextGenerate, loop]
    exact boundary_bind boundary [] _
  · exact contextGenerate_congr same prompted maxNewTokens pick

end HFBackend

/-! ## The whole cache on the device -/

section Keep

variable {b : HFBackend α τ Λ} {kv : KVCache α} (spec : kv.spec = b.model.spec)
  (cache : CacheOf b.model.spec kv)
include spec cache

omit cache in
theorem wholeLayer_head {l : LayerKV α} {h : Nat} (inside : h < b.model.spec.nKvHeads) :
    (wholeLayer kv l).head? h = some (wholeHead kv l h) := by
  rw [wholeLayer, CompactLayer.head?_ofHeads, List.getElem?_map,
    List.getElem?_range (spec ▸ inside), Option.map_some]

theorem physicalLen_keepAll (method : String) (metadata : Dict String MetaValue) :
    (HostContext.compact (keepAll kv method metadata)).physicalLen = kv.seqLen := by
  have lengths : ∀ n ∈ (keepAll kv method metadata).layers.flatMap fun layer => layer.keys.map
    fun key => key.shape.headD 0,
      n = kv.seqLen := by
    intro n member
    obtain ⟨layer, among, inner⟩ := List.mem_flatMap.1 member
    obtain ⟨l, taken, rfl⟩ := List.mem_map.1 among
    obtain ⟨key, ofHead, rfl⟩ := List.mem_map.1 inner
    obtain ⟨head, made, rfl⟩ := List.mem_map.1 ofHead
    obtain ⟨h, -, rfl⟩ := List.mem_map.1 made
    obtain ⟨keyShape, -⟩ := cache.shape l (List.mem_of_mem_take taken)
    rw [wholeHead, NDArray.shape_select0 h keyShape, List.headD_cons]
  obtain ⟨l, there⟩ : ∃ l, kv.layers[0]? = some l :=
    ⟨_, List.getElem?_eq_getElem (cache.layers_length ▸ cache.layer)⟩
  obtain ⟨keyShape, -⟩ := cache.shape l (List.mem_of_getElem? there)
  have layer : wholeLayer kv l ∈ (keepAll kv method metadata).layers := by
    apply List.mem_of_getElem? (i := 0)
    rw [keepAll, List.getElem?_map, List.getElem?_take_of_lt (spec ▸ cache.layer), there,
      Option.map_some]
  apply le_antisymm
  · exact foldl_max_le (Nat.zero_le _) fun n member => (lengths n member).le
  · have found : (wholeLayer kv l).head? 0 = some (wholeHead kv l 0) :=
      wholeLayer_head spec cache.head
    have length : (wholeHead kv l 0).biases.length = kv.seqLen := List.length_replicate
    have shape :
      (wholeHead kv l 0).key.shape = [(wholeHead kv l 0).biases.length, b.model.spec.headDim] := by
      rw [length]
      exact NDArray.shape_select0 0 keyShape
    exact length ▸ length_le_physicalLen layer found shape

/-- Padding a whole layer writes its own arrays, with no bias. -/
theorem buildCompactLayer_whole {l : LayerKV α} (member : l ∈ kv.layers) :
    b.buildCompactLayer (wholeLayer kv l) kv.seqLen =
      some (⟨l.key.map b.fromFloat, l.value.map b.fromFloat⟩, b.betaRows kv.seqLen kv.seqLen) := by
  obtain ⟨keyShape, valueShape⟩ := cache.shape l member
  have shaped : LayerShaped b.model.spec (wholeLayer kv l) := by
    intro h inside
    refine ⟨_, wholeLayer_head spec inside, ?_, ?_, rfl⟩
    · simp [wholeHead, NDArray.shape_select0 h keyShape]
    · simp [wholeHead, NDArray.shape_select0 h valueShape]
  have fits : ∀ h < b.model.spec.nKvHeads, ∀ head, (wholeLayer kv l).head? h = some head →
    head.biases.length ≤ kv.seqLen := by
    intro h inside head found
    obtain rfl : wholeHead kv l h = head :=
      Option.some.inj ((wholeLayer_head spec inside).symm.trans found)
    simp [wholeHead]
  obtain ⟨full, built, filled⟩ := buildCompactLayer_ok b shaped fits
  -- no slot is left for padding, so every cell is one of the layer's
  have kept : ∀ h < b.model.spec.nKvHeads, ∀ j < kv.seqLen,
    (∀ c, full.1.get? [h, j, c] = l.key.get? [h, j, c]) ∧
      (∀ c, full.2.1.get? [h, j, c] = l.value.get? [h, j, c]) ∧ full.2.2.get? [h, j] = some 0 := by
    intro h inside j column
    have cells :=
      filled.kept h inside _ (wholeLayer_head spec inside) j (by simpa [wholeHead] using column)
    simpa [wholeHead, NDArray.get?_select0 keyShape inside, NDArray.get?_select0 valueShape inside,
      column] using cells
  have key : full.1 = l.key := by
    apply NDArray.ext_get? (filled.keyShape.trans keyShape.symm)
    intro ix cell
    rw [filled.keyShape] at cell
    obtain ⟨h, j, c, rfl, inside, column, -⟩ := NDArray.inBounds_three cell
    exact (kept h inside j column).1 c
  have value : full.2.1 = l.value := by
    apply NDArray.ext_get? (filled.valueShape.trans valueShape.symm)
    intro ix cell
    rw [filled.valueShape] at cell
    obtain ⟨h, j, c, rfl, inside, column, -⟩ := NDArray.inBounds_three cell
    exact (kept h inside j column).2.1 c
  have beta : (full.2.2.repeat0 b.model.spec.groupSize).map b.fromFloat =
    b.betaRows kv.seqLen kv.seqLen := by
    have shape := NDArray.shape_repeat0 b.model.spec.groupSize filled.betaShape
    apply NDArray.ext_get? shape
    intro ix cell
    rw [NDArray.shape_map, shape] at cell
    obtain ⟨h, j, rfl, row, column⟩ := NDArray.inBounds_two cell
    have inside : h / b.model.spec.groupSize < b.model.spec.nKvHeads :=
      Nat.div_lt_of_lt_mul (by rwa [Nat.mul_comm])
    rw [NDArray.get?_map, NDArray.get?_repeat0 filled.betaShape row, (kept _ inside j column).2.2,
      HFBackend.betaRows,
      NDArray.get?_ofFn_inBounds _ cell]
    simp [column]
  rw [built, key, value, beta]

/-- All layers of the cache on the device. -/
theorem buildContext_keepAll (method : String) (metadata : Dict String MetaValue) :
    b.buildContext (.compact (keepAll kv method metadata)) kv.seqLen =
      some (kv.layers.map fun l => (l.map b.fromFloat, b.betaRows kv.seqLen kv.seqLen)) := by
  have count :
    b.model.spec.nLayers =
    (kv.layers.map fun l => (l.map b.fromFloat, b.betaRows kv.seqLen kv.seqLen)).length := by
    rw [List.length_map, cache.layers_length]
  rw [HFBackend.buildContext, count]
  apply Fallible.mapM_range_eq_some
  intro li built there
  rw [List.getElem?_map, Option.map_eq_some_iff] at there
  obtain ⟨l, here, rfl⟩ := there
  have whole : (keepAll kv method metadata).layers[li]? = some (wholeLayer kv l) := by
    rw [keepAll, spec, List.take_of_length_le cache.layers_length.le, List.getElem?_map, here,
      Option.map_some]
  simp only [whole, Option.bind_eq_bind, Option.bind_some,
    buildCompactLayer_whole spec cache (List.mem_of_getElem? here)]
  rfl

/-- Decoding over a cache that keeps everything is decoding over the cache. -/
theorem contextLogits_keepAll (method : String) (metadata : Dict String MetaValue)
    (inputIds : List Int) :
    b.contextLogits (.compact (keepAll kv method metadata)) inputIds = b.contextLogits
      (.raw (.float32 kv)) inputIds := by
  have built : b.buildContext (.compact (keepAll kv method metadata)) kv.seqLen = b.buildContext
    (.raw (.float32 kv)) kv.seqLen := by
    unfold HFBackend.buildContext
    congr 1
    funext li
    have whole : (keepAll kv method metadata).layers[li]? = kv.layers[li]?.map (wholeLayer kv) := by
      rw [keepAll, spec, List.take_of_length_le cache.layers_length.le, List.getElem?_map]
    cases there : kv.layers[li]? with
    | none => simp [whole, there, HFBackend.buildLayer]
    | some l =>
      have member := List.mem_of_getElem? there
      obtain ⟨keyShape, valueShape⟩ := cache.shape l member
      simp [keyShape, whole, there, HFBackend.buildLayer, buildCompactLayer_whole spec cache member,
        HFBackend.padded_whole keyShape, HFBackend.padded_whole valueShape]
  have physical := physicalLen_keepAll spec cache method metadata
  have raw : (HostContext.raw (.float32 kv)).physicalLen = kv.seqLen := rfl
  simp only [HFBackend.contextLogits, physical, raw, built]
  rfl

omit [Field α] spec cache in
/-- The last slot of a head dropped before or after the head is taken. -/
theorem withoutLast_select0 {a : NDArray α} {m t d h : Nat} (shape : a.shape = [m, t, d])
    (inside : h < m) :
    HFBackend.withoutLast (a.select0 h) = (a.takeAxis1 (a.shape.getD 1 0 - 1)).select0 h := by
  have columns : a.shape.getD 1 0 = t := by
    rw [shape]
    rfl
  have row := NDArray.shape_select0 h shape
  have cut := NDArray.shape_takeAxis1 (t - 1) shape
  have first : ((a.select0 h).take (t - 1)).shape = [min (t - 1) t, d] :=
    NDArray.shape_take (t - 1) row
  rw [HFBackend.withoutLast, row, List.headD_cons, columns]
  apply NDArray.ext_get? (first.trans (NDArray.shape_select0 h cut).symm)
  intro ix cell
  rw [first] at cell
  obtain ⟨j, c, rfl, column, -⟩ := NDArray.inBounds_two cell
  have early : j < t - 1 := by omega
  rw [NDArray.get?_take row early, NDArray.get?_select0 shape inside,
    NDArray.get?_select0 cut inside,
    NDArray.get?_takeAxis1 shape early]

/-- Dropping the last slot of every head is dropping the last position of the cache. -/
theorem dropLast_keepAll (method : String) (metadata : Dict String MetaValue) (ids : List Int)
    (known : HFBackend.metaTokenIds metadata = some ids) :
    HFBackend.dropLastCompact (keepAll kv method metadata) = ids.getLast?.map fun last =>
      (keepAll (HostKV.dropLast.cut kv) method
        (metadata.set "token_ids" (.list (ids.dropLast.map .int))), last) := by
  have length : (HostKV.dropLast.cut kv).seqLen = kv.seqLen - 1 := List.length_dropLast
  have keepAllKnown : HFBackend.metaTokenIds (keepAll kv method metadata).metadata = some ids :=
    known
  have layers :
    (keepAll kv method metadata).layers.map
    (fun cl => CompactLayer.mk (cl.keys.map HFBackend.withoutLast)
        (cl.values.map HFBackend.withoutLast) (cl.biases.map List.dropLast)
        (cl.positions.map List.dropLast)) =
      ((HostKV.dropLast.cut kv).layers.take kv.spec.nLayers).map
        (wholeLayer (HostKV.dropLast.cut kv)) := by
    simp only [keepAll, HostKV.dropLast.cut, List.map_map, ← List.map_take]
    refine List.map_congr_left fun l taken => ?_
    obtain ⟨keyShape, valueShape⟩ := cache.shape l (List.mem_of_mem_take taken)
    simp only [Function.comp_apply, wholeLayer, CompactLayer.ofHeads, List.map_map]
    congr 1
    · refine List.map_congr_left fun h member => ?_
      exact withoutLast_select0 keyShape (spec ▸ List.mem_range.1 member)
    · refine List.map_congr_left fun h member => ?_
      exact withoutLast_select0 valueShape (spec ▸ List.mem_range.1 member)
    · refine List.map_congr_left fun h _ => ?_
      simp [wholeHead, KVCache.seqLen]
  simp only [HFBackend.dropLastCompact, keepAllKnown, Option.bind_eq_bind, Option.bind_some, layers]
  cases ids.getLast? with
  | none => rfl
  | some last =>
    simp only [keepAll, length, Option.bind_some, Option.map_some, pure]
    rfl

/-- A cache that keeps everything, its tokens among its metadata, scores and generates as the cache
    does. -/
theorem keepAll_decodes_alike (slots : 0 < kv.seqLen) (method : String)
    {metadata : Dict String MetaValue}
    (known : HFBackend.metaTokenIds metadata = kv.tokenIds) (prompt : List Int) :
    (∀ target, b.contextScore (.compact (keepAll kv method metadata)) prompt target = b.score
      (.float32 kv) prompt target) ∧
      ∀ maxNewTokens pick,
        b.contextGenerate (.compact (keepAll kv method metadata)) prompt maxNewTokens pick =
        b.generate (.float32 kv) prompt maxNewTokens pick := by
  have same := contextLogits_keepAll spec cache method metadata
  have boundary :
    ∀ inputIds,
    (HFBackend.contextDropLast (.compact (keepAll kv method metadata)) >>=
    fun e => b.contextLogits e.1 (e.2 :: inputIds)) =
      (HFBackend.contextDropLast (.raw (.float32 kv)) >>= fun e => b.contextLogits e.1
        (e.2 :: inputIds)) := by
    intro inputIds
    cases tokens : kv.tokenIds with
    | none =>
      have absent : HFBackend.metaTokenIds (keepAll kv method metadata).metadata = none :=
        known.trans tokens
      simp [HFBackend.contextDropLast, HFBackend.dropLastCompact, absent, HFBackend.dropLast,
        HostKV.tokenIds, tokens]
    | some ids =>
      have cut := @contextLogits_keepAll _ _ _ _ _ b (HostKV.dropLast.cut kv) spec cache.cut method
        (metadata.set "token_ids" (.list (ids.dropLast.map .int)))
      obtain ⟨p, position⟩ : ∃ p, kv.positions.getLast? = some p :=
        ⟨_, List.getLast?_eq_some_getLast (List.length_pos_iff.1 slots)⟩
      have compact := dropLast_keepAll spec cache method metadata ids (known.trans tokens)
      cases last : ids.getLast? with
      | none => simp [HFBackend.contextDropLast, compact, HFBackend.dropLast, HostKV.tokenIds,
          tokens, last]
      | some token =>
        simp only [HFBackend.contextDropLast, compact, HFBackend.dropLast, HostKV.tokenIds,
          HostKV.positions, tokens, last, position,
          Option.map_some, Option.bind_eq_bind, Option.bind_some, pure]
        exact cut (token :: inputIds)
  refine ⟨fun target => ?_, fun maxNewTokens pick => ?_⟩
  · rw [HFBackend.contextScore_boundary same boundary, HFBackend.contextScore_raw]
  · rw [HFBackend.contextGenerate_boundary same boundary, HFBackend.contextGenerate_raw]

omit spec cache in
/-- The token before an empty prompt is not among the metadata that the compactors write. -/
theorem keepAll_unprompted (method : String) {metadata : Dict String MetaValue}
    (unknown : metadata.get? "token_ids" = none)
    {target : List Int} (asked : target ≠ []) :
      b.contextScore (.compact (keepAll kv method metadata)) [] target = none := by
  have absent : HFBackend.metaTokenIds (keepAll kv method metadata).metadata = none := by
    simp [HFBackend.metaTokenIds, keepAll, unknown]
  simp [HFBackend.contextScore, HFBackend.contextDropLast, HFBackend.dropLastCompact, absent, asked]

/-- What a compactor with a budget for the whole cache returns decodes as the cache does, after any
    prompt. -/
def DecodesAlike (b : HFBackend α τ Λ) (kv : KVCache α) (made : Except Raised (CompactCache α)) :
    Prop :=
  ∃ compact, made = .ok compact ∧
    (∀ prompt ≠ [],
      (∀ target, b.contextScore (.compact compact) prompt target = b.score
      (.float32 kv) prompt target) ∧
      ∀ maxNewTokens pick,
        b.contextGenerate (.compact compact) prompt maxNewTokens pick = b.generate
          (.float32 kv) prompt maxNewTokens pick) ∧
    ∀ target ≠ [], b.contextScore (.compact compact) [] target = none

theorem keepAll_decodesAlike (method : String) {metadata : Dict String MetaValue}
    (unknown : metadata.get? "token_ids" = none)
    {made : Except Raised (CompactCache α)} (kept : made = .ok (keepAll kv method metadata)) :
      DecodesAlike b kv made := by
  have same := contextLogits_keepAll spec cache method metadata
  refine ⟨_, kept, fun prompt prompted => ⟨fun target => ?_, fun maxNewTokens pick => ?_⟩,
    fun target asked => ?_⟩
  · rw [HFBackend.contextScore_congr same prompted, HFBackend.contextScore_raw]
  · rw [HFBackend.contextGenerate_congr same prompted, HFBackend.contextGenerate_raw]
  · exact keepAll_unprompted method unknown asked

/-- Every compactor leaves decoding as it is when its budget covers the cache. -/
theorem whole_budget_decodes_alike [LinearOrder α] {np : Numerics α}
    (argsorts : np.toNumpy.Argsorts) {rng : Sampling}
    (draws : ∀ seed T size, size ≤ T → Chooses T size (rng.choice seed T size))
    (slots : 0 < kv.seqLen)
    (hashed : (hashInput (kv.tokenIds.getD kv.positions)).isSome) {refs : RefQueries α}
    (queries : RefsShaped kv.spec refs)
    {recentFrac : ℚ} (frac : 0 ≤ recentFrac) (window : Int) (config : MatchingConfig α)
    {budget : CompactionBudget} {target : Int}
    (given : budget.targetT kv.seqLen = .ok target) (whole : (kv.seqLen : Int) ≤ target) :
    ∀ compactor ∈ [fullKV, recentWindow, randomSubset rng, heavyHitter np recentFrac,
      snapKVLite np window recentFrac,
      attentionMatching np config],
        DecodesAlike b kv (compactor.compact kv budget (some refs)) := by
  have shaped : CacheShaped kv := by
    refine ⟨slots, fun l inside => ?_⟩
    obtain ⟨layer, there⟩ : ∃ layer, kv.layers[l]? = some layer :=
      ⟨_, List.getElem?_eq_getElem
        (cache.layers_length.symm ▸ spec ▸ inside : l < kv.layers.length)⟩
    rw [spec]
    exact ⟨layer, there, cache.shape layer (List.mem_of_getElem? there)⟩
  simp only [List.forall_mem_cons, List.not_mem_nil, false_implies, implies_true, and_true]
  refine ⟨?_, ?_, ?_, ?_, ?_, ?_⟩
  · exact keepAll_decodesAlike spec cache _ rfl (fullKV_whole shaped budget _)
  · exact keepAll_decodesAlike spec cache _ rfl (recentWindow_whole shaped given whole _)
  · exact keepAll_decodesAlike spec cache _ rfl
      (randomSubset_whole shaped given whole draws hashed _)
  · exact keepAll_decodesAlike spec cache _ rfl
      (heavyHitter_whole shaped given whole queries argsorts frac)
  · exact keepAll_decodesAlike spec cache _ rfl
      (snapKVLite_whole shaped given whole queries argsorts frac window)
  · exact keepAll_decodesAlike spec cache _ rfl
      (attentionMatching_whole shaped given whole queries config)

end Keep

section Tiny

/-- One head, whose queries are ones and whose keys and values are the tokens. -/
noncomputable def tinyLlama : Llama ℝ ℝ ℝ where
  exp := Real.exp
  scaling := 1
  embedTokens t := t
  project _ _ hidden :=
    { query := NDArray.full [1, hidden.length, 1] 1
      key := NDArray.ofFn [1, hidden.length, 1] fun ix => hidden.getD (ix.getD 1 0) 0
      value := NDArray.ofFn [1, hidden.length, 1] fun ix => hidden.getD (ix.getD 1 0) 0 }
  finish _ hidden attended := (List.range hidden.length).map fun i => attended.getD [0, i, 0] 0
  lmHead := id

noncomputable def tinyBackend : HFBackend ℝ ℝ ℝ where
  model := { spec := tinySpec, kvForward := fun _ _ _ => [] }
  fromFloat := id
  fromBits word := word.toNat
  toFloat := id
  value bits := bits.toNat
  negInf := -1000
  decode := tinyLlama.decode tinySpec.groupSize id
  step _ _ _ := ([], [])
  logProb logit t := logit - t
  rephaseCosSin _ := ([1], [0])

theorem cacheOf_tinyCache : CacheOf tinyBackend.model.spec tinyCache where
  layers_length := rfl
  shape l member := by
    rw [List.mem_singleton.1 member]
    exact ⟨rfl, rfl⟩
  layer := by decide
  head := by decide
  channel := by decide
  groups := by decide

theorem keepAll_decodes_alike_tiny :
    tinyBackend.contextScore
      (.compact (keepAll tinyCache "all" (Dict.ofList [("token_ids", .list [.int 7, .int 9])]))) []
      [4] =
      tinyBackend.score (.float32 tinyCache) [] [4] :=
  (keepAll_decodes_alike (b := tinyBackend) rfl cacheOf_tinyCache (by decide) "all" rfl []).1 [4]

theorem whole_budget_decodes_alike_tiny :
    DecodesAlike tinyBackend tinyCache
      (recentWindow.compact tinyCache { tokensPerHead := some 5 } (some tinyRefs)) :=
  whole_budget_decodes_alike rfl cacheOf_tinyCache realNumerics_lawful.argsorts firstTokens_draws
    (by decide) rfl tinyRefs_shaped le_rfl 32
    plainMatching (rfl : CompactionBudget.targetT { tokensPerHead := some 5 } tinyCache.seqLen =
      .ok 5) (by decide) recentWindow (by simp)

end Tiny

end Dexa.Engine
