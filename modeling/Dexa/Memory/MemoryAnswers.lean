import Dexa.Engine.LosslessCompaction
import Dexa.Memory.Rebuilding

/-! # What a working memory answers (`query` of `dexa/memory/working_memory.py`)

A query attends, on each head, to what the head kept of the compacted prefix with its biases, then
to the recent window as it is, then to the tokens of the prompt, whose positions follow the whole
text.  Nothing else is seen: neither the padding of heads that keep less, nor where the cache was
put together.
-/

namespace Dexa.Memory.WorkingMemory

open Dexa.Core Dexa.Lib Dexa.Compaction Dexa.Engine

variable {α τ H Λ : Type} [Inhabited α] [Field α] [LinearOrder α]

def hostContext : ContextCache α → HostContext α
  | .raw kv => .raw (.float32 kv)
  | .compact cache => .compact cache

/-- `query`: the log-probabilities of the targets, or the tokens generated. -/
def query (backend : ModelBackend α) (b : HFBackend α τ Λ) (s : WorkingMemory α)
    (promptIds : List Int) (maxNewTokens : Nat)
    (pick : Nat → Λ → Int) (scoreTargets : Option (List Int)) : Option (List α ⊕ List Int) := do
  let ctx ← (s.combined backend).toOption
  match scoreTargets with
  | some targets => return .inl (← b.contextScore (hostContext ctx) promptIds targets)
  | none => return .inr (← b.contextGenerate (hostContext ctx) promptIds maxNewTokens pick)

section Meaning

variable [Inhabited τ] [Field τ] (cast : α → τ) (scaling : τ) (d : Nat) (query : Nat → τ)

/-- The tokens of a raw layer, as a query sees them. -/
def rawKeys (layer : LayerKV α) (h : Nat) : List (Attention.Key τ) :=
  (List.range (layer.key.shape.getD 1 0)).map fun j =>
    { score := dotScore scaling d query fun c => cast (layer.key.getD [h, j, c] 0)
      value := fun c => cast (layer.value.getD [h, j, c] 0) }

/-- What head `h` of layer `l` remembers. -/
def memoryKeys (s : WorkingMemory α) (l h : Nat) : List (Attention.Key τ) :=
  ((do (← (← s.compactMem).layers[l]?).head? h).map (keptKeys cast scaling d query)).getD [] ++
    ((do (← s.recentRaw).layers[l]?).map fun layer => rawKeys cast scaling d query layer h).getD []

end Meaning

variable [Inhabited τ] [Field τ]

def memoryAttention (exp : τ → τ) (cast : α → τ) (scaling hidden : τ) (groups : Nat)
    (s : WorkingMemory α) (l : Nat)
    (new : Projected τ) : NDArray τ :=
  NDArray.ofFn new.query.shape fun
    | [h, i, c] =>
      let d := new.query.shape.getD 2 0
      let query := fun c => new.query.getD [h, i, c] 0
      Attention.answer exp (memoryKeys cast scaling d query s l (h / groups) ++
        newKeys scaling hidden d query new.key new.value (h / groups) i) c
    | _ => 0

/-- The logits of a prompt after what is remembered. -/
def answers (llama : Llama τ H Λ) (b : HFBackend α τ Λ) (s : WorkingMemory α)
    (inputIds : List Int) : List Λ :=
  llama.pass ((List.range b.model.spec.nLayers).map
      (memoryAttention llama.exp b.fromFloat llama.scaling
        (b.fromFloat b.negInf) b.model.spec.groupSize s))
    (arange s.total (s.total + inputIds.length)) inputIds

section Heads

variable {cast : α → τ} {scaling : τ} {d : Nat}

omit [Field α] [LinearOrder α] in
/-- The rows of a head after those that it kept. -/
theorem concatenate_select0 {a b : NDArray α} {t n heads h : Nat} (kept : a.shape = [t, d])
    (raw : b.shape = [heads, n, d])
    (inside : h < heads) : ∃ c, (do concatenate a (← headOf b h)) = .ok c ∧ c.shape = [t + n, d] ∧
      ∀ j x, c.get? [j, x] = if j < t then a.get? [j, x] else b.get? [h, j - t, x] := by
  have rows := NDArray.shape_select0 h raw
  obtain ⟨c, joined, -⟩ := NDArray.concat_eq_some kept rows
  obtain ⟨shape, cells⟩ := NDArray.get?_of_concat kept rows joined
  refine ⟨c, ?_, shape, fun j x => ?_⟩
  · simp only [headOf, raw, List.headD_cons, if_pos inside, bind, Except.bind, concatenate, joined]
  · rw [cells, NDArray.get?_select0 raw inside]

variable (scaling) in
omit [LinearOrder α] [Inhabited τ] in
/-- A head of the fused cache holds what was kept, and then the recent window. -/
theorem fusedHead_keys {cl : CompactLayer α} {rl : LayerKV α} {rr : KVCache α} {heads t h : Nat}
    {head : CompactHead α}
    (zero : cast 0 = 0) (found : cl.head? h = some head) (headShaped : HeadShaped d t head)
    (inside : h < heads)
    (keyShape : rl.key.shape = [heads, rr.seqLen, d])
    (valueShape : rl.value.shape = [heads, rr.seqLen, d]) :
    ∃ fused, fusedHead cl rl rr h = .ok fused ∧ HeadShaped d (t + rr.seqLen) fused ∧
      ∀ query, keptKeys cast scaling d query fused = keptKeys cast scaling d query head ++
        rawKeys cast scaling d query rl h := by
  obtain ⟨key, value, biases, positions⟩ := CompactLayer.head?_eq_some.1 found
  obtain ⟨keys, keyDone, keysShape, keyCells⟩ := concatenate_select0 headShaped.key keyShape inside
  obtain ⟨values, valueDone, valuesShape, valueCells⟩ :=
    concatenate_select0 headShaped.value valueShape inside
  obtain ⟨keyRow, keyRead, keyDone⟩ := Fallible.ok_of_bind keyDone
  obtain ⟨valueRow, valueRead, valueDone⟩ := Fallible.ok_of_bind valueDone
  refine ⟨⟨keys, values, head.biases ++ List.replicate rr.seqLen 0, head.positions ++ rr.positions⟩,
    ?_, ?_, fun query => ?_⟩
  · simp only [fusedHead, index_ok key, index_ok value, index_ok biases, index_ok positions,
      keyRead, keyDone, valueRead, valueDone, bind,
      Except.bind, pure, Except.pure]
  · exact ⟨keysShape, valuesShape, by simp [headShaped.biases]⟩
  · have width : rl.key.shape.getD 1 0 = rr.seqLen := by
      rw [keyShape]
      rfl
    simp only [keptKeys, rawKeys, List.length_append, List.length_replicate, headShaped.biases,
      List.range_add, List.map_append, List.map_map, width]
    congr 1
    · refine List.map_congr_left fun j member => ?_
      have early : j < t := List.mem_range.1 member
      simp only [NDArray.getD, keyCells, valueCells, if_pos early,
        List.getD_append _ _ _ _ (headShaped.biases ▸ early)]
    · refine List.map_congr_left fun j member => ?_
      have late : ¬ t + j < t := by omega
      have bias : (head.biases ++ List.replicate rr.seqLen 0).getD (t + j) 0 = 0 := by
        rw [List.getD_append_right _ _ _ _ (headShaped.biases ▸ Nat.le_add_right t j),
          headShaped.biases, Nat.add_sub_cancel_left]
        exact List.getD_replicate _ (List.mem_range.1 member)
      simp only [Function.comp_apply, NDArray.getD, keyCells, valueCells, if_neg late,
        Nat.add_sub_cancel_left, bias, zero, add_zero]

omit [LinearOrder α] [Inhabited τ] in
/-- A head kept whole, with biases that are 0. -/
theorem wholeHead_keys {kv : KVCache α} {l : LayerKV α} {heads h : Nat} (zero : cast 0 = 0)
    (inside : h < heads)
    (keyShape : l.key.shape = [heads, kv.seqLen, d])
    (valueShape : l.value.shape = [heads, kv.seqLen, d]) (query : Nat → τ) :
    keptKeys cast scaling d query (wholeHead kv l h) = rawKeys cast scaling d query l h := by
  have width : l.key.shape.getD 1 0 = kv.seqLen := by
    rw [keyShape]
    rfl
  simp only [keptKeys, rawKeys, wholeHead, List.length_replicate, width]
  refine List.map_congr_left fun j member => ?_
  rw [List.getD_replicate _ (List.mem_range.1 member), zero, add_zero]
  simp only [NDArray.getD, NDArray.get?_select0 keyShape inside,
    NDArray.get?_select0 valueShape inside]

end Heads

section Layers

variable {llama : Llama τ H Λ} {b : HFBackend α τ Λ} {s : WorkingMemory α}

omit [Inhabited α] [LinearOrder α] [Inhabited τ] in
/-- Ragged decoding, layer by layer. -/
theorem decodeRagged_eq_pass {spec : ModelSpec} (modelShaped : llama.Shaped spec) {cast : α → τ}
    {negInf : α} {cache : CompactCache α}
    (attend : Nat → Projected τ → NDArray τ) (inputIds : List Int)
    (each : ∀ l < spec.nLayers, ∃ layer, cache.layers[l]? = some layer ∧ ∀ new,
      ProjectedShape spec inputIds.length new →
      raggedAttention llama.exp cast llama.scaling (cast negInf) spec.groupSize layer new =
        attend l new) :
    llama.decodeRagged spec cast negInf cache inputIds =
      llama.pass ((List.range spec.nLayers).map attend)
        (arange cache.logicalLength (cache.logicalLength + inputIds.length)) inputIds := by
  have count : (cache.layers.take spec.nLayers).length = spec.nLayers := by
    rw [List.length_take, Nat.min_eq_left]
    by_contra short
    obtain ⟨layer, there, -⟩ := each cache.layers.length (by omega)
    rw [List.getElem?_eq_none le_rfl] at there
    cases there
  apply llama.pass_congr modelShaped
  rw [List.forall₂_map_left_iff, List.forall₂_map_right_iff]
  refine List.forall₂_iff_get.2 ⟨by rw [count, List.length_range],
    fun l left right new projected => ?_⟩
  rw [count] at left
  obtain ⟨layer, there, same⟩ := each l left
  have here : (cache.layers.take spec.nLayers).get ⟨l, count.symm ▸ left⟩ = layer := by
    simpa using (List.getElem?_eq_some_iff.1 there).2
  rw [here, same new projected]
  simp

omit [Inhabited α] [LinearOrder α] [Inhabited τ] in
/-- A layer whose heads hold what the memory does. -/
theorem raggedAttention_memory
    (grouped : b.model.spec.nQHeads = b.model.spec.nKvHeads * b.model.spec.groupSize) {l : Nat}
    {layer : CompactLayer α} {qLen : Nat} {new : Projected τ}
    (projected : ProjectedShape b.model.spec qLen new)
    (holds : ∀ h < b.model.spec.nKvHeads, ∀ query,
      ((layer.head? h).map
      (keptKeys b.fromFloat llama.scaling b.model.spec.headDim query)).getD [] =
      memoryKeys b.fromFloat llama.scaling b.model.spec.headDim query s l h) :
    raggedAttention llama.exp b.fromFloat llama.scaling
      (b.fromFloat b.negInf) b.model.spec.groupSize layer new =
      memoryAttention llama.exp b.fromFloat llama.scaling
        (b.fromFloat b.negInf) b.model.spec.groupSize s l new := by
  apply NDArray.ofFn_congr
  intro ix inside
  rw [projected.query] at inside
  obtain ⟨h, i, c, rfl, queryHead, -, -⟩ := NDArray.inBounds_three inside
  rw [grouped] at queryHead
  have kvHead : h / b.model.spec.groupSize < b.model.spec.nKvHeads :=
    Nat.div_lt_of_lt_mul (by rwa [Nat.mul_comm])
  simp only [projected.query, List.getD_cons_succ, List.getD_cons_zero, holds _ kvHead]

omit [LinearOrder α] in
/-- A compact cache whose heads hold what the memory does decodes as the memory is meant to
    answer. -/
theorem contextLogits_memory (runs : b.decode = llama.decode b.model.spec.groupSize b.fromFloat)
    (modelShaped : llama.Shaped b.model.spec)
    (hides : b.Hides llama.exp)
    (grouped : b.model.spec.nQHeads = b.model.spec.nKvHeads * b.model.spec.groupSize)
    {cache : CompactCache α} (logical : cache.logicalLength = s.total)
    (holds : ∀ l < b.model.spec.nLayers, ∃ layer, cache.layers[l]? = some layer ∧
      ∀ h < b.model.spec.nKvHeads, ∃ head t,
      layer.head? h = some head ∧ HeadShaped b.model.spec.headDim t head ∧ ∀ query,
        keptKeys b.fromFloat llama.scaling b.model.spec.headDim query head =
          memoryKeys b.fromFloat llama.scaling b.model.spec.headDim query s l h)
            (inputIds : List Int) :
    b.contextLogits (.compact cache) inputIds = some (answers llama b s inputIds) := by
  have shaped : CompactShaped b.model.spec cache := by
    intro l inside
    obtain ⟨layer, there, heads⟩ := holds l inside
    refine ⟨layer, there, fun h inside => ?_⟩
    obtain ⟨head, t, found, headShaped, -⟩ := heads h inside
    exact ⟨head, found, headShaped.biases.symm ▸ headShaped⟩
  rw [contextLogits_ragged hides grouped shaped runs modelShaped,
    decodeRagged_eq_pass modelShaped (memoryAttention llama.exp b.fromFloat
    llama.scaling (b.fromFloat b.negInf) b.model.spec.groupSize s), logical, answers]
  intro l inside
  obtain ⟨layer, there, heads⟩ := holds l inside
  refine ⟨layer, there, fun new projected => raggedAttention_memory grouped projected
    fun h inside query => ?_⟩
  obtain ⟨head, t, found, -, keys⟩ := heads h inside
  rw [found, Option.map_some, Option.getD_some, keys]

end Layers

/-! ## Scoring and generating -/

/-- Each token is picked from the logits after the prompt and the tokens before it. -/
def Continues (answers : List Int → List Λ) (prompt : List Int) (pick : Nat → Λ → Int)
    (ids : List Int) : Prop :=
  ∀ i (inside : i < ids.length), ∃ logit, (answers (prompt ++ ids.take i)).getLast? = some logit ∧
    ids[i] = pick i logit

section Generating

variable {b : HFBackend α τ Λ} {context : HostContext α} {answers : List Int → List Λ}
  (logits : ∀ inputIds, b.contextLogits context inputIds = some (answers inputIds))
include logits

omit [LinearOrder α] [Inhabited τ] [Field τ] in
theorem contextScore_answers {prompt : List Int} (prompted : prompt ≠ []) (targets : List Int) :
    b.contextScore context prompt targets =
      some (List.zipWith b.logProb
        (((answers (prompt ++ targets)).drop (prompt.length - 1)).take targets.length) targets) := by
  unfold HFBackend.contextScore
  split
  · rename_i none
    simp [none]
  · simp [logits]

omit [LinearOrder α] [Inhabited τ] [Field τ] in
theorem contextGenerateLoop_answers (total : ∀ inputIds,
    (answers inputIds).length = inputIds.length) {prompt : List Int}
    (pick : Nat → Λ → Int) (remaining : Nat) {generated : List Int} {last : Λ}
    (continues : Continues answers prompt pick generated)
    (next : (answers (prompt ++ generated)).getLast? = some last) :
    ∃ ids, b.contextGenerateLoop context prompt pick remaining generated last = some ids ∧
      ids.length = generated.length + remaining ∧
      Continues answers prompt pick ids := by
  induction remaining generalizing generated last with
  | zero => exact ⟨generated, rfl, rfl, continues⟩
  | succ remaining ih =>
    have longer : Continues answers prompt pick (generated ++ [pick generated.length last]) := by
      intro i inside
      rw [List.length_append, List.length_singleton] at inside
      rcases Nat.lt_succ_iff_lt_or_eq.1 inside with before | rfl
      · rw [List.take_append_of_le_length before.le, List.getElem_append_left before]
        exact continues i before
      · exact ⟨last, by simpa using next, by simp⟩
    unfold HFBackend.contextGenerateLoop
    by_cases done : remaining = 0
    · refine ⟨generated ++ [pick generated.length last], ?_, ?_, longer⟩
      · simp [done]
      · simp [done]
    · have some : (answers (prompt ++ (generated ++ [pick generated.length last]))) ≠ [] := by
        rw [← List.length_pos_iff, total]
        simp
      obtain ⟨ids, generates, length, continues'⟩ := ih longer (List.getLast?_eq_some_getLast some)
      refine ⟨ids, ?_, ?_, continues'⟩
      · simp only [if_neg done, logits, List.getLast?_eq_some_getLast some, Option.bind_eq_bind,
          Option.bind_some]
        exact generates
      · rw [length, List.length_append, List.length_singleton]
        omega

omit [LinearOrder α] [Inhabited τ] [Field τ] in
theorem contextGenerate_answers (total : ∀ inputIds, (answers inputIds).length = inputIds.length)
    {prompt : List Int} (prompted : prompt ≠ [])
    (maxNewTokens : Nat) (pick : Nat → Λ → Int) :
    ∃ ids, b.contextGenerate context prompt maxNewTokens pick = some ids ∧
      ids.length = maxNewTokens ∧
      Continues answers prompt pick ids := by
  have some : answers (prompt ++ []) ≠ [] := by
    rw [← List.length_pos_iff, total, List.append_nil]
    exact List.length_pos_iff.2 prompted
  have none : Continues answers prompt pick [] := fun i inside => absurd inside (Nat.not_lt_zero i)
  obtain ⟨ids, generates, length, continues⟩ :=
    contextGenerateLoop_answers logits total pick maxNewTokens none
      (List.getLast?_eq_some_getLast some)
  refine ⟨ids, ?_, length.trans (Nat.zero_add _), continues⟩
  rw [List.append_nil] at some
  simp only [List.append_nil] at generates
  simp only [HFBackend.contextGenerate, if_pos prompted, logits, Option.bind_eq_bind,
    Option.bind_some, List.getLast?_eq_some_getLast some,
    generates]

end Generating

omit [Inhabited α] [LinearOrder α] [Inhabited τ] in
theorem answers_length {llama : Llama τ H Λ} {b : HFBackend α τ Λ}
    (modelShaped : llama.Shaped b.model.spec) (s : WorkingMemory α)
    (inputIds : List Int) : (answers llama b s inputIds).length = inputIds.length :=
  llama.length_pass modelShaped _ _ _

/-! ## What is put together -/

section Combined

variable {backend : ModelBackend α} {compactor : Compactor α} {llama : Llama τ H Λ}
  {b : HFBackend α τ Λ} {s : WorkingMemory α}
  (shaped : Shaped backend) (same : backend.spec = b.model.spec)
  (runs : b.decode = llama.decode b.model.spec.groupSize b.fromFloat)
  (modelShaped : llama.Shaped b.model.spec)
  (hides : b.Hides llama.exp)
  (grouped : b.model.spec.nQHeads = b.model.spec.nKvHeads * b.model.spec.groupSize)
  (channel : 0 < b.model.spec.headDim) (compacts : Compacts compactor backend)

section Cases

variable (consistent : Consistent backend s)
include shaped same runs modelShaped hides grouped consistent

include channel in
omit [LinearOrder α] in
/-- Before the first compaction: the text as it is. -/
theorem raw_answers {kv : KVCache α} (uncompacted : s.compactMem = none)
    (recent : s.recentRaw = some kv) (inputIds : List Int) :
    b.contextLogits (.raw (.float32 kv)) inputIds = some (answers llama b s inputIds) := by
  obtain ⟨rfl, -, positions⟩ := recentOf_positions shaped (consistent.recent.symm.trans recent)
  have seqLen := shaped.seqLen (s.allTokens.drop s.compactEnd) s.compactEnd
  have shape := shaped.layer_shape (s.allTokens.drop s.compactEnd) s.compactEnd
  have layers := shaped.layers_length (s.allTokens.drop s.compactEnd) s.compactEnd
  have spec := (shaped.spec (s.allTokens.drop s.compactEnd) s.compactEnd).trans same
  have layer := shaped.layer
  have head := shaped.head
  have zero := consistent.absent.1 uncompacted
  rw [same] at shape layers layer head
  rw [← seqLen] at shape
  have cache :
    CacheOf b.model.spec (backend.prefill (s.allTokens.drop s.compactEnd) s.compactEnd) :=
    ⟨layers, shape, layer, head, channel, grouped.symm⟩
  have logical : (backend.prefill (s.allTokens.drop s.compactEnd) s.compactEnd).seqLen =
    s.total := by
    rw [seqLen, zero, List.drop_zero, consistent.total]
  rw [← contextLogits_keepAll spec cache "full_kv" Dict.empty]
  refine contextLogits_memory runs modelShaped hides grouped logical (fun l inside => ?_) inputIds
  have there := List.getElem?_eq_getElem (layers.symm ▸ inside)
  obtain ⟨keyShape, valueShape⟩ := shape _ (List.mem_of_getElem? there)
  let whole := backend.prefill (s.allTokens.drop s.compactEnd) s.compactEnd
  refine ⟨wholeLayer whole whole.layers[l], ?_,
    fun h inside' => ⟨wholeHead whole whole.layers[l] h, whole.seqLen,
    wholeLayer_head (b := b) spec inside', ⟨?_, ?_, List.length_replicate⟩, fun query => ?_⟩⟩
  · rw [keepAll, List.getElem?_map, List.getElem?_take_of_lt (spec ▸ inside), there,
      Option.map_some]
  · exact NDArray.shape_select0 h keyShape
  · exact NDArray.shape_select0 h valueShape
  · have nothing :
      ((do (← (← s.compactMem).layers[l]?).head? h).map
      (keptKeys b.fromFloat llama.scaling b.model.spec.headDim query)).getD [] = [] := by
      simp [uncompacted]
    have window : (do (← s.recentRaw).layers[l]?) = some whole.layers[l] := by
      rw [recent]
      exact there
    rw [memoryKeys, nothing, window, List.nil_append,
      wholeHead_keys hides.zero inside' keyShape valueShape, Option.map_some, Option.getD_some]

omit [LinearOrder α] in
/-- With nothing recent: what was compacted. -/
theorem compact_answers {mem : CompactCache α} (held : s.compactMem = some mem)
    (drained : s.recentRaw = none) (inputIds : List Int) :
    b.contextLogits (.compact mem) inputIds = some (answers llama b s inputIds) := by
  obtain ⟨logical, fits⟩ := consistent.compact mem held
  have raw := consistent.nRecent shaped
  have inText := consistent.end_le
  have all : s.compactEnd = s.total := by
    simp only [WorkingMemory.nRecent, drained] at raw
    omega
  refine contextLogits_memory runs modelShaped hides grouped (logical.trans all)
    (fun l inside => ?_) inputIds
  rw [← same] at inside ⊢
  obtain ⟨layer, _, there, -⟩ := fits l inside 0 shaped.head
  refine ⟨layer, there, fun h inside' => ?_⟩
  obtain ⟨layer', head, there', found, t, -, headFits⟩ := fits l inside h inside'
  obtain rfl := Option.some.inj (there.symm.trans there')
  refine ⟨head, t, found, ⟨headFits.key, headFits.value, headFits.biases⟩, fun query => ?_⟩
  simp [memoryKeys, held, drained, there, found]

omit [LinearOrder α] in
/-- The fused cache. -/
theorem fused_answers {mem : CompactCache α} {rr : KVCache α} (held : s.compactMem = some mem)
    (recent : s.recentRaw = some rr) :
    ∃ cache, s.combined backend = .ok (.compact cache) ∧ ∀ inputIds,
      b.contextLogits (.compact cache) inputIds =
      some (answers llama b s inputIds) := by
  obtain ⟨logical, fits⟩ := consistent.compact mem held
  obtain ⟨rfl, inside, -⟩ := recentOf_positions shaped (consistent.recent.symm.trans recent)
  have seqLen := shaped.seqLen (s.allTokens.drop s.compactEnd) s.compactEnd
  have window : (backend.prefill (s.allTokens.drop s.compactEnd) s.compactEnd).seqLen ≠ 0 := by
    rw [seqLen, List.length_drop]
    omega
  have layers := shaped.layers_length (s.allTokens.drop s.compactEnd) s.compactEnd
  have shape := shaped.layer_shape (s.allTokens.drop s.compactEnd) s.compactEnd
  rw [← seqLen] at shape
  have each : ∀ l ∈ List.range backend.spec.nLayers, ∃ layer,
      fusedLayer backend mem (backend.prefill (s.allTokens.drop s.compactEnd) s.compactEnd) l =
        .ok layer ∧
      ∀ h < backend.spec.nKvHeads, ∃ head t, layer.head? h = some head ∧
        HeadShaped backend.spec.headDim t head ∧ ∀ query,
        keptKeys b.fromFloat llama.scaling backend.spec.headDim query head =
          memoryKeys b.fromFloat llama.scaling backend.spec.headDim query s l h := by
    intro l member
    have below := List.mem_range.1 member
    obtain ⟨layer, _, there, -⟩ := fits l below 0 shaped.head
    have raw := List.getElem?_eq_getElem (layers.symm ▸ below)
    obtain ⟨keyShape, valueShape⟩ := shape _ (List.mem_of_getElem? raw)
    have heads : ∀ h ∈ List.range backend.spec.nKvHeads, ∃ fused,
        fusedHead layer (backend.prefill (s.allTokens.drop s.compactEnd) s.compactEnd).layers[l]
          (backend.prefill (s.allTokens.drop s.compactEnd) s.compactEnd) h = .ok fused ∧
            ∃ t, HeadShaped backend.spec.headDim t fused ∧ ∀ query,
            keptKeys b.fromFloat llama.scaling backend.spec.headDim query fused =
              memoryKeys b.fromFloat llama.scaling backend.spec.headDim query s l h := by
      intro h member'
      have below' := List.mem_range.1 member'
      obtain ⟨layer', head, there', found, t, -, headFits⟩ := fits l below h below'
      obtain rfl := Option.some.inj (there.symm.trans there')
      -- what a query finds in a fused head: the compact memory's keys, and the raw ones behind them
      obtain ⟨fused, done, headShaped, keys⟩ := fusedHead_keys llama.scaling hides.zero found
        ⟨headFits.key, headFits.value, headFits.biases⟩ below' keyShape valueShape
      refine ⟨fused, done, _, headShaped, fun query => ?_⟩
      simp [keys, memoryKeys, held, recent, there, found, raw]
    obtain ⟨made, done, related⟩ := Fallible.mapM_ok heads
    refine ⟨.ofHeads made, ?_, fun h inside' => ?_⟩
    · simp only [fusedLayer, index_ok there, index_ok raw, done, bind, Except.bind,
        pure, Except.pure]
    · obtain ⟨fused, found, t, headShaped, keys⟩ :=
        forall₂_getElem? related (List.getElem?_range inside')
      exact ⟨fused, t, by rw [CompactLayer.head?_ofHeads, found], headShaped, keys⟩
  obtain ⟨made, done, related⟩ := Fallible.mapM_ok each
  refine ⟨{ spec := backend.spec, layers := made, logicalLength := s.total, method := "working_memory",
            metadata := Dict.ofList [("compact_end", .int s.compactEnd)] }, ?_, fun inputIds => ?_⟩
  · simp only [combined, held, recent, if_neg window, done, bind, Except.bind, pure, Except.pure]
  · refine contextLogits_memory runs modelShaped hides grouped rfl (fun l inside => ?_) inputIds
    rw [← same] at inside ⊢
    obtain ⟨layer, there, heads⟩ := forall₂_getElem? related (List.getElem?_range inside)
    exact ⟨layer, there, heads⟩

end Cases

include shaped same runs modelShaped hides grouped channel

omit [LinearOrder α] in
/-- What is decoded over is what is remembered. -/
theorem combined_answers (consistent : Consistent backend s) (nonempty : s.allTokens ≠ []) :
    ∃ ctx, s.combined backend = .ok ctx ∧ ∀ inputIds, b.contextLogits (hostContext ctx) inputIds =
      some (answers llama b s inputIds) := by
  cases held : s.compactMem with
  | none =>
    have uncompacted := consistent.absent.1 held
    have raw : s.recentRaw = some (backend.prefill s.allTokens 0) := by
      rw [consistent.recent, recentOf, uncompacted, List.drop_zero, if_neg nonempty]
    refine ⟨.raw (backend.prefill s.allTokens 0), ?_,
      raw_answers shaped same runs modelShaped hides grouped channel consistent held raw⟩
    simp only [combined, held, raw, pure, Except.pure]
  | some mem =>
    cases recent : s.recentRaw with
    | none =>
      refine ⟨.compact mem, ?_,
        compact_answers shaped same runs modelShaped hides grouped consistent held recent⟩
      simp only [combined, held, recent, pure, Except.pure]
    | some rr =>
      obtain ⟨cache, made, answered⟩ :=
        fused_answers shaped same runs modelShaped hides grouped consistent held recent
      exact ⟨.compact cache, made, answered⟩

include compacts in
/-- After any appends, a query scores its targets, and generates, by what is remembered. -/
theorem workingMemory_answers {budget keep : Int} {strategy : String} {perHead : Int}
    {start : WorkingMemory α}
    (accepted : new budget keep strategy perHead = .ok start) (calls : List (List Int))
    (nonempty : calls.flatten ≠ [])
    (prompt : List Int) (prompted : prompt ≠ []) (maxNewTokens : Nat) (pick : Nat → Λ → Int) :
    ∃ s, (∀ bound, 1 ≤ bound → appendAll backend compactor bound start calls = .ok s) ∧
      (∀ targets, s.query backend b prompt maxNewTokens pick (some targets) =
        some (.inl (List.zipWith b.logProb
        (((answers llama b s (prompt ++ targets)).drop
          (prompt.length - 1)).take targets.length) targets))) ∧
      ∃ ids, s.query backend b prompt maxNewTokens pick none = some (.inr ids) ∧
        ids.length = maxNewTokens ∧
        Continues (answers llama b s) prompt pick ids := by
  obtain ⟨fresh, within, none, -⟩ := new_ok accepted backend
  obtain ⟨s, ran, consistent, text, -⟩ := appendAll_ok shaped compacts fresh within calls
  rw [none, List.nil_append] at text
  obtain ⟨ctx, combined, logits⟩ :=
    combined_answers shaped same runs modelShaped hides grouped channel consistent (text ▸ nonempty)
  refine ⟨s, ran, fun targets => ?_, ?_⟩
  · simp only [query, combined, Except.toOption, contextScore_answers logits prompted,
      Option.bind_eq_bind, Option.bind_some, pure]
  · obtain ⟨ids, generated, length, continues⟩ :=
      contextGenerate_answers logits (answers_length modelShaped s) prompted maxNewTokens pick
    refine ⟨ids, ?_, length, continues⟩
    simp only [query, combined, Except.toOption, generated, Option.bind_eq_bind, Option.bind_some,
      pure]

end Combined

section Even

/-- The keys are ones and the values the tokens. -/
def evenMemory : ModelBackend ℚ where
  spec := twoHeads
  prefill tokens offset :=
    { spec := twoHeads
      layers :=
        [⟨NDArray.full [2, tokens.length, 1] 1, NDArray.ofFn [2, tokens.length, 1]
          fun ix => tokens.getD (ix.getD 1 0) 0⟩]
      positions := arange offset (offset + tokens.length)
      tokenIds := some tokens }
  referenceQueries _ _ _ := { spec := twoHeads, layers := [] }

theorem evenMemory_shaped : Shaped evenMemory where
  layer := by decide
  head := by decide
  spec _ _ := rfl
  positions _ _ := rfl
  layers_length _ _ := rfl
  layer_shape tokens offset l member := by
    rw [List.mem_singleton.1 member]
    exact ⟨rfl, rfl⟩

theorem workingMemory_answers_three :
    ∃ s : WorkingMemory ℚ,
      (∀ bound, 1 ≤ bound → appendAll evenMemory recentWindow bound
        { config := { budgetTokens := 3, keepRecentTokens := 1, refStrategy := "repeat_prefill", refPerHead := 128,
                      fits := by decide } } [[1, 2], [], [3, 4, 5]] = .ok s) ∧
      s.query evenMemory evenBackend [9] 2 (fun _ logit => logit.num) (some [4]) =
        some (.inl
          (List.zipWith evenBackend.logProb
          (((answers evenLlama evenBackend s [9, 4]).drop 0).take 1) [4])) := by
  have accepted : (new 3 1 "repeat_prefill" 128 : Except Raised (WorkingMemory ℚ)) = .ok _ := rfl
  have runs :
    evenBackend.decode = evenLlama.decode evenBackend.model.spec.groupSize evenBackend.fromFloat :=
    rfl
  obtain ⟨s, ran, scored, -⟩ :=
    workingMemory_answers
      (b := evenBackend) evenMemory_shaped rfl runs evenLlama_shaped evenBackend_hides
    (by decide) (by decide)
    (recentWindow_compacts evenMemory_shaped) accepted [[1, 2], [], [3, 4, 5]] (by decide) [9]
    (by decide) 2 fun _ logit => logit.num
  exact ⟨s, ran, scored [4]⟩

end Even

end Dexa.Memory.WorkingMemory
