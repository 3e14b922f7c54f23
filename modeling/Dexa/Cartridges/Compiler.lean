import Dexa.Cartridges.Artifact
import Dexa.Engine.LosslessCompaction

/-! # Compiling a cartridge (`dexa/cartridge/compiler.py`)

The keys and values of some tokens of a corpus are the start; questions that the model answers with
the whole corpus in context are what they are trained on.  The student is a pass of the model over
the trained tensors, under `sdpa` and without biases.  A cartridge that is served goes through the
backend's padded cache and the eager attention with its biases.  Both give the same logits.

The optimizer is a parameter: a step of it takes the items and the tensors.  `none` is an exception.
-/

namespace Dexa.Cartridges

open Dexa.Core Dexa.Lib Dexa.Compaction Dexa.Engine

variable {α τ H Λ σ : Type}

structure TrainingItem (Λ : Type) where
  query : List Int
  /-- the teacher's logits over the answer -/
  teacher : List Λ
  span : Nat

structure Tokenizer where
  /-- `tokenizer(text, add_special_tokens=False)["input_ids"]` -/
  encode : String → List Int
  detokenize : List Int → String

/-- `_QGEN_LEADS`. -/
def qgenLeads : List String :=
  ["Write one specific factual question about this part of the document.",
   "Ask a question about a name, number, or detail mentioned in this part.",
   "What is an important factual question someone might ask about this part?"]

def newlineId (tok : Tokenizer) : Option Int := (tok.encode "\n").getLast?

def truncateAt (ids : List Int) (stop : Option Int) : List Int :=
  match stop with
  | some stop => if stop ∈ ids then ids.take (ids.idxOf stop) else ids
  | none => ids

/-- `l[-n:]`. -/
def lastOf {β : Type} (n : Nat) (l : List β) : List β := if n = 0 then l else l.drop (l.length - n)

section SelfStudy

variable [Inhabited α] [Field α] (b : HFBackend α τ Λ) (tok : Tokenizer) (pick : Nat → Λ → Int)
  (full : KVCache α) (corpusIds : List Int)

/-- One question in `_selfstudy_qa`; no item where the question or the answer is too short. -/
def askAbout (answerLen i st : Nat) : Option (Option (TrainingItem Λ)) := do
  let snippet := tok.detokenize ((corpusIds.drop st).take 16)
  let style := qgenLeads.getD (i % qgenLeads.length) ""
  let lead := tok.encode ("\n\n" ++ style ++ " Part: \"" ++ snippet ++ "\"\nQuestion:")
  let q := truncateAt (← b.generate (.float32 full) lead 20 pick) (newlineId tok)
  if q.length < 2 then return none
  let pre := q ++ tok.encode "\nAnswer:"
  let a := truncateAt (← b.generate (.float32 full) pre answerLen pick) (newlineId tok)
  if a.length < 1 then return none
  let query := pre ++ a
  let logits ← b.decodeLogits (.float32 full) query
  return some { query, teacher := lastOf a.length logits, span := a.length }

/-- `_selfstudy_qa`. -/
def selfstudyQa (n answerLen : Nat) : Option (List (TrainingItem Λ)) := do
  let T := corpusIds.length
  let n := max 1 n
  let chunk := max 16 (T / n)
  let items ← (linspace (T - chunk) n).zipIdx.mapM
    fun (st, i) => askAbout b tok pick full corpusIds answerLen i st
  return items.filterMap id

/-- One round of the loop in `_selfstudy_corpus_span`. -/
def studySpan (spanLen : Nat) (out : List (TrainingItem Λ) × List Nat) (st : Nat) :
    Option (List (TrainingItem Λ) × List Nat) := do
  if st ∈ out.2 then return out
  let qIds := (corpusIds.drop st).take spanLen
  if qIds.length < 2 then return (out.1, st :: out.2)
  let logits ← b.decodeLogits (.float32 full) qIds
  return (out.1 ++ [{ query := qIds, teacher := logits, span := qIds.length }], st :: out.2)

/-- `_selfstudy_corpus_span`. -/
def selfstudyCorpusSpan (n spanLen : Nat) : Option (List (TrainingItem Λ)) := do
  let spanLen := max 8 spanLen
  let out ← (linspace (corpusIds.length - spanLen) (max 1 n)).foldlM
    (studySpan b full corpusIds spanLen) ([], [])
  return out.1

end SelfStudy

/-- A step of the optimizer: its own state and the tensors, after the items. -/
structure Optimizer (σ τ Λ : Type) where
  start : List (LayerKV τ) → σ
  step : List (TrainingItem Λ) → σ × List (LayerKV τ) → σ × List (LayerKV τ)

/-- The training loop. -/
def train (opt : Optimizer σ τ Λ) (items : List (TrainingItem Λ)) (steps : Nat)
    (params : List (LayerKV τ)) : List (LayerKV τ) :=
  ((opt.step items)^[steps] (opt.start params, params)).2

section Compile

variable [Inhabited α] [Field α] [Inhabited τ]

/-- The keys and values of the tokens `idx`, layer by layer. -/
def warmLayers (nLayers : Nat) (full : KVCache α) (idx : List Nat) : Option (List (LayerKV α)) :=
  (List.range nLayers).mapM fun li => do
    let layer ← full.layers[li]?
    return ⟨← layer.key.gatherAxis1 idx, ← layer.value.gatherAxis1 idx⟩

structure CompileOptions where
  t : Nat := 64
  steps : Nat := 120
  lr : FloatText
  nSelfstudy : Nat := 16
  answerLen : Nat := 24
  selfstudy : String := "qa"
  maxCorpusTokens : Option Nat := none

/-- The tokens of the corpus that are compiled. -/
def CompileOptions.corpus (options : CompileOptions) (corpusIds : List Int) : List Int :=
  match options.maxCorpusTokens with
  | some n => if n = 0 then corpusIds else corpusIds.take n
  | none => corpusIds

/-- `meta` of a compiled cartridge. -/
def compiledMeta (options : CompileOptions) (t T items : Nat) (model : String) :
    Dict String MetaValue :=
  Dict.ofList [("t", .int t), ("T", .int T), ("steps", .int options.steps),
    ("lr", .float options.lr), ("n_selfstudy", .int items),
    ("method", .str "cartridge"), ("model", .str model)]

/-- The tensors that training starts from. -/
def warmStart (b : HFBackend α τ Λ) (full : KVCache α) (T t : Nat) : Option (List (LayerKV τ)) := do
  let layers ← warmLayers b.model.spec.nLayers full (linspace (T - 1) t)
  let _ ← NDArray.stack (layers.map (·.key))
  let _ ← NDArray.stack (layers.map (·.value))
  return layers.map (LayerKV.map b.fromFloat)

def selfStudy (b : HFBackend α τ Λ) (tok : Tokenizer) (pick : Nat → Λ → Int) (full : KVCache α)
    (corpusIds : List Int)
    (options : CompileOptions) : Option (List (TrainingItem Λ)) :=
  if options.selfstudy =
    "qa" then selfstudyQa b tok pick full corpusIds options.nSelfstudy options.answerLen
  else if options.selfstudy =
    "corpus_span" then selfstudyCorpusSpan b full corpusIds options.nSelfstudy options.answerLen
  -- "unknown selfstudy"
  else none

/-- `compile`, of a tokenized corpus. -/
def compile (b : HFBackend α τ Λ) (tok : Tokenizer) (pick : Nat → Λ → Int) (opt : Optimizer σ τ Λ)
    (options : CompileOptions)
    (corpusIds : List Int) : Option (Cartridge α) := do
  let corpusIds := options.corpus corpusIds
  let T := corpusIds.length
  let t := min options.t T
  let full := b.prefill corpusIds
  let params ← warmStart b full T t
  let positions ← (linspace (T - 1) t).mapM fun i => full.positions[i]?
  let items ← selfStudy b tok pick full corpusIds options
  -- "self-study produced no training items"
  if items = [] then none
  else
    let trained := train opt items options.steps params
    return { spec := b.model.spec
             keys := ← NDArray.stack (trained.map fun kv => kv.key.map b.toFloat)
             values := ← NDArray.stack (trained.map fun kv => kv.value.map b.toFloat)
             positions, logicalLength := T
             metadata := compiledMeta options t T items.length b.model.spec.name }

end Compile

/-- `_student_logits`: the query over the trained tensors. -/
def studentLogits [Inhabited α] [Field α] [Inhabited τ] [Field τ] (b : HFBackend α τ Λ)
    (llama : Llama τ H Λ)
    (sdpa : NDArray τ → NDArray τ → NDArray τ → NDArray τ → NDArray τ) (t T : Nat)
    (params : List (LayerKV τ)) (qIds : List Int) : List Λ :=
  let mask := (b.attentionMask t qIds.length).map b.fromFloat
  llama.pass (params.map fun kv new => sdpa new.query (cacheUpdate kv.key new.key)
    (cacheUpdate kv.value new.value) mask)
    (arange T (T + qIds.length)) qIds

/-- `sdpa` adds the mask that it is given to the scores. -/
def MaskedSdpa [Inhabited τ] [Field τ] (groups : Nat) (llama : Llama τ H Λ)
    (sdpa : NDArray τ → NDArray τ → NDArray τ → NDArray τ → NDArray τ) :
    Prop :=
  ∀ query key value mask, sdpa query key value mask =
    dexaEagerAttentionForward llama.exp groups query key value (some mask) none llama.scaling

section Served

variable [Inhabited α] [Field α] [Inhabited τ] [Field τ]

/-- A bias of zeros is no bias. -/
theorem cachedAttention_unbiased (llama : Llama τ H Λ) (groups : Nat) (mask : NDArray τ)
    (kv : LayerKV τ) {beta : NDArray τ}
    (unbiased : ∀ h j, beta.getD [h, j] 0 = 0) (new : Projected τ) :
    llama.cachedAttention groups mask kv beta new =
      dexaEagerAttentionForward llama.exp groups new.query (cacheUpdate kv.key new.key)
      (cacheUpdate kv.value new.value) (some mask) none llama.scaling := by
  have full : ∀ rows columns h j, (Llama.betaFull rows columns beta).getD [h, j] 0 = 0 := by
    intro rows columns h j
    simp only [Llama.betaFull, NDArray.getD, NDArray.get?_ofFn]
    split
    · simp only [Option.getD_some, List.getD_cons_succ, List.getD_cons_zero]
      split
      · exact unbiased h j
      · rfl
    · rfl
  simp only [Llama.cachedAttention, dexaEagerAttentionForward, full, Option.elim, add_zero]

/-- The cartridge as a raw cache of its few tokens. -/
def Cartridge.asCache (c : Cartridge α) : KVCache α :=
  { spec := c.spec, layers := (List.range c.spec.nLayers).map fun li => ⟨c.keys.select0 li, c.values.select0 li⟩, positions := c.positions,
    metadata := c.metadata }

/-- Its tensors on the device. -/
def Cartridge.params (b : HFBackend α τ Λ) (c : Cartridge α) : List (LayerKV τ) :=
  c.asCache.layers.map (LayerKV.map b.fromFloat)

/-- A cartridge fits the model and knows where its tokens are. -/
structure Cartridge.Fits (c : Cartridge α) (spec : ModelSpec) (t : Nat) :
    Prop extends c.Holds t where
  spec : c.spec = spec
  positions : c.positions.length = t

section Fits

variable {b : HFBackend α τ Λ} {llama : Llama τ H Λ} {c : Cartridge α} {t : Nat}
  (fits : c.Fits b.model.spec t)
include fits

omit [Inhabited τ] [Field τ] in
theorem Cartridge.Fits.compact_eq :
    c.compact t =
    { keepAll c.asCache "cartridge" c.metadata with logicalLength := c.logicalLength } := by
  have seqLen : c.asCache.seqLen = t := fits.positions
  have head : ∀ li, wholeHead c.asCache ⟨c.keys.select0 li, c.values.select0 li⟩ = c.head t li := by
    intro li
    funext h
    rw [wholeHead, seqLen]
    rfl
  have layers : (c.asCache.layers.take c.asCache.spec.nLayers).map (wholeLayer c.asCache) =
      (List.range c.spec.nLayers).map
        fun li => .ofHeads ((List.range c.spec.nKvHeads).map (c.head t li)) := by
    rw [List.take_of_length_le (by simp [Cartridge.asCache])]
    simp only [Cartridge.asCache, List.map_map, Function.comp_def, wholeLayer] at head ⊢
    simp only [head]
  rw [keepAll, layers]
  rfl

omit [Inhabited τ] [Field τ] [Field α] in
theorem Cartridge.Fits.cacheOf (layer : 0 < b.model.spec.nLayers) (head : 0 < b.model.spec.nKvHeads)
    (channel : 0 < b.model.spec.headDim)
    (groups : b.model.spec.nKvHeads * b.model.spec.groupSize = b.model.spec.nQHeads) :
      CacheOf b.model.spec c.asCache where
  layers_length := by simp [Cartridge.asCache, fits.spec]
  shape l member := by
    obtain ⟨li, -, rfl⟩ := List.mem_map.1 member
    have seqLen : c.asCache.seqLen = t := fits.positions
    rw [seqLen, ← fits.spec]
    exact ⟨NDArray.shape_select0 li fits.keys, NDArray.shape_select0 li fits.values⟩
  layer := layer
  head := head
  channel := channel
  groups := groups

omit [Inhabited τ] [Field τ] in
/-- A cartridge is decoded over as its tensors, without padding. -/
theorem contextLogits_cartridge (cache : CacheOf b.model.spec c.asCache) (qIds : List Int) :
    b.contextLogits (.compact (c.compact t)) qIds =
      some (b.decode (c.params b) (List.replicate (c.params b).length (b.betaRows t t))
      (b.attentionMask t qIds.length)
      (arange c.logicalLength (c.logicalLength + qIds.length)) qIds) := by
  have seqLen : c.asCache.seqLen = t := fits.positions
  have spec : c.asCache.spec = b.model.spec := fits.spec
  have physical : (HostContext.compact (c.compact t)).physicalLen = t := by
    rw [fits.compact_eq]
    exact (physicalLen_keepAll spec cache "cartridge" c.metadata).trans seqLen
  have built : b.buildContext (.compact (c.compact t)) t =
      some ((c.params b).map fun kv => (kv, b.betaRows t t)) := by
    have whole := buildContext_keepAll spec cache "cartridge" c.metadata
    rw [seqLen] at whole
    rw [fits.compact_eq, Cartridge.params, List.map_map]
    exact whole
  have logical : (HostContext.compact (c.compact t)).logicalLen = c.logicalLength := rfl
  simp [HFBackend.contextLogits, physical, built, logical, Function.comp_def]

omit fits in
/-- The student is decoding with biases that are 0. -/
theorem studentLogits_eq_decode {sdpa : NDArray τ → NDArray τ → NDArray τ → NDArray τ → NDArray τ}
    (zero : b.fromFloat 0 = 0)
    (masked : MaskedSdpa b.model.spec.groupSize llama sdpa) (t T : Nat) (params : List (LayerKV τ))
    (qIds : List Int) :
    llama.decode b.model.spec.groupSize b.fromFloat params
      (List.replicate params.length (b.betaRows t t)) (b.attentionMask t qIds.length)
      (arange T (T + qIds.length)) qIds = studentLogits b llama sdpa t T params qIds := by
  have unbiased : ∀ h j, (b.betaRows t t).getD [h, j] 0 = 0 := by
    intro h j
    simp only [HFBackend.betaRows, NDArray.getD, NDArray.get?_ofFn]
    split
    · rename_i inside
      have column : j < t := inside.2.1
      simp [column, zero]
    · rfl
  have attentions :
    List.zipWith
    (llama.cachedAttention b.model.spec.groupSize ((b.attentionMask t qIds.length).map b.fromFloat))
      params (List.replicate params.length (b.betaRows t t)) =
      params.map fun kv new => sdpa new.query (cacheUpdate kv.key new.key)
        (cacheUpdate kv.value new.value)
        ((b.attentionMask t qIds.length).map b.fromFloat) := by
    apply List.ext_getElem (by simp)
    intro li left right
    funext new
    simp only [List.getElem_zipWith, List.getElem_map, List.getElem_replicate,
      cachedAttention_unbiased llama _ _ _ unbiased]
    exact (masked _ _ _ _).symm
  rw [studentLogits, Llama.decode, attentions]

/-- What is served is what was trained. -/
theorem studentLogits_served {sdpa : NDArray τ → NDArray τ → NDArray τ → NDArray τ → NDArray τ}
    (cache : CacheOf b.model.spec c.asCache)
    (zero : b.fromFloat 0 = 0) (runs : b.decode = llama.decode b.model.spec.groupSize b.fromFloat)
    (masked : MaskedSdpa b.model.spec.groupSize llama sdpa) (qIds : List Int) :
    b.contextLogits (.compact (c.compact t)) qIds =
      some (studentLogits b llama sdpa t c.logicalLength (c.params b) qIds) := by
  rw [contextLogits_cartridge fits cache, runs, studentLogits_eq_decode zero masked]

end Fits

end Served

/-! ## The warm start -/

section Warm

theorem pairwise_linspace {last n : Nat} (few : n ≤ last + 1) :
    (linspace last n).Pairwise (· < ·) := by
  rw [linspace, List.pairwise_map]
  apply List.pairwise_lt_range.imp_of_mem
  intro i j _ right before
  have inside := List.mem_range.1 right
  have positive : 0 < n - 1 := by omega
  calc i * last / (n - 1) < (i * last + (n - 1)) / (n - 1) := by rw [Nat.add_div_right _ positive]; exact Nat.lt_succ_self _
    _ ≤ j * last / (n - 1) := by
      apply Nat.div_le_div_right
      calc i * last + (n - 1) ≤ i * last + last := by omega
        _ = (i + 1) * last := by ring
        _ ≤ j * last := Nat.mul_le_mul_right _ before

theorem linspace_all (T : Nat) : linspace (T - 1) T = List.range T := by
  have same : ∀ i ∈ List.range T, i * (T - 1) / (T - 1) = id i := by
    intro i member
    have inside := List.mem_range.1 member
    rcases Nat.eq_zero_or_pos (T - 1) with zero | positive
    · simp only [zero, Nat.mul_zero, Nat.zero_div, id_eq]
      omega
    · exact Nat.mul_div_cancel i positive
  rw [linspace, List.map_congr_left same, List.map_id]

variable [Inhabited α] [Field α]

/-- A layer's part at some tokens. -/
structure LayerAt (spec : ModelSpec) (idx : List Nat) (layer part : LayerKV α) : Prop where
  key : layer.key.gatherAxis1 idx = some part.key
  value : layer.value.gatherAxis1 idx = some part.value
  keyShape : part.key.shape = [spec.nKvHeads, idx.length, spec.headDim]
  valueShape : part.value.shape = [spec.nKvHeads, idx.length, spec.headDim]

omit [Field α] in
theorem warmLayers_ok {spec : ModelSpec} {full : KVCache α} (cache : CacheOf spec full)
    {idx : List Nat} (inside : ∀ i ∈ idx, i < full.seqLen) :
    ∃ layers, warmLayers spec.nLayers full idx = some layers ∧
      List.Forall₂ (LayerAt spec idx) full.layers layers := by
  have each : ∀ li ∈ List.range spec.nLayers, ∃ part, (do
      let layer ← full.layers[li]?
      return (⟨← layer.key.gatherAxis1 idx, ← layer.value.gatherAxis1 idx⟩ : LayerKV α)) =
        some part ∧
      ∃ layer, full.layers[li]? = some layer ∧ LayerAt spec idx layer part := by
    intro li member
    have here :=
      List.getElem?_eq_getElem
        (cache.layers_length.symm ▸ List.mem_range.1 member : li < full.layers.length)
    obtain ⟨keyShape, valueShape⟩ := cache.shape _ (List.mem_of_getElem? here)
    obtain ⟨key, keyDone, keyGathered, -⟩ := NDArray.gatherAxis1_eq_some keyShape inside
    obtain ⟨value, valueDone, valueGathered, -⟩ := NDArray.gatherAxis1_eq_some valueShape inside
    exact ⟨⟨key, value⟩,
      by simp [here, keyDone, valueDone], _, here, keyDone, valueDone, keyGathered, valueGathered⟩
  obtain ⟨layers, done, related⟩ := Fallible.mapM_some each
  refine ⟨layers, done, List.forall₂_iff_get.2 ⟨?_, fun li left right => ?_⟩⟩
  · rw [← related.length_eq, List.length_range, cache.layers_length]
  · obtain ⟨layer, here, at'⟩ :=
      (List.forall₂_iff_get.1 related).2 li
        (by rwa [List.length_range, ← cache.layers_length]) right
    simp only [List.get_eq_getElem, List.getElem_range] at here at' ⊢
    rw [List.getElem?_eq_getElem left, Option.some.injEq] at here
    exact here ▸ at'

end Warm

/-! ## The trained tensors -/

/-- A layer each, of `t` tokens. -/
structure Tensors (spec : ModelSpec) (t : Nat) (params : List (LayerKV τ)) : Prop where
  length : params.length = spec.nLayers
  shape : ∀ kv ∈ params, kv.key.shape = [spec.nKvHeads, t, spec.headDim] ∧
    kv.value.shape = [spec.nKvHeads, t, spec.headDim]

/-- A step of the optimizer changes the tensors in place. -/
def Optimizer.InPlace (opt : Optimizer σ τ Λ) : Prop :=
  ∀ items s,
    List.Forall₂ (fun kv kv' => kv'.key.shape = kv.key.shape ∧ kv'.value.shape = kv.value.shape) s.2
    (opt.step items s).2

theorem train_tensors {opt : Optimizer σ τ Λ} (inPlace : opt.InPlace) {spec : ModelSpec} {t : Nat}
    {params : List (LayerKV τ)}
    (tensors : Tensors spec t params) (items : List (TrainingItem Λ)) (steps : Nat) :
      Tensors spec t (train opt items steps params) := by
  rw [train]
  induction steps with
  | zero => exact tensors
  | succ steps ih =>
    rw [Function.iterate_succ_apply']
    have changed := inPlace items ((opt.step items)^[steps] (opt.start params, params))
    refine ⟨changed.length_eq.symm.trans ih.length, fun kv' member => ?_⟩
    obtain ⟨i, inside, rfl⟩ := List.mem_iff_getElem.1 member
    obtain ⟨key, value⟩ := (List.forall₂_iff_get.1 changed).2 i (changed.length_eq ▸ inside) inside
    obtain ⟨keyShape, valueShape⟩ := ih.shape _ (List.get_mem _ ⟨i, changed.length_eq ▸ inside⟩)
    exact ⟨key.trans keyShape, value.trans valueShape⟩

section Compiled

variable [Inhabited α] [Field α] [Inhabited τ] {b : HFBackend α τ Λ} {t : Nat}

omit [Inhabited α] [Field α] [Inhabited τ] in
/-- The tokens of the warm start are some of the corpus. -/
theorem warm_inside {T : Nat} (few : t ≤ T) : ∀ i ∈ linspace (T - 1) t, i < T := by
  intro i member
  have le := le_of_mem_linspace member
  have positive : t ≠ 0 := by
    rintro rfl
    cases member
  omega

omit [Field α] [Inhabited τ] in
theorem warmStart_ok {full : KVCache α} (cache : CacheOf b.model.spec full)
    (few : t ≤ full.seqLen) :
    ∃ layers, warmLayers b.model.spec.nLayers full (linspace (full.seqLen - 1) t) = some layers ∧
      warmStart b full full.seqLen t = some (layers.map (LayerKV.map b.fromFloat)) ∧
      Tensors b.model.spec t (layers.map (LayerKV.map b.fromFloat)) := by
  obtain ⟨layers, done, related⟩ := warmLayers_ok cache (warm_inside few)
  have width : (linspace (full.seqLen - 1) t).length = t := by simp [linspace]
  have count : layers.length = b.model.spec.nLayers :=
    related.length_eq.symm.trans cache.layers_length
  have shapes : ∀ l ∈ layers, l.key.shape = [b.model.spec.nKvHeads, t, b.model.spec.headDim] ∧
      l.value.shape = [b.model.spec.nKvHeads, t, b.model.spec.headDim] := by
    intro l member
    obtain ⟨i, bound, rfl⟩ := List.mem_iff_getElem.1 member
    have at' := (List.forall₂_iff_get.1 related).2 i (related.length_eq ▸ bound) bound
    exact width ▸ ⟨at'.keyShape, at'.valueShape⟩
  have nonempty : layers ≠ [] := by
    rintro rfl
    exact absurd count cache.layer.ne
  have keys : ∀ a ∈ layers.map (·.key),
    a.shape = [b.model.spec.nKvHeads, t, b.model.spec.headDim] := by
    simpa using fun l member => (shapes l member).1
  have values : ∀ a ∈ layers.map (·.value),
    a.shape = [b.model.spec.nKvHeads, t, b.model.spec.headDim] := by
    simpa using fun l member => (shapes l member).2
  refine ⟨layers, done, ?_, by simpa using count, ?_⟩
  · simp [warmStart, done, NDArray.stack_eq keys (by simpa using nonempty),
      NDArray.stack_eq values (by simpa using nonempty)]
  · exact List.forall_mem_map.2 shapes

omit [Field α] [Inhabited τ] in
/-- The arrays of trained tensors are a cartridge, and its tensors are they. -/
theorem stacked_tensors {params : List (LayerKV τ)} (tensors : Tensors b.model.spec t params)
    (layer : 0 < b.model.spec.nLayers)
    (exact : ∀ x, b.fromFloat (b.toFloat x) = x) :
    ∃ keys values, NDArray.stack (params.map fun kv => kv.key.map b.toFloat) = some keys ∧
      NDArray.stack (params.map fun kv => kv.value.map b.toFloat) = some values ∧
      ∀ c : Cartridge α, c.spec = b.model.spec → c.keys = keys → c.values = values → c.Holds t ∧
        c.params b = params := by
  have nonempty : params ≠ [] := by
    rintro rfl
    exact absurd tensors.length layer.ne
  have back : ∀ a : NDArray τ, (a.map b.toFloat).map b.fromFloat = a := by
    intro a
    rw [NDArray.map_map]
    exact NDArray.map_eq_self fun x _ => exact x
  have keys : ∀ a ∈ params.map (fun kv => kv.key.map b.toFloat),
    a.shape = [b.model.spec.nKvHeads, t, b.model.spec.headDim] :=
    List.forall_mem_map.2 fun kv member => (tensors.shape kv member).1
  have values : ∀ a ∈ params.map (fun kv => kv.value.map b.toFloat),
    a.shape = [b.model.spec.nKvHeads, t, b.model.spec.headDim] :=
    List.forall_mem_map.2 fun kv member => (tensors.shape kv member).2
  refine ⟨_, _, NDArray.stack_eq keys (by simpa using nonempty),
    NDArray.stack_eq values (by simpa using nonempty), ?_⟩
  intro c spec sameKeys sameValues
  have count : (params.map fun kv => kv.key.map b.toFloat).length = b.model.spec.nLayers := by
    rw [List.length_map, tensors.length]
  have count' : (params.map fun kv => kv.value.map b.toFloat).length = b.model.spec.nLayers := by
    rw [List.length_map, tensors.length]
  constructor
  · constructor
    case keys => rw [sameKeys, spec, ← count]; rfl
    case values => rw [sameValues, spec, ← count']; rfl
  · rw [Cartridge.params, Cartridge.asCache, spec, List.map_map]
    apply List.ext_getElem (by simp [tensors.length])
    intro li left right
    have here := List.getElem?_eq_getElem right
    have key :=
      NDArray.select0_stacked keys (i := li) (by rw [List.getElem?_map, here, Option.map_some])
    have value :=
      NDArray.select0_stacked values (i := li) (by rw [List.getElem?_map, here, Option.map_some])
    rw [List.getElem_map, List.getElem_range]
    simp only [Function.comp_apply, LayerKV.map, sameKeys, sameValues, key, value, back]

/-! ## From the corpus to the server -/

omit [Field α] [Inhabited τ] in
theorem exact_compiledMeta (options : CompileOptions) (t T items : Nat) (model : String) :
    (JsonValue.dict (compiledMeta options t T items model).entries).Exact := by
  rw [compiledMeta, Dict.entries_ofList (by simp)]
  simp [JsonValue.Exact, JsonValue.ExactEntries]

variable [Field τ] {llama : Llama τ H Λ}
  {sdpa : NDArray τ → NDArray τ → NDArray τ → NDArray τ → NDArray τ} {tok : Tokenizer}
  {pick : Nat → Λ → Int} {opt : Optimizer σ τ Λ} {options : CompileOptions} {corpusIds : List Int}
  {c : Cartridge α}

/-- A compiled cartridge keeps tokens spread over its corpus; it comes back from its file, and over
    it the backend computes the student's logits for the tensors that the training ended with. -/
theorem compile_served (prefilled : ∀ ids, CacheOf b.model.spec (b.prefill ids))
    (inPlace : opt.InPlace)
    (exact : ∀ x, b.fromFloat (b.toFloat x) = x) (zero : b.fromFloat 0 = 0)
    (runs : b.decode = llama.decode b.model.spec.groupSize b.fromFloat)
    (masked : MaskedSdpa b.model.spec.groupSize llama sdpa)
    (compiled : compile b tok pick opt options corpusIds = some c) :
    let T := (options.corpus corpusIds).length
    let t := min options.t T
    c.Fits b.model.spec t ∧ c.logicalLength = T ∧ c.positions = (linspace (T - 1) t).map Int.ofNat ∧
      c.positions.Pairwise (· < ·) ∧
      (T < 2 ^ 63 → c.npz.bind ofNpz = some c) ∧
      ∃ warm items cc, warmStart b (b.prefill (options.corpus corpusIds)) T t = some warm ∧
        selfStudy b tok pick (b.prefill (options.corpus corpusIds))
          (options.corpus corpusIds) options = some items ∧ items ≠ [] ∧
        c.toCompactCache = some cc ∧ ∀ qIds, b.contextLogits (.compact cc) qIds =
          some (studentLogits b llama sdpa t T (train opt items options.steps warm) qIds) := by
  intro T t
  have cache := prefilled (options.corpus corpusIds)
  have at' :
    (b.prefill (options.corpus corpusIds)).positions = arange 0
    (options.corpus corpusIds).length := by
    simp [HFBackend.prefill, HFBackend.toHost, KVCache.mapElems, Model.prefill,
      Model.cacheToKVCache]
  have seqLen : (b.prefill (options.corpus corpusIds)).seqLen = T := by
    rw [KVCache.seqLen, at', length_arange, Nat.sub_zero]
  have few : t ≤ T := Nat.min_le_right _ _
  obtain ⟨layers, -, warmed, tensors⟩ := warmStart_ok cache (few.trans_eq seqLen.symm)
  rw [seqLen] at warmed
  simp only [compile, Option.bind_eq_bind, Option.bind_eq_some_iff] at compiled
  obtain ⟨warm, warmed', positions, spread, items, studied, compiled⟩ := compiled
  obtain rfl := Option.some.inj (warmed.symm.trans warmed')
  split at compiled
  · cases compiled
  · rename_i nonempty
    -- training keeps the shapes, so the arrays stack
    have trained := train_tensors inPlace tensors items options.steps
    obtain ⟨keys, values, keysDone, valuesDone, made⟩ := stacked_tensors trained cache.layer exact
    simp only [keysDone, valuesDone, Option.bind_some, Option.pure_def,
      Option.some.injEq] at compiled
    have spec : c.spec = b.model.spec := by rw [← compiled]
    have length : c.logicalLength = T := by rw [← compiled]
    have metadata : c.metadata = compiledMeta options t T items.length b.model.spec.name := by
      rw [← compiled]
    have spread' : c.positions = (linspace (T - 1) t).map Int.ofNat := by
      have each : ∀ i ∈ linspace (T - 1) t, (b.prefill (options.corpus corpusIds)).positions[i]? =
        some (Int.ofNat i) := by
        intro i member
        have inside := warm_inside few i member
        rw [at', arange, List.getElem?_map, List.getElem?_range' (by simpa using inside)]
        simp
      rw [Fallible.mapM_some_map each, Option.some.injEq] at spread
      rw [← compiled, ← spread]
    obtain ⟨holds, params⟩ := made c spec (by rw [← compiled]) (by rw [← compiled])
    have fits : c.Fits b.model.spec t := ⟨holds, spec, by simp [spread', linspace]⟩
    refine ⟨fits, length, spread', ?_, fun small => ?_, _, items, _, warmed, studied, nonempty,
      holds.toCompactCache_eq, fun qIds => ?_⟩
    · rw [spread', List.pairwise_map]
      exact (pairwise_linspace (by omega)).imp Int.ofNat_lt.2
    · obtain ⟨z, wrote⟩ : ∃ z, c.npz = some z := ⟨_, by rw [Cartridge.npz, length, if_pos small]⟩
      rw [wrote, Option.bind_some,
        ofNpz_npz wrote (metadata ▸ exact_compiledMeta options t T items.length b.model.spec.name)]
    · have served :=
        studentLogits_served fits
          (fits.cacheOf cache.layer cache.head cache.channel cache.groups) zero runs masked qIds
      rw [served, params, length]

end Compiled

section Even

/-- The keys are ones and the values the tokens. -/
def evenCompiler : HFBackend ℚ ℚ ℚ :=
  { evenBackend with
    model :=
      { spec := twoHeads
        kvForward := fun _ _ inputIds =>
          [⟨NDArray.full [2, inputIds.length, 1] 1, NDArray.ofFn [2, inputIds.length, 1]
            fun ix => inputIds.getD (ix.getD 1 0) 0⟩] } }

theorem evenCompiler_prefilled (ids : List Int) :
    CacheOf evenCompiler.model.spec (evenCompiler.prefill ids) where
  layers_length := rfl
  shape l member := by
    have seqLen : (evenCompiler.prefill ids).seqLen = ids.length := by
      simp [KVCache.seqLen, HFBackend.prefill, HFBackend.toHost, KVCache.mapElems, Model.prefill,
        Model.cacheToKVCache]
    rw [seqLen, List.mem_singleton.1 member]
    exact ⟨rfl, rfl⟩
  layer := by decide
  head := by decide
  channel := by decide
  groups := by decide

/-- Every step adds 1 to every number. -/
def countingUp : Optimizer Unit ℚ ℚ where
  start _ := ()
  step _ s := (s.1, s.2.map (LayerKV.map (· + 1)))

theorem countingUp_inPlace : countingUp.InPlace := by
  intro items s
  rw [countingUp, List.forall₂_map_right_iff, List.forall₂_same]
  exact fun kv _ => ⟨rfl, rfl⟩

def plainTokenizer : Tokenizer := ⟨fun _ => [1], fun _ => ""⟩

def spanOptions : CompileOptions :=
  { t := 2, steps := 1, lr := ⟨"0.02".toList, by decide⟩, selfstudy := "corpus_span" }

theorem compile_served_even : ∃ c cc params,
    compile evenCompiler plainTokenizer (fun _ logit => logit.num) countingUp spanOptions [5,
    6, 7] = some c ∧
    c.positions = [0, 2] ∧ c.npz.bind ofNpz = some c ∧ c.toCompactCache = some cc ∧
    evenCompiler.contextLogits (.compact cc) [9] = some (studentLogits evenCompiler evenLlama
      (fun query key value mask => dexaEagerAttentionForward evenLlama.exp 1 query key value
        (some mask) none evenLlama.scaling) 2 3 params [9]) := by
  obtain ⟨c, compiled⟩ := Option.isSome_iff_exists.1
    (by decide +kernel : (compile evenCompiler plainTokenizer
      (fun _ logit => logit.num) countingUp spanOptions [5, 6, 7]).isSome)
  obtain ⟨-, -, spread, -, file, warm, items, cc, -, -, -, compact, served⟩ :=
    compile_served evenCompiler_prefilled countingUp_inPlace
    (fun _ => rfl) rfl (rfl : evenCompiler.decode = evenLlama.decode 1 id)
    (fun _ _ _ _ => rfl) compiled
  exact ⟨c, cc, _, compiled, spread, file (by decide), compact, served [9]⟩

end Even

end Dexa.Cartridges
