import Dexa.Compaction.Base
import Dexa.Engine.Decoding
import Dexa.Lib.ArrayCells
import Dexa.Lib.Attention

/-! # Decoding over a compact cache (`dexa/engine/hf_backend.py`)

The heads of a compact cache may keep different numbers of tokens.  They are padded to one physical
length, and a bias hides the padding: it is added to the scores inside the attention, for each
layer, since the model shares one mask among its layers.

The transformer around the attention is a parameter.  `raggedAttention` says what is meant: each
query head sees the keys that its head kept, with their biases, and then the new tokens.
-/

namespace Dexa.Engine

open Dexa.Core Dexa.Lib Dexa.Segments

section Attention

variable {τ : Type} [Inhabited τ] [Field τ] (exp : τ → τ)

/-- `repeat_kv`. -/
def repeatKv (a : NDArray τ) (nRep : Nat) : NDArray τ := a.repeat0 nRep

/-- `_dexa_eager_attention_forward`. -/
def dexaEagerAttentionForward (numKeyValueGroups : Nat) (query key value : NDArray τ)
    (attentionMask beta : Option (NDArray τ))
    (scaling : τ) : NDArray τ :=
  let keyStates := repeatKv key numKeyValueGroups
  let valueStates := repeatKv value numKeyValueGroups
  let columns := List.range (keyStates.shape.getD 1 0)
  let attnWeights := fun h i => Attention.softmax exp <| columns.map fun j =>
    let weight :=
      ((List.range (query.shape.getD 2 0)).map
        fun c => query.getD [h, i, c] 0 * keyStates.getD [h, j, c] 0).sum * scaling
    let weight := attentionMask.elim weight fun mask => weight + mask.getD [i, j] 0
    beta.elim weight fun beta => weight + beta.getD [h, j] 0
  NDArray.ofFn query.shape fun
    | [h, i,
        c] => (List.zipWith (· * ·) (attnWeights h i)
        (columns.map fun j => valueStates.getD [h, j, c] 0)).sum
    | _ => 0

/-- `DynamicCache.update`: the new cells after the cached ones. -/
def cacheUpdate (cached new : NDArray τ) : NDArray τ :=
  match cached.shape, new.shape with
  | m :: t :: rest, _ :: n :: _ => NDArray.ofFn (m :: (t + n) :: rest) fun
    | h :: i :: ix => if i < t then cached.getD (h :: i :: ix) default else new.getD (h :: (i - t) :: ix) default
    | _ => default
  | _, _ => cached

end Attention

/-- Queries, keys and values of new tokens, by heads. -/
structure Projected (τ : Type) where
  query : NDArray τ
  key : NDArray τ
  value : NDArray τ

structure Llama (τ H Λ : Type) where
  /-- the exponential in `softmax` -/
  exp : τ → τ
  scaling : τ
  embedTokens : Int → H
  /-- the queries, keys and values of a layer: `input_layernorm`, the projections and RoPE -/
  project : Nat → List Int → List H → Projected τ
  /-- what a layer makes of its input and of the attention: `o_proj`, the residuals and the MLP -/
  finish : Nat → List H → NDArray τ → List H
  /-- `norm` and `lm_head` -/
  lmHead : H → Λ

namespace Llama

variable {α τ H Λ : Type} (llama : Llama τ H Λ)

/-- One decoder layer, with its attention and its number. -/
def decoderLayer (positionIds : List Int) (hidden : List H)
    (layer : (Projected τ → NDArray τ) × Nat) : List H :=
  llama.finish layer.2 hidden (layer.1 (llama.project layer.2 positionIds hidden))

/-- A forward pass with the given attention in each layer. -/
def pass (attentions : List (Projected τ → NDArray τ)) (positionIds inputIds : List Int) : List Λ :=
  (attentions.zipIdx.foldl (llama.decoderLayer positionIds)
    (inputIds.map llama.embedTokens)).map llama.lmHead

variable [Inhabited τ] [Field τ]

/-- The biases over all columns: none on the new tokens. -/
def betaFull (nQHeads kvLen : Nat) (beta : NDArray τ) : NDArray τ :=
  NDArray.ofFn [nQHeads, kvLen] fun ix => if ix.getD 1 0 < beta.shape.getD 1 0 then beta.getD ix 0
    else 0

/-- The attention of a layer over its cache. -/
def cachedAttention (groups : Nat) (mask : NDArray τ) (kv : LayerKV τ) (beta : NDArray τ)
    (new : Projected τ) : NDArray τ :=
  let key := cacheUpdate kv.key new.key
  let value := cacheUpdate kv.value new.value
  let beta := betaFull (new.query.shape.getD 0 0) (key.shape.getD 1 0) beta
  dexaEagerAttentionForward llama.exp groups new.query key value (some mask)
    (some beta) llama.scaling

/-- The logits of the new tokens over a cache with biases per layer and an additive mask. -/
def decode (groups : Nat) (cast : α → τ) (cache : List (LayerKV τ)) (betas : List (NDArray τ))
    (mask : NDArray α)
    (positionIds inputIds : List Int) : List Λ :=
  llama.pass
    (List.zipWith (llama.cachedAttention groups (mask.map cast)) cache betas) positionIds inputIds

end Llama

/-- What `HFBackend` decodes against. -/
inductive HostContext (α : Type) where
  | raw (kv : HostKV α)
  | compact (cache : CompactCache α)

namespace HostContext

variable {α : Type}

/-- `_physical_len`: the tokens of the longest head. -/
def physicalLen : HostContext α → Nat
  | .raw kv => kv.seqLen
  | .compact cache => (cache.layers.flatMap fun layer => layer.keys.map
      fun key => key.shape.headD 0).foldl max 0

/-- `_logical_len`. -/
def logicalLen : HostContext α → Nat
  | .raw kv => kv.seqLen
  | .compact cache => cache.logicalLength

end HostContext

namespace HFBackend

variable {α τ Λ : Type} [Inhabited α] [Field α] (b : HFBackend α τ Λ)

/-- The round for head `h` in `_build_cache`: keys, values and biases into the leading slots. -/
def fillHead (cl : CompactLayer α) (full : NDArray α × NDArray α × NDArray α) (h : Nat) :
    Option (NDArray α × NDArray α × NDArray α) := do
  let key ← cl.keys[h]?
  let t := key.shape.headD 0
  return (← full.1.assignLeading h t key, ← full.2.1.assignLeading h t (← cl.values[h]?),
    ← full.2.2.assignLeading h t (NDArray.ofList (← cl.biases[h]?)))

/-- One compact layer of `_build_cache`: its device arrays and its biases, for each query head. -/
def buildCompactLayer (cl : CompactLayer α) (phys : Nat) : Option (LayerKV τ × NDArray τ) := do
  let spec := b.model.spec
  let empty := NDArray.full [spec.nKvHeads, phys, spec.headDim] 0
  let (key, value, beta) ← (List.range spec.nKvHeads).foldlM (fillHead cl)
    (empty, empty, NDArray.full [spec.nKvHeads, phys] b.negInf)
  return (⟨key.map b.fromFloat, value.map b.fromFloat⟩,
    (beta.repeat0 spec.groupSize).map b.fromFloat)

/-- `_build_cache`. -/
def buildContext (context : HostContext α) (phys : Nat) : Option (List (LayerKV τ × NDArray τ)) :=
  (List.range b.model.spec.nLayers).mapM fun li =>
    match context with
    | .raw kv => b.buildLayer kv phys li
    | .compact cache => do b.buildCompactLayer (← cache.layers[li]?) phys

/-- `_decode_logits`. -/
def contextLogits (context : HostContext α) (inputIds : List Int) : Option (List Λ) := do
  let phys := context.physicalLen
  let built ← b.buildContext context phys
  let start := context.logicalLen
  let positionIds := arange start (start + inputIds.length)
  return b.decode (built.map Prod.fst) (built.map Prod.snd)
    (b.attentionMask phys inputIds.length) positionIds inputIds

/-- `meta["token_ids"]`; `none` where there are no ids. -/
def metaTokenIds (metadata : Dict String MetaValue) : Option (List Int) :=
  match metadata.get? "token_ids" with
  | some (.list items) =>
    items.mapM fun item => match item with
      | .int n => some n
      | _ => none
  | _ => none

/-- `a[:-1]`. -/
def withoutLast (a : NDArray α) : NDArray α := a.take (a.shape.headD 0 - 1)

/-- `_drop_last` of a compact cache: its last slot is dropped on every head, and its last token is
    that of the metadata. -/
def dropLastCompact (cache : CompactCache α) : Option (CompactCache α × Int) := do
  let toks ← metaTokenIds cache.metadata
  let last ← toks.getLast?
  let layers := cache.layers.map fun cl =>
    { keys := cl.keys.map withoutLast, values := cl.values.map withoutLast, biases := cl.biases.map List.dropLast,
      positions := cl.positions.map List.dropLast }
  return ({ spec := cache.spec, layers, logicalLength := cache.logicalLength - 1, method := cache.method,
            metadata := cache.metadata.set "token_ids" (.list (toks.dropLast.map .int)) }, last)

/-- `_drop_last`. -/
def contextDropLast : HostContext α → Option (HostContext α × Int)
  | .raw kv => (dropLast kv).map fun e => (.raw e.1, e.2)
  | .compact cache => (dropLastCompact cache).map fun e => (.compact e.1, e.2)

/-- `score`. -/
def contextScore (context : HostContext α) (promptTokenIds targetTokenIds : List Int) :
    Option (List α) := do
  if targetTokenIds = [] then return []
  let pred ← if promptTokenIds ≠ [] then do
      let logits ← b.contextLogits context (promptTokenIds ++ targetTokenIds)
      pure ((logits.drop (promptTokenIds.length - 1)).take targetTokenIds.length)
    else do
      let (rest, last) ← contextDropLast context
      let logits ← b.contextLogits rest (last :: targetTokenIds)
      pure (logits.take targetTokenIds.length)
  return List.zipWith b.logProb pred targetTokenIds

/-- The decoding loop, `remaining` tokens from the end. -/
def contextGenerateLoop (context : HostContext α) (promptTokenIds : List Int)
    (pick : Nat → Λ → Int) :
    Nat → List Int → Λ → Option (List Int)
  | 0, generated, _ => some generated
  | remaining + 1, generated, lastLogit => do
    let generated := generated ++ [pick generated.length lastLogit]
    if remaining = 0 then return generated
    let logits ← b.contextLogits context (promptTokenIds ++ generated)
    contextGenerateLoop context promptTokenIds pick remaining generated (← logits.getLast?)

/-- `generate`. -/
def contextGenerate (context : HostContext α) (promptTokenIds : List Int) (maxNewTokens : Nat)
    (pick : Nat → Λ → Int) :
    Option (List Int) := do
  let logits ← if promptTokenIds ≠ [] then b.contextLogits context promptTokenIds
    else do
      let (rest, last) ← contextDropLast context
      b.contextLogits rest [last]
  b.contextGenerateLoop context promptTokenIds pick maxNewTokens [] (← logits.getLast?)

theorem contextLogits_raw (kv : HostKV α) (inputIds : List Int) :
    b.contextLogits (.raw kv) inputIds = b.decodeLogits kv inputIds := rfl

theorem contextScore_raw (kv : HostKV α) (promptTokenIds targetTokenIds : List Int) :
    b.contextScore (.raw kv) promptTokenIds targetTokenIds =
      b.score kv promptTokenIds targetTokenIds := by
  unfold contextScore score
  simp only [contextLogits_raw, contextDropLast]
  cases dropLast kv <;> rfl

theorem contextGenerate_raw (kv : HostKV α) (promptTokenIds : List Int) (maxNewTokens : Nat)
    (pick : Nat → Λ → Int) :
    b.contextGenerate (.raw kv) promptTokenIds maxNewTokens pick =
      b.generate kv promptTokenIds maxNewTokens pick := by
  have loop : ∀ remaining generated last,
    b.contextGenerateLoop (.raw kv) promptTokenIds pick remaining generated last =
      b.generateLoop kv promptTokenIds pick remaining generated last := by
    intro remaining
    induction remaining with
    | zero => exact fun generated last => rfl
    | succ remaining ih => simp only [contextGenerateLoop, generateLoop, contextLogits_raw,
        ih, implies_true]
  unfold contextGenerate generate
  simp only [loop, contextLogits_raw, contextDropLast]
  cases dropLast kv <;> rfl

end HFBackend

end Dexa.Engine
