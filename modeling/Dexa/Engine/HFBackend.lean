import Mathlib.Data.Rat.Defs
import Dexa.Segments.Plan

/-! # The KV-building backend (`dexa/engine/hf_backend.py`)

The transformer itself is a parameter: one forward pass over new tokens, given the
cached layers and the position ids of the new tokens.  Everything `HFBackend` does
around that pass (positions, token bookkeeping, slicing, the incremental rebuild)
is modelled as the code computes it.

`Causal` states what is assumed of the pass: layer shapes, entry `i` depending only
on tokens `0..i`, and a pass over a prefilled cache agreeing with one prefill of the
concatenation.  From it `sliceKV_prefill`, `extend_prefill` and
`recomputeIncremental_prefill` say that each cache operation lands on a prefill.
-/

namespace Dexa.Engine

open Dexa.Core Dexa.Lib Dexa.Segments

variable {α : Type}

/-- A model: `kvForward past positionIds tokenIds` is the layers of the cache after
    forwarding `tokenIds` on top of `past`. -/
structure Model (α : Type) where
  spec : ModelSpec
  kvForward : Option (List (LayerKV α)) → List Int → List Int → List (LayerKV α)

/-- `_build_raw_cache`: the layers, moved to the device. -/
def buildRawCache (kv : KVCache α) : List (LayerKV α) := kv.layers

namespace Model

variable (m : Model α)

/-- `_cache_to_kvcache`. -/
def cacheToKVCache (cache : List (LayerKV α)) (positions : List Int) (tokenIds : List Int) :
    KVCache α :=
  { spec := m.spec, layers := cache.take m.spec.nLayers, positions := positions, tokenIds := some tokenIds }

def prefill (tokenIds : List Int) (positionOffset : Nat := 0) : KVCache α :=
  let positions := arange positionOffset (positionOffset + tokenIds.length)
  m.cacheToKVCache (m.kvForward none positions tokenIds) positions tokenIds

/-- Append `tokenIds` to a cache; an empty list returns the cache as it is. -/
def extend (context : KVCache α) (tokenIds : List Int) : KVCache α :=
  if tokenIds = [] then context
  else
    let start := context.seqLen
    let cache :=
      m.kvForward (some (buildRawCache context)) (arange start (start + tokenIds.length)) tokenIds
    m.cacheToKVCache cache (arange 0 (start + tokenIds.length))
      (context.tokenIds.getD [] ++ tokenIds)

end Model

variable [Inhabited α]

/-- First `n` tokens of a layer. -/
def sliceLayer (n : Nat) (l : LayerKV α) : LayerKV α := ⟨l.key.takeAxis1 n, l.value.takeAxis1 n⟩

/-- `_slice_kv`: first `n` tokens of a cache. -/
def sliceKV (kv : KVCache α) (n : Nat) : KVCache α :=
  { spec := kv.spec, layers := kv.layers.map (sliceLayer n), positions := kv.positions.take n,
    tokenIds := kv.tokenIds.map (List.take n), metadata := kv.metadata }

structure RecomputeStats where
  totalTokens : Nat
  reusedTokens : Nat
  recomputedTokens : Nat
  recomputeFraction : ℚ

/-- Rebuild the KV for `newCtx` reusing the common segment prefix of `prevKV`. -/
def Model.recomputeIncremental (m : Model α) {δ : Type} [DecidableEq δ] (hashTokens : List Int → δ)
    (prevKV : KVCache α) (prevCtx newCtx : SegmentedContext) : KVCache α × RecomputeStats :=
  let plan := planIncremental hashTokens (some prevCtx) newCtx .exact
  let reused := plan.reusedExactTokens
  let newTokens := newCtx.tokenIds
  let base := sliceKV prevKV reused
  let tail := newTokens.drop reused
  let kv := if tail = [] then base else m.extend base tail
  (kv, { totalTokens := newTokens.length
         reusedTokens := reused
         recomputedTokens := tail.length
         recomputeFraction := if newTokens = [] then 0 else (tail.length : ℚ) / newTokens.length })

/-- The abstract causal model. -/
structure Causal (m : Model α) : Prop where
  layers_length : ∀ tokens, (m.prefill tokens).layers.length = m.spec.nLayers
  layer_shape : ∀ tokens, ∀ l ∈ (m.prefill tokens).layers,
    l.key.shape = [m.spec.nKvHeads, tokens.length, m.spec.headDim] ∧
      l.value.shape = [m.spec.nKvHeads, tokens.length, m.spec.headDim]
  /-- Entry `i` of every layer depends only on tokens `0..i`. -/
  entry : ∀ (tokens tokens' : List Int) (i : Nat), i < tokens.length → i < tokens'.length →
    tokens.take (i + 1) = tokens'.take (i + 1) →
    ∀ (li : Nat) (l l' : LayerKV α), (m.prefill tokens).layers[li]? = some l →
      (m.prefill tokens').layers[li]? = some l' →
      ∀ h c, l.key.get? [h, i, c] = l'.key.get? [h, i, c] ∧
        l.value.get? [h, i, c] = l'.value.get? [h, i, c]
  /-- A pass over a prefilled cache is a pass over the concatenation. -/
  forward : ∀ tokens more, more ≠ [] →
    m.kvForward (some (m.prefill tokens).layers)
        (arange tokens.length (tokens.length + more.length)) more =
      m.kvForward none (arange 0 (tokens.length + more.length)) (tokens ++ more)

variable {m : Model α}

omit [Inhabited α] in
@[simp] theorem prefill_positions (tokens : List Int) :
    (m.prefill tokens).positions = arange 0 tokens.length := by
  simp [Model.prefill, Model.cacheToKVCache]

omit [Inhabited α] in
@[simp] theorem prefill_tokenIds (tokens : List Int) : (m.prefill tokens).tokenIds = some tokens :=
  rfl

omit [Inhabited α] in
@[simp] theorem prefill_seqLen (tokens : List Int) : (m.prefill tokens).seqLen = tokens.length := by
  simp [KVCache.seqLen]

omit [Inhabited α] in
/-- Two arrays of one layer agree when they agree at every head, token and channel. -/
theorem array_ext {a b : NDArray α} {heads t d : Nat} (ha : a.shape = [heads, t, d])
    (hb : b.shape = [heads, t, d])
    (cells : ∀ h i c, i < t → a.get? [h, i, c] = b.get? [h, i, c]) : a = b := by
  apply NDArray.ext_get? (ha.trans hb.symm)
  intro ix inside
  rw [ha] at inside
  match ix, inside with
  | [h, i, c], inside => exact cells h i c inside.2.1

/-- One array of a prefill, cut to `n` tokens, is the array of the prefill of the cut text. -/
theorem takeAxis1_entry {a b : NDArray α} {heads d n : Nat} {tokens : List Int}
    (ha : a.shape = [heads, tokens.length, d]) (hb : b.shape = [heads, (tokens.take n).length, d])
    (cells : ∀ h i c, i < (tokens.take n).length → a.get? [h, i, c] = b.get? [h, i, c]) :
    a.takeAxis1 n = b := by
  rw [List.length_take] at hb cells
  apply array_ext (NDArray.shape_takeAxis1 n ha) hb
  intro h i c hi
  rw [NDArray.get?_takeAxis1 ha (Nat.lt_min.1 hi).1]
  exact cells h i c hi

theorem sliceKV_prefill (causal : Causal m) (tokens : List Int) (n : Nat) :
    sliceKV (m.prefill tokens) n = m.prefill (tokens.take n) := by
  apply KVCache.ext
  · rfl
  · apply List.ext_getElem?
    intro li
    simp only [sliceKV, List.getElem?_map]
    cases hl : (m.prefill tokens).layers[li]? with
    | none =>
      rw [List.getElem?_eq_none_iff, causal.layers_length] at hl
      exact (List.getElem?_eq_none (by rw [causal.layers_length]; exact hl)).symm
    | some l =>
      obtain ⟨hli, -⟩ := List.getElem?_eq_some_iff.1 hl
      rw [causal.layers_length, ← causal.layers_length (tokens.take n)] at hli
      have hl' := List.getElem?_eq_getElem hli
      generalize (m.prefill (tokens.take n)).layers[li] = l' at hl'
      have shape := causal.layer_shape tokens l (List.mem_of_getElem? hl)
      have shape' := causal.layer_shape (tokens.take n) l' (List.mem_of_getElem? hl')
      have cells : ∀ h i c, i < (tokens.take n).length →
          l.key.get? [h, i, c] = l'.key.get? [h, i, c] ∧
            l.value.get? [h, i, c] = l'.value.get? [h, i, c] := by
        intro h i c hi
        have hlen := List.length_take ▸ hi
        refine causal.entry tokens (tokens.take n) i (Nat.lt_min.1 hlen).2 hi ?_ li l l' hl hl' h c
        rw [List.take_take, Nat.min_eq_left (by omega)]
      rw [hl', Option.map_some, Option.some.injEq]
      exact LayerKV.ext (takeAxis1_entry shape.1 shape'.1 fun h i c hi => (cells h i c hi).1)
        (takeAxis1_entry shape.2 shape'.2 fun h i c hi => (cells h i c hi).2)
  · simp [sliceKV, take_arange]
  · simp [sliceKV]
  · rfl

omit [Inhabited α] in
theorem extend_prefill (causal : Causal m) (tokens more : List Int) :
    m.extend (m.prefill tokens) more = m.prefill (tokens ++ more) := by
  by_cases h : more = []
  · simp [Model.extend, h]
  · simp only [Model.extend, if_neg h, buildRawCache, prefill_seqLen, causal.forward tokens more h,
      prefill_tokenIds, Option.getD_some]
    simp [Model.prefill]

/-- The incremental rebuild of a prefill is the prefill of the new context. -/
theorem recomputeIncremental_prefill (causal : Causal m) {δ : Type} [DecidableEq δ]
    {hashTokens : List Int → δ} (injective : Function.Injective hashTokens)
    (prev new : SegmentedContext) :
    (m.recomputeIncremental hashTokens (m.prefill prev.tokenIds) prev new).1 =
      m.prefill new.tokenIds := by
  have same := take_reusedExactTokens hashTokens injective prev new
  simp only [Model.recomputeIncremental, sliceKV_prefill causal, same]
  generalize (planIncremental hashTokens (some prev) new .exact).reusedExactTokens = reused
  split
  · rename_i drained
    rw [List.take_of_length_le (List.drop_eq_nil_iff.1 drained)]
  · rw [extend_prefill causal, List.take_append_drop]

end Dexa.Engine
