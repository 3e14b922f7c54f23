import Mathlib.Data.Rat.Floor
import Dexa.Engine.Decoding
import Dexa.Lib.Fallible
import Dexa.Session.RoundTrip

/-! # A native load in place of a default one

With `keep_native` the words of a bfloat16 file stay as they are.  `_build_cache` reads them as
bfloat16, so decoding does not see the difference; everything that goes through
`_build_raw_cache`, a numpy operation or `_encode` reads them as integers.  Zero is the one
word for which that is the same.
-/

namespace Dexa.Engine

open Dexa.Core Dexa.Lib Dexa.Segments Dexa.Session

variable {α τ Λ : Type}

/-- The cache that a native load hands out, its elements the words of the file. -/
def nativeArrays (raw : KVCache (BitVec 16)) : KVCache (BitVec 16) :=
  { raw with metadata := raw.metadata.set "native_store_dtype" (.str "bfloat16") }

/-- The same as numpy elements. -/
def nativeScalars (raw : KVCache (BitVec 16)) : KVCache Scalar :=
  (nativeArrays raw).mapElems .uint16

def widenedScalars (raw : KVCache (BitVec 16)) : KVCache Scalar :=
  raw.mapElems fun word => .float32 (bf16ToFloat word)

theorem loads_of_readBlob {bytes : List UInt8} {raw : KVCache (BitVec 16)}
    (stored : readBlob bytes = some ⟨.bfloat16, raw⟩) :
    loadKVCacheBlob true bytes = some (nativeScalars raw) ∧
      loadKVCacheBlob false bytes = some (widenedScalars raw) := by
  rw [loadKVCacheBlob, loadKVCacheBlob, stored]
  exact ⟨rfl, rfl⟩

/-- A cache of this model: a layer for each of its layers, with a slot for each position. -/
structure CacheOf {β : Type} (spec : ModelSpec) (kv : KVCache β) : Prop where
  layers_length : kv.layers.length = spec.nLayers
  shape : ∀ l ∈ kv.layers, l.key.shape = [spec.nKvHeads, kv.seqLen, spec.headDim] ∧
    l.value.shape = [spec.nKvHeads, kv.seqLen, spec.headDim]
  layer : 0 < spec.nLayers
  head : 0 < spec.nKvHeads
  channel : 0 < spec.headDim
  groups : spec.nKvHeads * spec.groupSize = spec.nQHeads

/-- `kv'` holds the numbers that the words of `kv` stand for. -/
structure Widened (b : HFBackend α τ Λ) (kv : KVCache (BitVec 16)) (kv' : KVCache α) : Prop where
  spec : kv'.spec = kv.spec
  layers : kv'.layers = kv.layers.map (LayerKV.map b.widen)
  positions : kv'.positions = kv.positions
  tokenIds : kv'.tokenIds = kv.tokenIds

/-- Every word of the file is zero. -/
def ZeroWords (kv : KVCache (BitVec 16)) : Prop :=
  ∀ l ∈ kv.layers, (∀ word ∈ l.key.data, word = 0) ∧ ∀ word ∈ l.value.data, word = 0

variable {b : HFBackend α τ Λ} {kv : KVCache (BitVec 16)} {kv' : KVCache α}

theorem widened_loads (raw : KVCache (BitVec 16)) : Widened b (nativeArrays raw)
    (raw.mapElems b.widen) :=
  ⟨rfl, rfl, rfl, rfl⟩

section Slices

variable [Inhabited α]

/-- Slicing before or after widening. -/
theorem Widened.slice (widened : Widened b kv kv') (cache : CacheOf b.model.spec kv) (n : Nat) :
    Widened b (sliceKV kv n) (sliceKV kv' n) := by
  refine ⟨widened.spec, ?_, congrArg (List.take n) widened.positions,
    congrArg (Option.map (List.take n)) widened.tokenIds⟩
  simp only [sliceKV, widened.layers, List.map_map]
  refine List.map_congr_left fun l member => ?_
  obtain ⟨keyShape, valueShape⟩ := cache.shape l member
  simp only [Function.comp_apply, sliceLayer, LayerKV.map, NDArray.takeAxis1_map keyShape,
    NDArray.takeAxis1_map valueShape]

theorem Widened.cut (widened : Widened b kv kv') (cache : CacheOf b.model.spec kv) :
    Widened b (HostKV.dropLast.cut kv) (HostKV.dropLast.cut kv') := by
  refine ⟨widened.spec, ?_, congrArg List.dropLast widened.positions,
    congrArg (Option.map List.dropLast) widened.tokenIds⟩
  simp only [HostKV.dropLast.cut, widened.layers, List.map_map]
  refine List.map_congr_left fun l member => ?_
  obtain ⟨keyShape, valueShape⟩ := cache.shape l member
  simp only [Function.comp_apply, LayerKV.map, NDArray.shape_map, NDArray.takeAxis1_map keyShape,
    NDArray.takeAxis1_map valueShape]

end Slices

/-- The cache without its last position is one of this model. -/
theorem CacheOf.cut {β : Type} [Inhabited β] {kv : KVCache β} {spec : ModelSpec}
    (cache : CacheOf spec kv) :
    CacheOf spec (HostKV.dropLast.cut kv) := by
  have length : (HostKV.dropLast.cut kv).seqLen = kv.seqLen - 1 := List.length_dropLast
  have layers_length : (HostKV.dropLast.cut kv).layers.length = spec.nLayers := by
    simp [HostKV.dropLast.cut, cache.layers_length]
  have cut : ∀ {a : NDArray β}, a.shape = [spec.nKvHeads, kv.seqLen, spec.headDim] →
      (a.takeAxis1 (a.shape.getD 1 0 - 1)).shape = [spec.nKvHeads, kv.seqLen - 1,
        spec.headDim] := by
    intro a shape
    rw [NDArray.shape_takeAxis1 _ shape, shape, List.getD_cons_succ, List.getD_cons_zero,
      Nat.min_eq_left (Nat.sub_le _ _)]
  refine ⟨layers_length, fun l member => ?_, cache.layer, cache.head, cache.channel, cache.groups⟩
  obtain ⟨l, here, rfl⟩ := List.mem_map.1 member
  obtain ⟨keyShape, valueShape⟩ := cache.shape l here
  rw [length]
  exact ⟨cut keyShape, cut valueShape⟩

theorem nonempty_data {β : Type} {a : NDArray β} {m t d : Nat} (shape : a.shape = [m, t, d])
    (head : 0 < m) (slot : 0 < t)
    (channel : 0 < d) : a.data ≠ [] := by
  have size := a.size_eq
  have cells := Nat.mul_pos head (Nat.mul_pos slot channel)
  rw [shape] at size
  simp only [List.prod_cons, List.prod_nil, Nat.mul_one] at size
  rw [← List.length_pos_iff]
  omega

namespace HFBackend

/-- What a cache says: its numbers, a word being a bfloat16, without its metadata. -/
def observed (b : HFBackend α τ Λ) : HostKV α → KVCache α
  | .float32 kv => { kv with metadata := Dict.empty }
  | .uint16 kv => { kv.mapElems b.widen with metadata := Dict.empty }

theorem observed_widened (widened : Widened b kv kv') :
    b.observed (.uint16 kv) = b.observed (.float32 kv') :=
  KVCache.ext widened.spec.symm widened.layers.symm widened.positions.symm widened.tokenIds.symm rfl

variable [Field α]

/-- What is documented of the number formats: zero bits are zero, and bits read as bfloat16 are
    the widened float. -/
structure Numbers (b : HFBackend α τ Λ) : Prop where
  zero : b.value 0 = 0
  bits : ∀ word, b.fromBits word = b.fromFloat (b.widen word)

section Decode

variable [Inhabited α]

theorem padded_whole {a : NDArray α} {phys : Nat}
    (shape : a.shape = [b.model.spec.nKvHeads, phys, b.model.spec.headDim]) :
    b.padded a phys = some (a.map b.fromFloat) := by
  have columns : a.shape.getD 1 0 = phys := by
    rw [shape]
    rfl
  rw [padded, columns]
  simp only [NDArray.assignAxis1_whole (NDArray.shape_ofFn _ _) shape, NDArray.full,
    Option.map_some]

theorem nativeBf16ToTorch_eq (numbers : b.Numbers) {a : NDArray (BitVec 16)} {phys : Nat}
    (shape : a.shape = [b.model.spec.nKvHeads, phys, b.model.spec.headDim])
    (nonempty : a.data ≠ []) :
    b.nativeBf16ToTorch a = b.padded (a.map b.widen) phys := by
  have bits : b.fromBits = b.fromFloat ∘ b.widen := funext numbers.bits
  rw [nativeBf16ToTorch, if_neg nonempty, padded_whole shape, NDArray.map_map, bits]

/-- Over a whole cache the fast path builds what the padding path builds. -/
theorem buildLayer_native (numbers : b.Numbers) (widened : Widened b kv kv')
    (cache : CacheOf b.model.spec kv)
    (slots : 0 < kv.seqLen) (li : Nat) :
    b.buildLayer (.uint16 kv) kv.seqLen li = b.buildLayer (.float32 kv') kv.seqLen li := by
  cases there : kv.layers[li]? with
  | none => simp [buildLayer, there, widened.layers]
  | some l =>
    obtain ⟨keyShape, valueShape⟩ := cache.shape l (List.mem_of_getElem? there)
    have key :=
      nativeBf16ToTorch_eq numbers keyShape (nonempty_data keyShape cache.head slots cache.channel)
    have value :=
      nativeBf16ToTorch_eq numbers valueShape
        (nonempty_data valueShape cache.head slots cache.channel)
    have columns : l.key.shape.getD 1 0 = kv.seqLen := by
      rw [keyShape]
      rfl
    have columns' : (l.key.map b.widen).shape.getD 1 0 = kv.seqLen := columns
    have rows : NDArray.full [b.model.spec.nQHeads, kv.seqLen] (b.fromFloat 0) =
      b.betaRows kv.seqLen kv.seqLen := by
      rw [betaRows, NDArray.full, cache.groups]
      apply NDArray.ofFn_congr
      intro ix inside
      match ix, inside with
      | [h, i], inside => rw [List.getD_cons_succ, List.getD_cons_zero, if_pos inside.2.1]
    have there' : kv'.layers[li]? = some (LayerKV.map b.widen l) := by
      rw [widened.layers, List.getElem?_map, there]
      rfl
    simp only [buildLayer, there, there', columns, columns', if_true, key, value, rows, LayerKV.map,
      bind, Option.bind]

theorem decodeLogits_native (numbers : b.Numbers) (widened : Widened b kv kv')
    (cache : CacheOf b.model.spec kv)
    (slots : 0 < kv.seqLen) : b.decodeLogits (.uint16 kv) = b.decodeLogits (.float32 kv') := by
  have phys : (HostKV.uint16 kv : HostKV α).seqLen = kv.seqLen := rfl
  have phys' : (HostKV.float32 kv').seqLen = kv.seqLen := congrArg List.length widened.positions
  have built : b.buildCache (.uint16 kv) kv.seqLen = b.buildCache (.float32 kv') kv.seqLen := by
    rw [buildCache, funext (buildLayer_native numbers widened cache slots), buildCache]
  funext inputIds
  simp only [decodeLogits, phys, phys', built]

/-- `frombuffer` never meets an empty buffer: there is a position, and another one where the
    last can be dropped. -/
structure Roomy (kv : KVCache (BitVec 16)) : Prop where
  slots : 0 < kv.seqLen
  boundary : kv.seqLen = 1 → kv.tokenIds = none

variable (numbers : b.Numbers) (widened : Widened b kv kv') (cache : CacheOf b.model.spec kv)
  (roomy : Roomy kv)
include numbers widened cache roomy

/-- Decoding from the last context token on. -/
theorem dropLast_native {γ : Type} (more : List Int) (f : List Λ → Option γ) :
    (dropLast (.uint16 kv) >>= fun e => b.decodeLogits e.1 (e.2 :: more) >>= f) =
      (dropLast (.float32 kv') >>= fun e => b.decodeLogits e.1 (e.2 :: more) >>= f) := by
  have positions : (HostKV.float32 kv').positions = (HostKV.uint16 kv : HostKV α).positions :=
    widened.positions
  have tokenIds : (HostKV.float32 kv').tokenIds = (HostKV.uint16 kv : HostKV α).tokenIds :=
    widened.tokenIds
  rw [dropLast, dropLast, positions, tokenIds]
  cases ids : kv.tokenIds with
  | none => simp [HostKV.tokenIds, ids]
  | some ids' =>
    have slots : 0 < (HostKV.dropLast.cut kv).seqLen := by
      have length : (HostKV.dropLast.cut kv).seqLen = kv.seqLen - 1 := List.length_dropLast
      have several : kv.seqLen ≠ 1 := fun one => by simp [roomy.boundary one] at ids
      have := roomy.slots
      omega
    have decode := decodeLogits_native numbers (widened.cut cache) cache.cut slots
    simp only [HostKV.dropLast, bind_assoc, pure_bind, decode]

theorem score_native (prompt target : List Int) :
    b.score (.uint16 kv) prompt target = b.score (.float32 kv') prompt target := by
  have decode := decodeLogits_native numbers widened cache roomy.slots
  unfold score
  split
  · rfl
  · split
    · rw [decode]
    · exact dropLast_native numbers widened cache roomy target _

theorem generateLoop_native (prompt : List Int) (pick : Nat → Λ → Int) (remaining : Nat)
    (generated : List Int) (last : Λ) :
    b.generateLoop (.uint16 kv) prompt pick remaining generated last =
      b.generateLoop (.float32 kv') prompt pick remaining generated last := by
  have decode := decodeLogits_native numbers widened cache roomy.slots
  induction remaining generalizing generated last with
  | zero => rfl
  | succ remaining ih => simp only [generateLoop, decode, ih]

theorem generate_native (prompt : List Int) (maxNewTokens : Nat) (pick : Nat → Λ → Int) :
    b.generate (.uint16 kv) prompt maxNewTokens pick = b.generate
      (.float32 kv') prompt maxNewTokens pick := by
  have decode := decodeLogits_native numbers widened cache roomy.slots
  have loop := fun remaining generated last =>
    generateLoop_native numbers widened cache roomy prompt pick remaining generated last
  unfold generate
  simp only [loop]
  split
  · rw [decode]
  · exact dropLast_native numbers widened cache roomy [] _

end Decode

theorem widen_zero (numbers : b.Numbers) : b.widen 0 = 0 := numbers.zero

theorem map_numbers (numbers : b.Numbers) {a : NDArray (BitVec 16)}
    (zeros : ∀ word ∈ a.data, word = 0) :
    a.map (fun word => (word.toNat : α)) = a.map b.widen := by
  apply NDArray.map_congr_mem
  intro word member
  rw [zeros word member, widen_zero numbers]
  exact Nat.cast_zero

section Raw

variable (numbers : b.Numbers) (widened : Widened b kv kv') (zeros : ZeroWords kv)
include numbers widened zeros

theorem rawCache_layers :
    (b.rawCache (.uint16 kv)).layers = (b.rawCache (.float32 kv')).layers := by
  simp only [rawCache, HostKV.numbers, KVCache.mapElems, widened.layers, List.map_map]
  refine List.map_congr_left fun l member => ?_
  obtain ⟨key, value⟩ := zeros l member
  simp only [Function.comp_apply, LayerKV.map, map_numbers numbers key, map_numbers numbers value]

omit numbers zeros in
theorem rawCache_tokenIds :
    (b.rawCache (.uint16 kv)).tokenIds = (b.rawCache (.float32 kv')).tokenIds :=
  widened.tokenIds.symm

omit numbers zeros in
theorem rawCache_seqLen : (b.rawCache (.uint16 kv)).seqLen = (b.rawCache (.float32 kv')).seqLen :=
  congrArg List.length widened.positions.symm

theorem extend_native (tokens : List Int) :
    b.observed (b.extend (.uint16 kv) tokens) = b.observed (b.extend (.float32 kv') tokens) := by
  unfold extend
  split
  · exact observed_widened widened
  · rename_i nonempty
    simp only [Model.extend, if_neg nonempty, buildRawCache, rawCache_layers numbers widened zeros,
      rawCache_seqLen widened, rawCache_tokenIds widened]

theorem generateAndExtend_native (prompt : List Int) (maxNewTokens : Nat) (pick : Nat → Λ → Int) :
    b.generateAndExtend (.uint16 kv) prompt maxNewTokens pick = b.generateAndExtend
      (.float32 kv') prompt maxNewTokens pick := by
  have seqLen : (HostKV.float32 kv').seqLen = (HostKV.uint16 kv : HostKV α).seqLen :=
    congrArg List.length widened.positions
  have tokenIds : (HostKV.float32 kv').tokenIds = (HostKV.uint16 kv : HostKV α).tokenIds :=
    widened.tokenIds
  simp only [generateAndExtend, rawCache_layers numbers widened zeros, seqLen, tokenIds]

theorem sessionOf_native : b.sessionOf (.uint16 kv) = b.sessionOf (.float32 kv') := by
  simp only [sessionOf, TorchKVSession.fromKVCache, buildRawCache,
    rawCache_layers numbers widened zeros,
    rawCache_tokenIds widened]

variable [Inhabited α] (cache : CacheOf b.model.spec kv) {δ : Type} [DecidableEq δ]
  (hashTokens : List Int → δ)
include cache

theorem recomputeIncremental_native (prevCtx newCtx : SegmentedContext) :
    Prod.map b.observed id (b.recomputeIncremental hashTokens (.uint16 kv) prevCtx newCtx) =
      Prod.map b.observed id (b.recomputeIncremental hashTokens (.float32 kv') prevCtx newCtx) := by
  have sliced :=
    widened.slice cache (planIncremental hashTokens (some prevCtx) newCtx .exact).reusedExactTokens
  have slicedZeros :
    ZeroWords
    (sliceKV kv (planIncremental hashTokens (some prevCtx) newCtx .exact).reusedExactTokens) := by
    intro l member
    obtain ⟨l, here, rfl⟩ := List.mem_map.1 member
    exact ⟨NDArray.forall_mem_takeAxis1 (zeros l here).1 rfl _,
      NDArray.forall_mem_takeAxis1 (zeros l here).2 rfl _⟩
  simp only [recomputeIncremental, HostKV.slice, Prod.map_apply, id]
  split
  · rw [observed_widened sliced]
  · rw [extend_native numbers sliced slicedZeros]

end Raw

/-- Half a turn of an array of zeros. -/
theorem forall_mem_rotateHalf {β : Type} [Zero β] [Neg β] {x : NDArray β}
    (zeros : ∀ y ∈ x.data, y = 0)
    (neg_zero : -(0 : β) = 0) : ∀ y ∈ (rotateHalf x).data, y = 0 := by
  have cell := fun ix => NDArray.getD_of_forall (P := fun y => y = 0) zeros rfl ix
  unfold rotateHalf
  split
  · apply NDArray.forall_mem_ofFn (P := fun y => y = 0)
    intro ix
    split
    · split
      · rw [cell, neg_zero]
      · exact cell _
    · rfl
  · exact zeros

theorem ropeRephaseKeys_native (numbers : b.Numbers) {keys : NDArray (BitVec 16)}
    (zeros : ∀ word ∈ keys.data, word = 0)
    (cos sin : List α) :
    ropeRephaseKeys (fun word : BitVec 16 => (word.toNat : α)) keys cos sin =
      ropeRephaseKeys id (keys.map b.widen) cos sin := by
  have widened : ∀ y ∈ (keys.map b.widen).data, y = 0 := by
    intro y member
    obtain ⟨word, here, rfl⟩ := List.mem_map.1 member
    rw [zeros word here, widen_zero numbers]
  have cell := fun ix => NDArray.getD_of_forall (P := fun y => y = 0) zeros rfl ix
  have cell' := fun ix => NDArray.getD_of_forall (P := fun y => y = 0) widened rfl ix
  have half :=
    fun ix => NDArray.getD_of_forall (P := fun y => y = 0) (forall_mem_rotateHalf zeros rfl) rfl ix
  have half' := fun ix =>
    NDArray.getD_of_forall (P := fun y => y = 0) (forall_mem_rotateHalf widened neg_zero) rfl ix
  rw [ropeRephaseKeys, ropeRephaseKeys, NDArray.shape_map]
  apply NDArray.ofFn_congr
  intro ix _
  match ix with
  | [] | [_] | [_, _] | _ :: _ :: _ :: _ :: _ => rfl
  | [i, j, c] =>
    simp only [cell, cell', half, half', id]
    simp

section Selective

variable [Inhabited α] (numbers : b.Numbers) (widened : Widened b kv kv') (zeros : ZeroWords kv)
  (cache : CacheOf b.model.spec kv)
include numbers

theorem reusedSlice_native {l : LayerKV (BitVec 16)} {m t d : Nat}
    (keyShape : l.key.shape = [m, t, d])
    (valueShape : l.value.shape = [m, t, d]) (keys : ∀ word ∈ l.key.data, word = 0)
    (values : ∀ word ∈ l.value.data, word = 0)
    (span : Nat × Nat) (it : SegmentPlanItem) :
    b.reusedSlice (fun word : BitVec 16 => (word.toNat : α)) l span it =
      b.reusedSlice id (LayerKV.map b.widen l) span it := by
  have slicedKeys := NDArray.forall_mem_sliceAxis1 keys rfl span.1 span.2
  have slicedValues := NDArray.forall_mem_sliceAxis1 values rfl span.1 span.2
  have same : ∀ a : NDArray α, a.map id = a := fun a => NDArray.map_eq_self fun _ _ => rfl
  unfold reusedSlice
  simp only [LayerKV.map, NDArray.sliceAxis1_map keyShape, NDArray.sliceAxis1_map valueShape,
    map_numbers numbers slicedKeys,
    map_numbers numbers slicedValues, ropeRephaseKeys_native numbers slicedKeys, same]

include widened zeros cache

theorem assembleItem_native (prevCtx : SegmentedContext) :
    b.assembleItem (fun word : BitVec 16 => (word.toNat : α)) kv.layers prevCtx =
      b.assembleItem id kv'.layers prevCtx := by
  funext layers it
  unfold assembleItem
  split
  · rfl
  · cases it.prevIndex with
    | none => rfl
    | some i =>
      cases span : prevCtx.span i with
      | none => simp only [Option.bind_eq_bind, Option.bind_some, span, Option.bind_none]
      | some lohi =>
        simp only [Option.bind_eq_bind, Option.bind_some, span]
        congr 1
        funext li
        rw [widened.layers, List.getElem?_map]
        cases there : kv.layers[li]? with
        | none => rfl
        | some l =>
          have member := List.mem_of_getElem? there
          obtain ⟨keyShape, valueShape⟩ := cache.shape l member
          have slice :=
            reusedSlice_native numbers keyShape valueShape (zeros l member).1
              (zeros l member).2 lohi it
          simp only [Option.map_some, Option.bind_some, slice]

variable {δ : Type} [DecidableEq δ] (hashTokens : List Int → δ) [LinearOrder α] [FloorRing α]
  (np : Numpy α)

theorem recomputeSelective_native (prevCtx newCtx : SegmentedContext) (frac : α) (select : String)
    (devLayers : Option Int) :
    b.recomputeSelective hashTokens np (.uint16 kv) prevCtx newCtx frac select devLayers =
      b.recomputeSelective hashTokens np (.float32 kv') prevCtx newCtx frac select devLayers := by
  have seqLen : (HostKV.float32 kv').seqLen = (HostKV.uint16 kv : HostKV α).seqLen :=
    congrArg List.length widened.positions
  have assembled : ∀ correct plan, b.assembleReused (.uint16 kv) correct plan prevCtx =
      b.assembleReused (.float32 kv') correct plan prevCtx := by
    intro correct plan
    simp only [assembleReused, assembleItem_native numbers widened zeros cache]
  simp only [recomputeSelective, assembled, seqLen]

end Selective

/-! ## Where the loads part -/

section Refused

variable [Inhabited α]

/-- Widened floats are always accepted. -/
theorem decodeLogits_widened (widened : Widened b kv kv') (cache : CacheOf b.model.spec kv)
    (inputIds : List Int) :
    (b.decodeLogits (.float32 kv') inputIds).isSome := by
  have phys : (HostKV.float32 kv').seqLen = kv.seqLen := congrArg List.length widened.positions
  have built : (b.buildCache (.float32 kv') kv.seqLen).isSome := by
    apply Fallible.mapM_isSome
    intro li member
    have inside : li < kv.layers.length := by
      rw [cache.layers_length]
      exact List.mem_range.1 member
    have there : kv'.layers[li]? = some (LayerKV.map b.widen kv.layers[li]) := by
      rw [widened.layers, List.getElem?_map, List.getElem?_eq_getElem inside]
      rfl
    obtain ⟨keyShape, valueShape⟩ := cache.shape _ (List.getElem_mem inside)
    have key : b.padded (kv.layers[li].key.map b.widen) kv.seqLen = some _ := padded_whole keyShape
    have value : b.padded (kv.layers[li].value.map b.widen) kv.seqLen = some _ :=
      padded_whole valueShape
    simp only [buildLayer, there, LayerKV.map, key, value, bind, Option.bind, pure,
      Option.isSome_some]
  obtain ⟨layers, built⟩ := Option.isSome_iff_exists.1 built
  simp only [decodeLogits, phys, built, Option.bind_eq_bind, Option.bind_some, pure,
    Option.isSome_some]

/-- An empty native cache is refused. -/
theorem decodeLogits_refused (cache : CacheOf b.model.spec kv) (empty : kv.seqLen = 0)
    (inputIds : List Int) :
    b.decodeLogits (.uint16 kv) inputIds = none := by
  have phys : (HostKV.uint16 kv : HostKV α).seqLen = 0 := empty
  obtain ⟨n, layers⟩ : ∃ n, b.model.spec.nLayers = n + 1 :=
    ⟨b.model.spec.nLayers - 1, by have := cache.layer; omega⟩
  have inside : 0 < kv.layers.length := by
    rw [cache.layers_length]
    exact cache.layer
  obtain ⟨keyShape, -⟩ := cache.shape _ (List.getElem_mem inside)
  have there := List.getElem?_eq_getElem inside
  have noData : kv.layers[0].key.data = [] := by
    have size := kv.layers[0].key.size_eq
    rw [keyShape, empty] at size
    simpa using size
  have first : b.buildLayer (.uint16 kv) 0 0 = none := by
    have columns : kv.layers[0].key.shape.getD 1 0 = 0 := by
      rw [keyShape, empty]
      rfl
    simp only [buildLayer, there, Option.bind_eq_bind, Option.bind_some, columns, if_true,
      nativeBf16ToTorch, noData,
      Option.bind_none]
  have built : b.buildCache (.uint16 kv) 0 = none := by
    rw [buildCache, layers, List.range_succ_eq_map, List.mapM_cons, first]
    rfl
  simp only [decodeLogits, phys, built, Option.bind_eq_bind, Option.bind_none]

/-- Scoring after the whole cache tells an empty one from its words. -/
theorem score_empty (widened : Widened b kv kv') (cache : CacheOf b.model.spec kv)
    (empty : kv.seqLen = 0) :
    b.score (.uint16 kv) [0] [0] ≠ b.score (.float32 kv') [0] [0] := by
  obtain ⟨logits, decodes⟩ := Option.isSome_iff_exists.1 (decodeLogits_widened widened cache [0, 0])
  simp [score, decodeLogits_refused cache empty, decodes]

/-- So does scoring from its last token on, where there is just one position. -/
theorem score_boundary (widened : Widened b kv kv') (cache : CacheOf b.model.spec kv)
    (one : kv.seqLen = 1)
    {ids : List Int} (tokens : kv.tokenIds = some ids) (nonempty : ids ≠ []) :
    b.score (.uint16 kv) [] [0] ≠ b.score (.float32 kv') [] [0] := by
  have empty : (HostKV.dropLast.cut kv).seqLen = 0 := by
    have length : (HostKV.dropLast.cut kv).seqLen = kv.seqLen - 1 := List.length_dropLast
    omega
  obtain ⟨position, single⟩ := List.length_eq_one_iff.1 one
  obtain ⟨logits, decodes⟩ :=
    Option.isSome_iff_exists.1
      (decodeLogits_widened (widened.cut cache) cache.cut (ids.getLast nonempty :: [0]))
  have words :
    dropLast (.uint16 kv : HostKV α) =
    some (.uint16 (HostKV.dropLast.cut kv), ids.getLast nonempty) := by
    simp [dropLast, HostKV.tokenIds, HostKV.positions, HostKV.dropLast, tokens, single,
      List.getLast?_eq_some_getLast nonempty]
  have floats :
    dropLast (.float32 kv') = some (.float32 (HostKV.dropLast.cut kv'), ids.getLast nonempty) := by
    simp [dropLast, HostKV.tokenIds, HostKV.positions, HostKV.dropLast, widened.tokenIds,
      widened.positions, tokens, single,
      List.getLast?_eq_some_getLast nonempty]
  simp [score, words, floats, decodeLogits_refused cache.cut empty, decodes]

end Refused

end HFBackend

/-! ## The two loads compared -/

/-- A file never says that there are no tokens: it has some, or does not know them. -/
theorem readBlob_tokenIds (bytes : List UInt8) : ∀ raw, readBlob bytes = some raw →
    raw.kv.tokenIds ≠ some [] := by
  unfold readBlob
  apply Fallible.forall_of_bind
  intro header
  -- the lookups of the header's fields, up to the shape
  iterate 11 refine Fallible.forall_of_bind fun _ => ?_
  split
  · iterate 8 refine Fallible.forall_of_bind fun _ => ?_
    rintro raw ⟨⟩
    dsimp only
    split
    · exact Option.some_ne_none _ |>.symm
    · rename_i known
      exact fun same => known (Option.some.inj same)
  · intro raw none
    cases none

/-- The saves of a native load are those of the default one just for zero words. -/
theorem save_native (raw : KVCache (BitVec 16)) :
    (∀ dtype, encodedLayers dtype (nativeScalars raw) = encodedLayers dtype (widenedScalars raw)) ↔
      ZeroWords raw := by
  have elements : ∀ dtype (f : BitVec 16 → Scalar), encodedLayers dtype (raw.mapElems f) =
      raw.layers.map (LayerKV.map fun word => encode dtype (f word)) := by
    intro dtype f
    rw [encodedLayers, KVCache.mapElems, List.map_map]
    refine List.map_congr_left fun l _ => ?_
    simp only [Function.comp_apply, LayerKV.map, NDArray.map_map]
    rfl
  have native : ∀ dtype, encodedLayers dtype (nativeScalars raw) = encodedLayers dtype
    (raw.mapElems .uint16) := fun _ => rfl
  simp only [native, widenedScalars, elements]
  constructor
  · intro same l member
    have layer := List.map_inj_left.1 (same .float32) l member
    have zero : ∀ {a : NDArray (BitVec 16)}, a.map (fun word => encode .float32 (.uint16 word)) =
        a.map (fun word => encode .float32 (.float32 (bf16ToFloat word))) → ∀ word ∈ a.data,
          word = 0 := by
      intro a same word inside
      exact uint16ToFloat_eq_bf16ToFloat.1
        (List.map_inj_left.1 (congrArg NDArray.data same) word inside)
    exact ⟨zero (congrArg LayerKV.key layer), zero (congrArg LayerKV.value layer)⟩
  · intro zeros dtype
    have zero : ∀ {a : NDArray (BitVec 16)}, (∀ word ∈ a.data, word = 0) →
      a.map (fun word => encode dtype (.uint16 word)) =
        a.map (fun word => encode dtype (.float32 (bf16ToFloat word))) := by
      intro a zeros
      apply NDArray.map_congr_mem
      intro word inside
      have same :
        Scalar.asFloat32 (.uint16 word) = Scalar.asFloat32 (.float32 (bf16ToFloat word)) :=
        uint16ToFloat_eq_bf16ToFloat.2 (zeros word inside)
      cases dtype with
      | float32 => exact same
      | float16 => exact congrArg floatToHalf same
      | bfloat16 => exact congrArg floatToBf16 same
    refine List.map_congr_left fun l member => ?_
    simp only [LayerKV.map, zero (zeros l member).1, zero (zeros l member).2]

section Loads

variable [Inhabited α] [Field α] [LinearOrder α] [FloorRing α] {δ : Type} [DecidableEq δ]

/-- The native load of a file serves every operation as the default load does. -/
structure Interchangeable (b : HFBackend α τ Λ) (np : Numpy α) (hashTokens : List Int → δ)
    (raw : KVCache (BitVec 16)) :
    Prop where
  score : ∀ prompt target, b.score (.uint16 (nativeArrays raw)) prompt target = b.score
    (.float32 (raw.mapElems b.widen)) prompt target
  generate : ∀ prompt maxNewTokens pick,
    b.generate (.uint16 (nativeArrays raw)) prompt maxNewTokens pick =
    b.generate (.float32 (raw.mapElems b.widen)) prompt maxNewTokens pick
  extend : ∀ tokens, b.observed (b.extend (.uint16 (nativeArrays raw)) tokens) =
    b.observed (b.extend (.float32 (raw.mapElems b.widen)) tokens)
  generateAndExtend : ∀ prompt maxNewTokens pick,
    (b.generateAndExtend (.uint16 (nativeArrays raw)) prompt maxNewTokens pick).map
      (Prod.map id b.observed) =
      (b.generateAndExtend (.float32 (raw.mapElems b.widen)) prompt maxNewTokens pick).map
        (Prod.map id b.observed)
  recomputeIncremental : ∀ prevCtx newCtx,
    Prod.map b.observed id
      (b.recomputeIncremental hashTokens (.uint16 (nativeArrays raw)) prevCtx newCtx) =
      Prod.map b.observed id
        (b.recomputeIncremental hashTokens (.float32 (raw.mapElems b.widen)) prevCtx newCtx)
  recomputeSelective : ∀ prevCtx newCtx frac select devLayers,
    (b.recomputeSelective hashTokens np
      (.uint16 (nativeArrays raw)) prevCtx newCtx frac select devLayers).map
        (Prod.map b.observed id) =
      (b.recomputeSelective hashTokens np
        (.float32 (raw.mapElems b.widen)) prevCtx newCtx frac select devLayers).map
        (Prod.map b.observed id)
  fromKVCache :
    b.sessionOf (.uint16 (nativeArrays raw)) = b.sessionOf (.float32 (raw.mapElems b.widen))
  save : ∀ dtype, encodedLayers dtype (nativeScalars raw) = encodedLayers dtype (widenedScalars raw)

open HFBackend

/-- The two loads of a bfloat16 file are interchangeable just where its words are all zero and
    decoding never meets an empty array. -/
theorem native_load_interchangeable_iff {b : HFBackend α τ Λ} (numbers : b.Numbers) (np : Numpy α)
    (hashTokens : List Int → δ)
    {bytes : List UInt8} {raw : KVCache (BitVec 16)}
    (stored : readBlob bytes = some ⟨.bfloat16, raw⟩)
    (cache : CacheOf b.model.spec raw) :
    loadKVCacheBlob true bytes = some (nativeScalars raw) ∧
      loadKVCacheBlob false bytes = some (widenedScalars raw) ∧
      (Interchangeable b np hashTokens raw ↔ ZeroWords raw ∧ Roomy raw) := by
  have widened : Widened b (nativeArrays raw) (raw.mapElems b.widen) := widened_loads raw
  have nativeCache : CacheOf b.model.spec (nativeArrays raw) :=
    ⟨cache.layers_length, cache.shape, cache.layer, cache.head, cache.channel, cache.groups⟩
  obtain ⟨native, default⟩ := loads_of_readBlob stored
  refine ⟨native, default, ?_⟩
  constructor
  · intro same
    refine ⟨(save_native raw).1 same.save, ?_, ?_⟩
    · by_contra empty
      exact score_empty widened nativeCache (Nat.eq_zero_of_not_pos empty) (same.score [0] [0])
    · intro one
      by_contra known
      obtain ⟨ids, tokens⟩ := Option.ne_none_iff_exists'.1 known
      have nonempty : ids ≠ [] := fun none => readBlob_tokenIds bytes _ stored (none ▸ tokens)
      exact score_boundary widened nativeCache one tokens nonempty (same.score [] [0])
  · rintro ⟨zeros, roomy⟩
    have nativeRoomy : Roomy (nativeArrays raw) := ⟨roomy.slots, roomy.boundary⟩
    exact
      { score := score_native numbers widened nativeCache nativeRoomy
        generate := generate_native numbers widened nativeCache nativeRoomy
        extend := extend_native numbers widened zeros
        generateAndExtend := fun prompt maxNewTokens pick =>
          congrArg _ (generateAndExtend_native numbers widened zeros prompt maxNewTokens pick)
        recomputeIncremental :=
          recomputeIncremental_native numbers widened zeros nativeCache hashTokens
        recomputeSelective := fun prevCtx newCtx frac select devLayers =>
          congrArg _
            (recomputeSelective_native numbers widened zeros nativeCache hashTokens np prevCtx newCtx frac select devLayers)
        fromKVCache := sessionOf_native numbers widened zeros
        save := (save_native raw).2 zeros }

end Loads

/-! ## One cell -/

/-- The number of a finite single. -/
def finiteValue (bits : BitVec 32) : ℚ :=
  let exponent := exponentOf bits
  let mantissa := if exponent = 0 then mantissaOf bits else 2 ^ 23 + mantissaOf bits
  (-1) ^ signOf bits * mantissa * 2 ^ ((max exponent 1 : Int) - 150)

/-- A layer whose key and value of a token are its id. -/
def fakeModel : Model ℚ where
  spec := oneCell.spec
  kvForward past _ tokenIds :=
    let row (old : Option (NDArray ℚ)) : NDArray ℚ :=
      let cells := old.elim [] NDArray.data ++ tokenIds.map fun (t : Int) => (t : ℚ)
      ⟨[1, cells.length, 1], cells, by simp⟩
    let layer := past.bind List.head?
    [⟨row (layer.map LayerKV.key), row (layer.map LayerKV.value)⟩]

/-- Its logits add the values of the cache to the token. -/
def fakeBackend : HFBackend ℚ ℚ ℚ where
  model := fakeModel
  fromFloat := id
  fromBits := fun word => finiteValue (bf16ToFloat word)
  toFloat := id
  value := finiteValue
  negInf := -(2 ^ 128 - 2 ^ 104)
  decode layers _ _ _ inputIds :=
    inputIds.map fun t => (layers.flatMap fun l => l.value.data).sum + t
  step layers positionIds inputIds :=
    (inputIds.map fun t => (layers.flatMap fun l => l.value.data).sum + t,
      fakeModel.kvForward (some layers) positionIds inputIds)
  logProb logit t := logit - t
  rephaseCosSin _ := ([1], [0])

theorem fakeBackend_numbers : fakeBackend.Numbers :=
  ⟨by decide +kernel, fun _ => rfl⟩

def fakeNumpy : Numpy ℚ where
  sqrt x := (Nat.sqrt (x.num.toNat * x.den) : ℚ) / x.den
  argsort l := (List.range l.length).mergeSort fun i j => decide (l.getD i ⊥ ≤ l.getD j ⊥)

/-- A cell of zeros, of an unknown token. -/
def zeroCell : KVCache Scalar :=
  { oneCell with layers := [⟨⟨[1, 1, 1], [.float32 0], rfl⟩, ⟨[1, 1, 1], [.float32 0], rfl⟩⟩], tokenIds := none }

/-- The words of a file. -/
def storedWords (kv : KVCache Scalar) : KVCache (BitVec 16) := kv.mapElems (encode .bfloat16)

theorem savable_zeroCell : Savable zeroCell [1, 1, 1] where
  dims := rfl
  nonempty := by simp [zeroCell]
  cells := by simp
  key_shape := by simp [zeroCell]
  value_shape := by simp [zeroCell]
  tokens := by simp [zeroCell]
  metadata := savable_oneCell.metadata

theorem readBlob_cells :
    (∃ file, saveKVCacheBlob "auto" oneCell = some file ∧
      readBlob file = some ⟨.bfloat16, storedWords oneCell⟩) ∧
      ∃ file, saveKVCacheBlob "auto" zeroCell = some file ∧
        readBlob file = some ⟨.bfloat16, storedWords zeroCell⟩ := by
  have resolved : resolvePrecision "auto" "bf16" = some .bfloat16 := by decide
  have fits : (utf8Encode (JsonValue.dict (header .bfloat16 [1, 1, 1] oneCell)).dumps).length <
    256 ^ 8 := by decide +kernel
  have fits' : (utf8Encode (JsonValue.dict (header .bfloat16 [1, 1, 1] zeroCell)).dumps).length <
    256 ^ 8 := by decide +kernel
  exact ⟨⟨_, savable_oneCell.saveKVCacheBlob .bfloat16 resolved fits,
    savable_oneCell.readBlob .bfloat16 fits⟩,
    ⟨_, savable_zeroCell.saveKVCacheBlob .bfloat16 resolved fits',
      savable_zeroCell.readBlob .bfloat16 fits'⟩⟩

theorem cacheOf_cells : CacheOf fakeModel.spec (storedWords oneCell) ∧
    CacheOf fakeModel.spec (storedWords zeroCell) := by
  constructor
  all_goals
    refine ⟨rfl, fun l member => ?_, by decide, by decide, by decide, by decide⟩
    rw [List.mem_singleton.1 member]
    exact ⟨rfl, rfl⟩

theorem zeroWords_zeroCell : ZeroWords (storedWords zeroCell) := by
  have zero : floatToBf16 0 = 0 := by decide
  intro l member
  rw [List.mem_singleton.1 member]
  exact ⟨fun word inside => (List.mem_singleton.1 inside).trans zero,
    fun word inside => (List.mem_singleton.1 inside).trans zero⟩

theorem native_load_interchangeable_iff_zeroCell :
    ∃ file, saveKVCacheBlob "auto" zeroCell = some file ∧
      loadKVCacheBlob true file = some (nativeScalars (storedWords zeroCell)) ∧
      Interchangeable fakeBackend fakeNumpy (id : List Int → List Int) (storedWords zeroCell) := by
  obtain ⟨-, file, saved, stored⟩ := readBlob_cells
  obtain ⟨native, -, same⟩ :=
    native_load_interchangeable_iff fakeBackend_numbers fakeNumpy (id : List Int → List Int) stored
    cacheOf_cells.2
  exact ⟨file, saved, native, same.2 ⟨zeroWords_zeroCell, by decide, fun _ => rfl⟩⟩

/-- The word of `1.0` is read as 16256. -/
theorem native_load_not_interchangeable :
    ∃ file, saveKVCacheBlob "auto" oneCell = some file ∧
      loadKVCacheBlob true file = some (nativeScalars (storedWords oneCell)) ∧
      loadKVCacheBlob false file = some oneCell ∧
      ((fakeBackend.observed
        (fakeBackend.extend (.uint16 (nativeArrays (storedWords oneCell))) [2])).layers.map
        fun l => l.key.data) = [[16256, 2]] ∧
      ((fakeBackend.observed
        (fakeBackend.extend
        (.float32 ((storedWords oneCell).mapElems fakeBackend.widen)) [2])).layers.map
        fun l => l.key.data) = [[1, 2]] ∧
      ¬ Interchangeable fakeBackend fakeNumpy (id : List Int → List Int) (storedWords oneCell) := by
  obtain ⟨⟨file, saved, stored⟩, -⟩ := readBlob_cells
  obtain ⟨native, default⟩ := loads_of_readBlob stored
  have words :
    ((fakeBackend.observed
    (fakeBackend.extend (.uint16 (nativeArrays (storedWords oneCell))) [2])).layers.map
      fun l => l.key.data) = [[16256, 2]] := by decide +kernel
  have floats : ((fakeBackend.observed
      (fakeBackend.extend
        (.float32 ((storedWords oneCell).mapElems fakeBackend.widen)) [2])).layers.map
      fun l => l.key.data) = [[1, 2]] := by decide +kernel
  refine ⟨file, saved, native, default, words, floats, fun same => ?_⟩
  rw [same.extend [2], floats] at words
  exact absurd words (by decide +kernel)

end Dexa.Engine
