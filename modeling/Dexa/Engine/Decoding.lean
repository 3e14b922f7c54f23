import Dexa.Engine.TorchSession
import Dexa.Lib.Floats
import Dexa.Segments.Selective

/-! # Decoding against a cache (`dexa/engine/hf_backend.py`)

A cache on the host is in numpy arrays, of `float32` or of `uint16` words that stand for
`bfloat16`, and on the device in the model's own type.  `_build_cache` tells the two host types
apart; `_build_raw_cache` and a numpy assignment convert elements as numbers.  The model's
forward passes are parameters of the backend.  Only raw caches are decoded against here; `none`
is an exception.
-/

namespace Dexa.Engine

open Dexa.Core Dexa.Lib Dexa.Segments

variable {α τ Λ : Type} [Inhabited α] [Field α]

/-- A raw cache on the host: all its arrays have one element type. -/
inductive HostKV (α : Type) where
  | float32 (kv : KVCache α)
  | uint16 (kv : KVCache (BitVec 16))

namespace HostKV

def positions : HostKV α → List Int
  | .float32 kv => kv.positions
  | .uint16 kv => kv.positions

def tokenIds : HostKV α → Option (List Int)
  | .float32 kv => kv.tokenIds
  | .uint16 kv => kv.tokenIds

def seqLen (kv : HostKV α) : Nat := kv.positions.length

/-- The elements as numpy converts them to floats: a word counts as an integer. -/
def numbers : HostKV α → KVCache α
  | .float32 kv => kv
  | .uint16 kv => kv.mapElems fun word => (word.toNat : α)

/-- `_slice_kv`. -/
def slice (n : Nat) : HostKV α → HostKV α
  | .float32 kv => .float32 (sliceKV kv n)
  | .uint16 kv => .uint16 (sliceKV kv n)

/-- The layers, positions and tokens of `_drop_last`. -/
def dropLast (kv : HostKV α) : HostKV α :=
  match kv with
  | .float32 kv => .float32 (cut kv)
  | .uint16 kv => .uint16 (cut kv)
where
  cut {β : Type} [Inhabited β] (kv : KVCache β) : KVCache β :=
    { spec := kv.spec
      layers := kv.layers.map fun l =>
        ⟨l.key.takeAxis1 (l.key.shape.getD 1 0 - 1), l.value.takeAxis1 (l.value.shape.getD 1 0 - 1)⟩
      positions := kv.positions.dropLast
      tokenIds := kv.tokenIds.map List.dropLast }

end HostKV

structure HFBackend (α τ Λ : Type) where
  model : Model τ
  /-- `torch.from_numpy` of floats, moved to the device -/
  fromFloat : α → τ
  /-- 16 bits read as `bfloat16`, moved to the device -/
  fromBits : BitVec 16 → τ
  /-- back to a numpy float -/
  toFloat : τ → α
  /-- the number that the bits of a `float32` stand for -/
  value : BitVec 32 → α
  /-- `_neg`, the bias of a slot that is not attended to -/
  negInf : α
  /-- logits of the new tokens over a cache with biases per layer, an additive mask and position
      ids -/
  decode : List (LayerKV τ) → List (NDArray τ) → NDArray α → List Int → List Int → List Λ
  /-- logits of the new tokens over a cache, and the cache after them -/
  step : List (LayerKV τ) → List Int → List Int → List Λ × List (LayerKV τ)
  /-- `log_softmax` at a token -/
  logProb : Λ → Int → α
  /-- the cosines and sines of a rotation by a position delta -/
  rephaseCosSin : Int → List α × List α

namespace HFBackend

variable (b : HFBackend α τ Λ)

/-- `_bf16_bits_to_f32`, the number of the result. -/
def widen (word : BitVec 16) : α := b.value (bf16ToFloat word)

/-- A device cache as `_cache_to_kvcache` hands it out. -/
def toHost (kv : KVCache τ) : KVCache α := kv.mapElems b.toFloat

/-- `_build_raw_cache`. -/
def rawCache (kv : HostKV α) : KVCache τ := kv.numbers.mapElems b.fromFloat

def prefill (tokenIds : List Int) : KVCache α := b.toHost (b.model.prefill tokenIds)

/-- `_native_bf16_to_torch`; `frombuffer` refuses an empty buffer. -/
def nativeBf16ToTorch (a : NDArray (BitVec 16)) : Option (NDArray τ) :=
  if a.data = [] then none else some (a.map b.fromBits)

/-- An array of `phys` slots on each head, the leading ones those of `a`. -/
def padded (a : NDArray α) (phys : Nat) : Option (NDArray τ) :=
  let spec := b.model.spec
  let empty := NDArray.full [spec.nKvHeads, phys, spec.headDim] 0
  (empty.assignAxis1 0 (a.shape.getD 1 0) a).map (NDArray.map b.fromFloat)

/-- The biases of a layer with `t` kept slots, a row for each query head. -/
def betaRows (t phys : Nat) : NDArray τ :=
  let spec := b.model.spec
  NDArray.ofFn [spec.nKvHeads * spec.groupSize, phys]
    fun ix => b.fromFloat (if ix.getD 1 0 < t then 0 else b.negInf)

/-- One layer of `_build_cache`: its device arrays and its biases. -/
def buildLayer (kv : HostKV α) (phys li : Nat) : Option (LayerKV τ × NDArray τ) := do
  match kv with
  | .uint16 kv =>
    let lk ← kv.layers[li]?
    let t := lk.key.shape.getD 1 0
    if t = phys then
      return (⟨← b.nativeBf16ToTorch lk.key, ← b.nativeBf16ToTorch lk.value⟩,
        NDArray.full [b.model.spec.nQHeads, phys] (b.fromFloat 0))
    else
      return (⟨← b.padded (lk.key.map b.widen) phys, ← b.padded (lk.value.map b.widen) phys⟩,
        b.betaRows t phys)
  | .float32 kv =>
    let lk ← kv.layers[li]?
    return (⟨← b.padded lk.key phys, ← b.padded lk.value phys⟩,
      b.betaRows (lk.key.shape.getD 1 0) phys)

/-- `_build_cache`. -/
def buildCache (kv : HostKV α) (phys : Nat) : Option (List (LayerKV τ × NDArray τ)) :=
  (List.range b.model.spec.nLayers).mapM (b.buildLayer kv phys)

/-- The additive mask: a new token attends to the cache and to the new tokens up to itself. -/
def attentionMask (phys qLen : Nat) : NDArray α :=
  NDArray.ofFn [qLen, phys + qLen] fun ix => if ix.getD 0 0 + phys < ix.getD 1 0 then b.negInf
    else 0

/-- `_decode_logits`. -/
def decodeLogits (kv : HostKV α) (inputIds : List Int) : Option (List Λ) := do
  let phys := kv.seqLen
  let built ← b.buildCache kv phys
  let positionIds := arange phys (phys + inputIds.length)
  return b.decode (built.map Prod.fst) (built.map Prod.snd)
    (b.attentionMask phys inputIds.length) positionIds inputIds

/-- `_drop_last`: the context without its last position, and the token there. -/
def dropLast (kv : HostKV α) : Option (HostKV α × Int) := do
  let last ← (← kv.tokenIds).getLast?
  let _ ← kv.positions.getLast?
  return (kv.dropLast, last)

/-- `score`: the log-probabilities of the targets. -/
def score (kv : HostKV α) (promptTokenIds targetTokenIds : List Int) : Option (List α) := do
  if targetTokenIds = [] then return []
  let pred ← if promptTokenIds ≠ [] then do
      let logits ← b.decodeLogits kv (promptTokenIds ++ targetTokenIds)
      pure ((logits.drop (promptTokenIds.length - 1)).take targetTokenIds.length)
    else do
      let (rest, last) ← dropLast kv
      let logits ← b.decodeLogits rest (last :: targetTokenIds)
      pure (logits.take targetTokenIds.length)
  return List.zipWith b.logProb pred targetTokenIds

/-- The decoding loop, `remaining` tokens from the end; `pick k` chooses token `k` (the
    arg-max, or a draw). -/
def generateLoop (kv : HostKV α) (promptTokenIds : List Int) (pick : Nat → Λ → Int) :
    Nat → List Int → Λ → Option (List Int)
  | 0, generated, _ => some generated
  | remaining + 1, generated, lastLogit => do
    let generated := generated ++ [pick generated.length lastLogit]
    if remaining = 0 then return generated
    let logits ← b.decodeLogits kv (promptTokenIds ++ generated)
    generateLoop kv promptTokenIds pick remaining generated (← logits.getLast?)

/-- `generate`; with an empty prompt the first logits are those of the last context token. -/
def generate (kv : HostKV α) (promptTokenIds : List Int) (maxNewTokens : Nat)
    (pick : Nat → Λ → Int) :
    Option (List Int) := do
  let logits ← if promptTokenIds ≠ [] then b.decodeLogits kv promptTokenIds
    else do
      let (rest, last) ← dropLast kv
      b.decodeLogits rest [last]
  b.generateLoop kv promptTokenIds pick maxNewTokens [] (← logits.getLast?)

def extend (kv : HostKV α) (tokenIds : List Int) : HostKV α :=
  if tokenIds = [] then kv else .float32 (b.toHost (b.model.extend (b.rawCache kv) tokenIds))

/-- The loop of `generate_and_extend`: the tokens so far and the cache that holds them. -/
def extendLoop (pick : Nat → Λ → Int) : Nat → Nat → List Int → Λ → List (LayerKV τ) →
    Option (List Int × List (LayerKV τ))
  | 0, _, generated, _, cache => some (generated, cache)
  | remaining + 1, cur, generated, last, cache => do
    let nxt := pick generated.length last
    let (logits, cache) := b.step cache [(cur : Int)] [nxt]
    extendLoop pick remaining (cur + 1) (generated ++ [nxt]) (← logits.getLast?) cache

def generateAndExtend (kv : HostKV α) (promptTokenIds : List Int) (maxNewTokens : Nat)
    (pick : Nat → Λ → Int) :
    Option (List Int × HostKV α) := do
  let start := kv.seqLen
  let cur := start + promptTokenIds.length
  let (logits, cache) := b.step (b.rawCache kv).layers (arange start cur) promptTokenIds
  let (generated, cache) ← b.extendLoop pick maxNewTokens cur [] (← logits.getLast?) cache
  let tokens := kv.tokenIds.getD [] ++ promptTokenIds ++ generated
  return (generated,
    .float32 (b.toHost (b.model.cacheToKVCache cache (arange 0 (cur + generated.length)) tokens)))

section Recompute

variable {δ : Type} [DecidableEq δ] (hashTokens : List Int → δ)

def recomputeIncremental (prevKV : HostKV α) (prevCtx newCtx : SegmentedContext) :
    HostKV α × RecomputeStats :=
  let reused := (planIncremental hashTokens (some prevCtx) newCtx .exact).reusedExactTokens
  let newTokens := newCtx.tokenIds
  let base := prevKV.slice reused
  let tail := newTokens.drop reused
  let kv := if tail = [] then base else b.extend base tail
  (kv, { totalTokens := newTokens.length
         reusedTokens := reused
         recomputedTokens := tail.length
         recomputeFraction := if newTokens = [] then 0 else (tail.length : ℚ) / newTokens.length })

/-- What a previous layer gives to a segment: its slice, with the keys rotated where the
    segment has moved. -/
def reusedSlice {β : Type} [Inhabited β] [Zero β] [Neg β] (number : β → α) (prev : LayerKV β)
    (span : Nat × Nat)
    (it : SegmentPlanItem) : LayerKV α :=
  let key := prev.key.sliceAxis1 span.1 span.2
  let value := (prev.value.sliceAxis1 span.1 span.2).map number
  if it.action = .reuseShifted then
    let (cos, sin) := b.rephaseCosSin it.positionShift
    ⟨ropeRephaseKeys number key cos sin, value⟩
  else ⟨key.map number, value⟩

/-- One item of the loop in `_assemble_reused`. -/
def assembleItem {β : Type} [Inhabited β] [Zero β] [Neg β] (number : β → α)
    (prev : List (LayerKV β)) (prevCtx : SegmentedContext)
    (layers : List (LayerKV α)) (it : SegmentPlanItem) : Option (List (LayerKV α)) :=
  if it.action = .recompute then some layers
  else do
    let span ← prevCtx.span (← it.prevIndex)
    (List.range b.model.spec.nLayers).mapM fun li => do
      let layer ← layers[li]?
      let slice := b.reusedSlice number (← prev[li]?) span it
      return ⟨← layer.key.assignAxis1 it.newSpan.1 it.newSpan.2 slice.key,
        ← layer.value.assignAxis1 it.newSpan.1 it.newSpan.2 slice.value⟩

/-- `_assemble_reused`. -/
def assembleReused (prevKV : HostKV α) (correct : KVCache α) (plan : RecomputePlan)
    (prevCtx : SegmentedContext) :
    Option (KVCache α) := do
  let layers ← match prevKV with
    | .float32 kv => plan.items.foldlM (b.assembleItem id kv.layers prevCtx) correct.layers
    | .uint16 kv => plan.items.foldlM (b.assembleItem
        (fun word => (word.toNat : α)) kv.layers prevCtx) correct.layers
  return { spec := b.model.spec, layers, positions := correct.positions, tokenIds := correct.tokenIds }

structure SelectiveStats where
  totalTokens : Nat
  mandatoryRecompute : Nat
  candidateTokens : Nat
  selectedFromCandidates : Nat
  recomputedTokens : Nat
  recomputeFraction : ℚ
  select : String
  lengthChanged : Bool
  deriving DecidableEq

/-- The positions of the segments with this action. -/
def positionsOf (action : Action) (plan : RecomputePlan) : List Nat :=
  (plan.items.filter fun it => it.action = action).flatMap fun it =>
    List.range' it.newSpan.1 (it.newSpan.2 - it.newSpan.1)

variable [LinearOrder α] [FloorRing α]

/-- The deviations over the hull `lo..last` of the candidates; the other positions of the hull are
    masked. -/
def maskedDeviation (np : Numpy α) (reused correct : KVCache α) (candidate : List Nat)
    (lo last : Nat) (devLayers : Option Int) :
    List (WithBot α) :=
  (perTokenKvDeviation np reused correct lo (last + 1) devLayers).zipIdx.map fun (d, i) =>
    if lo + i ∈ candidate then (d : WithBot α) else ⊥

/-- The candidates to recompute, scored over their hull. -/
def selectCandidates (np : Numpy α) (reused correct : KVCache α) (candidate : List Nat)
    (recomputeFrac : α) (select : String)
    (devLayers : Option Int) : Option (List Nat) :=
  match candidate.min?, candidate.max? with
  | some lo, some last =>
    hkvdSelect np
      (maskedDeviation np reused correct candidate lo last devLayers) recomputeFrac lo select
  | _, _ => some []

def recomputeSelective (np : Numpy α) (prevKV : HostKV α) (prevCtx newCtx : SegmentedContext)
    (recomputeFrac : α)
    (select : String) (devLayers : Option Int) : Option (HostKV α × SelectiveStats) := do
  let plan := planIncremental hashTokens (some prevCtx) newCtx .selective
  let mandatory := positionsOf .recompute plan
  let candidate := positionsOf .reuseShifted plan
  let correct := b.prefill newCtx.tokenIds
  let reused ← b.assembleReused prevKV correct plan prevCtx
  let sel ← selectCandidates np reused correct candidate recomputeFrac select devLayers
  let recomputeIdx := ((mandatory ++ sel).mergeSort fun i j => decide (i ≤ j)).dedup
  let n := newCtx.nTokens
  return (.float32 (blendKV reused correct recomputeIdx),
    { totalTokens := n
      mandatoryRecompute := mandatory.length
      candidateTokens := candidate.length
      selectedFromCandidates := sel.length
      recomputedTokens := recomputeIdx.length
      recomputeFraction := if n = 0 then 0 else (recomputeIdx.length : ℚ) / n
      select := select
      lengthChanged := prevKV.seqLen ≠ n })

end Recompute

/-- `TorchKVSession.from_kvcache`. -/
def sessionOf (kv : HostKV α) : TorchKVSession τ := .fromKVCache (b.rawCache kv)

/-! ## Decoding from a session

A forward pass writes into the `DynamicCache` object it is given, so the objects of the device are
kept apart from the sessions that refer to them. -/

/-- A pass over cache object `i`, which then holds the new tokens too. -/
def forwardOn (caches : List (List (LayerKV τ))) (i : Nat) (positionIds tokenIds : List Int) :
    Option (List Λ × List (List (LayerKV τ))) := do
  let (logits, layers) := b.step (← caches[i]?) positionIds tokenIds
  return (logits, caches.set i layers)

/-- The loop of `TorchKVSession.greedy`, over cache object `i`. -/
def greedyLoop (i : Nat) (pick : Nat → Λ → Int) : Nat → Nat → List Int → Λ →
    List (List (LayerKV τ)) →
    Option (List Int × List (List (LayerKV τ)))
  | 0, _, generated, _, caches => some (generated, caches)
  | remaining + 1, cur, generated, last, caches => do
    let nxt := pick generated.length last
    let (logits, caches) ← b.forwardOn caches i [(cur : Int)] [nxt]
    greedyLoop i pick remaining (cur + 1) (generated ++ [nxt]) (← logits.getLast?) caches

/-- `TorchKVSession.greedy` of a session with cache object `cache`: the tokens, and the objects of
    the device after the call. -/
def sessionGreedy [Inhabited τ] (caches : List (List (LayerKV τ))) (cache : Option Nat)
    (tokenIds : List Int) (maxNewTokens : Nat)
    (pick : Nat → Λ → Int) : Option (List Int × List (List (LayerKV τ))) := do
  let layers ← caches[← cache]?
  let cur := tokenIds.length
  let lastTok ← tokenIds.getLast?
  -- a copy of the cache, truncated by one
  let copy := caches.length
  let caches := caches ++ [layers.map fun l =>
    ⟨l.key.takeAxis1 (l.key.shape.getD 1 0 - 1), l.value.takeAxis1 (l.value.shape.getD 1 0 - 1)⟩]
  let (logits, caches) ← b.forwardOn caches copy [(cur : Int) - 1] [lastTok]
  b.greedyLoop copy pick maxNewTokens cur [] (← logits.getLast?) caches

end HFBackend

end Dexa.Engine
