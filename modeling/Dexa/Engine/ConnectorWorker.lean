import Dexa.Engine.PagedBlocks

/-! # The connector's worker side (`dexa/engine/vllm_connector.py`)

A worker holds one paged KV tensor per layer.  Saving gathers a request's blocks from
every layer while the layers stream by, and stores one cache; loading packs a stored
cache into blocks of this worker's size and scatters them into a block table.

Elements have three representations: in the paged tensors (`τ`), on the host (`α`)
and in the store (`β`).  The conversions are a parameter (`Codec`).
-/

namespace Dexa.Engine

open Dexa.Core Dexa.Lib

structure HFConfig where
  numAttentionHeads : Option Nat
  hiddenSize : Option Nat
  deriving DecidableEq, Repr

structure VllmModelConfig where
  model : String
  dtype : String
  hf : Option HFConfig
  deriving DecidableEq, Repr

/-- The first KV-cache group. -/
structure KVCacheGroup where
  numKvHeads : Nat
  headSize : Nat
  layerNames : List String
  deriving DecidableEq, Repr

structure VllmConfig where
  blockSize : Nat
  modelConfig : Option VllmModelConfig
  group : KVCacheGroup
  deriving DecidableEq, Repr

/-- Python's `sub in s`. -/
def contains (sub s : String) : Bool :=
  s.toList.tails.any fun suffix => sub.toList.isPrefixOf suffix

/-- `_torch_dtype_name`. -/
def torchDtypeName (dt : String) : String :=
  if contains "bfloat16" dt then "bfloat16"
  else if contains "float16" dt || contains "half" dt then "float16"
  else "float32"

/-- `_spec`. -/
def VllmConfig.spec (cfg : VllmConfig) : ModelSpec :=
  let hf := cfg.modelConfig.bind VllmModelConfig.hf
  let nQHeads := (hf.bind HFConfig.numAttentionHeads).getD cfg.group.numKvHeads
  let name := (cfg.modelConfig.map VllmModelConfig.model).getD ""
  { name := if name = "" then "vllm-model" else name
    nLayers := cfg.group.layerNames.length
    nQHeads := nQHeads
    nKvHeads := cfg.group.numKvHeads
    headDim := cfg.group.headSize
    hiddenSize := (hf.bind HFConfig.hiddenSize).getD (nQHeads * cfg.group.headSize)
    dtype := torchDtypeName ((cfg.modelConfig.map VllmModelConfig.dtype).getD "None") }

inductive StoreDtype where
  | float32
  | float16
  | bfloat16
  deriving DecidableEq, Repr

def StoreDtype.tag : StoreDtype → String
  | .float32 => "float32"
  | .float16 => "float16"
  | .bfloat16 => "bfloat16"

/-- `_DTYPE_ALIASES`. -/
def dtypeAliases : List (String × StoreDtype) :=
  [("float32", .float32), ("fp32", .float32), ("torch.float32", .float32),
   ("float16", .float16), ("fp16", .float16), ("half", .float16), ("torch.float16", .float16),
   ("bfloat16", .bfloat16), ("bf16", .bfloat16), ("torch.bfloat16", .bfloat16)]

def lower (s : String) : String := String.ofList (s.toList.map Char.toLower)

/-- `_resolve_store_dtype("auto", spec_dtype)`. -/
def resolveStoreDtype (specDtype : String) : Option StoreDtype :=
  Dict.lookup (lower specDtype) dtypeAliases

/-- Every dtype a worker's spec can carry has a storage dtype. -/
theorem resolveStoreDtype_torchDtypeName (dt : String) :
    ∃ dtype, resolveStoreDtype (torchDtypeName dt) = some dtype := by
  unfold torchDtypeName
  split
  · exact ⟨.bfloat16, by decide⟩
  · split
    · exact ⟨.float16, by decide⟩
    · exact ⟨.float32, by decide⟩

/-- How elements are converted on the way to the store and back. -/
structure Codec (τ α β : Type) where
  /-- `.to("cpu", torch.float32)` -/
  widen : τ → α
  /-- `_encode`, one element -/
  encode : StoreDtype → α → β
  /-- `_blocks_to_device`, one element; the native dtype is the stored cache's mark -/
  toDevice : Option MetaValue → β → τ
  /-- the padding of a packed block -/
  zero : β

inductive WorkerError where
  | block (e : BlockError)
  /-- `cannot find the K/V split axis in KV tensor shape ...` -/
  | noSplitAxis (shape : List Nat)
  /-- A block id outside the paged tensor. -/
  | blockOutOfRange
  /-- Source blocks that do not have the destination's shape. -/
  | shapeMismatch
  /-- More registered layers than stored ones. -/
  | layerOutOfRange (li : Nat)
  /-- A captured request the bound metadata does not save. -/
  | notPlanned (reqId : String)
  /-- `unknown storage precision ...` -/
  | unknownPrecision (tag : String)
  /-- `no persisted session ...` -/
  | notStored (key : String)
  deriving DecidableEq, Repr

def orRaise {γ : Type} (e : WorkerError) : Option γ → Except WorkerError γ
  | some x => .ok x
  | none => .error e

def liftBlock {γ : Type} : Except BlockError γ → Except WorkerError γ
  | .ok x => .ok x
  | .error e => .error (.block e)

variable {τ α β : Type} [Inhabited τ] [Inhabited α] [Inhabited β]

/-- The persisted caches by key, each in the storage dtype it was written with. -/
abbrev SessionStore (β : Type) := Dict String (StoreDtype × KVCache β)

/-- `SessionStore.save`: encoded at the dtype of the spec. -/
def SessionStore.save (codec : Codec τ α β) (store : SessionStore β) (key : String)
    (kv : KVCache α) :
    Except WorkerError (SessionStore β) := do
  let dtype ← orRaise (.unknownPrecision kv.spec.dtype) (resolveStoreDtype kv.spec.dtype)
  return store.set key (dtype, kv.mapElems (codec.encode dtype))

/-- `SessionStore.load(key, keep_native=True)`: the arrays as stored, marked with their dtype. -/
def SessionStore.load (store : SessionStore β) (key : String) : Except WorkerError (KVCache β) := do
  let (dtype, kv) ← orRaise (.notStored key) (store.get? key)
  return { kv with metadata := kv.metadata.set "native_store_dtype" (.str dtype.tag) }

/-- Which leading axis of a paged tensor tells keys from values. -/
inductive KVAxis where
  | dim0
  | dim1
  deriving DecidableEq, Repr

/-- `_kv_split` looks at the second axis first. -/
def kvAxis : List Nat → Option KVAxis
  | _ :: 2 :: _ => some .dim1
  | 2 :: _ :: _ => some .dim0
  | _ => none

/-- The view of keys (`i = 0`) or values (`i = 1`). -/
def KVAxis.view (axis : KVAxis) (t : NDArray τ) (i : Nat) : NDArray τ :=
  match axis with
  | .dim0 => t.select0 i
  | .dim1 => t.select1 i

/-- The tensor after a write through that view. -/
def KVAxis.put (axis : KVAxis) (t : NDArray τ) (i : Nat) (view : NDArray τ) : NDArray τ :=
  match axis with
  | .dim0 => t.assign0 i view
  | .dim1 => t.assign1 i view

/-- `_kv_split`. -/
def kvSplit (t : NDArray τ) : Except WorkerError (NDArray τ × NDArray τ) :=
  match kvAxis t.shape with
  | some axis => .ok (axis.view t 0, axis.view t 1)
  | none => .error (.noSplitAxis t.shape)

omit [Inhabited τ] in
@[simp] theorem shape_put (axis : KVAxis) (t : NDArray τ) (i : Nat)
    (view : NDArray τ) [Inhabited τ] :
    (axis.put t i view).shape = t.shape := by
  cases axis <;> rfl

/-- A write through one view is read back through it and leaves the other alone. -/
theorem view_put {axis : KVAxis} {t view : NDArray τ} (found : kvAxis t.shape = some axis)
    {i j : Nat} (hj : j < 2)
    (hview : view.shape = (axis.view t i).shape) :
    axis.view (axis.put t i view) j = if j = i then view else axis.view t j := by
  unfold kvAxis at found
  split at found
  · rename_i m rest hshape
    obtain rfl := Option.some.inj found
    exact NDArray.select1_assign1 hshape (hview.trans (NDArray.shape_select1 i hshape)) hj
  · rename_i n rest _ hshape
    obtain rfl := Option.some.inj found
    exact NDArray.select0_assign0 hshape (hview.trans (NDArray.shape_select0 i hshape)) hj
  · cases found

/-- What is saved for a request: its key, its blocks and its prompt. -/
structure SavePlan where
  key : String
  blockIds : List Nat
  tokenIds : List Int
  deriving DecidableEq, Repr

/-- `_DexaConnectorMetadata`. -/
structure ConnectorMetadata where
  loads : Dict String (String × List Nat)
  saves : Dict String SavePlan

/-- The blocks captured for a request so far, one array a layer. -/
structure CapturedLayers (α : Type) where
  k : List (NDArray α) := []
  v : List (NDArray α) := []

/-- One request's part of `save_kv_layer`. -/
def captureRequest (codec : Codec τ α β) (kCache vCache : NDArray τ)
    (saveLayers : Dict String (CapturedLayers α))
    (e : String × SavePlan) : Except WorkerError (Dict String (CapturedLayers α)) := do
  let kBlocks ← orRaise .blockOutOfRange (kCache.indexSelect e.2.blockIds)
  let vBlocks ← orRaise .blockOutOfRange (vCache.indexSelect e.2.blockIds)
  let slot := (saveLayers.get? e.1).getD {}
  return saveLayers.set e.1 { k := slot.k ++ [kBlocks.map codec.widen], v := slot.v ++ [vBlocks.map codec.widen] }

def saveKvLayer (codec : Codec τ α β) (metadata : Option ConnectorMetadata)
    (saveLayers : Dict String (CapturedLayers α)) (kvLayer : NDArray τ) :
    Except WorkerError (Dict String (CapturedLayers α)) :=
  match metadata with
  | none => .ok saveLayers
  | some plan =>
    if plan.saves.entries = [] then .ok saveLayers
    else do
      let (kCache, vCache) ← kvSplit kvLayer
      plan.saves.entries.foldlM (captureRequest codec kCache vCache) saveLayers

/-- `_save_geometry`: positions and tokens of the saved prompt. -/
def saveGeometry (plan : SavePlan) : List Int × List Int :=
  (arange 0 plan.tokenIds.length, plan.tokenIds)

/-- One request's part of `wait_for_save`. -/
def persistRequest (codec : Codec τ α β) (spec : ModelSpec) (plan : ConnectorMetadata)
    (store : SessionStore β)
    (e : String × CapturedLayers α) : Except WorkerError (SessionStore β) := do
  let save ← orRaise (.notPlanned e.1) (plan.saves.get? e.1)
  let (positions, tokenIds) := saveGeometry save
  let kv ← liftBlock (pagedBlocksToKVCache e.2.k e.2.v spec positions (some tokenIds))
  store.save codec save.key kv

/-- Persist what was captured; the accumulator is emptied. -/
def waitForSave (codec : Codec τ α β) (cfg : VllmConfig) (metadata : Option ConnectorMetadata)
    (saveLayers : Dict String (CapturedLayers α)) (store : SessionStore β) :
    Except WorkerError (Dict String (CapturedLayers α) × SessionStore β) :=
  match metadata with
  | none => .ok (saveLayers, store)
  | some plan =>
    if saveLayers.entries = [] then .ok (saveLayers, store)
    else do
      let store' ← saveLayers.entries.foldlM (persistRequest codec cfg.spec plan) store
      return (Dict.empty, store')

/-- The save of one step: the layers stream by, then the captured requests are persisted. -/
def saveStep (codec : Codec τ α β) (cfg : VllmConfig) (metadata : Option ConnectorMetadata)
    (kvLayers : List (NDArray τ)) (store : SessionStore β) : Except WorkerError (SessionStore β) :=
  do
  let captured ← kvLayers.foldlM (saveKvLayer codec metadata) Dict.empty
  let (_, store') ← waitForSave codec cfg metadata captured store
  return store'

/-- `dst[phys] = src`, the two of one block shape. -/
def scatterBlocks (dst : NDArray τ) (phys : List Nat) (src : NDArray τ) :
    Except WorkerError (NDArray τ) :=
  if src.shape = phys.length :: dst.shape.tail then orRaise .blockOutOfRange (dst.scatter phys src)
  else .error .shapeMismatch

/-- One layer's scatter. -/
def loadLayer (codec : Codec τ α β) (native : Option MetaValue) (blockIds : List Nat)
    (kBlocks vBlocks : NDArray β)
    (t : NDArray τ) : Except WorkerError (NDArray τ) := do
  let axis ← orRaise (.noSplitAxis t.shape) (kvAxis t.shape)
  let kSrc := kBlocks.map (codec.toDevice native)
  let vSrc := vBlocks.map (codec.toDevice native)
  let n := min blockIds.length (kSrc.shape.headD 0)
  let phys := blockIds.take n
  let kDst ← scatterBlocks (axis.view t 0) phys (kSrc.take n)
  let t := axis.put t 0 kDst
  let vDst ← scatterBlocks (axis.view t 1) phys (vSrc.take n)
  return axis.put t 1 vDst

/-- The layer loop of `_load_one`: registered layer `e.2`. -/
def loadEntry (codec : Codec τ α β) (native : Option MetaValue) (blockIds : List Nat)
    (kBlocks vBlocks : List (NDArray β))
    (e : (String × NDArray τ) × Nat) : Except WorkerError (String × NDArray τ) := do
  let k ← orRaise (.layerOutOfRange e.2) kBlocks[e.2]?
  let v ← orRaise (.layerOutOfRange e.2) vBlocks[e.2]?
  let t ← loadLayer codec native blockIds k v e.1.2
  return (e.1.1, t)

/-- `_load_one`: the registered tensors after the stored cache is scattered into them. -/
def loadOne (codec : Codec τ α β) (cfg : VllmConfig) (store : SessionStore β)
    (kvCaches : List (String × NDArray τ)) (key : String) (blockIds : List Nat) :
    Except WorkerError (List (String × NDArray τ)) := do
  let kv ← store.load key
  let native := kv.metadata.get? "native_store_dtype"
  let (kBlocks, vBlocks) ← liftBlock (kvcacheToPagedBlocks codec.zero kv cfg.blockSize)
  kvCaches.zipIdx.mapM (loadEntry codec native blockIds kBlocks vBlocks)

end Dexa.Engine
