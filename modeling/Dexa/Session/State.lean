import Dexa.Engine.ConnectorWorker
import Dexa.Lib.Floats
import Dexa.Lib.Json

/-! # The portable session state (`dexa/session/state.py`)

A saved cache has one array of keys and one of values, stacked over the layers and encoded in
a storage precision, and everything else as integers and JSON text.  Numpy elements are kept
as bit patterns; all elements of an array are of one type.  `none` is an exception.
-/

namespace Dexa.Session

open Dexa.Core Dexa.Engine Dexa.Lib

/-- An element of a numpy array. -/
inductive Scalar where
  | float32 (bits : BitVec 32)
  | float16 (bits : BitVec 16)
  | uint16 (bits : BitVec 16)
  deriving DecidableEq, Inhabited

/-- The element converted to `float32`. -/
def Scalar.asFloat32 : Scalar → BitVec 32
  | .float32 bits => bits
  | .float16 bits => halfToFloat bits
  | .uint16 bits => uint16ToFloat bits

/-- Bytes an element takes in a file. -/
def itemsize : StoreDtype → Nat
  | .float32 => 4
  | .float16 | .bfloat16 => 2

/-- A stored element: its bits. -/
abbrev Stored (dtype : StoreDtype) := BitVec (8 * itemsize dtype)

instance (dtype : StoreDtype) : Inhabited (Stored dtype) := ⟨0⟩

/-- `_resolve_store_dtype`. -/
def resolvePrecision (precision specDtype : String) : Option StoreDtype :=
  resolveStoreDtype (if precision = "auto" then specDtype else precision)

/-- `_encode`, one element. -/
def encode : (dtype : StoreDtype) → Scalar → Stored dtype
  | .float32, x => x.asFloat32
  | .float16, x => floatToHalf x.asFloat32
  | .bfloat16, x => floatToBf16 x.asFloat32

/-- `_decode`, one element. -/
def decode : (dtype : StoreDtype) → Stored dtype → Scalar
  | .float32, bits => .float32 bits
  | .float16, bits => .float32 (halfToFloat bits)
  | .bfloat16, bits => .float32 (bf16ToFloat bits)

/-- What a save in this precision and a load make of an element. -/
def keep (dtype : StoreDtype) (x : Scalar) : Scalar := decode dtype (encode dtype x)

theorem encode_decode (dtype : StoreDtype) (x : Stored dtype) :
    encode dtype (decode dtype x) = x := by
  cases dtype with
  | float32 => rfl
  | float16 => exact floatToHalf_halfToFloat x
  | bfloat16 => exact floatToBf16_bf16ToFloat x

/-- The element is one that the precision can hold. -/
def Representable (dtype : StoreDtype) (x : Scalar) : Prop := ∃ stored, x = decode dtype stored

theorem Representable.keep {dtype : StoreDtype} {x : Scalar} (holds : Representable dtype x) :
    keep dtype x = x := by
  obtain ⟨stored, rfl⟩ := holds
  rw [Session.keep, encode_decode]

def strOf : JsonValue → Option String
  | .str s => some s
  | _ => none

def intOf : JsonValue → Option Int
  | .int n => some n
  | _ => none

def natOf : JsonValue → Option Nat
  | .int n => if 0 ≤ n then some n.toNat else none
  | _ => none

def listOf : JsonValue → Option (List JsonValue)
  | .list items => some items
  | _ => none

def entriesOf : JsonValue → Option (List (String × JsonValue))
  | .dict entries => some entries
  | _ => none

/-- `_spec_dict`. -/
def specDict (spec : ModelSpec) : List (String × JsonValue) :=
  [("name", .str spec.name), ("n_layers", .int spec.nLayers), ("n_q_heads", .int spec.nQHeads),
   ("n_kv_heads", .int spec.nKvHeads), ("head_dim", .int spec.headDim),
     ("hidden_size", .int spec.hiddenSize),
   ("dtype", .str spec.dtype)]

/-- `ModelSpec(**fields)`. -/
def modelSpec (fields : List (String × JsonValue)) : Option ModelSpec := do
  if fields.all
    (fun e => e.1 ∈ ["name", "n_layers", "n_q_heads", "n_kv_heads", "head_dim", "hidden_size",
    "dtype"]) then
    return { name := ← strOf (← Dict.lookup "name" fields)
             nLayers := ← natOf (← Dict.lookup "n_layers" fields)
             nQHeads := ← natOf (← Dict.lookup "n_q_heads" fields)
             nKvHeads := ← natOf (← Dict.lookup "n_kv_heads" fields)
             headDim := ← natOf (← Dict.lookup "head_dim" fields)
             hiddenSize := ← natOf (← Dict.lookup "hidden_size" fields)
             dtype := ← match Dict.lookup "dtype" fields with
               | some v => strOf v
               | none => some "float32" }
  else none

theorem modelSpec_specDict (spec : ModelSpec) : modelSpec (specDict spec) = some spec := by
  simp [modelSpec, specDict, Dict.lookup, strOf, natOf]

/-- The arrays and texts of an `.npz` file; the elements follow its `store_dtype`. -/
structure Npz where
  storeDtype : StoreDtype
  keys : NDArray (Stored storeDtype)
  values : NDArray (Stored storeDtype)
  positions : List Int
  tokenIds : List Int
  spec : String
  metadata : String

/-- `np.asarray(xs, dtype=np.int64)`. -/
def int64Array (xs : List Int) : Option (List Int) :=
  if xs.all (fun x => -2 ^ 63 ≤ x && x < 2 ^ 63) then some xs else none

/-- `save_kvcache`, the written file. -/
def saveKVCache (precision : String) (kv : KVCache Scalar) : Option Npz := do
  let dtype ← resolvePrecision precision kv.spec.dtype
  return { storeDtype := dtype
           keys := ← NDArray.stack (kv.layers.map fun l => l.key.map (encode dtype))
           values := ← NDArray.stack (kv.layers.map fun l => l.value.map (encode dtype))
           positions := kv.positions
           tokenIds := ← int64Array (kv.tokenIds.getD [])
           spec := (JsonValue.dict (specDict kv.spec)).dumps
           metadata := (JsonValue.dict kv.metadata.entries).dumps }

/-- The cells of the first axis as layers. -/
def layersOf {α β : Type} [Inhabited α] (f : α → β) (n : Nat) (keys values : NDArray α) :
    List (LayerKV β) :=
  (List.range n).map fun li => ⟨(keys.select0 li).map f, (values.select0 li).map f⟩

/-- `load_kvcache`. -/
def loadKVCache (z : Npz) : Option (KVCache Scalar) := do
  let spec ← modelSpec (← entriesOf (← JsonValue.loads z.spec))
  let n ← z.keys.shape.head?
  let m ← z.values.shape.head?
  if m < n then none
  else
    return { spec := spec
             layers := layersOf (decode z.storeDtype) n z.keys z.values
             positions := z.positions
             tokenIds := if z.tokenIds = [] then none else some z.tokenIds
             metadata := Dict.ofList (← entriesOf (← JsonValue.loads z.metadata)) }

end Dexa.Session
