import Dexa.Lib.Bytes
import Dexa.Session.State

/-! # The binary format (`dexa/session/blob.py`)

The file is the magic, the length of a JSON header, the header, padding to 64 bytes, and the
raw elements: the keys of all layers, then their values.  Nothing but the header says where
the payload starts or how it is cut.  The native codec is `NativeCodec`.
-/

namespace Dexa.Session

open Dexa.Core Dexa.Engine Dexa.Lib

/-- `MAGIC`. -/
def magic : List UInt8 := utf8Encode "DEXAKV01"

/-- `_ALIGN`. -/
def align : Nat := 64

/-- `(-position) % _ALIGN`. -/
def padding (position : Nat) : Nat := (-(position : Int) % align).toNat

/-- `_STORE_NP`, by tag. -/
def storeNp (tag : String) : Option StoreDtype :=
  [StoreDtype.float32, .float16, .bfloat16].find? fun dtype => dtype.tag = tag

def header (dtype : StoreDtype) (layerShape : List Nat) (kv : KVCache Scalar) :
    List (String × JsonValue) :=
  [("spec", .dict (specDict kv.spec)), ("store_dtype", .str dtype.tag),
    ("n_layers", .int kv.layers.length),
    ("layer_shape", .list (layerShape.map fun (n : Nat) => JsonValue.int n)),
      ("positions", .list (kv.positions.map .int)),
    ("token_ids", kv.tokenIds.elim .none fun ids => .list (ids.map .int)),
      ("meta", .dict kv.metadata.entries)]

/-- The bytes before the payload. -/
def front (hdr : List UInt8) : List UInt8 :=
  let front := magic ++ littleEndian 8 hdr.length ++ hdr
  front ++ List.replicate (padding front.length) 0

/-- `save_kvcache_blob`, the bytes of the file. -/
def saveKVCacheBlob (precision : String) (kv : KVCache Scalar) : Option (List UInt8) := do
  let dtype ← resolvePrecision precision kv.spec.dtype
  let first ← kv.layers.head?
  let hdr := utf8Encode (JsonValue.dict (header dtype first.key.shape kv)).dumps
  -- `to_bytes` overflows
  if 256 ^ 8 ≤ hdr.length then none
  else
    return front hdr ++ kv.layers.flatMap (fun l => writeWords (l.key.map (encode dtype)).data) ++
      kv.layers.flatMap fun l => writeWords (l.value.map (encode dtype)).data

/-- The element as it is stored. -/
def native : (dtype : StoreDtype) → Stored dtype → Scalar
  | .float32, bits => .float32 bits
  | .float16, bits => .float16 bits
  | .bfloat16, bits => .uint16 bits

/-- The header of a file and the offset of its payload. -/
def readHeader (bytes : List UInt8) : Option (List (String × JsonValue) × Nat) := do
  if bytes.take 8 = magic then
    let hdr := (bytes.drop 16).take (fromLittleEndian ((bytes.drop 8).take 8))
    let fields ← entriesOf (← JsonValue.loads (← utf8Decode hdr))
    let position := 16 + hdr.length
    return (fields, position + padding position)
  else none

/-- The layers of a payload, as they are stored. -/
def readLayers (dtype : StoreDtype) (nLayers : Nat) (layerShape : List Nat) (payload : List UInt8) :
    Option (List (LayerKV (Stored dtype))) := do
  let total := 2 * nLayers * layerShape.prod
  -- the mapping must not end behind the file
  if payload.length < total * itemsize dtype then none
  else
    let buf := readWords (itemsize dtype) total payload
    let keys ← NDArray.ofData? (nLayers :: layerShape) (buf.take (nLayers * layerShape.prod))
    let values ← NDArray.ofData? (nLayers :: layerShape) (buf.drop (nLayers * layerShape.prod))
    return layersOf id nLayers keys values

/-- `token_ids` of a header, `null` as no tokens. -/
def tokenIdsOf : JsonValue → Option (List Int)
  | .none => some []
  | ids => do (← listOf ids).mapM intOf

/-- A file as it is mapped: the elements are the words of the payload. -/
structure RawBlob where
  storeDtype : StoreDtype
  kv : KVCache (Stored storeDtype)

def readBlob (bytes : List UInt8) : Option RawBlob := do
  let (fields, payloadOff) ← readHeader bytes
  let spec ← modelSpec (← entriesOf (← Dict.lookup "spec" fields))
  let dtype ← storeNp (← strOf (← Dict.lookup "store_dtype" fields))
  let nLayers ← natOf (← Dict.lookup "n_layers" fields)
  let layerShape ← (← listOf (← Dict.lookup "layer_shape" fields)).mapM natOf
  if layerShape.length = 3 then
    let layers ← readLayers dtype nLayers layerShape (bytes.drop payloadOff)
    let tokenIds ← tokenIdsOf (← Dict.lookup "token_ids" fields)
    let metadata ← entriesOf (← Dict.lookup "meta" fields)
    let positions ← (← listOf (← Dict.lookup "positions" fields)).mapM intOf
    return ⟨dtype, { spec := spec
                     layers := layers
                     positions := positions
                     tokenIds := if tokenIds = [] then none else some tokenIds
                     metadata := Dict.ofList metadata }⟩
  else none

/-- `load_kvcache_blob`. -/
def loadKVCacheBlob (keepNative : Bool) (bytes : List UInt8) : Option (KVCache Scalar) := do
  let raw ← readBlob bytes
  if keepNative then
    let kv := raw.kv.mapElems (native raw.storeDtype)
    return { kv with metadata := kv.metadata.set "native_store_dtype" (.str raw.storeDtype.tag) }
  else
    return raw.kv.mapElems (decode raw.storeDtype)

end Dexa.Session
