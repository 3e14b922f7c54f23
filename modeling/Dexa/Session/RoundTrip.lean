import Dexa.Lib.JsonRoundTrip
import Dexa.Session.Blob

/-! # Loading undoes saving

Both formats hold the stacked encoded arrays: the archive as such, the binary file as the words
of its payload, which `readHeader` finds and `readLayers` cuts again.  What comes back is
`kept`: the elements as the precision keeps them, everything else as it was.
-/

namespace Dexa.Session

open Dexa.Core Dexa.Engine Dexa.Lib

/-- The cache that a load gives; no tokens and an empty list of them are the same. -/
def kept (dtype : StoreDtype) (kv : KVCache Scalar) : KVCache Scalar :=
  { kv.mapElems (keep dtype) with tokenIds := if kv.tokenIds = some [] then none else kv.tokenIds }

/-- The layers have one shape, and the tokens and the metadata are what the formats can write. -/
structure Savable (kv : KVCache Scalar) (layerShape : List Nat) : Prop where
  dims : layerShape.length = 3
  nonempty : kv.layers ≠ []
  cells : ∀ n ∈ layerShape, 0 < n
  key_shape : ∀ l ∈ kv.layers, l.key.shape = layerShape
  value_shape : ∀ l ∈ kv.layers, l.value.shape = layerShape
  tokens : ∀ ids ∈ kv.tokenIds, ∀ x ∈ ids, -2 ^ 63 ≤ x ∧ x < 2 ^ 63
  metadata : (JsonValue.dict kv.metadata.entries).Exact

theorem kept_of_representable {dtype : StoreDtype} {kv : KVCache Scalar}
    (holds : ∀ l ∈ kv.layers, (∀ x ∈ l.key.data, Representable dtype x) ∧ ∀ x ∈ l.value.data,
      Representable dtype x) :
    kept dtype kv =
      { kv with tokenIds := if kv.tokenIds = some [] then none else kv.tokenIds } := by
  have layers : kv.layers.map (LayerKV.map (keep dtype)) = kv.layers := by
    have fixed : ∀ l ∈ kv.layers, LayerKV.map (keep dtype) l = l := by
      intro l member
      exact LayerKV.ext (NDArray.map_eq_self fun x here => ((holds l member).1 x here).keep)
        (NDArray.map_eq_self fun x here => ((holds l member).2 x here).keep)
    rw [List.map_congr_left fixed, List.map_id']
  rw [kept, KVCache.mapElems, layers]

/-- The layers as a file holds them. -/
def encodedLayers (dtype : StoreDtype) (kv : KVCache Scalar) : List (LayerKV (Stored dtype)) :=
  kv.layers.map (LayerKV.map (encode dtype))

section Layers

variable {α β : Type} {layers : List (LayerKV α)} {layerShape : List Nat}
  (keys : ∀ a ∈ layers.map LayerKV.key, a.shape = layerShape)
  (values : ∀ a ∈ layers.map LayerKV.value, a.shape = layerShape)

theorem layersOf_stacked [Inhabited α] (f : α → β) :
    layersOf f layers.length (NDArray.stacked _ layerShape keys)
      (NDArray.stacked _ layerShape values) =
      layers.map (LayerKV.map f) := by
  apply List.ext_getElem?
  intro li
  rw [layersOf, List.getElem?_map, List.getElem?_map]
  by_cases inside : li < layers.length
  · rw [List.getElem?_range inside, List.getElem?_eq_getElem inside, Option.map_some,
      Option.map_some,
      NDArray.select0_stacked keys (a := layers[li].key) (by simp [inside]),
      NDArray.select0_stacked values (a := layers[li].value) (by simp [inside])]
    rfl
  · rw [List.getElem?_eq_none (by simpa using inside),
      List.getElem?_eq_none (by simpa using inside)]
    rfl

end Layers

namespace Savable

variable {kv : KVCache Scalar} {layerShape : List Nat} (savable : Savable kv layerShape)
  (dtype : StoreDtype)
include savable

theorem keys : ∀ a ∈ (encodedLayers dtype kv).map LayerKV.key, a.shape = layerShape := by
  rw [encodedLayers, List.map_map]
  intro a member
  obtain ⟨l, here, rfl⟩ := List.mem_map.1 member
  exact savable.key_shape l here

theorem values : ∀ a ∈ (encodedLayers dtype kv).map LayerKV.value, a.shape = layerShape := by
  rw [encodedLayers, List.map_map]
  intro a member
  obtain ⟨l, here, rfl⟩ := List.mem_map.1 member
  exact savable.value_shape l here

/-- The stacked arrays of a file give back what is kept of the layers. -/
theorem layers (f : Stored dtype → Scalar) :
    layersOf f kv.layers.length (NDArray.stacked _ layerShape (savable.keys dtype))
      (NDArray.stacked _ layerShape (savable.values dtype)) =
      kv.layers.map (LayerKV.map (f ∘ encode dtype)) := by
  have count : (encodedLayers dtype kv).length = kv.layers.length := List.length_map ..
  rw [← count, layersOf_stacked, encodedLayers, List.map_map]
  refine List.map_congr_left fun l _ => ?_
  simp only [Function.comp_apply, LayerKV.map, NDArray.map_map]

theorem int64Array_tokens : int64Array (kv.tokenIds.getD []) = some (kv.tokenIds.getD []) := by
  rw [int64Array, if_pos]
  rw [List.all_eq_true]
  intro x member
  cases ids : kv.tokenIds with
  | none => simp [ids] at member
  | some xs =>
    rw [ids, Option.getD_some] at member
    have range := savable.tokens xs ids x member
    simpa using range

omit savable in
theorem kept_tokens (kv : KVCache Scalar) :
    (if kv.tokenIds.getD [] = [] then none else some (kv.tokenIds.getD [])) =
    if kv.tokenIds = some [] then none else kv.tokenIds := by
  cases kv.tokenIds with
  | none => rfl
  | some ids => cases ids <;> simp

theorem metadata_loads : JsonValue.loads (JsonValue.dict kv.metadata.entries).dumps =
    some (.dict kv.metadata.entries) :=
  loads_dumps savable.metadata

end Savable

theorem exact_specDict (spec : ModelSpec) : (JsonValue.dict (specDict spec)).Exact := by
  simp [JsonValue.Exact, JsonValue.ExactEntries, specDict]

namespace Savable

variable {precision : String} {kv : KVCache Scalar} {layerShape : List Nat}
  (savable : Savable kv layerShape) (dtype : StoreDtype)

/-- What a save writes. -/
def archive : Npz where
  storeDtype := dtype
  keys := .stacked _ layerShape (savable.keys dtype)
  values := .stacked _ layerShape (savable.values dtype)
  positions := kv.positions
  tokenIds := kv.tokenIds.getD []
  spec := (JsonValue.dict (specDict kv.spec)).dumps
  metadata := (JsonValue.dict kv.metadata.entries).dumps

theorem saveKVCache (resolved : resolvePrecision precision kv.spec.dtype = some dtype) :
    saveKVCache precision kv = some (savable.archive dtype) := by
  have nonempty : encodedLayers dtype kv ≠ [] := by simpa [encodedLayers] using savable.nonempty
  have keys : NDArray.stack (kv.layers.map fun l => l.key.map (encode dtype)) =
    some (.stacked _ _ (savable.keys dtype)) := by
    rw [← NDArray.stack_eq (savable.keys dtype) (by simpa using nonempty), encodedLayers,
      List.map_map]
    rfl
  have values : NDArray.stack (kv.layers.map fun l => l.value.map (encode dtype)) =
    some (.stacked _ _ (savable.values dtype)) := by
    rw [← NDArray.stack_eq (savable.values dtype) (by simpa using nonempty), encodedLayers,
      List.map_map]
    rfl
  rw [Session.saveKVCache, resolved, Option.bind_eq_bind, Option.bind_some, keys, values,
    savable.int64Array_tokens]
  rfl

theorem loadKVCache : loadKVCache (savable.archive dtype) = some (kept dtype kv) := by
  have heads : (savable.archive dtype).keys.shape.head? = some kv.layers.length ∧
      (savable.archive dtype).values.shape.head? = some kv.layers.length := by
    simp [archive, NDArray.stacked, encodedLayers]
  have spec : JsonValue.loads (savable.archive dtype).spec = some (.dict (specDict kv.spec)) :=
    loads_dumps (exact_specDict kv.spec)
  have metadata :
    JsonValue.loads (savable.archive dtype).metadata = some (.dict kv.metadata.entries) :=
    savable.metadata_loads
  simp only [Session.loadKVCache, spec, metadata, heads, entriesOf, modelSpec_specDict,
    Option.bind_eq_bind, Option.bind_some]
  rw [if_neg (Nat.lt_irrefl _)]
  refine congrArg some
    (KVCache.ext rfl (savable.layers dtype (decode dtype)) rfl (kept_tokens kv) ?_)
  exact Dict.ofList_entries kv.metadata

end Savable

/-! ## The binary file -/

theorem mapM_intOf (xs : List Int) : (xs.map JsonValue.int).mapM intOf = some xs := by
  induction xs with
  | nil => rfl
  | cons x xs ih => simp [intOf, ih]

theorem mapM_natOf (ns : List Nat) :
    (ns.map fun (n : Nat) => JsonValue.int n).mapM natOf = some ns := by
  induction ns with
  | nil => rfl
  | cons n ns ih => simp [natOf, ih]

theorem storeNp_tag (dtype : StoreDtype) : storeNp dtype.tag = some dtype := by
  cases dtype with
  | float32 => decide
  | float16 => decide
  | bfloat16 => decide

theorem exactItems_ints {γ : Type} (number : γ → Int) (xs : List γ) :
    JsonValue.ExactItems (xs.map fun x => .int (number x)) := by
  induction xs with
  | nil => trivial
  | cons x xs ih => exact ⟨trivial, ih⟩

theorem header_exact {kv : KVCache Scalar} (metadata : (JsonValue.dict kv.metadata.entries).Exact)
    (dtype : StoreDtype)
    (layerShape : List Nat) : (JsonValue.dict (header dtype layerShape kv)).Exact := by
  have tokens : (kv.tokenIds.elim JsonValue.none fun ids => .list (ids.map .int)).Exact := by
    cases kv.tokenIds with
    | none => trivial
    | some ids => exact exactItems_ints id ids
  have keys :
    (["spec", "store_dtype", "n_layers", "layer_shape", "positions", "token_ids",
    "meta"] : List String).Nodup := by
    decide
  exact ⟨keys, exact_specDict kv.spec, trivial, trivial, exactItems_ints Int.ofNat layerShape,
    exactItems_ints id kv.positions,
    tokens, metadata, trivial⟩

theorem length_magic : magic.length = 8 := by decide +kernel

/-- The reader finds the header and the start of the payload. -/
theorem readHeader_front {fields : List (String × JsonValue)} {hdr : List UInt8}
    (text : hdr = utf8Encode (JsonValue.dict fields).dumps)
    (distinct : (JsonValue.dict fields).Exact)
    (fits : hdr.length < 256 ^ 8) (payload : List UInt8) :
    readHeader (front hdr ++ payload) = some (fields, (front hdr).length) := by
  have split : front hdr ++ payload = magic ++ (littleEndian 8 hdr.length ++ (hdr ++
      (List.replicate (padding (magic ++ littleEndian 8 hdr.length ++ hdr).length) 0 ++
        payload))) := by
    simp only [front, List.append_assoc]
  have start : (front hdr ++ payload).take 8 = magic := by
    rw [split, List.take_left' length_magic]
  have length : ((front hdr ++ payload).drop 8).take 8 = littleEndian 8 hdr.length := by
    rw [split, List.drop_left' length_magic, List.take_left' (length_littleEndian ..)]
  have body : ((front hdr ++ payload).drop 16).take hdr.length = hdr := by
    rw [split, ← List.append_assoc,
      List.drop_left' (by rw [List.length_append, length_magic, length_littleEndian]),
      List.take_left' rfl]
  have decoded : utf8Decode hdr = some (JsonValue.dict fields).dumps :=
    text ▸ utf8Decode_utf8Encode _
  have position : (magic ++ littleEndian 8 hdr.length ++ hdr).length = 16 + hdr.length := by
    rw [List.length_append, List.length_append, length_magic, length_littleEndian]
  have stop : (front hdr).length = 16 + hdr.length + padding (16 + hdr.length) := by
    rw [front, List.length_append, List.length_replicate, position]
  simp only [readHeader, start, if_true, length, fromLittleEndian_littleEndian fits, body, decoded,
    loads_dumps distinct,
    entriesOf, Option.bind_eq_bind, Option.bind_some, Option.pure_def, stop]

/-! ## The payload -/

theorem writeWords_flatMap {k : Nat} (as : List (NDArray (BitVec (8 * k)))) :
    writeWords (as.flatMap NDArray.data) = as.flatMap fun a => writeWords a.data := by
  simp only [writeWords, List.flatMap_assoc]

namespace Savable

variable {precision : String} {kv : KVCache Scalar} {layerShape : List Nat}
  (savable : Savable kv layerShape) (dtype : StoreDtype)

/-- The words of a payload: the stacked keys, then the stacked values. -/
def words : List (Stored dtype) :=
  (NDArray.stacked _ layerShape (savable.keys dtype)).data ++
    (NDArray.stacked _ layerShape (savable.values dtype)).data

theorem payload : kv.layers.flatMap (fun l => writeWords (l.key.map (encode dtype)).data) ++
    kv.layers.flatMap (fun l => writeWords (l.value.map (encode dtype)).data) = writeWords
      (savable.words dtype) := by
  rw [words, writeWords_append, NDArray.stacked, NDArray.stacked, writeWords_flatMap,
    writeWords_flatMap, encodedLayers,
    List.map_map, List.map_map, List.flatMap_map, List.flatMap_map]
  rfl

theorem readLayers :
    readLayers dtype kv.layers.length layerShape (writeWords (savable.words dtype)) =
    some (encodedLayers dtype kv) := by
  have count : (encodedLayers dtype kv).length = kv.layers.length := List.length_map ..
  have keySize : (NDArray.stacked _ layerShape (savable.keys dtype)).data.length =
    kv.layers.length * layerShape.prod := by
    rw [NDArray.size_eq, NDArray.stacked, List.prod_cons, List.length_map, count]
  have valueSize : (NDArray.stacked _ layerShape (savable.values dtype)).data.length =
    kv.layers.length * layerShape.prod := by
    rw [NDArray.size_eq, NDArray.stacked, List.prod_cons, List.length_map, count]
  have total : 2 * kv.layers.length * layerShape.prod = (savable.words dtype).length := by
    rw [words, List.length_append, keySize, valueSize]
    ring
  have buf : readWords (itemsize dtype) (2 * kv.layers.length * layerShape.prod)
    (writeWords (savable.words dtype)) =
      savable.words dtype := by
    rw [total]
    simpa using readWords_writeWords (savable.words dtype) []
  have keys :
    NDArray.ofData? (kv.layers.length :: layerShape)
    ((savable.words dtype).take (kv.layers.length * layerShape.prod)) =
      some (.stacked _ layerShape (savable.keys dtype)) := by
    rw [words, List.take_left' keySize, ← NDArray.ofData?_flatMap, List.length_map, count]
    rfl
  have values :
    NDArray.ofData? (kv.layers.length :: layerShape)
    ((savable.words dtype).drop (kv.layers.length * layerShape.prod)) =
      some (.stacked _ layerShape (savable.values dtype)) := by
    rw [words, List.drop_left' keySize, ← NDArray.ofData?_flatMap, List.length_map, count]
    rfl
  rw [Session.readLayers,
    if_neg (by rw [length_writeWords, total, Nat.mul_comm]; exact Nat.lt_irrefl _)]
  simp only [buf, keys, values, Option.bind_eq_bind, Option.bind_some, Option.pure_def,
    Option.some.injEq]
  rw [← count, layersOf_stacked]
  exact List.map_id''
    (fun l => LayerKV.ext (NDArray.map_eq_self fun _ _ => rfl)
    (NDArray.map_eq_self fun _ _ => rfl)) _

/-- A save of the binary file, up to the check that the length of its header fits. -/
theorem saveKVCacheBlob_eq (resolved : resolvePrecision precision kv.spec.dtype = some dtype) :
    saveKVCacheBlob precision kv =
      if 256 ^ 8 ≤ (utf8Encode (JsonValue.dict (header dtype layerShape kv)).dumps).length then none
      else some (front (utf8Encode (JsonValue.dict (header dtype layerShape kv)).dumps) ++
        writeWords (savable.words dtype)) := by
  obtain ⟨first, rest, layers⟩ := List.exists_cons_of_ne_nil savable.nonempty
  have shape : first.key.shape = layerShape := savable.key_shape first (by simp [layers])
  have head : kv.layers.head? = some first := by rw [layers, List.head?_cons]
  rw [Session.saveKVCacheBlob, resolved, Option.bind_eq_bind, Option.bind_some, head,
    Option.bind_eq_bind, Option.bind_some,
    shape]
  simp only [List.append_assoc, savable.payload, Option.pure_def]

theorem saveKVCacheBlob (resolved : resolvePrecision precision kv.spec.dtype = some dtype)
    (fits : (utf8Encode (JsonValue.dict (header dtype layerShape kv)).dumps).length < 256 ^ 8) :
    saveKVCacheBlob precision kv =
      some (front (utf8Encode (JsonValue.dict (header dtype layerShape kv)).dumps) ++ writeWords
        (savable.words dtype)) := by
  rw [savable.saveKVCacheBlob_eq dtype resolved, if_neg (Nat.not_le.2 fits)]

include savable in
theorem fits_of_saved (resolved : resolvePrecision precision kv.spec.dtype = some dtype)
    {file : List UInt8}
    (saved : Session.saveKVCacheBlob precision kv = some file) :
    (utf8Encode (JsonValue.dict (header dtype layerShape kv)).dumps).length < 256 ^ 8 := by
  by_contra large
  rw [savable.saveKVCacheBlob_eq dtype resolved, if_pos (Nat.not_lt.1 large)] at saved
  cases saved

/-- The fields of the header, as the reader looks them up. -/
theorem readBlob_of_header {bytes : List UInt8} {position : Nat}
    (found : readHeader bytes = some (header dtype layerShape kv, position))
    (payload : bytes.drop position = writeWords (savable.words dtype)) :
    readBlob bytes =
      some ⟨dtype,
        { kv.mapElems (encode dtype) with tokenIds := if kv.tokenIds = some [] then none else kv.tokenIds }⟩ := by
  have tokens : tokenIdsOf (kv.tokenIds.elim JsonValue.none fun ids => .list (ids.map .int)) =
    some (kv.tokenIds.getD []) := by
    cases kv.tokenIds with
    | none => rfl
    | some ids => exact mapM_intOf ids
  have count : natOf (.int kv.layers.length) = some kv.layers.length := by simp [natOf]
  have lookups : Dict.lookup "spec" (header dtype layerShape kv) = some (.dict (specDict kv.spec)) ∧
      Dict.lookup "store_dtype" (header dtype layerShape kv) = some (.str dtype.tag) ∧
      Dict.lookup "n_layers" (header dtype layerShape kv) = some (.int kv.layers.length) ∧
      Dict.lookup "layer_shape" (header dtype layerShape kv) =
        some (.list (layerShape.map fun (n : Nat) => JsonValue.int n)) ∧
      Dict.lookup "positions" (header dtype layerShape kv) = some (.list (kv.positions.map .int)) ∧
      Dict.lookup "token_ids" (header dtype layerShape kv) =
        some (kv.tokenIds.elim JsonValue.none fun ids => .list (ids.map .int)) ∧
      Dict.lookup "meta" (header dtype layerShape kv) = some (.dict kv.metadata.entries) := by
    simp [header, Dict.lookup]
  obtain ⟨spec, storeDtype, nLayers, shape, positions, tokenIds, metadata⟩ := lookups
  rw [Session.readBlob, found, Option.bind_eq_bind, Option.bind_some]
  dsimp only
  rw [spec, Option.bind_eq_bind, Option.bind_some, entriesOf, Option.bind_eq_bind, Option.bind_some,
    modelSpec_specDict,
    Option.bind_eq_bind, Option.bind_some, storeDtype, Option.bind_eq_bind, Option.bind_some, strOf,
      Option.bind_eq_bind,
    Option.bind_some, storeNp_tag]
  simp only [Option.bind_eq_bind, Option.bind_some, nLayers, count, shape, listOf, mapM_natOf,
    savable.dims, if_true,
    payload, savable.readLayers, tokenIds, tokens, metadata, entriesOf, positions,
      mapM_intOf, kept_tokens,
    Dict.ofList_entries, Option.pure_def, KVCache.mapElems, encodedLayers]

theorem readBlob (fits : (utf8Encode (JsonValue.dict (header dtype layerShape kv)).dumps).length <
    256 ^ 8) :
    readBlob (front (utf8Encode (JsonValue.dict (header dtype layerShape kv)).dumps) ++ writeWords
      (savable.words dtype)) =
      some ⟨dtype,
        { kv.mapElems (encode dtype) with tokenIds := if kv.tokenIds = some [] then none else kv.tokenIds }⟩ :=
  savable.readBlob_of_header dtype
    (readHeader_front rfl (header_exact savable.metadata dtype layerShape) fits _) List.drop_left

theorem loadKVCacheBlob
    (fits : (utf8Encode (JsonValue.dict (header dtype layerShape kv)).dumps).length < 256 ^ 8) :
    loadKVCacheBlob false
        (front (utf8Encode (JsonValue.dict (header dtype layerShape kv)).dumps) ++ writeWords
          (savable.words dtype)) =
      some (kept dtype kv) := by
  rw [Session.loadKVCacheBlob, savable.readBlob dtype fits, Option.bind_eq_bind, Option.bind_some,
    if_neg Bool.false_ne_true,
    kept, KVCache.mapElems, KVCache.mapElems, KVCache.mapElems, List.map_map]
  refine congrArg some (KVCache.ext rfl (List.map_congr_left fun l _ => ?_) rfl rfl rfl)
  simp only [Function.comp_apply, LayerKV.map, NDArray.map_map]
  rfl

end Savable

/-- Loading undoes saving in both formats; a save of the binary file needs a header whose
    length fits its eight bytes. -/
theorem load_undoes_save {kv : KVCache Scalar} {layerShape : List Nat}
    (savable : Savable kv layerShape)
    {precision : String} {dtype : StoreDtype}
    (resolved : resolvePrecision precision kv.spec.dtype = some dtype) :
    (saveKVCache precision kv).bind loadKVCache = some (kept dtype kv) ∧
      (∀ file, saveKVCacheBlob precision kv = some file →
        loadKVCacheBlob false file = some (kept dtype kv)) ∧
      ((utf8Encode (JsonValue.dict (header dtype layerShape kv)).dumps).length < 256 ^ 8 →
        (saveKVCacheBlob precision kv).isSome) ∧
      ((∀ l ∈ kv.layers, (∀ x ∈ l.key.data, Representable dtype x) ∧ ∀ x ∈ l.value.data,
        Representable dtype x) →
        kept dtype kv =
          { kv with tokenIds := if kv.tokenIds = some [] then none else kv.tokenIds }) := by
  refine ⟨?_, ?_, ?_, kept_of_representable⟩
  · rw [savable.saveKVCache dtype resolved, Option.bind_some, savable.loadKVCache]
  · intro file saved
    have fits := savable.fits_of_saved dtype resolved saved
    rw [savable.saveKVCacheBlob dtype resolved fits, Option.some.injEq] at saved
    rw [← saved, savable.loadKVCacheBlob dtype fits]
  · intro fits
    rw [savable.saveKVCacheBlob dtype resolved fits]
    rfl

/-- One cell of a bfloat16 model. -/
def oneCell : KVCache Scalar where
  spec := { name := "m", nLayers := 1, nQHeads := 1, nKvHeads := 1, headDim := 1, hiddenSize := 1, dtype := "bf16" }
  layers := [⟨⟨[1, 1, 1], [.float32 0x3F800000], rfl⟩, ⟨[1, 1, 1], [.float32 0xC0400000], rfl⟩⟩]
  positions := [0]
  tokenIds := some [7]
  metadata := Dict.ofList [("turns", .int 1)]

theorem savable_oneCell : Savable oneCell [1, 1, 1] where
  dims := rfl
  nonempty := by simp [oneCell]
  cells := by simp
  key_shape := by simp [oneCell]
  value_shape := by simp [oneCell]
  tokens := by simp [oneCell]
  metadata := ⟨by decide, trivial, trivial⟩

/-- Two tokens with two channels. -/
def bf16Array (w x y z : BitVec 16) : NDArray Scalar :=
  ⟨[1, 2, 2], [w, x, y, z].map (decode .bfloat16), rfl⟩

theorem representable_bf16Array {w x y z : BitVec 16} : ∀ a ∈ (bf16Array w x y z).data,
    Representable .bfloat16 a := by
  intro a member
  obtain ⟨word, -, rfl⟩ := List.mem_map.1 member
  exact ⟨word, rfl⟩

/-- Two layers of a bfloat16 model. -/
def twoLayers : KVCache Scalar where
  spec := { name := "m", nLayers := 2, nQHeads := 1, nKvHeads := 1, headDim := 2, hiddenSize := 2, dtype := "bf16" }
  layers :=
    [⟨bf16Array 0x3F80 0 0xC040 0x4000, bf16Array 0x3F00 0xBF80 0x4080 0⟩,
     ⟨bf16Array 0x7F80 0x3F80 0x8000 0x3F00, bf16Array 0 0x4040 0xBF00 0x3F80⟩]
  positions := [0, 1]
  tokenIds := some [7, 300]
  metadata := Dict.ofList [("turns", .int 1), ("name", .str "chat")]

theorem savable_twoLayers : Savable twoLayers [1, 2, 2] where
  dims := rfl
  nonempty := by simp [twoLayers]
  cells := by simp
  key_shape := by simp [twoLayers, bf16Array]
  value_shape := by simp [twoLayers, bf16Array]
  tokens := by simp [twoLayers]
  metadata := ⟨by decide, trivial, trivial, trivial⟩

theorem fits_twoLayers :
    (utf8Encode (JsonValue.dict (header .bfloat16 [1, 2, 2] twoLayers)).dumps).length <
    256 ^ 8 := by
  decide +kernel

theorem load_undoes_save_twoLayers :
    (saveKVCache "auto" twoLayers).bind loadKVCache = some twoLayers ∧
      ∃ file, saveKVCacheBlob "auto" twoLayers = some file ∧
        loadKVCacheBlob false file = some twoLayers := by
  have resolved : resolvePrecision "auto" twoLayers.spec.dtype = some .bfloat16 := by decide
  obtain ⟨archive, blob, saves, unchanged⟩ := load_undoes_save savable_twoLayers resolved
  obtain ⟨file, saved⟩ := Option.isSome_iff_exists.1 (saves fits_twoLayers)
  have same : kept .bfloat16 twoLayers = twoLayers := by
    apply unchanged
    simp only [twoLayers, List.mem_cons, List.not_mem_nil, or_false, forall_eq_or_imp, forall_eq]
    exact ⟨⟨representable_bf16Array, representable_bf16Array⟩, representable_bf16Array,
      representable_bf16Array⟩
  exact ⟨same ▸ archive, file, saved, same ▸ blob file saved⟩

end Dexa.Session
