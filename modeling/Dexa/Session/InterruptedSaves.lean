import Dexa.Lib.JsonPrefix
import Dexa.Session.RoundTrip
import Dexa.Session.Store

/-! # Saves that stop half-way

A save opens the file it replaces and writes it from the front, so a save that raises or dies leaves
the beginning of the new file.  Of a binary file the reader takes a beginning for nothing or for the
whole: the header is a JSON object, whose beginnings are no JSON text, and a payload that is too
short cannot be mapped.  An archive has its directory at the end, so it cannot be read before it is
closed; closed early, it lacks members.
-/

namespace Dexa.Session

open Dexa.Core Dexa.Engine Dexa.Lib

theorem readWords_take {k count n : Nat} {bytes : List UInt8} (enough : count * k ≤ n) :
    readWords k count (bytes.take n) = readWords k count bytes := by
  induction count generalizing n bytes with
  | zero => rfl
  | succ count ih =>
    rw [Nat.succ_mul] at enough
    rw [readWords, readWords, List.take_take, Nat.min_eq_left (by omega), List.drop_take,
      ih (by omega)]

/-- A payload that was cut short is not mapped, or nothing that is read of it was cut. -/
theorem readLayers_take (dtype : StoreDtype) (nLayers : Nat) (layerShape : List Nat)
    (payload : List UInt8) (n : Nat) :
    readLayers dtype nLayers layerShape (payload.take n) = none ∨
      readLayers dtype nLayers layerShape (payload.take n) =
        readLayers dtype nLayers layerShape payload := by
  unfold readLayers
  dsimp only
  by_cases short : (payload.take n).length < 2 * nLayers * layerShape.prod * itemsize dtype
  · rw [if_pos short]
    exact Or.inl rfl
  · rw [List.length_take] at short
    right
    rw [if_neg (by rw [List.length_take]; exact short), if_neg (by omega),
      readWords_take (by omega)]

/-- What the reader makes of the fields of a header and a payload. -/
def blobOf (fields : List (String × JsonValue)) (payload : List UInt8) : Option RawBlob := do
  let spec ← modelSpec (← entriesOf (← Dict.lookup "spec" fields))
  let dtype ← storeNp (← strOf (← Dict.lookup "store_dtype" fields))
  let nLayers ← natOf (← Dict.lookup "n_layers" fields)
  let layerShape ← (← listOf (← Dict.lookup "layer_shape" fields)).mapM natOf
  if layerShape.length = 3 then
    let layers ← readLayers dtype nLayers layerShape payload
    let tokenIds ← tokenIdsOf (← Dict.lookup "token_ids" fields)
    let metadata ← entriesOf (← Dict.lookup "meta" fields)
    let positions ← (← listOf (← Dict.lookup "positions" fields)).mapM intOf
    return ⟨dtype, { spec := spec
                     layers := layers
                     positions := positions
                     tokenIds := if tokenIds = [] then none else some tokenIds
                     metadata := Dict.ofList metadata }⟩
  else none

theorem readBlob_eq (bytes : List UInt8) :
    readBlob bytes = (readHeader bytes).bind fun h => blobOf h.1 (bytes.drop h.2) := rfl

theorem bind_none_or {α β : Type} {f g : α → Option β} (x : Option α)
    (each : ∀ a, f a = none ∨ f a = g a) :
    (x >>= f) = none ∨ (x >>= f) = (x >>= g) := by
  cases x with
  | none => exact Or.inl rfl
  | some a => exact each a

theorem blobOf_take (fields : List (String × JsonValue)) (payload : List UInt8) (n : Nat) :
    blobOf fields (payload.take n) = none ∨
      blobOf fields (payload.take n) = blobOf fields payload := by
  unfold blobOf
  -- the fields are looked up alike
  iterate 5 refine bind_none_or _ fun _ => ?_
  refine bind_none_or _ fun dtype => ?_
  refine bind_none_or _ fun _ => bind_none_or _ fun nLayers => ?_
  refine bind_none_or _ fun _ => bind_none_or _ fun _ => bind_none_or _ fun layerShape => ?_
  split
  · cases readLayers_take dtype nLayers layerShape payload n with
    | inl none =>
      rw [none]
      exact Or.inl rfl
    | inr same =>
      rw [same]
      exact Or.inr rfl
  · exact Or.inl rfl

/-- A file that ends before its header does has none. -/
theorem readHeader_short {bytes : List UInt8} (short : bytes.length ≤ 16) :
    readHeader bytes = none := by
  rw [readHeader, List.drop_eq_nil_of_le short, List.take_nil]
  split
  · rfl
  · rfl

theorem readHeader_take_of_le {bytes : List UInt8} {n : Nat}
    (enough : 16 + fromLittleEndian ((bytes.drop 8).take 8) ≤ n) :
    readHeader (bytes.take n) = readHeader bytes := by
  have start : (bytes.take n).take 8 = bytes.take 8 := by
    rw [List.take_take, Nat.min_eq_left (by omega)]
  have length : ((bytes.take n).drop 8).take 8 = (bytes.drop 8).take 8 := by
    rw [List.drop_take, List.take_take, Nat.min_eq_left (by omega)]
  have text : ((bytes.take n).drop 16).take (fromLittleEndian ((bytes.drop 8).take 8)) =
      (bytes.drop 16).take (fromLittleEndian ((bytes.drop 8).take 8)) := by
    rw [List.drop_take, List.take_take, Nat.min_eq_left (by omega)]
  rw [readHeader, readHeader, start, length, text]

section Beginning

variable {fields : List (String × JsonValue)} {hdr : List UInt8}
  (text : hdr = utf8Encode (JsonValue.dict fields).dumps) (distinct : (JsonValue.dict fields).Exact)
include text distinct

/-- A header that was cut short is no JSON text. -/
theorem loads_torn {m : Nat} (torn : m < hdr.length) :
    (utf8Decode (hdr.take m)).bind JsonValue.loads = none := by
  cases decoded : utf8Decode (hdr.take m) with
  | none => rfl
  | some s =>
    have split : utf8Encode (JsonValue.dict fields).dumps = hdr.take m ++ hdr.drop m := by
      rw [← text, List.take_append_drop]
    obtain ⟨rest, whole, proper⟩ := utf8Decode_beginning split decoded
    rw [JsonValue.dumps, String.toList_ofList] at whole
    have none := loads_beginning distinct whole (proper (by simpa using torn))
    rwa [String.ofList_toList] at none

variable (fits : hdr.length < 256 ^ 8)
include fits

theorem readHeader_take (payload : List UInt8) (n : Nat) :
    readHeader ((front hdr ++ payload).take n) = none ∨
      readHeader ((front hdr ++ payload).take n) = some (fields, (front hdr).length) := by
  obtain ⟨rest, split⟩ :
    ∃ rest, front hdr ++ payload = magic ++ (littleEndian 8 hdr.length ++ (hdr ++ rest)) :=
    ⟨List.replicate (padding (magic ++ littleEndian 8 hdr.length ++ hdr).length) 0 ++ payload,
      by simp [front]⟩
  have length : ((front hdr ++ payload).drop 8).take 8 = littleEndian 8 hdr.length := by
    rw [split, List.drop_left' length_magic, List.take_left' (length_littleEndian ..)]
  by_cases whole : 16 + hdr.length ≤ n
  · right
    rw [readHeader_take_of_le (by rwa [length, fromLittleEndian_littleEndian fits]),
      readHeader_front text distinct fits]
  left
  by_cases short : n ≤ 16
  · exact readHeader_short ((List.length_take_le ..).trans short)
  -- the length is there, but not the end of the header
  have body : (((front hdr ++ payload).take n).drop 16).take hdr.length = hdr.take (n - 16) := by
    rw [List.drop_take, List.take_take, split, ← List.append_assoc,
      List.drop_left' (by rw [List.length_append, length_magic, length_littleEndian]),
        Nat.min_eq_right (by omega),
      List.take_append_of_le_length (by omega)]
  have stays : (((front hdr ++ payload).take n).drop 8).take 8 = littleEndian 8 hdr.length := by
    rw [List.drop_take, List.take_take, Nat.min_eq_left (by omega), length]
  have torn := loads_torn text distinct (m := n - 16) (by omega)
  rw [readHeader, stays, fromLittleEndian_littleEndian fits, body]
  split
  · cases decoded : utf8Decode (hdr.take (n - 16)) with
    | none => simp only [decoded, Option.bind_eq_bind, Option.bind_none]
    | some s =>
      rw [decoded, Option.bind_some] at torn
      simp only [decoded, torn, Option.bind_eq_bind, Option.bind_some, Option.bind_none]
  · rfl

/-- The reader takes a beginning of a file for nothing or for the whole. -/
theorem loadKVCacheBlob_take (keepNative : Bool) (payload : List UInt8) (n : Nat) :
    loadKVCacheBlob keepNative ((front hdr ++ payload).take n) = none ∨
      loadKVCacheBlob keepNative ((front hdr ++ payload).take n) = loadKVCacheBlob keepNative
        (front hdr ++ payload) := by
  have blob : readBlob ((front hdr ++ payload).take n) = none ∨
      readBlob ((front hdr ++ payload).take n) = readBlob (front hdr ++ payload) := by
    rw [readBlob_eq, readBlob_eq, readHeader_front text distinct fits payload]
    cases readHeader_take text distinct fits payload n with
    | inl none =>
      rw [none]
      exact Or.inl rfl
    | inr found =>
      rw [found, Option.bind_some, Option.bind_some, List.drop_take]
      exact blobOf_take ..
  unfold loadKVCacheBlob
  cases blob with
  | inl none =>
    rw [none]
    exact Or.inl rfl
  | inr same =>
    rw [same]
    exact Or.inr rfl

end Beginning

/-! ## What a save leaves -/

/-- The writes of `save_kvcache_blob`, in their order. -/
def blobWrites (precision : String) (kv : KVCache Scalar) : Option (List (List UInt8)) := do
  let dtype ← resolvePrecision precision kv.spec.dtype
  let first ← kv.layers.head?
  let hdr := utf8Encode (JsonValue.dict (header dtype first.key.shape kv)).dumps
  -- `to_bytes` overflows, after the magic
  if 256 ^ 8 ≤ hdr.length then return [magic]
  else
    let told := magic.length + 8 + hdr.length
    return [magic, littleEndian 8 hdr.length, hdr, List.replicate (padding told) 0] ++
      kv.layers.map (fun l => writeWords (l.key.map (encode dtype)).data) ++
      kv.layers.map fun l => writeWords (l.value.map (encode dtype)).data

/-- What a file of the directory holds. -/
inductive Contents where
  | archive (z : Npz)
  /-- an archive that lacks its end record or a member that every load reads -/
  | unreadable
  | bytes (file : List UInt8)

/-- A stored element as it is converted where the file does not say what it is. -/
def untaggedElem (dtype : StoreDtype) (x : Stored dtype) : Stored .float32 :=
  (native dtype x).asFloat32

/-- The archive without its last member: a load takes its elements for `float32`. -/
def Npz.untagged (z : Npz) : Npz where
  storeDtype := .float32
  keys := z.keys.map (untaggedElem z.storeDtype)
  values := z.values.map (untaggedElem z.storeDtype)
  positions := z.positions
  tokenIds := z.tokenIds
  spec := z.spec
  metadata := z.metadata

/-- All that a save puts into its file; `none`: it raises before it opens it. -/
def written (f : Format) (precision : String) (kv : KVCache Scalar) : Option Contents :=
  match f with
  | .npz => (saveKVCache precision kv).map .archive
  | .blob => (blobWrites precision kv).map fun writes => .bytes writes.flatten

/-- Bytes, or the members of an archive and its end record. -/
def Contents.size : Contents → Nat
  | .archive _ => 8
  | .unreadable => 0
  | .bytes file => file.length

/-- How a save ends. -/
inductive Stop where
  /-- it raises or dies before it opens its file -/
  | unopened
  /-- it dies, or fails to close the file, with so many bytes, or whole members and the end record,
      in it -/
  | died (reached : Nat)
  /-- it raises, and the file is closed, which ends an archive with the members that are there;
      `torn`: the last of them is a part of the next -/
  | raised (reached : Nat) (torn : Bool)
  | finished

/-- The file after the save; `none`: as before. -/
def Contents.after : Contents → Stop → Option Contents
  | _, .unopened => none
  | contents, .finished => some contents
  | .bytes file, .died reached | .bytes file, .raised reached _ => some (.bytes (file.take reached))
  | .archive z, .died reached => some (if 8 ≤ reached then .archive z else .unreadable)
  | .archive z, .raised reached torn =>
    some (if 7 ≤ reached then .archive z else if reached = 6 ∧ torn = false then .archive z.untagged
      else .unreadable)
  | .unreadable, _ => some .unreadable

section Directory

variable (locate : Paths)

/-- A save of a session that stops there. -/
def saveUntil (stop : Stop) (files : Files Contents) (f : Format) (id precision : String)
    (kv : KVCache Scalar) : Files Contents :=
  match (written f precision kv).bind (Contents.after · stop), locate (savedPath id f) with
  | some contents, some place => files.set place contents
  | _, _ => files

/-- What the loader of a format makes of a file; each refuses the files of the other. -/
def readContents (keepNative : Bool) : Format → Contents → Option (KVCache Scalar)
  | .npz, .archive z => loadKVCache z
  | .blob, .bytes file => loadKVCacheBlob keepNative file
  | _, _ => none

/-- `load`, by what the loaders make of a file. -/
def loadFrom {κ β : Type} (read : Format → β → Option κ) (files : Files β) (f : Format)
    (id : String) : Reply κ :=
  match resolve locate files f id with
  | none => .notFound
  | some (path, contents) =>
    match read (if suffixOf path = ".dexakv" then .blob else .npz) contents with
    | none => .raised
    | some kv => .loaded kv

theorem step_load {ω κ β : Type} (codec : Codec ω κ β) (files : Files β) (f : Format)
    (id : String) :
    step codec locate files (.load f id) = (loadFrom locate codec.load files f id, files) := by
  rw [step, loadFrom]
  cases resolve locate files f id with
  | none => rfl
  | some found =>
    dsimp only
    cases codec.load (if suffixOf found.1 = ".dexakv" then .blob else .npz) found.2 with
    | none => rfl
    | some kv => rfl

def loadSession (keepNative : Bool) : Files Contents → Format → String → Reply (KVCache Scalar) :=
  loadFrom locate (readContents keepNative)

/-- `has`. -/
def has {β : Type} (files : Files β) (f : Format) (id : String) : Bool :=
  (resolve locate files f id).isSome

/-- A file that is written is what an id resolves to, or nothing that it looks at. -/
theorem resolve_set {β : Type} (files : Files β) (place : Location) (f : Format) (id : String) :
    (∀ contents, resolve locate (files.set place contents) f id = resolve locate files f id) ∨
      ∃ path, ∀ contents, resolve locate (files.set place contents) f id =
        some (path, contents) := by
  unfold resolve
  generalize [f, .npz, .blob] = formats
  induction formats with
  | nil => exact Or.inl fun _ => rfl
  | cons g formats ih =>
    simp only [List.findSome?_cons]
    by_cases here : locate (candidate id g) = some place
    · refine Or.inr ⟨candidate id g, fun contents => ?_⟩
      rw [readFile, here, Option.bind_some, Dict.get?_set_self]
      rfl
    · have same : ∀ contents, readFile locate (files.set place contents) (candidate id g) =
        readFile locate files (candidate id g) := by
        intro contents
        rw [readFile, readFile]
        cases located : locate (candidate id g) with
        | none => rfl
        | some other =>
          have apart : place ≠ other := by
            rintro rfl
            exact here located
          rw [Option.bind_some, Option.bind_some, Dict.get?_set_ne _ _ apart]
      simp only [same]
      cases readFile locate files (candidate id g) with
      | some found => exact Or.inl fun _ => rfl
      | none => exact ih

end Directory

/-! ## What a load makes of it -/

/-- An archive without its last member is only misread where the elements are `bfloat16`. -/
theorem loadKVCache_untagged {z : Npz} (other : z.storeDtype ≠ .bfloat16) :
    loadKVCache z.untagged = loadKVCache z := by
  have filler : untaggedElem z.storeDtype default = default := by
    cases dtype : z.storeDtype with
    | float32 => rfl
    | float16 => decide
    | bfloat16 => exact absurd dtype other
  have element : decode .float32 ∘ untaggedElem z.storeDtype = decode z.storeDtype := by
    cases dtype : z.storeDtype with
    | float32 => rfl
    | float16 => rfl
    | bfloat16 => exact absurd dtype other
  have layers : ∀ n, layersOf (decode z.untagged.storeDtype) n z.untagged.keys z.untagged.values =
      layersOf (decode z.storeDtype) n z.keys z.values := by
    intro n
    refine List.map_congr_left fun li _ => ?_
    rw [Npz.untagged, NDArray.select0_map filler, NDArray.select0_map filler, NDArray.map_map,
      NDArray.map_map, element]
  simp only [loadKVCache, layers]
  rfl

theorem flatten_writes (hdr : List UInt8) (blocks : List (List UInt8)) :
    ([magic, littleEndian 8 hdr.length, hdr,
      List.replicate (padding (magic.length + 8 + hdr.length)) 0] ++ blocks).flatten =
      front hdr ++ blocks.flatten := by
  simp [front, Nat.add_assoc]

/-- The writes of a save, if it comes to the header, are the file. -/
theorem blobWrites_cases (precision : String) (kv : KVCache Scalar) :
    (blobWrites precision kv = none ∧ saveKVCacheBlob precision kv = none) ∨
      (blobWrites precision kv = some [magic] ∧ saveKVCacheBlob precision kv = none) ∨
      ∃ dtype layerShape writes payload, blobWrites precision kv = some writes ∧
        saveKVCacheBlob precision kv = some writes.flatten ∧
        (utf8Encode (JsonValue.dict (header dtype layerShape kv)).dumps).length < 256 ^ 8 ∧
        writes.flatten = front (utf8Encode (JsonValue.dict (header dtype layerShape kv)).dumps) ++
          payload := by
  rw [blobWrites, saveKVCacheBlob]
  cases resolvePrecision precision kv.spec.dtype with
  | none => exact Or.inl ⟨rfl, rfl⟩
  | some dtype =>
    cases kv.layers.head? with
    | none => exact Or.inl ⟨rfl, rfl⟩
    | some first =>
      right
      simp only [Option.bind_eq_bind, Option.bind_some]
      generalize hdr : utf8Encode (JsonValue.dict (header dtype first.key.shape kv)).dumps = text
      split
      next => exact Or.inl ⟨rfl, rfl⟩
      next fits =>
        let keys := kv.layers.map fun l => writeWords (l.key.map (encode dtype)).data
        let values := kv.layers.map fun l => writeWords (l.value.map (encode dtype)).data
        have file := flatten_writes text (keys ++ values)
        rw [← List.append_assoc] at file
        have parts : front text ++ (keys ++ values).flatten = front text ++ keys.flatten ++
          values.flatten := by
          rw [List.flatten_append, List.append_assoc]
        refine Or.inr ⟨dtype, first.key.shape, _, (keys ++ values).flatten, rfl, congrArg some ?_,
          ?_, ?_⟩
        · exact (file.trans parts).symm
        · rw [hdr]
          exact Nat.not_le.1 fits
        · rw [hdr]
          exact file

theorem loadKVCacheBlob_short {file : List UInt8} (short : file.length ≤ 16) (keepNative : Bool) :
    loadKVCacheBlob keepNative file = none := by
  rw [loadKVCacheBlob, readBlob_eq, readHeader_short short]
  rfl

theorem readContents_untagged (keepNative : Bool) (g : Format) (z : Npz) :
    readContents keepNative g (.archive z.untagged) = none ∨
      readContents keepNative g (.archive z.untagged) = readContents keepNative g (.archive z) ∨
      z.storeDtype = .bfloat16 ∧ ∃ loaded, loadKVCache z.untagged = some loaded ∧
        readContents keepNative g (.archive z.untagged) = some loaded := by
  cases g with
  | blob => exact Or.inl rfl
  | npz =>
    rw [readContents, readContents]
    by_cases bfloat16 : z.storeDtype = .bfloat16
    · cases loadKVCache z.untagged with
      | none => exact Or.inl rfl
      | some loaded => exact Or.inr (Or.inr ⟨bfloat16, loaded, rfl, rfl⟩)
    · exact Or.inr (Or.inl (loadKVCache_untagged bfloat16))

section Stopped

variable {kv : KVCache Scalar} (metadata : (JsonValue.dict kv.metadata.entries).Exact)
  {precision : String}
include metadata

theorem loadKVCacheBlob_stopped {writes : List (List UInt8)}
    (file : blobWrites precision kv = some writes)
    (keepNative : Bool) (reached : Nat) :
    loadKVCacheBlob keepNative (writes.flatten.take reached) = none ∨
      loadKVCacheBlob keepNative (writes.flatten.take reached) =
        loadKVCacheBlob keepNative writes.flatten := by
  obtain ⟨none, -⟩ | ⟨overflow, -⟩ | ⟨dtype, layerShape, writes', payload, some, -, fits, split⟩ :=
    blobWrites_cases precision kv
  · rw [file] at none
    cases none
  · rw [file, Option.some.injEq] at overflow
    have short : (writes.flatten.take reached).length ≤ 16 := by
      rw [overflow, List.length_take, List.flatten_singleton, length_magic]
      omega
    exact Or.inl (loadKVCacheBlob_short short keepNative)
  · rw [file, Option.some.injEq] at some
    rw [some, split]
    exact loadKVCacheBlob_take rfl
      (header_exact metadata dtype layerShape) fits keepNative payload reached

/-- Of what a save leaves, a load makes nothing or what it makes of the whole, but for an archive
    without its last member. -/
theorem readContents_after {f : Format} {whole left : Contents}
    (file : written f precision kv = some whole) {stop : Stop}
    (leaves : whole.after stop = some left) (keepNative : Bool) (g : Format) :
    readContents keepNative g left = none ∨
      readContents keepNative g left = readContents keepNative g whole ∨
      f = .npz ∧ stop = .raised 6 false ∧ ∃ z loaded, saveKVCache precision kv = some z ∧
        z.storeDtype = .bfloat16 ∧
        loadKVCache z.untagged = some loaded ∧ readContents keepNative g left = some loaded := by
  have unreadable : readContents keepNative g .unreadable = none := by cases g <;> rfl
  cases f with
  | npz =>
    obtain ⟨z, saved, rfl⟩ := Option.map_eq_some_iff.1 file
    cases stop with
    | unopened => cases leaves
    | finished =>
      cases leaves
      exact Or.inr (Or.inl rfl)
    | died reached =>
      rw [Contents.after, Option.some.injEq] at leaves
      subst leaves
      split
      · exact Or.inr (Or.inl rfl)
      · exact Or.inl unreadable
    | raised reached torn =>
      rw [Contents.after, Option.some.injEq] at leaves
      subst leaves
      split
      next => exact Or.inr (Or.inl rfl)
      next =>
        split
        next last =>
          obtain ⟨rfl, rfl⟩ := last
          refine (readContents_untagged keepNative g z).imp_right (Or.imp_right ?_)
          rintro ⟨bfloat16, loaded, loads, reads⟩
          exact ⟨rfl, rfl, z, loaded, saved, bfloat16, loads, reads⟩
        next => exact Or.inl unreadable
  | blob =>
    obtain ⟨writes, wrote, rfl⟩ := Option.map_eq_some_iff.1 file
    have cut : ∀ reached, readContents keepNative g (.bytes (writes.flatten.take reached)) = none ∨
        readContents keepNative g (.bytes (writes.flatten.take reached)) = readContents keepNative g
          (.bytes writes.flatten) := by
      intro reached
      cases g with
      | npz => exact Or.inl rfl
      | blob => exact loadKVCacheBlob_stopped metadata wrote keepNative reached
    cases stop with
    | unopened => cases leaves
    | finished =>
      cases leaves
      exact Or.inr (Or.inl rfl)
    | died reached =>
      cases leaves
      exact (cut reached).imp_right Or.inl
    | raised reached torn =>
      cases leaves
      exact (cut reached).imp_right Or.inl

end Stopped

/-! ## Loading after a save that stopped -/

section Loading

variable (locate : Paths) (files : Files Contents) (f : Format) (id precision : String)
  (kv : KVCache Scalar)

theorem saveUntil_unopened : saveUntil locate .unopened files f id precision kv = files := by
  rw [saveUntil]
  cases written f precision kv with
  | none => rfl
  | some whole => cases whole <;> rfl

/-- A save that comes to the end of its writes leaves the file that it is to leave. -/
theorem saveUntil_all {reached : Nat}
    (all : ∀ whole, written f precision kv = some whole → whole.size ≤ reached) :
    saveUntil locate (.died reached) files f id precision kv =
      saveUntil locate .finished files f id precision kv ∧
      ∀ torn, saveUntil locate (.raised reached torn) files f id precision kv =
        saveUntil locate .finished files f id precision kv := by
  have same : ∀ whole, written f precision kv = some whole →
      whole.after (.died reached) = whole.after .finished ∧ ∀ torn,
        whole.after (.raised reached torn) = whole.after .finished := by
    intro whole file
    have size := all whole file
    cases whole with
    | unreadable => exact ⟨rfl, fun _ => rfl⟩
    | archive z =>
      have eight : 8 ≤ reached := size
      have seven : 7 ≤ reached := by omega
      simp only [Contents.after, if_pos eight, if_pos seven, implies_true, and_self]
    | bytes bytes =>
      have all : bytes.take reached = bytes := List.take_of_length_le size
      simp only [Contents.after, all, implies_true, and_self]
  unfold saveUntil
  cases file : written f precision kv with
  | none => exact ⟨rfl, fun _ => rfl⟩
  | some whole =>
    obtain ⟨died, raised⟩ := same whole file
    simp only [Option.bind_some, died, raised, implies_true, and_self]

/-- What a save leaves is as before, or the file that it wrote is the one that the id resolves
    to. -/
theorem resolve_saveUntil (g : Format) :
    (∀ stop, resolve locate (saveUntil locate stop files f id precision kv) g id =
      resolve locate files g id) ∨
      ∃ path, ∀ stop whole left, written f precision kv = some whole →
        whole.after stop = some left →
        resolve locate (saveUntil locate stop files f id precision kv) g id =
          some (path, left) := by
  cases located : locate (savedPath id f) with
  | none =>
    left
    intro stop
    rw [saveUntil, located]
    cases (written f precision kv).bind (Contents.after · stop) <;> rfl
  | some place =>
    cases resolve_set locate files place g id with
    | inl other =>
      left
      intro stop
      rw [saveUntil, located]
      cases (written f precision kv).bind (Contents.after · stop) with
      | none => rfl
      | some left => exact other left
    | inr found =>
      obtain ⟨path, here⟩ := found
      refine Or.inr ⟨path, fun stop whole left file leaves => ?_⟩
      rw [saveUntil, located, file, Option.bind_some, leaves]
      exact here left

theorem saveUntil_eq_or {stop : Stop} : saveUntil locate stop files f id precision kv = files ∨
    ∃ whole left, written f precision kv = some whole ∧ whole.after stop = some left := by
  cases file : written f precision kv with
  | none =>
    left
    rw [saveUntil, file]
    rfl
  | some whole =>
    cases leaves : whole.after stop with
    | none =>
      left
      rw [saveUntil, file, Option.bind_some, leaves]
    | some left => exact Or.inr ⟨whole, left, rfl, leaves⟩

theorem has_saveUntil {g : Format} (present : has locate files g id = true) (stop : Stop) :
    has locate (saveUntil locate stop files f id precision kv) g id = true := by
  cases saveUntil_eq_or locate files f id precision kv with
  | inl same => rwa [same]
  | inr wrote =>
    obtain ⟨whole, left, file, leaves⟩ := wrote
    cases resolve_saveUntil locate files f id precision kv g with
    | inl same =>
      rw [has, same]
      exact present
    | inr found =>
      obtain ⟨path, here⟩ := found
      rw [has, here stop whole left file leaves]
      rfl

theorem written_savable {layerShape : List Nat} {dtype : StoreDtype}
    (savable : Savable kv layerShape)
    (resolved : resolvePrecision precision kv.spec.dtype = some dtype)
    (fits : f = .blob → (utf8Encode (JsonValue.dict (header dtype layerShape kv)).dumps).length <
      256 ^ 8) :
    ∃ whole, written f precision kv = some whole ∧
      readContents false f whole = some (kept dtype kv) := by
  cases f with
  | npz =>
    refine ⟨.archive (savable.archive dtype), ?_, ?_⟩
    · rw [written, savable.saveKVCache dtype resolved, Option.map_some]
    · rw [readContents, savable.loadKVCache]
  | blob =>
    have saved := savable.saveKVCacheBlob dtype resolved (fits rfl)
    obtain ⟨-, none⟩ | ⟨-, none⟩ | ⟨_, _, writes, _, wrote, whole, -, -⟩ :=
      blobWrites_cases precision kv
    · rw [saved] at none
      cases none
    · rw [saved] at none
      cases none
    · rw [saved, Option.some.injEq] at whole
      refine ⟨.bytes writes.flatten, ?_, ?_⟩
      · rw [written, wrote, Option.map_some]
      · rw [readContents, ← whole, savable.loadKVCacheBlob dtype (fits rfl)]

section OwnFile

variable {locate files f id precision kv} {place : Location} (named : nameOf id ≠ [])
  (located : locate (candidate id f) = some place)
  {whole : Contents} (file : written f precision kv = some whole)
include named located file

/-- An id with a name resolves to the file that its save writes. -/
theorem resolve_own {stop : Stop} {left : Contents} (leaves : whole.after stop = some left) :
    resolve locate (saveUntil locate stop files f id precision kv) f id =
      some (candidate id f, left) := by
  rw [saveUntil, file, Option.bind_some, leaves, savedPath_eq named, located, resolve,
    List.findSome?_cons, readFile, located,
    Option.bind_some, Dict.get?_set_self]
  rfl

theorem load_own {stop : Stop} {left : Contents} (leaves : whole.after stop = some left)
    (keepNative : Bool) :
    loadSession locate keepNative (saveUntil locate stop files f id precision kv) f id =
      (readContents keepNative f left).elim .raised .loaded := by
  rw [loadSession, loadFrom, resolve_own named located file leaves]
  simp only [suffixOf_candidate_eq_dexakv named]
  cases readContents keepNative f left <;> rfl

/-- A save that dies between the open and its first write leaves nothing that can be loaded. -/
theorem load_opened (keepNative : Bool) :
    loadSession locate keepNative (saveUntil locate (.died 0) files f id precision kv) f id =
      .raised := by
  obtain ⟨left, leaves, nothing⟩ : ∃ left, whole.after (.died 0) = some left ∧
    readContents keepNative f left = none := by
    cases whole with
    | archive z => exact ⟨.unreadable, rfl, by cases f <;> rfl⟩
    | unreadable => exact ⟨.unreadable, rfl, by cases f <;> rfl⟩
    | bytes bytes =>
      refine ⟨.bytes [], rfl, ?_⟩
      cases f with
      | npz => rfl
      | blob => exact loadKVCacheBlob_short (Nat.zero_le _) keepNative
  rw [load_own named located file leaves, nothing]
  rfl

end OwnFile

/-- A save that finishes is loaded by the store that made it. -/
theorem load_finished {layerShape : List Nat} {dtype : StoreDtype} {place : Location}
    (savable : Savable kv layerShape)
    (resolved : resolvePrecision precision kv.spec.dtype = some dtype) (named : nameOf id ≠ [])
    (located : locate (candidate id f) = some place)
    (fits : f = .blob → (utf8Encode (JsonValue.dict (header dtype layerShape kv)).dumps).length <
      256 ^ 8) :
    loadSession locate false (saveUntil locate .finished files f id precision kv) f id = .loaded
      (kept dtype kv) := by
  obtain ⟨whole, file, loads⟩ := written_savable f precision kv savable resolved fits
  rw [load_own named located file (show whole.after .finished = some whole by cases whole <;> rfl),
    loads]
  rfl

theorem has_of_loaded {g : Format} {keepNative : Bool} {loaded : KVCache Scalar}
    (load : loadSession locate keepNative files g id = .loaded loaded) :
      has locate files g id = true := by
  rw [loadSession, loadFrom] at load
  rw [has]
  cases found : resolve locate files g id with
  | none =>
    rw [found] at load
    cases load
  | some _ => rfl

/-- A save may stop anywhere: a session that was there stays there, and a load gives what it gave
    before, or what it gives after the whole save, or raises; an archive that was closed when its
    last member was to be opened is loaded with its `bfloat16` elements taken for numbers. -/
theorem load_after_stopped_save (metadata : (JsonValue.dict kv.metadata.entries).Exact)
    (keepNative : Bool) (g : Format)
    (stop : Stop) :
    (has locate files g id = true →
      has locate (saveUntil locate stop files f id precision kv) g id = true) ∧
    (loadSession locate keepNative (saveUntil locate stop files f id precision kv) g id =
        loadSession locate keepNative files g id ∨
      loadSession locate keepNative (saveUntil locate stop files f id precision kv) g id =
        loadSession locate keepNative (saveUntil locate .finished files f id precision kv) g id ∨
      loadSession locate keepNative (saveUntil locate stop files f id precision kv) g id = .raised ∨
      f = .npz ∧ stop = .raised 6 false ∧ ∃ z loaded, saveKVCache precision kv = some z ∧
        z.storeDtype = .bfloat16 ∧
        loadKVCache z.untagged = some loaded ∧
        loadSession locate keepNative (saveUntil locate stop files f id precision kv) g id =
          .loaded loaded) ∧
    saveUntil locate .unopened files f id precision kv = files ∧
    (∀ reached, (∀ whole, written f precision kv = some whole → whole.size ≤ reached) →
      saveUntil locate (.died reached) files f id precision kv =
        saveUntil locate .finished files f id precision kv ∧
        ∀ torn, saveUntil locate (.raised reached torn) files f id precision kv =
          saveUntil locate .finished files f id precision kv) ∧
    (∀ layerShape dtype place, Savable kv layerShape →
      resolvePrecision precision kv.spec.dtype = some dtype →
      nameOf id ≠ [] → locate (candidate id f) = some place →
      (f = .blob → (utf8Encode (JsonValue.dict (header dtype layerShape kv)).dumps).length <
        256 ^ 8) →
      loadSession locate false (saveUntil locate .finished files f id precision kv) f id = .loaded
        (kept dtype kv)) := by
  refine ⟨fun present => has_saveUntil locate files f id precision kv present stop, ?_,
    saveUntil_unopened locate files f id precision kv,
    fun reached all => saveUntil_all locate files f id precision kv all,
    fun layerShape dtype place savable resolved named located fits =>
      load_finished locate files f id precision kv savable resolved named located fits⟩
  cases saveUntil_eq_or locate files f id precision kv with
  | inl same =>
    rw [same]
    exact Or.inl rfl
  | inr wrote =>
    obtain ⟨whole, left, file, leaves⟩ := wrote
    cases resolve_saveUntil locate files f id precision kv g with
    | inl other =>
      left
      rw [loadSession, loadFrom, loadFrom, other]
    | inr found =>
      -- both saves leave the file that is loaded
      obtain ⟨path, here⟩ := found
      have finished : whole.after .finished = some whole := by cases whole <;> rfl
      rw [loadSession, loadFrom, loadFrom, loadFrom, here stop whole left file leaves,
        here .finished whole whole file finished]
      dsimp only
      obtain none | same | ⟨npz, last, z, loaded, saved, bfloat16, loads, reads⟩ :=
        readContents_after metadata file leaves keepNative
          (if suffixOf path = ".dexakv" then .blob else .npz)
      · rw [none]
        exact Or.inr (Or.inr (Or.inl rfl))
      · rw [same]
        exact Or.inr (Or.inl rfl)
      · rw [reads]
        exact Or.inr (Or.inr (Or.inr ⟨npz, last, z, loaded, saved, bfloat16, loads, rfl⟩))

end Loading

/-- A directory in which every path is a file of its own. -/
def flatPaths : Paths := fun path => some (.inRoot path)

/-- The directory after two layers were saved as a binary file. -/
def chatSaved : Files Contents := saveUntil flatPaths .finished .empty .blob "chat" "auto" twoLayers

theorem loadSession_chatSaved : loadSession flatPaths false chatSaved .blob "chat" = .loaded
    (kept .bfloat16 twoLayers) :=
  load_finished flatPaths .empty .blob "chat" "auto" twoLayers savable_twoLayers (by decide)
    (by decide) rfl
    fun _ => fits_twoLayers

/-- A save that stops between the open and its first write takes the session that was stored. -/
theorem load_after_opened_save :
    loadSession flatPaths false chatSaved .blob "chat" = .loaded (kept .bfloat16 twoLayers) ∧
      loadSession flatPaths false
        (saveUntil flatPaths (.died 0) chatSaved .blob "chat" "auto" twoLayers) .blob "chat" =
        .raised := by
  obtain ⟨whole, file, -⟩ :=
    @written_savable .blob "auto" twoLayers [1, 2, 2] .bfloat16 savable_twoLayers (by decide)
    fun _ => fits_twoLayers
  exact ⟨loadSession_chatSaved, load_opened (by decide) rfl file false⟩

theorem load_after_stopped_save_chat :
    has flatPaths
      (saveUntil flatPaths (.raised 40 true) chatSaved .blob "chat" "auto" twoLayers) .blob "chat" =
      true ∧
      loadSession flatPaths false
        (saveUntil flatPaths .finished chatSaved .blob "chat" "auto" twoLayers) .blob "chat" =
        .loaded (kept .bfloat16 twoLayers) := by
  obtain ⟨stays, -, -, -, finished⟩ :=
    load_after_stopped_save flatPaths chatSaved .blob "chat" "auto" twoLayers savable_twoLayers.metadata false .blob (.raised 40 true)
  have present := has_of_loaded flatPaths chatSaved "chat" loadSession_chatSaved
  exact ⟨stays present, finished [1, 2, 2] .bfloat16 _ savable_twoLayers (by decide) (by decide) rfl
    fun _ => fits_twoLayers⟩

end Dexa.Session
