import Dexa.Session.Compacted
import Dexa.Session.StoreMap

/-! # Cartridges (`dexa/cartridge/artifact.py`)

A cartridge holds as many tokens on every head, without biases: one array of keys and one of values
over all layers, the positions that the keys stand for, and the length of the corpus.  A compact
cache is made of its cells.  The way back asks that all heads keep as many tokens, and forgets the
biases, and the positions but those of the first head.  `none` is an exception.
-/

namespace Dexa.Cartridges

open Dexa.Core Dexa.Lib Dexa.Session

structure Cartridge (α : Type) where
  spec : ModelSpec
  /-- `[n_layers, n_kv_heads, t, head_dim]` -/
  keys : NDArray α
  values : NDArray α
  positions : List Int
  /-- the tokens of the corpus -/
  logicalLength : Nat
  metadata : Dict String MetaValue := Dict.empty

variable {α : Type} [Inhabited α]

section Conversions

variable [Zero α]

/-- One layer in `to_compact_cache`. -/
def Cartridge.compactLayer (c : Cartridge α) (li : Nat) : Option (CompactLayer α) := do
  let heads := List.range c.spec.nKvHeads
  return { keys := ← heads.mapM fun h => c.keys.cell? li h
           values := ← heads.mapM fun h => c.values.cell? li h
           biases := ← heads.mapM fun _ => c.keys.shape[2]?.map fun t => List.replicate t 0
           positions := heads.map fun _ => c.positions }

/-- `to_compact_cache`. -/
def Cartridge.toCompactCache (c : Cartridge α) : Option (CompactCache α) := do
  return { spec := c.spec, layers := ← (List.range c.spec.nLayers).mapM c.compactLayer, logicalLength := c.logicalLength,
           method := "cartridge", metadata := c.metadata }

/-- One round of the loops in `from_compact_cache`, over the keys and values written so far. -/
def writeHead (t : Nat) (layer : CompactLayer α) (li h : Nat) (out : NDArray α × NDArray α) :
    Option (NDArray α × NDArray α) := do
  let key ← layer.keys[h]?
  -- "Cartridge requires uniform compact length t across heads"
  if key.shape.head? = some t then
    return (← out.1.assignCell li h key, ← out.2.assignCell li h (← layer.values[h]?))
  else none

def writeLayers (t : Nat) (cc : CompactCache α) (out : NDArray α × NDArray α) :
    Option (NDArray α × NDArray α) :=
  cc.layers.zipIdx.foldlM (fun out entry =>
    (List.range cc.spec.nKvHeads).foldlM (fun out h => writeHead t entry.1 entry.2 h out) out) out

/-- `{**d, **more}`. -/
def merged (d more : Dict String MetaValue) : Dict String MetaValue :=
  more.entries.foldl (fun d e => d.set e.1 e.2) d

/-- `from_compact_cache`. -/
def fromCompactCache (cc : CompactCache α) (metadata : Dict String MetaValue := Dict.empty) :
    Option (Cartridge α) := do
  let first ← cc.layers.head?
  let t ← (← first.keys.head?).shape.head?
  let empty := NDArray.full [cc.spec.nLayers, cc.spec.nKvHeads, t, cc.spec.headDim] 0
  let (keys, values) ← writeLayers t cc (empty, empty)
  return { spec := cc.spec, keys, values, positions := ← first.positions.head?, logicalLength := cc.logicalLength,
           metadata := merged cc.metadata metadata }

end Conversions

/-- `t` tokens on every head of every layer. -/
structure Cartridge.Holds (c : Cartridge α) (t : Nat) : Prop where
  keys : c.keys.shape = [c.spec.nLayers, c.spec.nKvHeads, t, c.spec.headDim]
  values : c.values.shape = [c.spec.nLayers, c.spec.nKvHeads, t, c.spec.headDim]

/-- What a head of a cartridge holds. -/
def Cartridge.head [Zero α] (c : Cartridge α) (t li h : Nat) : CompactHead α :=
  { key := c.keys.cell li h, value := c.values.cell li h, biases := List.replicate t 0, positions := c.positions }

/-- All of its heads. -/
def Cartridge.compact [Zero α] (c : Cartridge α) (t : Nat) : CompactCache α :=
  { spec := c.spec, logicalLength := c.logicalLength, method := "cartridge", metadata := c.metadata
    layers :=
      (List.range c.spec.nLayers).map
        fun li => .ofHeads ((List.range c.spec.nKvHeads).map (c.head t li)) }

theorem Cartridge.Holds.toCompactCache_eq [Zero α] {c : Cartridge α} {t : Nat} (holds : c.Holds t) :
    c.toCompactCache = some (c.compact t) := by
  have width : c.keys.shape[2]? = some t := by simp [holds.keys]
  have layer : ∀ li ∈ List.range c.spec.nLayers,
      c.compactLayer li = some (.ofHeads ((List.range c.spec.nKvHeads).map (c.head t li))) := by
    intro li member
    have inside := List.mem_range.1 member
    have keys : ∀ h ∈ List.range c.spec.nKvHeads, c.keys.cell? li h = some (c.keys.cell li h) :=
      fun h member =>
      NDArray.cell?_eq_some holds.keys inside (List.mem_range.1 member)
    have values : ∀ h ∈ List.range c.spec.nKvHeads,
      c.values.cell? li h = some (c.values.cell li h) := fun h member =>
      NDArray.cell?_eq_some holds.values inside (List.mem_range.1 member)
    have biases : ∀ h ∈ List.range c.spec.nKvHeads,
      (c.keys.shape[2]?.map fun t => List.replicate t 0) = some (List.replicate t (0 : α)) := by
      simp [width]
    rw [Cartridge.compactLayer, Fallible.mapM_some_map keys, Fallible.mapM_some_map values,
      Fallible.mapM_some_map biases]
    simp [CompactLayer.ofHeads, Cartridge.head, Function.comp_def]
  rw [Cartridge.toCompactCache, Fallible.mapM_some_map layer]
  rfl

/-- `t` tokens on every head, with some positions. -/
structure OneLength (cc : CompactCache α) (t : Nat) : Prop where
  layers : cc.layers.length = cc.spec.nLayers
  keys : ∀ layer ∈ cc.layers, layer.keys.length = cc.spec.nKvHeads ∧ ∀ key ∈ layer.keys,
    key.shape = [t, cc.spec.headDim]
  values : ∀ layer ∈ cc.layers, layer.values.length = cc.spec.nKvHeads ∧ ∀ value ∈ layer.values,
    value.shape = [t, cc.spec.headDim]
  layer : 0 < cc.spec.nLayers
  head : 0 < cc.spec.nKvHeads

/-- Both arrays, at the cells that are done. -/
structure Written (cc : CompactCache α) (t : Nat) (done : Nat → Nat → Prop)
    (out : NDArray α × NDArray α) : Prop where
  keys : Filled cc [t, cc.spec.headDim] (fun layer h => layer.keys[h]?) done out.1
  values : Filled cc [t, cc.spec.headDim] (fun layer h => layer.values[h]?) done out.2

section Writing

variable {cc : CompactCache α} {t : Nat} {done done' : Nat → Nat → Prop}
  {out : NDArray α × NDArray α}

theorem Written.mono (written : Written cc t done out)
    (fewer : ∀ li < cc.layers.length, ∀ h < cc.spec.nKvHeads, done' li h → done li h) :
      Written cc t done' out :=
  ⟨written.keys.mono fewer, written.values.mono fewer⟩

variable (uniform : OneLength cc t)
include uniform

theorem writeHead_written {layer : CompactLayer α} {li h : Nat} (written : Written cc t done out)
    (here : cc.layers[li]? = some layer)
    (inside : h < cc.spec.nKvHeads) :
    ∃ out', writeHead t layer li h out = some out' ∧
      Written cc t (fun li' h' => done li' h' ∨ li' = li ∧ h' = h) out' := by
  have member := List.mem_of_getElem? here
  obtain ⟨keyCount, keyShape⟩ := uniform.keys layer member
  obtain ⟨valueCount, valueShape⟩ := uniform.values layer member
  obtain ⟨key, keyHere⟩ : ∃ key, layer.keys[h]? = some key :=
    ⟨_, List.getElem?_eq_getElem (by omega)⟩
  obtain ⟨value, valueHere⟩ : ∃ value, layer.values[h]? = some value :=
    ⟨_, List.getElem?_eq_getElem (by omega)⟩
  have keyFits := keyShape key (List.mem_of_getElem? keyHere)
  obtain ⟨keys, keysDone, keysFilled⟩ :=
    written.keys.assign uniform.layers here inside keyHere keyFits
  obtain ⟨values, valuesDone, valuesFilled⟩ :=
    written.values.assign uniform.layers here inside valueHere
      (valueShape value (List.mem_of_getElem? valueHere))
  exact ⟨(keys, values),
    by simp [writeHead, keyHere, keyFits, keysDone, valueHere,
    valuesDone], keysFilled, valuesFilled⟩

/-- The heads of a layer, one after the other. -/
theorem writeLayer_written {layer : CompactLayer α} {li : Nat}
    (written : Written cc t (fun li' _ => li' < li) out)
    (here : cc.layers[li]? = some layer) :
    ∃ out', (List.range cc.spec.nKvHeads).foldlM (fun out h => writeHead t layer li h out) out =
      some out' ∧
      Written cc t (fun li' _ => li' < li + 1) out' := by
  have run :
    ∃ out', (List.range cc.spec.nKvHeads).foldlM (fun out h => writeHead t layer li h out) out =
    some out' ∧
      Written cc t (fun li' h' => li' < li ∨ li' = li ∧
        h' < (List.range cc.spec.nKvHeads).length) out' := by
    -- all layers before, and the first `k` heads of this one
    apply Fallible.foldlM_some (P := fun k => Written cc t fun li' h' => li' < li ∨
      li' = li ∧ h' < k)
    · intro k h out there written
      obtain ⟨inside, rfl⟩ := List.getElem?_eq_some_iff.1 there
      rw [List.getElem_range]
      rw [List.length_range] at inside
      obtain ⟨out', done, written'⟩ := writeHead_written uniform written here inside
      exact ⟨out', done, written'.mono (by omega)⟩
    · exact written.mono (by omega)
  obtain ⟨out', done, written'⟩ := run
  rw [List.length_range] at written'
  exact ⟨out', done, written'.mono (by omega)⟩

theorem writeLayers_written {empty : NDArray α}
    (shape : empty.shape = [cc.spec.nLayers, cc.spec.nKvHeads, t, cc.spec.headDim]) :
    ∃ out, writeLayers t cc (empty, empty) = some out ∧ Written cc t (fun _ _ => True) out := by
  have start : Written cc t (fun li _ => li < 0) (empty, empty) :=
    ⟨⟨shape, fun _ _ _ _ _ none => absurd none (Nat.not_lt_zero _)⟩,
      ⟨shape, fun _ _ _ _ _ none => absurd none (Nat.not_lt_zero _)⟩⟩
  have run : ∃ out, writeLayers t cc (empty, empty) = some out ∧
    Written cc t (fun li _ => li < cc.layers.zipIdx.length) out := by
    apply Fallible.foldlM_some (P := fun i => Written cc t fun li _ => li < i) _ start
    intro i entry out there written
    obtain ⟨layer, li⟩ := entry
    rw [List.getElem?_zipIdx, Option.map_eq_some_iff] at there
    obtain ⟨layer', here, same⟩ := there
    cases same
    rw [Nat.zero_add]
    exact writeLayer_written uniform written here
  obtain ⟨out, done, written⟩ := run
  rw [List.length_zipIdx] at written
  exact ⟨out, done, written.mono fun li inside _ _ _ => inside⟩

end Writing

section RoundTrips

variable [Zero α]

theorem fromCompactCache_ok {cc : CompactCache α} {t : Nat} (uniform : OneLength cc t)
    {first : CompactLayer α} {positions : List Int}
    (head : cc.layers.head? = some first) (kept : first.positions.head? = some positions)
    (metadata : Dict String MetaValue) :
    ∃ c, fromCompactCache cc metadata = some c ∧ c.Holds t ∧ c.spec = cc.spec ∧
      c.positions = positions ∧
      c.logicalLength = cc.logicalLength ∧ c.metadata = merged cc.metadata metadata ∧
      ∀ li layer h, cc.layers[li]? = some layer → h < cc.spec.nKvHeads →
        layer.keys[h]? = some (c.keys.cell li h) ∧
          layer.values[h]? = some (c.values.cell li h) := by
  have member := List.mem_of_head? head
  obtain ⟨key, there⟩ : ∃ key, first.keys[0]? = some key :=
    ⟨_, List.getElem?_eq_getElem ((uniform.keys first member).1 ▸ uniform.head)⟩
  have keyShape := (uniform.keys first member).2 key (List.mem_of_getElem? there)
  obtain ⟨out, done, written⟩ := writeLayers_written uniform
    (rfl : (NDArray.full [cc.spec.nLayers, cc.spec.nKvHeads, t, cc.spec.headDim] (0 : α)).shape = _)
  rw [← List.head?_eq_getElem?] at there
  refine ⟨{ spec := cc.spec, keys := out.1, values := out.2, positions, logicalLength := cc.logicalLength,
            metadata := merged cc.metadata metadata }, ?_,
              ⟨written.keys.shape, written.values.shape⟩, rfl, rfl, rfl, rfl, ?_⟩
  · simp [fromCompactCache, head, there, keyShape, done, kept]
  · exact fun li layer h here inside =>
      ⟨written.keys.holds li layer h here inside trivial,
        written.values.holds li layer h here inside trivial⟩

omit [Inhabited α] [Zero α] in
theorem merged_empty (d : Dict String MetaValue) : merged d Dict.empty = d := rfl

/-- A layer without its biases, whose heads have the same positions. -/
def plainLayer (spec : ModelSpec) (t : Nat) (positions : List Int) (layer : CompactLayer α) :
    CompactLayer α :=
  { layer with biases := List.replicate spec.nKvHeads (List.replicate t 0), positions := List.replicate spec.nKvHeads positions }

theorem toCompactCache_fromCompactCache {cc : CompactCache α} {t : Nat} (uniform : OneLength cc t)
    {first : CompactLayer α}
    {positions : List Int} (head : cc.layers.head? = some first)
    (kept : first.positions.head? = some positions)
    (metadata : Dict String MetaValue) :
    (fromCompactCache cc metadata).bind Cartridge.toCompactCache = some
      { cc with layers := cc.layers.map (plainLayer cc.spec t positions), method := "cartridge", metadata := merged cc.metadata metadata } := by
  obtain ⟨c, made, holds, spec, samePositions, length, meta', cells⟩ :=
    fromCompactCache_ok uniform head kept metadata
  have layers :
    (List.range c.spec.nLayers).map
    (fun li => CompactLayer.ofHeads ((List.range c.spec.nKvHeads).map (c.head t li))) =
      cc.layers.map (plainLayer cc.spec t positions) := by
    apply List.ext_getElem?
    intro li
    cases here : cc.layers[li]? with
    | none =>
      have beyond := List.getElem?_eq_none_iff.1 here
      simp [here, spec, uniform.layers ▸ beyond]
    | some layer =>
      have row := List.getElem?_range (uniform.layers ▸ (List.getElem?_eq_some_iff.1 here).1)
      have member := List.mem_of_getElem? here
      have keys : (List.range cc.spec.nKvHeads).map (fun h => c.keys.cell li h) = layer.keys := by
        apply List.ext_getElem (by simp [(uniform.keys layer member).1])
        intro h left right
        have found := (cells li layer h here (by simpa using left)).1
        simpa using (List.getElem?_eq_some_iff.1 found).2.symm
      have values : (List.range cc.spec.nKvHeads).map (fun h => c.values.cell li h) =
        layer.values := by
        apply List.ext_getElem (by simp [(uniform.values layer member).1])
        intro h left right
        have found := (cells li layer h here (by simpa using left)).2
        simpa using (List.getElem?_eq_some_iff.1 found).2.symm
      simp [here, row, plainLayer, CompactLayer.ofHeads, Cartridge.head, Function.comp_def, spec,
        samePositions, keys, values]
  rw [made, Option.bind_some, holds.toCompactCache_eq, Cartridge.compact, layers, spec,
    length, meta']

/-- A compact cache comes back from its cartridge if it has no biases, the same tokens on every
    head, and the name. -/
theorem compactCache_returns_iff {cc : CompactCache α} {t : Nat} (uniform : OneLength cc t)
    (biases : ∀ layer ∈ cc.layers, layer.biases.length = cc.spec.nKvHeads)
    (positions : ∀ layer ∈ cc.layers, layer.positions.length = cc.spec.nKvHeads) :
    (fromCompactCache cc).bind Cartridge.toCompactCache = some cc ↔ cc.method = "cartridge" ∧
      (∀ layer ∈ cc.layers, ∀ bias ∈ layer.biases, bias = List.replicate t 0) ∧
      ∃ ps, ∀ layer ∈ cc.layers, ∀ ps' ∈ layer.positions, ps' = ps := by
  obtain ⟨first, rest, layers⟩ :=
    List.exists_cons_of_length_pos (uniform.layers.symm ▸ uniform.layer)
  have member : first ∈ cc.layers := by simp [layers]
  have head : cc.layers.head? = some first := by simp [layers]
  obtain ⟨ps, more, here⟩ :=
    List.exists_cons_of_length_pos ((positions first member).symm ▸ uniform.head)
  have kept : first.positions.head? = some ps := by simp [here]
  -- a round trip keeps all but the method, the biases and the heads' own positions
  have same : (fromCompactCache cc).bind Cartridge.toCompactCache = some cc ↔
      cc.method = "cartridge" ∧ cc.layers.map (plainLayer cc.spec t ps) = cc.layers.map id := by
    rw [toCompactCache_fromCompactCache uniform head kept, merged_empty, Option.some.injEq,
      List.map_id]
    constructor
    · intro equal
      exact ⟨(congrArg CompactCache.method equal).symm, congrArg CompactCache.layers equal⟩
    · rintro ⟨method, equal⟩
      rw [equal, ← method]
  have layerwise : ∀ layer ∈ cc.layers, plainLayer cc.spec t ps layer = id layer ↔
      (∀ bias ∈ layer.biases, bias = List.replicate t 0) ∧ ∀ ps' ∈ layer.positions, ps' = ps := by
    intro layer among
    constructor
    · intro equal
      have plain : List.replicate cc.spec.nKvHeads (List.replicate t (0 : α)) = layer.biases :=
        congrArg CompactLayer.biases equal
      have shared : List.replicate cc.spec.nKvHeads ps = layer.positions :=
        congrArg CompactLayer.positions equal
      rw [← plain, ← shared]
      exact ⟨fun bias => List.eq_of_mem_replicate, fun ps' => List.eq_of_mem_replicate⟩
    · rintro ⟨plain, shared⟩
      rw [plainLayer, ← List.eq_replicate_iff.2 ⟨biases layer among, plain⟩,
        ← List.eq_replicate_iff.2 ⟨positions layer among, shared⟩]
      rfl
  rw [same, List.map_inj_left]
  constructor
  · rintro ⟨method, equal⟩
    have all := fun layer among => (layerwise layer among).1 (equal layer among)
    exact ⟨method, fun layer among => (all layer among).1, ps,
      fun layer among => (all layer among).2⟩
  · rintro ⟨method, plain, ps', shared⟩
    obtain rfl := shared first member ps (by simp [here])
    exact ⟨method,
      fun layer among => (layerwise layer among).2 ⟨plain layer among, shared layer among⟩⟩

theorem Cartridge.Holds.oneLength {c : Cartridge α} {t : Nat} (holds : c.Holds t)
    (layer : 0 < c.spec.nLayers) (head : 0 < c.spec.nKvHeads) :
    OneLength (c.compact t) t where
  layers := by simp [Cartridge.compact]
  keys := by
    intro layer member
    obtain ⟨li, -, rfl⟩ := List.mem_map.1 member
    simp [CompactLayer.ofHeads, Cartridge.compact, Cartridge.head, NDArray.cell,
      NDArray.shape_select0 _ (NDArray.shape_select0 _ holds.keys)]
  values := by
    intro layer member
    obtain ⟨li, -, rfl⟩ := List.mem_map.1 member
    simp [CompactLayer.ofHeads, Cartridge.compact, Cartridge.head, NDArray.cell,
      NDArray.shape_select0 _ (NDArray.shape_select0 _ holds.values)]
  layer := layer
  head := head

/-- A cartridge is that of its compact cache. -/
theorem fromCompactCache_toCompactCache {c : Cartridge α} {t : Nat} (holds : c.Holds t)
    (layer : 0 < c.spec.nLayers)
    (head : 0 < c.spec.nKvHeads) : c.toCompactCache.bind fromCompactCache = some c := by
  have first :
    (c.compact t).layers.head? =
    some (.ofHeads ((List.range c.spec.nKvHeads).map (c.head t 0))) := by
    simp [Cartridge.compact, List.head?_range, layer.ne']
  have kept :
    (CompactLayer.ofHeads ((List.range c.spec.nKvHeads).map (c.head t 0))).positions.head? =
    some c.positions := by
    simp [CompactLayer.ofHeads, Cartridge.head, List.head?_range, head.ne']
  obtain ⟨c', made, holds', spec, positions, length, meta', cells⟩ :=
    fromCompactCache_ok (holds.oneLength layer head) first kept Dict.empty
  have cell : ∀ li < c.spec.nLayers, ∀ h < c.spec.nKvHeads,
      c'.keys.cell li h = c.keys.cell li h ∧ c'.values.cell li h = c.values.cell li h := by
    intro li inside h inside'
    obtain ⟨key, value⟩ := cells li _ h (by simp [Cartridge.compact, inside]; rfl) inside'
    simp [CompactLayer.ofHeads, Cartridge.head, inside'] at key value
    exact ⟨key.symm, value.symm⟩
  replace spec : c'.spec = c.spec := spec
  have keys : c'.keys = c.keys :=
    NDArray.ext_cell (spec ▸ holds'.keys) holds.keys
      fun li inside h inside' => (cell li inside h inside').1
  have values : c'.values = c.values :=
    NDArray.ext_cell (spec ▸ holds'.values) holds.values
      fun li inside h inside' => (cell li inside h inside').2
  rw [holds.toCompactCache_eq, Option.bind_some, made]
  obtain ⟨⟩ := c
  obtain ⟨⟩ := c'
  simp_all [merged_empty, Cartridge.compact]

end RoundTrips

/-! ## Files -/

/-- The `.npz` file. -/
structure CartridgeNpz (α : Type) where
  keys : NDArray α
  values : NDArray α
  positions : List Int
  logicalLength : Nat
  spec : String
  metadata : String

omit [Inhabited α] in
/-- What `save` writes. -/
def Cartridge.npz (c : Cartridge α) : Option (CartridgeNpz α) :=
  -- `np.int64` overflows
  if c.logicalLength < 2 ^ 63 then
    some { keys := c.keys, values := c.values, positions := c.positions, logicalLength := c.logicalLength,
           spec := (JsonValue.dict (specDict c.spec)).dumps, metadata :=
             (JsonValue.dict c.metadata.entries).dumps }
  else none

/-- `load`, of an open file. -/
def ofNpz (z : CartridgeNpz α) : Option (Cartridge α) := do
  return { spec := ← modelSpec (← entriesOf (← JsonValue.loads z.spec)), keys := z.keys, values := z.values, positions := z.positions,
           logicalLength := z.logicalLength, metadata :=
             Dict.ofList (← entriesOf (← JsonValue.loads z.metadata)) }

/-- The path with the suffix of an `.npz` file. -/
def npzPath (path : String) : String := if suffixOf path ≠ ".npz" then path ++ ".npz" else path

section Files

variable (locate : Paths)

/-- `save`: the path that is written, and the files after it. -/
def Cartridge.save (files : Files (CartridgeNpz α)) (path : String) (c : Cartridge α) :
    Option (String × Files (CartridgeNpz α)) :=
  -- `with_suffix` raises on a path without a name
  if nameOf path = [] then none
  else do
    let path := npzPath path
    return (path, files.set (← locate path) (← c.npz))

def load (files : Files (CartridgeNpz α)) (path : String) : Option (Cartridge α) :=
  do ofNpz (← readFile locate files path)

end Files

omit [Inhabited α] in
theorem ofNpz_npz {c : Cartridge α} {z : CartridgeNpz α} (written : c.npz = some z)
    (exact : (JsonValue.dict c.metadata.entries).Exact) :
    ofNpz z = some c := by
  unfold Cartridge.npz at written
  split at written
  · cases written
    simp [ofNpz, loads_dumps (exact_specDict c.spec), loads_dumps exact, entriesOf,
      modelSpec_specDict, Dict.ofList_entries]
  · cases written

section Runs

variable {locate : Paths} {files files' : Files (CartridgeNpz α)}

omit [Inhabited α] in
theorem save_eq_some {path written : String} {c : Cartridge α}
    (saved : c.save locate files path = some (written, files')) :
    written = npzPath path ∧ ∃ place z, locate written = some place ∧ c.npz = some z ∧
      files' = files.set place z := by
  unfold Cartridge.save at saved
  split at saved
  · cases saved
  · simp only [Option.bind_eq_bind, Option.bind_eq_some_iff, Option.pure_def, Option.some.injEq,
      Prod.mk.injEq] at saved
    obtain ⟨place, located, z, wrote, rfl, rfl⟩ := saved
    exact ⟨rfl, place, z, located, wrote, rfl⟩

/-- The files after several saves. -/
def saveAll (locate : Paths) (files : Files (CartridgeNpz α))
    (saves : List (String × Cartridge α)) : Option (Files (CartridgeNpz α)) :=
  saves.foldlM (fun files e => (e.2.save locate files e.1).map Prod.snd) files

omit [Inhabited α] in
/-- After any saves, a file holds the cartridge that was saved there last. -/
theorem load_saveAll {saves : List (String × Cartridge α)}
    (exact : ∀ e ∈ saves, (JsonValue.dict e.2.metadata.entries).Exact)
    (ran : saveAll locate files saves = some files') {path : String} {place : Location}
    (located : locate path = some place)
    {last : String × Cartridge α}
    (newest : (saves.filter fun e => locate (npzPath e.1) = some place).getLast? = some last) :
    load locate files' path = some last.2 := by
  induction saves using List.reverseRecOn generalizing files' with
  | nil => cases newest
  | append_singleton saves e ih =>
    rw [saveAll, List.foldlM_append] at ran
    obtain ⟨before, earlier, now⟩ := Option.bind_eq_some_iff.1 ran
    obtain ⟨⟨written, after⟩, saved, rfl⟩ : ∃ r, e.2.save locate before e.1 = some r ∧
      r.2 = files' := by
      simpa using now
    obtain ⟨rfl, place', z, located', wrote, rfl⟩ := save_eq_some saved
    by_cases here : place' = place
    · subst here
      obtain rfl : e = last := by simpa [List.filter_append, located'] using newest
      simp [load, readFile, located, ofNpz_npz wrote (exact e (by simp))]
    · have other : (saves.filter fun e => locate (npzPath e.1) = some place).getLast? =
        some last := by
        simpa [List.filter_append, located', here] using newest
      have loaded := ih (fun e member => exact e (List.mem_append_left _ member)) earlier other
      simpa [load, readFile, located, Dict.get?_set_ne _ _ here] using loaded

end Runs

/-! ## Two heads -/

/-- One token on each of two heads. -/
def pairCartridge (left right : Int) : Cartridge Int where
  spec := { name := "m", nLayers := 1, nQHeads := 2, nKvHeads := 2, headDim := 1, hiddenSize := 2 }
  keys := ⟨[1, 2, 1, 1], [left, right], rfl⟩
  values := ⟨[1, 2, 1, 1], [right, left], rfl⟩
  positions := [3]
  logicalLength := 7

theorem pairCartridge_holds (left right : Int) : (pairCartridge left right).Holds 1 := ⟨rfl, rfl⟩

theorem compactCache_returns_iff_pair :
    (fromCompactCache ((pairCartridge 5 6).compact 1)).bind Cartridge.toCompactCache =
      some ((pairCartridge 5 6).compact 1) := by
  have uniform := (pairCartridge_holds 5 6).oneLength (by decide) (by decide)
  refine (compactCache_returns_iff uniform ?_ ?_).2 ⟨rfl, ?_, [3], ?_⟩ <;>
    simp [Cartridge.compact, CompactLayer.ofHeads, Cartridge.head, pairCartridge]

theorem fromCompactCache_toCompactCache_pair :
    (pairCartridge 5 6).toCompactCache.bind fromCompactCache = some (pairCartridge 5 6) :=
  fromCompactCache_toCompactCache (pairCartridge_holds 5 6) (by decide) (by decide)

/-- A name with the suffix and one without are one file. -/
theorem load_saveAll_pair :
    ∃ files, saveAll (fun path => some (.inRoot path)) Dict.empty [("a", pairCartridge 1 2),
    ("a.npz", pairCartridge 3 4)] = some files ∧
    load (fun path => some (.inRoot path)) files "a.npz" = some (pairCartridge 3 4) := by
  obtain ⟨files, ran⟩ := Option.isSome_iff_exists.1 (by decide +kernel :
    (saveAll (fun path => some (.inRoot path)) Dict.empty [("a", pairCartridge 1 2),
      ("a.npz", pairCartridge 3 4)]).isSome)
  have exact : ∀ e ∈ [("a", pairCartridge 1 2), ("a.npz", pairCartridge 3 4)],
    (JsonValue.dict e.2.metadata.entries).Exact := by
    simp [pairCartridge, JsonValue.Exact, JsonValue.ExactEntries, Dict.empty]
  have suffixed : npzPath "a.npz" = "a.npz" := by decide +kernel
  have newest : ([("a", pairCartridge 1 2), ("a.npz", pairCartridge 3 4)].filter fun e =>
      some (Location.inRoot (npzPath e.1)) = some (.inRoot "a.npz")).getLast? =
        some ("a.npz", pairCartridge 3 4) := by
    simp [List.filter_cons, suffixed]
    split <;> rfl
  exact ⟨files, ran, load_saveAll exact ran rfl newest⟩

end Dexa.Cartridges
