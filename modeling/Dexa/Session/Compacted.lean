import Dexa.Compaction.Baselines
import Dexa.Lib.ArrayCells
import Dexa.Lib.JsonRoundTrip
import Dexa.Session.RoundTrip
import Mathlib.Data.List.DropRight

/-! # Compacted sessions (`dexa/session/state.py`)

A compact cache with as many keys on every head is saved as rectangular arrays, `[L, H, t, d]`.
The file has one list of positions, that of the first head of the first layer, and a load hands it
to every head.  Elements are `float32` from the compactors to the file and stay as they are: a type
parameter.  So a cache comes back exactly where all heads keep the same tokens; the compactors
that score the tokens choose other ones on each head.
-/

namespace Dexa.Session

open Dexa.Core Dexa.Compaction Dexa.Lib

variable {α : Type} [Inhabited α]

/-- The arrays of the file while they are filled. -/
structure Slabs (α : Type) where
  keys : NDArray α
  values : NDArray α
  biases : NDArray α

/-- The `.npz` file of a compact cache. -/
structure CompactNpz (α : Type) extends Slabs α where
  positions : List Int
  logicalLength : Nat
  spec : String
  method : String
  metadata : String

def zeros [Zero α] (spec : ModelSpec) (t : Nat) : Slabs α where
  keys := .full [spec.nLayers, spec.nKvHeads, t, spec.headDim] 0
  values := .full [spec.nLayers, spec.nKvHeads, t, spec.headDim] 0
  biases := .full [spec.nLayers, spec.nKvHeads, t] 0

/-- One round of the loops in `save_compactcache`. -/
def writeHead (t : Nat) (layer : CompactLayer α) (li h : Nat) (out : Slabs α) : Option (Slabs α) :=
  do
  let key ← layer.keys[h]?
  -- "save_compactcache requires uniform compact length t"
  if key.shape.head? = some t then
    return { keys := ← out.keys.assignCell li h key
             values := ← out.values.assignCell li h (← layer.values[h]?)
             biases := ← out.biases.assignCell li h (.ofList (← layer.biases[h]?)) }
  else none

/-- The loops over layers and heads. -/
def writeLayers (t : Nat) (cc : CompactCache α) (out : Slabs α) : Option (Slabs α) :=
  cc.layers.zipIdx.foldlM (fun out entry =>
    (List.range cc.spec.nKvHeads).foldlM (fun out h => writeHead t entry.1 entry.2 h out) out) out

/-- The text that a numpy array of one text gives back: its padding, NULs, is dropped. -/
def unicode (text : String) : String := String.ofList (text.toList.rdropWhile (· = Char.ofNat 0))

/-- `save_compactcache`, the written file. -/
def saveCompactCache [Zero α] (cc : CompactCache α) : Option (CompactNpz α) := do
  let first ← cc.layers.head?
  let t ← (← first.keys.head?).shape.head?
  let out ← writeLayers t cc (zeros cc.spec t)
  let positions ← first.positions.head?
  -- `np.int64` overflows
  if cc.logicalLength < 2 ^ 63 then
    return { toSlabs := out, positions, logicalLength := cc.logicalLength
             spec := (JsonValue.dict (specDict cc.spec)).dumps, method := cc.method
             metadata := (JsonValue.dict cc.metadata.entries).dumps }
  else none

/-- `load_compactcache`. -/
def loadCompactCache (z : CompactNpz α) : Option (CompactCache α) := do
  let spec ← modelSpec (← entriesOf (← JsonValue.loads z.spec))
  let layers ← (List.range (← z.keys.shape.head?)).mapM fun li => do
    return { keys := ← (List.range spec.nKvHeads).mapM fun h => z.keys.cell? li h
             values := ← (List.range spec.nKvHeads).mapM fun h => z.values.cell? li h
             biases :=
               ← (List.range spec.nKvHeads).mapM fun h => (z.biases.cell? li h).map NDArray.data
             positions := List.replicate spec.nKvHeads z.positions }
  return { spec, layers, logicalLength := z.logicalLength, method := unicode z.method
           metadata := Dict.ofList (← entriesOf (← JsonValue.loads z.metadata)) }

/-- `t` tokens on every head of every layer, with metadata that JSON has. -/
structure Uniform (cc : CompactCache α) (t : Nat) : Prop where
  layers : cc.layers.length = cc.spec.nLayers
  keys : ∀ layer ∈ cc.layers,
    layer.keys.length = cc.spec.nKvHeads ∧ ∀ key ∈ layer.keys, key.shape = [t, cc.spec.headDim]
  values : ∀ layer ∈ cc.layers,
    layer.values.length = cc.spec.nKvHeads ∧ ∀ value ∈ layer.values,
      value.shape = [t, cc.spec.headDim]
  biases : ∀ layer ∈ cc.layers, layer.biases.length = cc.spec.nKvHeads ∧ ∀ bias ∈ layer.biases,
    bias.length = t
  positions : ∀ layer ∈ cc.layers, layer.positions.length = cc.spec.nKvHeads ∧
    ∀ ps ∈ layer.positions, ps.length = t
  metadata : (JsonValue.dict cc.metadata.entries).Exact

/-- An array with a cell for each head, and what it holds at those that are done. -/
structure Filled (cc : CompactCache α) (cell : List Nat)
    (read : CompactLayer α → Nat → Option (NDArray α))
    (done : Nat → Nat → Prop) (slab : NDArray α) : Prop where
  shape : slab.shape = cc.spec.nLayers :: cc.spec.nKvHeads :: cell
  holds : ∀ li layer h, cc.layers[li]? = some layer → h < cc.spec.nKvHeads → done li h →
    read layer h = some (slab.cell li h)

structure Written (cc : CompactCache α) (t : Nat) (done : Nat → Nat → Prop)
    (out : Slabs α) : Prop where
  keys : Filled cc [t, cc.spec.headDim] (fun layer h => layer.keys[h]?) done out.keys
  values : Filled cc [t, cc.spec.headDim] (fun layer h => layer.values[h]?) done out.values
  biases : Filled cc [t] (fun layer h => layer.biases[h]?.map NDArray.ofList) done out.biases

section Filling

variable {cc : CompactCache α} {t : Nat} {cell : List Nat}
  {read : CompactLayer α → Nat → Option (NDArray α)}
  {done done' : Nat → Nat → Prop} {slab : NDArray α}

theorem Filled.mono (filled : Filled cc cell read done slab)
    (fewer : ∀ li < cc.layers.length, ∀ h < cc.spec.nKvHeads, done' li h → done li h) :
      Filled cc cell read done' slab :=
  ⟨filled.shape, fun li layer h here inside now => filled.holds li layer h here inside
    (fewer li (List.getElem?_eq_some_iff.1 here).1 h inside now)⟩

theorem Written.mono {out : Slabs α} (written : Written cc t done out)
    (fewer : ∀ li < cc.layers.length, ∀ h < cc.spec.nKvHeads, done' li h → done li h) :
      Written cc t done' out :=
  ⟨written.keys.mono fewer, written.values.mono fewer, written.biases.mono fewer⟩

theorem written_zeros [Zero α] : Written cc t (fun _ _ => False) (zeros cc.spec t) where
  keys := ⟨rfl, fun _ _ _ _ _ never => never.elim⟩
  values := ⟨rfl, fun _ _ _ _ _ never => never.elim⟩
  biases := ⟨rfl, fun _ _ _ _ _ never => never.elim⟩

theorem Filled.reads (filled : Filled cc cell read (fun _ _ => True) slab)
    (count : cc.layers.length = cc.spec.nLayers)
    {layer : CompactLayer α} {li h : Nat} (here : cc.layers[li]? = some layer)
    (inside : h < cc.spec.nKvHeads) :
    slab.cell? li h = read layer h := by
  have bound := (List.getElem?_eq_some_iff.1 here).1
  rw [NDArray.cell?_eq_some filled.shape (count ▸ bound) inside,
    filled.holds li layer h here inside trivial]

variable {layer : CompactLayer α} {li h : Nat}

theorem Filled.assign {src : NDArray α} (filled : Filled cc cell read done slab)
    (count : cc.layers.length = cc.spec.nLayers)
    (here : cc.layers[li]? = some layer) (inside : h < cc.spec.nKvHeads)
    (reads : read layer h = some src)
    (fits : src.shape = cell) :
    ∃ slab', slab.assignCell li h src = some slab' ∧
      Filled cc cell read (fun li' h' => done li' h' ∨ li' = li ∧ h' = h) slab' := by
  have bound : ∀ {i : Nat} {l : CompactLayer α}, cc.layers[i]? = some l → i < cc.spec.nLayers :=
    fun there =>
    count ▸ (List.getElem?_eq_some_iff.1 there).1
  obtain ⟨slab', assigned, shape, cells⟩ :=
    NDArray.assignCell_eq_some filled.shape (bound here) inside fits
  refine ⟨slab', assigned, shape, ?_⟩
  intro li' layer' h' there inside' now
  rw [cells li' (bound there) h' inside']
  split
  case isTrue written =>
    obtain ⟨rfl, rfl⟩ := written
    rw [here] at there
    cases there
    exact reads
  case isFalse other => exact filled.holds li' layer' h' there inside' (now.resolve_right other)

variable (uniform : Uniform cc t)
include uniform

/-- A round writes one head. -/
theorem writeHead_written {out : Slabs α} (written : Written cc t done out)
    (here : cc.layers[li]? = some layer)
    (inside : h < cc.spec.nKvHeads) :
    ∃ out', writeHead t layer li h out = some out' ∧
      Written cc t (fun li' h' => done li' h' ∨ li' = li ∧ h' = h) out' := by
  have member := List.mem_of_getElem? here
  obtain ⟨keyCount, keyShape⟩ := uniform.keys layer member
  obtain ⟨valueCount, valueShape⟩ := uniform.values layer member
  obtain ⟨biasCount, biasLength⟩ := uniform.biases layer member
  obtain ⟨key, keyHere⟩ : ∃ key, layer.keys[h]? = some key :=
    ⟨_, List.getElem?_eq_getElem (by omega)⟩
  obtain ⟨value, valueHere⟩ : ∃ value, layer.values[h]? = some value :=
    ⟨_, List.getElem?_eq_getElem (by omega)⟩
  obtain ⟨bias, biasHere⟩ : ∃ bias, layer.biases[h]? = some bias :=
    ⟨_, List.getElem?_eq_getElem (by omega)⟩
  have keyFits := keyShape key (List.mem_of_getElem? keyHere)
  have biasFits : (NDArray.ofList bias).shape = [t] :=
    congrArg (fun n => [n]) (biasLength bias (List.mem_of_getElem? biasHere))
  -- the three arrays are filled side by side
  obtain ⟨keys, keysDone, keysFilled⟩ :=
    written.keys.assign uniform.layers here inside keyHere keyFits
  obtain ⟨values, valuesDone, valuesFilled⟩ :=
    written.values.assign uniform.layers here inside valueHere
      (valueShape value (List.mem_of_getElem? valueHere))
  obtain ⟨biases, biasesDone, biasesFilled⟩ :=
    written.biases.assign uniform.layers here inside
      (congrArg (Option.map NDArray.ofList) biasHere) biasFits
  refine ⟨⟨keys, values, biases⟩, ?_, keysFilled, valuesFilled, biasesFilled⟩
  rw [writeHead, keyHere, Option.bind_eq_bind, Option.bind_some, keyFits, List.head?_cons,
    if_pos rfl, keysDone, valueHere,
    biasHere]
  simp only [Option.bind_eq_bind, Option.bind_some, valuesDone, biasesDone, Option.pure_def]

/-- The heads of a layer, one after the other. -/
theorem writeLayer_written {out : Slabs α} (written : Written cc t (fun li' _ => li' < li) out)
    (here : cc.layers[li]? = some layer) :
    ∃ out', (List.range cc.spec.nKvHeads).foldlM (fun out h => writeHead t layer li h out) out =
      some out' ∧
      Written cc t (fun li' _ => li' < li + 1) out' := by
  have run :
    ∃ out', (List.range cc.spec.nKvHeads).foldlM (fun out h => writeHead t layer li h out) out =
    some out' ∧
      Written cc t (fun li' h' => li' < li ∨ li' = li ∧
        h' < (List.range cc.spec.nKvHeads).length) out' := by
    -- all layers before, and the first `k` heads of this one
    refine Fallible.foldlM_some (P := fun k => Written cc t fun li' h' => li' < li ∨ li' = li ∧
      h' < k) ?_ (written.mono ?_)
    · intro k h out there written
      obtain ⟨inside, rfl⟩ := List.getElem?_eq_some_iff.1 there
      rw [List.getElem_range]
      rw [List.length_range] at inside
      obtain ⟨out', done, written'⟩ := writeHead_written uniform written here inside
      exact ⟨out', done, written'.mono (by omega)⟩
    · omega
  obtain ⟨out', done, written'⟩ := run
  rw [List.length_range] at written'
  exact ⟨out', done, written'.mono (by omega)⟩

/-- The layers, one after the other. -/
theorem writeLayers_written [Zero α] :
    ∃ out, writeLayers t cc (zeros cc.spec t) = some out ∧ Written cc t (fun _ _ => True) out := by
  have run : ∃ out, writeLayers t cc (zeros cc.spec t) = some out ∧
      Written cc t (fun li _ => li < cc.layers.zipIdx.length) out := by
    refine Fallible.foldlM_some (P := fun i => Written cc t fun li _ => li < i) ?_
      (written_zeros.mono (by omega))
    intro i entry out there written
    obtain ⟨layer, li⟩ := entry
    rw [List.getElem?_zipIdx, Option.map_eq_some_iff] at there
    obtain ⟨layer', here, same⟩ := there
    cases same
    rw [Nat.zero_add]
    exact writeLayer_written uniform written here
  obtain ⟨out, done, written⟩ := run
  rw [List.length_zipIdx] at written
  exact ⟨out, done, written.mono fun li inside _ _ _ => inside⟩

end Filling

/-! ## What comes back -/

/-- The cache that a load gives: every head has the same positions. -/
def restored (cc : CompactCache α) (positions : List Int) : CompactCache α :=
  { cc with
    layers :=
      cc.layers.map
        fun layer => { layer with positions := List.replicate cc.spec.nKvHeads positions }
    method := unicode cc.method }

theorem unicode_eq_self (text : String) : unicode text = text ↔
    text.toList.getLast? ≠ some (Char.ofNat 0) := by
  rw [unicode, ← String.toList_inj, String.toList_ofList, List.rdropWhile_eq_self_iff]
  by_cases empty : text.toList = []
  · simp [empty]
  · rw [List.getLast?_eq_some_getLast empty]
    constructor
    · intro stays nul
      exact stays empty (decide_eq_true (Option.some.inj nul))
    · intro other _ nul
      exact other (congrArg some (of_decide_eq_true nul))

section Loading

variable [Zero α] {cc : CompactCache α} {t : Nat} (uniform : Uniform cc t)
include uniform

omit [Zero α] in
/-- The loops of a load over filled arrays. -/
theorem loadedLayers {out : Slabs α} (written : Written cc t (fun _ _ => True) out)
    (positions : List Int) :
    (List.range cc.spec.nLayers).mapM (fun li => do
      return ({ keys := ← (List.range cc.spec.nKvHeads).mapM fun h => out.keys.cell? li h
                values := ← (List.range cc.spec.nKvHeads).mapM fun h => out.values.cell? li h
                biases :=
                  ← (List.range cc.spec.nKvHeads).mapM
                    fun h => (out.biases.cell? li h).map NDArray.data
                positions := List.replicate cc.spec.nKvHeads positions } : CompactLayer α)) =
      some (restored cc positions).layers := by
  have count : (restored cc positions).layers.length = cc.spec.nLayers :=
    (List.length_map _).trans uniform.layers
  rw [← count]
  apply Fallible.mapM_range_eq_some
  intro li layer' there
  rw [restored, List.getElem?_map, Option.map_eq_some_iff] at there
  obtain ⟨layer, here, rfl⟩ := there
  have member := List.mem_of_getElem? here
  -- one field of the layer: a loop over its heads
  have heads : ∀ {β : Type} {items : List β} {f : Nat → Option β}, items.length = cc.spec.nKvHeads →
      (∀ h < cc.spec.nKvHeads, f h = items[h]?) →
        (List.range cc.spec.nKvHeads).mapM f = some items := by
    intro β items f length same
    rw [← length]
    refine Fallible.mapM_range_eq_some fun h item found => ?_
    rw [same h (length ▸ (List.getElem?_eq_some_iff.1 found).1), found]
  rw [heads (uniform.keys layer member).1
    fun h inside => written.keys.reads uniform.layers here inside,
    heads (uniform.values layer member).1
      fun h inside => written.values.reads uniform.layers here inside,
    heads (uniform.biases layer member).1 fun h inside => ?_]
  · rfl
  · rw [written.biases.reads uniform.layers here inside, Option.map_map]
    exact Option.map_id' ..

/-- A load gives every head the positions of the first. -/
theorem loadCompactCache_saveCompactCache {first : CompactLayer α} {positions : List Int}
    (head : cc.layers.head? = some first) (kept : first.positions.head? = some positions)
    (fits : cc.logicalLength < 2 ^ 63) :
    (saveCompactCache cc).bind loadCompactCache = some (restored cc positions) := by
  obtain ⟨out, filled, written⟩ := writeLayers_written uniform
  have member : first ∈ cc.layers := List.mem_of_head? head
  have heads : 0 < cc.spec.nKvHeads := by
    rw [← (uniform.positions first member).1]
    exact List.length_pos_of_mem (List.mem_of_head? kept)
  obtain ⟨key, keyHere⟩ : ∃ key, first.keys.head? = some key := by
    rw [List.head?_eq_getElem?]
    exact ⟨_, List.getElem?_eq_getElem (heads.trans_eq (uniform.keys first member).1.symm)⟩
  have keyShape := (uniform.keys first member).2 key (List.mem_of_head? keyHere)
  have spec : JsonValue.loads (JsonValue.dict (specDict cc.spec)).dumps =
    some (.dict (specDict cc.spec)) :=
    loads_dumps (exact_specDict cc.spec)
  have metadata := loads_dumps uniform.metadata
  rw [saveCompactCache, head, Option.bind_eq_bind, Option.bind_some, keyHere, Option.bind_eq_bind,
    Option.bind_some, keyShape,
    List.head?_cons, Option.bind_eq_bind, Option.bind_some, filled, Option.bind_eq_bind,
      Option.bind_some, kept,
    Option.bind_eq_bind, Option.bind_some, if_pos fits, Option.pure_def, Option.bind_some,
      loadCompactCache]
  simp only [spec, entriesOf, modelSpec_specDict, written.keys.shape, List.head?_cons,
    Option.bind_eq_bind, Option.bind_some,
    metadata, Dict.ofList_entries]
  have layers := loadedLayers uniform written positions
  simp only [Option.bind_eq_bind] at layers
  rw [layers, Option.bind_some]
  rfl

omit uniform in
/-- A save that does not raise had a first head and a length that fits. -/
theorem of_saved {z : CompactNpz α} (saved : saveCompactCache cc = some z) :
    ∃ first positions, cc.layers.head? = some first ∧ first.positions.head? = some positions ∧
      cc.logicalLength < 2 ^ 63 := by
  simp only [saveCompactCache, Option.bind_eq_bind, Option.bind_eq_some_iff] at saved
  obtain ⟨first, head, _, _, _, _, _, _, positions, kept, saved⟩ := saved
  split at saved
  case isTrue fits => exact ⟨first, positions, head, kept, fits⟩
  case isFalse => cases saved

omit [Zero α] [Inhabited α] in
theorem restored_eq_iff (positions : List Int) :
    restored cc positions = cc ↔ cc.method.toList.getLast? ≠ some (Char.ofNat 0) ∧
      ∀ layer ∈ cc.layers, ∀ ps ∈ layer.positions, ps = positions := by
  have fields : restored cc positions = cc ↔
      unicode cc.method = cc.method ∧ (restored cc positions).layers = cc.layers.map id := by
    rw [List.map_id]
    constructor
    · intro same
      rw [same]
      exact ⟨congrArg CompactCache.method same, rfl⟩
    · rintro ⟨method, layers⟩
      calc restored cc positions = { cc with layers := (restored cc positions).layers, method := unicode cc.method } := rfl
        _ = cc := by rw [method, layers]
  rw [fields, unicode_eq_self, restored, List.map_inj_left]
  refine and_congr_right fun _ => forall₂_congr fun layer member => ?_
  have length := (uniform.positions layer member).1
  constructor
  · intro same
    have replaced : List.replicate cc.spec.nKvHeads positions = layer.positions :=
      congrArg CompactLayer.positions same
    rw [← replaced]
    exact fun ps here => List.eq_of_mem_replicate here
  · intro shared
    rw [← List.eq_replicate_iff.2 ⟨length, shared⟩]
    rfl

/-- A compact cache comes back where all heads keep the same tokens (and numpy takes the
    scalars). -/
theorem compactCache_survives_iff : (saveCompactCache cc).bind loadCompactCache = some cc ↔
    cc.layers ≠ [] ∧ 0 < cc.spec.nKvHeads ∧ cc.logicalLength < 2 ^ 63 ∧
      cc.method.toList.getLast? ≠ some (Char.ofNat 0) ∧
      ∃ positions, ∀ layer ∈ cc.layers, ∀ ps ∈ layer.positions, ps = positions := by
  constructor
  · intro survives
    obtain ⟨z, saved, -⟩ := Option.bind_eq_some_iff.1 survives
    obtain ⟨first, positions, head, kept, fits⟩ := of_saved saved
    rw [loadCompactCache_saveCompactCache uniform head kept fits, Option.some.injEq,
      restored_eq_iff uniform] at survives
    have member := List.mem_of_head? head
    refine ⟨List.ne_nil_of_mem member, ?_, fits, survives.1, positions, survives.2⟩
    rw [← (uniform.positions first member).1]
    exact List.length_pos_of_mem (List.mem_of_head? kept)
  · rintro ⟨nonempty, heads, fits, method, positions, shared⟩
    obtain ⟨first, rest, layers⟩ := List.exists_cons_of_ne_nil nonempty
    have member : first ∈ cc.layers := by simp [layers]
    have length := (uniform.positions first member).1
    obtain ⟨ps, more, here⟩ := List.exists_cons_of_length_pos (length ▸ heads)
    have head : cc.layers.head? = some first := by rw [layers, List.head?_cons]
    have kept : first.positions.head? = some ps := by rw [here, List.head?_cons]
    obtain rfl := shared first member ps (List.mem_of_head? kept)
    rw [loadCompactCache_saveCompactCache uniform head kept fits,
      (restored_eq_iff uniform ps).2 ⟨method, shared⟩]

end Loading

/-! ## Two heads -/

/-- One layer with one token kept on each of two heads. -/
def twoHeads (left right : Int) : CompactCache (BitVec 32) where
  spec := { name := "m", nLayers := 1, nQHeads := 2, nKvHeads := 2, headDim := 1, hiddenSize := 2 }
  layers := [{ keys := [⟨[1, 1], [0x3F800000], rfl⟩, ⟨[1, 1], [0x40000000], rfl⟩]
               values := [⟨[1, 1], [0x3F000000], rfl⟩, ⟨[1, 1], [0x3E800000], rfl⟩]
               biases := [[0], [0]]
               positions := [[left], [right]] }]
  logicalLength := 2
  method := "heavy_hitter"

theorem uniform_twoHeads (left right : Int) : Uniform (twoHeads left right) 1 where
  layers := rfl
  keys := by simp [twoHeads]
  values := by simp [twoHeads]
  biases := by simp [twoHeads]
  positions := by simp [twoHeads]
  metadata := ⟨List.nodup_nil, trivial⟩

/-- The same token on both heads. -/
theorem twoHeads_survive : (saveCompactCache (twoHeads 1 1)).bind loadCompactCache =
    some (twoHeads 1 1) :=
  (compactCache_survives_iff (uniform_twoHeads 1 1)).2
    ⟨by simp [twoHeads], by decide, by decide, by decide, [1], by simp [twoHeads]⟩

/-- A selection of one token on each head, another one on the second. -/
theorem twoHeads_lost : Uniform (twoHeads 0 1) 1 ∧
    (∃ layer, makeLayer ⟨[2, 2, 1], [0x3F800000, 0, 0, 0x40000000], rfl⟩
        ⟨[2, 2, 1], [0x3F000000, 0, 0, 0x3E800000], rfl⟩ [0, 1] [[0], [1]] = .ok layer ∧
          (twoHeads 0 1).layers = [layer]) ∧
    (saveCompactCache (twoHeads 0 1)).bind loadCompactCache ≠ some (twoHeads 0 1) := by
  refine ⟨uniform_twoHeads 0 1, ⟨_, ?_, rfl⟩, ?_⟩
  · simp only [makeLayer, makeHead, List.zipIdx_cons, List.zipIdx_nil, List.mapM_cons,
      List.mapM_nil, List.mergeSort_singleton]
    rfl
  · intro survives
    rw [loadCompactCache_saveCompactCache (uniform_twoHeads 0 1) rfl rfl (by decide),
      Option.some.injEq] at survives
    have positions := congrArg (fun cc => cc.layers.map CompactLayer.positions) survives
    revert positions
    decide

end Dexa.Session
