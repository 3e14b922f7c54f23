import Dexa.Cartridges.Compiler

/-! # Cartridges as paged prefixes (`dexa/engine/vllm_cartridge.py`)

A cartridge is served as the first blocks of a sequence.  Its arrays are turned, layer by layer, so
that the token leads, and packed.  A registered cartridge has the shape of the served model, but
only its keys have been looked at. Where its values have the same shape, the blocks hold the tensors
that a backend decodes over when it is given the compact cache, and the query stands at the
positions where that backend puts it.
-/

namespace Dexa.Cartridges

open Dexa.Core Dexa.Engine Dexa.Lib

inductive PrefixError where
  /-- `expected [n_layers, n_kv_heads, t, head_dim]; got ... / ...` -/
  | notStacked (keys values : List Nat)
  /-- `keys/values shape mismatch: ... vs ...` -/
  | unequal (keys values : List Nat)
  /-- `k_layers/v_layers length mismatch` -/
  | lengthMismatch
  /-- numpy: `axes don't match array` -/
  | axes
  /-- numpy: `need at least one array to stack`, or `all input arrays must have the same shape` -/
  | stack
  /-- `n_query must be non-negative` -/
  | negative
  /-- `cartridge.keys must be 4-D [L,n_kv,t,d]; got ...` -/
  | keyAxes (keys : List Nat)
  /-- `cartridge does not match the served model: ` and the texts, `"; "` between them -/
  | mismatches (texts : List String)
  | block (e : BlockError)
  deriving DecidableEq, Repr

variable {α τ H Λ : Type} [Inhabited α]

/-- `cartridge_to_token_major`. -/
def cartridgeToTokenMajor (keys values : NDArray α) :
    Except PrefixError (List (NDArray α) × List (NDArray α)) :=
  if keys.shape.length ≠ 4 ∨ values.shape.length ≠ 4 then .error
    (.notStacked keys.shape values.shape)
  else if keys.shape ≠ values.shape then .error (.unequal keys.shape values.shape)
  else
    let layers := List.range (keys.shape.headD 0)
    .ok (layers.map fun li => (keys.select0 li).swapAxes,
      layers.map fun li => (values.select0 li).swapAxes)

/-- `transpose(1, 0, 2)`. -/
def transposed (a : NDArray α) : Except PrefixError (NDArray α) :=
  if a.shape.length = 3 then .ok a.swapAxes else .error .axes

/-- `np.stack([k.transpose(1, 0, 2) for k in layers], axis=0)`. -/
def stackTransposed (layers : List (NDArray α)) : Except PrefixError (NDArray α) := do
  let turned ← layers.mapM transposed
  match NDArray.stack turned with
  | some a => .ok a
  | none => .error .stack

/-- `token_major_to_cartridge`. -/
def tokenMajorToCartridge (kLayers vLayers : List (NDArray α)) :
    Except PrefixError (NDArray α × NDArray α) := do
  if kLayers.length ≠ vLayers.length then throw .lengthMismatch
  let keys ← stackTransposed kLayers
  let values ← stackTransposed vLayers
  return (keys, values)

/-- `query_positions`. -/
def queryPositions (c : Cartridge α) (nQuery : Int) : Except PrefixError (List Int) :=
  if nQuery < 0 then .error .negative
    else .ok (arange c.logicalLength (c.logicalLength + nQuery.toNat))

/-- `assert_cartridge_matches_spec`. -/
def assertCartridgeMatchesSpec (c : Cartridge α) (s : ModelSpec) : Except PrefixError Unit :=
  match c.keys.shape with
  | [layers, nKv, t, d] =>
    let mismatches :=
      (if layers ≠ s.nLayers then [s!"n_layers {layers} != model {s.nLayers}"] else []) ++
      (if nKv ≠ s.nKvHeads then [s!"n_kv_heads {nKv} != model {s.nKvHeads}"] else []) ++
      (if d ≠ s.headDim then [s!"head_dim {d} != model {s.headDim}"] else []) ++
      (if c.positions.length ≠ t then [s!"positions length {c.positions.length} != t {t}"] else [])
    if mismatches = [] then .ok () else .error (.mismatches mismatches)
  | shape => .error (.keyAxes shape)

/-- `_PagedPrefixWriter`. -/
structure PagedPrefixWriter (τ : Type) where
  kBlocks : List (NDArray τ)
  vBlocks : List (NDArray τ)
  positions : List Int
  logicalLength : Nat
  blockSize : Nat

/-- The blocks of one layer in `_inject_prefix`, in the numbers of the device. -/
def prefixBlocks [Zero α] (fromFloat : α → τ) (blockSize : Nat) (tokenMajor : NDArray α) :
    Except PrefixError (NDArray τ) :=
  match packTokenMajorIntoBlocks 0 tokenMajor blockSize with
  | .ok blocks => .ok (blocks.map fromFloat)
  | .error e => .error (.block e)

/-- `_inject_prefix`, up to `attach_to_runner`, which each site brings. -/
def injectPrefix [Zero α] (fromFloat : α → τ) (blockSize : Nat) (c : Cartridge α) :
    Except PrefixError (PagedPrefixWriter τ) := do
  let (kLayers, vLayers) ← cartridgeToTokenMajor c.keys c.values
  let kBlocks ← kLayers.mapM (prefixBlocks fromFloat blockSize)
  let vBlocks ← vLayers.mapM (prefixBlocks fromFloat blockSize)
  return { kBlocks, vBlocks, positions := c.positions, logicalLength := c.logicalLength, blockSize }

theorem transposed_eq_ok {a turned : NDArray α} : transposed a = .ok turned ↔ a.shape.length = 3 ∧
    a.swapAxes = turned := by
  unfold transposed
  split <;> simp [*]

theorem stackTransposed_eq_ok {layers : List (NDArray α)} {a : NDArray α} :
    stackTransposed layers = .ok a ↔
    layers ≠ [] ∧ ∃ n t d, a.shape = [layers.length, n, t, d] ∧
      layers = (List.range layers.length).map fun li => (a.select0 li).swapAxes := by
  constructor
  · intro done
    obtain ⟨turned, turning, stacking⟩ := Fallible.ok_of_bind done
    have turns := Fallible.mapM_eq_ok_iff.1 turning
    have count := turns.length_eq
    obtain stacked : NDArray.stack turned = some a := by
      cases found : NDArray.stack turned with
      | none => simp [found] at stacking
      | some a' => simpa [found] using stacking
    obtain ⟨nonempty, shape, hshape, slices⟩ := NDArray.stack_eq_some_iff.1 stacked
    -- every layer is the transpose of its slice, so it has three axes exactly when the slice has
    have layer : ∀ li (inside : li < layers.length), layers[li].shape.length = 3 ∧
      layers[li].swapAxes = a.select0 li := by
      intro li inside
      obtain ⟨axes, turn⟩ := transposed_eq_ok.1 (turns.get inside (count ▸ inside))
      refine ⟨axes, turn.trans ?_⟩
      have slice := List.getElem_of_eq slices (count ▸ inside)
      simpa using slice
    -- so all slices have the three axes of the first, turned
    have first : 0 < layers.length := count ▸ List.length_pos_iff.2 nonempty
    have positive : 0 < turned.length := count ▸ first
    obtain ⟨t, n, d, shape0⟩ : ∃ t n d, layers[0].shape = [t, n, d] :=
      List.length_eq_three.1 (layer 0 first).1
    obtain rfl : shape = [n, t, d] := by
      rw [← NDArray.shape_select0 0 hshape, ← (layer 0 first).2, NDArray.shape_swapAxes shape0]
    refine ⟨List.length_pos_iff.1 first, n, t, d, by rw [hshape, count], ?_⟩
    apply List.ext_getElem (by simp)
    intro li left right
    obtain ⟨axes, turn⟩ := layer li left
    obtain ⟨t', n', d', shape'⟩ := List.length_eq_three.1 axes
    rw [List.getElem_map, List.getElem_range, ← turn, NDArray.swapAxes_swapAxes shape']
  · rintro ⟨nonempty, n, t, d, shape, slices⟩
    have positive : 0 < layers.length := List.length_pos_iff.2 nonempty
    have turn : ∀ li ∈ List.range layers.length,
      (transposed ∘ fun li => (a.select0 li).swapAxes) li = .ok (a.select0 li) := by
      intro li _
      have slice := NDArray.shape_select0 li shape
      simp [transposed, NDArray.shape_swapAxes slice, NDArray.swapAxes_swapAxes slice]
    rw [slices, stackTransposed, List.mapM_map, Fallible.mapM_eq_map turn]
    simp only [bind, Except.bind, NDArray.stack_select0 shape positive]

theorem cartridgeToTokenMajor_eq_ok {keys values : NDArray α} {kLayers vLayers : List (NDArray α)} :
    cartridgeToTokenMajor keys values = .ok (kLayers, vLayers) ↔ values.shape = keys.shape ∧
      ∃ layers n t d, keys.shape = [layers, n, t, d] ∧
      kLayers = (List.range layers).map (fun li => (keys.select0 li).swapAxes) ∧
      vLayers = (List.range layers).map fun li => (values.select0 li).swapAxes := by
  unfold cartridgeToTokenMajor
  constructor
  · intro done
    split at done
    · cases done
    · next stacked =>
      split at done
      · cases done
      · next equal =>
        simp only [ne_eq, Decidable.not_not, not_or] at stacked equal
        obtain ⟨layers, n, t, d, shape⟩ : ∃ layers n t d, keys.shape = [layers, n, t, d] := by
          match h : keys.shape, stacked.1 with
          | [layers, n, t, d], _ => exact ⟨layers, n, t, d, rfl⟩
        rw [shape] at done
        simp only [Except.ok.injEq, Prod.mk.injEq] at done
        exact ⟨equal.symm, layers, n, t, d, shape, done.1.symm, done.2.symm⟩
  · rintro ⟨equal, layers, n, t, d, shape, rfl, rfl⟩
    simp [equal, shape]

/-- The two layouts are one: with a layer, each is the other's way back where keys and values have
    one shape. -/
theorem tokenMajor_roundTrip (keys values : NDArray α) (kLayers vLayers : List (NDArray α)) :
    cartridgeToTokenMajor keys values = .ok (kLayers, vLayers) ∧ kLayers ≠ [] ↔
      tokenMajorToCartridge kLayers vLayers = .ok (keys, values) ∧ values.shape = keys.shape := by
  have back : tokenMajorToCartridge kLayers vLayers = .ok (keys, values) ↔
      kLayers.length = vLayers.length ∧ stackTransposed kLayers = .ok keys ∧
        stackTransposed vLayers = .ok values := by
    unfold tokenMajorToCartridge
    by_cases same : kLayers.length = vLayers.length
    · cases stackTransposed kLayers <;> cases stackTransposed vLayers <;> simp [same, bind,
        Except.bind, pure, Except.pure]
    · simp [same, bind, Except.bind, throw, throwThe, MonadExceptOf.throw]
  rw [cartridgeToTokenMajor_eq_ok, back, stackTransposed_eq_ok, stackTransposed_eq_ok]
  constructor
  · rintro ⟨⟨equal, layers, n, t, d, shape, rfl, rfl⟩, nonempty⟩
    have positive : layers ≠ 0 := by simpa using nonempty
    simp [positive, shape, equal]
  · rintro ⟨⟨count, ⟨nonempty, n, t, d, shape, kSlices⟩, -, n', t', d', shape', vSlices⟩, equal⟩
    exact ⟨⟨equal, kLayers.length, n, t, d, shape, kSlices, count ▸ vSlices⟩, nonempty⟩

omit [Inhabited α] in
/-- A cartridge is registered exactly when its keys have the shape of the model, and as many tokens
    as it has positions. -/
theorem assertCartridgeMatchesSpec_eq_ok {c : Cartridge α} {s : ModelSpec} :
    assertCartridgeMatchesSpec c s = .ok () ↔
      c.keys.shape = [s.nLayers, s.nKvHeads, c.positions.length, s.headDim] := by
  unfold assertCartridgeMatchesSpec
  split
  · next layers nKv t d shape =>
    rw [shape]
    by_cases sameLayers : layers = s.nLayers
    · by_cases sameHeads : nKv = s.nKvHeads
      · by_cases sameDim : d = s.headDim
        · by_cases sameTokens : c.positions.length = t <;> simp [*, eq_comm]
        · simp [*]
      · simp [*]
    · simp [*]
  · next other =>
    constructor
    · intro accepted
      cases accepted
    · intro shape
      exact absurd shape (other _ _ _ _)

/-! ## Slots -/

section Slots

variable [Zero α] (fromFloat : α → τ) {a : NDArray α} {nKv t d b : Nat}

omit [Zero α] in
/-- Every slot of the blocks: the token that is there, and zeros behind the last. -/
theorem packTokenMajorIntoBlocks_cells (zero : α) {tokenMajor : NDArray α}
    (hshape : tokenMajor.shape = [t, nKv, d]) (positive : 0 < b) :
    ∃ out, packTokenMajorIntoBlocks zero tokenMajor b = .ok out ∧
      out.shape = [ceilDiv t b, b, nKv, d] ∧
      ∀ i h c, i < ceilDiv t b * b → h < nKv → c < d →
        out.get? [i / b, i % b, h, c] = some (tokenMajor.getD [i, h, c] zero) := by
  simp only [packTokenMajorIntoBlocks, hshape, if_neg (Nat.ne_of_gt positive)]
  refine ⟨_, rfl, rfl, ?_⟩
  intro i h c inside hh hc
  have block : i / b < ceilDiv t b := Nat.div_lt_of_lt_mul (by rwa [Nat.mul_comm])
  have merged : i / b * b + i % b = i := by rw [Nat.mul_comm]; exact Nat.div_add_mod i b
  have rest : NDArray.InBounds [nKv, d] [h, c] := ⟨hh, hc, trivial⟩
  have slot : NDArray.InBounds [ceilDiv t b * b, nKv, d] [i, h, c] := ⟨inside, rest⟩
  rw [NDArray.get?_split rfl _ block (Nat.mod_lt i positive) rest, merged, NDArray.getD]
  cases stored : tokenMajor.get? [i, h, c] with
  | some x => exact NDArray.get?_assignTake slot stored
  | none =>
    rw [NDArray.get?_assignTake_kept slot stored]
    exact NDArray.get?_ofFn_inBounds _ slot

/-- One array of a layer on the device, and what unpacking gives back of it. -/
theorem prefixBlocks_ok (hshape : a.shape = [nKv, t, d]) (positive : 0 < b) :
    ∃ blocks, prefixBlocks fromFloat b a.swapAxes = .ok blocks ∧
      blocks.shape = [ceilDiv t b, b, nKv, d] ∧
      (∀ i h c, i < ceilDiv t b * b → h < nKv → c < d →
        blocks.get? [i / b, i % b, h, c] = some (fromFloat (a.getD [h, i, c] 0))) ∧
      ∀ [Inhabited τ], unpackBlocks t blocks = .ok (a.map fromFloat) := by
  have turned := NDArray.shape_swapAxes hshape
  obtain ⟨out, packed, shape, cells⟩ := packTokenMajorIntoBlocks_cells 0 turned positive
  have slots : ∀ i h c, i < ceilDiv t b * b → h < nKv → c < d →
      (out.map fromFloat).get? [i / b, i % b, h, c] = some (fromFloat (a.getD [h, i, c] 0)) := by
    intro i h c inside hh hc
    rw [NDArray.get?_map, cells i h c inside hh hc, NDArray.getD, NDArray.get?_swapAxes hshape]
    rfl
  refine ⟨out.map fromFloat, by rw [prefixBlocks, packed], shape, slots, ?_⟩
  intro _
  have covered : t ≤ ceilDiv t b * b := by
    by_contra short
    exact absurd (lt_ceilDiv_mul positive (Nat.lt_of_not_le short)) (Nat.lt_irrefl _)
  have paged : (out.map fromFloat).shape = [ceilDiv t b, b, nKv, d] := shape
  obtain ⟨back, unpacked, backShape, reads⟩ := unpackBlocks_ok t paged
  rw [unpacked, Except.ok.injEq]
  apply NDArray.ext_get? ((backShape covered).trans hshape.symm)
  intro ix inside
  rw [backShape covered] at inside
  obtain ⟨h, i, c, rfl, hh, hi, hc⟩ := NDArray.inBounds_three inside
  have there : NDArray.InBounds a.shape [h, i, c] := hshape ▸ inside
  rw [reads i h c hi (by omega) hh hc, slots i h c (by omega) hh hc, NDArray.get?_map,
    ← NDArray.some_getD 0 there]
  rfl

/-- `blocks` holds the array `a` of all layers: token `i` in slot `i`, and zeros behind the last. -/
structure PrefixOf (a : NDArray α) (layers heads t d b : Nat) (blocks : List (NDArray τ)) :
    Prop where
  length : blocks.length = layers
  slots : ∀ li packed, blocks[li]? = some packed → packed.shape = [ceilDiv t b, b, heads, d] ∧
    ∀ i h c, i < ceilDiv t b * b → h < heads → c < d →
      packed.get? [i / b, i % b, h, c] = some (fromFloat (a.getD [li, h, i, c] 0))

variable {layers : Nat}

theorem prefixLayers_ok (hshape : a.shape = [layers, nKv, t, d]) (positive : 0 < b) :
    ∃ blocks, ((List.range layers).map fun li => (a.select0 li).swapAxes).mapM
      (prefixBlocks fromFloat b) = .ok blocks ∧
      PrefixOf fromFloat a layers nKv t d b blocks ∧
      ∀ [Inhabited τ] li packed, blocks[li]? = some packed →
        unpackBlocks t packed = .ok ((a.select0 li).map fromFloat) := by
  have layer : ∀ li < layers, ∃ packed,
    prefixBlocks fromFloat b (a.select0 li).swapAxes = .ok packed ∧
      (packed.shape = [ceilDiv t b, b, nKv, d] ∧
        ∀ i h c, i < ceilDiv t b * b → h < nKv → c < d →
          packed.get? [i / b, i % b, h, c] = some (fromFloat (a.getD [li, h, i, c] 0))) ∧
      ∀ [Inhabited τ], unpackBlocks t packed = .ok ((a.select0 li).map fromFloat) := by
    intro li inside
    obtain ⟨packed, done, shape, slots, unpacked⟩ :=
      prefixBlocks_ok fromFloat (NDArray.shape_select0 li hshape) positive
    refine ⟨packed, done, ⟨shape, fun i h c slot hh hc => ?_⟩, unpacked⟩
    rw [slots i h c slot hh hc, NDArray.getD, NDArray.getD, NDArray.get?_select0 hshape inside]
  obtain ⟨blocks, done, length, each⟩ := Fallible.mapM_range_ok layer
  rw [List.mapM_map]
  exact ⟨blocks, done, ⟨length, fun li packed here => (each li packed here).1⟩,
    fun li packed here => (each li packed here).2⟩

end Slots

/-! ## The prefix of a registered cartridge -/

/-- The cartridge, taken for one of the model that is served: `assert_cartridge_matches_spec` asks
    for its arrays only. -/
def Cartridge.forModel (c : Cartridge α) (s : ModelSpec) : Cartridge α := { c with spec := s }

section Registered

variable [Field α] [Inhabited τ] {b : HFBackend α τ Λ} {c : Cartridge α} {bs : Nat}

omit [Field α] in
/-- Unpacked, the blocks are the tensors of the device. -/
theorem unpack_prefix {w : PagedPrefixWriter τ}
    (keys : ∀ li packed, w.kBlocks[li]? = some packed →
      unpackBlocks c.positions.length packed = .ok ((c.keys.select0 li).map b.fromFloat))
    (values : ∀ li packed, w.vBlocks[li]? = some packed →
      unpackBlocks c.positions.length packed = .ok ((c.values.select0 li).map b.fromFloat))
    (keyCount : w.kBlocks.length = b.model.spec.nLayers)
    (valueCount : w.vBlocks.length = b.model.spec.nLayers) :
    pagedBlocksToKVCache w.kBlocks w.vBlocks b.model.spec c.positions none =
      .ok { spec := b.model.spec, layers := (c.forModel b.model.spec).params b, positions := c.positions } := by
  have layers : (w.kBlocks.zip w.vBlocks).mapM (unpackLayer c.positions.length) =
    .ok ((c.forModel b.model.spec).params b) := by
    rw [Fallible.mapM_eq_ok_iff, List.forall₂_iff_get]
    refine ⟨by simp [Cartridge.params, Cartridge.asCache, Cartridge.forModel, keyCount, valueCount],
      ?_⟩
    intro li left right
    have inside : li < b.model.spec.nLayers := by simpa [keyCount, valueCount] using left
    have key := keys li _ (List.getElem?_eq_getElem (keyCount ▸ inside))
    have value := values li _ (List.getElem?_eq_getElem (valueCount ▸ inside))
    simp [unpackLayer, key, value, Cartridge.params, Cartridge.asCache, Cartridge.forModel,
      LayerKV.map, bind, Except.bind, pure, Except.pure]
  simp only [pagedBlocksToKVCache, keyCount, valueCount, layers, ne_eq, not_true_eq_false, if_false]
  rfl

/-- What the blocks of a prefix stand for: the arrays in their slots, and the logits that a backend
    computes over the compact cache, with the query where the server puts it. -/
structure Serves (b : HFBackend α τ Λ) (bs : Nat) (c : Cartridge α) (w : PagedPrefixWriter τ) :
    Prop where
  keys : PrefixOf b.fromFloat c.keys b.model.spec.nLayers b.model.spec.nKvHeads c.positions.length b.model.spec.headDim bs w.kBlocks
  values :
    PrefixOf b.fromFloat c.values b.model.spec.nLayers b.model.spec.nKvHeads c.positions.length b.model.spec.headDim bs w.vBlocks
  positions : w.positions = c.positions
  decodes : ∃ kv cc, pagedBlocksToKVCache w.kBlocks w.vBlocks b.model.spec w.positions none =
    .ok kv ∧
    (c.forModel b.model.spec).toCompactCache = some cc ∧ ∀ qIds : List Int, ∃ qPositions,
      queryPositions c qIds.length = .ok qPositions ∧
      b.contextLogits (.compact cc) qIds = some (b.decode kv.layers
        (List.replicate kv.layers.length (b.betaRows c.positions.length c.positions.length))
        (b.attentionMask c.positions.length qIds.length) qPositions qIds)

variable (b c) in
/-- A registered cartridge is served when its values have the shape of its keys; else its first
    request fails. -/
theorem registered_prefix (positive : 0 < bs) (layer : 0 < b.model.spec.nLayers)
    (head : 0 < b.model.spec.nKvHeads)
    (channel : 0 < b.model.spec.headDim)
    (groups : b.model.spec.nKvHeads * b.model.spec.groupSize = b.model.spec.nQHeads)
    (registered : assertCartridgeMatchesSpec c b.model.spec = .ok ()) :
    if c.values.shape = c.keys.shape then ∃ w, injectPrefix b.fromFloat bs c = .ok w ∧
      Serves b bs c w
    else injectPrefix b.fromFloat bs c =
      .error (if c.values.shape.length = 4 then .unequal c.keys.shape c.values.shape
        else .notStacked c.keys.shape c.values.shape) := by
  have shape := assertCartridgeMatchesSpec_eq_ok.1 registered
  by_cases equal : c.values.shape = c.keys.shape
  · rw [if_pos equal]
    have fits : (c.forModel b.model.spec).Fits b.model.spec c.positions.length :=
      ⟨⟨shape, equal.trans shape⟩, rfl, rfl⟩
    obtain ⟨kBlocks, packedKeys, keys, unpackedKeys⟩ := prefixLayers_ok b.fromFloat shape positive
    obtain ⟨vBlocks, packedValues, values, unpackedValues⟩ :=
      prefixLayers_ok b.fromFloat (equal.trans shape) positive
    have turned := cartridgeToTokenMajor_eq_ok.2 ⟨equal, _, _, _, _, shape, rfl, rfl⟩
    have injected :
      injectPrefix b.fromFloat bs c = .ok ⟨kBlocks, vBlocks, c.positions, c.logicalLength, bs⟩ := by
      rw [injectPrefix, turned]
      simp only [bind, Except.bind, packedKeys, packedValues]
      rfl
    refine ⟨_, injected, keys, values, rfl, _, _,
      unpack_prefix unpackedKeys unpackedValues keys.length values.length,
      fits.toCompactCache_eq, fun qIds => ⟨_, if_neg (by omega), ?_⟩⟩
    exact contextLogits_cartridge fits (fits.cacheOf layer head channel groups) qIds
  · rw [if_neg equal, injectPrefix, cartridgeToTokenMajor, shape]
    by_cases four : c.values.shape.length = 4
    · simp [four, Ne.symm (shape ▸ equal), bind, Except.bind]
    · simp [four, bind, Except.bind]

end Registered

/-- Two tokens of a corpus of three. -/
def evenPrefix : Cartridge ℚ :=
  { spec := twoHeads, keys := NDArray.full [1, 2, 2, 1] 1, values := NDArray.ofFn [1, 2, 2, 1] fun ix => ix.getD 2 0, positions := [0, 2],
    logicalLength := 3 }

theorem registered_prefix_even : ∃ w, injectPrefix evenCompiler.fromFloat 4 evenPrefix = .ok w ∧
    Serves evenCompiler 4 evenPrefix w := by
  have blocks : 0 < 4 := by simp
  have served :=
    registered_prefix evenCompiler evenPrefix blocks (by decide) (by decide) (by decide)
      (by decide) (by decide)
  have equal : evenPrefix.values.shape = evenPrefix.keys.shape := rfl
  rwa [if_pos equal] at served

end Dexa.Cartridges
