import Dexa.Engine.ConnectorWorker
import Dexa.Lib.Fallible
import Dexa.Lib.Lists

/-! # A prompt's KV survives the store and two pagings

The proof follows one array of one layer through the stages.  `Gathered` relates a paged
view to the head-major array saved from it, `Packed` to the blocks a load makes of that
array, and `loadLayer_ok` says where the blocks land.  The loops over layers and requests
are carried by `mapM_ok` and the loop rules of `Dict`.
-/

namespace Dexa.Engine

open Dexa.Core Dexa.Lib

variable {τ α β : Type} [Inhabited τ]

/-! ## The two views of a paged tensor -/

/-- The keys (`j = 0`) or the values (`j = 1`) of a paged tensor. -/
def kvView (t : NDArray τ) (j : Nat) : NDArray τ :=
  match kvAxis t.shape with
  | some axis => axis.view t j
  | none => t

/-- A paged tensor of `nb` blocks with `b` slots each. -/
def Paged (t : NDArray τ) (nb b heads dim : Nat) : Prop :=
  (kvAxis t.shape).isSome ∧ ∀ j < 2, (kvView t j).shape = [nb, b, heads, dim]

theorem Paged.axis {t : NDArray τ} {nb b heads dim : Nat} (paged : Paged t nb b heads dim) :
    ∃ axis, kvAxis t.shape = some axis ∧ ∀ j, kvView t j = axis.view t j := by
  obtain ⟨axis, found⟩ := Option.isSome_iff_exists.1 paged.1
  exact ⟨axis, found, fun j => by simp only [kvView, found]⟩

theorem kvSplit_ok {t : NDArray τ} {nb b heads dim : Nat} (paged : Paged t nb b heads dim) :
    kvSplit t = .ok (kvView t 0, kvView t 1) := by
  obtain ⟨axis, found, views⟩ := paged.axis
  simp only [kvSplit, found, views]

/-- Blocks first, then keys and values: view `j` of block `p` is the sub-array `[p, j]`. -/
theorem get?_kvView_dim1 {t : NDArray τ} {nb p j : Nat} {rest ix : List Nat}
    (hshape : t.shape = nb :: 2 :: rest)
    (hj : j < 2) : (kvView t j).get? (p :: ix) = t.get? (p :: j :: ix) := by
  simp only [kvView, hshape, kvAxis]
  exact NDArray.get?_select1 hshape hj

/-- Keys and values first: view `j` of block `p` is `[j, p]`, unless there are two blocks. -/
theorem get?_kvView_dim0 {t : NDArray τ} {nb p j : Nat} {rest ix : List Nat}
    (hshape : t.shape = 2 :: nb :: rest)
    (many : nb ≠ 2) (hj : j < 2) : (kvView t j).get? (p :: ix) = t.get? (j :: p :: ix) := by
  have axis : kvAxis t.shape = some .dim0 := by
    rw [hshape]
    unfold kvAxis
    split
    · rename_i same
      simp only [List.cons.injEq] at same
      exact absurd same.2.1 many
    · rfl
    · rename_i other
      exact absurd rfl (other nb rest)
  simp only [kvView, axis]
  exact NDArray.get?_select0 hshape hj

/-! ## Saving -/

/-- The blocks captured from one view of a layer. -/
def capture (codec : Codec τ α β) (blockIds : List Nat) (j : Nat) (t : NDArray τ) : NDArray α :=
  ((kvView t j).gatherRows blockIds).map codec.widen

/-- A request's captured layers after one more. -/
def captureInto (codec : Codec τ α β) (t : NDArray τ) (slot : Option (CapturedLayers α))
    (save : SavePlan) :
    CapturedLayers α :=
  { k := (slot.getD {}).k ++ [capture codec save.blockIds 0 t]
    v := (slot.getD {}).v ++ [capture codec save.blockIds 1 t] }

variable {codec : Codec τ α β} {plan : ConnectorMetadata} {nb b heads dim : Nat}

theorem captureRequest_ok {t : NDArray τ} (paged : Paged t nb b heads dim)
    (saveLayers : Dict String (CapturedLayers α)) {e : String × SavePlan}
    (inRange : ∀ id ∈ e.2.blockIds, id < nb) :
    captureRequest codec (kvView t 0) (kvView t 1) saveLayers e =
      .ok (saveLayers.set e.1 (captureInto codec t (saveLayers.get? e.1) e.2)) := by
  simp only [captureRequest, NDArray.indexSelect_eq_some (paged.2 0 (by omega)) inRange,
    NDArray.indexSelect_eq_some (paged.2 1 (by omega)) inRange]
  rfl

theorem saveKvLayer_ok {t : NDArray τ} (paged : Paged t nb b heads dim)
    (inRange : ∀ rid save, plan.saves.get? rid = some save → ∀ id ∈ save.blockIds, id < nb)
    (saveLayers : Dict String (CapturedLayers α)) :
    ∃ captured, saveKvLayer codec (some plan) saveLayers t = .ok captured ∧ ∀ rid,
      captured.get? rid =
      (plan.saves.get? rid).elim (saveLayers.get? rid) fun save =>
        some (captureInto codec t (saveLayers.get? rid) save) := by
  by_cases idle : plan.saves.entries = []
  · have unplanned : ∀ rid, plan.saves.get? rid = none :=
      fun rid => by simp [Dict.get?, idle, Dict.lookup]
    exact ⟨saveLayers, by simp [saveKvLayer, idle], fun rid => by rw [unplanned rid]; rfl⟩
  · have body : ∀ d, ∀ e ∈ plan.saves.entries, captureRequest codec (kvView t 0) (kvView t 1) d e =
        .ok (d.set e.1 (captureInto codec t (d.get? e.1) e.2)) := fun d e member =>
      captureRequest_ok paged d (inRange e.1 e.2 (Dict.mem_entries_iff.1 member))
    rw [saveKvLayer, if_neg idle, kvSplit_ok paged]
    exact Dict.get?_foldlM_update plan.saves.nodup body saveLayers

variable (codec) in
/-- What has been captured for each request of the step once the layers `ts` went by. -/
theorem captureLayers_ok {ts : List (NDArray τ)} (paged : ∀ t ∈ ts, Paged t nb b heads dim)
    (inRange : ∀ rid save, plan.saves.get? rid = some save → ∀ id ∈ save.blockIds, id < nb)
    (saveLayers : Dict String (CapturedLayers α)) :
    ∃ captured, ts.foldlM (saveKvLayer codec (some plan)) saveLayers = .ok captured ∧
      (∀ rid save, plan.saves.get? rid = some save → (captured.get? rid).getD {} =
        { k := ((saveLayers.get? rid).getD {}).k ++ ts.map (capture codec save.blockIds 0)
          v := ((saveLayers.get? rid).getD {}).v ++ ts.map (capture codec save.blockIds 1) }) ∧
      ∀ rid, plan.saves.get? rid = none → captured.get? rid = saveLayers.get? rid := by
  induction ts generalizing saveLayers with
  | nil => exact ⟨saveLayers, rfl, fun rid save _ => by simp, fun rid _ => rfl⟩
  | cons t ts ih =>
    obtain ⟨middle, step, reads⟩ := saveKvLayer_ok (paged t List.mem_cons_self) inRange saveLayers
    obtain ⟨captured, run, planned, unplanned⟩ :=
      ih (fun t' member => paged t' (List.mem_cons_of_mem _ member)) middle
    refine ⟨captured, by rw [List.foldlM_cons, step]; exact run, ?_, ?_⟩
    · intro rid save found
      have now := reads rid
      rw [found] at now
      rw [planned rid save found, now]
      simp [captureInto]
    · intro rid missing
      have now := reads rid
      rw [missing] at now
      exact (unplanned rid missing).trans now

section Saving

variable [Inhabited α]

/-- `a` is the head-major array of the first `t` tokens of a paged view, read through the
    block table `ids`. -/
structure Gathered (codec : Codec τ α β) (ids : List Nat) (b heads dim t : Nat) (view : NDArray τ)
    (a : NDArray α) :
    Prop where
  shape : a.shape = [heads, t, dim]
  cells : ∀ i h c p, i < t → h < heads → c < dim → ids[i / b]? = some p →
    a.get? [h, i, c] = (view.get? [p, i % b, h, c]).map codec.widen

variable (codec) in
theorem unpack_capture {t : NDArray τ} {ids : List Nat} {j : Nat} (paged : Paged t nb b heads dim)
    (hj : j < 2)
    (inRange : ∀ id ∈ ids, id < nb) (len : Nat) :
    ∃ a, unpackBlocks len (capture codec ids j t) = .ok a ∧
      (len ≤ ids.length * b → Gathered codec ids b heads dim len (kvView t j) a) := by
  have view := paged.2 j hj
  have blocks : (capture codec ids j t).shape = [ids.length, b, heads, dim] :=
    NDArray.shape_gatherRows ids view
  obtain ⟨a, unpacked, shape, cells⟩ := unpackBlocks_ok len blocks
  refine ⟨a, unpacked, fun covered => ⟨shape covered, ?_⟩⟩
  intro i h c p hi hh hc hp
  have bound : p < nb := inRange p (List.mem_of_getElem? hp)
  rw [cells i h c hi (Nat.lt_of_lt_of_le hi covered) hh hc, capture, NDArray.get?_map,
    NDArray.get?_gatherRows view bound hp]

/-- A stored layer carries both views of the paged layer it was saved from. -/
def SavedLayer (codec : Codec τ α β) (ids : List Nat) (b heads dim t : Nat) (source : NDArray τ)
    (l : LayerKV α) :
    Prop :=
  Gathered codec ids b heads dim t (kvView source 0) l.key ∧
    Gathered codec ids b heads dim t (kvView source 1) l.value

variable (codec) in
theorem pagedBlocksToKVCache_capture {ts : List (NDArray τ)} {ids : List Nat}
    (paged : ∀ t ∈ ts, Paged t nb b heads dim) (inRange : ∀ id ∈ ids, id < nb) (spec : ModelSpec)
    (positions : List Int) (tokenIds : Option (List Int)) :
    ∃ kv, pagedBlocksToKVCache (ts.map (capture codec ids 0))
      (ts.map (capture codec ids 1)) spec positions tokenIds =
        .ok kv ∧ kv.spec = spec ∧
      (positions.length ≤ ids.length * b →
        List.Forall₂ (SavedLayer codec ids b heads dim positions.length) ts kv.layers) := by
  have zipped : (ts.map (capture codec ids 0)).zip (ts.map (capture codec ids 1)) =
      ts.map fun t => (capture codec ids 0 t, capture codec ids 1 t) := List.zip_map'
  have body : ∀ t ∈ ts, ∃ l,
    unpackLayer positions.length (capture codec ids 0 t, capture codec ids 1 t) = .ok l ∧
      (positions.length ≤ ids.length * b →
        SavedLayer codec ids b heads dim positions.length t l) := by
    intro t member
    obtain ⟨key, keyOk, keyCells⟩ :=
      unpack_capture codec (paged t member) Nat.zero_lt_two inRange positions.length
    obtain ⟨value, valueOk, valueCells⟩ :=
      unpack_capture codec (paged t member) Nat.one_lt_two inRange positions.length
    refine ⟨⟨key, value⟩, by simp only [unpackLayer, keyOk, valueOk]; rfl, ?_⟩
    exact fun covered => ⟨keyCells covered, valueCells covered⟩
  obtain ⟨layers, run, related⟩ := Fallible.mapM_ok body
  refine ⟨{ spec := spec, layers := layers, positions := positions, tokenIds := tokenIds }, ?_, rfl,
    ?_⟩
  · simp only [pagedBlocksToKVCache, List.length_map, ne_eq, not_true_eq_false, if_false, zipped,
      List.mapM_map,
      Function.comp_def, run]
    rfl
  · intro covered
    exact related.imp fun t l saved => saved covered

/-- What the store holds of a prompt saved from the layers `ts`. -/
def StoredFrom (codec : Codec τ α β) (save : SavePlan) (b heads dim : Nat) (ts : List (NDArray τ))
    (stored : StoreDtype × KVCache β) : Prop :=
  ∃ kv : KVCache α, stored.2 = kv.mapElems (codec.encode stored.1) ∧
    List.Forall₂ (SavedLayer codec save.blockIds b heads dim save.tokenIds.length) ts kv.layers

/-- Persisting one captured request assigns its key, and what it assigns is the prompt's KV
    if the block table covers the prompt. -/
theorem persistRequest_ok {cfg : VllmConfig} {dtype : StoreDtype} {ts : List (NDArray τ)}
    (known : resolveStoreDtype cfg.spec.dtype = some dtype)
    (paged : ∀ t ∈ ts, Paged t nb b heads dim)
    {e : String × CapturedLayers α} {save : SavePlan} (planned : plan.saves.get? e.1 = some save)
    (inRange : ∀ id ∈ save.blockIds, id < nb)
    (captured : e.2 =
      { k := ts.map (capture codec save.blockIds 0), v := ts.map (capture codec save.blockIds 1) }) :
    ∃ kv : KVCache β,
      (∀ store, persistRequest codec cfg.spec plan store e = .ok (store.set save.key (dtype, kv))) ∧
      (save.tokenIds.length ≤ save.blockIds.length * b →
        StoredFrom codec save b heads dim ts (dtype, kv)) := by
  obtain ⟨kv, rebuilt, spec, layers⟩ := pagedBlocksToKVCache_capture codec paged inRange cfg.spec
    (arange 0 save.tokenIds.length) (some save.tokenIds)
  simp only [length_arange, Nat.sub_zero] at layers
  refine ⟨kv.mapElems (codec.encode dtype), ?_, fun covered => ⟨kv, rfl, layers covered⟩⟩
  intro store
  simp only [persistRequest, planned, captured, saveGeometry, rebuilt, orRaise, liftBlock,
    SessionStore.save, spec, known,
    bind, Except.bind, pure, Except.pure]

variable (codec) in
/-- After the step's save, the key of a planned request holds the prompt's KV. -/
theorem saveStep_ok (cfg : VllmConfig) {ts : List (NDArray τ)} (some_layer : ts ≠ [])
    (paged : ∀ t ∈ ts, Paged t nb b heads dim)
    (inRange : ∀ rid save, plan.saves.get? rid = some save → ∀ id ∈ save.blockIds, id < nb)
    {rid : String} {save : SavePlan} (planned : plan.saves.get? rid = some save)
    (ownKey : ∀ rid' save', plan.saves.get? rid' = some save' → save'.key = save.key → rid' = rid)
    (covered : save.tokenIds.length ≤ save.blockIds.length * b) (store : SessionStore β) :
    ∃ store' stored, saveStep codec cfg (some plan) ts store = .ok store' ∧
      store'.get? save.key = some stored ∧
      resolveStoreDtype cfg.spec.dtype = some stored.1 ∧
        StoredFrom codec save b heads dim ts stored := by
  obtain ⟨dtype, known⟩ :=
    resolveStoreDtype_torchDtypeName ((cfg.modelConfig.map VllmModelConfig.dtype).getD "None")
  obtain ⟨captured, run, reads, unplanned⟩ := captureLayers_ok codec paged inRange Dict.empty
  -- every captured request is planned, and every planned one captured with all layers
  have entries : ∀ e ∈ captured.entries, ∃ save', plan.saves.get? e.1 = some save' ∧
      e.2 = { k := ts.map (capture codec save'.blockIds 0), v := ts.map (capture codec save'.blockIds 1) } := by
    intro e member
    have found := Dict.mem_entries_iff.1 member
    cases planned' : plan.saves.get? e.1 with
    | none => rw [unplanned e.1 planned'] at found; cases found
    | some save' => exact ⟨save', rfl, by simpa [found] using reads e.1 save' planned'⟩
  have own : ∃ slot, (rid, slot) ∈ captured.entries := by
    have layers := reads rid save planned
    cases found : captured.get? rid with
    | none =>
      have : ts = [] := by simpa [found] using layers
      exact absurd this some_layer
    | some slot => exact ⟨slot, Dict.mem_entries_iff.2 found⟩
  obtain ⟨slot, member⟩ := own
  let key : String × CapturedLayers α → String :=
    fun e => ((plan.saves.get? e.1).map SavePlan.key).getD ""
  let P : String × CapturedLayers α → StoreDtype × KVCache β → Prop :=
    fun e stored => stored.1 = dtype ∧
    ∀ save', plan.saves.get? e.1 = some save' → save'.tokenIds.length ≤ save'.blockIds.length * b →
      StoredFrom codec save' b heads dim ts stored
  have persisted : ∀ e ∈ captured.entries, ∃ stored, P e stored ∧
      ∀ d, persistRequest codec cfg.spec plan d e = .ok (d.set (key e) stored) := by
    intro e member
    obtain ⟨save', planned', layers⟩ := entries e member
    obtain ⟨kv, assigned, content⟩ :=
      persistRequest_ok known paged planned' (inRange e.1 save' planned') layers
    refine ⟨(dtype, kv), ⟨rfl, ?_⟩, ?_⟩
    · intro save'' planned''
      obtain rfl := Option.some.inj (planned'.symm.trans planned'')
      exact content
    · simpa only [key, planned', Option.map_some, Option.getD_some] using assigned
  obtain ⟨store', stored_run, found, -⟩ := Dict.get?_foldlM_insert persisted store
  have alone : ∀ e' ∈ captured.entries, key e' = key (rid, slot) → e' = (rid, slot) := by
    intro e' member' same
    obtain ⟨save', planned', -⟩ := entries e' member'
    have sameKey : save'.key = save.key := by simpa [key, planned', planned] using same
    have sameRequest : e'.1 = rid := ownKey e'.1 save' planned' sameKey
    have first := Dict.mem_entries_iff.1 member'
    have second := Dict.mem_entries_iff.1 member
    rw [sameRequest, second] at first
    exact Prod.ext sameRequest (Option.some.inj first).symm
  obtain ⟨stored, holds, sameDtype, content⟩ := found (rid, slot) member alone
  refine ⟨store', stored, ?_, ?_, ?_, ?_⟩
  · have nonempty : captured.entries ≠ [] := List.ne_nil_of_mem member
    simp only [saveStep, run, waitForSave, if_neg nonempty, stored_run, bind, Except.bind,
      pure, Except.pure]
  · simpa [key, planned] using holds
  · rw [sameDtype]
    exact known
  · exact content save planned covered

end Saving

/-! ## Loading -/

section Loading

variable [Inhabited β]

/-- `blocks` are the blocks of `b'` slots a load makes of a saved view. -/
structure Packed (codec : Codec τ α β) (native : Option MetaValue) (ids : List Nat)
    (b heads dim t b' : Nat)
    (view : NDArray τ) (blocks : NDArray β) : Prop where
  shape : blocks.shape = [ceilDiv t b', b', heads, dim]
  cells : ∀ i h c p x, i < t → h < heads → c < dim → ids[i / b]? = some p →
    view.get? [p, i % b, h, c] = some x →
    (blocks.map (codec.toDevice native)).get? [i / b', i % b', h, c] = some x

omit [Inhabited τ] in
theorem pack_gathered {native : Option MetaValue} {dtype : StoreDtype} {ids : List Nat} {t b' : Nat}
    {view : NDArray τ} {a : NDArray α}
    (lossless : ∀ x, codec.toDevice native (codec.encode dtype (codec.widen x)) = x)
    (positive : 0 < b') (gathered : Gathered codec ids b heads dim t view a) :
    ∃ blocks, packTokenMajorIntoBlocks codec.zero (a.map (codec.encode dtype)).swapAxes b' =
      .ok blocks ∧
      Packed codec native ids b heads dim t b' view blocks := by
  have shape : (a.map (codec.encode dtype)).shape = [heads, t, dim] := gathered.shape
  obtain ⟨blocks, packed, blocksShape, placed⟩ := packHeadMajor_ok codec.zero shape positive
  refine ⟨blocks, packed, blocksShape, ?_⟩
  intro i h c p x hi hh hc hp hx
  have stored :
    (a.map (codec.encode dtype)).get? [h, i, c] = some (codec.encode dtype (codec.widen x)) := by
    rw [NDArray.get?_map, gathered.cells i h c p hi hh hc hp, hx]
    rfl
  rw [NDArray.get?_map, placed i h c _ hi hh hc stored, Option.map_some, lossless]

/-- Both packed arrays of a layer. -/
def PackedLayer (codec : Codec τ α β) (native : Option MetaValue) (ids : List Nat)
    (b heads dim t b' : Nat)
    (source : NDArray τ) (blocks : NDArray β × NDArray β) : Prop :=
  Packed codec native ids b heads dim t b' (kvView source 0) blocks.1 ∧
    Packed codec native ids b heads dim t b' (kvView source 1) blocks.2

theorem packLayer_ok {native : Option MetaValue} {dtype : StoreDtype} {ids : List Nat} {t b' : Nat}
    {source : NDArray τ} {l : LayerKV α}
    (lossless : ∀ x, codec.toDevice native (codec.encode dtype (codec.widen x)) = x)
    (positive : 0 < b')
    (saved : SavedLayer codec ids b heads dim t source l) :
    ∃ blocks, packLayer codec.zero b' (l.map (codec.encode dtype)) = .ok blocks ∧
      PackedLayer codec native ids b heads dim t b' source blocks := by
  obtain ⟨k, kPacked, kCells⟩ := pack_gathered lossless positive saved.1
  obtain ⟨v, vPacked, vCells⟩ := pack_gathered lossless positive saved.2
  refine ⟨(k, v), ?_, kCells, vCells⟩
  simp only [packLayer, LayerKV.map, NDArray.shape_map, saved.1.shape, saved.2.shape,
    kPacked, vPacked]
  rfl

theorem kvcacheToPagedBlocks_ok {dtype : StoreDtype} {save : SavePlan} {ts : List (NDArray τ)}
    {native : Option MetaValue} {kv : KVCache α} {kv' : KVCache β} {b' : Nat}
    (lossless : ∀ x, codec.toDevice native (codec.encode dtype (codec.widen x)) = x)
    (positive : 0 < b')
    (stored : kv'.layers = (kv.mapElems (codec.encode dtype)).layers)
    (saved : List.Forall₂
      (SavedLayer codec save.blockIds b heads dim save.tokenIds.length) ts kv.layers) :
    ∃ blocks : List (NDArray β × NDArray β),
      kvcacheToPagedBlocks codec.zero kv' b' = .ok (blocks.map Prod.fst, blocks.map Prod.snd) ∧
      List.Forall₂
        (PackedLayer codec native save.blockIds b heads dim save.tokenIds.length b') ts blocks := by
  have body : ∀ source (l : LayerKV α),
    SavedLayer codec save.blockIds b heads dim save.tokenIds.length source l →
      ∃ blocks, packLayer codec.zero b' (l.map (codec.encode dtype)) = .ok blocks ∧
        PackedLayer codec native save.blockIds b heads dim save.tokenIds.length b' source blocks :=
    fun source l layer => packLayer_ok lossless positive layer
  obtain ⟨blocks, run, packed⟩ := Fallible.mapM_ok_related saved body
  refine ⟨blocks, ?_, packed⟩
  simp only [kvcacheToPagedBlocks, stored, KVCache.mapElems, Nat.ne_of_gt positive, if_false,
    List.mapM_map,
    Function.comp_def, run]
  rfl

theorem scatterBlocks_ok {dst src : NDArray τ} {nb b n : Nat} {table : List Nat}
    (hdst : dst.shape = [nb, b, heads, dim]) (hsrc : src.shape = [n, b, heads, dim])
    (inRange : ∀ id ∈ table, id < nb) (distinct : table.Nodup) :
    ∃ dst', scatterBlocks dst (table.take (min table.length n)) (src.take (min table.length n)) =
      .ok dst' ∧
      dst'.shape = dst.shape ∧
      (∀ q p ix x, table[q]? = some p → src.get? (q :: ix) = some x →
        dst'.get? (p :: ix) = some x) ∧
      ∀ p ix, p ∉ table.take (min table.length n) → dst'.get? (p :: ix) = dst.get? (p :: ix) := by
  have taken : (src.take (min table.length n)).shape = [min table.length n, b, heads, dim] := by
    rw [NDArray.shape_take _ hsrc, Nat.min_assoc, Nat.min_self]
  have fits : (src.take (min table.length n)).shape =
      (table.take (min table.length n)).length :: dst.shape.tail := by
    rw [taken, hdst, List.length_take, Nat.min_eq_left (Nat.min_le_left _ _)]
    rfl
  obtain ⟨dst', scattered, shape, written, kept⟩ :=
    NDArray.scatter_eq_some (src.take (min table.length n)) hdst
    (fun id member => inRange id (List.mem_of_mem_take member))
    (distinct.sublist (List.take_sublist _ _))
  refine ⟨dst', by rw [scatterBlocks, if_pos fits, scattered]; rfl, shape, ?_, kept⟩
  intro q p ix x hq hx
  have inside : NDArray.InBounds [n, b, heads, dim] (q :: ix) := by
    rw [← hsrc]
    by_contra outside
    rw [NDArray.get?_eq_none outside] at hx
    cases hx
  have below : q < min table.length n := Nat.lt_min.2 ⟨(List.getElem?_eq_some_iff.1 hq).1, inside.1⟩
  refine written q p ix x ?_ inside.2 ?_
  · rw [List.getElem?_take_of_lt below, hq]
  · rw [NDArray.get?_take hsrc below, hx]

variable (codec) in
omit [Inhabited β] in
/-- Where one layer's `n` blocks land: block `q` in the `q`-th entry of the table, for keys and
    values alike, and nowhere else. -/
theorem loadLayer_ok (native : Option MetaValue) {table : List Nat} {blocks : NDArray β × NDArray β}
    {dst : NDArray τ}
    {nb b n : Nat} (paged : Paged dst nb b heads dim) (hk : blocks.1.shape = [n, b, heads, dim])
    (hv : blocks.2.shape = [n, b, heads, dim]) (inRange : ∀ id ∈ table, id < nb)
    (distinct : table.Nodup) :
    ∃ dst', loadLayer codec native table blocks.1 blocks.2 dst = .ok dst' ∧ dst'.shape = dst.shape ∧
      (∀ q p ix x, table[q]? = some p →
        (blocks.1.map (codec.toDevice native)).get? (q :: ix) = some x →
        (kvView dst' 0).get? (p :: ix) = some x) ∧
      (∀ q p ix x, table[q]? = some p →
        (blocks.2.map (codec.toDevice native)).get? (q :: ix) = some x →
        (kvView dst' 1).get? (p :: ix) = some x) ∧
      ∀ j < 2, ∀ p ix, p ∉ table.take (min table.length n) →
        (kvView dst' j).get? (p :: ix) = (kvView dst j).get? (p :: ix) := by
  obtain ⟨axis, found, views⟩ := paged.axis
  have kShape := paged.2 0 Nat.zero_lt_two
  have vShape := paged.2 1 Nat.one_lt_two
  rw [views] at kShape vShape
  have hkSrc : (blocks.1.map (codec.toDevice native)).shape = [n, b, heads, dim] := hk
  have hvSrc : (blocks.2.map (codec.toDevice native)).shape = [n, b, heads, dim] := hv
  obtain ⟨k', kScattered, kShape', kWritten, kKept⟩ :=
    scatterBlocks_ok kShape hkSrc inRange distinct
  obtain ⟨v', vScattered, vShape', vWritten, vKept⟩ :=
    scatterBlocks_ok vShape hvSrc inRange distinct
  -- the value view of the tensor whose keys were just written is the old one
  have foundK : kvAxis (axis.put dst 0 k').shape = some axis := by rw [shape_put, found]
  have middle : ∀ j < 2, axis.view (axis.put dst 0 k') j = if j = 0 then k' else axis.view dst j :=
    fun j hj => view_put found hj kShape'
  have valuesKept : axis.view (axis.put dst 0 k') 1 = axis.view dst 1 := middle 1 Nat.one_lt_two
  have final : ∀ j < 2, kvView (axis.put (axis.put dst 0 k') 1 v') j = if j = 0 then k'
    else v' := by
    intro j hj
    have same :
      kvView (axis.put (axis.put dst 0 k') 1 v') j = axis.view
      (axis.put (axis.put dst 0 k') 1 v') j := by
      simp only [kvView, shape_put, found]
    rw [same, view_put foundK hj (by rw [valuesKept]; exact vShape'), middle j hj]
    obtain rfl | rfl : j = 0 ∨ j = 1 := by omega
    · rfl
    · rfl
  refine ⟨axis.put (axis.put dst 0 k') 1 v', ?_, by simp, ?_, ?_, ?_⟩
  · simp only [loadLayer, found, orRaise, NDArray.shape_map, hk, List.headD_cons, bind,
      Except.bind, kScattered,
      valuesKept, vScattered]
    rfl
  · rw [final 0 Nat.zero_lt_two]
    exact kWritten
  · rw [final 1 Nat.one_lt_two]
    exact vWritten
  · intro j hj p ix absent
    rw [final j hj, views]
    obtain rfl | rfl : j = 0 ∨ j = 1 := by omega
    · exact kKept p ix absent
    · exact vKept p ix absent

omit [Inhabited τ] [Inhabited β] in
/-- A token both tables cover is found in its slot of the load table with the content of its
    slot of the save table. -/
theorem Packed.lands {native : Option MetaValue} {ids table : List Nat} {t b' : Nat}
    {view dst : NDArray τ}
    {blocks : NDArray β} (packed : Packed codec native ids b heads dim t b' view blocks)
    (written : ∀ q p ix x, table[q]? = some p →
      (blocks.map (codec.toDevice native)).get? (q :: ix) = some x →
      dst.get? (p :: ix) = some x)
    (viewShape : view.shape = [nb, b, heads, dim]) (inRange : ∀ id ∈ ids, id < nb)
    (covered : t ≤ ids.length * b)
    {i h c : Nat} (hi : i < min t (table.length * b')) (hh : h < heads) (hc : c < dim) :
    ∃ p p', ids[i / b]? = some p ∧ table[i / b']? = some p' ∧
      dst.get? [p', i % b', h, c] = view.get? [p, i % b, h, c] := by
  obtain ⟨token, slot⟩ := Nat.lt_min.1 hi
  have inside : i < ids.length * b := Nat.lt_of_lt_of_le token covered
  have positive : 0 < b := Nat.pos_of_ne_zero fun zero => by simp [zero] at inside
  have source : i / b < ids.length := Nat.div_lt_of_lt_mul (by rwa [Nat.mul_comm])
  have target : i / b' < table.length := Nat.div_lt_of_lt_mul (by rwa [Nat.mul_comm])
  have hp := List.getElem?_eq_getElem source
  have cell : NDArray.InBounds view.shape [ids[i / b], i % b, h, c] := by
    rw [viewShape]
    exact ⟨inRange _ (List.getElem_mem source), Nat.mod_lt i positive, hh, hc, trivial⟩
  obtain ⟨x, hx⟩ := NDArray.get?_isSome cell
  refine ⟨_, _, hp, List.getElem?_eq_getElem target, ?_⟩
  rw [hx]
  exact written _ _ _ x (List.getElem?_eq_getElem target) (packed.cells i h c _ x token hh hc hp hx)

end Loading

variable [Inhabited α] [Inhabited β]

/-- Saving a prompt through one block table and loading it through another leaves, in every
    layer, each token both tables cover with its keys and values, and no other block changed. -/
theorem load_after_save (saveCfg loadCfg : VllmConfig) (store : SessionStore β)
    {kvLayers : List (NDArray τ)}
    {kvCaches : List (String × NDArray τ)} {rid : String} {save : SavePlan} {table : List Nat}
    {nb' : Nat}
    (lossless : ∀ dtype x, resolveStoreDtype saveCfg.spec.dtype = some dtype →
      codec.toDevice (some (.str dtype.tag)) (codec.encode dtype (codec.widen x)) = x)
    (planned : plan.saves.get? rid = some save)
    (ownKey : ∀ rid' save', plan.saves.get? rid' = some save' → save'.key = save.key → rid' = rid)
    (saveInRange : ∀ rid' save', plan.saves.get? rid' = some save' → ∀ id ∈ save'.blockIds, id < nb)
    (covered : save.tokenIds.length ≤ save.blockIds.length * b)
    (someLayer : kvLayers ≠ []) (saveLayers : ∀ t ∈ kvLayers, Paged t nb b heads dim)
    (sameLayers : kvCaches.length = kvLayers.length)
    (loadLayers : ∀ e ∈ kvCaches, Paged e.2 nb' loadCfg.blockSize heads dim)
    (positive : 0 < loadCfg.blockSize)
    (loadInRange : ∀ id ∈ table, id < nb') (distinct : table.Nodup) :
    ∃ store' kvCaches', saveStep codec saveCfg (some plan) kvLayers store = .ok store' ∧
      loadOne codec loadCfg store' kvCaches save.key table = .ok kvCaches' ∧
      kvCaches'.length = kvCaches.length ∧
      ∀ (li : Nat) (source : NDArray τ) (name : String) (dst : NDArray τ),
        kvLayers[li]? = some source → kvCaches[li]? = some (name, dst) →
        ∃ dst', kvCaches'[li]? = some (name, dst') ∧ dst'.shape = dst.shape ∧ ∀ j < 2,
          (∀ i h c, i < min save.tokenIds.length (table.length * loadCfg.blockSize) →
            h < heads → c < dim →
            ∃ p p', save.blockIds[i / b]? = some p ∧ table[i / loadCfg.blockSize]? = some p' ∧
              (kvView dst' j).get? [p', i % loadCfg.blockSize, h, c] = (kvView source j).get? [p,
                i % b, h, c]) ∧
          ∀ p ix, p ∉ table → (kvView dst' j).get? (p :: ix) = (kvView dst j).get? (p :: ix) := by
  obtain ⟨store', ⟨dtype, kv'⟩, saved, found, known, kv, encoded, layers⟩ :=
    saveStep_ok codec saveCfg someLayer saveLayers saveInRange planned ownKey covered store
  let loadedKV : KVCache β :=
    { kv' with metadata := kv'.metadata.set "native_store_dtype" (.str dtype.tag) }
  -- the tag of the precision is added to the metadata only
  have sameArrays : loadedKV.layers = (kv.mapElems (codec.encode dtype)).layers := by
    change kv'.layers = _
    exact congrArg KVCache.layers encoded
  obtain ⟨blocks, packedRun, packed⟩ :=
    kvcacheToPagedBlocks_ok (fun x => lossless dtype x known) positive sameArrays layers
  -- every registered layer has a saved one at its index
  have loaded : ∀ e ∈ kvCaches.zipIdx, ∃ y,
      loadEntry codec (some (.str dtype.tag)) table (blocks.map Prod.fst) (blocks.map Prod.snd) e =
        .ok y ∧
      y.1 = e.1.1 ∧ y.2.shape = e.1.2.shape ∧ ∀ source, kvLayers[e.2]? = some source → ∀ j < 2,
        (∀ i h c, i < min save.tokenIds.length (table.length * loadCfg.blockSize) →
          h < heads → c < dim →
          ∃ p p', save.blockIds[i / b]? = some p ∧ table[i / loadCfg.blockSize]? = some p' ∧
            (kvView y.2 j).get? [p', i % loadCfg.blockSize, h, c] = (kvView source j).get? [p,
              i % b, h, c]) ∧
        ∀ p ix, p ∉ table → (kvView y.2 j).get? (p :: ix) = (kvView e.1.2 j).get? (p :: ix) := by
    rintro ⟨⟨name, dst⟩, li⟩ member
    have registered := List.mem_zipIdx_iff_getElem?.1 member
    have inside : li < kvLayers.length := sameLayers ▸ (List.getElem?_eq_some_iff.1 registered).1
    have hsource := List.getElem?_eq_getElem inside
    obtain ⟨layer, hlayer, kPacked, vPacked⟩ := forall₂_getElem? packed hsource
    obtain ⟨dst', run, shape, kWritten, vWritten, kept⟩ :=
      loadLayer_ok codec (some (.str dtype.tag))
      (loadLayers _ (List.mem_of_getElem? registered)) kPacked.shape vPacked.shape loadInRange distinct
    have source_paged := saveLayers _ (List.mem_of_getElem? hsource)
    have tableInRange := saveInRange rid save planned
    refine ⟨(name, dst'), ?_, rfl, shape, ?_⟩
    · simp only [loadEntry, List.getElem?_map, hlayer, Option.map_some, orRaise, bind,
        Except.bind, run]
      rfl
    · intro source found' j hj
      obtain rfl := Option.some.inj (hsource.symm.trans found')
      refine ⟨?_, fun p ix absent => kept j hj p ix
        fun member => absent (List.mem_of_mem_take member)⟩
      intro i h c hi hh hc
      obtain rfl | rfl : j = 0 ∨ j = 1 := by omega
      · exact kPacked.lands kWritten (source_paged.2 0 hj) tableInRange covered hi hh hc
      · exact vPacked.lands vWritten (source_paged.2 1 hj) tableInRange covered hi hh hc
  obtain ⟨kvCaches', run, results⟩ := Fallible.mapM_ok loaded
  refine ⟨store', kvCaches', saved, ?_, ?_, ?_⟩
  · have native : loadedKV.metadata.get? "native_store_dtype" = some (.str dtype.tag) :=
      Dict.get?_set_self _ _ _
    have stored : store'.load save.key = .ok loadedKV := by
      simp only [SessionStore.load, found]
      rfl
    simp only [loadOne, stored, native, packedRun, liftBlock, bind, Except.bind, run]
  · rw [← results.length_eq, List.length_zipIdx]
  · intro li source name dst hsource hdst
    have registered : kvCaches.zipIdx[li]? = some ((name, dst), li) := by
      rw [List.getElem?_zipIdx, hdst]
      simp
    obtain ⟨⟨name', dst'⟩, found', rfl, shape, content⟩ := forall₂_getElem? results registered
    exact ⟨dst', found', shape, fun j hj => content source hsource j hj⟩

/-! Three tokens in blocks 2 and 0 of two slots each, loaded into block 1 of four slots. -/

def identityCodec : Codec Int Int Int where
  widen x := x
  encode _ x := x
  toDevice _ x := x
  zero := 0

def cellNumbers (shape : List Nat) : NDArray Int :=
  NDArray.ofFn shape fun ix => (NDArray.ravel shape ix : Nat)

def blockConfig (blockSize : Nat) : VllmConfig :=
  { blockSize := blockSize, modelConfig := none, group := { numKvHeads := 1, headSize := 1, layerNames := ["layer"] } }

def threeTokens : SavePlan := { key := "key", blockIds := [2, 0], tokenIds := [5, 6, 7] }

def threeTokensPlan : ConnectorMetadata :=
  { loads := Dict.empty, saves := Dict.empty.set "request" threeTokens }

theorem threeTokensPlan_saves {rid : String} {save : SavePlan}
    (found : threeTokensPlan.saves.get? rid = some save) :
    rid = "request" ∧ save = threeTokens := by
  rw [threeTokensPlan, Dict.get?_set] at found
  split at found
  · rename_i same
    exact ⟨same.symm, (Option.some.inj found).symm⟩
  · cases found

theorem load_after_save_threeTokens :
    ∃ store' kvCaches',
      saveStep identityCodec (blockConfig 2) (some threeTokensPlan) [cellNumbers [3, 2, 2, 1, 1]]
        Dict.empty = .ok store' ∧
      loadOne identityCodec
        (blockConfig 4) store' [("layer", cellNumbers [2, 3, 4, 1, 1])] threeTokens.key [1] =
        .ok kvCaches' ∧ kvCaches'.length = 1 := by
  have planned : threeTokensPlan.saves.get? "request" = some threeTokens := Dict.get?_set_self _ _ _
  have lossless : ∀ dtype x, resolveStoreDtype (blockConfig 2).spec.dtype = some dtype →
      identityCodec.toDevice (some (.str dtype.tag))
        (identityCodec.encode dtype (identityCodec.widen x)) = x :=
    fun _ _ _ => rfl
  have inRange : ∀ rid save, threeTokensPlan.saves.get? rid = some save →
    ∀ id ∈ save.blockIds, id < 3 := by
    intro rid save found
    obtain ⟨-, rfl⟩ := threeTokensPlan_saves found
    decide
  have saveLayers : ∀ t ∈ [cellNumbers [3, 2, 2, 1, 1]], Paged t 3 2 1 1 := by
    intro t member
    obtain rfl := List.mem_singleton.1 member
    exact ⟨rfl, by decide⟩
  have loadLayers : ∀ e ∈ [("layer", cellNumbers [2, 3, 4, 1, 1])],
    Paged e.2 3 (blockConfig 4).blockSize 1 1 := by
    intro e member
    obtain rfl := List.mem_singleton.1 member
    exact ⟨rfl, by decide⟩
  obtain ⟨store', kvCaches', saved, loaded, length, -⟩ :=
    load_after_save (blockConfig 2) (blockConfig 4) Dict.empty
    lossless planned (fun rid save found _ => (threeTokensPlan_saves found).1) inRange (by decide)
    (List.cons_ne_nil _ _) saveLayers rfl loadLayers (by decide)
    (show ∀ id ∈ [1], id < 3 by decide) (by decide)
  exact ⟨store', kvCaches', saved, loaded, length⟩

end Dexa.Engine
