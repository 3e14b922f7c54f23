import Mathlib.Data.Rat.Floor
import Dexa.Engine.SelectiveCall
import Dexa.Lib.Fallible
import Dexa.Segments.ReusePlan
import Dexa.Segments.SessionSoundness

/-! # Selective recomputation blends what it says

Two coordinate systems meet here: the spans of the new context, where the columns are written, and
those of the previous one, where they are read.  Every step of the assembly says which token of
which cache each token of the result is.
-/

namespace Dexa.Engine

open Dexa.Core Dexa.Lib Dexa.Segments

variable {α τ Λ : Type} {spec : ModelSpec} {n : Nat}

/-- A half turn keeps each token to itself. -/
theorem rotateHalf_token {β : Type} [Zero β] [Neg β] {a a' : NDArray β} {m t t' d i j : Nat}
    (hshape : a.shape = [m, t, d])
    (hshape' : a'.shape = [m, t', d]) (inside : i < t) (inside' : j < t')
    (same : ∀ h c, a.get? [h, i, c] = a'.get? [h, j, c]) (h c : Nat) :
    (rotateHalf a).get? [h, i, c] = (rotateHalf a').get? [h, j, c] := by
  have bounds : NDArray.InBounds [m, t, d] [h, i, c] ↔ NDArray.InBounds [m, t', d] [h, j, c] := by
    simp [inside, inside']
  simp only [rotateHalf, hshape, hshape', NDArray.get?_ofFn, bounds, NDArray.getD, same]

/-- A rotation turns each token by itself. -/
theorem ropeRephaseKeys_token {β : Type} [Zero β] [Neg β] [Zero α] [Add α] [Mul α] (number : β → α)
    (cos sin : List α)
    {a a' : NDArray β} {m t t' d i j : Nat} (hshape : a.shape = [m, t, d])
    (hshape' : a'.shape = [m, t', d]) (inside : i < t)
    (inside' : j < t') (same : ∀ h c, a.get? [h, i, c] = a'.get? [h, j, c]) (h c : Nat) :
    (ropeRephaseKeys number a cos sin).get? [h, i, c] = (ropeRephaseKeys number a' cos sin).get? [h,
      j, c] := by
  have bounds : NDArray.InBounds [m, t, d] [h, i, c] ↔ NDArray.InBounds [m, t', d] [h, j, c] := by
    simp [inside, inside']
  have turned := rotateHalf_token hshape hshape' inside inside' same
  simp only [ropeRephaseKeys, hshape, hshape', NDArray.get?_ofFn, bounds, NDArray.getD, same,
    turned]

namespace HFBackend

section Assemble

variable [Field α] (b : HFBackend α τ Λ)

/-- A layer with every key rotated by a position delta. -/
def rephased (delta : Int) (l : LayerKV α) : LayerKV α :=
  ⟨ropeRephaseKeys id l.key (b.rephaseCosSin delta).1 (b.rephaseCosSin delta).2, l.value⟩

/-- The layer an item that reuses is taken from. -/
def sourceLayer (it : SegmentPlanItem) (l : LayerKV α) : LayerKV α :=
  if it.action = .reuseShifted then b.rephased it.positionShift l else l

theorem map_sourceLayer (it : SegmentPlanItem) (layers : List (LayerKV α)) :
    layers.map (b.sourceLayer it) =
      if it.action = .reuseShifted then layers.map (b.rephased it.positionShift) else layers := by
  unfold sourceLayer
  split
  · rfl
  · exact List.map_id' layers

variable [Inhabited α]

/-- Slicing and rotating is rotating and slicing. -/
theorem reusedSlice_token (it : SegmentPlanItem) {l : LayerKV α} {m p d start stop : Nat}
    (keyShape : l.key.shape = [m, p, d])
    (valueShape : l.value.shape = [m, p, d]) (within : stop ≤ p) :
    ((b.reusedSlice id l (start, stop) it).key.shape = [m, stop - start, d] ∧
      (b.reusedSlice id l (start, stop) it).value.shape = [m, stop - start, d]) ∧
    ∀ i, i < stop - start → ∀ h c,
      (b.reusedSlice id l (start, stop) it).key.get? [h, i, c] = (b.sourceLayer it l).key.get? [h,
        start + i, c] ∧
      (b.reusedSlice id l (start, stop) it).value.get? [h, i, c] =
        (b.sourceLayer it l).value.get? [h, start + i, c] := by
  have keySlice := NDArray.shape_sliceAxis1 start keyShape within
  have valueSlice := NDArray.shape_sliceAxis1 start valueShape within
  have keyCell :=
    fun i (inside : i < stop - start) h c => NDArray.get?_sliceAxis1 keyShape within inside h c
  have valueCell :=
    fun i (inside : i < stop - start) h c => NDArray.get?_sliceAxis1 valueShape within inside h c
  by_cases shifted : it.action = .reuseShifted
  · simp only [reusedSlice, sourceLayer, if_pos shifted, rephased]
    refine ⟨⟨keySlice, valueSlice⟩, ?_⟩
    intro i inside h c
    constructor
    · exact ropeRephaseKeys_token id _ _ keySlice keyShape inside (by omega) (keyCell i inside) h c
    · rw [NDArray.get?_map, valueCell i inside, Option.map_id, id]
  · simp only [reusedSlice, sourceLayer, if_neg shifted]
    refine ⟨⟨keySlice, valueSlice⟩, ?_⟩
    intro i inside h c
    constructor
    · rw [NDArray.get?_map, keyCell i inside, Option.map_id, id]
    · rw [NDArray.get?_map, valueCell i inside, Option.map_id, id]

/-- An item that reuses: its tokens stand at `start` in the previous context, and both places
    exist. -/
structure Reuses (prevCtx : SegmentedContext) (prevLength length : Nat) (it : SegmentPlanItem)
    (start : Nat) : Prop where
  reuses : it.action ≠ .recompute
  span : ∃ j, it.prevIndex = some j ∧
    prevCtx.span j = some (start, start + (it.newSpan.2 - it.newSpan.1))
  there : start + (it.newSpan.2 - it.newSpan.1) ≤ prevLength
  here : it.newSpan.2 ≤ length

/-- One layer of `assembleItem`, read from `q` at `span`. -/
def assembleLayer (it : SegmentPlanItem) (span : Nat × Nat) (l q : LayerKV α) :
    Option (LayerKV α) := do
  let slice := b.reusedSlice id q span it
  return ⟨← l.key.assignAxis1 it.newSpan.1 it.newSpan.2 slice.key,
    ← l.value.assignAxis1 it.newSpan.1 it.newSpan.2 slice.value⟩

variable {b}
variable {prev layers : List (LayerKV α)} {prevCtx : SegmentedContext} {p : Nat}
  {it : SegmentPlanItem} {start : Nat}

theorem assembleItem_eq (reuses : Reuses prevCtx p n it start) :
    b.assembleItem id prev prevCtx layers it = (List.range b.model.spec.nLayers).mapM fun li => (do
      b.assembleLayer it (start, start + (it.newSpan.2 - it.newSpan.1)) (← layers[li]?)
        (← prev[li]?)) := by
  obtain ⟨j, prevIndex, span⟩ := reuses.span
  simp only [assembleItem, if_neg reuses.reuses, prevIndex, bind, Option.bind_some, span]
  rfl

/-- The item's columns are read from `q`, the others are those of `l`. -/
structure LayerWritten (it : SegmentPlanItem) (start : Nat) (l q l' : LayerKV α) : Prop where
  reused : ∀ d, d < it.newSpan.2 - it.newSpan.1 → ∀ h c,
    l'.key.get? [h, it.newSpan.1 + d, c] = q.key.get? [h, start + d, c] ∧
      l'.value.get? [h, it.newSpan.1 + d, c] = q.value.get? [h, start + d, c]
  kept : ∀ i, ¬Inside it.newSpan i → ∀ h c,
    l'.key.get? [h, i, c] = l.key.get? [h, i, c] ∧ l'.value.get? [h, i, c] = l.value.get? [h, i, c]

theorem assembleLayer_written (reuses : Reuses prevCtx p n it start) {m d : Nat} {l q : LayerKV α}
    (shape : l.key.shape = [m, n, d] ∧ l.value.shape = [m, n, d])
    (shape' : q.key.shape = [m, p, d] ∧ q.value.shape = [m, p, d]) :
    ∃ l', b.assembleLayer it (start, start + (it.newSpan.2 - it.newSpan.1)) l q = some l' ∧
      (l'.key.shape = [m, n, d] ∧ l'.value.shape = [m, n, d]) ∧
        LayerWritten it start l (b.sourceLayer it q) l' := by
  obtain ⟨⟨sliceKey, sliceValue⟩, cells⟩ := b.reusedSlice_token it shape'.1 shape'.2 reuses.there
  rw [Nat.add_sub_cancel_left] at sliceKey sliceValue cells
  obtain ⟨key, keyDone, keyShape, keyCells⟩ :=
    NDArray.assignAxis1_eq_some shape.1 reuses.here sliceKey
  obtain ⟨value, valueDone, valueShape, valueCells⟩ :=
    NDArray.assignAxis1_eq_some shape.2 reuses.here sliceValue
  refine ⟨⟨key, value⟩, by simp [assembleLayer, keyDone, valueDone], ⟨keyShape, valueShape⟩, ?_, ?_⟩
  · intro i inside h c
    have column : it.newSpan.1 ≤ it.newSpan.1 + i ∧ it.newSpan.1 + i < it.newSpan.2 := by omega
    rw [keyCells, valueCells, if_pos column, if_pos column, Nat.add_sub_cancel_left]
    exact cells i inside h c
  · intro i outside h c
    have other : ¬(it.newSpan.1 ≤ i ∧ i < it.newSpan.2) := outside
    rw [keyCells, valueCells, if_neg other, if_neg other]
    exact ⟨rfl, rfl⟩

/-- The item's tokens are its source's, the others are left. -/
structure Written (b : HFBackend α τ Λ) (prev layers layers' : List (LayerKV α))
    (it : SegmentPlanItem) (start : Nat) : Prop where
  reused : ∀ d, d < it.newSpan.2 - it.newSpan.1 →
    SameToken layers' (it.newSpan.1 + d) (prev.map (b.sourceLayer it)) (start + d)
  kept : ∀ t, ¬Inside it.newSpan t → SameToken layers' t layers t

theorem assembleItem_written (prevShaped : Shaped b.model.spec p prev)
    (shaped : Shaped b.model.spec n layers)
    (reuses : Reuses prevCtx p n it start) :
    ∃ layers', b.assembleItem id prev prevCtx layers it = some layers' ∧
      Shaped b.model.spec n layers' ∧
      Written b prev layers layers' it start := by
  -- each layer of the model is there in both caches, and its round succeeds
  have each : ∀ li ∈ List.range b.model.spec.nLayers, ∃ l', (do
      b.assembleLayer it (start, start + (it.newSpan.2 - it.newSpan.1)) (← layers[li]?)
        (← prev[li]?)) = some l' ∧
      ((l'.key.shape = [b.model.spec.nKvHeads, n, b.model.spec.headDim] ∧
        l'.value.shape = [b.model.spec.nKvHeads, n, b.model.spec.headDim]) ∧
      ∀ l q, layers[li]? = some l → prev[li]? = some q →
        LayerWritten it start l (b.sourceLayer it q) l') := by
    intro li member
    have inside := List.mem_range.1 member
    have there := List.getElem?_eq_getElem (l := layers) (shaped.length ▸ inside)
    have there' := List.getElem?_eq_getElem (l := prev) (prevShaped.length ▸ inside)
    obtain ⟨l', done, shape, written⟩ := assembleLayer_written (b := b) reuses
      (shaped.shape _ (List.mem_of_getElem? there))
      (prevShaped.shape _ (List.mem_of_getElem? there'))
    refine ⟨l', by rw [there, there']; exact done, shape, ?_⟩
    intro l q at_ at_'
    cases there.symm.trans at_
    cases there'.symm.trans at_'
    exact written
  obtain ⟨layers', made, related⟩ := Fallible.mapM_some each
  have shaped' : Shaped b.model.spec n layers' := Shaped.of_forall₂ (related.imp fun _ _ r => r.1)
  -- layer `li` of the result was made from the layers at `li`
  have layer : ∀ {li : Nat} {l' : LayerKV α}, layers'[li]? = some l' → ∃ l q, layers[li]? = some l ∧
    prev[li]? = some q ∧
      LayerWritten it start l (b.sourceLayer it q) l' := by
    intro li l' there'
    obtain ⟨k, at_, -, written⟩ := forall₂_getElem? related.flip there'
    obtain ⟨inside, rfl⟩ := List.getElem?_eq_some_iff.1 at_
    rw [List.length_range] at inside
    rw [List.getElem_range] at written
    have there := List.getElem?_eq_getElem (l := layers) (shaped.length ▸ inside)
    have source := List.getElem?_eq_getElem (l := prev) (prevShaped.length ▸ inside)
    exact ⟨_, _, there, source, written _ _ there source⟩
  refine ⟨layers', by rw [assembleItem_eq reuses, made], shaped', ?_, ?_⟩
  · intro d inside li l' source there' mapped
    obtain ⟨l, q, -, at_, written⟩ := layer there'
    rw [List.getElem?_map, at_, Option.map_some, Option.some.injEq] at mapped
    exact mapped ▸ written.reused d inside
  · intro t outside li l' l there' there
    obtain ⟨l₀, q, at_, -, written⟩ := layer there'
    cases at_.symm.trans there
    exact written.kept t outside

theorem Reuses.unique {start' : Nat} (reuses : Reuses prevCtx p n it start)
    (reuses' : Reuses prevCtx p n it start') :
    start = start' := by
  obtain ⟨j, prevIndex, span⟩ := reuses.span
  obtain ⟨j', prevIndex', span'⟩ := reuses'.span
  cases prevIndex.symm.trans prevIndex'
  have same := Option.some.inj (span.symm.trans span')
  exact congrArg Prod.fst same

/-- What the loop has assembled from the items `done`. -/
structure Assembled (b : HFBackend α τ Λ) (prev correct : List (LayerKV α))
    (prevCtx : SegmentedContext) (p n : Nat)
    (done : List SegmentPlanItem) (layers : List (LayerKV α)) : Prop where
  shaped : Shaped b.model.spec n layers
  reused : ∀ it ∈ done, ∀ start, Reuses prevCtx p n it start →
    ∀ d, d < it.newSpan.2 - it.newSpan.1 →
    SameToken layers (it.newSpan.1 + d) (prev.map (b.sourceLayer it)) (start + d)
  kept : ∀ t, (∀ it ∈ done, it.action ≠ .recompute → ¬Inside it.newSpan t) →
    SameToken layers t correct t

variable {correct : List (LayerKV α)} {done : List SegmentPlanItem}

theorem Assembled.step (run : Assembled b prev correct prevCtx p n done layers)
    (prevShaped : Shaped b.model.spec p prev)
    (reuses : it.action ≠ .recompute → ∃ start, Reuses prevCtx p n it start)
    (apart : ∀ it' ∈ done, ∀ t, Inside it'.newSpan t → ¬Inside it.newSpan t) :
    ∃ layers', b.assembleItem id prev prevCtx layers it = some layers' ∧
      Assembled b prev correct prevCtx p n (done ++ [it]) layers' := by
  by_cases recompute : it.action = .recompute
  · refine ⟨layers, by rw [assembleItem, if_pos recompute], run.shaped, ?_, ?_⟩
    · apply forall_mem_concat run.reused
      intro start here
      exact absurd recompute here.reuses
    · intro t outside
      exact run.kept t fun it' member => outside it' (List.mem_append_left _ member)
  · obtain ⟨start, here⟩ := reuses recompute
    obtain ⟨layers', made, shaped, written⟩ := assembleItem_written prevShaped run.shaped here
    have length : layers'.length = layers.length := shaped.length.trans run.shaped.length.symm
    refine ⟨layers', made, shaped, ?_, ?_⟩
    -- the columns of earlier items are not written again
    · apply forall_mem_concat
      · intro it' member start' here' d inside
        have column : Inside it'.newSpan (it'.newSpan.1 + d) := ⟨Nat.le_add_right _ _, by omega⟩
        exact (written.kept _ (apart it' member _ column)).trans length
          (run.reused it' member start' here' d inside)
      · intro start' here' d inside
        exact here.unique here' ▸ written.reused d inside
    · intro t outside
      -- what no item covers is still the reference's
      have left := written.kept t (outside it (by simp) recompute)
      exact left.trans length
        (run.kept t fun it' member => outside it' (List.mem_append_left _ member))

theorem Assembled.foldlM {todo : List SegmentPlanItem}
    (run : Assembled b prev correct prevCtx p n done layers)
    (prevShaped : Shaped b.model.spec p prev)
    (reuses : ∀ it ∈ todo, it.action ≠ .recompute → ∃ start, Reuses prevCtx p n it start)
    (apart : (done ++ todo).Pairwise fun it it' => ∀ t, Inside it.newSpan t →
      ¬Inside it'.newSpan t) :
    ∃ layers', todo.foldlM (b.assembleItem id prev prevCtx) layers = some layers' ∧
      Assembled b prev correct prevCtx p n (done ++ todo) layers' := by
  induction todo generalizing done layers with
  | nil => exact ⟨layers, rfl, by simpa using run⟩
  | cons it todo ih =>
    have before : ∀ it' ∈ done, ∀ t, Inside it'.newSpan t → ¬Inside it.newSpan t :=
      fun it' member => (List.pairwise_append.1 apart).2.2 it' member it List.mem_cons_self
    obtain ⟨middle, made, run'⟩ := run.step prevShaped (reuses it List.mem_cons_self) before
    rw [List.append_cons] at apart ⊢
    obtain ⟨layers', rest, all⟩ :=
      ih run' (fun it' member => reuses it' (List.mem_cons_of_mem it member)) apart
    exact ⟨layers', by simp [List.foldlM_cons, made, rest], all⟩

end Assemble

section Prefill

variable {b : HFBackend α τ Λ}

theorem shaped_prefill (causal : Causal b.model) (tokens : List Int) :
    Shaped b.model.spec tokens.length (b.prefill tokens).layers := by
  refine ⟨by simp [prefill, toHost, KVCache.mapElems, causal.layers_length], ?_⟩
  intro l member
  obtain ⟨l, there, rfl⟩ := List.mem_map.1 member
  exact causal.layer_shape tokens l there

/-- Two texts have the same KV as far as they are the same. -/
theorem prefill_sameToken (causal : Causal b.model) {tokens tokens' : List Int} {t : Nat}
    (inside : t < tokens.length)
    (inside' : t < tokens'.length) (same : tokens.take (t + 1) = tokens'.take (t + 1)) :
    SameToken (b.prefill tokens).layers t (b.prefill tokens').layers t := by
  intro li l l' there there' h c
  simp only [prefill, toHost, KVCache.mapElems, List.getElem?_map,
    Option.map_eq_some_iff] at there there'
  obtain ⟨l, at_, rfl⟩ := there
  obtain ⟨l', at_', rfl⟩ := there'
  obtain ⟨key, value⟩ := causal.entry tokens tokens' t inside inside' same li l l' at_ at_' h c
  simp only [LayerKV.map, NDArray.get?_map, key, value, and_self]

end Prefill

end HFBackend

/-! ## The plan's two coordinate systems -/

/-- The item's tokens are those of segment `j` of the previous context, which starts at `start`
    there. -/
structure Matches (prev new : SegmentedContext) (it : SegmentPlanItem) (j start : Nat) : Prop where
  prevIndex : it.prevIndex = some j
  segment : ∃ s, prev.segments[j]? = some s ∧ s.tokenIds = it.segment.tokenIds
  prevSpan : prev.span j = some (start, start + it.segment.nTokens)
  newSpan : new.span it.index = some it.newSpan ∧ it.newSpan.2 = it.newSpan.1 + it.segment.nTokens
  positionShift : it.positionShift = (it.newSpan.1 : Int) - (start : Int)
  tokens : ∀ d, d < it.segment.nTokens → prev.tokenIds[start + d]? = new.tokenIds[it.newSpan.1 + d]?

section Plan

variable {δ : Type} [DecidableEq δ] {hashTokens : List Int → δ} {prev new : SegmentedContext}
  {it : SegmentPlanItem}

theorem Matches.of_segment
    (member : it ∈ (planIncremental hashTokens (some prev) new .selective).items) {j start : Nat}
    {s : Segment} (prevIndex : it.prevIndex = some j) (found : prev.segments[j]? = some s)
    (same : s.tokenIds = it.segment.tokenIds)
    (prevSpan : prev.span j = some (start, start + it.segment.nTokens))
    (positionShift : it.positionShift = (it.newSpan.1 : Int) - (start : Int)) :
      Matches prev new it j start := by
  obtain ⟨here, newSpan⟩ := planIncremental_span hashTokens prev member
  have starts : start = prev.offsets.getD j 0 := by
    rw [span_eq found] at prevSpan
    exact (congrArg Prod.fst (Option.some.inj prevSpan)).symm
  refine ⟨prevIndex, ⟨s, found, same⟩, prevSpan, ⟨by rw [span_eq here, newSpan], by rw [newSpan]⟩,
    positionShift, ?_⟩
  intro d inside
  have lengths : s.nTokens = it.segment.nTokens := congrArg List.length same
  rw [newSpan, starts, (span_tokens here).2 d inside, (span_tokens found).2 d (lengths ▸ inside),
    same]

theorem planIncremental_matches (injective : Function.Injective hashTokens)
    (member : it ∈ (planIncremental hashTokens (some prev) new .selective).items)
    (reuses : it.action ≠ .recompute) :
    ∃ j start, Matches prev new it j start := by
  obtain ⟨prefixLen, plan⟩ :=
    planIncremental_reusePlan hashTokens injective (some prev) new .selective
  cases action : it.action with
  | recompute => exact absurd action reuses
  | reuseExact =>
    obtain ⟨prevIndex, positionShift, span⟩ := plan.unmoved it member action
    obtain ⟨here, newSpan⟩ := planIncremental_span hashTokens prev member
    obtain ⟨s, found, same⟩ :=
      segment_of_commonPrefix plan.longest.1 ((plan.reusedExact it member).1 action) here
    refine ⟨it.index, it.newSpan.1,
      .of_segment member prevIndex found same ?_ (by rw [positionShift, sub_self])⟩
    rw [newSpan] at span ⊢
    exact span
  | reuseShifted =>
    obtain ⟨-, j, s, start, prevIndex, -, found, same, span, positionShift⟩ :=
      plan.reusedShifted it member action
    have lengths : s.nTokens = it.segment.nTokens := congrArg List.length same
    exact ⟨j, start, .of_segment member prevIndex found same (lengths ▸ span) positionShift⟩

/-- Both places of a matched item exist. -/
theorem Matches.reuses {j start : Nat} (matched : Matches prev new it j start)
    (reuses : it.action ≠ .recompute) :
    HFBackend.Reuses prev prev.tokenIds.length new.tokenIds.length it start := by
  obtain ⟨here, stop⟩ := matched.newSpan
  have length : it.newSpan.2 - it.newSpan.1 = it.segment.nTokens := by omega
  have inside : ∀ {ctx : SegmentedContext} {i lo hi : Nat}, ctx.span i = some (lo, hi) →
    hi ≤ ctx.tokenIds.length := by
    intro ctx i lo hi span
    obtain ⟨s, found⟩ : ∃ s, ctx.segments[i]? = some s := by
      cases found : ctx.segments[i]? with
      | none => simp [SegmentedContext.span, found] at span
      | some s => exact ⟨s, rfl⟩
    rw [span_eq found, Option.some.injEq, Prod.mk.injEq] at span
    rw [ctx.length_tokenIds, ← span.2]
    exact (span_tokens found).1
  exact ⟨reuses, ⟨j, matched.prevIndex, length ▸ matched.prevSpan⟩,
    length ▸ inside matched.prevSpan, inside here⟩

end Plan

/-! ## The blend -/

namespace HFBackend

/-- `result` is `correct` at every token of the exact prefix, of a segment to recompute and of
    `sel`; any other token is that of the matched previous segment, its key rotated by the segment's
    shift. -/
structure Blends [Field α] (b : HFBackend α τ Λ) (prevKV correct result : KVCache α)
    (plan : RecomputePlan)
    (prev new : SegmentedContext) (sel : List Nat) : Prop where
  header : result.spec = correct.spec ∧ result.positions = correct.positions ∧
    result.tokenIds = correct.tokenIds
  shaped : Shaped b.model.spec new.nTokens result.layers
  covered : ∀ t, t < new.nTokens ↔ ∃ it ∈ plan.items, Inside it.newSpan t
  computed : ∀ it ∈ plan.items, ∀ t, Inside it.newSpan t → it.action ≠ .reuseShifted ∨ t ∈ sel →
    SameToken result.layers t correct.layers t
  reused : ∀ it ∈ plan.items, it.action = .reuseShifted → ∃ j start, Matches prev new it j start ∧
    ∀ d, d < it.segment.nTokens → it.newSpan.1 + d ∉ sel →
      SameToken result.layers (it.newSpan.1 + d) (prevKV.layers.map (b.rephased it.positionShift))
        (start + d)

section Selective

variable [Inhabited α] [Field α] {b : HFBackend α τ Λ} {δ : Type} [DecidableEq δ]
  {hashTokens : List Int → δ}

/-- The loop over the plan of a prefilled context assembles every item. -/
theorem assembled_prefill (causal : Causal b.model) (injective : Function.Injective hashTokens)
    (prev new : SegmentedContext) :
    ∃ layers, b.assembleReused (.float32 (b.prefill prev.tokenIds)) (b.prefill new.tokenIds)
        (planIncremental hashTokens (some prev) new .selective) prev =
          some { spec := b.model.spec, layers, positions := (b.prefill new.tokenIds).positions,
                 tokenIds := (b.prefill new.tokenIds).tokenIds } ∧
      Assembled b (b.prefill prev.tokenIds).layers
        (b.prefill new.tokenIds).layers prev prev.tokenIds.length new.tokenIds.length
        (planIncremental hashTokens (some prev) new .selective).items layers := by
  obtain ⟨prefixLen, plan⟩ :=
    planIncremental_reusePlan hashTokens injective (some prev) new .selective
  have start :
    Assembled b (b.prefill prev.tokenIds).layers
    (b.prefill new.tokenIds).layers prev prev.tokenIds.length
      new.tokenIds.length [] (b.prefill new.tokenIds).layers :=
    ⟨shaped_prefill causal new.tokenIds, by simp, fun t _ => .refl _ t⟩
  have reuses : ∀ it ∈ (planIncremental hashTokens (some prev) new .selective).items,
    it.action ≠ .recompute →
      ∃ start, Reuses prev prev.tokenIds.length new.tokenIds.length it start := by
    intro it member reuses
    obtain ⟨j, start, matched⟩ := planIncremental_matches injective member reuses
    exact ⟨start, matched.reuses reuses⟩
  have apart := List.pairwise_map.1 plan.tiling.disjoint
  obtain ⟨layers, made, assembled⟩ :=
    start.foldlM (shaped_prefill causal prev.tokenIds) reuses (by simpa using apart)
  exact ⟨layers, by simp [assembleReused, made], by simpa using assembled⟩

omit [Inhabited α] in
/-- The assembled cache before anything is recomputed: only the shifted segments are not the
    reference's. -/
theorem Assembled.correct_token (causal : Causal b.model)
    (injective : Function.Injective hashTokens)
    {prev new : SegmentedContext} {layers : List (LayerKV α)}
    (run : Assembled b (b.prefill prev.tokenIds).layers
      (b.prefill new.tokenIds).layers prev prev.tokenIds.length
      new.tokenIds.length (planIncremental hashTokens (some prev) new .selective).items layers)
    {it : SegmentPlanItem}
    (member : it ∈ (planIncremental hashTokens (some prev) new .selective).items) {t : Nat}
    (inside : Inside it.newSpan t) (unshifted : it.action ≠ .reuseShifted) :
    SameToken layers t (b.prefill new.tokenIds).layers t := by
  obtain ⟨prefixLen, plan⟩ :=
    planIncremental_reusePlan hashTokens injective (some prev) new .selective
  cases action : it.action with
  | reuseShifted => exact absurd action unshifted
  | recompute =>
    apply run.kept
    intro it' member' reuses inside'
    -- a token lies in one item only
    exact reuses (plan.eq_of_inside member inside member' inside' ▸ action)
  | reuseExact =>
    have reuses : it.action ≠ .recompute := by simp [action]
    obtain ⟨j, start, matched⟩ := planIncremental_matches injective member reuses
    obtain ⟨here, newSpan⟩ := planIncremental_span hashTokens prev member
    -- an exact item is read where it is written
    have unmoved : start = it.newSpan.1 := by
      have shift := matched.positionShift
      rw [(plan.unmoved it member action).2.1] at shift
      omega
    subst unmoved
    have fits := matched.reuses reuses
    -- a causal model computes the same token after the same prefix
    have samePrefix :=
      take_of_commonPrefix plan.longest.1 ((plan.reusedExact it member).1 action) here (t := t + 1)
      (by rw [newSpan] at inside; exact inside.2)
    have column : it.newSpan.1 + (t - it.newSpan.1) = t := Nat.add_sub_cancel' inside.1
    have before : t - it.newSpan.1 < it.newSpan.2 - it.newSpan.1 := by
      have := inside.2
      have := inside.1
      omega
    have source := run.reused it member _ fits (t - it.newSpan.1) before
    rw [column] at source
    rw [b.map_sourceLayer, if_neg unshifted] at source
    have lengths : layers.length = (b.prefill prev.tokenIds).layers.length :=
      run.shaped.length.trans (shaped_prefill causal prev.tokenIds).length.symm
    have there := fits.there
    have stop := fits.here
    exact source.trans lengths
      (prefill_sameToken causal (by omega) (by have := inside.2; omega) samePrefix)

theorem blends_of_assembled (causal : Causal b.model) (injective : Function.Injective hashTokens)
    {prev new : SegmentedContext} (reused : KVCache α)
    (header : reused.spec = b.model.spec ∧ reused.positions = (b.prefill new.tokenIds).positions)
    (run : Assembled b (b.prefill prev.tokenIds).layers
      (b.prefill new.tokenIds).layers prev prev.tokenIds.length
      new.tokenIds.length
        (planIncremental hashTokens (some prev) new .selective).items reused.layers)
        (sel : List Nat) :
    Blends b (b.prefill prev.tokenIds) (b.prefill new.tokenIds)
      (blendKV reused (b.prefill new.tokenIds)
        (recomputeIdx (planIncremental hashTokens (some prev) new .selective) sel))
      (planIncremental hashTokens (some prev) new .selective) prev new sel := by
  obtain ⟨prefixLen, plan⟩ :=
    planIncremental_reusePlan hashTokens injective (some prev) new .selective
  have correctShaped := shaped_prefill causal new.tokenIds
  have shapes := run.shaped.sameShape correctShaped
  have blended := shaped_blendKV run.shaped correctShaped
    (recomputeIdx (planIncremental hashTokens (some prev) new .selective) sel)
  constructor
  case header => exact ⟨header.1, header.2, rfl⟩
  case shaped => rwa [new.length_tokenIds] at blended
  case covered =>
    intro t
    rw [← plan.total]
    have cover := plan.tiling.covered_iff t
    simp only [Covered, List.mem_map, exists_exists_and_eq_and] at cover
    rw [cover, Inside]
    simp
  case computed =>
    intro it member t inside cases_
    by_cases here : t ∈ recomputeIdx (planIncremental hashTokens (some prev) new .selective) sel
    · exact blendKV_recomputed shapes here
    · have unshifted : it.action ≠ .reuseShifted :=
        cases_.resolve_right fun selected => here (mem_recomputeIdx.2 (.inr selected))
      exact (blendKV_kept shapes here).trans (blended.length.trans run.shaped.length.symm)
        (run.correct_token causal injective member inside unshifted)
  case reused =>
    intro it member shifted
    have reuses : it.action ≠ .recompute := by simp [shifted]
    obtain ⟨j, start, matched⟩ := planIncremental_matches injective member reuses
    refine ⟨j, start, matched, ?_⟩
    intro d before unselected
    have width : it.newSpan.2 = it.newSpan.1 + it.segment.nTokens := matched.newSpan.2
    have inside : Inside it.newSpan (it.newSpan.1 + d) := ⟨Nat.le_add_right _ _, by omega⟩
    -- a token of a shifted segment is in no segment to recompute
    have elsewhere :
      it.newSpan.1 + d ∉ recomputeIdx
      (planIncremental hashTokens (some prev) new .selective) sel := by
      intro here
      cases mem_recomputeIdx.1 here with
      | inr selected => exact unselected selected
      | inl mandatory =>
        obtain ⟨it', member', recompute, inside'⟩ := mem_positionsOf.1 mandatory
        cases plan.eq_of_inside member inside member' inside'
        cases shifted.symm.trans recompute
    have source := run.reused it member start (matched.reuses reuses) d (by omega)
    rw [b.map_sourceLayer, if_pos shifted] at source
    exact (blendKV_kept shapes elsewhere).trans (blended.length.trans run.shaped.length.symm) source

variable [LinearOrder α] [IsStrictOrderedRing α] [FloorRing α] {np : Numpy α} {select : String}

omit [IsStrictOrderedRing α] in
variable (np) in
/-- A call on a prefilled context assembles the whole plan and selects. -/
theorem exists_call (causal : Causal b.model) (injective : Function.Injective hashTokens)
    (known : select ∈ strategies)
    (prev new : SegmentedContext) (recomputeFrac : α) (devLayers : Option Int) :
    ∃ reused sel,
      SelectiveCall b hashTokens np
        (.float32 (b.prefill prev.tokenIds)) prev new recomputeFrac select devLayers reused sel ∧
      (reused.spec = b.model.spec ∧ reused.positions = (b.prefill new.tokenIds).positions ∧
        reused.metadata = (b.prefill new.tokenIds).metadata) ∧
      Assembled b (b.prefill prev.tokenIds).layers
        (b.prefill new.tokenIds).layers prev prev.tokenIds.length
        new.tokenIds.length
          (planIncremental hashTokens (some prev) new .selective).items reused.layers := by
  obtain ⟨layers, assembled, run⟩ := assembled_prefill causal injective prev new
  obtain ⟨sel, selected⟩ := exists_selection np known _ (b.prefill new.tokenIds)
    (positionsOf .reuseShifted
      (planIncremental hashTokens (some prev) new .selective)) recomputeFrac devLayers
  exact ⟨_, sel, ⟨assembled, selected⟩, ⟨rfl, rfl, rfl⟩, run⟩

/-- Over a causal model `recompute_selective` blends exactly what it says, and with the whole
    fraction it is a prefill. -/
theorem recomputeSelective_blends (causal : Causal b.model)
    (injective : Function.Injective hashTokens)
    (argsorts : np.Argsorts) (known : select ∈ strategies) (prev new : SegmentedContext)
    (recomputeFrac : α)
    (devLayers : Option Int) :
    ∃ reused sel result stats,
      b.recomputeSelective hashTokens np
        (.float32 (b.prefill prev.tokenIds)) prev new recomputeFrac select devLayers =
        some (.float32 result, stats) ∧
      SelectiveCall b hashTokens np
        (.float32 (b.prefill prev.tokenIds)) prev new recomputeFrac select devLayers reused sel ∧
      stats.selectedFromCandidates = sel.length ∧
      Blends b (b.prefill prev.tokenIds) (b.prefill new.tokenIds) result
        (planIncremental hashTokens (some prev) new .selective) prev new sel ∧
      (1 ≤ recomputeFrac → result = b.prefill new.tokenIds) := by
  obtain ⟨reused, sel, call, header, run⟩ :=
    exists_call np causal injective known prev new recomputeFrac devLayers
  have blends := blends_of_assembled causal injective reused ⟨header.1, header.2.1⟩ run sel
  refine ⟨reused, sel, _, _, recomputeSelective_eq_some_iff.2 ⟨reused, sel, call, rfl⟩, call,
    rfl, blends, ?_⟩
  intro whole
  have every := mem_of_whole argsorts known whole call.selected
  -- the selection has every candidate, so every token is the reference's
  have layersEq : (blendKV reused (b.prefill new.tokenIds)
      (recomputeIdx (planIncremental hashTokens (some prev) new .selective) sel)).layers =
        (b.prefill new.tokenIds).layers := by
    apply blends.shaped.ext (new.length_tokenIds ▸ shaped_prefill causal new.tokenIds)
    intro t inside
    obtain ⟨it, member, here⟩ := (blends.covered t).1 inside
    apply blends.computed it member t here
    by_cases shifted : it.action = .reuseShifted
    · exact .inr (every t (mem_positionsOf.2 ⟨it, member, shifted, here⟩))
    · exact .inl shifted
  apply KVCache.ext
  · exact blends.header.1
  · exact layersEq
  · exact blends.header.2.1
  · exact blends.header.2.2
  · exact header.2.2

end Selective

/-! ## Running sums -/

/-- The sum of the tokens in a cache. -/
def lastSum (layers : List (LayerKV Int)) : Int :=
  (layers.head?.elim [] fun l => cells l.key).getLastD 0

/-- The running sums on a device of integers; a shift by `d` takes `d` times the key off a key. -/
def sumsOnDevice : HFBackend ℚ Int Int where
  model := sumModel
  fromFloat x := ⌊x⌋
  fromBits word := word.toNat
  toFloat x := x
  value bits := bits.toNat
  negInf := -1000000
  decode layers _ _ _ inputIds := runningSums (lastSum layers) inputIds
  step layers positionIds inputIds :=
    (runningSums (lastSum layers) inputIds, sumModel.kvForward (some layers) positionIds inputIds)
  logProb logit target := logit - target
  rephaseCosSin delta := ([1], [delta])

/-- An edit of the first document moves the second. -/
theorem recomputeSelective_blends_moved :
    let prev : SegmentedContext :=
      ⟨[⟨"sys", [1], "system"⟩, ⟨"a", [2, 3], "context"⟩, ⟨"b", [4, 5], "context"⟩]⟩
    let new : SegmentedContext :=
      ⟨[⟨"sys", [1], "system"⟩, ⟨"a", [2], "context"⟩, ⟨"b", [4, 5], "context"⟩]⟩
    ∃ reused sel result stats,
      sumsOnDevice.recomputeSelective (id : List Int → List Int) (.stable id)
        (.float32 (sumsOnDevice.prefill prev.tokenIds))
        prev new (1 / 2) "hkvd" none = some (.float32 result, stats) ∧
      SelectiveCall sumsOnDevice (id : List Int → List Int) (.stable id)
        (.float32 (sumsOnDevice.prefill prev.tokenIds))
        prev new (1 / 2) "hkvd" none reused sel ∧
      stats.selectedFromCandidates = sel.length ∧
      Blends sumsOnDevice (sumsOnDevice.prefill prev.tokenIds)
        (sumsOnDevice.prefill new.tokenIds) result
        (planIncremental (id : List Int → List Int) (some prev) new .selective) prev new sel ∧
      ((1 : ℚ) ≤ 1 / 2 → result = sumsOnDevice.prefill new.tokenIds) :=
  recomputeSelective_blends sumModel_causal Function.injective_id (Numpy.stable_argsorts id)
    (by simp [strategies]) _ _ _ _

end HFBackend

end Dexa.Engine
