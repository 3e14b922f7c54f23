import Dexa.Compaction.Base
import Dexa.Lib.Lists

/-! # Selection-only compactors (`dexa/compaction/baselines.py`)

They keep a subset of the original keys and values, with zero biases.
-/

namespace Dexa.Compaction

open Dexa.Core Dexa.Lib

variable {α : Type} [Inhabited α] [Zero α]

/-- `a[h][S]`. -/
def gatherHead (a : NDArray α) (h : Nat) (S : List Nat) : Except Raised (NDArray α) := do
  match (← headOf a h).indexSelect S with
  | some rows => return rows
  | none => .error .indexError

/-- One round of the loop in `_make_layer`. -/
def makeHead (K V : NDArray α) (positions : List Int) (e : List Nat × Nat) :
    Except Raised (CompactHead α) := do
  let S := e.1.mergeSort fun i j => decide (i ≤ j)
  let key ← gatherHead K e.2 S
  let value ← gatherHead V e.2 S
  let positions ← S.mapM (index positions)
  return { key, value, biases := List.replicate S.length 0, positions }

/-- `_make_layer`: the keys and values at the indices selected on each head, in order. -/
def makeLayer (K V : NDArray α) (positions : List Int) (selPerHead : List (List Nat)) :
    Except Raised (CompactLayer α) := do
  let heads ← selPerHead.zipIdx.mapM (makeHead K V positions)
  return .ofHeads heads

/-- `RecentWindow`: the last `t` tokens on each head. -/
def recentWindow : Compactor α where
  name := "recent_window"
  needsRefQueries := false
  compact cache budget _ := do
    let T := cache.seqLen
    let t := min (← budget.targetT T) T
    let sel := List.range' (T - t).toNat t.toNat
    let layers ← (List.range cache.spec.nLayers).mapM fun l => do
      let layer ← index cache.layers l
      makeLayer layer.key layer.value cache.positions (List.replicate cache.spec.nKvHeads sel)
    return { spec := cache.spec, layers, logicalLength := T, method := "recent_window" }

omit [Zero α] in
theorem gatherHead_ok {a : NDArray α} {heads t d h : Nat} (shape : a.shape = [heads, t, d])
    (inside : h < heads)
    {S : List Nat} (bound : ∀ i ∈ S, i < t) : ∃ b, gatherHead a h S = .ok b ∧
      b.shape = [S.length, d] := by
  obtain ⟨rows, found, rowShape⟩ := headOf_ok shape inside
  refine ⟨rows.gatherRows S, ?_, NDArray.shape_gatherRows S rowShape⟩
  have gathered := NDArray.indexSelect_eq_some rowShape bound
  simp only [gatherHead, found, bind, Except.bind, gathered, pure, Except.pure]

/-- In a prefix the position of token `i` is `i`. -/
theorem mapM_index_arange {T : Nat} {S : List Nat} (bound : ∀ i ∈ S, i < T) :
    S.mapM (index (arange 0 T)) = .ok (S.map Int.ofNat) := by
  induction S with
  | nil => rfl
  | cons i S ih =>
    have inside : i < T := bound i List.mem_cons_self
    have here : (arange 0 T)[i]? = some (Int.ofNat i) := by
      rw [arange, Nat.sub_zero, List.getElem?_map, List.getElem?_range' inside,
        Nat.one_mul, Nat.zero_add]
      rfl
    rw [List.mapM_cons, index_ok here, ih fun j member => bound j (List.mem_cons_of_mem _ member)]
    rfl

section MakeLayer

variable {K V : NDArray α} {heads T d : Nat} (keyShape : K.shape = [heads, T, d])
  (valueShape : V.shape = [heads, T, d])
include keyShape valueShape

theorem makeHead_ok {S : List Nat} {h : Nat} (inside : h < heads) (increasing : S.Pairwise (· < ·))
    (bound : ∀ i ∈ S, i < T) :
    ∃ head, makeHead K V (arange 0 T) (S, h) = .ok head ∧ HeadFits d S.length T head := by
  have sorted : (S.mergeSort fun i j => decide (i ≤ j)) = S :=
    List.mergeSort_of_pairwise (increasing.imp fun lt => decide_eq_true lt.le)
  obtain ⟨key, keyOk, keyRows⟩ := gatherHead_ok keyShape inside bound
  obtain ⟨value, valueOk, valueRows⟩ := gatherHead_ok valueShape inside bound
  have positions := mapM_index_arange bound
  refine ⟨⟨key, value, List.replicate S.length 0, S.map Int.ofNat⟩, ?_, ?_⟩
  · simp only [makeHead, sorted, keyOk, valueOk, positions, bind, Except.bind, pure, Except.pure]
  · constructor
    case key => exact keyRows
    case value => exact valueRows
    case biases => exact List.length_replicate
    case positions => exact List.length_map _
    case increasing => exact List.pairwise_map.2 (increasing.imp fun lt => Int.ofNat_lt.2 lt)
    case below =>
      intro p read
      obtain ⟨i, here, rfl⟩ := List.mem_map.1 read
      exact Int.ofNat_lt.2 (bound i here)

/-- A layer made of increasing selections keeps on each head the positions selected there. -/
theorem makeLayer_ok {selPerHead : List (List Nat)} (length : selPerHead.length = heads)
    (increasing : ∀ S ∈ selPerHead, S.Pairwise (· < ·)) (bound : ∀ S ∈ selPerHead, ∀ i ∈ S, i < T) :
    ∃ layer, makeLayer K V (arange 0 T) selPerHead = .ok layer ∧
      ∀ (h : Nat) (S : List Nat), selPerHead[h]? = some S →
        ∃ head, layer.head? h = some head ∧ HeadFits d S.length T head := by
  have each : ∀ e ∈ selPerHead.zipIdx, ∃ head, makeHead K V (arange 0 T) e = .ok head ∧
    HeadFits d e.1.length T head := by
    intro e member
    have found : selPerHead[e.2]? = some e.1 := List.mem_zipIdx_iff_getElem?.1 member
    have inside : e.2 < heads := length ▸ (List.getElem?_eq_some_iff.1 found).1
    have selected := List.mem_of_getElem? found
    exact makeHead_ok keyShape valueShape inside (increasing _ selected) (bound _ selected)
  obtain ⟨made, ok, related⟩ := Fallible.mapM_ok each
  refine ⟨.ofHeads made, ?_, fun h S found => ?_⟩
  · rw [makeLayer, ok]
    rfl
  · have entry : selPerHead.zipIdx[h]? = some (S, h) := by simp [found]
    obtain ⟨head, there, fits⟩ := forall₂_getElem? related entry
    exact ⟨head, by rw [CompactLayer.head?_ofHeads, there], fits⟩

end MakeLayer

theorem recentWindow_compacts {backend : ModelBackend α} (shaped : Shaped backend) :
    Compacts recentWindow backend := by
  intro tokens size refs nonempty positive _
  have seqLen := shaped.seqLen tokens 0
  have positions := shaped.positions tokens 0
  rw [Nat.zero_add] at positions
  have target : CompactionBudget.targetT { tokensPerHead := some size } tokens.length =
    .ok (size : Int) := by
    simp only [CompactionBudget.targetT]
    congr 1
    omega
  let t := min size tokens.length
  let sel := List.range' (tokens.length - t) t
  have selected : List.range' ((tokens.length : Int) - min (size : Int) tokens.length).toNat
      (min (size : Int) tokens.length).toNat = sel := by
    congr 1 <;> omega
  have increasing : sel.Pairwise (· < ·) := List.pairwise_lt_range'
  have bound : ∀ i ∈ sel, i < tokens.length := by
    intro i member
    have := (List.mem_range'_1.1 member).2
    omega
  have each : ∀ l ∈ List.range backend.spec.nLayers, ∃ layer, (do
        let kv ← index (backend.prefill tokens 0).layers l
        makeLayer kv.key kv.value (arange 0 tokens.length)
          (List.replicate backend.spec.nKvHeads sel)) = .ok layer ∧
      ∀ h < backend.spec.nKvHeads, ∃ head, layer.head? h = some head ∧
        HeadFits backend.spec.headDim sel.length tokens.length head := by
    intro l member
    have inside : l < (backend.prefill tokens 0).layers.length := by
      rw [shaped.layers_length]
      exact List.mem_range.1 member
    have there := List.getElem?_eq_getElem inside
    obtain ⟨keyShape, valueShape⟩ := shaped.layer_shape tokens 0 _ (List.getElem_mem inside)
    obtain ⟨layer, made, heads⟩ := makeLayer_ok keyShape valueShape List.length_replicate
      (fun S one => List.eq_of_mem_replicate one ▸ increasing)
      (fun S one => List.eq_of_mem_replicate one ▸ bound)
    refine ⟨layer, ?_, fun h lt => heads h sel ?_⟩
    · rw [index_ok there]
      exact made
    · rw [List.getElem?_replicate, if_pos lt]
  obtain ⟨layers, made, related⟩ := Fallible.mapM_ok each
  refine ⟨{ spec := backend.spec, layers, logicalLength := tokens.length, method := "recent_window" }, ?_, rfl, ?_⟩
  · simp only [recentWindow, seqLen, target, shaped.spec, positions, selected, bind, Except.bind,
      pure, Except.pure] at made ⊢
    rw [made]
  · intro l ltLayer h ltHead
    have entry : (List.range backend.spec.nLayers)[l]? = some l := List.getElem?_range ltLayer
    obtain ⟨layer, there, heads⟩ := forall₂_getElem? related entry
    obtain ⟨head, found, fits⟩ := heads h ltHead
    refine ⟨layer, head, there, found, sel.length, ?_, fits⟩
    rw [List.length_range']
    exact Nat.min_le_left size tokens.length

end Dexa.Compaction
