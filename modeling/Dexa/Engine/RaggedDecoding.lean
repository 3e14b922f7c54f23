import Mathlib.Algebra.BigOperators.Group.List.Lemmas
import Mathlib.Data.List.GetD
import Dexa.Engine.CompactDecoding
import Dexa.Lib.Fallible

/-! # The padding of a compact cache is not seen

The columns of the attention are the keys that the head kept, its padding, and the new tokens.  A
padded key is zero, so its score is the bias of the padding, whose exponential is zero.
-/

namespace Dexa.Engine

open Dexa.Core Dexa.Lib Dexa.Lib.NDArray Dexa.Segments

variable {α τ H Λ : Type} [Inhabited α] [Field α] [Inhabited τ] [Field τ]

/-- The score of a key: its product with the query, scaled. -/
def dotScore (scaling : τ) (d : Nat) (query key : Nat → τ) : τ :=
  ((List.range d).map fun c => query c * key c).sum * scaling

/-- The keys that a head kept, as a query sees them. -/
def keptKeys (cast : α → τ) (scaling : τ) (d : Nat) (query : Nat → τ) (head : CompactHead α) :
    List (Attention.Key τ) :=
  (List.range head.biases.length).map fun j =>
    { score := dotScore scaling d query (fun c => cast (head.key.getD [j, c] 0)) + cast (head.biases.getD j 0)
      value := fun c => cast (head.value.getD [j, c] 0) }

/-- The new tokens, as the query of token `i` sees them: those after it under the mask. -/
def newKeys (scaling hidden : τ) (d : Nat) (query : Nat → τ) (key value : NDArray τ) (h i : Nat) :
    List (Attention.Key τ) :=
  (List.range (key.shape.getD 1 0)).map fun j =>
    { score := dotScore scaling d query (fun c => key.getD [h, j, c] 0) + if i < j then hidden else 0
      value := fun c => value.getD [h, j, c] 0 }

/-- Each query head over the keys that its kv head kept and over the new tokens. -/
def raggedAttention (exp : τ → τ) (cast : α → τ) (scaling hidden : τ) (groups : Nat)
    (layer : CompactLayer α)
    (new : Projected τ) : NDArray τ :=
  NDArray.ofFn new.query.shape fun
    | [h, i, c] =>
      let d := new.query.shape.getD 2 0
      let query := fun c => new.query.getD [h, i, c] 0
      let kept := ((layer.head? (h / groups)).map (keptKeys cast scaling d query)).getD []
      Attention.answer exp
        (kept ++ newKeys scaling hidden d query new.key new.value (h / groups) i) c
    | _ => 0

/-- Decoding with ragged attention in each layer. -/
def Llama.decodeRagged (llama : Llama τ H Λ) (spec : ModelSpec) (cast : α → τ) (negInf : α)
    (cache : CompactCache α)
    (inputIds : List Int) : List Λ :=
  llama.pass
    ((cache.layers.take spec.nLayers).map
    (raggedAttention llama.exp cast llama.scaling (cast negInf) spec.groupSize))
    (arange cache.logicalLength (cache.logicalLength + inputIds.length)) inputIds

/-- One head with `t` keys, each with a value and a bias. -/
structure HeadShaped (headDim t : Nat) (head : CompactHead α) : Prop where
  key : head.key.shape = [t, headDim]
  value : head.value.shape = [t, headDim]
  biases : head.biases.length = t

def LayerShaped (spec : ModelSpec) (layer : CompactLayer α) : Prop :=
  ∀ h < spec.nKvHeads, ∃ head, layer.head? h = some head ∧
    HeadShaped spec.headDim head.biases.length head

/-- A layer for each of the model's, its heads of any lengths. -/
def CompactShaped (spec : ModelSpec) (cache : CompactCache α) : Prop :=
  ∀ li < spec.nLayers, ∃ layer, cache.layers[li]? = some layer ∧ LayerShaped spec layer

structure ProjectedShape (spec : ModelSpec) (qLen : Nat) (new : Projected τ) : Prop where
  query : new.query.shape = [spec.nQHeads, qLen, spec.headDim]
  key : new.key.shape = [spec.nKvHeads, qLen, spec.headDim]
  value : new.value.shape = [spec.nKvHeads, qLen, spec.headDim]

/-- The model's layers return as many tokens as they are given. -/
structure Llama.Shaped (llama : Llama τ H Λ) (spec : ModelSpec) : Prop where
  project : ∀ li positionIds hidden,
    ProjectedShape spec hidden.length (llama.project li positionIds hidden)
  finish : ∀ li hidden attended, (llama.finish li hidden attended).length = hidden.length

omit [Inhabited τ] [Field τ] in
/-- Passes whose attentions agree on what the layers project agree. -/
theorem Llama.pass_congr {llama : Llama τ H Λ} {spec : ModelSpec} (shaped : llama.Shaped spec)
    {inputIds : List Int}
    {attentions attentions' : List (Projected τ → NDArray τ)}
    (same : List.Forall₂ (fun attend attend' => ∀ new, ProjectedShape spec inputIds.length new →
      attend new = attend' new)
      attentions attentions') (positionIds : List Int) :
    llama.pass attentions positionIds inputIds = llama.pass attentions' positionIds inputIds := by
  have layers : ∀ (k : Nat) (hidden : List H), hidden.length = inputIds.length →
      (attentions.zipIdx k).foldl (llama.decoderLayer positionIds) hidden =
      (attentions'.zipIdx k).foldl (llama.decoderLayer positionIds) hidden := by
    induction same with
    | nil => intro k hidden _; rfl
    | @cons attend attend' rest rest' first _ ih =>
      intro k hidden length
      have new := shaped.project k positionIds hidden
      rw [length] at new
      simp only [List.zipIdx_cons, List.foldl_cons, decoderLayer, first _ new]
      exact ih (k + 1) _ ((shaped.finish _ _ _).trans length)
  simp only [pass, layers 0 _ (List.length_map _)]

omit [Inhabited τ] [Field τ] in
/-- A pass has a logit for each token. -/
theorem Llama.length_pass {llama : Llama τ H Λ} {spec : ModelSpec} (shaped : llama.Shaped spec)
    (attentions : List (Projected τ → NDArray τ))
    (positionIds inputIds : List Int) : (llama.pass attentions positionIds inputIds).length =
      inputIds.length := by
  have layers : ∀ (layers : List ((Projected τ → NDArray τ) × Nat)) (hidden : List H),
      (layers.foldl (llama.decoderLayer positionIds) hidden).length = hidden.length := by
    intro layers
    induction layers with
    | nil => exact fun hidden => rfl
    | cons layer layers ih => exact fun hidden => (ih _).trans (shaped.finish _ _ _)
  simp only [pass, List.length_map, layers]

/-- The columns of the kernel as keys. -/
def columnKeys (scaling : τ) (query key value mask beta : NDArray τ) (h i : Nat) :
    List (Attention.Key τ) :=
  (List.range (key.shape.getD 1 0)).map fun j =>
    { score := dotScore scaling (query.shape.getD 2 0) (fun c => query.getD [h, i, c] 0) (fun c => key.getD [h, j, c] 0) +
        mask.getD [i, j] 0 + beta.getD [h, j] 0
      value := fun c => value.getD [h, j, c] 0 }

theorem dexaEagerAttentionForward_eq (exp : τ → τ) (groups : Nat)
    (query key value mask beta : NDArray τ) (scaling : τ) :
    dexaEagerAttentionForward exp groups query key value (some mask) (some beta) scaling =
      NDArray.ofFn query.shape fun
        | [h, i, c] => Attention.answer exp (columnKeys scaling query (repeatKv key groups)
            (repeatKv value groups) mask beta h i) c
        | _ => 0 := by
  unfold dexaEagerAttentionForward
  refine ofFn_congr fun ix _ => ?_
  match ix with
  | [h, i, c] =>
    simp only [← Attention.sum_softmax, columnKeys, dotScore, List.map_map, Function.comp_def,
      Option.elim_some]
  | [] | [_] | [_, _] | _ :: _ :: _ :: _ :: _ => rfl

omit [Field τ] in
theorem shape_cacheUpdate {cached new : NDArray τ} {m t n d : Nat}
    (cachedShape : cached.shape = [m, t, d])
    (newShape : new.shape = [m, n, d]) : (cacheUpdate cached new).shape = [m, t + n, d] := by
  simp [cacheUpdate, cachedShape, newShape]

theorem getD_cacheUpdate {cached new : NDArray τ} {m t n d : Nat}
    (cachedShape : cached.shape = [m, t, d])
    (newShape : new.shape = [m, n, d]) {j : Nat} (column : j < t + n) (h c : Nat) :
    (cacheUpdate cached new).getD [h, j, c] 0 = if j < t then cached.getD [h, j, c] 0
      else new.getD [h, j - t, c] 0 := by
  by_cases inside : h < m ∧ c < d
  · have cell : InBounds [m, t + n, d] [h, j, c] := ⟨inside.1, column, inside.2, trivial⟩
    apply getD_of_get?
    simp only [cacheUpdate, cachedShape, newShape, get?_ofFn_inBounds _ cell, Option.some.injEq]
    split
    · rename_i old
      have here : InBounds cached.shape [h, j, c] :=
        cachedShape ▸ ⟨inside.1, old, inside.2, trivial⟩
      obtain ⟨x, there⟩ := get?_isSome here
      rw [getD_of_get? there, getD_of_get? there]
    · have here : InBounds new.shape [h, j - t, c] :=
        newShape ▸ ⟨inside.1, by omega, inside.2, trivial⟩
      obtain ⟨x, there⟩ := get?_isSome here
      rw [getD_of_get? there, getD_of_get? there]
  · have beyond : ∀ (a : NDArray τ) (n' j' : Nat), a.shape = [m, n', d] →
      a.getD [h, j', c] 0 = 0 := by
      intro a n' j' shape
      rw [getD, get?_eq_none (shape ▸ fun cell => inside ⟨cell.1, cell.2.2.1⟩)]
      rfl
    rw [beyond _ _ _ (shape_cacheUpdate cachedShape newShape), beyond _ _ _ cachedShape,
      beyond _ _ _ newShape, ite_self]

omit [Field τ] in
theorem getD_repeat0 {a : NDArray τ} {m n h : Nat} {rest : List Nat} (shape : a.shape = m :: rest)
    (head : h < m * n)
    (ix : List Nat) (filler : τ) :
      (a.repeat0 n).getD (h :: ix) filler = a.getD (h / n :: ix) filler := by
  rw [NDArray.getD, NDArray.get?_repeat0 shape head, NDArray.getD]

omit [Inhabited τ] in
theorem getD_betaFull {beta : NDArray τ} {nQHeads phys kvLen h j : Nat}
    (shape : beta.shape = [nQHeads, phys]) (head : h < nQHeads)
    (column : j < kvLen) :
      (Llama.betaFull nQHeads kvLen beta).getD [h, j] 0 = if j < phys then beta.getD [h, j] 0
      else 0 := by
  apply NDArray.getD_of_get?
  rw [Llama.betaFull,
    NDArray.get?_ofFn_inBounds _
    (show InBounds [nQHeads, kvLen] [h, j] from ⟨head, column, trivial⟩), shape]
  rfl

omit [Inhabited α] [Inhabited τ] in
theorem getD_attentionMask (b : HFBackend α τ Λ) {phys qLen i j : Nat} (row : i < qLen)
    (column : j < phys + qLen) :
    ((b.attentionMask phys qLen).map b.fromFloat).getD [i, j] 0 = b.fromFloat
      (if i + phys < j then b.negInf else 0) := by
  apply NDArray.getD_of_get?
  rw [NDArray.get?_map, HFBackend.attentionMask,
    NDArray.get?_ofFn_inBounds _
      (show InBounds [qLen, phys + qLen] [i, j] from ⟨row, column, trivial⟩)]
  rfl

section Built

variable (b : HFBackend α τ Λ) {spec : ModelSpec} {phys : Nat}

/-- The arrays after the heads below `k`: what these kept, then padding. -/
structure HeadsFilled (spec : ModelSpec) (phys : Nat) (layer : CompactLayer α)
    (negInf : α) (k : Nat)
    (full : NDArray α × NDArray α × NDArray α) : Prop where
  keyShape : full.1.shape = [spec.nKvHeads, phys, spec.headDim]
  valueShape : full.2.1.shape = [spec.nKvHeads, phys, spec.headDim]
  betaShape : full.2.2.shape = [spec.nKvHeads, phys]
  kept : ∀ h < k, ∀ head, layer.head? h = some head → ∀ j < head.biases.length,
    (∀ c, full.1.get? [h, j, c] = head.key.get? [j, c]) ∧
      (∀ c, full.2.1.get? [h, j, c] = head.value.get? [j, c]) ∧
      full.2.2.get? [h, j] = head.biases[j]?
  padding : ∀ h < spec.nKvHeads, ∀ j < phys,
    (∀ head, layer.head? h = some head → h < k → head.biases.length ≤ j) →
    (∀ c < spec.headDim, full.1.get? [h, j, c] = some 0) ∧
      (∀ c < spec.headDim, full.2.1.get? [h, j, c] = some 0) ∧
      full.2.2.get? [h, j] = some negInf

theorem fillHead_ok {layer : CompactLayer α} {negInf : α} {h : Nat}
    {full : NDArray α × NDArray α × NDArray α}
    (filled : HeadsFilled spec phys layer negInf h full) {head : CompactHead α}
    (inside : h < spec.nKvHeads)
    (found : layer.head? h = some head) (shaped : HeadShaped spec.headDim head.biases.length head)
    (fits : head.biases.length ≤ phys) :
    ∃ full', HFBackend.fillHead layer full h = some full' ∧
      HeadsFilled spec phys layer negInf (h + 1) full' := by
  obtain ⟨keys, values, biases, -⟩ := CompactLayer.head?_eq_some.1 found
  obtain ⟨key, keyWritten, keyShape, keyCells⟩ :=
    assignLeading_eq_some filled.keyShape inside fits shaped.key
  obtain ⟨value, valueWritten, valueShape, valueCells⟩ :=
    assignLeading_eq_some filled.valueShape inside fits shaped.value
  have biasShape : (NDArray.ofList head.biases).shape = [head.biases.length] := rfl
  obtain ⟨beta, betaWritten, betaShape, betaCells⟩ :=
    assignLeading_eq_some filled.betaShape inside fits biasShape
  refine ⟨(key, value, beta), ?_, keyShape, valueShape, betaShape, ?_, ?_⟩
  · simp only [HFBackend.fillHead, keys, values, biases, Option.bind_eq_bind, Option.bind_some,
      shaped.key, List.headD_cons,
      keyWritten, valueWritten, betaWritten, pure]
  · intro h' lt head' found' j kept
    by_cases own : h' = h
    · subst own
      obtain rfl : head = head' := Option.some.inj (found.symm.trans found')
      have cell : (NDArray.ofList head.biases).get? [j] = head.biases[j]? := by
        simp [NDArray.ofList, NDArray.get?, InBounds, ravel, kept]
      simp [keyCells, valueCells, betaCells, kept, cell]
    · have before := filled.kept h' (by omega) head' found' j kept
      simpa [keyCells, valueCells, betaCells, own] using before
  · intro h' lt j column past
    have before :=
      filled.padding h' lt j column fun head' found' earlier => past head' found' (by omega)
    have untouched : ¬ (h' = h ∧ j < head.biases.length) := by
      rintro ⟨rfl, kept⟩
      have := past head found (by omega)
      omega
    simpa [keyCells, valueCells, betaCells, untouched] using before

omit [Inhabited τ] [Field τ] in
theorem buildCompactLayer_ok {layer : CompactLayer α} (shaped : LayerShaped b.model.spec layer)
    (fits : ∀ h < b.model.spec.nKvHeads, ∀ head, layer.head? h = some head →
      head.biases.length ≤ phys) :
    ∃ full, b.buildCompactLayer layer phys =
      some (⟨full.1.map b.fromFloat, full.2.1.map b.fromFloat⟩,
        (full.2.2.repeat0 b.model.spec.groupSize).map b.fromFloat) ∧
      HeadsFilled b.model.spec phys layer b.negInf b.model.spec.nKvHeads full := by
  let empty : NDArray α := NDArray.full [b.model.spec.nKvHeads, phys, b.model.spec.headDim] 0
  have start :
    HeadsFilled b.model.spec phys layer b.negInf 0
    (empty, empty, NDArray.full [b.model.spec.nKvHeads, phys] b.negInf) := by
    constructor
    case keyShape => rfl
    case valueShape => rfl
    case betaShape => rfl
    case kept => intro h lt; omega
    case padding =>
      intro h head j column _
      have cell : ∀ c < b.model.spec.headDim, empty.get? [h, j, c] = some 0 := fun c coordinate =>
        get?_ofFn_inBounds _ ⟨head, column, coordinate, trivial⟩
      exact ⟨cell, cell, get?_ofFn_inBounds _ ⟨head, column, trivial⟩⟩
  -- the loop's invariant: the first `i` heads are filled in, the others are padding
  have round : ∀ i h full, (List.range b.model.spec.nKvHeads)[i]? = some h →
    HeadsFilled b.model.spec phys layer b.negInf i full →
      ∃ full', HFBackend.fillHead layer full h = some full' ∧
        HeadsFilled b.model.spec phys layer b.negInf (i + 1) full' := by
    intro i h full here before
    obtain ⟨inside, rfl⟩ := List.getElem?_eq_some_iff.1 here
    rw [List.length_range] at inside
    rw [List.getElem_range]
    obtain ⟨head, found, headShaped⟩ := shaped i inside
    exact fillHead_ok before inside found headShaped (fits i inside head found)
  obtain ⟨full, done, filled⟩ := Fallible.foldlM_some round start
  rw [List.length_range] at filled
  refine ⟨full, ?_, filled⟩
  simp only [HFBackend.buildCompactLayer]
  rw [show (List.range b.model.spec.nKvHeads).foldlM (HFBackend.fillHead layer)
    (NDArray.full [b.model.spec.nKvHeads, phys, b.model.spec.headDim] 0,
      NDArray.full [b.model.spec.nKvHeads, phys, b.model.spec.headDim] 0,
      NDArray.full [b.model.spec.nKvHeads, phys] b.negInf) = some full from done]
  rfl

end Built

/-! ## The attention of a layer -/

omit [Inhabited τ] in
theorem dotScore_congr {scaling : τ} {d : Nat} {query key key' : Nat → τ}
    (same : ∀ c < d, key c = key' c) :
    dotScore scaling d query key = dotScore scaling d query key' := by
  unfold dotScore
  rw [List.map_congr_left fun c member => by rw [same c (List.mem_range.1 member)]]

omit [Inhabited τ] in
theorem dotScore_zero {scaling : τ} {d : Nat} {query key : Nat → τ} (none : ∀ c < d, key c = 0) :
    dotScore scaling d query key = 0 := by
  have zeros : dotScore scaling d query key = dotScore scaling d query fun _ => 0 :=
    dotScore_congr none
  rw [zeros]
  simp [dotScore]

omit [Inhabited α] [Inhabited τ] in
theorem getD_map_zero {cast : α → τ} (zero : cast 0 = 0) (a : NDArray α) (ix : List Nat) :
    (a.map cast).getD ix 0 = cast (a.getD ix 0) := by
  conv_lhs => rw [← zero]
  exact getD_map a ix 0

/-- What is assumed of the numbers: a zero stays one on its way to the device, and the exponential
    of the padding's bias is 0. -/
structure HFBackend.Hides (b : HFBackend α τ Λ) (exp : τ → τ) : Prop where
  zero : b.fromFloat 0 = 0
  vanish : exp (b.fromFloat b.negInf) = 0

section Layer

variable {b : HFBackend α τ Λ} {llama : Llama τ H Λ} {phys qLen : Nat} {layer : CompactLayer α}
  {full : NDArray α × NDArray α × NDArray α} {new : Projected τ}

omit [Inhabited τ] [Field τ] in
theorem map_range_split {β : Type} (f : Nat → β) {t phys : Nat} (short : t ≤ phys) (qLen : Nat) :
    (List.range (phys + qLen)).map f = (List.range t).map f ++ (List.range (phys - t)).map
      (fun j => f (t + j)) ++
      (List.range qLen).map fun j => f (phys + j) := by
  have front : phys = t + (phys - t) := by omega
  rw [List.range_add, List.map_append, List.map_map, Function.comp_def]
  congr 1
  conv_lhs => rw [front, List.range_add, List.map_append, List.map_map, Function.comp_def]

/-- The columns of a query: what its head kept, the padding, which the bias hides, and the new
    tokens. -/
theorem columnKeys_eq (hides : b.Hides llama.exp)
    (filled : HeadsFilled b.model.spec phys layer b.negInf b.model.spec.nKvHeads full)
    (projected : ProjectedShape b.model.spec qLen new) {h i : Nat}
    (queryHead : h < b.model.spec.nKvHeads * b.model.spec.groupSize)
    (row : i < qLen) {head : CompactHead α}
    (found : layer.head? (h / b.model.spec.groupSize) = some head)
    (short : head.biases.length ≤ phys) :
    ∃ padding, columnKeys llama.scaling new.query
        (repeatKv (cacheUpdate (full.1.map b.fromFloat) new.key) b.model.spec.groupSize)
        (repeatKv (cacheUpdate (full.2.1.map b.fromFloat) new.value) b.model.spec.groupSize)
        ((b.attentionMask phys qLen).map b.fromFloat)
        (Llama.betaFull (b.model.spec.nKvHeads * b.model.spec.groupSize) (phys + qLen)
          ((full.2.2.repeat0 b.model.spec.groupSize).map b.fromFloat)) h i =
      keptKeys b.fromFloat llama.scaling b.model.spec.headDim
        (fun c => new.query.getD [h, i, c] 0) head ++ padding ++
        newKeys llama.scaling (b.fromFloat b.negInf) b.model.spec.headDim
          (fun c => new.query.getD [h, i, c] 0) new.key new.value
          (h / b.model.spec.groupSize) i ∧
      ∀ key ∈ padding, llama.exp key.score = 0 := by
  have kvHead : h / b.model.spec.groupSize < b.model.spec.nKvHeads :=
    Nat.div_lt_of_lt_mul (by rwa [Nat.mul_comm])
  have cachedKey :
    (full.1.map b.fromFloat).shape = [b.model.spec.nKvHeads, phys, b.model.spec.headDim] :=
  filled.keyShape
  have cachedValue :
    (full.2.1.map b.fromFloat).shape = [b.model.spec.nKvHeads, phys, b.model.spec.headDim] :=
  filled.valueShape
  have keyShape := shape_cacheUpdate cachedKey projected.key
  have valueShape := shape_cacheUpdate cachedValue projected.value
  have betaShape : ((full.2.2.repeat0 b.model.spec.groupSize).map b.fromFloat).shape =
      [b.model.spec.nKvHeads * b.model.spec.groupSize, phys] := shape_repeat0 _ filled.betaShape
  -- what the kernel reads in a column
  have readKey : ∀ j < phys + qLen, ∀ c,
    (repeatKv (cacheUpdate (full.1.map b.fromFloat) new.key) b.model.spec.groupSize).getD [h, j,
    c] 0 =
      if j < phys then b.fromFloat (full.1.getD [h / b.model.spec.groupSize, j, c] 0)
      else new.key.getD [h / b.model.spec.groupSize, j - phys, c] 0 := by
    intro j column c
    rw [repeatKv, getD_repeat0 keyShape queryHead, getD_cacheUpdate cachedKey projected.key column,
      getD_map_zero hides.zero]
  have readValue : ∀ j < phys + qLen, ∀ c,
    (repeatKv (cacheUpdate (full.2.1.map b.fromFloat) new.value) b.model.spec.groupSize).getD [h, j,
    c] 0 =
      if j < phys then b.fromFloat (full.2.1.getD [h / b.model.spec.groupSize, j, c] 0)
      else new.value.getD [h / b.model.spec.groupSize, j - phys, c] 0 := by
    intro j column c
    rw [repeatKv, getD_repeat0 valueShape queryHead,
      getD_cacheUpdate cachedValue projected.value column, getD_map_zero hides.zero]
  have readBeta : ∀ j < phys + qLen,
    (Llama.betaFull (b.model.spec.nKvHeads * b.model.spec.groupSize) (phys + qLen)
      ((full.2.2.repeat0 b.model.spec.groupSize).map b.fromFloat)).getD [h, j] 0 =
      if j < phys then b.fromFloat (full.2.2.getD [h / b.model.spec.groupSize, j] 0) else 0 := by
    intro j column
    rw [getD_betaFull betaShape queryHead column, getD_map_zero hides.zero,
      getD_repeat0 filled.betaShape queryHead]
  have readMask : ∀ j < phys + qLen, ((b.attentionMask phys qLen).map b.fromFloat).getD [i, j] 0 =
      if i + phys < j then b.fromFloat b.negInf else 0 := by
    intro j column
    rw [getD_attentionMask b row column, apply_ite b.fromFloat, hides.zero]
  have width :
    (repeatKv
    (cacheUpdate (full.1.map b.fromFloat) new.key) b.model.spec.groupSize).shape.getD 1 0 =
    phys + qLen := by
    rw [repeatKv, shape_repeat0 _ keyShape]
    rfl
  rw [columnKeys, width, map_range_split _ short, projected.query]
  refine ⟨_, congrArg₂ (· ++ ·) (congrArg₂ (· ++ ·) ?_ rfl) ?_, ?_⟩
  · apply List.map_congr_left
    intro j member
    have kept := List.mem_range.1 member
    have cells := filled.kept _ kvHead head found j kept
    have before : ¬ i + phys < j := by omega
    rw [readMask j (by omega), readBeta j (by omega), if_neg before, if_pos (by omega), add_zero]
    congr 2
    · apply dotScore_congr
      intro c _
      rw [readKey j (by omega), if_pos (by omega), getD, cells.1 c, getD]
    · rw [getD, cells.2.2, List.getD_eq_getElem?_getD]
    · funext c
      rw [readValue j (by omega), if_pos (by omega), getD, cells.2.1 c, getD]
  · rw [newKeys, projected.key]
    apply List.map_congr_left
    intro j member
    have inside : j < qLen := List.mem_range.1 member
    rw [readMask _ (by omega), readBeta _ (by omega), if_neg (show ¬ phys + j < phys by omega),
      add_zero]
    congr 2
    · apply dotScore_congr
      intro c _
      rw [readKey _ (by omega), if_neg (by omega), Nat.add_sub_cancel_left]
    · simp only [Nat.add_comm phys j, Nat.add_lt_add_iff_right]
    · funext c
      rw [readValue _ (by omega), if_neg (by omega), Nat.add_sub_cancel_left]
  · intro key member
    obtain ⟨j, inside, rfl⟩ := List.mem_map.1 member
    have column : head.biases.length + j < phys := by
      have := List.mem_range.1 inside
      omega
    have cells := filled.padding _ kvHead _ column fun head' found' _ => by
      obtain rfl : head = head' := Option.some.inj (found.symm.trans found')
      omega
    have zeros : dotScore llama.scaling b.model.spec.headDim (fun c => new.query.getD [h, i, c] 0)
      (fun c =>
        (repeatKv (cacheUpdate (full.1.map b.fromFloat) new.key) b.model.spec.groupSize).getD [h,
          head.biases.length + j, c] 0) = 0 := by
      apply dotScore_zero
      intro c coordinate
      rw [readKey _ (by omega), if_pos column, getD_of_get? (cells.1 c coordinate), hides.zero]
    have hidden : (full.2.2).getD [h / b.model.spec.groupSize, head.biases.length + j] 0 =
      b.negInf := getD_of_get? cells.2.2
    change llama.exp (dotScore llama.scaling b.model.spec.headDim _ _ + _ + _) = 0
    rw [zeros, readMask _ (by omega), readBeta _ (by omega), if_neg (by omega), if_pos column,
      hidden, add_zero, zero_add]
    exact hides.vanish

theorem cachedAttention_eq (hides : b.Hides llama.exp)
    (grouped : b.model.spec.nQHeads = b.model.spec.nKvHeads * b.model.spec.groupSize)
    (shaped : LayerShaped b.model.spec layer)
    (fits : ∀ h < b.model.spec.nKvHeads, ∀ head, layer.head? h = some head →
      head.biases.length ≤ phys)
    (filled : HeadsFilled b.model.spec phys layer b.negInf b.model.spec.nKvHeads full)
    (projected : ProjectedShape b.model.spec qLen new) :
    llama.cachedAttention b.model.spec.groupSize ((b.attentionMask phys qLen).map b.fromFloat)
        ⟨full.1.map b.fromFloat, full.2.1.map b.fromFloat⟩
          ((full.2.2.repeat0 b.model.spec.groupSize).map b.fromFloat) new =
      raggedAttention llama.exp b.fromFloat llama.scaling
        (b.fromFloat b.negInf) b.model.spec.groupSize layer new := by
  have cachedKey :
    (full.1.map b.fromFloat).shape = [b.model.spec.nKvHeads, phys, b.model.spec.headDim] :=
  filled.keyShape
  have keyShape := shape_cacheUpdate cachedKey projected.key
  rw [Llama.cachedAttention, dexaEagerAttentionForward_eq]
  apply ofFn_congr
  intro ix inside
  rw [projected.query] at inside
  obtain ⟨h, i, c, rfl, queryHead, row, coordinate⟩ := inBounds_three inside
  rw [grouped] at queryHead
  have kvHead : h / b.model.spec.groupSize < b.model.spec.nKvHeads :=
    Nat.div_lt_of_lt_mul (by rwa [Nat.mul_comm])
  obtain ⟨head, found, headShaped⟩ := shaped _ kvHead
  obtain ⟨padding, columns, vanish⟩ :=
    columnKeys_eq hides filled projected queryHead row found (fits _ kvHead head found)
  simp only [keyShape, projected.query, grouped, List.getD_cons_zero, List.getD_cons_succ, found,
    Option.map_some, Option.getD_some]
  rw [columns, Attention.answer_vanishing _ _ _ vanish]

end Layer

/-! ## All layers -/

theorem le_foldl_max {l : List Nat} {n : Nat} (member : n ∈ l) (start : Nat) :
    n ≤ l.foldl max start := by
  have grows : ∀ (l : List Nat) (start : Nat), start ≤ l.foldl max start := by
    intro l
    induction l with
    | nil => exact fun start => le_rfl
    | cons m l ih => exact fun start => (le_max_left start m).trans (ih (max start m))
  induction l generalizing start with
  | nil => cases member
  | cons m l ih =>
    rcases List.mem_cons.1 member with rfl | later
    · exact (le_max_right start n).trans (grows l _)
    · exact ih later _

theorem foldl_max_le {l : List Nat} {start m : Nat} (first : start ≤ m) (all : ∀ n ∈ l, n ≤ m) :
    l.foldl max start ≤ m := by
  induction l generalizing start with
  | nil => exact first
  | cons n l ih =>
    exact ih (max_le first (all n List.mem_cons_self))
      fun n' member => all n' (List.mem_cons_of_mem n member)

omit [Inhabited α] [Field α] in
/-- No head is longer than the physical length. -/
theorem length_le_physicalLen {cache : CompactCache α} {layer : CompactLayer α}
    (there : layer ∈ cache.layers) {h d : Nat}
    {head : CompactHead α} (found : layer.head? h = some head)
    (shape : head.key.shape = [head.biases.length, d]) :
    head.biases.length ≤ (HostContext.compact cache).physicalLen := by
  apply le_foldl_max
  refine List.mem_flatMap.2 ⟨layer, there, List.mem_map.2 ⟨head.key, ?_, by rw [shape]; rfl⟩⟩
  exact List.mem_of_getElem? (CompactLayer.head?_eq_some.1 found).1

/-- The device arrays of a layer are attended over as the layer itself is. -/
def Attends (llama : Llama τ H Λ) (b : HFBackend α τ Λ) (phys qLen : Nat)
    (made : LayerKV τ × NDArray τ) (layer : CompactLayer α) : Prop :=
  ∀ new, ProjectedShape b.model.spec qLen new →
    llama.cachedAttention b.model.spec.groupSize
      ((b.attentionMask phys qLen).map b.fromFloat) made.1 made.2 new =
      raggedAttention llama.exp b.fromFloat llama.scaling
        (b.fromFloat b.negInf) b.model.spec.groupSize layer new

section Model

variable {b : HFBackend α τ Λ} {llama : Llama τ H Λ} {cache : CompactCache α}
  (hides : b.Hides llama.exp)
  (grouped : b.model.spec.nQHeads = b.model.spec.nKvHeads * b.model.spec.groupSize)
  (shaped : CompactShaped b.model.spec cache)
include hides grouped shaped

theorem buildContext_attends (qLen : Nat) :
    ∃ built, b.buildContext (.compact cache) (HostContext.compact cache).physicalLen = some built ∧
      List.Forall₂ (Attends llama b (HostContext.compact cache).physicalLen qLen) built
        (cache.layers.take b.model.spec.nLayers) := by
  let phys := (HostContext.compact cache).physicalLen
  have each : ∀ li ∈ List.range b.model.spec.nLayers, ∃ made,
      (cache.layers[li]?.bind fun layer => b.buildCompactLayer layer phys) = some made ∧
        ∃ layer, cache.layers[li]? = some layer ∧ Attends llama b phys qLen made layer := by
    intro li member
    obtain ⟨layer, there, heads⟩ := shaped li (List.mem_range.1 member)
    have fits : ∀ h < b.model.spec.nKvHeads, ∀ head, layer.head? h = some head →
      head.biases.length ≤ phys := by
      intro h inside head found
      obtain ⟨head', found', headShaped⟩ := heads h inside
      obtain rfl : head = head' := Option.some.inj (found.symm.trans found')
      exact length_le_physicalLen (List.mem_of_getElem? there) found headShaped.key
    obtain ⟨full, made, filled⟩ := buildCompactLayer_ok b heads fits
    refine ⟨_, by rw [there, Option.bind_some, made], layer, there, fun new projected => ?_⟩
    exact cachedAttention_eq hides grouped heads fits filled projected
  obtain ⟨built, done, related⟩ := Fallible.mapM_some each
  refine ⟨built, done, List.forall₂_iff_get.2 ⟨?_, fun i left right => ?_⟩⟩
  · have count := related.length_eq
    have enough : b.model.spec.nLayers ≤ cache.layers.length := by
      -- there is a layer for each number, so also for the first one missing
      by_contra fewer
      obtain ⟨layer, there, -⟩ := shaped cache.layers.length (not_le.1 fewer)
      have := (List.getElem?_eq_some_iff.1 there).1
      omega
    rw [List.length_range] at count
    rw [List.length_take]
    omega
  · have inside : i < (List.range b.model.spec.nLayers).length := related.length_eq ▸ left
    obtain ⟨layer, there, attends⟩ := (List.forall₂_iff_get.1 related).2 i inside left
    rw [List.get_eq_getElem, List.getElem_range] at there
    obtain ⟨_, rfl⟩ := List.getElem?_eq_some_iff.1 there
    simpa using attends

/-- Decoding over a compact cache is decoding with ragged attention: how far the heads are padded is
    not seen, nor is the padding. -/
theorem contextLogits_ragged (runs : b.decode = llama.decode b.model.spec.groupSize b.fromFloat)
    (modelShaped : llama.Shaped b.model.spec) (inputIds : List Int) :
    b.contextLogits (.compact cache) inputIds =
      some (llama.decodeRagged b.model.spec b.fromFloat b.negInf cache inputIds) := by
  obtain ⟨built, done, attends⟩ := buildContext_attends hides grouped shaped inputIds.length
  have layers :
    List.Forall₂ (fun attend attend' => ∀ new, ProjectedShape b.model.spec inputIds.length new →
    attend new = attend' new)
      (List.zipWith (llama.cachedAttention b.model.spec.groupSize
        ((b.attentionMask (HostContext.compact cache).physicalLen inputIds.length).map b.fromFloat))
        (built.map Prod.fst) (built.map Prod.snd))
      ((cache.layers.take b.model.spec.nLayers).map
        (raggedAttention llama.exp b.fromFloat llama.scaling
          (b.fromFloat b.negInf) b.model.spec.groupSize)) := by
    rw [List.zipWith_map, List.zipWith_self, List.forall₂_map_left_iff, List.forall₂_map_right_iff]
    exact attends
  simp only [HFBackend.contextLogits, done, Option.bind_eq_bind, Option.bind_some, pure,
    runs, Llama.decode]
  rw [llama.pass_congr modelShaped layers, Llama.decodeRagged]
  rfl

end Model

/-! ## The order of the keys -/

/-- What a head holds of each of its tokens: key, value and bias. -/
def keptRows (head : CompactHead α) : List ((Nat → α) × (Nat → α) × α) :=
  (List.range head.biases.length).map
    fun j => (fun c => head.key.getD [j, c] 0, fun c => head.value.getD [j, c] 0,
    head.biases.getD j 0)

/-- The layers hold the same on each head, in some order. -/
def SameKept (spec : ModelSpec) (layer layer' : CompactLayer α) : Prop :=
  ∀ h < spec.nKvHeads, ∃ head head', layer.head? h = some head ∧ layer'.head? h = some head' ∧
    (keptRows head).Perm (keptRows head')

omit [Inhabited α] [Inhabited τ] in
theorem keptKeys_perm (cast : α → τ) (scaling : τ) (d : Nat) (query : Nat → τ)
    {head head' : CompactHead α}
    (perm : (keptRows head).Perm (keptRows head')) :
    (keptKeys cast scaling d query head).Perm (keptKeys cast scaling d query head') := by
  have rows : ∀ head : CompactHead α, keptKeys cast scaling d query head = (keptRows head).map
    fun row =>
      { score := dotScore scaling d query (fun c => cast (row.1 c)) + cast row.2.2, value := fun c => cast (row.2.1 c) } := by
    intro head
    rw [keptRows, List.map_map]
    rfl
  rw [rows, rows]
  exact perm.map _

omit [Inhabited α] [Inhabited τ] in
theorem raggedAttention_perm (exp : τ → τ) (cast : α → τ) (scaling hidden : τ) {spec : ModelSpec}
    {layer layer' : CompactLayer α}
    (grouped : spec.nQHeads = spec.nKvHeads * spec.groupSize) (same : SameKept spec layer layer')
    {qLen : Nat} {new : Projected τ}
    (projected : ProjectedShape spec qLen new) :
    raggedAttention exp cast scaling hidden spec.groupSize layer new =
      raggedAttention exp cast scaling hidden spec.groupSize layer' new := by
  apply ofFn_congr
  intro ix inside
  rw [projected.query] at inside
  obtain ⟨h, i, c, rfl, queryHead, -, -⟩ := inBounds_three inside
  rw [grouped] at queryHead
  obtain ⟨head, head', found, found', perm⟩ :=
    same (h / spec.groupSize) (Nat.div_lt_of_lt_mul (by rwa [Nat.mul_comm]))
  simp only [found, found', Option.map_some, Option.getD_some]
  rw [Attention.answer_perm exp ((keptKeys_perm cast scaling _ _ perm).append_right _)]

/-- Two compact caches that hold the same tokens on each head, in whatever order and whatever
    positions are noted for them, give the same logits. -/
theorem contextLogits_reordered {b : HFBackend α τ Λ} {llama : Llama τ H Λ}
    {cache cache' : CompactCache α}
    (runs : b.decode = llama.decode b.model.spec.groupSize b.fromFloat)
    (modelShaped : llama.Shaped b.model.spec)
    (hides : b.Hides llama.exp)
    (grouped : b.model.spec.nQHeads = b.model.spec.nKvHeads * b.model.spec.groupSize)
    (shaped : CompactShaped b.model.spec cache) (shaped' : CompactShaped b.model.spec cache')
    (logical : cache.logicalLength = cache'.logicalLength)
    (same : List.Forall₂ (SameKept b.model.spec) (cache.layers.take b.model.spec.nLayers)
      (cache'.layers.take b.model.spec.nLayers))
    (inputIds : List Int) : b.contextLogits (.compact cache) inputIds = b.contextLogits
      (.compact cache') inputIds := by
  rw [contextLogits_ragged hides grouped shaped runs modelShaped,
    contextLogits_ragged hides grouped shaped' runs modelShaped,
    Llama.decodeRagged, Llama.decodeRagged, logical]
  congr 1
  apply llama.pass_congr modelShaped
  rw [List.forall₂_map_left_iff, List.forall₂_map_right_iff]
  exact same.imp
    fun layer layer' kept new projected => raggedAttention_perm _ _ _ _ grouped kept projected

section Tiny

/-- Two kv heads of one channel, each for one query head. -/
def twoHeads : ModelSpec :=
  { name := "two", nLayers := 1, nQHeads := 2, nKvHeads := 2, headDim := 1, hiddenSize := 1 }

/-- Its queries are 0, so a key weighs 1, and a hidden one nothing. -/
def evenLlama : Llama ℚ ℚ ℚ where
  exp x := if x = 0 then 1 else 0
  scaling := 1
  embedTokens t := t
  project _ _ hidden :=
    { query := NDArray.full [2, hidden.length, 1] 0
      key := NDArray.full [2, hidden.length, 1] 1
      value := NDArray.ofFn [2, hidden.length, 1] fun ix => hidden.getD (ix.getD 1 0) 0 }
  finish _ hidden attended :=
    (List.range hidden.length).map fun i => attended.getD [0, i, 0] 0 + attended.getD [1, i, 0] 0
  lmHead := id

def evenBackend : HFBackend ℚ ℚ ℚ where
  model := { spec := twoHeads, kvForward := fun _ _ _ => [] }
  fromFloat := id
  fromBits word := word.toNat
  toFloat := id
  value bits := bits.toNat
  negInf := -1000
  decode := evenLlama.decode 1 id
  step _ _ _ := ([], [])
  logProb logit t := logit - t
  rephaseCosSin _ := ([1], [0])

/-- A head whose keys and values are these numbers. -/
def columnHead (values : List ℚ) : CompactHead ℚ :=
  { key := ⟨[values.length, 1], values, by simp⟩, value := ⟨[values.length, 1], values, by simp⟩
    biases := List.replicate values.length 0, positions := [] }

/-- One head keeps these numbers, the other one 7. -/
def raggedCache (values : List ℚ) : CompactCache ℚ where
  spec := twoHeads
  layers := [.ofHeads [columnHead values, columnHead [7]]]
  logicalLength := 5

theorem keptRows_columnHead (values : List ℚ) :
    keptRows (columnHead values) = values.map
      fun v => (fun c => if c = 0 then v else 0, fun c => if c = 0 then v else 0, 0) := by
  have cell : ∀ j c, (columnHead values).key.getD [j, c] 0 = if c = 0 then values.getD j 0
    else 0 := by
    intro j c
    rcases c with _ | c
    · by_cases inside :
        j < values.length <;> simp [columnHead, NDArray.getD, NDArray.get?, InBounds, ravel, inside]
    · simp [columnHead, NDArray.getD, NDArray.get?, InBounds]
  have bias : ∀ j, (columnHead values).biases.getD j 0 = 0 := by
    intro j
    by_cases inside : j < values.length <;> simp [columnHead, inside]
  apply List.ext_getElem
  · simp [keptRows, columnHead]
  · intro j _ inside
    rw [List.length_map] at inside
    have value : (columnHead values).value = (columnHead values).key := rfl
    simp only [keptRows, List.getElem_map, List.getElem_range, value, cell, bias,
      List.getD_eq_getElem _ _ inside]

theorem evenLlama_shaped : evenLlama.Shaped twoHeads where
  project _ _ _ := ⟨rfl, rfl, rfl⟩
  finish _ _ _ := by simp [evenLlama]

theorem raggedCache_shaped (values : List ℚ) : CompactShaped twoHeads (raggedCache values) := by
  have column : ∀ values, HeadShaped twoHeads.headDim (columnHead values).biases.length
    (columnHead values) := by
    intro values
    constructor <;> simp [columnHead, twoHeads]
  intro li inside
  obtain rfl : li = 0 := Nat.lt_one_iff.1 inside
  refine ⟨_, rfl, fun h inside => ?_⟩
  rw [CompactLayer.head?_ofHeads]
  obtain rfl | rfl : h = 0 ∨ h = 1 := by
    have : h < 2 := inside
    omega
  · exact ⟨_, rfl, column values⟩
  · exact ⟨_, rfl, column [7]⟩

theorem evenBackend_hides : evenBackend.Hides evenLlama.exp := ⟨rfl, by decide +kernel⟩

theorem contextLogits_ragged_even :
    evenBackend.contextLogits (.compact (raggedCache [1, 2, 3])) [9] =
      some (evenLlama.decodeRagged twoHeads id (-1000) (raggedCache [1, 2, 3]) [9]) :=
  contextLogits_ragged evenBackend_hides (by decide) (raggedCache_shaped _) rfl evenLlama_shaped [9]

theorem contextLogits_reordered_even :
    evenBackend.contextLogits (.compact (raggedCache [1, 2, 3])) [9] = evenBackend.contextLogits
      (.compact (raggedCache [3, 1, 2])) [9] := by
  have perm : List.Perm [(1 : ℚ), 2, 3] [3, 1, 2] := by decide
  have same : SameKept twoHeads (.ofHeads [columnHead [1, 2, 3], columnHead [7]])
    (.ofHeads [columnHead [3, 1, 2], columnHead [7]]) := by
    intro h inside
    simp only [CompactLayer.head?_ofHeads]
    obtain rfl | rfl : h = 0 ∨ h = 1 := by
      have : h < 2 := inside
      omega
    · exact ⟨_, _, rfl, rfl, by simpa only [keptRows_columnHead] using perm.map _⟩
    · exact ⟨_, _, rfl, rfl, .refl _⟩
  have runs :
    evenBackend.decode = evenLlama.decode evenBackend.model.spec.groupSize evenBackend.fromFloat :=
    rfl
  exact contextLogits_reordered runs evenLlama_shaped evenBackend_hides (by decide)
    (raggedCache_shaped [1, 2, 3])
    (raggedCache_shaped [3, 1, 2]) rfl (.cons same .nil) [9]

end Tiny

end Dexa.Engine
