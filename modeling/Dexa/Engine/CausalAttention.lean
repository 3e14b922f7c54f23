import Dexa.Engine.DecodingSplits
import Dexa.Engine.RaggedDecoding

/-! # A transformer over a cache is a causal model

Prefill and the incremental passes run under `sdpa`; decoding runs under the eager attention with
its mask and its biases.  In both a token sees the tokens up to itself, so what a pass computes does
not depend on how the text was cut into passes.  This is what `CausalDecoding` assumes of a backend.
-/

namespace Dexa.Engine

open Dexa.Core Dexa.Lib Dexa.Lib.NDArray Dexa.Segments

variable {α τ H Λ : Type} [Inhabited α] [Field α] [Inhabited τ] [Field τ]

/-- What `sdpa` is asked for: each query over the keys up to its own position, the last query at the
    last key. -/
def causalAttention (exp : τ → τ) (scaling : τ) (groups : Nat) (query key value : NDArray τ) :
    NDArray τ :=
  NDArray.ofFn query.shape fun
    | [h, i, c] =>
      let seen := key.shape.getD 1 0 - query.shape.getD 1 0 + i + 1
      Attention.answer exp ((List.range seen).map fun j =>
        { score := dotScore scaling (query.shape.getD 2 0) (fun c => query.getD [h, i, c] 0) (fun c => key.getD [h / groups, j, c] 0)
          value := fun c => value.getD [h / groups, j, c] 0 }) c
    | _ => 0

namespace Llama

variable (llama : Llama τ H Λ)

/-- The layers of a pass over a cache: the last hidden states, and the cache with the new tokens. -/
def kvPass (sdpa : NDArray τ → NDArray τ → NDArray τ → NDArray τ) (positionIds : List Int) :
    List (LayerKV τ) → Nat → List H → List H × List (LayerKV τ)
  | [], _, hidden => (hidden, [])
  | kv :: cache, li, hidden =>
    let new := llama.project li positionIds hidden
    let updated : LayerKV τ := ⟨cacheUpdate kv.key new.key, cacheUpdate kv.value new.value⟩
    let (hidden, rest) :=
      kvPass sdpa positionIds cache (li + 1)
        (llama.finish li hidden (sdpa new.query updated.key updated.value))
    (hidden, updated :: rest)

/-- A new `DynamicCache`. -/
def emptyCache (spec : ModelSpec) : List (LayerKV τ) :=
  let empty := NDArray.full [spec.nKvHeads, 0, spec.headDim] 0
  List.replicate spec.nLayers ⟨empty, empty⟩

/-- The pass over a whole text. -/
def textPass (sdpa : NDArray τ → NDArray τ → NDArray τ → NDArray τ) (spec : ModelSpec)
    (text : List Int) : List H × List (LayerKV τ) :=
  llama.kvPass sdpa (arange 0 text.length) (emptyCache spec) 0 (text.map llama.embedTokens)

/-- The logits after a text. -/
def predict [Inhabited Λ] (sdpa : NDArray τ → NDArray τ → NDArray τ → NDArray τ) (spec : ModelSpec)
    (text : List Int) : Λ :=
  ((llama.textPass sdpa spec text).1.map llama.lmHead).getLastD default

end Llama

/-- `b` runs the transformer: decoding under the eager attention, the other passes under `sdpa`. -/
structure HFBackend.Runs (b : HFBackend α τ Λ) (llama : Llama τ H Λ)
    (sdpa : NDArray τ → NDArray τ → NDArray τ → NDArray τ) : Prop where
  kvForward : ∀ past positionIds inputIds, b.model.kvForward past positionIds inputIds =
    (llama.kvPass sdpa positionIds (past.getD (Llama.emptyCache b.model.spec)) 0
      (inputIds.map llama.embedTokens)).2
  step : ∀ cache positionIds inputIds, b.step cache positionIds inputIds =
    let run := llama.kvPass sdpa positionIds cache 0 (inputIds.map llama.embedTokens)
    (run.1.map llama.lmHead, run.2)
  decode : b.decode = llama.decode b.model.spec.groupSize b.fromFloat

/-- `sdpa` attends causally. -/
def Sdpa (spec : ModelSpec) (llama : Llama τ H Λ)
    (sdpa : NDArray τ → NDArray τ → NDArray τ → NDArray τ) : Prop :=
  ∀ (past qLen : Nat) (query key value : NDArray τ),
    query.shape = [spec.nQHeads, qLen, spec.headDim] →
    key.shape = [spec.nKvHeads, past + qLen, spec.headDim] →
      value.shape = [spec.nKvHeads, past + qLen, spec.headDim] →
    sdpa query key value = causalAttention llama.exp llama.scaling spec.groupSize query key value

/-- Outside the attention a layer treats each token by itself: norms, projections, the rotation to
    its position, the MLP. -/
structure Llama.Pointwise (llama : Llama τ H Λ) (spec : ModelSpec) :
    Prop extends llama.Shaped spec where
  query : ∀ li positions positions' hidden hidden' h i i' c, positions[i]? = positions'[i']? →
    hidden[i]? = hidden'[i']? →
    (llama.project li positions hidden).query.get? [h, i, c] =
      (llama.project li positions' hidden').query.get? [h, i', c]
  key : ∀ li positions positions' hidden hidden' h i i' c, positions[i]? = positions'[i']? →
    hidden[i]? = hidden'[i']? →
    (llama.project li positions hidden).key.get? [h, i, c] =
      (llama.project li positions' hidden').key.get? [h, i', c]
  value : ∀ li positions positions' hidden hidden' h i i' c, positions[i]? = positions'[i']? →
    hidden[i]? = hidden'[i']? →
    (llama.project li positions hidden).value.get? [h, i, c] =
      (llama.project li positions' hidden').value.get? [h, i', c]
  output : ∀ li hidden hidden' attended attended' i i', hidden[i]? = hidden'[i']? →
    (∀ h c, attended.get? [h, i, c] = attended'.get? [h, i', c]) →
    (llama.finish li hidden attended)[i]? = (llama.finish li hidden' attended')[i']?

/-- What is assumed of the numbers: the bias of the mask outweighs the scores of the model, so that
    a masked key has no weight. -/
structure HFBackend.Masks (b : HFBackend α τ Λ) (llama : Llama τ H Λ) : Prop where
  zero : b.fromFloat 0 = 0
  vanish : ∀ li positionIds hidden h h' i j,
    llama.exp
      (dotScore llama.scaling b.model.spec.headDim
      (fun c => (llama.project li positionIds hidden).query.getD [h, i, c] 0)
      (fun c => (llama.project li positionIds hidden).key.getD [h', j, c] 0) +
        b.fromFloat b.negInf) = 0

section Columns

omit [Field τ] in
theorem get?_cacheUpdate {cached new : NDArray τ} {m t n d : Nat}
    (cachedShape : cached.shape = [m, t, d])
    (newShape : new.shape = [m, n, d]) (h j c : Nat) :
    (cacheUpdate cached new).get? [h, j, c] = if j < t then cached.get? [h, j, c]
      else new.get? [h, j - t, c] := by
  by_cases inside : h < m ∧ j < t + n ∧ c < d
  · have cell : InBounds [m, t + n, d] [h, j, c] := ⟨inside.1, inside.2.1, inside.2.2, trivial⟩
    simp only [cacheUpdate, cachedShape, newShape, get?_ofFn_inBounds _ cell]
    split
    · exact some_getD _ (cachedShape ▸ ⟨inside.1, by assumption, inside.2.2, trivial⟩)
    · exact some_getD _ (newShape ▸ ⟨inside.1, by omega, inside.2.2, trivial⟩)
  · have outside : ¬ InBounds (cacheUpdate cached new).shape [h, j, c] := by
      rw [shape_cacheUpdate cachedShape newShape]
      exact fun cell => inside ⟨cell.1, cell.2.1, cell.2.2.1⟩
    rw [get?_eq_none outside]
    split
    · exact (get?_eq_none (cachedShape ▸ fun cell => inside ⟨cell.1, by omega, cell.2.2.1⟩)).symm
    · refine (get?_eq_none (newShape ▸ fun cell => inside ⟨cell.1, ?_, cell.2.2.1⟩)).symm
      have := cell.2.1
      omega

variable {a b c : NDArray τ} {m t n k d : Nat}

omit [Field τ] in
/-- What is put together of two arrays, cell by cell. -/
theorem eq_cacheUpdate (aShape : a.shape = [m, t, d]) (bShape : b.shape = [m, n, d])
    (cShape : c.shape = [m, t + n, d])
    (cells : ∀ h j x, h < m → j < t + n → x < d → c.get? [h, j, x] = if j < t then a.get? [h, j, x]
      else b.get? [h, j - t, x]) :
    c = cacheUpdate a b := by
  have shape := shape_cacheUpdate aShape bShape
  apply ext_get? (cShape.trans shape.symm)
  intro ix inside
  rw [cShape] at inside
  obtain ⟨h, j, x, rfl, head, column, channel⟩ := inBounds_three inside
  rw [cells h j x head column channel, get?_cacheUpdate aShape bShape]

omit [Field τ] in
theorem cacheUpdate_assoc (aShape : a.shape = [m, t, d]) (bShape : b.shape = [m, n, d])
    (cShape : c.shape = [m, k, d]) :
    cacheUpdate a (cacheUpdate b c) = cacheUpdate (cacheUpdate a b) c := by
  have left := shape_cacheUpdate aShape bShape
  have right := shape_cacheUpdate bShape cShape
  have shape : (cacheUpdate a (cacheUpdate b c)).shape = [m, t + n + k, d] := by
    rw [shape_cacheUpdate aShape right, Nat.add_assoc]
  apply eq_cacheUpdate left cShape shape
  intro h j x _ _ _
  rw [get?_cacheUpdate aShape right, get?_cacheUpdate aShape bShape, get?_cacheUpdate bShape cShape]
  by_cases first : j < t
  · simp [first, Nat.lt_add_right]
  · by_cases second : j < t + n
    · simp [first, second, show j - t < n by omega]
    · simp [first, second, show ¬ j - t < n by omega, Nat.sub_sub]

omit [Inhabited τ] in
theorem getD_of_get?_eq {a b : NDArray τ} {ix ix' : List Nat} (same : a.get? ix = b.get? ix') :
    a.getD ix 0 = b.getD ix' 0 := by
  rw [getD, getD, same]

end Columns

/-! ## Passes one after the other -/

section Passes

variable {llama : Llama τ H Λ} {spec : ModelSpec}
  {sdpa : NDArray τ → NDArray τ → NDArray τ → NDArray τ}

/-- A cache of `t` tokens. -/
def CacheShape (spec : ModelSpec) (t : Nat) (kv : LayerKV τ) : Prop :=
  kv.key.shape = [spec.nKvHeads, t, spec.headDim] ∧
    kv.value.shape = [spec.nKvHeads, t, spec.headDim]

/-- The queries of some tokens, and then those of the tokens after them. -/
theorem causalAttention_append (exp : τ → τ) (scaling : τ)
    {query query' key value new new' : NDArray τ} {t n k : Nat}
    (queryShape : query.shape = [spec.nQHeads, n, spec.headDim])
    (queryShape' : query'.shape = [spec.nQHeads, k, spec.headDim])
    (keyShape : key.shape = [spec.nKvHeads, t + n, spec.headDim])
    (newShape : new.shape = [spec.nKvHeads, k, spec.headDim])
    (valueShape : value.shape = [spec.nKvHeads, t + n, spec.headDim])
    (newShape' : new'.shape = [spec.nKvHeads, k, spec.headDim]) :
    causalAttention exp scaling spec.groupSize (cacheUpdate query query') (cacheUpdate key new)
      (cacheUpdate value new') =
      cacheUpdate (causalAttention exp scaling spec.groupSize query key value)
        (causalAttention exp scaling spec.groupSize query' (cacheUpdate key new)
          (cacheUpdate value new')) := by
  have queries := shape_cacheUpdate queryShape queryShape'
  have keys := shape_cacheUpdate keyShape newShape
  have first : (causalAttention exp scaling spec.groupSize query key value).shape =
    [spec.nQHeads, n, spec.headDim] := queryShape
  have second :
    (causalAttention exp scaling spec.groupSize query' (cacheUpdate key new)
    (cacheUpdate value new')).shape =
    [spec.nQHeads, k, spec.headDim] := queryShape'
  refine eq_cacheUpdate first second queries fun h i c head row channel => ?_
  have cell : InBounds [spec.nQHeads, n + k, spec.headDim] [h, i, c] :=
    ⟨head, row, channel, trivial⟩
  have read := get?_cacheUpdate queryShape queryShape'
  by_cases early : i < n
  · have here : InBounds [spec.nQHeads, n, spec.headDim] [h, i, c] :=
      ⟨head, early, channel, trivial⟩
    have reads : ∀ x, (cacheUpdate query query').getD [h, i, x] 0 = query.getD [h, i, x] 0 :=
      fun x =>
      getD_of_get?_eq (by rw [read, if_pos early])
    simp only [causalAttention, queries, queryShape, keys, keyShape, get?_ofFn_inBounds _ cell,
      get?_ofFn_inBounds _ here, if_pos early,
      List.getD_cons_succ, List.getD_cons_zero, reads, Option.some.injEq]
    -- an early query sees the cached keys, and those up to its own
    have seen : t + n + k - (n + k) = t + n - n := by omega
    rw [seen]
    congr 1
    refine List.map_congr_left fun j member => ?_
    have column : j < t + n := by
      have := List.mem_range.1 member
      omega
    have keyRead : ∀ x, (cacheUpdate key new).getD [h / spec.groupSize, j, x] 0 =
      key.getD [h / spec.groupSize, j, x] 0 := fun x =>
      getD_of_get?_eq (by rw [get?_cacheUpdate keyShape newShape, if_pos column])
    have valueRead : ∀ x, (cacheUpdate value new').getD [h / spec.groupSize, j, x] 0 =
      value.getD [h / spec.groupSize, j, x] 0 := fun x =>
      getD_of_get?_eq (by rw [get?_cacheUpdate valueShape newShape', if_pos column])
    simp only [keyRead, valueRead]
  · have here : InBounds [spec.nQHeads, k, spec.headDim] [h, i - n, c] :=
      ⟨head, by omega, channel, trivial⟩
    have reads : ∀ x, (cacheUpdate query query').getD [h, i, x] 0 = query'.getD [h, i - n, x] 0 :=
      fun x =>
      getD_of_get?_eq (by rw [read, if_neg early])
    -- a late query sees as many keys whether the early ones are cached or new
    have seen : t + n + k - (n + k) + i + 1 = t + n + k - k + (i - n) + 1 := by omega
    simp only [causalAttention, queries, queryShape', keys, get?_ofFn_inBounds _ cell,
      get?_ofFn_inBounds _ here, if_neg early,
      List.getD_cons_succ, List.getD_cons_zero, reads, seen]

section

variable (attends : Sdpa spec llama sdpa)
include attends

omit [Inhabited τ] in
theorem Sdpa.shape {query key value : NDArray τ} {t n : Nat}
    (queryShape : query.shape = [spec.nQHeads, n, spec.headDim])
    (keyShape : key.shape = [spec.nKvHeads, t + n, spec.headDim])
    (valueShape : value.shape = [spec.nKvHeads, t + n, spec.headDim]) :
    (sdpa query key value).shape = [spec.nQHeads, n, spec.headDim] := by
  rw [attends t n _ _ _ queryShape keyShape valueShape]
  exact queryShape

/-- The attention over two texts. -/
theorem Sdpa.append {query query' key value new new' : NDArray τ} {t n k : Nat}
    (queryShape : query.shape = [spec.nQHeads, n, spec.headDim])
    (queryShape' : query'.shape = [spec.nQHeads, k, spec.headDim])
    (keyShape : key.shape = [spec.nKvHeads, t + n, spec.headDim])
    (newShape : new.shape = [spec.nKvHeads, k, spec.headDim])
    (valueShape : value.shape = [spec.nKvHeads, t + n, spec.headDim])
    (newShape' : new'.shape = [spec.nKvHeads, k, spec.headDim]) :
    sdpa (cacheUpdate query query') (cacheUpdate key new) (cacheUpdate value new') =
      cacheUpdate (sdpa query key value)
        (sdpa query' (cacheUpdate key new) (cacheUpdate value new')) := by
  have keys := shape_cacheUpdate keyShape newShape
  have values := shape_cacheUpdate valueShape newShape'
  have whole :=
    attends t (n + k) _ _ _ (shape_cacheUpdate queryShape queryShape') (by rw [keys, Nat.add_assoc])
      (by rw [values, Nat.add_assoc])
  rw [whole, attends t n _ _ _ queryShape keyShape valueShape,
    attends (t + n) k _ _ _ queryShape' keys values]
  exact causalAttention_append _ _ queryShape queryShape' keyShape newShape valueShape newShape'

end

variable (pointwise : llama.Pointwise spec) (attends : Sdpa spec llama sdpa)
include pointwise

omit [Field τ] in
/-- What a layer projects of two texts. -/
theorem Llama.project_append {positions : List Int} {hidden : List H}
    (positioned : positions.length = hidden.length)
    (positions' : List Int) (hidden' : List H) (li : Nat) :
    (llama.project li (positions ++ positions') (hidden ++ hidden')).query =
        cacheUpdate (llama.project li positions hidden).query
          (llama.project li positions' hidden').query ∧
      (llama.project li (positions ++ positions') (hidden ++ hidden')).key =
        cacheUpdate (llama.project li positions hidden).key
          (llama.project li positions' hidden').key ∧
      (llama.project li (positions ++ positions') (hidden ++ hidden')).value =
        cacheUpdate (llama.project li positions hidden).value
          (llama.project li positions' hidden').value := by
  have first := pointwise.project li positions hidden
  have second := pointwise.project li positions' hidden'
  have both := pointwise.project li (positions ++ positions') (hidden ++ hidden')
  rw [List.length_append] at both
  have left : ∀ j < hidden.length, (positions ++ positions')[j]? = positions[j]? ∧
    (hidden ++ hidden')[j]? = hidden[j]? := by
    intro j early
    exact ⟨List.getElem?_append_left (positioned ▸ early), List.getElem?_append_left early⟩
  have right : ∀ j, ¬ j < hidden.length →
      (positions ++ positions')[j]? = positions'[j - hidden.length]? ∧
        (hidden ++ hidden')[j]? = hidden'[j - hidden.length]? := by
    intro j late
    rw [List.getElem?_append_right (positioned ▸ not_lt.1 late),
      List.getElem?_append_right (not_lt.1 late), positioned]
    exact ⟨rfl, rfl⟩
  refine ⟨eq_cacheUpdate first.query second.query both.query fun h j x _ _ _ => ?_,
    eq_cacheUpdate first.key second.key both.key fun h j x _ _ _ => ?_,
    eq_cacheUpdate first.value second.value both.value fun h j x _ _ _ => ?_⟩
  · split
    · exact pointwise.query _ _ _ _ _ _ _ _ _ (left j ‹_›).1 (left j ‹_›).2
    · exact pointwise.query _ _ _ _ _ _ _ _ _ (right j ‹_›).1 (right j ‹_›).2
  · split
    · exact pointwise.key _ _ _ _ _ _ _ _ _ (left j ‹_›).1 (left j ‹_›).2
    · exact pointwise.key _ _ _ _ _ _ _ _ _ (right j ‹_›).1 (right j ‹_›).2
  · split
    · exact pointwise.value _ _ _ _ _ _ _ _ _ (left j ‹_›).1 (left j ‹_›).2
    · exact pointwise.value _ _ _ _ _ _ _ _ _ (right j ‹_›).1 (right j ‹_›).2

omit [Field τ] in
theorem Llama.finish_append {hidden hidden' : List H} {attended attended' : NDArray τ}
    (shape : attended.shape = [spec.nQHeads, hidden.length, spec.headDim])
    (shape' : attended'.shape = [spec.nQHeads, hidden'.length, spec.headDim]) (li : Nat) :
    llama.finish li (hidden ++ hidden') (cacheUpdate attended attended') =
      llama.finish li hidden attended ++ llama.finish li hidden' attended' := by
  apply List.ext_getElem?
  intro j
  rw [List.getElem?_append, pointwise.finish]
  split
  · rename_i early
    refine pointwise.output _ _ _ _ _ _ _ (List.getElem?_append_left early) fun h c => ?_
    rw [get?_cacheUpdate shape shape', if_pos early]
  · rename_i late
    refine pointwise.output _ _ _ _ _ _ _ (List.getElem?_append_right (not_lt.1 late)) fun h c => ?_
    rw [get?_cacheUpdate shape shape', if_neg late]

variable (sdpa) in
omit [Field τ] in
theorem Llama.length_kvPass (positionIds : List Int) (cache : List (LayerKV τ)) (li : Nat)
    (hidden : List H) :
    (llama.kvPass sdpa positionIds cache li hidden).1.length = hidden.length ∧
      (llama.kvPass sdpa positionIds cache li hidden).2.length = cache.length := by
  induction cache generalizing li hidden with
  | nil => exact ⟨rfl, rfl⟩
  | cons kv cache ih =>
    have rest :=
      ih (li + 1) (llama.finish li hidden (sdpa (llama.project li positionIds hidden).query
      (cacheUpdate kv.key (llama.project li positionIds hidden).key)
      (cacheUpdate kv.value (llama.project li positionIds hidden).value)))
    exact ⟨rest.1.trans (pointwise.finish _ _ _), congrArg (· + 1) rest.2⟩

include attends

/-- Two passes, one after the other, are one pass over both texts. -/
theorem Llama.kvPass_append {t : Nat} {cache : List (LayerKV τ)}
    (shaped : ∀ kv ∈ cache, CacheShape spec t kv)
    {positions positions' : List Int} {hidden : List H}
    (positioned : positions.length = hidden.length) (hidden' : List H) (li : Nat) :
    llama.kvPass sdpa (positions ++ positions') cache li (hidden ++ hidden') =
      ((llama.kvPass sdpa positions cache li hidden).1 ++
          (llama.kvPass sdpa positions'
            (llama.kvPass sdpa positions cache li hidden).2 li hidden').1,
        (llama.kvPass sdpa positions'
          (llama.kvPass sdpa positions cache li hidden).2 li hidden').2) := by
  induction cache generalizing li hidden hidden' with
  | nil => rfl
  | cons kv cache ih =>
    obtain ⟨keyShape, valueShape⟩ := shaped kv List.mem_cons_self
    have first := pointwise.project li positions hidden
    have second := pointwise.project li positions' hidden'
    obtain ⟨query, key, value⟩ := Llama.project_append pointwise positioned positions' hidden' li
    have oldKey := shape_cacheUpdate keyShape first.key
    have oldValue := shape_cacheUpdate valueShape first.value
    have attended := attends.append first.query second.query oldKey second.key oldValue second.value
    have finished := Llama.finish_append pointwise (attends.shape first.query oldKey oldValue)
      (attends.shape second.query (shape_cacheUpdate oldKey second.key)
        (shape_cacheUpdate oldValue second.value)) li
    simp only [Llama.kvPass, query, key, value, cacheUpdate_assoc keyShape first.key second.key,
      cacheUpdate_assoc valueShape first.value second.value, attended, finished]
    rw [ih (fun kv member => shaped kv (List.mem_cons_of_mem _ member))
      (positioned.trans (pointwise.finish _ _ _).symm)]

variable (sdpa) in
omit [Field τ] attends in
/-- A pass over a cache leaves the cached columns, and new ones after them. -/
theorem Llama.kvPass_cache {t : Nat} {cache : List (LayerKV τ)}
    (shaped : ∀ kv ∈ cache, CacheShape spec t kv) (positionIds : List Int)
    (li : Nat) (hidden : List H) :
    List.Forall₂ (fun kv kv' => CacheShape spec (t + hidden.length) kv' ∧ ∀ h j c, j < t →
      kv'.key.get? [h, j, c] = kv.key.get? [h, j, c] ∧
        kv'.value.get? [h, j, c] = kv.value.get? [h, j, c])
      cache (llama.kvPass sdpa positionIds cache li hidden).2 := by
  induction cache generalizing li hidden with
  | nil => exact .nil
  | cons kv cache ih =>
    obtain ⟨keyShape, valueShape⟩ := shaped kv List.mem_cons_self
    have new := pointwise.project li positionIds hidden
    have rest :=
      ih (fun kv member => shaped kv (List.mem_cons_of_mem _ member)) (li + 1)
        (llama.finish li hidden
      (sdpa (llama.project li positionIds hidden).query
        (cacheUpdate kv.key (llama.project li positionIds hidden).key)
        (cacheUpdate kv.value (llama.project li positionIds hidden).value)))
    rw [pointwise.finish] at rest
    refine .cons ⟨⟨shape_cacheUpdate keyShape new.key, shape_cacheUpdate valueShape new.value⟩,
      fun h j c column => ?_⟩ rest
    rw [get?_cacheUpdate keyShape new.key, get?_cacheUpdate valueShape new.value, if_pos column,
      if_pos column]
    exact ⟨rfl, rfl⟩

end Passes

/-! ## The passes of a backend -/

section Prefills

variable {b : HFBackend α τ Λ} {llama : Llama τ H Λ}
  {sdpa : NDArray τ → NDArray τ → NDArray τ → NDArray τ}

theorem arange_append (lo mid hi : Nat) (first : lo ≤ mid) (second : mid ≤ hi) :
    arange lo hi = arange lo mid ++ arange mid hi := by
  have parts : hi - lo = (mid - lo) + (hi - mid) := by omega
  have next : lo + (mid - lo) = mid := by omega
  rw [arange, arange, arange, ← List.map_append, parts, ← List.range'_append_1, next]

omit [Inhabited τ] in
theorem emptyCache_shape (spec : ModelSpec) : ∀ kv ∈ Llama.emptyCache (τ := τ) spec,
    CacheShape spec 0 kv := by
  intro kv member
  obtain rfl := List.eq_of_mem_replicate member
  exact ⟨rfl, rfl⟩

variable (runs : b.Runs llama sdpa) (pointwise : llama.Pointwise b.model.spec)
  (attends : Sdpa b.model.spec llama sdpa)

section

include runs pointwise

omit [Inhabited α] [Field α] in
theorem prefill_layers (text : List Int) :
    (b.model.prefill text).layers = (llama.textPass sdpa b.model.spec text).2 := by
  have length :=
    (Llama.length_kvPass sdpa pointwise (arange 0 text.length) (Llama.emptyCache b.model.spec) 0
    (text.map llama.embedTokens)).2
  rw [Llama.emptyCache, List.length_replicate] at length
  simp only [Model.prefill, Model.cacheToKVCache, runs.kvForward, Option.getD_none, Nat.zero_add]
  exact List.take_of_length_le length.le

end

include pointwise

variable (sdpa) in
omit [Inhabited α] [Field α] in
theorem textPass_shape (text : List Int) : ∀ kv ∈ (llama.textPass sdpa b.model.spec text).2,
    CacheShape b.model.spec text.length kv := by
  intro kv member
  have grown := Llama.kvPass_cache sdpa pointwise (emptyCache_shape _) (arange 0 text.length) 0
    (text.map llama.embedTokens)
  obtain ⟨li, inside, rfl⟩ := List.getElem_of_mem member
  have same := grown.length_eq
  have shape := (List.forall₂_iff_get.1 grown).2 li (same ▸ inside) inside
  rw [List.length_map, Nat.zero_add] at shape
  exact shape.1

include attends

omit [Inhabited α] [Field α] in
/-- The pass over a text is that over its beginning, and then that over the rest. -/
theorem textPass_append (text more : List Int) :
    llama.textPass sdpa b.model.spec (text ++ more) =
      ((llama.textPass sdpa b.model.spec text).1 ++
        (llama.kvPass sdpa (arange text.length (text.length + more.length))
          (llama.textPass sdpa b.model.spec text).2 0 (more.map llama.embedTokens)).1,
        (llama.kvPass sdpa (arange text.length (text.length + more.length))
          (llama.textPass sdpa b.model.spec text).2 0
          (more.map llama.embedTokens)).2) := by
  have positions :=
    arange_append 0 text.length (text.length + more.length) (Nat.zero_le _) (Nat.le_add_right _ _)
  rw [Llama.textPass, List.length_append, positions, List.map_append]
  exact Llama.kvPass_append pointwise attends (emptyCache_shape _) (by simp) _ 0

omit [Inhabited α] [Field α] in
/-- What is cached of a text is the beginning of what is cached of a longer one. -/
theorem textPass_entry (text more : List Int) {li : Nat} {l l' : LayerKV τ}
    (there : (llama.textPass sdpa b.model.spec text).2[li]? = some l)
    (there' : (llama.textPass sdpa b.model.spec (text ++ more)).2[li]? = some l') {i : Nat}
    (early : i < text.length) (h c : Nat) :
    l'.key.get? [h, i, c] = l.key.get? [h, i, c] ∧
      l'.value.get? [h, i, c] = l.value.get? [h, i, c] := by
  rw [textPass_append pointwise attends] at there'
  have grown := Llama.kvPass_cache sdpa pointwise (textPass_shape sdpa (b := b) pointwise text)
    (arange text.length (text.length + more.length)) 0 (more.map llama.embedTokens)
  obtain ⟨l'', found, -, kept⟩ := forall₂_getElem? grown there
  obtain rfl := Option.some.inj (there'.symm.trans found)
  exact kept h i c early

include runs

omit [Inhabited α] [Field α] in
theorem llama_causal : Causal b.model where
  layers_length text := by
    rw [prefill_layers runs pointwise]
    exact (Llama.length_kvPass sdpa pointwise _ _ _ _).2.trans List.length_replicate
  layer_shape text l member := by
    rw [prefill_layers runs pointwise] at member
    exact textPass_shape sdpa pointwise text l member
  entry text text' i inside inside' same li l l' there there' h c := by
    have begins : ∀ text :
      List Int, (llama.textPass sdpa b.model.spec (text.take (i + 1))).2.length =
      b.model.spec.nLayers := fun text =>
      (Llama.length_kvPass sdpa pointwise _ _ _ _).2.trans List.length_replicate
    rw [prefill_layers runs pointwise] at there there'
    have layer : li < b.model.spec.nLayers := by
      have bound := (List.getElem?_eq_some_iff.1 there).1
      rwa [Llama.textPass, (Llama.length_kvPass sdpa pointwise _ _ _ _).2, Llama.emptyCache,
        List.length_replicate] at bound
    obtain ⟨first, found⟩ : ∃ first, (llama.textPass sdpa b.model.spec (text.take (i + 1))).2[li]? =
      some first :=
      ⟨_, List.getElem?_eq_getElem ((begins text).symm ▸ layer)⟩
    have early : ∀ text : List Int, i < text.length → i < (text.take (i + 1)).length :=
      fun text inside => by
      rw [List.length_take]
      omega
    rw [← List.take_append_drop (i + 1) text] at there
    rw [← List.take_append_drop (i + 1) text', ← same] at there'
    obtain ⟨key, value⟩ := textPass_entry pointwise attends _ _ found there (early text inside) h c
    obtain ⟨key', value'⟩ :=
      textPass_entry pointwise attends _ _ found there' (early text inside) h c
    exact ⟨key.trans key'.symm, value.trans value'.symm⟩
  forward text more _ := by
    have whole := congrArg Prod.snd (textPass_append pointwise attends (b := b) text more)
    rw [prefill_layers runs pointwise, runs.kvForward, runs.kvForward, Option.getD_some,
      Option.getD_none, ← whole, Llama.textPass,
      List.length_append]

/-! ## Decoding -/

section

variable {t : Nat} (masks : b.Masks llama)
  (grouped : b.model.spec.nQHeads = b.model.spec.nKvHeads * b.model.spec.groupSize)
include masks grouped

omit [Inhabited α] attends runs in
/-- Without biases the eager attention is the causal one. -/
theorem cachedAttention_causal {kv : LayerKV τ} (shape : CacheShape b.model.spec t kv) (li : Nat)
    (positionIds : List Int) (hidden : List H) :
    llama.cachedAttention b.model.spec.groupSize
      ((b.attentionMask t hidden.length).map b.fromFloat) kv
        (NDArray.full [b.model.spec.nKvHeads * b.model.spec.groupSize, t] (b.fromFloat 0))
        (llama.project li positionIds hidden) =
      causalAttention llama.exp llama.scaling b.model.spec.groupSize
        (llama.project li positionIds hidden).query
        (cacheUpdate kv.key (llama.project li positionIds hidden).key)
        (cacheUpdate kv.value (llama.project li positionIds hidden).value) := by
  obtain ⟨keyShape, valueShape⟩ := shape
  have new := pointwise.project li positionIds hidden
  have keys := shape_cacheUpdate keyShape new.key
  have values := shape_cacheUpdate valueShape new.value
  rw [Llama.cachedAttention, dexaEagerAttentionForward_eq]
  apply ofFn_congr
  intro ix inside
  rw [new.query] at inside
  obtain ⟨h, i, c, rfl, queryHead, row, channel⟩ := inBounds_three inside
  rw [grouped] at queryHead
  -- the columns up to the query's own, and those that the mask hides
  have split : t + hidden.length = (t + i + 1) + (hidden.length - (i + 1)) := by omega
  have seen : t + hidden.length - hidden.length + i + 1 = t + i + 1 := by omega
  have width :
    (repeatKv
    (cacheUpdate kv.key
    (llama.project li positionIds hidden).key) b.model.spec.groupSize).shape.getD 1 0 =
    t + hidden.length := by
    rw [repeatKv, shape_repeat0 _ keys]
    rfl
  have betaShape :
    (NDArray.full [b.model.spec.nKvHeads * b.model.spec.groupSize, t] (b.fromFloat 0)).shape =
    [b.model.spec.nKvHeads * b.model.spec.groupSize, t] := rfl
  have readBeta : ∀ j < t + hidden.length,
    (Llama.betaFull (b.model.spec.nKvHeads * b.model.spec.groupSize) (t + hidden.length)
      (NDArray.full [b.model.spec.nKvHeads * b.model.spec.groupSize, t] (b.fromFloat 0))).getD [h,
        j] 0 = 0 := by
    intro j column
    rw [getD_betaFull betaShape queryHead column]
    split
    · rename_i cached
      apply getD_of_get?
      rw [NDArray.full,
        get?_ofFn_inBounds _
        (show InBounds [b.model.spec.nKvHeads * b.model.spec.groupSize, t] [h, j] from
        ⟨queryHead, cached, trivial⟩), masks.zero]
    · rfl
  have readMask : ∀ j < t + hidden.length,
    ((b.attentionMask t hidden.length).map b.fromFloat).getD [i, j] 0 =
      if i + t < j then b.fromFloat b.negInf else 0 := by
    intro j column
    rw [getD_attentionMask b row column, apply_ite b.fromFloat, masks.zero]
  simp only [keys, new.query, grouped, List.getD_cons_zero, List.getD_cons_succ]
  rw [seen, columnKeys, width, split, List.range_add, List.map_append, ← List.append_nil (_ ++ _),
    Attention.answer_vanishing, List.append_nil]
  · congr 1
    refine List.map_congr_left fun j member => ?_
    have column : j < t + i + 1 := List.mem_range.1 member
    rw [← split, readMask j (by omega), readBeta j (by omega), if_neg (by omega), add_zero,
      add_zero, new.query, repeatKv, repeatKv]
    simp only [getD_repeat0 keys queryHead, getD_repeat0 values queryHead, List.getD_cons_zero,
      List.getD_cons_succ]
  · intro key member
    rw [List.map_map] at member
    obtain ⟨j, late, rfl⟩ := List.mem_map.1 member
    have column := List.mem_range.1 late
    have reads :
      ∀ x, (cacheUpdate kv.key
      (llama.project li positionIds hidden).key).getD [h / b.model.spec.groupSize, t + i + 1 + j,
      x] 0 =
        (llama.project li positionIds hidden).key.getD [h / b.model.spec.groupSize,
          i + 1 + j, x] 0 := by
      intro x
      have back : t + i + 1 + j - t = i + 1 + j := by omega
      rw [getD_cacheUpdate keyShape new.key (by omega), if_neg (by omega), back]
    simp only [Function.comp_apply]
    rw [← split, readMask _ (by omega), readBeta _ (by omega), if_pos (by omega), add_zero,
      new.query, repeatKv]
    simp only [getD_repeat0 keys queryHead, reads, List.getD_cons_zero, List.getD_cons_succ]
    exact masks.vanish li positionIds hidden h (h / b.model.spec.groupSize) i (i + 1 + j)

omit [Inhabited α] runs in
/-- Decoding without biases is the pass under `sdpa`. -/
theorem decode_kvPass {cache : List (LayerKV τ)}
    (shaped : ∀ kv ∈ cache, CacheShape b.model.spec t kv) (positionIds inputIds : List Int) :
    llama.decode b.model.spec.groupSize b.fromFloat cache
        (List.replicate cache.length
          (NDArray.full [b.model.spec.nKvHeads * b.model.spec.groupSize, t] (b.fromFloat 0)))
        (b.attentionMask t inputIds.length) positionIds inputIds =
      (llama.kvPass sdpa positionIds cache 0
        (inputIds.map llama.embedTokens)).1.map llama.lmHead := by
  have layers : ∀ (k : Nat) (hidden : List H), hidden.length = inputIds.length →
      ((List.zipWith
        (llama.cachedAttention b.model.spec.groupSize
        ((b.attentionMask t inputIds.length).map b.fromFloat)) cache
        (List.replicate cache.length
          (NDArray.full [b.model.spec.nKvHeads * b.model.spec.groupSize, t]
          (b.fromFloat 0)))).zipIdx k).foldl
          (llama.decoderLayer positionIds) hidden =
        (llama.kvPass sdpa positionIds cache k hidden).1 := by
    induction cache with
    | nil => exact fun k hidden _ => rfl
    | cons kv cache ih =>
      intro k hidden length
      have here := shaped kv List.mem_cons_self
      have new := pointwise.project k positionIds hidden
      have attended := attends t hidden.length _ _ _ new.query (shape_cacheUpdate here.1 new.key)
        (shape_cacheUpdate here.2 new.value)
      have eager := cachedAttention_causal pointwise masks grouped here k positionIds hidden
      rw [length, ← attended] at eager
      simp only [List.length_cons, List.replicate_succ, List.zipWith_cons_cons, List.zipIdx_cons,
        List.foldl_cons, Llama.kvPass, Llama.decoderLayer,
        eager]
      exact ih (fun kv member => shaped kv (List.mem_cons_of_mem _ member)) (k + 1) _
        ((pointwise.finish _ _ _).trans length)
  rw [Llama.decode, Llama.pass, layers 0 _ (List.length_map _)]

omit [Inhabited α] [Field α] runs masks grouped in
/-- What a pass over a cached text predicts. -/
theorem kvPass_continuations [Inhabited Λ] (text ids : List Int) :
    (llama.kvPass sdpa (arange text.length (text.length + ids.length))
      (llama.textPass sdpa b.model.spec text).2 0
        (ids.map llama.embedTokens)).1.map llama.lmHead =
      HFBackend.continuations (llama.predict sdpa b.model.spec) text ids := by
  have passed :=
    fun text :
      List Int => (Llama.length_kvPass sdpa pointwise (arange 0 text.length)
      (Llama.emptyCache b.model.spec) 0
    (text.map llama.embedTokens)).1
  have lengths : ∀ text : List Int, (llama.textPass sdpa b.model.spec text).1.length =
    text.length := fun text =>
    (passed text).trans (List.length_map _)
  have length := (Llama.length_kvPass sdpa pointwise (arange text.length (text.length + ids.length))
    (llama.textPass sdpa b.model.spec text).2 0 (ids.map llama.embedTokens)).1
  rw [List.length_map] at length
  apply List.ext_getElem
  · simp [length]
  · intro k left right
    rw [List.length_map, length] at left
    have whole := congrArg Prod.fst (textPass_append pointwise attends (b := b) text ids)
    have cut :=
      congrArg Prod.fst (textPass_append pointwise attends (b := b) (text ++ ids.take (k + 1))
        (ids.drop (k + 1)))
    rw [List.append_assoc, List.take_append_drop, whole] at cut
    have last : (llama.textPass sdpa b.model.spec (text ++ ids.take (k + 1))).1.length =
      text.length + (k + 1) := by
      rw [lengths, List.length_append, List.length_take]
      omega
    have here := congrArg (·[text.length + k]?) cut
    simp only at here
    rw [List.getElem?_append_right (by rw [lengths]; omega), lengths, Nat.add_sub_cancel_left,
      List.getElem?_append_left (by omega), List.getElem?_eq_getElem (length.symm ▸ left)] at here
    simp only [List.getElem_map, HFBackend.continuations, List.getElem_range]
    rw [Llama.predict, List.getLastD_eq_getLast?, List.getLast?_map, List.getLast?_eq_getElem?,
      last, Nat.add_succ_sub_one, ← here]
    rfl

omit [Inhabited α] in
/-- A transformer that `HFBackend` runs is a causal model. -/
theorem llama_causalDecoding [Inhabited Λ] (exact_ : ∀ x, b.fromFloat (b.toFloat x) = x) :
    b.CausalDecoding (llama.predict sdpa b.model.spec) where
  causal := llama_causal runs pointwise attends
  fromFloat_toFloat := exact_
  decode text ids _ := by
    have count : (llama.textPass sdpa b.model.spec text).2.length = b.model.spec.nLayers :=
      (Llama.length_kvPass sdpa pointwise _ _ _ _).2.trans List.length_replicate
    rw [prefill_layers runs pointwise, runs.decode, HFBackend.unbiased, ← count,
      decode_kvPass pointwise attends masks grouped (textPass_shape sdpa pointwise text),
        kvPass_continuations pointwise attends]
  step text ids _ := by
    rw [prefill_layers runs pointwise, prefill_layers runs pointwise, runs.step,
      textPass_append pointwise attends]
    exact Prod.ext (kvPass_continuations pointwise attends text ids) rfl

end

end Prefills

section Even

def evenSdpa : NDArray ℚ → NDArray ℚ → NDArray ℚ → NDArray ℚ :=
  causalAttention evenLlama.exp evenLlama.scaling twoHeads.groupSize

/-- `evenBackend`, its caches built too. -/
def evenTransformer : HFBackend ℚ ℚ ℚ :=
  { evenBackend with
    model :=
      { spec := twoHeads
        kvForward := fun past positionIds inputIds =>
          (evenLlama.kvPass evenSdpa positionIds (past.getD (Llama.emptyCache twoHeads)) 0
            (inputIds.map evenLlama.embedTokens)).2 }
    step := fun cache positionIds inputIds =>
      let run := evenLlama.kvPass evenSdpa positionIds cache 0 (inputIds.map evenLlama.embedTokens)
      (run.1.map evenLlama.lmHead, run.2) }

/-- Cells of arrays with a column for each token. -/
theorem get?_ofFn_token {n n' i i' : Nat} (same : i < n ↔ i' < n') {f f' : List Nat → ℚ} {h c : Nat}
    (cell : i < n → f [h, i, c] = f' [h, i', c]) :
    (NDArray.ofFn [2, n, 1] f).get? [h, i, c] = (NDArray.ofFn [2, n', 1] f').get? [h, i', c] := by
  rw [get?_ofFn, get?_ofFn]
  by_cases inside : h < 2 ∧ i < n ∧ c < 1
  · have here : InBounds [2, n, 1] [h, i, c] := ⟨inside.1, inside.2.1, inside.2.2, trivial⟩
    have there : InBounds [2, n', 1] [h, i', c] :=
      ⟨inside.1, same.1 inside.2.1, inside.2.2, trivial⟩
    rw [if_pos here, if_pos there, cell inside.2.1]
  · have here : ¬ InBounds [2, n, 1] [h, i, c] := fun cell => inside ⟨cell.1, cell.2.1, cell.2.2.1⟩
    have there : ¬ InBounds [2, n', 1] [h, i', c] :=
      fun cell => inside ⟨cell.1, same.2 cell.2.1, cell.2.2.1⟩
    rw [if_neg here, if_neg there]

theorem lt_length_iff {β : Type} {l l' : List β} {i i' : Nat} (same : l[i]? = l'[i']?) :
    i < l.length ↔ i' < l'.length := by
  have some : ∀ {l : List β} {i : Nat}, i < l.length ↔ l[i]?.isSome := by simp
  rw [some, some, same]

theorem evenLlama_pointwise : evenLlama.Pointwise twoHeads where
  toShaped := evenLlama_shaped
  query _ _ _ _ _ _ _ _ _ _ same := get?_ofFn_token (lt_length_iff same) fun _ => rfl
  key _ _ _ _ _ _ _ _ _ _ same := get?_ofFn_token (lt_length_iff same) fun _ => rfl
  value _ _ _ _ _ _ _ _ _ _ same := get?_ofFn_token (lt_length_iff same) fun _ => by
    have token : ∀ (l : List ℚ) (i : Nat), l[i]?.getD 0 = l.getD i 0 :=
      fun l i => List.getD_eq_getElem?_getD.symm
    change List.getD _ _ 0 = List.getD _ _ 0
    rw [← token, ← token]
    exact congrArg (Option.getD · 0) same
  output _ hidden hidden' attended attended' i i' same attends := by
    have cell : ∀ h, attended.getD [h, i, 0] 0 = attended'.getD [h, i', 0] 0 :=
      fun h => getD_of_get?_eq (attends h 0)
    simp only [evenLlama, List.getElem?_map]
    by_cases inside : i < hidden.length
    · rw [List.getElem?_range inside, List.getElem?_range ((lt_length_iff same).1 inside),
        Option.map_some, Option.map_some, cell, cell]
    · rw [List.getElem?_eq_none (by simpa using inside),
        List.getElem?_eq_none (by simpa using (lt_length_iff same).not.1 inside), Option.map_none,
        Option.map_none]

theorem llama_causalDecoding_even :
    evenTransformer.CausalDecoding (evenLlama.predict evenSdpa twoHeads) := by
  have runs : evenTransformer.Runs evenLlama evenSdpa := ⟨fun _ _ _ => rfl, fun _ _ _ => rfl, rfl⟩
  have masks : evenTransformer.Masks evenLlama := by
    refine ⟨rfl, fun li positionIds hidden h h' i j => ?_⟩
    have query : ∀ c, (evenLlama.project li positionIds hidden).query.getD [h, i, c] 0 = 0 := by
      intro c
      simp only [evenLlama, NDArray.full, NDArray.getD, get?_ofFn]
      split <;> rfl
    simp only [query]
    simp [dotScore, evenLlama, evenTransformer, evenBackend]
  exact llama_causalDecoding runs evenLlama_pointwise (fun _ _ _ _ _ _ _ _ => rfl) masks rfl
    fun _ => rfl

end Even

end Dexa.Engine
