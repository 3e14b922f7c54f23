import Dexa.Engine.NativeLoad
import Dexa.Engine.ResidentSession
import Dexa.Engine.SelectiveBlend

/-! # Decoding does not depend on where the context is split

Of a causal model the logits after a text are a function `predict` of the text.  Whatever part of a
text is cached, each decoding call is determined by `predict` at the prefixes of the whole text.
-/

namespace Dexa.Engine.HFBackend

open Dexa.Core Dexa.Lib Dexa.Segments

variable {α τ Λ : Type}

/-- What follows each of the tokens `ids` after `text`. -/
def continuations (predict : List Int → Λ) (text ids : List Int) : List Λ :=
  (List.range ids.length).map fun k => predict (text ++ ids.take (k + 1))

/-- No slot has a bias. -/
def unbiased [Field α] (b : HFBackend α τ Λ) (phys : Nat) : List (NDArray τ) :=
  List.replicate b.model.spec.nLayers
    (NDArray.full [b.model.spec.nKvHeads * b.model.spec.groupSize, phys] (b.fromFloat 0))

/-- Logits and KV at a position depend only on the tokens up to it: `predict` says what follows a
    text. -/
structure CausalDecoding [Field α] (b : HFBackend α τ Λ) (predict : List Int → Λ) : Prop where
  causal : Causal b.model
  /-- a float holds what the device computed -/
  fromFloat_toFloat : ∀ x, b.fromFloat (b.toFloat x) = x
  /-- with the causal mask, no biases and the positions after the cached text -/
  decode : ∀ text ids, ids ≠ [] →
    b.decode (b.model.prefill text).layers (b.unbiased text.length)
      (b.attentionMask text.length ids.length)
      (arange text.length (text.length + ids.length)) ids = continuations predict text ids
  step : ∀ text ids, ids ≠ [] →
    b.step (b.model.prefill text).layers (arange text.length (text.length + ids.length)) ids =
      (continuations predict text ids, (b.model.prefill (text ++ ids)).layers)

section Continuations

variable {predict : List Int → Λ}

@[simp] theorem length_continuations (text ids : List Int) :
    (continuations predict text ids).length = ids.length := by
  simp [continuations]

/-- The last logits are those after the whole text. -/
theorem getLast?_continuations (text : List Int) {ids : List Int} (nonempty : ids ≠ []) :
    (continuations predict text ids).getLast? = some (predict (text ++ ids)) := by
  have last : ids.length - 1 + 1 = ids.length :=
    Nat.sub_add_cancel (List.length_pos_of_ne_nil nonempty)
  have inside : ids.length - 1 < ids.length := by omega
  rw [List.getLast?_eq_getElem?, length_continuations, continuations, List.getElem?_map,
    List.getElem?_range inside,
    Option.map_some, last, List.take_length]

variable (predict) in
/-- After the first `p.length` logits but one come those that predict the targets. -/
theorem targets_continuations (text p target : List Int) (nonempty : p ≠ []) :
    ((continuations predict text (p ++ target)).drop (p.length - 1)).take target.length =
      (List.range target.length).map fun k => predict (text ++ p ++ target.take k) := by
  have first : p.length - 1 + 1 = p.length :=
    Nat.sub_add_cancel (List.length_pos_of_ne_nil nonempty)
  apply List.ext_getElem?
  intro k
  by_cases inside : k < target.length
  · have here : p.length - 1 + k < (p ++ target).length := by
      rw [List.length_append]
      omega
    have upTo : p.length - 1 + k + 1 = p.length + k := by omega
    rw [List.getElem?_take_of_lt inside, List.getElem?_drop, continuations, List.getElem?_map,
      List.getElem?_range here,
      List.getElem?_map, List.getElem?_range inside, Option.map_some, Option.map_some, upTo,
        List.take_length_add_append,
      List.append_assoc]
  · rw [List.getElem?_take_eq_none (not_lt.1 inside), List.getElem?_map,
      List.getElem?_eq_none (by simpa using inside), Option.map_none]

end Continuations

section Prefills

variable [Inhabited α] [Field α] {b : HFBackend α τ Λ} {predict : List Int → Λ}

omit [Inhabited α] in
/-- Arrays come back from the host as they were on the device. -/
theorem map_toFloat_fromFloat (decoding : b.CausalDecoding predict) (a : NDArray τ) :
    (a.map b.toFloat).map b.fromFloat = a := by
  have back : b.fromFloat ∘ b.toFloat = id := funext decoding.fromFloat_toFloat
  rw [NDArray.map_map, back]
  exact NDArray.map_eq_self fun x _ => rfl

/-- A prefill on the host is rebuilt on the device without padding and without biases. -/
theorem buildLayer_prefill (decoding : b.CausalDecoding predict) (text : List Int) {li : Nat}
    {l : LayerKV τ}
    (there : (b.model.prefill text).layers[li]? = some l) :
    b.buildLayer (.float32 (b.prefill text)) text.length li =
      some (l, NDArray.full [b.model.spec.nKvHeads * b.model.spec.groupSize, text.length]
        (b.fromFloat 0)) := by
  obtain ⟨keyShape, valueShape⟩ := decoding.causal.layer_shape text l (List.mem_of_getElem? there)
  have hostKey :
    (l.key.map b.toFloat).shape = [b.model.spec.nKvHeads, text.length, b.model.spec.headDim] :=
  keyShape
  have hostValue :
    (l.value.map b.toFloat).shape = [b.model.spec.nKvHeads, text.length, b.model.spec.headDim] :=
  valueShape
  have hostLayer : (b.prefill text).layers[li]? = some (l.map b.toFloat) := by
    rw [prefill, toHost, KVCache.mapElems, List.getElem?_map, there]
    rfl
  have columns : (l.key.map b.toFloat).shape.getD 1 0 = text.length := by
    rw [hostKey]
    rfl
  have biases : b.betaRows text.length text.length =
      NDArray.full [b.model.spec.nKvHeads * b.model.spec.groupSize, text.length]
        (b.fromFloat 0) := by
    rw [betaRows, NDArray.full]
    apply NDArray.ofFn_congr
    intro ix inside
    obtain ⟨h, slot, rfl, -, below⟩ := NDArray.inBounds_two inside
    rw [List.getD_cons_succ, List.getD_cons_zero, if_pos below]
  simp only [buildLayer, hostLayer, LayerKV.map, bind, Option.bind_some, columns,
    padded_whole hostKey, padded_whole hostValue,
    map_toFloat_fromFloat decoding, biases]
  rfl

theorem buildCache_prefill (decoding : b.CausalDecoding predict) (text : List Int) :
    b.buildCache (.float32 (b.prefill text)) text.length =
      some ((b.model.prefill text).layers.map fun l =>
      (l, NDArray.full [b.model.spec.nKvHeads * b.model.spec.groupSize, text.length]
        (b.fromFloat 0))) := by
  apply Fallible.mapM_eq_some_iff.2
  apply List.forall₂_iff_get.2
  refine ⟨by rw [List.length_range, List.length_map, decoding.causal.layers_length], ?_⟩
  intro li inside inside'
  rw [List.length_map] at inside'
  rw [List.get_eq_getElem, List.get_eq_getElem, List.getElem_range, List.getElem_map]
  exact buildLayer_prefill decoding text (List.getElem?_eq_getElem inside')

theorem decodeLogits_prefill (decoding : b.CausalDecoding predict) (text : List Int)
    {ids : List Int} (nonempty : ids ≠ []) :
    b.decodeLogits (.float32 (b.prefill text)) ids = some (continuations predict text ids) := by
  have length : (HostKV.float32 (b.prefill text)).seqLen = text.length := by
    simp [HostKV.seqLen, HostKV.positions, prefill, toHost, KVCache.mapElems]
  have layers : ∀ biases : NDArray τ,
      (((b.model.prefill text).layers.map fun l => (l, biases)).map Prod.fst) =
        (b.model.prefill text).layers := by
    intro biases
    rw [List.map_map]
    exact List.map_id _
  have biases : ∀ row :
    NDArray τ, (((b.model.prefill text).layers.map fun l => (l, row)).map Prod.snd) =
      List.replicate b.model.spec.nLayers row := by
    intro row
    rw [List.map_map, ← decoding.causal.layers_length text]
    exact List.map_const
  have decoded := decoding.decode text ids nonempty
  rw [unbiased, ← biases] at decoded
  rw [decodeLogits, length, buildCache_prefill decoding]
  simp only [bind, Option.bind_some, layers, decoded, pure]

/-- Without its last position a prefill is that of the text without its last token. -/
theorem dropLast_prefill (decoding : b.CausalDecoding predict) {text : List Int}
    (nonempty : text ≠ []) :
    dropLast (.float32 (b.prefill text)) = some (.float32 (b.prefill text.dropLast),
      text.getLast nonempty) := by
  have shaped := shaped_prefill decoding.causal text
  have shaped' := shaped_prefill decoding.causal text.dropLast
  have column : ∀ {a : NDArray α},
    a.shape = [b.model.spec.nKvHeads, text.length, b.model.spec.headDim] →
      a.shape.getD 1 0 - 1 = text.dropLast.length := by
    intro a shape
    rw [shape, List.length_dropLast]
    rfl
  have fewer : text.dropLast.length ≤ text.length := by
    rw [List.length_dropLast]
    omega
  -- the columns that stay were computed after the same prefix
  have cut : (HostKV.dropLast.cut (b.prefill text)).layers = (b.prefill text.dropLast).layers := by
    refine Shaped.ext (n := text.dropLast.length) ⟨?_, ?_⟩ shaped' ?_
    · rw [HostKV.dropLast.cut, List.length_map, shaped.length]
    · intro l member
      obtain ⟨l, here, rfl⟩ := List.mem_map.1 member
      obtain ⟨keyShape, valueShape⟩ := shaped.shape l here
      rw [column keyShape, column valueShape, NDArray.shape_takeAxis1 _ keyShape,
        NDArray.shape_takeAxis1 _ valueShape,
        Nat.min_eq_left fewer]
      exact ⟨rfl, rfl⟩
    · intro t inside li l l' there there' h c
      simp only [HostKV.dropLast.cut, List.getElem?_map, Option.map_eq_some_iff] at there
      obtain ⟨l, at_, rfl⟩ := there
      obtain ⟨keyShape, valueShape⟩ := shaped.shape l (List.mem_of_getElem? at_)
      rw [column keyShape, column valueShape, NDArray.get?_takeAxis1 keyShape inside,
        NDArray.get?_takeAxis1 valueShape inside]
      have same : text.take (t + 1) = text.dropLast.take (t + 1) := by
        rw [List.dropLast_eq_take, List.take_take, Nat.min_eq_left]
        rw [List.length_dropLast] at inside
        omega
      exact prefill_sameToken decoding.causal
        (inside.trans_le fewer) inside same li l l' at_ there' h c
  have positions : (b.prefill text).positions.dropLast = (b.prefill text.dropLast).positions := by
    simp [prefill, toHost, KVCache.mapElems, List.dropLast_eq_take, take_arange]
  have kv : HostKV.dropLast.cut (b.prefill text) = b.prefill text.dropLast :=
    KVCache.ext rfl cut positions rfl rfl
  have last : (b.prefill text).positions.getLast? ≠ none := by
    rw [ne_eq, List.getLast?_eq_none_iff]
    intro empty
    have length := congrArg List.length empty
    simp [prefill, toHost, KVCache.mapElems, nonempty] at length
  obtain ⟨position, at_⟩ := Option.ne_none_iff_exists'.1 last
  have tokens : (HostKV.float32 (b.prefill text)).tokenIds = some text := rfl
  simp only [dropLast, tokens, HostKV.positions, at_, List.getLast?_eq_some_getLast nonempty, bind,
    Option.bind_some, pure,
    HostKV.dropLast, kv]

/-- The log-probabilities of the targets after a text. -/
def scores (b : HFBackend α τ Λ) (predict : List Int → Λ) (text target : List Int) : List α :=
  List.zipWith b.logProb
    ((List.range target.length).map fun k => predict (text ++ target.take k)) target

/-- Tokens chosen one after the other, each from what the text and the tokens before it predict. -/
def rollout (predict : List Int → Λ) (pick : Nat → Λ → Int) (text : List Int) : Nat →
    List Int → List Int
  | 0, generated => generated
  | remaining + 1, generated =>
    rollout predict pick text remaining
      (generated ++ [pick generated.length (predict (text ++ generated))])

/-- Whatever part of the text is cached, the scores are those after the text. -/
theorem score_prefill (decoding : b.CausalDecoding predict) {cached : List Int}
    (nonempty : cached ≠ [])
    (prompt target : List Int) :
    b.score (.float32 (b.prefill cached)) prompt target =
      some (b.scores predict (cached ++ prompt) target) := by
  unfold score
  by_cases none : target = []
  · rw [if_pos none, none]
    rfl
  · rw [if_neg none]
    by_cases empty : prompt = []
    · -- the boundary logits come from the last cached token, fed again
      have whole : cached.dropLast ++ [cached.getLast nonempty] = cached :=
        List.dropLast_append_getLast nonempty
      have boundary :=
        targets_continuations predict cached.dropLast [cached.getLast nonempty] target (by simp)
      rw [whole] at boundary
      simp only [empty, ne_eq, not_true_eq_false, if_false, bind, Option.bind_some,
        dropLast_prefill decoding nonempty,
        decodeLogits_prefill decoding _ (List.cons_ne_nil _ _), pure, List.append_nil, scores]
      rw [← boundary]
      simp
    · have fed : prompt ++ target ≠ [] := by simp [empty]
      simp only [empty, ne_eq, not_false_eq_true, if_true, bind, Option.bind_some,
        decodeLogits_prefill decoding _ fed, pure,
        targets_continuations predict cached prompt target empty, scores]

/-- Decoding the prompt and all generated tokens again at each step rolls the text out. -/
theorem generateLoop_prefill (decoding : b.CausalDecoding predict) (cached prompt : List Int)
    (pick : Nat → Λ → Int)
    (remaining : Nat) (generated : List Int) :
    b.generateLoop (.float32 (b.prefill cached)) prompt pick remaining generated
      (predict (cached ++ prompt ++ generated)) =
      some (rollout predict pick (cached ++ prompt) remaining generated) := by
  induction remaining generalizing generated with
  | zero => rfl
  | succ remaining ih =>
    unfold generateLoop
    by_cases done : remaining = 0
    · simp [done, rollout]
    · have fed :
        prompt ++ (generated ++ [pick generated.length (predict (cached ++ prompt ++ generated))]) ≠
        [] := by simp
      have rest :=
        ih (generated ++ [pick generated.length (predict (cached ++ prompt ++ generated))])
      simp only [done, if_false, decodeLogits_prefill decoding cached fed, bind, Option.bind_some,
        getLast?_continuations cached fed, ← List.append_assoc cached, rest]
      rfl

theorem generate_prefill (decoding : b.CausalDecoding predict) {cached : List Int}
    (nonempty : cached ≠ [])
    (prompt : List Int) (maxNewTokens : Nat) (pick : Nat → Λ → Int) :
    b.generate (.float32 (b.prefill cached)) prompt maxNewTokens pick =
      some (rollout predict pick (cached ++ prompt) maxNewTokens []) := by
  have loop := generateLoop_prefill decoding cached prompt pick maxNewTokens []
  rw [List.append_nil] at loop
  unfold generate
  by_cases empty : prompt = []
  · have whole : cached.dropLast ++ [cached.getLast nonempty] = cached :=
      List.dropLast_append_getLast nonempty
    subst empty
    rw [List.append_nil] at loop ⊢
    simp only [ne_eq, not_true_eq_false, if_false, bind, Option.bind_some,
      dropLast_prefill decoding nonempty,
      decodeLogits_prefill decoding _ (List.cons_ne_nil _ _),
        getLast?_continuations _ (List.cons_ne_nil _ _), whole, loop]
  · simp only [ne_eq, empty, not_false_eq_true, if_true, bind, Option.bind_some,
      decodeLogits_prefill decoding cached empty,
      getLast?_continuations cached empty, loop]

/-- Decoding over a causal model does not depend on where the context is split, for scores and for
    any way to pick tokens from logits. -/
theorem decoding_split (decoding : b.CausalDecoding predict) {first : List Int}
    (nonempty : first ≠ [])
    (rest target : List Int) (maxNewTokens : Nat) (pick : Nat → Λ → Int) :
    (∃ logprobs, b.score (.float32 (b.prefill first)) rest target = some logprobs ∧
      b.score (.float32 (b.prefill (first ++ rest))) [] target = some logprobs) ∧
    ∃ tokens, b.generate (.float32 (b.prefill first)) rest maxNewTokens pick = some tokens ∧
      b.generate (.float32 (b.prefill (first ++ rest))) [] maxNewTokens pick = some tokens := by
  have whole : first ++ rest ≠ [] := by simp [nonempty]
  constructor
  · refine ⟨_, score_prefill decoding nonempty rest target, ?_⟩
    rw [score_prefill decoding whole, List.append_nil]
  · refine ⟨_, generate_prefill decoding nonempty rest maxNewTokens pick, ?_⟩
    rw [generate_prefill decoding whole, List.append_nil]

end Prefills

theorem lastSum_prefill (text : List Int) : lastSum (sumModel.prefill text).layers = text.sum := by
  have last : (runningSums 0 text).getLastD 0 = text.sum := by
    cases text with
    | nil => rfl
    | cons t ts =>
      rw [List.getLastD_eq_getLast?, List.getLast?_eq_getElem?, length_runningSums,
        runningSums_getElem?]
      simp
  rw [lastSum, sumModel_prefill_layers]
  simp only [List.head?_cons, Option.elim_some, cells_column, last]

theorem runningSums_continuations (text ids : List Int) :
    runningSums text.sum ids = continuations List.sum text ids := by
  apply List.ext_getElem?
  intro k
  rw [runningSums_getElem?, continuations, List.getElem?_map]
  by_cases inside : k < ids.length
  · rw [if_pos inside, List.getElem?_range inside, Option.map_some, List.sum_append]
  · rw [if_neg inside, List.getElem?_eq_none (by simpa using inside), Option.map_none]

theorem sumsOnDevice_decoding : sumsOnDevice.CausalDecoding List.sum where
  causal := sumModel_causal
  fromFloat_toFloat x := Int.floor_intCast x
  decode text ids _ := by
    have sums := runningSums_continuations text ids
    rwa [← lastSum_prefill text] at sums
  step text ids nonempty := by
    have sums := runningSums_continuations text ids
    rw [← lastSum_prefill text] at sums
    have forwarded := sumModel_causal.forward text ids nonempty
    rw [← List.length_append, kvForward_prefill (fun _ _ => rfl), List.length_append] at forwarded
    exact Prod.ext sums forwarded

/-- A text cut after its first token. -/
theorem decoding_split_sums :
    (∃ logprobs, sumsOnDevice.score (.float32 (sumsOnDevice.prefill [3])) [4, 5] [1, 2] =
      some logprobs ∧
      sumsOnDevice.score (.float32 (sumsOnDevice.prefill ([3] ++ [4, 5]))) [] [1, 2] =
        some logprobs) ∧
    ∃ tokens, sumsOnDevice.generate (.float32 (sumsOnDevice.prefill [3])) [4, 5] 3
      (fun _ logit => logit % 7) = some tokens ∧
      sumsOnDevice.generate (.float32 (sumsOnDevice.prefill ([3] ++ [4, 5]))) [] 3
        (fun _ logit => logit % 7) = some tokens :=
  decoding_split sumsOnDevice_decoding (by decide) [4, 5] [1, 2] 3 fun _ logit => logit % 7

end Dexa.Engine.HFBackend
