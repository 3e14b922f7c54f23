import Dexa.Engine.DecodingSplits

/-! # The incremental decoders

`generate` decodes the whole prefix again at each step; `generate_and_extend` and
`TorchKVSession.greedy` feed one token to a growing cache.  Over a causal model each cache on the
way is the prefill of the text so far, so all three roll out the same text.
-/

namespace Dexa.Engine.HFBackend

open Dexa.Core Dexa.Lib Dexa.Segments TorchKVSession

variable {α τ Λ : Type} [Inhabited α] [Field α] {b : HFBackend α τ Λ} {predict : List Int → Λ}

theorem length_snoc (text : List Int) (t : Int) : (text ++ [t]).length = text.length + 1 :=
  List.length_append

omit [Inhabited α] in
/-- One token after a text. -/
theorem step_one (decoding : b.CausalDecoding predict) (text : List Int) (t : Int) :
    b.step (b.model.prefill text).layers [(text.length : Int)] [t] =
      ([predict (text ++ [t])], (b.model.prefill (text ++ [t])).layers) := by
  have position : arange text.length (text.length + [t].length) = [(text.length : Int)] := by
    simp [arange]
  have stepped := decoding.step text [t] (List.cons_ne_nil t [])
  rwa [position] at stepped

omit [Inhabited α] in
theorem rawCache_prefill (decoding : b.CausalDecoding predict) (text : List Int) :
    (b.rawCache (.float32 (b.prefill text))).layers = (b.model.prefill text).layers := by
  simp only [rawCache, HostKV.numbers, prefill, toHost, KVCache.mapElems, List.map_map]
  have each : LayerKV.map b.fromFloat ∘ LayerKV.map b.toFloat = id := by
    funext l
    simp only [Function.comp_apply, LayerKV.map, map_toFloat_fromFloat decoding, id]
  rw [each, List.map_id]

omit [Inhabited α] in
/-- A cache of a text is handed out as the prefill of the text. -/
theorem cacheToKVCache_prefill (decoding : b.CausalDecoding predict) (text : List Int) :
    b.toHost (b.model.cacheToKVCache (b.model.prefill text).layers (arange 0 text.length) text) =
      b.prefill text := by
  have all : (b.model.prefill text).layers.take b.model.spec.nLayers =
    (b.model.prefill text).layers :=
    List.take_of_length_le (le_of_eq (decoding.causal.layers_length text))
  rw [Model.cacheToKVCache, all]
  simp [prefill, toHost, KVCache.mapElems, Model.prefill, Model.cacheToKVCache]

omit [Inhabited α] in
theorem extendLoop_prefill (decoding : b.CausalDecoding predict) (text : List Int)
    (pick : Nat → Λ → Int)
    (remaining : Nat) (generated : List Int) :
    b.extendLoop pick remaining (text ++ generated).length generated (predict (text ++ generated))
        (b.model.prefill (text ++ generated)).layers =
      some (rollout predict pick text remaining generated,
        (b.model.prefill (text ++ rollout predict pick text remaining generated)).layers) := by
  induction remaining generalizing generated with
  | zero => rfl
  | succ remaining ih =>
    have rest := ih (generated ++ [pick generated.length (predict (text ++ generated))])
    rw [← List.append_assoc, length_snoc] at rest
    simp only [extendLoop, step_one decoding, List.getLast?_singleton, bind, Option.bind_some, rest]
    rfl

omit [Inhabited α] in
/-- The grown cache is the prefill of everything said. -/
theorem generateAndExtend_prefill (decoding : b.CausalDecoding predict) (cached : List Int)
    {prompt : List Int}
    (nonempty : prompt ≠ []) (maxNewTokens : Nat) (pick : Nat → Λ → Int) :
    b.generateAndExtend (.float32 (b.prefill cached)) prompt maxNewTokens pick =
      some (rollout predict pick (cached ++ prompt) maxNewTokens [],
        .float32
          (b.prefill
          (cached ++ prompt ++ rollout predict pick (cached ++ prompt) maxNewTokens []))) := by
  have length : (HostKV.float32 (b.prefill cached)).seqLen = cached.length := by
    simp [HostKV.seqLen, HostKV.positions, prefill, toHost, KVCache.mapElems]
  have tokens : (HostKV.float32 (b.prefill cached)).tokenIds = some cached := rfl
  have loop := extendLoop_prefill decoding (cached ++ prompt) pick maxNewTokens []
  rw [List.append_nil, List.length_append] at loop
  have grown :=
    cacheToKVCache_prefill decoding
      (cached ++ prompt ++ rollout predict pick (cached ++ prompt) maxNewTokens [])
  rw [List.length_append, List.length_append] at grown
  simp only [generateAndExtend, length, rawCache_prefill decoding,
    decoding.step cached prompt nonempty,
    getLast?_continuations cached nonempty, bind, Option.bind_some, loop, tokens, Option.getD_some,
      pure, grown]

section Session

variable [Inhabited τ]

omit [Inhabited α] [Inhabited τ] in
/-- A pass over a cache object changes that object only. -/
theorem forwardOn_one (decoding : b.CausalDecoding predict) (text : List Int) (t : Int)
    {caches : List (List (LayerKV τ))}
    {i : Nat} (there : caches[i]? = some (b.model.prefill text).layers) :
    b.forwardOn caches i [(text.length : Int)] [t] =
      some ([predict (text ++ [t])], caches.set i (b.model.prefill (text ++ [t])).layers) := by
  simp only [forwardOn, there, bind, Option.bind_some, step_one decoding, pure]

omit [Inhabited α] [Inhabited τ] in
theorem greedyLoop_prefill (decoding : b.CausalDecoding predict) (text : List Int)
    (pick : Nat → Λ → Int) (i : Nat)
    (remaining : Nat) (generated : List Int) (caches : List (List (LayerKV τ)))
    (there : caches[i]? = some (b.model.prefill (text ++ generated)).layers) :
    ∃ caches', b.greedyLoop i pick remaining (text ++ generated).length generated
      (predict (text ++ generated)) caches =
      some (rollout predict pick text remaining generated, caches') ∧ ∀ k, k ≠ i →
        caches'[k]? = caches[k]? := by
  induction remaining generalizing generated caches with
  | zero => exact ⟨caches, rfl, fun k _ => rfl⟩
  | succ remaining ih =>
    have inside := (List.getElem?_eq_some_iff.1 there).1
    obtain ⟨caches', rest, others⟩ :=
      ih (generated ++ [pick generated.length (predict (text ++ generated))])
      (caches.set i
        (b.model.prefill
        (text ++ (generated ++ [pick generated.length (predict (text ++ generated))]))).layers)
      (List.getElem?_set_self inside)
    rw [← List.append_assoc, length_snoc] at rest
    refine ⟨caches', ?_, ?_⟩
    · simp only [greedyLoop, forwardOn_one decoding _ _ there, List.getLast?_singleton, bind,
        Option.bind_some, rest]
      rfl
    · intro k other
      rw [others k other, List.getElem?_set_ne (Ne.symm other)]

omit [Inhabited α] in
/-- `greedy` rolls out the session's text on a copy of its cache. -/
theorem sessionGreedy_prefill (decoding : b.CausalDecoding predict) {text : List Int}
    (nonempty : text ≠ [])
    {caches : List (List (LayerKV τ))} {i : Nat}
    (there : caches[i]? = some (b.model.prefill text).layers)
    (maxNewTokens : Nat) (pick : Nat → Λ → Int) :
    ∃ caches', b.sessionGreedy caches (some i) text maxNewTokens pick =
        some (rollout predict pick text maxNewTokens [], caches') ∧
      ∀ k, k < caches.length → caches'[k]? = caches[k]? := by
  have whole : text.dropLast ++ [text.getLast nonempty] = text :=
    List.dropLast_append_getLast nonempty
  have length : text.dropLast.length = text.length - 1 := List.length_dropLast
  have positive := List.length_pos_of_ne_nil nonempty
  have position : (text.length : Int) - 1 = (text.dropLast.length : Int) := by omega
  have cut : ((b.model.prefill text).layers.map fun l =>
      (⟨l.key.takeAxis1 (l.key.shape.getD 1 0 - 1),
        l.value.takeAxis1 (l.value.shape.getD 1 0 - 1)⟩ : LayerKV τ)) =
      (b.model.prefill text.dropLast).layers := by
    have sliced := congrArg KVCache.layers (sliceKV_prefill decoding.causal text (text.length - 1))
    rw [← List.dropLast_eq_take] at sliced
    rw [← sliced]
    apply List.map_congr_left
    intro l member
    obtain ⟨keyShape, valueShape⟩ := decoding.causal.layer_shape text l member
    rw [keyShape, valueShape]
    rfl
  -- the copy is the newest cache object, and only it is written
  have copied : (caches ++ [(b.model.prefill text.dropLast).layers])[caches.length]? =
      some (b.model.prefill text.dropLast).layers := List.getElem?_concat_length
  have primed := forwardOn_one decoding text.dropLast (text.getLast nonempty) copied
  rw [whole] at primed
  have inside := (List.getElem?_eq_some_iff.1 copied).1
  obtain ⟨caches', loop, others⟩ :=
    greedyLoop_prefill decoding text pick caches.length maxNewTokens []
    ((caches ++ [(b.model.prefill text.dropLast).layers]).set caches.length
      (b.model.prefill text).layers)
    (by rw [List.append_nil]; exact List.getElem?_set_self inside)
  rw [List.append_nil] at loop
  refine ⟨caches', ?_, ?_⟩
  · simp only [sessionGreedy, there, bind, Option.bind_some, List.getLast?_eq_some_getLast nonempty,
      cut, position, primed,
      List.getLast?_singleton, loop]
  · intro k old
    rw [others k old.ne, List.getElem?_set_ne old.ne', List.getElem?_append_left old]

end Session

/-- A session object: the cache object it refers to, and its tokens. -/
structure SessionRef where
  cache : Option Nat
  tokenIds : List Int

/-- The session as the caches of the device have it. -/
def SessionRef.view (r : SessionRef) (caches : List (List (LayerKV τ))) : TorchKVSession τ :=
  { cache := r.cache.bind fun i => caches[i]?, tokenIds := r.tokenIds }

section Decoders

variable [Inhabited τ] {δ : Type} [DecidableEq δ] (hashTokens : List Int → δ)

/-- `generate_and_extend` returns the tokens of `generate` and the prefill of everything said; in
    every state a run of mutations reaches, `greedy` of a session with tokens returns those of
    `generate` on its cache and changes no session. -/
theorem incremental_decoders_agree (decoding : b.CausalDecoding predict) (whole : WholePass b.model)
    (maxNewTokens : Nat)
    (pick : Nat → Λ → Int) :
    (∀ cached prompt : List Int, cached ≠ [] → prompt ≠ [] → ∃ tokens grown,
      b.generate (.float32 (b.prefill cached)) prompt maxNewTokens pick = some tokens ∧
      b.generateAndExtend (.float32 (b.prefill cached)) prompt maxNewTokens pick =
        some (tokens, .float32 grown) ∧
      grown = b.prefill (cached ++ prompt ++ tokens) ∧
        grown.tokenIds = some (cached ++ prompt ++ tokens)) ∧
    ∀ (start : List (TorchKVSession τ)) calls, (∀ s ∈ start, Holds b.model s) →
      ∀ s ∈ (torchFamily b.model hashTokens).exec start calls, s.tokenIds ≠ [] →
        ∀ (caches : List (List (LayerKV τ))) (self : SessionRef), self.view caches = s →
          ∃ kv tokens caches',
          (s.toKVCache b.model).map b.toHost = some kv ∧
          b.generate (.float32 kv) [] maxNewTokens pick = some tokens ∧
          b.sessionGreedy caches self.cache self.tokenIds maxNewTokens pick =
            some (tokens, caches') ∧
          ∀ other : SessionRef, (∀ i, other.cache = some i → i < caches.length) →
            other.view caches' = other.view caches := by
  constructor
  · intro cached prompt nonempty asked
    exact ⟨_, _, generate_prefill decoding nonempty prompt maxNewTokens pick,
      generateAndExtend_prefill decoding cached asked maxNewTokens pick, rfl, rfl⟩
  · intro start calls holds s member nonempty caches self seen
    -- a session with tokens is the prefill of them, however it came about
    have reached :=
      torchFamily_kept hashTokens (fun _ tokens h => append_holds decoding.causal whole h tokens)
      (fun _ k h => truncate_holds decoding.causal h k) holds calls s member
    have resident : Resident b.model s := reached.resolve_left fun fresh => nonempty (fresh ▸ rfl)
    have cached := toKVCache_of_resident decoding.causal resident
    subst seen
    obtain ⟨i, refers, there⟩ := Option.bind_eq_some_iff.1 resident
    obtain ⟨caches', greedy, kept⟩ :=
      sessionGreedy_prefill decoding nonempty there maxNewTokens pick
    have generated := generate_prefill decoding nonempty [] maxNewTokens pick
    rw [List.append_nil] at generated
    refine ⟨_, _, caches', by rw [cached]; rfl, generated, by rw [refers]; exact greedy, ?_⟩
    intro other inside
    rw [SessionRef.view, SessionRef.view]
    cases named : other.cache with
    | none => rfl
    | some k => rw [Option.bind_some, Option.bind_some, kept k (inside k named)]

end Decoders

/-- A turn, and a session that was built and grown. -/
theorem incremental_decoders_agree_sums :
    let session := (TorchKVSession.append sumModel (TorchKVSession.new sumModel [3, 4]) [5]).2
    (∃ tokens grown, sumsOnDevice.generate (.float32 (sumsOnDevice.prefill [3])) [4, 5] 2
      (fun _ logit => logit % 7) = some tokens ∧
      sumsOnDevice.generateAndExtend (.float32 (sumsOnDevice.prefill [3])) [4, 5] 2
        (fun _ logit => logit % 7) =
        some (tokens, .float32 grown) ∧
      grown = sumsOnDevice.prefill ([3] ++ [4, 5] ++ tokens) ∧
        grown.tokenIds = some ([3] ++ [4, 5] ++ tokens)) ∧
    ∃ kv tokens caches', (session.toKVCache sumModel).map sumsOnDevice.toHost = some kv ∧
      sumsOnDevice.generate (.float32 kv) [] 2 (fun _ logit => logit % 7) = some tokens ∧
      sumsOnDevice.sessionGreedy [session.cache.getD []] (some 0) [3, 4, 5] 2
        (fun _ logit => logit % 7) = some (tokens, caches') ∧
      ∀ other : SessionRef, (∀ i, other.cache = some i → i < 1) →
        other.view caches' = other.view [session.cache.getD []] := by
  intro session
  have whole : WholePass sumModel := fun _ _ => rfl
  obtain ⟨turns, sessions⟩ :=
    incremental_decoders_agree (id : List Int → List Int) sumsOnDevice_decoding whole 2
    fun _ logit => logit % 7
  have start : ∀ s ∈ [TorchKVSession.new sumModel [3, 4]], Holds sumModel s :=
    List.forall_mem_singleton.2 (new_holds sumModel_causal whole [3, 4])
  exact ⟨turns [3] [4, 5] (by decide) (by decide),
    sessions _ [(0, .append [5])] start session (List.mem_singleton.2 rfl)
      (by decide) [session.cache.getD []] ⟨some 0, [3, 4, 5]⟩ rfl⟩

end Dexa.Engine.HFBackend
