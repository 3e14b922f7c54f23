import Dexa.Engine.IncrementalDecoding
import Dexa.Serving.SessionContinuity

/-! # Stateful serving is stateless serving

A stateless server keeps the tokens of a conversation and no cache: a turn prefills all of them
and decodes from there.  A manager over `HFBackend` prefills only what the turn adds.  Over a
causal model both give the same answers, and the cache is the prefill of the conversation.
-/

namespace Dexa.Serving

open Dexa.Core Dexa.Engine Dexa.Lib

variable {α τ Λ : Type} [Field α]

/-- `HFBackend` with its tokenizer, and a way to choose tokens. -/
structure ChatEngine (α τ Λ : Type) where
  backend : HFBackend α τ Λ
  tokenize : String → List Int
  detokenize : List Int → String
  /-- token `k` of a response -/
  pick : Nat → Λ → Int

/-- A token fits a 64-bit integer. -/
def IsInt64 (x : Int) : Prop := -2 ^ 63 ≤ x ∧ x < 2 ^ 63

/-- A framed user turn is more than one token, and tokens are 64-bit integers. -/
structure ChatEngine.Lawful (e : ChatEngine α τ Λ) : Prop where
  framed : ∀ lead userText,
    1 < (e.tokenize (lead ++ "User: " ++ userText ++ "\n\nAssistant:")).length
  tokenized : ∀ text, ∀ x ∈ e.tokenize text, IsInt64 x
  picked : ∀ k logits, IsInt64 (e.pick k logits)

/-- A conversation, as a stateless server keeps it. -/
structure Chat where
  tokens : List Int
  turns : Int
  deriving DecidableEq, Repr

namespace ChatEngine

variable (e : ChatEngine α τ Λ)

/-- The engine as a session uses it. -/
def toBackend : Backend α where
  tokenize := e.tokenize
  detokenize := e.detokenize
  prefill tokens := some (e.backend.prefill tokens)
  generateAndExtend context prompt maxNewTokens := do
    let (tokens, grown) ← e.backend.generateAndExtend
      (.float32 context) prompt maxNewTokens.toNat e.pick
    return (tokens, grown.numbers)

section Stateless

variable [Inhabited α]

/-- A turn that prefills the whole conversation and decodes from there: the answer, what is told
    about it, and the conversation with it. -/
def statelessTurn (chat : Option Chat) (id userText : String) (system : Option String)
    (maxNewTokens : Int) :
    Option (String × SessionInfo × Chat) := do
  let delta := turnTokens e.toBackend userText system chat.isNone
  let whole := chat.elim [] Chat.tokens ++ delta
  let response ← e.backend.generate
    (.float32 (e.backend.prefill whole)) [] maxNewTokens.toNat e.pick
  let turns := chat.elim 0 Chat.turns + 1
  return (clean (e.detokenize response),
    { sessionId := id
      turns := turns
      contextTokens := (whole ++ response).length
      prefillDeltaTokens := delta.length
      statelessWouldPrefill := whole.length
      resumed := false
      stateBytes := 0 },
    ⟨whole ++ response, turns⟩)

def statelessStep (m : Dict String Chat) : Op → Reply × Dict String Chat
  | .turn id userText system maxNewTokens =>
    match e.statelessTurn (m.get? id) id userText system maxNewTokens with
    | none => (.raised, m)
    | some (text, info, chat) => (.turned text info, m.set id chat)
  | .exists? id => (.present (m.contains id), m)
  | .drop id => (.dropped, m.erase id)
  | .restart => (.restarted, m)

def stateless : Machine (Dict String Chat) Op Reply := ⟨e.statelessStep⟩

end Stateless

/-- What a manager caches of a conversation. -/
def cacheOf (chat : Chat) : KVCache α :=
  let kv := e.backend.prefill chat.tokens
  { kv with metadata := kv.metadata.set "turns" (.int chat.turns) }

omit [Field α] in
@[simp] theorem cacheOf_seqLen (chat : Chat) : (e.cacheOf chat).seqLen = chat.tokens.length := by
  simp [cacheOf, KVCache.seqLen, HFBackend.prefill, HFBackend.toHost, KVCache.mapElems]

omit [Field α] in
@[simp] theorem turnsOf_cacheOf (chat : Chat) :
    turnsOf (some (e.cacheOf chat)) = some chat.turns := by
  simp [turnsOf, cacheOf]

variable {e} {predict : List Int → Λ}

/-- Decoding on top of the cache of a text gives the cache of the text with the response. -/
theorem generateAndExtend_cached (decoding : e.backend.CausalDecoding predict) (text : List Int)
    (metadata : Dict String MetaValue) {prompt : List Int} (asked : prompt ≠ [])
    (maxNewTokens : Int) :
    let response := HFBackend.rollout predict e.pick (text ++ prompt) maxNewTokens.toNat []
    e.toBackend.generateAndExtend { e.backend.prefill text with metadata := metadata } prompt maxNewTokens =
      some (response, e.backend.prefill (text ++ prompt ++ response)) := by
  have generated :=
    HFBackend.generateAndExtend_prefill decoding text asked maxNewTokens.toNat e.pick
  -- the metadata is not looked at
  have plain :
    e.backend.generateAndExtend
    (.float32 { e.backend.prefill text with metadata := metadata }) prompt
      maxNewTokens.toNat e.pick = e.backend.generateAndExtend
        (.float32 (e.backend.prefill text)) prompt maxNewTokens.toNat e.pick := rfl
  simp only [toBackend, plain, generated, Option.bind_eq_bind, Option.bind_some]
  rfl

variable [Inhabited α]

/-- A turn on top of the cached conversation is the turn of a stateless server. -/
theorem respond_cached (decoding : e.backend.CausalDecoding predict) (lawful : e.Lawful)
    (chat : Option Chat) (id userText : String)
    (system : Option String) (maxNewTokens : Int) :
    ∃ turned info chat', respond e.toBackend (chat.map e.cacheOf) userText system maxNewTokens =
      some turned ∧
      e.statelessTurn chat id userText system maxNewTokens = some (turned.text, info, chat') ∧
      turned.newKV = e.cacheOf chat' ∧ ∀ resumed stateBytes, turned.info id resumed stateBytes =
        { info with resumed := resumed, stateBytes := stateBytes } := by
  obtain ⟨delta, turn⟩ : ∃ delta, delta = turnTokens e.toBackend userText system chat.isNone :=
    ⟨_, rfl⟩
  have long : 1 < delta.length := by
    rw [turn]
    exact lawful.framed _ _
  have asked : delta ≠ [] := List.ne_nil_of_length_pos (by omega)
  -- what the stateless server decodes
  have spoken : chat.elim [] Chat.tokens ++ delta ≠ [] := by simp [asked]
  have generated := HFBackend.generate_prefill decoding spoken [] maxNewTokens.toNat e.pick
  rw [List.append_nil] at generated
  cases chat with
  | none =>
    have rest : delta.drop 1 ≠ [] := List.ne_nil_of_length_pos (by rw [List.length_drop]; omega)
    have grown := generateAndExtend_cached decoding (delta.take 1) Dict.empty rest maxNewTokens
    rw [List.take_append_drop] at grown
    have counted : (delta.drop 1).length + 1 = delta.length := by
      rw [List.length_drop]
      omega
    have first :
      e.toBackend.prefill (delta.take 1) =
      some { e.backend.prefill (delta.take 1) with metadata := Dict.empty } := rfl
    simp only [Option.isNone_none] at turn
    simp only [Option.elim_none, List.nil_append] at generated
    simp only [respond, turnsOf, statelessTurn, Option.map_none, Option.isNone_none,
      Option.elim_none, List.nil_append, ← turn, first,
      grown, generated, counted, Option.bind_eq_bind, Option.bind_some, Option.pure_def]
    refine ⟨_, _, _, rfl, rfl, rfl, fun resumed stateBytes => ?_⟩
    simp [Turned.info, KVCache.seqLen, HFBackend.prefill, HFBackend.toHost, KVCache.mapElems]
  | some chat =>
    have grown :=
      generateAndExtend_cached decoding chat.tokens (e.cacheOf chat).metadata asked maxNewTokens
    have cached : { e.backend.prefill chat.tokens with metadata := (e.cacheOf chat).metadata } =
      e.cacheOf chat := rfl
    have later : turnTokens e.toBackend userText none false = delta := by
      rw [turn]
      cases system <;> rfl
    rw [cached] at grown
    simp only [Option.isNone_some] at turn
    simp only [Option.elim_some] at generated
    simp only [respond, statelessTurn, Option.map_some, Option.isNone_some, Option.elim_some,
      turnsOf_cacheOf, later, ← turn, grown,
      generated, Option.bind_eq_bind, Option.bind_some, Option.pure_def, cacheOf_seqLen,
        ← List.length_append]
    refine ⟨_, _, _, rfl, rfl, rfl, fun resumed stateBytes => ?_⟩
    simp [Turned.info, KVCache.seqLen, HFBackend.prefill, HFBackend.toHost, KVCache.mapElems]

/-- The manager that never evicts holds the cache of each conversation. -/
def Caches (e : ChatEngine α τ Λ) (m : Dict String (KVCache α)) (chats : Dict String Chat) : Prop :=
  ∀ id, m.get? id = (chats.get? id).map e.cacheOf

theorem Caches.step (decoding : e.backend.CausalDecoding predict) (lawful : e.Lawful)
    {m : Dict String (KVCache α)} {chats : Dict String Chat}
    (caches : Caches e m chats) (op : Op) :
    (inMemory e.toBackend).out m op = e.stateless.out chats op ∧
      Caches e ((inMemory e.toBackend).next m op) (e.stateless.next chats op) := by
  cases op with
  | turn id userText system maxNewTokens =>
    obtain ⟨turned, info, chat, responds, stateless, cache, told⟩ :=
      respond_cached decoding lawful (chats.get? id) id userText system maxNewTokens
    obtain ⟨hidden, info'⟩ : info.resumed = false ∧ info.stateBytes = 0 := by
      simp only [statelessTurn, Option.bind_eq_bind, Option.bind_eq_some_iff, Option.pure_def,
        Option.some.injEq, Prod.mk.injEq] at stateless
      obtain ⟨_, _, -, rfl, -⟩ := stateless
      exact ⟨rfl, rfl⟩
    have same : turned.info id false 0 = info := by
      rw [told, ← hidden, ← info']
    simp only [inMemory, ChatEngine.stateless, Machine.out, Machine.next, memoryStep, statelessStep,
      caches id, responds, stateless, same,
      cache, true_and]
    intro other
    rw [Dict.get?_set, Dict.get?_set, caches other]
    split <;> rfl
  | exists? id =>
    refine ⟨?_, caches⟩
    simp only [inMemory, ChatEngine.stateless, Machine.out, memoryStep, statelessStep,
      Dict.contains, caches id]
    cases chats.get? id <;> rfl
  | drop id =>
    refine ⟨rfl, fun other => ?_⟩
    simp only [inMemory, ChatEngine.stateless, Machine.next, memoryStep, statelessStep,
      Dict.get?_erase, caches other]
    split <;> rfl
  | restart => exact ⟨rfl, caches⟩

end ChatEngine

end Dexa.Serving
