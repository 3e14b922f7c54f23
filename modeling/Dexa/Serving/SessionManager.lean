import Dexa.Core.Types
import Dexa.Lib.Machine
import Dexa.Lib.Text

/-! # The session manager (`dexa/serving/session_manager.py`)

A session is a growing cache.  A manager keeps the most recently used sessions in memory and,
with `persist`, every session in a store; a turn prefills the framed user text on top of the
cache, decodes, and puts the grown cache back.  The backend and the store are parameters;
`none` is an exception.
-/

namespace Dexa.Serving

open Dexa.Core Dexa.Lib

/-- What a session needs of a `ModelBackend`. -/
structure Backend (α : Type) where
  tokenize : String → List Int
  detokenize : List Int → String
  prefill : List Int → Option (KVCache α)
  /-- the response tokens, and the cache with the prompt and the response -/
  generateAndExtend : KVCache α → List Int → Int → Option (List Int × KVCache α)

/-- What a session needs of a `SessionStore`, whose state is a `σ`. -/
structure SessionStore (σ α : Type) where
  has : σ → String → Bool
  load : σ → String → Option (KVCache α)
  /-- the size of the written file -/
  save : σ → String → KVCache α → Nat × σ
  delete : σ → String → σ

structure Config (σ α : Type) where
  backend : Backend α
  store : SessionStore σ α
  persist : Bool := true
  keepResident : Nat := 16

structure SessionManager (σ α : Type) where
  /-- least recently used first -/
  resident : Dict String (KVCache α)
  store : σ

structure SessionInfo where
  sessionId : String
  turns : Int
  contextTokens : Nat
  prefillDeltaTokens : Nat
  statelessWouldPrefill : Nat
  resumed : Bool
  stateBytes : Nat
  deriving DecidableEq, Repr

section Turn

variable {α : Type} (backend : Backend α)

/-- `_turn_tokens`. -/
def turnTokens (userText : String) (system : Option String) (first : Bool) : List Int :=
  let lead := match system with
    | some text => if first && text ≠ "" then "System: " ++ text ++ "\n\n" else ""
    | none => ""
  backend.tokenize (lead ++ "User: " ++ userText ++ "\n\nAssistant:")

/-- `_clean`. -/
def clean (text : String) : String :=
  let stopped := ["\nUser:", "\nSystem:", "User:"].foldl (fun text marker =>
    match find marker.toList text with
    | some i => text.take i
    | none => text) text.toList
  String.ofList (strip stopped)

/-- `kv.meta.get("turns", 0)`, of a cache whose turns are a whole number. -/
def turnsOf : Option (KVCache α) → Option Int
  | none => some 0
  | some kv =>
    match kv.metadata.get? "turns" with
    | none => some 0
    | some (.int n) => some n
    | some (.bool b) => some b.toNat
    | some _ => none

/-- What `turn` computes between `_get` and `_put`. -/
structure Turned (α : Type) where
  text : String
  turns : Int
  prefillDeltaTokens : Nat
  statelessWouldPrefill : Nat
  /-- the framed user turn -/
  delta : List Int
  respTokens : List Int
  newKV : KVCache α

def respond (cached : Option (KVCache α)) (userText : String) (system : Option String)
    (maxNewTokens : Int) :
    Option (Turned α) := do
  let turns := (← turnsOf cached) + 1
  match cached with
  | none =>
    let delta := turnTokens backend userText system true
    let kv0 ← backend.prefill (delta.take 1)
    let (respTokens, grown) ← backend.generateAndExtend kv0 (delta.drop 1) maxNewTokens
    return { text := clean (backend.detokenize respTokens)
             turns := turns
             prefillDeltaTokens := (delta.drop 1).length + 1
             statelessWouldPrefill := delta.length
             delta := delta
             respTokens := respTokens
             newKV := { grown with metadata := grown.metadata.set "turns" (.int turns) } }
  | some kv =>
    let delta := turnTokens backend userText none false
    let (respTokens, grown) ← backend.generateAndExtend kv delta maxNewTokens
    return { text := clean (backend.detokenize respTokens)
             turns := turns
             prefillDeltaTokens := delta.length
             statelessWouldPrefill := kv.seqLen + delta.length
             delta := delta
             respTokens := respTokens
             newKV := { grown with metadata := grown.metadata.set "turns" (.int turns) } }

def Turned.info (t : Turned α) (sessionId : String) (resumed : Bool) (stateBytes : Nat) :
    SessionInfo :=
  { sessionId := sessionId
    turns := t.turns
    contextTokens := t.newKV.seqLen
    prefillDeltaTokens := t.prefillDeltaTokens
    statelessWouldPrefill := t.statelessWouldPrefill
    resumed := resumed
    stateBytes := stateBytes }

end Turn

namespace SessionManager

variable {σ α : Type} (c : Config σ α)

/-- `_get`: the cache, and whether it was restored from the store. -/
def get (s : SessionManager σ α) (id : String) :
    Option (Option (KVCache α) × Bool × SessionManager σ α) :=
  match s.resident.get? id with
  | some kv => some (some kv, false, { s with resident := s.resident.moveToEnd id })
  | none =>
    if c.persist && c.store.has s.store id then do
      let kv ← c.store.load s.store id
      return (some kv, true, { s with resident := s.resident.set id kv })
    else some (none, false, s)

/-- `_put`. -/
def put (s : SessionManager σ α) (id : String) (kv : KVCache α) : Nat × SessionManager σ α :=
  let resident := (s.resident.set id kv).moveToEnd id
  let (nbytes, store) := if c.persist then c.store.save s.store id kv else (0, s.store)
  (if nbytes ≠ 0 then nbytes else kv.nbytes 4,
    { resident := resident.trim c.keepResident, store := store })

def turn (s : SessionManager σ α) (id userText : String) (system : Option String)
    (maxNewTokens : Int) :
    Option (String × SessionInfo) × SessionManager σ α :=
  match s.get c id with
  | none => (none, s)
  | some (cached, resumed, s) =>
    match respond c.backend cached userText system maxNewTokens with
    | none => (none, s)
    | some turned =>
      let (stateBytes, s) := s.put c id turned.newKV
      (some (turned.text, turned.info id resumed stateBytes), s)

def exists? (s : SessionManager σ α) (id : String) : Bool :=
  s.resident.contains id || (c.persist && c.store.has s.store id)

def drop (s : SessionManager σ α) (id : String) : SessionManager σ α :=
  { resident := s.resident.erase id, store := if c.persist then c.store.delete s.store id else s.store }

end SessionManager

inductive Op where
  | turn (id userText : String) (system : Option String) (maxNewTokens : Int)
  | exists? (id : String)
  | drop (id : String)
  /-- a fresh manager on the same store -/
  | restart
  deriving DecidableEq, Repr

inductive Reply where
  | turned (text : String) (info : SessionInfo)
  | present (found : Bool)
  | dropped
  | restarted
  | raised
  deriving DecidableEq, Repr

namespace SessionManager

variable {σ α : Type} (c : Config σ α)

def step (s : SessionManager σ α) : Op → Reply × SessionManager σ α
  | .turn id userText system maxNewTokens =>
    match s.turn c id userText system maxNewTokens with
    | (none, s) => (.raised, s)
    | (some (text, info), s) => (.turned text info, s)
  | .exists? id => (.present (s.exists? c id), s)
  | .drop id => (.dropped, s.drop c id)
  | .restart => (.restarted, { s with resident := .empty })

def machine : Machine (SessionManager σ α) Op Reply := ⟨step c⟩

end SessionManager

end Dexa.Serving
