import Dexa.Edge.Tiering
import Dexa.Lib.Fallible
import Dexa.Lib.Machine
import Dexa.Platform.Values

/-! # A session as a Durable Object (`edge/src/session.ts`)

The object keeps the session under one storage key.  A turn loads it, awaits the backend and
saves it; while storage works no other event runs, while the backend is awaited any may.  So
a turn is two steps, with the local variables of its handler (a `Flight`) in between.

A handler's segment reads the clock once.  Request bodies are what the Worker sends: an
absent field is `none`.
-/

namespace Dexa.Edge

open Dexa.Lib
open Dexa.Platform (Json Raised)

def jsTruthy : Json → Bool
  | .arr _ | .obj _ => true
  | x => x.truthy

/-- `x || y`. -/
def jsOr (x : Option Json) (y : Json) : Json :=
  match x with
  | some v => if jsTruthy v then v else y
  | none => y

/-- `x || y` on strings. -/
def strOr (x : Option String) (y : String) : String := (x.filter (· ≠ "")).getD y

/-- `x ?? y`. -/
def nullish (x : Option Json) (y : Json) : Json :=
  match x with
  | none | some .null => y
  | some v => v

/-- `x.key`. -/
def prop (x : Json) (key : String) : Except Raised (Option Json) :=
  match x with
  | .null => .error .typeError
  | .obj fields => .ok (Dict.lookup key fields)
  | _ => .ok none

/-- `x?.key`. -/
def optProp (x : Option Json) (key : String) : Option Json :=
  match x with
  | some (.obj fields) => Dict.lookup key fields
  | _ => none

/-- `x?.[0]`. -/
def optHead (x : Option Json) : Option Json :=
  match x with
  | some (.arr items) => items.head?
  | some (.str s) => s.toList.head?.map fun c => .str (String.ofList [c])
  | some (.obj fields) => Dict.lookup "0" fields
  | _ => none

/-- `s.length`: UTF-16 code units. -/
def utf16Length (s : String) : Nat := (s.toList.map fun c => if c.toNat > 0xFFFF then 2 else 1).sum

/-- A value added to a number.  A text, an array or an object would turn the sum into a text; it
    counts as `NaN` here. -/
def addend : Option Json → Number
  | some (.num q) => some q
  | some (.bool b) => some (if b then 1 else 0)
  | some .null => some 0
  | _ => none

/-- `(p.text || "").length` of a text part, as it is added to the sum; a text without a length makes
    it `NaN`. -/
def partLength (p : Json) : Number :=
  match optProp (some p) "type" with
  | some (.str "text") =>
    match jsOr (optProp (some p) "text") (.str "") with
    | .str s => some (utf16Length s)
    | .arr items => some items.length
    | .obj fields => addend (Dict.lookup "length" fields)
    | _ => none
  | _ => some 0

def contentLength (m : Json) : Except Raised Number := do
  match ← prop m "content" with
  | some (.str s) => return some (utf16Length s)
  | some (.arr parts) => return parts.foldl (fun n p => Number.add n (partLength p)) (some 0)
  | _ => return some 0

/-- `estTokens`, of anything that is passed as the messages. -/
def estTokens (messages : Option Json) : Except Raised Number := do
  let items ← match messages with
    | some (.arr items) => pure items
    | some (.str s) => pure (s.toList.map fun c => .str (String.ofList [c]))
    | _ => throw .typeError
  let n ← items.foldlM (fun n m => do return Number.add n (← contentLength m)) (some 0)
  return n.map fun n => max 1 (n / 4).floor

theorem contentLength_obj (fields : List (String × Json)) :
    ∃ n, contentLength (.obj fields) = .ok n := by
  simp only [contentLength, prop, bind, Except.bind]
  split
  all_goals exact ⟨_, rfl⟩

/-- Messages that are objects can be counted. -/
theorem estTokens_ok {items : List Json} (objects : ∀ m ∈ items, ∃ fields, m = .obj fields) :
    ∃ n, estTokens (some (.arr items)) = .ok n := by
  have counts : ∀ start : Number, ∃ n,
      items.foldlM (fun n m => do return Number.add n (← contentLength m)) start =
        (.ok n : Except Raised Number) := by
    induction items with
    | nil => exact fun start => ⟨start, rfl⟩
    | cons m rest ih =>
      intro start
      obtain ⟨fields, rfl⟩ := objects m List.mem_cons_self
      obtain ⟨length, counted⟩ := contentLength_obj fields
      obtain ⟨n, tail⟩ :=
        ih (fun m' member => objects m' (List.mem_cons_of_mem _ member)) (Number.add start length)
      refine ⟨n, ?_⟩
      rw [List.foldlM_cons, counted]
      exact tail
  obtain ⟨n, counted⟩ := counts (some 0)
  refine ⟨n.map fun n => max 1 (n / 4).floor, ?_⟩
  simp only [estTokens, pure_bind, counted]
  rfl

structure Env where
  gpuBackendUrl : String
  backendModel : String
  deriving DecidableEq, Repr

def sampleEnv : Env := ⟨"https://gpu", "dexa-cua-vlm"⟩

structure State where
  orgId : String
  model : Json
  backendUrl : String
  backendModel : String
  messages : List Json
  turns : Nat
  tokens : Number
  tier : Tier
  savedUsd : Number
  savedMs : Number
  lastActive : ℚ

structure InitBody where
  orgId : String
  model : Json
  system : Option Json
  context : Option Json
  backendUrl : String
  backendModel : String

/-- The bodies of `/turn` and `/forward`. -/
structure TurnBody where
  content : Option Json := none
  messages : Option Json := none
  orgId : Option String := none
  model : Option Json := none
  backendUrl : Option String := none
  backendModel : Option String := none

def message (role : String) (content : Json) : Json :=
  .obj [("role", .str role), ("content", content)]

def initMessages (b : InitBody) : List Json :=
  (match b.system.filter jsTruthy with
    | some system => [message "system" system]
    | none => []) ++
  match b.context.filter jsTruthy with
    | some context => [message "user" context, message "assistant" (.str "Context loaded. Ready.")]
    | none => []

theorem initMessages_objects (b : InitBody) : ∀ m ∈ initMessages b, ∃ fields, m = .obj fields := by
  intro m member
  cases List.mem_append.1 member with
  | inl system =>
    cases given : b.system.filter jsTruthy with
    | none => simp [given] at system
    | some content => exact ⟨_, by simpa [given, message] using system⟩
  | inr context =>
    cases given : b.context.filter jsTruthy with
    | none => simp [given] at context
    | some content =>
      simp only [given, List.mem_cons, List.not_mem_nil, or_false] at context
      cases context with
      | inl user => exact ⟨_, user⟩
      | inr assistant => exact ⟨_, assistant⟩

/-- The session `/init` saves. -/
def initState (env : Env) (b : InitBody) (now : ℚ) : Except Raised State := do
  let messages := initMessages b
  let tokens ← estTokens (some (.arr messages))
  return { orgId := b.orgId, model := jsOr (some b.model) (.str env.backendModel)
           backendUrl := strOr (some b.backendUrl) env.gpuBackendUrl
           backendModel := strOr (some b.backendModel) env.backendModel
           messages, turns := 0, tokens, tier := .warm, savedUsd := some 0, savedMs :=
             some 0, lastActive := now }

theorem initState_ok (env : Env) (b : InitBody) (now : ℚ) :
    ∃ st, initState env b now = .ok st ∧
      st.backendUrl = strOr (some b.backendUrl) env.gpuBackendUrl := by
  obtain ⟨tokens, counted⟩ := estTokens_ok (initMessages_objects b)
  refine ⟨_, by rw [initState, counted]; rfl, rfl⟩

/-- The session a turn starts from when there is none. -/
def autoInit (env : Env) (b : TurnBody) (now : ℚ) : State :=
  { orgId := strOr b.orgId "anon", model := jsOr b.model (.str env.backendModel)
    backendUrl := strOr b.backendUrl env.gpuBackendUrl
    backendModel := strOr b.backendModel env.backendModel
    messages := [], turns := 0, tokens := some 0, tier := .warm, savedUsd := some 0, savedMs :=
      some 0, lastActive := now }

/-- `publicOf`. -/
structure Public where
  id : String
  model : Json
  turns : Nat
  tokens : Number
  tier : Tier
  idleS : ℚ
  savedUsd : Number
  savedMs : Number
  messages : Nat

def publicOf (s : State) (id : String) (now : ℚ) : Public :=
  { id, model := s.model, turns := s.turns, tokens := s.tokens, tier := s.tier
    idleS := toFixed 1 ((now - s.lastActive) / 1000), savedUsd := s.savedUsd.map (toFixed 6)
    savedMs := s.savedMs.map mathRound, messages := s.messages.length }

/-! ## A turn -/

/-- A message to an inference backend. -/
structure BackendCall where
  url : String
  payload : Json

/-- What `fetch` and `resp.json()` give: a JSON body, a status that is not ok, or an
    exception. -/
inductive BackendReply where
  | ok (data : Json)
  | status (code : Nat)
  | raised

/-- The local variables of a turn that awaits the backend. -/
structure Flight where
  s : State
  accumulate : Bool
  userMsg : Json
  full : Json
  tokens : Number
  firstTouch : Bool
  idleS : ℚ
  decision : Decision
  t0 : ℚ
  /-- how many writes the storage had seen when the session was loaded -/
  seen : Nat

def Flight.call (f : Flight) : BackendCall :=
  { url := f.s.backendUrl ++ "/v1/chat/completions"
    payload :=
      .obj [("model", .str f.s.backendModel), ("messages", f.full), ("max_tokens", .num 16),
        ("temperature", .num 0)] }

/-- `/turn` (`accumulate`) and `/forward`, up to the call of the backend. -/
def beginTurn (env : Env) (stored : Option State) (accumulate : Bool) (b : TurnBody) (now : ℚ)
    (seen : Nat) :
    Except Raised Flight := do
  let s := stored.getD (autoInit env b now)
  let userMsg := message "user" (nullish b.content (.str ""))
  let full := if accumulate then some (.arr (s.messages ++ [userMsg])) else b.messages
  let tokens ← estTokens full
  let idleS := (now - s.lastActive) / 1000
  return { s, accumulate, userMsg, full := full.getD .null, tokens, firstTouch := s.turns == 0, idleS
           decision := decideTier idleS tokens, t0 := now, seen }

theorem beginTurn_ok {env : Env} {stored : Option State} {accumulate : Bool} {b : TurnBody}
    {now : ℚ} {seen : Nat}
    {f : Flight} (begun : beginTurn env stored accumulate b now seen = .ok f) :
    f.s = stored.getD (autoInit env b now) ∧ f.accumulate = accumulate ∧ f.seen = seen := by
  obtain ⟨tokens, -, result⟩ := Fallible.ok_of_bind begun
  obtain rfl := Except.ok.inj result
  exact ⟨rfl, rfl, rfl⟩

/-- `data?.choices?.[0]?.message?.content ?? ""`. -/
def replyContent (data : Json) : Json :=
  nullish (optProp (optProp (optHead (optProp (some data) "choices")) "message") "content")
    (.str "")

structure Meter where
  orgId : String
  warm : Bool
  savedUsd : Number
  savedMs : Number

structure TurnReply where
  content : Json
  session : Public
  warm : Bool
  latencyMs : ℚ
  contextTokens : Number
  decision : Decision
  idleS : ℚ
  savings : EstimatedSavings
  meter : Meter

/-- The session a successful turn saves. -/
def Flight.saved (f : Flight) (data : Json) (now : ℚ) : State :=
  let savings := estimatedSavings f.tokens (!f.firstTouch)
  { f.s with
    messages :=
      if f.accumulate then f.s.messages ++ [f.userMsg, message "assistant" (replyContent data)]
        else f.s.messages
    turns := f.s.turns + 1
    tokens := f.tokens
    tier := f.decision.tier
    savedUsd := Number.add f.s.savedUsd savings.savedUsd
    savedMs := Number.add f.s.savedMs savings.savedMs
    lastActive := now }

def Flight.reply (f : Flight) (id : String) (data : Json) (now : ℚ) : TurnReply :=
  let warm := !f.firstTouch
  let savings := estimatedSavings f.tokens warm
  { content := replyContent data, session := publicOf (f.saved data now) id now, warm, latencyMs := now - f.t0
    contextTokens := f.tokens, decision := f.decision, idleS := toFixed 1 f.idleS, savings
    meter := ⟨f.s.orgId, warm, savings.savedUsd, savings.savedMs⟩ }

/-! ## The object -/

structure SessionObject where
  id : String
  stored : Option State := none
  flights : List Flight := []
  /-- the writes the storage has seen -/
  writes : Nat := 0

inductive Request where
  | init (b : InitBody)
  | info
  | delete
  | turn (b : TurnBody)
  | forward (b : TurnBody)

inductive Event where
  | request (r : Request) (now : ℚ)
  /-- the backend answers the flight at this index -/
  | reply (i : Nat) (outcome : BackendReply) (now : ℚ)

inductive Reply where
  | session (p : Public)
  | notFound
  | deleted
  /-- no response yet: the backend was called -/
  | awaits (call : BackendCall)
  | turn (t : TurnReply)
  | backendError (code : Nat)
  | raised

namespace SessionObject

def beginTurn (env : Env) (o : SessionObject) (accumulate : Bool) (b : TurnBody) (now : ℚ) :
    Reply × SessionObject :=
  match Dexa.Edge.beginTurn env o.stored accumulate b now o.writes with
  | .error _ => (.raised, o)
  | .ok f => (.awaits f.call, { o with flights := o.flights ++ [f] })

def handle (env : Env) (o : SessionObject) (r : Request) (now : ℚ) : Reply × SessionObject :=
  match r with
  | .init b =>
    match initState env b now with
    | .error _ => (.raised, o)
    | .ok s => (.session (publicOf s o.id now), { o with stored := some s, writes := o.writes + 1 })
  | .info =>
    match o.stored with
    | none => (.notFound, o)
    | some s => (.session (publicOf s o.id now), o)
  | .delete => (.deleted, { o with stored := none, writes := o.writes + 1 })
  | .turn b => o.beginTurn env true b now
  | .forward b => o.beginTurn env false b now

/-- The rest of a turn, once the backend has answered. -/
def finishTurn (o : SessionObject) (i : Nat) (outcome : BackendReply) (now : ℚ) :
    Reply × SessionObject :=
  match o.flights[i]? with
  | none => (.raised, o)
  | some f =>
    let o := { o with flights := o.flights.eraseIdx i }
    match outcome with
    | .raised => (.raised, o)
    | .status code => (.backendError code, o)
    | .ok data =>
      (.turn (f.reply o.id data now),
        { o with stored := some (f.saved data now), writes := o.writes + 1 })

def step (env : Env) (o : SessionObject) : Event → Reply × SessionObject
  | .request r now => o.handle env r now
  | .reply i outcome now => o.finishTurn i outcome now

end SessionObject

/-- One object and its events, in any order the input gate allows. -/
def sessionDO (env : Env) : Machine SessionObject Event Reply := ⟨SessionObject.step env⟩

end Dexa.Edge
