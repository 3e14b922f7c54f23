import Dexa.Lib.Machine
import Dexa.Platform.SessionTiering

/-! # The session service (`dexa_platform/sessions/store.py`, `service.py`, `backend.py`)

Sessions are objects that the store finds by id and that a turn keeps hold of: a turn reads its
session, awaits the backend and records into the object it read, whether or not the store still
has it.  So the store is a list of objects and a dictionary into it, and a turn is two steps
with the local variables of its handler (a `Flight`) in between.

A handler's segment reads the clock once.  The backend answers with a text or `null`.
-/

namespace Dexa.Platform.Sessions

open Dexa.Lib
open Dexa.Edge (Tier)

def partLength (part : Json) : Except Raised Nat := do
  match ← part.get "type" with
  | some (.str "text") => (← part.getD "text" (.str "")).len
  | _ => return 0

def contentLength (m : Json) : Except Raised Nat := do
  match ← m.getD "content" (.str "") with
  | .str s => return s.length
  | .arr parts => parts.foldlM (fun n part => do return n + (← partLength part)) 0
  | _ => return 0

def estTokens (messages : List Json) : Except Raised Nat := do
  let n ← messages.foldlM (fun n m => do return n + (← contentLength m)) 0
  return max 1 (n / 4)

def message (role : String) (content : Json) : Json :=
  .obj [("role", .str role), ("content", content)]

/-- The content of a reply. -/
def replyContent (text : Option String) : Json :=
  match text with
  | some s => .str s
  | none => .null

structure Session where
  id : String
  model : String
  messages : List Json
  turns : Nat := 0
  tokens : Nat := 0
  tier : Tier := .warm
  savedUsd : ℚ := 0
  savedMs : ℚ := 0
  lastActive : ℚ

/-- `Session.public`. -/
structure Public where
  id : String
  model : String
  turns : Nat
  tokens : Nat
  tier : Tier
  idleS : ℚ
  savedUsd : ℚ
  savedMs : ℚ
  messages : Nat

namespace Session

def toPublic (s : Session) (now : ℚ) : Public :=
  { id := s.id, model := s.model, turns := s.turns, tokens := s.tokens, tier := s.tier
    idleS := pyRound 1 (now - s.lastActive), savedUsd := pyRound 6 s.savedUsd, savedMs :=
      pyRound 1 s.savedMs
    messages := s.messages.length }

/-- `record_turn`: an exception of `est_tokens` comes after the messages are appended. -/
def recordTurn (s : Session) (userMsg assistantMsg : Json) (tier : Tier) (saved : EstimatedSavings)
    (now : ℚ) :
    Except Raised Unit × Session :=
  let s := { s with messages := s.messages ++ [userMsg, assistantMsg], turns := s.turns + 1 }
  match estTokens s.messages with
  | .error e => (.error e, s)
  | .ok tokens =>
    (.ok (),
      { s with tokens, tier, savedUsd := s.savedUsd + saved.savedUsd, savedMs := s.savedMs + saved.savedMs,
                      lastActive := now })

end Session

structure CreateIn where
  model : String := "dexa-cua-vlm"
  system : Option String := none
  context : Option String := none

/-- The messages `create` starts a session with. -/
def initMessages (body : CreateIn) : List Json :=
  (match body.system.filter (· ≠ "") with
    | some system => [message "system" (.str system)]
    | none => []) ++
  match body.context.filter (· ≠ "") with
    | some context => [message "user" (.str context),
        message "assistant" (.str "Context loaded. Ready.")]
    | none => []

/-- `SessionStore.create`. -/
def newSession (id : String) (body : CreateIn) (now : ℚ) : Except Raised Session := do
  let messages := initMessages body
  let tokens ← estTokens messages
  return { id, model := body.model, messages, tokens, lastActive := now }

/-- What `run_turn` gets from the backend: the content of the first choice, which is a text or
    null, and the latency, or an exception. -/
inductive BackendReply where
  | content (text : Option String) (latencyMs : ℚ)
  | raised

structure TurnResult where
  content : Option String
  latencyMs : ℚ
  warm : Bool

/-- The request of `run_turn`, without its constants. -/
structure BackendCall where
  messages : List Json

/-- `run_turn`, once the backend has answered. -/
def runTurn (reply : BackendReply) (firstTouch : Bool) : Option TurnResult :=
  match reply with
  | .content text latencyMs => some { content := text, latencyMs, warm := !firstTouch }
  | .raised => none

/-- The local variables of a turn that awaits the backend; `obj` is the session it read. -/
structure Flight where
  obj : Nat
  userMsg : Json
  full : List Json
  tokens : Nat
  firstTouch : Bool
  idleS : ℚ
  decision : Decision

/-- The turn of a session, up to the call of the backend. -/
def Session.beginTurn (s : Session) (obj : Nat) (content : String) (now : ℚ) :
    Except Raised Flight := do
  let idleS := now - s.lastActive
  let userMsg := message "user" (.str content)
  let full := s.messages ++ [userMsg]
  let tokens ← estTokens full
  return { obj, userMsg, full, tokens, firstTouch := s.turns == 0, idleS, decision := decideTier idleS tokens }

/-- `round(x)` of a break-even. -/
def roundBreakeven (x : WithTop ℚ) : WithTop Int := x.map roundHalfEven

structure TurnReply where
  content : Option String
  session : Public
  warm : Bool
  state : String
  latencyMs : ℚ
  contextTokens : Nat
  tier : Tier
  idleS : ℚ
  reason : String
  breakevensS : WithTop Int × WithTop Int × WithTop Int
  savings : EstimatedSavings

def Flight.reply (f : Flight) (res : TurnResult) (saved : EstimatedSavings) (s : Session)
    (now : ℚ) : TurnReply :=
  let be := f.decision.breakevens
  { content := res.content, session := s.toPublic now, warm := res.warm
    state := if res.warm then "restored (warm)" else "prefilled (cold)"
    latencyMs := pyRound 1 res.latencyMs, contextTokens := f.tokens, tier :=
      f.decision.tier, idleS := pyRound 1 f.idleS
    reason := f.decision.reason
    breakevensS := (roundBreakeven be.warmS, roundBreakeven be.ramS, roundBreakeven be.nvmeS),
      savings := saved }

/-- The sessions there ever were, and the ones the store has by their ids. -/
structure Service where
  objects : List Session := []
  byId : Dict String Nat := ⟨[], List.nodup_nil⟩
  flights : List Flight := []

inductive Event where
  /-- with the id that is drawn -/
  | create (id : String) (body : CreateIn) (now : ℚ)
  | turn (sid : String) (content : String) (now : ℚ)
  /-- the backend answers the flight at this index -/
  | reply (i : Nat) (reply : BackendReply) (now : ℚ)
  | get (sid : String) (now : ℚ)
  | list (now : ℚ)
  | delete (sid : String)

inductive Reply where
  | session (p : Public)
  | sessions (ps : List Public)
  | notFound
  | deleted (sid : String)
  /-- no response yet: the backend was called -/
  | awaits (call : BackendCall)
  | turn (t : TurnReply)
  /-- 502 -/
  | backendError
  | raised (e : Raised)

namespace Service

/-- `SessionStore.get`, with the object's place. -/
def get (s : Service) (sid : String) : Option (Nat × Session) :=
  (s.byId.get? sid).bind fun obj => (s.objects[obj]?).map fun session => (obj, session)

/-- `SessionStore.list`. -/
def sessions (s : Service) : List Session := s.byId.values.filterMap (s.objects[·]?)

def create (s : Service) (id : String) (body : CreateIn) (now : ℚ) : Reply × Service :=
  match newSession id body now with
  | .error e => (.raised e, s)
  | .ok session =>
    (.session (session.toPublic now),
      { s with objects := s.objects ++ [session], byId := s.byId.set id s.objects.length })

def beginTurn (s : Service) (sid content : String) (now : ℚ) : Reply × Service :=
  match s.get sid with
  | none => (.notFound, s)
  | some (obj, session) =>
    match session.beginTurn obj content now with
    | .error e => (.raised e, s)
    | .ok f => (.awaits ⟨f.full⟩, { s with flights := s.flights ++ [f] })

/-- The rest of a turn, once the backend has answered. -/
def finishTurn (s : Service) (i : Nat) (reply : BackendReply) (now : ℚ) : Reply × Service :=
  match s.flights[i]? with
  | none => (.notFound, s)
  | some f =>
    let s := { s with flights := s.flights.eraseIdx i }
    match runTurn reply f.firstTouch, s.objects[f.obj]? with
    | some res, some session =>
      let saved := estimatedSavings f.tokens res.warm
      match session.recordTurn f.userMsg
        (message "assistant" (replyContent res.content)) f.decision.tier saved now with
      | (.error e, session) => (.raised e, { s with objects := s.objects.set f.obj session })
      | (.ok (), session) => (.turn (f.reply res saved session now),
          { s with objects := s.objects.set f.obj session })
    | _, _ => (.backendError, s)

def step (s : Service) : Event → Reply × Service
  | .create id body now => s.create id body now
  | .turn sid content now => s.beginTurn sid content now
  | .reply i reply now => s.finishTurn i reply now
  | .get sid now =>
    match s.get sid with
    | none => (.notFound, s)
    | some (_, session) => (.session (session.toPublic now), s)
  | .list now => (.sessions (s.sessions.map (·.toPublic now)), s)
  | .delete sid => if (s.byId.get? sid).isSome then (.deleted sid, { s with byId := s.byId.erase sid }) else (.notFound, s)

end Service

/-- The service and its events, in any order. -/
def service : Machine Service Event Reply := ⟨Service.step⟩

end Dexa.Platform.Sessions
