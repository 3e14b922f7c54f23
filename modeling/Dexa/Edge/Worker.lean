import Dexa.Edge.SessionDO
import Dexa.Edge.UsageQueue
import Dexa.Platform.Resolver

/-! # The edge Worker (`edge/src/{index,keys,db}.ts`)

The Worker authenticates a request, checks the credit, and routes it to the session object
named `orgId:clientId` or to the inference backend.  The control-plane database has the
Python side's tables.  A request is handled to its end before the next one; what it takes
from outside (the clock, the credit gate's answer, a random id, the backend's reply) comes
with it.
-/

namespace Dexa.Edge

open Dexa.Lib
open Dexa.Platform (ControlDb Json Org Raised looksLikeKey)

structure Tenant where
  orgId : String
  keyId : String
  name : String
  mode : String
  backendUrl : String
  backendModel : String
  deriving DecidableEq, Repr

/-- The tenant of a key of this organisation. -/
def tenantOf (env : Env) (org : Org) (keyId : String) : Tenant :=
  { orgId := org.id, keyId, name := org.name, mode := org.mode.name
    backendUrl :=
      if org.backendUrl ≠ "" then org.backendUrl
      else if org.mode = .hosted then env.gpuBackendUrl else ""
    backendModel := strOr (some org.backendModel) env.backendModel }

def lookupKey (env : Env) (db : ControlDb) (keyHash : String) : Option Tenant :=
  match db.findKey keyHash with
  | none => none
  | some key =>
    if key.revokedAt ≠ none then none
    else (db.orgs.get? key.orgId).map fun org => tenantOf env org key.id

/-- SHA-256 in hex, and `String(x)` of a value that is not a string. -/
structure JsRuntime where
  sha256Hex : String → String
  str : Json → String

/-- What the Worker works on: the database, the key cache and the session objects. -/
structure Worker where
  db : ControlDb
  keys : Dict String (Option Tenant) := Dict.empty
  objects : Dict String SessionObject := Dict.empty

/-- `resolveKey`, with the cache afterwards. -/
def resolveKey (env : Env) (js : JsRuntime) (s : Worker) (secret : Option String) :
    Option Tenant × Dict String (Option Tenant) :=
  match secret.filter (looksLikeKey ·) with
  | none => (none, s.keys)
  | some secret =>
    let hash := js.sha256Hex secret
    match s.keys.get? hash with
    | some cached => (cached, s.keys)
    | none =>
      let tenant := lookupKey env s.db hash
      (tenant, s.keys.set hash tenant)

/-- A request, and what it finds outside.  `body` is `none` where it is not JSON, `credit` is
    what the credit gate answers. -/
structure HttpRequest where
  method : String
  path : String
  secret : Option String
  body : Option Json
  credit : Bool
  now : ℚ
  replied : ℚ
  day : String
  freshId : String
  backend : BackendReply

inductive HttpResponse where
  | health
  | invalidKey
  | insufficientQuota
  | created (sessionId : Json) (r : Reply)
  | object (r : Reply)
  | backend (r : BackendReply)
  | notFound
  | raised

/-- The response, the messages to an inference backend, and the usage event. -/
structure Handled where
  response : HttpResponse
  sent : List BackendCall := []
  usage : Option UsageEvent := none

/-- `String(x)`. -/
def jsString (js : JsRuntime) : Json → String
  | .str s => s
  | x => js.str x

/-- The paths `/v1/sessions/{id}` and, with the flag, `/v1/sessions/{id}/turn`. -/
def sessionPath (p : String) : Option (String × Bool) :=
  if "/v1/sessions/".toList.isPrefixOf p.toList then
    let rest := p.toList.drop "/v1/sessions/".length
    let id := rest.takeWhile (· ≠ '/')
    if id = [] then none
    else if rest.drop id.length = [] then some (String.ofList id, false)
    else if rest.drop id.length = "/turn".toList then some (String.ofList id, true)
    else none
  else none

/-- `{...x, model}`. -/
def spreadModel (x : Json) (model : String) : Json :=
  let fields := match x with
    | .obj fields => fields
    | .arr items => items.mapIdx fun i v => (toString i, v)
    | .str s => s.toList.mapIdx fun i c => (toString i, .str (String.ofList [c]))
    | _ => []
  .obj (Dict.assign "model" (.str model) fields)

/-- What `meterFrom` puts on the queue for a turn. -/
def usageEvent (tenant : Tenant) (day : String) (r : Reply) : Option UsageEvent :=
  match r with
  | .turn t =>
    some { orgId := tenant.orgId, keyId := tenant.keyId, warm := t.meter.warm, savedUsd := t.meter.savedUsd.getD 0,
           savedMs := t.meter.savedMs.getD 0, day }
  | _ => none

namespace Worker

variable (env : Env) (js : JsRuntime)

def object (s : Worker) (name : String) : SessionObject := (s.objects.get? name).getD { id := name }

/-- `callDO`, waited for: a turn that awaits the backend is answered. -/
def callDO (s : Worker) (name : String) (r : Request) (req : HttpRequest) :
    Reply × List BackendCall × Worker :=
  let o := s.object name
  match o.handle env r req.now with
  | (.awaits call, o') =>
    let (reply, o') := o'.finishTurn o.flights.length req.backend req.replied
    (reply, [call], { s with objects := s.objects.set name o' })
  | (reply, o') => (reply, [], { s with objects := s.objects.set name o' })

/-- The name of a client's session object. -/
def ns (tenant : Tenant) (clientId : String) : String := tenant.orgId ++ ":" ++ clientId

/-- `POST /v1/sessions`. -/
def createSession (s : Worker) (tenant : Tenant) (req : HttpRequest) : Handled × Worker :=
  let b := req.body.getD (.obj [])
  match prop b "id" with
  | .error _ => ({ response := .raised }, s)
  | .ok id =>
    let field := optProp (some b)
    let clientId := jsOr id (.str req.freshId)
    let (reply, sent, s) := s.callDO env (ns tenant (jsString js clientId))
      (.init { orgId := tenant.orgId, model := jsOr (field "model") (.str tenant.backendModel), system := field "system"
               context := field "context", backendUrl := tenant.backendUrl, backendModel :=
                 tenant.backendModel }) req
    ({ response := .created clientId reply, sent }, s)

/-- `POST /v1/sessions/{id}/turn`. -/
def sessionTurn (s : Worker) (tenant : Tenant) (id : String) (req : HttpRequest) :
    Handled × Worker :=
  match prop (req.body.getD (.obj [])) "content" with
  | .error _ => ({ response := .raised }, s)
  | .ok content =>
    let (reply, sent, s) :=
      s.callDO env (ns tenant id) (.turn { content, orgId := some tenant.orgId }) req
    ({ response := .object reply, sent, usage := usageEvent tenant req.day reply }, s)

/-- `POST /v1/chat/completions`. -/
def chatCompletions (s : Worker) (tenant : Tenant) (req : HttpRequest) : Handled × Worker :=
  let b := req.body.getD (.obj [])
  match prop b "session" with
  | .error _ => ({ response := .raised }, s)
  | .ok session =>
    match session.filter jsTruthy with
    | some session =>
      let (reply, sent, s) := s.callDO env (ns tenant (jsString js session))
        (.forward { messages := optProp (some b) "messages", orgId := some tenant.orgId
                    backendUrl := some tenant.backendUrl, backendModel :=
                      some tenant.backendModel }) req
      ({ response := .object reply, sent, usage := usageEvent tenant req.day reply }, s)
    | none =>
      -- stateless pass-through
      ({ response := .backend req.backend
         sent := [⟨strOr (some tenant.backendUrl) env.gpuBackendUrl ++ "/v1/chat/completions",
           spreadModel b tenant.backendModel⟩] }, s)

/-- The routes, for an authenticated request with credit. -/
def route (s : Worker) (tenant : Tenant) (req : HttpRequest) : Handled × Worker :=
  if req.path = "/v1/sessions" ∧ req.method = "POST" then s.createSession env js tenant req
  else
    match sessionPath req.path with
    | some (id, true) =>
      if req.method = "POST" then s.sessionTurn env tenant id req
        else ({ response := .notFound }, s)
    | some (id, false) =>
      let call := fun r =>
        let (reply, sent, s) := s.callDO env (ns tenant id) r req
        (({ response := .object reply, sent } : Handled), s)
      if req.method = "GET" then call .info
      else if req.method = "DELETE" then call .delete
      else ({ response := .notFound }, s)
    | none =>
      if req.path = "/v1/chat/completions" ∧
        req.method = "POST" then s.chatCompletions env js tenant req
      else ({ response := .notFound }, s)

/-- `fetch`. -/
def fetch (s : Worker) (req : HttpRequest) : Handled × Worker :=
  if req.path = "/health" then ({ response := .health }, s)
  else
    let (tenant, keys) := resolveKey env js s req.secret
    let s := { s with keys }
    match tenant with
    | none => ({ response := .invalidKey }, s)
    | some tenant =>
      if !req.credit then ({ response := .insufficientQuota }, s) else s.route env js tenant req

end Worker

inductive EdgeEvent where
  | request (req : HttpRequest)
  /-- a cached key expires -/
  | expire (hash : String)
  /-- the control plane changed its tables -/
  | control (db : ControlDb)

def Worker.step (env : Env) (js : JsRuntime) (s : Worker) : EdgeEvent → Handled × Worker
  | .request req => s.fetch env js req
  | .expire hash => ({ response := .notFound }, { s with keys := s.keys.erase hash })
  | .control db => ({ response := .notFound }, { s with db })

def edgeWorker (env : Env) (js : JsRuntime) : Machine Worker EdgeEvent Handled :=
  ⟨Worker.step env js⟩

end Dexa.Edge
