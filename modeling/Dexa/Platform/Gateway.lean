import Dexa.Lib.Text
import Dexa.Platform.Pricing
import Dexa.Platform.Resolver

/-! # The gateway in accounts mode (`dexa_platform/gateway/app.py`)

`chatCompletions` handles one request of `POST /v1/chat/completions`: it resolves the key,
checks the credit, flattens the messages, observes the last image, answers from the cache,
the mock or the backend, and meters the cost.  What the handler takes from outside the
process (clocks, the backend's reply) is an argument; what it sends to the backend is part
of the result.  An exception that escapes leaves the state as it was when it was raised.
-/

namespace Dexa.Platform

open Dexa.Lib

/-- Header names are lower case; a body that is not JSON is `none`. -/
structure Request where
  headers : Dict String String := Dict.empty
  body : Option Json

/-- What `httpx` gives back: a JSON reply, an `HTTPError`, or any other exception. -/
inductive BackendOutcome where
  | reply (resp : Json)
  | httpError (message : String)
  | raised

/-- The monotonic clock, the wall clock, the UTC date and the backend, as this request
    finds them. -/
structure Outside where
  now : ℚ
  created : Nat
  today : String
  backend : BackendOutcome

structure DexaHeaders where
  costUsd : ℚ
  baselineUsd : ℚ
  savedUsd : ℚ
  savedPct : ℚ
  xCheaper : Option ℚ
  screenRedundancyPct : ℚ
  cacheHit : Bool
  baselineModel : String
  tenant : String
  deriving DecidableEq

/-- The response that the handler builds. -/
inductive Response where
  | json (status : Nat) (body : Json) (headers : Option DexaHeaders)
  /-- an exception escaped the handler -/
  | internalError

/-- Whether a response says that it was served from the cache; an error says nothing. -/
def Response.fromCache : Response → Option Bool
  | .json _ _ (some headers) => some headers.cacheHit
  | _ => none

/-- Whether a text can be a header. -/
def latin1 (s : String) : Bool := s.toList.all (·.toNat < 256)

/-- What the caller receives: `JSONResponse` encodes the headers in Latin-1, and raises on a
    tenant's name that has other characters, when the request is cached and metered already.  It
    also raises on a body with `NaN` or a lone surrogate, which `Json` has not. -/
def Response.sent : Response → Response
  | .json status body (some headers) =>
    if latin1 headers.tenant then .json status body (some headers) else .internalError
  | response => response

/-- The response, and the URL and payload of the backend call if one was made. -/
structure Handled where
  response : Response
  forwarded : Option (String × Json) := none

def Response.invalidKey : Response :=
  .json 401 (.obj [("error", .obj [("message", .str "invalid or missing API key"),
    ("type", .str "invalid_request_error"), ("code", .str "invalid_api_key")])]) none

def Response.insufficientQuota : Response :=
  .json 402 (.obj [("error", .obj
    [("message", .str "free credit exhausted — add a payment method to continue"),
    ("type", .str "insufficient_quota"), ("code", .str "insufficient_quota")])]) none

def Response.backendError (message : String) : Response :=
  .json 502 (.obj [("error", .obj
    [("message", .str ("backend error: " ++ message)), ("type", .str "backend_error")])]) none

/-- `_tok_estimate`, of a text of this length. -/
def tokEstimate (length : Nat) : Nat := max 1 ((length + 3) / 4)

/-- `_bearer`. -/
def bearer (req : Request) : Option String :=
  let auth := ((req.headers.get? "authorization").getD "").toList
  if (auth.take 7).map Char.toLower = "bearer ".toList then
    some (String.ofList (strip (auth.drop 7)))
  else req.headers.get? "x-api-key"

/-- The group `_DATA_URI` captures. -/
def dataUri (url : List Char) : Option (List Char) :=
  if "data:image/".toList.isPrefixOf url then
    let rest := url.drop "data:image/".length
    let media := rest.takeWhile (· ≠ ';')
    let tail := rest.drop media.length
    if media ≠ [] ∧ ";base64,".toList.isPrefixOf tail then some (tail.drop ";base64,".length)
      else none
  else none

/-- `_img_dims`. -/
def imgDims (rt : Runtime) (raw : Bytes) : Nat × Nat := (rt.imageSize raw).getD (1280, 800)

structure Extracted where
  dims : List (Nat × Nat) := []
  allBytes : List Bytes := []
  textParts : List Json := []

def Extracted.addImage (rt : Runtime) (acc : Extracted) (url : String) : Extracted :=
  match (dataUri url.toList).bind b64decode with
  | some raw => { acc with allBytes := acc.allBytes ++ [raw], dims := acc.dims ++ [imgDims rt raw] }
  -- a remote URL, or base64 that does not decode: assume a typical screen
  | none => { acc with dims := acc.dims ++ [(1280, 800)] }

/-- `x or default`. -/
def pyOr (x : Option Json) (default : Json) : Json :=
  match x with
  | some v => if v.truthy then v else default
  | none => default

def isStr (x : Option Json) (s : String) : Bool :=
  match x with
  | some (.str t) => t == s
  | _ => false

def extractPart (rt : Runtime) (acc : Extracted) (part : Json) : Except Raised Extracted := do
  let t ← part.get "type"
  if isStr t "text" then
    let text ← part.getD "text" (.str "")
    return { acc with textParts := acc.textParts ++ [text] }
  else if isStr t "image_url" then
    let url ← (pyOr (← part.get "image_url") (.obj [])).getD "url" (.str "")
    match url with
    | .str url => return acc.addImage rt url
    | _ => throw .typeError
  else return acc

def extractMessage (rt : Runtime) (acc : Extracted) (m : Json) : Except Raised Extracted := do
  let c ← m.get "content"
  match c with
  | some (.str text) => return { acc with textParts := acc.textParts ++ [.str text] }
  | _ => (← (pyOr c (.arr [])).iter).foldlM (extractPart rt) acc

/-- `_extract`: image dimensions, image bytes, and all text joined by newlines. -/
def extract (rt : Runtime) (messages : Json) :
    Except Raised (List (Nat × Nat) × List Bytes × String) := do
  let acc ← (← messages.iter).foldlM (extractMessage rt) {}
  let text ← pyJoin "\n" acc.textParts
  return (acc.dims, acc.allBytes, text)

/-- What the handler takes from a request. -/
structure Reading where
  body : Json
  rawSession : Json
  session : String
  baseline : Pricing.Model
  dims : List (Nat × Nat)
  imgBytes : List Bytes
  text : String

/-- `f"{x}"`. -/
def pyStr (rt : Runtime) : Json → String
  | .str s => s
  | x => rt.str x

def rawSessionOf (req : Request) (body : Json) : Except Raised Json :=
  match (req.headers.get? "x-dexa-session").filter (· ≠ "") with
  | some header => .ok (.str header)
  | none => (body.get "user").map fun user => pyOr user (.str "default")

/-- The key of a session in the meter and in the cache. -/
def sessionKey (tenantName rawSession : String) : String := tenantName ++ "/" ++ rawSession

def baselineOf (tenant : Tenant) (req : Request) : Pricing.Model :=
  (Pricing.modelOfName
    ((req.headers.get? "x-dexa-baseline").getD tenant.defaultBaseline)).getD .gpt4o

def readRequest (rt : Runtime) (tenant : Tenant) (req : Request) : Except Raised Reading := do
  let body ← req.body.elim (throw .valueError) pure
  let rawSession ← rawSessionOf req body
  let messages ← body.getD "messages" (.arr [])
  let (dims, imgBytes, text) ← extract rt messages
  return { body, rawSession, session := sessionKey tenant.name (pyStr rt rawSession), baseline := baselineOf tenant req,
           dims, imgBytes, text }

def Reading.textHash (rt : Runtime) (r : Reading) : String := rt.sha256 (encode r.text)

def Reading.imgHash (rt : Runtime) (r : Reading) : String :=
  match r.imgBytes.getLast? with
  | some img => rt.sha256 img
  | none => ""

/-! ## Answering -/

structure Cached where
  imgHash : String
  textHash : String
  resp : Json

structure Gateway where
  db : ControlDb
  resolver : ResolverCache := Dict.empty
  meter : RedundancyMeter := {}
  cache : Dict String Cached := Dict.empty

/-- `_mock_completion`. -/
def mockCompletion (model : String) (prompt : String) (created : Nat) : Json :=
  let reply := "CLICK(640, 384)"
  .obj [("id", .str "chatcmpl-dexa-mock"), ("object", .str "chat.completion"),
    ("created", .num created),
    ("model", .str model),
    ("choices", .arr [.obj [("index", .num 0), ("finish_reason", .str "stop"),
      ("message", .obj [("role", .str "assistant"), ("content", .str reply)])]]),
    ("usage", .obj [("prompt_tokens", .num (tokEstimate prompt.length)),
      ("completion_tokens", .num (tokEstimate reply.length)),
      ("total_tokens", .num (tokEstimate prompt.length + tokEstimate reply.length : Nat))])]

/-- The payload `_forward` posts: the body with the tenant's model, not streamed. -/
def forwardPayload (tenant : Tenant) (body : Json) : Except Raised Json := do
  (← body.setItem "model" (.str tenant.backendModel)).setItem "stream" (.bool false)

/-- How the completion came about. -/
inductive Answer where
  | cached (resp : Json)
  | completed (resp : Json)
  | backendError (message : String)
  | raised

/-- The cache, the mock or the backend, in the handler's order. -/
def answer (rt : Runtime) (tenant : Tenant) (r : Reading) (io : Outside) (exactDup : Bool)
    (prev : Option Cached) : Answer × Option (String × Json) :=
  match prev.filter fun c => exactDup && c.imgHash == r.imgHash rt &&
    c.textHash == r.textHash rt with
  | some c => (.cached c.resp, none)
  | none =>
    if tenant.usesMock then (.completed (mockCompletion "dexa-cua-vlm" r.text io.created), none)
    else
      match forwardPayload tenant r.body with
      | .error _ => (.raised, none)
      | .ok payload =>
        let call := some (tenant.backendUrl ++ "/v1/chat/completions", payload)
        match io.backend with
        | .reply resp => (.completed resp, call)
        | .httpError message => (.backendError message, call)
        | .raised => (.raised, call)

/-- The completion tokens the reply reports, or an estimate from its content. -/
def outTokens (resp : Json) : Except Raised ℚ := do
  let reported := pyOr (← (pyOr (← resp.get "usage") (.obj [])).get "completion_tokens") .null
  if reported.truthy then reported.number
  else
    let message ← (← (← resp.item "choices").head).item "message"
    return tokEstimate (← (pyOr (← message.get "content") (.str "")).len)

def savingsOf (r : Reading) (out : ℚ) (cacheHit : Bool) : Pricing.Savings :=
  let saved := Pricing.compare r.dims (tokEstimate r.text.length) out r.baseline
  if cacheHit then saved.fromCache else saved

def usageOf (saved : Pricing.Savings) (redundant : ℚ) (cacheHit : Bool) : Metering.Usage :=
  { dexaUsd := saved.ours.usd, baselineUsd := saved.baseline.usd, savedUsd := saved.savedUsd,
    dexaImageTokens := saved.ours.imageTokens, baselineImageTokens := saved.baseline.imageTokens,
    redundantFrac := redundant, cacheHit }

/-- The `dexa` object of the response body. -/
def infoOf (tenant : Tenant) (r : Reading) (saved : Pricing.Savings) (redundant : ℚ)
    (cacheHit : Bool) : Json :=
  .obj (saved.asDict ++ [("tenant", .str tenant.name), ("mode", .str tenant.mode.name),
    ("session", r.rawSession),
    ("screen_redundancy_pct", .num (pyRound 1 (100 * redundant))),
      ("served_from_cache", .bool cacheHit)])

def headersOf (tenant : Tenant) (r : Reading) (saved : Pricing.Savings) (redundant : ℚ)
    (cacheHit : Bool) : DexaHeaders :=
  { costUsd := pyRound 8 saved.ours.usd, baselineUsd := pyRound 8 saved.baseline.usd,
    savedUsd := pyRound 8 saved.savedUsd, savedPct := pyRound 1 saved.savedPct,
    xCheaper := saved.xCheaper.map (pyRound 1), screenRedundancyPct := pyRound 1 (100 * redundant),
    cacheHit, baselineModel := r.baseline.name, tenant := tenant.name }

namespace Gateway

/-- `_cache[session] = ..` where the tenant caches. -/
def store (rt : Runtime) (g : Gateway) (tenant : Tenant) (r : Reading) (resp : Json) : Gateway :=
  if tenant.cacheEnabled then { g with cache := g.cache.set r.session ⟨r.imgHash rt, r.textHash rt, resp⟩ } else g

/-- From `resp["model"] = ..` to the arguments of `JSONResponse`: cache, meter, and report the
    completion.  What goes out is `Response.sent`. -/
def finish (rt : Runtime) (g : Gateway) (p : Principal) (r : Reading) (io : Outside) (redundant : ℚ)
    (resp : Json)
    (cacheHit : Bool) : Response × Gateway :=
  match resp.setItem "model" (.str "dexa-cua-vlm") with
  | .error _ => (.internalError, g)
  | .ok resp =>
    let g := g.store rt p.tenant r resp
    match outTokens resp with
    | .error _ => (.internalError, g)
    | .ok out =>
      let saved := savingsOf r out cacheHit
      let g :=
        { g with db := Metering.record g.db p.orgId p.keyId io.today (usageOf saved redundant cacheHit) }
      match resp.setItem "dexa" (infoOf p.tenant r saved redundant cacheHit) with
      | .error _ => (.internalError, g)
      -- the cache holds the same object, so it sees this assignment too
      | .ok resp => (.json 200 resp (some (headersOf p.tenant r saved redundant cacheHit)),
          g.store rt p.tenant r resp)

/-- From the cache lookup on. -/
def complete (rt : Runtime) (g : Gateway) (p : Principal) (r : Reading) (io : Outside)
    (redundant : ℚ)
    (exactDup : Bool) : Handled × Gateway :=
  let prev := if p.tenant.cacheEnabled then g.cache.get? r.session else none
  match answer rt p.tenant r io exactDup prev with
  | (.cached resp, forwarded) =>
    let (response, g) := g.finish rt p r io redundant resp true
    ({ response, forwarded }, g)
  | (.completed resp, forwarded) =>
    let (response, g) := g.finish rt p r io redundant resp false
    ({ response, forwarded }, g)
  | (.backendError message, forwarded) => ({ response := .backendError message, forwarded }, g)
  | (.raised, forwarded) => ({ response := .internalError, forwarded }, g)

/-- `meter.observe` on the last image, if there is one. -/
def observeLast (rt : Runtime) (m : RedundancyMeter) (r : Reading) :
    Except Raised (ℚ × Bool) × RedundancyMeter :=
  match r.imgBytes.getLast? with
  | none => (.ok (1, false), m)
  | some img =>
    let (obs, m) := m.observe rt r.session img
    (obs.map fun obs => (obs.redundantFrac, obs.exactDuplicate), m)

/-- The handler for an authenticated principal with credit. -/
def serve (rt : Runtime) (g : Gateway) (p : Principal) (req : Request) (io : Outside) :
    Handled × Gateway :=
  match readRequest rt p.tenant req with
  | .error _ => ({ response := .internalError }, g)
  | .ok r =>
    let (obs, meter) := observeLast rt g.meter r
    let g := { g with meter }
    match obs with
    | .error _ => ({ response := .internalError }, g)
    | .ok (redundant, exactDup) => g.complete rt p r io redundant exactDup

/-- `chat_completions`. -/
def chatCompletions (settings : Settings) (rt : Runtime) (g : Gateway) (req : Request)
    (io : Outside) :
    Handled × Gateway :=
  let (principal, resolver) := resolve settings rt g.db g.resolver io.now (bearer req)
  let g := { g with resolver }
  match principal with
  | none => ({ response := .invalidKey }, g)
  | some p =>
    if !Metering.quotaOk g.db p.orgId then ({ response := .insufficientQuota }, g)
      else g.serve rt p req io

end Gateway

/-- The gateway process, fed requests one at a time. -/
def gateway (settings : Settings) (rt : Runtime) : Machine Gateway (Request × Outside) Handled :=
  ⟨fun g e => g.chatCompletions settings rt e.1 e.2⟩

end Dexa.Platform
