import Dexa.Edge.ByocRouting
import Dexa.Lib.Url

/-! # Which object a session id addresses

A session id reaches the Worker in a body when the session is created and in chats, and in the path
otherwise.  A path is not decoded: an id that has to be encoded there addresses the object of the
encoded id, and one of dots no object at all.
-/

namespace Dexa.Edge

open Dexa.Lib Dexa.Lib.Url
open Dexa.Platform (Json Raised)

variable (env : Env) (js : JsRuntime)

/-- The object a request is handed to, and with what. -/
def addressed (tenant : Tenant) (req : HttpRequest) : Option (String × Request) :=
  let b := req.body.getD (.obj [])
  let field := optProp (some b)
  if req.path = "/v1/sessions" ∧ req.method = "POST" then
    match prop b "id" with
    | .error _ => none
    | .ok id =>
      some (Worker.ns tenant (jsString js (jsOr id (.str req.freshId))),
        .init { orgId := tenant.orgId, model := jsOr (field "model") (.str tenant.backendModel), system := field "system"
                context := field "context", backendUrl := tenant.backendUrl, backendModel :=
                  tenant.backendModel })
  else
    match sessionPath req.path with
    | some (id, true) =>
      if req.method = "POST" then
        match prop b "content" with
        | .error _ => none
        | .ok content => some (Worker.ns tenant id, .turn { content, orgId := some tenant.orgId })
      else none
    | some (id, false) =>
      if req.method = "GET" then some (Worker.ns tenant id, .info)
      else if req.method = "DELETE" then some (Worker.ns tenant id, .delete)
      else none
    | none =>
      if req.path = "/v1/chat/completions" ∧ req.method = "POST" then
        match prop b "session" with
        | .error _ => none
        | .ok session =>
          (session.filter jsTruthy).map fun session =>
            (Worker.ns tenant (jsString js session),
              .forward { messages := field "messages", orgId := some tenant.orgId
                         backendUrl := some tenant.backendUrl, backendModel :=
                           some tenant.backendModel })
      else none

/-- The name of the object a request is handed to. -/
def objectName (tenant : Tenant) (req : HttpRequest) : Option String :=
  (addressed js tenant req).map Prod.fst

/-- The routes change what a call to the addressed object changes, and nothing else. -/
theorem route_addressed (s : Worker) (tenant : Tenant) (req : HttpRequest) :
    (s.route env js tenant req).2 =
      (addressed js tenant req).elim s fun (name, r) => (s.callDO env name r req).2.2 := by
  rw [Worker.route, addressed]
  by_cases create : req.path = "/v1/sessions" ∧ req.method = "POST"
  · rw [if_pos create, if_pos create, Worker.createSession]
    cases prop (req.body.getD (.obj [])) "id" with
    | error e => rfl
    | ok id => rfl
  · rw [if_neg create, if_neg create]
    cases sessionPath req.path with
    | none =>
      by_cases chat : req.path = "/v1/chat/completions" ∧ req.method = "POST"
      · simp only [if_pos chat, Worker.chatCompletions]
        cases prop (req.body.getD (.obj [])) "session" with
        | error e => rfl
        | ok session =>
          dsimp only
          cases session.filter jsTruthy with
          | none => rfl
          | some session => rfl
      · simp only [if_neg chat]
        rfl
    | some target =>
      obtain ⟨id, turn⟩ := target
      cases turn with
      | true =>
        by_cases post : req.method = "POST"
        · simp only [if_pos post, Worker.sessionTurn]
          cases prop (req.body.getD (.obj [])) "content" with
          | error e => rfl
          | ok content => rfl
        · simp only [if_neg post]
          rfl
      | false =>
        by_cases get : req.method = "GET"
        · simp only [if_pos get]
          rfl
        · by_cases delete : req.method = "DELETE"
          · simp only [if_neg get, if_pos delete]
            rfl
          · simp only [if_neg get, if_neg delete]
            rfl

/-- Every other object stays as it is. -/
theorem route_frame (s : Worker) (tenant : Tenant) (req : HttpRequest) {other : String}
    (unaddressed : objectName js tenant req ≠ some other) :
    (s.route env js tenant req).2.objects.get? other = s.objects.get? other := by
  rw [route_addressed]
  cases target : addressed js tenant req with
  | none => rfl
  | some target' =>
    obtain ⟨name, r⟩ := target'
    have different : name ≠ other := by
      rintro rfl
      exact unaddressed (by rw [objectName, target]; rfl)
    obtain ⟨-, o', after, -⟩ := callDO_home env s name r req
    show (s.callDO env name r req).2.2.objects.get? other = s.objects.get? other
    rw [after]
    exact Dict.get?_set_ne _ _ different

/-- `pathname` of the URL a client builds for an id. -/
def sessionUrlPath (enc : PathEncoder) (id suffix : String) : String :=
  String.ofList (pathname ("v1/sessions/".toList ++ enc.encode id.toList ++ suffix.toList))

section Paths

variable {segment : List Char}

theorem ne_of_mem {sep : Char} (absent : sep ∉ segment) : ∀ c ∈ segment,
    decide (c ≠ sep) = true := by
  intro c member
  refine decide_eq_true ?_
  rintro rfl
  exact absent member

theorem takeWhile_ne {sep : Char} (absent : sep ∉ segment) (rest : List Char) :
    (segment ++ sep :: rest).takeWhile (· ≠ sep) = segment := by
  rw [List.takeWhile_append_of_pos (ne_of_mem absent), List.takeWhile_cons_of_neg (by simp),
    List.append_nil]

theorem sessionPath_segment (whole : '/' ∉ segment) (some : segment ≠ []) :
    sessionPath (String.ofList ("/v1/sessions/".toList ++ segment)) =
      .some (String.ofList segment, false) := by
  have start : "/v1/sessions/".toList.isPrefixOf ("/v1/sessions/".toList ++ segment) = true :=
    List.isPrefixOf_iff_prefix.2 (List.prefix_append _ _)
  have rest : ("/v1/sessions/".toList ++ segment).drop "/v1/sessions/".length = segment :=
    List.drop_left' rfl
  have own : segment.takeWhile (· ≠ '/') = segment :=
    by rw [← List.append_nil segment, List.takeWhile_append_of_pos (ne_of_mem whole)]; rfl
  simp only [sessionPath, String.toList_ofList, start, if_true, rest, own, if_neg some,
    List.drop_length]

theorem sessionPath_turn (whole : '/' ∉ segment) (some : segment ≠ []) :
    sessionPath (String.ofList ("/v1/sessions/".toList ++ (segment ++ "/turn".toList))) =
      .some (String.ofList segment, true) := by
  have start :
    "/v1/sessions/".toList.isPrefixOf ("/v1/sessions/".toList ++ (segment ++ "/turn".toList)) =
    true :=
    List.isPrefixOf_iff_prefix.2 (List.prefix_append _ _)
  have rest : ("/v1/sessions/".toList ++ (segment ++ "/turn".toList)).drop "/v1/sessions/".length =
      segment ++ "/turn".toList := List.drop_left' rfl
  have own : (segment ++ "/turn".toList).takeWhile (· ≠ '/') = segment := takeWhile_ne whole _
  have tail : (segment ++ "/turn".toList).drop segment.length = "/turn".toList :=
    List.drop_left' rfl
  simp only [sessionPath, String.toList_ofList, start, if_true, rest, own, if_neg some, tail]
  rfl

/-- A segment that is not made of dots stays where it is. -/
theorem pathname_session {segments : List (List Char)}
    (plain : ∀ segment ∈ segments, IsPlain segment) {path : List Char}
    (split : splitSlash path = segments) :
    pathname ("v1/sessions/".toList ++ path) = "/v1/sessions".toList ++ segments.flatMap
      ('/' :: ·) := by
  have fixed : ∀ segment ∈ ["v1".toList, "sessions".toList], IsPlain segment := by decide
  show (resolveDots []
    (splitSlash ("v1".toList ++ '/' :: ("sessions".toList ++ '/' :: path)))).flatMap ('/' :: ·) = _
  rw [splitSlash_append (by decide), splitSlash_append (by decide), split]
  have all : ∀ segment ∈ "v1".toList :: "sessions".toList :: segments, IsPlain segment := by
    simp only [List.forall_mem_cons] at fixed ⊢
    exact ⟨fixed.1, fixed.2.1, plain⟩
  rw [resolveDots_plain all]
  rfl

/-- A last segment of dots leaves a slash at the end, and may take its parent along. -/
theorem sessionPath_dots (whole : '/' ∉ segment) (dots : ¬IsPlain segment) :
    sessionPath (String.ofList (pathname ("v1/sessions/".toList ++ segment))) = none := by
  have fixed : ∀ segment ∈ ["v1".toList, "sessions".toList], IsPlain segment := by decide
  have split : splitSlash ("v1/sessions/".toList ++ segment) = ["v1".toList, "sessions".toList] ++
    [segment] := by
    show splitSlash ("v1".toList ++ '/' :: ("sessions".toList ++ '/' :: segment)) = _
    rw [splitSlash_append (by decide), splitSlash_append (by decide), splitSlash_self whole]
    rfl
  rw [pathname, split, resolveDots_append fixed, resolveDots]
  by_cases double : isDoubleDot segment = true
  · rw [if_pos double, if_pos rfl]
    decide
  · have single : isSingleDot segment = true := by
      by_contra other
      exact dots ⟨Bool.eq_false_iff.2 other, Bool.eq_false_iff.2 double⟩
    rw [if_neg double, if_pos single, if_pos rfl]
    decide

end Paths

section Encoded

variable {enc : PathEncoder} {id : String}

theorem encode_ne_nil (some : id ≠ "") : enc.encode id.toList ≠ [] :=
  PathEncoder.encode_ne_nil fun none => some (String.toList_eq_nil_iff.1 none)

theorem sessionPath_info (plain : IsPlain (enc.encode id.toList)) (some : id ≠ "") :
    sessionPath (sessionUrlPath enc id "") =
      .some (String.ofList (enc.encode id.toList), false) := by
  have whole : '/' ∉ enc.encode id.toList := PathEncoder.slash_not_mem_encode id.toList
  have only : ∀ segment ∈ [enc.encode id.toList], IsPlain segment :=
    List.forall_mem_singleton.2 plain
  have path := pathname_session only (splitSlash_self whole)
  have shape :
    sessionUrlPath enc id "" = String.ofList ("/v1/sessions/".toList ++ enc.encode id.toList) := by
    rw [sessionUrlPath, show "".toList = [] from rfl, List.append_nil, path]
    simp
  rw [shape, sessionPath_segment whole (encode_ne_nil some)]

theorem sessionPath_turnOf (plain : IsPlain (enc.encode id.toList)) (some : id ≠ "") :
    sessionPath (sessionUrlPath enc id "/turn") =
      .some (String.ofList (enc.encode id.toList), true) := by
  have whole : '/' ∉ enc.encode id.toList := PathEncoder.slash_not_mem_encode id.toList
  have split : splitSlash (enc.encode id.toList ++ "/turn".toList) =
    [enc.encode id.toList, "turn".toList] := by
    show splitSlash (enc.encode id.toList ++ '/' :: "turn".toList) = _
    rw [splitSlash_append whole, splitSlash_self (by decide)]
  have both : ∀ segment ∈ [enc.encode id.toList, "turn".toList], IsPlain segment := by
    simp only [List.forall_mem_cons, List.not_mem_nil, false_imp_iff, implies_true, and_true]
    exact ⟨plain, by decide⟩
  have path := pathname_session both split
  have shape :
    sessionUrlPath enc id "/turn" = String.ofList
    ("/v1/sessions/".toList ++ (enc.encode id.toList ++ "/turn".toList)) := by
    rw [sessionUrlPath, List.append_assoc, path]
    simp
  rw [shape, sessionPath_turn whole (encode_ne_nil some)]

theorem sessionPath_info_dots (dots : ¬IsPlain (enc.encode id.toList)) :
    sessionPath (sessionUrlPath enc id "") = none := by
  rw [sessionUrlPath, show "".toList = [] from rfl, List.append_nil]
  exact sessionPath_dots (PathEncoder.slash_not_mem_encode _) dots

end Encoded

/-! ## Requests for a session -/

inductive SessionRoute where
  | create
  | turn
  | info
  | delete
  | chat

/-- `req` asks for the session `id` by this route; a body that is `null` is no turn. -/
def RequestFor (enc : PathEncoder) (id : String) (req : HttpRequest) : SessionRoute → Prop
  | .create => req.method = "POST" ∧ req.path = "/v1/sessions" ∧ prop (req.body.getD (.obj [])) "id" = .ok (some (.str id))
  | .turn => req.method = "POST" ∧ req.path = sessionUrlPath enc id "/turn" ∧ req.body ≠ some .null
  | .info => req.method = "GET" ∧ req.path = sessionUrlPath enc id ""
  | .delete => req.method = "DELETE" ∧ req.path = sessionUrlPath enc id ""
  | .chat =>
    req.method = "POST" ∧ req.path = "/v1/chat/completions" ∧
      prop (req.body.getD (.obj [])) "session" = .ok (some (.str id))

/-- `_id("org")`: sixteen hexadecimal digits after the prefix. -/
def GeneratedOrgId (orgId : String) : Prop :=
  ∃ digits : List Char, orgId = "org_" ++ String.ofList digits ∧ ∀ c ∈ digits,
    c ∈ "0123456789abcdef".toList

/-- A session a client names: an organisation and an id that is not empty and has no slash. -/
structure ClientSession where
  tenant : Tenant
  id : String
  generated : GeneratedOrgId tenant.orgId
  nonempty : id ≠ ""
  whole : '/' ∉ id.toList

/-- Every route with the id addresses the object its creation initialises. -/
structure Reachable (enc : PathEncoder) (r : ClientSession) : Prop where
  created : ∀ req, RequestFor enc r.id req .create →
    ∃ b, addressed js r.tenant req = some (Worker.ns r.tenant r.id, .init b)
  reached : ∀ route req, RequestFor enc r.id req route →
    objectName js r.tenant req = some (Worker.ns r.tenant r.id)

/-- Requests that address one object are for one session of one organisation. -/
def Exclusive (enc : PathEncoder) (r r' : ClientSession) : Prop :=
  ∀ route route' req req' name, RequestFor enc r.id req route → RequestFor enc r'.id req' route' →
    objectName js r.tenant req = some name → objectName js r'.tenant req' = some name →
      r.tenant.orgId = r'.tenant.orgId ∧ r.id = r'.id

/-- The id is its own encoding and not made of dots. -/
def SpelledAsIs (enc : PathEncoder) (id : String) : Prop := (∀ c ∈ id.toList, enc.raw c = true) ∧
    id ≠ "." ∧ id ≠ ".."

section Spelled

variable {js} {enc : PathEncoder}

theorem colon_not_mem {orgId : String} (generated : GeneratedOrgId orgId) : ':' ∉ orgId.toList := by
  obtain ⟨digits, rfl, hex⟩ := generated
  intro colon
  rw [String.toList_append, List.mem_append] at colon
  cases colon with
  | inl fixed => exact absurd fixed (by decide)
  | inr digit =>
    rw [String.toList_ofList] at digit
    exact absurd (hex ':' digit) (by decide)

/-- The organisation ends at the first colon. -/
theorem ns_inj {tenant tenant' : Tenant} {id id' : String} (generated : GeneratedOrgId tenant.orgId)
    (generated' : GeneratedOrgId tenant'.orgId)
    (same : Worker.ns tenant id = Worker.ns tenant' id') :
    tenant.orgId = tenant'.orgId ∧ id = id' := by
  have lists :
    tenant.orgId.toList ++ ':' :: id.toList = tenant'.orgId.toList ++ ':' :: id'.toList := by
    have chars := congrArg String.toList same
    simpa [Worker.ns, String.toList_append] using chars
  have front := congrArg (List.takeWhile (· ≠ ':')) lists
  rw [takeWhile_ne (colon_not_mem generated), takeWhile_ne (colon_not_mem generated')] at front
  have org : tenant.orgId = tenant'.orgId := String.toList_injective front
  rw [front] at lists
  have tails := List.append_cancel_left lists
  exact ⟨org, String.toList_injective (List.cons.inj tails).2⟩

/-- An id of characters that are left as they are has no percent sign, so only the dots themselves
    would be resolved. -/
theorem encode_of_spelled {id : String} (spelled : SpelledAsIs enc id) :
    enc.encode id.toList = id.toList ∧ IsPlain id.toList := by
  refine ⟨PathEncoder.encode_eq_self_iff.2 spelled.1, ?_⟩
  have noPercent : '%' ∉ id.toList := fun percent =>
    (PathEncoder.isPathChar_ne (enc.legal '%' (spelled.1 '%' percent))).2 rfl
  have single : ∀ text ∈ ["%2e", "%2E"], '%' ∈ text.toList := by decide
  have double : ∀ text ∈ [".%2e", ".%2E", "%2e.", "%2E.", "%2e%2e", "%2e%2E", "%2E%2e", "%2E%2E"],
    '%' ∈ text.toList := by
    decide
  constructor
  · refine Bool.eq_false_iff.2 fun dots => ?_
    rw [isSingleDot, List.contains_iff_mem, String.ofList_toList] at dots
    cases List.mem_cons.1 dots with
    | inl dot => exact spelled.2.1 dot
    | inr encoded => exact noPercent (single id encoded)
  · refine Bool.eq_false_iff.2 fun dots => ?_
    rw [isDoubleDot, List.contains_iff_mem, String.ofList_toList] at dots
    cases List.mem_cons.1 dots with
    | inl dot => exact spelled.2.2 dot
    | inr encoded => exact noPercent (double id encoded)

theorem jsTruthy_str {id : String} (nonempty : id ≠ "") : jsTruthy (.str id) = true := by
  simpa [jsTruthy, Json.truthy] using nonempty

theorem prop_ok {x : Json} (readable : x ≠ .null) (key : String) : ∃ v, prop x key = .ok v := by
  cases x with
  | null => exact absurd rfl readable
  | bool | num | str | arr | obj => exact ⟨_, rfl⟩

/-- A path of a session is not the one sessions are created at. -/
theorem ne_sessions_of_sessionPath {path : String} {target : String × Bool}
    (session : sessionPath path = some target) :
    path ≠ "/v1/sessions" := by
  rintro rfl
  rw [show sessionPath "/v1/sessions" = none by decide] at session
  exact Option.some_ne_none target session.symm

theorem addressed_create {tenant : Tenant} {id : String} {req : HttpRequest} (nonempty : id ≠ "")
    (asks : RequestFor enc id req .create) :
      ∃ b, addressed js tenant req = some (Worker.ns tenant id, .init b) := by
  obtain ⟨post, path, named⟩ := asks
  have own : jsOr (some (.str id)) (.str req.freshId) = .str id := by
    rw [jsOr, if_pos (jsTruthy_str nonempty)]
  rw [addressed, if_pos ⟨path, post⟩, named]
  simp only [own, jsString]
  exact ⟨_, rfl⟩

theorem objectName_chat {tenant : Tenant} {id : String} {req : HttpRequest} (nonempty : id ≠ "")
    (asks : RequestFor enc id req .chat) :
      objectName js tenant req = some (Worker.ns tenant id) := by
  obtain ⟨post, path, named⟩ := asks
  have noCreate : ¬(req.path = "/v1/sessions" ∧ req.method = "POST") := fun create => by
    rw [path] at create
    exact absurd create.1 (by decide)
  have noSession : sessionPath req.path = none := by rw [path]; decide +kernel
  have kept : (some (Json.str id)).filter jsTruthy = some (.str id) := by
    rw [Option.filter_some, if_pos (jsTruthy_str nonempty)]
  simp only [objectName, addressed, if_neg noCreate, noSession,
    if_pos (show _ ∧ _ from ⟨path, post⟩), named, kept,
    Option.map_some, jsString]

/-- The routes with the id in the path address the object of the path's segment. -/
theorem objectName_turn {tenant : Tenant} {segment : String} {req : HttpRequest}
    (post : req.method = "POST")
    (session : sessionPath req.path = some (segment, true)) (readable : req.body ≠ some .null) :
    objectName js tenant req = some (Worker.ns tenant segment) := by
  have noCreate : ¬(req.path = "/v1/sessions" ∧ req.method = "POST") := fun create =>
    ne_sessions_of_sessionPath session create.1
  have body : req.body.getD (.obj []) ≠ .null := by
    cases given : req.body with
    | none => exact nofun
    | some b =>
      rintro rfl
      exact readable given
  obtain ⟨content, named⟩ := prop_ok body "content"
  simp only [objectName, addressed, if_neg noCreate, session, if_pos post, named, Option.map_some]

theorem objectName_path {tenant : Tenant} {segment : String} {req : HttpRequest}
    (method : req.method = "GET" ∨ req.method = "DELETE")
    (session : sessionPath req.path = some (segment, false)) :
    objectName js tenant req = some (Worker.ns tenant segment) := by
  have noCreate : ¬(req.path = "/v1/sessions" ∧ req.method = "POST") := fun create =>
    ne_sessions_of_sessionPath session create.1
  simp only [objectName, addressed, if_neg noCreate, session]
  by_cases get : req.method = "GET"
  · rw [if_pos get]
    rfl
  · rw [if_neg get, if_pos (method.resolve_left get)]
    rfl

theorem objectName_nowhere {tenant : Tenant} {req : HttpRequest} (get : req.method = "GET")
    (session : sessionPath req.path = none) : objectName js tenant req = none := by
  have noPost : ¬req.method = "POST" := by
    rw [get]
    decide
  simp only [objectName, addressed, noPost, and_false, if_false, session, Option.map_none]

theorem reachable_of_spelled {r : ClientSession} (spelled : SpelledAsIs enc r.id) :
    Reachable js enc r := by
  obtain ⟨same, plain⟩ := encode_of_spelled spelled
  have encoded : IsPlain (enc.encode r.id.toList) := by rwa [same]
  have info := sessionPath_info encoded r.nonempty
  have turn := sessionPath_turnOf encoded r.nonempty
  rw [same, String.ofList_toList] at info turn
  refine ⟨fun req asks => addressed_create r.nonempty asks, ?_⟩
  intro route req asks
  cases route with
  | create =>
    obtain ⟨b, created⟩ :
      ∃ b, addressed js r.tenant req = some (Worker.ns r.tenant r.id, .init b) :=
      addressed_create r.nonempty asks
    rw [objectName, created, Option.map_some]
  | turn =>
    obtain ⟨post, path, readable⟩ := asks
    exact objectName_turn post (path ▸ turn) readable
  | info => exact objectName_path (.inl asks.1) (asks.2 ▸ info)
  | delete => exact objectName_path (.inr asks.1) (asks.2 ▸ info)
  | chat => exact objectName_chat r.nonempty asks

/-- A request to look at a session. -/
def infoRequest (path : String) : HttpRequest :=
  { method := "GET", path, secret := none, body := none, credit := true, now := 0, replied := 0, day := "", freshId := "",
    backend := .raised }

/-- Looking at the session is enough to tell an id that is not spelled as it is. -/
theorem spelled_of_reachable {r : ClientSession} (reachable : Reachable js enc r) :
    SpelledAsIs enc r.id := by
  have here := reachable.reached .info (infoRequest (sessionUrlPath enc r.id "")) ⟨rfl, rfl⟩
  by_cases plain : IsPlain (enc.encode r.id.toList)
  · have path := sessionPath_info plain r.nonempty
    have segment : objectName js r.tenant (infoRequest (sessionUrlPath enc r.id "")) =
        some (Worker.ns r.tenant (String.ofList (enc.encode r.id.toList))) :=
          objectName_path (.inl rfl) path
    have named := (ns_inj r.generated r.generated (Option.some_inj.1 (segment.symm.trans here))).2
    have same := congrArg String.toList named
    rw [String.toList_ofList] at same
    rw [same] at plain
    refine ⟨PathEncoder.encode_eq_self_iff.1 same, ?_, ?_⟩
    · intro dot
      rw [dot] at plain
      exact absurd plain.1 (by decide)
    · intro dots
      rw [dots] at plain
      exact absurd plain.2 (by decide)
  · have path := sessionPath_info_dots plain
    have nowhere : objectName js r.tenant (infoRequest (sessionUrlPath enc r.id "")) = none :=
      objectName_nowhere rfl path
    rw [nowhere] at here
    exact absurd here.symm (Option.some_ne_none _)

end Spelled

/-- The sessions in use are reached by their ids, and only by them, exactly when every id is spelled
    in a URL as it is. -/
theorem sessions_addressed_iff (enc : PathEncoder) (used : Set ClientSession) :
    ((∀ r ∈ used, Reachable js enc r) ∧ ∀ r ∈ used, ∀ r' ∈ used, Exclusive js enc r r') ↔
      ∀ r ∈ used, SpelledAsIs enc r.id := by
  constructor
  · intro sound r member
    exact spelled_of_reachable (sound.1 r member)
  · intro spelled
    have reachable : ∀ r ∈ used, Reachable js enc r :=
      fun r member => reachable_of_spelled (spelled r member)
    refine ⟨reachable, ?_⟩
    intro r member r' member' route route' req req' name asks asks' here here'
    rw [(reachable r member).reached route req asks, Option.some_inj] at here
    rw [(reachable r' member').reached route' req' asks', Option.some_inj] at here'
    exact ns_inj r.generated r'.generated (here.trans here'.symm)

/-! An id with a blank, which a path holds as `%20`. -/

def spacedSession : ClientSession where
  tenant :=
    { orgId := "org_0a", keyId := "", name := "", mode := "", backendUrl := "", backendModel := "" }
  id := "a b"
  generated := ⟨['0', 'a'], rfl, by simp⟩
  nonempty := by decide
  whole := by decide

def plainJs : JsRuntime := ⟨id, fun _ => ""⟩

def createRequest (id : String) : HttpRequest :=
  { infoRequest "/v1/sessions" with method := "POST", body := some (.obj [("id", .str id)]) }

/-- The session created as `a b` is asked for at the object of the one created as `a%20b`, and one
    created as a dot nowhere. -/
theorem sessions_not_addressed :
    let look :=
      fun id => objectName plainJs spacedSession.tenant
        (infoRequest (sessionUrlPath .required id ""))
    let create := fun id => objectName plainJs spacedSession.tenant (createRequest id)
    look "a b" = create "a%20b" ∧ create "a b" = some "org_0a:a b" ∧ look "." = none ∧
      ¬∀ (js : JsRuntime) (enc : PathEncoder) (used : Set ClientSession),
        (∀ r ∈ used, Reachable js enc r) ∧ ∀ r ∈ used, ∀ r' ∈ used, Exclusive js enc r r' := by
  have elsewhere :
    objectName plainJs spacedSession.tenant (infoRequest (sessionUrlPath .required "a b" "")) =
      some "org_0a:a%20b" := by decide +kernel
  refine ⟨by decide +kernel, by decide +kernel, by decide +kernel, ?_⟩
  intro all
  have reached := ((all plainJs .required {spacedSession}).1 spacedSession rfl).reached .info
    (infoRequest (sessionUrlPath .required "a b" "")) ⟨rfl, rfl⟩
  rw [elsewhere, Option.some_inj] at reached
  exact absurd reached (by decide)

end Dexa.Edge
