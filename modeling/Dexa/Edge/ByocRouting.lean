import Dexa.Edge.Worker

/-! # Where an organisation's content goes

A session is pinned to the backend it is initialised with.  Creating it and chatting with its
id pass the organisation's own backend on; a turn does not, and on a session that is not
there it initialises one on the shared default.
-/

namespace Dexa.Edge

open Dexa.Lib
open Dexa.Platform (ControlDb Json Org Raised)

variable {env : Env} {js : JsRuntime} {orgId url : String}

/-- The organisation brings its own cloud, at `url`. -/
def Byoc (orgId url : String) (db : ControlDb) : Prop :=
  ∀ k org, db.orgs.get? k = some org → org.id = orgId → org.mode = .byoc ∧ org.backendUrl = url

/-- A request is the organisation's, or nobody's. -/
def ownRequest (env : Env) (js : JsRuntime) (orgId : String) (s : Worker) (req : HttpRequest) :
    Bool :=
  (resolveKey env js s req.secret).1.all (·.orgId = orgId)

/-- The requests are the organisation's own, and it stays where it is. -/
def OwnEvent (env : Env) (js : JsRuntime) (orgId url : String) (s : Worker) : EdgeEvent → Prop
  | .request req => ownRequest env js orgId s req = true
  | .expire _ => True
  | .control db => Byoc orgId url db

def isNull : Option Json → Bool
  | some .null => true
  | _ => false

/-- The object a turn request with a readable body reaches. -/
def turnObject (tenant : Tenant) (req : HttpRequest) : Option String :=
  match sessionPath req.path with
  | some (id, true) => if req.method = "POST" ∧ isNull req.body = false then some (Worker.ns tenant id) else none
  | _ => none

/-- The object an admitted turn request reaches. -/
def turnTarget (env : Env) (js : JsRuntime) (s : Worker) (req : HttpRequest) : Option String :=
  if req.credit then (resolveKey env js s req.secret).1.bind (turnObject · req) else none

/-- A turn request that is admitted addresses a session that is there. -/
def liveTurn (env : Env) (js : JsRuntime) (s : Worker) : EdgeEvent → Bool
  | .request req => (turnTarget env js s req).all fun name => (s.object name).stored.isSome
  | _ => true

/-- Sessions and cached keys of the organisation point to its backend. -/
structure Homed (orgId url : String) (s : Worker) : Prop where
  byoc : Byoc orgId url s.db
  keys : ∀ hash tenant, s.keys.get? hash = some (some tenant) → tenant.orgId = orgId →
    tenant.backendUrl = url
  objects : ∀ name o st, s.objects.get? name = some o → o.stored = some st → st.backendUrl = url

/-- What is sent goes to `url`. -/
def SentTo (url : String) (h : Handled) : Prop :=
  ∀ call ∈ h.sent, call.url = url ++ "/v1/chat/completions"

theorem urls_of_sentTo {t : List (EdgeEvent × Handled)} (stays : ∀ p ∈ t, SentTo url p.2) :
    ∀ u ∈ t.flatMap (fun p => p.2.sent.map BackendCall.url), u = url ++ "/v1/chat/completions" := by
  intro u member
  obtain ⟨p, here, sent⟩ := List.mem_flatMap.1 member
  obtain ⟨call, called, rfl⟩ := List.mem_map.1 sent
  exact stays p here call called

/-! ## Where an object sends -/

/-- The backend a request to an object is about: the one it pins the session to, or finds it
    pinned to. -/
def home (env : Env) (o : SessionObject) : Request → String
  | .init b => strOr (some b.backendUrl) env.gpuBackendUrl
  | .turn b | .forward b => o.stored.elim (strOr b.backendUrl env.gpuBackendUrl) State.backendUrl
  | .info | .delete => o.stored.elim "" State.backendUrl

theorem begun_home {o : SessionObject} {accumulate : Bool} {b : TurnBody} {now : ℚ} {f : Flight}
    (begun : beginTurn env o.stored accumulate b now o.writes = .ok f) :
    f.s.backendUrl = o.stored.elim (strOr b.backendUrl env.gpuBackendUrl) State.backendUrl := by
  rw [(beginTurn_ok begun).1]
  cases o.stored with
  | none => rfl
  | some s => rfl

/-- A turn that is answered: what it sends, and the session it leaves. -/
theorem callDO_turn (s : Worker) (name : String) (accumulate : Bool) (b : TurnBody)
    (req : HttpRequest) {r : Request}
    (turn : (s.object name).handle env r req.now =
      (s.object name).beginTurn env accumulate b req.now) :
    (∀ call ∈ (s.callDO env name r req).2.1, call.url =
        (s.object name).stored.elim (strOr b.backendUrl env.gpuBackendUrl) State.backendUrl ++
          "/v1/chat/completions") ∧
      ∃ o', (s.callDO env name r req).2.2 = { s with objects := s.objects.set name o' } ∧
        ∀ st, o'.stored = some st →
        st.backendUrl = (s.object name).stored.elim
          (strOr b.backendUrl env.gpuBackendUrl) State.backendUrl := by
  have kept : ∀ st, (s.object name).stored = some st →
      st.backendUrl = (s.object name).stored.elim
        (strOr b.backendUrl env.gpuBackendUrl) State.backendUrl := by
    intro st stored
    rw [stored]
    rfl
  simp only [Worker.callDO, turn, SessionObject.beginTurn]
  cases begun :
    beginTurn env (s.object name).stored accumulate b req.now (s.object name).writes with
  | error raised => exact ⟨by simp, s.object name, rfl, kept⟩
  | ok f =>
    have pinned := begun_home begun
    have own : ((s.object name).flights ++ [f])[(s.object name).flights.length]? = some f := by simp
    refine ⟨?_, _, rfl, ?_⟩
    · intro call member
      obtain rfl := List.mem_singleton.1 member
      rw [← pinned]
      rfl
    · simp only [SessionObject.finishTurn, own]
      cases req.backend with
      | raised => exact kept
      | status code => exact kept
      | ok data =>
        intro st saved
        obtain rfl := Option.some.inj saved
        exact pinned

variable (env) in
theorem callDO_home (s : Worker) (name : String) (r : Request) (req : HttpRequest) :
    (∀ call ∈ (s.callDO env name r req).2.1,
      call.url = home env (s.object name) r ++ "/v1/chat/completions") ∧
      ∃ o', (s.callDO env name r req).2.2 = { s with objects := s.objects.set name o' } ∧
        ∀ st, o'.stored = some st → st.backendUrl = home env (s.object name) r := by
  cases r with
  | turn b => exact callDO_turn s name true b req rfl
  | forward b => exact callDO_turn s name false b req rfl
  | delete => exact ⟨by simp [Worker.callDO, SessionObject.handle], _, rfl,
      fun _ stored => by cases stored⟩
  | info =>
    cases stored : (s.object name).stored with
    | none =>
      simp only [Worker.callDO, SessionObject.handle, stored]
      exact ⟨by simp, _, rfl, by simp [stored]⟩
    | some st =>
      simp only [Worker.callDO, SessionObject.handle, stored]
      exact ⟨by simp, _, rfl, by simp [stored, home]⟩
  | init b =>
    obtain ⟨st, begun, pinned⟩ := initState_ok env b req.now
    simp only [Worker.callDO, SessionObject.handle, begun]
    refine ⟨by simp, _, rfl, ?_⟩
    intro st' stored
    obtain rfl := Option.some.inj stored
    exact pinned

variable (env) in
/-- A turn on an object without a session reaches the shared default. -/
theorem callDO_turn_missing {s : Worker} {name : String} {b : TurnBody} (req : HttpRequest)
    (missing : (s.object name).stored = none) (unset : b.backendUrl = none) :
    ∃ call, (s.callDO env name (.turn b) req).2.1 = [call] ∧ call.url = env.gpuBackendUrl ++ "/v1/chat/completions" := by
  have objects : ∀ m ∈ [message "user" (nullish b.content (.str ""))], ∃ fields, m = .obj fields :=
    fun m member => ⟨_, List.mem_singleton.1 member⟩
  obtain ⟨tokens, counted⟩ := estTokens_ok objects
  have begun : ∃ f, beginTurn env (s.object name).stored true b req.now (s.object name).writes = .ok f := by
    rw [missing]
    exact ⟨_, by simp only [beginTurn, Option.getD_none, autoInit, List.nil_append, if_true, counted]; rfl⟩
  obtain ⟨f, begun⟩ := begun
  have pinned := begun_home begun
  rw [missing, unset] at pinned
  refine ⟨f.call, ?_, congrArg (· ++ _) pinned⟩
  simp only [Worker.callDO, SessionObject.handle, SessionObject.beginTurn, begun]

/-! ## The routes -/

theorem object_stored {s : Worker} (homed : Homed orgId url s) {name : String} {st : State}
    (stored : (s.object name).stored = some st) : st.backendUrl = url := by
  rw [Worker.object] at stored
  cases found : s.objects.get? name with
  | none => simp [found] at stored
  | some o => exact homed.objects name o st found (by simpa [found] using stored)

theorem Homed.callDO {s : Worker} (homed : Homed orgId url s) {name : String} {r : Request}
    (req : HttpRequest)
    (own : home env (s.object name) r = url) :
    (∀ call ∈ (s.callDO env name r req).2.1, call.url = url ++ "/v1/chat/completions") ∧
      Homed orgId url (s.callDO env name r req).2.2 := by
  obtain ⟨sent, o', result, pinned⟩ := callDO_home env s name r req
  rw [own] at sent pinned
  refine ⟨sent, ?_⟩
  rw [result]
  exact ⟨homed.byoc, homed.keys, fun name' o st found stored =>
    Dict.forall_get?_set (P := fun _ o => ∀ st, o.stored = some st → st.backendUrl = url)
      (fun name o found st stored => homed.objects name o st found stored) pinned name' o found st stored⟩

variable (env) in
/-- Reading and deleting a session send nothing and pin nothing. -/
theorem Homed.callDO_quiet {s : Worker} (homed : Homed orgId url s) (name : String) {r : Request}
    (req : HttpRequest)
    (quiet : r = .info ∨ r = .delete) :
    (s.callDO env name r req).2.1 = [] ∧ Homed orgId url (s.callDO env name r req).2.2 := by
  have after :
    ∃ reply o',
    (s.callDO env name r req) = (reply, [], { s with objects := s.objects.set name o' }) ∧
      ∀ st, o'.stored = some st → (s.object name).stored = some st := by
    cases quiet with
    | inl info =>
      subst info
      cases stored : (s.object name).stored with
      | none => exact ⟨.notFound, s.object name,
          by simp [Worker.callDO, SessionObject.handle, stored], by simp [stored]⟩
      | some st =>
        exact ⟨.session (publicOf st (s.object name).id req.now), s.object name, by
          simp [Worker.callDO, SessionObject.handle, stored], by simp [stored]⟩
    | inr delete =>
      subst delete
      exact ⟨.deleted, _, rfl, fun _ stored => by cases stored⟩
  obtain ⟨reply, o', result, kept⟩ := after
  rw [result]
  exact ⟨rfl, homed.byoc, homed.keys, fun name' o st found stored =>
    Dict.forall_get?_set (P := fun _ o => ∀ st, o.stored = some st → st.backendUrl = url)
      (fun name o found st stored => homed.objects name o st found stored)
      (fun st stored => object_stored homed (kept st stored)) name' o found st stored⟩

theorem strOr_some {a : String} (b : String) (given : a ≠ "") : strOr (some a) b = a := by
  simp [strOr, Option.filter_some, given]

theorem prop_null {body : Option Json} {key : String} (null : isNull body = true) :
    prop (body.getD (.obj [])) key = .error .typeError := by
  cases body with
  | none => cases null
  | some b => cases b <;> first | rfl | cases null

theorem prop_not_null {body : Option Json} (key : String) (read : isNull body = false) :
    ∃ v, prop (body.getD (.obj [])) key = .ok v := by
  cases body with
  | none => exact ⟨_, rfl⟩
  | some b => cases b <;> first | exact ⟨_, rfl⟩ | cases read

section Routes

variable (env js) {s : Worker} {tenant : Tenant} (req : HttpRequest) (homed : Homed orgId url s)
  (brings : url ≠ "")
  (own : tenant.backendUrl = url)

include homed brings own

theorem createSession_homed :
    SentTo url (s.createSession env js tenant req).1 ∧
      Homed orgId url (s.createSession env js tenant req).2 := by
  rw [Worker.createSession]
  cases prop (req.body.getD (.obj [])) "id" with
  | error raised => exact ⟨nofun, homed⟩
  | ok id => exact homed.callDO req (by rw [home, own, strOr_some _ brings])

theorem chatCompletions_homed :
    SentTo url (s.chatCompletions env js tenant req).1 ∧
      Homed orgId url (s.chatCompletions env js tenant req).2 := by
  rw [Worker.chatCompletions]
  cases prop (req.body.getD (.obj [])) "session" with
  | error raised => exact ⟨nofun, homed⟩
  | ok session =>
    simp only
    cases session.filter jsTruthy with
    | none =>
      refine ⟨?_, homed⟩
      intro call member
      obtain rfl := List.mem_singleton.1 member
      simp only [own, strOr_some _ brings]
    | some session =>
      refine homed.callDO req ?_
      cases stored : (s.object (Worker.ns tenant (jsString js session))).stored with
      | none => simp only [home, stored, Option.elim_none, own, strOr_some _ brings]
      | some st => simpa only [home, stored, Option.elim_some] using object_stored homed stored

omit brings own in
variable (tenant) in
/-- A turn stays on the organisation's backend exactly if the session is there or the shared
    default is that backend. -/
theorem sessionTurn_homed (id : String) :
    (SentTo url (s.sessionTurn env tenant id req).1 ↔
        (env.gpuBackendUrl = url ∨
          (isNull req.body = false → (s.object (Worker.ns tenant id)).stored ≠ none))) ∧
      ((env.gpuBackendUrl = url ∨
        (isNull req.body = false → (s.object (Worker.ns tenant id)).stored ≠ none)) →
        Homed orgId url (s.sessionTurn env tenant id req).2) := by
  rw [Worker.sessionTurn]
  cases null : isNull req.body with
  | true =>
    rw [prop_null null]
    exact ⟨iff_of_true nofun (.inr nofun), fun _ => homed⟩
  | false =>
    obtain ⟨content, read⟩ := prop_not_null "content" null
    rw [read]
    simp only [true_imp_iff]
    cases stored : (s.object (Worker.ns tenant id)).stored with
    | none =>
      -- the session is initialised on the shared default
      obtain ⟨call, sent, default⟩ := callDO_turn_missing env
        (b := { content, orgId := some tenant.orgId }) req stored rfl
      constructor
      · rw [SentTo, sent]
        simp only [List.mem_singleton, forall_eq, default, ne_eq, not_true_eq_false, or_false]
        exact String.append_left_inj _
      · intro cond
        refine (homed.callDO req ?_).2
        simpa [home, stored, strOr] using cond
    | some st =>
      have here :
        home env (s.object (Worker.ns tenant id)) (.turn { content, orgId := some tenant.orgId }) =
        url := by
        simpa only [home, stored, Option.elim_some] using object_stored homed stored
      obtain ⟨sent, after⟩ := homed.callDO req here
      exact ⟨iff_of_true sent (.inr (Option.some_ne_none st)), fun _ => after⟩

theorem route_homed :
    (SentTo url (s.route env js tenant req).1 ↔
        (env.gpuBackendUrl = url ∨ ∀ name, turnObject tenant req = some name →
          (s.object name).stored ≠ none)) ∧
      ((env.gpuBackendUrl = url ∨ ∀ name, turnObject tenant req = some name →
        (s.object name).stored ≠ none) →
        Homed orgId url (s.route env js tenant req).2) := by
  -- the routes other than a turn
  have always : turnObject tenant req = none → SentTo url (s.route env js tenant req).1 →
      Homed orgId url (s.route env js tenant req).2 →
      (SentTo url (s.route env js tenant req).1 ↔
        (env.gpuBackendUrl = url ∨ ∀ name, turnObject tenant req = some name →
          (s.object name).stored ≠ none)) ∧
      ((env.gpuBackendUrl = url ∨ ∀ name, turnObject tenant req = some name →
        (s.object name).stored ≠ none) →
        Homed orgId url (s.route env js tenant req).2) := by
    intro none sent after
    rw [none]
    exact ⟨iff_of_true sent (.inr nofun), fun _ => after⟩
  by_cases create : req.path = "/v1/sessions" ∧ req.method = "POST"
  · obtain ⟨sent, after⟩ := createSession_homed env js req homed brings own
    have none : turnObject tenant req = none := by
      rw [turnObject, create.1, show sessionPath "/v1/sessions" = none by decide]
    refine always none ?_ ?_
    · rwa [Worker.route, if_pos create]
    · rwa [Worker.route, if_pos create]
  · cases path : sessionPath req.path with
    | none =>
      have none : turnObject tenant req = none := by rw [turnObject, path]
      by_cases chat : req.path = "/v1/chat/completions" ∧ req.method = "POST"
      · obtain ⟨sent, after⟩ := chatCompletions_homed env js req homed brings own
        refine always none ?_ ?_
        · simpa only [Worker.route, if_neg create, path, if_pos chat] using sent
        · simpa only [Worker.route, if_neg create, path, if_pos chat] using after
      · refine always none ?_ ?_
        · simp only [Worker.route, if_neg create, path, if_neg chat]
          exact nofun
        · simpa only [Worker.route, if_neg create, path, if_neg chat] using homed
    | some target =>
      obtain ⟨id, turn⟩ := target
      cases turn with
      | false =>
        have none : turnObject tenant req = none := by rw [turnObject, path]
        have quiet := fun r => Homed.callDO_quiet (r := r) env homed (Worker.ns tenant id) req
        by_cases get : req.method = "GET"
        · obtain ⟨sent, after⟩ := quiet .info (.inl rfl)
          refine always none ?_ ?_
          · simp only [Worker.route, if_neg create, path, if_pos get, SentTo, sent]
            exact nofun
          · simpa only [Worker.route, if_neg create, path, if_pos get] using after
        · by_cases delete : req.method = "DELETE"
          · obtain ⟨sent, after⟩ := quiet .delete (.inr rfl)
            refine always none ?_ ?_
            · simp only [Worker.route, if_neg create, path, if_neg get, if_pos delete, SentTo, sent]
              exact nofun
            · simpa only [Worker.route, if_neg create, path, if_neg get, if_pos delete] using after
          · refine always none ?_ ?_
            · simp only [Worker.route, if_neg create, path, if_neg get, if_neg delete]
              exact nofun
            · simpa only [Worker.route, if_neg create, path, if_neg get, if_neg delete] using homed
      | true =>
        by_cases post : req.method = "POST"
        · have target : ∀ P : String → Prop, (∀ name, turnObject tenant req = some name → P name) ↔
              (isNull req.body = false → P (Worker.ns tenant id)) := by
            intro P
            cases null : isNull req.body <;> simp [turnObject, path, post, null]
          rw [target]
          have turn := sessionTurn_homed env tenant req homed id
          simpa only [Worker.route, if_neg create, path, if_pos post] using turn
        · have none : turnObject tenant req = none := by
            rw [turnObject, path]
            exact if_neg fun both => post both.1
          refine always none ?_ ?_
          · simp only [Worker.route, if_neg create, path, if_neg post]
            exact nofun
          · simpa only [Worker.route, if_neg create, path, if_neg post] using homed

end Routes

/-! ## Every run -/

theorem lookupKey_home {db : ControlDb} {hash : String} {tenant : Tenant} (byoc : Byoc orgId url db)
    (brings : url ≠ "")
    (found : lookupKey env db hash = some tenant) (ours : tenant.orgId = orgId) :
      tenant.backendUrl = url := by
  rw [lookupKey] at found
  cases present : db.findKey hash with
  | none => simp [present] at found
  | some key =>
    simp only [present] at found
    split at found
    · cases found
    · obtain ⟨org, row, rfl⟩ := Option.map_eq_some_iff.1 found
      obtain ⟨-, pinned⟩ := byoc key.orgId org row ours
      simp [tenantOf, pinned, brings]

variable (env js) in
theorem resolveKey_homed {s : Worker} (homed : Homed orgId url s) (brings : url ≠ "")
    (secret : Option String) :
    (∀ tenant, (resolveKey env js s secret).1 = some tenant → tenant.orgId = orgId →
      tenant.backendUrl = url) ∧
      Homed orgId url { s with keys := (resolveKey env js s secret).2 } := by
  rw [resolveKey]
  cases secret.filter (Platform.looksLikeKey ·) with
  | none => exact ⟨nofun, homed⟩
  | some secret =>
    simp only
    cases cached : s.keys.get? (js.sha256Hex secret) with
    | some entry => exact ⟨fun tenant hit => homed.keys _ tenant (by rw [cached, ← hit]), homed⟩
    | none =>
      have looked : ∀ tenant, lookupKey env s.db (js.sha256Hex secret) = some tenant →
        tenant.orgId = orgId →
          tenant.backendUrl = url := fun tenant => lookupKey_home homed.byoc brings
      refine ⟨looked, homed.byoc, ?_, homed.objects⟩
      intro hash tenant found
      exact Dict.forall_get?_set (P := fun _ t => ∀ tenant, t = some tenant → tenant.orgId = orgId →
        tenant.backendUrl = url)
        (fun hash t found tenant same => homed.keys hash tenant
          (same ▸ found)) looked hash _ found tenant rfl

theorem fetch_homed {s : Worker} {req : HttpRequest} (homed : Homed orgId url s) (brings : url ≠ "")
    (ours : OwnEvent env js orgId url s (.request req)) :
    (SentTo url (s.fetch env js req).1 ↔
      (env.gpuBackendUrl = url ∨ liveTurn env js s (.request req) = true)) ∧
      ((env.gpuBackendUrl = url ∨ liveTurn env js s (.request req) = true) →
        Homed orgId url (s.fetch env js req).2) := by
  obtain ⟨pinned, cached⟩ := resolveKey_homed env js homed brings req.secret
  by_cases health : req.path = "/health"
  · have live : liveTurn env js s (.request req) = true := by
      have none : ∀ tenant, turnObject tenant req = none := fun tenant => by
        rw [turnObject, health, show sessionPath "/health" = none by decide]
      simp only [liveTurn, turnTarget, none]
      split <;> simp
    simp only [Worker.fetch, if_pos health]
    exact ⟨iff_of_true nofun (.inr live), fun _ => homed⟩
  · cases resolved : (resolveKey env js s req.secret).1 with
    | none =>
      have live : liveTurn env js s (.request req) = true := by
        simp [liveTurn, turnTarget, resolved]
      simp only [Worker.fetch, if_neg health, resolved]
      exact ⟨iff_of_true nofun (.inr live), fun _ => cached⟩
    | some tenant =>
      have org : tenant.orgId = orgId := by simpa [OwnEvent, ownRequest, resolved] using ours
      cases credit : req.credit with
      | false =>
        have live : liveTurn env js s (.request req) = true := by
          simp [liveTurn, turnTarget, credit]
        simp only [Worker.fetch, if_neg health, resolved, credit]
        exact ⟨iff_of_true nofun (.inr live), fun _ => cached⟩
      | true =>
        have live : liveTurn env js s (.request req) = true ↔
            ∀ name, turnObject tenant req = some name →
              (Worker.object { s with keys := (resolveKey env js s req.secret).2 } name).stored ≠
                none := by
          simp only [liveTurn, turnTarget, credit, resolved, if_true, Option.bind_some,
            Option.all_eq_true,
            Option.isSome_iff_ne_none]
          rfl
        have routed := route_homed env js req cached brings (pinned tenant resolved org)
        rw [live]
        simpa only [Worker.fetch, if_neg health, resolved, credit, Bool.not_true,
          Bool.false_eq_true, if_false] using routed

/-- No session and no cached key yet. -/
def Worker.start (db : ControlDb) : Worker := { db }

theorem homed_start {db : ControlDb} (byoc : Byoc orgId url db) : Homed orgId url (.start db) :=
  ⟨byoc, fun _ _ found => (by cases found), fun _ _ _ found => (by cases found)⟩

theorem Homed.next {s : Worker} (homed : Homed orgId url s) (brings : url ≠ "") {e : EdgeEvent}
    (ours : OwnEvent env js orgId url s e)
    (live : env.gpuBackendUrl = url ∨ liveTurn env js s e = true) :
    Homed orgId url ((edgeWorker env js).next s e) := by
  cases e with
  | request req => exact (fetch_homed homed brings ours).2 live
  | expire hash =>
    refine ⟨homed.byoc, fun hash' tenant found => ?_, homed.objects⟩
    have found : (s.keys.erase hash).get? hash' = some (some tenant) := found
    rw [Dict.get?_erase] at found
    split at found
    · cases found
    · exact homed.keys hash' tenant found
  | control db => exact ⟨ours, homed.keys, homed.objects⟩

/-- In every run of the organisation's requests, everything sent for it goes to its own
    backend exactly if every admitted turn addresses a session that is there, or the shared
    default is that backend. -/
theorem byoc_content_stays_iff {db : ControlDb} (byoc : Byoc orgId url db) (brings : url ≠ "")
    {es : List EdgeEvent}
    (ours : (edgeWorker env js).Meets (OwnEvent env js orgId url) (.start db) es) :
    (∀ p ∈ (edgeWorker env js).trace (.start db) es, SentTo url p.2) ↔
      (edgeWorker env js).Meets (fun s e => env.gpuBackendUrl = url ∨ liveTurn env js s e = true)
      (.start db) es := by
  have step : ∀ s e, Homed orgId url s → OwnEvent env js orgId url s e →
      (SentTo url ((edgeWorker env js).out s e) ↔
        (env.gpuBackendUrl = url ∨ liveTurn env js s e = true)) := by
    intro s e homed ours
    cases e with
    | request req => exact (fetch_homed homed brings ours).1
    | expire hash => exact iff_of_true (fun call member => by cases member) (.inr rfl)
    | control db => exact iff_of_true (fun call member => by cases member) (.inr rfl)
  exact Machine.Meets.good_iff (fun _ h => SentTo url h) step
    (fun s e homed ours live => homed.next brings ours live) (homed_start byoc) ours

/-- An organisation on its own cloud, with one key. -/
def byocAccount : ControlDb where
  orgs := Dict.empty.set "org" { id := "org", name := "org", mode := .byoc, backendUrl := "https://own" }
  apiKeys :=
    Dict.empty.set "key" { id := "key", orgId := "org", visiblePrefix := "", keyHash := "dexa_live_k" }

theorem byocAccount_byoc : Byoc "org" "https://own" byocAccount :=
  Dict.forall_get?_set (fun _ _ found => (by cases found)) fun _ => ⟨rfl, rfl⟩

def plainRuntime : JsRuntime := ⟨fun s => s, fun _ => ""⟩

def sampleRequest (method path : String) (body : Json) : EdgeEvent :=
  .request { method, path, secret := some "dexa_live_k", body := some body, credit := true, now := 0, replied := 1,
             day := "2026-01-01", freshId := "sess_0", backend := .ok (.obj []) }

theorem sampleRequest_own {s : Worker} {method path : String} {body : Json}
    (own : (resolveKey sampleEnv plainRuntime s (some "dexa_live_k")).1.all (·.orgId = "org") =
      true) :
    OwnEvent sampleEnv plainRuntime "org" "https://own" s (sampleRequest method path body) := own

/-- A session is created, and a turn on it stays on the organisation's backend. -/
theorem byoc_content_stays_created :
    let es := [sampleRequest "POST" "/v1/sessions" (.obj [("id", .str "s")]),
      sampleRequest "POST" "/v1/sessions/s/turn" (.obj [("content", .str "hi")])]
    ∀ p ∈ (edgeWorker sampleEnv plainRuntime).trace (.start byocAccount) es,
      SentTo "https://own" p.2 :=
  (@byoc_content_stays_iff sampleEnv plainRuntime "org" "https://own" byocAccount byocAccount_byoc
    (by decide)
    [sampleRequest "POST" "/v1/sessions" (.obj [("id", .str "s")]),
      sampleRequest "POST" "/v1/sessions/s/turn" (.obj [("content", .str "hi")])]
    ⟨sampleRequest_own (by decide +kernel), sampleRequest_own (by decide +kernel), trivial⟩).2
      ⟨.inr (by decide +kernel), .inr (by decide +kernel), trivial⟩

/-- A turn on a session that was never created goes to the shared default. -/
theorem turn_leaves_the_cloud :
    let es := [sampleRequest "POST" "/v1/sessions/s/turn" (.obj [("content", .str "hi")])]
    Byoc "org" "https://own" byocAccount ∧
      (edgeWorker sampleEnv plainRuntime).Meets
        (OwnEvent sampleEnv plainRuntime "org" "https://own") (.start byocAccount) es ∧
      ¬ ∀ p ∈ (edgeWorker sampleEnv plainRuntime).trace (.start byocAccount) es,
        SentTo "https://own" p.2 := by
  refine ⟨byocAccount_byoc, ⟨sampleRequest_own (by decide +kernel), trivial⟩, fun stays => ?_⟩
  exact absurd (urls_of_sentTo stays "https://gpu/v1/chat/completions" (by decide +kernel))
    (by decide)

end Dexa.Edge
