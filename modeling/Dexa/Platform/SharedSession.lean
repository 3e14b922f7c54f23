import Dexa.Platform.TenantIsolation

/-! # Organisations that share a session

When two organisations' names give a common session key, one screenshot sent by each shows
it: alone, the second organisation's is the first frame of its session; after the first
organisation's it is an exact duplicate.
-/

namespace Dexa.Platform

open Dexa.Lib

theorem toList_sessionKey (name raw : String) :
    (sessionKey name raw).toList = (name ++ "/").toList ++ raw.toList := by
  simp [sessionKey]

/-- Session ids can be lengthened alike on both sides. -/
theorem sessionKey_append (name raw more : String) :
    sessionKey name (raw ++ more) = sessionKey name raw ++ more := by
  apply String.toList_inj.1
  simp [toList_sessionKey]

/-- Two names give a common session key exactly if one of them, with the separator, is a
    prefix of the other. -/
theorem sessionsCollide_iff {org org' : Org} : SessionsCollide org org' ↔
    (org.tenantName ++ "/").toList <+: (org'.tenantName ++ "/").toList ∨
      (org'.tenantName ++ "/").toList <+: (org.tenantName ++ "/").toList := by
  constructor
  · rintro ⟨raw, raw', same⟩
    have lists := congrArg String.toList same
    rw [toList_sessionKey, toList_sessionKey] at lists
    exact List.prefix_or_prefix_of_prefix ⟨raw.toList, lists⟩ (List.prefix_append _ _)
  · rintro (⟨rest, longer⟩ | ⟨rest, longer⟩)
    · refine ⟨String.ofList rest, "", String.toList_inj.1 ?_⟩
      rw [toList_sessionKey, toList_sessionKey, String.toList_ofList, longer]
      exact (List.append_nil _).symm
    · refine ⟨"", String.ofList rest, String.toList_inj.1 ?_⟩
      rw [toList_sessionKey, toList_sessionKey, String.toList_ofList (l := rest), longer]
      exact List.append_nil _

instance (org org' : Org) : Decidable (SessionsCollide org org') :=
  decidable_of_iff' _ sessionsCollide_iff

namespace RedundancyMeter

variable {rt : Runtime} {m : RedundancyMeter} {session : String} {img : Bytes}

/-- The first frame of a session is recorded, also when it does not decode, and counts as
    fully changed. -/
theorem observe_first (unseen : m.hash.get? session = none) :
    (observe rt m session img).2.hash.get? session = some (rt.sha256 img) ∧
      ∀ obs, (observe rt m session img).1 = .ok obs → obs.redundantFrac = 0 := by
  have fully : max (0 : ℚ) (1 - 1) = 0 := by norm_num
  simp only [observe, unseen, changedOf, Option.isNone_none, Bool.not_true, Bool.false_and,
    Bool.false_eq_true, if_false,
    if_true, Bool.not_false, Bool.true_and]
  split
  · cases gridOf rt img with
    | error e => exact ⟨Dict.get?_set_self .., fun obs raised => by cases raised⟩
    | ok g =>
      cases g with
      | none => exact ⟨Dict.get?_set_self .., fun obs same => Except.ok.inj same ▸ fully⟩
      | some g => exact ⟨Dict.get?_set_self .., fun obs same => Except.ok.inj same ▸ fully⟩
  · exact ⟨Dict.get?_set_self .., fun obs same => Except.ok.inj same ▸ fully⟩

theorem observe_again (seen : m.hash.get? session = some (rt.sha256 img)) :
    ∃ obs m', observe rt m session img = (.ok obs, m') ∧ obs.exactDuplicate = true ∧
      obs.redundantFrac = 1 := by
  have unchanged : max (0 : ℚ) (1 - 0) = 1 := by norm_num
  refine ⟨⟨false, true, 0, max 0 (1 - 0)⟩, { m with hash := m.hash.set session (rt.sha256 img) },
    ?_, rfl, unchanged⟩
  simp [observe, seen, changedOf]

end RedundancyMeter

/-- A reply that reports a number of completion tokens. -/
def Countable (resp : Json) : Prop :=
  ∃ fields usage q, resp = .obj fields ∧ Dict.lookup "usage" fields = some (.obj usage) ∧
    Dict.lookup "completion_tokens" usage = some (.num q) ∧ q ≠ 0

theorem Countable.setItem {resp : Json} (countable : Countable resp) (key : String)
    (other : key ≠ "usage") (v : Json) :
    ∃ resp', resp.setItem key v = .ok resp' ∧ Countable resp' := by
  obtain ⟨fields, usage, q, rfl, inFields, inUsage, nonzero⟩ := countable
  refine ⟨_, rfl, _, usage, q, rfl, ?_, inUsage, nonzero⟩
  rw [Dict.lookup_assign, if_neg other, inFields]

theorem Countable.outTokens {resp : Json} (countable : Countable resp) :
    ∃ q, outTokens resp = .ok q := by
  obtain ⟨fields, usage, q, rfl, inFields, inUsage, nonzero⟩ := countable
  have nonempty : usage.isEmpty = false := by
    cases usage with
    | nil => cases inUsage
    | cons u us => rfl
  refine ⟨q, ?_⟩
  simp [Platform.outTokens, Json.get, inFields, inUsage, pyOr, Json.truthy, nonempty, nonzero,
    Json.number, bind,
    Except.bind]

theorem countable_mock (model prompt : String) (created : Nat) :
    Countable (mockCompletion model prompt created) :=
  ⟨_, _, 4, rfl, rfl, rfl, by norm_num⟩

namespace Gateway

variable (rt : Runtime) (p : Principal) {r : Reading} {io : Outside}

/-- Every cached reply can be metered. -/
def CacheCountable (g : Gateway) : Prop := ∀ k c, g.cache.get? k = some c → Countable c.resp

theorem CacheCountable.store {g : Gateway} (cached : g.CacheCountable) {resp : Json}
    (countable : Countable resp)
    (tenant : Tenant) : (g.store rt tenant r resp).CacheCountable := by
  unfold Gateway.store
  split
  · exact Dict.forall_get?_set cached countable
  · exact cached

theorem finish_countable {g : Gateway} (cached : g.CacheCountable) {resp : Json}
    (countable : Countable resp)
    (redundant : ℚ) (hit : Bool) :
    (g.finish rt p r io redundant resp hit).2.CacheCountable ∧
      ∃ body headers, (g.finish rt p r io redundant resp hit).1 = .json 200 body (some headers) ∧
        headers.screenRedundancyPct = pyRound 1 (100 * redundant) := by
  obtain ⟨named, setModel, countableNamed⟩ :=
    countable.setItem "model" (by decide) (.str "dexa-cua-vlm")
  obtain ⟨out, counted⟩ := countableNamed.outTokens
  obtain ⟨told, setDexa, countableTold⟩ := countableNamed.setItem "dexa" (by decide)
    (infoOf p.tenant r (savingsOf r out hit) redundant hit)
  rw [finish_eq, setModel]
  simp only [counted, setDexa]
  have metered : ((g.store rt p.tenant r named).meterUsage p io.today
      (usageOf (savingsOf r out hit) redundant hit)).CacheCountable :=
  cached.store rt countableNamed p.tenant
  exact ⟨metered.store rt countableTold p.tenant, told, _, rfl, rfl⟩

/-- With a reply that can be metered, the cache, the mock and the backend all give one. -/
theorem answer_countable {fields : List (String × Json)} {reply : Json} {prev : Option Cached}
    (isObj : r.body = .obj fields)
    (replies : io.backend = .reply reply) (countable : Countable reply)
    (cached : ∀ c, prev = some c → Countable c.resp) (exactDup : Bool) :
    ∃ resp, Countable resp ∧ ((answer rt p.tenant r io exactDup prev).1 = .cached resp ∨
      (answer rt p.tenant r io exactDup prev).1 = .completed resp) := by
  simp only [answer]
  cases hit :
    prev.filter fun c => exactDup && c.imgHash == r.imgHash rt && c.textHash == r.textHash rt with
  | some c => exact ⟨c.resp, cached c (Option.filter_eq_some_iff.1 hit).1, .inl rfl⟩
  | none =>
    simp only
    split
    · exact ⟨_, countable_mock .., .inr rfl⟩
    · simp only [forwardPayload, isObj, Json.setItem, bind, Except.bind, replies]
      exact ⟨reply, countable, .inr rfl⟩

/-- What a request in a session whose frame was or was not seen before is answered. -/
theorem serve_countable {g : Gateway} {req : Request} {fields : List (String × Json)} {reply : Json}
    (cached : g.CacheCountable) (read : readRequest rt p.tenant req = .ok r)
    (isObj : r.body = .obj fields)
    (replies : io.backend = .reply reply) (countable : Countable reply) :
    (g.serve rt p req io).2.CacheCountable ∧
      (g.serve rt p req io).2.meter = (observeLast rt g.meter r).2 ∧
      match (observeLast rt g.meter r).1 with
      | .error _ => (g.serve rt p req io).1.response = .internalError
      | .ok (redundant, _) => ∃ body headers, (g.serve rt p req io).1.response = .json 200 body (some headers) ∧
          headers.screenRedundancyPct = pyRound 1 (100 * redundant) := by
  simp only [serve, read]
  cases observed : (observeLast rt g.meter r).1 with
  | error e => exact ⟨cached, rfl, rfl⟩
  | ok obs =>
    have fromCache : ∀ c, (if p.tenant.cacheEnabled then g.cache.get? r.session else none) =
      some c → Countable c.resp := by
      intro c found
      split at found
      · exact cached _ c found
      · cases found
    obtain ⟨resp, countableResp, answered⟩ :=
      answer_countable rt p isObj replies countable fromCache obs.2
    simp only [complete]
    generalize answer rt p.tenant r io obs.2 _ = result at answered
    obtain ⟨result, forwarded⟩ := result
    have observedCached :
      ({ g with meter := (observeLast rt g.meter r).2 } : Gateway).CacheCountable := cached
    rcases answered with rfl | rfl
    · obtain ⟨stays, response⟩ := finish_countable rt p observedCached countableResp obs.1 true
      exact ⟨stays, (finish_frame ..).2.1, response⟩
    · obtain ⟨stays, response⟩ := finish_countable rt p observedCached countableResp obs.1 false
      exact ⟨stays, (finish_frame ..).2.1, response⟩

end Gateway

/-- Messages with one inline image, of no bytes. -/
def screenMessages : Json :=
  .arr [.obj [("role", .str "user"), ("content", .arr [.obj [("type", .str "image_url"),
    ("image_url", .obj [("url", .str "data:image/png;base64,")])]])]]

def screenBody (rawSession : String) : Json :=
  .obj [("user", .str rawSession), ("messages", screenMessages)]

def screenRequest (secret rawSession : String) : Request where
  headers := Dict.ofList [("x-api-key", secret)]
  body := some (screenBody rawSession)

def screenReading (rt : Runtime) (tenant : Tenant) (secret rawSession : String) : Reading where
  body := screenBody rawSession
  rawSession := .str rawSession
  session := sessionKey tenant.name rawSession
  baseline := baselineOf tenant (screenRequest secret rawSession)
  dims := [imgDims rt []]
  imgBytes := [[]]
  text := ""

/-- A backend that reports one completion token. -/
def oneToken : Outside where
  now := 0
  created := 0
  today := ""
  backend := .reply (.obj [("usage", .obj [("completion_tokens", .num 1)])])

theorem bearer_screenRequest (secret rawSession : String) :
    bearer (screenRequest secret rawSession) = some secret := rfl

theorem countable_oneToken : Countable (.obj [("usage", .obj [("completion_tokens", .num 1)])]) :=
  ⟨_, _, 1, rfl, rfl, rfl, by norm_num⟩

theorem extract_screen (rt : Runtime) :
    extract rt screenMessages = .ok ([imgDims rt []], [[]], "") := by
  rfl

theorem readRequest_screen (rt : Runtime) (tenant : Tenant) (secret : String) {rawSession : String}
    (named : rawSession ≠ "") :
    readRequest rt tenant (screenRequest secret rawSession) =
      .ok (screenReading rt tenant secret rawSession) := by
  have raw : rawSessionOf (screenRequest secret rawSession) (screenBody rawSession) =
    .ok (.str rawSession) := by
    have isUser : pyOr (some (.str rawSession)) (.str "default") = .str rawSession := by
      simp [pyOr, Json.truthy, named]
    exact congrArg Except.ok isUser
  have body : (screenRequest secret rawSession).body.elim (throw .valueError) pure =
      (.ok (screenBody rawSession) : Except Raised Json) := rfl
  have messages : (screenBody rawSession).getD "messages" (.arr []) = .ok screenMessages := rfl
  simp only [readRequest, body, bind, Except.bind, raw, messages, extract_screen]
  rfl

section Leak

variable {settings : Settings} {rt : Runtime} {db : ControlDb} {a b : String} {orgA orgB : Org}

/-- A screenshot in a session is answered with the redundancy the meter finds, or not at
    all if it does not decode. -/
theorem screen_answer {g : Gateway} {secret rawSession : String} {p : Principal}
    (sound : g.Sound settings db)
    (cached : g.CacheCountable) (key : looksLikeKey secret = true)
    (looked : db.lookup settings (hashSecret rt secret) = some p)
    (credit : Metering.quotaOk g.db p.orgId = true)
    (named : rawSession ≠ "") :
    let seen := g.meter.observe rt (sessionKey p.tenant.name rawSession) []
    let handled := g.chatCompletions settings rt (screenRequest secret rawSession) oneToken
    handled.2.CacheCountable ∧ handled.2.meter = seen.2 ∧
      match seen.1 with
      | .error _ => handled.1.response = .internalError
      | .ok obs => ∃ body headers, handled.1.response = .json 200 body (some headers) ∧
          headers.screenRedundancyPct = pyRound 1 (100 * obs.redundantFrac) := by
  intro seen handled
  have served :=
    sound.toFixedAccounts.served (bearer_screenRequest secret rawSession) key looked credit oneToken
  have resolved : ({ g with resolver := (resolve settings rt g.db g.resolver oneToken.now
      (bearer (screenRequest secret rawSession))).2 } : Gateway).CacheCountable := cached
  have replies :
    oneToken.backend = .reply (.obj [("usage", .obj [("completion_tokens", .num 1)])]) := rfl
  obtain ⟨stays, meter, answered⟩ :=
    Gateway.serve_countable rt p resolved (readRequest_screen rt p.tenant secret named)
    rfl replies countable_oneToken
  have last : Gateway.observeLast rt g.meter (screenReading rt p.tenant secret rawSession) =
      (seen.1.map fun obs => (obs.redundantFrac, obs.exactDuplicate), seen.2) := rfl
  simp only [last] at meter answered
  rw [← served] at stays meter answered
  refine ⟨stays, meter, ?_⟩
  cases observed : seen.1 with
  | error e =>
    rw [observed] at answered
    exact answered
  | ok obs =>
    rw [observed] at answered
    exact answered

/-- Two served organisations with a common session key are not isolated. -/
theorem not_isolated_of_collision (provisioned : db.Provisioned)
    (presentA : db.orgs.get? a = some orgA)
    (presentB : db.orgs.get? b = some orgB) (distinct : a ≠ b) (collide : SessionsCollide orgA orgB)
    (admittedA : db.Admitted settings rt a) (admittedB : db.Admitted settings rt b) :
      ¬ Isolated settings rt db a b := by
  intro isolated
  obtain ⟨⟨secretA, pA, keyA, lookedA, isA⟩, creditA⟩ := admittedA
  obtain ⟨⟨secretB, pB, keyB, lookedB, isB⟩, creditB⟩ := admittedB
  obtain ⟨raw, raw', same⟩ := collide
  have sound : Gateway.Sound settings db { db } := Gateway.sound_start provisioned
  have noneCached : ({ db } : Gateway).CacheCountable := nofun
  have ownerA : db.ownerOf rt (screenRequest secretA (raw ++ "s")) = some a := by
    obtain ⟨key, -, found, own, -⟩ := ControlDb.lookup_principal provisioned lookedA
    rw [ControlDb.ownerOf, bearer_screenRequest, Option.bind_some, found, Option.map_some, own, isA]
  have ownerB : db.ownerOf rt (screenRequest secretB (raw' ++ "s")) = some b := by
    obtain ⟨key, -, found, own, -⟩ := ControlDb.lookup_principal provisioned lookedB
    rw [ControlDb.ownerOf, bearer_screenRequest, Option.bind_some, found, Option.map_some, own, isB]
  have nameA : pA.tenant.name = orgA.tenantName := by
    obtain ⟨-, org, -, -, -, found, name⟩ := ControlDb.lookup_principal provisioned lookedA
    rw [isA] at found
    rw [name, Option.some.inj (found.symm.trans presentA)]
  have nameB : pB.tenant.name = orgB.tenantName := by
    obtain ⟨-, org, -, -, -, found, name⟩ := ControlDb.lookup_principal provisioned lookedB
    rw [isB] at found
    rw [name, Option.some.inj (found.symm.trans presentB)]
  have sameKey : sessionKey pA.tenant.name (raw ++ "s") = sessionKey pB.tenant.name
    (raw' ++ "s") := by
    rw [nameA, nameB, sessionKey_append, sessionKey_append, same]
  have named : ∀ s : String, s ++ "s" ≠ "" := by
    intro s empty
    simpa using congrArg String.toList empty
  -- the first organisation's screenshot, and the second's after it
  obtain ⟨cached, meter, -⟩ :=
    screen_answer sound noneCached keyA lookedA (isA ▸ creditA) (named raw)
  have soundAfter : Gateway.Sound settings db
      (Gateway.chatCompletions settings rt { db }
        (screenRequest secretA (raw ++ "s")) oneToken).2 :=
    sound.chatCompletions provisioned (screenRequest secretA (raw ++ "s")) oneToken
  have creditAfter :
    Metering.quotaOk
    (Gateway.chatCompletions settings rt { db } (screenRequest secretA (raw ++ "s"))
      oneToken).2.db pB.orgId = true := by
    rw [isB, Gateway.quotaOk_other provisioned sound presentA distinct ownerA oneToken]
    exact creditB
  obtain ⟨-, -, after⟩ := screen_answer soundAfter cached keyB lookedB creditAfter (named raw')
  have unseen : (({} : RedundancyMeter).hash).get? (sessionKey pB.tenant.name (raw' ++ "s")) =
    none := rfl
  have seen :
    (RedundancyMeter.observe rt {} (sessionKey pB.tenant.name (raw' ++ "s")) []).2.hash.get?
      (sessionKey pB.tenant.name (raw' ++ "s")) = some (rt.sha256 []) :=
  (RedundancyMeter.observe_first unseen).1
  obtain ⟨obs, m', again, -, unchanged⟩ := RedundancyMeter.observe_again seen
  rw [sameKey] at meter
  rw [meter] at after
  simp only [again, unchanged] at after
  obtain ⟨body, headers, response, redundancy⟩ := after
  -- the second's screenshot alone
  obtain ⟨-, -, alone⟩ := screen_answer sound noneCached keyB lookedB (isB ▸ creditB) (named raw')
  have runs :=
    isolated [(screenRequest secretA (raw ++ "s"), oneToken),
      (screenRequest secretB (raw' ++ "s"), oneToken)]
    (by simp [ownerA, ownerB])
  simp only [Machine.trace, ownerA, ownerB, Option.some.injEq, distinct, distinct.symm,
    List.filter_cons, List.filter_nil,
    decide_false, decide_true, not_true, not_false_eq_true, Bool.false_eq_true, if_true, if_false,
      List.cons.injEq,
    Prod.mk.injEq, true_and, and_true] at runs
  have sameResponse : Response.json 200 body (some headers) =
      (Gateway.chatCompletions settings rt { db }
        (screenRequest secretB (raw' ++ "s")) oneToken).1.response :=
    response.symm.trans (congrArg Handled.response runs)
  cases first : (RedundancyMeter.observe rt {} (sessionKey pB.tenant.name (raw' ++ "s")) []).1 with
  | error e =>
    rw [first] at alone
    rw [alone] at sameResponse
    cases sameResponse
  | ok obs' =>
    rw [first] at alone
    obtain ⟨body', headers', response', redundancy'⟩ := alone
    rw [response'] at sameResponse
    obtain ⟨-, -, sameHeaders⟩ := Response.json.inj sameResponse
    obtain rfl := Option.some.inj sameHeaders
    rw [redundancy, (RedundancyMeter.observe_first unseen).2 obs' first] at redundancy'
    exact absurd redundancy' (by decide +kernel)

end Leak

/-! ## Exactly when organisations are isolated -/

/-- Two organisations of a provisioned platform are isolated from one another exactly if
    no session ids give them a common session key, or one of them is never served. -/
theorem tenants_isolated_iff (settings : Settings) (rt : Runtime) (ops : List ControlOp)
    {a b : String} {orgA orgB : Org}
    (presentA : ((controlPlane settings rt).exec {} ops).orgs.get? a = some orgA)
    (presentB : ((controlPlane settings rt).exec {} ops).orgs.get? b = some orgB)
    (distinct : a ≠ b) :
    Isolated settings rt ((controlPlane settings rt).exec {} ops) a b ↔
      ¬ (SessionsCollide orgA orgB ∧
        ((controlPlane settings rt).exec {} ops).Admitted settings rt a ∧
        ((controlPlane settings rt).exec {} ops).Admitted settings rt b) := by
  have provisioned := ControlDb.provisioned_of_run settings rt ops
  constructor
  · rintro isolated ⟨collide, admittedA, admittedB⟩
    exact not_isolated_of_collision provisioned presentA presentB distinct collide admittedA admittedB isolated
  · intro exempt
    by_cases collide : SessionsCollide orgA orgB
    · -- one of the two never reaches the meter or the cache
      by_cases admittedB : ((controlPlane settings rt).exec {} ops).Admitted settings rt b
      · have notA := fun admittedA => exempt ⟨collide, admittedA, admittedB⟩
        exact isolated_of_sessions provisioned presentA presentB distinct (fun _ => true)
          (fun admittedA => absurd admittedA notA) (fun _ _ => rfl)
      · exact isolated_of_sessions provisioned presentA presentB distinct (fun _ => false)
          (fun _ _ => rfl) (fun admitted => absurd admitted admittedB)
    · -- the sessions of `b` are the keys its name can give
      refine isolated_of_sessions provisioned presentA presentB distinct
        (fun key => (orgB.tenantName ++ "/").toList.isPrefixOf key.toList) ?_ ?_
      · intro _ raw
        refine Bool.eq_false_iff.2 fun inside => collide ?_
        obtain ⟨rest, key⟩ := List.isPrefixOf_iff_prefix.1 inside
        refine ⟨raw, String.ofList rest, String.toList_inj.1 ?_⟩
        rw [toList_sessionKey orgB.tenantName, String.toList_ofList, key]
      · intro _ raw
        rw [toList_sessionKey]
        exact List.isPrefixOf_iff_prefix.2 (List.prefix_append _ _)

/-! ## Two accounts named `sam` -/

/-- Libraries of which only the hash is looked at: it spells the bytes out. -/
def plainRuntime : Runtime where
  sha256 bytes := String.ofList ('#' :: bytes.map fun b => Char.ofNat b.toNat)
  str _ := ""
  imageSize _ := some (1280, 800)
  luma _ := some (NDArray.ofFn [1, 1] fun _ => 0)
  haveCv := true

def hostedSettings : Settings where
  hostedPoolUrl := "http://pool"

/-- Sign-ups of `sam@a.com` and `sam@b.com`: both organisations are called `sam`. -/
def samSignups : List ControlOp :=
  [.signup "github" "1" "sam@a.com" "" { orgId := "org_1", userId := "user_1", keyId := "key_1", token := "k1" },
   .signup "github" "2" "sam@b.com" "" { orgId := "org_2", userId := "user_2", keyId := "key_2", token := "k2" }]

def samDb : ControlDb := (controlPlane hostedSettings plainRuntime).exec {} samSignups

def samRequest (secret : String) : Request where
  headers := Dict.ofList [("authorization", "Bearer " ++ secret)]
  body := some (.obj [("messages", .arr [.obj [("role", .str "user"), ("content",
    .arr [.obj [("type", .str "text"), ("text", .str "Where do I click?")],
      .obj [("type", .str "image_url"),
        ("image_url", .obj [("url", .str "data:image/png;base64,SGkh")])]])]])])

def clickReply (at_ : String) : Outside :=
  { oneToken with backend := .reply (.obj [("choices", .arr [.obj [("message", .obj [("content", .str at_)])]]),
      ("usage", .obj [("completion_tokens", .num 9)])]) }

def samRun : List (Request × Outside) :=
  [(samRequest "dexa_live_k1", clickReply "CLICK(1, 1)"),
    (samRequest "dexa_live_k2", clickReply "CLICK(2, 2)")]

/-- The second `sam` is served the first one's completion from the cache; without the first
    one's request it is not. -/
theorem sams_not_isolated :
    samDb.orgs.keys = ["org_1", "org_2"] ∧
      ¬ Isolated hostedSettings plainRuntime samDb "org_1" "org_2" := by
  refine ⟨by decide +kernel, fun isolated => ?_⟩
  have runs := isolated samRun (by decide +kernel)
  exact absurd (congrArg (List.map fun e => e.2.response.fromCache) runs) (by decide +kernel)

theorem tenants_isolated_iff_sams :
    Isolated hostedSettings plainRuntime samDb "org_1" "org_2" ↔
      ¬ (SessionsCollide { id := "org_1", name := "sam" } { id := "org_2", name := "sam" } ∧
        samDb.Admitted hostedSettings plainRuntime "org_1" ∧
          samDb.Admitted hostedSettings plainRuntime "org_2") :=
  tenants_isolated_iff hostedSettings plainRuntime samSignups (by decide +kernel)
    (by decide +kernel) (by decide)

end Dexa.Platform
