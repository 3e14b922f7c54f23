import Dexa.Platform.SharedSession

/-! # The exact-repeat cache

The gateway remembers, per session, the last completion under the hashes of the last image
and of all text joined by newlines, and serves it when both hashes recur on a duplicate
frame.  Roles, message and part boundaries, earlier images and sampling parameters are not
part of the key.  A cached response is the completion of an earlier request of the session
with the same text and last image; it is that of an identical request in every run where
these two determine the request.
-/

namespace Dexa.Platform

open Dexa.Lib

/-- What the handler reads from a request that its key admits, over a fixed database. -/
def ControlDb.readingOf (settings : Settings) (rt : Runtime) (db : ControlDb) (req : Request) :
    Option Reading :=
  match bearer req with
  | none => none
  | some secret =>
    match db.lookup settings (hashSecret rt secret) with
    | none => none
    | some p => (readRequest rt p.tenant req).toOption

/-- The body fields that are neither the messages nor replaced or read by the gateway itself. -/
def IsParameter (key : String) : Prop := key ∉ ["messages", "user", "model", "stream"]

/-- The same messages and the same sampling parameters. -/
def Identical (r r' : Reading) : Prop :=
  r.body.get "messages" = r'.body.get "messages" ∧ ∀ key, IsParameter key →
    r.body.get key = r'.body.get key

/-- The same completion, whatever the gateway reports with it. -/
def SameCompletion (resp resp' : Json) : Prop :=
  ∀ key, key ≠ "model" → key ≠ "dexa" → resp.get key = resp'.get key

/-- Every response from the cache repeats the completion of an earlier request of the same
    session, one that was not itself answered from the cache, and the two requests are
    identical. -/
def ServesOnlyRepeats (settings : Settings) (rt : Runtime) (db : ControlDb)
    (requests : List (Request × Outside)) : Prop :=
  ∀ (i : Nat) (e : Request × Outside) (handled : Handled),
    ((gateway settings rt).trace { db } requests)[i]? = some (e, handled) →
      handled.response.fromCache = some true →
    ∃ (j : Nat) (e' : Request × Outside) (handled' : Handled) (r r' : Reading) (body body' : Json)
      (headers headers' : DexaHeaders), j < i ∧
      ((gateway settings rt).trace { db } requests)[j]? = some (e', handled') ∧
      handled.response = .json 200 body (some headers) ∧
        handled'.response = .json 200 body' (some headers') ∧
      headers'.cacheHit = false ∧ SameCompletion body body' ∧
      db.readingOf settings rt e.1 = some r ∧ db.readingOf settings rt e'.1 = some r' ∧
        r.session = r'.session ∧
      Identical r r'

/-- Requests of one session with the same joined text and the same last image are identical. -/
def Distinguished (settings : Settings) (rt : Runtime) (db : ControlDb)
    (requests : List (Request × Outside)) : Prop :=
  ∀ e ∈ requests, ∀ e' ∈ requests, ∀ r r' img, db.readingOf settings rt e.1 = some r →
    db.readingOf settings rt e'.1 = some r' → r.session = r'.session → r.text = r'.text →
    r.imgBytes.getLast? = some img → r'.imgBytes.getLast? = some img → Identical r r'

theorem outTokens_setItem {resp resp' : Json} {key : String} {v : Json}
    (set : resp.setItem key v = .ok resp')
    (usage : key ≠ "usage") (choices : key ≠ "choices") : outTokens resp' = outTokens resp := by
  obtain ⟨fields, rfl, rfl⟩ := Json.setItem_ok set
  simp only [outTokens, Json.get, Json.item, Dict.lookup_assign, if_neg usage, if_neg choices]

theorem SameCompletion.refl (resp : Json) : SameCompletion resp resp := fun _ _ _ => rfl

theorem SameCompletion.setItem {resp resp' base : Json} {key : String} {v : Json}
    (same : SameCompletion resp base)
    (set : resp.setItem key v = .ok resp') (reported : key = "model" ∨ key = "dexa") :
      SameCompletion resp' base := by
  intro key' notModel notDexa
  have other : key' ≠ key := by
    rcases reported with rfl | rfl
    · exact notModel
    · exact notDexa
  exact (Json.get_setItem_ne set other).trans (same key' notModel notDexa)

namespace Gateway

variable {rt : Runtime} {p : Principal} {r : Reading} {io : Outside}

/-- How a completion is reported: not at all, only into the cache, or in full. -/
inductive Finished (rt : Runtime) (g : Gateway) (p : Principal) (r : Reading) (resp : Json)
    (hit : Bool) :
    Response × Gateway → Prop where
  | notAnObject {g' : Gateway} (cache : g'.cache = g.cache) :
      Finished rt g p r resp hit (.internalError, g')
  | uncounted {g' : Gateway} {named : Json} {e : Raised}
      (set : resp.setItem "model" (.str "dexa-cua-vlm") = .ok named)
      (raises : outTokens named = .error e)
      (cache : g'.cache = (g.store rt p.tenant r named).cache) :
      Finished rt g p r resp hit (.internalError, g')
  | told {g' : Gateway} {named told info : Json} {headers : DexaHeaders} {q : ℚ}
      (setModel : resp.setItem "model" (.str "dexa-cua-vlm") = .ok named)
      (counted : outTokens named = .ok q)
      (setDexa : named.setItem "dexa" info = .ok told) (flag : headers.cacheHit = hit)
      (cache : ∀ k, g'.cache.get? k = (g.store rt p.tenant r told).cache.get? k) :
      Finished rt g p r resp hit (.json 200 told (some headers), g')

variable (rt p r io) in
theorem finish_finished (g : Gateway) (redundant : ℚ) (resp : Json) (hit : Bool) :
    Finished rt g p r resp hit (g.finish rt p r io redundant resp hit) := by
  rw [finish_eq]
  cases setModel : resp.setItem "model" (.str "dexa-cua-vlm") with
  | error e => exact .notAnObject rfl
  | ok named =>
    simp only
    cases counted : outTokens named with
    | error e => exact .uncounted setModel counted rfl
    | ok out =>
      obtain ⟨fields, -, isObj⟩ := Json.setItem_ok setModel
      have setDexa : named.setItem "dexa" (infoOf p.tenant r (savingsOf r out hit) redundant hit) =
          .ok (.obj (Dict.assign "dexa" (infoOf p.tenant r (savingsOf r out hit) redundant hit)
            (Dict.assign "model" (.str "dexa-cua-vlm") fields))) := by rw [isObj, Json.setItem]
      simp only [setDexa]
      refine .told setModel counted setDexa rfl fun k => ?_
      -- the entry written before the metering is overwritten
      cases caches : p.tenant.cacheEnabled with
      | false => simp [store, meterUsage, caches]
      | true =>
        simp only [store, meterUsage, caches, if_true, Dict.get?_set]
        split <;> rfl

/-- What serving a request does to the cache: nothing, or a completion is reported, from
    the session's entry on a match of both hashes or else from a new reply. -/
inductive Served (rt : Runtime) (g : Gateway) (p : Principal) (req : Request) : Response × Gateway →
    Prop where
  | unanswered {response : Response} {g' : Gateway} (cache : g'.cache = g.cache)
      (noHit : response.fromCache = none) :
      Served rt g p req (response, g')
  | fromCache {r : Reading} {c : Cached} {img : Bytes} {out : Response × Gateway} {g' : Gateway}
      (read : readRequest rt p.tenant req = .ok r)
      (entry : g.cache.get? r.session = some c) (last : r.imgBytes.getLast? = some img)
      (sameImg : c.imgHash = r.imgHash rt) (sameText : c.textHash = r.textHash rt)
      (before : g'.cache = g.cache)
      (finished : Finished rt g' p r c.resp true out) : Served rt g p req out
  | fromReply {r : Reading} {resp : Json} {out : Response × Gateway} {g' : Gateway}
      (read : readRequest rt p.tenant req = .ok r) (before : g'.cache = g.cache)
      (finished : Finished rt g' p r resp false out) : Served rt g p req out

/-- Only a duplicate of a frame counts as one: without an image there is none. -/
theorem last_of_exactDup {m m' : RedundancyMeter} {redundant : ℚ}
    (observed : observeLast rt m r = (.ok (redundant, true), m')) :
      ∃ img, r.imgBytes.getLast? = some img := by
  cases last : r.imgBytes.getLast? with
  | none => simp [observeLast, last] at observed
  | some img => exact ⟨img, rfl⟩

theorem answer_cached {exactDup : Bool} {prev : Option Cached} {resp : Json}
    (h : (answer rt p.tenant r io exactDup prev).1 = .cached resp) :
    ∃ c, prev = some c ∧ c.resp = resp ∧ exactDup = true ∧ c.imgHash = r.imgHash rt ∧
      c.textHash = r.textHash rt := by
  simp only [answer] at h
  cases found :
    prev.filter fun c => exactDup && c.imgHash == r.imgHash rt && c.textHash == r.textHash rt with
  | some c =>
    simp only [found, Answer.cached.injEq] at h
    obtain ⟨isPrev, hashes⟩ := Option.filter_eq_some_iff.1 found
    simp only [Bool.and_eq_true, beq_iff_eq] at hashes
    exact ⟨c, isPrev, h, hashes.1.1, hashes.1.2, hashes.2⟩
  | none =>
    simp only [found] at h
    split at h
    · cases h
    · split at h
      · cases h
      · split at h <;> cases h

variable (rt p) in
theorem serve_served (g : Gateway) (req : Request) (io : Outside) :
    Served rt g p req ((g.serve rt p req io).1.response, (g.serve rt p req io).2) := by
  simp only [serve]
  cases read : readRequest rt p.tenant req with
  | error e => exact .unanswered rfl rfl
  | ok r =>
    simp only
    cases observed : observeLast rt g.meter r with
    | mk obs meter =>
      cases obs with
      | error e => exact .unanswered rfl rfl
      | ok obs =>
        obtain ⟨redundant, exactDup⟩ := obs
        simp only [complete]
        cases answered : answer rt p.tenant r io exactDup
            (if p.tenant.cacheEnabled then g.cache.get? r.session else none) with
        | mk result forwarded =>
          cases result with
          | cached resp =>
            obtain ⟨c, prev, rfl, dup, sameImg, sameText⟩ :=
              answer_cached (congrArg Prod.fst answered)
            subst dup
            obtain ⟨img, last⟩ := last_of_exactDup observed
            have entry : g.cache.get? r.session = some c := by
              split at prev
              · exact prev
              · cases prev
            exact .fromCache read entry last sameImg sameText
              (show ({ g with meter } : Gateway).cache = g.cache from rfl)
              (finish_finished rt p r io { g with meter } redundant c.resp true)
          | completed resp =>
            exact .fromReply read (show ({ g with meter } : Gateway).cache = g.cache from rfl)
              (finish_finished rt p r io { g with meter } redundant resp false)
          | backendError message => exact .unanswered rfl rfl
          | raised => exact .unanswered rfl rfl

variable {settings : Settings} {db : ControlDb}

/-- The entry holds the hashes of an earlier request of the session that was not answered
    from the cache and, if the completion can be reported at all, the completion that
    request was answered with. -/
def Origin (settings : Settings) (rt : Runtime) (db : ControlDb)
    (past : List ((Request × Outside) × Handled))
    (session : String) (c : Cached) : Prop :=
  ∃ entry ∈ past, ∃ r, db.readingOf settings rt entry.1.1 = some r ∧ r.session = session ∧
    c.imgHash = r.imgHash rt ∧
    c.textHash = r.textHash rt ∧ ∀ q, outTokens c.resp = .ok q →
      ∃ body headers, entry.2.response = .json 200 body (some headers) ∧ headers.cacheHit = false ∧
        SameCompletion c.resp body

def Origins (settings : Settings) (rt : Runtime) (db : ControlDb)
    (past : List ((Request × Outside) × Handled))
    (g : Gateway) : Prop :=
  ∀ session c, g.cache.get? session = some c → Origin settings rt db past session c

theorem Origin.more {past : List ((Request × Outside) × Handled)} {session : String} {c : Cached}
    (origin : Origin settings rt db past session c) (entry : (Request × Outside) × Handled) :
    Origin settings rt db (past ++ [entry]) session c := by
  obtain ⟨e, member, rest⟩ := origin
  exact ⟨e, List.mem_append_left _ member, rest⟩

/-- Storing an entry that has an origin. -/
theorem Origins.store {past : List ((Request × Outside) × Handled)} {g : Gateway} {resp : Json}
    (origins : Origins settings rt db past g)
    (origin : Origin settings rt db past r.session ⟨r.imgHash rt, r.textHash rt, resp⟩)
    (tenant : Tenant) :
    Origins settings rt db past (g.store rt tenant r resp) := by
  unfold Gateway.store
  split
  · exact Dict.forall_get?_set origins origin
  · exact origins

/-- The origin of a served completion is also that of what is cached of it. -/
theorem Origin.reported {past : List ((Request × Outside) × Handled)} {c : Cached} {resp' : Json}
    (origin : Origin settings rt db past r.session c) (sameImg : c.imgHash = r.imgHash rt)
    (sameText : c.textHash = r.textHash rt)
    (tokens : ∀ q, outTokens resp' = .ok q → outTokens c.resp = .ok q)
    (same : ∀ body, SameCompletion c.resp body → SameCompletion resp' body) :
    Origin settings rt db past r.session ⟨r.imgHash rt, r.textHash rt, resp'⟩ := by
  obtain ⟨entry, member, r₀, read, session, img, text, told⟩ := origin
  refine ⟨entry, member, r₀, read, session, sameImg.symm.trans img, sameText.symm.trans text, ?_⟩
  intro q counted
  obtain ⟨body, headers, response, fresh, completion⟩ := told q (tokens q counted)
  exact ⟨body, headers, response, fresh, same body completion⟩

theorem readingOf_eq {req : Request} {secret : String} (presented : bearer req = some secret)
    (looked : db.lookup settings (hashSecret rt secret) = some p)
    (read : readRequest rt p.tenant req = .ok r) :
    db.readingOf settings rt req = some r := by
  simp [ControlDb.readingOf, presented, looked, read, Except.toOption]

/-- Origins after a completion is reported, from an origin for each reply that is stored. -/
theorem origins_finished {g g' : Gateway} {past : List ((Request × Outside) × Handled)}
    {resp : Json} {hit : Bool}
    {response : Response} (origins : Origins settings rt db past g)
    (finished : Finished rt g p r resp hit (response, g'))
    (stored : ∀ resp', SameCompletion resp' resp → outTokens resp' = outTokens resp →
      (∀ q, outTokens resp' = .ok q → ∃ headers, response = .json 200 resp' (some headers) ∧
        headers.cacheHit = hit) →
      Origin settings rt db past r.session ⟨r.imgHash rt, r.textHash rt, resp'⟩) :
    Origins settings rt db past g' := by
  cases finished with
  | notAnObject cache =>
    intro session c present
    rw [cache] at present
    exact origins session c present
  | uncounted set raises cache =>
    have origin := stored _ ((SameCompletion.refl resp).setItem set (.inl rfl))
      (outTokens_setItem set (by decide) (by decide))
      (fun q counted => by rw [raises] at counted; cases counted)
    intro session c present
    rw [cache] at present
    exact origins.store origin p.tenant session c present
  | told setModel counted setDexa flag cache =>
    have origin :=
      stored _ (((SameCompletion.refl resp).setItem setModel (.inl rfl)).setItem setDexa (.inr rfl))
      ((outTokens_setItem setDexa (by decide) (by decide)).trans
        (outTokens_setItem setModel (by decide) (by decide)))
      (fun q counted => ⟨_, rfl, flag⟩)
    intro session c present
    rw [cache session] at present
    exact origins.store origin p.tenant session c present

theorem origins_step {g : Gateway} {past : List ((Request × Outside) × Handled)}
    (fixed : FixedAccounts settings db g)
    (origins : Origins settings rt db past g) (e : Request × Outside) :
    Origins settings rt db (past ++ [(e, (g.chatCompletions settings rt e.1 e.2).1)])
      (g.chatCompletions settings rt e.1 e.2).2 := by
  have later :
    Origins settings rt db (past ++ [(e, (g.chatCompletions settings rt e.1 e.2).1)]) g :=
    fun session c present => (origins session c present).more _
  rcases chatCompletions_cases rt fixed e.1 e.2 with ⟨-, turnedAway⟩ | ⟨secret, p, presented, -,
    looked, -, handled⟩
  · rw [turnedAway]
    exact later
  · have outcome := serve_served rt p
      { g with resolver := (resolve settings rt g.db g.resolver e.2.now (bearer e.1)).2 } e.1 e.2
    rw [← handled] at outcome
    generalize g.chatCompletions settings rt e.1 e.2 = out at outcome later ⊢
    obtain ⟨result, g'⟩ := out
    generalize same : (result.response, g') = o at outcome
    cases outcome with
    | unanswered cache noHit =>
      obtain ⟨-, rfl⟩ := Prod.mk.inj same
      intro session c present
      rw [cache] at present
      exact later session c present
    | fromCache read entry last sameImg sameText before finished =>
      subst same
      refine origins_finished
        (fun session c present => later session c (before ▸ present)) finished ?_
      intro resp' completion tokens _
      refine (later _ _ entry).reported sameImg sameText (fun q counted => tokens ▸ counted) ?_
      intro body base key notModel notDexa
      exact (completion key notModel notDexa).trans (base key notModel notDexa)
    | fromReply read before finished =>
      subst same
      refine origins_finished
        (fun session c present => later session c (before ▸ present)) finished ?_
      intro resp' completion tokens told
      refine ⟨(e, result), by simp, _, readingOf_eq presented looked read, rfl, rfl, rfl, ?_⟩
      intro q counted
      obtain ⟨headers, response, fresh⟩ := told q counted
      exact ⟨resp', headers, response, fresh, .refl resp'⟩

/-- A response from the cache, with the entry it was made from. -/
theorem hit_entry {g : Gateway} (fixed : FixedAccounts settings db g) (e : Request × Outside)
    (hit : (g.chatCompletions settings rt e.1 e.2).1.response.fromCache = some true) :
    ∃ r c img body headers q, db.readingOf settings rt e.1 = some r ∧
      g.cache.get? r.session = some c ∧
      r.imgBytes.getLast? = some img ∧ c.imgHash = r.imgHash rt ∧ c.textHash = r.textHash rt ∧
      (g.chatCompletions settings rt e.1 e.2).1.response = .json 200 body (some headers) ∧
        outTokens c.resp = .ok q ∧
      SameCompletion body c.resp := by
  rcases chatCompletions_cases rt fixed e.1 e.2 with ⟨silent, -⟩ | ⟨secret, p, presented, -,
    looked, -, handled⟩
  · rw [silent] at hit
    cases hit
  · have outcome := serve_served rt p
      { g with resolver := (resolve settings rt g.db g.resolver e.2.now (bearer e.1)).2 } e.1 e.2
    rw [← handled] at outcome
    generalize same :
      ((g.chatCompletions settings rt e.1 e.2).1.response,
      (g.chatCompletions settings rt e.1 e.2).2) = o
      at outcome
    cases outcome with
    | unanswered cache noHit =>
      rw [(Prod.mk.inj same).1, noHit] at hit
      cases hit
    | fromReply read before finished =>
      -- a new reply is reported as a miss
      cases finished with
      | notAnObject cache => rw [(Prod.mk.inj same).1] at hit; cases hit
      | uncounted set raises cache => rw [(Prod.mk.inj same).1] at hit; cases hit
      | told setModel counted setDexa flag cache =>
        rw [(Prod.mk.inj same).1, Response.fromCache, flag] at hit
        cases hit
    | fromCache read entry last sameImg sameText before finished =>
      cases finished with
      | notAnObject cache => rw [(Prod.mk.inj same).1] at hit; cases hit
      | uncounted set raises cache => rw [(Prod.mk.inj same).1] at hit; cases hit
      | told setModel counted setDexa flag cache =>
        rw [outTokens_setItem setModel (by decide) (by decide)] at counted
        exact ⟨_, _, _, _, _, _, readingOf_eq presented looked read, entry, last, sameImg, sameText,
          (Prod.mk.inj same).1, counted,
            ((SameCompletion.refl _).setItem setModel (.inl rfl)).setItem setDexa (.inr rfl)⟩

/-- In every state of a run the accounts are as they were and every cache entry has its
    origin in the run so far. -/
theorem origins_run (settings : Settings) (rt : Runtime) (db : ControlDb)
    (requests : List (Request × Outside)) :
    FixedAccounts settings db ((gateway settings rt).exec { db } requests) ∧
      Origins settings rt db ((gateway settings rt).trace { db } requests)
        ((gateway settings rt).exec { db } requests) := by
  have step : ∀ (past : List ((Request × Outside) × Handled)) (g : Gateway) (e : Request × Outside),
      FixedAccounts settings db g ∧ Origins settings rt db past g →
      FixedAccounts settings db ((gateway settings rt).next g e) ∧
        Origins settings rt db (past ++ [(e, (gateway settings rt).out g e)])
          ((gateway settings rt).next g e) := by
    intro past g e ⟨fixed, origins⟩
    exact ⟨fixed.chatCompletions rt e.1 e.2, origins_step fixed origins e⟩
  have start : FixedAccounts settings db { db } ∧ Origins settings rt db [] { db } :=
    ⟨fixedAccounts_start db, nofun⟩
  exact Machine.history_invariant step start requests

end Gateway

/-! ## Responses from the cache -/

/-- Equal hashes of two readings: the same text and the same last image. -/
theorem same_of_hashes {rt : Runtime} (injective : Function.Injective rt.sha256)
    (digest : ∀ bytes, rt.sha256 bytes ≠ "")
    {r r' : Reading} {img : Bytes} (last : r.imgBytes.getLast? = some img)
    (sameImg : r'.imgHash rt = r.imgHash rt)
    (sameText : r'.textHash rt = r.textHash rt) : r.text = r'.text ∧
      r'.imgBytes.getLast? = some img := by
  refine ⟨encode_injective (injective sameText.symm), ?_⟩
  simp only [Reading.imgHash, last] at sameImg
  cases last' : r'.imgBytes.getLast? with
  | none =>
    rw [last'] at sameImg
    exact absurd sameImg.symm (digest img)
  | some img' =>
    rw [last'] at sameImg
    rw [injective sameImg]

/-- Where the joined text and the last image determine the messages and the parameters of
    the requests of a session, a response from the cache answers a request identical to the
    one its completion was made for. -/
theorem serves_only_repeats (settings : Settings) (rt : Runtime) (db : ControlDb)
    (injective : Function.Injective rt.sha256) (digest : ∀ bytes, rt.sha256 bytes ≠ "")
    (requests : List (Request × Outside)) (distinguished : Distinguished settings rt db requests) :
    ServesOnlyRepeats settings rt db requests := by
  intro i e handled here hit
  rw [Machine.trace_getElem?] at here
  obtain ⟨e₀, at_i, pair⟩ := Option.map_eq_some_iff.1 here
  obtain ⟨rfl, rfl⟩ := Prod.mk.inj pair
  -- the state the hit happened in has the origin of its cache entry among the earlier steps
  obtain ⟨fixed, origins⟩ := Gateway.origins_run settings rt db (requests.take i)
  obtain ⟨r, c, img, body, headers, q, read, entry, last, sameImg, sameText, response, counted,
    completion⟩ :=
    Gateway.hit_entry fixed e₀ hit
  obtain ⟨origin, earlier, r', read', session, img', text', told⟩ := origins r.session c entry
  obtain ⟨body', headers', response', fresh, completion'⟩ := told q counted
  obtain ⟨j, at_j⟩ := List.mem_iff_getElem?.1 earlier
  have before : j < i := by
    have short := (List.getElem?_eq_some_iff.1 at_j).1
    simp only [Machine.length_trace, List.length_take] at short
    omega
  have whole : ((gateway settings rt).trace { db } requests)[j]? = some origin := by
    rw [← List.take_append_drop i requests, Machine.trace_append, List.getElem?_append_left]
    · exact at_j
    · exact (List.getElem?_eq_some_iff.1 at_j).1
  have member : origin.1 ∈ requests := by
    rw [Machine.trace_getElem?] at whole
    obtain ⟨e', at_j', rfl⟩ := Option.map_eq_some_iff.1 whole
    exact List.mem_of_getElem? at_j'
  obtain ⟨sameTexts, last'⟩ :=
    same_of_hashes injective digest last (img'.symm.trans sameImg) (text'.symm.trans sameText)
  refine ⟨j, origin.1, origin.2, r, r', body, body', headers, headers', before, whole, response,
    response', fresh, ?_,
    read, read', session.symm, ?_⟩
  · exact fun key notModel notDexa => (completion key notModel notDexa).trans
      (completion' key notModel notDexa)
  · exact distinguished e₀
      (List.mem_of_getElem? at_i) origin.1 member r r' img read read' session.symm sameTexts last last'

/-! ## Requests the key does not tell apart -/

theorem plainRuntime_injective : Function.Injective plainRuntime.sha256 := by
  intro bytes bytes' same
  have spelled := List.cons.inj (String.ofList_injective same)
  refine List.map_injective_iff.2 (fun b b' chars => ?_) spelled.2
  have codes := congrArg Char.toNat chars
  have small : ∀ n < 256, (Char.ofNat n).toNat = n := by decide +kernel
  rw [small _ b.toNat_lt, small _ b'.toNat_lt] at codes
  exact UInt8.toNat_inj.1 codes

theorem plainRuntime_digest (bytes : Bytes) : plainRuntime.sha256 bytes ≠ "" := by
  intro empty
  simpa [plainRuntime] using congrArg String.toList empty

/-- A prompt and a screenshot in one message, sent in a role. -/
def promptBody (role : String) : Json :=
  .obj [("messages", .arr [.obj [("role", .str role), ("content",
    .arr [.obj [("type", .str "text"), ("text", .str "Delete the selected files.")],
      .obj [("type", .str "image_url"),
        ("image_url", .obj [("url", .str "data:image/png;base64,SGkh")])]])]])]

def promptRequest (role : String) : Request × Outside :=
  ({ headers := Dict.ofList [("authorization", "Bearer dexa_live_k1")], body := some (promptBody role) },
    clickReply "CLICK(640, 384)")

theorem body_of_readingOf {settings : Settings} {rt : Runtime} {db : ControlDb} {req : Request}
    {r : Reading}
    (read : db.readingOf settings rt req = some r) : req.body = some r.body := by
  rw [ControlDb.readingOf] at read
  split at read
  · cases read
  · split at read
    · cases read
    · rename_i p _
      cases ran : readRequest rt p.tenant req with
      | error e =>
        rw [ran] at read
        cases read
      | ok r' =>
        rw [ran] at read
        obtain rfl := Option.some.inj read
        cases present : req.body with
        | none => simp [readRequest, present, throw, throwThe, MonadExceptOf.throw, bind,
            Except.bind] at ran
        | some body =>
          simp only [readRequest, present, Option.elim_some, bind, Except.bind, pure,
            Except.pure] at ran
          repeat' split at ran
          all_goals cases ran
          rfl

/-- The completion for a system message is served for a user message of the same text. -/
theorem role_ignored : Function.Injective plainRuntime.sha256 ∧
    ¬ ServesOnlyRepeats hostedSettings plainRuntime samDb [promptRequest "system",
      promptRequest "user"] := by
  refine ⟨plainRuntime_injective, fun repeats => ?_⟩
  obtain ⟨j, e', handled', r, r', -, -, -, -, before, earlier, -, -, -, -, read, read',
    -, identical⟩ :=
    repeats 1 (promptRequest "user") _ rfl (by decide +kernel)
  obtain rfl : j = 0 := by omega
  obtain rfl : promptRequest "system" = e' := congrArg Prod.fst (Option.some.inj earlier)
  have body : r.body = promptBody "user" := (Option.some.inj (body_of_readingOf read)).symm
  have body' : r'.body = promptBody "system" := (Option.some.inj (body_of_readingOf read')).symm
  have messages := identical.1
  rw [body, body'] at messages
  simp [promptBody, Json.get, Dict.lookup] at messages

/-- A request sent twice is served from the cache the second time. -/
theorem serves_only_repeats_twice :
    (((gateway hostedSettings plainRuntime).trace { db := samDb } [promptRequest "user",
      promptRequest "user"]).map
        fun e => e.2.response.fromCache) = [some false, some true] ∧
      ServesOnlyRepeats hostedSettings plainRuntime samDb [promptRequest "user",
        promptRequest "user"] := by
  refine ⟨by decide +kernel,
    serves_only_repeats hostedSettings plainRuntime samDb plainRuntime_injective
    plainRuntime_digest _ ?_⟩
  intro e member e' member' r r' img read read' _ _ _ _
  obtain rfl : e = promptRequest "user" := by simpa using member
  obtain rfl : e' = promptRequest "user" := by simpa using member'
  obtain rfl := Option.some.inj (read.symm.trans read')
  exact ⟨rfl, fun _ _ => rfl⟩

end Dexa.Platform
