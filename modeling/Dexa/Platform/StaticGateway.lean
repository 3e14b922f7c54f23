import Dexa.Lib.Fallible
import Dexa.Platform.ExactRepeatCache
import Dexa.Platform.Ledger

/-! # The gateway without accounts (`dexa_platform/gateway/{app,tenants}.py`)

Without `DEXA_ACCOUNTS` the same handler takes its tenants from a registry and books its requests in
memory.  `Desk` is the handler with any books; a request books at most once, and what it answers
does not depend on the books.
-/

namespace Dexa.Platform

open Dexa.Lib

def demoKey : String := "dexa-demo"

/-- The tenants by key. -/
structure TenantRegistry where
  byKey : Dict String Tenant
  requireAuth : Bool

namespace TenantRegistry

/-- `__init__`; of two tenants with one key the last counts. -/
def ofTenants (tenants : List (String × Tenant)) (requireAuth : Bool) : TenantRegistry :=
  ⟨Dict.ofList tenants, requireAuth⟩

def resolve (registry : TenantRegistry) (key : Option String) : Option Tenant :=
  match key.filter (· ≠ "") |>.bind registry.byKey.get? with
  | some tenant => some tenant
  -- dev convenience: fall back to the demo tenant
  | none => if registry.requireAuth then none else registry.byKey.get? demoKey

/-- `load`, of the tenants that it reads: those of a file, or else the one of the environment. -/
def load (file : Option (List (String × Tenant))) (env : Option (String × Tenant)) (demo : Tenant)
    (requireAuth : Bool) : TenantRegistry :=
  match file with
  | some tenants =>
    ofTenants (if tenants.any (·.1 == demoKey) then tenants
      else tenants ++ [(demoKey, demo)]) requireAuth
  | none => ofTenants ((demoKey, demo) :: env.toList) requireAuth

end TenantRegistry

/-- What the handler keeps from request to request. -/
structure Desk (S : Type) where
  meter : RedundancyMeter := {}
  cache : Dict String Cached := Dict.empty
  books : S

namespace Desk

variable {S : Type} (rt : Runtime)

/-- `_cache[session] = ..` where the tenant caches. -/
def store (d : Desk S) (tenant : Tenant) (r : Reading) (resp : Json) : Desk S :=
  if tenant.cacheEnabled then
    { d with cache := d.cache.set r.session ⟨r.imgHash rt, r.textHash rt, resp⟩ }
  else d

/-- What is booked under a session. -/
def book (booking : String → Metering.Usage → S → S) (d : Desk S) (session : String)
    (u : Metering.Usage) : Desk S :=
  { d with books := booking session u d.books }

variable (booking : String → Metering.Usage → S → S)

/-- From `resp["model"] = ..` to the arguments of `JSONResponse`: cache, book, and report the
    completion. -/
def finish (d : Desk S) (tenant : Tenant) (r : Reading) (redundant : ℚ) (resp : Json)
    (cacheHit : Bool) : Response × Desk S :=
  match resp.setItem "model" (.str "dexa-cua-vlm") with
  | .error _ => (.internalError, d)
  | .ok resp =>
    let d := d.store rt tenant r resp
    match outTokens resp with
    | .error _ => (.internalError, d)
    | .ok out =>
      let saved := savingsOf r out cacheHit
      let d := d.book booking r.session (usageOf saved redundant cacheHit)
      match resp.setItem "dexa" (infoOf tenant r saved redundant cacheHit) with
      | .error _ => (.internalError, d)
      -- the cache holds the same object, so it sees this assignment too
      | .ok resp => (.json 200 resp (some (headersOf tenant r saved redundant cacheHit)),
          d.store rt tenant r resp)

/-- From the cache lookup on. -/
def complete (d : Desk S) (tenant : Tenant) (r : Reading) (io : Outside) (redundant : ℚ)
    (exactDup : Bool) : Handled × Desk S :=
  let prev := if tenant.cacheEnabled then d.cache.get? r.session else none
  match answer rt tenant r io exactDup prev with
  | (.cached resp, forwarded) =>
    let (response, d) := d.finish rt booking tenant r redundant resp true
    ({ response, forwarded }, d)
  | (.completed resp, forwarded) =>
    let (response, d) := d.finish rt booking tenant r redundant resp false
    ({ response, forwarded }, d)
  | (.backendError message, forwarded) => ({ response := .backendError message, forwarded }, d)
  | (.raised, forwarded) => ({ response := .internalError, forwarded }, d)

/-- The handler for a tenant. -/
def serve (d : Desk S) (tenant : Tenant) (req : Request) (io : Outside) : Handled × Desk S :=
  match readRequest rt tenant req with
  | .error _ => ({ response := .internalError }, d)
  | .ok r =>
    let (obs, meter) := Gateway.observeLast rt d.meter r
    let d := { d with meter }
    match obs with
    | .error _ => ({ response := .internalError }, d)
    | .ok (redundant, exactDup) => d.complete rt booking tenant r io redundant exactDup

/-- What a request does, whatever the books are: its answer, the meter and the cache after it, and
    what it books. -/
def outcome (meter : RedundancyMeter) (cache : Dict String Cached) (tenant : Tenant) (req : Request)
    (io : Outside) :
    Handled × Desk (Option (String × Metering.Usage)) :=
  serve rt (fun session u _ => some (session, u)) ⟨meter, cache, none⟩ tenant req io

/-- The outcome, booked in the books `x`. -/
def settle (x : S) (o : Desk (Option (String × Metering.Usage))) : Desk S :=
  { meter := o.meter, cache := o.cache, books := o.books.elim x fun e => booking e.1 e.2 x }

variable {rt booking} {tenant : Tenant} {o : Desk (Option (String × Metering.Usage))}

theorem store_settle (x : S) (r : Reading) (resp : Json) :
    (settle booking x o).store rt tenant r resp = settle booking x (o.store rt tenant r resp) := by
  unfold store
  split <;> rfl

theorem finish_settle (x : S) (unbooked : o.books = none) (r : Reading) (redundant : ℚ)
    (resp : Json) (hit : Bool) :
    (settle booking x o).finish rt booking tenant r redundant resp hit =
      Prod.map id (settle booking x)
        (o.finish rt (fun session u _ => some (session, u)) tenant r redundant resp hit) := by
  simp only [finish]
  cases resp.setItem "model" (.str "dexa-cua-vlm") with
  | error e => rfl
  | ok resp =>
    simp only [store_settle]
    cases outTokens resp with
    | error e => rfl
    | ok out =>
      have booked : (settle booking x (o.store rt tenant r resp)).book booking r.session
        (usageOf (savingsOf r out hit) redundant hit) =
          settle booking x
            ((o.store rt tenant r resp).book (fun session u _ => some (session, u)) r.session
            (usageOf (savingsOf r out hit) redundant hit)) := by
        have still : (o.store rt tenant r resp).books = none := by
          unfold store
          split <;> exact unbooked
        simp [settle, book, still]
      simp only [booked]
      cases resp.setItem "dexa" (infoOf tenant r (savingsOf r out hit) redundant hit) with
      | error e => rfl
      | ok resp => simp only [store_settle, Prod.map, id]

theorem serve_eq (d : Desk S) (req : Request) (io : Outside) : d.serve rt booking tenant req io =
    Prod.map id (settle booking d.books) (outcome rt d.meter d.cache tenant req io) := by
  simp only [outcome, serve]
  cases readRequest rt tenant req with
  | error e => rfl
  | ok r =>
    simp only
    cases (Gateway.observeLast rt d.meter r).1 with
    | error e => rfl
    | ok obs =>
      obtain ⟨redundant, exactDup⟩ := obs
      have finished :
        ∀ resp hit,
        finish rt booking ⟨(Gateway.observeLast rt d.meter r).2, d.cache,
        d.books⟩ tenant r redundant resp hit =
          Prod.map id (settle booking d.books) (finish rt (fun session u _ => some (session, u))
            ⟨(Gateway.observeLast rt d.meter r).2, d.cache, none⟩ tenant r redundant resp hit) :=
        fun resp hit => finish_settle (o := ⟨_, _, none⟩) d.books rfl r redundant resp hit
      simp only [complete]
      generalize answer rt tenant r io exactDup _ = answered
      obtain ⟨result, forwarded⟩ := answered
      cases result with
      | cached resp => simp [finished]
      | completed resp => simp [finished]
      | backendError message => rfl
      | raised => rfl

end Desk

/-! ## What is booked -/

/-- What a `dexa` object tells of what is booked: the image tokens and the cache flag as they are,
    the costs and the redundancy rounded. -/
structure Reports (info : Json) (u : Metering.Usage) : Prop where
  cost : info.get "dexa_cost_usd" = .ok (some (.num (pyRound 8 u.dexaUsd)))
  baseline : info.get "baseline_cost_usd" = .ok (some (.num (pyRound 8 u.baselineUsd)))
  saved : info.get "saved_usd" = .ok (some (.num (pyRound 8 u.savedUsd)))
  images : info.get "dexa_image_tokens" = .ok (some (.num u.dexaImageTokens))
  baselineImages : info.get "baseline_image_tokens" = .ok (some (.num u.baselineImageTokens))
  redundancy : info.get "screen_redundancy_pct" =
    .ok (some (.num (pyRound 1 (100 * u.redundantFrac))))
  cached : info.get "served_from_cache" = .ok (some (.bool u.cacheHit))

/-- A completion is booked under the session of its request, at the price of the tokens that its
    body counts; the report in the body and the headers are made of the same savings and the same
    redundancy.  Any other answer books nothing. -/
inductive Books (rt : Runtime) (tenant : Tenant) (req : Request) : Response →
    Option (String × Metering.Usage) → Prop where
  | nothing {response : Response} (silent : response.fromCache = none) :
      Books rt tenant req response none
  | completion {r : Reading} {body : Json} {out redundant : ℚ} {hit : Bool}
      {saved : Pricing.Savings} {u : Metering.Usage}
      (read : readRequest rt tenant req = .ok r) (counted : outTokens body = .ok out)
      (priced : saved = savingsOf r out hit) (fraction : 0 ≤ redundant ∧ redundant ≤ 1)
      (entered : u =
        { dexaUsd := saved.ours.usd, baselineUsd := saved.baseline.usd, savedUsd := saved.savedUsd,
          dexaImageTokens := saved.ours.imageTokens,
          baselineImageTokens := saved.baseline.imageTokens,
          redundantFrac := redundant, cacheHit := hit })
      (told : body.get "dexa" = .ok (some (infoOf tenant r saved redundant hit)))
      (reported : Reports (infoOf tenant r saved redundant hit) u) :
      Books rt tenant req (.json 200 body (some (headersOf tenant r saved redundant hit)))
        (some (r.session, u))

section Booked

variable {rt : Runtime} {tenant : Tenant}

theorem changedFraction_nonneg (prev cur : NDArray ℚ) : 0 ≤ changedFraction prev cur :=
  div_nonneg (Nat.cast_nonneg _) (Nat.cast_nonneg _)

theorem RedundancyMeter.changedOf_nonneg {m m' : RedundancyMeter} {session : String} {img : Bytes}
    {first exact : Bool} {changed : ℚ}
    (done : m.changedOf rt session img first exact = .ok (changed, m')) : 0 ≤ changed := by
  unfold changedOf at done
  split at done
  · cases done
    exact le_rfl
  · split at done
    · cases done
      exact zero_le_one
    · split at done
      · split at done
        · cases done
        · cases done
          exact zero_le_one
        · cases done
          split
          · exact changedFraction_nonneg ..
          · exact zero_le_one
      · cases done
        exact zero_le_one

/-- The redundancy of a frame is a fraction. -/
theorem RedundancyMeter.observe_fraction {m : RedundancyMeter} {session : String} {img : Bytes}
    {seen : Observation}
    (done : (m.observe rt session img).1 = .ok seen) : 0 ≤ seen.redundantFrac ∧
      seen.redundantFrac ≤ 1 := by
  unfold observe at done
  dsimp only at done
  split at done
  · cases done
  · next changed m' found =>
    have nonneg := changedOf_nonneg found
    have fraction : 0 ≤ max 0 (1 - changed) ∧ max 0 (1 - changed) ≤ 1 :=
      ⟨le_max_left .., max_le zero_le_one (by linarith)⟩
    split at done
    · split at done
      · cases done
      · cases done
        exact fraction
      · cases done
        exact fraction
    · cases done
      exact fraction

theorem observeLast_fraction {m : RedundancyMeter} {r : Reading} {redundant : ℚ} {exactDup : Bool}
    (done : (Gateway.observeLast rt m r).1 = .ok (redundant, exactDup)) : 0 ≤ redundant ∧
      redundant ≤ 1 := by
  unfold Gateway.observeLast at done
  split at done
  · cases done
    exact ⟨zero_le_one, le_rfl⟩
  · obtain ⟨seen, observed, same⟩ := Fallible.ok_of_map done
    obtain rfl := congrArg Prod.fst same
    exact RedundancyMeter.observe_fraction observed

/-- The report of a response tells what is booked for it. -/
theorem reports_usageOf (tenant : Tenant) (r : Reading) (saved : Pricing.Savings) (redundant : ℚ)
    (hit : Bool) : Reports (infoOf tenant r saved redundant hit) (usageOf saved redundant hit) := by
  constructor <;>
    simp [infoOf, usageOf, Pricing.Savings.asDict, Json.get, Dict.lookup]

/-- The counters of a request balance, whether it was computed or served from the cache. -/
theorem balanced_usageOf (r : Reading) (out : ℚ) (hit : Bool) {redundant : ℚ}
    (fraction : 0 ≤ redundant ∧ redundant ≤ 1) :
    (usageOf (savingsOf r out hit) redundant hit).agg.Balanced where
  saved := by cases hit <;> simp [Metering.Usage.agg, usageOf, savingsOf, Pricing.compare,
    Pricing.Savings.fromCache]
  hits := by cases hit <;> simp [Metering.Usage.agg, usageOf]
  observed := rfl
  redundant := by simpa [Metering.Usage.agg, usageOf] using fraction

end Booked

namespace Desk

variable {rt : Runtime} {tenant : Tenant}

theorem finish_books {o : Desk (Option (String × Metering.Usage))} (unbooked : o.books = none)
    {req : Request} {r : Reading}
    (read : readRequest rt tenant req = .ok r) {redundant : ℚ}
    (fraction : 0 ≤ redundant ∧ redundant ≤ 1) (resp : Json) (hit : Bool) :
    Books rt tenant req
      (o.finish rt (fun session u _ => some (session, u)) tenant r redundant resp hit).1
      (o.finish rt (fun session u _ => some (session, u)) tenant r redundant resp hit).2.books := by
  have kept : ∀ (d : Desk (Option (String × Metering.Usage))) resp,
    (d.store rt tenant r resp).books = d.books := by
    intro d resp
    unfold store
    split <;> rfl
  simp only [finish]
  cases named : resp.setItem "model" (.str "dexa-cua-vlm") with
  | error e =>
    simp only [unbooked]
    exact .nothing rfl
  | ok resp' =>
    simp only
    cases counted : outTokens resp' with
    | error e =>
      simp only [kept, unbooked]
      exact .nothing rfl
    | ok out =>
      -- the reply took the model's name, so it is an object and takes the report too
      obtain ⟨fields, -, rfl⟩ := Json.setItem_ok named
      obtain ⟨body, reported⟩ :
        ∃ body, Json.setItem (.obj (Dict.assign "model" (.str "dexa-cua-vlm") fields)) "dexa"
          (infoOf tenant r (savingsOf r out hit) redundant hit) = .ok body := ⟨_, rfl⟩
      have same := outTokens_setItem reported (by decide) (by decide)
      simp only [reported, kept]
      exact .completion read (same.trans counted) rfl fraction rfl (Json.get_setItem_self reported)
        (reports_usageOf ..)

variable (rt tenant) in
theorem outcome_books (meter : RedundancyMeter) (cache : Dict String Cached) (req : Request)
    (io : Outside) :
    Books rt tenant req (outcome rt meter cache tenant req io).1.response
      (outcome rt meter cache tenant req io).2.books := by
  simp only [outcome, serve]
  cases read : readRequest rt tenant req with
  | error e => exact .nothing rfl
  | ok r =>
    simp only
    cases observed : (Gateway.observeLast rt meter r).1 with
    | error e => exact .nothing rfl
    | ok obs =>
      obtain ⟨redundant, exactDup⟩ := obs
      have fraction := observeLast_fraction observed
      simp only [complete]
      generalize answer rt tenant r io exactDup _ = answered
      obtain ⟨result, forwarded⟩ := answered
      cases result with
      | cached resp => exact finish_books rfl read fraction resp true
      | completed resp => exact finish_books rfl read fraction resp false
      | backendError message => exact .nothing rfl
      | raised => exact .nothing rfl

end Desk

/-- `chat_completions` without accounts. -/
def staticCompletions (registry : TenantRegistry) (rt : Runtime) (d : Desk Store) (req : Request)
    (io : Outside) : Handled × Desk Store :=
  match registry.resolve (bearer req) with
  | none => ({ response := .invalidKey }, d)
  | some tenant => d.serve rt (fun session u s => s.record session u) tenant req io

/-- The process, fed requests one at a time. -/
def staticGateway (registry : TenantRegistry) (rt : Runtime) : Machine (Desk Store)
    (Request × Outside) Handled :=
  ⟨fun d e => staticCompletions registry rt d e.1 e.2⟩

/-! ## Accounts mode -/

/-- Whose key a request presents. -/
def ControlDb.principalOf (settings : Settings) (rt : Runtime) (db : ControlDb) (req : Request) :
    Option Principal :=
  (bearer req).bind fun secret => if looksLikeKey secret then db.lookup settings
    (hashSecret rt secret) else none

namespace Gateway

variable {settings : Settings} {rt : Runtime} {db : ControlDb}

/-- The gateway with the handler's state, whose books are the tables. -/
def seat (g : Gateway) (d : Desk ControlDb) : Gateway :=
  { g with meter := d.meter, cache := d.cache, db := d.books }

theorem store_seat (g : Gateway) (d : Desk ControlDb) (tenant : Tenant) (r : Reading)
    (resp : Json) :
    (g.seat d).store rt tenant r resp = g.seat (d.store rt tenant r resp) := by
  unfold store Desk.store
  split <;> rfl

variable (rt) in
/-- With accounts the handler books in the tables, under the key and the day. -/
theorem finish_seat (g : Gateway) (d : Desk ControlDb) (p : Principal) (r : Reading) (io : Outside)
    (redundant : ℚ) (resp : Json)
    (hit : Bool) :
    (g.seat d).finish rt p r io redundant resp hit =
      Prod.map id g.seat
        (d.finish rt
        (fun _ u db => Metering.record db p.orgId p.keyId io.today u) p.tenant r redundant resp hit) := by
  simp only [finish_eq, Desk.finish]
  cases resp.setItem "model" (.str "dexa-cua-vlm") with
  | error e => rfl
  | ok resp =>
    simp only [store_seat]
    cases outTokens resp with
    | error e => rfl
    | ok out =>
      have metered : (g.seat (d.store rt p.tenant r resp)).meterUsage p io.today
        (usageOf (savingsOf r out hit) redundant hit) =
          g.seat ((d.store rt p.tenant r resp).book
            (fun _ u db => Metering.record db p.orgId p.keyId io.today u) r.session
            (usageOf (savingsOf r out hit) redundant hit)) := rfl
      simp only [metered]
      cases resp.setItem "dexa" (infoOf p.tenant r (savingsOf r out hit) redundant hit) with
      | error e => rfl
      | ok resp => simp only [store_seat, Prod.map, id]

theorem serve_seat (g : Gateway) (p : Principal) (req : Request) (io : Outside) :
    g.serve rt p req io = Prod.map id g.seat
    (Desk.serve rt (fun _ u db => Metering.record db p.orgId p.keyId io.today u)
      ⟨g.meter, g.cache, g.db⟩ p.tenant req io) := by
  simp only [serve, Desk.serve]
  cases readRequest rt p.tenant req with
  | error e => rfl
  | ok r =>
    simp only
    cases (observeLast rt g.meter r).1 with
    | error e => rfl
    | ok obs =>
      obtain ⟨redundant, exactDup⟩ := obs
      have finished :=
        fun resp hit => finish_seat rt g ⟨(observeLast rt g.meter r).2, g.cache,
          g.db⟩ p r io redundant resp hit
      simp only [complete, Desk.complete]
      generalize answer rt p.tenant r io exactDup _ = answered
      obtain ⟨result, forwarded⟩ := answered
      cases result with
      | cached resp => simp only [seat] at finished ⊢; simp [finished]
      | completed resp => simp only [seat] at finished ⊢; simp [finished]
      | backendError message => rfl
      | raised => rfl

variable (rt) in
/-- The resolver answers what the tables say. -/
theorem FixedAccounts.resolve_eq {g : Gateway} (fixed : FixedAccounts settings db g) (req : Request)
    (now : ℚ) :
    (resolve settings rt g.db g.resolver now (bearer req)).1 = db.principalOf settings rt req := by
  rw [ControlDb.principalOf]
  cases bearer req with
  | none => rfl
  | some secret =>
    rw [Option.bind_some]
    split
    · next key => rw [resolve_of_key fixed.resolverSound key, fixed.lookup]
    · next noKey => simp [resolve, noKey]

end Gateway

end Dexa.Platform
