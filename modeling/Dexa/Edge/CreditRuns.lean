import Dexa.Edge.KeyCache

/-! # Credit over runs of the edge (`edge/src/index.ts`, `edge/src/db.ts`)

The Worker admits a request by the organisation's balance, which it reads from the database and
keeps in KV for a while; a served turn's usage event goes to the queue, and the consumer folds
it into `usage_daily`.  The balance subtracts the column `dexa_usd`, which the consumer does not
write: no turn is ever charged.
-/

namespace Dexa.Edge

open Dexa.Lib
open Dexa.Platform (CreditLedger Json looksLikeKey)

/-- The Worker with the `usage_daily` table, the balances cached in KV, and all usage events
that were sent to the queue. -/
structure Front where
  worker : Worker
  usage : UsageTable := Dict.empty
  credit : Dict String ℚ := Dict.empty
  sent : List UsageEvent := []

/-- `creditRemaining`. -/
def creditRemaining (ledger : List CreditLedger) (usage : UsageTable) (orgId : String) : ℚ :=
  ((ledger.filter (·.orgId == orgId)).map CreditLedger.deltaUsd).sum -
    ((usage.values.filter (·.orgId == orgId)).map UsageRow.dexaUsd).sum

namespace Front

def remaining (s : Front) (orgId : String) : ℚ :=
  creditRemaining s.worker.db.creditLedger s.usage orgId

/-- `hasCredit`, with the cache afterwards; the flag is whether the database answers. -/
def hasCredit (s : Front) (orgId : String) (answers : Bool) : Bool × Dict String ℚ :=
  match s.credit.get? orgId with
  | some cached => (decide (cached > 0), s.credit)
  | none =>
    -- fail-open on a database blip
    let remaining := if answers then s.remaining orgId else 1
    (decide (remaining > 0), s.credit.set orgId remaining)

end Front

inductive FrontEvent where
  | request (req : HttpRequest) (answers : Bool)
  /-- the queue delivers these of the events sent; the statement at this index fails, if any -/
  | deliver (picked : List Nat) (failing : Option Nat)
  | expireCredit (orgId : String)

section Runs

variable (env : Env) (js : JsRuntime)

namespace Front

/-- `fetch`, with the gate's own answer. -/
def fetch (s : Front) (req : HttpRequest) (answers : Bool) : Handled × Front :=
  match if req.path = "/health" then none else (resolveKey env js s.worker req.secret).1 with
  | none =>
    let (handled, worker) := s.worker.fetch env js req
    (handled, { s with worker })
  | some tenant =>
    let (credit, cache) := s.hasCredit tenant.orgId answers
    let (handled, worker) := s.worker.fetch env js { req with credit }
    (handled, { s with worker, credit := cache, sent := s.sent ++ handled.usage.toList })

def batch (s : Front) (picked : List Nat) : List UsageEvent := picked.filterMap (s.sent[·]?)

/-- The usage events a step upserts. -/
def processed (s : Front) : FrontEvent → List UsageEvent
  | .deliver picked failing => (s.batch picked).take (failing.getD (s.batch picked).length)
  | _ => []

def step (s : Front) : FrontEvent → Handled × Front
  | .request req answers => s.fetch env js req answers
  | .deliver picked failing => ({ response := .notFound },
      { s with usage := (queue (s.batch picked) failing s.usage).2 })
  | .expireCredit orgId => ({ response := .notFound }, { s with credit := s.credit.erase orgId })

end Front

def edgeFront : Machine Front FrontEvent Handled := ⟨Front.step env js⟩

end Runs

section Gate

variable (env : Env) (js : JsRuntime)

/-- Every usage event of the organisation lowers its balance when it is processed. -/
def Front.Charges (orgId : String) (s : Front) (e : FrontEvent) : Prop :=
  ∀ before event after, s.processed e = before ++ event :: after → event.orgId = orgId →
    creditRemaining s.worker.db.creditLedger (upsert (before.foldl upsert s.usage) event) orgId <
      creditRemaining s.worker.db.creditLedger (before.foldl upsert s.usage) orgId

def turnsProcessed (orgId : String) (s : Front) (e : FrontEvent) : Nat :=
  ((s.processed e).filter (·.orgId == orgId)).length

/-- After so many processed turns, and once the cached balance is gone, a request that the
database can answer for is refused. -/
def ClosesAfter (s₀ : Front) (orgId : String) (bound : Nat) : Prop :=
  ∀ es : List FrontEvent, bound < (edgeFront env js).tally (turnsProcessed orgId) s₀ es →
    ∀ req : HttpRequest, req.path ≠ "/health" →
      (∃ tenant, (resolveKey env js ((edgeFront env js).exec s₀ es).worker req.secret).1 =
        some tenant ∧ tenant.orgId = orgId) →
      ((edgeFront env js).exec s₀ es).credit.get? orgId = none →
        (((edgeFront env js).exec s₀ es).fetch env js req true).1.response = .insufficientQuota

/-- The gate closes when credit is used up. -/
structure Closes (s₀ : Front) (orgId : String) : Prop where
  charges : ∀ es, (edgeFront env js).Meets (Front.Charges orgId) s₀ es
  bounded : ∃ bound, ClosesAfter env js s₀ orgId bound

end Gate

/-- The consumer writes a row of the same organisation with the same `dexa_usd`, or a new row
without any. -/
theorem upsert_eq_set (usage : UsageTable) (e : UsageEvent) :
    ∃ row, upsert usage e = usage.set e.row row ∧
      ((usage.get? e.row).elim (row.dexaUsd = 0) fun old => row.orgId = old.orgId ∧
        row.dexaUsd = old.dexaUsd) := by
  rw [upsert]
  cases usage.get? e.row with
  | none => exact ⟨_, rfl, rfl⟩
  | some old => exact ⟨_, rfl, rfl, rfl⟩

theorem creditRemaining_upsert (ledger : List CreditLedger) (usage : UsageTable) (e : UsageEvent)
    (orgId : String) :
    creditRemaining ledger (upsert usage e) orgId = creditRemaining ledger usage orgId := by
  obtain ⟨row, written, same⟩ := upsert_eq_set usage e
  have sums := Dict.sum_filter_set usage (·.orgId == orgId) UsageRow.dexaUsd e.row row
  have spent : (((usage.set e.row row).values.filter (·.orgId == orgId)).map UsageRow.dexaUsd).sum =
      ((usage.values.filter (·.orgId == orgId)).map UsageRow.dexaUsd).sum := by
    cases found : usage.get? e.row with
    | none =>
      rw [found, Option.elim_none] at same
      simpa [found, same] using sums
    | some old =>
      rw [found, Option.elim_some] at same
      rw [found] at sums
      cases ours : old.orgId == orgId with
      | true => simpa [Option.filter, ours, same.1, same.2] using sums
      | false => simpa [Option.filter, ours, same.1] using sums
  rw [creditRemaining, creditRemaining, written, spent]

theorem creditRemaining_foldl (ledger : List CreditLedger) (events : List UsageEvent)
    (usage : UsageTable) (orgId : String) :
    creditRemaining ledger (events.foldl upsert usage) orgId =
      creditRemaining ledger usage orgId := by
  induction events generalizing usage with
  | nil => rfl
  | cons e events ih => rw [List.foldl_cons, ih, creditRemaining_upsert]

theorem queue_take (batch : List UsageEvent) (i : Nat) (rows : UsageTable) :
    (queue batch (some i) rows).2 = (batch.take i).foldl upsert rows := by
  induction batch generalizing i rows with
  | nil => rw [List.take_nil]; rfl
  | cons e batch ih =>
    cases i with
    | zero => rfl
    | succ i => exact ih i (upsert rows e)

/-- A delivery commits the events it processes. -/
theorem queue_usage (s : Front) (picked : List Nat) (failing : Option Nat) :
    (queue (s.batch picked) failing s.usage).2 =
      (s.processed (.deliver picked failing)).foldl upsert s.usage := by
  rw [Front.processed]
  cases failing with
  | none => rw [queue_none, Option.getD_none, List.take_length]
  | some i => rw [queue_take, Option.getD_some]

/-! ## An organisation with a working key -/

section Served

variable {env : Env} {js : JsRuntime} {secret : Option String} {tenant : Tenant}

/-- The key resolves to the tenant, and goes on to. -/
theorem resolveKey_again {w : Worker} (resolves : (resolveKey env js w secret).1 = some tenant)
    (objects : Dict String SessionObject) :
    (resolveKey env js { w with keys := (resolveKey env js w secret).2, objects } secret).1 =
      some tenant := by
  simp only [resolveKey] at resolves ⊢
  cases key : secret.filter (looksLikeKey ·) with
  | none =>
    rw [key] at resolves
    cases resolves
  | some text =>
    simp only [key] at resolves ⊢
    cases cached : w.keys.get? (js.sha256Hex text) with
    | some entry =>
      simp only [cached] at resolves ⊢
      exact resolves
    | none =>
      simp only [cached] at resolves ⊢
      simpa using resolves

/-- A chat request for a session, without messages, that the backend answers. -/
def chatRequest (secret : Option String) (credit : Bool) : HttpRequest :=
  { method := "POST", path := "/v1/chat/completions", secret
    body := some (.obj [("session", .str "s"), ("messages", .arr [])]), credit, now := 0, replied :=
      0
    day := "2026-01-01", freshId := "", backend := .ok .null }

/-- Whatever the session, its object serves a request without messages. -/
theorem forward_served (w : Worker) (name : String) {b : TurnBody}
    (messages : b.messages = some (.arr [])) {req : HttpRequest}
    {data : Json} (answered : req.backend = .ok data) :
    ∃ t calls objects,
      w.callDO env name (.forward b) req = (.turn t, calls, { w with objects }) := by
  obtain ⟨f, begun⟩ :
    ∃ f, beginTurn env (w.object name).stored false b req.now (w.object name).writes = .ok f := by
    rw [beginTurn, messages]
    exact ⟨_, rfl⟩
  have handled : (w.object name).handle env (.forward b) req.now =
      (.awaits f.call, { w.object name with flights := (w.object name).flights ++ [f] }) := by
    rw [SessionObject.handle, SessionObject.beginTurn, begun]
  have last : ((w.object name).flights ++ [f])[(w.object name).flights.length]? = some f :=
    List.getElem?_concat_length ..
  simp only [Worker.callDO, handled, SessionObject.finishTurn, last, answered]
  exact ⟨_, _, _, rfl⟩

theorem chatRequest_path (secret : Option String) (credit : Bool) :
    (chatRequest secret credit).path = "/v1/chat/completions" :=
  rfl

/-- The request is routed to the object of its session. -/
theorem route_chat (w : Worker) (tenant : Tenant) (secret : Option String) :
    w.route env js tenant (chatRequest secret true) = w.chatCompletions env js tenant
      (chatRequest secret true) := by
  have other : ("/v1/chat/completions" : String) ≠ "/v1/sessions" := by decide
  have noSession : sessionPath "/v1/chat/completions" = none := by decide +kernel
  rw [Worker.route, chatRequest_path, if_neg fun both => other both.1, noSession]
  exact if_pos ⟨rfl, rfl⟩

theorem chat_served (env : Env) (js : JsRuntime) (w : Worker) (tenant : Tenant)
    (secret : Option String) :
    ∃ t calls event objects, w.chatCompletions env js tenant (chatRequest secret true) =
      ({ response := .object (.turn t), sent := calls, usage := some event }, { w with objects }) ∧
        event.orgId = tenant.orgId := by
  let b : TurnBody :=
    { messages := some (.arr []), orgId := some tenant.orgId, backendUrl := some tenant.backendUrl
      backendModel := some tenant.backendModel }
  have messages : b.messages = some (.arr []) := rfl
  have answered : (chatRequest secret true).backend = .ok .null := rfl
  obtain ⟨t, calls, objects, served⟩ :=
    @forward_served env w (Worker.ns tenant "s") b messages _ _ answered
  have session : prop ((chatRequest secret true).body.getD (.obj [])) "session" =
    .ok (some (.str "s")) := rfl
  have truthy : (some (Json.str "s")).filter jsTruthy = some (.str "s") := rfl
  have body : optProp (some ((chatRequest secret true).body.getD (.obj []))) "messages" =
    some (.arr []) := rfl
  simp only [Worker.chatCompletions, session, truthy, body, jsString]
  rw [served]
  exact ⟨t, calls, _, objects, rfl, rfl⟩

/-- The request, once admitted, is served and metered. -/
theorem worker_served {w : Worker} (resolves : (resolveKey env js w secret).1 = some tenant) :
    ∃ t calls event objects, w.fetch env js (chatRequest secret true) =
      ({ response := .object (.turn t), sent := calls, usage := some event },
        { w with keys := (resolveKey env js w secret).2, objects }) ∧
          event.orgId = tenant.orgId := by
  have path : ("/v1/chat/completions" : String) ≠ "/health" := by decide
  have own : (chatRequest secret true).secret = secret := rfl
  have credit : (chatRequest secret true).credit = true := rfl
  rw [Worker.fetch, chatRequest_path, if_neg path, own]
  simp only [resolves, credit, Bool.not_true, Bool.false_eq_true, if_false]
  rw [route_chat]
  exact chat_served env js { w with keys := (resolveKey env js w secret).2 } tenant secret

theorem fetch_resolved {s : Front} {req : HttpRequest} (path : req.path ≠ "/health")
    (resolves : (resolveKey env js s.worker req.secret).1 = some tenant) (answers : Bool) :
    s.fetch env js req answers =
      ((s.worker.fetch env js { req with credit := (s.hasCredit tenant.orgId answers).1 }).1,
        { s with worker := (s.worker.fetch env js { req with credit := (s.hasCredit tenant.orgId answers).1 }).2
                 credit := (s.hasCredit tenant.orgId answers).2
                 sent := s.sent ++
                   (s.worker.fetch env js { req with credit := (s.hasCredit tenant.orgId answers).1 }).1.usage.toList }) := by
  rw [Front.fetch, if_neg path, resolves]

theorem fetch_served {s : Front} (resolves : (resolveKey env js s.worker secret).1 = some tenant)
    {answers : Bool}
    (admitted : (s.hasCredit tenant.orgId answers).1 = true) :
    ∃ t event objects, (s.fetch env js (chatRequest secret false) answers).1.response =
      .object (.turn t) ∧
      (s.fetch env js (chatRequest secret false) answers).2 =
        { s with worker := { s.worker with keys := (resolveKey env js s.worker secret).2, objects }
                 credit := (s.hasCredit tenant.orgId answers).2, sent := s.sent ++ [event] } ∧
      event.orgId = tenant.orgId := by
  obtain ⟨t, calls, event, objects, served, own⟩ := worker_served resolves
  have path : (chatRequest secret false).path ≠ "/health" := by
    rw [chatRequest_path]
    decide
  have request : { chatRequest secret false with credit := (s.hasCredit tenant.orgId answers).1 } =
    chatRequest secret true := by
    rw [admitted]
    rfl
  have resolves_ : (resolveKey env js s.worker (chatRequest secret false).secret).1 = some tenant :=
    resolves
  rw [fetch_resolved path resolves_, request, served]
  exact ⟨t, event, objects, rfl, rfl, own⟩

/-! ## Runs of served turns -/

/-- The cached balance expires, a request comes, and the queue delivers its usage event. -/
def servedTurn (s : Front) (tenant : Tenant) (secret : Option String) (answers : Bool) :
    List FrontEvent :=
  [.expireCredit tenant.orgId, .request (chatRequest secret false) answers,
    .deliver [s.sent.length] none]

/-- The organisation can make requests: its key works, and the database's balance for it admits
them, if it answers. -/
structure Front.Serves (s : Front) (env : Env) (js : JsRuntime) (secret : Option String)
    (tenant : Tenant) (answers : Bool) :
    Prop where
  resolves : (resolveKey env js s.worker secret).1 = some tenant
  credit : answers = true → 0 < s.remaining tenant.orgId

theorem Front.Serves.admitted {s : Front} {answers : Bool}
    (serves : s.Serves env js secret tenant answers)
    (expired : s.credit.get? tenant.orgId = none) :
      (s.hasCredit tenant.orgId answers).1 = true := by
  rw [Front.hasCredit, expired]
  cases answers with
  | true => simpa using serves.credit rfl
  | false => simp

theorem Front.Serves.turn {s : Front} {answers : Bool}
    (serves : s.Serves env js secret tenant answers) :
    ∃ event s₂,
      (edgeFront env js).exec s [.expireCredit tenant.orgId,
      .request (chatRequest secret false) answers] = s₂ ∧
      s₂.batch [s.sent.length] = [event] ∧ event.orgId = tenant.orgId ∧ s₂.usage = s.usage ∧
      s₂.worker.db = s.worker.db ∧ (resolveKey env js s₂.worker secret).1 = some tenant := by
  have expired :
    ({ s with credit := s.credit.erase tenant.orgId } : Front).credit.get? tenant.orgId = none :=
    Dict.get?_erase_self ..
  have still :
    ({ s with credit := s.credit.erase tenant.orgId } : Front).Serves env js secret tenant answers :=
    ⟨serves.resolves, serves.credit⟩
  obtain ⟨t, event, objects, -, next, own⟩ := fetch_served still.resolves (still.admitted expired)
  refine ⟨event, _, rfl, ?_⟩
  change Front.batch (Front.fetch env js { s with credit := s.credit.erase tenant.orgId }
    (chatRequest secret false) answers).2 _ = _ ∧ _ ∧
    (Front.fetch env js { s with credit := s.credit.erase tenant.orgId }
      (chatRequest secret false) answers).2.usage = _ ∧
    (Front.fetch env js { s with credit := s.credit.erase tenant.orgId }
      (chatRequest secret false) answers).2.worker.db = _ ∧
    (resolveKey env js (Front.fetch env js { s with credit := s.credit.erase tenant.orgId }
      (chatRequest secret false) answers).2.worker
      secret).1 = _
  rw [next]
  refine ⟨?_, own, rfl, rfl, resolveKey_again serves.resolves objects⟩
  simp [Front.batch]

/-- A served turn is processed once and leaves the organisation able to go on. -/
theorem Front.Serves.servedTurn {s : Front} {answers : Bool}
    (serves : s.Serves env js secret tenant answers) :
    ((edgeFront env js).exec s
      (servedTurn s tenant secret answers)).Serves env js secret tenant answers ∧
      (edgeFront env js).tally (turnsProcessed tenant.orgId) s
        (servedTurn s tenant secret answers) = 1 ∧
      ¬ (edgeFront env js).Meets (Front.Charges tenant.orgId) s
        (servedTurn s tenant secret answers) := by
  obtain ⟨event, s₂, run, batch, own, usage, db, resolves⟩ := serves.turn
  have processed : s₂.processed (.deliver [s.sent.length] none) = [event] := by
    rw [Front.processed, batch]
    rfl
  have split : Dexa.Edge.servedTurn s tenant secret answers =
      [.expireCredit tenant.orgId, .request (chatRequest secret false) answers] ++
        [.deliver [s.sent.length] none] := rfl
  refine ⟨?_, ?_, ?_⟩
  · rw [split, Machine.exec_append, run]
    refine ⟨resolves, fun answered => ?_⟩
    change 0 < creditRemaining s₂.worker.db.creditLedger
      (queue (s₂.batch [s.sent.length]) none s₂.usage).2 tenant.orgId
    rw [queue_usage, creditRemaining_foldl, db, usage]
    exact serves.credit answered
  · rw [split, Machine.tally_snoc, run, turnsProcessed, processed]
    simp [Machine.tally, turnsProcessed, Front.processed, own]
  · rw [split]
    intro meets
    have last := meets.append.2
    rw [run] at last
    have lower := last.1 [] event [] processed own
    rw [creditRemaining_upsert] at lower
    exact lt_irrefl _ lower

theorem Front.Serves.turns {s : Front} {answers : Bool}
    (serves : s.Serves env js secret tenant answers) (n : Nat) :
    ∃ es, (edgeFront env js).tally (turnsProcessed tenant.orgId) s es = n ∧
      ((edgeFront env js).exec s es).Serves env js secret tenant answers := by
  induction n with
  | zero => exact ⟨[], rfl, serves⟩
  | succ n ih =>
    obtain ⟨es, count, serves'⟩ := ih
    obtain ⟨after, one, -⟩ := serves'.servedTurn
    refine ⟨es ++ Dexa.Edge.servedTurn ((edgeFront env js).exec s es) tenant secret answers, ?_, ?_⟩
    · rw [Machine.tally_append, count, one]
    · rw [Machine.exec_append]
      exact after

/-- The gate does not close: no processed turn of an organisation that can make requests lowers
its balance, and while the balance admits it, no number of turns does. -/
theorem credit_gate_never_closes {s₀ : Front}
    (resolves : (resolveKey env js s₀.worker secret).1 = some tenant) :
    ¬ Closes env js s₀ tenant.orgId ∧
      (0 < s₀.remaining tenant.orgId → ∀ bound, ¬ ClosesAfter env js s₀ tenant.orgId bound) := by
  constructor
  · intro closes
    -- a request that the database cannot answer for is admitted
    have blip : s₀.Serves env js secret tenant false :=
      ⟨resolves, fun answered => by cases answered⟩
    exact blip.servedTurn.2.2 (closes.charges _)
  · intro credit bound closes
    have serves : s₀.Serves env js secret tenant true := ⟨resolves, fun _ => credit⟩
    obtain ⟨es, count, serves'⟩ := serves.turns (bound + 1)
    have expired :
      ((edgeFront env js).exec s₀ (es ++ [.expireCredit tenant.orgId])).credit.get? tenant.orgId =
      none := by
      rw [Machine.exec_snoc]
      exact Dict.get?_erase_self ..
    have still :
      ((edgeFront env js).exec s₀
      (es ++ [.expireCredit tenant.orgId])).Serves env js secret tenant true := by
      rw [Machine.exec_snoc]
      exact ⟨serves'.resolves, serves'.credit⟩
    have many : bound < (edgeFront env js).tally (turnsProcessed tenant.orgId) s₀
      (es ++ [.expireCredit tenant.orgId]) := by
      rw [Machine.tally_snoc, count]
      omega
    have path : (chatRequest secret false).path ≠ "/health" := by
      rw [chatRequest_path]
      decide
    have refused :=
      closes _ many (chatRequest secret false) path ⟨tenant, still.resolves, rfl⟩ expired
    obtain ⟨t, event, objects, response, -⟩ := fetch_served still.resolves (still.admitted expired)
    rw [response] at refused
    cases refused

end Served

/-- An organisation with its free credit. -/
def freeFront : Front :=
  { worker := { db := (Platform.controlStep {} Platform.plainRuntime {} (.signup "github" "1" "" "" ⟨"org", "user", "key", "t"⟩)).2 } }

theorem freeFront_resolves : (resolveKey sampleEnv edgeJs freeFront.worker (some "dexa_live_t")).1 =
    some sampleTenant := by
  decide +kernel

theorem freeFront_remaining : freeFront.remaining "org" = 5 := by decide +kernel

theorem credit_gate_never_closes_free :
    ¬ Closes sampleEnv edgeJs freeFront "org" ∧
      ¬ ClosesAfter sampleEnv edgeJs freeFront "org" 100 := by
  have credit : 0 < freeFront.remaining sampleTenant.orgId := by
    rw [show sampleTenant.orgId = "org" from rfl, freeFront_remaining]
    norm_num
  have never := credit_gate_never_closes freeFront_resolves
  exact ⟨never.1, never.2 credit 100⟩

/-- A turn that the free credit pays for is processed and lowers nothing. -/
theorem free_turn_not_charged : ¬ Closes sampleEnv edgeJs freeFront "org" := by
  intro closes
  have serves : freeFront.Serves sampleEnv edgeJs (some "dexa_live_t") sampleTenant true := by
    refine ⟨freeFront_resolves, fun _ => ?_⟩
    rw [show sampleTenant.orgId = "org" from rfl, freeFront_remaining]
    norm_num
  exact serves.servedTurn.2.2 (closes.charges _)

end Dexa.Edge
