import Dexa.Lib.Fallible
import Dexa.Platform.TenantIsolation

/-! # The credit gate under concurrent requests (`dexa_platform/gateway/app.py`)

The gateway checks the credit when a request arrives and records the cost when its reply is
there.  Between the two the handler awaits the backend, and other requests run: the check
and the record are the atomic steps of a request, and their order across requests is
arbitrary.  The overspend is bounded by what the admitted and not yet recorded requests
cost, because the gate only lets a request in while something is left.
-/

namespace Dexa.Platform

open Dexa.Lib

/-- What the handler meters from: the reply, and what it read before asking for it. -/
structure Completion where
  reading : Reading
  resp : Json
  redundant : ℚ
  cacheHit : Bool

/-- The handler between the reply and `metering.record`; it can raise. -/
def Completion.usage (done : Completion) : Except Raised Metering.Usage := do
  let resp ← done.resp.setItem "model" (.str "dexa-cua-vlm")
  let out ← outTokens resp
  return usageOf (savingsOf done.reading out done.cacheHit) done.redundant done.cacheHit

/-- The `completion_tokens` of a reply. -/
def reportedTokens (resp : Json) : Except Raised Json := do
  return pyOr (← (pyOr (← resp.get "usage") (.obj [])).get "completion_tokens") .null

/-- The number of tokens the backend reports is not negative. -/
def Completion.CountsTokens (done : Completion) : Prop :=
  ∀ q, reportedTokens done.resp = .ok (.num q) → 0 ≤ q

theorem Json.number_nonneg {x : Json} {q : ℚ} (counts : ∀ q, x = .num q → 0 ≤ q)
    (number : x.number = .ok q) :
    0 ≤ q := by
  cases x with
  | num q' =>
    obtain rfl := Except.ok.inj number
    exact counts q' rfl
  | bool b =>
    obtain rfl := Except.ok.inj number
    cases b <;> simp
  | _ => cases number

theorem outTokens_nonneg {resp : Json} {out : ℚ}
    (counts : ∀ q, reportedTokens resp = .ok (.num q) → 0 ≤ q)
    (counted : outTokens resp = .ok out) : 0 ≤ out := by
  obtain ⟨usage, found, counted⟩ := Fallible.ok_of_bind counted
  obtain ⟨tokens, reported, counted⟩ := Fallible.ok_of_bind counted
  dsimp only at counted
  split at counted
  · refine Json.number_nonneg (fun q same => counts q ?_) counted
    simp [reportedTokens, found, reported, same, bind, Except.bind, pure, Except.pure]
  · -- nothing is reported, and the estimate is a count
    obtain ⟨choices, -, counted⟩ := Fallible.ok_of_bind counted
    obtain ⟨first, -, counted⟩ := Fallible.ok_of_bind counted
    obtain ⟨message, -, counted⟩ := Fallible.ok_of_bind counted
    obtain ⟨content, -, counted⟩ := Fallible.ok_of_bind counted
    obtain ⟨length, -, counted⟩ := Fallible.ok_of_bind counted
    obtain rfl := Except.ok.inj counted
    exact Nat.cast_nonneg _

theorem Pricing.requestCost_nonneg {model : Pricing.Model} {images : List (Nat × Nat)}
    {textInTokens : Nat} {out : ℚ}
    (counts : 0 ≤ out) : 0 ≤ (Pricing.requestCost model images textInTokens out).usd := by
  have prices : 0 ≤ model.prices.1 ∧ 0 ≤ model.prices.2 := by
    cases model <;> norm_num [Pricing.Model.prices]
  obtain ⟨pin, pout⟩ := prices
  simp only [Pricing.requestCost]
  positivity

theorem Completion.usage_nonneg {done : Completion} {u : Metering.Usage}
    (counts : done.CountsTokens)
    (metered : done.usage = .ok u) : 0 ≤ u.dexaUsd := by
  obtain ⟨resp, renamed, metered⟩ := Fallible.ok_of_bind metered
  obtain ⟨out, counted, metered⟩ := Fallible.ok_of_bind metered
  obtain rfl := Except.ok.inj metered
  cases hit : done.cacheHit with
  | true => simp [usageOf, savingsOf, Pricing.Savings.fromCache]
  | false =>
    have usage : resp.get "usage" = done.resp.get "usage" := Json.get_setItem_ne renamed (by decide)
    have tokens : 0 ≤ out := outTokens_nonneg (by rwa [reportedTokens, usage]) counted
    simpa [usageOf, savingsOf, Pricing.compare] using Pricing.requestCost_nonneg tokens

theorem Gateway.finish_records (rt : Runtime) (g : Gateway) (p : Principal) (r : Reading)
    (io : Outside) (redundant : ℚ)
    (resp : Json) (hit : Bool) :
    (g.finish rt p r io redundant resp hit).2.db = g.db ∨ ∃ done u, Completion.usage done = .ok u ∧
      (g.finish rt p r io redundant resp hit).2.db =
        Metering.record g.db p.orgId p.keyId io.today u := by
  rw [finish_eq]
  cases renamed : resp.setItem "model" (.str "dexa-cua-vlm") with
  | error e => exact .inl rfl
  | ok named =>
    obtain ⟨db, -⟩ := store_frame rt g p.tenant r named
    simp only
    cases counted : outTokens named with
    | error e => exact .inl db
    | ok out =>
      have metered : Completion.usage ⟨r, resp, redundant, hit⟩ =
          .ok (usageOf (savingsOf r out hit) redundant hit) := by
        simp [Completion.usage, renamed, counted, bind, Except.bind, pure, Except.pure]
      refine .inr ⟨_, _, metered, ?_⟩
      simp only
      cases named.setItem "dexa" (infoOf p.tenant r (savingsOf r out hit) redundant hit) with
      | error e => simp only [meterUsage, db]
      | ok resp' =>
        obtain ⟨db', -⟩ := store_frame rt
          ((g.store rt p.tenant r named).meterUsage p io.today
            (usageOf (savingsOf r out hit) redundant hit)) p.tenant r resp'
        rw [db', meterUsage, db]

/-- A served request leaves the database alone or records the usage of its completion. -/
theorem Gateway.serve_records (rt : Runtime) (g : Gateway) (p : Principal) (req : Request)
    (io : Outside) :
    (g.serve rt p req io).2.db = g.db ∨ ∃ done u, Completion.usage done = .ok u ∧
      (g.serve rt p req io).2.db = Metering.record g.db p.orgId p.keyId io.today u := by
  simp only [serve]
  cases readRequest rt p.tenant req with
  | error e => exact .inl rfl
  | ok r =>
    simp only
    cases (observeLast rt g.meter r).1 with
    | error e => exact .inl rfl
    | ok obs =>
      have finished := fun resp hit =>
        finish_records rt { g with meter := (observeLast rt g.meter r).2 } p r io obs.1 resp hit
      simp only [complete]
      generalize answer rt p.tenant r io obs.2 _ = answered
      obtain ⟨result, forwarded⟩ := answered
      cases result with
      | cached resp => exact finished resp true
      | completed resp => exact finished resp false
      | backendError message => exact .inl rfl
      | raised => exact .inl rfl

namespace CreditGate

/-- A request that passed the gate and is not recorded yet. -/
structure Flight where
  orgId : String
  keyId : String
  deriving DecidableEq, Repr

structure State where
  db : ControlDb
  inFlight : List Flight := []

inductive Event where
  | request (keyId : String)
  | complete (i : Nat) (today : String) (done : Completion)
  /-- the backend call, or the handler around it, fails -/
  | fail (i : Nat)
  | grant (orgId : String) (deltaUsd : ℚ) (reason : String)

inductive Reply where
  | invalidKey
  | insufficientQuota
  | admitted (flight : Flight)
  | recorded (flight : Flight) (u : Metering.Usage)
  | failed
  | granted

def step (s : State) : Event → Reply × State
  | .request keyId =>
    match s.db.apiKeys.get? keyId with
    | none => (.invalidKey, s)
    | some key =>
      if Metering.quotaOk s.db key.orgId then
        (.admitted ⟨key.orgId, keyId⟩, { s with inFlight := s.inFlight ++ [⟨key.orgId, keyId⟩] })
      else (.insufficientQuota, s)
  | .complete i today done =>
    match s.inFlight[i]? with
    | none => (.failed, s)
    | some flight =>
      match done.usage with
      | .error _ => (.failed, { s with inFlight := s.inFlight.eraseIdx i })
      | .ok u =>
        (.recorded flight u,
          { db := Metering.record s.db flight.orgId flight.keyId today u, inFlight := s.inFlight.eraseIdx i })
  | .fail i => (.failed, { s with inFlight := s.inFlight.eraseIdx i })
  | .grant orgId deltaUsd reason =>
    (.granted,
      { s with db := { s.db with creditLedger := s.db.creditLedger ++ [{ orgId, deltaUsd, reason }] } })

end CreditGate

/-- The requests of all organisations and the grants, in any order. -/
def creditGate : Machine CreditGate.State CreditGate.Event CreditGate.Reply := ⟨CreditGate.step⟩

namespace CreditGate

/-- The requests of an organisation that are in flight. -/
def State.inFlightOf (s : State) (orgId : String) : Nat :=
  (s.inFlight.filter (·.orgId == orgId)).length

/-- What a step can do. -/
theorem step_cases (s : State) (e : Event) :
    (∃ keyId key, e = .request keyId ∧ s.db.apiKeys.get? keyId = some key ∧
      Metering.quotaOk s.db key.orgId = true ∧
        creditGate.step s e =
          (.admitted ⟨key.orgId, keyId⟩,
            { s with inFlight := s.inFlight ++ [⟨key.orgId, keyId⟩] })) ∨
      (∃ i today done flight u, e = .complete i today done ∧ s.inFlight[i]? = some flight ∧
        done.usage = .ok u ∧
        creditGate.step s e = (.recorded flight u,
          { db := Metering.record s.db flight.orgId flight.keyId today u, inFlight := s.inFlight.eraseIdx i })) ∨
      (∃ orgId deltaUsd reason, e = .grant orgId deltaUsd reason ∧ creditGate.step s e =
        (.granted,
          { s with db := { s.db with creditLedger := s.db.creditLedger ++ [{ orgId, deltaUsd, reason }] } })) ∨
      ∃ reply left, left.Sublist s.inFlight ∧ (∀ flight, reply ≠ .admitted flight) ∧
        (∀ flight u, reply ≠ .recorded flight u) ∧
          creditGate.step s e = (reply, { s with inFlight := left }) := by
  cases e with
  | request keyId =>
    cases present : s.db.apiKeys.get? keyId with
    | none =>
      exact .inr (.inr (.inr ⟨.invalidKey, s.inFlight, List.Sublist.refl _, by simp, by simp, by
        simp [creditGate, step, present]⟩))
    | some key =>
      cases credit : Metering.quotaOk s.db key.orgId with
      | true => exact .inl ⟨keyId, key, rfl, present, credit,
          by simp [creditGate, step, present, credit]⟩
      | false =>
        exact .inr
          (.inr (.inr ⟨.insufficientQuota, s.inFlight, List.Sublist.refl _, by simp, by simp, by
          simp [creditGate, step, present, credit]⟩))
  | complete i today done =>
    cases present : s.inFlight[i]? with
    | none =>
      exact .inr (.inr (.inr ⟨.failed, s.inFlight, List.Sublist.refl _, by simp, by simp, by
        simp [creditGate, step, present]⟩))
    | some flight =>
      cases metered : done.usage with
      | error raised =>
        exact .inr
          (.inr (.inr ⟨.failed, s.inFlight.eraseIdx i, List.eraseIdx_sublist ..,
          by simp, by simp, by
          simp [creditGate, step, present, metered]⟩))
      | ok u =>
        exact .inr (.inl ⟨i, today, done, flight, u, rfl, present, metered, by
          simp [creditGate, step, present, metered]⟩)
  | fail i => exact .inr (.inr
      (.inr ⟨.failed, s.inFlight.eraseIdx i, List.eraseIdx_sublist .., by simp, by simp, rfl⟩))
  | grant orgId deltaUsd reason => exact .inr (.inr (.inl ⟨orgId, deltaUsd, reason, rfl, rfl⟩))

end CreditGate

namespace ControlDb

/-- A usage row belongs to the organisation of its key. -/
def RowsOwned (db : ControlDb) : Prop :=
  ∀ k row, db.usageDaily.get? k = some row → ∃ key, db.apiKeys.get? k.1 = some key ∧
    row.orgId = key.orgId

variable {db : ControlDb} {orgId keyId day : String} {u : Metering.Usage} {key : ApiKey}

theorem RowsOwned.orgId_of_row (rows : db.RowsOwned) (present : db.apiKeys.get? keyId = some key)
    {row : UsageDaily} (found : db.usageDaily.get? (keyId, day) = some row) :
      row.orgId = key.orgId := by
  obtain ⟨key', present', own⟩ := rows _ row found
  obtain rfl := Option.some.inj (present.symm.trans present')
  exact own

theorem RowsOwned.orgId_of_getD (rows : db.RowsOwned) (present : db.apiKeys.get? keyId = some key)
    (own : key.orgId = orgId) :
    ((db.usageDaily.get? (keyId, day)).getD { orgId, keyId, day }).orgId = orgId := by
  cases found : db.usageDaily.get? (keyId, day) with
  | none => rfl
  | some row => exact (rows.orgId_of_row present found).trans own

theorem RowsOwned.record (rows : db.RowsOwned) (present : db.apiKeys.get? keyId = some key)
    (own : key.orgId = orgId) :
    (Metering.record db orgId keyId day u).RowsOwned :=
  Dict.forall_get?_set rows ⟨key, present, (rows.orgId_of_getD present own).trans own.symm⟩

theorem RowsOwned.spent_record (rows : db.RowsOwned) (present : db.apiKeys.get? keyId = some key)
    (own : key.orgId = orgId) (org : String) :
    Metering.spent (Metering.record db orgId keyId day u) org =
      Metering.spent db org + if orgId = org then u.dexaUsd else 0 := by
  have sums := Dict.sum_filter_set db.usageDaily (·.orgId == org) UsageDaily.dexaUsd (keyId, day)
    (u.addTo ((db.usageDaily.get? (keyId, day)).getD { orgId, keyId, day }))
  change Metering.spent (Metering.record db orgId keyId day u) org + _ =
    Metering.spent db org + _ at sums
  have new : (u.addTo ((db.usageDaily.get? (keyId, day)).getD { orgId, keyId, day })).orgId =
    orgId :=
    rows.orgId_of_getD present own
  rw [new] at sums
  cases found : db.usageDaily.get? (keyId, day) with
  | none =>
    rw [found] at sums
    simpa [Metering.Usage.addTo] using sums
  | some row =>
    have old : row.orgId = orgId := (rows.orgId_of_row present found).trans own
    rw [found] at sums
    by_cases same : orgId = org
    · subst same
      simp only [Option.filter_some, old, beq_self_eq_true, if_true, Option.elim_some,
        Option.getD_some,
        Metering.Usage.addTo] at sums
      rw [if_pos rfl]
      linarith only [sums]
    · simpa [Option.filter_some, old, same] using sums

theorem granted_grant (db : ControlDb) (orgId org : String) (deltaUsd : ℚ) (reason : String) :
    Metering.granted { db with creditLedger := db.creditLedger ++ [{ orgId, deltaUsd, reason }] } org =
      Metering.granted db org + if orgId = org then deltaUsd else 0 := by
  by_cases same : orgId = org
  · simp [Metering.granted, List.filter_append, same]
  · simp [Metering.granted, List.filter_append, same]

theorem quotaOk_iff (db : ControlDb) (org : String) :
    Metering.quotaOk db org = true ↔ Metering.spent db org < Metering.granted db org := by
  simp [Metering.quotaOk, Metering.remainingCredit]

end ControlDb

namespace CreditGate

/-! ## The bound -/

/-- The tables and the flights agree on whose a key is. -/
structure Owned (s : State) : Prop where
  rows : s.db.RowsOwned
  flights : ∀ f ∈ s.inFlight, ∃ key, s.db.apiKeys.get? f.keyId = some key ∧ key.orgId = f.orgId

theorem Owned.next {s : State} (owned : Owned s) (e : Event) : Owned (creditGate.next s e) := by
  rw [Machine.next]
  obtain ⟨keyId, key, -, present, -, result⟩ | ⟨i, today, done, flight, u, -, flying, -, result⟩ |
    ⟨orgId, deltaUsd, reason, -, result⟩ | ⟨reply, left, sub, -, -, result⟩ := step_cases s e
  · rw [result]
    refine ⟨owned.rows, ?_⟩
    intro f member
    cases List.mem_append.1 member with
    | inl old => exact owned.flights f old
    | inr new =>
      obtain rfl := List.mem_singleton.1 new
      exact ⟨key, present, rfl⟩
  · rw [result]
    obtain ⟨key, present, own⟩ := owned.flights flight (List.mem_of_getElem? flying)
    exact ⟨owned.rows.record present own,
      fun f member => owned.flights f (List.mem_of_mem_eraseIdx member)⟩
  · rw [result]
    exact ⟨owned.rows, owned.flights⟩
  · rw [result]
    exact ⟨owned.rows, fun f member => owned.flights f (sub.mem member)⟩

/-- What is recorded for the organisation costs at most `c`. -/
def Reply.CostsAtMost (org : String) (c : ℚ) : Reply → Prop
  | .recorded flight u => flight.orgId = org → u.dexaUsd ≤ c
  | _ => True

/-- What is granted to the organisation is not negative. -/
def Event.NotNegative (org : String) : Event → Prop
  | .grant orgId deltaUsd _ => orgId = org → 0 ≤ deltaUsd
  | _ => True

instance (org : String) (c : ℚ) : DecidablePred (Reply.CostsAtMost org c)
  | .recorded flight u => inferInstanceAs (Decidable (flight.orgId = org → u.dexaUsd ≤ c))
  | .invalidKey | .insufficientQuota | .admitted _ | .failed | .granted => .isTrue trivial

instance (org : String) : DecidablePred (Event.NotNegative org)
  | .grant orgId deltaUsd _ => inferInstanceAs (Decidable (orgId = org → 0 ≤ deltaUsd))
  | .request _ | .complete .. | .fail _ => .isTrue trivial

/-- At most `n` requests of the organisation are in flight after the step, what it records
    for the organisation costs at most `c`, and what it grants is not negative. -/
def Within (org : String) (n : Nat) (c : ℚ) (s : State) (e : Event) : Prop :=
  (creditGate.next s e).inFlightOf org ≤ n ∧ (creditGate.out s e).CostsAtMost org c ∧
    e.NotNegative org

instance (org : String) (n : Nat) (c : ℚ) (s : State) (e : Event) :
    Decidable (Within org n c s e) :=
  inferInstanceAs (Decidable (_ ∧ _ ∧ _))

theorem length_filter_eraseIdx {α : Type*} {p : α → Bool} {l : List α} {i : Nat} {a : α}
    (there : l[i]? = some a) :
    ((l.eraseIdx i).filter p).length + (p a).toNat = (l.filter p).length := by
  induction l generalizing i with
  | nil => cases there
  | cons b l ih =>
    cases i with
    | zero =>
      obtain rfl := Option.some.inj there
      cases h : p b <;> simp [h]
    | succ i =>
      have tail := ih there
      cases h : p b with
      | true => simp only [List.eraseIdx_cons_succ, List.filter_cons, h, if_true,
          List.length_cons]; omega
      | false => simpa [h] using tail

/-- What was spent, with `c` for every request in flight, stays within what was granted and
    `c` for each of `n` requests. -/
structure Bounded (org : String) (n : Nat) (c : ℚ) (s : State) : Prop extends Owned s where
  books : Metering.spent s.db org + s.inFlightOf org * c ≤ Metering.granted s.db org + n * c

theorem Bounded.next {org : String} {n : Nat} {c : ℚ} {s : State} (bounded : Bounded org n c s)
    (nonneg : 0 ≤ c)
    {e : Event} (within : Within org n c s e) : Bounded org n c (creditGate.next s e) := by
  refine ⟨bounded.toOwned.next e, ?_⟩
  have books := bounded.books
  obtain ⟨room, cheap, generous⟩ := within
  rw [Machine.next] at room ⊢
  rw [Machine.out] at cheap
  obtain ⟨keyId, key, -, -, credit, result⟩ | ⟨i, today, done, flight, u, -, flying, -, result⟩ |
    ⟨orgId, deltaUsd, reason, rfl, result⟩ | ⟨reply, left, sub, -, -, result⟩ := step_cases s e
  · rw [result] at room ⊢
    by_cases same : key.orgId = org
    -- credit was left: whatever is in flight costs at most `c` for each of the `n`
    · have left : Metering.spent s.db org < Metering.granted s.db org :=
        (ControlDb.quotaOk_iff ..).1 (same ▸ credit)
      have flights :
        ((State.inFlightOf { s with inFlight := s.inFlight ++ [⟨key.orgId, keyId⟩] } org : Nat) : ℚ) * c
          ≤ n * c := mul_le_mul_of_nonneg_right (Nat.cast_le.2 room) nonneg
      linarith only [left, flights]
    · have flights :
        State.inFlightOf { s with inFlight := s.inFlight ++ [⟨key.orgId, keyId⟩] } org =
          s.inFlightOf org := by simp [State.inFlightOf, List.filter_append, same]
      rw [flights]
      exact books
  · rw [result] at cheap ⊢
    obtain ⟨key, present, own⟩ := bounded.flights flight (List.mem_of_getElem? flying)
    -- a completed request moves from the flights to the books
    have landed := length_filter_eraseIdx (p := (·.orgId == org)) flying
    change State.inFlightOf { s with inFlight := s.inFlight.eraseIdx i } org + _ =
      s.inFlightOf org at landed
    rw [bounded.rows.spent_record present own org]
    by_cases same : flight.orgId = org
    · have one : State.inFlightOf { s with inFlight := s.inFlight.eraseIdx i } org + 1 =
        s.inFlightOf org := by
        simpa [same] using landed
      have cost : u.dexaUsd ≤ c := cheap same
      rw [← one, Nat.cast_add, Nat.cast_one] at books
      rw [if_pos same]
      change _ + (State.inFlightOf { s with inFlight := s.inFlight.eraseIdx i } org : ℚ) * c ≤
        Metering.granted s.db org + _
      linarith only [books, cost]
    · have none : State.inFlightOf { s with inFlight := s.inFlight.eraseIdx i } org =
        s.inFlightOf org := by
        have apart : (flight.orgId == org) = false := beq_eq_false_iff_ne.2 same
        rwa [apart] at landed
      rw [if_neg same, add_zero]
      change _ + (State.inFlightOf { s with inFlight := s.inFlight.eraseIdx i } org : ℚ) * c ≤
        Metering.granted s.db org + _
      rw [none]
      exact books
  · rw [result]
    rw [ControlDb.granted_grant]
    change Metering.spent s.db org + (s.inFlightOf org : ℚ) * c ≤ _
    by_cases same : orgId = org
    · have more : 0 ≤ deltaUsd := generous same
      rw [if_pos same]
      linarith only [books, more]
    · rw [if_neg same, add_zero]
      exact books
  · rw [result]
    have fewer : State.inFlightOf { s with inFlight := left } org ≤ s.inFlightOf org :=
      (sub.filter _).length_le
    have flights : (State.inFlightOf { s with inFlight := left } org : ℚ) * c ≤
      s.inFlightOf org * c :=
      mul_le_mul_of_nonneg_right (Nat.cast_le.2 fewer) nonneg
    change Metering.spent s.db org + _ ≤ Metering.granted s.db org + _
    linarith only [books, flights]

/-! ## Without credit -/

def Event.GrantsTo (org : String) : Event → Prop
  | .grant orgId _ _ => orgId = org
  | _ => False

/-- The reply the event brings, if any, does not report a negative number of tokens. -/
def Event.CountsTokens : Event → Prop
  | .complete _ _ done => done.CountsTokens
  | _ => True

/-- Nothing of what was granted is left. -/
structure Exhausted (org : String) (s : State) : Prop extends Owned s where
  books : Metering.granted s.db org ≤ Metering.spent s.db org

theorem Exhausted.next {org : String} {s : State} (exhausted : Exhausted org s) {e : Event}
    (noGrant : ¬ e.GrantsTo org)
    (counts : e.CountsTokens) :
    Exhausted org (creditGate.next s e) := by
  refine ⟨exhausted.toOwned.next e, ?_⟩
  have books := exhausted.books
  rw [Machine.next]
  obtain ⟨keyId, key, -, -, -, result⟩ | ⟨i, today, done, flight, u, rfl, flying, metered, result⟩ |
    ⟨orgId, deltaUsd, reason, rfl, result⟩ | ⟨reply, left, -, -, -, result⟩ := step_cases s e
  · rw [result]
    exact books
  · rw [result]
    obtain ⟨key, present, own⟩ := exhausted.flights flight (List.mem_of_getElem? flying)
    have cost : 0 ≤ u.dexaUsd := Completion.usage_nonneg counts metered
    rw [exhausted.rows.spent_record present own org]
    change Metering.granted s.db org ≤ _
    split
    · linarith only [books, cost]
    · linarith only [books]
  · have other : orgId ≠ org := noGrant
    rw [result, ControlDb.granted_grant, if_neg other, add_zero]
    exact books
  · rw [result]
    exact books

theorem Exhausted.refuses {org : String} {s : State} (exhausted : Exhausted org s) (e : Event)
    (flight : Flight)
    (same : flight.orgId = org) : creditGate.out s e ≠ .admitted flight := by
  intro admitted
  rw [Machine.out] at admitted
  obtain ⟨keyId, key, -, -, credit, result⟩ | ⟨i, today, done, f, u, -, -, -, result⟩ |
    ⟨orgId, deltaUsd, reason, -, result⟩ | ⟨reply, left, -, other, -, result⟩ := step_cases s e
  · rw [result] at admitted
    cases admitted
    have own : key.orgId = org := same
    have left := (ControlDb.quotaOk_iff ..).1 credit
    rw [own] at left
    exact absurd exhausted.books (not_le.2 left)
  · rw [result] at admitted
    cases admitted
  · rw [result] at admitted
    cases admitted
  · rw [result] at admitted
    exact other flight admitted

/-! ## Every interleaving -/

def start (db : ControlDb) : State := { db }

/-- One request of the gateway, run from start to end, is a run of the gate: it is turned
    away, or admitted and then recorded or failed. -/
theorem chatCompletions_is_run {settings : Settings} {db : ControlDb} {g : Gateway} (rt : Runtime)
    (provisioned : db.Provisioned) (fixed : Gateway.FixedAccounts settings db g) (req : Request)
    (io : Outside) :
    ∃ es, creditGate.exec (start g.db) es = start (g.chatCompletions settings rt req io).2.db := by
  obtain ⟨-, turnedAway⟩ | ⟨secret, p, -, -, looked, credit, served⟩ :=
    Gateway.chatCompletions_cases rt fixed req io
  · exact ⟨[], by rw [turnedAway]; rfl⟩
  · obtain ⟨key, org, -, own, present, -⟩ := ControlDb.lookup_principal provisioned looked
    have known : g.db.apiKeys.get? p.keyId = some key := by rw [fixed.apiKeys]; exact present
    have admitted :
      creditGate.next (start g.db) (.request p.keyId) = ⟨g.db, [⟨p.orgId, p.keyId⟩]⟩ := by
      simp [creditGate, Machine.next, step, start, known, own, credit]
    rw [served]
    obtain unchanged | ⟨done, u, metered, recorded⟩ := Gateway.serve_records rt
      { g with resolver := (resolve settings rt g.db g.resolver io.now (bearer req)).2 } p req io
    · exact ⟨[.request p.keyId, .fail 0], by rw [Machine.exec_cons, admitted, unchanged]; rfl⟩
    · refine ⟨[.request p.keyId, .complete 0 io.today done], ?_⟩
      rw [Machine.exec_cons, admitted, recorded]
      simp [creditGate, Machine.next, step, start, metered]

/-- Starting with nothing in flight and no overspend, and as long as at most `n` requests of
    the organisation are in flight and each costs at most `c`, no interleaving overspends by
    more than `n * c`; and once the credit is spent, nothing is admitted before a grant. -/
theorem overspend_bounded {org : String} {n : Nat} {c : ℚ} (nonneg : 0 ≤ c) {db : ControlDb}
    (rows : db.RowsOwned)
    (solvent : Metering.spent db org ≤ Metering.granted db org) (es : List Event) :
    let s := creditGate.exec (start db) es
    (creditGate.Meets (Within org n c) (start db) es →
      Metering.spent s.db org ≤ Metering.granted s.db org + n * c) ∧
      (Metering.granted s.db org ≤ Metering.spent s.db org →
        ∀ later, (∀ e ∈ later, ¬ e.GrantsTo org) →
        (∀ e ∈ later, e.CountsTokens) → ∀ p ∈ creditGate.trace s later, ∀ flight :
          Flight, flight.orgId = org →
          p.2 ≠ .admitted flight) := by
  intro s
  have owned : Owned (start db) := ⟨rows, fun f member => by cases member⟩
  constructor
  · intro meets
    have room : 0 ≤ (n : ℚ) * c := by positivity
    have books : Metering.spent db org + ((0 : Nat) : ℚ) * c ≤ Metering.granted db org + n * c := by
      rw [Nat.cast_zero, zero_mul]
      linarith only [solvent, room]
    have bounded : Bounded org n c s :=
      Machine.Meets.invariant
        (fun s e (bounded : Bounded org n c s) within => bounded.next nonneg within)
        ⟨owned, books⟩ meets
    have flights : 0 ≤ (s.inFlightOf org : ℚ) * c := by positivity
    linarith only [bounded.books, flights]
  · intro spent later noGrant counts
    have exhausted : Exhausted org s :=
      ⟨Machine.invariant_exec (fun s e (owned : Owned s) => owned.next e) owned es, spent⟩
    have quiet : creditGate.Meets (fun _ e => ¬ e.GrantsTo org ∧ e.CountsTokens) s later :=
      Machine.meets_of_mem (fun _ e member => ⟨noGrant e member, counts e member⟩) s
    exact (Machine.Meets.run (fun _ reply => ∀ flight : Flight, flight.orgId = org →
      reply ≠ .admitted flight)
      (fun s e (exhausted : Exhausted org s) quiet => exhausted.next quiet.1 quiet.2)
      (fun s e exhausted _ flight same => exhausted.refuses e flight same) exhausted quiet).2

/-- Five million completion tokens at the blended rate: a little over a dollar. -/
def dollarReply : Completion where
  reading :=
    { body := .null, rawSession := .null, session := "", baseline := .gpt4o, dims := [], imgBytes := [],
               text := "" }
  resp := .obj [("usage", .obj [("completion_tokens", .num 5000000)])]
  redundant := 1
  cacheHit := false

/-- An organisation with one key and one granted dollar. -/
def dollarAccount : ControlDb where
  apiKeys :=
    Dict.empty.set "key" { id := "key", orgId := "org", visiblePrefix := "", keyHash := "" }
  creditLedger := [{ orgId := "org", deltaUsd := 1 }]

/-- Two requests in flight overspend by one of them, and the next is turned away. -/
theorem overspend_bounded_two :
    let s := creditGate.exec (start dollarAccount)
      [.request "key", .request "key", .complete 1 "day" dollarReply, .complete 0 "day" dollarReply]
    Metering.spent s.db "org" ≤ Metering.granted s.db "org" + (2 : Nat) * (2 : ℚ) ∧
      ∀ p ∈ creditGate.trace s [.request "key"], ∀ flight : Flight, flight.orgId = "org" →
        p.2 ≠ .admitted flight :=
  have bounds :=
    @overspend_bounded "org" 2 2 (by decide) dollarAccount (fun _ _ found => by cases found)
    (by decide +kernel)
    [.request "key", .request "key", .complete 1 "day" dollarReply, .complete 0 "day" dollarReply]
  ⟨bounds.1 (by decide +kernel),
    bounds.2 (by decide +kernel) [.request "key"] (by simp [Event.GrantsTo])
    (by simp [Event.CountsTokens])⟩

end CreditGate

end Dexa.Platform
