import Dexa.Platform.StaticGateway

/-! # What the usage endpoints show

A run has a journal: an entry for each request that was answered with a completion.  The ledger in
memory and the rows of the control plane hold the sums of their journals, and with them what the
responses report.  A run without accounts and a run with accounts of the same requests have the same
journal, unless credit runs out.
-/

namespace Dexa.Platform

open Dexa.Lib

/-- The requests for which the handler built a completion. -/
def completions (past : List ((Request × Outside) × Handled)) :
    List ((Request × Outside) × Handled) :=
  past.filter fun p => p.2.response.fromCache.isSome

/-- An entry for each completion: who asked, under which session, and what was booked.  The
    completion goes out unless the tenant's name cannot be a header; the caller then receives a
    500. -/
def Journal {ι : Type} (rt : Runtime) (who : Request → Option ι) (tenant : ι → Tenant)
    (past : List ((Request × Outside) × Handled))
    (journal : List (ι × String × Metering.Usage)) : Prop :=
  List.Forall₂ (fun p e => who p.1.1 = some e.1 ∧
    Books rt (tenant e.1) p.1.1 p.2.response (some e.2) ∧
    p.2.response.sent = if latin1 (tenant e.1).name then p.2.response
      else .internalError) (completions past) journal

/-- What the entries of a journal add up to. -/
def sumOf {ι : Type} (journal : List (ι × String × Metering.Usage)) : Agg :=
  (journal.map fun e => e.2.2.agg).sum

/-- A response says whether it is from the cache exactly when it is booked. -/
theorem Books.fromCache {rt : Runtime} {tenant : Tenant} {req : Request} {response : Response}
    {entry : Option (String × Metering.Usage)}
    (books : Books rt tenant req response entry) : response.fromCache = entry.map
      fun e => e.2.cacheHit := by
  cases books with
  | nothing silent => exact silent
  | completion read counted priced fraction entered =>
    subst entered
    rfl

/-- What is booked is sent, unless the tenant's name cannot be a header. -/
theorem Books.sent {rt : Runtime} {tenant : Tenant} {req : Request} {response : Response}
    {e : String × Metering.Usage}
    (books : Books rt tenant req response (some e)) :
    response.sent = if latin1 tenant.name then response else .internalError := by
  cases books with
  | completion => rfl

theorem Books.balanced {rt : Runtime} {tenant : Tenant} {req : Request} {response : Response}
    {e : String × Metering.Usage}
    (books : Books rt tenant req response (some e)) : e.2.agg.Balanced := by
  cases books with
  | completion read counted priced fraction entered =>
    subst priced entered
    exact balanced_usageOf _ _ _ fraction

section Journal

variable {ι : Type} {rt : Runtime} {who : Request → Option ι} {tenant : ι → Tenant}
  {past : List ((Request × Outside) × Handled)}
  {journal : List (ι × String × Metering.Usage)}

theorem Journal.silent (kept : Journal rt who tenant past journal)
    {p : (Request × Outside) × Handled} (silent : p.2.response.fromCache = none) :
    Journal rt who tenant (past ++ [p]) journal := by
  have same : completions (past ++ [p]) = completions past := by simp [completions, silent]
  rwa [Journal, same]

theorem Journal.booked (kept : Journal rt who tenant past journal)
    {p : (Request × Outside) × Handled} {asker : ι}
    {entry : String × Metering.Usage} (asked : who p.1.1 = some asker)
    (books : Books rt (tenant asker) p.1.1 p.2.response (some entry)) :
    Journal rt who tenant (past ++ [p]) (journal ++ [(asker, entry)]) := by
  have more : completions (past ++ [p]) = completions past ++ [p] := by
    simp [completions, books.fromCache]
  rw [Journal, more]
  exact List.rel_append kept (.cons ⟨asked, books, books.sent⟩ .nil)

/-- One request that is served, with what it books. -/
theorem Journal.next (kept : Journal rt who tenant past journal) {e : Request × Outside} {asker : ι}
    (asked : who e.1 = some asker)
    (meter : RedundancyMeter) (cache : Dict String Cached) :
    Journal rt who tenant (past ++ [(e, (Desk.outcome rt meter cache (tenant asker) e.1 e.2).1)])
      (journal ++ ((Desk.outcome rt meter cache (tenant asker) e.1 e.2).2.books.map
        fun entry => (asker, entry)).toList) := by
  have books := Desk.outcome_books rt (tenant asker) meter cache e.1 e.2
  cases booked : (Desk.outcome rt meter cache (tenant asker) e.1 e.2).2.books with
  | none =>
    rw [booked] at books
    simpa using kept.silent (p := (e, _)) books.fromCache
  | some entry =>
    rw [booked] at books
    exact kept.booked (p := (e, _)) asked books

/-- The journal tells how many requests were answered, and how many of them from the cache. -/
theorem Journal.counts (kept : Journal rt who tenant past journal) :
    journal.length = (completions past).length ∧
      journal.countP (·.2.2.cacheHit) = past.countP
        fun p => p.2.response.fromCache == some true := by
  have hits : (completions past).countP (fun p => p.2.response.fromCache == some true) =
    journal.countP (·.2.2.cacheHit) := by
    rw [Journal] at kept
    generalize completions past = done at kept ⊢
    induction kept with
    | nil => rfl
    | cons first _ ih =>
      have flag := first.2.1.fromCache
      rw [List.countP_cons, List.countP_cons, ih, flag]
      simp
  refine ⟨kept.length_eq.symm, ?_⟩
  rw [← hits, completions, List.countP_filter]
  apply List.countP_congr
  intro p _
  cases p.2.response.fromCache <;> simp

theorem Journal.balanced (kept : Journal rt who tenant past journal)
    {e : ι × String × Metering.Usage} (member : e ∈ journal) :
    e.2.2.agg.Balanced := by
  obtain ⟨i, inside, rfl⟩ := List.getElem_of_mem member
  exact ((List.forall₂_iff_get.1 kept).2 i (kept.length_eq ▸ inside) inside).2.1.balanced

end Journal

/-! ## Without accounts -/

section Static

variable (registry : TenantRegistry) (rt : Runtime)

/-- The ledger is that of the journal. -/
def InMemory (past : List ((Request × Outside) × Handled)) (d : Desk Store) : Prop :=
  ∃ journal, Journal rt (fun req => registry.resolve (bearer req)) id past journal ∧
    d.books = Store.ofJournal (journal.map Prod.snd)

variable {registry rt}

theorem InMemory.next {past : List ((Request × Outside) × Handled)} {d : Desk Store}
    (held : InMemory registry rt past d) (e : Request × Outside) :
    InMemory registry rt (past ++ [(e, (staticGateway registry rt).out d e)])
      ((staticGateway registry rt).next d e) := by
  obtain ⟨journal, kept, books⟩ := held
  rw [Machine.out, Machine.next]
  simp only [staticGateway, staticCompletions]
  cases asked : registry.resolve (bearer e.1) with
  | none => exact ⟨journal, kept.silent rfl, books⟩
  | some tenant =>
    simp only [Desk.serve_eq, Prod.map, id]
    refine ⟨_, kept.next asked d.meter d.cache, ?_⟩
    rw [Desk.settle, List.map_append, id]
    cases (Desk.outcome rt d.meter d.cache tenant e.1 e.2).2.books with
    | none => simpa using books
    | some entry =>
      simp only [Option.elim_some, Option.map_some, Option.toList_some, List.map_singleton,
        Store.ofJournal_snoc, books]

end Static

/-! ## With and without accounts -/

section Modes

variable {settings : Settings} {rt : Runtime} {db : ControlDb} {registry : TenantRegistry}

theorem sum_record_all (db : ControlDb) (orgId keyId day : String) (u : Metering.Usage) :
    ((Metering.record db orgId keyId day u).usageDaily.values.map UsageDaily.agg).sum =
      (db.usageDaily.values.map UsageDaily.agg).sum + u.agg := by
  have recorded := Metering.sum_record db orgId keyId day u (fun _ _ => true) fun _ _ => rfl
  simpa using recorded

/-- The two gateways remember the same frames and completions, and have counted the same. -/
structure InStep (settings : Settings) (db : ControlDb) (g : Gateway) (d : Desk Store) : Prop where
  fixed : Gateway.FixedAccounts settings db g
  meter : g.meter = d.meter
  cache : g.cache = d.cache
  sums : (g.db.usageDaily.values.map UsageDaily.agg).sum =
    (db.usageDaily.values.map UsageDaily.agg).sum + d.books.total

theorem InStep.next {g : Gateway} {d : Desk Store} (inStep : InStep settings db g d)
    {e : Request × Outside}
    (same : registry.resolve (bearer e.1) = (db.principalOf settings rt e.1).map Principal.tenant)
    (credit : ((gateway settings rt).out g e).response ≠ .insufficientQuota) :
    (gateway settings rt).out g e = (staticGateway registry rt).out d e ∧
      InStep settings db ((gateway settings rt).next g e)
        ((staticGateway registry rt).next d e) := by
  have fixed := inStep.fixed.chatCompletions rt e.1 e.2
  have resolved := inStep.fixed.resolve_eq rt e.1 e.2.now
  simp only [Machine.out, Machine.next, gateway, staticGateway, staticCompletions,
    Gateway.chatCompletions, same, resolved] at credit fixed ⊢
  cases asked : db.principalOf settings rt e.1 with
  | none =>
    simp only [asked, Option.map_none] at fixed ⊢
    exact ⟨trivial, fixed, inStep.meter, inStep.cache, inStep.sums⟩
  | some p =>
    simp only [asked, Option.map_some] at credit fixed ⊢
    cases quota : Metering.quotaOk g.db p.orgId with
    | false => simp [quota] at credit
    | true =>
      simp only [quota, Bool.not_true, Bool.false_eq_true, if_false, Gateway.serve_seat,
        Desk.serve_eq, inStep.meter, inStep.cache,
        Prod.map, id] at fixed ⊢
      refine ⟨trivial, fixed, rfl, rfl, ?_⟩
      simp only [Gateway.seat, Desk.settle]
      cases (Desk.outcome rt d.meter d.cache p.tenant e.1 e.2).2.books with
      | none => exact inStep.sums
      | some entry =>
        -- one row more, or one that counts the request too
        have recorded := sum_record_all g.db p.orgId p.keyId e.2.today entry.2
        exact recorded.trans ((congrArg (· + entry.2.agg) inStep.sums).trans (add_assoc ..))

/-- A run of both, as long as credit lasts. -/
theorem InStep.run {es : List (Request × Outside)} {g : Gateway} {d : Desk Store}
    (inStep : InStep settings db g d)
    (same : ∀ e ∈ es,
      registry.resolve (bearer e.1) = (db.principalOf settings rt e.1).map Principal.tenant)
    (credit : ∀ p ∈ (gateway settings rt).trace g es, p.2.response ≠ .insufficientQuota) :
    (gateway settings rt).trace g es = (staticGateway registry rt).trace d es ∧
      InStep settings db ((gateway settings rt).exec g es)
        ((staticGateway registry rt).exec d es) := by
  induction es generalizing g d with
  | nil => exact ⟨rfl, inStep⟩
  | cons e es ih =>
    obtain ⟨answer, next⟩ :=
      inStep.next (same e List.mem_cons_self) (credit (e, _) List.mem_cons_self)
    obtain ⟨answers, last⟩ := ih next (fun e member => same e (List.mem_cons_of_mem _ member))
      fun p member => credit p (List.mem_cons_of_mem _ member)
    exact ⟨by rw [Machine.trace, Machine.trace, answer, answers], last⟩

end Modes

section Rows

variable {settings : Settings} {rt : Runtime} {db : ControlDb}

/-- The rows have the sums of the journal, by organisation and key. -/
structure Tallied (tables : ControlDb) (journal : List (Principal × String × Metering.Usage)) :
    Prop where
  keyed : ∀ k row, tables.usageDaily.get? k = some row → row.keyId = k.1
  sums : ∀ keep : String → String → Bool,
    ((tables.usageDaily.values.filter fun row => keep row.orgId row.keyId).map UsageDaily.agg).sum =
      sumOf (journal.filter fun e => keep e.1.orgId e.1.keyId)
  askers : ∀ orgId keyId,
    (∃ row ∈ tables.usageDaily.values, row.orgId = orgId ∧ row.keyId = keyId) ↔
    ∃ e ∈ journal, e.1.orgId = orgId ∧ e.1.keyId = keyId

theorem Tallied.record {tables : ControlDb} {journal : List (Principal × String × Metering.Usage)}
    (tallied : Tallied tables journal)
    {p : Principal} {day : String}
    (own : ∀ row, tables.usageDaily.get? (p.keyId, day) = some row → row.orgId = p.orgId)
    (entry : String × Metering.Usage) : Tallied (Metering.record tables p.orgId p.keyId day entry.2)
    (journal ++ [(p, entry)]) := by
  have old : ∀ row, tables.usageDaily.get? (p.keyId, day) = some row → row.orgId = p.orgId ∧
    row.keyId = p.keyId :=
    fun row found => ⟨own row found, tallied.keyed _ row found⟩
  obtain ⟨new, booked, orgId, keyId⟩ :
    ∃ new, (Metering.record tables p.orgId p.keyId day entry.2).usageDaily =
      tables.usageDaily.set (p.keyId, day) new ∧ new.orgId = p.orgId ∧ new.keyId = p.keyId := by
    refine ⟨_, rfl, ?_⟩
    cases found : tables.usageDaily.get? (p.keyId, day) with
    | none => exact ⟨rfl, rfl⟩
    | some row => exact old row found
  refine ⟨?_, ?_, ?_⟩
  · rw [booked]
    exact Dict.forall_get?_set tallied.keyed keyId
  · intro keep
    rw [Metering.sum_record _ _ _ _ entry.2 keep
      fun row found => by rw [(old row found).1,
      (old row found).2], tallied.sums keep, List.filter_append,
      sumOf, sumOf, List.map_append, List.sum_append]
    cases kept : keep p.orgId p.keyId <;> simp [kept]
  · intro org key
    have before := tallied.askers org key
    have here : new ∈ (tables.usageDaily.set (p.keyId, day) new).values :=
      Dict.mem_values_iff.2 ⟨_, Dict.get?_set_self ..⟩
    rw [booked]
    constructor
    · rintro ⟨row, member, rfl, rfl⟩
      obtain ⟨k, found⟩ := Dict.mem_values_iff.1 member
      rw [Dict.get?_set] at found
      split at found
      · cases found
        exact ⟨(p, entry), by simp, orgId.symm, keyId.symm⟩
      · obtain ⟨e, there, same⟩ := before.1 ⟨row, Dict.mem_values_iff.2 ⟨k, found⟩, rfl, rfl⟩
        exact ⟨e, by simp [there], same⟩
    · rintro ⟨e, member, rfl, rfl⟩
      rcases List.mem_append.1 member with there | last
      · obtain ⟨row, stored, sameOrg, sameKey⟩ := before.2 ⟨e, there, rfl, rfl⟩
        obtain ⟨k, found⟩ := Dict.mem_values_iff.1 stored
        by_cases again : (p.keyId, day) = k
        · -- the row of that day is counted on
          subst again
          exact ⟨new, here, orgId.trans ((old row found).1.symm.trans sameOrg),
            keyId.trans ((old row found).2.symm.trans sameKey)⟩
        · exact ⟨row, Dict.mem_values_iff.2 ⟨k, by rw [Dict.get?_set, if_neg again, found]⟩,
            sameOrg, sameKey⟩
      · obtain rfl := List.mem_singleton.1 last
        exact ⟨new, here, orgId, keyId⟩

structure InRows (settings : Settings) (rt : Runtime) (db : ControlDb)
    (past : List ((Request × Outside) × Handled)) (g : Gateway)
    (journal : List (Principal × String × Metering.Usage)) : Prop where
  kept : Journal rt (db.principalOf settings rt) Principal.tenant past journal
  sound : Gateway.Sound settings db g
  tallied : Tallied g.db journal

theorem InRows.next (provisioned : db.Provisioned) {past : List ((Request × Outside) × Handled)}
    {g : Gateway}
    {journal : List (Principal × String × Metering.Usage)}
    (held : InRows settings rt db past g journal) (e : Request × Outside) :
    ∃ journal', InRows settings rt db (past ++ [(e, (gateway settings rt).out g e)])
      ((gateway settings rt).next g e) journal' := by
  have sound : Gateway.Sound settings db (g.chatCompletions settings rt e.1 e.2).2 :=
    held.sound.chatCompletions provisioned e.1 e.2
  rcases Gateway.chatCompletions_cases rt held.sound.toFixedAccounts e.1 e.2 with
    ⟨silent, turnedAway⟩ | ⟨secret, p, presented, key, looked, -, served⟩
  · refine ⟨journal, held.kept.silent silent, sound, ?_⟩
    have rows : ((gateway settings rt).next g e).db = g.db := by
      rw [Machine.next, gateway, turnedAway]
    rw [rows]
    exact held.tallied
  · have asked : db.principalOf settings rt e.1 = some p := by
      rw [ControlDb.principalOf, presented, Option.bind_some, if_pos key, looked]
    obtain ⟨key, org, -, own, present, -⟩ := ControlDb.lookup_principal provisioned looked
    have step : (gateway settings rt).step g e = Prod.map id (Gateway.seat { g with
        resolver := (resolve settings rt g.db g.resolver e.2.now (bearer e.1)).2 })
        (Prod.map id
          (Desk.settle (fun _ u db => Metering.record db p.orgId p.keyId e.2.today u) g.db)
          (Desk.outcome rt g.meter g.cache p.tenant e.1 e.2)) := by
      change Gateway.chatCompletions settings rt g e.1 e.2 = _
      rw [served, Gateway.serve_seat, Desk.serve_eq]
    refine ⟨_, by rw [Machine.out, step]; exact held.kept.next asked g.meter g.cache, sound, ?_⟩
    rw [Machine.next, step]
    simp only [Prod.map, Gateway.seat, Desk.settle]
    cases (Desk.outcome rt g.meter g.cache p.tenant e.1 e.2).2.books with
    | none => simpa using held.tallied
    | some entry =>
      apply held.tallied.record
      intro row found
      obtain ⟨key', present', same⟩ := held.sound.rows _ row found
      obtain rfl := Option.some.inj (present.symm.trans present')
      exact same.trans own

theorem sum_nonneg {ι : Type} {journal : List (ι × String × Metering.Usage)}
    (costs : ∀ e ∈ journal, 0 ≤ e.2.2.dexaUsd) :
    0 ≤ (sumOf journal).dexaUsd := by
  induction journal with
  | nil => exact le_rfl
  | cons e journal ih =>
    rw [sumOf, List.map_cons, List.sum_cons, Agg.add_def]
    exact add_nonneg (costs e List.mem_cons_self)
      (ih fun e' member => costs e' (List.mem_cons_of_mem e member))

/-- The entries of an organisation, or of one of its keys. -/
def entriesOf (journal : List (Principal × String × Metering.Usage)) (orgId : String)
    (keyId : Option String := none) :
    List (Principal × String × Metering.Usage) :=
  journal.filter fun e => e.1.orgId == orgId && keyId.elim true (e.1.keyId == ·)

end Rows

end Dexa.Platform
