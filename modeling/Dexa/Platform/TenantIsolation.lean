import Dexa.Platform.GatewayLocality

/-! # Isolation of organisations at the gateway

The meter and the cache are keyed by `tenant.name/session`, where the tenant's name is the
organisation's name and nothing makes those distinct.  Two organisations whose names give
no common session key are isolated: deleting the requests of one from a run changes no
response to the other.  Two whose names do give one share that session, and a request of
the first changes what the second is answered.
-/

namespace Dexa.Platform

open Dexa.Lib

namespace ControlDb

/-- The organisation whose key, revoked or not, a request presents. -/
def ownerOf (rt : Runtime) (db : ControlDb) (req : Request) : Option String :=
  ((bearer req).bind fun secret => db.findKey (hashSecret rt secret)).map ApiKey.orgId

/-- An organisation with an active key and credit left. -/
def Admitted (settings : Settings) (rt : Runtime) (db : ControlDb) (orgId : String) : Prop :=
  (∃ secret p, looksLikeKey secret = true ∧ db.lookup settings (hashSecret rt secret) = some p ∧
    p.orgId = orgId) ∧
    Metering.quotaOk db orgId = true

theorem lookup_some {settings : Settings} {db : ControlDb} {h : String} {p : Principal}
    (found : db.lookup settings h = some p) :
    ∃ key org, db.findKey h = some key ∧ db.orgs.get? key.orgId = some org ∧
      p = buildPrincipal settings org key.id := by
  rw [lookup] at found
  cases present : db.findKey h with
  | none => simp [present] at found
  | some key =>
    simp only [present] at found
    split at found
    · cases found
    · obtain ⟨org, orgFound, built⟩ := Option.map_eq_some_iff.1 found
      exact ⟨key, org, rfl, orgFound, built.symm⟩

theorem get?_of_findKey {db : ControlDb} {h : String} {key : ApiKey} (provisioned : db.Provisioned)
    (found : db.findKey h = some key) : db.apiKeys.get? key.id = some key := by
  obtain ⟨id, present⟩ := Dict.mem_values_iff.1 (List.mem_of_find?_eq_some found)
  rwa [provisioned.keyIds id key present]

/-- What the resolver's answer says about the tables: the key is the organisation's, and
    the tenant's name is the organisation's. -/
theorem lookup_principal {settings : Settings} {db : ControlDb} {h : String} {p : Principal}
    (provisioned : db.Provisioned) (found : db.lookup settings h = some p) :
    ∃ key org, db.findKey h = some key ∧ key.orgId = p.orgId ∧ db.apiKeys.get? p.keyId = some key ∧
      db.orgs.get? p.orgId = some org ∧ p.tenant.name = org.tenantName := by
  obtain ⟨key, org, keyFound, orgFound, rfl⟩ := lookup_some found
  have orgId : org.id = key.orgId := provisioned.orgIds _ _ orgFound
  exact ⟨key, org, keyFound, orgId.symm, get?_of_findKey provisioned keyFound,
    (congrArg db.orgs.get? orgId).trans orgFound,
    rfl⟩

end ControlDb

namespace Gateway

variable {settings : Settings} (rt : Runtime)

/-- Reporting a completion keeps the resolver and the meter, and the database or all of it
    but one usage row. -/
theorem finish_frame (g : Gateway) (p : Principal) (r : Reading) (io : Outside) (redundant : ℚ)
    (resp : Json)
    (hit : Bool) :
    (g.finish rt p r io redundant resp hit).2.resolver = g.resolver ∧
      (g.finish rt p r io redundant resp hit).2.meter = g.meter ∧
      ((g.finish rt p r io redundant resp hit).2.db = g.db ∨
        ∃ u, (g.finish rt p r io redundant resp hit).2.db =
          Metering.record g.db p.orgId p.keyId io.today u) := by
  rw [finish_eq]
  cases resp.setItem "model" (.str "dexa-cua-vlm") with
  | error e => exact ⟨rfl, rfl, .inl rfl⟩
  | ok resp =>
    obtain ⟨db, resolver, meter⟩ := store_frame rt g p.tenant r resp
    simp only
    cases outTokens resp with
    | error e => exact ⟨resolver, meter, .inl db⟩
    | ok out =>
      simp only
      cases resp.setItem "dexa" (infoOf p.tenant r (savingsOf r out hit) redundant hit) with
      | error e => exact ⟨resolver, meter, .inr ⟨_, by rw [meterUsage, db]⟩⟩
      | ok resp' =>
        obtain ⟨db', resolver', meter'⟩ := store_frame rt
          ((g.store rt p.tenant r resp).meterUsage p io.today
            (usageOf (savingsOf r out hit) redundant hit)) p.tenant r resp'
        refine ⟨resolver'.trans resolver, meter'.trans meter,
          .inr ⟨usageOf (savingsOf r out hit) redundant hit, ?_⟩⟩
        rw [db', meterUsage, db]

theorem serve_db (g : Gateway) (p : Principal) (req : Request) (io : Outside) :
    (g.serve rt p req io).2.resolver = g.resolver ∧
      ((g.serve rt p req io).2.db = g.db ∨
        ∃ u, (g.serve rt p req io).2.db = Metering.record g.db p.orgId p.keyId io.today u) := by
  simp only [serve]
  cases readRequest rt p.tenant req with
  | error e => exact ⟨rfl, .inl rfl⟩
  | ok r =>
    simp only
    cases (observeLast rt g.meter r).1 with
    | error e => exact ⟨rfl, .inl rfl⟩
    | ok obs =>
      have finished := fun resp hit =>
        finish_frame rt { g with meter := (observeLast rt g.meter r).2 } p r io obs.1 resp hit
      simp only [complete]
      generalize answer rt p.tenant r io obs.2 _ = answered
      obtain ⟨result, forwarded⟩ := answered
      cases result with
      | cached resp => exact ⟨(finished resp true).1, (finished resp true).2.2⟩
      | completed resp => exact ⟨(finished resp false).1, (finished resp false).2.2⟩
      | backendError message => exact ⟨rfl, .inl rfl⟩
      | raised => exact ⟨rfl, .inl rfl⟩

variable {rt}

/-! ## Invariants of a run

  `db` is the database the gateway starts with; a run only adds to its usage rows. -/

structure FixedAccounts (settings : Settings) (db : ControlDb) (g : Gateway) : Prop where
  orgs : g.db.orgs = db.orgs
  apiKeys : g.db.apiKeys = db.apiKeys
  ledger : g.db.creditLedger = db.creditLedger
  resolver : g.resolver.Sound settings db

structure Sound (settings : Settings) (db : ControlDb) (g : Gateway) :
    Prop extends FixedAccounts settings db g where
  /-- a usage row belongs to the organisation of its key -/
  rows : ∀ k row, g.db.usageDaily.get? k = some row → ∃ key, db.apiKeys.get? k.1 = some key ∧
    row.orgId = key.orgId
  /-- who starts without credit stays without -/
  exhausted : ∀ orgId, Metering.quotaOk db orgId = false → Metering.quotaOk g.db orgId = false

theorem fixedAccounts_start (db : ControlDb) : FixedAccounts settings db { db } :=
  ⟨rfl, rfl, rfl, nofun⟩

theorem sound_start {db : ControlDb} (provisioned : db.Provisioned) : Sound settings db { db } where
  toFixedAccounts := fixedAccounts_start db
  rows k row present := by
    rw [provisioned.unmetered] at present
    cases present
  exhausted _ none := none

theorem FixedAccounts.lookup {db : ControlDb} {g : Gateway} (fixed : FixedAccounts settings db g)
    (h : String) :
    g.db.lookup settings h = db.lookup settings h := by
  simp only [ControlDb.lookup, ControlDb.findKey, fixed.orgs, fixed.apiKeys]

theorem FixedAccounts.resolverSound {db : ControlDb} {g : Gateway}
    (fixed : FixedAccounts settings db g) :
    g.resolver.Sound settings g.db := fun h entry present =>
  (fixed.resolver h entry present).trans (fixed.lookup h).symm

/-- A principal the resolver returns is the one the database has for the request's key. -/
theorem FixedAccounts.resolved {db : ControlDb} {g : Gateway} {now : ℚ} {secret : Option String}
    {p : Principal}
    (fixed : FixedAccounts settings db g)
    (found : (resolve settings rt g.db g.resolver now secret).1 = some p) :
    ∃ s, secret = some s ∧ looksLikeKey s = true ∧
      db.lookup settings (hashSecret rt s) = some p := by
  cases secret with
  | none => cases found
  | some s =>
    by_cases key : looksLikeKey s = true
    · rw [resolve_of_key fixed.resolverSound key, fixed.lookup] at found
      exact ⟨s, rfl, key, found⟩
    · simp [resolve, key] at found

variable (rt) in
theorem FixedAccounts.resolver' {db : ControlDb} {g : Gateway} (fixed : FixedAccounts settings db g)
    (now : ℚ)
    (secret : Option String) :
      (resolve settings rt g.db g.resolver now secret).2.Sound settings db :=
  fun h entry present => (resolve_sound fixed.resolverSound secret h entry present).trans
    (fixed.lookup h)

/-- Metering a request of one organisation leaves what the others have spent. -/
theorem Sound.spent_record {db : ControlDb} {g : Gateway} {p : Principal} {key : ApiKey}
    {orgId day : String}
    {u : Metering.Usage} (sound : Sound settings db g)
    (present : db.apiKeys.get? p.keyId = some key)
    (own : key.orgId = p.orgId) (other : orgId ≠ p.orgId) :
    Metering.spent (Metering.record g.db p.orgId p.keyId day u) orgId =
      Metering.spent g.db orgId := by
  have old : ∀ row, g.db.usageDaily.get? (p.keyId, day) = some row → row.orgId = p.orgId := by
    intro row found
    obtain ⟨key', present', same⟩ := sound.rows _ row found
    obtain rfl := Option.some.inj (present.symm.trans present')
    exact same.trans own
  have notOther : ∀ row : UsageDaily, row.orgId = p.orgId → (row.orgId == orgId) = false := by
    intro row same
    simpa [same] using fun e => other e.symm
  refine congrArg (fun rows : List UsageDaily => (rows.map UsageDaily.dexaUsd).sum)
    (Dict.filter_values_set ?_ ?_)
  · exact fun row found => notOther row (old row found)
  · apply notOther
    cases found : g.db.usageDaily.get? (p.keyId, day) with
    | none => rfl
    | some row => exact old row found

theorem Sound.quotaOk_record {db : ControlDb} {g : Gateway} {p : Principal} {key : ApiKey}
    {orgId day : String}
    {u : Metering.Usage} (sound : Sound settings db g)
    (present : db.apiKeys.get? p.keyId = some key)
    (own : key.orgId = p.orgId) (other : orgId ≠ p.orgId) :
    Metering.quotaOk (Metering.record g.db p.orgId p.keyId day u) orgId =
      Metering.quotaOk g.db orgId := by
  have granted : Metering.granted (Metering.record g.db p.orgId p.keyId day u) orgId =
    Metering.granted g.db orgId := rfl
  rw [Metering.quotaOk, Metering.quotaOk, Metering.remainingCredit, Metering.remainingCredit,
    granted,
    sound.spent_record present own other]

variable (rt) in
/-- A request is turned away, with nothing but the resolver's cache changed, or it is
    served for the principal of its key. -/
theorem chatCompletions_cases {db : ControlDb} {g : Gateway} (fixed : FixedAccounts settings db g)
    (req : Request) (io : Outside) :
    let resolver := (resolve settings rt g.db g.resolver io.now (bearer req)).2
    ((g.chatCompletions settings rt req io).1.response.fromCache = none ∧
        (g.chatCompletions settings rt req io).2 = { g with resolver }) ∨
      ∃ secret p, bearer req = some secret ∧ looksLikeKey secret = true ∧
        db.lookup settings (hashSecret rt secret) = some p ∧ Metering.quotaOk g.db p.orgId = true ∧
        g.chatCompletions settings rt req io = serve rt { g with resolver } p req io := by
  intro resolver
  cases found : (resolve settings rt g.db g.resolver io.now (bearer req)).1 with
  | none => exact .inl (by simp [chatCompletions, found, resolver, Response.invalidKey,
      Response.fromCache])
  | some p =>
    cases credit : Metering.quotaOk g.db p.orgId with
    | false =>
      exact .inl
        (by simp [chatCompletions, found, credit, resolver, Response.insufficientQuota,
        Response.fromCache])
    | true =>
      obtain ⟨secret, presented, key, looked⟩ := fixed.resolved found
      exact .inr ⟨secret, p, presented, key, looked, credit,
        by simp [chatCompletions, found, credit, resolver]⟩

variable (rt) in
theorem FixedAccounts.chatCompletions {db : ControlDb} {g : Gateway}
    (fixed : FixedAccounts settings db g) (req : Request)
    (io : Outside) : FixedAccounts settings db (g.chatCompletions settings rt req io).2 := by
  have resolver := fixed.resolver' rt io.now (bearer req)
  rcases chatCompletions_cases rt fixed req io with ⟨-, turnedAway⟩ | ⟨secret, p, -,
    -, -, -, served⟩
  · rw [turnedAway]
    exact { fixed with resolver := resolver }
  · rw [served]
    obtain ⟨sameResolver, sameDb | ⟨u, metered⟩⟩ := serve_db rt
      { g with resolver := (resolve settings rt g.db g.resolver io.now (bearer req)).2 } p req io
    · refine ⟨?_, ?_, ?_, sameResolver ▸ resolver⟩
      all_goals rw [sameDb]
      exacts [fixed.orgs, fixed.apiKeys, fixed.ledger]
    · refine ⟨?_, ?_, ?_, sameResolver ▸ resolver⟩
      all_goals rw [metered]
      exacts [fixed.orgs, fixed.apiKeys, fixed.ledger]

theorem Sound.chatCompletions {db : ControlDb} {g : Gateway} (provisioned : db.Provisioned)
    (sound : Sound settings db g)
    (req : Request) (io : Outside) :
      Sound settings db (g.chatCompletions settings rt req io).2 := by
  have fixed := sound.toFixedAccounts.chatCompletions rt req io
  refine ⟨fixed, ?_, ?_⟩
  all_goals
    rcases chatCompletions_cases rt sound.toFixedAccounts req io with
      ⟨-, turnedAway⟩ | ⟨secret, p, -, -, looked, credit, served⟩
  · rw [turnedAway]
    exact sound.rows
  · obtain ⟨key, org, -, own, present, -⟩ := ControlDb.lookup_principal provisioned looked
    rw [served]
    rcases (serve_db rt { g with resolver := (resolve settings rt g.db g.resolver io.now (bearer req)).2 } p req io).2
      with sameDb | ⟨u, metered⟩
    · rw [sameDb]
      exact sound.rows
    · rw [metered]
      refine Dict.forall_get?_set sound.rows ⟨key, present, ?_⟩
      cases found : g.db.usageDaily.get? (p.keyId, io.today) with
      | none => exact own.symm
      | some row =>
        obtain ⟨key', present', same⟩ := sound.rows _ row found
        obtain rfl := Option.some.inj (present.symm.trans present')
        exact same
  · rw [turnedAway]
    exact sound.exhausted
  · obtain ⟨key, org, -, own, present, -⟩ := ControlDb.lookup_principal provisioned looked
    rw [served]
    intro orgId none
    rcases (serve_db rt { g with resolver := (resolve settings rt g.db g.resolver io.now (bearer req)).2 } p req io).2
      with sameDb | ⟨u, metered⟩
    · rw [sameDb]
      exact sound.exhausted orgId none
    · rw [metered]
      have other : orgId ≠ p.orgId := by
        rintro rfl
        rw [sound.exhausted _ none] at credit
        cases credit
      exact (sound.quotaOk_record present own other).trans (sound.exhausted orgId none)

/-- A request with an active key of an organisation with credit is served. -/
theorem FixedAccounts.served {db : ControlDb} {g : Gateway} {req : Request} {secret : String}
    {p : Principal}
    (fixed : FixedAccounts settings db g) (presented : bearer req = some secret)
    (key : looksLikeKey secret = true)
    (looked : db.lookup settings (hashSecret rt secret) = some p)
    (credit : Metering.quotaOk g.db p.orgId = true)
    (io : Outside) :
    g.chatCompletions settings rt req io =
      serve rt { g with resolver := (resolve settings rt g.db g.resolver io.now (bearer req)).2 } p req io := by
  have found : (resolve settings rt g.db g.resolver io.now (bearer req)).1 = some p := by
    rw [presented, resolve_of_key fixed.resolverSound key, fixed.lookup, looked]
  simp [Gateway.chatCompletions, found, credit]

/-- Who is served has an active key and started with credit. -/
theorem Sound.admitted {db : ControlDb} {g : Gateway} {secret : String} {p : Principal}
    (sound : Sound settings db g)
    (key : looksLikeKey secret = true) (looked : db.lookup settings (hashSecret rt secret) = some p)
    (credit : Metering.quotaOk g.db p.orgId = true) : db.Admitted settings rt p.orgId := by
  refine ⟨⟨secret, p, key, looked, rfl⟩, ?_⟩
  cases start : Metering.quotaOk db p.orgId with
  | true => rfl
  | false =>
    rw [sound.exhausted _ start] at credit
    cases credit

/-! ## Deleting an organisation's requests

  The view of an organisation: the resolver entries and usage rows of its keys, and the
  sessions in `sessions`. -/

variable {db : ControlDb} {sessions : String → Bool} {a b : String}

def viewOf (db : ControlDb) (orgId : String) (sessions : String → Bool) : View where
  keyHash h := (db.findKey h).map ApiKey.orgId == some orgId
  session := sessions
  keyId id := (db.apiKeys.get? id).map ApiKey.orgId == some orgId

theorem keyHash_viewOf {req : Request} {secret : String} (owner : db.ownerOf rt req = some a)
    (presented : bearer req = some secret) :
    (viewOf db b sessions).keyHash (hashSecret rt secret) = (some a == some b) := by
  have same : (db.findKey (hashSecret rt secret)).map ApiKey.orgId = some a := by
    simpa [ControlDb.ownerOf, presented] using owner
  exact congrArg (· == some b) same

variable (sessions b) in
/-- The principal of a request by a key of `a`. -/
theorem principal_of_owner {req : Request} {secret : String} {p : Principal} {org : Org}
    (provisioned : db.Provisioned)
    (present : db.orgs.get? a = some org) (owner : db.ownerOf rt req = some a)
    (presented : bearer req = some secret)
    (looked : db.lookup settings (hashSecret rt secret) = some p) :
    p.orgId = a ∧ p.tenant.name = org.tenantName ∧
      (viewOf db b sessions).keyId p.keyId = (some a == some b) := by
  obtain ⟨key, org', keyFound, own, keyPresent, orgPresent, name⟩ :=
    ControlDb.lookup_principal provisioned looked
  have same : key.orgId = a := by simpa [ControlDb.ownerOf, presented, keyFound] using owner
  have isA : p.orgId = a := own.symm.trans same
  rw [isA] at orgPresent
  obtain rfl := Option.some.inj (present.symm.trans orgPresent)
  have ofA : (db.apiKeys.get? p.keyId).map ApiKey.orgId = some a := by
    rw [keyPresent, Option.map_some, same]
  exact ⟨isA, name, congrArg (· == some b) ofA⟩

/-- A request of one organisation leaves the credit of the others. -/
theorem quotaOk_other {g : Gateway} {org : Org} {req : Request} (provisioned : db.Provisioned)
    (sound : Sound settings db g) (present : db.orgs.get? a = some org) (distinct : a ≠ b)
    (owner : db.ownerOf rt req = some a) (io : Outside) :
    Metering.quotaOk (g.chatCompletions settings rt req io).2.db b = Metering.quotaOk g.db b := by
  rcases chatCompletions_cases rt sound.toFixedAccounts req io with ⟨-, turnedAway⟩ | ⟨secret, p,
    presented, -, looked, -, served⟩
  · rw [turnedAway]
  · obtain ⟨isA, -⟩ :=
      principal_of_owner (fun _ => true) b provisioned present owner presented looked
    obtain ⟨key, org', -, own, keyPresent, -⟩ := ControlDb.lookup_principal provisioned looked
    rw [served]
    rcases (serve_db rt { g with resolver := (resolve settings rt g.db g.resolver io.now (bearer req)).2 } p req io).2
      with sameDb | ⟨u, metered⟩
    · rw [sameDb]
    · rw [metered]
      exact sound.quotaOk_record keyPresent own fun same => distinct (isA.symm.trans same.symm)

/-- A request of another organisation that shares none of the sessions changes nothing in
    the view. -/
theorem restrict_hidden {g : Gateway} {org : Org} {req : Request} (provisioned : db.Provisioned)
    (sound : Sound settings db g) (present : db.orgs.get? a = some org) (distinct : a ≠ b)
    (owner : db.ownerOf rt req = some a)
    (separate : db.Admitted settings rt a → ∀ raw, sessions (sessionKey org.tenantName raw) = false)
    (io : Outside) :
    (g.chatCompletions settings rt req io).2.restrict (viewOf db b sessions) = g.restrict
      (viewOf db b sessions) := by
  have notB : (some a == some b) = false := by simpa using distinct
  have resolver : (resolve settings rt g.db g.resolver io.now (bearer req)).2.restrict
    (viewOf db b sessions).keyHash =
      g.resolver.restrict (viewOf db b sessions).keyHash :=
    resolve_outside (fun secret presented => (keyHash_viewOf owner presented).trans notB) g.resolver
  have lookedUp :
    ({ g with resolver := (resolve settings rt g.db g.resolver io.now (bearer req)).2 } : Gateway).restrict
      (viewOf db b sessions) = g.restrict (viewOf db b sessions) := by
    simp only [restrict, resolver]
  rcases chatCompletions_cases rt sound.toFixedAccounts req io with ⟨-, turnedAway⟩ | ⟨secret, p,
    presented, key, looked, credit, served⟩
  · rw [turnedAway]
    exact lookedUp
  · obtain ⟨isA, name, keyId⟩ :=
      principal_of_owner sessions b provisioned present owner presented looked
    have admitted : db.Admitted settings rt a := isA ▸ sound.admitted key looked credit
    rw [served]
    refine (serve_outside ?_ (keyId.trans notB) _ io).trans lookedUp
    exact fun raw => name.symm ▸ separate admitted raw

/-- The organisation's own requests run on the view. -/
theorem restrict_observed {g : Gateway} {org : Org} {req : Request} (provisioned : db.Provisioned)
    (sound : Sound settings db g) (present : db.orgs.get? b = some org)
    (owner : db.ownerOf rt req = some b)
    (own : db.Admitted settings rt b → ∀ raw, sessions (sessionKey org.tenantName raw) = true)
    (io : Outside) :
    (g.restrict (viewOf db b sessions)).chatCompletions settings rt req io =
      ((g.chatCompletions settings rt req io).1,
        (g.chatCompletions settings rt req io).2.restrict (viewOf db b sessions)) := by
  have isB : (some b == some b) = true := by simp
  have resolver : resolve settings rt (g.db.restrict (viewOf db b sessions))
        (g.resolver.restrict (viewOf db b sessions).keyHash) io.now (bearer req) =
      ((resolve settings rt g.db g.resolver io.now (bearer req)).1,
        (resolve settings rt g.db g.resolver io.now (bearer req)).2.restrict
          (viewOf db b sessions).keyHash) :=
    resolve_inside (fun secret presented => (keyHash_viewOf owner presented).trans isB) g.resolver
  have spent : Metering.spent (g.db.restrict (viewOf db b sessions)) b = Metering.spent g.db b := by
    refine congrArg (fun rows : List UsageDaily => (rows.map UsageDaily.dexaUsd).sum)
      (Dict.filter_values_restrict ?_)
    intro k row found ofB
    obtain ⟨key, keyPresent, same⟩ := sound.rows k row found
    simp only [View.row, viewOf, keyPresent, Option.map_some, ← same, beq_iff_eq.1 ofB, isB]
  have credit : Metering.quotaOk (g.db.restrict (viewOf db b sessions)) b =
    Metering.quotaOk g.db b := by
    have granted : Metering.granted (g.db.restrict (viewOf db b sessions)) b =
      Metering.granted g.db b := rfl
    rw [Metering.quotaOk, Metering.quotaOk, Metering.remainingCredit, Metering.remainingCredit,
      granted, spent]
  simp only [chatCompletions, restrict, resolver]
  cases found : (resolve settings rt g.db g.resolver io.now (bearer req)).1 with
  | none => rfl
  | some p =>
    obtain ⟨secret, presented, key, looked⟩ := sound.resolved found
    obtain ⟨rfl, name, keyId⟩ :=
      principal_of_owner sessions b provisioned present owner presented looked
    simp only [credit]
    cases ok : Metering.quotaOk g.db p.orgId with
    | false => rfl
    | true =>
      have sessions_own := own (sound.admitted key looked ok)
      exact serve_inside (fun raw => name.symm ▸ sessions_own raw) (keyId.trans isB)
        { g with resolver := (resolve settings rt g.db g.resolver io.now (bearer req)).2 } io

end Gateway

/-! ## Two runs -/

/-- Two organisations whose names give some session id of each the same key. -/
def SessionsCollide (org org' : Org) : Prop :=
  ∃ raw raw', sessionKey org.tenantName raw = sessionKey org'.tenantName raw'

/-- Deleting the requests of `a` from any run of requests by keys of `a` and `b` leaves
    every response to `b`, and what is forwarded for it, as it was. -/
def Isolated (settings : Settings) (rt : Runtime) (db : ControlDb) (a b : String) : Prop :=
  ∀ requests : List (Request × Outside),
    (∀ e ∈ requests, db.ownerOf rt e.1 = some a ∨ db.ownerOf rt e.1 = some b) →
    ((gateway settings rt).trace { db } requests).filter (fun e => db.ownerOf rt e.1.1 = some b) =
      ((gateway settings rt).trace { db }
        (requests.filter fun e => ¬ db.ownerOf rt e.1 = some a)).filter
        (fun e => db.ownerOf rt e.1.1 = some b)

section Isolation

variable {settings : Settings} {rt : Runtime} {db : ControlDb} {a b : String} {orgA orgB : Org}

/-- Isolation from a choice of sessions that `b`'s requests stay within and `a`'s stay out of. -/
theorem isolated_of_sessions (provisioned : db.Provisioned) (presentA : db.orgs.get? a = some orgA)
    (presentB : db.orgs.get? b = some orgB) (distinct : a ≠ b) (sessions : String → Bool)
    (separate : db.Admitted settings rt a →
      ∀ raw, sessions (sessionKey orgA.tenantName raw) = false)
    (own : db.Admitted settings rt b → ∀ raw, sessions (sessionKey orgB.tenantName raw) = true) :
    Isolated settings rt db a b := by
  intro requests byKeys
  let view := Gateway.viewOf db b sessions
  let R (s t : Gateway) : Prop := s.Sound settings db ∧ t.Sound settings db ∧
    s.restrict view = t.restrict view
  have ownRun : ∀ (g : Gateway) (e : Request × Outside), g.Sound settings db →
    db.ownerOf rt e.1 = some b →
      (g.restrict view).chatCompletions settings rt e.1 e.2 =
        ((g.chatCompletions settings rt e.1 e.2).1,
          (g.chatCompletions settings rt e.1 e.2).2.restrict view) :=
    fun g e sound owner => Gateway.restrict_observed provisioned sound presentB owner own e.2
  refine Machine.trace_purge (gateway settings rt) R (fun e => db.ownerOf rt e.1 = some a)
    (fun e => db.ownerOf rt e.1 = some b)
    (fun e => db.ownerOf rt e.1 = some a ∨ db.ownerOf rt e.1 = some b)
    ?disjoint ?drop ?lockstep ?agree
    ⟨Gateway.sound_start provisioned, Gateway.sound_start provisioned, rfl⟩ requests byKeys
  case disjoint =>
    intro e ofB ofA
    exact distinct (Option.some.inj (ofA.symm.trans ofB))
  case drop =>
    intro s t e related _ ofA
    obtain ⟨soundS, soundT, same⟩ := related
    refine ⟨soundS.chatCompletions provisioned e.1 e.2, soundT, ?_⟩
    exact (Gateway.restrict_hidden provisioned soundS presentA distinct ofA separate e.2).trans same
  case lockstep =>
    intro s t e related scope notA
    obtain ⟨soundS, soundT, same⟩ := related
    have ofB := scope.resolve_left notA
    refine ⟨soundS.chatCompletions provisioned e.1 e.2, soundT.chatCompletions provisioned e.1 e.2,
      ?_⟩
    have runs := (ownRun s e soundS ofB).symm.trans (same ▸ ownRun t e soundT ofB)
    exact (Prod.mk.inj runs).2
  case agree =>
    intro s t e related _ ofB
    obtain ⟨soundS, soundT, same⟩ := related
    have runs := (ownRun s e soundS ofB).symm.trans (same ▸ ownRun t e soundT ofB)
    exact (Prod.mk.inj runs).1

end Isolation

end Dexa.Platform
