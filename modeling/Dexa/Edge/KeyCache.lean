import Dexa.Edge.Worker
import Dexa.Lib.Lists
import Dexa.Platform.ResolverRaces

/-! # Concurrent key lookups at the edge (`edge/src/keys.ts`)

A call of `resolveKey` reads the key-value store, reads the database on a miss and puts what
it found, and other calls and the control plane run between these steps.  An entry lives for
a lifetime from the put, so what the database answered before a key was revoked, or before
it was created, can be served for a lifetime and the time the put was late.
-/

namespace Dexa.Edge

open Dexa.Lib
open Dexa.Platform (ControlDb ControlOp Runtime Settings controlStep looksLikeKey)

/-- `Math.max(30, Number(env.KEY_CACHE_TTL_SECONDS) || 30)`. -/
def keyTtl (configured : Number) : ℚ := max 30 ((configured.filter (· ≠ 0)).getD 30)

/-- How far a call has come, and what it has read. -/
inductive LookupPhase where
  | started
  | missed
  | lookedUp (tenant : Option Tenant)
  | returned (tenant : Option Tenant)
  deriving DecidableEq

structure LookupCall where
  keyHash : String
  startedAt : ℚ
  /-- what the database answers when the call starts -/
  known : Option Tenant
  phase : LookupPhase
  deriving DecidableEq

/-- The key-value store, with the end of each entry, the database, and the clock. -/
structure KeyCache where
  db : ControlDb := {}
  kv : Dict String (ℚ × Option Tenant) := Dict.empty
  clock : ℚ
  calls : List LookupCall := []

inductive KeyEvent where
  /-- time passes -/
  | tick (reading : ℚ)
  | begin (secret : Option String)
  /-- the call at this index makes its next step -/
  | proceed (i : Nat)
  | control (op : ControlOp)

section Steps

variable (env : Env) (js : JsRuntime) (ttl : ℚ) (settings : Settings) (rt : Runtime)

namespace KeyCache

/-- The call as it starts. -/
def newCall (s : KeyCache) (secret : Option String) : LookupCall :=
  match secret.filter (looksLikeKey ·) with
  | none => { keyHash := "", startedAt := s.clock, known := none, phase := .returned none }
  | some secret =>
    { keyHash := js.sha256Hex secret, startedAt := s.clock, known := lookupKey env s.db (js.sha256Hex secret), phase := .started }

/-- `env.KEYS.get`: an entry is gone from its end on. -/
def get (s : KeyCache) (hash : String) : Option (Option Tenant) :=
  ((s.kv.get? hash).filter fun entry => s.clock < entry.1).map Prod.snd

/-- The next step of a call. -/
def callStep (s : KeyCache) (c : LookupCall) : LookupPhase × Dict String (ℚ × Option Tenant) :=
  match c.phase with
  | .started =>
    match s.get c.keyHash with
    | some cached => (.returned cached, s.kv)
    | none => (.missed, s.kv)
  | .missed => (.lookedUp (lookupKey env s.db c.keyHash), s.kv)
  | .lookedUp tenant => (.returned tenant, s.kv.set c.keyHash (s.clock + ttl, tenant))
  | .returned tenant => (.returned tenant, s.kv)

def proceed (s : KeyCache) (i : Nat) : KeyCache :=
  match s.calls[i]? with
  | none => s
  | some c => { s with calls := s.calls.set i { c with phase := (s.callStep env ttl c).1 }, kv := (s.callStep env ttl c).2 }

def step (s : KeyCache) : KeyEvent → Unit × KeyCache
  | .tick reading => ((), { s with clock := max s.clock reading })
  | .begin secret => ((), { s with calls := s.calls ++ [s.newCall env js secret] })
  | .proceed i => ((), s.proceed env ttl i)
  | .control op => ((), { s with db := (controlStep settings rt s.db op).2 })

end KeyCache

def keyCache : Machine KeyCache KeyEvent Unit := ⟨KeyCache.step env js ttl settings rt⟩

end Steps

section Conditions

variable (env : Env)

/-- A put stores what the database still answers. -/
def KeyCache.current (s : KeyCache) : KeyEvent → Bool
  | .proceed i =>
    match s.calls[i]? with
    | some { phase := .lookedUp tenant, keyHash, .. } => lookupKey env s.db keyHash = tenant
    | _ => true
  | _ => true

/-- A call that the database had an answer for at its start reads the store and the database while
    it still is the answer. -/
def KeyCache.steady (s : KeyCache) : KeyEvent → Bool
  | .proceed i =>
    match s.calls[i]? with
    | some { phase := .started, keyHash, known, .. } | some { phase := .missed, keyHash, known, .. } =>
      known = none ∨ lookupKey env s.db keyHash = known
    | _ => true
  | _ => true

end Conditions

/-! ## Keys that stay -/

section Rows

open Platform

variable {rt : Runtime} {settings : Settings} {env : Env} {db : ControlDb} {hash : String}

/-- The database answers the tenant, or its key is revoked. -/
def Held (env : Env) (db : ControlDb) (hash : String) (tenant : Tenant) : Prop :=
  lookupKey env db hash = some tenant ∨ db.Revoked tenant.keyId

theorem lookupKey_eq_some {tenant : Tenant} : lookupKey env db hash = some tenant ↔
    ∃ key org, db.findKey hash = some key ∧ key.revokedAt = none ∧
      db.orgs.get? key.orgId = some org ∧
      tenantOf env org key.id = tenant := by
  rw [lookupKey]
  cases row : db.findKey hash with
  | none => simp
  | some key =>
    by_cases live : key.revokedAt = none
    · simp [live]
    · simp [live]

/-- A lookup never answers the tenant of a revoked key. -/
theorem lookupKey_ne_of_revoked {tenant : Tenant} (provisioned : db.Provisioned)
    (revoked : db.Revoked tenant.keyId) :
    lookupKey env db hash ≠ some tenant := by
  intro found
  obtain ⟨key, org, row, live, -, rfl⟩ := lookupKey_eq_some.1 found
  obtain ⟨key', present, stamped⟩ := revoked
  obtain ⟨id, stored⟩ := Dict.mem_values_iff.1 (List.mem_of_find?_eq_some row)
  change db.apiKeys.get? key.id = some key' at present
  rw [provisioned.keyIds id key stored, stored] at present
  obtain rfl := Option.some.inj present
  exact stamped live

theorem findKey_of_mintKey {db' : ControlDb} {orgId name mode keyId token : String}
    {newKey : NewKey} {key : ApiKey}
    (minted : mintKey rt db orgId name mode keyId token = some (db', newKey))
    (row : db.findKey hash = some key) :
    db'.findKey hash = some key ∧ db'.orgs = db.orgs := by
  obtain ⟨absent, rfl, -⟩ := mintKey_eq_some minted
  refine ⟨Dict.find?_values_set row fun old present => ?_, rfl⟩
  rw [absent] at present
  cases present

/-- Revoking a key leaves the others as they are. -/
theorem Held.stamp {tenant : Tenant} {keyId : String} {key : ApiKey} {now : Nat}
    (held : Held env db hash tenant)
    (provisioned : db.Provisioned) (present : db.apiKeys.get? keyId = some key) :
    Held env { db with apiKeys := db.apiKeys.set keyId { key with revokedAt := some now } } hash tenant := by
  cases held with
  | inr revoked => exact .inr (revoked.stamp keyId key now)
  | inl answered =>
    obtain ⟨row, org, found, live, owner, rfl⟩ := lookupKey_eq_some.1 answered
    have own := provisioned.keyIds keyId key present
    by_cases same : row.id = keyId
    · refine .inr ?_
      change ControlDb.Revoked _ row.id
      rw [same]
      exact ⟨_, Dict.get?_set_self .., Option.some_ne_none now⟩
    · refine .inl
        (lookupKey_eq_some.2 ⟨row, org, Dict.find?_values_set found fun old stored => ?_,
        live, owner, rfl⟩)
      obtain rfl := Option.some.inj (present.symm.trans stored)
      exact ⟨fun eq => same (eq ▸ own), rfl⟩

theorem Held.mintKey {tenant : Tenant} {db' : ControlDb} {orgId name mode keyId token : String}
    {newKey : NewKey}
    (held : Held env db hash tenant)
    (minted : mintKey rt db orgId name mode keyId token = some (db', newKey)) :
    Held env db' hash tenant := by
  cases held with
  | inr revoked => exact .inr (revoked.mintKey minted)
  | inl answered =>
    obtain ⟨row, org, found, live, owner, rfl⟩ := lookupKey_eq_some.1 answered
    obtain ⟨kept, orgs⟩ := findKey_of_mintKey minted found
    exact .inl (lookupKey_eq_some.2 ⟨row, org, kept, live, orgs ▸ owner, rfl⟩)

/-- Opening an organisation leaves the others as they are. -/
theorem Held.addOrg {tenant : Tenant} {orgId : String} {org : Org}
    {users : Dict (String × String) User} {ledger : List CreditLedger}
    (held : Held env db hash tenant) (new : db.orgs.contains orgId = false) :
    Held env { db with orgs := db.orgs.set orgId org, users := users, creditLedger := ledger } hash tenant := by
  cases held with
  | inr revoked => exact .inr revoked
  | inl answered =>
    obtain ⟨row, owner, found, live, present, rfl⟩ := lookupKey_eq_some.1 answered
    have other : orgId ≠ row.orgId := by
      intro same
      rw [same, Dict.contains, present] at new
      cases new
    exact .inl
      (lookupKey_eq_some.2 ⟨row, owner, found, live, (Dict.get?_set_ne _ _ other).trans present,
      rfl⟩)

theorem Held.controlStep {tenant : Tenant} (held : Held env db hash tenant)
    (provisioned : db.Provisioned) (op : ControlOp) :
    Held env (controlStep settings rt db op).2 hash tenant := by
  cases op with
  | signup provider subject email orgName fresh =>
    simp only [Platform.controlStep]
    cases signed : signupOauth settings rt db provider subject email orgName fresh with
    | none => exact held
    | some result =>
      rw [signupOauth] at signed
      cases known : db.users.get? (provider, subject) with
      | some existing =>
        rw [known] at signed
        obtain rfl := Option.some.inj signed
        exact held
      | none =>
        simp only [known] at signed
        split at signed
        · cases signed
        · next free =>
          obtain ⟨minted, created, rfl⟩ := Option.map_eq_some_iff.1 signed
          simp only [Bool.or_eq_true, not_or, Bool.not_eq_true] at free
          have kept : Held env minted.1 hash tenant := Held.mintKey (held.addOrg free.1) created
          exact kept
  | createKey orgId name mode keyId token =>
    simp only [Platform.controlStep]
    cases created : createKey rt db orgId name mode keyId token with
    | none => exact held
    | some result => exact held.mintKey created
  | revokeKey orgId keyId now =>
    simp only [Platform.controlStep, revokeKey]
    cases present : db.apiKeys.get? keyId with
    | none => exact held
    | some key =>
      simp only
      split
      · exact held
      · exact held.stamp provisioned present
  | rotateKey orgId keyId now newId token =>
    simp only [Platform.controlStep]
    cases rotated : rotateKey rt db orgId keyId now newId token with
    | none => exact held
    | some result =>
      rw [rotateKey] at rotated
      cases present : db.apiKeys.get? keyId with
      | none =>
        rw [present] at rotated
        obtain rfl := Option.some.inj rotated
        exact held
      | some key =>
        simp only [present] at rotated
        split at rotated
        · obtain rfl := Option.some.inj rotated
          exact held
        · obtain ⟨minted, created, rfl⟩ := Option.map_eq_some_iff.1 rotated
          exact (held.stamp provisioned present).mintKey created

end Rows

/-! ## The invariants of a run -/

section Runs

variable {env : Env} {js : JsRuntime} {ttl : ℚ} {settings : Settings} {rt : Runtime}

/-- No entry outlives a lifetime from now, and no call is from the future. -/
structure KeyCache.Timely (ttl : ℚ) (s : KeyCache) : Prop where
  entries : ∀ hash entry, s.kv.get? hash = some entry → entry.1 ≤ s.clock + ttl
  started : ∀ c ∈ s.calls, c.startedAt ≤ s.clock
  provisioned : s.db.Provisioned

/-- What a step of a call does. -/
inductive KeyCache.Proceeds (env : Env) (ttl : ℚ) (s : KeyCache) (i : Nat) : KeyCache → Prop where
  | idle : Proceeds env ttl s i s
  | hit (c : LookupCall) (entry : ℚ × Option Tenant) (found : s.calls[i]? = some c)
      (starts : c.phase = .started)
      (cached : s.kv.get? c.keyHash = some entry) (live : s.clock < entry.1) :
      Proceeds env ttl s i { s with calls := s.calls.set i { c with phase := .returned entry.2 } }
  | miss (c : LookupCall) (found : s.calls[i]? = some c) (starts : c.phase = .started) :
      Proceeds env ttl s i { s with calls := s.calls.set i { c with phase := .missed } }
  | read (c : LookupCall) (found : s.calls[i]? = some c) (misses : c.phase = .missed) :
      Proceeds env ttl s i { s with calls := s.calls.set i { c with phase := .lookedUp (lookupKey env s.db c.keyHash) } }
  | put (c : LookupCall) (tenant : Option Tenant) (found : s.calls[i]? = some c)
      (read : c.phase = .lookedUp tenant) :
      Proceeds env ttl s i
        { s with calls := s.calls.set i { c with phase := .returned tenant }, kv := s.kv.set c.keyHash (s.clock + ttl, tenant) }

theorem KeyCache.proceeds (env : Env) (ttl : ℚ) (s : KeyCache) (i : Nat) :
    s.Proceeds env ttl i (s.proceed env ttl i) := by
  rw [proceed]
  cases found : s.calls[i]? with
  | none => exact .idle
  | some c =>
    simp only [callStep]
    cases phase : c.phase with
    | started =>
      cases got : s.get c.keyHash with
      | none => exact .miss c found phase
      | some cached =>
        obtain ⟨entry, live, rfl⟩ := Option.map_eq_some_iff.1 got
        obtain ⟨stored, within⟩ := Option.filter_eq_some_iff.1 live
        exact .hit c entry found phase stored (by simpa using within)
    | missed => exact .read c found phase
    | lookedUp tenant => exact .put c tenant found phase
    | returned tenant =>
      have same : s.calls.set i { c with phase := .returned tenant } = s.calls := by
        obtain ⟨inside, rfl⟩ := List.getElem?_eq_some_iff.1 found
        rw [← phase]
        exact List.set_getElem_self inside
      rw [same]
      exact .idle

theorem KeyCache.startedAt_newCall (s : KeyCache) (secret : Option String) :
    (s.newCall env js secret).startedAt = s.clock := by
  rw [newCall]
  split <;> rfl

/-- A call starts without an answer, or it is not for a key. -/
theorem KeyCache.newCall_phase (s : KeyCache) (secret : Option String) :
    (s.newCall env js secret).phase = .started ∨
    (s.newCall env js secret).phase = .returned none ∧ (s.newCall env js secret).known = none := by
  rw [newCall]
  split
  · exact .inr ⟨rfl, rfl⟩
  · exact .inl rfl

theorem KeyCache.Timely.next {s : KeyCache} (timely : s.Timely ttl) (e : KeyEvent) :
    ((keyCache env js ttl settings rt).next s e).Timely ttl := by
  obtain ⟨entries, started, provisioned⟩ := timely
  cases e with
  | tick reading =>
    have passed : s.clock ≤ max s.clock reading := le_max_left ..
    have longer : s.clock + ttl ≤ max s.clock reading + ttl := by linarith
    exact ⟨fun hash entry found => (entries hash entry found).trans longer,
      fun c member => (started c member).trans passed,
      provisioned⟩
  | begin secret => exact ⟨entries, forall_mem_concat started (s.startedAt_newCall secret).le,
      provisioned⟩
  | proceed i =>
    change (s.proceed env ttl i).Timely ttl
    have moves := s.proceeds env ttl i
    generalize s.proceed env ttl i = s' at moves ⊢
    cases moves with
    | idle => exact ⟨entries, started, provisioned⟩
    | hit c entry found => exact ⟨entries,
        forall_mem_set started (started c (List.mem_of_getElem? found)), provisioned⟩
    | miss c found => exact ⟨entries,
        forall_mem_set started (started c (List.mem_of_getElem? found)), provisioned⟩
    | read c found => exact ⟨entries,
        forall_mem_set started (started c (List.mem_of_getElem? found)), provisioned⟩
    | put c tenant found =>
      exact ⟨Dict.forall_get?_set entries (le_refl _),
        forall_mem_set started (started c (List.mem_of_getElem? found)), provisioned⟩
  | control op => exact ⟨entries, started, provisioned.controlStep settings rt op⟩

/-- A revoked key, and what remains of it in the store and in the calls. -/
structure KeyCache.Expires (ttl revokedAt : ℚ) (keyId : String) (s : KeyCache) : Prop where
  timely : s.Timely ttl
  revoked : s.db.Revoked keyId
  passed : revokedAt ≤ s.clock
  entries : ∀ hash entry, s.kv.get? hash = some entry → ∀ t ∈ entry.2, t.keyId = keyId →
    entry.1 ≤ revokedAt + ttl
  calls : ∀ c ∈ s.calls, ∀ t, c.phase = .returned (some t) → t.keyId = keyId →
    c.startedAt < revokedAt + ttl

theorem KeyCache.Expires.next {revokedAt : ℚ} {keyId : String} {s : KeyCache}
    (expires : s.Expires ttl revokedAt keyId)
    {e : KeyEvent} (current : s.current env e = true) :
    ((keyCache env js ttl settings rt).next s e).Expires ttl revokedAt keyId := by
  have timely' : ((keyCache env js ttl settings rt).next s e).Timely ttl := expires.timely.next e
  obtain ⟨timely, revoked, passed, entries, calls⟩ := expires
  cases e with
  | tick reading => exact ⟨timely', revoked, passed.trans (le_max_left ..), entries, calls⟩
  | begin secret =>
    refine ⟨timely', revoked, passed, entries, forall_mem_concat calls fun t returned => ?_⟩
    rcases s.newCall_phase secret with starts | ⟨nothing, -⟩
    · cases starts.symm.trans returned
    · cases nothing.symm.trans returned
  | proceed i =>
    change (s.proceed env ttl i).Timely ttl at timely'
    change (s.proceed env ttl i).Expires ttl revokedAt keyId
    have moves := s.proceeds env ttl i
    generalize s.proceed env ttl i = s' at timely' moves ⊢
    cases moves with
    | idle => exact ⟨timely', revoked, passed, entries, calls⟩
    | hit c entry found starts cached live =>
      -- the entry is live at a clock that is not before the start of the call
      refine ⟨timely', revoked, passed, entries, forall_mem_set calls fun t returned own => ?_⟩
      have started := timely.started c (List.mem_of_getElem? found)
      have ends := entries c.keyHash entry cached t (LookupPhase.returned.inj returned) own
      exact lt_of_le_of_lt started (live.trans_le ends)
    | miss c found => exact ⟨timely', revoked, passed, entries, forall_mem_set calls nofun⟩
    | read c found => exact ⟨timely', revoked, passed, entries, forall_mem_set calls nofun⟩
    | put c tenant found read =>
      -- the database still answers this, and it never answers a revoked key
      have answers : lookupKey env s.db c.keyHash = tenant := by
        obtain ⟨keyHash, startedAt, known, phase⟩ := c
        obtain rfl := read
        simpa [KeyCache.current, found] using current
      have other : ∀ t ∈ tenant, t.keyId ≠ keyId := by
        rintro t member rfl
        exact lookupKey_ne_of_revoked timely.provisioned revoked (answers.trans member)
      refine ⟨timely', revoked, passed, Dict.forall_get?_set entries
        fun t member own => absurd own (other t member),
        forall_mem_set calls fun t returned own => ?_⟩
      exact absurd own (other t (LookupPhase.returned.inj returned))
  | control op => exact ⟨timely', revoked.controlStep settings rt op, passed, entries, calls⟩

/-- A tenant that the database answers until its key is revoked, and what the store and the
    calls hold of its hash. -/
structure KeyCache.Answers (env : Env) (ttl knownAt : ℚ) (hash : String) (tenant : Tenant)
    (s : KeyCache) : Prop where
  timely : s.Timely ttl
  held : Held env s.db hash tenant
  entries : ∀ entry, s.kv.get? hash = some entry →
    entry.2 = some tenant ∨ entry.1 ≤ knownAt + ttl ∨ s.db.Revoked tenant.keyId
  calls : ∀ c ∈ s.calls, c.keyHash = hash → knownAt + ttl ≤ c.startedAt → c.known = some tenant →
    ∀ answer, c.phase = .lookedUp answer ∨ c.phase = .returned answer → answer = some tenant

theorem KeyCache.Answers.next {knownAt : ℚ} {hash : String} {tenant : Tenant} {s : KeyCache}
    (answers : s.Answers env ttl knownAt hash tenant) {e : KeyEvent}
    (current : s.current env e = true)
    (steady : s.steady env e = true) :
      ((keyCache env js ttl settings rt).next s e).Answers env ttl knownAt hash tenant := by
  have timely' : ((keyCache env js ttl settings rt).next s e).Timely ttl := answers.timely.next e
  obtain ⟨timely, held, entries, calls⟩ := answers
  cases e with
  | tick reading => exact ⟨timely', held, entries, calls⟩
  | begin secret =>
    refine ⟨timely', held, entries, forall_mem_concat calls fun _ _ known answer done => ?_⟩
    rcases s.newCall_phase secret with starts | ⟨-, nothing⟩
    · rw [starts] at done
      cases done <;> contradiction
    · cases nothing.symm.trans known
  | proceed i =>
    change (s.proceed env ttl i).Timely ttl at timely'
    change (s.proceed env ttl i).Answers env ttl knownAt hash tenant
    have moves := s.proceeds env ttl i
    generalize s.proceed env ttl i = s' at timely' moves ⊢
    cases moves with
    | idle => exact ⟨timely', held, entries, calls⟩
    | hit c entry found starts cached live =>
      refine ⟨timely', held, entries, forall_mem_set calls fun own late known answer done => ?_⟩
      have live' : lookupKey env s.db c.keyHash = some tenant := by
        obtain ⟨keyHash, startedAt, atStart, phase⟩ := c
        obtain rfl := starts
        obtain rfl : atStart = some tenant := known
        simpa [KeyCache.steady, found] using steady
      obtain rfl : entry.2 = answer := by
        cases done with
        | inl reads => cases reads
        | inr returns => exact LookupPhase.returned.inj returns
      -- an entry from before runs out before the call starts
      have started := timely.started c (List.mem_of_getElem? found)
      rcases entries entry (own ▸ cached) with same | ends | revoked
      · exact same
      · linarith
      · exact absurd live' (lookupKey_ne_of_revoked timely.provisioned revoked)
    | miss c found => exact ⟨timely', held, entries, forall_mem_set calls
        fun _ _ _ answer done => by cases done <;> contradiction⟩
    | read c found misses =>
      refine ⟨timely', held, entries, forall_mem_set calls fun own late known answer done => ?_⟩
      have live : lookupKey env s.db c.keyHash = some tenant := by
        obtain ⟨keyHash, startedAt, atStart, phase⟩ := c
        obtain rfl := misses
        obtain rfl : atStart = some tenant := known
        simpa [KeyCache.steady, found] using steady
      cases done with
      | inl reads => exact (LookupPhase.lookedUp.inj reads).symm.trans live
      | inr returns => cases returns
    | put c answer found read =>
      have answers : lookupKey env s.db c.keyHash = answer := by
        obtain ⟨keyHash, startedAt, known, phase⟩ := c
        obtain rfl := read
        simpa [KeyCache.current, found] using current
      refine ⟨timely', held, fun entry stored => ?_, forall_mem_set calls
        fun own late known answer' done => ?_⟩
      · by_cases own : c.keyHash = hash
        · subst own
          obtain rfl := Option.some.inj ((Dict.get?_set_self ..).symm.trans stored)
          cases held with
          | inl here => exact .inl (answers.symm.trans here)
          | inr revoked => exact .inr (.inr revoked)
        · exact entries entry ((Dict.get?_set_ne _ _ own).symm.trans stored)
      · cases done with
        | inl reads => cases reads
        | inr returns =>
          obtain rfl := LookupPhase.returned.inj returns
          exact calls c (List.mem_of_getElem? found) own late known answer (.inl read)
  | control op =>
    refine ⟨timely', held.controlStep timely.provisioned op, fun entry stored => ?_, calls⟩
    rcases entries entry stored with same | ends | revoked
    · exact .inl same
    · exact .inr (.inl ends)
    · exact .inr (.inr (revoked.controlStep settings rt op))

end Runs

/-! ## The bounds -/

theorem keyTtl_pos (configured : Number) : 0 < keyTtl configured :=
  lt_of_lt_of_le (by norm_num) (le_max_left 30 _)

section Bounds

variable (env : Env) (js : JsRuntime) (configured : Number) (settings : Settings) (rt : Runtime)
  (clock : ℚ)
  (before after : List KeyEvent)

/-- No call that starts a lifetime or more after a revocation returns a tenant for the key. -/
def RevocationBound : Prop :=
  let m := keyCache env js (keyTtl configured) settings rt
  let s := m.exec { clock } before
  ∀ keyId, s.db.Revoked keyId → ∀ c ∈ (m.exec s after).calls, ∀ t, c.phase = .returned (some t) →
    s.clock + keyTtl configured ≤ c.startedAt → t.keyId ≠ keyId

/-- A call that starts a lifetime or more after the database had a key, and before the key is
    revoked, returns its tenant. -/
def CreationBound : Prop :=
  let m := keyCache env js (keyTtl configured) settings rt
  let s := m.exec { clock } before
  ∀ hash tenant, lookupKey env s.db hash = some tenant → ∀ c ∈ (m.exec s after).calls,
    c.keyHash = hash →
    s.clock + keyTtl configured ≤ c.startedAt → c.known = some tenant →
      ∀ answer, c.phase = .returned answer →
      answer = some tenant

/-- The bound on revocations holds of every run whose puts store what the database still
    answers, and the bound on new keys if calls also read what it answered at their start. -/
theorem key_cache_bounds :
    ((keyCache env js (keyTtl configured) settings rt).Meets (fun s e => s.current env e = true)
        ((keyCache env js (keyTtl configured) settings rt).exec { clock } before) after →
        RevocationBound env js configured settings rt clock before after) ∧
      ((keyCache env js (keyTtl configured) settings rt).Meets (fun s e => s.current env e = true ∧
        s.steady env e = true)
        ((keyCache env js (keyTtl configured) settings rt).exec { clock } before) after →
        CreationBound env js configured settings rt clock before after) := by
  let m := keyCache env js (keyTtl configured) settings rt
  let s := m.exec { clock } before
  have positive := keyTtl_pos configured
  have start : ({ clock } : KeyCache).Timely (keyTtl configured) :=
    ⟨fun _ _ found => (by cases found), fun _ member => absurd member List.not_mem_nil,
      ControlDb.provisioned_empty⟩
  have timely : s.Timely (keyTtl configured) :=
    Machine.invariant_exec (fun _ e timely => timely.next e) start before
  constructor
  · intro current keyId revoked c member t returned late own
    have expires : s.Expires (keyTtl configured) s.clock keyId := by
      refine ⟨timely, revoked, le_refl _,
        fun hash entry found _ _ _ => timely.entries hash entry found, ?_⟩
      intro c member t _ _
      linarith [timely.started c member]
    have final : (m.exec s after).Expires (keyTtl configured) s.clock keyId :=
      Machine.Meets.invariant (fun _ _ expires current => expires.next current) expires current
    linarith [final.calls c member t returned own]
  · intro undisturbed hash tenant answered c member own late known answer returned
    have answers : s.Answers env (keyTtl configured) s.clock hash tenant := by
      refine ⟨timely, .inl answered,
        fun entry found => .inr (.inl (timely.entries hash entry found)), ?_⟩
      intro c member _ late _ _ _
      linarith [timely.started c member]
    have final : (m.exec s after).Answers env (keyTtl configured) s.clock hash tenant :=
      Machine.Meets.invariant
        (fun _ _ answers cond => answers.next cond.1 cond.2) answers undisturbed
    exact final.calls c member own late known answer (.inr returned)

end Bounds

def edgeJs : JsRuntime := ⟨fun s => String.ofList ('#' :: s.toList), fun _ => ""⟩

def sampleKey : KeyEvent := .control (.signup "github" "1" "" "" ⟨"org", "user", "key", "t"⟩)

def sampleTenant : Tenant :=
  { orgId := "org", keyId := "key", name := "workspace", mode := "hosted", backendUrl := "https://gpu",
    backendModel := "dexa-cua-vlm" }

/-- Calls that are over before the key is revoked keep both bounds. -/
theorem key_cache_bounds_promptPuts :
    RevocationBound sampleEnv edgeJs none {} Platform.plainRuntime 0
        [sampleKey, .begin (some "dexa_live_t"), .proceed 0, .proceed 0, .proceed 0,
          .control (.revokeKey "org" "key" 0)]
        [.begin (some "dexa_live_t"), .proceed 1, .tick 40, .begin (some "dexa_live_t"), .proceed 2,
          .proceed 2, .proceed 2] ∧
      CreationBound sampleEnv edgeJs none {} Platform.plainRuntime 0 [sampleKey]
        [.tick 40, .begin (some "dexa_live_t"), .proceed 0, .proceed 0, .proceed 0] :=
  ⟨(key_cache_bounds sampleEnv edgeJs none {} Platform.plainRuntime 0 _ _).1 (by decide +kernel),
    (key_cache_bounds sampleEnv edgeJs none {} Platform.plainRuntime 0 _ _).2 (by decide +kernel)⟩

/-- A tenant put after its key was revoked is served past the bound, and so is a miss put after
    the key was created. -/
theorem late_put_breaks_bounds :
    ¬ RevocationBound sampleEnv edgeJs none {} Platform.plainRuntime 0
        [sampleKey, .begin (some "dexa_live_t"), .proceed 0, .proceed 0,
          .control (.revokeKey "org" "key" 0)]
        [.tick 20, .proceed 0, .tick 40, .begin (some "dexa_live_t"), .proceed 1] ∧
      ¬ CreationBound sampleEnv edgeJs none {} Platform.plainRuntime 0
        [.begin (some "dexa_live_t"), .proceed 0, .proceed 0, sampleKey]
        [.tick 20, .proceed 0, .tick 40, .begin (some "dexa_live_t"), .proceed 1] := by
  constructor
  · intro bound
    -- the second call, at time 40, for the key revoked at time 0
    let call : LookupCall := ⟨"#dexa_live_t", 40, none, .returned (some sampleTenant)⟩
    exact bound "key" ⟨_, rfl, by decide +kernel⟩ call (by decide +kernel) sampleTenant rfl
      (by decide +kernel) rfl
  · intro bound
    let call : LookupCall := ⟨"#dexa_live_t", 40, some sampleTenant, .returned none⟩
    have answer :=
      bound "#dexa_live_t" sampleTenant (by decide +kernel) call (by decide +kernel) rfl
        (by decide +kernel) rfl none rfl
    cases answer

end Dexa.Edge
