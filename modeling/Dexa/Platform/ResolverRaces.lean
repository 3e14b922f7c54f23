import Dexa.Platform.SharedSession

/-! # Concurrent key lookups

A call of `KeyResolver.resolve` reads the cache, reads the clock, reads the database and
writes the cache, and other calls and the control plane run between these steps.  An entry is
stamped with the clock reading from before the database was read, so an entry for a key that
has been revoked since is older than the revocation and expires a lifetime after it.
-/

namespace Dexa.Platform

open Dexa.Lib

/-- How far a call has come, and the local variables it has set. -/
inductive ResolvePhase where
  | started
  | readCache (hit : Option (ℚ × Option Principal))
  | missed (now : ℚ)
  | lookedUp (now : ℚ) (principal : Option Principal)
  | returned (principal : Option Principal)

structure ResolveCall where
  keyHash : String
  startedAt : ℚ
  phase : ResolvePhase

/-- A resolver at work, the database behind it, and the monotonic clock. -/
structure ResolverRun where
  db : ControlDb := {}
  cache : ResolverCache := Dict.empty
  clock : ℚ
  calls : List ResolveCall := []

inductive ResolverEvent where
  /-- time passes -/
  | tick (reading : ℚ)
  | begin (secret : Option String)
  /-- the call at this index makes its next step -/
  | proceed (i : Nat)
  | control (op : ControlOp)

section Steps

variable (settings : Settings) (rt : Runtime)

/-- The call as it starts. -/
def newCall (clock : ℚ) (secret : Option String) : ResolveCall :=
  match secret.filter (looksLikeKey ·) with
  | none => { keyHash := "", startedAt := clock, phase := .returned none }
  | some secret => { keyHash := hashSecret rt secret, startedAt := clock, phase := .started }

/-- The next step of a call. -/
def callStep (db : ControlDb) (cache : ResolverCache) (clock : ℚ) (c : ResolveCall) :
    ResolvePhase × ResolverCache :=
  match c.phase with
  | .started => (.readCache (cache.get? c.keyHash), cache)
  | .readCache hit =>
    match hit.filter fun hit => hit.1 > clock with
    | some hit => (.returned hit.2, cache)
    | none => (.missed clock, cache)
  | .missed now => (.lookedUp now (db.lookup settings c.keyHash), cache)
  | .lookedUp now principal => (.returned principal,
      cache.set c.keyHash (now + settings.keyCacheTtl, principal))
  | .returned principal => (.returned principal, cache)

namespace ResolverRun

def proceed (s : ResolverRun) (i : Nat) : ResolverRun :=
  match s.calls[i]? with
  | none => s
  | some c =>
    let (phase, cache) := callStep settings s.db s.cache s.clock c
    { s with calls := s.calls.set i { c with phase }, cache }

def step (s : ResolverRun) : ResolverEvent → Unit × ResolverRun
  | .tick reading => ((), { s with clock := max s.clock reading })
  | .begin secret => ((), { s with calls := s.calls ++ [newCall rt s.clock secret] })
  | .proceed i => ((), s.proceed settings i)
  | .control op => ((), { s with db := (controlStep settings rt s.db op).2 })

end ResolverRun

def resolverRuns : Machine ResolverRun ResolverEvent Unit := ⟨ResolverRun.step settings rt⟩

theorem newCall_of_key {secret : String} (key : looksLikeKey secret = true) (clock : ℚ) :
    newCall rt clock (some secret) =
      { keyHash := hashSecret rt secret, startedAt := clock, phase := .started } := by
  simp [newCall, Option.filter, key]

/-- The four steps of a call with nothing in between are `resolve`. -/
theorem callStep_eq_resolve (db : ControlDb) (cache : ResolverCache) (clock : ℚ) {secret : String}
    (key : looksLikeKey secret = true) :
    let next := fun p : ResolveCall × ResolverCache =>
      ({ p.1 with phase := (callStep settings db p.2 clock p.1).1 },
        (callStep settings db p.2 clock p.1).2)
    let done := next (next (next (next (newCall rt clock (some secret), cache))))
    done.1.phase = .returned (resolve settings rt db cache clock (some secret)).1 ∧
      done.2 = (resolve settings rt db cache clock (some secret)).2 := by
  rw [newCall_of_key rt key]
  cases fresh : (cache.get? (hashSecret rt secret)).filter fun hit => hit.1 > clock with
  | none => simp [callStep, resolve, key, fresh]
  | some hit => simp [callStep, resolve, key, fresh]

end Steps

namespace ControlDb

def Revoked (db : ControlDb) (keyId : String) : Prop := ∃ key, db.apiKeys.get? keyId = some key ∧
    key.revokedAt ≠ none

/-- Minting leaves the keys there are. -/
theorem get?_of_mintKey {rt : Runtime} {db db' : ControlDb} {orgId name env keyId token : String}
    {newKey : NewKey}
    (minted : mintKey rt db orgId name env keyId token = some (db', newKey)) {id : String}
    {key : ApiKey}
    (present : db.apiKeys.get? id = some key) : db'.apiKeys.get? id = some key := by
  obtain ⟨absent, rfl, -⟩ := mintKey_eq_some minted
  have other : keyId ≠ id := by
    rintro rfl
    rw [absent] at present
    cases present
  exact (Dict.get?_set_ne _ _ other).trans present

theorem Revoked.mintKey {rt : Runtime} {db db' : ControlDb} {orgId name env keyId token : String}
    {newKey : NewKey} {id : String}
    (revoked : db.Revoked id)
    (minted : mintKey rt db orgId name env keyId token = some (db', newKey)) : db'.Revoked id := by
  obtain ⟨key, present, stamped⟩ := revoked
  exact ⟨key, get?_of_mintKey minted present, stamped⟩

/-- Stamping a key revokes it, and no other key changes. -/
theorem Revoked.stamp {db : ControlDb} {id : String} (revoked : db.Revoked id) (keyId : String)
    (key : ApiKey) (now : Nat) :
    ControlDb.Revoked { db with apiKeys := db.apiKeys.set keyId { key with revokedAt := some now } } id := by
  obtain ⟨key', present, stamped⟩ := revoked
  by_cases same : keyId = id
  · subst same
    exact ⟨_, Dict.get?_set_self .., Option.some_ne_none now⟩
  · exact ⟨key', (Dict.get?_set_ne _ _ same).trans present, stamped⟩

/-- A key stays revoked. -/
theorem Revoked.controlStep {db : ControlDb} {id : String} (revoked : db.Revoked id)
    (settings : Settings) (rt : Runtime)
    (op : ControlOp) : (controlStep settings rt db op).2.Revoked id := by
  cases op with
  | signup provider subject email orgName fresh =>
    simp only [Platform.controlStep]
    cases signed : signupOauth settings rt db provider subject email orgName fresh with
    | none => exact revoked
    | some result =>
      rw [signupOauth] at signed
      cases known : db.users.get? (provider, subject) with
      | some existing =>
        rw [known] at signed
        obtain rfl := Option.some.inj signed
        exact revoked
      | none =>
        simp only [known] at signed
        split at signed
        · cases signed
        · obtain ⟨minted, created, rfl⟩ := Option.map_eq_some_iff.1 signed
          obtain ⟨key, present, stamped⟩ := revoked
          exact ⟨key, get?_of_mintKey created present, stamped⟩
  | createKey orgId name env keyId token =>
    simp only [Platform.controlStep]
    cases created : createKey rt db orgId name env keyId token with
    | none => exact revoked
    | some result => exact revoked.mintKey created
  | revokeKey orgId keyId now =>
    simp only [Platform.controlStep, revokeKey]
    cases present : db.apiKeys.get? keyId with
    | none => exact revoked
    | some key =>
      simp only
      split
      · exact revoked
      · exact revoked.stamp keyId key now
  | rotateKey orgId keyId now newId token =>
    simp only [Platform.controlStep]
    cases rotated : rotateKey rt db orgId keyId now newId token with
    | none => exact revoked
    | some result =>
      rw [rotateKey] at rotated
      cases present : db.apiKeys.get? keyId with
      | none =>
        rw [present] at rotated
        obtain rfl := Option.some.inj rotated
        exact revoked
      | some key =>
        simp only [present] at rotated
        split at rotated
        · obtain rfl := Option.some.inj rotated
          exact revoked
        · obtain ⟨minted, created, rfl⟩ := Option.map_eq_some_iff.1 rotated
          exact (revoked.stamp keyId key now).mintKey created

/-- A lookup never finds a revoked key. -/
theorem Revoked.lookup_ne {db : ControlDb} {id : String} (revoked : db.Revoked id)
    (provisioned : db.Provisioned)
    {settings : Settings} {h : String} {p : Principal} (found : db.lookup settings h = some p) :
      p.keyId ≠ id := by
  rintro rfl
  obtain ⟨key, present, stamped⟩ := revoked
  rw [ControlDb.lookup] at found
  cases row : db.findKey h with
  | none =>
    rw [row] at found
    cases found
  | some key' =>
    simp only [row] at found
    split at found
    · cases found
    · next live =>
      obtain ⟨org, -, rfl⟩ := Option.map_eq_some_iff.1 found
      obtain ⟨id, stored⟩ := Dict.mem_values_iff.1 (List.mem_of_find?_eq_some row)
      have own := provisioned.keyIds id key' stored
      change db.apiKeys.get? key'.id = some key at present
      rw [own, stored] at present
      obtain rfl := Option.some.inj present
      exact stamped (not_not.1 live)

end ControlDb

/-! ## Clock readings -/

section Readings

variable {settings : Settings} {rt : Runtime}

/-- What a call remembers is from no later than now. -/
def ResolvePhase.Timely (ttl startedAt clock : ℚ) : ResolvePhase → Prop
  | .readCache hit => ∀ entry ∈ hit, entry.1 ≤ clock + ttl
  | .missed now | .lookedUp now _ => startedAt ≤ now ∧ now ≤ clock
  | .started | .returned _ => True

theorem ResolvePhase.Timely.later {ttl startedAt clock later : ℚ} {phase : ResolvePhase}
    (timely : phase.Timely ttl startedAt clock) (passed : clock ≤ later) :
      phase.Timely ttl startedAt later := by
  cases phase with
  | started => trivial
  | readCache hit => exact fun entry member => (timely entry member).trans (by linarith)
  | missed now => exact ⟨timely.1, timely.2.trans passed⟩
  | lookedUp now principal => exact ⟨timely.1, timely.2.trans passed⟩
  | returned principal => trivial

/-- No cache entry outlives a lifetime from now, and rows carry the id they are stored under. -/
structure ResolverRun.Timely (ttl : ℚ) (s : ResolverRun) : Prop where
  entries : ∀ h entry, s.cache.get? h = some entry → entry.1 ≤ s.clock + ttl
  calls : ∀ c ∈ s.calls, c.startedAt ≤ s.clock ∧ c.phase.Timely ttl c.startedAt s.clock
  provisioned : s.db.Provisioned

/-- One step of a call keeps the readings in order. -/
theorem callStep_timely (db : ControlDb) {cache : ResolverCache} {clock : ℚ} {c : ResolveCall}
    (entries : ∀ h entry, cache.get? h = some entry → entry.1 ≤ clock + settings.keyCacheTtl)
    (started : c.startedAt ≤ clock)
    (timely : c.phase.Timely settings.keyCacheTtl c.startedAt clock) :
    (callStep settings db cache clock c).1.Timely settings.keyCacheTtl c.startedAt clock ∧
      ∀ h entry, (callStep settings db cache clock c).2.get? h = some entry →
        entry.1 ≤ clock + settings.keyCacheTtl := by
  rw [callStep]
  cases phase : c.phase with
  | started => exact ⟨fun entry member => entries _ entry member, entries⟩
  | readCache hit =>
    simp only
    cases hit.filter fun hit => hit.1 > clock with
    | none => exact ⟨⟨started, le_refl _⟩, entries⟩
    | some hit => exact ⟨trivial, entries⟩
  | missed now =>
    rw [phase] at timely
    exact ⟨timely, entries⟩
  | lookedUp now principal =>
    rw [phase] at timely
    exact ⟨trivial, Dict.forall_get?_set entries (by linarith [timely.2])⟩
  | returned principal => exact ⟨trivial, entries⟩

theorem ResolverRun.Timely.next {s : ResolverRun} (timely : s.Timely settings.keyCacheTtl)
    (e : ResolverEvent) :
    ((resolverRuns settings rt).next s e).Timely settings.keyCacheTtl := by
  obtain ⟨entries, calls, provisioned⟩ := timely
  cases e with
  | tick reading =>
    have passed : s.clock ≤ max s.clock reading := le_max_left ..
    have longer : s.clock + settings.keyCacheTtl ≤ max s.clock reading + settings.keyCacheTtl := by
      linarith
    refine ⟨fun h entry found => (entries h entry found).trans longer, ?_, provisioned⟩
    intro c member
    exact ⟨(calls c member).1.trans passed, (calls c member).2.later passed⟩
  | begin secret =>
    refine ⟨entries, ?_, provisioned⟩
    intro c member
    cases List.mem_append.1 member with
    | inl old => exact calls c old
    | inr new =>
      obtain rfl := List.mem_singleton.1 new
      rw [newCall]
      split
      · exact ⟨le_refl _, trivial⟩
      · exact ⟨le_refl _, trivial⟩
  | proceed i =>
    change (s.proceed settings i).Timely _
    rw [ResolverRun.proceed]
    cases found : s.calls[i]? with
    | none => exact ⟨entries, calls, provisioned⟩
    | some c =>
      obtain ⟨started, phase⟩ := calls c (List.mem_of_getElem? found)
      obtain ⟨phase', entries'⟩ := callStep_timely s.db entries started phase
      refine ⟨entries', ?_, provisioned⟩
      intro c' member
      cases List.mem_or_eq_of_mem_set member with
      | inl old => exact calls c' old
      | inr moved =>
        subst moved
        exact ⟨started, phase'⟩
  | control op => exact ⟨entries, calls, provisioned.controlStep settings rt op⟩

end Readings

/-! ## After a revocation -/

section Revocation

variable {settings : Settings} {rt : Runtime}

/-- The entry is not one for the key that outlives a lifetime from `revokedAt`. -/
def EntryExpires (ttl revokedAt : ℚ) (keyId : String) (entry : ℚ × Option Principal) : Prop :=
  ∀ p ∈ entry.2, p.keyId = keyId → entry.1 ≤ revokedAt + ttl

/-- What a call may still hold of a key revoked at `revokedAt`; `old` tells the calls that were
    there at the time. -/
def ResolvePhase.Expires (ttl revokedAt startedAt : ℚ) (old : Prop) (keyId : String) :
    ResolvePhase → Prop
  | .started | .missed _ => True
  | .readCache hit => ∀ entry ∈ hit, EntryExpires ttl revokedAt keyId entry
  | .lookedUp now principal => ∀ p ∈ principal, p.keyId = keyId → now ≤ revokedAt ∧ old
  | .returned principal => ∀ p ∈ principal, p.keyId = keyId → revokedAt + ttl ≤ startedAt → old ∧ ttl ≤ 0

/-- The key is revoked, and what remains of it in the cache and in the calls runs out. -/
structure ResolverRun.Expires (ttl revokedAt : ℚ) (old : Nat) (keyId : String)
    (s : ResolverRun) : Prop where
  timely : s.Timely ttl
  revoked : s.db.Revoked keyId
  passed : revokedAt ≤ s.clock
  known : old ≤ s.calls.length
  entries : ∀ h entry, s.cache.get? h = some entry → EntryExpires ttl revokedAt keyId entry
  calls : ∀ (i : Nat) (c : ResolveCall), s.calls[i]? = some c →
    c.phase.Expires ttl revokedAt c.startedAt (i < old) keyId

/-- At the revocation every entry is at most a lifetime from running out. -/
theorem ResolverRun.Timely.expires {s : ResolverRun} {keyId : String}
    (timely : s.Timely settings.keyCacheTtl)
    (revoked : s.db.Revoked keyId) :
      s.Expires settings.keyCacheTtl s.clock s.calls.length keyId := by
  refine ⟨timely, revoked, le_refl _, le_refl _,
    fun h entry found p _ _ => timely.entries h entry found, ?_⟩
  intro i c found
  have old : i < s.calls.length := (List.getElem?_eq_some_iff.1 found).1
  obtain ⟨started, phase⟩ := timely.calls c (List.mem_of_getElem? found)
  cases holds : c.phase with
  | started => trivial
  | missed now => trivial
  | readCache hit =>
    rw [holds] at phase
    exact fun entry member p _ _ => phase entry member
  | lookedUp now principal =>
    rw [holds] at phase
    exact fun p _ _ => ⟨phase.2, old⟩
  | returned principal => exact fun p _ _ late => ⟨old, by linarith⟩

theorem callStep_expires {db : ControlDb} {cache : ResolverCache} {clock revokedAt : ℚ}
    {keyId : String} {old : Prop}
    {c : ResolveCall} (revoked : db.Revoked keyId) (provisioned : db.Provisioned)
    (entries : ∀ h entry, cache.get? h = some entry →
      EntryExpires settings.keyCacheTtl revokedAt keyId entry)
    (started : c.startedAt ≤ clock) (timely : c.phase.Timely settings.keyCacheTtl c.startedAt clock)
    (expires : c.phase.Expires settings.keyCacheTtl revokedAt c.startedAt old keyId) :
    (callStep settings db cache clock c).1.Expires settings.keyCacheTtl revokedAt c.startedAt old keyId ∧
      ∀ h entry, (callStep settings db cache clock c).2.get? h = some entry →
        EntryExpires settings.keyCacheTtl revokedAt keyId entry := by
  rw [callStep]
  cases phase : c.phase with
  | started => exact ⟨fun entry member => entries _ entry member, entries⟩
  | readCache hit =>
    rw [phase] at expires
    simp only
    cases fresh : hit.filter fun hit => hit.1 > clock with
    | none => exact ⟨trivial, entries⟩
    | some entry =>
      obtain ⟨found, live⟩ := Option.filter_eq_some_iff.1 fresh
      -- an entry of the key has run out for a call that starts a lifetime after the revocation
      refine ⟨fun p member own late => ?_, entries⟩
      have ends := expires entry found p member own
      have after : clock < entry.1 := by simpa using live
      linarith
  | missed now =>
    exact ⟨fun p found own => absurd own (revoked.lookup_ne provisioned found), entries⟩
  | lookedUp now principal =>
    rw [phase] at expires timely
    refine ⟨fun p member own late => ?_, Dict.forall_get?_set entries fun p member own => ?_⟩
    · obtain ⟨before, old⟩ := expires p member own
      exact ⟨old, by linarith [timely.1]⟩
    · linarith [(expires p member own).1]
  | returned principal =>
    rw [phase] at expires
    exact ⟨expires, entries⟩

theorem ResolverRun.Expires.next {revokedAt : ℚ} {old : Nat} {keyId : String} {s : ResolverRun}
    (expires : s.Expires settings.keyCacheTtl revokedAt old keyId) (e : ResolverEvent) :
    ((resolverRuns settings rt).next s e).Expires settings.keyCacheTtl revokedAt old keyId := by
  have timely' : ((resolverRuns settings rt).next s e).Timely settings.keyCacheTtl :=
    expires.timely.next e
  obtain ⟨timely, revoked, passed, known, entries, calls⟩ := expires
  cases e with
  | tick reading => exact ⟨timely', revoked, passed.trans (le_max_left ..), known, entries, calls⟩
  | begin secret =>
    refine ⟨timely', revoked, passed,
      known.trans (by simp [Machine.next, resolverRuns, ResolverRun.step]), entries, ?_⟩
    intro i c found
    change (s.calls ++ [newCall rt s.clock secret])[i]? = some c at found
    cases Nat.lt_or_ge i s.calls.length with
    | inl before =>
      rw [List.getElem?_append_left before] at found
      exact calls i c found
    | inr after =>
      rw [List.getElem?_append_right after] at found
      obtain rfl := List.mem_singleton.1 (List.mem_of_getElem? found)
      rw [newCall]
      split
      · exact fun p member => nomatch member
      · trivial
  | proceed i =>
    change (s.proceed settings i).Timely _ at timely'
    change (s.proceed settings i).Expires _ _ _ _
    rw [ResolverRun.proceed] at timely' ⊢
    cases found : s.calls[i]? with
    | none => exact ⟨timely, revoked, passed, known, entries, calls⟩
    | some c =>
      obtain ⟨started, phase⟩ := timely.calls c (List.mem_of_getElem? found)
      obtain ⟨phase', entries'⟩ :=
        callStep_expires revoked timely.provisioned entries started phase (calls i c found)
      rw [found] at timely'
      refine ⟨timely', revoked, passed, by simpa using known, entries', ?_⟩
      intro j c' found'
      rw [List.getElem?_set] at found'
      split at found'
      · next same =>
        subst same
        split at found'
        · obtain rfl := Option.some.inj found'
          exact phase'
        · cases found'
      · exact calls j c' found'
  | control op => exact ⟨timely', revoked.controlStep settings rt op, passed, known, entries, calls⟩

/-- No call that starts a lifetime or more after a key was revoked returns a principal for it. -/
theorem revoked_key_expires (settings : Settings) (rt : Runtime) (clock : ℚ)
    (before after : List ResolverEvent)
    {keyId : String}
    (revoked : ((resolverRuns settings rt).exec { clock } before).db.Revoked keyId) :
    let s := (resolverRuns settings rt).exec { clock } before
    ∀ (i : Nat) (c : ResolveCall) (p : Principal),
      ((resolverRuns settings rt).exec s after).calls[i]? = some c → c.phase = .returned (some p) →
        s.clock + settings.keyCacheTtl ≤ c.startedAt → 0 < settings.keyCacheTtl ∨
          s.calls.length ≤ i → p.keyId ≠ keyId := by
  intro s i c p found returned late started own
  have start : ({ clock } : ResolverRun).Timely settings.keyCacheTtl :=
    ⟨fun _ _ found => (by cases found), fun _ member => absurd member List.not_mem_nil,
      ControlDb.provisioned_empty⟩
  have timely : s.Timely settings.keyCacheTtl :=
    Machine.invariant_exec (fun _ e timely => timely.next e) start before
  have expires :
    ((resolverRuns settings rt).exec s after).Expires settings.keyCacheTtl s.clock s.calls.length keyId :=
    Machine.invariant_exec (fun _ e expires => expires.next e) (timely.expires revoked) after
  have phase := expires.calls i c found
  rw [returned] at phase
  obtain ⟨before, none⟩ := phase p rfl own late
  cases started with
  | inl positive => linarith
  | inr new => omega

/-- A call that has read the database before the revocation and writes the cache after it. -/
def staleWrite : List ResolverEvent :=
  [.control (.signup "github" "1" "" "" ⟨"org", "user", "key", "t"⟩), .begin (some "dexa_live_t"),
    .proceed 0, .proceed 0, .proceed 0,
   .tick 10, .control (.revokeKey "org" "key" 0)]

/-- Without a lifetime the bound fails: a call that has read the database before the revocation, at
    the clock reading of the revocation, still returns the principal; so does one that starts a
    negative lifetime before the revocation. -/
theorem revoked_key_answers_at_once :
    let bound := fun (ttl : ℚ) (before : List ResolverEvent) =>
      let s := (resolverRuns { keyCacheTtl := ttl } plainRuntime).exec { clock := 0 } before
      s.db.Revoked "key" →
        ∀ c p, ((resolverRuns { keyCacheTtl := ttl } plainRuntime).exec s [.proceed 0]).calls[0]? =
        some c →
        c.phase = .returned (some p) → s.clock + ttl ≤ c.startedAt → p.keyId ≠ "key"
    ¬ bound 0 (staleWrite.eraseIdx 5) ∧ ¬ bound (-10) staleWrite := by
  intro bound
  constructor
  · intro holds
    exact holds ⟨_, rfl, by decide +kernel⟩ _ _ rfl rfl (by decide +kernel) rfl
  · intro holds
    exact holds ⟨_, rfl, by decide +kernel⟩ _ _ rfl rfl (by decide +kernel) rfl

/-- What the call at an index has returned. -/
def ResolverRun.answer (s : ResolverRun) (i : Nat) : Option Principal :=
  match s.calls[i]? with
  | some { phase := .returned principal, .. } => principal
  | _ => none

/-- The stale entry is served until a lifetime after the clock reading, and not longer. -/
theorem revoked_key_expires_staleWrite :
    let revoked := (resolverRuns {} plainRuntime).exec { clock := 0 } staleWrite
    let s := (resolverRuns {} plainRuntime).exec revoked
      [.tick 20, .proceed 0, .begin (some "dexa_live_t"), .proceed 1, .proceed 1, .tick 40,
        .begin (some "dexa_live_t"),
        .proceed 2, .proceed 2, .proceed 2, .proceed 2]
    (s.answer 1).map Principal.keyId = some "key" ∧
      ∀ c p, s.calls[2]? = some c → c.phase = .returned (some p) → p.keyId ≠ "key" := by
  have live : (0 : ℚ) < ({} : Settings).keyCacheTtl := by decide +kernel
  refine ⟨by decide +kernel, fun c p found returned => ?_⟩
  have revoked :
    ((resolverRuns {} plainRuntime).exec { clock := 0 } staleWrite).db.Revoked "key" := by
    refine ⟨_, rfl, ?_⟩
    decide +kernel
  refine revoked_key_expires {} plainRuntime 0 staleWrite _ revoked 2 c p found returned ?_
    (.inl live)
  obtain rfl := Option.some.inj found
  decide +kernel

end Revocation

end Dexa.Platform
