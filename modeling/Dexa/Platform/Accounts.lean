import Dexa.Lib.Machine
import Dexa.Platform.Redundancy

/-! # The control plane (`dexa_platform/control/{models,keys,accounts,metering}.py`)

The database is a record of tables; the random parts of ids and secrets are arguments of
the functions that draw them.  A function that commits returns the new database, and one
whose insert breaks a uniqueness constraint returns `none`: its transaction is rolled back.

Timestamps are opaque counters, dollars are rationals.
-/

namespace Dexa.Platform

open Dexa.Lib

inductive Mode where
  | hosted
  | byoc
  | mock
  deriving DecidableEq, Repr

def Mode.name : Mode → String
  | .hosted => "hosted"
  | .byoc => "byoc"
  | .mock => "mock"

structure Org where
  id : String
  name : String := ""
  mode : Mode := .hosted
  backendUrl : String := ""
  backendModel : String := "dexa-cua-vlm"
  defaultBaseline : String := "gpt-4o"
  cacheEnabled : Bool := true
  deriving DecidableEq, Repr

structure User where
  id : String
  orgId : String
  provider : String
  subject : String
  email : String := ""
  deriving DecidableEq, Repr

structure ApiKey where
  id : String
  orgId : String
  name : String := "default"
  visiblePrefix : String
  keyHash : String
  revokedAt : Option Nat := none
  deriving DecidableEq, Repr

structure UsageDaily where
  orgId : String
  keyId : String
  day : String
  requests : Nat := 0
  cacheHits : Nat := 0
  dexaUsd : ℚ := 0
  baselineUsd : ℚ := 0
  savedUsd : ℚ := 0
  dexaImageTokens : Nat := 0
  baselineImageTokens : Nat := 0
  redundantSum : ℚ := 0
  redundantN : Nat := 0
  deriving DecidableEq

structure CreditLedger where
  orgId : String
  deltaUsd : ℚ
  reason : String := ""
  deriving DecidableEq

/-- The tables, under their unique columns: users by identity, usage rows by key and day. -/
structure ControlDb where
  orgs : Dict String Org := Dict.empty
  users : Dict (String × String) User := Dict.empty
  apiKeys : Dict String ApiKey := Dict.empty
  usageDaily : Dict (String × String) UsageDaily := Dict.empty
  creditLedger : List CreditLedger := []

/-- What the processes read from their environment. -/
structure Settings where
  freeCreditUsd : ℚ := 5
  keyCacheTtl : ℚ := 30
  hostedPoolUrl : String := ""

/-- `keys.generate_secret`, with the token drawn; other environments raise. -/
def generateSecret (env token : String) : Option String :=
  if env = "live" ∨ env = "test" then some ("dexa_" ++ env ++ "_" ++ token) else none

def hashSecret (rt : Runtime) (secret : String) : String := rt.sha256 (encode secret)

def visiblePrefix (secret : String) : String := String.ofList (secret.toList.take 14)

def looksLikeKey (secret : String) : Bool :=
  "dexa_live_".toList.isPrefixOf secret.toList || "dexa_test_".toList.isPrefixOf secret.toList

/-- A freshly minted key with its plaintext secret. -/
structure NewKey where
  key : ApiKey
  secret : String
  deriving DecidableEq, Repr

/-- What a sign-up draws at random. -/
structure FreshIds where
  orgId : String
  userId : String
  keyId : String
  token : String
  deriving DecidableEq, Repr

/-- `_mint_key`: `none` where it raises (unknown environment, or id or hash taken). -/
def mintKey (rt : Runtime) (db : ControlDb) (orgId name env keyId token : String) :
    Option (ControlDb × NewKey) :=
  match generateSecret env token with
  | none => none
  | some secret =>
    let key : ApiKey :=
      { id := keyId, orgId, name, visiblePrefix := visiblePrefix secret, keyHash := hashSecret rt secret }
    if db.apiKeys.contains keyId || db.apiKeys.values.any (·.keyHash == key.keyHash) then none
    else some ({ db with apiKeys := db.apiKeys.set keyId key }, ⟨key, secret⟩)

/-- The name a new organisation gets: the given one, or the local part of the email. -/
def orgNameOf (email orgName : String) : String :=
  if orgName ≠ "" then orgName
  else if email ≠ "" then String.ofList (email.toList.takeWhile (· ≠ '@'))
  else "workspace"

/-- `signup_oauth`. -/
def signupOauth (settings : Settings) (rt : Runtime) (db : ControlDb)
    (provider subject email orgName : String)
    (fresh : FreshIds) : Option (ControlDb × User × Option NewKey) :=
  match db.users.get? (provider, subject) with
  | some existing => some (db, existing, none)
  | none =>
    let org : Org := { id := fresh.orgId, name := orgNameOf email orgName }
    let user : User := { id := fresh.userId, orgId := org.id, provider, subject, email }
    if db.orgs.contains org.id || db.users.values.any (·.id == user.id) then none
    else
      let db := { db with
        orgs := db.orgs.set org.id org
        users := db.users.set (provider, subject) user
        creditLedger := db.creditLedger ++
          [{ orgId := org.id, deltaUsd := settings.freeCreditUsd, reason := "signup_grant" }] }
      (mintKey rt db org.id "default" "live" fresh.keyId fresh.token).map
        fun (db, newKey) => (db, user, some newKey)

/-- `create_key`.  The foreign key to `orgs`, which a database may enforce, is left out: the key of
    an organisation that there is not resolves to nobody. -/
def createKey (rt : Runtime) (db : ControlDb) (orgId name env keyId token : String) :
    Option (ControlDb × NewKey) :=
  mintKey rt db orgId name env keyId token

/-- `revoke_key`: the flag is whether a key was revoked. -/
def revokeKey (db : ControlDb) (orgId keyId : String) (now : Nat) : Bool × ControlDb :=
  match db.apiKeys.get? keyId with
  | none => (false, db)
  | some key =>
    if key.orgId ≠ orgId ∨ key.revokedAt ≠ none then (false, db)
    else (true, { db with apiKeys := db.apiKeys.set keyId { key with revokedAt := some now } })

/-- `rotate_key`: outer `none` where it raises, inner `none` where it returns `None`. -/
def rotateKey (rt : Runtime) (db : ControlDb) (orgId keyId : String) (now : Nat)
    (newId token : String) :
    Option (ControlDb × Option NewKey) :=
  match db.apiKeys.get? keyId with
  | none => some (db, none)
  | some key =>
    if key.orgId ≠ orgId then some (db, none)
    else
      -- no test of `revoked_at` here, unlike in `revoke_key`
      let db := { db with apiKeys := db.apiKeys.set keyId { key with revokedAt := some now } }
      (mintKey rt db orgId key.name "live" newId token).map fun (db, newKey) => (db, some newKey)

namespace Metering

def granted (db : ControlDb) (orgId : String) : ℚ :=
  ((db.creditLedger.filter (·.orgId == orgId)).map CreditLedger.deltaUsd).sum

def spent (db : ControlDb) (orgId : String) : ℚ :=
  ((db.usageDaily.values.filter (·.orgId == orgId)).map UsageDaily.dexaUsd).sum

def remainingCredit (db : ControlDb) (orgId : String) : ℚ := granted db orgId - spent db orgId

def quotaOk (db : ControlDb) (orgId : String) : Bool := remainingCredit db orgId > 0

/-- What one request adds to its usage row. -/
structure Usage where
  dexaUsd : ℚ
  baselineUsd : ℚ
  savedUsd : ℚ
  dexaImageTokens : Nat
  baselineImageTokens : Nat
  redundantFrac : ℚ
  cacheHit : Bool
  deriving DecidableEq

def Usage.addTo (u : Usage) (row : UsageDaily) : UsageDaily :=
  { row with
    requests := row.requests + 1
    cacheHits := row.cacheHits + u.cacheHit.toNat
    dexaUsd := row.dexaUsd + u.dexaUsd
    baselineUsd := row.baselineUsd + u.baselineUsd
    savedUsd := row.savedUsd + u.savedUsd
    dexaImageTokens := row.dexaImageTokens + u.dexaImageTokens
    baselineImageTokens := row.baselineImageTokens + u.baselineImageTokens
    redundantSum := row.redundantSum + u.redundantFrac
    redundantN := row.redundantN + 1 }

/-- `metering.record`, committed. -/
def record (db : ControlDb) (orgId keyId day : String) (u : Usage) : ControlDb :=
  let row := (db.usageDaily.get? (keyId, day)).getD { orgId, keyId, day }
  { db with usageDaily := db.usageDaily.set (keyId, day) (u.addTo row) }

end Metering

/-! ## Runs of the control plane -/

inductive ControlOp where
  | signup (provider subject email orgName : String) (fresh : FreshIds)
  | createKey (orgId name env keyId token : String)
  | revokeKey (orgId keyId : String) (now : Nat)
  | rotateKey (orgId keyId : String) (now : Nat) (newId token : String)

inductive ControlReply where
  | user (user : User) (newKey : Option NewKey)
  | key (newKey : Option NewKey)
  | revoked (done : Bool)
  | raised

def controlStep (settings : Settings) (rt : Runtime) (db : ControlDb) : ControlOp →
    ControlReply × ControlDb
  | .signup provider subject email orgName fresh =>
    match signupOauth settings rt db provider subject email orgName fresh with
    | some (db, user, newKey) => (.user user newKey, db)
    | none => (.raised, db)
  | .createKey orgId name env keyId token =>
    match createKey rt db orgId name env keyId token with
    | some (db, newKey) => (.key (some newKey), db)
    | none => (.raised, db)
  | .revokeKey orgId keyId now =>
    let (done, db) := revokeKey db orgId keyId now
    (.revoked done, db)
  | .rotateKey orgId keyId now newId token =>
    match rotateKey rt db orgId keyId now newId token with
    | some (db, newKey) => (.key newKey, db)
    | none => (.raised, db)

def controlPlane (settings : Settings) (rt : Runtime) : Machine ControlDb ControlOp ControlReply :=
  ⟨controlStep settings rt⟩

/-! ## What every control-plane run keeps -/

/-- Rows carry the id they are stored under; no requests have been metered yet. -/
structure ControlDb.Provisioned (db : ControlDb) : Prop where
  orgIds : ∀ id org, db.orgs.get? id = some org → org.id = id
  keyIds : ∀ id key, db.apiKeys.get? id = some key → key.id = id
  unmetered : db.usageDaily = Dict.empty

/-- A mint only adds the new row, under an id that no row had. -/
theorem mintKey_eq_some {rt : Runtime} {db db' : ControlDb} {orgId name env keyId token : String}
    {newKey : NewKey}
    (minted : mintKey rt db orgId name env keyId token = some (db', newKey)) :
    db.apiKeys.get? keyId = none ∧ db' = { db with apiKeys := db.apiKeys.set keyId newKey.key } ∧
      newKey.key.id = keyId ∧
      newKey.key.orgId = orgId ∧ newKey.key.name = name ∧ newKey.key.revokedAt = none := by
  rw [mintKey] at minted
  cases drawn : generateSecret env token with
  | none =>
    rw [drawn] at minted
    cases minted
  | some secret =>
    simp only [drawn] at minted
    split at minted
    · cases minted
    · next free =>
      simp only [Option.some.injEq, Prod.mk.injEq] at minted
      obtain ⟨rfl, rfl⟩ := minted
      have absent : db.apiKeys.get? keyId = none := by
        cases present : db.apiKeys.get? keyId with
        | none => rfl
        | some key => simp [Dict.contains, present] at free
      exact ⟨absent, rfl, rfl, rfl, rfl, rfl⟩

namespace ControlDb

theorem provisioned_empty : ({} : ControlDb).Provisioned := ⟨nofun, nofun, rfl⟩

theorem Provisioned.mintKey {rt : Runtime} {db db' : ControlDb}
    {orgId name env keyId token : String} {newKey : NewKey}
    (provisioned : db.Provisioned)
    (minted : mintKey rt db orgId name env keyId token = some (db', newKey)) :
    db'.Provisioned := by
  obtain ⟨-, rfl, id, -⟩ := mintKey_eq_some minted
  exact ⟨provisioned.orgIds, Dict.forall_get?_set provisioned.keyIds id, provisioned.unmetered⟩

theorem Provisioned.revoke {db : ControlDb} {keyId : String} {key : ApiKey} {now : Nat}
    (provisioned : db.Provisioned)
    (present : db.apiKeys.get? keyId = some key) :
    { db with apiKeys := db.apiKeys.set keyId { key with revokedAt := some now } }.Provisioned :=
  ⟨provisioned.orgIds,
    Dict.forall_get?_set provisioned.keyIds (provisioned.keyIds keyId key present),
    provisioned.unmetered⟩

theorem Provisioned.signup {settings : Settings} {rt : Runtime} {db db' : ControlDb}
    {provider subject email orgName : String} {fresh : FreshIds} {user : User}
    {newKey : Option NewKey}
    (provisioned : db.Provisioned)
    (signed : signupOauth settings rt db provider subject email orgName fresh =
      some (db', user, newKey)) :
    db'.Provisioned := by
  rw [signupOauth] at signed
  cases known : db.users.get? (provider, subject) with
  | some existing =>
    simp only [known, Option.some.injEq, Prod.mk.injEq] at signed
    obtain ⟨rfl, -⟩ := signed
    exact provisioned
  | none =>
    simp only [known] at signed
    split at signed
    · cases signed
    · obtain ⟨⟨db'', newKey'⟩, minted, result⟩ := Option.map_eq_some_iff.1 signed
      obtain rfl := congrArg Prod.fst result
      have opened : ControlDb.Provisioned { db with
          orgs := db.orgs.set fresh.orgId { id := fresh.orgId, name := orgNameOf email orgName }
          users := db.users.set (provider, subject)
            { id := fresh.userId, orgId := fresh.orgId, provider, subject, email }
          creditLedger := db.creditLedger ++
            [{ orgId := fresh.orgId, deltaUsd := settings.freeCreditUsd, reason := "signup_grant" }] } :=
        ⟨Dict.forall_get?_set provisioned.orgIds rfl, provisioned.keyIds, provisioned.unmetered⟩
      exact opened.mintKey minted

theorem Provisioned.controlStep {db : ControlDb} (provisioned : db.Provisioned)
    (settings : Settings) (rt : Runtime)
    (op : ControlOp) : (controlStep settings rt db op).2.Provisioned := by
  cases op with
  | signup provider subject email orgName fresh =>
    simp only [Platform.controlStep]
    cases signed : signupOauth settings rt db provider subject email orgName fresh with
    | none => exact provisioned
    | some result => exact provisioned.signup signed
  | createKey orgId name env keyId token =>
    simp only [Platform.controlStep]
    cases created : createKey rt db orgId name env keyId token with
    | none => exact provisioned
    | some result => exact provisioned.mintKey created
  | revokeKey orgId keyId now =>
    simp only [Platform.controlStep, Platform.revokeKey]
    cases present : db.apiKeys.get? keyId with
    | none => exact provisioned
    | some key =>
      simp only
      split
      · exact provisioned
      · exact provisioned.revoke present
  | rotateKey orgId keyId now newId token =>
    simp only [Platform.controlStep]
    cases rotated : rotateKey rt db orgId keyId now newId token with
    | none => exact provisioned
    | some result =>
      obtain ⟨db', newKey⟩ := result
      rw [Platform.rotateKey] at rotated
      cases present : db.apiKeys.get? keyId with
      | none =>
        simp only [present, Option.some.injEq, Prod.mk.injEq] at rotated
        obtain ⟨rfl, -⟩ := rotated
        exact provisioned
      | some key =>
        simp only [present] at rotated
        split at rotated
        · simp only [Option.some.injEq, Prod.mk.injEq] at rotated
          obtain ⟨rfl, -⟩ := rotated
          exact provisioned
        · obtain ⟨⟨db'', newKey'⟩, minted, result⟩ := Option.map_eq_some_iff.1 rotated
          obtain rfl := congrArg Prod.fst result
          exact (provisioned.revoke present).mintKey minted

theorem provisioned_of_run (settings : Settings) (rt : Runtime) (ops : List ControlOp) :
    ((controlPlane settings rt).exec {} ops).Provisioned :=
  Machine.invariant_exec
    (fun _ op provisioned => provisioned.controlStep settings rt op) provisioned_empty ops

end ControlDb

end Dexa.Platform
