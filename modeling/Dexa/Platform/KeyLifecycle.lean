import Dexa.Platform.Accounts

/-! # The lifecycle of an API key

A key is live until it is revoked.  `revoke_key` refuses a key that is revoked already;
`rotate_key` does not look, and so stamps a dead key anew and mints a live one beside it.
-/

namespace Dexa.Platform

open Dexa.Lib

/-- The organisation that a call acts for; a sign-up acts for the one it opens. -/
def ControlOp.orgId : ControlOp → String
  | .signup _ _ _ _ fresh => fresh.orgId
  | .createKey orgId .. | .revokeKey orgId .. | .rotateKey orgId .. => orgId

namespace ControlDb

/-- When a key was revoked. -/
def revokedAt (db : ControlDb) (keyId : String) : Option Nat :=
  (db.apiKeys.get? keyId).bind ApiKey.revokedAt

def activeKeys (db : ControlDb) (orgId : String) : List ApiKey :=
  db.apiKeys.values.filter fun key => key.orgId == orgId && key.revokedAt.isNone

/-- The random parts of a key are those of no other key. -/
def Unused (rt : Runtime) (db : ControlDb) (keyId token : String) : Prop :=
  db.apiKeys.get? keyId = none ∧ ∀ key ∈ db.apiKeys.values,
    key.keyHash ≠ hashSecret rt ("dexa_live_" ++ token)

theorem mintKey_isSome_iff {rt : Runtime} {db : ControlDb} {orgId name keyId token : String} :
    (mintKey rt db orgId name "live" keyId token).isSome ↔ db.Unused rt keyId token := by
  have drawn : generateSecret "live" token = some ("dexa_live_" ++ token) := rfl
  simp only [mintKey, drawn]
  split
  · next taken =>
    refine ⟨fun minted => absurd minted Bool.false_ne_true, fun unused => ?_⟩
    simp only [Bool.or_eq_true, List.any_eq_true, beq_iff_eq, Dict.contains, unused.1] at taken
    obtain h | ⟨key, stored, same⟩ := taken
    · cases h
    · exact absurd same (unused.2 key stored)
  · next free =>
    refine ⟨fun _ => ?_, fun _ => rfl⟩
    simp only [Bool.or_eq_true, List.any_eq_true, beq_iff_eq, not_or, not_exists, not_and,
      Dict.contains,
      Option.isSome_iff_ne_none, not_not] at free
    exact free

/-- Stamping a key takes no id and no secret. -/
theorem unused_stamp {rt : Runtime} {db : ControlDb} {keyId newId token : String} {key : ApiKey}
    {now : Nat}
    (present : db.apiKeys.get? keyId = some key) :
    ControlDb.Unused rt { db with apiKeys := db.apiKeys.set keyId { key with revokedAt := some now } } newId token ↔
      db.Unused rt newId token := by
  have ids : (db.apiKeys.set keyId { key with revokedAt := some now }).get? newId = none ↔
    db.apiKeys.get? newId = none := by
    rw [Dict.get?_set]
    split
    · next same => simp [← same, present]
    · rfl
  exact and_congr ids (Dict.forall_mem_values_set present Iff.rfl)

end ControlDb

/-- The effect of a call on the table of keys. -/
inductive KeyStep (rt : Runtime) (db : ControlDb) : ControlOp → ControlReply → ControlDb → Prop
  | unchanged {op : ControlOp} {reply : ControlReply}
      (refused : ∀ orgId keyId now newId token, op = .rotateKey orgId keyId now newId token →
        (reply = .key none ∨ reply = .raised) ∧
          ∀ key, db.apiKeys.get? keyId = some key → key.orgId = orgId →
            ¬ db.Unused rt newId token) :
      KeyStep rt db op reply db
  | minted {op : ControlOp} {reply : ControlReply} {db' : ControlDb} {key : ApiKey}
      (rotates : ∀ orgId keyId now newId token, op ≠ .rotateKey orgId keyId now newId token)
      (absent : db.apiKeys.get? key.id = none) (owner : key.orgId = op.orgId)
      (live : key.revokedAt = none)
      (keys : db'.apiKeys = db.apiKeys.set key.id key) :
      KeyStep rt db op reply db'
  | revoked {orgId keyId : String} {now : Nat} {key : ApiKey}
      (present : db.apiKeys.get? keyId = some key)
      (owner : key.orgId = orgId) (live : key.revokedAt = none) :
      KeyStep rt db (.revokeKey orgId keyId now) (.revoked true)
        { db with apiKeys := db.apiKeys.set keyId { key with revokedAt := some now } }
  | rotated {orgId keyId newId token : String} {now : Nat} {key : ApiKey} {newKey : NewKey} {db' : ControlDb}
      (present : db.apiKeys.get? keyId = some key) (owner : key.orgId = orgId)
      (unused : db.Unused rt newId token)
      (replacement : newKey.key.id = newId ∧ newKey.key.orgId = orgId ∧ newKey.key.name = key.name ∧
        newKey.key.revokedAt = none)
      (keys : db'.apiKeys =
        (db.apiKeys.set keyId { key with revokedAt := some now }).set newId newKey.key) :
      KeyStep rt db (.rotateKey orgId keyId now newId token) (.key (some newKey)) db'

/-- Where a call that is no rotation leaves the table as it was. -/
theorem KeyStep.kept {rt : Runtime} {db : ControlDb} {op : ControlOp} {reply : ControlReply}
    (other : ∀ orgId keyId now newId token, op ≠ .rotateKey orgId keyId now newId token) :
      KeyStep rt db op reply db :=
  .unchanged fun orgId keyId now newId token rotates => absurd rotates
    (other orgId keyId now newId token)

theorem keyStep (settings : Settings) (rt : Runtime) (db : ControlDb) (op : ControlOp) :
    KeyStep rt db op (controlStep settings rt db op).1 (controlStep settings rt db op).2 := by
  cases op with
  | signup provider subject email orgName fresh =>
    have other : ∀ orgId keyId now newId token,
        ControlOp.signup provider subject email orgName fresh ≠
          .rotateKey orgId keyId now newId token := by simp
    simp only [controlStep]
    cases signed : signupOauth settings rt db provider subject email orgName fresh with
    | none => exact .kept other
    | some result =>
      obtain ⟨db', user, newKey⟩ := result
      rw [signupOauth] at signed
      cases known : db.users.get? (provider, subject) with
      | some existing =>
        simp only [known, Option.some.injEq, Prod.mk.injEq] at signed
        obtain ⟨rfl, -⟩ := signed
        exact .kept other
      | none =>
        simp only [known] at signed
        split at signed
        · cases signed
        · obtain ⟨⟨db'', newKey'⟩, minted, result⟩ := Option.map_eq_some_iff.1 signed
          obtain rfl := congrArg Prod.fst result
          obtain ⟨absent, rfl, id, owner, -, live⟩ := mintKey_eq_some minted
          exact .minted other (id ▸ absent) owner live (by rw [id])
  | createKey orgId name env keyId token =>
    have other : ∀ orgId' keyId' now newId token',
        ControlOp.createKey orgId name env keyId token ≠
          .rotateKey orgId' keyId' now newId token' := by simp
    simp only [controlStep, createKey]
    cases minted : mintKey rt db orgId name env keyId token with
    | none => exact .kept other
    | some result =>
      obtain ⟨db', newKey⟩ := result
      obtain ⟨absent, rfl, id, owner, -, live⟩ := mintKey_eq_some minted
      exact .minted other (id ▸ absent) owner live (by rw [id])
  | revokeKey orgId keyId now =>
    have other : ∀ orgId' keyId' now' newId token,
        ControlOp.revokeKey orgId keyId now ≠ .rotateKey orgId' keyId' now' newId token := by simp
    simp only [controlStep, revokeKey]
    cases present : db.apiKeys.get? keyId with
    | none => exact .kept other
    | some key =>
      simp only
      split
      · exact .kept other
      · next accepted =>
        simp only [not_or, not_not] at accepted
        exact .revoked present accepted.1 accepted.2
  | rotateKey orgId keyId now newId token =>
    simp only [controlStep, rotateKey]
    cases present : db.apiKeys.get? keyId with
    | none =>
      refine .unchanged fun _ _ _ _ _ same => ?_
      cases same
      exact ⟨.inl rfl, fun key found => by rw [present] at found; cases found⟩
    | some key =>
      dsimp only
      by_cases own : key.orgId = orgId
      · rw [if_neg (not_not.2 own)]
        cases minted :
          mintKey rt { db with apiKeys := db.apiKeys.set keyId { key with revokedAt := some now } } orgId key.name
            "live" newId token with
        | none =>
          refine .unchanged fun _ _ _ _ _ same => ?_
          cases same
          refine ⟨.inr rfl, fun _ _ _ unused => ?_⟩
          -- a mint fails only for an id or a token in use, in the stamped table as in the old one
          have fails := congrArg Option.isSome minted
          rw [ControlDb.mintKey_isSome_iff.2 ((ControlDb.unused_stamp present).2 unused)] at fails
          cases fails
        | some result =>
          obtain ⟨db', newKey⟩ := result
          have mints := congrArg Option.isSome minted
          obtain ⟨-, rfl, replacement⟩ := mintKey_eq_some minted
          -- the stamp uses up no id and no token
          have unused := (ControlDb.unused_stamp present).1 (ControlDb.mintKey_isSome_iff.1 mints)
          exact .rotated present own unused replacement rfl
      · rw [if_pos own]
        refine .unchanged fun _ _ _ _ _ same => ?_
        cases same
        refine ⟨.inl rfl, fun key' found own' => ?_⟩
        rw [present] at found
        cases found
        exact absurd own' own

namespace KeyStep

variable {rt : Runtime} {db db' : ControlDb} {op : ControlOp} {reply : ControlReply}

/-- What a call does to the row of a key. -/
theorem get? (step : KeyStep rt db op reply db') (id : String) :
    db'.apiKeys.get? id = db.apiKeys.get? id ∨
      (∃ key, db'.apiKeys.get? id = some key ∧ key.orgId = op.orgId) ∧ ∀ key,
        db.apiKeys.get? id = some key → key.orgId = op.orgId := by
  cases step with
  | unchanged => exact .inl rfl
  | minted _ absent owner live keys =>
    rw [keys, Dict.get?_set]
    split
    · next same =>
      refine .inr ⟨⟨_, rfl, owner⟩, fun key present => ?_⟩
      rw [← same, absent] at present
      cases present
    · exact .inl rfl
  | revoked present owner live =>
    rw [Dict.get?_set]
    split
    · next same =>
      refine .inr ⟨⟨_, rfl, owner⟩, fun key stored => ?_⟩
      rw [← same, present] at stored
      cases stored
      exact owner
    · exact .inl rfl
  | rotated present owner unused replacement keys =>
    rw [keys, Dict.get?_set]
    split
    · next same =>
      refine .inr ⟨⟨_, rfl, replacement.2.1⟩, fun key stored => ?_⟩
      rw [← same, unused.1] at stored
      cases stored
    · rw [Dict.get?_set]
      split
      · next same =>
        refine .inr ⟨⟨_, rfl, owner⟩, fun key stored => ?_⟩
        rw [← same, present] at stored
        cases stored
        exact owner
      · exact .inl rfl

theorem isolated (step : KeyStep rt db op reply db') {id : String} {key : ApiKey}
    (other : key.orgId ≠ op.orgId) :
    db'.apiKeys.get? id = some key ↔ db.apiKeys.get? id = some key := by
  obtain same | ⟨⟨key', after, owner⟩, before⟩ := step.get? id
  · rw [same]
  · constructor
    · intro stored
      obtain rfl := Option.some.inj (after.symm.trans stored)
      exact absurd owner other
    · intro stored
      exact absurd (before key stored) other

end KeyStep

/-! ## The lifecycle -/

/-- A rotation of a key that its organisation has revoked, with fresh randomness. -/
def RotatesRevoked (rt : Runtime) (db : ControlDb) : ControlOp → Prop
  | .rotateKey orgId keyId _ newId token =>
    (∃ key, db.apiKeys.get? keyId = some key ∧ key.orgId = orgId ∧ key.revokedAt ≠ none) ∧
      db.Unused rt newId token
  | _ => False

/-- One live key goes, one live key of the same organisation and name comes. -/
def Replaces (db : ControlDb) (orgId keyId : String) (reply : ControlReply)
    (db' : ControlDb) : Prop :=
  ∃ key newKey now, db.apiKeys.get? keyId = some key ∧ key.orgId = orgId ∧ key.revokedAt = none ∧
    reply = .key (some newKey) ∧ db.apiKeys.get? newKey.key.id = none ∧ newKey.key.orgId = orgId ∧
    newKey.key.name = key.name ∧ newKey.key.revokedAt = none ∧
    db'.apiKeys =
      (db.apiKeys.set keyId { key with revokedAt := some now }).set newKey.key.id newKey.key ∧
    (db'.activeKeys orgId).length = (db.activeKeys orgId).length

/-- What one call keeps of the lifecycle, its reply included. -/
structure OneWay (db : ControlDb) (op : ControlOp) (reply : ControlReply)
    (db' : ControlDb) : Prop where
  revoked : ∀ id t, db.revokedAt id = some t → db'.revokedAt id = some t
  rotates : ∀ orgId keyId now newId token, op = .rotateKey orgId keyId now newId token →
    Replaces db orgId keyId reply db' ∨ (reply = .key none ∨ reply = .raised) ∧ db' = db
  isolated : ∀ id key, key.orgId ≠ op.orgId →
    (db'.apiKeys.get? id = some key ↔ db.apiKeys.get? id = some key)

theorem activeKeys_replaced {keys : Dict String ApiKey} {orgId keyId newId : String}
    {key fresh : ApiKey} {now : Nat}
    (present : keys.get? keyId = some key) (owner : key.orgId = orgId) (live : key.revokedAt = none)
    (absent : keys.get? newId = none) (owner' : fresh.orgId = orgId)
    (live' : fresh.revokedAt = none) :
    ((((keys.set keyId { key with revokedAt := some now }).set newId fresh).values.filter fun key =>
      key.orgId == orgId && key.revokedAt.isNone).length) =
      (keys.values.filter fun key => key.orgId == orgId && key.revokedAt.isNone).length := by
  subst owner
  have other : keyId ≠ newId := by
    rintro rfl
    rw [absent] at present
    cases present
  have stamped :=
    Dict.length_filter_set keys (fun row => row.orgId == key.orgId && row.revokedAt.isNone) keyId
    { key with revokedAt := some now }
  have minted := Dict.length_filter_set (keys.set keyId { key with revokedAt := some now })
    (fun row => row.orgId == key.orgId && row.revokedAt.isNone) newId fresh
  rw [Dict.get?_set_ne _ _ other, absent] at minted
  simp [present, live, Option.filter] at stamped
  simp [owner', live', Option.filter] at minted
  omega

theorem KeyStep.oneWay_iff {rt : Runtime} {db db' : ControlDb} {op : ControlOp}
    {reply : ControlReply}
    (step : KeyStep rt db op reply db') : OneWay db op reply db' ↔ ¬ RotatesRevoked rt db op := by
  constructor
  · intro oneWay rotation
    cases op with
    | rotateKey orgId keyId now newId token =>
      obtain ⟨⟨key, present, owner, dead⟩, unused⟩ := rotation
      obtain ⟨key', _, _, present', -, live, -⟩ | ⟨refusal, -⟩ := oneWay.rotates _ _ _ _ _ rfl
      · rw [present] at present'
        cases present'
        -- a rotation that returns a key was of a live one
        exact dead live
      · cases step with
        | unchanged refused => exact (refused _ _ _ _ _ rfl).2 key present owner unused
        | minted rotates => exact rotates _ _ _ _ _ rfl
        | rotated => obtain refusal | refusal := refusal <;> cases refusal
    | signup | createKey | revokeKey => exact rotation
  · intro proper
    refine ⟨?_, ?_, fun _ _ other => step.isolated other⟩
    · intro id t revoked
      obtain ⟨key, stored, stamp⟩ := Option.bind_eq_some_iff.1 revoked
      cases step with
      | unchanged => exact revoked
      | @minted _ _ _ fresh _ absent owner live keys =>
        have other : fresh.id ≠ id := by
          rintro rfl
          rw [absent] at stored
          cases stored
        rw [ControlDb.revokedAt, keys, Dict.get?_set_ne _ _ other]
        exact revoked
      | @revoked _ keyId _ key' present owner live =>
        have other : keyId ≠ id := by
          rintro rfl
          obtain rfl := Option.some.inj (present.symm.trans stored)
          rw [live] at stamp
          cases stamp
        rw [ControlDb.revokedAt, Dict.get?_set_ne _ _ other]
        exact revoked
      | @rotated _ keyId newId _ _ key' newKey _ present owner unused replacement keys =>
        have other : keyId ≠ id := by
          rintro rfl
          obtain rfl := Option.some.inj (present.symm.trans stored)
          -- only the rotation of a revoked key could stamp it anew
          exact proper ⟨⟨_, present, owner, by rw [stamp]; exact Option.some_ne_none t⟩, unused⟩
        have other' : newId ≠ id := by
          rintro rfl
          rw [unused.1] at stored
          cases stored
        rw [ControlDb.revokedAt, keys, Dict.get?_set_ne _ _ other', Dict.get?_set_ne _ _ other]
        exact revoked
    · rintro orgId keyId now newId token rfl
      cases step with
      | unchanged refused => exact .inr ⟨(refused _ _ _ _ _ rfl).1, rfl⟩
      | minted rotates => exact absurd rfl (rotates _ _ _ _ _)
      | @rotated _ _ _ _ _ key newKey _ present owner unused replacement keys =>
        have live : key.revokedAt = none := by
          by_contra dead
          exact proper ⟨⟨key, present, owner, dead⟩, unused⟩
        obtain ⟨rfl, owner', name, live'⟩ := replacement
        refine .inl ⟨key, newKey, now, present, owner, live, rfl, unused.1, owner', name,
          live', keys, ?_⟩
        rw [ControlDb.activeKeys, keys]
        exact activeKeys_replaced present owner live unused.1 owner' live'

/-- What a run keeps of it: a key that is revoked at some point keeps its time of revocation, and
    each call is one-way. -/
structure OneWayRun (settings : Settings) (rt : Runtime) (db : ControlDb) (ops : List ControlOp) :
    Prop where
  revoked : ∀ before after, ops = before ++ after → ∀ id t,
    ((controlPlane settings rt).exec db before).revokedAt id = some t →
      ((controlPlane settings rt).exec db ops).revokedAt id = some t
  calls : ∀ before op after, ops = before ++ op :: after →
    let here := (controlPlane settings rt).exec db before
    OneWay here op ((controlPlane settings rt).out here op)
      ((controlPlane settings rt).next here op)

/-- The lifecycle of keys is one-way in just those runs that never rotate a revoked key. -/
theorem key_lifecycle_one_way_iff (settings : Settings) (rt : Runtime) (db : ControlDb)
    (ops : List ControlOp) :
    OneWayRun settings rt db ops ↔
      (controlPlane settings rt).Meets (fun db op => ¬ RotatesRevoked rt db op) db ops := by
  have step := fun db op => (keyStep settings rt db op).oneWay_iff
  constructor
  · intro oneWay
    rw [Machine.meets_iff]
    exact fun before op after split => (step _ op).1 (oneWay.calls before op after split)
  · intro proper
    refine ⟨?_,
      fun before op after split => (step _ op).2 (Machine.meets_iff.1 proper before op after split)⟩
    rintro before after rfl id t revoked
    rw [Machine.exec_append]
    exact Machine.Meets.invariant (m := controlPlane settings rt)
      (fun db op stamped proper => ((step db op).2 proper).revoked id t stamped) revoked
      (Machine.Meets.append proper).2

/-- A digest that tells secrets of different lengths apart. -/
def lengthRuntime : Runtime :=
  ⟨fun bytes => toString bytes.length, fun _ => "", fun _ => none, fun _ => none, false⟩

def rotateRevoked : List ControlOp :=
  [.signup "github" "1" "" "" ⟨"org", "user", "k1", "a"⟩, .revokeKey "org" "k1" 1,
    .rotateKey "org" "k1" 2 "k2" "bb"]

/-- A revoked key is rotated: it is stamped anew, and its organisation has a live key again. -/
theorem rotate_revives_revoked_key :
    ((controlPlane {} lengthRuntime).exec {} (rotateRevoked.take 2)).revokedAt "k1" = some 1 ∧
      ((controlPlane {} lengthRuntime).exec {} (rotateRevoked.take 2)).activeKeys "org" = [] ∧
      ((controlPlane {} lengthRuntime).exec {} rotateRevoked).revokedAt "k1" = some 2 ∧
      (((controlPlane {} lengthRuntime).exec {} rotateRevoked).activeKeys "org").map ApiKey.id =
        ["k2"] ∧
      ¬ OneWayRun {} lengthRuntime {} rotateRevoked := by
  have stamped : ((controlPlane {} lengthRuntime).exec {} (rotateRevoked.take 2)).revokedAt "k1" =
    some 1 := by decide +kernel
  have restamped : ((controlPlane {} lengthRuntime).exec {} rotateRevoked).revokedAt "k1" =
    some 2 := by decide +kernel
  refine ⟨stamped, by decide +kernel, restamped, by decide +kernel, fun oneWay => ?_⟩
  have kept := oneWay.revoked (rotateRevoked.take 2) (rotateRevoked.drop 2) rfl "k1" 1 stamped
  rw [restamped] at kept
  cases kept

end Dexa.Platform
