import Dexa.Platform.Accounts

/-! # The hot-path key resolver (`dexa_platform/control/resolver.py`) -/

namespace Dexa.Platform

open Dexa.Lib

structure Tenant where
  name : String
  mode : Mode
  backendUrl : String
  backendModel : String
  defaultBaseline : String
  cacheEnabled : Bool
  deriving DecidableEq, Repr

def Tenant.usesMock (t : Tenant) : Bool := t.mode == .mock || t.backendUrl == ""

structure Principal where
  tenant : Tenant
  orgId : String
  keyId : String
  deriving DecidableEq, Repr

/-- `org.name or org.id`. -/
def Org.tenantName (org : Org) : String := if org.name ≠ "" then org.name else org.id

/-- `_build`. -/
def buildPrincipal (settings : Settings) (org : Org) (keyId : String) : Principal :=
  -- hosted orgs with no backend of their own use the shared hosted pool
  let backend :=
    if org.backendUrl ≠ "" then org.backendUrl
    else if org.mode = .hosted then settings.hostedPoolUrl else ""
  let mode := if backend ≠ "" then org.mode else .mock
  { tenant :=
      { name := org.tenantName, mode, backendUrl := backend, backendModel := org.backendModel,
        defaultBaseline := org.defaultBaseline, cacheEnabled := org.cacheEnabled }
    orgId := org.id, keyId }

namespace ControlDb

/-- `select(ApiKey).where(ApiKey.key_hash == key_hash)`. -/
def findKey (db : ControlDb) (keyHash : String) : Option ApiKey :=
  db.apiKeys.values.find? (·.keyHash == keyHash)

/-- `KeyResolver._lookup`. -/
def lookup (settings : Settings) (db : ControlDb) (keyHash : String) : Option Principal :=
  match db.findKey keyHash with
  | none => none
  | some key =>
    if key.revokedAt ≠ none then none
    else (db.orgs.get? key.orgId).map fun org => buildPrincipal settings org key.id

end ControlDb

/-- Per key hash, when the entry expires and what it resolves to. -/
abbrev ResolverCache := Dict String (ℚ × Option Principal)

/-- `KeyResolver.resolve`, at monotonic time `now`. -/
def resolve (settings : Settings) (rt : Runtime) (db : ControlDb) (cache : ResolverCache) (now : ℚ)
    (secret : Option String) : Option Principal × ResolverCache :=
  match secret with
  | none => (none, cache)
  | some secret =>
    if !looksLikeKey secret then (none, cache)
    else
      let h := hashSecret rt secret
      let fresh := (cache.get? h).filter fun hit => hit.1 > now
      match fresh with
      | some hit => (hit.2, cache)
      | none =>
        let principal := db.lookup settings h
        (principal, cache.set h (now + settings.keyCacheTtl, principal))

/-- Every cache entry is what the database answers for its hash. -/
def ResolverCache.Sound (settings : Settings) (db : ControlDb) (cache : ResolverCache) : Prop :=
  ∀ h entry, cache.get? h = some entry → entry.2 = db.lookup settings h

section Resolve

variable {settings : Settings} {rt : Runtime} {db : ControlDb} {cache : ResolverCache} {now : ℚ}

theorem resolve_of_key {secret : String} (sound : cache.Sound settings db)
    (key : looksLikeKey secret = true) :
    (resolve settings rt db cache now (some secret)).1 = db.lookup settings
      (hashSecret rt secret) := by
  simp only [resolve, key, Bool.not_true, Bool.false_eq_true, if_false]
  cases fresh : (cache.get? (hashSecret rt secret)).filter fun hit => hit.1 > now with
  | none => rfl
  | some hit => exact sound _ _ (Option.filter_eq_some_iff.1 fresh).1

theorem resolve_sound (sound : cache.Sound settings db) (secret : Option String) :
    (resolve settings rt db cache now secret).2.Sound settings db := by
  cases secret with
  | none => exact sound
  | some secret =>
    by_cases key : looksLikeKey secret = true
    · simp only [resolve, key, Bool.not_true, Bool.false_eq_true, if_false]
      cases fresh : (cache.get? (hashSecret rt secret)).filter fun hit => hit.1 > now with
      | none => exact Dict.forall_get?_set sound rfl
      | some hit => exact sound
    · simpa [resolve, key] using sound

end Resolve

end Dexa.Platform
