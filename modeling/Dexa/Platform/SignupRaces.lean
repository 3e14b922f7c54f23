import Dexa.Lib.Lists
import Dexa.Platform.SharedSession

/-! # Concurrent sign-ups of one identity

A call of `signup_oauth` looks the identity up, inserts its rows in a transaction that nobody
else sees, and commits them at once or not at all.  The unique constraint on the identity lets
one call through; a call that looked before that commit and commits after it raises.
-/

namespace Dexa.Platform

open Dexa.Lib

structure SignupArgs where
  provider : String
  subject : String
  email : String := ""
  orgName : String := ""
  fresh : FreshIds

/-- How far a call has come. -/
inductive SignupPhase where
  | started
  /-- the lookup found no user -/
  | missed
  /-- the rows are inserted, not committed -/
  | flushed
  | returned (user : User) (newKey : Option NewKey)
  | raised

structure SignupCall extends SignupArgs where
  phase : SignupPhase := .started

structure Signups where
  db : ControlDb
  calls : List SignupCall := []

inductive SignupEvent where
  | begin (args : SignupArgs)
  /-- the call at this index makes its next step -/
  | proceed (i : Nat)

section Steps

variable (settings : Settings) (rt : Runtime)

/-- The commit of the inserted rows: `none` where a unique column is taken. -/
def commitSignup (db : ControlDb) (a : SignupArgs) : Option (ControlDb × User × NewKey) :=
  let org : Org := { id := a.fresh.orgId, name := orgNameOf a.email a.orgName }
  let user : User :=
    { id := a.fresh.userId, orgId := org.id, provider := a.provider, subject := a.subject, email := a.email }
  if db.users.contains (a.provider, a.subject) || db.orgs.contains org.id || db.users.values.any
    (·.id == user.id) then none
  else
    let db := { db with
      orgs := db.orgs.set org.id org
      users := db.users.set (a.provider, a.subject) user
      creditLedger := db.creditLedger ++
        [{ orgId := org.id, deltaUsd := settings.freeCreditUsd, reason := "signup_grant" }] }
    (mintKey rt db org.id "default" "live" a.fresh.keyId a.fresh.token).map
      fun (db, newKey) => (db, user, newKey)

/-- The next step of a call. -/
def signupStep (db : ControlDb) (c : SignupCall) : SignupPhase × ControlDb :=
  match c.phase with
  | .started =>
    match db.users.get? (c.provider, c.subject) with
    | some existing => (.returned existing none, db)
    | none => (.missed, db)
  | .missed => (.flushed, db)
  | .flushed =>
    match commitSignup settings rt db c.toSignupArgs with
    | some (db, user, newKey) => (.returned user (some newKey), db)
    | none => (.raised, db)
  | phase => (phase, db)

namespace Signups

def proceed (s : Signups) (i : Nat) : Signups :=
  match s.calls[i]? with
  | none => s
  | some c =>
    let (phase, db) := signupStep settings rt s.db c
    { db, calls := s.calls.set i { c with phase } }

def step (s : Signups) : SignupEvent → Unit × Signups
  | .begin args => ((), { s with calls := s.calls ++ [{ args with }] })
  | .proceed i => ((), s.proceed settings rt i)

end Signups

def signups : Machine Signups SignupEvent Unit := ⟨Signups.step settings rt⟩

/-- Where the lookup finds nobody, `signup_oauth` is its commit. -/
theorem signupOauth_absent {db : ControlDb} {a : SignupArgs}
    (known : db.users.get? (a.provider, a.subject) = none) :
    signupOauth settings rt db a.provider a.subject a.email a.orgName a.fresh =
      (commitSignup settings rt db a).map fun (db, user, newKey) => (db, user, some newKey) := by
  have absent : db.users.contains (a.provider, a.subject) = false := by
    rw [Dict.contains, known, Option.isSome_none]
  simp only [signupOauth, known, commitSignup, absent, Bool.false_or]
  split
  · rfl
  · rw [Option.map_map]
    rfl

/-- The three steps of a call with nothing in between are `signup_oauth`. -/
theorem signupStep_eq_signupOauth (db : ControlDb) (a : SignupArgs) :
    let next := fun p : SignupCall × ControlDb =>
      ({ p.1 with phase := (signupStep settings rt p.2 p.1).1 }, (signupStep settings rt p.2 p.1).2)
    let done := next (next (next ({ a with }, db)))
    match signupOauth settings rt db a.provider a.subject a.email a.orgName a.fresh with
    | some (db', user, newKey) => done.1.phase = .returned user newKey ∧ done.2 = db'
    | none => done.1.phase = .raised ∧ done.2 = db := by
  intro next done
  cases known : db.users.get? (a.provider, a.subject) with
  | some existing => simp [next, done, signupStep, signupOauth, known]
  | none =>
    rw [signupOauth_absent settings rt known]
    cases committed : commitSignup settings rt db a with
    | none => simp [next, done, signupStep, known, committed]
    | some result => simp [next, done, signupStep, known, committed]

end Steps

/-- None of the drawn ids and secrets is in the database. -/
structure FreshIds.NewIn (rt : Runtime) (db : ControlDb) (fresh : FreshIds) : Prop where
  org : db.orgs.get? fresh.orgId = none
  user : db.users.values.any (·.id == fresh.userId) = false
  key : db.apiKeys.get? fresh.keyId = none
  hash : db.apiKeys.values.any
    (·.keyHash == hashSecret rt ("dexa_" ++ "live" ++ "_" ++ fresh.token)) = false

/-- A call for the identity, with new ids. -/
def SignupEvent.IsFor (rt : Runtime) (db : ControlDb) (identity : String × String) : SignupEvent →
    Prop
  | .begin args => (args.provider, args.subject) = identity ∧ args.fresh.NewIn rt db
  | .proceed _ => True

def SignupPhase.isPending : SignupPhase → Bool
  | .started | .missed | .flushed => true
  | _ => false

def SignupPhase.isRaised : SignupPhase → Bool
  | .raised => true
  | _ => false

def SignupPhase.isKeyed : SignupPhase → Bool
  | .returned _ (some _) => true
  | _ => false

/-- The call at this index has returned a fresh key. -/
def Signups.Keyed (s : Signups) (i : Nat) : Prop := ∃ c, s.calls[i]? = some c ∧
    c.phase.isKeyed = true

/-- The database has the identity's user, its organisation and its grant, and nothing else is
    new. -/
structure SignedUp (settings : Settings) (db₀ : ControlDb) (identity : String × String)
    (db : ControlDb) (user : User) :
    Prop where
  found : db.users.get? identity = some user
  org : ∃ org, db.orgs.entries = db₀.orgs.entries ++ [(user.orgId, org)]
  grant : db.creditLedger =
    db₀.creditLedger ++
      [{ orgId := user.orgId, deltaUsd := settings.freeCreditUsd, reason := "signup_grant" }]

/-- Every call has returned the one user, one of them with a fresh key. -/
structure Idempotent (settings : Settings) (db₀ : ControlDb) (identity : String × String)
    (s : Signups) : Prop where
  user : ∃ user, SignedUp settings db₀ identity s.db user ∧
    ∀ c ∈ s.calls, ∃ newKey, c.phase = .returned user newKey
  fresh : ∃! i, s.Keyed i

/-! ## One step -/

section Races

variable {settings : Settings} {rt : Runtime} {db₀ : ControlDb} {identity : String × String}

/-- The key a sign-up draws. -/
def freshKey (rt : Runtime) (fresh : FreshIds) : NewKey :=
  let secret := "dexa_" ++ "live" ++ "_" ++ fresh.token
  { key := { id := fresh.keyId, orgId := fresh.orgId, name := "default", visiblePrefix := visiblePrefix secret
             keyHash := hashSecret rt secret }
    secret }

theorem mintKey_fresh {db : ControlDb} {fresh : FreshIds}
    (unused : db.apiKeys.get? fresh.keyId = none)
    (hash : db.apiKeys.values.any
      (·.keyHash == hashSecret rt ("dexa_" ++ "live" ++ "_" ++ fresh.token)) = false) :
    mintKey rt db fresh.orgId "default" "live" fresh.keyId fresh.token =
      some ({ db with apiKeys := db.apiKeys.set fresh.keyId (freshKey rt fresh).key },
        freshKey rt fresh) := by
  have drawn : generateSecret "live" fresh.token = some ("dexa_" ++ "live" ++ "_" ++ fresh.token) :=
    if_pos (.inl rfl)
  have unknown : db.apiKeys.contains fresh.keyId = false := by
    rw [Dict.contains, unused, Option.isSome_none]
  simp only [mintKey, drawn, unknown, hash, Bool.or_self, Bool.false_eq_true, if_false]
  rfl

theorem commitSignup_new (settings : Settings) {a : SignupArgs}
    (identityOf : (a.provider, a.subject) = identity)
    (absent : db₀.users.get? identity = none) (fresh : a.fresh.NewIn rt db₀) :
    ∃ db user newKey, commitSignup settings rt db₀ a = some (db, user, newKey) ∧
      SignedUp settings db₀ identity db user := by
  subst identityOf
  have unknown : db₀.users.contains (a.provider, a.subject) = false := by
    rw [Dict.contains, absent, Option.isSome_none]
  have newOrg : db₀.orgs.contains a.fresh.orgId = false := by
    rw [Dict.contains, fresh.org, Option.isSome_none]
  have newId : a.fresh.orgId ∉ db₀.orgs.entries.map Prod.fst := Dict.lookup_eq_none.1 fresh.org
  simp only [commitSignup, unknown, newOrg, fresh.user, Bool.or_self, Bool.false_eq_true, if_false]
  rw [mintKey_fresh]
  · exact ⟨_, _, _, rfl, Dict.get?_set_self .., ⟨_, Dict.assign_new _ newId⟩, rfl⟩
  · exact fresh.key
  · exact fresh.hash

theorem commitSignup_taken {db : ControlDb} {user : User} {a : SignupArgs}
    (identityOf : (a.provider, a.subject) = identity)
    (taken : db.users.get? identity = some user) : commitSignup settings rt db a = none := by
  have known : db.users.contains (a.provider, a.subject) = true := by
    rw [Dict.contains, identityOf, taken, Option.isSome_some]
  simp only [commitSignup, known, Bool.true_or, if_true]

theorem proceed_some {s : Signups} {i : Nat} {c : SignupCall} (found : s.calls[i]? = some c) :
    s.proceed settings rt i =
      { db := (signupStep settings rt s.db c).2
        calls := s.calls.set i { c with phase := (signupStep settings rt s.db c).1 } } := by
  rw [Signups.proceed, found]

theorem proceed_none {s : Signups} {i : Nat} (none : s.calls[i]? = none) :
    s.proceed settings rt i = s := by
  rw [Signups.proceed, none]

/-- Nobody has signed up yet. -/
structure Unsigned (db₀ : ControlDb) (s : Signups) : Prop where
  db : s.db = db₀
  pending : ∀ c ∈ s.calls, c.phase.isPending = true

/-- One call has committed. -/
structure Signed (settings : Settings) (db₀ : ControlDb) (identity : String × String) (s : Signups)
    (user : User) : Prop where
  db : SignedUp settings db₀ identity s.db user
  returned : ∀ c ∈ s.calls, ∀ u newKey, c.phase = .returned u newKey → u = user
  fresh : ∃! i, s.Keyed i

/-- What holds at every point of the calls' run. -/
structure Racing (settings : Settings) (rt : Runtime) (db₀ : ControlDb) (identity : String × String)
    (s : Signups) : Prop where
  ours : ∀ c ∈ s.calls, (c.provider, c.subject) = identity ∧ c.fresh.NewIn rt db₀
  state : Unsigned db₀ s ∨ ∃ user, Signed settings db₀ identity s user

theorem keyed_append (s : Signups) (args : SignupArgs) (i : Nat) :
    Signups.Keyed { s with calls := s.calls ++ [{ args with }] } i ↔ s.Keyed i := by
  constructor
  · rintro ⟨c, found, keyed⟩
    rw [List.getElem?_append] at found
    split at found
    · exact ⟨c, found, keyed⟩
    · obtain rfl := List.mem_singleton.1 (List.mem_of_getElem? found)
      cases keyed
  · rintro ⟨c, found, keyed⟩
    refine ⟨c, ?_, keyed⟩
    rw [List.getElem?_append_left (List.getElem?_eq_some_iff.1 found).1]
    exact found

theorem keyed_set {s : Signups} {i : Nat} {c c' : SignupCall} (found : s.calls[i]? = some c)
    (same : c'.phase.isKeyed = c.phase.isKeyed) (db : ControlDb) (k : Nat) :
    Signups.Keyed { db, calls := s.calls.set i c' } k ↔ s.Keyed k := by
  rw [Signups.Keyed, Signups.Keyed]
  by_cases here : i = k
  · subst here
    simp [List.getElem?_set_self (List.getElem?_eq_some_iff.1 found).1, found, same]
  · rw [List.getElem?_set_ne here]

/-- The first commit signs the identity up. -/
theorem Unsigned.proceed {s : Signups} (absent : db₀.users.get? identity = none)
    (unsigned : Unsigned db₀ s)
    {i : Nat} {c : SignupCall} (found : s.calls[i]? = some c)
    (identityOf : (c.provider, c.subject) = identity)
    (fresh : c.fresh.NewIn rt db₀) :
    Unsigned db₀ (s.proceed settings rt i) ∨ ∃ user,
      Signed settings db₀ identity (s.proceed settings rt i) user := by
  have known : s.db.users.get? (c.provider, c.subject) = none := by
    rw [unsigned.db, identityOf, absent]
  rw [proceed_some found]
  cases phase : c.phase with
  | started =>
    simp only [signupStep, phase, known]
    exact .inl ⟨unsigned.db, forall_mem_set unsigned.pending rfl⟩
  | missed =>
    simp only [signupStep, phase]
    exact .inl ⟨unsigned.db, forall_mem_set unsigned.pending rfl⟩
  | flushed =>
    obtain ⟨db, user, newKey, committed, signedUp⟩ :=
      commitSignup_new settings identityOf absent fresh
    simp only [signupStep, phase, unsigned.db, committed]
    refine .inr ⟨user, signedUp, ?_, i, ?_, ?_⟩
    · refine forall_mem_set (fun c' member u newKey' returned => ?_) fun u newKey' returned => ?_
      · have pending := unsigned.pending c' member
        rw [returned] at pending
        cases pending
      · cases returned
        rfl
    · exact ⟨_, List.getElem?_set_self (List.getElem?_eq_some_iff.1 found).1, rfl⟩
    · rintro k ⟨c', there, keyed⟩
      by_contra other
      rw [List.getElem?_set_ne (Ne.symm other)] at there
      have pending := unsigned.pending c' (List.mem_of_getElem? there)
      cases phase' : c'.phase <;> rw [phase'] at pending keyed <;> contradiction
  | returned user newKey =>
    have pending := unsigned.pending c (List.mem_of_getElem? found)
    rw [phase] at pending
    cases pending
  | raised =>
    have pending := unsigned.pending c (List.mem_of_getElem? found)
    rw [phase] at pending
    cases pending

/-- After it, a call finds the user or breaks the constraint. -/
theorem Signed.proceed {s : Signups} {user : User} (signed : Signed settings db₀ identity s user)
    {i : Nat} {c : SignupCall}
    (found : s.calls[i]? = some c) (identityOf : (c.provider, c.subject) = identity) :
    Signed settings db₀ identity (s.proceed settings rt i) user := by
  have known : s.db.users.get? (c.provider, c.subject) = some user := by
    rw [identityOf, signed.db.found]
  have keep : ∀ phase : SignupPhase, (∀ u newKey, phase = .returned u newKey → u = user) →
    phase.isKeyed = c.phase.isKeyed →
      Signed settings db₀ identity { db := s.db, calls := s.calls.set i { c with phase } } user := by
    intro phase returned same
    refine ⟨signed.db, forall_mem_set signed.returned returned, ?_⟩
    have others : ∀ k, Signups.Keyed { db := s.db, calls := s.calls.set i { c with phase } } k ↔
      s.Keyed k :=
      fun k => keyed_set found same s.db k
    simp only [others]
    exact signed.fresh
  rw [proceed_some found]
  cases phase : c.phase with
  | started =>
    simp only [signupStep, phase, known]
    exact keep _ (fun u newKey same => by cases same; rfl) (by rw [phase]; rfl)
  | missed =>
    simp only [signupStep, phase]
    exact keep _ (fun u newKey same => by cases same) (by rw [phase]; rfl)
  | flushed =>
    simp only [signupStep, phase, commitSignup_taken identityOf signed.db.found]
    exact keep _ (fun u newKey same => by cases same) (by rw [phase]; rfl)
  | returned u newKey =>
    simp only [signupStep, phase]
    exact keep _ (fun u newKey same => signed.returned c (List.mem_of_getElem? found) u newKey
      (phase.trans same))
      (by rw [phase])
  | raised =>
    simp only [signupStep, phase]
    exact keep _ (fun u newKey same => by cases same) (by rw [phase])

theorem Racing.next {s : Signups} (absent : db₀.users.get? identity = none)
    (racing : Racing settings rt db₀ identity s)
    {e : SignupEvent} (isFor : e.IsFor rt db₀ identity) :
      Racing settings rt db₀ identity ((signups settings rt).next s e) := by
  cases e with
  | begin args =>
    refine ⟨forall_mem_concat racing.ours isFor, ?_⟩
    cases racing.state with
    | inl unsigned => exact .inl ⟨unsigned.db, forall_mem_concat unsigned.pending rfl⟩
    | inr signed =>
      obtain ⟨user, db, returned, fresh⟩ := signed
      refine .inr ⟨user, db, forall_mem_concat returned (fun u newKey same => by cases same), ?_⟩
      change ∃! i, Signups.Keyed { s with calls := s.calls ++ [{ args with }] } i
      simp only [keyed_append]
      exact fresh
  | proceed i =>
    change Racing settings rt db₀ identity (s.proceed settings rt i)
    cases found : s.calls[i]? with
    | none =>
      rw [proceed_none found]
      exact racing
    | some c =>
      obtain ⟨identityOf, fresh⟩ := racing.ours c (List.mem_of_getElem? found)
      constructor
      · rw [proceed_some found]
        refine forall_mem_set racing.ours ?_
        exact ⟨identityOf, fresh⟩
      · cases racing.state with
        | inl unsigned => exact unsigned.proceed absent found identityOf fresh
        | inr signed =>
          obtain ⟨user, signed⟩ := signed
          exact .inr ⟨user, signed.proceed found identityOf⟩

/-! ## Calls that raise -/

/-- A call commits only while the identity is not taken. -/
def Signups.untaken (s : Signups) : SignupEvent → Bool
  | .proceed i =>
    match s.calls[i]? with
    | some { phase := .flushed, provider, subject, .. } => !s.db.users.contains (provider, subject)
    | _ => true
  | .begin _ => true

def Signups.Quiet (s : Signups) : Prop := ∀ c ∈ s.calls, c.phase.isRaised = false

theorem Racing.quiet_next {s : Signups} (absent : db₀.users.get? identity = none)
    (racing : Racing settings rt db₀ identity s)
    {e : SignupEvent} (isFor : e.IsFor rt db₀ identity) :
    ((signups settings rt).next s e).Quiet ↔ s.Quiet ∧ s.untaken e = true := by
  cases e with
  | begin args =>
    rw [Signups.untaken, and_iff_left rfl]
    exact ⟨fun quiet c member => quiet c (List.mem_append_left _ member),
      fun quiet => forall_mem_concat quiet rfl⟩
  | proceed i =>
    change (s.proceed settings rt i).Quiet ↔ _
    cases found : s.calls[i]? with
    | none =>
      rw [proceed_none found, Signups.untaken, found]
      exact (and_iff_left rfl).symm
    | some c =>
      obtain ⟨identityOf, fresh⟩ := racing.ours c (List.mem_of_getElem? found)
      rw [proceed_some found, Signups.Quiet, Signups.Quiet, List.set_eq_modify]
      refine forall_mem_modify found ?_
      rw [Signups.untaken, found]
      obtain ⟨args, phase⟩ := c
      cases phase with
      | flushed =>
        change (signupStep settings rt s.db ⟨args, .flushed⟩).1.isRaised = false ↔
          false = false ∧ (!s.db.users.contains (args.provider, args.subject)) = true
        cases racing.state with
        | inl unsigned =>
          obtain ⟨db, user, newKey, committed, -⟩ :=
            commitSignup_new settings identityOf absent fresh
          have free : db₀.users.contains (args.provider, args.subject) = false := by
            rw [Dict.contains, identityOf, absent, Option.isSome_none]
          simp [signupStep, unsigned.db, committed, free, SignupPhase.isRaised]
        | inr signed =>
          obtain ⟨user, signed⟩ := signed
          have taken : s.db.users.contains (args.provider, args.subject) = true := by
            rw [Dict.contains, identityOf, signed.db.found, Option.isSome_some]
          simp [signupStep, commitSignup_taken identityOf signed.db.found, taken,
            SignupPhase.isRaised]
      | started =>
        have step : (signupStep settings rt s.db ⟨args, .started⟩).1.isRaised = false := by
          simp only [signupStep]
          split <;> rfl
        rw [step]
        exact ⟨fun _ => ⟨rfl, rfl⟩, fun _ => rfl⟩
      | missed => simp [signupStep, SignupPhase.isRaised]
      | returned user newKey => simp [signupStep, SignupPhase.isRaised]
      | raised => simp [signupStep, SignupPhase.isRaised]

/-! ## Every interleaving -/

theorem racing_start : Racing settings rt db₀ identity { db := db₀ } := ⟨nofun, .inl ⟨rfl, nofun⟩⟩

/-- Calls of one identity that is not signed up yet, in any interleaving, all returned or
raised: the identity's organisation, user and grant are there once. -/
theorem signedUp_of_done (absent : db₀.users.get? identity = none) {es : List SignupEvent}
    (isFor : ∀ e ∈ es, e.IsFor rt db₀ identity)
    (some_ : ((signups settings rt).exec { db := db₀ } es).calls ≠ [])
    (done : ∀ c ∈ ((signups settings rt).exec { db := db₀ } es).calls, c.phase.isPending = false) :
    ∃ user, Signed settings db₀ identity ((signups settings rt).exec { db := db₀ } es) user := by
  have racing : Racing settings rt db₀ identity ((signups settings rt).exec { db := db₀ } es) :=
    Machine.Meets.invariant (fun s e racing isFor => racing.next absent isFor) racing_start
      (Machine.meets_of_mem (fun _ => isFor) _)
  cases racing.state with
  | inr signed => exact signed
  | inl unsigned =>
    obtain ⟨c, rest, calls⟩ := List.exists_cons_of_ne_nil some_
    have member : c ∈ ((signups settings rt).exec { db := db₀ } es).calls :=
      calls ▸ List.mem_cons_self
    exact absurd ((unsigned.pending c member).symm.trans (done c member)) (by decide)

/-- All calls return the one user, one of them with a fresh key, exactly when no call commits
after the identity was taken. -/
theorem signup_idempotent_iff (absent : db₀.users.get? identity = none) {es : List SignupEvent}
    (isFor : ∀ e ∈ es, e.IsFor rt db₀ identity)
    (some_ : ((signups settings rt).exec { db := db₀ } es).calls ≠ [])
    (done : ∀ c ∈ ((signups settings rt).exec { db := db₀ } es).calls, c.phase.isPending = false) :
    Idempotent settings db₀ identity ((signups settings rt).exec { db := db₀ } es) ↔
      (signups settings rt).Meets (fun s e => s.untaken e = true) { db := db₀ } es := by
  have start : Signups.Quiet { db := db₀ } := fun c member => absurd member List.not_mem_nil
  have preserved : ∀ s e, Racing settings rt db₀ identity s → SignupEvent.IsFor rt db₀ identity e →
      Racing settings rt db₀ identity ((signups settings rt).next s e) :=
        fun s e racing isFor => racing.next absent isFor
  have quiet : ((signups settings rt).exec { db := db₀ } es).Quiet ↔
      Signups.Quiet { db := db₀ } ∧
        (signups settings rt).Meets (fun s e => s.untaken e = true) { db := db₀ } es :=
    Machine.exec_iff preserved
      (fun s e racing isFor => racing.quiet_next absent isFor) racing_start isFor
  rw [and_iff_right start] at quiet
  rw [← quiet]
  obtain ⟨user, signed⟩ := signedUp_of_done absent isFor some_ done
  constructor
  · intro idempotent c member
    obtain ⟨user', -, returned⟩ := idempotent.user
    obtain ⟨newKey, phase⟩ := returned c member
    rw [phase]
    rfl
  · intro none
    refine ⟨⟨user, signed.db, fun c member => ?_⟩, signed.fresh⟩
    cases phase : c.phase with
    | returned u newKey => exact ⟨newKey, by rw [signed.returned c member u newKey phase]⟩
    | raised =>
      have raised := none c member
      rw [phase] at raised
      cases raised
    | _ =>
      have pending := done c member
      rw [phase] at pending
      cases pending

end Races

def firstSignup : SignupArgs :=
  { provider := "github", subject := "1", fresh := ⟨"org1", "user1", "key1", "t1"⟩ }

def secondSignup : SignupArgs :=
  { provider := "github", subject := "1", fresh := ⟨"org2", "user2", "key2", "t2"⟩ }

theorem newIn_empty (rt : Runtime) (fresh : FreshIds) : fresh.NewIn rt {} := ⟨rfl, rfl, rfl, rfl⟩

/-- A second sign-in after the first. -/
theorem signup_idempotent_sequential :
    let calls :=
      [.begin firstSignup, .proceed 0, .proceed 0, .proceed 0, .begin secondSignup, .proceed 1]
    Idempotent {} {} ("github", "1") ((signups {} plainRuntime).exec { db := {} } calls) := by
  intro calls
  have isFor : ∀ e ∈ calls, e.IsFor plainRuntime {} ("github", "1") := by
    simp [calls, SignupEvent.IsFor, firstSignup, secondSignup, newIn_empty]
  exact (signup_idempotent_iff rfl isFor (by decide +kernel) (by decide +kernel)).2
    (by decide +kernel)

/-- Two callbacks of one login: the one that commits second raises. -/
theorem overlapping_signup_raises :
    let calls :=
      [.begin firstSignup, .begin secondSignup, .proceed 0, .proceed 1, .proceed 0, .proceed 1,
        .proceed 0, .proceed 1]
    ¬ Idempotent {} {} ("github", "1") ((signups {} plainRuntime).exec { db := {} } calls) := by
  intro calls idempotent
  have second : (((signups {} plainRuntime).exec { db := {} } calls).calls[1]?).map
    (·.phase.isRaised) = some true := by
    decide +kernel
  obtain ⟨c, there, raised⟩ := Option.map_eq_some_iff.1 second
  obtain ⟨user, -, returned⟩ := idempotent.user
  obtain ⟨newKey, phase⟩ := returned c (List.mem_of_getElem? there)
  rw [phase] at raised
  cases raised

end Dexa.Platform
