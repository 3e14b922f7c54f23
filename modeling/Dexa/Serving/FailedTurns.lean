import Dexa.Serving.Evictions

/-! # Turns that raise

`_put` makes the new cache resident before it saves it, and evicts after that.  So a save that
raises leaves the turn in memory, and a generation that raises leaves what `_get` restored.
-/

namespace Dexa.Serving

open Dexa.Core Dexa.Lib

variable {σ α : Type}

inductive TurnOutcome where
  | done (text : String) (info : SessionInfo)
  /-- the stored cache could not be loaded -/
  | loadRaised
  | generationRaised
  | saveRaised
  deriving DecidableEq, Repr

namespace SessionManager

variable (c : Config σ α)

/-- `_put`, where a fault is what a raising `store.save` leaves of the store. -/
def putOrRaise (s : SessionManager σ α) (id : String) (kv : KVCache α) (fault : Option σ) :
    Option Nat × SessionManager σ α :=
  match fault, c.persist with
  | some left, true => (none, { resident := (s.resident.set id kv).moveToEnd id, store := left })
  | _, _ =>
    let (stateBytes, s) := s.put c id kv
    (some stateBytes, s)

/-- `turn`, with what raised. -/
def turnOrRaise (s : SessionManager σ α) (id userText : String) (system : Option String)
    (maxNewTokens : Int) (fault : Option σ) :
    TurnOutcome × SessionManager σ α :=
  match s.get c id with
  | none => (.loadRaised, s)
  | some (cached, resumed, s) =>
    match respond c.backend cached userText system maxNewTokens with
    | none => (.generationRaised, s)
    | some turned =>
      match s.putOrRaise c id turned.newKV fault with
      | (none, s) => (.saveRaised, s)
      | (some stateBytes, s) => (.done turned.text (turned.info id resumed stateBytes), s)

/-- Without a fault this is `turn`. -/
theorem turnOrRaise_none (s : SessionManager σ α) (id userText : String) (system : Option String)
    (maxNewTokens : Int) :
    (s.turn c id userText system maxNewTokens).2 =
      (s.turnOrRaise c id userText system maxNewTokens none).2 ∧
      ∀ text info, (s.turn c id userText system maxNewTokens).1 = some (text, info) ↔
        (s.turnOrRaise c id userText system maxNewTokens none).1 = .done text info := by
  rw [turn, turnOrRaise]
  cases s.get c id with
  | none => exact ⟨rfl, fun _ _ => by simp⟩
  | some got =>
    obtain ⟨cached, resumed, s'⟩ := got
    dsimp only
    cases respond c.backend cached userText system maxNewTokens with
    | none => exact ⟨rfl, fun _ _ => by simp⟩
    | some turned =>
      refine ⟨rfl, fun text info => ?_⟩
      simp only [putOrRaise, Option.some.injEq, Prod.mk.injEq, TurnOutcome.done.injEq]

/-- The cache that the next turn of a session will use; the outer `none` is a load that raises. -/
def cacheFor (s : SessionManager σ α) (id : String) : Option (Option (KVCache α)) :=
  (s.get c id).map Prod.fst

/-- How many sessions are in memory once a turn has got its cache. -/
def residentForTurn (s : SessionManager σ α) (id : String) : Nat :=
  if s.resident.contains id || !(c.persist && c.store.has s.store id) then s.resident.size
    else s.resident.size + 1

end SessionManager

variable (c : Config σ α) (s : SessionManager σ α) (id userText : String) (system : Option String)
  (maxNewTokens : Int)
  (fault : Option σ)

/-- If generation or the save raises, every session goes on from the cache it had, and no more
    sessions are in memory than may be. -/
def LeavesSession : Prop :=
  let result := s.turnOrRaise c id userText system maxNewTokens fault
  result.1 = .generationRaised ∨ result.1 = .saveRaised →
    result.2.cacheFor c id = s.cacheFor c id ∧
      (∀ other, other ≠ id → result.2.cacheFor c other = s.cacheFor c other) ∧
      result.2.resident.size ≤ c.keepResident

/-- The save does not raise, and where generation does, what was restored had its place. -/
def FailsEarly : Prop :=
  ∀ cached, s.cacheFor c id = some cached →
    match respond c.backend cached userText system maxNewTokens with
    | none => s.residentForTurn c id ≤ c.keepResident
    | some _ => c.persist = true → fault = none

variable {c s id}

namespace SessionManager

/-- What is resident, then what is stored. -/
theorem cacheFor_eq (s : SessionManager σ α) (id : String) :
    s.cacheFor c id = match s.resident.get? id with
      | some kv => some (some kv)
      | none => if c.persist && c.store.has s.store id then (c.store.load s.store id).map some else some none := by
  rw [cacheFor, SessionManager.get]
  cases s.resident.get? id with
  | some kv => rfl
  | none =>
    dsimp only
    split
    · cases c.store.load s.store id with
      | none => rfl
      | some kv => rfl
    · rfl

/-- `_get` hands out the cache of the session, and moves no session's cache. -/
theorem get_spec {cached : Option (KVCache α)} {resumed : Bool} {s' : SessionManager σ α}
    (got : s.get c id = some (cached, resumed, s')) :
    s.cacheFor c id = some cached ∧ (∀ other, s'.cacheFor c other = s.cacheFor c other) ∧
      s'.resident.size = s.residentForTurn c id := by
  have handed : s.cacheFor c id = some cached := by rw [cacheFor, got, Option.map_some]
  refine ⟨handed, ?_⟩
  rw [SessionManager.get] at got
  cases here : s.resident.get? id with
  | some kv =>
    rw [here] at got
    cases got
    refine ⟨fun other => ?_, ?_⟩
    · rw [cacheFor_eq, cacheFor_eq, Dict.get?_moveToEnd]
    · rw [Dict.size_moveToEnd, residentForTurn, Dict.contains, here]
      rfl
  | none =>
    rw [here] at got
    dsimp only at got
    split at got
    · next stored =>
      obtain ⟨kv, loaded, same⟩ := Option.bind_eq_some_iff.1 got
      cases same
      refine ⟨fun other => ?_, ?_⟩
      · rw [cacheFor_eq, cacheFor_eq, Dict.get?_set]
        by_cases own : id = other
        · subst own
          rw [if_pos rfl, here]
          simp only [stored, if_true, loaded, Option.map_some]
        · rw [if_neg own]
      · rw [Dict.size_set_new kv here, residentForTurn, Dict.contains, here, stored]
        rfl
    · next fresh =>
      cases got
      refine ⟨fun _ => rfl, ?_⟩
      rw [residentForTurn, Bool.eq_false_iff.2 fresh, Bool.not_false, Bool.or_true]
      rfl

theorem putOrRaise_saved (s : SessionManager σ α) (id : String) (kv : KVCache α) {fault : Option σ}
    (saves : c.persist = true → fault = none) :
    s.putOrRaise c id kv fault = (some (s.put c id kv).1, (s.put c id kv).2) := by
  cases fault with
  | none => rfl
  | some left =>
    have memory : c.persist = false := Bool.eq_false_iff.2 fun persist => nomatch saves persist
    simp only [putOrRaise, memory]

/-- A save that raises leaves the new cache resident. -/
theorem cacheFor_saveRaised {kv : KVCache α} {left : σ} :
    cacheFor c
      ({ resident := (s.resident.set id kv).moveToEnd id, store := left } : SessionManager σ α) id =
      some (some kv) := by
  rw [cacheFor_eq, Dict.get?_moveToEnd, Dict.get?_set_self]

end SessionManager

/-- A turn that raises leaves the session as it was if and only if it is not the save that raises,
    and the memory had room for what a failing turn restored. -/
theorem leavesSession_iff (c : Config σ α) (s : SessionManager σ α) (id userText : String)
    (system : Option String)
    (maxNewTokens : Int) (fault : Option σ) :
    LeavesSession c s id userText system maxNewTokens fault ↔
      FailsEarly c s id userText system maxNewTokens fault := by
  rw [LeavesSession, FailsEarly, SessionManager.turnOrRaise]
  cases got : s.get c id with
  | none =>
    have unloadable : s.cacheFor c id = none := by
      rw [SessionManager.cacheFor, got, Option.map_none]
    rw [unloadable]
    exact iff_of_true nofun nofun
  | some result =>
    obtain ⟨cached, resumed, s'⟩ := result
    obtain ⟨handed, same, size⟩ := SessionManager.get_spec got
    rw [handed]
    simp only [Option.some.injEq, forall_eq']
    cases done : respond c.backend cached userText system maxNewTokens with
    | none =>
      simp only [true_or, forall_const, same, handed, size, implies_true, true_and]
    | some turned =>
      have unlike : some turned.newKV ≠ cached := by
        rintro rfl
        obtain ⟨n, before, -, after⟩ := turns_respond done
        rw [before, Option.some.injEq] at after
        omega
      by_cases raises : c.persist = true ∧ fault ≠ none
      · obtain ⟨persist, faulty⟩ := raises
        obtain ⟨left, rfl⟩ := Option.ne_none_iff_exists'.1 faulty
        simp only [SessionManager.putOrRaise, persist]
        refine iff_of_false (fun leaves => ?_) (by simp)
        have kept := (leaves (.inr trivial)).1
        rw [SessionManager.cacheFor_saveRaised, Option.some.injEq] at kept
        exact unlike kept
      · have saved := SessionManager.putOrRaise_saved s' id turned.newKV fun persist =>
          not_not.1 fun faulty => raises ⟨persist, faulty⟩
        dsimp only
        rw [saved]
        refine iff_of_true (fun raised => ?_)
          (fun persist => not_not.1 fun faulty => raises ⟨persist, faulty⟩)
        obtain h | h := raised <;> cases h

/-- A manager with room for one session, on a backend that refuses to generate nothing. -/
def oneStored : Config (Dict String (KVCache Unit)) Unit :=
  { backend := { countingBackend with
      generateAndExtend := fun context prompt maxNewTokens =>
        if maxNewTokens = 0 then none
          else countingBackend.generateAndExtend context prompt maxNewTokens }
    store := dictStore Unit
    keepResident := 1 }

/-- One turn of `a`, and `b` after it. -/
def afterOne : SessionManager (Dict String (KVCache Unit)) Unit :=
  (SessionManager.machine oneStored).exec { resident := .empty, store := .empty }
  [.turn "a" "hi" none 1]

def afterTwo : SessionManager (Dict String (KVCache Unit)) Unit :=
  (SessionManager.machine oneStored).next afterOne (.turn "b" "hi" none 1)

/-- The save of the second turn of `a` raises, and the third will go on from it; a failing turn of
    `a` after one of `b` leaves both in memory. -/
theorem failed_turns_leave_traces :
    (afterOne.turnOrRaise oneStored "a" "again" none 1 (some afterOne.store)).1 = .saveRaised ∧
      (afterOne.cacheFor oneStored "a").map turnsOf = some (some 1) ∧
      ((afterOne.turnOrRaise oneStored "a" "again" none 1
        (some afterOne.store)).2.cacheFor oneStored "a").map turnsOf =
        some (some 2) ∧
      ¬ LeavesSession oneStored afterOne "a" "again" none 1 (some afterOne.store) ∧
      (afterTwo.turnOrRaise oneStored "a" "again" none 0 none).1 = .generationRaised ∧
      (afterTwo.turnOrRaise oneStored "a" "again" none 0 none).2.resident.size = 2 ∧
      ¬ LeavesSession oneStored afterTwo "a" "again" none 0 none := by
  have saveRaised : (afterOne.turnOrRaise oneStored "a" "again" none 1 (some afterOne.store)).1 =
    .saveRaised := by
    decide +kernel
  have before : (afterOne.cacheFor oneStored "a").map turnsOf = some (some 1) := by decide +kernel
  have after :
    ((afterOne.turnOrRaise oneStored "a" "again" none 1
    (some afterOne.store)).2.cacheFor oneStored "a").map turnsOf =
      some (some 2) := by decide +kernel
  have generationRaised : (afterTwo.turnOrRaise oneStored "a" "again" none 0 none).1 =
    .generationRaised := by decide +kernel
  have both : (afterTwo.turnOrRaise oneStored "a" "again" none 0 none).2.resident.size = 2 := by
    decide +kernel
  refine ⟨saveRaised, before, after, fun leaves => ?_, generationRaised, both, fun leaves => ?_⟩
  · rw [(leaves (.inr saveRaised)).1, before] at after
    exact absurd after (by decide)
  · have few := (leaves (.inl generationRaised)).2.2
    rw [both] at few
    exact absurd few (by decide)

end Dexa.Serving
