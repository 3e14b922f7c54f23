import Dexa.Serving.SessionContinuity

/-! # Evictions without a store

`_put` evicts the least recently used sessions, "already persisted".  Without `persist` they are
not, and the next turn of an evicted session starts a new conversation under its id.
-/

namespace Dexa.Serving

open Dexa.Core Dexa.Lib

variable {σ α : Type}

section Respond

variable {backend : Backend α} {cached : Option (KVCache α)} {userText : String}
  {system : Option String}
  {maxNewTokens : Int} {turned : Turned α}

/-- A turn counts on from the cache, and writes its count into the new one. -/
theorem turns_respond (done : respond backend cached userText system maxNewTokens = some turned) :
    ∃ n, turnsOf cached = some n ∧ turned.turns = n + 1 ∧
      turnsOf (some turned.newKV) = some (n + 1) := by
  have counted : ∀ (grown : KVCache α) (n : Int),
      turnsOf (some { grown with metadata := grown.metadata.set "turns" (.int n) }) = some n := by
    intro grown n
    simp [turnsOf]
  cases cached with
  | none =>
    simp only [respond, turnsOf, Option.bind_eq_bind, Option.bind_some, Option.bind_eq_some_iff,
      Option.pure_def,
      Option.some.injEq] at done
    obtain ⟨kv0, -, ⟨response, grown⟩, -, rfl⟩ := done
    exact ⟨0, rfl, rfl, counted grown _⟩
  | some kv =>
    simp only [respond, Option.bind_eq_bind, Option.bind_eq_some_iff, Option.pure_def,
      Option.some.injEq] at done
    obtain ⟨n, before, ⟨response, grown⟩, -, rfl⟩ := done
    exact ⟨n, before, rfl, counted grown _⟩

end Respond

namespace SessionManager

variable {c : Config σ α} (persist : c.persist = false)
include persist

theorem step_turn (s : SessionManager σ α) (id userText : String) (system : Option String)
    (maxNewTokens : Int) :
    s.step c (.turn id userText system maxNewTokens) =
      match respond c.backend (s.resident.get? id) userText system maxNewTokens with
      | none => (.raised, { s with resident := s.resident.moveToEnd id })
      | some turned => (.turned turned.text (turned.info id false (turned.newKV.nbytes 4)),
          { s with resident := (((s.resident.moveToEnd id).set id turned.newKV).moveToEnd id).trim c.keepResident }) := by
  have got :
    s.get c id = some (s.resident.get? id, false,
    { s with resident := s.resident.moveToEnd id }) := by
    rw [SessionManager.get]
    cases here : s.resident.get? id with
    | some kv => rfl
    | none =>
      have same : s.resident.moveToEnd id = s.resident := by
        rw [Dict.moveToEnd, here, Option.elim_none]
      rw [persist, Bool.false_and, same]
      rfl
  simp only [step, turn, got]
  cases respond c.backend (s.resident.get? id) userText system maxNewTokens with
  | none => rfl
  | some turned => simp [put, persist]

end SessionManager

/-- A turn of the session that goes through, with what it reports. -/
def Completes (c : Config σ α) (s : SessionManager σ α) (op : Op) (id : String)
    (info : SessionInfo) : Prop :=
  ∃ text, (SessionManager.machine c).out s op = .turned text info ∧ info.sessionId = id

/-- Two turns of a session that go through, with no such turn and no drop of it between them. -/
structure NextTurn (c : Config σ α) (s : SessionManager σ α) (id : String) (op : Op) (mid : List Op)
    (op' : Op)
    (info info' : SessionInfo) : Prop where
  first : Completes c s op id info
  between : ∀ p ∈ (SessionManager.machine c).trace ((SessionManager.machine c).next s op) mid,
    p.1 ≠ .drop id ∧ ∀ text i, p.2 = .turned text i → i.sessionId ≠ id
  second : Completes c ((SessionManager.machine c).exec s (op :: mid)) op' id info'

/-- The cached token ids of a session. -/
def heldTokens (s : SessionManager σ α) (id : String) : List Int :=
  (s.resident.get? id).elim [] tokensOf

/-- Each turn counts on from the one before it and extends its tokens. -/
def Continues (c : Config σ α) (start : SessionManager σ α) (ops : List Op) : Prop :=
  ∀ before op mid op' after id info info', ops = before ++ op :: mid ++ op' :: after →
    NextTurn c ((SessionManager.machine c).exec start before) id op mid op' info info' →
      info'.turns = info.turns + 1 ∧
        heldTokens ((SessionManager.machine c).exec start (before ++ [op])) id <+:
          heldTokens ((SessionManager.machine c).exec start (before ++ op :: mid ++ [op'])) id

/-- Each turn that follows another finds its session in memory. -/
def StillResident (c : Config σ α) (start : SessionManager σ α) (ops : List Op) : Prop :=
  ∀ before op mid op' after id info info', ops = before ++ op :: mid ++ op' :: after →
    NextTurn c ((SessionManager.machine c).exec start before) id op mid op' info info' →
      ((SessionManager.machine c).exec start (before ++ op :: mid)).resident.contains id = true

section Runs

variable {c : Config σ α} (persist : c.persist = false)

/-- Every resident cache counts its turns. -/
def Counted (s : SessionManager σ α) : Prop :=
  ∀ id kv, s.resident.get? id = some kv → ∃ n, turnsOf (some kv) = some n ∧ 1 ≤ n

theorem Counted.set {resident : Dict String (KVCache α)} {store : σ}
    (counted : Counted (α := α) ⟨resident, store⟩) {id : String}
    {kv : KVCache α} (here : ∃ n, turnsOf (some kv) = some n ∧ 1 ≤ n) :
      Counted (α := α) ⟨resident.set id kv, store⟩ :=
  Dict.forall_get?_set (P := fun _ kv => ∃ n, turnsOf (some kv) = some n ∧ 1 ≤ n) counted here

include persist

theorem completes_turn (positive : 0 < c.keepResident) {s : SessionManager σ α} {op : Op}
    {id : String} {info : SessionInfo}
    (completes : Completes c s op id info) :
    ∃ userText system maxNewTokens turned,
      respond c.backend (s.resident.get? id) userText system maxNewTokens = some turned ∧
      info.turns = turned.turns ∧ ((SessionManager.machine c).next s op).resident.get? id =
        some turned.newKV := by
  obtain ⟨text, replied, rfl⟩ := completes
  cases op with
  | turn id userText system maxNewTokens =>
    simp only [SessionManager.machine, Machine.out, Machine.next,
      SessionManager.step_turn persist] at replied ⊢
    cases done : respond c.backend (s.resident.get? id) userText system maxNewTokens with
    | none =>
      rw [done] at replied
      cases replied
    | some turned =>
      rw [done] at replied
      cases replied
      exact ⟨userText, system, maxNewTokens, turned, done, rfl,
        Dict.get?_trim_newest positive (Dict.get?_set_self ..)⟩
  | exists? | drop | restart => cases replied

/-- Any other step leaves the session as it is, or evicts it. -/
theorem get?_next {s : SessionManager σ α} {op : Op} {id : String} (kept : op ≠ .drop id)
    (other : ∀ text i, (SessionManager.machine c).out s op = .turned text i → i.sessionId ≠ id)
    {kv : KVCache α}
    (held : s.resident.get? id = some kv ∨ s.resident.get? id = none) :
    ((SessionManager.machine c).next s op).resident.get? id = some kv ∨
      ((SessionManager.machine c).next s op).resident.get? id = none := by
  cases op with
  | turn id' userText system maxNewTokens =>
    simp only [SessionManager.machine, Machine.out, Machine.next,
      SessionManager.step_turn persist] at other ⊢
    cases done : respond c.backend (s.resident.get? id') userText system maxNewTokens with
    | none =>
      dsimp only
      rwa [Dict.get?_moveToEnd]
    | some turned =>
      rw [done] at other
      have apart : id' ≠ id := other _ _ rfl
      dsimp only
      cases found :
        (((((s.resident.moveToEnd id').set id' turned.newKV).moveToEnd id').trim c.keepResident).get? id) with
      | none => exact .inr rfl
      | some kv' =>
        have before := Dict.get?_of_trim found
        rw [Dict.get?_moveToEnd, Dict.get?_set_ne _ _ apart, Dict.get?_moveToEnd] at before
        rwa [before] at held
  | exists? id' => exact held
  | drop id' =>
    have apart : id' ≠ id := fun same => kept (congrArg Op.drop same)
    change (s.resident.erase id').get? id = some kv ∨ (s.resident.erase id').get? id = none
    rwa [Dict.get?_erase_ne _ apart]
  | restart => exact .inr rfl

theorem counted_next {s : SessionManager σ α} (counted : Counted s) (op : Op) :
    Counted ((SessionManager.machine c).next s op) := by
  intro id kv found
  cases op with
  | turn id' userText system maxNewTokens =>
    simp only [SessionManager.machine, Machine.next, SessionManager.step_turn persist] at found
    cases done : respond c.backend (s.resident.get? id') userText system maxNewTokens with
    | none =>
      rw [done] at found
      rw [Dict.get?_moveToEnd] at found
      exact counted id kv found
    | some turned =>
      rw [done] at found
      have before := Dict.get?_of_trim found
      rw [Dict.get?_moveToEnd, Dict.get?_set] at before
      split at before
      · obtain rfl := Option.some.inj before
        obtain ⟨n, cached, -, counts⟩ := turns_respond done
        refine ⟨n + 1, counts, ?_⟩
        cases here : s.resident.get? id' with
        | none =>
          rw [here] at cached
          cases cached
          decide
        | some old =>
          obtain ⟨m, counts', positive⟩ := counted id' old here
          rw [here, counts'] at cached
          cases cached
          omega
      · rw [Dict.get?_moveToEnd] at before
        exact counted id kv before
  | exists? id' => exact counted id kv found
  | drop id' =>
    change (s.resident.erase id').get? id = some kv at found
    rw [Dict.get?_erase] at found
    split at found
    · cases found
    · exact counted id kv found
  | restart => cases found

/-- Until its next turn a session keeps its cache, unless it is evicted. -/
theorem get?_between {s : SessionManager σ α} {id : String} {kv : KVCache α} {mid : List Op}
    (held : s.resident.get? id = some kv ∨ s.resident.get? id = none)
    (between : ∀ p ∈ (SessionManager.machine c).trace s mid, p.1 ≠ .drop id ∧ ∀ text i,
      p.2 = .turned text i → i.sessionId ≠ id) :
    ((SessionManager.machine c).exec s mid).resident.get? id = some kv ∨
      ((SessionManager.machine c).exec s mid).resident.get? id = none := by
  induction mid generalizing s with
  | nil => exact held
  | cons op mid ih =>
    rw [Machine.trace, List.forall_mem_cons] at between
    obtain ⟨⟨kept, other⟩, rest⟩ := between
    exact ih (get?_next persist kept other held) rest

/-- Of two turns that follow each other, the second continues the first just where it finds the
    session in memory. -/
theorem continues_iff_resident (positive : 0 < c.keepResident) (folds : Folds c.backend)
    {s : SessionManager σ α}
    (counted : Counted s) {id : String} {op op' : Op} {mid : List Op} {info info' : SessionInfo}
    (turns : NextTurn c s id op mid op' info info') :
    (info'.turns = info.turns + 1 ∧ heldTokens ((SessionManager.machine c).next s op) id <+:
      heldTokens
        ((SessionManager.machine c).next ((SessionManager.machine c).exec s (op :: mid)) op') id) ↔
      ((SessionManager.machine c).exec s (op :: mid)).resident.contains id = true := by
  obtain ⟨_, _, _, first, done, reported, here⟩ := completes_turn persist positive turns.first
  obtain ⟨_, _, _, second, done', reported', here'⟩ := completes_turn persist positive turns.second
  obtain ⟨n, before, counts, after⟩ := turns_respond done
  obtain ⟨m, before', counts', -⟩ := turns_respond done'
  have grows := tokensOf_respond folds done'
  have held := get?_between persist (.inl here) turns.between
  rw [← Machine.exec_cons] at held
  rw [heldTokens, heldTokens, here, here', reported, reported', counts, counts', Dict.contains]
  cases held with
  | inl same =>
    rw [same] at before' grows ⊢
    rw [after] at before'
    cases before'
    refine iff_of_true ⟨rfl, ?_⟩ rfl
    rw [Option.elim_some, Option.elim_some, grows, Option.elim_some, List.append_assoc]
    exact List.prefix_append ..
  | inr gone =>
    rw [gone] at before' ⊢
    cases before'
    refine iff_of_false (fun continues => ?_) Bool.false_ne_true
    have first_turn : 1 ≤ n + 1 := by
      obtain ⟨k, stored, atLeast⟩ := counted_next persist counted op id first.newKV here
      rw [after] at stored
      cases stored
      exact atLeast
    have := continues.1
    omega

end Runs

/-- In a run of a manager without persistence, each turn of a session continues the one before it
    if and only if no session is turned to again after its eviction. -/
theorem continues_iff_stillResident (c : Config σ α) (persist : c.persist = false)
    (positive : 0 < c.keepResident)
    (folds : Folds c.backend) (store : σ) (ops : List Op) :
    Continues c { resident := .empty, store := store } ops ↔
      StillResident c { resident := .empty, store := store } ops := by
  have counted :
    ∀ before,
    Counted ((SessionManager.machine c).exec { resident := .empty, store := store } before) := by
    intro before
    have preserved : ∀ s op, Counted s → Counted ((SessionManager.machine c).next s op) :=
      fun s op counted => counted_next persist counted op
    exact Machine.invariant_exec preserved (fun id kv found => by cases found) before
  have pair : ∀ before op mid op' id info info',
      NextTurn c
        ((SessionManager.machine c).exec { resident := .empty, store := store } before) id op mid op' info info' → _ :=
    fun before _ _ _ _ _ _ turns => continues_iff_resident persist positive folds
      (counted before) turns
  simp only [← Machine.exec_snoc, ← Machine.exec_append] at pair
  constructor
  · intro continues before op mid op' after id info info' split turns
    exact (pair before op mid op' id info info' turns).1
      (continues before op mid op' after id info info' split turns)
  · intro resident before op mid op' after id info info' split turns
    exact (pair before op mid op' id info info' turns).2
      (resident before op mid op' after id info info' split turns)

/-- A manager in memory only, with room for one session. -/
def oneResident : Config (Dict String (KVCache Unit)) Unit :=
  { backend := countingBackend, store := dictStore Unit, persist := false, keepResident := 1 }

theorem continues_iff_stillResident_oneResident :
    Continues oneResident { resident := .empty, store := .empty } [.turn "a" "hi" none 1,
      .turn "a" "again" none 1] ↔
      StillResident oneResident { resident := .empty, store := .empty } [.turn "a" "hi" none 1,
        .turn "a" "again" none 1] :=
  continues_iff_stillResident oneResident rfl Nat.one_pos folds_countingBackend .empty _

/-- A turn of another session evicts the first, whose second turn counts as its first. -/
theorem evicted_session_restarts :
    (((SessionManager.machine oneResident).trace { resident := .empty, store := .empty }
        [.turn "a" "hi" none 1, .turn "b" "hi" none 1, .turn "a" "again" none 1]).map fun p =>
      match p.2 with
      | .turned _ info => (info.sessionId, info.turns)
      | _ => ("", 0)) = [("a", 1), ("b", 1), ("a", 1)] ∧
    ¬ Continues oneResident { resident := .empty, store := .empty }
      [.turn "a" "hi" none 1, .turn "b" "hi" none 1, .turn "a" "again" none 1] := by
  refine ⟨by decide +kernel, fun continues => ?_⟩
  have counts :=
    (continues [] (.turn "a" "hi" none 1) [.turn "b" "hi" none 1]
      (.turn "a" "again" none 1) [] "a" _ _ rfl
    ⟨⟨_, rfl, rfl⟩, ?_, ⟨_, rfl, rfl⟩⟩).1
  · exact absurd counts (by decide)
  · intro p member
    rw [List.mem_singleton.1 member]
    refine ⟨by decide, fun text i replied => ?_⟩
    cases replied
    decide

end Dexa.Serving
