import Dexa.Edge.SessionDO

/-! # Concurrent turns of one session object

A session should be what its turns since the last delete make it.  It is, as long as no
turn saves over a write that came after its load: two turns that overlap lose the first
one's messages, and a turn that a delete overtakes brings the session back.
-/

namespace Dexa.Edge

open Dexa.Lib
open Dexa.Platform (Json Raised)

/-- The session there was at the last delete or at the start of the run, the turns that
    began after it and succeeded, and the writes seen when it was deleted. -/
structure Ledger where
  base : Option State := none
  turns : List (Json × Json) := []
  deletedAt : Nat := 0

def Ledger.note (l : Ledger) (o : SessionObject) : Event → Ledger
  | .request .delete _ => { base := none, deletedAt := o.writes + 1 }
  | .request _ _ => l
  | .reply i (.ok data) _ =>
    match o.flights[i]? with
    | some f =>
      -- a turn that was in flight when the session was deleted belongs to the old one
      if l.deletedAt ≤ f.seen then
        { l with turns := l.turns ++ [(f.userMsg, message "assistant" (replyContent data))] }
      else l
    | none => l
  | .reply _ _ _ => l

/-- The stored session has every turn of the ledger once, with its two messages adjacent and
    in order, and counts them; without a session or turns there is none. -/
def Ledger.Kept (l : Ledger) (stored : Option State) : Prop :=
  match stored with
  | none => l.base = none ∧ l.turns = []
  | some s =>
    s.messages = (l.base.elim [] State.messages) ++ l.turns.flatMap (fun t => [t.1, t.2]) ∧
      s.turns = l.base.elim 0 State.turns + l.turns.length ∧ (l.base ≠ none ∨ l.turns ≠ [])

theorem Ledger.Kept.turns_eq {l : Ledger} {stored : Option State} (kept : l.Kept stored) :
    stored.elim 0 State.turns = l.base.elim 0 State.turns + l.turns.length := by
  cases stored with
  | none =>
    obtain ⟨base, nothing⟩ := kept
    rw [base, nothing]
    rfl
  | some s => exact kept.2.1

theorem Ledger.Kept.isSome_eq {l : Ledger} {stored : Option State} (kept : l.Kept stored) :
    stored.isSome = (l.base.isSome || !l.turns.isEmpty) := by
  cases stored with
  | none =>
    obtain ⟨base, nothing⟩ := kept
    rw [base, nothing]
    rfl
  | some s =>
    cases kept.2.2 with
    | inl base => simp [Option.isSome_iff_ne_none.2 base]
    | inr turns => simp [turns]

def Event.turnOrDelete : Event → Bool
  | .request (.turn _) _ | .request .delete _ | .reply _ _ _ => true
  | _ => false

/-- A turn saves only if nothing was written since it loaded the session. -/
def SessionObject.upToDate (o : SessionObject) : Event → Bool
  | .reply i (.ok _) _ => (o.flights[i]?).all fun f => f.seen = o.writes
  | _ => true

structure Tracked (l : Ledger) (o : SessionObject) : Prop where
  kept : l.Kept o.stored
  /-- a turn that saw the last write loaded what is stored -/
  loaded : ∀ f ∈ o.flights, f.accumulate = true ∧ f.seen ≤ o.writes ∧
    (f.seen = o.writes → o.stored = some f.s ∨ o.stored = none ∧ f.s.messages = [] ∧ f.s.turns = 0)
  deleted : l.deletedAt ≤ o.writes

theorem Ledger.Kept.append {l : Ledger} {o : SessionObject} {f : Flight} {data : Json} {now : ℚ}
    (kept : l.Kept o.stored)
    (accumulates : f.accumulate = true)
    (loaded : o.stored = some f.s ∨ o.stored = none ∧ f.s.messages = [] ∧ f.s.turns = 0) :
    Ledger.Kept { l with turns := l.turns ++ [(f.userMsg, message "assistant" (replyContent data))] }
      (some (f.saved data now)) := by
  have started : f.s.messages = l.base.elim [] State.messages ++ l.turns.flatMap
    (fun t => [t.1, t.2]) ∧
      f.s.turns = l.base.elim 0 State.turns + l.turns.length := by
    cases loaded with
    | inl stored =>
      rw [stored] at kept
      exact ⟨kept.1, kept.2.1⟩
    | inr fresh =>
      obtain ⟨none, messages, turns⟩ := fresh
      rw [none] at kept
      obtain ⟨base, nothing⟩ := kept
      rw [base, nothing, messages, turns]
      exact ⟨rfl, rfl⟩
  refine ⟨?_, ?_, .inr (by simp)⟩
  · simp [Flight.saved, accumulates, started.1]
  · simp [Flight.saved, started.2, Nat.add_assoc]

theorem Tracked.next {env : Env} {l : Ledger} {o : SessionObject} (tracked : Tracked l o)
    {e : Event}
    (ours : e.turnOrDelete = true) (upToDate : o.upToDate e = true) :
    Tracked (l.note o e) ((sessionDO env).next o e) := by
  obtain ⟨kept, loaded, deleted⟩ := tracked
  cases e with
  | request r now =>
    cases r with
    | turn b =>
      change Tracked l (o.beginTurn env true b now).2
      rw [SessionObject.beginTurn]
      cases begun : beginTurn env o.stored true b now o.writes with
      | error raised => exact ⟨kept, loaded, deleted⟩
      | ok f =>
        obtain ⟨session, accumulates, seen⟩ := beginTurn_ok begun
        refine ⟨kept, ?_, deleted⟩
        intro f' member
        cases List.mem_append.1 member with
        | inl old => exact loaded f' old
        | inr new =>
          obtain rfl := List.mem_singleton.1 new
          refine ⟨accumulates, seen.le, fun _ => ?_⟩
          cases stored : o.stored with
          | none =>
            rw [stored] at session
            exact .inr ⟨rfl, by rw [session]; rfl, by rw [session]; rfl⟩
          | some s =>
            rw [stored] at session
            exact .inl (congrArg some session.symm)
    | delete =>
      refine ⟨⟨rfl, rfl⟩, ?_, Nat.le_refl _⟩
      intro f member
      obtain ⟨accumulates, seen, -⟩ := loaded f member
      exact ⟨accumulates, Nat.le_succ_of_le seen,
        fun now => absurd (now ▸ seen) (Nat.not_succ_le_self _)⟩
    | init b => cases ours
    | info => cases ours
    | forward b => cases ours
  | reply i outcome now =>
    change Tracked _ (o.finishTurn i outcome now).2
    rw [SessionObject.finishTurn]
    cases found : o.flights[i]? with
    | none =>
      cases outcome with
      | ok data => simpa only [Ledger.note, found] using ⟨kept, loaded, deleted⟩
      | status code => exact ⟨kept, loaded, deleted⟩
      | raised => exact ⟨kept, loaded, deleted⟩
    | some f =>
      have others : ∀ f' ∈ o.flights.eraseIdx i, f' ∈ o.flights :=
        fun f' member => List.mem_of_mem_eraseIdx member
      cases outcome with
      | status code => exact ⟨kept, fun f' member => loaded f' (others f' member), deleted⟩
      | raised => exact ⟨kept, fun f' member => loaded f' (others f' member), deleted⟩
      | ok data =>
        have seen : f.seen = o.writes := by simpa [SessionObject.upToDate, found] using upToDate
        obtain ⟨accumulates, -, here⟩ := loaded f (List.mem_of_getElem? found)
        have counted : l.deletedAt ≤ f.seen := seen ▸ deleted
        simp only [Ledger.note, found, if_pos counted]
        refine ⟨kept.append accumulates (here seen), ?_, Nat.le_succ_of_le deleted⟩
        intro f' member
        obtain ⟨accumulates', seen', -⟩ := loaded f' (others f' member)
        exact ⟨accumulates', Nat.le_succ_of_le seen',
          fun now => absurd (now ▸ seen') (Nat.not_succ_le_self _)⟩

/-- An object nothing happens to yet. -/
def SessionObject.idle (id : String) (stored : Option State) : SessionObject := { id, stored }

theorem tracked_idle (id : String) (stored : Option State) : Tracked { base := stored }
    (.idle id stored) := by
  refine ⟨?_, fun f member => (by cases member), Nat.le_refl _⟩
  cases stored with
  | none => exact ⟨rfl, rfl⟩
  | some s => exact ⟨(List.append_nil _).symm, rfl, .inl (Option.some_ne_none s)⟩

/-- In every run of turns and deletes in which no turn saves over a write that came after
    its load, the stored session is at every point what its turns since the last delete
    make it. -/
theorem turns_kept (env : Env) (id : String) (stored : Option State) {es : List Event}
    (ours : ∀ e ∈ es, e.turnOrDelete = true)
    (upToDate : (sessionDO env).Meets (fun o e => o.upToDate e = true) (.idle id stored) es) :
    ((sessionDO env).fold Ledger.note { base := stored } (.idle id stored) es).Kept
      ((sessionDO env).exec (.idle id stored) es).stored := by
  have meets : (sessionDO env).Meets (fun o e => e.turnOrDelete = true ∧ o.upToDate e = true)
    (.idle id stored) es :=
    Machine.Meets.and (Machine.meets_of_mem (fun _ => ours) _) upToDate
  have tracked : Tracked _ _ :=
    Machine.Meets.fold (fun l o e (tracked : Tracked l o) cond => tracked.next cond.1 cond.2)
      (tracked_idle id stored) meets
  exact tracked.kept

def userTurn (text : String) : Event :=
  .request (.turn { content := some (.str text), orgId := some "org" }) 0

def answered (i : Nat) (text : String) : Event :=
  .reply i (.ok (.obj [("choices", .arr [.obj [("message", .obj [("content", .str text)])]])])) 1

/-- A turn, a delete and another turn. -/
theorem turns_kept_across_delete :
    let es := [userTurn "a", answered 0 "b", .request .delete 2, userTurn "c", answered 0 "d"]
    ((sessionDO sampleEnv).fold Ledger.note {} (.idle "s" none) es).Kept
        ((sessionDO sampleEnv).exec (.idle "s" none) es).stored ∧
      ((sessionDO sampleEnv).exec (.idle "s" none) es).stored.map State.turns = some 1 :=
  ⟨turns_kept sampleEnv "s" none (by decide) (by decide +kernel), by decide +kernel⟩

/-- Two overlapping turns leave one of them in the session, and a turn that a delete
    overtakes brings the session back. -/
theorem overlapping_turns_not_kept :
    let lost := [userTurn "a", userTurn "c", answered 0 "b", answered 0 "d"]
    let revived := [userTurn "a", .request .delete 1, answered 0 "b"]
    ¬ ((sessionDO sampleEnv).fold Ledger.note {} (.idle "s" none) lost).Kept
        ((sessionDO sampleEnv).exec (.idle "s" none) lost).stored ∧
      ¬ ((sessionDO sampleEnv).fold Ledger.note {} (.idle "s" none) revived).Kept
        ((sessionDO sampleEnv).exec (.idle "s" none) revived).stored := by
  refine ⟨fun kept => ?_, fun kept => ?_⟩
  · exact absurd kept.turns_eq (by decide +kernel)
  · exact absurd kept.isSome_eq (by decide +kernel)

end Dexa.Edge
