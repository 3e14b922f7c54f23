import Dexa.Lib.Dict
import Mathlib.Algebra.BigOperators.Group.List.Basic
import Mathlib.Algebra.Order.Ring.Rat
import Mathlib.Data.Rat.Defs

/-! # The usage queue consumer (`edge/src/index.ts`)

The consumer folds a batch of usage events into the `usage_daily` table, one upsert and so
one committed statement per event.  A statement that fails makes it throw, and the queue
delivers the whole batch again: what the failed attempt committed stays, and is added once
more.  An attempt is harmless exactly when its first statement fails.
-/

namespace Dexa.Edge

open Dexa.Lib

structure UsageEvent where
  orgId : String
  keyId : String
  warm : Bool
  savedUsd : ℚ
  savedMs : ℚ
  day : String
  deriving DecidableEq

/-- A row of `usage_daily`; the table is unique in `(key_id, day)`. -/
structure UsageRow where
  orgId : String
  keyId : String
  day : String
  requests : Nat := 0
  warmTurns : Nat := 0
  coldTurns : Nat := 0
  dexaUsd : ℚ := 0
  savedUsd : ℚ := 0
  savedMs : ℚ := 0
  deriving DecidableEq

abbrev UsageTable := Dict (String × String) UsageRow

def UsageEvent.row (e : UsageEvent) : String × String := (e.keyId, e.day)

/-- `insert .. on conflict (key_id, day) do update`. -/
def upsert (rows : UsageTable) (e : UsageEvent) : UsageTable :=
  match rows.get? e.row with
  | none =>
    rows.set e.row
      { orgId := e.orgId, keyId := e.keyId, day := e.day, requests := 1, warmTurns := if e.warm then 1 else 0,
        coldTurns := if e.warm then 0 else 1, savedUsd := e.savedUsd, savedMs := e.savedMs }
  | some row =>
    rows.set e.row
      { row with
        requests := row.requests + 1
        warmTurns := row.warmTurns + if e.warm then 1 else 0
        coldTurns := row.coldTurns + if e.warm then 0 else 1
        savedUsd := row.savedUsd + e.savedUsd
        savedMs := row.savedMs + e.savedMs }

/-- `queue`: one delivery of the batch, in which the statement at this index fails, if any.
    The flag is whether the handler returned; otherwise it threw. -/
def queue : List UsageEvent → Option Nat → UsageTable → Bool × UsageTable
  | [], _, rows => (true, rows)
  | _ :: _, some 0, rows => (false, rows)
  | e :: batch, some (i + 1), rows => queue batch (some i) (upsert rows e)
  | e :: batch, none, rows => queue batch none (upsert rows e)

/-- The batch is delivered until the handler returns: one attempt for each statement of the
    batch that fails, then one in which none does. -/
def redeliver (batch : List UsageEvent) : List (Fin batch.length) → UsageTable → UsageTable
  | [], rows => (queue batch none rows).2
  | i :: failures, rows => redeliver batch failures (queue batch (some i) rows).2

theorem queue_none (batch : List UsageEvent) (rows : UsageTable) :
    queue batch none rows = (true, batch.foldl upsert rows) := by
  induction batch generalizing rows with
  | nil => rfl
  | cons e batch ih => exact ih (upsert rows e)

/-- A failed attempt leaves the upserts before the failing statement committed. -/
theorem queue_some {batch : List UsageEvent} {i : Nat} (rows : UsageTable)
    (inside : i < batch.length) :
    queue batch (some i) rows = (false, (batch.take i).foldl upsert rows) := by
  induction batch generalizing i rows with
  | nil => cases inside
  | cons e batch ih =>
    cases i with
    | zero => rfl
    | succ i => exact ih (upsert rows e) (Nat.lt_of_succ_lt_succ inside)

/-- The events upserted by all attempts, in order. -/
def upserted (batch : List UsageEvent) (failures : List (Fin batch.length)) : List UsageEvent :=
  failures.flatMap (fun i => batch.take i.val) ++ batch

theorem redeliver_eq (batch : List UsageEvent) (failures : List (Fin batch.length))
    (rows : UsageTable) :
    redeliver batch failures rows = (upserted batch failures).foldl upsert rows := by
  induction failures generalizing rows with
  | nil => rw [redeliver, queue_none]; rfl
  | cons i failures ih =>
    rw [redeliver, ih, queue_some rows i.isLt]
    simp only [upserted, List.flatMap_cons, List.append_assoc, List.foldl_append]

/-- What the events of a row add to it. -/
@[ext]
structure Counts where
  requests : Nat
  warmTurns : Nat
  coldTurns : Nat
  savedUsd : ℚ
  savedMs : ℚ

namespace Counts

instance : Zero Counts := ⟨⟨0, 0, 0, 0, 0⟩⟩

instance : Add Counts :=
  ⟨fun a b => ⟨a.requests + b.requests, a.warmTurns + b.warmTurns, a.coldTurns + b.coldTurns,
    a.savedUsd + b.savedUsd,
    a.savedMs + b.savedMs⟩⟩

@[simp] theorem add_requests (a b : Counts) : (a + b).requests = a.requests + b.requests := rfl

instance : AddMonoid Counts where
  add_assoc a b c :=
    Counts.ext (add_assoc ..) (add_assoc ..) (add_assoc ..) (add_assoc ..) (add_assoc ..)
  zero_add a := Counts.ext (zero_add _) (zero_add _) (zero_add _) (zero_add _) (zero_add _)
  add_zero a := Counts.ext (add_zero _) (add_zero _) (add_zero _) (add_zero _) (add_zero _)
  nsmul := nsmulRec

end Counts

def UsageEvent.counts (e : UsageEvent) : Counts :=
  ⟨1, if e.warm then 1 else 0, if e.warm then 0 else 1, e.savedUsd, e.savedMs⟩

def UsageRow.plus (row : UsageRow) (c : Counts) : UsageRow :=
  { row with
    requests := row.requests + c.requests
    warmTurns := row.warmTurns + c.warmTurns
    coldTurns := row.coldTurns + c.coldTurns
    savedUsd := row.savedUsd + c.savedUsd
    savedMs := row.savedMs + c.savedMs }

theorem UsageRow.plus_plus (row : UsageRow) (c c' : Counts) :
    (row.plus c).plus c' = row.plus (c + c') := by
  simp only [plus, add_assoc]
  rfl

theorem UsageRow.plus_zero (row : UsageRow) : row.plus 0 = row := by
  cases row
  exact congr (congrArg _ (add_zero _)) (add_zero _)

/-- The row that counts these events once each, on top of the row there was. -/
def credited : Option UsageRow → List UsageEvent → Option UsageRow
  | some row, events => some (row.plus (events.map UsageEvent.counts).sum)
  | none, [] => none
  | none, e :: events =>
    some (UsageRow.plus { orgId := e.orgId, keyId := e.keyId, day := e.day }
      ((e :: events).map UsageEvent.counts).sum)

theorem credited_append (initial : Option UsageRow) (events events' : List UsageEvent) :
    credited initial (events ++ events') = credited (credited initial events) events' := by
  cases initial with
  | some row => simp only [credited, List.map_append, List.sum_append, UsageRow.plus_plus]
  | none =>
    cases events with
    | nil => rfl
    | cons e events =>
      simp only [credited, List.cons_append, List.map_cons, List.map_append, List.sum_cons,
        List.sum_append,
        UsageRow.plus_plus, add_assoc]

theorem requests_sum (events : List UsageEvent) :
    (events.map UsageEvent.counts).sum.requests = events.length := by
  induction events with
  | nil => rfl
  | cons e events ih =>
    rw [List.map_cons, List.sum_cons, Counts.add_requests, ih]
    exact Nat.add_comm ..

theorem requests_credited (initial : Option UsageRow) (events : List UsageEvent) :
    (credited initial events).elim 0 UsageRow.requests = initial.elim 0 UsageRow.requests +
      events.length := by
  cases initial with
  | some row => simp only [credited, Option.elim_some, UsageRow.plus, requests_sum]
  | none =>
    cases events with
    | nil => rfl
    | cons e events => simp only [credited, Option.elim_some, UsageRow.plus, requests_sum,
        Option.elim_none]

theorem get?_upsert (rows : UsageTable) (e : UsageEvent) (k : String × String) :
    (upsert rows e).get? k = if e.row = k then credited (rows.get? k) [e] else rows.get? k := by
  by_cases same : e.row = k
  · subst same
    rw [upsert]
    cases found : rows.get? e.row with
    | none =>
      simp only [Dict.get?_set_self, credited, if_true, List.map_cons, List.map_nil,
        List.sum_singleton]
      cases e with
      | mk orgId keyId warm savedUsd savedMs day => simp [UsageRow.plus, UsageEvent.counts]
    | some row =>
      simp only [Dict.get?_set_self, credited, if_true, List.map_cons, List.map_nil,
        List.sum_singleton]
      rfl
  · rw [if_neg same, upsert]
    cases rows.get? e.row with
    | none => exact Dict.get?_set_ne _ _ same
    | some row => exact Dict.get?_set_ne _ _ same

/-- Upserting events one after the other counts each of them once. -/
theorem get?_foldl_upsert (events : List UsageEvent) (rows : UsageTable) (k : String × String) :
    (events.foldl upsert rows).get? k = credited (rows.get? k) (events.filter (·.row = k)) := by
  induction events generalizing rows with
  | nil =>
    cases found : rows.get? k with
    | none => exact found
    | some row => exact found.trans (congrArg some row.plus_zero.symm)
  | cons e events ih =>
    rw [List.foldl_cons, ih, get?_upsert]
    by_cases same : e.row = k
    · rw [if_pos same, List.filter_cons_of_pos (by simpa using same), ← credited_append]
      rfl
    · rw [if_neg same, List.filter_cons_of_neg (by simpa using same)]

/-- Every row is its initial value plus the events of the batch for its key and day, each
    counted once. -/
def CountedOnce (rows : UsageTable) (batch : List UsageEvent) (rows' : UsageTable) : Prop :=
  ∀ k, rows'.get? k = credited (rows.get? k) (batch.filter (·.row = k))

/-- Redelivery counts each event once exactly when every failed attempt fails at its first
    statement; any other failed attempt counts the first event again. -/
theorem counted_once_iff (rows : UsageTable) (batch : List UsageEvent)
    (failures : List (Fin batch.length)) :
    CountedOnce rows batch (redeliver batch failures rows) ↔ ∀ i ∈ failures, i.val = 0 := by
  have attempts : ∀ k, (redeliver batch failures rows).get? k =
      credited (rows.get? k) ((upserted batch failures).filter (·.row = k)) := fun k => by
    rw [redeliver_eq, get?_foldl_upsert]
  constructor
  · intro once i failed
    by_contra later
    -- the failing attempt upserted the first event of the batch
    obtain ⟨e, rest, rfl⟩ : ∃ e rest, batch = e :: rest :=
      List.exists_cons_of_length_pos (Nat.zero_lt_of_lt i.isLt)
    have twice : ((e :: rest).filter (·.row = e.row)).length <
        ((upserted (e :: rest) failures).filter (·.row = e.row)).length := by
      have again : e ∈ failures.flatMap fun i => (e :: rest).take i.val := by
        refine List.mem_flatMap.2 ⟨i, failed, ?_⟩
        obtain ⟨j, next⟩ := Nat.exists_eq_succ_of_ne_zero later
        rw [next]
        exact List.mem_cons_self
      have counted :
        0 < ((failures.flatMap fun i => (e :: rest).take i.val).filter (·.row = e.row)).length :=
        List.length_pos_of_mem (List.mem_filter.2 ⟨again, by simp⟩)
      rw [upserted, List.filter_append, List.length_append]
      omega
    have counted :=
      congrArg (fun row => row.elim 0 UsageRow.requests) ((attempts e.row).symm.trans (once e.row))
    simp only [requests_credited] at counted
    omega
  · intro first k
    have nothing : failures.flatMap (fun i => batch.take i.val) = [] := by
      rw [List.flatMap_eq_nil_iff]
      intro i failed
      rw [first i failed, List.take_zero]
    rw [attempts, upserted, nothing, List.nil_append]

/-- Two events of one key and day; the second statement fails once. -/
theorem redelivered_event_counted_twice :
    let event : UsageEvent :=
      { orgId := "org", keyId := "key", warm := true, savedUsd := 1, savedMs := 1, day := "2026-01-01" }
    ¬ CountedOnce Dict.empty [event, event]
      (redeliver [event, event] [⟨1, by decide⟩] Dict.empty) := by
  intro event once
  have rows := congrArg (fun row => row.elim 0 UsageRow.requests) (once ("key", "2026-01-01"))
  exact absurd rows (by decide +kernel)

end Dexa.Edge
