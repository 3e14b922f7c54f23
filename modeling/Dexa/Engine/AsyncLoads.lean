import Dexa.Engine.ConnectorScheduler

/-! # Loads in flight (`start_load_kv`, `get_finished`, `request_finished`)

The scheduler, the worker and its loader pool run independently: a load is submitted in
one step, executes at any later time, and is reported by some poll.  The state holds the
worker's bookkeeping, the pool's futures, and of vLLM which blocks a request owns and
which requests it was told about.

A poll is not atomic: it takes a snapshot of the pending futures and looks at one after
the other, while the pool goes on.  Each `poll` event is one such look.
-/

namespace Dexa.Engine

open Dexa.Core Dexa.Lib

inductive LoadStatus where
  | submitted
  | succeeded
  | raised
  deriving DecidableEq, Repr

/-- A load in the pool, with its future's status. -/
structure Load where
  reqId : String
  key : String
  blockIds : List Nat
  status : LoadStatus := .submitted
  deriving DecidableEq, Repr

/-- A poll in progress: what is left of its snapshot, and its local `done`. -/
structure Poll where
  remaining : List (String × Nat)
  done : List String
  deriving DecidableEq, Repr

/-- How a poll ends. -/
inductive PollResult where
  | returned (ids : Option (List String))
  | raised (reqId : String)
  deriving DecidableEq, Repr

/-- The blocks a load writes, and those among all blocks that were freed since it was issued. -/
structure Write where
  blocks : List Nat
  freed : List Nat
  deriving DecidableEq, Repr

/-- What one event shows outside: the blocks written in it, and the poll that ends with it. -/
structure Shown where
  writes : List Write := []
  poll : Option PollResult := none
  deriving DecidableEq, Repr

structure AsyncSystem where
  asyncLoad : Bool
  /-- submitted loads, in order; a position here is a future -/
  loads : List Load := []
  /-- `_pending_loads` -/
  pending : Dict String Nat := Dict.empty
  inPoll : Option Poll := none
  /-- the ids vLLM has been told, in order -/
  received : List String := []
  /-- the blocks each request owns -/
  owned : Dict String (List Nat) := Dict.empty
  /-- for each load, the blocks freed since it was submitted -/
  freedSince : List (List Nat) := []

inductive AsyncEvent where
  /-- vLLM gives a request blocks. -/
  | allocate (reqId : String) (blocks : List Nat)
  /-- A request ends or is aborted. -/
  | finish (reqId : String)
  | startLoad (metadata : Option ConnectorMetadata)
  /-- The pool executes a submitted load, which succeeds or raises. -/
  | execute (load : Nat) (ok : Bool)
  | poll

namespace AsyncSystem

/-- The blocks `_load_one` scatters into (`loadLayer_ok`): the first of the table, as many as
    the stored cache packs into. -/
def written (blocksOf : String → Nat) (key : String) (blockIds : List Nat) : List Nat :=
  blockIds.take (min blockIds.length (blocksOf key))

/-- One iteration of `start_load_kv` on the async path. -/
def submit (s : AsyncSystem) (e : String × String × List Nat) : AsyncSystem :=
  { s with
    loads := s.loads ++ [{ reqId := e.1, key := e.2.1, blockIds := e.2.2 }]
    freedSince := s.freedSince ++ [[]]
    pending := s.pending.set e.1 s.loads.length }

/-- `start_load_kv`. -/
def startLoadKv (blocksOf : String → Nat) (s : AsyncSystem) (metadata : Option ConnectorMetadata) :
    Shown × AsyncSystem :=
  match metadata with
  | none => ({}, s)
  | some plan =>
    if s.asyncLoad then ({}, plan.loads.entries.foldl submit s)
    else ({ writes := plan.loads.entries.map fun e => ⟨written blocksOf e.2.1 e.2.2, []⟩ }, s)

/-- A submitted load runs in the pool. -/
def execute (blocksOf : String → Nat) (s : AsyncSystem) (i : Nat) (ok : Bool) :
    Shown × AsyncSystem :=
  match s.loads[i]? with
  | some load =>
    if load.status = .submitted then
      ({ writes := [⟨written blocksOf load.key load.blockIds, s.freedSince.getD i []⟩] },
        { s with loads := s.loads.set i { load with status := if ok then .succeeded else .raised } })
    else ({}, s)
  | none => ({}, s)

/-- A request ends: unless `request_finished` delays it, its blocks are free at once. -/
def finish (s : AsyncSystem) (reqId : String) : AsyncSystem :=
  let blocks := (s.owned.get? reqId).getD []
  let (delayFree, _) := Scheduler.requestFinished reqId [blocks]
  if delayFree then s
  else { s with owned := s.owned.erase reqId, freedSince := s.freedSince.map (· ++ blocks) }

/-- One look of `get_finished`: the call itself, one future, or the return. -/
def pollStep (s : AsyncSystem) : Shown × AsyncSystem :=
  match s.inPoll with
  | none =>
    if s.pending.entries = [] then ({ poll := some (.returned none) }, s)
    else ({}, { s with inPoll := some { remaining := s.pending.entries, done := [] } })
  | some { remaining := [], done } =>
    ({ poll := some (.returned (if done = [] then none else some done)) },
      { s with inPoll := none, received := s.received ++ done })
  | some { remaining := (reqId, i) :: rest, done } =>
    match (s.loads[i]?).map Load.status with
    | some .succeeded =>
      ({}, { s with inPoll := some { remaining := rest, done := done ++ [reqId] }, pending := s.pending.erase reqId })
    | some .raised => ({ poll := some (.raised reqId) }, { s with inPoll := none })
    | _ => ({}, { s with inPoll := some { remaining := rest, done := done } })

def step (blocksOf : String → Nat) (s : AsyncSystem) : AsyncEvent → Shown × AsyncSystem
  | .allocate reqId blocks =>
    ({}, { s with owned := s.owned.set reqId ((s.owned.get? reqId).getD [] ++ blocks) })
  | .finish reqId => ({}, s.finish reqId)
  | .startLoad metadata => s.startLoadKv blocksOf metadata
  | .execute i ok => s.execute blocksOf i ok
  | .poll => s.pollStep

end AsyncSystem

def asyncLoads (blocksOf : String → Nat) : Machine AsyncSystem AsyncEvent Shown :=
  ⟨AsyncSystem.step blocksOf⟩

namespace AsyncSystem

variable {blocksOf : String → Nat}

/-- No request ends while a submitted load has yet to write into a block it owns. -/
def NoWriteOutstanding (blocksOf : String → Nat) (s : AsyncSystem) : AsyncEvent → Prop
  | .finish reqId => ∀ load ∈ s.loads, load.status = .submitted →
      ∀ b ∈ written blocksOf load.key load.blockIds, b ∉ (s.owned.get? reqId).getD []
  | _ => True

def WritesNoFreed (shown : Shown) : Prop := ∀ w ∈ shown.writes, ∀ b ∈ w.blocks, b ∉ w.freed

/-- No load that has yet to run targets a block freed since it was submitted. -/
def TargetsHeld (blocksOf : String → Nat) (s : AsyncSystem) : Prop :=
  s.freedSince.length = s.loads.length ∧ ∀ i load, s.loads[i]? = some load →
    load.status = .submitted →
    ∀ b ∈ written blocksOf load.key load.blockIds, b ∉ s.freedSince.getD i []

theorem submit_targetsHeld {s : AsyncSystem} (held : TargetsHeld blocksOf s)
    (e : String × String × List Nat) :
    TargetsHeld blocksOf (s.submit e) := by
  obtain ⟨aligned, held⟩ := held
  refine ⟨by simp [submit, aligned], ?_⟩
  intro i load found submitted b target
  by_cases old : i < s.loads.length
  · rw [submit, List.getElem?_append_left old] at found
    have kept : (s.submit e).freedSince.getD i [] = s.freedSince.getD i [] := by
      rw [List.getD_eq_getElem?_getD, submit, List.getElem?_append_left (by omega),
        List.getD_eq_getElem?_getD]
    rw [kept]
    exact held i load found submitted b target
  · have new : i = s.loads.length := by
      have inside := (List.getElem?_eq_some_iff.1 found).1
      simp only [submit, List.length_append, List.length_singleton] at inside
      omega
    subst new
    simp [submit, ← aligned]

theorem startLoadKv_targetsHeld {s : AsyncSystem} (held : TargetsHeld blocksOf s)
    (metadata : Option ConnectorMetadata) :
      TargetsHeld blocksOf (s.startLoadKv blocksOf metadata).2 := by
  have submitted : ∀ (entries : List (String × String × List Nat)) (t : AsyncSystem),
    TargetsHeld blocksOf t →
      TargetsHeld blocksOf (entries.foldl submit t) := by
    intro entries
    induction entries with
    | nil => exact fun t held => held
    | cons e rest ih => exact fun t held => ih (t.submit e) (submit_targetsHeld held e)
  unfold startLoadKv
  cases metadata with
  | none => exact held
  | some plan =>
    by_cases async : s.asyncLoad = true
    · simpa [async] using submitted plan.loads.entries s held
    · simpa [async] using held

theorem execute_targetsHeld {s : AsyncSystem} (held : TargetsHeld blocksOf s)
    (i : Nat) (ok : Bool) :
    TargetsHeld blocksOf (s.execute blocksOf i ok).2 ∧
      WritesNoFreed (s.execute blocksOf i ok).1 := by
  have idle : WritesNoFreed {} := by simp [WritesNoFreed]
  unfold execute
  cases found : s.loads[i]? with
  | none => exact ⟨held, idle⟩
  | some load =>
    simp only
    split
    · rename_i submitted
      refine ⟨⟨by simp [held.1], ?_⟩, ?_⟩
      · intro j load' found' submitted'
        by_cases same : i = j
        · subst same
          have ran : load' = { load with status := if ok then .succeeded else .raised } := by
            simpa [List.getElem?_set_self (List.getElem?_eq_some_iff.1 found).1] using found'.symm
          rw [ran] at submitted'
          cases ok <;> cases submitted'
        · exact held.2 j load' (by simpa [List.getElem?_set_ne same] using found') submitted'
      · intro w member
        obtain rfl := List.mem_singleton.1 member
        exact held.2 i load found submitted
    · exact ⟨held, idle⟩

theorem finish_targetsHeld {s : AsyncSystem} (held : TargetsHeld blocksOf s) {reqId : String}
    (cleared : s.NoWriteOutstanding blocksOf (.finish reqId)) :
      TargetsHeld blocksOf (s.finish reqId) := by
  refine ⟨by simp [finish, Scheduler.requestFinished, held.1], ?_⟩
  intro i load found submitted b target freed
  have inside : i < s.freedSince.length := by
    rw [held.1]
    exact (List.getElem?_eq_some_iff.1 found).1
  simp only [finish, Scheduler.requestFinished, Bool.false_eq_true, if_false,
    List.getD_eq_getElem?_getD,
    List.getElem?_map, List.getElem?_eq_getElem inside, Option.map_some, Option.getD_some,
      List.mem_append] at freed
  rcases freed with freed | freed
  · refine held.2 i load found submitted b target ?_
    rwa [List.getD_eq_getElem?_getD, List.getElem?_eq_getElem inside, Option.getD_some]
  · exact cleared load (List.mem_of_getElem? found) submitted b target freed

theorem pollStep_frame (s : AsyncSystem) :
    s.pollStep.2.loads = s.loads ∧ s.pollStep.2.freedSince = s.freedSince ∧
      s.pollStep.1.writes = [] := by
  unfold pollStep
  split
  · split <;> exact ⟨rfl, rfl, rfl⟩
  · exact ⟨rfl, rfl, rfl⟩
  · split <;> exact ⟨rfl, rfl, rfl⟩

/-- Every step that leaves no write outstanding keeps the targets of the loads still to run
    held, and writes into no freed block. -/
theorem step_targetsHeld (s : AsyncSystem) (e : AsyncEvent) (held : TargetsHeld blocksOf s)
    (cleared : s.NoWriteOutstanding blocksOf e) :
    TargetsHeld blocksOf (s.step blocksOf e).2 ∧ WritesNoFreed (s.step blocksOf e).1 := by
  have idle : WritesNoFreed {} := by simp [WritesNoFreed]
  cases e with
  | allocate reqId blocks => exact ⟨held, idle⟩
  | finish reqId => exact ⟨finish_targetsHeld held cleared, idle⟩
  | startLoad metadata =>
    refine ⟨startLoadKv_targetsHeld held metadata, ?_⟩
    unfold step startLoadKv
    cases metadata with
    | none => exact idle
    | some plan =>
      by_cases async : s.asyncLoad = true
      · simp [async, WritesNoFreed]
      · simp only [async, Bool.false_eq_true, if_false, WritesNoFreed, List.mem_map]
        rintro w ⟨e, -, rfl⟩ b -
        exact List.not_mem_nil
  | execute i ok => exact execute_targetsHeld held i ok
  | poll =>
    obtain ⟨loads, freedSince, writes⟩ := s.pollStep_frame
    refine ⟨?_, ?_⟩
    · simp only [TargetsHeld, step, loads, freedSince]
      exact held
    · simp only [WritesNoFreed, step, writes]
      simp

end AsyncSystem

/-- In every run in which a request only ends once no load has a write into its blocks
    outstanding, no load writes into a block freed since the load was issued. -/
theorem loads_write_no_freed_block (blocksOf : String → Nat) (asyncLoad : Bool)
    (events : List AsyncEvent)
    (cleared : (asyncLoads blocksOf).Meets
      (AsyncSystem.NoWriteOutstanding blocksOf) { asyncLoad := asyncLoad } events) :
    ∀ p ∈ (asyncLoads blocksOf).trace { asyncLoad := asyncLoad } events,
      AsyncSystem.WritesNoFreed p.2 := by
  have start : AsyncSystem.TargetsHeld blocksOf { asyncLoad := asyncLoad } := ⟨rfl, by simp⟩
  have step : ∀ s e, AsyncSystem.TargetsHeld blocksOf s → s.NoWriteOutstanding blocksOf e →
      AsyncSystem.TargetsHeld blocksOf ((asyncLoads blocksOf).next s e) ∧
        AsyncSystem.WritesNoFreed ((asyncLoads blocksOf).out s e) := AsyncSystem.step_targetsHeld
  have run := Machine.Meets.run (fun _ shown => AsyncSystem.WritesNoFreed shown)
    (fun s e held cleared => (step s e held cleared).1)
    (fun s e held cleared => (step s e held cleared).2) start cleared
  exact run.2

/-! A load is issued and its request ends; then its blocks go to another request.  The load
executes last, or before its request ends. -/

def oneLoad (reqId : String) (blocks : List Nat) : Option ConnectorMetadata :=
  some { loads := Dict.empty.set reqId ("key", blocks), saves := Dict.empty }

theorem load_writes_freed_block :
    ¬ ∀ p ∈ (asyncLoads fun _ => 2).trace { asyncLoad := true }
        [.allocate "a" [4, 5], .startLoad (oneLoad "a" [4, 5]), .finish "a", .allocate "b" [4, 5],
          .execute 0 true],
      AsyncSystem.WritesNoFreed p.2 := by
  intro safe
  have last :=
    safe (.execute 0 true, { writes := [⟨[4, 5], [4, 5]⟩] }) (by simp [Machine.trace]; decide)
  exact last ⟨[4, 5], [4, 5]⟩ (by simp) 4 (by simp) (by simp)

theorem loads_write_no_freed_block_executed :
    let trace := (asyncLoads fun _ => 2).trace { asyncLoad := true }
      [.allocate "a" [4, 5], .startLoad (oneLoad "a" [4, 5]), .execute 0 true, .finish "a",
        .allocate "b" [4, 5]]
    trace.length = 5 ∧ ∀ p ∈ trace, AsyncSystem.WritesNoFreed p.2 := by
  refine ⟨rfl, loads_write_no_freed_block _ true _ ⟨trivial, trivial, trivial, ?_,
    trivial, trivial⟩⟩
  intro load member submitted
  have only : load = { reqId := "a", key := "key", blockIds := [4, 5], status := .succeeded } :=
    List.mem_singleton.1 member
  rw [only] at submitted
  cases submitted

end Dexa.Engine
