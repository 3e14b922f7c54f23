import Dexa.Engine.AsyncLoads

/-! # What the polls report

`Accounted` is what the reports owe to the loads of a run: nothing twice, nothing early,
nothing lost.  `Consistent` is the invariant behind it, and it survives every step but
one: a poll that reads a future whose load raised.  That poll drops what it had found,
and `failed_load_blocks_polls` shows that no later one returns.
-/

namespace Dexa.Engine

open Dexa.Core Dexa.Lib

namespace AsyncSystem

variable {blocksOf : String → Nat}

/-- What the poll in progress has found. -/
def found (s : AsyncSystem) : List String := (s.inPoll.map Poll.done).getD []

theorem found_of_none {s : AsyncSystem} (between : s.inPoll = none) : s.found = [] := by
  rw [found, between]
  rfl

theorem found_of_some {s : AsyncSystem} {p : Poll} (inside : s.inPoll = some p) :
    s.found = p.done := by
  rw [found, inside]
  rfl

def Completed (s : AsyncSystem) (reqId : String) : Prop :=
  ∃ (i : Nat) (load : Load), s.loads[i]? = some load ∧ load.reqId = reqId ∧ load.status = .succeeded

/-- No id was reported twice, none before its load completed, and every completed load is
    reported, still pending, or found by the poll in progress. -/
structure Accounted (s : AsyncSystem) : Prop where
  once : s.received.Nodup
  completed : ∀ reqId ∈ s.received, s.Completed reqId
  kept : ∀ reqId, s.Completed reqId → reqId ∈ s.received ∨ (s.pending.get? reqId).isSome ∨
    reqId ∈ s.found

/-- From `s` the events show no poll ending before the last one, which shows one returning. -/
def PollReturns (blocksOf : String → Nat) : AsyncSystem → List AsyncEvent → Prop
  | _, [] => False
  | s, [e] => ∃ ids, (s.step blocksOf e).1.poll = some (.returned ids)
  | s, e :: e' :: es => (s.step blocksOf e).1.poll = none ∧ PollReturns blocksOf (s.step blocksOf e).2 (e' :: es)

/-- A poll from its call to its return, with whatever the pool does meanwhile. -/
def WholePoll (blocksOf : String → Nat) (s : AsyncSystem) (events : List AsyncEvent) : Prop :=
  s.inPoll = none ∧ (∃ rest, events = .poll :: rest) ∧ PollReturns blocksOf s events

end AsyncSystem

/-- The load that made a poll fail. -/
def failedBy (shown : Shown) : Option String :=
  match shown.poll with
  | some (.raised reqId) => some reqId
  | _ => none

open AsyncSystem in
/-- Completions are reported exactly once and failures stay isolated: the books are right in
    every state, each poll that returns has reported all that was complete when it was called,
    and no load makes more than one poll fail. -/
structure ReportsExactlyOnce (blocksOf : String → Nat) (start : AsyncSystem)
    (events : List AsyncEvent) : Prop where
  accounted : ∀ before after, events = before ++ after →
    Accounted ((asyncLoads blocksOf).exec start before)
  prompt : ∀ before poll after, events = before ++ poll ++ after →
    WholePoll blocksOf ((asyncLoads blocksOf).exec start before) poll →
    ∀ reqId, ((asyncLoads blocksOf).exec start before).Completed reqId →
      reqId ∈ ((asyncLoads blocksOf).exec start (before ++ poll)).received
  isolated : (((asyncLoads blocksOf).trace start events).filterMap fun p => failedBy p.2).Nodup

namespace AsyncSystem

variable {blocksOf : String → Nat}

/-- Loads start between polls, under request ids not loaded before. -/
def Lifecycle (s : AsyncSystem) : AsyncEvent → Prop
  | .startLoad metadata => s.inPoll = none ∧
      ∀ plan, metadata = some plan → ∀ load ∈ s.loads, plan.loads.get? load.reqId = none
  | _ => True

/-- The future a poll looks at next is not that of a load that raised. -/
def ReadsNoFailure (s : AsyncSystem) : AsyncEvent → Prop
  | .poll => ∀ e rest done, s.inPoll = some { remaining := e :: rest, done := done } →
      ∀ load, s.loads[e.2]? = some load → load.status ≠ .raised
  | _ => True

structure Consistent (s : AsyncSystem) : Prop where
  distinct : (s.loads.map Load.reqId).Nodup
  tracked : ∀ reqId i, s.pending.get? reqId = some i → (s.loads.map Load.reqId)[i]? = some reqId
  once : (s.received ++ s.found).Nodup
  completed : ∀ reqId ∈ s.received ++ s.found, s.Completed reqId
  settled : ∀ reqId ∈ s.received ++ s.found, s.pending.get? reqId = none
  covered : ∀ reqId ∈ s.loads.map Load.reqId, reqId ∈ s.received ++ s.found ∨
    (s.pending.get? reqId).isSome
  snapshot : ∀ p, s.inPoll = some p → (p.remaining.map Prod.fst).Nodup ∧
    ∀ e ∈ p.remaining, s.pending.get? e.1 = some e.2

theorem Consistent.accounted {s : AsyncSystem} (consistent : Consistent s) : Accounted s := by
  refine ⟨(List.nodup_append.1 consistent.once).1, ?_, ?_⟩
  · intro reqId member
    exact consistent.completed reqId (List.mem_append_left _ member)
  · rintro _ ⟨i, load, found, rfl, -⟩
    rcases consistent.covered load.reqId
      (List.mem_map_of_mem (List.mem_of_getElem? found)) with reported | pending
    · rcases List.mem_append.1 reported with received | inPoll
      · exact .inl received
      · exact .inr (.inr inPoll)
    · exact .inr (.inl pending)

theorem consistent_start (asyncLoad : Bool) : Consistent { asyncLoad := asyncLoad } :=
  ⟨by simp, by simp, by simp [found], by simp [found], by simp, by simp, by simp⟩

theorem submit_consistent {s : AsyncSystem} (consistent : Consistent s) (between : s.inPoll = none)
    {e : String × String × List Nat} (fresh : ∀ load ∈ s.loads, load.reqId ≠ e.1) :
      Consistent (s.submit e) := by
  have kept : ∀ {i : Nat} {load : Load}, s.loads[i]? = some load →
    (s.submit e).loads[i]? = some load := by
    intro i load present
    rw [submit, List.getElem?_append_left (List.getElem?_eq_some_iff.1 present).1, present]
  have other : ∀ reqId ∈ s.received ++ s.found, e.1 ≠ reqId := by
    intro reqId member same
    obtain ⟨i, load, present, rfl, -⟩ := consistent.completed reqId member
    exact fresh load (List.mem_of_getElem? present) same.symm
  refine ⟨?_, ?_, consistent.once, ?_, ?_, ?_, ?_⟩
  · simp only [submit, List.map_append, List.map_singleton]
    refine List.nodup_append.2 ⟨consistent.distinct, List.nodup_singleton _, ?_⟩
    intro a member b single
    obtain ⟨load, present, rfl⟩ := List.mem_map.1 member
    obtain rfl := List.mem_singleton.1 single
    exact fresh load present
  · intro reqId i pending
    simp only [submit, Dict.get?_set] at pending
    split at pending
    · rename_i same
      obtain rfl := Option.some.inj pending
      simp [submit, same]
    · have earlier := consistent.tracked reqId i pending
      rw [submit, List.map_append,
        List.getElem?_append_left (List.getElem?_eq_some_iff.1 earlier).1, earlier]
  · intro reqId member
    obtain ⟨i, load, present, rest⟩ := consistent.completed reqId member
    exact ⟨i, load, kept present, rest⟩
  · intro reqId member
    have unset : (s.submit e).pending.get? reqId = s.pending.get? reqId :=
      Dict.get?_set_ne _ _ (other reqId member)
    rw [unset]
    exact consistent.settled reqId member
  · intro reqId member
    rw [submit, List.map_append] at member
    rcases List.mem_append.1 member with member | member
    · obtain ⟨load, present, rfl⟩ := List.mem_map.1 member
      have unset : (s.submit e).pending.get? load.reqId = s.pending.get? load.reqId :=
        Dict.get?_set_ne _ _ (fresh load present).symm
      rw [unset]
      exact consistent.covered load.reqId member
    · obtain rfl := List.mem_singleton.1 member
      right
      simp [submit]
  · intro p inPoll
    rw [submit, between] at inPoll
    cases inPoll

theorem submitAll_consistent {entries : List (String × String × List Nat)}
    (nodup : (entries.map Prod.fst).Nodup)
    {s : AsyncSystem} (consistent : Consistent s) (between : s.inPoll = none)
    (fresh : ∀ load ∈ s.loads, load.reqId ∉ entries.map Prod.fst) :
      Consistent (entries.foldl submit s) := by
  induction entries generalizing s with
  | nil => exact consistent
  | cons e rest ih =>
    rw [List.map_cons, List.nodup_cons] at nodup
    have head : ∀ load ∈ s.loads, load.reqId ≠ e.1 := fun load member same =>
      fresh load member (by rw [List.map_cons, same]; exact List.mem_cons_self)
    refine ih nodup.2 (submit_consistent consistent between head) between ?_
    intro load member
    rcases List.mem_append.1 member with member | member
    · exact fun later => fresh load member (List.mem_cons_of_mem _ later)
    · obtain rfl := List.mem_singleton.1 member
      exact nodup.1

theorem startLoadKv_consistent {s : AsyncSystem} (consistent : Consistent s)
    {metadata : Option ConnectorMetadata}
    (allowed : s.Lifecycle (.startLoad metadata)) :
      Consistent (s.startLoadKv blocksOf metadata).2 := by
  unfold startLoadKv
  cases metadata with
  | none => exact consistent
  | some plan =>
    by_cases async : s.asyncLoad = true
    · simp only [async, if_true]
      refine submitAll_consistent plan.loads.nodup consistent allowed.1 ?_
      intro load member
      exact Dict.lookup_eq_none.1 (allowed.2 plan rfl load member)
    · simpa [async] using consistent

variable (blocksOf) in
/-- A load that is executed goes from submitted to an outcome; nothing else moves. -/
theorem execute_cases (s : AsyncSystem) (i : Nat) (ok : Bool) :
    (s.execute blocksOf i ok).2 = s ∨ ∃ load, s.loads[i]? = some load ∧ load.status = .submitted ∧
      (s.execute blocksOf i ok).2 =
        { s with loads := s.loads.set i { load with status := if ok then .succeeded else .raised } } := by
  unfold execute
  cases present : s.loads[i]? with
  | none => exact .inl rfl
  | some load =>
    simp only
    split
    · rename_i submitted
      exact .inr ⟨load, rfl, submitted, rfl⟩
    · exact .inl rfl

theorem execute_completed {s : AsyncSystem} {reqId : String} (completed : s.Completed reqId)
    (i : Nat) (ok : Bool) :
    (s.execute blocksOf i ok).2.Completed reqId := by
  obtain ⟨j, load, present, owner, done⟩ := completed
  rcases s.execute_cases blocksOf i ok with same | ⟨load', present', submitted, ran⟩
  · rw [same]
    exact ⟨j, load, present, owner, done⟩
  · have other : i ≠ j := by
      rintro rfl
      obtain rfl := Option.some.inj (present'.symm.trans present)
      rw [done] at submitted
      cases submitted
    rw [ran]
    exact ⟨j, load, by rw [List.getElem?_set_ne other, present], owner, done⟩

theorem execute_consistent {s : AsyncSystem} (consistent : Consistent s) (i : Nat) (ok : Bool) :
    Consistent (s.execute blocksOf i ok).2 := by
  have completed : ∀ reqId ∈ s.received ++ s.found, (s.execute blocksOf i ok).2.Completed reqId :=
    fun reqId member => execute_completed (consistent.completed reqId member) i ok
  rcases s.execute_cases blocksOf i ok with same | ⟨load, present, -, ran⟩
  · rw [same]
    exact consistent
  · have requests :
      (s.loads.set i { load with status := if ok then .succeeded else .raised }).map Load.reqId =
        s.loads.map Load.reqId := by
      obtain ⟨inside, value⟩ := List.getElem?_eq_some_iff.1 present
      rw [List.map_set]
      have bound : i < (s.loads.map Load.reqId).length := by simpa using inside
      have own : load.reqId = (s.loads.map Load.reqId)[i] := by simp [value]
      simp only [own, List.set_getElem_self]
    rw [ran] at completed ⊢
    refine ⟨?_, ?_, consistent.once, completed, consistent.settled, ?_, consistent.snapshot⟩
    · simp only [requests]
      exact consistent.distinct
    · simp only [requests]
      exact consistent.tracked
    · simp only [requests]
      exact consistent.covered

/-! ## Polls -/

/-- The next look of a poll, by what it looks at. -/
inductive PollLook (s : AsyncSystem) : Shown × AsyncSystem → Prop where
  | idle (between : s.inPoll = none) (empty : s.pending.entries = []) :
      PollLook s ({ poll := some (.returned none) }, s)
  | called (between : s.inPoll = none) (some_pending : s.pending.entries ≠ []) :
      PollLook s ({}, { s with inPoll := some { remaining := s.pending.entries, done := [] } })
  | returns (done : List String) (inside : s.inPoll = some { remaining := [], done := done }) :
      PollLook s ({ poll := some (.returned (if done = [] then none else some done)) },
        { s with inPoll := none, received := s.received ++ done })
  | finds (reqId : String) (i : Nat) (load : Load) (rest : List (String × Nat)) (done : List String)
      (inside : s.inPoll = some { remaining := (reqId, i) :: rest, done := done })
      (present : s.loads[i]? = some load) (succeeded : load.status = .succeeded) :
      PollLook s ({}, { s with inPoll := some { remaining := rest, done := done ++ [reqId] }
                               pending := s.pending.erase reqId })
  | fails (reqId : String) (i : Nat) (load : Load) (rest : List (String × Nat)) (done : List String)
      (inside : s.inPoll = some { remaining := (reqId, i) :: rest, done := done })
      (present : s.loads[i]? = some load) (raised : load.status = .raised) :
      PollLook s ({ poll := some (.raised reqId) }, { s with inPoll := none })
  | passes (reqId : String) (i : Nat) (rest : List (String × Nat)) (done : List String)
      (inside : s.inPoll = some { remaining := (reqId, i) :: rest, done := done })
      (unfinished : ∀ load, s.loads[i]? = some load → load.status = .submitted) :
      PollLook s ({}, { s with inPoll := some { remaining := rest, done := done } })

theorem pollStep_look (s : AsyncSystem) : PollLook s s.pollStep := by
  unfold pollStep
  split
  · rename_i between
    split
    · exact .idle between (by assumption)
    · exact .called between (by assumption)
  · exact .returns _ (by assumption)
  · rename_i reqId i rest done inside
    cases present : s.loads[i]? with
    | none => exact .passes reqId i rest done inside (by simp [present])
    | some load =>
      cases status : load.status with
      | succeeded => simpa [status] using PollLook.finds reqId i load rest done inside present status
      | raised => simpa [status] using PollLook.fails reqId i load rest done inside present status
      | submitted =>
        simpa [status] using PollLook.passes reqId i rest done inside (by simp [present, status])

theorem pollStep_consistent {s : AsyncSystem} (consistent : Consistent s)
    (clean : s.ReadsNoFailure .poll) :
    Consistent s.pollStep.2 := by
  obtain ⟨distinct, tracked, once, completed, settled, covered, snapshot⟩ := consistent
  generalize look_eq : s.pollStep = look
  have look := look_eq ▸ s.pollStep_look
  cases look with
  | idle between empty => exact ⟨distinct, tracked, once, completed, settled, covered, snapshot⟩
  | called between some_pending =>
    rw [found_of_none between] at once completed settled covered
    refine ⟨distinct, tracked, once, completed, settled, covered, ?_⟩
    intro p inside
    obtain rfl := Option.some.inj inside
    exact ⟨s.pending.nodup, fun e member => Dict.mem_entries_iff.1 member⟩
  | returns done inside =>
    rw [found_of_some inside] at once completed settled covered
    have moved : s.received ++ done ++ [] = s.received ++ done := List.append_nil _
    refine ⟨distinct, tracked, ?_, ?_, ?_, ?_, fun p none_left => by cases none_left⟩
    · exact moved.symm ▸ once
    · exact moved.symm ▸ completed
    · exact moved.symm ▸ settled
    · exact moved.symm ▸ covered
  | finds reqId i load rest done inside present succeeded =>
    obtain ⟨keys, entries⟩ := snapshot _ inside
    rw [found_of_some inside] at once completed settled covered
    have pending : s.pending.get? reqId = some i := entries (reqId, i) List.mem_cons_self
    have owner : load.reqId = reqId := by
      have := tracked reqId i pending
      rw [List.getElem?_map, present] at this
      exact Option.some.inj this
    -- a reported request is pending no more
    have unreported : reqId ∉ s.received ++ done := fun member => by
      rw [settled reqId member] at pending
      cases pending
    have reported : s.received ++ (done ++ [reqId]) = (s.received ++ done) ++ [reqId] :=
      (List.append_assoc _ _ _).symm
    rw [List.map_cons, List.nodup_cons] at keys
    refine ⟨distinct, ?_, ?_, ?_, ?_, ?_, ?_⟩
    · intro r j still
      rw [Dict.get?_erase] at still
      split at still
      · cases still
      · exact tracked r j still
    · refine reported ▸ List.nodup_append.2 ⟨once, List.nodup_singleton _, ?_⟩
      intro a member b single
      obtain rfl := List.mem_singleton.1 single
      exact fun same => unreported (same ▸ member)
    · intro r member
      change r ∈ s.received ++ (done ++ [reqId]) at member
      rw [reported] at member
      rcases List.mem_append.1 member with member | member
      · exact completed r member
      · obtain rfl := List.mem_singleton.1 member
        exact ⟨i, load, present, owner, succeeded⟩
    · intro r member
      change r ∈ s.received ++ (done ++ [reqId]) at member
      rw [reported] at member
      rw [Dict.get?_erase]
      rcases List.mem_append.1 member with member | member
      · rw [settled r member, ite_self]
      · rw [if_pos (List.mem_singleton.1 member).symm]
    · intro r member
      change r ∈ s.received ++ (done ++ [reqId]) ∨ _
      rw [reported, Dict.get?_erase]
      rcases covered r member with earlier | waiting
      · exact .inl (List.mem_append_left _ earlier)
      · by_cases same : reqId = r
        · exact .inl (List.mem_append_right _ (by simp [same]))
        · exact .inr (by rwa [if_neg same])
    · intro p inside'
      obtain rfl := Option.some.inj inside'
      refine ⟨keys.2, fun e member => ?_⟩
      have other : reqId ≠ e.1 := fun same => keys.1 (List.mem_map.2 ⟨e, member, same.symm⟩)
      rw [Dict.get?_erase_ne _ other]
      exact entries e (List.mem_cons_of_mem _ member)
  | fails reqId i load rest done inside present raised =>
    exact absurd raised (clean (reqId, i) rest done inside load present)
  | passes reqId i rest done inside unfinished =>
    obtain ⟨keys, entries⟩ := snapshot _ inside
    rw [found_of_some inside] at once completed settled covered
    refine ⟨distinct, tracked, once, completed, settled, covered, ?_⟩
    intro p inside'
    obtain rfl := Option.some.inj inside'
    exact ⟨(List.nodup_cons.1 keys).2, fun e member => entries e (List.mem_cons_of_mem _ member)⟩

theorem pollStep_failedBy {s : AsyncSystem} (clean : s.ReadsNoFailure .poll) :
    failedBy s.pollStep.1 = none := by
  generalize look_eq : s.pollStep = look
  have look := look_eq ▸ s.pollStep_look
  cases look with
  | fails reqId i load rest done inside present raised =>
    exact absurd raised (clean (reqId, i) rest done inside load present)
  | idle | called | returns | finds | passes => rfl

theorem execute_poll (s : AsyncSystem) (i : Nat) (ok : Bool) :
    (s.execute blocksOf i ok).1.poll = none := by
  unfold execute
  split
  · split <;> rfl
  · rfl

/-- Only polls end polls. -/
theorem step_poll_of_ne {s : AsyncSystem} {e : AsyncEvent} (other : e ≠ .poll) :
    (s.step blocksOf e).1.poll = none := by
  cases e with
  | allocate | finish => rfl
  | startLoad metadata =>
    unfold step startLoadKv
    cases metadata with
    | none => rfl
    | some plan => by_cases async : s.asyncLoad = true <;> simp [async]
  | execute i ok => exact s.execute_poll i ok
  | poll => exact absurd rfl other

theorem step_consistent (s : AsyncSystem) (e : AsyncEvent) (consistent : Consistent s)
    (allowed : s.Lifecycle e ∧ s.ReadsNoFailure e) : Consistent (s.step blocksOf e).2 := by
  obtain ⟨lifecycle, clean⟩ := allowed
  cases e with
  | allocate reqId blocks =>
    exact ⟨consistent.distinct, consistent.tracked, consistent.once, consistent.completed,
      consistent.settled,
      consistent.covered, consistent.snapshot⟩
  | finish reqId =>
    exact ⟨consistent.distinct, consistent.tracked, consistent.once, consistent.completed,
      consistent.settled,
      consistent.covered, consistent.snapshot⟩
  | startLoad metadata => exact startLoadKv_consistent consistent lifecycle
  | execute i ok => exact execute_consistent consistent i ok
  | poll => exact pollStep_consistent consistent clean

theorem step_failedBy (s : AsyncSystem) (e : AsyncEvent) (clean : s.ReadsNoFailure e) :
    failedBy (s.step blocksOf e).1 = none := by
  by_cases isPoll : e = .poll
  · subst isPoll
    exact pollStep_failedBy clean
  · rw [failedBy, step_poll_of_ne isPoll]

/-! ## A poll that returns -/

/-- The poll in progress has found `reqId` or is yet to look at its completed load, unless it
    was reported before. -/
def Due (s : AsyncSystem) (reqId : String) : Prop :=
  reqId ∈ s.received ++ s.found ∨ ∃ (p : Poll) (i : Nat) (load : Load), s.inPoll = some p ∧
    (reqId, i) ∈ p.remaining ∧
    s.loads[i]? = some load ∧ load.status = .succeeded

theorem pollStep_due {s : AsyncSystem} {reqId : String} (inside : s.inPoll ≠ none)
    (due : s.Due reqId) :
    (s.pollStep.1.poll = none → s.pollStep.2.Due reqId ∧ s.pollStep.2.inPoll ≠ none) ∧
      ∀ ids, s.pollStep.1.poll = some (.returned ids) → reqId ∈ s.pollStep.2.received := by
  generalize look_eq : s.pollStep = look
  have look := look_eq ▸ s.pollStep_look
  cases look with
  | idle between empty => exact absurd between inside
  | called between some_pending => exact absurd between inside
  | returns done inPoll =>
    refine ⟨fun silent => (Option.some_ne_none _ silent).elim, fun ids _ => ?_⟩
    rcases due with reported | ⟨p, i, load, inPoll', waiting, -⟩
    · rwa [found_of_some inPoll] at reported
    · obtain rfl := Option.some.inj (inPoll.symm.trans inPoll')
      cases waiting
  | finds r i load rest done inPoll present succeeded =>
    refine ⟨fun _ => ⟨?_, by simp⟩, fun ids ended => by cases ended⟩
    have reported_iff : ∀ x, x ∈ s.received ++ (done ++ [r]) ↔ x ∈ s.received ++ s.found ∨
      x = r := by
      intro x
      simp [found_of_some inPoll, or_assoc]
    rcases due with reported | ⟨p, j, load', inPoll', waiting, present', succeeded'⟩
    · exact .inl ((reported_iff reqId).2 (.inl reported))
    · obtain rfl := Option.some.inj (inPoll.symm.trans inPoll')
      rcases List.mem_cons.1 waiting with head | tail
      · exact .inl ((reported_iff reqId).2 (.inr (congrArg Prod.fst head)))
      · exact .inr ⟨_, j, load', rfl, tail, present', succeeded'⟩
  | fails r i load rest done inPoll present raised =>
    exact ⟨fun silent => (Option.some_ne_none _ silent).elim, fun ids ended => by cases ended⟩
  | passes r i rest done inPoll unfinished =>
    refine ⟨fun _ => ⟨?_, by simp⟩, fun ids ended => by cases ended⟩
    rcases due with reported | ⟨p, j, load', inPoll', waiting, present', succeeded'⟩
    · rw [found_of_some inPoll] at reported
      exact .inl reported
    · obtain rfl := Option.some.inj (inPoll.symm.trans inPoll')
      rcases List.mem_cons.1 waiting with head | tail
      -- a completed load is not passed over
      · obtain rfl := congrArg Prod.snd head
        have submitted := unfinished load' present'
        rw [succeeded'] at submitted
        cases submitted
      · exact .inr ⟨_, j, load', rfl, tail, present', succeeded'⟩

theorem execute_due {s : AsyncSystem} {reqId : String} (due : s.Due reqId) (i : Nat) (ok : Bool) :
    (s.execute blocksOf i ok).2.Due reqId := by
  rcases s.execute_cases blocksOf i ok with same | ⟨load, present, submitted, ran⟩
  · rw [same]
    exact due
  · rw [ran]
    rcases due with reported | ⟨p, j, load', inPoll, waiting, present', succeeded⟩
    · exact .inl reported
    · have other : i ≠ j := by
        rintro rfl
        obtain rfl := Option.some.inj (present.symm.trans present')
        rw [succeeded] at submitted
        cases submitted
      exact .inr ⟨p, j, load', inPoll, waiting,
        by rw [List.getElem?_set_ne other, present'], succeeded⟩

variable (blocksOf) in
theorem step_due {s : AsyncSystem} {e : AsyncEvent} {reqId : String} (inside : s.inPoll ≠ none)
    (allowed : s.Lifecycle e) (due : s.Due reqId) :
    ((s.step blocksOf e).1.poll = none → (s.step blocksOf e).2.Due reqId ∧
      (s.step blocksOf e).2.inPoll ≠ none) ∧
      ∀ ids, (s.step blocksOf e).1.poll = some (.returned ids) →
        reqId ∈ (s.step blocksOf e).2.received := by
  cases e with
  | allocate r blocks => exact ⟨fun _ => ⟨due, inside⟩, fun ids ended => by cases ended⟩
  | finish r => exact ⟨fun _ => ⟨due, inside⟩, fun ids ended => by cases ended⟩
  | startLoad metadata => exact absurd allowed.1 inside
  | execute i ok =>
    have inPoll : (s.execute blocksOf i ok).2.inPoll = s.inPoll := by
      rcases s.execute_cases blocksOf i ok with same | ⟨load, -, -, ran⟩
      · rw [same]
      · rw [ran]
    refine ⟨fun _ => ⟨execute_due due i ok, ?_⟩, fun ids ended => ?_⟩
    · change (s.execute blocksOf i ok).2.inPoll ≠ none
      rwa [inPoll]
    · change (s.execute blocksOf i ok).1.poll = _ at ended
      rw [s.execute_poll i ok] at ended
      cases ended
  | poll => exact pollStep_due inside due

/-- A poll in progress that goes on to return reports what is due. -/
theorem pollReturns_reports {s : AsyncSystem} {events : List AsyncEvent} {reqId : String}
    (inside : s.inPoll ≠ none)
    (allowed : (asyncLoads blocksOf).Meets Lifecycle s events) (due : s.Due reqId)
    (returns : PollReturns blocksOf s events) :
      reqId ∈ ((asyncLoads blocksOf).exec s events).received := by
  induction events generalizing s with
  | nil => cases returns
  | cons e es ih =>
    obtain ⟨continues, ends⟩ := step_due blocksOf inside allowed.1 due
    cases es with
    | nil =>
      obtain ⟨ids, ended⟩ := returns
      exact ends ids ended
    | cons e' es' =>
      obtain ⟨due', inside'⟩ := continues returns.1
      exact ih inside' allowed.2 due' returns.2

theorem wholePoll_reports {s : AsyncSystem} {events : List AsyncEvent} {reqId : String}
    (consistent : Consistent s)
    (completed : s.Completed reqId) (allowed : (asyncLoads blocksOf).Meets Lifecycle s events)
    (whole : WholePoll blocksOf s events) :
      reqId ∈ ((asyncLoads blocksOf).exec s events).received := by
  obtain ⟨between, ⟨rest, rfl⟩, returns⟩ := whole
  obtain ⟨i, load, present, rfl, succeeded⟩ := completed
  have none_found := found_of_none between
  have reported_or_pending :=
    consistent.covered load.reqId (List.mem_map_of_mem (List.mem_of_getElem? present))
  rw [none_found, List.append_nil] at reported_or_pending
  have look := s.pollStep_look
  by_cases empty : s.pending.entries = []
  · -- nothing is pending: the call returns at once, and the load was reported before
    have stepped : s.pollStep = ({ poll := some (.returned none) }, s) := by
      simp [pollStep, between, empty]
    have unpending : s.pending.get? load.reqId = none := by simp [Dict.get?, empty, Dict.lookup]
    have reported : load.reqId ∈ s.received := by simpa [unpending] using reported_or_pending
    cases rest with
    | nil =>
      change load.reqId ∈ s.pollStep.2.received
      rwa [stepped]
    | cons e es =>
      have silent : s.pollStep.1.poll = none := returns.1
      rw [stepped] at silent
      cases silent
  · have stepped :
      s.pollStep =
      ({}, { s with inPoll := some { remaining := s.pending.entries, done := [] } }) := by
      simp [pollStep, between, empty]
    cases rest with
    | nil =>
      obtain ⟨ids, ended⟩ := returns
      change s.pollStep.1.poll = _ at ended
      rw [stepped] at ended
      cases ended
    | cons e es =>
      have continues : PollReturns blocksOf s.pollStep.2 (e :: es) := returns.2
      have later : (asyncLoads blocksOf).Meets Lifecycle s.pollStep.2 (e :: es) := allowed.2
      change load.reqId ∈ ((asyncLoads blocksOf).exec s.pollStep.2 (e :: es)).received
      rw [stepped] at continues later ⊢
      refine pollReturns_reports (by simp) later ?_ continues
      rcases reported_or_pending with reported | pending
      · exact .inl (List.mem_append_left _ reported)
      -- the pending entry is of this load, since ids are distinct
      · obtain ⟨j, waiting⟩ := Option.isSome_iff_exists.1 pending
        have tracked := consistent.tracked load.reqId j waiting
        have own :
          (s.loads.map Load.reqId)[i]? = some load.reqId := by rw [List.getElem?_map, present]; rfl
        obtain rfl := (List.getElem?_inj (List.getElem?_eq_some_iff.1 own).1 consistent.distinct).1
          (own.trans tracked.symm)
        exact .inr ⟨_, i, load, rfl, Dict.mem_entries_iff.2 waiting, present, succeeded⟩

end AsyncSystem

open AsyncSystem in
/-- In every run in which no poll reads the future of a load that raised, completions are
    reported exactly once and failures stay isolated. -/
theorem completions_reported_exactly_once (blocksOf : String → Nat) (asyncLoad : Bool)
    (events : List AsyncEvent)
    (lifecycle : (asyncLoads blocksOf).Meets Lifecycle { asyncLoad := asyncLoad } events)
    (clean : (asyncLoads blocksOf).Meets ReadsNoFailure { asyncLoad := asyncLoad } events) :
    ReportsExactlyOnce blocksOf { asyncLoad := asyncLoad } events := by
  have start := consistent_start asyncLoad
  have allowed := lifecycle.and clean
  have reached : ∀ before after, events = before ++ after →
      Consistent ((asyncLoads blocksOf).exec { asyncLoad := asyncLoad } before) := by
    intro before after split
    rw [split] at allowed
    exact Machine.Meets.invariant step_consistent start allowed.append.1
  refine ⟨fun before after split => (reached before after split).accounted, ?_, ?_⟩
  · intro before poll after split whole reqId completed
    rw [split, List.append_assoc] at lifecycle
    rw [Machine.exec_append]
    exact wholePoll_reports
      (reached before (poll ++ after) (by rw [split, List.append_assoc])) completed
      lifecycle.append.2.append.1 whole
  · have step : ∀ s e, True → ReadsNoFailure s e →
      failedBy ((asyncLoads blocksOf).out s e) = none :=
      fun s e _ clean => step_failedBy s e clean
    have quiet :=
      (Machine.Meets.run (fun _ shown => failedBy shown = none)
        (fun _ _ _ _ => trivial) step trivial clean).2
    have none_failed : ((asyncLoads blocksOf).trace { asyncLoad := asyncLoad } events).filterMap
        (fun p => failedBy p.2) = [] := List.filterMap_eq_nil_iff.2 quiet
    rw [none_failed]
    exact List.nodup_nil

/-! ## A load that raised -/

namespace AsyncSystem

/-- The load of `reqId` raised and is still pending, ahead of any poll in progress. -/
structure Stuck (reqId : String) (i : Nat) (s : AsyncSystem) : Prop where
  waiting : s.pending.get? reqId = some i
  failed : ∃ load, s.loads[i]? = some load ∧ load.reqId = reqId ∧ load.status = .raised
  ahead : ∀ p, s.inPoll = some p → (p.remaining.map Prod.fst).Nodup ∧ (reqId, i) ∈ p.remaining

theorem submitAll_frame {entries : List (String × String × List Nat)} {reqId : String}
    (absent : reqId ∉ entries.map Prod.fst) (s : AsyncSystem) :
    (entries.foldl submit s).pending.get? reqId = s.pending.get? reqId ∧
      (entries.foldl submit s).inPoll = s.inPoll ∧
      ∀ (i : Nat) load, s.loads[i]? = some load →
        (entries.foldl submit s).loads[i]? = some load := by
  induction entries generalizing s with
  | nil => exact ⟨rfl, rfl, fun _ _ present => present⟩
  | cons e rest ih =>
    rw [List.map_cons, List.mem_cons, not_or] at absent
    obtain ⟨pending, inPoll, loads⟩ := ih absent.2 (s.submit e)
    refine ⟨?_, inPoll, ?_⟩
    · rw [List.foldl_cons, pending]
      exact Dict.get?_set_ne _ _ (Ne.symm absent.1)
    · intro i load present
      refine loads i load ?_
      rw [submit, List.getElem?_append_left (List.getElem?_eq_some_iff.1 present).1, present]

theorem startLoadKv_stuck {s : AsyncSystem} {reqId : String} {i : Nat} (stuck : Stuck reqId i s)
    {metadata : Option ConnectorMetadata} (allowed : s.Lifecycle (.startLoad metadata)) :
    Stuck reqId i (s.startLoadKv blocksOf metadata).2 := by
  unfold startLoadKv
  cases metadata with
  | none => exact stuck
  | some plan =>
    by_cases async : s.asyncLoad = true
    · obtain ⟨load, present, owner, raised⟩ := stuck.failed
      have absent : reqId ∉ plan.loads.entries.map Prod.fst := by
        rw [← owner]
        exact Dict.lookup_eq_none.1 (allowed.2 plan rfl load (List.mem_of_getElem? present))
      obtain ⟨pending, inPoll, loads⟩ := submitAll_frame absent s
      simp only [async, if_true]
      exact ⟨pending.trans stuck.waiting, ⟨load, loads i load present, owner, raised⟩,
        fun p inside => stuck.ahead p (inPoll ▸ inside)⟩
    · simpa [async] using stuck

theorem pollStep_stuck {s : AsyncSystem} {reqId : String} {i : Nat} (stuck : Stuck reqId i s) :
    Stuck reqId i s.pollStep.2 ∧ ∀ ids, s.pollStep.1.poll ≠ some (.returned ids) := by
  obtain ⟨waiting, failed, ahead⟩ := stuck
  have member := Dict.mem_entries_iff.2 waiting
  generalize look_eq : s.pollStep = look
  have look := look_eq ▸ s.pollStep_look
  cases look with
  | idle between empty =>
    rw [empty] at member
    cases member
  | called between some_pending =>
    refine ⟨⟨waiting, failed, ?_⟩, fun ids ended => by cases ended⟩
    intro p inside
    obtain rfl := Option.some.inj inside
    exact ⟨s.pending.nodup, member⟩
  | returns done inside => cases (ahead _ inside).2
  | finds r j load rest done inside present succeeded =>
    obtain ⟨keys, queued⟩ := ahead _ inside
    rw [List.map_cons, List.nodup_cons] at keys
    rcases List.mem_cons.1 queued with head | tail
    · obtain ⟨load', present', -, raised⟩ := failed
      obtain ⟨rfl, rfl⟩ := Prod.mk.inj head
      obtain rfl := Option.some.inj (present.symm.trans present')
      rw [succeeded] at raised
      cases raised
    -- another request is popped
    · have other : r ≠ reqId := fun same => keys.1 (List.mem_map.2 ⟨_, tail, same.symm⟩)
      refine ⟨⟨?_, failed, ?_⟩, fun ids ended => by cases ended⟩
      · rw [Dict.get?_erase_ne _ other, waiting]
      · intro p inside'
        obtain rfl := Option.some.inj inside'
        exact ⟨keys.2, tail⟩
  | fails r j load rest done inside present raised =>
    exact ⟨⟨waiting, failed, fun p none_left => by cases none_left⟩,
      fun ids ended => by cases ended⟩
  | passes r j rest done inside unfinished =>
    obtain ⟨keys, queued⟩ := ahead _ inside
    rcases List.mem_cons.1 queued with head | tail
    · obtain ⟨load', present', -, raised⟩ := failed
      obtain ⟨rfl, rfl⟩ := Prod.mk.inj head
      have submitted := unfinished load' present'
      rw [raised] at submitted
      cases submitted
    · refine ⟨⟨waiting, failed, ?_⟩, fun ids ended => by cases ended⟩
      intro p inside'
      obtain rfl := Option.some.inj inside'
      exact ⟨(List.nodup_cons.1 keys).2, tail⟩

theorem step_stuck {s : AsyncSystem} {e : AsyncEvent} {reqId : String} {i : Nat}
    (stuck : Stuck reqId i s)
    (allowed : s.Lifecycle e) :
    Stuck reqId i (s.step blocksOf e).2 ∧ ∀ ids,
      (s.step blocksOf e).1.poll ≠ some (.returned ids) := by
  refine ⟨?_, ?_⟩
  · cases e with
    | allocate r blocks => exact ⟨stuck.waiting, stuck.failed, stuck.ahead⟩
    | finish r => exact ⟨stuck.waiting, stuck.failed, stuck.ahead⟩
    | startLoad metadata => exact startLoadKv_stuck stuck allowed
    | execute j ok =>
      change Stuck reqId i (s.execute blocksOf j ok).2
      rcases s.execute_cases blocksOf j ok with same | ⟨load, present, submitted, ran⟩
      · rwa [same]
      · obtain ⟨load', present', owner, raised⟩ := stuck.failed
        have other : j ≠ i := by
          rintro rfl
          obtain rfl := Option.some.inj (present.symm.trans present')
          rw [raised] at submitted
          cases submitted
        rw [ran]
        exact ⟨stuck.waiting, ⟨load', by rw [List.getElem?_set_ne other, present'], owner, raised⟩,
          stuck.ahead⟩
    | poll => exact (pollStep_stuck stuck).1
  · by_cases isPoll : e = .poll
    · subst isPoll
      exact (pollStep_stuck stuck).2
    · intro ids ended
      rw [step_poll_of_ne isPoll] at ended
      cases ended

/-- Once a pending load has raised, no poll returns any more. -/
theorem failed_load_blocks_polls {s : AsyncSystem} {reqId : String} {i : Nat}
    (stuck : Stuck reqId i s)
    (events : List AsyncEvent) (lifecycle : (asyncLoads blocksOf).Meets Lifecycle s events) :
    ∀ p ∈ (asyncLoads blocksOf).trace s events, ∀ ids, p.2.poll ≠ some (.returned ids) := by
  have step : ∀ t e, Stuck reqId i t → t.Lifecycle e →
    Stuck reqId i ((asyncLoads blocksOf).next t e) ∧
      ∀ ids, ((asyncLoads blocksOf).out t e).poll ≠ some (.returned ids) := fun t e => step_stuck
  exact (Machine.Meets.run (fun _ shown => ∀ ids, shown.poll ≠ some (.returned ids))
    (fun t e stuck allowed => (step t e stuck allowed).1)
    (fun t e stuck allowed => (step t e stuck allowed).2)
    stuck lifecycle).2

end AsyncSystem

/-! Two loads are pending; the first completes, the second raises or completes too. -/

def twoLoads : Option ConnectorMetadata :=
  some { loads := (Dict.empty.set "a" ("key", [4])).set "b" ("key", [5]), saves := Dict.empty }

def pollsAfter (ok : Bool) : List AsyncEvent :=
  [.startLoad twoLoads, .execute 0 true, .execute 1 ok, .poll, .poll, .poll, .poll]

theorem completion_lost :
    (asyncLoads fun _ => 1).Meets AsyncSystem.Lifecycle { asyncLoad := true } (pollsAfter false) ∧
      ¬ ReportsExactlyOnce (fun _ => 1) { asyncLoad := true } (pollsAfter false) := by
  refine ⟨⟨⟨rfl, by simp⟩, trivial, trivial, trivial, trivial, trivial, trivial, trivial⟩, ?_⟩
  intro reports
  have kept := (reports.accounted (pollsAfter false) [] (List.append_nil _).symm).kept "a"
    ⟨0, { reqId := "a", key := "key", blockIds := [4], status := .succeeded }, by decide, rfl, rfl⟩
  revert kept
  decide

theorem completions_reported_exactly_once_twoLoads :
    ReportsExactlyOnce (fun _ => 1) { asyncLoad := true } (pollsAfter true) := by
  have clean : ∀ s : AsyncSystem, (∀ load ∈ s.loads, load.status ≠ .raised) →
    s.ReadsNoFailure .poll :=
    fun s none_raised e rest done _ load present => none_raised load (List.mem_of_getElem? present)
  exact completions_reported_exactly_once _ true _
    ⟨⟨rfl, by simp⟩, trivial, trivial, trivial, trivial, trivial, trivial, trivial⟩
    ⟨trivial, trivial, trivial, clean _ (by decide), clean _ (by decide), clean _ (by decide),
      clean _ (by decide), trivial⟩

end Dexa.Engine
