import Dexa.Lib.Lists
import Dexa.Platform.Accounts
import Mathlib.Algebra.Order.Ring.Rat

/-! # Concurrent calls of `metering.record` (`dexa_platform/control/metering.py`)

Each call is a transaction of three steps: it selects its usage row, inserts the missing row
or modifies the found one in memory, and commits.  At READ COMMITTED a select sees what is
committed; an insert waits for another open insert of the same row and raises if the row is
there; a commit writes back the columns that changed in memory, with the values computed
from the row as it was selected.  Nothing makes the row wait between select and commit: two
calls for one row that overlap lose an update, or the second one raises.
-/

namespace Dexa.Platform

open Dexa.Lib

/-! ## Rows in memory -/

/-- What an `UPDATE` leaves in a column: it sets the columns that changed in memory. -/
def changed {α : Type} [DecidableEq α] (loaded new current : α) : α :=
  if new = loaded then current else new

def UsageDaily.update (loaded row current : UsageDaily) : UsageDaily :=
  { current with
    requests := changed loaded.requests row.requests current.requests
    cacheHits := changed loaded.cacheHits row.cacheHits current.cacheHits
    dexaUsd := changed loaded.dexaUsd row.dexaUsd current.dexaUsd
    baselineUsd := changed loaded.baselineUsd row.baselineUsd current.baselineUsd
    savedUsd := changed loaded.savedUsd row.savedUsd current.savedUsd
    dexaImageTokens := changed loaded.dexaImageTokens row.dexaImageTokens current.dexaImageTokens
    baselineImageTokens :=
      changed loaded.baselineImageTokens row.baselineImageTokens current.baselineImageTokens
    redundantSum := changed loaded.redundantSum row.redundantSum current.redundantSum
    redundantN := changed loaded.redundantN row.redundantN current.redundantN }

/-- What a row counts. -/
@[ext]
structure Tally where
  requests : Nat
  cacheHits : Nat
  dexaUsd : ℚ
  baselineUsd : ℚ
  savedUsd : ℚ
  dexaImageTokens : Nat
  baselineImageTokens : Nat
  redundantSum : ℚ
  redundantN : Nat
  deriving DecidableEq

namespace Tally

instance : Zero Tally := ⟨⟨0, 0, 0, 0, 0, 0, 0, 0, 0⟩⟩

instance : Add Tally :=
  ⟨fun a b => ⟨a.requests + b.requests, a.cacheHits + b.cacheHits, a.dexaUsd + b.dexaUsd,
    a.baselineUsd + b.baselineUsd,
    a.savedUsd + b.savedUsd, a.dexaImageTokens + b.dexaImageTokens,
      a.baselineImageTokens + b.baselineImageTokens,
    a.redundantSum + b.redundantSum, a.redundantN + b.redundantN⟩⟩

instance : AddCommMonoid Tally where
  add_assoc a b c :=
    Tally.ext (add_assoc ..) (add_assoc ..) (add_assoc ..) (add_assoc ..) (add_assoc ..)
      (add_assoc ..)
    (add_assoc ..) (add_assoc ..) (add_assoc ..)
  zero_add a := Tally.ext (zero_add _) (zero_add _) (zero_add _) (zero_add _) (zero_add _)
    (zero_add _) (zero_add _)
    (zero_add _) (zero_add _)
  add_zero a := Tally.ext (add_zero _) (add_zero _) (add_zero _) (add_zero _) (add_zero _)
    (add_zero _) (add_zero _)
    (add_zero _) (add_zero _)
  add_comm a b :=
    Tally.ext (add_comm ..) (add_comm ..) (add_comm ..) (add_comm ..) (add_comm ..) (add_comm ..)
    (add_comm ..) (add_comm ..) (add_comm ..)
  nsmul := nsmulRec

end Tally

def UsageDaily.tally (row : UsageDaily) : Tally :=
  ⟨row.requests, row.cacheHits, row.dexaUsd, row.baselineUsd, row.savedUsd, row.dexaImageTokens,
    row.baselineImageTokens,
    row.redundantSum, row.redundantN⟩

/-- What one call adds. -/
def Metering.Usage.tally (u : Metering.Usage) : Tally :=
  ⟨1, u.cacheHit.toNat, u.dexaUsd, u.baselineUsd, u.savedUsd, u.dexaImageTokens,
    u.baselineImageTokens, u.redundantFrac, 1⟩

theorem Metering.Usage.tally_addTo (u : Metering.Usage) (row : UsageDaily) :
    (u.addTo row).tally = row.tally + u.tally := rfl

/-- Writing back to the row that was loaded gives the row in memory. -/
theorem UsageDaily.update_self (u : Metering.Usage) (row : UsageDaily) :
    UsageDaily.update row (u.addTo row) row = u.addTo row := by
  have same : ∀ {α : Type} [DecidableEq α] (a b : α), changed a b a = b := by
    intro α _ a b
    rw [changed]
    split
    · next unchanged => exact unchanged.symm
    · rfl
  simp only [UsageDaily.update, same]
  rfl

/-- What a table counts in a row; a missing row counts nothing. -/
def tallyAt (table : Dict (String × String) UsageDaily) (k : String × String) : Tally :=
  (table.get? k).elim 0 UsageDaily.tally

theorem tallyAt_set (table : Dict (String × String) UsageDaily) (k k' : String × String)
    (row : UsageDaily) :
    tallyAt (table.set k row) k' = if k = k' then row.tally else tallyAt table k' := by
  rw [tallyAt, Dict.get?_set]
  split <;> rfl

namespace Metering

/-! ## Transactions -/

/-- The arguments of one call. -/
structure Recording where
  orgId : String
  keyId : String
  day : String
  usage : Usage
  deriving DecidableEq

def Recording.row (r : Recording) : String × String := (r.keyId, r.day)

/-- The row a call inserts. -/
def Recording.blank (r : Recording) : UsageDaily :=
  { orgId := r.orgId, keyId := r.keyId, day := r.day }

inductive Phase where
  | called
  | selected (row : Option UsageDaily)
  /-- the row as loaded or inserted, the row in memory, and whether it was inserted -/
  | modified (loaded row : UsageDaily) (inserted : Bool)
  | committed
  /-- the unique constraint, or a row that vanished -/
  | raised
  deriving DecidableEq

structure Call extends Recording where
  phase : Phase := .called
  deriving DecidableEq

/-- The committed rows, and the calls. -/
structure Transactions where
  usageDaily : Dict (String × String) UsageDaily
  calls : List Call

def Call.insertOpen (c : Call) : Bool :=
  match c.phase with
  | .modified _ _ true => true
  | _ => false

/-- Between its select and its commit. -/
def Call.inFlight (c : Call) : Bool :=
  match c.phase with
  | .selected _ | .modified _ _ _ => true
  | _ => false

namespace Transactions

def setPhase (s : Transactions) (i : Nat) (c : Call) (phase : Phase) : Transactions :=
  { s with calls := s.calls.set i { c with phase } }

/-- The call at index `i` takes its next step; the flag is whether it could. -/
def step (s : Transactions) (i : Nat) : Bool × Transactions :=
  match s.calls[i]? with
  | none => (false, s)
  | some c =>
    match c.phase with
    | .called => (true, s.setPhase i c (.selected (s.usageDaily.get? c.row)))
    | .selected none =>
      -- the unique index makes the insert wait until the other transaction is over
      if s.calls.any fun c' => c'.row = c.row && c'.insertOpen then (false, s)
      else if s.usageDaily.contains c.row then (true, s.setPhase i c .raised)
      else
        (true, s.setPhase i c (.modified c.blank (c.usage.addTo c.blank) true))
    | .selected (some row) => (true, s.setPhase i c (.modified row (c.usage.addTo row) false))
    | .modified _ row true =>
      (true, { (s.setPhase i c .committed) with usageDaily := s.usageDaily.set c.row row })
    | .modified loaded row false =>
      match s.usageDaily.get? c.row with
      | none => (true, s.setPhase i c .raised)
      | some current =>
        (true, { (s.setPhase i c .committed) with
          usageDaily := s.usageDaily.set c.row (UsageDaily.update loaded row current) })
    | .committed | .raised => (false, s)

def start (table : Dict (String × String) UsageDaily) (recordings : List Recording) :
    Transactions :=
  ⟨table, recordings.map fun r => { r with }⟩

end Transactions

/-- The calls, interleaved: each event is the index of the call that takes a step. -/
def transactions : Machine Transactions Nat Bool := ⟨Transactions.step⟩

namespace Transactions

variable {s : Transactions} {i : Nat}

/-- What the call at index `i` can do in one step. -/
inductive Took (s : Transactions) (i : Nat) : Transactions → Prop
  | nothing : Took s i s
  | select {c : Call} (found : s.calls[i]? = some c) (phase : c.phase = .called) :
      Took s i (s.setPhase i c (.selected (s.usageDaily.get? c.row)))
  | insert {c : Call} (found : s.calls[i]? = some c) (phase : c.phase = .selected none)
      (absent : s.usageDaily.get? c.row = none) :
      Took s i (s.setPhase i c (.modified c.blank (c.usage.addTo c.blank) true))
  | conflict {c : Call} {row : UsageDaily} (found : s.calls[i]? = some c)
      (phase : c.phase = .selected none)
      (present : s.usageDaily.get? c.row = some row) : Took s i (s.setPhase i c .raised)
  | modify {c : Call} {row : UsageDaily} (found : s.calls[i]? = some c)
      (phase : c.phase = .selected (some row)) :
      Took s i (s.setPhase i c (.modified row (c.usage.addTo row) false))
  | commitInsert {c : Call} {loaded row : UsageDaily} (found : s.calls[i]? = some c)
      (phase : c.phase = .modified loaded row true) :
      Took s i { (s.setPhase i c .committed) with usageDaily := s.usageDaily.set c.row row }
  | commitUpdate {c : Call} {loaded row current : UsageDaily} (found : s.calls[i]? = some c)
      (phase : c.phase = .modified loaded row false)
      (present : s.usageDaily.get? c.row = some current) :
      Took s i { (s.setPhase i c .committed) with
        usageDaily := s.usageDaily.set c.row (UsageDaily.update loaded row current) }
  | vanished {c : Call} {loaded row : UsageDaily} (found : s.calls[i]? = some c)
      (phase : c.phase = .modified loaded row false) (absent : s.usageDaily.get? c.row = none) :
      Took s i (s.setPhase i c .raised)

theorem took (s : Transactions) (i : Nat) : Took s i (transactions.next s i) := by
  change Took s i (s.step i).2
  rw [step]
  cases found : s.calls[i]? with
  | none => exact .nothing
  | some c =>
    cases phase : c.phase with
    | called => simpa only [phase] using Took.select found phase
    | selected row =>
      cases row with
      | none =>
        simp only [phase]
        split
        · exact .nothing
        · cases present : s.usageDaily.get? c.row with
          | none => simpa [Dict.contains, present] using Took.insert found phase present
          | some row => simpa [Dict.contains, present] using Took.conflict found phase present
      | some row => simpa only [phase] using Took.modify found phase
    | modified loaded row inserted =>
      cases inserted with
      | true => simpa only [phase] using Took.commitInsert found phase
      | false =>
        cases present : s.usageDaily.get? c.row with
        | none => simpa only [phase, present] using Took.vanished found phase present
        | some current => simpa only [phase, present] using Took.commitUpdate found phase present
    | committed => simpa only [phase] using Took.nothing
    | raised => simpa only [phase] using Took.nothing

/-- The calls after one of them changed its phase. -/
theorem getElem?_setPhase {c : Call} (phase : Phase) (found : s.calls[i]? = some c) (j : Nat) :
    (s.setPhase i c phase).calls[j]? = if i = j then some { c with phase } else s.calls[j]? := by
  rw [setPhase, List.getElem?_set]
  have inside : i < s.calls.length := (List.getElem?_eq_some_iff.1 found).1
  split
  · next same => subst same; rfl
  · rfl

theorem insertOpen_setPhase {c : Call} (i : Nat) {phase : Phase}
    (closed : Call.insertOpen { c with phase } = false)
    (alone : s.calls.any (fun c' => c'.row = c.row && c'.insertOpen) = false) :
    (s.setPhase i c phase).calls.any (fun c' => c'.row = c.row && c'.insertOpen) = false := by
  rw [List.any_eq_false] at alone ⊢
  intro c' member
  cases List.mem_or_eq_of_mem_set member with
  | inl old => exact alone c' old
  | inr new => rw [new, closed, Bool.and_false]; exact Bool.false_ne_true

theorem next_inserted {c : Call} {loaded row : UsageDaily} (found : s.calls[i]? = some c)
    (phase : c.phase = .modified loaded row true) :
      (transactions.next s i).usageDaily = s.usageDaily.set c.row row := by
  simp [transactions, Machine.next, step, found, phase]

theorem next_modified {c : Call} {loaded row current : UsageDaily} (found : s.calls[i]? = some c)
    (phase : c.phase = .modified loaded row false)
    (present : s.usageDaily.get? c.row = some current) :
    (transactions.next s i).usageDaily = s.usageDaily.set c.row
      (UsageDaily.update loaded row current) := by
  simp [transactions, Machine.next, step, found, phase, present]

/-- A call that runs its three steps without another insert of its row in the way is
    `metering.record`. -/
theorem call_is_record {c : Call} (found : s.calls[i]? = some c) (phase : c.phase = .called)
    (alone : s.calls.any (fun c' => c'.row = c.row && c'.insertOpen) = false) (db : ControlDb) :
    (transactions.exec s [i, i, i]).usageDaily =
      (record { db with usageDaily := s.usageDaily } c.orgId c.keyId c.day c.usage).usageDaily := by
  have selects : transactions.next s i = s.setPhase i c (.selected (s.usageDaily.get? c.row)) := by
    simp [transactions, Machine.next, step, found, phase]
  have selected := getElem?_setPhase (.selected (s.usageDaily.get? c.row)) found i
  rw [if_pos rfl] at selected
  rw [Machine.exec_cons, selects]
  cases present : s.usageDaily.get? c.row with
  | none =>
    rw [present] at selected
    have inserts : transactions.next (s.setPhase i c (.selected none)) i =
        (s.setPhase i c (.selected none)).setPhase i { c with phase := .selected none }
          (.modified c.blank (c.usage.addTo c.blank) true) := by
      have closed :
        (s.setPhase i c (.selected none)).calls.any (fun c' => c'.row = c.row && c'.insertOpen) =
        false :=
        insertOpen_setPhase i rfl alone
      have absent : (s.setPhase i c (.selected none)).usageDaily.get? c.row = none := present
      simp only [transactions, Machine.next, step, selected, closed, Dict.contains, absent]
      rfl
    have inserted := getElem?_setPhase (.modified c.blank (c.usage.addTo c.blank) true) selected i
    rw [if_pos rfl] at inserted
    rw [Machine.exec_cons, inserts, Machine.exec_cons, Machine.exec_nil]
    rw [next_inserted inserted rfl, record, show (c.keyId, c.day) = c.row from rfl, present]
    rfl
  | some row =>
    rw [present] at selected
    have modifies : transactions.next (s.setPhase i c (.selected (some row))) i =
        (s.setPhase i c (.selected (some row))).setPhase i { c with phase := .selected (some row) }
          (.modified row (c.usage.addTo row) false) := by
      simp only [transactions, Machine.next, step, selected]
    have modified := getElem?_setPhase (.modified row (c.usage.addTo row) false) selected i
    rw [if_pos rfl] at modified
    rw [Machine.exec_cons, modifies, Machine.exec_cons, Machine.exec_nil]
    rw [next_modified modified rfl present, UsageDaily.update_self, record,
      show (c.keyId, c.day) = c.row from rfl, present]
    rfl

/-! ## Calls that do not overlap -/

/-- The call at index `i` is about to select while another call of its row is between its
    select and its commit. -/
def overlaps (s : Transactions) (i : Nat) : Bool :=
  match s.calls[i]? with
  | some c => c.phase = .called && s.calls.any fun c' => c'.row = c.row && c'.inFlight
  | none => false

/-- What a call has read is what is committed. -/
def Current (table : Dict (String × String) UsageDaily) (c : Call) : Prop :=
  match c.phase with
  | .called | .committed => True
  | .selected row => table.get? c.row = row
  | .modified loaded row true => table.get? c.row = none ∧ loaded.tally = 0 ∧ row = c.usage.addTo loaded
  | .modified loaded row false => table.get? c.row = some loaded ∧ row = c.usage.addTo loaded
  | .raised => False

/-- What a call has added to a row so far. -/
def recorded (k : String × String) (c : Call) : Tally :=
  if c.phase = .committed ∧ c.row = k then c.usage.tally else 0

structure Exact (table : Dict (String × String) UsageDaily) (s : Transactions) : Prop where
  alone : ∀ i j : Nat, ∀ c c' : Call, s.calls[i]? = some c → s.calls[j]? = some c' →
    c.inFlight = true →
    c'.inFlight = true → c.row = c'.row → i = j
  current : ∀ c ∈ s.calls, Current s.usageDaily c
  books : ∀ k, tallyAt s.usageDaily k = tallyAt table k + (s.calls.map (recorded k)).sum

/-- What a call has read only depends on its own row, and only while it is in flight. -/
theorem Current.congr {table table' : Dict (String × String) UsageDaily} {c : Call}
    (current : Current table c)
    (same : c.inFlight = true → table'.get? c.row = table.get? c.row) : Current table' c := by
  cases phase : c.phase with
  | selected row =>
    have flying : c.inFlight = true := by simp [Call.inFlight, phase]
    simpa only [Current, phase, same flying] using current
  | modified loaded row inserted =>
    have flying : c.inFlight = true := by simp [Call.inFlight, phase]
    cases inserted with
    | true => simpa only [Current, phase, same flying] using current
    | false => simpa only [Current, phase, same flying] using current
  | called => simp [Current, phase]
  | committed => simp [Current, phase]
  | raised => simp [Current, phase] at current

variable {table : Dict (String × String) UsageDaily} {c : Call}

theorem Exact.alone_setPhase {phase : Phase} (exact : Exact table s) (found : s.calls[i]? = some c)
    (room : c.inFlight = false → ∀ c' ∈ s.calls, c'.inFlight = true → c'.row ≠ c.row) :
    ∀ j k : Nat, ∀ c₁ c₂ : Call, (s.setPhase i c phase).calls[j]? = some c₁ →
      (s.setPhase i c phase).calls[k]? = some c₂ →
      c₁.inFlight = true → c₂.inFlight = true → c₁.row = c₂.row → j = k := by
  -- no other call of this row is in flight
  have lonely : ∀ j c', s.calls[j]? = some c' → c'.inFlight = true → c'.row = c.row → i = j := by
    intro j c' there flying same
    cases own : c.inFlight with
    | true => exact exact.alone i j c c' found there own flying same.symm
    | false => exact absurd same (room own c' (List.mem_of_getElem? there) flying)
  intro j k c₁ c₂ first second flying flying' same
  rw [getElem?_setPhase _ found] at first second
  by_cases hj : i = j
  · by_cases hk : i = k
    · exact hj.symm.trans hk
    · rw [if_pos hj] at first
      rw [if_neg hk] at second
      obtain rfl := Option.some.inj first
      exact hj.symm.trans (lonely k c₂ second flying' same.symm)
  · rw [if_neg hj] at first
    by_cases hk : i = k
    · rw [if_pos hk] at second
      obtain rfl := Option.some.inj second
      exact (lonely j c₁ first flying same).symm.trans hk
    · rw [if_neg hk] at second
      exact exact.alone j k c₁ c₂ first second flying flying' same

/-- A call goes on without committing. -/
theorem Exact.advance {phase : Phase} (exact : Exact table s) (found : s.calls[i]? = some c)
    (room : c.inFlight = false → ∀ c' ∈ s.calls, c'.inFlight = true → c'.row ≠ c.row)
    (before : c.phase ≠ .committed) (after : phase ≠ .committed)
    (current : Current s.usageDaily { c with phase }) :
    Exact table (s.setPhase i c phase) := by
  refine ⟨exact.alone_setPhase found room, ?_, ?_⟩
  · intro c' member
    cases List.mem_or_eq_of_mem_set member with
    | inl old => exact exact.current c' old
    | inr new => exact new ▸ current
  · intro k
    have sums := sum_map_set (recorded k) found { c with phase }
    have none : recorded k { c with phase } = 0 := if_neg fun done => after done.1
    rw [none, add_zero, show recorded k c = 0 from if_neg fun done => before done.1,
      add_zero] at sums
    rw [show (s.setPhase i c phase).usageDaily = s.usageDaily from rfl, exact.books k,
      setPhase, sums]

/-- A call commits a row that adds its usage to what is committed. -/
theorem Exact.commit {row : UsageDaily} (exact : Exact table s) (found : s.calls[i]? = some c)
    (flying : c.inFlight = true)
    (counted : row.tally = tallyAt s.usageDaily c.row + c.usage.tally) :
    Exact table { (s.setPhase i c .committed) with usageDaily := s.usageDaily.set c.row row } := by
  refine ⟨exact.alone_setPhase found fun landed => ?_, ?_, ?_⟩
  · rw [flying] at landed
    cases landed
  · intro c' member
    obtain ⟨j, there⟩ := List.getElem?_of_mem member
    have there : (s.setPhase i c .committed).calls[j]? = some c' := there
    rw [getElem?_setPhase _ found] at there
    by_cases own : i = j
    · rw [if_pos own] at there
      obtain rfl := Option.some.inj there
      trivial
    · rw [if_neg own] at there
      refine (exact.current c' (List.mem_of_getElem? there)).congr fun flying' => ?_
      exact Dict.get?_set_ne _ _
        fun same => own (exact.alone i j c c' found there flying flying' same)
  · intro k
    have uncommitted : c.phase ≠ .committed := by
      intro done
      rw [Call.inFlight, done] at flying
      cases flying
    have sums := sum_map_set (recorded k) found { c with phase := .committed }
    rw [show recorded k c = 0 from if_neg fun done => uncommitted done.1, add_zero] at sums
    change tallyAt (s.usageDaily.set c.row row) k = tallyAt table k +
      ((s.setPhase i c .committed).calls.map (recorded k)).sum
    rw [setPhase, sums, tallyAt_set, ← add_assoc, ← exact.books k]
    by_cases same : c.row = k
    · have counts : recorded k { c with phase := .committed } = c.usage.tally := if_pos ⟨rfl, same⟩
      rw [if_pos same, counts, counted, same]
    · have counts : recorded k { c with phase := .committed } = 0 := if_neg fun done => same done.2
      rw [if_neg same, counts, add_zero]

theorem Exact.next (exact : Exact table s) (serial : s.overlaps i = false) :
    Exact table (transactions.next s i) := by
  have read := fun c (found : s.calls[i]? = some c) => exact.current c (List.mem_of_getElem? found)
  have took := took s i
  generalize transactions.next s i = s' at took ⊢
  cases took with
  | nothing => exact exact
  | select found phase =>
    refine exact.advance found ?_ (by rw [phase]; simp) (by simp) rfl
    intro _ c' member flying same
    simp only [overlaps, found, phase, decide_true, Bool.true_and, List.any_eq_false,
      Bool.and_eq_true,
      decide_eq_true_eq, not_and] at serial
    exact serial c' member same flying
  | insert found phase absent =>
    refine exact.advance found ?_ (by rw [phase]; simp) (by simp) ⟨absent, rfl, rfl⟩
    simp [Call.inFlight, phase]
  | conflict found phase present =>
    have current := read _ found
    rw [Current, phase] at current
    cases current.symm.trans present
  | modify found phase =>
    have current := read _ found
    rw [Current, phase] at current
    refine exact.advance found ?_ (by rw [phase]; simp) (by simp) ⟨current, rfl⟩
    simp [Call.inFlight, phase]
  | commitInsert found phase =>
    have current := read _ found
    rw [Current, phase] at current
    obtain ⟨absent, zero, rfl⟩ := current
    refine exact.commit found (by simp [Call.inFlight, phase]) ?_
    rw [Usage.tally_addTo, zero, tallyAt, absent]
    rfl
  | commitUpdate found phase present =>
    have current := read _ found
    rw [Current, phase] at current
    obtain ⟨committed, rfl⟩ := current
    obtain rfl := Option.some.inj (committed.symm.trans present)
    refine exact.commit found (by simp [Call.inFlight, phase]) ?_
    rw [UsageDaily.update_self, Usage.tally_addTo, tallyAt, committed]
    rfl
  | vanished found phase absent =>
    have current := read _ found
    rw [Current, phase] at current
    cases absent.symm.trans current.1

theorem exact_start (table : Dict (String × String) UsageDaily) (recordings : List Recording) :
    Exact table (start table recordings) := by
  have fresh : ∀ c ∈ (start table recordings).calls, c.phase = .called := by
    intro c member
    obtain ⟨r, -, rfl⟩ := List.mem_map.1 member
    rfl
  refine ⟨?_, ?_, ?_⟩
  · intro i j c c' found _ flying
    rw [Call.inFlight, fresh c (List.mem_of_getElem? found)] at flying
    cases flying
  · intro c member
    rw [Current, fresh c member]
    trivial
  · intro k
    have none : ((start table recordings).calls.map (recorded k)).sum = 0 := by
      refine List.sum_eq_zero fun t member => ?_
      obtain ⟨c, here, rfl⟩ := List.mem_map.1 member
      exact if_neg fun done => by rw [fresh c here] at done; cases done.1
    rw [none, add_zero]
    rfl

/-- In every run in which no call selects its row while another call of that row is between
    its select and its commit, no call raises, and every row is its initial value plus what
    the committed calls recorded in it. -/
theorem no_update_lost (table : Dict (String × String) UsageDaily) (recordings : List Recording)
    {es : List Nat}
    (serial : transactions.Meets (fun s i => s.overlaps i = false) (start table recordings) es) :
    let s := transactions.exec (start table recordings) es
    (∀ c ∈ s.calls, c.phase ≠ .raised) ∧
      ∀ k, tallyAt s.usageDaily k = tallyAt table k + (s.calls.map (recorded k)).sum := by
  intro s
  have exact : Exact table s :=
    Machine.Meets.invariant (fun s e (exact : Exact table s) serial => exact.next serial)
      (exact_start table recordings)
      serial
  refine ⟨fun c member raised => ?_, exact.books⟩
  have current := exact.current c member
  rw [Current, raised] at current
  exact current

def sampleRecording (keyId : String) : Recording :=
  { orgId := "org", keyId, day := "2026-01-01",
    usage :=
      { dexaUsd := 1, baselineUsd := 2, savedUsd := 1, dexaImageTokens := 1, baselineImageTokens := 2,
               redundantFrac := 0, cacheHit := true } }

/-- Two calls of one row in turn, interleaved with a call of another row. -/
theorem no_update_lost_serial :
    let recordings := [sampleRecording "a", sampleRecording "b", sampleRecording "a"]
    let s := transactions.exec (start Dict.empty recordings) [0, 1, 0, 1, 0, 2, 1, 2, 2]
    (∀ c ∈ s.calls, c.phase ≠ .raised) ∧ (tallyAt s.usageDaily ("a", "2026-01-01")).requests = 2 :=
  have exact :=
    @no_update_lost Dict.empty [sampleRecording "a", sampleRecording "b", sampleRecording "a"]
    [0, 1, 0, 1, 0, 2, 1, 2, 2] (by decide +kernel)
  ⟨exact.1, (congrArg Tally.requests (exact.2 ("a", "2026-01-01"))).trans (by decide +kernel)⟩

/-- Two overlapping calls: one update of an existing row is lost, and the second insert of a
    missing row raises. -/
theorem overlapping_calls_interfere :
    let recordings := [sampleRecording "a", sampleRecording "a"]
    let table := Dict.empty.set ("a", "2026-01-01") (sampleRecording "a").blank
    let found := transactions.exec (start table recordings) [0, 1, 0, 1, 0, 1]
    let missing := transactions.exec (start Dict.empty recordings) [0, 1, 0, 1, 0, 1]
    ((∀ c ∈ found.calls, c.phase = .committed) ∧
        tallyAt found.usageDaily ("a", "2026-01-01") ≠ tallyAt table ("a", "2026-01-01") +
          (recordings.map fun r => r.usage.tally).sum) ∧
      ∃ c ∈ missing.calls, c.phase = .raised := by
  decide +kernel

end Transactions

end Metering

end Dexa.Platform
