import Dexa.Memory.StoreBooks

/-! # The tiers are one LRU order

What is used more recently than what is read off the calls and their answers
(`usesOf`, `UsedAfter`).  The time stamps follow that history (`LastUse`), and `Ordered` and the
choice of the victims turn into statements about it.
-/

namespace Dexa.Memory

open Dexa.Lib

open TieredCacheStore

variable {α : Type} {nbytes : α → Nat}

def usesOf (trace : List (Op α × Except Stuck (Outcome α))) : List String :=
  trace.filterMap fun
    | (op, .ok outcome) => usedBy op outcome.reply
    | (_, .error _) => none

/-- `h` is used after the last use of `h'`. -/
def UsedAfter (uses : List String) (h h' : String) : Prop :=
  ∃ n < uses.length, uses[n]? = some h ∧ h' ∈ uses.take n ∧ h' ∉ uses.drop n

instance (uses : List String) (h h' : String) : Decidable (UsedAfter uses h h') :=
  inferInstanceAs (Decidable (∃ n < uses.length, _))

/-- The time stamp of an entry is the time of its last use. -/
def LastUse (uses : List String) (e : Entry α) : Prop :=
  ∃ n, e.lastUsed = n + 1 ∧ uses[n]? = some e.handle ∧ e.handle ∉ uses.drop (n + 1)

theorem LastUse.after {uses : List String} {e e' : Entry α} (last : LastUse uses e)
    (last' : LastUse uses e')
    (later : e'.lastUsed < e.lastUsed) : UsedAfter uses e.handle e'.handle := by
  obtain ⟨n, stamp, here, _⟩ := last
  obtain ⟨n', stamp', here', since⟩ := last'
  have before : n' < n := by omega
  refine ⟨n, (List.getElem?_eq_some_iff.1 here).1, here, ?_, fun again => since ?_⟩
  · rw [← List.getElem?_take_of_lt before] at here'
    exact List.mem_of_getElem? here'
  · have shift : uses.drop n = (uses.drop (n' + 1)).drop (n - (n' + 1)) := by
      rw [List.drop_drop]
      congr 1
      omega
    exact List.mem_of_mem_drop (shift ▸ again)

/-- A call's time stamps, against the history up to and including the call. -/
theorem TieredCacheStore.Stamped.lastUse {s : TieredCacheStore α} {uses : List String}
    (clock : s.clock = uses.length)
    (old : ∀ h e, s.entries.get? h = some e → LastUse uses e)
    (filed : ∀ h e, s.entries.get? h = some e → e.handle = h)
    {used : Option String} {e : Entry α} (stamped : Stamped s used e) :
      LastUse (uses ++ used.toList) e := by
  cases stamped with
  | inl now =>
    obtain ⟨rfl, stamp⟩ := now
    exact ⟨uses.length, clock ▸ stamp, by simp, by simp⟩
  | inr before =>
    obtain ⟨other, e₀, found, stamp⟩ := before
    obtain ⟨n, stamp₀, here, since⟩ := old _ e₀ found
    rw [filed _ e₀ found] at here since
    have inside := (List.getElem?_eq_some_iff.1 here).1
    refine ⟨n, stamp ▸ stamp₀, by rw [List.getElem?_append_left inside]; exact here, ?_⟩
    rw [List.drop_append_of_le_length inside, List.mem_append]
    rintro (again | again)
    · exact since again
    · exact other (Option.mem_toList.1 again)

theorem usesOf_snoc (trace : List (Op α × Except Stuck (Outcome α))) (op : Op α)
    (outcome : Outcome α) :
    usesOf (trace ++ [(op, .ok outcome)]) = usesOf trace ++ (usedBy op outcome.reply).toList := by
  rw [usesOf, List.filterMap_append]
  cases used : usedBy op outcome.reply <;> simp [usesOf, used]

/-- The clock and the time stamps of the store `s` tell the history of the run. -/
structure Clocked (uses : List String) (s : TieredCacheStore α) : Prop where
  clock : s.clock = uses.length
  last : ∀ h e, s.entries.get? h = some e → LastUse uses e

/-- The last call of a run: the history goes on, also for what the call dropped. -/
theorem TieredCacheStore.Called.clocked {s s' : TieredCacheStore α} {uses : List String} {op : Op α}
    {outcome : Outcome α}
    (called : Called nbytes s op outcome s') (sound : Sound nbytes s) (clocked : Clocked uses s) :
    Clocked (uses ++ (usedBy op outcome.reply).toList) s' ∧
      ∀ d ∈ outcome.drops, ∀ e ∈ d.held, LastUse (uses ++ (usedBy op outcome.reply).toList) e := by
  have filed : ∀ h e, s.entries.get? h = some e → e.handle = h :=
    fun h e found => (sound.books.filed h e found).named
  refine ⟨⟨?_, fun h e found => ?_⟩, fun d dropped e held => ?_⟩
  · rw [called.clock, clocked.clock]
    cases usedBy op outcome.reply <;> simp
  · exact Stamped.lastUse clocked.clock clocked.last filed (called.stamped h e found)
  · exact Stamped.lastUse clocked.clock clocked.last filed ((called.drops d dropped).2.1 e held)

/-- What the drops of a call are to be, by the history `uses` up to and including it. -/
def DropsLeastRecent (uses : List String) (outcome : Outcome α) : Prop :=
  ∀ d ∈ outcome.drops, d.victim ∈ d.held ∧
    ∀ e ∈ d.held, e.handle ≠ d.victim.handle → UsedAfter uses e.handle d.victim.handle

/-- The entries that the calls of a run dropped. -/
def dropsOf (trace : List (Op α × Except Stuck (Outcome α))) : List (Drop α) :=
  trace.flatMap fun
    | (_, .ok outcome) => outcome.drops
    | (_, .error _) => []

structure LruRun (trace : List (Op α × Except Stuck (Outcome α))) (s : TieredCacheStore α) :
    Prop where
  clocked : Clocked (usesOf trace) s
  dropped : s.evictionsDropped = (dropsOf trace).length

theorem lruRun {tiers : List TierSpec} (names : (tiers.map TierSpec.name).Nodup)
    (capacities : ∀ t ∈ tiers, 0 ≤ t.capacityBytes) (ops : List (Op α))
    (distinct : DistinctHandles ops) :
    LruRun ((tieredStore nbytes).trace (init tiers) ops)
      ((tieredStore nbytes).exec (init tiers) ops) := by
  induction ops using List.reverseRecOn with
  | nil => exact ⟨⟨rfl, nofun⟩, rfl⟩
  | append_singleton ops op ih =>
    have run := ih distinct.of_append
    have reach : Reached nbytes tiers ops _ := reached names capacities ops distinct.of_append
    obtain ⟨outcome, s', ends, called⟩ := call_spec reach.sound (distinct.admissible reach.put)
    rw [Machine.exec_snoc, Machine.trace_snoc, Machine.next, Machine.out, step_of_call ends]
    refine ⟨?_, ?_⟩
    · rw [usesOf_snoc]
      exact (called.clocked reach.sound run.clocked).1
    · rw [called.dropped, run.dropped]
      simp [dropsOf]

/-- In every reachable state the entries of a faster tier were used after those of a slower
    one, and each entry a call dropped was the least recently used one held. -/
theorem tiers_in_lru_order (tiers : List TierSpec) (names : (tiers.map TierSpec.name).Nodup)
    (capacities : ∀ t ∈ tiers, 0 ≤ t.capacityBytes) (ops : List (Op α))
    (distinct : DistinctHandles ops) :
    let trace := (tieredStore nbytes).trace (init tiers) ops
    let s := (tieredStore nbytes).exec (init tiers) ops
    (∀ h e h' e', s.entries.get? h = some e → s.entries.get? h' = some e' →
      Faster s.tiers e.tier e'.tier →
      UsedAfter (usesOf trace) h h') ∧
    (∀ before op after, ops = before ++ op :: after → ∀ outcome,
      (tieredStore nbytes).out ((tieredStore nbytes).exec (init tiers) before) op = .ok outcome →
      DropsLeastRecent
        (usesOf ((tieredStore nbytes).trace (init tiers) (before ++ [op]))) outcome) ∧
    s.evictionsDropped = (dropsOf trace).length := by
  intro trace s
  have run : LruRun trace s := lruRun names capacities ops distinct
  have reach : Reached nbytes tiers ops s := reached names capacities ops distinct
  refine ⟨?order, ?drops, run.dropped⟩
  case order =>
    intro h e h' e' found found' faster
    have later := reach.sound.ordered h e h' e' found found' faster
    have after := (run.clocked.last h e found).after (run.clocked.last h' e' found') later
    rwa [(reach.sound.books.filed h e found).named,
      (reach.sound.books.filed h' e' found').named] at after
  case drops =>
    rintro before op after rfl outcome result d dropped
    have part : DistinctHandles (before ++ [op]) := by
      rw [List.append_cons] at distinct
      exact distinct.of_append
    have run : LruRun ((tieredStore nbytes).trace (init tiers) before) _ :=
      lruRun names capacities before part.of_append
    have reach : Reached nbytes tiers before _ := reached names capacities before part.of_append
    obtain ⟨outcome', s', ends, called⟩ := call_spec reach.sound (part.admissible reach.put)
    rw [Machine.out, step_of_call ends] at result
    obtain rfl := Except.ok.inj result
    rw [Machine.trace_snoc, Machine.out, step_of_call ends, usesOf_snoc]
    have history := (called.clocked reach.sound run.clocked).2 d dropped
    obtain ⟨held, _, least⟩ := called.drops d dropped
    exact ⟨held, fun e member other => (history e member).after (history _ held)
      (least e member other)⟩

theorem tiers_in_lru_order_cascade :
    let trace := (tieredStore id).trace (init twoTiers) cascadeRun
    let s := (tieredStore id).exec (init twoTiers) cascadeRun
    ((∀ h e h' e', s.entries.get? h = some e → s.entries.get? h' = some e' →
      Faster s.tiers e.tier e'.tier →
      UsedAfter (usesOf trace) h h') ∧
    (∀ before op after, cascadeRun = before ++ op :: after → ∀ outcome,
      (tieredStore id).out ((tieredStore id).exec (init twoTiers) before) op = .ok outcome →
      DropsLeastRecent (usesOf ((tieredStore id).trace (init twoTiers) (before ++ [op]))) outcome) ∧
    s.evictionsDropped = (dropsOf trace).length) ∧ s.evictionsDropped = 2 :=
  ⟨tiers_in_lru_order twoTiers (by decide) (by decide) cascadeRun (by decide), by decide +kernel⟩

/-- The first and the last tier share a name. -/
def repeatedTiers : List TierSpec :=
  [{ name := "a", capacityBytes := 1, readBandwidthBytesPerS := 1 },
   { name := "b", capacityBytes := 1, readBandwidthBytesPerS := 1 },
   { name := "a", capacityBytes := 2, readBandwidthBytesPerS := 1 }]

def threePuts : List (Op Nat) := [.put "t" "x" 1, .put "t" "y" 1, .put "t" "z" 1]

/-- With a name given twice the tiers are in no order: whether `a` is taken to be above or
    below `b`, an entry of the one above was not used after one of the one below. -/
theorem repeated_tier_not_in_lru_order :
    (∀ t ∈ repeatedTiers, 0 ≤ t.capacityBytes) ∧ DistinctHandles threePuts ∧
    let uses := usesOf ((tieredStore id).trace (init repeatedTiers) threePuts)
    let s := (tieredStore id).exec (init repeatedTiers) threePuts
    (s.entries.get? "t::x").map Entry.tier = some "a" ∧
      (s.entries.get? "t::y").map Entry.tier = some "b" ∧
      (s.entries.get? "t::z").map Entry.tier = some "a" ∧
    (Faster s.tiers "a" "b" ∧ ¬ UsedAfter uses "t::x" "t::y") ∧ Faster s.tiers "b" "a" ∧
      ¬ UsedAfter uses "t::y" "t::z" := by
  refine ⟨by decide,
    by decide, by decide +kernel, by decide +kernel, by decide +kernel, ⟨⟨0, 1, ?_⟩,
    by decide +kernel⟩,
    ⟨1, 2, ?_⟩, by decide +kernel⟩ <;> decide +kernel

end Dexa.Memory
