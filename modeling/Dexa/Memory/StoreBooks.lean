import Dexa.Memory.StoreCalls

/-! # The books of a tiered store over a run

A store on a hierarchy of tiers, under any calls whose pairs have handles of their own:
every call ends (`store_books_exact`, first part), and the used counters, the index, the
peaks and the number of entries agree with the entries held.  What `has` and `get` say is
traced back to the `put` that inserted the entry; that is the part of the invariant that
speaks about the run, and it goes by induction on the last call.
-/

namespace Dexa.Memory

open Dexa.Lib

open TieredCacheStore

variable {α : Type} (nbytes : α → Nat)

def putSlots (ops : List (Op α)) : List (String × String) :=
  ops.filterMap fun
    | .put tenant key _ => some (tenant, key)
    | _ => none

/-- No two distinct pairs that are put have one handle. -/
def DistinctHandles (ops : List (Op α)) : Prop :=
  ∀ p ∈ putSlots ops, ∀ q ∈ putSlots ops, renderHandle p.1 p.2 = renderHandle q.1 q.2 → p = q

instance (ops : List (Op α)) : Decidable (DistinctHandles ops) :=
  inferInstanceAs
    (Decidable (∀ p ∈ putSlots ops, ∀ q ∈ putSlots ops,
    renderHandle p.1 p.2 = renderHandle q.1 q.2 → p = q))

/-- The call ends: a large enough bound on its loops does not matter. -/
def Terminates (s : TieredCacheStore α) (op : Op α) : Prop :=
  ∃ r, ∀ bound, s.entries.size < bound → call nbytes bound s op = .ok r

/-- The entry resident for a pair after `ops` was inserted by a `put` of `cache`: the pair was
    not resident when it was called, and has been ever since. -/
def InsertedBy (tiers : List TierSpec) (ops : List (Op α)) (tenant key : String)
    (cache : α) : Prop :=
  ∃ before after, ops = before ++ .put tenant key cache :: after ∧
    ((tieredStore nbytes).exec (init tiers) before).resident tenant key = false ∧
    ∀ during, during <+: after →
      ((tieredStore nbytes).exec (init tiers)
        (before ++ .put tenant key cache :: during)).resident tenant key = true

/-- The store `s` that `ops` lead to keeps exact books. -/
structure BooksExact (tiers : List TierSpec) (ops : List (Op α)) (s : TieredCacheStore α) :
    Prop where
  used : ∀ t ∈ s.tiers, s.usedOf t.name = s.bytesIn t.name ∧ s.usedOf t.name ≤ t.capacityBytes
  sized : ∀ h e, s.entries.get? h = some e → e.nbytes = nbytes e.cache ∧
    e.tier ∈ s.tiers.map TierSpec.name
  indexed : ∀ h e, s.entries.get? h = some e → s.index.get? (e.tenant, e.key) = some h
  backed : ∀ slot h, s.index.get? slot = some h → ∃ e, s.entries.get? h = some e ∧
    (e.tenant, e.key) = slot
  found : ∀ tenant key h, (s.has tenant key).1 = some h ↔ h = renderHandle tenant key ∧
    ∃ cache, InsertedBy nbytes tiers ops tenant key cache ∧
      ∃ st, ∀ bound, s.entries.size < bound → s.get bound h = .ok (some cache, st)
  peak : ∀ t ∈ s.tiers, s.usedOf t.name ≤ s.peakOf t.name
  conserved : (tieredStore nbytes).tally inserted (init tiers) ops =
    s.entries.size + s.evictionsDropped + (tieredStore nbytes).tally evicted (init tiers) ops

variable {nbytes}

theorem Hierarchy.init {tiers : List TierSpec} (names : (tiers.map TierSpec.name).Nodup)
    (capacities : ∀ t ∈ tiers, 0 ≤ t.capacityBytes) :
      Hierarchy (TieredCacheStore.init tiers : TieredCacheStore α).tiers := by
  show Hierarchy (if tiers = [] then defaultTiers else tiers)
  split
  · exact ⟨by simp [defaultTiers], by decide, by simp [defaultTiers]⟩
  · rename_i given
    exact ⟨given, names, capacities⟩

theorem sound_init {tiers : List TierSpec} (names : (tiers.map TierSpec.name).Nodup)
    (capacities : ∀ t ∈ tiers, 0 ≤ t.capacityBytes) :
      Sound nbytes (TieredCacheStore.init tiers : TieredCacheStore α) := by
  have hierarchy := Hierarchy.init (α := α) names capacities
  have books : Books nbytes (TieredCacheStore.init tiers) := books_init tiers
  refine ⟨hierarchy, books, nofun, fun t member => ?_⟩
  have empty : (TieredCacheStore.init tiers : TieredCacheStore α).bytesIn t.name = 0 := rfl
  rw [books.used, empty]
  exact hierarchy.capacities t member

theorem mem_putSlots {ops : List (Op α)} {tenant key : String} :
    (tenant, key) ∈ putSlots ops ↔ ∃ cache, .put tenant key cache ∈ ops := by
  simp only [putSlots, List.mem_filterMap]
  constructor
  · rintro ⟨op, member, slot⟩
    cases op with
    | put tenant' key' cache =>
      obtain ⟨rfl, rfl⟩ := Prod.mk.inj (Option.some.inj slot)
      exact ⟨cache, member⟩
    | get | has | evict => cases slot
  · rintro ⟨cache, member⟩
    exact ⟨_, member, rfl⟩

theorem putSlots_append {ops : List (Op α)} (more : List (Op α)) {p : String × String}
    (member : p ∈ putSlots ops) :
    p ∈ putSlots (ops ++ more) := by
  obtain ⟨cache, before⟩ := mem_putSlots.1 member
  exact mem_putSlots.2 ⟨cache, List.mem_append_left _ before⟩

theorem DistinctHandles.of_append {ops more : List (Op α)}
    (distinct : DistinctHandles (ops ++ more)) :
    DistinctHandles ops :=
  fun p left q right => distinct p (putSlots_append more left) q (putSlots_append more right)

theorem DistinctHandles.admissible {ops : List (Op α)} {op : Op α}
    (distinct : DistinctHandles (ops ++ [op]))
    {s : TieredCacheStore α}
    (put : ∀ h e, s.entries.get? h = some e → (e.tenant, e.key) ∈ putSlots ops) :
    Admissible s op := by
  rintro tenant key cache rfl h e found same
  exact distinct (e.tenant, e.key) (putSlots_append _ (put h e found)) (tenant, key)
    (mem_putSlots.2 ⟨cache, List.mem_append_right _ (List.mem_singleton.2 rfl)⟩) same

theorem step_of_call {s s' : TieredCacheStore α} {op : Op α} {outcome : Outcome α}
    (ends : ∀ bound, s.entries.size < bound → call nbytes bound s op = .ok (outcome, s')) :
    (tieredStore nbytes).step s op = (.ok outcome, s') := by
  simp only [tieredStore, ends _ (Nat.lt_succ_self _)]

theorem resident_of_get? {s : TieredCacheStore α} {h : String} {e : Entry α}
    (found : s.entries.get? h = some e) :
    s.resident e.tenant e.key = true := by
  simp only [resident, List.any_eq_true, Dict.mem_values_iff, Bool.and_eq_true, beq_iff_eq]
  exact ⟨e, ⟨h, found⟩, rfl, rfl⟩

theorem InsertedBy.snoc {tiers : List TierSpec} {ops : List (Op α)} {op : Op α}
    {tenant key : String} {cache : α}
    (inserted : InsertedBy nbytes tiers ops tenant key cache)
    (still : ((tieredStore nbytes).exec (init tiers) (ops ++ [op])).resident tenant key = true) :
    InsertedBy nbytes tiers (ops ++ [op]) tenant key cache := by
  obtain ⟨before, after, rfl, absent, since⟩ := inserted
  refine ⟨before, after ++ [op], by simp, absent, fun during part => ?_⟩
  cases List.prefix_concat_iff.1 part with
  | inl whole =>
    subst whole
    simpa using still
  | inr earlier => exact since during earlier

theorem InsertedBy.now {tiers : List TierSpec} {ops : List (Op α)} {tenant key : String} {cache : α}
    (absent : ((tieredStore nbytes).exec (init tiers) ops).resident tenant key = false)
    (present : ((tieredStore nbytes).exec (init tiers)
      (ops ++ [.put tenant key cache])).resident tenant key = true) :
    InsertedBy nbytes tiers (ops ++ [.put tenant key cache]) tenant key cache := by
  refine ⟨ops, [], rfl, absent, fun during part => ?_⟩
  obtain rfl := List.prefix_nil.1 part
  exact present

/-- What is known of the store after `ops`. -/
structure Reached (nbytes : α → Nat) (tiers : List TierSpec) (ops : List (Op α))
    (s : TieredCacheStore α) : Prop where
  terminates : (tieredStore nbytes).Meets (Terminates nbytes) (TieredCacheStore.init tiers) ops
  sound : Sound nbytes s
  put : ∀ h e, s.entries.get? h = some e → (e.tenant, e.key) ∈ putSlots ops
  inserted : ∀ h e, s.entries.get? h = some e → InsertedBy nbytes tiers ops e.tenant e.key e.cache
  conserved :
    (tieredStore nbytes).tally TieredCacheStore.inserted (TieredCacheStore.init tiers) ops =
    s.entries.size + s.evictionsDropped + (tieredStore nbytes).tally evicted
      (TieredCacheStore.init tiers) ops

theorem reached {tiers : List TierSpec} (names : (tiers.map TierSpec.name).Nodup)
    (capacities : ∀ t ∈ tiers, 0 ≤ t.capacityBytes) (ops : List (Op α))
    (distinct : DistinctHandles ops) :
    Reached nbytes tiers ops ((tieredStore nbytes).exec (init tiers) ops) := by
  induction ops using List.reverseRecOn with
  | nil => exact ⟨trivial, sound_init names capacities, nofun, nofun, rfl⟩
  | append_singleton ops op ih =>
    have before := ih distinct.of_append
    obtain ⟨outcome, s', ends, called⟩ := call_spec before.sound (distinct.admissible before.put)
    have next : (tieredStore nbytes).exec (init tiers) (ops ++ [op]) = s' := by
      rw [Machine.exec_snoc, Machine.next, step_of_call ends]
    rw [next]
    refine ⟨before.terminates.snoc ⟨_, ends⟩, called.sound, fun h e found => ?_,
      fun h e found => ?_, ?_⟩
    · cases called.origin h e found with
      | inl old =>
        obtain ⟨e₀, earlier, same⟩ := old
        rw [same.tenant, same.key]
        exact putSlots_append _ (before.put _ e₀ earlier)
      | inr new => exact mem_putSlots.2 ⟨e.cache,
          List.mem_append_right _ (List.mem_singleton.2 new.2.symm)⟩
    · have still : ((tieredStore nbytes).exec (init tiers) (ops ++ [op])).resident e.tenant e.key =
        true :=
        next ▸ resident_of_get? found
      cases called.origin h e found with
      | inl old =>
        obtain ⟨e₀, earlier, same⟩ := old
        rw [same.tenant, same.key] at still ⊢
        exact same.cache ▸ (before.inserted _ e₀ earlier).snoc still
      | inr new =>
        obtain ⟨absent, rfl⟩ := new
        exact .now absent still
    · have := called.balance
      have := before.conserved
      rw [Machine.tally_snoc, Machine.tally_snoc]
      omega

/-- A pair is found exactly when it is resident, and then `get` loads what was put. -/
theorem Reached.found {tiers : List TierSpec} {ops : List (Op α)} (s : TieredCacheStore α)
    (reach : Reached nbytes tiers ops s)
    (at_ : s = (tieredStore nbytes).exec (TieredCacheStore.init tiers) ops)
    (tenant key h : String) : (s.has tenant key).1 = some h ↔ h = renderHandle tenant key ∧
      ∃ cache, InsertedBy nbytes tiers ops tenant key cache ∧
        ∃ st, ∀ bound, s.entries.size < bound → s.get bound h = .ok (some cache, st) := by
  have books := reach.sound.books
  rw [has_fst]
  constructor
  · intro indexed
    obtain ⟨e, present, pair⟩ := books.backed _ h indexed
    obtain ⟨rfl, rfl⟩ := Prod.mk.inj pair
    obtain ⟨st, ends, _⟩ := get_spec reach.sound present
    exact ⟨books.index_eq indexed, e.cache, reach.inserted h e present, st,
      fun bound enough => ends bound enough.le⟩
  · rintro ⟨rfl, cache, ⟨before, after, rfl, _, since⟩, _⟩
    exact (resident_iff books).1 (at_ ▸ since after (List.prefix_refl after))

/-- The store keeps its books exactly, and every call ends. -/
theorem store_books_exact (tiers : List TierSpec) (names : (tiers.map TierSpec.name).Nodup)
    (capacities : ∀ t ∈ tiers, 0 ≤ t.capacityBytes) (ops : List (Op α))
    (distinct : DistinctHandles ops) :
    (tieredStore nbytes).Meets (Terminates nbytes) (init tiers) ops ∧
      BooksExact nbytes tiers ops ((tieredStore nbytes).exec (init tiers) ops) := by
  have reach : Reached nbytes tiers ops _ := reached names capacities ops distinct
  have books := reach.sound.books
  refine ⟨reach.terminates, ?_⟩
  exact {
    used := fun t member => ⟨books.used t.name, reach.sound.fits t member⟩
    sized := fun h e found => ⟨(books.filed h e found).sized, (books.filed h e found).housed⟩
    indexed := fun h e found => (books.filed h e found).indexed
    backed := books.backed
    found := reach.found _ rfl
    peak := fun t _ => books.peak t.name
    conserved := reach.conserved }

/-- Two tiers in which the calls of `cascadeRun` demote, promote and drop entries. -/
def twoTiers : List TierSpec :=
  [{ name := "gpu", capacityBytes := 10, readBandwidthBytesPerS := 2 },
   { name := "cpu", capacityBytes := 6, readBandwidthBytesPerS := 1 }]

def cascadeRun : List (Op Nat) :=
  [.put "t" "a" 6, .put "t" "b" 6, .put "t" "c" 8, .get "t::b", .has "t" "a", .evict "t::b"]

theorem store_books_exact_cascade :
    ((tieredStore id).Meets (Terminates id) (init twoTiers) cascadeRun ∧
      BooksExact id twoTiers cascadeRun ((tieredStore id).exec (init twoTiers) cascadeRun)) ∧
    ((tieredStore id).exec (init twoTiers) cascadeRun).evictionsDropped = 2 :=
  ⟨store_books_exact twoTiers (by decide) (by decide) cascadeRun (by decide), by decide +kernel⟩

end Dexa.Memory
