import Dexa.Memory.TieredStore

/-! # Invariants of the tiered store

`Books` says that the entry table, the index and the counters describe the same entries,
`Ordered` that no entry is above a more recently used one.  Every change of the store is
one of three: an entry is filed anew (touched or moved), a new one is added, one is
removed.
-/

namespace Dexa.Memory

open Dexa.Lib

namespace TieredCacheStore

variable {α : Type} (nbytes : α → Nat)

section Fields

variable (s : TieredCacheStore α) (e : Entry α) (name dst t : String) (delta : Int)

theorem usedOf_addUsed : (s.addUsed name delta).usedOf t = s.usedOf t + if name = t then delta
    else 0 := by
  by_cases same : name = t
  · subst same
    simp [addUsed, usedOf]
  · simp [addUsed, usedOf, Dict.get?_set_ne, same]

@[simp] theorem usedOf_update : (s.update e).usedOf t = s.usedOf t := rfl

@[simp] theorem usedOf_recordPeak : (s.recordPeak name).usedOf t = s.usedOf t := by
  unfold recordPeak
  split <;> rfl

@[simp] theorem entries_recordPeak : (s.recordPeak name).entries = s.entries := by
  unfold recordPeak
  split <;> rfl

@[simp] theorem index_recordPeak : (s.recordPeak name).index = s.index := by
  unfold recordPeak
  split <;> rfl

@[simp] theorem tiers_recordPeak : (s.recordPeak name).tiers = s.tiers := by
  unfold recordPeak
  split <;> rfl

@[simp] theorem clock_recordPeak : (s.recordPeak name).clock = s.clock := by
  unfold recordPeak
  split <;> rfl

@[simp] theorem evictionsDropped_recordPeak :
    (s.recordPeak name).evictionsDropped = s.evictionsDropped := by
  unfold recordPeak
  split <;> rfl

/-- Once a tier's peak is recorded it is at least the use, if the other tiers' were. -/
theorem peak_recordPeak (others : ∀ t, name ≠ t → s.usedOf t ≤ s.peakOf t) :
    ∀ t, (s.recordPeak name).usedOf t ≤ (s.recordPeak name).peakOf t := by
  intro t
  rw [usedOf_recordPeak]
  unfold recordPeak
  split
  · rename_i higher
    by_cases same : name = t
    · subst same
      simp [peakOf]
    · simpa [peakOf, Dict.get?_set_ne, same] using others t same
  · rename_i lower
    by_cases same : name = t
    · subst same
      omega
    · exact others t same

@[simp] theorem entries_move :
    (s.move e dst).entries = s.entries.set e.handle { e with tier := dst } := by
  simp [move, addUsed, update]

@[simp] theorem index_move : (s.move e dst).index = s.index := by simp [move, addUsed, update]

@[simp] theorem tiers_move : (s.move e dst).tiers = s.tiers := by simp [move, addUsed, update]

@[simp] theorem clock_move : (s.move e dst).clock = s.clock := by simp [move, addUsed, update]

@[simp] theorem evictionsDropped_move : (s.move e dst).evictionsDropped = s.evictionsDropped := by
  simp [move, addUsed, update]

theorem usedOf_move : (s.move e dst).usedOf t =
    s.usedOf t - (if e.tier = t then (e.nbytes : Int) else 0) + if dst = t then (e.nbytes : Int)
      else 0 := by
  simp only [move, usedOf_recordPeak, usedOf_addUsed, usedOf_update]
  split <;> omega

theorem peak_move (peak : ∀ t, s.usedOf t ≤ s.peakOf t) :
    ∀ t, (s.move e dst).usedOf t ≤ (s.move e dst).peakOf t := by
  refine peak_recordPeak _ dst fun t other => ?_
  have before :
    (((s.addUsed e.tier (-e.nbytes)).update { e with tier := dst }).addUsed dst e.nbytes).peakOf t =
      s.peakOf t := rfl
  rw [before, usedOf_addUsed, usedOf_update, usedOf_addUsed, if_neg other]
  have := peak t
  split <;> omega

variable (tenant key : String) (cache : α)

@[simp] theorem entries_insert :
    (s.insert nbytes tenant key cache).entries = s.entries.set (renderHandle tenant key)
    { handle := renderHandle tenant key, key, tenant, cache, nbytes := nbytes cache, tier := s.top, lastUsed := s.clock + 1 } := by
  simp [insert, addUsed]

@[simp] theorem index_insert : (s.insert nbytes tenant key cache).index =
    s.index.set (tenant, key) (renderHandle tenant key) := by
  simp [insert, addUsed]

@[simp] theorem tiers_insert : (s.insert nbytes tenant key cache).tiers = s.tiers := by
  simp [insert, addUsed]

@[simp] theorem clock_insert : (s.insert nbytes tenant key cache).clock = s.clock + 1 := by
  simp [insert, addUsed]

@[simp] theorem evictionsDropped_insert : (s.insert nbytes tenant key cache).evictionsDropped =
    s.evictionsDropped := by
  simp [insert, addUsed]

@[simp] theorem entries_evict (handle : String) :
    (s.evict handle).entries = s.entries.erase handle := by
  cases present : s.entries.get? handle with
  | none => simpa [evict, present] using (Dict.erase_absent present).symm
  | some e => simp [evict, present, addUsed]

theorem index_evict {s : TieredCacheStore α} {handle : String} {e : Entry α}
    (present : s.entries.get? handle = some e) :
    (s.evict handle).index = s.index.erase (e.tenant, e.key) := by
  simp [evict, present, addUsed]

@[simp] theorem tiers_evict (handle : String) : (s.evict handle).tiers = s.tiers := by
  unfold evict
  split <;> rfl

@[simp] theorem clock_evict (handle : String) : (s.evict handle).clock = s.clock := by
  unfold evict
  split <;> rfl

@[simp] theorem evictionsDropped_evict (handle : String) :
    (s.evict handle).evictionsDropped = s.evictionsDropped := by
  unfold evict
  split <;> rfl

end Fields

/-! ## The books -/

/-- The bytes of the entries in a tier. -/
def bytesIn (s : TieredCacheStore α) (tier : String) : Nat :=
  s.entries.sumBy fun e => if e.tier = tier then e.nbytes else 0

/-- The number of entries in a tier. -/
def countIn (s : TieredCacheStore α) (tier : String) : Nat :=
  s.entries.sumBy fun e => if e.tier = tier then 1 else 0

/-- An entry as the rest of the store knows it. -/
structure Filed (s : TieredCacheStore α) (h : String) (e : Entry α) : Prop where
  named : e.handle = h
  rendered : renderHandle e.tenant e.key = h
  sized : e.nbytes = nbytes e.cache
  housed : e.tier ∈ s.tiers.map TierSpec.name
  indexed : s.index.get? (e.tenant, e.key) = some h
  stamped : e.lastUsed ≤ s.clock

structure Books (s : TieredCacheStore α) : Prop where
  filed : ∀ h e, s.entries.get? h = some e → Filed nbytes s h e
  /-- no dangling handle -/
  backed : ∀ slot h, s.index.get? slot = some h → ∃ e, s.entries.get? h = some e ∧
    (e.tenant, e.key) = slot
  used : ∀ t, s.usedOf t = s.bytesIn t
  peak : ∀ t, s.usedOf t ≤ s.peakOf t
  /-- no two entries were used at the same time -/
  apart : ∀ h e h' e', s.entries.get? h = some e → s.entries.get? h' = some e' →
    e.lastUsed = e'.lastUsed → h = h'

/-- The same cache under the same pair: what touching and moving an entry leave. -/
structure SameCache (e e' : Entry α) : Prop where
  handle : e'.handle = e.handle
  key : e'.key = e.key
  tenant : e'.tenant = e.tenant
  cache : e'.cache = e.cache
  nbytes : e'.nbytes = e.nbytes

variable {nbytes}

theorem get?_init (tiers : List TierSpec) (h : String) :
    (init tiers : TieredCacheStore α).entries.get? h = none := rfl

theorem not_mem_init {tiers : List TierSpec} {h : String} {e : Entry α}
    (found : (init tiers : TieredCacheStore α).entries.get? h = some e) : False := by
  rw [get?_init] at found
  cases found

theorem books_init (tiers : List TierSpec) : Books nbytes (init tiers : TieredCacheStore α) := by
  have zero : ∀ (l : List TierSpec) (d : Dict String Int), (∀ t, (d.get? t).getD 0 = 0) →
      ∀ t, (((l.map fun t => (t.name, (0 : Int))).foldl
        (fun d e => d.set e.1 e.2) d).get? t).getD 0 = 0 := by
    intro l
    induction l with
    | nil => exact fun d start => start
    | cons tier rest ih =>
      intro d start
      refine ih (d.set tier.name 0) fun t => ?_
      rw [Dict.get?_set]
      split
      · rfl
      · exact start t
  have noBytes : ∀ t, (init tiers : TieredCacheStore α).usedOf t = 0 := zero _ _ fun t => rfl
  have noPeak : ∀ t, (init tiers : TieredCacheStore α).peakOf t = 0 := zero _ _ fun t => rfl
  refine ⟨fun _ _ found => (not_mem_init found).elim, fun slot h found => ?_,
    fun t => (noBytes t).trans rfl, fun t => ?_,
    fun _ _ _ _ found => (not_mem_init found).elim⟩
  · cases found
  · rw [noBytes, noPeak]

/-- Filing an entry anew: its tier or its time stamp changes. -/
theorem Books.refile {s s' : TieredCacheStore α} {e f : Entry α} (books : Books nbytes s)
    (present : s.entries.get? e.handle = some e) (same : SameCache e f)
    (entries : s'.entries = s.entries.set e.handle f) (index : s'.index = s.index)
    (tiers : s'.tiers = s.tiers)
    (clock : s.clock ≤ s'.clock) (housed : f.tier ∈ s.tiers.map TierSpec.name)
    (stamped : f.lastUsed ≤ s'.clock)
    (fresh : ∀ h g, s.entries.get? h = some g → h ≠ e.handle → g.lastUsed ≠ f.lastUsed)
    (used : ∀ t, s'.usedOf t =
      s.usedOf t - (if e.tier = t then (e.nbytes : Int) else 0) +
        if f.tier = t then (e.nbytes : Int) else 0)
    (peak : ∀ t, s'.usedOf t ≤ s'.peakOf t) : Books nbytes s' := by
  have file := books.filed e.handle e present
  refine ⟨?filed, ?backed, ?used, peak, ?apart⟩
  case filed =>
    rw [entries]
    refine Dict.forall_get?_set (fun h g found => ?_) ?_
    · have old := books.filed h g found
      exact ⟨old.named, old.rendered, old.sized, tiers ▸ old.housed, index ▸ old.indexed,
        old.stamped.trans clock⟩
    · refine ⟨same.handle, ?_, ?_, tiers ▸ housed, ?_, stamped⟩
      · rw [same.tenant, same.key, file.rendered]
      · rw [same.nbytes, same.cache, file.sized]
      · rw [same.tenant, same.key, index, file.indexed]
  case backed =>
    intro slot h found
    obtain ⟨g, held, pair⟩ := books.backed slot h (index ▸ found)
    rw [entries, Dict.get?_set]
    by_cases isE : e.handle = h
    · rw [if_pos isE]
      rw [← isE, present] at held
      obtain rfl := Option.some.inj held
      exact ⟨f, rfl, by rw [same.tenant, same.key, pair]⟩
    · rw [if_neg isE]
      exact ⟨g, held, pair⟩
  case used =>
    intro t
    have moved :=
      Dict.sumBy_set_present (d := s.entries) f
        (fun g => if g.tier = t then g.nbytes else 0) present
    rw [used t, books.used t, bytesIn, bytesIn, entries]
    simp only [same.nbytes] at moved
    by_cases left : e.tier = t <;> by_cases entered : f.tier = t <;>
      simp only [left, entered, if_true, if_false] at moved ⊢ <;> omega
  case apart =>
    intro h g h' g' found found' stamps
    rw [entries, Dict.get?_set] at found found'
    split at found <;> split at found'
    · simp_all
    · rename_i isE notE
      obtain rfl := Option.some.inj found
      exact absurd stamps.symm (fresh h' g' found' (Ne.symm notE))
    · rename_i notE isE
      obtain rfl := Option.some.inj found'
      exact absurd stamps (fresh h g found (Ne.symm notE))
    · exact books.apart h g h' g' found found' stamps

/-- The books do not depend on the statistics. -/
theorem Books.of_fields {s s' : TieredCacheStore α} (books : Books nbytes s)
    (entries : s'.entries = s.entries)
    (index : s'.index = s.index) (tiers : s'.tiers = s.tiers) (clock : s'.clock = s.clock)
    (used : s'.used = s.used)
    (peak : s'.peak = s.peak) : Books nbytes s' := by
  have usedOf : ∀ t, s'.usedOf t = s.usedOf t :=
    fun t => by simp only [TieredCacheStore.usedOf, used]
  have peakOf : ∀ t, s'.peakOf t = s.peakOf t :=
    fun t => by simp only [TieredCacheStore.peakOf, peak]
  refine ⟨fun h e found => ?_, ?_, fun t => ?_, fun t => ?_, ?_⟩
  · have old := books.filed h e (entries ▸ found)
    exact ⟨old.named, old.rendered, old.sized, tiers ▸ old.housed, index ▸ old.indexed,
      clock ▸ old.stamped⟩
  · rw [entries, index]
    exact books.backed
  · rw [usedOf, bytesIn, entries]
    exact books.used t
  · rw [usedOf, peakOf]
    exact books.peak t
  · rw [entries]
    exact books.apart

theorem top_housed {s : TieredCacheStore α} (inhabited : s.tiers ≠ []) :
    s.top ∈ s.tiers.map TierSpec.name := by
  obtain ⟨first, rest, tiers⟩ := List.exists_cons_of_ne_nil inhabited
  simp [top, tiers]

/-- Adding a pair that is not indexed and whose handle is not in use. -/
theorem books_insert {s : TieredCacheStore α} (books : Books nbytes s) (inhabited : s.tiers ≠ [])
    {tenant key : String}
    (unindexed : s.index.get? (tenant, key) = none)
    (absent : s.entries.get? (renderHandle tenant key) = none)
    (cache : α) : Books nbytes (s.insert nbytes tenant key cache) := by
  have used :
    ∀ t, (s.insert nbytes tenant key cache).usedOf t =
    s.usedOf t + if s.top = t then (nbytes cache : Int) else 0 := by
    intro t
    exact (usedOf_recordPeak _ _ t).trans (usedOf_addUsed _ _ t _)
  refine ⟨?filed, ?backed, ?used, ?peak, ?apart⟩
  case filed =>
    rw [entries_insert]
    refine Dict.forall_get?_set (fun h f found => ?_) ?_
    · have old := books.filed h f found
      refine ⟨old.named, old.rendered, old.sized, (tiers_insert ..).symm ▸ old.housed, ?_,
        (clock_insert ..).symm ▸ old.stamped.trans (Nat.le_succ _)⟩
      rw [index_insert, Dict.get?_set_ne]
      · exact old.indexed
      · intro same
        rw [same, old.indexed] at unindexed
        cases unindexed
    · exact ⟨rfl, rfl, rfl, (tiers_insert ..).symm ▸ top_housed inhabited,
        by rw [index_insert, Dict.get?_set_self],
        (clock_insert ..).symm ▸ le_rfl⟩
  case backed =>
    intro slot h found
    rw [index_insert, Dict.get?_set] at found
    rw [entries_insert, Dict.get?_set]
    by_cases new : (tenant, key) = slot
    · rw [if_pos new] at found
      obtain rfl := Option.some.inj found
      exact ⟨_, if_pos rfl, new⟩
    · rw [if_neg new] at found
      obtain ⟨f, held, pair⟩ := books.backed slot h found
      refine ⟨f, ?_, pair⟩
      rw [if_neg, held]
      rintro rfl
      rw [absent] at held
      cases held
  case used =>
    intro t
    rw [used, books.used t, bytesIn, bytesIn, entries_insert, Dict.sumBy_set_new _ _ absent]
    split <;> simp
  case peak =>
    refine peak_recordPeak _ _ fun t other => ?_
    rw [usedOf_addUsed, if_neg other]
    exact (Int.add_zero _).trans_le (books.peak t)
  case apart =>
    -- the new time stamp is past the clock, and the others are not
    have later : ∀ h f, s.entries.get? h = some f → f.lastUsed ≠ s.clock + 1 := by
      intro h f found
      have := (books.filed h f found).stamped
      omega
    intro h f h' f' found found' stamps
    rw [entries_insert, Dict.get?_set] at found found'
    split at found <;> split at found'
    · simp_all
    · obtain rfl := Option.some.inj found
      exact absurd stamps.symm (later h' f' found')
    · obtain rfl := Option.some.inj found'
      exact absurd stamps (later h f found)
    · exact books.apart h f h' f' found found' stamps

/-- Two resident entries of one pair are one. -/
theorem Books.pair_inj {s : TieredCacheStore α} (books : Books nbytes s) {h h' : String}
    {e e' : Entry α}
    (found : s.entries.get? h = some e) (found' : s.entries.get? h' = some e')
    (pair : (e.tenant, e.key) = (e'.tenant, e'.key)) : h = h' := by
  have indexed := (books.filed h e found).indexed
  rw [pair, (books.filed h' e' found').indexed] at indexed
  exact (Option.some.inj indexed).symm

theorem books_evict {s : TieredCacheStore α} (books : Books nbytes s) (handle : String) :
    Books nbytes (s.evict handle) := by
  cases present : s.entries.get? handle with
  | none => simpa [evict, present] using books
  | some e =>
    have used : ∀ t, (s.evict handle).usedOf t = s.usedOf t + if e.tier = t then -(e.nbytes : Int)
      else 0 := by
      intro t
      simp only [evict, present]
      exact usedOf_addUsed _ _ t _
    have entries := entries_evict s handle
    have index := index_evict present
    refine ⟨?filed, ?backed, ?used, ?peak, ?apart⟩
    case filed =>
      intro h f found
      rw [entries, Dict.get?_erase] at found
      split at found
      · cases found
      · rename_i other
        have old := books.filed h f found
        refine ⟨old.named, old.rendered, old.sized, tiers_evict s handle ▸ old.housed, ?_,
          clock_evict s handle ▸ old.stamped⟩
        rw [index, Dict.get?_erase_ne]
        · exact old.indexed
        · exact fun pair => other (books.pair_inj present found pair)
    case backed =>
      intro slot h found
      rw [index, Dict.get?_erase] at found
      split at found
      · cases found
      · rename_i other
        obtain ⟨f, held, pair⟩ := books.backed slot h found
        refine ⟨f, ?_, pair⟩
        rw [entries, Dict.get?_erase_ne, held]
        rintro rfl
        rw [present] at held
        obtain rfl := Option.some.inj held
        exact other pair
    case used =>
      intro t
      have removed :=
        Dict.sumBy_erase_present (fun f : Entry α => if f.tier = t then f.nbytes else 0) present
      rw [used t, books.used t, bytesIn, bytesIn, entries]
      split at removed <;> split <;> first | contradiction | omega
    case peak =>
      intro t
      have before := books.peak t
      have same : (s.evict handle).peakOf t = s.peakOf t := by simp only [evict, present]; rfl
      rw [used, same]
      split <;> omega
    case apart =>
      intro h f h' f' found found' stamps
      rw [entries, Dict.get?_erase] at found found'
      split at found <;> split at found' <;> try contradiction
      exact books.apart h f h' f' found found' stamps

theorem books_touch {s : TieredCacheStore α} (books : Books nbytes s) {e : Entry α}
    (present : s.entries.get? e.handle = some e) : Books nbytes (s.touch e).1 := by
  have file := books.filed e.handle e present
  refine books.refile (f := (s.touch e).2) present ⟨rfl, rfl, rfl, rfl, rfl⟩ rfl rfl rfl
    (Nat.le_succ _) file.housed le_rfl
    (fun h f found other stamps => ?_) (fun t => ?_) books.peak
  · have old := (books.filed h f found).stamped
    have : f.lastUsed = s.clock + 1 := stamps
    omega
  · have : (s.touch e).1.usedOf t = s.usedOf t := rfl
    have : (s.touch e).2.tier = e.tier := rfl
    split <;> simp_all

theorem books_move {s : TieredCacheStore α} (books : Books nbytes s) {e : Entry α}
    (present : s.entries.get? e.handle = some e) {dst : String}
    (housed : dst ∈ s.tiers.map TierSpec.name) :
    Books nbytes (s.move e dst) := by
  have file := books.filed e.handle e present
  refine books.refile (f := { e with tier := dst }) present ⟨rfl, rfl, rfl, rfl, rfl⟩
    (entries_move ..) (index_move ..)
    (tiers_move ..) (clock_move s e dst).ge housed ((clock_move s e dst).symm ▸ file.stamped)
    (fun h f found other stamps => ?_)
    (usedOf_move s e dst) (peak_move s e dst books.peak)
  exact other (books.apart h f e.handle e found present stamps)

/-! ## The least recently used entry of a tier -/

/-- The entry table by itself. -/
structure Shelved (s : TieredCacheStore α) : Prop where
  named : ∀ h e, s.entries.get? h = some e → e.handle = h
  housed : ∀ h e, s.entries.get? h = some e → e.tier ∈ s.tiers.map TierSpec.name
  stamped : ∀ h e, s.entries.get? h = some e → e.lastUsed ≤ s.clock
  /-- no two entries were used at the same time -/
  apart : ∀ h e h' e', s.entries.get? h = some e → s.entries.get? h' = some e' →
    e.lastUsed = e'.lastUsed → h = h'

theorem Books.shelved {s : TieredCacheStore α} (books : Books nbytes s) : Shelved s :=
  ⟨fun h e found => (books.filed h e found).named, fun h e found => (books.filed h e found).housed,
    fun h e found => (books.filed h e found).stamped, books.apart⟩

theorem Shelved.lruIn_some {s : TieredCacheStore α} (shelved : Shelved s) {tier : String}
    {victim : Entry α} (chosen : s.lruIn tier = some victim) :
    s.entries.get? victim.handle = some victim ∧ victim.tier = tier ∧
      ∀ h e, s.entries.get? h = some e → e.tier = tier → h ≠ victim.handle →
        victim.lastUsed < e.lastUsed := by
  have member := List.argmin_mem chosen
  rw [List.mem_filter, beq_iff_eq, Dict.mem_values_iff] at member
  obtain ⟨⟨h, present⟩, inTier⟩ := member
  obtain rfl := shelved.named h victim present
  refine ⟨present, inTier, fun h' e found sameTier other => ?_⟩
  have candidate : e ∈ s.entries.values.filter (·.tier == tier) :=
    List.mem_filter.2 ⟨Dict.mem_values_iff.2 ⟨h', found⟩, beq_iff_eq.2 sameTier⟩
  have least := List.le_of_mem_argmin candidate chosen
  have distinct : victim.lastUsed ≠ e.lastUsed := fun stamps =>
    other (shelved.apart h' e victim.handle victim found present stamps.symm)
  omega

theorem lruIn_some {s : TieredCacheStore α} (books : Books nbytes s) {tier : String}
    {victim : Entry α}
    (chosen : s.lruIn tier = some victim) : s.entries.get? victim.handle = some victim ∧
      victim.tier = tier ∧
      ∀ h e, s.entries.get? h = some e → e.tier = tier → h ≠ victim.handle →
        victim.lastUsed < e.lastUsed :=
  books.shelved.lruIn_some chosen

/-- Nothing to move out of a tier: it is empty. -/
theorem bytesIn_of_lruIn_none {s : TieredCacheStore α} {tier : String}
    (nobody : s.lruIn tier = none) :
    s.bytesIn tier = 0 := by
  have empty : s.entries.values.filter (·.tier == tier) = [] := List.argmin_eq_none.1 nobody
  rw [List.filter_eq_nil_iff] at empty
  refine Dict.sumBy_eq_zero fun e member => ?_
  rw [if_neg]
  simpa using empty e member

theorem countIn_le_size (s : TieredCacheStore α) (tier : String) :
    s.countIn tier ≤ s.entries.size := by
  rw [← Dict.sumBy_one]
  refine Dict.sumBy_mono fun e => ?_
  split <;> omega

/-! ## The order of the tiers -/

/-- The tier named `a` stands above one named `b`. -/
def Faster (tiers : List TierSpec) (a b : String) : Prop :=
  ∃ i j : Nat, i < j ∧ (tiers.map TierSpec.name)[i]? = some a ∧
    (tiers.map TierSpec.name)[j]? = some b

/-- The entries of a tier were used more recently than those of the tiers below it. -/
def Ordered (s : TieredCacheStore α) : Prop :=
  ∀ h e h' e', s.entries.get? h = some e → s.entries.get? h' = some e' →
    Faster s.tiers e.tier e'.tier →
    e'.lastUsed < e.lastUsed

section Order

variable {tiers : List TierSpec} (names : (tiers.map TierSpec.name).Nodup)

include names

/-- The positions of a tier's name are one. -/
theorem position_inj {i j : Nat} {a : String} (left : (tiers.map TierSpec.name)[i]? = some a)
    (right : (tiers.map TierSpec.name)[j]? = some a) : i = j := by
  have inside : i < (tiers.map TierSpec.name).length := (List.getElem?_eq_some_iff.1 left).1
  exact (List.getElem?_inj inside names).1 (left.trans right.symm)

theorem Faster.ne {a b : String} (faster : Faster tiers a b) : a ≠ b := by
  rintro rfl
  obtain ⟨i, j, before, left, right⟩ := faster
  have := position_inj names left right
  omega

variable {above rest : List TierSpec} {tier below : TierSpec}

/-- What is above the next tier is this tier or above it. -/
theorem faster_next {a : String} (levels : tiers = above ++ tier :: below :: rest)
    (faster : Faster tiers a below.name) :
    a = tier.name ∨ Faster tiers a tier.name := by
  obtain ⟨i, j, before, left, right⟩ := faster
  have here : (tiers.map TierSpec.name)[above.length]? = some tier.name := by simp [levels]
  have next : (tiers.map TierSpec.name)[above.length + 1]? = some below.name := by simp [levels]
  have := position_inj names right next
  by_cases last : i = above.length
  · subst last
    exact .inl (Option.some.inj (left.symm.trans here))
  · exact .inr ⟨i, above.length, by omega, left, here⟩

/-- What is below the next tier is below this one. -/
theorem Faster.of_next {b : String} (levels : tiers = above ++ tier :: below :: rest)
    (faster : Faster tiers below.name b) :
    Faster tiers tier.name b := by
  obtain ⟨i, j, before, left, right⟩ := faster
  have here : (tiers.map TierSpec.name)[above.length]? = some tier.name := by simp [levels]
  have next : (tiers.map TierSpec.name)[above.length + 1]? = some below.name := by simp [levels]
  have := position_inj names left next
  exact ⟨above.length, j, by omega, here, right⟩

omit names in
/-- A tier is the bottom one or above it. -/
theorem faster_bottom {a : String} (levels : tiers = above ++ [tier])
    (housed : a ∈ tiers.map TierSpec.name) :
    a = tier.name ∨ Faster tiers a tier.name := by
  obtain ⟨i, here⟩ := List.mem_iff_getElem?.1 housed
  have bottom : (tiers.map TierSpec.name)[above.length]? = some tier.name := by simp [levels]
  by_cases last : i = above.length
  · subst last
    exact .inl (Option.some.inj (here.symm.trans bottom))
  · have inside : i < (tiers.map TierSpec.name).length := (List.getElem?_eq_some_iff.1 here).1
    rw [levels, List.length_map, List.length_append, List.length_singleton] at inside
    exact .inr ⟨i, above.length, by omega, here, bottom⟩

end Order

end TieredCacheStore

end Dexa.Memory
