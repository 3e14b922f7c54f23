import Dexa.Memory.StoreInvariants

/-! # Enforcing the capacities

`_enforce_capacity` works its way down the tiers.  `Cascade` relates the store it starts
from to the store at any point of its loops: the books stay exact, the tiers stay ordered,
and the entries are those of the start without the dropped ones, each with its time stamp.
A round of the loop of a tier keeps `Cascade` and takes an entry out of the tier
(`shed_spec`), so the loop ends, with the tier within its capacity; the tiers above are
left alone.
-/

namespace Dexa.Memory

open Dexa.Lib

/-- Tiers with distinct names and no negative capacity. -/
structure Hierarchy (tiers : List TierSpec) : Prop where
  inhabited : tiers ≠ []
  names : (tiers.map TierSpec.name).Nodup
  capacities : ∀ t ∈ tiers, 0 ≤ t.capacityBytes

namespace TieredCacheStore

variable {α : Type} (nbytes : α → Nat)

/-- The same entry, possibly in another tier. -/
structure Demoted (e e' : Entry α) : Prop extends SameCache e e' where
  lastUsed : e'.lastUsed = e.lastUsed

/-- The entry dropped is the least recently used of those held, which are entries of `s`. -/
structure LeastRecent (s : TieredCacheStore α) (d : Drop α) : Prop where
  held : d.victim ∈ d.held
  least : ∀ e ∈ d.held, e.handle ≠ d.victim.handle → d.victim.lastUsed < e.lastUsed
  entries : ∀ e ∈ d.held, ∃ e₀, s.entries.get? e.handle = some e₀ ∧ Demoted e₀ e

/-- What the capacity loops make of the store `s`. -/
structure Cascade (s : TieredCacheStore α) (st : TieredCacheStore α × List (Drop α)) : Prop where
  books : Books nbytes st.1
  ordered : Ordered st.1
  tiers : st.1.tiers = s.tiers
  clock : st.1.clock = s.clock
  entries : ∀ h e, st.1.entries.get? h = some e → ∃ e₀, s.entries.get? h = some e₀ ∧ Demoted e₀ e
  conserved : st.1.entries.size + st.2.length = s.entries.size
  dropped : st.1.evictionsDropped = s.evictionsDropped + st.2.length
  drops : ∀ d ∈ st.2, LeastRecent s d

variable {nbytes}

theorem Demoted.refl (e : Entry α) : Demoted e e := ⟨⟨rfl, rfl, rfl, rfl, rfl⟩, rfl⟩

theorem Demoted.lower {e e' : Entry α} (demoted : Demoted e e') (dst : String) :
    Demoted e { e' with tier := dst } :=
  ⟨⟨demoted.handle, demoted.key, demoted.tenant, demoted.cache, demoted.nbytes⟩, demoted.lastUsed⟩

theorem Cascade.refl {s : TieredCacheStore α} (books : Books nbytes s) (ordered : Ordered s) :
    Cascade nbytes s (s, []) :=
  ⟨books, ordered, rfl, rfl, fun _ e found => ⟨e, found, .refl e⟩, rfl, rfl, nofun⟩

section Round

variable {s : TieredCacheStore α} {st : TieredCacheStore α × List (Drop α)}
  {above rest : List TierSpec}
  {tier below : TierSpec} {victim : Entry α}

/-- A victim that moves down leaves the tiers ordered: it is below what was used later in
    its old tier, and above what the next tier held. -/
theorem Ordered.demote {s : TieredCacheStore α} (ordered : Ordered s) (books : Books nbytes s)
    (names : (s.tiers.map TierSpec.name).Nodup) (levels : s.tiers = above ++ tier :: below :: rest)
    (chosen : s.lruIn tier.name = some victim) : Ordered (s.move victim below.name) := by
  obtain ⟨present, inTier, least⟩ := lruIn_some books chosen
  have downwards : ∀ h e, s.entries.get? h = some e → h ≠ victim.handle →
    Faster s.tiers e.tier below.name →
      victim.lastUsed < e.lastUsed := by
    intro h e found other faster
    cases faster_next names levels faster with
    | inl sameTier => exact least h e found sameTier other
    | inr higher => exact ordered h e _ victim found present (inTier ▸ higher)
  intro h e h' e' found found' faster
  rw [entries_move, Dict.get?_set] at found found'
  rw [tiers_move] at faster
  split at found <;> split at found'
  · obtain rfl := Option.some.inj found
    obtain rfl := Option.some.inj found'
    exact absurd rfl (faster.ne names)
  · obtain rfl := Option.some.inj found
    exact ordered victim.handle victim h' e' present found'
      (inTier ▸ Faster.of_next names levels faster)
  · rename_i notVictim _
    obtain rfl := Option.some.inj found'
    exact downwards h e found (Ne.symm notVictim) faster
  · exact ordered h e h' e' found found' faster

theorem Ordered.evict {s : TieredCacheStore α} (ordered : Ordered s) (handle : String) :
    Ordered (s.evict handle) := by
  intro h e h' e' found found' faster
  rw [entries_evict, Dict.get?_erase] at found found'
  rw [tiers_evict] at faster
  split at found <;> split at found' <;> try contradiction
  exact ordered h e h' e' found found' faster

theorem shed_down (cascade : Cascade nbytes s st) (hierarchy : Hierarchy s.tiers)
    (levels : s.tiers = above ++ tier :: below :: rest)
    (chosen : st.1.lruIn tier.name = some victim) (n : Nat) :
    Cascade nbytes s ({ st.1.move victim below.name with demotions := n }, st.2) ∧
      (st.1.move victim below.name).countIn tier.name < st.1.countIn tier.name ∧
      ∀ t ∈ above, (st.1.move victim below.name).usedOf t.name = st.1.usedOf t.name := by
  obtain ⟨present, inTier, least⟩ := lruIn_some cascade.books chosen
  have housed : below.name ∈ st.1.tiers.map TierSpec.name := by simp [cascade.tiers, levels]
  have names := hierarchy.names
  rw [levels, List.map_append, List.map_cons, List.map_cons, List.nodup_append] at names
  obtain ⟨_, lower, apart⟩ := names
  have other : below.name ≠ tier.name :=
    fun same => (List.nodup_cons.1 lower).1 (same ▸ List.mem_cons_self ..)
  refine ⟨?cascade, ?fewer, ?above⟩
  case cascade =>
    have ordered : Ordered (st.1.move victim below.name) :=
      cascade.ordered.demote cascade.books (cascade.tiers ▸ hierarchy.names)
        (cascade.tiers.trans levels) chosen
    refine ⟨(books_move cascade.books present housed).of_fields rfl rfl rfl rfl rfl rfl, ordered,
      (tiers_move ..).trans cascade.tiers, (clock_move ..).trans cascade.clock, ?_, ?_,
      (evictionsDropped_move ..).trans cascade.dropped, cascade.drops⟩
    · show ∀ h e, (st.1.move victim below.name).entries.get? h = some e → _
      rw [entries_move]
      refine Dict.forall_get?_set cascade.entries ?_
      obtain ⟨e₀, found, demoted⟩ := cascade.entries _ _ present
      exact ⟨e₀, found, demoted.lower below.name⟩
    · show (st.1.move victim below.name).entries.size + _ = _
      rw [entries_move, Dict.size_set_present _ present]
      exact cascade.conserved
  case fewer =>
    have moved := Dict.sumBy_set_present { victim with tier := below.name }
      (fun e : Entry α => if e.tier = tier.name then 1 else 0) present
    rw [if_pos inTier, if_neg other] at moved
    rw [countIn, countIn, entries_move]
    omega
  case above =>
    intro t member
    have notTier : tier.name ≠ t.name :=
      (apart t.name (List.mem_map_of_mem member) tier.name (List.mem_cons_self ..)).symm
    have notBelow : below.name ≠ t.name :=
      (apart t.name (List.mem_map_of_mem member) below.name
        (List.mem_cons_of_mem _ (List.mem_cons_self ..))).symm
    rw [usedOf_move, inTier, if_neg notTier, if_neg notBelow]
    omega

theorem shed_off (cascade : Cascade nbytes s st) (hierarchy : Hierarchy s.tiers)
    (levels : s.tiers = above ++ [tier])
    (chosen : st.1.lruIn tier.name = some victim) :
    Cascade nbytes s
      ({ st.1.evict victim.handle with evictionsDropped := (st.1.evict victim.handle).evictionsDropped + 1 },
        st.2 ++ [⟨victim, st.1.entries.values⟩]) ∧
      (st.1.evict victim.handle).countIn tier.name < st.1.countIn tier.name ∧
      ∀ t ∈ above, (st.1.evict victim.handle).usedOf t.name = st.1.usedOf t.name := by
  obtain ⟨present, inTier, least⟩ := lruIn_some cascade.books chosen
  have names := hierarchy.names
  rw [levels, List.map_append, List.map_cons, List.nodup_append] at names
  obtain ⟨_, _, apart⟩ := names
  have removed := Dict.size_erase_present present
  refine ⟨?cascade, ?fewer, ?above⟩
  case cascade =>
    refine ⟨(books_evict cascade.books victim.handle).of_fields rfl rfl rfl rfl rfl rfl,
      cascade.ordered.evict victim.handle, (tiers_evict ..).trans cascade.tiers,
        (clock_evict ..).trans cascade.clock,
      ?_, ?_, ?_, ?_⟩
    · show ∀ h e, (st.1.evict victim.handle).entries.get? h = some e → _
      intro h e found
      rw [entries_evict, Dict.get?_erase] at found
      split at found
      · cases found
      · exact cascade.entries h e found
    · show (st.1.evict victim.handle).entries.size + _ = _
      rw [entries_evict, List.length_append, List.length_singleton]
      have := cascade.conserved
      omega
    · show (st.1.evict victim.handle).evictionsDropped + 1 = _
      rw [evictionsDropped_evict, cascade.dropped, List.length_append, List.length_singleton]
      omega
    · intro d member
      cases List.mem_append.1 member with
      | inl before => exact cascade.drops d before
      | inr now =>
        obtain rfl := List.mem_singleton.1 now
        refine ⟨Dict.mem_values_iff.2 ⟨_, present⟩, fun e held other => ?_, fun e held => ?_⟩
        -- no tier holds an entry used before the victim: the tiers above hold later ones
        · obtain ⟨h, found⟩ := Dict.mem_values_iff.1 held
          have file := cascade.books.filed h e found
          cases faster_bottom levels (cascade.tiers ▸ file.housed) with
          | inl sameTier => exact least h e found sameTier (file.named ▸ other)
          | inr higher =>
            exact cascade.ordered h e _ victim found present
              (cascade.tiers.symm ▸ inTier.symm ▸ higher)
        · obtain ⟨h, found⟩ := Dict.mem_values_iff.1 held
          rw [(cascade.books.filed h e found).named]
          exact cascade.entries h e found
  case fewer =>
    have gone :=
      Dict.sumBy_erase_present (fun e : Entry α => if e.tier = tier.name then 1 else 0) present
    rw [if_pos inTier] at gone
    rw [countIn, countIn, entries_evict]
    omega
  case above =>
    intro t member
    have notTier : tier.name ≠ t.name :=
      (apart t.name (List.mem_map_of_mem member) tier.name (List.mem_cons_self ..)).symm
    simp only [TieredCacheStore.evict, present]
    rw [usedOf_addUsed, inTier, if_neg notTier]
    exact Int.add_zero _

/-- A round keeps what the loops have to keep, takes an entry out of its tier and leaves
    the tiers above alone. -/
theorem shed_spec (cascade : Cascade nbytes s st) (hierarchy : Hierarchy s.tiers)
    (levels : s.tiers = above ++ tier :: rest) {st' : TieredCacheStore α × List (Drop α)}
    (round : shed tier rest.head? st = some st') : Cascade nbytes s st' ∧
      st'.1.countIn tier.name < st.1.countIn tier.name ∧
      ∀ t ∈ above, st'.1.usedOf t.name = st.1.usedOf t.name := by
  unfold shed at round
  cases chosen : st.1.lruIn tier.name with
  | none => simp [chosen] at round
  | some victim =>
    cases rest with
    | nil =>
      simp only [chosen, List.head?_nil, Option.some.injEq] at round
      subst round
      exact shed_off cascade hierarchy levels chosen
    | cons below rest =>
      simp only [chosen, List.head?_cons, Option.some.injEq] at round
      subst round
      exact shed_down cascade hierarchy levels chosen _

end Round

theorem shed_eq_none {tier : TierSpec} {next : Option TierSpec}
    {st : TieredCacheStore α × List (Drop α)}
    (stop : shed tier next st = none) : st.1.lruIn tier.name = none := by
  unfold shed at stop
  split at stop
  · assumption
  · split at stop <;> cases stop

/-- The loop of one tier. -/
theorem tierLoop_spec {s : TieredCacheStore α} (hierarchy : Hierarchy s.tiers)
    {above rest : List TierSpec} {tier : TierSpec}
    (levels : s.tiers = above ++ tier :: rest) {st : TieredCacheStore α × List (Drop α)}
    (cascade : Cascade nbytes s st)
    (fits : ∀ t ∈ above, st.1.usedOf t.name ≤ t.capacityBytes) :
    ∃ st', (∀ bound, s.entries.size ≤ bound →
      whileLoop (overfull tier) (shed tier rest.head?) bound st = some st') ∧
      Cascade nbytes s st' ∧ ∀ t ∈ above ++ [tier], st'.1.usedOf t.name ≤ t.capacityBytes := by
  obtain ⟨st', ends, ⟨cascade', fits'⟩, done⟩ :=
    whileLoop_total (overfull tier) (shed tier rest.head?)
    (fun st => Cascade nbytes s st ∧ ∀ t ∈ above, st.1.usedOf t.name ≤ t.capacityBytes)
    (fun st => st.1.countIn tier.name)
    (by
      intro st st' ⟨cascade, fits⟩ _ round
      obtain ⟨cascade', fewer, alone⟩ := shed_spec cascade hierarchy levels round
      exact ⟨⟨cascade', fun t member => alone t member ▸ fits t member⟩, fewer⟩)
    ⟨cascade, fits⟩
  refine ⟨st', fun bound enough => ends bound ?_, cascade', fun t member => ?_⟩
  · have := countIn_le_size st.1 tier.name
    have := cascade.conserved
    omega
  · cases List.mem_append.1 member with
    | inl higher => exact fits' t higher
    | inr here =>
      obtain rfl := List.mem_singleton.1 here
      cases done with
      | inl within => simpa [overfull] using within
      | inr stop =>
        -- the loop broke off at an empty tier
        rw [cascade'.books.used, bytesIn_of_lruIn_none (shed_eq_none stop)]
        exact hierarchy.capacities t (by simp [levels])

theorem enforceFrom_spec {s : TieredCacheStore α} (hierarchy : Hierarchy s.tiers)
    {above rest : List TierSpec}
    (levels : s.tiers = above ++ rest) {st : TieredCacheStore α × List (Drop α)}
    (cascade : Cascade nbytes s st)
    (fits : ∀ t ∈ above, st.1.usedOf t.name ≤ t.capacityBytes) :
    ∃ st', (∀ bound, s.entries.size ≤ bound → enforceFrom bound rest st = .ok st') ∧
      Cascade nbytes s st' ∧
      ∀ t ∈ s.tiers, st'.1.usedOf t.name ≤ t.capacityBytes := by
  induction rest generalizing above st with
  | nil =>
    rw [List.append_nil] at levels
    exact ⟨st, fun bound _ => rfl, cascade, levels ▸ fits⟩
  | cons tier rest ih =>
    obtain ⟨st₁, ends, cascade₁, fits₁⟩ := tierLoop_spec hierarchy levels cascade fits
    obtain ⟨st₂, rest_ends, cascade₂, fits₂⟩ := ih (List.append_cons .. ▸ levels) cascade₁ fits₁
    refine ⟨st₂, fun bound enough => ?_, cascade₂, fits₂⟩
    rw [enforceFrom, ends bound enough]
    exact rest_ends bound enough

theorem enforceCapacity_spec {s : TieredCacheStore α} (hierarchy : Hierarchy s.tiers)
    (books : Books nbytes s)
    (ordered : Ordered s) :
      ∃ st, (∀ bound, s.entries.size ≤ bound → s.enforceCapacity bound = .ok st) ∧
      Cascade nbytes s st ∧ ∀ t ∈ s.tiers, st.1.usedOf t.name ≤ t.capacityBytes :=
  enforceFrom_spec hierarchy (List.nil_append _).symm (.refl books ordered) nofun

end TieredCacheStore

end Dexa.Memory
