import Dexa.Lib.Fallible
import Dexa.Memory.StoreCapacity

/-! # The capacity loops, whatever the store holds

What `_enforce_capacity` does to the entry table of any store on tiers with distinct names: two
pairs may have one handle, so the index and the counters need not fit the entries, and the
capacities may be negative.  A round takes the least recently used entry out of its tier
(`shed_cases`), so the loops end, with every tier within its capacity or empty
(`enforceCapacity_rule`).  What a tier's counter holds beyond the tier's entries (`drift`) they
leave alone.
-/

namespace Dexa.Memory

open Dexa.Lib

namespace TieredCacheStore

variable {α : Type} {s s' : TieredCacheStore α}

/-- The bytes counted for a tier that are not those of its entries. -/
def drift (s : TieredCacheStore α) (tier : String) : Int := s.usedOf tier - s.bytesIn tier

theorem Shelved.of_fields (shelved : Shelved s) (entries : s'.entries = s.entries)
    (tiers : s'.tiers = s.tiers)
    (clock : s'.clock = s.clock) : Shelved s' := by
  refine ⟨?_, ?_, ?_, ?_⟩
  · rw [entries]
    exact shelved.named
  · rw [entries, tiers]
    exact shelved.housed
  · rw [entries, clock]
    exact shelved.stamped
  · rw [entries]
    exact shelved.apart

/-- Filing an entry, anew or over another one. -/
theorem Shelved.file (shelved : Shelved s) {f : Entry α}
    (entries : s'.entries = s.entries.set f.handle f)
    (tiers : s'.tiers = s.tiers) (clock : s.clock ≤ s'.clock)
    (housed : f.tier ∈ s.tiers.map TierSpec.name)
    (stamped : f.lastUsed ≤ s'.clock)
    (fresh : ∀ h g, s.entries.get? h = some g → h ≠ f.handle → g.lastUsed ≠ f.lastUsed) :
      Shelved s' := by
  refine ⟨?named, ?housed, ?stamped, ?apart⟩
  case named =>
    rw [entries]
    exact Dict.forall_get?_set shelved.named rfl
  case housed =>
    rw [entries, tiers]
    exact Dict.forall_get?_set shelved.housed housed
  case stamped =>
    rw [entries]
    exact Dict.forall_get?_set (fun h g found => (shelved.stamped h g found).trans clock) stamped
  case apart =>
    intro h g h' g' found found' stamps
    rw [entries, Dict.get?_set] at found found'
    split at found <;> split at found'
    · simp_all
    · rename_i isF notF
      obtain rfl := Option.some.inj found
      exact absurd stamps.symm (fresh h' g' found' (Ne.symm notF))
    · rename_i notF isF
      obtain rfl := Option.some.inj found'
      exact absurd stamps (fresh h g found (Ne.symm notF))
    · exact shelved.apart h g h' g' found found' stamps

theorem Shelved.move (shelved : Shelved s) {e : Entry α}
    (present : s.entries.get? e.handle = some e) {dst : String}
    (housed : dst ∈ s.tiers.map TierSpec.name) : Shelved (s.move e dst) := by
  refine shelved.file (f := { e with tier := dst }) (entries_move ..) (tiers_move ..)
    (clock_move s e dst).ge housed
    ((clock_move s e dst).symm ▸ shelved.stamped _ e present) fun h g found other stamps => ?_
  exact other (shelved.apart h g e.handle e found present stamps)

theorem Shelved.touch (shelved : Shelved s) {e : Entry α}
    (present : s.entries.get? e.handle = some e) :
    Shelved (s.touch e).1 := by
  refine shelved.file (f := (s.touch e).2) rfl rfl (Nat.le_succ _)
    (shelved.housed _ e present) le_rfl
    fun h g found _ stamps => ?_
  have old := shelved.stamped h g found
  have : g.lastUsed = s.clock + 1 := stamps
  omega

theorem Shelved.insert (shelved : Shelved s) (inhabited : s.tiers ≠ []) (nbytes : α → Nat)
    (tenant key : String) (cache : α) :
    Shelved (s.insert nbytes tenant key cache) := by
  refine shelved.file
    (f := { handle := renderHandle tenant key, key, tenant, cache, nbytes := nbytes cache, tier := s.top,
                              lastUsed :=
                                s.clock + 1 }) (entries_insert ..) (tiers_insert ..) ?_
                                  (top_housed inhabited)
    (clock_insert ..).ge fun h g found _ stamps => ?_
  · rw [clock_insert]
    exact Nat.le_succ _
  · have old := shelved.stamped h g found
    have : g.lastUsed = s.clock + 1 := stamps
    omega

theorem get?_of_evict {handle h : String} {e : Entry α}
    (found : (s.evict handle).entries.get? h = some e) :
    h ≠ handle ∧ s.entries.get? h = some e := by
  rw [entries_evict, Dict.get?_erase] at found
  split at found
  · cases found
  · rename_i other
    exact ⟨Ne.symm other, found⟩

theorem Shelved.evict (shelved : Shelved s) (handle : String) : Shelved (s.evict handle) := by
  refine ⟨fun h e found => shelved.named h e (get?_of_evict found).2, fun h e found => ?_,
    fun h e found => ?_,
    fun h e h' e' found found' => shelved.apart h e h' e' (get?_of_evict found).2
      (get?_of_evict found').2⟩
  · rw [tiers_evict]
    exact shelved.housed h e (get?_of_evict found).2
  · rw [clock_evict]
    exact shelved.stamped h e (get?_of_evict found).2

section Drift

variable {e : Entry α} (t : String)

theorem drift_move (present : s.entries.get? e.handle = some e) (dst : String) :
    (s.move e dst).drift t = s.drift t := by
  have moved :=
    Dict.sumBy_set_present { e with tier := dst }
      (fun f : Entry α => if f.tier = t then f.nbytes else 0) present
  rw [drift, drift, usedOf_move, bytesIn, bytesIn, entries_move]
  by_cases left : e.tier = t <;> by_cases entered :
    dst = t <;> simp only [left, entered, if_true, if_false] at moved ⊢ <;> omega

theorem drift_touch (present : s.entries.get? e.handle = some e) :
    (s.touch e).1.drift t = s.drift t := by
  have touched :=
    Dict.sumBy_set_present (s.touch e).2
      (fun f : Entry α => if f.tier = t then f.nbytes else 0) present
  have used : (s.touch e).1.usedOf t = s.usedOf t := rfl
  have bytes : (s.touch e).1.bytesIn t = s.bytesIn t := Nat.add_right_cancel touched
  rw [drift, drift, used, bytes]

theorem drift_evict (handle : String) : (s.evict handle).drift t = s.drift t := by
  cases present : s.entries.get? handle with
  | none => simp only [evict, present]
  | some e =>
    have removed :=
      Dict.sumBy_erase_present (fun f : Entry α => if f.tier = t then f.nbytes else 0) present
    have used : (s.evict handle).usedOf t = s.usedOf t + if e.tier = t then -(e.nbytes : Int)
      else 0 := by
      simp only [evict, present]
      exact usedOf_addUsed _ _ t _
    rw [drift, drift, used, bytesIn, bytesIn, entries_evict]
    split at removed <;> split <;> first | contradiction | omega

/-- An entry's bytes are among those counted for its tier. -/
theorem nbytes_le_used {h : String} (found : s.entries.get? h = some e) :
    e.nbytes + s.drift e.tier ≤ s.usedOf e.tier := by
  have part :=
    Dict.sumBy_erase_present (fun f : Entry α => if f.tier = e.tier then f.nbytes else 0) found
  rw [if_pos rfl] at part
  rw [drift, bytesIn]
  omega

end Drift

theorem countIn_pos {h : String} {e : Entry α} (found : s.entries.get? h = some e) :
    0 < s.countIn e.tier := by
  have part := Dict.sumBy_erase_present (fun f : Entry α => if f.tier = e.tier then 1 else 0) found
  rw [if_pos rfl] at part
  rw [countIn]
  omega

theorem countIn_of_lruIn_none {tier : String} (nobody : s.lruIn tier = none) :
    s.countIn tier = 0 := by
  have empty : s.entries.values.filter (·.tier == tier) = [] := List.argmin_eq_none.1 nobody
  rw [List.filter_eq_nil_iff] at empty
  refine Dict.sumBy_eq_zero fun e member => ?_
  rw [if_neg]
  simpa using empty e member

/-! ## One round -/

/-- A tier within its capacity, or with nothing to move. -/
def Relieved (s : TieredCacheStore α) (t : TierSpec) : Prop := s.usedOf t.name ≤ t.capacityBytes ∨
    s.countIn t.name = 0

/-- What the loops leave of the store `s`. -/
structure Shedding (s s' : TieredCacheStore α) : Prop where
  shelved : Shelved s'
  tiers : s'.tiers = s.tiers
  clock : s'.clock = s.clock
  size : s'.entries.size ≤ s.entries.size
  drift : ∀ t, s'.drift t = s.drift t
  entries : ∀ h e, s'.entries.get? h = some e → ∃ e₀, s.entries.get? h = some e₀ ∧ Demoted e₀ e

theorem Shedding.refl (shelved : Shelved s) : Shedding s s :=
  ⟨shelved, rfl, rfl, le_rfl, fun _ => rfl, fun _ e found => ⟨e, found, .refl e⟩⟩

section Round

variable {st st' : TieredCacheStore α × List (Drop α)} {tier : TierSpec} {next : Option TierSpec}

/-- A round moves the least recently used entry of the tier down, or drops it at the bottom. -/
theorem shed_cases (round : shed tier next st = some st') :
    ∃ victim, st.1.lruIn tier.name = some victim ∧
    (next = none ∧ (∃ n, st'.1 = { st.1.evict victim.handle with evictionsDropped := n }) ∨
      ∃ below, next = some below ∧
        ∃ n, st'.1 = { st.1.move victim below.name with demotions := n }) := by
  unfold shed at round
  cases chosen : st.1.lruIn tier.name with
  | none => simp [chosen] at round
  | some victim =>
    cases next with
    | none =>
      simp only [chosen, Option.some.injEq] at round
      subst round
      exact ⟨victim, rfl, .inl ⟨rfl, _, rfl⟩⟩
    | some below =>
      simp only [chosen, Option.some.injEq] at round
      subst round
      exact ⟨victim, rfl, .inr ⟨below, rfl, _, rfl⟩⟩

theorem Shedding.round (shedding : Shedding s st.1)
    (housed : ∀ below, next = some below → below.name ∈ s.tiers.map TierSpec.name)
    (round : shed tier next st = some st') : Shedding s st'.1 := by
  obtain ⟨victim, chosen, ⟨bottom, n, left⟩ | ⟨below, lower, n, left⟩⟩ := shed_cases round
  · rw [left]
    refine ⟨(shedding.shelved.evict victim.handle).of_fields rfl rfl rfl,
      (tiers_evict ..).trans shedding.tiers,
      (clock_evict ..).trans shedding.clock, le_trans ?_ shedding.size,
        fun t => (drift_evict t _).trans (shedding.drift t),
      fun h e found => shedding.entries h e (get?_of_evict found).2⟩
    have present := (shedding.shelved.lruIn_some chosen).1
    have := Dict.size_erase_present present
    show (st.1.evict victim.handle).entries.size ≤ _
    rw [entries_evict]
    omega
  · obtain ⟨present, -, -⟩ := shedding.shelved.lruIn_some chosen
    have housed := shedding.tiers.symm ▸ housed below lower
    rw [left]
    refine ⟨(shedding.shelved.move present housed).of_fields rfl rfl rfl,
      (tiers_move ..).trans shedding.tiers,
      (clock_move ..).trans shedding.clock, le_trans ?_ shedding.size,
      fun t => (drift_move t present _).trans (shedding.drift t), ?_⟩
    · show (st.1.move victim below.name).entries.size ≤ _
      rw [entries_move, Dict.size_set_present _ present]
    · show ∀ h e, (st.1.move victim below.name).entries.get? h = some e → _
      rw [entries_move]
      refine Dict.forall_get?_set shedding.entries ?_
      obtain ⟨e₀, found, demoted⟩ := shedding.entries _ _ present
      exact ⟨e₀, found, demoted.lower below.name⟩

/-- The entries of another tier, neither this one nor the next. -/
theorem shed_elsewhere (shelved : Shelved st.1) (round : shed tier next st = some st') {t : String}
    (notHere : tier.name ≠ t)
    (notNext : ∀ below, next = some below → below.name ≠ t) :
    st'.1.usedOf t = st.1.usedOf t ∧ st'.1.countIn t = st.1.countIn t := by
  obtain ⟨victim, chosen, ⟨bottom, n, left⟩ | ⟨below, lower, n, left⟩⟩ := shed_cases round
  · obtain ⟨present, inTier, -⟩ := shelved.lruIn_some chosen
    have removed :=
      Dict.sumBy_erase_present (fun e : Entry α => if e.tier = t then 1 else 0) present
    rw [inTier, if_neg notHere] at removed
    rw [left]
    constructor
    · show (st.1.evict victim.handle).usedOf t = _
      simp only [evict, present]
      rw [usedOf_addUsed, inTier, if_neg notHere]
      exact Int.add_zero _
    · show (st.1.evict victim.handle).countIn t = _
      rw [countIn, entries_evict]
      exact removed
  · obtain ⟨present, inTier, -⟩ := shelved.lruIn_some chosen
    have moved :=
      Dict.sumBy_set_present { victim with tier := below.name }
        (fun e : Entry α => if e.tier = t then 1 else 0) present
    rw [inTier, if_neg notHere, if_neg (notNext below lower)] at moved
    rw [left]
    constructor
    · show (st.1.move victim below.name).usedOf t = _
      rw [usedOf_move, inTier, if_neg notHere, if_neg (notNext below lower)]
      omega
    · show (st.1.move victim below.name).countIn t = _
      rw [countIn, entries_move]
      exact moved

/-- A round takes an entry out of its tier. -/
theorem shed_fewer (shelved : Shelved st.1)
    (apart : ∀ below, next = some below → below.name ≠ tier.name)
    (round : shed tier next st = some st') : st'.1.countIn tier.name < st.1.countIn tier.name := by
  obtain ⟨victim, chosen, ⟨bottom, n, left⟩ | ⟨below, lower, n, left⟩⟩ := shed_cases round
  · obtain ⟨present, inTier, -⟩ := shelved.lruIn_some chosen
    have removed :=
      Dict.sumBy_erase_present (fun e : Entry α => if e.tier = tier.name then 1 else 0) present
    rw [if_pos inTier] at removed
    rw [left]
    show (st.1.evict victim.handle).countIn tier.name < _
    rw [countIn, countIn, entries_evict]
    omega
  · obtain ⟨present, inTier, -⟩ := shelved.lruIn_some chosen
    have moved :=
      Dict.sumBy_set_present { victim with tier := below.name }
        (fun e : Entry α => if e.tier = tier.name then 1 else 0) present
    rw [if_pos inTier, if_neg (apart below lower)] at moved
    rw [left]
    show (st.1.move victim below.name).countIn tier.name < _
    rw [countIn, countIn, entries_move]
    omega

end Round

/-! ## The loops -/

/-- Tiers with distinct names. -/
structure Named (tiers : List TierSpec) : Prop where
  inhabited : tiers ≠ []
  names : (tiers.map TierSpec.name).Nodup

theorem Named.next {tiers above rest : List TierSpec} {tier : TierSpec} (named : Named tiers)
    (levels : tiers = above ++ tier :: rest) : (∀ t ∈ above, tier.name ≠ t.name) ∧
      ∀ below ∈ rest, below.name ≠ tier.name ∧ ∀ t ∈ above, below.name ≠ t.name := by
  have names := named.names
  rw [levels, List.map_append, List.map_cons, List.nodup_append] at names
  obtain ⟨-, lower, apart⟩ := names
  have other := (List.nodup_cons.1 lower).1
  refine ⟨fun t member => (apart _ (List.mem_map_of_mem member) _ List.mem_cons_self).symm,
    fun below member => ⟨?_, ?_⟩⟩
  · intro same
    exact other (same ▸ List.mem_map_of_mem member)
  · intro t higher
    exact (apart _ (List.mem_map_of_mem higher) _
      (List.mem_cons_of_mem _ (List.mem_map_of_mem member))).symm

section Rule

variable {Extra : List TierSpec → TieredCacheStore α → Prop} (named : Named s.tiers)
  (round : ∀ above tier rest (st st' : TieredCacheStore α × List (Drop α)),
    s.tiers = above ++ tier :: rest →
    Shedding s st.1 → Extra (tier :: rest) st.1 → overfull tier st = true →
      shed tier rest.head? st = some st' →
    Extra (tier :: rest) st'.1)
  (done : ∀ above tier rest s', s.tiers = above ++ tier :: rest → Shedding s s' →
    Extra (tier :: rest) s' →
    Relieved s' tier → Extra rest s')

include named round in
theorem tierLoop_rule {above rest : List TierSpec} {tier : TierSpec}
    (levels : s.tiers = above ++ tier :: rest)
    {st : TieredCacheStore α × List (Drop α)} (shedding : Shedding s st.1)
    (relieved : ∀ t ∈ above, Relieved st.1 t)
    (extra : Extra (tier :: rest) st.1) :
    ∃ st', (∀ bound, s.entries.size ≤ bound →
      whileLoop (overfull tier) (shed tier rest.head?) bound st = some st') ∧
      Shedding s st'.1 ∧ (∀ t ∈ above ++ [tier], Relieved st'.1 t) ∧
        Extra (tier :: rest) st'.1 := by
  have headRest : ∀ below, rest.head? = some below → below ∈ rest :=
    fun below first => List.mem_of_mem_head? first
  obtain ⟨notHere, lower⟩ := named.next levels
  obtain ⟨st', ends, ⟨shedding', relieved', extra'⟩, ended⟩ :=
    whileLoop_total (overfull tier) (shed tier rest.head?)
    (fun st => Shedding s st.1 ∧ (∀ t ∈ above, Relieved st.1 t) ∧ Extra (tier :: rest) st.1)
    (fun st => st.1.countIn tier.name)
    (by
      intro st st' ⟨shedding, relieved, extra⟩ full turn
      have housed : ∀ below, rest.head? = some below → below.name ∈ s.tiers.map TierSpec.name := by
        intro below first
        have := headRest below first
        exact List.mem_map_of_mem (by simp [levels, this])
      refine ⟨⟨shedding.round housed turn, fun t member => ?_,
        round above tier rest st st' levels shedding extra full turn⟩,
        shed_fewer shedding.shelved
          (fun below first => (lower below (headRest below first)).1) turn⟩
      have same := shed_elsewhere shedding.shelved turn (notHere t member)
        fun below first => (lower below (headRest below first)).2 t member
      rw [Relieved, same.1, same.2]
      exact relieved t member)
    ⟨shedding, relieved, extra⟩
  -- a tier has no more entries than the store
  refine ⟨st', fun bound enough => ends bound ?_, shedding', fun t member => ?_, extra'⟩
  · exact (countIn_le_size st.1 tier.name).trans (shedding.size.trans enough)
  · cases List.mem_append.1 member with
    | inl higher => exact relieved' t higher
    | inr here =>
      obtain rfl := List.mem_singleton.1 here
      -- the loop ends within the capacity or with nobody to move
      cases ended with
      | inl within => exact .inl (by simpa [overfull] using within)
      | inr stop => exact .inr (countIn_of_lruIn_none (shed_eq_none stop))

include named round done

theorem enforceFrom_rule {above rest : List TierSpec} (levels : s.tiers = above ++ rest)
    {st : TieredCacheStore α × List (Drop α)} (shedding : Shedding s st.1)
    (relieved : ∀ t ∈ above, Relieved st.1 t)
    (extra : Extra rest st.1) :
    ∃ st', (∀ bound, s.entries.size ≤ bound → enforceFrom bound rest st = .ok st') ∧
      Shedding s st'.1 ∧
      (∀ t ∈ s.tiers, Relieved st'.1 t) ∧ Extra [] st'.1 := by
  induction rest generalizing above st with
  | nil =>
    rw [List.append_nil] at levels
    exact ⟨st, fun bound _ => rfl, shedding, levels ▸ relieved, extra⟩
  | cons tier rest ih =>
    obtain ⟨st₁, ends, shedding₁, relieved₁, extra₁⟩ :=
      tierLoop_rule named round levels shedding relieved extra
    have here := relieved₁ tier (List.mem_append_right _ (List.mem_singleton.2 rfl))
    obtain ⟨st₂, restEnds, rest₂⟩ := ih (List.append_cons .. ▸ levels) shedding₁ relieved₁
      (done above tier rest st₁.1 levels shedding₁ extra₁ here)
    refine ⟨st₂, fun bound enough => ?_, rest₂⟩
    rw [enforceFrom, ends bound enough]
    exact restEnds bound enough

variable (Extra) in
/-- The rule for `_enforce_capacity`, with what the rounds keep beyond `Shedding`. -/
theorem enforceCapacity_rule (shelved : Shelved s) (start : Extra s.tiers s) :
    ∃ st, (∀ bound, s.entries.size ≤ bound → s.enforceCapacity bound = .ok st) ∧ Shedding s st.1 ∧
      (∀ t ∈ s.tiers, Relieved st.1 t) ∧ Extra [] st.1 :=
  enforceFrom_rule named round done (List.nil_append _).symm (.refl shelved) nofun start

end Rule

/-! ## The books where the loops end

In any tiers, also where names repeat and a loop need not end. -/

section Books

variable {nbytes : α → Nat}

theorem Books.shed {st st' : TieredCacheStore α × List (Drop α)} {tier : TierSpec}
    {next : Option TierSpec}
    (books : Books nbytes st.1)
    (housed : ∀ below, next = some below → below.name ∈ st.1.tiers.map TierSpec.name)
    (round : shed tier next st = some st') : Books nbytes st'.1 ∧ st'.1.tiers = st.1.tiers := by
  obtain ⟨victim, chosen, ⟨bottom, n, left⟩ | ⟨below, lower, n, left⟩⟩ := shed_cases round
  · rw [left]
    exact ⟨(books_evict books victim.handle).of_fields rfl rfl rfl rfl rfl rfl, tiers_evict ..⟩
  · rw [left]
    have present := (lruIn_some books chosen).1
    exact ⟨(books_move books present (housed below lower)).of_fields rfl rfl rfl rfl rfl rfl,
      tiers_move ..⟩

theorem Books.enforceFrom {bound : Nat} {tiers : List TierSpec}
    {t t' : TieredCacheStore α × List (Drop α)}
    (books : Books nbytes t.1) (own : ∀ tier ∈ tiers, tier ∈ t.1.tiers)
    (ends : enforceFrom bound tiers t = .ok t') :
    Books nbytes t'.1 ∧ t'.1.tiers = t.1.tiers := by
  induction tiers generalizing t with
  | nil =>
    obtain rfl := Except.ok.inj ends
    exact ⟨books, rfl⟩
  | cons tier rest ih =>
    rw [TieredCacheStore.enforceFrom] at ends
    cases loop : whileLoop (overfull tier) (TieredCacheStore.shed tier rest.head?) bound t with
    | none => simp [loop] at ends
    | some st₁ =>
      simp only [loop] at ends
      have round : ∀ st st', Books nbytes st.1 ∧ st.1.tiers = t.1.tiers →
          TieredCacheStore.shed tier rest.head? st = some st' → Books nbytes st'.1 ∧
            st'.1.tiers = t.1.tiers := by
        intro st st' held turn
        obtain ⟨books, tiers⟩ := held
        obtain ⟨books', tiers'⟩ := books.shed (fun below first => tiers.symm ▸ List.mem_map_of_mem
          (own below (List.mem_cons_of_mem _ (List.mem_of_mem_head? first)))) turn
        exact ⟨books', tiers'.trans tiers⟩
      obtain ⟨books₁, tiers₁⟩ := whileLoop_invariant round ⟨books, rfl⟩ loop
      obtain ⟨books₂, tiers₂⟩ :=
        ih books₁ (fun t' member => tiers₁.symm ▸ own t' (List.mem_cons_of_mem _ member)) ends
      exact ⟨books₂, tiers₂.trans tiers₁⟩

theorem Books.promote {bound : Nat} {e : Entry α} {st : TieredCacheStore α × List (Drop α)}
    (books : Books nbytes s)
    (inhabited : s.tiers ≠ []) (present : s.entries.get? e.handle = some e)
    (ends : s.promote bound e = .ok st) :
    Books nbytes st.1 ∧ st.1.tiers = s.tiers := by
  rw [TieredCacheStore.promote] at ends
  split at ends
  · have moved := books_move books present (top_housed inhabited)
    obtain ⟨books', tiers'⟩ := Books.enforceFrom
      (t := ({ s.move e s.top with promotions := (s.move e s.top).promotions + 1 }, []))
      (moved.of_fields rfl rfl rfl rfl rfl rfl) (fun _ => id) ends
    exact ⟨books', tiers'.trans (tiers_move ..)⟩
  · obtain rfl := Except.ok.inj ends
    exact ⟨books, rfl⟩

theorem Books.touchPromote {bound : Nat} {e : Entry α} {st : TieredCacheStore α × List (Drop α)}
    (books : Books nbytes s)
    (inhabited : s.tiers ≠ []) (present : s.entries.get? e.handle = some e)
    (ends : (s.touch e).1.promote bound (s.touch e).2 = .ok st) : Books nbytes st.1 ∧
      st.1.tiers = s.tiers :=
  (books_touch books present).promote (s := (s.touch e).1) inhabited (Dict.get?_set_self ..) ends

theorem Books.get {bound : Nat} {handle : String}
    {r : Option α × TieredCacheStore α × List (Drop α)} (books : Books nbytes s)
    (inhabited : s.tiers ≠ []) (ends : s.get bound handle = .ok r) :
    Books nbytes r.2.1 ∧ r.2.1.tiers = s.tiers ∧ r.1 = (s.entries.get? handle).map Entry.cache := by
  cases present : s.entries.get? handle with
  | none =>
    simp only [TieredCacheStore.get, present, Except.ok.injEq] at ends
    subst ends
    exact ⟨books.of_fields rfl rfl rfl rfl rfl rfl, rfl, rfl⟩
  | some e =>
    obtain rfl := (books.filed handle e present).named
    have counted : Books nbytes { s with
        gets := s.gets + 1
        getHits := s.getHits + 1
        modeledAccessSeconds := s.modeledAccessSeconds + s.accessCost e.tier e.nbytes } :=
      books.of_fields rfl rfl rfl rfl rfl rfl
    simp only [TieredCacheStore.get, present] at ends
    obtain ⟨st, promoted, rfl⟩ := Fallible.ok_of_map ends
    obtain ⟨books', tiers'⟩ := counted.touchPromote inhabited present promoted
    exact ⟨books', tiers', rfl⟩

theorem Books.put {bound : Nat} {tenant key : String} {cache : α}
    {r : String × TieredCacheStore α × List (Drop α)}
    (books : Books nbytes s) (inhabited : s.tiers ≠ [])
    (absent : s.index.get? (tenant, key) = none → s.entries.get? (renderHandle tenant key) = none)
    (ends : s.put nbytes bound tenant key cache = .ok r) : Books nbytes r.2.1 ∧
      r.2.1.tiers = s.tiers := by
  cases indexed : s.index.get? (tenant, key) with
  | none =>
    simp only [TieredCacheStore.put, indexed] at ends
    obtain ⟨st, enforced, rfl⟩ := Fallible.ok_of_map ends
    have inserted := books_insert books inhabited indexed (absent indexed) cache
    obtain ⟨books', tiers'⟩ :=
      Books.enforceFrom (t := (s.insert nbytes tenant key cache, [])) inserted
        (fun _ => id) enforced
    exact ⟨books', tiers'.trans (tiers_insert ..)⟩
  | some handle =>
    obtain ⟨e, present, -⟩ := books.backed _ handle indexed
    obtain rfl := (books.filed handle e present).named
    simp only [TieredCacheStore.put, indexed, present] at ends
    obtain ⟨st, promoted, rfl⟩ := Fallible.ok_of_map ends
    exact books.touchPromote inhabited present promoted

end Books

end TieredCacheStore

end Dexa.Memory
