import Dexa.Lib.Fallible
import Dexa.Memory.StoreLoops
import Dexa.Memory.StoreBooks

/-! # Puts of what fits nowhere

The entry of a put is the most recently used one, so the capacity loops take it out of a tier only
when it is alone there.  If some tier has room for it alone it stays at or above that tier
(`enforceCapacity_keeps`); otherwise it falls through every tier, and every tier is empty behind it
(`enforceCapacity_empties`).  So a put whose entry is not kept leaves an empty store, and spares the
other entries only where there were none (`puts_spare_others_iff`).
-/

namespace Dexa.Memory

open Dexa.Lib

namespace TieredCacheStore

variable {α : Type} {s s' : TieredCacheStore α}

/-! ## The newest entry in the capacity loops -/

/-- The entry under the handle was used after all others. -/
structure Newest (s : TieredCacheStore α) (h : String) (e : Entry α) : Prop where
  present : s.entries.get? h = some e
  after : ∀ h' f, s.entries.get? h' = some f → h' ≠ h → f.lastUsed < e.lastUsed

theorem Newest.shedding {h : String} {e f : Entry α} (newest : Newest s h e)
    (shedding : Shedding s s')
    (found : s'.entries.get? h = some f) : Newest s' h f ∧ f.nbytes = e.nbytes := by
  obtain ⟨e₀, before, same⟩ := shedding.entries h f found
  obtain rfl := Option.some.inj (newest.present.symm.trans before)
  refine ⟨⟨found, fun h' g found' other => ?_⟩, same.nbytes⟩
  obtain ⟨g₀, before', same'⟩ := shedding.entries h' g found'
  rw [same'.lastUsed, same.lastUsed]
  exact newest.after h' g₀ before' other

/-- The newest entry is least recently used only where it is alone. -/
theorem Newest.alone {h : String} {e victim : Entry α} (newest : Newest s h e) (shelved : Shelved s)
    {tier : String}
    (chosen : s.lruIn tier = some victim) (same : victim.handle = h) :
    victim = e ∧ ∀ h' f, s.entries.get? h' = some f → f.tier = tier → h' = h := by
  obtain ⟨present, -, least⟩ := shelved.lruIn_some chosen
  subst same
  obtain rfl := Option.some.inj (present.symm.trans newest.present)
  refine ⟨rfl, fun h' f found inTier => ?_⟩
  by_contra other
  have := least h' f found inTier other
  have := newest.after h' f found other
  omega

theorem bytesIn_alone {h : String} {e : Entry α} (found : s.entries.get? h = some e)
    (alone : ∀ h' f, s.entries.get? h' = some f → f.tier = e.tier → h' = h) :
      s.bytesIn e.tier = e.nbytes := by
  have part :=
    Dict.sumBy_erase_present (fun f : Entry α => if f.tier = e.tier then f.nbytes else 0) found
  have others :
    (s.entries.erase h).sumBy (fun f : Entry α => if f.tier = e.tier then f.nbytes else 0) = 0 := by
    refine Dict.sumBy_eq_zero fun f member => ?_
    obtain ⟨h', held⟩ := Dict.mem_values_iff.1 member
    rw [Dict.get?_erase] at held
    split at held
    · cases held
    · rename_i other
      rw [if_neg]
      intro inTier
      exact other (alone h' f held inTier).symm
  rw [others, if_pos rfl] at part
  rw [bytesIn]
  omega

/-- The tier below one that stands above `t`, or is no tier from `t` on, is not below `t`. -/
theorem Named.below_not_lower {tiers upper lower above rest : List TierSpec}
    {t tier below : TierSpec} (named : Named tiers)
    (split : tiers = upper ++ t :: lower) (levels : tiers = above ++ tier :: rest)
    (next : rest.head? = some below)
    (notLower : tier.name ∉ lower.map TierSpec.name) (other : tier.name ≠ t.name) :
      below.name ∉ lower.map TierSpec.name := by
  have names := named.names
  rw [split] at levels names
  cases List.append_eq_append_iff.1 levels with
  | inl longer =>
    obtain ⟨middle, -, tail⟩ := longer
    cases middle with
    | nil =>
      obtain ⟨rfl, -⟩ := List.cons.inj tail
      exact absurd rfl other
    | cons _ middle =>
      obtain ⟨rfl, rfl⟩ := List.cons.inj tail
      exact absurd (List.mem_map_of_mem (by simp)) notLower
  | inr shorter =>
    obtain ⟨middle, rfl, tail⟩ := shorter
    cases middle with
    | nil =>
      obtain ⟨rfl, -⟩ := List.cons.inj tail
      exact absurd rfl other
    | cons _ middle =>
      obtain ⟨rfl, rfl⟩ := List.cons.inj tail
      -- the next tier is in the middle, or is `t`
      have inMiddle : below ∈ middle ++ [t] := by
        cases middle with
        | nil => simpa [eq_comm] using next
        | cons _ middle =>
          obtain rfl := Option.some.inj next
          exact List.mem_append_left _ List.mem_cons_self
      intro lower'
      have apart :
        (above.map TierSpec.name ++ [tier.name] ++ (middle ++ [t]).map TierSpec.name ++
        lower.map TierSpec.name).Nodup := by
        simpa using names
      exact (List.nodup_append.1 apart).2.2 _
        (List.mem_append_right _ (List.mem_map_of_mem inMiddle)) _ lower' rfl

/-- With room for it in some tier, the newest entry is kept. -/
theorem enforceCapacity_keeps (shelved : Shelved s) (named : Named s.tiers) {h : String}
    {e : Entry α} (newest : Newest s h e)
    (atTop : e.tier = s.top) {t : TierSpec} (member : t ∈ s.tiers)
    (fits : e.nbytes + s.drift t.name ≤ t.capacityBytes) :
    ∃ st, (∀ bound, s.entries.size ≤ bound → s.enforceCapacity bound = .ok st) ∧ Shedding s st.1 ∧
      (∀ t ∈ s.tiers, Relieved st.1 t) ∧ ∃ f, st.1.entries.get? h = some f := by
  obtain ⟨upper, lower, split⟩ := List.append_of_mem member
  obtain ⟨st, ends, shedding, relieved, f, found, -⟩ := enforceCapacity_rule
    (fun _ s' => ∃ f, s'.entries.get? h = some f ∧ f.tier ∉ lower.map TierSpec.name) named
    (by
      intro above tier rest st st' levels shedding ⟨f, found, notLower⟩ full turn
      obtain ⟨newest', size⟩ := newest.shedding shedding found
      obtain ⟨victim, chosen, cases⟩ := shed_cases turn
      obtain ⟨present, inTier, -⟩ := shedding.shelved.lruIn_some chosen
      by_cases isNewest : victim.handle = h
      · obtain ⟨rfl, alone⟩ := newest'.alone shedding.shelved chosen isNewest
        -- alone in `t` it would be within the capacity
        have other : tier.name ≠ t.name := by
          intro same
          have used := bytesIn_alone found (inTier ▸ alone)
          have drift := shedding.drift t.name
          rw [TieredCacheStore.drift, ← same, ← inTier, used] at drift
          have exceeds : st.1.usedOf tier.name > tier.capacityBytes := by
            simpa [overfull] using full
          obtain rfl : tier = t :=
            List.inj_on_of_nodup_map named.names (by simp [levels]) member same
          rw [inTier] at drift
          omega
        cases cases with
        | inl bottom =>
          obtain ⟨last, -⟩ := bottom
          -- the bottom tier is `t` or below it
          have inLower : tier ∈ t :: lower := by
            have end_ : tier ∈ (s.tiers).getLast? := by
              rw [levels, List.head?_eq_none_iff.1 last]
              simp
            rw [split, List.getLast?_append_of_ne_nil _ (List.cons_ne_nil _ _)] at end_
            exact List.mem_of_mem_getLast? end_
          cases List.mem_cons.1 inLower with
          | inl same => exact absurd (congrArg _ same) other
          | inr below => exact absurd (inTier ▸ List.mem_map_of_mem below) notLower
        | inr down =>
          obtain ⟨below, next, n, left⟩ := down
          refine ⟨{ victim with tier := below.name }, ?_,
            named.below_not_lower split levels next (inTier ▸ notLower) other⟩
          rw [left]
          show (st.1.move victim below.name).entries.get? h = _
          rw [entries_move, isNewest, Dict.get?_set_self]
      · refine ⟨f, ?_, notLower⟩
        obtain ⟨-, n, left⟩ | ⟨below, -, n, left⟩ := cases
        · rw [left]
          show (st.1.evict victim.handle).entries.get? h = _
          rw [entries_evict, Dict.get?_erase_ne _ isNewest, found]
        · rw [left]
          show (st.1.move victim below.name).entries.get? h = _
          rw [entries_move, Dict.get?_set_ne _ _ isNewest, found])
    (fun _ _ _ _ _ _ extra _ => extra) shelved
    ⟨e, newest.present, by
      rw [atTop, top, split]
      have names := named.names
      rw [split, List.map_append, List.map_cons, List.nodup_append] at names
      cases upper with
      | nil => exact (List.nodup_cons.1 names.2.1).1
      | cons first upper =>
        intro inLower
        exact names.2.2 first.name (by simp) first.name (List.mem_cons_of_mem _ inLower) rfl⟩
  exact ⟨st, ends, shedding, relieved, f, found⟩

/-- The entry under the handle is in the first of these tiers, and nothing is above them. -/
structure Fallen (h : String) (tiers : List TierSpec) (s : TieredCacheStore α) : Prop where
  low : ∀ h' f, s.entries.get? h' = some f → f.tier ∈ tiers.map TierSpec.name
  first : ∀ t ∈ tiers.head?, ∃ f, s.entries.get? h = some f ∧ f.tier = t.name

theorem Fallen.round {h : String} {e : Entry α} (newest : Newest s h e) (shelved : Shelved s)
    {tier : TierSpec}
    {rest : List TierSpec} {drops : List (Drop α)} {st' : TieredCacheStore α × List (Drop α)}
    (fallen : Fallen h (tier :: rest) s) (turn : shed tier rest.head? (s, drops) = some st') :
    Fallen h (tier :: rest) st'.1 ∨ Fallen h rest st'.1 := by
  obtain ⟨f, found, inFirst⟩ := fallen.first tier rfl
  obtain rfl := Option.some.inj (found.symm.trans newest.present)
  obtain ⟨victim, chosen, cases⟩ := shed_cases turn
  obtain ⟨present, inTier, -⟩ := shelved.lruIn_some chosen
  by_cases isNewest : victim.handle = h
  · right
    obtain ⟨rfl, alone⟩ := newest.alone shelved chosen isNewest
    have below : ∀ h' g, s.entries.get? h' = some g → h' ≠ h → g.tier ∈ rest.map TierSpec.name := by
      intro h' g found' other
      cases List.mem_cons.1 (List.map_cons .. ▸ fallen.low h' g found') with
      | inl here => exact absurd (alone h' g found' here) other
      | inr lower => exact lower
    obtain ⟨last, n, left⟩ | ⟨next, first, n, left⟩ := cases
    · rw [left]
      refine ⟨fun h' g found' => ?_, fun t first => ?_⟩
      · obtain ⟨other, before⟩ := get?_of_evict found'
        exact below h' g before (isNewest ▸ other)
      · rw [last] at first
        cases first
    · rw [left]
      have moved : ∀ h', (s.move victim next.name).entries.get? h' =
          if h = h' then some { victim with tier := next.name } else s.entries.get? h' := by
        intro h'
        rw [entries_move, isNewest, Dict.get?_set]
      refine ⟨fun h' g found' => ?_, fun t first' => ⟨{ victim with tier := next.name }, ?_, ?_⟩⟩
      · have found' := (moved h').symm.trans found'
        split at found'
        · obtain rfl := Option.some.inj found'
          exact List.mem_map_of_mem (List.mem_of_mem_head? first)
        · rename_i other
          exact below h' g found' (Ne.symm other)
      · exact (moved h).trans (if_pos rfl)
      · rw [first] at first'
        exact congrArg TierSpec.name (Option.some.inj first')
  · left
    obtain ⟨-, n, left⟩ | ⟨next, first, n, left⟩ := cases
    · rw [left]
      refine ⟨fun h' g found' => fallen.low h' g (get?_of_evict found').2,
        fun t here => ⟨f, ?_, ?_⟩⟩
      · show (s.evict victim.handle).entries.get? h = _
        rw [entries_evict, Dict.get?_erase_ne _ isNewest, found]
      · exact inFirst.trans (congrArg TierSpec.name (Option.some.inj here))
    · rw [left]
      refine ⟨?_, fun t here => ⟨f, ?_, ?_⟩⟩
      · show ∀ h' g, (s.move victim next.name).entries.get? h' = some g → _
        rw [entries_move]
        exact Dict.forall_get?_set fallen.low
          (List.mem_cons_of_mem _ (List.mem_map_of_mem (List.mem_of_mem_head? first)))
      · show (s.move victim next.name).entries.get? h = _
        rw [entries_move, Dict.get?_set_ne _ _ isNewest, found]
      · exact inFirst.trans (congrArg TierSpec.name (Option.some.inj here))

/-- With room for it in no tier, the newest entry falls through all of them and leaves them
    empty. -/
theorem enforceCapacity_empties (shelved : Shelved s) (named : Named s.tiers) {h : String}
    {e : Entry α} (newest : Newest s h e)
    (atTop : e.tier = s.top)
    (fitsNowhere : ∀ t ∈ s.tiers, t.capacityBytes < e.nbytes + s.drift t.name) :
    ∃ st, (∀ bound, s.entries.size ≤ bound → s.enforceCapacity bound = .ok st) ∧ Shedding s st.1 ∧
      (∀ t ∈ s.tiers, Relieved st.1 t) ∧ ∀ h f, st.1.entries.get? h ≠ some f := by
  obtain ⟨st, ends, shedding, relieved, extra⟩ := enforceCapacity_rule
    (fun tiers s' => Fallen h tiers s' ∨ Fallen h tiers.tail s') named
    (by
      intro above tier rest st st' levels shedding extra full turn
      cases extra with
      | inl fallen =>
        obtain ⟨f, found, -⟩ := fallen.first tier rfl
        exact fallen.round (newest.shedding shedding found).1 shedding.shelved turn
      | inr below =>
        -- nothing is left in the tier
        obtain ⟨victim, chosen, -⟩ := shed_cases turn
        obtain ⟨present, inTier, -⟩ := shedding.shelved.lruIn_some chosen
        have names := named.names
        rw [levels, List.map_append, List.map_cons, List.nodup_append] at names
        exact absurd (inTier ▸ below.low _ victim present) (List.nodup_cons.1 names.2.1).1)
    (by
      intro above tier rest s' levels shedding extra relieved
      cases extra with
      | inr below => exact .inl below
      | inl fallen =>
        obtain ⟨f, found, inFirst⟩ := fallen.first tier rfl
        cases relieved with
        | inl within =>
          have counted := nbytes_le_used found
          have size := (newest.shedding shedding found).2
          have exceeds := fitsNowhere tier (by simp [levels])
          rw [inFirst, shedding.drift, size] at counted
          omega
        | inr empty =>
          have some_ := countIn_pos found
          rw [inFirst, empty] at some_
          exact absurd some_ (Nat.lt_irrefl 0))
    shelved
    (.inl ⟨shelved.housed,
      fun t first => ⟨e, newest.present,
      by rw [atTop, top, first, Option.map_some, Option.getD_some]⟩⟩)
  have empty : Fallen h [] st.1 := by simpa using extra
  exact ⟨st, ends, shedding, relieved, fun h' f found => absurd (empty.low h' f found) (by simp)⟩

/-! ## Calls -/

/-- What every call keeps, whatever the pairs and the capacities. -/
structure Tended (s : TieredCacheStore α) : Prop where
  shelved : Shelved s
  named : Named s.tiers
  relieved : ∀ t ∈ s.tiers, Relieved s t

theorem tended_init {tiers : List TierSpec} (names : (tiers.map TierSpec.name).Nodup) :
    Tended (init tiers : TieredCacheStore α) := by
  refine ⟨⟨fun _ _ found => (not_mem_init found).elim, fun _ _ found => (not_mem_init found).elim,
    fun _ _ found => (not_mem_init found).elim, fun _ _ _ _ found => (not_mem_init found).elim⟩, ?_,
      fun t _ => .inr rfl⟩
  show Named (if tiers = [] then defaultTiers else tiers)
  split
  · exact ⟨by simp [defaultTiers], by decide⟩
  · rename_i given
    exact ⟨given, names⟩

theorem Tended.of_fields (tended : Tended s) (entries : s'.entries = s.entries)
    (tiers : s'.tiers = s.tiers)
    (clock : s'.clock = s.clock) (used : s'.used = s.used) : Tended s' := by
  refine ⟨tended.shelved.of_fields entries tiers clock, tiers ▸ tended.named, ?_⟩
  rw [tiers]
  intro t member
  have same : s'.usedOf t.name = s.usedOf t.name ∧ s'.countIn t.name = s.countIn t.name := by
    simp only [usedOf, countIn, used, entries, and_self]
  rw [Relieved, same.1, same.2]
  exact tended.relieved t member

theorem Tended.shedding (tended : Tended s) {s₁ : TieredCacheStore α} (tiers : s₁.tiers = s.tiers)
    (shedding : Shedding s₁ s')
    (relieved : ∀ t ∈ s₁.tiers, Relieved s' t) : Tended s' := by
  have same := shedding.tiers
  exact ⟨shedding.shelved, (same.trans tiers).symm ▸ tended.named,
    fun t member => relieved t (same ▸ member)⟩

theorem Tended.evict (tended : Tended s) (handle : String) : Tended (s.evict handle) := by
  refine ⟨tended.shelved.evict handle, (tiers_evict s handle).symm ▸ tended.named, ?_⟩
  rw [tiers_evict]
  intro t member
  cases present : s.entries.get? handle with
  | none =>
    simp only [TieredCacheStore.evict, present]
    exact tended.relieved t member
  | some e =>
    have removed :=
      Dict.sumBy_erase_present (fun f : Entry α => if f.tier = t.name then 1 else 0) present
    have fewer : (s.evict handle).countIn t.name ≤ s.countIn t.name := by
      rw [countIn, countIn, entries_evict]
      omega
    have less : (s.evict handle).usedOf t.name ≤ s.usedOf t.name := by
      simp only [TieredCacheStore.evict, present]
      rw [usedOf_addUsed]
      show s.usedOf t.name + _ ≤ _
      split <;> omega
    cases tended.relieved t member with
    | inl within => exact .inl (less.trans within)
    | inr empty => exact .inr (Nat.le_zero.1 (empty ▸ fewer))

/-- Touching a resident entry and promoting it keeps the entry: its old tier has room for it. -/
theorem Tended.use (tended : Tended s) {e : Entry α} (present : s.entries.get? e.handle = some e) :
    ∃ st, (∀ bound, s.entries.size ≤ bound → (s.touch e).1.promote bound (s.touch e).2 = .ok st) ∧
      Tended st.1 ∧
      ∃ f, st.1.entries.get? e.handle = some f := by
  have kept : (s.touch e).1.entries.get? (s.touch e).2.handle = some (s.touch e).2 :=
    Dict.get?_set_self ..
  have size : (s.touch e).1.entries.size = s.entries.size := Dict.size_set_present _ present
  have touched := tended.shelved.touch present
  by_cases atTop : e.tier = s.top
  · refine ⟨((s.touch e).1, []), fun bound _ => if_neg (not_not.2 atTop),
      ⟨touched, tended.named, fun t member => ?_⟩,
      (s.touch e).2, kept⟩
    have count :=
      Dict.sumBy_set_present (s.touch e).2
        (fun f : Entry α => if f.tier = t.name then 1 else 0) present
    have same : (s.touch e).1.countIn t.name = s.countIn t.name := Nat.add_right_cancel count
    rw [Relieved, same]
    exact tended.relieved t member
  · obtain ⟨t, member, tier⟩ := List.mem_map.1 (tended.shelved.housed _ e present)
    have counted := nbytes_le_used present
    -- the old tier is not empty, so it was within its capacity
    have within : s.usedOf t.name ≤ t.capacityBytes := by
      cases tended.relieved t member with
      | inl within => exact within
      | inr empty =>
        have some_ := countIn_pos present
        rw [← tier, empty] at some_
        exact absurd some_ (Nat.lt_irrefl 0)
    let s₁ := { (s.touch e).1.move (s.touch e).2 s.top with
      promotions := ((s.touch e).1.move (s.touch e).2 s.top).promotions + 1 }
    have tiers : s₁.tiers = s.tiers := tiers_move ..
    have entries :
      s₁.entries = (s.touch e).1.entries.set e.handle { (s.touch e).2 with tier := s.top } :=
      entries_move ..
    have shelved : Shelved s₁ :=
      (touched.move kept (top_housed tended.named.inhabited)).of_fields rfl rfl rfl
    have newest : Newest s₁ e.handle { (s.touch e).2 with tier := s.top } := by
      refine ⟨by rw [entries, Dict.get?_set_self], fun h f found other => ?_⟩
      have before : (s.touch e).1.entries.get? h = some f := by
        rwa [entries, Dict.get?_set_ne _ _ (Ne.symm other)] at found
      have old : s.entries.get? h = some f :=
        (Dict.get?_set_ne _ _ (Ne.symm other)).symm.trans before
      exact Nat.lt_succ_of_le (tended.shelved.stamped h f old)
    have drift : s₁.drift t.name = s.drift t.name :=
      (drift_move t.name kept s.top).trans (drift_touch t.name present)
    have room : e.nbytes + s₁.drift t.name ≤ t.capacityBytes := by
      rw [drift]
      rw [← tier] at counted
      omega
    obtain ⟨st, ends, shedding, relieved, f, found⟩ :=
      enforceCapacity_keeps shelved (tiers.symm ▸ tended.named) newest
      (show s.top = s₁.top by rw [top, top, tiers]) (tiers.symm ▸ member) room
    refine ⟨st, fun bound enough => ?_, tended.shedding tiers shedding relieved, f, found⟩
    have size₁ : s₁.entries.size = (s.touch e).1.entries.size :=
      entries ▸ Dict.size_set_present _ kept
    refine (if_pos atTop).trans (ends bound ?_)
    rw [size₁, size]
    exact enough

section Put

variable (nbytes : α → Nat) (s)

/-- The bytes counted for a tier that are not those of the entries under other handles. -/
def unaccounted (handle tier : String) : Int :=
  s.usedOf tier - (s.entries.erase handle).sumBy fun e => if e.tier = tier then e.nbytes else 0

variable (tenant key : String) (cache : α)

/-- The put can keep its entry, or has nobody to push out: the pair is in use, some tier has room
    for the entry alone, or the store is empty. -/
def KeptOrAlone : Prop :=
  (s.index.get? (tenant, key)).isSome ∨ s.entries.size = 0 ∨
    ∃ t ∈ s.tiers, nbytes cache + s.unaccounted (renderHandle tenant key) t.name ≤ t.capacityBytes

/-- If its entry is not resident when the put returns, the entries resident before still are. -/
def SparesOthers : Prop :=
  ∀ handle s' drops, s.put nbytes (s.entries.size + 1) tenant key cache = .ok (handle, s', drops) →
    s'.entries.get? handle = none → ∀ h e, s.entries.get? h = some e →
      ∃ e', s'.entries.get? h = some e' ∧ SameCache e e'

variable {nbytes s tenant key cache}

theorem drift_insert (t : String) :
    (s.insert nbytes tenant key cache).drift t = s.unaccounted (renderHandle tenant key) t := by
  have used :
    (s.insert nbytes tenant key cache).usedOf t =
    s.usedOf t + if s.top = t then (nbytes cache : Int) else 0 :=
    (usedOf_recordPeak _ _ t).trans (usedOf_addUsed _ _ t _)
  rw [drift, unaccounted, used, bytesIn, entries_insert]
  cases present : s.entries.get? (renderHandle tenant key) with
  | none =>
    rw [Dict.sumBy_set_new _ _ present, Dict.erase_absent present]
    split <;> push_cast <;> omega
  | some old =>
    have filed := Dict.sumBy_set_present
      { handle := renderHandle tenant key, key, tenant, cache, nbytes := nbytes cache, tier := s.top, lastUsed := s.clock + 1 }
      (fun f : Entry α => if f.tier = t then f.nbytes else 0) present
    have removed :=
      Dict.sumBy_erase_present (fun f : Entry α => if f.tier = t then f.nbytes else 0) present
    by_cases atTop : s.top = t <;> by_cases inTier : old.tier = t <;>
      simp only [atTop, inTier, if_true, if_false] at filed removed ⊢ <;> omega

variable (nbytes tenant key cache) in
/-- The new entry of a pair not in use, before the capacities are enforced. -/
theorem Tended.insert (tended : Tended s) :
    Shelved (s.insert nbytes tenant key cache) ∧ (s.insert nbytes tenant key cache).entries.size ≤
      s.entries.size + 1 ∧
      Newest (s.insert nbytes tenant key cache) (renderHandle tenant key)
        { handle := renderHandle tenant key, key, tenant, cache, nbytes := nbytes cache, tier := s.top,
          lastUsed := s.clock + 1 } := by
  refine ⟨tended.shelved.insert tended.named.inhabited nbytes tenant key cache, ?size,
    ⟨by rw [entries_insert, Dict.get?_set_self], fun h f found other => ?_⟩⟩
  case size =>
    rw [entries_insert]
    cases present : s.entries.get? (renderHandle tenant key) with
    | none => exact (Dict.size_set_new _ present).le
    | some old =>
      rw [Dict.size_set_present _ present]
      exact Nat.le_succ _
  · rw [entries_insert, Dict.get?_set_ne _ _ (Ne.symm other)] at found
    exact Nat.lt_succ_of_le (tended.shelved.stamped h f found)

variable (nbytes cache) in
/-- A put of a new pair keeps its entry, or leaves an empty store. -/
theorem Tended.put_new (tended : Tended s) (unindexed : s.index.get? (tenant, key) = none) :
    ∃ st, s.put nbytes (s.entries.size + 1) tenant key cache = .ok (renderHandle tenant key, st) ∧
      Tended st.1 ∧
      ((∃ t ∈ s.tiers, nbytes cache + s.unaccounted (renderHandle tenant key) t.name ≤
        t.capacityBytes) →
        ∃ f, st.1.entries.get? (renderHandle tenant key) = some f) ∧
      ((∀ t ∈ s.tiers, t.capacityBytes < nbytes cache + s.unaccounted
        (renderHandle tenant key) t.name) →
        ∀ h f, st.1.entries.get? h ≠ some f) := by
  obtain ⟨shelved, size, newest⟩ := tended.insert nbytes tenant key cache
  have tiers : (s.insert nbytes tenant key cache).tiers = s.tiers := tiers_insert ..
  have atTop : s.top = (s.insert nbytes tenant key cache).top := by rw [top, top, tiers]
  by_cases fits : ∃ t ∈ s.tiers, nbytes cache + s.unaccounted (renderHandle tenant key) t.name ≤
    t.capacityBytes
  · obtain ⟨t, member, room⟩ := fits
    obtain ⟨st, ends, shedding, relieved, found⟩ :=
      enforceCapacity_keeps shelved (tiers.symm ▸ tended.named) newest atTop
      (tiers.symm ▸ member) (by rw [drift_insert]; exact room)
    refine ⟨st,
      by rw [put, unindexed]; simp only [ends _ size,
      Except.map], tended.shedding tiers shedding relieved,
      fun _ => found, fun none_ => ?_⟩
    exact absurd room (not_le.2 (none_ t member))
  · push Not at fits
    obtain ⟨st, ends, shedding, relieved, empty⟩ :=
      enforceCapacity_empties shelved (tiers.symm ▸ tended.named) newest atTop
      fun t member => by
        rw [drift_insert]
        exact fits t (tiers ▸ member)
    refine ⟨st,
      by rw [put, unindexed]; simp only [ends _ size,
      Except.map], tended.shedding tiers shedding relieved,
      fun some_ => ?_, fun _ => empty⟩
    obtain ⟨t, member, room⟩ := some_
    exact absurd room (not_le.2 (fits t member))

theorem Tended.spares_iff (tended : Tended s) :
    s.SparesOthers nbytes tenant key cache ↔ s.KeptOrAlone nbytes tenant key cache := by
  cases indexed : s.index.get? (tenant, key) with
  | some handle =>
    refine iff_of_true (fun returned s' drops done gone => ?_) (.inl (by rw [indexed]; rfl))
    -- the pair's entry is only refreshed, and stays
    cases present : s.entries.get? handle with
    | none => simp [put, indexed, present] at done
    | some e =>
      obtain rfl := tended.shelved.named handle e present
      obtain ⟨st, ends, -, f, found⟩ := tended.use present
      simp only [put, indexed, present, ends _ (Nat.le_succ _), Except.map, Except.ok.injEq,
        Prod.mk.injEq] at done
      obtain ⟨rfl, rfl⟩ := done
      rw [found] at gone
      cases gone
  | none =>
    obtain ⟨st, ends, -, keeps, empties⟩ := tended.put_new nbytes cache indexed
    constructor
    · intro spares
      by_contra not
      simp only [KeptOrAlone, indexed, Option.isSome_none, Bool.false_eq_true, false_or, not_or,
        not_exists, not_and, not_le]
        at not
      obtain ⟨inhabited, fits⟩ := not
      have empty := empties fits
      -- an entry that was there is gone, as all are
      obtain ⟨pair, rest, list⟩ :=
        List.exists_cons_of_ne_nil fun nil => inhabited (congrArg List.length nil)
      have there : s.entries.get? pair.1 = some pair.2 :=
        Dict.mem_entries_iff.1 (list ▸ List.mem_cons_self)
      have gone : st.1.entries.get? (renderHandle tenant key) = none :=
        Option.eq_none_iff_forall_ne_some.2 fun f => empty _ f
      obtain ⟨e', left, -⟩ := spares _ _ _ ends gone pair.1 pair.2 there
      exact empty _ e' left
    · intro kept returned s' drops done gone
      obtain ⟨rfl, same⟩ := Prod.mk.inj (Except.ok.inj (ends.symm.trans done))
      obtain rfl : st.1 = s' := congrArg Prod.fst same
      rcases kept with inUse | nobody | fits
      · rw [indexed] at inUse
        cases inUse
      · intro h e found
        have member := Dict.mem_entries_iff.2 found
        rw [List.eq_nil_of_length_eq_zero nobody] at member
        cases member
      · obtain ⟨f, found⟩ := keeps fits
        rw [found] at gone
        cases gone

end Put

/-! ## Runs -/

variable {nbytes : α → Nat}

theorem Tended.get (tended : Tended s) (handle : String) :
    ∃ r, s.get (s.entries.size + 1) handle = .ok r ∧ Tended r.2.1 := by
  cases present : s.entries.get? handle with
  | none =>
    exact ⟨(none, { s with gets := s.gets + 1, getMisses := s.getMisses + 1 }, []),
      by simp only [TieredCacheStore.get, present],
      tended.of_fields rfl rfl rfl rfl⟩
  | some e =>
    obtain rfl := tended.shelved.named handle e present
    have counted : Tended { s with
        gets := s.gets + 1
        getHits := s.getHits + 1
        modeledAccessSeconds := s.modeledAccessSeconds + s.accessCost e.tier e.nbytes } :=
          tended.of_fields rfl rfl rfl rfl
    obtain ⟨st, ends, kept, -⟩ := counted.use present
    refine ⟨(some e.cache, st), ?_, kept⟩
    simp only [TieredCacheStore.get, present]
    exact congrArg (Except.map _) (ends (s.entries.size + 1) (Nat.le_succ _))

variable (nbytes) in
/-- A put returns unless the pair's handle dangles. -/
theorem Tended.put (tended : Tended s) {tenant key : String} (cache : α)
    (backed : ∀ h, s.index.get? (tenant, key) = some h → ∃ e, s.entries.get? h = some e) :
    ∃ r, s.put nbytes (s.entries.size + 1) tenant key cache = .ok r ∧ Tended r.2.1 := by
  cases indexed : s.index.get? (tenant, key) with
  | none =>
    obtain ⟨st, ends, kept, -⟩ := tended.put_new nbytes cache indexed
    exact ⟨_, ends, kept⟩
  | some handle =>
    obtain ⟨e, present⟩ := backed handle indexed
    obtain rfl := tended.shelved.named handle e present
    obtain ⟨st, ends, kept, -⟩ := tended.use present
    exact ⟨(e.handle, st),
      by simp only [TieredCacheStore.put, indexed, present, ends _ (Nat.le_succ _),
      Except.map], kept⟩

theorem Tended.next (tended : Tended s) (op : Op α) : Tended ((tieredStore nbytes).next s op) := by
  simp only [Machine.next, tieredStore]
  split
  case h_2 => exact tended
  case h_1 outcome s' done =>
    cases op with
    | has tenant key =>
      obtain ⟨-, rfl⟩ := Prod.mk.inj (Except.ok.inj done)
      simp only [has]
      split <;> exact tended.of_fields rfl rfl rfl rfl
    | evict handle =>
      obtain ⟨-, rfl⟩ := Prod.mk.inj (Except.ok.inj done)
      exact tended.evict handle
    | get handle =>
      obtain ⟨r, ends, kept⟩ := tended.get handle
      simp only [call, ends, Except.map, Except.ok.injEq, Prod.mk.injEq] at done
      obtain ⟨-, rfl⟩ := done
      exact kept
    | put tenant key cache =>
      obtain ⟨r, returned, result⟩ := Fallible.ok_of_map done
      obtain ⟨-, rfl⟩ := Prod.mk.inj result
      -- with a dangling handle it would not have returned
      have backed : ∀ h, s.index.get? (tenant, key) = some h → ∃ e, s.entries.get? h = some e := by
        intro h indexed
        cases present : s.entries.get? h with
        | some e => exact ⟨e, rfl⟩
        | none => simp [TieredCacheStore.put, indexed, present] at returned
      obtain ⟨r', ends, kept⟩ := tended.put nbytes cache backed
      obtain rfl := Except.ok.inj (ends.symm.trans returned)
      exact kept

end TieredCacheStore

open TieredCacheStore

variable {α : Type} {nbytes : α → Nat}

/-- A condition on the puts among the calls. -/
def onPuts (P : TieredCacheStore α → String → String → α → Prop) (s : TieredCacheStore α) : Op α →
    Prop
  | .put tenant key cache => P s tenant key cache
  | _ => True

/-- In any tiers with distinct names a put spares the others exactly when it keeps its entry or they
    are none, in every state reached and so throughout a run. -/
theorem puts_spare_others_iff (tiers : List TierSpec) (names : (tiers.map TierSpec.name).Nodup)
    (ops : List (Op α)) :
    (∀ tenant key cache,
      ((tieredStore nbytes).exec (init tiers) ops).SparesOthers nbytes tenant key cache ↔
      ((tieredStore nbytes).exec (init tiers) ops).KeptOrAlone nbytes tenant key cache) ∧
    ((tieredStore nbytes).Meets (onPuts fun s => s.SparesOthers nbytes) (init tiers) ops ↔
      (tieredStore nbytes).Meets (onPuts fun s => s.KeptOrAlone nbytes) (init tiers) ops) := by
  have start : Tended (init tiers : TieredCacheStore α) := tended_init names
  constructor
  · intro tenant key cache
    have tended : Tended ((tieredStore nbytes).exec (init tiers) ops) :=
      Machine.invariant_exec (fun s op (tended : Tended s) => tended.next op) start ops
    exact tended.spares_iff
  · refine Machine.Meets.congr (fun s op (tended : Tended s) (_ : True) => tended.next op)
      (fun s op tended _ => ?_) start
      (Machine.meets_of_forall (fun _ _ => trivial) _ ops)
    cases op with
    | put tenant key cache => exact tended.spares_iff
    | get | has | evict => exact Iff.rfl

/-- A cache larger than any tier pushes out the one that fits, and is dropped itself. -/
theorem oversize_put_empties :
    ¬ ((tieredStore id).exec (init twoTiers) [.put "t" "a" 6]).SparesOthers id "t" "b" 11 := by
  intro spares
  obtain ⟨e', kept, -⟩ := spares "t::b" _ _ rfl rfl "t::a" _ rfl
  cases kept

theorem puts_spare_others_iff_oversize :
    ((tieredStore id).exec (init twoTiers) [.put "t" "a" 6]).SparesOthers id "t" "b" 11 ↔
      ((tieredStore id).exec (init twoTiers) [.put "t" "a" 6]).KeptOrAlone id "t" "b" 11 :=
  (puts_spare_others_iff twoTiers (by decide) [.put "t" "a" 6]).1 "t" "b" 11

end Dexa.Memory
