import Dexa.Memory.StoreCapacity

/-! # What one call does

`Called` sums a call up: the store stays sound, every entry it leaves was there before or
is the one a `put` inserts, exactly the entry the call used has a new time stamp, and the
entries are accounted for.  A call either only counts, or removes an entry, or files one
at the top (`Filing`) and enforces the capacities; the last is the common part of `put` and
`get`.
-/

namespace Dexa.Memory

open Dexa.Lib

namespace TieredCacheStore

variable {α : Type} (nbytes : α → Nat)

structure Sound (s : TieredCacheStore α) : Prop where
  hierarchy : Hierarchy s.tiers
  books : Books nbytes s
  ordered : Ordered s
  fits : ∀ t ∈ s.tiers, s.usedOf t.name ≤ t.capacityBytes

/-- The store holds an entry of the pair. -/
def resident (s : TieredCacheStore α) (tenant key : String) : Bool :=
  s.entries.values.any fun e => e.tenant == tenant && e.key == key

/-- The entries a call inserts. -/
def inserted (s : TieredCacheStore α) : Op α → Nat
  | .put tenant key _ => if s.resident tenant key then 0 else 1
  | _ => 0

/-- The entries a call removes by name. -/
def evicted (s : TieredCacheStore α) : Op α → Nat
  | .evict handle => if s.entries.contains handle then 1 else 0
  | _ => 0

end TieredCacheStore

/-- The handle a call uses: that of the pair put, or one successfully got. -/
def usedBy {α : Type} : Op α → Reply α → Option String
  | .put tenant key _, _ => some (renderHandle tenant key)
  | .get handle, .cache (some _) => some handle
  | _, _ => none

namespace TieredCacheStore

variable {α : Type} (nbytes : α → Nat)

/-- A pair put has a handle of its own among the resident ones. -/
def Admissible (s : TieredCacheStore α) (op : Op α) : Prop :=
  ∀ tenant key cache, op = .put tenant key cache → ∀ h e, s.entries.get? h = some e →
    renderHandle e.tenant e.key = renderHandle tenant key → (e.tenant, e.key) = (tenant, key)

/-- Where an entry comes from. -/
def Origin (s : TieredCacheStore α) (op : Op α) (e : Entry α) : Prop :=
  (∃ e₀, s.entries.get? e.handle = some e₀ ∧ SameCache e₀ e) ∨
    s.resident e.tenant e.key = false ∧ op = .put e.tenant e.key e.cache

/-- An entry's time stamp: new if the entry was used, and its old one otherwise. -/
def Stamped (s : TieredCacheStore α) (used : Option String) (e : Entry α) : Prop :=
  used = some e.handle ∧ e.lastUsed = s.clock + 1 ∨
    used ≠ some e.handle ∧ ∃ e₀, s.entries.get? e.handle = some e₀ ∧ e₀.lastUsed = e.lastUsed

/-- What a call makes of the store `s`. -/
structure Called (s : TieredCacheStore α) (op : Op α) (outcome : Outcome α)
    (s' : TieredCacheStore α) : Prop where
  sound : Sound nbytes s'
  tiers : s'.tiers = s.tiers
  clock : s'.clock = s.clock + if (usedBy op outcome.reply).isSome then 1 else 0
  origin : ∀ h e, s'.entries.get? h = some e → Origin s op e
  stamped : ∀ h e, s'.entries.get? h = some e → Stamped s (usedBy op outcome.reply) e
  balance : s'.entries.size + s'.evictionsDropped + evicted s op = s.entries.size +
    s.evictionsDropped + inserted s op
  dropped : s'.evictionsDropped = s.evictionsDropped + outcome.drops.length
  drops : ∀ d ∈ outcome.drops, d.victim ∈ d.held ∧
    (∀ e ∈ d.held, Stamped s (usedBy op outcome.reply) e) ∧
    ∀ e ∈ d.held, e.handle ≠ d.victim.handle → d.victim.lastUsed < e.lastUsed

/-- The store `s₁` is `s` with the used entry filed anew, or added, at the top. -/
structure Filing (s : TieredCacheStore α) (op : Op α) (used : String) (s₁ : TieredCacheStore α) :
    Prop where
  books : Books nbytes s₁
  ordered : Ordered s₁
  tiers : s₁.tiers = s.tiers
  clock : s₁.clock = s.clock + 1
  dropped : s₁.evictionsDropped = s.evictionsDropped
  size : s₁.entries.size = s.entries.size + inserted s op
  origin : ∀ h e, s₁.entries.get? h = some e → Origin s op e
  stamped : ∀ h e, s₁.entries.get? h = some e → Stamped s (some used) e

/-- The stores differ in their statistics only. -/
structure Recounted (s s' : TieredCacheStore α) : Prop where
  entries : s'.entries = s.entries
  index : s'.index = s.index
  tiers : s'.tiers = s.tiers
  clock : s'.clock = s.clock
  used : s'.used = s.used
  peak : s'.peak = s.peak
  dropped : s'.evictionsDropped = s.evictionsDropped

variable {nbytes}

theorem Books.index_eq {s : TieredCacheStore α} (books : Books nbytes s) {tenant key h : String}
    (indexed : s.index.get? (tenant, key) = some h) : h = renderHandle tenant key := by
  obtain ⟨e, found, pair⟩ := books.backed _ h indexed
  obtain ⟨rfl, rfl⟩ := Prod.mk.inj pair
  exact (books.filed h e found).rendered.symm

theorem resident_iff {s : TieredCacheStore α} (books : Books nbytes s) {tenant key : String} :
    s.resident tenant key = true ↔ s.index.get? (tenant, key) = some (renderHandle tenant key) := by
  simp only [resident, List.any_eq_true, Dict.mem_values_iff, Bool.and_eq_true, beq_iff_eq]
  constructor
  · rintro ⟨e, ⟨h, found⟩, rfl, rfl⟩
    have file := books.filed h e found
    rw [file.indexed, file.rendered]
  · intro indexed
    obtain ⟨e, found, pair⟩ := books.backed _ _ indexed
    exact ⟨e, ⟨_, found⟩, Prod.mk.inj pair⟩

theorem Books.not_resident {s : TieredCacheStore α} (books : Books nbytes s) {tenant key : String}
    (unindexed : s.index.get? (tenant, key) = none) : s.resident tenant key = false := by
  cases there : s.resident tenant key with
  | false => rfl
  | true =>
    rw [(resident_iff books).1 there] at unindexed
    cases unindexed

/-- A new pair's handle is not in use. -/
theorem Admissible.absent {s : TieredCacheStore α} (books : Books nbytes s) {tenant key : String}
    {cache : α}
    (admissible : Admissible s (.put tenant key cache))
    (unindexed : s.index.get? (tenant, key) = none) :
    s.entries.get? (renderHandle tenant key) = none := by
  cases present : s.entries.get? (renderHandle tenant key) with
  | none => rfl
  | some e =>
    have file := books.filed _ e present
    rw [← admissible tenant key cache rfl _ e present file.rendered, file.indexed] at unindexed
    cases unindexed

theorem has_fst (s : TieredCacheStore α) (tenant key : String) :
    (s.has tenant key).1 = s.index.get? (tenant, key) := by
  simp only [has]
  split <;> simp_all

theorem recounted_has (s : TieredCacheStore α) (tenant key : String) :
    Recounted s (s.has tenant key).2 := by
  simp only [has]
  split <;> exact ⟨rfl, rfl, rfl, rfl, rfl, rfl, rfl⟩

theorem Recounted.sound {s s' : TieredCacheStore α} (same : Recounted s s')
    (sound : Sound nbytes s) : Sound nbytes s' := by
  refine ⟨same.tiers ▸ sound.hierarchy,
    sound.books.of_fields same.entries same.index same.tiers same.clock same.used same.peak, ?_, ?_⟩
  · rw [Ordered, same.entries, same.tiers]
    exact sound.ordered
  · simp only [usedOf, same.tiers, same.used]
    exact sound.fits

theorem Recounted.called {s s' : TieredCacheStore α} (same : Recounted s s')
    (sound : Sound nbytes s) {op : Op α}
    {reply : Reply α} (unused : usedBy op reply = none) (nothing : inserted s op = evicted s op) :
    Called nbytes s op ⟨reply, []⟩ s' := by
  refine ⟨same.sound sound, same.tiers,
    by simp [unused, same.clock], fun h e found => ?_, fun h e found => ?_, ?_,
    same.dropped, nofun⟩
  · rw [same.entries] at found
    exact .inl ⟨e, (sound.books.filed h e found).named ▸ found, ⟨rfl, rfl, rfl, rfl, rfl⟩⟩
  · rw [same.entries] at found
    exact .inr ⟨by simp [unused], e, (sound.books.filed h e found).named ▸ found, rfl⟩
  · rw [same.entries, same.dropped, nothing]

/-! ## Calls that file an entry at the top -/

theorem Demoted.origin {s : TieredCacheStore α} {op : Op α} {e e' : Entry α}
    (demoted : Demoted e e')
    (origin : Origin s op e) : Origin s op e' := by
  unfold Origin
  rw [demoted.handle, demoted.tenant, demoted.key, demoted.cache]
  cases origin with
  | inl old =>
    obtain ⟨e₀, found, same⟩ := old
    exact .inl ⟨e₀, found, demoted.handle.trans same.handle, demoted.key.trans same.key,
      demoted.tenant.trans same.tenant, demoted.cache.trans same.cache,
        demoted.nbytes.trans same.nbytes⟩
  | inr new => exact .inr new

theorem Demoted.stamped {s : TieredCacheStore α} {used : Option String} {e e' : Entry α}
    (demoted : Demoted e e')
    (stamped : Stamped s used e) : Stamped s used e' := by
  unfold Stamped
  rw [demoted.handle, demoted.lastUsed]
  exact stamped

/-- Filing an entry and enforcing the capacities. -/
theorem Filing.called {s s₁ : TieredCacheStore α} {op : Op α} {used : String} {reply : Reply α}
    (filing : Filing nbytes s op used s₁) (hierarchy : Hierarchy s.tiers)
    (uses : usedBy op reply = some used)
    (nothing : evicted s op = 0) {st : TieredCacheStore α × List (Drop α)}
    (cascade : Cascade nbytes s₁ st)
    (fits : ∀ t ∈ s₁.tiers, st.1.usedOf t.name ≤ t.capacityBytes) :
      Called nbytes s op ⟨reply, st.2⟩ st.1 := by
  have tiers := cascade.tiers.trans filing.tiers
  refine ⟨⟨tiers ▸ hierarchy, cascade.books, cascade.ordered, cascade.tiers ▸ fits⟩, tiers, ?clock,
    ?origin, ?stamped,
    ?balance, ?dropped, ?drops⟩
  case clock => simp [uses, cascade.clock, filing.clock]
  case origin =>
    intro h e found
    obtain ⟨e₀, before, demoted⟩ := cascade.entries h e found
    exact demoted.origin (filing.origin h e₀ before)
  case stamped =>
    intro h e found
    obtain ⟨e₀, before, demoted⟩ := cascade.entries h e found
    exact uses ▸ demoted.stamped (filing.stamped h e₀ before)
  case balance =>
    have := cascade.conserved
    have := cascade.dropped
    have := filing.dropped
    have := filing.size
    omega
  case dropped => rw [cascade.dropped, filing.dropped]
  case drops =>
    intro d member
    have least := cascade.drops d member
    refine ⟨least.held, fun e held => ?_, least.least⟩
    obtain ⟨e₀, before, demoted⟩ := least.entries e held
    exact uses ▸ demoted.stamped (filing.stamped _ e₀ before)

theorem not_faster_top {s : TieredCacheStore α} (hierarchy : Hierarchy s.tiers) (a : String) :
    ¬ Faster s.tiers a s.top := by
  rintro ⟨i, j, before, left, right⟩
  obtain ⟨first, rest, tiers⟩ := List.exists_cons_of_ne_nil hierarchy.inhabited
  have head : (s.tiers.map TierSpec.name)[0]? = some s.top := by simp [top, tiers]
  have := position_inj hierarchy.names head right
  omega

/-- An entry filed in the top tier with a new time stamp. -/
theorem Sound.filing {s s₁ : TieredCacheStore α} {op : Op α} {e : Entry α} (sound : Sound nbytes s)
    (files : ∀ h, s₁.entries.get? h = if e.handle = h then some e else s.entries.get? h)
    (books : Books nbytes s₁)
    (tiers : s₁.tiers = s.tiers) (clock : s₁.clock = s.clock + 1)
    (dropped : s₁.evictionsDropped = s.evictionsDropped)
    (size : s₁.entries.size = s.entries.size + inserted s op) (top : e.tier = s.top)
    (stamp : e.lastUsed = s.clock + 1)
    (origin : Origin s op e) : Filing nbytes s op e.handle s₁ := by
  refine ⟨books, ?ordered, tiers, clock, dropped, size, ?origin, ?stamped⟩
  case ordered =>
    intro h f h' f' found found' faster
    rw [files] at found found'
    rw [tiers] at faster
    split at found <;> split at found'
    · obtain rfl := Option.some.inj found
      obtain rfl := Option.some.inj found'
      exact absurd (top ▸ faster) (not_faster_top sound.hierarchy _)
    · obtain rfl := Option.some.inj found
      have := (sound.books.filed h' f' found').stamped
      omega
    · obtain rfl := Option.some.inj found'
      exact absurd (top ▸ faster) (not_faster_top sound.hierarchy _)
    · exact sound.ordered h f h' f' found found' faster
  case origin =>
    intro h f found
    rw [files] at found
    split at found
    · obtain rfl := Option.some.inj found
      exact origin
    · have named := (sound.books.filed h f found).named
      exact .inl ⟨f, named ▸ found, ⟨rfl, rfl, rfl, rfl, rfl⟩⟩
  case stamped =>
    intro h f found
    rw [files] at found
    split at found
    · obtain rfl := Option.some.inj found
      exact .inl ⟨rfl, stamp⟩
    · rename_i other
      have named := (sound.books.filed h f found).named
      exact .inr ⟨fun same => other ((Option.some.inj same).trans named), f, named ▸ found, rfl⟩

theorem filing_insert {s : TieredCacheStore α} (sound : Sound nbytes s) {tenant key : String}
    {cache : α}
    (admissible : Admissible s (.put tenant key cache))
    (unindexed : s.index.get? (tenant, key) = none) :
    Filing nbytes s (.put tenant key cache) (renderHandle tenant key)
      (s.insert nbytes tenant key cache) := by
  have absent := admissible.absent sound.books unindexed
  have new := sound.books.not_resident unindexed
  refine sound.filing
    (e := { handle := renderHandle tenant key, key, tenant, cache, nbytes := nbytes cache, tier := s.top,
                              lastUsed :=
                                s.clock + 1 }) (fun h => by rw [entries_insert, Dict.get?_set])
    (books_insert sound.books sound.hierarchy.inhabited unindexed absent cache) (tiers_insert ..)
    (clock_insert ..)
    (evictionsDropped_insert ..) ?_ rfl rfl (.inr ⟨new, rfl⟩)
  rw [entries_insert, Dict.size_set_new _ absent]
  simp [inserted, new]

/-- Touching a resident entry and promoting it: what `put` and `get` do with one. -/
theorem use_spec {s : TieredCacheStore α} (sound : Sound nbytes s) {e : Entry α}
    (present : s.entries.get? e.handle = some e) {op : Op α} (nothing : inserted s op = 0) :
    ∃ s₁ st,
      (∀ bound, s.entries.size ≤ bound → (s.touch e).1.promote bound (s.touch e).2 = .ok st) ∧
      Filing nbytes s op e.handle s₁ ∧ Cascade nbytes s₁ st ∧ ∀ t ∈ s₁.tiers,
        st.1.usedOf t.name ≤ t.capacityBytes := by
  have touched := books_touch sound.books present
  have size : (s.touch e).1.entries.size = s.entries.size := Dict.size_set_present _ present
  have kept : (s.touch e).1.entries.get? (s.touch e).2.handle = some (s.touch e).2 :=
    Dict.get?_set_self ..
  have origin : ∀ tier, Origin s op { e with tier, lastUsed := s.clock + 1 } :=
    fun tier => .inl ⟨e, present, ⟨rfl, rfl, rfl, rfl, rfl⟩⟩
  by_cases atTop : e.tier = s.top
  · -- the entry is at the top already, and no counter changes
    have filing : Filing nbytes s op e.handle (s.touch e).1 :=
      sound.filing (e := (s.touch e).2) (fun h => Dict.get?_set ..) touched rfl rfl rfl
        (by rw [size, nothing]; rfl) atTop rfl
        (origin e.tier)
    refine ⟨(s.touch e).1, ((s.touch e).1, []), fun bound _ => if_neg (not_not.2 atTop), filing,
      .refl touched filing.ordered, sound.fits⟩
  · have moved := books_move touched kept (top_housed sound.hierarchy.inhabited)
    have filing : Filing nbytes s op e.handle
        { (s.touch e).1.move (s.touch e).2 s.top with
          promotions := ((s.touch e).1.move (s.touch e).2 s.top).promotions + 1 } := by
      refine sound.filing (e := { (s.touch e).2 with tier := s.top }) (fun h => ?_)
        (moved.of_fields rfl rfl rfl rfl rfl rfl) (tiers_move ..) (clock_move ..)
        (evictionsDropped_move ..) ?_ rfl rfl
        (origin s.top)
      · show ((s.touch e).1.move (s.touch e).2 s.top).entries.get? h = _
        have before : (s.touch e).1.entries.get? h = if e.handle = h then some (s.touch e).2
          else s.entries.get? h :=
          Dict.get?_set ..
        rw [entries_move, Dict.get?_set, before]
        split <;> simp_all [touch]
      · show ((s.touch e).1.move (s.touch e).2 s.top).entries.size = _
        rw [entries_move, Dict.size_set_present _ kept, size, nothing]
        rfl
    obtain ⟨st, ends, cascade, fits⟩ :=
      enforceCapacity_spec (filing.tiers ▸ sound.hierarchy) filing.books filing.ordered
    refine ⟨_, st, fun bound enough => ?_, filing, cascade, fits⟩
    refine (if_pos atTop).trans (ends bound ?_)
    rw [filing.size, nothing]
    exact enough

/-! ## All calls -/

theorem evict_called {s : TieredCacheStore α} (sound : Sound nbytes s) (handle : String) :
    Called nbytes s (.evict handle) ⟨.done, []⟩ (s.evict handle) := by
  have found_before : ∀ h e, (s.evict handle).entries.get? h = some e →
    s.entries.get? e.handle = some e := by
    intro h e found
    rw [entries_evict, Dict.get?_erase] at found
    split at found
    · cases found
    · exact (sound.books.filed h e found).named ▸ found
  refine ⟨⟨(tiers_evict ..).symm ▸ sound.hierarchy, books_evict sound.books handle,
    sound.ordered.evict handle, ?fits⟩,
    tiers_evict .., clock_evict ..,
      fun h e found => .inl ⟨e, found_before h e found, ⟨rfl, rfl, rfl, rfl, rfl⟩⟩,
    fun h e found => .inr ⟨fun used => (by cases used), e, found_before h e found, rfl⟩, ?balance,
      evictionsDropped_evict ..,
    fun d dropped => absurd dropped List.not_mem_nil⟩
  case fits =>
    rw [tiers_evict]
    intro t member
    refine le_trans ?_ (sound.fits t member)
    cases present : s.entries.get? handle with
    | none => simp [TieredCacheStore.evict, present]
    | some e =>
      simp only [TieredCacheStore.evict, present]
      rw [usedOf_addUsed]
      show s.usedOf t.name + _ ≤ _
      split <;> omega
  case balance =>
    cases present : s.entries.get? handle with
    | none =>
      rw [entries_evict, Dict.erase_absent present, evictionsDropped_evict]
      simp [evicted, inserted, Dict.contains, present]
    | some e =>
      have := Dict.size_erase_present present
      rw [entries_evict, evictionsDropped_evict]
      simp only [evicted, inserted, Dict.contains, present, Option.isSome_some, if_true]
      omega

theorem get_spec {s : TieredCacheStore α} (sound : Sound nbytes s) {handle : String} {e : Entry α}
    (present : s.entries.get? handle = some e) :
    ∃ st, (∀ bound, s.entries.size ≤ bound → s.get bound handle = .ok (some e.cache, st)) ∧
      Called nbytes s (.get handle) ⟨.cache (some e.cache), st.2⟩ st.1 := by
  have named := (sound.books.filed _ e present).named
  let s₀ : TieredCacheStore α := { s with
    gets := s.gets + 1
    getHits := s.getHits + 1
    modeledAccessSeconds := s.modeledAccessSeconds + s.accessCost e.tier e.nbytes }
  have sound₀ : Sound nbytes s₀ :=
    Recounted.sound (s := s) ⟨rfl, rfl, rfl, rfl, rfl, rfl, rfl⟩ sound
  obtain ⟨s₁, st, ends, filing, cascade, fits⟩ :=
    use_spec sound₀ (e := e) (named.symm ▸ present) (rfl : inserted s₀ (.get handle) = 0)
  have uses : usedBy (.get handle) (.cache (some e.cache)) = some e.handle :=
    congrArg some named.symm
  have called : Called nbytes s₀ (.get handle) ⟨.cache (some e.cache), st.2⟩ st.1 :=
    filing.called sound.hierarchy uses rfl cascade fits
  refine ⟨st, fun bound enough => ?_, ⟨called.sound, called.tiers, called.clock,
    called.origin, called.stamped, called.balance, called.dropped, called.drops⟩⟩
  simp only [get, present]
  show Except.map _ ((s₀.touch e).1.promote bound (s₀.touch e).2) = _
  rw [ends bound enough]
  rfl

/-- Every call on a sound store ends, for every large enough bound in the same way. -/
theorem call_spec {s : TieredCacheStore α} (sound : Sound nbytes s) {op : Op α}
    (admissible : Admissible s op) :
    ∃ outcome s', (∀ bound, s.entries.size < bound → call nbytes bound s op = .ok (outcome, s')) ∧
      Called nbytes s op outcome s' := by
  cases op with
  | put tenant key cache =>
    cases indexed : s.index.get? (tenant, key) with
    | none =>
      have filing := filing_insert sound admissible indexed
      obtain ⟨st, ends, cascade, fits⟩ :=
        enforceCapacity_spec (filing.tiers ▸ sound.hierarchy) filing.books filing.ordered
      refine ⟨⟨.handle (renderHandle tenant key), st.2⟩, st.1, fun bound enough => ?_,
        filing.called sound.hierarchy rfl rfl cascade fits⟩
      have size := filing.size
      have : inserted s (.put tenant key cache) ≤ 1 := by
        simp only [inserted]
        split <;> omega
      simp [call, put, indexed, ends bound (by omega), Except.map]
    | some handle =>
      obtain rfl := sound.books.index_eq indexed
      obtain ⟨e, present, _⟩ := sound.books.backed _ _ indexed
      have named := (sound.books.filed _ e present).named
      have old : inserted s (.put tenant key cache) = 0 :=
        if_pos ((resident_iff sound.books).2 indexed)
      obtain ⟨s₁, st, ends, filing, cascade, fits⟩ := use_spec sound (named.symm ▸ present) old
      refine ⟨⟨.handle (renderHandle tenant key), st.2⟩, st.1, fun bound enough => ?_,
        filing.called sound.hierarchy (congrArg some named.symm) rfl cascade fits⟩
      simp [call, put, indexed, present, ends bound (by omega), Except.map]
  | get handle =>
    cases present : s.entries.get? handle with
    | none =>
      have same : Recounted s { s with gets := s.gets + 1, getMisses := s.getMisses + 1 } :=
        ⟨rfl, rfl, rfl, rfl, rfl, rfl, rfl⟩
      refine ⟨⟨.cache none, []⟩, _, fun bound _ => ?_, same.called sound rfl rfl⟩
      simp [call, get, present, Except.map]
    | some e =>
      obtain ⟨st, ends, called⟩ := get_spec sound present
      exact ⟨_, st.1, fun bound enough => by rw [call, ends bound (by omega)]; rfl, called⟩
  | has tenant key =>
    exact ⟨⟨.found (s.has tenant key).1, []⟩, (s.has tenant key).2, fun bound _ => rfl,
      (recounted_has s tenant key).called sound rfl rfl⟩
  | evict handle => exact ⟨⟨.done, []⟩, s.evict handle, fun bound _ => rfl,
      evict_called sound handle⟩

end TieredCacheStore

end Dexa.Memory
