import Dexa.Lib.Fallible
import Dexa.Memory.StoreBooks

/-! # Tenants and keys of a tiered store

The handle of a pair joins its two parts with a separator, so two pairs can have one handle:
`renderHandle_eq_iff` says which (`Straddles`).  Callers whose pairs do not straddle are isolated:
`get` loads only what was put under the pair of the handle, in any tiers and whatever the
calls do (`Traced` is kept by every step that files an entry); and with room for everything
that is put the store answers like a plain map (`trace_ample`), in which the operations on one
pair do not show in the answers for another.
-/

namespace Dexa.Memory

open Dexa.Lib

open TieredCacheStore

/-! ## Handles of two pairs -/

/-- The tenant of `q` is that of `p` with what follows up to the separator in `q`'s own
    handle. -/
def Straddles (p q : String × String) : Prop :=
  (q.1 = p.1 ++ ":" ∧ p.2 = ":" ++ q.2) ∨ ∃ w, q.1 = p.1 ++ "::" ++ w ∧ p.2 = w ++ "::" ++ q.2

theorem toList_renderHandle (tenant key : String) :
    (renderHandle tenant key).toList = tenant.toList ++ ':' :: ':' :: key.toList := by
  simp [renderHandle]

theorem Straddles.same {p q : String × String} (straddles : Straddles p q) :
    renderHandle p.1 p.2 = renderHandle q.1 q.2 := by
  cases straddles with
  | inl colon => rw [colon.1, colon.2, ← String.toList_inj, toList_renderHandle,
      toList_renderHandle]; simp
  | inr across =>
    obtain ⟨w, tenant, key⟩ := across
    rw [tenant, key, ← String.toList_inj, toList_renderHandle, toList_renderHandle]
    simp

/-- The pairs of one tenant do not collide. -/
theorem renderHandle_key_inj {tenant key key' : String}
    (same : renderHandle tenant key = renderHandle tenant key') :
    key = key' := by
  have lists := congrArg String.toList same
  rw [toList_renderHandle, toList_renderHandle] at lists
  exact String.toList_inj.1 (by simpa using lists)

/-- A handle with a longer tenant of the same handle. -/
theorem straddles_of_append {p q : String × String} {u : List Char}
    (tenant : q.1.toList = p.1.toList ++ u)
    (rest : ':' :: ':' :: p.2.toList = u ++ ':' :: ':' :: q.2.toList) : p = q ∨ Straddles p q := by
  match u, rest with
  | [], rest =>
    simp only [List.nil_append, List.cons.injEq, true_and] at rest
    rw [List.append_nil] at tenant
    exact .inl (Prod.ext (String.toList_inj.1 tenant).symm (String.toList_inj.1 rest))
  | [c], rest =>
    simp only [List.cons_append, List.nil_append, List.cons.injEq, true_and] at rest
    obtain ⟨rfl, key⟩ := rest
    exact .inr (.inl ⟨String.toList_inj.1 (by simp [tenant]), String.toList_inj.1 (by simp [key])⟩)
  | c :: c' :: w, rest =>
    simp only [List.cons_append, List.cons.injEq] at rest
    obtain ⟨rfl, rfl, key⟩ := rest
    refine .inr (.inr ⟨String.ofList w, String.toList_inj.1 ?_, String.toList_inj.1 ?_⟩)
    · simp [tenant]
    · simp [key]

theorem renderHandle_eq_iff {p q : String × String} :
    renderHandle p.1 p.2 = renderHandle q.1 q.2 ↔ p = q ∨ Straddles p q ∨ Straddles q p := by
  constructor
  · intro same
    have lists := congrArg String.toList same
    rw [toList_renderHandle, toList_renderHandle] at lists
    cases List.append_eq_append_iff.1 lists with
    | inl longer =>
      obtain ⟨u, tenant, rest⟩ := longer
      exact (straddles_of_append tenant rest).imp_right .inl
    | inr shorter =>
      obtain ⟨u, tenant, rest⟩ := shorter
      exact (straddles_of_append tenant rest).imp .symm .inr
  · rintro (rfl | straddles | straddles)
    · rfl
    · exact straddles.same
    · exact straddles.same.symm

/-! ## Where the cache of a handle comes from

For any tiers, also where names repeat: what is proved is about calls that end. -/

section Traced

variable {α : Type} {nbytes : α → Nat}

/-- Every entry is filed under the handle of its pair and satisfies `P`. -/
structure Traced (P : String → String → α → Prop) (s : TieredCacheStore α) : Prop where
  filed : ∀ h e, s.entries.get? h = some e → e.handle = h ∧ renderHandle e.tenant e.key = h ∧
    P e.tenant e.key e.cache
  index : ∀ slot h, s.index.get? slot = some h → h = renderHandle slot.1 slot.2

variable {P : String → String → α → Prop} {s s' : TieredCacheStore α}

theorem Traced.mono {Q : String → String → α → Prop} (traced : Traced P s)
    (weaker : ∀ t k c, P t k c → Q t k c) :
    Traced Q s :=
  ⟨fun h e found => (traced.filed h e found).imp_right fun rest => ⟨rest.1, weaker _ _ _ rest.2⟩,
    traced.index⟩

theorem Traced.recounted (traced : Traced P s) (same : Recounted s s') : Traced P s' :=
  ⟨same.entries ▸ traced.filed, same.index ▸ traced.index⟩

/-- Filing an entry anew. -/
theorem Traced.refile (traced : Traced P s) {e f : Entry α} (present : s.entries.get? e.handle = some e)
    (same : SameCache e f) (entries : s'.entries = s.entries.set e.handle f) (index : s'.index = s.index) : Traced P s' := by
  refine ⟨?_, index ▸ traced.index⟩
  rw [entries]
  refine Dict.forall_get?_set traced.filed ?_
  obtain ⟨_, rendered, origin⟩ := traced.filed _ e present
  exact ⟨same.handle, by rw [same.tenant, same.key, rendered], by rw [same.tenant, same.key, same.cache]; exact origin⟩

theorem Traced.move (traced : Traced P s) {e : Entry α} (present : s.entries.get? e.handle = some e)
    (dst : String) :
    Traced P (s.move e dst) :=
  traced.refile (f := { e with tier := dst }) present ⟨rfl, rfl, rfl, rfl, rfl⟩
    (entries_move s e dst) (index_move ..)

theorem Traced.touch (traced : Traced P s) {e : Entry α}
    (present : s.entries.get? e.handle = some e) :
    Traced P (s.touch e).1 :=
  traced.refile (f := (s.touch e).2) present ⟨rfl, rfl, rfl, rfl, rfl⟩ rfl rfl

theorem Traced.evict (traced : Traced P s) (handle : String) : Traced P (s.evict handle) := by
  refine ⟨fun h e found => ?_, fun slot h found => ?_⟩
  · rw [entries_evict, Dict.get?_erase] at found
    split at found
    · cases found
    · exact traced.filed h e found
  · cases present : s.entries.get? handle with
    | none =>
      rw [TieredCacheStore.evict, present] at found
      exact traced.index slot h found
    | some e =>
      rw [index_evict present, Dict.get?_erase] at found
      split at found
      · cases found
      · exact traced.index slot h found

theorem Traced.insert (traced : Traced P s) {tenant key : String} {cache : α}
    (new : P tenant key cache) :
    Traced P (s.insert nbytes tenant key cache) := by
  refine ⟨?_, ?_⟩
  · rw [entries_insert]
    exact Dict.forall_get?_set traced.filed ⟨rfl, rfl, new⟩
  · rw [index_insert]
    exact Dict.forall_get?_set traced.index rfl

theorem Traced.victim (traced : Traced P s) {tier : String} {victim : Entry α}
    (chosen : s.lruIn tier = some victim) :
    s.entries.get? victim.handle = some victim := by
  obtain ⟨h, present⟩ := Dict.mem_values_iff.1 (List.mem_filter.1 (List.argmin_mem chosen)).1
  rw [(traced.filed h victim present).1, present]

theorem Traced.shed {tier : TierSpec} {next : Option TierSpec}
    {st st' : TieredCacheStore α × List (Drop α)}
    (traced : Traced P st.1) (round : shed tier next st = some st') : Traced P st'.1 := by
  unfold TieredCacheStore.shed at round
  cases chosen : st.1.lruIn tier.name with
  | none => simp [chosen] at round
  | some victim =>
    have present := traced.victim chosen
    cases next with
    | none =>
      simp only [chosen, Option.some.injEq] at round
      subst round
      exact ⟨(traced.evict victim.handle).filed, (traced.evict victim.handle).index⟩
    | some below =>
      simp only [chosen, Option.some.injEq] at round
      subst round
      exact ⟨(traced.move present below.name).filed, (traced.move present below.name).index⟩

theorem Traced.enforceFrom {bound : Nat} {tiers : List TierSpec}
    {t t' : TieredCacheStore α × List (Drop α)}
    (traced : Traced P t.1) (ends : enforceFrom bound tiers t = .ok t') : Traced P t'.1 := by
  induction tiers generalizing t with
  | nil =>
    obtain rfl := Except.ok.inj ends
    exact traced
  | cons tier rest ih =>
    rw [TieredCacheStore.enforceFrom] at ends
    cases loop : whileLoop (overfull tier) (TieredCacheStore.shed tier rest.head?) bound t with
    | none => simp [loop] at ends
    | some st₁ =>
      simp only [loop] at ends
      exact ih
        (whileLoop_invariant (fun st st' traced round => Traced.shed traced round) traced loop) ends

theorem Traced.promote {bound : Nat} {e : Entry α} {st : TieredCacheStore α × List (Drop α)}
    (traced : Traced P s)
    (present : s.entries.get? e.handle = some e) (ends : s.promote bound e = .ok st) :
      Traced P st.1 := by
  rw [TieredCacheStore.promote] at ends
  split at ends
  · have moved := traced.move present s.top
    exact Traced.enforceFrom
      (t := ({ s.move e s.top with promotions := (s.move e s.top).promotions + 1 }, []))
      ⟨moved.filed, moved.index⟩ ends
  · obtain rfl := Except.ok.inj ends
    exact traced

theorem Traced.put {bound : Nat} {tenant key : String} {cache : α}
    {r : String × TieredCacheStore α × List (Drop α)}
    (traced : Traced P s) (new : P tenant key cache)
    (ends : s.put nbytes bound tenant key cache = .ok r) :
    Traced P r.2.1 ∧ r.1 = renderHandle tenant key := by
  rw [TieredCacheStore.put] at ends
  cases indexed : s.index.get? (tenant, key) with
  | none =>
    simp only [indexed] at ends
    obtain ⟨st, done, rfl⟩ := Fallible.ok_of_map ends
    exact ⟨Traced.enforceFrom (t := (s.insert nbytes tenant key cache, []))
      (traced.insert new) done, rfl⟩
  | some handle =>
    cases present : s.entries.get? handle with
    | none => simp [indexed, present] at ends
    | some e =>
      simp only [indexed, present] at ends
      obtain ⟨st, done, rfl⟩ := Fallible.ok_of_map ends
      have named := (traced.filed handle e present).1
      have kept : (s.touch e).1.entries.get? (s.touch e).2.handle = some (s.touch e).2 :=
        Dict.get?_set_self ..
      exact ⟨(traced.touch (named.symm ▸ present)).promote kept done, traced.index _ _ indexed⟩

theorem Traced.get {bound : Nat} {handle : String}
    {r : Option α × TieredCacheStore α × List (Drop α)}
    (traced : Traced P s) (ends : s.get bound handle = .ok r) :
    Traced P r.2.1 ∧ ∀ c, r.1 = some c → ∃ t k, renderHandle t k = handle ∧ P t k c := by
  cases present : s.entries.get? handle with
  | none =>
    simp only [TieredCacheStore.get, present, Except.ok.injEq] at ends
    subst ends
    exact ⟨⟨traced.filed, traced.index⟩, fun c loaded => by cases loaded⟩
  | some e =>
    simp only [TieredCacheStore.get, present] at ends
    obtain ⟨st, done, rfl⟩ := Fallible.ok_of_map ends
    obtain ⟨named, rendered, origin⟩ := traced.filed handle e present
    refine ⟨?_, fun c loaded => ⟨e.tenant, e.key, rendered, Option.some.inj loaded ▸ origin⟩⟩
    -- the statistics aside, the store that is touched is `s`
    have counted : Traced P { s with
        gets := s.gets + 1
        getHits := s.getHits + 1
        modeledAccessSeconds := s.modeledAccessSeconds + s.accessCost e.tier e.nbytes } :=
          ⟨traced.filed, traced.index⟩
    exact (counted.touch (named.symm ▸ present)).promote (Dict.get?_set_self ..) done

/-- What a call that ends makes of a traced store, and what it answers. -/
theorem Traced.call {bound : Nat} {op : Op α} {outcome : Outcome α} (traced : Traced P s)
    (new : ∀ t k c, op = .put t k c → P t k c) (ends : call nbytes bound s op = .ok (outcome, s')) :
    Traced P s' ∧ (∀ t k c h, op = .put t k c → outcome.reply = .handle h → h = renderHandle t k) ∧
      ∀ h c, op = .get h → outcome.reply = .cache (some c) → ∃ t k, renderHandle t k = h ∧
        P t k c := by
  cases op with
  | put tenant key cache =>
    obtain ⟨r, done, result⟩ := Fallible.ok_of_map ends
    obtain ⟨rfl, rfl⟩ := Prod.mk.inj result
    obtain ⟨kept, handle⟩ := traced.put (new tenant key cache rfl) done
    refine ⟨kept, fun t k c h same reply => ?_, fun h c same => by cases same⟩
    cases same
    cases reply
    exact handle
  | get handle =>
    obtain ⟨r, done, result⟩ := Fallible.ok_of_map ends
    obtain ⟨rfl, rfl⟩ := Prod.mk.inj result
    obtain ⟨kept, loads⟩ := traced.get done
    refine ⟨kept, fun t k c h same => (by cases same), fun h c same reply => ?_⟩
    cases same
    exact loads c (Reply.cache.inj reply)
  | has tenant key =>
    obtain ⟨rfl, rfl⟩ := Prod.mk.inj (Except.ok.inj ends)
    exact ⟨traced.recounted (recounted_has s tenant key), fun t k c h same => (by cases same),
      fun h c same => by cases same⟩
  | evict handle =>
    obtain ⟨rfl, rfl⟩ := Prod.mk.inj (Except.ok.inj ends)
    exact ⟨traced.evict handle, fun t k c h same => (by cases same), fun h c same => by cases same⟩

theorem traced_exec (tiers : List TierSpec) (ops : List (Op α)) :
    Traced (fun t k c => .put t k c ∈ ops) ((tieredStore nbytes).exec (init tiers) ops) := by
  induction ops using List.reverseRecOn with
  | nil =>
    exact ⟨fun _ _ found => (not_mem_init found).elim, fun slot h found => by cases found⟩
  | append_singleton ops op ih =>
    rw [Machine.exec_snoc]
    have known :
      Traced (fun t k c => .put t k c ∈ ops ++ [op]) ((tieredStore nbytes).exec (init tiers) ops) :=
      ih.mono fun t k c before => List.mem_append_left _ before
    have new : ∀ t k c, op = .put t k c → .put t k c ∈ ops ++ [op] := by
      rintro t k c rfl
      exact List.mem_append_right _ (List.mem_singleton.2 rfl)
    simp only [Machine.next, tieredStore]
    split
    · rename_i ends
      exact (known.call new ends).1
    · exact known

end Traced

/-! ## With room for everything -/

section Ample

variable {α : Type} (nbytes : α → Nat)

/-- The pairs a call names. -/
def pairsOf : Op α → List (String × String)
  | .put tenant key _ => [(tenant, key)]
  | .has tenant key => [(tenant, key)]
  | _ => []

/-- The bytes of everything the calls put. -/
def putBytes (ops : List (Op α)) : Nat :=
  (ops.map fun
    | .put _ _ cache => nbytes cache
    | _ => 0).sum

/-- A map of handles, under the calls of a store. -/
def plainMap : Machine (String → Option α) (Op α) (Except Stuck (Outcome α)) :=
  ⟨fun held op =>
    match op with
    | .put tenant key cache =>
      let h := renderHandle tenant key
      (.ok ⟨.handle h, []⟩, if (held h).isSome then held else Function.update held h (some cache))
    | .get h => (.ok ⟨.cache (held h), []⟩, held)
    | .has tenant key =>
      let h := renderHandle tenant key
      (.ok ⟨.found (if (held h).isSome then some h else none), []⟩, held)
    | .evict h => (.ok ⟨.done, []⟩, Function.update held h none)⟩

def contents (s : TieredCacheStore α) (h : String) : Option (String × String × α) :=
  (s.entries.get? h).map fun e => (e.tenant, e.key, e.cache)

def totalBytes (s : TieredCacheStore α) : Nat := s.entries.sumBy Entry.nbytes

/-- Filing entries anew changes neither what is held nor how large it is. -/
structure SameContents (s s' : TieredCacheStore α) : Prop where
  books : Books nbytes s'
  tiers : s'.tiers = s.tiers
  contents : ∀ h, contents s' h = contents s h
  total : totalBytes s' = totalBytes s

variable {nbytes} {s s' : TieredCacheStore α}

theorem SameContents.refile (books : Books nbytes s') (tiers : s'.tiers = s.tiers) {e f : Entry α}
    (present : s.entries.get? e.handle = some e) (same : SameCache e f)
    (entries : s'.entries = s.entries.set e.handle f) :
    SameContents nbytes s s' := by
  refine ⟨books, tiers, fun h => ?_, ?_⟩
  · rw [Memory.contents, Memory.contents, entries, Dict.get?_set]
    by_cases here : e.handle = h
    · subst here
      rw [if_pos rfl, present, Option.map_some, Option.map_some, same.tenant, same.key, same.cache]
    · rw [if_neg here]
  · have := Dict.sumBy_set_present f Entry.nbytes present
    rw [totalBytes, totalBytes, entries]
    have := same.nbytes
    omega

theorem SameContents.trans {s₁ s₂ : TieredCacheStore α} (left : SameContents nbytes s s₁)
    (right : SameContents nbytes s₁ s₂) : SameContents nbytes s s₂ :=
  ⟨right.books, right.tiers.trans left.tiers, fun h => (right.contents h).trans (left.contents h),
    right.total.trans left.total⟩

theorem enforceFrom_idle {bound : Nat} {tiers : List TierSpec}
    {st : TieredCacheStore α × List (Drop α)}
    (fits : ∀ t ∈ tiers, st.1.usedOf t.name ≤ t.capacityBytes) :
      enforceFrom bound tiers st = .ok st := by
  induction tiers with
  | nil => rfl
  | cons tier rest ih =>
    have within : overfull tier st = false := by
      simpa [overfull] using fits tier (List.mem_cons_self ..)
    rw [enforceFrom, whileLoop_done (.inl within)]
    exact ih fun t member => fits t (List.mem_cons_of_mem _ member)

/-- A store with room enough has no tier to relieve. -/
theorem enforceCapacity_idle (books : Books nbytes s)
    (room : ∀ t ∈ s.tiers, (totalBytes s : Int) ≤ t.capacityBytes)
    (bound : Nat) : s.enforceCapacity bound = .ok (s, []) := by
  refine enforceFrom_idle fun t member => ?_
  have part : s.bytesIn t.name ≤ totalBytes s := by
    refine Dict.sumBy_mono fun e => ?_
    split <;> omega
  have := books.used t.name
  have := room t member
  show s.usedOf t.name ≤ t.capacityBytes
  omega

theorem use_ample (books : Books nbytes s) (inhabited : s.tiers ≠ [])
    (room : ∀ t ∈ s.tiers, (totalBytes s : Int) ≤ t.capacityBytes) {e : Entry α}
    (present : s.entries.get? e.handle = some e) (bound : Nat) :
    ∃ s', (s.touch e).1.promote bound (s.touch e).2 = .ok (s', []) ∧ SameContents nbytes s s' := by
  have kept : (s.touch e).1.entries.get? (s.touch e).2.handle = some (s.touch e).2 :=
    Dict.get?_set_self ..
  have touched : SameContents nbytes s (s.touch e).1 :=
    .refile (f := (s.touch e).2) (books_touch books present) rfl present
      ⟨rfl, rfl, rfl, rfl, rfl⟩ rfl
  rw [promote]
  by_cases atTop : (s.touch e).2.tier = (s.touch e).1.top
  · exact ⟨_, if_neg (not_not.2 atTop), touched⟩
  · have books' := books_move touched.books kept (top_housed inhabited)
    have moved : SameContents nbytes (s.touch e).1 { (s.touch e).1.move (s.touch e).2 s.top with
        promotions := ((s.touch e).1.move (s.touch e).2 s.top).promotions + 1 } :=
      .refile (f := { (s.touch e).2 with tier := s.top }) (books'.of_fields rfl rfl rfl rfl rfl rfl)
        (tiers_move ..) kept
        ⟨rfl, rfl, rfl, rfl, rfl⟩ (entries_move ..)
    refine ⟨_, (if_pos atTop).trans (enforceCapacity_idle moved.books ?_ bound),
      touched.trans moved⟩
    rw [moved.tiers, touched.tiers, moved.total, touched.total]
    exact room

/-- Pairs no two of which straddle. -/
def Unambiguous (pairs : Set (String × String)) : Prop := ∀ p ∈ pairs, ∀ q ∈ pairs, ¬ Straddles p q

theorem Unambiguous.pair_eq {pairs : Set (String × String)} (apart : Unambiguous pairs)
    {p q : String × String}
    (left : p ∈ pairs) (right : q ∈ pairs) (same : renderHandle p.1 p.2 = renderHandle q.1 q.2) :
      p = q := by
  cases renderHandle_eq_iff.1 same with
  | inl equal => exact equal
  | inr straddles =>
    cases straddles with
    | inl forth => exact absurd forth (apart p left q right)
    | inr back => exact absurd back (apart q right p left)

variable (nbytes) in
/-- The store holds what the plain map holds, and has room for the calls to come. -/
structure Ample (pairs : Set (String × String)) (ops : List (Op α)) (s : TieredCacheStore α)
    (held : String → Option α) :
    Prop where
  books : Books nbytes s
  inhabited : s.tiers ≠ []
  room : ∀ t ∈ s.tiers, (totalBytes s : Int) + putBytes nbytes ops ≤ t.capacityBytes
  holds : ∀ h, held h = (contents s h).map (·.2.2)
  known : ∀ h t k c, contents s h = some (t, k, c) → (t, k) ∈ pairs
  named : ∀ op ∈ ops, ∀ p ∈ pairsOf op, p ∈ pairs

variable {pairs : Set (String × String)} {held : String → Option α} {op : Op α} {ops : List (Op α)}

theorem Ample.room_now (ample : Ample nbytes pairs ops s held) :
    ∀ t ∈ s.tiers, (totalBytes s : Int) ≤ t.capacityBytes := by
  intro t member
  have := ample.room t member
  omega

/-- A call that does not change what is held. -/
theorem Ample.next_same (ample : Ample nbytes pairs (op :: ops) s held)
    (same : SameContents nbytes s s') :
    Ample nbytes pairs ops s' held := by
  refine ⟨same.books, same.tiers ▸ ample.inhabited, fun t member => ?_, fun h => ?_,
    fun h t k c => ?_,
    fun op' member => ample.named op' (List.mem_cons_of_mem _ member)⟩
  · have := ample.room t (same.tiers ▸ member)
    simp only [putBytes, List.map_cons, List.sum_cons] at this
    rw [same.total, putBytes]
    omega
  · rw [same.contents]
    exact ample.holds h
  · rw [same.contents]
    exact ample.known h t k c

theorem SameContents.counted (books : Books nbytes s) (same : Recounted s s') :
    SameContents nbytes s s' :=
  ⟨books.of_fields same.entries same.index same.tiers same.clock same.used same.peak, same.tiers,
    fun h => by rw [Memory.contents, Memory.contents, same.entries], by rw [totalBytes, totalBytes,
      same.entries]⟩

/-- The index answers for the pairs in use like the map of handles. -/
theorem Ample.index_eq (ample : Ample nbytes pairs ops s held) (apart : Unambiguous pairs)
    {tenant key : String}
    (member : (tenant, key) ∈ pairs) : s.index.get? (tenant, key) =
      if (held (renderHandle tenant key)).isSome then some (renderHandle tenant key) else none := by
  have books := ample.books
  rw [ample.holds]
  cases indexed : s.index.get? (tenant, key) with
  | none =>
    cases present : s.entries.get? (renderHandle tenant key) with
    | none => simp [contents, present]
    | some e =>
      have file := books.filed _ e present
      have inUse : (e.tenant, e.key) ∈ pairs :=
        ample.known _ _ _ e.cache (by rw [contents, present]; rfl)
      have pair := apart.pair_eq inUse member file.rendered
      rw [← pair, file.indexed] at indexed
      cases indexed
  | some h =>
    obtain rfl := books.index_eq indexed
    obtain ⟨e, present, _⟩ := books.backed _ _ indexed
    simp [contents, present]

theorem step_of_ok {outcome : Outcome α}
    (ends : call nbytes (s.entries.size + 1) s op = .ok (outcome, s')) :
    (tieredStore nbytes).step s op = (.ok outcome, s') := by
  simp only [tieredStore, ends]

/-- With room enough a call answers as on the map, and there is room enough for the rest. -/
theorem Ample.step (apart : Unambiguous pairs) (ample : Ample nbytes pairs (op :: ops) s held) :
    ∃ s', (tieredStore nbytes).step s op = ((plainMap.step held op).1, s') ∧
      Ample nbytes pairs ops s' (plainMap.step held op).2 := by
  have books := ample.books
  have room := ample.room_now
  cases op with
  | put tenant key cache =>
    have inUse : (tenant, key) ∈ pairs :=
      ample.named _ (List.mem_cons_self ..) _ (List.mem_singleton.2 rfl)
    have index := ample.index_eq apart inUse
    cases present : s.entries.get? (renderHandle tenant key) with
    | some e =>
      have kept : (held (renderHandle tenant key)).isSome = true := by
        simp [ample.holds, contents, present]
      rw [if_pos kept] at index
      have named := (books.filed _ e present).named
      obtain ⟨s', ends, same⟩ :=
        use_ample books ample.inhabited room (named.symm ▸ present) (s.entries.size + 1)
      refine ⟨s', step_of_ok ?_, ?_⟩
      · simp [call, TieredCacheStore.put, index, present, ends, Except.map]
      · simp only [plainMap, kept, if_true]
        exact ample.next_same same
    | none =>
      have free : held (renderHandle tenant key) = none := by simp [ample.holds, contents, present]
      simp only [free, Option.isSome_none, Bool.false_eq_true, if_false] at index
      have inserted := books_insert books ample.inhabited index present cache
      have tiers : (s.insert nbytes tenant key cache).tiers = s.tiers := tiers_insert ..
      have total : totalBytes (s.insert nbytes tenant key cache) = totalBytes s + nbytes cache := by
        rw [totalBytes, entries_insert, Dict.sumBy_set_new _ _ present]
        rfl
      have later : ∀ t ∈ s.tiers,
          (totalBytes (s.insert nbytes tenant key cache) : Int) + putBytes nbytes ops ≤
            t.capacityBytes := by
        intro t member
        have := ample.room t member
        simp only [putBytes, List.map_cons, List.sum_cons] at this
        rw [total, putBytes]
        omega
      have contents' : ∀ h, contents (s.insert nbytes tenant key cache) h =
          if renderHandle tenant key = h then some (tenant, key, cache) else contents s h := by
        intro h
        rw [contents, contents, entries_insert, Dict.get?_set]
        split <;> rfl
      -- the new entry fits, and so nothing moves
      have idle := enforceCapacity_idle inserted (fun t member => by
        have := later t (tiers ▸ member)
        omega) (s.entries.size + 1)
      refine ⟨s.insert nbytes tenant key cache, step_of_ok ?_, inserted, tiers ▸ ample.inhabited,
        tiers ▸ later, fun h => ?_, fun h t k c => ?_,
          fun op' member => ample.named op' (List.mem_cons_of_mem _ member)⟩
      · simp [call, TieredCacheStore.put, index, idle, Except.map]
      · simp only [plainMap, free, Option.isSome_none, Bool.false_eq_true, if_false, contents',
          Function.update_apply]
        by_cases here : h = renderHandle tenant key
        · subst here
          simp
        · rw [if_neg here, if_neg (Ne.symm here)]
          exact ample.holds h
      · rw [contents']
        split
        · intro found
          cases found
          exact inUse
        · exact ample.known h t k c
  | get handle =>
    cases present : s.entries.get? handle with
    | none =>
      have counted : Recounted s { s with gets := s.gets + 1, getMisses := s.getMisses + 1 } :=
        ⟨rfl, rfl, rfl, rfl, rfl, rfl, rfl⟩
      refine ⟨_, step_of_ok ?_, ample.next_same (.counted books counted)⟩
      simp [call, TieredCacheStore.get, present, ample.holds, contents, Except.map]
    | some e =>
      have named := (books.filed _ e present).named
      let s₀ : TieredCacheStore α := { s with
        gets := s.gets + 1
        getHits := s.getHits + 1
        modeledAccessSeconds := s.modeledAccessSeconds + s.accessCost e.tier e.nbytes }
      have counted : Recounted s s₀ := ⟨rfl, rfl, rfl, rfl, rfl, rfl, rfl⟩
      have same := SameContents.counted books counted
      have answer : held handle = some e.cache := by rw [ample.holds, contents, present]; rfl
      obtain ⟨s', ends, used⟩ :=
        use_ample same.books ample.inhabited room (e := e) (named.symm ▸ present)
          (s.entries.size + 1)
      refine ⟨s', step_of_ok ?_, ample.next_same (same.trans used)⟩
      simp only [call, TieredCacheStore.get, present]
      show Except.map _
        (Except.map _ ((s₀.touch e).1.promote (s.entries.size + 1) (s₀.touch e).2)) = _
      rw [ends, answer]
      rfl
  | has tenant key =>
    have index :=
      ample.index_eq apart (ample.named _ (List.mem_cons_self ..) _ (List.mem_singleton.2 rfl))
    refine ⟨_, step_of_ok ?_, ample.next_same (.counted books (recounted_has s tenant key))⟩
    rw [call, has_fst, index]
  | evict handle =>
    have removed : totalBytes (s.evict handle) ≤ totalBytes s := by
      rw [totalBytes, totalBytes, entries_evict]
      cases present : s.entries.get? handle with
      | none => rw [Dict.erase_absent present]
      | some e =>
        have := Dict.sumBy_erase_present Entry.nbytes present
        omega
    have contents' : ∀ h, contents (s.evict handle) h = if handle = h then none
      else contents s h := by
      intro h
      rw [contents, contents, entries_evict, Dict.get?_erase]
      split <;> rfl
    refine ⟨s.evict handle, step_of_ok rfl, books_evict books handle,
      (tiers_evict s handle).symm ▸ ample.inhabited, fun t member => ?_,
      fun h => ?_, fun h t k c => ?_,
        fun op' member => ample.named op' (List.mem_cons_of_mem _ member)⟩
    · have := ample.room t (tiers_evict s handle ▸ member)
      simp only [putBytes, List.map_cons, List.sum_cons] at this
      rw [putBytes]
      omega
    · rw [contents']
      simp only [plainMap, Function.update_apply]
      by_cases here : h = handle
      · subst here
        simp
      · rw [if_neg here, if_neg (Ne.symm here)]
        exact ample.holds h
    · rw [contents']
      split
      · intro found
        cases found
      · exact ample.known h t k c

/-- With room for everything put the store answers like the plain map. -/
theorem trace_ample {tiers : List TierSpec} (apart : Unambiguous pairs)
    (room : ∀ t ∈ (init tiers : TieredCacheStore α).tiers,
      (putBytes nbytes ops : Int) ≤ t.capacityBytes)
    (named : ∀ op ∈ ops, ∀ p ∈ pairsOf op, p ∈ pairs) :
    (tieredStore nbytes).trace (init tiers) ops = plainMap.trace (fun _ => none) ops := by
  have inhabited : (init tiers : TieredCacheStore α).tiers ≠ [] := by
    show (if tiers = [] then defaultTiers else tiers) ≠ []
    split
    · simp [defaultTiers]
    · assumption
  have start : Ample nbytes pairs ops (init tiers : TieredCacheStore α) fun _ => none := by
    refine ⟨books_init tiers, inhabited, fun t member => ?_, fun h => rfl,
      fun h t k c found => (by cases found), named⟩
    have empty : totalBytes (init tiers : TieredCacheStore α) = 0 := rfl
    have := room t member
    omega
  refine (tieredStore nbytes).trace_eq_of_simulation
    (fun ops s held => Ample nbytes pairs ops s held) (fun op ops s held ample => ?_) start
  obtain ⟨s', ends, rest⟩ := ample.step apart
  refine ⟨by rw [Machine.out, ends, Machine.out], ?_⟩
  rw [Machine.next, ends]
  exact rest

end Ample

/-! ## Isolation -/

variable {α : Type}

/-- The operations on a pair. -/
def onPair (p : String × String) : Op α → Bool
  | .put tenant key _ => (tenant, key) == p
  | .has tenant key => (tenant, key) == p
  | .get handle => handle == renderHandle p.1 p.2
  | .evict handle => handle == renderHandle p.1 p.2

/-- The operations that ask for a pair. -/
def asksFor (p : String × String) : Op α → Bool
  | .has tenant key => (tenant, key) == p
  | .get handle => handle == renderHandle p.1 p.2
  | _ => false

/-- On the map, the operations on one pair do not show in the answers for another. -/
theorem plainMap_purge {pairs : Set (String × String)} (apart : Unambiguous pairs)
    {p q : String × String} (left : p ∈ pairs)
    (right : q ∈ pairs) (distinct : p ≠ q) (held : String → Option α) (ops : List (Op α))
    (named : ∀ op ∈ ops, ∀ r ∈ pairsOf op, r ∈ pairs) :
    (plainMap.trace held ops).filter (fun e => asksFor q e.1) =
      (plainMap.trace held (ops.filter fun op => ¬ onPair p op)).filter fun e => asksFor q e.1 := by
  -- another pair has another handle
  have other : ∀ r ∈ pairs, r ≠ p → renderHandle r.1 r.2 ≠ renderHandle p.1 p.2 :=
    fun r member ne same => ne (apart.pair_eq member left same)
  have purge :=
    plainMap.trace_purge (fun f g : String → Option α => ∀ h, h ≠ renderHandle p.1 p.2 → f h = g h)
    (fun op => onPair p op = true) (fun op => asksFor q op = true)
    (fun op => ∀ r ∈ pairsOf op, r ∈ pairs)
    ?disjoint ?drop ?lockstep ?agree (s := held) (t := held) (fun h _ => rfl) ops named
  · simpa using purge
  case disjoint =>
    intro op asks on
    cases op with
    | put => cases asks
    | evict => cases asks
    | has tenant key =>
      obtain rfl : (tenant, key) = p := by simpa [onPair] using on
      exact distinct (by simpa [asksFor] using asks)
    | get handle =>
      obtain rfl : handle = renderHandle p.1 p.2 := by simpa [onPair] using on
      exact other q right distinct.symm (beq_iff_eq.1 asks).symm
  -- an operation on `p` writes at its handle only
  case drop =>
    intro f g op same _ on h outside
    rw [← same h outside]
    cases op with
    | get | has => rfl
    | put tenant key cache =>
      obtain rfl : (tenant, key) = p := by simpa [onPair] using on
      simp only [Machine.next, plainMap]
      split
      · rfl
      · exact Function.update_of_ne outside ..
    | evict handle =>
      obtain rfl : handle = renderHandle p.1 p.2 := by simpa [onPair] using on
      exact Function.update_of_ne outside ..
  -- any other operation does not read there
  case lockstep =>
    intro f g op same scope off h outside
    cases op with
    | get | has => exact same h outside
    | put tenant key cache =>
      have here : renderHandle tenant key ≠ renderHandle p.1 p.2 :=
        other (tenant, key) (scope _ (List.mem_singleton.2 rfl)) (by simpa [onPair] using off)
      simp only [Machine.next, plainMap, same _ here]
      split
      · exact same h outside
      · simp only [Function.update_apply]
        split
        · rfl
        · exact same h outside
    | evict handle =>
      simp only [Machine.next, plainMap, Function.update_apply]
      split
      · rfl
      · exact same h outside
  case agree =>
    intro f g op same scope asks
    cases op with
    | put => cases asks
    | evict => cases asks
    | has tenant key =>
      obtain rfl : (tenant, key) = q := by simpa [asksFor] using asks
      simp only [Machine.out, plainMap, same _ (other _ right distinct.symm)]
    | get handle =>
      obtain rfl : handle = renderHandle q.1 q.2 := by simpa [asksFor] using asks
      simp only [Machine.out, plainMap, same _ (other _ right distinct.symm)]

/-- What a handle returned by `put` of a pair loads was put under that pair. -/
def LoadsOwn (calls : List (Op α × Except Stuck (Outcome α))) : Prop :=
  ∀ (i j : Nat) (tenant key h : String) (cache c : α) (put get : Outcome α),
    calls[i]? = some (.put tenant key cache, .ok put) → put.reply = .handle h →
    calls[j]? = some (.get h, .ok get) → get.reply = .cache (some c) →
    ∃ m < j, ∃ made, calls[m]? = some (.put tenant key c, made)

variable (nbytes : α → Nat)

/-- Pairs that callers can use without seeing each other's entries. -/
structure Isolated (pairs : Set (String × String)) : Prop where
  handles : ∀ p ∈ pairs, ∀ q ∈ pairs, p ≠ q → renderHandle p.1 p.2 ≠ renderHandle q.1 q.2
  loads : ∀ tiers ops, (∀ op ∈ ops, ∀ r ∈ pairsOf op, r ∈ pairs) →
    LoadsOwn ((tieredStore nbytes).trace (init tiers) ops)
  /-- but for the capacities -/
  answers : ∀ tiers ops, (∀ op ∈ ops, ∀ r ∈ pairsOf op, r ∈ pairs) →
    (∀ t ∈ (init tiers : TieredCacheStore α).tiers, (putBytes nbytes ops : Int) ≤ t.capacityBytes) →
    ∀ p ∈ pairs, ∀ q ∈ pairs, p ≠ q →
      ((tieredStore nbytes).trace (init tiers) ops).filter (fun e => asksFor q e.1) =
        ((tieredStore nbytes).trace (init tiers) (ops.filter fun op => ¬ onPair p op)).filter
          fun e => asksFor q e.1

variable {nbytes}

theorem putBytes_filter (keep : Op α → Bool) (ops : List (Op α)) :
    putBytes nbytes (ops.filter keep) ≤ putBytes nbytes ops := by
  refine List.Sublist.sum_le_sum (List.filter_sublist.map _) fun n _ => Nat.zero_le n

theorem loadsOwn_of_unambiguous {pairs : Set (String × String)} (apart : Unambiguous pairs)
    (tiers : List TierSpec)
    (ops : List (Op α)) (named : ∀ op ∈ ops, ∀ r ∈ pairsOf op, r ∈ pairs) :
    LoadsOwn ((tieredStore nbytes).trace (init tiers) ops) := by
  intro i j tenant key h cache c put get atPut returned atGet loaded
  rw [Machine.trace_getElem?, Option.map_eq_some_iff] at atPut atGet
  obtain ⟨op, putAt, same⟩ := atPut
  obtain ⟨rfl, putOut⟩ := Prod.mk.inj same
  obtain ⟨op, getAt, same⟩ := atGet
  obtain ⟨rfl, getOut⟩ := Prod.mk.inj same
  -- a call that answered was a call that ended
  have ended : ∀ {s : TieredCacheStore α} {op : Op α} {o : Outcome α},
    (tieredStore nbytes).out s op = .ok o →
      ∃ s', call nbytes (s.entries.size + 1) s op = .ok (o, s') := by
    intro s op o answered
    simp only [Machine.out, tieredStore] at answered
    split at answered
    · rename_i s' ends
      exact ⟨s', Except.ok.inj answered ▸ ends⟩
    · cases answered
  obtain ⟨s', putEnds⟩ := ended putOut
  obtain ⟨t', getEnds⟩ := ended getOut
  have rendered :=
    ((traced_exec tiers (ops.take i)).mono fun _ _ _ _ => trivial).call
      (fun _ _ _ _ => trivial) putEnds
  have h_eq := rendered.2.1 tenant key cache h rfl returned
  obtain ⟨t, k, handle, before⟩ :=
    ((traced_exec tiers (ops.take j)).call
      (fun _ _ _ same => by cases same) getEnds).2.2 h c rfl loaded
  have inUse : (t, k) ∈ pairs :=
    named _ (List.mem_of_mem_take before) _ (List.mem_singleton.2 rfl)
  have asked : (tenant, key) ∈ pairs :=
    named _ (List.mem_of_getElem? putAt) _ (List.mem_singleton.2 rfl)
  obtain ⟨rfl, rfl⟩ := Prod.mk.inj (apart.pair_eq inUse asked (handle.trans h_eq))
  obtain ⟨m, at_⟩ := List.mem_iff_getElem?.1 before
  rw [List.getElem?_take] at at_
  split at at_
  · rename_i earlier
    exact ⟨m, earlier, _, by rw [Machine.trace_getElem?, at_]; rfl⟩
  · cases at_

/-- Callers are isolated exactly when no two of the pairs they use straddle. -/
theorem pairs_isolated_iff (pairs : Set (String × String)) :
    Isolated nbytes pairs ↔ ∀ p ∈ pairs, ∀ q ∈ pairs, ¬ Straddles p q := by
  constructor
  · intro isolated p left q right straddles
    refine isolated.handles p left q right ?_ straddles.same
    -- no pair straddles itself: its tenant would be longer than itself
    rintro rfl
    cases straddles with
    | inl colon => simpa using congrArg String.length colon.1
    | inr across =>
      obtain ⟨w, tenant, _⟩ := across
      have := congrArg String.length tenant
      simp only [String.length_append] at this
      have : "::".length = 2 := rfl
      omega
  · intro apart
    have apart : Unambiguous pairs := apart
    refine ⟨fun p left q right distinct same => distinct (apart.pair_eq left right same),
      loadsOwn_of_unambiguous apart, ?_⟩
    intro tiers ops named room p left q right distinct
    have namedRest : ∀ op ∈ ops.filter (fun op => ¬ onPair p op), ∀ r ∈ pairsOf op, r ∈ pairs :=
      fun op member => named op (List.mem_of_mem_filter member)
    have roomRest : ∀ t ∈ (init tiers : TieredCacheStore α).tiers,
        (putBytes nbytes (ops.filter fun op => ¬ onPair p op) : Int) ≤ t.capacityBytes := by
      intro t member
      have := room t member
      have : putBytes nbytes (ops.filter fun op => ¬ onPair p op) ≤ putBytes nbytes ops :=
        putBytes_filter _ ops
      omega
    rw [trace_ample apart room named, trace_ample apart roomRest namedRest]
    exact plainMap_purge apart left right distinct _ ops named

/-- Tenant `a::b` is handed the entry of tenant `a`, and the other way round. -/
theorem handles_collide :
    ("a", "b::c") ≠ ("a::b", "c") ∧ renderHandle "a" "b::c" = renderHandle "a::b" "c" ∧
    ∃ out, ((tieredStore id).trace (init [])
      [.put "a" "b::c" 1, .put "a::b" "c" 2, .get (renderHandle "a" "b::c")])[2]? =
        some (.get "a::b::c", .ok out) ∧
      out.reply = .cache (some 2) := by
  refine ⟨by decide, by decide, ⟨.cache (some 2), []⟩, ?_, rfl⟩
  rfl

end Dexa.Memory
