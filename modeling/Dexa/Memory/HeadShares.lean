import Dexa.Lib.Greedy
import Dexa.Memory.WorkingMemoryBounds

/-! # What each head holds of a working memory

The memory measures itself on the first head of the first layer.  With a compactor that divides a
layer's budget between its heads, that head may hold less than another: `Divides` is such a
compactor, and `Settled` what an append leaves as long as the heads have been given the same.
-/

namespace Dexa.Memory.WorkingMemory

open Dexa.Core Dexa.Lib Dexa.Compaction

variable {α : Type}

/-- The tokens that head `h` of layer `l` attends over: those the compact memory keeps on it, and
    the raw ones. -/
def headTokens (s : WorkingMemory α) (l h : Nat) : Except Raised Nat := do
  match s.compactMem with
  | none => return s.nRecent
  | some mem => return (← index (← index (← index mem.layers l).keys h).shape 0) + s.nRecent

/-- No head holds more than the budget, nor more than is reported. -/
def HeadsWithinBudget (spec : ModelSpec) (s : WorkingMemory α) : Prop :=
  ∀ l < spec.nLayers, ∀ h < spec.nKvHeads, ∃ n current, s.headTokens l h = .ok n ∧
    s.currentTokens = .ok current ∧
    n ≤ s.config.budgetTokens ∧ n ≤ current

/-- A compact cache with `kept l h` keys on head `h` of layer `l`. -/
def Holds (spec : ModelSpec) (kept : Nat → Nat → Nat) (mem : CompactCache α) : Prop :=
  ∀ l < spec.nLayers, ∀ h < spec.nKvHeads, ∃ layer key, mem.layers[l]? = some layer ∧
    layer.keys[h]? = some key ∧
    key.shape[0]? = some (kept l h)

/-- The reference queries that a compactor gets for a text. -/
def refsFor (compactor : Compactor α) (backend : ModelBackend α) (strategy : String) (perHead : Int)
    (tokens : List Int) :
    Option (RefQueries α) :=
  if compactor.needsRefQueries then some (backend.referenceQueries tokens strategy perHead)
    else none

/-- The compactor keeps `kept tokens l h` of a text of more than `size` tokens, which is `size` a
    head in all. -/
structure Divides (compactor : Compactor α) (backend : ModelBackend α) (strategy : String)
    (perHead : Int) (size : Nat)
    (kept : List Int → Nat → Nat → Nat) : Prop where
  compact : ∀ tokens, size < tokens.length → ∃ cache,
    compactor.compact (backend.prefill tokens 0) { tokensPerHead := some size }
      (refsFor compactor backend strategy perHead tokens) =
      .ok cache ∧ Holds backend.spec (kept tokens) cache
  total : ∀ tokens, size < tokens.length → ∀ l < backend.spec.nLayers,
    ((List.range backend.spec.nKvHeads).map (kept tokens l)).sum = backend.spec.nKvHeads * size

/-- The heads of each layer are given the same of what is older than the recent window. -/
def EvenlyKept (backend : ModelBackend α) (config : WorkingMemoryConfig)
    (kept : List Int → Nat → Nat → Nat) (tokens : List Int) :
    Prop :=
  config.budgetTokens < tokens.length → ∀ l < backend.spec.nLayers, ∀ h < backend.spec.nKvHeads,
    kept (tokens.take (tokens.length - config.keepRecentTokens)) l h = config.compactBudget

/-- The whole text is raw while it fits; after that, all but the recent window is compacted. -/
structure Settled (backend : ModelBackend α) (kept : List Int → Nat → Nat → Nat)
    (s : WorkingMemory α) : Prop where
  total : s.total = s.allTokens.length
  recent : s.recentRaw = recentOf backend s.allTokens s.compactEnd
  compact : s.total ≤ s.config.budgetTokens ∧ s.compactEnd = 0 ∧ s.compactMem = none ∨
    s.config.budgetTokens < s.total ∧ s.compactEnd = s.total - s.config.keepRecentTokens ∧
      ∃ mem, s.compactMem = some mem ∧ Holds backend.spec (kept (s.allTokens.take s.compactEnd)) mem

variable {backend : ModelBackend α} {kept : List Int → Nat → Nat → Nat}

theorem headTokens_first (s : WorkingMemory α) : s.headTokens 0 0 = s.currentTokens := by
  unfold headTokens currentTokens compactPhys
  cases s.compactMem with
  | none => simp [bind, Except.bind, pure, Except.pure]
  | some mem =>
    simp only [bind, Except.bind, pure, Except.pure]
    cases index mem.layers 0 with
    | error e => rfl
    | ok layer =>
      simp only
      cases index layer.keys 0 with
      | error e => rfl
      | ok key => rfl

theorem headTokens_raw {s : WorkingMemory α} (raw : s.compactMem = none) (l h : Nat) :
    s.headTokens l h = .ok s.nRecent := by
  rw [headTokens, raw]
  rfl

theorem headTokens_compact {s : WorkingMemory α} {mem : CompactCache α}
    (held : s.compactMem = some mem) {spec : ModelSpec}
    {rows : Nat → Nat → Nat} (holds : Holds spec rows mem) {l h : Nat} (ltLayer : l < spec.nLayers)
    (ltHead : h < spec.nKvHeads) :
    s.headTokens l h = .ok (rows l h + s.nRecent) := by
  obtain ⟨layer, key, there, found, size⟩ := holds l ltLayer h ltHead
  rw [headTokens, held]
  simp only [index_ok there, index_ok found, index_ok size, bind, Except.bind, pure, Except.pure]

theorem Settled.nRecent (shaped : Shaped backend) {s : WorkingMemory α}
    (settled : Settled backend kept s) :
    s.nRecent = s.total - s.compactEnd := nRecent_eq shaped settled.total settled.recent

theorem Settled.currentTokens (shaped : Shaped backend) {s : WorkingMemory α}
    (settled : Settled backend kept s) :
    ∃ current, s.currentTokens = .ok current := by
  rw [← headTokens_first]
  obtain ⟨-, -, raw⟩ | ⟨-, -, mem, held, holds⟩ := settled.compact
  · exact ⟨_, headTokens_raw raw 0 0⟩
  · exact ⟨_, headTokens_compact held holds shaped.layer shaped.head⟩

/-- No head of a settled memory holds too much exactly if all hold the same. -/
theorem Settled.headsWithinBudget_iff (shaped : Shaped backend) {compactor : Compactor α}
    {strategy : String} {perHead : Int}
    {s : WorkingMemory α}
    (divides : Divides compactor backend strategy perHead s.config.compactBudget kept)
    (settled : Settled backend kept s) :
    HeadsWithinBudget backend.spec s ↔ EvenlyKept backend s.config kept s.allTokens := by
  have share := s.config.fits
  have nRecent := settled.nRecent shaped
  have whole := settled.total
  unfold HeadsWithinBudget EvenlyKept
  rw [← headTokens_first, ← whole]
  obtain ⟨fits, uncompacted, raw⟩ | ⟨long, newEnd, mem, held, holds⟩ := settled.compact
  · constructor
    · intro _ long
      omega
    · intro _ l _ h _
      exact ⟨s.nRecent, s.nRecent, headTokens_raw raw l h, headTokens_raw raw 0 0, by omega, le_rfl⟩
  · have budget : s.config.compactBudget = s.config.budgetTokens - s.config.keepRecentTokens := rfl
    have window : s.nRecent = s.config.keepRecentTokens := by omega
    have first := headTokens_compact held holds shaped.layer shaped.head
    rw [newEnd] at holds
    constructor
    · intro within _ l ltLayer
      -- together the heads hold the budget, so none is below it if none is above
      have longer :
        s.config.compactBudget <
        (s.allTokens.take (s.total - s.config.keepRecentTokens)).length := by
        rw [List.length_take]
        omega
      apply eq_of_sum_eq_mul (.inl fun h ltHead => ?_) (divides.total _ longer l ltLayer)
      obtain ⟨n, -, tokens, -, small, -⟩ := within l ltLayer h ltHead
      rw [headTokens_compact held holds ltLayer ltHead] at tokens
      obtain rfl := Except.ok.inj tokens
      omega
    · intro even l ltLayer h ltHead
      have here := even long l ltLayer h ltHead
      have corner := even long 0 shaped.layer 0 shaped.head
      rw [newEnd] at first
      exact ⟨_, _, headTokens_compact held holds ltLayer ltHead, first, by omega, by omega⟩

section Append

variable [LinearOrder α] [AddCommGroup α] {compactor : Compactor α}

/-- The text with the new tokens, which are raw at first. -/
def extended (backend : ModelBackend α) (s : WorkingMemory α) (tokenIds : List Int) :
    WorkingMemory α :=
  refreshRecent backend { s with allTokens := s.allTokens ++ tokenIds, total := (s.allTokens ++ tokenIds).length }

theorem append_eq {tokenIds : List Int} (some : tokenIds ≠ []) (bound : Nat) (s : WorkingMemory α) :
    append backend compactor bound s tokenIds = (do
      let s ← (extended backend s tokenIds).recordPeak
      let s ← maybeCompact backend compactor bound s
      s.recordPeak) := by
  rw [append, if_neg some]
  rfl

/-- Clipping touches values only. -/
theorem Holds.clipValues {spec : ModelSpec} {rows : Nat → Nat → Nat} {mem : CompactCache α}
    (holds : Holds spec rows mem)
    (full : KVCache α) : Holds spec rows (clipValues mem full) := by
  intro l ltLayer h ltHead
  obtain ⟨layer, key, there, found, size⟩ := holds l ltLayer h ltHead
  cases clipLayers_getElem? there full.layers with
  | inl same => exact ⟨layer, key, same, found, size⟩
  | inr clipped =>
    obtain ⟨fl, clipped⟩ := clipped
    have keys : (clipLayer layer fl).keys = layer.keys := by
      unfold clipLayer
      dsimp only
      split <;> rfl
    exact ⟨_, key, clipped, by rw [keys, found], size⟩

/-- A compaction of a text over the budget settles the memory. -/
theorem compactStep_settles (shaped : Shaped backend) {s : WorkingMemory α}
    (divides : Divides compactor backend s.config.refStrategy s.config.refPerHead s.config.compactBudget kept)
    (total : s.total = s.allTokens.length) (long : s.config.budgetTokens < s.total) :
    ∃ s', compactStep backend compactor s = .ok s' ∧ Settled backend kept s' ∧ SameText s s' ∧
      s'.compactEnd = s.total - s.config.keepRecentTokens ∧ s'.overBudget = false := by
  have share := s.config.fits
  have budget : s.config.compactBudget = s.config.budgetTokens - s.config.keepRecentTokens := rfl
  let newEnd := s.total - s.config.keepRecentTokens
  have longer : s.config.compactBudget < (s.allTokens.take newEnd).length := by
    rw [List.length_take]
    omega
  obtain ⟨cache, ok, holds⟩ := divides.compact _ longer
  let compacted : WorkingMemory α :=
    { s with compactMem := some (clipValues cache (backend.prefill (s.allTokens.take newEnd) 0)), compactEnd := newEnd,
             peakRecomputeTokens := max s.peakRecomputeTokens (s.allTokens.take newEnd).length }
  let s' : WorkingMemory α :=
    { refreshRecent backend compacted with nCompactions := s.nCompactions + 1, version := s.version + 1 }
  have settled : Settled backend kept s' := by
    constructor
    case total => exact total
    case recent => exact refreshRecent_recent (s := compacted) total
    case compact => exact .inr ⟨long, rfl, _, rfl, holds.clipValues _⟩
  refine ⟨s', ?_, settled, ⟨rfl, rfl⟩, rfl, ?_⟩
  · simp only [compactStep, bind, Except.bind, pure, Except.pure]
    rw [refsFor] at ok
    rw [ok]
    rfl
  · obtain ⟨current, ok⟩ := settled.currentTokens shaped
    have window : ¬ s'.config.keepRecentTokens < s'.total - s'.compactEnd := by
      change ¬ s.config.keepRecentTokens < s.total - newEnd
      omega
    simp only [overBudget, ok, window, decide_false, Bool.and_false]

omit [LinearOrder α] [AddCommGroup α] in
theorem recordPeak_ok {s : WorkingMemory α} {current : Nat} (ok : s.currentTokens = .ok current) :
    s.recordPeak = .ok { s with peakTokens := max s.peakTokens current } := by
  simp only [recordPeak, ok, bind, Except.bind, pure, Except.pure]

/-- A memory that is measured at `current`: it is raw and fits, or its text and what is measured are
    over the budget. -/
def Measured (s : WorkingMemory α) (current : Nat) : Prop :=
  current ≤ s.config.budgetTokens ∧ s.total ≤ s.config.budgetTokens ∧ s.compactEnd = 0 ∧
    s.compactMem = none ∨
    s.config.budgetTokens < current ∧ s.config.budgetTokens < s.total ∧
      s.compactEnd + s.config.keepRecentTokens < s.total

omit [LinearOrder α] [AddCommGroup α] in
theorem extended_measured (shaped : Shaped backend) {s : WorkingMemory α}
    (settled : Settled backend kept s)
    (even : EvenlyKept backend s.config kept s.allTokens) {tokenIds : List Int}
    (some : tokenIds ≠ []) :
    ∃ current, (extended backend s tokenIds).currentTokens = .ok current ∧
      Measured (extended backend s tokenIds) current := by
  have share := s.config.fits
  have added : 0 < tokenIds.length := List.length_pos_iff.2 some
  have whole := settled.total
  let e := extended backend s tokenIds
  have length : e.total = s.total + tokenIds.length := by
    rw [whole, ← List.length_append]
    rfl
  have nRecent : e.nRecent = e.total - s.compactEnd :=
    nRecent_eq (s := e) shaped rfl (refreshRecent_recent rfl)
  change ∃ current, e.currentTokens = .ok current ∧
    (current ≤ s.config.budgetTokens ∧ e.total ≤ s.config.budgetTokens ∧
    s.compactEnd = 0 ∧ s.compactMem = none ∨ s.config.budgetTokens < current ∧
      s.config.budgetTokens < e.total ∧
    s.compactEnd + s.config.keepRecentTokens < e.total)
  rw [← headTokens_first]
  obtain ⟨-, uncompacted, raw⟩ | ⟨long, newEnd, cache, held, holds⟩ := settled.compact
  · refine ⟨e.nRecent, headTokens_raw (s := e) raw 0 0, ?_⟩
    by_cases fits : e.total ≤ s.config.budgetTokens
    · exact .inl ⟨by omega, fits, uncompacted, raw⟩
    · exact .inr (by omega)
  · -- the first head holds its full share, so any further token takes it over the budget
    have corner := even (whole ▸ long) 0 shaped.layer 0 shaped.head
    rw [← whole, ← newEnd] at corner
    have budget : s.config.compactBudget = s.config.budgetTokens - s.config.keepRecentTokens := rfl
    have first : e.headTokens 0 0 = _ :=
      headTokens_compact (s := e) held holds shaped.layer shaped.head
    refine ⟨_, first, .inr ?_⟩
    omega

/-- The loop settles what is measured so. -/
theorem maybeCompact_settles (shaped : Shaped backend) {s : WorkingMemory α}
    (divides : Divides compactor backend s.config.refStrategy s.config.refPerHead s.config.compactBudget kept)
    (total : s.total = s.allTokens.length)
    (recent : s.recentRaw = recentOf backend s.allTokens s.compactEnd) {current : Nat}
    (ok : s.currentTokens = .ok current) (measured : Measured s current) :
    ∃ s', (∀ bound, 1 ≤ bound → maybeCompact backend compactor bound s = .ok s') ∧
      Settled backend kept s' ∧ SameText s s' := by
  obtain ⟨small, fits, uncompacted, raw⟩ | ⟨large, long, window⟩ := measured
  · have done : s.overBudget = false := by simp [overBudget, ok, Nat.not_lt.2 small]
    exact ⟨s, fun bound _ => maybeCompact_done done bound,
      ⟨total, recent, .inl ⟨fits, uncompacted, raw⟩⟩, ⟨rfl, rfl⟩⟩
  · obtain ⟨s', stepped, settled, same, newEnd, left⟩ :=
      compactStep_settles shaped divides total long
    have rest : s.config.keepRecentTokens < s.total - s.compactEnd := by omega
    have due : s.overBudget = true := by simp [overBudget, ok, large, rest]
    exact ⟨s', fun bound enough => maybeCompact_once due stepped (by omega) left enough,
      settled, same⟩

/-- An append settles a memory whose heads hold the same. -/
theorem append_settles (shaped : Shaped backend) {s : WorkingMemory α}
    (divides : Divides compactor backend s.config.refStrategy s.config.refPerHead s.config.compactBudget kept)
    (settled : Settled backend kept s) (even : EvenlyKept backend s.config kept s.allTokens)
    (tokenIds : List Int) :
    ∃ s', (∀ bound, 1 ≤ bound → append backend compactor bound s tokenIds = .ok s') ∧
      Settled backend kept s' ∧
      s'.allTokens = s.allTokens ++ tokenIds ∧ s'.config = s.config := by
  by_cases empty : tokenIds = []
  · refine ⟨s, fun bound _ => ?_, settled, by rw [empty, List.append_nil], rfl⟩
    rw [append, if_pos empty]
    rfl
  · obtain ⟨current, ok, measured⟩ := extended_measured shaped settled even empty
    let e := extended backend s tokenIds
    let peaked : WorkingMemory α := { e with peakTokens := max e.peakTokens current }
    obtain ⟨s₁, compacted, settled₁, same⟩ :=
      maybeCompact_settles (s := peaked) shaped divides rfl (refreshRecent_recent rfl) ok measured
    obtain ⟨current₁, ok₁⟩ := settled₁.currentTokens shaped
    refine ⟨{ s₁ with peakTokens := max s₁.peakTokens current₁ }, fun bound enough => ?_,
      { settled₁ with }, same.allTokens,
      same.config⟩
    rw [append_eq empty, recordPeak_ok ok]
    change (maybeCompact backend compactor bound peaked >>= _) = _
    rw [compacted bound enough]
    exact recordPeak_ok ok₁

/-! ## Runs -/

/-- The calls end in `s`, within any bound. -/
def Ends (compactor : Compactor α) (backend : ModelBackend α) (start : WorkingMemory α)
    (calls : List (List Int))
    (s : WorkingMemory α) : Prop := ∀ bound, 1 ≤ bound →
      appendAll backend compactor bound start calls = .ok s

omit [LinearOrder α] [AddCommGroup α] in
variable (backend kept) in
theorem new_settled {budget keep : Int} {strategy : String} {perHead : Int}
    {start : WorkingMemory α}
    (accepted : new budget keep strategy perHead = .ok start) :
    Settled backend kept start ∧ start.allTokens = [] ∧ start.config.refStrategy = strategy ∧
      start.config.refPerHead = perHead := by
  unfold new at accepted
  split at accepted
  · cases accepted
  · split at accepted
    · cases accepted
    · obtain rfl := Except.ok.inj accepted
      exact ⟨⟨rfl, rfl, .inl ⟨Nat.zero_le _, rfl, rfl⟩⟩, rfl, rfl, rfl⟩

/-- The calls end in `s`, which is settled. -/
structure Reached (compactor : Compactor α) (backend : ModelBackend α)
    (kept : List Int → Nat → Nat → Nat) (start : WorkingMemory α)
    (calls : List (List Int)) (s : WorkingMemory α) : Prop where
  ends : Ends compactor backend start calls s
  settled : Settled backend kept s
  text : s.allTokens = calls.flatten
  config : s.config = start.config

theorem forall_prefix_concat {β : Type} {P : List β → Prop} {l : List β} {a : β} :
    (∀ done, done <+: l ++ [a] → P done) ↔ (∀ done, done <+: l → P done) ∧ P (l ++ [a]) := by
  simp only [List.prefix_concat_iff, or_imp, forall_and, forall_eq]
  exact and_comm

section Runs

variable (shaped : Shaped backend) {start : WorkingMemory α}
  (divides : Divides compactor backend start.config.refStrategy start.config.refPerHead start.config.compactBudget kept)
include shaped divides

theorem Reached.append {calls : List (List Int)} {s : WorkingMemory α}
    (reached : Reached compactor backend kept start calls s)
    (even : EvenlyKept backend start.config kept calls.flatten) (tokenIds : List Int) :
    ∃ s', Reached compactor backend kept start (calls ++ [tokenIds]) s' := by
  obtain ⟨ends, settled, text, config⟩ := reached
  rw [← config] at divides even
  rw [← text] at even
  obtain ⟨s', appended, settled', text', config'⟩ :=
    append_settles shaped divides settled even tokenIds
  refine ⟨s', fun bound enough => ?_, settled', ?_, config'.trans config⟩
  · rw [appendAll, List.foldlM_append]
    change (appendAll backend compactor bound start calls >>= _) = _
    rw [ends bound enough]
    simp only [bind, Except.bind, List.foldlM_cons, List.foldlM_nil, appended bound enough,
      pure, Except.pure]
  · rw [text', text, List.flatten_append, List.flatten_singleton]

theorem Reached.within_iff {calls : List (List Int)} {s : WorkingMemory α}
    (reached : Reached compactor backend kept start calls s) :
    (∃ s, Ends compactor backend start calls s ∧ HeadsWithinBudget backend.spec s) ↔
      EvenlyKept backend start.config kept calls.flatten := by
  obtain ⟨ends, settled, text, config⟩ := reached
  rw [← config] at divides
  rw [← text, ← config, ← settled.headsWithinBudget_iff shaped divides]
  constructor
  · rintro ⟨s', ends', within⟩
    obtain rfl := Except.ok.inj ((ends 1 le_rfl).symm.trans (ends' 1 le_rfl))
    exact within
  · exact fun within => ⟨s, ends, within⟩

/-- After each call every head is within the budget, and within what is reported, exactly if after
    each call the heads have been given the same. -/
theorem headsWithinBudget_runs_iff (fresh : Settled backend kept start)
    (empty : start.allTokens = []) (calls : List (List Int)) :
    (∀ done, done <+: calls → ∃ s, Ends compactor backend start done s ∧
      HeadsWithinBudget backend.spec s) ↔
      ∀ done, done <+: calls → EvenlyKept backend start.config kept done.flatten := by
  have all :
    ((∀ done, done <+: calls → ∃ s, Ends compactor backend start done s ∧
    HeadsWithinBudget backend.spec s) ↔
      ∀ done, done <+: calls → EvenlyKept backend start.config kept done.flatten) ∧
      ((∀ done, done <+: calls → EvenlyKept backend start.config kept done.flatten) →
        ∃ s, Reached compactor backend kept start calls s) := by
    induction calls using List.reverseRecOn with
    | nil =>
      have reached : Reached compactor backend kept start [] start :=
        ⟨fun _ _ => rfl, fresh, empty, rfl⟩
      have first := reached.within_iff shaped divides
      refine ⟨?_, fun _ => ⟨start, reached⟩⟩
      simpa [List.prefix_nil] using first
    | append_singleton calls tokenIds ih =>
      obtain ⟨same, reach⟩ := ih
      have next : (∀ done, done <+: calls → EvenlyKept backend start.config kept done.flatten) →
          ∃ s, Reached compactor backend kept start (calls ++ [tokenIds]) s := by
        intro even
        obtain ⟨s, reached⟩ := reach even
        exact reached.append shaped divides (even calls List.prefix_rfl) tokenIds
      rw [forall_prefix_concat, forall_prefix_concat, same]
      refine ⟨and_congr_right fun even => ?_, fun even => next even.1⟩
      obtain ⟨s, reached⟩ := next even
      exact reached.within_iff shaped divides
  exact all.1

end Runs

end Append

end Dexa.Memory.WorkingMemory
