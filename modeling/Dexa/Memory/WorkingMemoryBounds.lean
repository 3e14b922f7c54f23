import Dexa.Memory.WorkingMemory
import Dexa.Lib.Lists
import Dexa.Segments.SessionSoundness

/-! # The working memory stays within its budget and loses no position

`Consistent` links the four counters: what is compacted, what is raw, what was appended
and the room for each.  One round of the compaction loop always ends it, since it
leaves exactly the recent window raw.
-/

namespace Dexa.Memory

open Dexa.Core Dexa.Lib Dexa.Compaction

variable {α : Type} [Inhabited α] [LinearOrder α] [AddCommGroup α]

omit [Inhabited α] in
theorem clipLayer_head {cl : CompactLayer α} {h : Nat} {head : CompactHead α}
    (found : cl.head? h = some head)
    (fl : LayerKV α) :
    ∃ value, (clipLayer cl fl).head? h = some { head with value } ∧
      value.shape = head.value.shape := by
  unfold clipLayer
  dsimp only
  split
  · exact ⟨head.value, found, rfl⟩
  · obtain ⟨key, value, biases, positions⟩ := CompactLayer.head?_eq_some.1 found
    refine ⟨head.value.map (clip (maxAbs fl.value)),
      CompactLayer.head?_eq_some.2 ⟨key, ?_, biases, positions⟩, rfl⟩
    simp only [List.getElem?_map, value, Option.map_some]

omit [Inhabited α] in
theorem clipLayers_getElem? {cls : List (CompactLayer α)} {l : Nat} {cl : CompactLayer α}
    (here : cls[l]? = some cl)
    (fls : List (LayerKV α)) :
    (clipLayers cls fls)[l]? = some cl ∨
      ∃ fl, (clipLayers cls fls)[l]? = some (clipLayer cl fl) := by
  induction cls generalizing l fls with
  | nil => cases here
  | cons first cls ih =>
    cases fls with
    | nil => exact .inl here
    | cons fl fls =>
      cases l with
      | zero =>
        obtain rfl := Option.some.inj here
        exact .inr ⟨fl, rfl⟩
      | succ l => exact ih here fls

omit [Inhabited α] in
theorem clipValues_fits {spec : ModelSpec} {size : Nat} {compact : CompactCache α}
    (fits : CacheFits spec size compact)
    (full : KVCache α) : CacheFits spec size (clipValues compact full) := by
  intro l ltLayer h ltHead
  obtain ⟨layer, head, there, found, t, small, head_fits⟩ := fits l ltLayer h ltHead
  cases clipLayers_getElem? there full.layers with
  | inl kept => exact ⟨layer, head, kept, found, t, small, head_fits⟩
  | inr clipped =>
    obtain ⟨fl, clipped⟩ := clipped
    obtain ⟨value, found', shape⟩ := clipLayer_head found fl
    exact ⟨_, _, clipped, found', t, small, { head_fits with value := shape.trans head_fits.value }⟩

namespace WorkingMemory

/-- The raw KV of what is not compacted. -/
def recentOf (backend : ModelBackend α) (tokens : List Int) (compactEnd : Nat) :
    Option (KVCache α) :=
  if tokens.drop compactEnd = [] then none
    else some (backend.prefill (tokens.drop compactEnd) compactEnd)

structure Consistent (backend : ModelBackend α) (s : WorkingMemory α) : Prop where
  total : s.total = s.allTokens.length
  end_le : s.compactEnd ≤ s.total
  absent : s.compactMem = none ↔ s.compactEnd = 0
  compact : ∀ mem, s.compactMem = some mem →
    mem.logicalLength = s.compactEnd ∧ CacheFits backend.spec s.config.compactBudget mem
  recent : s.recentRaw = recentOf backend s.allTokens s.compactEnd
  uncompacted : s.nCompactions = 0 → s.compactEnd = 0

/-- What an append leaves behind. -/
def WithinBudget (s : WorkingMemory α) : Prop := ∃ n, s.currentTokens = .ok n ∧
    n ≤ s.config.budgetTokens

variable {backend : ModelBackend α} {compactor : Compactor α}

omit [Inhabited α] [LinearOrder α] [AddCommGroup α] in
theorem recentOf_positions (shaped : Shaped backend) {tokens : List Int} {compactEnd : Nat}
    {kv : KVCache α}
    (present : recentOf backend tokens compactEnd = some kv) :
    kv = backend.prefill (tokens.drop compactEnd) compactEnd ∧ compactEnd < tokens.length ∧
      kv.positions = arange compactEnd tokens.length := by
  unfold recentOf at present
  split at present
  · cases present
  · rename_i nonempty
    obtain rfl := Option.some.inj present
    have inside : compactEnd < tokens.length := by
      rw [List.drop_eq_nil_iff] at nonempty
      omega
    refine ⟨rfl, inside, ?_⟩
    rw [shaped.positions, List.length_drop]
    congr 1
    omega

omit [Inhabited α] [LinearOrder α] [AddCommGroup α] in
/-- The raw window holds what is not compacted. -/
theorem nRecent_eq (shaped : Shaped backend) {s : WorkingMemory α}
    (total : s.total = s.allTokens.length)
    (recent : s.recentRaw = recentOf backend s.allTokens s.compactEnd) :
      s.nRecent = s.total - s.compactEnd := by
  rw [WorkingMemory.nRecent, recent, total]
  cases present : recentOf backend s.allTokens s.compactEnd with
  | none =>
    unfold recentOf at present
    split at present
    · rename_i empty
      have past := List.drop_eq_nil_iff.1 empty
      simp only
      omega
    · cases present
  | some kv =>
    obtain ⟨-, -, positions⟩ := recentOf_positions shaped present
    simp only [KVCache.seqLen, positions, length_arange]

omit [Inhabited α] [LinearOrder α] [AddCommGroup α] in
theorem Consistent.nRecent (shaped : Shaped backend) {s : WorkingMemory α}
    (consistent : Consistent backend s) :
    s.nRecent = s.total - s.compactEnd := nRecent_eq shaped consistent.total consistent.recent

omit [Inhabited α] [LinearOrder α] [AddCommGroup α] in
theorem Consistent.compactPhys (shaped : Shaped backend) {s : WorkingMemory α}
    (consistent : Consistent backend s) :
    ∃ n, s.compactPhys = .ok n ∧ n ≤ s.config.compactBudget := by
  unfold WorkingMemory.compactPhys
  cases held : s.compactMem with
  | none => exact ⟨0, rfl, Nat.zero_le _⟩
  | some mem =>
    obtain ⟨layer, head, there, found, t, small, fits⟩ :=
      (consistent.compact mem held).2 0 shaped.layer 0 shaped.head
    have rows : head.key.shape[0]? = some t := by
      rw [fits.key]
      rfl
    refine ⟨t, ?_, small⟩
    simp only [index_ok there, index_ok (CompactLayer.head?_eq_some.1 found).1, index_ok rows,
      bind, Except.bind]

omit [Inhabited α] [LinearOrder α] [AddCommGroup α] in
/-- What is compacted fits its share of the budget, so the rest is what decides. -/
theorem Consistent.currentTokens (shaped : Shaped backend) {s : WorkingMemory α}
    (consistent : Consistent backend s) :
    ∃ n, s.currentTokens = .ok n ∧ n ≤ s.config.compactBudget + (s.total - s.compactEnd) := by
  obtain ⟨held, ok, small⟩ := consistent.compactPhys shaped
  refine ⟨held + s.nRecent, ?_, ?_⟩
  · simp only [WorkingMemory.currentTokens, ok, bind, Except.bind, pure, Except.pure]
  · rw [consistent.nRecent shaped]
    omega

omit [Inhabited α] [LinearOrder α] [AddCommGroup α] in
/-- The loop stops only where the budget is kept. -/
theorem Consistent.withinBudget (shaped : Shaped backend) {s : WorkingMemory α}
    (consistent : Consistent backend s)
    (done : s.overBudget = false) : WithinBudget s := by
  obtain ⟨n, ok, small⟩ := consistent.currentTokens shaped
  refine ⟨n, ok, ?_⟩
  have share := s.config.fits
  simp only [overBudget, ok, Bool.and_eq_false_iff, decide_eq_false_iff_not] at done
  simp only [WorkingMemoryConfig.compactBudget] at small
  omega

/-- The text and the configuration of `s`. -/
structure SameText (s s' : WorkingMemory α) : Prop where
  allTokens : s'.allTokens = s.allTokens
  config : s'.config = s.config

omit [Inhabited α] [LinearOrder α] [AddCommGroup α] in
theorem refreshRecent_recent {s : WorkingMemory α} (total : s.total = s.allTokens.length) :
    (refreshRecent backend s).recentRaw = recentOf backend s.allTokens s.compactEnd := by
  simp only [refreshRecent, recentOf, total, List.take_length]

omit [Inhabited α] in
/-- A compaction leaves the recent window raw. -/
theorem compactStep_ok (compacts : Compacts compactor backend) {s : WorkingMemory α}
    (consistent : Consistent backend s) (due : s.config.keepRecentTokens < s.total - s.compactEnd) :
    ∃ s', compactStep backend compactor s = .ok s' ∧ Consistent backend s' ∧ SameText s s' ∧
      s'.compactEnd = s.total - s.config.keepRecentTokens := by
  have whole := consistent.total
  have share := s.config.fits
  let newEnd := s.total - s.config.keepRecentTokens
  have cut : (s.allTokens.take newEnd).length = newEnd := by
    rw [List.length_take]
    omega
  have nonempty : s.allTokens.take newEnd ≠ [] := by
    rw [← List.length_pos_iff, cut]
    omega
  have room : 0 < s.config.compactBudget := Nat.sub_pos_of_lt share
  obtain ⟨cache, ok, logical, fits⟩ := compacts (s.allTokens.take newEnd) s.config.compactBudget
    (if compactor.needsRefQueries then
      some (backend.referenceQueries
        (s.allTokens.take newEnd) s.config.refStrategy s.config.refPerHead)
    else none) nonempty room (fun needed => by rw [if_pos needed]; rfl)
  let compacted : WorkingMemory α :=
    { s with compactMem := some (clipValues cache (backend.prefill (s.allTokens.take newEnd) 0)), compactEnd := newEnd,
             peakRecomputeTokens := max s.peakRecomputeTokens (s.allTokens.take newEnd).length }
  have recent : (refreshRecent backend compacted).recentRaw = recentOf backend s.allTokens newEnd :=
    refreshRecent_recent whole
  refine ⟨{ refreshRecent backend compacted with nCompactions := s.nCompactions + 1, version := s.version + 1 },
    ?_, ?_, ⟨rfl, rfl⟩, rfl⟩
  · simp only [compactStep, bind, Except.bind, pure, Except.pure]
    rw [ok]
    rfl
  · constructor
    case total => exact whole
    case end_le => exact Nat.sub_le _ _
    case absent =>
      have compacted_some : newEnd ≠ 0 := by omega
      exact ⟨fun none => (Option.some_ne_none _ none).elim, fun zero => absurd zero compacted_some⟩
    case compact =>
      intro mem held
      obtain rfl := Option.some.inj held
      exact ⟨logical.trans cut, clipValues_fits fits _⟩
    case recent => exact recent
    case uncompacted => exact fun none => absurd none (Nat.succ_ne_zero _)

omit [Inhabited α] in
theorem maybeCompact_done {s : WorkingMemory α} (left : s.overBudget = false) (bound : Nat) :
    maybeCompact backend compactor bound s = .ok s := by
  rw [maybeCompact, whileLoop_done (.inl (by rw [left, Bool.and_false]))]

omit [Inhabited α] in
/-- A round after which nothing is over the budget is the only one. -/
theorem maybeCompact_once {s s' : WorkingMemory α} (due : s.overBudget = true)
    (stepped : compactStep backend compactor s = .ok s') (progress : s.compactEnd < s'.compactEnd)
    (left : s'.overBudget = false) {bound : Nat} (enough : 1 ≤ bound) :
      maybeCompact backend compactor bound s = .ok s' := by
  have round : some (compactRound backend compactor { memory := s }) = some { memory := s' } := by
    rw [compactRound, stepped]
    simp only [if_neg (Nat.not_le.2 progress)]
  have enter : ((none : Option (Except Raised Unit)).isNone && s.overBudget) = true := by
    rw [due]
    rfl
  obtain ⟨bound, rfl⟩ : ∃ b, bound = b + 1 := ⟨bound - 1, by omega⟩
  have looped : whileLoop (fun r : Round α => r.stop.isNone && r.memory.overBudget)
      (fun r => some (compactRound backend compactor r)) (bound + 1) { memory := s } =
      whileLoop (fun r => r.stop.isNone && r.memory.overBudget)
        (fun r => some (compactRound backend compactor r)) bound { memory := s' } := by
    apply whileLoop_round
    · exact enter
    · exact round
  rw [maybeCompact, looped, whileLoop_done (.inl (by rw [left, Bool.and_false]))]

omit [Inhabited α] in
/-- The loop makes at most one round. -/
theorem maybeCompact_ok (shaped : Shaped backend) (compacts : Compacts compactor backend)
    {s : WorkingMemory α}
    (consistent : Consistent backend s) :
    ∃ s', (∀ bound, 1 ≤ bound → maybeCompact backend compactor bound s = .ok s') ∧
      Consistent backend s' ∧
      SameText s s' ∧ WithinBudget s' := by
  cases due : s.overBudget with
  | false =>
    exact ⟨s, fun bound _ => maybeCompact_done due bound, consistent, ⟨rfl, rfl⟩,
      consistent.withinBudget shaped due⟩
  | true =>
    obtain ⟨n, ok, -⟩ := consistent.currentTokens shaped
    -- the loop's condition asks for more raw tokens than the window keeps
    have window : s.config.keepRecentTokens < s.total - s.compactEnd := by
      simp only [overBudget, ok, Bool.and_eq_true, decide_eq_true_eq] at due
      exact due.2
    obtain ⟨s', stepped, consistent', same, newEnd⟩ := compactStep_ok compacts consistent window
    have total : s'.total = s.total := by rw [consistent'.total, consistent.total, same.allTokens]
    have progress : s.compactEnd < s'.compactEnd := by omega
    -- after the round just the window is raw, so there is no second one
    have left : s'.overBudget = false := by
      obtain ⟨n', ok', -⟩ := consistent'.currentTokens shaped
      have rest : ¬ s.config.keepRecentTokens < s'.total - s'.compactEnd := by omega
      simp only [overBudget, ok', same.config, rest, decide_false, Bool.and_false]
    exact ⟨s', fun bound enough => maybeCompact_once due stepped progress left enough,
      consistent', same,
      consistent'.withinBudget shaped left⟩

omit [Inhabited α] in
theorem append_ok (shaped : Shaped backend) (compacts : Compacts compactor backend)
    {s : WorkingMemory α}
    (consistent : Consistent backend s) (within : WithinBudget s) (tokenIds : List Int) :
    ∃ s', (∀ bound, 1 ≤ bound → append backend compactor bound s tokenIds = .ok s') ∧
      Consistent backend s' ∧
      s'.allTokens = s.allTokens ++ tokenIds ∧ s'.config = s.config ∧ WithinBudget s' := by
  by_cases empty : tokenIds = []
  · refine ⟨s, fun bound _ => ?_, consistent, by rw [empty, List.append_nil], rfl, within⟩
    rw [append, if_pos empty]
    rfl
  · let extended : WorkingMemory α := refreshRecent backend
      { s with allTokens := s.allTokens ++ tokenIds, total := (s.allTokens ++ tokenIds).length }
    have extended_consistent : Consistent backend extended := by
      constructor
      case total => rfl
      case end_le =>
        have := consistent.end_le
        have := consistent.total
        simp only [extended, refreshRecent, List.length_append]
        omega
      case absent => exact consistent.absent
      case compact => exact consistent.compact
      case recent => exact refreshRecent_recent rfl
      case uncompacted => exact consistent.uncompacted
    -- recording a peak leaves the rest as it is
    have peaked : ∀ {s : WorkingMemory α}, Consistent backend s →
        ∃ s', s.recordPeak = .ok s' ∧ Consistent backend s' ∧ SameText s s' ∧
          (WithinBudget s → WithinBudget s') := by
      intro s consistent
      obtain ⟨n, ok, -⟩ := consistent.currentTokens shaped
      refine ⟨{ s with peakTokens := max s.peakTokens n }, ?_, { consistent with }, ⟨rfl, rfl⟩, id⟩
      simp only [recordPeak, ok, bind, Except.bind, pure, Except.pure]
    obtain ⟨s₁, peak₁, consistent₁, same₁, -⟩ := peaked extended_consistent
    obtain ⟨s₂, compacted, consistent₂, same₂, within₂⟩ :=
      maybeCompact_ok shaped compacts consistent₁
    obtain ⟨s₃, peak₃, consistent₃, same₃, within₃⟩ := peaked consistent₂
    refine ⟨s₃, fun bound enough => ?_, consistent₃, ?_, ?_, within₃ within₂⟩
    · rw [append, if_neg empty]
      change (extended.recordPeak >>= _) = _
      rw [peak₁]
      change (maybeCompact backend compactor bound s₁ >>= _) = _
      rw [compacted bound enough]
      exact peak₃
    · rw [same₃.allTokens, same₂.allTokens, same₁.allTokens]
      rfl
    · rw [same₃.config, same₂.config, same₁.config]
      rfl

/-! ## Runs -/

omit [Inhabited α] [LinearOrder α] [AddCommGroup α] in
theorem new_ok {budget keep : Int} {strategy : String} {perHead : Int} {s : WorkingMemory α}
    (accepted : new budget keep strategy perHead = .ok s) (backend : ModelBackend α) :
    Consistent backend s ∧ WithinBudget s ∧ s.allTokens = [] ∧
      (s.config.budgetTokens : Int) = budget := by
  unfold new at accepted
  split at accepted
  · cases accepted
  · split at accepted
    · cases accepted
    · obtain rfl := Except.ok.inj accepted
      refine ⟨?_, ⟨0, rfl, Nat.zero_le _⟩, rfl, Int.toNat_of_nonneg (by omega)⟩
      constructor
      case total => rfl
      case end_le => exact Nat.zero_le _
      case absent => exact ⟨fun _ => rfl, fun _ => rfl⟩
      case compact => exact fun mem held => by cases held
      case recent => rfl
      case uncompacted => exact fun _ => rfl

omit [Inhabited α] in
theorem appendAll_ok (shaped : Shaped backend) (compacts : Compacts compactor backend)
    {s : WorkingMemory α}
    (consistent : Consistent backend s) (within : WithinBudget s) (calls : List (List Int)) :
    ∃ s', (∀ bound, 1 ≤ bound → appendAll backend compactor bound s calls = .ok s') ∧
      Consistent backend s' ∧
      s'.allTokens = s.allTokens ++ calls.flatten ∧ s'.config = s.config ∧ WithinBudget s' := by
  induction calls generalizing s with
  | nil => exact ⟨s, fun _ _ => rfl, consistent, by simp, rfl, within⟩
  | cons tokens calls ih =>
    obtain ⟨s₁, first, consistent₁, text₁, config₁, within₁⟩ :=
      append_ok shaped compacts consistent within tokens
    obtain ⟨s₂, rest, consistent₂, text₂, config₂, within₂⟩ := ih consistent₁ within₁
    refine ⟨s₂, fun bound enough => ?_, consistent₂, ?_, config₂.trans config₁, within₂⟩
    · rw [appendAll, List.foldlM_cons, first bound enough]
      exact rest bound enough
    · rw [text₂, text₁, List.flatten_cons, List.append_assoc]

/-! ## The fused cache -/

omit [LinearOrder α] [AddCommGroup α] in
theorem concatenate_headOf {a b : NDArray α} {t heads n d h : Nat} (compact : a.shape = [t, d])
    (raw : b.shape = [heads, n, d]) (inside : h < heads) :
    ∃ row c, headOf b h = .ok row ∧ concatenate a row = .ok c ∧ c.shape = [t + n, d] := by
  obtain ⟨row, found, shape⟩ := headOf_ok raw inside
  obtain ⟨c, joined, joinedShape, -⟩ := NDArray.concat_eq_some compact shape
  exact ⟨row, c, found, by rw [concatenate, joined], joinedShape⟩

omit [LinearOrder α] in
/-- The recent window follows what the head kept of the prefix. -/
theorem fusedHead_ok {cl : CompactLayer α} {rl : LayerKV α} {rr : KVCache α}
    {heads d t h lo hi : Nat}
    {head : CompactHead α} (found : cl.head? h = some head) (fits : HeadFits d t lo head)
    (keyShape : rl.key.shape = [heads, rr.seqLen, d])
    (valueShape : rl.value.shape = [heads, rr.seqLen, d])
    (inside : h < heads) (recent : rr.positions = arange lo hi) (order : lo ≤ hi) :
    ∃ fused, fusedHead cl rl rr h = .ok fused ∧ fused.positions = head.positions ++ arange lo hi ∧
      HeadFits d (t + rr.seqLen) hi fused := by
  obtain ⟨key, value, biases, positions⟩ := CompactLayer.head?_eq_some.1 found
  obtain ⟨keyRow, keys, keyHead, keyJoined, keyRows⟩ := concatenate_headOf fits.key keyShape inside
  obtain ⟨valueRow, values, valueHead, valueJoined, valueRows⟩ :=
    concatenate_headOf fits.value valueShape inside
  refine ⟨⟨keys, values, head.biases ++ List.replicate rr.seqLen 0, head.positions ++ arange lo hi⟩,
    ?_, rfl, ?_⟩
  · simp only [fusedHead, index_ok key, index_ok value, index_ok biases, index_ok positions,
      keyHead, keyJoined,
      valueHead, valueJoined, recent, bind, Except.bind, pure, Except.pure]
  · constructor
    case key => exact keyRows
    case value => exact valueRows
    case biases => simp [fits.biases]
    case positions => simp [fits.positions, KVCache.seqLen, recent]
    case increasing =>
      refine List.pairwise_append.2 ⟨fits.increasing, pairwise_arange lo hi, fun p kept q raw => ?_⟩
      have := fits.below p kept
      have := (mem_arange.1 raw).1
      omega
    case below =>
      intro p member
      cases List.mem_append.1 member with
      | inl kept =>
        have := fits.below p kept
        omega
      | inr raw => exact (mem_arange.1 raw).2

omit [LinearOrder α] in
theorem fusedLayer_ok (shaped : Shaped backend) {cm : CompactCache α} {size : Nat}
    (fits : CacheFits backend.spec size cm) {tokens : List Int} {hi l : Nat}
    (ltLayer : l < backend.spec.nLayers)
    (length : hi = cm.logicalLength + tokens.length) :
    ∃ layer, fusedLayer backend cm (backend.prefill tokens cm.logicalLength) l = .ok layer ∧
      ∀ h < backend.spec.nKvHeads, ∃ kept fused t, layer.head? h = some fused ∧
        fused.positions = kept ++ arange cm.logicalLength hi ∧
          HeadFits backend.spec.headDim t hi fused := by
  have inside : l < (backend.prefill tokens cm.logicalLength).layers.length := by
    rwa [shaped.layers_length]
  have raw := List.getElem?_eq_getElem inside
  have shape := shaped.layer_shape tokens cm.logicalLength _ (List.getElem_mem inside)
  rw [← shaped.seqLen tokens cm.logicalLength] at shape
  have recent := shaped.positions tokens cm.logicalLength
  rw [← length] at recent
  obtain ⟨layer, _, there, -⟩ := fits l ltLayer 0 shaped.head
  have each : ∀ h ∈ List.range backend.spec.nKvHeads, ∃ fused,
      fusedHead layer (backend.prefill tokens cm.logicalLength).layers[l]
        (backend.prefill tokens cm.logicalLength) h =
        .ok fused ∧ ∃ kept t, fused.positions = kept ++ arange cm.logicalLength hi ∧
          HeadFits backend.spec.headDim t hi fused := by
    intro h member
    have ltHead := List.mem_range.1 member
    obtain ⟨layer', head, there', found, t, -, headFits⟩ := fits l ltLayer h ltHead
    obtain rfl := Option.some.inj (there.symm.trans there')
    obtain ⟨fused, ok, positions, fused_fits⟩ :=
      fusedHead_ok found headFits shape.1 shape.2 ltHead recent (by omega)
    exact ⟨fused, ok, head.positions, _, positions, fused_fits⟩
  obtain ⟨heads, ok, related⟩ := Fallible.mapM_ok each
  refine ⟨.ofHeads heads, ?_, fun h ltHead => ?_⟩
  · simp only [fusedLayer, index_ok there, index_ok raw, ok, bind, Except.bind, pure, Except.pure]
  · obtain ⟨fused, made, kept, t, positions, fused_fits⟩ :=
      forall₂_getElem? related (List.getElem?_range ltHead)
    exact ⟨kept, fused, t, by rw [CompactLayer.head?_ofHeads, made], positions, fused_fits⟩

/-- A cache that stands for the whole text: increasing positions on each head, the raw ones
    among them, and the next token in its place. -/
structure Covers (backend : ModelBackend α) (s : WorkingMemory α) (ctx : ContextCache α) :
    Prop where
  logicalLength : ctx.logicalLength = s.total
  positions : ∀ l < backend.spec.nLayers, ∀ h < backend.spec.nKvHeads,
    ∃ ps, ctx.positionsAt l h = some ps ∧ ps.Pairwise (· < ·) ∧ arange s.compactEnd s.total <:+ ps

omit [Inhabited α] [LinearOrder α] [AddCommGroup α] in
theorem covers_raw (shaped : Shaped backend) {s : WorkingMemory α}
    (consistent : Consistent backend s)
    (uncompacted : s.compactEnd = 0) : Covers backend s (.raw (backend.prefill s.allTokens 0)) := by
  have positions := shaped.positions s.allTokens 0
  rw [Nat.zero_add, ← consistent.total] at positions
  refine ⟨(shaped.seqLen s.allTokens 0).trans consistent.total.symm, fun l ltLayer h _ => ?_⟩
  have inside : l < (backend.prefill s.allTokens 0).layers.length := by rwa [shaped.layers_length]
  refine ⟨arange 0 s.total, ?_, pairwise_arange 0 s.total, ?_⟩
  · rw [ContextCache.positionsAt, List.getElem?_eq_getElem inside, positions]
    rfl
  · rw [uncompacted]

omit [Inhabited α] [LinearOrder α] [AddCommGroup α] in
theorem covers_compact {s : WorkingMemory α} {mem : CompactCache α} {size : Nat}
    (logical : mem.logicalLength = s.compactEnd)
    (fits : CacheFits backend.spec size mem) (all : s.compactEnd = s.total) :
      Covers backend s (.compact mem) := by
  refine ⟨logical.trans all, fun l ltLayer h ltHead => ?_⟩
  obtain ⟨layer, head, there, found, t, -, headFits⟩ := fits l ltLayer h ltHead
  have positions := (CompactLayer.head?_eq_some.1 found).2.2.2
  refine ⟨head.positions, ?_, headFits.increasing, ?_⟩
  · simp only [ContextCache.positionsAt, there, bind, Option.bind, positions]
  · simp [all, arange]

omit [LinearOrder α] in
theorem combined_ok (shaped : Shaped backend) {s : WorkingMemory α}
    (consistent : Consistent backend s)
    (nonempty : s.allTokens ≠ []) :
    ∃ ctx, s.combined backend = .ok ctx ∧ Covers backend s ctx ∧
      (s.nCompactions = 0 → ctx = .raw (backend.prefill s.allTokens 0)) := by
  have whole := consistent.total
  have inText := consistent.end_le
  cases held : s.compactMem with
  | none =>
    have uncompacted := consistent.absent.1 held
    have raw : s.recentRaw = some (backend.prefill s.allTokens 0) := by
      rw [consistent.recent, recentOf, uncompacted, List.drop_zero, if_neg nonempty]
    refine ⟨.raw (backend.prefill s.allTokens 0), ?_, covers_raw shaped consistent uncompacted,
      fun _ => rfl⟩
    simp only [combined, held, raw, pure, Except.pure]
  | some mem =>
    obtain ⟨logical, fits⟩ := consistent.compact mem held
    have compacted : s.nCompactions ≠ 0 := by
      intro never
      have absent := consistent.absent.2 (consistent.uncompacted never)
      rw [held] at absent
      cases absent
    cases recent : s.recentRaw with
    | none =>
      -- without a recent window everything was compacted
      have drained : s.allTokens.drop s.compactEnd = [] := by
        have recentOf_none := consistent.recent
        rw [recent, recentOf] at recentOf_none
        split at recentOf_none
        · assumption
        · cases recentOf_none
      have all : s.compactEnd = s.total := by
        have := List.drop_eq_nil_iff.1 drained
        omega
      refine ⟨.compact mem, ?_, covers_compact logical fits all,
        fun never => absurd never compacted⟩
      simp only [combined, held, recent, pure, Except.pure]
    | some rr =>
      have present := consistent.recent.symm.trans recent
      obtain ⟨rfl, inside, positions⟩ := recentOf_positions shaped present
      -- compacted tokens and raw ones are the whole text
      have length : s.total = mem.logicalLength + (s.allTokens.drop s.compactEnd).length := by
        rw [List.length_drop, logical]
        omega
      have window : (backend.prefill (s.allTokens.drop s.compactEnd) s.compactEnd).seqLen ≠ 0 := by
        rw [shaped.seqLen, List.length_drop]
        omega
      have each : ∀ l ∈ List.range backend.spec.nLayers, ∃ layer,
          fusedLayer backend mem (backend.prefill (s.allTokens.drop s.compactEnd) s.compactEnd) l =
            .ok layer ∧
          ∀ h < backend.spec.nKvHeads, ∃ kept fused t, layer.head? h = some fused ∧
            fused.positions = kept ++ arange s.compactEnd s.total ∧
              HeadFits backend.spec.headDim t s.total fused := by
        intro l member
        rw [← logical]
        rw [← logical] at length
        exact fusedLayer_ok shaped fits (List.mem_range.1 member) length
      obtain ⟨layers, fused, related⟩ := Fallible.mapM_ok each
      refine ⟨.compact { spec := backend.spec, layers, logicalLength := s.total, method := "working_memory",
                         metadata := Dict.ofList [("compact_end", .int s.compactEnd)] },
                           ?_, ⟨rfl, ?_⟩,
        fun never => absurd never compacted⟩
      · simp only [combined, held, recent, if_neg window, fused, bind, Except.bind,
          pure, Except.pure]
      · intro l ltLayer h ltHead
        obtain ⟨layer, there, heads⟩ := forall₂_getElem? related (List.getElem?_range ltLayer)
        obtain ⟨kept, head, t, found, split, headFits⟩ := heads h ltHead
        have read := (CompactLayer.head?_eq_some.1 found).2.2.2
        refine ⟨head.positions, ?_, headFits.increasing, split ▸ List.suffix_append kept _⟩
        simp only [ContextCache.positionsAt, there, bind, Option.bind, read]

/-- Over a compactor that honours its budget, every sequence of appends ends, after at most one
    compaction each, with the working set within the budget and no position lost. -/
theorem workingMemory_within_budget (shaped : Shaped backend)
    (compacts : Compacts compactor backend)
    {budget keep : Int} {strategy : String} {perHead : Int} {start : WorkingMemory α}
    (accepted : new budget keep strategy perHead = .ok start) (calls : List (List Int)) :
    ∃ s : WorkingMemory α,
      (∀ bound, 1 ≤ bound → appendAll backend compactor bound start calls = .ok s) ∧
      s.compactEnd ≤ s.total ∧ s.total = calls.flatten.length ∧
        (s.compactMem = none ↔ s.compactEnd = 0) ∧
      s.recentRaw = recentOf backend calls.flatten s.compactEnd ∧
      (∀ kv, s.recentRaw = some kv → kv.positions = arange s.compactEnd s.total) ∧
      (∃ n, s.currentTokens = .ok n ∧ (n : Int) ≤ budget) ∧
      (calls.flatten ≠ [] → ∃ ctx, s.combined backend = .ok ctx ∧ Covers backend s ctx ∧
        (s.nCompactions = 0 → ctx = .raw (backend.prefill calls.flatten 0))) := by
  obtain ⟨fresh, within, none, accepted_budget⟩ := new_ok accepted backend
  obtain ⟨s, ran, consistent, text, config, n, current, small⟩ :=
    appendAll_ok shaped compacts fresh within calls
  rw [none, List.nil_append] at text
  refine ⟨s, ran, consistent.end_le, text ▸ consistent.total, consistent.absent,
    text ▸ consistent.recent, ?_, ?_, ?_⟩
  · intro kv present
    rw [consistent.total]
    exact (recentOf_positions shaped (consistent.recent.symm.trans present)).2.2
  · refine ⟨n, current, ?_⟩
    rw [config] at small
    omega
  · intro nonempty
    rw [← text] at nonempty ⊢
    exact combined_ok shaped consistent nonempty

end WorkingMemory

/-! ## A backend that can be run -/

open Dexa.Segments

def sumBackend : ModelBackend Int where
  spec := sumModel.spec
  prefill tokens offset := sumModel.prefill tokens offset
  referenceQueries _ _ _ := { spec := sumModel.spec, layers := [] }

theorem sumBackend_shaped : Shaped sumBackend where
  layer := by decide
  head := by decide
  spec _ _ := rfl
  positions _ _ := rfl
  layers_length _ _ := rfl
  layer_shape tokens offset l member := by
    have layers : (sumBackend.prefill tokens offset).layers =
        [⟨column (runningSums 0 tokens), column (runningSums 0 tokens)⟩] := rfl
    rw [layers, List.mem_singleton] at member
    subst member
    simp [column, sumBackend, sumModel]

namespace WorkingMemory

theorem workingMemory_within_budget_of_three :
    ∃ s : WorkingMemory Int,
      (∀ bound, 1 ≤ bound → appendAll sumBackend recentWindow bound
        { config := { budgetTokens := 3, keepRecentTokens := 1, refStrategy := "repeat_prefill", refPerHead := 128,
                      fits := by decide } } [[1, 2], [], [3, 4, 5]] = .ok s) ∧
      s.total = 5 ∧ (∃ n, s.currentTokens = .ok n ∧ n ≤ 3) ∧ ∃ ctx,
        s.combined sumBackend = .ok ctx ∧
        Covers sumBackend s ctx := by
  have accepted : (new 3 1 "repeat_prefill" 128 : Except Raised (WorkingMemory Int)) = .ok _ := rfl
  obtain ⟨s, ran, -, total, -, -, -, ⟨n, current, small⟩, fused⟩ :=
    workingMemory_within_budget sumBackend_shaped
    (recentWindow_compacts sumBackend_shaped) accepted [[1, 2], [], [3, 4, 5]]
  obtain ⟨ctx, combined, covers, -⟩ := fused (by decide)
  exact ⟨s, ran, total, ⟨n, current, by omega⟩, ctx, combined, covers⟩

end WorkingMemory

end Dexa.Memory
