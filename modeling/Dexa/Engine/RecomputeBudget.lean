import Dexa.Engine.SelectiveBlend

/-! # What the recompute budget is spent on

The budget is a fraction of the hull of the candidates, and only `hkvd` sees which tokens of the
hull are masked.  The selection is the head of a ranking that does not depend on the fraction, so
more budget keeps what less has recomputed.
-/

namespace Dexa.Engine.HFBackend

open Dexa.Core Dexa.Lib Dexa.Segments

variable {α τ Λ : Type}

section Candidates

variable {δ : Type} [DecidableEq δ] (hashTokens : List Int → δ) (prev new : SegmentedContext)

/-- The tokens of the shifted segments. -/
def candidates : List Nat :=
  positionsOf .reuseShifted (planIncremental hashTokens (some prev) new .selective)

theorem candidates_nodup : (candidates hashTokens prev new).Nodup := by
  have tiles := (planIncremental_tiles hashTokens prev new .selective).flatMap_range'
  rw [List.flatMap_map] at tiles
  have all : ((planIncremental hashTokens (some prev) new .selective).items.flatMap fun it =>
      List.range' it.newSpan.1 (it.newSpan.2 - it.newSpan.1)).Nodup := by
    rw [tiles]
    exact List.nodup_range'
  exact all.sublist (List.filter_sublist.flatMap _)

end Candidates

/-- Of the hull's tokens as many are candidates as there are. -/
theorem countP_hull {candidate : List Nat} {lo last : Nat} (nodup : candidate.Nodup)
    (hull : ∀ i ∈ candidate, lo ≤ i ∧ i ≤ last) :
    (List.range (last + 1 - lo)).countP (fun j => lo + j ∈ candidate) = candidate.length := by
  rw [List.countP_eq_length_filter, ← List.length_map (f := (lo + ·))]
  apply List.Perm.length_eq
  apply (List.perm_ext_iff_of_nodup ?_ nodup).2
  · intro i
    simp only [List.mem_map, List.mem_filter, List.mem_range, decide_eq_true_eq]
    constructor
    · rintro ⟨j, ⟨-, member⟩, rfl⟩
      exact member
    · intro member
      have inside := hull i member
      have column : lo + (i - lo) = i := by omega
      exact ⟨i - lo, ⟨by omega, column.symm ▸ member⟩, column⟩
  · exact (List.nodup_range.filter _).map (add_right_injective lo)

section Budget

variable [Inhabited α] [Field α] [LinearOrder α] [IsStrictOrderedRing α] [FloorRing α]
  {np : Numpy α}
variable {reused correct : KVCache α} {candidate : List Nat} {lo last : Nat} {select : String}
  {devLayers : Option Int}

omit [LinearOrder α] [IsStrictOrderedRing α] [FloorRing α] in
/-- A token of the hull has a deviation exactly if it is a candidate. -/
theorem getD_maskedDeviation {j : Nat} (inside : j < last + 1 - lo) :
    (maskedDeviation np reused correct candidate lo last devLayers).getD j ⊥ = ⊥ ↔
      lo + j ∉ candidate := by
  have length : j < (perTokenKvDeviation np reused correct lo (last + 1) devLayers).length := by
    simpa [perTokenKvDeviation] using inside
  rw [maskedDeviation, List.getD_eq_getElem?_getD, List.getElem?_map, List.getElem?_zipIdx,
    List.getElem?_eq_getElem length]
  by_cases member : lo + j ∈ candidate <;> simp [member]

omit [IsStrictOrderedRing α] [FloorRing α] in
/-- By deviation the candidates come first. -/
theorem hkvd_candidates_first (argsorts : np.Argsorts) :
    (ranking np "hkvd" (maskedDeviation np reused correct candidate lo last devLayers)).Pairwise
      fun i j => lo + j ∈ candidate → lo + i ∈ candidate := by
  have perm :=
    ranking_perm argsorts "hkvd" (maskedDeviation np reused correct candidate lo last devLayers)
  rw [length_maskedDeviation] at perm
  have descends :=
    List.pairwise_reverse.2
      (argsorts.sorted (maskedDeviation np reused correct candidate lo last devLayers))
  refine List.Pairwise.imp_of_mem ?_ descends
  intro i j here there le member
  have inside := List.mem_range.1 (perm.mem_iff.1 here)
  have inside' := List.mem_range.1 (perm.mem_iff.1 there)
  -- a masked token has the least deviation, so it cannot stand before a candidate
  by_contra masked
  rw [(getD_maskedDeviation inside).2 masked, le_bot_iff] at le
  exact (getD_maskedDeviation inside').1 le member

/-- The selection is what is bought of the hull, in the strategy's order, and this is of the
    candidates. -/
def SpentOnCandidates (candidate : List Nat) (frac : α) (select : String) : Prop :=
  ∀ lo last, candidate.min? = some lo → candidate.max? = some last →
    ⌈frac * ((last + 1 - lo : Nat) : α)⌉ = ⌈frac * (candidate.length : α)⌉ ∧
    (select = "recent" →
      ∀ j ∈ (List.range (last + 1 - lo)).reverse.take ⌈frac * (candidate.length : α)⌉.toNat,
      lo + j ∈ candidate) ∧
    (select = "random" →
      ∀ j ∈ (hashOrder (last + 1 - lo)).take ⌈frac * (candidate.length : α)⌉.toNat,
      lo + j ∈ candidate)

theorem selection_spent_iff (argsorts : np.Argsorts) (known : select ∈ strategies)
    (nodup : candidate.Nodup) {frac : α}
    (nonneg : 0 ≤ frac) (unit : frac ≤ 1) {sel : List Nat}
    (selected : selectCandidates np reused correct candidate frac select devLayers = some sel) :
    ((∀ t ∈ sel, t ∈ candidate) ∧ (sel.length : Int) = ⌈frac * (candidate.length : α)⌉) ↔
      SpentOnCandidates candidate frac select := by
  by_cases nonempty : candidate = []
  · subst nonempty
    cases selected
    simp [SpentOnCandidates]
  · obtain ⟨lo, last, least, greatest, hull⟩ := exists_hull nonempty
    obtain ⟨sel', selected', mem, length⟩ := selectCandidates_hull np reused correct known
      least greatest frac devLayers
    cases selected.symm.trans selected'
    have perm :=
      ranking_perm argsorts select (maskedDeviation np reused correct candidate lo last devLayers)
    have counted := perm.countP_eq fun j => decide (lo + j ∈ candidate)
    have bought := budget_eq_ceil nonneg unit (last + 1 - lo)
    have due := budget_eq_ceil nonneg unit candidate.length
    have atMost := budget_le frac (last + 1 - lo)
    have ranks := perm.length_eq
    rw [length_maskedDeviation] at counted ranks
    rw [List.length_range] at ranks
    rw [countP_hull nodup hull] at counted
    rw [ranks, Nat.min_eq_left atMost] at length
    -- the selection lies within the candidates exactly if the head of the ranking does
    have within : (∀ t ∈ sel, t ∈ candidate) ↔
        ∀ j ∈ (ranking np select
          (maskedDeviation np reused correct candidate lo last devLayers)).take
          (budget frac (last + 1 - lo)), lo + j ∈ candidate := by
      constructor
      · intro all j taken
        exact all (lo + j) ((mem _).2 ⟨j, taken, Nat.add_comm j lo⟩)
      · intro all t member
        obtain ⟨j, taken, rfl⟩ := (mem t).1 member
        exact Nat.add_comm lo j ▸ all j taken
    rw [within, length, bought]
    constructor
    -- the hull's ends are the only ones
    · rintro ⟨all, same⟩ lo' last' least' greatest'
      cases least.symm.trans least'
      cases greatest.symm.trans greatest'
      have amount : budget frac (last + 1 - lo) = ⌈frac * (candidate.length : α)⌉.toNat := by omega
      rw [amount] at all
      refine ⟨same, ?_, ?_⟩
      · rintro rfl
        simpa [ranking] using all
      · rintro rfl
        simpa [ranking] using all
    · intro spent
      obtain ⟨same, recent, random⟩ := spent lo last least greatest
      have amount : budget frac (last + 1 - lo) = ⌈frac * (candidate.length : α)⌉.toNat := by omega
      refine ⟨?_, same⟩
      simp only [strategies, List.mem_cons, List.not_mem_nil, or_false] at known
      obtain rfl | rfl | rfl := known
      -- there are enough candidates to fill the head of the ranking
      · apply forall_mem_take_of_antitone (hkvd_candidates_first argsorts)
        have affordable := budget_le frac candidate.length
        omega
      · simpa [ranking, amount] using recent rfl
      · simpa [ranking, amount] using random rfl

end Budget

section Shapes

variable [Inhabited α] [Field α] {b : HFBackend α τ Λ} {prev : SegmentedContext}

/-- A write through a slice keeps the shapes. -/
theorem assembleItem_sameShape {β : Type} [Inhabited β] [Zero β] [Neg β] {number : β → α}
    {prevLayers : List (LayerKV β)}
    {layers layers' : List (LayerKV α)} {it : SegmentPlanItem}
    (length : layers.length ≤ b.model.spec.nLayers)
    (done : b.assembleItem number prevLayers prev layers it = some layers') :
      SameShape layers' layers := by
  unfold assembleItem at done
  split at done
  · cases done
    exact List.forall₂_same.2 fun l _ => ⟨rfl, rfl⟩
  · obtain ⟨j, -, done⟩ := Option.bind_eq_some_iff.1 done
    obtain ⟨span, -, done⟩ := Option.bind_eq_some_iff.1 done
    have made := Fallible.mapM_eq_some_iff.1 done
    have all : layers'.length = b.model.spec.nLayers := by rw [← made.length_eq, List.length_range]
    -- a layer that was written has the shape of the one it was written into
    have layer : ∀ {li : Nat} {l' : LayerKV α}, layers'[li]? = some l' → ∃ l, layers[li]? = some l ∧
        l'.key.shape = l.key.shape ∧ l'.value.shape = l.value.shape := by
      intro li l' there
      obtain ⟨k, at_, here⟩ := forall₂_getElem? made.flip there
      obtain ⟨inside, rfl⟩ := List.getElem?_eq_some_iff.1 at_
      rw [List.getElem_range] at here
      obtain ⟨l, present, here⟩ := Option.bind_eq_some_iff.1 here
      obtain ⟨q, -, here⟩ := Option.bind_eq_some_iff.1 here
      obtain ⟨key, keyDone, here⟩ := Option.bind_eq_some_iff.1 here
      obtain ⟨value, valueDone, here⟩ := Option.bind_eq_some_iff.1 here
      cases here
      exact ⟨l, present, NDArray.shape_of_assignAxis1 keyDone,
        NDArray.shape_of_assignAxis1 valueDone⟩
    apply List.forall₂_iff_get.2
    constructor
    -- the loop reads a layer at each index of the model
    · by_contra shorter
      obtain ⟨l, present, -⟩ :=
        layer (List.getElem?_eq_getElem (show layers.length < layers'.length by omega))
      exact absurd (List.getElem?_eq_some_iff.1 present).1 (lt_irrefl _)
    · intro li inside inside'
      obtain ⟨l, present, shapes⟩ := layer (List.getElem?_eq_getElem inside)
      obtain ⟨_, rfl⟩ := List.getElem?_eq_some_iff.1 present
      exact shapes

omit [Inhabited α] [Field α] in
theorem sameShape_trans {layers layers' layers'' : List (LayerKV α)}
    (first : SameShape layers layers')
    (second : SameShape layers' layers'') : SameShape layers layers'' := by
  apply List.forall₂_iff_get.2
  refine ⟨first.length_eq.trans second.length_eq, ?_⟩
  intro li inside inside''
  have inside' : li < layers'.length := first.length_eq ▸ inside
  obtain ⟨key, value⟩ := first.get inside inside'
  obtain ⟨key', value'⟩ := second.get inside' inside''
  exact ⟨key.trans key', value.trans value'⟩

/-- Whatever the previous cache is, what is assembled has the reference's shapes. -/
theorem assembleReused_sameShape {prevKV : HostKV α} {correct reused : KVCache α}
    {plan : RecomputePlan}
    (length : correct.layers.length ≤ b.model.spec.nLayers)
    (done : b.assembleReused prevKV correct plan prev = some reused) :
      SameShape reused.layers correct.layers := by
  have start : SameShape correct.layers correct.layers := List.forall₂_same.2 fun l _ => ⟨rfl, rfl⟩
  -- whatever type the previous cache has
  have keeps : ∀ {β : Type} [Inhabited β] [Zero β] [Neg β] (number : β → α)
    (prevLayers : List (LayerKV β)) s it s',
      SameShape s correct.layers → b.assembleItem number prevLayers prev s it = some s' →
        SameShape s' correct.layers := by
    intro β _ _ _ number prevLayers s it s' same step
    exact sameShape_trans (assembleItem_sameShape (same.length_eq ▸ length) step) same
  cases prevKV with
  | float32 kv =>
    obtain ⟨layers, assembled, rfl⟩ : ∃ layers, _ = some layers ∧ _ := by
      simpa [assembleReused, Option.bind_eq_some_iff] using done
    exact Fallible.foldlM_some_invariant (keeps id kv.layers) start assembled
  | uint16 kv =>
    obtain ⟨layers, assembled, rfl⟩ : ∃ layers, _ = some layers ∧ _ := by
      simpa [assembleReused, Option.bind_eq_some_iff] using done
    exact Fallible.foldlM_some_invariant (keeps _ kv.layers) start assembled

omit [Inhabited α] [Field α] in
theorem length_prefill_layers (b : HFBackend α τ Λ) (tokens : List Int) :
    (b.prefill tokens).layers.length ≤ b.model.spec.nLayers := by
  simp [prefill, toHost, KVCache.mapElems, Model.prefill, Model.cacheToKVCache]

end Shapes

/-! ## The call spends its budget on candidates, or not -/

section Call

variable [Inhabited α] [Field α] [LinearOrder α] [IsStrictOrderedRing α] [FloorRing α]
  {np : Numpy α}
variable {δ : Type} [DecidableEq δ] {hashTokens : List Int → δ} {b : HFBackend α τ Λ}
  {prevKV : HostKV α}
variable {prev new : SegmentedContext} {select : String} {devLayers : Option Int}
  {result : HostKV α × SelectiveStats}

/-- A call with a fraction of at most the whole selects candidates only, and as many as the fraction
    of them, exactly if what it buys of the hull is that many and, for the strategies blind to the
    mask, is of candidates. -/
theorem selection_on_candidates_iff (argsorts : np.Argsorts) (known : select ∈ strategies)
    {recomputeFrac : α}
    (nonneg : 0 ≤ recomputeFrac) (unit : recomputeFrac ≤ 1)
    (returned : b.recomputeSelective hashTokens np prevKV prev new recomputeFrac select devLayers =
      some result) :
    ∃ reused sel,
      SelectiveCall b hashTokens np prevKV prev new recomputeFrac select devLayers reused sel ∧
      selectiveResult b hashTokens prevKV prev new select reused sel = result ∧
      (((∀ t ∈ sel, t ∈ candidates hashTokens prev new) ∧
          (sel.length : Int) = ⌈recomputeFrac * ((candidates hashTokens prev new).length : α)⌉ ∧
          result.2.selectedFromCandidates ≤ result.2.candidateTokens) ↔
        SpentOnCandidates (candidates hashTokens prev new) recomputeFrac select) := by
  obtain ⟨reused, sel, call, rfl⟩ := recomputeSelective_eq_some_iff.1 returned
  refine ⟨reused, sel, call, rfl, ?_⟩
  have spent :=
    selection_spent_iff argsorts known
      (candidates_nodup hashTokens prev new) nonneg unit call.selected
  rw [← spent]
  constructor
  · rintro ⟨within, length, -⟩
    exact ⟨within, length⟩
  · rintro ⟨within, length⟩
    have due := budget_eq_ceil nonneg unit (candidates hashTokens prev new).length
    have atMost := budget_le recomputeFrac (candidates hashTokens prev new).length
    have never : sel.length ≤ (candidates hashTokens prev new).length := by omega
    exact ⟨within, length, never⟩

end Call

/-- Two documents around an edit. -/
def before : SegmentedContext :=
  ⟨[⟨"sys", [1], "system"⟩, ⟨"a", [2], "context"⟩, ⟨"x", [3], "context"⟩, ⟨"b", [4], "context"⟩]⟩

/-- The prompt and the text between the documents are edited. -/
def after : SegmentedContext :=
  ⟨[⟨"sys", [9], "system"⟩, ⟨"a", [2], "context"⟩, ⟨"x", [7], "context"⟩, ⟨"b", [4], "context"⟩]⟩

theorem candidates_after : candidates (id : List Int → List Int) before after = [1, 3] := by decide

/-- A third of two tokens is one, and of their hull too. -/
theorem selection_on_candidates_third :
    ∃ result, sumsOnDevice.recomputeSelective (id : List Int → List Int) (.stable id)
        (.float32 (sumsOnDevice.prefill before.tokenIds)) before after (1 / 3) "hkvd" none =
          some result ∧
      ∃ reused sel, SelectiveCall sumsOnDevice (id : List Int → List Int) (.stable id)
          (.float32 (sumsOnDevice.prefill before.tokenIds)) before after
            (1 / 3) "hkvd" none reused sel ∧
        (∀ t ∈ sel, t = 1 ∨ t = 3) ∧ sel.length = 1 := by
  have known : "hkvd" ∈ strategies := by simp [strategies]
  obtain ⟨reused, sel, call, -⟩ :=
    exists_call (.stable id) sumModel_causal (b := sumsOnDevice) Function.injective_id known before
    after (1 / 3) none
  have returned := recomputeSelective_eq_some_iff.2 ⟨reused, sel, call, rfl⟩
  obtain ⟨reused, sel, call, -, spent⟩ :=
    selection_on_candidates_iff (Numpy.stable_argsorts id) known (by norm_num) (by norm_num)
    returned
  rw [candidates_after] at spent
  have spends : SpentOnCandidates [1, 3] (1 / 3 : ℚ) "hkvd" := by
    intro lo last least greatest
    cases least
    cases greatest
    exact ⟨by decide +kernel, by simp, by simp⟩
  obtain ⟨within, length, -⟩ := spent.2 spends
  have one : ⌈(1 / 3 : ℚ) * (([1, 3] : List Nat).length : ℚ)⌉ = 1 := by decide +kernel
  rw [one] at length
  exact ⟨_, returned, reused, sel, call, by simpa using within, by omega⟩

/-- With the whole fraction three tokens are selected of two candidates. -/
theorem selection_past_candidates :
    ∃ result, sumsOnDevice.recomputeSelective (id : List Int → List Int) (.stable id)
        (.float32 (sumsOnDevice.prefill before.tokenIds)) before after 1 "hkvd" none = some result ∧
      result.2.candidateTokens = 2 ∧ result.2.selectedFromCandidates = 3 := by
  have known : "hkvd" ∈ strategies := by simp [strategies]
  obtain ⟨reused, sel, call, -⟩ :=
    exists_call (.stable id) sumModel_causal (b := sumsOnDevice) Function.injective_id known before
    after 1 none
  have positions :
    positionsOf .reuseShifted
    (planIncremental (id : List Int → List Int) (some before) after .selective) = [1, 3] :=
    candidates_after
  have selected := call.selected
  rw [positions] at selected
  obtain ⟨sel', selected', -, length⟩ :=
    selectCandidates_hull (.stable id) reused (sumsOnDevice.prefill after.tokenIds) known
    (show [1, 3].min? = some 1 from rfl) (show [1, 3].max? = some 3 from rfl) 1 none
  cases selected.symm.trans selected'
  have ranks := (ranking_perm (Numpy.stable_argsorts id) "hkvd"
    (maskedDeviation (.stable id) reused (sumsOnDevice.prefill after.tokenIds) [1,
      3] 1 3 none)).length_eq
  rw [length_maskedDeviation, List.length_range] at ranks
  rw [ranks, budget_of_one_le le_rfl] at length
  exact ⟨_, recomputeSelective_eq_some_iff.2 ⟨reused, sel, call, rfl⟩,
    congrArg List.length positions, length⟩

/-! ## More budget recomputes more -/

section Grow

variable [Inhabited α] [Field α] [LinearOrder α] [IsStrictOrderedRing α] [FloorRing α]
  {np : Numpy α}
variable {δ : Type} [DecidableEq δ] {hashTokens : List Int → δ} {b : HFBackend α τ Λ}
  {prevKV : HostKV α}
variable {prev new : SegmentedContext} {select : String} {devLayers : Option Int}
  {result : HostKV α × SelectiveStats}

/-- With a greater budget a strategy selects at least the same tokens. -/
theorem selectCandidates_mono {reused correct : KVCache α} {candidate : List Nat} {frac frac' : α}
    (le : frac ≤ frac')
    (known : select ∈ strategies) {sel sel' : List Nat}
    (selected : selectCandidates np reused correct candidate frac select devLayers = some sel)
    (selected' : selectCandidates np reused correct candidate frac' select devLayers = some sel') :
      ∀ t ∈ sel, t ∈ sel' := by
  by_cases nonempty : candidate = []
  · subst nonempty
    cases selected
    simp
  · obtain ⟨lo, last, least, greatest, -⟩ := exists_hull nonempty
    obtain ⟨_, same, mem, -⟩ := selectCandidates_hull np reused correct known least greatest
      frac devLayers
    obtain ⟨_, same', mem', -⟩ := selectCandidates_hull np reused correct known least greatest
      frac' devLayers
    cases selected.symm.trans same
    cases selected'.symm.trans same'
    intro t member
    obtain ⟨j, taken, rfl⟩ := (mem t).1 member
    -- both calls rank alike, the second takes more
    exact (mem' _).2 ⟨j, (List.take_subset_take_left _ (budget_mono le _)) taken, rfl⟩

/-- Whatever the previous cache is: what a call recomputes, a call with a greater fraction
    recomputes too. -/
theorem recomputed_grow (known : select ∈ strategies) {recomputeFrac recomputeFrac' : α}
    (le : recomputeFrac ≤ recomputeFrac')
    (returned : b.recomputeSelective hashTokens np prevKV prev new recomputeFrac select devLayers =
      some result) :
    ∃ reused sel sel' blended stats,
      SelectiveCall b hashTokens np prevKV prev new recomputeFrac select devLayers reused sel ∧
      selectiveResult b hashTokens prevKV prev new select reused sel = result ∧
      SelectiveCall b hashTokens np prevKV prev new recomputeFrac' select devLayers reused sel' ∧
      selectiveResult b hashTokens prevKV prev new select reused sel' = (.float32 blended, stats) ∧
      b.recomputeSelective hashTokens np prevKV prev new recomputeFrac' select devLayers =
        some (.float32 blended, stats) ∧
      ∀ t ∈ recomputeIdx (planIncremental hashTokens (some prev) new .selective) sel,
        t ∈ recomputeIdx (planIncremental hashTokens (some prev) new .selective) sel' ∧
          SameToken blended.layers t (b.prefill new.tokenIds).layers t := by
  obtain ⟨reused, sel, call, rfl⟩ := recomputeSelective_eq_some_iff.1 returned
  obtain ⟨sel', selected'⟩ := exists_selection np known reused (b.prefill new.tokenIds)
    (positionsOf .reuseShifted
      (planIncremental hashTokens (some prev) new .selective)) recomputeFrac' devLayers
  have call' :
    SelectiveCall b hashTokens np prevKV prev new recomputeFrac' select devLayers reused sel' :=
    ⟨call.assembled, selected'⟩
  refine ⟨reused, sel, sel', _, _, call, rfl, call', rfl,
    recomputeSelective_eq_some_iff.2 ⟨reused, sel', call', rfl⟩, ?_⟩
  intro t recomputed
  have also : t ∈ recomputeIdx (planIncremental hashTokens (some prev) new .selective) sel' := by
    apply mem_recomputeIdx.2
    exact (mem_recomputeIdx.1 recomputed).imp_right
      (selectCandidates_mono le known call.selected selected' t)
  exact ⟨also,
    blendKV_recomputed (assembleReused_sameShape (b.length_prefill_layers _) call.assembled) also⟩

end Grow

/-- A third of the hull and all of it. -/
theorem recomputed_grow_third :
    ∃ reused sel sel' blended stats,
      SelectiveCall sumsOnDevice (id : List Int → List Int) (.stable id)
        (.float32 (sumsOnDevice.prefill before.tokenIds))
        before after (1 / 3) "random" none reused sel ∧
      SelectiveCall sumsOnDevice (id : List Int → List Int) (.stable id)
        (.float32 (sumsOnDevice.prefill before.tokenIds))
        before after 1 "random" none reused sel' ∧
      sumsOnDevice.recomputeSelective (id : List Int → List Int) (.stable id)
        (.float32 (sumsOnDevice.prefill before.tokenIds)) before after 1 "random" none =
          some (.float32 blended, stats) ∧
      ∀ t ∈ recomputeIdx
        (planIncremental (id : List Int → List Int) (some before) after .selective) sel,
        t ∈ recomputeIdx
          (planIncremental (id : List Int → List Int) (some before) after .selective) sel' ∧
          SameToken blended.layers t (sumsOnDevice.prefill after.tokenIds).layers t := by
  have known : "random" ∈ strategies := by simp [strategies]
  obtain ⟨reused, sel, call, -⟩ :=
    exists_call (.stable id) sumModel_causal (b := sumsOnDevice) Function.injective_id known before
    after (1 / 3) none
  have returned := recomputeSelective_eq_some_iff.2 ⟨reused, sel, call, rfl⟩
  have less : (1 / 3 : ℚ) ≤ 1 := by norm_num
  obtain ⟨reused, sel, sel', blended, stats, call, -, call', -, returned', grow⟩ :=
    recomputed_grow known less returned
  exact ⟨reused, sel, sel', blended, stats, call, call', returned', grow⟩

end Dexa.Engine.HFBackend
