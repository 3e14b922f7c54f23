import Mathlib.Order.Bounds.Basic
import Dexa.Lib.Intervals
import Dexa.Lib.Lists
import Dexa.Segments.Plan

/-! # The reuse plan is correct and maximal

The planner walks the new segments with a pool of the previous segments that are not used yet.  A
step takes one of three decisions; what the whole run decided follows from the pool, which always
holds the late previous segments of a content that no item took.
-/

namespace Dexa.Segments

open Dexa.Lib

variable {δ : Type} [DecidableEq δ] (hashTokens : List Int → δ)

/-- The previous segments of content `c` that are still to be taken. -/
def PlanState.unused (st : PlanState δ) (c : δ) : List Nat := (st.pool.get? c).getD []

/-- The item's segment, index and span are those of `e`. -/
structure SegmentPlanItem.PlacedAt (newOffsets : List Nat) (e : Segment × Nat)
    (it : SegmentPlanItem) : Prop where
  segment : it.segment = e.1
  index : it.index = e.2
  newSpan : it.newSpan = (newOffsets.getD e.2 0, newOffsets.getD e.2 0 + e.1.nTokens)

/-- How the planner decides on segment `e` in state `st`: the item, and the state after it. -/
inductive Decides (mode : Mode) (commonLen : Nat) (prevOffsets : List Nat) (st : PlanState δ)
    (e : Segment × Nat)
    (it : SegmentPlanItem) (st' : PlanState δ) : Prop where
  | exact (inPrefix : e.2 < commonLen) (action : it.action = .reuseExact)
      (prevIndex : it.prevIndex = some e.2)
      (positionShift : it.positionShift = 0) (unused : ∀ c, st'.unused c = st.unused c)
      (flag : st'.exact = st.exact)
  | shifted (late : commonLen ≤ e.2) (selective : mode = .selective)
      (action : it.action = .reuseShifted)
      (j : Nat) (prevIndex : it.prevIndex = some j)
      (positionShift : it.positionShift = (it.newSpan.1 : Int) - (prevOffsets.getD j 0 : Nat))
      (taken : st.unused (e.1.contentId hashTokens) = j :: st'.unused (e.1.contentId hashTokens))
      (others : ∀ c, e.1.contentId hashTokens ≠ c → st'.unused c = st.unused c)
      (flag : st'.exact = false)
  | recompute (late : commonLen ≤ e.2) (action : it.action = .recompute)
      (exhausted : mode = .selective → st.unused (e.1.contentId hashTokens) = [])
      (unused : ∀ c, st'.unused c = st.unused c) (flag : st'.exact = st.exact)

theorem planStep_cases (mode : Mode) (commonLen : Nat) (prevOffsets newOffsets : List Nat)
    (st : PlanState δ)
    (e : Segment × Nat) :
    ∃ it, (planStep hashTokens mode commonLen prevOffsets newOffsets st e).items =
      st.items ++ [it] ∧
      it.PlacedAt newOffsets e ∧
      Decides hashTokens mode commonLen prevOffsets st e it
        (planStep hashTokens mode commonLen prevOffsets newOffsets st e) := by
  unfold planStep
  by_cases inPrefix : e.2 < commonLen
  · simp only [inPrefix, if_true]
    exact ⟨_, rfl, ⟨rfl, rfl, rfl⟩, .exact inPrefix rfl rfl rfl (fun c => rfl) rfl⟩
  · have late := not_lt.1 inPrefix
    simp only [inPrefix, if_false]
    split
    next matched rest found =>
      refine ⟨_, rfl, ⟨rfl, rfl, rfl⟩, .shifted late rfl rfl matched rfl rfl ?_ ?_ rfl⟩
      · simp [PlanState.unused, found]
      · intro c other
        simp only [PlanState.unused, Dict.get?_set_ne _ _ other]
    next none =>
      refine ⟨_, rfl, ⟨rfl, rfl, rfl⟩, .recompute late rfl ?_ (fun c => rfl) rfl⟩
      rintro rfl
      cases found : st.pool.get? (e.1.contentId hashTokens) with
      | none => simp [PlanState.unused, found]
      | some pool =>
        cases pool with
        | nil => simp [PlanState.unused, found]
        | cons j rest => exact absurd found (none j rest rfl)

/-- The previous segment an item shifts. -/
def SegmentPlanItem.shiftedFrom (it : SegmentPlanItem) : Option Nat :=
  if it.action = .reuseShifted then it.prevIndex else none

/-- The previous segments of content `c` that the items shift. -/
def taken (c : δ) (items : List SegmentPlanItem) : List Nat :=
  (items.filter fun it => it.segment.contentId hashTokens = c).filterMap SegmentPlanItem.shiftedFrom

/-- The previous segments of content `c` after the common prefix. -/
def lateOf (prev : List Segment) (commonLen : Nat) (c : δ) : List Nat :=
  ((prev.zipIdx.drop commonLen).filter fun e => e.1.contentId hashTokens = c).map Prod.snd

/-- How many segments of content `c` came after the common prefix. -/
def arrived (commonLen : Nat) (c : δ) (es : List (Segment × Nat)) : Nat :=
  (es.filter fun e => commonLen ≤ e.2 ∧ e.1.contentId hashTokens = c).length

theorem arrived_concat (commonLen : Nat) (c : δ) (es : List (Segment × Nat)) (e : Segment × Nat) :
    arrived hashTokens commonLen c (es ++ [e]) =
      arrived hashTokens commonLen c es + if commonLen ≤ e.2 ∧ e.1.contentId hashTokens = c then 1
        else 0 := by
  rw [arrived, List.filter_append, List.length_append]
  congr 1
  by_cases counts : commonLen ≤ e.2 ∧ e.1.contentId hashTokens = c
  · rw [if_pos counts, List.filter_cons_of_pos (by simpa using counts)]
    rfl
  · rw [if_neg counts, List.filter_cons_of_neg (by simpa using counts)]
    rfl

theorem taken_concat (c : δ) (items : List SegmentPlanItem) (it : SegmentPlanItem) :
    taken hashTokens c (items ++ [it]) = taken hashTokens c items ++
      if it.segment.contentId hashTokens = c then it.shiftedFrom.toList else [] := by
  rw [taken, List.filter_append, List.filterMap_append]
  congr 1
  by_cases same : it.segment.contentId hashTokens = c
  · rw [if_pos same, List.filter_cons_of_pos (by simpa using same)]
    cases found : it.shiftedFrom <;> simp [found]
  · rw [if_neg same, List.filter_cons_of_neg (by simpa using same)]
    rfl

theorem taken_eq_nil (c : δ) {items : List SegmentPlanItem}
    (none : ∀ it ∈ items, it.action ≠ .reuseShifted) :
    taken hashTokens c items = [] := by
  apply List.filterMap_eq_nil_iff.2
  intro it member
  rw [SegmentPlanItem.shiftedFrom, if_neg (none it (List.mem_filter.1 member).1)]

/-- What the loop has decided on the segments `done`. -/
structure PlanRun (mode : Mode) (commonLen : Nat) (prev : List Segment)
    (prevOffsets newOffsets : List Nat)
    (done : List (Segment × Nat)) (st : PlanState δ) : Prop where
  placed : List.Forall₂ (fun e it => it.PlacedAt newOffsets e) done st.items
  exactPrefix : ∀ it ∈ st.items, it.action = .reuseExact ↔ it.index < commonLen
  unmoved : ∀ it ∈ st.items, it.action = .reuseExact → it.prevIndex = some it.index ∧
    it.positionShift = 0
  shifted : ∀ it ∈ st.items, it.action = .reuseShifted → mode = .selective ∧
    ∃ j, it.prevIndex = some j ∧
      it.positionShift = (it.newSpan.1 : Int) - (prevOffsets.getD j 0 : Nat)
  pool : ∀ c, taken hashTokens c st.items ++ st.unused c = lateOf hashTokens prev commonLen c
  greedy : mode = .selective →
    ∀ c, (taken hashTokens c st.items).length = min (lateOf hashTokens prev commonLen c).length
    (arrived hashTokens commonLen c done)
  flag : st.exact = true ↔ ∀ it ∈ st.items, it.action ≠ .reuseShifted

section Step

variable {hashTokens}
variable {mode : Mode} {commonLen : Nat} {prev : List Segment} {prevOffsets newOffsets : List Nat}
variable {done : List (Segment × Nat)} {st st' : PlanState δ} {e : Segment × Nat}
  {it : SegmentPlanItem}

/-- What a decision takes out of the pool is what its item shifts. -/
theorem Decides.taken_unused (decides : Decides hashTokens mode commonLen prevOffsets st e it st')
    (placed : it.PlacedAt newOffsets e) (c : δ) :
    st.unused c = (if it.segment.contentId hashTokens = c then it.shiftedFrom.toList else []) ++
      st'.unused c := by
  rw [placed.segment]
  cases decides with
  | exact inPrefix action prevIndex positionShift unused flag =>
    simp [SegmentPlanItem.shiftedFrom, action, unused]
  | shifted late selective action j prevIndex positionShift taken others flag =>
    by_cases same : e.1.contentId hashTokens = c
    · subst same
      simp [SegmentPlanItem.shiftedFrom, action, prevIndex, taken]
    · rw [if_neg same, List.nil_append, others c same]
  | recompute late action exhausted unused flag =>
    simp [SegmentPlanItem.shiftedFrom, action, unused]

/-- In selective mode an item of a late segment shifts the first unused segment of its content. -/
theorem Decides.length_taken (decides : Decides hashTokens mode commonLen prevOffsets st e it st')
    (selective : mode = .selective) :
    it.shiftedFrom.toList.length =
      if commonLen ≤ e.2 then min (st.unused (e.1.contentId hashTokens)).length 1 else 0 := by
  cases decides with
  | exact inPrefix action prevIndex positionShift unused flag =>
    simp [SegmentPlanItem.shiftedFrom, action, inPrefix]
  | shifted late selective action j prevIndex positionShift taken others flag =>
    simp [SegmentPlanItem.shiftedFrom, action, prevIndex, late, taken]
  | recompute late action exhausted unused flag =>
    simp [SegmentPlanItem.shiftedFrom, action, late, exhausted selective]

theorem PlanRun.step (run : PlanRun hashTokens mode commonLen prev prevOffsets newOffsets done st)
    (e : Segment × Nat) :
    PlanRun hashTokens mode commonLen prev prevOffsets newOffsets (done ++ [e])
      (planStep hashTokens mode commonLen prevOffsets newOffsets st e) := by
  obtain ⟨it, items, placed, decides⟩ :=
    planStep_cases hashTokens mode commonLen prevOffsets newOffsets st e
  -- only the decision about the new item matters from here on
  generalize planStep hashTokens mode commonLen prevOffsets newOffsets st e = st' at items decides
  constructor
  case placed =>
    rw [items]
    exact List.rel_append run.placed (.cons placed .nil)
  case exactPrefix =>
    rw [items]
    apply forall_mem_concat run.exactPrefix
    rw [placed.index]
    cases decides with
    | exact inPrefix action => simp [action, inPrefix]
    | shifted late selective action => simp [action, late]
    | recompute late action => simp [action, late]
  case unmoved =>
    rw [items]
    apply forall_mem_concat run.unmoved
    rw [placed.index]
    intro exact
    cases decides with
    | exact inPrefix action prevIndex positionShift => exact ⟨prevIndex, positionShift⟩
    | shifted late selective action => cases action.symm.trans exact
    | recompute late action => cases action.symm.trans exact
  case shifted =>
    rw [items]
    apply forall_mem_concat run.shifted
    intro shifted
    cases decides with
    | exact inPrefix action => cases action.symm.trans shifted
    | shifted late selective action j prevIndex positionShift => exact ⟨selective, j, prevIndex,
        positionShift⟩
    | recompute late action => cases action.symm.trans shifted
  case pool =>
    intro c
    rw [items, taken_concat, List.append_assoc, ← decides.taken_unused placed c, run.pool]
  case greedy =>
    intro selective c
    have before := run.greedy selective c
    have pool := congrArg List.length (run.pool c)
    rw [List.length_append] at pool
    have now := decides.length_taken selective
    rw [items, taken_concat, placed.segment, arrived_concat, List.length_append]
    by_cases same : e.1.contentId hashTokens = c
    · subst same
      by_cases late : commonLen ≤ e.2
      · -- the pool of the content ran out before, or every late segment of it was matched so far
        simp only [late, if_true, true_and] at now ⊢
        omega
      · simp only [late, if_false, false_and, if_true] at now ⊢
        omega
    · simpa [same] using before
  case flag =>
    rw [items]
    cases decides with
    | exact inPrefix action _ _ _ flag => simp [flag, run.flag, action, or_imp, forall_and]
    | shifted late selective action _ _ _ _ _ flag => simp [flag, action, or_imp, forall_and]
    | recompute late action _ _ flag => simp [flag, run.flag, action, or_imp, forall_and]

end Step

section Run

variable (prev new : List Segment) (commonLen : Nat)

theorem mem_lateOf {prev : List Segment} {commonLen j : Nat} {c : δ} :
    j ∈ lateOf hashTokens prev commonLen c ↔
      commonLen ≤ j ∧ ∃ s, prev[j]? = some s ∧ s.contentId hashTokens = c := by
  simp only [lateOf, drop_zipIdx, List.mem_map, List.mem_filter, Prod.exists,
    List.mk_mem_zipIdx_iff_le_and_getElem?_sub,
    List.getElem?_drop, decide_eq_true_eq]
  constructor
  · rintro ⟨s, i, ⟨⟨le, found⟩, same⟩, rfl⟩
    exact ⟨by omega, s, by rwa [show commonLen + (i - (0 + commonLen)) = i by omega] at found, same⟩
  · rintro ⟨le, s, found, same⟩
    exact ⟨s, j, ⟨⟨by omega, by rwa [show commonLen + (j - (0 + commonLen)) = j by omega]⟩, same⟩,
      rfl⟩

theorem nodup_lateOf (c : δ) : (lateOf hashTokens prev commonLen c).Nodup := by
  have indices : ((prev.zipIdx.drop commonLen).map Prod.snd).Nodup := by
    rw [drop_zipIdx, List.zipIdx_map_snd]
    exact List.nodup_range'
  exact indices.sublist (List.filter_sublist.map Prod.snd)

/-- Over an injective hash the segments of a content are those with its tokens. -/
theorem countP_contentId (injective : Function.Injective hashTokens) (segs : List Segment)
    (tokens : List Int) :
    (segs.countP fun s => s.contentId hashTokens = hashTokens tokens) =
      (segs.map Segment.tokenIds).count tokens := by
  rw [List.count, List.countP_map]
  congr 1
  funext s
  simp [Segment.contentId, injective.eq_iff, beq_eq_decide]

theorem length_lateOf (c : δ) :
    (lateOf hashTokens prev commonLen c).length =
      (prev.drop commonLen).countP fun s => s.contentId hashTokens = c := by
  rw [lateOf, List.length_map, drop_zipIdx, ← List.countP_eq_length_filter]
  conv_rhs => rw [← List.zipIdx_map_fst (0 + commonLen) (prev.drop commonLen), List.countP_map]
  rfl

theorem arrived_zipIdx (c : δ) (k : Nat) :
    arrived hashTokens commonLen c (new.zipIdx k) =
      (new.drop (commonLen - k)).countP fun s => s.contentId hashTokens = c := by
  induction new generalizing k with
  | nil => simp [arrived]
  | cons s new ih =>
    have tail := ih (k + 1)
    rw [arrived, ← List.countP_eq_length_filter] at tail ⊢
    rw [List.zipIdx_cons, List.countP_cons, tail]
    by_cases late : commonLen ≤ k
    · simp [late,
        show commonLen - k = 0 by omega, show commonLen - (k + 1) = 0 by omega, List.countP_cons]
    · simp [late, show commonLen - k = (commonLen - (k + 1)) + 1 by omega]

/-- The pool starts with every late previous segment. -/
theorem unused_shiftedPool (items : List SegmentPlanItem) (usedExact exact : Bool) (c : δ) :
    PlanState.unused ⟨items, shiftedPool hashTokens prev commonLen, usedExact, exact⟩ c =
      lateOf hashTokens prev commonLen c :=
  Dict.getD_foldl_push (fun e : Segment × Nat => e.1.contentId hashTokens) _ _ _ _

theorem planRun_start (mode : Mode) (prevOffsets newOffsets : List Nat) :
    PlanRun hashTokens mode commonLen prev prevOffsets newOffsets []
      ⟨[], shiftedPool hashTokens prev commonLen, false, true⟩ where
  placed := .nil
  exactPrefix := by simp
  unmoved := by simp
  shifted := by simp
  pool c := unused_shiftedPool hashTokens prev commonLen [] false true c
  greedy := by simp [taken, arrived]
  flag := by simp

theorem planRun_foldl {mode : Mode} {prev : List Segment} {commonLen : Nat}
    {prevOffsets newOffsets : List Nat}
    {done : List (Segment × Nat)} {st : PlanState δ}
    (run : PlanRun hashTokens mode commonLen prev prevOffsets newOffsets done st)
    (es : List (Segment × Nat)) :
    PlanRun hashTokens mode commonLen prev prevOffsets newOffsets (done ++ es)
      (es.foldl (planStep hashTokens mode commonLen prevOffsets newOffsets) st) := by
  induction es generalizing done st with
  | nil => simpa using run
  | cons e es ih => simpa using ih (run.step e)

/-- A cold start recomputes every segment: no previous segment is in the prefix or in the pool. -/
theorem planRun_cold (mode : Mode) (newOffsets : List Nat) :
    PlanRun hashTokens mode 0 [] [] newOffsets new.zipIdx
      ⟨new.zipIdx.map fun e =>
          { index := e.2, action := .recompute, segment := e.1,
            newSpan := (newOffsets.getD e.2 0, newOffsets.getD e.2 0 + e.1.nTokens) },
        Dict.empty, false, true⟩ := by
  generalize built : new.zipIdx.map _ = items
  have recompute : ∀ it ∈ items, it.action = .recompute := by
    rw [← built]
    exact List.forall_mem_map.2 fun e _ => rfl
  have untaken : ∀ c, taken hashTokens c items = [] := fun c =>
    taken_eq_nil hashTokens c fun it member => by simp [recompute it member]
  constructor
  case placed =>
    rw [← built, List.forall₂_map_right_iff]
    exact List.forall₂_same.2 fun e _ => ⟨rfl, rfl, rfl⟩
  case exactPrefix =>
    intro it member
    simp [recompute it member]
  case unmoved =>
    intro it member exact
    cases (recompute it member).symm.trans exact
  case shifted =>
    intro it member shifted
    cases (recompute it member).symm.trans shifted
  case pool =>
    intro c
    rw [untaken]
    rfl
  case greedy =>
    intro _ c
    rw [untaken]
    exact (Nat.zero_min _).symm
  case flag =>
    simp only [true_iff]
    intro it member
    simp [recompute it member]

end Run

/-! ## The common prefix, the spans and the token counts -/

/-- The lengths of the common segment prefixes of two contexts. -/
def commonPrefixes (prev new : List Segment) : Set Nat :=
  {k | k ≤ prev.length ∧ k ≤ new.length ∧ (prev.take k).map Segment.tokenIds = (new.take k).map Segment.tokenIds}

theorem le_commonPrefixLen (prev new : List Segment) {k : Nat}
    (common : k ∈ commonPrefixes prev new) :
    k ≤ commonPrefixLen hashTokens prev new := by
  fun_induction commonPrefixLen hashTokens prev new generalizing k with
  | case1 a prev b new same ih =>
    cases k with
    | zero => exact Nat.zero_le _
    | succ k =>
      obtain ⟨left, right, tokens⟩ := common
      rw [List.take_succ_cons, List.take_succ_cons, List.map_cons, List.map_cons,
        List.cons.injEq] at tokens
      exact Nat.succ_le_succ
        (ih ⟨Nat.le_of_succ_le_succ left, Nat.le_of_succ_le_succ right, tokens.2⟩)
  | case2 a prev b new other =>
    cases k with
    | zero => exact le_refl 0
    | succ k =>
      obtain ⟨_, _, tokens⟩ := common
      rw [List.take_succ_cons, List.take_succ_cons, List.map_cons, List.map_cons,
        List.cons.injEq] at tokens
      exact absurd (congrArg hashTokens tokens.1) other
  | case3 prev new empty =>
    obtain ⟨left, right, _⟩ := common
    cases prev with
    | nil => exact left
    | cons a prev =>
      cases new with
      | nil => exact right
      | cons b new => exact absurd rfl (empty a prev b new rfl)

theorem commonPrefixLen_isGreatest (injective : Function.Injective hashTokens)
    (prev new : List Segment) :
    IsGreatest (commonPrefixes prev new) (commonPrefixLen hashTokens prev new) :=
  ⟨⟨commonPrefixLen_le_left hashTokens prev new, commonPrefixLen_le_right hashTokens prev new,
      tokenIds_take_commonPrefix hashTokens injective prev new⟩,
    fun _ => le_commonPrefixLen hashTokens prev new⟩

/-- Segment `i` starts after the tokens of the segments before it. -/
theorem getD_offsetsFrom (segs : List Segment) (acc : Nat) {i : Nat} (inside : i < segs.length) :
    (SegmentedContext.offsetsFrom acc segs).getD i 0 =
      acc + ((segs.take i).map Segment.nTokens).sum := by
  induction segs generalizing acc i with
  | nil => simp at inside
  | cons s segs ih =>
    cases i with
    | zero => simp [SegmentedContext.offsetsFrom]
    | succ i =>
      rw [SegmentedContext.offsetsFrom, List.getD_cons_succ, ih _ (by simpa using inside)]
      simp [Nat.add_assoc]

theorem length_offsetsFrom (segs : List Segment) (acc : Nat) :
    (SegmentedContext.offsetsFrom acc segs).length = segs.length := by
  induction segs generalizing acc with
  | nil => rfl
  | cons s segs ih => simp [SegmentedContext.offsetsFrom, ih]

theorem span_eq {ctx : SegmentedContext} {i : Nat} {s : Segment}
    (found : ctx.segments[i]? = some s) :
    ctx.span i = some (ctx.offsets.getD i 0, ctx.offsets.getD i 0 + s.nTokens) := by
  have inside : i < ctx.offsets.length := by
    rw [SegmentedContext.offsets, length_offsetsFrom]
    exact (List.getElem?_eq_some_iff.1 found).1
  simp [SegmentedContext.span, found, List.getElem?_eq_getElem inside]

/-- The span of a segment holds its tokens. -/
theorem span_tokens {ctx : SegmentedContext} {i : Nat} {s : Segment}
    (found : ctx.segments[i]? = some s) :
    ctx.offsets.getD i 0 + s.nTokens ≤ ctx.nTokens ∧
      ∀ d, d < s.nTokens → ctx.tokenIds[ctx.offsets.getD i 0 + d]? = s.tokenIds[d]? := by
  obtain ⟨inside, rfl⟩ := List.getElem?_eq_some_iff.1 found
  have parts : ctx.segments = ctx.segments.take i ++ ctx.segments[i] :: ctx.segments.drop
    (i + 1) := by simp
  have before : ctx.offsets.getD i 0 = ((ctx.segments.take i).flatMap Segment.tokenIds).length := by
    rw [SegmentedContext.offsets, getD_offsetsFrom _ _ inside, Nat.zero_add, List.length_flatMap]
    rfl
  have tokens : ctx.tokenIds = (ctx.segments.take i).flatMap Segment.tokenIds ++
      (ctx.segments[i].tokenIds ++ (ctx.segments.drop (i + 1)).flatMap Segment.tokenIds) := by
    rw [SegmentedContext.tokenIds]
    conv_lhs => rw [parts]
    rw [List.flatMap_append, List.flatMap_cons]
  constructor
  · rw [← SegmentedContext.length_tokenIds, tokens, before]
    simp only [List.length_append, Segment.nTokens]
    omega
  · intro d within
    rw [tokens, before, List.getElem?_append_right (Nat.le_add_right _ _), Nat.add_sub_cancel_left,
      List.getElem?_append_left within]

/-- The spans of the segments lead from the first token to the last. -/
theorem tiles_spans (segs : List Segment) (offsets : List Nat) (acc k : Nat)
    (starts : ∀ i < segs.length,
      offsets.getD (k + i) 0 = (SegmentedContext.offsetsFrom acc segs).getD i 0) :
    Tiles acc (acc + (segs.map Segment.nTokens).sum)
      ((segs.zipIdx k).map fun e => (offsets.getD e.2 0, offsets.getD e.2 0 + e.1.nTokens)) := by
  induction segs generalizing acc k with
  | nil => exact .nil acc
  | cons s segs ih =>
    have first : offsets.getD k 0 = acc := starts 0 (by simp)
    simp only [List.zipIdx_cons, List.map_cons, first, List.sum_cons, ← Nat.add_assoc]
    refine .cons (Nat.le_add_right _ _) (ih _ _ fun i inside => ?_)
    have next := starts (i + 1) (by simpa using inside)
    rw [SegmentedContext.offsetsFrom, List.getD_cons_succ] at next
    rw [← next, Nat.add_assoc, Nat.add_comm 1 i]

/-- Every item counts under its own action. -/
theorem tokens_by_action (plan : RecomputePlan) :
    plan.reusedExactTokens + plan.reuseShiftedTokens + plan.recomputeTokens =
      (plan.items.map fun it => it.segment.nTokens).sum := by
  simp only [RecomputePlan.reusedExactTokens, RecomputePlan.reuseShiftedTokens,
    RecomputePlan.recomputeTokens,
    RecomputePlan.tokensOf]
  induction plan.items with
  | nil => rfl
  | cons it items ih =>
    cases action : it.action <;> simp [action] <;> omega

/-! ## Merging the ranges to recompute -/

/-- What the merge has made of the ranges `seen`. -/
structure Merged (seen merged : List (Nat × Nat)) : Prop where
  separated : Separated merged
  covered : ∀ t, Covered merged t ↔ Covered seen t
  starts : ∀ r ∈ merged, ∃ s ∈ seen, s.1 = r.1

theorem Merged.step {seen merged : List (Nat × Nat)} (run : Merged seen merged) {r : Nat × Nat}
    (proper : r.1 ≤ r.2)
    (later : ∀ s ∈ seen, s.1 ≤ r.1) : Merged (seen ++ [r]) (RecomputePlan.mergeRange merged r) := by
  unfold RecomputePlan.mergeRange
  have kept : ∀ q ∈ merged, ∃ s ∈ seen ++ [r], s.1 = q.1 := by
    intro q member
    obtain ⟨s, old, same⟩ := run.starts q member
    exact ⟨s, List.mem_append_left _ old, same⟩
  cases nonempty : merged.getLast? with
  | none =>
    obtain rfl := List.getLast?_eq_none_iff.1 nonempty
    refine ⟨⟨by simpa using proper, List.pairwise_singleton _ _⟩, fun t => ?_, by simp⟩
    rw [covered_concat, ← run.covered, ← covered_concat, List.nil_append]
  | some last =>
    obtain ⟨front, rfl⟩ := List.getLast?_eq_some_iff.1 nonempty
    have start : last.1 ≤ r.1 := by
      obtain ⟨s, member, same⟩ := run.starts last (by simp)
      exact same ▸ later s member
    dsimp only
    split
    next touch =>
      rw [List.dropLast_concat]
      refine ⟨run.separated.extend r.2, fun t => ?_, ?_⟩
      · rw [covered_concat, covered_concat, inside_join start touch, ← run.covered, covered_concat,
          or_assoc]
      · apply forall_mem_concat fun q member => kept q (List.mem_append_left _ member)
        exact kept last (by simp)
    next apart =>
      refine ⟨run.separated.concat proper (not_le.1 apart), fun t => ?_, ?_⟩
      · rw [covered_concat, covered_concat seen, run.covered]
      · exact forall_mem_concat kept ⟨r, by simp, rfl⟩

theorem merged_foldl (rs : List (Nat × Nat)) {seen merged : List (Nat × Nat)}
    (run : Merged seen merged)
    (proper : ∀ r ∈ rs, r.1 ≤ r.2) (sorted : (seen ++ rs).Pairwise fun r r' => r.1 ≤ r'.1) :
    Merged (seen ++ rs) (rs.foldl RecomputePlan.mergeRange merged) := by
  induction rs generalizing seen merged with
  | nil => simpa using run
  | cons r rs ih =>
    have later : ∀ s ∈ seen, s.1 ≤ r.1 := fun s member =>
      (List.pairwise_append.1 sorted).2.2 s member r List.mem_cons_self
    rw [List.append_cons] at sorted ⊢
    exact ih (run.step (proper r List.mem_cons_self) later)
      (fun s member => proper s (List.mem_cons_of_mem r member)) sorted

theorem merged_nil : Merged [] [] := ⟨Separated.nil, by simp, by simp⟩

/-- The merged ranges are separated and cover what the recompute items span. -/
theorem merged_recomputeRanges (plan : RecomputePlan)
    (proper : ∀ it ∈ plan.items, it.newSpan.1 ≤ it.newSpan.2) :
    Separated plan.recomputeRanges ∧
      ∀ t, Covered plan.recomputeRanges t ↔ ∃ it ∈ plan.items, it.action = .recompute ∧
        Inside it.newSpan t := by
  let le (r r' : Nat × Nat) : Bool := decide (r.1 < r'.1 ∨ (r.1 = r'.1 ∧ r.2 ≤ r'.2))
  let raw := (plan.items.filter fun it => it.action = .recompute).map SegmentPlanItem.newSpan
  have member : ∀ r, r ∈ raw.mergeSort le ↔ ∃ it ∈ plan.items, it.action = .recompute ∧
    it.newSpan = r := by
    intro r
    rw [(List.mergeSort_perm raw le).mem_iff]
    simp only [raw, List.mem_map, List.mem_filter, decide_eq_true_eq, and_assoc]
  have sorted : (raw.mergeSort le).Pairwise fun r r' => r.1 ≤ r'.1 := by
    refine (List.pairwise_mergeSort ?_ ?_ raw).imp fun {r r'} ascends => ?_
    · intro a b c ab bc
      simp only [le, decide_eq_true_eq] at ab bc ⊢
      omega
    · intro a b
      simp only [le, Bool.or_eq_true, decide_eq_true_eq]
      omega
    · simp only [le, decide_eq_true_eq] at ascends
      omega
  have merged := merged_foldl (raw.mergeSort le) merged_nil
    (fun r here => by
      obtain ⟨it, planned, _, rfl⟩ := (member r).1 here
      exact proper it planned)
    (by rwa [List.nil_append])
  refine ⟨merged.separated, fun t => ?_⟩
  rw [RecomputePlan.recomputeRanges, merged.covered t, List.nil_append]
  constructor
  · rintro ⟨r, here, inside⟩
    obtain ⟨it, planned, recompute, rfl⟩ := (member r).1 here
    exact ⟨it, planned, recompute, inside⟩
  · rintro ⟨it, planned, recompute, inside⟩
    exact ⟨it.newSpan, (member it.newSpan).2 ⟨it, planned, recompute, rfl⟩, inside⟩

/-! ## The plan -/

/-- The context whose KV is cached: the empty one on a cold start. -/
def cached (prev : Option SegmentedContext) : SegmentedContext := prev.getD ⟨[]⟩

/-- A correct and maximal plan to build `new` from `old`, whose longest common segment prefix has
length `prefixLen`. -/
structure ReusePlan (old new : SegmentedContext) (mode : Mode) (prefixLen : Nat)
    (plan : RecomputePlan) : Prop where
  segments : plan.items.map SegmentPlanItem.segment = new.segments
  indices : plan.items.map SegmentPlanItem.index = List.range new.segments.length
  total : plan.totalTokens = new.nTokens
  tiling : Tiles 0 plan.totalTokens (plan.items.map SegmentPlanItem.newSpan)
  partition : ∀ t, t < plan.totalTokens ↔ ∃! i : Nat, ∃ it, plan.items[i]? = some it ∧
    Inside it.newSpan t
  longest : IsGreatest (commonPrefixes old.segments new.segments) prefixLen
  reusedExact : ∀ it ∈ plan.items, it.action = .reuseExact ↔ it.index < prefixLen
  unmoved : ∀ it ∈ plan.items, it.action = .reuseExact →
    it.prevIndex = some it.index ∧ it.positionShift = 0 ∧ old.span it.index = some it.newSpan
  reusedShifted : ∀ it ∈ plan.items, it.action = .reuseShifted → mode = .selective ∧
    ∃ j s start, it.prevIndex = some j ∧ prefixLen ≤ j ∧ old.segments[j]? = some s ∧
      s.tokenIds = it.segment.tokenIds ∧
      old.span j = some (start, start + s.nTokens) ∧
        it.positionShift = (it.newSpan.1 : Int) - (start : Int)
  distinct : (plan.items.filterMap SegmentPlanItem.shiftedFrom).Nodup
  maximal : mode = .selective → ∀ tokens,
    (plan.items.countP fun it => it.action = .reuseShifted ∧ it.segment.tokenIds = tokens) =
      min (((old.segments.drop prefixLen).map Segment.tokenIds).count tokens)
        (((new.segments.drop prefixLen).map Segment.tokenIds).count tokens)
  sums : plan.reusedExactTokens + plan.reuseShiftedTokens + plan.recomputeTokens = plan.totalTokens
  exact : plan.exact = true ↔ ∀ it ∈ plan.items, it.action ≠ .reuseShifted
  sorted : plan.recomputeRanges.Pairwise fun r r' => r.1 < r'.1
  separated : Separated plan.recomputeRanges
  recomputed : ∀ t, Covered plan.recomputeRanges t ↔ ∃ it ∈ plan.items, it.action = .recompute ∧
    Inside it.newSpan t

section Plan

variable {hashTokens}
variable {old new : SegmentedContext} {mode : Mode} {prefixLen : Nat} {st : PlanState δ}

/-- Every item stands at its segment's place in the new context. -/
theorem PlanRun.placed_of_mem
    (run : PlanRun hashTokens mode prefixLen old.segments old.offsets new.offsets new.segments.zipIdx st)
    {it : SegmentPlanItem} (member : it ∈ st.items) :
    new.segments[it.index]? = some it.segment ∧
      it.newSpan = (new.offsets.getD it.index 0,
        new.offsets.getD it.index 0 + it.segment.nTokens) := by
  obtain ⟨k, found⟩ := List.mem_iff_getElem?.1 member
  obtain ⟨e, there, placed⟩ := forall₂_getElem? run.placed.flip found
  have := List.mk_mem_zipIdx_iff_getElem?.1 (List.mem_of_getElem? there)
  rw [placed.segment, placed.index]
  exact ⟨this, placed.newSpan⟩

/-- The items' spans lead from the first token to the last. -/
theorem PlanRun.tiles
    (run : PlanRun hashTokens mode prefixLen old.segments old.offsets new.offsets new.segments.zipIdx st) :
    Tiles 0 new.nTokens (st.items.map SegmentPlanItem.newSpan) := by
  have spans : st.items.map SegmentPlanItem.newSpan =
      new.segments.zipIdx.map
        fun e => (new.offsets.getD e.2 0, new.offsets.getD e.2 0 + e.1.nTokens) :=
    map_eq_of_forall₂ (fun _ _ placed => placed.newSpan) run.placed
  have tiles := tiles_spans new.segments new.offsets 0 0 fun i _ => by rw [Nat.zero_add]; rfl
  rwa [Nat.zero_add, ← spans] at tiles

/-- A segment of the common prefix has the same tokens in both contexts. -/
theorem segment_of_commonPrefix (common : prefixLen ∈ commonPrefixes old.segments new.segments)
    {i : Nat} {s : Segment}
    (inPrefix : i < prefixLen) (found : new.segments[i]? = some s) :
    ∃ s', old.segments[i]? = some s' ∧ s'.tokenIds = s.tokenIds := by
  obtain ⟨left, right, tokens⟩ := common
  obtain ⟨s', found'⟩ : ∃ s', old.segments[i]? = some s' :=
    ⟨_, List.getElem?_eq_getElem (show i < old.segments.length by omega)⟩
  have here := congrArg (fun l => l[i]?) tokens
  exact ⟨s', found', by simpa [List.getElem?_take_of_lt inPrefix, found, found'] using here⟩

/-- The leading segments of the common prefix are of the same lengths in both contexts. -/
theorem lengths_of_commonPrefix (common : prefixLen ∈ commonPrefixes old.segments new.segments)
    {i : Nat} (le : i ≤ prefixLen) :
    (old.segments.take i).map Segment.nTokens = (new.segments.take i).map Segment.nTokens := by
  obtain ⟨-, -, tokens⟩ := common
  have lengths := congrArg (fun l => (l.take i).map List.length) tokens
  rwa [← List.map_take, ← List.map_take, List.take_take, List.take_take, Nat.min_eq_left le,
    List.map_map,
    List.map_map] at lengths

/-- A segment of the common prefix has the same span in both contexts. -/
theorem span_of_commonPrefix (common : prefixLen ∈ commonPrefixes old.segments new.segments)
    {i : Nat} {s : Segment}
    (inPrefix : i < prefixLen) (found : new.segments[i]? = some s) :
    old.span i = some (new.offsets.getD i 0, new.offsets.getD i 0 + s.nTokens) := by
  obtain ⟨s', found', here⟩ := segment_of_commonPrefix common inPrefix found
  have lengths := lengths_of_commonPrefix common inPrefix.le
  have ⟨left, right, _⟩ := common
  rw [span_eq found', SegmentedContext.offsets, SegmentedContext.offsets,
    getD_offsetsFrom _ _ (by omega),
    getD_offsetsFrom _ _ (by omega), lengths, Segment.nTokens, here]
  rfl

/-- The texts agree up to the end of each segment of the common prefix. -/
theorem take_of_commonPrefix (common : prefixLen ∈ commonPrefixes old.segments new.segments)
    {i t : Nat} {s : Segment}
    (inPrefix : i < prefixLen) (found : new.segments[i]? = some s)
    (before : t ≤ new.offsets.getD i 0 + s.nTokens) :
    old.tokenIds.take t = new.tokenIds.take t := by
  have ⟨left, right, tokens⟩ := common
  have flat : (old.segments.take (i + 1)).flatMap Segment.tokenIds =
    (new.segments.take (i + 1)).flatMap Segment.tokenIds := by
    have heads := congrArg (fun l => (l.take (i + 1)).flatten) tokens
    rwa [← List.map_take, ← List.map_take, List.take_take, List.take_take, Nat.min_eq_left inPrefix,
      ← List.flatMap_def,
      ← List.flatMap_def] at heads
  have stop :
    new.offsets.getD i 0 + s.nTokens = ((new.segments.take (i + 1)).map Segment.nTokens).sum := by
    obtain ⟨inside, rfl⟩ := List.getElem?_eq_some_iff.1 found
    rw [SegmentedContext.offsets, getD_offsetsFrom _ _ inside, Nat.zero_add, List.take_add_one,
      List.getElem?_eq_getElem inside,
      List.map_append, List.sum_append]
    rfl
  have upTo := new.take_tokenIds (i + 1)
  rw [← flat, ← old.take_tokenIds, lengths_of_commonPrefix common inPrefix, ← stop] at upTo
  have cut := congrArg (List.take t) upTo
  rwa [List.take_take, List.take_take, Nat.min_eq_left before, eq_comm] at cut

/-- What an item shifts is a late previous segment of the item's content. -/
theorem PlanRun.late_of_shifted {done : List (Segment × Nat)} {prev : List Segment}
    {prevOffsets newOffsets : List Nat}
    (run : PlanRun hashTokens mode prefixLen prev prevOffsets newOffsets done st)
    {it : SegmentPlanItem}
    (member : it ∈ st.items) {j : Nat} (shifts : it.shiftedFrom = some j) :
    prefixLen ≤ j ∧ ∃ s, prev[j]? = some s ∧
      s.contentId hashTokens = it.segment.contentId hashTokens := by
  have here : j ∈ taken hashTokens (it.segment.contentId hashTokens) st.items :=
    List.mem_filterMap.2 ⟨it, List.mem_filter.2 ⟨member, by simp⟩, shifts⟩
  apply (mem_lateOf hashTokens).1
  rw [← run.pool]
  exact List.mem_append_left _ here

/-- The items that shift a segment of content `c` are as many as the segments they shift. -/
theorem length_taken (c : δ) {items : List SegmentPlanItem}
    (named : ∀ it ∈ items, it.action = .reuseShifted → ∃ j, it.prevIndex = some j) :
    (taken hashTokens c items).length =
      items.countP fun it => it.action = .reuseShifted ∧ it.segment.contentId hashTokens = c := by
  induction items with
  | nil => rfl
  | cons it items ih =>
    have tail := ih fun it' member => named it' (List.mem_cons_of_mem it member)
    rw [taken] at tail ⊢
    rw [List.countP_cons, ← tail]
    by_cases same : it.segment.contentId hashTokens = c
    · rw [List.filter_cons_of_pos (by simpa using same)]
      by_cases shifted : it.action = .reuseShifted
      · obtain ⟨j, prevIndex⟩ := named it List.mem_cons_self shifted
        have shifts : it.shiftedFrom = some j := by
          rw [SegmentPlanItem.shiftedFrom, if_pos shifted, prevIndex]
        simp [List.filterMap_cons_some shifts, shifted, same]
      · have shifts : it.shiftedFrom = none := if_neg shifted
        simp [List.filterMap_cons_none shifts, shifted]
    · simp [same]

theorem ReusePlan.of_run (injective : Function.Injective hashTokens)
    (longest : IsGreatest (commonPrefixes old.segments new.segments) prefixLen)
    (run : PlanRun hashTokens mode prefixLen old.segments old.offsets new.offsets new.segments.zipIdx st)
    (planMeta : PlanMeta) :
      ReusePlan old new mode prefixLen ⟨st.items, new.nTokens, st.exact, planMeta⟩ := by
  have tiling := run.tiles
  have segments : st.items.map SegmentPlanItem.segment = new.segments := by
    rw [map_eq_of_forall₂ (f := Prod.fst) (fun _ _ placed => placed.segment) run.placed,
      List.zipIdx_map_fst]
  have ranges := merged_recomputeRanges ⟨st.items, new.nTokens, st.exact, planMeta⟩
    fun it member => tiling.proper _ (List.mem_map_of_mem member)
  constructor
  case segments => exact segments
  case indices =>
    rw [map_eq_of_forall₂ (f := Prod.snd) (fun _ _ placed => placed.index) run.placed,
      List.zipIdx_map_snd,
      List.range_eq_range']
  case total => rfl
  case tiling => exact tiling
  case partition =>
    intro t
    constructor
    · intro inside
      obtain ⟨span, planned, here⟩ := (tiling.covered_iff t).2 ⟨Nat.zero_le t, inside⟩
      obtain ⟨it, member, rfl⟩ := List.mem_map.1 planned
      obtain ⟨i, found⟩ := List.mem_iff_getElem?.1 member
      -- an item of another index spans other tokens
      refine ⟨i, ⟨it, found, here⟩, ?_⟩
      rintro k ⟨it', found', here'⟩
      exact tiling.eq_of_inside (by rw [List.getElem?_map, found']; rfl) here'
        (by rw [List.getElem?_map, found]; rfl) here
    · rintro ⟨i, ⟨it, found, here⟩, _⟩
      exact ((tiling.covered_iff t).1 ⟨it.newSpan, List.mem_map_of_mem (List.mem_of_getElem? found),
        here⟩).2
  case longest => exact longest
  case reusedExact => exact run.exactPrefix
  case unmoved =>
    intro it member exact
    obtain ⟨prevIndex, positionShift⟩ := run.unmoved it member exact
    obtain ⟨found, span⟩ := run.placed_of_mem member
    refine ⟨prevIndex, positionShift, ?_⟩
    rw [span_of_commonPrefix longest.1 ((run.exactPrefix it member).1 exact) found, span]
  case reusedShifted =>
    intro it member shifted
    obtain ⟨selective, j, prevIndex, positionShift⟩ := run.shifted it member shifted
    have shifts : it.shiftedFrom = some j := by
      rw [SegmentPlanItem.shiftedFrom, if_pos shifted, prevIndex]
    obtain ⟨late, s, found, same⟩ := run.late_of_shifted member shifts
    exact ⟨selective, j, s, _, prevIndex, late, found, injective same, span_eq found, positionShift⟩
  case distinct =>
    apply nodup_filterMap_of_groups (g := fun it => it.segment.contentId hashTokens)
    · intro c
      have nodup := nodup_lateOf hashTokens old.segments prefixLen c
      rw [← run.pool] at nodup
      exact nodup.of_append_left
    · intro it member it' member' j shifts shifts'
      obtain ⟨_, s, found, same⟩ := run.late_of_shifted member shifts
      obtain ⟨_, s', found', same'⟩ := run.late_of_shifted member' shifts'
      cases found.symm.trans found'
      exact same.symm.trans same'
  case maximal =>
    intro selective tokens
    -- the greedy run has matched as many as can be matched, content by content
    have matched := run.greedy selective (hashTokens tokens)
    have named : ∀ it ∈ st.items, it.action = .reuseShifted → ∃ j, it.prevIndex = some j := by
      intro it member shifted
      obtain ⟨_, j, prevIndex, _⟩ := run.shifted it member shifted
      exact ⟨j, prevIndex⟩
    rw [length_taken _ named, length_lateOf, arrived_zipIdx, Nat.sub_zero,
      countP_contentId hashTokens injective,
      countP_contentId hashTokens injective] at matched
    rw [← matched]
    congr 1
    funext it
    simp [Segment.contentId, injective.eq_iff]
  case sums =>
    rw [tokens_by_action]
    show (st.items.map fun it => it.segment.nTokens).sum = (new.segments.map Segment.nTokens).sum
    rw [← segments, List.map_map]
    rfl
  case exact => exact run.flag
  case sorted => exact ranges.1.sorted
  case separated => exact ranges.1
  case recomputed => exact ranges.2

end Plan

/-- Over content ids that are injective on token lists, the plan is correct and maximal, for every
previous context or none, every new context and both modes. -/
theorem planIncremental_reusePlan (injective : Function.Injective hashTokens)
    (prev : Option SegmentedContext)
    (new : SegmentedContext) (mode : Mode) :
    ∃ prefixLen,
      ReusePlan (cached prev) new mode prefixLen (planIncremental hashTokens prev new mode) := by
  cases prev with
  | none =>
    refine ⟨0, ReusePlan.of_run injective ?_ (planRun_cold hashTokens new.segments mode new.offsets)
      (.coldStart mode)⟩
    exact commonPrefixLen_isGreatest hashTokens injective [] new.segments
  | some prev =>
    refine ⟨commonPrefixLen hashTokens prev.segments new.segments,
      ReusePlan.of_run injective (commonPrefixLen_isGreatest hashTokens injective _ _) ?_ _⟩
    exact planRun_foldl hashTokens
      (planRun_start hashTokens prev.segments _ mode prev.offsets new.offsets)
      new.segments.zipIdx

/-- A token lies in one item. -/
theorem ReusePlan.eq_of_inside {old new : SegmentedContext} {mode : Mode} {prefixLen : Nat}
    {plan : RecomputePlan}
    (correct : ReusePlan old new mode prefixLen plan) {it it' : SegmentPlanItem} {t : Nat}
    (member : it ∈ plan.items)
    (inside : Inside it.newSpan t) (member' : it' ∈ plan.items) (inside' : Inside it'.newSpan t) :
      it = it' := by
  obtain ⟨i, here⟩ := List.mem_iff_getElem?.1 member
  obtain ⟨i', here'⟩ := List.mem_iff_getElem?.1 member'
  have same : i = i' := correct.tiling.eq_of_inside (by rw [List.getElem?_map, here]; rfl) inside
    (by rw [List.getElem?_map, here']; rfl) inside'
  subst same
  exact Option.some.inj (here.symm.trans here')

theorem planIncremental_run (prev new : SegmentedContext) (mode : Mode) :
    ∃ st : PlanState δ, (planIncremental hashTokens (some prev) new mode).items = st.items ∧
      PlanRun hashTokens mode
        (commonPrefixLen hashTokens prev.segments new.segments) prev.segments prev.offsets new.offsets
        new.segments.zipIdx st :=
  ⟨_, rfl,
    planRun_foldl hashTokens
    (planRun_start hashTokens prev.segments _ mode prev.offsets new.offsets) new.segments.zipIdx⟩

/-- Every planned item stands at its segment's span of the new context. -/
theorem planIncremental_span (prev : SegmentedContext) {new : SegmentedContext} {mode : Mode}
    {it : SegmentPlanItem}
    (member : it ∈ (planIncremental hashTokens (some prev) new mode).items) :
    new.segments[it.index]? = some it.segment ∧
      it.newSpan = (new.offsets.getD it.index 0,
        new.offsets.getD it.index 0 + it.segment.nTokens) := by
  obtain ⟨st, items, run⟩ := planIncremental_run hashTokens prev new mode
  exact run.placed_of_mem (items ▸ member)

/-- Whatever the content ids are, the items' spans tile the new context. -/
theorem planIncremental_tiles (prev new : SegmentedContext) (mode : Mode) :
    Tiles 0 new.nTokens
      ((planIncremental hashTokens (some prev) new mode).items.map SegmentPlanItem.newSpan) := by
  obtain ⟨st, items, run⟩ := planIncremental_run hashTokens prev new mode
  exact items ▸ run.tiles

/-- Two documents swapped, the second of them recorded twice before. -/
theorem planIncremental_reusePlan_swapped :
    ∃ prefixLen,
      ReusePlan
      (cached (some ⟨[⟨"a", [1, 2], "context"⟩, ⟨"b", [3], "context"⟩, ⟨"b", [3], "context"⟩]⟩))
      ⟨[⟨"b", [3], "context"⟩, ⟨"a", [1, 2], "context"⟩]⟩ .selective prefixLen
      (planIncremental id
        (some ⟨[⟨"a", [1, 2], "context"⟩, ⟨"b", [3], "context"⟩, ⟨"b", [3], "context"⟩]⟩)
        ⟨[⟨"b", [3], "context"⟩, ⟨"a", [1, 2], "context"⟩]⟩ .selective) :=
  planIncremental_reusePlan id Function.injective_id _ _ _

end Dexa.Segments
