import Dexa.Segments.Model

/-! # The reuse planner (`dexa/segment/plan.py`)

`planIncremental` walks the new segments once, with the pool of previous segments
that may still be reused at another position.  In exact mode the pool is never
consulted, and `exact_items` states the plan in closed form.
-/

namespace Dexa.Segments

open Dexa.Lib

variable {δ : Type} [DecidableEq δ] (hashTokens : List Int → δ)

/-- Number of leading segments identical in content and order. -/
def commonPrefixLen : List Segment → List Segment → Nat
  | a :: prev, b :: new =>
    if a.contentId hashTokens = b.contentId hashTokens then commonPrefixLen prev new + 1 else 0
  | _, _ => 0

/-- Indices of the previous segments after the common prefix, by content id, in order. -/
def shiftedPool (prev : List Segment) (start : Nat) : Dict δ (List Nat) :=
  (prev.zipIdx.drop start).foldl
    (fun pool e =>
      let cid := e.1.contentId hashTokens
      pool.set cid ((pool.get? cid).getD [] ++ [e.2]))
    Dict.empty

/-- State of the loop over the new segments. -/
structure PlanState (δ : Type) where
  items : List SegmentPlanItem
  pool : Dict δ (List Nat)
  usedExact : Bool
  exact : Bool

/-- One iteration of the loop: segment `seg` at index `i`, starting at `start`. -/
def planStep (mode : Mode) (commonLen : Nat) (prevOffsets newOffsets : List Nat) (st : PlanState δ)
    (e : Segment × Nat) : PlanState δ :=
  let seg := e.1
  let i := e.2
  let start := newOffsets.getD i 0
  let span := (start, start + seg.nTokens)
  if i < commonLen then
    { st with
      items := st.items ++ [{ index := i, action := .reuseExact, segment := seg, newSpan := span,
                              prevIndex := some i, positionShift := 0 }]
      usedExact := true }
  else
    let cid := seg.contentId hashTokens
    match mode, st.pool.get? cid with
    | .selective, some (matched :: rest) =>
      { st with
        items :=
          st.items ++ [{ index := i, action := .reuseShifted, segment := seg, newSpan := span,
                                prevIndex := some matched,
                                positionShift :=
                                  (start : Int) - (prevOffsets.getD matched 0 : Nat) }]
        pool := st.pool.set cid rest
        exact := false }
    | _, _ =>
      { st with items := st.items ++ [{ index := i, action := .recompute, segment := seg, newSpan := span }] }

/-- Plan the minimal work to build the KV of `new` given the cached KV of `prev`. -/
def planIncremental (prev : Option SegmentedContext) (new : SegmentedContext) (mode : Mode) :
    RecomputePlan :=
  let newOffsets := new.offsets
  match prev with
  | none =>
    { items := new.segments.zipIdx.map fun e =>
        let start := newOffsets.getD e.2 0
        { index := e.2, action := .recompute, segment := e.1, newSpan := (start, start + e.1.nTokens) }
      totalTokens := new.nTokens
      exact := true
      metadata := .coldStart mode }
  | some prev =>
    let commonLen := commonPrefixLen hashTokens prev.segments new.segments
    let st := new.segments.zipIdx.foldl (planStep hashTokens mode commonLen prev.offsets newOffsets)
      { items := [], pool := shiftedPool hashTokens prev.segments commonLen, usedExact := false, exact := true }
    { items := st.items
      totalTokens := new.nTokens
      exact := st.exact
      metadata := .warm mode commonLen st.usedExact }

theorem commonPrefixLen_le_left (prev new : List Segment) :
    commonPrefixLen hashTokens prev new ≤ prev.length := by
  fun_induction commonPrefixLen hashTokens prev new <;> simp_all

theorem commonPrefixLen_le_right (prev new : List Segment) :
    commonPrefixLen hashTokens prev new ≤ new.length := by
  fun_induction commonPrefixLen hashTokens prev new <;> simp_all

/-- Over an injective hash the common prefix has the same tokens, segment by segment. -/
theorem tokenIds_take_commonPrefix (injective : Function.Injective hashTokens)
    (prev new : List Segment) :
    (prev.take (commonPrefixLen hashTokens prev new)).map Segment.tokenIds =
      (new.take (commonPrefixLen hashTokens prev new)).map Segment.tokenIds := by
  fun_induction commonPrefixLen hashTokens prev new with
  | case1 a prev b new same ih =>
    have tokens : a.tokenIds = b.tokenIds := injective same
    simp [tokens, ih]
  | case2 => simp
  | case3 => simp

/-- What exact mode plans for the segment at index `i`. -/
def exactItem (commonLen : Nat) (newOffsets : List Nat) (e : Segment × Nat) : SegmentPlanItem :=
  let start := newOffsets.getD e.2 0
  if e.2 < commonLen then
    { index := e.2, action := .reuseExact, segment := e.1, newSpan := (start, start + e.1.nTokens),
      prevIndex := some e.2, positionShift := 0 }
  else
    { index := e.2, action := .recompute, segment := e.1, newSpan := (start, start + e.1.nTokens) }

theorem planStep_exact_items (commonLen : Nat) (prevOffsets newOffsets : List Nat)
    (st : PlanState δ)
    (e : Segment × Nat) :
    (planStep hashTokens .exact commonLen prevOffsets newOffsets st e).items =
      st.items ++ [exactItem commonLen newOffsets e] := by
  by_cases h : e.2 < commonLen <;> simp [planStep, exactItem, h]

theorem foldl_planStep_exact_items (commonLen : Nat) (prevOffsets newOffsets : List Nat)
    (es : List (Segment × Nat)) (st : PlanState δ) :
    (es.foldl (planStep hashTokens .exact commonLen prevOffsets newOffsets) st).items =
      st.items ++ es.map (exactItem commonLen newOffsets) := by
  induction es generalizing st with
  | nil => simp
  | cons e es ih => rw [List.foldl_cons, ih, planStep_exact_items]; simp

theorem exact_items (prev new : SegmentedContext) :
    (planIncremental hashTokens (some prev) new .exact).items =
      new.segments.zipIdx.map
        (exactItem (commonPrefixLen hashTokens prev.segments new.segments) new.offsets) := by
  simp only [planIncremental, foldl_planStep_exact_items, List.nil_append]

theorem sum_exactItem (commonLen : Nat) (newOffsets : List Nat) (segs : List Segment) (k : Nat) :
    ((((segs.zipIdx k).map (exactItem commonLen newOffsets)).filter
        fun it => it.action = .reuseExact).map fun it => it.segment.nTokens).sum =
      ((segs.take (commonLen - k)).map Segment.nTokens).sum := by
  induction segs generalizing k with
  | nil => simp
  | cons s segs ih =>
    by_cases h : k < commonLen
    · obtain ⟨d, hd⟩ : ∃ d, commonLen - k = d + 1 := ⟨commonLen - k - 1, by omega⟩
      have tail := ih (k + 1)
      rw [show commonLen - (k + 1) = d by omega] at tail
      simp [List.zipIdx_cons, exactItem, h, hd, tail]
    · have tail := ih (k + 1)
      rw [show commonLen - (k + 1) = 0 by omega] at tail
      simp [List.zipIdx_cons, exactItem, h, show commonLen - k = 0 by omega, tail]

/-- An exact plan reuses the tokens of the common segment prefix. -/
theorem reusedExactTokens_exact (prev new : SegmentedContext) :
    (planIncremental hashTokens (some prev) new .exact).reusedExactTokens =
      ((new.segments.take
        (commonPrefixLen hashTokens prev.segments new.segments)).map Segment.nTokens).sum := by
  rw [RecomputePlan.reusedExactTokens, RecomputePlan.tokensOf, exact_items, sum_exactItem,
    Nat.sub_zero]

/-- The tokens an exact plan reuses lead both contexts. -/
theorem take_reusedExactTokens (injective : Function.Injective hashTokens)
    (prev new : SegmentedContext) :
    prev.tokenIds.take (planIncremental hashTokens (some prev) new .exact).reusedExactTokens =
      new.tokenIds.take (planIncremental hashTokens (some prev) new .exact).reusedExactTokens := by
  have same := tokenIds_take_commonPrefix hashTokens injective prev.segments new.segments
  have lengths : ((prev.segments.take (commonPrefixLen hashTokens prev.segments new.segments)).map
      Segment.nTokens) =
        ((new.segments.take (commonPrefixLen hashTokens prev.segments new.segments)).map
      Segment.nTokens) := by
    have := congrArg (List.map List.length) same
    rwa [List.map_map, List.map_map] at this
  rw [reusedExactTokens_exact, new.take_tokenIds, ← lengths, prev.take_tokenIds, List.flatMap_def,
    List.flatMap_def, same]

end Dexa.Segments
