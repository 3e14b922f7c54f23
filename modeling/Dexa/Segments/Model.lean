import Mathlib.Data.List.Sort
import Dexa.Core.Types

/-! # Segments and recompute plans (`dexa/segment/model.py`)

A context is an ordered list of content-identified segments.  The content id is the
hash of the tokens; the hash function is a parameter, so that a result can say
what it needs of it (injectivity) where it needs it.
-/

namespace Dexa.Segments

open Dexa.Core

/-- One content-identified span of a context. -/
structure Segment where
  name : String
  tokenIds : List Int
  role : String := "context"
  deriving DecidableEq, Repr

def Segment.nTokens (s : Segment) : Nat := s.tokenIds.length

def Segment.contentId {δ : Type} (hashTokens : List Int → δ) (s : Segment) : δ :=
  hashTokens s.tokenIds

/-- An ordered list of segments. -/
structure SegmentedContext where
  segments : List Segment
  deriving DecidableEq, Repr

namespace SegmentedContext

def tokenIds (ctx : SegmentedContext) : List Int := ctx.segments.flatMap Segment.tokenIds

def nTokens (ctx : SegmentedContext) : Nat := (ctx.segments.map Segment.nTokens).sum

/-- Start positions of the segments, the first of them at `acc`. -/
def offsetsFrom (acc : Nat) : List Segment → List Nat
  | [] => []
  | s :: rest => acc :: offsetsFrom (acc + s.nTokens) rest

def offsets (ctx : SegmentedContext) : List Nat := offsetsFrom 0 ctx.segments

/-- `[start, end)` token range of segment `i`; `none` where there is no such segment. -/
def span (ctx : SegmentedContext) (i : Nat) : Option (Nat × Nat) := do
  let start ← ctx.offsets[i]?
  let seg ← ctx.segments[i]?
  return (start, start + seg.nTokens)

theorem length_tokenIds (ctx : SegmentedContext) : ctx.tokenIds.length = ctx.nTokens := by
  simp only [tokenIds, nTokens, List.length_flatMap]
  rfl

/-- The tokens of the leading segments are a leading run of the context's tokens. -/
theorem take_tokenIds (ctx : SegmentedContext) (k : Nat) :
    ctx.tokenIds.take ((ctx.segments.take k).map Segment.nTokens).sum =
      (ctx.segments.take k).flatMap Segment.tokenIds := by
  have split : ctx.tokenIds =
      (ctx.segments.take k).flatMap Segment.tokenIds ++
        (ctx.segments.drop k).flatMap Segment.tokenIds := by
    rw [← List.flatMap_append, List.take_append_drop]; rfl
  have length : ((ctx.segments.take k).flatMap Segment.tokenIds).length =
      ((ctx.segments.take k).map Segment.nTokens).sum := length_tokenIds ⟨ctx.segments.take k⟩
  rw [split, List.take_append_of_le_length length.ge, List.take_of_length_le length.le]

end SegmentedContext

inductive Action where
  | reuseExact
  | reuseShifted
  | recompute
  deriving DecidableEq, Repr

/-- Per-segment decision in the new context. -/
structure SegmentPlanItem where
  index : Nat
  action : Action
  segment : Segment
  newSpan : Nat × Nat
  prevIndex : Option Nat := none
  positionShift : Int := 0
  deriving DecidableEq, Repr

inductive Mode where
  | exact
  | selective
  deriving DecidableEq, Repr

/-- What the planner reports beside the plan: a cold start, or the length of the
    common segment prefix and whether any of it was used. -/
inductive PlanMeta where
  | coldStart (mode : Mode)
  | warm (mode : Mode) (prefixSegments : Nat) (usedExactPrefix : Bool)
  deriving DecidableEq, Repr

structure RecomputePlan where
  items : List SegmentPlanItem
  totalTokens : Nat
  exact : Bool := true
  metadata : PlanMeta
  deriving DecidableEq, Repr

namespace RecomputePlan

def tokensOf (action : Action) (plan : RecomputePlan) : Nat :=
  ((plan.items.filter fun it => it.action = action).map fun it => it.segment.nTokens).sum

def reusedExactTokens (plan : RecomputePlan) : Nat := plan.tokensOf .reuseExact

def reuseShiftedTokens (plan : RecomputePlan) : Nat := plan.tokensOf .reuseShifted

def recomputeTokens (plan : RecomputePlan) : Nat := plan.tokensOf .recompute

/-- Extend the last merged range by `(a, b)`, or start a new one. -/
def mergeRange (merged : List (Nat × Nat)) (r : Nat × Nat) : List (Nat × Nat) :=
  match merged.getLast? with
  | some last => if r.1 ≤ last.2 then merged.dropLast ++ [(last.1, max last.2 r.2)] else merged ++ [r]
  | none => [r]

/-- Merged token ranges of the hard recompute segments. -/
def recomputeRanges (plan : RecomputePlan) : List (Nat × Nat) :=
  let raw := (plan.items.filter fun it => it.action = .recompute).map SegmentPlanItem.newSpan
  (raw.mergeSort fun r r' => decide (r.1 < r'.1 ∨ (r.1 = r'.1 ∧ r.2 ≤ r'.2))).foldl mergeRange []

end RecomputePlan

end Dexa.Segments
