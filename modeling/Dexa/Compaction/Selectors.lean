import Dexa.Compaction.AttentionMatching
import Dexa.Compaction.Baselines
import Dexa.Engine.PrefixKeys

/-! # Baselines that score or sample (`dexa/compaction/baselines.py`)

The heavy hitters keep the keys with the most attention, over all reference queries or the last
ones, and a recent window; the floor baseline keeps a sample that the text determines.
-/

namespace Dexa.Compaction

open Dexa.Core Dexa.Lib

variable {α : Type} [Inhabited α]

/-- The loop over the layers that the selection-only compactors share. -/
def selectLayers [Zero α] (cache : KVCache α) (method : String)
    (selPerHead : Nat → LayerKV α → Except Raised (List (List Nat))) :
      Except Raised (CompactCache α) := do
  let layers ← (List.range cache.spec.nLayers).mapM fun l => do
    let layer ← index cache.layers l
    makeLayer layer.key layer.value cache.positions (← selPerHead l layer)
  return { spec := cache.spec, layers, logicalLength := cache.seqLen, method }

/-- `FullKV`: every key and value, whatever the budget. -/
def fullKV [Zero α] : Compactor α where
  name := "full_kv"
  needsRefQueries := false
  compact cache _ _ :=
    selectLayers cache "full_kv" fun _ _ => .ok
      (List.replicate cache.spec.nKvHeads (List.range cache.seqLen))

section Scores

variable [Field α] [LinearOrder α] (np : Numerics α)

/-- `np.unique`. -/
def unique (l : List Nat) : List Nat := l.dedup.mergeSort fun i j => decide (i ≤ j)

/-- `_topk_with_recent`. -/
def topkWithRecent {k : Nat} (scores : Fin k → α) (t : Int) (T : Nat) (recent : Int) : List Nat :=
  let recent := min (min recent t) T
  let recentIdx := List.range' (T - recent).toNat recent.toNat
  let masked := fun j : Fin k => if j.val ∈ recentIdx then ⊥ else (scores j : WithBot α)
  let need := t - recent
  let sel := if 0 < need then recentIdx ++ sliceTo (bestFirst np masked) need else recentIdx
  unique sel

/-- The selection of one head by what the queries `Q` give its keys. -/
def selectByMass {d : Nat} (kAll : NDArray α) (scale : α) (t : Int) (T : Nat) (recent : Int)
    (h : Nat) (Q : List (Fin d → α)) :
    Except Raised (List Nat) := do
  let A ← softmax np (logitsOf Q (← rowsOf kAll h d) scale)
  return topkWithRecent np (mass A) t T recent

/-- `HeavyHitter`. -/
def heavyHitter (recentFrac : ℚ := 1 / 5) : Compactor α where
  name := "heavy_hitter"
  needsRefQueries := true
  compact cache budget
    | none => .error (.valueError "HeavyHitter requires ref_queries")
    | some refs => do
      let spec := cache.spec
      let scale := 1 / np.sqrt spec.headDim
      let T := cache.seqLen
      let t := min (← budget.targetT T) T
      let recent := roundShare recentFrac t
      selectLayers cache "heavy_hitter" fun l layer => do
        let qAll ← index refs.layers l
        (List.range spec.nKvHeads).mapM fun h => do
          let Q ← groupQueries qAll spec h
          selectByMass np layer.key scale t T recent h Q

/-- The last queries of every query head in the group. -/
def observationWindow (qAll : NDArray α) (spec : ModelSpec) (window : Int) (h : Nat) :
    Except Raised (List (Fin spec.headDim → α)) := do
  let nRef ← index qAll.shape 1
  let w := min (nRef : Int) window
  stackRows (← (← groupHeads spec h).mapM fun qh => return (← rowsOf qAll qh spec.headDim).drop (nRef - w).toNat)

/-- `SnapKVLite`. -/
def snapKVLite (window : Int := 32) (recentFrac : ℚ := 1 / 5) : Compactor α where
  name := "snapkv"
  needsRefQueries := true
  compact cache budget
    | none => .error (.valueError "SnapKVLite requires ref_queries")
    | some refs => do
      let spec := cache.spec
      let scale := 1 / np.sqrt spec.headDim
      let T := cache.seqLen
      let t := min (← budget.targetT T) T
      let recent := roundShare recentFrac t
      selectLayers cache "snapkv" fun l layer => do
        let qAll ← index refs.layers l
        (List.range spec.nKvHeads).mapM fun h => do
          -- `Qfull`, which is stacked and not used
          let _ ← groupQueries qAll spec h
          let obs ← observationWindow qAll spec window h
          selectByMass np layer.key scale t T recent h obs

end Scores

structure Sampling where
  /-- `int(blake2b(data, digest_size=16).hexdigest()[:8], 16)` -/
  digest : List UInt8 → Nat
  /-- `default_rng(seed).choice(T, size=size, replace=False)` -/
  choice : Nat → Nat → Nat → List Nat

/-- The sample of one head; a negative size is refused. -/
def Sampling.draw (rng : Sampling) (seed T : Nat) (size : Int) : Except Raised (List Nat) :=
  if size < 0 then .error (.valueError "negative dimensions are not allowed")
    else .ok (rng.choice seed T size.toNat)

/-- The seed that the tokens give, or the positions where the tokens are not known. -/
def Sampling.seedOf (rng : Sampling) (cache : KVCache α) : Except Raised Nat :=
  match Engine.hashInput (cache.tokenIds.getD cache.positions) with
  | some data => .ok (rng.digest data)
  | none => .error .overflow

/-- `RandomSubset`. -/
def randomSubset [Zero α] (rng : Sampling) : Compactor α where
  name := "random_subset"
  needsRefQueries := false
  compact cache budget _ := do
    let spec := cache.spec
    let T := cache.seqLen
    let t := min (← budget.targetT T) T
    let seed ← rng.seedOf cache
    selectLayers cache "random_subset" fun l _ =>
      (List.range spec.nKvHeads).mapM fun h => rng.draw (seed + l * spec.nKvHeads + h) T t

end Dexa.Compaction
