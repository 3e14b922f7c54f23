import Mathlib.Algebra.Order.Floor.Defs
import Mathlib.Algebra.Field.Defs
import Mathlib.Algebra.Order.Ring.Defs
import Mathlib.Order.TypeTags
import Mathlib.Algebra.BigOperators.Group.List.Basic
import Dexa.Core.Types
import Dexa.Lib.ArraySlices

/-! # Selective recomputation (`dexa/segment/selective.py`)

The pure part: re-phasing cached keys, scoring tokens by how far their KV is off, choosing
which to recompute, and blending two caches.  Numbers are exact; the square root and the
order `argsort` gives equal keys are numpy's.
-/

namespace Dexa.Segments

open Dexa.Core Dexa.Lib

structure Numpy (α : Type) where
  sqrt : α → α
  argsort : List (WithBot α) → List Nat

/-- `_rotate_half`: `(-x2, x1)` of the two halves of the last axis. -/
def rotateHalf {β : Type} [Zero β] [Neg β] (x : NDArray β) : NDArray β :=
  match x.shape with
  | [h, t, d] => NDArray.ofFn [h, t, d] fun
    | [i, j, c] =>
      if c < d - d / 2 then -x.getD [i, j, d / 2 + c] 0 else x.getD [i, j, c - (d - d / 2)] 0
    | _ => 0
  | _ => x

variable {α : Type}

/-- The rotation by a position delta; `number` is what an element of `keys` counts for in a
    product with a float. -/
def ropeRephaseKeys {β : Type} [Zero β] [Neg β] [Zero α] [Add α] [Mul α] (number : β → α)
    (keys : NDArray β) (cos sin : List α) : NDArray α :=
  let rotated := rotateHalf keys
  NDArray.ofFn keys.shape fun
    | [i, j, c] =>
      number (keys.getD [i, j, c] 0) * cos.getD c 0 + number
        (rotated.getD [i, j, c] 0) * sin.getD c 0
    | _ => 0

variable [Inhabited α] [Field α] [LinearOrder α] [FloorRing α] (np : Numpy α)

/-- What token `i` of `a` and `b` differs by, squared and summed over heads and channels. -/
def squaredGap (a b : NDArray α) (i : Nat) : α :=
  ((List.range (a.shape.getD 0 0)).map fun h =>
    ((List.range (a.shape.getD 2 0)).map
      fun c => (a.getD [h, i, c] default - b.getD [h, i, c] default) ^ 2).sum).sum

/-- `layers` is the number of leading layers to score, all of them if absent. -/
def perTokenKvDeviation (reused correct : KVCache α) (start stop : Nat) (layers : Option Int) :
    List α :=
  let nLayers := reused.layers.length
  let use := (layers.elim (nLayers : Int) fun n => min n nLayers).toNat
  (List.range' start (stop - start)).map fun i =>
    (((reused.layers.zip correct.layers).take use).map fun (rk, ck) =>
      np.sqrt (squaredGap ck.key rk.key i + squaredGap ck.value rk.value i)).sum

/-- The fixed order of the `random` baseline. -/
def hashOrder (n : Nat) : List Nat :=
  (List.range n).mergeSort fun i j => decide (i * 2654435761 % 2 ^ 32 ≤ j * 2654435761 % 2 ^ 32)

/-- Absolute indices to recompute, sorted; `none` for an unknown strategy. -/
def hkvdSelect (deviation : List (WithBot α)) (frac : α) (offset : Nat) (strategy : String) :
    Option (List Nat) :=
  let n := deviation.length
  let k := max 0 (min (if 0 < frac then ⌈frac * n⌉ else 0) n)
  if k = 0 then some []
  else do
    let idx ← match strategy with
      | "hkvd" => some ((np.argsort deviation).reverse.take k.toNat)
      | "recent" => some (List.range' (n - k.toNat) k.toNat)
      | "random" => some ((hashOrder n).take k.toNat)
      | _ => none
    return (idx.mergeSort fun i j => decide (i ≤ j)).map (· + offset)

/-- `a[:, sel] = b[:, sel]`. -/
def replaceColumns (a b : NDArray α) (sel : List Nat) : NDArray α :=
  NDArray.ofFn a.shape fun ix =>
    if ix.getD 1 0 ∈ sel then b.getD ix default else a.getD ix default

/-- The correct KV at `recomputeIdx`, the reused elsewhere. -/
def blendKV (reused correct : KVCache α) (recomputeIdx : List Nat) : KVCache α :=
  { spec := reused.spec
    layers := (reused.layers.zip correct.layers).map fun (rl, cl) =>
      ⟨replaceColumns rl.key cl.key recomputeIdx, replaceColumns rl.value cl.value recomputeIdx⟩
    positions := reused.positions
    tokenIds := correct.tokenIds
    metadata := reused.metadata }

end Dexa.Segments
