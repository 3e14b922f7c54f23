import Dexa.Lib.NDArray
import Dexa.Platform.Values

/-! # The session redundancy meter (`dexa_platform/gateway/redundancy.py`)

The meter keeps, per session, the hash of the last frame and the grid of mean lumas of
its 28×28 patches.  `observe` compares a frame with them.  It raises on bytes that PIL
cannot decode, and by then may already have recorded the hash.
-/

namespace Dexa.Platform

open Dexa.Lib

/-- The library functions the gateway calls: `hashlib.sha256(..).hexdigest()`, `str` of a
    JSON value that is not a string, the size and the luma plane (`convert("L")`) PIL gives
    for image bytes, `none` where it raises, and whether the imaging libraries are
    installed. -/
structure Runtime where
  sha256 : Bytes → String
  str : Json → String
  imageSize : Bytes → Option (Nat × Nat)
  luma : Bytes → Option (NDArray Int)
  haveCv : Bool

/-- `PATCH`. -/
def patch : Nat := 28

/-- `THRESH`. -/
def thresh : ℚ := 6

/-- `a.shape[axis]`. -/
def extent {α : Type} (a : NDArray α) (axis : Nat) : Nat := a.shape.getD axis 0

/-- The pixels of the patch at row `i`, column `j`. -/
def patchPixels (a : NDArray Int) (i j : Nat) : List Int :=
  (List.range patch).flatMap fun y => (List.range patch).map
    fun x => a.getD [i * patch + y, j * patch + x] 0

/-- `_patch_grid`, on the decoded luma plane.  The means are exact, where the code has `float64`. -/
def patchGrid (a : NDArray Int) : Option (NDArray ℚ) :=
  let h := extent a 0 / patch * patch
  let w := extent a 1 / patch * patch
  if h = 0 ∨ w = 0 then none
  else some (NDArray.ofFn [h / patch, w / patch] fun ix =>
    ((patchPixels a (ix.getD 0 0) (ix.getD 1 0)).sum : ℚ) / (patch * patch : Nat))

/-- `_changed_fraction`: the share of the common patches whose means differ by more than the
    threshold; rounded means can fall on the other side of it when they differ by just that much. -/
def changedFraction (prev cur : NDArray ℚ) : ℚ :=
  let gh := min (extent prev 0) (extent cur 0)
  let gw := min (extent prev 1) (extent cur 1)
  let cells := (List.range gh).flatMap fun i => (List.range gw).map fun j => [i, j]
  (cells.countP fun ix => thresh < |prev.getD ix 0 - cur.getD ix 0| : ℚ) / (gh * gw : Nat)

structure Observation where
  firstFrame : Bool
  exactDuplicate : Bool
  changedFrac : ℚ
  redundantFrac : ℚ
  deriving DecidableEq

structure RedundancyMeter where
  hash : Dict String String := Dict.empty
  grid : Dict String (NDArray ℚ) := Dict.empty

namespace RedundancyMeter

/-- `self._patch_grid(img_bytes)` after the meter has come this far. -/
def gridOf (rt : Runtime) (imgBytes : Bytes) : Except Raised (Option (NDArray ℚ)) :=
  match rt.luma imgBytes with
  | none => .error .unidentifiedImage
  | some a => .ok (patchGrid a)

/-- The fraction of a frame that changed, with the meter's grids after it was computed. -/
def changedOf (rt : Runtime) (m : RedundancyMeter) (session : String) (imgBytes : Bytes)
    (first exact : Bool) :
    Except Raised (ℚ × RedundancyMeter) :=
  if exact then .ok (0, m)
  else if first then .ok (1, m)
  else if rt.haveCv then
    match gridOf rt imgBytes with
    | .error e => .error e
    | .ok none => .ok (1, m)
    | .ok (some cur) =>
      let changed := match m.grid.get? session with
        | some prev => changedFraction prev cur
        | none => 1
      .ok (changed, { m with grid := m.grid.set session cur })
  -- no imaging libraries: a frame that is not identical counts as fully changed
  else .ok (1, m)

/-- `RedundancyMeter.observe`: what it returns or raises, and the meter it leaves. -/
def observe (rt : Runtime) (m : RedundancyMeter) (session : String) (imgBytes : Bytes) :
    Except Raised Observation × RedundancyMeter :=
  let digest := rt.sha256 imgBytes
  let prevHash := m.hash.get? session
  let first := prevHash.isNone
  let exact := !first && prevHash == some digest
  match changedOf rt m session imgBytes first exact with
  | .error e => (.error e, m)
  | .ok (changed, m) =>
    let m := { m with hash := m.hash.set session digest }
    let seen : Observation :=
      { firstFrame := first, exactDuplicate := exact, changedFrac := changed, redundantFrac := max 0 (1 - changed) }
    if !exact && rt.haveCv && !m.grid.contains session then
      match gridOf rt imgBytes with
      | .error e => (.error e, m)
      | .ok none => (.ok seen, m)
      | .ok (some g) => (.ok seen, { m with grid := m.grid.set session g })
    else (.ok seen, m)

end RedundancyMeter

end Dexa.Platform
