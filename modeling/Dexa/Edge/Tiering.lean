import Mathlib.Algebra.Order.Ring.Rat
import Mathlib.Data.Rat.Floor

/-! # Tiering and savings (`edge/src/tiering.ts`)

The break-even idle times of a session's context size, over exact rationals.  A token count
can be JavaScript's `NaN`; it makes every comparison false and every sum `NaN`.
-/

namespace Dexa.Edge

/-- A number, or `NaN` as `none`. -/
abbrev Number := Option ℚ

def Number.add (a b : Number) : Number := a.bind fun x => b.map (x + ·)

/-- `Math.round(x)`. -/
def mathRound (q : ℚ) : ℚ := (q + 1 / 2).floor

/-- `+x.toFixed(digits)`: the larger of two nearest values, on the magnitude. -/
def toFixed (digits : Nat) (q : ℚ) : ℚ :=
  let magnitude : ℚ := (|q| * 10 ^ digits + 1 / 2).floor / 10 ^ digits
  if q < 0 then -magnitude else magnitude

/-- `x.toFixed(0)`. -/
def toFixedString (q : Number) : String :=
  match q with
  | none => "NaN"
  | some q => (if q < 0 then "-" else "") ++ toString (|q| + 1 / 2).floor

structure Profile where
  kvGb : ℚ
  prefillMs : ℚ
  restoreCpuMs : ℚ
  restoreNvmeMs : ℚ
  deriving DecidableEq, Repr

def Profile.scale (p : Profile) (f : ℚ) : Profile :=
  ⟨p.kvGb * f, p.prefillMs * f, p.restoreCpuMs * f, p.restoreNvmeMs * f⟩

/-- `lerp`. -/
def Profile.lerp (a b : Profile) (f : ℚ) : Profile :=
  ⟨a.kvGb + f * (b.kvGb - a.kvGb), a.prefillMs + f * (b.prefillMs - a.prefillMs),
    a.restoreCpuMs + f * (b.restoreCpuMs - a.restoreCpuMs),
      a.restoreNvmeMs + f * (b.restoreNvmeMs - a.restoreNvmeMs)⟩

/-- The first and last rows of `PROFILE`, and all of them. -/
def smallest : ℚ × Profile := (4096, ⟨23 / 100, 296, 25, 246⟩)

def largest : ℚ × Profile := (65536, ⟨94 / 25, 8567, 297, 1228⟩)

def profiles : List (ℚ × Profile) :=
  [smallest, (16384, ⟨47 / 50, 1321, 115, 390⟩), (32768, ⟨47 / 25, 3167, 182, 646⟩), largest]

/-- The loop `while (tokens > PROFILE[i + 1][0]) i++`, from the row `lo` on. -/
def interpolate (tokens : ℚ) (lo : ℚ × Profile) : List (ℚ × Profile) → Profile
  | [] => lo.2
  | hi :: rest =>
    if tokens > hi.1 then interpolate tokens hi rest
    else lo.2.lerp hi.2 ((tokens - lo.1) / (hi.1 - lo.1))

def profileFor (tokens : ℚ) : Profile :=
  if tokens ≤ smallest.1 then smallest.2.scale (tokens / smallest.1)
  else if tokens ≥ largest.1 then largest.2.scale (tokens / largest.1)
  else interpolate tokens smallest profiles.tail

def gpuUsdHr : ℚ := 9 / 5

def ramUsdGbHr : ℚ := 3 / 500

def nvmeUsdGbHr : ℚ := 1 / 5000

def gpuUsableGb : ℚ := 60

def gpuUsdS : ℚ := gpuUsdHr / 3600

structure Breakevens where
  warmS : ℚ
  ramS : ℚ
  nvmeS : ℚ
  deriving DecidableEq, Repr

def breakevens (tokens : ℚ) : Breakevens :=
  let p := profileFor tokens
  let prefill := p.prefillMs / 1000 * gpuUsdS
  let rCpu := p.restoreCpuMs / 1000 * gpuUsdS
  let rNvme := p.restoreNvmeMs / 1000 * gpuUsdS
  let warmHr := p.kvGb / gpuUsableGb * gpuUsdHr
  let ramHr := p.kvGb * ramUsdGbHr
  let nvmeHr := p.kvGb * nvmeUsdGbHr
  ⟨prefill / warmHr * 3600, (prefill - rCpu) / ramHr * 3600, (prefill - rNvme) / nvmeHr * 3600⟩

inductive Tier where
  | warm
  | ram
  | nvme
  | drop
  deriving DecidableEq, Repr

structure Decision where
  tier : Tier
  reason : String
  breakevens : Option Breakevens
  deriving DecidableEq, Repr

def tierFor (idleS : ℚ) (be : Breakevens) : Tier :=
  if idleS ≤ be.warmS then .warm
  else if idleS ≤ be.ramS then .ram
  else if idleS ≤ be.nvmeS then .nvme
  else .drop

def decideTier (idleS : ℚ) (tokens : Number) : Decision :=
  let be := tokens.map Dexa.Edge.breakevens
  { -- with `NaN` break-evens every comparison is false
    tier := be.elim .drop (tierFor idleS)
    reason := "idle " ++ toFixedString (some idleS) ++ "s vs break-evens warm " ++ toFixedString
      (be.map (·.warmS)) ++
      "s / ram " ++ toFixedString (be.map (·.ramS)) ++ "s / nvme " ++ toFixedString
        (be.map (·.nvmeS)) ++ "s"
    breakevens := be }

structure EstimatedSavings where
  reprefillMs : Number
  restoreMs : Number
  savedMs : Number
  savedUsd : Number
  /-- `null` on a cold turn -/
  speedup : Option Number
  deriving DecidableEq

def estimatedSavings (tokens : Number) (warm : Bool) : EstimatedSavings :=
  let p := tokens.map profileFor
  if !warm then
    { reprefillMs := p.map (·.prefillMs), restoreMs := p.map (·.restoreCpuMs), savedMs := some 0, savedUsd := some 0,
      speedup := none }
  else
    let savedMs := p.map fun p => max 0 (p.prefillMs - p.restoreCpuMs)
    { reprefillMs := p.map fun p => mathRound p.prefillMs
      restoreMs := p.map fun p => mathRound p.restoreCpuMs
      savedMs := savedMs.map mathRound
      savedUsd := savedMs.map fun ms => ms / 1000 * gpuUsdS
      speedup := some (p.map fun p => toFixed 1 (p.prefillMs / p.restoreCpuMs)) }

example : (decideTier 100 (some 8192)).tier = .ram := by decide +kernel

end Dexa.Edge
