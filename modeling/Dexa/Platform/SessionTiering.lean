import Dexa.Edge.Tiering
import Dexa.Platform.Values
import Mathlib.Algebra.Order.Ring.WithTop

/-! # Tiering policy (`dexa_platform/sessions/tiering.py`)

The same cost model as at the edge, over exact rationals.  A break-even with nothing to store
is infinite.
-/

namespace Dexa.Platform.Sessions

open Dexa.Edge (Profile Tier)

/-- `PROFILE`, by its sorted keys. -/
def profileRows : List (ℚ × Profile) :=
  [(4096, ⟨23 / 100, 296, 25, 246⟩), (16384, ⟨47 / 50, 1321, 115, 390⟩),
    (32768, ⟨47 / 25, 3167, 182, 646⟩),
   (65536, ⟨94 / 25, 8567, 297, 1228⟩)]

/-- The loop over neighbouring rows, and the extrapolation above the table. -/
def interpolateRows (tokens : ℚ) : List (ℚ × Profile) → Profile
  | [] => ⟨0, 0, 0, 0⟩
  | [last] => last.2.scale (tokens / last.1)
  | lo :: hi :: rows =>
    if tokens ≤ hi.1 then lo.2.lerp hi.2 ((tokens - lo.1) / (hi.1 - lo.1))
      else interpolateRows tokens (hi :: rows)

/-- `profile_for`. -/
def profileFor (tokens : Nat) : Profile :=
  match profileRows with
  | [] => ⟨0, 0, 0, 0⟩
  | first :: rows =>
    if tokens ≤ first.1 then first.2.scale (tokens / first.1)
      else interpolateRows tokens (first :: rows)

def gpuUsdHr : ℚ := 9 / 5

def ramUsdGbHr : ℚ := 3 / 500

def nvmeUsdGbHr : ℚ := 1 / 5000

def gpuUsableGb : ℚ := 60

def gpuUsdS : ℚ := gpuUsdHr / 3600

/-- Seconds; `⊤` is `inf`. -/
structure Breakevens where
  warmS : WithTop ℚ
  ramS : WithTop ℚ
  nvmeS : WithTop ℚ

/-- `saved / hourly * 3600 if hourly else inf`. -/
def breakeven (saved hourly : ℚ) : WithTop ℚ :=
  if hourly = 0 then ⊤ else ((saved / hourly * 3600 : ℚ) : WithTop ℚ)

def breakevens (tokens : Nat) : Breakevens :=
  let p := profileFor tokens
  let prefill := p.prefillMs / 1000 * gpuUsdS
  let rCpu := p.restoreCpuMs / 1000 * gpuUsdS
  let rNvme := p.restoreNvmeMs / 1000 * gpuUsdS
  let warmHr := p.kvGb / gpuUsableGb * gpuUsdHr
  let ramHr := p.kvGb * ramUsdGbHr
  let nvmeHr := p.kvGb * nvmeUsdGbHr
  ⟨breakeven prefill warmHr, breakeven (prefill - rCpu) ramHr, breakeven (prefill - rNvme) nvmeHr⟩

/-- `f"{x:.0f}"`: ties to even. -/
def fixed0 (x : WithTop ℚ) : String :=
  match x with
  | none => "inf"
  | some q => (if q < 0 then "-" else "") ++ toString (roundHalfEven |q|)

structure Decision where
  tier : Tier
  idleS : ℚ
  breakevens : Breakevens
  reason : String

/-- `TieringPolicy.decide`. -/
def decideTier (idleS : ℚ) (tokens : Nat) : Decision :=
  let be := breakevens tokens
  let idle := "idle " ++ fixed0 idleS ++ "s "
  let (tier, why) : Tier × String :=
    if idleS ≤ be.warmS then (.warm, idle ++ "<= warm break-even " ++ fixed0 be.warmS ++ "s")
    else if idleS ≤ be.ramS then (.ram, idle ++ "<= RAM break-even " ++ fixed0 be.ramS ++ "s")
    else if idleS ≤ be.nvmeS then (.nvme, idle ++ "<= NVMe break-even " ++ fixed0 be.nvmeS ++ "s")
    else (.drop, idle ++ "past NVMe break-even " ++ fixed0 be.nvmeS ++ "s — re-prefill")
  { tier := tier, idleS, breakevens := be, reason := why }

structure EstimatedSavings where
  reprefillMs : ℚ
  restoreMs : ℚ
  savedMs : ℚ
  savedUsd : ℚ
  /-- `None` on a cold turn -/
  speedup : Option ℚ
  deriving DecidableEq

def estimatedSavings (tokens : Nat) (warm : Bool) : EstimatedSavings :=
  let p := profileFor tokens
  if !warm then
    { reprefillMs := pyRound 1 p.prefillMs, restoreMs := pyRound 1 p.restoreCpuMs, savedMs := 0, savedUsd := 0,
      speedup := none }
  else
    let savedMs := max 0 (p.prefillMs - p.restoreCpuMs)
    { reprefillMs := pyRound 1 p.prefillMs
      restoreMs := pyRound 1 p.restoreCpuMs
      savedMs := pyRound 1 savedMs
      savedUsd := pyRound 8 (savedMs / 1000 * gpuUsdS)
      speedup := if 0 < p.restoreCpuMs then some (pyRound 1 (p.prefillMs / p.restoreCpuMs))
        else none }

end Dexa.Platform.Sessions
