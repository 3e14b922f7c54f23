import Dexa.Platform.Values
import Mathlib.Data.Nat.Sqrt

/-! # Cost accounting (`dexa_platform/gateway/pricing.py`)

Image tokens and dollars of a request, here and at the baseline model.  Floats are exact:
a rounded square root is computed from the rational under the root.
-/

namespace Dexa.Platform.Pricing

open Dexa.Platform

/-- `floor(sqrt(q))`. -/
def floorSqrt (q : ℚ) : Nat := Nat.sqrt q.floor.toNat

/-- `ceil(sqrt(q))`. -/
def ceilSqrt (q : ℚ) : Nat := if (floorSqrt q : ℚ) ^ 2 = q then floorSqrt q else floorSqrt q + 1

/-- `round(sqrt(q))`. -/
def roundSqrt (q : ℚ) : Nat :=
  let below := floorSqrt q
  let half := ((below : ℚ) + 1 / 2) ^ 2
  if q < half then below
  else if half < q then below + 1
  else if below % 2 = 0 then below else below + 1

/-- The models of `PRICES`. -/
inductive Model where
  | gpt4o
  | gpt4oMini
  | claude35Sonnet
  | dexaCuaVlm
  deriving DecidableEq, Repr

def Model.name : Model → String
  | .gpt4o => "gpt-4o"
  | .gpt4oMini => "gpt-4o-mini"
  | .claude35Sonnet => "claude-3-5-sonnet"
  | .dexaCuaVlm => "dexa-cua-vlm"

/-- `PRICES[model]`: dollars per million input and output tokens. -/
def Model.prices : Model → ℚ × ℚ
  | .gpt4o => (5 / 2, 10)
  | .gpt4oMini => (3 / 20, 3 / 5)
  | .claude35Sonnet => (3, 15)
  | .dexaCuaVlm => (1 / 5, 1 / 5)

/-- The entry of `PRICES` under a name. -/
def modelOfName (name : String) : Option Model :=
  [Model.gpt4o, .gpt4oMini, .claude35Sonnet, .dexaCuaVlm].find? fun m => m.name == name

def qwenVisionTokens (w h : Nat) : Nat :=
  let maxPixels : Nat := 1048576
  let minPixels : Nat := 3136
  let factor : Nat := 28 * 2
  if w = 0 ∨ h = 0 then 0
  else
    let hb := max factor ((roundHalfEven ((h : ℚ) / factor)).toNat * factor)
    let wb := max factor ((roundHalfEven ((w : ℚ) / factor)).toNat * factor)
    if hb * wb > maxPixels then
      -- h / s / factor with s = sqrt(h * w / maxPixels)
      let hb := max factor (floorSqrt ((h * maxPixels : ℚ) / (w * factor ^ 2)) * factor)
      let wb := max factor (floorSqrt ((w * maxPixels : ℚ) / (h * factor ^ 2)) * factor)
      hb / factor * (wb / factor)
    else if hb * wb < minPixels then
      let hb := ceilSqrt ((h * minPixels : ℚ) / (w * factor ^ 2)) * factor
      let wb := ceilSqrt ((w * minPixels : ℚ) / (h * factor ^ 2)) * factor
      hb / factor * (wb / factor)
    else hb / factor * (wb / factor)

/-- `w, h = round(w * s), round(h * s)`. -/
def scaled (s : ℚ) (wh : Nat × Nat) : Nat × Nat :=
  ((roundHalfEven (wh.1 * s)).toNat, (roundHalfEven (wh.2 * s)).toNat)

/-- `_openai_tiles`. -/
def openaiTiles (w h : Nat) : Nat :=
  let wh := if max w h > 2048 then scaled (2048 / (max w h : Nat)) (w, h) else (w, h)
  let wh := if min wh.1 wh.2 > 768 then scaled (768 / (min wh.1 wh.2 : Nat)) wh else wh
  (wh.1 + 511) / 512 * ((wh.2 + 511) / 512)

def openaiImageTokens (w h : Nat) (mini : Bool) : Nat :=
  if mini then 2833 + 5667 * openaiTiles w h else 85 + 170 * openaiTiles w h

def anthropicImageTokens (w h : Nat) : Nat :=
  let wh :=
    -- w * s with s = sqrt(1150000 / (w * h))
    if w * h > 1150000 then (roundSqrt ((w * 1150000 : ℚ) / h), roundSqrt ((h * 1150000 : ℚ) / w))
      else (w, h)
  (wh.1 * wh.2 + 749) / 750

def imageTokens (model : Model) (w h : Nat) : Nat :=
  match model with
  | .dexaCuaVlm => qwenVisionTokens w h
  | .gpt4o => openaiImageTokens w h false
  | .gpt4oMini => openaiImageTokens w h true
  | .claude35Sonnet => anthropicImageTokens w h

structure Cost where
  model : Model
  imageTokens : Nat
  textInTokens : Nat
  outTokens : ℚ
  usd : ℚ
  deriving DecidableEq

def requestCost (model : Model) (images : List (Nat × Nat)) (textInTokens : Nat)
    (outTokens : ℚ) : Cost :=
  let imgTok := (images.map fun wh => imageTokens model wh.1 wh.2).sum
  let (pin, pout) := model.prices
  { model, imageTokens := imgTok, textInTokens, outTokens,
    usd := ((imgTok + textInTokens : Nat) : ℚ) / 1000000 * pin + outTokens / 1000000 * pout }

/-- `x_cheaper` is `none` where Python has `inf`. -/
structure Savings where
  ours : Cost
  baseline : Cost
  savedUsd : ℚ
  savedPct : ℚ
  xCheaper : Option ℚ
  deriving DecidableEq

def compare (images : List (Nat × Nat)) (textInTokens : Nat) (outTokens : ℚ) (baselineModel : Model)
    (ourModel : Model := .dexaCuaVlm) : Savings :=
  let ours := requestCost ourModel images textInTokens outTokens
  let base := requestCost baselineModel images textInTokens outTokens
  let saved := base.usd - ours.usd
  { ours, baseline := base, savedUsd := saved,
    savedPct := if base.usd > 0 then saved / base.usd * 100 else 0,
    xCheaper := if ours.usd > 0 then some (base.usd / ours.usd) else none }

/-- `Savings.as_dict`. -/
def Savings.asDict (s : Savings) : List (String × Json) :=
  [("dexa_cost_usd", .num (pyRound 8 s.ours.usd)),
   ("baseline_model", .str s.baseline.model.name),
   ("baseline_cost_usd", .num (pyRound 8 s.baseline.usd)),
   ("saved_usd", .num (pyRound 8 s.savedUsd)),
   ("saved_pct", .num (pyRound 2 s.savedPct)),
   ("x_cheaper", match s.xCheaper with
     | some x => .num (pyRound 2 x)
     | none => .null),
   ("dexa_image_tokens", .num s.ours.imageTokens),
   ("baseline_image_tokens", .num s.baseline.imageTokens)]

/-- `pricing.compare` for a step served from the cache: our side costs nothing. -/
def Savings.fromCache (s : Savings) : Savings :=
  { s with ours := { s.ours with usd := 0 }, savedUsd := s.baseline.usd, savedPct := 100, xCheaper := none }

example : imageTokens .dexaCuaVlm 1280 800 = 322 := by decide +kernel

end Dexa.Platform.Pricing
