import Mathlib.Algebra.Ring.Defs
import Mathlib.Tactic.LinearCombination
import Mathlib.Analysis.Complex.Trigonometric

/-! # Plane rotations

A cosine and a sine on an additive group of angles that satisfy the addition laws turn a pair of
numbers by an angle.  Turning is an action: angles add and the opposite angle turns back.
-/

namespace Dexa.Lib

/-- A cosine and a sine with their laws. -/
structure AngleAddition (θ α : Type*) [AddCommGroup θ] [CommRing α] where
  cos : θ → α
  sin : θ → α
  cos_zero : cos 0 = 1
  sin_zero : sin 0 = 0
  cos_add : ∀ x y, cos (x + y) = cos x * cos y - sin x * sin y
  sin_add : ∀ x y, sin (x + y) = sin x * cos y + cos x * sin y

namespace AngleAddition

/-- Angles in radians. -/
noncomputable def real : AngleAddition ℝ ℝ where
  cos := Real.cos
  sin := Real.sin
  cos_zero := Real.cos_zero
  sin_zero := Real.sin_zero
  cos_add := Real.cos_add
  sin_add := Real.sin_add

variable {θ α : Type*} [AddCommGroup θ] [CommRing α] (angles : AngleAddition θ α)

/-- A pair of numbers turned by an angle. -/
def turn (x : θ) (v : α × α) : α × α :=
  (v.1 * angles.cos x - v.2 * angles.sin x, v.2 * angles.cos x + v.1 * angles.sin x)

@[simp] theorem turn_zero (v : α × α) : angles.turn 0 v = v := by
  simp [turn, angles.cos_zero, angles.sin_zero]

theorem turn_add (x y : θ) (v : α × α) :
    angles.turn (x + y) v = angles.turn x (angles.turn y v) := by
  simp only [turn, angles.cos_add, angles.sin_add, Prod.mk.injEq]
  constructor <;> ring

@[simp] theorem turn_neg_turn (x : θ) (v : α × α) : angles.turn (-x) (angles.turn x v) = v := by
  rw [← turn_add, neg_add_cancel, turn_zero]

end AngleAddition

end Dexa.Lib
