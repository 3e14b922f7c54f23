import Mathlib.Algebra.BigOperators.Group.List.Basic
import Mathlib.Algebra.BigOperators.Ring.List
import Mathlib.Algebra.Field.Basic

/-! # Attention

The answer to a query is the average of the values of the keys, each weighted by the exponential of
its score.  The exponential is a parameter: what is shown here needs no law of it.
-/

namespace Dexa.Lib.Attention

variable {α : Type*} [Field α] (exp : α → α)

/-- What a query sees of a key: its score, and its value by coordinates. -/
structure Key (α : Type*) where
  score : α
  value : Nat → α

/-- A row of scores as probabilities. -/
def softmax (scores : List α) : List α :=
  let weights := scores.map exp
  weights.map (· / weights.sum)

/-- The weight that the keys draw together. -/
def mass (keys : List (Key α)) : α := (keys.map fun key => exp key.score).sum

def answer (keys : List (Key α)) (c : Nat) : α :=
  (keys.map fun key => exp key.score * key.value c).sum / mass exp keys

/-- The values weighted by a row of probabilities. -/
theorem sum_softmax (keys : List (Key α)) (c : Nat) :
    (List.zipWith (· * ·) (softmax exp (keys.map Key.score)) (keys.map (Key.value · c))).sum =
      answer exp keys c := by
  have weighted :
    List.zipWith (· * ·) (softmax exp (keys.map Key.score)) (keys.map (Key.value · c)) =
      keys.map fun key => exp key.score * key.value c / mass exp keys := by
    simp only [softmax, mass, List.map_map, List.zipWith_map, List.zipWith_self, Function.comp_def]
    exact List.map_congr_left fun key _ => div_mul_eq_mul_div ..
  rw [weighted, answer, div_eq_mul_inv, ← List.sum_map_mul_right]
  simp only [div_eq_mul_inv]

theorem answer_perm {keys keys' : List (Key α)} (perm : keys.Perm keys') :
    answer exp keys = answer exp keys' := by
  funext c
  simp only [answer, mass, (perm.map _).sum_eq]

/-- Keys of no weight are not seen. -/
theorem answer_vanishing (before after : List (Key α)) {keys : List (Key α)}
    (vanish : ∀ key ∈ keys, exp key.score = 0) :
    answer exp (before ++ keys ++ after) = answer exp (before ++ after) := by
  have weights : (keys.map fun key => exp key.score).sum = 0 := by
    apply List.sum_eq_zero
    simpa using vanish
  funext c
  have values : (keys.map fun key => exp key.score * key.value c).sum = 0 := by
    apply List.sum_eq_zero
    intro x member
    obtain ⟨key, here, rfl⟩ := List.mem_map.1 member
    rw [vanish key here, zero_mul]
  simp [answer, mass, weights, values]

end Dexa.Lib.Attention
