import Mathlib.Algebra.Order.Floor.Ring
import Mathlib.Data.List.Perm.Basic
import Dexa.Segments.Selective

/-! # What `hkvd_select` selects

Every strategy ranks the tokens of a range and takes as many of them as the fraction buys, so a
selection is the head of a ranking that does not depend on the fraction.
-/

namespace Dexa.Segments

variable {α : Type} [Field α] [LinearOrder α] [FloorRing α]

/-- `np.argsort`: the indices in an order of growing keys. -/
structure Numpy.Argsorts (np : Numpy α) : Prop where
  perm : ∀ keys, (np.argsort keys).Perm (List.range keys.length)
  sorted : ∀ keys, (np.argsort keys).Pairwise fun i j => keys.getD i ⊥ ≤ keys.getD j ⊥

/-- A numpy whose `argsort` is stable. -/
def Numpy.stable (sqrt : α → α) : Numpy α where
  sqrt := sqrt
  argsort keys :=
    (List.range keys.length).mergeSort fun i j => decide (keys.getD i ⊥ ≤ keys.getD j ⊥)

omit [Field α] [FloorRing α] in
theorem Numpy.stable_argsorts (sqrt : α → α) : (Numpy.stable sqrt).Argsorts where
  perm keys := List.mergeSort_perm _ _
  sorted keys := by
    have ascends := @List.pairwise_mergeSort _ (fun i j => decide (keys.getD i ⊥ ≤ keys.getD j ⊥))
      (fun i j k first second => decide_eq_true
        ((of_decide_eq_true first).trans (of_decide_eq_true second)))
      (fun i j => by simpa using le_total _ _) (List.range keys.length)
    exact ascends.imp of_decide_eq_true

def strategies : List String := ["hkvd", "recent", "random"]

/-- The order in which a strategy takes the tokens of a range. -/
def ranking (np : Numpy α) (strategy : String) (deviation : List (WithBot α)) : List Nat :=
  match strategy with
  | "hkvd" => (np.argsort deviation).reverse
  | "recent" => (List.range deviation.length).reverse
  | _ => hashOrder deviation.length

/-- How many of `n` tokens a fraction buys. -/
def budget (frac : α) (n : Nat) : Nat := (max 0 (min (if 0 < frac then ⌈frac * n⌉ else 0) n)).toNat

theorem budget_le (frac : α) (n : Nat) : budget frac n ≤ n := by
  unfold budget
  omega

variable [IsStrictOrderedRing α]

theorem budget_mono {frac frac' : α} (le : frac ≤ frac') (n : Nat) :
    budget frac n ≤ budget frac' n := by
  have products : ⌈frac * n⌉ ≤ ⌈frac' * n⌉ :=
    Int.ceil_mono (mul_le_mul_of_nonneg_right le (Nat.cast_nonneg n))
  have positive : 0 < frac → 0 < frac' := fun pos => pos.trans_le le
  have rounded : 0 < frac' → 0 ≤ ⌈frac' * n⌉ :=
    fun pos => Int.ceil_nonneg (mul_nonneg pos.le (Nat.cast_nonneg n))
  unfold budget
  split
  · rename_i here
    rw [if_pos (positive here)]
    omega
  · split <;> omega

/-- Within the unit interval nothing is clamped. -/
theorem budget_eq_ceil {frac : α} (nonneg : 0 ≤ frac) (unit : frac ≤ 1) (n : Nat) :
    (budget frac n : Int) = ⌈frac * n⌉ := by
  have lower : 0 ≤ ⌈frac * n⌉ := Int.ceil_nonneg (mul_nonneg nonneg (Nat.cast_nonneg n))
  have upper : ⌈frac * n⌉ ≤ n :=
    Int.ceil_le.2 (by simpa using mul_le_of_le_one_left (Nat.cast_nonneg (α := α) n) unit)
  unfold budget
  split
  · omega
  · rename_i zero
    have here : frac = 0 := le_antisymm (not_lt.1 zero) nonneg
    simp [here]

theorem budget_of_one_le {frac : α} (whole : 1 ≤ frac) (n : Nat) : budget frac n = n := by
  have positive : 0 < frac := zero_lt_one.trans_le whole
  have product : (n : Int) ≤ ⌈frac * n⌉ := by
    have cast : (n : α) ≤ frac * n := le_mul_of_one_le_left (Nat.cast_nonneg n) whole
    exact_mod_cast cast.trans (Int.le_ceil _)
  unfold budget
  rw [if_pos positive]
  omega

omit [IsStrictOrderedRing α] in
theorem hashOrder_perm (n : Nat) : (hashOrder n).Perm (List.range n) := List.mergeSort_perm _ _

variable {np : Numpy α}

omit [Field α] [FloorRing α] [IsStrictOrderedRing α] in
theorem ranking_perm (argsorts : np.Argsorts) (strategy : String) (deviation : List (WithBot α)) :
    (ranking np strategy deviation).Perm (List.range deviation.length) := by
  unfold ranking
  split
  · exact (List.reverse_perm _).trans (argsorts.perm deviation)
  · exact List.reverse_perm _
  · exact hashOrder_perm _

/-- The last `k` indices head the reversed order. -/
theorem mem_take_reverse_range {n k i : Nat} (le : k ≤ n) :
    i ∈ (List.range n).reverse.take k ↔ i ∈ List.range' (n - k) k := by
  rw [List.take_reverse, List.mem_reverse, List.length_range, List.range_eq_range',
    List.drop_range', List.mem_range'_1,
    List.mem_range'_1]
  omega

variable (np) in
omit [IsStrictOrderedRing α] in
/-- A strategy selects the head of its ranking. -/
theorem hkvdSelect_eq_some {strategy : String} (known : strategy ∈ strategies)
    (deviation : List (WithBot α)) (frac : α)
    (offset : Nat) :
    ∃ sel, hkvdSelect np deviation frac offset strategy = some sel ∧
      (∀ i, i ∈ sel ↔ ∃ j ∈ (ranking np strategy deviation).take (budget frac deviation.length),
        j + offset = i) ∧
      sel.length = min (budget frac deviation.length) (ranking np strategy deviation).length := by
  have le := budget_le frac deviation.length
  have amount :
    max 0 (min (if 0 < frac then ⌈frac * deviation.length⌉ else 0) (deviation.length : Int)) =
      (budget frac deviation.length : Int) := (Int.toNat_of_nonneg (le_max_left _ _)).symm
  simp only [hkvdSelect, amount, Int.toNat_natCast, Int.natCast_eq_zero]
  generalize budget frac deviation.length = k at le
  by_cases none : k = 0
  · exact ⟨[], by rw [if_pos none], by simp [none], by simp [none]⟩
  · -- each strategy sorts the head of its ranking, `recent` another list of the same indices
    rw [if_neg none]
    simp only [strategies, List.mem_cons, List.not_mem_nil, or_false] at known
    obtain rfl | rfl | rfl := known
    · refine ⟨_, rfl, ?_, ?_⟩
      · intro i
        simp [ranking]
      · simp [ranking]
    · refine ⟨_, rfl, ?_, ?_⟩
      · intro i
        simp only [ranking, List.mem_map, List.mem_mergeSort, mem_take_reverse_range le]
      · simp [ranking, le]
    · refine ⟨_, rfl, ?_, ?_⟩
      · intro i
        simp [ranking]
      · simp [ranking]

end Dexa.Segments
