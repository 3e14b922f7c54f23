import Mathlib.Algebra.Order.Ring.Defs
import Mathlib.Data.List.GetD
import Dexa.Compaction.AttentionMatching

/-! # The budgets that sensitivity gives the heads

With its minimum taken out, a layer's budget is spent on the greatest of the importances that are
left. Each head's importances descend, so what is taken of a head is where its keys are best, and a
head never gets more than it has keys.
-/

namespace Dexa.Compaction

open Dexa.Core Dexa.Lib

/-- Budgets for `n` heads of `T` keys that spend `t` a head and at least the minimum on each. -/
structure Feasible (n : Nat) (t : Int) (T : Nat) (minT : Int) (alloc : List Int) : Prop where
  length : alloc.length = n
  bounds : ∀ a ∈ alloc, max 1 (min minT t) ≤ a ∧ a ≤ T
  total : alloc.sum = t * n

variable {α : Type} [Field α] [LinearOrder α]

/-- The importance of the keys kept, each head keeping its top ones. -/
def keptImportance (imp : List (List α)) (alloc : List Int) : α :=
  (List.zipWith (fun row a => (row.take a.toNat).sum) imp alloc).sum

def importanceAt (imp : List (List α)) (p : Nat × Nat) : α := (imp.getD p.1 []).getD p.2 0

theorem foldl_modify_count {β : Type} (l : List (β × Nat)) (n : Nat) (f : Nat → Int) :
    l.foldl (fun alloc c => alloc.modify c.2 (· + 1)) ((List.range n).map f) =
      (List.range n).map fun h => f h + l.countP fun c => c.2 = h := by
  induction l generalizing f with
  | nil => simp
  | cons c l ih =>
    have one : ((List.range n).map f).modify c.2 (· + 1) = (List.range n).map
      fun h => if c.2 = h then f h + 1 else f h := by
      apply List.ext_getElem
      · simp
      · intro h _ _
        simp [List.getElem_modify]
    rw [List.foldl_cons, one, ih]
    apply List.map_congr_left
    intro h _
    rw [List.countP_cons]
    by_cases here : c.2 = h
    · simp only [here, if_true, decide_true]
      omega
    · simp [here]

/-- Whatever is asked for, every head gets a token. -/
theorem allocateGreedily_positive (imp : List (List α)) (t : Int) {T : Nat} (some : 0 < T)
    (minT : Int) :
    (allocateGreedily imp t T minT).length = imp.length ∧ ∀ a ∈ allocateGreedily imp t T minT,
      1 ≤ a := by
  have start : List.replicate imp.length (max 1 (min minT t)) = (List.range imp.length).map
    fun _ => max 1 (min minT t) := by
    simp
  unfold allocateGreedily
  simp only [start]
  split_ifs
  · refine ⟨by simp, fun a member => ?_⟩
    simp only [List.map_map, List.mem_map, Function.comp_apply] at member
    obtain ⟨_, -, rfl⟩ := member
    omega
  · rw [foldl_modify_count]
    refine ⟨by simp, fun a member => ?_⟩
    simp only [List.map_map, List.mem_map, Function.comp_apply] at member
    obtain ⟨_, -, rfl⟩ := member
    omega

section Allocation

variable (imp : List (List α)) {t : Int} {T : Nat} (minT : Int)

/-- The least budget of a head. -/
def leastBudget (t minT : Int) : Nat := (max 1 (min minT t)).toNat

/-- What a head gets beyond the least budget. -/
def extraShare (t : Int) (T : Nat) (minT : Int) : Nat → Nat :=
  let lo := leastBudget t minT
  share (importanceAt imp) imp.length lo (T - lo) ((t.toNat - lo) * imp.length)

theorem leastBudget_bounds (positive : 1 ≤ t) :
    (leastBudget t minT : Int) = max 1 (min minT t) ∧ 1 ≤ leastBudget t minT ∧
      leastBudget t minT ≤ t.toNat := by
  unfold leastBudget
  omega

theorem spare_eq (positive : 1 ≤ t) (n : Nat) :
    (((t.toNat - leastBudget t minT) * n : Nat) : Int) = t * n - leastBudget t minT * n := by
  obtain ⟨-, -, below⟩ := leastBudget_bounds minT positive
  have spent : ((t.toNat - leastBudget t minT : Nat) : Int) = t - leastBudget t minT := by omega
  rw [Nat.cast_mul, spent, sub_mul]

theorem allocateGreedily_eq (positive : 1 ≤ t) (less : t < T) :
    allocateGreedily imp t T minT =
      (List.range imp.length).map
        fun h => ((leastBudget t minT + extraShare imp t T minT h : Nat) : Int) := by
  obtain ⟨cast, -, below⟩ := leastBudget_bounds minT positive
  let lo := leastBudget t minT
  let k := (t.toNat - lo) * imp.length
  have least : max 1 (min minT t) = (lo : Int) := cast.symm
  have spare : t * imp.length - (lo : Int) * imp.length = (k : Int) :=
    (spare_eq minT positive _).symm
  have start : List.replicate imp.length (lo : Int) = (List.range imp.length).map
    fun _ => (lo : Int) := by
    simp
  unfold allocateGreedily
  simp only [least, spare, start]
  split
  · rename_i none
    have nothing : k = 0 := by omega
    rw [List.map_map]
    apply List.map_congr_left
    intro h _
    have zero : extraShare imp t T minT h = 0 := by
      change share (importanceAt imp) imp.length lo (T - lo) k h = 0
      rw [nothing]
      simp [share, topPlaces]
    simp only [Function.comp_apply, zero]
    omega
  · -- the candidates are the places, so the greatest candidates are the greatest places
    have cands :
      ((List.range imp.length).flatMap fun h => (List.range' lo (T - lo)).map
      fun r => ((imp.getD h []).getD r 0, h)) =
        (rowHeads imp.length lo fun _ => T - lo).map fun p => (importanceAt imp p, p.1) := by
      simp only [rowHeads, List.map_flatMap, List.map_map]
      rfl
    have taken :
      (ranked Prod.fst ((rowHeads imp.length lo fun _ => T - lo).map
      fun p => (importanceAt imp p, p.1))).take k =
        (topPlaces (importanceAt imp) imp.length lo (T - lo) k).map
          fun p => (importanceAt imp p, p.1) := by
      rw [← map_ranked, topPlaces, List.map_take]
      rfl
    rw [Int.toNat_natCast, Int.toNat_natCast, cands, taken, foldl_modify_count, List.map_map]
    apply List.map_congr_left
    intro h _
    have room : extraShare imp t T minT h ≤ T - lo := share_le h
    have count :
      ((topPlaces (importanceAt imp) imp.length lo (T - lo) k).map
      fun p => (importanceAt imp p, p.1)).countP (fun c => c.2 = h) =
        extraShare imp t T minT h := by
      rw [List.countP_map]
      rfl
    simp only [Function.comp_apply, count]
    omega

end Allocation

omit [LinearOrder α] in
theorem sum_take_add (row : List α) {lo c : Nat} (inside : lo + c ≤ row.length) :
    (row.take (lo + c)).sum = (row.take lo).sum +
      ((List.range' lo c).map fun r => row.getD r 0).sum := by
  have tail : (row.drop lo).take c = (List.range' lo c).map fun r => row.getD r 0 := by
    apply List.ext_getElem
    · simp
      omega
    · intro i left right
      simp only [List.length_map, List.length_range'] at right
      rw [List.getElem_take, List.getElem_drop, List.getElem_map, List.getElem_range', Nat.one_mul,
        List.getD_eq_getElem _ _ (by omega)]
  rw [List.take_add, List.sum_append, tail]

omit [LinearOrder α] in
/-- Of what the heads keep only what is beyond the least budget depends on the allocation. -/
theorem keptImportance_eq {imp : List (List α)} {T lo : Nat} (rows : ∀ row ∈ imp, row.length = T)
    (le : lo ≤ T) {c : Nat → Nat}
    (fits : ∀ h < imp.length, c h ≤ T - lo) :
    keptImportance imp ((List.range imp.length).map fun h => ((lo + c h : Nat) : Int)) =
      ((List.range imp.length).map fun h => ((imp.getD h []).take lo).sum).sum +
        ((rowHeads imp.length lo c).map (importanceAt imp)).sum := by
  have split : List.zipWith (fun row (a : Int) => (row.take a.toNat).sum) imp
      ((List.range imp.length).map fun h => ((lo + c h : Nat) : Int)) =
      (List.range imp.length).map fun h =>
        ((imp.getD h []).take lo).sum + ((List.range' lo (c h)).map
          fun r => importanceAt imp (h, r)).sum := by
    apply List.ext_getElem
    · simp
    · intro h left right
      simp only [List.length_map, List.length_range] at right
      have row : imp.getD h [] = imp[h] := List.getD_eq_getElem _ _ right
      have length : imp[h].length = T := rows _ (List.getElem_mem right)
      have room := fits h right
      simp only [List.getElem_zipWith, List.getElem_map, List.getElem_range, Int.toNat_natCast,
        importanceAt, row]
      exact sum_take_add imp[h] (by omega)
  rw [keptImportance, split, List.sum_map_add, sum_map_rowHeads]

theorem sum_least_add (n lo : Nat) (c : Nat → Nat) :
    ((List.range n).map fun h => ((lo + c h : Nat) : Int)).sum =
      lo * n + ((List.range n).map c).sum := by
  induction n with
  | zero => simp
  | succ n ih =>
    simp only [List.range_succ, List.map_append, List.sum_append, ih, List.map_cons, List.map_nil,
      List.sum_singleton]
    push_cast
    ring

theorem Feasible.eq_map {n T : Nat} {t minT : Int} {b : List Int} (feasible : Feasible n t T minT b)
    (positive : 1 ≤ t) :
    ∃ c : Nat → Nat, b = ((List.range n).map fun h => ((leastBudget t minT + c h : Nat) : Int)) ∧
      (∀ h < n, c h ≤ T - leastBudget t minT) ∧
        ((List.range n).map c).sum = (t.toNat - leastBudget t minT) * n := by
  obtain ⟨cast, -, below⟩ := leastBudget_bounds minT positive
  let c := fun h => (b.getD h 0).toNat - leastBudget t minT
  have bounds : ∀ h < n, (leastBudget t minT : Int) ≤ b.getD h 0 ∧ b.getD h 0 ≤ T := by
    intro h inside
    rw [List.getD_eq_getElem _ _ (feasible.length ▸ inside), cast]
    exact feasible.bounds _ (List.getElem_mem _)
  have same : b = (List.range n).map fun h => ((leastBudget t minT + c h : Nat) : Int) := by
    apply List.ext_getElem
    · simp [feasible.length]
    · intro h left right
      have inside : h < n := feasible.length ▸ left
      have room := bounds h inside
      rw [List.getD_eq_getElem _ _ left] at room
      simp only [List.getElem_map, List.getElem_range, c, List.getD_eq_getElem _ _ left]
      omega
  refine ⟨c, same, fun h inside => ?_, ?_⟩
  · have room := bounds h inside
    simp only [c]
    omega
  · have total := feasible.total
    rw [same, sum_least_add] at total
    have spare := spare_eq minT positive n
    omega

theorem importanceAt_descends {imp : List (List α)} {T : Nat} (rows : ∀ row ∈ imp, row.length = T)
    (descending : ∀ row ∈ imp, row.Pairwise (· ≥ ·)) {h r r' : Nat} (inside : h < imp.length)
    (le : r ≤ r') (upper : r' < T) :
    importanceAt imp (h, r') ≤ importanceAt imp (h, r) := by
  have row : imp.getD h [] = imp[h] := List.getD_eq_getElem _ _ inside
  have member := List.getElem_mem inside
  have length : imp[h].length = T := rows _ member
  simp only [importanceAt]
  rw [row, List.getD_eq_getElem _ _ (length ▸ upper), List.getD_eq_getElem _ _ (by omega)]
  obtain rfl | lt := Nat.eq_or_lt_of_le le
  · exact le_rfl
  · exact List.pairwise_iff_getElem.1 (descending _ member) r r' (by omega) (by omega) lt

section Optimal

variable {imp : List (List α)} {t : Int} {T : Nat}

theorem sum_extraShare (positive : 1 ≤ t) (less : t < T) (minT : Int) :
    ((List.range imp.length).map (extraShare imp t T minT)).sum =
      (t.toNat - leastBudget t minT) * imp.length := by
  apply sum_share
  rw [Nat.mul_comm]
  exact Nat.mul_le_mul_left _ (by omega)

theorem allocateGreedily_feasible (positive : 1 ≤ t) (less : t < T) (minT : Int) :
    Feasible imp.length t T minT (allocateGreedily imp t T minT) := by
  obtain ⟨cast, -, below⟩ := leastBudget_bounds minT positive
  have closed := allocateGreedily_eq imp minT positive less
  constructor
  case length => simp [closed]
  case bounds =>
    intro a member
    rw [closed] at member
    obtain ⟨h, -, rfl⟩ := List.mem_map.1 member
    have room : extraShare imp t T minT h ≤ T - leastBudget t minT := share_le h
    omega
  case total =>
    rw [closed, sum_least_add, sum_extraShare positive less minT, spare_eq minT positive imp.length]
    ring

section Descending

variable (rows : ∀ row ∈ imp, row.length = T) (descending : ∀ row ∈ imp, row.Pairwise (· ≥ ·))
  (positive : 1 ≤ t) (less : t < T)
include rows descending positive less

theorem candidates_descend (minT : Int) (h r r' : Nat) (inside : h < imp.length) (le : r ≤ r')
    (upper : r' < leastBudget t minT + (T - leastBudget t minT)) :
      importanceAt imp (h, r') ≤ importanceAt imp (h, r) := by
  obtain ⟨-, -, below⟩ := leastBudget_bounds minT positive
  exact importanceAt_descends rows descending inside le (by omega)

/-- Every head gets `t` exactly if that is the least budget or the last key that `t` gives a head
    always comes before the first one that it takes from another. -/
theorem allocateGreedily_even_iff (minT : Int) :
    (∀ a ∈ allocateGreedily imp t T minT, a = t) ↔
      leastBudget t minT = t.toNat ∨ ∀ h < imp.length, ∀ h' < imp.length, h ≠ h' →
        importanceAt imp (h', t.toNat) < importanceAt imp (h, t.toNat - 1) ∨
          importanceAt imp (h', t.toNat) = importanceAt imp (h, t.toNat - 1) ∧ h < h' := by
  obtain ⟨-, -, below⟩ := leastBudget_bounds minT positive
  have even :=
    share_eq_iff (candidates_descend rows descending positive less minT)
      (c := t.toNat - leastBudget t minT)
    (k := (t.toNat - leastBudget t minT) * imp.length) (Nat.mul_comm ..) (by omega)
  have boundary : leastBudget t minT + (t.toNat - leastBudget t minT) = t.toNat := by omega
  have spent : t.toNat - leastBudget t minT = 0 ↔ leastBudget t minT = t.toNat := by omega
  rw [boundary, spent] at even
  rw [← even, allocateGreedily_eq imp minT positive less]
  constructor
  · intro all h inside
    have here := all _ (List.mem_map.2 ⟨h, List.mem_range.2 inside, rfl⟩)
    simp only [extraShare] at here
    omega
  · intro all a member
    obtain ⟨h, inside, rfl⟩ := List.mem_map.1 member
    have here := all h (List.mem_range.1 inside)
    simp only [extraShare]
    omega

variable [IsStrictOrderedRing α]

/-- For every list of descending importances the greedy allocation spends the budget within the
    bounds and keeps as much importance as any allocation that does; `_allocate_budget` makes it
    with the importances it measures. -/
theorem allocateBudget_optimal (minT : Int) :
    Feasible imp.length t T minT (allocateGreedily imp t T minT) ∧
      (∀ b, Feasible imp.length t T minT b →
        keptImportance imp b ≤ keptImportance imp (allocateGreedily imp t T minT)) ∧
      ∀ (np : Numerics α) [Inhabited α] (d : Nat) (Qs : List (List (Fin d → α))) (kAll : NDArray α)
        (scale : α),
        Qs.zipIdx.mapM (headImportances np kAll scale) = .ok imp →
        allocateBudget np .sensitivity Qs kAll t T minT scale =
          .ok (allocateGreedily imp t T minT) := by
  obtain ⟨-, -, below⟩ := leastBudget_bounds minT positive
  have closed := allocateGreedily_eq imp minT positive less
  have fits : ∀ h < imp.length, extraShare imp t T minT h ≤ T - leastBudget t minT :=
    fun h _ => share_le h
  refine ⟨allocateGreedily_feasible positive less minT, fun b feasible => ?_,
    fun np _ d Qs kAll scale measured => ?_⟩
  · obtain ⟨c, rfl, small, sum⟩ := feasible.eq_map positive
    rw [closed, keptImportance_eq rows (by omega) small, keptImportance_eq rows (by omega) fits]
    gcongr
    exact sum_rowHeads_le_share (candidates_descend rows descending positive less minT) small sum
  · have branch : ¬ (BudgetAlloc.sensitivity = .uniform ∨ (T : Int) ≤ t) := by
      simpa using less
    simp only [allocateBudget, if_neg branch, measured]
    rfl

omit rows descending positive less [IsStrictOrderedRing α] in
theorem allocateBudget_optimal_pair :
    Feasible 2 2 3 1 (allocateGreedily ([[3, 2, 1], [5, 4, 0]] : List (List ℚ)) 2 3 1) ∧
      keptImportance ([[3, 2, 1], [5, 4, 0]] : List (List ℚ)) [2, 2] ≤
        keptImportance [[3, 2, 1], [5, 4, 0]]
          (allocateGreedily ([[3, 2, 1], [5, 4, 0]] : List (List ℚ)) 2 3 1) := by
  have rows : ∀ row ∈ ([[3, 2, 1], [5, 4, 0]] : List (List ℚ)), row.length = 3 := by simp
  have descending : ∀ row ∈ ([[3, 2, 1], [5, 4, 0]] : List (List ℚ)), row.Pairwise (· ≥ ·) := by
    norm_num
  have positive : (1 : Int) ≤ 2 := by decide
  obtain ⟨feasible, optimal, -⟩ := allocateBudget_optimal rows descending positive (by decide) 1
  have even : Feasible 2 2 3 1 [2, 2] := ⟨rfl, by decide, rfl⟩
  exact ⟨feasible, optimal [2, 2] even⟩

end Descending

end Optimal

end Dexa.Compaction
