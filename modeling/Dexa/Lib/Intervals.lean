import Mathlib.Order.MinMax
import Mathlib.Tactic.Common

/-! # Half-open ranges

Lists of half-open ranges of a linear order: the points they cover, ranges with a gap between each
two of them, and ranges that follow each other without gap or overlap.
-/

namespace Dexa.Lib

variable {α : Type*} [LinearOrder α]

def Inside (r : α × α) (t : α) : Prop := r.1 ≤ t ∧ t < r.2

/-- `t` lies in one of the ranges. -/
def Covered (rs : List (α × α)) (t : α) : Prop := ∃ r ∈ rs, Inside r t

/-- Ranges in ascending order, with a gap between each two of them. -/
structure Separated (rs : List (α × α)) : Prop where
  proper : ∀ r ∈ rs, r.1 ≤ r.2
  apart : rs.Pairwise fun r r' => r.2 < r'.1

/-- The ranges lead from `a` to `b`, each beginning where the one before it ends. -/
inductive Tiles : α → α → List (α × α) → Prop where
  | nil (a : α) : Tiles a a []
  | cons {a m b : α} {rs : List (α × α)} : a ≤ m → Tiles m b rs → Tiles a b ((a, m) :: rs)

@[simp] theorem not_covered_nil (t : α) : ¬Covered [] t := by simp [Covered]

theorem covered_cons (r : α × α) (rs : List (α × α)) (t : α) : Covered (r :: rs) t ↔ Inside r t ∨
    Covered rs t := by
  simp [Covered]

theorem covered_concat (rs : List (α × α)) (r : α × α) (t : α) : Covered (rs ++ [r]) t ↔
    Covered rs t ∨ Inside r t := by
  simp [Covered, or_and_right, exists_or]

/-- Two ranges that touch are one range. -/
theorem inside_join {r r' : α × α} (later : r.1 ≤ r'.1) (touch : r'.1 ≤ r.2) (t : α) :
    Inside (r.1, max r.2 r'.2) t ↔ Inside r t ∨ Inside r' t := by
  simp only [Inside, lt_max_iff]
  constructor
  · rintro ⟨start, before | before⟩
    · exact Or.inl ⟨start, before⟩
    · -- past the end of the first range the point is past the start of the second one
      cases lt_or_ge t r.2 with
      | inl first => exact Or.inl ⟨start, first⟩
      | inr past => exact Or.inr ⟨touch.trans past, before⟩
  · rintro (⟨start, before⟩ | ⟨start, before⟩)
    · exact ⟨start, Or.inl before⟩
    · exact ⟨later.trans start, Or.inr before⟩

theorem Separated.nil : Separated ([] : List (α × α)) := ⟨by simp, List.Pairwise.nil⟩

/-- The starts of separated ranges ascend. -/
theorem Separated.sorted {rs : List (α × α)} (separated : Separated rs) :
    rs.Pairwise fun r r' => r.1 < r'.1 := by
  apply List.Pairwise.imp_of_mem _ separated.apart
  intro r r' member _ before
  exact (separated.proper r member).trans_lt before

/-- The last range may end later. -/
theorem Separated.extend {rs : List (α × α)} {r : α × α} (separated : Separated (rs ++ [r]))
    (stop : α) :
    Separated (rs ++ [(r.1, max r.2 stop)]) := by
  have ⟨before, _, apart⟩ := List.pairwise_append.1 separated.apart
  constructor
  · intro s member
    rw [List.mem_append, List.mem_singleton] at member
    cases member with
    | inl old => exact separated.proper s (List.mem_append_left _ old)
    | inr new =>
      subst new
      exact (separated.proper r (by simp)).trans (le_max_left _ _)
  · refine List.pairwise_append.2 ⟨before, List.pairwise_singleton _ _, ?_⟩
    intro s member s' new
    rw [List.mem_singleton.1 new]
    exact apart s member r (List.mem_singleton_self r)

/-- A range past the end of the last one may be added. -/
theorem Separated.concat {rs : List (α × α)} {last r : α × α} (separated : Separated (rs ++ [last]))
    (proper : r.1 ≤ r.2)
    (past : last.2 < r.1) : Separated (rs ++ [last] ++ [r]) := by
  have ⟨_, _, apart⟩ := List.pairwise_append.1 separated.apart
  constructor
  · intro s member
    cases List.mem_append.1 member with
    | inl old => exact separated.proper s old
    | inr new => exact List.mem_singleton.1 new ▸ proper
  · refine List.pairwise_append.2 ⟨separated.apart, List.pairwise_singleton _ _, ?_⟩
    intro s member s' new
    rw [List.mem_singleton.1 new]
    cases List.mem_append.1 member with
    | inl old =>
      calc s.2 < last.1 := apart s old last (List.mem_singleton_self last)
        _ ≤ last.2 := separated.proper last (by simp)
        _ < r.1 := past
    | inr new => exact List.mem_singleton.1 new ▸ past

namespace Tiles

variable {a b : α} {rs : List (α × α)}

theorem le (tiles : Tiles a b rs) : a ≤ b := by
  induction tiles with
  | nil a => exact le_refl a
  | cons first _ ih => exact first.trans ih

theorem proper (tiles : Tiles a b rs) : ∀ r ∈ rs, r.1 ≤ r.2 := by
  induction tiles with
  | nil a => simp
  | cons first _ ih => exact List.forall_mem_cons.2 ⟨first, ih⟩

/-- A tiling covers exactly what lies between its ends. -/
theorem covered_iff (tiles : Tiles a b rs) (t : α) : Covered rs t ↔ Inside (a, b) t := by
  induction tiles with
  | nil a => simp [Inside]
  | @cons a m b rs first rest ih =>
    have last := rest.le
    rw [covered_cons, ih]
    simp only [Inside]
    constructor
    · rintro (⟨start, before⟩ | ⟨start, before⟩)
      · exact ⟨start, before.trans_le last⟩
      · exact ⟨first.trans start, before⟩
    · rintro ⟨start, before⟩
      cases lt_or_ge t m with
      | inl inside => exact Or.inl ⟨start, inside⟩
      | inr past => exact Or.inr ⟨past, before⟩

/-- No point lies in two ranges of a tiling. -/
theorem eq_of_inside (tiles : Tiles a b rs) {t : α} {i j : Nat} {r r' : α × α}
    (first : rs[i]? = some r) (inside : Inside r t)
    (second : rs[j]? = some r') (inside' : Inside r' t) : i = j := by
  induction tiles generalizing i j with
  | nil a => simp at first
  | @cons a m b rs le rest ih =>
    have later : ∀ {k : Nat} {s : α × α}, rs[k]? = some s → Inside s t → m ≤ t := by
      intro k s found here
      exact ((rest.covered_iff t).1 ⟨s, List.mem_of_getElem? found, here⟩).1
    cases i with
    | zero =>
      cases j with
      | zero => rfl
      | succ j =>
        simp only [List.getElem?_cons_zero, Option.some.injEq] at first
        subst first
        exact absurd inside.2 (not_lt.2 (later second inside'))
    | succ i =>
      cases j with
      | zero =>
        simp only [List.getElem?_cons_zero, Option.some.injEq] at second
        subst second
        exact absurd inside'.2 (not_lt.2 (later first inside))
      | succ j => rw [ih first second]

/-- The ranges of a tiling do not meet. -/
theorem disjoint (tiles : Tiles a b rs) : rs.Pairwise fun r r' => ∀ t, Inside r t →
    ¬Inside r' t := by
  apply List.pairwise_iff_getElem.2
  intro i j first second before t inside inside'
  exact before.ne
    (tiles.eq_of_inside (List.getElem?_eq_getElem first) inside
    (List.getElem?_eq_getElem second) inside')

/-- The points of a tiling, range by range, are all points in order. -/
theorem flatMap_range' {a b : Nat} {rs : List (Nat × Nat)} (tiles : Tiles a b rs) :
    (rs.flatMap fun r => List.range' r.1 (r.2 - r.1)) = List.range' a (b - a) := by
  induction tiles with
  | nil a => simp
  | @cons a m b rs first rest ih =>
    have last := rest.le
    have start : a + (m - a) = m := by omega
    have length : b - a = m - a + (b - m) := by omega
    rw [List.flatMap_cons, ih, length, ← List.range'_append_1, start]

end Tiles

end Dexa.Lib
