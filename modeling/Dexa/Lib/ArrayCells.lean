import Dexa.Lib.ArraySlices

/-! # Arrays of arrays

An array with two leading axes holds an array at each of their cells.
-/

namespace Dexa.Lib.NDArray

variable {α : Type*} [Inhabited α]

/-- An array of one axis. -/
def ofList (xs : List α) : NDArray α := ⟨[xs.length], xs, by rw [List.prod_singleton]⟩

/-- The array at one cell of the two leading axes. -/
def cell (a : NDArray α) (i j : Nat) : NDArray α := (a.select0 i).select0 j

/-- `a[i, j]`; `none` where it is out of bounds. -/
def cell? (a : NDArray α) (i j : Nat) : Option (NDArray α) :=
  match a.shape with
  | m :: n :: _ => if i < m ∧ j < n then some (a.cell i j) else none
  | _ => none

/-- The array with its extents of 1 stretched. -/
def stretch (src : NDArray α) (shape : List Nat) : NDArray α :=
  ofFn shape fun ix => src.getD (stretched src.shape ix) default

/-- Overwrite the array at a cell (`a[i, j] = src`); `none` where it is out of bounds or the extents
    do not agree. -/
def assignCell (a : NDArray α) (i j : Nat) (src : NDArray α) : Option (NDArray α) :=
  match a.shape with
  | m :: n :: rest =>
    if i < m ∧ j < n ∧ Broadcasts src.shape rest then some
      (a.assign0 i ((a.select0 i).assign0 j (src.stretch rest))) else none
  | _ => none

/-- Overwrite the leading cells of one cell of the first axis (`a[i, :n] = src`); `none` where it is
    out of bounds or the extents do not agree. -/
def assignLeading (a : NDArray α) (i n : Nat) (src : NDArray α) : Option (NDArray α) :=
  match a.shape with
  | m :: t :: rest =>
    if i < m ∧ Broadcasts src.shape (min n t :: rest) then
      some (ofFn (m :: t :: rest) fun
        | i' :: j :: ix =>
          if i' = i ∧ j < n then src.getD (stretched src.shape (j :: ix)) default
            else a.getD (i' :: j :: ix) default
        | _ => default)
    else none
  | _ => none

/-- The cells `ids` of the second axis (`a[:, ids]`); `none` where one is out of bounds. -/
def gatherAxis1 (a : NDArray α) (ids : List Nat) : Option (NDArray α) :=
  match a.shape with
  | m :: t :: rest =>
    if ∀ i ∈ ids, i < t then
      some (ofFn (m :: ids.length :: rest) fun
        | h :: j :: ix => a.getD (h :: ids.getD j 0 :: ix) default
        | _ => default)
    else none
  | _ => none

/-- Each cell of the first axis `n` times in a row (`np.repeat(a, n, axis=0)`). -/
def repeat0 (a : NDArray α) (n : Nat) : NDArray α :=
  match a.shape with
  | m :: rest => ofFn ((m * n) :: rest) fun
    | i :: ix => a.getD (i / n :: ix) default
    | [] => default
  | [] => a

theorem stretch_self (src : NDArray α) : src.stretch src.shape = src := by
  apply ext_get? (show (src.stretch src.shape).shape = src.shape from rfl)
  intro ix inside
  replace inside : InBounds src.shape ix := inside
  rw [stretch, get?_ofFn_inBounds _ inside, stretched_inBounds inside, some_getD _ inside]

theorem cell?_eq_some {a : NDArray α} {m n i j : Nat} {rest : List Nat}
    (hshape : a.shape = m :: n :: rest) (hi : i < m)
    (hj : j < n) : a.cell? i j = some (a.cell i j) := by
  rw [cell?, hshape]
  exact if_pos ⟨hi, hj⟩

/-- A cell of the cell. -/
theorem get?_cell {a : NDArray α} {m n i j : Nat} {rest ix : List Nat}
    (hshape : a.shape = m :: n :: rest) (hi : i < m)
    (hj : j < n) : (a.cell i j).get? ix = a.get? (i :: j :: ix) := by
  rw [cell, get?_select0 (shape_select0 i hshape) hj, get?_select0 hshape hi]

/-- Arrays with the same cells. -/
theorem ext_cell {a b : NDArray α} {m n : Nat} {rest : List Nat} (ha : a.shape = m :: n :: rest)
    (hb : b.shape = m :: n :: rest)
    (cells : ∀ i < m, ∀ j < n, a.cell i j = b.cell i j) : a = b := by
  apply ext_get? (ha.trans hb.symm)
  intro ix inside
  rw [ha] at inside
  match ix with
  | [] | [_] => simp [InBounds] at inside
  | i :: j :: ix =>
    obtain ⟨hi, hj, -⟩ := inside
    rw [← get?_cell ha hi hj, ← get?_cell hb hi hj, cells i hi j hj]

/-- A source of the cell's shape replaces it and leaves the other cells. -/
theorem assignCell_eq_some {a src : NDArray α} {m n i j : Nat} {rest : List Nat}
    (hshape : a.shape = m :: n :: rest)
    (hi : i < m) (hj : j < n) (fits : src.shape = rest) :
    ∃ a', a.assignCell i j src = some a' ∧ a'.shape = m :: n :: rest ∧
      ∀ i' < m, ∀ j' < n, a'.cell i' j' = if i' = i ∧ j' = j then src else a.cell i' j' := by
  subst fits
  have row : ∀ k, (a.select0 k).shape = n :: src.shape := fun k => shape_select0 k hshape
  refine ⟨a.assign0 i ((a.select0 i).assign0 j src), ?_, hshape, ?_⟩
  · rw [assignCell, hshape]
    dsimp only
    rw [if_pos ⟨hi, hj, broadcasts_refl _⟩, stretch_self]
  · intro i' hi' j' hj'
    have written : ((a.select0 i).assign0 j src).shape = n :: src.shape := row i
    rw [cell, select0_assign0 hshape written hi', cell]
    by_cases same : i' = i
    · subst same
      rw [if_pos rfl, select0_assign0 (row i') rfl hj']
      simp only [true_and]
    · rw [if_neg same, if_neg fun both => same both.1]

/-- A source of the leading cells' shape replaces them and leaves the others. -/
theorem assignLeading_eq_some {a src : NDArray α} {m t i n : Nat} {rest : List Nat}
    (hshape : a.shape = m :: t :: rest)
    (hi : i < m) (stop : n ≤ t) (fits : src.shape = n :: rest) :
    ∃ a', a.assignLeading i n src = some a' ∧ a'.shape = m :: t :: rest ∧
      ∀ i' j ix, a'.get? (i' :: j :: ix) = if i' = i ∧ j < n then src.get? (j :: ix)
        else a.get? (i' :: j :: ix) := by
  have broadcasts : Broadcasts src.shape (min n t :: rest) := by
    rw [Nat.min_eq_left stop, fits]
    exact broadcasts_refl _
  simp only [assignLeading, hshape, if_pos (And.intro hi broadcasts)]
  refine ⟨_, rfl, rfl, fun i' j ix => ?_⟩
  by_cases here : InBounds (m :: t :: rest) (i' :: j :: ix)
  · rw [get?_ofFn_inBounds _ here]
    dsimp only
    split
    · rename_i written
      have inside : InBounds src.shape (j :: ix) := fits ▸ ⟨written.2, here.2.2⟩
      rw [stretched_inBounds inside, some_getD _ inside]
    · exact some_getD _ (hshape ▸ here)
  · rw [get?_ofFn, if_neg here]
    split
    · rename_i written
      refine (get?_eq_none (fits ▸ fun inside => here ⟨?_, ?_, inside.2⟩)).symm <;> omega
    · exact (get?_eq_none (hshape ▸ here)).symm

theorem gatherAxis1_eq_some {a : NDArray α} {m t : Nat} {rest ids : List Nat}
    (hshape : a.shape = m :: t :: rest)
    (inside : ∀ i ∈ ids, i < t) :
    ∃ a', a.gatherAxis1 ids = some a' ∧ a'.shape = m :: ids.length :: rest ∧
      ∀ h j id ix, ids[j]? = some id → a'.get? (h :: j :: ix) = a.get? (h :: id :: ix) := by
  simp only [gatherAxis1, hshape, if_pos inside]
  refine ⟨_, rfl, rfl, fun h j id ix here => ?_⟩
  obtain ⟨column, rfl⟩ := List.getElem?_eq_some_iff.1 here
  have bound := inside _ (List.getElem_mem column)
  by_cases row : h < m ∧ InBounds rest ix
  · have cell : InBounds (m :: ids.length :: rest) (h :: j :: ix) := ⟨row.1, column, row.2⟩
    simp only [get?_ofFn_inBounds _ cell, List.getD_eq_getElem?_getD, here, Option.getD_some]
    exact some_getD _ (hshape ▸ ⟨row.1, bound, row.2⟩)
  · have beyond : ¬ InBounds (m :: ids.length :: rest) (h :: j :: ix) :=
      fun cell => row ⟨cell.1, cell.2.2⟩
    rw [get?_ofFn, if_neg beyond, get?_eq_none (hshape ▸ fun cell => row ⟨cell.1, cell.2.2⟩)]

/-- All of the second axis. -/
theorem gatherAxis1_range {a : NDArray α} {m t : Nat} {rest : List Nat}
    (hshape : a.shape = m :: t :: rest) :
    a.gatherAxis1 (List.range t) = some a := by
  obtain ⟨a', gathered, shape, cells⟩ :=
    gatherAxis1_eq_some hshape fun i (member : i ∈ List.range t) => List.mem_range.1 member
  rw [List.length_range] at shape
  rw [gathered, Option.some.injEq]
  apply ext_get? (shape.trans hshape.symm)
  intro ix inside
  rw [shape] at inside
  match ix with
  | [] | [_] => simp [InBounds] at inside
  | h :: j :: ix => exact cells h j j ix (List.getElem?_range inside.2.1)

theorem shape_repeat0 {a : NDArray α} {m : Nat} {rest : List Nat} (n : Nat)
    (hshape : a.shape = m :: rest) :
    (a.repeat0 n).shape = (m * n) :: rest := by
  simp [repeat0, hshape]

theorem get?_repeat0 {a : NDArray α} {m n i : Nat} {rest ix : List Nat}
    (hshape : a.shape = m :: rest) (hi : i < m * n) :
    (a.repeat0 n).get? (i :: ix) = a.get? (i / n :: ix) := by
  have copied : i / n < m := Nat.div_lt_of_lt_mul (by rwa [Nat.mul_comm])
  by_cases inside : InBounds rest ix
  · have here : InBounds ((m * n) :: rest) (i :: ix) := ⟨hi, inside⟩
    simp only [repeat0, hshape, get?_ofFn_inBounds _ here]
    exact some_getD _ (hshape ▸ ⟨copied, inside⟩)
  · have beyond : ¬ InBounds ((m * n) :: rest) (i :: ix) := fun here => inside here.2
    simp only [repeat0, hshape, get?_ofFn, if_neg beyond]
    exact (get?_eq_none (hshape ▸ fun here => inside here.2)).symm

omit [Inhabited α] in
/-- The rows of a concatenation are those of the first array, then those of the second. -/
theorem get?_of_concat {a b c : NDArray α} {m n : Nat} {rest : List Nat} (ha : a.shape = m :: rest)
    (hb : b.shape = n :: rest)
    (joined : a.concat b = some c) : c.shape = (m + n) :: rest ∧
      ∀ j ix, c.get? (j :: ix) = if j < m then a.get? (j :: ix) else b.get? ((j - m) :: ix) := by
  obtain ⟨c', joined', shape, data⟩ := concat_eq_some ha hb
  obtain rfl : c' = c := Option.some.inj (joined'.symm.trans joined)
  have size : a.data.length = m * rest.prod := by rw [a.size_eq, ha, List.prod_cons]
  refine ⟨shape, fun j ix => ?_⟩
  by_cases inside : j < m + n ∧ InBounds rest ix
  · have here : InBounds c'.shape (j :: ix) := shape ▸ inside
    have below := ravel_lt inside.2
    split
    · rename_i first
      have there : InBounds a.shape (j :: ix) := ha ▸ ⟨first, inside.2⟩
      have early : j * rest.prod + ravel rest ix < m * rest.prod := by
        have := Nat.mul_le_mul_right rest.prod (Nat.succ_le_of_lt first)
        rw [Nat.succ_mul] at this
        omega
      rw [get?, if_pos here, get?, if_pos there, data, shape, ha, ravel, ravel,
        List.getElem?_append_left (size ▸ early)]
    · rename_i second
      have there : InBounds b.shape ((j - m) :: ix) := hb ▸ ⟨by omega, inside.2⟩
      have late : m * rest.prod ≤ j * rest.prod + ravel rest ix := by
        have := Nat.mul_le_mul_right rest.prod (Nat.not_lt.1 second)
        omega
      have offset : j * rest.prod + ravel rest ix - m * rest.prod = (j - m) * rest.prod +
        ravel rest ix := by
        have := Nat.mul_le_mul_right rest.prod (Nat.not_lt.1 second)
        rw [Nat.sub_mul]
        omega
      rw [get?, if_pos here, get?, if_pos there, data, shape, hb, ravel, ravel,
        List.getElem?_append_right (size ▸ late), size, offset]
  · rw [get?_eq_none (shape ▸ inside)]
    split
    · exact (get?_eq_none (ha ▸ fun there => inside ⟨Nat.lt_add_right n there.1, there.2⟩)).symm
    · refine (get?_eq_none (hb ▸ fun there => inside ⟨?_, there.2⟩)).symm
      have := there.1
      omega

/-- Arrays with the same slices. -/
theorem ext_select0 {a b : NDArray α} {n : Nat} {rest : List Nat} (ha : a.shape = n :: rest)
    (hb : b.shape = n :: rest)
    (slices : ∀ i < n, a.select0 i = b.select0 i) : a = b := by
  apply ext_get? (ha.trans hb.symm)
  intro ix inside
  rw [ha] at inside
  match ix with
  | [] => simp [InBounds] at inside
  | i :: ix => rw [← get?_select0 ha inside.1, ← get?_select0 hb inside.1, slices i inside.1]

/-- The slices of an array, stacked. -/
theorem stack_select0 {a : NDArray α} {n : Nat} {rest : List Nat} (hshape : a.shape = n :: rest)
    (positive : 0 < n) :
    stack ((List.range n).map a.select0) = some a := by
  have uniform : ∀ b ∈ (List.range n).map a.select0, b.shape = rest := by
    intro b member
    obtain ⟨i, -, rfl⟩ := List.mem_map.1 member
    exact shape_select0 i hshape
  have whole : (stacked _ rest uniform).shape = n :: rest := by simp [stacked]
  rw [stack_eq uniform (by simp; omega), Option.some.injEq]
  apply ext_select0 whole hshape
  intro i inside
  exact select0_stacked uniform (by simp [inside])

/-- Stacking is the way back from the slices. -/
theorem stack_eq_some_iff {as : List (NDArray α)} {a : NDArray α} : stack as = some a ↔
    as ≠ [] ∧ ∃ shape, a.shape = as.length :: shape ∧
      as = (List.range as.length).map a.select0 := by
  constructor
  · intro done
    have nonempty : as ≠ [] := fun empty => by simp [empty, stack] at done
    obtain ⟨first, rest, rfl⟩ := List.exists_cons_of_ne_nil nonempty
    have same : ∀ b ∈ rest, b.shape = first.shape := by
      by_contra differ
      simp [stack, differ] at done
    have uniform : ∀ b ∈ first :: rest, b.shape = first.shape := by simpa using same
    rw [stack_eq uniform nonempty, Option.some.injEq] at done
    refine ⟨nonempty, first.shape, by rw [← done]; rfl, ?_⟩
    apply List.ext_getElem (by simp)
    intro i left right
    rw [List.getElem_map, List.getElem_range, ← done,
      select0_stacked uniform (List.getElem?_eq_getElem left)]
  · rintro ⟨nonempty, shape, hshape, slices⟩
    rw [slices]
    exact stack_select0 hshape (List.length_pos_iff.2 nonempty)

theorem swapAxes_swapAxes {a : NDArray α} {m n : Nat} {rest : List Nat}
    (hshape : a.shape = m :: n :: rest) :
    a.swapAxes.swapAxes = a := by
  have once := shape_swapAxes hshape
  apply ext_get? ((shape_swapAxes once).trans hshape.symm)
  intro ix inside
  rw [shape_swapAxes once] at inside
  match ix with
  | [] | [_] => simp [InBounds] at inside
  | i :: j :: ix => rw [get?_swapAxes once, get?_swapAxes hshape]

/-- What the source does not reach is kept. -/
theorem get?_assignTake_kept {a src : NDArray α} {ix : List Nat} (inside : InBounds a.shape ix)
    (missing : src.get? ix = none) :
    (a.assignTake src).get? ix = a.get? ix := by
  rw [assignTake, get?_ofFn_inBounds _ inside, missing, ← some_getD default inside]
  rfl

end Dexa.Lib.NDArray
