import Dexa.Lib.NDArray

/-! # Slices of the second axis

Reading `a[:, lo:hi]` and writing `a[:, lo:hi] = src`, the latter with the stretching of extents
that an assignment makes.  Converting the elements first or last makes no difference.
-/

namespace Dexa.Lib.NDArray

variable {α β : Type*}

theorem getD_map {f : α → β} (a : NDArray α) (ix : List Nat) (filler : α) :
    (a.map f).getD ix (f filler) = f (a.getD ix filler) := by
  rw [getD, get?_map, Option.getD_map, getD]

theorem ofFn_congr {shape : List Nat} {cell cell' : List Nat → α}
    (same : ∀ ix, InBounds shape ix → cell ix = cell' ix) :
    ofFn shape cell = ofFn shape cell' := by
  have shapes : (ofFn shape cell).shape = (ofFn shape cell').shape := rfl
  apply ext_get? shapes
  intro ix inside
  rw [shape_ofFn] at inside
  rw [get?_ofFn_inBounds cell inside, get?_ofFn_inBounds cell' inside, same ix inside]

theorem map_congr_mem {f g : α → β} {a : NDArray α} (same : ∀ x ∈ a.data, f x = g x) :
    a.map f = a.map g := by
  simp only [map, List.map_congr_left same]

/-- Every cell of an array built from cells with a property has it. -/
theorem forall_mem_ofFn {P : α → Prop} {shape : List Nat} {cell : List Nat → α}
    (all : ∀ ix, P (cell ix)) :
    ∀ x ∈ (ofFn shape cell).data, P x := by
  intro x member
  obtain ⟨k, -, rfl⟩ := List.mem_map.1 member
  exact all _

theorem getD_of_forall {P : α → Prop} {a : NDArray α} (all : ∀ x ∈ a.data, P x) {filler : α}
    (default_ : P filler)
    (ix : List Nat) : P (a.getD ix filler) := by
  rw [getD, get?]
  split
  · cases here : a.data[ravel a.shape ix]? with
    | none => exact default_
    | some x => exact all x (List.mem_of_getElem? here)
  · exact default_

theorem map_ofFn (f : α → β) (shape : List Nat) (cell : List Nat → α) :
    (ofFn shape cell).map f = ofFn shape (f ∘ cell) := by
  simp [map, ofFn]

variable [Inhabited α] [Inhabited β]

/-- The cells `lo..hi` of the second axis (`a[:, lo:hi]`). -/
def sliceAxis1 (a : NDArray α) (lo hi : Nat) : NDArray α :=
  match a.shape with
  | m :: t :: rest => ofFn (m :: (min hi t - min lo t) :: rest) fun
    | i :: j :: ix => a.getD (i :: (min lo t + j) :: ix) default
    | _ => default
  | _ => a

theorem inBounds_two {m t : Nat} {ix : List Nat} (inside : InBounds [m, t] ix) :
    ∃ h i, ix = [h, i] ∧ h < m ∧ i < t := by
  rcases ix with _ | ⟨h, _ | ⟨i, _ | ⟨_, _⟩⟩⟩
  · cases inside
  · cases inside.2
  · exact ⟨h, i, rfl, inside.1, inside.2.1⟩
  · cases inside.2.2

theorem inBounds_three {m t d : Nat} {ix : List Nat} (inside : InBounds [m, t, d] ix) :
    ∃ h i c, ix = [h, i, c] ∧ h < m ∧ i < t ∧ c < d := by
  rcases ix with _ | ⟨h, _ | ⟨i, _ | ⟨c, _ | ⟨_, _⟩⟩⟩⟩
  · cases inside
  · cases inside.2
  · cases inside.2.2
  · exact ⟨h, i, c, rfl, inside.1, inside.2.1, inside.2.2.1⟩
  · cases inside.2.2.2

theorem takeAxis1_map {a : NDArray α} {m t d : Nat} (hshape : a.shape = [m, t, d])
    (f : α → β) (n : Nat) :
    (a.map f).takeAxis1 n = (a.takeAxis1 n).map f := by
  simp only [takeAxis1, shape_map, hshape, map_ofFn]
  apply ofFn_congr
  intro ix inside
  obtain ⟨x, cell⟩ : ∃ x, a.get? ix = some x := by
    obtain ⟨h, i, c, rfl, head, slot, channel⟩ := inBounds_three inside
    apply get?_isSome
    rw [hshape]
    exact ⟨head, (Nat.lt_min.1 slot).2, channel, trivial⟩
  have cell' : (a.map f).get? ix = some (f x) := by
    rw [get?_map, cell]
    rfl
  rw [Function.comp_apply, getD_of_get? cell, getD_of_get? cell']

theorem sliceAxis1_map {a : NDArray α} {m t d : Nat} (hshape : a.shape = [m, t, d]) (f : α → β)
    (lo hi : Nat) :
    (a.map f).sliceAxis1 lo hi = (a.sliceAxis1 lo hi).map f := by
  simp only [sliceAxis1, shape_map, hshape, map_ofFn]
  apply ofFn_congr
  intro ix inside
  obtain ⟨h, i, c, rfl, head, slot, channel⟩ := inBounds_three inside
  have here : InBounds a.shape [h, min lo t + i, c] := by
    rw [hshape]
    exact ⟨head, by omega, channel, trivial⟩
  obtain ⟨x, cell⟩ := get?_isSome here
  have cell' : (a.map f).get? [h, min lo t + i, c] = some (f x) := by
    rw [get?_map, cell]
    rfl
  simp only [Function.comp_apply, getD_of_get? cell, getD_of_get? cell']

theorem shape_sliceAxis1 {a : NDArray α} {m t d hi : Nat} (lo : Nat) (hshape : a.shape = [m, t, d])
    (stop : hi ≤ t) :
    (a.sliceAxis1 lo hi).shape = [m, hi - lo, d] := by
  have extent : min hi t - min lo t = hi - lo := by omega
  simp only [sliceAxis1, hshape, shape_ofFn, extent]

theorem get?_sliceAxis1 {a : NDArray α} {m t d lo hi : Nat} (hshape : a.shape = [m, t, d])
    (stop : hi ≤ t) {i : Nat}
    (inside : i < hi - lo) (h c : Nat) :
      (a.sliceAxis1 lo hi).get? [h, i, c] = a.get? [h, lo + i, c] := by
  have start : min lo t = lo := by omega
  simp only [sliceAxis1, hshape, start, get?_ofFn]
  split
  · rename_i here
    exact some_getD _ (hshape ▸ ⟨here.1, by omega, here.2.2⟩)
  · rename_i outside
    symm
    apply get?_eq_none
    rw [hshape]
    exact fun here => outside ⟨here.1, by omega, here.2.2⟩

/-- A slice holds nothing that the array and the filler do not. -/
theorem forall_mem_takeAxis1 {P : α → Prop} {a : NDArray α} (all : ∀ x ∈ a.data, P x)
    (filler : P default) (n : Nat) :
    ∀ x ∈ (a.takeAxis1 n).data, P x := by
  unfold takeAxis1
  split
  · exact forall_mem_ofFn fun ix => getD_of_forall all filler ix
  · exact all

theorem forall_mem_sliceAxis1 {P : α → Prop} {a : NDArray α} (all : ∀ x ∈ a.data, P x)
    (filler : P default) (lo hi : Nat) :
    ∀ x ∈ (a.sliceAxis1 lo hi).data, P x := by
  unfold sliceAxis1
  split
  · apply forall_mem_ofFn
    intro ix
    split
    · exact getD_of_forall all filler _
    · exact filler
  · exact all

/-- An extent of 1 is stretched to any other. -/
def Broadcasts : List Nat → List Nat → Prop
  | [], [] => True
  | n :: narrow, m :: wide => (n = m ∨ n = 1) ∧ Broadcasts narrow wide
  | _, _ => False

instance instDecidableBroadcasts : (narrow wide : List Nat) → Decidable (Broadcasts narrow wide)
  | [], [] => isTrue trivial
  | n :: narrow, m :: wide =>
    have := instDecidableBroadcasts narrow wide
    inferInstanceAs (Decidable ((n = m ∨ n = 1) ∧ Broadcasts narrow wide))
  | [], _ :: _ => isFalse id
  | _ :: _, [] => isFalse id

/-- The cell of the narrow array that is stretched to `ix`. -/
def stretched (narrow ix : List Nat) : List Nat :=
  List.zipWith (fun n i => if n = 1 then 0 else i) narrow ix

/-- Overwrite the cells `lo..hi` of the second axis (`a[:, lo:hi] = src`); `none` where the
    extents do not agree. -/
def assignAxis1 (a : NDArray α) (lo hi : Nat) (src : NDArray α) : Option (NDArray α) :=
  match a.shape with
  | m :: t :: rest =>
    if Broadcasts src.shape (m :: (min hi t - min lo t) :: rest) then
      some (ofFn (m :: t :: rest) fun
        | i :: j :: ix =>
          if lo ≤ j ∧ j < hi then src.getD (stretched src.shape (i :: (j - lo) :: ix)) default
          else a.getD (i :: j :: ix) default
        | _ => default)
    else none
  | _ => none

theorem broadcasts_refl : ∀ shape : List Nat, Broadcasts shape shape
  | [] => trivial
  | _ :: shape => ⟨.inl rfl, broadcasts_refl shape⟩

theorem stretched_inBounds : ∀ {shape ix : List Nat}, InBounds shape ix → stretched shape ix = ix
  | [], [], _ => rfl
  | n :: shape, i :: ix, inside => by
    have first : (if n = 1 then 0 else i) = i := by
      have := inside.1
      split <;> omega
    have rest := stretched_inBounds inside.2
    rw [stretched] at rest ⊢
    rw [List.zipWith_cons_cons, first, rest]

/-- A source of as many columns as the range replaces them and leaves the others. -/
theorem assignAxis1_eq_some {a src : NDArray α} {m t d lo hi : Nat} (hshape : a.shape = [m, t, d])
    (stop : hi ≤ t)
    (fits : src.shape = [m, hi - lo, d]) :
    ∃ a', a.assignAxis1 lo hi src = some a' ∧ a'.shape = [m, t, d] ∧
      ∀ h i c, a'.get? [h, i, c] = if lo ≤ i ∧ i < hi then src.get? [h, i - lo, c]
        else a.get? [h, i, c] := by
  have extent : min hi t - min lo t = hi - lo := by omega
  have broadcasts : Broadcasts src.shape [m, min hi t - min lo t, d] := by
    rw [extent, fits]
    exact broadcasts_refl _
  simp only [assignAxis1, hshape, if_pos broadcasts]
  refine ⟨_, rfl, rfl, ?_⟩
  intro h i c
  by_cases here : InBounds [m, t, d] [h, i, c]
  · rw [get?_ofFn_inBounds _ here]
    dsimp only
    split
    · rename_i written
      have inside : InBounds src.shape [h, i - lo, c] := fits ▸ ⟨here.1, by omega, here.2.2⟩
      rw [stretched_inBounds inside, some_getD _ inside]
    · exact some_getD _ (hshape ▸ here)
  · have beyond : a.get? [h, i, c] = none := get?_eq_none (hshape ▸ here)
    rw [get?_ofFn, if_neg here]
    split
    · rename_i written
      symm
      apply get?_eq_none
      rw [fits]
      exact fun inside => here ⟨inside.1, by omega, inside.2.2⟩
    · exact beyond.symm

theorem shape_of_assignAxis1 {a src a' : NDArray α} {lo hi : Nat}
    (done : a.assignAxis1 lo hi src = some a') :
    a'.shape = a.shape := by
  unfold assignAxis1 at done
  split at done
  · rename_i shape
    split at done
    · cases done
      exact shape.symm
    · cases done
  · cases done

/-- All of the second axis is overwritten. -/
theorem assignAxis1_whole {a src : NDArray α} {m t : Nat} {rest : List Nat}
    (hshape : a.shape = m :: t :: rest)
    (same : src.shape = m :: t :: rest) : a.assignAxis1 0 t src = some src := by
  have fits : Broadcasts src.shape (m :: (min t t - min 0 t) :: rest) := by
    rw [Nat.min_self, Nat.zero_min, Nat.sub_zero, same]
    exact broadcasts_refl _
  simp only [assignAxis1, hshape, if_pos fits, Option.some.injEq]
  apply ext_get? same.symm
  intro ix inside
  match ix, inside with
  | h :: i :: ix, inside =>
    have here : InBounds src.shape (h :: i :: ix) := same ▸ inside
    obtain ⟨x, cell⟩ := get?_isSome here
    have column : i < t := inside.2.1
    rw [get?_ofFn, if_pos (show InBounds (m :: t :: rest) (h :: i :: ix) from inside), cell]
    simp only [Nat.zero_le, true_and, if_pos column, Nat.sub_zero, stretched_inBounds here,
      getD_of_get? cell]

end Dexa.Lib.NDArray
