import Mathlib.Algebra.BigOperators.Group.List.Basic
import Mathlib.Data.List.Basic

/-! # Row-major arrays

An array is a shape and a flat row-major buffer of matching length.  A multi-index
is addressed through `ravel`, whose inverse on the buffer is `unravel`; every
operation is described by what it does to `get?`, and two arrays of one shape
with the same `get?` are equal.

Operations that keep the buffer (`reshape`) and operations that permute it
(`swapAxes`, slices) are told apart by exactly these lemmas: `get?_merge` and
`get?_split` say which multi-indices address the same cell.
-/

namespace Dexa.Lib

structure NDArray (α : Type*) where
  shape : List Nat
  data : List α
  size_eq : data.length = shape.prod

namespace NDArray

variable {α β : Type*}

def InBounds : List Nat → List Nat → Prop
  | [], [] => True
  | n :: shape, i :: ix => i < n ∧ InBounds shape ix
  | _, _ => False

instance instDecidableInBounds : (shape ix : List Nat) → Decidable (InBounds shape ix)
  | [], [] => isTrue trivial
  | n :: shape, i :: ix =>
    have := instDecidableInBounds shape ix
    inferInstanceAs (Decidable (i < n ∧ InBounds shape ix))
  | [], _ :: _ => isFalse id
  | _ :: _, [] => isFalse id

/-- Position of a multi-index in the row-major buffer. -/
def ravel : List Nat → List Nat → Nat
  | _ :: shape, i :: ix => i * shape.prod + ravel shape ix
  | _, _ => 0

/-- Multi-index of a position in the row-major buffer. -/
def unravel : List Nat → Nat → List Nat
  | [], _ => []
  | _ :: shape, k => k / shape.prod :: unravel shape (k % shape.prod)

@[simp] theorem inBounds_nil_nil : InBounds [] [] := trivial

@[simp] theorem inBounds_cons_cons {n i : Nat} {shape ix : List Nat} :
    InBounds (n :: shape) (i :: ix) ↔ i < n ∧ InBounds shape ix := Iff.rfl

theorem ravel_lt : ∀ {shape ix : List Nat}, InBounds shape ix → ravel shape ix < shape.prod
  | [], [], _ => by simp [ravel]
  | n :: shape, i :: ix, h => by
    have tail := ravel_lt h.2
    have head : (i + 1) * shape.prod ≤ n * shape.prod := Nat.mul_le_mul_right _ h.1
    rw [Nat.succ_mul] at head
    simp only [ravel, List.prod_cons]
    omega

theorem unravel_ravel : ∀ {shape ix : List Nat}, InBounds shape ix →
    unravel shape (ravel shape ix) = ix
  | [], [], _ => rfl
  | n :: shape, i :: ix, h => by
    have tail := ravel_lt h.2
    have positive : 0 < shape.prod := by omega
    simp only [ravel, unravel]
    rw [Nat.mul_comm i, Nat.mul_add_div positive, Nat.mul_add_mod, Nat.div_eq_of_lt tail,
      Nat.mod_eq_of_lt tail, Nat.add_zero, unravel_ravel h.2]

theorem unravel_inBounds : ∀ {shape : List Nat} {k : Nat}, k < shape.prod →
    InBounds shape (unravel shape k)
  | [], _, _ => trivial
  | n :: shape, k, h => by
    rw [List.prod_cons, Nat.mul_comm] at h
    have positive : 0 < shape.prod := Nat.pos_of_ne_zero fun zero => by simp [zero] at h
    exact ⟨Nat.div_lt_of_lt_mul h, unravel_inBounds (Nat.mod_lt k positive)⟩

theorem ravel_unravel : ∀ {shape : List Nat} {k : Nat}, k < shape.prod →
    ravel shape (unravel shape k) = k
  | [], k, h => by simp at h; simp [ravel, h]
  | n :: shape, k, h => by
    rw [List.prod_cons, Nat.mul_comm] at h
    have positive : 0 < shape.prod := Nat.pos_of_ne_zero fun zero => by simp [zero] at h
    simp only [unravel, ravel, ravel_unravel (Nat.mod_lt k positive)]
    rw [Nat.mul_comm]
    exact Nat.div_add_mod k shape.prod

def get? (a : NDArray α) (ix : List Nat) : Option α :=
  if InBounds a.shape ix then a.data[ravel a.shape ix]? else none

/-- Read with a filler for indices outside the shape. -/
def getD (a : NDArray α) (ix : List Nat) (filler : α) : α := (a.get? ix).getD filler

theorem get?_eq_none {a : NDArray α} {ix : List Nat} (h : ¬ InBounds a.shape ix) :
    a.get? ix = none :=
  if_neg h

theorem get?_isSome {a : NDArray α} {ix : List Nat} (h : InBounds a.shape ix) :
    ∃ x, a.get? ix = some x := by
  have bound : ravel a.shape ix < a.data.length := by rw [a.size_eq]; exact ravel_lt h
  exact ⟨a.data[ravel a.shape ix], by rw [get?, if_pos h, List.getElem?_eq_getElem bound]⟩

theorem getD_of_get? {a : NDArray α} {ix : List Nat} {x filler : α} (h : a.get? ix = some x) :
    a.getD ix filler = x := by
  rw [getD, h]; rfl

theorem some_getD {a : NDArray α} {ix : List Nat} (filler : α) (h : InBounds a.shape ix) :
    some (a.getD ix filler) = a.get? ix := by
  obtain ⟨x, hx⟩ := get?_isSome h
  rw [getD_of_get? hx, hx]

theorem ext_get? {a b : NDArray α} (shapes : a.shape = b.shape)
    (cells : ∀ ix, InBounds a.shape ix → a.get? ix = b.get? ix) : a = b := by
  obtain ⟨shape, data, size⟩ := a
  obtain ⟨shape', data', size'⟩ := b
  obtain rfl : shape = shape' := shapes
  have : data = data' := by
    apply List.ext_getElem?
    intro k
    by_cases hk : k < shape.prod
    · have inside := unravel_inBounds hk
      simpa [get?, inside, ravel_unravel hk] using cells _ inside
    · rw [List.getElem?_eq_none (by omega), List.getElem?_eq_none (by omega)]
  subst this
  rfl

/-! ## Building -/

/-- The array of the given shape whose cell at `ix` is `cell ix`. -/
def ofFn (shape : List Nat) (cell : List Nat → α) : NDArray α where
  shape := shape
  data := (List.range shape.prod).map fun k => cell (unravel shape k)
  size_eq := by simp

@[simp] theorem shape_ofFn (shape : List Nat) (cell : List Nat → α) :
    (ofFn shape cell).shape = shape := rfl

theorem get?_ofFn (shape : List Nat) (cell : List Nat → α) (ix : List Nat) :
    (ofFn shape cell).get? ix = if InBounds shape ix then some (cell ix) else none := by
  by_cases h : InBounds shape ix
  · have bound := ravel_lt h
    simp [get?, ofFn, h, List.getElem?_map, List.getElem?_range bound, unravel_ravel h]
  · simp [get?, ofFn, h]

theorem get?_ofFn_inBounds {shape ix : List Nat} (cell : List Nat → α) (h : InBounds shape ix) :
    (ofFn shape cell).get? ix = some (cell ix) := by
  rw [get?_ofFn, if_pos h]

def full (shape : List Nat) (x : α) : NDArray α := ofFn shape fun _ => x

def map (f : α → β) (a : NDArray α) : NDArray β where
  shape := a.shape
  data := a.data.map f
  size_eq := by simp [a.size_eq]

@[simp] theorem shape_map (f : α → β) (a : NDArray α) : (a.map f).shape = a.shape := rfl

@[simp] theorem get?_map (f : α → β) (a : NDArray α) (ix : List Nat) :
    (a.map f).get? ix = (a.get? ix).map f := by
  by_cases h : InBounds a.shape ix <;> simp [get?, map, h]

theorem map_map {γ : Type*} (f : α → β) (g : β → γ) (a : NDArray α) :
    (a.map f).map g = a.map (g ∘ f) := by
  simp [map]

theorem map_eq_self {f : α → α} {a : NDArray α} (fixed : ∀ x ∈ a.data, f x = x) : a.map f = a := by
  obtain ⟨shape, data, size⟩ := a
  have same : data.map f = data := by
    rw [List.map_congr_left fixed, List.map_id']
  simp [map, same]

/-! ## Reshaping -/

/-- The same buffer under another shape of the same size. -/
def reshape (a : NDArray α) (shape : List Nat) (sameSize : shape.prod = a.shape.prod) :
    NDArray α where
  shape := shape
  data := a.data
  size_eq := by rw [a.size_eq, sameSize]

theorem get?_reshape {a : NDArray α} {shape ix ix' : List Nat}
    (sameSize : shape.prod = a.shape.prod)
    (inside : InBounds shape ix) (inside' : InBounds a.shape ix')
    (sameCell : ravel shape ix = ravel a.shape ix') :
      (a.reshape shape sameSize).get? ix = a.get? ix' := by
  simp [get?, reshape, inside, inside', sameCell]

/-- Merging the two leading axes of extents `n` and `b`: cell `i` of the merged
    axis is cell `(i / b, i % b)`. -/
theorem get?_merge {a : NDArray α} {n b i : Nat} {rest ix : List Nat}
    (hshape : a.shape = n :: b :: rest)
    (sameSize : ((n * b) :: rest).prod = a.shape.prod) (hi : i < n * b) (hix : InBounds rest ix) :
    (a.reshape ((n * b) :: rest) sameSize).get? (i :: ix) = a.get? (i / b :: i % b :: ix) := by
  have positive : 0 < b := Nat.pos_of_ne_zero fun zero => by simp [zero] at hi
  apply get?_reshape
  · exact ⟨hi, hix⟩
  · rw [hshape]
    exact ⟨Nat.div_lt_of_lt_mul (by rwa [Nat.mul_comm]), Nat.mod_lt i positive, hix⟩
  · rw [hshape]
    simp only [ravel, List.prod_cons]
    rw [← Nat.add_assoc, ← Nat.mul_assoc, ← Nat.add_mul, Nat.mul_comm (i / b), Nat.div_add_mod]

/-- Splitting the leading axis of extent `n * b` into extents `n` and `b`: cell
    `(j, o)` is cell `j * b + o` of the unsplit axis. -/
theorem get?_split {a : NDArray α} {n b j o : Nat} {rest ix : List Nat}
    (hshape : a.shape = (n * b) :: rest)
    (sameSize : (n :: b :: rest).prod = a.shape.prod) (hj : j < n) (ho : o < b)
    (hix : InBounds rest ix) :
    (a.reshape (n :: b :: rest) sameSize).get? (j :: o :: ix) = a.get? ((j * b + o) :: ix) := by
  apply get?_reshape
  · exact ⟨hj, ho, hix⟩
  · rw [hshape]
    refine ⟨?_, hix⟩
    have : (j + 1) * b ≤ n * b := Nat.mul_le_mul_right b hj
    rw [Nat.succ_mul] at this
    omega
  · rw [hshape]
    simp only [ravel, List.prod_cons]
    rw [← Nat.add_assoc, ← Nat.mul_assoc, ← Nat.add_mul]

/-! ## Axis operations

The filler of `[Inhabited α]` is never read: every index the operations form from
an index inside the result is inside the argument. -/

section Axes

variable [Inhabited α]

/-- Exchange the two leading axes (`transpose(1, 0, ...)`). -/
def swapAxes (a : NDArray α) : NDArray α :=
  match a.shape with
  | m :: n :: rest => ofFn (n :: m :: rest) fun
    | i :: j :: ix => a.getD (j :: i :: ix) default
    | _ => default
  | _ => a

/-- The leading `n` cells of the second axis (`a[:, :n]`). -/
def takeAxis1 (a : NDArray α) (n : Nat) : NDArray α :=
  match a.shape with
  | m :: t :: rest => ofFn (m :: min n t :: rest) fun ix => a.getD ix default
  | _ => a

/-- The leading `n` cells of the first axis (`a[:n]`). -/
def take (a : NDArray α) (n : Nat) : NDArray α :=
  match a.shape with
  | m :: rest => ofFn (min n m :: rest) fun ix => a.getD ix default
  | [] => a

/-- Overwrite the leading cells of the first axis (`a[:n] = src`, `n` the length of `src`). -/
def assignTake (a src : NDArray α) : NDArray α :=
  ofFn a.shape fun ix => (src.get? ix).getD (a.getD ix default)

/-- The cells `ids` of the first axis, in that order. -/
def gatherRows (a : NDArray α) (ids : List Nat) : NDArray α :=
  match a.shape with
  | _ :: rest => ofFn (ids.length :: rest) fun
    | j :: ix => a.getD (ids.getD j 0 :: ix) default
    | [] => default
  | [] => a

/-- Gather cells of the first axis (`index_select(0, ids)`); `none` where an id is out of range. -/
def indexSelect (a : NDArray α) (ids : List Nat) : Option (NDArray α) :=
  match a.shape with
  | m :: _ => if ∀ id ∈ ids, id < m then some (a.gatherRows ids) else none
  | [] => none

/-- The last position at which `p` occurs in `ids`. -/
def lastIdx? (ids : List Nat) (p : Nat) : Option Nat :=
  (ids.zipIdx.reverse.find? fun e => e.1 = p).map Prod.snd

/-- Overwrite cells of the first axis (`a[ids] = src`), a repeated id keeping its last value;
    `none` where an id is out of range. -/
def scatter (a : NDArray α) (ids : List Nat) (src : NDArray α) : Option (NDArray α) :=
  match a.shape with
  | m :: _ =>
    if ∀ id ∈ ids, id < m then
      some (ofFn a.shape fun
        | p :: ix => ((lastIdx? ids p).bind fun j => src.get? (j :: ix)).getD (a.getD (p :: ix) default)
        | [] => default)
    else none
  | [] => none

/-- The sub-array at one cell of the first axis (`a[i]`). -/
def select0 (a : NDArray α) (i : Nat) : NDArray α :=
  match a.shape with
  | _ :: rest => ofFn rest fun ix => a.getD (i :: ix) default
  | [] => a

/-- The sub-array at one cell of the second axis (`a[:, i]`). -/
def select1 (a : NDArray α) (i : Nat) : NDArray α :=
  match a.shape with
  | m :: _ :: rest => ofFn (m :: rest) fun
    | p :: ix => a.getD (p :: i :: ix) default
    | [] => default
  | _ => a

/-- Overwrite one cell of the first axis (`a[i] = b`). -/
def assign0 (a : NDArray α) (i : Nat) (b : NDArray α) : NDArray α :=
  ofFn a.shape fun
    | j :: ix => if j = i then b.getD ix default else a.getD (j :: ix) default
    | [] => default

/-- Overwrite one cell of the second axis (`a[:, i] = b`). -/
def assign1 (a : NDArray α) (i : Nat) (b : NDArray α) : NDArray α :=
  ofFn a.shape fun
    | p :: j :: ix => if j = i then b.getD (p :: ix) default else a.getD (p :: j :: ix) default
    | _ => default

theorem shape_swapAxes {a : NDArray α} {m n : Nat} {rest : List Nat}
    (hshape : a.shape = m :: n :: rest) :
    a.swapAxes.shape = n :: m :: rest := by
  simp [swapAxes, hshape]

theorem get?_swapAxes {a : NDArray α} {m n i j : Nat} {rest ix : List Nat}
    (hshape : a.shape = m :: n :: rest) :
    a.swapAxes.get? (i :: j :: ix) = a.get? (j :: i :: ix) := by
  by_cases h : InBounds (m :: n :: rest) (j :: i :: ix)
  · have h' : InBounds (n :: m :: rest) (i :: j :: ix) := ⟨h.2.1, h.1, h.2.2⟩
    simp only [swapAxes, hshape, get?_ofFn, if_pos h']
    exact some_getD _ (hshape ▸ h)
  · have h' : ¬ InBounds (n :: m :: rest) (i :: j :: ix) := fun h' => h ⟨h'.2.1, h'.1, h'.2.2⟩
    simp only [swapAxes, hshape, get?_ofFn, if_neg h']
    exact (get?_eq_none (hshape ▸ h)).symm

theorem shape_takeAxis1 {a : NDArray α} {m t : Nat} {rest : List Nat} (n : Nat)
    (hshape : a.shape = m :: t :: rest) : (a.takeAxis1 n).shape = m :: min n t :: rest := by
  simp [takeAxis1, hshape]

theorem get?_takeAxis1 {a : NDArray α} {m t n i j : Nat} {rest ix : List Nat}
    (hshape : a.shape = m :: t :: rest) (hj : j < n) :
    (a.takeAxis1 n).get? (i :: j :: ix) = a.get? (i :: j :: ix) := by
  by_cases h : InBounds (m :: t :: rest) (i :: j :: ix)
  · have h' : InBounds (m :: min n t :: rest) (i :: j :: ix) :=
      ⟨h.1, Nat.lt_min.2 ⟨hj, h.2.1⟩, h.2.2⟩
    simp only [takeAxis1, hshape, get?_ofFn, if_pos h']
    exact some_getD _ (hshape ▸ h)
  · have h' : ¬ InBounds (m :: min n t :: rest) (i :: j :: ix) :=
      fun h' => h ⟨h'.1, (Nat.lt_min.1 h'.2.1).2, h'.2.2⟩
    simp only [takeAxis1, hshape, get?_ofFn, if_neg h']
    exact (get?_eq_none (hshape ▸ h)).symm

theorem shape_take {a : NDArray α} {m : Nat} {rest : List Nat} (n : Nat)
    (hshape : a.shape = m :: rest) :
    (a.take n).shape = min n m :: rest := by
  simp [take, hshape]

theorem get?_take {a : NDArray α} {m n i : Nat} {rest ix : List Nat} (hshape : a.shape = m :: rest)
    (hi : i < n) : (a.take n).get? (i :: ix) = a.get? (i :: ix) := by
  by_cases h : InBounds (m :: rest) (i :: ix)
  · have h' : InBounds (min n m :: rest) (i :: ix) := ⟨Nat.lt_min.2 ⟨hi, h.1⟩, h.2⟩
    simp only [take, hshape, get?_ofFn, if_pos h']
    exact some_getD _ (hshape ▸ h)
  · have h' : ¬ InBounds (min n m :: rest) (i :: ix) := fun h' => h ⟨(Nat.lt_min.1 h'.1).2, h'.2⟩
    simp only [take, hshape, get?_ofFn, if_neg h']
    exact (get?_eq_none (hshape ▸ h)).symm

@[simp] theorem shape_assignTake (a src : NDArray α) : (a.assignTake src).shape = a.shape := rfl

theorem get?_assignTake {a src : NDArray α} {ix : List Nat} {x : α} (inside : InBounds a.shape ix)
    (stored : src.get? ix = some x) : (a.assignTake src).get? ix = some x := by
  rw [assignTake, get?_ofFn_inBounds _ inside, stored]
  rfl

theorem get?_select0 {a : NDArray α} {n i : Nat} {rest ix : List Nat} (hshape : a.shape = n :: rest)
    (hi : i < n) :
    (a.select0 i).get? ix = a.get? (i :: ix) := by
  by_cases h : InBounds rest ix
  · have inside : InBounds (n :: rest) (i :: ix) := ⟨hi, h⟩
    simp only [select0, hshape, get?_ofFn, if_pos h]
    exact some_getD _ (hshape ▸ inside)
  · have outside : ¬ InBounds (n :: rest) (i :: ix) := fun inside => h inside.2
    simp only [select0, hshape, get?_ofFn, if_neg h]
    exact (get?_eq_none (hshape ▸ outside)).symm

theorem get?_select1 {a : NDArray α} {m n i p : Nat} {rest ix : List Nat}
    (hshape : a.shape = m :: n :: rest)
    (hi : i < n) : (a.select1 i).get? (p :: ix) = a.get? (p :: i :: ix) := by
  by_cases h : InBounds (m :: rest) (p :: ix)
  · have inside : InBounds (m :: n :: rest) (p :: i :: ix) := ⟨h.1, hi, h.2⟩
    simp only [select1, hshape, get?_ofFn, if_pos h]
    exact some_getD _ (hshape ▸ inside)
  · have outside : ¬ InBounds (m :: n :: rest) (p :: i :: ix) :=
      fun inside => h ⟨inside.1, inside.2.2⟩
    simp only [select1, hshape, get?_ofFn, if_neg h]
    exact (get?_eq_none (hshape ▸ outside)).symm

theorem shape_select0 {a : NDArray α} {n : Nat} {rest : List Nat} (i : Nat)
    (hshape : a.shape = n :: rest) :
    (a.select0 i).shape = rest := by
  simp [select0, hshape]

theorem shape_select1 {a : NDArray α} {m n : Nat} {rest : List Nat} (i : Nat)
    (hshape : a.shape = m :: n :: rest) :
    (a.select1 i).shape = m :: rest := by
  simp [select1, hshape]

@[simp] theorem shape_assign0 (a b : NDArray α) (i : Nat) : (a.assign0 i b).shape = a.shape := rfl

@[simp] theorem shape_assign1 (a b : NDArray α) (i : Nat) : (a.assign1 i b).shape = a.shape := rfl

theorem select0_map [Inhabited β] {f : α → β} (filler : f default = default) (a : NDArray α)
    (i : Nat) :
    (a.map f).select0 i = (a.select0 i).map f := by
  unfold select0
  rw [shape_map]
  split
  next n rest shape =>
    have same : (ofFn rest fun ix => (a.map f).getD (i :: ix) default).shape =
        ((ofFn rest fun ix => a.getD (i :: ix) default).map f).shape := rfl
    apply ext_get? same
    intro ix cell
    rw [shape_ofFn] at cell
    rw [get?_map, get?_ofFn_inBounds _ cell, get?_ofFn_inBounds _ cell, getD, getD, get?_map]
    cases a.get? (i :: ix) with
    | none => simp [filler]
    | some x => rfl
  next => rfl

/-- Reading back an overwritten cell of the first axis, and reading another one. -/
theorem select0_assign0 {a b : NDArray α} {n i j : Nat} {rest : List Nat}
    (hshape : a.shape = n :: rest)
    (hb : b.shape = rest) (hj : j < n) : (a.assign0 i b).select0 j = if j = i then b
      else a.select0 j := by
  have written := shape_select0 j (show (a.assign0 i b).shape = n :: rest from hshape)
  have hresult : (if j = i then b else a.select0 j).shape = rest := by
    split
    · exact hb
    · exact shape_select0 j hshape
  apply ext_get? (written.trans hresult.symm)
  intro ix inside
  rw [written] at inside
  have cell : InBounds a.shape (j :: ix) := by rw [hshape]; exact ⟨hj, inside⟩
  rw [get?_select0 (show (a.assign0 i b).shape = n :: rest from hshape) hj, assign0,
    get?_ofFn_inBounds _ cell]
  simp only
  split
  · exact some_getD _ (hb ▸ inside)
  · rw [get?_select0 hshape hj]
    exact some_getD _ cell

/-- The same for the second axis. -/
theorem select1_assign1 {a b : NDArray α} {m n i j : Nat} {rest : List Nat}
    (hshape : a.shape = m :: n :: rest)
    (hb : b.shape = m :: rest) (hj : j < n) :
    (a.assign1 i b).select1 j = if j = i then b else a.select1 j := by
  have written := shape_select1 j (show (a.assign1 i b).shape = m :: n :: rest from hshape)
  have hresult : (if j = i then b else a.select1 j).shape = m :: rest := by
    split
    · exact hb
    · exact shape_select1 j hshape
  apply ext_get? (written.trans hresult.symm)
  intro ix inside
  rw [written] at inside
  match ix, inside with
  | p :: ix, inside =>
    have cell : InBounds a.shape (p :: j :: ix) := by rw [hshape]; exact ⟨inside.1, hj, inside.2⟩
    rw [get?_select1 (show (a.assign1 i b).shape = m :: n :: rest from hshape) hj, assign1,
      get?_ofFn_inBounds _ cell]
    simp only
    split
    · exact some_getD _ (hb ▸ inside)
    · rw [get?_select1 hshape hj]
      exact some_getD _ cell

theorem indexSelect_eq_some {a : NDArray α} {m : Nat} {rest ids : List Nat}
    (hshape : a.shape = m :: rest)
    (bound : ∀ id ∈ ids, id < m) : a.indexSelect ids = some (a.gatherRows ids) := by
  rw [indexSelect, hshape]
  exact if_pos bound

theorem shape_gatherRows {a : NDArray α} {m : Nat} {rest : List Nat} (ids : List Nat)
    (hshape : a.shape = m :: rest) :
    (a.gatherRows ids).shape = ids.length :: rest := by
  simp [gatherRows, hshape]

theorem get?_gatherRows {a : NDArray α} {m j id : Nat} {rest ids ix : List Nat}
    (hshape : a.shape = m :: rest)
    (bound : id < m) (hj : ids[j]? = some id) :
      (a.gatherRows ids).get? (j :: ix) = a.get? (id :: ix) := by
  obtain ⟨hlen, hget⟩ := List.getElem?_eq_some_iff.1 hj
  by_cases h : InBounds rest ix
  · have inside : InBounds (ids.length :: rest) (j :: ix) := ⟨hlen, h⟩
    have inside' : InBounds (m :: rest) (id :: ix) := ⟨bound, h⟩
    simp only [gatherRows, hshape, get?_ofFn, if_pos inside, List.getD_eq_getElem?_getD, hj,
      Option.getD_some]
    exact some_getD _ (hshape ▸ inside')
  · have outside : ¬ InBounds (ids.length :: rest) (j :: ix) := fun inside => h inside.2
    have outside' : ¬ InBounds (m :: rest) (id :: ix) := fun inside => h inside.2
    simp only [gatherRows, hshape, get?_ofFn, if_neg outside]
    exact (get?_eq_none (hshape ▸ outside')).symm

theorem lastIdx?_of_nodup {ids : List Nat} {j p : Nat} (distinct : ids.Nodup)
    (hj : ids[j]? = some p) :
    lastIdx? ids p = some j := by
  obtain ⟨hlen, hget⟩ := List.getElem?_eq_some_iff.1 hj
  cases found : ids.zipIdx.reverse.find? fun e => e.1 = p with
  | none =>
    have := List.find?_eq_none.1 found (p, j) (by simp [List.mem_zipIdx_iff_getElem?, hj])
    simp at this
  | some e =>
    have member : e ∈ ids.zipIdx := by simpa using List.mem_of_find?_eq_some found
    have same : e.1 = p := by simpa using List.find?_some found
    have at_e : ids[e.2]? = some p := by
      rw [← same]; exact List.mem_zipIdx_iff_getElem?.1 member
    have : j = e.2 := (List.getElem?_inj hlen distinct).1 (hj.trans at_e.symm)
    simp [lastIdx?, found, this]

theorem lastIdx?_of_not_mem {ids : List Nat} {p : Nat} (absent : p ∉ ids) :
    lastIdx? ids p = none := by
  rw [lastIdx?, Option.map_eq_none_iff, List.find?_eq_none]
  rintro ⟨q, j⟩ member
  have : q ∈ ids := by
    have := List.mem_zipIdx_iff_getElem?.1 (List.mem_reverse.1 member)
    exact List.mem_of_getElem? this
  simp only [decide_eq_true_eq]
  rintro rfl
  exact absent this

theorem scatter_eq_some {a : NDArray α} (src : NDArray α) {m : Nat} {rest ids : List Nat}
    (hshape : a.shape = m :: rest)
    (bound : ∀ id ∈ ids, id < m) (distinct : ids.Nodup) :
    ∃ b, a.scatter ids src = some b ∧ b.shape = a.shape ∧
      (∀ j id ix x, ids[j]? = some id → InBounds rest ix → src.get? (j :: ix) = some x →
        b.get? (id :: ix) = some x) ∧
      ∀ p ix, p ∉ ids → b.get? (p :: ix) = a.get? (p :: ix) := by
  refine ⟨_, by rw [scatter, hshape]; exact if_pos bound, hshape.symm, ?_, ?_⟩
  · intro j id ix x hj hix hx
    have hid : id < m := by
      obtain ⟨hlen, hget⟩ := List.getElem?_eq_some_iff.1 hj
      exact bound id (hget ▸ List.getElem_mem hlen)
    have inside : InBounds (m :: rest) (id :: ix) := ⟨hid, hix⟩
    rw [get?_ofFn_inBounds _ inside]
    simp [lastIdx?_of_nodup distinct hj, hx]
  · intro p ix absent
    by_cases h : InBounds (m :: rest) (p :: ix)
    · rw [get?_ofFn_inBounds _ h]
      simp only [lastIdx?_of_not_mem absent, Option.bind_none, Option.getD_none]
      exact some_getD _ (hshape ▸ h)
    · rw [get?_eq_none h, get?_eq_none (hshape ▸ h)]

end Axes

/-! ## Stacking -/

/-- The buffer `data` under a shape; `none` if the sizes differ. -/
def ofData? (shape : List Nat) (data : List α) : Option (NDArray α) :=
  if size : data.length = shape.prod then some ⟨shape, data, size⟩ else none

/-- Arrays of one shape along a new first axis (`np.stack`). -/
def stack : List (NDArray α) → Option (NDArray α)
  | [] => none
  | a :: rest =>
    if ∀ b ∈ rest, b.shape = a.shape then
      ofData? ((rest.length + 1) :: a.shape) ((a :: rest).flatMap data)
    else none

/-- The rows of `a`, then those of `b` (`np.concatenate` along the first axis); `none` where the
    rows differ in shape. -/
def concat (a b : NDArray α) : Option (NDArray α) :=
  match a.shape, b.shape with
  | m :: rest,
      n :: rest' => if rest = rest' then ofData? ((m + n) :: rest) (a.data ++ b.data) else none
  | _, _ => none

theorem concat_eq_some {a b : NDArray α} {m n : Nat} {rest : List Nat} (ha : a.shape = m :: rest)
    (hb : b.shape = n :: rest) : ∃ c, a.concat b = some c ∧ c.shape = (m + n) :: rest ∧
      c.data = a.data ++ b.data := by
  have size : (a.data ++ b.data).length = ((m + n) :: rest).prod := by
    rw [List.length_append, a.size_eq, b.size_eq, ha, hb, List.prod_cons, List.prod_cons,
      List.prod_cons, Nat.add_mul]
  refine ⟨⟨(m + n) :: rest, a.data ++ b.data, size⟩, ?_, rfl, rfl⟩
  rw [concat, ha, hb]
  simp only [if_true, ofData?, dif_pos size]

/-- Cell `i * n + j` of the concatenation of buffers of length `n`. -/
theorem getElem?_flatMap_data {as : List (NDArray α)} {n : Nat}
    (uniform : ∀ a ∈ as, a.data.length = n) {i j : Nat}
    (inside : j < n) : (as.flatMap data)[i * n + j]? = as[i]?.bind fun a => a.data[j]? := by
  induction as generalizing i with
  | nil => simp
  | cons a as ih =>
    have first := uniform a List.mem_cons_self
    rw [List.flatMap_cons]
    cases i with
    | zero =>
      rw [Nat.zero_mul, Nat.zero_add, List.getElem?_append_left (by omega), List.getElem?_cons_zero,
        Option.bind_some]
    | succ i =>
      rw [List.getElem?_append_right (by rw [first, Nat.succ_mul]; omega), List.getElem?_cons_succ,
        ← ih (fun b member => uniform b (List.mem_cons_of_mem _ member))]
      congr 1
      rw [first, Nat.succ_mul]
      omega

theorem length_flatMap_data {as : List (NDArray α)} {shape : List Nat}
    (uniform : ∀ a ∈ as, a.shape = shape) :
    (as.flatMap data).length = (as.length :: shape).prod := by
  induction as with
  | nil => simp
  | cons a as ih =>
    rw [List.flatMap_cons, List.length_append,
      ih fun b member => uniform b (List.mem_cons_of_mem _ member), a.size_eq,
      uniform a List.mem_cons_self, List.prod_cons, List.prod_cons, List.length_cons, Nat.succ_mul,
        Nat.add_comm]

/-- The stack of arrays of shape `shape`. -/
def stacked (as : List (NDArray α)) (shape : List Nat) (uniform : ∀ a ∈ as, a.shape = shape) :
    NDArray α :=
  ⟨as.length :: shape, as.flatMap data, length_flatMap_data uniform⟩

section Stacked

variable {as : List (NDArray α)} {shape : List Nat} (uniform : ∀ a ∈ as, a.shape = shape)
include uniform

theorem ofData?_flatMap : ofData? (as.length :: shape)
    (as.flatMap data) = some (stacked as shape uniform) :=
  dif_pos (length_flatMap_data uniform)

theorem stack_eq (nonempty : as ≠ []) : stack as = some (stacked as shape uniform) := by
  rw [← ofData?_flatMap uniform]
  cases as with
  | nil => exact absurd rfl nonempty
  | cons a as =>
    have own := uniform a List.mem_cons_self
    rw [stack, if_pos fun b member => (uniform b (List.mem_cons_of_mem _ member)).trans own.symm,
      own, List.length_cons]

/-- Cell `i` of a stack is the array stacked there. -/
theorem select0_stacked [Inhabited α] {i : Nat} {a : NDArray α} (here : as[i]? = some a) :
    (stacked as shape uniform).select0 i = a := by
  obtain ⟨inside, rfl⟩ := List.getElem?_eq_some_iff.1 here
  have own := uniform _ (List.getElem_mem inside)
  apply ext_get? ((shape_select0 i rfl).trans own.symm)
  intro ix cell
  rw [shape_select0 i rfl] at cell
  have position := ravel_lt cell
  rw [get?_select0 rfl inside, get?, get?, stacked, if_pos ⟨inside, cell⟩, own, if_pos cell, ravel,
    getElem?_flatMap_data (fun b member => by rw [b.size_eq, uniform b member]) position, here,
      Option.bind_some]

end Stacked

end NDArray

end Dexa.Lib
