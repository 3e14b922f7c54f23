import Mathlib.Algebra.BigOperators.Group.List.Lemmas
import Mathlib.Algebra.Order.Ring.Nat
import Mathlib.Algebra.Order.BigOperators.Group.Finset
import Mathlib.Algebra.Order.BigOperators.Group.List
import Mathlib.Data.List.Perm.Subperm

/-! # Taking the greatest first

A list is ranked by a value, the greatest first and equal ones in the order of the list.  The head
of the ranking sums to at least as much as any other choice of as many elements, and what is inside
and outside of it is told apart by the values, ties by the order.
-/

namespace Dexa.Lib

section Sums

variable {α : Type*} [AddCommMonoid α] [LinearOrder α] [IsOrderedAddMonoid α]

theorem sum_le_sum_take_of_sublist {l s : List α} (sublist : s.Sublist l)
    (descending : l.Pairwise (· ≥ ·)) :
    s.sum ≤ (l.take s.length).sum := by
  induction sublist with
  | slnil => simp
  | @cons s l a sublist ih =>
    obtain ⟨first, tail⟩ := List.pairwise_cons.1 descending
    cases size : s.length with
    | zero => simp [List.eq_nil_of_length_eq_zero size]
    | succ k =>
      -- the element after the head of `l` is no greater than `a`, which takes its place
      have inside : k < l.length := by
        have := sublist.length_le
        omega
      have last : l[k] ≤ a := first l[k] (List.getElem_mem inside)
      calc s.sum ≤ (l.take (k + 1)).sum := size ▸ ih tail
        _ = (l.take k).sum + l[k] := List.sum_take_succ l k inside
        _ ≤ (l.take k).sum + a := by gcongr
        _ = ((a :: l).take (k + 1)).sum := by rw [List.take_succ_cons, List.sum_cons, add_comm]
  | @cons_cons s l a _ ih =>
    rw [List.length_cons, List.take_succ_cons, List.sum_cons, List.sum_cons]
    gcongr
    exact ih (List.pairwise_cons.1 descending).2

/-- No choice of as many elements sums to more than the head of a descending list. -/
theorem sum_le_sum_take {l m : List α} (descending : l.Pairwise (· ≥ ·)) (among : m.Subperm l) :
    m.sum ≤ (l.take m.length).sum := by
  obtain ⟨s, perm, sublist⟩ := among
  rw [← perm.sum_eq, ← perm.length_eq]
  exact sum_le_sum_take_of_sublist sublist descending

end Sums

variable {ι α : Type*} [LinearOrder α] (v : ι → α)

def ranked (l : List ι) : List ι := l.mergeSort fun a b => decide (v b ≤ v a)

theorem ranked_perm (l : List ι) : (ranked v l).Perm l := List.mergeSort_perm _ _

theorem ranked_descending (l : List ι) : (ranked v l).Pairwise fun a b => v b ≤ v a := by
  have sorted := @List.pairwise_mergeSort _ (fun a b => decide (v b ≤ v a))
    (fun a b c first second => decide_eq_true
      ((of_decide_eq_true second).trans (of_decide_eq_true first)))
    (fun a b => by simpa using le_total _ _) l
  exact sorted.imp of_decide_eq_true

theorem map_ranked {κ : Type*} (f : κ → ι) (l : List κ) :
    (ranked (v ∘ f) l).map f = ranked v (l.map f) :=
  List.map_mergeSort fun _ _ _ _ => rfl

/-- Equal elements keep their order. -/
theorem ranked_stable {r : ι → ι → Prop} {l : List ι} (ordered : l.Pairwise r) :
    (ranked v l).Pairwise fun a b => v b < v a ∨ v b = v a ∧ r a b := by
  let le := fun a b : ι => decide (v b ≤ v a)
  let s := l.zipIdx.mergeSort (List.zipIdxLE le)
  have image : s.map (·.1) = ranked v l := List.mergeSort_zipIdx
  have perm : s.Perm l.zipIdx := List.mergeSort_perm _ _
  have sorted : s.Pairwise fun a b => List.zipIdxLE le a b = true := by
    apply List.pairwise_mergeSort
    · exact List.zipIdxLE_trans fun a b c first second =>
        decide_eq_true ((of_decide_eq_true second).trans (of_decide_eq_true first))
    · exact List.zipIdxLE_total fun a b => by simpa [le] using le_total _ _
  have apart : s.Pairwise fun a b => a.2 ≠ b.2 := by
    have nodup : (s.map (·.2)).Nodup := by
      rw [(perm.map _).nodup_iff, List.zipIdx_map_snd]
      exact List.nodup_range' ..
    exact List.pairwise_map.1 nodup
  rw [← image, List.pairwise_map]
  refine (sorted.and apart).imp_of_mem fun {a b} memberA memberB both => ?_
  have hereA : l[a.2]? = some a.1 := List.mem_zipIdx_iff_getElem?.1 (perm.mem_iff.1 memberA)
  have hereB : l[b.2]? = some b.1 := List.mem_zipIdx_iff_getElem?.1 (perm.mem_iff.1 memberB)
  obtain ⟨before, differ⟩ := both
  simp only [List.zipIdxLE, le, decide_eq_true_eq] at before
  split at before
  · rename_i ge
    split at before
    · rename_i le'
      -- a tie, so the positions decide
      have lt : a.2 < b.2 := lt_of_le_of_ne (of_decide_eq_true before) differ
      obtain ⟨insideA, atA⟩ := List.getElem?_eq_some_iff.1 hereA
      obtain ⟨insideB, atB⟩ := List.getElem?_eq_some_iff.1 hereB
      have order := List.pairwise_iff_getElem.1 ordered a.2 b.2 insideA insideB lt
      rw [atA, atB] at order
      exact .inr ⟨le_antisymm ge le', order⟩
    · rename_i greater
      exact .inl (not_le.1 greater)
  · cases before

theorem before_of_take_drop {r : ι → ι → Prop} {l : List ι} (ordered : l.Pairwise r)
    {k : Nat} {a b : ι}
    (inside : a ∈ (ranked v l).take k) (outside : b ∈ (ranked v l).drop k) : v b < v a ∨
      v b = v a ∧ r a b := by
  have stable := ranked_stable v ordered
  rw [← List.take_append_drop k (ranked v l)] at stable
  exact (List.pairwise_append.1 stable).2.2 a inside b outside

/-- The head of the ranking is worth at least as much as any other choice of as many. -/
theorem sum_le_sum_take_ranked [AddCommMonoid α] [IsOrderedAddMonoid α] {l m : List ι}
    (among : m.Subperm l) :
    (m.map v).sum ≤ (((ranked v l).take m.length).map v).sum := by
  have descending : ((ranked v l).map v).Pairwise (· ≥ ·) :=
    List.pairwise_map.2 (ranked_descending v l)
  obtain ⟨s, perm, sublist⟩ := among.trans (ranked_perm v l).symm.subperm
  have bound := sum_le_sum_take descending ⟨s.map v, perm.map v, sublist.map v⟩
  rwa [List.length_map, ← List.map_take] at bound

/-! ## Rows -/

/-- The places `lo, …, lo + c h - 1` of each of `n` rows `h`. -/
def rowHeads (n lo : Nat) (c : Nat → Nat) : List (Nat × Nat) :=
  (List.range n).flatMap fun h => (List.range' lo (c h)).map (Prod.mk h)

@[simp] theorem mem_rowHeads {n lo : Nat} {c : Nat → Nat} {p : Nat × Nat} :
    p ∈ rowHeads n lo c ↔ p.1 < n ∧ lo ≤ p.2 ∧ p.2 < lo + c p.1 := by
  obtain ⟨h, r⟩ := p
  simp [rowHeads]

theorem rowHeads_ordered (n lo : Nat) (c : Nat → Nat) :
    (rowHeads n lo c).Pairwise fun p q => p.1 < q.1 ∨ p.1 = q.1 ∧ p.2 < q.2 := by
  rw [rowHeads, List.pairwise_flatMap]
  constructor
  · intro h _
    have increasing : (List.range' lo (c h)).Pairwise (· < ·) := List.pairwise_lt_range'
    exact List.pairwise_map.2 (increasing.imp fun lt => .inr ⟨rfl, lt⟩)
  · refine List.pairwise_lt_range.imp fun lt p member q member' => ?_
    obtain ⟨_, -, rfl⟩ := List.mem_map.1 member
    obtain ⟨_, -, rfl⟩ := List.mem_map.1 member'
    exact .inl lt

theorem nodup_rowHeads (n lo : Nat) (c : Nat → Nat) : (rowHeads n lo c).Nodup := by
  refine (rowHeads_ordered n lo c).imp fun {p q} before same => ?_
  subst same
  omega

@[simp] theorem length_rowHeads (n lo : Nat) (c : Nat → Nat) :
    (rowHeads n lo c).length = ((List.range n).map c).sum := by
  simp [rowHeads, List.length_flatMap]

omit [LinearOrder α] in
theorem sum_map_rowHeads [AddCommMonoid α] (n lo : Nat) (c : Nat → Nat) (v : Nat × Nat → α) :
    ((rowHeads n lo c).map v).sum =
      ((List.range n).map fun h => ((List.range' lo (c h)).map fun r => v (h, r)).sum).sum := by
  rw [rowHeads]
  induction List.range n with
  | nil => simp
  | cons h rows ih => simp [ih, Function.comp_def]

theorem sum_range_ite_eq (i n : Nat) : ((List.range n).map fun h => if i = h then 1 else 0).sum =
    if i < n then 1 else 0 := by
  induction n with
  | zero => simp
  | succ n ih =>
    rw [List.range_succ, List.map_append, List.sum_append, ih]
    simp only [List.map_cons, List.map_nil, List.sum_singleton]
    split_ifs <;> omega

theorem sum_countP_eq_length {κ : Type*} {l : List κ} {g : κ → Nat} {n : Nat}
    (below : ∀ a ∈ l, g a < n) :
    ((List.range n).map fun h => l.countP fun a => g a = h).sum = l.length := by
  induction l with
  | nil => simp
  | cons a l ih =>
    obtain ⟨here, tail⟩ := List.forall_mem_cons.1 below
    have one := sum_range_ite_eq (g a) n
    rw [if_pos here] at one
    simp only [List.countP_cons, decide_eq_true_eq, List.length_cons]
    rw [List.sum_map_add, ih tail, one]

/-- Numbers on one side of their mean are equal. -/
theorem eq_of_sum_eq_mul {f : Nat → Nat} {n c : Nat} (side : (∀ h < n, f h ≤ c) ∨ ∀ h < n, c ≤ f h)
    (total : ((List.range n).map f).sum = n * c) : ∀ h < n, f h = c := by
  have whole : ∑ h ∈ Finset.range n, f h = ∑ _h ∈ Finset.range n, c := by
    rw [Finset.sum_const, Finset.card_range, Nat.nsmul_eq_mul, ← total]
    rfl
  intro h inside
  have member := Finset.mem_range.2 inside
  cases side with
  | inl le => exact (Finset.sum_eq_sum_iff_of_le
      fun h' inside' => le h' (Finset.mem_range.1 inside')).1 whole h member
  | inr ge => exact ((Finset.sum_eq_sum_iff_of_le
      fun h' inside' => ge h' (Finset.mem_range.1 inside')).1 whole.symm h member).symm

section Share

variable (v : Nat × Nat → α) (n lo width k : Nat)

/-- The `k` greatest places of `n` rows of places `lo, …, lo + width - 1`. -/
def topPlaces : List (Nat × Nat) := (ranked v (rowHeads n lo fun _ => width)).take k

/-- How many of the greatest places are in row `h`. -/
def share (h : Nat) : Nat := (topPlaces v n lo width k).countP fun p => p.1 = h

theorem topPlaces_subperm : (topPlaces v n lo width k).Subperm (rowHeads n lo fun _ => width) :=
  (List.take_sublist k _).subperm.trans (ranked_perm v _).subperm

theorem nodup_topPlaces : (topPlaces v n lo width k).Nodup :=
  ((ranked_perm v _).nodup_iff.2 (nodup_rowHeads ..)).sublist (List.take_sublist k _)

variable {v n lo width k}

theorem bounds_of_mem_topPlaces {p : Nat × Nat} (member : p ∈ topPlaces v n lo width k) :
    p.1 < n ∧ lo ≤ p.2 ∧ p.2 < lo + width :=
      mem_rowHeads.1 ((topPlaces_subperm v n lo width k).subset member)

variable (v n lo width k) in
/-- The ranks of row `h` among the greatest places. -/
def rowRanks (h : Nat) : List Nat :=
  ((topPlaces v n lo width k).filter fun p => p.1 = h).map Prod.snd

@[simp] theorem mem_rowRanks {h r : Nat} : r ∈ rowRanks v n lo width k h ↔
    (h, r) ∈ topPlaces v n lo width k := by
  simp [rowRanks]

theorem length_rowRanks (h : Nat) :
    (rowRanks v n lo width k h).length = share v n lo width k h := by
  rw [rowRanks, List.length_map, share, List.countP_eq_length_filter]

theorem nodup_rowRanks (h : Nat) : (rowRanks v n lo width k h).Nodup := by
  apply List.Nodup.map_on
  · intro p member q member' same
    have rowP : p.1 = h := by simpa using (List.mem_filter.1 member).2
    have rowQ : q.1 = h := by simpa using (List.mem_filter.1 member').2
    exact Prod.ext (rowP.trans rowQ.symm) same
  · exact (nodup_topPlaces v n lo width k).filter _

theorem share_le (h : Nat) : share v n lo width k h ≤ width := by
  have inside : (rowRanks v n lo width k h).Subperm (List.range' lo width) := by
    apply List.subperm_of_subset (nodup_rowRanks h)
    intro r member
    obtain ⟨-, lower, upper⟩ := bounds_of_mem_topPlaces (mem_rowRanks.1 member)
    exact List.mem_range'_1.2 ⟨lower, upper⟩
  have bound := inside.length_le
  rwa [length_rowRanks, List.length_range'] at bound

theorem sum_share (enough : k ≤ n * width) :
    ((List.range n).map (share v n lo width k)).sum = k := by
  have counted := sum_countP_eq_length (l := topPlaces v n lo width k) (g := Prod.fst)
    fun p member =>
    (bounds_of_mem_topPlaces member).1
  have whole : (topPlaces v n lo width k).length = k := by
    rw [topPlaces, List.length_take, (ranked_perm v _).length_eq, length_rowHeads]
    simpa using enough
  exact counted.trans whole

/-! The rows descend, so the greatest places of a row are its first. -/

variable (descends : ∀ h r r', h < n → r ≤ r' → r' < lo + width → v (h, r') ≤ v (h, r))
include descends

theorem mem_topPlaces_of_le {h r r' : Nat} (member : (h, r) ∈ topPlaces v n lo width k)
    (lower : lo ≤ r') (le : r' ≤ r) :
    (h, r') ∈ topPlaces v n lo width k := by
  obtain ⟨inside, -, upper⟩ := bounds_of_mem_topPlaces member
  have listed : (h, r') ∈ ranked v (rowHeads n lo fun _ => width) :=
    (ranked_perm v _).mem_iff.2 (mem_rowHeads.2 ⟨inside, lower, le.trans_lt upper⟩)
  rw [← List.take_append_drop k (ranked v _)] at listed
  cases List.mem_append.1 listed with
  | inl taken => exact taken
  | inr left =>
    have later := descends h r' r inside le upper
    obtain greater | ⟨-, before⟩ := before_of_take_drop v (rowHeads_ordered n lo _) member left
    · exact absurd later (not_le.2 greater)
    · simp only at before
      omega

theorem mem_topPlaces_iff {h r : Nat} :
    (h, r) ∈ topPlaces v n lo width k ↔ h < n ∧ lo ≤ r ∧ r < lo + share v n lo width k h := by
  constructor
  · intro member
    obtain ⟨inside, lower, -⟩ := bounds_of_mem_topPlaces member
    -- with `r` all earlier ranks of the row are there
    have all : (List.range' lo (r - lo + 1)).Subperm (rowRanks v n lo width k h) := by
      apply List.subperm_of_subset (List.nodup_range' ..)
      intro r' member'
      obtain ⟨lower', upper'⟩ := List.mem_range'_1.1 member'
      exact mem_rowRanks.2 (mem_topPlaces_of_le descends member lower' (by omega))
    have bound := all.length_le
    rw [length_rowRanks, List.length_range'] at bound
    exact ⟨inside, lower, by omega⟩
  · rintro ⟨-, lower, upper⟩
    by_contra absent
    -- without `r` no later rank of the row is there
    have few : (rowRanks v n lo width k h).Subperm (List.range' lo (r - lo)) := by
      apply List.subperm_of_subset (nodup_rowRanks h)
      intro r' member'
      have there := mem_rowRanks.1 member'
      have before : r' < r := by
        by_contra later
        exact absent (mem_topPlaces_of_le descends there lower (not_lt.1 later))
      exact List.mem_range'_1.2 ⟨(bounds_of_mem_topPlaces there).2.1, by omega⟩
    have bound := few.length_le
    rw [length_rowRanks, List.length_range'] at bound
    omega

theorem topPlaces_perm :
    (topPlaces v n lo width k).Perm (rowHeads n lo (share v n lo width k)) := by
  rw [List.perm_ext_iff_of_nodup (nodup_topPlaces ..) (nodup_rowHeads ..)]
  rintro ⟨h, r⟩
  rw [mem_topPlaces_iff descends, mem_rowHeads]

/-- No choice of `k` places that takes rows from their start is worth more. -/
theorem sum_rowHeads_le_share [AddCommMonoid α] [IsOrderedAddMonoid α] {c : Nat → Nat}
    (fits : ∀ h < n, c h ≤ width)
    (total : ((List.range n).map c).sum = k) :
    ((rowHeads n lo c).map v).sum ≤ ((rowHeads n lo (share v n lo width k)).map v).sum := by
  have among : (rowHeads n lo c).Subperm (rowHeads n lo fun _ => width) := by
    apply List.subperm_of_subset (nodup_rowHeads ..)
    intro p member
    obtain ⟨inside, lower, upper⟩ := mem_rowHeads.1 member
    have := fits p.1 inside
    exact mem_rowHeads.2 ⟨inside, lower, by omega⟩
  have bound := sum_le_sum_take_ranked v among
  rw [length_rowHeads, total] at bound
  exact bound.trans_eq ((topPlaces_perm descends).map v).sum_eq

theorem mem_drop_of_share_le {h r : Nat} (inside : h < n) (lower : lo ≤ r) (upper : r < lo + width)
    (past : lo + share v n lo width k h ≤ r) :
      (h, r) ∈ (ranked v (rowHeads n lo fun _ => width)).drop k := by
  have listed : (h, r) ∈ ranked v (rowHeads n lo fun _ => width) :=
    (ranked_perm v _).mem_iff.2 (mem_rowHeads.2 ⟨inside, lower, upper⟩)
  rw [← List.take_append_drop k (ranked v _)] at listed
  refine (List.mem_append.1 listed).resolve_left fun taken => ?_
  have := ((mem_topPlaces_iff descends).1 taken).2.2
  omega

/-- What is taken of one row comes before what is left of another. -/
theorem before_of_share {h h' r r' : Nat} (inside : h < n) (lower : lo ≤ r)
    (taken : r < lo + share v n lo width k h)
    (inside' : h' < n) (lower' : lo ≤ r') (upper' : r' < lo + width)
    (left : lo + share v n lo width k h' ≤ r')
    (differ : h ≠ h') : v (h', r') < v (h, r) ∨ v (h', r') = v (h, r) ∧ h < h' := by
  have first : (h, r) ∈ topPlaces v n lo width k :=
    (mem_topPlaces_iff descends).2 ⟨inside, lower, taken⟩
  have second := mem_drop_of_share_le descends inside' lower' upper' left
  obtain greater | ⟨tie, before⟩ := before_of_take_drop v (rowHeads_ordered n lo _) first second
  · exact .inl greater
  · simp only at before
    exact .inr ⟨tie, by omega⟩

/-- The rows share equally exactly if every row's last place comes before the first place that is
left of every other row. -/
theorem share_eq_iff {c : Nat} (total : n * c = k) (room : c < width) :
    (∀ h < n, share v n lo width k h = c) ↔
      c = 0 ∨ ∀ h < n, ∀ h' < n, h ≠ h' →
        v (h', lo + c) < v (h, lo + c - 1) ∨ v (h', lo + c) = v (h, lo + c - 1) ∧ h < h' := by
  constructor
  · intro equal
    by_cases zero : c = 0
    · exact .inl zero
    · refine .inr fun h inside h' inside' differ => ?_
      have mine := equal h inside
      have theirs := equal h' inside'
      exact before_of_share (k := k) descends inside (by omega) (by omega) inside' (by omega)
        (by omega) (by omega) differ
  · rintro (rfl | ahead)
    · intro h _
      obtain rfl : k = 0 := by rw [← total, Nat.mul_zero]
      simp [share, topPlaces]
    · -- a row with more than its share would have taken a place from one with less
      have even : ∀ h < n, ∀ h' < n, share v n lo width k h < c → ¬c < share v n lo width k h' := by
        intro h inside h' inside' less more
        have differ : h' ≠ h := by
          rintro rfl
          omega
        have first : lo + c < lo + share v n lo width k h' := by omega
        have last : lo ≤ lo + c - 1 := by omega
        have left : lo + share v n lo width k h ≤ lo + c - 1 := by omega
        have taken := before_of_share descends inside' (Nat.le_add_right lo c) first inside last
          (by omega) left differ
        obtain greater | ⟨tie, order⟩ := ahead h inside h' inside' differ.symm
        · obtain greater' | ⟨tie, -⟩ := taken
          · exact lt_asymm greater greater'
          · exact greater.ne' tie
        · obtain greater' | ⟨-, order'⟩ := taken
          · exact greater'.ne' tie
          · omega
      have shares : ((List.range n).map (share v n lo width k)).sum = k :=
        sum_share (total ▸ Nat.mul_le_mul_left n room.le)
      refine eq_of_sum_eq_mul ?_ (shares.trans total.symm)
      by_cases less : ∃ h < n, share v n lo width k h < c
      · obtain ⟨h, inside, less⟩ := less
        exact .inl fun h' inside' => not_lt.1 (even h inside h' inside' less)
      · push Not at less
        exact .inr less

end Share

end Dexa.Lib
