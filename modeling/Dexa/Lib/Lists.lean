import Mathlib.Algebra.BigOperators.Group.List.Lemmas
import Mathlib.Data.List.Forall2

/-! # Lists that are updated in one place

What holds of all elements, and what the elements add up to, when one of them is replaced or one
is added at the end.
-/

namespace Dexa.Lib

variable {α β : Type*}

theorem forall_mem_set {P : α → Prop} {l : List α} {a : α} {i : Nat} (all : ∀ a ∈ l, P a)
    (here : P a) :
    ∀ b ∈ l.set i a, P b := by
  intro b member
  cases List.mem_or_eq_of_mem_set member with
  | inl old => exact all b old
  | inr new => exact new ▸ here

theorem forall_mem_concat {P : α → Prop} {l : List α} {a : α} (all : ∀ a ∈ l, P a) (here : P a) :
    ∀ b ∈ l ++ [a], P b := by
  intro b member
  cases List.mem_append.1 member with
  | inl old => exact all b old
  | inr new => exact List.mem_singleton.1 new ▸ here

theorem forall_mem_eraseIdx {P : α → Prop} {l : List α} (all : ∀ a ∈ l, P a) (i : Nat) :
    ∀ b ∈ l.eraseIdx i, P b :=
  fun b member => all b (List.mem_of_mem_eraseIdx member)

theorem forall₂_getElem? {R : α → β → Prop} {l : List α} {l' : List β}
    (related : List.Forall₂ R l l') {i : Nat} {a : α}
    (here : l[i]? = some a) : ∃ b, l'[i]? = some b ∧ R a b := by
  obtain ⟨inside, rfl⟩ := List.getElem?_eq_some_iff.1 here
  have inside' : i < l'.length := related.length_eq ▸ inside
  exact ⟨l'[i], List.getElem?_eq_getElem inside', related.get inside inside'⟩

theorem forall₂_concat {R : α → β → Prop} {l : List α} {l' : List β} (related : List.Forall₂ R l l')
    {a : α} {b : β}
    (here : R a b) : List.Forall₂ R (l ++ [a]) (l' ++ [b]) :=
  List.rel_append related (.cons here .nil)

theorem forall₂_eraseIdx {R : α → β → Prop} {l : List α} {l' : List β}
    (related : List.Forall₂ R l l') (i : Nat) :
    List.Forall₂ R (l.eraseIdx i) (l'.eraseIdx i) := by
  rw [List.eraseIdx_eq_take_drop_succ, List.eraseIdx_eq_take_drop_succ]
  exact List.rel_append (List.forall₂_take i related) (List.forall₂_drop (i + 1) related)

theorem map_eq_of_forall₂ {γ : Type*} {R : α → β → Prop} {f : α → γ} {g : β → γ}
    (same : ∀ a b, R a b → g b = f a)
    {l : List α} {l' : List β} (related : List.Forall₂ R l l') : l'.map g = l.map f := by
  induction related with
  | nil => rfl
  | cons here _ ih => rw [List.map_cons, List.map_cons, same _ _ here, ih]

/-- A sum where one summand is replaced. -/
theorem sum_map_set {M : Type*} [AddCommMonoid M] (f : α → M) {l : List α} {i : Nat} {a : α}
    (there : l[i]? = some a) (b : α) :
    ((l.set i b).map f).sum + f a = (l.map f).sum + f b := by
  induction l generalizing i with
  | nil => cases there
  | cons x l ih =>
    cases i with
    | zero =>
      obtain rfl := Option.some.inj there
      simp only [List.set_cons_zero, List.map_cons, List.sum_cons]
      rw [add_right_comm, add_comm (f b), add_assoc, add_right_comm]
      exact (add_assoc ..).symm
    | succ i =>
      simp only [List.set_cons_succ, List.map_cons, List.sum_cons, add_assoc]
      rw [ih there]

/-- An element that is changed in its place is replaced in every view of the list. -/
theorem map_modify {f : α → α} {g : α → β} {l : List α} {i : Nat} {a : α} (there : l[i]? = some a) :
    (l.modify i f).map g = (l.map g).set i (g (f a)) := by
  apply List.ext_getElem?
  intro j
  rw [List.getElem?_map, List.getElem?_modify, List.getElem?_set, List.getElem?_map]
  by_cases here : i = j
  · subst here
    simpa [there] using (List.getElem?_eq_some_iff.1 there).1
  · simp [here]

/-- All elements of the changed list have a property exactly when all elements had it and the
changed one keeps it. -/
theorem forall_mem_modify {P : α → Prop} {c : Prop} {f : α → α} {l : List α} {i : Nat} {a : α}
    (there : l[i]? = some a)
    (changed : P (f a) ↔ P a ∧ c) : (∀ b ∈ l.modify i f, P b) ↔ (∀ b ∈ l, P b) ∧ c := by
  have at_ : (l.modify i f)[i]? = some (f a) := by
    rw [List.getElem?_modify_eq, there]
    rfl
  constructor
  · intro all
    have here := changed.1 (all (f a) (List.mem_of_getElem? at_))
    refine ⟨fun b member => ?_, here.2⟩
    obtain ⟨j, found⟩ := List.mem_iff_getElem?.1 member
    by_cases same : i = j
    · rw [← same, there] at found
      exact Option.some.inj found ▸ here.1
    · exact all b (List.mem_of_getElem? (by rw [List.getElem?_modify_ne f l same]; exact found))
  · intro all b member
    obtain ⟨j, found⟩ := List.mem_iff_getElem?.1 member
    by_cases same : i = j
    · rw [← same, at_] at found
      exact Option.some.inj found ▸ changed.2 ⟨all.1 a (List.mem_of_getElem? there), all.2⟩
    · rw [List.getElem?_modify_ne f l same] at found
      exact all.1 b (List.mem_of_getElem? found)

theorem drop_zipIdx (l : List α) (k n : Nat) : (l.zipIdx k).drop n = (l.drop n).zipIdx (k + n) := by
  induction n generalizing l k with
  | zero => rfl
  | succ n ih =>
    cases l with
    | nil => simp
    | cons a l => rw [List.zipIdx_cons, List.drop_succ_cons, List.drop_succ_cons, ih,
        Nat.add_right_comm]; rfl

/-- What the elements name is distinct when it is distinct in each group, and no two groups name
the same. -/
theorem nodup_filterMap_of_groups {κ : Type*} [DecidableEq κ] {f : α → Option β}
    {g : α → κ} {l : List α}
    (inGroup : ∀ c, ((l.filter fun a => g a = c).filterMap f).Nodup)
    (apart : ∀ a ∈ l, ∀ a' ∈ l, ∀ b, f a = some b → f a' = some b → g a = g a') :
      (l.filterMap f).Nodup := by
  induction l with
  | nil => simp
  | cons a l ih =>
    have tail : (l.filterMap f).Nodup := by
      apply ih
      · intro c
        have nodup := inGroup c
        rw [List.filter_cons] at nodup
        split at nodup
        · exact nodup.sublist ((List.sublist_cons_self a _).filterMap f)
        · exact nodup
      · intro x member x' member'
        exact apart x (List.mem_cons_of_mem a member) x' (List.mem_cons_of_mem a member')
    cases named : f a with
    | none => rwa [List.filterMap_cons_none named]
    | some b =>
      rw [List.filterMap_cons_some named, List.nodup_cons]
      refine ⟨fun again => ?_, tail⟩
      -- an element that names the same is in the group of `a`, where nothing is named twice
      obtain ⟨a', member, named'⟩ := List.mem_filterMap.1 again
      have same := apart a List.mem_cons_self a' (List.mem_cons_of_mem a member) b named named'
      have nodup := inGroup (g a)
      rw [List.filter_cons_of_pos (by simp), List.filterMap_cons_some named,
        List.nodup_cons] at nodup
      exact nodup.1 (List.mem_filterMap.2 ⟨a', List.mem_filter.2 ⟨member, by simp [same]⟩, named'⟩)

/-- Where a property only ever ends along a list, it holds of as many leading elements as have
    it. -/
theorem forall_mem_take_of_antitone {P : α → Prop} [DecidablePred P] {l : List α} {k : Nat}
    (antitone : l.Pairwise fun a b => P b → P a) (le : k ≤ l.countP P) : ∀ a ∈ l.take k, P a := by
  induction l generalizing k with
  | nil => simp
  | cons a l ih =>
    obtain ⟨later, tail⟩ := List.pairwise_cons.1 antitone
    cases k with
    | zero => simp
    | succ k =>
      by_cases here : P a
      · rw [List.countP_cons_of_pos (by simpa using here)] at le
        rw [List.take_succ_cons]
        exact List.forall_mem_cons.2 ⟨here, ih tail (Nat.le_of_succ_le_succ le)⟩
      · have none : l.countP P = 0 := by
          apply List.countP_eq_zero.2
          intro b member holds
          exact here (later b member (by simpa using holds))
        rw [List.countP_cons_of_neg (by simpa using here), none] at le
        exact absurd le (Nat.not_succ_le_zero k)

end Dexa.Lib
