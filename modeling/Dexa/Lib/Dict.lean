import Mathlib.Algebra.Order.BigOperators.Group.List
import Mathlib.Algebra.Order.Ring.Nat
import Mathlib.Data.List.Nodup
import Mathlib.Data.List.Basic

/-! # Insertion-ordered dictionaries

A dictionary is a list of key/value pairs with pairwise distinct keys.  Assigning
to a present key keeps its position, assigning to a new key appends, and deleting
closes the gap: iteration order is insertion order.  `AList` of Mathlib moves an
assigned key to the front, so it has the lookups but not the order.

Every operation is characterised by `get?` (what a later read sees) and, where a
caller sums over the values, by `sumBy` (how the sum moves).  `restrict` keeps part of the
keys; assigning commutes with it or disappears.
-/

namespace Dexa.Lib

structure Dict (κ ν : Type*) where
  entries : List (κ × ν)
  nodup : (entries.map Prod.fst).Nodup

namespace Dict

variable {κ ν : Type*} [DecidableEq κ]

instance [DecidableEq ν] : DecidableEq (Dict κ ν) := fun a b =>
  decidable_of_iff (a.entries = b.entries) (by cases a; cases b; simp)

def lookup (k : κ) : List (κ × ν) → Option ν
  | [] => none
  | (k', v) :: rest => if k' = k then some v else lookup k rest

/-- Overwrite the value of `k` where it stands, or append it. -/
def assign (k : κ) (v : ν) : List (κ × ν) → List (κ × ν)
  | [] => [(k, v)]
  | (k', v') :: rest => if k' = k then (k', v) :: rest else (k', v') :: assign k v rest

def remove (k : κ) : List (κ × ν) → List (κ × ν)
  | [] => []
  | (k', v) :: rest => if k' = k then remove k rest else (k', v) :: remove k rest

theorem lookup_eq_none {k : κ} {l : List (κ × ν)} :
    lookup k l = none ↔ k ∉ l.map Prod.fst := by
  induction l with
  | nil => simp [lookup]
  | cons e rest ih =>
    obtain ⟨k', v⟩ := e
    by_cases h : k' = k
    · simp [lookup, h]
    · simp [lookup, h, ih, Ne.symm h]

theorem mem_of_lookup {k : κ} {v : ν} {l : List (κ × ν)} (h : lookup k l = some v) :
    (k, v) ∈ l := by
  induction l with
  | nil => simp [lookup] at h
  | cons e rest ih =>
    obtain ⟨k', v'⟩ := e
    by_cases hk : k' = k
    · simp only [lookup, if_pos hk, Option.some.injEq] at h
      simp [hk, h]
    · simp only [lookup, if_neg hk] at h
      exact List.mem_cons_of_mem _ (ih h)

theorem lookup_of_mem {k : κ} {v : ν} {l : List (κ × ν)} (distinct : (l.map Prod.fst).Nodup)
    (h : (k, v) ∈ l) : lookup k l = some v := by
  induction l with
  | nil => cases h
  | cons e rest ih =>
    obtain ⟨k', v'⟩ := e
    simp only [List.map_cons, List.nodup_cons] at distinct
    rcases List.mem_cons.1 h with heq | htail
    · obtain ⟨rfl, rfl⟩ := Prod.mk.inj heq
      simp [lookup]
    · have hne : k' ≠ k := by
        rintro rfl
        exact distinct.1 (List.mem_map.2 ⟨_, htail, rfl⟩)
      simp [lookup, hne, ih distinct.2 htail]

theorem lookup_assign (k k' : κ) (v : ν) (l : List (κ × ν)) :
    lookup k' (assign k v l) = if k = k' then some v else lookup k' l := by
  induction l with
  | nil => simp [assign, lookup]
  | cons e rest ih =>
    obtain ⟨k₀, v₀⟩ := e
    by_cases h : k₀ = k
    · subst h
      by_cases h' : k₀ = k' <;> simp [assign, lookup, h']
    · by_cases h' : k₀ = k'
      · have hne : ¬ k = k' := fun e => h (h'.trans e.symm)
        simp only [assign, if_neg h, lookup, if_pos h', if_neg hne]
      · simp only [assign, if_neg h, lookup, if_neg h', ih]

theorem lookup_remove (k k' : κ) (l : List (κ × ν)) :
    lookup k' (remove k l) = if k = k' then none else lookup k' l := by
  induction l with
  | nil => simp [remove, lookup]
  | cons e rest ih =>
    obtain ⟨k₀, v₀⟩ := e
    by_cases h : k₀ = k
    · subst h
      simp only [remove, if_true, ih, lookup]
      split <;> rfl
    · by_cases h' : k₀ = k'
      · have hne : ¬ k = k' := fun e => h (h'.trans e.symm)
        simp only [remove, if_neg h, lookup, if_pos h', if_neg hne]
      · simp only [remove, if_neg h, lookup, if_neg h', ih]

theorem remove_sublist (k : κ) (l : List (κ × ν)) : (remove k l).Sublist l := by
  induction l with
  | nil => exact .slnil
  | cons e rest ih =>
    obtain ⟨k', v⟩ := e
    by_cases h : k' = k
    · simpa only [remove, if_pos h] using ih.cons _
    · simpa only [remove, if_neg h] using ih.cons_cons _

theorem map_fst_assign (k : κ) (v : ν) (l : List (κ × ν)) :
    (assign k v l).map Prod.fst = if k ∈ l.map Prod.fst then l.map Prod.fst
      else l.map Prod.fst ++ [k] := by
  induction l with
  | nil => simp [assign]
  | cons e rest ih =>
    obtain ⟨k', v'⟩ := e
    by_cases h : k' = k
    · simp [assign, h]
    · simp only [assign, if_neg h, List.map_cons, ih, List.mem_cons, Ne.symm h, false_or]
      split <;> simp

theorem nodup_assign {k : κ} {v : ν} {l : List (κ × ν)} (distinct : (l.map Prod.fst).Nodup) :
    ((assign k v l).map Prod.fst).Nodup := by
  rw [map_fst_assign]
  split
  · exact distinct
  · rename_i absent
    rw [List.nodup_append]
    refine ⟨distinct, by simp, ?_⟩
    rintro a ha b hb rfl
    exact absent (List.mem_singleton.1 hb ▸ ha)

def empty : Dict κ ν := ⟨[], by simp⟩

instance : Inhabited (Dict κ ν) := ⟨empty⟩

def get? (d : Dict κ ν) (k : κ) : Option ν := lookup k d.entries

def set (d : Dict κ ν) (k : κ) (v : ν) : Dict κ ν := ⟨assign k v d.entries, nodup_assign d.nodup⟩

def erase (d : Dict κ ν) (k : κ) : Dict κ ν :=
  ⟨remove k d.entries, d.nodup.sublist ((remove_sublist k d.entries).map _)⟩

/-- `k in d`. -/
def contains (d : Dict κ ν) (k : κ) : Bool := (d.get? k).isSome

def keys (d : Dict κ ν) : List κ := d.entries.map Prod.fst

def values (d : Dict κ ν) : List ν := d.entries.map Prod.snd

def size (d : Dict κ ν) : Nat := d.entries.length

/-- `dict(pairs)`: later pairs overwrite earlier ones. -/
def ofList (pairs : List (κ × ν)) : Dict κ ν :=
  pairs.foldl (fun d e => d.set e.1 e.2) empty

theorem assign_new {k : κ} (v : ν) {l : List (κ × ν)} (absent : k ∉ l.map Prod.fst) :
    assign k v l = l ++ [(k, v)] := by
  induction l with
  | nil => rfl
  | cons e rest ih =>
    rw [List.map_cons, List.mem_cons, not_or] at absent
    rw [assign, if_neg (Ne.symm absent.1), ih absent.2, List.cons_append]

/-- Distinct pairs are stored as they come. -/
theorem entries_ofList {pairs : List (κ × ν)} (distinct : (pairs.map Prod.fst).Nodup) :
    (ofList pairs).entries = pairs := by
  have run : ∀ (rest : List (κ × ν)) (d : Dict κ ν), ((d.entries ++ rest).map Prod.fst).Nodup →
      (rest.foldl (fun d e => d.set e.1 e.2) d).entries = d.entries ++ rest := by
    intro rest
    induction rest with
    | nil => exact fun d _ => (List.append_nil _).symm
    | cons e rest ih =>
      intro d distinct
      have new : e.1 ∉ d.entries.map Prod.fst := by
        rw [List.map_append, List.map_cons, List.nodup_middle, List.nodup_cons] at distinct
        exact fun old => distinct.1 (List.mem_append_left _ old)
      have stored : (d.set e.1 e.2).entries = d.entries ++ [e] := assign_new e.2 new
      rw [List.foldl_cons,
        ih (d.set e.1 e.2) (by rwa [stored, List.append_assoc, List.singleton_append]), stored,
        List.append_assoc, List.singleton_append]
  exact run pairs empty distinct

@[simp] theorem get?_empty (k : κ) : (empty : Dict κ ν).get? k = none := rfl

theorem get?_set (d : Dict κ ν) (k k' : κ) (v : ν) :
    (d.set k v).get? k' = if k = k' then some v else d.get? k' :=
  lookup_assign k k' v d.entries

@[simp] theorem get?_set_self (d : Dict κ ν) (k : κ) (v : ν) : (d.set k v).get? k = some v := by
  simp [get?_set]

theorem get?_set_ne (d : Dict κ ν) {k k' : κ} (v : ν) (h : k ≠ k') :
    (d.set k v).get? k' = d.get? k' := by
  simp [get?_set, h]

/-- A property of all entries, after one was set. -/
theorem forall_get?_set {P : κ → ν → Prop} {d : Dict κ ν}
    (entries : ∀ k v, d.get? k = some v → P k v) {k : κ} {v : ν}
    (new : P k v) : ∀ k' v', (d.set k v).get? k' = some v' → P k' v' := by
  intro k' v' present
  rw [get?_set] at present
  by_cases same : k = k'
  · rw [if_pos same] at present
    obtain rfl := Option.some.inj present
    exact same ▸ new
  · rw [if_neg same] at present
    exact entries k' v' present

theorem get?_erase (d : Dict κ ν) (k k' : κ) :
    (d.erase k).get? k' = if k = k' then none else d.get? k' :=
  lookup_remove k k' d.entries

@[simp] theorem get?_erase_self (d : Dict κ ν) (k : κ) : (d.erase k).get? k = none := by
  simp [get?_erase]

theorem get?_erase_ne (d : Dict κ ν) {k k' : κ} (h : k ≠ k') :
    (d.erase k).get? k' = d.get? k' := by
  simp [get?_erase, h]

theorem mem_entries_iff {d : Dict κ ν} {k : κ} {v : ν} :
    (k, v) ∈ d.entries ↔ d.get? k = some v :=
  ⟨lookup_of_mem d.nodup, mem_of_lookup⟩

theorem mem_keys_iff {d : Dict κ ν} {k : κ} : k ∈ d.keys ↔ ∃ v, d.get? k = some v := by
  rw [← Option.isSome_iff_exists, Option.isSome_iff_ne_none, Ne, get?, lookup_eq_none, not_not]
  rfl

theorem mem_values_iff {d : Dict κ ν} {v : ν} : v ∈ d.values ↔ ∃ k, d.get? k = some v := by
  simp [values, mem_entries_iff]

/-- A value that is replaced by one that is as good leaves all values as good as they were. -/
theorem forall_mem_values_set {P : ν → Prop} {d : Dict κ ν} {k : κ} {v old : ν}
    (present : d.get? k = some old)
    (same : P v ↔ P old) : (∀ x ∈ (d.set k v).values, P x) ↔ ∀ x ∈ d.values, P x := by
  simp only [mem_values_iff, forall_exists_index]
  constructor
  · intro all x k' found
    by_cases here : k = k'
    · subst here
      obtain rfl := Option.some.inj (present.symm.trans found)
      exact same.1 (all v k (d.get?_set_self k v))
    · exact all x k' ((d.get?_set_ne v here).trans found)
  · intro all x k' found
    rw [get?_set] at found
    split at found
    · obtain rfl := Option.some.inj found
      exact same.2 (all old k present)
    · exact all x k' found

/-- A dictionary with the same keys, in the same order. -/
def mapValues {μ : Type*} (f : κ → ν → μ) (d : Dict κ ν) : Dict κ μ :=
  ⟨d.entries.map fun e => (e.1, f e.1 e.2), by simpa [Function.comp_def] using d.nodup⟩

theorem lookup_map {μ : Type*} (f : κ → ν → μ) (k : κ) (l : List (κ × ν)) :
    lookup k (l.map fun e => (e.1, f e.1 e.2)) = (lookup k l).map (f k) := by
  induction l with
  | nil => rfl
  | cons e rest ih =>
    by_cases h : e.1 = k
    · subst h
      simp [lookup]
    · simp [lookup, h, ih]

theorem get?_mapValues {μ : Type*} (f : κ → ν → μ) (d : Dict κ ν) (k : κ) :
    (d.mapValues f).get? k = (d.get? k).map (f k) :=
  lookup_map f k d.entries

/-! ## Restriction -/

/-- The entries whose key satisfies `p`, in order. -/
def restrict (p : κ → Bool) (d : Dict κ ν) : Dict κ ν :=
  ⟨d.entries.filter fun e => p e.1, d.nodup.sublist (List.filter_sublist.map _)⟩

omit [DecidableEq κ] in
theorem ext_entries {d d' : Dict κ ν} (h : d.entries = d'.entries) : d = d' := by
  cases d
  cases d'
  simpa using h

theorem ofList_entries (d : Dict κ ν) : ofList d.entries = d := ext_entries (entries_ofList d.nodup)

theorem find?_assign {p : ν → Bool} {k : κ} {v found : ν} {l : List (κ × ν)}
    (first : (l.map Prod.snd).find? p = some found)
    (other : ∀ old, lookup k l = some old → old ≠ found ∧ p v = p old) :
    ((assign k v l).map Prod.snd).find? p = some found := by
  induction l with
  | nil => cases first
  | cons e rest ih =>
    obtain ⟨k', v'⟩ := e
    rw [List.map_cons, List.find?_cons] at first
    by_cases same : k' = k
    · obtain ⟨moved, alike⟩ := other v' (by rw [lookup, if_pos same])
      rw [assign, if_pos same, List.map_cons, List.find?_cons, alike]
      cases holds : p v' with
      | true =>
        rw [holds] at first
        exact absurd (Option.some.inj first) moved
      | false =>
        rw [holds] at first
        exact first
    · rw [assign, if_neg same, List.map_cons, List.find?_cons]
      cases holds : p v' with
      | true =>
        rw [holds] at first
        exact first
      | false =>
        rw [holds] at first
        exact ih first fun old at_ => other old (by rw [lookup, if_neg same]; exact at_)

/-- Setting a value that the search treats like the one it replaces, and does not stop at, does
    not change what the search finds. -/
theorem find?_values_set {p : ν → Bool} {k : κ} {v found : ν} {d : Dict κ ν}
    (first : d.values.find? p = some found)
    (other : ∀ old, d.get? k = some old → old ≠ found ∧ p v = p old) :
      (d.set k v).values.find? p = some found :=
  find?_assign first other

theorem lookup_filter {p : κ → Bool} {k : κ} (h : p k = true) (l : List (κ × ν)) :
    lookup k (l.filter fun e => p e.1) = lookup k l := by
  induction l with
  | nil => rfl
  | cons e rest ih =>
    by_cases here : e.1 = k
    · simp [lookup, here, h]
    · by_cases kept : p e.1 = true
      · simp [lookup, here, kept, ih]
      · simp [lookup, here, kept, ih]

theorem filter_assign_pos {p : κ → Bool} {k : κ} (h : p k = true) (v : ν) (l : List (κ × ν)) :
    (assign k v l).filter (fun e => p e.1) = assign k v (l.filter fun e => p e.1) := by
  induction l with
  | nil => simp [assign, h]
  | cons e rest ih =>
    by_cases here : e.1 = k
    · simp [assign, here, h]
    · by_cases kept : p e.1 = true
      · simp [assign, here, kept, ih]
      · simp [assign, here, kept, ih]

theorem filter_assign_neg {p : κ → Bool} {k : κ} (h : p k = false) (v : ν) (l : List (κ × ν)) :
    (assign k v l).filter (fun e => p e.1) = l.filter fun e => p e.1 := by
  induction l with
  | nil => simp [assign, h]
  | cons e rest ih =>
    by_cases here : e.1 = k
    · simp [assign, here, h]
    · by_cases kept : p e.1 = true
      · simp [assign, here, kept, ih]
      · simp [assign, here, kept, ih]

theorem get?_restrict {p : κ → Bool} {k : κ} (h : p k = true) (d : Dict κ ν) :
    (d.restrict p).get? k = d.get? k :=
  lookup_filter h d.entries

theorem restrict_set_pos {p : κ → Bool} {k : κ} (h : p k = true) (v : ν) (d : Dict κ ν) :
    (d.set k v).restrict p = (d.restrict p).set k v :=
  ext_entries (filter_assign_pos h v d.entries)

theorem restrict_set_neg {p : κ → Bool} {k : κ} (h : p k = false) (v : ν) (d : Dict κ ν) :
    (d.set k v).restrict p = d.restrict p :=
  ext_entries (filter_assign_neg h v d.entries)

/-- Restricting drops no value of a kind that is only stored under kept keys. -/
theorem filter_values_restrict {p : κ → Bool} {kind : ν → Bool} {d : Dict κ ν}
    (kept : ∀ k v, d.get? k = some v → kind v = true → p k = true) :
    (d.restrict p).values.filter kind = d.values.filter kind := by
  have inside : ∀ e ∈ d.entries, kind e.2 = true → p e.1 = true := fun e member =>
    kept e.1 e.2 (mem_entries_iff.1 member)
  simp only [values, restrict, List.filter_map, List.filter_filter]
  refine congrArg _ (List.filter_congr fun e member => ?_)
  by_cases isKind : kind e.2 = true
  · simp [isKind, inside e member isKind]
  · simp [isKind]

theorem filter_assign_values {kind : ν → Bool} {k : κ} {v : ν} (l : List (κ × ν))
    (old : ∀ w, lookup k l = some w → kind w = false) (new : kind v = false) :
    ((assign k v l).map Prod.snd).filter kind = (l.map Prod.snd).filter kind := by
  induction l with
  | nil => simp [assign, new]
  | cons e rest ih =>
    by_cases here : e.1 = k
    · have gone : kind e.2 = false := old e.2 (by simp [lookup, here])
      simp [assign, here, gone, new]
    · have tail := ih fun w found => old w (by simpa [lookup, here] using found)
      simp only [assign, here, if_false, List.map_cons, List.filter_cons, tail]

/-- Overwriting a value of another kind with one leaves the values of this kind. -/
theorem filter_values_set {kind : ν → Bool} {k : κ} {v : ν} {d : Dict κ ν}
    (old : ∀ w, d.get? k = some w → kind w = false) (new : kind v = false) :
    (d.set k v).values.filter kind = d.values.filter kind :=
  filter_assign_values d.entries old new

/-! ## Oldest first -/

def moveToEnd (d : Dict κ ν) (k : κ) : Dict κ ν := (d.get? k).elim d ((d.erase k).set k)

/-- Drop entries from the front until at most `size` are left. -/
def dropTo (size : Nat) : List (κ × ν) → List (κ × ν)
  | [] => []
  | e :: rest => if size < rest.length + 1 then dropTo size rest else e :: rest

omit [DecidableEq κ] in
theorem dropTo_sublist (size : Nat) (l : List (κ × ν)) : (dropTo size l).Sublist l := by
  induction l with
  | nil => exact .refl _
  | cons e rest ih =>
    rw [dropTo]
    split
    next => exact ih.cons e
    next => exact .refl _

/-- Evict the oldest entries until at most `size` are left. -/
def trim (size : Nat) (d : Dict κ ν) : Dict κ ν :=
  ⟨dropTo size d.entries, d.nodup.sublist ((dropTo_sublist size d.entries).map _)⟩

theorem get?_moveToEnd (d : Dict κ ν) (k k' : κ) : (d.moveToEnd k).get? k' = d.get? k' := by
  rw [moveToEnd]
  cases found : d.get? k with
  | none => rfl
  | some v =>
    rw [Option.elim_some, get?_set, get?_erase]
    by_cases same : k = k'
    · rw [if_pos same, ← same, found]
    · rw [if_neg same, if_neg same]

theorem get?_of_trim {size : Nat} {d : Dict κ ν} {k : κ} {v : ν}
    (found : (d.trim size).get? k = some v) :
    d.get? k = some v :=
  mem_entries_iff.1 ((dropTo_sublist size d.entries).subset (mem_entries_iff.2 found))

omit [DecidableEq κ] in
theorem dropTo_of_le {size : Nat} {l : List (κ × ν)} (fits : l.length ≤ size) :
    dropTo size l = l := by
  cases l with
  | nil => rfl
  | cons e rest => exact if_neg (Nat.not_lt.2 fits)

omit [DecidableEq κ] in
/-- The newest entry is dropped last. -/
theorem last_mem_dropTo {size : Nat} (positive : 0 < size) (l : List (κ × ν)) (e : κ × ν) :
    e ∈ dropTo size (l ++ [e]) := by
  induction l with
  | nil =>
    rw [List.nil_append, dropTo_of_le positive]
    exact List.mem_singleton_self e
  | cons e' rest ih =>
    rw [List.cons_append, dropTo]
    split
    next => exact ih
    next => simp

theorem get?_trim_newest {size : Nat} (positive : 0 < size) {d : Dict κ ν} {k : κ} {v : ν}
    (present : d.get? k = some v) :
    ((d.moveToEnd k).trim size).get? k = some v := by
  have gone : k ∉ (d.erase k).entries.map Prod.fst := lookup_eq_none.1 (d.get?_erase_self k)
  have last : (d.moveToEnd k).entries = (d.erase k).entries ++ [(k, v)] := by
    rw [moveToEnd, present]
    exact assign_new v gone
  apply mem_entries_iff.1
  change (k, v) ∈ dropTo size (d.moveToEnd k).entries
  rw [last]
  exact last_mem_dropTo positive _ _

/-! ## Sums over the values -/

/-- The sum of a measure over the stored values. -/
def sumBy (d : Dict κ ν) (measure : ν → Nat) : Nat := (d.entries.map fun e => measure e.2).sum

omit [DecidableEq κ] in
@[simp] theorem sumBy_empty (measure : ν → Nat) : (empty : Dict κ ν).sumBy measure = 0 := rfl

omit [DecidableEq κ] in
theorem sumBy_one (d : Dict κ ν) : d.sumBy (fun _ => 1) = d.size := by
  simp [sumBy, size]

theorem sum_assign_new {k : κ} {v : ν} (measure : ν → Nat) {l : List (κ × ν)}
    (absent : lookup k l = none) :
    ((assign k v l).map fun e => measure e.2).sum = (l.map fun e => measure e.2).sum +
      measure v := by
  induction l with
  | nil => simp [assign]
  | cons e rest ih =>
    obtain ⟨k', v'⟩ := e
    by_cases h : k' = k
    · simp [lookup, h] at absent
    · simp only [lookup, if_neg h] at absent
      simp only [assign, if_neg h, List.map_cons, List.sum_cons, ih absent]
      omega

theorem sum_assign_present {k : κ} {v old : ν} (measure : ν → Nat) {l : List (κ × ν)}
    (present : lookup k l = some old) :
    ((assign k v l).map fun e => measure e.2).sum + measure old =
      (l.map fun e => measure e.2).sum + measure v := by
  induction l with
  | nil => simp [lookup] at present
  | cons e rest ih =>
    obtain ⟨k', v'⟩ := e
    by_cases h : k' = k
    · simp only [lookup, if_pos h, Option.some.injEq] at present
      subst present
      simp only [assign, if_pos h, List.map_cons, List.sum_cons]
      omega
    · simp only [lookup, if_neg h] at present
      have := ih present
      simp only [assign, if_neg h, List.map_cons, List.sum_cons]
      omega

theorem remove_eq_self {k : κ} {l : List (κ × ν)} (absent : lookup k l = none) :
    remove k l = l := by
  induction l with
  | nil => rfl
  | cons e rest ih =>
    obtain ⟨k', v⟩ := e
    by_cases h : k' = k
    · simp [lookup, h] at absent
    · simp only [lookup, if_neg h] at absent
      simp only [remove, if_neg h, ih absent]

theorem sum_remove_present {k : κ} {old : ν} (measure : ν → Nat) {l : List (κ × ν)}
    (distinct : (l.map Prod.fst).Nodup) (present : lookup k l = some old) :
    ((remove k l).map fun e => measure e.2).sum + measure old =
      (l.map fun e => measure e.2).sum := by
  induction l with
  | nil => simp [lookup] at present
  | cons e rest ih =>
    obtain ⟨k', v'⟩ := e
    simp only [List.map_cons, List.nodup_cons] at distinct
    by_cases h : k' = k
    · simp only [lookup, if_pos h, Option.some.injEq] at present
      subst present; subst h
      simp only [remove, if_true, remove_eq_self (lookup_eq_none.2 distinct.1), List.map_cons,
        List.sum_cons]
      omega
    · simp only [lookup, if_neg h] at present
      have := ih distinct.2 present
      simp only [remove, if_neg h, List.map_cons, List.sum_cons]
      omega

theorem sumBy_set_new {d : Dict κ ν} {k : κ} (v : ν) (measure : ν → Nat)
    (absent : d.get? k = none) :
    (d.set k v).sumBy measure = d.sumBy measure + measure v :=
  sum_assign_new measure absent

theorem sumBy_set_present {d : Dict κ ν} {k : κ} {old : ν} (v : ν) (measure : ν → Nat)
    (present : d.get? k = some old) :
    (d.set k v).sumBy measure + measure old = d.sumBy measure + measure v :=
  sum_assign_present measure present

theorem sumBy_erase_present {d : Dict κ ν} {k : κ} {old : ν} (measure : ν → Nat)
    (present : d.get? k = some old) :
    (d.erase k).sumBy measure + measure old = d.sumBy measure :=
  sum_remove_present measure d.nodup present

omit [DecidableEq κ] in
theorem sumBy_mono {d : Dict κ ν} {measure measure' : ν → Nat} (le : ∀ v, measure v ≤ measure' v) :
    d.sumBy measure ≤ d.sumBy measure' :=
  List.sum_le_sum fun e _ => le e.2

omit [DecidableEq κ] in
theorem sumBy_eq_zero {d : Dict κ ν} {measure : ν → Nat} (none : ∀ v ∈ d.values, measure v = 0) :
    d.sumBy measure = 0 := by
  refine List.sum_eq_zero fun n member => ?_
  obtain ⟨e, here, rfl⟩ := List.mem_map.1 member
  exact none e.2 (List.mem_map.2 ⟨e, here, rfl⟩)

theorem erase_absent {d : Dict κ ν} {k : κ} (absent : d.get? k = none) : d.erase k = d :=
  ext_entries (remove_eq_self absent)

theorem size_set_new {d : Dict κ ν} {k : κ} (v : ν) (absent : d.get? k = none) :
    (d.set k v).size = d.size + 1 := by
  simpa only [sumBy_one] using sumBy_set_new v (fun _ => 1) absent

theorem size_set_present {d : Dict κ ν} {k : κ} {old : ν} (v : ν) (present : d.get? k = some old) :
    (d.set k v).size = d.size := by
  simpa only [sumBy_one, Nat.add_right_cancel_iff] using sumBy_set_present v (fun _ => 1) present

theorem size_erase_present {d : Dict κ ν} {k : κ} {old : ν} (present : d.get? k = some old) :
    (d.erase k).size + 1 = d.size := by
  simpa only [sumBy_one] using sumBy_erase_present (fun _ => 1) present

theorem size_moveToEnd (d : Dict κ ν) (k : κ) : (d.moveToEnd k).size = d.size := by
  rw [moveToEnd]
  cases present : d.get? k with
  | none => rfl
  | some v => rw [Option.elim_some, size_set_new v (d.get?_erase_self k),
      size_erase_present present]

/-! The same for a part of the values, in any commutative monoid. -/

theorem sum_filter_assign {M : Type*} [AddCommMonoid M] (keep : ν → Bool) (measure : ν → M)
    (k : κ) (v : ν)
    (l : List (κ × ν)) :
    ((((assign k v l).map Prod.snd).filter keep).map measure).sum +
      ((lookup k l).filter keep).elim 0 measure =
      (((l.map Prod.snd).filter keep).map measure).sum + if keep v then measure v else 0 := by
  induction l with
  | nil =>
    cases kept : keep v with
    | true => simp [assign, lookup, kept]
    | false => simp [assign, lookup, kept]
  | cons e rest ih =>
    by_cases here : e.1 = k
    · -- the old value leaves the sum, the new one enters
      cases old : keep e.2 with
      | true => cases kept : keep v <;> simp [assign, lookup, here, old, kept, Option.filter,
          add_comm, add_left_comm]
      | false => cases kept : keep v <;> simp [assign, lookup, here, old, kept, Option.filter,
          add_comm]
    · simp only [assign, lookup, if_neg here, List.map_cons, List.filter_cons]
      cases keep e.2 with
      | true => simp only [if_true, List.map_cons, List.sum_cons, add_assoc, ih]
      | false => simpa using ih

theorem sum_filter_set {M : Type*} [AddCommMonoid M] (d : Dict κ ν) (keep : ν → Bool)
    (measure : ν → M) (k : κ) (v : ν) :
    (((d.set k v).values.filter keep).map measure).sum + ((d.get? k).filter keep).elim 0 measure =
      ((d.values.filter keep).map measure).sum + if keep v then measure v else 0 :=
  sum_filter_assign keep measure k v d.entries

/-- How many values are kept by a filter, after an assignment. -/
theorem length_filter_set (d : Dict κ ν) (keep : ν → Bool) (k : κ) (v : ν) :
    ((d.set k v).values.filter keep).length + ((d.get? k).filter keep).elim 0 (fun _ => 1) =
      (d.values.filter keep).length + if keep v then 1 else 0 := by
  have count : ∀ l : List ν, (l.map fun _ => 1).sum = l.length := by
    intro l
    induction l with
    | nil => rfl
    | cons _ l ih => rw [List.map_cons, List.sum_cons, ih, List.length_cons, Nat.add_comm]
  have sums := sum_filter_set d keep (fun _ => 1) k v
  rwa [count, count] at sums

/-! ## Loops that assign

A loop that assigns one key per item and whose body does not fail. -/

section Loops

variable {ε ι : Type*}

/-- Pushing each item on the list of its key collects the items of a key in their order. -/
theorem getD_foldl_push (key : ι → κ) (item : ι → ν) (es : List ι) (d : Dict κ (List ν)) (k : κ) :
    ((es.foldl
      (fun d e => d.set (key e) ((d.get? (key e)).getD [] ++ [item e])) d).get? k).getD [] =
      (d.get? k).getD [] ++ (es.filter fun e => key e = k).map item := by
  induction es generalizing d with
  | nil => simp
  | cons e es ih =>
    rw [List.foldl_cons, ih, get?_set]
    by_cases here : key e = k
    · simp [here]
    · rw [if_neg here, List.filter_cons_of_neg (by simpa using here)]

/-- The body updates the item's own key: each key is updated once, from its old value. -/
theorem get?_foldlM_update {body : Dict κ ν → κ × ι → Except ε (Dict κ ν)}
    {update : Option ν → ι → ν}
    {items : List (κ × ι)} (distinct : (items.map Prod.fst).Nodup)
    (ok : ∀ d, ∀ e ∈ items, body d e = .ok (d.set e.1 (update (d.get? e.1) e.2))) (d : Dict κ ν) :
    ∃ d', items.foldlM body d = .ok d' ∧ ∀ k, d'.get? k =
      (lookup k items).elim (d.get? k) fun x => some (update (d.get? k) x) := by
  induction items generalizing d with
  | nil => exact ⟨d, rfl, fun k => rfl⟩
  | cons e rest ih =>
    rw [List.map_cons, List.nodup_cons] at distinct
    obtain ⟨d', run, reads⟩ :=
      ih distinct.2 (fun d e' member => ok d e' (List.mem_cons_of_mem _ member))
      (d.set e.1 (update (d.get? e.1) e.2))
    refine ⟨d', by rw [List.foldlM_cons, ok d e List.mem_cons_self]; exact run, ?_⟩
    intro k
    rw [reads k]
    by_cases h : e.1 = k
    · have absent : lookup k rest = none := lookup_eq_none.2 (h ▸ distinct.1)
      simp [lookup, absent, h]
    · simp [lookup, h, get?_set]

/-- The body assigns, under the item's key, a value with property `P`: an item that has its
    key to itself finds its value there afterwards, and other keys are left alone. -/
theorem get?_foldlM_insert {body : Dict κ ν → ι → Except ε (Dict κ ν)} {key : ι → κ}
    {P : ι → ν → Prop}
    {items : List ι} (ok : ∀ e ∈ items, ∃ v, P e v ∧ ∀ d, body d e = .ok (d.set (key e) v))
    (d : Dict κ ν) :
    ∃ d', items.foldlM body d = .ok d' ∧
      (∀ e ∈ items, (∀ e' ∈ items, key e' = key e → e' = e) → ∃ v, d'.get? (key e) = some v ∧
        P e v) ∧
      ∀ k, (∀ e ∈ items, key e ≠ k) → d'.get? k = d.get? k := by
  induction items generalizing d with
  | nil => exact ⟨d, rfl, by simp, fun k _ => rfl⟩
  | cons e rest ih =>
    obtain ⟨v, hv, assigned⟩ := ok e List.mem_cons_self
    obtain ⟨d', run, reads, untouched⟩ :=
      ih (fun e' member => ok e' (List.mem_cons_of_mem _ member)) (d.set (key e) v)
    refine ⟨d', by rw [List.foldlM_cons, assigned d]; exact run, ?_, ?_⟩
    · intro e₀ member alone
      by_cases later : e₀ ∈ rest
      · exact reads e₀ later fun e' member' => alone e' (List.mem_cons_of_mem _ member')
      · obtain rfl : e₀ = e := (List.mem_cons.1 member).resolve_right later
        have kept : ∀ e' ∈ rest, key e' ≠ key e₀ := by
          intro e' member' same
          exact later (alone e' (List.mem_cons_of_mem _ member') same ▸ member')
        exact ⟨v, by rw [untouched _ kept, get?_set_self], hv⟩
    · intro k other
      rw [untouched k fun e' member => other e' (List.mem_cons_of_mem _ member),
        get?_set_ne _ _ (other e List.mem_cons_self)]

end Loops

end Dict

end Dexa.Lib
