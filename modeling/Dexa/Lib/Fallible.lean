import Mathlib.Algebra.BigOperators.Group.List.Lemmas
import Mathlib.Algebra.Order.Ring.Nat

/-! # Computations that can raise

What it says about the parts of an `Except` or an `Option` computation that it succeeds.
-/

namespace Dexa.Lib.Fallible

universe u

variable {ε : Type*} {α β : Type u}

theorem ok_of_bind {x : Except ε α} {f : α → Except ε β} {b : β} (done : (x >>= f) = .ok b) :
    ∃ a, x = .ok a ∧ f a = .ok b := by
  cases x with
  | error e => cases done
  | ok a => exact ⟨a, rfl, done⟩

theorem ok_of_map {x : Except ε α} {f : α → β} {b : β} (done : x.map f = .ok b) :
    ∃ a, x = .ok a ∧ f a = b := by
  cases x with
  | error e => cases done
  | ok a => exact ⟨a, rfl, Except.ok.inj done⟩

theorem ok_of_mapError {ε' : Type*} {x : Except ε α} {f : ε → ε'} {a : α}
    (done : x.mapError f = .ok a) : x = .ok a := by
  cases x with
  | error e => cases done
  | ok a' => exact congrArg _ (Except.ok.inj done)

/-- A loop that does not fail on items related to `xs` returns results related to `xs`. -/
theorem mapM_ok_related {γ : Type*} {f : α → Except ε β} {R : γ → α → Prop} {P : γ → β → Prop}
    {xs : List γ} {items : List α}
    (related : List.Forall₂ R xs items) (ok : ∀ x item, R x item → ∃ b, f item = .ok b ∧ P x b) :
    ∃ bs, items.mapM f = .ok bs ∧ List.Forall₂ P xs bs := by
  induction related with
  | nil => exact ⟨[], rfl, .nil⟩
  | cons head _ ih =>
    obtain ⟨b, here, first⟩ := ok _ _ head
    obtain ⟨bs, tail, all⟩ := ih
    refine ⟨b :: bs, ?_, .cons first all⟩
    rw [List.mapM_cons, here]
    simp only [bind, Except.bind, tail, pure, Except.pure]

/-- A loop none of whose rounds fails, with what each round returns. -/
theorem mapM_ok {f : α → Except ε β} {R : α → β → Prop} {items : List α}
    (ok : ∀ a ∈ items, ∃ b, f a = .ok b ∧ R a b) :
    ∃ bs, items.mapM f = .ok bs ∧ List.Forall₂ R items bs := by
  have same : List.Forall₂ (fun a item => a = item ∧ a ∈ items) items items :=
    List.forall₂_same.2 fun a member => ⟨rfl, member⟩
  apply mapM_ok_related same
  rintro a item ⟨rfl, member⟩
  exact ok a member

/-- A loop whose rounds return what `g` says. -/
theorem mapM_eq_map {f : α → Except ε β} {g : α → β} {items : List α}
    (each : ∀ a ∈ items, f a = .ok (g a)) :
    items.mapM f = .ok (items.map g) := by
  induction items with
  | nil => rfl
  | cons a rest ih =>
    rw [List.mapM_cons, each a List.mem_cons_self,
      ih fun b member => each b (List.mem_cons_of_mem a member)]
    rfl

/-- A loop returns the results of its rounds. -/
theorem mapM_eq_ok_iff {f : α → Except ε β} {items : List α} {bs : List β} :
    items.mapM f = .ok bs ↔ List.Forall₂ (fun a b => f a = .ok b) items bs := by
  constructor
  · intro done
    induction items generalizing bs with
    | nil =>
      cases done
      exact .nil
    | cons a rest ih =>
      rw [List.mapM_cons] at done
      obtain ⟨b, here, done⟩ := ok_of_bind done
      obtain ⟨bs', there, done⟩ := ok_of_bind done
      cases done
      exact .cons here (ih there)
  · intro each
    induction each with
    | nil => rfl
    | cons here _ ih =>
      rw [List.mapM_cons, here, ih]
      rfl

/-- What a traversal collects comes from its items. -/
theorem of_mem_mapM_ok {f : α → Except ε β} {items : List α} {bs : List β}
    (done : items.mapM f = .ok bs) {b : β} (member : b ∈ bs) :
    ∃ a ∈ items, f a = .ok b := by
  have related := mapM_eq_ok_iff.1 done
  clear done
  induction related with
  | nil => cases member
  | cons here _ ih =>
    cases member with
    | head => exact ⟨_, List.mem_cons_self, here⟩
    | tail _ later =>
      obtain ⟨a, inside, returns⟩ := ih later
      exact ⟨a, List.mem_cons_of_mem _ inside, returns⟩

/-- What a traversal collects at an index comes from the item there. -/
theorem getElem?_of_mapM_ok {f : α → Except ε β} {items : List α} {bs : List β}
    (done : items.mapM f = .ok bs) {i : Nat} {a : α}
    (here : items[i]? = some a) : ∃ b, bs[i]? = some b ∧ f a = .ok b := by
  have related := mapM_eq_ok_iff.1 done
  clear done
  induction related generalizing i with
  | nil => simp at here
  | cons first _ ih =>
    cases i with
    | zero =>
      obtain rfl := Option.some.inj here
      exact ⟨_, rfl, first⟩
    | succ i => exact ih here

/-- A loop over the indices below `n` none of whose rounds fails. -/
theorem mapM_range_ok {γ : Type} {f : Nat → Except ε γ} {P : Nat → γ → Prop} {n : Nat}
    (each : ∀ i < n, ∃ b, f i = .ok b ∧ P i b) :
    ∃ bs, (List.range n).mapM f = .ok bs ∧ bs.length = n ∧ ∀ i b, bs[i]? = some b → P i b := by
  obtain ⟨bs, done, related⟩ := mapM_ok fun i member => each i (List.mem_range.1 member)
  have length : bs.length = n := by rw [← related.length_eq, List.length_range]
  refine ⟨bs, done, length, fun i b there => ?_⟩
  obtain ⟨inside, rfl⟩ := List.getElem?_eq_some_iff.1 there
  have here := related.get (by rw [List.length_range]; omega) inside
  simpa using here

/-- A loop whose first round fails. -/
theorem mapM_range_error {γ : Type} {f : Nat → Except ε γ} {n : Nat} (some : 0 < n) {e : ε}
    (first : f 0 = .error e) :
    (List.range n).mapM f = .error e := by
  obtain ⟨n, rfl⟩ := Nat.exists_eq_add_of_lt some
  rw [Nat.zero_add, List.range_succ_eq_map, List.mapM_cons, first]
  rfl

/-- What every round of a loop keeps holds after a loop that does not fail. -/
theorem foldlM_invariant {σ : Type u} {P : σ → Prop} {f : σ → α → Except ε σ}
    (keeps : ∀ s a s', P s → f s a = .ok s' → P s')
    {items : List α} {s s' : σ} (start : P s) (done : items.foldlM f s = .ok s') : P s' := by
  induction items generalizing s with
  | nil =>
    cases done
    exact start
  | cons a rest ih =>
    rw [List.foldlM_cons] at done
    obtain ⟨middle, here, tail⟩ := ok_of_bind done
    exact ih (keeps s a middle start here) tail

theorem length_of_mapM {f : α → Except ε β} {items : List α} {bs : List β}
    (done : items.mapM f = .ok bs) :
    bs.length = items.length := by
  induction items generalizing bs with
  | nil =>
    cases done
    rfl
  | cons a rest ih =>
    rw [List.mapM_cons] at done
    obtain ⟨b, -, done⟩ := ok_of_bind done
    obtain ⟨bs', tail, same⟩ := ok_of_bind done
    cases same
    rw [List.length_cons, List.length_cons, ih tail]

/-- A loop that adds up counts none of which fails. -/
theorem foldlM_add {f : α → Except ε Nat} {count : α → Nat} {items : List α}
    (ok : ∀ a ∈ items, f a = .ok (count a))
    (start : Nat) :
    items.foldlM (fun n a => do return n + (← f a)) start =
      .ok (start + (items.map count).sum) := by
  induction items generalizing start with
  | nil => rfl
  | cons a rest ih =>
    have here : f a = .ok (count a) := ok a List.mem_cons_self
    have tail := ih (fun a' member => ok a' (List.mem_cons_of_mem _ member)) (start + count a)
    rw [Nat.add_assoc] at tail
    rw [List.foldlM_cons, here]
    exact tail

/-- Whatever the rest of a computation returns is what the computation returns. -/
theorem forall_of_bind {P : β → Prop} {o : Option α} {f : α → Option β}
    (rest : ∀ a b, f a = some b → P b) :
    ∀ b, (o >>= f) = some b → P b := by
  intro b done
  obtain ⟨a, -, returns⟩ := Option.bind_eq_some_iff.1 done
  exact rest a b returns

/-- What every round of a loop keeps holds after a loop that does not raise. -/
theorem foldlM_some_invariant {σ : Type u} {P : σ → Prop} {f : σ → α → Option σ}
    (keeps : ∀ s a s', P s → f s a = some s' → P s')
    {items : List α} {s s' : σ} (start : P s) (done : items.foldlM f s = some s') : P s' := by
  induction items generalizing s with
  | nil =>
    cases done
    exact start
  | cons a rest ih =>
    rw [List.foldlM_cons] at done
    obtain ⟨middle, here, tail⟩ := Option.bind_eq_some_iff.1 done
    exact ih (keeps s a middle start here) tail

theorem mapM_isSome {f : α → Option β} {l : List α} (all : ∀ a ∈ l, (f a).isSome) :
    (l.mapM f).isSome := by
  induction l with
  | nil => rfl
  | cons a l ih =>
    obtain ⟨y, here⟩ := Option.isSome_iff_exists.1 (all a List.mem_cons_self)
    obtain ⟨ys, rest⟩ :=
      Option.isSome_iff_exists.1 (ih fun a' member => all a' (List.mem_cons_of_mem _ member))
    simp [List.mapM_cons, here, rest]

theorem mapM_eq_some_iff {f : α → Option β} {items : List α} {bs : List β} :
    items.mapM f = some bs ↔ List.Forall₂ (fun a b => f a = some b) items bs := by
  induction items generalizing bs with
  | nil => cases bs <;> simp
  | cons a rest ih =>
    cases here : f a with
    | none => cases bs <;> simp [List.mapM_cons, here]
    | some b =>
      cases bs with
      | nil => simp [List.mapM_cons, here, Option.bind_eq_some_iff]
      | cons b' bs => simp [List.mapM_cons, here, ← ih, Option.bind_eq_some_iff, and_comm]

/-- What a loop returns was returned by its rounds. -/
theorem of_mem_mapM {f : α → Option β} {items : List α} {bs : List β}
    (done : items.mapM f = some bs) {b : β} (member : b ∈ bs) :
    ∃ a ∈ items, f a = some b := by
  have related := mapM_eq_some_iff.1 done
  clear done
  induction related with
  | nil => cases member
  | cons here _ ih =>
    rcases List.mem_cons.1 member with rfl | later
    · exact ⟨_, List.mem_cons_self, here⟩
    · obtain ⟨a, among, returned⟩ := ih later
      exact ⟨a, List.mem_cons_of_mem _ among, returned⟩

/-- A loop none of whose rounds raises, with what each round returns. -/
theorem mapM_some {f : α → Option β} {R : α → β → Prop} {items : List α}
    (each : ∀ a ∈ items, ∃ b, f a = some b ∧ R a b) :
    ∃ bs, items.mapM f = some bs ∧ List.Forall₂ R items bs := by
  induction items with
  | nil => exact ⟨[], rfl, .nil⟩
  | cons a rest ih =>
    obtain ⟨b, here, related⟩ := each a List.mem_cons_self
    obtain ⟨bs, tail, all⟩ := ih fun a' member => each a' (List.mem_cons_of_mem _ member)
    refine ⟨b :: bs, ?_, .cons related all⟩
    simp [List.mapM_cons, here, tail]

theorem mapM_some_map {f : α → Option β} {g : α → β} {items : List α}
    (each : ∀ a ∈ items, f a = some (g a)) :
    items.mapM f = some (items.map g) := by
  rw [mapM_eq_some_iff, List.forall₂_map_right_iff, List.forall₂_same]
  exact each

/-- The rule for a loop with an index: no round raises, and each one moves the invariant on. -/
theorem foldlM_some {σ : Type u} {P : Nat → σ → Prop} {f : σ → α → Option σ} {items : List α}
    (round : ∀ i a s, items[i]? = some a → P i s → ∃ s', f s a = some s' ∧ P (i + 1) s') {s : σ}
    (start : P 0 s) :
    ∃ s', items.foldlM f s = some s' ∧ P items.length s' := by
  induction items generalizing s P with
  | nil => exact ⟨s, rfl, start⟩
  | cons a rest ih =>
    obtain ⟨middle, here, next⟩ := round 0 a s rfl start
    obtain ⟨s', tail, done⟩ :=
      @ih (fun i => P (i + 1)) (fun i a' s there => round (i + 1) a' s there) middle next
    refine ⟨s', ?_, done⟩
    rw [List.foldlM_cons, here]
    exact tail

/-- A loop over the indices of a list returns the list if each round returns its item. -/
theorem mapM_range_eq_some {γ : Type} {f : Nat → Option γ} {bs : List γ}
    (each : ∀ i b, bs[i]? = some b → f i = some b) :
    (List.range bs.length).mapM f = some bs := by
  rw [mapM_eq_some_iff, List.forall₂_iff_get]
  refine ⟨List.length_range, fun i left right => ?_⟩
  rw [List.get_eq_getElem, List.get_eq_getElem, List.getElem_range]
  exact each i _ (List.getElem?_eq_getElem right)

end Dexa.Lib.Fallible
