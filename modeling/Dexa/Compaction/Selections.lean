import Dexa.Compaction.Selectors

/-! # What the selections choose

Whatever the scores, ties included, a selection takes as many tokens as it is asked for, each once:
the orders it goes through are permutations of all tokens, and where two criteria meet the second
one passes over what the first one took.
-/

namespace Dexa.Compaction

open Dexa.Core Dexa.Lib Dexa.Platform

/-- `t` of `T` tokens, or all of them if there are fewer, each once. -/
structure Chooses (T : Nat) (t : Int) (S : List Nat) : Prop where
  nodup : S.Nodup
  below : ∀ i ∈ S, i < T
  length : (S.length : Int) = min t T

theorem Chooses.le_of_nodup {T : Nat} {S : List Nat} (nodup : S.Nodup) (below : ∀ i ∈ S, i < T) :
    S.length ≤ T := by
  have inside : S.Subperm (List.range T) :=
    List.subperm_of_subset nodup fun i member => List.mem_range.2 (below i member)
  simpa using inside.length_le

/-- `np.sort` puts distinct tokens in their order. -/
theorem sort_increasing {S : List Nat} (nodup : S.Nodup) :
    (S.mergeSort fun i j => decide (i ≤ j)).Pairwise (· < ·) := by
  have sorted := @List.pairwise_mergeSort _ (fun i j => decide (i ≤ j))
    (fun i j k first second => decide_eq_true
      ((of_decide_eq_true first).trans (of_decide_eq_true second)))
    (fun i j => by simpa using le_total _ _) S
  have distinct : (S.mergeSort fun i j => decide (i ≤ j)).Nodup :=
    (List.mergeSort_perm S _).nodup_iff.2 nodup
  exact (sorted.and distinct).imp fun ⟨le, ne⟩ => lt_of_le_of_ne (of_decide_eq_true le) ne

theorem Chooses.sort {T : Nat} {t : Int} {S : List Nat} (chooses : Chooses T t S) :
    Chooses T t (S.mergeSort fun i j => decide (i ≤ j)) where
  nodup := (List.mergeSort_perm S _).nodup_iff.2 chooses.nodup
  below i member := chooses.below i ((List.mergeSort_perm S _).mem_iff.1 member)
  length := by rw [List.length_mergeSort, chooses.length]

theorem Chooses.sliceTo {T : Nat} {order : List Nat} (perm : order.Perm (List.range T)) {t : Int}
    (nonneg : 0 ≤ t) :
    Chooses T t (sliceTo order t) := by
  have head : Compaction.sliceTo order t = order.take t.toNat := if_neg (by omega)
  have length : order.length = T := by simpa using perm.length_eq
  rw [head]
  constructor
  case nodup => exact (perm.nodup_iff.2 List.nodup_range).sublist (List.take_sublist _ _)
  case below => exact
    fun i member => List.mem_range.1 (perm.mem_iff.1 (List.mem_of_mem_take member))
  case length =>
    rw [List.length_take, length]
    omega

theorem subset_takeUnseen (chosen order : List Nat) (k : Int) :
    chosen ⊆ takeUnseen chosen order k := by
  induction order generalizing chosen k with
  | nil => exact fun _ member => member
  | cons i order ih =>
    unfold takeUnseen
    split_ifs
    · exact fun _ member => member
    · exact ih chosen k
    · exact fun j member => ih _ _ (List.mem_append_left _ member)

theorem mem_of_mem_takeUnseen {chosen order : List Nat} {k : Int} {j : Nat}
    (member : j ∈ takeUnseen chosen order k) :
    j ∈ chosen ∨ j ∈ order := by
  induction order generalizing chosen k with
  | nil => exact .inl member
  | cons i order ih =>
    unfold takeUnseen at member
    split_ifs at member
    · exact .inl member
    · exact (ih member).imp_right (List.mem_cons_of_mem i)
    · obtain old | new := ih member
      · simp only [List.mem_append, List.mem_singleton] at old
        obtain old | rfl := old
        · exact .inl old
        · exact .inr List.mem_cons_self
      · exact .inr (List.mem_cons_of_mem i new)

theorem nodup_takeUnseen {chosen : List Nat} (nodup : chosen.Nodup) (order : List Nat) (k : Int) :
    (takeUnseen chosen order k).Nodup := by
  induction order generalizing chosen k with
  | nil => exact nodup
  | cons i order ih =>
    unfold takeUnseen
    split_ifs with _ seen
    · exact nodup
    · exact ih nodup k
    · apply ih
      simp [List.nodup_append, nodup]
      rintro j member rfl
      exact seen member

theorem length_takeUnseen (chosen : List Nat) {order : List Nat} (distinct : order.Nodup)
    (k : Int) :
    ((takeUnseen chosen order k).length : Int) = chosen.length + min (max k 0)
    (order.countP fun i => i ∉ chosen) := by
  induction order generalizing chosen k with
  | nil => simp [takeUnseen]
  | cons i order ih =>
    obtain ⟨fresh, distinct⟩ := List.nodup_cons.1 distinct
    unfold takeUnseen
    split_ifs with done seen
    · rw [List.countP_cons]
      omega
    · rw [ih chosen distinct, List.countP_cons_of_neg (by simpa using seen)]
    · -- the rest of the order does not name `i` again
      have same : (order.countP fun j => j ∉ chosen ++ [i]) = order.countP fun j => j ∉ chosen := by
        apply List.countP_congr
        intro j member
        have differ : j ≠ i := fun same => fresh (same ▸ member)
        simp [differ]
      rw [ih _ distinct, same, List.countP_cons_of_pos (by simpa using seen), List.length_append,
        List.length_singleton]
      omega

theorem countP_not_mem {T : Nat} {chosen : List Nat} (nodup : chosen.Nodup)
    (below : ∀ i ∈ chosen, i < T) {order : List Nat}
    (perm : order.Perm (List.range T)) :
      (order.countP fun i => i ∉ chosen) = T - chosen.length := by
  have among : ((List.range T).filter fun i => i ∈ chosen).Perm chosen := by
    rw [List.perm_ext_iff_of_nodup (List.nodup_range.filter _) nodup]
    intro i
    simp only [List.mem_filter, List.mem_range, decide_eq_true_eq, and_iff_right_iff_imp]
    exact below i
  have split := List.length_eq_countP_add_countP (fun i => decide (i ∈ chosen)) (l := List.range T)
  rw [List.countP_eq_length_filter, among.length_eq, List.length_range] at split
  rw [perm.countP_eq]
  simp only [decide_not, decide_eq_true_eq] at split ⊢
  omega

/-- `take` over an order of all tokens. -/
theorem Chooses.takeUnseen {T : Nat} {chosen order : List Nat} (nodup : chosen.Nodup)
    (below : ∀ i ∈ chosen, i < T)
    (perm : order.Perm (List.range T)) (k : Int) :
    Chooses T (chosen.length + max k 0) (takeUnseen chosen order k) := by
  have fits := Chooses.le_of_nodup nodup below
  constructor
  case nodup => exact nodup_takeUnseen nodup order k
  case below =>
    intro i member
    cases mem_of_mem_takeUnseen member with
    | inl old => exact below i old
    | inr new => exact List.mem_range.1 (perm.mem_iff.1 new)
  case length =>
    rw [length_takeUnseen chosen (perm.nodup_iff.2 List.nodup_range),
      countP_not_mem nodup below perm]
    omega

theorem takeUnseen_eq_take {chosen order : List Nat} (distinct : order.Nodup)
    (unseen : ∀ i ∈ order, i ∉ chosen) (k : Int) :
    takeUnseen chosen order k = chosen ++ order.take k.toNat := by
  induction order generalizing chosen k with
  | nil => simp [takeUnseen]
  | cons i order ih =>
    obtain ⟨fresh, distinct⟩ := List.nodup_cons.1 distinct
    have tail : ∀ j ∈ order, j ∉ chosen ++ [i] := by
      intro j member
      have differ : j ≠ i := fun same => fresh (same ▸ member)
      simp [differ, unseen j (List.mem_cons_of_mem i member)]
    unfold takeUnseen
    split_ifs with done seen
    · rw [Int.toNat_of_nonpos done, List.take_zero, List.append_nil]
    · exact absurd seen (unseen i List.mem_cons_self)
    · rw [ih distinct tail, List.append_assoc, List.singleton_append, ← List.take_succ_cons]
      congr 2
      omega

/-! ## Attention matching -/

variable {α : Type} [Field α] [LinearOrder α] (np : Numerics α) (argsorts : np.toNumpy.Argsorts)

theorem roundShare_nonneg {frac : ℚ} (nonneg : 0 ≤ frac) {t : Int} (positive : 0 ≤ t) :
    0 ≤ roundShare frac t := by
  have product : (0 : ℚ) ≤ frac * t := mul_nonneg nonneg (by exact_mod_cast positive)
  have floor : 0 ≤ (frac * t).floor := Rat.le_floor_iff.2 (by exact_mod_cast product)
  unfold roundShare roundHalfEven
  simp only
  split_ifs <;> omega

include argsorts

theorem selectHighestAttention_ok {T : Nat} (some : 0 < T) (fullLogits : List (Fin T → α)) :
    ∃ order, selectHighestAttention np fullLogits = .ok order ∧ order.Perm (List.range T) := by
  obtain ⟨A, probabilities⟩ := softmax_ok np some fullLogits
  refine ⟨bestFirst np fun j => ((importance np A j : α) : WithBot α), ?_,
    bestFirst_perm np argsorts _⟩
  simp only [selectHighestAttention, probabilities, bind, Except.bind]
  rfl

theorem selectHybrid_ok {massFrac recentFrac : ℚ} (frac : 0 ≤ recentFrac) {T : Nat}
    (fullLogits : List (Fin T → α)) {t : Int}
    (nonneg : 0 ≤ t) (less : t < T) :
    ∃ S, selectHybrid np massFrac recentFrac fullLogits t = .ok S ∧ Chooses T t S ∧
      ∀ i < T, (T : Int) ≤ i + min (roundShare recentFrac t) t → i ∈ S := by
  obtain ⟨A, probabilities⟩ := softmax_ok np (by omega) fullLogits
  let byMass := bestFirst np fun j => ((mass A j : α) : WithBot α)
  let byImportance := bestFirst np fun j => ((importance np A j : α) : WithBot α)
  let nRecent := min (roundShare recentFrac t) t
  let nMass := min (roundShare massFrac t) (t - nRecent)
  let recent := takeUnseen [] (List.range T).reverse nRecent
  let heavy := takeUnseen recent byMass nMass
  have share := roundShare_nonneg frac nonneg
  have first : Chooses T (max nRecent 0) recent := by
    have chosen :=
      Chooses.takeUnseen List.nodup_nil (by simp) (List.reverse_perm (List.range T)) nRecent
    rwa [List.length_nil, Nat.cast_zero, zero_add] at chosen
  have second : Chooses T (recent.length + max nMass 0) heavy :=
    Chooses.takeUnseen first.nodup first.below (bestFirst_perm np argsorts _) nMass
  have third :
    Chooses T (heavy.length + max (t - heavy.length) 0)
    (takeUnseen heavy byImportance (t - heavy.length)) :=
    Chooses.takeUnseen second.nodup second.below (bestFirst_perm np argsorts _) (t - heavy.length)
  refine ⟨takeUnseen heavy byImportance (t - heavy.length), ?_, ?_, fun i inside last => ?_⟩
  · simp only [selectHybrid, probabilities, bind, Except.bind]
    rfl
  · -- the window and the heavy keys leave room within `t`
    have few : (heavy.length : Int) ≤ t := by
      have := first.length
      have := second.length
      omega
    rwa [max_eq_left (by omega), add_sub_cancel] at third
  · apply subset_takeUnseen
    apply subset_takeUnseen
    have window : recent = [] ++ (List.range T).reverse.take nRecent.toNat :=
      takeUnseen_eq_take (List.nodup_reverse.2 List.nodup_range) (by simp) nRecent
    rw [window, List.nil_append, Segments.mem_take_reverse_range (by omega)]
    exact List.mem_range'_1.2 ⟨by omega, by omega⟩

omit argsorts in
theorem ompRound_ok {T : Nat} (Phi : List (Fin T → α)) (m : List α) {s : List (Fin T) × List α}
    (room : s.1.length < T) (i : Nat) : ∃ j residual,
      ompRound np Phi m s i = .ok (s.1 ++ [j], residual) ∧ j ∉ s.1 := by
  obtain ⟨free, unselected⟩ : ∃ j : Fin T, j ∉ s.1 := by
    by_contra all
    push Not at all
    have every : (List.finRange T).Subperm s.1 := List.subperm_of_subset (List.nodup_finRange T)
      fun j _ => all j
    have := every.length_le
    rw [List.length_finRange] at this
    omega
  obtain ⟨j, best⟩ : ∃ j, (List.finRange T).argmax (correlation np Phi s.1 s.2) = some j := by
    rw [← Option.ne_none_iff_exists']
    intro none
    have empty := List.argmax_eq_none.1 none
    have member := List.mem_finRange free
    rw [empty] at member
    cases member
  -- the free key has a finite correlation, so the best one is no selected key
  have fresh : j ∉ s.1 := by
    intro selected
    have le := List.le_of_mem_argmax (List.mem_finRange free) best
    simp only [correlation, if_pos selected, if_neg unselected, le_bot_iff] at le
    exact WithBot.coe_ne_bot le
  unfold ompRound
  rw [best]
  exact ⟨j, _, rfl, fresh⟩

omit argsorts in
theorem ompRounds_ok {T : Nat} (Phi : List (Fin T → α)) (m : List α) (rounds : List Nat)
    {s : List (Fin T) × List α}
    (nodup : s.1.Nodup) (room : s.1.length + rounds.length ≤ T) :
    ∃ s', rounds.foldlM (ompRound np Phi m) s = .ok s' ∧ s'.1.Nodup ∧
      s'.1.length = s.1.length + rounds.length := by
  induction rounds generalizing s with
  | nil => exact ⟨s, rfl, nodup, rfl⟩
  | cons i rounds ih =>
    rw [List.length_cons] at room
    obtain ⟨j, residual, here, fresh⟩ := ompRound_ok np Phi m (s := s) (by omega) i
    have nodup₁ : (s.1 ++ [j]).Nodup := by
      rw [List.nodup_append]
      refine ⟨nodup, List.nodup_singleton j, fun a member b single => ?_⟩
      rintro rfl
      exact fresh (List.mem_singleton.1 single ▸ member)
    have length₁ : (s.1 ++ [j]).length = s.1.length + 1 := by simp
    obtain ⟨s₂, rest, nodup₂, length₂⟩ :=
      ih (s := (s.1 ++ [j], residual)) nodup₁ (by rw [length₁]; omega)
    refine ⟨s₂, ?_, nodup₂, ?_⟩
    · rw [List.foldlM_cons, here]
      exact rest
    · rw [length₂, length₁, List.length_cons]
      omega

omit argsorts in
theorem selectOmp_ok {T : Nat} (fullLogits : List (Fin T → α)) {t : Int} (nonneg : 0 ≤ t)
    (less : t < T) :
    ∃ S, selectOmp np fullLogits t = .ok S ∧ Chooses T t S := by
  have each : ∀ row ∈ fullLogits, ∃ phi, expRow np row = .ok phi ∧ True := by
    intro row _
    obtain ⟨phi, found⟩ := expRow_ok np (by omega) row
    exact ⟨phi, found, trivial⟩
  obtain ⟨Phi, stable, -⟩ := Fallible.mapM_ok each
  let m := Phi.map fun row => ∑ j, row j
  obtain ⟨s, ran, nodup, length⟩ :=
    ompRounds_ok np Phi m (List.range (min t T).toNat) (s := ([], m)) List.nodup_nil
    (by simp)
  refine ⟨s.1.map Fin.val, ?_, ?_⟩
  · simp only [selectOmp, stable, bind, Except.bind]
    rw [ran]
    rfl
  · constructor
    case nodup => exact nodup.map Fin.val_injective
    case below =>
      intro i member
      obtain ⟨j, -, rfl⟩ := List.mem_map.1 member
      exact j.isLt
    case length =>
      simp only [List.length_map, length, List.length_nil, List.length_range]
      omega

omit argsorts in
theorem roundShare_zero (t : Int) : roundShare 0 t = 0 := by
  have floor : (0 : ℚ).floor = 0 := rfl
  simp [roundShare, roundHalfEven, floor]

theorem selectKeys_ok (config : MatchingConfig α) {T : Nat} (fullLogits : List (Fin T → α))
    {t : Int} (nonneg : 0 ≤ t) (less : t < T) :
    ∃ S, selectKeys np config fullLogits t = .ok S ∧ Chooses T t S ∧
      ∀ i < T, (T : Int) ≤ i + min (roundShare config.recentFrac t) t → i ∈ S := by
  unfold selectKeys
  split_ifs with hybrid
  · exact selectHybrid_ok np argsorts config.recent.1 fullLogits nonneg less
  · -- without a recent window there is nothing to keep
    have none : config.recentFrac = 0 := le_antisymm (not_lt.1 (not_or.1 hybrid).2) config.recent.1
    have empty : ∀ i < T, ¬ (T : Int) ≤ i + min (roundShare config.recentFrac t) t := by
      intro i inside
      rw [none, roundShare_zero]
      omega
    cases config.keySelection with
    | omp =>
      obtain ⟨S, selected, chooses⟩ := selectOmp_ok np fullLogits nonneg less
      exact ⟨S, selected, chooses, fun i inside last => absurd last (empty i inside)⟩
    | highestAttention =>
      obtain ⟨order, ranked, perm⟩ := selectHighestAttention_ok np argsorts (by omega) fullLogits
      refine ⟨sliceTo order t, ?_, Chooses.sliceTo perm nonneg,
        fun i inside last => absurd last (empty i inside)⟩
      simp only [ranked]
      rfl

/-! ## The recent window and the best scores -/

omit [Field α] in
/-- Masked keys come last, so the best of as many as are not masked are among these. -/
theorem lt_of_mem_take_bestFirst {T w : Nat} (scores : Fin T → WithBot α)
    (masked : ∀ j : Fin T, scores j = ⊥ ↔ w ≤ j.val) {k : Nat}
    (few : k ≤ w) (le : w ≤ T) : ∀ i ∈ (bestFirst np scores).take k, i < w := by
  have perm := bestFirst_perm np argsorts scores
  have finite : ∀ i < T, (List.ofFn scores).getD i ⊥ ≠ ⊥ ↔ i < w := by
    intro i inside
    have read : (List.ofFn scores).getD i ⊥ = scores ⟨i, inside⟩ := by
      simp [List.getD_eq_getElem?_getD, inside]
    rw [read, ne_eq, masked, not_le]
  have descends : (bestFirst np scores).Pairwise fun a b => b < w → a < w := by
    have sorted := List.pairwise_reverse.2 (argsorts.sorted (List.ofFn scores))
    refine sorted.imp_of_mem fun {a b} memberA memberB order small => ?_
    have insideA : a < T := List.mem_range.1 (perm.mem_iff.1 memberA)
    have insideB : b < T := List.mem_range.1 (perm.mem_iff.1 memberB)
    exact (finite a insideA).1 (ne_bot_of_le_ne_bot ((finite b insideB).2 small) order)
  have count : w ≤ (bestFirst np scores).countP fun i => i < w := by
    have window : (List.range w).Sublist ((List.range T).filter fun i => i < w) := by
      have all : ((List.range w).filter fun i => i < w) = List.range w := by simp
      rw [← all]
      exact (List.range_sublist.2 le).filter _
    rw [perm.countP_eq, List.countP_eq_length_filter]
    simpa using window.length_le
  exact forall_mem_take_of_antitone descends (few.trans count)

omit argsorts in
theorem unique_perm {l : List Nat} (nodup : l.Nodup) : (unique l).Perm l := by
  rw [unique, nodup.dedup]
  exact List.mergeSort_perm _ _

omit [Field α] in
/-- What is selected is the recent window, from `w` on, and the best of what is before it. -/
theorem topkWithRecent_perm {T : Nat} (scores : Fin T → α) {t : Int} (nonneg : 0 ≤ t) (le : t ≤ T)
    {recent : Int} (some : 0 ≤ recent)
    {w : Nat} (starts : (w : Int) = T - min recent t) {masked : Fin T → WithBot α}
    (hidden : masked = fun j => if w ≤ j.val then ⊥ else (scores j : WithBot α)) :
    (∀ i ∈ (bestFirst np masked).take w, i < w) ∧
      (List.range' w (T - w) ++ (bestFirst np masked).take (t.toNat - (T - w))).Nodup ∧
      (topkWithRecent np scores t T recent).Perm
        (List.range' w (T - w) ++ (bestFirst np masked).take (t.toNat - (T - w))) := by
  have bottom : ∀ j : Fin T, masked j = ⊥ ↔ w ≤ j.val := by
    intro j
    by_cases late : w ≤ j.val <;> simp [hidden, late]
  have order := bestFirst_perm np argsorts masked
  have early := lt_of_mem_take_bestFirst np argsorts masked bottom le_rfl (by omega)
  have few : t.toNat - (T - w) ≤ w := by omega
  have nodup : (List.range' w (T - w) ++ (bestFirst np masked).take (t.toNat - (T - w))).Nodup := by
    rw [List.nodup_append]
    refine ⟨List.nodup_range' ..,
      (order.nodup_iff.2 List.nodup_range).sublist (List.take_sublist _ _), ?_⟩
    rintro i window j member rfl
    have := early i (List.take_subset_take_left _ few member)
    have := (List.mem_range'_1.1 window).1
    omega
  refine ⟨early, nodup, ?_⟩
  have start : ((T : Int) - min (min recent t) T).toNat = w := by omega
  have count : (min (min recent t) (T : Int)).toNat = T - w := by omega
  have mask :
    (fun j : Fin T => if j.val ∈ List.range' w (T - w) then ⊥ else (scores j : WithBot α)) =
    masked := by
    rw [hidden]
    funext j
    have := j.isLt
    have inWindow : j.val ∈ List.range' w (T - w) ↔ w ≤ j.val := by
      rw [List.mem_range'_1]
      omega
    simp only [inWindow]
  unfold topkWithRecent
  simp only [start, count, mask]
  split_ifs with room
  · have need : (t - min (min recent t) (T : Int)).toNat = t.toNat - (T - w) := by omega
    rw [sliceTo, if_neg (by omega), need]
    exact unique_perm nodup
  · -- with no room beyond the window nothing is taken beyond it
    have nothing : t.toNat - (T - w) = 0 := by omega
    rw [nothing, List.take_zero, List.append_nil]
    exact unique_perm (List.nodup_range' ..)

omit [Field α] in
theorem topkWithRecent_ok {T : Nat} (scores : Fin T → α) {t : Int} (nonneg : 0 ≤ t) (le : t ≤ T)
    {recent : Int} (some : 0 ≤ recent) :
    Chooses T t (topkWithRecent np scores t T recent) ∧
      ∀ i < T, (T : Int) ≤ i + min recent t → i ∈ topkWithRecent np scores t T recent := by
  obtain ⟨w, starts⟩ : ∃ w : Nat, (w : Int) = T - min recent t :=
    ⟨(T - min recent t).toNat, by omega⟩
  obtain ⟨masked, hidden⟩ : ∃ masked : Fin T → WithBot α, masked = fun j => if w ≤ j.val then ⊥
    else (scores j : WithBot α) := ⟨_, rfl⟩
  obtain ⟨-, nodup, perm⟩ := topkWithRecent_perm np argsorts scores nonneg le some starts hidden
  have order := bestFirst_perm np argsorts masked
  refine ⟨⟨perm.nodup_iff.2 nodup, fun i member => ?_, ?_⟩, fun i inside last => ?_⟩
  · cases List.mem_append.1 (perm.mem_iff.1 member) with
    | inl window =>
      have := (List.mem_range'_1.1 window).2
      omega
    | inr best => exact List.mem_range.1 (order.mem_iff.1 (List.mem_of_mem_take best))
  · have keys : (bestFirst np masked).length = T := by simpa using order.length_eq
    rw [perm.length_eq, List.length_append, List.length_range', List.length_take, keys]
    omega
  · exact perm.mem_iff.2 (List.mem_append_left _ (List.mem_range'_1.2 ⟨by omega, by omega⟩))

end Dexa.Compaction
