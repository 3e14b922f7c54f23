import Dexa.Compaction.KeptTokens

/-! # The heavy hitters are the heaviest

Of all selections of as many tokens that contain the recent window, the one that the heavy hitters
make on a head draws the most attention from the queries that they look at.
-/

namespace Dexa.Compaction

open Dexa.Core Dexa.Lib

variable {α : Type} [Field α] [LinearOrder α]

/-- The score of token `i`. -/
def scoreAt {T : Nat} (scores : Fin T → α) (i : Nat) : α :=
  if inside : i < T then scores ⟨i, inside⟩ else 0

/-- Of the selections of `t` tokens that contain the recent ones, none has a greater score. -/
structure Heaviest {T : Nat} (scores : Fin T → α) (t recent : Int) (S : List Nat) : Prop where
  chooses : Chooses T t S
  window : ∀ i < T, (T : Int) ≤ i + min recent t → i ∈ S
  most : ∀ S', Chooses T t S' → (∀ i < T, (T : Int) ≤ i + min recent t → i ∈ S') →
    (S'.map (scoreAt scores)).sum ≤ (S.map (scoreAt scores)).sum

theorem Heaviest.sort {T : Nat} {scores : Fin T → α} {t recent : Int} {S : List Nat}
    (heaviest : Heaviest scores t recent S) :
    Heaviest scores t recent (S.mergeSort fun i j => decide (i ≤ j)) := by
  have perm := List.mergeSort_perm S fun i j => decide (i ≤ j)
  constructor
  case chooses => exact heaviest.chooses.sort
  case window => exact fun i inside last => perm.mem_iff.2 (heaviest.window i inside last)
  case most =>
    intro S' chooses window
    rw [(perm.map _).sum_eq]
    exact heaviest.most S' chooses window

variable (np : Numerics α) (argsorts : np.toNumpy.Argsorts)

section Order

include argsorts

/-- The best of the tokens before `w` are in the order of their scores. -/
theorem bestFirst_descends {T w : Nat} (scores : Fin T → α) {masked : Fin T → WithBot α}
    (hidden : masked = fun j => if w ≤ j.val then ⊥ else (scores j : WithBot α)) (le : w ≤ T)
    (early : ∀ i ∈ (bestFirst np masked).take w, i < w) :
    (((bestFirst np masked).take w).map (scoreAt scores)).Pairwise (· ≥ ·) := by
  have read : ∀ i < w, (List.ofFn masked).getD i ⊥ = ((scoreAt scores i : α) : WithBot α) := by
    intro i small
    have inside : i < T := small.trans_le le
    simp [List.getD_eq_getElem?_getD, inside, hidden, not_le.2 small, scoreAt]
  have sorted :=
    (List.pairwise_reverse.2 (argsorts.sorted (List.ofFn masked))).sublist (List.take_sublist w _)
  rw [List.pairwise_map]
  refine sorted.imp_of_mem fun {a b} memberA memberB order => ?_
  rw [read b (early b memberB), read a (early a memberA)] at order
  exact WithBot.coe_le_coe.1 order

variable [IsStrictOrderedRing α]

theorem topkWithRecent_heaviest {T : Nat} (scores : Fin T → α) {t : Int} (nonneg : 0 ≤ t)
    (le : t ≤ T) {recent : Int} (some : 0 ≤ recent) :
    Heaviest scores t recent (topkWithRecent np scores t T recent) := by
  obtain ⟨chooses, window⟩ := topkWithRecent_ok np argsorts scores nonneg le some
  refine ⟨chooses, window, fun S chooses' window' => ?_⟩
  obtain ⟨w, starts⟩ : ∃ w : Nat, (w : Int) = T - min recent t :=
    ⟨(T - min recent t).toNat, by omega⟩
  obtain ⟨masked, hidden⟩ : ∃ masked : Fin T → WithBot α, masked = fun j => if w ≤ j.val then ⊥
    else (scores j : WithBot α) := ⟨_, rfl⟩
  obtain ⟨early, -, perm⟩ := topkWithRecent_perm np argsorts scores nonneg le some starts hidden
  have order := bestFirst_perm np argsorts masked
  -- the other selection contains the window too, so what is before it decides
  have split : S.Perm (List.range' w (T - w) ++ S.filter fun i => i < w) := by
    have apart : (List.range' w (T - w) ++ S.filter fun i => i < w).Nodup := by
      rw [List.nodup_append]
      refine ⟨List.nodup_range' .., chooses'.nodup.filter _, ?_⟩
      rintro i late j member rfl
      have := (List.mem_range'_1.1 late).1
      have small : i < w := by simpa using (List.mem_filter.1 member).2
      omega
    rw [List.perm_ext_iff_of_nodup chooses'.nodup apart]
    intro i
    rw [List.mem_append, List.mem_range'_1, List.mem_filter, decide_eq_true_eq]
    constructor
    · intro member
      have := chooses'.below i member
      by_cases small : i < w
      · exact .inr ⟨member, small⟩
      · exact .inl (by omega)
    · rintro (late | ⟨member, -⟩)
      · exact window' i (by omega) (by omega)
      · exact member
  have size : (S.filter fun i => i < w).length = t.toNat - (T - w) := by
    have count := split.length_eq
    have length := chooses'.length
    rw [List.length_append, List.length_range'] at count
    omega
  have whole : ((bestFirst np masked).take w).Perm (List.range w) := by
    have distinct := (order.nodup_iff.2 List.nodup_range).sublist (List.take_sublist w _)
    have length : (bestFirst np masked).length = T := by simpa using order.length_eq
    have inside : ((bestFirst np masked).take w).Subperm (List.range w) :=
      List.subperm_of_subset distinct fun i member => List.mem_range.2 (early i member)
    exact inside.perm_of_length_le (by rw [List.length_range, List.length_take]; omega)
  have among : (S.filter fun i => i < w).Subperm ((bestFirst np masked).take w) := by
    apply List.subperm_of_subset (chooses'.nodup.filter _)
    intro i member
    have small : i < w := by simpa using (List.mem_filter.1 member).2
    exact whole.mem_iff.2 (List.mem_range.2 small)
  obtain ⟨others, same, sublist⟩ := among
  have bound := sum_le_sum_take (bestFirst_descends np argsorts scores hidden (by omega) early)
    ⟨others.map (scoreAt scores), same.map _, sublist.map _⟩
  have few : min (t.toNat - (T - w)) w = t.toNat - (T - w) := by omega
  rw [List.length_map, size, ← List.map_take, List.take_take, few] at bound
  rw [(split.map _).sum_eq, (perm.map _).sum_eq, List.map_append, List.map_append, List.sum_append,
    List.sum_append]
  exact add_le_add_right bound _

end Order

variable [Inhabited α] [IsStrictOrderedRing α] {np}

include argsorts in
theorem selectByMass_heaviest {kAll : NDArray α} {heads T d h : Nat}
    (shape : kAll.shape = [heads, T, d]) (inside : h < heads) {scale : α}
    {t recent : Int} (nonneg : 0 ≤ t) (le : t ≤ T) (some : 0 ≤ recent) {Q : List (Fin d → α)}
    {S : List Nat}
    (selected : selectByMass np kAll scale t T recent h Q = .ok S) :
    ∃ K A, rowsOf kAll h d = .ok K ∧ softmax np (logitsOf Q K scale) = .ok A ∧ K.length = T ∧
      Heaviest (mass A) t recent S := by
  obtain ⟨K, read, selected⟩ := Fallible.ok_of_bind selected
  obtain ⟨A, weights, selected⟩ := Fallible.ok_of_bind selected
  obtain rfl := Except.ok.inj selected
  obtain ⟨K', read', length, -⟩ := rowsOf_ok shape inside
  obtain rfl := Except.ok.inj (read.symm.trans read')
  subst length
  exact ⟨K, A, read, weights, rfl, topkWithRecent_heaviest np argsorts (mass A) nonneg le some⟩

/-- Head `h` keeps the tokens that draw the most attention from `Q`. -/
def HeavyHead (np : Numerics α) (cache : KVCache α) (layer : LayerKV α) (t recent : Int) (h : Nat)
    (Q : List (Fin cache.spec.headDim → α)) (head : CompactHead α) : Prop :=
  ∃ K A S, rowsOf layer.key h cache.spec.headDim = .ok K ∧
    softmax np (logitsOf Q K (1 / np.sqrt cache.spec.headDim)) = .ok A ∧
    HeadKeeps cache layer h S head ∧ Heaviest (mass A) t recent S

/-- Every head keeps the tokens that draw the most attention from the queries `ask` gives for it. -/
def KeepsHeaviest (np : Numerics α) (cache : KVCache α) (refs : RefQueries α)
    (ask : NDArray α → Nat → Except Raised (List (Fin cache.spec.headDim → α))) (t recent : Int)
    (compact : CompactCache α) : Prop :=
  ∀ l < cache.spec.nLayers, ∃ layer qAll kept, cache.layers[l]? = some layer ∧
    refs.layers[l]? = some qAll ∧
    compact.layers[l]? = some kept ∧ ∀ h < cache.spec.nKvHeads, ∃ Q head, ask qAll h = .ok Q ∧
      kept.head? h = some head ∧
      HeavyHead np cache layer t recent h Q head

include argsorts in
theorem selectLayers_heaviest {cache : KVCache α} (shaped : CacheShaped cache) {refs : RefQueries α}
    {ask : NDArray α → Nat → Except Raised (List (Fin cache.spec.headDim → α))}
    {t recent : Int} (nonneg : 0 ≤ t) (le : t ≤ cache.seqLen) (some : 0 ≤ recent) {method : String}
    {pick : LayerKV α → NDArray α → Nat → Except Raised (List Nat)}
    (picks : ∀ layer qAll h S, pick layer qAll h = .ok S → ∃ Q, ask qAll h = .ok Q ∧
      selectByMass np layer.key (1 / np.sqrt cache.spec.headDim) t cache.seqLen recent h Q = .ok S)
    {compact : CompactCache α} (made : selectLayers cache method (fun l layer => do
      let qAll ← index refs.layers l
      (List.range cache.spec.nKvHeads).mapM fun h => pick layer qAll h) = .ok compact) :
    KeepsHeaviest np cache refs ask t recent compact := by
  intro l inside
  obtain ⟨layer, there, keyShape, valueShape⟩ := shaped.layers l inside
  -- the loop over the layers, and what its round for `l` goes through
  obtain ⟨layers, each, same⟩ := Fallible.ok_of_bind made
  obtain rfl := Except.ok.inj same
  obtain ⟨kept, present, round⟩ := Fallible.getElem?_of_mapM_ok each (List.getElem?_range inside)
  obtain ⟨_, read, round⟩ := Fallible.ok_of_bind round
  obtain rfl := Option.some.inj ((getElem?_of_index read).symm.trans there)
  obtain ⟨sels, picked, round⟩ := Fallible.ok_of_bind round
  obtain ⟨qAll, asked, picked⟩ := Fallible.ok_of_bind picked
  obtain ⟨heads, gathered, same⟩ := Fallible.ok_of_bind round
  obtain rfl := Except.ok.inj same
  refine ⟨_, qAll, _, there, getElem?_of_index asked, present, fun h insideHead => ?_⟩
  obtain ⟨S, found, selected⟩ :=
    Fallible.getElem?_of_mapM_ok picked (List.getElem?_range insideHead)
  obtain ⟨Q, asks, selected⟩ := picks _ _ _ _ selected
  obtain ⟨K, A, keys, weights, length, heaviest⟩ :=
    selectByMass_heaviest argsorts keyShape insideHead nonneg le some selected
  -- the head that is made of this selection keeps it
  have entry : sels.zipIdx[h]? = Option.some (S, h) := by simp [found]
  obtain ⟨head, placed, makes⟩ := Fallible.getElem?_of_mapM_ok gathered entry
  obtain ⟨_, makes', keeps⟩ :=
    makeHead_keeps keyShape valueShape insideHead (length ▸ heaviest.chooses)
  obtain rfl := Except.ok.inj (makes.symm.trans makes')
  exact ⟨Q, head, asks,
    by rw [CompactLayer.head?_ofHeads, placed], K, A, _, keys, weights, keeps, heaviest.sort⟩

/-- `HeavyHitter` over all queries of a head, and `SnapKVLite` over the last ones. -/
theorem heavyHitters_heaviest {cache : KVCache α} (shaped : CacheShaped cache) {refs : RefQueries α}
    (queries : RefsShaped cache.spec refs)
    {budget : CompactionBudget} {target : Int} (given : budget.targetT cache.seqLen = .ok target)
    (nonneg : 0 ≤ target)
    (argsorts : np.toNumpy.Argsorts) {recentFrac : ℚ} (frac : 0 ≤ recentFrac) (window : Int) :
    (∃ compact, (heavyHitter np recentFrac).compact cache budget (some refs) = .ok compact ∧
      KeepsHeaviest np cache refs (fun qAll => groupQueries qAll cache.spec)
        (min target cache.seqLen)
        (roundShare recentFrac (min target cache.seqLen)) compact) ∧
    ∃ compact, (snapKVLite np window recentFrac).compact cache budget (some refs) = .ok compact ∧
      KeepsHeaviest np cache refs (fun qAll => observationWindow qAll cache.spec window)
        (min target cache.seqLen)
        (roundShare recentFrac (min target cache.seqLen)) compact := by
  have least : 0 ≤ min target cache.seqLen := by omega
  have share := roundShare_nonneg frac least
  constructor
  · obtain ⟨compact, made, -⟩ := heavyHitter_keeps shaped given nonneg argsorts frac queries
    refine ⟨compact, made, ?_⟩
    simp only [heavyHitter, given] at made
    obtain ⟨_, same, made⟩ := Fallible.ok_of_bind made
    obtain rfl := Except.ok.inj same
    refine selectLayers_heaviest argsorts shaped least (min_le_right _ _) share
      (fun layer qAll h S picked => ?_) made
    exact Fallible.ok_of_bind picked
  · obtain ⟨compact, made, -⟩ := snapKVLite_keeps shaped given nonneg argsorts frac queries window
    refine ⟨compact, made, ?_⟩
    simp only [snapKVLite, given] at made
    obtain ⟨_, same, made⟩ := Fallible.ok_of_bind made
    obtain rfl := Except.ok.inj same
    refine selectLayers_heaviest argsorts shaped least (min_le_right _ _) share
      (fun layer qAll h S picked => ?_) made
    -- the stack of all queries is made first, and not used
    obtain ⟨_, -, picked⟩ := Fallible.ok_of_bind picked
    exact Fallible.ok_of_bind picked

theorem heavyHitters_heaviest_tiny :
    (∃ compact, (heavyHitter realNumerics 0).compact tinyCache { tokensPerHead := some 1 }
      (some tinyRefs) = .ok compact ∧
      KeepsHeaviest realNumerics tinyCache tinyRefs (fun qAll => groupQueries qAll tinyCache.spec)
        (min 1 tinyCache.seqLen)
        (roundShare 0 (min 1 tinyCache.seqLen)) compact) ∧
    ∃ compact, (snapKVLite realNumerics 32 0).compact tinyCache { tokensPerHead := some 1 }
      (some tinyRefs) = .ok compact ∧
      KeepsHeaviest realNumerics tinyCache tinyRefs
        (fun qAll => observationWindow qAll tinyCache.spec 32) (min 1 tinyCache.seqLen)
        (roundShare 0 (min 1 tinyCache.seqLen)) compact :=
  heavyHitters_heaviest tinyCache_shaped tinyRefs_shaped rfl
    (by decide) realNumerics_lawful.argsorts le_rfl 32

end Dexa.Compaction
