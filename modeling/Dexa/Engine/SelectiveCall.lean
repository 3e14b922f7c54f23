import Dexa.Engine.Decoding
import Dexa.Lib.Intervals
import Dexa.Lib.Lists
import Dexa.Segments.Selection

/-! # Calls of `recompute_selective`

A call assembles a cache, selects tokens over the hull of the candidates and takes the recomputed
columns from the reference.  `SameToken` compares a token of one cache with a token of another, on
all layers.
-/

namespace Dexa.Engine

open Dexa.Core Dexa.Lib Dexa.Segments

variable {α τ Λ : Type}

/-- Token `i` of one cache is token `j` of the other: the same keys and values on each layer. -/
def SameToken (layers : List (LayerKV α)) (i : Nat) (layers' : List (LayerKV α)) (j : Nat) : Prop :=
  ∀ (li : Nat) (l l' : LayerKV α), layers[li]? = some l → layers'[li]? = some l' → ∀ h c,
    l.key.get? [h, i, c] = l'.key.get? [h, j, c] ∧ l.value.get? [h, i, c] = l'.value.get? [h, j, c]

/-- The layers of a cache of `n` tokens. -/
structure Shaped (spec : ModelSpec) (n : Nat) (layers : List (LayerKV α)) : Prop where
  length : layers.length = spec.nLayers
  shape : ∀ l ∈ layers, l.key.shape = [spec.nKvHeads, n, spec.headDim] ∧
    l.value.shape = [spec.nKvHeads, n, spec.headDim]

theorem SameToken.refl (layers : List (LayerKV α)) (i : Nat) : SameToken layers i layers i := by
  intro li l l' there there' h c
  cases there.symm.trans there'
  exact ⟨rfl, rfl⟩

theorem SameToken.symm {layers layers' : List (LayerKV α)} {i j : Nat}
    (same : SameToken layers i layers' j) :
    SameToken layers' j layers i := by
  intro li l l' there there' h c
  obtain ⟨key, value⟩ := same li l' l there' there h c
  exact ⟨key.symm, value.symm⟩

theorem SameToken.trans {layers layers' layers'' : List (LayerKV α)} {i j k : Nat}
    (first : SameToken layers i layers' j)
    (length : layers.length = layers'.length) (second : SameToken layers' j layers'' k) :
      SameToken layers i layers'' k := by
  intro li l l'' there there'' h c
  have inside : li < layers'.length := length ▸ (List.getElem?_eq_some_iff.1 there).1
  obtain ⟨key, value⟩ := first li l _ there (List.getElem?_eq_getElem inside) h c
  obtain ⟨key', value'⟩ := second li _ l'' (List.getElem?_eq_getElem inside) there'' h c
  exact ⟨key.trans key', value.trans value'⟩

variable {spec : ModelSpec} {n : Nat}

/-- Caches of one shape are equal if they are at each token. -/
theorem Shaped.ext {layers layers' : List (LayerKV α)} (shaped : Shaped spec n layers)
    (shaped' : Shaped spec n layers')
    (same : ∀ t, t < n → SameToken layers t layers' t) : layers = layers' := by
  apply List.ext_getElem (shaped.length.trans shaped'.length.symm)
  intro li inside inside'
  obtain ⟨key, value⟩ := shaped.shape _ (List.getElem_mem inside)
  obtain ⟨key', value'⟩ := shaped'.shape _ (List.getElem_mem inside')
  have cells := fun h i c (before : i < n) =>
    same i before li _ _ (List.getElem?_eq_getElem inside) (List.getElem?_eq_getElem inside') h c
  apply LayerKV.ext
  · exact array_ext key key' fun h i c before => (cells h i c before).1
  · exact array_ext value value' fun h i c before => (cells h i c before).2

/-- Layers of one shape, a layer of the model at a time. -/
theorem Shaped.of_forall₂ {layers : List (LayerKV α)}
    (each : List.Forall₂ (fun _ (l : LayerKV α) => l.key.shape = [spec.nKvHeads, n, spec.headDim] ∧
      l.value.shape = [spec.nKvHeads, n, spec.headDim]) (List.range spec.nLayers) layers) :
        Shaped spec n layers := by
  refine ⟨by rw [← each.length_eq, List.length_range], ?_⟩
  intro l member
  obtain ⟨li, there⟩ := List.mem_iff_getElem?.1 member
  obtain ⟨_, -, shape⟩ := forall₂_getElem? each.flip there
  exact shape

/-- The arrays of two caches have the same shapes. -/
def SameShape (layers layers' : List (LayerKV α)) : Prop :=
  List.Forall₂ (fun l l' => l.key.shape = l'.key.shape ∧
    l.value.shape = l'.value.shape) layers layers'

theorem Shaped.sameShape {layers layers' : List (LayerKV α)} (shaped : Shaped spec n layers)
    (shaped' : Shaped spec n layers') :
    SameShape layers layers' := by
  apply List.forall₂_iff_get.2
  refine ⟨shaped.length.trans shaped'.length.symm, ?_⟩
  intro li inside inside'
  obtain ⟨key, value⟩ := shaped.shape _ (List.get_mem layers ⟨li, inside⟩)
  obtain ⟨key', value'⟩ := shaped'.shape _ (List.get_mem layers' ⟨li, inside'⟩)
  exact ⟨key.trans key'.symm, value.trans value'.symm⟩

section Blend

variable [Inhabited α]

theorem get?_replaceColumns {a b : NDArray α} (shapes : a.shape = b.shape) (sel : List Nat)
    (h t c : Nat) :
    (replaceColumns a b sel).get? [h, t, c] = if t ∈ sel then b.get? [h, t, c]
      else a.get? [h, t, c] := by
  by_cases inside : NDArray.InBounds a.shape [h, t, c]
  · rw [replaceColumns, NDArray.get?_ofFn_inBounds _ inside, ← NDArray.some_getD default inside,
      ← NDArray.some_getD default (shapes ▸ inside)]
    split <;> simp_all
  · rw [replaceColumns, NDArray.get?_ofFn, if_neg inside, NDArray.get?_eq_none inside,
      NDArray.get?_eq_none (shapes ▸ inside), ite_self]

variable {reused correct : KVCache α} {idx : List Nat}

theorem blendKV_layer {li : Nat} {l : LayerKV α}
    (there : (blendKV reused correct idx).layers[li]? = some l) :
    ∃ r c, reused.layers[li]? = some r ∧ correct.layers[li]? = some c ∧
      l = ⟨replaceColumns r.key c.key idx, replaceColumns r.value c.value idx⟩ := by
  simp only [blendKV, List.getElem?_map, Option.map_eq_some_iff] at there
  obtain ⟨⟨r, c⟩, both, rfl⟩ := there
  obtain ⟨at_, at_'⟩ := List.getElem?_zip_eq_some.1 both
  exact ⟨r, c, at_, at_', rfl⟩

theorem shaped_blendKV (shaped : Shaped spec n reused.layers)
    (shaped' : Shaped spec n correct.layers) (idx : List Nat) :
    Shaped spec n (blendKV reused correct idx).layers := by
  refine ⟨by simp [blendKV, shaped.length, shaped'.length], ?_⟩
  intro l member
  obtain ⟨li, there⟩ := List.mem_iff_getElem?.1 member
  obtain ⟨r, c, at_, -, rfl⟩ := blendKV_layer there
  exact shaped.shape r (List.mem_of_getElem? at_)

/-- A recomputed token is the reference's. -/
theorem blendKV_recomputed (shapes : SameShape reused.layers correct.layers) {t : Nat}
    (here : t ∈ idx) :
    SameToken (blendKV reused correct idx).layers t correct.layers t := by
  intro li l l' there there' h c
  obtain ⟨r, q, at_, at_', rfl⟩ := blendKV_layer there
  cases at_'.symm.trans there'
  obtain ⟨q', at_'', key, value⟩ := forall₂_getElem? shapes at_
  cases at_''.symm.trans at_'
  rw [get?_replaceColumns key, get?_replaceColumns value, if_pos here, if_pos here]
  exact ⟨rfl, rfl⟩

/-- Any other token is the assembled cache's. -/
theorem blendKV_kept (shapes : SameShape reused.layers correct.layers) {t : Nat}
    (elsewhere : t ∉ idx) :
    SameToken (blendKV reused correct idx).layers t reused.layers t := by
  intro li l l' there there' h c
  obtain ⟨r, q, at_, at_', rfl⟩ := blendKV_layer there
  cases at_.symm.trans there'
  obtain ⟨q', at_'', key, value⟩ := forall₂_getElem? shapes at_
  cases at_''.symm.trans at_'
  rw [get?_replaceColumns key, get?_replaceColumns value, if_neg elsewhere, if_neg elsewhere]
  exact ⟨rfl, rfl⟩

end Blend

namespace HFBackend

section Select

variable [Inhabited α] [Field α] [LinearOrder α] [FloorRing α] {np : Numpy α}

omit [LinearOrder α] [FloorRing α] in
@[simp] theorem length_maskedDeviation (reused correct : KVCache α) (candidate : List Nat)
    (lo last : Nat)
    (devLayers : Option Int) :
      (maskedDeviation np reused correct candidate lo last devLayers).length = last + 1 - lo := by
  simp [maskedDeviation, perTokenKvDeviation]

/-- The hull of candidates reaches from the least to the greatest of them. -/
theorem exists_hull {candidate : List Nat} (nonempty : candidate ≠ []) :
    ∃ lo last, candidate.min? = some lo ∧ candidate.max? = some last ∧ ∀ i ∈ candidate, lo ≤ i ∧
      i ≤ last := by
  obtain ⟨lo, least⟩ := Option.isSome_iff_exists.1 (List.isSome_min?_of_ne_nil nonempty)
  obtain ⟨last, greatest⟩ := Option.isSome_iff_exists.1 (List.isSome_max?_of_ne_nil nonempty)
  refine ⟨lo, last, least, greatest, ?_⟩
  intro i member
  exact ⟨(List.min?_eq_some_iff.1 least).2 i member, (List.max?_eq_some_iff.1 greatest).2 i member⟩

variable {reused correct : KVCache α} {candidate : List Nat} {lo last : Nat} {select : String}

variable (np reused correct) in
/-- Of candidates with a hull, the head of the hull's ranking is selected. -/
theorem selectCandidates_hull (known : select ∈ strategies) (least : candidate.min? = some lo)
    (greatest : candidate.max? = some last) (frac : α) (devLayers : Option Int) :
    ∃ sel, selectCandidates np reused correct candidate frac select devLayers = some sel ∧
      (∀ i, i ∈ sel ↔
        ∃ j ∈ (ranking np select
        (maskedDeviation np reused correct candidate lo last devLayers)).take
        (budget frac (last + 1 - lo)), j + lo = i) ∧
      sel.length = min (budget frac (last + 1 - lo))
        (ranking np select
          (maskedDeviation np reused correct candidate lo last devLayers)).length := by
  have selection :=
    hkvdSelect_eq_some np known
      (maskedDeviation np reused correct candidate lo last devLayers) frac lo
  rw [length_maskedDeviation] at selection
  unfold selectCandidates
  rw [least, greatest]
  exact selection

variable (np) in
/-- A call of a known strategy selects. -/
theorem exists_selection (known : select ∈ strategies) (reused correct : KVCache α)
    (candidate : List Nat) (frac : α)
    (devLayers : Option Int) :
      ∃ sel, selectCandidates np reused correct candidate frac select devLayers = some sel := by
  by_cases nonempty : candidate = []
  · exact ⟨[], by rw [nonempty]; rfl⟩
  · obtain ⟨lo, last, least, greatest, -⟩ := exists_hull nonempty
    obtain ⟨sel, selected, -⟩ :=
      selectCandidates_hull np reused correct known least greatest frac devLayers
    exact ⟨sel, selected⟩

/-- With the whole fraction every candidate is selected. -/
theorem mem_of_whole [IsStrictOrderedRing α] (argsorts : np.Argsorts) (known : select ∈ strategies)
    {frac : α} (whole : 1 ≤ frac)
    {devLayers : Option Int} {sel : List Nat}
    (selected : selectCandidates np reused correct candidate frac select devLayers = some sel) :
      ∀ t ∈ candidate, t ∈ sel := by
  intro t member
  obtain ⟨lo, last, least, greatest, hull⟩ := exists_hull (List.ne_nil_of_mem member)
  obtain ⟨sel', selected', mem, -⟩ :=
    selectCandidates_hull np reused correct known least greatest frac devLayers
  cases selected.symm.trans selected'
  have ranked :=
    ranking_perm argsorts select (maskedDeviation np reused correct candidate lo last devLayers)
  rw [length_maskedDeviation] at ranked
  have all := ranked.length_eq
  rw [List.length_range] at all
  rw [budget_of_one_le whole, ← all, List.take_length] at mem
  have inside := hull t member
  -- the ranking is a permutation of the hull, and all of it is taken
  refine (mem t).2 ⟨t - lo, ranked.mem_iff.2 (List.mem_range.2 ?_), Nat.sub_add_cancel inside.1⟩
  omega

end Select

section Call

variable [Inhabited α] [Field α] [LinearOrder α] [FloorRing α] {δ : Type} [DecidableEq δ]

theorem mem_positionsOf {action : Action} {plan : RecomputePlan} {t : Nat} :
    t ∈ positionsOf action plan ↔ ∃ it ∈ plan.items, it.action = action ∧ Inside it.newSpan t := by
  simp only [positionsOf, List.mem_flatMap, List.mem_filter, decide_eq_true_eq, List.mem_range'_1,
    Inside, and_assoc]
  refine exists_congr fun it => and_congr_right fun _ => and_congr_right fun _ => ?_
  omega

/-- The tokens that are recomputed: those that must be and those selected. -/
def recomputeIdx (plan : RecomputePlan) (sel : List Nat) : List Nat :=
  ((positionsOf .recompute plan ++ sel).mergeSort fun i j => decide (i ≤ j)).dedup

theorem mem_recomputeIdx {plan : RecomputePlan} {sel : List Nat} {t : Nat} :
    t ∈ recomputeIdx plan sel ↔ t ∈ positionsOf .recompute plan ∨ t ∈ sel := by
  rw [recomputeIdx, List.mem_dedup, List.mem_mergeSort, List.mem_append]

/-- What a call goes through: the cache it assembles and the tokens it selects. -/
structure SelectiveCall (b : HFBackend α τ Λ) (hashTokens : List Int → δ) (np : Numpy α)
    (prevKV : HostKV α)
    (prevCtx newCtx : SegmentedContext) (recomputeFrac : α) (select : String)
    (devLayers : Option Int)
    (reused : KVCache α) (sel : List Nat) : Prop where
  assembled : b.assembleReused prevKV (b.prefill newCtx.tokenIds)
    (planIncremental hashTokens (some prevCtx) newCtx .selective) prevCtx = some reused
  selected : selectCandidates np reused (b.prefill newCtx.tokenIds)
    (positionsOf .reuseShifted
      (planIncremental hashTokens
      (some prevCtx) newCtx .selective)) recomputeFrac select devLayers =
      some sel

/-- What a call returns that selected these tokens. -/
def selectiveResult (b : HFBackend α τ Λ) (hashTokens : List Int → δ) (prevKV : HostKV α)
    (prevCtx newCtx : SegmentedContext)
    (select : String) (reused : KVCache α) (sel : List Nat) : HostKV α × SelectiveStats :=
  let plan := planIncremental hashTokens (some prevCtx) newCtx .selective
  let n := newCtx.nTokens
  (.float32 (blendKV reused (b.prefill newCtx.tokenIds) (recomputeIdx plan sel)),
    { totalTokens := n
      mandatoryRecompute := (positionsOf .recompute plan).length
      candidateTokens := (positionsOf .reuseShifted plan).length
      selectedFromCandidates := sel.length
      recomputedTokens := (recomputeIdx plan sel).length
      recomputeFraction := if n = 0 then 0 else ((recomputeIdx plan sel).length : ℚ) / n
      select := select
      lengthChanged := prevKV.seqLen ≠ n })

theorem recomputeSelective_eq_some_iff {b : HFBackend α τ Λ} {hashTokens : List Int → δ}
    {np : Numpy α} {prevKV : HostKV α}
    {prevCtx newCtx : SegmentedContext} {frac : α} {select : String} {devLayers : Option Int}
    {result : HostKV α × SelectiveStats} :
    b.recomputeSelective hashTokens np prevKV prevCtx newCtx frac select devLayers = some result ↔
      ∃ reused sel,
        SelectiveCall b hashTokens np prevKV prevCtx newCtx frac select devLayers reused sel ∧
        selectiveResult b hashTokens prevKV prevCtx newCtx select reused sel = result := by
  simp only [recomputeSelective, bind, Option.bind_eq_some_iff, pure, Option.some.injEq]
  constructor
  · rintro ⟨reused, assembled, sel, selected, rfl⟩
    exact ⟨reused, sel, ⟨assembled, selected⟩, rfl⟩
  · rintro ⟨reused, sel, call, rfl⟩
    exact ⟨reused, call.assembled, sel, call.selected, rfl⟩

end Call

end HFBackend

end Dexa.Engine
