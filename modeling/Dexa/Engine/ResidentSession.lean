import Dexa.Engine.TorchSession
import Dexa.Lib.Lists
import Dexa.Lib.Machine
import Dexa.Segments.SessionSoundness

/-! # Runs of device-resident sessions

`TorchKVSession` crops its cache in place and forwards the changed tail;
`recompute_incremental` slices a host copy and extends it.  Over a causal model both
land on the prefill of the text, so a run of mutations never has to be compared with
the offline path step by step: each mutation keeps `Holds` on its own.

The session keeps every layer a pass returns, where `_cache_to_kvcache` keeps the first
`n_layers`; `WholePass` says that these are the same.
-/

namespace Dexa.Engine

open Dexa.Core Dexa.Lib Dexa.Segments

variable {α : Type} [Inhabited α] {m : Model α} {δ : Type} [DecidableEq δ]
  {hashTokens : List Int → δ}

/-- A pass returns one layer of cache for each layer of the model. -/
def WholePass (m : Model α) : Prop :=
  ∀ positionIds tokenIds, (m.kvForward none positionIds tokenIds).length = m.spec.nLayers

omit [Inhabited α] in
theorem kvForward_prefill (whole : WholePass m) (tokens : List Int) :
    m.kvForward none (arange 0 tokens.length) tokens = (m.prefill tokens).layers := by
  have all := List.take_of_length_le (le_of_eq (whole (arange 0 (0 + tokens.length)) tokens))
  rw [Model.prefill, Model.cacheToKVCache, all, Nat.zero_add]

namespace TorchKVSession

/-- The session holds the layers of a prefill of its text. -/
def Resident (m : Model α) (s : TorchKVSession α) : Prop :=
  s.cache = some (m.prefill s.tokenIds).layers

/-- The session is resident, or nothing was ever forwarded. -/
def Holds (m : Model α) (s : TorchKVSession α) : Prop := s = {} ∨ Resident m s

omit [Inhabited α] in
theorem toKVCache_of_resident (causal : Causal m) {s : TorchKVSession α} (resident : Resident m s) :
    s.toKVCache m = some (m.prefill s.tokenIds) := by
  have layers : (m.prefill s.tokenIds).layers.take m.spec.nLayers = (m.prefill s.tokenIds).layers :=
    List.take_of_length_le (le_of_eq (causal.layers_length s.tokenIds))
  have positions : arange 0 s.n = (m.prefill s.tokenIds).positions :=
    (prefill_positions s.tokenIds).symm
  rw [toKVCache, resident, Option.map_some, Model.cacheToKVCache, layers, positions]
  rfl

omit [Inhabited α] in
theorem append_forwarded (s : TorchKVSession α) (tokens : List Int) :
    (append m s tokens).1 = tokens.length := by
  unfold append
  split
  · rename_i empty
    simp [empty]
  · rfl

omit [Inhabited α] in
@[simp] theorem append_tokenIds (s : TorchKVSession α) (tokens : List Int) :
    (append m s tokens).2.tokenIds = s.tokenIds ++ tokens := by
  unfold append
  split
  · rename_i empty
    simp [empty]
  · rfl

@[simp] theorem truncate_tokenIds (s : TorchKVSession α) (k : Nat) :
    (s.truncate k).tokenIds = s.tokenIds.take k := by
  unfold truncate
  split
  · split <;> rfl
  · rfl

omit [Inhabited α] in
theorem append_resident (causal : Causal m) (whole : WholePass m) {s : TorchKVSession α}
    (resident : Resident m s)
    (tokens : List Int) : Resident m (append m s tokens).2 := by
  by_cases empty : tokens = []
  · rw [append, if_pos empty]
    exact resident
  · have forwarded := causal.forward s.tokenIds tokens empty
    rw [← List.length_append, kvForward_prefill whole] at forwarded
    rw [append, if_neg empty, Resident, resident, n, ← List.length_append, forwarded]

/-- Past the end `truncate` keeps the cache, where `_slice_kv` copies all of it. -/
theorem truncate_resident (causal : Causal m) {s : TorchKVSession α} (resident : Resident m s)
    (k : Nat) :
    Resident m (s.truncate k) := by
  have cut :
    (m.prefill s.tokenIds).layers.map (sliceLayer k) = (m.prefill (s.tokenIds.take k)).layers :=
    congrArg KVCache.layers (sliceKV_prefill causal s.tokenIds k)
  unfold truncate
  rw [resident]
  split
  · rename_i layers cached
    obtain rfl := Option.some.inj cached
    split
    · rename_i past
      have all : s.tokenIds.take k = s.tokenIds := List.take_of_length_le past
      rw [all]
      rfl
    · rw [Resident, cut]
  · contradiction

/-- From the segmentation it holds, the session moves to the new text. -/
theorem apply_tokenIds (injective : Function.Injective hashTokens) {s : TorchKVSession α}
    {prev : SegmentedContext}
    (held : prev.tokenIds = s.tokenIds) (new : SegmentedContext) :
    (apply m hashTokens s prev new).2.tokenIds = new.tokenIds := by
  have same := take_reusedExactTokens hashTokens injective prev new
  simp only [apply, editSuffix, append_tokenIds, truncate_tokenIds, ← held, same,
    List.take_append_drop]

omit [Inhabited α] in
/-- A fresh session forwards its first tokens as a prefill. -/
theorem append_fresh (whole : WholePass m) {tokens : List Int} (nonempty : tokens ≠ []) :
    Resident m (append m {} tokens).2 := by
  have forwarded := kvForward_prefill whole tokens
  rw [append, if_neg nonempty, Resident, n, List.length_nil, Nat.zero_add, forwarded]
  rfl

omit [Inhabited α] in
theorem append_holds (causal : Causal m) (whole : WholePass m) {s : TorchKVSession α}
    (holds : Holds m s)
    (tokens : List Int) : Holds m (append m s tokens).2 := by
  cases holds with
  | inl fresh =>
    by_cases empty : tokens = []
    · exact .inl (by rw [append, if_pos empty, fresh])
    · exact .inr (fresh ▸ append_fresh whole empty)
  | inr resident => exact .inr (append_resident causal whole resident tokens)

theorem truncate_holds (causal : Causal m) {s : TorchKVSession α} (holds : Holds m s) (k : Nat) :
    Holds m (s.truncate k) := by
  cases holds with
  | inl fresh => exact .inl (by simp [fresh, truncate])
  | inr resident => exact .inr (truncate_resident causal resident k)

omit [Inhabited α] in
theorem new_holds (causal : Causal m) (whole : WholePass m) (tokens : List Int) :
    Holds m (new m tokens) := by
  unfold new
  split
  · exact .inl rfl
  · exact append_holds causal whole (.inl rfl) tokens

end TorchKVSession

open TorchKVSession

/-- The calls that change a session or fork it. -/
inductive Mutation where
  | append (tokens : List Int)
  | truncate (k : Nat)
  | editSuffix (keep : Nat) (newTail : List Int)
  | apply (prevCtx newCtx : SegmentedContext)
  | clone

/-- A call on one session: the session after it, and the clone it made. -/
def mutate (m : Model α) (hashTokens : List Int → δ) (s : TorchKVSession α) :
    Mutation → TorchKVSession α × Option (TorchKVSession α)
  | .append tokens => ((append m s tokens).2, none)
  | .truncate k => (s.truncate k, none)
  | .editSuffix keep newTail => ((editSuffix m s keep newTail).2, none)
  | .apply prevCtx newCtx => ((apply m hashTokens s prevCtx newCtx).2, none)
  | .clone => (s, some s.clone)

/-- The sessions of one process: a call on session `e.1`, whose clone joins at the end. -/
def torchFamily (m : Model α) (hashTokens : List Int → δ) : Machine (List (TorchKVSession α))
    (Nat × Mutation) Unit where
  step family e :=
    ((), match family[e.1]? with
      | none => family
      | some s => family.set e.1 (mutate m hashTokens s e.2).1 ++ (mutate m hashTokens s e.2).2.toList)

variable (hashTokens) in
/-- Each call is made of appends and truncations: what these two keep, a run keeps. -/
theorem mutate_kept {P : TorchKVSession α → Prop}
    (appended : ∀ s tokens, P s → P (append m s tokens).2)
    (truncated : ∀ s k, P s → P (s.truncate k)) {s : TorchKVSession α} (holds : P s)
    (call : Mutation) :
    P (mutate m hashTokens s call).1 ∧ ∀ c ∈ (mutate m hashTokens s call).2.toList, P c := by
  have edited : ∀ keep newTail, P (editSuffix m s keep newTail).2 :=
    fun keep newTail => appended _ newTail (truncated s keep holds)
  cases call with
  | append tokens => exact ⟨appended s tokens holds, List.forall_mem_nil P⟩
  | truncate k => exact ⟨truncated s k holds, List.forall_mem_nil P⟩
  | editSuffix keep newTail => exact ⟨edited keep newTail, List.forall_mem_nil P⟩
  | apply prevCtx newCtx => exact ⟨edited _ _, List.forall_mem_nil P⟩
  | clone => exact ⟨holds, List.forall_mem_singleton.2 holds⟩

variable (hashTokens) in
theorem torchFamily_kept {P : TorchKVSession α → Prop}
    (appended : ∀ s tokens, P s → P (append m s tokens).2)
    (truncated : ∀ s k, P s → P (s.truncate k)) {family : List (TorchKVSession α)}
    (holds : ∀ s ∈ family, P s)
    (calls : List (Nat × Mutation)) : ∀ s ∈ (torchFamily m hashTokens).exec family calls, P s := by
  have preserved : ∀ family e, (∀ s ∈ family, P s) → ∀ s ∈ (torchFamily m hashTokens).next family e,
    P s := by
    intro family e holds
    simp only [Machine.next, torchFamily]
    cases present : family[e.1]? with
    | none => exact holds
    | some s =>
      obtain ⟨changed, cloned⟩ :=
        mutate_kept hashTokens appended truncated (holds s (List.mem_of_getElem? present)) e.2
      intro t member
      cases List.mem_append.1 member with
      | inl old => exact forall_mem_set holds changed t old
      | inr clone => exact cloned t clone
  exact Machine.invariant_exec preserved holds calls

/-- `apply` from the segmentation a resident session holds ends where `recompute_incremental`
    ends, on the prefill of the new text and with the same counts; and in every state a run
    reaches, each session still holds the prefill of its text (one that was built without
    tokens may still hold nothing). -/
theorem torchSession_refines_recomputeIncremental (causal : Causal m) (whole : WholePass m)
    (injective : Function.Injective hashTokens) :
    (∀ (s : TorchKVSession α) (prev new : SegmentedContext), Resident m s →
      s.tokenIds = prev.tokenIds →
      let offline := m.recomputeIncremental hashTokens (m.prefill prev.tokenIds) prev new
      let resident := apply m hashTokens s prev new
      resident.2.tokenIds = new.tokenIds ∧ resident.2.toKVCache m = some offline.1 ∧
        offline.1 = m.prefill new.tokenIds ∧ resident.1.reusedTokens = offline.2.reusedTokens ∧
        resident.1.recomputedTokens = offline.2.recomputedTokens ∧
        resident.1.totalTokens = offline.2.totalTokens) ∧
    (∀ family calls, (∀ s ∈ family, Resident m s) →
      ∀ s ∈ (torchFamily m hashTokens).exec family calls,
        s.toKVCache m = some (m.prefill s.tokenIds)) ∧
    (∀ (texts : List (List Int)) calls,
      ∀ s ∈ (torchFamily m hashTokens).exec (texts.map (TorchKVSession.new m)) calls,
      s = {} ∨ s.toKVCache m = some (m.prefill s.tokenIds)) := by
  refine ⟨?_, ?_, ?_⟩
  · intro s prev new resident held offline moved
    have text : moved.2.tokenIds = new.tokenIds := apply_tokenIds injective held.symm new
    have exact_ : offline.1 = m.prefill new.tokenIds :=
      recomputeIncremental_prefill causal injective prev new
    have after : Resident m moved.2 :=
      append_resident causal whole (truncate_resident causal resident _) _
    refine ⟨text, ?_, exact_, rfl, append_forwarded _ _,
      (SegmentedContext.length_tokenIds new).symm⟩
    rw [toKVCache_of_resident causal after, text, exact_]
  · intro family calls start s member
    have resident :=
      torchFamily_kept hashTokens (fun _ tokens r => append_resident causal whole r tokens)
      (fun _ k r => truncate_resident causal r k) start calls s member
    exact toKVCache_of_resident causal resident
  · intro texts calls s member
    have start : ∀ s ∈ texts.map (TorchKVSession.new m), Holds m s := by
      intro s built
      obtain ⟨tokens, -, rfl⟩ := List.mem_map.1 built
      exact new_holds causal whole tokens
    have holds := torchFamily_kept hashTokens (fun _ tokens h => append_holds causal whole h tokens)
      (fun _ k h => truncate_holds causal h k) start calls s member
    exact holds.imp id (toKVCache_of_resident causal)

theorem torchSession_refines_recomputeIncremental_text_sums :
    let prev : SegmentedContext :=
      ⟨[⟨"sys", [1, 2], "system"⟩, ⟨"none", [], "context"⟩, ⟨"doc", [3], "context"⟩]⟩
    let new : SegmentedContext := ⟨[⟨"sys", [1, 2], "system"⟩, ⟨"doc", [4, 5], "context"⟩]⟩
    let resident : TorchKVSession Int := fromKVCache (sumModel.prefill prev.tokenIds)
    let run := (torchFamily sumModel (id : List Int → List Int)).exec [resident]
      [(0, .apply prev new), (0, .clone), (1, .truncate 9), (0, .editSuffix 1 [7]),
        (1, .append [6])]
    (apply sumModel (id : List Int → List Int) resident prev new).2.toKVCache sumModel =
        some (sumModel.recomputeIncremental (id : List Int → List Int)
          (sumModel.prefill prev.tokenIds) prev new).1 ∧
      run.map (·.tokenIds) = [[1, 7], [1, 2, 4, 5, 6]] ∧
      ∀ s ∈ run, s.toKVCache sumModel = some (sumModel.prefill s.tokenIds) := by
  have injective : Function.Injective (id : List Int → List Int) := Function.injective_id
  have refines :=
    torchSession_refines_recomputeIncremental sumModel_causal (fun _ _ => rfl) injective
  exact ⟨(refines.1 (fromKVCache (sumModel.prefill _)) _ _ rfl rfl).2.1, by decide +kernel,
    refines.2.1 _ _ (List.forall_mem_singleton.2 rfl)⟩

end Dexa.Engine
