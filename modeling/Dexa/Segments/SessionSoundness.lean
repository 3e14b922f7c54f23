import Mathlib.Algebra.Order.Ring.Int
import Dexa.Segments.Session

/-! # A session holds the KV of its text

`Sound` is the invariant of one host-side session: its cache, and the cache of each
version it keeps, is the prefill of the segments beside it.  Every operation keeps it
(`call_sound`), so does every run over a family of branched sessions
(`family_sound`).

The history of one version is followed separately: `LineageHolds` says what the
version committed under a label was committed with, and any call but a new commit
under the same label keeps it.
-/

namespace Dexa.Segments

open Dexa.Core Dexa.Lib Dexa.Engine

variable {α : Type} {δ : Type} [DecidableEq δ] {m : Model α} {hashTokens : List Int → δ}

/-- The cache a host-side session owes to a list of segments. -/
def prefillOf (m : Model α) (segments : List Segment) : KVCache α :=
  m.prefill (⟨segments⟩ : SegmentedContext).tokenIds

structure Sound (m : Model α) (s : SegmentedSession α) : Prop where
  onHost : s.onDevice = false
  resident : s.ctx.segments ≠ [] → s.kv = some (prefillOf m s.ctx.segments)
  committed : ∀ label v, s.versions.get? label = some v → v.segments ≠ [] →
    v.kv = some (prefillOf m v.segments)

namespace SegmentedSession

theorem init_sound (segments : List Segment) : Sound m (init m segments false) := by
  by_cases h : segments = []
  · subst h
    exact ⟨rfl, fun nonempty => absurd rfl nonempty, fun label v found => by simp [init] at found⟩
  · refine ⟨by simp [init, h], fun _ => by simp [init, h, prefillOf], ?_⟩
    intro label v found
    simp [init, h] at found

theorem finish_sound {s : SegmentedSession α} (sound : Sound m s) (newCtx : SegmentedContext)
    (applied : TorchKVSession.ApplyStats) :
    Sound m (finish { s with kv := some (m.prefill newCtx.tokenIds) } newCtx applied) :=
  ⟨sound.onHost, fun _ => by simp [finish, sound.onHost, prefillOf], sound.committed⟩

theorem readKV_onHost {s : SegmentedSession α} (onHost : s.onDevice = false) :
    s.readKV m = (.ok s.kv, s) := by
  simp [readKV, onHost]

theorem commit_onHost {s : SegmentedSession α} (onHost : s.onDevice = false) (label : String) :
    s.commit m label =
      (.ok (), { s with versions := s.versions.set label ⟨s.ctx.segments, s.kv⟩ }) := by
  simp [commit, readKV_onHost onHost]

theorem rollback_onHost {s : SegmentedSession α} (onHost : s.onDevice = false) {label : String}
    {v : Version α}
    (found : s.versions.get? label = some v) :
    s.rollback label = (.ok (), { s with ctx := ⟨v.segments⟩, kv := v.kv }) := by
  simp [rollback, found, onHost]

theorem branch_onHost {s : SegmentedSession α} (onHost : s.onDevice = false) :
    s.branch m = { init m [] false with ctx := ⟨s.ctx.segments⟩, kv := s.kv } := by
  simp [branch, onHost]

theorem commit_sound {s : SegmentedSession α} (sound : Sound m s) (label : String) :
    Sound m (s.commit m label).2 := by
  rw [commit_onHost sound.onHost]
  refine ⟨sound.onHost, sound.resident, ?_⟩
  intro label' v found nonempty
  rw [Dict.get?_set] at found
  split at found
  · obtain rfl := Option.some.inj found
    exact sound.resident nonempty
  · exact sound.committed label' v found nonempty

theorem rollback_sound {s : SegmentedSession α} (sound : Sound m s) (label : String) :
    Sound m (s.rollback label).2 ∧ (s.rollback label).2.versions = s.versions := by
  cases found : s.versions.get? label with
  | none => simpa [rollback, found] using sound
  | some v =>
    rw [rollback_onHost sound.onHost found]
    exact ⟨⟨sound.onHost, sound.committed label v found, sound.committed⟩, rfl⟩

theorem branch_sound {s : SegmentedSession α} (sound : Sound m s) : Sound m (s.branch m) := by
  rw [branch_onHost sound.onHost]
  refine ⟨rfl, sound.resident, ?_⟩
  intro label v found
  simp [init] at found

variable [Inhabited α]

/-- A mutation of a sound session lands on the prefill of the new context, whether it
    starts cold or rebuilds the resident cache. -/
theorem apply_sound_eq (causal : Causal m) (injective : Function.Injective hashTokens)
    {s : SegmentedSession α} (sound : Sound m s) (newCtx : SegmentedContext) :
    ∃ applied, s.apply m hashTokens newCtx =
      (.ok applied, finish { s with kv := some (m.prefill newCtx.tokenIds) } newCtx applied) := by
  by_cases cold : ((s.dev.isNone && s.kv.isNone) || s.ctx.segments.isEmpty) = true
  · exact ⟨_, by simp only [apply, sound.onHost, cold, if_true, Bool.false_eq_true, if_false]; rfl⟩
  · have nonempty : s.ctx.segments ≠ [] := by
      intro h
      simp [h] at cold
    have resident : s.kv = some (m.prefill s.ctx.tokenIds) := sound.resident nonempty
    have warm : s.ctx.segments.isEmpty = false := by simpa using nonempty
    have rebuilt := recomputeIncremental_prefill causal injective s.ctx newCtx
    let work := (m.recomputeIncremental hashTokens (m.prefill s.ctx.tokenIds) s.ctx newCtx).2
    refine ⟨⟨work.reusedTokens, work.recomputedTokens, work.totalTokens⟩, ?_⟩
    simp only [apply, sound.onHost, resident, warm, rebuilt, work, Option.isNone_some,
      Bool.and_false, Bool.or_false,
      Bool.false_eq_true, if_false]

theorem apply_sound (causal : Causal m) (injective : Function.Injective hashTokens)
    {s : SegmentedSession α} (sound : Sound m s) (newCtx : SegmentedContext) :
    Sound m (s.apply m hashTokens newCtx).2 ∧
      (s.apply m hashTokens newCtx).2.versions = s.versions := by
  obtain ⟨applied, result⟩ := apply_sound_eq causal injective sound newCtx
  rw [result]
  exact ⟨finish_sound sound newCtx applied, rfl⟩

/-- Every call, also one that raises, keeps a session sound and touches no version but
    the one it commits. -/
theorem call_sound (causal : Causal m) (injective : Function.Injective hashTokens)
    {s : SegmentedSession α} (sound : Sound m s) (c : Call) :
    Sound m (s.call m hashTokens c).2 ∧
      ∀ label, c ≠ .commit label →
        (s.call m hashTokens c).2.versions.get? label = s.versions.get? label := by
  cases c with
  | append segment =>
    obtain ⟨kept, versions⟩ := apply_sound causal injective sound ⟨s.ctx.segments ++ [segment]⟩
    exact ⟨kept, fun label _ => congrArg (·.get? label) versions⟩
  | edit ref segment =>
    simp only [call, edit]
    cases s.indexOf ref with
    | ok i =>
      obtain ⟨kept, versions⟩ := apply_sound causal injective sound ⟨s.ctx.segments.set i segment⟩
      exact ⟨kept, fun label _ => congrArg (·.get? label) versions⟩
    | error e => exact ⟨sound, fun _ _ => rfl⟩
  | delete ref =>
    simp only [call, delete]
    cases s.indexOf ref with
    | ok i =>
      obtain ⟨kept, versions⟩ := apply_sound causal injective sound ⟨s.ctx.segments.eraseIdx i⟩
      exact ⟨kept, fun label _ => congrArg (·.get? label) versions⟩
    | error e => exact ⟨sound, fun _ _ => rfl⟩
  | commit label =>
    refine ⟨commit_sound sound label, fun label' other => ?_⟩
    have distinct : label ≠ label' := fun same => other (congrArg Call.commit same)
    simp only [call, commit_onHost sound.onHost, Dict.get?_set_ne _ _ distinct]
  | rollback label =>
    obtain ⟨kept, versions⟩ := rollback_sound sound label
    exact ⟨kept, fun label' _ => congrArg (·.get? label') versions⟩
  | branch => exact ⟨sound, fun _ _ => rfl⟩

end SegmentedSession

/-! ## Runs of a family -/

variable [Inhabited α]

theorem familyStep_getElem?_other {family : List (SegmentedSession α)} {e : Nat × Call} {i : Nat}
    (other : e.1 ≠ i) (inside : i < family.length) :
    (familyStep m hashTokens family e).2[i]? = family[i]? := by
  unfold familyStep
  cases family[e.1]? with
  | none => rfl
  | some s =>
    have kept : (family.set e.1 (s.call m hashTokens e.2).2)[i]? = family[i]? :=
      List.getElem?_set_ne other
    simp only
    split
    · rw [List.getElem?_append_left (by simpa using inside), kept]
    · exact kept

theorem familyStep_getElem?_self {family : List (SegmentedSession α)} {i : Nat}
    {s : SegmentedSession α}
    (c : Call) (present : family[i]? = some s) :
    (familyStep m hashTokens family (i, c)).2[i]? = some (s.call m hashTokens c).2 := by
  have inside : i < family.length := (List.getElem?_eq_some_iff.1 present).1
  have updated : (family.set i (s.call m hashTokens c).2)[i]? = some (s.call m hashTokens c).2 :=
    List.getElem?_set_self inside
  simp only [familyStep, present]
  split
  · rw [List.getElem?_append_left (by simpa using inside), updated]
  · exact updated

/-- Every session of the family is sound. -/
def FamilySound (m : Model α) (family : List (SegmentedSession α)) : Prop := ∀ s ∈ family, Sound m s

theorem familyStep_sound (causal : Causal m) (injective : Function.Injective hashTokens)
    (family : List (SegmentedSession α)) (e : Nat × Call) (sound : FamilySound m family) :
    FamilySound m (familyStep m hashTokens family e).2 := by
  unfold familyStep
  cases present : family[e.1]? with
  | none => exact sound
  | some s =>
    have parent := sound s (List.mem_of_getElem? present)
    have updated : FamilySound m (family.set e.1 (s.call m hashTokens e.2).2) := by
      intro t member
      rcases List.mem_or_eq_of_mem_set member with member | rfl
      · exact sound t member
      · exact (SegmentedSession.call_sound causal injective parent e.2).1
    simp only
    split
    · intro t member
      rcases List.mem_append.1 member with member | member
      · exact updated t member
      · obtain rfl := List.mem_singleton.1 member
        exact SegmentedSession.branch_sound parent
    · exact updated

theorem family_sound (causal : Causal m) (injective : Function.Injective hashTokens)
    {family : List (SegmentedSession α)} (sound : FamilySound m family)
    (events : List (Nat × Call)) :
    FamilySound m ((sessionFamily m hashTokens).exec family events) :=
  Machine.invariant_exec (familyStep_sound causal injective) sound events

/-- Session `i` of a sound family keeps `v` under `label`. -/
def LineageHolds (m : Model α) (i : Nat) (label : String) (v : Version α)
    (family : List (SegmentedSession α)) :
    Prop :=
  FamilySound m family ∧ ∃ s, family[i]? = some s ∧ s.versions.get? label = some v

theorem familyStep_lineage (causal : Causal m) (injective : Function.Injective hashTokens) {i : Nat}
    {label : String} {v : Version α} (family : List (SegmentedSession α)) (e : Nat × Call)
    (holds : LineageHolds m i label v family) (other : e ≠ (i, .commit label)) :
    LineageHolds m i label v (familyStep m hashTokens family e).2 := by
  obtain ⟨sound, s, present, found⟩ := holds
  refine ⟨familyStep_sound causal injective family e sound, ?_⟩
  obtain ⟨j, c⟩ := e
  by_cases same : j = i
  · subst same
    refine ⟨_, familyStep_getElem?_self c present, ?_⟩
    have uncommitted : c ≠ .commit label := fun h => other (by rw [h])
    rw [(SegmentedSession.call_sound causal injective
      (sound s (List.mem_of_getElem? present)) c).2 label
      uncommitted, found]
  · have inside : i < family.length := (List.getElem?_eq_some_iff.1 present).1
    exact ⟨s, by rw [familyStep_getElem?_other same inside, present], found⟩

/-- What was committed under a label is kept by every run without a new commit under it. -/
theorem lineage_exec (causal : Causal m) (injective : Function.Injective hashTokens) {i : Nat}
    {label : String} {v : Version α} {family : List (SegmentedSession α)}
    (holds : LineageHolds m i label v family) {events : List (Nat × Call)}
    (uncommitted : (i, .commit label) ∉ events) :
    LineageHolds m i label v ((sessionFamily m hashTokens).exec family events) := by
  induction events generalizing family with
  | nil => exact holds
  | cons e events ih =>
    rw [List.mem_cons, not_or] at uncommitted
    exact ih
      (familyStep_lineage causal injective family e holds (Ne.symm uncommitted.1)) uncommitted.2

variable (hashTokens) in
theorem familyStep_branch {family : List (SegmentedSession α)} {i : Nat}
    {parent : SegmentedSession α}
    (present : family[i]? = some parent) :
    (familyStep m hashTokens family (i, .branch)).2 = family ++ [parent.branch m] := by
  obtain ⟨inside, value⟩ := List.getElem?_eq_some_iff.1 present
  simp only [familyStep, present, if_true, SegmentedSession.call, ← value, List.set_getElem_self]

/-- In every state a family of host-side sessions reaches: a session with segments holds
    the prefill of its text; a version committed on a non-empty context is still the
    prefill of what it was committed with, and rolling back restores both; a branch adds
    a session with its parent's segments and cache. -/
theorem sessionFamily_holds_kv_of_text (causal : Causal m)
    (injective : Function.Injective hashTokens)
    (segments : List Segment) (events : List (Nat × Call)) :
    let run := (sessionFamily m hashTokens).exec [SegmentedSession.init m segments false]
    (∀ s ∈ run events, s.ctx.segments ≠ [] → s.kv = some (m.prefill s.ctx.tokenIds)) ∧
    (∀ before after i label s, events = before ++ (i, .commit label) :: after →
      (run before)[i]? = some s → s.ctx.segments ≠ [] → (i, Call.commit label) ∉ after →
      ∃ t, (run events)[i]? = some t ∧
        t.versions.get? label = some ⟨s.ctx.segments, some (m.prefill s.ctx.tokenIds)⟩ ∧
        t.rollback label =
          (.ok (), { t with ctx := s.ctx, kv := some (m.prefill s.ctx.tokenIds) })) ∧
    (∀ i parent, (run events)[i]? = some parent →
      ∃ child, run (events ++ [(i, .branch)]) = run events ++ [child] ∧
        child.ctx.segments = parent.ctx.segments ∧ child.kv = parent.kv) := by
  intro run
  have start : FamilySound m [SegmentedSession.init m segments false] := by
    intro s member
    obtain rfl := List.mem_singleton.1 member
    exact SegmentedSession.init_sound segments
  have sound : ∀ events, FamilySound m (run events) := family_sound causal injective start
  refine ⟨fun s member => (sound events s member).resident, ?_, ?_⟩
  · intro before after i label s split present nonempty uncommitted
    have before_sound := sound before s (List.mem_of_getElem? present)
    have committed : LineageHolds m i label ⟨s.ctx.segments, some (m.prefill s.ctx.tokenIds)⟩
        ((sessionFamily m hashTokens).next (run before) (i, .commit label)) := by
      have stepped : (familyStep m hashTokens (run before) (i, .commit label)).2[i]? =
          some (s.call m hashTokens (.commit label)).2 := familyStep_getElem?_self _ present
      refine ⟨familyStep_sound causal injective _ _ (sound before), _, stepped, ?_⟩
      simp only [SegmentedSession.call, SegmentedSession.commit_onHost before_sound.onHost,
        Dict.get?_set_self,
        before_sound.resident nonempty, prefillOf]
    obtain ⟨final_sound, t, found, version⟩ := lineage_exec causal injective committed uncommitted
    have reached : run events = (sessionFamily m hashTokens).exec
        ((sessionFamily m hashTokens).next (run before) (i, .commit label)) after := by
      rw [split]
      exact Machine.exec_append _ _ _ _
    rw [reached]
    refine ⟨t, found, version, ?_⟩
    rw [SegmentedSession.rollback_onHost
      (final_sound t (List.mem_of_getElem? found)).onHost version]
  · intro i parent present
    have parent_sound := sound events parent (List.mem_of_getElem? present)
    refine ⟨parent.branch m, ?_, ?_, ?_⟩
    · have stepped : (sessionFamily m hashTokens).next (run events) (i, .branch) = run events ++
        [parent.branch m] :=
        familyStep_branch hashTokens present
      exact (Machine.exec_append _ _ _ _).trans stepped
    · rw [SegmentedSession.branch_onHost parent_sound.onHost]
    · rw [SegmentedSession.branch_onHost parent_sound.onHost]

/-! ## A causal model that can be run

Entry `i` of its one layer is the sum of the tokens `0..i`. -/

def runningSums (acc : Int) : List Int → List Int
  | [] => []
  | t :: ts => (acc + t) :: runningSums (acc + t) ts

@[simp] theorem length_runningSums (acc : Int) (ts : List Int) :
    (runningSums acc ts).length = ts.length := by
  induction ts generalizing acc with
  | nil => rfl
  | cons t ts ih => exact congrArg (· + 1) (ih (acc + t))

theorem runningSums_append (acc : Int) (ts more : List Int) :
    runningSums acc (ts ++ more) = runningSums acc ts ++ runningSums
      ((runningSums acc ts).getLastD acc) more := by
  induction ts generalizing acc with
  | nil => rfl
  | cons t ts ih => simp only [List.cons_append, runningSums, ih, List.getLastD_cons]

theorem runningSums_getElem? (acc : Int) (ts : List Int) (i : Nat) :
    (runningSums acc ts)[i]? = if i < ts.length then some (acc + (ts.take (i + 1)).sum)
      else none := by
  induction ts generalizing acc i with
  | nil => simp [runningSums]
  | cons t ts ih =>
    cases i with
    | zero => simp [runningSums]
    | succ i =>
      simp only [runningSums, List.getElem?_cons_succ, ih, List.length_cons,
        Nat.add_lt_add_iff_right,
        List.take_succ_cons, List.sum_cons, Int.add_assoc]

/-- A one-head, one-channel array. -/
def column (xs : List Int) : NDArray Int :=
  NDArray.ofFn [1, xs.length, 1] fun ix => xs.getD (ix.getD 1 0) 0

/-- The cells of such an array. -/
def cells (a : NDArray Int) : List Int :=
  (List.range (a.shape.getD 1 0)).map fun i => a.getD [0, i, 0] 0

theorem cells_column (xs : List Int) : cells (column xs) = xs := by
  apply List.ext_getElem?
  intro i
  by_cases h : i < xs.length
  · have inside : NDArray.InBounds [1, xs.length, 1] [0, i, 0] := ⟨by omega, h, by omega, trivial⟩
    simp [cells, column, NDArray.getD, NDArray.get?_ofFn_inBounds _ inside, h]
  · simp [cells, column, h]

def sumModel : Model Int where
  spec := { name := "sums", nLayers := 1, nQHeads := 1, nKvHeads := 1, headDim := 1, hiddenSize := 1 }
  kvForward past _ tokens :=
    let old := match past with
      | some (l :: _) => cells l.key
      | _ => []
    let sums := old ++ runningSums (old.getLastD 0) tokens
    [⟨column sums, column sums⟩]

theorem sumModel_prefill_layers (tokens : List Int) :
    (sumModel.prefill tokens).layers =
      [⟨column (runningSums 0 tokens), column (runningSums 0 tokens)⟩] := rfl

theorem sumModel_causal : Causal sumModel where
  layers_length _ := rfl
  layer_shape tokens l member := by
    rw [sumModel_prefill_layers, List.mem_singleton] at member
    subst member
    simp [column, sumModel]
  entry tokens tokens' i hi hi' same li l l' hl hl' h c := by
    rw [sumModel_prefill_layers] at hl hl'
    have member := List.mem_singleton.1 (List.mem_of_getElem? hl)
    have member' := List.mem_singleton.1 (List.mem_of_getElem? hl')
    subst member member'
    have sums : (runningSums 0 tokens).getD i 0 = (runningSums 0 tokens').getD i 0 := by
      simp only [List.getD_eq_getElem?_getD, runningSums_getElem?, hi, hi', if_true, same]
    have bounds : NDArray.InBounds [1, (runningSums 0 tokens).length, 1] [h, i, c] ↔
        NDArray.InBounds [1, (runningSums 0 tokens').length, 1] [h, i, c] := by
      simp [hi, hi']
    have agree :
      (column (runningSums 0 tokens)).get? [h, i, c] = (column (runningSums 0 tokens')).get? [h, i,
      c] := by
      simp only [column, NDArray.get?_ofFn, bounds, List.getD_cons_succ, List.getD_cons_zero, sums]
    exact ⟨agree, agree⟩
  forward tokens more nonempty := by
    rw [sumModel_prefill_layers]
    simp only [sumModel, cells_column, List.nil_append, List.getLastD_nil, runningSums_append]

theorem sessionFamily_holds_kv_of_text_sums :
    let run := (sessionFamily sumModel (id : List Int → List Int)).exec
      [SegmentedSession.init sumModel [⟨"a", [1, 2], "context"⟩] false]
      [(0, .append ⟨"b", [3], "context"⟩), (0, .commit "v"),
        (0, .edit (.name "a") ⟨"a", [], "context"⟩),
        (0, .branch), (0, .rollback "v"), (1, .delete (.index (-1))), (1, .rollback "v")]
    run.length = 2 ∧ ∀ s ∈ run, s.ctx.segments ≠ [] →
      s.kv = some (sumModel.prefill s.ctx.tokenIds) :=
  ⟨by decide +kernel, (sessionFamily_holds_kv_of_text sumModel_causal Function.injective_id _ _).1⟩

end Dexa.Segments
