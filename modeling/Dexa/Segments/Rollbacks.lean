import Dexa.Segments.SessionSoundness

/-! # Rollback of device-resident sessions

On the device the KV of a version is materialised at its commit and rebuilt at its rollback.  A
session that never had a segment has no KV, and its version has none: `rollback` assigns the
segments of such a version and then raises, where the host path restores that there is no KV.

What a session held at its last commit of a label is recorded beside the family, so that a rollback
is compared with the history and not with the version it reads.
-/

namespace Dexa.Segments

open Dexa.Core Dexa.Lib Dexa.Engine

variable {α : Type} [Inhabited α] {δ : Type} [DecidableEq δ] {m : Model α}
  {hashTokens : List Int → δ}

omit [Inhabited α] in
/-- A session rebuilt from the KV of a session has that KV. -/
theorem toKVCache_fromKVCache {d : TorchKVSession α} {kv : KVCache α}
    (materialized : d.toKVCache m = some kv) :
    (TorchKVSession.fromKVCache kv).toKVCache m = some kv := by
  obtain ⟨layers, -, rfl⟩ := Option.map_eq_some_iff.1 materialized
  have all : (layers.take m.spec.nLayers).take m.spec.nLayers = layers.take m.spec.nLayers := by
    rw [List.take_take, Nat.min_self]
  exact congrArg some
    (congrArg (fun ls => KVCache.mk m.spec ls (arange 0 d.n) (some d.tokenIds) Dict.empty) all)

namespace SegmentedSession

/-- The KV of the session as its `kv` property reads it: none if it has no KV. -/
def held (m : Model α) (s : SegmentedSession α) : Except SessionError (Option (KVCache α)) :=
  (s.readKV m).1

/-- What a call on the session commits under `label`. -/
def commits (m : Model α) (s : SegmentedSession α) (c : Call) (label : String) :
    Option (Version α) :=
  if c = .commit label then
    match s.held m with
    | .ok kv => some ⟨s.ctx.segments, kv⟩
    | .error _ => none
  else none

/-- A device session whose versions can be rebuilt: each KV it keeps was materialised. -/
structure OnDevice (m : Model α) (s : SegmentedSession α) : Prop where
  onDevice : s.onDevice = true
  cached : ∀ kv, s.kv = some kv → ∃ d, s.dev = some d ∧ d.toKVCache m = some kv
  versions : ∀ label v kv, s.versions.get? label = some v → v.kv = some kv →
    (TorchKVSession.fromKVCache kv).toKVCache m = some kv

omit [Inhabited α] in
theorem init_onDevice (segments : List Segment) : OnDevice m (init m segments true) := by
  by_cases empty : segments = []
  · subst empty
    exact ⟨rfl, fun kv cached => (by cases cached), fun label v kv found => (by cases found)⟩
  · refine ⟨by simp [init, empty], fun kv cached => ?_, fun label v kv found => ?_⟩
    · simp [init, empty] at cached
    · simp [init, empty] at found

omit [Inhabited α] in
theorem branch_onDevice {s : SegmentedSession α} (sound : OnDevice m s) :
    OnDevice m (s.branch m) := by
  have child :
    s.branch m =
    { init m [] true with ctx := ⟨s.ctx.segments⟩, dev := s.dev.map TorchKVSession.clone } := by
    simp [branch, sound.onDevice]
  rw [child]
  exact ⟨rfl, fun kv cached => (by cases cached), fun label v kv found => (by cases found)⟩

omit [Inhabited α] in
/-- Reading the KV of a device session leaves it on the device, with the versions it had. -/
theorem readKV_onDevice {s : SegmentedSession α} (sound : OnDevice m s) :
    (∃ e, s.readKV m = (.error e, s)) ∨
      ∃ kv s', s.readKV m = (.ok kv, s') ∧ OnDevice m s' ∧ s'.ctx = s.ctx ∧
        s'.versions = s.versions ∧
        ∀ value, kv = some value → (TorchKVSession.fromKVCache value).toKVCache m = some value := by
  unfold readKV
  rw [if_pos sound.onDevice]
  split
  next dev noKV present =>
    cases materialized : dev.toKVCache m with
    | none => exact .inl ⟨_, rfl⟩
    | some kv =>
      refine .inr ⟨some kv, _, rfl, ⟨sound.onDevice, ?_, sound.versions⟩, rfl, rfl, ?_⟩
      · intro value cached
        cases cached
        exact ⟨dev, present, materialized⟩
      · intro value same
        cases same
        exact toKVCache_fromKVCache materialized
  next kv dev _ =>
    refine .inr ⟨s.kv, s, rfl, sound, rfl, rfl, fun value cached => ?_⟩
    obtain ⟨d, _, materialized⟩ := sound.cached value cached
    exact toKVCache_fromKVCache materialized

omit [Inhabited α] in
theorem commits_of_ne {s : SegmentedSession α} {c : Call} {label : String}
    (other : c ≠ .commit label) :
    s.commits m c label = none := if_neg other

variable (m hashTokens) in
/-- A mutation of a device session takes over the new context, or changes nothing. -/
theorem apply_cases {s : SegmentedSession α} (onDevice : s.onDevice = true)
    (newCtx : SegmentedContext) :
    (∃ applied dev,
      s.apply m hashTokens newCtx =
      (.ok applied, finish { s with dev := some dev } newCtx applied)) ∨
      ∃ e, s.apply m hashTokens newCtx = (.error e, s) := by
  unfold apply
  simp only [onDevice, if_true]
  split
  · exact .inl ⟨_, _, rfl⟩
  · split
    · exact .inl ⟨_, _, rfl⟩
    · exact .inr ⟨_, rfl⟩

omit [Inhabited α] in
theorem finish_onDevice {s : SegmentedSession α} (sound : OnDevice m s) (dev : TorchKVSession α)
    (newCtx : SegmentedContext)
    (applied : TorchKVSession.ApplyStats) :
      OnDevice m (finish { s with dev := some dev } newCtx applied) := by
  refine ⟨sound.onDevice, fun kv cached => ?_, sound.versions⟩
  simp [finish, sound.onDevice] at cached

variable (hashTokens) in
/-- A call on a device session changes nothing if it raises, and else commits what it should,
unless it rolls back to a version without KV. -/
theorem call_cases {s : SegmentedSession α} (sound : OnDevice m s) (c : Call) :
    (∃ e, s.call m hashTokens c = (.error e, s) ∧ ∀ label, s.commits m c label = none) ∨
    (∃ s', s.call m hashTokens c = (.ok (), s') ∧ OnDevice m s' ∧
      ∀ label, s'.versions.get? label = (s.commits m c label).or (s.versions.get? label)) ∨
    (∃ label v, c = .rollback label ∧ s.versions.get? label = some v ∧ v.kv = none ∧
      s.call m hashTokens c = (.error .noCache, { s with ctx := ⟨v.segments⟩ })) := by
  -- a mutation keeps the versions, and so does a reference to no segment
  have mutation : ∀ newCtx, (∀ label, c ≠ .commit label) →
      s.call m hashTokens c = ((s.apply m hashTokens newCtx).1.map fun _ => (),
        (s.apply m hashTokens newCtx).2) →
      (∃ e, s.call m hashTokens c = (.error e, s) ∧ ∀ label, s.commits m c label = none) ∨
      (∃ s', s.call m hashTokens c = (.ok (), s') ∧ OnDevice m s' ∧
        ∀ label, s'.versions.get? label = (s.commits m c label).or (s.versions.get? label)) := by
    intro newCtx uncommitted called
    cases apply_cases m hashTokens sound.onDevice newCtx with
    | inl done =>
      obtain ⟨applied, dev, applies⟩ := done
      refine .inr
        ⟨_, by rw [called, applies]; rfl, finish_onDevice sound dev newCtx applied, fun label => ?_⟩
      rw [commits_of_ne (uncommitted label)]
      rfl
    | inr raised =>
      obtain ⟨e, applies⟩ := raised
      exact .inl ⟨e, by rw [called, applies]; rfl, fun label => commits_of_ne (uncommitted label)⟩
  cases c with
  | append segment => exact (mutation _ (fun label same => by cases same) rfl).imp_right .inl
  | edit ref segment =>
    cases found : s.indexOf ref with
    | ok i =>
      refine (mutation ⟨s.ctx.segments.set i segment⟩
        (fun label same => by cases same) ?_).imp_right .inl
      simp only [call, edit, found]
    | error e =>
      refine .inl ⟨e, ?_, fun label => commits_of_ne fun same => by cases same⟩
      simp only [call, edit, found]
      rfl
  | delete ref =>
    cases found : s.indexOf ref with
    | ok i =>
      refine (mutation ⟨s.ctx.segments.eraseIdx i⟩
        (fun label same => by cases same) ?_).imp_right .inl
      simp only [call, delete, found]
    | error e =>
      refine .inl ⟨e, ?_, fun label => commits_of_ne fun same => by cases same⟩
      simp only [call, delete, found]
      rfl
  | commit label =>
    cases readKV_onDevice sound with
    | inl raised =>
      obtain ⟨e, read⟩ := raised
      refine .inl ⟨e, by simp only [call, commit, read], fun label' => ?_⟩
      unfold commits held
      rw [read]
      split <;> rfl
    | inr got =>
      obtain ⟨kv, s', read, sound', segments, versions, rebuilt⟩ := got
      have committed : s.call m hashTokens (.commit label) =
          (.ok (), { s' with versions := s'.versions.set label ⟨s'.ctx.segments, kv⟩ }) := by
        simp only [call, commit, read, copyKV_eq]
      refine .inr (.inl ⟨_, committed, ⟨sound'.onDevice, sound'.cached, ?_⟩, ?_⟩)
      · intro label' v value found same
        rw [Dict.get?_set] at found
        split at found
        · cases found
          exact rebuilt value same
        · exact sound'.versions label' v value found same
      · intro label'
        rw [Dict.get?_set]
        by_cases same : label = label'
        · subst same
          simp [commits, held, read, segments]
        · rw [if_neg same, commits_of_ne fun h => same (Call.commit.inj h), versions]
          rfl
  | rollback label =>
    have uncommitted : ∀ label', s.commits m (.rollback label) label' = none :=
      fun label' => commits_of_ne fun same => by cases same
    cases found : s.versions.get? label with
    | none => exact .inl ⟨.noCommittedVersion label,
        by simp only [call, rollback, found], uncommitted⟩
    | some v =>
      cases stored : v.kv with
      | none => exact .inr (.inr ⟨label, v, rfl, found, stored,
          by simp [call, rollback, found, sound.onDevice, stored]⟩)
      | some kv =>
        have restored : s.call m hashTokens (.rollback label) =
            (.ok (),
              { s with ctx := ⟨v.segments⟩, dev := some (TorchKVSession.fromKVCache kv), kv := none }) := by
          simp only [call, rollback, found, sound.onDevice, if_true, stored]
        refine .inr
          (.inl ⟨_, restored,
          ⟨sound.onDevice, fun value cached => (by cases cached), sound.versions⟩,
          fun label' => ?_⟩)
        rw [uncommitted]
        rfl
  | branch =>
    refine .inr (.inl ⟨s, rfl, sound, fun label => ?_⟩)
    rw [commits_of_ne fun same => by cases same]
    rfl

end SegmentedSession

/-! ## Runs, with what was committed in them -/

/-- A family of sessions, and what session `i` held at its last commit of a label. -/
structure Recorded (α : Type) where
  family : List (SegmentedSession α)
  committed : Nat → String → Option (Version α) := fun _ _ => none

/-- What the event commits for session `i` under `label`. -/
def Recorded.commits (m : Model α) (r : Recorded α) (e : Nat × Call) (i : Nat) (label : String) :
    Option (Version α) :=
  if e.1 = i then r.family[i]?.bind fun s => s.commits m e.2 label else none

def recorder (m : Model α) (hashTokens : List Int → δ) :
    Machine (Recorded α) (Nat × Call) (Option (Except SessionError Unit)) where
  step r e :=
    let (reply, family) := familyStep m hashTokens r.family e
    (reply, { family := family, committed := fun i label => (r.commits m e i label).or (r.committed i label) })

/-- A rollback to a committed label succeeds and restores the segments and the KV held at its last
commit; a call that raises leaves segments, KV and versions as they were. -/
structure ExactAndAtomic (m : Model α) (hashTokens : List Int → δ) (r : Recorded α)
    (e : Nat × Call) : Prop where
  exact : ∀ s label v, r.family[e.1]? = some s → e.2 = .rollback label →
    r.committed e.1 label = some v →
    (s.rollback label).1 = .ok () ∧ (s.rollback label).2.ctx.segments = v.segments ∧
      (s.rollback label).2.held m = .ok v.kv
  atomic : ∀ s error, r.family[e.1]? = some s → (s.call m hashTokens e.2).1 = .error error →
    (s.call m hashTokens e.2).2.ctx.segments = s.ctx.segments ∧
      (s.call m hashTokens e.2).2.held m = s.held m ∧
      (s.call m hashTokens e.2).2.versions = s.versions

/-- The event rolls a session back to a label that it last committed while it had no KV. -/
def RollsBackToNoKV (r : Recorded α) (e : Nat × Call) : Prop :=
  ∃ label v, e.2 = .rollback label ∧ r.committed e.1 label = some v ∧ v.kv = none

/-- Each session keeps what it held at its last commits. -/
structure Faithful (m : Model α) (r : Recorded α) : Prop where
  onDevice : ∀ (i : Nat) (s : SegmentedSession α), r.family[i]? = some s → s.OnDevice m
  kept : ∀ (i : Nat) (s : SegmentedSession α) label, r.family[i]? = some s →
    s.versions.get? label = r.committed i label
  unborn : ∀ i label, r.family.length ≤ i → r.committed i label = none

omit [Inhabited α] in
/-- A failed rollback to a version without KV keeps the session on the device. -/
theorem SegmentedSession.OnDevice.withSegments {s : SegmentedSession α} (sound : s.OnDevice m)
    (segments : List Segment) :
    SegmentedSession.OnDevice m { s with ctx := ⟨segments⟩ } :=
      ⟨sound.onDevice, sound.cached, sound.versions⟩

/-- One call keeps a session on the device, with the versions it should have. -/
theorem SegmentedSession.call_onDevice {s : SegmentedSession α} (sound : s.OnDevice m) (c : Call) :
    (s.call m hashTokens c).2.OnDevice m ∧
      ∀ label, (s.call m hashTokens c).2.versions.get? label = (s.commits m c label).or
        (s.versions.get? label) := by
  rcases SegmentedSession.call_cases hashTokens sound c with
    ⟨e, called, uncommitted⟩ | ⟨s', called, sound', versions⟩ | ⟨label, v, rfl, _, _, called⟩
  · rw [called]
    exact ⟨sound, fun label => by rw [uncommitted]; rfl⟩
  · rw [called]
    exact ⟨sound', versions⟩
  · rw [called]
    refine ⟨sound.withSegments v.segments, fun label' => ?_⟩
    rw [commits_of_ne fun same => by cases same]
    rfl

/-- The sessions after a step: those before it, the called one changed, and the child of a
    branch. -/
theorem familyStep_inv {family : List (SegmentedSession α)} {e : Nat × Call} {i : Nat}
    {s' : SegmentedSession α}
    (there : (familyStep m hashTokens family e).2[i]? = some s') :
    (∃ s, family[i]? = some s ∧ s' = if e.1 = i then (s.call m hashTokens e.2).2 else s) ∨
      (i = family.length ∧ ∃ parent, family[e.1]? = some parent ∧ s' = parent.branch m) := by
  by_cases inside : i < family.length
  · left
    obtain ⟨s, found⟩ : ∃ s, family[i]? = some s := ⟨_, List.getElem?_eq_getElem inside⟩
    refine ⟨s, found, ?_⟩
    by_cases same : e.1 = i
    · subst same
      rw [familyStep_getElem?_self e.2 found] at there
      rw [if_pos rfl]
      exact (Option.some.inj there).symm
    · rw [familyStep_getElem?_other same inside, found] at there
      rw [if_neg same]
      exact (Option.some.inj there).symm
  · right
    unfold familyStep at there
    cases present : family[e.1]? with
    | none =>
      rw [present] at there
      exact absurd (List.getElem?_eq_some_iff.1 there).1 inside
    | some parent =>
      rw [present] at there
      dsimp only at there
      split at there
      · rw [List.getElem?_append_right (by simpa using inside), List.length_set] at there
        obtain ⟨first, rfl⟩ := List.getElem?_eq_some_iff.1 there
        rw [List.length_singleton] at first
        exact ⟨by omega, parent, rfl, by simp⟩
      · have := (List.getElem?_eq_some_iff.1 there).1
        rw [List.length_set] at this
        exact absurd this inside

theorem length_familyStep (family : List (SegmentedSession α)) (e : Nat × Call) :
    family.length ≤ (familyStep m hashTokens family e).2.length := by
  unfold familyStep
  cases family[e.1]? with
  | none => exact Nat.le_refl _
  | some s =>
    dsimp only
    split <;> simp

theorem recorder_faithful (r : Recorded α) (e : Nat × Call) (faithful : Faithful m r) :
    Faithful m ((recorder m hashTokens).next r e) := by
  have beyond : ∀ i label, r.family.length ≤ i → r.commits m e i label = none := by
    intro i label outside
    rw [Recorded.commits, List.getElem?_eq_none outside]
    split <;> rfl
  have unborn : ∀ i label, r.family.length ≤ i →
    ((recorder m hashTokens).next r e).committed i label = none := by
    intro i label outside
    show (r.commits m e i label).or (r.committed i label) = none
    rw [beyond i label outside, faithful.unborn i label outside]
    rfl
  constructor
  case onDevice =>
    intro i s' there
    obtain ⟨s, found, rfl⟩ | ⟨_, parent, found, rfl⟩ := familyStep_inv there
    · split
      · exact (SegmentedSession.call_onDevice (faithful.onDevice i s found) e.2).1
      · exact faithful.onDevice i s found
    · exact SegmentedSession.branch_onDevice (faithful.onDevice _ parent found)
  case kept =>
    intro i s' label there
    obtain ⟨s, found, rfl⟩ | ⟨rfl, parent, found, rfl⟩ := familyStep_inv there
    · show _ = (r.commits m e i label).or (r.committed i label)
      rw [Recorded.commits, found, ← faithful.kept i s label found]
      split
      · exact (SegmentedSession.call_onDevice (faithful.onDevice i s found) e.2).2 label
      · rfl
    · rw [unborn _ label (Nat.le_refl _)]
      simp only [SegmentedSession.branch]
      split <;> rfl
  case unborn =>
    intro i label outside
    exact unborn i label ((length_familyStep r.family e).trans outside)

/-- A step is exact and atomic unless it rolls back to a label last committed without KV. -/
theorem exactAndAtomic_iff {r : Recorded α} (faithful : Faithful m r) (e : Nat × Call) :
    ExactAndAtomic m hashTokens r e ↔ ¬RollsBackToNoKV r e := by
  constructor
  · rintro good ⟨label, v, rollsBack, committed, noKV⟩
    cases found : r.family[e.1]? with
    | none =>
      have := faithful.unborn e.1 label (List.getElem?_eq_none_iff.1 found)
      rw [committed] at this
      cases this
    | some s =>
      have version := faithful.kept e.1 s label found
      rw [committed] at version
      have succeeds := (good.exact s label v found rollsBack committed).1
      simp [SegmentedSession.rollback, version, (faithful.onDevice e.1 s found).onDevice,
        noKV] at succeeds
  · intro other
    constructor
    case exact =>
      intro s label v found rollsBack committed
      have version := faithful.kept e.1 s label found
      rw [committed] at version
      have sound := faithful.onDevice e.1 s found
      cases stored : v.kv with
      | none => exact absurd ⟨label, v, rollsBack, committed, stored⟩ other
      | some kv =>
        have restored : s.rollback label =
            (.ok (),
              { s with ctx := ⟨v.segments⟩, dev := some (TorchKVSession.fromKVCache kv), kv := none }) := by
          simp only [SegmentedSession.rollback, version, sound.onDevice, if_true, stored]
        have rebuilt := sound.versions label v kv version stored
        rw [restored]
        refine ⟨rfl, rfl, ?_⟩
        simp [SegmentedSession.held, SegmentedSession.readKV, sound.onDevice, rebuilt]
    case atomic =>
      intro s error found raised
      rcases SegmentedSession.call_cases hashTokens (faithful.onDevice e.1 s found) e.2 with
        ⟨e', called, _⟩ | ⟨s', called, _, _⟩ | ⟨label, v, rollsBack, version, noKV, _⟩
      · rw [called]
        exact ⟨rfl, rfl, rfl⟩
      · rw [called] at raised
        cases raised
      · rw [faithful.kept e.1 s label found] at version
        exact absurd ⟨label, v, rollsBack, version, noKV⟩ other

/-- In a run of device sessions every rollback to a committed label is exact, and every call that
raises is atomic, exactly when no call rolls a session back to a label that it last committed while
it had no KV. -/
theorem deviceRuns_exact_atomic_iff (m : Model α) (hashTokens : List Int → δ)
    (segments : List Segment)
    (events : List (Nat × Call)) :
    (recorder m hashTokens).Meets (ExactAndAtomic m hashTokens)
    { family := [SegmentedSession.init m segments true] } events ↔
      (recorder m hashTokens).Meets (fun r e => ¬RollsBackToNoKV r e)
      { family := [SegmentedSession.init m segments true] }
        events := by
  have start : Faithful m { family := [SegmentedSession.init m segments true] } := by
    constructor
    case onDevice =>
      intro i s found
      obtain rfl := List.mem_singleton.1 (List.mem_of_getElem? found)
      exact SegmentedSession.init_onDevice segments
    case kept =>
      intro i s label found
      obtain rfl := List.mem_singleton.1 (List.mem_of_getElem? found)
      simp only [SegmentedSession.init]
      split
      · rfl
      · split <;> rfl
    case unborn => exact fun _ _ _ => rfl
  exact Machine.Meets.congr (fun r e faithful _ => recorder_faithful r e faithful)
    (fun r e faithful _ => exactAndAtomic_iff faithful e) start
      (Machine.meets_of_forall (fun _ _ => trivial) _ events)

/-- A session commits before it has a segment, takes one, and rolls back: the call raises, with the
segments already gone. -/
theorem rollback_to_empty_raises :
    ¬(recorder sumModel (id : List Int → List Int)).Meets (ExactAndAtomic sumModel id)
        { family := [SegmentedSession.init sumModel [] true] }
        [(0, .commit "start"), (0, .append ⟨"a", [1, 2], "context"⟩), (0, .rollback "start")] := by
  intro good
  have exact := good.2.2.1.exact _ "start" ⟨[], none⟩ rfl rfl rfl
  cases exact.1

end Dexa.Segments
