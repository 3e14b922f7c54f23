import Dexa.Engine.TorchSession
import Dexa.Lib.Machine

/-! # Live mutable contexts (`dexa/segment/session.py`)

A session pairs an ordered segmentation with its KV.  A method returns its result,
or the exception it raises, together with the state it leaves behind: a method that
raises half-way keeps what it had already assigned.
-/

namespace Dexa.Segments

open Dexa.Core Dexa.Lib Dexa.Engine

variable {α : Type} [Inhabited α] {δ : Type} [DecidableEq δ]

inductive SessionError where
  | noSegmentNamed (name : String)
  | noCommittedVersion (label : String)
  | indexOutOfRange (i : Int)
  /-- `None` where a cache is read. -/
  | noCache
  /-- `save` of a session without KV. -/
  | nothingToPersist
  deriving DecidableEq, Repr

structure Version (α : Type) where
  segments : List Segment
  kv : Option (KVCache α)

structure SessionStats where
  mutations : Nat := 0
  tokensRecomputed : Nat := 0
  tokensFullReprefill : Nat := 0
  deriving DecidableEq, Repr

structure SegmentedSession (α : Type) where
  ctx : SegmentedContext
  onDevice : Bool
  dev : Option (TorchKVSession α) := none
  kv : Option (KVCache α) := none
  versions : Dict String (Version α) := Dict.empty
  stats : SessionStats := {}

/-- A segment named or numbered by the caller. -/
inductive SegmentRef where
  | index (i : Int)
  | name (s : String)
  deriving DecidableEq, Repr

/-- The position a Python index denotes in a list of length `n`. -/
def pyIndex (n : Nat) (i : Int) : Option Nat :=
  if 0 ≤ i ∧ i < n then some i.toNat
  else if i < 0 ∧ -(n : Int) ≤ i then some (n + i).toNat
  else none

theorem pyIndex_lt {n : Nat} {i : Int} {k : Nat} (h : pyIndex n i = some k) : k < n := by
  unfold pyIndex at h
  split at h
  · simp only [Option.some.injEq] at h; omega
  · split at h
    · simp only [Option.some.injEq] at h; omega
    · cases h

/-- `_copy_kv`: arrays, tokens and meta are copied. -/
def copyKV (kv : Option (KVCache α)) : Option (KVCache α) :=
  kv.map fun kv =>
    { spec := kv.spec, layers := kv.layers.map fun l => ⟨l.key, l.value⟩, positions := kv.positions,
      tokenIds := kv.tokenIds, metadata := kv.metadata }

omit [Inhabited α] in
@[simp] theorem copyKV_eq (kv : Option (KVCache α)) : copyKV kv = kv := by
  cases kv <;> simp [copyKV]

namespace SegmentedSession

/-- `SegmentedSession(backend, segments, on_device=...)`. -/
def init (m : Model α) (segments : List Segment) (onDevice : Bool) : SegmentedSession α :=
  let ctx : SegmentedContext := ⟨segments⟩
  if segments = [] then { ctx := ctx, onDevice := onDevice }
  else if onDevice then
    { ctx := ctx, onDevice := onDevice, dev := some (TorchKVSession.new m ctx.tokenIds) }
  else { ctx := ctx, onDevice := onDevice, kv := some (m.prefill ctx.tokenIds) }

/-- The `kv` property: on-device sessions materialize lazily and keep the result. -/
def readKV (m : Model α) (s : SegmentedSession α) :
    Except SessionError (Option (KVCache α)) × SegmentedSession α :=
  if s.onDevice then
    match s.kv, s.dev with
    | none, some dev =>
      match dev.toKVCache m with
      | some kv => (.ok (some kv), { s with kv := some kv })
      | none => (.error .noCache, s)
    | kv, _ => (.ok kv, s)
  else (.ok s.kv, s)

/-- `_index_of`, then the list access with the index it returns. -/
def indexOf (s : SegmentedSession α) : SegmentRef → Except SessionError Nat
  | .index i =>
    match pyIndex s.ctx.segments.length i with
    | some k => .ok k
    | none => .error (.indexOutOfRange i)
  | .name label =>
    match s.ctx.segments.findIdx? fun seg => seg.name = label with
    | some k => .ok k
    | none => .error (.noSegmentNamed label)

/-- The end of `_apply`: take over the new context and account for the work. -/
def finish (s : SegmentedSession α) (newCtx : SegmentedContext)
    (applied : TorchKVSession.ApplyStats) :
    SegmentedSession α :=
  { s with
    ctx := newCtx
    kv := if s.onDevice then none else s.kv
    stats :=
      { mutations := s.stats.mutations + 1
        tokensRecomputed := s.stats.tokensRecomputed + applied.recomputedTokens
        tokensFullReprefill := s.stats.tokensFullReprefill + newCtx.nTokens } }

/-- Update the resident KV to `newCtx` by exact incremental recompute. -/
def apply (m : Model α) (hashTokens : List Int → δ) (s : SegmentedSession α)
    (newCtx : SegmentedContext) :
    Except SessionError TorchKVSession.ApplyStats × SegmentedSession α :=
  let cold := (s.dev.isNone && s.kv.isNone) || s.ctx.segments.isEmpty
  let coldStats : TorchKVSession.ApplyStats :=
    { reusedTokens := 0, recomputedTokens := newCtx.nTokens, totalTokens := newCtx.nTokens }
  if s.onDevice then
    if cold then
      (.ok coldStats,
        finish { s with dev := some (TorchKVSession.new m newCtx.tokenIds) } newCtx coldStats)
    else
      match s.dev with
      | some dev =>
        let (applied, dev') := dev.apply m hashTokens s.ctx newCtx
        (.ok applied, finish { s with dev := some dev' } newCtx applied)
      | none => (.error .noCache, s)
  else
    if cold then
      (.ok coldStats, finish { s with kv := some (m.prefill newCtx.tokenIds) } newCtx coldStats)
    else
      match s.kv with
      | some kv =>
        let (kv', rebuilt) := m.recomputeIncremental hashTokens kv s.ctx newCtx
        let applied : TorchKVSession.ApplyStats :=
          { reusedTokens := rebuilt.reusedTokens, recomputedTokens := rebuilt.recomputedTokens,
            totalTokens := rebuilt.totalTokens }
        (.ok applied, finish { s with kv := some kv' } newCtx applied)
      | none => (.error .noCache, s)

def append (m : Model α) (hashTokens : List Int → δ) (s : SegmentedSession α) (segment : Segment) :
    Except SessionError TorchKVSession.ApplyStats × SegmentedSession α :=
  s.apply m hashTokens ⟨s.ctx.segments ++ [segment]⟩

def edit (m : Model α) (hashTokens : List Int → δ) (s : SegmentedSession α) (ref : SegmentRef)
    (newSegment : Segment) : Except SessionError TorchKVSession.ApplyStats × SegmentedSession α :=
  match s.indexOf ref with
  | .ok i => s.apply m hashTokens ⟨s.ctx.segments.set i newSegment⟩
  | .error e => (.error e, s)

def delete (m : Model α) (hashTokens : List Int → δ) (s : SegmentedSession α) (ref : SegmentRef) :
    Except SessionError TorchKVSession.ApplyStats × SegmentedSession α :=
  match s.indexOf ref with
  | .ok i => s.apply m hashTokens ⟨s.ctx.segments.eraseIdx i⟩
  | .error e => (.error e, s)

/-- Snapshot the current segments and KV under `label`. -/
def commit (m : Model α) (s : SegmentedSession α) (label : String) :
    Except SessionError Unit × SegmentedSession α :=
  match s.readKV m with
  | (.ok kv, s') =>
    (.ok (), { s' with versions := s'.versions.set label ⟨s'.ctx.segments, copyKV kv⟩ })
  | (.error e, s') => (.error e, s')

/-- Restore a committed snapshot.  The context is assigned before the device cache is rebuilt. -/
def rollback (s : SegmentedSession α) (label : String) :
    Except SessionError Unit × SegmentedSession α :=
  match s.versions.get? label with
  | none => (.error (.noCommittedVersion label), s)
  | some v =>
    let s' := { s with ctx := ⟨v.segments⟩ }
    if s.onDevice then
      match v.kv with
      | some kv => (.ok (), { s' with dev := some (TorchKVSession.fromKVCache kv), kv := none })
      | none => (.error .noCache, s')
    else (.ok (), { s' with kv := copyKV v.kv })

/-- Fork: a new session with a copy of this KV and no versions. -/
def branch (m : Model α) (s : SegmentedSession α) : SegmentedSession α :=
  let child := init m [] s.onDevice
  if s.onDevice then
    { child with ctx := ⟨s.ctx.segments⟩, dev := s.dev.map TorchKVSession.clone }
  else { child with ctx := ⟨s.ctx.segments⟩, kv := copyKV s.kv }

/-- Segment-level diff: length of the matching prefix and the names of the two tails. -/
def diff (hashTokens : List Int → δ) (s other : SegmentedSession α) :
    Nat × List String × List String :=
  let common := commonPrefixLen hashTokens s.ctx.segments other.ctx.segments
  (common, (s.ctx.segments.drop common).map Segment.name,
    (other.ctx.segments.drop common).map Segment.name)

end SegmentedSession

/-! ## A family of sessions

The sessions reachable from one session by branching, in the order of their creation. -/

inductive Call where
  | append (segment : Segment)
  | edit (ref : SegmentRef) (newSegment : Segment)
  | delete (ref : SegmentRef)
  | commit (label : String)
  | rollback (label : String)
  | branch
  deriving DecidableEq, Repr

/-- The state a call on one session leaves it in, and whether the call raised. -/
def SegmentedSession.call (m : Model α) (hashTokens : List Int → δ) (s : SegmentedSession α) :
    Call → Except SessionError Unit × SegmentedSession α
  | .append segment => let (r, s') := s.append m hashTokens segment; (r.map fun _ => (), s')
  | .edit ref segment => let (r, s') := s.edit m hashTokens ref segment; (r.map fun _ => (), s')
  | .delete ref => let (r, s') := s.delete m hashTokens ref; (r.map fun _ => (), s')
  | .commit label => s.commit m label
  | .rollback label => s.rollback label
  | .branch => (.ok (), s)

/-- A call on session number `i` of the family; a branch adds its child at the end. -/
def familyStep (m : Model α) (hashTokens : List Int → δ) (family : List (SegmentedSession α))
    (e : Nat × Call) : Option (Except SessionError Unit) × List (SegmentedSession α) :=
  match family[e.1]? with
  | none => (none, family)
  | some s =>
    let (r, s') := s.call m hashTokens e.2
    let family' := family.set e.1 s'
    (some r, if e.2 = .branch then family' ++ [s.branch m] else family')

def sessionFamily (m : Model α) (hashTokens : List Int → δ) :
    Machine (List (SegmentedSession α)) (Nat × Call) (Option (Except SessionError Unit)) :=
  ⟨familyStep m hashTokens⟩

end Dexa.Segments
