import Dexa.Engine.ResidentSession
import Dexa.Segments.Rollbacks
import Dexa.Session.Store

/-! # Reattaching a persisted session

`SegmentedSession.load` pairs the KV of a store with the segmentation that its caller names.  It
compares how many tokens there are, not which.
-/

namespace Dexa.Segments

open Dexa.Core Dexa.Lib Dexa.Engine
open Dexa.Session (Paths Files Format)

variable {α : Type} [Inhabited α] {δ : Type} [DecidableEq δ] {ω β : Type}

inductive LoadError where
  /-- the store has no file for the session -/
  | notFound
  /-- the store's file cannot be read -/
  | unreadable
  /-- `loaded KV length does not match the provided segmentation` -/
  | lengthMismatch
  deriving DecidableEq, Repr

namespace SegmentedSession

/-- Reattach a persisted session: load its KV and pair it with the known segmentation. -/
def load (m : Model α) (codec : Session.Codec ω (KVCache α) β) (locate : Paths) (files : Files β)
    (f : Format) (sessionId : String)
    (segments : List Segment) (onDevice : Bool) : Except LoadError (SegmentedSession α) :=
  let s := { init m [] onDevice with ctx := ⟨segments⟩ }
  match (Session.step codec locate files (.load f sessionId)).1 with
  | .loaded kv =>
    if kv.seqLen ≠ s.ctx.nTokens then .error .lengthMismatch
    else if s.onDevice then .ok { s with dev := some (TorchKVSession.fromKVCache kv) }
    else .ok { s with kv := some kv }
  | .notFound => .error .notFound
  | _ => .error .unreadable

/-- The session after some calls, each of which may raise. -/
def after (m : Model α) (hashTokens : List Int → δ) (s : SegmentedSession α) (calls : List Call) :
    SegmentedSession α :=
  calls.foldl (fun s c => (s.call m hashTokens c).2) s

/-- The session's KV is the prefill of its text. -/
def HoldsText (m : Model α) (s : SegmentedSession α) : Prop :=
  s.held m = .ok (some (m.prefill s.ctx.tokenIds))

end SegmentedSession

def Call.isMutation : Call → Bool
  | .append _ | .edit _ _ | .delete _ => true
  | .commit _ | .rollback _ | .branch => false

/-- A session of which only the segments matter. -/
def bare (segments : List Segment) : SegmentedSession Unit :=
  { ctx := ⟨segments⟩, onDevice := false }

/-- The segments a mutation leaves. -/
def Call.segmentsAfter (segments : List Segment) : Call → List Segment
  | .append segment => segments ++ [segment]
  | .edit ref segment =>
    match (bare segments).indexOf ref with
    | .ok i => segments.set i segment
    | .error _ => segments
  | .delete ref =>
    match (bare segments).indexOf ref with
    | .ok i => segments.eraseIdx i
    | .error _ => segments
  | _ => segments

/-- The call appends a segment without tokens to a session without segments. -/
def Call.StartsBlank (segments : List Segment) (c : Call) : Prop :=
  segments = [] ∧ ∃ segment, c = .append segment ∧ segment.tokenIds = []

/-- Some call of the run does. -/
def startsBlank (segments : List Segment) : List Call → Prop
  | [] => False
  | c :: calls => c.StartsBlank segments ∨ startsBlank (c.segmentsAfter segments) calls

variable {m : Model α} {hashTokens : List Int → δ}

/-- The session's KV is the prefill of its text, on the side where the session keeps it. -/
structure Attached (m : Model α) (s : SegmentedSession α) : Prop where
  host : s.onDevice = false → Sound m s ∧ s.kv = some (m.prefill s.ctx.tokenIds)
  device : s.onDevice = true →
    s.kv = none ∧ ∃ d, s.dev = some d ∧ TorchKVSession.Resident m d ∧ d.tokenIds = s.ctx.tokenIds

namespace SegmentedSession

omit [Inhabited α] in
theorem holdsText_of_attached (causal : Causal m) {s : SegmentedSession α}
    (attached : Attached m s) : HoldsText m s := by
  unfold HoldsText held readKV
  cases side : s.onDevice with
  | false =>
    rw [if_neg Bool.false_ne_true, (attached.host side).2]
  | true =>
    obtain ⟨noKV, d, present, resident, text⟩ := attached.device side
    have materialized := TorchKVSession.toKVCache_of_resident causal resident
    simp only [if_true, noKV, present, materialized, text]

omit [Inhabited α] in
theorem ne_nil_of_indexOf {s : SegmentedSession α} {ref : SegmentRef} {i : Nat}
    (found : s.indexOf ref = .ok i) :
    s.ctx.segments ≠ [] := by
  intro empty
  cases ref with
  | index k =>
    simp only [indexOf, empty] at found
    split at found
    next j inside =>
      have := pyIndex_lt inside
      simp at this
    next => cases found
  | name label => simp [indexOf, empty] at found

omit [Inhabited α] in
theorem indexOf_bare (s : SegmentedSession α) (ref : SegmentRef) :
    (bare s.ctx.segments).indexOf ref = s.indexOf ref := by
  cases ref <;> rfl

variable (m hashTokens) in
/-- Without segments a device session starts again. -/
theorem apply_device_cold {s : SegmentedSession α} (side : s.onDevice = true)
    (empty : s.ctx.segments = [])
    (newCtx : SegmentedContext) :
    ∃ applied, s.apply m hashTokens newCtx =
      (.ok applied,
        finish { s with dev := some (TorchKVSession.new m newCtx.tokenIds) } newCtx applied) := by
  have cold : ((s.dev.isNone && s.kv.isNone) || s.ctx.segments.isEmpty) = true := by simp [empty]
  refine ⟨⟨0, newCtx.nTokens, newCtx.nTokens⟩, ?_⟩
  simp only [apply]
  rw [if_pos side, if_pos cold]

/-- With segments it keeps what the new context shares with the old one. -/
theorem apply_device_warm {s : SegmentedSession α} (side : s.onDevice = true) {d : TorchKVSession α}
    (present : s.dev = some d)
    (nonempty : s.ctx.segments ≠ []) (newCtx : SegmentedContext) :
    s.apply m hashTokens newCtx = (.ok (d.apply m hashTokens s.ctx newCtx).1,
      finish { s with dev := some (d.apply m hashTokens s.ctx newCtx).2 } newCtx
        (d.apply m hashTokens s.ctx newCtx).1) := by
  have warm : ¬((s.dev.isNone && s.kv.isNone) || s.ctx.segments.isEmpty) = true := by
    simp [present, nonempty]
  simp only [apply]
  rw [if_pos side, if_neg warm, present]

/-- A mutation of an attached session leaves one attached to the new text, unless a device session
without segments starts again without a token. -/
theorem apply_attached (causal : Causal m) (whole : WholePass m)
    (injective : Function.Injective hashTokens)
    {s : SegmentedSession α} (attached : Attached m s) (newCtx : SegmentedContext)
    (starts : s.onDevice = true → s.ctx.segments = [] → newCtx.tokenIds ≠ []) :
    ∃ applied s', s.apply m hashTokens newCtx = (.ok applied, s') ∧ s'.ctx = newCtx ∧
      s'.onDevice = s.onDevice ∧
      Attached m s' := by
  cases side : s.onDevice with
  | false =>
    have sound := (attached.host side).1
    obtain ⟨applied, applies⟩ := apply_sound_eq causal injective sound newCtx
    refine ⟨applied, _, applies, rfl, side, fun _ => ⟨finish_sound sound newCtx applied, ?_⟩,
      fun onDevice => ?_⟩
    · simp [finish, side]
    · cases side.symm.trans onDevice
  | true =>
    obtain ⟨noKV, d, present, resident, text⟩ := attached.device side
    by_cases empty : s.ctx.segments = []
    · have nonempty := starts side empty
      obtain ⟨applied, applies⟩ := apply_device_cold m hashTokens side empty newCtx
      refine ⟨applied, _, applies, rfl, side, fun onHost => ?_, fun _ => ⟨?_, _, rfl, ?_, ?_⟩⟩
      · cases side.symm.trans onHost
      · simp [finish, side]
      · rw [TorchKVSession.new, if_neg nonempty]
        exact TorchKVSession.append_fresh whole nonempty
      · simp [TorchKVSession.new, nonempty, finish]
    · refine ⟨_, _, apply_device_warm side present empty newCtx, rfl, side, fun onHost => ?_,
        fun _ => ⟨?_, _, rfl, ?_, ?_⟩⟩
      · cases side.symm.trans onHost
      · simp [finish, side]
      · exact TorchKVSession.append_resident causal whole
          (TorchKVSession.truncate_resident causal resident _) _
      · exact TorchKVSession.apply_tokenIds injective text.symm newCtx

/-- A mutation keeps a session attached unless it starts a device session without a token, and the
session then has no KV to read. -/
theorem call_attached (causal : Causal m) (whole : WholePass m)
    (injective : Function.Injective hashTokens)
    {s : SegmentedSession α} (attached : Attached m s) {c : Call} (mutation : c.isMutation = true)
    (starts : ¬(s.onDevice = true ∧ c.StartsBlank s.ctx.segments)) :
    Attached m (s.call m hashTokens c).2 ∧ (s.call m hashTokens c).2.onDevice = s.onDevice ∧
      (s.call m hashTokens c).2.ctx.segments = c.segmentsAfter s.ctx.segments := by
  cases c with
  | append segment =>
    obtain ⟨applied, s', applies, text, side, attached'⟩ :=
      apply_attached causal whole injective attached
      ⟨s.ctx.segments ++ [segment]⟩ (by
        intro onDevice empty blank
        rw [SegmentedContext.tokenIds, empty] at blank
        exact starts ⟨onDevice, empty, segment, rfl, by simpa using blank⟩)
    simp only [call, append, applies]
    exact ⟨attached', side, congrArg SegmentedContext.segments text⟩
  | edit ref segment =>
    simp only [call, edit, Call.segmentsAfter, indexOf_bare]
    cases found : s.indexOf ref with
    | error e => exact ⟨attached, rfl, rfl⟩
    | ok i =>
      obtain ⟨applied, s', applies, text, side, attached'⟩ :=
        apply_attached causal whole injective attached
        ⟨s.ctx.segments.set i segment⟩ fun _ empty => absurd empty (ne_nil_of_indexOf found)
      simp only [applies]
      exact ⟨attached', side, congrArg SegmentedContext.segments text⟩
  | delete ref =>
    simp only [call, delete, Call.segmentsAfter, indexOf_bare]
    cases found : s.indexOf ref with
    | error e => exact ⟨attached, rfl, rfl⟩
    | ok i =>
      obtain ⟨applied, s', applies, text, side, attached'⟩ :=
        apply_attached causal whole injective attached
        ⟨s.ctx.segments.eraseIdx i⟩ fun _ empty => absurd empty (ne_nil_of_indexOf found)
      simp only [applies]
      exact ⟨attached', side, congrArg SegmentedContext.segments text⟩
  | commit label => cases mutation
  | rollback label => cases mutation
  | branch => cases mutation

variable (m hashTokens) in
/-- A device session that started without a token has no cache to read. -/
theorem not_holdsText_of_startsBlank {s : SegmentedSession α} (side : s.onDevice = true) {c : Call}
    (starts : c.StartsBlank s.ctx.segments) : ¬HoldsText m (s.call m hashTokens c).2 := by
  obtain ⟨empty, segment, rfl, blank⟩ := starts
  have noText : (⟨s.ctx.segments ++ [segment]⟩ : SegmentedContext).tokenIds = [] := by
    simp [SegmentedContext.tokenIds, empty, blank]
  obtain ⟨applied, applies⟩ :=
    apply_device_cold m hashTokens side empty ⟨s.ctx.segments ++ [segment]⟩
  have noCache : TorchKVSession.new m (⟨s.ctx.segments ++ [segment]⟩ : SegmentedContext).tokenIds =
    {} := by
    rw [noText]
    rfl
  simp [HoldsText, held, readKV, call, append, applies, finish, side, noCache,
    TorchKVSession.toKVCache]

/-- An attached session holds its text throughout a run of mutations exactly when it does not start
again without a token on the device. -/
theorem holdsText_after_iff (causal : Causal m) (whole : WholePass m)
    (injective : Function.Injective hashTokens)
    {s : SegmentedSession α} (attached : Attached m s) {calls : List Call}
    (mutations : ∀ c ∈ calls, c.isMutation = true) :
    (∀ before, before <+: calls → HoldsText m (s.after m hashTokens before)) ↔
      ¬(s.onDevice = true ∧ startsBlank s.ctx.segments calls) := by
  induction calls generalizing s with
  | nil =>
    simp only [List.prefix_nil, forall_eq, startsBlank, and_false, not_false_eq_true, iff_true]
    exact holdsText_of_attached causal attached
  | cons c calls ih =>
    have here := holdsText_of_attached causal attached
    have first := mutations c List.mem_cons_self
    have rest : ∀ c ∈ calls, c.isMutation = true :=
      fun c' member => mutations c' (List.mem_cons_of_mem c member)
    have split : (∀ before, before <+: c :: calls → HoldsText m (s.after m hashTokens before)) ↔
        ∀ before, before <+: calls →
          HoldsText m ((s.call m hashTokens c).2.after m hashTokens before) := by
      constructor
      · intro all before leads
        exact all (c :: before) (List.cons_prefix_cons.2 ⟨rfl, leads⟩)
      · intro all before leads
        cases before with
        | nil => exact here
        | cons c' before =>
          obtain ⟨rfl, shorter⟩ := List.cons_prefix_cons.1 leads
          exact all before shorter
    rw [split, startsBlank]
    by_cases starts : s.onDevice = true ∧ c.StartsBlank s.ctx.segments
    · -- the KV cannot be read right after the call
      have broken := not_holdsText_of_startsBlank m hashTokens starts.1 starts.2
      constructor
      · exact fun all => absurd (all [] List.nil_prefix) broken
      · exact fun none => absurd ⟨starts.1, Or.inl starts.2⟩ none
    · obtain ⟨attached', side, segments⟩ :=
        call_attached causal whole injective attached first starts
      rw [ih attached' rest, side, segments]
      constructor
      · rintro none ⟨onDevice, blank | later⟩
        · exact starts ⟨onDevice, blank⟩
        · exact none ⟨onDevice, later⟩
      · rintro none ⟨onDevice, later⟩
        exact none ⟨onDevice, Or.inr later⟩

/-! ## Loading -/

section Load

variable {codec : Session.Codec ω (KVCache α) β} {locate : Paths} {files : Files β} {f : Format}
  {sessionId : String}
variable {tokens : List Int}

/-- The session that `load` makes of a stored prefill. -/
def loaded (m : Model α) (tokens : List Int) (segments : List Segment) (onDevice : Bool) :
    SegmentedSession α :=
  if onDevice then
    { ctx := ⟨segments⟩, onDevice := true, dev := some (TorchKVSession.fromKVCache (m.prefill tokens)) }
  else { ctx := ⟨segments⟩, onDevice := false, kv := some (m.prefill tokens) }

omit [Inhabited α] in
theorem load_eq (stored : (Session.step codec locate files (.load f sessionId)).1 = .loaded
    (m.prefill tokens))
    (segments : List Segment) (onDevice : Bool) :
    load m codec locate files f sessionId segments onDevice =
      if (⟨segments⟩ : SegmentedContext).tokenIds.length ≠ tokens.length then .error .lengthMismatch
      else .ok (loaded m tokens segments onDevice) := by
  simp only [load, stored, prefill_seqLen, SegmentedContext.length_tokenIds, ne_comm]
  congr 1
  cases onDevice <;> rfl

omit [Inhabited α] in
theorem loaded_attached (tokens : List Int) {segments : List Segment}
    (same : (⟨segments⟩ : SegmentedContext).tokenIds = tokens)
    (onDevice : Bool) : Attached m (loaded m tokens segments onDevice) := by
  subst same
  cases onDevice with
  | false =>
    refine ⟨fun _ => ⟨⟨rfl, fun _ => rfl, fun label v found => ?_⟩, rfl⟩, fun side => by cases side⟩
    cases found
  | true => exact ⟨fun side => (by cases side), fun _ => ⟨rfl, _, rfl, rfl, rfl⟩⟩

omit [Inhabited α] in
/-- The KV keeps the tokens it was computed for. -/
theorem eq_of_holdsText_loaded {segments : List Segment} {onDevice : Bool}
    (holds : HoldsText m (loaded m tokens segments onDevice)) :
      (⟨segments⟩ : SegmentedContext).tokenIds = tokens := by
  cases onDevice with
  | false =>
    have same : m.prefill tokens = m.prefill (⟨segments⟩ : SegmentedContext).tokenIds := by
      simpa [HoldsText, held, readKV, loaded] using holds
    have texts := congrArg KVCache.tokenIds same
    rw [prefill_tokenIds, prefill_tokenIds, Option.some.injEq] at texts
    exact texts.symm
  | true =>
    have same : (TorchKVSession.fromKVCache (m.prefill tokens)).toKVCache m =
        some (m.prefill (⟨segments⟩ : SegmentedContext).tokenIds) := by
      simpa [HoldsText, held, readKV, loaded, TorchKVSession.toKVCache,
        TorchKVSession.fromKVCache] using holds
    have texts := congrArg KVCache.tokenIds (Option.some.inj same)
    exact (Option.some.inj texts).symm

/-- A session loaded from a stored prefill holds its text, also after every later edit, append and
delete, exactly when the segmentation has the recorded tokens and a device session does not start
again without a token; and nothing is loaded for another number of tokens. -/
theorem load_holdsText_iff (causal : Causal m) (whole : WholePass m)
    (injective : Function.Injective hashTokens)
    (stored : (Session.step codec locate files (.load f sessionId)).1 = .loaded (m.prefill tokens))
    (segments : List Segment) (onDevice : Bool) {calls : List Call}
    (mutations : ∀ c ∈ calls, c.isMutation = true) :
    (∀ s, load m codec locate files f sessionId segments onDevice = .ok s →
        ∀ before, before <+: calls → HoldsText m (s.after m hashTokens before)) ↔
      (⟨segments⟩ : SegmentedContext).tokenIds.length ≠ tokens.length ∨
        ((⟨segments⟩ : SegmentedContext).tokenIds = tokens ∧
          ¬(onDevice = true ∧ startsBlank segments calls)) := by
  rw [load_eq stored]
  by_cases lengths : (⟨segments⟩ : SegmentedContext).tokenIds.length ≠ tokens.length
  · rw [if_pos lengths]
    exact ⟨fun _ => Or.inl lengths, fun _ s raised => by cases raised⟩
  · rw [if_neg lengths]
    have side : (loaded m tokens segments onDevice).onDevice = onDevice := by cases onDevice <;> rfl
    have text :
      (loaded m tokens segments onDevice).ctx.segments = segments := by cases onDevice <;> rfl
    constructor
    · intro all
      have holds := all _ rfl
      have same := eq_of_holdsText_loaded (holds [] List.nil_prefix)
      have blank :=
        (holdsText_after_iff causal whole injective
          (loaded_attached tokens same onDevice) mutations).1 holds
      rw [side, text] at blank
      exact Or.inr ⟨same, blank⟩
    · rintro (other | ⟨same, blank⟩) s made
      · exact absurd other lengths
      · cases made
        apply (holdsText_after_iff causal whole injective
          (loaded_attached tokens same onDevice) mutations).2
        rwa [side, text]

end Load

/-! ## Two stores -/

/-- Formats that keep a KV as it is. -/
def keepingCodec : Session.Codec Unit (KVCache Int) (KVCache Int) where
  save _ _ kv := some kv
  load _ kv := some kv
  kept _ kv := kv
  load_save _ _ _ _ saved := saved.symm

/-- A directory in which session `chat` was saved with these tokens. -/
def savedChat (tokens : List Int) : Files (KVCache Int) :=
  (Session.step keepingCodec (fun path => some (.inRoot path)) .empty
    (.save .blob () "chat" (sumModel.prefill tokens))).2

theorem load_holdsText_iff_chat :
    (∀ s, load sumModel keepingCodec (fun path => some (.inRoot path))
      (savedChat [1, 2]) .npz "chat"
          [⟨"a", [1], "context"⟩, ⟨"b", [2], "context"⟩] true = .ok s →
        ∀ before, before <+: [.delete (.name "a"), .append ⟨"c", [], "context"⟩] →
          HoldsText sumModel (s.after sumModel (id : List Int → List Int) before)) ↔
      ([1, 2] : List Int).length ≠ ([1, 2] : List Int).length ∨
        (([1, 2] : List Int) = [1, 2] ∧
          ¬(true = true ∧ startsBlank [⟨"a", [1], "context"⟩, ⟨"b", [2], "context"⟩]
            [.delete (.name "a"), .append ⟨"c", [], "context"⟩])) :=
  load_holdsText_iff sumModel_causal (fun _ _ => rfl) Function.injective_id rfl
    [⟨"a", [1], "context"⟩, ⟨"b", [2], "context"⟩] true (by decide)

/-- The stored KV is that of tokens 1, 2; paired with a segmentation of tokens 2, 1 it is loaded. -/
theorem loads_other_text (onDevice : Bool) :
    ∃ s, load sumModel keepingCodec (fun path => some (.inRoot path)) (savedChat [1, 2]) .npz "chat"
        [⟨"a", [2, 1], "context"⟩] onDevice = .ok s ∧ ¬HoldsText sumModel s := by
  have stored :
    (Session.step keepingCodec (fun path => some (.inRoot path)) (savedChat [1, 2])
    (.load .npz "chat")).1 =
      .loaded (sumModel.prefill [1, 2]) := rfl
  refine ⟨loaded sumModel [1, 2] [⟨"a", [2, 1], "context"⟩] onDevice, ?_, fun holds => ?_⟩
  · rw [load_eq stored, if_neg (by decide)]
  · cases eq_of_holdsText_loaded holds

theorem load_pairs_other_text :
    (∃ s, load sumModel keepingCodec (fun path => some (.inRoot path))
      (savedChat [1, 2]) .npz "chat"
        [⟨"a", [2, 1], "context"⟩] false = .ok s ∧ ¬HoldsText sumModel s) ∧
      ∃ s, load sumModel keepingCodec (fun path => some (.inRoot path))
        (savedChat [1, 2]) .npz "chat"
        [⟨"a", [2, 1], "context"⟩] true = .ok s ∧ ¬HoldsText sumModel s :=
  ⟨loads_other_text false, loads_other_text true⟩

end SegmentedSession

end Dexa.Segments
