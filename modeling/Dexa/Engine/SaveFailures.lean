import Dexa.Engine.ConnectorRoundTrip
import Dexa.Lib.Fallible
import Dexa.Lib.Machine

/-! # Saves that raise

The worker captures layers into `_save_layers` while a step runs, persists what it captured in
`wait_for_save` and empties the accumulator behind the last request.  A save that raises skips
that, and the next step starts on the layers of this one.
-/

namespace Dexa.Engine

open Dexa.Core Dexa.Lib

variable {τ α β : Type} [Inhabited τ] [Inhabited α]

/-- One step: what was planned for it, the layers that stream by, and the requests whose
    `store.save` raises.  The layers are paged and the block tables lie inside them. -/
structure WorkerStep (τ : Type) [Inhabited τ] where
  metadata : Option ConnectorMetadata
  kvLayers : List (NDArray τ)
  fails : String → Bool
  nb : Nat
  b : Nat
  heads : Nat
  dim : Nat
  paged : ∀ t ∈ kvLayers, Paged t nb b heads dim
  inRange : ∀ plan, metadata = some plan → ∀ reqId save, plan.saves.get? reqId = some save →
    ∀ id ∈ save.blockIds, id < nb

inductive SaveError where
  | worker (e : WorkerError)
  /-- `store.save` raised for this request. -/
  | saveRaised (reqId : String)

/-- A call of `store.save`. -/
structure SaveCall (α : Type) where
  reqId : String
  key : String
  kv : KVCache α

structure SaveOutput (α : Type) where
  calls : List (SaveCall α) := []
  error : Option SaveError := none

/-- The KV that the captured layers of a request make. -/
def assemble (spec : ModelSpec) (save : SavePlan) (k v : List (NDArray α)) :
    Except BlockError (KVCache α) :=
  pagedBlocksToKVCache k v spec (saveGeometry save).1 (some (saveGeometry save).2)

/-- The loop of `wait_for_save`, with the calls it makes up to the one that raises. -/
def persistCalls (spec : ModelSpec) (plan : ConnectorMetadata) (fails : String → Bool) :
    List (String × CapturedLayers α) → SaveOutput α
  | [] => {}
  | (reqId, layers) :: rest =>
    match plan.saves.get? reqId with
    | none => { error := some (.worker (.notPlanned reqId)) }
    | some save =>
      match assemble spec save layers.k layers.v with
      | .error e => { error := some (.worker (.block e)) }
      | .ok kv =>
        let call := ⟨reqId, save.key, kv⟩
        if fails reqId then { calls := [call], error := some (.saveRaised reqId) }
        else
          let out := persistCalls spec plan fails rest
          { out with calls := call :: out.calls }

/-- `wait_for_save`, and what is left in `_save_layers`. -/
def finishSave (spec : ModelSpec) (metadata : Option ConnectorMetadata) (fails : String → Bool)
    (saveLayers : Dict String (CapturedLayers α)) : SaveOutput α × Dict String (CapturedLayers α) :=
  match metadata with
  | none => ({}, saveLayers)
  | some plan =>
    if saveLayers.entries = [] then ({}, saveLayers)
    else
      let out := persistCalls spec plan fails saveLayers.entries
      (out, if out.error.isNone then Dict.empty else saveLayers)

/-- A step: `save_kv_layer` for each layer, then `wait_for_save`. -/
def workerStep (codec : Codec τ α β) (spec : ModelSpec)
    (saveLayers : Dict String (CapturedLayers α)) (e : WorkerStep τ) :
    SaveOutput α × Dict String (CapturedLayers α) :=
  match e.kvLayers.foldlM (saveKvLayer codec e.metadata) saveLayers with
  | .ok captured => finishSave spec e.metadata e.fails captured
  -- not reached: the layers are paged and the blocks in range
  | .error err => ({ error := some (.worker err) }, saveLayers)

/-- `DexaConnector` on its save path; the state is `_save_layers`. -/
def saveWorker (codec : Codec τ α β) (spec : ModelSpec) :
    Machine (Dict String (CapturedLayers α)) (WorkerStep τ) (SaveOutput α) :=
  ⟨workerStep codec spec⟩

omit [Inhabited τ] in
theorem of_assemble {spec : ModelSpec} {save : SavePlan} {k v : List (NDArray α)} {kv : KVCache α}
    (assembled : assemble spec save k v = .ok kv) : kv.spec = spec ∧
      kv.layers.length = k.length := by
  rw [assemble, pagedBlocksToKVCache] at assembled
  split at assembled
  · cases assembled
  · next same =>
    obtain ⟨layers, run, made⟩ := Fallible.ok_of_bind assembled
    cases made
    exact ⟨rfl, by rw [Fallible.length_of_mapM run, List.length_zip, ← not_not.1 same,
      Nat.min_self]⟩

section Agreement

omit [Inhabited τ] in
theorem foldlM_persistRequest {codec : Codec τ α β} {spec : ModelSpec} {dtype : StoreDtype}
    (known : resolveStoreDtype spec.dtype = some dtype) {plan : ConnectorMetadata}
    {entries : List (String × CapturedLayers α)}
    (succeeds : (persistCalls spec plan (fun _ => false) entries).error = none)
    (store : SessionStore β) :
    entries.foldlM (persistRequest codec spec plan) store =
      .ok ((persistCalls spec plan (fun _ => false) entries).calls.foldl
        (fun store call => store.set call.key
          (dtype, call.kv.mapElems (codec.encode dtype))) store) := by
  induction entries generalizing store with
  | nil => rfl
  | cons entry rest ih =>
    obtain ⟨reqId, layers⟩ := entry
    cases planned : plan.saves.get? reqId with
    | none => simp [persistCalls, planned] at succeeds
    | some save =>
      cases assembled : assemble spec save layers.k layers.v with
      | error e => simp [persistCalls, planned, assembled] at succeeds
      | ok kv =>
        simp only [persistCalls, planned, assembled, Bool.false_eq_true, if_false] at succeeds ⊢
        have spec_kv := (of_assemble assembled).1
        have here : persistRequest codec spec plan store (reqId, layers) =
            .ok (store.set save.key (dtype, kv.mapElems (codec.encode dtype))) := by
          simp only [assemble] at assembled
          simp only [persistRequest, planned, assembled, orRaise, liftBlock, SessionStore.save,
            spec_kv, known, bind, Except.bind,
            pure, Except.pure]
        rw [List.foldlM_cons, here, List.foldl_cons]
        exact ih succeeds _

omit [Inhabited τ] in
/-- Where no save raises, this is `waitForSave` on the store. -/
theorem finishSave_eq_waitForSave {codec : Codec τ α β} {cfg : VllmConfig} {dtype : StoreDtype}
    (known : resolveStoreDtype cfg.spec.dtype = some dtype) {metadata : Option ConnectorMetadata}
    {saveLayers : Dict String (CapturedLayers α)}
    (succeeds : (finishSave cfg.spec metadata (fun _ => false) saveLayers).1.error = none)
    (store : SessionStore β) :
    waitForSave codec cfg metadata saveLayers store =
      .ok ((finishSave cfg.spec metadata (fun _ => false) saveLayers).2,
        (finishSave cfg.spec metadata (fun _ => false) saveLayers).1.calls.foldl
          (fun store call => store.set call.key
            (dtype, call.kv.mapElems (codec.encode dtype))) store) := by
  cases metadata with
  | none => rfl
  | some plan =>
    unfold finishSave waitForSave at *
    dsimp only at *
    split
    · simp
    · next something =>
      rw [if_neg something] at succeeds
      dsimp only at succeeds
      simp only [foldlM_persistRequest known succeeds store, succeeds]
      rfl

end Agreement

/-- What a step hands to the store is assembled from its own layers, in their order, and nothing but
    its own saves makes it fail. -/
structure Contained (codec : Codec τ α β) (spec : ModelSpec) (e : WorkerStep τ)
    (out : SaveOutput α) : Prop where
  assembled : ∀ call ∈ out.calls, ∃ plan save, e.metadata = some plan ∧
    plan.saves.get? call.reqId = some save ∧
    call.key = save.key ∧ assemble spec save (e.kvLayers.map (capture codec save.blockIds 0))
      (e.kvLayers.map (capture codec save.blockIds 1)) = .ok call.kv
  failure : ∀ err, out.error = some err → ∃ call ∈ out.calls, err = .saveRaised call.reqId ∧
    e.fails call.reqId = true
  complete : out.error = none → e.kvLayers ≠ [] → ∀ plan, e.metadata = some plan → ∀ reqId save,
    plan.saves.get? reqId = some save → ∃ call ∈ out.calls, call.reqId = reqId

/-- A save of this step raises. -/
def WorkerStep.SaveRaises (e : WorkerStep τ) : Prop :=
  e.kvLayers ≠ [] ∧ ∃ plan reqId, e.metadata = some plan ∧ (plan.saves.get? reqId).isSome ∧
    e.fails reqId = true

/-! ## One step -/

section Step

variable (codec : Codec τ α β) (spec : ModelSpec)

omit [Inhabited α] in
theorem foldlM_unbound (kvLayers : List (NDArray τ)) (saveLayers : Dict String (CapturedLayers α)) :
    kvLayers.foldlM (saveKvLayer codec none) saveLayers = .ok saveLayers := by
  induction kvLayers with
  | nil => rfl
  | cons t rest ih => exact ih

/-- A step without metadata does nothing. -/
theorem workerStep_unbound {e : WorkerStep τ} (unbound : e.metadata = none)
    (saveLayers : Dict String (CapturedLayers α)) :
    workerStep codec spec saveLayers e = ({}, saveLayers) := by
  rw [workerStep, unbound, foldlM_unbound]
  rfl

theorem workerStep_bound {e : WorkerStep τ} {plan : ConnectorMetadata}
    (bound : e.metadata = some plan)
    (saveLayers : Dict String (CapturedLayers α)) :
    ∃ captured, workerStep codec spec saveLayers e = finishSave spec (some plan) e.fails captured ∧
      e.kvLayers.foldlM (saveKvLayer codec (some plan)) saveLayers = .ok captured ∧
      (∀ rid save, plan.saves.get? rid = some save → (captured.get? rid).getD {} =
        { k := ((saveLayers.get? rid).getD {}).k ++ e.kvLayers.map (capture codec save.blockIds 0)
          v := ((saveLayers.get? rid).getD {}).v ++ e.kvLayers.map
            (capture codec save.blockIds 1) }) ∧
      ∀ rid, plan.saves.get? rid = none → captured.get? rid = saveLayers.get? rid := by
  obtain ⟨captured, run, planned, unplanned⟩ :=
    captureLayers_ok codec e.paged (e.inRange plan bound) saveLayers
  refine ⟨captured, ?_, run, planned, unplanned⟩
  rw [workerStep, bound, run]

/-- The layers of a step can be assembled for each of its requests. -/
theorem assemble_ok (e : WorkerStep τ) {plan : ConnectorMetadata} (bound : e.metadata = some plan)
    {reqId : String}
    {save : SavePlan} (planned : plan.saves.get? reqId = some save) :
    ∃ kv, assemble spec save (e.kvLayers.map (capture codec save.blockIds 0))
      (e.kvLayers.map (capture codec save.blockIds 1)) =
      .ok kv := by
  obtain ⟨kv, assembled, -⟩ :=
    pagedBlocksToKVCache_capture codec e.paged (e.inRange plan bound reqId save planned) spec
    (saveGeometry save).1 (some (saveGeometry save).2)
  exact ⟨kv, assembled⟩

/-- An entry of the accumulator that this step alone has filled. -/
def Fresh (e : WorkerStep τ) (plan : ConnectorMetadata) (entry : String × CapturedLayers α) :
    Prop :=
  ∃ save, plan.saves.get? entry.1 = some save ∧
    entry.2 =
      { k := e.kvLayers.map (capture codec save.blockIds 0), v := e.kvLayers.map (capture codec save.blockIds 1) }

variable {codec} in
/-- Persisting what one step captured: the calls are those of the entries, in order, up to the one
    that raises. -/
theorem persistCalls_fresh (e : WorkerStep τ) {plan : ConnectorMetadata}
    (bound : e.metadata = some plan)
    {entries : List (String × CapturedLayers α)}
    (fresh : ∀ entry ∈ entries, Fresh codec e plan entry) :
    (∀ call ∈ (persistCalls spec plan e.fails entries).calls, ∃ save,
      plan.saves.get? call.reqId = some save ∧
      call.key = save.key ∧ assemble spec save (e.kvLayers.map (capture codec save.blockIds 0))
        (e.kvLayers.map (capture codec save.blockIds 1)) = .ok call.kv) ∧
    (∀ err, (persistCalls spec plan e.fails entries).error = some err →
      ∃ call ∈ (persistCalls spec plan e.fails entries).calls, err = .saveRaised call.reqId ∧
        e.fails call.reqId = true) ∧
    ((persistCalls spec plan e.fails entries).error = none ↔ ∀ entry ∈ entries,
      e.fails entry.1 = false) ∧
    ((persistCalls spec plan e.fails entries).error = none →
      (persistCalls spec plan e.fails entries).calls.map SaveCall.reqId =
        entries.map Prod.fst) := by
  induction entries with
  | nil => exact ⟨nofun, nofun, by simp [persistCalls], fun _ => rfl⟩
  | cons entry rest ih =>
    obtain ⟨⟨save, planned, captured⟩, others⟩ := List.forall_mem_cons.1 fresh
    obtain ⟨reqId, layers⟩ := entry
    obtain ⟨kv, assembled⟩ := assemble_ok codec spec e bound planned
    obtain ⟨calls, failures, finishes, order⟩ := ih others
    dsimp only at planned captured
    subst captured
    simp only [persistCalls, planned, assembled]
    cases fails : e.fails reqId with
    | true =>
      refine ⟨?_, ?_, by simp [fails], nofun⟩
      · intro call member
        obtain rfl := List.mem_singleton.1 member
        exact ⟨save, planned, rfl, assembled⟩
      · intro err raised
        cases raised
        exact ⟨_, List.mem_cons_self, rfl, fails⟩
    | false =>
      refine ⟨?_, ?_, ?_, ?_⟩
      · intro call member
        obtain rfl | member := List.mem_cons.1 member
        · exact ⟨save, planned, rfl, assembled⟩
        · exact calls call member
      · intro err raised
        obtain ⟨call, member, raises⟩ := failures err raised
        exact ⟨call, List.mem_cons_of_mem _ member, raises⟩
      · rw [List.forall_mem_cons]
        exact ⟨fun done => ⟨fails, finishes.1 done⟩, fun done => finishes.2 done.2⟩
      · intro done
        exact congrArg (reqId :: ·) (order done)

omit [Inhabited α] in
/-- From an empty accumulator a step captures its own layers, for all its requests. -/
theorem captured_of_empty (e : WorkerStep τ) {plan : ConnectorMetadata}
    (bound : e.metadata = some plan)
    {captured : Dict String (CapturedLayers α)}
    (run : e.kvLayers.foldlM (saveKvLayer codec (some plan)) Dict.empty = .ok captured) :
    (∀ entry ∈ captured.entries, Fresh codec e plan entry) ∧
      (e.kvLayers ≠ [] → ∀ reqId save, plan.saves.get? reqId = some save →
        reqId ∈ captured.entries.map Prod.fst) := by
  obtain ⟨captured', run', reads, unplanned⟩ :=
    captureLayers_ok codec e.paged (e.inRange plan bound) Dict.empty
  obtain rfl := Except.ok.inj (run.symm.trans run')
  refine ⟨?_, ?_⟩
  · intro entry member
    have found := Dict.mem_entries_iff.1 member
    cases planned : plan.saves.get? entry.1 with
    | none =>
      rw [unplanned entry.1 planned] at found
      cases found
    | some save => exact ⟨save, planned, by simpa [found] using reads entry.1 save planned⟩
  · intro some_layer reqId save planned
    have layers := reads reqId save planned
    apply Dict.mem_keys_iff.2
    cases found : captured.get? reqId with
    | none =>
      have idle : e.kvLayers = [] := by simpa [found] using layers
      exact absurd idle some_layer
    | some slot => exact ⟨slot, rfl⟩

/-- A step that finds nothing left behind is contained, and leaves nothing unless a save raises. -/
theorem step_of_empty (e : WorkerStep τ) :
    Contained codec spec e (workerStep codec spec Dict.empty e).1 ∧
      ((workerStep codec spec Dict.empty e).2 = Dict.empty ↔ ¬ e.SaveRaises) := by
  cases bound : e.metadata with
  | none =>
    rw [workerStep_unbound codec spec bound]
    refine ⟨⟨nofun, nofun, fun _ _ plan planned => ?_⟩, fun _ raises => ?_, fun _ => rfl⟩
    · rw [bound] at planned
      cases planned
    · obtain ⟨-, plan, -, planned, -⟩ := raises
      rw [bound] at planned
      cases planned
  | some plan =>
    obtain ⟨captured, steps, run, -⟩ := workerStep_bound codec spec bound Dict.empty
    obtain ⟨fresh, present⟩ := captured_of_empty codec e bound run
    obtain ⟨calls, failures, finishes, order⟩ := persistCalls_fresh spec e bound fresh
    rw [steps, finishSave]
    dsimp only
    split
    -- nothing captured: no layers, or nothing planned
    · next nothing =>
      have idle : e.kvLayers ≠ [] → ∀ reqId, plan.saves.get? reqId = none := by
        intro some_layer reqId
        cases planned : plan.saves.get? reqId with
        | none => rfl
        | some save =>
          have member := present some_layer reqId save planned
          rw [nothing] at member
          cases member
      refine ⟨⟨nofun, nofun, ?_⟩, iff_of_true (Dict.ext_entries nothing) ?_⟩
      · intro _ some_layer plan' bound' reqId save planned
        cases bound.symm.trans bound'
        rw [idle some_layer reqId] at planned
        cases planned
      · rintro ⟨some_layer, plan', reqId, bound', planned, -⟩
        cases bound.symm.trans bound'
        rw [idle some_layer reqId] at planned
        cases planned
    · next something =>
      refine ⟨⟨?_, failures, ?_⟩, ?_⟩
      · intro call member
        obtain ⟨save, planned, key, assembled⟩ := calls call member
        exact ⟨plan, save, bound, planned, key, assembled⟩
      · intro done some_layer plan' bound' reqId save planned
        cases bound.symm.trans bound'
        have member := present some_layer reqId save planned
        rw [← order done, List.mem_map] at member
        exact member
      · have raises : e.SaveRaises ↔ ∃ entry ∈ captured.entries, e.fails entry.1 = true := by
          constructor
          · rintro ⟨some_layer, plan', reqId, bound', planned, raised⟩
            cases bound.symm.trans bound'
            obtain ⟨save, planned⟩ := Option.isSome_iff_exists.1 planned
            obtain ⟨entry, member, rfl⟩ := List.mem_map.1 (present some_layer reqId save planned)
            exact ⟨entry, member, raised⟩
          · rintro ⟨entry, member, raised⟩
            obtain ⟨save, planned, -⟩ := fresh entry member
            refine ⟨fun idle => ?_, plan, entry.1, bound, by rw [planned]; rfl, raised⟩
            rw [idle] at run
            cases run
            cases member
        have clean : (persistCalls spec plan e.fails captured.entries).error = none ↔
          ¬ e.SaveRaises := by
          rw [finishes, raises]
          simp
        rw [← clean]
        cases ended : (persistCalls spec plan e.fails captured.entries).error with
        | none => exact iff_of_true rfl rfl
        | some err => exact iff_of_false (fun emptied => something
            (congrArg Dict.entries emptied)) nofun

/-! ## Layers left behind -/

omit [Inhabited α] in
/-- A step appends to the accumulator's keys. -/
theorem keys_prefix_of_capture {kvLayers : List (NDArray τ)} {metadata : Option ConnectorMetadata}
    {saveLayers captured : Dict String (CapturedLayers α)}
    (run : kvLayers.foldlM (saveKvLayer codec metadata) saveLayers = .ok captured) :
      saveLayers.keys <+: captured.keys := by
  have request : ∀ (k v : NDArray τ) (acc : Dict String (CapturedLayers α)) entry acc',
    saveLayers.keys <+: acc.keys →
      captureRequest codec k v acc entry = .ok acc' → saveLayers.keys <+: acc'.keys := by
    intro k v acc entry acc' grows done
    obtain ⟨kBlocks, -, done⟩ := Fallible.ok_of_bind done
    obtain ⟨vBlocks, -, done⟩ := Fallible.ok_of_bind done
    cases done
    refine grows.trans ?_
    change acc.entries.map Prod.fst <+: (Dict.assign _ _ acc.entries).map Prod.fst
    rw [Dict.map_fst_assign]
    split
    · exact List.prefix_rfl
    · exact List.prefix_append ..
  refine Fallible.foldlM_invariant
    (P := fun acc => saveLayers.keys <+: acc.keys) ?_ List.prefix_rfl run
  intro acc t acc' grows done
  unfold saveKvLayer at done
  split at done
  · cases done
    exact grows
  · split at done
    · cases done
      exact grows
    · obtain ⟨⟨k, v⟩, -, done⟩ := Fallible.ok_of_bind done
      exact Fallible.foldlM_invariant (request k v) grows done

/-- Every entry of the accumulator holds a layer. -/
def Filled (saveLayers : Dict String (CapturedLayers α)) : Prop :=
  ∀ reqId layers, saveLayers.get? reqId = some layers → layers.k ≠ []

omit [Inhabited α] in
theorem Filled.capture {saveLayers captured : Dict String (CapturedLayers α)}
    (filled : Filled saveLayers) (e : WorkerStep τ)
    {plan : ConnectorMetadata} (bound : e.metadata = some plan)
    (run : e.kvLayers.foldlM (saveKvLayer codec (some plan)) saveLayers = .ok captured) :
      Filled captured := by
  cases layers : e.kvLayers with
  | nil =>
    rw [layers] at run
    cases run
    exact filled
  | cons t ts =>
    obtain ⟨captured', run', reads, unplanned⟩ :=
      captureLayers_ok codec e.paged (e.inRange plan bound) saveLayers
    obtain rfl := Except.ok.inj (run.symm.trans run')
    intro reqId slot found
    cases planned : plan.saves.get? reqId with
    | none => exact filled reqId slot ((unplanned reqId planned).symm.trans found)
    | some save =>
      have now := reads reqId save planned
      rw [found, Option.getD_some, layers] at now
      rw [now]
      simp

/-- On top of layers of an earlier step, no step with metadata is contained. -/
theorem not_contained_of_left (e : WorkerStep τ) {plan : ConnectorMetadata}
    (bound : e.metadata = some plan)
    {saveLayers : Dict String (CapturedLayers α)} (filled : Filled saveLayers)
    (left : saveLayers ≠ Dict.empty) :
    ¬ Contained codec spec e (workerStep codec spec saveLayers e).1 := by
  obtain ⟨captured, steps, run, reads, unplanned⟩ := workerStep_bound codec spec bound saveLayers
  cases old : saveLayers.entries with
  | nil => exact absurd (Dict.ext_entries old) left
  | cons first others =>
    obtain ⟨reqId, slot⟩ := first
    have kept := keys_prefix_of_capture codec run
    cases now : captured.entries with
    | nil =>
      rw [Dict.keys, Dict.keys, old, now] at kept
      exact absurd (List.prefix_nil.1 kept) (by simp)
    | cons entry rest =>
      obtain ⟨reqId', slot'⟩ := entry
      rw [Dict.keys, Dict.keys, old, now, List.map_cons, List.map_cons,
        List.cons_prefix_cons] at kept
      obtain ⟨rfl, -⟩ := kept
      have before : saveLayers.get? reqId = some slot :=
        Dict.mem_entries_iff.1 (old ▸ List.mem_cons_self)
      have after : captured.get? reqId = some slot' :=
        Dict.mem_entries_iff.1 (now ▸ List.mem_cons_self)
      -- the request left behind is persisted first
      have out : (workerStep codec spec saveLayers e).1 = persistCalls spec plan e.fails
        ((reqId, slot') :: rest) := by
        rw [steps, finishSave]
        simp only [now, List.cons_ne_nil, if_false]
      rw [out]
      intro contained
      cases planned : plan.saves.get? reqId with
      | none =>
        obtain ⟨_, -, raised, -⟩ :=
          contained.failure (.worker (.notPlanned reqId)) (by simp only [persistCalls, planned])
        cases raised
      | some save =>
        cases mixed : assemble spec save slot'.k slot'.v with
        | error err =>
          obtain ⟨_, -, raised, -⟩ :=
            contained.failure (.worker (.block err)) (by simp only [persistCalls, planned, mixed])
          cases raised
        | ok kv =>
          have called :
            (⟨reqId, save.key, kv⟩ : SaveCall α) ∈
            (persistCalls spec plan e.fails ((reqId, slot') :: rest)).calls := by
            simp only [persistCalls, planned, mixed]
            split <;> exact List.mem_cons_self
          obtain ⟨plan', save', bound', planned', -, own⟩ := contained.assembled _ called
          cases bound.symm.trans bound'
          cases planned.symm.trans planned'
          -- its slot has the old layers and the step's own, and so too many
          have layers := reads reqId save planned
          rw [before, after, Option.getD_some, Option.getD_some] at layers
          have long := (of_assemble mixed).2
          have short : kv.layers.length = _ := (of_assemble own).2
          rw [layers, List.length_append, List.length_map] at long
          rw [List.length_map] at short
          have some_layer := List.length_pos_iff.2 (filled reqId slot before)
          omega

end Step

/-! ## Every run -/

section Runs

variable (codec : Codec τ α β) (spec : ModelSpec)

theorem filled_next {saveLayers : Dict String (CapturedLayers α)} (filled : Filled saveLayers)
    (e : WorkerStep τ) :
    Filled ((saveWorker codec spec).next saveLayers e) := by
  change Filled (workerStep codec spec saveLayers e).2
  cases bound : e.metadata with
  | none =>
    rw [workerStep_unbound codec spec bound]
    exact filled
  | some plan =>
    obtain ⟨captured, steps, run, -⟩ := workerStep_bound codec spec bound saveLayers
    rw [steps, finishSave]
    dsimp only
    split
    · exact filled.capture codec e bound run
    · split
      · exact nofun
      · exact filled.capture codec e bound run

/-- A step is contained if and only if nothing is left behind or nothing is planned. -/
theorem contained_iff {saveLayers : Dict String (CapturedLayers α)} (filled : Filled saveLayers)
    (e : WorkerStep τ) :
    Contained codec spec e ((saveWorker codec spec).out saveLayers e) ↔ e.metadata = none ∨
      saveLayers = Dict.empty := by
  constructor
  · intro contained
    by_contra neither
    rw [not_or] at neither
    obtain ⟨plan, bound⟩ := Option.ne_none_iff_exists'.1 neither.1
    exact not_contained_of_left codec spec e bound filled neither.2 contained
  · rintro (unbound | rfl)
    · have out : (saveWorker codec spec).out saveLayers e = {} :=
        congrArg Prod.fst (workerStep_unbound codec spec unbound saveLayers)
      rw [out]
      refine ⟨nofun, nofun, fun _ _ plan planned => ?_⟩
      rw [unbound] at planned
      cases planned
    · exact (step_of_empty codec spec e).1

/-- Once something is left behind, it stays while nothing is planned. -/
theorem meets_of_left {saveLayers : Dict String (CapturedLayers α)} (left : saveLayers ≠ Dict.empty)
    (steps : List (WorkerStep τ)) :
    (saveWorker codec spec).Meets (fun saveLayers e => e.metadata = none ∨
      saveLayers = Dict.empty) saveLayers steps ↔
      ∀ e ∈ steps, e.metadata = none := by
  induction steps with
  | nil => simp [Machine.Meets]
  | cons e steps ih =>
    rw [Machine.Meets, List.forall_mem_cons, or_iff_left left]
    refine and_congr_right fun unbound => ?_
    have same : (saveWorker codec spec).next saveLayers e = saveLayers :=
      congrArg Prod.snd (workerStep_unbound codec spec unbound saveLayers)
    rw [same, ih]

theorem meets_iff_pairwise (steps : List (WorkerStep τ)) :
    (saveWorker codec spec).Meets (fun saveLayers e => e.metadata = none ∨
      saveLayers = Dict.empty) Dict.empty steps ↔
      steps.Pairwise fun e e' => e.SaveRaises → e'.metadata = none := by
  induction steps with
  | nil => simp [Machine.Meets]
  | cons e steps ih =>
    rw [Machine.Meets, List.pairwise_cons, and_iff_right (.inr rfl)]
    have leaves : (saveWorker codec spec).next Dict.empty e = Dict.empty ↔ ¬ e.SaveRaises :=
      (step_of_empty codec spec e).2
    by_cases raises : e.SaveRaises
    · rw [meets_of_left codec spec (fun emptied => leaves.1 emptied raises)]
      refine ⟨fun unbound => ⟨fun e' member _ => unbound e' member, ?_⟩,
        fun both e' member => both.1 e' member raises⟩
      exact List.pairwise_of_forall_mem_list fun _ _ e' member _ => unbound e' member
    · rw [leaves.2 raises, ih]
      exact ⟨fun rest => ⟨fun _ _ raised => absurd raised raises, rest⟩, And.right⟩

/-- Every step of a worker is contained if and only if no step after a raising save plans
    anything. -/
theorem saves_contained_iff (steps : List (WorkerStep τ)) :
    (∀ p ∈ (saveWorker codec spec).trace Dict.empty steps, Contained codec spec p.1 p.2) ↔
      steps.Pairwise fun e e' => e.SaveRaises → e'.metadata = none := by
  rw [← meets_iff_pairwise codec spec steps]
  have anywhere : (saveWorker codec spec).Meets (fun _ _ => True) Dict.empty steps :=
    Machine.meets_of_forall (fun _ _ => trivial) _ steps
  exact Machine.Meets.good_iff (Contained codec spec)
    (fun saveLayers e filled _ => contained_iff codec spec filled e)
    (fun saveLayers e filled _ _ => filled_next codec spec filled e) nofun anywhere

end Runs

/-- A step of one layer that saves one request. -/
def savingStep (reqId : String) (raises : Bool) : WorkerStep Int where
  metadata := some { loads := Dict.empty, saves := Dict.empty.set reqId threeTokens }
  kvLayers := [cellNumbers [3, 2, 2, 1, 1]]
  fails _ := raises
  nb := 3
  b := 2
  heads := 1
  dim := 1
  paged t member := by
    obtain rfl := List.mem_singleton.1 member
    exact ⟨rfl, by decide⟩
  inRange plan bound id save planned := by
    cases bound
    rw [Dict.get?_set] at planned
    split at planned
    · cases planned
      decide
    · cases planned

/-- After a save that raised, another request's step fails on it, and a step of the same request
    saves its layer twice. -/
theorem raised_save_spreads :
    ((saveWorker identityCodec (blockConfig 2).spec).trace Dict.empty [savingStep "a" true,
      savingStep "b" false]).map
        (fun p => (p.2.calls.map SaveCall.reqId, match p.2.error with
          | some (.worker (.notPlanned reqId)) => reqId
          | _ => "")) = [(["a"], ""), ([], "a")] ∧
      ((saveWorker identityCodec (blockConfig 2).spec).trace Dict.empty [savingStep "a" true,
        savingStep "a" false]).map
        (fun p => p.2.calls.map fun call => (call.reqId, call.kv.layers.length)) =
          [[("a", 1)], [("a", 2)]] ∧
      ¬ ∀ p ∈ (saveWorker identityCodec (blockConfig 2).spec).trace Dict.empty [savingStep "a" true,
        savingStep "b" false],
        Contained identityCodec (blockConfig 2).spec p.1 p.2 := by
  refine ⟨by decide +kernel, by decide +kernel, fun contained => ?_⟩
  have second := contained _ (List.mem_cons_of_mem _ List.mem_cons_self)
  have error : ((saveWorker identityCodec (blockConfig 2).spec).out
      ((saveWorker identityCodec (blockConfig 2).spec).next Dict.empty (savingStep "a" true))
      (savingStep "b" false)).error =
      some (.worker (.notPlanned "a")) := rfl
  obtain ⟨_, -, raised, -⟩ := second.failure _ error
  cases raised

end Dexa.Engine
