import Dexa.Engine.ConnectorScheduler

/-! # What the scheduler side promises the worker

A match must leave vLLM a token to compute, and every load of a step's plan must have
the blocks allocated to its request.  Neither holds of the code as it stands;
`matched_leaves_token_iff` and `planned_loads_have_blocks_iff` say exactly when they do.
-/

namespace Dexa.Engine

open Dexa.Core Dexa.Lib

namespace Scheduler

/-! ## The match -/

/-- The tokens a match of `total` prompt tokens claims beyond `computed` ones, before the
    policy is asked. -/
def claimable (block total computed : Int) : Int := min (total - computed)
    (total - 1) / block * block

/-- A match claims the whole blocks it can and remembers the key, or claims nothing and
    changes nothing. -/
theorem getNumNewMatchedTokens_cases (s : Scheduler) (has : String → Bool) (request : Request)
    (computed : Int) :
    let n := claimable s.cfg.blockSize request.promptTokenIds.length computed
    let key := s.key request.promptTokenIds
    (has key = true ∧ 0 < n ∧ s.shouldLoad n = true ∧
      s.getNumNewMatchedTokens has request computed =
        ((n, s.cfg.asyncLoad), { s with needsLoad := s.needsLoad.set request.reqId key })) ∨
    (¬ (has key = true ∧ 0 < n ∧ s.shouldLoad n = true) ∧
      s.getNumNewMatchedTokens has request computed = ((0, false), s)) := by
  intro n key
  by_cases stored : has key = true
  · by_cases positive : 0 < n
    · by_cases worthwhile : s.shouldLoad n = true
      · left
        refine ⟨stored, positive, worthwhile, ?_⟩
        simp only [getNumNewMatchedTokens, n, key, claimable] at *
        simp [stored, worthwhile, not_le.2 positive]
      · right
        refine ⟨fun h => worthwhile h.2.2, ?_⟩
        simp only [getNumNewMatchedTokens, n, key, claimable] at *
        simp [stored, worthwhile]
    · right
      refine ⟨fun h => positive h.2.1, ?_⟩
      simp only [getNumNewMatchedTokens, n, key, claimable] at *
      simp [stored, not_lt.1 positive]
  · right
    refine ⟨fun h => stored h.1, ?_⟩
    simp only [getNumNewMatchedTokens, key] at *
    simp [stored]

/-- With `computed` tokens in whole blocks, a claim reaches the end of the prompt exactly
    when some are computed and the prompt ends on a block boundary. -/
theorem claimable_reaches_end {b t c : Nat} (positive : 0 < b) (aligned : b ∣ c) (fewer : c < t)
    (claims : 0 < claimable b t c) : (t : Int) ≤ c + claimable b t c ↔ 0 < c ∧ b ∣ t := by
  have hb : (0 : Int) < b := by omega
  obtain ⟨k, rfl⟩ := aligned
  by_cases started : 0 < b * k
  · have smaller : min ((t : Int) - (b * k : Nat)) (t - 1) = t - (b * k : Nat) := by
      apply min_eq_left
      omega
    have rounded : claimable b t (b * k : Nat) = ((t : Int) - (b * k : Nat)) / b * b := by
      rw [claimable, smaller]
    have split := Int.emod_add_mul_ediv ((t : Int) - (b * k : Nat)) b
    have remainder : ((t : Int) - (b * k : Nat)) % b = t % b := by
      push_cast
      exact Int.sub_mul_emod_self_left _ _ _
    have small := Int.emod_nonneg (t : Int) hb.ne'
    rw [Int.mul_comm] at split
    rw [rounded, and_iff_right started, ← Int.natCast_dvd_natCast, Int.dvd_iff_emod_eq_zero]
    constructor
    · intro reaches
      omega
    · intro divides
      omega
  · have zero : b * k = 0 := by omega
    have rounded : claimable b t (b * k : Nat) = ((t : Int) - 1) / b * b := by
      rw [claimable, zero, min_eq_right (by simp)]
    have below := Int.ediv_mul_le ((t : Int) - 1) hb.ne'
    rw [rounded, zero]
    constructor
    · intro reaches
      omega
    · rintro ⟨absurd_start, -⟩
      omega

/-- What is claimed where the claim reaches the end: all that is not computed. -/
theorem claimable_eq_rest {b t c : Nat} (aligned : b ∣ c) (started : 0 < c) (ends : b ∣ t) :
    claimable b t c = t - c := by
  have divides : (b : Int) ∣ t - c :=
    Int.dvd_sub (Int.natCast_dvd_natCast.2 ends) (Int.natCast_dvd_natCast.2 aligned)
  rw [claimable, min_eq_left (by omega), Int.ediv_mul_cancel divides]

/-- A match is a number of whole blocks that leaves at least one token to compute, unless
    the store holds a prompt of whole blocks whose first blocks are computed already and
    whose rest is worth loading. -/
theorem matched_leaves_token_iff (s : Scheduler) (has : String → Bool) (request : Request)
    {computed : Nat}
    (positive : 0 < s.cfg.blockSize) (aligned : s.cfg.blockSize ∣ computed)
    (fewer : computed < request.promptTokenIds.length) :
    (0 < (s.getNumNewMatchedTokens has request computed).1.1 →
      (s.cfg.blockSize : Int) ∣ (s.getNumNewMatchedTokens has request computed).1.1 ∧
        computed + (s.getNumNewMatchedTokens has request computed).1.1 ≤
          (request.promptTokenIds.length : Int) - 1) ↔
    ¬ (has (s.key request.promptTokenIds) = true ∧ 0 < computed ∧
      s.cfg.blockSize ∣ request.promptTokenIds.length ∧
      s.shouldLoad ((request.promptTokenIds.length : Int) - computed) = true) := by
  have step := s.getNumNewMatchedTokens_cases has request computed
  simp only at step
  rcases step with ⟨stored, claims, worthwhile, result⟩ | ⟨refused, result⟩
  · have whole :
      (s.cfg.blockSize : Int) ∣ claimable s.cfg.blockSize request.promptTokenIds.length computed :=
      Int.dvd_mul_left _ _
    have reaches := claimable_reaches_end positive aligned fewer claims
    have claimed : (s.getNumNewMatchedTokens has request computed).1.1 =
        claimable s.cfg.blockSize request.promptTokenIds.length computed := by rw [result]
    rw [claimed]
    constructor
    · rintro leaves ⟨-, started, ends, -⟩
      have := reaches.2 ⟨started, ends⟩
      have := (leaves claims).2
      omega
    · intro exact_condition _
      refine ⟨whole, ?_⟩
      by_contra beyond
      obtain ⟨started, ends⟩ := reaches.1 (by omega)
      rw [claimable_eq_rest aligned started ends] at worthwhile
      exact exact_condition ⟨stored, started, ends, worthwhile⟩
  · have claimed : (s.getNumNewMatchedTokens has request computed).1.1 = 0 := by rw [result]
    rw [claimed]
    constructor
    · rintro - ⟨stored, started, ends, worthwhile⟩
      rw [claimable_eq_rest aligned started ends] at refused
      exact refused ⟨stored, by omega, worthwhile⟩
    · intro _ claims
      exact absurd claims (lt_irrefl 0)

end Scheduler

/-! A prompt of two blocks of sixteen tokens, the first of them computed already. -/

def wholeBlocks : Request := { reqId := "request", promptTokenIds := List.replicate 32 7 }

def alwaysLoad : SchedulerConfig := { blockSize := 16, modelName := "", loadPolicy := .always }

def constantHashing : Hashing := ⟨fun _ => "digest", Char.isAlphanum⟩

/-- The number of tokens claimed for it where the store holds its key. -/
def claimedOfWholeBlocks (numComputed : Nat) : Int :=
  (Scheduler.getNumNewMatchedTokens { cfg := alwaysLoad, hashing := constantHashing }
    (fun _ => true) wholeBlocks
    numComputed).1.1

theorem matched_leaves_no_token :
    ¬ (0 < claimedOfWholeBlocks 16 → (16 : Int) ∣ claimedOfWholeBlocks 16 ∧
      (16 : Nat) + claimedOfWholeBlocks 16 ≤ (wholeBlocks.promptTokenIds.length : Int) - 1) := by
  decide

theorem matched_leaves_token_iff_uncomputed :
    0 < claimedOfWholeBlocks 0 ∧ (16 : Int) ∣ claimedOfWholeBlocks 0 ∧
      (0 : Nat) + claimedOfWholeBlocks 0 ≤ (wholeBlocks.promptTokenIds.length : Int) - 1 := by
  have claims : 0 < claimedOfWholeBlocks 0 := by decide
  refine ⟨claims, ?_⟩
  exact (Scheduler.matched_leaves_token_iff { cfg := alwaysLoad, hashing := constantHashing }
    (fun _ => true) wholeBlocks
    (by decide) (by decide)
    (by decide)).2 (fun condition => absurd condition.2.1 (by decide)) claims

/-! ## The hooks over runs

A run is a list of hook calls.  Beside the connector's state it carries the log of the
current step: the calls since the last plan was built, each match with what it returned. -/

inductive HookCall where
  | matched (has : String → Bool) (request : Request) (numComputed : Nat)
  | allocated (reqId : String) (blocks : List (List Nat)) (numExternal : Int)
  | build (has : String → Bool) (output : SchedulerOutput)
  | finished (reqId : String) (blocks : List (List Nat))

inductive LogEntry where
  | claimed (reqId : String) (n : Int)
  | received (reqId : String) (blocks : List (List Nat)) (n : Int)
  deriving DecidableEq, Repr

structure StepState where
  scheduler : Scheduler
  log : List LogEntry

namespace StepState

def step (s : StepState) : HookCall → Option ConnectorMetadata × StepState
  | .matched has request numComputed =>
    let ((n, _), scheduler) := s.scheduler.getNumNewMatchedTokens has request numComputed
    (none, { scheduler := scheduler, log := s.log ++ [.claimed request.reqId n] })
  | .allocated reqId blocks n =>
    (none, { scheduler := s.scheduler.updateStateAfterAlloc reqId blocks n,
             log := s.log ++ [.received reqId blocks n] })
  | .build has output =>
    let (metadata, scheduler) := s.scheduler.buildConnectorMeta has output
    (some metadata, { scheduler := scheduler, log := [] })
  | .finished _ _ => (none, s)

def init (cfg : SchedulerConfig) (hashing : Hashing) : StepState :=
  { scheduler := { cfg := cfg, hashing := hashing }, log := [] }

/-- The calls vLLM's lifecycle allows: blocks are reported for a request matched in this
    step, with the number its match returned, and some block where that is not zero. -/
def Allowed (s : StepState) : HookCall → Prop
  | .allocated reqId blocks n => .claimed reqId n ∈ s.log ∧ (0 < n → blockIdsOf blocks ≠ [])
  | _ => True

/-- Every request matched in this step got its blocks in this step. -/
def AllAllocated (log : List LogEntry) : Prop :=
  ∀ reqId n, .claimed reqId n ∈ log → 0 < n → ∃ blocks n', .received reqId blocks n' ∈ log ∧ 0 < n'

/-- Every planned load has a destination: the blocks, not none, that its request was allocated
    in this step; and a request that was not allocated any has no load. -/
def LoadsHaveBlocks (log : List LogEntry) (metadata : ConnectorMetadata) : Prop :=
  (∀ reqId key ids, metadata.loads.get? reqId = some (key, ids) →
    ids ≠ [] ∧ ∃ blocks n, .received reqId blocks n ∈ log ∧ 0 < n ∧ ids = blockIdsOf blocks) ∧
  ∀ reqId, (∀ blocks n, .received reqId blocks n ∉ log) → metadata.loads.get? reqId = none

/-- What the connector remembers of the step, told from its log. -/
structure Tracks (s : StepState) : Prop where
  needs : ∀ reqId, (s.scheduler.needsLoad.get? reqId).isSome ↔ ∃ n, .claimed reqId n ∈ s.log ∧ 0 < n
  blocks : ∀ reqId ids, s.scheduler.loadBlocks.get? reqId = some ids →
    ids ≠ [] ∧ ∃ blocks n, .received reqId blocks n ∈ s.log ∧ 0 < n ∧ ids = blockIdsOf blocks
  recorded : ∀ reqId blocks n, .received reqId blocks n ∈ s.log → 0 < n →
    (s.scheduler.loadBlocks.get? reqId).isSome

theorem tracks_init (cfg : SchedulerConfig) (hashing : Hashing) : Tracks (init cfg hashing) :=
  ⟨by simp [init], by simp [init], by simp [init]⟩

theorem tracks_matched {s : StepState} (tracks : Tracks s) (has : String → Bool) (request : Request)
    (numComputed : Nat) : Tracks (s.step (.matched has request numComputed)).2 := by
  have result := s.scheduler.getNumNewMatchedTokens_cases has request numComputed
  simp only at result
  rcases result with ⟨-, claims, -, result⟩ | ⟨-, result⟩
  · refine ⟨?_, ?_, ?_⟩
    · intro reqId
      simp only [step, result, Dict.get?_set, List.mem_append, List.mem_singleton,
        LogEntry.claimed.injEq]
      by_cases same : request.reqId = reqId
      · simp only [same, if_true, Option.isSome_some, true_iff]
        exact ⟨_, .inr ⟨trivial, rfl⟩, claims⟩
      · simp only [same, if_false, tracks.needs reqId]
        constructor
        · rintro ⟨n, member, positive⟩
          exact ⟨n, .inl member, positive⟩
        · rintro ⟨n, member | ⟨same', -⟩, positive⟩
          · exact ⟨n, member, positive⟩
          · exact absurd same'.symm same
    · intro reqId ids found
      obtain ⟨nonempty, blocks, n, member, rest⟩ :=
        tracks.blocks reqId ids (by simpa [step, result] using found)
      exact ⟨nonempty, blocks, n, by simp [step, member], rest⟩
    · intro reqId blocks n member positive
      have earlier : LogEntry.received reqId blocks n ∈ s.log := by simpa [step] using member
      simpa [step, result] using tracks.recorded reqId blocks n earlier positive
  · refine ⟨?_, ?_, ?_⟩
    · intro reqId
      simp only [step, result, List.mem_append, List.mem_singleton, LogEntry.claimed.injEq,
        tracks.needs reqId]
      constructor
      · rintro ⟨n, member, positive⟩
        exact ⟨n, .inl member, positive⟩
      · rintro ⟨n, member | ⟨-, zero⟩, positive⟩
        · exact ⟨n, member, positive⟩
        · omega
    · intro reqId ids found
      obtain ⟨nonempty, blocks, n, member, rest⟩ :=
        tracks.blocks reqId ids (by simpa [step, result] using found)
      exact ⟨nonempty, blocks, n, by simp [step, member], rest⟩
    · intro reqId blocks n member positive
      have earlier : LogEntry.received reqId blocks n ∈ s.log := by simpa [step] using member
      simpa [step, result] using tracks.recorded reqId blocks n earlier positive

theorem tracks_allocated {s : StepState} (tracks : Tracks s) {reqId : String}
    {blocks : List (List Nat)} {n : Int}
    (allowed : s.Allowed (.allocated reqId blocks n)) :
      Tracks (s.step (.allocated reqId blocks n)).2 := by
  obtain ⟨claimed, nonempty⟩ := allowed
  have logged : ∀ e ∈ s.log, e ∈ (s.step (.allocated reqId blocks n)).2.log := fun e member => by
    simp [step, member]
  have sameClaims : ∀ r m, LogEntry.claimed r m ∈ (s.step (.allocated reqId blocks n)).2.log ↔
    .claimed r m ∈ s.log := by
    intro r m
    simp [step]
  by_cases positive : 0 < n
  · have matched : (s.scheduler.needsLoad.get? reqId).isSome :=
      (tracks.needs reqId).2 ⟨n, claimed, positive⟩
    have updated : (s.step (.allocated reqId blocks n)).2.scheduler =
        { s.scheduler with loadBlocks := s.scheduler.loadBlocks.set reqId (blockIdsOf blocks) } := by
      simp [step, Scheduler.updateStateAfterAlloc, Dict.contains, matched, positive]
    refine ⟨?_, ?_, ?_⟩
    · intro r
      simp only [updated, sameClaims]
      exact tracks.needs r
    · intro r ids found
      simp only [updated, Dict.get?_set] at found
      split at found
      · rename_i same
        obtain rfl := Option.some.inj found
        exact ⟨nonempty positive, blocks, n, by simp [step, same], positive, rfl⟩
      · obtain ⟨some_block, bs, m, member, rest⟩ := tracks.blocks r ids found
        exact ⟨some_block, bs, m, logged _ member, rest⟩
    · intro r bs m member pos
      simp only [updated, Dict.get?_set]
      split
      · rfl
      · rename_i other
        have earlier : LogEntry.received r bs m ∈ s.log := by
          rcases List.mem_append.1 member with member | member
          · exact member
          · simp only [List.mem_singleton, LogEntry.received.injEq] at member
            exact absurd member.1.symm other
        exact tracks.recorded r bs m earlier pos
  · have kept : (s.step (.allocated reqId blocks n)).2.scheduler = s.scheduler := by
      simp [step, Scheduler.updateStateAfterAlloc, positive]
    refine ⟨?_, ?_, ?_⟩
    · intro r
      simp only [kept, sameClaims]
      exact tracks.needs r
    · intro r ids found
      rw [kept] at found
      obtain ⟨some_block, bs, m, member, rest⟩ := tracks.blocks r ids found
      exact ⟨some_block, bs, m, logged _ member, rest⟩
    · intro r bs m member pos
      have earlier : LogEntry.received r bs m ∈ s.log := by
        rcases List.mem_append.1 member with member | member
        · exact member
        · simp only [List.mem_singleton, LogEntry.received.injEq] at member
          exact absurd (member.2.2 ▸ pos) positive
      rw [kept]
      exact tracks.recorded r bs m earlier pos

theorem step_tracks (s : StepState) (call : HookCall) (tracks : Tracks s)
    (allowed : s.Allowed call) :
    Tracks (s.step call).2 := by
  cases call with
  | matched has request numComputed => exact tracks_matched tracks has request numComputed
  | allocated reqId blocks n => exact tracks_allocated tracks allowed
  | build has output => exact ⟨by simp [step, Scheduler.buildConnectorMeta],
      by simp [step, Scheduler.buildConnectorMeta],
      by simp [step]⟩
  | finished reqId blocks => exact tracks

/-- The plan built at the end of a step has a destination for every load exactly when the
    step allocated blocks for every match. -/
theorem build_iff {s : StepState} (tracks : Tracks s) (has : String → Bool)
    (output : SchedulerOutput) :
    LoadsHaveBlocks s.log (s.scheduler.buildConnectorMeta has output).1 ↔ AllAllocated s.log := by
  have planned : ∀ reqId, (s.scheduler.buildConnectorMeta has output).1.loads.get? reqId =
      (s.scheduler.needsLoad.get? reqId).map
        fun key => (key, (s.scheduler.loadBlocks.get? reqId).getD []) :=
    fun reqId => Dict.get?_mapValues _ _ _
  constructor
  · rintro ⟨destinations, -⟩ reqId n claimed positive
    obtain ⟨key, matched⟩ :=
      Option.isSome_iff_exists.1 ((tracks.needs reqId).2 ⟨n, claimed, positive⟩)
    have load := planned reqId
    rw [matched] at load
    obtain ⟨-, blocks, n', received, positive', -⟩ := destinations reqId key _ load
    exact ⟨blocks, n', received, positive'⟩
  · intro allocated
    have destination : ∀ reqId key ids,
      (s.scheduler.buildConnectorMeta has output).1.loads.get? reqId =
        some (key, ids) → s.scheduler.loadBlocks.get? reqId = some ids := by
      intro reqId key ids load
      rw [planned reqId] at load
      obtain ⟨key', matched, pair⟩ := Option.map_eq_some_iff.1 load
      obtain ⟨n, claimed, positive⟩ := (tracks.needs reqId).1 (by rw [matched]; rfl)
      obtain ⟨blocks, n', received, positive'⟩ := allocated reqId n claimed positive
      obtain ⟨ids', found⟩ :=
        Option.isSome_iff_exists.1 (tracks.recorded reqId blocks n' received positive')
      rw [found] at pair ⊢
      exact congrArg (fun p => some p.2) pair
    refine ⟨fun reqId key ids load => tracks.blocks reqId ids (destination reqId key ids load), ?_⟩
    intro reqId unallocated
    cases load : (s.scheduler.buildConnectorMeta has output).1.loads.get? reqId with
    | none => rfl
    | some p =>
      obtain ⟨-, blocks, n, received, -⟩ := tracks.blocks reqId p.2 (destination reqId p.1 p.2 load)
      exact absurd received (unallocated blocks n)

end StepState

def schedulerHooks : Machine StepState HookCall (Option ConnectorMetadata) := ⟨StepState.step⟩

/-- `P` holds of the log of every step of a run, when its plan is built, and of that plan. -/
def EveryPlan (P : List LogEntry → ConnectorMetadata → Prop) (start : StepState)
    (calls : List HookCall) : Prop :=
  schedulerHooks.Meets
    (fun s call => match call with
      | .build has output => P s.log (s.scheduler.buildConnectorMeta has output).1
      | _ => True)
    start calls

/-- Over any run the lifecycle allows, every planned load has a destination exactly when every
    step allocates blocks for every request it matched. -/
theorem planned_loads_have_blocks_iff (cfg : SchedulerConfig) (hashing : Hashing)
    (calls : List HookCall)
    (allowed : schedulerHooks.Meets StepState.Allowed (StepState.init cfg hashing) calls) :
    EveryPlan StepState.LoadsHaveBlocks (StepState.init cfg hashing) calls ↔
      EveryPlan (fun log _ => StepState.AllAllocated log) (StepState.init cfg hashing) calls := by
  refine Machine.Meets.congr StepState.step_tracks ?_ (StepState.tracks_init cfg hashing) allowed
  intro s call tracks _
  cases call with
  | build has output => exact StepState.build_iff tracks has output
  | matched | allocated | finished => exact Iff.rfl

/-! A request of two whole blocks is matched; its allocation fails, or succeeds. -/

def idleOutput : SchedulerOutput :=
  { totalNumScheduledTokens := 0, numCachedReqs := 0, scheduledNewReqs := [], numScheduledTokens := Dict.empty }

theorem planned_load_without_blocks :
    schedulerHooks.Meets StepState.Allowed (StepState.init alwaysLoad constantHashing)
        [.matched (fun _ => true) wholeBlocks 0, .build (fun _ => true) idleOutput] ∧
      ¬ EveryPlan StepState.LoadsHaveBlocks (StepState.init alwaysLoad constantHashing)
        [.matched (fun _ => true) wholeBlocks 0, .build (fun _ => true) idleOutput] := by
  refine ⟨⟨trivial, trivial, trivial⟩, ?_⟩
  rintro ⟨-, ⟨destinations, -⟩, -⟩
  exact (destinations "request" "dexa-digest" [] (by decide)).1 rfl

theorem planned_loads_have_blocks_iff_allocated :
    EveryPlan StepState.LoadsHaveBlocks (StepState.init alwaysLoad constantHashing)
      [.matched (fun _ => true) wholeBlocks 0, .allocated "request" [[3]] 16,
        .build (fun _ => true) idleOutput] := by
  have allowed : schedulerHooks.Meets StepState.Allowed (StepState.init alwaysLoad constantHashing)
      [.matched (fun _ => true) wholeBlocks 0, .allocated "request" [[3]] 16,
        .build (fun _ => true) idleOutput] :=
    ⟨trivial, ⟨by decide, by decide⟩, trivial, trivial⟩
  refine (planned_loads_have_blocks_iff _ _ _ allowed).2 ⟨trivial, trivial, ?_, trivial⟩
  intro reqId n claimed _
  have log : (schedulerHooks.next (schedulerHooks.next (StepState.init alwaysLoad constantHashing)
      (.matched (fun _ => true) wholeBlocks 0)) (.allocated "request" [[3]] 16)).log =
        [.claimed "request" 16, .received "request" [[3]] 16] := by decide
  rw [log] at claimed ⊢
  have same : reqId = "request" ∧ n = 16 := by simpa using claimed
  exact ⟨[[3]], 16, by simp [same.1], by decide⟩

end Dexa.Engine
