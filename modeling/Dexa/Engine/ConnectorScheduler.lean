import Mathlib.Algebra.Order.Ring.Rat
import Dexa.Engine.ConnectorWorker
import Dexa.Lib.Machine

/-! # The connector's scheduler side (`dexa/engine/vllm_connector.py`)

The scheduler asks, for a new request, how many prompt tokens the store can supply
(`getNumNewMatchedTokens`), tells the connector where they go once it has allocated
blocks (`updateStateAfterAlloc`), and at the end of its step collects the plan for the
worker (`buildConnectorMeta`).  What the store holds is an argument of each hook:
other workers write to it between calls.

The configuration's floats are rationals.
-/

namespace Dexa.Engine

open Dexa.Core Dexa.Lib

/-- The content hash of a token list, and which characters Python's `isalnum` accepts. -/
structure Hashing where
  hashTokens : List Int → String
  isAlnum : Char → Bool

/-- `prefix_key`. -/
def prefixKey (h : Hashing) (tokenIds : List Int) (modelName : String) : String :=
  let digest := h.hashTokens tokenIds
  if modelName = "" then "dexa-" ++ digest
  else
    let safe := modelName.toList.map fun c => if h.isAlnum c || "-_.".toList.contains c then c
      else '_'
    String.ofList safe ++ "-" ++ digest

/-- `dexa_load_policy`; any string but the other two is adaptive. -/
inductive LoadPolicy where
  | adaptive
  | always
  | never
  deriving DecidableEq, Repr

def loadDecision (nTokens : Int) (policy : LoadPolicy) (minLoadTokens : Int)
    (contentionFactor : ℚ) : Bool :=
  match policy with
  | .always => true
  | .never => false
  | .adaptive => decide ((nTokens : ℚ) ≥ minLoadTokens * max (1 / 1000000) contentionFactor)

def contentionFactorFromBusy (busy floor : ℚ) : ℚ :=
  let busy := min 1 (max 0 busy)
  let floor := min 1 (max 0 floor)
  1 - busy * (1 - floor)

structure SchedulerConfig where
  blockSize : Nat
  modelName : String
  loadPolicy : LoadPolicy := .adaptive
  minLoadTokens : Int := 32768
  contentionAware : Bool := false
  contentionFactor : ℚ := 1
  contentionFloor : ℚ := 1 / 10
  maxBatchTokens : Int := 0
  maxSeqs : Int := 0
  asyncLoad : Bool := true

structure Scheduler where
  cfg : SchedulerConfig
  hashing : Hashing
  busyEma : ℚ := 0
  /-- requests that matched the store this step -/
  needsLoad : Dict String String := Dict.empty
  /-- the blocks allocated to receive their KV -/
  loadBlocks : Dict String (List Nat) := Dict.empty

/-- A request as the scheduler hooks see it. -/
structure Request where
  reqId : String
  promptTokenIds : List Int
  deriving DecidableEq, Repr

structure NewRequest where
  reqId : String
  promptTokenIds : List Int
  numComputedTokens : Nat
  blockIds : List (List Nat)
  deriving DecidableEq, Repr

structure SchedulerOutput where
  totalNumScheduledTokens : Int
  numCachedReqs : Nat
  scheduledNewReqs : List NewRequest
  numScheduledTokens : Dict String Nat

/-- `_block_ids`: the groups of a block descriptor, flattened. -/
def blockIdsOf (blocks : List (List Nat)) : List Nat := blocks.flatten

namespace Scheduler

def key (s : Scheduler) (tokens : List Int) : String := prefixKey s.hashing tokens s.cfg.modelName

/-- `_should_load`. -/
def shouldLoad (s : Scheduler) (nTokens : Int) : Bool :=
  let factor :=
    if s.cfg.contentionAware ∧ (0 < s.cfg.maxBatchTokens ∨ 0 < s.cfg.maxSeqs) then
      contentionFactorFromBusy s.busyEma s.cfg.contentionFloor
    else s.cfg.contentionFactor
  loadDecision nTokens s.cfg.loadPolicy s.cfg.minLoadTokens factor

/-- `get_num_new_matched_tokens`: the external tokens and the async flag. -/
def getNumNewMatchedTokens (s : Scheduler) (has : String → Bool) (request : Request)
    (numComputedTokens : Int) :
    (Int × Bool) × Scheduler :=
  let tokens := request.promptTokenIds
  let key := s.key tokens
  if ¬ has key then ((0, false), s)
  else
    let block : Int := s.cfg.blockSize
    let nExternal := (tokens.length : Int) - numComputedTokens
    let nExternal := min nExternal (tokens.length - 1)
    let nExternal := nExternal / block * block
    if nExternal ≤ 0 then ((0, false), s)
    else if ¬ s.shouldLoad nExternal then ((0, false), s)
    else ((nExternal, s.cfg.asyncLoad), { s with needsLoad := s.needsLoad.set request.reqId key })

/-- `update_state_after_alloc`. -/
def updateStateAfterAlloc (s : Scheduler) (reqId : String) (blocks : List (List Nat))
    (numExternalTokens : Int) :
    Scheduler :=
  if s.needsLoad.contains reqId ∧ 0 < numExternalTokens then
    { s with loadBlocks := s.loadBlocks.set reqId (blockIdsOf blocks) }
  else s

/-- The smoothed fullness of the engine's batches. -/
def observeBusy (s : Scheduler) (output : SchedulerOutput) : ℚ :=
  if 0 < s.cfg.maxBatchTokens ∨ 0 < s.cfg.maxSeqs then
    let running := output.scheduledNewReqs.length + output.numCachedReqs
    let tokFull : ℚ :=
      if s.cfg.maxBatchTokens ≠ 0 then output.totalNumScheduledTokens / s.cfg.maxBatchTokens else 0
    let seqFull : ℚ := if s.cfg.maxSeqs ≠ 0 then (running : ℚ) / s.cfg.maxSeqs else 0
    7 / 10 * s.busyEma + 3 / 10 * min 1 (max tokFull seqFull)
  else s.busyEma

/-- One scheduled new request's part of the save plan. -/
def planSave (s : Scheduler) (has : String → Bool) (numScheduled : Dict String Nat)
    (saves : Dict String SavePlan)
    (request : NewRequest) : Dict String SavePlan :=
  if s.needsLoad.contains request.reqId then saves
  else
    let prompt := request.promptTokenIds
    let completed := request.numComputedTokens + (numScheduled.get? request.reqId).getD 0
    if completed < prompt.length then saves
    else
      let key := s.key prompt
      if has key then saves
      else saves.set request.reqId { key := key, blockIds := blockIdsOf request.blockIds, tokenIds := prompt }

/-- The load plan: every matched request, with the blocks recorded for it or none. -/
def planLoads (s : Scheduler) : Dict String (String × List Nat) :=
  s.needsLoad.mapValues fun reqId key => (key, (s.loadBlocks.get? reqId).getD [])

/-- `build_connector_meta`. -/
def buildConnectorMeta (s : Scheduler) (has : String → Bool) (output : SchedulerOutput) :
    ConnectorMetadata × Scheduler :=
  let metadata : ConnectorMetadata :=
    { loads := s.planLoads
      saves := output.scheduledNewReqs.foldl (s.planSave has output.numScheduledTokens) Dict.empty }
  (metadata,
    { s with busyEma := s.observeBusy output, needsLoad := Dict.empty, loadBlocks := Dict.empty })

/-- `request_finished`: whether to delay freeing the blocks, and the parameters of a transfer. -/
def requestFinished (_reqId : String) (_blockIds : List (List Nat)) : Bool × Option Unit :=
  (false, none)

end Scheduler

end Dexa.Engine
