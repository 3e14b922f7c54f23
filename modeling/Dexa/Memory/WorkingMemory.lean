import Mathlib.Algebra.Order.Group.Unbundled.Abs
import Dexa.Compaction.Baselines
import Dexa.Lib.Loop

/-! # Bounded working memory (`dexa/memory/working_memory.py`)

The context is kept as a compact memory of `tokens[:compact_end]` and a raw prefill of
the rest.  An append that takes the two over the budget compacts all but the recent
window into what the budget leaves for it.

A round of the compaction loop may raise or give up; `Round.stop` says so, and the loop's
guard reads it.  Time is left out (`compute_seconds`).
-/

namespace Dexa.Memory

open Dexa.Core Dexa.Lib Dexa.Compaction

/-- What the constructor accepted. -/
structure WorkingMemoryConfig where
  budgetTokens : Nat
  keepRecentTokens : Nat
  refStrategy : String
  refPerHead : Int
  fits : keepRecentTokens < budgetTokens

def WorkingMemoryConfig.compactBudget (config : WorkingMemoryConfig) : Nat :=
  config.budgetTokens - config.keepRecentTokens

structure WorkingMemory (α : Type) where
  config : WorkingMemoryConfig
  allTokens : List Int := []
  compactMem : Option (CompactCache α) := none
  recentRaw : Option (KVCache α) := none
  /-- logical tokens folded into `compactMem` -/
  compactEnd : Nat := 0
  total : Nat := 0
  nCompactions : Nat := 0
  peakTokens : Nat := 0
  peakRecomputeTokens : Nat := 0
  version : Nat := 0

variable {α : Type}

/-- `np.concatenate([a, b], axis=0)`. -/
def concatenate (a b : NDArray α) : Except Raised (NDArray α) :=
  match a.concat b with
  | some c => .ok c
  | none => .error (.valueError "all the input array dimensions except for the concatenation axis must match exactly")

section Clip

variable [LinearOrder α] [AddCommGroup α]

/-- `np.clip(x, -vmax, vmax)`. -/
def clip (vmax x : α) : α := min vmax (max (-vmax) x)

/-- `np.max(np.abs(a))`, 0 for an empty array. -/
def maxAbs (a : NDArray α) : α := (a.data.map fun x => |x|).foldl max 0

def clipLayer (cl : CompactLayer α) (fl : LayerKV α) : CompactLayer α :=
  let vmax := maxAbs fl.value
  if vmax ≤ 0 then cl else { cl with values := cl.values.map (NDArray.map (clip vmax)) }

def clipLayers : List (CompactLayer α) → List (LayerKV α) → List (CompactLayer α)
  | cl :: cls, fl :: fls => clipLayer cl fl :: clipLayers cls fls
  | cls, _ => cls

/-- `_clip_values`. -/
def clipValues (compact : CompactCache α) (full : KVCache α) : CompactCache α :=
  { compact with layers := clipLayers compact.layers full.layers }

end Clip

namespace WorkingMemory

def new (budgetTokens keepRecentTokens : Int) (refStrategy : String := "repeat_prefill")
    (refPerHead : Int := 128) :
    Except Raised (WorkingMemory α) :=
  if tooMany : keepRecentTokens ≥ budgetTokens then .error
    (.valueError "keep_recent_tokens must be < budget_tokens")
  else if negative : keepRecentTokens < 0 then .error
    (.valueError "keep_recent_tokens must be >= 0")
  else
    .ok { config :=
            { budgetTokens := budgetTokens.toNat, keepRecentTokens := keepRecentTokens.toNat, refStrategy, refPerHead,
              fits := by omega } }

def nRecent (s : WorkingMemory α) : Nat :=
  match s.recentRaw with
  | none => 0
  | some kv => kv.seqLen

/-- The tokens the compact memory holds on the first head of the first layer. -/
def compactPhys (s : WorkingMemory α) : Except Raised Nat := do
  match s.compactMem with
  | none => return 0
  | some mem => index (← index (← index mem.layers 0).keys 0).shape 0

def currentTokens (s : WorkingMemory α) : Except Raised Nat := return (← s.compactPhys) + s.nRecent

variable (backend : ModelBackend α)

/-- `_refresh_recent`. -/
def refreshRecent (s : WorkingMemory α) : WorkingMemory α :=
  let recentTokens := (s.allTokens.take s.total).drop s.compactEnd
  { s with recentRaw := if recentTokens = [] then none else some (backend.prefill recentTokens s.compactEnd) }

/-- `self.peak_tokens = max(self.peak_tokens, self.current_tokens)`. -/
def recordPeak (s : WorkingMemory α) : Except Raised (WorkingMemory α) := do
  return { s with peakTokens := max s.peakTokens (← s.currentTokens) }

variable (compactor : Compactor α) [LinearOrder α] [AddCommGroup α]

/-- `_compact_step`: all but the recent window goes into the compact budget. -/
def compactStep (s : WorkingMemory α) : Except Raised (WorkingMemory α) := do
  let newEnd := s.total - s.config.keepRecentTokens
  let oldTokens := s.allTokens.take newEnd
  let fullOld := backend.prefill oldTokens 0
  let refs :=
    if compactor.needsRefQueries then
      some (backend.referenceQueries oldTokens s.config.refStrategy s.config.refPerHead)
    else none
  let compact ← compactor.compact fullOld { tokensPerHead := some s.config.compactBudget } refs
  let s := { s with compactMem := some (clipValues compact fullOld), compactEnd := newEnd,
                    peakRecomputeTokens := max s.peakRecomputeTokens oldTokens.length }
  let s := refreshRecent backend s
  return { s with nCompactions := s.nCompactions + 1, version := s.version + 1 }

/-- The memory in the compaction loop, and how the loop was left. -/
structure Round (α : Type) where
  memory : WorkingMemory α
  stop : Option (Except Raised Unit) := none

def overBudget (s : WorkingMemory α) : Bool :=
  match s.currentTokens with
  | .ok current => s.config.budgetTokens < current && s.config.keepRecentTokens < s.total - s.compactEnd
  -- raises; `recordPeak` reads the same state next and raises it again
  | .error _ => false

/-- A round, with the break on no progress. -/
def compactRound (r : Round α) : Round α :=
  match compactStep backend compactor r.memory with
  | .error e => { r with stop := some (.error e) }
  | .ok s => { memory := s, stop := if s.compactEnd ≤ r.memory.compactEnd then some (.ok ()) else none }

/-- `_maybe_compact`. -/
def maybeCompact (bound : Nat) (s : WorkingMemory α) : Except Raised (WorkingMemory α) :=
  match whileLoop (fun r : Round α => r.stop.isNone && r.memory.overBudget)
      (fun r => some (compactRound backend compactor r)) bound { memory := s } with
  | none => .error .unfinished
  | some r =>
    match r.stop with
    | some (.error e) => .error e
    | _ => .ok r.memory

def append (bound : Nat) (s : WorkingMemory α) (tokenIds : List Int) :
    Except Raised (WorkingMemory α) := do
  if tokenIds = [] then return s
  let allTokens := s.allTokens ++ tokenIds
  let s := refreshRecent backend { s with allTokens, total := allTokens.length }
  let s ← s.recordPeak
  let s ← maybeCompact backend compactor bound s
  s.recordPeak

/-- A sequence of `append` calls. -/
def appendAll (bound : Nat) (s : WorkingMemory α) (calls : List (List Int)) :
    Except Raised (WorkingMemory α) :=
  calls.foldlM (append backend compactor bound) s

variable [Inhabited α]

/-- One head of the fused cache. -/
def fusedHead (cl : CompactLayer α) (rl : LayerKV α) (rr : KVCache α) (h : Nat) :
    Except Raised (CompactHead α) := do
  let key ← concatenate (← index cl.keys h) (← headOf rl.key h)
  let value ← concatenate (← index cl.values h) (← headOf rl.value h)
  let biases := (← index cl.biases h) ++ List.replicate rr.seqLen 0
  let positions := (← index cl.positions h) ++ rr.positions
  return { key, value, biases, positions }

def fusedLayer (cm : CompactCache α) (rr : KVCache α) (l : Nat) : Except Raised (CompactLayer α) :=
  do
  let cl ← index cm.layers l
  let rl ← index rr.layers l
  let heads ← (List.range backend.spec.nKvHeads).mapM (fusedHead cl rl rr)
  return .ofHeads heads

/-- The cache used for decoding: `[compact_mem ; recent_raw]`. -/
def combined (s : WorkingMemory α) : Except Raised (ContextCache α) := do
  match s.compactMem, s.recentRaw with
  | none, none => .error (.valueError "empty working memory: nothing to query")
  | none, some rr => return .raw rr
  | some cm, none => return .compact cm
  | some cm, some rr =>
    if rr.seqLen = 0 then return .compact cm
    let layers ← (List.range backend.spec.nLayers).mapM (fusedLayer backend cm rr)
    return .compact { spec := backend.spec, layers, logicalLength := s.total, method := "working_memory",
                      metadata := Dict.ofList [("compact_end", .int s.compactEnd)] }

end WorkingMemory

end Dexa.Memory
