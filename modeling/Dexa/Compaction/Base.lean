import Dexa.Core.Types
import Dexa.Lib.Fallible
import Dexa.Platform.Values

/-! # Compactors and backends (`dexa/compaction/base.py`, `dexa/engine/base.py`)

A compactor maps a full cache to a compact one under a budget; a backend turns tokens
into a cache.  Both are interfaces with several implementations, here structures of
functions.  `Shaped` is what every backend promises of a prefill, and `Compacts` what a
caller expects of a compactor that honours `tokens_per_head`.
-/

namespace Dexa.Compaction

open Dexa.Core Dexa.Lib Dexa.Platform

inductive Raised where
  | indexError
  | zeroDivision
  | valueError (message : String)
  | overflow
  /-- a loop did not end within the bound -/
  | unfinished
  deriving DecidableEq, Repr

/-- `l[i]`. -/
def index {β : Type} (l : List β) (i : Nat) : Except Raised β :=
  match l[i]? with
  | some x => .ok x
  | none => .error .indexError

theorem index_ok {β : Type} {l : List β} {i : Nat} {x : β} (here : l[i]? = some x) :
    index l i = .ok x := by
  rw [index, here]

theorem getElem?_of_index {β : Type} {l : List β} {i : Nat} {x : β} (read : index l i = .ok x) :
    l[i]? = some x := by
  rw [index] at read
  split at read
  next found => rw [found, Except.ok.inj read]
  next => cases read

/-- `a[h]`, the array of one head. -/
def headOf {α : Type} [Inhabited α] (a : NDArray α) (h : Nat) : Except Raised (NDArray α) :=
  if h < a.shape.headD 0 then .ok (a.select0 h) else .error .indexError

theorem headOf_ok {α : Type} [Inhabited α] {a : NDArray α} {n h : Nat} {rest : List Nat}
    (shape : a.shape = n :: rest)
    (inside : h < n) : ∃ b, headOf a h = .ok b ∧ b.shape = rest := by
  refine ⟨a.select0 h, ?_, NDArray.shape_select0 h shape⟩
  rw [headOf, shape, List.headD_cons, if_pos inside]

/-- A target ratio `T/t`, which comes first, or a number of tokens. -/
structure CompactionBudget where
  ratio : Option ℚ := none
  tokensPerHead : Option Int := none
  minTokens : Int := 1

def CompactionBudget.targetT (budget : CompactionBudget) (seqLen : Nat) : Except Raised Int :=
  match budget.ratio, budget.tokensPerHead with
  | some ratio, _ =>
    if ratio = 0 then .error .zeroDivision
      else .ok (max budget.minTokens (roundHalfEven (seqLen / ratio)))
  | none, some tokens => .ok (max budget.minTokens tokens)
  | none, none => .error (.valueError "CompactionBudget needs ratio or tokens_per_head")

structure Compactor (α : Type) where
  name : String
  needsRefQueries : Bool
  compact : KVCache α → CompactionBudget → Option (RefQueries α) → Except Raised (CompactCache α)

structure ModelBackend (α : Type) where
  spec : ModelSpec
  /-- `prefill(token_ids, position_offset=...)` -/
  prefill : List Int → Nat → KVCache α
  /-- `reference_queries(token_ids, strategy=..., n_per_head=...)` -/
  referenceQueries : List Int → String → Int → RefQueries α

/-- What a model decodes against. -/
inductive ContextCache (α : Type) where
  | raw (kv : KVCache α)
  | compact (cache : CompactCache α)

namespace ContextCache

variable {α : Type}

/-- The position the next token gets. -/
def logicalLength : ContextCache α → Nat
  | .raw kv => kv.seqLen
  | .compact cache => cache.logicalLength

/-- The positions of the keys one head attends over. -/
def positionsAt (layer h : Nat) : ContextCache α → Option (List Int)
  | .raw kv => kv.layers[layer]?.map fun _ => kv.positions
  | .compact cache => do (← cache.layers[layer]?).positions[h]?

end ContextCache

variable {α : Type}

/-- A prefill has a layer for each of the model's, of `[n_kv_heads, T, head_dim]`, at the
    positions from the offset on. -/
structure Shaped (backend : ModelBackend α) : Prop where
  layer : 0 < backend.spec.nLayers
  head : 0 < backend.spec.nKvHeads
  spec : ∀ tokens offset, (backend.prefill tokens offset).spec = backend.spec
  positions : ∀ tokens offset, (backend.prefill tokens offset).positions = arange offset
    (offset + tokens.length)
  layers_length : ∀ tokens offset, (backend.prefill tokens offset).layers.length =
    backend.spec.nLayers
  layer_shape : ∀ tokens offset, ∀ l ∈ (backend.prefill tokens offset).layers,
    l.key.shape = [backend.spec.nKvHeads, tokens.length, backend.spec.headDim] ∧
      l.value.shape = [backend.spec.nKvHeads, tokens.length, backend.spec.headDim]

theorem Shaped.seqLen {backend : ModelBackend α} (shaped : Shaped backend) (tokens : List Int)
    (offset : Nat) :
    (backend.prefill tokens offset).seqLen = tokens.length := by
  rw [KVCache.seqLen, shaped.positions, length_arange, Nat.add_sub_cancel_left]

/-- One head with `t` keys, at increasing positions below `bound`. -/
structure HeadFits (headDim t bound : Nat) (head : CompactHead α) : Prop where
  key : head.key.shape = [t, headDim]
  value : head.value.shape = [t, headDim]
  biases : head.biases.length = t
  positions : head.positions.length = t
  increasing : head.positions.Pairwise (· < ·)
  below : ∀ p ∈ head.positions, p < bound

/-- Every head of every layer keeps at most `size` tokens, at increasing positions below the
    logical length. -/
def CacheFits (spec : ModelSpec) (size : Nat) (cache : CompactCache α) : Prop :=
  ∀ l < spec.nLayers, ∀ h < spec.nKvHeads, ∃ layer head, cache.layers[l]? = some layer ∧
    layer.head? h = some head ∧
    ∃ t ≤ size, HeadFits spec.headDim t cache.logicalLength head

/-- The compactor keeps at most `tokens_per_head` tokens of a prefix on each head, and counts
    the whole prefix as its logical length. -/
def Compacts (compactor : Compactor α) (backend : ModelBackend α) : Prop :=
  ∀ (tokens : List Int) (size : Nat) (refs : Option (RefQueries α)), tokens ≠ [] → 0 < size →
    (compactor.needsRefQueries = true → refs.isSome = true) →
    ∃ cache, compactor.compact (backend.prefill tokens 0) { tokensPerHead := some size } refs =
      .ok cache ∧
      cache.logicalLength = tokens.length ∧ CacheFits backend.spec size cache

end Dexa.Compaction
