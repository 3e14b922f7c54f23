import Dexa.Lib.Json
import Dexa.Lib.NDArray

/-! # The cache data model (`dexa/core/types.py`)

A cache holds one key and one value array per layer, both `[n_kv_heads, T, head_dim]`,
the position ids the keys were computed at, and the tokens when they are known.
The element type is a parameter: nothing here computes with the numbers.
-/

namespace Dexa.Core

open Dexa.Lib

/-- The values a cache's `meta` may hold: those of JSON. -/
abbrev MetaValue := JsonValue

structure ModelSpec where
  name : String
  nLayers : Nat
  nQHeads : Nat
  nKvHeads : Nat
  headDim : Nat
  hiddenSize : Nat
  dtype : String := "float32"
  deriving DecidableEq, Repr

/-- Number of query heads sharing each kv head. -/
def ModelSpec.groupSize (spec : ModelSpec) : Nat := spec.nQHeads / spec.nKvHeads

def ModelSpec.kvHeadOf (spec : ModelSpec) (qHead : Nat) : Nat := qHead / spec.groupSize

/-- Full KV of one layer; both arrays are `[n_kv_heads, T, head_dim]`. -/
@[ext] structure LayerKV (α : Type) where
  key : NDArray α
  value : NDArray α

def LayerKV.map {α β : Type} (f : α → β) (l : LayerKV α) : LayerKV β :=
  ⟨l.key.map f, l.value.map f⟩

@[ext] structure KVCache (α : Type) where
  spec : ModelSpec
  layers : List (LayerKV α)
  positions : List Int
  tokenIds : Option (List Int) := Option.none
  metadata : Dict String MetaValue := Dict.empty

namespace KVCache

variable {α β : Type}

def seqLen (kv : KVCache α) : Nat := kv.positions.length

/-- Bytes held by the key and value arrays, `itemsize` bytes an element. -/
def nbytes (itemsize : Nat) (kv : KVCache α) : Nat :=
  (kv.layers.map fun l => itemsize * l.key.data.length + itemsize * l.value.data.length).sum

def mapElems (f : α → β) (kv : KVCache α) : KVCache β :=
  { spec := kv.spec, layers := kv.layers.map (LayerKV.map f), positions := kv.positions,
    tokenIds := kv.tokenIds, metadata := kv.metadata }

end KVCache

/-- One head of a compact layer; `key` and `value` are `[t, head_dim]`. -/
structure CompactHead (α : Type) where
  key : NDArray α
  value : NDArray α
  biases : List α
  positions : List Int

/-- Compact KV of one layer, a list of heads per field: the budget may differ per head. -/
structure CompactLayer (α : Type) where
  keys : List (NDArray α)
  values : List (NDArray α)
  biases : List (List α)
  /-- the absolute position each compact key stands for -/
  positions : List (List Int)

namespace CompactLayer

variable {α : Type}

def ofHeads (heads : List (CompactHead α)) : CompactLayer α :=
  { keys := heads.map (·.key), values := heads.map (·.value), biases := heads.map (·.biases),
    positions := heads.map (·.positions) }

def head? (layer : CompactLayer α) (h : Nat) : Option (CompactHead α) := do
  return { key := ← layer.keys[h]?, value := ← layer.values[h]?, biases := ← layer.biases[h]?,
           positions := ← layer.positions[h]? }

theorem head?_eq_some {layer : CompactLayer α} {h : Nat} {head : CompactHead α} :
    layer.head? h = some head ↔ layer.keys[h]? = some head.key ∧
      layer.values[h]? = some head.value ∧
      layer.biases[h]? = some head.biases ∧ layer.positions[h]? = some head.positions := by
  constructor
  · intro found
    simp only [head?, bind, Option.bind_eq_some_iff, pure, Option.some.injEq] at found
    obtain ⟨key, hkey, value, hvalue, biases, hbiases, positions, hpositions, rfl⟩ := found
    exact ⟨hkey, hvalue, hbiases, hpositions⟩
  · rintro ⟨key, value, biases, positions⟩
    simp [head?, key, value, biases, positions]

@[simp] theorem head?_ofHeads (heads : List (CompactHead α)) (h : Nat) :
    (ofHeads heads).head? h = heads[h]? := by
  cases present : heads[h]? <;> simp [head?, ofHeads, present]

end CompactLayer

/-- A compacted KV cache; tokens appended after it get positions from `logicalLength` on. -/
structure CompactCache (α : Type) where
  spec : ModelSpec
  layers : List (CompactLayer α)
  logicalLength : Nat
  method : String := "unknown"
  metadata : Dict String MetaValue := Dict.empty

/-- Reference queries for attention-matching compaction, per layer `[n_q_heads, n_ref,
    head_dim]`. -/
structure RefQueries (α : Type) where
  spec : ModelSpec
  layers : List (NDArray α)

/-- `np.arange(lo, hi)`. -/
def arange (lo hi : Nat) : List Int := (List.range' lo (hi - lo)).map Int.ofNat

@[simp] theorem length_arange (lo hi : Nat) : (arange lo hi).length = hi - lo := by
  simp [arange]

theorem mem_arange {lo hi : Nat} {p : Int} : p ∈ arange lo hi ↔ (lo : Int) ≤ p ∧ p < hi := by
  simp only [arange, List.mem_map, List.mem_range'_1]
  constructor
  · rintro ⟨i, inside, rfl⟩
    simp only [Int.ofNat_eq_natCast]
    omega
  · intro inside
    exact ⟨p.toNat, by omega, Int.toNat_of_nonneg (by omega)⟩

theorem pairwise_arange (lo hi : Nat) : (arange lo hi).Pairwise (· < ·) := by
  have increasing : (List.range' lo (hi - lo)).Pairwise (· < ·) := List.pairwise_lt_range'
  exact List.pairwise_map.2 (increasing.imp fun lt => Int.ofNat_lt.2 lt)

theorem take_arange (n hi : Nat) : (arange 0 hi).take n = arange 0 (min n hi) := by
  simp only [arange, Nat.sub_zero, ← List.map_take]
  rcases Nat.le_total n hi with h | h
  · rw [List.take_range'_of_length_ge h, Nat.min_eq_left h]
  · rw [List.take_range'_of_length_le h, Nat.min_eq_right h]

end Dexa.Core
