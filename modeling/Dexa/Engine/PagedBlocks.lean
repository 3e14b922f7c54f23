import Dexa.Core.Types

/-! # Paged KV blocks (`dexa/engine/vllm_cartridge.py`, `dexa/engine/vllm_connector.py`)

The packing of a cache into fixed-size blocks and its inverse.  Slot `i` of a
sequence is offset `i % blockSize` of block `i / blockSize`; `packHeadMajor_ok` and
`unpackBlocks_ok` say this of the two directions, for arrays of one layer.
-/

namespace Dexa.Engine

open Dexa.Core Dexa.Lib

variable {α : Type} [Inhabited α]

inductive BlockError where
  /-- `expected [t, n_kv_heads, head_dim]; got ...` -/
  | notTokenMajor (shape : List Nat)
  /-- `block_size must be positive` -/
  | blockSize
  /-- `expected per-layer [n_kv_heads, T, head_dim]; got ... / ...` -/
  | notHeadMajor (key value : List Nat)
  /-- `k_blocks/v_blocks length mismatch` -/
  | lengthMismatch
  /-- `expected paged blocks [num_blocks, block_size, n_kv, d]; got ...` -/
  | notPaged (shape : List Nat)
  deriving DecidableEq, Repr

def ceilDiv (t b : Nat) : Nat := (t + b - 1) / b

theorem lt_ceilDiv_mul {t b i : Nat} (positive : 0 < b) (hi : i < t) : i < ceilDiv t b * b := by
  have bound := Nat.div_add_mod (t + b - 1) b
  have small := Nat.mod_lt (t + b - 1) positive
  rw [Nat.mul_comm] at bound
  simp only [ceilDiv]
  omega

/-- `pack_token_major_into_blocks`: one layer's `[t, n_kv_heads, head_dim]` array as
    `[num_blocks, block_size, n_kv_heads, head_dim]`, the last block padded with `zero`. -/
def packTokenMajorIntoBlocks (zero : α) (tokenMajor : NDArray α) (blockSize : Nat) :
    Except BlockError (NDArray α) :=
  match tokenMajor.shape with
  | [t, nKv, d] =>
    if blockSize = 0 then .error .blockSize
    else
      let numBlocks := ceilDiv t blockSize
      let out := (NDArray.full [numBlocks * blockSize, nKv, d] zero).assignTake tokenMajor
      .ok (out.reshape [numBlocks, blockSize, nKv, d] (by simp [out, NDArray.full, Nat.mul_assoc]))
  | shape => .error (.notTokenMajor shape)

/-- The loop body of `kvcache_to_paged_blocks`. -/
def packLayer (zero : α) (blockSize : Nat) (layer : LayerKV α) :
    Except BlockError (NDArray α × NDArray α) := do
  if layer.key.shape.length ≠ 3 ∨ layer.value.shape.length ≠ 3 then
    throw (.notHeadMajor layer.key.shape layer.value.shape)
  let k ← packTokenMajorIntoBlocks zero layer.key.swapAxes blockSize
  let v ← packTokenMajorIntoBlocks zero layer.value.swapAxes blockSize
  return (k, v)

/-- `kvcache_to_paged_blocks`. -/
def kvcacheToPagedBlocks (zero : α) (kv : KVCache α) (blockSize : Nat) :
    Except BlockError (List (NDArray α) × List (NDArray α)) := do
  if blockSize = 0 then throw .blockSize
  let blocks ← kv.layers.mapM (packLayer zero blockSize)
  return (blocks.map Prod.fst, blocks.map Prod.snd)

/-- `blocks.reshape(nb * bs, n_kv, d)[:T].transpose(1, 0, 2)`. -/
def unpackBlocks (t : Nat) (blocks : NDArray α) : Except BlockError (NDArray α) :=
  match h : blocks.shape with
  | [nb, bs, nKv, d] =>
    .ok ((blocks.reshape [nb * bs, nKv, d] (by simp [h, Nat.mul_assoc])).take t).swapAxes
  | shape => .error (.notPaged shape)

/-- The loop body of `paged_blocks_to_kvcache`. -/
def unpackLayer (t : Nat) (blocks : NDArray α × NDArray α) : Except BlockError (LayerKV α) := do
  let key ← unpackBlocks t blocks.1
  let value ← unpackBlocks t blocks.2
  return { key := key, value := value }

/-- `paged_blocks_to_kvcache`. -/
def pagedBlocksToKVCache (kBlocks vBlocks : List (NDArray α)) (spec : ModelSpec)
    (positions : List Int)
    (tokenIds : Option (List Int)) : Except BlockError (KVCache α) := do
  if kBlocks.length ≠ vBlocks.length then throw .lengthMismatch
  let layers ← (kBlocks.zip vBlocks).mapM (unpackLayer positions.length)
  return { spec := spec, layers := layers, positions := positions, tokenIds := tokenIds }

theorem packTokenMajorIntoBlocks_ok (zero : α) {tokenMajor : NDArray α} {t nKv d b : Nat}
    (hshape : tokenMajor.shape = [t, nKv, d]) (positive : 0 < b) :
    ∃ out, packTokenMajorIntoBlocks zero tokenMajor b = .ok out ∧
      out.shape = [ceilDiv t b, b, nKv, d] ∧
      ∀ i h c x, i < t → h < nKv → c < d → tokenMajor.get? [i, h, c] = some x →
        out.get? [i / b, i % b, h, c] = some x := by
  simp only [packTokenMajorIntoBlocks, hshape, if_neg (Nat.ne_of_gt positive)]
  refine ⟨_, rfl, rfl, ?_⟩
  intro i h c x hi hh hc hx
  have fits := lt_ceilDiv_mul positive hi
  have block : i / b < ceilDiv t b := Nat.div_lt_of_lt_mul (by rwa [Nat.mul_comm])
  have merged : i / b * b + i % b = i := by rw [Nat.mul_comm]; exact Nat.div_add_mod i b
  have rest : NDArray.InBounds [nKv, d] [h, c] := ⟨hh, hc, trivial⟩
  rw [NDArray.get?_split rfl _ block (Nat.mod_lt i positive) rest, merged]
  exact NDArray.get?_assignTake ⟨fits, hh, hc, trivial⟩ hx

theorem unpackBlocks_eq {blocks : NDArray α} {nb b nKv d : Nat} (t : Nat)
    (hshape : blocks.shape = [nb, b, nKv, d])
    (sameSize : [nb * b, nKv, d].prod = blocks.shape.prod) :
    unpackBlocks t blocks = .ok ((blocks.reshape [nb * b, nKv, d] sameSize).take t).swapAxes := by
  unfold unpackBlocks
  split
  · rename_i h
    obtain ⟨rfl, rfl, rfl, rfl⟩ : _ ∧ _ ∧ _ ∧ _ := by simpa using h.symm.trans hshape
    rfl
  · rename_i other
    exact absurd hshape (other nb b nKv d)

/-- Unpacking does not fail on paged blocks; a token the blocks cover is read from its slot. -/
theorem unpackBlocks_ok {blocks : NDArray α} {nb b nKv d : Nat} (t : Nat)
    (hshape : blocks.shape = [nb, b, nKv, d]) :
    ∃ out, unpackBlocks t blocks = .ok out ∧ (t ≤ nb * b → out.shape = [nKv, t, d]) ∧
      ∀ i h c, i < t → i < nb * b → h < nKv → c < d →
        out.get? [h, i, c] = blocks.get? [i / b, i % b, h, c] := by
  have sameSize : [nb * b, nKv, d].prod = blocks.shape.prod := by simp [hshape, Nat.mul_assoc]
  have taken : ((blocks.reshape [nb * b, nKv, d] sameSize).take t).shape =
    [min t (nb * b), nKv, d] :=
    NDArray.shape_take t rfl
  refine ⟨_, unpackBlocks_eq t hshape sameSize, ?_, ?_⟩
  · intro covered
    rw [NDArray.shape_swapAxes taken, Nat.min_eq_left covered]
  · intro i h c hi inside hh hc
    have rest : NDArray.InBounds [nKv, d] [h, c] := ⟨hh, hc, trivial⟩
    rw [NDArray.get?_swapAxes taken, NDArray.get?_take rfl hi,
      NDArray.get?_merge hshape sameSize inside rest]

/-- One head-major array packed: token `i` is at offset `i % b` of block `i / b`. -/
theorem packHeadMajor_ok (zero : α) {a : NDArray α} {t nKv d b : Nat}
    (hshape : a.shape = [nKv, t, d])
    (positive : 0 < b) :
    ∃ out, packTokenMajorIntoBlocks zero a.swapAxes b = .ok out ∧
      out.shape = [ceilDiv t b, b, nKv, d] ∧
      ∀ i h c x, i < t → h < nKv → c < d → a.get? [h, i, c] = some x →
        out.get? [i / b, i % b, h, c] = some x := by
  obtain ⟨out, packed, shape, placed⟩ :=
    packTokenMajorIntoBlocks_ok zero (NDArray.shape_swapAxes hshape) positive
  refine ⟨out, packed, shape, ?_⟩
  intro i h c x hi hh hc hx
  exact placed i h c x hi hh hc (by rw [NDArray.get?_swapAxes hshape, hx])

end Dexa.Engine
