import Dexa.Engine.PrefixKeys
import Dexa.Memory.OversizePuts
import Dexa.Memory.StoreIsolation

/-! # Serving requests with block reuse (`dexa/bench/lmcache_baseline.py`)

A request is served block by block.  While no block of it has missed, a block whose key is
indexed is loaded from the tiered store; from the first miss on every block is prefilled and put.
The key of a block hashes all tokens up to its end, the store holds the KV of the block alone.

`Filed` ties the two: whatever the store holds under a key was prefilled for a block ending
where the key's tokens end, and with an injective hash these are the tokens of the request that
finds it (`IsBlock.eq_of_take`).  The backend's `prefill` and the hash are parameters.  Besides
its result a request reports each block with what was loaded or prefilled for it.
-/

namespace Dexa.Bench

open Dexa.Lib

open Dexa.Memory hiding Outcome

open Dexa.Engine (hashTokens hashTokens_isSome hashInput_injective hexOf hexHash_hexOf)

open TieredCacheStore

/-- `_chunk`. -/
def chunk (seq : List Int) (size : Nat) : List (List Int) :=
  (List.range' 0 ((seq.length + size - 1) / size) size).map fun i => (seq.drop i).take size

structure RequestResult where
  nTokens : Nat
  nBlocks : Nat
  reusedTokens : Nat
  recomputedTokens : Nat
  reusedBlocks : Nat
  recomputedBlocks : Nat
  deriving DecidableEq, Repr

structure LMCacheStrategy (α : Type) where
  store : TieredCacheStore α
  blockSize : Nat
  positive : 0 < blockSize
  tenant : String
  results : List RequestResult := []
  totalTokens : Nat := 0
  reusedTokens : Nat := 0
  recomputedTokens : Nat := 0

/-- How a block was served: by what `store.get` returned, or by a prefill. -/
inductive Served (α : Type) where
  | loaded (cache : Option α)
  | prefilled (kv : α)
  deriving DecidableEq, Repr

structure Block (α : Type) where
  tokens : List Int
  offset : Nat
  served : Served α
  deriving DecidableEq, Repr

/-- The variables of `process` between two blocks. -/
structure Serving (α : Type) where
  store : TieredCacheStore α
  reusedTokens : Nat := 0
  recomputedTokens : Nat := 0
  reusedBlocks : Nat := 0
  recomputedBlocks : Nat := 0
  /-- once a prefix block misses, all later blocks must recompute -/
  diverged : Bool := false
  offset : Nat := 0
  served : List (Block α) := []

/-- Why a request is not served to its end. -/
inductive Failure where
  /-- `OverflowError`: a token does not fit into the four bytes that `hash_tokens` gives it -/
  | overflow
  | stuck (why : Stuck)
  deriving DecidableEq, Repr

/-- What `process` returns or raises, and the blocks it served. -/
structure Outcome (α : Type) where
  result : Except Failure RequestResult
  blocks : List (Block α)

namespace LMCacheStrategy

variable {α : Type} (nbytes : α → Nat) (blake2b : List UInt8 → String)
  (prefill : List Int → Nat → α)

/-- `LMCacheStrategy(backend, store, block_size=.., tenant=..)`. -/
def init (store : Option (TieredCacheStore α)) (blockSize : Int) (tenant : String) :
    Except String (LMCacheStrategy α) :=
  if positive : blockSize ≤ 0 then .error "block_size must be positive"
  else .ok { store := store.getD (TieredCacheStore.init []), blockSize := blockSize.toNat, positive := by omega, tenant }

/-- The body of the loop of `process`. -/
def serveBlock (tenant : String) (tokenIds : List Int) (st : Serving α) (block : List Int) :
    Except Failure (Serving α) :=
  let stop := st.offset + block.length
  match hashTokens blake2b (tokenIds.take stop) with
  | none => .error .overflow
  | some key =>
    let (handle, store) := st.store.has tenant key
    match st.diverged, handle with
    | false, some handle => do
      let (cache, store, _) ← (store.get (store.entries.size + 1) handle).mapError .stuck
      return { st with
        store
        reusedTokens := st.reusedTokens + block.length
        reusedBlocks := st.reusedBlocks + 1
        offset := stop
        served := st.served ++ [⟨block, st.offset, .loaded cache⟩] }
    | _, _ => do
      let kv := prefill block st.offset
      let (_, store, _) ← (store.put nbytes (store.entries.size + 1) tenant key kv).mapError .stuck
      return { st with
        store
        diverged := true
        recomputedTokens := st.recomputedTokens + block.length
        recomputedBlocks := st.recomputedBlocks + 1
        offset := stop
        served := st.served ++ [⟨block, st.offset, .prefilled kv⟩] }

/-- The loop of `process`, up to a block that fails. -/
def serveBlocks (tenant : String) (tokenIds : List Int) : Serving α → List (List Int) →
    Serving α × Option Failure
  | st, [] => (st, none)
  | st, block :: rest =>
    match serveBlock nbytes blake2b prefill tenant tokenIds st block with
    | .ok st => serveBlocks tenant tokenIds st rest
    | .error failure => (st, some failure)

def process (s : LMCacheStrategy α) (tokenIds : List Int) : Outcome α × LMCacheStrategy α :=
  let blocks := chunk tokenIds s.blockSize
  match serveBlocks nbytes blake2b prefill s.tenant tokenIds { store := s.store } blocks with
  -- the store keeps what was put before
  | (st, some failure) => (⟨.error failure, st.served⟩, { s with store := st.store })
  | (st, none) =>
    let res : RequestResult :=
      { nTokens := tokenIds.length, nBlocks := blocks.length, reusedTokens := st.reusedTokens
        recomputedTokens := st.recomputedTokens, reusedBlocks :=
          st.reusedBlocks, recomputedBlocks := st.recomputedBlocks }
    (⟨.ok res, st.served⟩, { s with
      store := st.store
      results := s.results ++ [res]
      totalTokens := s.totalTokens + res.nTokens
      reusedTokens := s.reusedTokens + st.reusedTokens
      recomputedTokens := s.recomputedTokens + st.recomputedTokens })

end LMCacheStrategy

/-- A strategy under requests one after the other. -/
def lmcache {α : Type} (nbytes : α → Nat) (blake2b : List UInt8 → String)
    (prefill : List Int → Nat → α) :
    Machine (LMCacheStrategy α) (List Int) (Outcome α) :=
  ⟨LMCacheStrategy.process nbytes blake2b prefill⟩

section Blocks

variable {size : Nat} {tokenIds tokenIds' tokens tokens' : List Int} {offset offset' : Nat}

/-- A block of the request: cut at a multiple of the block size, up to the next one or the end. -/
structure IsBlock (size : Nat) (tokenIds : List Int) (offset : Nat) (tokens : List Int) : Prop where
  aligned : size ∣ offset
  inside : offset < tokenIds.length
  cut : tokens = (tokenIds.drop offset).take size

theorem IsBlock.length (block : IsBlock size tokenIds offset tokens) :
    tokens.length = min size (tokenIds.length - offset) := by
  rw [block.cut, List.length_take, List.length_drop]

/-- The tokens up to the end of a block determine where it starts. -/
theorem IsBlock.offset_eq (positive : 0 < size) (block : IsBlock size tokenIds offset tokens) :
    offset = size * ((offset + tokens.length - 1) / size) := by
  obtain ⟨k, rfl⟩ := block.aligned
  have length := block.length
  have inside := block.inside
  have last : (size * k + tokens.length - 1) / size = k := by
    apply Nat.div_eq_of_lt_le
    · rw [Nat.mul_comm]
      omega
    · rw [Nat.succ_mul, Nat.mul_comm k]
      omega
  rw [last]

/-- Two blocks with the same tokens up to their ends are the same block after the same tokens. -/
theorem IsBlock.eq_of_take (positive : 0 < size) (block : IsBlock size tokenIds offset tokens)
    (block' : IsBlock size tokenIds' offset' tokens')
    (same : tokenIds.take (offset + tokens.length) = tokenIds'.take (offset' + tokens'.length)) :
    offset = offset' ∧ tokens = tokens' ∧ tokenIds.take offset = tokenIds'.take offset' := by
  have length := block.length
  have length' := block'.length
  have inside := block.inside
  have inside' := block'.inside
  have ends : offset + tokens.length = offset' + tokens'.length := by
    have := congrArg List.length same
    rw [List.length_take, List.length_take] at this
    omega
  have starts : offset = offset' := by
    rw [block.offset_eq positive, block'.offset_eq positive, ends]
  subst starts
  have slice : ∀ {l t : List Int}, IsBlock size l offset t →
    t = (l.take (offset + t.length)).drop offset := by
    intro l t block
    have bound : t.length ≤ size := by
      rw [block.length]
      exact Nat.min_le_left ..
    rw [List.drop_take, Nat.add_sub_cancel_left, ← Nat.min_eq_left bound, ← List.take_take,
      ← block.cut, List.take_length]
  refine ⟨rfl, ?_, ?_⟩
  · rw [slice block, slice block', same]
  · have := congrArg (List.take offset) same
    rwa [List.take_take, List.take_take, Nat.min_eq_left (Nat.le_add_right ..),
      Nat.min_eq_left (Nat.le_add_right ..)] at this

/-- What is left of a request from an offset on, cut into its blocks. -/
def Cut (size : Nat) (tokenIds : List Int) : Nat → List (Nat × List Int) → Prop
  | offset, [] => offset = tokenIds.length
  | offset,
      p :: rest => p.1 = offset ∧ IsBlock size tokenIds p.1 p.2 ∧
      Cut size tokenIds (offset + p.2.length) rest

/-- The blocks of a request, each with its offset. -/
def cuts (tokenIds : List Int) (size : Nat) : List (Nat × List Int) :=
  (List.range' 0 ((tokenIds.length + size - 1) / size) size).map
    fun i => (i, (tokenIds.drop i).take size)

theorem chunk_eq (tokenIds : List Int) (size : Nat) :
    chunk tokenIds size = (cuts tokenIds size).map Prod.snd := by
  rw [chunk, cuts, List.map_map]
  rfl

theorem cut_cuts (positive : 0 < size) (tokenIds : List Int) :
    Cut size tokenIds 0 (cuts tokenIds size) := by
  suffices ∀ n offset, size ∣ offset → offset ≤ tokenIds.length →
    n = (tokenIds.length - offset + size - 1) / size →
      Cut size tokenIds offset
        ((List.range' offset n size).map fun i => (i, (tokenIds.drop i).take size)) from
    this _ 0 (Nat.dvd_zero size) (Nat.zero_le _) rfl
  intro n
  induction n with
  | zero =>
    intro offset aligned inside count
    have := (Nat.div_eq_zero_iff).1 count.symm
    have : offset = tokenIds.length := by omega
    exact this
  | succ n ih =>
    intro offset aligned inside count
    have some_ : offset < tokenIds.length := by
      by_contra past
      rw [Nat.div_eq_of_lt (by omega)] at count
      cases count
    have block : IsBlock size tokenIds offset ((tokenIds.drop offset).take size) :=
      ⟨aligned, some_, rfl⟩
    have length := block.length
    refine ⟨rfl, block, ?_⟩
    rw [length]
    by_cases last : tokenIds.length ≤ offset + size
    · -- the last block ends the request, whatever its length
      have : n = 0 := by
        rw [Nat.div_eq_of_lt_le
          (show 1 * size ≤ _ by omega) (show _ < (1 + 1) * size by omega)] at count
        omega
      subst this
      show offset + min size (tokenIds.length - offset) = tokenIds.length
      omega
    · rw [Nat.min_eq_left (by omega)]
      refine ih (offset + size) (Nat.dvd_add aligned (Nat.dvd_refl size)) (by omega) ?_
      have split : tokenIds.length - offset + size - 1 = tokenIds.length - (offset + size) +
        size - 1 + size := by omega
      rw [split, Nat.add_div_right _ positive] at count
      exact Nat.succ.inj count

end Blocks

variable {α : Type} {nbytes : α → Nat} {blake2b : List UInt8 → String}
  {prefill : List Int → Nat → α} {tenant : String}

/-- The store keeps its books, and what it holds under a key is filed there. -/
structure Held (nbytes : α → Nat) (tenant : String) (filed : String → α → Prop)
    (s : TieredCacheStore α) : Prop where
  books : Books nbytes s
  inhabited : s.tiers ≠ []
  traced : Traced (fun t key kv => t = tenant ∧ filed key kv) s

section Store

variable {filed : String → α → Prop} {s s' : TieredCacheStore α}

theorem Held.mono {filed' : String → α → Prop} (held : Held nbytes tenant filed s)
    (weaker : ∀ key kv, filed key kv → filed' key kv) : Held nbytes tenant filed' s :=
  ⟨held.books, held.inhabited, held.traced.mono fun _ _ _ known => ⟨known.1, weaker _ _ known.2⟩⟩

theorem Held.recounted (held : Held nbytes tenant filed s) (same : Recounted s s') :
    Held nbytes tenant filed s' :=
  ⟨held.books.of_fields same.entries same.index same.tiers same.clock same.used same.peak,
    same.tiers ▸ held.inhabited,
    held.traced.recounted same⟩

/-- Loading the handle of an indexed key: something is loaded, and it is filed under the key. -/
theorem Held.get (held : Held nbytes tenant filed s) {key handle : String} {bound : Nat}
    (indexed : s.index.get? (tenant, key) = some handle)
    {r : Option α × TieredCacheStore α × List (Drop α)}
    (loaded : s.get bound handle = .ok r) : Held nbytes tenant filed r.2.1 ∧ ∃ kv, r.1 = some kv ∧
      filed key kv := by
  obtain ⟨books', tiers', cache⟩ := held.books.get held.inhabited loaded
  obtain ⟨traced', origin⟩ := held.traced.get loaded
  obtain ⟨e, present, -⟩ := held.books.backed _ handle indexed
  rw [present] at cache
  obtain ⟨t, key', same, rfl, known⟩ := origin e.cache cache
  rw [held.books.index_eq indexed] at same
  obtain rfl := renderHandle_key_inj same
  exact ⟨⟨books', tiers'.symm ▸ held.inhabited, traced'⟩, e.cache, cache, known⟩

theorem Held.put (held : Held nbytes tenant filed s) {key : String} {kv : α} (new : filed key kv)
    {bound : Nat}
    {r : String × TieredCacheStore α × List (Drop α)}
    (done : s.put nbytes bound tenant key kv = .ok r) :
    Held nbytes tenant filed r.2.1 := by
  have absent : s.index.get? (tenant, key) = none →
    s.entries.get? (renderHandle tenant key) = none := by
    intro unindexed
    cases present : s.entries.get? (renderHandle tenant key) with
    | none => rfl
    | some e =>
      have file := held.books.filed _ e present
      obtain ⟨-, -, rfl, -⟩ := held.traced.filed _ e present
      have indexed := file.indexed
      rw [renderHandle_key_inj file.rendered, unindexed] at indexed
      cases indexed
  obtain ⟨books', tiers'⟩ := held.books.put held.inhabited absent done
  exact ⟨books', tiers'.symm ▸ held.inhabited, (held.traced.put ⟨rfl, new⟩ done).1⟩

end Store

/-! ## One block -/

theorem eq_of_hashTokens (injective : Function.Injective blake2b) {t t' : List Int} {key : String}
    (first : hashTokens blake2b t = some key) (second : hashTokens blake2b t' = some key) :
      t = t' := by
  obtain ⟨bytes, input, rfl⟩ := Option.map_eq_some_iff.1 first
  obtain ⟨bytes', input', same⟩ := Option.map_eq_some_iff.1 second
  obtain rfl := injective same
  exact hashInput_injective input input'

section Block

variable {tokenIds block : List Int} {st st' : Serving α}

namespace LMCacheStrategy

theorem serveBlock_cases
    (done : serveBlock nbytes blake2b prefill tenant tokenIds st block = .ok st') :
    ∃ key, hashTokens blake2b (tokenIds.take (st.offset + block.length)) = some key ∧
    ((st.diverged = false ∧ ∃ handle r, st.store.index.get? (tenant, key) = some handle ∧
      (st.store.has tenant key).2.get ((st.store.has tenant key).2.entries.size + 1) handle =
        .ok r ∧
      st' = { st with
        store := r.2.1
        reusedTokens := st.reusedTokens + block.length
        reusedBlocks := st.reusedBlocks + 1
        offset := st.offset + block.length
        served := st.served ++ [⟨block, st.offset, .loaded r.1⟩] }) ∨
    ∃ r, (st.store.has tenant key).2.put nbytes
      ((st.store.has tenant key).2.entries.size + 1) tenant key
        (prefill block st.offset) = .ok r ∧
      st' = { st with
        store := r.2.1
        diverged := true
        recomputedTokens := st.recomputedTokens + block.length
        recomputedBlocks := st.recomputedBlocks + 1
        offset := st.offset + block.length
        served := st.served ++ [⟨block, st.offset, .prefilled (prefill block st.offset)⟩] }) := by
  simp only [serveBlock] at done
  split at done
  · cases done
  · rename_i key hashed
    refine ⟨key, hashed, ?_⟩
    rw [has_fst] at done
    split at done
    · rename_i handle same indexed
      obtain ⟨r, loaded, left⟩ := Fallible.ok_of_bind done
      exact .inl ⟨same, handle, r, indexed, Fallible.ok_of_mapError loaded,
        (Except.ok.inj left).symm⟩
    · obtain ⟨r, stored, left⟩ := Fallible.ok_of_bind done
      exact .inr ⟨r, Fallible.ok_of_mapError stored, (Except.ok.inj left).symm⟩

variable (nbytes blake2b prefill tenant tokenIds block) in
/-- With distinct tier names a block is served unless its tokens overflow. -/
theorem serveBlock_returns (backed : ∀ slot h, st.store.index.get? slot = some h →
    ∃ e, st.store.entries.get? h = some e)
    (tended : Tended st.store) :
    hashTokens blake2b (tokenIds.take (st.offset + block.length)) = none ∧
        serveBlock nbytes blake2b prefill tenant tokenIds st block = .error .overflow ∨
      ∃ st', serveBlock nbytes blake2b prefill tenant tokenIds st block = .ok st' ∧
        Tended st'.store := by
  simp only [serveBlock]
  cases hashed : hashTokens blake2b (tokenIds.take (st.offset + block.length)) with
  | none => exact .inl ⟨rfl, rfl⟩
  | some key =>
    have same := recounted_has st.store tenant key
    have counted := tended.of_fields same.entries same.tiers same.clock same.used
    right
    dsimp only
    split
    · obtain ⟨r, loaded, kept⟩ := counted.get ‹String›
      rw [loaded]
      exact ⟨_, rfl, kept⟩
    · obtain ⟨r, stored, kept⟩ := counted.put nbytes (prefill block st.offset)
        fun h indexed => same.entries ▸ backed _ h (same.index ▸ indexed)
      rw [stored]
      exact ⟨_, rfl, kept⟩

end LMCacheStrategy

end Block

/-! ## One request -/

/-- Requests served, with their outcomes. -/
abbrev History (α : Type) := List (List Int × Outcome α)

/-- The request prefilled a block that ends where the tokens of the key end. -/
def FiledBy (blake2b : List UInt8 → String) (size : Nat) (tokenIds : List Int)
    (blocks : List (Block α)) (key : String)
    (kv : α) : Prop :=
  ∃ b ∈ blocks, b.served = .prefilled kv ∧ IsBlock size tokenIds b.offset b.tokens ∧
    hashTokens blake2b (tokenIds.take (b.offset + b.tokens.length)) = some key

theorem FiledBy.append {size : Nat} {tokenIds : List Int} {blocks : List (Block α)} {key : String}
    {kv : α}
    (filed : FiledBy blake2b size tokenIds blocks key kv) (more : List (Block α)) :
    FiledBy blake2b size tokenIds (blocks ++ more) key kv := by
  obtain ⟨b, member, rest⟩ := filed
  exact ⟨b, List.mem_append_left more member, rest⟩

def Filed (blake2b : List UInt8 → String) (size : Nat) (past : History α) (key : String)
    (kv : α) : Prop :=
  ∃ r ∈ past, FiledBy blake2b size r.1 r.2.blocks key kv

/-- An earlier request with the same tokens before the block prefilled `kv` for the block's tokens
    at the block's offset. -/
def ComputedBefore (past : History α) (tokenIds : List Int) (b : Block α) (kv : α) : Prop :=
  ∃ r ∈ past, ∃ b' ∈ r.2.blocks, b'.served = .prefilled kv ∧ b'.tokens = b.tokens ∧
    b'.offset = b.offset ∧
    r.1.take b.offset = tokenIds.take b.offset

/-- Blocks loaded from the store, and after them blocks prefilled. -/
structure LoadedThen (prefill : List Int → Nat → α) (past : History α) (tokenIds : List Int)
    (loaded prefilled : List (Block α)) : Prop where
  reused : ∀ b ∈ loaded, ∃ kv, b.served = .loaded (some kv) ∧ ComputedBefore past tokenIds b kv
  computed : ∀ b ∈ prefilled, b.served = .prefilled (prefill b.tokens b.offset)

/-- The tokens of some blocks. -/
def tokensIn (blocks : List (Block α)) : Nat := (blocks.map fun b => b.tokens.length).sum

@[simp] theorem tokensIn_nil : tokensIn ([] : List (Block α)) = 0 := rfl

@[simp] theorem tokensIn_append (blocks more : List (Block α)) :
    tokensIn (blocks ++ more) = tokensIn blocks + tokensIn more := by
  simp [tokensIn]

@[simp] theorem tokensIn_singleton (b : Block α) : tokensIn [b] = b.tokens.length := by
  simp [tokensIn]

/-- What is known between two blocks of a request. -/
structure Partway (nbytes : α → Nat) (blake2b : List UInt8 → String) (prefill : List Int → Nat → α)
    (tenant : String)
    (size : Nat) (past : History α) (tokenIds : List Int) (st : Serving α)
    (loaded prefilled : List (Block α)) : Prop where
  held : Held nbytes tenant
    (fun key kv => Filed blake2b size past key kv ∨
      FiledBy blake2b size tokenIds prefilled key kv) st.store
  served : st.served = loaded ++ prefilled
  split : LoadedThen prefill past tokenIds loaded prefilled
  diverged : st.diverged = false → prefilled = []
  reusedTokens : st.reusedTokens = tokensIn loaded
  recomputedTokens : st.recomputedTokens = tokensIn prefilled
  reusedBlocks : st.reusedBlocks = loaded.length
  recomputedBlocks : st.recomputedBlocks = prefilled.length
  offset : st.offset = tokensIn loaded + tokensIn prefilled

section Request

variable {size : Nat} {past : History α} {tokenIds block : List Int} {st st' : Serving α}
  {loaded prefilled : List (Block α)}

/-- One more block is loaded after the loaded ones, or prefilled at the end. -/
theorem Partway.next (positive : 0 < size) (injective : Function.Injective blake2b)
    (partway : Partway nbytes blake2b prefill tenant size past tokenIds st loaded prefilled)
    (isBlock : IsBlock size tokenIds st.offset block)
    (done : LMCacheStrategy.serveBlock nbytes blake2b prefill tenant tokenIds st block = .ok st') :
    st'.offset = st.offset + block.length ∧ ∃ b : Block α, b.tokens = block ∧ b.offset = st.offset ∧
      ∃ loaded' prefilled',
      loaded' ++ prefilled' = loaded ++ prefilled ++ [b] ∧
      Partway nbytes blake2b prefill tenant size past tokenIds st' loaded' prefilled' := by
  obtain ⟨key, hashed, ⟨same, handle, r, indexed, load, rfl⟩ | ⟨r, stored, rfl⟩⟩ :=
    LMCacheStrategy.serveBlock_cases done
  · obtain rfl := partway.diverged same
    have counted := partway.held.recounted (recounted_has st.store tenant key)
    obtain ⟨held', kv, cache, known⟩ :=
      counted.get ((recounted_has st.store tenant key).index ▸ indexed) load
    -- nothing of this request is filed yet
    obtain ⟨q, member, b', inBlocks, served, isBlock', hashed'⟩ :
      Filed blake2b size past key kv := by
      cases known with
      | inl before => exact before
      | inr now =>
        obtain ⟨b, inNone, -⟩ := now
        cases inNone
    -- blocks with the same tokens up to their ends are the same block
    obtain ⟨offsets, tokens, before⟩ :=
      isBlock.eq_of_take positive isBlock' (eq_of_hashTokens injective hashed hashed')
    refine ⟨rfl, ⟨block, st.offset, .loaded r.1⟩, rfl, rfl,
      loaded ++ [⟨block, st.offset, .loaded r.1⟩], [], by simp, held',
      ?_, ⟨fun b inLoaded => ?_, fun b inNone => (by cases inNone)⟩, fun _ => rfl, ?_,
        partway.recomputedTokens, ?_,
      partway.recomputedBlocks, ?_⟩
    · simp [partway.served]
    · cases List.mem_append.1 inLoaded with
      | inl earlier => exact partway.split.reused b earlier
      | inr now =>
        obtain rfl := List.mem_singleton.1 now
        exact ⟨kv, congrArg _ cache, q, member, b', inBlocks, served, tokens.symm, offsets.symm,
          offsets ▸ before.symm⟩
    · simp [partway.reusedTokens]
    · simp [partway.reusedBlocks]
    · simp [partway.offset]
  · have counted := partway.held.recounted (recounted_has st.store tenant key)
    have grown := counted.mono fun key kv known => known.imp_right fun now =>
      now.append [⟨block, st.offset, .prefilled (prefill block st.offset)⟩]
    -- what is stored under the key is filed by this very block
    have new :
      FiledBy blake2b size tokenIds
      (prefilled ++ [⟨block, st.offset, .prefilled (prefill block st.offset)⟩]) key
        (prefill block st.offset) :=
      ⟨⟨block, st.offset, .prefilled (prefill block st.offset)⟩, by simp, rfl, isBlock, hashed⟩
    refine ⟨rfl, ⟨block, st.offset, .prefilled (prefill block st.offset)⟩, rfl, rfl, loaded,
      prefilled ++ [⟨block, st.offset, .prefilled (prefill block st.offset)⟩],
        by simp, grown.put (.inr new) stored, ?_,
      ⟨partway.split.reused, fun b inPrefilled => ?_⟩, fun same => (by cases same),
        partway.reusedTokens, ?_,
      partway.reusedBlocks, ?_, ?_⟩
    · simp [partway.served]
    · cases List.mem_append.1 inPrefilled with
      | inl earlier => exact partway.split.computed b earlier
      | inr now =>
        obtain rfl := List.mem_singleton.1 now
        rfl
    · simp [partway.recomputedTokens]
    · simp [partway.recomputedBlocks]
    · simp [partway.offset, Nat.add_assoc]

/-- Where the blocks of a list are, and their tokens. -/
def cutsOf (blocks : List (Block α)) : List (Nat × List Int) :=
  blocks.map fun b => (b.offset, b.tokens)

/-- The rest of a request: all of it, or up to the block that fails. -/
theorem Partway.run (positive : 0 < size) (injective : Function.Injective blake2b)
    {pairs : List (Nat × List Int)}
    (partway : Partway nbytes blake2b prefill tenant size past tokenIds st loaded prefilled)
    (cut : Cut size tokenIds st.offset pairs) {failure : Option Failure}
    (done : LMCacheStrategy.serveBlocks nbytes blake2b prefill tenant tokenIds st
      (pairs.map Prod.snd) = (st', failure)) :
    ∃ loaded' prefilled' served,
      Partway nbytes blake2b prefill tenant size past tokenIds st' loaded' prefilled' ∧
      cutsOf (loaded' ++ prefilled') = cutsOf (loaded ++ prefilled) ++ served ∧ served <+: pairs ∧
      (failure = none → served = pairs ∧ st'.offset = tokenIds.length) := by
  induction pairs generalizing st loaded prefilled with
  | nil =>
    obtain ⟨rfl, rfl⟩ := Prod.mk.inj done
    exact ⟨loaded, prefilled, [], partway, by simp, List.nil_prefix, fun _ => ⟨rfl, cut⟩⟩
  | cons p rest ih =>
    obtain ⟨here, isBlock, cut⟩ := cut
    rw [List.map_cons, LMCacheStrategy.serveBlocks] at done
    split at done
    · rename_i middle first
      obtain ⟨offset, b, tokens, start, loaded₁, prefilled₁, blocks, partway₁⟩ :=
        partway.next positive injective (here ▸ isBlock) first
      obtain ⟨loaded', prefilled', served, partway', all, part, whole⟩ :=
        ih partway₁ (offset ▸ cut) done
      refine ⟨loaded', prefilled', p :: served, partway', ?_, (List.prefix_cons_inj p).2 part,
        fun ends => ?_⟩
      · rw [all, blocks]
        simp [cutsOf, tokens, start, ← here]
      · obtain ⟨rfl, last⟩ := whole ends
        exact ⟨rfl, last⟩
    · rename_i why failed
      obtain ⟨rfl, rfl⟩ := Prod.mk.inj done
      exact ⟨loaded, prefilled, [], partway, by simp, List.nil_prefix, fun same => by cases same⟩

/-- With distinct tier names only tokens that overflow end a request early. -/
theorem Partway.returns (positive : 0 < size) (injective : Function.Injective blake2b)
    {pairs : List (Nat × List Int)}
    (partway : Partway nbytes blake2b prefill tenant size past tokenIds st loaded prefilled)
    (cut : Cut size tokenIds st.offset pairs) (tended : Tended st.store) {failure : Option Failure}
    (done : LMCacheStrategy.serveBlocks nbytes blake2b prefill tenant tokenIds st
      (pairs.map Prod.snd) = (st', failure)) :
    Tended st'.store ∧ ∀ why ∈ failure, why = .overflow ∧
      ∃ n, hashTokens blake2b (tokenIds.take n) = none := by
  induction pairs generalizing st loaded prefilled with
  | nil =>
    obtain ⟨rfl, rfl⟩ := Prod.mk.inj done
    exact ⟨tended, fun why none_ => by cases none_⟩
  | cons p rest ih =>
    obtain ⟨here, isBlock, cut⟩ := cut
    have backed : ∀ slot h, st.store.index.get? slot = some h →
      ∃ e, st.store.entries.get? h = some e := by
      intro slot h indexed
      obtain ⟨e, present, -⟩ := partway.held.books.backed slot h indexed
      exact ⟨e, present⟩
    rw [List.map_cons, LMCacheStrategy.serveBlocks] at done
    rcases LMCacheStrategy.serveBlock_returns nbytes blake2b prefill tenant tokenIds p.2 backed tended with
      ⟨unhashed, raises⟩ | ⟨middle, first, tended₁⟩
    · rw [raises] at done
      obtain ⟨rfl, rfl⟩ := Prod.mk.inj done
      exact ⟨tended, fun why same => ⟨(Option.some.inj same).symm, _, unhashed⟩⟩
    · rw [first] at done
      obtain ⟨offset, b, tokens, start, loaded₁, prefilled₁, blocks, partway₁⟩ :=
        partway.next positive injective (here ▸ isBlock) first
      exact ih partway₁ (offset ▸ cut) tended₁ done

end Request

/-! ## All requests -/

/-- What is right about one request after the requests of `past`. -/
structure RightlyServed (prefill : List Int → Nat → α) (size : Nat) (past : History α)
    (tokenIds : List Int) (o : Outcome α) :
    Prop where
  cut : cutsOf o.blocks <+: cuts tokenIds size
  split : ∃ loaded prefilled, o.blocks = loaded ++ prefilled ∧
    LoadedThen prefill past tokenIds loaded prefilled ∧
    ∀ res, o.result = .ok res → res =
      { nTokens := tokenIds.length, nBlocks := o.blocks.length, reusedTokens := tokensIn loaded
        recomputedTokens := tokensIn prefilled, reusedBlocks := loaded.length, recomputedBlocks :=
          prefilled.length }
  whole : ∀ res, o.result = .ok res →
    cutsOf o.blocks = cuts tokenIds size ∧ res.reusedTokens + res.recomputedTokens = tokenIds.length

/-- The results of the requests that returned. -/
def resultsOf (past : History α) : List RequestResult := past.filterMap fun r => r.2.result.toOption

/-- The running totals are the sums of the results. -/
structure Totals (outcomes : List RequestResult) (s : LMCacheStrategy α) : Prop where
  results : s.results = outcomes
  totalTokens : s.totalTokens = (outcomes.map RequestResult.nTokens).sum
  reusedTokens : s.reusedTokens = (outcomes.map RequestResult.reusedTokens).sum
  recomputedTokens : s.recomputedTokens = (outcomes.map RequestResult.recomputedTokens).sum

/-- What is known after the requests of `past`. -/
structure Known (nbytes : α → Nat) (blake2b : List UInt8 → String) (prefill : List Int → Nat → α)
    (tenant : String)
    (size : Nat) (past : History α) (s : LMCacheStrategy α) : Prop where
  blockSize : s.blockSize = size
  owner : s.tenant = tenant
  held : Held nbytes tenant (Filed blake2b size past) s.store
  served : ∀ before r after, past = before ++ r :: after → RightlyServed prefill size before r.1 r.2
  totals : Totals (resultsOf past) s

section Requests

variable {size : Nat} {past : History α} {s : LMCacheStrategy α} {tokenIds : List Int}

theorem Known.start (known : Known nbytes blake2b prefill tenant size past s)
    (tokenIds : List Int) :
    Partway nbytes blake2b prefill tenant size past tokenIds { store := s.store } [] [] :=
  ⟨known.held.mono fun _ _ => .inl, rfl,
    ⟨fun b inNone => (by cases inNone), fun b inNone => (by cases inNone)⟩, fun _ => rfl,
    rfl, rfl, rfl, rfl, rfl⟩

theorem Known.next (positive : 0 < size) (injective : Function.Injective blake2b)
    (known : Known nbytes blake2b prefill tenant size past s) (tokenIds : List Int) :
    Known nbytes blake2b prefill tenant size
      (past ++ [(tokenIds, (lmcache nbytes blake2b prefill).out s tokenIds)])
      ((lmcache nbytes blake2b prefill).next s tokenIds) := by
  cases served :
    LMCacheStrategy.serveBlocks nbytes blake2b prefill tenant tokenIds { store := s.store }
      ((cuts tokenIds size).map Prod.snd) with
  | mk st failure =>
    obtain ⟨loaded, prefilled, pairs, partway, made, part, whole⟩ :=
      (known.start tokenIds).run positive injective (cut_cuts positive tokenIds) served
    have blocks : cutsOf st.served = pairs := by rw [partway.served, made]; rfl
    -- the request is filed as one of the past ones
    have filed : ∀ outcome : Outcome α, outcome.blocks = st.served →
        Held nbytes tenant (Filed blake2b size (past ++ [(tokenIds, outcome)])) st.store := by
      intro outcome same
      refine partway.held.mono fun key kv known => ?_
      cases known with
      | inl before =>
        obtain ⟨r, member, rest⟩ := before
        exact ⟨r, List.mem_append_left _ member, rest⟩
      | inr now =>
        obtain ⟨b, member, rest⟩ := now
        refine ⟨(tokenIds, outcome), List.mem_append_right _ (List.mem_singleton.2 rfl), b, ?_,
          rest⟩
        rw [same, partway.served]
        exact List.mem_append_right _ member
    have all : ∀ outcome : Outcome α, RightlyServed prefill size past tokenIds outcome →
        ∀ before r after, past ++ [(tokenIds, outcome)] = before ++ r :: after →
          RightlyServed prefill size before r.1 r.2 := by
      intro outcome right before r after split
      -- the new request, or one of the past
      rcases List.eq_nil_or_concat after with rfl | ⟨after, last, rfl⟩
      · obtain ⟨rfl, same⟩ := List.append_inj' split rfl
        obtain ⟨rfl, -⟩ := List.cons.inj same
        exact right
      · obtain ⟨earlier, -⟩ := List.append_inj'
          (show past ++ [(tokenIds, outcome)] = before ++ r :: after ++
            [last] by simpa using split) rfl
        exact known.served before r after earlier
    cases failure with
    -- a request that raises leaves its blocks in the store, but no result
    | some why =>
      have step :
        (lmcache nbytes blake2b prefill).step s tokenIds =
        (⟨.error why, st.served⟩, { s with store := st.store }) := by
        simp only [lmcache, LMCacheStrategy.process, chunk_eq, known.blockSize, known.owner, served]
      rw [Machine.out, Machine.next, step]
      refine ⟨known.blockSize, known.owner, filed ⟨_, st.served⟩ rfl,
        all _ ⟨blocks ▸ part, ?_, fun res same => (by cases same)⟩, ?_⟩
      · exact ⟨loaded, prefilled, partway.served, partway.split, fun res same => by cases same⟩
      · have same : resultsOf (past ++ [(tokenIds, ⟨.error why, st.served⟩)]) = resultsOf past := by
          simp [resultsOf, Except.toOption]
        rw [same]
        exact ⟨known.totals.results, known.totals.totalTokens, known.totals.reusedTokens,
          known.totals.recomputedTokens⟩
    | none =>
      obtain ⟨rfl, last⟩ := whole rfl
      have length : (cuts tokenIds size).length = st.served.length := by
        rw [← blocks, cutsOf, List.length_map]
      have step :
        (lmcache nbytes blake2b prefill).step s tokenIds =
        (⟨.ok ⟨tokenIds.length, st.served.length, st.reusedTokens,
          st.recomputedTokens, st.reusedBlocks, st.recomputedBlocks⟩, st.served⟩, { s with
            store := st.store
            results :=
              s.results ++
                [⟨tokenIds.length, st.served.length, st.reusedTokens, st.recomputedTokens,
              st.reusedBlocks, st.recomputedBlocks⟩]
            totalTokens := s.totalTokens + tokenIds.length
            reusedTokens := s.reusedTokens + st.reusedTokens
            recomputedTokens := s.recomputedTokens + st.recomputedTokens }) := by
        simp only [lmcache, LMCacheStrategy.process, chunk_eq, known.blockSize, known.owner, served,
          List.length_map, length]
      rw [Machine.out, Machine.next, step]
      refine ⟨known.blockSize, known.owner, filed ⟨_, st.served⟩ rfl,
        all _ ⟨blocks ▸ part, ?_, fun res same => ?_⟩, ?_⟩
      · refine ⟨loaded, prefilled, partway.served, partway.split, fun res same => ?_⟩
        obtain rfl := Except.ok.inj same
        rw [partway.reusedTokens, partway.recomputedTokens, partway.reusedBlocks,
          partway.recomputedBlocks]
      · obtain rfl := Except.ok.inj same
        refine ⟨blocks, ?_⟩
        rw [partway.reusedTokens, partway.recomputedTokens, ← partway.offset, last]
      · have same :
          resultsOf (past ++ [(tokenIds, ⟨.ok ⟨tokenIds.length, st.served.length, st.reusedTokens,
            st.recomputedTokens, st.reusedBlocks, st.recomputedBlocks⟩,
              st.served⟩)]) = resultsOf past ++
              [⟨tokenIds.length, st.served.length, st.reusedTokens, st.recomputedTokens,
                st.reusedBlocks, st.recomputedBlocks⟩] := by
          simp [resultsOf, Except.toOption]
        rw [same]
        refine ⟨congrArg (· ++ _) known.totals.results, ?_, ?_, ?_⟩
        · simp [known.totals.totalTokens]
        · simp [known.totals.reusedTokens]
        · simp [known.totals.recomputedTokens]

/-- With distinct tier names, requests of four-byte tokens return. -/
theorem Known.returns (positive : 0 < size) (injective : Function.Injective blake2b)
    (known : Known nbytes blake2b prefill tenant size past s) (tended : Tended s.store)
    (tokenIds : List Int) :
    Tended ((lmcache nbytes blake2b prefill).next s tokenIds).store ∧
      ((∀ t ∈ tokenIds, -2 ^ 31 ≤ t ∧ t < 2 ^ 31) → tokenIds.length < 256 ^ 8 →
        ∃ res, ((lmcache nbytes blake2b prefill).out s tokenIds).result = .ok res) := by
  cases served :
    LMCacheStrategy.serveBlocks nbytes blake2b prefill tenant tokenIds { store := s.store }
      ((cuts tokenIds size).map Prod.snd) with
  | mk st failure =>
    obtain ⟨tended', failed⟩ :=
      (known.start tokenIds).returns positive injective (cut_cuts positive tokenIds) tended served
    simp only [Machine.next, Machine.out, lmcache, LMCacheStrategy.process, chunk_eq,
      known.blockSize, known.owner, served]
    cases failure with
    | none => exact ⟨tended', fun _ _ => ⟨_, rfl⟩⟩
    | some why =>
      refine ⟨tended', fun fit short => ?_⟩
      obtain ⟨-, n, unhashed⟩ := failed why rfl
      -- four-byte tokens do not overflow
      have hashed : (hashTokens blake2b (tokenIds.take n)).isSome := hashTokens_isSome blake2b
        (fun t member => fit t (List.mem_of_mem_take member))
        (lt_of_le_of_lt (List.length_take_le' n tokenIds) short)
      rw [unhashed] at hashed
      cases hashed

end Requests

variable (nbytes blake2b prefill)

theorem known_init {tiers : List TierSpec} {blockSize : Int} {strategy : LMCacheStrategy α}
    (made : LMCacheStrategy.init (some (TieredCacheStore.init tiers)) blockSize tenant =
      .ok strategy) :
    0 < blockSize.toNat ∧ strategy.store = TieredCacheStore.init tiers ∧
      Known nbytes blake2b prefill tenant blockSize.toNat [] strategy := by
  rw [LMCacheStrategy.init] at made
  split at made
  · cases made
  · rename_i positive
    obtain rfl := Except.ok.inj made
    refine ⟨by omega, rfl, rfl, rfl,
      ⟨books_init tiers, ?_, fun _ _ found => (not_mem_init found).elim,
        fun slot h found => by cases found⟩,
      fun before r after split => by simp at split, ⟨rfl, rfl, rfl, rfl⟩⟩
    show (if tiers = [] then defaultTiers else tiers) ≠ []
    split
    · simp [defaultTiers]
    · assumption

/-- Block reuse only ever loads the right KV: whatever the tiers and the requests, a request's
    reused blocks come first, each with the KV that an earlier request prefilled for these tokens at
    this offset after the same tokens, and the counts are exact.  Requests of four-byte tokens
    return where no two tiers share a name. -/
theorem block_reuse_loads_right (injective : Function.Injective blake2b) (tiers : List TierSpec)
    (blockSize : Int)
    (tenant : String) (strategy : LMCacheStrategy α)
    (made : LMCacheStrategy.init (some (TieredCacheStore.init tiers)) blockSize tenant =
      .ok strategy)
    (requests : List (List Int)) :
    (∀ before r after, (lmcache nbytes blake2b prefill).trace strategy requests =
      before ++ r :: after →
      RightlyServed prefill blockSize.toNat before r.1 r.2) ∧
    Totals (resultsOf ((lmcache nbytes blake2b prefill).trace strategy requests))
      ((lmcache nbytes blake2b prefill).exec strategy requests) ∧
    ((tiers.map TierSpec.name).Nodup →
      ∀ r ∈ (lmcache nbytes blake2b prefill).trace strategy requests,
      (∀ t ∈ r.1, -2 ^ 31 ≤ t ∧ t < 2 ^ 31) → r.1.length < 256 ^ 8 →
        ∃ res, r.2.result = .ok res) := by
  obtain ⟨positive, store, start⟩ := known_init nbytes blake2b prefill made
  have known := Machine.history_invariant (m := lmcache nbytes blake2b prefill)
    (P := fun past s => Known nbytes blake2b prefill tenant blockSize.toNat past s)
    (fun past s e known => known.next positive injective e) start requests
  rw [List.nil_append] at known
  refine ⟨known.served, known.totals, fun names => ?_⟩
  have tended : Tended strategy.store := store ▸ tended_init names
  have returned := Machine.history_invariant (m := lmcache nbytes blake2b prefill)
    (P := fun past s => (Known nbytes blake2b prefill tenant blockSize.toNat past s ∧
      Tended s.store) ∧
      ∀ r ∈ past, (∀ t ∈ r.1, -2 ^ 31 ≤ t ∧ t < 2 ^ 31) → r.1.length < 256 ^ 8 →
        ∃ res, r.2.result = .ok res)
    (fun past s e inv => by
      obtain ⟨tended', ends⟩ := inv.1.1.returns positive injective inv.1.2 e
      refine ⟨⟨inv.1.1.next positive injective e, tended'⟩, fun r member => ?_⟩
      cases List.mem_append.1 member with
      | inl earlier => exact inv.2 r earlier
      | inr now =>
        obtain rfl := List.mem_singleton.1 now
        exact ends)
    ⟨⟨start, tended⟩, fun r none_ => by cases none_⟩ requests
  rw [List.nil_append] at returned
  exact returned.2

/-- A request sent again over two tiers. -/
theorem block_reuse_loads_right_again : ∃ strategy : LMCacheStrategy (List Int × Nat),
    LMCacheStrategy.init (some (TieredCacheStore.init twoTiers)) 2 "t" = .ok strategy ∧
      ∀ r ∈ (lmcache (fun _ => 3) hexOf Prod.mk).trace strategy [[1, 2, 3], [1, 2, 3]], ∃ res,
        r.2.result = .ok res := by
  refine ⟨_, rfl, fun r member => ?_⟩
  have served :=
    (block_reuse_loads_right (fun _ => 3) hexOf Prod.mk hexHash_hexOf.injective twoTiers 2 "t" _ rfl
    [[1, 2, 3], [1, 2, 3]]).2.2 (by decide) r member
  have request : r.1 = [1, 2, 3] := by
    rcases List.mem_cons.1 member with rfl | member
    · rfl
    · rw [List.mem_singleton.1 member]
  rw [request] at served
  exact served (by decide) (by decide)

/-- The second time both blocks are loaded, each as it was prefilled. -/
example : (match LMCacheStrategy.init (some (TieredCacheStore.init twoTiers)) 2 "t" with
    | .ok strategy => ((lmcache (fun _ : List Int × Nat => 3) hexOf Prod.mk).trace strategy [[1, 2,
        3], [1, 2, 3]]).map
        fun r => r.2.blocks.map Block.served
    | .error _ => []) =
    [[.prefilled ([1, 2], 0), .prefilled ([3], 2)],
      [.loaded (some ([1, 2], 0)), .loaded (some ([3], 2))]] := by
  decide +kernel

end Dexa.Bench
