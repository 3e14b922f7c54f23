import Dexa.Engine.HFBackend

/-! # The device-resident session (`dexa/engine/torch_session.py`)

The cache stays on the device between mutations; only the changed tail is forwarded.
`toKVCache` is `none` where the code has no cache to read (nothing was ever
forwarded).
-/

namespace Dexa.Engine

open Dexa.Core Dexa.Lib Dexa.Segments

variable {α : Type} [Inhabited α]

structure TorchKVSession (α : Type) where
  cache : Option (List (LayerKV α)) := none
  tokenIds : List Int := []

namespace TorchKVSession

def n (s : TorchKVSession α) : Nat := s.tokenIds.length

/-- Extend the resident cache; returns the number of tokens forwarded. -/
def append (m : Model α) (s : TorchKVSession α) (tokens : List Int) : Nat × TorchKVSession α :=
  if tokens = [] then (0, s)
  else
    (tokens.length,
      { cache := some (m.kvForward s.cache (arange s.n (s.n + tokens.length)) tokens)
        tokenIds := s.tokenIds ++ tokens })

/-- `TorchKVSession(backend, token_ids)`. -/
def new (m : Model α) (tokenIds : List Int) : TorchKVSession α :=
  if tokenIds = [] then {} else (append m {} tokenIds).2

/-- Drop everything after position `k`. -/
def truncate (s : TorchKVSession α) (k : Nat) : TorchKVSession α :=
  match s.cache with
  | some layers =>
    if s.n ≤ k then { s with tokenIds := s.tokenIds.take k }
    else { cache := some (layers.map (sliceLayer k)), tokenIds := s.tokenIds.take k }
  | none => { s with tokenIds := s.tokenIds.take k }

def editSuffix (m : Model α) (s : TorchKVSession α) (keep : Nat) (newTail : List Int) :
    Nat × TorchKVSession α :=
  append m (s.truncate keep) newTail

structure ApplyStats where
  reusedTokens : Nat
  recomputedTokens : Nat
  totalTokens : Nat
  deriving DecidableEq, Repr

/-- Mutate the session from `prevCtx` to `newCtx`. -/
def apply (m : Model α) {δ : Type} [DecidableEq δ] (hashTokens : List Int → δ)
    (s : TorchKVSession α)
    (prevCtx newCtx : SegmentedContext) : ApplyStats × TorchKVSession α :=
  let reused := (planIncremental hashTokens (some prevCtx) newCtx .exact).reusedExactTokens
  let (recomputed, s') := editSuffix m s reused (newCtx.tokenIds.drop reused)
  ({ reusedTokens := reused, recomputedTokens := recomputed, totalTokens := newCtx.nTokens }, s')

def fromKVCache (kv : KVCache α) : TorchKVSession α :=
  { cache := some (buildRawCache kv), tokenIds := kv.tokenIds.getD [] }

/-- A decoupled copy. -/
def clone (s : TorchKVSession α) : TorchKVSession α := { cache := s.cache, tokenIds := s.tokenIds }

def toKVCache (m : Model α) (s : TorchKVSession α) : Option (KVCache α) :=
  s.cache.map fun layers => m.cacheToKVCache layers (arange 0 s.n) s.tokenIds

end TorchKVSession

end Dexa.Engine
