import Dexa.Lib.Dict
import Dexa.Lib.Loop
import Dexa.Lib.Machine
import Mathlib.Algebra.Order.Ring.Rat
import Mathlib.Data.List.MinMax

/-! # The tiered cache store (`dexa/memory/store.py`)

Entries live in one of an ordered list of tiers.  A put or a hit puts an entry into the top
tier with a new time stamp; a tier over its capacity hands its least recently used entry
down, and the bottom tier drops it.  A tier is known by its name: occupancy is counted per
name, and entries hold a name.

The loops are bounded; a call whose loop would go on, or that finds a handle without an
entry, is stuck.  Besides its reply a call reports the entries it dropped, each with what
the store held at that moment; the code keeps only their number.
-/

namespace Dexa.Memory

open Dexa.Lib

structure TierSpec where
  name : String
  capacityBytes : Int
  readBandwidthBytesPerS : ℚ
  fixedLatencyS : ℚ := 0

def TierSpec.accessSeconds (t : TierSpec) (nbytes : Nat) : ℚ :=
  t.fixedLatencyS + nbytes / max 1 t.readBandwidthBytesPerS

def defaultTiers : List TierSpec :=
  [{ name := "gpu", capacityBytes := 8 * 1024 ^ 2, readBandwidthBytesPerS := 2000000000000 },
   { name := "cpu", capacityBytes := 64 * 1024 ^ 2, readBandwidthBytesPerS := 25000000000,
     fixedLatencyS := 1 / 100000 },
   { name := "nvme", capacityBytes := 4 * 1024 ^ 3, readBandwidthBytesPerS := 3000000000,
     fixedLatencyS := 1 / 10000 }]

/-- `_Entry`. -/
structure Entry (α : Type) where
  handle : String
  key : String
  tenant : String
  cache : α
  nbytes : Nat
  tier : String
  lastUsed : Nat

structure TieredCacheStore (α : Type) where
  tiers : List TierSpec
  entries : Dict String (Entry α) := Dict.empty
  index : Dict (String × String) String := Dict.empty
  clock : Nat := 0
  used : Dict String Int
  peak : Dict String Int
  reuseLookups : Nat := 0
  reuseHits : Nat := 0
  gets : Nat := 0
  getHits : Nat := 0
  getMisses : Nat := 0
  demotions : Nat := 0
  promotions : Nat := 0
  evictionsDropped : Nat := 0
  modeledAccessSeconds : ℚ := 0

/-- An entry dropped off the bottom tier, and the entries the store held when it chose it. -/
structure Drop (α : Type) where
  victim : Entry α
  held : List (Entry α)

inductive Stuck where
  /-- a loop did not end within the bound -/
  | unfinished
  /-- `KeyError`: an indexed handle has no entry -/
  | keyError
  deriving DecidableEq, Repr

/-- The handle of a pair. -/
def renderHandle (tenant key : String) : String := tenant ++ "::" ++ key

namespace TieredCacheStore

variable {α : Type}

/-- `TieredCacheStore(tiers)`. -/
def init (tiers : List TierSpec) : TieredCacheStore α :=
  let tiers := if tiers = [] then defaultTiers else tiers
  { tiers, used := Dict.ofList (tiers.map fun t => (t.name, 0)), peak := Dict.ofList (tiers.map fun t => (t.name, 0)) }

/-- `self._used[name]`. -/
def usedOf (s : TieredCacheStore α) (name : String) : Int := (s.used.get? name).getD 0

/-- `self._peak[name]`. -/
def peakOf (s : TieredCacheStore α) (name : String) : Int := (s.peak.get? name).getD 0

/-- `self.tiers[0].name`. -/
def top (s : TieredCacheStore α) : String := (s.tiers.head?.map TierSpec.name).getD ""

/-- `_tier`: of several tiers with the name, the last. -/
def tierNamed (s : TieredCacheStore α) (name : String) : Option TierSpec :=
  s.tiers.reverse.find? (·.name == name)

/-- What reading or writing `nbytes` costs in the tier of this name. -/
def accessCost (s : TieredCacheStore α) (name : String) (nbytes : Nat) : ℚ :=
  ((s.tierNamed name).map fun t => t.accessSeconds nbytes).getD 0

/-- `self._used[name] += delta`. -/
def addUsed (s : TieredCacheStore α) (name : String) (delta : Int) : TieredCacheStore α :=
  { s with used := s.used.set name (s.usedOf name + delta) }

/-- `_record_peak`. -/
def recordPeak (s : TieredCacheStore α) (name : String) : TieredCacheStore α :=
  if s.usedOf name > s.peakOf name then { s with peak := s.peak.set name (s.usedOf name) } else s

/-- An entry object after a change to it. -/
def update (s : TieredCacheStore α) (e : Entry α) : TieredCacheStore α :=
  { s with entries := s.entries.set e.handle e }

/-- `_touch`, with the entry it leaves. -/
def touch (s : TieredCacheStore α) (e : Entry α) : TieredCacheStore α × Entry α :=
  let e := { e with lastUsed := s.clock + 1 }
  ({ s with clock := s.clock + 1 }.update e, e)

/-- `_move`. -/
def move (s : TieredCacheStore α) (e : Entry α) (dst : String) : TieredCacheStore α :=
  (((s.addUsed e.tier (-e.nbytes)).update { e with tier := dst }).addUsed dst e.nbytes).recordPeak dst

/-- `_lru_in`. -/
def lruIn (s : TieredCacheStore α) (tier : String) : Option (Entry α) :=
  (s.entries.values.filter (·.tier == tier)).argmin Entry.lastUsed

def evict (s : TieredCacheStore α) (handle : String) : TieredCacheStore α :=
  match s.entries.get? handle with
  | none => s
  | some e =>
    { s with entries := s.entries.erase handle, index := s.index.erase (e.tenant, e.key) }.addUsed e.tier (-e.nbytes)

def overfull (tier : TierSpec) (st : TieredCacheStore α × List (Drop α)) : Bool :=
  st.1.usedOf tier.name > tier.capacityBytes

/-- One round of the capacity loop of `tier`, above `next` or at the bottom. -/
def shed (tier : TierSpec) (next : Option TierSpec) (st : TieredCacheStore α × List (Drop α)) :
    Option (TieredCacheStore α × List (Drop α)) :=
  match st.1.lruIn tier.name with
  -- nothing here to move; capacity simply too small
  | none => none
  | some victim =>
    match next with
    | none =>
      let s := st.1.evict victim.handle
      some ({ s with evictionsDropped := s.evictionsDropped + 1 },
        st.2 ++ [⟨victim, st.1.entries.values⟩])
    | some below =>
      let s := st.1.move victim below.name
      some ({ s with demotions := s.demotions + 1 }, st.2)

/-- The capacity loops of `tiers`, the last of which is the bottom. -/
def enforceFrom (bound : Nat) : List TierSpec → TieredCacheStore α × List (Drop α) →
    Except Stuck (TieredCacheStore α × List (Drop α))
  | [], st => .ok st
  | tier :: rest, st =>
    match whileLoop (overfull tier) (shed tier rest.head?) bound st with
    | none => .error .unfinished
    | some st => enforceFrom bound rest st

/-- `_enforce_capacity`. -/
def enforceCapacity (bound : Nat) (s : TieredCacheStore α) :
    Except Stuck (TieredCacheStore α × List (Drop α)) :=
  enforceFrom bound s.tiers (s, [])

/-- `_promote`. -/
def promote (bound : Nat) (s : TieredCacheStore α) (e : Entry α) :
    Except Stuck (TieredCacheStore α × List (Drop α)) :=
  if e.tier ≠ s.top then
    let s := s.move e s.top
    enforceCapacity bound { s with promotions := s.promotions + 1 }
  else .ok (s, [])

/-- The entry a new pair is given, in the top tier. -/
def insert (nbytes : α → Nat) (s : TieredCacheStore α) (tenant key : String) (cache : α) :
    TieredCacheStore α :=
  let e : Entry α :=
    { handle := renderHandle tenant key, key, tenant, cache, nbytes := nbytes cache, tier := s.top, lastUsed := s.clock + 1 }
  let s := { s with
    clock := s.clock + 1
    entries := s.entries.set e.handle e
    index := s.index.set (tenant, key) e.handle }
  let s := (s.addUsed s.top e.nbytes).recordPeak s.top
  { s with modeledAccessSeconds := s.modeledAccessSeconds + ((s.tiers.head?.map fun t => t.accessSeconds e.nbytes).getD 0) }

def put (nbytes : α → Nat) (bound : Nat) (s : TieredCacheStore α) (tenant key : String)
    (cache : α) :
    Except Stuck (String × TieredCacheStore α × List (Drop α)) :=
  match s.index.get? (tenant, key) with
  | some handle =>
    match s.entries.get? handle with
    | none => .error .keyError
    | some e =>
      let (s, e) := s.touch e
      (s.promote bound e).map fun st => (handle, st)
  | none => (enforceCapacity bound
      (s.insert nbytes tenant key cache)).map fun st => (renderHandle tenant key, st)

def get (bound : Nat) (s : TieredCacheStore α) (handle : String) :
    Except Stuck (Option α × TieredCacheStore α × List (Drop α)) :=
  let s := { s with gets := s.gets + 1 }
  match s.entries.get? handle with
  | none => .ok (none, { s with getMisses := s.getMisses + 1 }, [])
  | some e =>
    let s := { s with
      getHits := s.getHits + 1
      modeledAccessSeconds := s.modeledAccessSeconds + s.accessCost e.tier e.nbytes }
    let (s, e) := s.touch e
    (s.promote bound e).map fun st => (some e.cache, st)

def has (s : TieredCacheStore α) (tenant key : String) : Option String × TieredCacheStore α :=
  let s := { s with reuseLookups := s.reuseLookups + 1 }
  match s.index.get? (tenant, key) with
  | some handle => (some handle, { s with reuseHits := s.reuseHits + 1 })
  | none => (none, s)

end TieredCacheStore

inductive Op (α : Type) where
  | put (tenant key : String) (cache : α)
  | get (handle : String)
  | has (tenant key : String)
  | evict (handle : String)

inductive Reply (α : Type) where
  | handle (h : String)
  | cache (c : Option α)
  | found (h : Option String)
  | done

/-- What a call returns, and what it dropped. -/
structure Outcome (α : Type) where
  reply : Reply α
  drops : List (Drop α) := []

open TieredCacheStore in
def call {α : Type} (nbytes : α → Nat) (bound : Nat) (s : TieredCacheStore α) :
    Op α → Except Stuck (Outcome α × TieredCacheStore α)
  | .put tenant key cache => (s.put nbytes bound tenant key cache).map fun r => (⟨.handle r.1,
      r.2.2⟩, r.2.1)
  | .get handle => (s.get bound handle).map fun r => (⟨.cache r.1, r.2.2⟩, r.2.1)
  | .has tenant key => .ok (⟨.found (s.has tenant key).1, []⟩, (s.has tenant key).2)
  | .evict handle => .ok (⟨.done, []⟩, s.evict handle)

/-- A store under calls one after the other.  No loop that ends takes more rounds than
    there are entries, of which the call may add one; a stuck call leaves the store. -/
def tieredStore {α : Type} (nbytes : α → Nat) : Machine (TieredCacheStore α) (Op α)
    (Except Stuck (Outcome α)) :=
  ⟨fun s op =>
    match call nbytes (s.entries.size + 1) s op with
    | .ok (outcome, s) => (.ok outcome, s)
    | .error e => (.error e, s)⟩

end Dexa.Memory
