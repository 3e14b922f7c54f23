import Dexa.Lib.Booking
import Dexa.Platform.Accounts
import Mathlib.Algebra.Group.Defs

/-! # Usage and savings (`dexa_platform/gateway/store.py`, `dexa_platform/control/metering.py`)

The static gateway counts its requests in memory, once in all and once per session; the control
plane counts them in rows, one for each key and day.  Both show what they counted in the same ten
fields.  The counters form a monoid, in which a request is an element and a row is a sum.
-/

namespace Dexa.Platform

open Dexa.Lib

/-- `Agg`, without the times of the first and the last request. -/
@[ext] structure Agg where
  requests : Nat := 0
  /-- exact-duplicate frames served from cache -/
  cacheHits : Nat := 0
  dexaUsd : ℚ := 0
  baselineUsd : ℚ := 0
  savedUsd : ℚ := 0
  dexaImageTokens : Nat := 0
  baselineImageTokens : Nat := 0
  redundantFracSum : ℚ := 0
  redundantN : Nat := 0
  deriving DecidableEq

namespace Agg

def avgRedundancy (a : Agg) : ℚ := if a.redundantN ≠ 0 then a.redundantFracSum / a.redundantN else 0

def xCheaper (a : Agg) : ℚ := if a.dexaUsd > 0 then a.baselineUsd / a.dexaUsd else 0

def asDict (a : Agg) : List (String × Json) :=
  [("requests", .num a.requests),
   ("cache_hits", .num a.cacheHits),
   ("dexa_usd", .num (pyRound 6 a.dexaUsd)),
   ("baseline_usd", .num (pyRound 6 a.baselineUsd)),
   ("saved_usd", .num (pyRound 6 a.savedUsd)),
   ("saved_pct",
     .num (if a.baselineUsd ≠ 0 then pyRound 2 (100 * a.savedUsd / a.baselineUsd) else 0)),
   ("x_cheaper", .num (pyRound 2 a.xCheaper)),
   ("avg_screen_redundancy_pct", .num (pyRound 1 (100 * a.avgRedundancy))),
   ("dexa_image_tokens", .num a.dexaImageTokens),
   ("baseline_image_tokens", .num a.baselineImageTokens)]

instance : Zero Agg := ⟨{}⟩

instance : Add Agg := ⟨fun a b =>
  { requests := a.requests + b.requests, cacheHits := a.cacheHits + b.cacheHits, dexaUsd := a.dexaUsd + b.dexaUsd,
    baselineUsd := a.baselineUsd + b.baselineUsd, savedUsd := a.savedUsd + b.savedUsd,
    dexaImageTokens := a.dexaImageTokens + b.dexaImageTokens,
    baselineImageTokens := a.baselineImageTokens + b.baselineImageTokens,
    redundantFracSum := a.redundantFracSum + b.redundantFracSum, redundantN :=
      a.redundantN + b.redundantN }⟩

theorem add_def (a b : Agg) : a + b =
    ⟨a.requests + b.requests, a.cacheHits + b.cacheHits, a.dexaUsd + b.dexaUsd,
      a.baselineUsd + b.baselineUsd, a.savedUsd + b.savedUsd,
      a.dexaImageTokens + b.dexaImageTokens, a.baselineImageTokens + b.baselineImageTokens,
      a.redundantFracSum + b.redundantFracSum, a.redundantN + b.redundantN⟩ := rfl

instance : AddCancelCommMonoid Agg where
  add_assoc a b c := by ext <;> exact add_assoc ..
  zero_add a := by ext <;> exact zero_add _
  add_zero a := by ext <;> exact add_zero _
  add_comm a b := by ext <;> exact add_comm ..
  add_left_cancel a b c same := by
    simp only [add_def, Agg.mk.injEq, add_right_inj] at same
    exact Agg.ext_iff.2 same
  nsmul := nsmulRec

end Agg

/-- What the counters of requests satisfy: the savings are the difference in price, and the
    redundancies are fractions. -/
structure Agg.Balanced (a : Agg) : Prop where
  saved : a.dexaUsd + a.savedUsd = a.baselineUsd
  hits : a.cacheHits ≤ a.requests
  observed : a.redundantN = a.requests
  redundant : 0 ≤ a.redundantFracSum ∧ a.redundantFracSum ≤ a.redundantN

namespace Agg.Balanced

theorem zero : Balanced 0 := ⟨add_zero 0, le_rfl, rfl, le_rfl, le_rfl⟩

theorem add {a b : Agg} (left : a.Balanced) (right : b.Balanced) : (a + b).Balanced where
  saved := by
    have prices := congrArg₂ (· + ·) left.saved right.saved
    simp only [add_def] at prices ⊢
    rw [← prices]
    exact add_add_add_comm ..
  hits := Nat.add_le_add left.hits right.hits
  observed := congrArg₂ (· + ·) left.observed right.observed
  redundant := by
    refine ⟨add_nonneg left.redundant.1 right.redundant.1, ?_⟩
    have fractions := add_le_add left.redundant.2 right.redundant.2
    rwa [← Nat.cast_add] at fractions

theorem sum {parts : List Agg} (each : ∀ a ∈ parts, a.Balanced) : parts.sum.Balanced := by
  induction parts with
  | nil => exact zero
  | cons a parts ih =>
    rw [List.sum_cons]
    exact (each a List.mem_cons_self).add
      (ih fun b member => each b (List.mem_cons_of_mem a member))

/-- The average that is shown is a fraction. -/
theorem avgRedundancy {a : Agg} (balanced : a.Balanced) : 0 ≤ a.avgRedundancy ∧
    a.avgRedundancy ≤ 1 := by
  rw [Agg.avgRedundancy]
  split
  · have count : (0 : ℚ) ≤ a.redundantN := Nat.cast_nonneg _
    exact ⟨div_nonneg balanced.redundant.1 count, div_le_one_of_le₀ balanced.redundant.2 count⟩
  · simp

end Agg.Balanced

/-- What one request adds to each of its counters. -/
def Metering.Usage.agg (u : Metering.Usage) : Agg :=
  { requests := 1, cacheHits := u.cacheHit.toNat, dexaUsd := u.dexaUsd, baselineUsd := u.baselineUsd, savedUsd := u.savedUsd,
    dexaImageTokens := u.dexaImageTokens, baselineImageTokens :=
      u.baselineImageTokens, redundantFracSum := u.redundantFrac,
    redundantN := 1 }

/-- `Store`. -/
structure Store where
  total : Agg := {}
  bySession : Dict String Agg := Dict.empty

namespace Store

/-- The loop body of `record`. -/
def count (u : Metering.Usage) (agg : Agg) : Agg :=
  { requests := agg.requests + 1
    cacheHits := agg.cacheHits + u.cacheHit.toNat
    dexaUsd := agg.dexaUsd + u.dexaUsd
    baselineUsd := agg.baselineUsd + u.baselineUsd
    savedUsd := agg.savedUsd + u.savedUsd
    dexaImageTokens := agg.dexaImageTokens + u.dexaImageTokens
    baselineImageTokens := agg.baselineImageTokens + u.baselineImageTokens
    redundantFracSum := agg.redundantFracSum + u.redundantFrac
    redundantN := agg.redundantN + 1 }

def record (s : Store) (session : String) (u : Metering.Usage) : Store :=
  { total := count u s.total
    bySession := s.bySession.set session (count u ((s.bySession.get? session).getD {})) }

def snapshot (s : Store) : Json :=
  .obj [("total", .obj s.total.asDict),
    ("sessions", .obj (s.bySession.entries.map fun e => (e.1, .obj e.2.asDict))),
    ("session_count", .num s.bySession.size)]

/-- The ledger after some requests. -/
def ofJournal (journal : List (String × Metering.Usage)) : Store :=
  journal.foldl (fun s e => s.record e.1 e.2) {}

theorem ofJournal_snoc (journal : List (String × Metering.Usage)) (e : String × Metering.Usage) :
    ofJournal (journal ++ [e]) = (ofJournal journal).record e.1 e.2 := by
  simp [ofJournal]

end Store

/-- The counters of a row. -/
def UsageDaily.agg (row : UsageDaily) : Agg :=
  { requests := row.requests, cacheHits := row.cacheHits, dexaUsd := row.dexaUsd, baselineUsd := row.baselineUsd,
    savedUsd := row.savedUsd, dexaImageTokens := row.dexaImageTokens, baselineImageTokens :=
      row.baselineImageTokens,
    redundantFracSum := row.redundantSum, redundantN := row.redundantN }

namespace Metering

/-- `_agg`. -/
def agg (rows : List UsageDaily) : List (String × Json) :=
  let requests := (rows.map UsageDaily.requests).sum
  let dexa := (rows.map UsageDaily.dexaUsd).sum
  let base := (rows.map UsageDaily.baselineUsd).sum
  let saved := (rows.map UsageDaily.savedUsd).sum
  let rn := (rows.map UsageDaily.redundantN).sum
  let rs := (rows.map UsageDaily.redundantSum).sum
  [("requests", .num requests),
   ("cache_hits", .num (rows.map UsageDaily.cacheHits).sum),
   ("dexa_usd", .num (pyRound 6 dexa)),
   ("baseline_usd", .num (pyRound 6 base)),
   ("saved_usd", .num (pyRound 6 saved)),
   ("saved_pct", .num (if base ≠ 0 then pyRound 2 (100 * saved / base) else 0)),
   ("x_cheaper", .num (if dexa ≠ 0 then pyRound 2 (base / dexa) else 0)),
   ("avg_screen_redundancy_pct", .num (if rn ≠ 0 then pyRound 1 (100 * rs / rn) else 0)),
   ("dexa_image_tokens", .num (rows.map UsageDaily.dexaImageTokens).sum),
   ("baseline_image_tokens", .num (rows.map UsageDaily.baselineImageTokens).sum)]

def globalSnapshot (db : ControlDb) : Json :=
  let rows := db.usageDaily.values
  let byOrg := Dict.groupBy UsageDaily.orgId rows
  let name (orgId : String) : String := ((db.orgs.get? orgId).map Org.name).getD orgId
  .obj [("total", .obj (agg rows)),
    -- organisations of one name share an entry, and the last is shown
    ("sessions",
      .obj (Dict.ofList (byOrg.entries.map fun e => (name e.1, Json.obj (agg e.2)))).entries),
    ("session_count", .num byOrg.size)]

theorem agg_addTo (u : Usage) (row : UsageDaily) : (u.addTo row).agg = row.agg + u.agg := rfl

/-- A request enters the sums that its row is in. -/
theorem sum_record (db : ControlDb) (orgId keyId day : String) (u : Usage)
    (keep : String → String → Bool)
    (own : ∀ row, db.usageDaily.get? (keyId, day) = some row →
      keep row.orgId row.keyId = keep orgId keyId) :
    (((record db orgId keyId day u).usageDaily.values.filter
      fun row => keep row.orgId row.keyId).map UsageDaily.agg).sum =
      ((db.usageDaily.values.filter fun row => keep row.orgId row.keyId).map UsageDaily.agg).sum +
        if keep orgId keyId then u.agg else 0 := by
  have sums :=
    Dict.sum_filter_set db.usageDaily (fun row => keep row.orgId row.keyId) UsageDaily.agg
      (keyId, day)
    (u.addTo ((db.usageDaily.get? (keyId, day)).getD { orgId, keyId, day }))
  change (((record db orgId keyId day u).usageDaily.values.filter
    fun row => keep row.orgId row.keyId).map UsageDaily.agg).sum + _ = _ at sums
  cases found : db.usageDaily.get? (keyId, day) with
  | none => simpa [found, Usage.addTo, Usage.agg, UsageDaily.agg] using sums
  | some row =>
    have before := own row found
    have after : keep (u.addTo row).orgId (u.addTo row).keyId = keep orgId keyId := before
    cases kept : keep orgId keyId with
    | false => simpa [found, before, after, kept, Option.filter] using sums
    | true =>
      simp only [found, Option.getD_some, before, after, kept, Option.filter, if_true,
        Option.elim_some, agg_addTo] at sums ⊢
      rw [add_comm row.agg, ← add_assoc] at sums
      exact add_right_cancel sums

end Metering

end Dexa.Platform
