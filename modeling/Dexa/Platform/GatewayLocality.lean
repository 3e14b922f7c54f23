import Dexa.Platform.Gateway

/-! # What a request reads and writes

A `View` says which resolver entries, which sessions and which API keys an observer can
have to do with; `restrict` keeps that part of a component's state.  Each operation of
the gateway on a key inside the view gives on the restricted state the same result and the
restriction of the new state, and an operation on a key outside leaves the restriction
as it is.
-/

namespace Dexa.Platform

open Dexa.Lib

structure View where
  keyHash : String → Bool
  session : String → Bool
  keyId : String → Bool

/-- The usage rows of the keys in the view. -/
def View.row (v : View) (k : String × String) : Bool := v.keyId k.1

namespace RedundancyMeter

def restrict (q : String → Bool) (m : RedundancyMeter) : RedundancyMeter :=
  { hash := m.hash.restrict q, grid := m.grid.restrict q }

variable {rt : Runtime} {q : String → Bool} {session : String}

theorem changedOf_inside (inside : q session = true) (m : RedundancyMeter) (img : Bytes)
    (first exact : Bool) :
    changedOf rt (m.restrict q) session img first exact =
      (changedOf rt m session img first exact).map fun r => (r.1, r.2.restrict q) := by
  cases exact with
  | true => rfl
  | false =>
    cases first with
    | true => rfl
    | false =>
      by_cases cv : rt.haveCv = true
      · simp only [changedOf, cv, if_true, Bool.false_eq_true, if_false]
        cases gridOf rt img with
        | error e => rfl
        | ok cur =>
          cases cur with
          | none => rfl
          | some cur => simp [restrict, Dict.get?_restrict inside, Dict.restrict_set_pos inside,
              Except.map]
      · simp [changedOf, cv, Except.map]

theorem changedOf_outside (outside : q session = false) {m : RedundancyMeter} {img : Bytes}
    {first exact : Bool}
    {changed : ℚ} {m' : RedundancyMeter}
    (h : changedOf rt m session img first exact = .ok (changed, m')) :
    m'.restrict q = m.restrict q ∧ m'.hash = m.hash := by
  cases exact with
  | true =>
    simp only [changedOf, if_true, Except.ok.injEq, Prod.mk.injEq] at h
    exact h.2 ▸ ⟨rfl, rfl⟩
  | false =>
    cases first with
    | true =>
      simp only [changedOf, Bool.false_eq_true, if_false, if_true, Except.ok.injEq,
        Prod.mk.injEq] at h
      exact h.2 ▸ ⟨rfl, rfl⟩
    | false =>
      by_cases cv : rt.haveCv = true
      · simp only [changedOf, cv, if_true, Bool.false_eq_true, if_false] at h
        cases decoded : gridOf rt img with
        | error e => simp [decoded] at h
        | ok cur =>
          cases cur with
          | none =>
            simp only [decoded, Except.ok.injEq, Prod.mk.injEq] at h
            exact h.2 ▸ ⟨rfl, rfl⟩
          | some cur =>
            simp only [decoded, Except.ok.injEq, Prod.mk.injEq] at h
            exact h.2 ▸ ⟨by simp [restrict, Dict.restrict_set_neg outside], rfl⟩
      · simp only [changedOf, cv, Bool.false_eq_true, if_false, Except.ok.injEq, Prod.mk.injEq] at h
        exact h.2 ▸ ⟨rfl, rfl⟩

theorem observe_inside (inside : q session = true) (m : RedundancyMeter) (img : Bytes) :
    observe rt (m.restrict q) session img = ((observe rt m session img).1,
      (observe rt m session img).2.restrict q) := by
  have readHash : (m.restrict q).hash.get? session = m.hash.get? session :=
    Dict.get?_restrict inside m.hash
  simp only [observe, readHash, changedOf_inside inside]
  cases changedOf rt m session img (m.hash.get? session).isNone
      (!(m.hash.get? session).isNone && m.hash.get? session == some (rt.sha256 img)) with
  | error e => rfl
  | ok r =>
    obtain ⟨changed, m'⟩ := r
    have readGrid : (m'.restrict q).grid.contains session = m'.grid.contains session := by
      simp only [Dict.contains, restrict, Dict.get?_restrict inside]
    simp only [Except.map, readGrid]
    split
    · cases gridOf rt img with
      | error e => simp [restrict, Dict.restrict_set_pos inside]
      | ok g =>
        cases g with
        | none => simp [restrict, Dict.restrict_set_pos inside]
        | some g => simp [restrict, Dict.restrict_set_pos inside]
    · simp [restrict, Dict.restrict_set_pos inside]

theorem observe_outside (outside : q session = false) (m : RedundancyMeter) (img : Bytes) :
    (observe rt m session img).2.restrict q = m.restrict q := by
  simp only [observe]
  cases changes : changedOf rt m session img (m.hash.get? session).isNone
      (!(m.hash.get? session).isNone && m.hash.get? session == some (rt.sha256 img)) with
  | error e => rfl
  | ok r =>
    obtain ⟨changed, m'⟩ := r
    have kept := (changedOf_outside outside changes).1
    simp only [restrict, RedundancyMeter.mk.injEq] at kept
    simp only
    split
    · cases gridOf rt img with
      | error e => simp [restrict, Dict.restrict_set_neg outside, kept]
      | ok g =>
        cases g with
        | none => simp [restrict, Dict.restrict_set_neg outside, kept]
        | some g => simp [restrict, Dict.restrict_set_neg outside, kept]
    · simp [restrict, Dict.restrict_set_neg outside, kept]

end RedundancyMeter

section Resolver

variable {settings : Settings} {rt : Runtime} {db : ControlDb} {q : String → Bool} {now : ℚ}

theorem resolve_inside {secret : Option String}
    (inside : ∀ s, secret = some s → q (hashSecret rt s) = true)
    (cache : ResolverCache) :
    resolve settings rt db (cache.restrict q) now secret =
      ((resolve settings rt db cache now secret).1,
        (resolve settings rt db cache now secret).2.restrict q) := by
  cases secret with
  | none => rfl
  | some s =>
    have kept := inside s rfl
    by_cases key : looksLikeKey s = true
    · simp only [resolve, key, Bool.not_true, Bool.false_eq_true, if_false, Dict.get?_restrict kept]
      cases (cache.get? (hashSecret rt s)).filter fun hit => hit.1 > now with
      | none => simp [Dict.restrict_set_pos kept]
      | some hit => rfl
    · simp [resolve, key]

theorem resolve_outside {secret : Option String}
    (outside : ∀ s, secret = some s → q (hashSecret rt s) = false)
    (cache : ResolverCache) :
    (resolve settings rt db cache now secret).2.restrict q = cache.restrict q := by
  cases secret with
  | none => rfl
  | some s =>
    by_cases key : looksLikeKey s = true
    · simp only [resolve, key, Bool.not_true, Bool.false_eq_true, if_false]
      cases (cache.get? (hashSecret rt s)).filter fun hit => hit.1 > now with
      | none => simp [Dict.restrict_set_neg (outside s rfl)]
      | some hit => rfl
    · simp [resolve, key]

end Resolver

/-! ## Metering -/

namespace ControlDb

def restrict (v : View) (db : ControlDb) : ControlDb :=
  { db with usageDaily := db.usageDaily.restrict v.row }

theorem record_inside {v : View} {db : ControlDb} {orgId keyId day : String} {u : Metering.Usage}
    (inside : v.keyId keyId = true) :
    Metering.record (db.restrict v) orgId keyId day u =
      (Metering.record db orgId keyId day u).restrict v := by
  have kept : v.row (keyId, day) = true := inside
  simp only [Metering.record, restrict, Dict.get?_restrict kept, Dict.restrict_set_pos kept]

theorem record_outside {v : View} {db : ControlDb} {orgId keyId day : String} {u : Metering.Usage}
    (outside : v.keyId keyId = false) :
      (Metering.record db orgId keyId day u).restrict v = db.restrict v := by
  have gone : v.row (keyId, day) = false := outside
  simp only [Metering.record, restrict, Dict.restrict_set_neg gone]

end ControlDb

/-! ## The gateway -/

namespace Gateway

def restrict (v : View) (g : Gateway) : Gateway :=
  { db := g.db.restrict v, resolver := g.resolver.restrict v.keyHash, meter := g.meter.restrict v.session,
    cache := g.cache.restrict v.session }

variable {rt : Runtime} {v : View} {p : Principal}

theorem store_inside {r : Reading} (inside : v.session r.session = true) (g : Gateway)
    (tenant : Tenant) (resp : Json) :
    (g.restrict v).store rt tenant r resp = (g.store rt tenant r resp).restrict v := by
  cases caches : tenant.cacheEnabled with
  | true => simp [store, caches, restrict, Dict.restrict_set_pos inside]
  | false => simp [store, caches]

theorem store_outside {r : Reading} (outside : v.session r.session = false) (g : Gateway)
    (tenant : Tenant)
    (resp : Json) : (g.store rt tenant r resp).restrict v = g.restrict v := by
  cases caches : tenant.cacheEnabled with
  | true => simp [store, caches, restrict, Dict.restrict_set_neg outside]
  | false => simp [store, caches]

variable (rt) in
/-- Caching a reply touches the cache only. -/
theorem store_frame (g : Gateway) (tenant : Tenant) (r : Reading) (resp : Json) :
    (g.store rt tenant r resp).db = g.db ∧ (g.store rt tenant r resp).resolver = g.resolver ∧
      (g.store rt tenant r resp).meter = g.meter := by
  unfold store
  split <;> exact ⟨rfl, rfl, rfl⟩

/-- Metering one request, in a gateway. -/
def meterUsage (g : Gateway) (p : Principal) (today : String) (u : Metering.Usage) : Gateway :=
  { g with db := Metering.record g.db p.orgId p.keyId today u }

theorem meterUsage_inside (inside : v.keyId p.keyId = true) (g : Gateway) (today : String)
    (u : Metering.Usage) :
    (g.restrict v).meterUsage p today u = (g.meterUsage p today u).restrict v := by
  simp [meterUsage, restrict, ControlDb.record_inside inside]

theorem meterUsage_outside (outside : v.keyId p.keyId = false) (g : Gateway) (today : String)
    (u : Metering.Usage) :
    (g.meterUsage p today u).restrict v = g.restrict v := by
  simp [meterUsage, restrict, ControlDb.record_outside outside]

/-- The handler's last part, in terms of `store` and `meterUsage`. -/
theorem finish_eq (g : Gateway) (r : Reading) (io : Outside) (redundant : ℚ) (resp : Json)
    (hit : Bool) :
    g.finish rt p r io redundant resp hit =
      match resp.setItem "model" (.str "dexa-cua-vlm") with
      | .error _ => (.internalError, g)
      | .ok resp =>
        match outTokens resp with
        | .error _ => (.internalError, g.store rt p.tenant r resp)
        | .ok out =>
          let saved := savingsOf r out hit
          let metered :=
            (g.store rt p.tenant r resp).meterUsage p io.today (usageOf saved redundant hit)
          match resp.setItem "dexa" (infoOf p.tenant r saved redundant hit) with
          | .error _ => (.internalError, metered)
          | .ok resp =>
            (.json 200 resp (some (headersOf p.tenant r saved redundant hit)),
              metered.store rt p.tenant r resp) := rfl

theorem finish_inside {r : Reading} (session : v.session r.session = true)
    (key : v.keyId p.keyId = true)
    (g : Gateway) (io : Outside) (redundant : ℚ) (resp : Json) (hit : Bool) :
    (g.restrict v).finish rt p r io redundant resp hit =
      ((g.finish rt p r io redundant resp hit).1,
        (g.finish rt p r io redundant resp hit).2.restrict v) := by
  rw [finish_eq, finish_eq]
  cases resp.setItem "model" (.str "dexa-cua-vlm") with
  | error e => rfl
  | ok resp =>
    simp only [store_inside session, meterUsage_inside key]
    cases outTokens resp with
    | error e => rfl
    | ok out =>
      simp only
      cases resp.setItem "dexa" (infoOf p.tenant r (savingsOf r out hit) redundant hit) with
      | error e => rfl
      | ok resp => rfl

theorem finish_outside {r : Reading} (session : v.session r.session = false)
    (key : v.keyId p.keyId = false)
    (g : Gateway) (io : Outside) (redundant : ℚ) (resp : Json) (hit : Bool) :
    (g.finish rt p r io redundant resp hit).2.restrict v = g.restrict v := by
  rw [finish_eq]
  cases resp.setItem "model" (.str "dexa-cua-vlm") with
  | error e => rfl
  | ok resp =>
    simp only
    cases outTokens resp with
    | error e => exact store_outside session g p.tenant resp
    | ok out =>
      simp only
      cases resp.setItem "dexa" (infoOf p.tenant r (savingsOf r out hit) redundant hit) with
      | error e => simp only [meterUsage_outside key, store_outside session]
      | ok resp => simp only [meterUsage_outside key, store_outside session]

theorem complete_inside {r : Reading} (session : v.session r.session = true)
    (key : v.keyId p.keyId = true)
    (g : Gateway) (io : Outside) (redundant : ℚ) (exactDup : Bool) :
    (g.restrict v).complete rt p r io redundant exactDup =
      ((g.complete rt p r io redundant exactDup).1,
        (g.complete rt p r io redundant exactDup).2.restrict v) := by
  have read : (g.restrict v).cache.get? r.session = g.cache.get? r.session :=
    Dict.get?_restrict session g.cache
  simp only [complete, read]
  generalize answer rt p.tenant r io exactDup _ = answered
  obtain ⟨result, forwarded⟩ := answered
  cases result with
  | cached resp => simp only [finish_inside session key]
  | completed resp => simp only [finish_inside session key]
  | backendError message => rfl
  | raised => rfl

theorem complete_outside {r : Reading} (session : v.session r.session = false)
    (key : v.keyId p.keyId = false)
    (g : Gateway) (io : Outside) (redundant : ℚ) (exactDup : Bool) :
    (g.complete rt p r io redundant exactDup).2.restrict v = g.restrict v := by
  simp only [complete]
  generalize answer rt p.tenant r io exactDup _ = answered
  obtain ⟨result, forwarded⟩ := answered
  cases result with
  | cached resp => exact finish_outside session key g io redundant resp true
  | completed resp => exact finish_outside session key g io redundant resp false
  | backendError message => rfl
  | raised => rfl

theorem observeLast_inside {r : Reading} (session : v.session r.session = true)
    (m : RedundancyMeter) :
    observeLast rt (m.restrict v.session) r =
      ((observeLast rt m r).1, (observeLast rt m r).2.restrict v.session) := by
  simp only [observeLast]
  cases r.imgBytes.getLast? with
  | none => rfl
  | some img => simp only [RedundancyMeter.observe_inside session]

variable (rt) in
theorem observeLast_outside {r : Reading} (session : v.session r.session = false)
    (m : RedundancyMeter) :
    (observeLast rt m r).2.restrict v.session = m.restrict v.session := by
  simp only [observeLast]
  cases r.imgBytes.getLast? with
  | none => rfl
  | some img => exact RedundancyMeter.observe_outside session m img

theorem readRequest_session {tenant : Tenant} {req : Request} {r : Reading}
    (h : readRequest rt tenant req = .ok r) :
    ∃ raw, r.session = sessionKey tenant.name raw := by
  simp only [readRequest, bind, Except.bind] at h
  repeat' split at h
  all_goals cases h
  exact ⟨_, rfl⟩

theorem serve_inside {req : Request}
    (sessions : ∀ raw, v.session (sessionKey p.tenant.name raw) = true)
    (key : v.keyId p.keyId = true) (g : Gateway) (io : Outside) :
    (g.restrict v).serve rt p req io =
      ((g.serve rt p req io).1, (g.serve rt p req io).2.restrict v) := by
  simp only [serve]
  cases read : readRequest rt p.tenant req with
  | error e => rfl
  | ok r =>
    obtain ⟨raw, session_eq⟩ := readRequest_session read
    have session : v.session r.session = true := session_eq ▸ sessions raw
    have observed : observeLast rt (g.restrict v).meter r =
        ((observeLast rt g.meter r).1, (observeLast rt g.meter r).2.restrict v.session) :=
      observeLast_inside session g.meter
    simp only [observed]
    cases (observeLast rt g.meter r).1 with
    | error e => rfl
    | ok obs => exact complete_inside session key { g with meter := (observeLast rt g.meter r).2 } io obs.1 obs.2

theorem serve_outside {req : Request}
    (sessions : ∀ raw, v.session (sessionKey p.tenant.name raw) = false)
    (key : v.keyId p.keyId = false) (g : Gateway) (io : Outside) :
    (g.serve rt p req io).2.restrict v = g.restrict v := by
  simp only [serve]
  cases read : readRequest rt p.tenant req with
  | error e => rfl
  | ok r =>
    obtain ⟨raw, session_eq⟩ := readRequest_session read
    have session : v.session r.session = false := session_eq ▸ sessions raw
    have observed := observeLast_outside rt session g.meter
    have metered : ({ g with meter := (observeLast rt g.meter r).2 } : Gateway).restrict v =
      g.restrict v := by
      simp [restrict, observed]
    simp only
    cases (observeLast rt g.meter r).1 with
    | error e => exact metered
    | ok obs =>
      exact (complete_outside session key { g with meter := (observeLast rt g.meter r).2 } io obs.1 obs.2).trans metered

end Gateway

end Dexa.Platform
