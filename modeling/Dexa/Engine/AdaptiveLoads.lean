import Mathlib.Tactic.Linarith
import Mathlib.Tactic.Positivity
import Dexa.Engine.ConnectorLoads

/-! # The adaptive load decision over runs

The busyness is an average of fullnesses, the contention factor an affine image of it, the
threshold a multiple of that.  Each stays in its interval, whatever hooks the engine calls.
-/

namespace Dexa.Engine

open Dexa.Core Dexa.Lib

/-- The configured floor as the factor uses it. -/
def clampedFloor (floor : ℚ) : ℚ := min 1 (max 0 floor)

theorem clampedFloor_nonneg (floor : ℚ) : 0 ≤ clampedFloor floor :=
  le_min zero_le_one (le_max_left 0 floor)

theorem clampedFloor_le_one (floor : ℚ) : clampedFloor floor ≤ 1 := min_le_left 1 _

theorem contentionFactorFromBusy_le_one (busy floor : ℚ) :
    contentionFactorFromBusy busy floor ≤ 1 := by
  have scaled : 0 ≤ clampedFloor busy * (1 - clampedFloor floor) :=
    mul_nonneg (clampedFloor_nonneg busy) (sub_nonneg.2 (clampedFloor_le_one floor))
  exact sub_le_self 1 scaled

theorem floor_le_contentionFactorFromBusy (busy floor : ℚ) :
    clampedFloor floor ≤ contentionFactorFromBusy busy floor := by
  have scaled : clampedFloor busy * (1 - clampedFloor floor) ≤ 1 - clampedFloor floor :=
    mul_le_of_le_one_left (sub_nonneg.2 (clampedFloor_le_one floor)) (clampedFloor_le_one busy)
  show clampedFloor floor ≤ 1 - clampedFloor busy * (1 - clampedFloor floor)
  linarith

/-- The busier, the smaller the factor. -/
theorem contentionFactorFromBusy_antitone (floor : ℚ) :
    Antitone fun busy => contentionFactorFromBusy busy floor := by
  intro busy busy' busier
  have clamped : clampedFloor busy ≤ clampedFloor busy' :=
    min_le_min_left 1 (max_le_max_left 0 busier)
  exact sub_le_sub_left
    (mul_le_mul_of_nonneg_right clamped (sub_nonneg.2 (clampedFloor_le_one floor))) 1

/-- More tokens and a smaller factor only help a load. -/
theorem loadDecision_mono {n n' : Int} (policy : LoadPolicy) {minLoad : Int} (nonneg : 0 ≤ minLoad)
    {factor factor' : ℚ}
    (more : n ≤ n') (smaller : factor' ≤ factor)
    (loads : loadDecision n policy minLoad factor = true) :
    loadDecision n' policy minLoad factor' = true := by
  cases policy with
  | always => rfl
  | never => exact loads
  | adaptive =>
    have threshold : (minLoad : ℚ) * max (1 / 1000000) factor ≤ n := of_decide_eq_true loads
    have lower : (minLoad : ℚ) * max (1 / 1000000) factor' ≤ minLoad * max (1 / 1000000) factor :=
      mul_le_mul_of_nonneg_left (max_le_max_left _ smaller) (Int.cast_nonneg nonneg)
    exact decide_eq_true (lower.trans (threshold.trans (Int.cast_le.2 more)))

namespace Scheduler

/-- What `_should_load` scales the crossover by where the contention counts. -/
def contention (s : Scheduler) : ℚ := contentionFactorFromBusy s.busyEma s.cfg.contentionFloor

/-- The contention counts: it is asked for, and some maximum to compare with is known. -/
def Contended (s : Scheduler) : Prop := s.cfg.contentionAware ∧
    (0 < s.cfg.maxBatchTokens ∨ 0 < s.cfg.maxSeqs)

theorem shouldLoad_contended {s : Scheduler} (contended : s.Contended) (n : Int) :
    s.shouldLoad n = loadDecision n s.cfg.loadPolicy s.cfg.minLoadTokens s.contention := by
  rw [shouldLoad]
  exact congrArg (loadDecision n s.cfg.loadPolicy s.cfg.minLoadTokens) (if_pos contended)

section Decision

variable {s : Scheduler} (contended : s.Contended) (nonneg : 0 ≤ s.cfg.minLoadTokens)
include contended nonneg

theorem shouldLoad_of_minLoadTokens_le (adaptive : s.cfg.loadPolicy = .adaptive) {n : Int}
    (enough : s.cfg.minLoadTokens ≤ n) : s.shouldLoad n = true := by
  have factor : max (1 / 1000000) s.contention ≤ 1 :=
    max_le (by norm_num) (contentionFactorFromBusy_le_one _ _)
  have threshold : (s.cfg.minLoadTokens : ℚ) * max (1 / 1000000) s.contention ≤
    s.cfg.minLoadTokens :=
    mul_le_of_le_one_right (Int.cast_nonneg nonneg) factor
  rw [shouldLoad_contended contended, adaptive]
  exact decide_eq_true (threshold.trans (Int.cast_le.2 enough))

theorem not_shouldLoad_of_lt (adaptive : s.cfg.loadPolicy = .adaptive) {n : Int}
    (few : (n : ℚ) < clampedFloor s.cfg.contentionFloor * s.cfg.minLoadTokens) :
      s.shouldLoad n = false := by
  have factor : clampedFloor s.cfg.contentionFloor ≤ max (1 / 1000000) s.contention :=
    (floor_le_contentionFactorFromBusy _ _).trans (le_max_right _ _)
  have threshold := mul_le_mul_of_nonneg_right factor (Int.cast_nonneg (R := ℚ) nonneg)
  rw [mul_comm (max _ _)] at threshold
  rw [shouldLoad_contended contended, adaptive]
  exact decide_eq_false (not_le.2 (few.trans_le threshold))

theorem shouldLoad_mono_tokens {n n' : Int} (more : n ≤ n') (loads : s.shouldLoad n = true) :
    s.shouldLoad n' = true := by
  rw [shouldLoad_contended contended] at loads ⊢
  exact loadDecision_mono _ nonneg more le_rfl loads

theorem shouldLoad_mono_busy {busy busy' : ℚ} (busier : busy ≤ busy') {n : Int}
    (loads : { s with busyEma := busy }.shouldLoad n = true) :
      { s with busyEma := busy' }.shouldLoad n = true := by
  have now : { s with busyEma := busy }.Contended := contended
  have later : { s with busyEma := busy' }.Contended := contended
  rw [shouldLoad_contended now] at loads
  rw [shouldLoad_contended later]
  exact loadDecision_mono _ nonneg le_rfl (contentionFactorFromBusy_antitone _ busier) loads

end Decision

/-- An average with weights 7/10 and 3/10 of two numbers of the unit interval is in it. -/
theorem smoothed_mem {x y : ℚ} (hx : 0 ≤ x ∧ x ≤ 1) (hy : 0 ≤ y ∧ y ≤ 1) :
    0 ≤ 7 / 10 * x + 3 / 10 * y ∧ 7 / 10 * x + 3 / 10 * y ≤ 1 := by
  constructor <;> linarith [hx.1, hx.2, hy.1, hy.2]

theorem observeBusy_mem {s : Scheduler} {output : SchedulerOutput}
    (tokensMax : 0 ≤ s.cfg.maxBatchTokens)
    (total : 0 ≤ output.totalNumScheduledTokens) (busy : 0 ≤ s.busyEma ∧ s.busyEma ≤ 1) :
    0 ≤ s.observeBusy output ∧ s.observeBusy output ≤ 1 := by
  rw [observeBusy]
  split
  · have tokFull :
      (0 : ℚ) ≤
      if s.cfg.maxBatchTokens ≠ 0 then (output.totalNumScheduledTokens : ℚ) / s.cfg.maxBatchTokens
      else 0 := by
      split
      · exact div_nonneg (Int.cast_nonneg total) (Int.cast_nonneg tokensMax)
      · exact le_rfl
    -- the token fullness keeps the larger of the two from being negative
    exact smoothed_mem busy ⟨le_min zero_le_one (le_max_of_le_left tokFull), min_le_left 1 _⟩
  · exact busy

end Scheduler

namespace StepState

/-- The steps keep the configuration and a busyness of the unit interval. -/
structure Busy (cfg : SchedulerConfig) (s : StepState) : Prop where
  cfg_eq : s.scheduler.cfg = cfg
  mem : 0 ≤ s.scheduler.busyEma ∧ s.scheduler.busyEma ≤ 1

/-- A step of the engine schedules no negative number of tokens. -/
def Counts : HookCall → Prop
  | .build _ output => 0 ≤ output.totalNumScheduledTokens
  | _ => True

theorem busy_step {cfg : SchedulerConfig} (tokensMax : 0 ≤ cfg.maxBatchTokens) (s : StepState)
    (call : HookCall) (busy : Busy cfg s) (counts : Counts call) :
      Busy cfg (schedulerHooks.next s call) := by
  obtain ⟨rfl, mem⟩ := busy
  cases call with
  | matched has request computed =>
    obtain ⟨-, -, -, result⟩ | ⟨-, result⟩ :=
      s.scheduler.getNumNewMatchedTokens_cases has request computed
    · have kept : (schedulerHooks.next s (.matched has request computed)).scheduler = _ :=
        congrArg Prod.snd result
      exact ⟨by rw [kept], by rw [kept]; exact mem⟩
    · have kept : (schedulerHooks.next s (.matched has request computed)).scheduler = s.scheduler :=
        congrArg Prod.snd result
      exact ⟨by rw [kept], by rw [kept]; exact mem⟩
  | allocated reqId blocks n =>
    have kept : (schedulerHooks.next s (.allocated reqId blocks n)).scheduler =
        s.scheduler.updateStateAfterAlloc reqId blocks n := rfl
    rw [Scheduler.updateStateAfterAlloc] at kept
    split at kept
    · exact ⟨by rw [kept], by rw [kept]; exact mem⟩
    · exact ⟨by rw [kept], by rw [kept]; exact mem⟩
  | build has output => exact ⟨rfl, Scheduler.observeBusy_mem tokensMax counts mem⟩
  | finished reqId blocks => exact ⟨rfl, mem⟩

theorem busy_run {cfg : SchedulerConfig} (tokensMax : 0 ≤ cfg.maxBatchTokens)
    (hashing : Hashing) {calls : List HookCall} (counts : ∀ call ∈ calls, Counts call) :
    Busy cfg (schedulerHooks.exec (init cfg hashing) calls) :=
  Machine.Meets.invariant (busy_step tokensMax) ⟨rfl, le_rfl, zero_le_one⟩
    (Machine.meets_of_mem (fun _ => counts) _)

end StepState

/-- In every state a run of hook calls reaches, the busyness and the contention factor are in
    their intervals; where the contention counts, an adaptive connector loads at the configured
    crossover, never below its floor's share, and the more readily the more tokens there are and
    the busier the engine is. -/
theorem adaptive_loads_in_bounds (cfg : SchedulerConfig) (hashing : Hashing)
    (tokensMax : 0 ≤ cfg.maxBatchTokens)
    (known : 0 < cfg.maxBatchTokens ∨ 0 < cfg.maxSeqs) (calls : List HookCall)
    (counts : ∀ call ∈ calls, StepState.Counts call) :
    let s := (schedulerHooks.exec (StepState.init cfg hashing) calls).scheduler
    let floor := clampedFloor cfg.contentionFloor
    (0 ≤ s.busyEma ∧ s.busyEma ≤ 1) ∧ (floor ≤ s.contention ∧ s.contention ≤ 1) ∧
      (cfg.contentionAware = true → cfg.loadPolicy = .adaptive → 0 ≤ cfg.minLoadTokens →
        (∀ n : Int, cfg.minLoadTokens ≤ n → s.shouldLoad n = true) ∧
        (∀ n : Int, (n : ℚ) < floor * cfg.minLoadTokens → s.shouldLoad n = false) ∧
        (∀ n n' : Int, n ≤ n' → s.shouldLoad n = true → s.shouldLoad n' = true) ∧
        ∀ (n : Int) (busy busy' : ℚ), busy ≤ busy' →
          { s with busyEma := busy }.shouldLoad n = true →
            { s with busyEma := busy' }.shouldLoad n = true) := by
  intro s floor
  have busy := StepState.busy_run tokensMax hashing counts
  have sameCfg : s.cfg = cfg := busy.cfg_eq
  have bounds : clampedFloor s.cfg.contentionFloor ≤ s.contention ∧ s.contention ≤ 1 :=
    ⟨floor_le_contentionFactorFromBusy _ _, contentionFactorFromBusy_le_one _ _⟩
  rw [sameCfg] at bounds
  refine ⟨busy.mem, bounds, ?_⟩
  intro aware adaptive nonneg
  have contended : s.Contended := by rw [Scheduler.Contended, sameCfg]; exact ⟨aware, known⟩
  rw [← sameCfg] at adaptive nonneg
  refine ⟨?_, ?_, ?_, ?_⟩
  · intro n enough
    exact Scheduler.shouldLoad_of_minLoadTokens_le contended nonneg adaptive (sameCfg ▸ enough)
  · intro n few
    exact Scheduler.not_shouldLoad_of_lt contended nonneg adaptive (sameCfg ▸ few)
  · intro n n' more loads
    exact Scheduler.shouldLoad_mono_tokens contended nonneg more loads
  · intro n busy busy' busier loads
    exact Scheduler.shouldLoad_mono_busy contended nonneg busier loads

def contended : SchedulerConfig :=
  { blockSize := 16, modelName := "", contentionAware := true, minLoadTokens := 64, maxBatchTokens := 100 }

/-- A batch of as many tokens as fit. -/
def fullBatch : SchedulerOutput := { idleOutput with totalNumScheduledTokens := 100 }

theorem adaptive_loads_in_bounds_full :
    let calls := [HookCall.build (fun _ => true) fullBatch, .build (fun _ => true) fullBatch]
    let s := (schedulerHooks.exec (StepState.init contended constantHashing) calls).scheduler
    (0 < s.busyEma ∧ s.busyEma ≤ 1) ∧ s.shouldLoad 64 = true ∧ s.shouldLoad 6 = false := by
  intro calls s
  obtain ⟨busy, -, decisions⟩ :=
    adaptive_loads_in_bounds contended constantHashing (by decide) (.inl (by decide)) calls
    (by simp [calls, StepState.Counts, fullBatch])
  obtain ⟨loads, skips, -⟩ := decisions rfl rfl (by decide)
  refine ⟨⟨by decide +kernel, busy.2⟩, loads 64 (by decide), skips 6 ?_⟩
  decide +kernel

end Dexa.Engine
