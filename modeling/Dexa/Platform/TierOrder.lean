import Dexa.Lib.Interpolation
import Dexa.Platform.SessionTiering

/-! # The order of the tiers

The break-evens of a context size are ratios of linear functions of its profile, so what holds
of the rows of the table holds between them and beyond them: the break-evens are in the order
of the tiers, and grow with the context.  Both platforms interpolate the same table.
-/

namespace Dexa.Platform.Sessions

open Dexa.Lib
open Dexa.Edge (Profile Tier interpolate smallest largest profiles)

/-- The break-evens of a profile. -/
def breakevensOf (p : Profile) : Edge.Breakevens :=
  ⟨p.prefillMs / p.kvGb * (3 / 50), (p.prefillMs - p.restoreCpuMs) / p.kvGb * (3 / 10),
    (p.prefillMs - p.restoreNvmeMs) / p.kvGb * 9⟩

theorem breakevens_eq (tokens : ℚ) :
    Edge.breakevens tokens = breakevensOf (Edge.profileFor tokens) := by
  simp only [Edge.breakevens, breakevensOf, Edge.gpuUsdS, Edge.gpuUsdHr, Edge.gpuUsableGb,
    Edge.ramUsdGbHr, Edge.nvmeUsdGbHr,
    Edge.Breakevens.mk.injEq]
  refine ⟨?_, ?_, ?_⟩ <;> ring

/-- Restoring is cheap enough for each tier to break even after the one before it. -/
structure Ordered (p : Profile) : Prop where
  kv : 0 < p.kvGb
  cpu : 5 * p.restoreCpuMs < 4 * p.prefillMs
  nvme : 30 * p.restoreNvmeMs < 29 * p.prefillMs + p.restoreCpuMs

theorem Ordered.breakevens {p : Profile} (ordered : Ordered p) :
    (breakevensOf p).warmS < (breakevensOf p).ramS ∧
      (breakevensOf p).ramS < (breakevensOf p).nvmeS := by
  obtain ⟨kv, cpu, nvme⟩ := ordered
  simp only [breakevensOf, div_mul_eq_mul_div]
  constructor
  · exact (div_lt_div_iff_of_pos_right kv).2 (by linarith)
  · exact (div_lt_div_iff_of_pos_right kv).2 (by linarith)

theorem Ordered.scale {p : Profile} (ordered : Ordered p) {f : ℚ} (positive : 0 < f) :
    Ordered (p.scale f) := by
  obtain ⟨kv, cpu, nvme⟩ := ordered
  refine ⟨mul_pos kv positive, ?_, ?_⟩
  · have := mul_lt_mul_of_pos_right cpu positive
    simp only [Profile.scale]
    linarith
  · have := mul_lt_mul_of_pos_right nvme positive
    simp only [Profile.scale]
    linarith

theorem Ordered.lerp {p q : Profile} (hp : Ordered p) (hq : Ordered q) {f : ℚ} (low : 0 ≤ f)
    (high : f ≤ 1) :
    Ordered (p.lerp q f) := by
  refine ⟨segment_pos hp.kv hq.kv low high, ?_, ?_⟩
  · have := segment_pos (sub_pos.2 hp.cpu) (sub_pos.2 hq.cpu) low high
    simp only [Profile.lerp]
    linarith
  · have := segment_pos (sub_pos.2 hp.nvme) (sub_pos.2 hq.nvme) low high
    simp only [Profile.lerp]
    linarith

/-- Every break-even of the one profile is at most that of the other. -/
structure Below (p q : Profile) : Prop where
  warm : (breakevensOf p).warmS ≤ (breakevensOf q).warmS
  ram : (breakevensOf p).ramS ≤ (breakevensOf q).ramS
  nvme : (breakevensOf p).nvmeS ≤ (breakevensOf q).nvmeS

theorem Below.refl (p : Profile) : Below p p := ⟨le_refl _, le_refl _, le_refl _⟩

theorem Below.trans {p q r : Profile} (h : Below p q) (h' : Below q r) : Below p r :=
  ⟨h.warm.trans h'.warm, h.ram.trans h'.ram, h.nvme.trans h'.nvme⟩

/-- Scaling cancels. -/
theorem breakevensOf_scale (p : Profile) {f : ℚ} (positive : 0 < f) :
    breakevensOf (p.scale f) = breakevensOf p := by
  have cancel : ∀ x : ℚ, x * f / (p.kvGb * f) = x / p.kvGb :=
    fun x => mul_div_mul_right x p.kvGb positive.ne'
  simp only [breakevensOf, Profile.scale, ← sub_mul, cancel]

theorem Below.lerp {p q : Profile} (hp : Ordered p) (hq : Ordered q) (below : Below p q) {f g : ℚ}
    (low : 0 ≤ f) (le : f ≤ g)
    (high : g ≤ 1) : Below (p.lerp q f) (p.lerp q g) := by
  have part : ∀ {a c k : ℚ}, 0 < k → a / p.kvGb * k ≤ c / q.kvGb * k →
      (a + f * (c - a)) / (p.lerp q f).kvGb * k ≤ (a + g * (c - a)) / (p.lerp q g).kvGb * k := by
    intro a c k positive rises
    have ratio := le_of_mul_le_mul_right rises positive
    exact mul_le_mul_of_nonneg_right (segment_ratio_mono hp.kv hq.kv ratio low le high) positive.le
  have cpu := part (by norm_num) below.ram
  have nvme := part (by norm_num) below.nvme
  have expand : ∀ a b c d h :
    ℚ, a - b + h * (c - d - (a - b)) = a + h * (c - a) - (b + h * (d - b)) := by
    intros
    ring
  rw [expand, expand] at cpu nvme
  exact ⟨part (by norm_num) below.warm, cpu, nvme⟩

theorem lerp_zero (p q : Profile) : p.lerp q 0 = p := by simp [Profile.lerp]

theorem lerp_one (p q : Profile) : p.lerp q 1 = q := by simp [Profile.lerp]

/-- Rows of growing contexts and growing break-evens. -/
def Rising : ℚ × Profile → List (ℚ × Profile) → Prop
  | lo, [] => Ordered lo.2
  | lo, hi :: rows => Ordered lo.2 ∧ lo.1 < hi.1 ∧ Below lo.2 hi.2 ∧ Rising hi rows

theorem Rising.ordered {lo : ℚ × Profile} {rows : List (ℚ × Profile)} (rising : Rising lo rows) :
    Ordered lo.2 := by
  cases rows with
  | nil => exact rising
  | cons hi rows => exact rising.1

/-- How far a context size is between two rows. -/
theorem fraction {lo hi t : ℚ} (rows : lo < hi) (above : lo ≤ t) (under : t ≤ hi) :
    0 ≤ (t - lo) / (hi - lo) ∧ (t - lo) / (hi - lo) ≤ 1 := by
  have width : 0 < hi - lo := sub_pos.2 rows
  exact ⟨div_nonneg (sub_nonneg.2 above) width.le, (div_le_one width).2 (by linarith)⟩

theorem interpolate_ordered {lo : ℚ × Profile} {rows : List (ℚ × Profile)} (rising : Rising lo rows)
    {t : ℚ}
    (above : lo.1 ≤ t) : Ordered (interpolate t lo rows) := by
  induction rows generalizing lo with
  | nil => exact rising
  | cons hi rows ih =>
    obtain ⟨ordered, wider, -, rest⟩ := rising
    rw [interpolate]
    split
    · next beyond => exact ih rest beyond.le
    · next within =>
      obtain ⟨low, high⟩ := fraction wider above (not_lt.1 within)
      exact ordered.lerp rest.ordered low high

theorem below_interpolate {lo : ℚ × Profile} {rows : List (ℚ × Profile)} (rising : Rising lo rows)
    {t : ℚ}
    (above : lo.1 ≤ t) : Below lo.2 (interpolate t lo rows) := by
  induction rows generalizing lo with
  | nil => exact .refl _
  | cons hi rows ih =>
    obtain ⟨ordered, wider, below, rest⟩ := rising
    rw [interpolate]
    split
    · next beyond => exact below.trans (ih rest beyond.le)
    · next within =>
      obtain ⟨low, high⟩ := fraction wider above (not_lt.1 within)
      have start := Below.lerp ordered rest.ordered below (le_refl 0) low high
      rwa [lerp_zero] at start

theorem interpolate_mono {lo : ℚ × Profile} {rows : List (ℚ × Profile)} (rising : Rising lo rows)
    {t t' : ℚ}
    (above : lo.1 ≤ t) (le : t ≤ t') : Below (interpolate t lo rows) (interpolate t' lo rows) := by
  induction rows generalizing lo with
  | nil => exact .refl _
  | cons hi rows ih =>
    obtain ⟨ordered, wider, below, rest⟩ := rising
    rw [interpolate, interpolate]
    by_cases beyond : hi.1 < t
    · rw [if_pos beyond, if_pos (beyond.trans_le le)]
      exact ih rest beyond.le
    · obtain ⟨low, high⟩ := fraction wider above (not_lt.1 beyond)
      rw [if_neg beyond]
      by_cases beyond' : hi.1 < t'
      · rw [if_pos beyond']
        have rises := Below.lerp ordered rest.ordered below low high (le_refl 1)
        rw [lerp_one] at rises
        exact rises.trans (below_interpolate rest beyond'.le)
      · rw [if_neg beyond']
        obtain ⟨-, high'⟩ := fraction wider (above.trans le) (not_lt.1 beyond')
        have width : 0 < hi.1 - lo.1 := sub_pos.2 wider
        exact below.lerp ordered rest.ordered low
          ((div_le_div_iff_of_pos_right width).2 (by linarith)) high'

theorem rising_profiles : Rising smallest profiles.tail := by
  simp only [Rising, profiles, List.tail_cons, smallest, largest]
  refine ⟨?_,
    by norm_num, ?_, ?_, by norm_num, ?_, ?_, by norm_num, ?_, ?_⟩ <;> constructor <;> norm_num [breakevensOf]

/-- At the ends of the table the interpolation is the row there. -/
theorem interpolate_first : interpolate smallest.1 smallest profiles.tail = smallest.2 := by
  decide +kernel

theorem interpolate_last : interpolate largest.1 smallest profiles.tail = largest.2 := by
  decide +kernel

theorem smallest_lt_largest : smallest.1 < largest.1 := by norm_num [smallest, largest]

/-- A context size, moved into the table. -/
def clamp (t : ℚ) : ℚ := max smallest.1 (min t largest.1)

theorem clamp_mono {t t' : ℚ} (le : t ≤ t') : clamp t ≤ clamp t' :=
  max_le_max_left _ (min_le_min_right _ le)

/-- The profile is a scaled row, and scaling leaves the break-evens, or it is interpolated. -/
theorem breakevensOf_profileFor {t : ℚ} (positive : 0 < t) :
    breakevensOf (Edge.profileFor t) = breakevensOf
      (interpolate (clamp t) smallest profiles.tail) := by
  rw [Edge.profileFor, clamp]
  split
  · next low =>
    rw [min_eq_left (low.trans smallest_lt_largest.le), max_eq_left low, interpolate_first]
    exact breakevensOf_scale _ (div_pos positive (by norm_num [smallest]))
  split
  · next high =>
    rw [min_eq_right high, max_eq_right smallest_lt_largest.le, interpolate_last]
    exact breakevensOf_scale _ (div_pos positive (by norm_num [largest]))
  · next above below =>
    rw [min_eq_left (not_le.1 below).le, max_eq_right (not_le.1 above).le]

theorem breakevens_ordered {t : ℚ} (positive : 0 < t) :
    (Edge.breakevens t).warmS < (Edge.breakevens t).ramS ∧
      (Edge.breakevens t).ramS < (Edge.breakevens t).nvmeS := by
  rw [breakevens_eq, breakevensOf_profileFor positive]
  exact (interpolate_ordered rising_profiles (le_max_left ..)).breakevens

theorem breakevens_mono {t t' : ℚ} (positive : 0 < t) (le : t ≤ t') :
    (Edge.breakevens t).warmS ≤ (Edge.breakevens t').warmS ∧
      (Edge.breakevens t).ramS ≤ (Edge.breakevens t').ramS ∧
      (Edge.breakevens t).nvmeS ≤ (Edge.breakevens t').nvmeS := by
  rw [breakevens_eq, breakevens_eq, breakevensOf_profileFor positive,
    breakevensOf_profileFor (positive.trans_le le)]
  obtain ⟨warm, ram, nvme⟩ := interpolate_mono rising_profiles (le_max_left ..) (clamp_mono le)
  exact ⟨warm, ram, nvme⟩

theorem profileFor_kv {t : ℚ} (positive : 0 < t) : 0 < (Edge.profileFor t).kvGb := by
  rw [Edge.profileFor]
  split
  · exact (rising_profiles.ordered.scale (div_pos positive (by norm_num [smallest]))).kv
  split
  · have last := interpolate_ordered rising_profiles smallest_lt_largest.le
    rw [interpolate_last] at last
    exact (last.scale (div_pos positive (by norm_num [largest]))).kv
  · next above _ => exact (interpolate_ordered rising_profiles (not_le.1 above).le).kv

/-- How slow a tier is. -/
def rank : Tier → Nat
  | .warm => 0
  | .ram => 1
  | .nvme => 2
  | .drop => 3

theorem rank_tierFor_idle {idle idle' : ℚ} (idles : idle ≤ idle') (be : Edge.Breakevens) :
    rank (Edge.tierFor idle be) ≤ rank (Edge.tierFor idle' be) := by
  simp only [Edge.tierFor]
  split_ifs <;> first | decide | (exfalso; linarith)

theorem rank_tierFor_breakevens {be be' : Edge.Breakevens} (warm : be.warmS ≤ be'.warmS)
    (ram : be.ramS ≤ be'.ramS)
    (nvme : be.nvmeS ≤ be'.nvmeS) (idle : ℚ) :
      rank (Edge.tierFor idle be') ≤ rank (Edge.tierFor idle be) := by
  simp only [Edge.tierFor]
  split_ifs <;> first | decide | (exfalso; linarith)

/-- Up to the last row, the loop over neighbours stops where the edge's loop stops. -/
theorem interpolateRows_within {t : ℚ} (lo hi : ℚ × Profile) (rows : List (ℚ × Profile))
    (within : t ≤ ((hi :: rows).getLast (List.cons_ne_nil hi rows)).1) :
    interpolateRows t (lo :: hi :: rows) = interpolate t lo (hi :: rows) := by
  induction rows generalizing lo hi with
  | nil =>
    have here : t ≤ hi.1 := within
    rw [interpolateRows, interpolate, if_pos here, if_neg (not_lt.2 here)]
  | cons next rows ih =>
    rw [interpolateRows, interpolate]
    by_cases beyond : hi.1 < t
    · rw [if_neg (not_le.2 beyond), if_pos beyond]
      rw [List.getLast_cons (List.cons_ne_nil next rows)] at within
      exact ih hi next within
    · rw [if_pos (not_lt.1 beyond), if_neg beyond]

/-- Beyond every row, the loop falls through to the last one. -/
theorem interpolateRows_beyond {t : ℚ} (lo : ℚ × Profile) (rows : List (ℚ × Profile))
    (beyond : ∀ row ∈ rows, row.1 < t) :
    interpolateRows t (lo :: rows) =
      ((lo :: rows).getLast (List.cons_ne_nil lo rows)).2.scale
        (t / ((lo :: rows).getLast (List.cons_ne_nil lo rows)).1) := by
  induction rows generalizing lo with
  | nil => rfl
  | cons hi rows ih =>
    rw [interpolateRows, if_neg (not_le.2 (beyond hi (List.mem_cons_self ..))),
      List.getLast_cons (List.cons_ne_nil hi rows)]
    exact ih hi fun row member => beyond row (List.mem_cons_of_mem _ member)

/-- The loops of the two platforms give the same profile. -/
theorem profileFor_eq (tokens : Nat) : profileFor tokens = Edge.profileFor tokens := by
  have rows : profileRows = smallest :: profiles.tail := rfl
  rw [profileFor, rows, Edge.profileFor]
  by_cases low : (tokens : ℚ) ≤ smallest.1
  · rw [if_pos low]
    simp only [if_pos low]
  rw [if_neg low]
  simp only [if_neg low]
  by_cases high : (tokens : ℚ) ≥ largest.1
  · rw [if_pos high]
    cases high.lt_or_eq with
    | inl beyond =>
      have least : ∀ row ∈ profiles, row.1 ≤ largest.1 := by decide +kernel
      exact interpolateRows_beyond smallest profiles.tail fun row member =>
        (least row (List.mem_of_mem_tail member)).trans_lt beyond
    | inr last =>
      -- at the last row both interpolation and extrapolation are that row
      have within :
        interpolateRows tokens (smallest :: profiles.tail) =
        interpolate tokens smallest profiles.tail :=
        interpolateRows_within _ _ _ last.symm.le
      rw [within, ← last]
      decide +kernel
  · rw [if_neg high]
    exact interpolateRows_within _ _ _ (not_le.1 high).le

theorem breakeven_pos {saved hourly : ℚ} (positive : 0 < hourly) :
    breakeven saved hourly = ((saved / hourly * 3600 : ℚ) : WithTop ℚ) := if_neg positive.ne'

/-- With something to store, the break-evens are the edge's and finite. -/
theorem breakevens_finite {tokens : Nat} (some_ : 1 ≤ tokens) :
    breakevens tokens =
      ⟨(Edge.breakevens tokens).warmS, (Edge.breakevens tokens).ramS,
        (Edge.breakevens tokens).nvmeS⟩ := by
  have kv : 0 < (Edge.profileFor tokens).kvGb := profileFor_kv (by exact_mod_cast some_)
  have warm : 0 < (Edge.profileFor tokens).kvGb / gpuUsableGb * gpuUsdHr :=
    mul_pos (div_pos kv (by norm_num [gpuUsableGb])) (by norm_num [gpuUsdHr])
  have ram : 0 < (Edge.profileFor tokens).kvGb * ramUsdGbHr := mul_pos kv (by norm_num [ramUsdGbHr])
  have nvme : 0 < (Edge.profileFor tokens).kvGb * nvmeUsdGbHr :=
    mul_pos kv (by norm_num [nvmeUsdGbHr])
  simp only [breakevens, profileFor_eq, breakeven_pos warm, breakeven_pos ram, breakeven_pos nvme]
  rfl

theorem decideTier_tier {tokens : Nat} (some_ : 1 ≤ tokens) (idle : ℚ) :
    (decideTier idle tokens).tier = Edge.tierFor idle (Edge.breakevens tokens) := by
  simp only [decideTier, Edge.tierFor, breakevens_finite some_, WithTop.coe_le_coe]
  split_ifs <;> rfl

theorem edge_decideTier_tier (tokens : Nat) (idle : ℚ) :
    (Edge.decideTier idle (some (tokens : ℚ))).tier = Edge.tierFor idle (Edge.breakevens tokens) :=
  rfl

/-- The break-evens are in the order of the tiers; the tier is no faster after a longer idle time
and no slower for a larger context; and both platforms choose the same one. -/
theorem tier_decision_ordered {tokens tokens' : Nat} {idle idle' : ℚ} (some_ : 1 ≤ tokens)
    (larger : tokens ≤ tokens')
    (longer : idle ≤ idle') :
    ((breakevens tokens).warmS < (breakevens tokens).ramS ∧
      (breakevens tokens).ramS < (breakevens tokens).nvmeS) ∧
      ((Edge.breakevens tokens).warmS < (Edge.breakevens tokens).ramS ∧
        (Edge.breakevens tokens).ramS < (Edge.breakevens tokens).nvmeS) ∧
      rank (decideTier idle tokens).tier ≤ rank (decideTier idle' tokens).tier ∧
      rank (decideTier idle tokens').tier ≤ rank (decideTier idle tokens).tier ∧
      (decideTier idle tokens).tier = (Edge.decideTier idle (some (tokens : ℚ))).tier := by
  have positive : (0 : ℚ) < tokens := by exact_mod_cast some_
  have ordered := breakevens_ordered positive
  refine ⟨?_, ordered, ?_, ?_, ?_⟩
  · rw [breakevens_finite some_]
    exact ⟨WithTop.coe_lt_coe.2 ordered.1, WithTop.coe_lt_coe.2 ordered.2⟩
  · rw [decideTier_tier some_, decideTier_tier some_]
    exact rank_tierFor_idle longer _
  · obtain ⟨warm, ram, nvme⟩ := breakevens_mono positive (Nat.cast_le.2 larger)
    rw [decideTier_tier some_, decideTier_tier (some_.trans larger)]
    exact rank_tierFor_breakevens warm ram nvme idle
  · rw [decideTier_tier some_, edge_decideTier_tier]

theorem tier_decision_ordered_between :
    (decideTier 100 8192).tier = .ram ∧
      rank (decideTier 100 20000).tier ≤ rank (decideTier 100 8192).tier := by
  have larger : 8192 ≤ 20000 := by decide
  have both := tier_decision_ordered (by decide) larger (le_refl 100)
  exact ⟨both.2.2.2.2.trans (by decide +kernel), both.2.2.2.1⟩

end Dexa.Platform.Sessions
