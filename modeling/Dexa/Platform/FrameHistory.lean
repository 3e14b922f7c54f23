import Mathlib.Data.Set.Function
import Dexa.Lib.Machine
import Dexa.Platform.Redundancy

/-! # When the meter compares with the previous frame

The meter remembers a hash and a grid for each session, and updates them on different branches.
Beside it a run records the frames it observed: what the two maps should describe is the last of
them.  They part where bytes that do not decode open a session, and where a frame too small for a
grid leaves the grid of an earlier one behind.
-/

namespace Dexa.Platform

open Dexa.Lib

/-- `_patch_grid` of a frame; `none` also for bytes that do not decode. -/
def frameGrid (rt : Runtime) (frame : Bytes) : Option (NDArray ℚ) := (rt.luma frame).bind patchGrid

/-- The last frame of a session, of frames listed from the newest. -/
def lastFrame (session : String) : List (String × Bytes) → Option Bytes
  | [] => none
  | (owner, frame) :: seen => if owner = session then some frame else lastFrame session seen

/-- The grid of the last frame of a session that has one. -/
def lastGrid (rt : Runtime) (session : String) : List (String × Bytes) → Option (NDArray ℚ)
  | [] => none
  | (owner, frame) :: seen =>
    if owner = session then (frameGrid rt frame).or (lastGrid rt session seen)
      else lastGrid rt session seen

/-- The share of a frame that changed since the last one. -/
def changeSince (rt : Runtime) (last : Option Bytes) (frame : Bytes) : ℚ :=
  match last with
  | none => 1
  | some last =>
    if last = frame then 0
    else
      match frameGrid rt last, frameGrid rt frame with
      | some prev, some cur => changedFraction prev cur
      | _, _ => 1

theorem changeSince_ungridded {rt : Runtime} {last frame : Bytes} (other : last ≠ frame)
    (ungridded : frameGrid rt last = none ∨ frameGrid rt frame = none) :
      changeSince rt (some last) frame = 1 := by
  simp only [changeSince, if_neg other]
  cases ungridded with
  | inl before => rw [before]
  | inr after =>
    rw [after]
    cases frameGrid rt last with
    | none => rfl
    | some grid => rfl

theorem changeSince_gridded {rt : Runtime} {last frame : Bytes} {prev cur : NDArray ℚ}
    (other : last ≠ frame)
    (before : frameGrid rt last = some prev) (after : frameGrid rt frame = some cur) :
    changeSince rt (some last) frame = changedFraction prev cur := by
  simp only [changeSince, if_neg other, before, after]

section History

variable {rt : Runtime} {seen : List (String × Bytes)} {session : String}

/-- A grid is one of an observed frame; the last frame's own if it has one. -/
theorem lastGrid_eq_none (absent : lastFrame session seen = none) :
    lastGrid rt session seen = none := by
  induction seen with
  | nil => rfl
  | cons e seen ih =>
    rw [lastFrame] at absent
    by_cases same : e.1 = session
    · rw [if_pos same] at absent
      exact absurd absent (Option.some_ne_none e.2)
    · rw [if_neg same] at absent
      rw [lastGrid, if_neg same, ih absent]

theorem lastGrid_of_lastFrame {last : Bytes} {grid : NDArray ℚ}
    (here : lastFrame session seen = some last)
    (gridded : frameGrid rt last = some grid) : lastGrid rt session seen = some grid := by
  induction seen with
  | nil => exact absurd here.symm (Option.some_ne_none last)
  | cons e seen ih =>
    rw [lastFrame] at here
    by_cases same : e.1 = session
    · rw [if_pos same, Option.some_inj] at here
      rw [lastGrid, if_pos same, here, gridded]
      rfl
    · rw [if_neg same] at here
      rw [lastGrid, if_neg same, ih here]

theorem lastFrame_mem {last : Bytes} (here : lastFrame session seen = some last) :
    (session, last) ∈ seen := by
  induction seen with
  | nil => exact absurd here.symm (Option.some_ne_none last)
  | cons e seen ih =>
    rw [lastFrame] at here
    by_cases same : e.1 = session
    · rw [if_pos same, Option.some_inj] at here
      rw [← same, ← here]
      exact List.mem_cons_self
    · rw [if_neg same] at here
      exact List.mem_cons_of_mem _ (ih here)

end History

namespace RedundancyMeter

variable {rt : Runtime} {m : RedundancyMeter} {session : String} {frame : Bytes}

def observation (first exact : Bool) (changed : ℚ) : Observation :=
  ⟨first, exact, changed, max 0 (1 - changed)⟩

variable (frame) in
/-- The first frame of a session records its hash before it is decoded. -/
theorem observe_new_session (present : rt.haveCv = true) (new : m.hash.get? session = none)
    (noGrid : m.grid.get? session = none) :
    let m' := { m with hash := m.hash.set session (rt.sha256 frame) }
    (rt.luma frame = none → m.observe rt session frame = (.error .unidentifiedImage, m')) ∧
      ∀ luma, rt.luma frame = some luma → m.observe rt session frame =
        (.ok (observation true false 1),
          match patchGrid luma with
          | none => m'
          | some grid => { m' with grid := m.grid.set session grid }) := by
  intro m'
  have unseen : m.grid.contains session = false := by rw [Dict.contains, noGrid]; rfl
  constructor
  · intro broken
    simp [observe, changedOf, gridOf, new, present, unseen, broken, m']
  · intro luma decoded
    cases grid : patchGrid luma with
    | none => simp [observe, changedOf, gridOf, new, present, unseen, decoded, grid,
        observation, m']
    | some grid' => simp [observe, changedOf, gridOf, new, present, unseen, decoded, grid,
        observation, m']

/-- A frame with the hash of the last one is not decoded. -/
theorem observe_same_bytes (same : m.hash.get? session = some (rt.sha256 frame)) :
    m.observe rt session frame =
      (.ok (observation false true 0),
        { m with hash := m.hash.set session (rt.sha256 frame) }) := by
  simp [observe, changedOf, same, observation]

/-- Another frame is compared with the grid there is, which its own replaces if it has one. -/
theorem observe_other_bytes {digest : String} (present : rt.haveCv = true)
    (old : m.hash.get? session = some digest)
    (other : digest ≠ rt.sha256 frame) :
    (rt.luma frame = none → m.observe rt session frame = (.error .unidentifiedImage, m)) ∧
      ∀ luma, rt.luma frame = some luma →
        (patchGrid luma = none → m.observe rt session frame =
          (.ok (observation false false 1),
            { m with hash := m.hash.set session (rt.sha256 frame) })) ∧
        ∀ grid, patchGrid luma = some grid → m.observe rt session frame =
          (.ok (observation false false ((m.grid.get? session).elim 1 (changedFraction · grid))),
            ⟨m.hash.set session (rt.sha256 frame), m.grid.set session grid⟩) := by
  refine ⟨?_, ?_⟩
  · intro broken
    simp [observe, changedOf, gridOf, old, other, present, broken]
  · intro luma decoded
    refine ⟨?_, ?_⟩
    · intro tiny
      simp [observe, changedOf, gridOf, old, other, present, decoded, tiny, observation]
    · intro grid gridded
      cases stale : m.grid.get? session with
      | none => simp [observe, changedOf, gridOf, old, other, present, decoded, gridded, stale,
          observation, Dict.contains]
      | some prev => simp [observe, changedOf, gridOf, old, other, present, decoded, gridded, stale,
          observation, Dict.contains]

end RedundancyMeter

/-! ## Runs -/

/-- The meter, with the frames it observed without raising, the newest first. -/
structure MeterRun where
  meter : RedundancyMeter := {}
  seen : List (String × Bytes) := []

namespace MeterRun

def step (rt : Runtime) (s : MeterRun) (call : String × Bytes) :
    Except Raised Observation × MeterRun :=
  match s.meter.observe rt call.1 call.2 with
  | (.ok seen, meter) => (.ok seen, ⟨meter, call :: s.seen⟩)
  | (.error e, meter) => (.error e, ⟨meter, s.seen⟩)

/-- An observation is about the last frame observed before; a call that raises leaves what is kept
    for its session. -/
def Faithful (rt : Runtime) (s : MeterRun) (call : String × Bytes) : Prop :=
  match s.meter.observe rt call.1 call.2 with
  | (.ok seen, _) =>
    (seen.exactDuplicate = true ↔ lastFrame call.1 s.seen = some call.2) ∧
      seen.changedFrac = changeSince rt (lastFrame call.1 s.seen) call.2
  | (.error _, meter) =>
    meter.hash.get? call.1 = s.meter.hash.get? call.1 ∧
      meter.grid.get? call.1 = s.meter.grid.get? call.1

/-- The session is not opened by bytes that do not decode, and a frame with a grid that follows one
    without differs in every patch from the last grid there was. -/
structure Undisturbed (rt : Runtime) (s : MeterRun) (call : String × Bytes) : Prop where
  opened : (rt.luma call.2).isSome ∨ (lastFrame call.1 s.seen).isSome
  renewed : ∀ last stale grid, lastFrame call.1 s.seen = some last → last ≠ call.2 →
    frameGrid rt last = none →
    frameGrid rt call.2 = some grid → lastGrid rt call.1 s.seen = some stale →
      changedFraction stale grid = 1

/-- The maps hold the hash of the last frame and the grid of the last one that has a grid. -/
structure Tracks (rt : Runtime) (frames : Set Bytes) (s : MeterRun) : Prop where
  hash : ∀ session, s.meter.hash.get? session = (lastFrame session s.seen).map rt.sha256
  grid : ∀ session, s.meter.grid.get? session = lastGrid rt session s.seen
  known : ∀ call ∈ s.seen, call.2 ∈ frames

section Step

variable {rt : Runtime} {frames : Set Bytes} {s : MeterRun} {session : String} {frame : Bytes}

/-- The maps after a frame was observed, if the call left them so. -/
theorem tracks_seen (tracks : Tracks rt frames s) (known : frame ∈ frames) {meter : RedundancyMeter}
    (hash : meter.hash = s.meter.hash.set session (rt.sha256 frame))
    (grid : ∀ other, meter.grid.get? other =
      if session = other then (frameGrid rt frame).or (s.meter.grid.get? other)
        else s.meter.grid.get? other) :
    Tracks rt frames ⟨meter, (session, frame) :: s.seen⟩ := by
  refine ⟨?_, ?_, ?_⟩
  · intro other
    rw [hash, Dict.get?_set, lastFrame]
    by_cases same : session = other
    · rw [if_pos same, if_pos same]
      rfl
    · rw [if_neg same, if_neg same, tracks.hash other]
  · intro other
    rw [grid other, lastGrid, tracks.grid other]
  · intro call member
    cases List.mem_cons.1 member with
    | inl here => exact here ▸ known
    | inr before => exact tracks.known call before

theorem faithful_of_ok {seen : Observation} {meter : RedundancyMeter}
    (result : s.meter.observe rt session frame = (.ok seen, meter)) :
    Faithful rt s (session, frame) ↔
      (seen.exactDuplicate = true ↔ lastFrame session s.seen = some frame) ∧
        seen.changedFrac = changeSince rt (lastFrame session s.seen) frame := by
  simp only [Faithful, result]

theorem faithful_of_error {e : Raised} {meter : RedundancyMeter}
    (result : s.meter.observe rt session frame = (.error e, meter)) :
    Faithful rt s (session, frame) ↔
      meter.hash.get? session = s.meter.hash.get? session ∧
        meter.grid.get? session = s.meter.grid.get? session := by
  simp only [Faithful, result]

/-- What is to be shown of a call from maps that describe the last frame: it is faithful exactly if
    it is undisturbed, and then the maps describe the last frame again. -/
structure Agrees (rt : Runtime) (frames : Set Bytes) (s : MeterRun) (call : String × Bytes) :
    Prop where
  faithful_iff : Faithful rt s call ↔ Undisturbed rt s call
  tracks : Undisturbed rt s call → Tracks rt frames (s.step rt call).2

theorem agrees_first (present : rt.haveCv = true) (tracks : Tracks rt frames s)
    (known : frame ∈ frames)
    (first : lastFrame session s.seen = none) : Agrees rt frames s (session, frame) := by
  have hash := tracks.hash session
  have grid := tracks.grid session
  rw [first, Option.map_none] at hash
  rw [lastGrid_eq_none first] at grid
  obtain ⟨broken, decoded⟩ := RedundancyMeter.observe_new_session frame present hash grid
  cases luma : rt.luma frame with
  | none =>
    -- the hash of bytes that raised stays behind
    have disturbed : ¬Undisturbed rt s (session, frame) := by
      intro undisturbed
      have opened := undisturbed.opened
      rw [luma, first] at opened
      simp at opened
    refine ⟨iff_of_false ?_ disturbed, fun undisturbed => absurd undisturbed disturbed⟩
    intro faithful
    have kept := ((faithful_of_error (broken luma)).1 faithful).1
    rw [Dict.get?_set_self, hash] at kept
    exact Option.some_ne_none _ kept
  | some plane =>
    have seen := decoded plane luma
    have undisturbed : Undisturbed rt s (session, frame) := by
      refine ⟨.inl (by rw [luma]; rfl), ?_⟩
      intro last _ _ here
      rw [first] at here
      exact absurd here.symm (Option.some_ne_none last)
    refine ⟨iff_of_true ?_ undisturbed, fun _ => ?_⟩
    · rw [faithful_of_ok seen, first]
      exact ⟨by simp [RedundancyMeter.observation], rfl⟩
    · have own : frameGrid rt frame = patchGrid plane := by rw [frameGrid, luma]; rfl
      simp only [step, seen]
      cases gridded : patchGrid plane with
      | none =>
        refine tracks_seen tracks known rfl fun other => ?_
        rw [own, gridded, Option.none_or, ite_self]
      | some grid =>
        refine tracks_seen tracks known rfl fun other => ?_
        rw [own, gridded, Option.some_or, Dict.get?_set]

theorem agrees_duplicate (tracks : Tracks rt frames s) (known : frame ∈ frames)
    (same : lastFrame session s.seen = some frame) : Agrees rt frames s (session, frame) := by
  have hash := tracks.hash session
  rw [same, Option.map_some] at hash
  have seen := RedundancyMeter.observe_same_bytes hash
  have undisturbed : Undisturbed rt s (session, frame) := by
    refine ⟨.inr (by rw [same]; rfl), ?_⟩
    intro last _ _ here other
    rw [same] at here
    exact absurd (Option.some_inj.1 here).symm other
  refine ⟨iff_of_true ?_ undisturbed, fun _ => ?_⟩
  · rw [faithful_of_ok seen, same]
    exact ⟨by simp [RedundancyMeter.observation],
      by simp [RedundancyMeter.observation, changeSince]⟩
  · simp only [step, seen]
    refine tracks_seen tracks known rfl fun other => ?_
    by_cases own : session = other
    · -- the grid there is comes from this very frame, if it has one
      subst own
      rw [if_pos rfl, tracks.grid session]
      cases gridded : frameGrid rt frame with
      | none => rfl
      | some grid => rw [lastGrid_of_lastFrame same gridded, Option.some_or]
    · rw [if_neg own]

theorem agrees_changed (present : rt.haveCv = true) (distinct : Set.InjOn rt.sha256 frames)
    (tracks : Tracks rt frames s)
    (known : frame ∈ frames) {last : Bytes} (here : lastFrame session s.seen = some last)
    (other : last ≠ frame) :
    Agrees rt frames s (session, frame) := by
  have hash := tracks.hash session
  have grid := tracks.grid session
  rw [here, Option.map_some] at hash
  have digests : rt.sha256 last ≠ rt.sha256 frame := fun same =>
    other (distinct (tracks.known _ (lastFrame_mem here)) known same)
  obtain ⟨broken, decoded⟩ := RedundancyMeter.observe_other_bytes present hash digests
  have opened : (rt.luma frame).isSome ∨ (lastFrame session s.seen).isSome :=
    .inr (by rw [here]; rfl)
  cases luma : rt.luma frame with
  | none =>
    have undisturbed : Undisturbed rt s (session, frame) := by
      refine ⟨opened, ?_⟩
      intro _ _ grid _ _ _ gridded
      rw [frameGrid, luma] at gridded
      exact absurd gridded.symm (Option.some_ne_none grid)
    refine ⟨iff_of_true ?_ undisturbed, fun _ => ?_⟩
    · exact (faithful_of_error (broken luma)).2 ⟨rfl, rfl⟩
    · simp only [step, broken luma]
      exact tracks
  | some plane =>
    obtain ⟨tiny, large⟩ := decoded plane luma
    have own : frameGrid rt frame = patchGrid plane := by rw [frameGrid, luma]; rfl
    have notSame : ¬some last = some frame := fun same => other (Option.some_inj.1 same)
    cases gridded : patchGrid plane with
    | none =>
      have seen := tiny gridded
      rw [gridded] at own
      have undisturbed : Undisturbed rt s (session, frame) := by
        refine ⟨opened, ?_⟩
        intro _ _ grid _ _ _ gridded
        rw [own] at gridded
        exact absurd gridded.symm (Option.some_ne_none grid)
      refine ⟨iff_of_true ?_ undisturbed, fun _ => ?_⟩
      · rw [faithful_of_ok seen, here, changeSince_ungridded other (.inr own)]
        exact ⟨by simp [RedundancyMeter.observation, notSame], rfl⟩
      · simp only [step, seen]
        refine tracks_seen tracks known rfl fun other => ?_
        rw [own, Option.none_or, ite_self]
    | some cur =>
      have seen := large cur gridded
      rw [gridded] at own
      refine ⟨?_, fun _ => ?_⟩
      · rw [faithful_of_ok seen, here]
        have exact : (RedundancyMeter.observation false false
            ((s.meter.grid.get? session).elim 1 (changedFraction · cur))).exactDuplicate = true ↔
              some last = some frame :=
          iff_of_false Bool.false_ne_true notSame
        rw [and_iff_right exact]
        cases before : frameGrid rt last with
        | some prev =>
          rw [changeSince_gridded other before own]
          refine iff_of_true ?_ ⟨opened, ?_⟩
          · show (s.meter.grid.get? session).elim 1 (changedFraction · cur) = _
            rw [grid, lastGrid_of_lastFrame here before, Option.elim_some]
          · intro _ _ _ found _ ungridded
            rw [here, Option.some_inj] at found
            rw [← found, before] at ungridded
            exact absurd ungridded (Option.some_ne_none prev)
        | none =>
          rw [changeSince_ungridded other (.inl before)]
          show (s.meter.grid.get? session).elim 1 (changedFraction · cur) = 1 ↔ _
          rw [grid]
          constructor
          · intro whole
            refine ⟨opened, ?_⟩
            intro _ stale grid' _ _ _ current kept
            rw [own, Option.some_inj] at current
            rwa [kept, Option.elim_some, current] at whole
          · intro undisturbed
            cases kept : lastGrid rt session s.seen with
            | none => rfl
            | some stale => exact undisturbed.renewed last stale cur here other before own kept
      · simp only [step, seen]
        refine tracks_seen tracks known rfl fun other => ?_
        rw [own, Option.some_or, Dict.get?_set]

theorem agrees (present : rt.haveCv = true) (distinct : Set.InjOn rt.sha256 frames)
    (tracks : Tracks rt frames s)
    (known : frame ∈ frames) : Agrees rt frames s (session, frame) := by
  cases here : lastFrame session s.seen with
  | none => exact agrees_first present tracks known here
  | some last =>
    by_cases same : last = frame
    · exact agrees_duplicate tracks known (same ▸ here)
    · exact agrees_changed present distinct tracks known here same

end Step

end MeterRun

def meterRuns (rt : Runtime) : Machine MeterRun (String × Bytes) (Except Raised Observation) :=
  ⟨MeterRun.step rt⟩

/-- Every call of a run is about the frame observed before it exactly when no call disturbs the
    maps. -/
theorem meter_faithful_iff (rt : Runtime) (present : rt.haveCv = true)
    (calls : List (String × Bytes))
    (distinct : Set.InjOn rt.sha256 { frame | ∃ session, (session, frame) ∈ calls }) :
    (meterRuns rt).Meets (MeterRun.Faithful rt) {} calls ↔
      (meterRuns rt).Meets (MeterRun.Undisturbed rt) {} calls := by
  have start : MeterRun.Tracks rt { frame | ∃ session, (session, frame) ∈ calls } {} :=
    ⟨fun _ => rfl, fun _ => rfl, fun _ member => absurd member List.not_mem_nil⟩
  have known :
    (meterRuns rt).Meets (fun _ call => call.2 ∈ { frame | ∃ session, (session, frame) ∈ calls })
    {} calls :=
    Machine.meets_of_mem (fun _ call member => ⟨call.1, member⟩) _
  refine Machine.Meets.congr_while ?_ ?_ start known
  · intro s call tracks here
    exact (MeterRun.agrees present distinct tracks here).faithful_iff
  · intro s call tracks here undisturbed
    exact (MeterRun.agrees present distinct tracks here).tracks undisturbed

/-- So the meter is right about a run of frames that all have a grid. -/
theorem undisturbed_of_grids {rt : Runtime} {calls : List (String × Bytes)}
    (grids : ∀ call ∈ calls, (frameGrid rt call.2).isSome) {s : MeterRun}
    (seen : ∀ call ∈ s.seen, (frameGrid rt call.2).isSome) :
    (meterRuns rt).Meets (MeterRun.Undisturbed rt) s calls := by
  induction calls generalizing s with
  | nil => trivial
  | cons call calls ih =>
    have here := grids call List.mem_cons_self
    refine ⟨⟨.inl ?_, ?_⟩, ih (fun later member => grids later (List.mem_cons_of_mem _ member)) ?_⟩
    · rw [frameGrid] at here
      exact Option.isSome_of_isSome_bind here
    · intro last _ _ before _ ungridded
      have gridded := seen _ (lastFrame_mem before)
      rw [ungridded] at gridded
      exact absurd gridded Bool.false_ne_true
    · have kept : ((meterRuns rt).next s call).seen = call :: s.seen ∨
        ((meterRuns rt).next s call).seen = s.seen := by
        simp only [Machine.next, meterRuns, MeterRun.step]
        split
        · exact .inl rfl
        · exact .inr rfl
      intro earlier member
      rcases kept with kept | kept <;> rw [kept] at member
      · cases List.mem_cons.1 member with
        | inl same => exact same ▸ here
        | inr before => exact seen earlier before
      · exact seen earlier member

/-! A screen of one patch, black or white, a frame of one pixel, and bytes that do not decode. -/

def screens : Runtime where
  sha256
    | [0] => "black"
    | [1] => "white"
    | [2] => "pixel"
    | _ => "broken"
  str _ := ""
  imageSize _ := none
  luma
    | [0] => some (NDArray.full [28, 28] 0)
    | [1] => some (NDArray.full [28, 28] 255)
    | [2] => some (NDArray.full [1, 1] 0)
    | _ => none
  haveCv := true

theorem meter_faithful_repaint :
    (meterRuns screens).Meets (MeterRun.Faithful screens) {}
    [("s", [0]), ("s", [1]), ("s", [1])] := by
  refine (meter_faithful_iff screens rfl _ ?_).2
    (undisturbed_of_grids (by decide +kernel) (by simp))
  rintro frame ⟨session, member⟩ frame' ⟨session', member'⟩ same
  simp only [List.mem_cons, Prod.mk.injEq, List.not_mem_nil, or_false] at member member'
  rcases member with ⟨-, rfl⟩ | ⟨-, rfl⟩ | ⟨-, rfl⟩ <;> rcases member' with ⟨-, rfl⟩ | ⟨-,
    rfl⟩ | ⟨-, rfl⟩ <;> revert same <;>
    decide

theorem changedFraction_self (grid : NDArray ℚ) : changedFraction grid grid = 0 := by
  simp [changedFraction, thresh]

/-- The frame of one pixel leaves the grid of the screen before it. -/
theorem screen_after_pixel :
    (((meterRuns screens).exec {} [("s", [0]), ("s", [2])]).meter.observe screens "s" [0]).1 =
      .ok (RedundancyMeter.observation false false 0) := by
  have isGrid : (patchGrid (NDArray.full [28, 28] 0)).isSome := by decide +kernel
  obtain ⟨grid, gridded⟩ := Option.isSome_iff_exists.1 isGrid
  have hash : ((meterRuns screens).exec {} [("s", [0]), ("s", [2])]).meter.hash.get? "s" =
    some "pixel" := rfl
  have stale : ((meterRuns screens).exec {} [("s", [0]), ("s", [2])]).meter.grid.get? "s" =
    some grid := gridded
  have other : "pixel" ≠ screens.sha256 [0] := by decide
  have seen := ((RedundancyMeter.observe_other_bytes rfl hash other).2 _ rfl).2 grid gridded
  rw [seen, stale, Option.elim_some, changedFraction_self]

/-- Bytes that raise as the first frame of a session are a duplicate when they are sent again; a
    screen that follows a frame of one pixel is compared with the screen before that. -/
theorem meter_not_faithful :
    (((meterRuns screens).trace {} [("s", []), ("s", [])]).map
      fun p => p.2.toOption.map (·.exactDuplicate)) =
        [none, some true] ∧
      (((meterRuns screens).exec {} [("s", [0]), ("s", [2])]).meter.observe screens "s" [0]).1 =
        .ok (RedundancyMeter.observation false false 0) ∧
      ¬∀ calls, (meterRuns screens).Meets (MeterRun.Faithful screens) {} calls := by
  refine ⟨by decide +kernel, screen_after_pixel, ?_⟩
  intro all
  have faithful := (all [("s", [])]).1
  have raised : RedundancyMeter.observe screens {} "s" [] =
      (.error .unidentifiedImage, ⟨Dict.empty.set "s" "broken", Dict.empty⟩) := rfl
  have kept := ((MeterRun.faithful_of_error raised).1 faithful).1
  rw [Dict.get?_set_self] at kept
  exact Option.some_ne_none _ kept

end Dexa.Platform
