import Mathlib.Algebra.Group.Even
import Mathlib.Data.ZMod.Basic
import Dexa.Lib.Rotations
import Dexa.Segments.Selective

/-! # Re-phasing is the rotation at the shifted position

A rotary embedding turns channel `i` of a head together with channel `i + d / 2`, by an angle that
is the token's position times a frequency of the pair.  What `rope_rephase_keys` computes from
duplicated tables and two concatenated halves is that turn, so its laws are those of turning.
-/

namespace Dexa.Segments

open Dexa.Lib

variable {θ α : Type} [AddCommGroup θ] [CommRing α] (angles : AngleAddition θ α)

/-- The channels a rotation turns together. -/
def channelPair (keys : NDArray α) (half h i c : Nat) : α × α :=
  (keys.getD [h, i, c] 0, keys.getD [h, i, half + c] 0)

/-- Every pair of channels of every head and token turned by the angle of its token and pair. -/
def turnKeys (angle : Nat → Nat → θ) (keys : NDArray α) : NDArray α :=
  let half := keys.shape.getD 2 0 / 2
  NDArray.ofFn keys.shape fun
    | [h, i, c] =>
      if c < half then (angles.turn (angle i c) (channelPair keys half h i c)).1
      else (angles.turn (angle i (c - half)) (channelPair keys half h i (c - half))).2
    | _ => 0

/-- `RoPE(k, p)`: keys as they are cached when token `i` stands at `position i`. -/
def rope (frequency : Nat → θ) (position : Nat → Int) (keys : NDArray α) : NDArray α :=
  turnKeys angles (fun i c => position i • frequency c) keys

/-- `rephase_cos_sin`: the angles of a position delta, duplicated across the two halves. -/
def ropeTables (frequency : Nat → θ) (headDim : Nat) (delta : Int) : List α × List α :=
  let freqs := (List.range (headDim / 2)).map fun c => delta • frequency c
  let emb := freqs ++ freqs
  (emb.map angles.cos, emb.map angles.sin)

section Turning

variable {keys : NDArray α} {m t d : Nat}

theorem shape_turnKeys (angle : Nat → Nat → θ) (keys : NDArray α) :
    (turnKeys angles angle keys).shape = keys.shape := rfl

theorem getD_turnKeys {h i c half : Nat} (angle : Nat → Nat → θ)
    (hshape : keys.shape = [m, t, half + half]) (hh : h < m)
    (hi : i < t) (hc : c < half + half) :
    (turnKeys angles angle keys).getD [h, i, c] 0 =
      if c < half then (angles.turn (angle i c) (channelPair keys half h i c)).1
      else (angles.turn (angle i (c - half)) (channelPair keys half h i (c - half))).2 := by
  have inside : NDArray.InBounds keys.shape [h, i, c] := by simp [hshape, hh, hi, hc]
  have middle : keys.shape.getD 2 0 / 2 = half := by
    rw [hshape]
    show (half + half) / 2 = half
    omega
  apply NDArray.getD_of_get?
  rw [turnKeys, NDArray.get?_ofFn_inBounds _ inside]
  simp only [middle]

/-- Turned keys, read pair by pair. -/
theorem channelPair_turnKeys {h i c half : Nat} (angle : Nat → Nat → θ)
    (hshape : keys.shape = [m, t, half + half])
    (hh : h < m) (hi : i < t) (hc : c < half) :
    channelPair (turnKeys angles angle keys) half h i c = angles.turn (angle i c)
      (channelPair keys half h i c) := by
  rw [channelPair, getD_turnKeys angles angle hshape hh hi (by omega),
    getD_turnKeys angles angle hshape hh hi (by omega),
    if_pos hc, if_neg (by omega), Nat.add_sub_cancel_left]

/-- Arrays of one shape with the same pairs of channels are equal. -/
theorem ext_channelPair {a b : NDArray α} (hd : Even d) (ha : a.shape = [m, t, d])
    (hb : b.shape = [m, t, d])
    (pairs : ∀ h < m, ∀ i < t, ∀ c < d / 2,
      channelPair a (d / 2) h i c = channelPair b (d / 2) h i c) : a = b := by
  apply NDArray.ext_get? (ha.trans hb.symm)
  intro ix inside
  rw [← NDArray.some_getD 0 inside, ← NDArray.some_getD 0 (by rwa [hb, ← ha])]
  rw [ha] at inside
  obtain ⟨half, rfl⟩ := hd
  have middle : (half + half) / 2 = half := by omega
  match ix, inside with
  | [h, i, c], ⟨hh, hi, hc, _⟩ =>
    rw [middle] at pairs
    by_cases first : c < half
    · exact congrArg some (congrArg Prod.fst (pairs h hh i hi c first))
    · -- a channel of the second half is the partner of one of the first
      have second := congrArg Prod.snd (pairs h hh i hi (c - half) (by omega))
      simp only [channelPair, Nat.add_sub_cancel' (Nat.le_of_not_lt first)] at second
      rw [second]

theorem turnKeys_zero (hd : Even d) (hshape : keys.shape = [m, t, d]) :
    turnKeys angles (fun _ _ => 0) keys = keys := by
  have same : (turnKeys angles (fun _ _ => 0) keys).shape = [m, t, d] := hshape
  apply ext_channelPair hd same hshape
  intro h hh i hi c hc
  obtain ⟨half, rfl⟩ := hd
  have middle : (half + half) / 2 = half := by omega
  rw [middle] at hc ⊢
  rw [channelPair_turnKeys angles _ hshape hh hi hc, angles.turn_zero]

theorem turnKeys_turnKeys (angle angle' : Nat → Nat → θ) (hd : Even d)
    (hshape : keys.shape = [m, t, d]) :
    turnKeys angles angle (turnKeys angles angle' keys) = turnKeys angles
      (fun i c => angle i c + angle' i c) keys := by
  have twice : (turnKeys angles angle (turnKeys angles angle' keys)).shape = [m, t, d] := hshape
  have once : (turnKeys angles (fun i c => angle i c + angle' i c) keys).shape = [m, t, d] := hshape
  apply ext_channelPair hd twice once
  intro h hh i hi c hc
  obtain ⟨half, rfl⟩ := hd
  have middle : (half + half) / 2 = half := by omega
  rw [middle] at hc ⊢
  rw [channelPair_turnKeys angles _ ((shape_turnKeys angles _ _).trans hshape) hh hi hc,
    channelPair_turnKeys angles _ hshape hh hi hc, channelPair_turnKeys angles _ hshape hh hi hc,
      angles.turn_add]

end Turning

variable (frequency : Nat → θ)

/-- Both halves of a table hold the pair's value. -/
theorem getD_ropeTables {half c : Nat} (delta : Int) (hc : c < half) :
    (ropeTables angles frequency (half + half) delta).1.getD c 0 = angles.cos
      (delta • frequency c) ∧
      (ropeTables angles frequency (half + half) delta).1.getD (half + c) 0 = angles.cos
        (delta • frequency c) ∧
      (ropeTables angles frequency (half + half) delta).2.getD c 0 = angles.sin
        (delta • frequency c) ∧
      (ropeTables angles frequency (half + half) delta).2.getD (half + c) 0 = angles.sin
        (delta • frequency c) := by
  have middle : (half + half) / 2 = half := by omega
  let freqs := (List.range half).map fun c => delta • frequency c
  have length : freqs.length = half := by simp [freqs]
  have entry : freqs[c]? = some (delta • frequency c) := by
    rw [List.getElem?_map, List.getElem?_range hc]; rfl
  have low : (freqs ++ freqs)[c]? = some (delta • frequency c) := by
    rw [List.getElem?_append_left (length ▸ hc), entry]
  have high : (freqs ++ freqs)[half + c]? = some (delta • frequency c) := by
    rw [List.getElem?_append_right (by omega), length, Nat.add_sub_cancel_left, entry]
  rw [ropeTables, middle]
  simp only [List.getD_eq_getElem?_getD, List.getElem?_map]
  exact ⟨by rw [low]; rfl, by rw [high]; rfl, by rw [low]; rfl, by rw [high]; rfl⟩

section Arrays

variable {keys : NDArray α} {m t d : Nat}

/-- Re-phasing by the tables of a delta turns every pair by that many steps of its frequency. -/
theorem ropeRephaseKeys_eq_turnKeys (delta : Int) (hd : Even d) (hshape : keys.shape = [m, t, d]) :
    ropeRephaseKeys id keys (ropeTables angles frequency d delta).1
      (ropeTables angles frequency d delta).2 =
      turnKeys angles (fun _ c => delta • frequency c) keys := by
  have computed (cos sin : List α) : (ropeRephaseKeys id keys cos sin).shape = [m, t, d] := hshape
  have turned : (turnKeys angles (fun _ c => delta • frequency c) keys).shape = [m, t, d] := hshape
  apply ext_channelPair hd (computed _ _) turned
  intro h hh i hi c hc
  obtain ⟨half, rfl⟩ := hd
  have middle : (half + half) / 2 = half := by omega
  rw [middle] at hc ⊢
  rw [channelPair_turnKeys angles _ hshape hh hi hc]
  obtain ⟨cosLow, cosHigh, sinLow, sinHigh⟩ := getD_ropeTables angles frequency delta hc
  have low : NDArray.InBounds [m, t, half + half] [h, i, c] := ⟨hh, hi, by omega, trivial⟩
  have high : NDArray.InBounds [m, t, half + half] [h, i, half + c] := ⟨hh, hi, by omega, trivial⟩
  -- the two halves swap, and the one that comes first is negated
  have rotatedLow : (rotateHalf keys).getD [h, i, c] 0 = -keys.getD [h, i, half + c] 0 := by
    apply NDArray.getD_of_get?
    simp only [rotateHalf, hshape]
    rw [NDArray.get?_ofFn_inBounds _ low]
    simp only [middle, Nat.add_sub_cancel, if_pos hc]
  have rotatedHigh : (rotateHalf keys).getD [h, i, half + c] 0 = keys.getD [h, i, c] 0 := by
    apply NDArray.getD_of_get?
    simp only [rotateHalf, hshape]
    rw [NDArray.get?_ofFn_inBounds _ high]
    simp only [middle, Nat.add_sub_cancel, if_neg (show ¬half + c < half by omega),
      Nat.add_sub_cancel_left]
  have cell (j : Nat) (inside : NDArray.InBounds [m, t, half + half] [h, i, j]) (cos sin : List α) :
      (ropeRephaseKeys id keys cos sin).getD [h, i, j] 0 =
        keys.getD [h, i, j] 0 * cos.getD j 0 + (rotateHalf keys).getD [h, i,
          j] 0 * sin.getD j 0 := by
    apply NDArray.getD_of_get?
    rw [ropeRephaseKeys, NDArray.get?_ofFn_inBounds _ (hshape ▸ inside)]
    rfl
  rw [channelPair, cell c low, cell (half + c) high, cosLow, cosHigh, sinLow, sinHigh,
    rotatedLow, rotatedHigh,
    AngleAddition.turn, channelPair, neg_mul, ← sub_eq_add_neg]

/-- One position for all tokens: re-phasing by it is what a forward pass applies to the raw keys. -/
theorem ropeRephaseKeys_eq_rope (position : Int) (hd : Even d) (hshape : keys.shape = [m, t, d]) :
    ropeRephaseKeys id keys (ropeTables angles frequency d position).1
      (ropeTables angles frequency d position).2 =
      rope angles frequency (fun _ => position) keys :=
  ropeRephaseKeys_eq_turnKeys angles frequency position hd hshape

/-- Angles in quarter turns. -/
def quarterTurns : AngleAddition (ZMod 4) Int where
  cos := ![1, 0, -1, 0]
  sin := ![0, 1, 0, -1]
  cos_zero := rfl
  sin_zero := rfl
  cos_add := by decide
  sin_add := by decide

/-- Re-phasing cached keys by a delta gives the keys of the shifted positions; so deltas add, and a
    delta and its opposite cancel. -/
theorem ropeRephaseKeys_shifts (hd : Even d) (hshape : keys.shape = [m, t, d]) :
    let rephase (delta : Int) (cached : NDArray α) :=
      ropeRephaseKeys id cached (ropeTables angles frequency d delta).1
        (ropeTables angles frequency d delta).2
    (∀ (position : Nat → Int) (delta : Int),
      rephase delta (rope angles frequency position keys) = rope angles frequency
        (fun i => position i + delta) keys) ∧
    (∀ delta delta' : Int, rephase delta (rephase delta' keys) = rephase (delta + delta') keys) ∧
    ∀ delta : Int, rephase (-delta) (rephase delta keys) = keys := by
  intro rephase
  have turned (delta : Int) {cached : NDArray α} (same : cached.shape = [m, t, d]) :
      rephase delta cached = turnKeys angles (fun _ c => delta • frequency c) cached :=
    ropeRephaseKeys_eq_turnKeys angles frequency delta hd same
  have composed (delta delta' : Int) :
    rephase delta (rephase delta' keys) = rephase (delta + delta') keys := by
    have same : (rephase delta' keys).shape = [m, t, d] := hshape
    rw [turned delta same, turned delta' hshape, turned _ hshape,
      turnKeys_turnKeys angles _ _ hd hshape]
    simp only [add_smul]
  refine ⟨?_, composed, ?_⟩
  · intro position delta
    have same : (rope angles frequency position keys).shape = [m, t, d] := hshape
    rw [turned delta same, rope, turnKeys_turnKeys angles _ _ hd hshape, rope]
    simp only [add_smul, add_comm]
  · intro delta
    rw [composed, neg_add_cancel, turned 0 hshape]
    simp only [zero_smul]
    exact turnKeys_zero angles hd hshape

theorem ropeRephaseKeys_shifts_pair :
    let raw : NDArray Int := ⟨[1, 1, 2], [3, 5], rfl⟩
    let rephase (delta : Int) (cached : NDArray Int) :=
      ropeRephaseKeys id cached (ropeTables quarterTurns (fun _ => 1) 2 delta).1
        (ropeTables quarterTurns (fun _ => 1) 2 delta).2
    let radians : NDArray ℝ := ⟨[1, 1, 2], [3, 5], rfl⟩
    let tables := ropeTables AngleAddition.real (fun _ => 1) 2 (-3)
    (rephase 1 raw).data = [-5, 3] ∧ rephase (-1) (rephase 1 raw) = raw ∧
      ropeRephaseKeys id
        (rope AngleAddition.real (fun _ => 1) (fun _ => 4) radians) tables.1 tables.2 =
        rope AngleAddition.real (fun _ => 1) (fun _ => 4 + -3) radians := by
  intro raw rephase radians tables
  have pair : raw.shape = [1, 1, 2] := rfl
  have pair' : radians.shape = [1, 1, 2] := rfl
  obtain ⟨_, _, back⟩ := ropeRephaseKeys_shifts quarterTurns (fun _ => 1) (by decide) pair
  obtain ⟨shifted, _⟩ := ropeRephaseKeys_shifts AngleAddition.real (fun _ => 1) (by decide) pair'
  exact ⟨by decide, back 1, shifted (fun _ => 4) (-3)⟩

end Arrays

end Dexa.Segments
