import Dexa.Session.Blob
import Mathlib.Data.Nat.Bitwise

/-! # The native codec (`native/kvcodec/src/lib.rs`)

The optional extension packs the layers and writes the file in one call; its contract is that the
bytes are those of the numpy path (`writeBlob`, at any alignment).  The framing and the single and
`bfloat16` elements are.  The half conversion flushes small values to zero and has no case for
NaN, so the files agree exactly where no element is one of these (`FlushSafe`).
-/

namespace Dexa.Session

open Dexa.Core Dexa.Engine Dexa.Lib

namespace Kvcodec

/-- The sum is taken in 64 bits. -/
def f32ToBf16Bits (x : BitVec 32) : BitVec 16 :=
  let bias := ((x >>> 16) &&& 1#32) + 0x7fff#32
  ((x.setWidth 64 + bias.setWidth 64) >>> 16).setWidth 16

def halfFromF32 (x : BitVec 32) : BitVec 16 :=
  let sign := ((x >>> 16) &&& 0x8000#32).setWidth 16
  let exp : Int := ((x >>> 23) &&& 0xff#32).toNat - 127 + 15
  let mant := x &&& 0x7fffff#32
  -- subnormal/underflow -> flush toward zero
  if exp ≤ 0 then sign
  -- inf/overflow
  else if 0x1f ≤ exp then sign ||| 0x7c00#16
  else
    let mant10 := (mant >>> 13).setWidth 16
    let round := mant &&& 0x1000#32 ≠ 0#32 ∧ (mant &&& 0x0fff#32 ≠ 0#32 ∨ mant10 &&& 1#16 ≠ 0#16)
    let out := sign ||| BitVec.ofInt 16 exp <<< 10 ||| mant10
    -- the carry into the exponent is left to the addition
    if round then out + 1#16 else out

def elemSize (storeDtype : String) : Option Nat :=
  match storeDtype with
  | "float32" => some 4
  | "float16" | "bfloat16" => some 2
  | _ => none

/-- `pack_into`, the bytes of one slab. -/
def packInto (src : List (BitVec 32)) (storeDtype : String) : Option (List UInt8) :=
  match storeDtype with
  | "float32" => some (writeWords (k := 4) src)
  | "float16" => some (writeWords (k := 2) (src.map halfFromF32))
  | "bfloat16" => some (writeWords (k := 2) (src.map f32ToBf16Bits))
  -- validated by elem_size
  | _ => none

/-- `save_blob`, the bytes of the file. -/
def saveBlob (magic header : List UInt8) (storeDtype : String)
    (keys values : List (List (BitVec 32))) (align : Nat) :
    Option (List UInt8) := do
  let _ ← elemSize storeDtype
  let slabs := keys ++ values
  let payload := (← slabs.mapM fun s => packInto s storeDtype).flatten
  -- a slice has a `usize` length, and `written % 0` panics
  if 256 ^ 8 ≤ header.length ∨ align = 0 then none
  else
    let written := magic ++ littleEndian 8 header.length ++ header
    let pad := (align - written.length % align) % align
    return written ++ List.replicate pad 0 ++ payload

end Kvcodec

/-- The numpy path of `save_kvcache_blob`, for an alignment and a header. -/
def writeBlob (align : Nat) (hdr : List UInt8) (dtype : StoreDtype)
    (layers : List (LayerKV Scalar)) : Option (List UInt8) :=
  if 256 ^ 8 ≤ hdr.length ∨ align = 0 then none
  else
    let front := magic ++ littleEndian 8 hdr.length ++ hdr
    some (front ++ List.replicate (-(front.length : Int) % align).toNat 0 ++
      layers.flatMap (fun l => writeWords (l.key.map (encode dtype)).data) ++
      layers.flatMap fun l => writeWords (l.value.map (encode dtype)).data)

theorem saveKVCacheBlob_eq (precision : String) (kv : KVCache Scalar) :
    saveKVCacheBlob precision kv = (resolvePrecision precision kv.spec.dtype).bind
      fun dtype => kv.layers.head?.bind fun first =>
      writeBlob align
        (utf8Encode (JsonValue.dict (header dtype first.key.shape kv)).dumps) dtype kv.layers := by
  have aligned : align ≠ 0 := by decide
  simp only [writeBlob, aligned, or_false]
  rfl

/-! ## Elements -/

/-- The bits that a sum has beyond 32 are cut off with those beyond 16. -/
theorem cut_sum (x y : BitVec 32) : ((x.setWidth 64 + y.setWidth 64) >>> 16).setWidth 16 = ((x + y) >>> 16).setWidth 16 := by
  have left := x.isLt
  have right := y.isLt
  have cut : (x.toNat + y.toNat) / 2 ^ 16 % 2 ^ 16 = (x.toNat + y.toNat) % 2 ^ 32 / 2 ^ 16 % 2 ^ 16 := by omega
  have wide : (x.toNat + y.toNat) % 2 ^ 64 = x.toNat + y.toNat := by omega
  apply BitVec.eq_of_toNat_eq
  simp only [BitVec.toNat_setWidth, BitVec.toNat_ushiftRight, BitVec.toNat_add, Nat.shiftRight_eq_div_pow]
  rw [Nat.mod_eq_of_lt (show x.toNat < 2 ^ 64 by omega), Nat.mod_eq_of_lt (show y.toNat < 2 ^ 64 by omega), wide, cut]

theorem f32ToBf16Bits_eq (x : BitVec 32) : Kvcodec.f32ToBf16Bits x = floatToBf16 x := cut_sum x _

section Half

/-- One bit of a number, in place. -/
theorem and_bit (n i : Nat) : n &&& 2 ^ i = n / 2 ^ i % 2 * 2 ^ i := by
  rw [Nat.and_two_pow, Nat.toNat_testBit]

variable (u : BitVec 32)

theorem sign_bits : (((u >>> 16) &&& 0x8000#32).setWidth 16).toNat = signOf u * 2 ^ 15 := by
  have range := u.isLt
  rw [BitVec.toNat_setWidth, BitVec.toNat_and, BitVec.toNat_ushiftRight, Nat.shiftRight_eq_div_pow]
  show (u.toNat / 2 ^ 16 &&& 2 ^ 15) % 2 ^ 16 = _
  rw [and_bit, signOf]
  omega

theorem exponent_bits : ((u >>> 23) &&& 0xff#32).toNat = exponentOf u := by
  rw [BitVec.toNat_and, BitVec.toNat_ushiftRight, Nat.shiftRight_eq_div_pow]
  exact Nat.and_two_pow_sub_one_eq_mod _ 8

theorem mantissa_bits : (u &&& 0x7fffff#32).toNat = mantissaOf u := by
  rw [BitVec.toNat_and]
  exact Nat.and_two_pow_sub_one_eq_mod _ 23

/-- The rounding condition on the mantissa's bits. -/
theorem round_bits :
    (((u &&& 0x7fffff#32) &&& 0x1000#32 ≠ 0#32 ∧ ((u &&& 0x7fffff#32) &&& 0x0fff#32 ≠ 0#32 ∨
      ((u &&& 0x7fffff#32) >>> 13).setWidth 16 &&& 1#16 ≠ 0#16)) ↔
    2 ^ 13 < 2 * (mantissaOf u % 2 ^ 13) ∨ 2 ^ 13 = 2 * (mantissaOf u % 2 ^ 13) ∧
      mantissaOf u / 2 ^ 13 % 2 = 1) := by
  have small : mantissaOf u < 2 ^ 23 := Nat.mod_lt _ (by omega)
  have half : (u &&& 0x7fffff#32) &&& 0x1000#32 ≠ 0#32 ↔ mantissaOf u / 2 ^ 12 % 2 = 1 := by
    rw [ne_eq, ← BitVec.toNat_inj, BitVec.toNat_and, mantissa_bits]
    show ¬ mantissaOf u &&& 2 ^ 12 = 0 ↔ _
    rw [and_bit]
    omega
  have low : (u &&& 0x7fffff#32) &&& 0x0fff#32 ≠ 0#32 ↔ mantissaOf u % 2 ^ 12 ≠ 0 := by
    rw [ne_eq, ← BitVec.toNat_inj, BitVec.toNat_and, mantissa_bits]
    exact not_congr (Eq.congr_left (Nat.and_two_pow_sub_one_eq_mod _ 12))
  have odd : ((u &&& 0x7fffff#32) >>> 13).setWidth 16 &&& 1#16 ≠ 0#16 ↔
    mantissaOf u / 2 ^ 13 % 2 = 1 := by
    rw [ne_eq, ← BitVec.toNat_inj, BitVec.toNat_and, BitVec.toNat_setWidth,
      BitVec.toNat_ushiftRight, mantissa_bits,
      Nat.shiftRight_eq_div_pow, Nat.mod_eq_of_lt (by omega)]
    show ¬ mantissaOf u / 2 ^ 13 &&& 2 ^ 1 - 1 = 0 ↔ _
    rw [Nat.and_two_pow_sub_one_eq_mod]
    omega
  rw [half, low, odd]
  omega

/-- What the extension makes of exponent and mantissa. -/
def flushedMagnitude (exponent mantissa : Nat) : Nat :=
  if exponent ≤ 112 then 0
  else if 143 ≤ exponent then 31 * 2 ^ 10
  else (exponent - 112) * 2 ^ 10 + roundShift mantissa 13

theorem toNat_halfFromF32 :
    (Kvcodec.halfFromF32 u).toNat = signOf u * 2 ^ 15 + flushedMagnitude (exponentOf u)
    (mantissaOf u) := by
  have sign : signOf u < 2 := by
    have range := u.isLt
    rw [signOf]
    omega
  have small : mantissaOf u < 2 ^ 23 := Nat.mod_lt _ (by omega)
  have ten : (((u &&& 0x7fffff#32) >>> 13).setWidth 16).toNat = mantissaOf u / 2 ^ 13 := by
    rw [BitVec.toNat_setWidth, BitVec.toNat_ushiftRight, mantissa_bits, Nat.shiftRight_eq_div_pow,
      Nat.mod_eq_of_lt (by omega)]
  rw [Kvcodec.halfFromF32, flushedMagnitude]
  simp only [exponent_bits]
  by_cases flushed : exponentOf u ≤ 112
  · rw [if_pos (by omega), if_pos flushed, sign_bits, Nat.add_zero]
  · rw [if_neg (by omega), if_neg flushed]
    by_cases large : 143 ≤ exponentOf u
    · rw [if_pos (by omega), if_pos large, BitVec.toNat_or, sign_bits, Nat.mul_comm]
      exact (Nat.two_pow_add_eq_or_of_lt (by decide) _).symm
    · rw [if_neg (by omega), if_neg large]
      -- the re-biased exponent is positive and has five bits
      have exponent : (BitVec.ofInt 16 ((exponentOf u : Int) - 127 + 15) <<< 10).toNat =
        2 ^ 10 * (exponentOf u - 112) := by
        rw [BitVec.toNat_shiftLeft, BitVec.toNat_ofInt, Nat.shiftLeft_eq]
        omega
      -- the three fields do not overlap, so `|` adds them
      have out :
        (((u >>> 16) &&& 0x8000#32).setWidth 16 ||| BitVec.ofInt 16
        ((exponentOf u : Int) - 127 + 15) <<< 10 |||
          ((u &&& 0x7fffff#32) >>> 13).setWidth 16).toNat =
            signOf u * 2 ^ 15 + ((exponentOf u - 112) * 2 ^ 10 + mantissaOf u / 2 ^ 13) := by
        rw [BitVec.toNat_or, BitVec.toNat_or, sign_bits, exponent, ten, Nat.or_assoc,
          ← Nat.two_pow_add_eq_or_of_lt (show mantissaOf u / 2 ^ 13 < 2 ^ 10 by omega),
            Nat.mul_comm (signOf u),
          ← Nat.two_pow_add_eq_or_of_lt (by omega)]
        omega
      simp only [round_bits, roundShift]
      split
      -- a carry out of the mantissa steps the exponent
      · rw [BitVec.toNat_add, out]
        show (_ + 1) % 2 ^ 16 = _
        omega
      · exact out

end Half

/-- The element is neither NaN nor strictly between `2^-25` and `2^-14`: the bits below the sign,
    read as a number, grow with the magnitude. -/
def FlushSafe (u : BitVec 32) : Prop :=
  u.toNat % 2 ^ 31 ≤ 0x33000000 ∨ 0x38800000 ≤ u.toNat % 2 ^ 31 ∧ u.toNat % 2 ^ 31 ≤ 0x7F800000

instance : DecidablePred FlushSafe := fun _ => instDecidableOr

theorem flushedMagnitude_eq_iff {exponent mantissa : Nat} (he : exponent < 2 ^ 8)
    (hm : mantissa < 2 ^ 23) :
    flushedMagnitude exponent mantissa = halfMagnitude exponent mantissa ↔
      exponent * 2 ^ 23 + mantissa ≤ 0x33000000 ∨
        0x38800000 ≤ exponent * 2 ^ 23 + mantissa ∧ exponent * 2 ^ 23 + mantissa ≤ 0x7F800000 := by
  rw [flushedMagnitude, halfMagnitude]
  split_ifs with flushed special zero <;> try omega
  case pos subnormal =>
    -- a subnormal single is far below the least half
    rw [eq_comm, roundShift_eq_zero]
    have := Nat.pow_le_pow_right (show 0 < 2 by omega) (show 24 ≤ 125 by omega)
    omega
  -- below the least normal half the extension writes zero: the cast does too up to the tie at
  -- `2^-25`
  case neg normal =>
    rw [eq_comm, roundShift_eq_zero]
    by_cases least : exponent ≤ 101
    -- less than half of the least subnormal
    · have := Nat.pow_le_pow_right (show 0 < 2 by omega) (show 25 ≤ 126 - exponent by omega)
      omega
    · by_cases tie : exponent = 102
      · subst tie
        omega
      · have := Nat.pow_le_pow_right (show 0 < 2 by omega) (show 126 - exponent ≤ 23 by omega)
        omega

theorem halfFromF32_eq_iff (u : BitVec 32) : Kvcodec.halfFromF32 u = floatToHalf u ↔
    FlushSafe u := by
  have range := u.isLt
  have he : exponentOf u < 2 ^ 8 := Nat.mod_lt _ (by omega)
  have hm : mantissaOf u < 2 ^ 23 := Nat.mod_lt _ (by omega)
  have fields : u.toNat % 2 ^ 31 = exponentOf u * 2 ^ 23 + mantissaOf u := by
    rw [exponentOf, mantissaOf]
    omega
  have bound := halfMagnitude_lt he hm
  have sign : signOf u < 2 := by
    rw [signOf]
    omega
  rw [FlushSafe, fields, ← flushedMagnitude_eq_iff he hm, ← BitVec.toNat_inj, toNat_halfFromF32,
    floatToHalf, BitVec.toNat_ofNat,
    Nat.mod_eq_of_lt (by omega)]
  omega

/-! ## The file -/

/-- The extension's conversion of one element. -/
def pack : (dtype : StoreDtype) → BitVec 32 → Stored dtype
  | .float32, u => u
  | .float16, u => Kvcodec.halfFromF32 u
  | .bfloat16, u => Kvcodec.f32ToBf16Bits u

theorem pack_eq_iff (dtype : StoreDtype) (u : BitVec 32) :
    pack dtype u = encode dtype (.float32 u) ↔ (dtype = .float16 → FlushSafe u) := by
  cases dtype with
  | float32 =>
    apply iff_of_true rfl
    intro other
    cases other
  | float16 =>
    rw [← halfFromF32_eq_iff]
    exact ⟨fun same _ => same, fun same => same rfl⟩
  | bfloat16 =>
    apply iff_of_true (f32ToBf16Bits_eq u)
    intro other
    cases other

theorem packInto_tag (dtype : StoreDtype) (src : List (BitVec 32)) :
    Kvcodec.packInto src dtype.tag = some (writeWords (src.map (pack dtype))) := by
  cases dtype with
  | float32 => exact congrArg (fun xs => some (writeWords (k := 4) xs)) src.map_id.symm
  | float16 => rfl
  | bfloat16 => rfl

theorem elemSize_tag (dtype : StoreDtype) : Kvcodec.elemSize dtype.tag = some (itemsize dtype) := by
  cases dtype <;> rfl

/-- The distance to the next boundary, with and without negative numbers. -/
theorem pad_eq {align : Nat} (positive : 0 < align) (n : Nat) :
    (align - n % align) % align = (-(n : Int) % align).toNat := by
  have below := Nat.mod_lt n positive
  have divided : -(n : Int) = (align - n % align : Nat) + align * (-(n / align : Nat) - 1) := by
    have split : (n : Int) = align * (n / align : Nat) + (n % align : Nat) := by
      exact_mod_cast (Nat.div_add_mod n align).symm
    rw [Nat.cast_sub below.le, mul_sub, mul_neg, mul_one]
    omega
  rw [divided, Int.add_mul_emod_self_left, ← Int.natCast_emod, Int.toNat_natCast]

/-- The elements in the order of the file. -/
def elements (layers : List (LayerKV (BitVec 32))) : List (BitVec 32) :=
  layers.flatMap (·.key.data) ++ layers.flatMap (·.value.data)

theorem mem_elements {layers : List (LayerKV (BitVec 32))} {u : BitVec 32} :
    u ∈ elements layers ↔ ∃ l ∈ layers, u ∈ l.key.data ++ l.value.data := by
  simp only [elements, List.mem_append, List.mem_flatMap]
  constructor
  · rintro (⟨l, hl, hu⟩ | ⟨l, hl, hu⟩)
    · exact ⟨l, hl, .inl hu⟩
    · exact ⟨l, hl, .inr hu⟩
  · rintro ⟨l, hl, hu | hu⟩
    · exact .inl ⟨l, hl, hu⟩
    · exact .inr ⟨l, hl, hu⟩

/-- Slabs packed one by one are their elements packed at once. -/
theorem flatMap_writeWords {α : Type} {k : Nat} (data : α → List (BitVec 32))
    (f : BitVec 32 → BitVec (8 * k)) (slabs : List α) :
    slabs.flatMap (fun s => writeWords ((data s).map f)) = writeWords
      ((slabs.flatMap data).map f) := by
  induction slabs with
  | nil => rfl
  | cons s slabs ih => rw [List.flatMap_cons, List.flatMap_cons, List.map_append, writeWords_append,
      ih]

theorem writeWords_inj {k : Nat} {xs ys : List (BitVec (8 * k))} (same : xs.length = ys.length) :
    writeWords xs = writeWords ys ↔ xs = ys := by
  refine ⟨fun bytes => ?_, congrArg _⟩
  have left := readWords_writeWords xs []
  rw [bytes, same, readWords_writeWords] at left
  exact left.symm

section Files

variable (hdr : List UInt8) (dtype : StoreDtype) (layers : List (LayerKV (BitVec 32))) (align : Nat)

/-- The file around a payload. -/
def framed (payload : List UInt8) : Option (List UInt8) :=
  if 256 ^ 8 ≤ hdr.length ∨ align = 0 then none
  else
    let front := magic ++ littleEndian 8 hdr.length ++ hdr
    some (front ++ List.replicate (-(front.length : Int) % align).toNat 0 ++ payload)

theorem saveBlob_eq :
    Kvcodec.saveBlob magic hdr dtype.tag (layers.map (·.key.data))
      (layers.map (·.value.data)) align =
      framed hdr align (writeWords ((elements layers).map (pack dtype))) := by
  have packed : (layers.map (·.key.data) ++ layers.map (·.value.data)).mapM
    (fun s => Kvcodec.packInto s dtype.tag) =
      some ((layers.map (·.key.data) ++ layers.map (·.value.data)).map
        fun s => writeWords (s.map (pack dtype))) := by
    simp only [packInto_tag]
    exact List.mapM_pure
  have payload :
    ((layers.map (·.key.data) ++ layers.map (·.value.data)).map
    fun s => writeWords (s.map (pack dtype))).flatten =
      writeWords ((elements layers).map (pack dtype)) := by
    rw [← List.flatMap_def]
    refine (flatMap_writeWords id (pack dtype) _).trans ?_
    simp only [elements, List.flatMap_append, List.flatMap_map, id_eq]
  rw [Kvcodec.saveBlob, elemSize_tag]
  simp only [packed, Option.bind_eq_bind, Option.bind_some, payload, framed]
  split
  · rfl
  · rw [pad_eq (by omega)]
    rfl

theorem writeBlob_eq :
    writeBlob align hdr dtype (layers.map (LayerKV.map Scalar.float32)) =
      framed hdr align (writeWords ((elements layers).map fun u => encode dtype (.float32 u))) := by
  have keys :
    (layers.map (LayerKV.map Scalar.float32)).flatMap
    (fun l => writeWords (l.key.map (encode dtype)).data) =
      writeWords ((layers.flatMap (·.key.data)).map fun u => encode dtype (.float32 u)) := by
    rw [← flatMap_writeWords, List.flatMap_map]
    simp only [LayerKV.map, NDArray.map, List.map_map]
    rfl
  have values :
    (layers.map (LayerKV.map Scalar.float32)).flatMap
    (fun l => writeWords (l.value.map (encode dtype)).data) =
      writeWords ((layers.flatMap (·.value.data)).map fun u => encode dtype (.float32 u)) := by
    rw [← flatMap_writeWords, List.flatMap_map]
    simp only [LayerKV.map, NDArray.map, List.map_map]
    rfl
  rw [writeBlob, keys, values, framed, elements, List.map_append, writeWords_append]
  simp only [List.append_assoc]

/-- The two writers agree on a file exactly where no half is flushed or made infinite. -/
theorem saveBlob_eq_writeBlob_iff :
    Kvcodec.saveBlob magic hdr dtype.tag (layers.map (·.key.data))
      (layers.map (·.value.data)) align =
        writeBlob align hdr dtype (layers.map (LayerKV.map Scalar.float32)) ↔
      (0 < align → hdr.length < 256 ^ 8 → dtype = .float16 → ∀ l ∈ layers,
        ∀ u ∈ l.key.data ++ l.value.data, FlushSafe u) := by
  rw [saveBlob_eq, writeBlob_eq, framed, framed]
  by_cases fails : 256 ^ 8 ≤ hdr.length ∨ align = 0
  · rw [if_pos fails, if_pos fails]
    refine iff_of_true rfl fun positive fits => ?_
    omega
  · rw [if_neg fails, if_neg fails]
    simp only [Option.some_inj, List.append_cancel_left_eq]
    rw [writeWords_inj (by simp only [List.length_map]), List.map_inj_left]
    simp only [pack_eq_iff, mem_elements]
    constructor
    · intro agrees _ _ half l hl u hu
      exact agrees u ⟨l, hl, hu⟩ half
    · rintro safe u ⟨l, hl, hu⟩ half
      exact safe (by omega) (by omega) half l hl u hu

end Files

/-- Two elements of one head: `2^-15`, a subnormal half, and a NaN. -/
def flushedLayer : LayerKV (BitVec 32) :=
  ⟨⟨[1, 1, 2], [0x38000000, 0x7FC00000], rfl⟩, ⟨[1, 1, 2], [0, 0], rfl⟩⟩

theorem flushedLayer_differs :
    Kvcodec.saveBlob magic [] StoreDtype.float16.tag ([flushedLayer].map (·.key.data))
      ([flushedLayer].map (·.value.data)) 64 ≠
      writeBlob 64 [] .float16 ([flushedLayer].map (LayerKV.map Scalar.float32)) := by
  rw [ne_eq, saveBlob_eq, writeBlob_eq, framed, framed, if_neg (by simp), if_neg (by simp),
    Option.some.injEq]
  simp only [List.append_cancel_left_eq]
  decide +kernel

end Dexa.Session
