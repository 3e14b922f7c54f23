import Mathlib.Data.List.Basic
import Mathlib.Tactic.Ring

/-! # Bytes

Little-endian numbers, arrays of words as their raw buffer, and UTF-8.
-/

namespace Dexa.Lib

/-- `n.to_bytes(size, "little")`, of a number that fits. -/
def littleEndian : Nat → Nat → List UInt8
  | 0, _ => []
  | size + 1, n => UInt8.ofNat n :: littleEndian size (n / 256)

/-- `int.from_bytes(bytes, "little")`. -/
def fromLittleEndian : List UInt8 → Nat
  | [] => 0
  | b :: bytes => b.toNat + 256 * fromLittleEndian bytes

@[simp] theorem length_littleEndian (size n : Nat) : (littleEndian size n).length = size := by
  induction size generalizing n with
  | zero => rfl
  | succ size ih => rw [littleEndian, List.length_cons, ih]

theorem fromLittleEndian_littleEndian {size n : Nat} (fits : n < 256 ^ size) :
    fromLittleEndian (littleEndian size n) = n := by
  induction size generalizing n with
  | zero =>
    rw [Nat.pow_zero] at fits
    rw [littleEndian, fromLittleEndian]
    omega
  | succ size ih =>
    have rest : n / 256 < 256 ^ size := by
      rw [Nat.pow_succ] at fits
      exact Nat.div_lt_of_lt_mul (by rwa [Nat.mul_comm])
    rw [littleEndian, fromLittleEndian, ih rest, UInt8.toNat_ofNat']
    omega

section Words

variable {k : Nat}

def wordBytes (x : BitVec (8 * k)) : List UInt8 := littleEndian k x.toNat

def wordOf (k : Nat) (bytes : List UInt8) : BitVec (8 * k) :=
  BitVec.ofNat _ (fromLittleEndian bytes)

@[simp] theorem length_wordBytes (x : BitVec (8 * k)) : (wordBytes x).length = k :=
  length_littleEndian ..

theorem wordOf_wordBytes (x : BitVec (8 * k)) : wordOf k (wordBytes x) = x := by
  have fits : x.toNat < 256 ^ k := by
    rw [show 256 = 2 ^ 8 from rfl, ← Nat.pow_mul]
    exact x.isLt
  rw [wordOf, wordBytes, fromLittleEndian_littleEndian fits, BitVec.ofNat_toNat, BitVec.setWidth_eq]

/-- The raw buffer of an array. -/
def writeWords (xs : List (BitVec (8 * k))) : List UInt8 := xs.flatMap wordBytes

/-- The first `count` words of a buffer. -/
def readWords (k : Nat) : Nat → List UInt8 → List (BitVec (8 * k))
  | 0, _ => []
  | count + 1, bytes => wordOf k (bytes.take k) :: readWords k count (bytes.drop k)

@[simp] theorem length_writeWords (xs : List (BitVec (8 * k))) :
    (writeWords xs).length = k * xs.length := by
  induction xs with
  | nil => rfl
  | cons x xs ih =>
    rw [writeWords, List.flatMap_cons, List.length_append, length_wordBytes, List.length_cons]
    rw [writeWords] at ih
    rw [ih]
    ring

@[simp] theorem length_readWords (count : Nat) (bytes : List UInt8) :
    (readWords k count bytes).length = count := by
  induction count generalizing bytes with
  | zero => rfl
  | succ count ih => rw [readWords, List.length_cons, ih]

theorem readWords_writeWords (xs : List (BitVec (8 * k))) (rest : List UInt8) :
    readWords k xs.length (writeWords xs ++ rest) = xs := by
  induction xs with
  | nil => rfl
  | cons x xs ih =>
    rw [writeWords, List.flatMap_cons, List.length_cons, readWords, List.append_assoc,
      List.take_left' (length_wordBytes x),
      List.drop_left' (length_wordBytes x), wordOf_wordBytes]
    rw [writeWords] at ih
    rw [ih]

theorem writeWords_append (xs ys : List (BitVec (8 * k))) :
    writeWords (xs ++ ys) = writeWords xs ++ writeWords ys :=
  List.flatMap_append

end Words

def utf8Encode (s : String) : List UInt8 := s.toUTF8.data.toList

/-- `none`: a `UnicodeDecodeError`. -/
def utf8Decode (bytes : List UInt8) : Option String := String.fromUTF8? ⟨bytes.toArray⟩

theorem utf8Decode_utf8Encode (s : String) : utf8Decode (utf8Encode s) = some s := by
  have same : (⟨(utf8Encode s).toArray⟩ : ByteArray) = s.toByteArray := by
    rw [utf8Encode, Array.toArray_toList]
    rfl
  rw [utf8Decode, same, String.fromUTF8?, dif_pos s.isValidUTF8]
  rfl

theorem utf8Encode_of_utf8Decode {bytes : List UInt8} {s : String}
    (decoded : utf8Decode bytes = some s) :
    utf8Encode s = bytes := by
  rw [utf8Decode, String.fromUTF8?] at decoded
  split at decoded
  · cases decoded
    rfl
  · cases decoded

/-- What a beginning of an encoded text decodes to is a beginning of the text. -/
theorem utf8Decode_beginning {s t : String} {bytes tail : List UInt8}
    (split : utf8Encode t = bytes ++ tail)
    (decoded : utf8Decode bytes = some s) : ∃ rest, t.toList = s.toList ++ rest ∧
      (tail ≠ [] → rest ≠ []) := by
  rw [← utf8Encode_of_utf8Decode decoded] at split
  have whole : s.toList.utf8Encode ++ ⟨tail.toArray⟩ = t.toList.utf8Encode := by
    rw [String.utf8Encode_toList, String.utf8Encode_toList]
    apply ByteArray.ext
    apply Array.toList_inj.1
    simpa [utf8Encode] using split.symm
  obtain ⟨rest, same⟩ := List.isPrefix_of_utf8Encode_append_eq_utf8Encode _ whole
  refine ⟨rest, same.symm, fun proper empty => proper ?_⟩
  rw [empty, List.append_nil, String.toList_inj] at same
  rw [same] at split
  simpa using split

end Dexa.Lib
