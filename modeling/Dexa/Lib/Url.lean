import Mathlib.Data.List.GetD
import Mathlib.Algebra.Order.Group.Nat

/-! # Segments of a URL path

Percent-encoding of a path segment, and what a URL parser makes of the path it stands in: a
segment of one or two dots, also where the dots are encoded, is resolved and vanishes; every other
encoded segment stays as it is, percent signs included.
-/

namespace Dexa.Lib.Url

/-- The characters a path segment may hold as they are, the percent sign apart. -/
def isPathChar (c : Char) : Bool := c.isAlphanum || "-._~!$&'()*+,;=:@".toList.contains c

def hexDigit (n : Nat) : Char := "0123456789ABCDEF".toList.getD n '0'

def percentByte (b : UInt8) : List Char := ['%', hexDigit (b.toNat / 16), hexDigit (b.toNat % 16)]

/-- What encodes the segments of a path: which characters it leaves as they are. -/
structure PathEncoder where
  raw : Char → Bool
  legal : ∀ c, raw c = true → isPathChar c = true

namespace PathEncoder

/-- The encoder that encodes what a URL requires to be encoded, and no more. -/
def required : PathEncoder := ⟨isPathChar, fun _ legal => legal⟩

variable (enc : PathEncoder)

def encodeChar (c : Char) : List Char :=
  if enc.raw c then [c] else (String.utf8EncodeChar c).flatMap percentByte

def encode (segment : List Char) : List Char := segment.flatMap enc.encodeChar

variable {enc}

theorem isPathChar_ne {c : Char} (legal : isPathChar c = true) : c ≠ '/' ∧ c ≠ '%' := by
  constructor
  · rintro rfl
    exact absurd legal (by decide)
  · rintro rfl
    exact absurd legal (by decide)

theorem hexDigit_ne_slash (n : Nat) : hexDigit n ≠ '/' := by
  have member : hexDigit n ∈ "0123456789ABCDEF".toList := by
    by_cases inside : n < 16
    · rw [hexDigit, List.getD_eq_getElem _ _ inside]
      exact List.getElem_mem inside
    · rw [hexDigit, List.getD_eq_default _ _ (not_lt.1 inside)]
      decide
  intro slash
  rw [slash] at member
  exact absurd member (by decide)

/-- What is encoded starts with a percent sign and is longer than one character. -/
theorem encodeChar_of_not_raw {c : Char} (other : enc.raw c = false) :
    ∃ digits, digits ≠ [] ∧ enc.encodeChar c = '%' :: digits := by
  have some : String.utf8EncodeChar c ≠ [] := by
    intro none
    have length := String.length_utf8EncodeChar c
    rw [none] at length
    exact absurd length (Nat.ne_of_lt c.utf8Size_pos)
  obtain ⟨b, bytes, shape⟩ := List.exists_cons_of_ne_nil some
  refine ⟨_, ?_, by rw [encodeChar, other, shape]; rfl⟩
  exact List.cons_ne_nil _ _

theorem encodeChar_of_raw {c : Char} (own : enc.raw c = true) : enc.encodeChar c = [c] := if_pos own

theorem slash_not_mem_encode (segment : List Char) : '/' ∉ enc.encode segment := by
  intro member
  obtain ⟨c, _, inside⟩ := List.mem_flatMap.1 member
  by_cases own : enc.raw c = true
  · rw [encodeChar_of_raw own, List.mem_singleton] at inside
    exact (isPathChar_ne (enc.legal c own)).1 inside.symm
  · rw [encodeChar, if_neg own] at inside
    obtain ⟨b, _, digit⟩ := List.mem_flatMap.1 inside
    simp only [percentByte, List.mem_cons, List.not_mem_nil, or_false] at digit
    rcases digit with percent | high | low
    · exact absurd percent (by decide)
    · exact hexDigit_ne_slash _ high.symm
    · exact hexDigit_ne_slash _ low.symm

theorem length_le_encode (segment : List Char) : segment.length ≤ (enc.encode segment).length := by
  induction segment with
  | nil => exact le_rfl
  | cons c segment ih =>
    have some : 1 ≤ (enc.encodeChar c).length := by
      by_cases own : enc.raw c = true
      · rw [encodeChar_of_raw own]
        exact Nat.le_refl 1
      · obtain ⟨digits, -, shape⟩ := encodeChar_of_not_raw (Bool.eq_false_iff.2 own)
        rw [shape]
        exact Nat.succ_le_succ (Nat.zero_le _)
    rw [encode, List.flatMap_cons, List.length_append, List.length_cons]
    exact (Nat.add_comm _ _).le.trans (Nat.add_le_add some ih)

theorem encode_ne_nil {segment : List Char} (some : segment ≠ []) : enc.encode segment ≠ [] := by
  intro none
  have length : segment.length ≤ (enc.encode segment).length := length_le_encode segment
  rw [none] at length
  exact some (List.eq_nil_of_length_eq_zero (Nat.le_zero.1 length))

/-- A segment is its own encoding exactly if every character is left as it is. -/
theorem encode_eq_self_iff {segment : List Char} : enc.encode segment = segment ↔ ∀ c ∈ segment,
    enc.raw c = true := by
  induction segment with
  | nil => simp [encode]
  | cons c segment ih =>
    rw [List.forall_mem_cons, ← ih, encode, List.flatMap_cons]
    by_cases own : enc.raw c = true
    · rw [encodeChar_of_raw own, List.singleton_append, List.cons.injEq]
      exact and_congr_left fun _ => iff_of_true rfl own
    · refine iff_of_false ?_ fun both => own both.1
      intro same
      -- an encoded character takes more room than it had
      obtain ⟨digits, some, shape⟩ := encodeChar_of_not_raw (Bool.eq_false_iff.2 own)
      have length := congrArg List.length same
      have rest : segment.length ≤ (enc.encode segment).length := length_le_encode segment
      have more := List.length_pos_iff.2 some
      rw [shape, List.length_append, List.length_cons, List.length_cons] at length
      rw [encode] at rest
      omega

end PathEncoder

/-- The parts of a path between its slashes. -/
def splitSlash : List Char → List (List Char)
  | [] => [[]]
  | c :: rest =>
    if c = '/' then [] :: splitSlash rest
    else
      match splitSlash rest with
      | [] => [[c]]
      | segment :: segments => (c :: segment) :: segments

def isSingleDot (segment : List Char) : Bool := [".", "%2e", "%2E"].contains (String.ofList segment)

def isDoubleDot (segment : List Char) : Bool :=
  ["..", ".%2e", ".%2E", "%2e.", "%2E.", "%2e%2e", "%2e%2E", "%2E%2e", "%2E%2E"].contains
    (String.ofList segment)

/-- A parser's path state: `done` are the segments it has, from the last. -/
def resolveDots (done : List (List Char)) : List (List Char) → List (List Char)
  | [] => done.reverse
  | segment :: rest =>
    if isDoubleDot segment then resolveDots (if rest = [] then [] :: done.tail else done.tail) rest
    else if isSingleDot segment then resolveDots (if rest = [] then [] :: done else done) rest
    else resolveDots (segment :: done) rest

/-- `new URL(..).pathname`, of what follows the first slash of a path with no character left to
    encode. -/
def pathname (path : List Char) : List Char := (resolveDots [] (splitSlash path)).flatMap ('/' :: ·)

theorem splitSlash_self {segment : List Char} (whole : '/' ∉ segment) :
    splitSlash segment = [segment] := by
  induction segment with
  | nil => rfl
  | cons c segment ih =>
    rw [List.mem_cons, not_or] at whole
    rw [splitSlash, if_neg (Ne.symm whole.1), ih whole.2]

theorem splitSlash_append {segment : List Char} (whole : '/' ∉ segment) (rest : List Char) :
    splitSlash (segment ++ '/' :: rest) = segment :: splitSlash rest := by
  induction segment with
  | nil => rfl
  | cons c segment ih =>
    rw [List.mem_cons, not_or] at whole
    rw [List.cons_append, splitSlash, if_neg (Ne.symm whole.1), ih whole.2]

/-- A segment that is not resolved. -/
def IsPlain (segment : List Char) : Prop := isSingleDot segment = false ∧
    isDoubleDot segment = false

instance (segment : List Char) : Decidable (IsPlain segment) := inferInstanceAs (Decidable (_ ∧ _))

theorem resolveDots_append {segments : List (List Char)}
    (plain : ∀ segment ∈ segments, IsPlain segment)
    (done rest : List (List Char)) :
      resolveDots done (segments ++ rest) = resolveDots (segments.reverse ++ done) rest := by
  induction segments generalizing done with
  | nil => rfl
  | cons segment segments ih =>
    obtain ⟨single, double⟩ := plain segment List.mem_cons_self
    rw [List.cons_append, resolveDots, double, single, if_neg Bool.false_ne_true,
      if_neg Bool.false_ne_true,
      ih fun later member => plain later (List.mem_cons_of_mem _ member), List.reverse_cons,
        List.append_assoc]
    rfl

theorem resolveDots_plain {segments : List (List Char)}
    (plain : ∀ segment ∈ segments, IsPlain segment) :
    resolveDots [] segments = segments := by
  have resolved := resolveDots_append plain [] []
  rw [List.append_nil, List.append_nil, resolveDots, List.reverse_reverse] at resolved
  exact resolved

end Dexa.Lib.Url
