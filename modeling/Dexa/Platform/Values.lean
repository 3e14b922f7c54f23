import Dexa.Lib.Dict
import Mathlib.Data.Rat.Floor

/-! # The Python values the gateway handles

Request and reply bodies are JSON values of any shape, so reading one can raise: `.get`
on something that is not an object, iteration over a number, a missing key.  Objects
keep their insertion order.  Numbers are rationals, and a boolean counts as 0 or 1.
-/

namespace Dexa.Platform

open Dexa.Lib

abbrev Bytes := List UInt8

/-- The built-in exceptions the handlers let escape. -/
inductive Raised where
  | attributeError
  | typeError
  | keyError
  | indexError
  | valueError
  /-- PIL cannot identify or decode the image -/
  | unidentifiedImage
  deriving DecidableEq, Repr

inductive Json where
  | null
  | bool (b : Bool)
  | num (q : ℚ)
  | str (s : String)
  | arr (items : List Json)
  | obj (fields : List (String × Json))

instance : Inhabited Json := ⟨.null⟩

namespace Json

def truthy : Json → Bool
  | null => false
  | bool b => b
  | num q => q ≠ 0
  | str s => s ≠ ""
  | arr items => !items.isEmpty
  | obj fields => !fields.isEmpty

/-- `x.get(key)`, `None` as `none`. -/
def get : Json → String → Except Raised (Option Json)
  | obj fields, key => .ok (Dict.lookup key fields)
  | _, _ => .error .attributeError

/-- `x.get(key, default)`. -/
def getD (x : Json) (key : String) (default : Json) : Except Raised Json :=
  (x.get key).map fun v => v.getD default

/-- `x[key]`. -/
def item : Json → String → Except Raised Json
  | obj fields, key => match Dict.lookup key fields with
    | some v => .ok v
    | none => .error .keyError
  | _, _ => .error .typeError

/-- `x[0]`. -/
def head : Json → Except Raised Json
  | arr (v :: _) => .ok v
  | arr [] => .error .indexError
  | str s => match s.toList with
    | c :: _ => .ok (.str (String.ofList [c]))
    | [] => .error .indexError
  | obj _ => .error .keyError
  | _ => .error .typeError

/-- `x[key] = v`. -/
def setItem : Json → String → Json → Except Raised Json
  | obj fields, key, v => .ok (.obj (Dict.assign key v fields))
  | _, _, _ => .error .typeError

/-- `for y in x`. -/
def iter : Json → Except Raised (List Json)
  | arr items => .ok items
  | obj fields => .ok (fields.map fun f => .str f.1)
  | str s => .ok (s.toList.map fun c => .str (String.ofList [c]))
  | _ => .error .typeError

/-- `len(x)`. -/
def len : Json → Except Raised Nat
  | arr items => .ok items.length
  | obj fields => .ok fields.length
  | str s => .ok s.length
  | _ => .error .typeError

/-- The number in an arithmetic operation. -/
def number : Json → Except Raised ℚ
  | num q => .ok q
  | bool b => .ok (if b then 1 else 0)
  | _ => .error .typeError

theorem setItem_ok {key : String} {v x y : Json} (h : x.setItem key v = .ok y) :
    ∃ fields, x = .obj fields ∧ y = .obj (Dict.assign key v fields) := by
  cases x with
  | obj fields =>
    simp only [setItem, Except.ok.injEq] at h
    exact ⟨fields, rfl, h.symm⟩
  | _ => simp [setItem] at h

theorem get_setItem_self {key : String} {v x y : Json} (h : x.setItem key v = .ok y) :
    y.get key = .ok (some v) := by
  obtain ⟨fields, rfl, rfl⟩ := setItem_ok h
  simp [get, Dict.lookup_assign]

/-- Assigning one key of an object leaves what the others hold. -/
theorem get_setItem_ne {key key' : String} {v x y : Json} (h : x.setItem key v = .ok y)
    (other : key' ≠ key) :
    y.get key' = x.get key' := by
  obtain ⟨fields, rfl, rfl⟩ := setItem_ok h
  simp [get, Dict.lookup_assign, other.symm]

end Json

/-- `sep.join(parts)`. -/
def pyJoin (sep : String) (parts : List Json) : Except Raised String := do
  let texts ← parts.mapM fun
    | .str s => .ok s
    | _ => .error .typeError
  return sep.intercalate texts

/-- `text.encode()`. -/
def encode (text : String) : Bytes := text.toByteArray.data.toList

theorem encode_injective : Function.Injective encode := by
  intro text text' same
  have data : text.toByteArray.data = text'.toByteArray.data := Array.toList_inj.1 same
  exact String.toByteArray_inj.1 (ByteArray.ext data)

/-- `round(q)`: halves go to the even neighbour. -/
def roundHalfEven (q : ℚ) : Int :=
  let below := q.floor
  if q - below < 1 / 2 then below
  else if 1 / 2 < q - below then below + 1
  else if below % 2 = 0 then below else below + 1

/-- `round(q, digits)`. -/
def pyRound (digits : Nat) (q : ℚ) : ℚ := roundHalfEven (q * 10 ^ digits) / 10 ^ digits

def base64Alphabet : List Char :=
  "ABCDEFGHIJKLMNOPQRSTUVWXYZabcdefghijklmnopqrstuvwxyz0123456789+/".toList

/-- One position of the decoder: characters of the current quad, its left-over bits,
    padding characters seen since the last data character, and the bytes so far. -/
structure Base64State where
  quadPos : Nat := 0
  leftchar : Nat := 0
  pads : Nat := 0
  out : List UInt8 := []

/-- `binascii.a2b_base64`, not strict: characters outside the alphabet are skipped, and a
    full pad sequence ends the input.  `none` where it raises. -/
def a2bBase64 (s : Base64State) : List Char → Option Bytes
  | [] => if s.quadPos = 0 then some s.out else none
  | '=' :: rest =>
    if s.quadPos ≥ 2 then
      if s.quadPos + s.pads + 1 ≥ 4 then some s.out
        else a2bBase64 { s with pads := s.pads + 1 } rest
    else a2bBase64 s rest
  | c :: rest =>
    match base64Alphabet.findIdx? (· = c) with
    | none => a2bBase64 s rest
    | some v =>
      match s.quadPos with
      | 0 => a2bBase64 { s with quadPos := 1, leftchar := v, pads := 0 } rest
      | 1 => a2bBase64 { quadPos := 2, leftchar := v % 16, pads := 0,
                         out := s.out ++ [UInt8.ofNat (s.leftchar * 4 + v / 16)] } rest
      | 2 => a2bBase64 { quadPos := 3, leftchar := v % 4, pads := 0,
                         out := s.out ++ [UInt8.ofNat (s.leftchar * 16 + v / 4)] } rest
      | _ => a2bBase64 { quadPos := 0, leftchar := 0, pads := 0,
                         out := s.out ++ [UInt8.ofNat (s.leftchar * 64 + v)] } rest

/-- `base64.b64decode` of a string: only ASCII is accepted. -/
def b64decode (s : List Char) : Option Bytes :=
  if s.all fun c => c.toNat < 128 then a2bBase64 {} s else none

example : b64decode "SGkh".toList = some (encode "Hi!") := by decide +kernel

end Dexa.Platform
