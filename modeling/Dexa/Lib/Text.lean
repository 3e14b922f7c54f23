import Mathlib.Data.List.Basic

/-! # String methods, on lists of characters -/

namespace Dexa.Lib

/-- The characters `str.strip` removes. -/
def isPySpace (c : Char) : Bool :=
  let n := c.toNat
  (9 ≤ n && n ≤ 13) || (28 ≤ n && n ≤ 32) || n == 0x85 || n == 0xa0 || n == 0x1680 ||
    (0x2000 ≤ n && n ≤ 0x200a) ||
    n == 0x2028 || n == 0x2029 || n == 0x202f || n == 0x205f || n == 0x3000

def strip (s : List Char) : List Char :=
  (((s.dropWhile isPySpace).reverse).dropWhile isPySpace).reverse

/-- The first position of `sub`, if it occurs. -/
def find (sub s : List Char) : Option Nat := s.tails.findIdx? fun suffix => sub.isPrefixOf suffix

end Dexa.Lib
