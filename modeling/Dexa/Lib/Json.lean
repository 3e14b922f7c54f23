import Dexa.Lib.Dict

/-! # JSON text (Python's `json`)

`dumps` writes the text that `json.dumps` writes by default, ASCII with `", "` and `": "`
between the parts; `loads` reads JSON text.  A float is kept as its `repr`, the token that
both sides agree on, and `NaN` and the infinities are left out.  `none` is a
`JSONDecodeError`.
-/

namespace Dexa.Lib

def isNumberChar (c : Char) : Bool :=
  c.isDigit || c = '-' || c = '+' || c = '.' || c = 'e' || c = 'E'

/-- `0|[1-9]\d*`. -/
def isNatToken (cs : List Char) : Bool :=
  cs.all Char.isDigit && (cs.head?.elim false fun c => c ≠ '0' || cs.length = 1)

def isExponent : List Char → Bool
  | '+' :: cs | '-' :: cs => cs ≠ [] && cs.all Char.isDigit
  | cs => cs ≠ [] && cs.all Char.isDigit

/-- `(\.\d+)?([eE][-+]?\d+)?`, not empty. -/
def isFraction : List Char → Bool
  | '.' :: cs =>
    let rest := cs.dropWhile Char.isDigit
    cs.takeWhile Char.isDigit ≠ [] && (match rest with
      | [] => true
      | 'e' :: ds | 'E' :: ds => isExponent ds
      | _ => false)
  | 'e' :: cs | 'E' :: cs => isExponent cs
  | _ => false

def unsigned : List Char → List Char
  | '-' :: cs => cs
  | cs => cs

def isFloatToken (cs : List Char) : Bool :=
  cs.all isNumberChar && isNatToken ((unsigned cs).takeWhile Char.isDigit) &&
    isFraction ((unsigned cs).dropWhile Char.isDigit)

/-- A finite float, as its `repr`. -/
structure FloatText where
  text : List Char
  valid : isFloatToken text = true
  deriving DecidableEq

def intToken (n : Int) : List Char :=
  if n < 0 then '-' :: Nat.toDigits 10 n.natAbs else Nat.toDigits 10 n.natAbs

/-- `int(token)`. -/
def intOf : List Char → Option Int
  | '-' :: cs => if isNatToken cs then some (-(Nat.ofDigitChars 10 cs 0 : Nat)) else none
  | cs => if isNatToken cs then some (Nat.ofDigitChars 10 cs 0 : Nat) else none

/-- `\uXXXX`. -/
def unicodeEscape (n : Nat) : List Char :=
  ['\\', 'u', (n / 4096 % 16).digitChar, (n / 256 % 16).digitChar, (n / 16 % 16).digitChar,
    (n % 16).digitChar]

/-- One character of `py_encode_basestring_ascii`. -/
def escapeChar (c : Char) : List Char :=
  if c = '"' then ['\\', '"']
  else if c = '\\' then ['\\', '\\']
  else if c = '\n' then ['\\', 'n']
  else if c = '\r' then ['\\', 'r']
  else if c = '\t' then ['\\', 't']
  else if c.toNat = 12 then ['\\', 'f']
  else if c.toNat = 8 then ['\\', 'b']
  else if 32 ≤ c.toNat ∧ c.toNat ≤ 126 then [c]
  else if c.toNat < 65536 then unicodeEscape c.toNat
  -- a surrogate pair
  else unicodeEscape (0xd800 + (c.toNat - 65536) / 1024) ++ unicodeEscape
    (0xdc00 + (c.toNat - 65536) % 1024)

def quote (s : String) : List Char := '"' :: (s.toList.flatMap escapeChar ++ ['"'])

def hexDigit (c : Char) : Option Nat :=
  if c.isDigit then some (c.toNat - 48)
  else if 'a' ≤ c ∧ c ≤ 'f' then some (c.toNat - 87)
  else if 'A' ≤ c ∧ c ≤ 'F' then some (c.toNat - 55)
  else none

/-- The code unit of `\uXXXX`. -/
def readUnicode : List Char → Option (Nat × List Char)
  | '\\' :: 'u' :: a :: b :: c :: d :: rest => do
    let value := 4096 * (← hexDigit a) + 256 * (← hexDigit b) + 16 * (← hexDigit c) + (← hexDigit d)
    return (value, rest)
  | _ => none

/-- One character of a string, escaped or not; lone surrogates are not characters. -/
def readChar (s : List Char) : Option (Char × List Char) :=
  match s with
  | '\\' :: 'u' :: _ => do
    let (high, rest) ← readUnicode s
    if 0xd800 ≤ high ∧ high < 0xdc00 then
      let (low, rest) ← readUnicode rest
      if 0xdc00 ≤ low ∧ low < 0xe000 then some (Char.ofNat (65536 + (high - 0xd800) * 1024 + (low - 0xdc00)), rest)
      else none
    else if 0xdc00 ≤ high ∧ high < 0xe000 then none
    else some (Char.ofNat high, rest)
  | '\\' :: '"' :: rest => some ('"', rest)
  | '\\' :: '\\' :: rest => some ('\\', rest)
  | '\\' :: '/' :: rest => some ('/', rest)
  | '\\' :: 'b' :: rest => some (Char.ofNat 8, rest)
  | '\\' :: 'f' :: rest => some (Char.ofNat 12, rest)
  | '\\' :: 'n' :: rest => some ('\n', rest)
  | '\\' :: 'r' :: rest => some ('\r', rest)
  | '\\' :: 't' :: rest => some ('\t', rest)
  | '\\' :: _ => none
  | c :: rest => if 32 ≤ c.toNat then some (c, rest) else none
  | [] => none

/-- The characters up to the closing quote; `fuel` bounds their number. -/
def readString : Nat → List Char → Option (List Char × List Char)
  | _, '"' :: rest => some ([], rest)
  | 0, _ => none
  | fuel + 1, s => do
    let (c, s) ← readChar s
    let (cs, s) ← readString fuel s
    return (c :: cs, s)

inductive JsonValue where
  | none
  | bool (b : Bool)
  | int (n : Int)
  | float (x : FloatText)
  | str (s : String)
  | list (items : List JsonValue)
  | dict (entries : List (String × JsonValue))

namespace JsonValue

mutual

/-- The characters of `json.dumps`. -/
def write : JsonValue → List Char
  | .none => "null".toList
  | .bool true => "true".toList
  | .bool false => "false".toList
  | .int n => intToken n
  | .float x => x.text
  | .str s => quote s
  | .list items => '[' :: ((", ".toList).intercalate (writeItems items) ++ [']'])
  | .dict entries => '{' :: ((", ".toList).intercalate (writeEntries entries) ++ ['}'])

def writeItems : List JsonValue → List (List Char)
  | [] => []
  | v :: items => v.write :: writeItems items

def writeEntries : List (String × JsonValue) → List (List Char)
  | [] => []
  | (k, v) :: entries => (quote k ++ ": ".toList ++ v.write) :: writeEntries entries

end

def dumps (v : JsonValue) : String := String.ofList v.write

end JsonValue

def skipSpace (s : List Char) : List Char :=
  s.dropWhile fun c => c = ' ' || c = '\t' || c = '\n' || c = '\r'

/-- A number: the longest run of number characters. -/
def readNumber (s : List Char) : Option (JsonValue × List Char) :=
  let token := s.takeWhile isNumberChar
  let rest := s.dropWhile isNumberChar
  if valid : isFloatToken token = true then some (.float ⟨token, valid⟩, rest)
  else (intOf token).map fun n => (.int n, rest)

mutual

/-- `scan_once`; `fuel` bounds the values, items and entries on the way. -/
def readValue : Nat → List Char → Option (JsonValue × List Char)
  | 0, _ => none
  | fuel + 1, s =>
    match s with
    | '"' :: rest => (readString rest.length rest).map fun (cs, s) => (.str (String.ofList cs), s)
    | '[' :: rest =>
      match skipSpace rest with
      | ']' :: s => some (.list [], s)
      | s => (readItems fuel s).map fun (items, s) => (.list items, s)
    | '{' :: rest =>
      match skipSpace rest with
      | '}' :: s => some (.dict [], s)
      -- a repeated key keeps its place and takes the later value
      | s => (readEntries fuel s).map fun (entries, s) => (.dict (Dict.ofList entries).entries, s)
    | 'n' :: 'u' :: 'l' :: 'l' :: rest => some (.none, rest)
    | 't' :: 'r' :: 'u' :: 'e' :: rest => some (.bool true, rest)
    | 'f' :: 'a' :: 'l' :: 's' :: 'e' :: rest => some (.bool false, rest)
    | s => readNumber s

def readItems : Nat → List Char → Option (List JsonValue × List Char)
  | 0, _ => none
  | fuel + 1, s => do
    let (v, s) ← readValue fuel s
    match skipSpace s with
    | ']' :: s => some ([v], s)
    | ',' :: s => (readItems fuel (skipSpace s)).map fun (items, s) => (v :: items, s)
    | _ => none

def readEntries : Nat → List Char → Option (List (String × JsonValue) × List Char)
  | 0, _ => none
  | fuel + 1, s =>
    match s with
    | '"' :: rest => do
      let (k, s) ← readString rest.length rest
      match skipSpace s with
      | ':' :: s => do
        let (v, s) ← readValue fuel (skipSpace s)
        match skipSpace s with
        | '}' :: s => some ([(String.ofList k, v)], s)
        | ',' :: s => (readEntries fuel (skipSpace s)).map fun (entries, s) => ((String.ofList k, v) :: entries, s)
        | _ => none
      | _ => none
    | _ => none

end

/-- `json.loads`. -/
def JsonValue.loads (text : String) : Option JsonValue :=
  match readValue (text.toList.length + 1) (skipSpace text.toList) with
  | some (v, rest) => if skipSpace rest = [] then some v else .none
  | .none => .none

end Dexa.Lib
