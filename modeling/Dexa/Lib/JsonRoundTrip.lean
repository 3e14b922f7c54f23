import Dexa.Lib.Json
import Mathlib.Data.List.TakeWhile

/-! # Reading JSON text undoes writing it

Each part of the reader takes what the writer wrote off the front of any text that can follow
it: `readNumber`, `readString`, and by one induction over the value `readValue`, `readItems`
and `readEntries`.  `loads_dumps` is the case of the whole text.
-/

namespace Dexa.Lib

theorem digit_isNumberChar {c : Char} (digit : c.isDigit = true) : isNumberChar c = true := by
  simp [isNumberChar, digit]

theorem all_digits (n : Nat) : (Nat.toDigits 10 n).all Char.isDigit = true := by
  rw [List.all_eq_true]
  exact fun c member => Nat.isDigit_of_mem_toDigits (by omega) (by omega) member

/-- A positive number has no leading zero. -/
theorem head_toDigits {n : Nat} (positive : 0 < n) : (Nat.toDigits 10 n).head? ≠ some '0' := by
  induction n using Nat.strong_induction_on with
  | h n ih =>
    by_cases small : n < 10
    · rw [Nat.toDigits_of_lt_base small, List.head?_cons, ne_eq, Option.some.injEq,
        Nat.digitChar_eq_zero]
      omega
    · rw [Nat.toDigits_of_base_le (by omega) (by omega),
        List.head?_append_of_ne_nil _ Nat.toDigits_ne_nil]
      exact ih (n / 10) (by omega) (by omega)

theorem isNatToken_toDigits (n : Nat) : isNatToken (Nat.toDigits 10 n) = true := by
  rw [isNatToken, all_digits, Bool.true_and]
  cases digits : Nat.toDigits 10 n with
  | nil => exact absurd digits Nat.toDigits_ne_nil
  | cons c cs =>
    rw [List.head?_cons, Option.elim_some, Bool.or_eq_true, decide_eq_true_eq, decide_eq_true_eq]
    rcases Nat.eq_zero_or_pos n with rfl | positive
    · rw [Nat.toDigits_zero] at digits
      exact .inr (by rw [← digits]; rfl)
    · have head := head_toDigits positive
      rw [digits, List.head?_cons] at head
      exact .inl fun zero => head (congrArg some zero)

theorem unsigned_of_ne {c : Char} (minus : c ≠ '-') (cs : List Char) :
    unsigned (c :: cs) = c :: cs := by
  simp [unsigned, minus]

theorem unsigned_of_digits {cs : List Char} (digits : cs.all Char.isDigit = true) :
    unsigned cs = cs := by
  cases cs with
  | nil => rfl
  | cons c cs =>
    refine unsigned_of_ne ?_ cs
    rintro rfl
    simp at digits

theorem intOf_intToken (n : Int) : intOf (intToken n) = some n := by
  have value := Nat.ofDigitChars_toDigits (b := 10) (n := n.natAbs) (by omega) (by omega)
  rw [intToken]
  split
  next negative =>
    rw [intOf, if_pos (isNatToken_toDigits _), value, Option.some.injEq]
    omega
  next nonneg =>
    rw [intOf.eq_def]
    split
    next cs minus =>
      have digits := all_digits n.natAbs
      rw [minus] at digits
      simp at digits
    next =>
      rw [if_pos (isNatToken_toDigits _), value, Option.some.injEq]
      omega

theorem unsigned_intToken (n : Int) : unsigned (intToken n) = Nat.toDigits 10 n.natAbs := by
  rw [intToken]
  split
  next => rfl
  next => exact unsigned_of_digits (all_digits _)

theorem not_isFloatToken_intToken (n : Int) : isFloatToken (intToken n) = false := by
  have rest : (Nat.toDigits 10 n.natAbs).dropWhile Char.isDigit = [] := by
    rw [List.dropWhile_eq_nil_iff]
    exact fun c member => List.all_eq_true.1 (all_digits _) c member
  rw [isFloatToken, unsigned_intToken, rest]
  simp [isFraction]

theorem all_numberChars_intToken (n : Int) : (intToken n).all isNumberChar = true := by
  have digits : (Nat.toDigits 10 n.natAbs).all isNumberChar = true := by
    rw [List.all_eq_true]
    exact fun c member => digit_isNumberChar (List.all_eq_true.1 (all_digits _) c member)
  rw [intToken]
  split
  next => rw [List.all_cons, digits]; rfl
  next => exact digits

/-- What follows a number is no part of it. -/
def EndsNumber (rest : List Char) : Prop := ∀ c ∈ rest.head?, isNumberChar c = false

theorem readNumber_append {token rest : List Char} (chars : token.all isNumberChar = true)
    (ends : EndsNumber rest) :
    (token ++ rest).takeWhile isNumberChar = token ∧
      (token ++ rest).dropWhile isNumberChar = rest := by
  have here : ∀ c ∈ token, isNumberChar c = true := List.all_eq_true.1 chars
  have after : rest.takeWhile isNumberChar = [] ∧ rest.dropWhile isNumberChar = rest := by
    cases rest with
    | nil => exact ⟨rfl, rfl⟩
    | cons c rest => simp [ends c rfl]
  rw [List.takeWhile_append_of_pos here, List.dropWhile_append_of_pos here, after.1, after.2,
    List.append_nil]
  exact ⟨rfl, rfl⟩

theorem readNumber_intToken (n : Int) {rest : List Char} (ends : EndsNumber rest) :
    readNumber (intToken n ++ rest) = some (.int n, rest) := by
  obtain ⟨token, after⟩ := readNumber_append (all_numberChars_intToken n) ends
  simp only [readNumber, token, after]
  rw [dif_neg (by rw [not_isFloatToken_intToken]; exact Bool.false_ne_true), intOf_intToken,
    Option.map_some]

theorem readNumber_float (x : FloatText) {rest : List Char} (ends : EndsNumber rest) :
    readNumber (x.text ++ rest) = some (.float x, rest) := by
  have chars : x.text.all isNumberChar = true := by
    have valid := x.valid
    rw [isFloatToken, Bool.and_eq_true, Bool.and_eq_true] at valid
    exact valid.1.1
  obtain ⟨token, after⟩ := readNumber_append chars ends
  simp only [readNumber, token, after]
  rw [dif_pos x.valid]

theorem hexDigit_digitChar {n : Nat} (small : n < 16) : hexDigit n.digitChar = some n := by
  revert n
  decide

theorem readUnicode_unicodeEscape {n : Nat} (small : n < 65536) (rest : List Char) :
    readUnicode (unicodeEscape n ++ rest) = some (n, rest) := by
  have digit : ∀ k, hexDigit (k % 16).digitChar = some (k % 16) :=
    fun k => hexDigit_digitChar (Nat.mod_lt k (by omega))
  have value : 4096 * (n / 4096 % 16) + 256 * (n / 256 % 16) + 16 * (n / 16 % 16) + n % 16 = n := by
    omega
  simp only [unicodeEscape, List.cons_append, List.nil_append, readUnicode, digit,
    Option.bind_eq_bind, Option.bind_some,
    Option.pure_def, value]

/-- A character that stands for itself. -/
theorem readChar_plain {c : Char} (plain : c ≠ '\\') (printable : 32 ≤ c.toNat) (rest : List Char) :
    readChar (c :: rest) = some (c, rest) := by
  have other : ∀ tail, c :: rest ≠ '\\' :: tail := fun tail same => plain (List.cons.inj same).1
  rw [readChar.eq_def]
  split
  -- the escapes
  iterate 10
    next escape => exact absurd escape (other _)
  · next same =>
    cases same
    exact if_pos printable
  · next same => cases same

theorem toNat_valid (c : Char) : c.toNat < 0xd800 ∨ 0xdfff < c.toNat ∧ c.toNat < 0x110000 := c.valid

theorem readChar_unicodeEscape {n : Nat} (small : n < 65536) (scalar : n < 0xd800 ∨ 0xdfff < n)
    (rest : List Char) :
    readChar (unicodeEscape n ++ rest) = some (Char.ofNat n, rest) := by
  have unit := readUnicode_unicodeEscape small rest
  rw [unicodeEscape, List.cons_append, List.cons_append] at unit ⊢
  rw [readChar, unit, Option.bind_eq_bind, Option.bind_some]
  dsimp only
  rw [if_neg (by omega), if_neg (by omega)]

theorem readChar_surrogates {high low : Nat} (isHigh : 0xd800 ≤ high ∧ high < 0xdc00)
    (isLow : 0xdc00 ≤ low ∧ low < 0xe000)
    (rest : List Char) : readChar (unicodeEscape high ++ unicodeEscape low ++ rest) =
      some (Char.ofNat (65536 + (high - 0xd800) * 1024 + (low - 0xdc00)), rest) := by
  have first : readUnicode (unicodeEscape high ++ (unicodeEscape low ++ rest)) =
    some (high, unicodeEscape low ++ rest) :=
    readUnicode_unicodeEscape (by omega) _
  have second : readUnicode (unicodeEscape low ++ rest) = some (low, rest) :=
    readUnicode_unicodeEscape (by omega) _
  rw [List.append_assoc]
  rw [unicodeEscape, List.cons_append, List.cons_append] at first ⊢
  rw [readChar, first, Option.bind_eq_bind, Option.bind_some]
  dsimp only
  rw [if_pos isHigh, second, Option.bind_some]
  dsimp only
  rw [if_pos isLow]

theorem readChar_escapeChar (c : Char) (rest : List Char) :
    readChar (escapeChar c ++ rest) = some (c, rest) := by
  have named : ∀ n, c.toNat = n → c = Char.ofNat n := fun n same => by rw [← same, Char.ofNat_toNat]
  have valid := toNat_valid c
  rw [escapeChar]
  split
  next is => rw [is]; rfl
  split
  next is => rw [is]; rfl
  split
  next is => rw [is]; rfl
  split
  next is => rw [is]; rfl
  split
  next is => rw [is]; rfl
  split
  next is => rw [named 12 is]; rfl
  split
  next is => rw [named 8 is]; rfl
  split
  next _ backslash _ _ _ _ _ printable => exact readChar_plain backslash printable.1 rest
  split
  next small =>
    rw [readChar_unicodeEscape small (by omega), Char.ofNat_toNat]
  next large =>
    have value : 65536 + (0xd800 + (c.toNat - 65536) / 1024 - 0xd800) * 1024 +
        (0xdc00 + (c.toNat - 65536) % 1024 - 0xdc00) = c.toNat := by omega
    rw [readChar_surrogates (by omega) (by omega), value, Char.ofNat_toNat]

theorem head_escapeChar (c : Char) : ∃ d ds, escapeChar c = d :: ds ∧ d ≠ '"' := by
  rw [escapeChar]
  split
  next => exact ⟨_, _, rfl, by decide⟩
  next quote =>
    repeat' split
    all_goals first
      | exact ⟨_, _, rfl, by decide⟩
      | exact ⟨c, [], rfl, quote⟩

theorem readString_escaped (cs : List Char) {fuel : Nat} (enough : cs.length ≤ fuel)
    (rest : List Char) :
    readString fuel (cs.flatMap escapeChar ++ '"' :: rest) = some (cs, rest) := by
  induction cs generalizing fuel with
  | nil => cases fuel <;> rfl
  | cons c cs ih =>
    cases fuel with
    | zero => simp at enough
    | succ fuel =>
      have own := readChar_escapeChar c (cs.flatMap escapeChar ++ '"' :: rest)
      have tail : readString fuel (cs.flatMap escapeChar ++ '"' :: rest) = some (cs, rest) :=
        ih (by simpa using enough)
      obtain ⟨d, ds, first, other⟩ := head_escapeChar c
      rw [List.flatMap_cons, List.append_assoc]
      rw [first] at own ⊢
      rw [List.cons_append] at own ⊢
      rw [readString, own, Option.bind_eq_bind, Option.bind_some]
      · dsimp only
        rw [tail]
        rfl
      · exact fun _ same => other (List.cons.inj same).1

theorem length_flatMap_escapeChar (cs : List Char) :
    cs.length ≤ (cs.flatMap escapeChar).length := by
  induction cs with
  | nil => exact Nat.le_refl 0
  | cons c cs ih =>
    obtain ⟨d, ds, first, _⟩ := head_escapeChar c
    rw [List.flatMap_cons, first, List.length_append, List.length_cons, List.length_cons]
    omega

/-- The string behind an opening quote. -/
theorem readString_quote (s : String) (rest : List Char) :
    ∃ body, quote s ++ rest = '"' :: body ∧
      readString body.length body = some (s.toList, rest) := by
  refine ⟨s.toList.flatMap escapeChar ++ '"' :: rest, by simp [quote], ?_⟩
  apply readString_escaped
  have := length_flatMap_escapeChar s.toList
  rw [List.length_append]
  omega

/-! ## The first character -/

/-- The characters a number starts with. -/
def StartsNumber (c : Char) : Prop := c = '-' ∨ c.isDigit = true

theorem head_intToken (n : Int) : ∃ c cs, intToken n = c :: cs ∧ StartsNumber c := by
  rw [intToken]
  split
  next => exact ⟨_, _, rfl, .inl rfl⟩
  next =>
    cases digits : Nat.toDigits 10 n.natAbs with
    | nil => exact absurd digits Nat.toDigits_ne_nil
    | cons c cs =>
      have all := all_digits n.natAbs
      rw [digits, List.all_cons, Bool.and_eq_true] at all
      exact ⟨c, cs, rfl, .inr all.1⟩

theorem head_float (x : FloatText) : ∃ c cs, x.text = c :: cs ∧ StartsNumber c := by
  have valid := x.valid
  rw [isFloatToken, Bool.and_eq_true, Bool.and_eq_true] at valid
  cases text : x.text with
  | nil =>
    rw [text] at valid
    exact absurd valid.1.2 (by decide)
  | cons c cs =>
    refine ⟨c, cs, rfl, ?_⟩
    by_cases minus : c = '-'
    · exact .inl minus
    · have whole := valid.1.2
      rw [text, unsigned_of_ne minus] at whole
      refine .inr ?_
      by_contra other
      rw [List.takeWhile_cons_of_neg other] at whole
      exact absurd whole (by decide)

theorem readValue_number {fuel : Nat} {c : Char} {cs : List Char} (start : StartsNumber c) :
    readValue (fuel + 1) (c :: cs) = readNumber (c :: cs) := by
  have other : ∀ d : Char, d ≠ '-' → d.isDigit = false → c ≠ d := by
    rintro d minus digit rfl
    cases start with
    | inl is => exact minus is
    | inr is => rw [digit] at is; cases is
  have h1 := other '"' (by decide) (by decide)
  have h2 := other '[' (by decide) (by decide)
  have h3 := other '{' (by decide) (by decide)
  have h4 := other 'n' (by decide) (by decide)
  have h5 := other 't' (by decide) (by decide)
  have h6 := other 'f' (by decide) (by decide)
  simp [readValue, h1, h2, h3, h4, h5, h6]

/-- What a value starts with: no space, and no closing bracket. -/
def StartsValue (c : Char) : Prop := StartsNumber c ∨ c = '"' ∨ c = '[' ∨ c = '{' ∨ c = 'n' ∨
    c = 't' ∨ c = 'f'

theorem head_write (v : JsonValue) : ∃ c cs, v.write = c :: cs ∧ StartsValue c := by
  cases v with
  | none => exact ⟨'n', _, rfl, by simp [StartsValue]⟩
  | bool b =>
    cases b with
    | false => exact ⟨'f', _, rfl, by simp [StartsValue]⟩
    | true => exact ⟨'t', _, rfl, by simp [StartsValue]⟩
  | int n =>
    obtain ⟨c, cs, first, start⟩ := head_intToken n
    exact ⟨c, cs, by rw [JsonValue.write, first], .inl start⟩
  | float x =>
    obtain ⟨c, cs, first, start⟩ := head_float x
    exact ⟨c, cs, by rw [JsonValue.write, first], .inl start⟩
  | str s => exact ⟨_, _, by rw [JsonValue.write, quote], by simp [StartsValue]⟩
  | list items => exact ⟨_, _, by rw [JsonValue.write], by simp [StartsValue]⟩
  | dict entries => exact ⟨_, _, by rw [JsonValue.write], by simp [StartsValue]⟩

theorem StartsValue.ne {c d : Char} (start : StartsValue c) (digit : d.isDigit = false)
    (other : d ∉ ['-', '"', '[', '{', 'n', 't', 'f']) : c ≠ d := by
  rintro rfl
  simp only [List.mem_cons, List.not_mem_nil, or_false, not_or] at other
  rcases start with (is | is) | is | is | is | is | is | is
  · exact other.1 is
  · rw [digit] at is
    cases is
  · exact other.2.1 is
  · exact other.2.2.1 is
  · exact other.2.2.2.1 is
  · exact other.2.2.2.2.1 is
  · exact other.2.2.2.2.2.1 is
  · exact other.2.2.2.2.2.2 is

theorem skipSpace_of_head {c : Char} (cs : List Char)
    (h : c ≠ ' ' ∧ c ≠ '\t' ∧ c ≠ '\n' ∧ c ≠ '\r') :
    skipSpace (c :: cs) = c :: cs := by
  simp [skipSpace, h]

theorem StartsValue.skipSpace {c : Char} (start : StartsValue c) (cs : List Char) :
    skipSpace (c :: cs) = c :: cs :=
  skipSpace_of_head cs ⟨start.ne (by decide) (by decide), start.ne (by decide) (by decide),
    start.ne (by decide) (by decide), start.ne (by decide) (by decide)⟩

/-! ## Values -/

namespace JsonValue

mutual

/-- The keys of each dictionary in the value are distinct. -/
def Exact : JsonValue → Prop
  | .list items => ExactItems items
  | .dict entries => (entries.map Prod.fst).Nodup ∧ ExactEntries entries
  | .none | .bool _ | .int _ | .float _ | .str _ => True

def ExactItems : List JsonValue → Prop
  | [] => True
  | v :: items => v.Exact ∧ ExactItems items

def ExactEntries : List (String × JsonValue) → Prop
  | [] => True
  | (_, v) :: entries => v.Exact ∧ ExactEntries entries

end

mutual

/-- The number of values, items and entries. -/
def size : JsonValue → Nat
  | .list items => sizeItems items + 1
  | .dict entries => sizeEntries entries + 1
  | .none | .bool _ | .int _ | .float _ | .str _ => 1

def sizeItems : List JsonValue → Nat
  | [] => 0
  | v :: items => v.size + sizeItems items + 1

def sizeEntries : List (String × JsonValue) → Nat
  | [] => 0
  | (_, v) :: entries => v.size + sizeEntries entries + 1

end

end JsonValue

open JsonValue

/-- The text of a list's items or a dictionary's entries, first and rest. -/
theorem intercalate_cons (sep first : List Char) (rest : List (List Char)) :
    sep.intercalate (first :: rest) = first ++ if rest = [] then []
      else sep ++ sep.intercalate rest := by
  cases rest with
  | nil => simp
  | cons second rest => simp [List.intercalate_cons_cons]

theorem endsNumber_cons {c : Char} (other : isNumberChar c = false) (cs : List Char) :
    EndsNumber (c :: cs) := by
  intro d same
  cases same
  exact other

theorem skipSpace_delimiter {c : Char} (delimiter : c ∈ [',', ':', ']', '}']) (cs : List Char) :
    skipSpace (c :: cs) = c :: cs := by
  refine skipSpace_of_head cs ?_
  simp only [List.mem_cons, List.not_mem_nil, or_false] at delimiter
  rcases delimiter with rfl | rfl | rfl | rfl <;> decide

/-- After a delimiter the text goes on behind a space. -/
theorem skipSpace_next {c : Char} (start : StartsValue c) (cs : List Char) :
    skipSpace (' ' :: c :: cs) = c :: cs := by
  have here := start.skipSpace cs
  rw [skipSpace] at here ⊢
  simpa using here

/-- One entry of a dictionary: what follows it decides. -/
theorem readEntries_entry (k : String) {v : JsonValue} {fuel : Nat} {after : List Char}
    (read : readValue fuel (v.write ++ after) = some (v, after)) :
    readEntries (fuel + 1) (quote k ++ ": ".toList ++ v.write ++ after) =
      match skipSpace after with
      | '}' :: s => some ([(k, v)], s)
      | ',' :: s => (readEntries fuel (skipSpace s)).map fun (entries, s) => ((k, v) :: entries, s)
      | _ => .none := by
  obtain ⟨body, key, readKey⟩ := readString_quote k (':' :: ' ' :: (v.write ++ after))
  obtain ⟨c, cs, first, start⟩ := head_write v
  have written : quote k ++ ": ".toList ++ v.write ++ after = '"' :: body := by
    rw [← key, List.append_assoc, List.append_assoc]
    rfl
  rw [written, readEntries, readKey]
  rw [first, List.cons_append] at read ⊢
  simp only [Option.bind_eq_bind, Option.bind_some,
    skipSpace_delimiter (show ':' ∈ [',', ':', ']', '}'] by decide),
    skipSpace_next start, String.ofList_toList]
  rw [read]
  rfl

theorem head_items (v : JsonValue) (items : List JsonValue) (rest : List Char) :
    ∃ c cs, ", ".toList.intercalate (writeItems (v :: items)) ++ rest = c :: cs ∧
      StartsValue c := by
  obtain ⟨c, cs, first, start⟩ := head_write v
  rw [writeItems, intercalate_cons, first, List.cons_append, List.cons_append]
  exact ⟨c, _, rfl, start⟩

theorem head_entries (e : String × JsonValue) (entries : List (String × JsonValue))
    (rest : List Char) :
    ∃ cs, ", ".toList.intercalate (writeEntries (e :: entries)) ++ rest = '"' :: cs := by
  rw [writeEntries, intercalate_cons, quote, List.cons_append, List.cons_append, List.cons_append,
    List.cons_append]
  exact ⟨_, rfl⟩

mutual

theorem readValue_write : ∀ (v : JsonValue) {fuel : Nat} {rest : List Char}, v.Exact →
    v.size ≤ fuel → EndsNumber rest →
    readValue fuel (v.write ++ rest) = some (v, rest)
  | v, 0, _, _, enough, _ => by
    cases v <;> simp [size] at enough
  | .none, fuel + 1, rest, _, _, _ => rfl
  | .bool true, fuel + 1, rest, _, _, _ => rfl
  | .bool false, fuel + 1, rest, _, _, _ => rfl
  | .int n, fuel + 1, rest, _, _, ends => by
    obtain ⟨c, cs, first, start⟩ := head_intToken n
    have read := readNumber_intToken n ends
    rw [write]
    rw [first] at read ⊢
    rw [List.cons_append] at read ⊢
    rw [readValue_number start, read]
  | .float x, fuel + 1, rest, _, _, ends => by
    obtain ⟨c, cs, first, start⟩ := head_float x
    have read := readNumber_float x ends
    rw [write]
    rw [first] at read ⊢
    rw [List.cons_append] at read ⊢
    rw [readValue_number start, read]
  | .str s, fuel + 1, rest, _, _, _ => by
    obtain ⟨body, text, read⟩ := readString_quote s rest
    rw [write, text, readValue, read, Option.map_some]
    dsimp only
    rw [String.ofList_toList]
  | .list [], fuel + 1, rest, _, _, _ => rfl
  | .list (v :: items), fuel + 1, rest, distinct, enough, _ => by
    have read : readItems fuel (", ".toList.intercalate (writeItems (v :: items)) ++ ']' :: rest) =
      some (v :: items, rest) :=
      readItems_write (v :: items) (by simp) distinct (by simpa [size] using enough)
    obtain ⟨c, cs, text, start⟩ := head_items v items (']' :: rest)
    rw [write, List.cons_append, List.append_assoc, List.singleton_append, readValue, text,
      start.skipSpace]
    rw [text] at read
    split
    next same => exact absurd (List.cons.inj same).1 (start.ne (by decide) (by decide))
    next =>
      rw [read]
      rfl
  | .dict [], fuel + 1, rest, _, _, _ => rfl
  | .dict (e :: entries), fuel + 1, rest, distinct, enough, _ => by
    have read :
      readEntries fuel (", ".toList.intercalate (writeEntries (e :: entries)) ++ '}' :: rest) =
        some (e :: entries, rest) :=
      readEntries_write (e :: entries) (by simp) distinct.2 (by simpa [size] using enough)
    obtain ⟨cs, text⟩ := head_entries e entries ('}' :: rest)
    rw [write, List.cons_append, List.append_assoc, List.singleton_append, readValue, text,
      StartsValue.skipSpace (.inr (.inl rfl))]
    rw [text] at read
    split
    next same => exact absurd (List.cons.inj same).1 (by decide)
    next =>
      rw [read, Option.map_some]
      dsimp only
      rw [Dict.entries_ofList distinct.1]

theorem readItems_write : ∀ (items : List JsonValue) {fuel : Nat} {rest : List Char}, items ≠ [] →
    ExactItems items →
    sizeItems items ≤ fuel →
      readItems fuel (", ".toList.intercalate (writeItems items) ++ ']' :: rest) =
        some (items, rest)
  | [], _, _, nonempty, _, _ => absurd rfl nonempty
  | v :: items, 0, _, _, _, enough => by simp [sizeItems] at enough
  | [v], fuel + 1, rest, _, distinct, enough => by
    have read : readValue fuel (v.write ++ ']' :: rest) = some (v, ']' :: rest) :=
      readValue_write v distinct.1 (by simp only [sizeItems] at enough; omega)
        (endsNumber_cons rfl _)
    rw [writeItems, writeItems, List.intercalate_singleton, readItems, read]
    rfl
  | v :: w :: items, fuel + 1, rest, _, distinct, enough => by
    rw [sizeItems] at enough
    have tail : readItems fuel (", ".toList.intercalate (writeItems (w :: items)) ++ ']' :: rest) =
      some (w :: items, rest) :=
      readItems_write (w :: items) (by simp) distinct.2 (by omega)
    have read :
      readValue fuel
      (v.write ++ ',' :: ' ' :: (", ".toList.intercalate (writeItems (w :: items)) ++
      ']' :: rest)) =
        some (v,
          ',' :: ' ' :: (", ".toList.intercalate (writeItems (w :: items)) ++ ']' :: rest)) :=
      readValue_write v distinct.1 (by omega) (endsNumber_cons rfl _)
    obtain ⟨c, cs, text, start⟩ := head_items w items (']' :: rest)
    have written : ", ".toList.intercalate (writeItems (v :: w :: items)) ++ ']' :: rest =
        v.write ++ ',' :: ' ' :: (", ".toList.intercalate (writeItems (w :: items)) ++
          ']' :: rest) := by
      rw [writeItems, intercalate_cons, if_neg (by simp [writeItems]), List.append_assoc,
        List.append_assoc]
      rfl
    rw [written, readItems, read]
    rw [text] at tail ⊢
    simp only [Option.bind_eq_bind, Option.bind_some,
      skipSpace_delimiter (show ',' ∈ [',', ':', ']', '}'] by decide),
      skipSpace_next start, tail, Option.map_some]

theorem readEntries_write : ∀ (entries : List (String × JsonValue)) {fuel : Nat}
    {rest : List Char}, entries ≠ [] →
    ExactEntries entries → sizeEntries entries ≤ fuel →
      readEntries fuel (", ".toList.intercalate (writeEntries entries) ++ '}' :: rest) =
        some (entries, rest)
  | [], _, _, nonempty, _, _ => absurd rfl nonempty
  | (k, v) :: entries, 0, _, _, _, enough => by simp [sizeEntries] at enough
  | [(k, v)], fuel + 1, rest, _, distinct, enough => by
    have read : readValue fuel (v.write ++ '}' :: rest) = some (v, '}' :: rest) :=
      readValue_write v distinct.1 (by simp only [sizeEntries] at enough; omega)
        (endsNumber_cons rfl _)
    rw [writeEntries, writeEntries, List.intercalate_singleton, readEntries_entry k read]
    simp only [skipSpace_delimiter (show '}' ∈ [',', ':', ']', '}'] by decide)]
  | (k, v) :: e :: entries, fuel + 1, rest, _, distinct, enough => by
    rw [sizeEntries] at enough
    have tail :
      readEntries fuel (", ".toList.intercalate (writeEntries (e :: entries)) ++ '}' :: rest) =
        some (e :: entries, rest) :=
      readEntries_write (e :: entries) (by simp) distinct.2 (by omega)
    have read :
      readValue fuel
      (v.write ++ ',' :: ' ' :: (", ".toList.intercalate (writeEntries (e :: entries)) ++
      '}' :: rest)) =
        some (v,
          ',' :: ' ' :: (", ".toList.intercalate (writeEntries (e :: entries)) ++ '}' :: rest)) :=
      readValue_write v distinct.1 (by omega) (endsNumber_cons rfl _)
    obtain ⟨cs, text⟩ := head_entries e entries ('}' :: rest)
    have written : ", ".toList.intercalate (writeEntries ((k, v) :: e :: entries)) ++ '}' :: rest =
        quote k ++ ": ".toList ++ v.write ++
          ',' :: ' ' :: (", ".toList.intercalate (writeEntries (e :: entries)) ++ '}' :: rest) := by
      rw [writeEntries, intercalate_cons, if_neg (by simp [writeEntries]), List.append_assoc]
      rfl
    rw [written, readEntries_entry k read]
    rw [text] at tail ⊢
    simp only [skipSpace_delimiter (show ',' ∈ [',', ':', ']', '}'] by decide),
      skipSpace_next (.inr (.inl rfl)), tail,
      Option.map_some]

end

/-! ## The whole text -/

mutual

theorem size_le_length : ∀ v : JsonValue, v.size ≤ v.write.length
  | .none => by decide
  | .bool b => by cases b <;> decide
  | .int n => by
    obtain ⟨c, cs, first, _⟩ := head_intToken n
    rw [size, write, first, List.length_cons]
    omega
  | .float x => by
    obtain ⟨c, cs, first, _⟩ := head_float x
    rw [size, write, first, List.length_cons]
    omega
  | .str s => by
    rw [size, write, quote, List.length_cons]
    omega
  | .list items => by
    have := sizeItems_le_length items
    rw [size, write, List.length_cons, List.length_append, List.length_singleton]
    omega
  | .dict entries => by
    have := sizeEntries_le_length entries
    rw [size, write, List.length_cons, List.length_append, List.length_singleton]
    omega

theorem sizeItems_le_length : ∀ items : List JsonValue,
    sizeItems items ≤ (", ".toList.intercalate (writeItems items)).length + 1
  | [] => by simp [sizeItems]
  | [v] => by
    have := size_le_length v
    rw [sizeItems, sizeItems, writeItems, writeItems, List.intercalate_singleton]
    omega
  | v :: w :: items => by
    have first := size_le_length v
    have rest := sizeItems_le_length (w :: items)
    rw [sizeItems, writeItems, intercalate_cons, if_neg (by simp [writeItems]), List.length_append,
      List.length_append]
    have : ", ".toList.length = 2 := rfl
    omega

theorem sizeEntries_le_length : ∀ entries : List (String × JsonValue),
    sizeEntries entries ≤ (", ".toList.intercalate (writeEntries entries)).length + 1
  | [] => by simp [sizeEntries]
  | [(k, v)] => by
    have := size_le_length v
    rw [sizeEntries, sizeEntries, writeEntries, writeEntries, List.intercalate_singleton,
      List.length_append]
    omega
  | (k, v) :: e :: entries => by
    have first := size_le_length v
    have rest := sizeEntries_le_length (e :: entries)
    rw [sizeEntries, writeEntries, intercalate_cons, if_neg (by simp [writeEntries])]
    simp only [List.length_append]
    have : ", ".toList.length = 2 := rfl
    omega

end

/-- `json.loads(json.dumps(v)) == v`. -/
theorem loads_dumps {v : JsonValue} (distinct : v.Exact) : loads v.dumps = some v := by
  obtain ⟨c, cs, first, start⟩ := head_write v
  have read : readValue (v.write.length + 1) (v.write ++ []) = some (v, []) :=
    readValue_write v distinct (by have := size_le_length v; omega) (fun c none => by cases none)
  rw [List.append_nil] at read
  rw [loads, dumps, String.toList_ofList]
  rw [first] at read ⊢
  rw [start.skipSpace, read]
  rfl

end Dexa.Lib
