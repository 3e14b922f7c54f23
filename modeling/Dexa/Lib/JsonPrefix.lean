import Dexa.Lib.JsonRoundTrip

/-! # A JSON object is not a beginning of another one

What the reader has read it reads again when more text follows, except that a number may go on.  So
a beginning of the text of an object is no JSON text, unless it is all of it.
-/

namespace Dexa.Lib

theorem dropWhile_append_of_cons {α : Type*} {p : α → Bool} {s rest : List α} {c : α}
    (stops : s.dropWhile p = c :: rest)
    (more : List α) :
    (s ++ more).dropWhile p = c :: (rest ++ more) ∧ (s ++ more).takeWhile p = s.takeWhile p := by
  induction s with
  | nil => simp at stops
  | cons d s ih =>
    by_cases here : p d = true
    · rw [List.dropWhile_cons_of_pos here] at stops
      obtain ⟨dropped, taken⟩ := ih stops
      rw [List.cons_append, List.dropWhile_cons_of_pos here, List.takeWhile_cons_of_pos here,
        List.takeWhile_cons_of_pos here,
        dropped, taken]
      exact ⟨rfl, rfl⟩
    · rw [List.dropWhile_cons_of_neg here] at stops
      rw [List.cons_append, List.dropWhile_cons_of_neg here, List.takeWhile_cons_of_neg here,
        List.takeWhile_cons_of_neg here,
        ← List.cons_append, stops]
      exact ⟨rfl, rfl⟩

theorem skipSpace_more {s rest : List Char} {c : Char} (stops : skipSpace s = c :: rest)
    (more : List Char) :
    skipSpace (s ++ more) = c :: (rest ++ more) := (dropWhile_append_of_cons stops more).1

theorem skipSpace_longer {s : List Char} (nonempty : skipSpace s ≠ []) (more : List Char) :
    skipSpace (s ++ more) = skipSpace s ++ more := by
  obtain ⟨c, rest, inside⟩ := List.exists_cons_of_ne_nil nonempty
  rw [skipSpace_more inside more, inside, List.cons_append]

theorem readUnicode_more {s rest : List Char} {n : Nat} (read : readUnicode s = some (n, rest))
    (more : List Char) :
    readUnicode (s ++ more) = some (n, rest ++ more) := by
  unfold readUnicode at read
  split at read
  next a b c d tail =>
    simp only [Option.bind_eq_bind, Option.bind_eq_some_iff, Option.pure_def, Option.some.injEq,
      Prod.mk.injEq] at read
    obtain ⟨w, hw, x, hx, y, hy, z, hz, rfl, rfl⟩ := read
    simp [readUnicode, hw, hx, hy, hz]
  next => cases read

theorem readChar_more {s rest : List Char} {c : Char} (read : readChar s = some (c, rest))
    (more : List Char) :
    readChar (s ++ more) = some (c, rest ++ more) := by
  unfold readChar at read
  split at read
  next tail =>
    simp only [Option.bind_eq_bind, Option.bind_eq_some_iff] at read
    obtain ⟨⟨high, after⟩, first, read⟩ := read
    have first' := readUnicode_more first more
    simp only [List.cons_append] at first' ⊢
    rw [readChar, first']
    dsimp only [Option.bind_eq_bind, Option.bind_some] at read ⊢
    split at read
    next surrogate =>
      rw [if_pos surrogate]
      simp only [Option.bind_eq_some_iff] at read
      obtain ⟨⟨low, after'⟩, second, read⟩ := read
      rw [readUnicode_more second more]
      dsimp only [Option.bind_some] at read ⊢
      split at read
      next inRange =>
        rw [Option.some.injEq, Prod.mk.injEq] at read
        rw [if_pos inRange, read.1, read.2]
      next => cases read
    next other =>
      rw [if_neg other]
      split at read
      next => cases read
      next lone =>
        rw [Option.some.injEq, Prod.mk.injEq] at read
        rw [if_neg lone, read.1, read.2]
  next => cases read; rfl
  next => cases read; rfl
  next => cases read; rfl
  next => cases read; rfl
  next => cases read; rfl
  next => cases read; rfl
  next => cases read; rfl
  next => cases read; rfl
  next => cases read
  next plain =>
    split at read
    next printable =>
      cases read
      exact readChar_plain plain printable (rest ++ more)
    next => cases read
  next => cases read

theorem readString_close (fuel : Nat) (rest : List Char) :
    readString fuel ('"' :: rest) = some ([], rest) := by
  cases fuel <;> rfl

theorem readString_zero {s : List Char} (unclosed : ∀ rest, s ≠ '"' :: rest) :
    readString 0 s = none := by
  rw [readString.eq_def]
  split
  next rest => exact absurd rfl (unclosed rest)
  next => rfl
  next same _ => cases same

theorem readString_char {fuel : Nat} {s : List Char} (unclosed : ∀ rest, s ≠ '"' :: rest) :
    readString (fuel + 1) s =
      (readChar s).bind fun p => (readString fuel p.2).bind fun q => some (p.1 :: q.1, q.2) := by
  rw [readString.eq_def]
  split
  next rest => exact absurd rfl (unclosed rest)
  next same _ => cases same
  next same _ =>
    cases same
    rfl

theorem readString_more {fuel fuel' : Nat} {s rest cs : List Char}
    (read : readString fuel s = some (cs, rest))
    (enough : fuel ≤ fuel') (more : List Char) :
      readString fuel' (s ++ more) = some (cs, rest ++ more) := by
  induction fuel generalizing s cs fuel' with
  | zero =>
    by_cases closed : ∃ tail, s = '"' :: tail
    · obtain ⟨tail, rfl⟩ := closed
      rw [readString_close] at read
      cases read
      exact readString_close fuel' _
    · rw [readString_zero fun tail same => closed ⟨tail, same⟩] at read
      cases read
  | succ fuel ih =>
    by_cases closed : ∃ tail, s = '"' :: tail
    · obtain ⟨tail, rfl⟩ := closed
      rw [readString_close] at read
      cases read
      exact readString_close fuel' _
    · obtain ⟨fuel', rfl⟩ : ∃ k, fuel' = k + 1 := ⟨fuel' - 1, by omega⟩
      rw [readString_char fun tail same => closed ⟨tail, same⟩, Option.bind_eq_some_iff] at read
      obtain ⟨⟨c, s'⟩, first, read⟩ := read
      obtain ⟨⟨cs', s''⟩, later, same⟩ := Option.bind_eq_some_iff.1 read
      have unclosed : ∀ tail, s ++ more ≠ '"' :: tail := by
        intro tail closes
        cases s with
        | nil => cases first
        | cons d s => exact closed ⟨s, by rw [(List.cons.inj closes).1]⟩
      cases same
      rw [readString_char unclosed, readChar_more first more, Option.bind_some,
        ih later (by omega : fuel ≤ fuel'),
        Option.bind_some]

theorem readNumber_more {s rest : List Char} {c : Char} {v : JsonValue}
    (read : readNumber s = some (v, c :: rest))
    (more : List Char) : readNumber (s ++ more) = some (v, c :: (rest ++ more)) := by
  unfold readNumber at read ⊢
  have stops : s.dropWhile isNumberChar = c :: rest := by
    dsimp only at read
    split at read
    · exact (Prod.mk.inj (Option.some.inj read)).2
    · obtain ⟨n, _, same⟩ := Option.map_eq_some_iff.1 read
      exact (Prod.mk.inj same).2
  obtain ⟨dropped, taken⟩ := dropWhile_append_of_cons stops more
  dsimp only at read ⊢
  rw [stops] at read
  rw [dropped, taken]
  split at read
  next valid =>
    cases read
    rw [dif_pos valid]
  next invalid =>
    rw [dif_neg invalid]
    obtain ⟨n, token, same⟩ := Option.map_eq_some_iff.1 read
    cases same
    rw [token]
    rfl

theorem head_readNumber {s rest : List Char} {v : JsonValue}
    (read : readNumber s = some (v, rest)) :
    ∃ c cs, s = c :: cs ∧ StartsNumber c := by
  have start : ∀ token, s.takeWhile isNumberChar = token →
    (∃ c cs, token = c :: cs ∧ StartsNumber c) →
      ∃ c cs, s = c :: cs ∧ StartsNumber c := by
    rintro token taken ⟨c, cs, rfl, start⟩
    cases s with
    | nil => cases taken
    | cons d s =>
      rw [List.takeWhile_cons] at taken
      split at taken
      · obtain ⟨rfl, _⟩ := List.cons.inj taken
        exact ⟨d, s, rfl, start⟩
      · cases taken
  unfold readNumber at read
  dsimp only at read
  split at read
  next valid => exact start _ rfl (head_float ⟨_, valid⟩)
  next =>
    obtain ⟨n, token, _⟩ := Option.map_eq_some_iff.1 read
    refine start _ rfl ?_
    cases text : s.takeWhile isNumberChar with
    | nil =>
      rw [text] at token
      cases token
    | cons c cs =>
      refine ⟨c, cs, rfl, ?_⟩
      rw [text] at token
      by_cases minus : c = '-'
      · exact .inl minus
      · refine .inr ?_
        unfold intOf at token
        split at token
        next same => exact absurd (List.cons.inj same).1 minus
        next =>
          split at token
          next nat =>
            rw [isNatToken, Bool.and_eq_true, List.all_cons, Bool.and_eq_true] at nat
            exact nat.1.1
          next => cases token

theorem ne_nil_of_skipSpace {s rest : List Char} {c : Char} (next_ : skipSpace s = c :: rest) :
    s ≠ [] := by
  rintro rfl
  cases next_

section Brackets

variable {fuel : Nat} {tail : List Char}

theorem readValue_closedList {rest : List Char} (closed : skipSpace tail = ']' :: rest) :
    readValue (fuel + 1) ('[' :: tail) = some (.list [], rest) := by
  rw [readValue, closed]
  rfl

theorem readValue_openList (unclosed : ∀ rest, skipSpace tail ≠ ']' :: rest) :
    readValue (fuel + 1) ('[' :: tail) = (readItems fuel (skipSpace tail)).map
      fun p => (.list p.1, p.2) := by
  rw [readValue]
  split
  next rest closed => exact absurd closed (unclosed rest)
  next => rfl

theorem readValue_closedDict {rest : List Char} (closed : skipSpace tail = '}' :: rest) :
    readValue (fuel + 1) ('{' :: tail) = some (.dict [], rest) := by
  rw [readValue, closed]
  rfl

theorem readValue_openDict (unclosed : ∀ rest, skipSpace tail ≠ '}' :: rest) :
    readValue (fuel + 1) ('{' :: tail) =
      (readEntries fuel (skipSpace tail)).map fun p => (.dict (Dict.ofList p.1).entries, p.2) := by
  rw [readValue]
  split
  next rest closed => exact absurd closed (unclosed rest)
  next => rfl

theorem readItems_nil : readItems fuel [] = none := by
  cases fuel with
  | zero => rfl
  | succ fuel => cases fuel <;> rfl

theorem readEntries_nil : readEntries fuel [] = none := by
  cases fuel <;> rfl

/-- What stands in an open bracket still does when more follows. -/
theorem skipSpace_open {close : Char} (unclosed : ∀ rest, skipSpace tail ≠ close :: rest)
    (nonempty : skipSpace tail ≠ [])
    (more : List Char) :
    ∀ rest, skipSpace (tail ++ more) ≠ close :: rest := by
  intro rest closed
  obtain ⟨c, rest', inside⟩ := List.exists_cons_of_ne_nil nonempty
  rw [skipSpace_more inside more] at closed
  exact unclosed rest' (by rw [inside, (List.cons.inj closed).1])

end Brackets

/-- What the readers have read they read again, with more fuel, when more follows; the text of a
    number must have come to its end. -/
theorem readValue_more : ∀ (fuel : Nat),
    (∀ {fuel' : Nat} {s rest : List Char} {v : JsonValue}, readValue fuel s = some (v, rest) →
      fuel ≤ fuel' →
      (rest ≠ [] ∨ s.head? = some '{') →
        ∀ more, readValue fuel' (s ++ more) = some (v, rest ++ more)) ∧
    (∀ {fuel' : Nat} {s rest : List Char} {vs : List JsonValue},
      readItems fuel s = some (vs, rest) → fuel ≤ fuel' →
      ∀ more, readItems fuel' (s ++ more) = some (vs, rest ++ more)) ∧
    (∀ {fuel' : Nat} {s rest : List Char} {es : List (String × JsonValue)},
      readEntries fuel s = some (es, rest) →
      fuel ≤ fuel' → ∀ more, readEntries fuel' (s ++ more) = some (es, rest ++ more)) := by
  intro fuel
  induction fuel with
  | zero => exact ⟨fun read => (by cases read), fun read => (by cases read),
      fun read => (by cases read)⟩
  | succ fuel ih =>
    obtain ⟨values, items, entries⟩ := ih
    refine ⟨?_, ?_, ?_⟩
    · intro fuel' s rest v read enough ends more
      obtain ⟨fuel', rfl⟩ : ∃ k, fuel' = k + 1 := ⟨fuel' - 1, by omega⟩
      have less : fuel ≤ fuel' := by omega
      -- a string, a bracket or a word closes itself
      unfold readValue at read
      split at read
      next tail =>
        obtain ⟨⟨cs, after⟩, text, same⟩ := Option.map_eq_some_iff.1 read
        cases same
        have text' := readString_more text (by simp : tail.length ≤ (tail ++ more).length) more
        rw [List.cons_append, readValue, text']
        rfl
      next tail =>
        rw [List.cons_append]
        split at read
        next after closed =>
          cases read
          exact readValue_closedList (skipSpace_more closed more)
        next unclosed =>
          obtain ⟨⟨vs, after⟩, inner, same⟩ := Option.map_eq_some_iff.1 read
          cases same
          have nonempty : skipSpace tail ≠ [] := by
            intro empty
            rw [empty, readItems_nil] at inner
            cases inner
          rw [readValue_openList (skipSpace_open unclosed nonempty more), skipSpace_longer nonempty,
            items inner less more]
          rfl
      next tail =>
        rw [List.cons_append]
        split at read
        next after closed =>
          cases read
          exact readValue_closedDict (skipSpace_more closed more)
        next unclosed =>
          obtain ⟨⟨es, after⟩, inner, same⟩ := Option.map_eq_some_iff.1 read
          cases same
          have nonempty : skipSpace tail ≠ [] := by
            intro empty
            rw [empty, readEntries_nil] at inner
            cases inner
          rw [readValue_openDict (skipSpace_open unclosed nonempty more), skipSpace_longer nonempty,
            entries inner less more]
          rfl
      next => cases read; rfl
      next => cases read; rfl
      next => cases read; rfl
      next =>
        -- only a number goes on as long as digits follow
        obtain ⟨c, cs, rfl, start⟩ := head_readNumber read
        have open_ : rest ≠ [] := by
          cases ends with
          | inl open_ => exact open_
          | inr brace =>
            cases brace
            cases start with
            | inl minus => cases minus
            | inr digit => cases digit
        obtain ⟨d, rest, rfl⟩ := List.exists_cons_of_ne_nil open_
        have read' := readNumber_more read more
        rw [List.cons_append] at read' ⊢
        rw [readValue_number start, read']
        rfl
    · intro fuel' s rest vs read enough more
      obtain ⟨fuel', rfl⟩ : ∃ k, fuel' = k + 1 := ⟨fuel' - 1, by omega⟩
      have less : fuel ≤ fuel' := by omega
      rw [readItems] at read ⊢
      obtain ⟨⟨v, after⟩, first, read⟩ := Option.bind_eq_some_iff.1 read
      dsimp only at read
      split at read
      next tail next_ =>
        cases read
        -- after an item stands a bracket or a comma, so its text has come to its end
        rw [values first less (.inl (ne_nil_of_skipSpace next_)) more, Option.bind_eq_bind,
          Option.bind_some]
        dsimp only
        rw [skipSpace_more next_ more]
        rfl
      next tail next_ =>
        obtain ⟨⟨vs', after'⟩, inner, same⟩ := Option.map_eq_some_iff.1 read
        cases same
        have nonempty : skipSpace tail ≠ [] := by
          intro empty
          rw [empty, readItems_nil] at inner
          cases inner
        rw [values first less (.inl (ne_nil_of_skipSpace next_)) more, Option.bind_eq_bind,
          Option.bind_some]
        dsimp only
        rw [skipSpace_more next_ more]
        simp only [skipSpace_longer nonempty, items inner less more, Option.map_some]
      next => cases read
    · intro fuel' s rest es read enough more
      obtain ⟨fuel', rfl⟩ : ∃ k, fuel' = k + 1 := ⟨fuel' - 1, by omega⟩
      have less : fuel ≤ fuel' := by omega
      unfold readEntries at read
      split at read
      next tail =>
        obtain ⟨⟨k, afterKey⟩, key, read⟩ := Option.bind_eq_some_iff.1 read
        dsimp only at read
        split at read
        next colon next_ =>
          obtain ⟨⟨v, after⟩, first, read⟩ := Option.bind_eq_some_iff.1 read
          have key' := readString_more key (by simp : tail.length ≤ (tail ++ more).length) more
          dsimp only at first read
          have inside : skipSpace colon ≠ [] := by
            intro empty
            rw [empty] at first
            cases fuel <;> cases first
          rw [List.cons_append, readEntries, key', Option.bind_eq_bind, Option.bind_some]
          dsimp only
          rw [skipSpace_more next_ more]
          simp only [skipSpace_longer inside]
          split at read
          next tail' next' =>
            cases read
            rw [values first less (.inl (ne_nil_of_skipSpace next')) more, Option.bind_eq_bind,
              Option.bind_some]
            dsimp only
            rw [skipSpace_more next' more]
            rfl
          next tail' next' =>
            obtain ⟨⟨es', after'⟩, inner, same⟩ := Option.map_eq_some_iff.1 read
            cases same
            have nonempty : skipSpace tail' ≠ [] := by
              intro empty
              rw [empty, readEntries_nil] at inner
              cases inner
            rw [values first less (.inl (ne_nil_of_skipSpace next')) more, Option.bind_eq_bind,
              Option.bind_some]
            dsimp only
            rw [skipSpace_more next' more]
            simp only [skipSpace_longer nonempty, entries inner less more, Option.map_some]
          next => cases read
        next => cases read
      next => cases read

/-! ## The whole text -/

/-- A beginning of the text of an object is no JSON text. -/
theorem loads_beginning {entries : List (String × JsonValue)}
    (distinct : (JsonValue.dict entries).Exact) {p tail : List Char}
    (split : (JsonValue.dict entries).write = p ++ tail) (proper : tail ≠ []) :
      JsonValue.loads (String.ofList p) = none := by
  cases p with
  | nil => rfl
  | cons c p =>
    have brace : c = '{' := by
      rw [JsonValue.write, List.cons_append] at split
      exact (List.cons.inj split).1.symm
    subst brace
    have start : skipSpace ('{' :: p) = '{' :: p := skipSpace_of_head p (by decide)
    rw [JsonValue.loads, String.toList_ofList, start]
    cases read : readValue (('{' :: p).length + 1) ('{' :: p) with
    | none => rfl
    | some got =>
      obtain ⟨v, rest⟩ := got
      have size := size_le_length (.dict entries)
      have whole :
        readValue ((JsonValue.dict entries).write.length + 1)
        ((JsonValue.dict entries).write ++ []) =
          some (.dict entries, []) :=
        readValue_write _ distinct (by omega) fun c none => by cases none
      have again : readValue ((JsonValue.dict entries).write.length + 1) ('{' :: p ++ tail) =
        some (v, rest ++ tail) :=
        (readValue_more _).1 read (by rw [split]; simp) (.inr rfl) tail
      rw [List.append_nil, split] at whole
      rw [split, whole, Option.some.injEq, Prod.mk.injEq] at again
      exact absurd (List.append_eq_nil_iff.1 again.2.symm).2 proper

end Dexa.Lib
