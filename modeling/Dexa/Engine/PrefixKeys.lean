import Dexa.Engine.ConnectorScheduler
import Dexa.Lib.Bytes
import Dexa.Lib.Fallible

/-! # What a store key tells apart

`hash_tokens` feeds the hash the length of the prompt and four bytes a token, from which the
prompt can be read back.  The model's name goes into the key through a map of its characters
that is not injective, and no name at all goes in as the name `dexa`.
-/

namespace Dexa.Engine

open Dexa.Lib

/-- `int(t).to_bytes(4, "little", signed=True)`, as a word; others overflow. -/
def tokenWord (t : Int) : Option (BitVec (8 * 4)) :=
  if -2 ^ 31 ≤ t ∧ t < 2 ^ 31 then some (BitVec.ofInt _ t) else none

/-- The bytes that `hash_tokens` feeds to the hash; the length takes eight. -/
def hashInput (tokenIds : List Int) : Option (List UInt8) := do
  if 256 ^ 8 ≤ tokenIds.length then none
  else return littleEndian 8 tokenIds.length ++ writeWords (← tokenIds.mapM tokenWord)

/-- `hash_tokens`, the hash and its hex digest a parameter. -/
def hashTokens (blake2b : List UInt8 → String) (tokenIds : List Int) : Option String :=
  (hashInput tokenIds).map blake2b

theorem toInt_of_tokenWord {t : Int} {word : BitVec (8 * 4)} (fits : tokenWord t = some word) :
    word.toInt = t := by
  rw [tokenWord] at fits
  split at fits
  · next range =>
    obtain rfl := Option.some.inj fits
    rw [BitVec.toInt_ofInt]
    exact Int.bmod_eq_of_le (by omega) (by omega)
  · cases fits

theorem map_toInt_of_mapM {tokenIds : List Int} {words : List (BitVec (8 * 4))}
    (fit : tokenIds.mapM tokenWord = some words) :
    words.map BitVec.toInt = tokenIds := by
  induction tokenIds generalizing words with
  | nil =>
    cases fit
    rfl
  | cons t rest ih =>
    rw [List.mapM_cons] at fit
    obtain ⟨word, here, fit⟩ := Option.bind_eq_some_iff.1 fit
    obtain ⟨words', tail, same⟩ := Option.bind_eq_some_iff.1 fit
    cases same
    rw [List.map_cons, toInt_of_tokenWord here, ih tail]

/-- The prompt can be read back from what is hashed. -/
theorem hashInput_injective {t₁ t₂ : List Int} {bytes : List UInt8}
    (first : hashInput t₁ = some bytes)
    (second : hashInput t₂ = some bytes) : t₁ = t₂ := by
  have spelled : ∀ {t : List Int}, hashInput t = some bytes → t.length < 256 ^ 8 ∧
      ∃ words : List (BitVec (8 * 4)), words.map BitVec.toInt = t ∧
        bytes = littleEndian 8 t.length ++ writeWords words := by
    intro t hashed
    rw [hashInput] at hashed
    split at hashed
    · cases hashed
    · next fits =>
      obtain ⟨words, fit, made⟩ := Option.bind_eq_some_iff.1 hashed
      cases made
      exact ⟨Nat.not_le.1 fits, words, map_toInt_of_mapM fit, rfl⟩
  obtain ⟨short₁, words₁, rfl, spelled₁⟩ := spelled first
  obtain ⟨short₂, words₂, rfl, spelled₂⟩ := spelled second
  obtain ⟨lengths, words⟩ := List.append_inj (spelled₁.symm.trans spelled₂) (by simp)
  have count := congrArg fromLittleEndian lengths
  rw [fromLittleEndian_littleEndian short₁, fromLittleEndian_littleEndian short₂, List.length_map,
    List.length_map] at count
  have back := readWords_writeWords words₁ []
  rw [List.append_nil, words, count, ← List.append_nil (writeWords words₂),
    readWords_writeWords] at back
  rw [back]

/-- Four-byte tokens are hashed. -/
theorem hashTokens_isSome (blake2b : List UInt8 → String) {tokenIds : List Int}
    (fit : ∀ t ∈ tokenIds, -2 ^ 31 ≤ t ∧ t < 2 ^ 31)
    (short : tokenIds.length < 256 ^ 8) : (hashTokens blake2b tokenIds).isSome := by
  have each : ∀ t ∈ tokenIds, ∃ word, tokenWord t = some word ∧ True :=
    fun t member => ⟨_, if_pos (fit t member), trivial⟩
  obtain ⟨words, all, -⟩ := Fallible.mapM_some each
  rw [hashTokens, hashInput, if_neg (not_le.2 short), all]
  rfl

/-- What `prefix_key` puts before the digest. -/
def namespaceOf (isAlnum : Char → Bool) (modelName : Option String) : String :=
  let name := modelName.getD ""
  if name = "" then "dexa"
  else String.ofList (name.toList.map fun c => if isAlnum c || "-_.".toList.contains c then c
    else '_')

/-- `prefix_key`; `none` where a token or the length overflows. -/
def prefixKey? (blake2b : List UInt8 → String) (isAlnum : Char → Bool) (tokenIds : List Int)
    (modelName : Option String) :
    Option String := do
  let digest ← hashTokens blake2b tokenIds
  return prefixKey ⟨fun _ => digest, isAlnum⟩ tokenIds (modelName.getD "")

theorem prefixKey_eq (h : Hashing) (tokenIds : List Int) (modelName : Option String) :
    prefixKey h tokenIds (modelName.getD "") = namespaceOf h.isAlnum modelName ++ "-" ++
      h.hashTokens tokenIds := by
  rw [prefixKey, namespaceOf]
  split
  · rfl
  · rfl

/-- A separator splits a text in one way where it does not occur behind it. -/
theorem append_cons_injective {β : Type} {x : β} {a a' b b' : List β} (absent : x ∉ b)
    (absent' : x ∉ b')
    (same : a ++ x :: b = a' ++ x :: b') : a = a' ∧ b = b' := by
  have first : ∀ {b b' more : List β}, x ∉ b → x :: b = more ++ x :: b' → more = [] ∧ b = b' := by
    intro b b' more absent split
    cases more with
    | nil => exact ⟨rfl, (List.cons.inj split).2⟩
    | cons _ more =>
      rw [(List.cons.inj split).2] at absent
      exact absurd (List.mem_append_right more List.mem_cons_self) absent
  obtain ⟨more, front, back⟩ | ⟨more, front, back⟩ := List.append_eq_append_iff.1 same
  · obtain ⟨rfl, same⟩ := first absent back
    exact ⟨by rw [front, List.append_nil], same⟩
  · obtain ⟨rfl, same⟩ := first absent' back
    exact ⟨by rw [front, List.append_nil], same.symm⟩

/-- The digests are those of a hash without collisions, in hex. -/
structure HexHash (blake2b : List UInt8 → String) : Prop where
  injective : Function.Injective blake2b
  hex : ∀ bytes, ∀ c ∈ (blake2b bytes).toList, c ∈ "0123456789abcdef".toList

section Keys

variable {blake2b : List UInt8 → String} (hash : HexHash blake2b) (isAlnum : Char → Bool)
include hash

/-- A key says what the prompt is and how the model's name is spelled in keys. -/
theorem prefixKey?_injective {t₁ t₂ : List Int} {m₁ m₂ : Option String} {key : String}
    (first : prefixKey? blake2b isAlnum t₁ m₁ = some key)
    (second : prefixKey? blake2b isAlnum t₂ m₂ = some key) :
    t₁ = t₂ ∧ namespaceOf isAlnum m₁ = namespaceOf isAlnum m₂ := by
  have spelled : ∀ {t : List Int} {m : Option String}, prefixKey? blake2b isAlnum t m = some key →
      ∃ bytes, hashInput t = some bytes ∧
        (namespaceOf isAlnum m).toList ++ '-' :: (blake2b bytes).toList = key.toList := by
    intro t m made
    obtain ⟨digest, hashed, made⟩ := Option.bind_eq_some_iff.1 made
    obtain ⟨bytes, input, rfl⟩ := Option.map_eq_some_iff.1 hashed
    refine ⟨bytes, input, ?_⟩
    rw [prefixKey_eq] at made
    obtain rfl := Option.some.inj made
    simp
  have noDash : ∀ bytes, '-' ∉ (blake2b bytes).toList :=
    fun bytes member => absurd (hash.hex bytes '-' member) (by decide)
  obtain ⟨bytes₁, input₁, split₁⟩ := spelled first
  obtain ⟨bytes₂, input₂, split₂⟩ := spelled second
  obtain ⟨names, digests⟩ :=
    append_cons_injective (noDash bytes₁) (noDash bytes₂) (split₁.trans split₂.symm)
  obtain rfl := hash.injective (String.toList_inj.1 digests)
  exact ⟨hashInput_injective input₁ input₂, String.toList_inj.1 names⟩

/-- Keys with two model names tell prompts and models apart if and only if the names are spelled
    apart, or are one. -/
theorem prefixKey?_identifies_iff (m₁ m₂ : Option String) :
    (∀ t₁ t₂ key, prefixKey? blake2b isAlnum t₁ m₁ = some key →
      prefixKey? blake2b isAlnum t₂ m₂ = some key →
      t₁ = t₂ ∧ m₁.getD "" = m₂.getD "") ↔
      m₁.getD "" = m₂.getD "" ∨ namespaceOf isAlnum m₁ ≠ namespaceOf isAlnum m₂ := by
  constructor
  · intro identifies
    by_contra confused
    rw [not_or, not_not] at confused
    obtain ⟨apart, spelled⟩ := confused
    have hashed : hashTokens blake2b [] = some (blake2b (littleEndian 8 0)) := rfl
    have key :
      ∀ m, prefixKey? blake2b isAlnum [] m =
      some (namespaceOf isAlnum m ++ "-" ++ blake2b (littleEndian 8 0)) := by
      intro m
      rw [prefixKey?, hashed, Option.bind_eq_bind, Option.bind_some, prefixKey_eq]
      rfl
    exact apart (identifies [] [] _ (key m₁) (spelled ▸ key m₂)).2
  · intro told t₁ t₂ key first second
    obtain ⟨prompts, spelled⟩ := prefixKey?_injective hash isAlnum first second
    exact ⟨prompts, told.resolve_right (not_not.2 spelled)⟩

end Keys

/-- A hash without collisions: the bytes in hex. -/
def hexOf (bytes : List UInt8) : String :=
  String.ofList (bytes.flatMap fun b => ["0123456789abcdef".toList.getD (b.toNat / 16) '0',
    "0123456789abcdef".toList.getD (b.toNat % 16) '0'])

theorem high_lt (b : UInt8) : b.toNat / 16 < 16 := by
  have := b.toNat_lt
  omega

theorem hexHash_hexOf : HexHash hexOf where
  injective := by
    have digit : ∀ n < 16, "0123456789abcdef".toList.idxOf ("0123456789abcdef".toList.getD n '0') =
      n := by decide
    intro bytes bytes' same
    have chars := String.ofList_injective same
    clear same
    induction bytes generalizing bytes' with
    | nil =>
      cases bytes' with
      | nil => rfl
      | cons b' rest' => cases chars
    | cons b rest ih =>
      cases bytes' with
      | nil => cases chars
      | cons b' rest' =>
        simp only [List.flatMap_cons, List.cons_append, List.nil_append, List.cons.injEq] at chars
        obtain ⟨high, low, tail⟩ := chars
        have high := congrArg ("0123456789abcdef".toList.idxOf ·) high
        have low := congrArg ("0123456789abcdef".toList.idxOf ·) low
        simp only [digit _ (high_lt _), digit _ (Nat.mod_lt _ (by decide : 0 < 16))] at high low
        have same : b = b' := UInt8.toNat_inj.1 (by omega)
        rw [same, ih tail]
  hex := by
    have digit : ∀ n < 16, "0123456789abcdef".toList.getD n '0' ∈ "0123456789abcdef".toList := by
      decide
    intro bytes c member
    rw [hexOf, String.toList_ofList, List.mem_flatMap] at member
    obtain ⟨b, -, member⟩ := member
    have half := digit _ (high_lt b)
    have rest := digit _ (Nat.mod_lt b.toNat (by decide : 0 < 16))
    simp only [List.mem_cons, List.not_mem_nil, or_false] at member
    obtain rfl | rfl := member
    · exact half
    · exact rest

theorem prefixKey?_identifies_iff_models :
    (∀ t₁ t₂ key, prefixKey? hexOf Char.isAlphanum t₁ (some "meta/llama") = some key →
      prefixKey? hexOf Char.isAlphanum t₂ (some "mistral/7b") = some key → t₁ = t₂ ∧
        "meta/llama" = "mistral/7b") ↔
      "meta/llama" = "mistral/7b" ∨
        namespaceOf Char.isAlphanum (some "meta/llama") ≠ namespaceOf Char.isAlphanum
          (some "mistral/7b") :=
  prefixKey?_identifies_iff hexHash_hexOf Char.isAlphanum (some "meta/llama") (some "mistral/7b")

/-- Two models share a key, and a model called `dexa` shares one with no model. -/
theorem models_share_prefixKey :
    prefixKey? hexOf Char.isAlphanum [1, 2, 3] (some "org/model") =
      prefixKey? hexOf Char.isAlphanum [1, 2, 3] (some "org_model") ∧
      prefixKey? hexOf Char.isAlphanum [1, 2, 3] none = prefixKey? hexOf Char.isAlphanum [1, 2, 3]
        (some "dexa") ∧
      ¬ ∀ t₁ t₂ m₁ m₂ key, prefixKey? hexOf Char.isAlphanum t₁ m₁ = some key →
        prefixKey? hexOf Char.isAlphanum t₂ m₂ = some key →
        t₁ = t₂ ∧ m₁.getD "" = m₂.getD "" := by
  have shared : prefixKey? hexOf Char.isAlphanum [1, 2, 3] (some "org/model") =
      prefixKey? hexOf Char.isAlphanum [1, 2, 3] (some "org_model") := by decide +kernel
  refine ⟨shared, by decide +kernel, fun identifies => ?_⟩
  have made : (prefixKey? hexOf Char.isAlphanum [1, 2, 3] (some "org/model")).isSome := by
    decide +kernel
  obtain ⟨key, first⟩ := Option.isSome_iff_exists.1 made
  exact absurd (identifies _ _ _ _ key first (shared ▸ first)).2 (by decide)

end Dexa.Engine
