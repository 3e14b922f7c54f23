import Dexa.Lib.Dict
import Dexa.Lib.Machine
import Mathlib.Data.List.Dedup
import Mathlib.Data.List.Sort
import Mathlib.Data.String.Basic

/-! # The session store (`dexa/session/store.py`)

A directory with one file per session and format.  Any number of store objects, each with
its own format, work on one directory; an operation names the object's format.  What the
two formats write and read is a `Codec`, and where the operating system takes a path
relative to the directory is a parameter (`none` if there is no such place).
-/

namespace Dexa.Session

open Dexa.Lib

inductive Format where
  | npz
  | blob
  deriving DecidableEq, Repr

/-- `_SUFFIX[format]`. -/
def Format.suffix : Format → String
  | .npz => ".npz"
  | .blob => ".dexakv"

/-- What the two formats make of a KV `κ` and the options `ω` of its save.  Loading gives the
    KV that the storage precision keeps, and the same from both. -/
structure Codec (ω κ β : Type) where
  /-- `none`: the save raises before it opens the file -/
  save : Format → ω → κ → Option β
  load : Format → β → Option κ
  kept : ω → κ → κ
  load_save : ∀ f options kv bytes, save f options kv = some bytes →
    load f bytes = some (kept options kv)

inductive Location where
  /-- a file of the directory -/
  | inRoot (name : String)
  | elsewhere (path : String)
  deriving DecidableEq, Repr

abbrev Paths := String → Option Location

abbrev Files (β : Type) := Dict Location β

/-- `path.name`. -/
def nameOf (path : String) : List Char := (path.toList.reverse.takeWhile (· ≠ '/')).reverse

/-- `path.suffix`: from the last dot on, unless the name starts or ends with it. -/
def suffixOf (path : String) : String :=
  let name := nameOf path
  let ext := (name.reverse.takeWhile (· ≠ '.')).reverse
  if ext.length + 1 < name.length ∧ ext ≠ [] then String.ofList ('.' :: ext) else ""

inductive Op (ω κ : Type) where
  | save (f : Format) (options : ω) (id : String) (kv : κ)
  | load (f : Format) (id : String)
  | has (f : Format) (id : String)
  | delete (f : Format) (id : String)
  | listIds (f : Format)

/-- The session id that an operation names. -/
def Op.id? {ω κ : Type} : Op ω κ → Option String
  | .save _ _ id _ | .load _ id | .has _ id | .delete _ id => some id
  | .listIds _ => none

inductive Reply (κ : Type) where
  | saved
  | loaded (kv : κ)
  | present (found : Bool)
  | deleted
  | ids (ids : List String)
  /-- `FileNotFoundError` of `load` -/
  | notFound
  | raised
  deriving DecidableEq

/-- `sorted` of a set. -/
def sortedSet (ids : List String) : List String := ids.dedup.mergeSort fun a b => a ≤ b

section Operations

variable {ω κ β : Type} (codec : Codec ω κ β) (locate : Paths)

/-- `self.root / f"{session_id}{suffix}"`. -/
def candidate (id : String) (f : Format) : String := id ++ f.suffix

/-- The path a save writes to: `save_kvcache` and `save_kvcache_blob` append their suffix to
    a path that does not have it. -/
def savedPath (id : String) (f : Format) : String :=
  if suffixOf (candidate id f) ≠ f.suffix then candidate id f ++ f.suffix else candidate id f

def readFile (files : Files β) (path : String) : Option β := (locate path).bind files.get?

/-- `_resolve`, with the file's contents. -/
def resolve (files : Files β) (f : Format) (id : String) : Option (String × β) :=
  [f, .npz, .blob].findSome? fun f => (readFile locate files (candidate id f)).map
    (candidate id f, ·)

def unlink (files : Files β) (path : String) : Files β := (locate path).elim files files.erase

/-- The id of a file that matches `*{suffix}`. -/
def idOf (suffix : String) : Location → Option String
  | .inRoot name =>
    if suffix.toList <:+ name.toList then
      some (String.ofList (name.toList.take (name.toList.length - suffix.toList.length)))
    else none
  | .elsewhere _ => none

def listIds (files : Files β) : List String :=
  sortedSet ([Format.npz, .blob].flatMap fun f => files.keys.filterMap (idOf f.suffix))

def step (files : Files β) : Op ω κ → Reply κ × Files β
  | .save f options id kv =>
    match codec.save f options kv, locate (savedPath id f) with
    | some bytes, some place => (.saved, files.set place bytes)
    | _, _ => (.raised, files)
  | .load f id =>
    match resolve locate files f id with
    | none => (.notFound, files)
    | some (path, bytes) =>
      -- by the suffix of the file that was found, not by the object's format
      match codec.load (if suffixOf path = ".dexakv" then .blob else .npz) bytes with
      | none => (.raised, files)
      | some kv => (.loaded kv, files)
  | .has f id => (.present (resolve locate files f id).isSome, files)
  | .delete _ id => (.deleted, unlink locate (unlink locate files (candidate id .npz))
      (candidate id .blob))
  | .listIds _ => (.ids (listIds files), files)

/-- All store objects on one directory. -/
def sessionStore : Machine (Files β) (Op ω κ) (Reply κ) := ⟨step codec locate⟩

end Operations

theorem takeWhile_reverse_append {p : Char → Bool} (a : List Char) {b : List Char}
    (pass : b.all p = true) :
    (a ++ b).reverse.takeWhile p = b.reverse ++ a.reverse.takeWhile p := by
  rw [List.reverse_append, List.takeWhile_append_of_pos]
  exact fun c member => List.all_eq_true.1 pass c (List.mem_reverse.1 member)

theorem nameOf_candidate (id : String) (f : Format) :
    nameOf (candidate id f) = nameOf id ++ f.suffix.toList := by
  have pass : f.suffix.toList.all (· ≠ '/') = true := by
    cases f with
    | npz => decide
    | blob => decide
  rw [nameOf, candidate, String.toList_append, takeWhile_reverse_append _ pass, List.reverse_append,
    List.reverse_reverse, nameOf]

/-- A candidate has the suffix of its format, if the id has a name to put it on. -/
theorem suffixOf_candidate {id : String} (named : nameOf id ≠ []) (f : Format) :
    suffixOf (candidate id f) = f.suffix := by
  obtain ⟨ext, split, pass, some⟩ : ∃ ext : List Char, f.suffix.toList = '.' :: ext ∧
      ext.all (· ≠ '.') = true ∧ ext ≠ [] := by
    cases f with
    | npz => exact ⟨"npz".toList, rfl, by decide, by decide⟩
    | blob => exact ⟨"dexakv".toList, rfl, by decide, by decide⟩
  have last : ((nameOf (candidate id f)).reverse.takeWhile (· ≠ '.')).reverse = ext := by
    rw [nameOf_candidate, split, List.append_cons, takeWhile_reverse_append _ pass]
    simp
  have long : ext.length + 1 < (nameOf (candidate id f)).length := by
    have first := List.length_pos_iff.2 named
    rw [nameOf_candidate, split, List.length_append, List.length_cons]
    omega
  simp only [suffixOf, last]
  rw [if_pos ⟨long, some⟩, ← split, String.ofList_toList]

theorem savedPath_eq {id : String} (named : nameOf id ≠ []) (f : Format) :
    savedPath id f = candidate id f := by
  rw [savedPath, if_neg]
  exact not_not.2 (suffixOf_candidate named f)

theorem suffixOf_candidate_eq_dexakv {id : String} (named : nameOf id ≠ []) (f : Format) :
    (if suffixOf (candidate id f) = ".dexakv" then Format.blob else .npz) = f := by
  rw [suffixOf_candidate named]
  cases f with
  | npz => decide
  | blob => decide

theorem idOf_eq_some {suffix : String} {place : Location} {id : String} :
    idOf suffix place = some id ↔ place = .inRoot (id ++ suffix) := by
  cases place with
  | elsewhere path => simp [idOf]
  | inRoot name =>
    rw [idOf, Location.inRoot.injEq]
    constructor
    · intro found
      split at found
      next ends =>
        obtain ⟨front, split⟩ := ends
        rw [← split, List.length_append, Nat.add_sub_cancel, List.take_left,
          Option.some.injEq] at found
        rw [← String.toList_inj, String.toList_append, ← found, String.toList_ofList, split]
      next => cases found
    · rintro rfl
      rw [String.toList_append, if_pos (List.suffix_append ..), List.length_append,
        Nat.add_sub_cancel, List.take_left,
        String.ofList_toList]

theorem mem_sortedSet {ids : List String} {id : String} : id ∈ sortedSet ids ↔ id ∈ ids := by
  rw [sortedSet, List.mem_mergeSort, List.mem_dedup]

theorem sortedSet_eq_iff {ids ids' : List String} : sortedSet ids = sortedSet ids' ↔
    ∀ id, id ∈ ids ↔ id ∈ ids' := by
  constructor
  · intro same id
    rw [← mem_sortedSet, same, mem_sortedSet]
  · intro same
    have sorted : ∀ ids, (sortedSet ids).Pairwise (· ≤ ·) := by
      intro ids
      have pairs := @List.pairwise_mergeSort _ (fun a b : String => decide (a ≤ b))
        (fun a b c h h' => decide_eq_true ((of_decide_eq_true h).trans (of_decide_eq_true h')))
        (fun a b => by simpa using le_total a b) ids.dedup
      exact pairs.imp of_decide_eq_true
    have perm : (sortedSet ids).Perm (sortedSet ids') := by
      refine ((List.mergeSort_perm ..).trans ?_).trans (List.mergeSort_perm ..).symm
      rw [List.perm_ext_iff_of_nodup (List.nodup_dedup _) (List.nodup_dedup _)]
      simpa using same
    exact perm.eq_of_pairwise' (sorted ids) (sorted ids')

end Dexa.Session
