import Dexa.Session.Store
import Mathlib.Data.List.Induction

/-! # The session store as a map

`sessionMap` is the store as it is meant, a map from session ids to KVs.  The directory
refines it only as far as no file of another format hides the last save, and no session that
is listed lies in a subdirectory.
-/

namespace Dexa.Session

open Dexa.Lib

section History

variable {ω κ β : Type} (codec : Codec ω κ β)

def mapStep (m : Dict String κ) : Op ω κ → Reply κ × Dict String κ
  | .save f options id kv =>
    match codec.save f options kv with
    | none => (.raised, m)
    | some _ => (.saved, m.set id (codec.kept options kv))
  | .load _ id => ((m.get? id).elim .notFound .loaded, m)
  | .has _ id => (.present (m.contains id), m)
  | .delete _ id => (.deleted, m.erase id)
  | .listIds _ => (.ids (sortedSet m.keys), m)

def sessionMap : Machine (Dict String κ) (Op ω κ) (Reply κ) := ⟨mapStep codec⟩

/-! ## The history of an id -/

/-- What an operation makes of the last save of `id` in the formats `among`. -/
def saves (among : Format → Bool) (id : String) (last : Option κ) : Op ω κ → Option κ
  | .save f options id' kv =>
    if id' = id ∧ among f = true ∧ (codec.save f options kv).isSome then some
      (codec.kept options kv) else last
  | .delete _ id' => if id' = id then none else last
  | .load _ _ | .has _ _ | .listIds _ => last

/-- The KV that the last save of `id` in the formats `among` kept, since its last delete. -/
def lastSaved (among : Format → Bool) (id : String) (past : List (Op ω κ)) : Option κ :=
  past.foldl (saves codec among id) none

def anyFormat : Format → Bool := fun _ => true

/-- The condition under which the store answers an operation as the map does. -/
def Faithful (past : List (Op ω κ)) : Op ω κ → Prop
  | .load f id => ∀ kv, lastSaved codec (· = f) id past = some kv → lastSaved codec anyFormat id past = some kv
  | .listIds _ => ∀ id, lastSaved codec anyFormat id past ≠ none → '/' ∉ id.toList
  | .save _ _ _ _ | .has _ _ | .delete _ _ => True

variable {codec}

theorem lastSaved_snoc (among : Format → Bool) (id : String) (past : List (Op ω κ)) (op : Op ω κ) :
    lastSaved codec among id (past ++ [op]) = saves codec among id
      (lastSaved codec among id past) op := by
  rw [lastSaved, List.foldl_append]
  rfl

/-- A save in one format is a save. -/
theorem lastSaved_anyFormat {f : Format} {id : String} {past : List (Op ω κ)}
    (some : lastSaved codec (· = f) id past ≠ none) : lastSaved codec anyFormat id past ≠ none := by
  induction past using List.reverseRecOn with
  | nil => exact some
  | append_singleton past op ih =>
    rw [lastSaved_snoc] at some ⊢
    cases op with
    | save f' options id' kv =>
      rw [saves] at some ⊢
      split at some
      next own => simp [anyFormat, own.1, own.2.2]
      next =>
        split
        next => exact Option.some_ne_none _
        next => exact ih some
    | delete f' id' =>
      rw [saves] at some ⊢
      split at some
      next => exact absurd rfl some
      next other =>
        rw [if_neg other]
        exact ih some
    | load f' id' => exact ih some
    | has f' id' => exact ih some
    | listIds f' => exact ih some

/-- With no save in format `f`, the last save is the last one in the other format. -/
theorem lastSaved_other {f g : Format} (other : g ≠ f) {id : String} {past : List (Op ω κ)}
    (none : lastSaved codec (· = f) id past = none) :
    lastSaved codec (· = g) id past = lastSaved codec anyFormat id past := by
  induction past using List.reverseRecOn with
  | nil => rfl
  | append_singleton past op ih =>
    rw [lastSaved_snoc] at none
    rw [lastSaved_snoc, lastSaved_snoc]
    cases op with
    | save f' options id' kv =>
      rw [saves] at none
      split at none
      next => cases none
      next skipped =>
        by_cases own : id' = id ∧ (codec.save f' options kv).isSome
        · -- not in format `f`, so in `g`
          have here : f' = g := by
            have : f' ≠ f := fun same => skipped ⟨own.1, decide_eq_true same, own.2⟩
            cases f <;> cases g <;> cases f' <;> first | rfl | contradiction
          simp [saves, anyFormat, own.1, here, here ▸ own.2]
        · rw [saves, saves, if_neg fun h => own ⟨h.1, h.2.2⟩, if_neg fun h => own ⟨h.1, h.2.2⟩,
            ih none]
    | delete f' id' =>
      rw [saves] at none
      rw [saves, saves]
      split
      next => rfl
      next other' =>
        rw [if_neg other'] at none
        exact ih none
    | load f' id' => exact ih none
    | has f' id' => exact ih none
    | listIds f' => exact ih none

/-- Only an operation on `id` saves it. -/
theorem id?_of_saves {among : Format → Bool} {id : String} {last : Option κ} {op : Op ω κ}
    (some : saves codec among id last op ≠ none) : op.id? = .some id ∨ last ≠ none := by
  cases op with
  | save f options id' kv =>
    rw [saves] at some
    split at some
    next own => exact .inl (congrArg Option.some own.1)
    next => exact .inr some
  | delete f id' =>
    rw [saves] at some
    split at some
    next => exact absurd rfl some
    next => exact .inr some
  | load f id' => exact .inr some
  | has f id' => exact .inr some
  | listIds f => exact .inr some

theorem get?_mapStep (op : Op ω κ) (m : Dict String κ) (id : String) :
    ((sessionMap codec).next m op).get? id = saves codec anyFormat id (m.get? id) op := by
  rw [sessionMap, Machine.next, saves.eq_def]
  cases op with
  | save f options id' kv =>
    simp only [mapStep]
    cases codec.save f options kv with
    | none => simp
    | some bytes => simp [Dict.get?_set, anyFormat]
  | delete f id' => exact m.get?_erase id' id
  | load f id' => rfl
  | has f id' => rfl
  | listIds f => rfl

end History

/-! ## The files of a run -/

section Refinement

variable {ω κ β : Type} {codec : Codec ω κ β} {locate : Paths}

theorem candidate_inj {id id' : String} {f f' : Format} (same : candidate id f = candidate id' f') :
    id = id' ∧ f = f' := by
  have chars : id.toList ++ f.suffix.toList = id'.toList ++ f'.suffix.toList := by
    rw [← String.toList_append, ← String.toList_append]
    exact congrArg String.toList same
  have format : f = f' := by
    have last := congrArg List.getLast? chars
    cases f <;> cases f' <;> first | rfl | simp [Format.suffix] at last
  subst format
  exact ⟨String.toList_inj.1 (List.append_cancel_right chars), rfl⟩

/-- The ids name files, no two of them the same: those without a slash files of the
    directory, under their own names. -/
structure Names (locate : Paths) (ids : List String) : Prop where
  named : ∀ id ∈ ids, nameOf id ≠ []
  place : ∀ id ∈ ids, ∀ f, ∃ place, locate (candidate id f) = some place
  apart : ∀ id ∈ ids, ∀ id' ∈ ids, ∀ f f', locate (candidate id f) = locate (candidate id' f') →
    id = id' ∧ f = f'
  root : ∀ id ∈ ids, ∀ f name, locate (candidate id f) = some (.inRoot name) ↔ '/' ∉ id.toList ∧
    name = candidate id f

section Files

variable {ids : List String} (names : Names locate ids) {id id' : String} (known : id ∈ ids)
  (known' : id' ∈ ids)
include names known known'

theorem readFile_set {f f' : Format} {place : Location}
    (here : locate (candidate id f) = some place) (files : Files β)
    (bytes : β) : readFile locate (files.set place bytes) (candidate id' f') =
      if id = id' ∧ f = f' then some bytes else readFile locate files (candidate id' f') := by
  obtain ⟨place', there⟩ := names.place id' known' f'
  rw [readFile, readFile, there, Option.bind_some, Option.bind_some, Dict.get?_set]
  by_cases same : place = place'
  · rw [if_pos same, if_pos (names.apart id known id' known' f f' (by rw [here, there, same]))]
  · rw [if_neg same, if_neg]
    rintro ⟨rfl, rfl⟩
    exact same (Option.some.inj (here.symm.trans there))

theorem readFile_unlink (f f' : Format) (files : Files β) :
    readFile locate (unlink locate files (candidate id f)) (candidate id' f') =
      if id = id' ∧ f = f' then none else readFile locate files (candidate id' f') := by
  obtain ⟨place, here⟩ := names.place id known f
  obtain ⟨place', there⟩ := names.place id' known' f'
  rw [unlink, here, Option.elim_some, readFile, readFile, there, Option.bind_some, Option.bind_some,
    Dict.get?_erase]
  by_cases same : place = place'
  · rw [if_pos same, if_pos (names.apart id known id' known' f f' (by rw [here, there, same]))]
  · rw [if_neg same, if_neg]
    rintro ⟨rfl, rfl⟩
    exact same (Option.some.inj (here.symm.trans there))

end Files

theorem next_load (files : Files β) (f : Format) (id : String) :
    (sessionStore codec locate).next files (.load f id) = files := by
  rw [sessionStore, Machine.next]
  dsimp only [step]
  split
  next => rfl
  next => split <;> rfl

theorem keys_unlink {files : Files β} {path : String} {place : Location}
    (member : place ∈ (unlink locate files path).keys) :
    place ∈ files.keys := by
  rw [unlink] at member
  cases located : locate path with
  | none => rwa [located] at member
  | some gone =>
    rw [located, Option.elim_some, Dict.mem_keys_iff] at member
    obtain ⟨bytes, held⟩ := member
    rw [Dict.get?_erase] at held
    split at held
    next => cases held
    next => exact Dict.mem_keys_iff.2 ⟨bytes, held⟩

/-- Only a save makes a file. -/
theorem place_of_next {files : Files β} {op : Op ω κ} {place : Location}
    (member : place ∈ ((sessionStore codec locate).next files op).keys) :
    place ∈ files.keys ∨ ∃ id, op.id? = some id ∧ ∃ f, locate (savedPath id f) = some place := by
  cases op with
  | save f options id kv =>
    simp only [sessionStore, Machine.next, step] at member
    split at member
    next bytes place' _ located =>
      obtain ⟨bytes', held⟩ := Dict.mem_keys_iff.1 member
      rw [Dict.get?_set] at held
      split at held
      next same => exact .inr ⟨id, rfl, f, same ▸ located⟩
      next => exact .inl (Dict.mem_keys_iff.2 ⟨bytes', held⟩)
    next => exact .inl member
  | delete f id => exact .inl (keys_unlink (keys_unlink member))
  | load f id => exact .inl (next_load files f id ▸ member)
  | has f id => exact .inl member
  | listIds f => exact .inl member

/-- The directory holds, in each format, the last save of each id, and nothing else; the map
    holds the last save. -/
structure Tracks (codec : Codec ω κ β) (locate : Paths) (ids : List String) (past : List (Op ω κ))
    (files : Files β)
    (m : Dict String κ) : Prop where
  file : ∀ id ∈ ids, ∀ f,
    (readFile locate files (candidate id f)).map (codec.load f) =
      (lastSaved codec (· = f) id past).map some
  only : ∀ place ∈ files.keys, ∃ id ∈ ids, ∃ f, locate (candidate id f) = some place
  get? : ∀ id, m.get? id = lastSaved codec anyFormat id past
  known : ∀ id ∈ m.keys, id ∈ ids

namespace Tracks

variable {ids : List String} {past : List (Op ω κ)} {files : Files β} {m : Dict String κ}

theorem start (ids : List String) : Tracks codec locate ids [] .empty .empty where
  file id _ f := by cases h : locate (candidate id f) <;> simp [readFile, lastSaved, h]
  only := by simp [Dict.keys, Dict.empty]
  get? _ := rfl
  known := by simp [Dict.keys, Dict.empty]

section Reading

variable (tracks : Tracks codec locate ids past files m) {id : String} (known : id ∈ ids)
include tracks known

theorem read_some {f : Format} {kv : κ} (saved : lastSaved codec (· = f) id past = some kv) :
    ∃ bytes, readFile locate files (candidate id f) = some bytes ∧
      codec.load f bytes = some kv := by
  have file := tracks.file id known f
  rw [saved, Option.map_some, Option.map_eq_some_iff] at file
  exact file

theorem read_none {f : Format} (unsaved : lastSaved codec (· = f) id past = none) :
    readFile locate files (candidate id f) = none := by
  have file := tracks.file id known f
  rwa [unsaved, Option.map_none, Option.map_eq_none_iff] at file

/-- A file of the object's own format is found first. -/
theorem resolve_own {f : Format} {kv : κ} (saved : lastSaved codec (· = f) id past = some kv) :
    ∃ bytes, resolve locate files f id = some (candidate id f, bytes) ∧
      codec.load f bytes = some kv := by
  obtain ⟨bytes, read, loads⟩ := tracks.read_some known saved
  exact ⟨bytes, by simp [resolve, read], loads⟩

theorem resolve_other {f : Format} {kv : κ} (unsaved : lastSaved codec (· = f) id past = none)
    (last : lastSaved codec anyFormat id past = some kv) :
    ∃ g bytes, resolve locate files f id = some (candidate id g, bytes) ∧
      codec.load g bytes = some kv := by
  obtain ⟨g, other⟩ : ∃ g : Format, g ≠ f := by
    cases f with
    | npz => exact ⟨.blob, by decide⟩
    | blob => exact ⟨.npz, by decide⟩
  rw [← lastSaved_other other unsaved] at last
  obtain ⟨bytes, read, loads⟩ := tracks.read_some known last
  have own := tracks.read_none known unsaved
  refine ⟨g, bytes, ?_, loads⟩
  cases f with
  | npz =>
    cases g with
    | npz => exact absurd rfl other
    | blob => simp [resolve, own, read]
  | blob =>
    cases g with
    | npz => simp [resolve, own, read]
    | blob => exact absurd rfl other

theorem resolve_none {f : Format} (unsaved : lastSaved codec anyFormat id past = none) :
    resolve locate files f id = none := by
  have unread : ∀ g, readFile locate files (candidate id g) = none := by
    intro g
    refine tracks.read_none known ?_
    by_contra some
    exact lastSaved_anyFormat some unsaved
  simp [resolve, unread]

theorem resolve_isSome (f : Format) : (resolve locate files f id).isSome = m.contains id := by
  rw [Dict.contains, tracks.get?]
  cases last : lastSaved codec anyFormat id past with
  | none =>
    rw [tracks.resolve_none known last]
    rfl
  | some kv =>
    cases own : lastSaved codec (· = f) id past with
    | none =>
      obtain ⟨_, _, found, _⟩ := tracks.resolve_other known own last
      rw [found]
      rfl
    | some kv' =>
      obtain ⟨_, found, _⟩ := tracks.resolve_own known own
      rw [found]
      rfl

end Reading

/-- The directory lists the ids whose files lie in it. -/
theorem mem_listIds (tracks : Tracks codec locate ids past files m) (names : Names locate ids)
    (id : String) :
    id ∈ ([Format.npz, .blob].flatMap fun f => files.keys.filterMap (idOf f.suffix)) ↔ id ∈ m.keys ∧
      '/' ∉ id.toList := by
  have listed : id ∈ ([Format.npz, .blob].flatMap fun f => files.keys.filterMap (idOf f.suffix)) ↔
      ∃ f, Location.inRoot (candidate id f) ∈ files.keys := by
    simp only [List.mem_flatMap, List.mem_filterMap, idOf_eq_some, candidate, exists_eq_right]
    exact exists_congr fun f => and_iff_right (by cases f <;> simp)
  rw [listed, Dict.mem_keys_iff, tracks.get?]
  constructor
  · rintro ⟨f, file⟩
    obtain ⟨id', known, f', place⟩ := tracks.only _ file
    obtain ⟨noSlash, same⟩ := (names.root id' known f' _).1 place
    obtain ⟨rfl, rfl⟩ := candidate_inj same
    refine ⟨Option.ne_none_iff_exists'.1 (lastSaved_anyFormat (f := f) fun unsaved => ?_), noSlash⟩
    obtain ⟨bytes, held⟩ := Dict.mem_keys_iff.1 file
    have unread := tracks.read_none known unsaved
    rw [readFile, place, Option.bind_some, held] at unread
    cases unread
  · rintro ⟨⟨kv, last⟩, noSlash⟩
    have known : id ∈ ids := tracks.known id (Dict.mem_keys_iff.2 ⟨kv, by rw [tracks.get?, last]⟩)
    obtain ⟨f, bytes, found⟩ : ∃ f bytes, readFile locate files (candidate id f) = some bytes := by
      cases own : lastSaved codec (· = Format.npz) id past with
      | some kv' =>
        obtain ⟨bytes, read, _⟩ := tracks.read_some known own
        exact ⟨.npz, bytes, read⟩
      | none =>
        rw [← lastSaved_other (g := .blob) (by decide) own] at last
        obtain ⟨bytes, read, _⟩ := tracks.read_some known last
        exact ⟨.blob, bytes, read⟩
    refine ⟨f, Dict.mem_keys_iff.2 ⟨bytes, ?_⟩⟩
    rwa [readFile, (names.root id known f _).2 ⟨noSlash, rfl⟩, Option.bind_some] at found

/-! One operation: the answers are the same exactly when it is faithful. -/

theorem out_iff (tracks : Tracks codec locate ids past files m) (names : Names locate ids)
    {op : Op ω κ}
    (known : ∀ id ∈ op.id?, id ∈ ids) :
    (sessionStore codec locate).out files op = (sessionMap codec).out m op ↔
      Faithful codec past op := by
  cases op with
  | save f options id kv =>
    have here := known id rfl
    obtain ⟨place, located⟩ := names.place id here f
    simp only [sessionStore, sessionMap, Machine.out, step, mapStep, Faithful, iff_true,
      savedPath_eq (names.named id here), located]
    cases codec.save f options kv with
    | none => rfl
    | some bytes => rfl
  | load f id =>
    have here := known id rfl
    simp only [sessionStore, sessionMap, Machine.out, step, mapStep, Faithful, tracks.get?]
    cases own : lastSaved codec (· = f) id past with
    | some kv =>
      obtain ⟨bytes, found, loads⟩ := tracks.resolve_own here own
      obtain ⟨last, some⟩ :=
        Option.ne_none_iff_exists'.1 (lastSaved_anyFormat (own ▸ Option.some_ne_none kv))
      simp [found, suffixOf_candidate_eq_dexakv (names.named id here), loads, some]
      exact eq_comm
    | none =>
      cases last : lastSaved codec anyFormat id past with
      | none => simp [tracks.resolve_none here last]
      | some kv =>
        obtain ⟨g, bytes, found, loads⟩ := tracks.resolve_other here own last
        simp [found, suffixOf_candidate_eq_dexakv (names.named id here), loads]
  | has f id =>
    simp only [sessionStore, sessionMap, Machine.out, step, mapStep, Faithful,
      tracks.resolve_isSome (known id rfl)]
  | delete f id => simp only [sessionStore, sessionMap, Machine.out, step, mapStep, Faithful]
  | listIds f =>
    simp only [sessionStore, sessionMap, Machine.out, step, mapStep, Faithful, Reply.ids.injEq,
      listIds, sortedSet_eq_iff,
      tracks.mem_listIds names, and_iff_left_iff_imp, Dict.mem_keys_iff, tracks.get?,
        Option.ne_none_iff_exists']

theorem next (tracks : Tracks codec locate ids past files m) (names : Names locate ids)
    {op : Op ω κ}
    (known : ∀ id ∈ op.id?, id ∈ ids) :
    Tracks codec locate ids (past ++ [op]) ((sessionStore codec locate).next files op)
      ((sessionMap codec).next m op) where
  get? id := by rw [get?_mapStep, tracks.get?, lastSaved_snoc]
  known id member := by
    obtain ⟨kv, found⟩ := Dict.mem_keys_iff.1 member
    rw [get?_mapStep] at found
    cases id?_of_saves (Option.ne_none_iff_exists'.2 ⟨kv, found⟩) with
    | inl own => exact known id own
    | inr before => exact tracks.known id (Dict.mem_keys_iff.2
        (Option.ne_none_iff_exists'.1 before))
  only place member := by
    cases place_of_next member with
    | inl before => exact tracks.only place before
    | inr written =>
      obtain ⟨id, own, f, located⟩ := written
      exact ⟨id, known id own, f, by rwa [savedPath_eq (names.named id (known id own))] at located⟩
  file id member f := by
    rw [lastSaved_snoc]
    have before := tracks.file id member f
    cases op with
    | save f' options id' kv =>
      have here := known id' rfl
      obtain ⟨place, located⟩ := names.place id' here f'
      simp only [sessionStore, Machine.next, step, savedPath_eq (names.named id' here),
        located, saves]
      cases saved : codec.save f' options kv with
      | none => simpa using before
      | some bytes =>
        dsimp only
        rw [readFile_set names here member located]
        by_cases own : id' = id ∧ f' = f
        · obtain ⟨rfl, rfl⟩ := own
          simp [codec.load_save _ _ _ _ saved]
        · simpa [own] using before
    | delete f' id' =>
      have here := known id' rfl
      simp only [sessionStore, Machine.next, step, saves, readFile_unlink names here member]
      by_cases own : id' = id
      · cases f <;> simp [own]
      · simpa [own] using before
    | load f' id' =>
      rw [next_load]
      exact before
    | has f' id' => exact before
    | listIds f' => exact before

end Tracks

/-- The store answers a run as the map does exactly when each `load` finds no older save in a
    file of its own format, and no listed session lies in a subdirectory. -/
theorem sessionStore_answers_iff (codec : Codec ω κ β) (locate : Paths) (ops : List (Op ω κ))
    (names : Names locate (ops.filterMap Op.id?)) :
    (sessionStore codec locate).trace .empty ops = (sessionMap codec).trace .empty ops ↔
      ∀ before op after, ops = before ++ op :: after → Faithful codec before op := by
  let InStep := Tracks codec locate (ops.filterMap Op.id?)
  refine Machine.trace_eq_iff (sessionStore codec locate) InStep
    (fun op => ∀ id ∈ op.id?, id ∈ ops.filterMap Op.id?) (Faithful codec) ?_ (.start _) ?_
  · intro past files m op tracks known
    exact ⟨tracks.out_iff names known, tracks.next names known⟩
  · intro op member id own
    exact List.mem_filterMap.2 ⟨op, member, own⟩

end Refinement

/-! ## A stale load -/

/-- Files that hold the KV as it is. -/
def plainCodec : Codec Unit Nat Nat where
  save _ _ kv := some kv
  load _ bytes := some bytes
  kept _ kv := kv
  load_save _ _ _ _ saved := saved.symm

/-- A directory without subdirectories. -/
def flatRoot : Paths := fun path => if '/' ∈ path.toList then none else some (.inRoot path)

theorem names_flatRoot {ids : List String} (ordinary : ∀ id ∈ ids, id ≠ "" ∧ '/' ∉ id.toList) :
    Names flatRoot ids := by
  have located : ∀ id ∈ ids, ∀ f, flatRoot (candidate id f) = some (.inRoot (candidate id f)) := by
    intro id member f
    rw [flatRoot, if_neg]
    rw [candidate, String.toList_append, List.mem_append]
    rintro (own | suffix)
    · exact (ordinary id member).2 own
    · cases f <;> exact absurd suffix (by decide)
  constructor
  case named =>
    intro id member
    have whole : nameOf id = id.toList := by
      have pass : id.toList.all (· ≠ '/') = true := by
        rw [List.all_eq_true]
        exact fun c here => decide_eq_true fun slash => (ordinary id member).2 (slash ▸ here)
      have all := takeWhile_reverse_append [] pass
      simpa [nameOf] using congrArg List.reverse all
    rw [whole]
    exact fun empty => (ordinary id member).1 (String.toList_inj.1 empty)
  case place => exact fun id member f => ⟨_, located id member f⟩
  case apart =>
    intro id member id' member' f f' same
    rw [located id member f, located id' member' f', Option.some.injEq,
      Location.inRoot.injEq] at same
    exact candidate_inj same
  case root =>
    intro id member f name
    rw [located id member f, Option.some.injEq, Location.inRoot.injEq]
    exact ⟨fun same => ⟨(ordinary id member).2, same.symm⟩, fun h => h.2.symm⟩

def staleRun : List (Op Unit Nat) :=
  [.save .npz () "chat" 1, .save .blob () "chat" 2, .load .npz "chat"]

theorem sessionStore_answers_iff_staleRun :
    (sessionStore plainCodec flatRoot).trace .empty staleRun =
      (sessionMap plainCodec).trace .empty staleRun ↔
      ∀ before op after, staleRun = before ++ op :: after → Faithful plainCodec before op :=
  sessionStore_answers_iff plainCodec flatRoot staleRun (names_flatRoot (by decide))

/-- A session saved by an `npz` object and then by a `blob` object: the `npz` object still
    loads its own file. -/
theorem stale_load :
    ((sessionStore plainCodec flatRoot).trace .empty staleRun).getLast?.map Prod.snd =
      some (.loaded 1) ∧
      lastSaved plainCodec anyFormat "chat" (staleRun.take 2) = some 2 := by
  decide +kernel

end Dexa.Session
