import Dexa.Serving.SessionManager

/-! # Evictions and restarts do not show

A manager over a lossless store answers like one that has no store, never evicts and never
restarts (`inMemory`): what is resident is what the store holds, and both are what that
manager holds.  With a backend that folds the prompt and the response into the cache, a
session's cached tokens are all that was said in it.
-/

namespace Dexa.Serving

open Dexa.Core Dexa.Lib

variable {σ α : Type}

/-- The store loads what was saved last and not deleted since. -/
structure Lossless (store : SessionStore σ α) : Prop where
  has : ∀ s id, store.has s id = (store.load s id).isSome
  load_save : ∀ s id kv id', store.load (store.save s id kv).2 id' = if id = id' then some kv
    else store.load s id'
  load_delete : ∀ s id id', store.load (store.delete s id) id' = if id = id' then none
    else store.load s id'

def tokensOf (kv : KVCache α) : List Int := kv.tokenIds.getD []

/-- The cache's tokens are those that were prefilled, and grow by the prompt and the response. -/
structure Folds (backend : Backend α) : Prop where
  prefill : ∀ tokens kv, backend.prefill tokens = some kv → tokensOf kv = tokens
  generateAndExtend : ∀ context prompt maxNewTokens response grown,
    backend.generateAndExtend context prompt maxNewTokens = some (response, grown) →
      tokensOf grown = tokensOf context ++ prompt ++ response

section InMemory

variable (backend : Backend α)

def memoryStep (m : Dict String (KVCache α)) : Op → Reply × Dict String (KVCache α)
  | .turn id userText system maxNewTokens =>
    match respond backend (m.get? id) userText system maxNewTokens with
    | none => (.raised, m)
    | some turned => (.turned turned.text (turned.info id false 0), m.set id turned.newKV)
  | .exists? id => (.present (m.contains id), m)
  | .drop id => (.dropped, m.erase id)
  | .restart => (.restarted, m)

/-- The manager that never evicts and never restarts. -/
def inMemory : Machine (Dict String (KVCache α)) Op Reply := ⟨memoryStep backend⟩

/-- What one operation adds to the session `id`: the framed user turn and the response. -/
def said (id : String) (sofar : List Int) (m : Dict String (KVCache α)) : Op → List Int
  | .turn id' userText system maxNewTokens =>
    if id' = id then
      match respond backend (m.get? id) userText system maxNewTokens with
      | none => sofar
      | some turned => sofar ++ turned.delta ++ turned.respTokens
    else sofar
  | .drop id' => if id' = id then [] else sofar
  | .exists? _ | .restart => sofar

/-- All that was said in session `id` since its creation or the last drop. -/
def transcript (id : String) (ops : List Op) : List Int := (inMemory backend).fold (said backend id)
    [] .empty ops

end InMemory

/-- A reply, up to where the session came from and how large its file is. -/
def Reply.visible : Reply → Reply
  | .turned text info => .turned text { info with resumed := false, stateBytes := 0 }
  | reply => reply

/-- The store holds all sessions, and what is resident is what it holds. -/
structure Mirrors (c : Config σ α) (s : SessionManager σ α) (m : Dict String (KVCache α)) :
    Prop where
  store : ∀ id, c.store.load s.store id = m.get? id
  resident : ∀ id kv, s.resident.get? id = some kv → m.get? id = some kv

namespace Mirrors

variable {c : Config σ α} {s : SessionManager σ α} {m : Dict String (KVCache α)}

theorem get (persist : c.persist = true) (lossless : Lossless c.store) (mirrors : Mirrors c s m)
    (id : String) :
    ∃ resumed s', s.get c id = some (m.get? id, resumed, s') ∧ Mirrors c s' m := by
  rw [SessionManager.get]
  cases here : s.resident.get? id with
  | some kv =>
    rw [mirrors.resident id kv here]
    refine ⟨false, _, rfl, mirrors.store, ?_⟩
    intro id' kv' found
    rw [Dict.get?_moveToEnd] at found
    exact mirrors.resident id' kv' found
  | none =>
    rw [lossless.has, mirrors.store, persist, Bool.true_and]
    cases stored : m.get? id with
    | none => exact ⟨false, s, rfl, mirrors⟩
    | some kv => exact ⟨true, _, rfl, mirrors.store, Dict.forall_get?_set mirrors.resident stored⟩

theorem put (persist : c.persist = true) (lossless : Lossless c.store) (mirrors : Mirrors c s m)
    (id : String)
    (kv : KVCache α) : Mirrors c (s.put c id kv).2 (m.set id kv) where
  store id' := by
    rw [SessionManager.put, if_pos persist, Dict.get?_set, ← mirrors.store]
    exact lossless.load_save s.store id kv id'
  resident id' kv' found := by
    have found := Dict.get?_of_trim found
    rw [Dict.get?_moveToEnd, Dict.get?_set] at found
    rw [Dict.get?_set]
    split at found
    next own => rw [if_pos own, found]
    next other => rw [if_neg other, mirrors.resident id' kv' found]

theorem drop (persist : c.persist = true) (lossless : Lossless c.store) (mirrors : Mirrors c s m)
    (id : String) :
    Mirrors c (s.drop c id) (m.erase id) where
  store id' := by
    rw [SessionManager.drop, if_pos persist, Dict.get?_erase, ← mirrors.store]
    exact lossless.load_delete s.store id id'
  resident id' kv found := by
    rw [SessionManager.drop, Dict.get?_erase] at found
    rw [Dict.get?_erase]
    split at found
    next => cases found
    next other => rw [if_neg other, mirrors.resident id' kv found]

theorem exists? (persist : c.persist = true) (lossless : Lossless c.store) (mirrors : Mirrors c s m)
    (id : String) :
    s.exists? c id = m.contains id := by
  rw [SessionManager.exists?, persist, Bool.true_and, lossless.has, mirrors.store, Dict.contains,
    Dict.contains]
  cases here : s.resident.get? id with
  | none => rfl
  | some kv => rw [mirrors.resident id kv here]; rfl

/-- One operation, on the manager and on the one that keeps everything. -/
theorem step (persist : c.persist = true) (lossless : Lossless c.store) (mirrors : Mirrors c s m)
    (op : Op) :
    ((SessionManager.machine c).out s op).visible = (inMemory c.backend).out m op ∧
      Mirrors c ((SessionManager.machine c).next s op) ((inMemory c.backend).next m op) := by
  cases op with
  | turn id userText system maxNewTokens =>
    obtain ⟨resumed, s', got, mirrors'⟩ := mirrors.get persist lossless id
    simp only [SessionManager.machine, inMemory, Machine.out, Machine.next, SessionManager.step,
      memoryStep,
      SessionManager.turn, got]
    cases respond c.backend (m.get? id) userText system maxNewTokens with
    | none => exact ⟨rfl, mirrors'⟩
    | some turned => exact ⟨rfl, mirrors'.put persist lossless id turned.newKV⟩
  | exists? id => exact ⟨congrArg Reply.present (mirrors.exists? persist lossless id), mirrors⟩
  | drop id => exact ⟨rfl, mirrors.drop persist lossless id⟩
  | restart => exact ⟨rfl, mirrors.store, fun _ _ found => (by cases found)⟩

end Mirrors

theorem tokensOf_respond {backend : Backend α} (folds : Folds backend) {cached : Option (KVCache α)}
    {userText : String}
    {system : Option String} {maxNewTokens : Int} {turned : Turned α}
    (done : respond backend cached userText system maxNewTokens = some turned) :
    tokensOf turned.newKV = cached.elim [] tokensOf ++ turned.delta ++ turned.respTokens := by
  cases cached with
  | none =>
    simp only [respond, turnsOf, Option.bind_eq_bind, Option.bind_some, Option.bind_eq_some_iff,
      Option.pure_def,
      Option.some.injEq] at done
    obtain ⟨kv0, prefilled, ⟨response, grown⟩, generated, rfl⟩ := done
    have first := folds.prefill _ _ prefilled
    have rest := folds.generateAndExtend _ _ _ _ _ generated
    rw [first, List.take_append_drop] at rest
    exact rest
  | some kv =>
    simp only [respond, Option.bind_eq_bind, Option.bind_eq_some_iff, Option.pure_def,
      Option.some.injEq] at done
    obtain ⟨turns, _, ⟨response, grown⟩, generated, rfl⟩ := done
    have grows := folds.generateAndExtend _ _ _ _ _ generated
    exact grows

/-- Each session's cache holds what was said in it. -/
def Recorded (said : String → List Int) (m : Dict String (KVCache α)) : Prop :=
  ∀ id, (m.get? id).elim [] tokensOf = said id

theorem Recorded.step {backend : Backend α} (folds : Folds backend) {sofar : String → List Int}
    {m : Dict String (KVCache α)}
    (recorded : Recorded sofar m) (op : Op) :
    Recorded (fun id => said backend id (sofar id) m op) ((inMemory backend).next m op) := by
  intro id
  cases op with
  | turn id' userText system maxNewTokens =>
    simp only [inMemory, Machine.next, memoryStep, said]
    by_cases own : id' = id
    · subst own
      rw [if_pos rfl]
      cases done : respond backend (m.get? id') userText system maxNewTokens with
      | none => exact recorded id'
      | some turned =>
        dsimp only
        rw [Dict.get?_set_self, Option.elim_some, tokensOf_respond folds done, recorded id']
    · rw [if_neg own]
      cases respond backend (m.get? id') userText system maxNewTokens with
      | none => exact recorded id
      | some turned =>
        dsimp only
        rw [Dict.get?_set_ne _ _ own, recorded id]
  | exists? id' => exact recorded id
  | drop id' =>
    simp only [inMemory, Machine.next, memoryStep, said, Dict.get?_erase]
    by_cases own : id' = id
    · rw [if_pos own, if_pos own, Option.elim_none]
    · rw [if_neg own, if_neg own, recorded id]
  | restart => exact recorded id

theorem recorded_transcript {backend : Backend α} (folds : Folds backend) (ops : List Op) :
    Recorded (fun id => transcript backend id ops) ((inMemory backend).exec .empty ops) := by
  have run : ∀ (ops : List Op) (sofar : String → List Int) (m : Dict String (KVCache α)),
    Recorded sofar m →
      Recorded (fun id => (inMemory backend).fold (said backend id) (sofar id) m ops)
        ((inMemory backend).exec m ops) := by
    intro ops
    induction ops with
    | nil => exact fun _ _ recorded => recorded
    | cons op ops ih => exact fun _ _ recorded => ih _ _ (recorded.step folds op)
  exact run ops (fun _ => []) .empty fun id => rfl

/-- A manager over a lossless store, however few sessions it keeps resident and whenever it is
    replaced by a fresh one, answers like one that keeps all of them, and caches for each
    session what was said in it. -/
theorem evictions_and_restarts_do_not_show (c : Config σ α) (persist : c.persist = true)
    (lossless : Lossless c.store)
    (folds : Folds c.backend) (store : σ) (empty : ∀ id, c.store.load store id = none)
    (ops : List Op) :
    let start : SessionManager σ α := { resident := .empty, store := store }
    let final := (SessionManager.machine c).exec start ops
    ((SessionManager.machine c).trace start ops).map (Prod.map id Reply.visible) =
      (inMemory c.backend).trace .empty ops ∧
    ∀ id, (c.store.load final.store id).elim [] tokensOf = transcript c.backend id ops ∧
      ∀ kv, final.resident.get? id = some kv → tokensOf kv = transcript c.backend id ops := by
  intro start final
  have begin : Mirrors c start .empty := ⟨empty, fun _ _ found => (by cases found)⟩
  have ⟨same, mirrors⟩ :=
    Machine.trace_of_simulation (SessionManager.machine c) Reply.visible (Mirrors c)
    (fun _ _ op mirrors => mirrors.step persist lossless op) begin ops
  have recorded := recorded_transcript folds ops
  refine ⟨same, ?_⟩
  intro id
  refine ⟨?_, ?_⟩
  · rw [mirrors.store id]
    exact recorded id
  · intro kv here
    have held := recorded id
    rwa [mirrors.resident id kv here] at held

def dictStore (α : Type) : SessionStore (Dict String (KVCache α)) α where
  has s id := s.contains id
  load s id := s.get? id
  save s id kv := (kv.nbytes 4, s.set id kv)
  delete s id := s.erase id

theorem lossless_dictStore : Lossless (dictStore α) where
  has _ _ := rfl
  load_save s id kv id' := s.get?_set id id' kv
  load_delete s id id' := s.get?_erase id id'

/-- A backend whose caches are their tokens, and that answers with the length of the context. -/
def countingBackend : Backend Unit :=
  let cache (tokens : List Int) : KVCache Unit :=
    { spec := ⟨"counting", 0, 0, 0, 0, 0, "float32"⟩, layers := [], positions := arange 0 tokens.length, tokenIds := some tokens }
  { tokenize := fun text => text.toList.map fun c => (c.toNat : Int)
    detokenize := fun tokens => toString tokens
    prefill := fun tokens => some (cache tokens)
    generateAndExtend := fun context prompt _ =>
      let response := [(context.seqLen + prompt.length : Int)]
      some (response, cache (tokensOf context ++ prompt ++ response)) }

theorem folds_countingBackend : Folds countingBackend where
  prefill tokens kv done := by
    cases done
    rfl
  generateAndExtend context prompt maxNewTokens response grown done := by
    cases done
    rfl

/-- Nothing stays resident, and the manager restarts between the turns. -/
theorem evictions_and_restarts_do_not_show_counting :
    let c : Config (Dict String (KVCache Unit)) Unit :=
      { backend := countingBackend, store := dictStore Unit, keepResident := 0 }
    let ops := [.turn "a" "hi" (some "be terse") 1, .restart, .turn "a" "again" none 1, .drop "a"]
    let start : SessionManager (Dict String (KVCache Unit)) Unit :=
      { resident := .empty, store := .empty }
    let final := (SessionManager.machine c).exec start ops
    ((SessionManager.machine c).trace start ops).map (Prod.map id Reply.visible) =
      (inMemory c.backend).trace .empty ops ∧
    ∀ id, (c.store.load final.store id).elim [] tokensOf = transcript c.backend id ops ∧
      ∀ kv, final.resident.get? id = some kv → tokensOf kv = transcript c.backend id ops := by
  intro c ops
  exact evictions_and_restarts_do_not_show c rfl lossless_dictStore folds_countingBackend .empty
    (fun _ => rfl) ops

end Dexa.Serving
