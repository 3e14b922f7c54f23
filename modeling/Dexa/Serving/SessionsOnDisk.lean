import Dexa.Serving.StatelessServing
import Dexa.Session.InterruptedSaves
import Dexa.Session.StoreMap

/-! # Sessions on disk

A manager that persists its sessions as files, whatever it keeps in memory and whenever it is
restarted, answers like a server that prefills every conversation again.
-/

namespace Dexa.Serving

open Dexa.Core Dexa.Engine Dexa.Lib

variable {σ α τ Λ : Type}

/-- The store holds the sessions of a dictionary, as long as their ids are known and their caches
    can be stored. -/
structure Keeps (store : SessionStore σ α) (known : String → Prop) (storable : KVCache α → Prop)
    (holds : σ → Dict String (KVCache α) → Prop) : Prop where
  has : ∀ {s m id}, holds s m → known id → store.has s id = m.contains id
  load : ∀ {s m id}, holds s m → known id → store.load s id = m.get? id
  save : ∀ {s m id kv}, holds s m → known id → storable kv →
    holds (store.save s id kv).2 (m.set id kv)
  delete : ∀ {s m id}, holds s m → known id → holds (store.delete s id) (m.erase id)

/-- The session that an operation names. -/
def Op.id? : Op → Option String
  | .turn id _ _ _ | .exists? id | .drop id => some id
  | .restart => none

/-- The store holds all sessions, and what is resident is what it holds. -/
structure Restores (holds : σ → Dict String (KVCache α) → Prop) (s : SessionManager σ α)
    (m : Dict String (KVCache α)) : Prop where
  store : holds s.store m
  resident : ∀ id kv, s.resident.get? id = some kv → m.get? id = some kv

namespace Restores

variable {c : Config σ α} {known : String → Prop} {storable : KVCache α → Prop}
  {holds : σ → Dict String (KVCache α) → Prop}
  {s : SessionManager σ α} {m : Dict String (KVCache α)} {id : String}
  (persist : c.persist = true) (keeps : Keeps c.store known storable holds)
  (restores : Restores holds s m)
include persist keeps restores

theorem get (here : known id) :
    ∃ resumed s', s.get c id = some (m.get? id, resumed, s') ∧ Restores holds s' m := by
  rw [SessionManager.get]
  cases cached : s.resident.get? id with
  | some kv =>
    rw [restores.resident id kv cached]
    refine ⟨false, _, rfl, restores.store, fun other kv' found => ?_⟩
    rw [Dict.get?_moveToEnd] at found
    exact restores.resident other kv' found
  | none =>
    simp only [keeps.has restores.store here, keeps.load restores.store here, persist,
      Bool.true_and, Dict.contains]
    cases stored : m.get? id with
    | none => exact ⟨false, s, rfl, restores⟩
    | some kv => exact ⟨true, _, rfl, restores.store, Dict.forall_get?_set restores.resident stored⟩

theorem put (here : known id) {kv : KVCache α} (stores : storable kv) :
    Restores holds (s.put c id kv).2 (m.set id kv) where
  store := by
    rw [SessionManager.put, if_pos persist]
    exact keeps.save restores.store here stores
  resident other kv' found := by
    -- what the trim leaves was put there, or before
    have found := Dict.get?_of_trim found
    rw [Dict.get?_moveToEnd, Dict.get?_set] at found
    rw [Dict.get?_set]
    split at found
    next own => rw [if_pos own, found]
    next apart => rw [if_neg apart, restores.resident other kv' found]

theorem drop (here : known id) : Restores holds (s.drop c id) (m.erase id) where
  store := by
    rw [SessionManager.drop, if_pos persist]
    exact keeps.delete restores.store here
  resident other kv found := by
    rw [SessionManager.drop, Dict.get?_erase] at found
    rw [Dict.get?_erase]
    split at found
    next => cases found
    next apart => rw [if_neg apart, restores.resident other kv found]

/-- One operation, where the caches after it can be stored. -/
theorem step {op : Op} (named : ∀ id ∈ op.id?, known id)
    (stores : ∀ id kv, ((inMemory c.backend).next m op).get? id = some kv → storable kv) :
    ((SessionManager.machine c).out s op).visible = (inMemory c.backend).out m op ∧
      Restores holds ((SessionManager.machine c).next s op) ((inMemory c.backend).next m op) := by
  cases op with
  | turn id userText system maxNewTokens =>
    have here := named id rfl
    obtain ⟨resumed, s', got, restores'⟩ := restores.get persist keeps here
    simp only [inMemory, Machine.next, memoryStep] at stores
    simp only [SessionManager.machine, inMemory, Machine.out, Machine.next, SessionManager.step,
      memoryStep, SessionManager.turn, got]
    cases done : respond c.backend (m.get? id) userText system maxNewTokens with
    | none => exact ⟨rfl, restores'⟩
    | some turned =>
      simp only [done] at stores
      exact ⟨rfl, restores'.put persist keeps here (stores id turned.newKV (Dict.get?_set_self ..))⟩
  | exists? id =>
    refine ⟨congrArg Reply.present ?_, restores⟩
    rw [SessionManager.exists?, persist, Bool.true_and, keeps.has restores.store (named id rfl),
      Dict.contains]
    cases cached : s.resident.get? id with
    | none => simp [Dict.contains]
    | some kv => simp [Dict.contains, restores.resident id kv cached]
  | drop id => exact ⟨rfl, restores.drop persist keeps (named id rfl)⟩
  | restart => exact ⟨rfl, restores.store, fun _ _ found => by cases found⟩

end Restores

section Directory

open Dexa.Session
  (Contents Files Format Location Names Paths Representable Savable Scalar candidate kept readContents readFile
  resolve resolvePrecision saveUntil suffixOf written)

/-- A host cache as its bits. -/
def toBits (bits : α → BitVec 32) (kv : KVCache α) : KVCache Scalar :=
  kv.mapElems fun x => .float32 (bits x)

/-- A loaded cache as numbers. -/
def fromBits (value : BitVec 32 → α) (kv : KVCache Scalar) : KVCache α :=
  kv.mapElems fun x => value x.asFloat32

variable (locate : Paths) (f : Format) (bits : α → BitVec 32) (value : BitVec 32 → α)
  (fileSize : Contents → Nat)

/-- `SessionStore` with the format `f`, of caches that can be saved. -/
def diskStore : SessionStore (Files Contents) α where
  has files id := Session.has locate files f id
  load files id :=
    match Session.loadSession locate false files f id with
    | .loaded kv => some (fromBits value kv)
    | _ => none
  save files id kv :=
    ((written f "auto" (toBits bits kv)).elim 0 fileSize,
      saveUntil locate .finished files f id "auto" (toBits bits kv))
  delete files id :=
    Session.unlink locate (Session.unlink locate files (candidate id .npz)) (candidate id .blob)

/-- A save writes a file that gives the cache back. -/
def Storable (kv : KVCache α) : Prop :=
  ∃ contents, written f "auto" (toBits bits kv) = some contents ∧
    (readContents false f contents).map (fromBits value) = some kv

/-- Each session of a dictionary has its file, and no other id has one. -/
structure OnDisk (ids : List String) (files : Files Contents) (m : Dict String (KVCache α)) :
    Prop where
  own : ∀ id ∈ ids, ∀ kv, m.get? id = some kv →
    ∃ contents, readFile locate files (candidate id f) = some contents ∧
    (readContents false f contents).map (fromBits value) = some kv
  absent : ∀ id ∈ ids, m.get? id = none → ∀ g, readFile locate files (candidate id g) = none

variable {locate f bits value fileSize} {ids : List String}

namespace OnDisk

variable {files : Files Contents} {m : Dict String (KVCache α)}
  (onDisk : OnDisk locate f value ids files m) {id : String} (known : id ∈ ids)
include onDisk known

theorem resolved : match m.get? id with
    | none => resolve locate files f id = none
    | some kv => ∃ contents, resolve locate files f id = some (candidate id f, contents) ∧
      (readContents false f contents).map (fromBits value) = some kv := by
  cases held : m.get? id with
  | none =>
    have absent := onDisk.absent id known held
    simp [resolve, absent]
  | some kv =>
    obtain ⟨contents, found, reads⟩ := onDisk.own id known kv held
    exact ⟨contents, by simp [resolve, found], reads⟩

theorem has : (diskStore locate f bits value fileSize).has files id = m.contains id := by
  have resolved := onDisk.resolved known
  simp only [diskStore, Session.has, Dict.contains]
  cases held : m.get? id with
  | none =>
    rw [held] at resolved
    simp [resolved]
  | some kv =>
    rw [held] at resolved
    obtain ⟨contents, found, -⟩ := resolved
    simp [found]

variable (names : Names locate ids)
include names

theorem load : (diskStore locate f bits value fileSize).load files id = m.get? id := by
  have resolved := onDisk.resolved known
  simp only [diskStore, Session.loadSession, Session.loadFrom]
  cases held : m.get? id with
  | none =>
    rw [held] at resolved
    simp [resolved]
  | some kv =>
    rw [held] at resolved
    obtain ⟨contents, found, reads⟩ := resolved
    obtain ⟨stored, read, rfl⟩ := Option.map_eq_some_iff.1 reads
    -- the suffix of the file tells its format
    simp only [found, Session.suffixOf_candidate_eq_dexakv (names.named id known), read]

theorem save {kv : KVCache α} (stores : Storable f bits value kv) :
    OnDisk locate f value ids ((diskStore locate f bits value fileSize).save files id kv).2
      (m.set id kv) := by
  obtain ⟨contents, wrote, reads⟩ := stores
  obtain ⟨place, located⟩ := names.place id known f
  have finished : contents.after .finished = some contents := by cases contents <;> rfl
  have saved : ((diskStore locate f bits value fileSize).save files id kv).2 =
    files.set place contents := by
    simp [diskStore, saveUntil, wrote, finished, Session.savedPath_eq (names.named id known),
      located]
  rw [saved]
  constructor
  · intro other known' kv' held
    rw [Dict.get?_set] at held
    simp only [Session.readFile_set names known known' located]
    by_cases own : id = other
    · simp only [own, if_true, Option.some.injEq] at held
      subst own held
      exact ⟨contents, by simp, reads⟩
    · simp only [own, if_false] at held
      simpa [own] using onDisk.own other known' kv' held
  · intro other known' held g
    rw [Dict.get?_set] at held
    split at held
    next => cases held
    next own =>
      rw [Session.readFile_set names known known' located, if_neg fun both => own both.1]
      exact onDisk.absent other known' held g

theorem delete :
    OnDisk locate f value ids ((diskStore locate f bits value fileSize).delete files id)
      (m.erase id) := by
  -- both formats of the id are unlinked, and nothing else
  have gone : ∀ other ∈ ids, ∀ g,
    readFile locate ((diskStore locate f bits value fileSize).delete files id) (candidate other g) =
      if id = other then none else readFile locate files (candidate other g) := by
    intro other known' g
    simp only [diskStore, Session.readFile_unlink names known known']
    by_cases own : id = other
    · cases g <;> simp [own]
    · simp [own]
  constructor
  · intro other known' kv held
    rw [Dict.get?_erase] at held
    split at held
    next => cases held
    next own =>
      rw [gone other known', if_neg own]
      exact onDisk.own other known' kv held
  · intro other known' held g
    rw [gone other known']
    rw [Dict.get?_erase] at held
    split
    next => rfl
    next own =>
      rw [if_neg own] at held
      exact onDisk.absent other known' held g

end OnDisk

/-- A directory keeps what it is given. -/
theorem keeps_diskStore (names : Names locate ids) :
    Keeps (diskStore locate f bits value fileSize) (· ∈ ids) (Storable f bits value)
      (OnDisk locate f value ids) where
  has onDisk known := onDisk.has known
  load onDisk known := onDisk.load known names
  save onDisk known stores := onDisk.save known names stores
  delete onDisk known := onDisk.delete known names

end Directory

/-! ## The caches of an engine -/

/-- Tokens that were said, and can be written. -/
def Chat.Said (chat : Chat) : Prop := chat.tokens ≠ [] ∧ ∀ x ∈ chat.tokens, IsInt64 x

namespace ChatEngine

variable {e : ChatEngine α τ Λ} {predict : List Int → Λ}

theorem int64_rollout (lawful : e.Lawful) {text : List Int} {maxNewTokens : Nat}
    {generated : List Int}
    (fits : ∀ x ∈ generated, IsInt64 x) :
      ∀ x ∈ HFBackend.rollout predict e.pick text maxNewTokens generated, IsInt64 x := by
  induction maxNewTokens generalizing generated with
  | zero => exact fits
  | succ maxNewTokens ih =>
    apply ih
    simp only [List.mem_append, List.mem_singleton]
    rintro x (before | rfl)
    · exact fits x before
    · exact lawful.picked _ _

variable [Field α]

/-- A turn adds tokens that can be written. -/
theorem said_turn [Inhabited α] (decoding : e.backend.CausalDecoding predict) (lawful : e.Lawful)
    {chat : Option Chat}
    (said : ∀ c ∈ chat, Chat.Said c) {id userText : String} {system : Option String}
    {maxNewTokens : Int} {text : String}
    {info : SessionInfo} {chat' : Chat}
    (turn : e.statelessTurn chat id userText system maxNewTokens = some (text, info, chat')) :
    Chat.Said chat' := by
  simp only [statelessTurn, Option.bind_eq_bind, Option.bind_eq_some_iff, Option.pure_def,
    Option.some.injEq, Prod.mk.injEq] at turn
  obtain ⟨response, generated, -, -, rfl⟩ := turn
  have framed : 1 < (turnTokens e.toBackend userText system chat.isNone).length := lawful.framed _ _
  have whole : chat.elim [] Chat.tokens ++ turnTokens e.toBackend userText system chat.isNone ≠
    [] := by
    apply List.ne_nil_of_length_pos
    rw [List.length_append]
    omega
  rw [HFBackend.generate_prefill decoding whole, Option.some.injEq] at generated
  refine ⟨List.append_ne_nil_of_left_ne_nil whole _, ?_⟩
  simp only [List.mem_append]
  rintro x ((before | asked) | answered)
  · cases chat with
    | none => cases before
    | some c => exact (said c rfl).2 x before
  · exact lawful.tokenized _ x asked
  · rw [← generated] at answered
    exact int64_rollout lawful (by simp) x answered

open Dexa.Session
  (Contents Files Format Names Paths Representable Savable Scalar kept readContents resolvePrecision written)

/-- The floats of a cache are numbers that `dtype` has. -/
structure HostFloats (b : HFBackend α τ Λ) (bits : α → BitVec 32) (dtype : StoreDtype) : Prop where
  exact : ∀ x, b.value (bits (b.toFloat x)) = b.toFloat x
  native : ∀ x, Representable dtype (.float32 (bits (b.toFloat x)))

/-- A binary file has eight bytes for the length of its header. -/
def HeaderFits (e : ChatEngine α τ Λ) (f : Format) (bits : α → BitVec 32) (dtype : StoreDtype)
    (chat : Chat) : Prop :=
  f = .blob →
    (utf8Encode
    (JsonValue.dict (Session.header dtype [e.backend.model.spec.nKvHeads, chat.tokens.length,
    e.backend.model.spec.headDim] (toBits bits (e.cacheOf chat)))).dumps).length < 256 ^ 8

variable {f : Format} {bits : α → BitVec 32} {dtype : StoreDtype} {chat : Chat}

theorem savable_cacheOf (decoding : e.backend.CausalDecoding predict)
    (layer : 0 < e.backend.model.spec.nLayers)
    (head : 0 < e.backend.model.spec.nKvHeads) (channel : 0 < e.backend.model.spec.headDim)
    (said : Chat.Said chat) :
    Savable (toBits bits (e.cacheOf chat)) [e.backend.model.spec.nKvHeads, chat.tokens.length,
      e.backend.model.spec.headDim] := by
  have shapes : ∀ l ∈ (toBits bits (e.cacheOf chat)).layers,
      l.key.shape = [e.backend.model.spec.nKvHeads, chat.tokens.length,
        e.backend.model.spec.headDim] ∧
        l.value.shape = [e.backend.model.spec.nKvHeads, chat.tokens.length,
          e.backend.model.spec.headDim] := by
    intro l member
    simp only [toBits, cacheOf, HFBackend.prefill, HFBackend.toHost, KVCache.mapElems, List.map_map,
      List.mem_map] at member
    obtain ⟨l', there, rfl⟩ := member
    exact decoding.causal.layer_shape chat.tokens l' there
  constructor
  case dims => rfl
  case nonempty =>
    apply List.ne_nil_of_length_pos
    simpa [toBits, cacheOf, HFBackend.prefill, HFBackend.toHost, KVCache.mapElems,
      decoding.causal.layers_length] using layer
  case cells => simpa [head, channel] using List.length_pos_of_ne_nil said.1
  case key_shape => exact fun l member => (shapes l member).1
  case value_shape => exact fun l member => (shapes l member).2
  case tokens =>
    intro ids held
    obtain rfl : chat.tokens = ids := Option.some.inj held
    exact said.2
  case metadata => exact ⟨List.nodup_singleton _, trivial, trivial⟩

/-- The file of a conversation gives its cache back. -/
theorem storable_cacheOf (decoding : e.backend.CausalDecoding predict)
    (floats : HostFloats e.backend bits dtype)
    (resolved : resolvePrecision "auto" e.backend.model.spec.dtype = some dtype)
    (layer : 0 < e.backend.model.spec.nLayers)
    (head : 0 < e.backend.model.spec.nKvHeads) (channel : 0 < e.backend.model.spec.headDim)
    (said : Chat.Said chat)
    (fits : e.HeaderFits f bits dtype chat) : Storable f bits e.backend.value (e.cacheOf chat) := by
  have savable : Savable (toBits bits (e.cacheOf chat)) _ :=
    savable_cacheOf decoding layer head channel said
  obtain ⟨contents, wrote, reads⟩ := Session.written_savable f "auto" _ savable resolved fits
  refine ⟨contents, wrote, ?_⟩
  -- nothing is lost in the stored precision
  have unchanged : kept dtype (toBits bits (e.cacheOf chat)) = toBits bits (e.cacheOf chat) := by
    rw [Session.kept_of_representable]
    · have tokens : (toBits bits (e.cacheOf chat)).tokenIds = some chat.tokens := rfl
      refine KVCache.ext rfl rfl rfl ?_ rfl
      simp [tokens, said.1]
    · simp only [toBits, cacheOf, HFBackend.prefill, HFBackend.toHost, KVCache.mapElems,
        List.map_map, List.mem_map]
      rintro l ⟨l', -, rfl⟩
      simp only [Function.comp_apply, LayerKV.map, NDArray.map, List.mem_map]
      constructor
      · rintro x ⟨y, ⟨z, -, rfl⟩, rfl⟩
        exact floats.native z
      · rintro x ⟨y, ⟨z, -, rfl⟩, rfl⟩
        exact floats.native z
  have back : ∀ a : NDArray τ, ((a.map e.backend.toFloat).map fun x => Scalar.float32 (bits x)).map
    (fun x => e.backend.value x.asFloat32) =
      a.map e.backend.toFloat := by
    intro a
    simp only [NDArray.map_map]
    congr 1
    funext x
    exact floats.exact x
  rw [reads, unchanged, Option.map_some, Option.some.injEq]
  simp only [fromBits, toBits, cacheOf, HFBackend.prefill, HFBackend.toHost, KVCache.mapElems,
    List.map_map]
  congr 1
  apply List.map_congr_left
  intro l _
  simp only [Function.comp_apply, LayerKV.map, back]

/-! ## Every run -/

variable [Inhabited α] {locate : Paths} {fileSize : Contents → Nat} {ids : List String}

/-- The manager has the cache of each conversation on disk, and some in memory. -/
structure InStep (e : ChatEngine α τ Λ) (locate : Paths) (f : Format) (ids : List String)
    (s : SessionManager (Files Contents) α)
    (chats : Dict String Chat) : Prop where
  cached : ∃ m, Restores (OnDisk locate f e.backend.value ids) s m ∧ Caches e m chats
  said : ∀ id chat, chats.get? id = some chat → chat.Said

/-- The conversations after an operation can be written, if those before it can. -/
theorem said_next (decoding : e.backend.CausalDecoding predict) (lawful : e.Lawful)
    {chats : Dict String Chat}
    (said : ∀ id chat, chats.get? id = some chat → chat.Said) (op : Op) :
    ∀ id chat, (e.stateless.next chats op).get? id = some chat → chat.Said := by
  intro id chat held
  cases op with
  | turn id' userText system maxNewTokens =>
    simp only [stateless, Machine.next, statelessStep] at held
    cases turn : e.statelessTurn (chats.get? id') id' userText system maxNewTokens with
    | none =>
      rw [turn] at held
      exact said id chat held
    | some told =>
      rw [turn] at held
      simp only [Dict.get?_set] at held
      split at held
      next =>
        obtain rfl := Option.some.inj held
        exact said_turn decoding lawful (fun c here => said id' c here) turn
      next => exact said id chat held
  | exists? id' => exact said id chat held
  | drop id' =>
    simp only [stateless, Machine.next, statelessStep, Dict.get?_erase] at held
    split at held
    next => cases held
    next => exact said id chat held
  | restart => exact said id chat held

omit [Field α] [Inhabited α] in
theorem InStep.start : InStep e locate f ids { resident := .empty, store := .empty } .empty := by
  refine ⟨⟨.empty,
    ⟨⟨fun _ _ _ held => (by cases held), fun id _ _ g => ?_⟩, fun _ _ held => by cases held⟩,
    fun _ => rfl⟩,
    fun _ _ held => by cases held⟩
  cases located : locate (Session.candidate id g) <;> simp [Session.readFile, located]

section Runs

variable (decoding : e.backend.CausalDecoding predict) (lawful : e.Lawful)
  (floats : HostFloats e.backend bits dtype)
  (resolved : resolvePrecision "auto" e.backend.model.spec.dtype = some dtype)
  (layer : 0 < e.backend.model.spec.nLayers)
  (head : 0 < e.backend.model.spec.nKvHeads) (channel : 0 < e.backend.model.spec.headDim)
  (names : Names locate ids)
include decoding lawful floats resolved layer head channel names

/-- One operation of a manager on disk. -/
theorem InStep.step {c : Config (Files Contents) α} (persist : c.persist = true)
    (backend : c.backend = e.toBackend)
    (store : c.store = diskStore locate f bits e.backend.value fileSize)
    {s : SessionManager (Files Contents) α} {chats : Dict String Chat}
    (inStep : InStep e locate f ids s chats) {op : Op} (known : ∀ id ∈ op.id?, id ∈ ids)
    (fits : ∀ id chat, (e.stateless.next chats op).get? id = some chat →
      e.HeaderFits f bits dtype chat) :
    ((SessionManager.machine c).out s op).visible = e.stateless.out chats op ∧
      InStep e locate f ids ((SessionManager.machine c).next s op) (e.stateless.next chats op) := by
  obtain ⟨⟨m, restores, caches⟩, said⟩ := inStep
  obtain ⟨answers, caches'⟩ := caches.step decoding lawful op
  have said' := said_next decoding lawful said op
  have keeps :
    Keeps c.store (· ∈ ids) (Storable f bits e.backend.value)
    (OnDisk locate f e.backend.value ids) :=
    store ▸ keeps_diskStore names
  have stores : ∀ id kv, ((inMemory c.backend).next m op).get? id = some kv →
    Storable f bits e.backend.value kv := by
    intro id kv held
    rw [backend, caches' id] at held
    obtain ⟨chat, here, rfl⟩ := Option.map_eq_some_iff.1 held
    exact storable_cacheOf decoding floats resolved layer head channel (said' id chat here)
      (fits id chat here)
  obtain ⟨same, restores'⟩ := restores.step persist keeps known stores
  rw [backend] at same restores'
  exact ⟨same.trans answers, ⟨_, restores', caches'⟩, said'⟩

/-- Any operations, one after the other. -/
theorem InStep.run {c : Config (Files Contents) α} (persist : c.persist = true)
    (backend : c.backend = e.toBackend)
    (store : c.store = diskStore locate f bits e.backend.value fileSize)
    {s : SessionManager (Files Contents) α} {chats : Dict String Chat}
    (inStep : InStep e locate f ids s chats) {ops : List Op}
    (known : ∀ op ∈ ops, ∀ id ∈ op.id?, id ∈ ids)
    (fits : e.stateless.Meets (fun chats op => ∀ id chat,
      (e.stateless.next chats op).get? id = some chat → e.HeaderFits f bits dtype chat)
      chats ops) :
    ((SessionManager.machine c).trace s ops).map (Prod.map id Reply.visible) =
      e.stateless.trace chats ops ∧
      InStep e locate f ids ((SessionManager.machine c).exec s ops)
        (e.stateless.exec chats ops) := by
  induction ops generalizing s chats with
  | nil => exact ⟨rfl, inStep⟩
  | cons op ops ih =>
    obtain ⟨same, inStep'⟩ :=
      inStep.step decoding lawful floats resolved layer head channel names persist backend store
      (known op List.mem_cons_self) fits.1
    obtain ⟨rest, final⟩ :=
      ih inStep' (fun op' later => known op' (List.mem_cons_of_mem op later)) fits.2
    refine ⟨?_, final⟩
    simp only [Machine.trace, List.map_cons, Prod.map_apply, id_eq, same, rest]

variable (locate f bits fileSize ids) in
/-- Whatever a manager keeps in memory and whenever it is restarted, it answers as a server that
    prefills each conversation again for every turn; on disk is the prefill of each conversation. -/
theorem sessions_on_disk (keepResident : Nat) (ops : List Op)
    (known : ∀ op ∈ ops, ∀ id ∈ op.id?, id ∈ ids)
    (fits : e.stateless.Meets (fun chats op => ∀ id chat,
      (e.stateless.next chats op).get? id = some chat → e.HeaderFits f bits dtype chat)
      .empty ops) :
    let c : Config (Files Contents) α :=
      { backend := e.toBackend, store := diskStore locate f bits e.backend.value fileSize, keepResident := keepResident }
    let start : SessionManager (Files Contents) α := { resident := .empty, store := .empty }
    ((SessionManager.machine c).trace start ops).map (Prod.map id Reply.visible) =
      e.stateless.trace .empty ops ∧
      ∀ id ∈ ids, c.store.load ((SessionManager.machine c).exec start ops).store id =
        ((e.stateless.exec .empty ops).get? id).map e.cacheOf := by
  intro c start
  obtain ⟨same, ⟨m, restores, caches⟩, -⟩ :=
    InStep.start.run decoding lawful floats resolved layer head channel names (c := c) rfl rfl rfl
    known fits
  refine ⟨same, fun id here => ?_⟩
  rw [← caches id]
  exact restores.store.load here names

end Runs

end ChatEngine

/-! ## An engine that counts -/

/-- A layer that only has a length. -/
def countedLayer (n : Nat) : LayerKV Unit := ⟨NDArray.full [1, n, 1] (), NDArray.full [1, n, 1] ()⟩

def countedPass (past : Option (List (LayerKV Unit))) (inputIds : List Int) : List (LayerKV Unit) :=
  [countedLayer ((past.getD []).head?.elim 0 (fun l => l.key.shape.getD 1 0) + inputIds.length)]

/-- What follows a text is its length. -/
def countingEngine : ChatEngine ℚ Unit Int where
  backend :=
    { model := { spec := ⟨"counting", 1, 1, 1, 1, 1, "bf16"⟩, kvForward := fun past _ inputIds => countedPass past inputIds }
      fromFloat := fun _ => ()
      fromBits := fun _ => ()
      toFloat := fun _ => 1
      value := finiteValue
      negInf := -1
      decode := fun _ _ _ positionIds _ => positionIds.map (· + 1)
      step := fun layers positionIds inputIds => (positionIds.map (· + 1),
        countedPass (some layers) inputIds)
      logProb := fun logit target => logit - target
      rephaseCosSin := fun _ => ([1], [0]) }
  tokenize text := text.toList.map fun c => (c.toNat : Int)
  detokenize tokens := toString tokens
  pick _ logit := logit % 50000

theorem countedPass_prefill (tokens : List Int) :
    (countingEngine.backend.model.prefill tokens).layers = [countedLayer tokens.length] := by
  simp [Model.prefill, Model.cacheToKVCache, countingEngine, countedPass]

theorem countingEngine_decoding : countingEngine.backend.CausalDecoding
    fun text => (text.length : Int) := by
  have pass : ∀ text more :
    List Int, countedPass (some (countingEngine.backend.model.prefill text).layers) more =
      [countedLayer (text.length + more.length)] := by
    intro text more
    rw [countedPass_prefill]
    simp [countedPass, countedLayer, NDArray.full]
  have counts : ∀ text ids : List Int, (arange text.length (text.length + ids.length)).map (· + 1) =
      HFBackend.continuations (fun text => (text.length : Int)) text ids := by
    intro text ids
    apply List.ext_getElem
    · simp [HFBackend.continuations]
    · intro k left right
      simp only [HFBackend.continuations, arange, List.length_map, List.length_range] at left right
      simp [HFBackend.continuations, arange]
      omega
  constructor
  case causal =>
    constructor
    case layers_length => exact fun _ => rfl
    case layer_shape =>
      intro tokens l member
      rw [countedPass_prefill, List.mem_singleton] at member
      subst member
      exact ⟨rfl, rfl⟩
    case entry =>
      intro tokens tokens' i inside inside' _ li l l' there there' h c
      rw [countedPass_prefill, List.getElem?_singleton] at there there'
      split at there
      next =>
        obtain rfl := Option.some.inj there
        next first =>
        rw [if_pos first, Option.some.injEq] at there'
        subst there'
        simp [countedLayer, NDArray.full, NDArray.get?_ofFn, NDArray.InBounds, inside, inside']
      next => cases there
    case forward =>
      intro tokens more _
      exact (pass tokens more).trans (by simp [countingEngine, countedPass])
  case fromFloat_toFloat => exact fun _ => rfl
  case decode => exact fun text ids _ => counts text ids
  case step =>
    intro text ids _
    have grown : (countingEngine.backend.model.prefill (text ++ ids)).layers =
      [countedLayer (text.length + ids.length)] := by
      rw [countedPass_prefill, List.length_append]
    exact Prod.ext (counts text ids) ((pass text ids).trans grown.symm)

theorem countingEngine_lawful : countingEngine.Lawful where
  framed lead userText := by
    simp [countingEngine]
    omega
  tokenized text x member := by
    obtain ⟨c, -, rfl⟩ := List.mem_map.1 member
    have valid := c.valid
    have small : c.toNat < 0x110000 := by
      cases valid with
      | inl low => exact Nat.lt_trans low (by decide)
      | inr high => exact high.2
    simp only [IsInt64]
    omega
  picked k logits := by
    simp only [countingEngine, IsInt64]
    omega

theorem sessions_on_disk_counting :
    let e := countingEngine
    let ops :=
      [.turn "a" "hi" (some "be terse") 2, .restart, .turn "a" "again" none 1, .exists? "b",
        .drop "a"]
    let c : Config (Session.Files Session.Contents) ℚ :=
      { backend := e.toBackend
        store := diskStore Session.flatRoot .npz (fun _ => 0x3F800000) e.backend.value (fun _ => 1)
        keepResident := 0 }
    let start : SessionManager (Session.Files Session.Contents) ℚ :=
      { resident := .empty, store := .empty }
    ((SessionManager.machine c).trace start ops).map (Prod.map id Reply.visible) =
      e.stateless.trace .empty ops ∧
      ∀ id ∈ ["a", "b"], c.store.load ((SessionManager.machine c).exec start ops).store id =
        ((e.stateless.exec .empty ops).get? id).map e.cacheOf := by
  intro e ops
  have floats : ChatEngine.HostFloats countingEngine.backend (fun _ => 0x3F800000) .bfloat16 :=
    ⟨fun _ => show finiteValue 0x3F800000 = 1 by decide +kernel, fun _ => ⟨0x3F80, by decide⟩⟩
  refine ChatEngine.sessions_on_disk .npz (fun _ => 0x3F800000) Session.flatRoot
    (fun _ => 1) ["a", "b"] countingEngine_decoding
    countingEngine_lawful floats (by decide) (by decide) (by decide) (by decide)
      (Session.names_flatRoot (by decide)) 0 ops ?_ ?_
  · simp [ops, Op.id?]
  · exact Machine.meets_of_forall (fun _ _ _ _ _ npz => by cases npz) _ _

end Dexa.Serving
