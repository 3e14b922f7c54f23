import Dexa.Edge.SessionDO
import Dexa.Platform.SessionTurns

/-! # The session object and the session service

The object is a port of the service.  Over turns that follow one another both keep the same
messages and count them, but the object counts UTF-16 code units where the service counts
characters, and the service counts again once the reply is there.
-/

namespace Dexa.Edge

open Dexa.Lib
open Dexa.Platform
open Dexa.Platform.Sessions (service)

/-- A turn: what the user writes, what the backend answers, and the clock, in seconds. -/
structure Exchange where
  content : String
  reply : Option String
  started : ℚ
  answered : ℚ
  latencyMs : ℚ

/-- The body of a chat completion. -/
def completion (reply : Option String) : Json :=
  .obj [("choices", .arr [.obj [("message", .obj [("content", Sessions.replyContent reply)])]])]

def Exchange.edge (t : Exchange) : List Event :=
  [.request (.turn { content := some (.str t.content) }) (1000 * t.started),
    .reply 0 (.ok (completion t.reply)) (1000 * t.answered)]

def Exchange.python (sid : String) (t : Exchange) : List Sessions.Event :=
  [.turn sid t.content t.started, .reply 0 (.content t.reply t.latencyMs) t.answered]

/-- The session a conversation starts with. -/
structure Opening where
  sid : String
  body : Sessions.CreateIn
  orgId : String
  backendUrl : String
  backendModel : String
  created : ℚ

def Opening.initBody (p : Opening) : InitBody :=
  { orgId := p.orgId, model := .str p.body.model, system := p.body.system.map .str, context := p.body.context.map .str
    backendUrl := p.backendUrl, backendModel := p.backendModel }

def edgeRun (env : Env) (p : Opening) (turns : List Exchange) : SessionObject :=
  (sessionDO env).exec { id := p.sid }
  (.request (.init p.initBody) (1000 * p.created) :: turns.flatMap Exchange.edge)

def pythonRun (p : Opening) (turns : List Exchange) : Sessions.Service :=
  service.exec {} (.create p.sid p.body p.created :: turns.flatMap (Exchange.python p.sid))

/-- Both hold the session, with the same messages, turns, tokens and tier. -/
def Same (sid : String) (o : SessionObject) (s : Sessions.Service) : Prop :=
  ∃ st obj session, o.stored = some st ∧ s.get sid = some (obj, session) ∧
    st.messages = session.messages ∧
    st.turns = session.turns ∧ st.tokens = some (session.tokens : ℚ) ∧ st.tier = session.tier

def utf16Estimate (texts : List String) : Nat := max 1 ((texts.map utf16Length).sum / 4)

def charEstimate (texts : List String) : Nat := max 1 ((texts.map String.length).sum / 4)

/-- Messages by their roles and texts. -/
def spoken (talk : List (String × String)) : List Json :=
  talk.map fun m => Sessions.message m.1 (.str m.2)

theorem contentLength_spoken (role text : String) :
    contentLength (Sessions.message role (.str text)) = .ok (some (utf16Length text : ℚ)) := rfl

theorem estTokens_spoken (talk : List (String × String)) :
    estTokens (some (.arr (spoken talk))) = .ok (some (utf16Estimate (talk.map Prod.snd) : ℚ)) := by
  have counts : ∀ start : Nat,
      (spoken talk).foldlM
        (fun n m => do return Number.add n (← contentLength m)) (some (start : ℚ)) =
        (.ok (some
          ((start + ((talk.map Prod.snd).map utf16Length).sum : Nat) : ℚ)) :
          Except Raised Number) := by
    induction talk with
    | nil => exact fun start => rfl
    | cons m rest ih =>
      intro start
      have tail := ih (start + utf16Length m.2)
      rw [List.map_cons, List.map_cons, List.sum_cons, ← Nat.add_assoc, ← tail, spoken,
        List.map_cons, List.foldlM_cons,
        contentLength_spoken]
      simp [Number.add, spoken, bind, Except.bind, pure, Except.pure]
  have counted := counts 0
  rw [Nat.cast_zero, Nat.zero_add] at counted
  have floor : ∀ n : Nat, ((n : ℚ) / 4).floor = ((n / 4 : Nat) : Int) :=
    fun n => Rat.floor_natCast_div_natCast n 4
  simp only [estTokens, pure_bind, counted]
  rw [utf16Estimate]
  simp only [pure, Except.pure, bind, Except.bind, Option.map_some, floor]
  rw [Int.cast_natCast, Nat.cast_max, Nat.cast_one]

theorem spoken_text (talk : List (String × String)) (content text : String) :
    spoken (talk ++ [("user", content)]) ++
      [Sessions.message "assistant" (Sessions.replyContent (some text))] =
      spoken (talk ++ [("user", content), ("assistant", text)]) := by
  simp [spoken, Sessions.replyContent]

theorem plain_spoken (talk : List (String × String)) : ∀ m ∈ spoken talk, Sessions.Plain m := by
  intro m member
  obtain ⟨p, -, rfl⟩ := List.mem_map.1 member
  exact Sessions.plain_text ..

theorem chars_spoken (talk : List (String × String)) :
    (spoken talk).map Sessions.chars = (talk.map Prod.snd).map String.length := by
  rw [spoken, List.map_map, List.map_map]
  rfl

theorem python_estTokens_spoken (talk : List (String × String)) :
    Sessions.estTokens (spoken talk) = .ok (charEstimate (talk.map Prod.snd)) := by
  rw [Sessions.estTokens_plain (plain_spoken talk), chars_spoken, charEstimate]

/-! ## One turn -/

theorem replyContent_completion (reply : Option String) :
    replyContent (completion reply) = .str (reply.getD "") := by
  cases reply with
  | none => rfl
  | some text => rfl

/-- The two sessions after the same turns. -/
structure Lockstep (sid : String) (texts : List String) (last : ℚ) (o : SessionObject)
    (s : Sessions.Service) (st : State)
    (session : Sessions.Session) (talk : List (String × String)) : Prop where
  stored : o.stored = some st
  idle : o.flights = []
  objects : s.objects = [session]
  byId : s.byId.get? sid = some 0
  none : s.flights = []
  edge : st.messages = spoken talk
  python : session.messages = spoken talk
  texts : talk.map Prod.snd = texts
  turns : st.turns = session.turns
  edgeLast : st.lastActive = 1000 * last
  pythonLast : session.lastActive = last

theorem Lockstep.edge_turn {sid texts last o s st session talk}
    (lock : Lockstep sid texts last o s st session talk) (env : Env)
    (t : Exchange) :
    ∃ st', (sessionDO env).exec o t.edge =
      { o with stored := some st', flights := [], writes := o.writes + 1 } ∧
      st'.messages = spoken (talk ++ [("user", t.content), ("assistant", t.reply.getD "")]) ∧
        st'.turns = st.turns + 1 ∧
      st'.tokens = some (utf16Estimate (texts ++ [t.content]) : ℚ) ∧
      st'.tier =
        (decideTier (t.started - last) (some (utf16Estimate (texts ++ [t.content]) : ℚ))).tier ∧
      st'.lastActive = 1000 * t.answered := by
  obtain ⟨stored, idle, -, -, -, edge, -, rfl, -, edgeLast, -⟩ := lock
  have full :
    st.messages ++ [message "user" (.str t.content)] = spoken (talk ++ [("user", t.content)]) := by
    rw [edge, spoken, spoken, List.map_append]
    rfl
  have counted := estTokens_spoken (talk ++ [("user", t.content)])
  rw [List.map_append] at counted
  have ms : (1000 * t.started - st.lastActive) / 1000 = t.started - last := by
    rw [edgeLast]
    ring
  have begun : ∃ f, beginTurn env o.stored true { content := some (.str t.content) }
    (1000 * t.started) o.writes = .ok f ∧
      f.s = st ∧ f.accumulate = true ∧ f.userMsg = message "user" (.str t.content) ∧
      f.tokens = some (utf16Estimate (talk.map Prod.snd ++ [t.content]) : ℚ) ∧
      f.decision = decideTier (t.started - last) f.tokens := by
    simp only [beginTurn, stored, Option.getD_some, nullish, if_true, full, ms]
    rw [counted]
    exact ⟨_, rfl, rfl, rfl, rfl, rfl, rfl⟩
  obtain ⟨f, begun, session, accumulates, user, tokens, decision⟩ := begun
  have first :
    (sessionDO env).next o
    (.request (.turn { content := some (.str t.content) }) (1000 * t.started)) =
      { o with flights := [f] } := by
    change (o.beginTurn env true { content := some (.str t.content) } (1000 * t.started)).2 = _
    rw [SessionObject.beginTurn, begun, idle]
    rfl
  refine ⟨f.saved (completion t.reply) (1000 * t.answered), ?_, ?_, ?_, ?_, ?_, rfl⟩
  · rw [Exchange.edge, Machine.exec_cons, Machine.exec_cons, Machine.exec_nil, first]
    rfl
  · rw [Flight.saved, accumulates, session, user, replyContent_completion]
    simp only [if_true, edge, spoken, List.map_append]
    rfl
  · rw [Flight.saved, session]
  · rw [Flight.saved, tokens]
  · rw [Flight.saved, decision, tokens]

theorem Lockstep.python_turn {sid texts last o s st session talk}
    (lock : Lockstep sid texts last o s st session talk)
    (t : Exchange) :
    ∃ session', service.exec s (t.python sid) = { s with objects := [session'] } ∧
      session'.messages = spoken (talk ++ [("user", t.content)]) ++
        [Sessions.message "assistant" (Sessions.replyContent t.reply)] ∧
      session'.turns = session.turns + 1 ∧
      (∀ text, t.reply = some text → session'.tokens = charEstimate (texts ++ [t.content, text])) ∧
      session'.tier =
        (Sessions.decideTier (t.started - last) (charEstimate (texts ++ [t.content]))).tier ∧
      session'.lastActive = t.answered := by
  obtain ⟨-, -, objects, byId, none, -, python, rfl, -, -, rfl⟩ := lock
  have full : session.messages ++ [Sessions.message "user" (.str t.content)] = spoken
    (talk ++ [("user", t.content)]) := by
    rw [python, spoken, spoken, List.map_append]
    rfl
  have counted := python_estTokens_spoken (talk ++ [("user", t.content)])
  rw [List.map_append] at counted
  have begun : ∃ f, session.beginTurn 0 t.content t.started = .ok f ∧ f.obj = 0 ∧
      f.userMsg = Sessions.message "user" (.str t.content) ∧
      f.decision = Sessions.decideTier (t.started - session.lastActive)
        (charEstimate (talk.map Prod.snd ++ [t.content])) := by
    simp only [Sessions.Session.beginTurn, full]
    rw [counted]
    exact ⟨_, rfl, rfl, rfl, rfl⟩
  obtain ⟨f, begun, obj, user, decision⟩ := begun
  have found : s.get sid = some (0, session) := by
    rw [Sessions.Service.get, byId, objects]
    rfl
  have first : service.next s (.turn sid t.content t.started) = { s with flights := [f] } := by
    change (s.beginTurn sid t.content t.started).2 = _
    rw [Sessions.Service.beginTurn, found]
    simp only [begun, none]
    rfl
  have messages :
    session.messages ++ [f.userMsg, Sessions.message "assistant" (Sessions.replyContent t.reply)] =
      spoken (talk ++ [("user", t.content)]) ++
        [Sessions.message "assistant" (Sessions.replyContent t.reply)] := by
    rw [user, ← full, List.append_assoc]
    rfl
  have recorded :
    ∃ session',
    session.recordTurn f.userMsg (Sessions.message "assistant" (Sessions.replyContent t.reply))
      f.decision.tier (Sessions.estimatedSavings f.tokens (!f.firstTouch)) t.answered =
        (.ok (), session') ∧
      session'.messages = spoken (talk ++ [("user", t.content)]) ++
        [Sessions.message "assistant" (Sessions.replyContent t.reply)] ∧
          session'.turns = session.turns + 1 ∧
      session'.tokens = max 1 (((spoken (talk ++ [("user", t.content)]) ++
        [Sessions.message "assistant" (Sessions.replyContent t.reply)]).map Sessions.chars).sum / 4) ∧
      session'.tier = f.decision.tier ∧ session'.lastActive = t.answered := by
    have all :=
      forall_mem_concat (plain_spoken (talk ++ [("user", t.content)])) ⟨"assistant", t.reply, rfl⟩
    rw [Sessions.Session.recordTurn, messages, Sessions.estTokens_plain all]
    exact ⟨_, rfl, rfl, rfl, rfl, rfl, rfl⟩
  obtain ⟨session', recorded, messages', turns, tokens, tier, last⟩ := recorded
  refine ⟨session', ?_, messages', turns, ?_, tier.trans (by rw [decision]), last⟩
  · rw [Exchange.python, Machine.exec_cons, Machine.exec_cons, Machine.exec_nil, first]
    change (Sessions.Service.finishTurn { s with flights := [f] } 0
      (.content t.reply t.latencyMs) t.answered).2 = _
    simp only [Sessions.Service.finishTurn, Sessions.runTurn, List.getElem?_cons_zero, obj, objects,
      recorded, none]
    rfl
  · intro text replied
    rw [tokens, replied, spoken_text, chars_spoken, charEstimate, List.map_append]
    rfl

/-- The two platforms agree about a turn: there is a text, what the object counts in UTF-16 before
it rounds to what the service counts in characters with it, and both counts before it lead to the
same tier. -/
def Exchange.Agrees (t : Exchange) (texts : List String) (last : ℚ) : Prop :=
  ∃ text, t.reply = some text ∧
    utf16Estimate (texts ++ [t.content]) = charEstimate (texts ++ [t.content, text]) ∧
    (decideTier (t.started - last) (some (utf16Estimate (texts ++ [t.content]) : ℚ))).tier =
      (Sessions.decideTier (t.started - last) (charEstimate (texts ++ [t.content]))).tier

theorem Lockstep.same_iff {sid texts last o s st session talk}
    (lock : Lockstep sid texts last o s st session talk) (env : Env)
    (t : Exchange) :
    Same sid ((sessionDO env).exec o t.edge) (service.exec s (t.python sid)) ↔
      t.Agrees texts last := by
  obtain ⟨st', edge, edgeMessages, edgeTurns, edgeTokens, edgeTier, -⟩ := lock.edge_turn env t
  obtain ⟨session', python, messages, turns, tokens, tier, -⟩ := lock.python_turn t
  have found : Sessions.Service.get { s with objects := [session'] } sid = some (0, session') := by
    rw [Sessions.Service.get, lock.byId]
    rfl
  rw [edge, python, Exchange.Agrees, ← edgeTier, ← tier]
  constructor
  · rintro ⟨st'', obj, session'', stored, there, sameMessages, -, sameTokens, sameTier⟩
    obtain rfl := Option.some.inj stored
    obtain ⟨rfl, rfl⟩ := Prod.mk.inj (Option.some.inj (found.symm.trans there))
    cases replied : t.reply with
    | none =>
      -- the service keeps the `null` that the object replaces
      rw [edgeMessages, messages, replied] at sameMessages
      have last := congrArg List.getLast? sameMessages
      simp [spoken, Sessions.message, Sessions.replyContent] at last
    | some text =>
      refine ⟨text, rfl, ?_, sameTier⟩
      rw [edgeTokens, tokens text replied] at sameTokens
      exact_mod_cast Option.some.inj sameTokens
  · rintro ⟨text, replied, sameTokens, sameTier⟩
    refine ⟨st', 0, session', rfl, found, ?_, ?_, ?_, sameTier⟩
    · rw [edgeMessages, messages, replied, spoken_text]
      rfl
    · rw [edgeTurns, turns, lock.turns]
    · rw [edgeTokens, tokens text replied, sameTokens]

theorem Lockstep.next {sid texts last o s st session talk}
    (lock : Lockstep sid texts last o s st session talk) (env : Env)
    {t : Exchange} {text : String} (replied : t.reply = some text) :
    ∃ st' session' talk', Lockstep sid (texts ++ [t.content, text]) t.answered
      ((sessionDO env).exec o t.edge)
      (service.exec s (t.python sid)) st' session' talk' := by
  obtain ⟨st', edge, edgeMessages, edgeTurns, -, -, edgeLast⟩ := lock.edge_turn env t
  obtain ⟨session', python, messages, turns, -, -, last'⟩ := lock.python_turn t
  refine ⟨st', session', talk ++ [("user", t.content), ("assistant", text)], ?_⟩
  rw [edge, python]
  refine ⟨rfl, rfl, rfl, lock.byId, lock.none, ?_, ?_, ?_, ?_, edgeLast, last'⟩
  · rw [edgeMessages, replied]
    rfl
  · rw [messages, replied, spoken_text]
  · rw [List.map_append, lock.texts]
    rfl
  · rw [edgeTurns, turns, lock.turns]

/-! ## Conversations -/

/-- The platforms agree about every turn of a conversation, after these texts. -/
def AgreeAfter (texts : List String) (last : ℚ) : List Exchange → Prop
  | [] => True
  | t :: rest => t.Agrees texts last ∧ ∀ text, t.reply = some text → AgreeAfter (texts ++ [t.content, text]) t.answered rest

theorem Lockstep.run_iff {sid texts last o s st session talk}
    (lock : Lockstep sid texts last o s st session talk) (env : Env)
    (turns : List Exchange) :
    (∀ before after, turns = before ++ after → before ≠ [] →
      Same sid ((sessionDO env).exec o (before.flatMap Exchange.edge))
        (service.exec s (before.flatMap (Exchange.python sid)))) ↔
      AgreeAfter texts last turns := by
  induction turns generalizing texts last o s st session talk with
  | nil =>
    refine ⟨fun _ => trivial, fun _ before after split nonempty => ?_⟩
    exact absurd (List.append_eq_nil_iff.1 split.symm).1 nonempty
  | cons t rest ih =>
    rw [AgreeAfter, ← lock.same_iff env t]
    constructor
    · intro all
      have here := all [t] rest rfl (by simp)
      simp only [List.flatMap_cons, List.flatMap_nil, List.append_nil] at here
      refine ⟨here, fun text replied => ?_⟩
      obtain ⟨st', session', talk', lock'⟩ := lock.next env replied
      refine (ih lock').1 fun before after split nonempty => ?_
      have later := all (t :: before) after (congrArg (t :: ·) split) (by simp)
      rwa [List.flatMap_cons, List.flatMap_cons, Machine.exec_append, Machine.exec_append] at later
    · rintro ⟨here, later⟩ before after split nonempty
      cases before with
      | nil => exact absurd rfl nonempty
      | cons t' before =>
        obtain ⟨rfl, rest⟩ := List.cons.inj split
        rw [List.flatMap_cons, List.flatMap_cons, Machine.exec_append, Machine.exec_append]
        obtain ⟨text, replied, -⟩ := (lock.same_iff env t).1 here
        cases before with
        | nil => exact here
        | cons t'' before =>
          obtain ⟨st', session', talk', lock'⟩ := lock.next env replied
          exact (ih lock').2 (later text replied) (t'' :: before) after rest (by simp)

/-- What a session starts with. -/
def openingTalk (body : Sessions.CreateIn) : List (String × String) :=
  (match body.system.filter (· ≠ "") with
    | some system => [("system", system)]
    | none => []) ++
  match body.context.filter (· ≠ "") with
    | some context => [("user", context), ("assistant", "Context loaded. Ready.")]
    | none => []

theorem python_initMessages (body : Sessions.CreateIn) :
    Sessions.initMessages body = spoken (openingTalk body) := by
  rw [Sessions.initMessages, openingTalk, spoken, List.map_append]
  cases body.system.filter (· ≠ "") <;> cases body.context.filter (· ≠ "") <;> rfl

theorem filter_text (text : Option String) :
    (text.map Json.str).filter jsTruthy = (text.filter (· ≠ "")).map Json.str := by
  cases text with
  | none => rfl
  | some s => by_cases empty : s = "" <;> simp [Option.filter, jsTruthy, Json.truthy, empty]

theorem edge_initMessages (p : Opening) :
    initMessages p.initBody = spoken (openingTalk p.body) := by
  rw [initMessages, openingTalk, spoken, List.map_append]
  simp only [Opening.initBody, filter_text]
  cases p.body.system.filter (· ≠ "") <;> cases p.body.context.filter (· ≠ "") <;> rfl

theorem lockstep_opening (env : Env) (p : Opening) :
    ∃ st session, Lockstep p.sid ((openingTalk p.body).map Prod.snd) p.created (edgeRun env p [])
      (pythonRun p []) st session
      (openingTalk p.body) := by
  have edge : ∃ st, initState env p.initBody (1000 * p.created) = .ok st ∧
    st.messages = spoken (openingTalk p.body) ∧
      st.turns = 0 ∧ st.lastActive = 1000 * p.created := by
    rw [initState, edge_initMessages, estTokens_spoken]
    exact ⟨_, rfl, rfl, rfl, rfl⟩
  have python : ∃ session, Sessions.newSession p.sid p.body p.created = .ok session ∧
      session.messages = spoken (openingTalk p.body) ∧ session.turns = 0 ∧
        session.lastActive = p.created := by
    rw [Sessions.newSession, python_initMessages, python_estTokens_spoken]
    exact ⟨_, rfl, rfl, rfl, rfl⟩
  obtain ⟨st, initiated, edgeMessages, edgeTurns, edgeLast⟩ := edge
  obtain ⟨session, made, messages, turns, last⟩ := python
  have object : edgeRun env p [] = { id := p.sid, stored := some st, writes := 1 } := by
    change (SessionObject.handle env { id := p.sid } (.init p.initBody) (1000 * p.created)).2 = _
    rw [SessionObject.handle, initiated]
  have store :
    pythonRun p [] =
    { objects := [session], byId := (⟨[], List.nodup_nil⟩ : Dict String Nat).set p.sid 0 } := by
    change (Sessions.Service.create {} p.sid p.body p.created).2 = _
    rw [Sessions.Service.create, made]
    rfl
  refine ⟨st, session, ?_⟩
  rw [object, store]
  exact ⟨rfl, rfl, rfl, Dict.get?_set_self .., rfl, edgeMessages, messages, rfl,
    edgeTurns.trans turns.symm, edgeLast, last⟩

/-- The object and the service hold the same after every turn of a conversation exactly when
every reply has a text, and at every turn the counts and their tiers agree. -/
theorem same_after_every_turn_iff (env : Env) (p : Opening) (turns : List Exchange) :
    (∀ before after, turns = before ++ after → before ≠ [] →
      Same p.sid (edgeRun env p before) (pythonRun p before)) ↔
      AgreeAfter ((openingTalk p.body).map Prod.snd) p.created turns := by
  obtain ⟨st, session, lock⟩ := lockstep_opening env p
  exact lock.run_iff env turns

def plainOpening : Opening := ⟨"s", {}, "org", "", "", 0⟩

def shortExchange : Exchange := ⟨"hi", some "hello there!", 1, 2, 5⟩

/-- The object keeps the count from before the reply. -/
theorem counts_drift : ¬ Same "s" (edgeRun sampleEnv plainOpening [shortExchange])
    (pythonRun plainOpening [shortExchange]) := by
  intro same
  obtain ⟨st, session, lock⟩ := lockstep_opening sampleEnv plainOpening
  obtain ⟨text, replied, counts, -⟩ := (lock.same_iff sampleEnv shortExchange).1 same
  obtain rfl := Option.some.inj replied
  exact absurd counts (by decide +kernel)

end Dexa.Edge
