import Dexa.Lib.Lists
import Dexa.Lib.Fallible
import Dexa.Platform.SessionService

/-! # Turns of the session service

A ledger of what was asked of each session and answered: the session is its initial messages
and the pairs of its successful turns, however they overlap.
-/

namespace Dexa.Platform.Sessions

open Dexa.Lib

/-- A message with a text, or with `null`. -/
def Plain (m : Json) : Prop := ∃ role text, m = message role (replyContent text)

/-- The characters of a message's text. -/
def chars (m : Json) : Nat :=
  match contentLength m with
  | .ok n => n
  | .error _ => 0

theorem contentLength_message (role : String) (text : Option String) :
    contentLength (message role (replyContent text)) = .ok (text.elim 0 String.length) := by
  cases text with
  | none => rfl
  | some s => rfl

theorem Plain.contentLength {m : Json} (plain : Plain m) : contentLength m = .ok (chars m) := by
  obtain ⟨role, text, rfl⟩ := plain
  simp only [chars, contentLength_message]

theorem estTokens_plain {messages : List Json} (plain : ∀ m ∈ messages, Plain m) :
    estTokens messages = .ok (max 1 ((messages.map chars).sum / 4)) := by
  have counted := Fallible.foldlM_add (fun m member => (plain m member).contentLength) 0
  rw [Nat.zero_add] at counted
  rw [estTokens, counted]
  rfl

theorem plain_text (role text : String) : Plain (message role (.str text)) := ⟨role, some text, rfl⟩

theorem plain_initMessages (body : CreateIn) : ∀ m ∈ initMessages body, Plain m := by
  intro m member
  cases List.mem_append.1 member with
  | inl system =>
    cases given : body.system.filter (· ≠ "") with
    | none =>
      rw [given] at system
      cases system
    | some text =>
      rw [given] at system
      rw [List.mem_singleton] at system
      exact system ▸ plain_text ..
  | inr context =>
    cases given : body.context.filter (· ≠ "") with
    | none =>
      rw [given] at context
      cases context
    | some text =>
      rw [given] at context
      simp only [List.mem_cons, List.not_mem_nil, or_false] at context
      cases context with
      | inl user => exact user ▸ plain_text ..
      | inr assistant => exact assistant ▸ plain_text ..

/-- A successful turn: its messages, what was sent to the backend and what it saved. -/
structure Recorded where
  user : Json
  assistant : Json
  sent : List Json
  saved : EstimatedSavings

def Recorded.pair (r : Recorded) : List Json := [r.user, r.assistant]

/-- A session's initial messages and its successful turns, in the order they were recorded. -/
structure Entry where
  initial : List Json
  turns : List Recorded := []

def Entry.add (e : Entry) (r : Recorded) : Entry := { e with turns := e.turns ++ [r] }

/-- A turn that was sent to the backend. -/
structure Pending where
  obj : Nat
  user : Json
  sent : List Json

structure Ledger where
  entries : List Entry := []
  pending : List Pending := []

/-- What an event and its response tell. -/
def Ledger.noted (l : Ledger) (s : Service) (e : Event) (r : Reply) : Ledger :=
  match e, r with
  | .create _ body _,
      .session _ => { l with entries := l.entries ++ [{ initial := initMessages body }] }
  | .turn sid content _, .awaits call =>
    { l with pending := l.pending ++ [⟨(s.byId.get? sid).getD 0, message "user" (.str content), call.messages⟩] }
  | .reply i _ _, .turn t =>
    match l.pending[i]? with
    | some p =>
      { entries := l.entries.modify p.obj (·.add ⟨p.user, message "assistant" (replyContent t.content), p.sent, t.savings⟩)
        pending := l.pending.eraseIdx i }
    | none => l
  | .reply i _ _, _ => { l with pending := l.pending.eraseIdx i }
  | _, _ => l

def Ledger.note (l : Ledger) (s : Service) (e : Event) : Ledger := l.noted s e (service.out s e)

/-- What a session says of its turns. -/
structure Account where
  messages : List Json
  turns : Nat
  savedUsd : ℚ
  savedMs : ℚ

def Session.account (s : Session) : Account := ⟨s.messages, s.turns, s.savedUsd, s.savedMs⟩

def Entry.account (e : Entry) : Account :=
  { messages := e.initial ++ e.turns.flatMap Recorded.pair
    turns := e.turns.length
    savedUsd := (e.turns.map (·.saved.savedUsd)).sum
    savedMs := (e.turns.map (·.saved.savedMs)).sum }

/-- One more turn in an account. -/
def Account.add (a : Account) (r : Recorded) : Account :=
  { messages := a.messages ++ r.pair, turns := a.turns + 1, savedUsd := a.savedUsd + r.saved.savedUsd
    savedMs := a.savedMs + r.saved.savedMs }

theorem Entry.account_add (e : Entry) (r : Recorded) : (e.add r).account = e.account.add r := by
  simp [Entry.account, Entry.add, Account.add]

def Flight.pending (f : Flight) : Pending := ⟨f.obj, f.userMsg, f.full⟩

/-- The sessions are what the ledger says, the turns in flight are its pending ones, and each
has read a part of its session. -/
structure Tracked (l : Ledger) (s : Service) : Prop where
  kept : s.objects.map Session.account = l.entries.map Entry.account
  pending : s.flights.map Flight.pending = l.pending
  plain : ∀ session ∈ s.objects, ∀ m ∈ session.messages, Plain m
  ids : ∀ sid obj, s.byId.get? sid = some obj → obj < s.objects.length
  inFlight : ∀ f ∈ s.flights, Plain f.userMsg ∧ ∃ session, s.objects[f.obj]? = some session ∧
    ∃ context, context <+: session.messages ∧ f.full = context ++ [f.userMsg]

theorem Tracked.entry_at {l : Ledger} {s : Service} (tracked : Tracked l s) {obj : Nat}
    {session : Session}
    (there : s.objects[obj]? = some session) : ∃ entry, l.entries[obj]? = some entry ∧
      entry.account = session.account := by
  have account : (l.entries.map Entry.account)[obj]? = some session.account := by
    rw [← tracked.kept, List.getElem?_map, there, Option.map_some]
  rw [List.getElem?_map] at account
  exact Option.map_eq_some_iff.1 account

/-- What a turn reads. -/
theorem Session.beginTurn_plain {s : Session} (plain : ∀ m ∈ s.messages, Plain m) (obj : Nat)
    (content : String) (now : ℚ) :
    ∃ f, s.beginTurn obj content now = .ok f ∧ f.obj = obj ∧
      f.userMsg = message "user" (.str content) ∧
      f.full = s.messages ++ [message "user" (.str content)] := by
  have counted := estTokens_plain (forall_mem_concat plain (plain_text "user" content))
  rw [Session.beginTurn, counted]
  exact ⟨_, rfl, rfl, rfl, rfl⟩

/-- What a turn records. -/
theorem Session.recordTurn_plain {s : Session} (plain : ∀ m ∈ s.messages, Plain m)
    {user assistant : Json}
    (userPlain : Plain user) (assistantPlain : Plain assistant) (tier : Edge.Tier)
    (saved : EstimatedSavings) (now : ℚ) :
    ∃ s', s.recordTurn user assistant tier saved now = (.ok (), s') ∧
      ∀ sent, s'.account = s.account.add ⟨user, assistant, sent, saved⟩ := by
  have all : ∀ m ∈ s.messages ++ [user, assistant], Plain m := by
    have step := forall_mem_concat (forall_mem_concat plain userPlain) assistantPlain
    rwa [List.append_assoc] at step
  rw [Session.recordTurn, estTokens_plain all]
  exact ⟨_, rfl, fun sent => rfl⟩

/-- What a reply does: without an answer it only ends the turn, with one it records the turn. -/
theorem finishTurn_answered {l : Ledger} {s : Service} (tracked : Tracked l s)
    {i : Nat} {f : Flight}
    (found : s.flights[i]? = some f) (text : Option String) (latencyMs now : ℚ) :
    ∃ t session session', s.objects[f.obj]? = some session ∧
      s.finishTurn i (.content text latencyMs) now =
        (.turn t,
          { s with flights := s.flights.eraseIdx i, objects := s.objects.set f.obj session' }) ∧
      session'.account =
        session.account.add ⟨f.userMsg, message "assistant" (replyContent t.content), f.full,
          t.savings⟩ := by
  obtain ⟨userPlain, session, there, -⟩ := tracked.inFlight f (List.mem_of_getElem? found)
  have plain := tracked.plain session (List.mem_of_getElem? there)
  have assistantPlain : Plain (message "assistant" (replyContent text)) := ⟨_, _, rfl⟩
  obtain ⟨session', recorded, account⟩ :=
    Session.recordTurn_plain plain userPlain assistantPlain f.decision.tier
      (estimatedSavings f.tokens (!f.firstTouch)) now
  refine ⟨f.reply ⟨text, latencyMs, !f.firstTouch⟩
    (estimatedSavings f.tokens (!f.firstTouch)) session' now, session, session',
    there, ?_, account f.full⟩
  simp only [Service.finishTurn, found, runTurn, there, recorded]

theorem finishTurn_raised {s : Service} {i : Nat} {f : Flight} (found : s.flights[i]? = some f)
    (now : ℚ) :
    s.finishTurn i .raised now = (.backendError, { s with flights := s.flights.eraseIdx i }) := by
  simp only [Service.finishTurn, found, runTurn]

theorem finishTurn_none {s : Service} {i : Nat} (none : s.flights[i]? = none) (reply : BackendReply)
    (now : ℚ) :
    s.finishTurn i reply now = (.notFound, s) := by
  simp only [Service.finishTurn, none]

theorem newSession_ok (id : String) (body : CreateIn) (now : ℚ) :
    ∃ session, newSession id body now = .ok session ∧ session.messages = initMessages body ∧
      session.account = ⟨initMessages body, 0, 0, 0⟩ := by
  rw [newSession, estTokens_plain (plain_initMessages body)]
  exact ⟨_, rfl, rfl, rfl⟩

theorem get_eq_some {s : Service} {sid : String} {obj : Nat} {session : Session}
    (found : s.get sid = some (obj, session)) :
    s.byId.get? sid = some obj ∧ s.objects[obj]? = some session := by
  obtain ⟨obj', present, rest⟩ := Option.bind_eq_some_iff.1 found
  obtain ⟨session', there, pair⟩ := Option.map_eq_some_iff.1 rest
  obtain ⟨rfl, rfl⟩ := Prod.mk.inj pair
  exact ⟨present, there⟩

theorem Tracked.of_step {l : Ledger} {s s' : Service} {e : Event} {r : Reply}
    (stepped : s.step e = (r, s'))
    (tracked : Tracked (l.noted s e r) s') : Tracked (l.note s e) (service.next s e) := by
  have machine : service.step s e = (r, s') := stepped
  rwa [Ledger.note, Machine.out, Machine.next, machine]

theorem Tracked.next {l : Ledger} {s : Service} (tracked : Tracked l s) (e : Event) :
    Tracked (l.note s e) (service.next s e) := by
  obtain ⟨kept, pending, plain, ids, inFlight⟩ := id tracked
  cases e with
  | create id body now =>
    obtain ⟨session, made, messages, account⟩ := newSession_ok id body now
    refine .of_step (by rw [Service.step, Service.create, made]) ⟨?_, pending, ?_, ?_, ?_⟩
    · have entry : (Entry.mk (initMessages body) []).account = ⟨initMessages body, 0, 0, 0⟩ := by
        simp [Entry.account]
      simp [Ledger.noted, kept, account, entry]
    · exact forall_mem_concat plain (messages ▸ plain_initMessages body)
    · refine Dict.forall_get?_set (fun sid obj present => ?_) (by simp)
      exact (ids sid obj present).trans_le (by simp)
    · intro f member
      obtain ⟨userPlain, session', there, context⟩ := inFlight f member
      refine ⟨userPlain, session', ?_, context⟩
      rw [List.getElem?_append_left (List.getElem?_eq_some_iff.1 there).1]
      exact there
  | turn sid content now =>
    cases found : s.get sid with
    | none =>
      have stepped : s.step (.turn sid content now) = (.notFound, s) := by
        rw [Service.step, Service.beginTurn, found]
      exact .of_step stepped tracked
    | some there =>
      obtain ⟨obj, session⟩ := there
      obtain ⟨present, there⟩ := get_eq_some found
      obtain ⟨f, begun, hobj, user, full⟩ :=
        Session.beginTurn_plain (plain session (List.mem_of_getElem? there)) obj content now
      have stepped :
        s.step (.turn sid content now) =
        (.awaits ⟨f.full⟩, { s with flights := s.flights ++ [f] }) := by
        simp only [Service.step, Service.beginTurn, found, begun]
      refine .of_step stepped ⟨kept, ?_, plain, ids, ?_⟩
      · simp [Ledger.noted, ← pending, Flight.pending, present, hobj, user]
      · refine forall_mem_concat inFlight ⟨user ▸ plain_text .., session, hobj ▸ there,
          session.messages, List.prefix_rfl, ?_⟩
        rw [full, user]
  | reply i reply now =>
    have pendingAt : l.pending[i]? = (s.flights[i]?).map Flight.pending := by
      rw [← pending, List.getElem?_map]
    have rest : (s.flights.eraseIdx i).map Flight.pending = l.pending.eraseIdx i := by
      rw [← pending, List.eraseIdx_map]
    cases found : s.flights[i]? with
    | none =>
      have stepped : s.step (.reply i reply now) = (.notFound, s) := finishTurn_none found reply now
      refine .of_step stepped ⟨kept, ?_, plain, ids, inFlight⟩
      -- no such turn is in flight, in the ledger either
      rw [List.eraseIdx_of_length_le (List.getElem?_eq_none_iff.1 found)] at rest
      exact rest
    | some f =>
      rw [found, Option.map_some] at pendingAt
      cases reply with
      | raised => exact .of_step (finishTurn_raised found now) ⟨kept, rest, plain, ids,
          forall_mem_eraseIdx inFlight i⟩
      | content text latencyMs =>
        obtain ⟨t, session, session', there, stepped, account⟩ :=
          finishTurn_answered tracked found text latencyMs now
        have messages : session'.messages =
            session.messages ++ [f.userMsg, message "assistant" (replyContent t.content)] :=
              congrArg Account.messages account
        obtain ⟨userPlain, -⟩ := inFlight f (List.mem_of_getElem? found)
        obtain ⟨entry, isEntry, same⟩ := tracked.entry_at there
        refine .of_step stepped ?_
        simp only [Ledger.noted, pendingAt]
        refine ⟨?_, rest, ?_, ?_, ?_⟩
        -- the ledger's entry grows as the session's account does
        · have grown : ∀ r, (l.entries.modify f.obj (·.add r)).map Entry.account =
              (s.objects.map Session.account).set f.obj (session.account.add r) := by
            intro r
            rw [map_modify isEntry, kept, Entry.account_add, same]
          rw [List.map_set, account]
          exact (grown _).symm
        · refine forall_mem_set plain fun m member => ?_
          rw [messages] at member
          cases List.mem_append.1 member with
          | inl old => exact plain session (List.mem_of_getElem? there) m old
          | inr new =>
            simp only [List.mem_cons, List.not_mem_nil, or_false] at new
            cases new with
            | inl isUser => exact isUser ▸ userPlain
            | inr isAssistant => exact ⟨_, _, isAssistant⟩
        · intro sid obj present
          rw [List.length_set]
          exact ids sid obj present
        · refine forall_mem_eraseIdx (fun f' member => ?_) i
          obtain ⟨userPlain', read, there', context, before, full⟩ := inFlight f' member
          refine ⟨userPlain', ?_⟩
          by_cases same : f.obj = f'.obj
          · -- the session another turn has read has grown
            rw [← same, there] at there'
            obtain rfl := Option.some.inj there'
            refine ⟨session', ?_, context, ?_, full⟩
            · rw [← same, List.getElem?_set_self (List.getElem?_eq_some_iff.1 there).1]
            · exact before.trans (messages ▸ List.prefix_append ..)
          · exact ⟨read, by rw [List.getElem?_set_ne same]; exact there', context, before, full⟩
  | get sid now =>
    cases found : s.get sid with
    | none =>
      have stepped : s.step (.get sid now) = (.notFound, s) := by rw [Service.step, found]
      exact .of_step stepped tracked
    | some there =>
      have stepped : s.step (.get sid now) = (.session (there.2.toPublic now), s) := by
        rw [Service.step, found]
      exact .of_step stepped tracked
  | list now => exact tracked
  | delete sid =>
    cases present : (s.byId.get? sid).isSome with
    | false =>
      have stepped : s.step (.delete sid) = (.notFound, s) := by simp [Service.step, present]
      exact .of_step stepped tracked
    | true =>
      have stepped :
        s.step (.delete sid) = (.deleted sid, { s with byId := s.byId.erase sid }) := by
        simp [Service.step, present]
      refine .of_step stepped ⟨kept, pending, plain, fun sid' obj there => ?_, inFlight⟩
      rw [Dict.get?_erase] at there
      split at there
      · cases there
      · exact ids sid' obj there

theorem tracked_empty : Tracked {} {} where
  kept := rfl
  pending := rfl
  plain _ member := absurd member List.not_mem_nil
  ids _ _ present := by cases present
  inFlight _ member := absurd member List.not_mem_nil

/-! ## Failures and deletes -/

/-- The steps of a turn. -/
def Event.ofTurn : Event → Bool
  | .turn .. | .reply .. => true
  | _ => false

/-- The step draws this session id. -/
def Event.creates (sid : String) : Event → Bool
  | .create id .. => id == sid
  | _ => false

theorem beginTurn_frame (s : Service) (sid content : String) (now : ℚ) :
    (s.beginTurn sid content now).2.objects = s.objects ∧
      (s.beginTurn sid content now).2.byId = s.byId := by
  rw [Service.beginTurn]
  cases s.get sid with
  | none => exact ⟨rfl, rfl⟩
  | some there =>
    obtain ⟨obj, session⟩ := there
    cases begun : session.beginTurn obj content now with
    | error e => simp only [begun, and_self]
    | ok f => simp only [begun, and_self]

/-- A turn leaves the sessions alone until it succeeds. -/
theorem Tracked.failed_turn {l : Ledger} {s : Service} (tracked : Tracked l s) {e : Event}
    (turn : e.ofTurn = true)
    (failed : ∀ t, service.out s e ≠ .turn t) : (service.next s e).objects = s.objects := by
  cases e with
  | turn sid content now => exact (beginTurn_frame s sid content now).1
  | reply i reply now =>
    change ∀ t, (s.finishTurn i reply now).1 ≠ .turn t at failed
    change (s.finishTurn i reply now).2.objects = s.objects
    cases found : s.flights[i]? with
    | none => rw [finishTurn_none found]
    | some f =>
      cases reply with
      | raised => rw [finishTurn_raised found]
      | content text latencyMs =>
        obtain ⟨t, session, session', -, stepped, -⟩ :=
          finishTurn_answered tracked found text latencyMs now
        exact absurd (congrArg Prod.fst stepped) (failed t)
  | _ => cases turn

/-- No turn puts a session into the store. -/
theorem turn_byId (s : Service) {e : Event} (turn : e.ofTurn = true) :
    (service.next s e).byId = s.byId := by
  cases e with
  | turn sid content now => exact (beginTurn_frame s sid content now).2
  | reply i reply now =>
    change (s.finishTurn i reply now).2.byId = s.byId
    rw [Service.finishTurn]
    cases s.flights[i]? with
    | none => rfl
    | some f =>
      dsimp only
      split
      · split <;> rfl
      · rfl
  | _ => cases turn

theorem stays_deleted {s : Service} {sid : String} (deleted : s.byId.get? sid = none) {e : Event}
    (other : e.creates sid = false) : (service.next s e).byId.get? sid = none := by
  cases e with
  | create id body now =>
    change (s.create id body now).2.byId.get? sid = none
    rw [Service.create]
    split
    · exact deleted
    · simp only [Event.creates, beq_eq_false_iff_ne] at other
      rw [Dict.get?_set_ne _ _ other]
      exact deleted
  | turn sid' content now => exact (turn_byId s (e := .turn sid' content now) rfl) ▸ deleted
  | reply i reply now => exact (turn_byId s (e := .reply i reply now) rfl) ▸ deleted
  | get sid' now =>
    change (s.step (.get sid' now)).2.byId.get? sid = none
    rw [Service.step]
    cases s.get sid' with
    | none => exact deleted
    | some there => exact deleted
  | list now => exact deleted
  | delete sid' =>
    change (s.step (.delete sid')).2.byId.get? sid = none
    rw [Service.step]
    split
    · rw [Dict.get?_erase, deleted, ite_self]
    · exact deleted

/-! ## Every interleaving -/

/-- The ledger of a run. -/
def ledger (es : List Event) : Ledger := service.fold Ledger.note {} {} es

theorem tracked_ledger (es : List Event) : Tracked (ledger es) (service.exec {} es) :=
  Machine.Meets.fold (fun l s e (tracked : Tracked l s) (_ : True) => tracked.next e) tracked_empty
    (Machine.meets_of_forall (fun _ _ => trivial) _ es)

theorem deleted_after (s : Service) (sid : String) :
    (service.next s (.delete sid)).byId.get? sid = none := by
  change (s.step (.delete sid)).2.byId.get? sid = none
  rw [Service.step]
  split
  · exact Dict.get?_erase_self ..
  · next absent => simpa using absent

/-- Without its id, a session stays out of the store. -/
theorem absent_of_run {s : Service} {sid : String} (absent : s.byId.get? sid = none)
    {es : List Event}
    (others : ∀ e ∈ es, e.creates sid = false) : (service.exec s es).byId.get? sid = none := by
  induction es generalizing s with
  | nil => exact absent
  | cons e es ih =>
    exact ih (stays_deleted absent (others e List.mem_cons_self))
      fun e' member => others e' (List.mem_cons_of_mem _ member)

/-- At every point of every run each session is its initial messages and the pairs of its
successful turns, which it counts and whose savings it adds up; a turn that fails changes no
session; and a session that was deleted is not found until its id is drawn again. -/
theorem turns_neither_lost_nor_duplicated (es : List Event) :
    (service.exec {} es).objects.map Session.account = (ledger es).entries.map Entry.account ∧
      (∀ e : Event, e.ofTurn = true → (∀ t, service.out (service.exec {} es) e ≠ .turn t) →
        (service.exec {} (es ++ [e])).objects = (service.exec {} es).objects ∧
          (service.exec {} (es ++ [e])).byId = (service.exec {} es).byId) ∧
      ∀ sid es', (∀ e ∈ es', e.creates sid = false) →
        (service.exec {} (es ++ .delete sid :: es')).get sid = none := by
  have tracked := tracked_ledger es
  refine ⟨tracked.kept, ?_, ?_⟩
  · intro e turn failed
    rw [Machine.exec_snoc]
    exact ⟨tracked.failed_turn turn failed, turn_byId _ turn⟩
  · intro sid es' others
    rw [Machine.exec_append, Machine.exec_cons]
    have gone := absent_of_run (deleted_after (service.exec {} es) sid) others
    rw [Service.get, gone]
    rfl

end Dexa.Platform.Sessions
