import Dexa.Edge.TurnRaces
import Dexa.Platform.RestoreSavings

/-! # When a turn of the session object saves a restore

The object counts a turn as restored by the same rule as the service.  A managed turn goes on from
the messages of the turns before it; a forwarded one sends what its caller lists, and leaves the
session's messages alone.
-/

namespace Dexa.Edge

open Dexa.Lib
open Dexa.Platform (Json Raised)
open Dexa.Platform.Sessions (History Sent Served spared least tierFor_eq_drop breakevens_ordered)

/-- The saving is not zero. -/
def EstimatedSavings.adds (s : EstimatedSavings) : Bool := s.savedUsd ≠ some 0 || s.savedMs ≠ some 0

/-- A turn that counts as restored adds a saving, and no other. -/
theorem adds_estimatedSavings {tokens : Number} (one : ∀ t, tokens = some t → 1 ≤ t) (warm : Bool) :
    (estimatedSavings tokens warm).adds = warm := by
  cases warm with
  | false => rfl
  | true =>
    cases tokens with
    | none => rfl
    | some t =>
      have large := (spared (one t rfl)).trans (le_max_right 0 _)
      have saved : (estimatedSavings (some t) true).savedUsd ≠ some 0 := by
        change some
          (max 0 ((profileFor t).prefillMs - (profileFor t).restoreCpuMs) / 1000 * gpuUsdS) ≠ some 0
        have positive : 0 < max 0 ((profileFor t).prefillMs - (profileFor t).restoreCpuMs) :=
          lt_of_lt_of_le (by norm_num [least]) large
        have rate : 0 < gpuUsdS := by norm_num [gpuUsdS, gpuUsdHr]
        simp only [ne_eq, Option.some.injEq]
        positivity
      simp [EstimatedSavings.adds, saved]

/-- The KV of a context is not worth storing for so long; with a count of `NaN` no comparison says
    that it is. -/
def lapses (idleS : ℚ) (messages : Json) : Bool :=
  match estTokens (some messages) with
  | .ok tokens => tokens.elim true fun t => (breakevens t).nvmeS < idleS
  | .error _ => false

theorem one_le_of_estTokens {messages : Option Json} {tokens : Number}
    (counted : estTokens messages = .ok tokens) :
    ∀ t, tokens = some t → 1 ≤ t := by
  intro t here
  unfold estTokens at counted
  split at counted
  all_goals
    obtain ⟨items, -, rest⟩ := Fallible.ok_of_bind counted
    obtain ⟨n, -, least⟩ := Fallible.ok_of_bind rest
    obtain rfl := Except.ok.inj least
    obtain ⟨n, -, rfl⟩ := Option.map_eq_some_iff.1 here
    exact le_max_left ..

theorem lapses_eq {idleS : ℚ} {messages : Json} {tokens : Number}
    (counted : estTokens (some messages) = .ok tokens) :
    lapses idleS messages = decide ((decideTier idleS tokens).tier = .drop) := by
  rw [lapses, counted]
  cases tokens with
  | none => rfl
  | some t =>
    have one := one_le_of_estTokens counted t rfl
    obtain ⟨ram, nvme⟩ := breakevens_ordered (show 0 < t by linarith)
    change decide ((breakevens t).nvmeS < idleS) = decide (tierFor idleS (breakevens t) = .drop)
    simp only [tierFor_eq_drop ram nvme]

/-! ## The object -/

/-- The messages of a context, as a loop over it gets them. -/
def itemsOf : Json → List Json
  | .arr items => items
  | .str s => s.toList.map fun c => .str (String.ofList [c])
  | _ => []

/-- The turns of the object, and whether the session that it stores holds the messages of one. -/
structure Journal where
  history : History := {}
  talked : Bool := false

/-- The messages that the backend is called with. -/
def BackendCall.messages (call : BackendCall) : Json :=
  (optProp (some call.payload) "messages").getD .null

def Journal.send (j : Journal) (o : SessionObject) (call : BackendCall) (forwarded : Bool)
    (now : ℚ) : Journal :=
  let idleS := (now - o.stored.elim now State.lastActive) / 1000
  { j with history := j.history.send 0 (itemsOf call.messages) (lapses idleS call.messages)
                        (o.stored.all fun s => s.turns == 0) j.talked forwarded }

/-- What an event and its response tell. -/
def Journal.noted (j : Journal) (o : SessionObject) (e : Event) (r : Reply) : Journal :=
  match e, r with
  | .request (.turn _) now, .awaits call => j.send o call false now
  | .request (.forward _) now, .awaits call => j.send o call true now
  | .request (.init _) _, .session _ => { j with talked := false }
  | .request .delete _, .deleted => { j with talked := false }
  | .reply i _ _, .turn t =>
    { history := j.history.succeed i t.decision.tier t.savings.adds
      talked := (j.history.inFlight[i]?).elim j.talked fun p => p.talked || !p.forwarded }
  | .reply i _ _, _ => { j with history := j.history.fail i }
  | _, _ => j

def Journal.note (env : Env) (j : Journal) (o : SessionObject) (e : Event) : Journal :=
  j.noted o e ((sessionDO env).out o e)

/-- The turn in flight is the one that was noted. -/
structure Flight.Noted (f : Flight) (p : Sent) : Prop where
  session : p.session = 0
  context : itemsOf f.full = p.context
  managed : p.forwarded = false → f.accumulate = true ∧ f.full = .arr (f.s.messages ++ [f.userMsg])
  forwarded : p.forwarded = true → f.accumulate = false
  first : f.firstTouch = p.first
  counted : ∀ t, f.tokens = some t → 1 ≤ t
  lapsed : p.lapsed = decide (f.decision.tier = .drop)
  talked : p.talked = true → ∃ c ∈ p.earlier, c <+: f.s.messages

/-- A session that holds the messages of a turn goes on from what a turn was sent with. -/
structure Remembers (j : Journal) (o : SessionObject) : Prop where
  flights : List.Forall₂ Flight.Noted o.flights j.history.inFlight
  earlier : ∀ p ∈ j.history.inFlight, ∀ c ∈ p.earlier, c ∈ j.history.contexts 0
  talked : j.talked = true → ∃ s, o.stored = some s ∧ ∃ c ∈ j.history.contexts 0, c <+: s.messages
  served : ∀ r ∈ j.history.served, r.credited = !r.first ∧ r.lapsed = decide (r.tier = .drop) ∧
    (r.talked = true → r.forwarded = false → r.Extends)

theorem messages_call (f : Flight) : f.call.messages = f.full := by
  simp [BackendCall.messages, Flight.call, optProp, Dict.lookup]

theorem estTokens_getD {full : Option Json} {tokens : Number}
    (counted : estTokens full = .ok tokens) :
    estTokens (some (full.getD .null)) = .ok tokens := by
  cases full with
  | none => cases counted
  | some messages => exact counted

/-- What a turn reads, with its token count. -/
theorem beginTurn_counted {env : Env} {stored : Option State} {accumulate : Bool} {b : TurnBody}
    {now : ℚ} {seen : Nat}
    {f : Flight} (begun : beginTurn env stored accumulate b now seen = .ok f) :
    f.firstTouch = (stored.all fun s => s.turns == 0) ∧ estTokens (some f.full) = .ok f.tokens ∧
      f.decision = decideTier ((now - stored.elim now State.lastActive) / 1000) f.tokens ∧
      (accumulate = true → f.full = .arr (f.s.messages ++ [f.userMsg])) := by
  obtain ⟨tokens, counted, result⟩ := Fallible.ok_of_bind begun
  obtain rfl := Except.ok.inj result
  refine ⟨?_, estTokens_getD counted, ?_, ?_⟩
  · cases stored with
    | none => rfl
    | some s => rfl
  · cases stored with
    | none => rfl
    | some s => rfl
  · rintro rfl
    rfl

/-- A turn that was sent is noted. -/
theorem Remembers.send {env : Env} {o : SessionObject} {j : Journal} (remembers : Remembers j o)
    {accumulate : Bool} {b : TurnBody}
    {now : ℚ} {f : Flight} (begun : beginTurn env o.stored accumulate b now o.writes = .ok f) :
    Remembers (j.send o f.call (!accumulate) now) { o with flights := o.flights ++ [f] } := by
  obtain ⟨flights, earlier, talked, served⟩ := remembers
  obtain ⟨session, accumulates, -⟩ := beginTurn_ok begun
  obtain ⟨first, counted, decision, full⟩ := beginTurn_counted begun
  rw [Journal.send, messages_call]
  refine ⟨forall₂_concat flights ?_, forall_mem_concat earlier fun c known => known, talked, served⟩
  refine ⟨rfl, rfl, ?_, ?_, first, one_le_of_estTokens counted, ?_, fun held => ?_⟩
  · intro managed
    have managed : accumulate = true := by simpa using managed
    exact ⟨accumulates.trans managed, full managed⟩
  · intro forwarded
    exact accumulates.trans (by simpa using forwarded)
  · rw [lapses_eq counted, decision]
  · obtain ⟨s, stored, c, known, part⟩ := talked held
    rw [stored] at session
    exact ⟨c, known, session ▸ part⟩

/-- What a turn saves goes on from what it or an earlier turn was sent with, if it holds the
    messages of one. -/
theorem Flight.Noted.saved {f : Flight} {p : Sent} (noted : f.Noted p) {j : Journal}
    {o : SessionObject} {i : Nat}
    (remembers : Remembers j o) (here : j.history.inFlight[i]? = some p) (data : Json) (now : ℚ)
    (tier : Tier) (credited : Bool)
    (holds : (p.talked || !p.forwarded) = true) :
    ∃ c ∈ (j.history.succeed i tier credited).contexts 0, c <+: (f.saved data now).messages := by
  rw [History.contexts_succeed here, if_pos noted.session]
  cases forwarded : p.forwarded with
  | false =>
    obtain ⟨accumulates, full⟩ := noted.managed forwarded
    refine ⟨p.context, List.mem_append_right _ List.mem_cons_self, ?_⟩
    rw [← noted.context, full, Flight.saved, if_pos accumulates]
    exact ⟨[message "assistant" (replyContent data)], by simp [itemsOf]⟩
  | true =>
    have talked : p.talked = true := by simpa [forwarded] using holds
    obtain ⟨c, known, part⟩ := noted.talked talked
    refine ⟨c, List.mem_append_left _ (remembers.earlier p (List.mem_of_getElem? here) c known), ?_⟩
    rw [Flight.saved, if_neg (by simp [noted.forwarded forwarded])]
    exact part

theorem Flight.Noted.extends_ {f : Flight} {p : Sent} (noted : f.Noted p) (talked : p.talked = true)
    (managed : p.forwarded = false) :
    p.Extends := by
  obtain ⟨c, known, part⟩ := noted.talked talked
  refine ⟨c, known, part.trans ?_⟩
  rw [← noted.context, (noted.managed managed).2]
  exact List.prefix_append ..

theorem Remembers.of_step {env : Env} {j : Journal} {o o' : SessionObject} {e : Event} {r : Reply}
    (stepped : SessionObject.step env o e = (r, o')) (remembers : Remembers (j.noted o e r) o') :
    Remembers (j.note env o e) ((sessionDO env).next o e) := by
  have machine : (sessionDO env).step o e = (r, o') := stepped
  rwa [Journal.note, Machine.out, Machine.next, machine]

/-- A turn that fails is only taken out of flight. -/
theorem Remembers.fail {j : Journal} {o : SessionObject} (remembers : Remembers j o) (i : Nat) :
    Remembers { j with history := j.history.fail i } { o with flights := o.flights.eraseIdx i } :=
  ⟨forall₂_eraseIdx remembers.flights i, forall_mem_eraseIdx remembers.earlier i, remembers.talked,
    remembers.served⟩

theorem Remembers.next {env : Env} {j : Journal} {o : SessionObject} (remembers : Remembers j o)
    (e : Event) :
    Remembers (j.note env o e) ((sessionDO env).next o e) := by
  obtain ⟨flights, earlier, talked, served⟩ := id remembers
  -- a write other than a turn's forgets what was said
  have silent :
    ∀ stored,
    Remembers { j with talked := false } { o with stored := stored, writes := o.writes + 1 } :=
    fun stored => ⟨flights, earlier, fun never => (by cases never), served⟩
  cases e with
  | request r now =>
    -- both kinds of turn are sent alike
    have sent : ∀ accumulate b, o.beginTurn env accumulate b now = (.raised, o) ∨
        ∃ f, o.beginTurn env accumulate b now =
          (.awaits f.call, { o with flights := o.flights ++ [f] }) ∧
          Remembers (j.send o f.call (!accumulate) now) { o with flights := o.flights ++ [f] } := by
      intro accumulate b
      rw [SessionObject.beginTurn]
      cases begun : beginTurn env o.stored accumulate b now o.writes with
      | error _ => exact Or.inl rfl
      | ok f => exact Or.inr ⟨f, rfl, remembers.send begun⟩
    cases r with
    | init b =>
      cases made : initState env b now with
      | error _ =>
        have stepped : SessionObject.step env o (.request (.init b) now) = (.raised, o) := by
          simp only [SessionObject.step, SessionObject.handle, made]
        exact .of_step stepped remembers
      | ok s =>
        have stepped : SessionObject.step env o (.request (.init b) now) =
            (.session (publicOf s o.id now),
              { o with stored := some s, writes := o.writes + 1 }) := by
          simp only [SessionObject.step, SessionObject.handle, made]
        exact .of_step stepped (silent (some s))
    | info =>
      cases stored : o.stored with
      | none =>
        have stepped : SessionObject.step env o (.request .info now) = (.notFound, o) := by
          simp only [SessionObject.step, SessionObject.handle, stored]
        exact .of_step stepped remembers
      | some s =>
        have stepped :
          SessionObject.step env o (.request .info now) = (.session (publicOf s o.id now), o) := by
          simp only [SessionObject.step, SessionObject.handle, stored]
        exact .of_step stepped remembers
    | delete =>
      have stepped :
        SessionObject.step env o (.request .delete now) =
        (.deleted, { o with stored := none, writes := o.writes + 1 }) :=
        rfl
      exact .of_step stepped (silent none)
    | turn b =>
      obtain raised | ⟨f, awaits, noted⟩ := sent true b
      · have stepped : SessionObject.step env o (.request (.turn b) now) = _ := raised
        exact .of_step stepped remembers
      · have stepped : SessionObject.step env o (.request (.turn b) now) = _ := awaits
        exact .of_step stepped noted
    | forward b =>
      obtain raised | ⟨f, awaits, noted⟩ := sent false b
      · have stepped : SessionObject.step env o (.request (.forward b) now) = _ := raised
        exact .of_step stepped remembers
      · have stepped : SessionObject.step env o (.request (.forward b) now) = _ := awaits
        exact .of_step stepped noted
  | reply i outcome now =>
    cases found : o.flights[i]? with
    | none =>
      have stepped : SessionObject.step env o (.reply i outcome now) = (.raised, o) := by
        simp only [SessionObject.step, SessionObject.finishTurn, found]
      have outside : o.flights.length ≤ i := List.getElem?_eq_none_iff.1 found
      have failed := remembers.fail i
      rw [List.eraseIdx_of_length_le outside] at failed
      exact .of_step stepped failed
    | some f =>
      obtain ⟨p, here, noted⟩ := forall₂_getElem? flights found
      cases outcome with
      | raised =>
        have stepped :
          SessionObject.step env o (.reply i .raised now) =
          (.raised, { o with flights := o.flights.eraseIdx i }) := by
          simp only [SessionObject.step, SessionObject.finishTurn, found]
        exact .of_step stepped (remembers.fail i)
      | status code =>
        have stepped : SessionObject.step env o (.reply i (.status code) now) =
            (.backendError code, { o with flights := o.flights.eraseIdx i }) := by
          simp only [SessionObject.step, SessionObject.finishTurn, found]
        exact .of_step stepped (remembers.fail i)
      | ok data =>
        have stepped : SessionObject.step env o (.reply i (.ok data) now) =
            (.turn (f.reply o.id data now),
              { o with flights := o.flights.eraseIdx i, stored := some (f.saved data now), writes := o.writes + 1 }) := by
          simp only [SessionObject.step, SessionObject.finishTurn, found]
        refine .of_step stepped ⟨?_, ?_, ?_, ?_⟩
        · simpa only [Journal.noted, History.succeed_of_found here] using forall₂_eraseIdx flights i
        · have more : ∀ c ∈ j.history.contexts 0,
              c ∈ (j.history.succeed i f.decision.tier
                (f.reply o.id data now).savings.adds).contexts 0 := by
            intro c known
            rw [History.contexts_succeed here]
            exact List.mem_append_left _ known
          have rest : ∀ p' ∈ j.history.inFlight.eraseIdx i, ∀ c ∈ p'.earlier,
            c ∈ j.history.contexts 0 :=
            forall_mem_eraseIdx earlier i
          simp only [Journal.noted]
          rw [History.succeed_of_found here] at more ⊢
          exact fun p' member c known => more c (rest p' member c known)
        · intro holds
          simp only [Journal.noted, here, Option.elim_some] at holds
          exact ⟨_, rfl, noted.saved remembers here data now _ _ holds⟩
        · simp only [Journal.noted, History.succeed_of_found here]
          refine forall_mem_concat served ⟨?_, noted.lapsed, noted.extends_⟩
          change (estimatedSavings f.tokens (!f.firstTouch)).adds = !p.first
          rw [adds_estimatedSavings noted.counted, noted.first]

/-- The turns of a run of a new object. -/
def journal (env : Env) (id : String) (es : List Event) : Journal :=
  (sessionDO env).fold (Journal.note env) {} (.idle id none) es

theorem remembers_journal (env : Env) (id : String) (es : List Event) :
    Remembers (journal env id es) ((sessionDO env).exec (.idle id none) es) := by
  have start : Remembers {} (.idle id none) :=
    ⟨.nil, fun p member => absurd member List.not_mem_nil, fun never => (by cases never),
      fun r member => absurd member List.not_mem_nil⟩
  exact Machine.Meets.fold
    (fun j o e (remembers : Remembers j o) (_ : True) => remembers.next e) start
    (Machine.meets_of_forall (fun _ _ => trivial) _ es)

/-- In every run of an object, all savings are for restores that could have happened exactly when
    each turn but the first of a session comes before storing the KV stops to pay, and goes on
    from the messages of an earlier turn or starts with what an earlier one was sent with. -/
theorem journal_justified_iff (env : Env) (id : String) (es : List Event) :
    (journal env id es).history.Justified ↔ ∀ r ∈ (journal env id es).history.served,
      r.first = true ∨ r.lapsed = false ∧ (r.talked = true ∧ r.forwarded = false ∨ r.Extends) := by
  refine forall₂_congr fun r member => ?_
  obtain ⟨credited, lapsed, extends_⟩ := (remembers_journal env id es).served r member
  rw [Served.Justified, credited, lapsed]
  cases first : r.first with
  | true => simp
  | false =>
    have goesOn : (r.talked = true ∧ r.forwarded = false ∨ r.Extends) ↔ r.Extends :=
      or_iff_right_of_imp fun managed => extends_ managed.1 managed.2
    rw [goesOn]
    simp [and_comm]

/-! ## Both platforms -/

/-- In every run of either platform, all savings are for restores that could have happened exactly
    when each turn but a session's first comes before storing the KV stops to pay and, on the
    object, goes on from the messages of an earlier turn or starts with what an earlier one was sent
    with. -/
theorem restore_savings_justified_iff (turns : List Platform.Sessions.Event)
    (env : Env) (id : String)
    (es : List Event) :
    ((Platform.Sessions.history turns).Justified ↔
      ∀ r ∈ (Platform.Sessions.history turns).served, r.first = true ∨ r.lapsed = false) ∧
    ((journal env id es).history.Justified ↔ ∀ r ∈ (journal env id es).history.served,
      r.first = true ∨ r.lapsed = false ∧ (r.talked = true ∧ r.forwarded = false ∨ r.Extends)) :=
  ⟨Platform.Sessions.history_justified_iff turns, journal_justified_iff env id es⟩

/-- A second turn after years. -/
def longIdle : List Platform.Sessions.Event :=
  [.create "s" {} 0, .turn "s" "a" 1, .reply 0 (.content (some "x") 1) 2, .turn "s" "b" 1000000000,
    .reply 0 (.content (some "y") 1) 1000000001]

def forwardTexts (texts : List String) : Event :=
  .request
    (.forward { messages := some (.arr (texts.map fun text => message "user" (.str text))), orgId := some "org" }) 0

/-- Two lists of messages, the second of which is not a continuation of the first. -/
def otherList : List Event :=
  [forwardTexts ["a", "b"], answered 0 "x", forwardTexts ["c"], answered 0 "y"]

/-- A turn whose KV was to be dropped saves a restore, and so does a list of which nothing was
    sent. -/
theorem unjustified_savings :
    ¬(Platform.Sessions.history longIdle).Justified ∧
      ¬(journal sampleEnv "s" otherList).history.Justified := by
  constructor
  · intro justified
    have turns : (Platform.Sessions.history longIdle).served.map (fun r => (r.first, r.lapsed)) =
      [(true, false), (false, true)] := by
      decide +kernel
    obtain ⟨_, rest, served, -, second⟩ := List.map_eq_cons_iff.1 turns
    obtain ⟨r, _, rfl, facts, -⟩ := List.map_eq_cons_iff.1 second
    obtain ⟨first, lapsed⟩ := Prod.mk.inj facts
    have met := (Platform.Sessions.history_justified_iff longIdle).1 justified r (by simp [served])
    simp [first, lapsed] at met
  · intro justified
    have turns : (journal sampleEnv "s" otherList).history.served.map
        (fun r => (r.first, r.talked, r.earlier.map List.length, r.context.length)) =
        [(true, false, [], 2), (false, false, [2], 1)] := by
      decide +kernel
    obtain ⟨_, rest, served, -, second⟩ := List.map_eq_cons_iff.1 turns
    obtain ⟨r, _, rfl, facts, -⟩ := List.map_eq_cons_iff.1 second
    obtain ⟨first, facts⟩ := Prod.mk.inj facts
    obtain ⟨talked, facts⟩ := Prod.mk.inj facts
    obtain ⟨lengths, length⟩ := Prod.mk.inj facts
    have met := (journal_justified_iff sampleEnv "s" otherList).1 justified r (by simp [served])
    simp only [first, talked, Bool.false_eq_true, false_and, false_or] at met
    obtain ⟨-, c, known, part⟩ := met
    have two : c.length ∈ r.earlier.map List.length := List.mem_map_of_mem known
    rw [lengths, List.mem_singleton] at two
    have shorter := part.length_le
    omega

end Dexa.Edge
