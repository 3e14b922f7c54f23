import Dexa.Platform.SessionTurns
import Dexa.Platform.TierOrder

/-! # When a turn saves a restore

A turn counts as restored when its session has had a turn before, and then adds what a restore
saves.  A history keeps, for each turn, the contexts that the session's successful turns had been
sent with when it was sent: a restore is possible only if one of them is a prefix of its own, and
the idle gap has not dropped the KV.
-/

namespace Dexa.Platform.Sessions

open Dexa.Lib
open Dexa.Edge (Profile Tier interpolate smallest largest profiles)

/-- A turn when it is sent. -/
structure Sent where
  session : Nat
  context : List Json
  /-- the contexts that successful turns of the session had been sent with -/
  earlier : List (List Json)
  /-- the session has been idle for longer than storing its KV pays -/
  lapsed : Bool
  /-- the session, as the turn reads it, has had no turn -/
  first : Bool
  /-- the session, as the turn reads it, holds the messages of a turn -/
  talked : Bool
  /-- the context is the caller's message list -/
  forwarded : Bool

/-- A turn that succeeded. -/
structure Served extends Sent where
  /-- the tier decided for the idle gap -/
  tier : Tier
  /-- it added a saving to the totals -/
  credited : Bool

/-- What the turn sends goes on from what a successful turn had sent. -/
def Sent.Extends (p : Sent) : Prop := ∃ c ∈ p.earlier, c <+: p.context

/-- A saving is for a restore that could have happened. -/
def Served.Justified (r : Served) : Prop := r.credited = true → r.Extends ∧ r.tier ≠ .drop

structure History where
  inFlight : List Sent := []
  served : List Served := []

namespace History

/-- The contexts that successful turns of a session were sent with. -/
def contexts (h : History) (session : Nat) : List (List Json) :=
  (h.served.filter fun r => r.session = session).map fun r => r.context

def send (h : History) (session : Nat) (context : List Json)
    (lapsed first talked forwarded : Bool) : History :=
  { h with inFlight := h.inFlight ++ [{ session, context, earlier := h.contexts session, lapsed, first, talked, forwarded }] }

def fail (h : History) (i : Nat) : History := { h with inFlight := h.inFlight.eraseIdx i }

def succeed (h : History) (i : Nat) (tier : Tier) (credited : Bool) : History :=
  match h.inFlight[i]? with
  | some p => { inFlight := h.inFlight.eraseIdx i, served := h.served ++ [{ p with tier, credited }] }
  | none => h

def Justified (h : History) : Prop := ∀ r ∈ h.served, r.Justified

theorem succeed_of_found {h : History} {i : Nat} {p : Sent} (found : h.inFlight[i]? = some p)
    (tier : Tier) (credited : Bool) :
    h.succeed i tier credited =
      { inFlight := h.inFlight.eraseIdx i, served := h.served ++ [{ p with tier, credited }] } := by
  rw [succeed, found]

theorem contexts_succeed {h : History} {i : Nat} {p : Sent} (found : h.inFlight[i]? = some p)
    (tier : Tier) (credited : Bool)
    (session : Nat) :
    (h.succeed i tier credited).contexts session =
      h.contexts session ++ if p.session = session then [p.context] else [] := by
  rw [succeed_of_found found, contexts, contexts, List.filter_append, List.map_append,
    List.filter_singleton]
  by_cases here : p.session = session <;> simp [here]

end History

/-- What a restore spares grows with the context, so it is least for one token. -/
def least : ℚ := 271 / 4096

theorem spared_interpolate {lo : ℚ × Profile} {rows : List (ℚ × Profile)} (rising : Rising lo rows) {t c : ℚ} (above : lo.1 ≤ t)
    (each : ∀ row ∈ lo :: rows, c ≤ row.2.prefillMs - row.2.restoreCpuMs) :
    c ≤ (interpolate t lo rows).prefillMs - (interpolate t lo rows).restoreCpuMs := by
  induction rows generalizing lo with
  | nil => exact each lo List.mem_cons_self
  | cons hi rows ih =>
    obtain ⟨-, wider, -, rest⟩ := rising
    have start := each lo List.mem_cons_self
    have stop := each hi (List.mem_cons_of_mem _ List.mem_cons_self)
    rw [interpolate]
    split
    · next beyond => exact ih rest beyond.le fun row member => each row (List.mem_cons_of_mem _ member)
    · next within =>
      obtain ⟨low, high⟩ := fraction wider above (not_lt.1 within)
      simp only [Profile.lerp]
      nlinarith

theorem spared {t : ℚ} (one : 1 ≤ t) :
    least ≤ (Edge.profileFor t).prefillMs - (Edge.profileFor t).restoreCpuMs := by
  rw [Edge.profileFor]
  split
  · simp only [Profile.scale, smallest, least]
    linarith
  split
  · next high =>
    simp only [Profile.scale, largest, least] at high ⊢
    linarith
  · next low _ =>
    refine spared_interpolate rising_profiles (not_le.1 low).le ?_
    decide +kernel

theorem roundHalfEven_pos {q : ℚ} (half : 1 / 2 < q) : 0 < roundHalfEven q := by
  have below : 0 ≤ q.floor := Rat.le_floor_iff.2 (by push_cast; linarith)
  simp only [roundHalfEven]
  cases below.lt_or_eq with
  | inl positive => split_ifs <;> omega
  | inr zero =>
    rw [← zero, Int.cast_zero, sub_zero, if_neg (not_lt.2 half.le), if_pos half]
    decide

/-- The saving is not zero. -/
def EstimatedSavings.adds (s : EstimatedSavings) : Bool := s.savedUsd ≠ 0 || s.savedMs ≠ 0

/-- A turn that counts as restored adds a saving, and no other. -/
theorem adds_estimatedSavings {tokens : Nat} (one : 1 ≤ tokens) (warm : Bool) :
    (estimatedSavings tokens warm).adds = warm := by
  cases warm with
  | false => rfl
  | true =>
    have spares : least ≤ (profileFor tokens).prefillMs - (profileFor tokens).restoreCpuMs := by
      rw [profileFor_eq]
      exact spared (by exact_mod_cast one)
    have half :
      1 / 2 < max 0
      ((profileFor tokens).prefillMs - (profileFor tokens).restoreCpuMs) * 10 ^ 1 := by
      have large := spares.trans (le_max_right 0 _)
      rw [least] at large
      linarith
    have saved : (estimatedSavings tokens true).savedMs ≠ 0 := by
      have rounded := roundHalfEven_pos half
      change pyRound 1 (max 0 ((profileFor tokens).prefillMs - (profileFor tokens).restoreCpuMs)) ≠
        0
      rw [pyRound]
      positivity
    simp [EstimatedSavings.adds, saved]

/-! ## Idle gaps -/

theorem tierFor_eq_drop {be : Edge.Breakevens} (ram : be.warmS < be.ramS)
    (nvme : be.ramS < be.nvmeS) (idle : ℚ) :
    Edge.tierFor idle be = .drop ↔ be.nvmeS < idle := by
  simp only [Edge.tierFor]
  constructor
  · intro drop
    split_ifs at drop with _ _ within
    exact not_le.1 within
  · intro past
    rw [if_neg (by linarith), if_neg (by linarith), if_neg (by linarith)]

/-- The KV of a context is not worth storing for so long. -/
def lapses (idleS : ℚ) (messages : List Json) : Bool :=
  match estTokens messages with
  | .ok tokens => (breakevens tokens).nvmeS < (idleS : WithTop ℚ)
  | .error _ => false

theorem lapses_eq {idleS : ℚ} {messages : List Json} {tokens : Nat}
    (counted : estTokens messages = .ok tokens) (one : 1 ≤ tokens) :
    lapses idleS messages = decide ((decideTier idleS tokens).tier = .drop) := by
  obtain ⟨ram, nvme⟩ := breakevens_ordered (show (0 : ℚ) < tokens by exact_mod_cast one)
  simp only [lapses, counted, breakevens_finite one, decideTier_tier one, tierFor_eq_drop ram nvme,
    WithTop.coe_lt_coe]

/-! ## The service -/

/-- What an event and its response tell. -/
def History.noted (h : History) (s : Service) (e : Event) (r : Reply) : History :=
  match e, r with
  | .turn sid _ now, .awaits call =>
    match s.get sid with
    | some (obj, session) =>
      h.send obj call.messages (lapses (now - session.lastActive) call.messages)
        (session.turns == 0) (session.turns != 0) false
    | none => h
  | .reply i _ _, .turn t => h.succeed i t.tier t.savings.adds
  | .reply i _ _, _ => h.fail i
  | _, _ => h

def History.note (h : History) (s : Service) (e : Event) : History := h.noted s e (service.out s e)

/-- The turn in flight is the one that was noted; unless it is its session's first, a turn of the
    session was sent with a part of its context. -/
structure Flight.Noted (f : Flight) (p : Sent) : Prop where
  session : f.obj = p.session
  context : f.full = p.context
  first : f.firstTouch = p.first
  counted : 1 ≤ f.tokens
  lapsed : p.lapsed = decide (f.decision.tier = .drop)
  extends_ : p.first = false → p.Extends

/-- Each session with a turn goes on from what a turn of it was sent with; the first turns of a
    session are sent with its initial messages. -/
structure Remembers (h : History) (s : Service) : Prop where
  flights : List.Forall₂ Flight.Noted s.flights h.inFlight
  fresh : ∀ f ∈ s.flights, ∀ session, s.objects[f.obj]? = some session → session.turns = 0 →
    f.full = session.messages ++ [f.userMsg]
  begun : ∀ obj session, s.objects[obj]? = some session → session.turns ≠ 0 →
    ∃ c ∈ h.contexts obj, c <+: session.messages
  served : ∀ r ∈ h.served, r.credited = !r.first ∧ r.lapsed = decide (r.tier = .drop) ∧
    (r.first = false → r.Extends)

/-- What a turn reads, with its token count. -/
theorem Session.beginTurn_counted {s : Session} {obj : Nat} {content : String}
    {now : ℚ} {f : Flight}
    (begun : s.beginTurn obj content now = .ok f) :
    f.firstTouch = (s.turns == 0) ∧ estTokens f.full = .ok f.tokens ∧ 1 ≤ f.tokens ∧
      f.decision = decideTier (now - s.lastActive) f.tokens := by
  obtain ⟨tokens, counted, result⟩ := Fallible.ok_of_bind begun
  obtain rfl := Except.ok.inj result
  refine ⟨rfl, counted, ?_, rfl⟩
  obtain ⟨n, -, least⟩ := Fallible.ok_of_bind counted
  obtain rfl := Except.ok.inj least
  exact le_max_left ..

/-- What a successful turn reports. -/
theorem finishTurn_reply {s s' : Service} {i : Nat} {reply : BackendReply} {now : ℚ} {t : TurnReply}
    {f : Flight}
    (found : s.flights[i]? = some f) (answered : s.finishTurn i reply now = (.turn t, s')) :
    t.tier = f.decision.tier ∧ t.savings = estimatedSavings f.tokens (!f.firstTouch) := by
  simp only [Service.finishTurn, found] at answered
  cases reply with
  | raised => cases answered
  | content text latencyMs =>
    simp only [runTurn] at answered
    split at answered
    · next res session ran there =>
      obtain rfl := Option.some.inj ran
      dsimp only at answered
      split at answered
      · cases answered
      · cases answered
        exact ⟨rfl, rfl⟩
    · cases answered

theorem Remembers.of_step {h : History} {s s' : Service} {e : Event} {r : Reply}
    (stepped : s.step e = (r, s'))
    (remembers : Remembers (h.noted s e r) s') : Remembers (h.note s e) (service.next s e) := by
  have machine : service.step s e = (r, s') := stepped
  rwa [History.note, Machine.out, Machine.next, machine]

theorem Remembers.next {l : Ledger} {h : History} {s : Service} (tracked : Tracked l s)
    (remembers : Remembers h s) (e : Event) :
    Remembers (h.note s e) (service.next s e) := by
  obtain ⟨flights, fresh, begun, served⟩ := id remembers
  cases e with
  | create id body now =>
    obtain ⟨session, made, messages, account⟩ := newSession_ok id body now
    have turns : session.turns = 0 := congrArg Account.turns account
    have stepped : s.step (.create id body now) =
        (.session (session.toPublic now),
          { s with objects := s.objects ++ [session], byId := s.byId.set id s.objects.length }) := by
      simp only [Service.step, Service.create, made]
    refine .of_step stepped ⟨flights, ?_, ?_, served⟩
    · intro f member session' there untouched
      obtain ⟨-, read, inside, -⟩ := tracked.inFlight f member
      rw [List.getElem?_append_left (List.getElem?_eq_some_iff.1 inside).1] at there
      exact fresh f member session' there untouched
    · intro obj session' there turned
      by_cases old : obj < s.objects.length
      · rw [List.getElem?_append_left old] at there
        exact begun obj session' there turned
      · rw [List.getElem?_append_right (not_lt.1 old)] at there
        obtain rfl := List.mem_singleton.1 (List.mem_of_getElem? there)
        exact absurd turns turned
  | turn sid content now =>
    cases found : s.get sid with
    | none =>
      have stepped : s.step (.turn sid content now) = (.notFound, s) := by
        rw [Service.step, Service.beginTurn, found]
      exact .of_step stepped remembers
    | some there =>
      obtain ⟨obj, session⟩ := there
      obtain ⟨present, there⟩ := get_eq_some found
      have plain := tracked.plain session (List.mem_of_getElem? there)
      obtain ⟨f, made, rfl, user, full⟩ := Session.beginTurn_plain plain obj content now
      obtain ⟨first, counted, one, decision⟩ := Session.beginTurn_counted made
      have stepped :
        s.step (.turn sid content now) =
        (.awaits ⟨f.full⟩, { s with flights := s.flights ++ [f] }) := by
        simp only [Service.step, Service.beginTurn, found, made]
      refine .of_step stepped ?_
      simp only [History.noted, History.send, found]
      -- the gap is measured at the send, before the turn is in flight
      have lapsed :
        lapses (now - session.lastActive) f.full = decide (f.decision.tier = .drop) := by
        rw [lapses_eq counted one, decision]
      refine ⟨forall₂_concat flights ⟨rfl, rfl, first, one, lapsed, fun again => ?_⟩,
        forall_mem_concat fresh ?_, begun, served⟩
      · -- the session has had a turn, so it goes on from one
        obtain ⟨c, sent, part⟩ := begun f.obj session there (by simpa using again)
        exact ⟨c, sent, part.trans (full ▸ List.prefix_append ..)⟩
      · intro session' there' _
        obtain rfl := Option.some.inj (there.symm.trans there')
        rw [full, user]
  | reply i reply now =>
    cases found : s.flights[i]? with
    | none =>
      have stepped : s.step (.reply i reply now) = (.notFound, s) := finishTurn_none found reply now
      refine .of_step stepped ⟨?_, fresh, begun, served⟩
      have outside : h.inFlight.length ≤ i := flights.length_eq ▸ List.getElem?_eq_none_iff.1 found
      simpa only [History.noted, History.fail, List.eraseIdx_of_length_le outside] using flights
    | some f =>
      obtain ⟨p, noted, sent⟩ := forall₂_getElem? flights found
      cases reply with
      | raised =>
        exact .of_step (finishTurn_raised found now) ⟨forall₂_eraseIdx flights i,
          forall_mem_eraseIdx fresh i, begun, served⟩
      | content text latencyMs =>
        obtain ⟨t, session, session', there, answered, account⟩ :=
          finishTurn_answered tracked found text latencyMs now
        obtain ⟨tier, savings⟩ := finishTurn_reply found answered
        have stepped : s.step (.reply i (.content text latencyMs) now) = _ := answered
        have messages : session'.messages =
            session.messages ++ [f.userMsg, message "assistant" (replyContent t.content)] :=
              congrArg Account.messages account
        have turns : session'.turns = session.turns + 1 := congrArg Account.turns account
        have inside := (List.getElem?_eq_some_iff.1 there).1
        have contexts := History.contexts_succeed noted t.tier t.savings.adds
        -- the reply goes to the object, whatever its id refers to by now
        refine .of_step stepped ⟨?_, ?_, ?_, ?_⟩
        · simpa only [History.noted,
            History.succeed_of_found noted] using forall₂_eraseIdx flights i
        · refine forall_mem_eraseIdx (fun f' member session'' there'' untouched => ?_) i
          by_cases same : f.obj = f'.obj
          · rw [← same, List.getElem?_set_self inside] at there''
            obtain rfl := Option.some.inj there''
            omega
          · rw [List.getElem?_set_ne same] at there''
            exact fresh f' member session'' there'' untouched
        · intro obj session'' there'' turned
          change ∃ c ∈ (h.succeed i t.tier t.savings.adds).contexts obj, c <+: session''.messages
          rw [contexts]
          by_cases same : f.obj = obj
          · subst same
            rw [List.getElem?_set_self inside] at there''
            obtain rfl := Option.some.inj there''
            rw [messages]
            by_cases untouched : session.turns = 0
            · -- the first turn to be recorded was sent with the initial messages
              have full := fresh f (List.mem_of_getElem? found) session there untouched
              refine ⟨p.context, ?_, ?_⟩
              · simp [sent.session]
              · rw [← sent.context, full]
                exact ⟨[message "assistant" (replyContent t.content)], by simp⟩
            · obtain ⟨c, known, part⟩ := begun f.obj session there untouched
              exact ⟨c, List.mem_append_left _ known, part.trans (List.prefix_append ..)⟩
          · rw [List.getElem?_set_ne same] at there''
            obtain ⟨c, known, part⟩ := begun obj session'' there'' turned
            exact ⟨c, List.mem_append_left _ known, part⟩
        · simp only [History.noted, History.succeed_of_found noted]
          refine forall_mem_concat served ⟨?_, ?_, sent.extends_⟩
          · rw [savings, adds_estimatedSavings sent.counted, sent.first]
          · rw [tier]
            exact sent.lapsed
  | get sid now =>
    cases found : s.get sid with
    | none =>
      have stepped : s.step (.get sid now) = (.notFound, s) := by rw [Service.step, found]
      exact .of_step stepped remembers
    | some there =>
      have stepped : s.step (.get sid now) = (.session (there.2.toPublic now), s) := by
        rw [Service.step, found]
      exact .of_step stepped remembers
  | list now => exact remembers
  | delete sid =>
    cases present : (s.byId.get? sid).isSome with
    | false =>
      have stepped : s.step (.delete sid) = (.notFound, s) := by simp [Service.step, present]
      exact .of_step stepped remembers
    | true =>
      have stepped :
        s.step (.delete sid) = (.deleted sid, { s with byId := s.byId.erase sid }) := by
        simp [Service.step, present]
      exact .of_step stepped ⟨flights, fresh, begun, served⟩

/-- The turns of a run. -/
def history (es : List Event) : History := service.fold History.note {} {} es

theorem remembers_history (es : List Event) : Remembers (history es) (service.exec {} es) := by
  have start : (∃ l, Tracked l {}) ∧ Remembers {} {} := by
    refine ⟨⟨_, tracked_empty⟩, .nil, ?_, ?_, ?_⟩
    · exact fun f member => absurd member List.not_mem_nil
    · exact fun obj session there => by cases there
    · exact fun r member => absurd member List.not_mem_nil
  have run : (∃ l, Tracked l (service.exec {} es)) ∧
    Remembers (history es) (service.exec {} es) := by
    refine Machine.Meets.fold
      (fun h s e (inv : (∃ l, Tracked l s) ∧ Remembers h s) (_ : True) => ?_) start
      (Machine.meets_of_forall (fun _ _ => trivial) _ es)
    obtain ⟨⟨l, tracked⟩, remembers⟩ := inv
    exact ⟨⟨_, tracked.next e⟩, remembers.next tracked e⟩
  exact run.2

/-- In every run of the service, all savings are for restores that could have happened exactly when
    no turn after its session's first came later than storing the KV pays. -/
theorem history_justified_iff (es : List Event) :
    (history es).Justified ↔ ∀ r ∈ (history es).served, r.first = true ∨ r.lapsed = false := by
  refine forall₂_congr fun r member => ?_
  obtain ⟨credited, lapsed, extends_⟩ := (remembers_history es).served r member
  rw [Served.Justified, credited, lapsed]
  cases first : r.first with
  | true => simp
  | false => simp [extends_ first]

end Dexa.Platform.Sessions
