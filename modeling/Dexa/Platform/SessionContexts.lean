import Dexa.Platform.SessionTurns

/-! # The context of a turn

A turn is sent with the messages its session has when the turn starts, and recorded behind the
ones it has when the answer comes.  They are the same exactly when no other turn of the session
was recorded in between.
-/

namespace Dexa.Platform.Sessions

open Dexa.Lib

/-- Each recorded turn was sent with the session's messages before its pair, and its own. -/
def AnsweredInContext (l : Ledger) (s : Service) : Prop :=
  ∀ (obj : Nat) (session : Session) (entry : Entry), s.objects[obj]? = some session →
    l.entries[obj]? = some entry →
    ∀ (before : List Recorded) (r : Recorded) (after : List Recorded),
      entry.turns = before ++ r :: after →
      r.sent = session.messages.take (entry.initial.length + 2 * before.length) ++ [r.user]

def Entry.Answered (e : Entry) : Prop :=
  ∀ (before : List Recorded) (r : Recorded) (after : List Recorded),
    e.turns = before ++ r :: after → r.sent = e.initial ++ before.flatMap Recorded.pair ++ [r.user]

def Ledger.Answered (l : Ledger) : Prop := ∀ e ∈ l.entries, e.Answered

theorem length_pairs (turns : List Recorded) :
    (turns.flatMap Recorded.pair).length = 2 * turns.length := by
  induction turns with
  | nil => rfl
  | cons r turns ih =>
    rw [List.flatMap_cons, List.length_append, ih, List.length_cons, Recorded.pair,
      List.length_cons, List.length_singleton]
    omega

/-- The messages before a turn are a part of the session's. -/
theorem Entry.take_messages {e : Entry} {before after : List Recorded} {r : Recorded}
    (turns : e.turns = before ++ r :: after) :
    e.account.messages.take (e.initial.length + 2 * before.length) =
      e.initial ++ before.flatMap Recorded.pair := by
  have messages : e.account.messages =
      (e.initial ++ before.flatMap Recorded.pair) ++ (r :: after).flatMap Recorded.pair := by
    rw [Entry.account, turns, List.flatMap_append, List.append_assoc]
  have length : (e.initial ++ before.flatMap Recorded.pair).length = e.initial.length +
    2 * before.length := by
    rw [List.length_append, length_pairs]
  rw [messages, ← length, List.take_left]

theorem Tracked.messages_eq {l : Ledger} {s : Service} (tracked : Tracked l s) {obj : Nat}
    {session : Session} {entry : Entry}
    (there : s.objects[obj]? = some session) (isEntry : l.entries[obj]? = some entry) :
    session.messages = entry.account.messages := by
  obtain ⟨entry', isEntry', same⟩ := tracked.entry_at there
  obtain rfl : entry = entry' := Option.some.inj (isEntry.symm.trans isEntry')
  exact (congrArg Account.messages same).symm

theorem Tracked.answered_iff {l : Ledger} {s : Service} (tracked : Tracked l s) :
    AnsweredInContext l s ↔ l.Answered := by
  have sizes : s.objects.length = l.entries.length := by
    have same := congrArg List.length tracked.kept
    rwa [List.length_map, List.length_map] at same
  constructor
  · intro all entry member before r after turns
    obtain ⟨obj, isEntry⟩ := List.mem_iff_getElem?.1 member
    have inside : obj < s.objects.length := sizes ▸ (List.getElem?_eq_some_iff.1 isEntry).1
    have there : s.objects[obj]? = some s.objects[obj] := List.getElem?_eq_getElem inside
    rw [all obj _ entry there isEntry before r after turns, tracked.messages_eq there isEntry,
      Entry.take_messages turns]
  · intro all obj session entry there isEntry before r after turns
    rw [all entry (List.mem_of_getElem? isEntry) before r after turns,
      tracked.messages_eq there isEntry,
      Entry.take_messages turns]

/-- One more turn is answered in its context exactly when it was sent with all messages. -/
theorem Entry.answered_add (e : Entry) (r : Recorded) :
    (e.add r).Answered ↔ e.Answered ∧ r.sent = e.account.messages ++ [r.user] := by
  constructor
  · intro all
    refine ⟨fun before r' after turns => ?_, all e.turns r [] rfl⟩
    refine all before r' (after ++ [r]) ?_
    rw [Entry.add, turns, List.append_assoc]
    rfl
  · rintro ⟨all, last⟩ before r' after turns
    change e.turns ++ [r] = before ++ r' :: after at turns
    cases after using List.reverseRecOn with
    | nil =>
      obtain ⟨same, here⟩ := List.append_inj' turns rfl
      obtain rfl := List.cons.inj here |>.1
      rw [← same]
      exact last
    | append_singleton after r'' _ =>
      rw [← List.cons_append, ← List.append_assoc] at turns
      exact all before r' after (List.append_inj' turns rfl).1

theorem Entry.Answered.length_sent {e : Entry} (answered : e.Answered) {k : Nat} {r : Recorded}
    (turn : e.turns[k]? = some r) :
    r.sent.length = e.initial.length + 2 * k + 1 := by
  obtain ⟨inside, here⟩ := List.getElem?_eq_some_iff.1 turn
  have turns : e.turns = e.turns.take k ++ r :: e.turns.drop (k + 1) := by
    rw [← here, ← List.drop_eq_getElem_cons inside, List.take_append_drop]
  rw [answered _ _ _ turns, List.length_append, List.length_append, length_pairs,
    List.length_take_of_le inside.le,
    List.length_singleton]

/-- A turn is recorded on a session with as many messages as it had when the turn read it. -/
def Service.upToDate (s : Service) : Event → Bool
  | .reply i (.content ..) _ =>
    (s.flights[i]?).all fun f => (s.objects[f.obj]?).all
      fun session => f.full.length == session.messages.length + 1
  | _ => true

/-- A turn that has read a part of its session has read all of it when the counts agree. -/
theorem sent_iff {messages context : List Json} (part : context <+: messages) (m : Json) :
    context ++ [m] = messages ++ [m] ↔ (context ++ [m]).length = messages.length + 1 := by
  rw [List.append_left_inj, List.length_append, List.length_singleton, Nat.add_right_cancel_iff]
  constructor
  · exact congrArg List.length
  · exact part.eq_of_length

/-- Only a recorded turn can be out of context. -/
theorem Ledger.answered_noted (l : Ledger) (s : Service) (e : Event) {r : Reply}
    (quiet : (∀ i reply now, e ≠ .reply i reply now) ∨ ∀ t, r ≠ .turn t) :
      (l.noted s e r).Answered ↔ l.Answered := by
  unfold Ledger.noted
  split
  · next body _ _ =>
    have fresh : Entry.Answered { initial := initMessages body } := fun before r after turns =>
      absurd turns (by simp)
    exact ⟨fun all e member => all e (List.mem_append_left _ member),
      fun all => forall_mem_concat all fresh⟩
  · exact Iff.rfl
  · next i reply now t =>
    cases quiet with
    | inl other => exact absurd rfl (other i reply now)
    | inr other => exact absurd rfl (other t)
  · exact Iff.rfl
  · exact Iff.rfl

theorem note_of_step {l : Ledger} {s s' : Service} {e : Event} {r : Reply}
    (stepped : service.step s e = (r, s')) :
    l.note s e = l.noted s e r := by
  rw [Ledger.note, Machine.out, stepped]

/-- A step keeps all recorded turns in context unless it records one that was overtaken. -/
theorem Tracked.answered_next {l : Ledger} {s : Service} (tracked : Tracked l s) (e : Event) :
    (l.note s e).Answered ↔ l.Answered ∧ s.upToDate e = true := by
  cases e with
  | reply i reply now =>
    cases found : s.flights[i]? with
    | none =>
      have stepped : service.step s (.reply i reply now) = (.notFound, s) :=
        finishTurn_none found reply now
      rw [note_of_step stepped, l.answered_noted s _ (.inr fun t same => by cases same)]
      cases reply <;> simp [Service.upToDate, found]
    | some f =>
      cases reply with
      | raised =>
        have stepped : service.step s (.reply i .raised now) = _ := finishTurn_raised found now
        rw [note_of_step stepped, l.answered_noted s _ (.inr fun t same => by cases same)]
        simp [Service.upToDate]
      | content text latencyMs =>
        obtain ⟨t, session, session', there, answered, -⟩ :=
          finishTurn_answered tracked found text latencyMs now
        obtain ⟨-, session₀, there₀, context, part, full⟩ :=
          tracked.inFlight f (List.mem_of_getElem? found)
        obtain rfl : session = session₀ := Option.some.inj (there.symm.trans there₀)
        have stepped : service.step s (.reply i (.content text latencyMs) now) = _ := answered
        have pendingAt : l.pending[i]? = some f.pending := by
          rw [← tracked.pending, List.getElem?_map, found, Option.map_some]
        obtain ⟨entry, isEntry, -⟩ := tracked.entry_at there
        have overtaken : f.full = entry.account.messages ++ [f.userMsg] ↔
            s.upToDate (.reply i (.content text latencyMs) now) = true := by
          rw [← tracked.messages_eq there isEntry, full, sent_iff part]
          simp [Service.upToDate, found, there, full]
        rw [note_of_step stepped, ← overtaken]
        simp only [Ledger.noted, pendingAt]
        exact forall_mem_modify isEntry (Entry.answered_add ..)
  | _ =>
    rw [Ledger.note, l.answered_noted s _ (.inl fun i reply now same => by cases same)]
    simp [Service.upToDate]

/-- In every run, each recorded turn was answered in the context it is recorded in exactly when
no turn was recorded on a session that another one had been recorded on since it was read. -/
theorem answered_in_context_iff (es : List Event) :
    AnsweredInContext (ledger es) (service.exec {} es) ↔
      service.Meets (fun s e => s.upToDate e = true) {} es := by
  have run : (ledger es).Answered ↔ Ledger.Answered {} ∧
    service.Meets (fun s e => s.upToDate e = true) {} es :=
    Machine.fold_iff (fun l s e (tracked : Tracked l s) => tracked.next e)
      (fun l s e tracked => tracked.answered_next e)
      tracked_empty es
  have nothing : Ledger.Answered {} := fun e member => absurd member List.not_mem_nil
  rw [(tracked_ledger es).answered_iff, run, and_iff_right nothing]

/-- Two turns of a session that overlap. -/
def overlapping : List Event :=
  [.create "s" {} 0, .turn "s" "a" 1, .turn "s" "b" 2, .reply 0 (.content (some "x") 1) 3,
    .reply 0 (.content (some "y") 1) 4]

/-- The second turn was sent without the first, and is recorded behind it. -/
theorem overlapping_out_of_context :
    ¬ AnsweredInContext (ledger overlapping) (service.exec {} overlapping) := by
  intro all
  have sizes :
    (ledger overlapping).entries.map
    (fun e => (e.initial.length, e.turns[1]?.map fun r => r.sent.length)) =
      [(0, some 1)] := by decide +kernel
  obtain ⟨e, rest, entries, head, -⟩ := List.map_eq_cons_iff.1 sizes
  obtain ⟨initial, second⟩ := Prod.mk.inj head
  obtain ⟨r, turn, length⟩ := Option.map_eq_some_iff.1 second
  have answered := (tracked_ledger overlapping).answered_iff.1 all e (entries ▸ List.mem_cons_self)
  have three := answered.length_sent turn
  omega

end Dexa.Platform.Sessions
