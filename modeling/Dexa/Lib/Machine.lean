import Mathlib.Data.List.Basic

/-! # Deterministic machines and their runs

A machine answers each event with an output and a next state; whatever is
nondeterministic in a system (arrival order, timing, failures) is in the event
list.  `exec` and `trace` are the state and the event/output pairs of a run, and
`Meets` says that every step of a run starts in a state and with an event that
satisfy a condition.

Three induction rules carry the proofs about runs: `Meets.run` (an invariant kept by
the steps that meet the condition holds throughout, together with a property of
each output), `history_invariant` (an invariant that also speaks about the run so
far), and `trace_purge` (an unwinding relation makes a run and the same run
without its hidden events give the observed events the same outputs).
-/

namespace Dexa.Lib

structure Machine (σ ε ο : Type*) where
  step : σ → ε → ο × σ

namespace Machine

variable {σ ε ο : Type*} (m : Machine σ ε ο)

def next (s : σ) (e : ε) : σ := (m.step s e).2

def out (s : σ) (e : ε) : ο := (m.step s e).1

def exec (s : σ) : List ε → σ
  | [] => s
  | e :: es => exec (m.next s e) es

/-- The events of a run, each with the output it got. -/
def trace (s : σ) : List ε → List (ε × ο)
  | [] => []
  | e :: es => (e, m.out s e) :: trace (m.next s e) es

/-- Every step of the run starts in a state and with an event satisfying `cond`. -/
def Meets (cond : σ → ε → Prop) : σ → List ε → Prop
  | _, [] => True
  | s, e :: es => cond s e ∧ Meets cond (m.next s e) es

instance decidableMeets (cond : σ → ε → Prop) [∀ s e, Decidable (cond s e)] :
    ∀ s es, Decidable (m.Meets cond s es)
  | _, [] => .isTrue trivial
  | s, e :: es =>
    have := decidableMeets cond (m.next s e) es
    inferInstanceAs (Decidable (cond s e ∧ m.Meets cond (m.next s e) es))

@[simp] theorem exec_nil (s : σ) : m.exec s [] = s := rfl

@[simp] theorem exec_cons (s : σ) (e : ε) (es : List ε) :
    m.exec s (e :: es) = m.exec (m.next s e) es := rfl

theorem exec_append (s : σ) (es es' : List ε) :
    m.exec s (es ++ es') = m.exec (m.exec s es) es' := by
  induction es generalizing s with
  | nil => rfl
  | cons e es ih => exact ih (m.next s e)

theorem exec_snoc (s : σ) (es : List ε) (e : ε) : m.exec s (es ++ [e]) = m.next (m.exec s es) e :=
  m.exec_append s es [e]

theorem trace_append (s : σ) (es es' : List ε) :
    m.trace s (es ++ es') = m.trace s es ++ m.trace (m.exec s es) es' := by
  induction es generalizing s with
  | nil => rfl
  | cons e es ih => exact congrArg (_ :: ·) (ih (m.next s e))

theorem trace_snoc (s : σ) (es : List ε) (e : ε) :
    m.trace s (es ++ [e]) = m.trace s es ++ [(e, m.out (m.exec s es) e)] :=
  m.trace_append s es [e]

/-- What the steps of a run add up to, each seen with the state it starts in. -/
def fold {β : Type*} (f : β → σ → ε → β) (b : β) (s : σ) : List ε → β
  | [] => b
  | e :: es => fold f (f b s e) (m.next s e) es

/-- A count over the steps of a run. -/
def tally (count : σ → ε → Nat) (s : σ) : List ε → Nat
  | [] => 0
  | e :: es => count s e + tally count (m.next s e) es

theorem tally_append (count : σ → ε → Nat) (s : σ) (es es' : List ε) :
    m.tally count s (es ++ es') = m.tally count s es + m.tally count (m.exec s es) es' := by
  induction es generalizing s with
  | nil => exact (Nat.zero_add _).symm
  | cons e es ih => rw [List.cons_append, tally, tally, ih, exec_cons, Nat.add_assoc]

theorem tally_snoc (count : σ → ε → Nat) (s : σ) (es : List ε) (e : ε) :
    m.tally count s (es ++ [e]) = m.tally count s es + count (m.exec s es) e :=
  m.tally_append count s es [e]

@[simp] theorem length_trace (s : σ) (es : List ε) : (m.trace s es).length = es.length := by
  induction es generalizing s with
  | nil => rfl
  | cons e es ih => exact congrArg (· + 1) (ih (m.next s e))

/-- The pair at position `i` of a trace: the event there and its output in the state
    that the events before it lead to. -/
theorem trace_getElem? (s : σ) (es : List ε) (i : Nat) :
    (m.trace s es)[i]? = es[i]?.map fun e => (e, m.out (m.exec s (es.take i)) e) := by
  induction es generalizing s i with
  | nil => simp [trace]
  | cons e es ih =>
    cases i with
    | zero => simp [trace]
    | succ i => simpa [trace] using ih (m.next s e) i

section Invariants

variable {m} {Inv : σ → Prop} {cond : σ → ε → Prop}

theorem Meets.append {s : σ} {es es' : List ε} (h : m.Meets cond s (es ++ es')) :
    m.Meets cond s es ∧ m.Meets cond (m.exec s es) es' := by
  induction es generalizing s with
  | nil => exact ⟨trivial, h⟩
  | cons e es ih => exact ⟨⟨h.1, (ih h.2).1⟩, (ih h.2).2⟩

theorem Meets.snoc {s : σ} {es : List ε} {e : ε} (h : m.Meets cond s es)
    (last : cond (m.exec s es) e) :
    m.Meets cond s (es ++ [e]) := by
  induction es generalizing s with
  | nil => exact ⟨last, trivial⟩
  | cons e' es ih => exact ⟨h.1, ih h.2 last⟩

/-- The condition at each position of the run. -/
theorem meets_iff {s : σ} {es : List ε} :
    m.Meets cond s es ↔ ∀ before e after, es = before ++ e :: after → cond (m.exec s before) e := by
  induction es generalizing s with
  | nil => simp [Meets]
  | cons e es ih =>
    rw [Meets, ih]
    constructor
    · rintro ⟨here, later⟩ before e' after split
      cases before with
      | nil =>
        obtain ⟨rfl, -⟩ := List.cons.inj split
        exact here
      | cons _ before =>
        obtain ⟨rfl, tail⟩ := List.cons.inj split
        exact later before e' after tail
    · intro all
      exact ⟨all [] e es rfl, fun before e' after split => all (e :: before) e' after
        (congrArg (e :: ·) split)⟩

theorem Meets.mono {cond' : σ → ε → Prop} (weaker : ∀ s e, cond s e → cond' s e)
    {s : σ} {es : List ε}
    (h : m.Meets cond s es) : m.Meets cond' s es := by
  induction es generalizing s with
  | nil => trivial
  | cons e es ih => exact ⟨weaker _ _ h.1, ih h.2⟩

theorem Meets.and {cond' : σ → ε → Prop} {s : σ} {es : List ε} (h : m.Meets cond s es)
    (h' : m.Meets cond' s es) :
    m.Meets (fun s e => cond s e ∧ cond' s e) s es := by
  induction es generalizing s with
  | nil => trivial
  | cons e es ih => exact ⟨⟨h.1, h'.1⟩, ih h.2 h'.2⟩

theorem meets_of_mem {es : List ε} (always : ∀ s, ∀ e ∈ es, cond s e) (s : σ) :
    m.Meets cond s es := by
  induction es generalizing s with
  | nil => trivial
  | cons e es ih => exact ⟨always s e List.mem_cons_self,
      ih (fun s' e' later => always s' e' (List.mem_cons_of_mem _ later)) _⟩

theorem meets_of_forall (always : ∀ s e, cond s e) (s : σ) (es : List ε) : m.Meets cond s es :=
  meets_of_mem (fun s e _ => always s e) s

/-- The induction rule for runs: an invariant preserved by every step that meets the
    condition holds at the end of the run, and each output satisfies what a step from an
    invariant state guarantees. -/
theorem Meets.run (Good : ε → ο → Prop)
    (preserved : ∀ s e, Inv s → cond s e → Inv (m.next s e))
    (good : ∀ s e, Inv s → cond s e → Good e (m.out s e))
    {s : σ} {es : List ε} (start : Inv s) (h : m.Meets cond s es) :
    Inv (m.exec s es) ∧ ∀ p ∈ m.trace s es, Good p.1 p.2 := by
  induction es generalizing s with
  | nil => exact ⟨start, by simp [trace]⟩
  | cons e es ih =>
    obtain ⟨final, rest⟩ := ih (preserved s e start h.1) h.2
    refine ⟨final, ?_⟩
    intro p hp
    rcases List.mem_cons.1 hp with rfl | hp
    · exact good s e start h.1
    · exact rest p hp

theorem Meets.invariant (preserved : ∀ s e, Inv s → cond s e → Inv (m.next s e))
    {s : σ} {es : List ε} (start : Inv s) (h : m.Meets cond s es) : Inv (m.exec s es) := by
  induction es generalizing s with
  | nil => exact start
  | cons e es ih => exact ih (preserved s e start h.1) h.2

/-- The induction rule for what a run adds up to. -/
theorem Meets.fold {β : Type*} {f : β → σ → ε → β} {Inv : β → σ → Prop}
    (preserved : ∀ b s e, Inv b s → cond s e → Inv (f b s e) (m.next s e)) {b : β} {s : σ}
    {es : List ε} (start : Inv b s)
    (h : m.Meets cond s es) : Inv (m.fold f b s es) (m.exec s es) := by
  induction es generalizing b s with
  | nil => exact start
  | cons e es ih => exact ih (preserved b s e start h.1) h.2

/-- What a run adds up to has a property exactly when its steps meet a condition, if a step keeps
    the property exactly when it meets the condition. -/
theorem fold_iff {β : Type*} {f : β → σ → ε → β} {Inv : β → σ → Prop} {P : β → Prop}
    (preserved : ∀ b s e, Inv b s → Inv (f b s e) (m.next s e))
    (step : ∀ b s e, Inv b s → (P (f b s e) ↔ P b ∧ cond s e)) {b : β} {s : σ} (start : Inv b s)
    (es : List ε) :
    P (m.fold f b s es) ↔ P b ∧ m.Meets cond s es := by
  induction es generalizing b s with
  | nil => simp [fold, Meets]
  | cons e es ih => rw [fold, ih (preserved b s e start), step b s e start, Meets, and_assoc]

/-- The state after a run has a property exactly when its steps meet a condition, if a step keeps
    the property exactly when it meets the condition. -/
theorem exec_iff {ctx : ε → Prop} {P : σ → Prop}
    (preserved : ∀ s e, Inv s → ctx e → Inv (m.next s e))
    (step : ∀ s e, Inv s → ctx e → (P (m.next s e) ↔ P s ∧ cond s e)) {s : σ} (start : Inv s)
    {es : List ε}
    (inCtx : ∀ e ∈ es, ctx e) : P (m.exec s es) ↔ P s ∧ m.Meets cond s es := by
  induction es generalizing s with
  | nil => simp [Meets]
  | cons e es ih =>
    have here : ctx e := inCtx e List.mem_cons_self
    rw [exec_cons, ih (preserved s e start here)
      fun e' member => inCtx e' (List.mem_cons_of_mem _ member),
      step s e start here, Meets, and_assoc]

/-- Two conditions that agree in invariant states are met by the same runs. -/
theorem Meets.congr {c₁ c₂ : σ → ε → Prop} (preserved : ∀ s e, Inv s → cond s e → Inv (m.next s e))
    (same : ∀ s e, Inv s → cond s e → (c₁ s e ↔ c₂ s e)) {s : σ} {es : List ε} (start : Inv s)
    (h : m.Meets cond s es) : m.Meets c₁ s es ↔ m.Meets c₂ s es := by
  induction es generalizing s with
  | nil => exact Iff.rfl
  | cons e es ih => exact and_congr (same s e start h.1) (ih (preserved s e start h.1) h.2)

/-- The same, where it takes a step that meets the second condition to keep the invariant. -/
theorem Meets.congr_while {ctx c₁ c₂ : σ → ε → Prop}
    (same : ∀ s e, Inv s → ctx s e → (c₁ s e ↔ c₂ s e))
    (preserved : ∀ s e, Inv s → ctx s e → c₂ s e → Inv (m.next s e)) {s : σ} {es : List ε}
    (start : Inv s)
    (h : m.Meets ctx s es) : m.Meets c₁ s es ↔ m.Meets c₂ s es := by
  induction es generalizing s with
  | nil => exact Iff.rfl
  | cons e es ih =>
    rw [Meets, Meets, same s e start h.1]
    exact and_congr_right fun kept => ih (preserved s e start h.1 kept) h.2

/-- The outputs of a run are all good exactly when its steps meet a condition, if that is so
    for each step from an invariant state that meets a context condition. -/
theorem Meets.good_iff {ctx : σ → ε → Prop} (Good : ε → ο → Prop)
    (step : ∀ s e, Inv s → ctx s e → (Good e (m.out s e) ↔ cond s e))
    (preserved : ∀ s e, Inv s → ctx s e → cond s e → Inv (m.next s e)) {s : σ} {es : List ε}
    (start : Inv s)
    (h : m.Meets ctx s es) : (∀ p ∈ m.trace s es, Good p.1 p.2) ↔ m.Meets cond s es := by
  induction es generalizing s with
  | nil => simp [trace, Meets]
  | cons e es ih =>
    rw [trace, List.forall_mem_cons]
    have here := step s e start h.1
    constructor
    · intro all
      have cond := here.1 all.1
      exact ⟨cond, (ih (preserved s e start h.1 cond) h.2).1 all.2⟩
    · intro all
      exact ⟨here.2 all.1, (ih (preserved s e start h.1 all.1) h.2).2 all.2⟩

/-- The unconditional case: an invariant preserved by every step. -/
theorem invariant_exec (preserved : ∀ s e, Inv s → Inv (m.next s e)) {s : σ} (start : Inv s)
    (es : List ε) : Inv (m.exec s es) :=
  Meets.invariant (fun s e inv (_ : True) => preserved s e inv) start
    (meets_of_forall (fun _ _ => trivial) s es)

/-- The rule for properties of the state together with the run that led to it. -/
theorem history_invariant {P : List (ε × ο) → σ → Prop}
    (preserved : ∀ past s e, P past s → P (past ++ [(e, m.out s e)]) (m.next s e))
    {past : List (ε × ο)} {s : σ}
    (start : P past s) (es : List ε) : P (past ++ m.trace s es) (m.exec s es) := by
  induction es generalizing past s with
  | nil => rwa [trace, List.append_nil]
  | cons e es ih =>
    have rest := ih (preserved past s e start)
    rwa [List.append_assoc] at rest

end Invariants

/-- Two machines answer alike along a run if a relation between their states, which may
    speak about the events still to come, is kept by every step. -/
theorem trace_eq_of_simulation {τ : Type*} {n : Machine τ ε ο} (R : List ε → σ → τ → Prop)
    (step : ∀ e es s t, R (e :: es) s t → m.out s e = n.out t e ∧ R es (m.next s e) (n.next t e))
    {es : List ε} {s : σ} {t : τ} (related : R es s t) : m.trace s es = n.trace t es := by
  induction es generalizing s t with
  | nil => rfl
  | cons e es ih =>
    obtain ⟨same, rest⟩ := step e es s t related
    rw [trace, trace, same, ih rest]

/-- The rule for a relation between the states of two machines that every step keeps, where the
    second one's outputs are what can be seen of the first one's. -/
theorem trace_of_simulation {τ ο' : Type*} {n : Machine τ ε ο'} (view : ο → ο') (R : σ → τ → Prop)
    (step : ∀ s t e, R s t → view (m.out s e) = n.out t e ∧ R (m.next s e) (n.next t e)) {s : σ}
    {t : τ} (related : R s t)
    (es : List ε) : (m.trace s es).map (Prod.map id view) = n.trace t es ∧ R (m.exec s es)
    (n.exec t es) := by
  induction es generalizing s t with
  | nil => exact ⟨rfl, related⟩
  | cons e es ih =>
    obtain ⟨same, related'⟩ := step s t e related
    obtain ⟨rest, last⟩ := ih related'
    refine ⟨?_, last⟩
    rw [trace, trace, List.map_cons, rest, Prod.map, same, id]

/-- Two machines that a relation between the past events and their states keeps in step answer
    alike along a run exactly when the events meet the condition under which a step does. -/
theorem trace_eq_iff {τ : Type*} {n : Machine τ ε ο} (R : List ε → σ → τ → Prop) (scope : ε → Prop)
    (cond : List ε → ε → Prop)
    (step : ∀ past s t e, R past s t → scope e →
      (m.out s e = n.out t e ↔ cond past e) ∧ R (past ++ [e]) (m.next s e) (n.next t e))
    {past es : List ε} {s : σ} {t : τ} (related : R past s t) (inScope : ∀ e ∈ es, scope e) :
    m.trace s es = n.trace t es ↔ ∀ before e after, es = before ++ e :: after →
      cond (past ++ before) e := by
  induction es generalizing past s t with
  | nil => simp [trace]
  | cons e es ih =>
    obtain ⟨here, related'⟩ := step past s t e related (inScope e List.mem_cons_self)
    have rest := ih related' fun e' member => inScope e' (List.mem_cons_of_mem _ member)
    simp only [trace, List.cons.injEq, Prod.mk.injEq, true_and, here, rest]
    constructor
    · rintro ⟨now, later⟩ before e' after split
      cases before with
      | nil =>
        obtain ⟨rfl, -⟩ := List.cons.inj split
        rwa [List.append_nil]
      | cons _ before =>
        obtain ⟨rfl, tail⟩ := List.cons.inj split
        simpa using later before e' after tail
    · intro all
      refine ⟨by simpa using all [] e es rfl, ?_⟩
      intro before e' after split
      simpa using all (e :: before) e' after (congrArg (e :: ·) split)

section Purge

variable (R : σ → σ → Prop) (hidden observed : ε → Prop)
  [DecidablePred hidden] [DecidablePred observed]

/-- Unwinding, for runs over the events in `scope`.  If hidden events can be dropped on one
    side, all other events keep the two sides related, and related states answer observed
    events alike, then deleting the hidden events from a run changes no output of an
    observed event. -/
theorem trace_purge (scope : ε → Prop) (disjoint : ∀ e, observed e → ¬ hidden e)
    (drop : ∀ s t e, R s t → scope e → hidden e → R (m.next s e) t)
    (lockstep : ∀ s t e, R s t → scope e → ¬ hidden e → R (m.next s e) (m.next t e))
    (agree : ∀ s t e, R s t → scope e → observed e → m.out s e = m.out t e)
    {s t : σ} (related : R s t) (es : List ε) (inScope : ∀ e ∈ es, scope e) :
    (m.trace s es).filter (fun p => observed p.1) =
      (m.trace t (es.filter fun e => ¬ hidden e)).filter (fun p => observed p.1) := by
  induction es generalizing s t with
  | nil => rfl
  | cons e es ih =>
    have here : scope e := inScope e (List.mem_cons_self ..)
    have later : ∀ e' ∈ es, scope e' := fun e' member => inScope e' (List.mem_cons_of_mem _ member)
    by_cases h : hidden e
    · have unseen : ¬ observed e := fun seen => disjoint e seen h
      simpa [trace, unseen, h] using ih (drop s t e related here h) later
    · have tail := ih (lockstep s t e related here h) later
      by_cases seen : observed e
      · simpa [trace, seen, h, agree s t e related here seen] using tail
      · simpa [trace, seen, h] using tail

end Purge

end Machine

end Dexa.Lib
