import Dexa.Memory.WorkingMemoryBounds

/-! # A working memory is rebuilt from its text

A compaction starts from a prefill of the whole prefix, not from the compact memory before it.  So
what the memory holds is a function of its tokens and of where it was compacted last, however the
text was cut into appends, and what one compaction drops is not lost to the next.

The handles of a memory carry a version: between two handles of one version nothing was compacted.
-/

namespace Dexa.Memory

open Dexa.Core Dexa.Lib Dexa.Compaction

variable {α : Type}

structure MemorySnapshot (α : Type) where
  compact : Option (CompactCache α)
  compactEnd : Nat
  total : Nat
  recentTokens : Nat
  version : Nat

namespace WorkingMemory

def snapshot (s : WorkingMemory α) : MemorySnapshot α :=
  { compact := s.compactMem, compactEnd := s.compactEnd, total := s.total, recentTokens := s.nRecent, version := s.version }

def commit (s : WorkingMemory α) : MemorySnapshot α × WorkingMemory α :=
  let s := { s with version := s.version + 1 }
  (s.snapshot, s)

inductive Call where
  | append (tokenIds : List Int)
  | snapshot
  | commit

section Calls

variable [LinearOrder α] [AddCommGroup α] (backend : ModelBackend α) (compactor : Compactor α)

/-- A call, with the handles taken so far. -/
def call (bound : Nat) (s : WorkingMemory α × List (Call × MemorySnapshot α)) (c : Call) :
    Except Raised (WorkingMemory α × List (Call × MemorySnapshot α)) :=
  match c with
  | .append tokenIds => do return (← append backend compactor bound s.1 tokenIds, s.2)
  | .snapshot => return (s.1, s.2 ++ [(c, s.1.snapshot)])
  | .commit =>
    let (handle, memory) := s.1.commit
    return (memory, s.2 ++ [(c, handle)])

/-- The compact memory of a prefix. -/
def compactOf (config : WorkingMemoryConfig) (tokens : List Int) : Except Raised (CompactCache α) :=
  do
  let full := backend.prefill tokens 0
  let refs :=
    if compactor.needsRefQueries then some
      (backend.referenceQueries tokens config.refStrategy config.refPerHead) else none
  return clipValues
    (← compactor.compact full { tokensPerHead := some config.compactBudget } refs) full

/-- What a memory holds, by its tokens and where it was compacted last. -/
structure Rebuilt (s : WorkingMemory α) : Prop where
  total : s.total = s.allTokens.length
  recent : s.recentRaw = recentOf backend s.allTokens s.compactEnd
  absent : s.compactMem = none → s.compactEnd = 0
  compact : ∀ mem, s.compactMem = some mem → 0 < s.compactEnd ∧
    s.compactEnd + s.config.keepRecentTokens ≤ s.total ∧
    compactOf backend compactor s.config (s.allTokens.take s.compactEnd) = .ok mem

end Calls

/-- `s'` comes after `s`: where nothing was compacted or committed between them, they have the same
    compact memory. -/
structure Later (s s' : WorkingMemory α) : Prop where
  version : s.version ≤ s'.version
  total : s.total ≤ s'.total
  compactEnd : s.compactEnd ≤ s'.compactEnd
  same : s.version = s'.version → s'.compactMem = s.compactMem ∧ s'.compactEnd = s.compactEnd

theorem Later.refl (s : WorkingMemory α) : Later s s :=
  ⟨le_rfl, le_rfl, le_rfl, fun _ => ⟨rfl, rfl⟩⟩

theorem Later.trans {s s' s'' : WorkingMemory α} (first : Later s s') (second : Later s' s'') :
    Later s s'' where
  version := first.version.trans second.version
  total := first.total.trans second.total
  compactEnd := first.compactEnd.trans second.compactEnd
  same version := by
    have := first.version
    have := second.version
    obtain ⟨mem, stop⟩ := first.same (by omega)
    obtain ⟨mem', stop'⟩ := second.same (by omega)
    exact ⟨mem'.trans mem, stop'.trans stop⟩

variable [LinearOrder α] [AddCommGroup α] {backend : ModelBackend α} {compactor : Compactor α}

theorem compactStep_eq (s : WorkingMemory α) :
    compactStep backend compactor s =
      (compactOf backend compactor s.config
        (s.allTokens.take (s.total - s.config.keepRecentTokens))).map fun mem =>
        { refreshRecent backend
            { s with compactMem := some mem, compactEnd := s.total - s.config.keepRecentTokens,
                     peakRecomputeTokens :=
                       max s.peakRecomputeTokens
                         (s.allTokens.take (s.total - s.config.keepRecentTokens)).length } with
          nCompactions := s.nCompactions + 1, version := s.version + 1 } := by
  unfold compactStep compactOf
  simp only [bind, Except.bind, pure, Except.pure]
  split <;> rfl

theorem Rebuilt.end_le {s : WorkingMemory α} (rebuilt : Rebuilt backend compactor s) :
    s.compactEnd ≤ s.total := by
  cases held : s.compactMem with
  | none => exact (rebuilt.absent held).le.trans (Nat.zero_le _)
  | some mem => exact (Nat.le_add_right _ _).trans (rebuilt.compact mem held).2.1

/-- What the appends of a round of the loop keep. -/
structure Appended (backend : ModelBackend α) (compactor : Compactor α) (s s' : WorkingMemory α) :
    Prop extends SameText s s' where
  rebuilt : Rebuilt backend compactor s'
  later : Later s s'
  stop : s'.compactEnd = s.compactEnd ∨ s'.compactEnd + s'.config.keepRecentTokens = s'.total

theorem compactStep_appended {s s' : WorkingMemory α} (rebuilt : Rebuilt backend compactor s)
    (due : s.config.keepRecentTokens < s.total - s.compactEnd)
    (ran : compactStep backend compactor s = .ok s') :
    Appended backend compactor s s' := by
  rw [compactStep_eq] at ran
  obtain ⟨mem, made, rfl⟩ := Fallible.ok_of_map ran
  have whole : s.total - s.config.keepRecentTokens + s.config.keepRecentTokens = s.total := by omega
  constructor
  case toSameText => exact ⟨rfl, rfl⟩
  case rebuilt =>
    constructor
    case total => exact rebuilt.total
    case recent => exact refreshRecent_recent rebuilt.total
    case absent => exact fun none => (Option.some_ne_none _ none).elim
    case compact =>
      intro mem' held
      obtain rfl : mem = mem' := Option.some.inj held
      exact ⟨by change 0 < s.total - s.config.keepRecentTokens; omega, whole.le, made⟩
  case later =>
    refine ⟨Nat.le_succ _, le_rfl, ?_, fun same => absurd same (Nat.ne_of_lt (Nat.lt_succ_self _))⟩
    change s.compactEnd ≤ s.total - s.config.keepRecentTokens
    omega
  case stop => exact .inr whole

omit [LinearOrder α] [AddCommGroup α] in
theorem overBudget_due {s : WorkingMemory α} (due : s.overBudget = true) :
    s.config.keepRecentTokens < s.total - s.compactEnd := by
  unfold overBudget at due
  split at due
  · simp only [Bool.and_eq_true, decide_eq_true_eq] at due
    exact due.2
  · cases due

theorem Appended.refl {s : WorkingMemory α} (rebuilt : Rebuilt backend compactor s) :
    Appended backend compactor s s :=
  { allTokens := rfl, config := rfl, rebuilt, later := .refl s, stop := .inl rfl }

theorem Appended.trans {s s' s'' : WorkingMemory α} (first : Appended backend compactor s s')
    (second : Appended backend compactor s' s'') :
    Appended backend compactor s s'' where
  allTokens := second.allTokens.trans first.allTokens
  config := second.config.trans first.config
  rebuilt := second.rebuilt
  later := first.later.trans second.later
  stop := by
    have total : s''.total = s'.total := by
      rw [second.rebuilt.total, first.rebuilt.total, second.allTokens]
    rcases second.stop with same | cut
    · rw [same, second.config, total]
      exact first.stop
    · exact .inr cut

theorem maybeCompact_appended {s s' : WorkingMemory α} (rebuilt : Rebuilt backend compactor s)
    {bound : Nat}
    (ran : maybeCompact backend compactor bound s = .ok s') : Appended backend compactor s s' := by
  have round : ∀ r r' : Round α, Appended backend compactor s r.memory →
    (r.stop.isNone && r.memory.overBudget) = true →
      some (compactRound backend compactor r) = some r' →
        Appended backend compactor s r'.memory := by
    intro r r' appended enter ran
    obtain rfl := Option.some.inj ran
    have due := overBudget_due (Bool.and_eq_true_iff.1 enter).2
    unfold compactRound
    split
    · exact appended
    · rename_i next stepped
      exact appended.trans (compactStep_appended appended.rebuilt due stepped)
  unfold maybeCompact at ran
  split at ran
  · cases ran
  · rename_i r ended
    have kept := whileLoop_kept round (.refl rebuilt) ended
    split at ran
    · cases ran
    · obtain rfl := Except.ok.inj ran
      exact kept

theorem recordPeak_appended {s s' : WorkingMemory α} (rebuilt : Rebuilt backend compactor s)
    (ran : s.recordPeak = .ok s') :
    Appended backend compactor s s' := by
  obtain ⟨n, -, done⟩ := Fallible.ok_of_bind ran
  obtain rfl := Except.ok.inj done
  exact { allTokens := rfl, config := rfl, rebuilt := { rebuilt with }, later := ⟨le_rfl, le_rfl, le_rfl, fun _ => ⟨rfl, rfl⟩⟩, stop := .inl rfl }

/-- The text that an append has just extended. -/
theorem extended_rebuilt {s : WorkingMemory α} (rebuilt : Rebuilt backend compactor s)
    (tokenIds : List Int) :
    let extended :=
      refreshRecent backend { s with allTokens := s.allTokens ++ tokenIds, total := (s.allTokens ++ tokenIds).length }
    Rebuilt backend compactor extended ∧ Later s extended := by
  have inText := rebuilt.end_le
  rw [rebuilt.total] at inText
  have longer : s.total ≤ (s.allTokens ++ tokenIds).length := by
    rw [rebuilt.total, List.length_append]
    exact Nat.le_add_right _ _
  refine ⟨?_, ⟨le_rfl, longer, le_rfl, fun _ => ⟨rfl, rfl⟩⟩⟩
  constructor
  case total => rfl
  case recent => exact refreshRecent_recent rfl
  case absent => exact rebuilt.absent
  case compact =>
    intro mem held
    obtain ⟨positive, window, made⟩ := rebuilt.compact mem held
    refine ⟨positive, window.trans longer, ?_⟩
    change compactOf backend compactor s.config ((s.allTokens ++ tokenIds).take s.compactEnd) =
      .ok mem
    rw [List.take_append_of_le_length inText]
    exact made

theorem append_rebuilt {s s' : WorkingMemory α} (rebuilt : Rebuilt backend compactor s)
    {bound : Nat} {tokenIds : List Int}
    (ran : append backend compactor bound s tokenIds = .ok s') :
    Rebuilt backend compactor s' ∧ Later s s' ∧ s'.allTokens = s.allTokens ++ tokenIds ∧
      s'.config = s.config ∧
      (s'.compactEnd = s.compactEnd ∨ s'.compactEnd + s.config.keepRecentTokens = s'.total) := by
  unfold append at ran
  split at ran
  · rename_i empty
    obtain rfl := Except.ok.inj ran
    exact ⟨rebuilt, .refl s, by rw [empty, List.append_nil], rfl, .inl rfl⟩
  · obtain ⟨extended, later⟩ := extended_rebuilt rebuilt tokenIds
    obtain ⟨s₁, peak₁, ran⟩ := Fallible.ok_of_bind ran
    obtain ⟨s₂, compacted, peak₃⟩ := Fallible.ok_of_bind ran
    have first := recordPeak_appended extended peak₁
    have second := maybeCompact_appended first.rebuilt compacted
    have last := (first.trans second).trans (recordPeak_appended second.rebuilt peak₃)
    refine ⟨last.rebuilt, later.trans last.later, last.allTokens, last.config, ?_⟩
    rcases last.stop with same | cut
    · exact .inl same
    · exact .inr (last.config ▸ cut)

variable (backend compactor) in
theorem new_rebuilt {budget keep : Int} {strategy : String} {perHead : Int} {s : WorkingMemory α}
    (accepted : new budget keep strategy perHead = .ok s) : Rebuilt backend compactor s ∧
      s.allTokens = [] ∧ s.compactEnd = 0 ∧
      (s.config.keepRecentTokens : Int) = keep := by
  unfold new at accepted
  split at accepted
  · cases accepted
  · split at accepted
    · cases accepted
    · obtain rfl := Except.ok.inj accepted
      refine ⟨?_, rfl, rfl, Int.toNat_of_nonneg (by omega)⟩
      constructor
      case total => rfl
      case recent => rfl
      case absent => exact fun _ => rfl
      case compact => exact fun mem held => by cases held

theorem appendAll_rebuilt {s s' : WorkingMemory α} (rebuilt : Rebuilt backend compactor s)
    {bound : Nat} {calls : List (List Int)}
    (ran : appendAll backend compactor bound s calls = .ok s') :
    Rebuilt backend compactor s' ∧ s'.allTokens = s.allTokens ++ calls.flatten ∧
      s'.config = s.config ∧
      (s'.compactEnd = s.compactEnd ∨ ∃ k ≤ calls.length,
        s'.compactEnd + s.config.keepRecentTokens =
          (s.allTokens ++ (calls.take k).flatten).length) := by
  induction calls generalizing s with
  | nil =>
    obtain rfl := Except.ok.inj ran
    exact ⟨rebuilt, by simp, rfl, .inl rfl⟩
  | cons tokens calls ih =>
    rw [appendAll, List.foldlM_cons] at ran
    obtain ⟨s₁, first, rest⟩ := Fallible.ok_of_bind ran
    obtain ⟨rebuilt₁, -, text₁, config₁, stop₁⟩ := append_rebuilt rebuilt first
    obtain ⟨rebuilt₂, text₂, config₂, stop₂⟩ := ih rebuilt₁ rest
    refine ⟨rebuilt₂,
      by rw [text₂, text₁, List.flatten_cons, List.append_assoc], config₂.trans config₁, ?_⟩
    rcases stop₂ with same | ⟨k, within, cut⟩
    · rcases stop₁ with same₁ | cut₁
      · exact .inl (same.trans same₁)
      · refine .inr ⟨1, Nat.succ_le_succ (Nat.zero_le _), ?_⟩
        simp only [List.take_succ_cons, List.take_zero, List.flatten_cons, List.flatten_nil,
          List.append_nil]
        rw [same, cut₁, rebuilt₁.total, text₁]
    · refine .inr ⟨k + 1, Nat.succ_le_succ within, ?_⟩
      rw [List.take_succ_cons, List.flatten_cons, ← List.append_assoc, ← text₁, ← config₁]
      exact cut

/-- The memory after any appends is that of its text, compacted at the end of one of them but for
    the recent window; another history of the same text, compacted last at the same place, leaves
    the same memory. -/
theorem workingMemory_rebuilt [Inhabited α] {budget keep : Int} {strategy : String} {perHead : Int}
    {start : WorkingMemory α}
    (accepted : new budget keep strategy perHead = .ok start) {bound : Nat}
    {calls : List (List Int)} {s : WorkingMemory α}
    (ran : appendAll backend compactor bound start calls = .ok s) :
    s.allTokens = calls.flatten ∧ Rebuilt backend compactor s ∧
      (s.compactEnd = 0 ∨ ∃ k ≤ calls.length,
        (s.compactEnd : Int) + keep = (calls.take k).flatten.length) ∧
      ∀ bound' calls' s', appendAll backend compactor bound' start calls' = .ok s' →
        calls'.flatten = calls.flatten →
        s'.compactEnd = s.compactEnd → s'.compactMem = s.compactMem ∧ s'.recentRaw = s.recentRaw ∧
          s'.combined backend = s.combined backend := by
  obtain ⟨fresh, none, zero, window⟩ := new_rebuilt backend compactor accepted
  obtain ⟨rebuilt, text, config, stop⟩ := appendAll_rebuilt fresh ran
  rw [none, List.nil_append] at text
  refine ⟨text, rebuilt, ?_, fun bound' calls' s' ran' same cut => ?_⟩
  · rcases stop with never | ⟨k, within, stop⟩
    · exact .inl (never.trans zero)
    · refine .inr ⟨k, within, ?_⟩
      rw [none, List.nil_append] at stop
      omega
  · obtain ⟨rebuilt', text', config', -⟩ := appendAll_rebuilt fresh ran'
    rw [none, List.nil_append, same, ← text] at text'
    have recent : s'.recentRaw = s.recentRaw := by rw [rebuilt'.recent, rebuilt.recent, text', cut]
    -- there is a compact memory exactly after a cut, and it is made of the text before the cut
    have compact : s'.compactMem = s.compactMem := by
      cases held' : s'.compactMem with
      | none =>
        cases held : s.compactMem with
        | none => rfl
        | some mem =>
          have := (rebuilt.compact mem held).1
          have := rebuilt'.absent held'
          omega
      | some mem' =>
        obtain ⟨positive, -, made'⟩ := rebuilt'.compact mem' held'
        cases held : s.compactMem with
        | none =>
          have := rebuilt.absent held
          omega
        | some mem =>
          obtain ⟨-, -, made⟩ := rebuilt.compact mem held
          rw [config', text', cut, ← config, made] at made'
          exact congrArg some (Except.ok.inj made').symm
    have total : s'.total = s.total := by rw [rebuilt'.total, rebuilt.total, text']
    refine ⟨compact, recent, ?_⟩
    simp only [combined, compact, recent, total, cut]

/-! ## Handles of a run -/

/-- `handle` was taken of `s` at some time: it holds what was compacted of the text by then. -/
structure Taken (backend : ModelBackend α) (compactor : Compactor α) (s : WorkingMemory α)
    (handle : MemorySnapshot α) : Prop where
  version : handle.version ≤ s.version
  total : handle.total ≤ s.total
  compactEnd : handle.compactEnd ≤ s.compactEnd
  same : handle.version = s.version → s.compactMem = handle.compact ∧
    s.compactEnd = handle.compactEnd
  absent : handle.compact = none → handle.compactEnd = 0
  compact : ∀ mem, handle.compact = some mem →
    compactOf backend compactor s.config (s.allTokens.take handle.compactEnd) = .ok mem

theorem Rebuilt.taken {s : WorkingMemory α} (rebuilt : Rebuilt backend compactor s) :
    Taken backend compactor s s.snapshot :=
  ⟨le_rfl, le_rfl, le_rfl, fun _ => ⟨rfl, rfl⟩, rebuilt.absent,
    fun mem held => (rebuilt.compact mem held).2.2⟩

/-- A handle stays one of the memory. -/
theorem Taken.later {s s' : WorkingMemory α} {handle : MemorySnapshot α}
    (taken : Taken backend compactor s handle)
    (rebuilt : Rebuilt backend compactor s) (later : Later s s') (config : s'.config = s.config)
    (text : s.allTokens <+: s'.allTokens) :
    Taken backend compactor s' handle where
  version := taken.version.trans later.version
  total := taken.total.trans later.total
  compactEnd := taken.compactEnd.trans later.compactEnd
  same version := by
    have := taken.version
    have := later.version
    obtain ⟨mem, stop⟩ := taken.same (by omega)
    obtain ⟨mem', stop'⟩ := later.same (by omega)
    exact ⟨mem'.trans mem, stop'.trans stop⟩
  absent := taken.absent
  compact mem held := by
    obtain ⟨more, whole⟩ := text
    have inText := taken.compactEnd.trans rebuilt.end_le
    rw [rebuilt.total] at inText
    rw [config, ← whole, List.take_append_of_le_length inText]
    exact taken.compact mem held

/-- What the handles taken before a later one have to do with it. -/
def Precedes (a b : Call × MemorySnapshot α) : Prop :=
  a.2.version ≤ b.2.version ∧ a.2.total ≤ b.2.total ∧ a.2.compactEnd ≤ b.2.compactEnd ∧
    (b.1 = .commit → a.2.version < b.2.version) ∧
      (a.2.version = b.2.version → b.2.compact = a.2.compact ∧ b.2.compactEnd = a.2.compactEnd)

structure Handles (backend : ModelBackend α) (compactor : Compactor α)
    (s : WorkingMemory α × List (Call × MemorySnapshot α)) : Prop where
  rebuilt : Rebuilt backend compactor s.1
  taken : ∀ e ∈ s.2, Taken backend compactor s.1 e.2
  ordered : s.2.Pairwise Precedes

theorem call_handles {s s' : WorkingMemory α × List (Call × MemorySnapshot α)}
    (handles : Handles backend compactor s) {bound : Nat}
    {c : Call} (ran : call backend compactor bound s c = .ok s') :
      Handles backend compactor s' := by
  obtain ⟨memory, past⟩ := s
  cases c with
  | append tokenIds =>
    obtain ⟨next, appended, done⟩ := Fallible.ok_of_bind ran
    obtain rfl := Except.ok.inj done
    obtain ⟨rebuilt, later, text, config, -⟩ := append_rebuilt handles.rebuilt appended
    exact ⟨rebuilt, fun e member => (handles.taken e member).later handles.rebuilt later config
      (text ▸ List.prefix_append _ _),
      handles.ordered⟩
  | snapshot =>
    obtain rfl := Except.ok.inj ran
    refine ⟨handles.rebuilt, ?_, ?_⟩
    · intro e member
      rcases List.mem_append.1 member with old | new
      · exact handles.taken e old
      · rw [List.mem_singleton.1 new]
        exact handles.rebuilt.taken
    · refine List.pairwise_append.2 ⟨handles.ordered, List.pairwise_singleton _ _,
        fun e member e' new => ?_⟩
      rw [List.mem_singleton.1 new]
      have taken := handles.taken e member
      exact ⟨taken.version, taken.total, taken.compactEnd, (fun commit => by cases commit),
        taken.same⟩
  | commit =>
    obtain rfl := Except.ok.inj ran
    have rebuilt : Rebuilt backend compactor memory.commit.2 := { handles.rebuilt with }
    have later : Later memory memory.commit.2 :=
      ⟨Nat.le_succ _, le_rfl, le_rfl, fun same => absurd same (Nat.ne_of_lt (Nat.lt_succ_self _))⟩
    refine ⟨rebuilt, ?_, ?_⟩
    · intro e member
      rcases List.mem_append.1 member with old | new
      · exact (handles.taken e old).later handles.rebuilt later rfl (List.prefix_refl _)
      · rw [List.mem_singleton.1 new]
        exact rebuilt.taken
    · refine List.pairwise_append.2 ⟨handles.ordered, List.pairwise_singleton _ _,
        fun e member e' new => ?_⟩
      rw [List.mem_singleton.1 new]
      have taken := handles.taken e member
      -- a commit is a version of its own, so no older handle has it
      have strict : e.2.version < memory.commit.2.version := Nat.lt_succ_of_le taken.version
      exact ⟨strict.le, taken.total, taken.compactEnd, fun _ => strict,
        fun same => absurd same strict.ne⟩

/-- The handles of any run are ordered by their versions; each holds the compact memory of a
    beginning of the text, and two of one version hold the same one. -/
theorem handles_by_version {budget keep : Int} {strategy : String} {perHead : Int}
    {start : WorkingMemory α}
    (accepted : new budget keep strategy perHead = .ok start) {bound : Nat} {calls : List Call}
    {s : WorkingMemory α × List (Call × MemorySnapshot α)}
    (ran : calls.foldlM (call backend compactor bound) (start, []) = .ok s) :
    s.2.Pairwise Precedes ∧ ∀ e ∈ s.2, Taken backend compactor s.1 e.2 := by
  have fresh : Handles backend compactor (start, []) :=
    ⟨(new_rebuilt backend compactor accepted).1, (fun e member => by cases member), .nil⟩
  have handles :=
    Fallible.foldlM_invariant (fun s c s' handles ran => call_handles handles ran) fresh ran
  exact ⟨handles.ordered, handles.taken⟩

/-! ## What a run costs -/

/-- The counters of a memory whose longest append had `longest` tokens. -/
structure Costs (longest : Nat) (s : WorkingMemory α) : Prop where
  peak : s.peakTokens ≤ s.config.budgetTokens + longest
  recompute : s.peakRecomputeTokens = s.compactEnd
  version : s.version = s.nCompactions

/-- The loop compacts at most once: after that just the recent window is raw. -/
structure AtMostOnce (s s' : WorkingMemory α) : Prop where
  total : s'.total = s.total
  config : s'.config = s.config
  peak : s'.peakTokens = s.peakTokens
  recompute : s'.peakRecomputeTokens = s'.compactEnd
  version : s'.version = s'.nCompactions
  compactions : s'.nCompactions = s.nCompactions ∨ s'.nCompactions = s.nCompactions + 1 ∧
    s'.compactEnd = s.total - s.config.keepRecentTokens

theorem maybeCompact_atMostOnce {s s' : WorkingMemory α} {bound : Nat}
    (ran : maybeCompact backend compactor bound s = .ok s')
    (whole : s.total = s.allTokens.length) (recompute : s.peakRecomputeTokens = s.compactEnd)
    (version : s.version = s.nCompactions) :
    AtMostOnce s s' := by
  have round : ∀ r r' : Round α, AtMostOnce s r.memory ∧ r.memory.allTokens = s.allTokens →
      (r.stop.isNone && r.memory.overBudget) = true →
        some (compactRound backend compactor r) = some r' →
      AtMostOnce s r'.memory ∧ r'.memory.allTokens = s.allTokens := by
    rintro r r' ⟨once, text⟩ enter ran
    obtain rfl := Option.some.inj ran
    have due := overBudget_due (Bool.and_eq_true_iff.1 enter).2
    unfold compactRound
    split
    · exact ⟨once, text⟩
    · rename_i next stepped
      rw [compactStep_eq] at stepped
      obtain ⟨mem, -, rfl⟩ := Fallible.ok_of_map stepped
      have config := once.config
      have total := once.total
      -- a round after the first would not have been entered
      have first : r.memory.nCompactions = s.nCompactions := by
        rcases once.compactions with first | ⟨-, stop⟩
        · exact first
        · rw [config, total] at due
          omega
      have length :
        (r.memory.allTokens.take (r.memory.total - r.memory.config.keepRecentTokens)).length =
          r.memory.total - r.memory.config.keepRecentTokens := by
        rw [List.length_take, text, ← whole, total]
        omega
      refine ⟨⟨total, config, once.peak, ?_, congrArg (· + 1) once.version,
        .inr ⟨congrArg (· + 1) first, ?_⟩⟩, text⟩
      · change max r.memory.peakRecomputeTokens _ =
          r.memory.total - r.memory.config.keepRecentTokens
        rw [length, once.recompute]
        omega
      · change r.memory.total - r.memory.config.keepRecentTokens = _
        rw [total, config]
  unfold maybeCompact at ran
  split at ran
  · cases ran
  · rename_i r ended
    have start : AtMostOnce s s ∧ s.allTokens = s.allTokens :=
      ⟨⟨rfl, rfl, rfl, recompute, version, .inl rfl⟩, rfl⟩
    have kept := whileLoop_kept round start ended
    split at ran
    · cases ran
    · obtain rfl := Except.ok.inj ran
      exact kept.1

section Run

variable (shaped : Shaped backend) (compacts : Compacts compactor backend)
include shaped compacts

theorem append_costs {s s' : WorkingMemory α} (consistent : Consistent backend s)
    (within : WithinBudget s) {longest bound : Nat}
    (enough : 1 ≤ bound) (costs : Costs longest s) {tokenIds : List Int}
    (ran : append backend compactor bound s tokenIds = .ok s') :
    Costs (max longest tokenIds.length) s' ∧
      s'.nCompactions ≤ s.nCompactions + if tokenIds = [] then 0 else 1 := by
  obtain ⟨s'', always, -, -, config, n', current', small'⟩ :=
    append_ok shaped compacts consistent within tokenIds
  obtain rfl : s'' = s' := Except.ok.inj ((always bound enough).symm.trans ran)
  unfold append at ran
  split at ran
  · obtain rfl := Except.ok.inj ran
    refine ⟨⟨?_, costs.recompute, costs.version⟩, Nat.le_add_right _ _⟩
    have := costs.peak
    omega
  · rename_i some
    obtain ⟨s₁, peak₁, ran⟩ := Fallible.ok_of_bind ran
    obtain ⟨s₂, compacted, peak₃⟩ := Fallible.ok_of_bind ran
    obtain ⟨n₁, current₁, done⟩ := Fallible.ok_of_bind peak₁
    obtain rfl := Except.ok.inj done
    obtain ⟨n₃, current₃, done⟩ := Fallible.ok_of_bind peak₃
    obtain rfl := Except.ok.inj done
    have once := maybeCompact_atMostOnce compacted rfl costs.recompute costs.version
    -- before it compacts, the working set is longer by what was appended
    obtain ⟨n, current, small⟩ := within
    obtain ⟨held, phys, same⟩ := Fallible.ok_of_bind current
    obtain ⟨held₁, phys₁, same₁⟩ := Fallible.ok_of_bind current₁
    obtain rfl : held = held₁ := Except.ok.inj (phys.symm.trans phys₁)
    have raw := consistent.nRecent shaped
    have raw₁ := nRecent_eq shaped (s := refreshRecent backend
      { s with allTokens := s.allTokens ++ tokenIds, total := (s.allTokens ++ tokenIds).length }) rfl (refreshRecent_recent rfl)
    change _ = (s.allTokens ++ tokenIds).length - s.compactEnd at raw₁
    have longer : (s.allTokens ++ tokenIds).length = s.total + tokenIds.length := by
      rw [List.length_append, consistent.total]
    have inText := consistent.end_le
    have grown : n₁ ≤ n + tokenIds.length := by
      have sum : held + s.nRecent = n := Except.ok.inj same
      have sum₁ : held + _ = n₁ := Except.ok.inj same₁
      omega
    obtain rfl : n₃ = n' := Except.ok.inj (current₃.symm.trans current')
    have peak := costs.peak
    have budget₂ : s₂.config.budgetTokens = s.config.budgetTokens := by rw [once.config]; rfl
    have peaked : s₂.peakTokens = max s.peakTokens n₁ := once.peak
    refine ⟨⟨?_, once.recompute, once.version⟩, ?_⟩
    · change max s₂.peakTokens n₃ ≤ s₂.config.budgetTokens + _
      change n₃ ≤ s₂.config.budgetTokens at small'
      omega
    · rw [if_neg some]
      change s₂.nCompactions ≤ s.nCompactions + 1
      have started : (s₂.nCompactions = s.nCompactions ∨ s₂.nCompactions = s.nCompactions + 1 ∧
        _) := once.compactions
      omega

/-- The tokens of the longest append. -/
def longest (calls : List (List Int)) : Nat := (calls.map List.length).foldr max 0

omit [LinearOrder α] [AddCommGroup α] shaped compacts in
theorem new_costs {budget keep : Int} {strategy : String} {perHead : Int} {s : WorkingMemory α}
    (accepted : new budget keep strategy perHead = .ok s) : Costs 0 s ∧ s.nCompactions = 0 := by
  unfold new at accepted
  split at accepted
  · cases accepted
  · split at accepted
    · cases accepted
    · obtain rfl := Except.ok.inj accepted
      exact ⟨⟨Nat.zero_le _, rfl, rfl⟩, rfl⟩

theorem appendAll_costs {s s' : WorkingMemory α} (consistent : Consistent backend s)
    (within : WithinBudget s) {bound : Nat}
    (enough : 1 ≤ bound) {limit : Nat} (costs : Costs limit s) {calls : List (List Int)}
    (ran : appendAll backend compactor bound s calls = .ok s') :
    Costs (max limit (longest calls)) s' ∧
      s'.nCompactions ≤ s.nCompactions + (calls.filter (· ≠ [])).length := by
  induction calls generalizing s limit with
  | nil =>
    obtain rfl := Except.ok.inj ran
    exact ⟨by simpa [longest] using costs, Nat.le_add_right _ _⟩
  | cons tokens calls ih =>
    rw [appendAll, List.foldlM_cons] at ran
    obtain ⟨s₁, first, rest⟩ := Fallible.ok_of_bind ran
    obtain ⟨next, always, consistent₁, -, -, within₁⟩ :=
      append_ok shaped compacts consistent within tokens
    obtain rfl : next = s₁ := Except.ok.inj ((always bound enough).symm.trans first)
    obtain ⟨costs₁, once⟩ := append_costs shaped compacts consistent within enough costs first
    obtain ⟨costs₂, more⟩ := ih consistent₁ within₁ costs₁ rest
    refine ⟨by simpa [longest, max_assoc] using costs₂, more.trans ?_⟩
    by_cases empty : tokens = []
    · simpa [empty] using once
    · simp only [if_neg empty] at once
      simp only [ne_eq, empty, not_false_eq_true, decide_true, List.filter_cons_of_pos,
        List.length_cons]
      omega

/-- The working set is over the budget by at most the tokens of one append, and only before that
    append compacts; there are no more compactions than appends, and none reads more than what is
    compacted at the end. -/
theorem workingMemory_costs {budget keep : Int} {strategy : String} {perHead : Int}
    {start : WorkingMemory α}
    (accepted : new budget keep strategy perHead = .ok start) (calls : List (List Int)) :
    ∃ s : WorkingMemory α,
      (∀ bound, 1 ≤ bound → appendAll backend compactor bound start calls = .ok s) ∧
      (s.peakTokens : Int) ≤ budget + longest calls ∧ s.peakRecomputeTokens = s.compactEnd ∧
        s.version = s.nCompactions ∧
      s.nCompactions ≤ (calls.filter (· ≠ [])).length := by
  obtain ⟨fresh, within, -, accepted_budget⟩ := new_ok accepted backend
  obtain ⟨costs, none⟩ := new_costs accepted
  obtain ⟨s, ran, -, -, config, -⟩ := appendAll_ok shaped compacts fresh within calls
  obtain ⟨spent, compactions⟩ :=
    appendAll_costs shaped compacts fresh within le_rfl costs (ran 1 le_rfl)
  refine ⟨s, ran, ?_, spent.recompute, spent.version, by rwa [none, Nat.zero_add] at compactions⟩
  have peak := spent.peak
  rw [config] at peak
  omega

/-- A run of calls over a compactor that honours its budget does not raise. -/
theorem calls_ok {s : WorkingMemory α × List (Call × MemorySnapshot α)} (consistent : Consistent backend s.1) (within : WithinBudget s.1)
    (calls : List Call) : ∃ s', calls.foldlM (call backend compactor 1) s = .ok s' := by
  induction calls generalizing s with
  | nil => exact ⟨s, rfl⟩
  | cons c calls ih =>
    rw [List.foldlM_cons]
    cases c with
    | append tokenIds =>
      obtain ⟨next, always, consistent', -, -, within'⟩ := append_ok shaped compacts consistent within tokenIds
      have ran : call backend compactor 1 s (.append tokenIds) = .ok (next, s.2) := by rw [call, always 1 le_rfl]; rfl
      rw [ran]
      exact ih consistent' within'
    | snapshot => exact ih consistent within
    | commit => exact ih { consistent with } within

end Run

/-! ## Three tokens -/

section Three

def threeTokens : WorkingMemory Int where
  config :=
    { budgetTokens := 3, keepRecentTokens := 1, refStrategy := "repeat_prefill", refPerHead := 128, fits := by decide }

theorem threeTokens_new : (new 3 1 : Except Raised (WorkingMemory Int)) = .ok threeTokens := rfl

theorem workingMemory_rebuilt_three :
    ∃ s, appendAll sumBackend recentWindow 1 threeTokens [[1, 2], [], [3, 4, 5]] = .ok s ∧
      Rebuilt sumBackend recentWindow s ∧
      s.allTokens = [1, 2, 3, 4, 5] := by
  obtain ⟨fresh, within, -, -⟩ := new_ok threeTokens_new sumBackend
  obtain ⟨s, ran, -⟩ :=
    appendAll_ok sumBackend_shaped (recentWindow_compacts sumBackend_shaped) fresh within [[1, 2],
      [], [3, 4, 5]]
  obtain ⟨text, rebuilt, -⟩ := workingMemory_rebuilt threeTokens_new (ran 1 le_rfl)
  exact ⟨s, ran 1 le_rfl, rebuilt, text⟩

theorem handles_by_version_three :
    ∃ s, [Call.append [1, 2], .snapshot, .append [3, 4, 5], .commit, .snapshot].foldlM
      (call sumBackend recentWindow 1) (threeTokens, []) =
      .ok s ∧ s.2.Pairwise Precedes := by
  obtain ⟨fresh, within, -, -⟩ := new_ok threeTokens_new sumBackend
  obtain ⟨s, ran⟩ :=
    calls_ok sumBackend_shaped (recentWindow_compacts sumBackend_shaped)
      (s := (threeTokens, [])) fresh within
    [.append [1, 2], .snapshot, .append [3, 4, 5], .commit, .snapshot]
  exact ⟨s, ran, (handles_by_version threeTokens_new ran).1⟩

theorem workingMemory_costs_three :
    ∃ s : WorkingMemory Int,
      (∀ bound, 1 ≤ bound →
      appendAll sumBackend recentWindow bound threeTokens [[1, 2], [], [3, 4, 5]] = .ok s) ∧
      (s.peakTokens : Int) ≤ 6 ∧ s.nCompactions ≤ 2 := by
  obtain ⟨s, ran, peak, -, -, compactions⟩ :=
    workingMemory_costs sumBackend_shaped (recentWindow_compacts sumBackend_shaped)
    threeTokens_new [[1, 2], [], [3, 4, 5]]
  exact ⟨s, ran, peak, compactions⟩

end Three

end WorkingMemory

end Dexa.Memory
