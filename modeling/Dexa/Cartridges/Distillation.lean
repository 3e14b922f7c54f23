import Dexa.Cartridges.Compiler
import Dexa.Lib.Divergence

/-! # What a cartridge is trained for (`dexa/cartridge/compiler.py`)

The loss of an item is the divergence of the student from the teacher over the answer.  It is 0
exactly when the student answers as the teacher does.  With a budget for the whole corpus the
student starts as the teacher.
-/

namespace Dexa.Cartridges

open Dexa.Core Dexa.Lib Dexa.Lib.Divergence Dexa.Compaction Dexa.Engine

variable {α τ H Λ σ : Type}

/-- The loss of one item: `KL(teacher || student)` over the answer span, averaged. -/
noncomputable def klLoss (item : TrainingItem (List ℝ)) (student : List (List ℝ)) : ℝ :=
  let rows :=
    List.zipWith divergence (item.teacher.map logSoftmax)
      ((lastOf item.span student).map logSoftmax)
  rows.sum / rows.length

theorem length_lastOf {β : Type} {n : Nat} {l : List β} (positive : 0 < n) (short : n ≤ l.length) :
    (lastOf n l).length = n := by
  rw [lastOf, if_neg positive.ne', List.length_drop]
  omega

theorem lastOf_length {β : Type} (l : List β) : lastOf l.length l = l := by
  unfold lastOf
  split <;> simp

theorem mem_of_mem_lastOf {β : Type} {n : Nat} {l : List β} {x : β} (member : x ∈ lastOf n l) :
    x ∈ l := by
  unfold lastOf at member
  split at member
  · exact member
  · exact List.mem_of_mem_drop member

section Items

variable [Inhabited α] [Field α] {b : HFBackend α τ Λ} {full : KVCache α}

/-- An item of the self-study: the teacher's logits over the answer that ends its query. -/
structure Studied (b : HFBackend α τ Λ) (full : KVCache α) (item : TrainingItem Λ) : Prop where
  span : 0 < item.span
  inQuery : item.span ≤ item.query.length
  teacher : ∃ logits, b.decodeLogits (.float32 full) item.query = some logits ∧
    item.teacher = lastOf item.span logits

theorem askAbout_studied {tok : Tokenizer} {pick : Nat → Λ → Int} {corpusIds : List Int}
    {answerLen i st : Nat} {item : TrainingItem Λ}
    (asked : askAbout b tok pick full corpusIds answerLen i st = some (some item)) :
      Studied b full item := by
  simp only [askAbout, Option.bind_eq_bind, Option.bind_eq_some_iff] at asked
  obtain ⟨question, -, asked⟩ := asked
  split at asked
  · cases asked
  · obtain ⟨answer, -, asked⟩ := Option.bind_eq_some_iff.1 asked
    split at asked
    · cases asked
    · rename_i long
      obtain ⟨logits, decoded, same⟩ := Option.bind_eq_some_iff.1 asked
      obtain rfl := Option.some.inj (Option.some.inj same)
      exact ⟨by dsimp only; omega, by simp only [List.length_append]; omega, logits, decoded, rfl⟩

theorem studySpan_studied (total : ∀ ids logits, b.decodeLogits (.float32 full) ids = some logits →
    logits.length = ids.length)
    {corpusIds : List Int} {spanLen st : Nat} {out out' : List (TrainingItem Λ) × List Nat}
    (studied : ∀ item ∈ out.1, Studied b full item)
    (ran : studySpan b full corpusIds spanLen out st = some out') :
    ∀ item ∈ out'.1, Studied b full item := by
  unfold studySpan at ran
  split at ran
  · cases ran
    exact studied
  · simp only [Option.bind_eq_bind] at ran
    split at ran
    · cases ran
      exact studied
    · rename_i long
      obtain ⟨logits, decoded, same⟩ := Option.bind_eq_some_iff.1 ran
      obtain rfl := Option.some.inj same
      intro item member
      rcases List.mem_append.1 member with old | new
      · exact studied item old
      · obtain rfl := List.mem_singleton.1 new
        have length := total _ _ decoded
        exact ⟨by dsimp only; omega, le_rfl, logits, decoded, by simp [← length, lastOf_length]⟩

theorem selfStudy_studied (total : ∀ ids logits, b.decodeLogits (.float32 full) ids = some logits →
    logits.length = ids.length)
    {tok : Tokenizer} {pick : Nat → Λ → Int} {corpusIds : List Int} {options : CompileOptions}
    {items : List (TrainingItem Λ)}
    (ran : selfStudy b tok pick full corpusIds options = some items) : ∀ item ∈ items,
      Studied b full item := by
  unfold selfStudy at ran
  split at ran
  · simp only [selfstudyQa, Option.bind_eq_bind, Option.bind_eq_some_iff, Option.pure_def,
      Option.some.injEq] at ran
    obtain ⟨asked, done, rfl⟩ := ran
    intro item member
    have among : some item ∈ asked := by simpa using member
    obtain ⟨_, -, here⟩ := Fallible.of_mem_mapM done among
    exact askAbout_studied here
  · split at ran
    · obtain ⟨out, done, same⟩ := Option.bind_eq_some_iff.1 ran
      obtain rfl := Option.some.inj same
      exact Fallible.foldlM_some_invariant (P := fun out => ∀ item ∈ out.1, Studied b full item)
        (fun out st out' studied ran => studySpan_studied total studied ran) (by simp) done
    · cases ran

end Items

section Loss

variable {item : TrainingItem (List ℝ)} {vocab : Nat}

/-- The rows of one loss: as many on both sides, over one vocabulary. -/
structure Comparable (item : TrainingItem (List ℝ)) (student : List (List ℝ))
    (vocab : Nat) : Prop where
  some : 0 < vocab
  rows : 0 < item.teacher.length
  same : item.teacher.length = (lastOf item.span student).length
  teacher : ∀ row ∈ item.teacher, row.length = vocab
  student : ∀ row ∈ lastOf item.span student, row.length = vocab

theorem sum_eq_zero_iff_of_nonneg {xs : List ℝ} (nonneg : ∀ x ∈ xs, 0 ≤ x) : xs.sum = 0 ↔
    ∀ x ∈ xs, x = 0 := by
  induction xs with
  | nil => simp
  | cons x xs ih =>
    have rest := fun y member => nonneg y (List.mem_cons_of_mem _ member)
    have below := List.sum_nonneg rest
    rw [List.sum_cons, List.forall_mem_cons, ← ih rest,
      add_eq_zero_iff_of_nonneg (nonneg x List.mem_cons_self) below]

theorem klLoss_spec {student : List (List ℝ)} (comparable : Comparable item student vocab) :
    0 ≤ klLoss item student ∧ (klLoss item student = 0 ↔ (lastOf item.span student).map logSoftmax = item.teacher.map logSoftmax) := by
  have rows : ∀ i (left : i < item.teacher.length) (right : i < (lastOf item.span student).length),
      0 ≤ divergence (logSoftmax item.teacher[i]) (logSoftmax (lastOf item.span student)[i]) ∧
      (divergence (logSoftmax item.teacher[i]) (logSoftmax (lastOf item.span student)[i]) = 0 ↔
        logSoftmax item.teacher[i] = logSoftmax (lastOf item.span student)[i]) := by
    intro i left right
    have here := comparable.teacher _ (List.getElem_mem left)
    have sameLength := here.trans (comparable.student _ (List.getElem_mem right)).symm
    have nonempty : item.teacher[i] ≠ [] := List.length_pos_iff.1 (here ▸ comparable.some)
    exact ⟨divergence_nonneg sameLength nonempty, divergence_eq_zero_iff sameLength nonempty⟩
  let losses := List.zipWith divergence (item.teacher.map logSoftmax) ((lastOf item.span student).map logSoftmax)
  have count : losses.length = item.teacher.length := by simp [losses, comparable.same]
  have nonneg : ∀ x ∈ losses, 0 ≤ x := by
    intro x member
    obtain ⟨i, inside, rfl⟩ := List.mem_iff_getElem.1 member
    have left : i < item.teacher.length := count ▸ inside
    simpa [losses] using (rows i left (comparable.same ▸ left)).1
  have positive : (0 : ℝ) < losses.length := by
    rw [count]
    exact_mod_cast comparable.rows
  refine ⟨div_nonneg (List.sum_nonneg nonneg) positive.le, ?_⟩
  have unfolded : klLoss item student = losses.sum / losses.length := rfl
  -- an average of rows that are not negative is 0 only where every row is
  rw [unfolded, div_eq_zero_iff, or_iff_left positive.ne', sum_eq_zero_iff_of_nonneg nonneg]
  constructor
  · intro zero
    apply List.ext_getElem (by simp [comparable.same])
    intro i left right
    have row : i < item.teacher.length := by simpa using right
    have at' := zero losses[i] (List.getElem_mem (count.symm ▸ row))
    simpa [losses] using ((rows i row (comparable.same ▸ row)).2.1 (by simpa [losses] using at')).symm
  · intro same x member
    obtain ⟨i, inside, rfl⟩ := List.mem_iff_getElem.1 member
    have left : i < item.teacher.length := count ▸ inside
    have right : i < (lastOf item.span student).length := comparable.same ▸ left
    have equal : (item.teacher.map logSoftmax)[i]? = ((lastOf item.span student).map logSoftmax)[i]? := by rw [same]
    simpa [losses] using (rows i left right).2.2 (by simpa [left, right] using equal)

end Loss

section Objective

variable [Inhabited α] [Field α] [Inhabited τ] [Field τ] {b : HFBackend α τ (List ℝ)}
  {llama : Llama τ H (List ℝ)}
  {sdpa : NDArray τ → NDArray τ → NDArray τ → NDArray τ → NDArray τ} {full : KVCache α}
  {vocab : Nat}

omit [Inhabited τ] [Field τ] in
theorem mem_pass {attentions : List (Projected τ → NDArray τ)} {positionIds inputIds : List Int}
    {row : List ℝ}
    (lmHead : ∀ h, (llama.lmHead h).length = vocab)
    (member : row ∈ llama.pass attentions positionIds inputIds) : row.length = vocab := by
  obtain ⟨h, -, rfl⟩ := List.mem_map.1 member
  exact lmHead h

variable (spec : full.spec = b.model.spec) (cache : CacheOf b.model.spec full)
  (shaped : llama.Shaped b.model.spec)
  (lmHead : ∀ h, (llama.lmHead h).length = vocab) (zero : b.fromFloat 0 = 0)
  (runs : b.decode = llama.decode b.model.spec.groupSize b.fromFloat)
  (masked : MaskedSdpa b.model.spec.groupSize llama sdpa)
include shaped lmHead runs

/-- The teacher's logits: a row for each token. -/
theorem decodeLogits_rows {inputIds : List Int} {logits : List (List ℝ)}
    (decoded : b.decodeLogits (.float32 full) inputIds = some logits) :
    logits.length = inputIds.length ∧ ∀ row ∈ logits, row.length = vocab := by
  obtain ⟨built, -, same⟩ := Option.bind_eq_some_iff.1 decoded
  obtain rfl := Option.some.inj same
  rw [runs, Llama.decode]
  exact ⟨llama.length_pass shaped _ _ _, fun row => mem_pass lmHead⟩

variable (sdpa) in
omit runs in
theorem studied_comparable (some : 0 < vocab) {item : TrainingItem (List ℝ)}
    (studied : Studied b full item)
    (teacherRows : ∀ logits, b.decodeLogits (.float32 full) item.query = .some logits →
      logits.length = item.query.length ∧ ∀ row ∈ logits,
        row.length = vocab) (t T : Nat) (params : List (LayerKV τ)) :
    Comparable item (studentLogits b llama sdpa t T params item.query) vocab := by
  obtain ⟨logits, decoded, teacher⟩ := studied.teacher
  obtain ⟨length, rows⟩ := teacherRows logits decoded
  have spanned : item.teacher.length = item.span := by
    rw [teacher, length_lastOf studied.span (length ▸ studied.inQuery)]
  have student : (lastOf item.span (studentLogits b llama sdpa t T params item.query)).length =
    item.span := by
    apply length_lastOf studied.span
    rw [studentLogits, llama.length_pass shaped]
    exact studied.inQuery
  constructor
  case some => exact some
  case rows => exact spanned ▸ studied.span
  case same => rw [spanned, student]
  case teacher => exact fun row member => rows row (mem_of_mem_lastOf (teacher ▸ member))
  case student => exact fun row member => mem_pass lmHead (mem_of_mem_lastOf member)

omit lmHead shaped in
include spec cache zero masked in
/-- With a budget for the whole corpus the student starts as the teacher. -/
theorem warm_teaches : ∃ warm, warmStart b full full.seqLen full.seqLen = some warm ∧ ∀ qIds,
    b.decodeLogits (.float32 full) qIds =
      some (studentLogits b llama sdpa full.seqLen full.seqLen warm qIds) := by
  obtain ⟨layers, gathered, warmed, -⟩ := warmStart_ok cache le_rfl
  obtain ⟨layers', gathered', related⟩ := warmLayers_ok cache (warm_inside le_rfl)
  obtain rfl : layers = layers' := Option.some.inj (gathered.symm.trans gathered')
  have same : full.layers = layers := by
    apply List.ext_getElem related.length_eq
    intro i left right
    have at' := (List.forall₂_iff_get.1 related).2 i left right
    obtain ⟨keyShape, valueShape⟩ := cache.shape _ (List.getElem_mem left)
    rw [linspace_all] at at'
    exact LayerKV.ext (Option.some.inj ((NDArray.gatherAxis1_range keyShape).symm.trans at'.key))
      (Option.some.inj ((NDArray.gatherAxis1_range valueShape).symm.trans at'.value))
  refine ⟨_, warmed, fun qIds => ?_⟩
  have decoded :
    b.decodeLogits (.float32 full) qIds = b.contextLogits
    (.compact (keepAll full "full_kv")) qIds :=
    (contextLogits_keepAll spec cache "full_kv" Dict.empty qIds).symm
  have logical : (HostContext.compact (keepAll full "full_kv")).logicalLen = full.seqLen := rfl
  rw [decoded]
  simp only [HFBackend.contextLogits, physicalLen_keepAll spec cache,
    buildContext_keepAll spec cache, logical, Option.bind_eq_bind, Option.bind_some,
    Option.pure_def, List.map_map, Function.comp_def, List.map_const', same, runs]
  have student :=
    studentLogits_eq_decode zero masked full.seqLen full.seqLen
      (layers.map (LayerKV.map b.fromFloat)) qIds
  rw [List.length_map] at student
  rw [← student]

include spec cache zero masked in
/-- The loss of every item of the self-study is 0 exactly where the student's distribution over the
    answer is the teacher's, and else positive, whatever the tensors; and with a budget for the
    whole corpus it is 0 from the start. -/
theorem training_objective (some : 0 < vocab) {tok : Tokenizer} {pick : Nat → List ℝ → Int}
    {corpusIds : List Int}
    {options : CompileOptions} {items : List (TrainingItem (List ℝ))}
    (ran : selfStudy b tok pick full corpusIds options = .some items) :
    (∀ item ∈ items, ∀ t T params,
      0 ≤ klLoss item (studentLogits b llama sdpa t T params item.query) ∧
      (klLoss item (studentLogits b llama sdpa t T params item.query) = 0 ↔
        (lastOf item.span (studentLogits b llama sdpa t T params item.query)).map logSoftmax =
          item.teacher.map logSoftmax)) ∧
      ∃ warm, warmStart b full full.seqLen full.seqLen = .some warm ∧
        ∀ item ∈ items,
          klLoss item (studentLogits b llama sdpa full.seqLen full.seqLen warm item.query) = 0 := by
  have rows :=
    fun ids logits
      (decoded : b.decodeLogits (.float32 full) ids =
      .some logits) => decodeLogits_rows shaped lmHead runs decoded
  have studied := selfStudy_studied (fun ids logits decoded => (rows ids logits decoded).1) ran
  have spec' :=
    fun item member t T params => klLoss_spec
      (studied_comparable sdpa shaped lmHead some (studied item member)
    (fun logits decoded => rows item.query logits decoded) t T params)
  obtain ⟨warm, warmed, teaches⟩ := warm_teaches spec cache zero runs masked
  refine ⟨spec', warm, warmed, fun item member => (spec' item member _ _ warm).2.2 ?_⟩
  obtain ⟨logits, decoded, teacher⟩ := (studied item member).teacher
  rw [teaches, Option.some.injEq] at decoded
  rw [decoded, teacher]

end Objective

section Even

/-- Two words. -/
noncomputable def evenWords : Llama ℚ ℚ (List ℝ) where
  exp := evenLlama.exp
  scaling := evenLlama.scaling
  embedTokens := evenLlama.embedTokens
  project := evenLlama.project
  finish := evenLlama.finish
  lmHead hidden := [hidden, 0]

noncomputable def evenTeacher : HFBackend ℚ ℚ (List ℝ) where
  model := evenCompiler.model
  fromFloat := id
  fromBits word := word.toNat
  toFloat := id
  value bits := bits.toNat
  negInf := -1000
  decode := evenWords.decode 1 id
  step _ _ _ := ([], [])
  logProb _ t := t
  rephaseCosSin _ := ([1], [0])

theorem evenWords_shaped : evenWords.Shaped twoHeads where
  project := evenLlama_shaped.project
  finish := evenLlama_shaped.finish

theorem training_objective_even : ∃ items warm, selfStudy evenTeacher plainTokenizer (fun _ _ => 0)
    (evenTeacher.prefill [5, 6, 7]) [5, 6, 7] spanOptions = some items ∧
    warmStart evenTeacher (evenTeacher.prefill [5, 6, 7]) 3 3 = some warm ∧ ∀ item ∈ items,
      klLoss item (studentLogits evenTeacher evenWords
      (fun query key value mask => dexaEagerAttentionForward evenWords.exp 1 query key value
        (some mask) none evenWords.scaling) 3 3 warm
        item.query) = 0 := by
  obtain ⟨items, ran⟩ : ∃ items, selfStudy evenTeacher plainTokenizer (fun _ _ => 0)
    (evenTeacher.prefill [5, 6, 7]) [5, 6, 7] spanOptions = some items :=
    Option.isSome_iff_exists.1 rfl
  have cache : CacheOf evenTeacher.model.spec (evenTeacher.prefill [5, 6, 7]) :=
    evenCompiler_prefilled [5, 6, 7]
  have masked :
    MaskedSdpa 1 evenWords
    fun query key value mask => dexaEagerAttentionForward evenWords.exp 1 query key value
    (some mask) none
      evenWords.scaling := fun _ _ _ _ => rfl
  have words : ∀ h, (evenWords.lmHead h).length = 2 := fun _ => rfl
  obtain ⟨-, warm, warmed, exact⟩ := training_objective rfl cache evenWords_shaped words rfl
    (rfl : evenTeacher.decode = evenWords.decode 1 id) masked (by decide) ran
  exact ⟨items, warm, ran, warmed, exact⟩

end Even

end Dexa.Cartridges
