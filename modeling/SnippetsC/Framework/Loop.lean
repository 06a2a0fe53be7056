import Mathlib.Data.List.Basic
import Mathlib.Tactic.Common

namespace SnippetsC

/-! A loop by its turns: a turn ends the loop with a result or goes on with a new state. -/

namespace Loop

variable {σ ρ : Type*} (turn : σ → ρ ⊕ σ)

/-- The result, if the loop ends within `n` turns. -/
def result : Nat → σ → Option ρ
  | 0, _ => none
  | n + 1, s =>
    match turn s with
    | .inl r => some r
    | .inr s' => result n s'

/-- The states in which the first `n` turns begin. -/
def heads : Nat → σ → List σ
  | 0, _ => []
  | n + 1, s =>
    match turn s with
    | .inl _ => [s]
    | .inr s' => s :: heads n s'

variable {turn}

/-- A loop ends if every turn that goes on lowers a measure. -/
theorem result_of_measure (μ : σ → Nat) (h : ∀ s s', turn s = .inr s' → μ s' < μ s) {n : Nat}
    {s : σ} (hn : μ s < n) : ∃ r, result turn n s = some r := by
  induction n generalizing s with
  | zero => exact absurd hn (Nat.not_lt_zero _)
  | succ n ih =>
    rw [result]
    cases hs : turn s with
    | inl r => exact ⟨r, rfl⟩
    | inr s' =>
      have hlt := h s s' hs
      exact ih (by omega)

/-- What holds at first and survives a turn holds at the beginning of every turn. -/
theorem heads_invariant {inv : σ → Prop} (h : ∀ s s', inv s → turn s = .inr s' → inv s') {n : Nat}
    {s : σ} (hs : inv s) : ∀ s' ∈ heads turn n s, inv s' := by
  induction n generalizing s with
  | zero =>
    intro s' hs'
    cases hs'
  | succ n ih =>
    rw [heads]
    cases hturn : turn s with
    | inl r =>
      intro s' hs'
      rw [List.mem_singleton.mp hs']
      exact hs
    | inr t =>
      intro s' hs'
      rcases List.mem_cons.mp hs' with rfl | hs'
      · exact hs
      · exact ih (h s t hs hturn) s' hs'

end Loop

end SnippetsC
