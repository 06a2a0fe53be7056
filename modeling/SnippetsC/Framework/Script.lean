import Mathlib.Order.Basic

namespace SnippetsC

/-- A call that changes a state as a whole or fails and leaves it alone. A caller that does not
check it goes on when it fails. -/
structure Call (σ : Type*) where
  attempt : σ → Option σ
  checked : Bool

namespace Script

variable {σ : Type*}

/-- Calls made one after the other up to the first failure that is checked, and whether there was
none. -/
def run : List (Call σ) → σ → Bool × σ
  | [], s => (true, s)
  | c :: cs, s =>
    match c.attempt s with
    | some s' => run cs s'
    | none => if c.checked then (false, s) else run cs s

/-- A script that reports failure has changed nothing. -/
def Atomic (cs : List (Call σ)) (s : σ) : Prop := (run cs s).1 = false → (run cs s).2 = s

section run

variable {c : Call σ} {cs : List (Call σ)} {s s' : σ}

theorem run_some (h : c.attempt s = some s') : run (c :: cs) s = run cs s' := by
  rw [run, h]

theorem run_checked (h : c.attempt s = none) (hc : c.checked = true) :
    run (c :: cs) s = (false, s) := by
  rw [run, h]
  exact if_pos hc

theorem run_unchecked (hc : c.checked = false) :
    run (c :: cs) s = run cs ((c.attempt s).getD s) := by
  rw [run]
  cases c.attempt s with
  | some s' => rfl
  | none => exact if_neg (by rw [hc]; exact Bool.false_ne_true)

end run

/-- A program that succeeds if `ok` and ends in state `s` does what a script does. -/
def Follows (ok : Prop) (s : σ) (r : Bool × σ) : Prop := (ok ↔ r.1 = true) ∧ s = r.2

theorem Follows.failed {ok : Prop} (h : ¬ok) (s : σ) : Follows ok s (false, s) :=
  ⟨⟨fun hok => absurd hok h, fun hf => absurd hf Bool.false_ne_true⟩, rfl⟩

theorem Follows.succeeded {ok : Prop} (h : ok) (s : σ) : Follows ok s (true, s) :=
  ⟨⟨fun _ => rfl, fun _ => h⟩, rfl⟩

theorem Follows.atomic {ok : Prop} {s s₀ : σ} {cs : List (Call σ)}
    (h : Follows ok s (run cs s₀)) : (¬ok → s = s₀) ↔ Atomic cs s₀ := by
  obtain ⟨hok, hs⟩ := h
  rw [Atomic, hs, hok, Bool.not_eq_true]

/-! Calls that only move a state upwards: no later call takes back what an earlier one did. -/

section moves

variable {β : Type*} [Preorder β] (μ : σ → β)

/-- The call changes the state, upwards in `μ`. -/
def Moves (c : Call σ) : Prop := ∀ s s', c.attempt s = some s' → μ s < μ s'

/-- The call changes nothing here. -/
def Silent (c : Call σ) : Prop := ∀ s s', c.attempt s = some s' → s' = s

variable {μ} {c : Call σ} {cs : List (Call σ)} {s s' : σ}

theorem le_run (h : ∀ c ∈ cs, Moves μ c ∨ Silent c) (s : σ) : μ s ≤ μ (run cs s).2 := by
  induction cs generalizing s with
  | nil => exact le_refl (μ s)
  | cons c cs ih =>
    have hcs : ∀ c ∈ cs, Moves μ c ∨ Silent c := fun c hc => h c (List.mem_cons_of_mem _ hc)
    cases ha : c.attempt s with
    | some s' =>
      rw [run_some ha]
      have hle : μ s ≤ μ s' := by
        rcases h c List.mem_cons_self with hm | hs
        · exact (hm s s' ha).le
        · rw [hs s s' ha]
      exact hle.trans (ih hcs s')
    | none =>
      cases hc : c.checked with
      | true =>
        rw [run_checked ha hc]
      | false =>
        rw [run_unchecked hc, ha]
        exact ih hcs s

/-- Once a call has moved the state, the script is all or nothing only if the rest of it
succeeds. -/
theorem atomic_of_moves (hc : Moves μ c) (h : ∀ c ∈ cs, Moves μ c ∨ Silent c)
    (ha : c.attempt s = some s') : Atomic (c :: cs) s ↔ (run cs s').1 = true := by
  rw [Atomic, run_some ha]
  constructor
  · intro hat
    by_contra hfail
    have hback := hat (Bool.eq_false_iff.mpr hfail)
    have hlt := (hc s s' ha).trans_le (le_run h s')
    rw [hback] at hlt
    exact lt_irrefl _ hlt
  · intro hok hfail
    rw [hok] at hfail
    cases hfail

theorem atomic_of_checked (ha : c.attempt s = none) (hc : c.checked = true) :
    Atomic (c :: cs) s := by
  intro _
  rw [run_checked ha hc]

theorem atomic_of_unchecked (ha : c.attempt s = none) (hc : c.checked = false) :
    Atomic (c :: cs) s ↔ Atomic cs s := by
  rw [Atomic, run_unchecked hc, ha, Atomic, Option.getD_none]

end moves

end Script

end SnippetsC
