import Mathlib.Data.List.Basic

namespace SnippetsC

/-- The states of a transition system that runs from the initial states come to. -/
inductive Reachable {σ : Type*} (init : σ → Prop) (step : σ → σ → Prop) : σ → Prop where
  | start {s : σ} (h : init s) : Reachable init step s
  | next {s s' : σ} (h : Reachable init step s) (hs : step s s') : Reachable init step s'

/-- What holds initially and survives every step from a reachable state holds of every reachable
state. -/
theorem Reachable.invariant {σ : Type*} {init : σ → Prop} {step : σ → σ → Prop} {inv : σ → Prop}
    (hinit : ∀ s, init s → inv s)
    (hstep : ∀ s s', Reachable init step s → inv s → step s s' → inv s') {s : σ}
    (h : Reachable init step s) : inv s := by
  induction h with
  | start h => exact hinit _ h
  | next h hs ih => exact hstep _ _ h ih hs

section run

variable {σ α : Type*} (step : σ → α → Option σ)

/-- The states a run comes to from `s` on; it ends at an action that cannot be taken. -/
def visited (s : σ) : List α → List σ
  | [] => [s]
  | a :: as =>
    match step s a with
    | none => [s]
    | some s' => s :: visited s' as

/-- The actions a run takes, each with the state it is taken in. -/
def departures (s : σ) : List α → List (σ × α)
  | [] => []
  | a :: as =>
    match step s a with
    | none => []
    | some s' => (s, a) :: departures s' as

variable {step} {inv P : σ → Prop} {Q : σ → α → Prop}

theorem self_mem_visited (s : σ) (as : List α) : s ∈ visited step s as := by
  cases as with
  | nil => exact List.mem_singleton.mpr rfl
  | cons a as =>
    rw [visited]
    cases step s a with
    | none => exact List.mem_singleton.mpr rfl
    | some s' => exact List.mem_cons_self

theorem mem_visited_cons {s s' t : σ} {a : α} {as : List α} (hs : step s a = some s')
    (h : t ∈ visited step s' as) : t ∈ visited step s (a :: as) := by
  rw [visited, hs]
  exact List.mem_cons_of_mem s h

theorem visited_invariant (hinv : ∀ s a s', inv s → step s a = some s' → inv s') {s : σ}
    (hi : inv s) (as : List α) : ∀ t ∈ visited step s as, inv t := by
  induction as generalizing s with
  | nil => exact List.forall_mem_singleton.mpr hi
  | cons a as ih =>
    rw [visited]
    cases hs : step s a with
    | none => exact List.forall_mem_singleton.mpr hi
    | some s' => exact List.forall_mem_cons.mpr ⟨hi, ih (hinv s a s' hi hs)⟩

/-- What holds of a state and is kept by every step that meets a condition, but by no other, holds
in every state of a run exactly if every step of the run meets the condition. -/
theorem visited_iff_departures (hinv : ∀ s a s', inv s → step s a = some s' → inv s')
    (hstep : ∀ s a s', inv s → P s → step s a = some s' → (P s' ↔ Q s a)) {s : σ} (hi : inv s)
    (hp : P s) (as : List α) :
    (∀ t ∈ visited step s as, P t) ↔ ∀ x ∈ departures step s as, Q x.1 x.2 := by
  induction as generalizing s with
  | nil =>
    rw [visited, departures, List.forall_mem_singleton]
    exact iff_of_true hp (List.forall_mem_nil _)
  | cons a as ih =>
    rw [visited, departures]
    cases hs : step s a with
    | none => exact iff_of_true (List.forall_mem_singleton.mpr hp) (List.forall_mem_nil _)
    | some s' =>
      have hiff := hstep s a s' hi hp hs
      simp only [List.forall_mem_cons, and_iff_right hp]
      by_cases hq : Q s a
      · rw [and_iff_right hq]
        exact ih (hinv s a s' hi hs) (hiff.mpr hq)
      · refine iff_of_false ?_ (fun h => hq h.1)
        intro h
        exact hq (hiff.mp (h s' (self_mem_visited s' as)))

/-! Runs of which every step can be taken. -/

theorem foldlM_through {s t : σ} {as bs : List α} (h : as.foldlM step s = some t) :
    (as ++ bs).foldlM step s = bs.foldlM step t := by
  rw [List.foldlM_append, h]
  rfl

theorem foldlM_stays {s : σ} {as : List α} (h : ∀ a ∈ as, step s a = some s) :
    as.foldlM step s = some s := by
  induction as with
  | nil => rfl
  | cons a as ih =>
    rw [List.forall_mem_cons] at h
    rw [List.foldlM_cons, h.1]
    exact ih h.2

end run

end SnippetsC
