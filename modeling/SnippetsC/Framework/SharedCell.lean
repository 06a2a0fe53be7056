import Mathlib.Algebra.BigOperators.Group.Finset.Basic
import Mathlib.Data.Fintype.BigOperators

namespace SnippetsC

/-- An access to a memory cell that several processors share: a load into the processor's register,
or a store of the register plus `n`. -/
inductive Access (V : Type*) where
  | load
  | store (n : V)
  deriving DecidableEq

namespace Access

variable {V : Type*}

/-- `*cell += n` without an atomic operation. -/
def increase (n : V) : List (Access V) := [load, store n]

/-- The cell after a processor that runs alone has made its accesses. -/
def exec [Add V] : V → V → List (Access V) → V
  | cell, _, [] => cell
  | cell, _, load :: as => exec cell cell as
  | _, reg, store n :: as => exec (reg + n) reg as

variable [AddCommMonoid V]

/-- What a list of accesses is to add to the cell. -/
def due (as : List (Access V)) : V :=
  (as.map fun | load => 0 | store n => n).sum

@[simp] theorem due_nil : due ([] : List (Access V)) = 0 := rfl

@[simp] theorem due_load (as : List (Access V)) : due (load :: as) = due as := by
  simp [due]

@[simp] theorem due_store (n : V) (as : List (Access V)) : due (store n :: as) = n + due as := by
  simp [due]

theorem due_append (as bs : List (Access V)) : due (as ++ bs) = due as + due bs := by
  simp [due]

@[simp] theorem due_increase (n : V) : due (increase n) = n := by
  simp [increase]

theorem due_flatMap {α : Type*} (f : α → List (Access V)) (xs : List α) :
    due (xs.flatMap f) = (xs.map fun x => due (f x)).sum := by
  induction xs with
  | nil => rfl
  | cons x xs ih => rw [List.flatMap_cons, due_append, ih, List.map_cons, List.sum_cons]

/-- A processor that runs alone loses nothing of what it adds. -/
theorem exec_flatMap_increase {α : Type*} {f : α → List (Access V)} (cell reg : V) (xs : List α)
    (h : ∀ x ∈ xs, f x = [] ∨ ∃ n, f x = increase n) :
    exec cell reg (xs.flatMap f) = cell + due (xs.flatMap f) := by
  induction xs generalizing cell reg with
  | nil => exact (add_zero cell).symm
  | cons x xs ih =>
    obtain ⟨hx, hxs⟩ := List.forall_mem_cons.mp h
    rw [List.flatMap_cons]
    rcases hx with hnone | ⟨n, hn⟩
    · rw [hnone, List.nil_append]
      exact ih cell reg hxs
    · rw [hn, due_append, due_increase, ← add_assoc]
      exact ih (cell + n) cell hxs

end Access

open Access

/-- Processors `ι`, each with a register and the accesses it still has to make. -/
structure SharedCell (ι V : Type*) where
  cell : V
  reg : ι → V
  todo : ι → List (Access V)

namespace SharedCell

variable {ι V : Type*} [AddCommMonoid V]

def Finished (s : SharedCell ι V) : Prop := ∀ i, s.todo i = []

instance [Fintype ι] [DecidableEq V] (s : SharedCell ι V) : Decidable s.Finished :=
  inferInstanceAs (Decidable (∀ _, _))

/-- The cell together with everything still due to it. -/
def total [Fintype ι] (s : SharedCell ι V) : V := s.cell + ∑ i, due (s.todo i)

theorem total_of_finished [Fintype ι] {s : SharedCell ι V} (h : s.Finished) :
    s.total = s.cell := by
  have hdue : ∀ i, due (s.todo i) = 0 := by
    intro i
    rw [h i, due_nil]
  simp only [total, hdue, Finset.sum_const_zero, add_zero]

variable [DecidableEq ι]

/-- The next access of processor `i`; a processor that has finished does nothing. -/
def step (s : SharedCell ι V) (i : ι) : SharedCell ι V :=
  match s.todo i with
  | [] => s
  | load :: as =>
    { s with reg := Function.update s.reg i s.cell, todo := Function.update s.todo i as }
  | store n :: as =>
    { s with cell := s.reg i + n, todo := Function.update s.todo i as }

/-- A sequentially consistent run: `sched` says which processor makes each access. -/
def run (s : SharedCell ι V) (sched : List ι) : SharedCell ι V := sched.foldl step s

/-- A store that is due finds the cell as the processor's last load left it. -/
def Current (s : SharedCell ι V) (i : ι) : Prop :=
  ∀ n as, s.todo i = store n :: as → s.reg i = s.cell

instance [DecidableEq V] (s : SharedCell ι V) (i : ι) : Decidable (s.Current i) :=
  match h : s.todo i with
  | [] => .isTrue fun n as hs => by rw [h] at hs; cases hs
  | load :: _ => .isTrue fun n as hs => by rw [h] at hs; cases hs
  | store n :: as => decidable_of_iff (s.reg i = s.cell) ⟨fun hr _ _ _ => hr, fun hc => hc n as h⟩

/-- No store of the run overwrites one that came after its processor's load. -/
def Undisturbed : SharedCell ι V → List ι → Prop
  | _, [] => True
  | s, i :: sched => s.Current i ∧ Undisturbed (s.step i) sched

instance decidableUndisturbed [DecidableEq V] :
    (s : SharedCell ι V) → (sched : List ι) → Decidable (s.Undisturbed sched)
  | _, [] => .isTrue trivial
  | s, i :: sched =>
    have := decidableUndisturbed (s.step i) sched
    inferInstanceAs (Decidable (_ ∧ _))

variable [Fintype ι]

theorem sum_due_update (todo : ι → List (Access V)) (i : ι) (as : List (Access V)) (n : V)
    (h : due (todo i) = n + due as) :
    ∑ j, due (todo j) = n + ∑ j, due (Function.update todo i as j) := by
  have hrest : ∑ j ∈ Finset.univ.erase i, due (Function.update todo i as j) =
      ∑ j ∈ Finset.univ.erase i, due (todo j) := by
    apply Finset.sum_congr rfl
    intro j hj
    rw [Function.update_of_ne (Finset.ne_of_mem_erase hj)]
  rw [← Finset.add_sum_erase _ _ (Finset.mem_univ i), h, ← hrest,
    ← Finset.add_sum_erase _ (fun j => due (Function.update todo i as j)) (Finset.mem_univ i),
    Function.update_self, add_assoc]

/-- An undisturbed access moves its amount from what is due into the cell. -/
theorem step_total {s : SharedCell ι V} {i : ι} (h : s.Current i) : (s.step i).total = s.total := by
  rw [step]
  cases ht : s.todo i with
  | nil => rfl
  | cons a as =>
    cases a with
    | load =>
      have hsum := sum_due_update s.todo i as 0 (by rw [ht, due_load, zero_add])
      rw [zero_add] at hsum
      exact congrArg (s.cell + ·) hsum.symm
    | store n =>
      have hsum := sum_due_update s.todo i as n (by rw [ht, due_store])
      have hreg : s.reg i = s.cell := h n as ht
      change s.reg i + n + _ = s.cell + _
      rw [hreg, hsum, add_assoc]

theorem run_total {s : SharedCell ι V} {sched : List ι} (h : s.Undisturbed sched) :
    (s.run sched).total = s.total := by
  induction sched generalizing s with
  | nil => rfl
  | cons i sched ih =>
    obtain ⟨hi, hrest⟩ := h
    exact (ih hrest).trans (step_total hi)

end SharedCell

end SnippetsC
