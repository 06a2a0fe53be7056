import SnippetsC.Framework.SharedCell
import Mathlib.Algebra.BigOperators.Group.Multiset.Basic
import Mathlib.Algebra.Order.Group.Multiset

namespace SnippetsC

/-! What a shared cell holds when processors increase it without atomic operations. -/

namespace Access

variable {V : Type*}

/-- The accesses of a processor that does nothing but increase the cell. -/
inductive Increases : List (Access V) → Prop where
  | nil : Increases []
  | cons (n : V) {as : List (Access V)} (h : Increases as) : Increases (load :: store n :: as)

theorem increases_flatMap {α : Type*} {f : α → List (Access V)} (xs : List α)
    (h : ∀ x ∈ xs, f x = [] ∨ ∃ n, f x = increase n) : Increases (xs.flatMap f) := by
  induction xs with
  | nil => exact .nil
  | cons x xs ih =>
    obtain ⟨hx, hxs⟩ := List.forall_mem_cons.mp h
    rw [List.flatMap_cons]
    rcases hx with hnone | ⟨n, hn⟩
    · simpa [hnone] using ih hxs
    · rw [hn]
      exact .cons n (ih hxs)

/-- What the stores of a list of accesses add. -/
def amounts : List (Access V) → List V
  | [] => []
  | load :: as => amounts as
  | store n :: as => n :: amounts as

theorem amounts_append (as bs : List (Access V)) : amounts (as ++ bs) = amounts as ++ amounts bs := by
  induction as with
  | nil => rfl
  | cons a as ih =>
    cases a with
    | load => simp [amounts, ih]
    | store n => simp [amounts, ih]

end Access

open Access

namespace SharedCell

variable {ι V : Type*} [AddCommMonoid V]

/-- What the next access of processor `i` stores, besides its register. -/
def nextStored (s : SharedCell ι V) (i : ι) : List V :=
  match s.todo i with
  | store n :: _ => [n]
  | [] | load :: _ => []

variable [DecidableEq ι]

/-- What the stores of a run add to the registers they store, in the order of the stores. -/
def stored : SharedCell ι V → List ι → List V
  | _, [] => []
  | s, i :: sched => s.nextStored i ++ stored (s.step i) sched

/-- The value contains some of the amounts, and nothing else. -/
def Holds (init : V) (made : List V) (v : V) : Prop :=
  ∃ counted : List V, counted.Sublist made ∧ v = init + counted.sum

theorem Holds.append {init v : V} {made : List V} (h : Holds init made v) (more : List V) :
    Holds init (made ++ more) v := by
  obtain ⟨counted, hsub, hv⟩ := h
  exact ⟨counted, hsub.trans (List.sublist_append_left made more), hv⟩

/-- After the stores `made` the cell contains some of them, the last one included, and so does each
register that is about to be stored. -/
structure Chained (init : V) (made : List V) (s : SharedCell ι V) : Prop where
  cell : ∃ counted : List V, counted.Sublist made ∧ counted.getLast? = made.getLast? ∧
    s.cell = init + counted.sum
  todo : ∀ i, Increases (s.todo i) ∨
    ∃ n as, s.todo i = store n :: as ∧ Increases as ∧ Holds init made (s.reg i)

theorem Chained.load {init : V} {made : List V} {s : SharedCell ι V} (h : Chained init made s)
    {i : ι} {as : List (Access V)} (hi : s.todo i = load :: as) : Chained init made (s.step i) := by
  have hstep : s.step i =
      { s with reg := Function.update s.reg i s.cell, todo := Function.update s.todo i as } := by
    simp only [step, hi]
  rw [hstep]
  refine ⟨h.cell, ?_⟩
  intro j
  by_cases hj : j = i
  · subst hj
    obtain ⟨counted, hsub, -, hcell⟩ := h.cell
    rcases h.todo j with hinc | ⟨n, as', hst, -, -⟩
    · rw [hi] at hinc
      cases hinc with
      | cons n hrest => exact .inr ⟨n, _, by simp, hrest, counted, hsub, by simpa using hcell⟩
    · rw [hi] at hst
      cases hst
  · simpa [Function.update_of_ne hj] using h.todo j

theorem Chained.store {init : V} {made : List V} {s : SharedCell ι V} (h : Chained init made s)
    {i : ι} {n : V} {as : List (Access V)} (hi : s.todo i = store n :: as) :
    Chained init (made ++ [n]) (s.step i) := by
  have hstep : s.step i =
      { s with cell := s.reg i + n, todo := Function.update s.todo i as } := by
    simp only [step, hi]
  obtain ⟨hinc, counted, hsub, hreg⟩ : Increases as ∧ Holds init made (s.reg i) := by
    rcases h.todo i with hinc | ⟨m, as', hst, hinc, hholds⟩
    · rw [hi] at hinc
      cases hinc
    · rw [hi] at hst
      cases hst
      exact ⟨hinc, hholds⟩
  rw [hstep]
  refine ⟨⟨counted ++ [n], hsub.append (List.Sublist.refl [n]), by simp, ?_⟩, ?_⟩
  · simp [hreg, add_assoc]
  · intro j
    by_cases hj : j = i
    · subst hj
      simpa using Or.inl hinc
    · rcases h.todo j with hj' | ⟨m, as', hst, hj', hholds⟩
      · exact .inl (by simpa [Function.update_of_ne hj] using hj')
      · exact .inr ⟨m, as', by simpa [Function.update_of_ne hj] using hst, hj', hholds.append _⟩

theorem Chained.step {init : V} {made : List V} {s : SharedCell ι V} (h : Chained init made s)
    (i : ι) : Chained init (made ++ s.nextStored i) (s.step i) := by
  cases hi : s.todo i with
  | nil =>
    have hsame : s.step i = s := by simp only [SharedCell.step, hi]
    simpa [nextStored, hi, hsame] using h
  | cons a as =>
    cases a with
    | load => simpa [nextStored, hi] using h.load hi
    | store n => simpa [nextStored, hi] using h.store hi

theorem Chained.run {init : V} {made : List V} {s : SharedCell ι V} (h : Chained init made s)
    (sched : List ι) : Chained init (made ++ s.stored sched) (s.run sched) := by
  induction sched generalizing made s with
  | nil => simpa [stored, SharedCell.run] using h
  | cons i sched ih =>
    rw [stored, ← List.append_assoc]
    exact ih (h.step i)

/-- However the accesses of the processors interleave, the cell has gained the amounts of some of
the stores made so far, in particular of the last one, and nothing else. -/
theorem run_cell {s : SharedCell ι V} (h : ∀ i, Increases (s.todo i)) (sched : List ι) :
    ∃ counted : List V, counted.Sublist (s.stored sched) ∧
      counted.getLast? = (s.stored sched).getLast? ∧
      (s.run sched).cell = s.cell + counted.sum := by
  have hstart : Chained s.cell [] s :=
    ⟨⟨[], List.Sublist.refl [], rfl, (add_zero s.cell).symm⟩, fun i => .inl (h i)⟩
  exact (hstart.run sched).cell

variable [Fintype ι]

/-- The amounts of a run's stores and those still to come are all there is to add. -/
theorem stored_amounts (s : SharedCell ι V) (sched : List ι) :
    (s.stored sched : Multiset V) + ∑ i, (amounts ((s.run sched).todo i) : Multiset V) =
      ∑ i, (amounts (s.todo i) : Multiset V) := by
  induction sched generalizing s with
  | nil => simp [stored, run]
  | cons i sched ih =>
    have hstep : (s.nextStored i : Multiset V) + ∑ j, (amounts ((s.step i).todo j) : Multiset V) =
        ∑ j, (amounts (s.todo j) : Multiset V) := by
      have hrest : ∀ as, ∑ j ∈ Finset.univ.erase i,
          (amounts (Function.update s.todo i as j) : Multiset V) =
            ∑ j ∈ Finset.univ.erase i, (amounts (s.todo j) : Multiset V) := by
        intro as
        apply Finset.sum_congr rfl
        intro j hj
        rw [Function.update_of_ne (Finset.ne_of_mem_erase hj)]
      rw [← Finset.add_sum_erase _ _ (Finset.mem_univ i),
        ← Finset.add_sum_erase _ (fun j => (amounts (s.todo j) : Multiset V)) (Finset.mem_univ i)]
      cases hi : s.todo i with
      | nil => simp [nextStored, SharedCell.step, hi, amounts]
      | cons a as =>
        cases a with
        | load => simp [nextStored, SharedCell.step, hi, amounts, hrest]
        | store n =>
          have hcons : ∀ R : Multiset V, {n} + (↑(amounts as) + R) = ↑(n :: amounts as) + R :=
            fun R => (add_assoc _ _ R).symm
          simpa [nextStored, SharedCell.step, hi, amounts, hrest] using hcons _
    rw [stored, ← Multiset.coe_add, add_assoc]
    exact (congrArg _ (ih (s.step i))).trans hstep

end SharedCell

end SnippetsC
