import SnippetsC.Bpf.ExtensionHeaders
import SnippetsC.Framework.Increments
import Mathlib.Algebra.Order.BigOperators.Group.Finset

namespace SnippetsC.Bpf

/-! What the counter holds when several CPUs run a counting program, lost counts included. -/

theorem sum_map_toNat_of_le {made all : Multiset (BitVec 64)} (h : made ≤ all) :
    (made.map BitVec.toNat).sum ≤ (all.map BitVec.toNat).sum := by
  obtain ⟨rest, rfl⟩ := Multiset.le_iff_exists_add.mp h
  simp

theorem toNat_add_sum (v : BitVec 64) (ns : List (BitVec 64))
    (h : v.toNat + (ns.map BitVec.toNat).sum < 2 ^ 64) :
    (v + ns.sum).toNat = v.toNat + (ns.map BitVec.toNat).sum := by
  induction ns generalizing v with
  | nil => simp
  | cons n ns ih =>
    simp only [List.map_cons, List.sum_cons] at h ⊢
    have hn : (v + n).toNat = v.toNat + n.toNat := by
      rw [BitVec.toNat_add, Nat.mod_eq_of_lt (by omega)]
    rw [← add_assoc, ih _ (by omega), hn, Nat.add_assoc]

section cpus

variable {ι : Type*} (prog : Program) (init : BitVec 64) (reg : ι → BitVec 64)
  (packets : ι → List XdpMd)

theorem increases_start (i : ι) : Access.Increases ((start prog init reg packets).todo i) :=
  Access.increases_flatMap _ fun ctx _ => accesses_increase prog ctx

/-- A packet that is stored at all adds its amount. -/
theorem amounts_accesses (ctx : XdpMd) :
    (Access.amounts (prog.acceptAll ctx).accesses).Sublist [prog.amount ctx] := by
  have hdue := due_accesses prog ctx
  rcases accesses_increase prog ctx with hnone | ⟨n, hn⟩
  · simp [hnone, Access.amounts]
  · rw [hn, Access.due_increase] at hdue
    simp [hn, hdue, Access.increase, Access.amounts]

theorem amounts_flatMap (ctxs : List XdpMd) :
    (Access.amounts (ctxs.flatMap fun ctx => (prog.acceptAll ctx).accesses)).Sublist
      (ctxs.map prog.amount) := by
  induction ctxs with
  | nil => exact List.Sublist.refl []
  | cons ctx ctxs ih =>
    rw [List.flatMap_cons, Access.amounts_append, List.map_cons]
    exact (amounts_accesses prog ctx).append ih

variable [Fintype ι] [DecidableEq ι]

/-- The stores of a run are those of different packets. -/
theorem stored_le (sched : List ι) :
    ((start prog init reg packets).stored sched : Multiset (BitVec 64)) ≤
      ∑ i, ((packets i).map prog.amount : Multiset (BitVec 64)) := by
  have hall := SharedCell.stored_amounts (start prog init reg packets) sched
  refine le_trans (Multiset.le_iff_exists_add.mpr ⟨_, hall.symm⟩) ?_
  apply Finset.sum_le_sum
  intro i _
  exact (amounts_flatMap prog (packets i)).subperm

/-- However the CPUs interleave, the element is at every moment its initial value and the amounts of
some of the packets stored so far, each once, the last of them included. -/
theorem counter_contains (sched : List ι) :
    ∃ counted : List (BitVec 64),
      counted.Sublist ((start prog init reg packets).stored sched) ∧
      counted.getLast? = ((start prog init reg packets).stored sched).getLast? ∧
      (counted : Multiset (BitVec 64)) ≤
        ∑ i, ((packets i).map prog.amount : Multiset (BitVec 64)) ∧
      ((start prog init reg packets).run sched).cell = init + counted.sum := by
  obtain ⟨counted, hsub, hlast, hcell⟩ :=
    SharedCell.run_cell (increases_start prog init reg packets) sched
  have hmade : (counted : Multiset (BitVec 64)) ≤ (start prog init reg packets).stored sched :=
    Multiset.coe_le.mpr hsub.subperm
  exact ⟨counted, hsub, hlast, hmade.trans (stored_le prog init reg packets sched), hcell⟩

/-- Lost counts only ever make the element too small: as long as the true count fits the element, it
lies between the initial value and that count at every moment of every run. -/
theorem never_overcounts (sched : List ι)
    (hfit : init.toNat + ∑ i, ((packets i).map fun ctx => (prog.amount ctx).toNat).sum < 2 ^ 64) :
    init.toNat ≤ ((start prog init reg packets).run sched).cell.toNat ∧
      ((start prog init reg packets).run sched).cell.toNat ≤
        init.toNat + ∑ i, ((packets i).map fun ctx => (prog.amount ctx).toNat).sum := by
  obtain ⟨counted, hsub, -, hcell⟩ :=
    SharedCell.run_cell (increases_start prog init reg packets) sched
  have hmade : (counted : Multiset (BitVec 64)) ≤ (start prog init reg packets).stored sched :=
    Multiset.coe_le.mpr hsub.subperm
  have hle := hmade.trans (stored_le prog init reg packets sched)
  have hinit : (start prog init reg packets).cell = init := rfl
  have hsum := sum_map_toNat_of_le hle
  have hall : ((∑ i, ((packets i).map prog.amount : Multiset (BitVec 64))).map BitVec.toNat).sum =
      ∑ i, ((packets i).map fun ctx => (prog.amount ctx).toNat).sum := by
    rw [← Multiset.coe_mapAddMonoidHom, map_sum, ← Multiset.coe_sumAddMonoidHom, map_sum]
    simp [Function.comp_def]
  rw [hall] at hsum
  simp only [Multiset.map_coe, Multiset.sum_coe] at hsum
  rw [hcell, hinit, toNat_add_sum _ _ (by omega)]
  omega

end cpus

/-- One CPU stores what it loaded before the other counted three packets: the element goes back. -/
theorem never_overcounts_back :
    let s := start .count 0 (fun _ => 0) fun _ : Fin 2 => List.replicate 3 zeroFrame
    (s.run [0, 1, 1, 1, 1, 1, 1]).cell = 3 ∧ (s.run [0, 1, 1, 1, 1, 1, 1, 0]).cell = 1 ∧
      0 ≤ (s.run [0, 1, 1, 1, 1, 1, 1, 0]).cell.toNat ∧
      (s.run [0, 1, 1, 1, 1, 1, 1, 0]).cell.toNat ≤ 0 + 6 :=
  ⟨by decide, by decide, never_overcounts .count 0 (fun _ => 0)
    (fun _ : Fin 2 => List.replicate 3 zeroFrame) [0, 1, 1, 1, 1, 1, 1, 0] (by decide)⟩

end SnippetsC.Bpf
