import SnippetsC.Framework.Memory
import Mathlib.Data.List.Infix

namespace SnippetsC

/-- From address `p` on the memory holds `bs`, and zeros behind them up to `lim`: the state of a
cleared buffer that has been filled from the front. -/
structure Filled (m : Mem) (p lim : Nat) (bs : List UInt8) : Prop where
  holds : m.Holds p bs
  zero : ∀ i, p + bs.length ≤ i → i < lim → m i = 0

namespace Filled

variable {m : Mem} {p lim : Nat} {bs : List UInt8}

theorem clear (m : Mem) (p n : Nat) : Filled (m.clear p n) p (p + n) [] := by
  refine ⟨Mem.holds_nil _ p, ?_⟩
  intro i hp hi
  have h := Mem.bytes_clear m p (k := 1) hp (by omega : i + 1 ≤ p + n)
  exact List.head_eq_of_cons_eq h

theorem bytes_eq (h : Filled m p lim bs) {n : Nat} (hn : n = bs.length) : m.bytes p n = bs :=
  h.holds.bytes_eq hn

theorem behind {as : List UInt8} (h : Filled m p lim (as ++ bs)) {q : Nat}
    (hq : q = p + as.length) : m.Holds q bs :=
  hq ▸ (Mem.holds_append.mp h.holds).2

theorem zeros (h : Filled m p lim bs) {q n : Nat} (hq : p + bs.length ≤ q) (hn : q + n ≤ lim) :
    m.Holds q (List.replicate n 0) := by
  rw [Mem.Holds, List.length_replicate]
  apply List.ext_getElem (by simp)
  intro i hi _
  have hlt : i < n := by simpa using hi
  rw [Mem.getElem_bytes, List.getElem_replicate]
  exact h.zero _ (by omega) (by omega)

/-- Zeros of the buffer taken over as they are. -/
theorem skip (h : Filled m p lim bs) {g : Nat} (hl : p + bs.length + g ≤ lim) :
    Filled m p lim (bs ++ List.replicate g 0) := by
  constructor
  · exact Mem.holds_append.mpr ⟨h.holds, h.zeros (le_refl _) hl⟩
  · intro i hp hi
    rw [List.length_append, List.length_replicate] at hp
    exact h.zero i (by omega) hi

/-- A store behind what is filled so far, `g` bytes further on. -/
theorem append (h : Filled m p lim bs) (g : Nat) (cs : List UInt8) {q : Nat}
    (hq : q = p + bs.length + g) (hl : q + cs.length ≤ lim) :
    Filled (m.write q cs) p lim (bs ++ (List.replicate g 0 ++ cs)) := by
  have hlen : (bs ++ (List.replicate g 0 ++ cs)).length = bs.length + (g + cs.length) := by simp
  constructor
  · apply Mem.holds_append.mpr
    constructor
    · exact (Mem.bytes_write_frame m q cs (by omega)).trans h.holds
    · apply Mem.holds_append.mpr
      constructor
      · have hz := h.zeros (q := p + bs.length) (n := g) (le_refl _) (by omega)
        rw [Mem.Holds, Mem.bytes_write_frame m q cs (by simp; omega)]
        exact hz
      · rw [List.length_replicate, ← hq]
        exact Mem.holds_write m q cs
  · intro i hp hi
    rw [hlen] at hp
    rw [Mem.write_frame m q cs (by omega)]
    exact h.zero i (by omega) hi

/-- A store of equal size over a part that is already filled. -/
theorem patch (h : Filled m p lim bs) (as old new cs : List UInt8) {q : Nat}
    (hbs : bs = as ++ (old ++ cs)) (hlen : new.length = old.length) (hq : q = p + as.length) :
    Filled (m.write q new) p lim (as ++ (new ++ cs)) := by
  subst hbs
  obtain ⟨has, hrest⟩ := Mem.holds_append.mp h.holds
  obtain ⟨-, hcs⟩ := Mem.holds_append.mp hrest
  have hl : (as ++ (new ++ cs)).length = (as ++ (old ++ cs)).length := by simp [hlen]
  have hlo : (as ++ (old ++ cs)).length = as.length + (old.length + cs.length) := by simp
  constructor
  · apply Mem.holds_append.mpr
    constructor
    · exact (Mem.bytes_write_frame m q new (by omega)).trans has
    · apply Mem.holds_append.mpr
      constructor
      · rw [← hq]
        exact Mem.holds_write m q new
      · rw [Mem.Holds, Mem.bytes_write_frame m q new (by omega), hlen]
        exact hcs
  · intro i hp hi
    rw [hl] at hp
    rw [Mem.write_frame m q new (by omega)]
    exact h.zero i hp hi

end Filled

end SnippetsC
