import Mathlib.Tactic.Ring

namespace SnippetsC

/-- Round `n` up to a multiple of `a`: the C idiom `(n + a - 1) & ~(a - 1)` for powers of two. -/
def alignUp (a n : Nat) : Nat := (n + (a - 1)) / a * a

section

variable (a : Nat)

theorem dvd_alignUp (n : Nat) : a ∣ alignUp a n := Nat.dvd_mul_left _ _

variable [NeZero a]

theorem le_alignUp (n : Nat) : n ≤ alignUp a n := by
  have ha := NeZero.pos a
  have h := Nat.div_add_mod (n + (a - 1)) a
  have hm := Nat.mod_lt (n + (a - 1)) ha
  rw [alignUp, Nat.mul_comm]
  omega

theorem alignUp_lt (n : Nat) : alignUp a n < n + a := by
  have ha := NeZero.pos a
  have h := Nat.div_mul_le_self (n + (a - 1)) a
  rw [alignUp]
  omega

end

variable {a : Nat} [NeZero a]

theorem alignUp_of_dvd {n : Nat} (h : a ∣ n) : alignUp a n = n := by
  have ha := NeZero.pos a
  obtain ⟨k, rfl⟩ := h
  rw [alignUp, Nat.add_comm, Nat.add_mul_div_left _ _ ha, Nat.div_eq_of_lt (by omega)]
  ring

/-- An aligned prefix passes through the rounding unchanged. -/
theorem alignUp_add {k : Nat} (h : a ∣ k) (n : Nat) : alignUp a (k + n) = k + alignUp a n := by
  obtain ⟨c, rfl⟩ := h
  simp only [alignUp]
  rw [Nat.add_assoc, Nat.add_comm (a * c), Nat.add_mul_div_left _ _ (NeZero.pos a)]
  ring

theorem alignUp_four (n : Nat) : alignUp 4 n = (n + 3) / 4 * 4 := rfl

end SnippetsC
