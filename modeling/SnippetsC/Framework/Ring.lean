import Mathlib.Data.List.Basic
import Mathlib.Data.Nat.Bitwise
import Mathlib.Data.Nat.ModEq

namespace SnippetsC

/-! Rings of `2 ^ k` slots that are addressed by free-running 32-bit indices. -/

/-- A ring index; it wraps around at `2 ^ 32`. -/
abbrev Index := BitVec 32

namespace Ring

/-- `idx & mask`. -/
def slot (k : Nat) (idx : Index) : Nat := (idx &&& BitVec.ofNat 32 (2 ^ k - 1)).toNat

variable {α β : Type*} {k : Nat}

/-- The entries from index `a` up to index `b`, in order. -/
def entries (k : Nat) (ring : Nat → α) (a b : Index) : List α :=
  (List.range (b - a).toNat).map fun i => ring (slot k (a + BitVec.ofNat 32 i))

/-- The same for counters that never wrap: `n` entries from `a` on. -/
def window (k : Nat) (ring : Nat → α) (a n : Nat) : List α :=
  (List.range n).map fun i => ring ((a + i) % 2 ^ k)

theorem slot_ofNat (hk : k ≤ 32) (n : Nat) : slot k (BitVec.ofNat 32 n) = n % 2 ^ k := by
  have hdvd : 2 ^ k ∣ 2 ^ 32 := Nat.pow_dvd_pow 2 hk
  have hle : 2 ^ k ≤ 2 ^ 32 := Nat.pow_le_pow_right (by decide) hk
  have hpos : 0 < 2 ^ k := Nat.two_pow_pos k
  rw [slot, BitVec.toNat_and, BitVec.toNat_ofNat, BitVec.toNat_ofNat,
    Nat.mod_eq_of_lt (a := 2 ^ k - 1) (by omega), Nat.and_two_pow_sub_one_eq_mod,
    Nat.mod_mod_of_dvd n hdvd]

/-- The distance of two counters is not affected by wrapping. -/
theorem toNat_sub_ofNat {a b : Nat} (h : a ≤ b) (hlt : b - a < 2 ^ 32) :
    (BitVec.ofNat 32 b - BitVec.ofNat 32 a).toNat = b - a := by
  rw [BitVec.toNat_sub, BitVec.toNat_ofNat, BitVec.toNat_ofNat]
  omega

theorem ofNat_eq_ofNat_iff {a b : Nat} (h : a ≤ b) (hlt : b - a < 2 ^ 32) :
    BitVec.ofNat 32 a = BitVec.ofNat 32 b ↔ a = b := by
  constructor
  · intro heq
    have hdist := toNat_sub_ofNat h hlt
    rw [heq, BitVec.sub_self] at hdist
    change 0 = b - a at hdist
    omega
  · rintro rfl
    rfl

theorem entries_ofNat (hk : k ≤ 32) (ring : Nat → α) {a b : Nat} (h : a ≤ b)
    (hlt : b - a < 2 ^ 32) :
    entries k ring (BitVec.ofNat 32 a) (BitVec.ofNat 32 b) = window k ring a (b - a) := by
  rw [entries, toNat_sub_ofNat h hlt, window]
  apply List.map_congr_left
  intro i _
  rw [← BitVec.ofNat_add, slot_ofNat hk]

section

variable (ring : Nat → α)

theorem window_add (a m n : Nat) :
    window k ring a (m + n) = window k ring a m ++ window k ring (a + m) n := by
  rw [window, List.range_add, List.map_append, List.map_map]
  simp only [window, Function.comp_def, Nat.add_assoc]

theorem window_one (a : Nat) : window k ring a 1 = [ring (a % 2 ^ k)] := rfl

theorem window_succ (a n : Nat) :
    window k ring a (n + 1) = ring (a % 2 ^ k) :: window k ring (a + 1) n := by
  rw [Nat.add_comm, window_add, window_one]
  rfl

theorem window_succ_right (a n : Nat) :
    window k ring a (n + 1) = window k ring a n ++ [ring ((a + n) % 2 ^ k)] := by
  rw [window_add, window_one]

end

theorem window_congr {ring ring' : Nat → α} {a n : Nat}
    (h : ∀ i < n, ring ((a + i) % 2 ^ k) = ring' ((a + i) % 2 ^ k)) :
    window k ring a n = window k ring' a n :=
  List.map_congr_left fun i hi => h i (List.mem_range.mp hi)

/-- Two counters less than a ring apart have different slots. -/
theorem slot_ne {i j : Nat} (h : i < j) (hlt : j < i + 2 ^ k) : i % 2 ^ k ≠ j % 2 ^ k := by
  intro heq
  have hdvd : 2 ^ k ∣ j - i := (Nat.modEq_iff_dvd' h.le).mp heq
  have hle := Nat.le_of_dvd (by omega) hdvd
  omega

/-- A store behind the window, less than a ring away, leaves the window alone. -/
theorem window_update {ring : Nat → α} {a n j : Nat} (h : a + n ≤ j) (hlt : j < a + 2 ^ k) (v : α) :
    window k (Function.update ring (j % 2 ^ k) v) a n = window k ring a n := by
  apply window_congr
  intro i hi
  rw [Function.update_of_ne]
  exact slot_ne (by omega) (by omega)

end Ring

end SnippetsC
