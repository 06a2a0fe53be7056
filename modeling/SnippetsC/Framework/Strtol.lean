import Mathlib.Algebra.Group.Nat.Defs
import Mathlib.Algebra.Ring.Int.Defs
import Mathlib.Data.Int.DivMod
import Mathlib.Data.List.TakeWhile
import Mathlib.Tactic.Common

namespace SnippetsC

/-! Decimal numerals, and `strtol` in base 10 with a 64-bit `long`. -/

def IsSpace (b : UInt8) : Prop := b = 32 ∨ (9 ≤ b ∧ b ≤ 13)
def IsDigit (b : UInt8) : Prop := 48 ≤ b ∧ b ≤ 57

instance (b : UInt8) : Decidable (IsSpace b) := inferInstanceAs (Decidable (_ ∨ _))
instance (b : UInt8) : Decidable (IsDigit b) := inferInstanceAs (Decidable (_ ∧ _))

/-- The number that digits stand for. -/
def digitsValue (bs : List UInt8) : Nat := bs.foldl (fun n b => 10 * n + (b.toNat - 48)) 0

/-- A numeral has digits and nothing else. -/
def IsNumeral (s : List UInt8) : Prop := s ≠ [] ∧ ∀ b ∈ s, IsDigit b

instance (s : List UInt8) : Decidable (IsNumeral s) := inferInstanceAs (Decidable (_ ∧ _))

/-- An optional sign and what follows it. -/
def splitSign : List UInt8 → Int × List UInt8
  | [] => (1, [])
  | b :: bs => if b = 45 then (-1, bs) else if b = 43 then (1, bs) else (1, b :: bs)

/-- The integer at the start of a string, behind white space; zero if there is none. -/
def leadingInt (s : List UInt8) : Int :=
  let (sign, rest) := splitSign (s.dropWhile fun b => decide (IsSpace b))
  sign * digitsValue (rest.takeWhile fun b => decide (IsDigit b))

def LONG_MAX : Int := 2 ^ 63 - 1
def LONG_MIN : Int := -2 ^ 63

/-- `strtol(s, NULL, 10)` -/
def strtol (s : List UInt8) : Int := max LONG_MIN (min LONG_MAX (leadingInt s))

/-- `atoi` converts what `strtol` returns to `int`. -/
def atoi (s : List UInt8) : Int32 := Int32.ofInt (strtol s)

/-- A numeral is read as the number it stands for. -/
theorem leadingInt_of_numeral {s : List UInt8} (h : IsNumeral s) : leadingInt s = digitsValue s := by
  obtain ⟨hne, hdigits⟩ := h
  cases s with
  | nil => exact absurd rfl hne
  | cons b bs =>
    have hb : IsDigit b := hdigits b List.mem_cons_self
    have hnum := hb
    unfold IsDigit at hnum
    have hspace : ¬IsSpace b := by
      unfold IsSpace
      grind
    have hminus : b ≠ 45 := by grind
    have hplus : b ≠ 43 := by grind
    have htake : (b :: bs).takeWhile (fun b => decide (IsDigit b)) = b :: bs :=
      List.takeWhile_eq_self_iff.mpr fun c hc => decide_eq_true (hdigits c hc)
    rw [leadingInt, List.dropWhile_cons_of_neg (by rwa [decide_eq_true_iff]), splitSign,
      if_neg hminus, if_neg hplus]
    change 1 * (digitsValue ((b :: bs).takeWhile fun b => decide (IsDigit b)) : Int) = _
    rw [htake, Int.one_mul]

/-- What becomes zero as a 32-bit number: the multiples of `2 ^ 32`, and what is cut to
`LONG_MIN`. -/
theorem dvd_strtol_iff (s : List UInt8) : 2 ^ 32 ∣ strtol s ↔
    leadingInt s < LONG_MIN ∨ (leadingInt s ≤ LONG_MAX ∧ 2 ^ 32 ∣ leadingInt s) := by
  unfold strtol LONG_MIN LONG_MAX
  omega

theorem atoi_eq_zero_iff (s : List UInt8) : atoi s = 0 ↔ 2 ^ 32 ∣ strtol s := by
  rw [← Int32.toInt_inj, atoi, Int32.toInt_ofInt]
  exact Int.dvd_iff_bmod_eq_zero.symm

theorem atoi_of_numeral {s : List UInt8} (h : IsNumeral s) (hlt : digitsValue s < 2 ^ 31) :
    (atoi s).toUInt32.toNat = digitsValue s := by
  have hread : strtol s = digitsValue s := by
    rw [strtol, leadingInt_of_numeral h]
    unfold LONG_MIN LONG_MAX
    omega
  rw [atoi, hread, Int32.ofInt_eq_ofNat, Int32.toUInt32_ofNat']
  exact UInt32.toNat_ofNat_of_lt' (hlt.trans (by decide))

end SnippetsC
