import SnippetsC.Framework.Memory

namespace SnippetsC

/-! Bytes written with two upper-case hex digits each, and read back. -/

namespace HexDump

/-- What `%02X` shows of an unsigned argument. -/
def text (v : Nat) : List Char :=
  let digits := (Nat.toDigits 16 (v % 2 ^ 32)).map Char.toUpper
  List.replicate (2 - digits.length) '0' ++ digits

def dump (bs : List UInt8) : List Char := bs.flatMap fun b => text b.toNat

/-- The value of an upper-case hex digit. -/
def digitValue (c : Char) : Option Nat :=
  if '0' ≤ c ∧ c ≤ '9' then some (c.toNat - '0'.toNat)
  else if 'A' ≤ c ∧ c ≤ 'F' then some (c.toNat - 'A'.toNat + 10)
  else none

/-- Reads consecutive pairs of upper-case hex digits. -/
def read : List Char → Option (List UInt8)
  | [] => some []
  | [_] => none
  | c :: d :: cs => do
    let high ← digitValue c
    let low ← digitValue d
    let bs ← read cs
    return UInt8.ofNat (16 * high + low) :: bs

theorem text_byte (b : UInt8) : (text b.toNat).length = 2 ∧ read (text b.toNat) = some [b] := by
  have hall : ∀ v < 256, (text v).length = 2 ∧ read (text v) = some [UInt8.ofNat v] := by
    decide +kernel
  have hb := hall b.toNat b.toNat_lt
  rw [UInt8.ofNat_toNat] at hb
  exact hb

/-- A reader goes on behind a pair. -/
theorem read_append {cs : List Char} {b : UInt8} (hlen : cs.length = 2) (h : read cs = some [b])
    (ds : List Char) : read (cs ++ ds) = (read ds).map (b :: ·) := by
  match cs, hlen with
  | [c, d], _ =>
    rw [List.cons_append, List.cons_append, List.nil_append, read]
    simp only [read, Option.pure_def, Option.bind_eq_bind, Option.bind_eq_some_iff,
      Option.some.injEq, List.cons.injEq] at h
    obtain ⟨high, hhigh, low, hlow, _, rfl, hb, -⟩ := h
    rw [hhigh, hlow, ← hb]
    cases read ds with
    | none => rfl
    | some bs => rfl

theorem dump_length (bs : List UInt8) : (dump bs).length = 2 * bs.length := by
  induction bs with
  | nil => rfl
  | cons b bs ih =>
    rw [dump, List.flatMap_cons, List.length_append, (text_byte b).1]
    change 2 + (dump bs).length = _
    rw [ih, List.length_cons]
    omega

theorem read_dump (bs : List UInt8) : read (dump bs) = some bs := by
  induction bs with
  | nil => rfl
  | cons b bs ih =>
    obtain ⟨hlen, hread⟩ := text_byte b
    change read (text b.toNat ++ dump bs) = _
    rw [read_append hlen hread, ih]
    rfl

theorem dump_injective {as bs : List UInt8} (h : dump as = dump bs) : as = bs := by
  rw [← Option.some_inj, ← read_dump as, ← read_dump bs, h]

end HexDump

end SnippetsC
