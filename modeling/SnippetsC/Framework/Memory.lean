import Mathlib.Data.List.Basic
import Mathlib.Tactic.Ring
import Mathlib.Tactic.Linarith

namespace SnippetsC

/-- Byte memory. Every address holds a byte, so a pointer that leaves its object still reads one. -/
abbrev Mem := Nat → UInt8

/-- The little-endian bytes of a `w`-byte word; higher parts of `v` are cut off as in a C store. -/
def leBytes : Nat → Nat → List UInt8
  | 0, _ => []
  | w + 1, v => UInt8.ofNat v :: leBytes w (v / 256)

def leValue : List UInt8 → Nat
  | [] => 0
  | b :: bs => b.toNat + 256 * leValue bs

/-- A 16-bit word with its bytes swapped. -/
def htons (v : Nat) : Nat := v % 256 * 256 + v / 256 % 256

@[simp] theorem leBytes_length (w v : Nat) : (leBytes w v).length = w := by
  induction w generalizing v with
  | zero => rfl
  | succ w ih => simp [leBytes, ih]

theorem leValue_leBytes (w v : Nat) : leValue (leBytes w v) = v % 256 ^ w := by
  induction w generalizing v with
  | zero => simp [leBytes, leValue, Nat.mod_one]
  | succ w ih =>
    rw [leBytes, leValue, ih, pow_succ', Nat.mod_mul, UInt8.toNat_ofNat']

theorem leValue_leBytes_of_lt {w v : Nat} (h : v < 256 ^ w) : leValue (leBytes w v) = v := by
  rw [leValue_leBytes, Nat.mod_eq_of_lt h]

theorem leBytes_leValue (bs : List UInt8) : leBytes bs.length (leValue bs) = bs := by
  induction bs with
  | nil => rfl
  | cons b bs ih =>
    have hb := b.toNat_lt
    have hfirst : UInt8.ofNat (b.toNat + 256 * leValue bs) = b := by
      apply UInt8.toNat_inj.mp
      rw [UInt8.toNat_ofNat']
      omega
    have hrest : (b.toNat + 256 * leValue bs) / 256 = leValue bs := by omega
    rw [List.length_cons, leValue, leBytes, hfirst, hrest, ih]

theorem leValue_lt (bs : List UInt8) : leValue bs < 256 ^ bs.length := by
  induction bs with
  | nil => simp [leValue]
  | cons b bs ih =>
    have hb := b.toNat_lt
    rw [leValue, List.length_cons, pow_succ']
    omega

namespace Mem

/-- The `n` bytes from address `p` on. -/
def bytes (m : Mem) (p : Nat) : Nat → List UInt8
  | 0 => []
  | n + 1 => m p :: bytes m (p + 1) n

/-- `memcpy` of the bytes `bs` to address `p`. -/
def write (m : Mem) (p : Nat) (bs : List UInt8) : Mem := fun i =>
  if i < p then m i else bs[i - p]?.getD (m i)

def load16 (m : Mem) (p : Nat) : Nat := leValue (m.bytes p 2)
def load32 (m : Mem) (p : Nat) : Nat := leValue (m.bytes p 4)
def store8 (m : Mem) (p v : Nat) : Mem := m.write p (leBytes 1 v)
def store16 (m : Mem) (p v : Nat) : Mem := m.write p (leBytes 2 v)
def store32 (m : Mem) (p v : Nat) : Mem := m.write p (leBytes 4 v)

/-- `memset(p, 0, n)`. -/
def clear (m : Mem) (p n : Nat) : Mem := m.write p (List.replicate n 0)

/-- The bytes `bs` lie in memory from address `p` on. -/
def Holds (m : Mem) (p : Nat) (bs : List UInt8) : Prop := m.bytes p bs.length = bs

@[simp] theorem bytes_length (m : Mem) (p n : Nat) : (m.bytes p n).length = n := by
  induction n generalizing p with
  | zero => rfl
  | succ n ih => simp [bytes, ih]

theorem bytes_add (m : Mem) (p a b : Nat) :
    m.bytes p (a + b) = m.bytes p a ++ m.bytes (p + a) b := by
  induction a generalizing p with
  | zero => simp [bytes]
  | succ a ih =>
    rw [Nat.add_right_comm, bytes, ih, bytes, List.cons_append, Nat.add_right_comm, Nat.add_assoc]

theorem bytes_succ (m : Mem) (p n : Nat) : m.bytes p (n + 1) = m.bytes p n ++ [m (p + n)] :=
  bytes_add m p n 1

theorem getElem_bytes (m : Mem) (p n i : Nat) (h : i < (m.bytes p n).length) :
    (m.bytes p n)[i] = m (p + i) := by
  induction n generalizing p i with
  | zero => simp at h
  | succ n ih =>
    cases i with
    | zero => rfl
    | succ i =>
      simp only [bytes, List.getElem_cons_succ]
      rw [ih]
      congr 1
      omega

theorem mem_bytes {m : Mem} {p n : Nat} {b : UInt8} :
    b ∈ m.bytes p n ↔ ∃ k, k < n ∧ m (p + k) = b := by
  rw [List.mem_iff_getElem]
  apply exists_congr
  intro k
  constructor
  · intro h
    obtain ⟨hk, hb⟩ := h
    exact ⟨(bytes_length m p n).symm ▸ hk, (getElem_bytes m p n k hk).symm.trans hb⟩
  · intro h
    have hk : k < (m.bytes p n).length := (bytes_length m p n).symm ▸ h.1
    exact ⟨hk, (getElem_bytes m p n k hk).trans h.2⟩

theorem bytes_congr {m m' : Mem} {p n : Nat} (h : ∀ i, p ≤ i → i < p + n → m i = m' i) :
    m.bytes p n = m'.bytes p n := by
  induction n generalizing p with
  | zero => rfl
  | succ n ih =>
    rw [bytes, bytes, h p (le_refl p) (by omega), ih (fun i hi hn => h i (by omega) (by omega))]

theorem bytes_take (m : Mem) (p : Nat) {k n : Nat} (h : k ≤ n) :
    (m.bytes p n).take k = m.bytes p k := by
  obtain ⟨d, rfl⟩ := Nat.exists_eq_add_of_le h
  rw [bytes_add, List.take_left' (bytes_length m p k)]

/-! Stores: what is read back, and what is left alone. -/

theorem write_frame (m : Mem) (p : Nat) (bs : List UInt8) {i : Nat}
    (h : i < p ∨ p + bs.length ≤ i) : m.write p bs i = m i := by
  unfold write
  split_ifs with hi
  · rfl
  · rw [List.getElem?_eq_none (by omega)]
    rfl

theorem bytes_write_frame (m : Mem) (p : Nat) (bs : List UInt8) {q n : Nat}
    (h : q + n ≤ p ∨ p + bs.length ≤ q) : (m.write p bs).bytes q n = m.bytes q n :=
  bytes_congr fun i hq hn => write_frame m p bs (by omega)

theorem bytes_write_self (m : Mem) (p : Nat) (bs : List UInt8) :
    (m.write p bs).bytes p bs.length = bs := by
  apply List.ext_getElem (by simp)
  intro i h _
  rw [getElem_bytes, write, if_neg (by omega), Nat.add_sub_cancel_left,
    List.getElem?_eq_getElem (by simpa using h)]
  rfl

theorem bytes_clear (m : Mem) (p : Nat) {q k n : Nat} (hq : p ≤ q) (hn : q + k ≤ p + n) :
    (m.clear p n).bytes q k = List.replicate k 0 := by
  apply List.ext_getElem (by simp)
  intro i h _
  have hk : i < k := by simpa using h
  rw [getElem_bytes, clear, write, if_neg (by omega),
    List.getElem?_replicate_of_lt (by omega), List.getElem_replicate]
  rfl

/-! Contents of a range. -/

@[simp] theorem holds_nil (m : Mem) (p : Nat) : m.Holds p [] := rfl

theorem holds_append {m : Mem} {p : Nat} {as bs : List UInt8} :
    m.Holds p (as ++ bs) ↔ m.Holds p as ∧ m.Holds (p + as.length) bs := by
  rw [Holds, Holds, Holds, List.length_append, bytes_add]
  constructor
  · intro h
    exact List.append_inj h (by simp)
  · rintro ⟨ha, hb⟩
    rw [ha, hb]

theorem Holds.bytes_eq {m : Mem} {p : Nat} {bs : List UInt8} (h : m.Holds p bs) {n : Nat}
    (hn : n = bs.length) : m.bytes p n = bs := hn ▸ h

theorem holds_write (m : Mem) (p : Nat) (bs : List UInt8) : (m.write p bs).Holds p bs :=
  bytes_write_self m p bs

theorem load16_of_holds {m : Mem} {p v : Nat} (h : m.Holds p (leBytes 2 v)) :
    m.load16 p = v % 65536 := by
  rw [load16, h.bytes_eq (leBytes_length 2 v).symm, leValue_leBytes]
  rfl

theorem load32_of_holds {m : Mem} {p v : Nat} (h : m.Holds p (leBytes 4 v)) :
    m.load32 p = v % 4294967296 := by
  rw [load32, h.bytes_eq (leBytes_length 4 v).symm, leValue_leBytes]
  rfl

theorem load16_lt (m : Mem) (p : Nat) : m.load16 p < 65536 := by
  have h := leValue_lt (m.bytes p 2)
  rwa [bytes_length] at h

end Mem

/-- A run of bytes that is read as one value. -/
structure Extent where
  start : Nat
  size : Nat
  deriving DecidableEq

/-- The extent lies in the `n` bytes from `p` on. -/
def Extent.Within (e : Extent) (p n : Nat) : Prop := p ≤ e.start ∧ e.start + e.size ≤ p + n

instance (e : Extent) (p n : Nat) : Decidable (e.Within p n) := inferInstanceAs (Decidable (_ ∧ _))

/-- The value of an extent, little-endian. -/
def Mem.load (m : Mem) (e : Extent) : Nat := leValue (m.bytes e.start e.size)

theorem Mem.load_one (m : Mem) (p : Nat) : m.load ⟨p, 1⟩ = (m p).toNat := Nat.add_zero _

theorem Mem.load_congr {m m' : Mem} {e : Extent}
    (h : ∀ i, e.start ≤ i → i < e.start + e.size → m i = m' i) : m.load e = m'.load e :=
  congrArg leValue (bytes_congr h)

/-- Part of what lies in memory, as a number. -/
theorem Mem.Holds.load {m : Mem} {p k n : Nat} {bs : List UInt8} (h : m.Holds p bs)
    (hk : k + n ≤ bs.length) : m.load ⟨p + k, n⟩ = leValue ((bs.drop k).take n) := by
  have hn : n = ((bs.drop k).take n).length := by
    rw [List.length_take, List.length_drop]
    omega
  have hfront : (bs.take k).length = k := by
    rw [List.length_take]
    omega
  rw [← List.take_append_drop k bs, ← List.take_append_drop n (bs.drop k)] at h
  obtain ⟨-, hrest⟩ := holds_append.mp h
  rw [hfront] at hrest
  exact congrArg leValue ((holds_append.mp hrest).1.bytes_eq hn)

end SnippetsC
