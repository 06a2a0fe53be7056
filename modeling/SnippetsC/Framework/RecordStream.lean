import SnippetsC.Math.Align
import SnippetsC.Framework.Memory
import Mathlib.Data.List.Chain
import Mathlib.Data.List.Infix

namespace SnippetsC

/-- The elements of a layout that starts at `p`, each with its own address. -/
def placed {α : Type*} (size : α → Nat) (p : Nat) : List α → List (Nat × α)
  | [] => []
  | a :: as => (p, a) :: placed size (p + size a) as

section placed

variable {α β : Type*} (size : α → Nat)

theorem placed_append (p : Nat) (as bs : List α) :
    placed size p (as ++ bs) = placed size p as ++ placed size (p + (as.map size).sum) bs := by
  induction as generalizing p with
  | nil => rfl
  | cons a as ih =>
    simp only [List.cons_append, placed, ih, List.map_cons, List.sum_cons, Nat.add_assoc]

theorem placed_map (f : β → α) (p : Nat) (bs : List β) :
    placed size p (bs.map f) = (placed (fun b => size (f b)) p bs).map fun x => (x.1, f x.2) := by
  induction bs generalizing p with
  | nil => rfl
  | cons b bs ih => simp only [List.map_cons, placed, ih]

@[simp] theorem placed_snd (p : Nat) (as : List α) : (placed size p as).map Prod.snd = as := by
  induction as generalizing p with
  | nil => rfl
  | cons a as ih => rw [placed, List.map_cons, ih]

theorem le_of_mem_placed {p : Nat} {as : List α} {x : Nat × α} (h : x ∈ placed size p as) :
    p ≤ x.1 := by
  induction as generalizing p with
  | nil => cases h
  | cons a as ih =>
    rcases List.mem_cons.mp h with rfl | h
    · exact le_refl p
    · exact (Nat.le_add_right _ _).trans (ih h)

end placed

/-- A stream of records that each carry their own length: a record starts with a header of `hdr`
bytes, `sizeOf` reads the length of the whole record from it, and the next record starts at the
next multiple of `align`. -/
structure Format where
  hdr : Nat
  align : Nat
  sizeOf : List UInt8 → Nat
  hdr_pos : 0 < hdr
  align_pos : 0 < align

namespace Format

variable (F : Format)

instance : NeZero F.align := ⟨F.align_pos.ne'⟩

/-- The length field of the record at `p`. -/
def size (m : Mem) (p : Nat) : Nat := F.sizeOf (m.bytes p F.hdr)

/-- A record starts at `p` and lies in the `len` bytes that remain. -/
def Ok (m : Mem) (p : Nat) (len : Int) : Prop :=
  (F.hdr : Int) ≤ len ∧ F.hdr ≤ F.size m p ∧ (F.size m p : Int) ≤ len

instance (m : Mem) (p : Nat) (len : Int) : Decidable (F.Ok m p len) :=
  inferInstanceAs (Decidable (_ ∧ _ ∧ _))

def step (m : Mem) (p : Nat) : Nat := alignUp F.align (F.size m p)

theorem size_le_step (m : Mem) (p : Nat) : F.size m p ≤ F.step m p := le_alignUp F.align _

/-- The addresses of the records a reader visits, starting at `p` with `len` bytes remaining. -/
def walk (m : Mem) (p : Nat) (len : Int) : List Nat :=
  if _h : F.Ok m p len then p :: walk m (p + F.step m p) (len - F.step m p) else []
termination_by len.toNat
decreasing_by
  have hs := F.size_le_step m p
  have hp := F.hdr_pos
  obtain ⟨h1, h2, -⟩ := _h
  omega

theorem walk_of_ok {m : Mem} {p : Nat} {len : Int} (h : F.Ok m p len) :
    F.walk m p len = p :: F.walk m (p + F.step m p) (len - F.step m p) := by
  rw [walk, dif_pos h]

theorem walk_of_not_ok {m : Mem} {p : Nat} {len : Int} (h : ¬F.Ok m p len) :
    F.walk m p len = [] := by
  rw [walk, dif_neg h]

theorem walk_of_lt {m : Mem} {p : Nat} {len : Int} (h : len < F.hdr) : F.walk m p len = [] :=
  F.walk_of_not_ok fun ok => absurd ok.1 (by omega)

/-- The remaining length after a walk, which may be negative by less than the alignment. -/
def rest (m : Mem) (p : Nat) (len : Int) : Int :=
  if _h : F.Ok m p len then rest m (p + F.step m p) (len - F.step m p) else len
termination_by len.toNat
decreasing_by
  have hs := F.size_le_step m p
  have hp := F.hdr_pos
  obtain ⟨h1, h2, -⟩ := _h
  omega

theorem rest_of_ok {m : Mem} {p : Nat} {len : Int} (h : F.Ok m p len) :
    F.rest m p len = F.rest m (p + F.step m p) (len - F.step m p) := by
  rw [rest, dif_pos h]

theorem rest_of_not_ok {m : Mem} {p : Nat} {len : Int} (h : ¬F.Ok m p len) :
    F.rest m p len = len := by
  rw [rest, dif_neg h]

theorem rest_of_lt {m : Mem} {p : Nat} {len : Int} (h : len < F.hdr) : F.rest m p len = len :=
  F.rest_of_not_ok fun ok => absurd ok.1 (by omega)

/-- A visited record lies in the bytes that remained at the start, at a multiple of the alignment
from there. -/
theorem mem_walk {m : Mem} {p : Nat} {len : Int} {q : Nat} (h : q ∈ F.walk m p len) :
    p ≤ q ∧ F.align ∣ q - p ∧ F.hdr ≤ F.size m q ∧ (q + F.size m q : Int) ≤ p + len := by
  induction p, len using Format.walk.induct F m with
  | case1 p len hok ih =>
    rw [F.walk_of_ok hok] at h
    rcases List.mem_cons.mp h with rfl | h
    · obtain ⟨-, hhdr, hle⟩ := hok
      refine ⟨le_refl q, ?_, hhdr, by omega⟩
      rw [Nat.sub_self]
      exact Nat.dvd_zero _
    · obtain ⟨hp, hdvd, hhdr, hle⟩ := ih h
      refine ⟨(Nat.le_add_right _ _).trans hp, ?_, hhdr, by omega⟩
      have hsub : q - p = F.step m p + (q - (p + F.step m p)) := by omega
      rw [hsub]
      exact Nat.dvd_add (dvd_alignUp _ _) hdvd
  | case2 p len hok =>
    rw [F.walk_of_not_ok hok] at h
    cases h

/-- The visited records do not overlap. -/
theorem walk_pairwise (m : Mem) (p : Nat) (len : Int) :
    (F.walk m p len).Pairwise fun a b => a + F.size m a ≤ b := by
  induction p, len using Format.walk.induct F m with
  | case1 p len hok ih =>
    rw [F.walk_of_ok hok, List.pairwise_cons]
    refine ⟨?_, ih⟩
    intro q hq
    exact (Nat.add_le_add_left (F.size_le_step m p) p).trans (F.mem_walk hq).1
  | case2 p len hok =>
    rw [F.walk_of_not_ok hok]
    exact List.Pairwise.nil

theorem walk_head? {m : Mem} {p : Nat} {len : Int} {q : Nat} (h : q ∈ (F.walk m p len).head?) :
    q = p := by
  by_cases hok : F.Ok m p len
  · rw [F.walk_of_ok hok] at h
    cases h
    rfl
  · rw [F.walk_of_not_ok hok] at h
    cases h

/-- Each visited record starts where the one before it ends, up to the alignment. -/
theorem walk_isChain (m : Mem) (p : Nat) (len : Int) :
    (F.walk m p len).IsChain fun a b => b = a + F.step m a := by
  induction p, len using Format.walk.induct F m with
  | case1 p len hok ih =>
    rw [F.walk_of_ok hok, List.isChain_cons]
    exact ⟨fun q hq => F.walk_head? hq, ih⟩
  | case2 p len hok =>
    rw [F.walk_of_not_ok hok]
    exact List.IsChain.nil

/-- Where a walk ends. -/
def stop (m : Mem) (p : Nat) (len : Int) : Nat :=
  if _h : F.Ok m p len then stop m (p + F.step m p) (len - F.step m p) else p
termination_by len.toNat
decreasing_by
  have hs := F.size_le_step m p
  have hp := F.hdr_pos
  obtain ⟨h1, h2, -⟩ := _h
  omega

/-- The addresses at which a walk looks for a header: the records and, where room for a header is
left, the place that holds none. -/
def headers (m : Mem) (p : Nat) (len : Int) : List Nat :=
  if _h : F.Ok m p len then p :: headers m (p + F.step m p) (len - F.step m p)
  else if (F.hdr : Int) ≤ len then [p] else []
termination_by len.toNat
decreasing_by
  have hs := F.size_le_step m p
  have hp := F.hdr_pos
  obtain ⟨h1, h2, -⟩ := _h
  omega

theorem stop_of_ok {m : Mem} {p : Nat} {len : Int} (h : F.Ok m p len) :
    F.stop m p len = F.stop m (p + F.step m p) (len - F.step m p) := by
  rw [stop, dif_pos h]

theorem stop_of_not_ok {m : Mem} {p : Nat} {len : Int} (h : ¬F.Ok m p len) :
    F.stop m p len = p := by
  rw [stop, dif_neg h]

theorem headers_of_ok {m : Mem} {p : Nat} {len : Int} (h : F.Ok m p len) :
    F.headers m p len = p :: F.headers m (p + F.step m p) (len - F.step m p) := by
  rw [headers, dif_pos h]

theorem headers_of_not_ok {m : Mem} {p : Nat} {len : Int} (h : ¬F.Ok m p len) :
    F.headers m p len = if (F.hdr : Int) ≤ len then [p] else [] := by
  rw [headers, dif_neg h]

theorem le_of_mem_headers {m : Mem} {p : Nat} {len : Int} {q : Nat}
    (h : q ∈ F.headers m p len) : p ≤ q := by
  induction p, len using Format.walk.induct F m with
  | case1 p len hok ih =>
    rw [F.headers_of_ok hok] at h
    rcases List.mem_cons.mp h with rfl | h
    · exact le_refl q
    · exact (Nat.le_add_right _ _).trans (ih h)
  | case2 p len hok =>
    rw [F.headers_of_not_ok hok] at h
    split_ifs at h
    · rw [List.mem_singleton.mp h]
    · cases h

theorem ok_mono {m : Mem} {p : Nat} {len len' : Int} (h : F.Ok m p len) (hle : len ≤ len') :
    F.Ok m p len' :=
  ⟨h.1.trans hle, h.2.1, h.2.2.trans hle⟩

/-- A walk stays in the first `len` of the `len + k` bytes that it is given. -/
def Contained (m : Mem) (p : Nat) (len : Int) (k : Nat) : Prop :=
  (∀ q ∈ F.headers m p (len + k), (q + F.hdr : Int) ≤ p + len) ∧
    ∀ q ∈ F.walk m p (len + k), (q + F.size m q : Int) ≤ p + len

theorem contained_of_ok {m : Mem} {p : Nat} {len : Int} (k : Nat) (h : F.Ok m p len) :
    F.Contained m p len k ↔ F.Contained m (p + F.step m p) (len - F.step m p) k := by
  have hk : F.Ok m p (len + k) := F.ok_mono h (by omega)
  have hlen : len + k - F.step m p = len - F.step m p + k := by omega
  have hend : ((p + F.step m p : Nat) : Int) + (len - F.step m p) = p + len := by
    push_cast
    omega
  obtain ⟨hhdr, -, hsize⟩ := h
  rw [Contained, Contained, F.headers_of_ok hk, F.walk_of_ok hk, hlen, hend,
    List.forall_mem_cons, List.forall_mem_cons]
  constructor
  · intro hc
    exact ⟨hc.1.2, hc.2.2⟩
  · intro hc
    exact ⟨⟨by omega, hc.1⟩, ⟨by omega, hc.2⟩⟩

theorem contained_of_not_ok {m : Mem} {p : Nat} {len : Int} (k : Nat) (h : ¬F.Ok m p len) :
    F.Contained m p len k ↔ len + k < F.hdr ∨ (F.hdr : Int) ≤ len ∧ ¬F.Ok m p (len + k) := by
  rw [Contained]
  by_cases hk : F.Ok m p (len + k)
  · have hbig : ¬((F.hdr : Int) ≤ len ∧ (F.size m p : Int) ≤ len) := by
      intro hc
      exact h ⟨hc.1, hk.2.1, hc.2⟩
    obtain ⟨hhdr, -, -⟩ := id hk
    rw [F.headers_of_ok hk, F.walk_of_ok hk, List.forall_mem_cons, List.forall_mem_cons]
    constructor
    · intro hc
      exact absurd ⟨by omega, by omega⟩ hbig
    · intro hc
      rcases hc with hc | hc
      · omega
      · exact absurd hk hc.2
  · rw [F.headers_of_not_ok hk, F.walk_of_not_ok hk]
    by_cases hhdr : (F.hdr : Int) ≤ len + k
    · rw [if_pos hhdr, List.forall_mem_singleton]
      constructor
      · intro hc
        exact Or.inr ⟨by omega, hk⟩
      · intro hc
        rcases hc with hc | hc
        · omega
        · exact ⟨by omega, List.forall_mem_nil _⟩
    · rw [if_neg hhdr]
      constructor
      · intro _
        exact Or.inl (by omega)
      · intro _
        exact ⟨List.forall_mem_nil _, List.forall_mem_nil _⟩

/-- What decides whether `k` bytes too many make a walk leave the bytes it should stay in: what is
left of these where it should end. -/
theorem contained_iff (m : Mem) (p : Nat) (len : Int) (k : Nat) :
    F.Contained m p len k ↔ F.rest m p len + k < F.hdr ∨
      (F.hdr : Int) ≤ F.rest m p len ∧ ¬F.Ok m (F.stop m p len) (F.rest m p len + k) := by
  induction p, len using Format.walk.induct F m with
  | case1 p len hok ih => rw [F.contained_of_ok k hok, F.rest_of_ok hok, F.stop_of_ok hok, ih]
  | case2 p len hok =>
    rw [F.contained_of_not_ok k hok, F.rest_of_not_ok hok, F.stop_of_not_ok hok]

/-- A well-formed record: its own bytes, with the length it announces, and its padding. -/
structure Record where
  data : List UInt8
  pad : List UInt8
  header_le : F.hdr ≤ data.length
  sizeOf_eq : F.sizeOf (data.take F.hdr) = data.length
  pad_length : data.length + pad.length = alignUp F.align data.length

variable {F}

def Record.bytes (r : F.Record) : List UInt8 := r.data ++ r.pad

theorem Record.bytes_length (r : F.Record) : r.bytes.length = alignUp F.align r.data.length := by
  rw [Record.bytes, List.length_append, r.pad_length]

theorem Record.dvd_length (r : F.Record) : F.align ∣ r.bytes.length :=
  r.bytes_length ▸ dvd_alignUp _ _

theorem Record.data_le (r : F.Record) : r.data.length ≤ r.bytes.length := by
  rw [Record.bytes, List.length_append]
  omega

theorem Record.bytes_pos (r : F.Record) : 0 < r.bytes.length :=
  lt_of_lt_of_le F.hdr_pos (r.header_le.trans r.data_le)

def encode (rs : List F.Record) : List UInt8 := rs.flatMap Record.bytes

/-- The records of a stream with the address at which each one starts. -/
abbrev located (p : Nat) (rs : List F.Record) : List (Nat × F.Record) :=
  placed (fun r => r.bytes.length) p rs

@[simp] theorem encode_nil : encode ([] : List F.Record) = [] := rfl

@[simp] theorem encode_cons (r : F.Record) (rs : List F.Record) :
    encode (r :: rs) = r.bytes ++ encode rs := rfl

@[simp] theorem encode_append (rs ss : List F.Record) :
    encode (rs ++ ss) = encode rs ++ encode ss := List.flatMap_append

theorem dvd_encode_length (rs : List F.Record) : F.align ∣ (encode rs).length := by
  induction rs with
  | nil => exact Nat.dvd_zero _
  | cons r rs ih =>
    rw [encode_cons, List.length_append]
    exact Nat.dvd_add r.dvd_length ih

theorem encode_length (rs : List F.Record) :
    (encode rs).length = (rs.map fun r => r.bytes.length).sum := List.length_flatMap

theorem located_holds {m : Mem} {p : Nat} {rs : List F.Record} (h : m.Holds p (encode rs))
    {x : Nat × F.Record} (hx : x ∈ located p rs) : m.Holds x.1 x.2.data := by
  induction rs generalizing p with
  | nil => cases hx
  | cons r rs ih =>
    rw [encode_cons, Record.bytes, List.append_assoc] at h
    have hd := Mem.holds_append.mp h
    rw [← List.append_assoc] at h
    rcases List.mem_cons.mp hx with rfl | hx
    · exact hd.1
    · exact ih (Mem.holds_append.mp h).2 hx

/-- A record in memory announces the length of its own bytes. -/
theorem size_of_holds {m : Mem} {p : Nat} (r : F.Record) (h : m.Holds p r.data) :
    F.size m p = r.data.length := by
  rw [size, ← Mem.bytes_take m p r.header_le, h.bytes_eq rfl, r.sizeOf_eq]

theorem step_of_holds {m : Mem} {p : Nat} (r : F.Record) (h : m.Holds p r.data) :
    F.step m p = r.bytes.length := by
  rw [step, size_of_holds r h, r.bytes_length]

theorem ok_of_holds {m : Mem} {p : Nat} (r : F.Record) (h : m.Holds p r.data) {len : Int}
    (hl : (r.data.length : Int) ≤ len) : F.Ok m p len := by
  have hh := r.header_le
  rw [Ok, size_of_holds r h]
  omega

/-- A reader visits every record of an encoded stream and goes on after it with what is left. -/
theorem walk_encode {m : Mem} {p : Nat} {rs : List F.Record} (h : m.Holds p (encode rs))
    {r : Int} (hr : 0 ≤ r) :
    F.walk m p ((encode rs).length + r) =
      (located p rs).map Prod.fst ++ F.walk m (p + (encode rs).length) r := by
  induction rs generalizing p with
  | nil => simp [placed]
  | cons a rs ih =>
    have hd := located_holds h (List.mem_cons_self (a := (p, a)))
    rw [encode_cons] at h
    have ht := ih (Mem.holds_append.mp h).2
    have hle := a.data_le
    have ok : F.Ok m p ((encode (a :: rs)).length + r) :=
      ok_of_holds a hd (by rw [encode_cons, List.length_append]; omega)
    have hlen : ((encode (a :: rs)).length + r : Int) - a.bytes.length =
        (encode rs).length + r := by
      rw [encode_cons, List.length_append]
      omega
    rw [F.walk_of_ok ok, step_of_holds a hd, hlen, ht, encode_cons, List.length_append,
      Nat.add_assoc]
    rfl

/-- The same when the padding of the last record is cut off: the walk ends there. -/
theorem walk_encode_tight {m : Mem} {p : Nat} {rs : List F.Record} {a : F.Record}
    (h : m.Holds p (encode rs ++ a.data)) :
    F.walk m p ((encode rs).length + a.data.length) =
      (located p (rs ++ [a])).map Prod.fst := by
  obtain ⟨hrs, ha⟩ := Mem.holds_append.mp h
  rw [walk_encode hrs (Int.natCast_nonneg _), located, located, placed_append, ← encode_length,
    List.map_append,
    F.walk_of_ok (ok_of_holds a ha (le_refl _)), step_of_holds a ha]
  have hle := a.data_le
  have hp := F.hdr_pos
  rw [F.walk_of_lt (by omega)]
  rfl

theorem rest_encode {m : Mem} {p : Nat} {rs : List F.Record} (h : m.Holds p (encode rs))
    {r : Int} (hr : 0 ≤ r) :
    F.rest m p ((encode rs).length + r) = F.rest m (p + (encode rs).length) r := by
  induction rs generalizing p with
  | nil => simp
  | cons a rs ih =>
    have hd := located_holds h (List.mem_cons_self (a := (p, a)))
    rw [encode_cons] at h
    have hle := a.data_le
    have ok : F.Ok m p ((encode (a :: rs)).length + r) :=
      ok_of_holds a hd (by rw [encode_cons, List.length_append]; omega)
    have hlen : ((encode (a :: rs)).length + r : Int) - a.bytes.length =
        (encode rs).length + r := by
      rw [encode_cons, List.length_append]
      omega
    rw [F.rest_of_ok ok, step_of_holds a hd, hlen, ih (Mem.holds_append.mp h).2, encode_cons,
      List.length_append, Nat.add_assoc]

theorem rest_encode_tight {m : Mem} {p : Nat} {rs : List F.Record} {a : F.Record}
    (h : m.Holds p (encode rs ++ a.data)) :
    F.rest m p ((encode rs).length + a.data.length) = -(a.pad.length : Int) := by
  obtain ⟨hrs, ha⟩ := Mem.holds_append.mp h
  have hb : a.bytes.length = a.data.length + a.pad.length := List.length_append
  have hp := F.hdr_pos
  rw [rest_encode hrs (Int.natCast_nonneg _), F.rest_of_ok (ok_of_holds a ha (le_refl _)),
    step_of_holds a ha, F.rest_of_lt (by omega)]
  omega

end Format

end SnippetsC
