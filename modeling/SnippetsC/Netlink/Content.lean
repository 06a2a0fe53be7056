import Mathlib.Data.List.Basic
import SnippetsC.Netlink.Request

namespace SnippetsC.Netlink

/-! A request by its parts. -/

/-- Attributes one behind the other, each aligned; behind the last there is no padding. -/
def encodeTight : List Rtattr → List UInt8
  | [] => []
  | [b] => b.data
  | a :: as => a.padded ++ encodeTight as

/-- The parts of a request: its fixed struct and its attributes. -/
structure Content where
  type : Nat
  flags : Nat
  fixed : List UInt8
  attrs : List Rtattr

namespace Content

def len (c : Content) : Nat := 16 + c.fixed.length + (encodeTight c.attrs).length

def message (c : Content) : List UInt8 :=
  leBytes 4 c.len ++ (hdrTail c.type c.flags ++ (c.fixed ++ encodeTight c.attrs))

/-- Attributes start at a multiple of four. -/
structure Sound (c : Content) : Prop where
  type_lt : c.type < 65536
  flags_lt : c.flags < 65536
  len_lt : c.len < 65536
  aligned : c.attrs ≠ [] → 4 ∣ c.fixed.length

theorem message_length (c : Content) : c.message.length = c.len := by
  simp [message, len]
  omega

end Content

theorem encodeTight_concat (as : List Rtattr) (b : Rtattr) :
    encodeTight (as ++ [b]) = as.flatMap Rtattr.padded ++ b.data := by
  induction as with
  | nil => rfl
  | cons a as ih =>
    cases as with
    | nil => simp [encodeTight]
    | cons a' as =>
      change a.padded ++ encodeTight (a' :: as ++ [b]) = _
      rw [ih]
      simp

section decode

variable {m : Mem} {c : Content}

/-- What a receiver reads in a message. -/
theorem decode_message (h : m.Holds 0 c.message) (hc : c.Sound) :
    nlmsgLen m 0 = c.len ∧ nlmsgType m 0 = c.type ∧ nlmsgFlags m 0 = c.flags ∧
      m.bytes (nlmsgData 0) c.fixed.length = c.fixed ∧
      decodeRtas m (nlmsgSpace c.fixed.length)
        ((nlmsgLen m 0 : Int) - nlmsgSpace c.fixed.length) = c.attrs := by
  have hlt := hc.len_lt
  have hlen : nlmsgLen m 0 = c.len := nlmsgLen_of_leBytes h (by omega)
  obtain ⟨-, h4⟩ := Mem.holds_append.mp h
  obtain ⟨hhdr, h16⟩ := Mem.holds_append.mp h4
  obtain ⟨htype, h6⟩ := Mem.holds_append.mp hhdr
  obtain ⟨hflags, -⟩ := Mem.holds_append.mp h6
  obtain ⟨hfixed, hattrs⟩ := Mem.holds_append.mp h16
  refine ⟨hlen, ?_, ?_, hfixed, ?_⟩
  · exact (Mem.load16_of_holds htype).trans (Nat.mod_eq_of_lt hc.type_lt)
  · exact (Mem.load16_of_holds hflags).trans (Nat.mod_eq_of_lt hc.flags_lt)
  · rw [hlen, Content.len]
    have hspace : nlmsgSpace c.fixed.length = alignUp 4 (c.fixed.length + 16) := by
      rw [Content.len] at hlt
      rw [nlmsgSpace, nlmsgAlign_eq (by rw [nlmsgLength]; change c.fixed.length + 16 < _; omega)]
      rfl
    rcases List.eq_nil_or_concat' c.attrs with hnil | ⟨as, b, hcon⟩
    · have hup := le_alignUp 4 (c.fixed.length + 16)
      have hok : ¬RtaOk m (nlmsgSpace c.fixed.length)
          (((16 + c.fixed.length + (encodeTight c.attrs).length : Nat) : Int) -
            nlmsgSpace c.fixed.length) := by
        intro hok
        have h4 := hok.1
        rw [hspace, hnil] at h4
        simp only [encodeTight, List.length_nil, sizeofRtattr] at h4
        omega
      rw [decodeRtas, rtaWalk, dif_neg hok, hnil]
      rfl
    · have hdvd : 4 ∣ c.fixed.length + 16 :=
        Nat.dvd_add (hc.aligned (by rw [hcon]; simp)) (by decide)
      rw [hcon, encodeTight_concat] at hattrs ⊢
      rw [hspace, alignUp_of_dvd hdvd]
      rw [Content.len, hcon, encodeTight_concat] at hlt
      refine decodeRtas_attrs (p := c.fixed.length + 16) ?_ ?_ ?_
      · simpa [Nat.add_comm] using hattrs
      · simp only [List.length_append]
        omega
      · simp only [List.length_append] at hlt ⊢
        omega

theorem Content.sent_of_filled {lim : Nat} (h : Filled m 0 lim c.message) (hl : c.len < 2 ^ 31) :
    m.bytes 0 (nlmsgLen m 0) = c.message :=
  h.bytes_eq ((nlmsgLen_of_filled h hl).trans c.message_length.symm)

end decode

end SnippetsC.Netlink
