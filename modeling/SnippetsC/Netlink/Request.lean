import SnippetsC.Framework.Layout
import SnippetsC.Netlink.Message

namespace SnippetsC.Netlink

/-- A C string: the bytes before its terminating NUL. -/
structure CString where
  chars : List UInt8
  no_nul : 0 ∉ chars
  deriving DecidableEq

namespace CString

def strlen (s : CString) : Nat := s.chars.length
def strnlen (s : CString) (n : Nat) : Nat := min s.chars.length n

/-- The string as it lies in memory. -/
def bytes (s : CString) : List UInt8 := s.chars ++ [0]

@[simp] theorem bytes_length (s : CString) : s.bytes.length = s.chars.length + 1 := by
  simp [bytes]

theorem strnlen_of_le {s : CString} {n : Nat} (h : s.strlen ≤ n) : s.strnlen n = s.strlen :=
  Nat.min_eq_left h

theorem take_strlen (s : CString) : s.bytes.take s.strlen = s.chars := List.take_left

theorem take_strnlen (s : CString) (n : Nat) : s.bytes.take (s.strnlen n) = s.chars.take n := by
  rw [strnlen, bytes, Nat.min_comm, List.take_append_of_le_length (Nat.min_le_right _ _)]
  exact (List.take_eq_take_min ..).symm

theorem strnlen_le (s : CString) (n : Nat) : s.strnlen n ≤ n := Nat.min_le_right _ _

theorem strnlen_eq (s : CString) (n : Nat) : s.strnlen n = (s.chars.take n).length := by
  rw [strnlen, List.length_take, Nat.min_comm]

theorem take_strlen_succ (s : CString) : s.bytes.take (s.strlen + 1) = s.bytes :=
  List.take_of_length_le s.bytes_length.le

end CString

/-! The request builders clear a message buffer at address 0, fill the header and a fixed struct,
and add attributes. Each part is one definition; the order of stores is that of the sources. -/

/-- `nlmsg_len`, `nlmsg_pid`, `nlmsg_seq`, `nlmsg_type`, `nlmsg_flags`. -/
def fillHeader (m : Mem) (len type flags : Nat) : Mem :=
  let m := m.store32 0 len
  let m := m.store32 12 0
  let m := m.store32 8 1
  let m := m.store16 4 type
  m.store16 6 flags

def setNlmsgLen (m : Mem) (len : Nat) : Mem := m.store32 0 len
def setRtaLen (m : Mem) (rta len : Nat) : Mem := m.store16 rta len

/-- `rta->rta_type = type; rta->rta_len = len;` -/
def addRta (m : Mem) (rta type len : Nat) : Mem := setRtaLen (m.store16 (rta + 2) type) rta len

/-- The same, followed by a `memcpy` of `payload` to `RTA_DATA(rta)`. -/
def addAttr (m : Mem) (rta type len : Nat) (payload : List UInt8) : Mem :=
  (addRta m rta type len).write (rtaData rta) payload

/-- What the header holds behind `nlmsg_len`. -/
def hdrTail (type flags : Nat) : List UInt8 :=
  leBytes 2 type ++ (leBytes 2 flags ++ (leBytes 4 1 ++ leBytes 4 0))

def rtaBytes (type len : Nat) : List UInt8 := leBytes 2 len ++ leBytes 2 type

theorem rtaBytes_payload (a : Rtattr) :
    rtaBytes a.type.toNat (4 + a.payload.length) ++ a.payload = a.data := by
  rw [rtaBytes, List.append_assoc, Rtattr.data]

@[simp] theorem hdrTail_length (type flags : Nat) : (hdrTail type flags).length = 12 := rfl
@[simp] theorem rtaBytes_length (type len : Nat) : (rtaBytes type len).length = 4 := rfl

section filled

variable {m : Mem} {lim : Nat} {bs : List UInt8}

theorem filled_fillHeader (h : Filled m 0 lim []) (hl : 16 ≤ lim) (len type flags : Nat) :
    Filled (fillHeader m len type flags) 0 lim (leBytes 4 len ++ hdrTail type flags) := by
  have h1 := h.append 0 (leBytes 4 len) (q := 0) rfl (by simp; omega)
  have h2 := h1.append 8 (leBytes 4 0) (q := 12) rfl (by simp; omega)
  have h3 := h2.patch (leBytes 4 len ++ List.replicate 4 0) (List.replicate 4 0) (leBytes 4 1)
    (leBytes 4 0) (q := 8) rfl rfl rfl
  have h4 := h3.patch (leBytes 4 len) (List.replicate 2 0) (leBytes 2 type)
    (List.replicate 2 0 ++ (leBytes 4 1 ++ leBytes 4 0)) (q := 4) rfl rfl rfl
  exact h4.patch (leBytes 4 len ++ leBytes 2 type) (List.replicate 2 0) (leBytes 2 flags)
    (leBytes 4 1 ++ leBytes 4 0) (q := 6) rfl rfl rfl

theorem filled_addRta (h : Filled m 0 lim bs) (g : Nat) {p : Nat} (hp : p = bs.length + g)
    (hl : p + 4 ≤ lim) (type len : Nat) :
    Filled (addRta m p type len) 0 lim (bs ++ (List.replicate g 0 ++ rtaBytes type len)) := by
  have h1 := h.append (g + 2) (leBytes 2 type) (q := p + 2) (by omega) (by simp; omega)
  have hsplit : bs ++ (List.replicate (g + 2) 0 ++ leBytes 2 type) =
      (bs ++ List.replicate g 0) ++ (List.replicate 2 0 ++ leBytes 2 type) := by
    rw [List.replicate_add, List.append_assoc, List.append_assoc]
  have h2 := h1.patch _ _ (leBytes 2 len) _ (q := p) hsplit rfl (by simp [hp])
  rw [List.append_assoc] at h2
  exact h2

theorem filled_addAttr (h : Filled m 0 lim bs) (g : Nat) {p : Nat} (hp : p = bs.length + g)
    (type len : Nat) {payload : List UInt8} (hl : p + 4 + payload.length ≤ lim) :
    Filled (addAttr m p type len payload) 0 lim
      (bs ++ (List.replicate g 0 ++ (rtaBytes type len ++ payload))) := by
  have h1 := filled_addRta h g hp (by omega) type len
  have h2 := h1.append 0 payload (q := rtaData p) (by simp [hp]; omega) (by simpa using hl)
  simpa [addAttr] using h2

/-- An attribute added behind a filled buffer, at the gap, puts its own bytes there. -/
theorem filled_attr (h : Filled m 0 lim bs) (g : Nat) (a : Rtattr)
    {p t l : Nat} (hp : p = bs.length + g) (ht : t = a.type.toNat)
    (hn : l = 4 + a.payload.length) (hl : p + l ≤ lim) :
    Filled (addAttr m p t l a.payload) 0 lim (bs ++ (List.replicate g 0 ++ a.data)) := by
  subst ht hn
  rw [← rtaBytes_payload]
  exact filled_addAttr h g hp _ _ (by omega)

theorem filled_setNlmsgLen {len : Nat} (h : Filled m 0 lim (leBytes 4 len ++ bs))
    {n len' : Nat} (hn : n = len') : Filled (setNlmsgLen m n) 0 lim (leBytes 4 len' ++ bs) := by
  subst hn
  exact h.patch [] (leBytes 4 len) (leBytes 4 n) bs rfl (by simp) rfl

/-- Patching the length of an attribute that starts behind `as`. -/
theorem filled_setRtaLen {as cs : List UInt8} {type len : Nat}
    (h : Filled m 0 lim (as ++ (rtaBytes type len ++ cs))) {p n len' : Nat} (hp : p = as.length)
    (hn : n = len') : Filled (setRtaLen m p n) 0 lim (as ++ (rtaBytes type len' ++ cs)) := by
  subst hn
  have h1 := h.patch as (leBytes 2 len) (leBytes 2 n) (leBytes 2 type ++ cs) (q := p)
    (by rw [rtaBytes, List.append_assoc]) (by simp) (by omega)
  rw [rtaBytes, List.append_assoc]
  exact h1

theorem nlmsgLen_of_leBytes {len : Nat} (h : m.Holds 0 (leBytes 4 len ++ bs))
    (hl : len < 2 ^ 31) : nlmsgLen m 0 = len := by
  rw [nlmsgLen, Mem.load32_of_holds (Mem.holds_append.mp h).1]
  exact Nat.mod_eq_of_lt (by omega)

theorem nlmsgLen_of_filled {len : Nat} (h : Filled m 0 lim (leBytes 4 len ++ bs))
    (hl : len < 2 ^ 31) : nlmsgLen m 0 = len := nlmsgLen_of_leBytes h.holds hl

theorem rtaLen_of_filled {as cs : List UInt8} {type len : Nat}
    (h : Filled m 0 lim (as ++ (rtaBytes type len ++ cs))) {p : Nat} (hp : p = as.length)
    (hl : len < 65536) : rtaLen m p = len := by
  obtain ⟨-, hrest⟩ := Mem.holds_append.mp h.holds
  rw [rtaBytes, List.append_assoc] at hrest
  have hlen := (Mem.holds_append.mp hrest).1
  rw [Nat.zero_add, ← hp] at hlen
  rw [rtaLen, Mem.load16_of_holds hlen, Nat.mod_eq_of_lt hl]

end filled

section frame

variable (m : Mem) {i : Nat}

theorem fillHeader_frame (len type flags : Nat) (h : 16 ≤ i) :
    fillHeader m len type flags i = m i := by
  simp only [fillHeader, Mem.store16, Mem.store32]
  repeat rw [Mem.write_frame _ _ _ (by rw [leBytes_length]; omega)]

theorem addRta_frame {p : Nat} (type len : Nat) (h : p + 4 ≤ i) : addRta m p type len i = m i := by
  simp only [addRta, setRtaLen, Mem.store16]
  repeat rw [Mem.write_frame _ _ _ (by rw [leBytes_length]; omega)]

theorem addAttr_frame {p : Nat} (type len : Nat) {payload : List UInt8}
    (h : p + 4 + payload.length ≤ i) : addAttr m p type len payload i = m i := by
  rw [addAttr, Mem.write_frame _ _ _ (Or.inr (by rw [rtaData_eq]; exact h)),
    addRta_frame m type len (by omega)]

end frame

/-! Decoding, as the receiver of a request walks it. -/

/-- The addresses visited by `for (; RTA_OK(rta, len); rta = RTA_NEXT(rta, len))`, and the `len`
left at its end. -/
def rtaWalk (m : Mem) (rta : Nat) (len : Int) : List Nat × Int :=
  if _h : RtaOk m rta len then
    let w := rtaWalk m (rtaNext m rta) (rtaRest m rta len)
    (rta :: w.1, w.2)
  else ([], len)
termination_by len.toNat
decreasing_by exact rtaRest_toNat_lt _h

/-- The attributes in the `len` bytes from `p` on. -/
def decodeRtas (m : Mem) (p : Nat) (len : Int) : List Rtattr :=
  (rtaWalk m p len).1.map (rtattrAt m)

theorem rtaWalk_eq {m : Mem} {p : Nat} {len : Int} (hl : len < 2 ^ 31) :
    rtaWalk m p len = (rtaFormat.walk m p len, rtaFormat.rest m p len) := by
  induction p, len using rtaWalk.induct (m := m) with
  | case1 p len h ih =>
    have hok := rtaOk_iff.mp h
    have hr := rtaRest_eq h hl
    have hs := rtaFormat.size_le_step m p
    have hw := ih (by omega)
    rw [rtaWalk, dif_pos h, hw, rtaFormat.walk_of_ok hok, rtaFormat.rest_of_ok hok, rtaNext_eq, hr]
  | case2 p len h =>
    have hok : ¬rtaFormat.Ok m p len := by
      intro hw
      exact h (rtaOk_iff.mpr hw)
    rw [rtaWalk, dif_neg h, rtaFormat.walk_of_not_ok hok, rtaFormat.rest_of_not_ok hok]

section decode

variable {m : Mem} {p : Nat} {as : List Rtattr} {b : Rtattr} {len : Int}

theorem fits_of_le (hl : (as.flatMap Rtattr.padded).length + b.data.length < 65536) :
    (∀ a ∈ as, 4 + a.payload.length < 65536) ∧ 4 + b.payload.length < 65536 := by
  rw [Rtattr.data_length] at hl
  constructor
  · intro a ha
    have hmem : a.padded ∈ as.map Rtattr.padded := List.mem_map_of_mem ha
    have hsub := (List.sublist_flatten_of_mem hmem).length_le
    have hpad := a.length_le_room
    rw [Rtattr.padded_length, ← List.flatMap_def] at hsub
    omega
  · omega

theorem placed_room (p : Nat) (as : List Rtattr) (b : Rtattr) :
    (placed Rtattr.room p (as ++ [b])).map Prod.fst =
      (placed Rtattr.room p as).map Prod.fst ++ [p + (as.flatMap Rtattr.padded).length] := by
  have hlen : (as.map Rtattr.room).sum = (as.flatMap Rtattr.padded).length := by
    rw [List.length_flatMap]
    exact congrArg List.sum (List.map_congr_left fun a _ => a.padded_length.symm)
  rw [placed_append, List.map_append, hlen]
  rfl

/-- A request leaves out the padding behind the last attribute of a level; the walk steps over it
all the same and ends that far below zero. -/
theorem rtaWalk_attrs (h : m.Holds p (as.flatMap Rtattr.padded ++ b.data))
    (hn : len = (as.flatMap Rtattr.padded).length + b.data.length) (hl : len < 65536) :
    rtaWalk m p len = ((placed Rtattr.room p (as ++ [b])).map Prod.fst, -(b.gap : Int)) := by
  have hsum : (as.flatMap Rtattr.padded).length + b.data.length < 65536 := by omega
  obtain ⟨has, hb⟩ := fits_of_le hsum
  let xs := as.pmap Rtattr.toAttr has
  have hxs : Format.encode (xs.map Attr.record) = as.flatMap Rtattr.padded :=
    Attr.encodeAll_pmap has
  have hm : m.Holds p (Format.encode (xs.map Attr.record) ++ (b.toAttr hb).record.data) := by
    rw [hxs]
    exact h
  have hw := Format.walk_encode_tight hm
  have hr := Format.rest_encode_tight hm
  have hpad : ((b.toAttr hb).record.pad.length : Int) = b.gap :=
    congrArg Int.ofNat List.length_replicate
  have hfst : (placed (fun x : Attr => x.record.bytes.length) p xs).map Prod.fst =
      (placed Rtattr.room p as).map Prod.fst := Attr.placed_pmap has p
  rw [hxs, hpad] at hr
  rw [Format.located, placed_append, List.map_append, ← Format.encode_length, hxs, placed_map,
    List.map_map] at hw
  rw [rtaWalk_eq (by omega), hn, placed_room, ← hfst]
  exact Prod.ext hw hr

theorem decodeRtas_attrs (h : m.Holds p (as.flatMap Rtattr.padded ++ b.data))
    (hn : len = (as.flatMap Rtattr.padded).length + b.data.length) (hl : len < 65536) :
    decodeRtas m p len = as ++ [b] := by
  have hsum : (as.flatMap Rtattr.padded).length + b.data.length < 65536 := by omega
  obtain ⟨has, hb⟩ := fits_of_le hsum
  obtain ⟨h1, h2⟩ := Mem.holds_append.mp h
  have hlast : rtattrAt m (p + (as.flatMap Rtattr.padded).length) = b := rtattrAt_of_holds h2 hb
  rw [← Attr.encodeAll_pmap has] at h1
  have hat := congrArg (List.map Prod.snd) (Attr.rtattrAt_placed h1)
  have hsnd := congrArg (List.map Attr.toRtattr)
    (placed_snd Attr.size p (as.pmap Rtattr.toAttr has))
  rw [Format.located, placed_map, List.map_map, List.map_map, List.map_map] at hat
  rw [Attr.map_pmap, List.map_map] at hsnd
  have hinit : ((placed Rtattr.room p as).map Prod.fst).map (rtattrAt m) = as := by
    rw [← Attr.placed_pmap has, List.map_map]
    exact hat.trans hsnd
  rw [decodeRtas, rtaWalk_attrs h hn hl, placed_room, List.map_append, hinit, List.map_singleton,
    hlast]

/-- An attribute that is alone in its parent. -/
theorem rtaWalk_one (h : m.Holds p b.data) (hn : len = b.data.length) (hl : len < 65536) :
    rtaWalk m p len = ([p], -(b.gap : Int)) ∧ decodeRtas m p len = [b] := by
  have hn' : len = (([] : List Rtattr).flatMap Rtattr.padded).length + b.data.length := by
    rw [hn]
    simp
  exact ⟨rtaWalk_attrs h hn' hl, decodeRtas_attrs h hn' hl⟩

theorem rtaWalk_two {a : Rtattr} (h : m.Holds p (a.padded ++ b.data))
    (hn : len = a.room + b.data.length) (hl : len < 65536) :
    rtaWalk m p len = ([p, p + a.room], -(b.gap : Int)) := by
  have hn' : len = ([a].flatMap Rtattr.padded).length + b.data.length := by
    rw [hn, List.flatMap_singleton, Rtattr.padded_length]
  rw [← List.flatMap_singleton (f := Rtattr.padded) a] at h
  exact rtaWalk_attrs h hn' hl

end decode

end SnippetsC.Netlink
