import SnippetsC.Netlink.Uapi

namespace SnippetsC.Netlink

open Format (encode located)

/-- What a reader of a routing attribute sees: its type and its `RTA_PAYLOAD` bytes. -/
structure Rtattr where
  type : UInt16
  payload : List UInt8
  deriving DecidableEq

/-- A well-formed attribute as it travels: the length fits `rta_len`, padding follows. -/
structure Attr extends Rtattr where
  pad : List UInt8
  fits : 4 + payload.length < 65536
  pad_length : 4 + payload.length + pad.length = alignUp 4 (4 + payload.length)

/-- What a reader of a netlink message sees. -/
structure Nlmsg where
  type : UInt16
  flags : UInt16
  seq : UInt32
  pid : UInt32
  payload : List UInt8
  deriving DecidableEq

def rtattrAt (m : Mem) (rta : Nat) : Rtattr where
  type := UInt16.ofNat (rtaType m rta)
  payload := m.bytes (rtaData rta) (rtaPayload m rta).toNat

def nlmsgAt (m : Mem) (nh : Nat) : Nlmsg where
  type := UInt16.ofNat (nlmsgType m nh)
  flags := UInt16.ofNat (nlmsgFlags m nh)
  seq := UInt32.ofNat (nlmsgSeq m nh)
  pid := UInt32.ofNat (nlmsgPid m nh)
  payload := m.bytes (nlmsgData nh) (nlmsgLen m nh - nlmsgHdrlen)

namespace Rtattr

/-- The `rta_len` bytes of an attribute. -/
def data (a : Rtattr) : List UInt8 :=
  leBytes 2 (4 + a.payload.length) ++ (leBytes 2 a.type.toNat ++ a.payload)

@[simp] theorem data_length (a : Rtattr) : a.data.length = 4 + a.payload.length := by
  simp [data, ← Nat.add_assoc]

/-- The room an attribute takes up together with its padding. -/
def room (a : Rtattr) : Nat := alignUp 4 (4 + a.payload.length)

/-- The number of bytes between the end of an attribute and the next multiple of four. -/
def gap (a : Rtattr) : Nat := a.room - (4 + a.payload.length)

theorem length_le_room (a : Rtattr) : 4 + a.payload.length ≤ a.room := le_alignUp 4 _

theorem add_gap (a : Rtattr) : 4 + a.payload.length + a.gap = a.room :=
  Nat.add_sub_cancel' a.length_le_room

def padded (a : Rtattr) : List UInt8 := a.data ++ List.replicate a.gap 0

@[simp] theorem padded_length (a : Rtattr) : a.padded.length = a.room := by
  rw [padded, List.length_append, data_length, List.length_replicate, add_gap]

/-- The attribute with zero padding. -/
def toAttr (a : Rtattr) (h : 4 + a.payload.length < 65536) : Attr where
  toRtattr := a
  pad := List.replicate a.gap 0
  fits := h
  pad_length := by
    rw [List.length_replicate, add_gap]
    rfl

end Rtattr

theorem rtaLen_of_holds {m : Mem} {p : Nat} {a : Rtattr} (h : m.Holds p a.data)
    (hf : 4 + a.payload.length < 65536) : rtaLen m p = 4 + a.payload.length := by
  rw [rtaLen, Mem.load16_of_holds (Mem.holds_append.mp h).1, Nat.mod_eq_of_lt hf]

theorem rtaPayload_of_holds {m : Mem} {p : Nat} {a : Rtattr} (h : m.Holds p a.data)
    (hf : 4 + a.payload.length < 65536) : rtaPayload m p = a.payload.length := by
  rw [rtaPayload, rtaLen_of_holds h hf, rtaLength_eq]
  omega

theorem rtattrAt_of_holds {m : Mem} {p : Nat} {a : Rtattr} (h : m.Holds p a.data)
    (hf : 4 + a.payload.length < 65536) : rtattrAt m p = a := by
  obtain ⟨-, hr⟩ := Mem.holds_append.mp h
  obtain ⟨ht, hp⟩ := Mem.holds_append.mp hr
  simp only [leBytes_length] at ht hp
  have htype : rtaType m p = a.type.toNat := by
    rw [rtaType, Mem.load16_of_holds ht, Nat.mod_eq_of_lt a.type.toNat_lt]
  have hpay : (rtaPayload m p).toNat = a.payload.length := by
    rw [rtaPayload_of_holds h hf, Int.toNat_natCast]
  have hdata : m.bytes (p + 4) a.payload.length = a.payload := hp
  rw [rtattrAt, htype, hpay, rtaData_eq, hdata, UInt16.ofNat_toNat]

namespace Attr

def record (a : Attr) : rtaFormat.Record where
  data := a.data
  pad := a.pad
  header_le := by
    rw [Rtattr.data_length]
    exact Nat.le_add_right _ _
  sizeOf_eq := by
    have h := a.fits
    change leValue ((a.data.take 4).take 2) = _
    rw [List.take_take, show min 2 4 = 2 from rfl, Rtattr.data_length, Rtattr.data,
      List.take_left' (leBytes_length 2 _)]
    exact leValue_leBytes_of_lt h
  pad_length := by
    rw [Rtattr.data_length]
    exact a.pad_length

@[simp] theorem record_data (a : Attr) : a.record.data = a.data := rfl
@[simp] theorem record_pad (a : Attr) : a.record.pad = a.pad := rfl

/-- The bytes of a list of attributes, each padded. -/
def encodeAll (as : List Attr) : List UInt8 := encode (as.map record)

def size (a : Attr) : Nat := a.record.bytes.length

section toAttr

variable {as : List Rtattr} (h : ∀ a ∈ as, 4 + a.payload.length < 65536)

theorem encodeAll_pmap : encodeAll (as.pmap Rtattr.toAttr h) = as.flatMap Rtattr.padded := by
  induction as with
  | nil => rfl
  | cons a as ih => exact congrArg (a.padded ++ ·) (ih fun b hb => h b (List.mem_cons_of_mem a hb))

theorem placed_pmap (p : Nat) : (placed size p (as.pmap Rtattr.toAttr h)).map Prod.fst =
    (placed Rtattr.room p as).map Prod.fst := by
  induction as generalizing p with
  | nil => rfl
  | cons a as ih =>
    have hs : (a.toAttr (h a List.mem_cons_self)).size = a.room := a.padded_length
    simp only [List.pmap, placed, List.map_cons, hs, ih]

theorem map_pmap : (as.pmap Rtattr.toAttr h).map toRtattr = as := by
  rw [List.map_pmap]
  exact List.pmap_eq_self.mpr fun _ _ => rfl

end toAttr

/-- A walk over encoded attributes finds each of them at its place. -/
theorem rtattrAt_placed {m : Mem} {p : Nat} {as : List Attr} (h : m.Holds p (encodeAll as)) :
    (located p (as.map record)).map (fun x => (x.1, rtattrAt m x.1)) =
      (placed size p as).map fun x => (x.1, x.2.toRtattr) := by
  rw [located, placed_map, List.map_map]
  apply List.map_congr_left
  intro x hx
  have hr : (x.1, x.2.record) ∈ located p (as.map record) := by
    rw [located, placed_map]
    exact List.mem_map_of_mem hx
  have hd : m.Holds x.1 x.2.data := Format.located_holds h hr
  exact congrArg (Prod.mk x.1) (rtattrAt_of_holds hd x.2.fits)

/-- The padding after the last attribute, which a sender may leave out of `nlmsg_len`. -/
def lastPad (as : List Attr) : Nat := (as.getLast?.map fun a => a.pad.length).getD 0

theorem pad_lt (a : Attr) : a.pad.length < 4 := by
  have h := a.pad_length
  have hl := alignUp_lt 4 (4 + a.payload.length)
  omega

theorem lastPad_lt (as : List Attr) : lastPad as < 4 := by
  rw [lastPad]
  cases as.getLast? with
  | none => decide
  | some a => exact a.pad_lt

theorem lastPad_le (as : List Attr) : lastPad as ≤ (encodeAll as).length := by
  rw [lastPad]
  rcases List.eq_nil_or_concat as with rfl | ⟨bs, a, rfl⟩
  · exact Nat.zero_le _
  · rw [List.concat_eq_append, List.getLast?_concat, encodeAll, List.map_append,
      Format.encode_append, List.length_append]
    simp only [Option.map_some, Option.getD_some, List.map_cons, List.map_nil,
      Format.encode_cons, Format.encode_nil, List.append_nil, Format.Record.bytes,
      List.length_append, record_pad]
    omega

end Attr

/-- A well-formed netlink message as it travels: correct `nlmsg_len`, padding to 4 bytes. -/
structure WireMsg extends Nlmsg where
  pad : List UInt8
  fits : 16 + payload.length < 4294967296
  pad_length : 16 + payload.length + pad.length = alignUp 4 (16 + payload.length)

namespace Nlmsg

/-- The `nlmsg_len` bytes of a message. -/
def data (x : Nlmsg) : List UInt8 :=
  leBytes 4 (16 + x.payload.length) ++ (leBytes 2 x.type.toNat ++ (leBytes 2 x.flags.toNat ++
    (leBytes 4 x.seq.toNat ++ (leBytes 4 x.pid.toNat ++ x.payload))))

@[simp] theorem data_length (x : Nlmsg) : x.data.length = 16 + x.payload.length := by
  simp [data, ← Nat.add_assoc]

end Nlmsg

theorem nlmsgLen_of_holds {m : Mem} {p : Nat} {x : Nlmsg} (h : m.Holds p x.data)
    (hf : 16 + x.payload.length < 4294967296) : nlmsgLen m p = 16 + x.payload.length := by
  rw [nlmsgLen, Mem.load32_of_holds (Mem.holds_append.mp h).1, Nat.mod_eq_of_lt hf]

theorem nlmsgType_of_holds {m : Mem} {p : Nat} {x : Nlmsg} (h : m.Holds p x.data) :
    nlmsgType m p = x.type.toNat := by
  obtain ⟨-, hr⟩ := Mem.holds_append.mp h
  have ht := (Mem.holds_append.mp hr).1
  rw [leBytes_length] at ht
  rw [nlmsgType, Mem.load16_of_holds ht, Nat.mod_eq_of_lt x.type.toNat_lt]

theorem nlmsgAt_of_holds {m : Mem} {p : Nat} {x : Nlmsg} (h : m.Holds p x.data)
    (hf : 16 + x.payload.length < 4294967296) : nlmsgAt m p = x := by
  have hlen := nlmsgLen_of_holds h hf
  have htype := nlmsgType_of_holds h
  obtain ⟨-, h1⟩ := Mem.holds_append.mp h
  obtain ⟨-, h2⟩ := Mem.holds_append.mp h1
  obtain ⟨hflags, h3⟩ := Mem.holds_append.mp h2
  obtain ⟨hseq, h4⟩ := Mem.holds_append.mp h3
  obtain ⟨hpid, hpay⟩ := Mem.holds_append.mp h4
  simp only [leBytes_length, Nat.add_assoc, Nat.reduceAdd] at hflags hseq hpid hpay
  have hf' : nlmsgFlags m p = x.flags.toNat := by
    rw [nlmsgFlags, Mem.load16_of_holds hflags, Nat.mod_eq_of_lt x.flags.toNat_lt]
  have hs : nlmsgSeq m p = x.seq.toNat := by
    rw [nlmsgSeq, Mem.load32_of_holds hseq, Nat.mod_eq_of_lt x.seq.toNat_lt]
  have hp : nlmsgPid m p = x.pid.toNat := by
    rw [nlmsgPid, Mem.load32_of_holds hpid, Nat.mod_eq_of_lt x.pid.toNat_lt]
  rw [nlmsgAt, htype, hf', hs, hp, hlen, nlmsgHdrlen_eq, nlmsgData_eq, Nat.add_sub_cancel_left,
    hpay.bytes_eq rfl]
  cases x
  simp

namespace WireMsg

def record (x : WireMsg) : nlmsgFormat.Record where
  data := x.data
  pad := x.pad
  header_le := by
    rw [Nlmsg.data_length]
    exact Nat.le_add_right _ _
  sizeOf_eq := by
    have h := x.fits
    change leValue ((x.data.take 16).take 4) = _
    rw [List.take_take, show min 4 16 = 4 from rfl, Nlmsg.data_length, Nlmsg.data,
      List.take_left' (leBytes_length 4 _)]
    exact leValue_leBytes_of_lt h
  pad_length := by
    rw [Nlmsg.data_length]
    exact x.pad_length

@[simp] theorem record_data (x : WireMsg) : x.record.data = x.data := rfl

def encodeAll (xs : List WireMsg) : List UInt8 := encode (xs.map record)

def size (x : WireMsg) : Nat := x.record.bytes.length

theorem size_eq (x : WireMsg) : x.size = 16 + x.payload.length + x.pad.length := by
  rw [size, Format.Record.bytes, List.length_append, record_data, Nlmsg.data_length]
  rfl

end WireMsg

end SnippetsC.Netlink
