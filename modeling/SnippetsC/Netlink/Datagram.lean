import SnippetsC.Netlink.Receivers

namespace SnippetsC.Netlink

open Attr (encodeAll lastPad)

/-- The size of the fixed struct that a message of this type starts with, if it has attributes. -/
def fixedSize (type : UInt16) : Option Nat :=
  if type.toNat = RTM_NEWLINK ∨ type.toNat = RTM_DELLINK then some sizeofIfinfomsg
  else if type.toNat = RTM_NEWADDR ∨ type.toNat = RTM_DELADDR then some sizeofIfaddrmsg
  else none

/-- A well-formed message: a link or address message has its fixed struct and padded attributes,
and may leave the padding of the last one out of `nlmsg_len`; any other message has a payload of
its own, here `fixed` less the uncounted padding. -/
structure Message where
  type : UInt16
  flags : UInt16
  seq : UInt32
  pid : UInt32
  fixed : List UInt8
  attrs : List Attr
  uncounted : Nat
  fixed_length : ∀ n, fixedSize type = some n → fixed.length = n
  attrs_nil : fixedSize type = none → attrs = []
  uncounted_le : uncounted ≤ if (fixedSize type).isSome then lastPad attrs else min 3 fixed.length
  dvd_fixed : 4 ∣ fixed.length
  fits : 16 + fixed.length + (encodeAll attrs).length < 4294967296

namespace Message

def body (x : Message) : List UInt8 := x.fixed ++ encodeAll x.attrs

def size (x : Message) : Nat := 16 + x.body.length

theorem uncounted_lt (x : Message) : x.uncounted < 4 := by
  have h := x.uncounted_le
  have hp := Attr.lastPad_lt x.attrs
  split_ifs at h <;> omega

theorem uncounted_le_body (x : Message) : x.uncounted ≤ x.body.length := by
  have h := x.uncounted_le
  have hp := Attr.lastPad_le x.attrs
  rw [body, List.length_append]
  split_ifs at h <;> omega

theorem dvd_body (x : Message) : 4 ∣ x.body.length := by
  rw [body, List.length_append]
  exact Nat.dvd_add x.dvd_fixed (Format.dvd_encode_length (F := rtaFormat) _)

/-- The message as it travels. -/
def wire (x : Message) : WireMsg where
  type := x.type
  flags := x.flags
  seq := x.seq
  pid := x.pid
  payload := x.body.take (x.body.length - x.uncounted)
  pad := x.body.drop (x.body.length - x.uncounted)
  fits := by
    have h := x.fits
    have hb : x.body.length = x.fixed.length + (encodeAll x.attrs).length := List.length_append
    rw [List.length_take]
    omega
  pad_length := by
    have hu := x.uncounted_lt
    have hb := x.uncounted_le_body
    obtain ⟨k, hk⟩ := x.dvd_body
    rw [List.length_take, List.length_drop, alignUp_four]
    omega

theorem wire_payload_length (x : Message) :
    x.wire.payload.length = x.body.length - x.uncounted := by
  rw [wire, List.length_take]
  omega

theorem wire_size (x : Message) : x.wire.size = x.size := by
  have hu := x.uncounted_le_body
  rw [WireMsg.size_eq, x.wire_payload_length, wire, List.length_drop, size]
  omega

/-- The body lies behind the header. -/
theorem holds_body {m : Mem} {p : Nat} {x : Message} (h : m.Holds p x.wire.record.bytes) :
    m.Holds (p + 16) x.body := by
  have hb : x.body = x.wire.payload ++ x.wire.pad := (List.take_append_drop _ _).symm
  rw [Format.Record.bytes, WireMsg.record_data, Nlmsg.data] at h
  simp only [List.append_assoc] at h
  obtain ⟨-, h⟩ := Mem.holds_append.mp h
  obtain ⟨-, h⟩ := Mem.holds_append.mp h
  obtain ⟨-, h⟩ := Mem.holds_append.mp h
  obtain ⟨-, h⟩ := Mem.holds_append.mp h
  obtain ⟨-, h⟩ := Mem.holds_append.mp h
  simp only [leBytes_length, Nat.add_assoc, Nat.reduceAdd] at h
  rw [hb]
  exact h

end Message

/-- Any number of messages that fit the receive buffer. -/
structure Datagram where
  msgs : List Message
  fits : (WireMsg.encodeAll (msgs.map Message.wire)).length ≤ 8192

def Datagram.bytes (d : Datagram) : List UInt8 := WireMsg.encodeAll (d.msgs.map Message.wire)

/-- The attributes encoded in the messages whose fixed struct has `n` bytes, each with its address,
message by message. -/
def encodedRtas (n p : Nat) : List Message → List (Nat × Rtattr)
  | [] => []
  | x :: xs =>
    (if fixedSize x.type = some n then
      (placed Attr.size (p + 16 + n) x.attrs).map fun y => (y.1, y.2.toRtattr)
    else []) ++ encodedRtas n (p + x.size) xs

/-- Behind every message with attributes that the loop reaches, the buffer `m` does not look like
one more attribute of at most 16 bytes; and no attribute is encoded behind a message that stops
the loop. -/
def ReadsClean (n : Nat) (m : Mem) (p : Nat) : List Message → Prop
  | [] => True
  | x :: xs =>
    if x.wire.Stops then encodedRtas n (p + x.size) xs = []
    else (fixedSize x.type = some n → ¬RtaOk m (p + x.size) (16 - x.uncounted)) ∧
      ReadsClean n m (p + x.size) xs

theorem encodedRtas_ge {n p : Nat} {xs : List Message} {y : Nat × Rtattr}
    (h : y ∈ encodedRtas n p xs) : p + 16 ≤ y.1 := by
  induction xs generalizing p with
  | nil => cases h
  | cons x xs ih =>
    rcases List.mem_append.mp h with h | h
    · split_ifs at h with hs
      · obtain ⟨z, hz, rfl⟩ := List.mem_map.mp h
        have hp := le_of_mem_placed _ hz
        omega
      · cases h
    · have hp := ih h
      omega

/-- The attribute loop of a message: its own attributes, then whatever the 16 bytes that
`nlmsg_len - sizeof` counts too many hold. -/
theorem rtaCalls_parseAttributes {m : Mem} {p n : Nat} {x : Message}
    (h : m.Holds p x.wire.record.bytes) (hn : fixedSize x.type = some n)
    (hl : (x.size : Int) < 2 ^ 31) :
    rtaCalls (parseAttributes n m p) =
      (placed Attr.size (p + 16 + n) x.attrs).map (fun y => (y.1, y.2.toRtattr)) ++
        rtaCalls (parseRtas m (p + x.size) (16 - x.uncounted)) := by
  have hd : m.Holds p x.wire.data := (Mem.holds_append.mp h).1
  have hlen := nlmsgLen_of_holds hd x.wire.fits
  have hu := x.uncounted_lt
  have hub := x.uncounted_le_body
  have hfix := x.fixed_length n hn
  have hbody : x.body.length = n + (encodeAll x.attrs).length := by
    rw [Message.body, List.length_append, hfix]
  have hsize : x.size = 16 + x.body.length := rfl
  have hb := Mem.holds_append.mp (Message.holds_body h)
  rw [hfix] at hb
  have hcount : ((nlmsgLen m p : Int) - n) =
      (encodeAll x.attrs).length + (16 - x.uncounted : Int) := by
    rw [hlen, x.wire_payload_length]
    omega
  have hend : p + 16 + n + (encodeAll x.attrs).length = p + x.size := by omega
  have hwalk := Format.walk_encode (F := rtaFormat) (r := 16 - x.uncounted) hb.2 (by omega)
  rw [parseAttributes, hcount, toInt_of_range (by omega) (by omega),
    rtaCalls_parseRtas (by omega), rtaCalls_parseRtas (by omega), sizeofNlmsghdr]
  change (rtaFormat.walk m (p + 16 + n) ((Format.encode (x.attrs.map Attr.record)).length + _)).map
    _ = _
  rw [hwalk, List.map_append, List.map_map]
  change (Format.located _ _).map (fun y => (y.1, rtattrAt m y.1)) ++
    (rtaFormat.walk m (p + 16 + n + (encodeAll x.attrs).length) _).map _ = _
  rw [Attr.rtattrAt_placed hb.2, hend]

/-- A receiver of messages with a fixed struct of `n` bytes: `parse_message` runs the attribute
loop on those messages and calls `parse_rta` on no others. -/
def Receives (n : Nat) (parse : Mem → Nat → List Event) : Prop :=
  ∀ m nh, ∀ type : UInt16, nlmsgType m nh = type.toNat →
    rtaCalls (parse m nh) =
      if fixedSize type = some n then rtaCalls (parseAttributes n m nh) else []

theorem fixedSize_link (type : UInt16) : fixedSize type = some sizeofIfinfomsg ↔
    type.toNat = RTM_NEWLINK ∨ type.toNat = RTM_DELLINK := by
  unfold fixedSize
  split_ifs with h1 h2 <;> simp [h1, sizeofIfinfomsg, sizeofIfaddrmsg]

theorem fixedSize_addr (type : UInt16) : fixedSize type = some sizeofIfaddrmsg ↔
    type.toNat = RTM_NEWADDR ∨ type.toNat = RTM_DELADDR := by
  unfold fixedSize
  split_ifs with h1 h2
  · rcases h1 with h1 | h1 <;>
      simp [h1, sizeofIfinfomsg, sizeofIfaddrmsg, RTM_NEWLINK, RTM_DELLINK, RTM_NEWADDR,
        RTM_DELADDR]
  · simp [h2]
  · simp [h2]

theorem IfRtas.receives : Receives sizeofIfinfomsg IfRtas.parseMessage := by
  intro m nh type h
  unfold IfRtas.parseMessage
  rw [h]
  simp only [fixedSize_link]
  split_ifs <;> rfl

theorem IfAddrs.receives : Receives sizeofIfaddrmsg IfAddrs.parseMessage := by
  intro m nh type h
  unfold IfAddrs.parseMessage IfAddrs.parseAddrMessage
  rw [h]
  simp only [fixedSize_addr]
  split_ifs with h1 h2 h3 h4 <;> first | rfl | tauto

theorem fixedSize_of_stops {x : Nlmsg} (h : x.Stops) : fixedSize x.type = none := by
  unfold fixedSize
  rcases h with h | h <;>
    simp [h, NLMSG_DONE, NLMSG_ERROR, RTM_NEWLINK, RTM_DELLINK, RTM_NEWADDR, RTM_DELADDR]

/-- An attribute read behind the end of a message is never one that is encoded further on. -/
theorem spill_iff {n : Nat} {m : Mem} {e u : Nat} {calls : List (Nat × Rtattr)}
    {xs : List Message} :
    rtaCalls (parseRtas m e (16 - u)) ++ calls = encodedRtas n e xs ↔
      ¬RtaOk m e (16 - u) ∧ calls = encodedRtas n e xs := by
  rw [rtaCalls_parseRtas (by omega)]
  by_cases ok : RtaOk m e (16 - u)
  · rw [rtaFormat.walk_of_ok (rtaOk_iff.mp ok)]
    constructor
    · intro h
      have hmem : (e, rtattrAt m e) ∈ encodedRtas n e xs := by
        rw [← h]
        exact List.mem_cons_self
      have hge := encodedRtas_ge hmem
      omega
    · intro h
      exact absurd ok h.1
  · rw [walk_of_not_rtaOk ok]
    constructor
    · intro h
      exact ⟨ok, h⟩
    · intro h
      exact h.2

/-- The calls of `parse_rta` on a datagram are the encoded attributes exactly when nothing behind a
message that is read looks like an attribute. -/
theorem rtaCalls_readLoop_iff {n : Nat} (done : Int) {parse : Mem → Nat → List Event}
    (hparse : Receives n parse) {m : Mem} {p : Nat} {xs : List Message}
    (h : m.Holds p (WireMsg.encodeAll (xs.map Message.wire)))
    (hl : ((WireMsg.encodeAll (xs.map Message.wire)).length : Int) < 2 ^ 31) :
    rtaCalls (readLoop done (parse m) m p
        (WireMsg.encodeAll (xs.map Message.wire)).length).2 = encodedRtas n p xs ↔
      ReadsClean n m p xs := by
  induction xs generalizing p with
  | nil =>
    rw [List.map_nil]
    simp [WireMsg.encodeAll, readLoop_nil, encodedRtas, ReadsClean]
  | cons x xs ih =>
    rw [WireMsg.encodeAll, List.map_cons, List.map_cons, Format.encode_cons] at h
    obtain ⟨hx, hxs⟩ := Mem.holds_append.mp h
    have hd : m.Holds p x.wire.data := (Mem.holds_append.mp hx).1
    have hsize : x.wire.record.bytes.length = x.size := x.wire_size
    have hlen : (WireMsg.encodeAll ((x :: xs).map Message.wire)).length =
        x.size + (WireMsg.encodeAll (xs.map Message.wire)).length := by
      rw [← hsize]
      exact List.length_append
    rw [hsize] at hxs
    have hrest := ih hxs (by omega)
    have htype := nlmsgType_of_holds hd
    rw [ReadsClean, encodedRtas]
    by_cases hs : x.wire.Stops
    · have hnone : fixedSize x.type = none := fixedSize_of_stops hs
      rw [readLoop_stops hd (by rw [x.wire_size]; omega) hl hs, if_pos hs, hnone,
        if_neg (by simp)]
      exact eq_comm
    · have hdiff : ((WireMsg.encodeAll ((x :: xs).map Message.wire)).length : Int) - x.size =
          (WireMsg.encodeAll (xs.map Message.wire)).length := by omega
      rw [readLoop_cons hd (by rw [x.wire_size]; omega) hl hs, x.wire_size, hdiff, if_neg hs,
        rtaCalls_parseMessage, rtaCalls_append, hparse m p x.type htype]
      by_cases hn : fixedSize x.type = some n
      · rw [if_pos hn, if_pos hn, rtaCalls_parseAttributes hx hn (by omega), List.append_assoc,
          List.append_cancel_left_eq, spill_iff, hrest]
        simp [hn]
      · rw [if_neg hn, if_neg hn, List.nil_append, List.nil_append, hrest]
        simp [hn]

theorem recvmsg_datagram (d : Datagram) (stale : Mem) :
    recvmsg stale d.bytes = (stale.write 0 d.bytes, (d.bytes.length : Int)) := by
  have h : d.bytes.length ≤ 8192 := d.fits
  rw [recvmsg, List.take_of_length_le h]

/-- `read_message` calls `parse_rta` exactly on the attributes encoded in the datagram. -/
def DecodesExactly (read : Mem → Int → Int × List Event) (n : Nat) (d : Datagram) (stale : Mem) :
    Prop :=
  rtaCalls (read (recvmsg stale d.bytes).1 (recvmsg stale d.bytes).2).2 = encodedRtas n 0 d.msgs

instance (read : Mem → Int → Int × List Event) (n : Nat) (d : Datagram) (stale : Mem) :
    Decidable (DecodesExactly read n d stale) := inferInstanceAs (Decidable (_ = _))

theorem decodesExactly_iff {n : Nat} {parse : Mem → Nat → List Event} (hparse : Receives n parse)
    (d : Datagram) (stale : Mem) :
    DecodesExactly (readMessage 0 parse) n d stale ↔
      ReadsClean n (recvmsg stale d.bytes).1 0 d.msgs := by
  have hfit : (d.bytes.length : Int) < 2 ^ 31 := by
    have h := d.fits
    rw [Datagram.bytes]
    omega
  have hiff := rtaCalls_readLoop_iff 0 hparse (Mem.holds_write stale 0 d.bytes) hfit
  rw [DecodesExactly, recvmsg_datagram, ← hiff, readMessage]
  by_cases h0 : (d.bytes.length : Int) ≤ 0
  · have hz : (d.bytes.length : Int) = 0 := by omega
    have hb : ((WireMsg.encodeAll (d.msgs.map Message.wire)).length : Int) = 0 := hz
    rw [if_pos h0, hb, readLoop_nil]
  · rw [if_neg h0]
    rfl

/-- Both attribute listeners decode a datagram exactly when nothing behind a message looks like one
more attribute: the loop length is 16 bytes too long, since `nlmsg_len` counts the header. -/
theorem listeners_decode_iff (d : Datagram) (stale : Mem) :
    (DecodesExactly IfRtas.readMessage sizeofIfinfomsg d stale ↔
      ReadsClean sizeofIfinfomsg (recvmsg stale d.bytes).1 0 d.msgs) ∧
    (DecodesExactly IfAddrs.readMessage sizeofIfaddrmsg d stale ↔
      ReadsClean sizeofIfaddrmsg (recvmsg stale d.bytes).1 0 d.msgs) :=
  ⟨decodesExactly_iff IfRtas.receives d stale, decodesExactly_iff IfAddrs.receives d stale⟩

/-- A new link with one `IFLA_MTU` attribute (1500). -/
def newLink : Message where
  type := 16
  flags := 0
  seq := 0
  pid := 0
  fixed := List.replicate 16 0
  attrs := [⟨⟨4, [0xdc, 5, 0, 0]⟩, [], by decide, by decide⟩]
  uncounted := 0
  fixed_length := by
    intro n h
    cases h
    rfl
  attrs_nil := by decide
  uncounted_le := by decide
  dvd_fixed := by decide
  fits := by decide

/-- The same for a new address, with one `IFA_LOCAL` attribute. -/
def newAddr : Message where
  type := 20
  flags := 0
  seq := 0
  pid := 0
  fixed := List.replicate 8 0
  attrs := [⟨⟨2, [127, 0, 0, 1]⟩, [], by decide, by decide⟩]
  uncounted := 0
  fixed_length := by
    intro n h
    cases h
    rfl
  attrs_nil := by decide
  uncounted_le := by decide
  dvd_fixed := by decide
  fits := by decide

/-- A message that is only a header. -/
def headerOnly : Message where
  type := 1
  flags := 0
  seq := 0
  pid := 0
  fixed := []
  attrs := []
  uncounted := 0
  fixed_length := by
    intro n h
    cases h
  attrs_nil := by decide
  uncounted_le := by decide
  dvd_fixed := by decide
  fits := by decide

/-- The header of the message that follows is taken for an attribute. -/
theorem listeners_read_next_header :
    ¬DecodesExactly IfRtas.readMessage sizeofIfinfomsg ⟨[newLink, headerOnly], by decide⟩
        (fun _ => 0) ∧
    ¬DecodesExactly IfAddrs.readMessage sizeofIfaddrmsg ⟨[newAddr, headerOnly], by decide⟩
        (fun _ => 0) := by
  decide +kernel

end SnippetsC.Netlink
