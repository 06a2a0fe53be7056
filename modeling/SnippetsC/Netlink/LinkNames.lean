import SnippetsC.Netlink.AttrText
import SnippetsC.Netlink.Datagram
import SnippetsC.Netlink.Dump

namespace SnippetsC.Netlink

open Attr (encodeAll)

/-! What `get-links` prints for a dump of the links. -/

namespace GetLinks

def parseRta (m : Mem) (rta : Nat) : List Effect :=
  .load (rtaTypeField rta) ::
    if rtaType m rta = IFLA_IFNAME then [.printString "Link: " (rtaData rta) "\n"] else []

/-- What the calls of `parse_rta` print; `room` is how far the stack goes on behind a string. -/
def printed (room : Nat) (m : Mem) (calls : List (Nat × Rtattr)) : Option String :=
  Effect.output m room (calls.flatMap fun c => parseRta m c.1)

/-- The output of `read_messages`, if every string that is printed has an end. -/
def output (room : Nat) : List (Mem × Int) → Option String
  | [] => some ""
  | r :: rs =>
    let (code, events) := readMessage r.1 r.2
    (printed room r.1 (rtaCalls events)).bind fun text =>
      if code = 0 then (output room rs).map (text ++ ·) else some text

end GetLinks

/-- The string in an attribute. -/
def Rtattr.ifname (a : Rtattr) : List UInt8 := a.payload.takeWhile (· ≠ 0)

def Rtattr.IsIfname (a : Rtattr) : Prop := a.type.toNat = IFLA_IFNAME

instance (a : Rtattr) : Decidable a.IsIfname := inferInstanceAs (Decidable (_ = _))

def linkLine (name : List UInt8) : String :=
  "Link: " ++ String.ofList (name.map fun b => Char.ofNat b.toNat) ++ "\n"

def attrLines (as : List Attr) : String :=
  String.join ((as.filter fun a => a.IsIfname).map fun a => linkLine a.ifname)

namespace Message

def IsLink (x : Message) : Prop := x.type.toNat = RTM_NEWLINK

instance (x : Message) : Decidable x.IsLink := inferInstanceAs (Decidable (_ = _))

/-- The names in a message of a link end in its attributes. -/
def NamesEnd (x : Message) : Prop := x.IsLink → ∀ a ∈ x.attrs, a.IsIfname → 0 ∈ a.payload

instance (x : Message) : Decidable x.NamesEnd := inferInstanceAs (Decidable (_ → _))

/-- One line for each name of a link. -/
def lines (x : Message) : String := if x.IsLink then attrLines x.attrs else ""

end Message

/-- The lines of the messages in front of the first one that stops `read_message`. -/
def dumpLines (xs : List Message) : String :=
  String.join ((xs.takeWhile fun x => decide ¬x.wire.Stops).map Message.lines)

/-- The addresses behind a message at `p` at which its attribute loop goes on. -/
def Message.walksOn (m : Mem) (p : Nat) (x : Message) : List Nat :=
  if x.IsLink then rtaFormat.walk m (p + x.size) (16 - x.uncounted) else []

/-- Those behind the last message, unless the loop stops before it. -/
def leftover (m : Mem) (p : Nat) : List Message → List Nat
  | [] => []
  | [x] => x.walksOn m p
  | x :: y :: xs => if x.wire.Stops then [] else leftover m (p + x.size) (y :: xs)

/-- No name is found behind the last message. -/
def EndsClean (m : Mem) (xs : List Message) : Prop :=
  ∀ q ∈ leftover m 0 xs, rtaType m q ≠ IFLA_IFNAME

instance (m : Mem) (xs : List Message) : Decidable (EndsClean m xs) :=
  inferInstanceAs (Decidable (∀ q ∈ _, _))

/-- No name is found behind the datagrams that are received; the buffer of call `i` held `stale i`
before. -/
def DumpClean (stale : Nat → Mem) : List Datagram → Prop
  | [] => True
  | d :: ds => EndsClean ((stale 0).write 0 d.bytes) d.msgs ∧
      (HasStop (d.msgs.map Message.wire) ∨ DumpClean (fun i => stale (i + 1)) ds)

section calls

variable (m : Mem) (room : Nat)

theorem printed_append (as bs : List (Nat × Rtattr)) :
    GetLinks.printed room m (as ++ bs) =
      (GetLinks.printed room m as).bind fun s => (GetLinks.printed room m bs).map (s ++ ·) := by
  rw [GetLinks.printed, List.flatMap_append, Effect.output_bind]
  rfl

/-- A call prints something exactly for a name. -/
theorem output_stray (q : Nat) :
    Prints (Effect.output m room (GetLinks.parseRta m q)) "" (rtaType m q ≠ IFLA_IFNAME) := by
  rw [GetLinks.parseRta, Effect.output_load]
  exact .ite rfl (by decide) not_not.mpr .empty

/-- Calls at addresses that are not meant to be names. -/
theorem printed_stray (qs : List Nat) :
    Prints (GetLinks.printed room m (qs.map fun q => (q, rtattrAt m q))) ""
      (∀ q ∈ qs, rtaType m q ≠ IFLA_IFNAME) := by
  rw [GetLinks.printed, List.flatMap_map]
  exact output_strays (output_stray m room) qs

theorem attrLines_eq (as : List Attr) : attrLines as =
    String.join (as.map fun a => if a.IsIfname then linkLine a.ifname else "") := by
  induction as with
  | nil => rfl
  | cons a as ih =>
    by_cases hn : a.IsIfname
    · rw [attrLines] at ih
      simp [attrLines, hn, ih]
    · rw [attrLines] at ih
      simp [attrLines, hn, ih]

/-- The calls for the attributes of a link print the line of each name. -/
theorem printed_attrs {m : Mem} {room p : Nat} {as : List Attr} (h : m.Holds p (encodeAll as))
    (hend : ∀ a ∈ as, a.IsIfname → 0 ∈ a.payload) (hroom : (encodeAll as).length ≤ room) :
    GetLinks.printed room m ((placed Attr.size p as).map fun y => (y.1, y.2.toRtattr)) =
      some (attrLines as) := by
  rw [GetLinks.printed, List.flatMap_map, attrLines_eq]
  refine output_attrs (fun a => if a.IsIfname then linkLine a.ifname else "") h hroom ?_
  intro q a ha hd hlen
  rw [GetLinks.parseRta, Effect.output_load, rtaType_of_holds hd a.fits]
  exact Effect.output_ite (fun hn => output_string hd room (hend a ha hn) hlen) fun _ => rfl

end calls

/-- In the header of the next message the attribute loop finds at most an attribute of type 0. -/
theorem header_not_ifname {m : Mem} {p u : Nat} {y : WireMsg} (h : m.Holds p y.data)
    (hlen : 16 + y.payload.length < 65536) :
    ∀ q ∈ rtaFormat.walk m p (16 - u), rtaType m q ≠ IFLA_IFNAME := by
  have hhead := (Mem.holds_append.mp h).1
  have hsplit : leBytes 4 (16 + y.payload.length) =
      leBytes 2 (16 + y.payload.length) ++ leBytes 2 ((16 + y.payload.length) / 256 / 256) := rfl
  rw [hsplit] at hhead
  obtain ⟨hlow, hhigh⟩ := Mem.holds_append.mp hhead
  rw [leBytes_length] at hhigh
  have hrta : rtaLen m p = 16 + y.payload.length := by
    rw [rtaLen, Mem.load16_of_holds hlow, Nat.mod_eq_of_lt hlen]
  have htype : rtaType m p = 0 := by
    rw [rtaType, Mem.load16_of_holds hhigh]
    omega
  by_cases ok : rtaFormat.Ok m p (16 - u)
  · have hstep := rtaFormat.size_le_step m p
    rw [rtaFormat_size, hrta] at hstep
    rw [rtaFormat.walk_of_ok ok, rtaFormat.walk_of_lt (show _ < (4 : Int) by omega)]
    intro q hq
    rw [List.mem_singleton.mp hq, htype]
    decide
  · rw [rtaFormat.walk_of_not_ok ok]
    exact List.forall_mem_nil _

theorem Message.IsLink.fixedSize_eq {x : Message} (h : x.IsLink) :
    fixedSize x.type = some sizeofIfinfomsg := (fixedSize_link x.type).mpr (Or.inl h)

section loop

variable {m : Mem} {p room : Nat}

theorem printed_message {x : Message} (h : m.Holds p x.wire.record.bytes)
    (hsize : (x.size : Int) < 2 ^ 31) (hroom : x.size ≤ room) (hend : x.NamesEnd) :
    Prints (GetLinks.printed room m (rtaCalls (GetLinks.parseMessage m p))) x.lines
      (∀ q ∈ x.walksOn m p, rtaType m q ≠ IFLA_IFNAME) := by
  have htype := nlmsgType_of_holds (Mem.holds_append.mp h).1
  have hlink : nlmsgType m p = RTM_NEWLINK ↔ x.IsLink := by
    rw [htype]
    rfl
  by_cases hx : x.IsLink
  · have hfix := x.fixed_length _ hx.fixedSize_eq
    have hb := (Mem.holds_append.mp (Message.holds_body h)).2
    rw [hfix] at hb
    have hbody : x.size = 16 + (x.fixed.length + (encodeAll x.attrs).length) := by
      rw [Message.size, Message.body, List.length_append]
    have hattrs := printed_attrs hb (hend hx) (show (encodeAll x.attrs).length ≤ room by omega)
    have hstray := printed_stray m room (x.walksOn m p)
    rw [Message.walksOn, if_pos hx] at hstray ⊢
    rw [GetLinks.parseMessage, if_pos (hlink.mpr hx), GetLinks.parseLinkMessage,
      rtaCalls_parseAttributes h hx.fixedSize_eq hsize, rtaCalls_parseRtas (by omega),
      printed_append, hattrs, Message.lines, if_pos hx]
    have hfirst : Prints (some (attrLines x.attrs)) (attrLines x.attrs) True :=
      ⟨fun _ => rfl, fun hn => absurd trivial hn⟩
    have hboth := hfirst.append hstray
    rw [String.append_empty] at hboth
    exact hboth.congr (iff_of_eq (true_and _))
  · rw [GetLinks.parseMessage, if_neg (mt hlink.mp hx), Message.lines, if_neg hx,
      Message.walksOn, if_neg hx]
    exact printed_stray m room []

theorem leftover_cons_of_stops {x : Message} {xs : List Message} (h : x.wire.Stops) :
    leftover m p (x :: xs) = [] := by
  cases xs with
  | nil =>
    have hnone : fixedSize x.type = none := fixedSize_of_stops h
    have hx : ¬x.IsLink := by
      intro hx
      rw [hx.fixedSize_eq] at hnone
      cases hnone
    rw [leftover, Message.walksOn, if_neg hx]
  | cons y ys => rw [leftover, if_pos h]

theorem dumpLines_of_stops {x : Message} {xs : List Message} (h : x.wire.Stops) :
    dumpLines (x :: xs) = "" := by simp [dumpLines, h]

theorem dumpLines_cons {x : Message} {xs : List Message} (h : ¬x.wire.Stops) :
    dumpLines (x :: xs) = x.lines ++ dumpLines xs := by simp [dumpLines, h]

/-- What the loop of `read_message` prints for the messages that lie in the buffer. -/
theorem printed_readLoop {xs : List Message}
    (h : m.Holds p (WireMsg.encodeAll (xs.map Message.wire)))
    (hl : (WireMsg.encodeAll (xs.map Message.wire)).length < 65536)
    (hroom : (WireMsg.encodeAll (xs.map Message.wire)).length ≤ room)
    (hend : ∀ x ∈ xs, x.NamesEnd) :
    Prints (GetLinks.printed room m (rtaCalls (readLoop 1 (GetLinks.parseMessage m) m p
        (WireMsg.encodeAll (xs.map Message.wire)).length).2)) (dumpLines xs)
      (∀ q ∈ leftover m p xs, rtaType m q ≠ IFLA_IFNAME) := by
  induction xs generalizing p with
  | nil =>
    have hnone : readLoop 1 (GetLinks.parseMessage m) m p
        (WireMsg.encodeAll ([].map Message.wire)).length = (0, []) := readLoop_nil ..
    rw [hnone]
    exact printed_stray m room []
  | cons x xs ih =>
    rw [WireMsg.encodeAll, List.map_cons, List.map_cons, Format.encode_cons] at h
    obtain ⟨hx, hxs⟩ := Mem.holds_append.mp h
    have hd : m.Holds p x.wire.data := (Mem.holds_append.mp hx).1
    have hsize : x.wire.record.bytes.length = x.size := x.wire_size
    have hlen : (WireMsg.encodeAll ((x :: xs).map Message.wire)).length =
        x.size + (WireMsg.encodeAll (xs.map Message.wire)).length := by
      rw [← hsize]
      exact List.length_append
    rw [hsize] at hxs
    rw [List.forall_mem_cons] at hend
    have hrest := ih hxs (by omega) (by omega) hend.2
    by_cases hs : x.wire.Stops
    · rw [readLoop_stops hd (by rw [x.wire_size]; omega) (by omega) hs,
        leftover_cons_of_stops hs, dumpLines_of_stops hs]
      exact printed_stray m room []
    · have hdiff : ((WireMsg.encodeAll ((x :: xs).map Message.wire)).length : Int) - x.size =
          (WireMsg.encodeAll (xs.map Message.wire)).length := by omega
      have hfirst := printed_message hx (by omega) (show x.size ≤ room by omega) hend.1
      have hboth := hfirst.append hrest
      rw [readLoop_cons hd (by rw [x.wire_size]; omega) (by omega) hs, x.wire_size, hdiff,
        rtaCalls_parseMessage, rtaCalls_append, printed_append, dumpLines_cons hs]
      apply hboth.congr
      cases xs with
      | nil => simp [leftover]
      | cons y ys =>
        rw [leftover, if_neg hs]
        apply and_iff_right
        rw [Message.walksOn]
        split_ifs with hlink
        · obtain ⟨hy, -⟩ := Mem.holds_append.mp hxs
          have hyl : y.size ≤ (WireMsg.encodeAll ((y :: ys).map Message.wire)).length := by
            rw [← y.wire_size]
            exact Nat.le_add_right _ _ |>.trans (le_of_eq List.length_append.symm)
          have hyd := y.wire.record.data_le
          rw [WireMsg.record_data, Nlmsg.data_length] at hyd
          have hysize : y.wire.record.bytes.length = y.size := y.wire_size
          exact header_not_ifname (Mem.holds_append.mp hy).1 (by omega)
        · exact List.forall_mem_nil _

end loop

theorem hasStop_cons {x : Message} {xs : List Message} :
    HasStop ((x :: xs).map Message.wire) ↔ x.wire.Stops ∨ HasStop (xs.map Message.wire) := by
  simp [HasStop]

theorem dumpLines_append {xs : List Message} (h : ¬HasStop (xs.map Message.wire))
    (ys : List Message) : dumpLines (xs ++ ys) = dumpLines xs ++ dumpLines ys := by
  induction xs with
  | nil => exact (String.empty_append).symm
  | cons x xs ih =>
    obtain ⟨hs, ht⟩ := not_or.mp (mt hasStop_cons.mpr h)
    rw [List.cons_append, dumpLines_cons hs, dumpLines_cons hs, ih ht, String.append_assoc]

theorem dumpLines_append_of_stop {xs : List Message} (h : HasStop (xs.map Message.wire))
    (ys : List Message) : dumpLines (xs ++ ys) = dumpLines xs := by
  induction xs with
  | nil =>
    obtain ⟨x, hx, -⟩ := h
    cases hx
  | cons x xs ih =>
    by_cases hs : x.wire.Stops
    · rw [List.cons_append, dumpLines_of_stops hs, dumpLines_of_stops hs]
    · have ht := (hasStop_cons.mp h).resolve_left hs
      rw [List.cons_append, dumpLines_cons hs, dumpLines_cons hs, ih ht]

theorem GetLinks.output_cons (room : Nat) (r : Mem × Int) (rs : List (Mem × Int)) :
    output room (r :: rs) =
      (printed room r.1 (rtaCalls (readMessage r.1 r.2).2)).bind fun text =>
        if (readMessage r.1 r.2).1 = 0 then (output room rs).map (text ++ ·) else some text := rfl

/-- One call of `read_message`. -/
theorem printed_datagram {d : Datagram} (hne : d.msgs ≠ []) (hend : ∀ x ∈ d.msgs, x.NamesEnd)
    {room : Nat} (hroom : 8192 ≤ room) (stale : Mem) :
    let r := recvmsg stale d.bytes
    let read := GetLinks.readMessage r.1 r.2
    (read.1 = 0 ↔ ¬HasStop (d.msgs.map Message.wire)) ∧
      Prints (GetLinks.printed room r.1 (rtaCalls read.2)) (dumpLines d.msgs)
        (EndsClean (stale.write 0 d.bytes) d.msgs) := by
  have hfit : d.bytes.length ≤ 8192 := d.fits
  have hwires : d.msgs.map Message.wire ≠ [] := by simpa using hne
  have hpos : 0 < d.bytes.length := by
    obtain ⟨x, xs, hx⟩ := List.exists_cons_of_ne_nil hwires
    have hxpos := x.record.bytes_pos
    have hlen : d.bytes.length = x.record.bytes.length + (WireMsg.encodeAll xs).length := by
      rw [Datagram.bytes, hx]
      exact List.length_append
    omega
  have hholds := Mem.holds_write stale 0 d.bytes
  have hcode : (readLoop 1 (GetLinks.parseMessage (stale.write 0 d.bytes)) (stale.write 0 d.bytes) 0
      d.bytes.length).1 = returnCode 1 ((d.msgs.map Message.wire).map WireMsg.toNlmsg) :=
    congrArg Prod.fst (readLoop_encode 1 _ hholds (show (d.bytes.length : Int) < 2 ^ 31 by omega))
  have hprints := printed_readLoop hholds (show d.bytes.length < 65536 by omega)
    (show d.bytes.length ≤ room by omega) hend
  simp only [recvmsg_datagram, GetLinks.readMessage, readMessage]
  rw [if_neg (by omega)]
  rw [hcode]
  exact ⟨returnCode_eq_zero_iff 1 (by decide) _, hprints⟩

theorem printed_dump {dump : List Datagram} (hne : ∀ d ∈ dump, d.msgs ≠ [])
    (hend : ∀ d ∈ dump, ∀ x ∈ d.msgs, x.NamesEnd) {room : Nat} (hroom : 8192 ≤ room)
    (stale : Nat → Mem) :
    Prints (GetLinks.output room (deliver stale (dump.map fun d => d.msgs.map Message.wire)))
      (dumpLines (dump.flatMap Datagram.msgs)) (DumpClean stale dump) := by
  induction dump generalizing stale with
  | nil => exact ⟨fun _ => rfl, fun h => absurd trivial h⟩
  | cons d ds ih =>
    rw [List.forall_mem_cons] at hne hend
    obtain ⟨hcode, hfirst⟩ := printed_datagram hne.1 hend.1 hroom (stale 0)
    have hrest := ih hne.2 hend.2 fun i => stale (i + 1)
    rw [List.map_cons, deliver, GetLinks.output_cons, List.flatMap_cons, DumpClean]
    by_cases hs : HasStop (d.msgs.map Message.wire)
    · have hstop := mt hcode.mp (not_not.mpr hs)
      simp only [Datagram.bytes] at hstop
      simp only [hstop, if_false, Option.bind_fun_some]
      rw [dumpLines_append_of_stop hs]
      exact hfirst.congr (by simp [hs])
    · have hgo := hcode.mpr hs
      simp only [Datagram.bytes] at hgo
      simp only [hgo, if_true]
      rw [dumpLines_append hs]
      exact (hfirst.append hrest).congr (by simp [hs])

/-- For a dump in any number of datagrams `get-links` prints one line for each name of a link, in
order, exactly if it takes nothing that an earlier call left in the buffer for a name. -/
theorem dump_printed_iff (dump : List Datagram) (hne : ∀ d ∈ dump, d.msgs ≠ [])
    (hend : ∀ d ∈ dump, ∀ x ∈ d.msgs, x.NamesEnd) {room : Nat} (hroom : 8192 ≤ room)
    (stale : Nat → Mem) :
    GetLinks.output room (deliver stale (dump.map fun d => d.msgs.map Message.wire)) =
        some (dumpLines (dump.flatMap Datagram.msgs)) ↔
      DumpClean stale dump :=
  (printed_dump hne hend hroom stale).iff

/-- A link with no attribute but its name, `lo`. -/
def loopback : Message :=
  { newLink with
    flags := 2
    seq := 1
    attrs := [⟨⟨3, [108, 111, 0]⟩, [0], by decide, by decide⟩]
    attrs_nil := by
      intro h
      cases h
    uncounted_le := by decide
    fits := by decide }

/-- The end of a dump. -/
def dumpDone : Message where
  type := 3
  flags := 2
  seq := 1
  pid := 0
  fixed := List.replicate 4 0
  attrs := []
  uncounted := 0
  fixed_length := by
    intro n h
    cases h
  attrs_nil := by decide
  uncounted_le := by decide
  dvd_fixed := by decide
  fits := by decide

theorem dump_printed_one :
    GetLinks.output 8192 (deliver (fun _ _ => 0)
        [[loopback.wire], [loopback.wire, dumpDone.wire]]) =
      some (dumpLines [loopback, loopback, dumpDone]) :=
  (dump_printed_iff [⟨[loopback], by decide⟩, ⟨[loopback, dumpDone], by decide⟩]
    (by decide) (by decide) (Nat.le_refl 8192) fun _ _ => 0).mpr
    ⟨by decide +kernel, .inr ⟨by decide +kernel, .inl (by decide)⟩⟩

/-- A name that the buffer still holds from the call before is printed once more. -/
example : ∃ x : Message, x.lines = "" ∧
    ¬EndsClean ((Mem.write (fun _ => 0) 0 loopback.wire.record.bytes).write 0
      x.wire.record.bytes) [x] :=
  ⟨{ loopback with
      attrs := []
      attrs_nil := fun _ => rfl
      uncounted_le := by decide
      fits := by decide }, by decide +kernel, by decide +kernel⟩

end SnippetsC.Netlink
