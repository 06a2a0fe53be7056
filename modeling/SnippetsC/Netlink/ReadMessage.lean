import SnippetsC.Netlink.Message

namespace SnippetsC.Netlink

/-- What the receivers do while they read a datagram, in order. -/
inductive Event where
  | parseMessage (msg : Nlmsg)
  | parseRta (rta : Nat) (attr : Rtattr)
  | print (text : String)
  deriving DecidableEq

/-- `for (; RTA_OK(rta, len); rta = RTA_NEXT(rta, len)) parse_rta(rta);` -/
def parseRtas (m : Mem) (rta : Nat) (len : Int) : List Event :=
  if _h : RtaOk m rta len then
    .parseRta rta (rtattrAt m rta) :: parseRtas m (rtaNext m rta) (rtaRest m rta len)
  else []
termination_by len.toNat
decreasing_by exact rtaRest_toNat_lt _h

/-- The attribute part shared by `parse_link_message` and `parse_addr_message`, for a fixed struct
of `size` bytes: `int len = nh->nlmsg_len - sizeof(*ifi);` -/
def parseAttributes (size : Nat) (m : Mem) (nh : Nat) : List Event :=
  let len := toInt ((nlmsgLen m nh : Int) - size)
  parseRtas m (nh + sizeofNlmsghdr + size) len

/-- The `for` loop of `read_message`; `done` is what it returns on `NLMSG_DONE`. -/
def readLoop (done : Int) (parse : Nat → List Event) (m : Mem) (nh : Nat) (len : Int) :
    Int × List Event :=
  if _h : NlmsgOk m nh len then
    if nlmsgType m nh = NLMSG_DONE then (done, [])
    else if nlmsgType m nh = NLMSG_ERROR then (-1, [])
    else
      let rest := readLoop done parse m (nlmsgNext m nh) (nlmsgRest m nh len)
      (rest.1, .parseMessage (nlmsgAt m nh) :: parse nh ++ rest.2)
  else (0, [])
termination_by len.toNat
decreasing_by exact nlmsgRest_toNat_lt _h

/-- `read_message` on what `recvmsg` returned (`len`) and left in the buffer (`buf`). -/
def readMessage (done : Int) (parseMessage : Mem → Nat → List Event) (buf : Mem) (len : Int) :
    Int × List Event :=
  if len ≤ 0 then (-1, []) else readLoop done (parseMessage buf) buf 0 len

/-- `recvmsg` into a buffer of 8192 bytes whose earlier contents are `stale`. -/
def recvmsg (stale : Mem) (datagram : List UInt8) : Mem × Int :=
  let got := datagram.take 8192
  (stale.write 0 got, got.length)

theorem parseRtas_eq {m : Mem} {p : Nat} {len : Int} (hl : len < 2 ^ 31) :
    parseRtas m p len = (rtaFormat.walk m p len).map fun q => .parseRta q (rtattrAt m q) := by
  induction p, len using parseRtas.induct (m := m) with
  | case1 p len h ih =>
    have hr := rtaRest_eq h hl
    rw [parseRtas, dif_pos h, rtaFormat.walk_of_ok (rtaOk_iff.mp h), List.map_cons, ← rtaNext_eq,
      ← hr, ih (by have hs := rtaFormat.size_le_step m p; omega)]
  | case2 p len h =>
    rw [parseRtas, dif_neg h, walk_of_not_rtaOk h]
    rfl

/-- The message ends the loop of `read_message`. -/
def Nlmsg.Stops (x : Nlmsg) : Prop := x.type.toNat = NLMSG_DONE ∨ x.type.toNat = NLMSG_ERROR

instance (x : Nlmsg) : Decidable x.Stops := inferInstanceAs (Decidable (_ ∨ _))

/-- What `read_message` returns for a datagram of these messages. -/
def returnCode (done : Int) : List Nlmsg → Int
  | [] => 0
  | x :: xs =>
    if x.type.toNat = NLMSG_DONE then done
    else if x.type.toNat = NLMSG_ERROR then -1
    else returnCode done xs

theorem nlmsgNext_eq {m : Mem} {p : Nat} {len : Int} (h : NlmsgOk m p len) (hl : len < 2 ^ 31) :
    nlmsgNext m p = p + nlmsgFormat.step m p := by
  rw [nlmsgNext, nlmsgAlign_nlmsgLen h hl]

section pass

variable {done : Int} {parse : Nat → List Event} {m : Mem} {p : Nat} {len : Int} {x : WireMsg}

theorem nlmsgOk_of_holds (h : m.Holds p x.data) (hx : x.size ≤ len) (hl : len < 2 ^ 31) :
    NlmsgOk m p len :=
  (nlmsgOk_iff hl).mpr
    (Format.ok_of_holds x.record h ((Int.ofNat_le.mpr x.record.data_le).trans hx))

theorem readLoop_stops (h : m.Holds p x.data) (hx : x.size ≤ len) (hl : len < 2 ^ 31)
    (hs : x.Stops) : readLoop done parse m p len = (returnCode done [x.toNlmsg], []) := by
  rw [readLoop, dif_pos (nlmsgOk_of_holds h hx hl), nlmsgType_of_holds h, returnCode]
  split_ifs with hd he
  · rfl
  · rfl
  · exact absurd hs (not_or.mpr ⟨hd, he⟩)

/-- One pass of the loop over a message that lies in the buffer. -/
theorem readLoop_cons (h : m.Holds p x.data) (hx : x.size ≤ len) (hl : len < 2 ^ 31)
    (hs : ¬x.Stops) : readLoop done parse m p len =
      ((readLoop done parse m (p + x.size) (len - x.size)).1,
        .parseMessage x.toNlmsg :: (parse p ++
          (readLoop done parse m (p + x.size) (len - x.size)).2)) := by
  have ok := nlmsgOk_of_holds h hx hl
  have hst : nlmsgFormat.step m p = x.size := Format.step_of_holds x.record h
  obtain ⟨hd, he⟩ := not_or.mp hs
  rw [readLoop, dif_pos ok, nlmsgType_of_holds h, if_neg hd, if_neg he, nlmsgNext_eq ok hl,
    nlmsgRest_eq ok hl, hst, nlmsgAt_of_holds h x.fits]
  rfl

end pass

theorem readLoop_nil (done : Int) (parse : Nat → List Event) (m : Mem) (p : Nat) :
    readLoop done parse m p 0 = (0, []) := by
  have hok : ¬NlmsgOk m p 0 := by
    intro ok
    exact absurd ok.1 (by decide)
  rw [readLoop, dif_neg hok]

/-- On a datagram of whole messages the loop handles, in order, those before the first one that
stops it. -/
theorem readLoop_encode (done : Int) (parse : Nat → List Event) {m : Mem} {p : Nat}
    {xs : List WireMsg} (h : m.Holds p (WireMsg.encodeAll xs))
    (hl : ((WireMsg.encodeAll xs).length : Int) < 2 ^ 31) :
    readLoop done parse m p (WireMsg.encodeAll xs).length =
      (returnCode done (xs.map WireMsg.toNlmsg),
        ((placed WireMsg.size p xs).takeWhile fun y => decide ¬y.2.Stops).flatMap fun y =>
          .parseMessage y.2.toNlmsg :: parse y.1) := by
  induction xs generalizing p with
  | nil => exact readLoop_nil done parse m p
  | cons x xs ih =>
    rw [WireMsg.encodeAll, List.map_cons, Format.encode_cons] at h
    obtain ⟨hx, hxs⟩ := Mem.holds_append.mp h
    have hd : m.Holds p x.data := (Mem.holds_append.mp hx).1
    have hlen : (WireMsg.encodeAll (x :: xs)).length =
        x.size + (WireMsg.encodeAll xs).length := List.length_append
    have ht := ih hxs (by omega)
    rw [List.map_cons, placed]
    by_cases hs : x.Stops
    · rw [readLoop_stops hd (by omega) hl hs, List.takeWhile_cons_of_neg (by simpa using hs)]
      rcases hs with hs | hs
      · simp [returnCode, hs]
      · simp [returnCode, hs, NLMSG_ERROR, NLMSG_DONE]
    · obtain ⟨hdone, herr⟩ := not_or.mp hs
      have hrest : ((WireMsg.encodeAll (x :: xs)).length : Int) - x.size =
          (WireMsg.encodeAll xs).length := by omega
      rw [readLoop_cons hd (by omega) hl hs, hrest, WireMsg.size, ht,
        List.takeWhile_cons_of_pos (by simpa using hs), returnCode, if_neg hdone, if_neg herr]
      rfl

end SnippetsC.Netlink
