import SnippetsC.Netlink.ReadMessage

namespace SnippetsC.Netlink

/-! The receivers share `read_message` and differ in what `parse_message` does with each type. -/

namespace IfRtas

def parseLinkMessage (m : Mem) (nh : Nat) : List Event := parseAttributes sizeofIfinfomsg m nh

def parseMessage (m : Mem) (nh : Nat) : List Event :=
  if nlmsgType m nh = RTM_NEWLINK ∨ nlmsgType m nh = RTM_DELLINK then parseLinkMessage m nh
  else [.print "other\n"]

def readMessage (buf : Mem) (len : Int) : Int × List Event :=
  Netlink.readMessage 0 parseMessage buf len

end IfRtas

namespace IfAddrs

/-- The `printf` of the fixed struct; `%d` shows the 32-bit index as an `int`. -/
def ifaddrmsgLine (m : Mem) (ifa : Nat) : String :=
  "family: " ++ toString (m ifa).toNat ++ ", prefixlen: " ++ toString (m (ifa + 1)).toNat ++
    ", flags: " ++ toString (m (ifa + 2)).toNat ++ ", scope: " ++ toString (m (ifa + 3)).toNat ++
    ", index: " ++ toString (toInt (m.load32 (ifa + 4))) ++ "\n"

def parseAddrMessage (m : Mem) (nh : Nat) : List Event :=
  .print (ifaddrmsgLine m (nh + sizeofNlmsghdr)) :: parseAttributes sizeofIfaddrmsg m nh

def parseMessage (m : Mem) (nh : Nat) : List Event :=
  if nlmsgType m nh = RTM_NEWADDR then .print "NEW: " :: parseAddrMessage m nh
  else if nlmsgType m nh = RTM_DELADDR then .print "DEL: " :: parseAddrMessage m nh
  else [.print "other\n"]

def readMessage (buf : Mem) (len : Int) : Int × List Event :=
  Netlink.readMessage 0 parseMessage buf len

end IfAddrs

namespace IfStats

def parseLinkMessage (m : Mem) (nh : Nat) : List Event := parseAttributes sizeofIfinfomsg m nh

def parseMessage (m : Mem) (nh : Nat) : List Event :=
  if nlmsgType m nh = RTM_NEWLINK then parseLinkMessage m nh else []

def readMessage (buf : Mem) (len : Int) : Int × List Event :=
  Netlink.readMessage 0 parseMessage buf len

end IfStats

namespace GetLinks

def parseLinkMessage (m : Mem) (nh : Nat) : List Event := parseAttributes sizeofIfinfomsg m nh

def parseMessage (m : Mem) (nh : Nat) : List Event :=
  if nlmsgType m nh = RTM_NEWLINK then parseLinkMessage m nh else []

/-- Unlike the event listeners, `get-links` ends its outer loop on `NLMSG_DONE`. -/
def readMessage (buf : Mem) (len : Int) : Int × List Event :=
  Netlink.readMessage 1 parseMessage buf len

end GetLinks

/-- What a program has done once `read_messages` has returned (`result` is the last return value of
`read_message`) or blocks in `recvmsg` because nothing is left to receive. -/
structure Reading where
  events : List Event
  received : Nat
  result : Option Int

/-- `while (!read_message(fd));` over what the calls of `recvmsg` deliver. -/
def readMessages (read : Mem → Int → Int × List Event) : List (Mem × Int) → Reading
  | [] => ⟨[], 0, none⟩
  | r :: rs =>
    let (code, events) := read r.1 r.2
    if code = 0 then
      let more := readMessages read rs
      ⟨events ++ more.events, more.received + 1, more.result⟩
    else ⟨events, 1, some code⟩

/-- The messages handed to `parse_message`. -/
def dispatched (es : List Event) : List Nlmsg :=
  es.filterMap fun
    | .parseMessage x => some x
    | _ => none

/-- The calls of `parse_rta`. -/
def rtaCalls (es : List Event) : List (Nat × Rtattr) :=
  es.filterMap fun
    | .parseRta p a => some (p, a)
    | _ => none

@[simp] theorem dispatched_nil : dispatched [] = [] := rfl
@[simp] theorem rtaCalls_nil : rtaCalls [] = [] := rfl

@[simp] theorem dispatched_append (es fs : List Event) :
    dispatched (es ++ fs) = dispatched es ++ dispatched fs := List.filterMap_append

@[simp] theorem rtaCalls_append (es fs : List Event) :
    rtaCalls (es ++ fs) = rtaCalls es ++ rtaCalls fs := List.filterMap_append

@[simp] theorem dispatched_parseMessage (x : Nlmsg) (es : List Event) :
    dispatched (.parseMessage x :: es) = x :: dispatched es := rfl

@[simp] theorem rtaCalls_parseMessage (x : Nlmsg) (es : List Event) :
    rtaCalls (.parseMessage x :: es) = rtaCalls es := rfl

@[simp] theorem rtaCalls_print (text : String) (es : List Event) :
    rtaCalls (.print text :: es) = rtaCalls es := rfl

@[simp] theorem rtaCalls_parseRta (p : Nat) (a : Rtattr) (es : List Event) :
    rtaCalls (.parseRta p a :: es) = (p, a) :: rtaCalls es := rfl

theorem dispatched_parseRtas (m : Mem) (p : Nat) (len : Int) :
    dispatched (parseRtas m p len) = [] := by
  induction p, len using parseRtas.induct (m := m) with
  | case1 p len h ih =>
    rw [parseRtas, dif_pos h]
    exact ih
  | case2 p len h =>
    rw [parseRtas, dif_neg h]
    rfl

/-- `parse_message` of `get-links` calls nothing but `parse_rta`. -/
theorem GetLinks.dispatched_parseMessage (m : Mem) (nh : Nat) :
    dispatched (GetLinks.parseMessage m nh) = [] := by
  unfold GetLinks.parseMessage
  split_ifs
  · exact dispatched_parseRtas m _ _
  · rfl

theorem rtaCalls_parseRtas {m : Mem} {p : Nat} {len : Int} (hl : len < 2 ^ 31) :
    rtaCalls (parseRtas m p len) =
      (rtaFormat.walk m p len).map fun q => (q, rtattrAt m q) := by
  rw [parseRtas_eq hl, rtaCalls, List.filterMap_map]
  exact congrFun (List.filterMap_eq_map (f := fun q => (q, rtattrAt m q))) _

end SnippetsC.Netlink
