import SnippetsC.Framework.Printf
import SnippetsC.Netlink.Receivers

namespace SnippetsC.Netlink

/-! The event listeners with what they print, and what they read of the fixed structs. -/

namespace IfEvents

def nlmsghdrFormat : List Piece :=
  [.lit "netlink msg:\n  len: ", .conv .d, .lit ",\n  type: ", .conv .d, .lit ",\n  flags: ",
    .conv .d, .lit ",\n  seq: ", .conv .d, .lit ",\n  pid: ", .conv .d, .lit "\n"]

def nlmsghdrText (m : Mem) (nh : Nat) : String :=
  printf nlmsghdrFormat [nlmsgLen m nh, nlmsgType m nh, nlmsgFlags m nh, nlmsgSeq m nh,
    nlmsgPid m nh]

def ifinfomsgFormat : List Piece :=
  [.lit "interface info msg:\n  family: ", .conv .d, .lit ",\n  type: ", .conv .d,
    .lit ",\n  index: ", .conv .d, .lit ",\n  flags: ", .conv .d, .lit ",\n  change: ", .conv .d,
    .lit ",\n"]

/-- `ifi_family`, `ifi_type`, `ifi_index`, `ifi_flags` and `ifi_change`. -/
def ifinfomsgFields (ifi : Nat) : List Extent :=
  [⟨ifi, 1⟩, ⟨ifi + 2, 2⟩, ⟨ifi + 4, 4⟩, ⟨ifi + 8, 4⟩, ⟨ifi + 12, 4⟩]

def ifinfomsgText (m : Mem) (ifi : Nat) : String :=
  printf ifinfomsgFormat ((ifinfomsgFields ifi).map m.load)

/-- `verbose` is the global switch of the program, off in the source. -/
def parseLinkMessage (verbose : Bool) (m : Mem) (nh : Nat) : List Event :=
  (if verbose then [.print (ifinfomsgText m (nh + sizeofNlmsghdr))] else []) ++
    parseAttributes sizeofIfinfomsg m nh

def parseMessage (verbose : Bool) (m : Mem) (nh : Nat) : List Event :=
  (if verbose then [.print (nlmsghdrText m nh)] else []) ++
    if nlmsgType m nh = RTM_NEWLINK then .print "new link\n" :: parseLinkMessage verbose m nh
    else if nlmsgType m nh = RTM_DELLINK then .print "del link\n" :: parseLinkMessage verbose m nh
    else if nlmsgType m nh = RTM_NEWADDR then [.print "new addr\n"]
    else if nlmsgType m nh = RTM_DELADDR then [.print "del addr\n"]
    else [.print "other\n"]

def readMessage (verbose : Bool) (buf : Mem) (len : Int) : Int × List Event :=
  Netlink.readMessage 0 (parseMessage verbose) buf len

end IfEvents

namespace IfFlags

/-- The flags in the order of the `if`s, with what each prints. -/
def flagTexts : List (Nat × String) :=
  [(IFF_UP, "  up\n"), (IFF_BROADCAST, "  broadcast\n"), (IFF_DEBUG, "  debug\n"),
    (IFF_LOOPBACK, "  loopback\n"), (IFF_POINTOPOINT, "  point-to-point\n"),
    (IFF_RUNNING, "  running\n"), (IFF_NOARP, "  no arp\n"), (IFF_PROMISC, "  promiscuous\n"),
    (IFF_NOTRAILERS, "  no trailers\n"), (IFF_ALLMULTI, "  all multicast\n"),
    (IFF_MASTER, "  master\n"), (IFF_SLAVE, "  slave\n"), (IFF_MULTICAST, "  multicast\n"),
    (IFF_PORTSEL, "  media select\n"), (IFF_AUTOMEDIA, "  auto media select\n"),
    (IFF_DYNAMIC, "  dynamic\n")]

/-- The flags of the block under `__UAPI_DEF_IF_NET_DEVICE_FLAGS_LOWER_UP_DORMANT_ECHO`. -/
def lowerUpTexts : List (Nat × String) :=
  [(IFF_LOWER_UP, "  lower up\n"), (IFF_DORMANT, "  dormant\n"), (IFF_ECHO, "  up\n")]

/-- `ifi_index` and `ifi_flags`. -/
def ifiIndex (ifi : Nat) : Extent := ⟨ifi + 4, 4⟩
def ifiFlags (ifi : Nat) : Extent := ⟨ifi + 8, 4⟩

def flagLines (flags : Nat) (texts : List (Nat × String)) : List Event :=
  (texts.filter fun x => flags &&& x.1 ≠ 0).map fun x => .print x.2

/-- `uapiDef` says whether the guarded block is compiled in. -/
def parseLinkMessage (uapiDef : Bool) (m : Mem) (nh : Nat) : List Event :=
  let ifi := nh + sizeofNlmsghdr
  .print (printf [.lit "interface ", .conv .d, .lit " flags:\n"] [m.load (ifiIndex ifi)]) ::
    (flagLines (m.load (ifiFlags ifi)) flagTexts ++
      if uapiDef then flagLines (m.load (ifiFlags ifi)) lowerUpTexts else [])

def parseMessage (uapiDef : Bool) (m : Mem) (nh : Nat) : List Event :=
  if nlmsgType m nh = RTM_NEWLINK ∨ nlmsgType m nh = RTM_DELLINK then parseLinkMessage uapiDef m nh
  else []

def readMessage (uapiDef : Bool) (buf : Mem) (len : Int) : Int × List Event :=
  Netlink.readMessage 0 (parseMessage uapiDef) buf len

end IfFlags

/-- `ifa_family`, `ifa_prefixlen`, `ifa_flags`, `ifa_scope` and `ifa_index`. -/
def IfAddrs.ifaddrmsgFields (ifa : Nat) : List Extent :=
  [⟨ifa, 1⟩, ⟨ifa + 1, 1⟩, ⟨ifa + 2, 1⟩, ⟨ifa + 3, 1⟩, ⟨ifa + 4, 4⟩]

def IfAddrs.ifaddrmsgFormat : List Piece :=
  [.lit "family: ", .conv .d, .lit ", prefixlen: ", .conv .d, .lit ", flags: ", .conv .d,
    .lit ", scope: ", .conv .d, .lit ", index: ", .conv .d, .lit "\n"]

theorem text_d_byte (m : Mem) (p : Nat) :
    Conversion.d.text (m.load ⟨p, 1⟩) = toString (m p).toNat := by
  have hlt := (m p).toNat_lt
  rw [Mem.load_one, Conversion.text_d (by omega)]

theorem text_d_word (m : Mem) (p : Nat) :
    Conversion.d.text (m.load ⟨p, 4⟩) = toString (toInt (m.load32 p)) := rfl

/-- The line shows these fields and nothing else. -/
theorem IfAddrs.ifaddrmsgLine_eq (m : Mem) (ifa : Nat) :
    ifaddrmsgLine m ifa = printf ifaddrmsgFormat ((ifaddrmsgFields ifa).map m.load) := by
  simp only [ifaddrmsgFormat, ifaddrmsgFields, List.map_cons, List.map_nil, printf_lit,
    printf_conv, printf_nil, text_d_byte, text_d_word]
  unfold ifaddrmsgLine
  simp only [String.append_assoc, String.append_empty]

/-- The programs that wait for events. -/
inductive Watcher where
  | ifAddrs
  | ifEvents (verbose : Bool)
  | ifFlags (uapiDef : Bool)
  | ifRtas
  | ifStats

namespace Watcher

def parseMessage : Watcher → Mem → Nat → List Event
  | ifAddrs => IfAddrs.parseMessage
  | ifEvents verbose => IfEvents.parseMessage verbose
  | ifFlags uapiDef => IfFlags.parseMessage uapiDef
  | ifRtas => IfRtas.parseMessage
  | ifStats => IfStats.parseMessage

def readMessage : Watcher → Mem → Int → Int × List Event
  | ifAddrs => IfAddrs.readMessage
  | ifEvents verbose => IfEvents.readMessage verbose
  | ifFlags uapiDef => IfFlags.readMessage uapiDef
  | ifRtas => IfRtas.readMessage
  | ifStats => IfStats.readMessage

/-- On `NLMSG_DONE` they all go on with the next datagram. -/
theorem readMessage_eq (w : Watcher) : w.readMessage = Netlink.readMessage 0 w.parseMessage := by
  cases w <;> rfl

end Watcher

/-- The ones whose walks are compared with the messages they walk over. -/
inductive Listener where
  | ifEvents (verbose : Bool)
  | ifFlags (uapiDef : Bool)
  | ifAddrs

namespace Listener

def watcher : Listener → Watcher
  | ifEvents verbose => .ifEvents verbose
  | ifFlags uapiDef => .ifFlags uapiDef
  | ifAddrs => .ifAddrs

def parseMessage (l : Listener) : Mem → Nat → List Event := l.watcher.parseMessage

/-- `parse_message` hands the message on to `parse_link_message` or `parse_addr_message`. -/
def HandsOn (l : Listener) (m : Mem) (nh : Nat) : Prop :=
  match l with
  | ifEvents _ | ifFlags _ => nlmsgType m nh = RTM_NEWLINK ∨ nlmsgType m nh = RTM_DELLINK
  | ifAddrs => nlmsgType m nh = RTM_NEWADDR ∨ nlmsgType m nh = RTM_DELADDR

instance (l : Listener) (m : Mem) (nh : Nat) : Decidable (l.HandsOn m nh) :=
  match l with
  | ifEvents _ => inferInstanceAs (Decidable (_ ∨ _))
  | ifFlags _ => inferInstanceAs (Decidable (_ ∨ _))
  | ifAddrs => inferInstanceAs (Decidable (_ ∨ _))

/-- The fields of the fixed struct that are read. -/
def fieldsRead (l : Listener) (nh : Nat) : List Extent :=
  let fixed := nh + sizeofNlmsghdr
  match l with
  | ifEvents verbose => if verbose then IfEvents.ifinfomsgFields fixed else []
  | ifFlags _ => [IfFlags.ifiIndex fixed, IfFlags.ifiFlags fixed]
  | ifAddrs => IfAddrs.ifaddrmsgFields fixed

/-- The size of the fixed struct, for the listeners that walk the attributes behind it. -/
def walksBehind : Listener → Option Nat
  | ifEvents _ => some sizeofIfinfomsg
  | ifFlags _ => none
  | ifAddrs => some sizeofIfaddrmsg

end Listener

end SnippetsC.Netlink
