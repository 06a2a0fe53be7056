import SnippetsC.Netlink.LinkStats
import SnippetsC.Netlink.Message

namespace SnippetsC.Netlink

/-! `parse_rta` of the programs that print attributes. -/

def rtaLenField (rta : Nat) : Extent := ⟨rta, 2⟩
def rtaTypeField (rta : Nat) : Extent := ⟨rta + 2, 2⟩

/-- `printf` of a fixed text. -/
def say (text : String) : Effect := .print [.lit text] []

/-- `for (int i = 0; i < RTA_PAYLOAD(rta); i++)` with `printf("%x", ..)` of the byte at `i`; every
evaluation of the condition loads `rta_len`. -/
def printBytes (m : Mem) (rta : Nat) : List Effect :=
  ((List.range (rtaPayload m rta).toNat).flatMap fun i =>
    [.load (rtaLenField rta), .print [.conv .x] [⟨rtaData rta + i, 1⟩]]) ++ [.load (rtaLenField rta)]

/-- `print_addr` of `if-addrs`; the same loop stands in the other programs. -/
def printAddr (m : Mem) (rta : Nat) : List Effect := printBytes m rta ++ [say "\n"]

/-- The cases that `if-events` and `if-rtas` share; `other` is what they do with other types. -/
def linkRta (other : List Effect) (m : Mem) (rta : Nat) : List Effect :=
  let data := rtaData rta
  if rtaType m rta = IFLA_UNSPEC then [say "  unspec\n"]
  else if rtaType m rta = IFLA_ADDRESS then say "  hw addr: " :: printAddr m rta
  else if rtaType m rta = IFLA_BROADCAST then say "  bc addr: " :: printAddr m rta
  else if rtaType m rta = IFLA_IFNAME then [.printString "  ifname: " data "\n"]
  else if rtaType m rta = IFLA_MTU then [.print [.lit "  mtu: ", .conv .u, .lit "\n"] [⟨data, 4⟩]]
  else if rtaType m rta = IFLA_LINK then [.print [.lit "  link: ", .conv .d, .lit "\n"] [⟨data, 4⟩]]
  else if rtaType m rta = IFLA_QDISC then [.printString "  qdisc: " data "\n"]
  else if rtaType m rta = IFLA_STATS then
    [.print [.lit "  stats: \n    rx pkts: ", .conv .d, .lit ",\n    tx pkts: ", .conv .d,
      .lit ",\n    ...\n"] [LinkCounter.rxPackets.field 4 data, LinkCounter.txPackets.field 4 data]]
  else other

namespace IfEvents

def rtaText (rta : Nat) : Effect :=
  .print [.lit "routing attribute:\n  len: ", .conv .d, .lit ",\n  type: ", .conv .d, .lit ",\n"]
    [rtaLenField rta, rtaTypeField rta]

def parseRta (verbose : Bool) (m : Mem) (rta : Nat) : List Effect :=
  (if verbose then [rtaText rta] else []) ++ .load (rtaTypeField rta) ::
    linkRta (if verbose then [say "  other\n"] else []) m rta

end IfEvents

namespace IfRtas

/-- The cases that print a label and nothing of the attribute. -/
def rtaLabels : List (Nat × String) :=
  [(IFLA_COST, "  cost\n"), (IFLA_PRIORITY, "  priority\n"), (IFLA_MASTER, "  master\n"),
    (IFLA_WIRELESS, "  wireless\n"), (IFLA_PROTINFO, "  protinfo\n"), (IFLA_TXQLEN, "  txqlen\n"),
    (IFLA_MAP, "  map\n"), (IFLA_WEIGHT, "  weight\n"), (IFLA_OPERSTATE, "  operstate\n"),
    (IFLA_LINKMODE, "  linkmode\n"), (IFLA_LINKINFO, "  linkinfo\n"),
    (IFLA_NET_NS_PID, "  net ns pid\n"), (IFLA_IFALIAS, "  ifalias\n"), (IFLA_NUM_VF, "  num_vf\n"),
    (IFLA_VFINFO_LIST, "  vfinfo list\n"), (IFLA_STATS64, "  stats64\n"),
    (IFLA_VF_PORTS, "  vf ports\n"), (IFLA_PORT_SELF, "  port self\n"),
    (IFLA_AF_SPEC, "  af spec\n"), (IFLA_GROUP, "  group\n"), (IFLA_NET_NS_FD, "  net ns fd\n"),
    (IFLA_EXT_MASK, "  ext mask\n"), (IFLA_PROMISCUITY, "  promiscuity\n"),
    (IFLA_NUM_TX_QUEUES, "  num rx queues\n"), (IFLA_NUM_RX_QUEUES, "  num rx queues\n"),
    (IFLA_CARRIER, "  carrier\n"), (IFLA_PHYS_PORT_ID, "  phys port id\n"),
    (IFLA_CARRIER_CHANGES, "  carrier changes\n"), (IFLA_PHYS_SWITCH_ID, "  phys switch id\n"),
    (IFLA_LINK_NETNSID, "  link netnsid\n"), (IFLA_PHYS_PORT_NAME, "  port name\n"),
    (IFLA_PROTO_DOWN, "  proto down\n"), (IFLA_GSO_MAX_SEGS, "  gso max segs\n"),
    (IFLA_GSO_MAX_SIZE, "  gso max size\n"), (IFLA_PAD, "  pad\n"), (IFLA_XDP, "  xdp\n"),
    (IFLA_EVENT, "  event\n"), (IFLA_NEW_NETNSID, "  new netnsid\n"),
    (IFLA_TARGET_NETNSID, "  if netnsid/target netnsid\n"),
    (IFLA_CARRIER_UP_COUNT, "  carrier up count\n"),
    (IFLA_CARRIER_DOWN_COUNT, "  carrier down count\n"), (IFLA_NEW_IFINDEX, "  new ifindex\n"),
    (IFLA_MIN_MTU, "  min mtu\n"), (IFLA_MAX_MTU, "  max mtu\n"), (IFLA_PROP_LIST, "  prop list\n"),
    (IFLA_ALT_IFNAME, "  alt ifname\n"), (IFLA_PERM_ADDRESS, "  perm address\n"),
    (IFLA_PROTO_DOWN_REASON, "  proto down reason\n")]

def parseRta (m : Mem) (rta : Nat) : List Effect :=
  .load (rtaTypeField rta) ::
    linkRta [say ((rtaLabels.lookup (rtaType m rta)).getD "  other\n")] m rta

end IfRtas

namespace IfAddrs

/-- The flags in the order of the `if`s, with what each prints. -/
def ifaFlagTexts : List (Nat × String) :=
  [(IFA_F_SECONDARY, "    secondary/temporary\n"), (IFA_F_NODAD, "    no DAD\n"),
    (IFA_F_OPTIMISTIC, "    optimistic\n"), (IFA_F_DADFAILED, "    DAD failed\n"),
    (IFA_F_HOMEADDRESS, "    home address\n"), (IFA_F_DEPRECATED, "    deprecated\n"),
    (IFA_F_TENTATIVE, "    tentative\n"), (IFA_F_PERMANENT, "    permanent\n"),
    (IFA_F_MANAGETEMPADDR, "    manage temp address\n"),
    (IFA_F_NOPREFIXROUTE, "    no prefix route\n"), (IFA_F_MCAUTOJOIN, "    mc auto join\n"),
    (IFA_F_STABLE_PRIVACY, "    stable privacy\n")]

/-- `print_ifa_flags`: every `if` loads the flags. -/
def printIfaFlags (m : Mem) (flags : Nat) : List Effect :=
  ifaFlagTexts.flatMap fun x =>
    .load ⟨flags, 4⟩ :: if m.load ⟨flags, 4⟩ &&& x.1 ≠ 0 then [say x.2] else []

/-- `ifa_prefered`, `ifa_valid`, `cstamp` and `tstamp`. -/
def cacheinfoFields (ci : Nat) : List Extent :=
  [⟨ci, 4⟩, ⟨ci + 4, 4⟩, ⟨ci + 8, 4⟩, ⟨ci + 12, 4⟩]

def parseRta (m : Mem) (rta : Nat) : List Effect :=
  let data := rtaData rta
  .load (rtaTypeField rta) ::
    if rtaType m rta = IFA_UNSPEC then [say "  unspec\n"]
    else if rtaType m rta = IFA_ADDRESS then say "  address: " :: printAddr m rta
    else if rtaType m rta = IFA_LOCAL then say "  local: " :: printAddr m rta
    else if rtaType m rta = IFA_LABEL then [.printString "  label: " data "\n"]
    else if rtaType m rta = IFA_BROADCAST then say "  broadcast: " :: printAddr m rta
    else if rtaType m rta = IFA_ANYCAST then say "  anycast: " :: printAddr m rta
    else if rtaType m rta = IFA_CACHEINFO then
      [.print [.lit "  cacheinfo: prefered: ", .conv .d, .lit ", valid: ", .conv .d,
        .lit ", created timestamp: ", .conv .d, .lit ", updated timestamp: ", .conv .d, .lit "\n"]
        (cacheinfoFields data)]
    else if rtaType m rta = IFA_MULTICAST then say "  multicast: " :: printAddr m rta
    else if rtaType m rta = IFA_FLAGS then say "  flags:\n" :: printIfaFlags m data
    else if rtaType m rta = IFA_RT_PRIORITY then [say "  rt priority: ...\n"]
    else if rtaType m rta = IFA_TARGET_NETNSID then [say "  target netnsid: ...\n"]
    else [.print [.lit "  other (", .conv .d, .lit ")\n"] [rtaTypeField rta]]

end IfAddrs

namespace IfStats

def parseRta (m : Mem) (rta : Nat) : List Effect :=
  .load (rtaTypeField rta) ::
    if rtaType m rta = IFLA_IFNAME then [.printString "  ifname: " (rtaData rta) "\n"]
    else if rtaType m rta = IFLA_STATS64 then [printStats64 (rtaData rta)]
    else if rtaType m rta = IFLA_STATS then [printStats (rtaData rta)]
    else []

end IfStats

end SnippetsC.Netlink
