import SnippetsC.Framework.RecordStream
import Mathlib.Data.Int.DivMod

namespace SnippetsC.Netlink

/-! Conversions between C integer types. -/

/-- Conversion to a 32-bit `int`. -/
def toInt (x : Int) : Int := x.bmod (2 ^ 32)

/-- Conversion to a 32-bit `unsigned int`. -/
def toUnsigned (x : Int) : Int := x % 2 ^ 32

theorem toInt_of_range {x : Int} (h : -2 ^ 31 ≤ x) (h' : x < 2 ^ 31) : toInt x = x :=
  Int.bmod_eq_of_le (by omega) (by omega)

theorem toInt_lt (x : Int) : toInt x < 2 ^ 31 := by
  have h := Int.bmod_lt (x := x) (m := 2 ^ 32) (by decide)
  rw [toInt]
  omega

theorem toUnsigned_of_range {x : Int} (h : 0 ≤ x) (h' : x < 2 ^ 32) : toUnsigned x = x :=
  Int.emod_eq_of_lt h h'

/-! `linux/netlink.h`: the message header is `nlmsg_len` (32 bits), `nlmsg_type` and `nlmsg_flags`
(16 bits each), `nlmsg_seq` and `nlmsg_pid` (32 bits each). -/

def sizeofNlmsghdr : Nat := 16

def nlmsgLen (m : Mem) (nh : Nat) : Nat := m.load32 nh
def nlmsgType (m : Mem) (nh : Nat) : Nat := m.load16 (nh + 4)
def nlmsgFlags (m : Mem) (nh : Nat) : Nat := m.load16 (nh + 6)
def nlmsgSeq (m : Mem) (nh : Nat) : Nat := m.load32 (nh + 8)
def nlmsgPid (m : Mem) (nh : Nat) : Nat := m.load32 (nh + 12)

/-- `NLMSG_ALIGN`, computed in `unsigned int`. -/
def nlmsgAlign (len : Nat) : Nat := alignUp 4 len % 2 ^ 32
def nlmsgHdrlen : Nat := nlmsgAlign sizeofNlmsghdr
def nlmsgLength (len : Nat) : Nat := len + nlmsgHdrlen
def nlmsgSpace (len : Nat) : Nat := nlmsgAlign (nlmsgLength len)
def nlmsgData (nlh : Nat) : Nat := nlh + nlmsgHdrlen

/-- `NLMSG_OK`: the last comparison is between `unsigned int`s, so `len` is converted. -/
def NlmsgOk (m : Mem) (nlh : Nat) (len : Int) : Prop :=
  (sizeofNlmsghdr : Int) ≤ len ∧ sizeofNlmsghdr ≤ nlmsgLen m nlh ∧
    (nlmsgLen m nlh : Int) ≤ toUnsigned len

instance (m : Mem) (nlh : Nat) (len : Int) : Decidable (NlmsgOk m nlh len) :=
  inferInstanceAs (Decidable (_ ∧ _ ∧ _))

/-- The pointer half of `NLMSG_NEXT`. -/
def nlmsgNext (m : Mem) (nlh : Nat) : Nat := nlh + nlmsgAlign (nlmsgLen m nlh)

/-- The length half of `NLMSG_NEXT`: unsigned subtraction, converted back to `int`. -/
def nlmsgRest (m : Mem) (nlh : Nat) (len : Int) : Int :=
  toInt (len - nlmsgAlign (nlmsgLen m nlh))

def NLMSG_ERROR : Nat := 2
def NLMSG_DONE : Nat := 3
def NLM_F_REQUEST : Nat := 0x1
def NLM_F_CREATE : Nat := 0x400
def NLA_F_NESTED : Nat := 0x8000

/-! `linux/rtnetlink.h`: an attribute header is `rta_len` and `rta_type` (16 bits each). -/

def sizeofRtattr : Nat := 4

def rtaLen (m : Mem) (rta : Nat) : Nat := m.load16 rta
def rtaType (m : Mem) (rta : Nat) : Nat := m.load16 (rta + 2)

/-- `RTA_ALIGN`, computed in `unsigned int`. -/
def rtaAlign (len : Nat) : Nat := alignUp 4 len % 2 ^ 32
def rtaLength (len : Nat) : Nat := rtaAlign sizeofRtattr + len
def rtaSpace (len : Nat) : Nat := rtaAlign (rtaLength len)
def rtaData (rta : Nat) : Nat := rta + rtaLength 0

/-- `RTA_PAYLOAD` of an attribute that `RTA_OK` accepts. It is a `size_t` and wraps where
`rta_len` is less than a header. -/
def rtaPayload (m : Mem) (rta : Nat) : Int := (rtaLen m rta : Int) - rtaLength 0

def RtaOk (m : Mem) (rta : Nat) (len : Int) : Prop :=
  (sizeofRtattr : Int) ≤ len ∧ sizeofRtattr ≤ rtaLen m rta ∧ (rtaLen m rta : Int) ≤ len

instance (m : Mem) (rta : Nat) (len : Int) : Decidable (RtaOk m rta len) :=
  inferInstanceAs (Decidable (_ ∧ _ ∧ _))

/-- The pointer half of `RTA_NEXT`. -/
def rtaNext (m : Mem) (rta : Nat) : Nat := rta + rtaAlign (rtaLen m rta)

/-- The length half of `RTA_NEXT`. -/
def rtaRest (m : Mem) (rta : Nat) (len : Int) : Int := toInt (len - rtaAlign (rtaLen m rta))

def RTM_NEWLINK : Nat := 16
def RTM_DELLINK : Nat := 17
def RTM_SETLINK : Nat := 19
def RTM_NEWADDR : Nat := 20
def RTM_DELADDR : Nat := 21
def RTM_NEWTFILTER : Nat := 44

/-! `linux/if_link.h` -/

def IFLA_UNSPEC : Nat := 0
def IFLA_ADDRESS : Nat := 1
def IFLA_BROADCAST : Nat := 2
def IFLA_IFNAME : Nat := 3
def IFLA_MTU : Nat := 4
def IFLA_LINK : Nat := 5
def IFLA_QDISC : Nat := 6
def IFLA_STATS : Nat := 7
def IFLA_COST : Nat := 8
def IFLA_PRIORITY : Nat := 9
def IFLA_MASTER : Nat := 10
def IFLA_WIRELESS : Nat := 11
def IFLA_PROTINFO : Nat := 12
def IFLA_TXQLEN : Nat := 13
def IFLA_MAP : Nat := 14
def IFLA_WEIGHT : Nat := 15
def IFLA_OPERSTATE : Nat := 16
def IFLA_LINKMODE : Nat := 17
def IFLA_LINKINFO : Nat := 18
def IFLA_NET_NS_PID : Nat := 19
def IFLA_IFALIAS : Nat := 20
def IFLA_NUM_VF : Nat := 21
def IFLA_VFINFO_LIST : Nat := 22
def IFLA_STATS64 : Nat := 23
def IFLA_VF_PORTS : Nat := 24
def IFLA_PORT_SELF : Nat := 25
def IFLA_AF_SPEC : Nat := 26
def IFLA_GROUP : Nat := 27
def IFLA_NET_NS_FD : Nat := 28
def IFLA_EXT_MASK : Nat := 29
def IFLA_PROMISCUITY : Nat := 30
def IFLA_NUM_TX_QUEUES : Nat := 31
def IFLA_NUM_RX_QUEUES : Nat := 32
def IFLA_CARRIER : Nat := 33
def IFLA_PHYS_PORT_ID : Nat := 34
def IFLA_CARRIER_CHANGES : Nat := 35
def IFLA_PHYS_SWITCH_ID : Nat := 36
def IFLA_LINK_NETNSID : Nat := 37
def IFLA_PHYS_PORT_NAME : Nat := 38
def IFLA_PROTO_DOWN : Nat := 39
def IFLA_GSO_MAX_SEGS : Nat := 40
def IFLA_GSO_MAX_SIZE : Nat := 41
def IFLA_PAD : Nat := 42
def IFLA_XDP : Nat := 43
def IFLA_EVENT : Nat := 44
def IFLA_NEW_NETNSID : Nat := 45
def IFLA_TARGET_NETNSID : Nat := 46
def IFLA_CARRIER_UP_COUNT : Nat := 47
def IFLA_CARRIER_DOWN_COUNT : Nat := 48
def IFLA_NEW_IFINDEX : Nat := 49
def IFLA_MIN_MTU : Nat := 50
def IFLA_MAX_MTU : Nat := 51
def IFLA_PROP_LIST : Nat := 52
def IFLA_ALT_IFNAME : Nat := 53
def IFLA_PERM_ADDRESS : Nat := 54
def IFLA_PROTO_DOWN_REASON : Nat := 55

/-! `linux/if_addr.h` -/

def IFA_UNSPEC : Nat := 0
def IFA_ADDRESS : Nat := 1
def IFA_LOCAL : Nat := 2
def IFA_LABEL : Nat := 3
def IFA_BROADCAST : Nat := 4
def IFA_ANYCAST : Nat := 5
def IFA_CACHEINFO : Nat := 6
def IFA_MULTICAST : Nat := 7
def IFA_FLAGS : Nat := 8
def IFA_RT_PRIORITY : Nat := 9
def IFA_TARGET_NETNSID : Nat := 10

def IFA_F_SECONDARY : Nat := 0x01
def IFA_F_NODAD : Nat := 0x02
def IFA_F_OPTIMISTIC : Nat := 0x04
def IFA_F_DADFAILED : Nat := 0x08
def IFA_F_HOMEADDRESS : Nat := 0x10
def IFA_F_DEPRECATED : Nat := 0x20
def IFA_F_TENTATIVE : Nat := 0x40
def IFA_F_PERMANENT : Nat := 0x80
def IFA_F_MANAGETEMPADDR : Nat := 0x100
def IFA_F_NOPREFIXROUTE : Nat := 0x200
def IFA_F_MCAUTOJOIN : Nat := 0x400
def IFA_F_STABLE_PRIVACY : Nat := 0x800

/-! `net/if.h`: the bits of `ifi_flags`. -/

def IFF_UP : Nat := 1
def IFF_BROADCAST : Nat := 0x2
def IFF_DEBUG : Nat := 0x4
def IFF_LOOPBACK : Nat := 0x8
def IFF_POINTOPOINT : Nat := 0x10
def IFF_NOTRAILERS : Nat := 0x20
def IFF_RUNNING : Nat := 0x40
def IFF_NOARP : Nat := 0x80
def IFF_PROMISC : Nat := 0x100
def IFF_ALLMULTI : Nat := 0x200
def IFF_MASTER : Nat := 0x400
def IFF_SLAVE : Nat := 0x800
def IFF_MULTICAST : Nat := 0x1000
def IFF_PORTSEL : Nat := 0x2000
def IFF_AUTOMEDIA : Nat := 0x4000
def IFF_DYNAMIC : Nat := 0x8000
def IFF_LOWER_UP : Nat := 0x10000
def IFF_DORMANT : Nat := 0x20000
def IFF_ECHO : Nat := 0x40000

/-- `struct ifinfomsg`: family and padding (8 bits each), type (16), index, flags, change (32). -/
def sizeofIfinfomsg : Nat := 16

/-- `struct ifaddrmsg`: family, prefixlen, flags, scope (8 bits each), index (32). -/
def sizeofIfaddrmsg : Nat := 8

/-- `struct tcmsg`: family (8 bits), padding (24), ifindex, handle, parent, info (32 each). -/
def sizeofTcmsg : Nat := 20

@[simp] theorem nlmsgHdrlen_eq : nlmsgHdrlen = 16 := by decide
@[simp] theorem rtaLength_eq (n : Nat) : rtaLength n = 4 + n := rfl
@[simp] theorem rtaData_eq (p : Nat) : rtaData p = p + 4 := rfl
@[simp] theorem nlmsgData_eq (p : Nat) : nlmsgData p = p + 16 := rfl

theorem rtaAlign_eq {n : Nat} (h : n < 2 ^ 31) : rtaAlign n = alignUp 4 n := by
  have hn := alignUp_lt 4 n
  exact Nat.mod_eq_of_lt (by omega)

theorem nlmsgAlign_eq {n : Nat} (h : n < 2 ^ 31) : nlmsgAlign n = alignUp 4 n := rtaAlign_eq h

theorem rtaSpace_eq {n : Nat} (h : n < 2 ^ 30) : rtaSpace n = alignUp 4 (4 + n) := by
  rw [rtaSpace, rtaLength_eq, rtaAlign_eq (by omega)]

/-! The two walks as record streams. -/

def rtaFormat : Format where
  hdr := 4
  align := 4
  sizeOf bs := leValue (bs.take 2)
  hdr_pos := by decide
  align_pos := by decide

def nlmsgFormat : Format where
  hdr := 16
  align := 4
  sizeOf bs := leValue (bs.take 4)
  hdr_pos := by decide
  align_pos := by decide

@[simp] theorem rtaFormat_size (m : Mem) (p : Nat) : rtaFormat.size m p = rtaLen m p := by
  rw [Format.size, rtaLen, Mem.load16]
  exact congrArg leValue (m.bytes_take p (k := 2) (n := 4) (by decide))

@[simp] theorem nlmsgFormat_size (m : Mem) (p : Nat) : nlmsgFormat.size m p = nlmsgLen m p := by
  rw [Format.size, nlmsgLen, Mem.load32]
  exact congrArg leValue (m.bytes_take p (k := 4) (n := 16) (by decide))

theorem rtaOk_iff {m : Mem} {p : Nat} {len : Int} : RtaOk m p len ↔ rtaFormat.Ok m p len := by
  rw [Format.Ok, rtaFormat_size]
  rfl

theorem nlmsgOk_iff {m : Mem} {p : Nat} {len : Int} (h : len < 2 ^ 31) :
    NlmsgOk m p len ↔ nlmsgFormat.Ok m p len := by
  rw [Format.Ok, nlmsgFormat_size, NlmsgOk]
  apply and_congr_right
  intro h16
  rw [toUnsigned_of_range (by have := h16; simp only [sizeofNlmsghdr] at this; omega) (by omega)]
  rfl

theorem walk_of_not_rtaOk {m : Mem} {p : Nat} {len : Int} (h : ¬RtaOk m p len) :
    rtaFormat.walk m p len = [] := by
  apply rtaFormat.walk_of_not_ok
  intro hok
  exact h (rtaOk_iff.mpr hok)

theorem rtaAlign_rtaLen (m : Mem) (p : Nat) : rtaAlign (rtaLen m p) = rtaFormat.step m p := by
  have h := m.load16_lt p
  rw [Format.step, rtaFormat_size, rtaAlign_eq (by rw [rtaLen]; omega)]
  rfl

theorem rtaNext_eq (m : Mem) (p : Nat) : rtaNext m p = p + rtaFormat.step m p := by
  rw [rtaNext, rtaAlign_rtaLen]

/-- No conversion in `RTA_NEXT` changes a value once `RTA_OK` has accepted the attribute. -/
theorem rtaRest_eq {m : Mem} {p : Nat} {len : Int} (h : RtaOk m p len) (hl : len < 2 ^ 31) :
    rtaRest m p len = len - rtaFormat.step m p := by
  obtain ⟨h4, -, hle⟩ := h
  have hs := alignUp_lt 4 (rtaLen m p)
  rw [rtaRest, rtaAlign_rtaLen]
  have hst : rtaFormat.step m p = alignUp 4 (rtaLen m p) := by
    rw [Format.step, rtaFormat_size]
    rfl
  exact toInt_of_range (by omega) (by omega)

theorem nlmsgAlign_nlmsgLen {m : Mem} {p : Nat} {len : Int} (h : NlmsgOk m p len)
    (hl : len < 2 ^ 31) : nlmsgAlign (nlmsgLen m p) = nlmsgFormat.step m p := by
  obtain ⟨-, -, hle⟩ := (nlmsgOk_iff hl).mp h
  rw [nlmsgFormat_size] at hle
  rw [Format.step, nlmsgFormat_size, nlmsgAlign_eq (by omega)]
  rfl

theorem nlmsgRest_eq {m : Mem} {p : Nat} {len : Int} (h : NlmsgOk m p len) (hl : len < 2 ^ 31) :
    nlmsgRest m p len = len - nlmsgFormat.step m p := by
  rw [nlmsgRest, nlmsgAlign_nlmsgLen h hl]
  obtain ⟨h16, -, hle⟩ := (nlmsgOk_iff hl).mp h
  have hs := alignUp_lt 4 (nlmsgFormat.size m p)
  have hst : nlmsgFormat.step m p = alignUp 4 (nlmsgFormat.size m p) := rfl
  exact toInt_of_range (by omega) (by omega)

theorem rtaRest_toNat_lt {m : Mem} {p : Nat} {len : Int} (h : RtaOk m p len) :
    (rtaRest m p len).toNat < len.toNat := by
  have h4 : (4 : Int) ≤ len := h.1
  by_cases hl : len < 2 ^ 31
  · rw [rtaRest_eq h hl]
    have hs := rtaFormat.size_le_step m p
    have hm : 4 ≤ rtaFormat.size m p := (rtaOk_iff.mp h).2.1
    omega
  · have hr := toInt_lt (len - rtaAlign (rtaLen m p))
    rw [rtaRest]
    omega

theorem nlmsgRest_toNat_lt {m : Mem} {p : Nat} {len : Int} (h : NlmsgOk m p len) :
    (nlmsgRest m p len).toNat < len.toNat := by
  have h16 : (16 : Int) ≤ len := h.1
  by_cases hl : len < 2 ^ 31
  · rw [nlmsgRest_eq h hl]
    have hs := nlmsgFormat.size_le_step m p
    have hm : 16 ≤ nlmsgFormat.size m p := ((nlmsgOk_iff hl).mp h).2.1
    omega
  · have hr := toInt_lt (len - nlmsgAlign (nlmsgLen m p))
    rw [nlmsgRest]
    omega

end SnippetsC.Netlink
