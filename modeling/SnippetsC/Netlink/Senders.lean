import SnippetsC.Netlink.AddVeth
import SnippetsC.Netlink.Content
import SnippetsC.Netlink.LinkCommand

namespace SnippetsC.Netlink

/-! The requests of `add-addr`, `del-addr`, `del-link`, `set-netns-fd`, `get-links`, `add-veth` and
`add-veth-ifname1`. -/

def RTM_GETLINK : Nat := 18
def NLM_F_DUMP : Nat := 0x300
def AF_INET : Nat := 2
def AF_PACKET : Nat := 17

def sizeofRtgenmsg : Nat := 1

/-- The bytes of a word in the other order. -/
def ntohl (v : UInt32) : UInt32 := .ofNat (leValue (leBytes 4 v.toNat).reverse)

/-- The stores of `send_request` in `add-addr` and `del-addr`; `ifa_scope` is left at zero. -/
def fillAddrRequest (m : Mem) (type flags : Nat) (ifindex : UInt32) (prefixlen : UInt8)
    (ifAddr : UInt32) : Mem :=
  let ifa := sizeofNlmsghdr
  let m := fillHeader m (nlmsgLength sizeofIfaddrmsg) type flags
  let m := m.store8 ifa AF_INET
  let m := m.store8 (ifa + 1) prefixlen.toNat
  let m := m.store8 (ifa + 2) IFA_F_PERMANENT
  let m := m.store32 (ifa + 4) ifindex.toNat
  let addrRta := nlmsgAlign (nlmsgLen m 0)
  let m := addAttr m addrRta IFA_LOCAL (rtaLength 4) (leBytes 4 (ntohl ifAddr).toNat)
  setNlmsgLen m (nlmsgAlign (nlmsgLen m 0) + rtaLen m addrRta)

/-- What `sendmsg` is given; `req` is the header, an `ifaddrmsg` and 512 bytes. -/
def sendAddrRequest (stack : Mem) (type flags : Nat) (ifindex : UInt32) (prefixlen : UInt8)
    (ifAddr : UInt32) : List UInt8 :=
  let req := stack.clear 0 (sizeofNlmsghdr + sizeofIfaddrmsg + 512)
  let m := fillAddrRequest req type flags ifindex prefixlen ifAddr
  m.bytes 0 (nlmsgLen m 0)

namespace AddAddr

/-- `"veth0"`. -/
def IF_NAME : CString := ⟨[0x76, 0x65, 0x74, 0x68, 0x30], by decide⟩
def IF_ADDR : UInt32 := 0xC0A80117
def IF_PREFIXLEN : UInt8 := 24

/-- `send_request`; `ifindex` is `if_nametoindex(IF_NAME)`. -/
def sendRequest (stack : Mem) (ifindex : UInt32) (prefixlen : UInt8) (ifAddr : UInt32) :
    List UInt8 :=
  sendAddrRequest stack RTM_NEWADDR (NLM_F_REQUEST ||| NLM_F_CREATE) ifindex prefixlen ifAddr

/-- `main`, up to its call of `sendmsg`. -/
def main (stack : Mem) (socketFd bindRc : Int32) (ifaces : Interfaces) : Sendmsg :=
  ⟨createSocket socketFd bindRc,
    sendRequest stack (ifaces.ifNametoindex IF_NAME) IF_PREFIXLEN IF_ADDR⟩

end AddAddr

namespace DelAddr

def IF_NAME : CString := ⟨[0x76, 0x65, 0x74, 0x68, 0x30], by decide⟩
def IF_ADDR : UInt32 := 0xC0A80117
def IF_PREFIXLEN : UInt8 := 24

def sendRequest (stack : Mem) (ifindex : UInt32) (prefixlen : UInt8) (ifAddr : UInt32) :
    List UInt8 :=
  sendAddrRequest stack RTM_DELADDR NLM_F_REQUEST ifindex prefixlen ifAddr

def main (stack : Mem) (socketFd bindRc : Int32) (ifaces : Interfaces) : Sendmsg :=
  ⟨createSocket socketFd bindRc,
    sendRequest stack (ifaces.ifNametoindex IF_NAME) IF_PREFIXLEN IF_ADDR⟩

end DelAddr

namespace DelLink

/-- `send_request`; `req` is just the header and an `ifinfomsg`. -/
def sendRequest (stack : Mem) (ifindex : UInt32) : List UInt8 :=
  let req := stack.clear 0 (sizeofNlmsghdr + sizeofIfinfomsg)
  let m := fillLink req RTM_DELLINK ifindex
  m.bytes 0 (nlmsgLen m 0)

def main (stack : Mem) (socketFd bindRc : Int32) (ifaces : Interfaces) (argv : List CString) :
    Option Sendmsg :=
  match argv with
  | _ :: ifName :: _ =>
    some ⟨createSocket socketFd bindRc, sendRequest stack (ifaces.ifNametoindex ifName)⟩
  | _ => none

end DelLink

namespace SetNetnsFd

def sendRequest (stack : Mem) (ifindex : UInt32) (targetFd : Int32) : List UInt8 :=
  let req := stack.clear 0 (sizeofNlmsghdr + sizeofIfinfomsg + 512)
  let m := fillLink req RTM_SETLINK ifindex
  let rta := nlmsgAlign (nlmsgLen m 0)
  let m := addAttr m rta IFLA_NET_NS_FD (rtaLength 4) (leBytes 4 targetFd.toUInt32.toNat)
  let m := setNlmsgLen m (nlmsgAlign (nlmsgLen m 0) + rtaLen m rta)
  m.bytes 0 (nlmsgLen m 0)

/-- `main`, up to its call of `sendmsg`; `netnsFd` is what `open(argv[2], O_RDONLY)` returns. -/
def main (stack : Mem) (netnsFd socketFd bindRc : Int32) (ifaces : Interfaces)
    (argv : List CString) : Option Sendmsg :=
  match argv with
  | _ :: ifName :: _ :: _ =>
    if netnsFd = -1 then none
    else
      let sockFd := createSocket socketFd bindRc
      some ⟨sockFd, sendRequest stack (ifaces.ifNametoindex ifName) netnsFd⟩
  | _ => none

end SetNetnsFd

namespace GetLinks

/-- `send_request`; `req` is the header and a `rtgenmsg` with its padding. -/
def sendRequest (stack : Mem) : List UInt8 :=
  let req := stack.clear 0 (alignUp 4 (sizeofNlmsghdr + sizeofRtgenmsg))
  let m := fillHeader req (nlmsgLength sizeofRtgenmsg) RTM_GETLINK (NLM_F_REQUEST ||| NLM_F_DUMP)
  let m := m.store8 sizeofNlmsghdr AF_PACKET
  m.bytes 0 (nlmsgLen m 0)

end GetLinks

namespace AddVeth

/-- The link info attribute and the update of the message length behind it; its own length comes
last. -/
def addLinkInfo (m : Mem) (kind : CString) : Mem :=
  let infoRta := nlmsgAlign (nlmsgLen m 0)
  let m := m.store16 (infoRta + 2) (IFLA_LINKINFO ||| NLA_F_NESTED)
  let kindRta := rtaData infoRta
  let m := addAttr m kindRta IFLA_INFO_KIND (rtaLength (kind.strnlen KIND_MAXLEN))
    (kind.bytes.take (kind.strnlen KIND_MAXLEN))
  let m := setRtaLen m infoRta (rtaLength (rtaLen m kindRta))
  setNlmsgLen m (nlmsgAlign (nlmsgLen m 0) + rtaLen m infoRta)

/-- `send_request`; `req` is the header, an `ifinfomsg` and 1024 bytes. -/
def sendRequest (stack : Mem) (kind : CString) : List UInt8 :=
  let req := stack.clear 0 (sizeofNlmsghdr + sizeofIfinfomsg + 1024)
  let m := fillHeader req (nlmsgLength sizeofIfinfomsg) RTM_NEWLINK (NLM_F_REQUEST ||| NLM_F_CREATE)
  let m := AddVethIfname2.fillIfi m sizeofNlmsghdr
  let m := addLinkInfo m kind
  m.bytes 0 (nlmsgLen m 0)

end AddVeth

namespace AddVethIfname1

/-- `send_request`, which names the first of the two interfaces. -/
def sendRequest (stack : Mem) (ifName1 kind : CString) : List UInt8 :=
  let req := stack.clear 0 (sizeofNlmsghdr + sizeofIfinfomsg + 1024)
  let m := fillHeader req (nlmsgLength sizeofIfinfomsg) RTM_NEWLINK (NLM_F_REQUEST ||| NLM_F_CREATE)
  let m := AddVethIfname2.fillIfi m sizeofNlmsghdr
  let ifname1Rta := nlmsgAlign (nlmsgLen m 0)
  let m := AddVethIfname2.addIfname m ifname1Rta ifName1
  let m := setNlmsgLen m (nlmsgAlign (nlmsgLen m 0) + rtaLen m ifname1Rta)
  let m := AddVeth.addLinkInfo m kind
  m.bytes 0 (nlmsgLen m 0)

end AddVethIfname1

/-! The requests as messages. -/

def addrBytes (ifindex : UInt32) (prefixlen : UInt8) : List UInt8 :=
  leBytes 1 AF_INET ++ (leBytes 1 prefixlen.toNat ++ (leBytes 1 IFA_F_PERMANENT ++
    (leBytes 1 0 ++ leBytes 4 ifindex.toNat)))

/-- The address goes out in network byte order. -/
def localAttr (ifAddr : UInt32) : Rtattr := ⟨.ofNat IFA_LOCAL, (leBytes 4 ifAddr.toNat).reverse⟩

def fdAttr (targetFd : Int32) : Rtattr :=
  ⟨.ofNat IFLA_NET_NS_FD, leBytes 4 targetFd.toUInt32.toNat⟩

/-- A link info attribute with nothing but a kind. -/
def kindInfoAttr (kind : CString) : Rtattr :=
  ⟨.ofNat (IFLA_LINKINFO ||| NLA_F_NESTED), (AddVethIfname2.kindAttr kind).data⟩

theorem leBytes_ntohl (v : UInt32) : leBytes 4 (ntohl v).toNat = (leBytes 4 v.toNat).reverse := by
  have h := leBytes_leValue (leBytes 4 v.toNat).reverse
  have hlt := leValue_lt (leBytes 4 v.toNat).reverse
  rw [List.length_reverse, leBytes_length] at h hlt
  rw [ntohl, UInt32.toNat_ofNat', Nat.mod_eq_of_lt (by omega)]
  exact h

section filled

variable {m : Mem} {lim : Nat}

/-- An attribute at the aligned end of a message, and the message length behind it. -/
theorem filled_lastAttr {len : Nat} {bs : List UInt8} (h : Filled m 0 lim (leBytes 4 len ++ bs))
    (hlen : len = 4 + bs.length) (hsmall : len < 65536) (a : Rtattr) {p t l : Nat}
    (hp : p = nlmsgAlign (nlmsgLen m 0)) (ht : t = a.type.toNat) (hn : l = 4 + a.payload.length)
    (hl : alignUp 4 len + l ≤ lim) (hf : l < 65536) :
    Filled (setNlmsgLen (addAttr m p t l a.payload)
        (nlmsgAlign (nlmsgLen (addAttr m p t l a.payload) 0) +
          rtaLen (addAttr m p t l a.payload) p)) 0 lim
      (leBytes 4 (alignUp 4 len + l) ++
        (bs ++ (List.replicate (alignUp 4 len - len) 0 ++ a.data))) := by
  have hle := le_alignUp 4 len
  rw [nlmsgLen_of_filled h (by omega), nlmsgAlign_eq (by omega)] at hp
  have h1 := filled_attr (p := p) h (alignUp 4 len - len) a (by simp; omega) ht hn (by omega)
  have h2 := h1
  rw [← List.append_assoc] at h2
  have hrta := rtaLen_of_holds (h2.behind (q := p) (by simp; omega)) (by omega)
  rw [List.append_assoc] at h1
  have hnl := nlmsgLen_of_filled h1 (by omega)
  exact filled_setNlmsgLen h1 (by rw [hnl, hrta, nlmsgAlign_eq (by omega), hn])

theorem sendAddrRequest_eq (stack : Mem) (type flags : Nat) (ifindex : UInt32)
    (prefixlen : UInt8) (ifAddr : UInt32) :
    sendAddrRequest stack type flags ifindex prefixlen ifAddr =
      Content.message ⟨type, flags, addrBytes ifindex prefixlen, [localAttr ifAddr]⟩ := by
  have h0 := Filled.clear stack 0 536
  have h1 := filled_fillHeader h0 (by decide) 24 type flags
  have h2 := h1.append 0 (leBytes 1 AF_INET) (q := 16) (by simp) (by simp)
  have h3 := h2.append 0 (leBytes 1 prefixlen.toNat) (q := 17) (by simp) (by simp)
  have h4 := h3.append 0 (leBytes 1 IFA_F_PERMANENT) (q := 18) (by simp) (by simp)
  have h5 := h4.append 1 (leBytes 4 ifindex.toNat) (q := 20) (by simp) (by simp)
  simp only [List.append_assoc, List.replicate_zero, List.nil_append] at h5
  have h6 := filled_lastAttr (t := IFA_LOCAL) (l := rtaLength 4) h5 (by simp) (by decide)
    (localAttr ifAddr) rfl rfl (by simp [localAttr, rtaLength_eq]) (by decide) (by decide)
  have hpay : leBytes 4 (ntohl ifAddr).toNat = (localAttr ifAddr).payload := leBytes_ntohl ifAddr
  have h7 : Filled (fillAddrRequest (stack.clear 0 536) type flags ifindex prefixlen ifAddr) 0 536
      (Content.message ⟨type, flags, addrBytes ifindex prefixlen, [localAttr ifAddr]⟩) := by
    rw [fillAddrRequest]
    simp only [hpay, Content.message, addrBytes, encodeTight, List.append_assoc] at h6 ⊢
    exact h6
  exact Content.sent_of_filled h7 (by simp [Content.len, addrBytes, encodeTight, localAttr])

theorem filled_kindInfo {len : Nat} {bs : List UInt8} (h : Filled m 0 lim (leBytes 4 len ++ bs))
    (hlen : len = 4 + bs.length) (hsmall : len < 65536) (kind : CString)
    (hl : alignUp 4 len + 13 ≤ lim) :
    Filled (AddVeth.addLinkInfo m kind) 0 lim
      (leBytes 4 (alignUp 4 len + (8 + kind.strnlen KIND_MAXLEN)) ++
        (bs ++ (List.replicate (alignUp 4 len - len) 0 ++ (kindInfoAttr kind).data))) := by
  have hkind := AddVethIfname2.kindAttr_length kind
  have hcap : kind.strnlen KIND_MAXLEN ≤ 5 := kind.strnlen_le _
  have hle := le_alignUp 4 len
  have hp : nlmsgAlign (nlmsgLen m 0) = alignUp 4 len := by
    rw [nlmsgLen_of_filled h (by omega), nlmsgAlign_eq (by omega)]
  have h1 := h.append (alignUp 4 len - len + 2) (leBytes 2 (IFLA_LINKINFO ||| NLA_F_NESTED))
    (q := alignUp 4 len + 2) (by simp; omega) (by simp; omega)
  -- the type is stored first; the length of the attribute is still zero
  have hzero : List.replicate (alignUp 4 len - len + 2) 0 ++
      leBytes 2 (IFLA_LINKINFO ||| NLA_F_NESTED) = List.replicate (alignUp 4 len - len) 0 ++
        rtaBytes (IFLA_LINKINFO ||| NLA_F_NESTED) 0 := by
    rw [List.replicate_add, List.append_assoc]
    rfl
  rw [hzero, ← List.append_assoc] at h1
  have hlk : rtaLength (kind.strnlen KIND_MAXLEN) =
      4 + (AddVethIfname2.kindAttr kind).payload.length := by
    rw [hkind, rtaLength_eq]
  have h2 := filled_attr (p := rtaData (alignUp 4 len)) h1 0 (AddVethIfname2.kindAttr kind)
    (by simp; omega) rfl hlk (by rw [rtaData_eq, rtaLength_eq]; omega)
  rw [List.replicate_zero, List.nil_append] at h2
  have hrta := rtaLen_of_holds (h2.behind (q := rtaData (alignUp 4 len)) (by simp; omega)) (by omega)
  rw [List.append_assoc] at h2
  have hinfo : 4 + (kindInfoAttr kind).payload.length = 8 + kind.strnlen KIND_MAXLEN := by
    rw [kindInfoAttr, Rtattr.data_length, hkind]
    omega
  have hnew : rtaLength (rtaLen _ (rtaData (alignUp 4 len))) =
      4 + (kindInfoAttr kind).payload.length :=
    (congrArg rtaLength hrta).trans (by rw [rtaLength_eq, hkind, hinfo]; omega)
  have h3 := filled_setRtaLen (p := alignUp 4 len) h2 (by simp; omega) hnew
  have hdata : rtaBytes (IFLA_LINKINFO ||| NLA_F_NESTED) (4 + (kindInfoAttr kind).payload.length) ++
      (AddVethIfname2.kindAttr kind).data = (kindInfoAttr kind).data :=
    rtaBytes_payload (kindInfoAttr kind)
  rw [hdata] at h3
  have hrta' := rtaLen_of_holds (h3.behind (q := alignUp 4 len) (by simp; omega)) (by omega)
  simp only [List.append_assoc] at h3
  have hnl := nlmsgLen_of_filled h3 (by omega)
  rw [AddVeth.addLinkInfo, CString.take_strnlen]
  simp only [hp]
  refine filled_setNlmsgLen h3 ?_
  exact (congrArg₂ (fun l r => nlmsgAlign l + r) hnl hrta').trans
    (by rw [nlmsgAlign_eq (by omega), hinfo])

end filled

theorem SetNetnsFd.sendRequest_eq (stack : Mem) (ifindex : UInt32) (targetFd : Int32) :
    sendRequest stack ifindex targetFd =
      linkMessage RTM_SETLINK ifindex 0 (fdAttr targetFd).data := by
  have hlen : rtaLength 4 = 4 + (fdAttr targetFd).payload.length := by
    rw [rtaLength_eq, fdAttr, leBytes_length]
  exact sent_linkAttr stack _ _ (fdAttr targetFd) rfl hlen (by decide)

theorem DelLink.sendRequest_eq (stack : Mem) (ifindex : UInt32) :
    sendRequest stack ifindex = linkMessage RTM_DELLINK ifindex 0 [] := by
  have h0 := Filled.clear stack 0 32
  have h1 : Filled _ 0 32 (_ ++ linkHead RTM_DELLINK ifindex 0) := filled_fillLink h0 (by decide)
  rw [← List.append_nil (linkHead _ _ _)] at h1
  exact sent_of_filled h1 (by decide)

theorem GetLinks.sendRequest_eq (stack : Mem) : sendRequest stack =
    Content.message ⟨RTM_GETLINK, NLM_F_REQUEST ||| NLM_F_DUMP, leBytes 1 AF_PACKET, []⟩ := by
  have h0 := Filled.clear stack 0 20
  have h1 := filled_fillHeader h0 (by decide) 17 RTM_GETLINK (NLM_F_REQUEST ||| NLM_F_DUMP)
  have h2 := h1.append 0 (leBytes 1 AF_PACKET) (q := 16) (by simp) (by simp)
  rw [List.append_assoc] at h2
  exact h2.bytes_eq (nlmsgLen_of_filled h2 (by decide))

theorem kindInfoAttr_data_length (kind : CString) :
    (kindInfoAttr kind).data.length = 8 + kind.strnlen KIND_MAXLEN := by
  rw [Rtattr.data_length, kindInfoAttr, Rtattr.data_length, AddVethIfname2.kindAttr_length]
  omega

/-- The message of `add-veth`. -/
def vethContent (attrs : List Rtattr) : Content :=
  ⟨RTM_NEWLINK, NLM_F_REQUEST ||| NLM_F_CREATE, AddVethIfname2.ifinfo, attrs⟩

theorem AddVeth.sendRequest_eq (stack : Mem) (kind : CString) :
    sendRequest stack kind = (vethContent [kindInfoAttr kind]).message := by
  have hcap : kind.strnlen KIND_MAXLEN ≤ 5 := kind.strnlen_le _
  have h0 := Filled.clear stack 0 1056
  have h1 := filled_fillHeader h0 (by decide) 32 RTM_NEWLINK (NLM_F_REQUEST ||| NLM_F_CREATE)
  have h2 := AddVethIfname2.filled_fillIfi (p := sizeofNlmsghdr) h1 rfl (by decide)
  rw [List.append_assoc] at h2
  have h3 := filled_kindInfo h2 (by decide) (by decide) kind (by decide)
  have hlen : (vethContent [kindInfoAttr kind]).len = 32 + (8 + kind.strnlen KIND_MAXLEN) := by
    rw [Content.len, vethContent, encodeTight, kindInfoAttr_data_length]
    rfl
  have hgap : alignUp 4 32 = 32 := by decide
  rw [hgap, Nat.sub_self, List.replicate_zero, List.nil_append, List.append_assoc, ← hlen] at h3
  exact Content.sent_of_filled h3 (by omega)

theorem AddVethIfname1.sendRequest_eq (stack : Mem) (ifName1 kind : CString) :
    sendRequest stack ifName1 kind =
      (vethContent [AddVethIfname2.ifnameAttr ifName1, kindInfoAttr kind]).message := by
  have hcap : kind.strnlen KIND_MAXLEN ≤ 5 := kind.strnlen_le _
  have hcap1 : ifName1.strnlen IF_MAXLEN ≤ 15 := ifName1.strnlen_le _
  have hname := AddVethIfname2.ifnameAttr_length ifName1
  have h0 := Filled.clear stack 0 1056
  have h1 := filled_fillHeader h0 (by decide) 32 RTM_NEWLINK (NLM_F_REQUEST ||| NLM_F_CREATE)
  have h2 := AddVethIfname2.filled_fillIfi (p := sizeofNlmsghdr) h1 rfl (by decide)
  rw [List.append_assoc] at h2
  have h3 : Filled _ 0 1056 (leBytes 4 (32 + (4 + (AddVethIfname2.ifnameAttr ifName1).payload.length))
      ++ (AddVethIfname2.head ++ (AddVethIfname2.ifnameAttr ifName1).data)) :=
    AddVethIfname2.filled_ifname1 h2 rfl
  have hal : alignUp 4 (32 + (4 + (AddVethIfname2.ifnameAttr ifName1).payload.length)) =
      32 + (AddVethIfname2.ifnameAttr ifName1).room := by
    rw [alignUp_add (by decide), Rtattr.room]
  have hroom := alignUp_lt 4 (4 + (AddVethIfname2.ifnameAttr ifName1).payload.length)
  rw [← Rtattr.room] at hroom
  have h4 := filled_kindInfo h3 (by simp; omega) (by omega) kind (by omega)
  have hlen : (vethContent [AddVethIfname2.ifnameAttr ifName1, kindInfoAttr kind]).len =
      32 + (AddVethIfname2.ifnameAttr ifName1).room + (8 + kind.strnlen KIND_MAXLEN) := by
    simp only [Content.len, vethContent, encodeTight, List.length_append, Rtattr.padded_length,
      kindInfoAttr_data_length, AddVethIfname2.ifinfo_length]
    omega
  have hgap : 32 + (AddVethIfname2.ifnameAttr ifName1).room -
      (32 + (4 + (AddVethIfname2.ifnameAttr ifName1).payload.length)) =
        (AddVethIfname2.ifnameAttr ifName1).gap := by
    rw [Rtattr.gap]
    omega
  rw [hal, hgap, ← hlen] at h4
  have hmsg : leBytes 4 (vethContent [AddVethIfname2.ifnameAttr ifName1, kindInfoAttr kind]).len ++
      ((AddVethIfname2.head ++ (AddVethIfname2.ifnameAttr ifName1).data) ++
        (List.replicate (AddVethIfname2.ifnameAttr ifName1).gap 0 ++ (kindInfoAttr kind).data)) =
      (vethContent [AddVethIfname2.ifnameAttr ifName1, kindInfoAttr kind]).message := by
    simp only [Content.message, vethContent, encodeTight, AddVethIfname2.head, Rtattr.padded,
      List.append_assoc]
  rw [hmsg] at h4
  exact Content.sent_of_filled h4 (by omega)

end SnippetsC.Netlink
