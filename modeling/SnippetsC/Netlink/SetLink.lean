import SnippetsC.Netlink.Request

namespace SnippetsC.Netlink

/-! The requests of `set-mtu`, `set-ifname` and `set-link-up`. -/

def AF_UNSPEC : Nat := 0

/-- Header and interface info, which the three programs fill alike. -/
def fillLink (m : Mem) (type : Nat) (ifindex : UInt32) : Mem :=
  let m := fillHeader m (nlmsgLength sizeofIfinfomsg) type NLM_F_REQUEST
  let m := m.store8 sizeofNlmsghdr AF_UNSPEC
  let m := m.store32 (sizeofNlmsghdr + 4) ifindex.toNat
  m.store32 (sizeofNlmsghdr + 12) 0xffffffff

namespace SetMtu

def IF_INDEX : UInt32 := 1
def IF_MTU : Nat := 65534

/-- `send_request`: what `sendmsg` is given. -/
def sendRequest (stack : Mem) : List UInt8 :=
  let req := stack.clear 0 (sizeofNlmsghdr + sizeofIfinfomsg + 512)
  let m := fillLink req RTM_NEWLINK IF_INDEX
  let rta := nlmsgAlign (nlmsgLen m 0)
  let m := addAttr m rta IFLA_MTU (rtaLength 4) (leBytes 4 IF_MTU)
  let m := setNlmsgLen m (nlmsgAlign (nlmsgLen m 0) + rtaLength 4)
  m.bytes 0 (nlmsgLen m 0)

end SetMtu

namespace SetIfname

/-- `send_request`; `ifindex` is `if_nametoindex(old_name)`. -/
def sendRequest (stack : Mem) (ifindex : UInt32) (newName : CString) : List UInt8 :=
  let req := stack.clear 0 (sizeofNlmsghdr + sizeofIfinfomsg + 512)
  let m := fillLink req RTM_NEWLINK ifindex
  let rta := nlmsgAlign (nlmsgLen m 0)
  let m := addAttr m rta IFLA_IFNAME (rtaLength (newName.strnlen 15))
    (newName.bytes.take (newName.strnlen 15))
  let m := setNlmsgLen m (nlmsgAlign (nlmsgLen m 0) + rtaLen m rta)
  m.bytes 0 (nlmsgLen m 0)

end SetIfname

namespace SetLinkUp

/-- `send_request`; `ifindex` is `if_nametoindex(if_name)`. -/
def sendRequest (stack : Mem) (ifindex : UInt32) : List UInt8 :=
  let req := stack.clear 0 (sizeofNlmsghdr + sizeofIfinfomsg)
  let m := fillLink req RTM_SETLINK ifindex
  let m := m.store32 (sizeofNlmsghdr + 8) (m.load32 (sizeofNlmsghdr + 8) ||| IFF_UP)
  m.bytes 0 (nlmsgLen m 0)

end SetLinkUp

/-! The messages. -/

/-- An `ifinfomsg` with a change mask of all ones. -/
def ifiBytes (ifindex : UInt32) (flags : Nat) : List UInt8 :=
  leBytes 1 AF_UNSPEC ++ (List.replicate 3 0 ++ (leBytes 4 ifindex.toNat ++
    (leBytes 4 flags ++ leBytes 4 0xffffffff)))

def linkHead (type : Nat) (ifindex : UInt32) (flags : Nat) : List UInt8 :=
  hdrTail type NLM_F_REQUEST ++ ifiBytes ifindex flags

/-- A link request with the attribute bytes `attrs`. -/
def linkMessage (type : Nat) (ifindex : UInt32) (flags : Nat) (attrs : List UInt8) : List UInt8 :=
  leBytes 4 (32 + attrs.length) ++ (linkHead type ifindex flags ++ attrs)

@[simp] theorem linkHead_length (type : Nat) (ifindex : UInt32) (flags : Nat) :
    (linkHead type ifindex flags).length = 28 := by
  simp [linkHead, ifiBytes]

/-- The part in front of `ifi_flags`. -/
def linkFront (len type : Nat) (ifindex : UInt32) : List UInt8 :=
  leBytes 4 len ++ (hdrTail type NLM_F_REQUEST ++
    (leBytes 1 AF_UNSPEC ++ (List.replicate 3 0 ++ leBytes 4 ifindex.toNat)))

@[simp] theorem linkFront_length (len type : Nat) (ifindex : UInt32) :
    (linkFront len type ifindex).length = 24 := by
  simp [linkFront]

theorem linkHead_split (len type : Nat) (ifindex : UInt32) (flags : Nat) (attrs : List UInt8) :
    leBytes 4 len ++ (linkHead type ifindex flags ++ attrs) =
      linkFront len type ifindex ++ (leBytes 4 flags ++ (leBytes 4 0xffffffff ++ attrs)) := by
  simp only [linkHead, ifiBytes, linkFront, List.append_assoc]

section filled

variable {m : Mem} {lim : Nat} {type : Nat} {ifindex : UInt32}

theorem filled_fillLink (h : Filled m 0 lim []) (hl : 32 ≤ lim) :
    Filled (fillLink m type ifindex) 0 lim (leBytes 4 32 ++ linkHead type ifindex 0) := by
  have h1 := filled_fillHeader h (by omega) 32 type NLM_F_REQUEST
  have h2 := h1.append 0 (leBytes 1 AF_UNSPEC) (q := 16) (by simp) (by simp; omega)
  have h3 := h2.append 3 (leBytes 4 ifindex.toNat) (q := 20) (by simp) (by simp; omega)
  have h4 := h3.append 4 (leBytes 4 0xffffffff) (q := 28) (by simp) (by simp; omega)
  simp only [List.append_assoc] at h4
  exact h4

/-- One attribute behind the interface info, with the two lengths that are read back. -/
theorem filled_linkAttr (h : Filled m 0 lim (leBytes 4 32 ++ linkHead type ifindex 0)) (a : Rtattr)
    {p t l : Nat} (hp : p = nlmsgAlign (nlmsgLen m 0)) (ht : t = a.type.toNat)
    (hn : l = 4 + a.payload.length) (hl : 32 + l ≤ lim) (hf : l < 65536) :
    Filled (addAttr m p t l a.payload) 0 lim (leBytes 4 32 ++ (linkHead type ifindex 0 ++ a.data)) ∧
      nlmsgLen (addAttr m p t l a.payload) 0 = 32 ∧ rtaLen (addAttr m p t l a.payload) p = l := by
  have h32 : p = 32 := by
    rw [hp, nlmsgLen_of_filled h (by decide)]
    rfl
  have h1 := filled_attr (p := p) h 0 a (by rw [h32]; simp) ht hn (by omega)
  rw [List.replicate_zero, List.nil_append] at h1
  have hrl := rtaLen_of_holds (h1.behind (q := p) (by rw [h32]; simp)) (by omega)
  rw [List.append_assoc] at h1
  exact ⟨h1, nlmsgLen_of_filled h1 (by decide), hrl.trans hn.symm⟩

theorem sent_of_filled {flags : Nat} {attrs : List UInt8}
    (h : Filled m 0 lim (linkMessage type ifindex flags attrs)) (hl : attrs.length < 65536) :
    m.bytes 0 (nlmsgLen m 0) = linkMessage type ifindex flags attrs := by
  have hn := nlmsgLen_of_filled h (by omega)
  apply h.bytes_eq
  rw [hn, linkMessage, List.length_append, List.length_append, leBytes_length, linkHead_length]
  omega

/-- A request with one attribute, whose length is read back from the buffer. -/
theorem sent_linkAttr (stack : Mem) (type : Nat) (ifindex : UInt32) (a : Rtattr) {t l : Nat}
    (ht : t = a.type.toNat) (hn : l = 4 + a.payload.length) (hl : 32 + l ≤ 544) :
    let m := fillLink (stack.clear 0 544) type ifindex
    let rta := nlmsgAlign (nlmsgLen m 0)
    let m := addAttr m rta t l a.payload
    let m := setNlmsgLen m (nlmsgAlign (nlmsgLen m 0) + rtaLen m rta)
    m.bytes 0 (nlmsgLen m 0) = linkMessage type ifindex 0 a.data := by
  have h0 := Filled.clear stack 0 544
  have h1 : Filled _ 0 544 (_ ++ linkHead type ifindex 0) := filled_fillLink h0 (by decide)
  obtain ⟨h2, hnl, hrl⟩ := filled_linkAttr h1 a rfl ht hn hl (by omega)
  have h3 : Filled _ 0 544 (linkMessage type ifindex 0 a.data) :=
    filled_setNlmsgLen h2 ((congrArg₂ (fun l r => nlmsgAlign l + r) hnl hrl).trans
      (by rw [hn, Rtattr.data_length]; rfl))
  exact sent_of_filled h3 (by rw [Rtattr.data_length]; omega)

end filled

section holds

variable {m : Mem} {type : Nat} {ifindex : UInt32} {flags : Nat} {attrs : List UInt8}

theorem attrs_of_holds (h : m.Holds 0 (linkMessage type ifindex flags attrs)) :
    m.Holds 32 attrs := by
  obtain ⟨-, h1⟩ := Mem.holds_append.mp h
  obtain ⟨-, h2⟩ := Mem.holds_append.mp h1
  rw [leBytes_length, linkHead_length] at h2
  exact h2

theorem attrsLen_of_holds (h : m.Holds 0 (linkMessage type ifindex flags attrs))
    (hl : attrs.length < 65536) :
    (nlmsgLen m 0 : Int) - nlmsgSpace sizeofIfinfomsg = attrs.length := by
  rw [nlmsgLen_of_leBytes h (by omega), show nlmsgSpace sizeofIfinfomsg = 32 by decide]
  omega

theorem decodeRtas_of_holds {a : Rtattr} (h : m.Holds 0 (linkMessage type ifindex flags a.data))
    (hl : a.data.length < 65536) : decodeRtas m 32 a.data.length = [a] := by
  have hlen := a.data_length
  exact (rtaWalk_one (attrs_of_holds h) rfl (by omega)).2

end holds

def mtuAttr : Rtattr := ⟨.ofNat IFLA_MTU, leBytes 4 SetMtu.IF_MTU⟩
def newNameAttr (newName : CString) : Rtattr := ⟨.ofNat IFLA_IFNAME, newName.chars.take 15⟩

theorem SetMtu.sendRequest_eq (stack : Mem) :
    sendRequest stack = linkMessage RTM_NEWLINK IF_INDEX 0 mtuAttr.data := by
  have h0 := Filled.clear stack 0 544
  have h1 : Filled _ 0 544 (_ ++ linkHead RTM_NEWLINK IF_INDEX 0) := filled_fillLink h0 (by decide)
  obtain ⟨h2, hnl, -⟩ := filled_linkAttr h1 mtuAttr rfl rfl rfl (by decide) (by decide)
  have h3 : Filled _ 0 544 (linkMessage RTM_NEWLINK IF_INDEX 0 mtuAttr.data) :=
    filled_setNlmsgLen h2 (congrArg (fun l => nlmsgAlign l + rtaLength 4) hnl)
  exact sent_of_filled h3 (by decide)

theorem SetIfname.sendRequest_eq (stack : Mem) (ifindex : UInt32) (newName : CString) :
    sendRequest stack ifindex newName =
      linkMessage RTM_NEWLINK ifindex 0 (newNameAttr newName).data := by
  have hcap := newName.strnlen_le 15
  have hlen : rtaLength (newName.strnlen 15) = 4 + (newNameAttr newName).payload.length := by
    rw [newName.strnlen_eq, rtaLength_eq]
    rfl
  rw [sendRequest, CString.take_strnlen]
  exact sent_linkAttr stack _ _ (newNameAttr newName) rfl hlen (by rw [rtaLength_eq]; omega)

theorem SetLinkUp.sendRequest_eq (stack : Mem) (ifindex : UInt32) :
    sendRequest stack ifindex = linkMessage RTM_SETLINK ifindex IFF_UP [] := by
  have h0 := Filled.clear stack 0 32
  have h1 : Filled _ 0 32 (_ ++ linkHead RTM_SETLINK ifindex 0) := filled_fillLink h0 (by decide)
  rw [← List.append_nil (linkHead _ _ _), linkHead_split] at h1
  have hload := Mem.load32_of_holds (Mem.holds_append.mp (h1.behind (q := 24) (by simp))).1
  have h2 := h1.patch (linkFront 32 RTM_SETLINK ifindex) (leBytes 4 0)
    (leBytes 4 ((fillLink (stack.clear 0 32) RTM_SETLINK ifindex).load32 24 ||| IFF_UP)) _
    (q := 24) rfl (by simp) (by simp)
  rw [← linkHead_split] at h2
  have h3 := congrArg (fun f => linkMessage RTM_SETLINK ifindex (f ||| IFF_UP) []) hload
  exact (sent_of_filled h2 (by decide)).trans h3

end SnippetsC.Netlink
