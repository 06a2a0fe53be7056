import SnippetsC.Netlink.Request

namespace SnippetsC.Netlink

/-! The request of `add-veth-ifname2`. -/

def IFLA_INFO_KIND : Nat := 1
def IFLA_INFO_DATA : Nat := 2
def VETH_INFO_PEER : Nat := 1
def ARPHRD_ETHER : Nat := 1
def IF_MAXLEN : Nat := 15
def KIND_MAXLEN : Nat := 5

/-- `KIND_VETH`. -/
def veth : CString := ⟨[0x76, 0x65, 0x74, 0x68], by decide⟩

namespace AddVethIfname2

/-- `ifi->ifi_type = ARPHRD_ETHER; ifi->ifi_change = 0xffffffff;` -/
def fillIfi (m : Mem) (ifi : Nat) : Mem :=
  (m.store16 (ifi + 2) ARPHRD_ETHER).store32 (ifi + 12) 0xffffffff

/-- The attribute of an interface name, without its NUL. -/
def addIfname (m : Mem) (rta : Nat) (name : CString) : Mem :=
  addAttr m rta IFLA_IFNAME (rtaLength (name.strnlen IF_MAXLEN))
    (name.bytes.take (name.strnlen IF_MAXLEN))

/-- The stores of `add_link_info_data`. -/
def fillLinkInfoData (m : Mem) (dataRta : Nat) (ifName2 : CString) : Mem :=
  let m := addRta m dataRta (IFLA_INFO_DATA ||| NLA_F_NESTED) 0
  let peerRta := rtaData dataRta
  let m := addRta m peerRta VETH_INFO_PEER 0
  let m := fillIfi m (rtaData peerRta)
  let ifname2Rta := rtaData peerRta + sizeofIfinfomsg
  let m := addIfname m ifname2Rta ifName2
  let m := setRtaLen m peerRta (rtaLength (sizeofIfinfomsg + rtaLen m ifname2Rta))
  setRtaLen m dataRta (rtaLength (rtaLen m peerRta))

def addLinkInfoData (m : Mem) (buf : Nat) (ifName2 : CString) : Mem × Nat :=
  let m := fillLinkInfoData m buf ifName2
  (m, rtaLen m buf)

/-- `add_link_info`, with the link kind as a parameter. -/
def addLinkInfo (m : Mem) (buf : Nat) (kind ifName2 : CString) : Mem × Nat :=
  let infoRta := buf
  let m := addRta m infoRta (IFLA_LINKINFO ||| NLA_F_NESTED) 0
  let kindRta := rtaData infoRta
  let m := addAttr m kindRta IFLA_INFO_KIND (rtaLength (kind.strnlen KIND_MAXLEN))
    (kind.bytes.take (kind.strnlen KIND_MAXLEN))
  let dataBuf := rtaData infoRta + rtaLen m kindRta
  let data := addLinkInfoData m dataBuf ifName2
  let m := setRtaLen data.1 infoRta (rtaLength (rtaLen data.1 kindRta + data.2))
  (m, rtaLen m infoRta)

/-- `send_request`: what `sendmsg` is given. `req` is the header, an `ifinfomsg` and 1024 bytes. -/
def sendRequest (stack : Mem) (ifName1 kind ifName2 : CString) : List UInt8 :=
  let req := stack.clear 0 (sizeofNlmsghdr + sizeofIfinfomsg + 1024)
  let m := fillHeader req (nlmsgLength sizeofIfinfomsg) RTM_NEWLINK (NLM_F_REQUEST ||| NLM_F_CREATE)
  let m := fillIfi m sizeofNlmsghdr
  let ifname1Rta := nlmsgAlign (nlmsgLen m 0)
  let m := addIfname m ifname1Rta ifName1
  let m := setNlmsgLen m (nlmsgAlign (nlmsgLen m 0) + rtaLen m ifname1Rta)
  let infoBuf := nlmsgAlign (nlmsgLen m 0)
  let info := addLinkInfo m infoBuf kind ifName2
  let m := setNlmsgLen info.1 (nlmsgAlign (nlmsgLen info.1 0) + info.2)
  m.bytes 0 (nlmsgLen m 0)

/-! What is meant: attributes in attributes in attributes. -/

def ifnameAttr (name : CString) : Rtattr := ⟨.ofNat IFLA_IFNAME, name.chars.take IF_MAXLEN⟩
def kindAttr (kind : CString) : Rtattr := ⟨.ofNat IFLA_INFO_KIND, kind.chars.take KIND_MAXLEN⟩

/-- An `ifinfomsg` with its type and change mask set. -/
def ifinfo : List UInt8 :=
  List.replicate 2 0 ++ (leBytes 2 ARPHRD_ETHER ++ (List.replicate 8 0 ++ leBytes 4 0xffffffff))

def peerAttr (name2 : CString) : Rtattr :=
  ⟨.ofNat VETH_INFO_PEER, ifinfo ++ (ifnameAttr name2).data⟩
def dataAttr (name2 : CString) : Rtattr :=
  ⟨.ofNat (IFLA_INFO_DATA ||| NLA_F_NESTED), (peerAttr name2).data⟩
def infoAttr (kind name2 : CString) : Rtattr :=
  ⟨.ofNat (IFLA_LINKINFO ||| NLA_F_NESTED), (kindAttr kind).data ++ (dataAttr name2).data⟩

theorem ifnameAttr_length (name : CString) :
    (ifnameAttr name).payload.length = name.strnlen IF_MAXLEN := (name.strnlen_eq _).symm

theorem kindAttr_length (kind : CString) :
    (kindAttr kind).payload.length = kind.strnlen KIND_MAXLEN := (kind.strnlen_eq _).symm

@[simp] theorem ifinfo_length : ifinfo.length = 16 := rfl

theorem peerAttr_length (name2 : CString) :
    4 + (peerAttr name2).payload.length = 24 + name2.strnlen IF_MAXLEN := by
  rw [peerAttr, List.length_append, ifinfo_length, Rtattr.data_length, ifnameAttr_length]
  omega

theorem dataAttr_length (name2 : CString) :
    4 + (dataAttr name2).payload.length = 28 + name2.strnlen IF_MAXLEN := by
  rw [dataAttr, Rtattr.data_length, peerAttr_length]
  omega

theorem infoAttr_length (kind name2 : CString) : 4 + (infoAttr kind name2).payload.length =
    36 + kind.strnlen KIND_MAXLEN + name2.strnlen IF_MAXLEN := by
  rw [infoAttr, List.length_append, Rtattr.data_length, kindAttr_length, Rtattr.data_length,
    dataAttr_length]
  omega

def head : List UInt8 := hdrTail RTM_NEWLINK (NLM_F_REQUEST ||| NLM_F_CREATE) ++ ifinfo

def size (name1 kind name2 : CString) : Nat :=
  32 + (ifnameAttr name1).room + (4 + (infoAttr kind name2).payload.length)

def message (name1 kind name2 : CString) : List UInt8 :=
  leBytes 4 (size name1 kind name2) ++
    (head ++ ((ifnameAttr name1).padded ++ (infoAttr kind name2).data))

@[simp] theorem head_length : head.length = 28 := rfl

theorem message_length (name1 kind name2 : CString) :
    (message name1 kind name2).length = size name1 kind name2 := by
  rw [message, List.length_append, List.length_append, List.length_append, leBytes_length,
    head_length, Rtattr.padded_length, Rtattr.data_length, size]
  omega

theorem size_le (name1 kind name2 : CString) : size name1 kind name2 ≤ 110 := by
  have h1 : name1.strnlen IF_MAXLEN ≤ 15 := name1.strnlen_le _
  have h2 : name2.strnlen IF_MAXLEN ≤ 15 := name2.strnlen_le _
  have hk : kind.strnlen KIND_MAXLEN ≤ 5 := kind.strnlen_le _
  have hr := alignUp_lt 4 (4 + name1.strnlen IF_MAXLEN)
  rw [size, infoAttr_length, Rtattr.room, ifnameAttr_length]
  omega

section filled

variable {m : Mem} {lim : Nat} {bs : List UInt8} {p : Nat}

theorem filled_fillIfi (h : Filled m 0 lim bs) (hp : p = bs.length) (hl : p + 16 ≤ lim) :
    Filled (fillIfi m p) 0 lim (bs ++ ifinfo) := by
  have h1 := h.append 2 (leBytes 2 ARPHRD_ETHER) (q := p + 2) (by omega) (by simp; omega)
  have h2 := h1.append 8 (leBytes 4 0xffffffff) (q := p + 12) (by simp; omega) (by simp; omega)
  simp only [List.append_assoc] at h2
  exact h2

theorem filled_addIfname (h : Filled m 0 lim bs) {name : CString} (hp : p = bs.length)
    (hl : p + 4 + name.strnlen IF_MAXLEN ≤ lim) :
    Filled (addIfname m p name) 0 lim (bs ++ (ifnameAttr name).data) := by
  have hlen : rtaLength (name.strnlen IF_MAXLEN) = 4 + (ifnameAttr name).payload.length := by
    rw [ifnameAttr_length, rtaLength_eq]
  have h1 := filled_attr h 0 (ifnameAttr name) hp rfl hlen (by rw [rtaLength_eq]; omega)
  rw [addIfname, CString.take_strnlen]
  exact h1

/-- Both lengths start at zero and are patched from the inside to the outside. -/
theorem filled_fillLinkInfoData (h : Filled m 0 lim bs) {name : CString} (hp : p = bs.length)
    (hl : p + 28 + name.strnlen IF_MAXLEN ≤ lim) :
    Filled (fillLinkInfoData m p name) 0 lim (bs ++ (dataAttr name).data) := by
  have hcap : name.strnlen IF_MAXLEN ≤ 15 := name.strnlen_le _
  have hname := ifnameAttr_length name
  have hpeer := peerAttr_length name
  have hdata := dataAttr_length name
  have h1 := filled_addRta h 0 hp (by omega) (IFLA_INFO_DATA ||| NLA_F_NESTED) 0
  have h2 := filled_addRta (p := rtaData p) h1 0 (by simp [hp]) (by simp; omega) VETH_INFO_PEER 0
  have h3 := filled_fillIfi (p := rtaData (rtaData p)) h2 (by simp [hp]) (by simp; omega)
  have h4 : Filled (addIfname _ (rtaData (rtaData p) + sizeofIfinfomsg) name) 0 lim _ :=
    filled_addIfname h3 (by simp [hp, sizeofIfinfomsg]) (by simp [sizeofIfinfomsg]; omega)
  have hnl := rtaLen_of_holds
    (h4.behind (q := rtaData (rtaData p) + sizeofIfinfomsg) (by simp [hp, sizeofIfinfomsg]))
    (by omega)
  simp only [List.replicate_zero, List.nil_append, List.append_assoc] at h4
  rw [← List.append_assoc] at h4
  have hn5 : rtaLength (sizeofIfinfomsg + (4 + (ifnameAttr name).payload.length)) =
      4 + (peerAttr name).payload.length := by
    rw [hname, hpeer, rtaLength_eq, sizeofIfinfomsg]
    omega
  have h5 := filled_setRtaLen (p := rtaData p) h4 (by simp [hp])
    ((congrArg (fun l => rtaLength (sizeofIfinfomsg + l)) hnl).trans hn5)
  have hp5 : rtaBytes VETH_INFO_PEER (4 + (peerAttr name).payload.length) ++
      (ifinfo ++ (ifnameAttr name).data) = (peerAttr name).data := rtaBytes_payload (peerAttr name)
  rw [hp5] at h5
  have hpl := rtaLen_of_holds (h5.behind (q := rtaData p) (by simp [hp])) (by omega)
  rw [List.append_assoc] at h5
  have hn6 : rtaLength (4 + (peerAttr name).payload.length) =
      4 + (dataAttr name).payload.length := by
    rw [hpeer, hdata, rtaLength_eq]
    omega
  have h6 := filled_setRtaLen h5 hp ((congrArg rtaLength hpl).trans hn6)
  rw [← rtaBytes_payload (dataAttr name)]
  exact h6

theorem filled_addLinkInfoData (h : Filled m 0 lim bs) {name : CString} (hp : p = bs.length)
    (hl : p + 28 + name.strnlen IF_MAXLEN ≤ lim) :
    Filled (addLinkInfoData m p name).1 0 lim (bs ++ (dataAttr name).data) ∧
      (addLinkInfoData m p name).2 = 4 + (dataAttr name).payload.length := by
  have hcap : name.strnlen IF_MAXLEN ≤ 15 := name.strnlen_le _
  have hdata := dataAttr_length name
  have h1 := filled_fillLinkInfoData h hp hl
  exact ⟨h1, rtaLen_of_holds (h1.behind (hp.trans (Nat.zero_add _).symm)) (by omega)⟩

/-- The data attribute starts where the kind attribute ends, aligned or not. -/
theorem filled_addLinkInfo (h : Filled m 0 lim bs) (kind name : CString) (hp : p = bs.length)
    (hl : p + 36 + kind.strnlen KIND_MAXLEN + name.strnlen IF_MAXLEN ≤ lim) :
    Filled (addLinkInfo m p kind name).1 0 lim (bs ++ (infoAttr kind name).data) ∧
      (addLinkInfo m p kind name).2 = (infoAttr kind name).data.length := by
  have hcap : name.strnlen IF_MAXLEN ≤ 15 := name.strnlen_le _
  have hkcap : kind.strnlen KIND_MAXLEN ≤ 5 := kind.strnlen_le _
  have hkind := kindAttr_length kind
  have hdata := dataAttr_length name
  have hinfo := infoAttr_length kind name
  have h1 := filled_addRta h 0 hp (by omega) (IFLA_LINKINFO ||| NLA_F_NESTED) 0
  have hlen : rtaLength (kind.strnlen KIND_MAXLEN) = 4 + (kindAttr kind).payload.length := by
    rw [hkind, rtaLength_eq]
  have h2 := filled_attr (p := rtaData p) h1 0 (kindAttr kind) (by simp [hp]) rfl hlen
    (by rw [rtaData_eq, rtaLength_eq]; omega)
  simp only [List.replicate_zero, List.nil_append] at h2
  have hkl := rtaLen_of_holds (h2.behind (q := rtaData p) (by simp [hp])) (by omega)
  have h3 : Filled (addLinkInfoData _ (rtaData p + (4 + (kindAttr kind).payload.length)) name).1 0
      lim _ ∧ _ := filled_addLinkInfoData h2 (by simp [hp]; omega) (by rw [rtaData_eq]; omega)
  obtain ⟨h3, hdl⟩ := h3
  rw [← hkl] at h3 hdl
  have h4 := h3
  rw [List.append_assoc] at h4
  have hkl' := rtaLen_of_holds
    (Mem.holds_append.mp (h4.behind (q := rtaData p) (by simp [hp]))).1 (by omega)
  simp only [List.append_assoc] at h4
  have hn : rtaLength (4 + (kindAttr kind).payload.length + (4 + (dataAttr name).payload.length)) =
      4 + (infoAttr kind name).payload.length := by
    rw [hkind, hdata, hinfo, rtaLength_eq]
    omega
  have h5 := filled_setRtaLen h4 hp
    ((congrArg₂ (fun k d => rtaLength (k + d)) hkl' hdl).trans hn)
  have hinf : rtaBytes (IFLA_LINKINFO ||| NLA_F_NESTED) (4 + (infoAttr kind name).payload.length) ++
      ((kindAttr kind).data ++ (dataAttr name).data) = (infoAttr kind name).data :=
    rtaBytes_payload (infoAttr kind name)
  rw [hinf] at h5
  have hil := rtaLen_of_holds (h5.behind (hp.trans (Nat.zero_add _).symm)) (by omega)
  rw [Rtattr.data_length, addLinkInfo, CString.take_strnlen]
  exact ⟨h5, hil⟩

theorem filled_ifname1 {name : CString} (h : Filled m 0 1056 (leBytes 4 32 ++ head))
    (hp : p = nlmsgAlign (nlmsgLen m 0)) :
    Filled (setNlmsgLen (addIfname m p name) (nlmsgAlign (nlmsgLen (addIfname m p name) 0) +
        rtaLen (addIfname m p name) p)) 0 1056
      (leBytes 4 (32 + (4 + (ifnameAttr name).payload.length)) ++
        (head ++ (ifnameAttr name).data)) := by
  have hcap : name.strnlen IF_MAXLEN ≤ 15 := name.strnlen_le _
  have hname := ifnameAttr_length name
  have h32 : p = 32 := by
    rw [hp, nlmsgLen_of_filled h (by decide)]
    rfl
  have h1 : Filled (addIfname m p name) 0 1056 _ := filled_addIfname h h32 (by omega)
  have hrl := rtaLen_of_holds (h1.behind h32) (by omega)
  rw [List.append_assoc] at h1
  have hnl := nlmsgLen_of_filled h1 (by decide)
  rw [hnl, hrl]
  exact filled_setNlmsgLen h1 rfl

/-- The link info attribute goes to the aligned end of the first name. -/
theorem filled_info {name1 kind name2 : CString}
    (h : Filled m 0 1056 (leBytes 4 (32 + (4 + (ifnameAttr name1).payload.length)) ++
      (head ++ (ifnameAttr name1).data))) (hp : p = nlmsgAlign (nlmsgLen m 0)) :
    Filled (setNlmsgLen (addLinkInfo m p kind name2).1
        (nlmsgAlign (nlmsgLen (addLinkInfo m p kind name2).1 0) + (addLinkInfo m p kind name2).2))
      0 1056 (message name1 kind name2) := by
  have hgap := (ifnameAttr name1).add_gap
  have hinfo := infoAttr_length kind name2
  have hsize := size_le name1 kind name2
  rw [size] at hsize
  have hal : nlmsgAlign (32 + (4 + (ifnameAttr name1).payload.length)) =
      32 + (ifnameAttr name1).room := by
    rw [nlmsgAlign_eq (by omega), alignUp_add (by decide), Rtattr.room]
  rw [nlmsgLen_of_filled h (by omega), hal] at hp
  have h1 := h.skip (g := (ifnameAttr name1).gap) (by simp; omega)
  obtain ⟨h2, hil⟩ := filled_addLinkInfo h1 kind name2 (hp.trans (by simp; omega)) (by omega)
  simp only [List.append_assoc] at h2
  have hnl := nlmsgLen_of_filled h2 (by omega)
  rw [hnl, hal, hil, message, Rtattr.padded, List.append_assoc]
  exact filled_setNlmsgLen h2 (by rw [Rtattr.data_length, size])

/-- The message of `send_request`, for names and a kind of any length: the caps cut them off. -/
theorem sendRequest_eq (stack : Mem) (name1 kind name2 : CString) :
    sendRequest stack name1 kind name2 = message name1 kind name2 := by
  have hsize := size_le name1 kind name2
  have h0 := Filled.clear stack 0 1056
  have h1 := filled_fillHeader h0 (by decide) 32 RTM_NEWLINK (NLM_F_REQUEST ||| NLM_F_CREATE)
  have h2 := filled_fillIfi (p := sizeofNlmsghdr) h1 rfl (by decide)
  rw [List.append_assoc] at h2
  have h3 : Filled _ 0 1056 (leBytes 4 (32 + (4 + (ifnameAttr name1).payload.length)) ++
      (head ++ (ifnameAttr name1).data)) := filled_ifname1 h2 rfl
  have h4 : Filled _ 0 1056 (message name1 kind name2) := filled_info h3 rfl
  have hnl := nlmsgLen_of_filled h4 (by omega)
  exact h4.bytes_eq (hnl.trans (message_length name1 kind name2).symm)

end filled

end AddVethIfname2

end SnippetsC.Netlink
