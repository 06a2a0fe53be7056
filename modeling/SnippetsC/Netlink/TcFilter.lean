import SnippetsC.Netlink.Request

namespace SnippetsC.Netlink

/-! The bpf filter request, built by `add-tcfilter` and by `tc-attach`. -/

def TCA_KIND : Nat := 1
def TCA_OPTIONS : Nat := 2
def TCA_BPF_FD : Nat := 6
def TCA_BPF_NAME : Nat := 7
def TCA_BPF_FLAGS : Nat := 8
def TCA_BPF_FLAG_ACT_DIRECT : Nat := 1
def TC_H_CLSACT : Nat := 0xfffffff1
def TC_H_MIN_INGRESS : Nat := 0xfff2
def ETH_P_ALL : Nat := 3

def tcHMake (maj min : Nat) : Nat := (maj &&& 0xffff0000) ||| (min &&& 0xffff)

/-- The literals `kind` and `name` of both programs. -/
def bpf : CString := ⟨[0x62, 0x70, 0x66], by decide⟩
def acceptAll : CString := ⟨[0x61, 0x63, 0x63, 0x65, 0x70, 0x74, 0x2d, 0x61, 0x6c, 0x6c], by decide⟩

/-- `tcm_family`, `tcm_ifindex`, `tcm_handle`, `tcm_parent`, `tcm_info`. -/
def fillTcmsg (m : Mem) (tcm : Nat) (ifindex : UInt32) : Mem :=
  let m := m.store8 tcm 0
  let m := m.store32 (tcm + 4) ifindex.toNat
  let m := m.store32 (tcm + 8) 0
  let m := m.store32 (tcm + 12) (tcHMake TC_H_CLSACT TC_H_MIN_INGRESS)
  m.store32 (tcm + 16) (tcHMake 0 (htons ETH_P_ALL))

namespace AddTcfilter

/-- The kind attribute and the update of the message length behind it. -/
def addKind (m : Mem) (kind : CString) : Mem :=
  let kindRta := nlmsgAlign (nlmsgLen m 0)
  let m := addAttr m kindRta TCA_KIND (rtaLength (kind.strnlen 3 + 1))
    (kind.bytes.take (kind.strnlen 3 + 1))
  setNlmsgLen m (nlmsgAlign (nlmsgLen m 0) + rtaLen m kindRta)

def addBpfFd (m : Mem) (optionsRta : Nat) (bpfFd : UInt32) : Mem :=
  let fdRta := rtaData optionsRta
  let m := addAttr m fdRta TCA_BPF_FD (rtaLength 4) (leBytes 4 bpfFd.toNat)
  setRtaLen m optionsRta (rtaAlign (rtaLen m optionsRta) + rtaLen m fdRta)

/-- The name attribute; `strnlen(name, 10 + 1)` leaves out the NUL that `rta_len` counts. -/
def addBpfName (m : Mem) (optionsRta : Nat) (name : CString) : Mem :=
  let nameRta := optionsRta + rtaAlign (rtaLen m optionsRta)
  let m := addAttr m nameRta TCA_BPF_NAME (rtaLength (name.strnlen 10 + 1))
    (name.bytes.take (name.strnlen (10 + 1)))
  setRtaLen m optionsRta (rtaAlign (rtaLen m optionsRta) + rtaLen m nameRta)

def addBpfFlags (m : Mem) (optionsRta : Nat) : Mem :=
  let flagsRta := optionsRta + rtaAlign (rtaLen m optionsRta)
  let m := addAttr m flagsRta TCA_BPF_FLAGS (rtaLength 4) (leBytes 4 TCA_BPF_FLAG_ACT_DIRECT)
  setRtaLen m optionsRta (rtaAlign (rtaLen m optionsRta) + rtaLen m flagsRta)

/-- The options attribute with its three children, and the update of the message length. -/
def addOptions (m : Mem) (name : CString) (bpfFd : UInt32) : Mem :=
  let optionsRta := nlmsgAlign (nlmsgLen m 0)
  let m := addRta m optionsRta TCA_OPTIONS (rtaLength 0)
  let m := addBpfFd m optionsRta bpfFd
  let m := addBpfName m optionsRta name
  let m := addBpfFlags m optionsRta
  setNlmsgLen m (nlmsgAlign (nlmsgLen m 0) + rtaLen m optionsRta)

/-- `send_request`: what `sendmsg` is given, from a stack of any content. `req` is the header, a
`tcmsg` and 512 bytes. -/
def sendRequest (stack : Mem) (kind name : CString) (ifindex bpfFd : UInt32) : List UInt8 :=
  let req := stack.clear 0 (sizeofNlmsghdr + sizeofTcmsg + 512)
  let m := fillHeader req (nlmsgLength sizeofTcmsg) RTM_NEWTFILTER (NLM_F_REQUEST ||| NLM_F_CREATE)
  let m := fillTcmsg m sizeofNlmsghdr ifindex
  let m := addKind m kind
  let m := addOptions m name bpfFd
  m.bytes 0 (nlmsgLen m 0)

end AddTcfilter

namespace TcAttach

def attrBuf : Nat := nlmsgSpace sizeofTcmsg
def optionsRta (kind : CString) : Nat := attrBuf + rtaSpace (kind.strlen + 1)
def fdRta (kind : CString) : Nat := rtaData (optionsRta kind)
def nameRta (kind : CString) : Nat := fdRta kind + rtaSpace 4
def flagsRta (kind name : CString) : Nat := nameRta kind + rtaSpace (name.strlen + 1)

def msgLen (kind name : CString) : Nat :=
  nlmsgSpace sizeofTcmsg + rtaSpace (kind.strlen + 1) + rtaSpace 0 + rtaSpace 4 +
    rtaSpace (name.strlen + 1) + rtaLength 4

def optionsRtaLen (name : CString) : Nat :=
  rtaSpace 0 + rtaSpace 4 + rtaSpace (name.strlen + 1) + rtaLength 4

/-- The stores of `send_request_filter` into `msg_buf`. -/
def fillFilter (m : Mem) (kind name : CString) (ifindex bpfFd : UInt32) : Mem :=
  let m := fillHeader m (msgLen kind name) RTM_NEWTFILTER (NLM_F_REQUEST ||| NLM_F_CREATE)
  let m := fillTcmsg m (nlmsgData 0) ifindex
  let m := addAttr m attrBuf TCA_KIND (rtaLength (kind.strlen + 1)) kind.bytes
  let m := addRta m (optionsRta kind) TCA_OPTIONS (optionsRtaLen name)
  let m := addAttr m (fdRta kind) TCA_BPF_FD (rtaLength 4) (leBytes 4 bpfFd.toNat)
  let m := addAttr m (nameRta kind) TCA_BPF_NAME (rtaLength (name.strlen + 1)) name.bytes
  addAttr m (flagsRta kind name) TCA_BPF_FLAGS (rtaLength 4) (leBytes 4 TCA_BPF_FLAG_ACT_DIRECT)

/-- `send_request_filter`: what `sendmsg` is given; `msg_buf` is 512 zero bytes at first. -/
def sendRequestFilter (stack : Mem) (kind name : CString) (ifindex bpfFd : UInt32) : List UInt8 :=
  let m := fillFilter (stack.clear 0 512) kind name ifindex bpfFd
  m.bytes 0 (nlmsgLen m 0)

end TcAttach

/-! The message both mean: attributes nested in attributes. -/

namespace Filter

def kindAttr (kind : CString) : Rtattr := ⟨.ofNat TCA_KIND, kind.bytes⟩
def fdAttr (bpfFd : UInt32) : Rtattr := ⟨.ofNat TCA_BPF_FD, leBytes 4 bpfFd.toNat⟩
def nameAttr (name : CString) : Rtattr := ⟨.ofNat TCA_BPF_NAME, name.bytes⟩
def flagsAttr : Rtattr := ⟨.ofNat TCA_BPF_FLAGS, leBytes 4 TCA_BPF_FLAG_ACT_DIRECT⟩

def optionsAttr (name : CString) (bpfFd : UInt32) : Rtattr :=
  ⟨.ofNat TCA_OPTIONS, (fdAttr bpfFd).data ++ ((nameAttr name).padded ++ flagsAttr.data)⟩

def tcmsg (ifindex : UInt32) : List UInt8 :=
  leBytes 1 0 ++ (List.replicate 3 0 ++ (leBytes 4 ifindex.toNat ++ (leBytes 4 0 ++
    (leBytes 4 (tcHMake TC_H_CLSACT TC_H_MIN_INGRESS) ++ leBytes 4 (tcHMake 0 (htons ETH_P_ALL))))))

/-- The two headers, from `nlmsg_type` on. -/
def head (ifindex : UInt32) : List UInt8 :=
  hdrTail RTM_NEWTFILTER (NLM_F_REQUEST ||| NLM_F_CREATE) ++ tcmsg ifindex

/-- The length of the options attribute. -/
def optionsLen (name : CString) : Nat := 12 + alignUp 4 (5 + name.strlen) + 8

def size (kind name : CString) : Nat := 36 + alignUp 4 (5 + kind.strlen) + optionsLen name

def message (kind name : CString) (ifindex bpfFd : UInt32) : List UInt8 :=
  leBytes 4 (size kind name) ++
    (head ifindex ++ ((kindAttr kind).padded ++ (optionsAttr name bpfFd).data))

@[simp] theorem tcmsg_length (ifindex : UInt32) : (tcmsg ifindex).length = 20 := by
  simp [tcmsg]

@[simp] theorem kindAttr_length (kind : CString) :
    (kindAttr kind).payload.length = 1 + kind.strlen := by
  rw [kindAttr, CString.bytes_length, CString.strlen, Nat.add_comm]

@[simp] theorem nameAttr_length (name : CString) :
    (nameAttr name).payload.length = 1 + name.strlen := by
  rw [nameAttr, CString.bytes_length, CString.strlen, Nat.add_comm]

theorem kindAttr_room (kind : CString) : (kindAttr kind).room = alignUp 4 (5 + kind.strlen) := by
  rw [Rtattr.room, kindAttr_length, ← Nat.add_assoc]

theorem nameAttr_room (name : CString) : (nameAttr name).room = alignUp 4 (5 + name.strlen) := by
  rw [Rtattr.room, nameAttr_length, ← Nat.add_assoc]

@[simp] theorem fdAttr_length (bpfFd : UInt32) : (fdAttr bpfFd).payload.length = 4 := rfl
theorem fdAttr_room (bpfFd : UInt32) : (fdAttr bpfFd).room = 8 := by
  rw [Rtattr.room, fdAttr_length]
  rfl

@[simp] theorem flagsAttr_length : flagsAttr.payload.length = 4 := rfl

theorem optionsAttr_length (name : CString) (bpfFd : UInt32) :
    4 + (optionsAttr name bpfFd).payload.length = optionsLen name := by
  rw [optionsAttr, List.length_append, List.length_append, Rtattr.padded_length, nameAttr_room,
    Rtattr.data_length, Rtattr.data_length, fdAttr_length, flagsAttr_length, optionsLen]
  omega

theorem optionsAttr_data (name : CString) (bpfFd : UInt32) :
    (optionsAttr name bpfFd).data = rtaBytes TCA_OPTIONS (optionsLen name) ++
      ((fdAttr bpfFd).data ++ ((nameAttr name).padded ++ flagsAttr.data)) := by
  rw [← rtaBytes_payload, optionsAttr_length]
  rfl

@[simp] theorem head_length (ifindex : UInt32) : (head ifindex).length = 32 := by
  rw [head, List.length_append, hdrTail_length, tcmsg_length]

theorem message_length (kind name : CString) (ifindex bpfFd : UInt32) :
    (message kind name ifindex bpfFd).length = size kind name := by
  rw [message, List.length_append, List.length_append, List.length_append, leBytes_length,
    head_length, Rtattr.padded_length, kindAttr_room, Rtattr.data_length, optionsAttr_length, size]
  omega

/-- A buffer filled with the message has it sent, its own `nlmsg_len` bytes. -/
theorem sent_of_filled {m : Mem} {lim : Nat} {kind name : CString} {ifindex bpfFd : UInt32}
    (h : Filled m 0 lim (message kind name ifindex bpfFd)) (hs : size kind name < 2 ^ 31) :
    m.bytes 0 (nlmsgLen m 0) = message kind name ifindex bpfFd := by
  have hl : nlmsgLen m 0 = size kind name := nlmsgLen_of_filled h hs
  exact h.bytes_eq (hl.trans (message_length kind name ifindex bpfFd).symm)

end Filter

/-- Five fields from left to right; the padding of `tcm_family` is left at zero. -/
theorem filled_fillTcmsg {m : Mem} {lim : Nat} {bs : List UInt8} (h : Filled m 0 lim bs)
    {p : Nat} (hp : p = bs.length) (hl : p + 20 ≤ lim) (ifindex : UInt32) :
    Filled (fillTcmsg m p ifindex) 0 lim (bs ++ Filter.tcmsg ifindex) := by
  have h1 := h.append 0 (leBytes 1 0) (q := p) (by omega) (by simp; omega)
  have h2 := h1.append 3 (leBytes 4 ifindex.toNat) (q := p + 4) (by simp; omega) (by simp; omega)
  have h3 := h2.append 0 (leBytes 4 0) (q := p + 8) (by simp; omega) (by simp; omega)
  have h4 := h3.append 0 (leBytes 4 (tcHMake TC_H_CLSACT TC_H_MIN_INGRESS)) (q := p + 12)
    (by simp; omega) (by simp; omega)
  have h5 := h4.append 0 (leBytes 4 (tcHMake 0 (htons ETH_P_ALL))) (q := p + 16)
    (by simp; omega) (by simp; omega)
  simp only [List.append_assoc] at h5
  exact h5

namespace TcAttach

section offsets

variable {kind name : CString}

theorem rtaSpace_strlen {s : CString} (h : s.strlen < 512) :
    rtaSpace (s.strlen + 1) = alignUp 4 (5 + s.strlen) := by
  rw [rtaSpace_eq (by omega), Nat.add_comm s.strlen, ← Nat.add_assoc]

theorem attrBuf_eq : attrBuf = 36 := by decide

theorem optionsRta_eq (hk : kind.strlen < 512) :
    optionsRta kind = 36 + alignUp 4 (5 + kind.strlen) := by
  rw [optionsRta, attrBuf_eq, rtaSpace_strlen hk]

theorem optionsRtaLen_eq (hn : name.strlen < 512) :
    optionsRtaLen name = Filter.optionsLen name := by
  rw [optionsRtaLen, rtaSpace_strlen hn]
  rfl

theorem msgLen_eq (hk : kind.strlen < 512) (hn : name.strlen < 512) :
    msgLen kind name = Filter.size kind name := by
  have h36 : nlmsgSpace sizeofTcmsg = 36 := by decide
  have h4 : rtaSpace 0 = 4 := by decide
  have h8 : rtaSpace 4 = 8 := by decide
  rw [msgLen, rtaSpace_strlen hk, rtaSpace_strlen hn, Filter.size, Filter.optionsLen, h36, h4, h8,
    rtaLength_eq]
  omega

theorem nameRta_eq (hk : kind.strlen < 512) :
    nameRta kind = 48 + alignUp 4 (5 + kind.strlen) := by
  have h8 : rtaSpace 4 = 8 := by decide
  rw [nameRta, fdRta, optionsRta_eq hk, rtaData_eq, h8]
  omega

theorem flagsRta_eq (hk : kind.strlen < 512) (hn : name.strlen < 512) :
    flagsRta kind name = 48 + alignUp 4 (5 + kind.strlen) + alignUp 4 (5 + name.strlen) := by
  rw [flagsRta, nameRta_eq hk, rtaSpace_strlen hn]

end offsets

/-- The stores go from the front to the back, so each finds zeros behind what is there already. -/
theorem filled_fillFilter {m : Mem} (h : Filled m 0 512 []) {kind name : CString}
    (hfit : Filter.size kind name ≤ 512) (ifindex bpfFd : UInt32) :
    Filled (fillFilter m kind name ifindex bpfFd) 0 512
      (Filter.message kind name ifindex bpfFd) := by
  have hka := le_alignUp 4 (5 + kind.strlen)
  have hna := le_alignUp 4 (5 + name.strlen)
  rw [Filter.size, Filter.optionsLen] at hfit
  have hk : kind.strlen < 512 := by omega
  have hn : name.strlen < 512 := by omega
  have hpk : (Filter.kindAttr kind).gap = alignUp 4 (5 + kind.strlen) - (5 + kind.strlen) := by
    rw [Rtattr.gap, Filter.kindAttr_room, Filter.kindAttr_length, ← Nat.add_assoc]
  have hpn : (Filter.nameAttr name).gap = alignUp 4 (5 + name.strlen) - (5 + name.strlen) := by
    rw [Rtattr.gap, Filter.nameAttr_room, Filter.nameAttr_length, ← Nat.add_assoc]
  have hol := Filter.optionsAttr_length name bpfFd
  have hlk : rtaLength (kind.strlen + 1) = 4 + (Filter.kindAttr kind).payload.length := by
    rw [Filter.kindAttr_length, rtaLength_eq, Nat.add_comm kind.strlen]
  have hln : rtaLength (name.strlen + 1) = 4 + (Filter.nameAttr name).payload.length := by
    rw [Filter.nameAttr_length, rtaLength_eq, Nat.add_comm name.strlen]
  have h1 := filled_fillHeader h (by decide) (Filter.size kind name) RTM_NEWTFILTER
    (NLM_F_REQUEST ||| NLM_F_CREATE)
  have h2 := filled_fillTcmsg (p := nlmsgData 0) h1 rfl (by decide) ifindex
  have h3 := filled_attr (p := attrBuf) h2 0 (Filter.kindAttr kind) (by simp [attrBuf_eq]) rfl hlk
    (by rw [attrBuf_eq, rtaLength_eq]; omega)
  have h4 := filled_addRta (p := optionsRta kind) h3 (Filter.kindAttr kind).gap
    (by rw [optionsRta_eq hk, hpk]; simp; omega) (by rw [optionsRta_eq hk]; omega) TCA_OPTIONS
    (Filter.optionsLen name)
  have h5 := filled_attr (p := fdRta kind) (l := rtaLength 4) h4 0 (Filter.fdAttr bpfFd)
    (by rw [fdRta, optionsRta_eq hk, hpk]; simp; omega) rfl rfl
    (by rw [fdRta, optionsRta_eq hk, rtaData_eq, rtaLength_eq]; omega)
  have h6 := filled_attr (p := nameRta kind) h5 0 (Filter.nameAttr name)
    (by rw [nameRta_eq hk, hpk]; simp; omega) rfl hln
    (by rw [nameRta_eq hk, rtaLength_eq]; omega)
  have h7 := filled_attr (p := flagsRta kind name) (l := rtaLength 4) h6
    (Filter.nameAttr name).gap Filter.flagsAttr
    (by rw [flagsRta_eq hk hn, hpk, hpn]; simp; omega) rfl rfl
    (by rw [flagsRta_eq hk hn, rtaLength_eq]; omega)
  rw [fillFilter, msgLen_eq hk hn, optionsRtaLen_eq hn, Filter.message, Filter.head,
    Filter.optionsAttr_data]
  simp only [Rtattr.padded, List.append_assoc, List.replicate_zero, List.nil_append] at h7 ⊢
  exact h7

theorem sendRequestFilter_eq (stack : Mem) {kind name : CString}
    (hfit : Filter.size kind name ≤ 512) (ifindex bpfFd : UInt32) :
    sendRequestFilter stack kind name ifindex bpfFd = Filter.message kind name ifindex bpfFd := by
  have h0 := Filled.clear stack 0 512
  exact Filter.sent_of_filled (filled_fillFilter h0 hfit ifindex bpfFd) (by omega)

end TcAttach

namespace AddTcfilter

/-- A child goes to the aligned end of its parent, whose length then takes it in. The parent may
claim more bytes than are stored behind it so far: the child's gap `g` covers those as well. -/
theorem filled_child {m : Mem} {lim : Nat} {as cs b : List UInt8} {type t l n p q : Nat}
    (h : Filled m 0 lim (as ++ (rtaBytes type n ++ cs))) (hp : p = as.length)
    (hq : q = p + rtaAlign n) (g : Nat) (hg : alignUp 4 n = 4 + cs.length + g) (hn : n < 65536)
    (hl : l < 65536) (hf : q + 4 + b.length ≤ lim) :
    Filled (setRtaLen (addAttr m q t l b) p
        (rtaAlign (rtaLen (addAttr m q t l b) p) + rtaLen (addAttr m q t l b) q)) 0 lim
      (as ++ (rtaBytes type (alignUp 4 n + l) ++
        (cs ++ (List.replicate g 0 ++ (rtaBytes t l ++ b))))) := by
  have ha : rtaAlign n = alignUp 4 n := rtaAlign_eq (by omega)
  have h1 := filled_addAttr (p := q) h g (by simp; omega) t l hf
  have h2 : Filled (addAttr m q t l b) 0 lim
      ((as ++ (rtaBytes type n ++ (cs ++ List.replicate g 0))) ++ (rtaBytes t l ++ b)) := by
    simpa only [List.append_assoc] using h1
  have hlq := rtaLen_of_filled (p := q) h2 (by simp; omega) hl
  have h3 : Filled (addAttr m q t l b) 0 lim
      (as ++ (rtaBytes type n ++ (cs ++ (List.replicate g 0 ++ (rtaBytes t l ++ b))))) := by
    simpa only [List.append_assoc] using h1
  rw [rtaLen_of_filled h3 hp hn, hlq, ha]
  exact filled_setRtaLen h3 hp rfl

section stages

variable {m : Mem} {lim : Nat} {as : List UInt8} {p : Nat}

theorem filled_addBpfFd {bpfFd : UInt32} (h : Filled m 0 lim (as ++ rtaBytes TCA_OPTIONS 4))
    (hp : p = as.length) (hf : p + 12 ≤ lim) :
    Filled (addBpfFd m p bpfFd) 0 lim
      (as ++ (rtaBytes TCA_OPTIONS 12 ++ (Filter.fdAttr bpfFd).data)) := by
  rw [← List.append_nil (rtaBytes _ _)] at h
  have h1 := filled_child (q := rtaData p) (t := TCA_BPF_FD) (l := rtaLength 4)
    (b := leBytes 4 bpfFd.toNat) h hp rfl 0 rfl (by decide) (by decide) (by simp; omega)
  exact h1

/-- The name is stored without its NUL: the zero byte behind it is one of the cleared buffer. -/
theorem filled_addBpfName {name : CString} {bpfFd : UInt32} (hn : name.strlen ≤ 10)
    (h : Filled m 0 lim (as ++ (rtaBytes TCA_OPTIONS 12 ++ (Filter.fdAttr bpfFd).data)))
    (hp : p = as.length) (hf : p + 26 ≤ lim) :
    Filled (addBpfName m p name) 0 lim
      (as ++ (rtaBytes TCA_OPTIONS (17 + name.strlen) ++ ((Filter.fdAttr bpfFd).data ++
        (rtaBytes TCA_BPF_NAME (5 + name.strlen) ++ name.chars)))) := by
  have hlen : rtaLength (name.strnlen 10 + 1) = 5 + name.strlen := by
    rw [CString.strnlen_of_le hn, rtaLength_eq]
    omega
  have hbytes : name.bytes.take (name.strnlen (10 + 1)) = name.chars := by
    rw [CString.strnlen_of_le (Nat.le_succ_of_le hn), CString.take_strlen]
  have hc : name.chars.length ≤ 10 := hn
  have h1 := filled_child (q := p + rtaAlign 12) (t := TCA_BPF_NAME) (l := 5 + name.strlen)
    (b := name.chars) h hp rfl 0 rfl (by decide) (by omega) (by change p + 12 + 4 + _ ≤ _; omega)
  rw [addBpfName, rtaLen_of_filled h hp (by decide), hlen, hbytes]
  rw [show alignUp 4 12 + (5 + name.strlen) = 17 + name.strlen by rw [← Nat.add_assoc]; rfl] at h1
  exact h1

theorem filled_addBpfFlags {name : CString} {bpfFd : UInt32} (hn : name.strlen ≤ 10)
    (h : Filled m 0 lim (as ++ (rtaBytes TCA_OPTIONS (17 + name.strlen) ++
      ((Filter.fdAttr bpfFd).data ++ (rtaBytes TCA_BPF_NAME (5 + name.strlen) ++ name.chars)))))
    (hp : p = as.length) (hf : p + 38 ≤ lim) :
    Filled (addBpfFlags m p) 0 lim (as ++ (Filter.optionsAttr name bpfFd).data) := by
  have hna := le_alignUp 4 (5 + name.strlen)
  have hnl := alignUp_lt 4 (5 + name.strlen)
  have hal : alignUp 4 (17 + name.strlen) = 12 + alignUp 4 (5 + name.strlen) := by
    rw [← alignUp_add (by decide : 4 ∣ 12), ← Nat.add_assoc]
  have hra : rtaAlign (17 + name.strlen) = 12 + alignUp 4 (5 + name.strlen) := by
    rw [rtaAlign_eq (by omega), hal]
  have hgap : (Filter.nameAttr name).gap = alignUp 4 (5 + name.strlen) - (5 + name.strlen) := by
    rw [Rtattr.gap, Filter.nameAttr_room, Filter.nameAttr_length, ← Nat.add_assoc]
  have hname : (Filter.nameAttr name).padded = rtaBytes TCA_BPF_NAME (5 + name.strlen) ++
      (name.chars ++ List.replicate (1 + (Filter.nameAttr name).gap) 0) := by
    rw [Rtattr.padded, Rtattr.data, Filter.nameAttr_length, ← Nat.add_assoc, rtaBytes,
      List.replicate_add]
    simp only [Filter.nameAttr, CString.bytes, List.append_assoc]
    rfl
  have hcs : 4 + ((Filter.fdAttr bpfFd).data ++
      (rtaBytes TCA_BPF_NAME (5 + name.strlen) ++ name.chars)).length = 16 + name.strlen := by
    simp [CString.strlen]
    omega
  have h1 := filled_child (q := p + rtaAlign (17 + name.strlen)) (t := TCA_BPF_FLAGS)
    (l := rtaLength 4) (b := leBytes 4 TCA_BPF_FLAG_ACT_DIRECT) h hp rfl
    (1 + (Filter.nameAttr name).gap) (by rw [hcs, hal, hgap]; omega) (by omega) (by decide)
    (by rw [hra, leBytes_length]; omega)
  rw [addBpfFlags, rtaLen_of_filled h hp (by omega), Filter.optionsAttr_data, hname]
  rw [hal] at h1
  simp only [List.append_assoc] at h1 ⊢
  exact h1

end stages

section message

variable {m : Mem} {kind name : CString} {ifindex bpfFd : UInt32}

theorem filled_addKind (hk : kind.strlen ≤ 3)
    (h : Filled m 0 548 (leBytes 4 36 ++ Filter.head ifindex)) :
    Filled (addKind m kind) 0 548
      (leBytes 4 (41 + kind.strlen) ++ (Filter.head ifindex ++ (Filter.kindAttr kind).data)) := by
  have hlen := nlmsgLen_of_filled h (by decide)
  have h36 : nlmsgAlign 36 = 36 := by decide
  have h1 : Filled (addAttr m 36 TCA_KIND (rtaLength (kind.strlen + 1)) kind.bytes) 0 548
      ((leBytes 4 36 ++ Filter.head ifindex) ++ (Filter.kindAttr kind).data) :=
    filled_attr (p := 36) h 0 (Filter.kindAttr kind) (by simp) rfl (by simp; omega)
      (by rw [rtaLength_eq]; omega)
  have hrl := rtaLen_of_holds (h1.behind (q := 36) (by simp)) (by simp; omega)
  rw [List.append_assoc] at h1
  have hnl := nlmsgLen_of_filled h1 (by decide)
  rw [addKind, hlen, h36, CString.strnlen_of_le hk, CString.take_strlen_succ]
  apply filled_setNlmsgLen h1
  rw [hnl, hrl, h36, Filter.kindAttr_length]
  omega

/-- The options attribute starts at the aligned end of the kind attribute and grows in place. -/
theorem filled_addOptions (hk : kind.strlen ≤ 3) (hn : name.strlen ≤ 10)
    (h : Filled m 0 548
      (leBytes 4 (41 + kind.strlen) ++ (Filter.head ifindex ++ (Filter.kindAttr kind).data))) :
    Filled (addOptions m name bpfFd) 0 548 (Filter.message kind name ifindex bpfFd) := by
  have hka := le_alignUp 4 (5 + kind.strlen)
  have hkl := alignUp_lt 4 (5 + kind.strlen)
  have hnl := alignUp_lt 4 (5 + name.strlen)
  have hgap : (Filter.kindAttr kind).gap = alignUp 4 (5 + kind.strlen) - (5 + kind.strlen) := by
    rw [Rtattr.gap, Filter.kindAttr_room, Filter.kindAttr_length, ← Nat.add_assoc]
  have hal : nlmsgAlign (41 + kind.strlen) = 36 + alignUp 4 (5 + kind.strlen) := by
    rw [nlmsgAlign_eq (by omega), ← alignUp_add (by decide : 4 ∣ 36), ← Nat.add_assoc]
  have hlen := nlmsgLen_of_filled h (by omega)
  have h1 : Filled (addRta m (36 + alignUp 4 (5 + kind.strlen)) TCA_OPTIONS (rtaLength 0)) 0 548
      ((leBytes 4 (41 + kind.strlen) ++ (Filter.head ifindex ++ (Filter.kindAttr kind).padded)) ++
        rtaBytes TCA_OPTIONS 4) := by
    have hadd := filled_addRta (p := 36 + alignUp 4 (5 + kind.strlen)) h (Filter.kindAttr kind).gap
      (by rw [hgap]; simp; omega) (by omega) TCA_OPTIONS (rtaLength 0)
    simp only [Rtattr.padded, List.append_assoc] at hadd ⊢
    exact hadd
  have hp : 36 + alignUp 4 (5 + kind.strlen) = (leBytes 4 (41 + kind.strlen) ++
      (Filter.head ifindex ++ (Filter.kindAttr kind).padded)).length := by
    rw [List.length_append, List.length_append, leBytes_length, Filter.head_length,
      Rtattr.padded_length, Filter.kindAttr_room]
    omega
  have h2 : Filled (addBpfFd _ _ bpfFd) 0 548 _ := filled_addBpfFd h1 hp (by omega)
  have h3 := filled_addBpfName hn h2 hp (by omega)
  have h4 := filled_addBpfFlags hn h3 hp (by omega)
  have hol := rtaLen_of_holds (h4.behind (hp.trans (Nat.zero_add _).symm))
    (by rw [Filter.optionsAttr_length, Filter.optionsLen]; omega)
  rw [List.append_assoc] at h4
  have hml := nlmsgLen_of_filled h4 (by omega)
  rw [addOptions, hlen, hal]
  simp only [Filter.message, List.append_assoc] at h4 ⊢
  apply filled_setNlmsgLen h4
  rw [hml, hol, hal, Filter.optionsAttr_length, Filter.size]

theorem sendRequest_eq (stack : Mem) (hk : kind.strlen ≤ 3) (hn : name.strlen ≤ 10) :
    sendRequest stack kind name ifindex bpfFd = Filter.message kind name ifindex bpfFd := by
  have hka := alignUp_lt 4 (5 + kind.strlen)
  have hna := alignUp_lt 4 (5 + name.strlen)
  have h0 := Filled.clear stack 0 548
  have h1 := filled_fillHeader h0 (by decide) 36 RTM_NEWTFILTER (NLM_F_REQUEST ||| NLM_F_CREATE)
  have h2 := filled_fillTcmsg (p := sizeofNlmsghdr) h1 rfl (by decide) ifindex
  rw [List.append_assoc] at h2
  have h3 := filled_addKind hk h2
  have h4 : Filled _ 0 548 (Filter.message kind name ifindex bpfFd) := filled_addOptions hk hn h3
  exact Filter.sent_of_filled h4 (by rw [Filter.size, Filter.optionsLen]; omega)

end message

end AddTcfilter

end SnippetsC.Netlink
