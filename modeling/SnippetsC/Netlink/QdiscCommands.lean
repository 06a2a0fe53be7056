import SnippetsC.Netlink.QdiscRequest
import SnippetsC.Netlink.SetLink

namespace SnippetsC.Netlink

/-! The qdisc requests of `add-qdisc`, `del-qdisc` and `tc-detach`. -/

def RTM_DELQDISC : Nat := 37

/-- `tcm_family`, `tcm_ifindex`, `tcm_handle`, `tcm_parent`. -/
def fillQdiscTcmsg (m : Mem) (tcm : Nat) (ifindex : UInt32) : Mem :=
  let m := m.store8 tcm AF_UNSPEC
  let m := m.store32 (tcm + 4) ifindex.toNat
  let m := m.store32 (tcm + 8) (tcHMake TC_H_CLSACT 0)
  m.store32 (tcm + 12) TC_H_CLSACT

/-- The stores of `send_request` in `add-qdisc` and `del-qdisc`; `strnlen(kind, 6)` leaves out the
NUL. -/
def fillQdiscRequest (m : Mem) (type flags : Nat) (ifindex : UInt32) : Mem :=
  let m := fillHeader m (nlmsgLength sizeofTcmsg) type flags
  let m := fillQdiscTcmsg m sizeofNlmsghdr ifindex
  let kindRta := nlmsgAlign (nlmsgLen m 0)
  let m := addAttr m kindRta TCA_KIND (rtaLength (clsact.strnlen 6))
    (clsact.bytes.take (clsact.strnlen 6))
  setNlmsgLen m (nlmsgAlign (nlmsgLen m 0) + rtaLen m kindRta)

/-- What `sendmsg` is given; `req` is the header, a `tcmsg` and 512 bytes. -/
def sendQdiscRequest (stack : Mem) (type flags : Nat) (ifindex : UInt32) : List UInt8 :=
  let req := stack.clear 0 (sizeofNlmsghdr + sizeofTcmsg + 512)
  let m := fillQdiscRequest req type flags ifindex
  m.bytes 0 (nlmsgLen m 0)

/-- `send_request`; `ifindex` is `if_nametoindex(if_name)`. -/
def AddQdisc.sendRequest (stack : Mem) (ifindex : UInt32) : List UInt8 :=
  sendQdiscRequest stack RTM_NEWQDISC (NLM_F_REQUEST ||| NLM_F_CREATE) ifindex

def DelQdisc.sendRequest (stack : Mem) (ifindex : UInt32) : List UInt8 :=
  sendQdiscRequest stack RTM_DELQDISC NLM_F_REQUEST ifindex

namespace TcDetach

/-- The stores of `send_request` into `msg_buf`. -/
def fillQdisc (m : Mem) (ifindex : UInt32) : Mem :=
  let m := fillHeader m (nlmsgSpace sizeofTcmsg + rtaLength (clsact.strlen + 1)) RTM_DELQDISC
    NLM_F_REQUEST
  let m := fillQdiscTcmsg m (nlmsgData 0) ifindex
  addAttr m (nlmsgSpace sizeofTcmsg) TCA_KIND (rtaLength (clsact.strlen + 1)) clsact.bytes

/-- `send_request`; `msg_buf` is 512 zero bytes at first. -/
def sendRequest (stack : Mem) (ifindex : UInt32) : List UInt8 :=
  let m := fillQdisc (stack.clear 0 512) ifindex
  m.bytes 0 (nlmsgLen m 0)

end TcDetach

namespace Qdisc

/-- Header and `tcmsg`, from `nlmsg_type` on. -/
def head (type flags : Nat) (ifindex : UInt32) : List UInt8 := hdrTail type flags ++ tcmsg ifindex

/-- A qdisc request whose kind attribute holds the bytes `kind`. -/
def request (type flags : Nat) (ifindex : UInt32) (kind : List UInt8) : List UInt8 :=
  leBytes 4 (40 + kind.length) ++ (head type flags ifindex ++ (Rtattr.mk (.ofNat TCA_KIND) kind).data)

@[simp] theorem head_length (type flags : Nat) (ifindex : UInt32) :
    (head type flags ifindex).length = 32 := by
  simp [head]

theorem request_length (type flags : Nat) (ifindex : UInt32) (kind : List UInt8) :
    (request type flags ifindex kind).length = 40 + kind.length := by
  simp [request]
  omega

/-- A `tcmsg` up to `tcm_info`. -/
def tcmsgFront (ifindex : UInt32) : List UInt8 :=
  leBytes 1 AF_UNSPEC ++ (List.replicate 3 0 ++ (leBytes 4 ifindex.toNat ++
    (leBytes 4 (tcHMake TC_H_CLSACT 0) ++ leBytes 4 TC_H_CLSACT)))

@[simp] theorem tcmsgFront_length (ifindex : UInt32) : (tcmsgFront ifindex).length = 16 := by
  simp [tcmsgFront]

theorem tcmsg_eq (ifindex : UInt32) : tcmsg ifindex = tcmsgFront ifindex ++ List.replicate 4 0 := by
  simp only [tcmsg, tcmsgFront, List.append_assoc]
  rfl

section filled

variable {m : Mem} {lim len type flags : Nat} {ifindex : UInt32} {kind : List UInt8}

theorem filled_front (h : Filled m 0 lim []) (hl : 36 ≤ lim) :
    Filled (fillQdiscTcmsg (fillHeader m len type flags) 16 ifindex) 0 lim
      (leBytes 4 len ++ (hdrTail type flags ++ tcmsgFront ifindex)) := by
  have h1 := filled_fillHeader h (by omega) len type flags
  have h2 := h1.append 0 (leBytes 1 AF_UNSPEC) (q := 16) (by simp) (by simp; omega)
  have h3 := h2.append 3 (leBytes 4 ifindex.toNat) (q := 20) (by simp) (by simp; omega)
  have h4 := h3.append 0 (leBytes 4 (tcHMake TC_H_CLSACT 0)) (q := 24) (by simp) (by simp; omega)
  have h5 := h4.append 0 (leBytes 4 TC_H_CLSACT) (q := 28) (by simp) (by simp; omega)
  simp only [List.append_assoc, List.replicate_zero, List.nil_append] at h5
  exact h5

/-- The kind attribute goes behind `tcm_info`, which stays zero. -/
theorem filled_kind (kind : List UInt8)
    (h : Filled m 0 lim (leBytes 4 len ++ (hdrTail type flags ++ tcmsgFront ifindex)))
    {p l : Nat} (hp : p = 36) (hn : l = 4 + kind.length) (hl : 36 + l ≤ lim) (hf : l < 65536) :
    Filled (addAttr m p TCA_KIND l kind) 0 lim
        (leBytes 4 len ++ (head type flags ifindex ++ (Rtattr.mk (.ofNat TCA_KIND) kind).data)) ∧
      rtaLen (addAttr m p TCA_KIND l kind) p = l := by
  have h1 := filled_attr (p := p) (t := TCA_KIND) h 4 ⟨.ofNat TCA_KIND, kind⟩ (by simp [hp]) rfl hn
    (by omega)
  have h2 : Filled (addAttr m p TCA_KIND l kind) 0 lim
      ((leBytes 4 len ++ head type flags ifindex) ++ (Rtattr.mk (.ofNat TCA_KIND) kind).data) := by
    simp only [head, tcmsg_eq, List.append_assoc] at h1 ⊢
    exact h1
  have hrta := rtaLen_of_holds (h2.behind (q := p) (by simp [hp])) (by simp; omega)
  rw [List.append_assoc] at h2
  exact ⟨h2, hrta.trans hn.symm⟩

theorem sent_of_filled (h : Filled m 0 lim (request type flags ifindex kind))
    (hk : kind.length < 65536) : m.bytes 0 (nlmsgLen m 0) = request type flags ifindex kind := by
  have hl := nlmsgLen_of_filled h (by omega)
  exact h.bytes_eq (hl.trans (request_length type flags ifindex kind).symm)

end filled

end Qdisc

/-- The kind of `add-qdisc` and `del-qdisc` goes out without its NUL. -/
theorem sendQdiscRequest_eq (stack : Mem) (type flags : Nat) (ifindex : UInt32) :
    sendQdiscRequest stack type flags ifindex = Qdisc.request type flags ifindex clsact.chars := by
  have h0 := Filled.clear stack 0 548
  have h1 : Filled _ 0 548 (leBytes 4 36 ++ (hdrTail type flags ++ Qdisc.tcmsgFront ifindex)) :=
    Qdisc.filled_front h0 (by decide)
  have hat : nlmsgAlign (nlmsgLen _ 0) = 36 := congrArg nlmsgAlign (nlmsgLen_of_filled h1 (by decide))
  obtain ⟨h2, hrta⟩ := Qdisc.filled_kind clsact.chars h1 hat
    (rfl : rtaLength (clsact.strnlen 6) = _) (by decide) (by decide)
  have hlen := nlmsgLen_of_filled h2 (by decide)
  have h3 : Filled _ 0 548 (Qdisc.request type flags ifindex clsact.chars) :=
    filled_setNlmsgLen h2 (congrArg₂ (fun l r => nlmsgAlign l + r) hlen hrta)
  exact Qdisc.sent_of_filled h3 (by decide)

theorem TcDetach.sendRequest_eq (stack : Mem) (ifindex : UInt32) :
    sendRequest stack ifindex = Qdisc.request RTM_DELQDISC NLM_F_REQUEST ifindex clsact.bytes := by
  have h0 := Filled.clear stack 0 512
  have h1 : Filled _ 0 512
      (leBytes 4 47 ++ (hdrTail RTM_DELQDISC NLM_F_REQUEST ++ Qdisc.tcmsgFront ifindex)) :=
    Qdisc.filled_front h0 (by decide)
  have hat : nlmsgSpace sizeofTcmsg = 36 := by decide
  have h2 : Filled _ 0 512 (Qdisc.request RTM_DELQDISC NLM_F_REQUEST ifindex clsact.bytes) :=
    (Qdisc.filled_kind clsact.bytes h1 hat rfl (by decide) (by decide)).1
  exact Qdisc.sent_of_filled h2 (by decide)

end SnippetsC.Netlink
