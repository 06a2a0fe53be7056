import SnippetsC.Netlink.FilterRequest

namespace SnippetsC.Netlink

/-! The qdisc request of `tc-attach`. -/

def RTM_NEWQDISC : Nat := 36

/-- The literal `kind` of `send_request_qdisc`. -/
def clsact : CString := ⟨[0x63, 0x6c, 0x73, 0x61, 0x63, 0x74], by decide⟩

namespace TcAttach

def qdiscLen : Nat := nlmsgSpace sizeofTcmsg + rtaLength (clsact.strlen + 1)

/-- The stores of `send_request_qdisc` into `msg_buf`; `tcm_info` is left at zero. -/
def fillQdisc (m : Mem) (ifindex : UInt32) : Mem :=
  let tcm := nlmsgData 0
  let m := fillHeader m qdiscLen RTM_NEWQDISC (NLM_F_REQUEST ||| NLM_F_CREATE)
  let m := m.store8 tcm 0
  let m := m.store32 (tcm + 4) ifindex.toNat
  let m := m.store32 (tcm + 8) (tcHMake TC_H_CLSACT 0)
  let m := m.store32 (tcm + 12) TC_H_CLSACT
  addAttr m attrBuf TCA_KIND (rtaLength (clsact.strlen + 1)) clsact.bytes

/-- `send_request_qdisc`: what `sendmsg` is given; `msg_buf` is 512 zero bytes at first. -/
def sendRequestQdisc (stack : Mem) (ifindex : UInt32) : List UInt8 :=
  let m := fillQdisc (stack.clear 0 512) ifindex
  m.bytes 0 (nlmsgLen m 0)

end TcAttach

namespace Qdisc

def tcmsg (ifindex : UInt32) : List UInt8 :=
  leBytes 1 0 ++ (List.replicate 3 0 ++ (leBytes 4 ifindex.toNat ++
    (leBytes 4 (tcHMake TC_H_CLSACT 0) ++ (leBytes 4 TC_H_CLSACT ++ List.replicate 4 0))))

def message (ifindex : UInt32) : List UInt8 :=
  leBytes 4 TcAttach.qdiscLen ++ (hdrTail RTM_NEWQDISC (NLM_F_REQUEST ||| NLM_F_CREATE) ++
    (tcmsg ifindex ++ (Filter.kindAttr clsact).data))

@[simp] theorem tcmsg_length (ifindex : UInt32) : (tcmsg ifindex).length = 20 := by
  simp [tcmsg]

theorem message_length (ifindex : UInt32) : (message ifindex).length = TcAttach.qdiscLen := by
  rw [message, List.length_append, List.length_append, List.length_append, leBytes_length,
    hdrTail_length, tcmsg_length, Rtattr.data_length, Filter.kindAttr_length]
  decide

end Qdisc

theorem TcAttach.sendRequestQdisc_eq (stack : Mem) (ifindex : UInt32) :
    sendRequestQdisc stack ifindex = Qdisc.message ifindex := by
  have h0 := Filled.clear stack 0 512
  have h1 := filled_fillHeader h0 (by decide) qdiscLen RTM_NEWQDISC
    (NLM_F_REQUEST ||| NLM_F_CREATE)
  have h2 := h1.append 0 (leBytes 1 0) (q := 16) (by simp) (by simp)
  have h3 := h2.append 3 (leBytes 4 ifindex.toNat) (q := 20) (by simp) (by simp)
  have h4 := h3.append 0 (leBytes 4 (tcHMake TC_H_CLSACT 0)) (q := 24) (by simp) (by simp)
  have h5 := h4.append 0 (leBytes 4 TC_H_CLSACT) (q := 28) (by simp) (by simp)
  have h6 := filled_attr (p := attrBuf) (l := rtaLength (clsact.strlen + 1)) h5 4
    (Filter.kindAttr clsact) (by simp [attrBuf_eq]) rfl rfl (by decide)
  simp only [List.append_assoc, List.replicate_zero, List.nil_append] at h6
  have hf : Filled (fillQdisc (stack.clear 0 512) ifindex) 0 512 (Qdisc.message ifindex) := by
    simp only [Qdisc.message, Qdisc.tcmsg, List.append_assoc]
    exact h6
  have hl : nlmsgLen (fillQdisc (stack.clear 0 512) ifindex) 0 = qdiscLen :=
    nlmsgLen_of_filled hf (by decide)
  exact hf.bytes_eq (hl.trans (Qdisc.message_length ifindex).symm)

end SnippetsC.Netlink
