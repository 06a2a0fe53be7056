import SnippetsC.Netlink.FilterRequest
import SnippetsC.Netlink.QdiscCommands
import SnippetsC.Netlink.Senders
import SnippetsC.Netlink.SetNetnsPid

namespace SnippetsC.Netlink

/-! Whatever a program sends is one whole message. -/

/-- A request that one of the programs sends, with what goes into it. -/
inductive Request where
  | getLinks
  | addAddr (ifindex : UInt32) (prefixlen : UInt8) (ifAddr : UInt32)
  | delAddr (ifindex : UInt32) (prefixlen : UInt8) (ifAddr : UInt32)
  | addVeth (kind : CString)
  | addVethIfname1 (ifName1 kind : CString)
  | addVethIfname2 (ifName1 kind ifName2 : CString)
  | delLink (ifindex : UInt32)
  | setMtu
  | setIfname (ifindex : UInt32) (newName : CString)
  | setLinkUp (ifindex : UInt32)
  | setNetnsFd (ifindex : UInt32) (targetFd : Int32)
  | setNetnsPid (ifindex : UInt32) (targetPid : Int32)
  | addQdisc (ifindex : UInt32)
  | delQdisc (ifindex : UInt32)
  | addTcfilter (ifindex bpfFd : UInt32)
  | tcAttachQdisc (ifindex : UInt32)
  | tcAttachFilter (ifindex bpfFd : UInt32)
  | tcDetach (ifindex : UInt32)

namespace Request

/-- What the program gives to `sendmsg`. -/
def bytes (stack : Mem) : Request → List UInt8
  | getLinks => GetLinks.sendRequest stack
  | addAddr ifindex prefixlen ifAddr => AddAddr.sendRequest stack ifindex prefixlen ifAddr
  | delAddr ifindex prefixlen ifAddr => DelAddr.sendRequest stack ifindex prefixlen ifAddr
  | addVeth kind => AddVeth.sendRequest stack kind
  | addVethIfname1 ifName1 kind => AddVethIfname1.sendRequest stack ifName1 kind
  | addVethIfname2 ifName1 kind ifName2 => AddVethIfname2.sendRequest stack ifName1 kind ifName2
  | delLink ifindex => DelLink.sendRequest stack ifindex
  | setMtu => SetMtu.sendRequest stack
  | setIfname ifindex newName => SetIfname.sendRequest stack ifindex newName
  | setLinkUp ifindex => SetLinkUp.sendRequest stack ifindex
  | setNetnsFd ifindex targetFd => SetNetnsFd.sendRequest stack ifindex targetFd
  | setNetnsPid ifindex targetPid => SetNetnsPid.sendRequest stack ifindex targetPid
  | addQdisc ifindex => AddQdisc.sendRequest stack ifindex
  | delQdisc ifindex => DelQdisc.sendRequest stack ifindex
  | addTcfilter ifindex bpfFd => AddTcfilter.sendRequest stack bpf acceptAll ifindex bpfFd
  | tcAttachQdisc ifindex => TcAttach.sendRequestQdisc stack ifindex
  | tcAttachFilter ifindex bpfFd => TcAttach.sendRequestFilter stack bpf acceptAll ifindex bpfFd
  | tcDetach ifindex => TcDetach.sendRequest stack ifindex

/-- The size of the buffer the program fills. -/
def room : Request → Nat
  | getLinks => 20
  | addAddr .. | delAddr .. => 536
  | addVeth .. | addVethIfname1 .. | addVethIfname2 .. => 1056
  | delLink .. | setLinkUp .. => 32
  | setMtu | setIfname .. | setNetnsFd .. | setNetnsPid .. => 544
  | addQdisc .. | delQdisc .. | addTcfilter .. => 548
  | tcAttachQdisc .. | tcAttachFilter .. | tcDetach .. => 512

def linkContent (type : Nat) (ifindex : UInt32) (flags : Nat) (attrs : List Rtattr) : Content :=
  ⟨type, NLM_F_REQUEST, ifiBytes ifindex flags, attrs⟩

def qdiscContent (type flags : Nat) (ifindex : UInt32) (kind : List UInt8) : Content :=
  ⟨type, flags, Qdisc.tcmsg ifindex, [⟨.ofNat TCA_KIND, kind⟩]⟩

def filterContent (ifindex bpfFd : UInt32) : Content :=
  ⟨RTM_NEWTFILTER, NLM_F_REQUEST ||| NLM_F_CREATE, Filter.tcmsg ifindex,
    [Filter.kindAttr bpf, Filter.optionsAttr acceptAll bpfFd]⟩

/-- What the builder puts in. Names and kinds are as it cuts them. -/
def content : Request → Content
  | getLinks => ⟨RTM_GETLINK, NLM_F_REQUEST ||| NLM_F_DUMP, leBytes 1 AF_PACKET, []⟩
  | addAddr ifindex prefixlen ifAddr => ⟨RTM_NEWADDR, NLM_F_REQUEST ||| NLM_F_CREATE,
      addrBytes ifindex prefixlen, [localAttr ifAddr]⟩
  | delAddr ifindex prefixlen ifAddr =>
    ⟨RTM_DELADDR, NLM_F_REQUEST, addrBytes ifindex prefixlen, [localAttr ifAddr]⟩
  | addVeth kind => vethContent [kindInfoAttr kind]
  | addVethIfname1 ifName1 kind =>
    vethContent [AddVethIfname2.ifnameAttr ifName1, kindInfoAttr kind]
  | addVethIfname2 ifName1 kind ifName2 =>
    vethContent [AddVethIfname2.ifnameAttr ifName1, AddVethIfname2.infoAttr kind ifName2]
  | delLink ifindex => linkContent RTM_DELLINK ifindex 0 []
  | setMtu => linkContent RTM_NEWLINK SetMtu.IF_INDEX 0 [mtuAttr]
  | setIfname ifindex newName => linkContent RTM_NEWLINK ifindex 0 [newNameAttr newName]
  | setLinkUp ifindex => linkContent RTM_SETLINK ifindex IFF_UP []
  | setNetnsFd ifindex targetFd => linkContent RTM_SETLINK ifindex 0 [fdAttr targetFd]
  | setNetnsPid ifindex targetPid =>
    linkContent RTM_SETLINK ifindex 0 [pidAttr targetPid.toUInt32.toNat]
  | addQdisc ifindex =>
    qdiscContent RTM_NEWQDISC (NLM_F_REQUEST ||| NLM_F_CREATE) ifindex clsact.chars
  | delQdisc ifindex => qdiscContent RTM_DELQDISC NLM_F_REQUEST ifindex clsact.chars
  | tcAttachQdisc ifindex =>
    qdiscContent RTM_NEWQDISC (NLM_F_REQUEST ||| NLM_F_CREATE) ifindex clsact.bytes
  | tcDetach ifindex => qdiscContent RTM_DELQDISC NLM_F_REQUEST ifindex clsact.bytes
  | addTcfilter ifindex bpfFd | tcAttachFilter ifindex bpfFd => filterContent ifindex bpfFd

theorem linkContent_message (type : Nat) (ifindex : UInt32) (flags : Nat) (attrs : List Rtattr) :
    (linkContent type ifindex flags attrs).message =
      linkMessage type ifindex flags (encodeTight attrs) := by
  simp only [Content.message, Content.len, linkContent, linkMessage, linkHead, List.append_assoc]
  rfl

theorem qdiscContent_message (type flags : Nat) (ifindex : UInt32) (kind : List UInt8) :
    (qdiscContent type flags ifindex kind).message = Qdisc.request type flags ifindex kind := by
  have hlen : (qdiscContent type flags ifindex kind).len = 40 + kind.length := by
    simp [Content.len, qdiscContent, encodeTight]
    omega
  rw [Content.message, hlen, Qdisc.request, Qdisc.head, List.append_assoc]
  rfl

theorem filterContent_len (ifindex bpfFd : UInt32) :
    (filterContent ifindex bpfFd).len = Filter.size bpf acceptAll := by
  have hopt := Filter.optionsAttr_length acceptAll bpfFd
  simp only [Content.len, filterContent, encodeTight, List.length_append, Rtattr.padded_length,
    Rtattr.data_length, Filter.tcmsg_length, Filter.kindAttr_room, Filter.size]
  omega

theorem filterContent_message (ifindex bpfFd : UInt32) :
    (filterContent ifindex bpfFd).message = Filter.message bpf acceptAll ifindex bpfFd := by
  rw [Content.message, filterContent_len, Filter.message, Filter.head, List.append_assoc]
  rfl

theorem vethContent_message (ifName1 kind ifName2 : CString) :
    (vethContent [AddVethIfname2.ifnameAttr ifName1, AddVethIfname2.infoAttr kind ifName2]).message =
      AddVethIfname2.message ifName1 kind ifName2 := by
  have hlen : (vethContent [AddVethIfname2.ifnameAttr ifName1,
      AddVethIfname2.infoAttr kind ifName2]).len = AddVethIfname2.size ifName1 kind ifName2 := by
    simp only [Content.len, vethContent, encodeTight, List.length_append, Rtattr.padded_length,
      Rtattr.data_length, AddVethIfname2.ifinfo_length, AddVethIfname2.size]
    omega
  rw [Content.message, hlen, AddVethIfname2.message, AddVethIfname2.head, List.append_assoc]
  rfl

theorem bytes_eq (r : Request) (stack : Mem) : r.bytes stack = r.content.message := by
  cases r with
  | getLinks => exact GetLinks.sendRequest_eq stack
  | addAddr ifindex prefixlen ifAddr => exact sendAddrRequest_eq stack _ _ ifindex prefixlen ifAddr
  | delAddr ifindex prefixlen ifAddr => exact sendAddrRequest_eq stack _ _ ifindex prefixlen ifAddr
  | addVeth kind => exact AddVeth.sendRequest_eq stack kind
  | addVethIfname1 ifName1 kind => exact AddVethIfname1.sendRequest_eq stack ifName1 kind
  | addVethIfname2 ifName1 kind ifName2 =>
    rw [bytes, AddVethIfname2.sendRequest_eq, content, vethContent_message]
  | delLink ifindex =>
    rw [bytes, DelLink.sendRequest_eq, content, linkContent_message, encodeTight]
  | setMtu => rw [bytes, SetMtu.sendRequest_eq, content, linkContent_message, encodeTight]
  | setIfname ifindex newName =>
    rw [bytes, SetIfname.sendRequest_eq, content, linkContent_message, encodeTight]
  | setLinkUp ifindex =>
    rw [bytes, SetLinkUp.sendRequest_eq, content, linkContent_message, encodeTight]
  | setNetnsFd ifindex targetFd =>
    rw [bytes, SetNetnsFd.sendRequest_eq, content, linkContent_message, encodeTight]
  | setNetnsPid ifindex targetPid =>
    rw [bytes, SetNetnsPid.sendRequest_eq, content, linkContent_message, encodeTight]
  | addQdisc ifindex =>
    rw [bytes, AddQdisc.sendRequest, sendQdiscRequest_eq, content, qdiscContent_message]
  | delQdisc ifindex =>
    rw [bytes, DelQdisc.sendRequest, sendQdiscRequest_eq, content, qdiscContent_message]
  | tcAttachQdisc ifindex =>
    rw [bytes, TcAttach.sendRequestQdisc_eq, content, qdiscContent_message, Qdisc.request,
      Qdisc.head, List.append_assoc]
    rfl
  | tcDetach ifindex => rw [bytes, TcDetach.sendRequest_eq, content, qdiscContent_message]
  | addTcfilter ifindex bpfFd =>
    rw [bytes, AddTcfilter.sendRequest_eq stack (by decide) (by decide), content,
      filterContent_message]
  | tcAttachFilter ifindex bpfFd =>
    rw [bytes, TcAttach.sendRequestFilter_eq stack (by decide), content, filterContent_message]

theorem len_le_room (r : Request) : r.content.len ≤ r.room := by
  cases r with
  | addVeth kind =>
    have hcap : kind.strnlen KIND_MAXLEN ≤ 5 := kind.strnlen_le _
    simp only [content, Content.len, vethContent, encodeTight, kindInfoAttr_data_length,
      AddVethIfname2.ifinfo_length, room]
    omega
  | addVethIfname1 ifName1 kind =>
    have hcap : kind.strnlen KIND_MAXLEN ≤ 5 := kind.strnlen_le _
    have hname : ifName1.strnlen IF_MAXLEN ≤ 15 := ifName1.strnlen_le _
    have hroom := alignUp_lt 4 (4 + ifName1.strnlen IF_MAXLEN)
    simp only [content, Content.len, vethContent, encodeTight, List.length_append,
      Rtattr.padded_length, kindInfoAttr_data_length, AddVethIfname2.ifinfo_length, Rtattr.room,
      AddVethIfname2.ifnameAttr_length, room]
    omega
  | addVethIfname2 ifName1 kind ifName2 =>
    have hsize := AddVethIfname2.size_le ifName1 kind ifName2
    have hlen := AddVethIfname2.message_length ifName1 kind ifName2
    rw [← vethContent_message, Content.message_length] at hlen
    rw [content, hlen, room]
    omega
  | setIfname ifindex newName =>
    have hname : (newNameAttr newName).payload.length ≤ 15 := List.length_take_le 15 _
    simp only [content, linkContent, Content.len, encodeTight, Rtattr.data_length, ifiBytes,
      List.length_append, List.length_replicate, leBytes_length, room]
    omega
  | addTcfilter ifindex bpfFd => exact (filterContent_len ifindex bpfFd).trans_le (by rw [room]; decide)
  | tcAttachFilter ifindex bpfFd => exact (filterContent_len ifindex bpfFd).trans_le (by rw [room]; decide)
  | _ =>
    simp [content, linkContent, qdiscContent, Content.len, encodeTight, ifiBytes, addrBytes,
      localAttr, mtuAttr, fdAttr, pidAttr, clsact, room]

theorem sound (r : Request) : r.content.Sound := by
  refine ⟨?_, ?_, ?_, ?_⟩
  · cases r <;> exact of_decide_eq_true rfl
  · cases r <;> exact of_decide_eq_true rfl
  · have hle := r.len_le_room
    have hroom : r.room ≤ 1056 := by cases r <;> exact of_decide_eq_true rfl
    omega
  · intro hattrs
    cases r with
    | getLinks => exact absurd rfl hattrs
    | _ => simp [content, linkContent, qdiscContent, filterContent, vethContent, ifiBytes, addrBytes]

/-- The bytes of any request are one message, as long as its `nlmsg_len` says and no longer than the
buffer it is built in, and a receiver finds in it just what was meant. -/
theorem request_decodes (r : Request) (stack buf : Mem) :
    let m := buf.write 0 (r.bytes stack)
    let len := (r.bytes stack).length
    len ≤ r.room ∧ nlmsgLen m 0 = len ∧ NlmsgOk m 0 len ∧
      nlmsgType m 0 = r.content.type ∧ nlmsgFlags m 0 = r.content.flags ∧
      m.bytes (nlmsgData 0) r.content.fixed.length = r.content.fixed ∧
      decodeRtas m (nlmsgSpace r.content.fixed.length)
        ((nlmsgLen m 0 : Int) - nlmsgSpace r.content.fixed.length) = r.content.attrs := by
  intro m len
  have hm : m.Holds 0 r.content.message := r.bytes_eq stack ▸ Mem.holds_write buf 0 (r.bytes stack)
  have hlen : len = r.content.len := (congrArg _ (r.bytes_eq stack)).trans r.content.message_length
  have hlt := r.sound.len_lt
  obtain ⟨hnl, htype, hflags, hfixed, hattrs⟩ := decode_message hm r.sound
  refine ⟨hlen.trans_le r.len_le_room, hnl.trans hlen.symm, ⟨?_, ?_, ?_⟩, htype, hflags, hfixed,
    hattrs⟩
  · rw [hlen, Content.len, sizeofNlmsghdr]
    omega
  · rw [hnl, Content.len, sizeofNlmsghdr]
    omega
  · rw [hnl, toUnsigned_of_range (by omega) (by omega), hlen]

end Request

end SnippetsC.Netlink
