import SnippetsC.Netlink.AddVeth

namespace SnippetsC.Netlink

/-- An interface name that `IF_MAXLEN` leaves whole. -/
structure IfName extends CString where
  pos : 0 < chars.length
  le_maxlen : chars.length ≤ IF_MAXLEN

namespace AddVethIfname2

/-- Where the attributes of the message start. -/
def attrs : Nat := nlmsgSpace sizeofIfinfomsg

/-- What a receiver finds in a data attribute: one peer attribute, in it an `ifinfomsg` and the
name, each inside its parent. -/
structure DecodesData (m : Mem) (name2 : List UInt8) (data : Nat) : Prop where
  type : (rtattrAt m data).type = .ofNat (IFLA_INFO_DATA ||| NLA_F_NESTED)
  walk : (rtaWalk m (rtaData data) (rtaPayload m data)).1 = [rtaData data]
  peer_type : (rtattrAt m (rtaData data)).type = .ofNat VETH_INFO_PEER
  peer_ifi : m.bytes (rtaData (rtaData data)) sizeofIfinfomsg = ifinfo
  peer_name : decodeRtas m (rtaData (rtaData data) + sizeofIfinfomsg)
    (rtaPayload m (rtaData data) - sizeofIfinfomsg) = [⟨.ofNat IFLA_IFNAME, name2⟩]
  peer_inside : rtaData data + rtaLen m (rtaData data) ≤ data + rtaLen m data
  name_inside : rtaData (rtaData data) + sizeofIfinfomsg +
    rtaLen m (rtaData (rtaData data) + sizeofIfinfomsg) ≤ rtaData data + rtaLen m (rtaData data)

/-- What a receiver finds in the message; `info` and `data` are where the link info and the data
attribute lie. -/
structure Decodes (m : Mem) (name1 name2 : List UInt8) (info data : Nat) : Prop where
  walk : (rtaWalk m attrs (nlmsgLen m 0 - attrs)).1 = [attrs, info]
  name1 : rtattrAt m attrs = ⟨.ofNat IFLA_IFNAME, name1⟩
  info_type : (rtattrAt m info).type = .ofNat (IFLA_LINKINFO ||| NLA_F_NESTED)
  info_walk : (rtaWalk m (rtaData info) (rtaPayload m info)).1 = [rtaData info, data]
  kind : rtattrAt m (rtaData info) = ⟨.ofNat IFLA_INFO_KIND, veth.chars⟩
  inner : DecodesData m name2 data
  name1_inside : attrs + rtaLen m attrs ≤ info
  kind_inside : rtaData info + rtaLen m (rtaData info) ≤ data
  data_inside : data + rtaLen m data ≤ info + rtaLen m info
  info_end : info + rtaLen m info = nlmsgLen m 0

theorem ifnameAttr_eq (name : IfName) :
    ifnameAttr name.toCString = ⟨.ofNat IFLA_IFNAME, name.chars⟩ := by
  rw [ifnameAttr, List.take_of_length_le name.le_maxlen]

theorem ifnameAttr_le (name : CString) : (ifnameAttr name).payload.length ≤ 15 :=
  ifnameAttr_length name ▸ name.strnlen_le _

section holds

variable {m : Mem} {p : Nat} {name1 name2 kind : CString}

theorem holds_attrs (h : m.Holds 0 (message name1 kind name2)) :
    m.Holds attrs ((ifnameAttr name1).padded ++ (infoAttr kind name2).data) := by
  obtain ⟨-, h1⟩ := Mem.holds_append.mp h
  obtain ⟨-, h2⟩ := Mem.holds_append.mp h1
  exact h2

theorem holds_payload {a : Rtattr} (h : m.Holds p a.data) : m.Holds (rtaData p) a.payload := by
  rw [← rtaBytes_payload] at h
  exact (Mem.holds_append.mp h).2

theorem decodes_data (h : m.Holds p (dataAttr name2).data) :
    DecodesData m (ifnameAttr name2).payload p := by
  have hcap := ifnameAttr_le name2
  have hd := dataAttr_length name2
  have hp := peerAttr_length name2
  rw [← ifnameAttr_length] at hd hp
  have hpeer := holds_payload h
  obtain ⟨hifi, hname⟩ := Mem.holds_append.mp (holds_payload hpeer)
  have hdl := rtaLen_of_holds h (by omega)
  have hpl := rtaLen_of_holds hpeer (by omega)
  have hnl := rtaLen_of_holds hname (by omega)
  have hdp := rtaPayload_of_holds h (by omega)
  have hpp := rtaPayload_of_holds hpeer (by omega)
  have hlen : rtaPayload m (rtaData p) - sizeofIfinfomsg = (ifnameAttr name2).data.length := by
    rw [hpp, Rtattr.data_length, sizeofIfinfomsg]
    omega
  have hname' : rtaData (rtaData p) + sizeofIfinfomsg +
      rtaLen m (rtaData (rtaData p) + sizeofIfinfomsg) =
      rtaData (rtaData p) + sizeofIfinfomsg + (4 + (ifnameAttr name2).payload.length) :=
    congrArg _ hnl
  constructor
  · exact congrArg Rtattr.type (rtattrAt_of_holds h (by omega))
  · exact congrArg Prod.fst (rtaWalk_one hpeer hdp (by omega)).1
  · exact congrArg Rtattr.type (rtattrAt_of_holds hpeer (by omega))
  · exact hifi
  · exact (rtaWalk_one hname hlen (by omega)).2
  · rw [hpl, hdl, rtaData_eq]
    omega
  · rw [hname', hpl, rtaData_eq, rtaData_eq, sizeofIfinfomsg]
    omega

/-- The link info attribute of the message is found, with everything that was put into it. -/
theorem message_info (h : m.Holds 0 (message name1 kind name2)) :
    (rtaWalk m attrs (nlmsgLen m 0 - attrs)).1 = [attrs, attrs + (ifnameAttr name1).room] ∧
      m.Holds (attrs + (ifnameAttr name1).room) (infoAttr kind name2).data := by
  have hsize := size_le name1 kind name2
  have hlen : nlmsgLen m 0 = size name1 kind name2 := nlmsgLen_of_leBytes h (by omega)
  have h32 : attrs = 32 := by decide
  have hmsg : (nlmsgLen m 0 : Int) - attrs =
      (ifnameAttr name1).room + (infoAttr kind name2).data.length := by
    rw [hlen, size, Rtattr.data_length, h32]
    omega
  obtain ⟨-, hinfo⟩ := Mem.holds_append.mp (holds_attrs h)
  rw [Rtattr.padded_length] at hinfo
  exact ⟨congrArg Prod.fst (rtaWalk_two (holds_attrs h) hmsg (by omega)), hinfo⟩

/-- The kind "veth" needs no padding: the data attribute behind it is where a walk looks for it. -/
theorem decodes_message (h : m.Holds 0 (message name1 veth name2)) :
    Decodes m (ifnameAttr name1).payload (ifnameAttr name2).payload
      (attrs + (ifnameAttr name1).room) (rtaData (attrs + (ifnameAttr name1).room) + 8) := by
  have hcap := ifnameAttr_le name1
  have hcap2 := ifnameAttr_le name2
  have hroom := (ifnameAttr name1).length_le_room
  have hsize := size_le name1 veth name2
  have hlen : nlmsgLen m 0 = size name1 veth name2 := nlmsgLen_of_leBytes h (by omega)
  have hi : 4 + (infoAttr veth name2).payload.length = 40 + (ifnameAttr name2).payload.length := by
    rw [infoAttr_length, ifnameAttr_length]
    rfl
  have hd := dataAttr_length name2
  rw [← ifnameAttr_length] at hd
  have h32 : attrs = 32 := by decide
  have hkl : (kindAttr veth).payload.length = 4 := rfl
  have hkr : (kindAttr veth).room = 8 := rfl
  obtain ⟨hwalk, hinfo⟩ := message_info h
  obtain ⟨hpad1, -⟩ := Mem.holds_append.mp (holds_attrs h)
  obtain ⟨hname1, -⟩ := Mem.holds_append.mp hpad1
  obtain ⟨hkind, hdata⟩ := Mem.holds_append.mp (holds_payload hinfo)
  have hpi : rtaPayload m (attrs + (ifnameAttr name1).room) =
      (kindAttr veth).room + (dataAttr name2).data.length := by
    rw [rtaPayload_of_holds hinfo (by omega), Rtattr.data_length, hkr]
    omega
  have hnl := rtaLen_of_holds hname1 (by omega)
  have hil := rtaLen_of_holds hinfo (by omega)
  have hkl' := rtaLen_of_holds hkind (by omega)
  have hdl := rtaLen_of_holds hdata (by omega)
  have hname := rtattrAt_of_holds hname1 (by omega)
  have hkind' := rtattrAt_of_holds hkind (by omega)
  have hpi' : rtaPayload m (attrs + (ifnameAttr name1).room) < 65536 := by
    rw [hpi, Rtattr.data_length, hkr]
    omega
  constructor
  · exact hwalk
  · exact hname
  · exact congrArg Rtattr.type (rtattrAt_of_holds hinfo (by omega))
  · exact congrArg Prod.fst (rtaWalk_two (holds_payload hinfo) hpi hpi')
  · exact hkind'
  · exact decodes_data hdata
  · rw [hnl]
    omega
  · rw [hkl', hkl]
  · change _ + rtaLen m (rtaData (attrs + (ifnameAttr name1).room) + (kindAttr veth).data.length) ≤
      _
    rw [hdl, hil, rtaData_eq]
    omega
  · rw [hil, hlen, size, h32]

end holds

end AddVethIfname2

/-- For all names of 1 to 15 bytes the message of `add-veth-ifname2` decodes, level by level, to
what was meant. -/
theorem addVethIfname2_decodes (stack buf : Mem) (name1 name2 : IfName) :
    let sent := AddVethIfname2.sendRequest stack name1.toCString veth name2.toCString
    nlmsgLen (buf.write 0 sent) 0 = sent.length ∧
      ∃ info data, AddVethIfname2.Decodes (buf.write 0 sent) name1.chars name2.chars info data := by
  intro sent
  have heq : sent = AddVethIfname2.message name1.toCString veth name2.toCString :=
    AddVethIfname2.sendRequest_eq stack _ _ _
  have hsent : (buf.write 0 sent).Holds 0
      (AddVethIfname2.message name1.toCString veth name2.toCString) :=
    heq ▸ Mem.holds_write buf 0 sent
  have hsize := AddVethIfname2.size_le name1.toCString veth name2.toCString
  have hlen : nlmsgLen (buf.write 0 sent) 0 = sent.length := by
    rw [nlmsgLen_of_leBytes hsent (by omega), heq, AddVethIfname2.message_length]
  have h := AddVethIfname2.decodes_message hsent
  rw [AddVethIfname2.ifnameAttr_eq name1, AddVethIfname2.ifnameAttr_eq name2] at h
  exact ⟨hlen, _, _, h⟩

/-- The second name is as long as a name can be. -/
theorem addVethIfname2_decodes_fifteen :
    let name1 : IfName := ⟨⟨[0x76, 0x30], by decide⟩, by decide, by decide⟩
    let name2 : IfName := ⟨⟨List.replicate 15 0x76, by decide⟩, by decide, by decide⟩
    let sent := AddVethIfname2.sendRequest (fun _ => 0) name1.toCString veth name2.toCString
    ∃ info data, AddVethIfname2.Decodes (Mem.write (fun _ => 0) 0 sent) name1.chars name2.chars
      info data := by
  intro name1 name2 sent
  exact (addVethIfname2_decodes (fun _ => 0) (fun _ => 0) name1 name2).2

end SnippetsC.Netlink
