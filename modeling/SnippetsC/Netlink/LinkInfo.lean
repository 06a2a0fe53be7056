import SnippetsC.Netlink.VethRequest

namespace SnippetsC.Netlink

/-! The link kinds for which `add_link_info` puts its second attribute where a walk looks for it. -/

section walk

variable {m : Mem} {p : Nat} {len : Int} {a b : Rtattr} {as : List Rtattr}

theorem rtaLen_of_rtattrAt (h4 : sizeofRtattr ≤ rtaLen m p) (h : rtattrAt m p = a) :
    rtaLen m p = 4 + a.payload.length := by
  have hlen : (rtattrAt m p).payload.length = (rtaPayload m p).toNat := Mem.bytes_length ..
  rw [h, rtaPayload, rtaLength_eq] at hlen
  unfold sizeofRtattr at h4
  omega

/-- What a walk finds first, and what is left of it. -/
theorem decodeRtas_cons (h : decodeRtas m p len = a :: as) :
    RtaOk m p len ∧ rtattrAt m p = a ∧ decodeRtas m (rtaNext m p) (rtaRest m p len) = as := by
  rw [decodeRtas, rtaWalk] at h
  split_ifs at h with hok
  · obtain ⟨hhead, htail⟩ := List.cons.inj h
    exact ⟨hok, hhead, htail⟩
  · cases h

/-- Two attributes need the room of the first and the bytes of the second. -/
theorem room_add_le (h : decodeRtas m p len = [a, b]) (hl : len < 2 ^ 31) :
    (a.room : Int) + b.data.length ≤ len := by
  obtain ⟨hok, ha, hrest⟩ := decodeRtas_cons h
  obtain ⟨hok', hb, -⟩ := decodeRtas_cons hrest
  have hstep : rtaFormat.step m p = a.room := by
    rw [Format.step, rtaFormat_size, rtaLen_of_rtattrAt hok.2.1 ha]
    rfl
  have hlast := hok'.2.2
  rw [rtaLen_of_rtattrAt hok'.2.1 hb, rtaRest_eq hok hl, hstep] at hlast
  rw [Rtattr.data_length]
  omega

theorem gap_eq_zero_iff (a : Rtattr) : a.gap = 0 ↔ 4 ∣ a.payload.length := by
  have hgap := a.add_gap
  constructor
  · intro h
    have hdvd : 4 ∣ a.room := dvd_alignUp 4 _
    omega
  · intro h
    have hroom : a.room = 4 + a.payload.length :=
      alignUp_of_dvd ((Nat.dvd_add_right (by decide)).mpr h)
    omega

/-- Two attributes that lie right behind each other are found exactly if the first one needs no
padding. -/
theorem decodeRtas_adjacent_iff (h : m.Holds p (a.data ++ b.data))
    (hlen : len = a.data.length + b.data.length) (hl : len < 65536) :
    decodeRtas m p len = [a, b] ↔ 4 ∣ a.payload.length := by
  rw [← gap_eq_zero_iff]
  have hgap := a.add_gap
  constructor
  · intro hdec
    have hroom := room_add_le hdec (by omega)
    simp only [hlen, Rtattr.data_length] at hroom
    push_cast at hroom
    omega
  · intro hzero
    have hpad : a.padded = a.data := by
      rw [Rtattr.padded, hzero]
      exact List.append_nil _
    have hflat : [a].flatMap Rtattr.padded = a.data := by
      rw [List.flatMap_singleton, hpad]
    rw [← hflat] at h hlen
    exact decodeRtas_attrs h hlen hl

end walk

namespace AddVethIfname2

/-- A link kind that `KIND_MAXLEN` leaves whole. -/
structure LinkKind extends CString where
  pos : 0 < chars.length
  le_maxlen : chars.length ≤ KIND_MAXLEN

theorem kindAttr_eq (kind : LinkKind) :
    kindAttr kind.toCString = ⟨.ofNat IFLA_INFO_KIND, kind.chars⟩ := by
  rw [kindAttr, List.take_of_length_le kind.le_maxlen]

section info

variable {m : Mem} {info : Nat} {kind name2 : CString}

/-- The payload of the link info attribute decodes to the kind and the data exactly for kinds that
need no padding. -/
theorem info_decodes_iff (h : m.Holds info (infoAttr kind name2).data) :
    decodeRtas m (rtaData info) (rtaPayload m info) = [kindAttr kind, dataAttr name2] ↔
      4 ∣ (kindAttr kind).payload.length := by
  have hcap : kind.strnlen KIND_MAXLEN ≤ 5 := kind.strnlen_le _
  have hcap2 : name2.strnlen IF_MAXLEN ≤ 15 := name2.strnlen_le _
  have hsize := infoAttr_length kind name2
  have hpay : rtaPayload m info = (kindAttr kind).data.length + (dataAttr name2).data.length := by
    rw [rtaPayload_of_holds h (by omega), infoAttr, List.length_append, Nat.cast_add]
  refine decodeRtas_adjacent_iff (holds_payload h) hpay ?_
  rw [rtaPayload_of_holds h (by omega)]
  omega

/-- The data attribute lies where the kind ends. -/
theorem holds_data (h : m.Holds info (infoAttr kind name2).data) :
    m.Holds (rtaData info + rtaLen m (rtaData info)) (dataAttr name2).data := by
  have hcap : kind.strnlen KIND_MAXLEN ≤ 5 := kind.strnlen_le _
  have hkind := kindAttr_length kind
  obtain ⟨hk, hd⟩ := Mem.holds_append.mp (holds_payload h)
  rw [rtaLen_of_holds hk (by omega), ← Rtattr.data_length]
  exact hd

end info

theorem holds_sent (stack buf : Mem) (name1 kind name2 : CString) :
    (buf.write 0 (sendRequest stack name1 kind name2)).Holds 0 (message name1 kind name2) := by
  rw [sendRequest_eq]
  exact Mem.holds_write buf 0 _

end AddVethIfname2

open AddVethIfname2

/-- For every link kind of 1 to `KIND_MAXLEN` bytes both attributes are written whole, and a walk
over the link info finds them exactly if the kind's length is a multiple of four. -/
theorem linkInfo_decodes_iff (stack buf : Mem) (name1 name2 : CString) (kind : LinkKind) :
    let m := buf.write 0 (sendRequest stack name1 kind.toCString name2)
    ∃ info, (rtaWalk m attrs (nlmsgLen m 0 - attrs)).1 = [attrs, info] ∧
      (rtattrAt m info).type = .ofNat (IFLA_LINKINFO ||| NLA_F_NESTED) ∧
      m.Holds (rtaData info + rtaLen m (rtaData info)) (dataAttr name2).data ∧
      (decodeRtas m (rtaData info) (rtaPayload m info) =
        [⟨.ofNat IFLA_INFO_KIND, kind.chars⟩, dataAttr name2] ↔ 4 ∣ kind.strlen) := by
  intro m
  obtain ⟨hwalk, hinfo⟩ := message_info (holds_sent stack buf name1 kind.toCString name2)
  have hcap : kind.toCString.strnlen KIND_MAXLEN ≤ 5 := kind.toCString.strnlen_le _
  have hcap2 : name2.strnlen IF_MAXLEN ≤ 15 := name2.strnlen_le _
  have hsize := infoAttr_length kind.toCString name2
  refine ⟨_, hwalk, congrArg Rtattr.type (rtattrAt_of_holds hinfo (by omega)), holds_data hinfo, ?_⟩
  have hiff := info_decodes_iff hinfo
  rw [kindAttr_eq] at hiff
  exact hiff

/-- A kind of five bytes. -/
def vxlan : LinkKind := ⟨⟨[0x76, 0x78, 0x6c, 0x61, 0x6e], by decide⟩, by decide, by decide⟩

/-- A walk over the link info of the kind "vxlan" does not find its data. -/
theorem linkInfo_loses_data :
    let m := Mem.write (fun _ => 0) 0 (sendRequest (fun _ => 0) veth vxlan.toCString veth)
    ∃ info, (rtaWalk m attrs (nlmsgLen m 0 - attrs)).1 = [attrs, info] ∧
      decodeRtas m (rtaData info) (rtaPayload m info) ≠
        [⟨.ofNat IFLA_INFO_KIND, vxlan.chars⟩, dataAttr veth] := by
  intro m
  obtain ⟨hwalk, hinfo⟩ := message_info (holds_sent _ (fun _ => 0) veth vxlan.toCString veth)
  refine ⟨_, hwalk, ?_⟩
  rw [← kindAttr_eq, ne_eq, info_decodes_iff hinfo]
  decide

end SnippetsC.Netlink
