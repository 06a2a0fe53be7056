import SnippetsC.Netlink.TcFilter

namespace SnippetsC.Netlink

/-- The filter requests of `add-tcfilter` and `tc-attach` are the same message. -/
theorem addTcfilter_eq_tcAttach (stack stack' : Mem) (kind name : CString)
    (ifindex bpfFd : UInt32) (hk : kind.strlen ≤ 3) (hn : name.strlen ≤ 10) :
    AddTcfilter.sendRequest stack kind name ifindex bpfFd =
      TcAttach.sendRequestFilter stack' kind name ifindex bpfFd := by
  have hka := alignUp_lt 4 (5 + kind.strlen)
  have hna := alignUp_lt 4 (5 + name.strlen)
  have hfit : Filter.size kind name ≤ 512 := by
    rw [Filter.size, Filter.optionsLen]
    omega
  rw [AddTcfilter.sendRequest_eq stack hk hn, TcAttach.sendRequestFilter_eq stack' hfit]

theorem addTcfilter_eq_tcAttach_bpf :
    bpf.strlen ≤ 3 ∧ acceptAll.strlen ≤ 10 ∧
      AddTcfilter.sendRequest (fun _ => 0xff) bpf acceptAll 2 7 =
        TcAttach.sendRequestFilter (fun _ => 0) bpf acceptAll 2 7 :=
  ⟨by decide, by decide, addTcfilter_eq_tcAttach _ _ bpf acceptAll 2 7 (by decide) (by decide)⟩

/-! Decoding the request of `tc-attach`. -/

namespace Filter

section decode

variable {m : Mem} {kind name : CString} {ifindex bpfFd : UInt32}

/-- Where the options attribute lies. -/
def optionsAt (kind : CString) : Nat := 36 + alignUp 4 (5 + kind.strlen)

theorem optionsAttr_gap (name : CString) (bpfFd : UInt32) : (optionsAttr name bpfFd).gap = 0 := by
  have h4 : 4 ∣ optionsLen name :=
    Nat.dvd_add (Nat.dvd_add (by decide) (dvd_alignUp 4 _)) (by decide)
  rw [Rtattr.gap, Rtattr.room, optionsAttr_length, alignUp_of_dvd h4, Nat.sub_self]

theorem holds_attrs (h : m.Holds 0 (message kind name ifindex bpfFd)) :
    m.Holds 36 ((kindAttr kind).padded ++ (optionsAttr name bpfFd).data) := by
  obtain ⟨-, h1⟩ := Mem.holds_append.mp h
  obtain ⟨-, h2⟩ := Mem.holds_append.mp h1
  rw [leBytes_length, head_length] at h2
  exact h2

theorem holds_kind (h : m.Holds 0 (message kind name ifindex bpfFd)) :
    m.Holds 36 (kindAttr kind).data := by
  obtain ⟨h1, -⟩ := Mem.holds_append.mp (holds_attrs h)
  exact (Mem.holds_append.mp h1).1

theorem holds_options (h : m.Holds 0 (message kind name ifindex bpfFd)) :
    m.Holds (optionsAt kind) (optionsAttr name bpfFd).data := by
  obtain ⟨-, h1⟩ := Mem.holds_append.mp (holds_attrs h)
  rw [Rtattr.padded_length, kindAttr_room] at h1
  exact h1

theorem holds_children (h : m.Holds 0 (message kind name ifindex bpfFd)) :
    m.Holds (optionsAt kind + 4)
      ([fdAttr bpfFd, nameAttr name].flatMap Rtattr.padded ++ flagsAttr.data) := by
  have h1 := holds_options h
  rw [optionsAttr_data] at h1
  obtain ⟨-, h2⟩ := Mem.holds_append.mp h1
  have hfd : (fdAttr bpfFd).padded = (fdAttr bpfFd).data := by
    rw [Rtattr.padded, Rtattr.gap, fdAttr_room, fdAttr_length]
    exact List.append_nil _
  rw [rtaBytes_length] at h2
  simp only [List.flatMap_cons, List.flatMap_nil, List.append_nil, List.append_assoc, hfd]
  exact h2

/-- The outer walk ends exactly at the end of the message: the options need no padding. -/
theorem rtaWalk_message (h : m.Holds 0 (message kind name ifindex bpfFd))
    (hfit : size kind name ≤ 512) :
    rtaWalk m 36 ((size kind name : Int) - 36) = ([36, optionsAt kind], 0) := by
  have hlen : ((size kind name : Int) - 36) =
      (kindAttr kind).room + (optionsAttr name bpfFd).data.length := by
    rw [kindAttr_room, Rtattr.data_length, optionsAttr_length, size]
    omega
  rw [rtaWalk_two (holds_attrs h) hlen (by omega), optionsAttr_gap, kindAttr_room]
  rfl

/-- The inner walk ends exactly at the end of the options attribute. -/
theorem rtaWalk_options (h : m.Holds 0 (message kind name ifindex bpfFd))
    (hfit : size kind name ≤ 512) :
    (rtaWalk m (optionsAt kind + 4) ((optionsLen name : Int) - 4)).2 = 0 ∧
      decodeRtas m (optionsAt kind + 4) ((optionsLen name : Int) - 4) =
        [fdAttr bpfFd, nameAttr name, flagsAttr] := by
  have hlen : ((optionsLen name : Int) - 4) =
      ([fdAttr bpfFd, nameAttr name].flatMap Rtattr.padded).length + flagsAttr.data.length := by
    simp only [List.flatMap_cons, List.flatMap_nil, List.append_nil, List.length_append,
      Rtattr.padded_length, fdAttr_room, nameAttr_room, Rtattr.data_length, flagsAttr_length,
      optionsLen]
    omega
  rw [size] at hfit
  rw [rtaWalk_attrs (holds_children h) hlen (by omega),
    decodeRtas_attrs (holds_children h) hlen (by omega)]
  exact ⟨rfl, rfl⟩

end decode

end Filter

theorem fillTcmsg_frame (m : Mem) {p i : Nat} (ifindex : UInt32) (h : p + 20 ≤ i) :
    fillTcmsg m p ifindex i = m i := by
  simp only [fillTcmsg, Mem.store8, Mem.store32]
  repeat rw [Mem.write_frame _ _ _ (by rw [leBytes_length]; omega)]

/-- Behind its own message `send_request_filter` stores nothing. -/
theorem TcAttach.fillFilter_frame (m : Mem) {kind name : CString} {i : Nat}
    (hfit : Filter.size kind name ≤ 512) (ifindex bpfFd : UInt32)
    (hi : Filter.size kind name ≤ i) : TcAttach.fillFilter m kind name ifindex bpfFd i = m i := by
  have hka := le_alignUp 4 (5 + kind.strlen)
  have hna := le_alignUp 4 (5 + name.strlen)
  have hkl : kind.bytes.length = kind.strlen + 1 := kind.bytes_length
  have hnl : name.bytes.length = name.strlen + 1 := name.bytes_length
  rw [Filter.size, Filter.optionsLen] at hfit hi
  have hk : kind.strlen < 512 := by omega
  have hn : name.strlen < 512 := by omega
  simp only [TcAttach.fillFilter]
  rw [addAttr_frame _ _ _ (by rw [TcAttach.flagsRta_eq hk hn, leBytes_length]; omega),
    addAttr_frame _ _ _ (by rw [TcAttach.nameRta_eq hk, hnl]; omega),
    addAttr_frame _ _ _ (by
      rw [TcAttach.fdRta, TcAttach.optionsRta_eq hk, rtaData_eq, leBytes_length]
      omega),
    addRta_frame _ _ _ (by rw [TcAttach.optionsRta_eq hk]; omega),
    addAttr_frame _ _ _ (by rw [TcAttach.attrBuf_eq, hkl]; omega),
    fillTcmsg_frame _ _ (by rw [nlmsgData_eq]; omega), fillHeader_frame _ _ _ _ (by omega)]

/-- A message that fits its buffer decodes to what was meant, at both levels and to the last byte,
and nothing is stored behind it. -/
theorem tcAttach_decodes (stack : Mem) (kind name : CString) (ifindex bpfFd : UInt32)
    (hfit : Filter.size kind name ≤ 512) {m : Mem}
    (hm : m.Holds 0 (TcAttach.sendRequestFilter stack kind name ifindex bpfFd)) :
    nlmsgLen m 0 = (TcAttach.sendRequestFilter stack kind name ifindex bpfFd).length ∧
    (∃ o, rtaWalk m (nlmsgSpace sizeofTcmsg) (nlmsgLen m 0 - nlmsgSpace sizeofTcmsg) =
        ([nlmsgSpace sizeofTcmsg, o], 0) ∧
      rtattrAt m (nlmsgSpace sizeofTcmsg) = ⟨.ofNat TCA_KIND, kind.bytes⟩ ∧
      (rtattrAt m o).type = .ofNat TCA_OPTIONS ∧
      (rtaWalk m (rtaData o) (rtaPayload m o)).2 = 0 ∧
      decodeRtas m (rtaData o) (rtaPayload m o) =
        [⟨.ofNat TCA_BPF_FD, leBytes 4 bpfFd.toNat⟩, ⟨.ofNat TCA_BPF_NAME, name.bytes⟩,
          ⟨.ofNat TCA_BPF_FLAGS, leBytes 4 TCA_BPF_FLAG_ACT_DIRECT⟩]) ∧
    ∀ (buf : Mem) (i : Nat), nlmsgLen m 0 ≤ i →
      TcAttach.fillFilter buf kind name ifindex bpfFd i = buf i := by
  have hsp : nlmsgSpace sizeofTcmsg = 36 := by decide
  rw [TcAttach.sendRequestFilter_eq stack hfit] at hm ⊢
  have hlen : nlmsgLen m 0 = Filter.size kind name := nlmsgLen_of_leBytes hm (by omega)
  have hol := Filter.optionsAttr_length name bpfFd
  have hfit' := hfit
  rw [Filter.size] at hfit'
  have hka := le_alignUp 4 (5 + kind.strlen)
  have hopt := Filter.holds_options hm
  have hpay : rtaPayload m (Filter.optionsAt kind) = (Filter.optionsLen name : Int) - 4 := by
    rw [rtaPayload_of_holds hopt (by omega), ← hol]
    omega
  obtain ⟨hleft, hdec⟩ := Filter.rtaWalk_options hm hfit
  rw [hlen, hsp]
  refine ⟨(Filter.message_length kind name ifindex bpfFd).symm, ⟨Filter.optionsAt kind, ?_⟩, ?_⟩
  · rw [hpay]
    refine ⟨Filter.rtaWalk_message hm hfit, ?_, ?_, hleft, hdec⟩
    · have hkl : 4 + (Filter.kindAttr kind).payload.length < 65536 := by
        rw [Filter.kindAttr_length]
        omega
      exact rtattrAt_of_holds (Filter.holds_kind hm) hkl
    · exact congrArg Rtattr.type (rtattrAt_of_holds hopt (by omega))
  · intro buf i hi
    exact TcAttach.fillFilter_frame buf hfit ifindex bpfFd hi

theorem tcAttach_decodes_bpf :
    let sent := TcAttach.sendRequestFilter (fun _ => 0xff) bpf acceptAll 2 7
    let m : Mem := Mem.write (fun _ => 0xff) 0 sent
    nlmsgLen m 0 = sent.length ∧ ∃ o, rtaWalk m 36 (nlmsgLen m 0 - 36) = ([36, o], 0) := by
  have h := tcAttach_decodes (fun _ => 0xff) bpf acceptAll 2 7 (by decide)
    (Mem.holds_write (fun _ => 0xff) 0 _)
  obtain ⟨hlen, ⟨o, hwalk, -⟩, -⟩ := h
  exact ⟨hlen, o, hwalk⟩

end SnippetsC.Netlink
