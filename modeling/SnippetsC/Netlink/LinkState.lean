import SnippetsC.Netlink.SetLink

namespace SnippetsC.Netlink

/-! What the kernel does with a link request. -/

structure LinkState where
  flags : BitVec 32
  mtu : Nat
  name : List UInt8
  deriving DecidableEq

/-- An attribute that is present sets its own field. -/
def LinkState.setAttr (link : LinkState) (a : Rtattr) : LinkState :=
  if a.type = .ofNat IFLA_MTU then { link with mtu := leValue a.payload }
  else if a.type = .ofNat IFLA_IFNAME then { link with name := a.payload }
  else link

/-- `ifi_flags` and `ifi_change` set the flag word unless both are zero. -/
def LinkState.setFlags (link : LinkState) (flags change : BitVec 32) : LinkState :=
  if flags = 0 ∧ change = 0 then link
  else { link with flags := (flags &&& change) ||| (link.flags &&& ~~~change) }

/-- The effect of the request that lies at the start of `m`. -/
def LinkState.apply (m : Mem) (link : LinkState) : LinkState :=
  let ifi := nlmsgData 0
  let attrs := nlmsgSpace sizeofIfinfomsg
  (decodeRtas m attrs (nlmsgLen m 0 - attrs)).foldl setAttr
    (link.setFlags (.ofNat 32 (m.load32 (ifi + 8))) (.ofNat 32 (m.load32 (ifi + 12))))

/-- A change mask of all ones replaces the whole flag word. -/
theorem LinkState.setFlags_all (link : LinkState) (flags : BitVec 32) :
    link.setFlags flags 0xffffffff = { link with flags := flags } := by
  have hall : (0xffffffff : BitVec 32) = BitVec.allOnes 32 := rfl
  have hne : ¬(flags = 0 ∧ (0xffffffff : BitVec 32) = 0) := by
    intro h
    exact absurd h.2 (by decide)
  rw [setFlags, if_neg hne, hall, BitVec.and_allOnes, BitVec.not_allOnes, BitVec.and_zero,
    BitVec.or_zero]

section apply

variable {m : Mem} {type : Nat} {ifindex : UInt32} {flags : Nat} {attrs : List UInt8}

/-- All three requests carry a full change mask. -/
theorem flags_linkMessage (hf : flags < 4294967296)
    (h : m.Holds 0 (linkMessage type ifindex flags attrs)) :
    m.load32 24 = flags ∧ m.load32 28 = 4294967295 := by
  rw [linkMessage, linkHead_split] at h
  obtain ⟨-, h1⟩ := Mem.holds_append.mp h
  obtain ⟨hflags, h2⟩ := Mem.holds_append.mp h1
  obtain ⟨hchange, -⟩ := Mem.holds_append.mp h2
  rw [linkFront_length] at hflags
  rw [linkFront_length, leBytes_length] at hchange
  exact ⟨(Mem.load32_of_holds hflags).trans (Nat.mod_eq_of_lt hf), Mem.load32_of_holds hchange⟩

theorem LinkState.setFlags_linkMessage (link : LinkState) (hf : flags < 4294967296)
    (h : m.Holds 0 (linkMessage type ifindex flags attrs)) :
    link.setFlags (.ofNat 32 (m.load32 24)) (.ofNat 32 (m.load32 28)) =
      { link with flags := .ofNat 32 flags } := by
  obtain ⟨hflags, hchange⟩ := flags_linkMessage hf h
  rw [hflags, hchange]
  exact setFlags_all link _

theorem LinkState.apply_linkMessage (link : LinkState) (hf : flags < 4294967296)
    (h : m.Holds 0 (linkMessage type ifindex flags attrs)) (hl : attrs.length < 65536) :
    link.apply m =
      (decodeRtas m 32 attrs.length).foldl setAttr { link with flags := .ofNat 32 flags } := by
  have hflags := link.setFlags_linkMessage hf h
  rw [← hflags, ← attrsLen_of_holds h hl]
  rfl

theorem LinkState.apply_attr (link : LinkState) {a : Rtattr}
    (h : m.Holds 0 (linkMessage type ifindex 0 a.data)) (ha : 4 + a.payload.length < 65536) :
    link.apply m = { link with flags := 0 }.setAttr a := by
  have hl : a.data.length < 65536 := by
    rw [Rtattr.data_length]
    exact ha
  rw [link.apply_linkMessage (by decide) h hl, decodeRtas_of_holds h hl]
  rfl

theorem LinkState.apply_nil (link : LinkState) (hf : flags < 4294967296)
    (h : m.Holds 0 (linkMessage type ifindex flags [])) :
    link.apply m = { link with flags := .ofNat 32 flags } := by
  have hdec : decodeRtas m 32 (([] : List UInt8).length : Int) = [] := by
    have hok : ¬RtaOk m 32 (([] : List UInt8).length : Int) := by
      intro h4
      exact absurd h4.1 (by decide)
    rw [decodeRtas, rtaWalk, dif_neg hok]
    rfl
  rw [link.apply_linkMessage hf h (by decide), hdec]
  rfl

end apply

/-! The effect of the three commands on a link. -/

section effect

variable (stack buf : Mem) (ifindex : UInt32) (link : LinkState)

theorem setMtu_effect : link.apply (buf.write 0 (SetMtu.sendRequest stack)) =
    { link with flags := 0, mtu := SetMtu.IF_MTU } := by
  have h := Mem.holds_write buf 0 (SetMtu.sendRequest stack)
  rw [SetMtu.sendRequest_eq stack] at h ⊢
  rw [link.apply_attr h (by decide)]
  rfl

theorem setIfname_effect (newName : CString) :
    link.apply (buf.write 0 (SetIfname.sendRequest stack ifindex newName)) =
      { link with flags := 0, name := newName.chars.take 15 } := by
  have hlen : (newNameAttr newName).payload.length ≤ 15 := List.length_take_le 15 _
  have h := Mem.holds_write buf 0 (SetIfname.sendRequest stack ifindex newName)
  rw [SetIfname.sendRequest_eq stack] at h ⊢
  rw [link.apply_attr h (by omega)]
  rfl

theorem setLinkUp_effect : link.apply (buf.write 0 (SetLinkUp.sendRequest stack ifindex)) =
    { link with flags := .ofNat 32 IFF_UP } := by
  have h := Mem.holds_write buf 0 (SetLinkUp.sendRequest stack ifindex)
  rw [SetLinkUp.sendRequest_eq stack] at h ⊢
  exact link.apply_nil (by decide) h

theorem eq_or_iff (flags up : BitVec 32) : up = flags ||| up ↔ flags &&& ~~~up = 0 := by
  constructor
  · intro h
    apply BitVec.eq_of_getLsbD_eq
    intro i hi
    have hb : up.getLsbD i = (flags.getLsbD i || up.getLsbD i) := by rw [← BitVec.getLsbD_or, ← h]
    rw [BitVec.getLsbD_and, BitVec.getLsbD_not, decide_eq_true hi, hb]
    cases flags.getLsbD i <;> simp
  · intro h
    apply BitVec.eq_of_getLsbD_eq
    intro i hi
    have hb : (flags.getLsbD i && !up.getLsbD i) = false := by
      have hz := congrArg (fun x => x.getLsbD i) h
      simpa [hi] using hz
    rw [BitVec.getLsbD_or]
    cases hf : flags.getLsbD i with
    | false => rfl
    | true => simpa [hf] using hb

/-- The mask lets every command write the whole flag word: it is left as it should be exactly on
links that have no other flag set. -/
theorem setLink_frame_iff (newName : CString) :
    let mtu := link.apply (buf.write 0 (SetMtu.sendRequest stack))
    let name := link.apply (buf.write 0 (SetIfname.sendRequest stack ifindex newName))
    let up := link.apply (buf.write 0 (SetLinkUp.sendRequest stack ifindex))
    mtu.mtu = SetMtu.IF_MTU ∧ name.name = newName.chars.take 15 ∧
      (mtu = { link with mtu := mtu.mtu } ↔ link.flags = 0) ∧
      (name = { link with name := name.name } ↔ link.flags = 0) ∧
      (up = { link with flags := link.flags ||| .ofNat 32 IFF_UP } ↔
        link.flags &&& ~~~(.ofNat 32 IFF_UP) = 0) := by
  intro mtu name up
  have hmtu : mtu = { link with flags := 0, mtu := SetMtu.IF_MTU } := setMtu_effect stack buf link
  have hname : name = { link with flags := 0, name := newName.chars.take 15 } :=
    setIfname_effect stack buf ifindex link newName
  have hup : up = { link with flags := .ofNat 32 IFF_UP } := setLinkUp_effect stack buf ifindex link
  rw [hmtu, hname, hup]
  refine ⟨rfl, rfl, ?_, ?_, ?_⟩
  · constructor
    · intro h
      exact (congrArg LinkState.flags h).symm
    · intro h
      rw [← h]
  · constructor
    · intro h
      exact (congrArg LinkState.flags h).symm
    · intro h
      rw [← h]
  · rw [← eq_or_iff]
    constructor
    · intro h
      exact congrArg LinkState.flags h
    · intro h
      rw [← h]

/-- A link that is up and running is taken down by `set-mtu`. -/
theorem setMtu_clears_flags :
    let link : LinkState := ⟨0x1043, 1500, [0x65, 0x74, 0x68, 0x30]⟩
    let mtu := link.apply (Mem.write (fun _ => 0) 0 (SetMtu.sendRequest fun _ => 0))
    mtu ≠ { link with mtu := mtu.mtu } := by
  decide +kernel

end effect

end SnippetsC.Netlink
