import SnippetsC.Netlink.SetLink

namespace SnippetsC.Netlink

/-! What the programs that send one link request have in common. -/

/-- `create_socket`, with the results of `socket` and `bind`. -/
def createSocket (socketFd bindRc : Int32) : Int32 :=
  if socketFd < 0 then socketFd
  else if bindRc ≠ 0 then -1
  else socketFd

/-- The interfaces of the system; 0 is no index. -/
structure Interfaces where
  index : CString → Option UInt32
  index_ne : ∀ name i, index name = some i → i ≠ 0

/-- `if_nametoindex` returns 0 exactly for names of no interface. -/
def Interfaces.ifNametoindex (ifaces : Interfaces) (name : CString) : UInt32 :=
  (ifaces.index name).getD 0

theorem Interfaces.ifNametoindex_eq_iff (ifaces : Interfaces) (name : CString) {i : UInt32}
    (h : i ≠ 0) : ifaces.ifNametoindex name = i ↔ ifaces.index name = some i := by
  rw [ifNametoindex]
  cases ifaces.index name with
  | none =>
    constructor
    · intro hz
      exact absurd hz.symm h
    · intro hnone
      cases hnone
  | some j => exact Option.some_inj.symm

/-- A call of `sendmsg`: the descriptor and the bytes it is given. -/
structure Sendmsg where
  fd : Int32
  msg : List UInt8

/-- How the receiver finds a link request in `m`: the index and the attributes in its `nlmsg_len`
bytes. -/
def linkIndex (m : Mem) : Nat := m.load32 (nlmsgData 0 + 4)

def linkAttrs (m : Mem) : List Rtattr :=
  decodeRtas m (nlmsgSpace sizeofIfinfomsg) (nlmsgLen m 0 - nlmsgSpace sizeofIfinfomsg)

section message

variable {m : Mem} {type : Nat} {ifindex : UInt32} {flags : Nat} {attrs : List UInt8}

theorem linkIndex_linkMessage (h : m.Holds 0 (linkMessage type ifindex flags attrs)) :
    linkIndex m = ifindex.toNat := by
  rw [linkMessage, linkHead_split, linkFront] at h
  obtain ⟨h1, -⟩ := Mem.holds_append.mp h
  obtain ⟨-, h2⟩ := Mem.holds_append.mp h1
  obtain ⟨-, h3⟩ := Mem.holds_append.mp h2
  obtain ⟨-, h4⟩ := Mem.holds_append.mp h3
  obtain ⟨-, h5⟩ := Mem.holds_append.mp h4
  exact (Mem.load32_of_holds h5).trans (Nat.mod_eq_of_lt ifindex.toNat_lt)

theorem linkAttrs_linkMessage {a : Rtattr}
    (h : m.Holds 0 (linkMessage type ifindex flags a.data)) (ha : 4 + a.payload.length < 65536) :
    linkAttrs m = [a] := by
  have hl : a.data.length < 65536 := by
    rw [Rtattr.data_length]
    exact ha
  rw [linkAttrs, attrsLen_of_holds h hl]
  exact decodeRtas_of_holds h hl

end message

end SnippetsC.Netlink
