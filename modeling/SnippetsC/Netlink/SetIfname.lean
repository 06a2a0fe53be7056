import SnippetsC.Netlink.LinkCommand

namespace SnippetsC.Netlink

/-! Which interface `set-ifname` renames, and to what. -/

namespace SetIfname

/-- `main`, up to its call of `sendmsg`. Neither the descriptor nor the index is checked. -/
def main (stack : Mem) (socketFd bindRc : Int32) (ifaces : Interfaces) (argv : List CString) :
    Option Sendmsg :=
  match argv with
  | _ :: oldName :: newName :: _ =>
    let fd := createSocket socketFd bindRc
    some ⟨fd, sendRequest stack (ifaces.ifNametoindex oldName) newName⟩
  | _ => none

theorem main_eq (stack : Mem) (socketFd bindRc : Int32) (ifaces : Interfaces)
    (argv₀ oldName newName : CString) (rest : List CString) :
    main stack socketFd bindRc ifaces (argv₀ :: oldName :: newName :: rest) =
      some ⟨createSocket socketFd bindRc,
        sendRequest stack (ifaces.ifNametoindex oldName) newName⟩ := rfl

end SetIfname

/-- The request in `m` gives the interface `oldName` the name `newName`, whole. -/
def Renames (ifaces : Interfaces) (m : Mem) (oldName newName : CString) : Prop :=
  linkAttrs m = [⟨.ofNat IFLA_IFNAME, newName.chars⟩] ∧
    ∃ i, ifaces.index oldName = some i ∧ linkIndex m = i.toNat

section renames

variable (stack buf : Mem) (ifaces : Interfaces) (oldName newName : CString)

theorem setIfname_attrs (ifindex : UInt32) :
    linkAttrs (buf.write 0 (SetIfname.sendRequest stack ifindex newName)) =
      [newNameAttr newName] := by
  have hcap : (newNameAttr newName).payload.length ≤ 15 := List.length_take_le 15 _
  have h := Mem.holds_write buf 0 (SetIfname.sendRequest stack ifindex newName)
  rw [SetIfname.sendRequest_eq stack] at h ⊢
  exact linkAttrs_linkMessage h (by omega)

theorem setIfname_index (ifindex : UInt32) :
    linkIndex (buf.write 0 (SetIfname.sendRequest stack ifindex newName)) = ifindex.toNat := by
  have h := Mem.holds_write buf 0 (SetIfname.sendRequest stack ifindex newName)
  rw [SetIfname.sendRequest_eq stack] at h ⊢
  exact linkIndex_linkMessage h

/-- The cut at 15 bytes leaves the name whole exactly if it is no longer. -/
theorem newNameAttr_eq_iff :
    newNameAttr newName = ⟨.ofNat IFLA_IFNAME, newName.chars⟩ ↔ newName.strlen ≤ 15 := by
  rw [newNameAttr, Rtattr.mk.injEq, and_iff_right rfl]
  exact List.take_eq_self_iff _

theorem index_isSome_iff :
    (∃ i, ifaces.index oldName = some i ∧ (ifaces.ifNametoindex oldName).toNat = i.toNat) ↔
      (ifaces.index oldName).isSome := by
  rw [Option.isSome_iff_exists]
  apply exists_congr
  intro i
  rw [and_iff_left_iff_imp]
  intro hi
  rw [(ifaces.ifNametoindex_eq_iff oldName (ifaces.index_ne _ _ hi)).mpr hi]

theorem renames_iff :
    Renames ifaces (buf.write 0
        (SetIfname.sendRequest stack (ifaces.ifNametoindex oldName) newName)) oldName newName ↔
      newName.strlen ≤ 15 ∧ (ifaces.index oldName).isSome := by
  rw [Renames, setIfname_attrs, setIfname_index, index_isSome_iff, List.singleton_inj,
    newNameAttr_eq_iff]

end renames

/-- What `set-ifname` sends on its socket renames the interface it was told to, to the whole of the
new name, exactly if that name fits into 15 bytes and the interface exists. -/
theorem setIfname_renames_iff (stack buf : Mem) (socketFd bindRc : Int32) (ifaces : Interfaces)
    (argv₀ oldName newName : CString) (rest : List CString) :
    (∀ call, SetIfname.main stack socketFd bindRc ifaces (argv₀ :: oldName :: newName :: rest) =
        some call → 0 ≤ call.fd → Renames ifaces (buf.write 0 call.msg) oldName newName) ↔
      (0 ≤ createSocket socketFd bindRc →
        newName.strlen ≤ 15 ∧ (ifaces.index oldName).isSome) := by
  rw [← renames_iff stack buf]
  constructor
  · intro h hfd
    have hcall := h _ (SetIfname.main_eq stack socketFd bindRc ifaces argv₀ oldName newName rest)
    exact hcall hfd
  · intro h call hcall hfd
    rw [SetIfname.main_eq, Option.some_inj] at hcall
    rw [← hcall] at hfd ⊢
    exact h hfd

def eth0 : CString := ⟨[0x65, 0x74, 0x68, 0x30], by decide⟩
def eth1 : CString := ⟨[0x65, 0x74, 0x68, 0x31], by decide⟩

/-- The system has one interface, `eth0`, with index 2. -/
def oneInterface : Interfaces where
  index name := if name = eth0 then some 2 else none
  index_ne name i h := by
    obtain ⟨-, hi⟩ := Option.ite_none_right_eq_some.mp h
    rw [← Option.some_inj.mp hi]
    decide

/-- A new name of 16 bytes goes out cut, and for an old name of no interface the index 0. -/
theorem setIfname_misnames :
    let long : CString := ⟨List.replicate 16 0x61, by decide⟩
    (∃ call, SetIfname.main (fun _ => 0) 3 0 oneInterface [eth1, eth0, long] = some call ∧
      0 ≤ call.fd ∧ ¬Renames oneInterface (Mem.write (fun _ => 0) 0 call.msg) eth0 long) ∧
    ∃ call, SetIfname.main (fun _ => 0) 3 0 oneInterface [eth1, eth1, eth0] = some call ∧
      0 ≤ call.fd ∧ linkIndex (Mem.write (fun _ => 0) 0 call.msg) = 0 ∧
        ¬Renames oneInterface (Mem.write (fun _ => 0) 0 call.msg) eth1 eth0 := by
  refine ⟨⟨_, SetIfname.main_eq .., by decide, ?_⟩,
    _, SetIfname.main_eq .., by decide, setIfname_index .., ?_⟩
  · rw [renames_iff]
    decide
  · rw [renames_iff]
    decide

end SnippetsC.Netlink
