import SnippetsC.Framework.Strtol
import SnippetsC.Netlink.LinkCommand

namespace SnippetsC.Netlink

/-! The pids that `set-netns-pid` accepts. -/

namespace SetNetnsPid

/-- `send_request`; `ifindex` is `if_nametoindex(if_name)`. -/
def sendRequest (stack : Mem) (ifindex : UInt32) (targetPid : Int32) : List UInt8 :=
  let req := stack.clear 0 (sizeofNlmsghdr + sizeofIfinfomsg + 512)
  let m := fillLink req RTM_SETLINK ifindex
  let rta := nlmsgAlign (nlmsgLen m 0)
  let m := addAttr m rta IFLA_NET_NS_PID (rtaLength 4) (leBytes 4 targetPid.toUInt32.toNat)
  let m := setNlmsgLen m (nlmsgAlign (nlmsgLen m 0) + rtaLen m rta)
  m.bytes 0 (nlmsgLen m 0)

/-- `main`, up to its call of `sendmsg`. -/
def main (stack : Mem) (socketFd bindRc : Int32) (ifaces : Interfaces) (argv : List CString) :
    Option Sendmsg :=
  match argv with
  | _ :: ifName :: pid :: _ =>
    let netnsPid := atoi pid.chars
    if netnsPid = 0 then none
    else
      let sockFd := createSocket socketFd bindRc
      some ⟨sockFd, sendRequest stack (ifaces.ifNametoindex ifName) netnsPid⟩
  | _ => none

end SetNetnsPid

def pidAttr (pid : Nat) : Rtattr := ⟨.ofNat IFLA_NET_NS_PID, leBytes 4 pid⟩

theorem SetNetnsPid.sendRequest_eq (stack : Mem) (ifindex : UInt32) (targetPid : Int32) :
    sendRequest stack ifindex targetPid =
      linkMessage RTM_SETLINK ifindex 0 (pidAttr targetPid.toUInt32.toNat).data := by
  have hlen : rtaLength 4 = 4 + (pidAttr targetPid.toUInt32.toNat).payload.length := by
    rw [rtaLength_eq, pidAttr, leBytes_length]
  exact sent_linkAttr stack _ _ (pidAttr targetPid.toUInt32.toNat) rfl hlen (by decide)

/-- A decimal numeral of a positive number that is a pid. -/
def IsPid (s : List UInt8) : Prop :=
  IsNumeral s ∧ 1 ≤ digitsValue s ∧ digitsValue s ≤ 2 ^ 31 - 1

instance (s : List UInt8) : Decidable (IsPid s) := inferInstanceAs (Decidable (_ ∧ _ ∧ _))

theorem IsPid.lt {s : List UInt8} (h : IsPid s) : digitsValue s < 2 ^ 31 := by
  obtain ⟨-, -, hle⟩ := h
  omega

theorem IsPid.atoi_ne {s : List UInt8} (h : IsPid s) : atoi s ≠ 0 := by
  intro hz
  have hval := atoi_of_numeral h.1 h.lt
  rw [hz] at hval
  exact absurd hval.symm (Nat.one_le_iff_ne_zero.mp h.2.1)

theorem setNetnsPid_attrs (stack buf : Mem) (ifindex : UInt32) (targetPid : Int32) :
    linkAttrs (buf.write 0 (SetNetnsPid.sendRequest stack ifindex targetPid)) =
      [pidAttr targetPid.toUInt32.toNat] := by
  have h := Mem.holds_write buf 0 (SetNetnsPid.sendRequest stack ifindex targetPid)
  rw [SetNetnsPid.sendRequest_eq stack] at h ⊢
  exact linkAttrs_linkMessage h (by rw [pidAttr, leBytes_length]; decide)

section main

variable (stack : Mem) (socketFd bindRc : Int32) (ifaces : Interfaces)
  (argv₀ ifName pid : CString) (rest : List CString)

theorem SetNetnsPid.main_eq :
    main stack socketFd bindRc ifaces (argv₀ :: ifName :: pid :: rest) =
      if atoi pid.chars = 0 then none
      else some ⟨createSocket socketFd bindRc,
        sendRequest stack (ifaces.ifNametoindex ifName) (atoi pid.chars)⟩ := rfl

/-- A request goes out unless the argument reads as a multiple of `2 ^ 32`. -/
theorem SetNetnsPid.main_isSome_iff :
    (main stack socketFd bindRc ifaces (argv₀ :: ifName :: pid :: rest)).isSome ↔
      atoi pid.chars ≠ 0 := by
  rw [main_eq]
  split_ifs with hz
  · exact iff_of_false Bool.false_ne_true (not_not.mpr hz)
  · exact iff_of_true rfl hz

theorem SetNetnsPid.main_attrs (buf : Mem) {call : Sendmsg}
    (h : main stack socketFd bindRc ifaces (argv₀ :: ifName :: pid :: rest) = some call) :
    linkAttrs (buf.write 0 call.msg) = [pidAttr (atoi pid.chars).toUInt32.toNat] := by
  rw [main_eq] at h
  obtain ⟨-, hcall⟩ := Option.ite_none_left_eq_some.mp h
  have hmsg := congrArg Sendmsg.msg (Option.some.inj hcall)
  rw [← hmsg]
  exact setNetnsPid_attrs stack buf _ _

/-- `set-netns-pid` sends a request exactly for the decimal numerals of pids, and then one with that
pid, exactly if the argument is such a numeral or the integer it begins with is cut to zero. -/
theorem setNetnsPid_accepts_iff (buf : Mem) :
    (((SetNetnsPid.main stack socketFd bindRc ifaces (argv₀ :: ifName :: pid :: rest)).isSome ↔
        IsPid pid.chars) ∧
      ∀ call, SetNetnsPid.main stack socketFd bindRc ifaces (argv₀ :: ifName :: pid :: rest) =
        some call → linkAttrs (buf.write 0 call.msg) = [pidAttr (digitsValue pid.chars)]) ↔
      IsPid pid.chars ∨ leadingInt pid.chars < LONG_MIN ∨
        (leadingInt pid.chars ≤ LONG_MAX ∧ 2 ^ 32 ∣ leadingInt pid.chars) := by
  rw [← dvd_strtol_iff, ← atoi_eq_zero_iff, SetNetnsPid.main_isSome_iff]
  by_cases hpid : IsPid pid.chars
  · refine iff_of_true ⟨iff_of_true hpid.atoi_ne hpid, ?_⟩ (.inl hpid)
    intro call hcall
    have hattrs := SetNetnsPid.main_attrs stack socketFd bindRc ifaces argv₀ ifName pid rest buf hcall
    rw [hattrs, atoi_of_numeral hpid.1 hpid.lt]
  · rw [or_iff_right hpid, iff_false_right hpid, ne_eq, not_not]
    constructor
    · intro h
      exact h.1
    · intro hz
      refine ⟨hz, ?_⟩
      intro call hcall
      rw [SetNetnsPid.main_eq, if_pos hz] at hcall
      cases hcall

end main

/-- The pid -1 is accepted, and 2 ^ 32 + 1 stands for the pid 1. -/
theorem setNetnsPid_accepts_others :
    let minusOne : CString := ⟨[45, 49], by decide⟩
    let wrapped : CString := ⟨[52, 50, 57, 52, 57, 54, 55, 50, 57, 55], by decide⟩
    let ifaces : Interfaces := ⟨fun _ => some 1, fun _ _ h => Option.some.inj h ▸ by decide⟩
    ((SetNetnsPid.main (fun _ => 0) 3 0 ifaces [minusOne, minusOne, minusOne]).isSome ∧
      ¬IsPid minusOne.chars) ∧
    ∃ call, SetNetnsPid.main (fun _ => 0) 3 0 ifaces [minusOne, minusOne, wrapped] = some call ∧
      linkAttrs (Mem.write (fun _ => 0) 0 call.msg) = [pidAttr 1] ∧ ¬IsPid wrapped.chars := by
  intro minusOne wrapped ifaces
  have hwrapped : atoi wrapped.chars = 1 := by decide
  have hsend : (SetNetnsPid.main (fun _ => 0) 3 0 ifaces [minusOne, minusOne, wrapped]).isSome := by
    rw [SetNetnsPid.main_isSome_iff, hwrapped]
    decide
  obtain ⟨call, hcall⟩ := Option.isSome_iff_exists.mp hsend
  have hattrs := SetNetnsPid.main_attrs _ _ _ _ _ _ _ _ (fun _ => 0) hcall
  rw [hwrapped] at hattrs
  refine ⟨⟨?_, by decide⟩, call, hcall, hattrs, ?_⟩
  · rw [SetNetnsPid.main_isSome_iff]
    decide
  · intro hpid
    have hlt := hpid.lt
    have hval : digitsValue wrapped.chars = 2 ^ 32 + 1 := rfl
    omega

end SnippetsC.Netlink
