import SnippetsC.Bpf.TcAttach
import SnippetsC.Netlink.LinkCommand

namespace SnippetsC.Bpf

/-! All the commands that work on the clsact hook. -/

open Netlink

/-- A request sent over `fd` is performed if the socket is there and the kernel accepts it; nobody
looks whether it was. -/
def Kernel.send (k : Kernel) (fds : Nat → Option Prog) (fd : Int32) (ok : Bool) (msg : List UInt8) :
    TcHook :=
  if 0 ≤ fd then k.hook.sendmsg k.ifindex fds msg ok else k.hook

/-- What the calls of a program that sends one request come back with. -/
structure SendCalls where
  socketFd : Int32
  bindRc : Int32
  found : Bool
  ok : Bool

/-- The request reaches the kernel, is for the interface, and is performed. -/
def SendCalls.Sent (calls : SendCalls) : Prop :=
  0 ≤ createSocket calls.socketFd calls.bindRc ∧ calls.found = true ∧ calls.ok = true

instance (calls : SendCalls) : Decidable calls.Sent := inferInstanceAs (Decidable (_ ∧ _))

/-- `main` of the programs that send one qdisc request. -/
def qdiscMain (sendRequest : Mem → UInt32 → List UInt8) (stack : Mem) (calls : SendCalls)
    (argv : List CString) (k : Kernel) : Exit :=
  if argv.length < 2 then ⟨-1, "", k.hook⟩
  else
    let fd := createSocket calls.socketFd calls.bindRc
    ⟨0, "", k.send (fun _ => none) fd calls.ok (sendRequest stack (k.ifNametoindex calls.found))⟩

def AddQdisc.main := qdiscMain Netlink.AddQdisc.sendRequest
def DelQdisc.main := qdiscMain Netlink.DelQdisc.sendRequest
def TcDetach.main := qdiscMain Netlink.TcDetach.sendRequest

namespace AddTcfilter

/-- The descriptor that `load_bpf` returns is not looked at. -/
def main (stack : Mem) (loadFd : Int32) (calls : SendCalls) (argv : List CString) (k : Kernel) :
    Exit :=
  if argv.length < 2 then ⟨-1, "", k.hook⟩
  else
    let sockFd := createSocket calls.socketFd calls.bindRc
    let fds := if 0 ≤ loadFd then k.fds loadFd else fun _ => none
    ⟨0, "", k.send fds sockFd calls.ok (Netlink.AddTcfilter.sendRequest stack bpf acceptAll
      (k.ifNametoindex calls.found) loadFd.toUInt32)⟩

end AddTcfilter

/-- `bpf_tc_hook_destroy` on both directions of interface `index`; `rc` is what it comes back with
where it can succeed. -/
def Kernel.bpfTcHookDestroy (k : Kernel) (index : UInt32) (rc : Int32) : Int32 × TcHook :=
  if index ≠ k.ifindex then (-EINVAL, k.hook)
  else if k.hook.present = false then (-ENOENT, k.hook)
  else if rc ≠ 0 then (rc, k.hook)
  else (0, .gone)

namespace TcDetach2

structure Calls where
  found : Bool
  destroyRc : Int32

/-- `detach_bpf`: its result, what it prints, and the hook. -/
def detachBpf (calls : Calls) (k : Kernel) : Int32 × String × TcHook :=
  let (rc, hook) := k.bpfTcHookDestroy (k.ifNametoindex calls.found) calls.destroyRc
  if rc ≠ 0 then (rc, "Error destroying tc hook\n", hook)
  else (0, "", hook)

def main (calls : Calls) (argv : List CString) (k : Kernel) : Exit :=
  if argv.length < 2 then ⟨-1, "", k.hook⟩
  else
    let (rc, printed, hook) := detachBpf calls k
    if rc ≠ 0 then ⟨-1, printed ++ "Error detaching bpf program\n", hook⟩
    else ⟨0, printed, hook⟩

end TcDetach2

section effect

variable (k : Kernel) (stack : Mem) {calls : SendCalls} {argv : List CString}

theorem send_eq (fds : Nat → Option Prog) (fd : Int32) (ok : Bool) {msg : List UInt8}
    {request : TcRequest} (h : ∀ m : Mem, m.Holds 0 msg → decodeTc m = some request) :
    k.send fds fd ok msg =
      if 0 ≤ fd ∧ ok = true then k.hook.handle k.ifindex fds (some request) else k.hook := by
  rw [Kernel.send, TcHook.sendmsg, TcHook.request, h _ (Mem.holds_write _ 0 msg), ite_and]

theorem ifNametoindex_toNat_eq_iff (found : Bool) :
    (k.ifNametoindex found).toNat = k.ifindex.toNat ↔ found = true := by
  rw [UInt32.toNat_inj, ifNametoindex_eq_iff]

theorem qdiscMain_short (sendRequest : Mem → UInt32 → List UInt8) (h : argv.length < 2) :
    qdiscMain sendRequest stack calls argv k = ⟨-1, "", k.hook⟩ := if_pos h

theorem qdiscMain_eq {sendRequest : Mem → UInt32 → List UInt8} (request : Nat → TcRequest)
    (hdec : ∀ index m, m.Holds 0 (sendRequest stack index) →
      decodeTc m = some (request index.toNat)) {hook : TcHook}
    (hhandle : ∀ i, k.hook.handle k.ifindex (fun _ => none) (some (request i)) =
      if i = k.ifindex.toNat then hook else k.hook) (hargc : ¬argv.length < 2) :
    qdiscMain sendRequest stack calls argv k =
      ⟨0, "", if calls.Sent then hook else k.hook⟩ := by
  rw [qdiscMain, if_neg hargc]
  dsimp only
  rw [send_eq k _ _ _ (hdec _), hhandle]
  simp only [ifNametoindex_toNat_eq_iff]
  by_cases hsent : 0 ≤ createSocket calls.socketFd calls.bindRc ∧ calls.ok = true
  · simp [SendCalls.Sent, hsent]
  · rw [if_neg hsent, if_neg]
    intro h
    exact hsent ⟨h.1, h.2.2⟩

theorem AddQdisc.main_eq (hargc : ¬argv.length < 2) :
    main stack calls argv k = ⟨0, "", if calls.Sent then k.hook.create else k.hook⟩ := by
  refine qdiscMain_eq k stack .create ?_ (fun _ => rfl) hargc
  intro index m h
  rw [Netlink.AddQdisc.sendRequest, sendQdiscRequest_eq] at h
  exact decode_create h (by decide) (nlaString_chars clsact)

theorem DelQdisc.main_eq (hargc : ¬argv.length < 2) :
    main stack calls argv k = ⟨0, "", if calls.Sent then .gone else k.hook⟩ := by
  refine qdiscMain_eq k stack .destroy ?_ (fun _ => rfl) hargc
  intro index m h
  rw [Netlink.DelQdisc.sendRequest, sendQdiscRequest_eq] at h
  exact decode_destroy h (by decide) (nlaString_chars clsact)

theorem TcDetach.main_eq (hargc : ¬argv.length < 2) :
    main stack calls argv k = ⟨0, "", if calls.Sent then .gone else k.hook⟩ := by
  refine qdiscMain_eq k stack .destroy ?_ (fun _ => rfl) hargc
  intro index m h
  rw [Netlink.TcDetach.sendRequest_eq] at h
  exact decode_destroy h (by decide) (nlaString_bytes clsact)

theorem AddTcfilter.main_eq {loadFd : Int32} (hargc : ¬argv.length < 2) :
    main stack loadFd calls argv k =
      ⟨0, "", if calls.Sent ∧ 0 ≤ loadFd then k.hook.attach ⟨ingress, k.progs⟩ else k.hook⟩ := by
  have hdec : ∀ m : Mem, m.Holds 0 (Netlink.AddTcfilter.sendRequest stack bpf acceptAll
      (k.ifNametoindex calls.found) loadFd.toUInt32) → decodeTc m =
        some (.attach (k.ifNametoindex calls.found).toNat ingress loadFd.toUInt32.toNat) := by
    intro m h
    rw [Netlink.AddTcfilter.sendRequest_eq stack (by decide) (by decide)] at h
    exact decode_filter h
  rw [main, if_neg hargc]
  dsimp only
  rw [send_eq k _ _ _ hdec, TcHook.handle]
  simp only [ifNametoindex_toNat_eq_iff]
  by_cases hload : 0 ≤ loadFd
  · rw [if_pos hload, fds_self]
    by_cases hsent : 0 ≤ createSocket calls.socketFd calls.bindRc ∧ calls.ok = true
    · simp [SendCalls.Sent, hsent, hload]
    · rw [if_neg hsent, if_neg]
      intro h
      exact hsent ⟨h.1.1, h.1.2.2⟩
  · simp [hload]

theorem TcDetach2.main_eq {calls : TcDetach2.Calls} (hargc : ¬argv.length < 2) :
    main calls argv k =
      if calls.found = true ∧ k.hook.present = true ∧ calls.destroyRc = 0 then ⟨0, "", .gone⟩
      else ⟨-1, "Error destroying tc hook\nError detaching bpf program\n", k.hook⟩ := by
  simp only [main, if_neg hargc, detachBpf, Kernel.bpfTcHookDestroy, ne_eq,
    ifNametoindex_eq_iff]
  by_cases hfound : calls.found = true
  · cases hpresent : k.hook.present with
    | false => simp [hfound, (by decide : ¬-ENOENT = 0)]
    | true => by_cases hrc : calls.destroyRc = 0 <;> simp [hfound, hrc]
  · simp [hfound, (by decide : ¬-EINVAL = 0)]

end effect

end SnippetsC.Bpf
