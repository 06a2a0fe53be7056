import SnippetsC.Bpf.TcHook
import SnippetsC.Framework.Script

namespace SnippetsC.Bpf

open Netlink (CString bpf acceptAll)

/-! The loaders `tc-attach` and `tc-attach2`. -/

/-- An interface with its hook, and how many programs have been loaded. -/
structure Kernel where
  ifindex : UInt32
  ifindex_ne : ifindex ≠ 0
  hook : TcHook
  progs : Nat
  loaded : ∀ f ∈ hook.filters, f.prog < progs

/-- `if_nametoindex`, which may fail. -/
def Kernel.ifNametoindex (k : Kernel) (found : Bool) : UInt32 := if found then k.ifindex else 0

/-- The next program has been loaded and `fd` refers to it. -/
def Kernel.fds (k : Kernel) (fd : Int32) (n : Nat) : Option Prog :=
  if n = fd.toUInt32.toNat then some k.progs else none

/-- What a loader leaves behind. -/
structure Exit where
  code : Int
  printed : String
  hook : TcHook

/-- `load_bpf`, with the result of `bpf_prog_load_xattr` and the descriptor it stores. -/
def loadBpf (rc progFd : Int32) : Int32 := if rc ≠ 0 then -1 else progFd

namespace TcAttach

/-- What the calls of `tc-attach` come back with. A request is performed if it is sent and the
kernel accepts it. -/
structure Calls where
  loadRc : Int32
  progFd : Int32
  socketFd : Int32
  bindRc : Int32
  qdiscFound : Bool
  qdiscOk : Bool
  filterFound : Bool
  filterOk : Bool

/-- `create_socket`. -/
def createSocket (calls : Calls) : Int32 :=
  if calls.socketFd < 0 then calls.socketFd
  else if calls.bindRc ≠ 0 then -1
  else calls.socketFd

def main (stack stack' : Mem) (calls : Calls) (argv : List CString) (k : Kernel) : Exit :=
  if argv.length < 3 then ⟨-1, "", k.hook⟩
  else
    let progFd := loadBpf calls.loadRc calls.progFd
    if progFd < 0 then ⟨-1, "Error loading bpf program\n", k.hook⟩
    else if createSocket calls < 0 then ⟨-1, "Error creating netlink socket\n", k.hook⟩
    else
      -- neither what sendmsg returns nor the kernel's reply is looked at
      let hook := k.hook.sendmsg k.ifindex (k.fds progFd)
        (Netlink.TcAttach.sendRequestQdisc stack (k.ifNametoindex calls.qdiscFound)) calls.qdiscOk
      let hook := hook.sendmsg k.ifindex (k.fds progFd)
        (Netlink.TcAttach.sendRequestFilter stack' bpf acceptAll
          (k.ifNametoindex calls.filterFound) progFd.toUInt32) calls.filterOk
      ⟨0, "", hook⟩

end TcAttach

def EEXIST : Int32 := 17
def EINVAL : Int32 := 22
def ENOENT : Int32 := 2
def EBADF : Int32 := 9

/-- `bpf_tc_hook_create` on the ingress of interface `index`; `rc` is what it comes back with where
it can succeed. -/
def Kernel.bpfTcHookCreate (k : Kernel) (index : UInt32) (rc : Int32) (hook : TcHook) :
    Int32 × TcHook :=
  if index ≠ k.ifindex then (-EINVAL, hook)
  else if hook.present then (-EEXIST, hook)
  else if rc ≠ 0 then (rc, hook)
  else (0, hook.create)

/-- `bpf_tc_attach` on the ingress hook. -/
def bpfTcAttach (fds : Nat → Option Prog) (progFd rc : Int32) (hook : TcHook) : Int32 × TcHook :=
  match fds progFd.toUInt32.toNat with
  | none => (-EBADF, hook)
  | some prog =>
    if hook.present = false then (-ENOENT, hook)
    else if rc ≠ 0 then (rc, hook)
    else (0, hook.attach ⟨ingress, prog⟩)

namespace TcAttach2

structure Calls where
  loadRc : Int32
  progFd : Int32
  found : Bool
  createRc : Int32
  attachRc : Int32

/-- `attach_bpf`: its result, what it prints, and the hook. -/
def attachBpf (calls : Calls) (progFd : Int32) (k : Kernel) : Int32 × String × TcHook :=
  let (rc, hook) := k.bpfTcHookCreate (k.ifNametoindex calls.found) calls.createRc k.hook
  if rc ≠ 0 then (rc, "Error creating tc hook\n", hook)
  else
    let (rc, hook) := bpfTcAttach (k.fds progFd) progFd calls.attachRc hook
    if rc ≠ 0 then (rc, "Error during tc attach\n", hook)
    else (0, "", hook)

def main (calls : Calls) (argv : List CString) (k : Kernel) : Exit :=
  if argv.length < 3 then ⟨-1, "", k.hook⟩
  else
    let progFd := loadBpf calls.loadRc calls.progFd
    if progFd < 0 then ⟨-1, "Error loading bpf program\n", k.hook⟩
    else
      let (rc, printed, hook) := attachBpf calls progFd k
      if rc ≠ 0 then ⟨-1, printed ++ "Error attaching bpf program\n", hook⟩
      else ⟨0, printed, hook⟩

end TcAttach2

/-- Exit code 0 means that a filter on the hook runs the loaded program, any other that nothing has
changed. -/
def Truthful (k : Kernel) (e : Exit) : Prop :=
  (e.code = 0 → e.hook.present = true ∧ ∃ f ∈ e.hook.filters, f.prog = k.progs) ∧
    (e.code ≠ 0 → e.hook = k.hook)

/-- A filter that has been attached to a hook that is present runs its program. -/
theorem runs_attach {hook : TcHook} (h : hook.present = true) (prog : Prog) :
    (hook.attach ⟨ingress, prog⟩).present = true ∧
      ∃ f ∈ (hook.attach ⟨ingress, prog⟩).filters, f.prog = prog := by
  refine ⟨h, ⟨ingress, prog⟩, ?_, rfl⟩
  rw [TcHook.filters_attach h]
  exact List.mem_cons_self

/-- A loader that fails before it has changed anything. -/
theorem truthful_failed (k : Kernel) (printed : String) : Truthful k ⟨-1, printed, k.hook⟩ :=
  ⟨fun h => absurd h (by decide : ¬(-1 : Int) = 0), fun _ => rfl⟩

theorem ifNametoindex_eq_iff (k : Kernel) (found : Bool) :
    k.ifNametoindex found = k.ifindex ↔ found = true := by
  rw [Kernel.ifNametoindex]
  cases found with
  | true => exact ⟨fun _ => rfl, fun _ => rfl⟩
  | false => exact ⟨fun h => absurd h.symm k.ifindex_ne, fun h => absurd h Bool.false_ne_true⟩

/-- The loader gets as far as having a program. -/
def Loads (argv : List CString) (rc progFd : Int32) : Prop :=
  3 ≤ argv.length ∧ rc = 0 ∧ 0 ≤ progFd

theorem loadBpf_lt_iff (rc progFd : Int32) : loadBpf rc progFd < 0 ↔ ¬(rc = 0 ∧ 0 ≤ progFd) := by
  rw [loadBpf]
  split_ifs with h
  · exact ⟨fun _ hok => h hok.1, fun _ => by decide⟩
  · have hrc : rc = 0 := not_not.mp h
    rw [and_iff_right hrc, Int32.not_le]

theorem fds_self (k : Kernel) (fd : Int32) : k.fds fd fd.toUInt32.toNat = some k.progs := if_pos rfl

namespace TcAttach

section effect

variable (stack : Mem) (k : Kernel) (fd : Int32) (hook : TcHook) (found ok : Bool)

theorem sendmsg_qdisc : hook.sendmsg k.ifindex (k.fds fd)
    (Netlink.TcAttach.sendRequestQdisc stack (k.ifNametoindex found)) ok =
      if found = true ∧ ok = true then hook.create else hook := by
  have hm := Mem.holds_write (fun _ => 0) 0 (Netlink.Qdisc.message (k.ifNametoindex found))
  rw [TcHook.sendmsg, Netlink.TcAttach.sendRequestQdisc_eq, request_qdisc hook _ _ hm]
  simp only [ifNametoindex_eq_iff]
  cases ok <;> simp

theorem sendmsg_filter : hook.sendmsg k.ifindex (k.fds fd)
    (Netlink.TcAttach.sendRequestFilter stack bpf acceptAll (k.ifNametoindex found) fd.toUInt32)
      ok = if found = true ∧ ok = true then hook.attach ⟨ingress, k.progs⟩ else hook := by
  have hm := Mem.holds_write (fun _ => 0) 0
    (Netlink.Filter.message bpf acceptAll (k.ifNametoindex found) fd.toUInt32)
  rw [TcHook.sendmsg, Netlink.TcAttach.sendRequestFilter_eq stack (by decide),
    request_filter hook _ _ hm (fds_self k fd)]
  simp only [ifNametoindex_eq_iff]
  cases ok <;> simp

end effect

/-- The socket is there and bound. -/
def Connects (calls : Calls) : Prop := 0 ≤ calls.socketFd ∧ calls.bindRc = 0

theorem createSocket_lt_iff (calls : Calls) : createSocket calls < 0 ↔ ¬Connects calls := by
  rw [createSocket, Connects]
  split_ifs with hfd hbind
  · have hnot := Int32.not_le.mpr hfd
    exact ⟨fun _ hok => hnot hok.1, fun _ => hfd⟩
  · exact ⟨fun _ hok => hbind hok.2, fun _ => by decide⟩
  · have hok : 0 ≤ calls.socketFd := Int32.not_lt.mp hfd
    exact ⟨fun hlt => absurd hlt hfd, fun hnot => absurd ⟨hok, not_not.mp hbind⟩ hnot⟩

/-- The hook when both requests have been sent. -/
def sent (calls : Calls) (k : Kernel) : TcHook :=
  let hook := if calls.qdiscFound = true ∧ calls.qdiscOk = true then k.hook.create else k.hook
  if calls.filterFound = true ∧ calls.filterOk = true then hook.attach ⟨ingress, k.progs⟩ else hook

/-- Both requests are performed, the first one unless there is nothing left to do for it. -/
def Done (calls : Calls) (k : Kernel) : Prop :=
  (k.hook.present = true ∨ calls.qdiscFound = true ∧ calls.qdiscOk = true) ∧
    calls.filterFound = true ∧ calls.filterOk = true

theorem sent_attached_iff (calls : Calls) (k : Kernel) :
    ((sent calls k).present = true ∧ ∃ f ∈ (sent calls k).filters, f.prog = k.progs) ↔
      Done calls k := by
  let hook := if calls.qdiscFound = true ∧ calls.qdiscOk = true then k.hook.create else k.hook
  have hpresent : hook.present = true ↔
      k.hook.present = true ∨ calls.qdiscFound = true ∧ calls.qdiscOk = true := by
    by_cases hq : calls.qdiscFound = true ∧ calls.qdiscOk = true
    · simp [hook, hq, TcHook.create]
    · simp [hook, hq]
  have hfilters : hook.filters = k.hook.filters := by
    by_cases hq : calls.qdiscFound = true ∧ calls.qdiscOk = true
    · simp [hook, hq, TcHook.create]
    · simp [hook, hq]
  rw [Done, ← hpresent]
  change ((if calls.filterFound = true ∧ calls.filterOk = true then
    hook.attach ⟨ingress, k.progs⟩ else hook).present = true ∧ ∃ f ∈ (if calls.filterFound = true ∧
      calls.filterOk = true then hook.attach ⟨ingress, k.progs⟩ else hook).filters, _) ↔ _
  by_cases hf : calls.filterFound = true ∧ calls.filterOk = true
  · rw [if_pos hf, and_iff_left hf]
    constructor
    · intro h
      exact h.1
    · intro h
      exact runs_attach h k.progs
  · rw [if_neg hf]
    constructor
    · intro h
      -- no filter that was there before runs the new program
      obtain ⟨-, f, hmem, hprog⟩ := h
      rw [hfilters] at hmem
      exact absurd hprog (k.loaded f hmem).ne
    · intro h
      exact absurd h.2 hf

section main

variable (stack stack' : Mem) {calls : Calls} {argv : List CString} (k : Kernel)

theorem main_failed (h : ¬(Loads argv calls.loadRc calls.progFd ∧ Connects calls)) :
    ∃ printed, main stack stack' calls argv k = ⟨-1, printed, k.hook⟩ := by
  by_cases hargc : argv.length < 3
  · exact ⟨"", by rw [main, if_pos hargc]⟩
  · by_cases hload : loadBpf calls.loadRc calls.progFd < 0
    · exact ⟨"Error loading bpf program\n", by simp only [main, if_neg hargc, if_pos hload]⟩
    · have hfd := not_not.mp (mt (loadBpf_lt_iff _ _).mpr hload)
      have hsock : createSocket calls < 0 := by
        rw [createSocket_lt_iff]
        intro hcon
        exact h ⟨⟨by omega, hfd⟩, hcon⟩
      exact ⟨"Error creating netlink socket\n", by
        simp only [main, if_neg hargc, if_neg hload, if_pos hsock]⟩

theorem main_sent (hl : Loads argv calls.loadRc calls.progFd) (hc : Connects calls) :
    main stack stack' calls argv k = ⟨0, "", sent calls k⟩ := by
  have hargc : ¬argv.length < 3 := Nat.not_lt.mpr hl.1
  have hload : ¬loadBpf calls.loadRc calls.progFd < 0 := fun h =>
    (loadBpf_lt_iff _ _).mp h hl.2
  have hsock : ¬createSocket calls < 0 := fun h => (createSocket_lt_iff calls).mp h hc
  simp only [main, if_neg hargc, if_neg hload, if_neg hsock, sendmsg_qdisc, sendmsg_filter, sent]

end main

theorem truthful_iff (stack stack' : Mem) (calls : Calls) (argv : List CString) (k : Kernel) :
    Truthful k (main stack stack' calls argv k) ↔
      (Loads argv calls.loadRc calls.progFd → Connects calls → Done calls k) := by
  by_cases h : Loads argv calls.loadRc calls.progFd ∧ Connects calls
  · rw [main_sent stack stack' k h.1 h.2, Truthful, ← sent_attached_iff]
    constructor
    · intro htrue _ _
      exact htrue.1 rfl
    · intro hdone
      exact ⟨fun _ => hdone h.1 h.2, fun hne => absurd rfl hne⟩
  · obtain ⟨printed, hmain⟩ := main_failed stack stack' k h
    rw [hmain]
    exact ⟨fun _ hl hc => absurd ⟨hl, hc⟩ h, fun _ => truthful_failed k printed⟩

end TcAttach

namespace TcAttach2

section calls

variable {k : Kernel} {index : UInt32} {fds : Nat → Option Prog} {progFd rc : Int32}
  {hook : TcHook}

theorem bpfTcHookCreate_ok (h : index = k.ifindex ∧ hook.present = false ∧ rc = 0) :
    k.bpfTcHookCreate index rc hook = (0, hook.create) := by
  obtain ⟨rfl, hpresent, rfl⟩ := h
  simp [Kernel.bpfTcHookCreate, hpresent]

theorem bpfTcHookCreate_fails (h : ¬(index = k.ifindex ∧ hook.present = false ∧ rc = 0)) :
    ∃ e, e ≠ 0 ∧ k.bpfTcHookCreate index rc hook = (e, hook) := by
  by_cases hindex : index = k.ifindex
  · by_cases hpresent : hook.present = true
    · exact ⟨-EEXIST, by decide, by simp [Kernel.bpfTcHookCreate, hindex, hpresent]⟩
    · have hrc : rc ≠ 0 := fun hz => h ⟨hindex, Bool.eq_false_iff.mpr hpresent, hz⟩
      exact ⟨rc, hrc, by simp [Kernel.bpfTcHookCreate, hindex, hpresent, hrc]⟩
  · exact ⟨-EINVAL, by decide, by simp [Kernel.bpfTcHookCreate, hindex]⟩

theorem bpfTcAttach_eq {prog : Prog} (rc : Int32) (hfd : fds progFd.toUInt32.toNat = some prog)
    (h : hook.present = true) : bpfTcAttach fds progFd rc hook =
      if rc ≠ 0 then (rc, hook) else (0, hook.attach ⟨ingress, prog⟩) := by
  simp only [bpfTcAttach, hfd, h, Bool.true_eq_false, if_false]

end calls

/-- The calls of `attach_bpf` in order, both of them checked. -/
def script (calls : Calls) (k : Kernel) : List (Call TcHook) :=
  [⟨fun hook => if k.ifNametoindex calls.found = k.ifindex ∧ hook.present = false ∧
      calls.createRc = 0 then some hook.create else none, true⟩,
    ⟨fun hook => if hook.present = true ∧ calls.attachRc = 0 then
      some (hook.attach ⟨ingress, k.progs⟩) else none, true⟩]

theorem attachBpf_follows (calls : Calls) (progFd : Int32) (k : Kernel) :
    Script.Follows ((attachBpf calls progFd k).1 = 0) (attachBpf calls progFd k).2.2
      (Script.run (script calls k) k.hook) := by
  by_cases hc : k.ifNametoindex calls.found = k.ifindex ∧ k.hook.present = false ∧
      calls.createRc = 0
  · have hpresent : k.hook.create.present = true := rfl
    have hattach := bpfTcAttach_eq calls.attachRc (fds_self k progFd) hpresent
    rw [script, Script.run_some (if_pos hc)]
    by_cases ha : calls.attachRc = 0
    · have hres : attachBpf calls progFd k =
          (0, "", k.hook.create.attach ⟨ingress, k.progs⟩) := by
        rw [ha] at hattach
        simp [attachBpf, bpfTcHookCreate_ok hc, hattach, ha]
      rw [Script.run_some (if_pos ⟨hpresent, ha⟩), hres]
      exact Script.Follows.succeeded rfl _
    · have hres : attachBpf calls progFd k =
          (calls.attachRc, "Error during tc attach\n", k.hook.create) := by
        simp [attachBpf, bpfTcHookCreate_ok hc, hattach, ha]
      rw [Script.run_checked (if_neg fun h => ha h.2) rfl, hres]
      exact Script.Follows.failed ha _
  · obtain ⟨e, hne, he⟩ := bpfTcHookCreate_fails hc
    have hres : attachBpf calls progFd k = (e, "Error creating tc hook\n", k.hook) := by
      simp [attachBpf, he, hne]
    rw [script, Script.run_checked (if_neg hc) rfl, hres]
    exact Script.Follows.failed hne _

theorem moves_create (calls : Calls) (k : Kernel) :
    Script.Moves TcHook.weight ⟨fun hook => if k.ifNametoindex calls.found = k.ifindex ∧
      hook.present = false ∧ calls.createRc = 0 then some hook.create else none, true⟩ := by
  intro hook hook' h
  obtain ⟨hc, heq⟩ := Option.ite_none_right_eq_some.mp h
  cases heq
  rw [TcHook.weight_create hc.2.1]
  exact Nat.lt_succ_self _

theorem moves_attach (calls : Calls) (k : Kernel) :
    Script.Moves TcHook.weight ⟨fun hook => if hook.present = true ∧ calls.attachRc = 0 then
      some (hook.attach ⟨ingress, k.progs⟩) else none, true⟩ := by
  intro hook hook' h
  obtain ⟨hc, heq⟩ := Option.ite_none_right_eq_some.mp h
  cases heq
  rw [TcHook.weight_attach hc.1]
  exact Nat.lt_succ_self _

/-- `attach_bpf` leaves the hook it has made when the program cannot be attached to it. -/
theorem atomic_iff (calls : Calls) (k : Kernel) : Script.Atomic (script calls k) k.hook ↔
    (calls.found = true ∧ k.hook.present = false ∧ calls.createRc = 0 → calls.attachRc = 0) := by
  rw [← ifNametoindex_eq_iff k]
  by_cases hc : k.ifNametoindex calls.found = k.ifindex ∧ k.hook.present = false ∧
      calls.createRc = 0
  · have hrest : ∀ c ∈ (script calls k).tail, Script.Moves TcHook.weight c ∨ Script.Silent c := by
      intro c h
      rw [List.mem_singleton.mp h]
      exact .inl (moves_attach calls k)
    refine (Script.atomic_of_moves (moves_create calls k) hrest (if_pos hc)).trans ?_
    rw [forall_prop_of_true hc]
    by_cases ha : calls.attachRc = 0
    · rw [script, List.tail_cons, Script.run_some (if_pos ⟨rfl, ha⟩)]
      exact ⟨fun _ => ha, fun _ => rfl⟩
    · rw [script, List.tail_cons, Script.run_checked (if_neg fun h => ha h.2) rfl]
      exact ⟨fun h => absurd h Bool.false_ne_true, fun h => absurd h ha⟩
  · exact ⟨fun _ h => absurd h hc, fun _ => Script.atomic_of_checked (if_neg hc) rfl⟩

/-- When `attach_bpf` succeeds, the program hangs on the hook it has made. -/
theorem attached {calls : Calls} {k : Kernel} (h : (Script.run (script calls k) k.hook).1 = true) :
    (Script.run (script calls k) k.hook).2 = k.hook.create.attach ⟨ingress, k.progs⟩ := by
  by_cases hc : k.ifNametoindex calls.found = k.ifindex ∧ k.hook.present = false ∧
      calls.createRc = 0
  · rw [script, Script.run_some (if_pos hc)] at h ⊢
    by_cases ha : calls.attachRc = 0
    · rw [Script.run_some (if_pos ⟨rfl, ha⟩)]
      rfl
    · rw [Script.run_checked (if_neg fun h => ha h.2) rfl] at h
      cases h
  · rw [script, Script.run_checked (if_neg hc) rfl] at h
    cases h

section main

variable {calls : Calls} {argv : List CString} (k : Kernel)

theorem main_failed (h : ¬Loads argv calls.loadRc calls.progFd) :
    ∃ printed, main calls argv k = ⟨-1, printed, k.hook⟩ := by
  by_cases hargc : argv.length < 3
  · exact ⟨"", by rw [main, if_pos hargc]⟩
  · have hload : loadBpf calls.loadRc calls.progFd < 0 := by
      rw [loadBpf_lt_iff]
      intro hfd
      exact h ⟨Nat.not_lt.mp hargc, hfd⟩
    exact ⟨"Error loading bpf program\n", by simp only [main, if_neg hargc, if_pos hload]⟩

/-- Once a program is loaded, the exit code and the hook are those of `attach_bpf`. -/
theorem main_loaded (hl : Loads argv calls.loadRc calls.progFd) :
    (main calls argv k).code =
        (if (attachBpf calls (loadBpf calls.loadRc calls.progFd) k).1 = 0 then 0 else -1) ∧
      (main calls argv k).hook = (attachBpf calls (loadBpf calls.loadRc calls.progFd) k).2.2 := by
  have hargc : ¬argv.length < 3 := Nat.not_lt.mpr hl.1
  have hload : ¬loadBpf calls.loadRc calls.progFd < 0 := fun h =>
    (loadBpf_lt_iff _ _).mp h hl.2
  by_cases hrc : (attachBpf calls (loadBpf calls.loadRc calls.progFd) k).1 = 0
  · simp [main, hargc, hload, hrc]
  · simp [main, hargc, hload, hrc]

end main

theorem truthful_iff (calls : Calls) (argv : List CString) (k : Kernel) :
    Truthful k (main calls argv k) ↔
      (Loads argv calls.loadRc calls.progFd →
        calls.found = true ∧ k.hook.present = false ∧ calls.createRc = 0 →
          calls.attachRc = 0) := by
  by_cases hloads : Loads argv calls.loadRc calls.progFd
  · have hfollows := attachBpf_follows calls (loadBpf calls.loadRc calls.progFd) k
    obtain ⟨hcode, hmain⟩ := main_loaded k hloads
    rw [forall_prop_of_true hloads, ← atomic_iff, ← hfollows.atomic, Truthful, hcode, hmain]
    obtain ⟨hok, hhook⟩ := hfollows
    by_cases hrc : (attachBpf calls (loadBpf calls.loadRc calls.progFd) k).1 = 0
    · rw [if_pos hrc, hhook, attached (hok.mp hrc)]
      have hruns := runs_attach (rfl : k.hook.create.present = true) k.progs
      exact ⟨fun _ hne => absurd hrc hne, fun _ => ⟨fun _ => hruns, fun hne => absurd rfl hne⟩⟩
    · rw [if_neg hrc]
      constructor
      · intro h _
        exact h.2 (by decide)
      · intro h
        exact ⟨fun hz => absurd hz (by decide), fun _ => h hrc⟩
  · obtain ⟨printed, hmain⟩ := main_failed k hloads
    rw [hmain]
    exact ⟨fun _ h => absurd h hloads, fun _ => truthful_failed k printed⟩

end TcAttach2

/-- Exactly when the two loaders attach all or nothing and say so. -/
theorem attach_truthful_iff (stack stack' : Mem) (calls : TcAttach.Calls) (calls' : TcAttach2.Calls)
    (argv : List CString) (k : Kernel) :
    (Truthful k (TcAttach.main stack stack' calls argv k) ↔
      (Loads argv calls.loadRc calls.progFd → TcAttach.Connects calls → TcAttach.Done calls k)) ∧
    (Truthful k (TcAttach2.main calls' argv k) ↔
      (Loads argv calls'.loadRc calls'.progFd →
        calls'.found = true ∧ k.hook.present = false ∧ calls'.createRc = 0 →
          calls'.attachRc = 0)) :=
  ⟨TcAttach.truthful_iff stack stack' calls argv k, TcAttach2.truthful_iff calls' argv k⟩

/-- Refused requests go unnoticed in `tc-attach`; `tc-attach2` leaves an empty hook behind. -/
theorem attach_untruthful :
    let k : Kernel := ⟨2, by decide, ⟨false, [], fun _ => rfl⟩, 0, fun _ h => nomatch h⟩
    let argv : List CString := List.replicate 3 bpf
    ¬Truthful k (TcAttach.main (fun _ => 0) (fun _ => 0)
      ⟨0, 3, 4, 0, true, false, true, false⟩ argv k) ∧
    ¬Truthful k (TcAttach2.main ⟨0, 3, true, 0, -22⟩ argv k) := by
  intro k argv
  have hexit : (TcAttach.main (fun _ => 0) (fun _ => 0)
      ⟨0, 3, 4, 0, true, false, true, false⟩ argv k).code = 0 := by decide +kernel
  have hnone : (TcAttach.main (fun _ => 0) (fun _ => 0)
      ⟨0, 3, 4, 0, true, false, true, false⟩ argv k).hook.present = false := by decide +kernel
  have hexit' : (TcAttach2.main ⟨0, 3, true, 0, -22⟩ argv k).code ≠ 0 := by decide +kernel
  have hleft : (TcAttach2.main ⟨0, 3, true, 0, -22⟩ argv k).hook.present = true := by
    decide +kernel
  constructor
  · intro h
    rw [(h.1 hexit).1] at hnone
    cases hnone
  · intro h
    rw [h.2 hexit'] at hleft
    cases hleft

end SnippetsC.Bpf
