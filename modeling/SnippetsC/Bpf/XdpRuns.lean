import SnippetsC.Bpf.ExtensionHeaders
import SnippetsC.Bpf.TcAttach
import SnippetsC.Framework.Simulation

namespace SnippetsC.Bpf

open Netlink (CString)

/-! An interface that receives packets while `xdp-attach` and `xdp-detach` run. -/

namespace XdpAccept

def acceptAll (_ctx : XdpMd) : Outcome := ⟨XDP_PASS, [], []⟩

end XdpAccept

/-- The XDP programs. -/
inductive XdpProgram where
  | accept
  | counting (prog : Program)
  deriving DecidableEq

namespace XdpProgram

def acceptAll : XdpProgram → XdpMd → Outcome
  | accept => XdpAccept.acceptAll
  | counting prog => prog.acceptAll

def amount : XdpProgram → XdpMd → BitVec 64
  | accept, _ => 0
  | counting prog, ctx => prog.amount ctx

end XdpProgram

/-- A program that has been loaded, with the element of its map. -/
structure Loaded where
  prog : XdpProgram
  element : BitVec 64
  deriving DecidableEq

/-- The program runs on a packet, alone. -/
def Loaded.receive (p : Loaded) (ctx : XdpMd) : Loaded :=
  { p with element := Access.exec p.element 0 (p.prog.acceptAll ctx).accesses }

/-- `bpf_set_link_xdp_fd` in driver mode, on an interface with the program `slot`: it puts the
program of `fd` in its place, and -1 is no program. `rc` is what it comes back with where it can
succeed. -/
def bpfSetLinkXdpFd (slot : Option Loaded) (found : Bool) (fds : Int32 → Option Loaded)
    (fd rc : Int32) : Int32 × Option Loaded :=
  if found = false then (-EINVAL, slot)
  else if rc ≠ 0 then (rc, slot)
  else if fd = -1 then (0, none)
  else
    match fds fd with
    | none => (-EBADF, slot)
    | some p => (0, some p)

structure XdpExit where
  code : Int
  printed : String
  slot : Option Loaded

namespace XdpAttach

/-- What the calls come back with: descriptors are not negative, errors are. -/
structure Calls where
  loadRc : Int32
  progFd : Int32
  found : Bool
  setRc : Int32
  progFd_nonneg : 0 ≤ progFd
  setRc_nonpos : setRc ≤ 0

/-- The file `argv[1]` holds `prog`; loading it makes a new map. -/
def main (calls : Calls) (prog : XdpProgram) (argv : List CString) (slot : Option Loaded) :
    XdpExit :=
  if argv.length < 3 then ⟨-1, "", slot⟩
  else if calls.loadRc ≠ 0 then ⟨-1, "Error loading xdp program\n", slot⟩
  else
    let fds := fun fd => if fd = calls.progFd then some ⟨prog, 0⟩ else none
    let (rc, slot') := bpfSetLinkXdpFd slot calls.found fds calls.progFd calls.setRc
    if rc < 0 then ⟨-1, "Error attaching xdp program\n", slot'⟩ else ⟨0, "", slot'⟩

/-- Everything that `main` does succeeds. -/
def Attaches (calls : Calls) (argv : List CString) : Prop :=
  3 ≤ argv.length ∧ calls.loadRc = 0 ∧ calls.found = true ∧ calls.setRc = 0

instance (calls : Calls) (argv : List CString) : Decidable (Attaches calls argv) :=
  inferInstanceAs (Decidable (_ ∧ _))

end XdpAttach

namespace XdpDetach

structure Calls where
  found : Bool
  setRc : Int32

def main (calls : Calls) (argv : List CString) (slot : Option Loaded) : XdpExit :=
  if argv.length < 2 then ⟨-1, "", slot⟩
  else
    let (rc, slot') := bpfSetLinkXdpFd slot calls.found (fun _ => none) (-1) calls.setRc
    if rc ≠ 0 then ⟨-1, "Error removing xdp program\n", slot'⟩ else ⟨0, "", slot'⟩

def Detaches (calls : Calls) (argv : List CString) : Prop :=
  2 ≤ argv.length ∧ calls.found = true ∧ calls.setRc = 0

instance (calls : Calls) (argv : List CString) : Decidable (Detaches calls argv) :=
  inferInstanceAs (Decidable (_ ∧ _))

end XdpDetach

/-- What happens at the interface. -/
inductive XdpEvent where
  | attach (calls : XdpAttach.Calls) (prog : XdpProgram) (argv : List CString)
  | detach (calls : XdpDetach.Calls) (argv : List CString)
  | packet (ctx : XdpMd)

/-- What comes of it: an exit code, or what is done with a packet. -/
inductive XdpAnswer where
  | exit (code : Int)
  | verdict (action : Nat)
  deriving DecidableEq

namespace XdpEvent

/-- Without a program packets are passed on too. -/
def perform (slot : Option Loaded) : XdpEvent → Option Loaded × XdpAnswer
  | attach calls prog argv =>
    ((XdpAttach.main calls prog argv slot).slot, .exit (XdpAttach.main calls prog argv slot).code)
  | detach calls argv =>
    ((XdpDetach.main calls argv slot).slot, .exit (XdpDetach.main calls argv slot).code)
  | packet ctx =>
    (slot.map (·.receive ctx),
      .verdict ((slot.map fun p => (p.prog.acceptAll ctx).verdict).getD XDP_PASS))

/-- The program that an event puts on the interface, or none; other events leave it alone. -/
def replaces : XdpEvent → Option (Option Loaded)
  | attach calls prog argv =>
    if XdpAttach.Attaches calls argv then some (some ⟨prog, 0⟩) else none
  | detach calls argv => if XdpDetach.Detaches calls argv then some none else none
  | packet _ => none

/-- The answer that is to be expected. -/
def answer : XdpEvent → XdpAnswer
  | attach calls _ argv => .exit (if XdpAttach.Attaches calls argv then 0 else -1)
  | detach calls argv => .exit (if XdpDetach.Detaches calls argv then 0 else -1)
  | packet _ => .verdict XDP_PASS

def packet? : XdpEvent → Option XdpMd
  | packet ctx => some ctx
  | _ => none

def receive (event : XdpEvent) (p : Loaded) : Loaded :=
  match event.packet? with
  | some ctx => p.receive ctx
  | none => p

end XdpEvent

section step

variable (slot : Option Loaded) (argv : List CString)

theorem XdpAttach.main_eq (calls : Calls) (prog : XdpProgram) :
    (main calls prog argv slot).code = (if Attaches calls argv then 0 else -1) ∧
      (main calls prog argv slot).slot =
        if Attaches calls argv then some ⟨prog, 0⟩ else slot := by
  have hfd : calls.progFd ≠ -1 := by
    intro h
    have hnonneg := calls.progFd_nonneg
    rw [h] at hnonneg
    exact absurd hnonneg (by decide)
  by_cases hargc : argv.length < 3
  · have hno : ¬Attaches calls argv := fun h => absurd h.1 (by omega)
    simp [main, hargc, hno]
  by_cases hload : calls.loadRc = 0
  · cases hfound : calls.found with
    | false =>
      have hneg : (-EINVAL : Int32) < 0 := by decide
      simp [main, hargc, hload, bpfSetLinkXdpFd, hfound, hneg, Attaches]
    | true =>
      by_cases hset : calls.setRc = 0
      · have hyes : Attaches calls argv := ⟨by omega, hload, hfound, hset⟩
        simp [main, hargc, hload, bpfSetLinkXdpFd, hfound, hset, hfd, hyes]
      · have hneg : calls.setRc < 0 := Int32.lt_of_le_of_ne calls.setRc_nonpos hset
        simp [main, hargc, hload, bpfSetLinkXdpFd, hfound, hset, hneg, Attaches]
  · simp [main, hargc, hload, Attaches]

theorem XdpDetach.main_eq (calls : Calls) :
    (main calls argv slot).code = (if Detaches calls argv then 0 else -1) ∧
      (main calls argv slot).slot = if Detaches calls argv then none else slot := by
  by_cases hargc : argv.length < 2
  · have hno : ¬Detaches calls argv := fun h => absurd h.1 (by omega)
    simp [main, hargc, hno]
  cases hfound : calls.found with
  | false =>
    have hne : (-EINVAL : Int32) ≠ 0 := by decide
    simp [main, hargc, bpfSetLinkXdpFd, hfound, hne, Detaches]
  | true =>
    by_cases hset : calls.setRc = 0
    · have hyes : Detaches calls argv := ⟨by omega, hfound, hset⟩
      simp [main, hargc, bpfSetLinkXdpFd, hfound, hset, hyes]
    · simp [main, hargc, bpfSetLinkXdpFd, hfound, hset, Detaches]

end step

section programs

theorem countProto_verdict (ethertype sizeofHdr protoAt proto : Nat) (ctx : XdpMd) :
    (countProto ethertype sizeofHdr protoAt proto ctx).verdict = XDP_PASS := by
  simp only [countProto]
  split_ifs <;> rfl

/-- Every program passes every packet on. -/
theorem XdpProgram.verdict_eq (prog : XdpProgram) (ctx : XdpMd) :
    (prog.acceptAll ctx).verdict = XDP_PASS := by
  cases prog with
  | accept => rfl
  | counting prog =>
    cases prog with
    | count => rfl
    | bytes => rfl
    | udp4count => exact countProto_verdict ..
    | tcp6count => exact countProto_verdict ..

theorem Loaded.receive_eq (p : Loaded) (ctx : XdpMd) :
    p.receive ctx = ⟨p.prog, p.element + p.prog.amount ctx⟩ := by
  obtain ⟨prog, element⟩ := p
  cases prog with
  | accept => simp [receive, XdpProgram.acceptAll, XdpAccept.acceptAll, XdpProgram.amount,
      Access.exec]
  | counting prog =>
    have hdue := due_accesses prog ctx
    simp only [receive, XdpProgram.acceptAll, XdpProgram.amount]
    rcases accesses_increase prog ctx with hnone | ⟨n, hn⟩
    · rw [hnone] at hdue ⊢
      rw [← hdue]
      simp [Access.exec]
    · rw [hn, Access.due_increase] at hdue
      rw [hn, ← hdue]
      rfl

end programs

namespace XdpEvent

theorem perform_eq (slot : Option Loaded) (event : XdpEvent) :
    (perform slot event).1 = event.replaces.getD (slot.map event.receive) ∧
      (perform slot event).2 = event.answer := by
  have hid : slot.map (fun p => p) = slot := Option.map_id'
  cases event with
  | attach calls prog argv =>
    obtain ⟨hcode, hslot⟩ := XdpAttach.main_eq slot argv calls prog
    refine ⟨?_, congrArg XdpAnswer.exit hcode⟩
    rw [perform, hslot, replaces]
    split_ifs
    · rfl
    · exact hid.symm
  | detach calls argv =>
    obtain ⟨hcode, hslot⟩ := XdpDetach.main_eq slot argv calls
    refine ⟨?_, congrArg XdpAnswer.exit hcode⟩
    rw [perform, hslot, replaces]
    split_ifs
    · rfl
    · exact hid.symm
  | packet ctx =>
    refine ⟨rfl, ?_⟩
    cases slot with
    | none => rfl
    | some p => exact congrArg XdpAnswer.verdict (p.prog.verdict_eq ctx)

/-- The packets among some events. -/
def packets (events : List XdpEvent) : List XdpMd := events.filterMap packet?

theorem foldl_receive (p : Loaded) (events : List XdpEvent) :
    events.foldl (fun p event => event.receive p) p =
      ⟨p.prog, p.element + ((packets events).map p.prog.amount).sum⟩ := by
  induction events generalizing p with
  | nil => simp [packets]
  | cons event events ih =>
    rw [List.foldl_cons, ih]
    cases hpacket : event.packet? with
    | none => simp [receive, packets, hpacket]
    | some ctx => simp [receive, packets, hpacket, p.receive_eq, add_assoc]

end XdpEvent

open XdpEvent

/-- Whatever happens at an interface that has no program at first, all packets are passed on and all
exit codes tell the truth; and a program is there exactly if a run of `xdp-attach` has put it there
and no run of either command has succeeded since. Its element then is what it counts of the packets
that came since. -/
theorem xdp_counts_iff (events : List XdpEvent) :
    (respond perform none events).2 = events.map XdpEvent.answer ∧
    ∀ prog element, (respond perform none events).1 = some ⟨prog, element⟩ ↔
      ∃ before calls argv after, events = before ++ .attach calls prog argv :: after ∧
        XdpAttach.Attaches calls argv ∧ (∀ event ∈ after, event.replaces = none) ∧
        element = ((packets after).map prog.amount).sum := by
  constructor
  · have hanswers : ∀ slot, (respond perform slot events).2 = events.map XdpEvent.answer := by
      induction events with
      | nil => exact fun _ => rfl
      | cons event events ih =>
        intro slot
        rw [respond, List.map_cons, (perform_eq slot event).2, ih]
    exact hanswers none
  · intro prog element
    rw [respond_replaced replaces XdpEvent.receive fun slot event => (perform_eq slot event).1]
    constructor
    · rintro ⟨before, event, after, new, rfl, hnew, hkept, hcount⟩
      rw [foldl_receive] at hcount
      cases event with
      | attach calls prog' argv =>
        rw [replaces] at hnew
        split_ifs at hnew with hdone
        cases hnew
        cases hcount
        exact ⟨before, calls, argv, after, rfl, hdone, hkept, BitVec.zero_add _⟩
      | detach calls argv =>
        rw [replaces] at hnew
        split_ifs at hnew
        cases hnew
      | packet ctx => cases hnew
    · rintro ⟨before, calls, argv, after, rfl, hdone, hkept, rfl⟩
      refine ⟨before, _, after, ⟨prog, 0⟩, rfl, if_pos hdone, hkept, ?_⟩
      rw [foldl_receive]
      exact congrArg (Loaded.mk prog) (BitVec.zero_add _).symm

/-- An attach that fails leaves the program there, and its count. -/
theorem xdp_counts_iff_two :
    let fine : XdpAttach.Calls := ⟨0, 4, true, 0, by decide, by decide⟩
    let refused : XdpAttach.Calls := ⟨0, 4, true, -22, by decide, by decide⟩
    let argv : List CString := List.replicate 3 Netlink.bpf
    let ctx : XdpMd := ⟨fun _ => 0, 0, 64, by decide⟩
    (respond perform none [.attach fine (.counting .count) argv, .packet ctx, .packet ctx,
      .attach refused .accept argv]).1 = some ⟨.counting .count, 2⟩ := by
  intro fine refused argv ctx
  have hrefused : ¬XdpAttach.Attaches refused argv := by decide
  refine ((xdp_counts_iff _).2 _ _).mpr ⟨[], fine, argv, _, rfl, by decide, ?_, rfl⟩
  simp [replaces, hrefused]

end SnippetsC.Bpf
