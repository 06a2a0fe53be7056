import Mathlib.Data.List.DropRight
import SnippetsC.Netlink.QdiscCommands

namespace SnippetsC.Bpf

open Netlink

/-! The clsact hook of an interface, and what the kernel does with tc requests. -/

/-- A program, by the number it got when it was loaded. -/
abbrev Prog := Nat

structure TcFilter where
  parent : Nat
  prog : Prog
  deriving DecidableEq

/-- Filters hang on a hook that is present. -/
@[ext] structure TcHook where
  present : Bool
  filters : List TcFilter
  filters_nil : present = false → filters = []

namespace TcHook

def create (hook : TcHook) : TcHook where
  present := true
  filters := hook.filters
  filters_nil h := absurd h.symm Bool.false_ne_true

/-- Without a hook there is nothing to attach to. -/
def attach (hook : TcHook) (f : TcFilter) : TcHook where
  present := hook.present
  filters := if hook.present then f :: hook.filters else []
  filters_nil h := by
    rw [h]
    rfl

def weight (hook : TcHook) : Nat := hook.present.toNat + hook.filters.length

theorem weight_create {hook : TcHook} (h : hook.present = false) :
    hook.create.weight = hook.weight + 1 := by
  change 1 + hook.filters.length = hook.weight + 1
  rw [weight, h, Bool.toNat_false]
  omega

theorem filters_attach {hook : TcHook} (h : hook.present = true) (f : TcFilter) :
    (hook.attach f).filters = f :: hook.filters := if_pos h

theorem weight_attach {hook : TcHook} (h : hook.present = true) (f : TcFilter) :
    (hook.attach f).weight = hook.weight + 1 := by
  rw [weight, weight, filters_attach h, List.length_cons, Nat.add_assoc]
  rfl

end TcHook

/-- `TC_H_MAKE(TC_H_CLSACT, TC_H_MIN_INGRESS)`. -/
def ingress : Nat := tcHMake TC_H_CLSACT TC_H_MIN_INGRESS

/-- Where a parser finds the attribute of a type; the last one counts. -/
def findRta (m : Mem) (p : Nat) (len : Int) (type : Nat) : Option Nat :=
  ((rtaWalk m p len).1.filter fun rta => (rtattrAt m rta).type = .ofNat type).getLast?

theorem findRta_payload (m : Mem) (p : Nat) (len : Int) (type : Nat) :
    (findRta m p len type).map (fun rta => (rtattrAt m rta).payload) =
      ((decodeRtas m p len).filter fun a => a.type = .ofNat type).getLast?.map Rtattr.payload := by
  rw [findRta, decodeRtas, List.filter_map, List.getLast?_map, Option.map_map]
  rfl

/-- The attribute of a type in the request at the start of `m`. -/
def requestRta (m : Mem) (type : Nat) : Option Nat :=
  let attrs := nlmsgSpace sizeofTcmsg
  findRta m attrs (nlmsgLen m 0 - attrs) type

def requestKind (m : Mem) : Option (List UInt8) :=
  (requestRta m TCA_KIND).map fun rta => (rtattrAt m rta).payload

/-- A string attribute as the kernel compares it: NULs at its end do not count. -/
def nlaString (payload : List UInt8) : List UInt8 := payload.rdropWhile fun b => b == 0

def IsKind (m : Mem) (kind : CString) : Prop := (requestKind m).map nlaString = some kind.chars

instance (m : Mem) (kind : CString) : Decidable (IsKind m kind) :=
  inferInstanceAs (Decidable (_ = _))

/-- The descriptor in the options of a filter request. -/
def requestFd (m : Mem) : Option Nat := do
  let options ← requestRta m TCA_OPTIONS
  let fd ← (findRta m (rtaData options) (rtaPayload m options) TCA_BPF_FD).map fun rta =>
    (rtattrAt m rta).payload
  return leValue fd

inductive TcRequest where
  | create (ifindex : Nat)
  | destroy (ifindex : Nat)
  | attach (ifindex parent fd : Nat)
  deriving DecidableEq

/-- What the kernel makes of the request at the start of `m`. -/
def decodeTc (m : Mem) : Option TcRequest :=
  let tcm := nlmsgData 0
  let ifindex := m.load32 (tcm + 4)
  let parent := m.load32 (tcm + 12)
  if nlmsgType m 0 = RTM_NEWQDISC then
    if parent = TC_H_CLSACT ∧ IsKind m clsact then some (.create ifindex) else none
  else if nlmsgType m 0 = RTM_DELQDISC then
    if parent = TC_H_CLSACT ∧ IsKind m clsact then some (.destroy ifindex) else none
  else if nlmsgType m 0 = RTM_NEWTFILTER ∧ IsKind m bpf then
    (requestFd m).map (.attach ifindex parent)
  else none

namespace TcHook

/-- Without the qdisc there are no filters. -/
def gone : TcHook := ⟨false, [], fun _ => rfl⟩

/-- A request is for the hook of the interface it names. -/
def handle (hook : TcHook) (ifindex : UInt32) (fds : Nat → Option Prog) :
    Option TcRequest → TcHook
  | none => hook
  | some (.create i) => if i = ifindex.toNat then hook.create else hook
  | some (.destroy i) => if i = ifindex.toNat then gone else hook
  | some (.attach i parent fd) =>
    match fds fd with
    | some prog => if i = ifindex.toNat then hook.attach ⟨parent, prog⟩ else hook
    | none => hook

end TcHook

/-- The hook after the kernel has performed the request at the start of `m`; `fds` are the programs
behind the descriptors of the sender. -/
def TcHook.request (hook : TcHook) (ifindex : UInt32) (fds : Nat → Option Prog) (m : Mem) :
    TcHook := hook.handle ifindex fds (decodeTc m)

/-- A request that is sent changes the hook if it succeeds, and not otherwise. -/
def TcHook.sendmsg (hook : TcHook) (ifindex : UInt32) (fds : Nat → Option Prog) (msg : List UInt8)
    (ok : Bool) : TcHook :=
  if ok then hook.request ifindex fds (Mem.write (fun _ => 0) 0 msg) else hook

section decode

variable {m : Mem}

theorem nlaString_bytes (s : CString) : nlaString s.bytes = s.chars := by
  rw [nlaString, CString.bytes, List.rdropWhile_concat_pos _ _ _ (by rfl)]
  apply List.rdropWhile_eq_self_iff.mpr
  intro hne hzero
  have hlast : s.chars.getLast hne = 0 := by simpa using hzero
  exact s.no_nul (hlast ▸ List.getLast_mem hne)

theorem nlaString_chars (s : CString) : nlaString s.chars = s.chars := by
  have h := nlaString_bytes s
  rwa [nlaString, CString.bytes, List.rdropWhile_concat_pos _ _ _ (by rfl)] at h

theorem isKind_of_bytes {kind : CString} (h : requestKind m = some kind.bytes) : IsKind m kind := by
  rw [IsKind, h, Option.map_some, nlaString_bytes]

/-- A tc message with the attribute bytes `attrs`. -/
def tcMessage (len type flags ifindex handle parent info : Nat) (attrs : List UInt8) :
    List UInt8 :=
  leBytes 4 len ++ (hdrTail type flags ++ ((leBytes 1 0 ++ (List.replicate 3 0 ++
    (leBytes 4 ifindex ++ (leBytes 4 handle ++ (leBytes 4 parent ++ leBytes 4 info))))) ++ attrs))

/-- What the kernel reads in front of the attributes. -/
theorem tcMessage_header {len type flags ifindex handle parent info : Nat} {attrs : List UInt8}
    (h : m.Holds 0 (tcMessage len type flags ifindex handle parent info attrs))
    (hlen : len < 2 ^ 31) (htype : type < 65536) (hindex : ifindex < 4294967296)
    (hparent : parent < 4294967296) :
    nlmsgLen m 0 = len ∧ nlmsgType m 0 = type ∧ m.load32 20 = ifindex ∧ m.load32 28 = parent ∧
      m.Holds 36 attrs := by
  have hl := nlmsgLen_of_leBytes h hlen
  obtain ⟨-, h4⟩ := Mem.holds_append.mp h
  obtain ⟨hhdr, h16⟩ := Mem.holds_append.mp h4
  obtain ⟨htcm, hattrs⟩ := Mem.holds_append.mp h16
  obtain ⟨ht, -⟩ := Mem.holds_append.mp hhdr
  obtain ⟨-, h17⟩ := Mem.holds_append.mp htcm
  obtain ⟨-, h20⟩ := Mem.holds_append.mp h17
  obtain ⟨hi, h24⟩ := Mem.holds_append.mp h20
  obtain ⟨-, h28⟩ := Mem.holds_append.mp h24
  obtain ⟨hp, -⟩ := Mem.holds_append.mp h28
  refine ⟨hl, ?_, ?_, ?_, hattrs⟩
  · exact (Mem.load16_of_holds ht).trans (Nat.mod_eq_of_lt htype)
  · exact (Mem.load32_of_holds hi).trans (Nat.mod_eq_of_lt hindex)
  · exact (Mem.load32_of_holds hp).trans (Nat.mod_eq_of_lt hparent)

theorem qdisc_header {type flags : Nat} {index : UInt32} {kind : List UInt8}
    (h : m.Holds 0 (Qdisc.request type flags index kind)) (htype : type < 65536)
    (hk : kind.length < 256) :
    nlmsgType m 0 = type ∧ m.load32 (nlmsgData 0 + 4) = index.toNat ∧
      m.load32 (nlmsgData 0 + 12) = TC_H_CLSACT ∧ requestKind m = some kind := by
  have hmsg : m.Holds 0 (tcMessage (40 + kind.length) type flags index.toNat
      (tcHMake TC_H_CLSACT 0) TC_H_CLSACT 0 (Rtattr.mk (.ofNat TCA_KIND) kind).data) := by
    rw [Qdisc.request, Qdisc.head, List.append_assoc] at h
    exact h
  obtain ⟨hlen, htype, hindex, hparent, hattr⟩ :=
    tcMessage_header hmsg (by omega) htype index.toNat_lt (by decide)
  refine ⟨htype, hindex, hparent, ?_⟩
  have hrest : (nlmsgLen m 0 : Int) - (36 : Nat) = (Rtattr.mk (.ofNat TCA_KIND) kind).data.length := by
    rw [hlen, Rtattr.data_length]
    dsimp only
    omega
  have hone := (rtaWalk_one hattr hrest (by rw [hlen]; omega)).2
  have hpay := findRta_payload m 36 ((nlmsgLen m 0 : Int) - (36 : Nat)) TCA_KIND
  rw [hone] at hpay
  exact hpay

variable {flags : Nat} {index : UInt32} {kind : List UInt8}

theorem decode_create (h : m.Holds 0 (Qdisc.request RTM_NEWQDISC flags index kind))
    (hk : kind.length < 256) (hclsact : nlaString kind = clsact.chars) :
    decodeTc m = some (.create index.toNat) := by
  obtain ⟨htype, hindex, hparent, hkind⟩ := qdisc_header h (by decide) hk
  have his : IsKind m clsact := by rw [IsKind, hkind, Option.map_some, hclsact]
  simp only [decodeTc, htype, hindex, hparent, his, and_self, if_true]

theorem decode_destroy (h : m.Holds 0 (Qdisc.request RTM_DELQDISC flags index kind))
    (hk : kind.length < 256) (hclsact : nlaString kind = clsact.chars) :
    decodeTc m = some (.destroy index.toNat) := by
  obtain ⟨htype, hindex, hparent, hkind⟩ := qdisc_header h (by decide) hk
  have his : IsKind m clsact := by rw [IsKind, hkind, Option.map_some, hclsact]
  have hne : RTM_DELQDISC ≠ RTM_NEWQDISC := by decide
  simp only [decodeTc, htype, hindex, hparent, his, hne, and_self, if_true, if_false]

variable {fd : UInt32}

theorem filter_header (h : m.Holds 0 (Filter.message bpf acceptAll index fd)) :
    nlmsgLen m 0 = 80 ∧ nlmsgType m 0 = RTM_NEWTFILTER ∧ m.load32 20 = index.toNat ∧
      m.load32 28 = ingress := by
  rw [Filter.message, Filter.head, List.append_assoc] at h
  have hmsg : m.Holds 0 (tcMessage 80 RTM_NEWTFILTER (NLM_F_REQUEST ||| NLM_F_CREATE) index.toNat 0
      ingress (tcHMake 0 (htons ETH_P_ALL))
      ((Filter.kindAttr bpf).padded ++ (Filter.optionsAttr acceptAll fd).data)) := h
  obtain ⟨hlen, htype, hindex, hparent, -⟩ :=
    tcMessage_header hmsg (by decide) (by decide) index.toNat_lt (by decide)
  exact ⟨hlen, htype, hindex, hparent⟩

/-- The two attributes of the request are found at their places. -/
theorem filter_attrs (h : m.Holds 0 (Filter.message bpf acceptAll index fd)) :
    (rtaWalk m 36 ((nlmsgLen m 0 : Int) - (36 : Nat))).1 = [36, 44] ∧
      rtattrAt m 36 = Filter.kindAttr bpf ∧ rtattrAt m 44 = Filter.optionsAttr acceptAll fd := by
  have hol := Filter.optionsAttr_length acceptAll fd
  have hsmall : Filter.optionsLen acceptAll < 65536 := by decide
  rw [(filter_header h).1]
  refine ⟨congrArg Prod.fst (Filter.rtaWalk_message h (by decide)), ?_, ?_⟩
  · exact rtattrAt_of_holds (Filter.holds_kind h) (by decide)
  · exact rtattrAt_of_holds (Filter.holds_options h) (by omega)

theorem filter_requestRta (h : m.Holds 0 (Filter.message bpf acceptAll index fd)) :
    requestRta m TCA_KIND = some 36 ∧ requestRta m TCA_OPTIONS = some 44 := by
  obtain ⟨hwalk, hkind, hopt⟩ := filter_attrs h
  have hfind : ∀ type, requestRta m type =
      ([36, 44].filter fun rta => (rtattrAt m rta).type = .ofNat type).getLast? := by
    intro type
    change findRta m 36 ((nlmsgLen m 0 : Int) - (36 : Nat)) type = _
    rw [findRta, hwalk]
  have hktype : (Filter.kindAttr bpf).type = .ofNat TCA_KIND := rfl
  have hotype : (Filter.optionsAttr acceptAll fd).type = .ofNat TCA_OPTIONS := rfl
  constructor
  · rw [hfind]
    simp only [List.filter_cons, hkind, hopt, hktype, hotype]
    rfl
  · rw [hfind]
    simp only [List.filter_cons, hkind, hopt, hktype, hotype]
    rfl

theorem filter_fd (h : m.Holds 0 (Filter.message bpf acceptAll index fd)) :
    requestFd m = some fd.toNat := by
  have hol := Filter.optionsAttr_length acceptAll fd
  have hsmall : Filter.optionsLen acceptAll < 65536 := by decide
  have hlen : rtaPayload m 44 = (Filter.optionsAttr acceptAll fd).payload.length :=
    rtaPayload_of_holds (Filter.holds_options h) (by omega)
  have hpay : rtaPayload m 44 = (Filter.optionsLen acceptAll : Int) - 4 := by
    rw [hlen, ← hol]
    omega
  have hdec : decodeRtas m 48 ((Filter.optionsLen acceptAll : Int) - 4) =
      [Filter.fdAttr fd, Filter.nameAttr acceptAll, Filter.flagsAttr] :=
    (Filter.rtaWalk_options h (by decide)).2
  have hfind := findRta_payload m 48 ((Filter.optionsLen acceptAll : Int) - 4) TCA_BPF_FD
  rw [hdec] at hfind
  have hfd : (findRta m 48 ((Filter.optionsLen acceptAll : Int) - 4) TCA_BPF_FD).map
      (fun rta => (rtattrAt m rta).payload) = some (leBytes 4 fd.toNat) := hfind
  have hdata : rtaData 44 = 48 := rfl
  rw [requestFd, (filter_requestRta h).2]
  simp only [Option.bind_eq_bind, Option.bind_some, hdata, hpay, hfd]
  exact congrArg some (leValue_leBytes_of_lt fd.toNat_lt)

theorem decode_filter (h : m.Holds 0 (Filter.message bpf acceptAll index fd)) :
    decodeTc m = some (.attach index.toNat ingress fd.toNat) := by
  obtain ⟨-, htype, hindex, hparent⟩ := filter_header h
  obtain ⟨-, hattr, -⟩ := filter_attrs h
  have hkind : requestKind m = some bpf.bytes := by
    rw [requestKind, (filter_requestRta h).1, Option.map_some, hattr]
    rfl
  have hindex' : m.load32 (nlmsgData 0 + 4) = index.toNat := hindex
  have hparent' : m.load32 (nlmsgData 0 + 12) = ingress := hparent
  have his : IsKind m bpf := isKind_of_bytes hkind
  have hnew : RTM_NEWTFILTER ≠ RTM_NEWQDISC := by decide
  have hdel : RTM_NEWTFILTER ≠ RTM_DELQDISC := by decide
  simp only [decodeTc, htype, hindex', hparent', his, hnew, hdel, filter_fd h, and_self, if_true,
    if_false, Option.map_some]

end decode

section request

variable (hook : TcHook) (ifindex : UInt32) (fds : Nat → Option Prog) {m : Mem} {index : UInt32}

theorem request_qdisc (h : m.Holds 0 (Qdisc.message index)) :
    hook.request ifindex fds m = if index = ifindex then hook.create else hook := by
  have hmsg : m.Holds 0 (Qdisc.request RTM_NEWQDISC (NLM_F_REQUEST ||| NLM_F_CREATE) index
      clsact.bytes) := by
    rw [Qdisc.request, Qdisc.head, List.append_assoc]
    exact h
  rw [TcHook.request, decode_create hmsg (by decide) (nlaString_bytes clsact), TcHook.handle]
  simp only [UInt32.toNat_inj]

theorem request_filter {fd : UInt32} (h : m.Holds 0 (Filter.message bpf acceptAll index fd))
    {prog : Prog} (hfd : fds fd.toNat = some prog) :
    hook.request ifindex fds m = if index = ifindex then hook.attach ⟨ingress, prog⟩ else hook := by
  rw [TcHook.request, decode_filter h, TcHook.handle, hfd]
  simp only [UInt32.toNat_inj]

end request

end SnippetsC.Bpf
