import SnippetsC.Framework.Memory
import SnippetsC.Framework.SharedCell
import Mathlib.Data.BitVec

namespace SnippetsC.Bpf

/-! The counting programs `xdp-count`, `xdp-bytes`, `xdp-udp4count` and `xdp-tcp6count`. -/

def XDP_PASS : Nat := 2
def ETH_P_IP : Nat := 0x0800
def ETH_P_IPV6 : Nat := 0x86dd
def IPPROTO_TCP : Nat := 6
def IPPROTO_UDP : Nat := 17
def sizeofEthhdr : Nat := 14
def sizeofIphdr : Nat := 20
def sizeofIpv6hdr : Nat := 40

/-- The context of a run: the frame lies in `mem` from `data` to `data_end`. -/
structure XdpMd where
  mem : Mem
  data : UInt32
  dataEnd : UInt32
  data_le : data ≤ dataEnd

/-- What a run of a program does: its return value, the frame bytes it reads, and its accesses to
the map element. -/
structure Outcome where
  verdict : Nat
  reads : List Nat
  accesses : List (Access (BitVec 64))

/-- `bpf_map_lookup_elem` on the array of one element. -/
def bpfMapLookupElem (key : Nat) : Option Unit := if key < 1 then some () else none

/-- `value = bpf_map_lookup_elem(...); if (value) *value += n;` -/
def increaseElem (n : BitVec 64) : List (Access (BitVec 64)) :=
  match bpfMapLookupElem 0 with
  | some _ => Access.increase n
  | none => []

namespace XdpCount

def acceptAll (_ctx : XdpMd) : Outcome := ⟨XDP_PASS, [], increaseElem 1⟩

end XdpCount

namespace XdpBytes

def acceptAll (ctx : XdpMd) : Outcome :=
  ⟨XDP_PASS, [], increaseElem (.ofNat 64 (ctx.dataEnd - ctx.data).toNat)⟩

end XdpBytes

/-- The body that `xdp-udp4count` and `xdp-tcp6count` share: an ethertype, the size of the header
behind the Ethernet header, where that header has its protocol byte, and the protocol. -/
def countProto (ethertype sizeofHdr protoAt proto : Nat) (ctx : XdpMd) : Outcome :=
  let dataEnd := ctx.dataEnd.toNat
  let data := ctx.data.toNat
  if data + sizeofEthhdr > dataEnd then ⟨XDP_PASS, [], []⟩
  else if ctx.mem.load16 (data + 12) ≠ htons ethertype then
    ⟨XDP_PASS, [data + 12, data + 13], []⟩
  else if data + sizeofEthhdr + sizeofHdr > dataEnd then ⟨XDP_PASS, [data + 12, data + 13], []⟩
  else if (ctx.mem (data + sizeofEthhdr + protoAt)).toNat ≠ proto then
    ⟨XDP_PASS, [data + 12, data + 13, data + sizeofEthhdr + protoAt], []⟩
  else
    ⟨XDP_PASS, [data + 12, data + 13, data + sizeofEthhdr + protoAt], increaseElem 1⟩

namespace XdpUdp4count

def acceptAll : XdpMd → Outcome := countProto ETH_P_IP sizeofIphdr 9 IPPROTO_UDP

end XdpUdp4count

namespace XdpTcp6count

def acceptAll : XdpMd → Outcome := countProto ETH_P_IPV6 sizeofIpv6hdr 6 IPPROTO_TCP

end XdpTcp6count

/-- Whether a frame passes all checks of `countProto`. -/
def Passes (ethertype sizeofHdr protoAt proto : Nat) (ctx : XdpMd) : Prop :=
  ctx.data.toNat + sizeofEthhdr ≤ ctx.dataEnd.toNat ∧
    ctx.mem.load16 (ctx.data.toNat + 12) = htons ethertype ∧
    ctx.data.toNat + sizeofEthhdr + sizeofHdr ≤ ctx.dataEnd.toNat ∧
    (ctx.mem (ctx.data.toNat + sizeofEthhdr + protoAt)).toNat = proto

instance (ethertype sizeofHdr protoAt proto : Nat) (ctx : XdpMd) :
    Decidable (Passes ethertype sizeofHdr protoAt proto ctx) :=
  inferInstanceAs (Decidable (_ ∧ _ ∧ _ ∧ _))

inductive Program where
  | count
  | bytes
  | udp4count
  | tcp6count
  deriving DecidableEq

def Program.acceptAll : Program → XdpMd → Outcome
  | count => XdpCount.acceptAll
  | bytes => XdpBytes.acceptAll
  | udp4count => XdpUdp4count.acceptAll
  | tcp6count => XdpTcp6count.acceptAll

/-- What a packet is to add to the element. -/
def Program.amount : Program → XdpMd → BitVec 64
  | count, _ => 1
  | bytes, ctx => .ofNat 64 (ctx.dataEnd.toNat - ctx.data.toNat)
  | udp4count, ctx => if Passes ETH_P_IP sizeofIphdr 9 IPPROTO_UDP ctx then 1 else 0
  | tcp6count, ctx => if Passes ETH_P_IPV6 sizeofIpv6hdr 6 IPPROTO_TCP ctx then 1 else 0

theorem due_increaseElem (n : BitVec 64) : Access.due (increaseElem n) = n := Access.due_increase n

theorem due_countProto (ethertype sizeofHdr protoAt proto : Nat) (ctx : XdpMd) :
    Access.due (countProto ethertype sizeofHdr protoAt proto ctx).accesses =
      if Passes ethertype sizeofHdr protoAt proto ctx then 1 else 0 := by
  by_cases hpass : Passes ethertype sizeofHdr protoAt proto ctx
  · rw [if_pos hpass]
    obtain ⟨heth, htype, hhdr, hproto⟩ := hpass
    simp only [countProto]
    rw [if_neg (by omega), if_neg (not_not.mpr htype), if_neg (by omega),
      if_neg (not_not.mpr hproto)]
    exact due_increaseElem 1
  · rw [if_neg hpass]
    simp only [countProto]
    split_ifs with heth htype hhdr hproto
    · rfl
    · rfl
    · rfl
    · rfl
    · exact absurd ⟨by omega, not_not.mp htype, by omega, not_not.mp hproto⟩ hpass

theorem due_accesses (prog : Program) (ctx : XdpMd) :
    Access.due (prog.acceptAll ctx).accesses = prog.amount ctx := by
  cases prog with
  | count => exact due_increaseElem 1
  | bytes =>
    have hsub : (ctx.dataEnd - ctx.data).toNat = ctx.dataEnd.toNat - ctx.data.toNat :=
      UInt32.toNat_sub_of_le _ _ ctx.data_le
    rw [Program.amount, ← hsub]
    exact due_increaseElem _
  | udp4count => exact due_countProto _ _ _ _ ctx
  | tcp6count => exact due_countProto _ _ _ _ ctx

section cpus

variable {ι : Type*}

/-- The element at `init`, and every CPU in front of its packets. -/
def start (prog : Program) (init : BitVec 64) (reg : ι → BitVec 64) (packets : ι → List XdpMd) :
    SharedCell ι (BitVec 64) where
  cell := init
  reg := reg
  todo i := (packets i).flatMap fun ctx => (prog.acceptAll ctx).accesses

theorem total_start [Fintype ι] (prog : Program) (init : BitVec 64) (reg : ι → BitVec 64)
    (packets : ι → List XdpMd) : (start prog init reg packets).total =
      init + ∑ i, ((packets i).map prog.amount).sum := by
  simp only [SharedCell.total, start, Access.due_flatMap, due_accesses]

variable [Fintype ι] [DecidableEq ι]

/-- No count is lost in a run in which no CPU's store overwrites a store that came between its own
load and store. -/
theorem count_of_undisturbed (prog : Program) (init : BitVec 64) (reg : ι → BitVec 64)
    (packets : ι → List XdpMd) (sched : List ι)
    (hu : (start prog init reg packets).Undisturbed sched)
    (hf : ((start prog init reg packets).run sched).Finished) :
    ((start prog init reg packets).run sched).cell =
      init + ∑ i, ((packets i).map prog.amount).sum := by
  rw [← SharedCell.total_of_finished hf, SharedCell.run_total hu, total_start]

end cpus

/-- A frame of 60 zero bytes. -/
def zeroFrame : XdpMd := ⟨fun _ => 0, 256, 316, by decide⟩

theorem count_of_undisturbed_two :
    ((start .count 5 (fun _ => 0) fun _ : Fin 2 => [zeroFrame]).run [0, 0, 1, 1]).cell = 7 :=
  (count_of_undisturbed .count 5 (fun _ => 0) (fun _ : Fin 2 => [zeroFrame]) [0, 0, 1, 1]
    (by decide) (by decide)).trans (by decide)

/-- Two CPUs that load before either stores count two packets as one. -/
theorem count_loses_packet :
    let s := (start .count 0 (fun _ => 0) fun _ : Fin 2 => [zeroFrame]).run [0, 1, 0, 1]
    s.Finished ∧
      s.cell ≠ 0 + ∑ _i : Fin 2, (([zeroFrame] : List XdpMd).map Program.count.amount).sum := by
  decide

end SnippetsC.Bpf
