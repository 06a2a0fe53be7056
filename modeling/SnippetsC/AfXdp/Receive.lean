import SnippetsC.AfXdp.Xsk
import SnippetsC.Framework.Memory
import SnippetsC.Framework.Transition

namespace SnippetsC.AfXdp

/-! `xdp-sock-rx`: `receive` in steps that interleave with the kernel's. -/

def BATCH_SIZE : Nat := 64

/-- The variables of the loop over a batch: `num_rx`, `rx_index`, `fill_index` and `i`. -/
structure Batch where
  numRx : Nat
  rxIndex : Index
  fillIndex : Index
  i : Nat
  deriving DecidableEq

/-- Where `receive` is. `print` is a call of `print_packet` that has written the bytes `out`; its
descriptor stays a pointer `rxDesc` into the ring. -/
inductive Pc where
  | idle
  | reserve (numRx : Nat) (rxIndex : Index)
  | handle (b : Batch)
  | print (b : Batch) (rxDesc packet length : Nat) (out : List UInt8)
  | refill (b : Batch) (rxDesc : Nat)
  | submit (numRx : Nat)
  | release (numRx : Nat)
  deriving DecidableEq

/-- A descriptor the kernel has published and the memory as it was then. -/
structure Delivery where
  desc : XdpDesc
  mem : Mem

namespace Delivery

def frame (d : Delivery) : Nat := chunk d.desc.addr

/-- The bytes of the packet. -/
def content (d : Delivery) : List UInt8 := d.mem.bytes d.desc.addr d.desc.len

/-- The packet ends inside its frame, as it does in aligned mode. -/
def Fits (d : Delivery) : Prop :=
  d.desc.addr % XSK_UMEM__DEFAULT_FRAME_SIZE + d.desc.len ≤ XSK_UMEM__DEFAULT_FRAME_SIZE

instance (d : Delivery) : Decidable d.Fits := inferInstanceAs (Decidable (_ ≤ _))

end Delivery

/-- The program with the kernel. `taken` is the kernel's own index into the fill ring and `hands`
the frames it has; `printed` and `delivered` only record what happened. -/
structure State where
  mem : Mem
  fill : XskRingProd Nat
  rx : XskRingCons XdpDesc
  needsWakeup : Bool
  wakeups : Nat
  pc : Pc
  taken : Index
  hands : List Nat
  printed : List (List UInt8)
  delivered : List Delivery

namespace State

/-- `if (xsk_ring_prod__needs_wakeup(fill)) recvfrom(...)`. -/
def wakeup (s : State) : State :=
  { s with wakeups := if s.needsWakeup then s.wakeups + 1 else s.wakeups }

/-- The next step of `receive`, in which a peek returns `k`. -/
def receive (s : State) (k : Nat) : Option State :=
  match s.pc with
  | .idle =>
    if s.rx.Peeks BATCH_SIZE k then
      if k = 0 then some s.wakeup
      else some { s with rx := s.rx.hold k, pc := .reserve k s.rx.cachedCons }
    else none
  | .reserve numRx rxIndex =>
    match s.fill.reserve numRx with
    | none => some s.wakeup
    | some (fillIndex, fill) =>
      some { s with fill := fill, pc := .handle ⟨numRx, rxIndex, fillIndex, 0⟩ }
  | .handle b =>
    if b.i < b.numRx then
      let rxDesc := Ring.slot descsShift b.rxIndex
      let desc := s.rx.ring rxDesc
      some { s with pc := .print { b with rxIndex := b.rxIndex + 1 } rxDesc desc.addr desc.len [] }
    else some { s with pc := .submit b.numRx }
  | .print b rxDesc packet length out =>
    if out.length < length then
      some { s with pc := .print b rxDesc packet length (out ++ [s.mem (packet + out.length)]) }
    else some { s with printed := s.printed ++ [out], pc := .refill b rxDesc }
  | .refill b rxDesc =>
    some { s with
      fill := s.fill.set b.fillIndex (extractAddr (s.rx.ring rxDesc).addr)
      pc := .handle { b with fillIndex := b.fillIndex + 1, i := b.i + 1 } }
  | .submit numRx => some { s with fill := s.fill.submit numRx, pc := .release numRx }
  | .release numRx => some { s with rx := s.rx.release numRx, pc := .idle }

/-- The kernel has taken the frame of its next fill entry. -/
def pop (s : State) : State :=
  { s with hands := s.hands ++ [chunk (s.fill.get s.taken)], taken := s.taken + 1 }

/-- The kernel takes the next published fill entry. -/
def take (s : State) : Option State :=
  if s.taken = s.fill.producer then none else some s.pop

/-- The kernel moves the consumer index of the fill ring up by `n` towards its own. -/
def publish (s : State) (n : Nat) : Option State :=
  if n ≤ (s.taken - s.fill.consumer).toNat then
    some { s with fill := { s.fill with consumer := s.fill.consumer + BitVec.ofNat 32 n } }
  else none

/-- The kernel writes a byte into a frame it has. -/
def write (s : State) (addr : Nat) (b : UInt8) : Option State :=
  if chunk addr ∈ s.hands then some { s with mem := Function.update s.mem addr b } else none

/-- The kernel has published `desc` on the rx ring. -/
def push (s : State) (desc : XdpDesc) : State :=
  { s with
    rx := { s.rx with
      ring := Function.update s.rx.ring (Ring.slot descsShift s.rx.producer) desc
      producer := s.rx.producer + 1 }
    hands := s.hands.erase (chunk desc.addr)
    delivered := s.delivered ++ [⟨desc, s.mem⟩] }

/-- The kernel publishes a descriptor of a frame it has, in a slot that is not in use. -/
def deliver (s : State) (desc : XdpDesc) : Option State :=
  if chunk desc.addr ∈ s.hands ∧
      (s.rx.producer - s.rx.consumer).toNat < XSK_RING_CONS__DEFAULT_NUM_DESCS then
    some (s.push desc)
  else none

end State

inductive Action where
  | receive (k : Nat)
  | take
  | publish (n : Nat)
  | write (addr : Nat) (b : UInt8)
  | deliver (desc : XdpDesc)
  | setNeedsWakeup (b : Bool)
  deriving DecidableEq

def step (s : State) : Action → Option State
  | .receive k => s.receive k
  | .take => s.take
  | .publish n => s.publish n
  | .write addr b => s.write addr b
  | .deliver desc => s.deliver desc
  | .setNeedsWakeup b => some { s with needsWakeup := b }

/-- The loop of `main` over the fill entries `i`, `i + 1`, up to `n` of them. -/
def postFrames (fill : XskRingProd Nat) (idx : Index) (i : Nat) : Nat → XskRingProd Nat
  | 0 => fill
  | n + 1 => postFrames (fill.set idx (i * XSK_UMEM__DEFAULT_FRAME_SIZE)) (idx + 1) (i + 1) n

/-- `main` up to its receive loop, from new rings. -/
def main : Option State :=
  match XskRingProd.reserve ⟨fun _ => 0, 0, 0, 0⟩ XSK_RING_PROD__DEFAULT_NUM_DESCS with
  | none => none
  | some (idx, fill) => some {
      mem := fun _ => 0
      fill := (postFrames fill idx 0 XSK_RING_PROD__DEFAULT_NUM_DESCS).submit
        XSK_RING_PROD__DEFAULT_NUM_DESCS
      rx := ⟨fun _ => ⟨0, 0⟩, 0, 0, 0⟩
      needsWakeup := false
      wakeups := 0
      pc := .idle
      taken := 0
      hands := []
      printed := []
      delivered := [] }

/-- What `main` sets up: frame `i` is posted in slot `i`. -/
def start : State where
  mem _ := 0
  fill :=
    { ring := fun i =>
        if i < XSK_RING_PROD__DEFAULT_NUM_DESCS then i * XSK_UMEM__DEFAULT_FRAME_SIZE else 0
      producer := 2048
      consumer := 0
      cachedProd := 2048 }
  rx := ⟨fun _ => ⟨0, 0⟩, 0, 0, 0⟩
  needsWakeup := false
  wakeups := 0
  pc := .idle
  taken := 0
  hands := []
  printed := []
  delivered := []

theorem start_fill_ring (i : Nat) : start.fill.ring i =
    if i < XSK_RING_PROD__DEFAULT_NUM_DESCS then i * XSK_UMEM__DEFAULT_FRAME_SIZE else 0 := rfl

theorem postFrames_eq (fill : XskRingProd Nat) (i n : Nat)
    (h : i + n ≤ XSK_RING_PROD__DEFAULT_NUM_DESCS) :
    postFrames fill (BitVec.ofNat 32 i) i n =
      { fill with ring := fun j =>
          if i ≤ j ∧ j < i + n then j * XSK_UMEM__DEFAULT_FRAME_SIZE else fill.ring j } := by
  induction n generalizing fill i with
  | zero =>
    have hnone : ∀ j, ¬(i ≤ j ∧ j < i + 0) := by omega
    simp only [postFrames, hnone, if_false]
  | succ n ih =>
    have hslot : Ring.slot descsShift (BitVec.ofNat 32 i) = i := by
      rw [slot_ofNat, two_pow_descsShift, Nat.mod_eq_of_lt (by omega)]
    rw [postFrames, ofNat_succ, ih _ _ (by omega), XskRingProd.set, hslot]
    congr 1
    funext j
    by_cases hj : j = i
    · subst hj
      rw [if_neg (by omega), if_pos (by omega)]
      exact Function.update_self ..
    · have hold := Function.update_of_ne hj (i * XSK_UMEM__DEFAULT_FRAME_SIZE) fill.ring
      have hiff : (i + 1 ≤ j ∧ j < i + 1 + n) ↔ (i ≤ j ∧ j < i + (n + 1)) := by omega
      simp only [hiff, hold]

theorem main_eq : main = some start := by
  have hres : XskRingProd.reserve (⟨fun _ => 0, 0, 0, 0⟩ : XskRingProd Nat)
      XSK_RING_PROD__DEFAULT_NUM_DESCS = some (BitVec.ofNat 32 0, ⟨fun _ => 0, 0, 0, 2048⟩) := by
    rw [XskRingProd.reserve_eq_some]
    exact ⟨by decide, rfl, rfl⟩
  simp only [main, hres, postFrames_eq _ _ _ (Nat.le_of_eq (Nat.zero_add _)), Nat.zero_le, true_and,
    Nat.zero_add]
  rfl

/-- The states that any interleaving of `receive` calls and kernel steps reaches. -/
def Reached : State → Prop :=
  Reachable (fun s => main = some s) fun s s' => ∃ a, step s a = some s'

def run (s : State) : List Action → Option State
  | [] => some s
  | a :: as =>
    match step s a with
    | none => none
    | some s' => run s' as

theorem reached_run {s s' : State} (h : Reached s) (as : List Action) (hrun : run s as = some s') :
    Reached s' := by
  induction as generalizing s with
  | nil =>
    cases hrun
    exact h
  | cons a as ih =>
    rw [run] at hrun
    cases hs : step s a with
    | none =>
      rw [hs] at hrun
      cases hrun
    | some s₁ =>
      rw [hs] at hrun
      exact ih (h.next ⟨a, hs⟩) hrun

/-- What a step does, by the place it is taken from. -/
inductive Step (s : State) : State → Prop where
  | wakeup : Step s s.wakeup
  | peek {k : Nat} (hpc : s.pc = .idle) (hk : s.rx.Peeks BATCH_SIZE k) (h0 : k ≠ 0) :
    Step s { s with rx := s.rx.hold k, pc := .reserve k s.rx.cachedCons }
  | reserve {numRx : Nat} {rxIndex : Index} (hpc : s.pc = .reserve numRx rxIndex)
      (hfree : numRx ≤ s.fill.free) :
    Step s { s with
      fill := { s.fill with cachedProd := s.fill.cachedProd + BitVec.ofNat 32 numRx }
      pc := .handle ⟨numRx, rxIndex, s.fill.cachedProd, 0⟩ }
  | call {b : Batch} {rxDesc : Nat} {desc : XdpDesc} (hpc : s.pc = .handle b)
      (hi : b.i < b.numRx) (hslot : rxDesc = Ring.slot descsShift b.rxIndex)
      (hdesc : desc = s.rx.ring rxDesc) :
    Step s { s with
      pc := .print { b with rxIndex := b.rxIndex + 1 } rxDesc desc.addr desc.len [] }
  | exit {b : Batch} (hpc : s.pc = .handle b) (hi : b.numRx ≤ b.i) :
    Step s { s with pc := .submit b.numRx }
  | byte {b : Batch} {rxDesc packet length : Nat} {out : List UInt8}
      (hpc : s.pc = .print b rxDesc packet length out) (hout : out.length < length) :
    Step s { s with
      pc := .print b rxDesc packet length (out ++ [s.mem (packet + out.length)]) }
  | printed {b : Batch} {rxDesc packet length : Nat} {out : List UInt8}
      (hpc : s.pc = .print b rxDesc packet length out) (hout : length ≤ out.length) :
    Step s { s with printed := s.printed ++ [out], pc := .refill b rxDesc }
  | refill {b : Batch} {rxDesc : Nat} (hpc : s.pc = .refill b rxDesc) :
    Step s { s with
      fill := s.fill.set b.fillIndex (extractAddr (s.rx.ring rxDesc).addr)
      pc := .handle { b with fillIndex := b.fillIndex + 1, i := b.i + 1 } }
  | submit {numRx : Nat} (hpc : s.pc = .submit numRx) :
    Step s { s with fill := s.fill.submit numRx, pc := .release numRx }
  | release {numRx : Nat} (hpc : s.pc = .release numRx) :
    Step s { s with rx := s.rx.release numRx, pc := .idle }
  | take (hne : s.taken ≠ s.fill.producer) : Step s s.pop
  | publish {n : Nat} (hn : n ≤ (s.taken - s.fill.consumer).toNat) :
    Step s { s with fill := { s.fill with consumer := s.fill.consumer + BitVec.ofNat 32 n } }
  | write {addr : Nat} (b : UInt8) (hmem : chunk addr ∈ s.hands) :
    Step s { s with mem := Function.update s.mem addr b }
  | deliver {desc : XdpDesc} (hmem : chunk desc.addr ∈ s.hands)
      (hroom : (s.rx.producer - s.rx.consumer).toNat < XSK_RING_CONS__DEFAULT_NUM_DESCS) :
    Step s (s.push desc)
  | setNeedsWakeup (b : Bool) : Step s { s with needsWakeup := b }

theorem receive_cases {s s' : State} {k : Nat} (h : s.receive k = some s') : Step s s' := by
  unfold State.receive at h
  cases hpc : s.pc with
  | idle =>
    simp only [hpc] at h
    split_ifs at h with hk h0
    · cases h
      exact .wakeup
    · cases h
      exact .peek hpc hk h0
  | reserve numRx rxIndex =>
    simp only [hpc] at h
    cases hres : s.fill.reserve numRx with
    | none =>
      simp only [hres] at h
      cases h
      exact .wakeup
    | some p =>
      obtain ⟨fillIndex, fill⟩ := p
      obtain ⟨hfree, rfl, rfl⟩ := XskRingProd.reserve_eq_some.mp hres
      simp only [hres] at h
      cases h
      exact .reserve hpc hfree
  | handle b =>
    simp only [hpc] at h
    split_ifs at h with hi
    · cases h
      exact .call hpc hi rfl rfl
    · cases h
      exact .exit hpc (Nat.le_of_not_lt hi)
  | print b rxDesc packet length out =>
    simp only [hpc] at h
    split_ifs at h with hout
    · cases h
      exact .byte hpc hout
    · cases h
      exact .printed hpc (Nat.le_of_not_lt hout)
  | refill b rxDesc =>
    simp only [hpc] at h
    cases h
    exact .refill hpc
  | submit numRx =>
    simp only [hpc] at h
    cases h
    exact .submit hpc
  | release numRx =>
    simp only [hpc] at h
    cases h
    exact .release hpc

theorem step_cases {s s' : State} {a : Action} (h : step s a = some s') : Step s s' := by
  cases a with
  | receive k => exact receive_cases h
  | take =>
    simp only [step, State.take] at h
    split_ifs at h with hne
    cases h
    exact .take hne
  | publish n =>
    simp only [step, State.publish] at h
    split_ifs at h with hn
    cases h
    exact .publish hn
  | write addr b =>
    simp only [step, State.write] at h
    split_ifs at h with hmem
    cases h
    exact .write b hmem
  | deliver desc =>
    simp only [step, State.deliver] at h
    split_ifs at h with hcond
    cases h
    exact .deliver hcond.1 hcond.2
  | setNeedsWakeup b =>
    cases h
    exact .setNeedsWakeup b

end SnippetsC.AfXdp
