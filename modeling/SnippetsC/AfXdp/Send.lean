import SnippetsC.AfXdp.Xsk
import SnippetsC.Framework.Transition

set_option linter.style.nameCheck false

namespace SnippetsC.AfXdp.XdpSockTx

/-! `xdp-sock-tx`: `send_packets` in steps that interleave with the kernel's. -/

def BATCH_SIZE : Nat := 1
def PACKET_SIZE : Nat := 60
def XSK_UMEM__DEFAULT_FRAME_SHIFT : Nat := 12
def XDP_USE_NEED_WAKEUP : BitVec 16 := 8

structure XskSocketConfig where
  bindFlags : BitVec 16

/-- The flags `xsk_socket__create` binds the socket with; without a configuration it sets none. -/
def bindFlags : Option XskSocketConfig → BitVec 16
  | none => 0
  | some config => config.bindFlags

/-- Where `send_packets` is; from `wakeup` to `release` it is in `complete_send`, and `sent` tells
the call after the submission from those that wait for room. -/
inductive Pc where
  | idle
  | reserve
  | fill (txIndex : Index) (i : Nat)
  | submit
  | wakeup (sent : Bool)
  | peek (sent : Bool)
  | release (sent : Bool) (numComp : Nat)
  deriving DecidableEq

inductive Event where
  | submit (desc : XdpDesc)
  | release (addr : Nat)
  | sendto
  | returned
  deriving DecidableEq

/-- The program with the kernel. `taken` is the kernel's own index into the tx ring and `hands` the
descriptors it has; `log` only records what happened. -/
structure State where
  tx : XskRingProd XdpDesc
  comp : XskRingCons Nat
  bindFlags : BitVec 16
  needsWakeup : Bool
  pc : Pc
  taken : Index
  hands : List XdpDesc
  log : List Event

/-- The address of the `i`-th packet of a batch, `i << XSK_UMEM__DEFAULT_FRAME_SHIFT`. -/
def frameAddr (i : Nat) : Nat := (BitVec.ofNat 32 i <<< XSK_UMEM__DEFAULT_FRAME_SHIFT).toNat

namespace State

/-- The next `nb` entries after the producer index of the tx ring. -/
def submission (s : State) (nb : Nat) : List Event :=
  (Ring.entries descsShift s.tx.ring s.tx.producer (s.tx.producer + BitVec.ofNat 32 nb)).map .submit

/-- The next `nb` entries after the consumer index of the completion ring. -/
def releases (s : State) (nb : Nat) : List Event :=
  (Ring.entries descsShift s.comp.ring s.comp.consumer
    (s.comp.consumer + BitVec.ofNat 32 nb)).map .release

/-- `complete_send` returns, to the end of `send_packets` or to its next try to reserve. -/
def finish (s : State) (sent : Bool) : State :=
  if sent then { s with log := s.log ++ [.returned], pc := .idle } else { s with pc := .reserve }

/-- The next step of `send_packets`, in which a peek returns `k`. -/
def send (s : State) (k : Nat) : Option State :=
  match s.pc with
  | .idle => some { s with pc := .reserve }
  | .reserve =>
    match s.tx.reserve BATCH_SIZE with
    | none => some { s with pc := .wakeup false }
    | some (txIndex, tx) => some { s with tx := tx, pc := .fill txIndex 0 }
  | .fill txIndex i =>
    if i < BATCH_SIZE then
      some { s with
        tx := s.tx.set txIndex ⟨frameAddr i, PACKET_SIZE⟩
        pc := .fill (txIndex + 1) (i + 1) }
    else some { s with pc := .submit }
  | .submit =>
    some { s with
      tx := s.tx.submit BATCH_SIZE
      log := s.log ++ s.submission BATCH_SIZE
      pc := .wakeup true }
  | .wakeup sent =>
    if s.needsWakeup then some { s with log := s.log ++ [.sendto], pc := .peek sent }
    else some { s with pc := .peek sent }
  | .peek sent =>
    if s.comp.Peeks BATCH_SIZE k then
      if 0 < k then some { s with comp := s.comp.hold k, pc := .release sent k }
      else some (s.finish sent)
    else none
  | .release sent numComp =>
    some (finish
      { s with comp := s.comp.release numComp, log := s.log ++ s.releases numComp } sent)

/-- The kernel takes the next submitted descriptor, at any time; in copy mode it would only do so
during a `sendto`. -/
def take (s : State) : Option State :=
  if s.taken = s.tx.producer then none
  else some { s with hands := s.hands ++ [s.tx.get s.taken], taken := s.taken + 1 }

/-- The kernel moves the consumer index of the tx ring up by `n` towards its own. -/
def publish (s : State) (n : Nat) : Option State :=
  if n ≤ (s.taken - s.tx.consumer).toNat then
    some { s with tx := { s.tx with consumer := s.tx.consumer + BitVec.ofNat 32 n } }
  else none

/-- The kernel has published the address of `desc` on the completion ring. -/
def push (s : State) (desc : XdpDesc) : State :=
  { s with
    comp := { s.comp with
      ring := Function.update s.comp.ring (Ring.slot descsShift s.comp.producer) desc.addr
      producer := s.comp.producer + 1 }
    hands := s.hands.erase desc }

/-- The kernel completes a descriptor it has, in a slot that is not in use. -/
def complete (s : State) (desc : XdpDesc) : Option State :=
  if desc ∈ s.hands ∧
      (s.comp.producer - s.comp.consumer).toNat < XSK_RING_CONS__DEFAULT_NUM_DESCS then
    some (s.push desc)
  else none

/-- The kernel raises the flag only for sockets that are bound with `XDP_USE_NEED_WAKEUP`. -/
def setNeedsWakeup (s : State) (b : Bool) : Option State :=
  if b && s.bindFlags &&& XDP_USE_NEED_WAKEUP == 0 then none else some { s with needsWakeup := b }

end State

inductive Action where
  | send (k : Nat)
  | take
  | publish (n : Nat)
  | complete (desc : XdpDesc)
  | setNeedsWakeup (b : Bool)
  deriving DecidableEq

def step (s : State) : Action → Option State
  | .send k => s.send k
  | .take => s.take
  | .publish n => s.publish n
  | .complete desc => s.complete desc
  | .setNeedsWakeup b => s.setNeedsWakeup b

/-- A socket and its rings between two calls of `send_packets`. -/
def between (config : Option XskSocketConfig) (tx : XskRingProd XdpDesc) (comp : XskRingCons Nat)
    (taken : Index) (hands : List XdpDesc) : State where
  tx := tx
  comp := comp
  bindFlags := bindFlags config
  needsWakeup := false
  pc := .idle
  taken := taken
  hands := hands
  log := []

/-- What `main` calls `send_packets` with: new rings, which are zeroed. -/
def start (config : Option XskSocketConfig) : State :=
  between config ⟨fun _ => ⟨0, 0⟩, 0, 0, 0⟩ ⟨fun _ => 0, 0, 0, 0⟩ 0 []

/-- A batch is one descriptor. -/
theorem submission_eq (s : State) :
    s.submission BATCH_SIZE = [.submit (s.tx.ring (Ring.slot descsShift s.tx.producer))] := by
  have hone : (s.tx.producer + BitVec.ofNat 32 BATCH_SIZE - s.tx.producer).toNat = 1 := by
    rw [BitVec.add_comm, BitVec.add_sub_cancel]
    rfl
  rw [State.submission, Ring.entries, hone, List.range_one, List.map_singleton, List.map_singleton,
    BitVec.add_zero]

/-- What a step does, by the action and the place it is taken from. -/
inductive Step (s : State) : Action → State → Prop where
  | call {k : Nat} (hpc : s.pc = .idle) : Step s (.send k) { s with pc := .reserve }
  | wait {k : Nat} (hpc : s.pc = .reserve) : Step s (.send k) { s with pc := .wakeup false }
  | reserve {k : Nat} (hpc : s.pc = .reserve) (hfree : BATCH_SIZE ≤ s.tx.free) :
    Step s (.send k) { s with
      tx := { s.tx with cachedProd := s.tx.cachedProd + BitVec.ofNat 32 BATCH_SIZE }
      pc := .fill s.tx.cachedProd 0 }
  | fill {k : Nat} {txIndex : Index} {i : Nat} (hpc : s.pc = .fill txIndex i)
      (hi : i < BATCH_SIZE) :
    Step s (.send k) { s with
      tx := s.tx.set txIndex ⟨frameAddr i, PACKET_SIZE⟩
      pc := .fill (txIndex + 1) (i + 1) }
  | filled {k : Nat} {txIndex : Index} {i : Nat} (hpc : s.pc = .fill txIndex i) :
    Step s (.send k) { s with pc := .submit }
  | submit {k : Nat} (hpc : s.pc = .submit) :
    Step s (.send k) { s with
      tx := s.tx.submit BATCH_SIZE
      log := s.log ++ s.submission BATCH_SIZE
      pc := .wakeup true }
  | notify {k : Nat} {sent : Bool} (hpc : s.pc = .wakeup sent) (hwake : s.needsWakeup = true) :
    Step s (.send k) { s with log := s.log ++ [.sendto], pc := .peek sent }
  | quiet {k : Nat} {sent : Bool} (hpc : s.pc = .wakeup sent) :
    Step s (.send k) { s with pc := .peek sent }
  | peek {k : Nat} {sent : Bool} (hpc : s.pc = .peek sent) (hk : s.comp.Peeks BATCH_SIZE k) :
    Step s (.send k) { s with comp := s.comp.hold k, pc := .release sent k }
  | nothing {k : Nat} {sent : Bool} (hpc : s.pc = .peek sent) : Step s (.send k) (s.finish sent)
  | release {k : Nat} {sent : Bool} {numComp : Nat} (hpc : s.pc = .release sent numComp) :
    Step s (.send k) (State.finish
      { s with comp := s.comp.release numComp, log := s.log ++ s.releases numComp } sent)
  | take (hne : s.taken ≠ s.tx.producer) :
    Step s .take { s with hands := s.hands ++ [s.tx.get s.taken], taken := s.taken + 1 }
  | publish {n : Nat} (hn : n ≤ (s.taken - s.tx.consumer).toNat) :
    Step s (.publish n)
      { s with tx := { s.tx with consumer := s.tx.consumer + BitVec.ofNat 32 n } }
  | complete {desc : XdpDesc} (hmem : desc ∈ s.hands)
      (hroom : (s.comp.producer - s.comp.consumer).toNat < XSK_RING_CONS__DEFAULT_NUM_DESCS) :
    Step s (.complete desc) (s.push desc)
  | setNeedsWakeup {b : Bool} (hflag : b = true → s.bindFlags &&& XDP_USE_NEED_WAKEUP ≠ 0) :
    Step s (.setNeedsWakeup b) { s with needsWakeup := b }

theorem send_cases {s s' : State} {k : Nat} (h : s.send k = some s') : Step s (.send k) s' := by
  unfold State.send at h
  cases hpc : s.pc with
  | idle =>
    simp only [hpc] at h
    cases h
    exact .call hpc
  | reserve =>
    simp only [hpc] at h
    cases hres : s.tx.reserve BATCH_SIZE with
    | none =>
      simp only [hres] at h
      cases h
      exact .wait hpc
    | some p =>
      obtain ⟨txIndex, tx⟩ := p
      obtain ⟨hfree, rfl, rfl⟩ := XskRingProd.reserve_eq_some.mp hres
      simp only [hres] at h
      cases h
      exact .reserve hpc hfree
  | fill txIndex i =>
    simp only [hpc] at h
    split_ifs at h with hi
    · cases h
      exact .fill hpc hi
    · cases h
      exact .filled hpc
  | submit =>
    simp only [hpc] at h
    cases h
    exact .submit hpc
  | wakeup sent =>
    simp only [hpc] at h
    split_ifs at h with hwake
    · cases h
      exact .notify hpc hwake
    · cases h
      exact .quiet hpc
  | peek sent =>
    simp only [hpc] at h
    split_ifs at h with hk h0
    · cases h
      exact .peek hpc hk
    · cases h
      exact .nothing hpc
  | release sent numComp =>
    simp only [hpc] at h
    cases h
    exact .release hpc

theorem step_cases {s s' : State} {a : Action} (h : step s a = some s') : Step s a s' := by
  cases a with
  | send k => exact send_cases h
  | take =>
    simp only [step, State.take] at h
    split_ifs at h with hne
    cases h
    exact .take hne
  | publish n =>
    simp only [step, State.publish] at h
    split_ifs at h with hn
    cases h
    exact .publish hn
  | complete desc =>
    simp only [step, State.complete] at h
    split_ifs at h with hcond
    cases h
    exact .complete hcond.1 hcond.2
  | setNeedsWakeup b =>
    simp only [step, State.setNeedsWakeup] at h
    split_ifs at h with hflag
    cases h
    refine .setNeedsWakeup ?_
    intro hb hzero
    rw [hb, hzero] at hflag
    exact hflag rfl

end SnippetsC.AfXdp.XdpSockTx
