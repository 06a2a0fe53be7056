import SnippetsC.Framework.Ring
import Mathlib.Logic.Function.Basic

set_option linter.style.nameCheck false

namespace SnippetsC.AfXdp

/-! The ring helpers of `bpf/xsk.h`, by the contract their callers rely on. -/

def XSK_RING_PROD__DEFAULT_NUM_DESCS : Nat := 2048
def XSK_RING_CONS__DEFAULT_NUM_DESCS : Nat := 2048
def XSK_UMEM__DEFAULT_FRAME_SIZE : Nat := 4096

/-- Both ring sizes are `2 ^ descsShift`. -/
abbrev descsShift : Nat := 11

theorem two_pow_descsShift : 2 ^ descsShift = XSK_RING_PROD__DEFAULT_NUM_DESCS := rfl

theorem slot_ofNat (n : Nat) : Ring.slot descsShift (BitVec.ofNat 32 n) = n % 2 ^ descsShift :=
  Ring.slot_ofNat (by decide) n

theorem ofNat_succ (n : Nat) : BitVec.ofNat 32 n + 1 = BitVec.ofNat 32 (n + 1) := by
  rw [BitVec.ofNat_add]
  rfl

/-- An address of the umem and a length. -/
structure XdpDesc where
  addr : Nat
  len : Nat
  deriving DecidableEq

/-- `addr & XSK_UNALIGNED_BUF_ADDR_MASK`. -/
def extractAddr (addr : Nat) : Nat := addr % 2 ^ 48

/-- The number of the frame an address lies in; the kernel rounds fill addresses down to it. -/
def chunk (addr : Nat) : Nat := addr / XSK_UMEM__DEFAULT_FRAME_SIZE

theorem chunk_extractAddr {addr : Nat} (h : chunk addr < XSK_RING_PROD__DEFAULT_NUM_DESCS) :
    chunk (extractAddr addr) = chunk addr := by
  unfold chunk XSK_UMEM__DEFAULT_FRAME_SIZE XSK_RING_PROD__DEFAULT_NUM_DESCS at h
  rw [extractAddr, Nat.mod_eq_of_lt (by omega)]

/-- A ring the program produces for. `producer` and `consumer` are shared with the kernel. -/
structure XskRingProd (α : Type*) where
  ring : Nat → α
  producer : Index
  consumer : Index
  cachedProd : Index

namespace XskRingProd

variable {α : Type*}

/-- How many slots are neither reserved nor waiting for the kernel. -/
def free (r : XskRingProd α) : Nat :=
  (r.consumer + BitVec.ofNat 32 XSK_RING_PROD__DEFAULT_NUM_DESCS - r.cachedProd).toNat

/-- All of the `nb` slots or none. -/
def reserve (r : XskRingProd α) (nb : Nat) : Option (Index × XskRingProd α) :=
  if nb ≤ r.free then
    some (r.cachedProd, { r with cachedProd := r.cachedProd + BitVec.ofNat 32 nb })
  else none

def get (r : XskRingProd α) (idx : Index) : α := r.ring (Ring.slot descsShift idx)

def set (r : XskRingProd α) (idx : Index) (v : α) : XskRingProd α :=
  { r with ring := Function.update r.ring (Ring.slot descsShift idx) v }

def submit (r : XskRingProd α) (nb : Nat) : XskRingProd α :=
  { r with producer := r.producer + BitVec.ofNat 32 nb }

theorem reserve_eq_some {r r' : XskRingProd α} {nb : Nat} {idx : Index} :
    r.reserve nb = some (idx, r') ↔
      nb ≤ r.free ∧ idx = r.cachedProd ∧
        r' = { r with cachedProd := r.cachedProd + BitVec.ofNat 32 nb } := by
  unfold reserve
  split_ifs with h
  · simp [h, eq_comm]
  · simp [h]

end XskRingProd

/-- A ring the program consumes from. -/
structure XskRingCons (α : Type*) where
  ring : Nat → α
  producer : Index
  consumer : Index
  cachedCons : Index

namespace XskRingCons

variable {α : Type*}

def available (r : XskRingCons α) : Nat := (r.producer - r.cachedCons).toNat

/-- What a peek for `nb` entries may return: at most that many and at most what there is, and
nothing only when there is nothing. A cached producer index makes it less than the minimum. -/
def Peeks (r : XskRingCons α) (nb k : Nat) : Prop :=
  k ≤ nb ∧ k ≤ r.available ∧ (k = 0 → r.available = 0)

instance (r : XskRingCons α) (nb k : Nat) : Decidable (r.Peeks nb k) :=
  inferInstanceAs (Decidable (_ ∧ _ ∧ _))

theorem peeks_min (r : XskRingCons α) {nb : Nat} (h : 0 < nb) : r.Peeks nb (min nb r.available) :=
  ⟨by omega, by omega, by omega⟩

/-- The entries a peek returned are held from now on. -/
def hold (r : XskRingCons α) (k : Nat) : XskRingCons α :=
  { r with cachedCons := r.cachedCons + BitVec.ofNat 32 k }

def release (r : XskRingCons α) (nb : Nat) : XskRingCons α :=
  { r with consumer := r.consumer + BitVec.ofNat 32 nb }

end XskRingCons

end SnippetsC.AfXdp
