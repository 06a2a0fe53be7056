import SnippetsC.AfXdp.Receive
import SnippetsC.AfXdp.RingCounts

namespace SnippetsC.AfXdp

/-! The ring indices of `receive` as counters that never wrap. -/

namespace Pc

/-- Fill entries reserved and not submitted. -/
def reserved : Pc → Nat
  | handle b | print b _ _ _ _ | refill b _ => b.numRx
  | submit numRx => numRx
  | idle | reserve _ _ | release _ => 0

/-- Fill entries of the reservation that have their address. -/
def stored : Pc → Nat
  | handle b | print b _ _ _ _ | refill b _ => b.i
  | submit numRx => numRx
  | idle | reserve _ _ | release _ => 0

/-- Rx entries peeked and not released. -/
def peeked : Pc → Nat
  | handle b | print b _ _ _ _ | refill b _ => b.numRx
  | reserve numRx _ | submit numRx | release numRx => numRx
  | idle => 0

/-- Rx entries whose frames are on the fill ring again and that are not yet released. -/
def handedBack : Pc → Nat
  | release numRx => numRx
  | _ => 0

/-- Rx entries printed and not released. -/
def printed : Pc → Nat
  | handle b | print b _ _ _ _ => b.i
  | refill b _ => b.i + 1
  | submit numRx | release numRx => numRx
  | idle | reserve _ _ => 0

theorem stored_le_printed (pc : Pc) : pc.stored ≤ pc.printed := by
  cases pc with
  | refill b rxDesc => exact Nat.le_succ b.i
  | release numRx => exact Nat.zero_le numRx
  | _ => exact Nat.le_refl _

theorem handedBack_le_printed (pc : Pc) : pc.handedBack ≤ pc.printed := by
  cases pc with
  | release numRx => exact Nat.le_refl numRx
  | _ => exact Nat.zero_le _

theorem handedBack_le_peeked (pc : Pc) : pc.handedBack ≤ pc.peeked := by
  cases pc with
  | release numRx => exact Nat.le_refl numRx
  | _ => exact Nat.zero_le _

end Pc

/-- How many fill entries the kernel has accounted for, taken, and been given; how many rx entries
have been released and published. -/
structure Counters where
  freed : Nat
  taken : Nat
  posted : Nat
  released : Nat
  delivered : Nat

/-- The local variables agree with the counters. -/
def Counters.Locals (g : Counters) : Pc → Prop
  | .reserve _ rxIndex => rxIndex = BitVec.ofNat 32 g.released
  | .handle b =>
    b.rxIndex = BitVec.ofNat 32 (g.released + b.i) ∧
      b.fillIndex = BitVec.ofNat 32 (g.posted + b.i) ∧ b.i ≤ b.numRx
  | .print b rxDesc _ _ _ | .refill b rxDesc =>
    b.rxIndex = BitVec.ofNat 32 (g.released + b.i + 1) ∧
      b.fillIndex = BitVec.ofNat 32 (g.posted + b.i) ∧ b.i < b.numRx ∧
      rxDesc = (g.released + b.i) % 2 ^ descsShift
  | .idle | .submit _ | .release _ => True

/-- The indices are those of the counters, which keep their distances, and the stored fill entries
are the addresses of the peeked rx entries. -/
structure Counted (g : Counters) (fill : XskRingProd Nat) (rx : XskRingCons XdpDesc)
    (taken : Index) (pc : Pc) : Prop where
  freed : fill.consumer = BitVec.ofNat 32 g.freed
  taken : taken = BitVec.ofNat 32 g.taken
  posted : fill.producer = BitVec.ofNat 32 g.posted
  reserved : fill.cachedProd = BitVec.ofNat 32 (g.posted + pc.reserved)
  released : rx.consumer = BitVec.ofNat 32 g.released
  delivered : rx.producer = BitVec.ofNat 32 g.delivered
  peeked : rx.cachedCons = BitVec.ofNat 32 (g.released + pc.peeked)
  freed_le : g.freed ≤ g.taken
  taken_le : g.taken ≤ g.posted
  reserved_le : g.posted + pc.reserved ≤ g.freed + 2 ^ descsShift
  peeked_le : g.released + pc.peeked ≤ g.delivered
  delivered_le : g.delivered ≤ g.released + 2 ^ descsShift
  locals : g.Locals pc
  stored : ∀ j < pc.stored, fill.ring ((g.posted + j) % 2 ^ descsShift) =
    extractAddr (rx.ring ((g.released + j) % 2 ^ descsShift)).addr

namespace Counted

variable {g : Counters} {fill : XskRingProd Nat} {rx : XskRingCons XdpDesc} {taken : Index}
  {pc : Pc}

theorem prod (h : Counted g fill rx taken pc) :
    ProdCounts.Count ⟨g.freed, g.taken, g.posted⟩ fill taken pc.reserved :=
  ⟨h.freed, h.taken, h.posted, h.reserved, h.freed_le, h.taken_le, h.reserved_le⟩

theorem cons (h : Counted g fill rx taken pc) :
    ConsCounts.Count ⟨g.released, g.delivered⟩ rx pc.peeked :=
  ⟨h.released, h.delivered, h.peeked, h.peeked_le, h.delivered_le⟩

theorem free_eq (h : Counted g fill rx taken pc) :
    fill.free = g.freed + 2 ^ descsShift - (g.posted + pc.reserved) := h.prod.free_eq

theorem available_eq (h : Counted g fill rx taken pc) :
    rx.available = g.delivered - (g.released + pc.peeked) := h.cons.available_eq

theorem peek {k : Nat} (h : Counted g fill rx taken .idle) (hk : k ≤ rx.available) :
    Counted g fill (rx.hold k) taken (.reserve k rx.cachedCons) := by
  have hcons : rx.cachedCons = BitVec.ofNat 32 g.released := h.peeked
  have hle := h.peeked_le
  rw [h.available_eq] at hk
  exact { h with
    peeked := by
      rw [XskRingCons.hold, hcons, ← BitVec.ofNat_add]
      rfl
    peeked_le := by
      change g.released + 0 ≤ g.delivered at hle
      change k ≤ g.delivered - (g.released + 0) at hk
      change g.released + k ≤ g.delivered
      omega
    locals := hcons }

theorem reserve {numRx : Nat} {rxIndex : Index}
    (h : Counted g fill rx taken (.reserve numRx rxIndex)) (hfree : numRx ≤ fill.free) :
    Counted g { fill with cachedProd := fill.cachedProd + BitVec.ofNat 32 numRx } rx taken
      (.handle ⟨numRx, rxIndex, fill.cachedProd, 0⟩) := by
  have hprod : fill.cachedProd = BitVec.ofNat 32 g.posted := h.reserved
  have hle := h.reserved_le
  rw [h.free_eq] at hfree
  exact { h with
    reserved := by
      rw [hprod, ← BitVec.ofNat_add]
      rfl
    reserved_le := by
      change g.posted + 0 ≤ _ at hle
      change numRx ≤ _ - (g.posted + 0) at hfree
      change g.posted + numRx ≤ _
      omega
    locals := ⟨h.locals, hprod, Nat.zero_le numRx⟩
    stored := by
      intro j hj
      exact absurd hj (Nat.not_lt_zero j) }

theorem call {b : Batch} (h : Counted g fill rx taken (.handle b)) (hi : b.i < b.numRx)
    (packet length : Nat) :
    Counted g fill rx taken (.print { b with rxIndex := b.rxIndex + 1 }
      (Ring.slot descsShift b.rxIndex) packet length []) := by
  obtain ⟨hrx, hfill, _⟩ := h.locals
  exact { h with
    locals := by
      refine ⟨?_, hfill, hi, ?_⟩
      · change b.rxIndex + 1 = _
        rw [hrx, ofNat_succ]
      · rw [hrx, slot_ofNat] }

theorem exit {b : Batch} (h : Counted g fill rx taken (.handle b)) (hi : b.numRx ≤ b.i) :
    Counted g fill rx taken (.submit b.numRx) := by
  obtain ⟨_, _, hle⟩ := h.locals
  exact { h with
    locals := trivial
    stored := by
      intro j hj
      exact h.stored j (Nat.lt_of_lt_of_le hj hi) }

theorem byte {b : Batch} {rxDesc packet length : Nat} {out : List UInt8}
    (h : Counted g fill rx taken (.print b rxDesc packet length out)) (out' : List UInt8) :
    Counted g fill rx taken (.print b rxDesc packet length out') := { h with }

theorem printed {b : Batch} {rxDesc packet length : Nat} {out : List UInt8}
    (h : Counted g fill rx taken (.print b rxDesc packet length out)) :
    Counted g fill rx taken (.refill b rxDesc) := { h with }

/-- The store goes behind what is stored already and behind what the kernel may take. -/
theorem refill {b : Batch} {rxDesc : Nat} (h : Counted g fill rx taken (.refill b rxDesc)) :
    Counted g (fill.set b.fillIndex (extractAddr (rx.ring rxDesc).addr)) rx taken
      (.handle { b with fillIndex := b.fillIndex + 1, i := b.i + 1 }) := by
  obtain ⟨hrx, hfill, hi, hslot⟩ := h.locals
  have hle : g.posted + b.numRx ≤ g.freed + 2 ^ descsShift := h.reserved_le
  have hfreed := h.freed_le
  have htaken := h.taken_le
  have hset : Ring.slot descsShift b.fillIndex = (g.posted + b.i) % 2 ^ descsShift := by
    rw [hfill, slot_ofNat]
  exact { h with
    locals := by
      refine ⟨?_, ?_, hi⟩
      · change b.rxIndex = BitVec.ofNat 32 (g.released + (b.i + 1))
        rw [hrx, Nat.add_assoc]
      · change b.fillIndex + 1 = BitVec.ofNat 32 (g.posted + (b.i + 1))
        rw [hfill, ofNat_succ, Nat.add_assoc]
    stored := by
      intro j hj
      change j < b.i + 1 at hj
      change Function.update fill.ring _ _ _ = _
      rw [hset, hslot]
      rcases Nat.lt_succ_iff_lt_or_eq.mp hj with hlt | rfl
      · rw [Function.update_of_ne (Ring.slot_ne (by omega) (by omega))]
        exact h.stored j hlt
      · rw [Function.update_self] }

theorem submit {numRx : Nat} (h : Counted g fill rx taken (.submit numRx)) :
    Counted { g with posted := g.posted + numRx } (fill.submit numRx) rx taken
      (.release numRx) := by
  have htaken := h.taken_le
  exact { h with
    posted := by
      rw [XskRingProd.submit, h.posted, ← BitVec.ofNat_add]
    taken_le := Nat.le_add_right_of_le htaken
    locals := trivial
    stored := by
      intro j hj
      exact absurd hj (Nat.not_lt_zero j) }

theorem release {numRx : Nat} (h : Counted g fill rx taken (.release numRx)) :
    Counted { g with released := g.released + numRx } fill (rx.release numRx) taken .idle := by
  have hdel := h.delivered_le
  exact { h with
    released := by
      rw [XskRingCons.release, h.released, ← BitVec.ofNat_add]
    delivered_le := by
      change g.delivered ≤ g.released + numRx + _
      omega
    locals := trivial
    stored := by
      intro j hj
      exact absurd hj (Nat.not_lt_zero j) }

theorem lt_posted (h : Counted g fill rx taken pc) (hne : taken ≠ fill.producer) :
    g.taken < g.posted := h.prod.lt_submitted hne

theorem take (h : Counted g fill rx taken pc) (hne : taken ≠ fill.producer) :
    Counted { g with taken := g.taken + 1 } fill rx (taken + 1) pc := by
  have hprod := h.prod.take hne
  have hlocals := h.locals
  exact { h with
    taken := hprod.taken
    freed_le := hprod.freed_le
    taken_le := hprod.taken_le
    locals := by
      cases pc <;> exact hlocals }

theorem publish {n : Nat} (h : Counted g fill rx taken pc)
    (hn : n ≤ (taken - fill.consumer).toNat) :
    Counted { g with freed := g.freed + n }
      { fill with consumer := fill.consumer + BitVec.ofNat 32 n } rx taken pc := by
  have hprod := h.prod.publish hn
  have hlocals := h.locals
  exact { h with
    freed := hprod.consumer
    freed_le := hprod.freed_le
    reserved_le := hprod.reserved_le
    locals := by
      cases pc <;> exact hlocals }

theorem lt_released (h : Counted g fill rx taken pc)
    (hroom : (rx.producer - rx.consumer).toNat < XSK_RING_CONS__DEFAULT_NUM_DESCS) :
    g.delivered < g.released + 2 ^ descsShift := h.cons.lt_released hroom

theorem printed_le_peeked (h : Counted g fill rx taken pc) : pc.printed ≤ pc.peeked := by
  have hlocals := h.locals
  cases pc with
  | handle b => exact hlocals.2.2
  | print b rxDesc packet length out => exact hlocals.2.2.1.le
  | refill b rxDesc => exact hlocals.2.2.1
  | submit numRx => exact Nat.le_refl numRx
  | release numRx => exact Nat.le_refl numRx
  | idle => exact Nat.le_refl 0
  | reserve numRx rxIndex => exact Nat.zero_le numRx

/-- A delivery overwrites no slot that is still to be released. -/
theorem deliver (h : Counted g fill rx taken pc)
    (hroom : (rx.producer - rx.consumer).toNat < XSK_RING_CONS__DEFAULT_NUM_DESCS)
    (desc : XdpDesc) :
    Counted { g with delivered := g.delivered + 1 } fill
      { rx with
        ring := Function.update rx.ring (Ring.slot descsShift rx.producer) desc
        producer := rx.producer + 1 } taken pc := by
  have hlt := h.lt_released hroom
  have hpeeked := h.peeked_le
  have hstored := Nat.le_trans pc.stored_le_printed h.printed_le_peeked
  have hlocals := h.locals
  exact { h with
    delivered := by rw [h.delivered, ofNat_succ]
    peeked_le := Nat.le_succ_of_le hpeeked
    delivered_le := hlt
    locals := by
      cases pc <;> exact hlocals
    stored := by
      intro j hj
      have hne : (g.released + j) % 2 ^ descsShift ≠ g.delivered % 2 ^ descsShift :=
        Ring.slot_ne (by omega) (by omega)
      rw [h.stored j hj, h.delivered, slot_ofNat]
      change _ = extractAddr (Function.update rx.ring _ desc _).addr
      rw [Function.update_of_ne hne] }

end Counted

/-- The counters belong to the state, and to what has been delivered and printed. -/
structure Tallied (g : Counters) (s : State) : Prop where
  counted : Counted g s.fill s.rx s.taken s.pc
  delivered : s.delivered.length = g.delivered
  printed : s.printed.length = g.released + s.pc.printed

theorem counted_start : Counted ⟨0, 0, 2048, 0, 0⟩ start.fill start.rx start.taken start.pc where
  freed := rfl
  taken := rfl
  posted := rfl
  reserved := rfl
  released := rfl
  delivered := rfl
  peeked := rfl
  freed_le := by decide
  taken_le := by decide
  reserved_le := by decide
  peeked_le := by decide
  delivered_le := by decide
  locals := trivial
  stored := by
    intro j hj
    exact absurd hj (Nat.not_lt_zero j)

theorem tallied_start : Tallied ⟨0, 0, 2048, 0, 0⟩ start := ⟨counted_start, rfl, rfl⟩

theorem Step.tallied {g : Counters} {s s' : State} (hs : Step s s') (h : Tallied g s) :
    ∃ g', Tallied g' s' := by
  obtain ⟨h, hdel, hprt⟩ := h
  cases hs with
  | wakeup => exact ⟨g, h, hdel, hprt⟩
  | peek hpc hk h0 =>
    rw [hpc] at h hprt
    exact ⟨g, h.peek hk.2.1, hdel, hprt⟩
  | reserve hpc hfree =>
    rw [hpc] at h hprt
    exact ⟨g, h.reserve hfree, hdel, hprt⟩
  | call hpc hi hslot hdesc =>
    rw [hpc] at h hprt
    subst hslot
    exact ⟨g, h.call hi _ _, hdel, hprt⟩
  | exit hpc hi =>
    rw [hpc] at h hprt
    obtain ⟨_, _, hle⟩ := h.locals
    exact ⟨g, h.exit hi, hdel, Nat.le_antisymm hle hi ▸ hprt⟩
  | byte hpc hout =>
    rw [hpc] at h hprt
    exact ⟨g, h.byte _, hdel, hprt⟩
  | printed hpc hout =>
    rw [hpc] at h hprt
    refine ⟨g, h.printed, hdel, ?_⟩
    rw [List.length_append, hprt]
    rfl
  | refill hpc =>
    rw [hpc] at h hprt
    exact ⟨g, h.refill, hdel, hprt⟩
  | submit hpc =>
    rw [hpc] at h hprt
    exact ⟨_, h.submit, hdel, hprt⟩
  | release hpc =>
    rw [hpc] at h hprt
    exact ⟨_, h.release, hdel, hprt⟩
  | take hne => exact ⟨_, h.take hne, hdel, hprt⟩
  | publish hn => exact ⟨_, h.publish hn, hdel, hprt⟩
  | write b hmem => exact ⟨g, h, hdel, hprt⟩
  | deliver hmem hroom =>
    refine ⟨_, h.deliver hroom _, ?_, hprt⟩
    rw [State.push, List.length_append, hdel]
    rfl
  | setNeedsWakeup b => exact ⟨g, h, hdel, hprt⟩

end SnippetsC.AfXdp
