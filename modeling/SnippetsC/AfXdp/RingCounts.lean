import SnippetsC.AfXdp.Xsk

namespace SnippetsC.AfXdp

/-! The indices of one ring as counters that never wrap. -/

/-- How many entries of a producer ring the consumer index accounts for, the kernel has taken, and
the program has submitted. -/
structure ProdCounts where
  freed : Nat
  taken : Nat
  submitted : Nat

/-- How many entries of a consumer ring the program has released and the kernel has published. -/
structure ConsCounts where
  released : Nat
  published : Nat

variable {α : Type*}

/-- The indices are those of the counters, which keep their distances while `reserved` entries are
reserved and not submitted. -/
structure ProdCounts.Count (g : ProdCounts) (r : XskRingProd α) (taken : Index) (reserved : Nat) :
    Prop where
  consumer : r.consumer = BitVec.ofNat 32 g.freed
  taken : taken = BitVec.ofNat 32 g.taken
  producer : r.producer = BitVec.ofNat 32 g.submitted
  cachedProd : r.cachedProd = BitVec.ofNat 32 (g.submitted + reserved)
  freed_le : g.freed ≤ g.taken
  taken_le : g.taken ≤ g.submitted
  reserved_le : g.submitted + reserved ≤ g.freed + 2 ^ descsShift

/-- The indices are those of the counters, which keep their distances while `peeked` entries are
peeked and not released. -/
structure ConsCounts.Count (g : ConsCounts) (r : XskRingCons α) (peeked : Nat) : Prop where
  consumer : r.consumer = BitVec.ofNat 32 g.released
  producer : r.producer = BitVec.ofNat 32 g.published
  cachedCons : r.cachedCons = BitVec.ofNat 32 (g.released + peeked)
  peeked_le : g.released + peeked ≤ g.published
  published_le : g.published ≤ g.released + 2 ^ descsShift

namespace ProdCounts.Count

variable {g : ProdCounts} {r : XskRingProd α} {taken : Index} {reserved nb : Nat}

theorem free_eq (h : g.Count r taken reserved) :
    r.free = g.freed + 2 ^ descsShift - (g.submitted + reserved) := by
  have hfreed := h.freed_le
  have htaken := h.taken_le
  rw [XskRingProd.free, h.consumer, h.cachedProd, ← two_pow_descsShift, ← BitVec.ofNat_add,
    Ring.toNat_sub_ofNat h.reserved_le]
  unfold descsShift
  omega

/-- What the kernel has taken beyond the consumer index. -/
theorem dist_eq (h : g.Count r taken reserved) :
    (taken - r.consumer).toNat = g.taken - g.freed := by
  have hle := h.reserved_le
  have htaken := h.taken_le
  rw [h.taken, h.consumer, Ring.toNat_sub_ofNat h.freed_le]
  unfold descsShift at hle
  omega

theorem reserve (h : g.Count r taken 0) (hfree : nb ≤ r.free) :
    g.Count { r with cachedProd := r.cachedProd + BitVec.ofNat 32 nb } taken nb := by
  have hle := h.reserved_le
  rw [h.free_eq] at hfree
  exact { h with
    cachedProd := by
      rw [h.cachedProd, ← BitVec.ofNat_add]
      rfl
    reserved_le := by omega }

theorem set (h : g.Count r taken reserved) (idx : Index) (v : α) :
    g.Count (r.set idx v) taken reserved := { h with }

theorem submit (h : g.Count r taken nb) :
    ProdCounts.Count { g with submitted := g.submitted + nb } (r.submit nb) taken 0 := by
  exact { h with
    producer := by rw [XskRingProd.submit, h.producer, ← BitVec.ofNat_add]
    taken_le := Nat.le_add_right_of_le h.taken_le }

/-- The kernel has caught up exactly when the indices are equal. -/
theorem taken_eq_producer_iff (h : g.Count r taken reserved) :
    taken = r.producer ↔ g.taken = g.submitted := by
  have hle := h.reserved_le
  have hfreed := h.freed_le
  unfold descsShift at hle
  rw [h.taken, h.producer, Ring.ofNat_eq_ofNat_iff h.taken_le (by omega)]

theorem lt_submitted (h : g.Count r taken reserved) (hne : taken ≠ r.producer) :
    g.taken < g.submitted :=
  Nat.lt_of_le_of_ne h.taken_le (mt h.taken_eq_producer_iff.mpr hne)

theorem take (h : g.Count r taken reserved) (hne : taken ≠ r.producer) :
    ProdCounts.Count { g with taken := g.taken + 1 } r (taken + 1) reserved := by
  have hlt := h.lt_submitted hne
  exact { h with
    taken := by rw [h.taken, ofNat_succ]
    freed_le := Nat.le_succ_of_le h.freed_le
    taken_le := hlt }

theorem publish (h : g.Count r taken reserved) (hn : nb ≤ (taken - r.consumer).toNat) :
    ProdCounts.Count { g with freed := g.freed + nb }
      { r with consumer := r.consumer + BitVec.ofNat 32 nb } taken reserved := by
  have hle := h.reserved_le
  have hfreed := h.freed_le
  rw [h.dist_eq] at hn
  exact { h with
    consumer := by rw [h.consumer, ← BitVec.ofNat_add]
    freed_le := by
      change g.freed + nb ≤ g.taken
      omega
    reserved_le := by
      change g.submitted + reserved ≤ g.freed + nb + _
      omega }

end ProdCounts.Count

namespace ConsCounts.Count

variable {g : ConsCounts} {r : XskRingCons α} {peeked nb : Nat}

theorem available_eq (h : g.Count r peeked) :
    r.available = g.published - (g.released + peeked) := by
  have hle := h.published_le
  rw [XskRingCons.available, h.producer, h.cachedCons, Ring.toNat_sub_ofNat h.peeked_le]
  unfold descsShift at hle
  omega

theorem hold (h : g.Count r 0) (hk : nb ≤ r.available) : g.Count (r.hold nb) nb := by
  have hpeeked := h.peeked_le
  rw [h.available_eq] at hk
  exact { h with
    cachedCons := by
      rw [XskRingCons.hold, h.cachedCons, ← BitVec.ofNat_add]
      rfl
    peeked_le := by omega }

theorem release (h : g.Count r nb) :
    ConsCounts.Count { g with released := g.released + nb } (r.release nb) 0 := by
  have hle := h.published_le
  exact { h with
    consumer := by rw [XskRingCons.release, h.consumer, ← BitVec.ofNat_add]
    published_le := by
      change g.published ≤ g.released + nb + _
      omega }

theorem peeked_le_ring (h : g.Count r peeked) : peeked ≤ 2 ^ descsShift := by
  have hpeeked := h.peeked_le
  have hle := h.published_le
  omega

theorem dist_eq (h : g.Count r peeked) :
    (r.producer - r.consumer).toNat = g.published - g.released := by
  have hpeeked := h.peeked_le
  have hle := h.published_le
  rw [h.producer, h.consumer, Ring.toNat_sub_ofNat (by omega)]
  unfold descsShift at hle
  omega

/-- Nothing is left to release exactly when the indices are equal. -/
theorem consumer_eq_producer_iff (h : g.Count r peeked) :
    r.consumer = r.producer ↔ g.released = g.published := by
  have hpeeked := h.peeked_le
  have hle := h.published_le
  unfold descsShift at hle
  rw [h.consumer, h.producer, Ring.ofNat_eq_ofNat_iff (by omega) (by omega)]

theorem lt_released (h : g.Count r peeked)
    (hroom : (r.producer - r.consumer).toNat < XSK_RING_CONS__DEFAULT_NUM_DESCS) :
    g.published < g.released + 2 ^ descsShift := by
  rw [h.dist_eq] at hroom
  unfold XSK_RING_CONS__DEFAULT_NUM_DESCS at hroom
  unfold descsShift
  omega

theorem push (h : g.Count r peeked)
    (hroom : (r.producer - r.consumer).toNat < XSK_RING_CONS__DEFAULT_NUM_DESCS) (v : α) :
    ConsCounts.Count { g with published := g.published + 1 }
      { r with
        ring := Function.update r.ring (Ring.slot descsShift r.producer) v
        producer := r.producer + 1 } peeked := by
  have hlt := h.lt_released hroom
  exact { h with
    producer := by rw [h.producer, ofNat_succ]
    peeked_le := Nat.le_succ_of_le h.peeked_le
    published_le := hlt }

end ConsCounts.Count

end SnippetsC.AfXdp
