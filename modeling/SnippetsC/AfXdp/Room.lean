import SnippetsC.AfXdp.Frames

namespace SnippetsC.AfXdp

/-! Why the fill ring has room for the frames of a batch. -/

namespace State

/-- Counted back from the kernel's own index, the published consumer index of the fill ring is no
further away than the number of deliveries: it accounts for every delivered frame. -/
def Accounts (s : State) : Prop :=
  (s.taken - s.fill.consumer).toNat ≤ (s.taken - BitVec.ofNat 32 s.delivered.length).toNat

instance (s : State) : Decidable s.Accounts := inferInstanceAs (Decidable (_ ≤ _))

/-- Fill entries that are reserved and not submitted. -/
def reservedCount (s : State) : Nat := (s.fill.cachedProd - s.fill.producer).toNat

/-- What the kernel has taken, it has in its hands or has delivered. -/
def TakenAccounted (s : State) : Prop :=
  s.taken = BitVec.ofNat 32 (s.hands.length + s.delivered.length)

end State

theorem Step.takenAccounted {s s' : State} (hs : Step s s') (h : s.TakenAccounted) :
    s'.TakenAccounted := by
  cases hs with
  | take hne =>
    change s.taken + 1 = BitVec.ofNat 32 ((s.hands ++ [_]).length + s.delivered.length)
    rw [h, ofNat_succ, List.length_append, Nat.add_right_comm]
    rfl
  | deliver hmem hroom =>
    rename_i desc
    have hpos := List.length_pos_of_mem hmem
    have hcount : (s.hands.erase (chunk desc.addr)).length + (s.delivered.length + 1) =
        s.hands.length + s.delivered.length := by
      rw [List.length_erase_of_mem hmem]
      omega
    change s.taken = BitVec.ofNat 32 ((s.hands.erase (chunk desc.addr)).length +
      (s.delivered ++ [_]).length)
    rw [List.length_append, List.length_singleton, hcount]
    exact h
  | _ => exact h

theorem takenAccounted_of_reached {s : State} (h : Reached s) : s.TakenAccounted := by
  refine Reachable.invariant ?_ ?_ h
  · intro s hs
    rw [main_eq, Option.some.injEq] at hs
    subst hs
    rfl
  · intro s s' _ hinv hstep
    obtain ⟨a, hs⟩ := hstep
    exact (step_cases hs).takenAccounted hinv

/-- The frames of the umem, counted place by place. -/
theorem Owned.count {g : Counters} {s : State} (h : Owned s) (hg : CountedState g s) :
    (g.posted - g.taken) + s.hands.length + (g.delivered - (g.released + s.pc.handedBack)) =
      XSK_RING_PROD__DEFAULT_NUM_DESCS := by
  have hlen := h.perm.length_eq
  simp only [Circulation.all, State.places, List.length_append, List.length_range, hg.onFill_eq,
    hg.onRx_eq, List.length_map, Ring.window] at hlen
  exact hlen

/-- The entries that the published index leaves out are at most the frames in the kernel's
hands. -/
theorem State.Accounts.le_hands {s : State} (hacc : s.Accounts) (h : s.TakenAccounted)
    (hlt : s.hands.length < 2 ^ 32) : (s.taken - s.fill.consumer).toNat ≤ s.hands.length := by
  have hdist : (s.taken - BitVec.ofNat 32 s.delivered.length).toNat = s.hands.length := by
    rw [h, Ring.toNat_sub_ofNat (by omega) (by omega), Nat.add_sub_cancel]
  unfold State.Accounts at hacc
  omega

/-- The room in the ring is at least the number of frames on the rx ring. -/
theorem Owned.le_free {g : Counters} {s : State} (h : Owned s) (hg : CountedState g s)
    (hpc : s.pc.reserved = 0) (hback : s.pc.handedBack = 0)
    (hhands : (s.taken - s.fill.consumer).toNat ≤ s.hands.length) :
    g.delivered - g.released ≤ s.fill.free := by
  have hcount := h.count hg
  have hfreed := hg.freed_le
  have htaken := hg.taken_le
  have hle := hg.reserved_le
  have hfree := hg.free_eq
  have hdist : (s.taken - s.fill.consumer).toNat = g.taken - g.freed := hg.prod.dist_eq
  rw [hpc] at hle hfree
  rw [hback] at hcount
  rw [two_pow_descsShift] at hle hfree
  omega

/-- No reservation is left over when none is in use. -/
theorem Counted.reservedCount_eq {g : Counters} {s : State} (hg : CountedState g s) :
    s.reservedCount = s.pc.reserved := by
  have hle := hg.reserved_le
  have hfreed := hg.freed_le
  have htaken := hg.taken_le
  unfold descsShift at hle
  rw [State.reservedCount, hg.reserved, hg.posted, Ring.toNat_sub_ofNat (Nat.le_add_right _ _)]
  · exact Nat.add_sub_cancel_left _ _
  · omega

/-- While the kernel's index accounts for what it has delivered, the reservation for a batch
succeeds at once; a reservation that fails leaves the ring as it is and nothing reserved. -/
theorem fill_has_room {s : State} (h : Reached s) {numRx : Nat} {rxIndex : Index}
    (hpc : s.pc = .reserve numRx rxIndex) :
    (s.Accounts → ∃ fillIndex fill, s.fill.reserve numRx = some (fillIndex, fill) ∧
      ∀ k, s.receive k =
        some { s with fill := fill, pc := .handle ⟨numRx, rxIndex, fillIndex, 0⟩ }) ∧
    s.reservedCount = 0 ∧
    (s.fill.reserve numRx = none → ∀ k s', s.receive k = some s' →
      s'.fill = s.fill ∧ s'.pc = s.pc ∧ s'.reservedCount = 0) := by
  have howned := Owned.of_reached h
  obtain ⟨g, hg, -, -⟩ := howned.tallied
  have hreserved : s.reservedCount = 0 := by
    rw [Counted.reservedCount_eq hg, hpc]
    rfl
  refine ⟨?_, hreserved, ?_⟩
  · intro hacc
    have hcount := howned.count hg
    have hpeeked := hg.peeked_le
    rw [hpc] at hpeeked
    change g.released + numRx ≤ g.delivered at hpeeked
    have hhands := hacc.le_hands (takenAccounted_of_reached h)
      (by unfold XSK_RING_PROD__DEFAULT_NUM_DESCS at hcount; omega)
    have hfree := howned.le_free hg (by rw [hpc]; rfl) (by rw [hpc]; rfl) hhands
    have hroom : numRx ≤ s.fill.free := by omega
    have hsome := XskRingProd.reserve_eq_some.mpr ⟨hroom, rfl, rfl⟩
    refine ⟨_, _, hsome, ?_⟩
    intro k
    simp only [State.receive, hpc, hsome]
  · intro hnone k s' hs
    simp only [State.receive, hpc, hnone] at hs
    cases hs
    exact ⟨rfl, rfl, hreserved⟩

/-- Two frames taken, the index moved past the one that is delivered. -/
theorem fill_has_room_one : ∃ s,
    run start [.take, .take, .publish 1, .deliver ⟨4196, 60⟩, .receive 1] = some s ∧
      s.pc = .reserve 1 0 ∧ s.Accounts ∧
      ∃ fillIndex fill, s.fill.reserve 1 = some (fillIndex, fill) ∧
        ∀ k, s.receive k = some { s with fill := fill, pc := .handle ⟨1, 0, fillIndex, 0⟩ } :=
  ⟨_, rfl, rfl, by decide, (fill_has_room (reached_run (.start main_eq)
    [.take, .take, .publish 1, .deliver ⟨4196, 60⟩, .receive 1] rfl) rfl).1 (by decide)⟩

end SnippetsC.AfXdp
