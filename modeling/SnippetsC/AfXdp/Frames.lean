import SnippetsC.AfXdp.Indices
import SnippetsC.Framework.Circulation

namespace SnippetsC.AfXdp

/-! Where the frames of the umem are. -/

namespace State

/-- The first rx entry that no submit has handed back. -/
def handedBack (s : State) : Index := s.rx.consumer + BitVec.ofNat 32 s.pc.handedBack

/-- The frames that are published on the fill ring and not taken. -/
def onFill (s : State) : List Nat :=
  (Ring.entries descsShift s.fill.ring s.taken s.fill.producer).map chunk

/-- The frames that are published on the rx ring and not handed back. -/
def onRx (s : State) : List Nat :=
  (Ring.entries descsShift s.rx.ring s.handedBack s.rx.producer).map fun desc => chunk desc.addr

def places (s : State) : Circulation Nat := ⟨s.onFill, s.hands, s.onRx⟩

end State

/-- The counters of a state. -/
abbrev CountedState (g : Counters) (s : State) : Prop := Counted g s.fill s.rx s.taken s.pc

namespace Counted

variable {g : Counters} {s : State}

theorem onFill_eq (h : CountedState g s) :
    s.onFill = (Ring.window descsShift s.fill.ring g.taken (g.posted - g.taken)).map chunk := by
  have hfreed := h.freed_le
  have hle := h.reserved_le
  unfold descsShift at hle
  rw [State.onFill, h.taken, h.posted, Ring.entries_ofNat (by decide) _ h.taken_le (by omega)]

theorem handedBack_le (h : CountedState g s) : g.released + s.pc.handedBack ≤ g.delivered :=
  Nat.le_trans (Nat.add_le_add_left s.pc.handedBack_le_peeked _) h.peeked_le

theorem onRx_eq (h : CountedState g s) :
    s.onRx = (Ring.window descsShift s.rx.ring (g.released + s.pc.handedBack)
      (g.delivered - (g.released + s.pc.handedBack))).map fun desc => chunk desc.addr := by
  have hle := h.delivered_le
  unfold descsShift at hle
  rw [State.onRx, State.handedBack, h.released, h.delivered, ← BitVec.ofNat_add,
    Ring.entries_ofNat (by decide) _ h.handedBack_le (by omega)]

/-- What a submit publishes are the frames of the entries it hands back. -/
theorem window_submit {numRx : Nat} (h : CountedState g s) (hpc : s.pc = .submit numRx)
    (hown : ∀ f ∈ s.onRx, f < XSK_RING_PROD__DEFAULT_NUM_DESCS) :
    (Ring.window descsShift s.fill.ring g.posted numRx).map chunk =
      (Ring.window descsShift s.rx.ring g.released numRx).map fun desc => chunk desc.addr := by
  have hstored := h.stored
  have hpeeked := h.peeked_le
  rw [h.onRx_eq] at hown
  rw [hpc] at hstored hpeeked hown
  change g.released + numRx ≤ g.delivered at hpeeked
  simp only [Ring.window, List.map_map]
  apply List.map_congr_left
  intro j hj
  have hlt : j < numRx := List.mem_range.mp hj
  have hfill := hstored j hlt
  simp only [Function.comp_apply]
  rw [hfill, chunk_extractAddr]
  apply hown
  refine List.mem_map_of_mem (List.mem_map.mpr ⟨j, List.mem_range.mpr ?_, rfl⟩)
  change j < g.delivered - (g.released + 0)
  omega

end Counted

theorem places_pop {g : Counters} {s : State} (h : CountedState g s)
    (hne : s.taken ≠ s.fill.producer) : s.places.Move s.pop.places := by
  have hpop : CountedState { g with taken := g.taken + 1 } s.pop := h.take hne
  have hlt := h.lt_posted hne
  have hget : s.fill.get s.taken = s.fill.ring (g.taken % 2 ^ descsShift) := by
    rw [XskRingProd.get, h.taken, slot_ofNat]
  have hcount : g.posted - g.taken = g.posted - (g.taken + 1) + 1 := by omega
  have hfill := h.onFill_eq
  rw [hcount, Ring.window_succ, List.map_cons, ← hget] at hfill
  rw [State.places, State.places, hfill, hpop.onFill_eq]
  exact .take _ _ _ _

theorem places_push {g : Counters} {s : State} (h : CountedState g s) {desc : XdpDesc}
    (hmem : chunk desc.addr ∈ s.hands)
    (hroom : (s.rx.producer - s.rx.consumer).toNat < XSK_RING_CONS__DEFAULT_NUM_DESCS) :
    s.places.Move (s.push desc).places := by
  have hpush : CountedState { g with delivered := g.delivered + 1 } (s.push desc) :=
    h.deliver hroom desc
  have hlt := h.lt_released hroom
  have hback := h.handedBack_le
  have hring : (s.push desc).rx.ring =
      Function.update s.rx.ring (g.delivered % 2 ^ descsShift) desc := by
    rw [State.push, h.delivered, slot_ofNat]
  have hrx := hpush.onRx_eq
  change _ = (Ring.window _ _ (g.released + s.pc.handedBack)
    (g.delivered + 1 - (g.released + s.pc.handedBack))).map _ at hrx
  obtain ⟨n, hn⟩ := Nat.exists_eq_add_of_le hback
  have hsucc : g.delivered + 1 - (g.released + s.pc.handedBack) = n + 1 := by omega
  have hfront : (Ring.window descsShift s.rx.ring (g.released + s.pc.handedBack) n).map
      (fun desc => chunk desc.addr) = s.onRx := by
    rw [h.onRx_eq]
    congr 2
    omega
  rw [hsucc, Ring.window_succ_right, ← hn, hring, Ring.window_update (by omega) (by omega),
    Function.update_self, List.map_append, hfront] at hrx
  rw [State.places, State.places, hrx]
  exact .deliver _ _ hmem

theorem places_submit {g : Counters} {s : State} (h : CountedState g s) {numRx : Nat}
    (hpc : s.pc = .submit numRx) (hown : ∀ f ∈ s.onRx, f < XSK_RING_PROD__DEFAULT_NUM_DESCS) :
    s.places.Move { s with fill := s.fill.submit numRx, pc := .release numRx : State }.places := by
  let s' : State := { s with fill := s.fill.submit numRx, pc := .release numRx }
  have hwin := h.window_submit hpc hown
  have hpeeked := h.peeked_le
  have hfill := h.onFill_eq
  have hrx := h.onRx_eq
  have hsub : CountedState { g with posted := g.posted + numRx } s' := by
    rw [CountedState, hpc] at h
    exact h.submit
  have hfill' : s'.onFill = (Ring.window descsShift s.fill.ring g.taken
      (g.posted + numRx - g.taken)).map chunk := hsub.onFill_eq
  have hrx' : s'.onRx = (Ring.window descsShift s.rx.ring (g.released + numRx)
      (g.delivered - (g.released + numRx))).map fun desc => chunk desc.addr := hsub.onRx_eq
  rw [hpc] at hpeeked hrx
  change g.released + numRx ≤ g.delivered at hpeeked
  change _ = (Ring.window _ _ g.released (g.delivered - g.released)).map _ at hrx
  obtain ⟨m, hm⟩ := Nat.exists_eq_add_of_le h.taken_le
  have hposted : g.posted + numRx - g.taken = g.posted - g.taken + numRx := by omega
  have htaken : g.taken + (g.posted - g.taken) = g.posted := by omega
  have hcount : g.delivered - g.released = numRx + (g.delivered - (g.released + numRx)) := by omega
  rw [hposted, Ring.window_add, htaken, List.map_append, ← hfill, hwin] at hfill'
  rw [hcount, Ring.window_add, List.map_append, ← hrx'] at hrx
  change s.places.Move s'.places
  rw [State.places, State.places, hrx, hfill']
  exact .repost _ _ _ _

/-- A slot that is not published yet is not on the fill ring. -/
theorem onFill_refill {g : Counters} {s : State} (h : CountedState g s) {b : Batch} {rxDesc : Nat}
    (hpc : s.pc = .refill b rxDesc) (v : Nat) :
    { s with
      fill := s.fill.set b.fillIndex v
      pc := .handle { b with fillIndex := b.fillIndex + 1, i := b.i + 1 } : State }.onFill =
      s.onFill := by
  obtain ⟨_, hfill, hi, _⟩ : g.Locals (.refill b rxDesc) := hpc ▸ h.locals
  have hle := h.reserved_le
  rw [hpc] at hle
  change g.posted + b.numRx ≤ _ at hle
  have hfreed := h.freed_le
  have htaken := h.taken_le
  have hslot : Ring.slot descsShift b.fillIndex = (g.posted + b.i) % 2 ^ descsShift := by
    rw [hfill, slot_ofNat]
  have hfill' := h.onFill_eq
  rw [← Ring.window_update (j := g.posted + b.i) (by omega) (by omega) v] at hfill'
  rw [hfill', State.onFill, h.taken]
  change (Ring.entries _ (Function.update s.fill.ring _ v) _ s.fill.producer).map chunk = _
  unfold descsShift at hle
  rw [h.posted, hslot, Ring.entries_ofNat (by decide) _ htaken (by omega)]

/-- A step of `receive` that leaves the published parts of both rings as they are. -/
theorem places_stay {s s' : State} (hfill : s'.onFill = s.onFill) (hhands : s'.hands = s.hands)
    (hring : s'.rx.ring = s.rx.ring) (hproducer : s'.rx.producer = s.rx.producer)
    (hback : s'.handedBack = s.handedBack) : s.places.Move s'.places := by
  rw [State.places, State.places, State.onRx, State.onRx, hfill, hhands, hring, hproducer, hback]
  exact .stay _

/-- The handed back entries are those the consumer index and the place in `receive` say. -/
theorem handedBack_congr {s s' : State} (hcons : s'.rx.consumer = s.rx.consumer)
    (hpc : s'.pc.handedBack = s.pc.handedBack) : s'.handedBack = s.handedBack := by
  rw [State.handedBack, State.handedBack, hcons, hpc]

/-- Every step moves frames as the circulation allows, or leaves them where they are. -/
theorem Step.move {g : Counters} {s s' : State} (hs : Step s s') (h : CountedState g s)
    (hown : ∀ f ∈ s.onRx, f < XSK_RING_PROD__DEFAULT_NUM_DESCS) : s.places.Move s'.places := by
  cases hs with
  | wakeup => exact .stay _
  | peek hpc hk h0 => exact places_stay rfl rfl rfl rfl (handedBack_congr rfl (by rw [hpc]; rfl))
  | reserve hpc hfree =>
    exact places_stay rfl rfl rfl rfl (handedBack_congr rfl (by rw [hpc]; rfl))
  | call hpc hi hslot hdesc =>
    exact places_stay rfl rfl rfl rfl (handedBack_congr rfl (by rw [hpc]; rfl))
  | exit hpc hi => exact places_stay rfl rfl rfl rfl (handedBack_congr rfl (by rw [hpc]; rfl))
  | byte hpc hout => exact places_stay rfl rfl rfl rfl (handedBack_congr rfl (by rw [hpc]; rfl))
  | printed hpc hout =>
    exact places_stay rfl rfl rfl rfl (handedBack_congr rfl (by rw [hpc]; rfl))
  | refill hpc =>
    exact places_stay (onFill_refill h hpc _) rfl rfl rfl
      (handedBack_congr rfl (by rw [hpc]; rfl))
  | submit hpc => exact places_submit h hpc hown
  | release hpc =>
    -- the released entries are the ones that were handed back
    refine places_stay rfl rfl rfl rfl ?_
    rw [State.handedBack, State.handedBack, hpc]
    exact BitVec.add_zero _
  | take hne => exact places_pop h hne
  | publish hn => exact .stay _
  | write b hmem => exact .stay _
  | deliver hmem hroom => exact places_push h hmem hroom
  | setNeedsWakeup b => exact .stay _

/-- The ring indices belong to counters, and every frame is in one place. -/
structure Owned (s : State) : Prop where
  tallied : ∃ g, Tallied g s
  perm : s.places.all.Perm (List.range XSK_RING_PROD__DEFAULT_NUM_DESCS)

theorem start_frames :
    (Ring.window descsShift start.fill.ring 0 XSK_RING_PROD__DEFAULT_NUM_DESCS).map chunk =
      List.range XSK_RING_PROD__DEFAULT_NUM_DESCS := by
  have hframe : ∀ i ∈ List.range XSK_RING_PROD__DEFAULT_NUM_DESCS,
      (chunk ∘ fun i => start.fill.ring ((0 + i) % 2 ^ descsShift)) i = id i := by
    intro i hi
    have hlt : i < XSK_RING_PROD__DEFAULT_NUM_DESCS := List.mem_range.mp hi
    rw [Function.comp_apply, two_pow_descsShift, Nat.zero_add, Nat.mod_eq_of_lt hlt,
      start_fill_ring, if_pos hlt]
    exact Nat.mul_div_cancel i (by decide)
  rw [Ring.window, List.map_map, List.map_congr_left hframe, List.map_id]

namespace Owned

theorem start : Owned start where
  tallied := ⟨_, tallied_start⟩
  perm := by
    have hfill : State.onFill AfXdp.start = List.range XSK_RING_PROD__DEFAULT_NUM_DESCS :=
      (Counted.onFill_eq counted_start).trans start_frames
    have hhands : AfXdp.start.hands = [] := rfl
    have hrx : State.onRx AfXdp.start = [] := Counted.onRx_eq counted_start
    rw [State.places, Circulation.all, hfill, hhands, hrx, List.append_nil, List.append_nil]

theorem onRx_lt {s : State} (h : Owned s) :
    ∀ f ∈ s.onRx, f < XSK_RING_PROD__DEFAULT_NUM_DESCS := by
  intro f hf
  have hall : f ∈ s.places.all := List.mem_append_right _ hf
  exact List.mem_range.mp (h.perm.mem_iff.mp hall)

theorem step {s s' : State} (h : Owned s) (hs : Step s s') : Owned s' := by
  obtain ⟨g, hg⟩ := h.tallied
  exact ⟨hs.tallied hg, (hs.move hg.counted h.onRx_lt).all_perm.trans h.perm⟩

theorem of_reached {s : State} (h : Reached s) : Owned s := by
  refine Reachable.invariant ?_ ?_ h
  · intro s hs
    rw [main_eq, Option.some.injEq] at hs
    subst hs
    exact Owned.start
  · rintro s s' - howned ⟨a, hs⟩
    exact howned.step (step_cases hs)

end Owned

/-- Every frame that `main` posted is in exactly one place. -/
theorem frames_conserved {s : State} (h : Reached s) :
    (s.onFill ++ s.hands ++ s.onRx).Perm (List.range XSK_RING_PROD__DEFAULT_NUM_DESCS) :=
  (Owned.of_reached h).perm

theorem frames_conserved_peeked :
    ∃ s, run start [.take, .take, .deliver ⟨4196, 60⟩, .receive 1] = some s ∧ s.hands = [0] ∧
      s.onRx = [1] ∧
      (s.onFill ++ s.hands ++ s.onRx).Perm (List.range XSK_RING_PROD__DEFAULT_NUM_DESCS) :=
  ⟨_, rfl, by decide, by decide, frames_conserved
    (reached_run (.start main_eq) [.take, .take, .deliver ⟨4196, 60⟩, .receive 1] rfl)⟩

end SnippetsC.AfXdp
