import SnippetsC.AfXdp.Frames

namespace SnippetsC.AfXdp

/-! What `receive` prints of the packets the kernel delivers. -/

/-- The packets that `print_packet` has been called on, each with the bytes it was called on. -/
def State.passed (s : State) : List (List UInt8) :=
  match s.pc with
  | .print _ _ packet length _ => s.printed ++ [s.mem.bytes packet length]
  | _ => s.printed

/-- The deliveries that are still to be printed lie in the ring and in memory as the kernel
published them; those that are printed were printed as published. -/
structure Recorded (s : State) : Prop where
  slots : ∀ (j : Nat) (d : Delivery), s.printed.length ≤ j → s.delivered[j]? = some d →
    s.rx.ring (j % 2 ^ descsShift) = d.desc
  frames : ∀ (j : Nat) (d : Delivery), s.printed.length ≤ j → s.delivered[j]? = some d →
    ∀ a, chunk a = d.frame → s.mem a = d.mem a
  call : ∀ b rxDesc packet length out, s.pc = .print b rxDesc packet length out →
    ∃ d, s.delivered[s.printed.length]? = some d ∧ d.desc = ⟨packet, length⟩ ∧
      out.length ≤ length ∧ (d.Fits → out = d.mem.bytes packet out.length)
  printed : ∀ (j : Nat) (d : Delivery) (out : List UInt8), s.delivered[j]? = some d →
    s.printed[j]? = some out → d.Fits → out = d.content

/-- An entry of a list with one more at its end is an earlier one or the last. -/
theorem getElem?_concat_eq_some {α : Type*} {xs : List α} {x y : α} {j : Nat}
    (h : (xs ++ [x])[j]? = some y) : xs[j]? = some y ∨ j = xs.length ∧ y = x := by
  rcases Nat.lt_trichotomy j xs.length with hj | rfl | hj
  · rw [List.getElem?_append_left hj] at h
    exact .inl h
  · rw [List.getElem?_concat_length, Option.some.injEq] at h
    exact .inr ⟨rfl, h.symm⟩
  · rw [List.getElem?_eq_none (by rw [List.length_append]; exact hj)] at h
    cases h

/-- The bytes of a packet that fits are in its frame. -/
theorem Delivery.Fits.chunk_eq {d : Delivery} (h : d.Fits) {i : Nat} (hi : i < d.desc.len) :
    chunk (d.desc.addr + i) = d.frame := by
  unfold Delivery.Fits at h
  unfold Delivery.frame chunk
  unfold XSK_UMEM__DEFAULT_FRAME_SIZE at *
  omega

namespace Tallied

variable {g : Counters} {s : State}

theorem printed_le (h : Tallied g s) : s.printed.length ≤ s.delivered.length := by
  have hpeeked := h.counted.peeked_le
  have hprinted := h.counted.printed_le_peeked
  rw [h.printed, h.delivered]
  omega

theorem frame_mem_onRx (h : Tallied g s) (hrec : Recorded s) {j : Nat} {d : Delivery}
    (hj : s.printed.length ≤ j) (hd : s.delivered[j]? = some d) : d.frame ∈ s.onRx := by
  have hlt : j < s.delivered.length := (List.getElem?_eq_some_iff.mp hd).1
  have hback := s.pc.handedBack_le_printed
  have hprinted := h.printed
  rw [h.delivered] at hlt
  rw [h.counted.onRx_eq, Ring.window, List.map_map]
  refine List.mem_map.mpr ⟨j - (g.released + s.pc.handedBack), List.mem_range.mpr (by omega), ?_⟩
  have hidx : g.released + s.pc.handedBack + (j - (g.released + s.pc.handedBack)) = j := by omega
  rw [Function.comp_apply, hidx, hrec.slots j d hj hd]
  rfl

end Tallied

namespace Recorded

theorem start : Recorded start where
  slots j d hj hd := by cases hd
  frames j d hj hd := by cases hd
  call b rxDesc packet length out hpc := by cases hpc
  printed j d out hd := by cases hd

variable {g : Counters} {s : State}

theorem call_step (h : Recorded s) (ht : Tallied g s) {b : Batch} (hpc : s.pc = .handle b)
    (hi : b.i < b.numRx) {rxDesc : Nat} {desc : XdpDesc}
    (hslot : rxDesc = Ring.slot descsShift b.rxIndex) (hdesc : desc = s.rx.ring rxDesc) :
    Recorded { s with
      pc := .print { b with rxIndex := b.rxIndex + 1 } rxDesc desc.addr desc.len [] } := by
  obtain ⟨hcount, hdel, hprt⟩ := ht
  have hpeeked := hcount.peeked_le
  obtain ⟨hrx, _, _⟩ : g.Locals (.handle b) := hpc ▸ hcount.locals
  rw [hpc] at hpeeked hprt
  change s.printed.length = g.released + b.i at hprt
  change g.released + b.numRx ≤ g.delivered at hpeeked
  have hlt : s.printed.length < s.delivered.length := by omega
  have hd := List.getElem?_eq_getElem hlt
  have hring := h.slots _ _ (Nat.le_refl _) hd
  rw [hrx, slot_ofNat, ← hprt] at hslot
  exact { h with
    call := by
      intro b' rxDesc' packet length out hprint
      cases hprint
      refine ⟨_, hd, ?_, Nat.zero_le _, fun _ => rfl⟩
      rw [← hring, hdesc, hslot] }

theorem byte_step (h : Recorded s) {b : Batch} {rxDesc packet length : Nat} {out : List UInt8}
    (hpc : s.pc = .print b rxDesc packet length out) (hout : out.length < length) :
    Recorded { s with
      pc := .print b rxDesc packet length (out ++ [s.mem (packet + out.length)]) } := by
  obtain ⟨d, hd, hdesc, _, hbytes⟩ := h.call _ _ _ _ _ hpc
  exact { h with
    call := by
      intro b' rxDesc' packet' length' out' hprint
      cases hprint
      refine ⟨d, hd, hdesc, List.length_append.trans_le hout, ?_⟩
      intro hfits
      have hchunk : chunk (packet + out.length) = d.frame := by
        have hframe := hfits.chunk_eq (i := out.length) (by rw [hdesc]; exact hout)
        rwa [hdesc] at hframe
      rw [List.length_append, List.length_singleton, Mem.bytes_succ, ← hbytes hfits,
        h.frames _ d (Nat.le_refl _) hd _ hchunk] }

theorem printed_step (h : Recorded s) {b : Batch} {rxDesc packet length : Nat} {out : List UInt8}
    (hpc : s.pc = .print b rxDesc packet length out) (hout : length ≤ out.length) :
    Recorded { s with printed := s.printed ++ [out], pc := .refill b rxDesc } := by
  obtain ⟨d, hd, hdesc, hle, hbytes⟩ := h.call _ _ _ _ _ hpc
  have hlater : ∀ j, (s.printed ++ [out]).length ≤ j → s.printed.length ≤ j := by
    intro j hj
    rw [List.length_append] at hj
    omega
  exact {
    slots := by
      intro j d' hj hd'
      exact h.slots j d' (hlater j hj) hd'
    frames := by
      intro j d' hj hd'
      exact h.frames j d' (hlater j hj) hd'
    call := by
      intro _ _ _ _ _ hprint
      cases hprint
    printed := by
      intro j d' out' hd' hout' hfits
      rcases getElem?_concat_eq_some hout' with hold | ⟨rfl, rfl⟩
      · exact h.printed j d' out' hd' hold hfits
      · have hsame : d = d' := Option.some.inj (hd.symm.trans hd')
        subst hsame
        have hlen : out'.length = length := Nat.le_antisymm hle hout
        rw [hbytes hfits, Delivery.content, hdesc, hlen] }

theorem write_step (h : Recorded s) (hown : Owned s) {addr : Nat} (b : UInt8)
    (hmem : chunk addr ∈ s.hands) : Recorded { s with mem := Function.update s.mem addr b } := by
  obtain ⟨g, hg⟩ := hown.tallied
  have hnodup : s.places.all.Nodup := hown.perm.nodup_iff.mpr List.nodup_range
  exact { h with
    frames := by
      intro j d hj hd a ha
      have hne : a ≠ addr := by
        rintro rfl
        exact Circulation.not_mem_delivered hnodup hmem (ha ▸ hg.frame_mem_onRx h hj hd)
      exact (Function.update_of_ne hne _ _).trans (h.frames j d hj hd a ha) }

theorem deliver_step (h : Recorded s) (ht : Tallied g s) {desc : XdpDesc}
    (hroom : (s.rx.producer - s.rx.consumer).toNat < XSK_RING_CONS__DEFAULT_NUM_DESCS) :
    Recorded (s.push desc) := by
  have hlt := ht.counted.lt_released hroom
  have hle := ht.printed_le
  have hprt := ht.printed
  have hslot : Ring.slot descsShift s.rx.producer = s.delivered.length % 2 ^ descsShift := by
    rw [ht.counted.delivered, slot_ofNat, ht.delivered]
  rw [← ht.delivered] at hlt
  have hcases : ∀ (j : Nat) (d : Delivery), (s.push desc).delivered[j]? = some d →
      s.delivered[j]? = some d ∨ j = s.delivered.length ∧ d = ⟨desc, s.mem⟩ := by
    intro j d hd
    exact getElem?_concat_eq_some hd
  exact {
    slots := by
      intro j d hj hd
      change Function.update s.rx.ring _ desc _ = _
      rw [hslot]
      rcases hcases j d hd with hold | ⟨rfl, rfl⟩
      · have hjlt : j < s.delivered.length := (List.getElem?_eq_some_iff.mp hold).1
        change s.printed.length ≤ j at hj
        rw [Function.update_of_ne (Ring.slot_ne hjlt (by omega))]
        exact h.slots j d hj hold
      · rw [Function.update_self]
    frames := by
      intro j d hj hd
      rcases hcases j d hd with hold | ⟨rfl, rfl⟩
      · exact h.frames j d hj hold
      · intro a _
        rfl
    call := by
      intro b rxDesc packet length out hprint
      obtain ⟨d, hd, hrest⟩ := h.call b rxDesc packet length out hprint
      refine ⟨d, ?_, hrest⟩
      have hjlt : s.printed.length < s.delivered.length := (List.getElem?_eq_some_iff.mp hd).1
      exact (List.getElem?_append_left hjlt).trans hd
    printed := by
      intro j d out hd hout
      have hjlt : j < s.printed.length := (List.getElem?_eq_some_iff.mp hout).1
      rcases hcases j d hd with hold | ⟨rfl, rfl⟩
      · exact h.printed j d out hold hout
      · omega }

end Recorded

theorem Step.recorded {s s' : State} (hs : Step s s') (hown : Owned s) (h : Recorded s) :
    Recorded s' := by
  obtain ⟨g, hg⟩ := hown.tallied
  cases hs with
  | wakeup => exact { h with }
  | peek hpc hk h0 => exact { h with call := by intro _ _ _ _ _ hprint; cases hprint }
  | reserve hpc hfree => exact { h with call := by intro _ _ _ _ _ hprint; cases hprint }
  | call hpc hi hslot hdesc => exact h.call_step hg hpc hi hslot hdesc
  | exit hpc hi => exact { h with call := by intro _ _ _ _ _ hprint; cases hprint }
  | byte hpc hout => exact h.byte_step hpc hout
  | printed hpc hout => exact h.printed_step hpc hout
  | refill hpc => exact { h with call := by intro _ _ _ _ _ hprint; cases hprint }
  | submit hpc => exact { h with call := by intro _ _ _ _ _ hprint; cases hprint }
  | release hpc => exact { h with call := by intro _ _ _ _ _ hprint; cases hprint }
  | take hne => exact { h with }
  | publish hn => exact { h with }
  | write b hmem => exact h.write_step hown b hmem
  | deliver hmem hroom => exact h.deliver_step hg hroom
  | setNeedsWakeup b => exact { h with }

theorem Recorded.of_reached {s : State} (h : Reached s) : Recorded s := by
  refine Reachable.invariant ?_ ?_ h
  · intro s hs
    rw [main_eq, Option.some.injEq] at hs
    subst hs
    exact Recorded.start
  · rintro s s' hreached hrec ⟨a, hs⟩
    exact (step_cases hs).recorded (Owned.of_reached hreached) hrec

theorem printed_prefix {g : Counters} {s : State} (h : Recorded s) (ht : Tallied g s)
    (hfits : ∀ d ∈ s.delivered, d.Fits) : s.printed <+: s.delivered.map Delivery.content := by
  rw [List.prefix_iff_getElem?]
  intro j hj
  have hlt : j < s.delivered.length := Nat.lt_of_lt_of_le hj ht.printed_le
  have hd := List.getElem?_eq_getElem hlt
  have hout := List.getElem?_eq_getElem hj
  rw [List.getElem?_map, hd, Option.map_some,
    h.printed j _ _ hd hout (hfits _ (List.getElem_mem hlt))]

/-- The bytes `print_packet` is called on are those of the next delivery. -/
theorem passed_prefix {g : Counters} {s : State} (h : Recorded s) (ht : Tallied g s)
    (hfits : ∀ d ∈ s.delivered, d.Fits) : s.passed <+: s.delivered.map Delivery.content := by
  have hpre := printed_prefix h ht hfits
  rw [State.passed]
  cases hpc : s.pc with
  | print b rxDesc packet length out =>
    obtain ⟨d, hd, hdesc, _, _⟩ := h.call b rxDesc packet length out hpc
    have hfit : d.Fits := hfits d (List.mem_of_getElem? hd)
    have hbytes : s.mem.bytes packet length = d.content := by
      rw [Delivery.content, hdesc]
      apply Mem.bytes_congr
      intro a ha halt
      apply h.frames _ d (Nat.le_refl _) hd
      have hlen : a - packet < d.desc.len := by
        rw [hdesc]
        exact Nat.sub_lt_left_of_lt_add ha halt
      have hchunk := hfit.chunk_eq hlen
      rwa [hdesc, Nat.add_sub_cancel' ha] at hchunk
    rw [List.prefix_iff_eq_take] at hpre ⊢
    simp only [List.length_append, List.length_singleton, List.take_add_one, ← hpre,
      List.getElem?_map, hd, hbytes, Option.map_some, Option.toList_some]
  | _ => exact hpre

/-- Every packet is printed once, in the order of delivery and with the bytes delivered, and no byte
of its frame changes before it has been printed. -/
theorem packets_printed {s : State} (h : Reached s) (hfits : ∀ d ∈ s.delivered, d.Fits) :
    s.printed <+: s.passed ∧ s.passed <+: s.delivered.map Delivery.content ∧
      ∀ (j : Nat) (d : Delivery), s.printed.length ≤ j → s.delivered[j]? = some d →
        ∀ a, chunk a = d.frame → s.mem a = d.mem a := by
  obtain ⟨g, hg⟩ := (Owned.of_reached h).tallied
  have hrec := Recorded.of_reached h
  refine ⟨?_, passed_prefix hrec hg hfits, hrec.frames⟩
  rw [State.passed]
  cases s.pc with
  | print b rxDesc packet length out => exact List.prefix_append _ _
  | _ => exact List.prefix_refl _

/-- One packet is received and printed, and the kernel goes on to write into the next frame. -/
def onePacket : List Action :=
  [.take, .write 2 0xab, .deliver ⟨2, 1⟩, .receive 1, .receive 0, .publish 1, .receive 0,
    .receive 0, .receive 0, .receive 0, .take, .write 4096 0xcd]

theorem packets_printed_one :
    ∃ s, run start onePacket = some s ∧ s.wakeups = 0 ∧ s.printed = [[0xab]] ∧
      s.printed <+: s.passed ∧ s.passed <+: s.delivered.map Delivery.content ∧
      ∀ (j : Nat) (d : Delivery), s.printed.length ≤ j → s.delivered[j]? = some d →
        ∀ a, chunk a = d.frame → s.mem a = d.mem a :=
  ⟨_, rfl, by decide, by decide,
    packets_printed (reached_run (.start main_eq) onePacket rfl) (by decide)⟩

end SnippetsC.AfXdp
