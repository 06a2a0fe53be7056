import SnippetsC.AfXdp.InFlight
import SnippetsC.Framework.Memory

set_option linter.style.nameCheck false

namespace SnippetsC.AfXdp.XdpSockTx

/-! What the kernel finds behind the descriptors of `xdp-sock-tx`, and where they all are. -/

def ETH_ALEN : Nat := 6

def hDest : List UInt8 := [0xab, 0xcd, 0xef, 0xab, 0xcd, 0xef]

def hSource : List UInt8 := [0x01, 0x23, 0x45, 0x67, 0x89, 0x01]

/-- `main` builds the dummy frame in zeroed memory. -/
def pktData : Mem := (Mem.write (fun _ => 0) 0 hDest).write ETH_ALEN hSource

/-- The loop of `main` over the frames `i`, `i + 1`, up to `n` of them. -/
def copyFrames (umem : Mem) (i : Nat) : Nat → Mem
  | 0 => umem
  | n + 1 =>
    copyFrames (umem.write (i * XSK_UMEM__DEFAULT_FRAME_SIZE) (pktData.bytes 0 PACKET_SIZE))
      (i + 1) n

/-- The umem as `main` leaves it to `send_packets`, which never writes to it. -/
def umem : Mem := copyFrames (fun _ => 0) 0 BATCH_SIZE

/-- An Ethernet frame of the two addresses, ethertype zero and zeros. -/
def dummyFrame : List UInt8 := hDest ++ hSource ++ List.replicate (PACKET_SIZE - 2 * ETH_ALEN) 0

theorem pktData_bytes : pktData.bytes 0 PACKET_SIZE = dummyFrame := by decide

theorem copyFrames_frame (m : Mem) (i n : Nat) {p : Nat}
    (h : p + PACKET_SIZE ≤ i * XSK_UMEM__DEFAULT_FRAME_SIZE) :
    (copyFrames m i n).bytes p PACKET_SIZE = m.bytes p PACKET_SIZE := by
  induction n generalizing m i with
  | zero => rfl
  | succ n ih =>
    rw [copyFrames, ih _ _ (by rw [Nat.succ_mul]; omega), Mem.bytes_write_frame _ _ _ (.inl h)]

theorem copyFrames_bytes (m : Mem) (i n : Nat) {j : Nat} (h : i ≤ j) (hlt : j < i + n) :
    (copyFrames m i n).bytes (j * XSK_UMEM__DEFAULT_FRAME_SIZE) PACKET_SIZE = dummyFrame := by
  induction n generalizing m i with
  | zero => omega
  | succ n ih =>
    rw [copyFrames]
    rcases Nat.eq_or_lt_of_le h with rfl | hi
    · have hlen : (pktData.bytes 0 PACKET_SIZE).length = PACKET_SIZE := by simp
      rw [copyFrames_frame _ _ _ (by unfold XSK_UMEM__DEFAULT_FRAME_SIZE PACKET_SIZE; omega)]
      exact (Mem.holds_write _ _ _).bytes_eq hlen.symm |>.trans pktData_bytes
    · exact ih _ _ hi (by omega)

theorem frameAddr_eq {i : Nat} (h : i < BATCH_SIZE) :
    frameAddr i = i * XSK_UMEM__DEFAULT_FRAME_SIZE := by
  obtain rfl : i = 0 := Nat.lt_one_iff.mp h
  rfl

/-- The descriptor of a packet of the batch. -/
def Dummy (desc : XdpDesc) : Prop := ∃ i, i < BATCH_SIZE ∧ desc = ⟨frameAddr i, PACKET_SIZE⟩

theorem Dummy.bytes_eq {desc : XdpDesc} (h : Dummy desc) :
    umem.bytes desc.addr desc.len = dummyFrame := by
  obtain ⟨i, hi, rfl⟩ := h
  rw [frameAddr_eq hi]
  exact copyFrames_bytes _ 0 _ (Nat.zero_le i) (by omega)

/-- Entries of the reservation that have their descriptor. -/
def Pc.filled : Pc → Nat
  | fill _ i => i
  | submit => BATCH_SIZE
  | idle | reserve | wakeup _ | peek _ | release _ _ => 0

/-- What is published on the tx ring, reserved and filled, or in the kernel's hands describes a
packet of the batch. -/
structure Posted (p : ProdCounts) (s : State) : Prop where
  tx : p.Count s.tx s.taken s.pc.reserved
  index : ∀ txIndex i, s.pc = .fill txIndex i →
    txIndex = BitVec.ofNat 32 (p.submitted + i) ∧ i ≤ BATCH_SIZE
  ring : ∀ j, p.taken ≤ j → j < p.submitted + s.pc.filled →
    Dummy (s.tx.ring (j % 2 ^ descsShift))
  hands : ∀ desc ∈ s.hands, Dummy desc

theorem posted_start (config : Option XskSocketConfig) : Posted ⟨0, 0, 0⟩ (start config) where
  tx := (counted_start config).tx
  index := by
    intro txIndex i hpc
    cases hpc
  ring := by
    intro j _ hj
    exact absurd hj (Nat.not_lt_zero j)
  hands := List.forall_mem_nil _

namespace Posted

variable {p : ProdCounts} {s : State}

/-- A step of the program that stores no descriptor and has none reserved before or after. -/
theorem stay (h : Posted p s) {s' : State} (htx : s'.tx = s.tx) (htaken : s'.taken = s.taken)
    (hhands : s'.hands = s.hands) (hpc : s.pc.reserved = 0) (hpc' : s'.pc.reserved = 0)
    (hfilled : s.pc.filled = 0) (hfilled' : s'.pc.filled = 0) : Posted p s' where
  tx := by
    rw [htx, htaken, hpc', ← hpc]
    exact h.tx
  index := by
    intro txIndex i hfill
    rw [hfill] at hpc'
    cases hpc'
  ring := by
    rw [htx, hfilled', ← hfilled]
    exact h.ring
  hands := by
    rw [hhands]
    exact h.hands

theorem finish (h : Posted p s) (sent : Bool) (hpc : s.pc.reserved = 0) (hfilled : s.pc.filled = 0) :
    Posted p (s.finish sent) := by
  cases sent with
  | true => exact h.stay rfl rfl rfl hpc rfl hfilled rfl
  | false => exact h.stay rfl rfl rfl hpc rfl hfilled rfl

/-- The store goes behind what is published and filled already. -/
theorem fill (h : Posted p s) {txIndex : Index} {i : Nat} (hpc : s.pc = .fill txIndex i)
    (hi : i < BATCH_SIZE) :
    Posted p { s with
      tx := s.tx.set txIndex ⟨frameAddr i, PACKET_SIZE⟩
      pc := .fill (txIndex + 1) (i + 1) } := by
  obtain ⟨hidx, -⟩ := h.index txIndex i hpc
  have htx := h.tx
  have hring := h.ring
  rw [hpc] at htx hring
  have hle : p.submitted + BATCH_SIZE ≤ p.freed + 2 ^ descsShift := htx.reserved_le
  have hfreed := htx.freed_le
  have hslot : Ring.slot descsShift txIndex = (p.submitted + i) % 2 ^ descsShift := by
    rw [hidx, slot_ofNat]
  refine ⟨htx.set _ _, ?_, ?_, h.hands⟩
  · intro txIndex' i' hfill
    cases hfill
    rw [hidx, ofNat_succ, Nat.add_assoc]
    exact ⟨rfl, hi⟩
  · intro j hj hlt
    change j < p.submitted + (i + 1) at hlt
    change Dummy (Function.update s.tx.ring _ _ _)
    rw [hslot]
    rcases Nat.lt_or_ge j (p.submitted + i) with hold | hnew
    · rw [Function.update_of_ne (Ring.slot_ne hold (by omega))]
      exact hring j hj hold
    · obtain rfl : j = p.submitted + i := by omega
      rw [Function.update_self]
      exact ⟨i, hi, rfl⟩

theorem send {s' : State} {k : Nat} (h : Posted p s) (hs : s.send k = some s') :
    ∃ p', Posted p' s' := by
  unfold State.send at hs
  cases hpc : s.pc with
  | idle =>
    simp only [hpc] at hs
    cases hs
    exact ⟨p, h.stay rfl rfl rfl (by rw [hpc]; rfl) rfl (by rw [hpc]; rfl) rfl⟩
  | reserve =>
    simp only [hpc] at hs
    cases hres : s.tx.reserve BATCH_SIZE with
    | none =>
      simp only [hres] at hs
      cases hs
      exact ⟨p, h.stay rfl rfl rfl (by rw [hpc]; rfl) rfl (by rw [hpc]; rfl) rfl⟩
    | some r =>
      obtain ⟨txIndex, tx⟩ := r
      obtain ⟨hfree, rfl, rfl⟩ := XskRingProd.reserve_eq_some.mp hres
      simp only [hres] at hs
      cases hs
      have htx := h.tx
      have hring := h.ring
      rw [hpc] at htx hring
      refine ⟨p, htx.reserve hfree, ?_, hring, h.hands⟩
      intro txIndex i hfill
      cases hfill
      exact ⟨htx.cachedProd, Nat.zero_le _⟩
  | fill txIndex i =>
    simp only [hpc] at hs
    split_ifs at hs with hi
    · cases hs
      exact ⟨p, h.fill hpc hi⟩
    · -- the loop has filled the whole batch
      cases hs
      have hle := (h.index txIndex i hpc).2
      have hall : i = BATCH_SIZE := by omega
      have htx := h.tx
      have hring := h.ring
      rw [hpc] at htx hring
      refine ⟨p, htx, ?_, ?_, h.hands⟩
      · intro txIndex' i' hfill
        cases hfill
      · intro j hj hlt
        change j < p.submitted + BATCH_SIZE at hlt
        refine hring j hj ?_
        change j < p.submitted + i
        omega
  | submit =>
    simp only [hpc] at hs
    cases hs
    have htx := h.tx
    have hring := h.ring
    rw [hpc] at htx hring
    refine ⟨_, htx.submit, ?_, hring, h.hands⟩
    intro txIndex i hfill
    cases hfill
  | wakeup sent =>
    simp only [hpc] at hs
    split_ifs at hs with hwake
    · cases hs
      exact ⟨p, h.stay rfl rfl rfl (by rw [hpc]; rfl) rfl (by rw [hpc]; rfl) rfl⟩
    · cases hs
      exact ⟨p, h.stay rfl rfl rfl (by rw [hpc]; rfl) rfl (by rw [hpc]; rfl) rfl⟩
  | peek sent =>
    simp only [hpc] at hs
    split_ifs at hs with hk h0
    · cases hs
      exact ⟨p, h.stay rfl rfl rfl (by rw [hpc]; rfl) rfl (by rw [hpc]; rfl) rfl⟩
    · cases hs
      exact ⟨p, h.finish sent (by rw [hpc]; rfl) (by rw [hpc]; rfl)⟩
  | release sent numComp =>
    simp only [hpc] at hs
    cases hs
    refine ⟨p, finish ?_ sent rfl rfl⟩
    exact h.stay rfl rfl rfl (by rw [hpc]; rfl) rfl (by rw [hpc]; rfl) rfl

theorem take (h : Posted p s) (hne : s.taken ≠ s.tx.producer) :
    Posted { p with taken := p.taken + 1 }
      { s with hands := s.hands ++ [s.tx.get s.taken], taken := s.taken + 1 } := by
  have hlt := h.tx.lt_submitted hne
  refine ⟨h.tx.take hne, h.index, ?_, ?_⟩
  · intro j hj hj'
    exact h.ring j (Nat.le_of_succ_le hj) hj'
  · intro desc hdesc
    rcases List.mem_append.mp hdesc with hold | hnew
    · exact h.hands desc hold
    · rw [List.mem_singleton.mp hnew, XskRingProd.get, h.tx.taken, slot_ofNat]
      exact h.ring p.taken (Nat.le_refl _) (Nat.lt_add_right _ hlt)

theorem of_step {s' : State} {a : Action} (h : Posted p s) (hs : step s a = some s') :
    ∃ p', Posted p' s' := by
  cases a with
  | send k => exact h.send hs
  | take =>
    simp only [step, State.take] at hs
    split_ifs at hs with hne
    cases hs
    exact ⟨_, h.take hne⟩
  | publish n =>
    simp only [step, State.publish] at hs
    split_ifs at hs with hn
    cases hs
    exact ⟨_, h.tx.publish hn, h.index, h.ring, h.hands⟩
  | complete desc =>
    simp only [step, State.complete] at hs
    split_ifs at hs with hcond
    cases hs
    exact ⟨p, h.tx, h.index, h.ring, fun d hd => h.hands d (List.mem_of_mem_erase hd)⟩
  | setNeedsWakeup b =>
    simp only [step, State.setNeedsWakeup] at hs
    split_ifs at hs
    cases hs
    exact ⟨p, h.tx, h.index, h.ring, h.hands⟩

/-- The kernel's next descriptor. -/
theorem get_taken (h : Posted p s) (hne : s.taken ≠ s.tx.producer) : Dummy (s.tx.get s.taken) := by
  rw [XskRingProd.get, h.tx.taken, slot_ofNat]
  exact h.ring p.taken (Nat.le_refl _) (Nat.lt_add_right _ (h.tx.lt_submitted hne))

end Posted

/-- However `send_packets` is called and the kernel steps in between, every descriptor that the
kernel has or takes next covers exactly the dummy frame: it never sees a slot of the ring that is
reserved and not filled, or stale. -/
theorem transmits_dummyFrame (config : Option XskSocketConfig) (acts : List Action) :
    ∀ t ∈ visited step (start config) acts,
      (∀ desc ∈ t.hands, umem.bytes desc.addr desc.len = dummyFrame) ∧
        ∀ t', step t .take = some t' →
          umem.bytes (t.tx.get t.taken).addr (t.tx.get t.taken).len = dummyFrame := by
  intro t ht
  have hinv : ∀ s a s', (∃ p, Posted p s) → step s a = some s' → ∃ p, Posted p s' := by
    rintro s a s' ⟨p, hp⟩ hs
    exact hp.of_step hs
  obtain ⟨p, hp⟩ := visited_invariant hinv ⟨_, posted_start config⟩ acts t ht
  refine ⟨fun desc hdesc => (hp.hands desc hdesc).bytes_eq, ?_⟩
  intro t' hs
  simp only [step, State.take] at hs
  split_ifs at hs with hne
  exact (hp.get_taken hne).bytes_eq

/-- One packet is submitted, and the kernel takes it. -/
theorem transmits_dummyFrame_one :
    ∃ t ∈ visited step (start none) (List.replicate 5 (.send 0) ++ [.take]),
      t.hands = [⟨0, 60⟩] ∧ ∀ desc ∈ t.hands, umem.bytes desc.addr desc.len = dummyFrame := by
  have hmem := List.getElem_mem
    (l := visited step (start none) (List.replicate 5 (.send 0) ++ [.take])) (n := 6) (by decide)
  exact ⟨_, hmem, by decide, (transmits_dummyFrame none _ _ hmem).1⟩

namespace State

/-- The frames whose descriptors are published on the tx ring and not taken. -/
def onTx (s : State) : List Nat :=
  (Ring.entries descsShift s.tx.ring s.taken s.tx.producer).map fun desc => chunk desc.addr

/-- The frames whose descriptors the kernel has. -/
def inHands (s : State) : List Nat := s.hands.map fun desc => chunk desc.addr

/-- The frames that are published on the completion ring and not released. -/
def onComp (s : State) : List Nat :=
  (Ring.entries descsShift s.comp.ring s.comp.consumer s.comp.producer).map chunk

/-- As many descriptors of frame `f` have been submitted as are on their way or released. -/
def Conserves (s : State) (f : Nat) : Prop :=
  s.submitted f = s.onTx.count f + s.inHands.count f + s.onComp.count f + s.released f

end State

theorem entries_tx {p : ProdCounts} {tx : XskRingProd XdpDesc} {taken : Index} {reserved : Nat}
    (h : p.Count tx taken reserved) :
    Ring.entries descsShift tx.ring taken tx.producer =
      Ring.window descsShift tx.ring p.taken (p.submitted - p.taken) := by
  have hle := h.reserved_le
  have hfreed := h.freed_le
  unfold descsShift at hle
  rw [h.taken, h.producer, Ring.entries_ofNat (by decide) _ h.taken_le (by omega)]

theorem entries_comp {c : ConsCounts} {comp : XskRingCons Nat} {peeked : Nat}
    (h : c.Count comp peeked) :
    Ring.entries descsShift comp.ring comp.consumer comp.producer =
      Ring.window descsShift comp.ring c.released (c.published - c.released) := by
  have hpeeked := h.peeked_le
  have hle := h.published_le
  unfold descsShift at hle
  rw [h.consumer, h.producer, Ring.entries_ofNat (by decide) _ (by omega) (by omega)]

theorem submission_window {p : ProdCounts} {s : State} {reserved nb : Nat}
    (h : p.Count s.tx s.taken reserved) (hnb : nb ≤ 2 ^ descsShift) :
    s.submission nb = (Ring.window descsShift s.tx.ring p.submitted nb).map .submit := by
  unfold descsShift at hnb
  rw [State.submission, h.producer, ← BitVec.ofNat_add,
    Ring.entries_ofNat (by decide) _ (Nat.le_add_right _ _) (by omega), Nat.add_sub_cancel_left]

theorem releases_window {c : ConsCounts} {s : State} {peeked nb : Nat} (h : c.Count s.comp peeked)
    (hnb : nb ≤ 2 ^ descsShift) :
    s.releases nb = (Ring.window descsShift s.comp.ring c.released nb).map .release := by
  unfold descsShift at hnb
  rw [State.releases, h.consumer, ← BitVec.ofNat_add,
    Ring.entries_ofNat (by decide) _ (Nat.le_add_right _ _) (by omega), Nat.add_sub_cancel_left]

theorem countP_submits (descs : List XdpDesc) (f : Nat) :
    (descs.map Event.submit).countP (Event.submits f) =
      (descs.map fun desc => chunk desc.addr).count f := by
  rw [List.countP_map, List.count, List.countP_map]
  rfl

theorem countP_releases (addrs : List Nat) (f : Nat) :
    (addrs.map Event.release).countP (Event.releases f) = (addrs.map chunk).count f := by
  rw [List.countP_map, List.count, List.countP_map]
  rfl

theorem conserves_finish {s : State} {f : Nat} (h : s.Conserves f) (sent : Bool) :
    (s.finish sent).Conserves f := by
  unfold State.Conserves at h ⊢
  rw [submitted_finish, released_finish, h]
  cases sent with
  | true => rfl
  | false => rfl

/-- A descriptor that is stored behind the published ones is not on the ring yet. -/
theorem onTx_fill {p : ProdCounts} {s : State} (h : Posted p s) {txIndex : Index} {i : Nat}
    (hpc : s.pc = .fill txIndex i) (hi : i < BATCH_SIZE) (desc : XdpDesc) (pc : Pc) :
    State.onTx { s with tx := s.tx.set txIndex desc, pc := pc } = s.onTx := by
  obtain ⟨hidx, -⟩ := h.index txIndex i hpc
  have htx := h.tx
  rw [hpc] at htx
  have hle : p.submitted + BATCH_SIZE ≤ p.freed + 2 ^ descsShift := htx.reserved_le
  have hfreed := htx.freed_le
  have htaken := htx.taken_le
  have hslot : Ring.slot descsShift txIndex = (p.submitted + i) % 2 ^ descsShift := by
    rw [hidx, slot_ofNat]
  have hset := entries_tx (htx.set txIndex desc)
  rw [State.onTx, State.onTx, entries_tx htx, hset]
  change (Ring.window _ (Function.update s.tx.ring _ desc) _ _).map _ = _
  rw [hslot, Ring.window_update (by omega) (by omega)]

theorem Posted.conserves_submit {p : ProdCounts} {s : State} (h : Posted p s) {f : Nat}
    (hc : s.Conserves f) (hpc : s.pc = .submit) :
    State.Conserves { s with
      tx := s.tx.submit BATCH_SIZE
      log := s.log ++ s.submission BATCH_SIZE
      pc := .wakeup true } f := by
  have htx := h.tx
  rw [hpc] at htx
  have hone : BATCH_SIZE ≤ 2 ^ descsShift := by decide
  have hsub := submission_window htx hone
  have htaken := htx.taken_le
  have hcount : p.submitted + BATCH_SIZE - p.taken = p.submitted - p.taken + BATCH_SIZE := by omega
  have hnext : p.taken + (p.submitted - p.taken) = p.submitted := by omega
  have hon : Ring.entries descsShift s.tx.ring s.taken (s.tx.submit BATCH_SIZE).producer =
      Ring.window descsShift s.tx.ring p.taken (p.submitted + BATCH_SIZE - p.taken) :=
    entries_tx htx.submit
  rw [hcount, Ring.window_add, hnext, ← entries_tx htx] at hon
  unfold State.Conserves at hc ⊢
  rw [submitted_of_log rfl, released_of_log rfl, releases_submission, hsub, countP_submits, hc]
  change _ = ((Ring.entries _ s.tx.ring s.taken (s.tx.submit BATCH_SIZE).producer).map _).count f +
    s.inHands.count f + s.onComp.count f + _
  rw [hon, List.map_append, List.count_append]
  simp only [State.onTx]
  omega

theorem conserves_release {c : ConsCounts} {s : State} {sent : Bool}
    {numComp : Nat} (h : c.Count s.comp numComp) {f : Nat} (hc : s.Conserves f) :
    State.Conserves (State.finish
      { s with comp := s.comp.release numComp, log := s.log ++ s.releases numComp } sent) f := by
  have hrel := releases_window h h.peeked_le_ring
  have hpeeked := h.peeked_le
  have hcount : c.published - c.released = numComp + (c.published - (c.released + numComp)) := by
    omega
  have hon : Ring.entries descsShift s.comp.ring (s.comp.release numComp).consumer s.comp.producer =
      Ring.window descsShift s.comp.ring (c.released + numComp)
        (c.published - (c.released + numComp)) := entries_comp h.release
  have hold := entries_comp h
  rw [hcount, Ring.window_add, ← hon] at hold
  refine conserves_finish ?_ sent
  unfold State.Conserves at hc ⊢
  rw [submitted_of_log rfl, released_of_log rfl, submits_releases, hrel, countP_releases, hc,
    State.onComp, hold, List.map_append, List.count_append]
  change _ = s.onTx.count f + s.inHands.count f + ((Ring.entries _ s.comp.ring
    (s.comp.release numComp).consumer s.comp.producer).map chunk).count f + _
  omega

theorem Posted.conserves_take {p : ProdCounts} {s : State} (h : Posted p s) {f : Nat}
    (hc : s.Conserves f) (hne : s.taken ≠ s.tx.producer) :
    State.Conserves
      { s with hands := s.hands ++ [s.tx.get s.taken], taken := s.taken + 1 } f := by
  have hlt := h.tx.lt_submitted hne
  have hcount : p.submitted - p.taken = p.submitted - (p.taken + 1) + 1 := by omega
  have hget : s.tx.get s.taken = s.tx.ring (p.taken % 2 ^ descsShift) := by
    rw [XskRingProd.get, h.tx.taken, slot_ofNat]
  have hon := entries_tx h.tx
  have hon' := entries_tx (h.tx.take hne)
  rw [hcount, Ring.window_succ, ← hget] at hon
  rw [← hon'] at hon
  unfold State.Conserves at hc ⊢
  rw [State.onTx, hon, List.map_cons, List.count_cons] at hc
  rw [State.inHands, List.map_append, List.count_append, List.map_singleton, List.count_singleton]
  change s.submitted f = ((Ring.entries _ s.tx.ring (s.taken + 1) s.tx.producer).map _).count f +
    (s.inHands.count f + _) + s.onComp.count f + s.released f
  omega

theorem conserves_complete {c : ConsCounts} {s : State} {peeked : Nat}
    (h : c.Count s.comp peeked) {f : Nat} (hc : s.Conserves f) {desc : XdpDesc}
    (hmem : desc ∈ s.hands)
    (hroom : (s.comp.producer - s.comp.consumer).toNat < XSK_RING_CONS__DEFAULT_NUM_DESCS) :
    (s.push desc).Conserves f := by
  have hpeeked := h.peeked_le
  have hlt := h.lt_released hroom
  have hcount : c.published + 1 - c.released = c.published - c.released + 1 := by omega
  have hend : c.released + (c.published - c.released) = c.published := by omega
  have hslot : Ring.slot descsShift s.comp.producer = c.published % 2 ^ descsShift := by
    rw [h.producer, slot_ofNat]
  have hon := entries_comp h
  have hon' : Ring.entries descsShift (Function.update s.comp.ring
      (Ring.slot descsShift s.comp.producer) desc.addr) s.comp.consumer (s.comp.producer + 1) =
      Ring.window descsShift (Function.update s.comp.ring (Ring.slot descsShift s.comp.producer)
        desc.addr) c.released (c.published + 1 - c.released) :=
    entries_comp (h.push hroom desc.addr)
  rw [hcount, Ring.window_succ_right, hend, hslot, Ring.window_update (by omega) (by omega),
    Function.update_self, ← hon] at hon'
  have hperm := ((List.perm_cons_erase hmem).map fun desc => chunk desc.addr).count_eq f
  rw [List.map_cons, List.count_cons] at hperm
  have honComp : (s.push desc).onComp = s.onComp ++ [chunk desc.addr] := by
    rw [State.onComp, State.push, hslot]
    exact (congrArg (List.map chunk) hon').trans (List.map_append ..)
  unfold State.Conserves at hc ⊢
  rw [honComp, List.count_append, List.count_singleton]
  change s.submitted f = s.onTx.count f + ((s.hands.erase desc).map _).count f + _ + s.released f
  change (s.hands.map _).count f = _ at hperm
  simp only [State.inHands] at hc
  omega

theorem Step.conserves {p : ProdCounts} {c : ConsCounts} {s s' : State} {a : Action}
    (hs : Step s a s') (hp : Posted p s) (hcons : c.Count s.comp s.pc.peeked) {f : Nat}
    (hc : s.Conserves f) : s'.Conserves f := by
  cases hs with
  | fill hpc hi =>
    unfold State.Conserves
    rw [onTx_fill hp hpc hi]
    exact hc
  | submit hpc => exact hp.conserves_submit hc hpc
  | notify hpc hwake =>
    unfold State.Conserves at hc ⊢
    rw [submitted_of_log rfl, released_of_log rfl]
    exact hc
  | nothing hpc => exact conserves_finish hc _
  | release hpc =>
    rw [hpc] at hcons
    exact conserves_release hcons hc
  | take hne => exact hp.conserves_take hc hne
  | complete hmem hroom => exact conserves_complete hcons hc hmem hroom
  | _ => exact hc

/-- No descriptor is lost or made up on its way: for every frame there are, after any steps of the
program and the kernel, as many submissions as entries on the tx ring, in the kernel's hands and on
the completion ring, and releases, together. -/
theorem descriptors_conserved (config : Option XskSocketConfig) (acts : List Action) :
    ∀ t ∈ visited step (start config) acts, ∀ f, t.Conserves f := by
  intro t ht f
  have hinv : ∀ s a s', (Inv s ∧ (∃ p, Posted p s) ∧ s.Conserves f) → step s a = some s' →
      Inv s' ∧ (∃ p, Posted p s') ∧ s'.Conserves f := by
    rintro s a s' ⟨hi, ⟨p, hp⟩, hc⟩ hs
    obtain ⟨-, _, c, hcount⟩ := id hi
    exact ⟨hi.of_step hs, hp.of_step hs, (step_cases hs).conserves hp hcount.comp hc⟩
  have hstart : (start config).Conserves f := by
    have htx := entries_tx (counted_start config).tx
    have hcomp := entries_comp (counted_start config).comp
    rw [State.Conserves, State.onTx, State.onComp, htx, hcomp]
    rfl
  exact (visited_invariant hinv ⟨inv_start config, ⟨_, posted_start config⟩, hstart⟩ acts t ht).2.2

/-- One packet has been completed and released, and the next is on the ring. -/
theorem descriptors_conserved_two :
    ∃ t ∈ visited step (start none) (List.replicate 5 (.send 0) ++ [.take, .complete ⟨0, 60⟩] ++
        [.send 0, .send 1] ++ List.replicate 6 (.send 0)),
      t.submitted 0 = 2 ∧ t.onTx = [0] ∧ t.released 0 = 1 ∧ t.Conserves 0 := by
  have hmem := List.getElem_mem (l := visited step (start none) (List.replicate 5 (.send 0) ++
    [.take, .complete ⟨0, 60⟩] ++ [.send 0, .send 1] ++ List.replicate 6 (.send 0))) (n := 15)
    (by decide)
  exact ⟨_, hmem, by decide, by decide, by decide, descriptors_conserved none _ _ hmem 0⟩

end SnippetsC.AfXdp.XdpSockTx
