import SnippetsC.AfXdp.Packets
import SnippetsC.AfXdp.Room
import SnippetsC.Framework.Progress

namespace SnippetsC.AfXdp

/-! That a call of `receive` comes to an end, and what is left to print when it does. -/

/-- The steps for `n` rx entries from `idx` on when an entry takes `extra` steps besides the bytes
it prints. -/
def entrySteps (extra : Nat) (ring : Nat → XdpDesc) (idx : Index) : Nat → Nat
  | 0 => 0
  | n + 1 => (ring (Ring.slot descsShift idx)).len + extra + entrySteps extra ring (idx + 1) n

theorem entrySteps_add (extra : Nat) (ring : Nat → XdpDesc) (idx : Index) (m n : Nat) :
    entrySteps extra ring idx (m + n) =
      entrySteps extra ring idx m + entrySteps extra ring (idx + BitVec.ofNat 32 m) n := by
  induction m generalizing idx with
  | zero => simp [entrySteps]
  | succ m ih =>
    have hidx : idx + 1 + BitVec.ofNat 32 m = idx + BitVec.ofNat 32 (m + 1) := by
      rw [← ofNat_succ, BitVec.add_comm (BitVec.ofNat 32 m), BitVec.add_assoc]
    rw [Nat.add_right_comm, entrySteps, entrySteps, ih, hidx]
    omega

theorem entrySteps_extra (ring : Nat → XdpDesc) (idx : Index) (n : Nat) :
    entrySteps 8 ring idx n = entrySteps 3 ring idx n + 5 * n := by
  induction n generalizing idx with
  | zero => rfl
  | succ n ih =>
    rw [entrySteps, entrySteps, ih]
    omega

/-- How many more steps a call of `receive` makes, when its next reservation succeeds. -/
def Pc.steps (ring : Nat → XdpDesc) : Pc → Nat
  | .idle => 0
  | .reserve numRx rxIndex => entrySteps 3 ring rxIndex numRx + 4
  | .handle b => entrySteps 3 ring b.rxIndex (b.numRx - b.i) + 3
  | .print b _ _ length out =>
    length - out.length + 2 + entrySteps 3 ring b.rxIndex (b.numRx - (b.i + 1)) + 3
  | .refill b _ => 1 + entrySteps 3 ring b.rxIndex (b.numRx - (b.i + 1)) + 3
  | .submit _ => 2
  | .release _ => 1

def State.steps (s : State) : Nat := s.pc.steps s.rx.ring

theorem Pc.steps_eq_zero_iff (ring : Nat → XdpDesc) (pc : Pc) : pc.steps ring = 0 ↔ pc = .idle := by
  cases pc with
  | idle => exact iff_of_true rfl rfl
  | _ => exact iff_of_false (by simp only [steps]; omega) (by nofun)

/-- A delivery into a slot that is not among the entries does not change their steps. -/
theorem entrySteps_update (extra : Nat) {ring : Nat → XdpDesc} {a n d : Nat} (h : a + n ≤ d)
    (hlt : d < a + 2 ^ descsShift) (desc : XdpDesc) :
    entrySteps extra (Function.update ring (d % 2 ^ descsShift) desc) (BitVec.ofNat 32 a) n =
      entrySteps extra ring (BitVec.ofNat 32 a) n := by
  induction n generalizing a with
  | zero => rfl
  | succ n ih =>
    rw [entrySteps, entrySteps, slot_ofNat, ofNat_succ, ih (by omega) (by omega),
      Function.update_of_ne (Ring.slot_ne (by omega) hlt)]

theorem Counted.steps_deliver {g : Counters} {s : State} (h : CountedState g s)
    (hroom : (s.rx.producer - s.rx.consumer).toNat < XSK_RING_CONS__DEFAULT_NUM_DESCS)
    (desc : XdpDesc) : (s.push desc).steps = s.steps := by
  have hlt := h.lt_released hroom
  have hpeeked := h.peeked_le
  have hlocals := h.locals
  have hring : (s.push desc).rx.ring =
      Function.update s.rx.ring (g.delivered % 2 ^ descsShift) desc := by
    rw [State.push, h.delivered, slot_ofNat]
  have hpc : (s.push desc).pc = s.pc := rfl
  rw [State.steps, State.steps, hring, hpc]
  cases hs : s.pc with
  | idle | submit numRx | release numRx => rfl
  | reserve numRx rxIndex =>
    rw [hs] at hlocals hpeeked
    change rxIndex = _ at hlocals
    change g.released + numRx ≤ _ at hpeeked
    rw [Pc.steps, Pc.steps, hlocals, entrySteps_update 3 (by omega) (by omega)]
  | handle b =>
    rw [hs] at hlocals hpeeked
    obtain ⟨hrx, _, hle⟩ := hlocals
    change g.released + b.numRx ≤ _ at hpeeked
    rw [Pc.steps, Pc.steps, hrx, entrySteps_update 3 (by omega) (by omega)]
  | print b rxDesc packet length out =>
    rw [hs] at hlocals hpeeked
    obtain ⟨hrx, _, hle, _⟩ := hlocals
    change g.released + b.numRx ≤ _ at hpeeked
    rw [Pc.steps, Pc.steps, hrx, entrySteps_update 3 (by omega) (by omega)]
  | refill b rxDesc =>
    rw [hs] at hlocals hpeeked
    obtain ⟨hrx, _, hle, _⟩ := hlocals
    change g.released + b.numRx ≤ _ at hpeeked
    rw [Pc.steps, Pc.steps, hrx, entrySteps_update 3 (by omega) (by omega)]

/-- The entries of the batch that `receive` has not got to yet. -/
theorem entrySteps_next (extra : Nat) (ring : Nat → XdpDesc) (idx : Index) {i n : Nat} (h : i < n) :
    entrySteps extra ring idx (n - i) =
      (ring (Ring.slot descsShift idx)).len + extra +
        entrySteps extra ring (idx + 1) (n - (i + 1)) := by
  have hn : n - i = n - (i + 1) + 1 := by omega
  rw [hn]
  rfl

/-- Each step of a call is one step less to go. -/
theorem receive_steps {s s' : State} {k : Nat} (hpc : s.pc ≠ .idle)
    (hroom : ∀ numRx rxIndex, s.pc = .reserve numRx rxIndex → numRx ≤ s.fill.free)
    (h : s.receive k = some s') : s'.steps + 1 = s.steps := by
  rw [State.steps, State.steps]
  unfold State.receive at h
  cases hs : s.pc with
  | idle => exact absurd hs hpc
  | reserve numRx rxIndex =>
    have hres := XskRingProd.reserve_eq_some.mpr ⟨hroom numRx rxIndex hs, rfl, rfl⟩
    simp only [hs, hres] at h
    cases h
    simp [Pc.steps]
  | handle b =>
    simp only [hs] at h
    split_ifs at h with hi
    · cases h
      simp only [Pc.steps, entrySteps_next 3 s.rx.ring b.rxIndex hi, List.length_nil]
      omega
    · cases h
      have hnone : b.numRx - b.i = 0 := by omega
      simp [Pc.steps, hnone, entrySteps]
  | print b rxDesc packet length out =>
    simp only [hs] at h
    split_ifs at h with hout
    · cases h
      simp only [Pc.steps, List.length_append, List.length_singleton]
      omega
    · cases h
      simp only [Pc.steps]
      omega
  | refill b rxDesc =>
    simp only [hs] at h
    cases h
    simp only [Pc.steps]
    omega
  | submit numRx =>
    simp only [hs] at h
    cases h
    rfl
  | release numRx =>
    simp only [hs] at h
    cases h
    rfl

/-- A call under way is never stuck. -/
theorem receive_isSome {s : State} (h : s.pc ≠ .idle) (k : Nat) : (s.receive k).isSome := by
  unfold State.receive
  cases hs : s.pc with
  | idle => exact absurd hs h
  | reserve numRx rxIndex =>
    dsimp only
    cases s.fill.reserve numRx with
    | none => rfl
    | some p => rfl
  | handle b =>
    dsimp only
    split_ifs with hi
    · rfl
    · rfl
  | print b rxDesc packet length out =>
    dsimp only
    split_ifs with hout
    · rfl
    · rfl
  | refill b rxDesc | submit numRx | release numRx => rfl

def Action.isReceive : Action → Bool
  | receive _ => true
  | take | publish _ | write _ _ | deliver _ | setNeedsWakeup _ => false

/-- The kernel does not make a call longer. -/
theorem kernel_steps {s s' : State} {a : Action} (h : Reached s) (ha : a.isReceive = false)
    (hs : step s a = some s') : s'.steps = s.steps := by
  obtain ⟨g, hg⟩ := (Owned.of_reached h).tallied
  cases a with
  | receive k => cases ha
  | take =>
    simp only [step, State.take] at hs
    split_ifs at hs
    cases hs
    rfl
  | publish n =>
    simp only [step, State.publish] at hs
    split_ifs at hs
    cases hs
    rfl
  | write addr b =>
    simp only [step, State.write] at hs
    split_ifs at hs
    cases hs
    rfl
  | deliver desc =>
    simp only [step, State.deliver] at hs
    split_ifs at hs with hcond
    cases hs
    exact hg.counted.steps_deliver hcond.2 desc
  | setNeedsWakeup b =>
    cases hs
    rfl

theorem Reached.of_step {s s' : State} {a : Action} (h : Reached s) (hs : step s a = some s') :
    Reached s' := h.next ⟨a, hs⟩

/-- The room that a call finds in the fill ring. -/
theorem Reached.room {s : State} (h : Reached s) (hacc : s.Accounts) {numRx : Nat}
    {rxIndex : Index} (hpc : s.pc = .reserve numRx rxIndex) : numRx ≤ s.fill.free := by
  have howned := Owned.of_reached h
  obtain ⟨g, hg, -, -⟩ := howned.tallied
  have hcount := howned.count hg
  have hpeeked := hg.peeked_le
  rw [hpc] at hpeeked
  change g.released + numRx ≤ g.delivered at hpeeked
  have hhands := hacc.le_hands (takenAccounted_of_reached h)
    (by unfold XSK_RING_PROD__DEFAULT_NUM_DESCS at hcount; omega)
  have hfree := howned.le_free hg (by rw [hpc]; rfl) (by rw [hpc]; rfl) hhands
  omega

theorem run_eq_foldlM (s : State) (acts : List Action) : run s acts = acts.foldlM step s := by
  induction acts generalizing s with
  | nil => rfl
  | cons a acts ih =>
    rw [run, List.foldlM_cons]
    cases step s a with
    | none => rfl
    | some s' => exact ih s'

/-- `receive` is about to reserve room in the fill ring. -/
def Pc.reserves : Pc → Bool
  | reserve _ _ => true
  | idle | handle _ | print _ _ _ _ _ | refill _ _ | submit _ | release _ => false

/-- A step that reserves finds that the kernel's index accounts for what it delivered. -/
def State.ReservesAccounted (s : State) (a : Action) : Prop :=
  s.pc.reserves = true → a.isReceive = true → s.Accounts

instance (s : State) (a : Action) : Decidable (s.ReservesAccounted a) :=
  inferInstanceAs (Decidable (_ → _ → _))

/-- A call under way takes a number of steps that is fixed from its peek on, whatever the kernel
does in between, and is never stuck before it has taken them. -/
theorem receive_returns {s s' : State} (h : Reached s) {acts : List Action}
    (hrun : run s acts = some s')
    (hacc : ∀ x ∈ departures step s acts, x.1.ReservesAccounted x.2)
    (hle : acts.countP Action.isReceive ≤ s.steps) :
    (s'.pc = .idle ↔ acts.countP Action.isReceive = s.steps) ∧
      (s'.pc ≠ .idle → ∀ k, (step s' (.receive k)).isSome) := by
  rw [run_eq_foldlM] at hrun
  have hcount : s'.steps + acts.countP Action.isReceive = s.steps := by
    refine foldlM_countdown (Q := State.ReservesAccounted)
      (fun _ _ _ hr hs => Reached.of_step hr hs) ?_ ?_ h hrun hacc hle
    · intro s a s' hr hq ha hpos hs
      cases a with
      | receive k =>
        refine receive_steps ?_ ?_ hs
        · intro hidle
          have hzero : s.steps = 0 := (Pc.steps_eq_zero_iff _ _).mpr hidle
          omega
        · intro numRx rxIndex hpc
          exact hr.room (hq (by rw [hpc]; rfl) rfl) hpc
      | _ => cases ha
    · intro s a s' hr ha hs
      exact kernel_steps hr ha hs
  refine ⟨(Pc.steps_eq_zero_iff s'.rx.ring s'.pc).symm.trans ?_, fun hpc k => receive_isSome hpc k⟩
  change s'.steps = 0 ↔ _
  omega

/-- A packet of one byte: eight steps from its peek on, with the kernel stepping in between. -/
theorem receive_returns_one : ∃ s s', run start
      [.take, .take, .write 2 0xab, .deliver ⟨2, 1⟩, .publish 1, .receive 1] = some s ∧
    s.steps = 8 ∧
    run s ([.receive 0, .receive 0, .deliver ⟨4096, 60⟩, .take] ++ List.replicate 6 (.receive 0)) =
      some s' ∧ s'.pc = .idle :=
  ⟨_, _, rfl, rfl, rfl, (receive_returns (reached_run (.start main_eq)
      [.take, .take, .write 2 0xab, .deliver ⟨2, 1⟩, .publish 1, .receive 1] rfl)
    (show run _ ([.receive 0, .receive 0, .deliver ⟨4096, 60⟩, .take] ++
      List.replicate 6 (.receive 0)) = some _ from rfl) (by decide) (by decide)).1.mpr (by decide)⟩

/-- What the steps of `receive` leave to the kernel. -/
theorem receive_kernel {s s' : State} {k : Nat} (h : s.receive k = some s') :
    s'.taken = s.taken ∧ s'.fill.consumer = s.fill.consumer ∧ s'.hands = s.hands ∧
      s'.delivered = s.delivered ∧ s'.rx.ring = s.rx.ring ∧ s'.rx.producer = s.rx.producer := by
  unfold State.receive at h
  cases hs : s.pc with
  | idle =>
    simp only [hs] at h
    split_ifs at h with hk h0
    · cases h
      simp [State.wakeup]
    · cases h
      simp [XskRingCons.hold]
  | reserve numRx rxIndex =>
    simp only [hs] at h
    cases hres : s.fill.reserve numRx with
    | none =>
      simp only [hres] at h
      cases h
      simp [State.wakeup]
    | some p =>
      obtain ⟨-, -, hfill⟩ := XskRingProd.reserve_eq_some.mp hres
      simp only [hres] at h
      cases h
      simp [hfill]
  | handle b =>
    simp only [hs] at h
    split_ifs at h with hi
    · cases h
      simp
    · cases h
      simp
  | print b rxDesc packet length out =>
    simp only [hs] at h
    split_ifs at h with hout
    · cases h
      simp
    · cases h
      simp
  | refill b rxDesc =>
    simp only [hs] at h
    cases h
    simp [XskRingProd.set]
  | submit numRx =>
    simp only [hs] at h
    cases h
    simp [XskRingProd.submit]
  | release numRx =>
    simp only [hs] at h
    cases h
    simp [XskRingCons.release]

/-- Only a peek takes entries from the rx ring. -/
theorem receive_cachedCons {s s' : State} {k : Nat} (hpc : s.pc ≠ .idle)
    (h : s.receive k = some s') : s'.rx.cachedCons = s.rx.cachedCons := by
  cases receive_cases h with
  | peek hidle hk h0 => exact absurd hidle hpc
  | release _ => rfl
  | _ => rfl

/-- The steps `receive` needs for the rest of its call and for everything that waits on the rx
ring: an entry may need a peek, a reservation, an exit, a submission and a release of its own. -/
def State.backlog (s : State) : Nat :=
  s.steps + entrySteps 8 s.rx.ring s.rx.cachedCons s.rx.available

theorem XskRingCons.available_hold {r : XskRingCons XdpDesc} {k : Nat} (h : k ≤ r.available) :
    (r.hold k).available = r.available - k := by
  have hlt := (r.producer - r.cachedCons).isLt
  change k ≤ (r.producer - r.cachedCons).toNat at h
  have hk : (BitVec.ofNat 32 k).toNat = k := by
    rw [BitVec.toNat_ofNat, Nat.mod_eq_of_lt (by omega)]
  change (r.producer - (r.cachedCons + BitVec.ofNat 32 k)).toNat =
    (r.producer - r.cachedCons).toNat - k
  rw [← BitVec.sub_sub, BitVec.toNat_sub_of_le, hk]
  rw [BitVec.le_def, hk]
  exact h

namespace State

/-- Between two calls, and nothing waits on the rx ring. -/
def Drained (s : State) : Prop := s.pc = .idle ∧ s.rx.available = 0

instance (s : State) : Decidable s.Drained := inferInstanceAs (Decidable (_ ∧ _))

theorem drained_of_backlog {s : State} (h : s.backlog = 0) : s.Drained := by
  unfold backlog at h
  have hpc : s.steps = 0 := by omega
  refine ⟨(Pc.steps_eq_zero_iff _ _).mp hpc, ?_⟩
  cases hn : s.rx.available with
  | zero => rfl
  | succ n =>
    rw [hn, entrySteps] at h
    omega

end State

/-- With nothing to peek, `receive` returns at once. -/
theorem receive_drained {s s' : State} {k : Nat} (hd : s.Drained) (h : s.receive k = some s') :
    s'.Drained := by
  obtain ⟨hpc, hrx⟩ := hd
  simp only [State.receive, hpc] at h
  split_ifs at h with hk h0
  · cases h
    exact ⟨hpc, hrx⟩
  · have hle := hk.2.1
    omega

/-- Each step of `receive` works off a part of the backlog. -/
theorem receive_backlog {s s' : State} {k : Nat} (hd : ¬s.Drained)
    (hroom : ∀ numRx rxIndex, s.pc = .reserve numRx rxIndex → numRx ≤ s.fill.free)
    (h : s.receive k = some s') : s'.backlog < s.backlog := by
  by_cases hpc : s.pc = .idle
  · simp only [State.receive, hpc] at h
    split_ifs at h with hk h0
    · exact absurd ⟨hpc, hk.2.2 h0⟩ hd
    · obtain ⟨n, hn⟩ := Nat.exists_eq_add_of_le hk.2.1
      have hidle : s.steps = 0 := (Pc.steps_eq_zero_iff _ _).mpr hpc
      have hleft : s.rx.available - k = n := by omega
      have hwait := entrySteps_add 8 s.rx.ring s.rx.cachedCons k n
      have hextra := entrySteps_extra s.rx.ring s.rx.cachedCons k
      cases h
      rw [State.backlog, State.backlog, XskRingCons.available_hold hk.2.1, hleft, hidle, hn, hwait]
      change entrySteps 3 s.rx.ring s.rx.cachedCons k + 4 + entrySteps 8 s.rx.ring
        (s.rx.cachedCons + BitVec.ofNat 32 k) n < _
      omega
  · obtain ⟨-, -, -, -, hring, hprod⟩ := receive_kernel h
    have hcons := receive_cachedCons hpc h
    have hsteps := receive_steps hpc hroom h
    rw [State.backlog, State.backlog, XskRingCons.available, hring, hprod, hcons]
    change s'.steps + entrySteps 8 s.rx.ring s.rx.cachedCons s.rx.available < _
    omega

theorem receive_accounts {s s' : State} {k : Nat} (hacc : s.Accounts)
    (h : s.receive k = some s') : s'.Accounts := by
  obtain ⟨htaken, hfreed, -, hdel, -, -⟩ := receive_kernel h
  rw [State.Accounts, htaken, hfreed, hdel]
  exact hacc

/-- There is always a next step of `receive`. -/
theorem receive_ready (s : State) : ∃ k s', s.receive k = some s' := by
  by_cases hpc : s.pc = .idle
  · have hpos : 0 < BATCH_SIZE := by decide
    have hpeek := s.rx.peeks_min hpos
    refine ⟨min BATCH_SIZE s.rx.available, Option.isSome_iff_exists.mp ?_⟩
    simp only [State.receive, hpc, if_pos hpeek]
    split_ifs
    · rfl
    · rfl
  · exact ⟨0, Option.isSome_iff_exists.mp (receive_isSome hpc 0)⟩

theorem receive_runs (s : State) (n : Nat) :
    ∃ (ks : List Nat) (s' : State), ks.length = n ∧ ks.foldlM State.receive s = some s' := by
  induction n generalizing s with
  | zero => exact ⟨[], s, rfl, rfl⟩
  | succ n ih =>
    obtain ⟨k, t, hk⟩ := receive_ready s
    obtain ⟨ks, s', hlen, hrun⟩ := ih t
    exact ⟨k :: ks, s', congrArg (· + 1) hlen, foldlM_cons_eq_some.mpr ⟨t, hk, hrun⟩⟩

/-- What the kernel left of the state stays as it is while only `receive` steps. -/
theorem receives_kernel {s s' : State} {ks : List Nat}
    (hrun : ks.foldlM State.receive s = some s') :
    s'.hands = s.hands ∧ s'.delivered = s.delivered := by
  refine foldlM_invariant (fun t => t.hands = s.hands ∧ t.delivered = s.delivered) ?_
    ⟨rfl, rfl⟩ hrun
  rintro t k t' ⟨hhands, hdel⟩ hs
  obtain ⟨-, -, hhands', hdel', -, -⟩ := receive_kernel hs
  exact ⟨hhands'.trans hhands, hdel'.trans hdel⟩

/-- Left alone by the kernel, `receive` can always go on, and once it has worked off the backlog it
has printed every packet that was delivered and posted every frame that is not in the kernel's
hands. -/
theorem receive_drains {s : State} (h : Reached s) (hacc : s.Accounts) :
    (∃ (ks : List Nat) (s' : State),
        ks.length = s.backlog ∧ ks.foldlM State.receive s = some s') ∧
      ∀ (ks : List Nat) (s' : State), ks.foldlM State.receive s = some s' → s.backlog ≤ ks.length →
        s'.pc = .idle ∧ s'.hands = s.hands ∧ s'.printed.length = s.delivered.length ∧
          ((∀ d ∈ s.delivered, d.Fits) → s'.printed = s.delivered.map Delivery.content) ∧
          (s'.onFill ++ s'.hands).Perm (List.range XSK_RING_PROD__DEFAULT_NUM_DESCS) := by
  refine ⟨receive_runs s s.backlog, ?_⟩
  intro ks s' hrun hlong
  have hinv : ∀ (t : State) k t', Reached t ∧ t.Accounts → t.receive k = some t' →
      Reached t' ∧ t'.Accounts := fun t k t' ht hs =>
    ⟨Reached.of_step (a := .receive k) ht.1 hs, receive_accounts ht.2 hs⟩
  have hdrained : s'.Drained := by
    refine foldlM_done (m := State.backlog) hinv (fun t _ => State.drained_of_backlog)
      (fun t k t' _ => receive_drained) ?_ ⟨h, hacc⟩ hrun (.inr hlong)
    intro t k t' ht hd hs
    exact receive_backlog hd (fun numRx rxIndex hpc => ht.1.room ht.2 hpc) hs
  obtain ⟨hreach, -⟩ := foldlM_invariant _ hinv ⟨h, hacc⟩ hrun
  obtain ⟨hpc, hrx⟩ := hdrained
  obtain ⟨hhands, hdel⟩ := receives_kernel hrun
  have howned := Owned.of_reached hreach
  obtain ⟨g, hg⟩ := howned.tallied
  -- nothing is peeked or waits, so the released entries are all that were delivered
  have hall : g.delivered = g.released := by
    have hpeeked := hg.counted.peeked_le
    rw [hg.counted.available_eq, hpc] at hrx
    rw [hpc] at hpeeked
    change g.released + 0 ≤ _ at hpeeked
    change g.delivered - (g.released + 0) = 0 at hrx
    omega
  have hlen : s'.printed.length = s.delivered.length := by
    have hprinted := hg.printed
    rw [hpc] at hprinted
    rw [hprinted, ← hdel, hg.delivered, hall]
    rfl
  have honRx : s'.onRx = [] := by
    rw [hg.counted.onRx_eq, hpc, hall]
    change (Ring.window _ _ _ (g.released - (g.released + 0))).map _ = _
    rw [Nat.add_zero, Nat.sub_self]
    rfl
  refine ⟨hpc, hhands, hlen, ?_, ?_⟩
  · intro hfits
    rw [← hdel] at hfits hlen ⊢
    have hpre := printed_prefix (Recorded.of_reached hreach) hg hfits
    exact hpre.eq_of_length (by rw [List.length_map, hlen])
  · have hperm := howned.perm
    rwa [State.places, Circulation.all, honRx, List.append_nil] at hperm

/-- A packet of one byte that waits on the rx ring. -/
theorem receive_drains_one : ∃ s s', run start
      [.take, .write 2 0xab, .deliver ⟨2, 1⟩, .publish 1] = some s ∧ s.backlog = 9 ∧
    (1 :: List.replicate 8 0).foldlM State.receive s = some s' ∧ s'.printed = [[0xab]] :=
  ⟨_, _, rfl, rfl, rfl, ((receive_drains (reached_run (.start main_eq)
      [.take, .write 2 0xab, .deliver ⟨2, 1⟩, .publish 1] rfl) (by decide)).2
    (1 :: List.replicate 8 0) _ rfl (by decide)).2.2.2.1 (by decide)⟩

end SnippetsC.AfXdp
