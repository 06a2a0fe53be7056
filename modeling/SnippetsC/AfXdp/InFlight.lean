import SnippetsC.AfXdp.RingCounts
import SnippetsC.AfXdp.Send
import Mathlib.Data.List.Count

namespace SnippetsC.AfXdp.XdpSockTx

/-! How often a frame is on its way to the network. -/

namespace Event

/-- The submission of a descriptor of frame `f`. -/
def submits (f : Nat) : Event → Bool
  | submit desc => chunk desc.addr == f
  | _ => false

/-- The release of a completion of frame `f`. -/
def releases (f : Nat) : Event → Bool
  | release addr => chunk addr == f
  | _ => false

end Event

namespace State

def submitted (s : State) (f : Nat) : Nat := s.log.countP (Event.submits f)

def released (s : State) (f : Nat) : Nat := s.log.countP (Event.releases f)

/-- At most one descriptor of each frame has been submitted and not yet released. -/
def OnceInFlight (s : State) : Prop := ∀ f, s.submitted f ≤ s.released f + 1

/-- The kernel has taken and completed all descriptors, and the program has released them. -/
def Settled (s : State) : Prop :=
  s.taken = s.tx.producer ∧ s.hands = [] ∧ s.comp.consumer = s.comp.producer

instance (s : State) : Decidable s.Settled := inferInstanceAs (Decidable (_ ∧ _ ∧ _))

/-- If the step submits, everything submitted before is settled. -/
def SubmitsSettled (s : State) (a : Action) : Prop :=
  (∃ k, a = .send k) → s.pc = .submit → s.Settled

end State

namespace Pc

/-- Tx entries reserved and not submitted. -/
def reserved : Pc → Nat
  | fill _ _ | submit => BATCH_SIZE
  | idle | reserve | wakeup _ | peek _ | release _ _ => 0

/-- Completions peeked and not released. -/
def peeked : Pc → Nat
  | release _ numComp => numComp
  | idle | reserve | fill _ _ | submit | wakeup _ | peek _ => 0

end Pc

/-- Every descriptor and every completion is one of the first frame. -/
structure FrameZero (s : State) : Prop where
  tx : ∀ i, chunk (s.tx.ring i).addr = 0
  comp : ∀ i, chunk (s.comp.ring i) = 0
  hands : ∀ desc ∈ s.hands, chunk desc.addr = 0

theorem chunk_frameAddr {i : Nat} (h : i < BATCH_SIZE) : chunk (frameAddr i) = 0 := by
  obtain rfl : i = 0 := Nat.lt_one_iff.mp h
  rfl

theorem frameZero_start (config : Option XskSocketConfig) : FrameZero (start config) where
  tx _ := Nat.zero_div XSK_UMEM__DEFAULT_FRAME_SIZE
  comp _ := Nat.zero_div XSK_UMEM__DEFAULT_FRAME_SIZE
  hands := List.forall_mem_nil _

theorem FrameZero.finish {s : State} (h : FrameZero s) (sent : Bool) : FrameZero (s.finish sent) := by
  cases sent with
  | true => exact { h with }
  | false => exact { h with }

theorem Step.frameZero {s s' : State} {a : Action} (hs : Step s a s') (h : FrameZero s) :
    FrameZero s' := by
  cases hs with
  | fill hpc hi =>
    exact { h with
      tx := by
        intro j
        simp only [XskRingProd.set, Function.update_apply]
        split_ifs with hj
        · exact chunk_frameAddr hi
        · exact h.tx j }
  | nothing hpc => exact h.finish _
  | release hpc =>
    refine FrameZero.finish ?_ _
    exact { h with }
  | take hne =>
    exact { h with
      hands := by
        intro desc hdesc
        rcases List.mem_append.mp hdesc with hold | hnew
        · exact h.hands desc hold
        · rw [List.mem_singleton.mp hnew]
          exact h.tx _ }
  | complete hmem hroom =>
    exact { h with
      comp := by
        intro j
        simp only [State.push, Function.update_apply]
        split_ifs with hj
        · exact h.hands _ hmem
        · exact h.comp j
      hands := fun desc hdesc => h.hands desc (List.mem_of_mem_erase hdesc) }
  | _ => exact { h with }

theorem length_entries {α : Type*} (ring : Nat → α) (a : Index) {nb : Nat}
    (h : nb ≤ 2 ^ descsShift) :
    (Ring.entries descsShift ring a (a + BitVec.ofNat 32 nb)).length = nb := by
  unfold descsShift at h
  rw [Ring.entries, List.length_map, List.length_range, BitVec.add_comm,
    BitVec.add_sub_cancel, BitVec.toNat_ofNat, Nat.mod_eq_of_lt (by omega)]

theorem mem_entries {α : Type*} {ring : Nat → α} {a b : Index} {x : α}
    (h : x ∈ Ring.entries descsShift ring a b) : ∃ i, ring i = x := by
  obtain ⟨j, -, hj⟩ := List.mem_map.mp h
  exact ⟨_, hj⟩

theorem FrameZero.submits_submission {s : State} (h : FrameZero s) (f : Nat) :
    (s.submission BATCH_SIZE).countP (Event.submits f) = if f = 0 then BATCH_SIZE else 0 := by
  rw [submission_eq, List.countP_singleton, Event.submits, h.tx]
  by_cases hf : f = 0
  · subst hf
    rfl
  · rw [if_neg hf, if_neg]
    rw [beq_iff_eq]
    exact Ne.symm hf

theorem releases_submission (s : State) (nb f : Nat) :
    (s.submission nb).countP (Event.releases f) = 0 := by
  rw [List.countP_eq_zero]
  intro e he
  obtain ⟨desc, -, rfl⟩ := List.mem_map.mp he
  exact Bool.false_ne_true

theorem submits_releases (s : State) (nb f : Nat) :
    (s.releases nb).countP (Event.submits f) = 0 := by
  rw [List.countP_eq_zero]
  intro e he
  obtain ⟨addr, -, rfl⟩ := List.mem_map.mp he
  exact Bool.false_ne_true

theorem FrameZero.releases_releases {s : State} (h : FrameZero s) {nb : Nat}
    (hnb : nb ≤ 2 ^ descsShift) : (s.releases nb).countP (Event.releases 0) = nb := by
  have hrel : ∀ e ∈ s.releases nb, Event.releases 0 e = true := by
    intro e he
    obtain ⟨addr, haddr, rfl⟩ := List.mem_map.mp he
    obtain ⟨i, rfl⟩ := mem_entries haddr
    rw [Event.releases, h.comp]
    rfl
  rw [List.countP_eq_length.mpr hrel, State.releases, List.length_map, length_entries _ _ hnb]

/-- The counters belong to the state, and to what has been logged. -/
structure Counted (p : ProdCounts) (c : ConsCounts) (s : State) : Prop where
  tx : p.Count s.tx s.taken s.pc.reserved
  comp : c.Count s.comp s.pc.peeked
  hands : p.taken = c.published + s.hands.length
  submitted : s.submitted 0 = p.submitted
  released : s.released 0 = c.released

theorem counted_start (config : Option XskSocketConfig) :
    Counted ⟨0, 0, 0⟩ ⟨0, 0⟩ (start config) where
  tx := ⟨rfl, rfl, rfl, rfl, Nat.le_refl 0, Nat.le_refl 0, Nat.zero_le _⟩
  comp := ⟨rfl, rfl, rfl, Nat.le_refl 0, Nat.zero_le _⟩
  hands := rfl
  submitted := rfl
  released := rfl

section log

variable {s s' : State} {es : List Event}

theorem submitted_of_log (h : s'.log = s.log ++ es) (f : Nat) :
    s'.submitted f = s.submitted f + es.countP (Event.submits f) := by
  rw [State.submitted, h, List.countP_append, State.submitted]

theorem released_of_log (h : s'.log = s.log ++ es) (f : Nat) :
    s'.released f = s.released f + es.countP (Event.releases f) := by
  rw [State.released, h, List.countP_append, State.released]

theorem released_le_of_log (h : s'.log = s.log ++ es) (f : Nat) : s.released f ≤ s'.released f := by
  rw [released_of_log h]
  exact Nat.le_add_right _ _

theorem submitted_finish (s : State) (sent : Bool) (f : Nat) :
    (s.finish sent).submitted f = s.submitted f := by
  cases sent with
  | true =>
    have hlog : (s.finish true).log = s.log ++ [.returned] := rfl
    exact submitted_of_log hlog f
  | false => rfl

theorem released_finish (s : State) (sent : Bool) (f : Nat) :
    (s.finish sent).released f = s.released f := by
  cases sent with
  | true =>
    have hlog : (s.finish true).log = s.log ++ [.returned] := rfl
    exact released_of_log hlog f
  | false => rfl

end log

/-- Whether `complete_send` returns to the end of `send_packets` or to the reservation, no entry is
reserved or peeked. -/
theorem Counted.finish {p : ProdCounts} {c : ConsCounts} {s : State} (sent : Bool)
    (htx : p.Count s.tx s.taken 0) (hcomp : c.Count s.comp 0)
    (hhands : p.taken = c.published + s.hands.length) (hsub : s.submitted 0 = p.submitted)
    (hrel : s.released 0 = c.released) : Counted p c (s.finish sent) := by
  rw [← submitted_finish s sent] at hsub
  rw [← released_finish s sent] at hrel
  cases sent with
  | true => exact ⟨htx, hcomp, hhands, hsub, hrel⟩
  | false => exact ⟨htx, hcomp, hhands, hsub, hrel⟩

theorem Step.counted {p : ProdCounts} {c : ConsCounts} {s s' : State} {a : Action}
    (hs : Step s a s') (h : Counted p c s) (hz : FrameZero s) : ∃ p' c', Counted p' c' s' := by
  obtain ⟨htx, hcomp, hhands, hsub, hrel⟩ := h
  cases hs with
  | call hpc | wait hpc | filled hpc | quiet hpc =>
    rw [hpc] at htx hcomp
    exact ⟨p, c, htx, hcomp, hhands, hsub, hrel⟩
  | reserve hpc hfree =>
    rw [hpc] at htx hcomp
    exact ⟨p, c, htx.reserve hfree, hcomp, hhands, hsub, hrel⟩
  | fill hpc hi =>
    rw [hpc] at htx hcomp
    exact ⟨p, c, htx.set _ _, hcomp, hhands, hsub, hrel⟩
  | submit hpc =>
    rw [hpc] at htx hcomp
    refine ⟨_, c, htx.submit, hcomp, hhands, ?_, ?_⟩
    · rw [submitted_of_log rfl, hz.submits_submission, hsub]
      rfl
    · rw [released_of_log rfl, releases_submission]
      exact hrel
  | notify hpc hwake =>
    rw [hpc] at htx hcomp
    refine ⟨p, c, htx, hcomp, hhands, ?_, ?_⟩
    · rw [submitted_of_log rfl]
      exact hsub
    · rw [released_of_log rfl]
      exact hrel
  | peek hpc hk =>
    rw [hpc] at htx hcomp
    exact ⟨p, c, htx, hcomp.hold hk.2.1, hhands, hsub, hrel⟩
  | nothing hpc =>
    rw [hpc] at htx hcomp
    exact ⟨p, c, Counted.finish _ htx hcomp hhands hsub hrel⟩
  | release hpc =>
    rw [hpc] at htx hcomp
    have hnb := hz.releases_releases hcomp.peeked_le_ring
    refine ⟨p, _, Counted.finish _ htx hcomp.release hhands ?_ ?_⟩
    · rw [submitted_of_log rfl, submits_releases]
      exact hsub
    · exact (released_of_log rfl 0).trans (congrArg₂ (· + ·) hrel hnb)
  | take hne =>
    refine ⟨_, c, htx.take hne, hcomp, ?_, hsub, hrel⟩
    rw [List.length_append, ← Nat.add_assoc, ← hhands]
    rfl
  | publish hn => exact ⟨_, c, htx.publish hn, hcomp, hhands, hsub, hrel⟩
  | complete hmem hroom =>
    have hpos := List.length_pos_of_mem hmem
    refine ⟨p, _, htx, hcomp.push hroom _, ?_, hsub, hrel⟩
    change p.taken = c.published + 1 + (s.hands.erase _).length
    rw [List.length_erase_of_mem hmem, hhands]
    omega
  | setNeedsWakeup hflag => exact ⟨p, c, htx, hcomp, hhands, hsub, hrel⟩

/-- Everything is settled exactly when there are as many releases as submissions. -/
theorem Counted.settled_iff {p : ProdCounts} {c : ConsCounts} {s : State} (h : Counted p c s) :
    s.Settled ↔ s.submitted 0 ≤ s.released 0 := by
  have htaken := h.tx.taken_le
  have hpeeked := h.comp.peeked_le
  have hhands := h.hands
  rw [State.Settled, h.tx.taken_eq_producer_iff, h.comp.consumer_eq_producer_iff, h.submitted,
    h.released, ← List.length_eq_zero_iff]
  omega

/-- Only a submission adds to the frames in flight. -/
theorem Step.submitted_cases {s s' : State} {a : Action} (hs : Step s a s') :
    ((∃ k, a = .send k) ∧ s.pc = .submit ∧ s'.log = s.log ++ s.submission BATCH_SIZE) ∨
      ((∀ k, a = .send k → s.pc ≠ .submit) ∧
        ∀ f, s'.submitted f = s.submitted f ∧ s.released f ≤ s'.released f) := by
  cases hs with
  | submit hpc => exact .inl ⟨⟨_, rfl⟩, hpc, rfl⟩
  | notify hpc hwake =>
    refine .inr ⟨fun _ _ => by rw [hpc]; nofun, fun f => ⟨?_, ?_⟩⟩
    · rw [submitted_of_log rfl]
      rfl
    · exact released_le_of_log rfl f
  | nothing hpc =>
    refine .inr ⟨fun _ _ => by rw [hpc]; nofun, fun f => ⟨submitted_finish s _ f, ?_⟩⟩
    exact (released_finish s _ f).ge
  | release hpc =>
    refine .inr ⟨fun _ _ => by rw [hpc]; nofun, fun f => ⟨?_, ?_⟩⟩
    · rw [submitted_finish, submitted_of_log rfl, submits_releases]
      rfl
    · rw [released_finish]
      exact released_le_of_log rfl f
  | take hne | publish hn | complete hmem hroom | setNeedsWakeup hflag =>
    exact .inr ⟨nofun, fun f => ⟨rfl, Nat.le_refl _⟩⟩
  | call hpc | wait hpc | reserve hpc hfree | fill hpc hi | filled hpc | quiet hpc | peek hpc hk =>
    exact .inr ⟨fun _ _ => by rw [hpc]; nofun, fun f => ⟨rfl, Nat.le_refl _⟩⟩

/-- What holds in every state of a run. -/
def Inv (s : State) : Prop := FrameZero s ∧ ∃ p c, Counted p c s

theorem inv_start (config : Option XskSocketConfig) : Inv (start config) :=
  ⟨frameZero_start config, _, _, counted_start config⟩

theorem Inv.of_step {s s' : State} {a : Action} (h : Inv s) (hs : step s a = some s') : Inv s' := by
  obtain ⟨hz, p, c, hcount⟩ := h
  have hstep := step_cases hs
  exact ⟨hstep.frameZero hz, hstep.counted hcount hz⟩

/-- A submission puts the first frame in flight once more. -/
theorem FrameZero.submitted_submission {s s' : State} (h : FrameZero s)
    (hlog : s'.log = s.log ++ s.submission BATCH_SIZE) (f : Nat) :
    s'.submitted f = s.submitted f + (if f = 0 then 1 else 0) ∧ s'.released f = s.released f := by
  constructor
  · rw [submitted_of_log hlog, h.submits_submission]
    rfl
  · rw [released_of_log hlog, releases_submission]
    rfl

theorem Inv.onceInFlight_iff {s s' : State} {a : Action} (h : Inv s) (ho : s.OnceInFlight)
    (hs : step s a = some s') :
    s'.OnceInFlight ↔ s.SubmitsSettled a := by
  obtain ⟨hz, p, c, hcount⟩ := h
  rcases (step_cases hs).submitted_cases with ⟨⟨k, rfl⟩, hpc, hlog⟩ | ⟨hpc, hlog⟩
  · have hsub := hz.submitted_submission hlog
    constructor
    · intro h' _ _
      have hle := h' 0
      rw [(hsub 0).1, (hsub 0).2, if_pos rfl] at hle
      exact hcount.settled_iff.mpr (Nat.le_of_succ_le_succ hle)
    · intro hsettled f
      rw [(hsub f).1, (hsub f).2]
      by_cases hf : f = 0
      · subst hf
        rw [if_pos rfl]
        exact Nat.succ_le_succ (hcount.settled_iff.mp (hsettled ⟨k, rfl⟩ hpc))
      · rw [if_neg hf]
        exact ho f
  · refine iff_of_true ?_ (fun ⟨k, ha⟩ hsubmit => absurd hsubmit (hpc k ha))
    intro f
    obtain ⟨heq, hle⟩ := hlog f
    have hof := ho f
    omega

/-- However `send_packets` is called and the kernel steps in between, no frame is ever in flight
twice exactly if every submission finds all earlier ones taken, completed and released. -/
theorem frames_once_in_flight_iff (config : Option XskSocketConfig) (acts : List Action) :
    (∀ t ∈ visited step (start config) acts, t.OnceInFlight) ↔
      ∀ x ∈ departures step (start config) acts, x.1.SubmitsSettled x.2 := by
  have hstart : (start config).OnceInFlight := fun _ => Nat.zero_le _
  exact visited_iff_departures (fun _ _ _ => Inv.of_step) (fun _ _ _ => Inv.onceInFlight_iff)
    (inv_start config) hstart acts

/-- Two calls, and the kernel does nothing: the seven steps of the first and five of the second. -/
theorem sends_frame_in_flight :
    ¬∀ t ∈ visited step (start none) (List.replicate 12 (.send 0)), t.OnceInFlight := by
  intro h
  have hmem := List.getElem_mem (l := visited step (start none) (List.replicate 12 (.send 0)))
    (n := 12) (by decide)
  exact absurd (h _ hmem 0) (by decide)

end SnippetsC.AfXdp.XdpSockTx
