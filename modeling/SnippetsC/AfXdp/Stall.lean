import SnippetsC.AfXdp.InFlight
import SnippetsC.AfXdp.Wakeup
import SnippetsC.Framework.Progress

namespace SnippetsC.AfXdp.XdpSockTx

/-! How far `xdp-sock-tx` gets when the kernel waits to be told. -/

namespace State

def returned (s : State) : Nat := s.log.count .returned

/-- A kernel in copy mode takes descriptors only during a `sendto`, so not before the first one. -/
def CopyMode (s : State) (a : Action) : Prop := a = .take → .sendto ∈ s.log

instance (s : State) (a : Action) : Decidable (s.CopyMode a) := inferInstanceAs (Decidable (_ → _))

/-- Every call submits one batch, and the last one may not have returned yet. -/
def CallsCounted (s : State) : Prop := s.returned + s.pc.sent.toNat = s.submitted 0

end State

section log

variable {s s' : State} {es : List Event}

theorem returned_of_log (h : s'.log = s.log ++ es) :
    s'.returned = s.returned + es.count .returned := by
  rw [State.returned, h, List.count_append, State.returned]

theorem returned_submission (s : State) (nb : Nat) : (s.submission nb).count .returned = 0 := by
  simp [State.submission, List.count_eq_zero]

theorem returned_releases (s : State) (nb : Nat) : (s.releases nb).count .returned = 0 := by
  simp [State.releases, List.count_eq_zero]

end log

theorem callsCounted_finish {s : State} {sent : Bool} (h : s.CallsCounted) (hpc : s.pc.sent = sent) :
    (s.finish sent).CallsCounted := by
  rw [State.CallsCounted, hpc] at h
  rw [State.CallsCounted, submitted_finish, ← h]
  cases sent with
  | true =>
    have hlog : (s.finish true).log = s.log ++ [.returned] := rfl
    rw [returned_of_log hlog]
    rfl
  | false => rfl

theorem Step.callsCounted {s s' : State} {a : Action} (hs : Step s a s') (hz : FrameZero s)
    (h : s.CallsCounted) : s'.CallsCounted := by
  cases hs with
  | submit hpc =>
    rw [State.CallsCounted, hpc] at h
    rw [State.CallsCounted, returned_of_log rfl, submitted_of_log rfl, returned_submission,
      hz.submits_submission, ← h]
    rfl
  | notify hpc hwake =>
    rw [State.CallsCounted, hpc] at h
    rw [State.CallsCounted, returned_of_log rfl, submitted_of_log rfl]
    exact h
  | nothing hpc => exact callsCounted_finish h (by rw [hpc]; rfl)
  | release hpc =>
    refine callsCounted_finish ?_ (by rw [hpc]; rfl)
    rw [State.CallsCounted, returned_of_log rfl, submitted_of_log rfl, returned_releases,
      submits_releases]
    exact h
  | call hpc | wait hpc | reserve hpc hfree | fill hpc hi | filled hpc | quiet hpc | peek hpc hk =>
    rw [State.CallsCounted, hpc] at h
    exact h
  | take hne | publish hn | complete hmem hroom | setNeedsWakeup hflag => exact h

/-- What `Step.counted` says, with the number of descriptors that the kernel takes. -/
theorem Step.counted_taken {p : ProdCounts} {c : ConsCounts} {s s' : State} {a : Action}
    (hs : Step s a s') (h : Counted p c s) (hz : FrameZero s) :
    ∃ p' c', Counted p' c' s' ∧ p'.taken = p.taken + if a = .take then 1 else 0 := by
  obtain ⟨htx, hcomp, hhands, hsub, hrel⟩ := h
  cases hs with
  | call hpc | wait hpc | filled hpc | quiet hpc =>
    rw [hpc] at htx hcomp
    exact ⟨p, c, ⟨htx, hcomp, hhands, hsub, hrel⟩, rfl⟩
  | reserve hpc hfree =>
    rw [hpc] at htx hcomp
    exact ⟨p, c, ⟨htx.reserve hfree, hcomp, hhands, hsub, hrel⟩, rfl⟩
  | fill hpc hi =>
    rw [hpc] at htx hcomp
    exact ⟨p, c, ⟨htx.set _ _, hcomp, hhands, hsub, hrel⟩, rfl⟩
  | submit hpc =>
    rw [hpc] at htx hcomp
    refine ⟨_, c, ⟨htx.submit, hcomp, hhands, ?_, ?_⟩, rfl⟩
    · rw [submitted_of_log rfl, hz.submits_submission, hsub]
      rfl
    · rw [released_of_log rfl, releases_submission]
      exact hrel
  | notify hpc hwake =>
    rw [hpc] at htx hcomp
    refine ⟨p, c, ⟨htx, hcomp, hhands, ?_, ?_⟩, rfl⟩
    · rw [submitted_of_log rfl]
      exact hsub
    · rw [released_of_log rfl]
      exact hrel
  | peek hpc hk =>
    rw [hpc] at htx hcomp
    exact ⟨p, c, ⟨htx, hcomp.hold hk.2.1, hhands, hsub, hrel⟩, rfl⟩
  | nothing hpc =>
    rw [hpc] at htx hcomp
    exact ⟨p, c, Counted.finish _ htx hcomp hhands hsub hrel, rfl⟩
  | release hpc =>
    rw [hpc] at htx hcomp
    have hnb := hz.releases_releases hcomp.peeked_le_ring
    refine ⟨p, _, Counted.finish _ htx hcomp.release hhands ?_ ?_, rfl⟩
    · rw [submitted_of_log rfl, submits_releases]
      exact hsub
    · exact (released_of_log rfl 0).trans (congrArg₂ (· + ·) hrel hnb)
  | take hne =>
    refine ⟨_, c, ⟨htx.take hne, hcomp, ?_, hsub, hrel⟩, rfl⟩
    rw [List.length_append, ← Nat.add_assoc, ← hhands]
    rfl
  | publish hn => exact ⟨_, c, ⟨htx.publish hn, hcomp, hhands, hsub, hrel⟩, rfl⟩
  | complete hmem hroom =>
    have hpos := List.length_pos_of_mem hmem
    refine ⟨p, _, ⟨htx, hcomp.push hroom _, ?_, hsub, hrel⟩, rfl⟩
    change p.taken = c.published + 1 + (s.hands.erase _).length
    rw [List.length_erase_of_mem hmem, hhands]
    omega
  | setNeedsWakeup hflag => exact ⟨p, c, ⟨htx, hcomp, hhands, hsub, hrel⟩, rfl⟩

theorem run_counted_taken {p : ProdCounts} {c : ConsCounts} {s t : State} (h : Counted p c s)
    (hz : FrameZero s) {acts : List Action} (hrun : acts.foldlM step s = some t) :
    ∃ p' c', Counted p' c' t ∧ p'.taken = p.taken + acts.count .take := by
  induction acts generalizing p c s with
  | nil =>
    cases hrun
    exact ⟨p, c, h, rfl⟩
  | cons a acts ih =>
    obtain ⟨s₁, hs, hrest⟩ := foldlM_cons_eq_some.mp hrun
    have hstep := step_cases hs
    obtain ⟨p₁, c₁, h₁, htaken₁⟩ := hstep.counted_taken h hz
    obtain ⟨p', c', h', htaken⟩ := ih h₁ (hstep.frameZero hz) hrest
    refine ⟨p', c', h', ?_⟩
    rw [htaken, htaken₁, List.count_cons]
    simp only [beq_iff_eq]
    omega

theorem run_callsCounted {config : Option XskSocketConfig} {acts : List Action} {t : State}
    (hrun : acts.foldlM step (start config) = some t) : t.CallsCounted := by
  have hinv : FrameZero t ∧ t.CallsCounted := by
    refine foldlM_invariant (fun s => FrameZero s ∧ s.CallsCounted) ?_
      ⟨frameZero_start config, rfl⟩ hrun
    rintro s a s' ⟨hz, hcalls⟩ hs
    exact ⟨(step_cases hs).frameZero hz, (step_cases hs).callsCounted hz hcalls⟩
  exact hinv.2

/-- Without a configuration the kernel is never told, so in copy mode it takes nothing. -/
theorem count_take_of_copyMode {acts : List Action} {t : State}
    (hrun : acts.foldlM step (start none) = some t)
    (hcopy : ∀ x ∈ departures step (start none) acts, x.1.CopyMode x.2) :
    acts.count .take = 0 := by
  have hsilent : Silent (start none) := ⟨rfl, rfl, List.not_mem_nil, nofun, nofun⟩
  have hquiet : ∀ x ∈ departures step (start none) acts, Silent x.1 :=
    departures_invariant (fun _ _ _ h hs => (step_cases hs).silent h) hsilent acts
  rw [List.count_eq_zero, ← map_snd_departures hrun]
  intro hmem
  obtain ⟨x, hx, htake⟩ := List.mem_map.mp hmem
  exact (hquiet x hx).sendto (hcopy x hx htake)

/-- At most a ring of calls return beyond those whose descriptors the kernel has taken. -/
theorem returned_le {config : Option XskSocketConfig} {acts : List Action} {t : State}
    (hrun : acts.foldlM step (start config) = some t) :
    t.returned ≤ acts.count .take + XSK_RING_PROD__DEFAULT_NUM_DESCS := by
  obtain ⟨p, c, h, htaken⟩ := run_counted_taken (counted_start config) (frameZero_start config) hrun
  have hle := h.tx.reserved_le
  have hfreed := h.tx.freed_le
  have hsub := h.submitted
  have hcalls := run_callsCounted hrun
  unfold State.CallsCounted at hcalls
  rw [two_pow_descsShift] at hle
  change p.taken = 0 + _ at htaken
  omega

/-- On the default configuration and a kernel in copy mode nothing is ever transmitted, and after a
ring of calls `send_packets` waits for good: its reservation succeeds only in the calls before. -/
theorem default_stalls {acts : List Action} {t : State}
    (hrun : acts.foldlM step (start none) = some t)
    (hcopy : ∀ x ∈ departures step (start none) acts, x.1.CopyMode x.2) :
    t.hands = [] ∧ t.released 0 = 0 ∧ t.returned ≤ XSK_RING_PROD__DEFAULT_NUM_DESCS ∧
      (t.pc = .reserve → ((t.tx.reserve BATCH_SIZE).isSome ↔
        t.returned < XSK_RING_PROD__DEFAULT_NUM_DESCS)) := by
  have hnone := count_take_of_copyMode hrun hcopy
  have hret := returned_le hrun
  obtain ⟨p, c, h, htaken⟩ := run_counted_taken (counted_start none) (frameZero_start none) hrun
  rw [hnone] at htaken hret
  change p.taken = 0 at htaken
  have hhands := h.hands
  have hpeeked := h.comp.peeked_le
  have hfreed := h.tx.freed_le
  refine ⟨List.eq_nil_of_length_eq_zero (by omega), ?_, by omega, ?_⟩
  · rw [h.released]
    omega
  · intro hpc
    have hcalls := run_callsCounted hrun
    have hsub := h.submitted
    have hfree := h.tx.free_eq
    rw [State.CallsCounted, hpc] at hcalls
    rw [hpc, two_pow_descsShift] at hfree
    change t.returned + 0 = _ at hcalls
    change t.tx.free = _ - (p.submitted + 0) at hfree
    unfold XskRingProd.reserve
    split_ifs with hroom
    · rw [hfree] at hroom
      unfold BATCH_SIZE at hroom
      exact iff_of_true rfl (by omega)
    · rw [hfree] at hroom
      unfold BATCH_SIZE at hroom
      exact iff_of_false Bool.false_ne_true (by omega)

/-- The first call returns, and the second finds room. -/
theorem default_stalls_one : ∃ t, (List.replicate 8 (.send 0)).foldlM step (start none) = some t ∧
    t.returned = 1 ∧ t.hands = [] ∧ (t.tx.reserve BATCH_SIZE).isSome := by
  have hrun : (List.replicate 8 (.send 0)).foldlM step (start none) = some _ := rfl
  have h := default_stalls hrun (by decide)
  exact ⟨_, rfl, by decide, h.1, (h.2.2.2 rfl).mpr (by decide)⟩

end SnippetsC.AfXdp.XdpSockTx
