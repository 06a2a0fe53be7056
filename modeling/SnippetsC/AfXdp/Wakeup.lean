import SnippetsC.AfXdp.Send

namespace SnippetsC.AfXdp.XdpSockTx

/-! Whether the kernel is told about what `send_packets` submits. -/

/-- Before a call returns there is a `sendto` behind each descriptor it submitted. -/
def Announced (log : List Event) : Prop :=
  ∀ desc l₁ l₂ l₃, log = l₁ ++ .submit desc :: (l₂ ++ .returned :: l₃) → .returned ∉ l₂ →
    .sendto ∈ l₂

theorem announced_of_not_returned {log : List Event} (h : .returned ∉ log) : Announced log := by
  rintro desc l₁ l₂ l₃ rfl -
  exact absurd (by simp) h

theorem Announced.of_append {log es : List Event} (h : Announced (log ++ es)) : Announced log := by
  rintro desc l₁ l₂ l₃ rfl hret
  refine h desc l₁ l₂ (l₃ ++ es) ?_ hret
  simp only [List.append_assoc, List.cons_append]

theorem not_announced {desc : XdpDesc} {l r : List Event} (hto : .sendto ∉ r)
    (hret : .returned ∉ r) : ¬Announced (l ++ .submit desc :: r ++ [.returned]) := by
  intro h
  refine hto (h desc l r [] ?_ hret)
  rw [List.append_assoc, List.cons_append]

/-- `send_packets` has submitted and is in its last `complete_send`. -/
def Pc.sent : Pc → Bool
  | wakeup sent | peek sent | release sent _ => sent
  | idle | reserve | fill _ _ | submit => false

/-- The last submission is of a call that has not returned. -/
def Submitting (log : List Event) : Prop :=
  ∃ l desc r, log = l ++ .submit desc :: r ∧ .returned ∉ r

theorem Submitting.append {log es : List Event} (h : Submitting log) (hret : .returned ∉ es) :
    Submitting (log ++ es) := by
  obtain ⟨l, desc, r, rfl, hr⟩ := h
  refine ⟨l, desc, r ++ es, List.append_assoc _ _ _, ?_⟩
  exact List.not_mem_append hr hret

/-- The flag is down for good, so nothing was announced when a call has returned. -/
structure Silent (s : State) : Prop where
  flags : s.bindFlags = bindFlags none
  wake : s.needsWakeup = false
  sendto : .sendto ∉ s.log
  sent : s.pc.sent = true → Submitting s.log
  returned : .returned ∈ s.log → ¬Announced s.log

theorem Silent.log {s s' : State} {es : List Event} (h : Silent s) (hlog : s'.log = s.log ++ es)
    (hflags : s'.bindFlags = s.bindFlags) (hwake : s'.needsWakeup = s.needsWakeup)
    (hto : .sendto ∉ es) (hret : .returned ∉ es) (hsent : s'.pc.sent = true → Submitting s'.log) :
    Silent s' where
  flags := hflags.trans h.flags
  wake := hwake.trans h.wake
  sendto := by
    rw [hlog]
    exact List.not_mem_append h.sendto hto
  sent := hsent
  returned := by
    rw [hlog]
    intro hmem hann
    exact h.returned ((List.mem_append.mp hmem).resolve_right hret) hann.of_append

theorem Silent.finish {s : State} {sent : Bool} (h : Silent s) (hpc : s.pc.sent = sent) :
    Silent (s.finish sent) := by
  cases sent with
  | false => exact { h with sent := nofun }
  | true =>
    obtain ⟨l, desc, r, hlog, hret⟩ := h.sent hpc
    have hto := h.sendto
    rw [hlog] at hto
    exact { h with
      sendto := List.not_mem_append h.sendto (by decide)
      sent := nofun
      returned := by
        intro _
        change ¬Announced (s.log ++ [.returned])
        rw [hlog]
        exact not_announced (fun hmem => hto (by simp [hmem])) hret }

theorem Step.silent {s s' : State} {a : Action} (hs : Step s a s') (h : Silent s) : Silent s' := by
  cases hs with
  | call hpc | wait hpc | reserve hpc hfree | fill hpc hi | filled hpc =>
    exact { h with sent := nofun }
  | submit hpc =>
    rw [submission_eq]
    refine h.log rfl rfl rfl (by simp) (by simp) ?_
    intro _
    exact ⟨s.log, _, [], rfl, List.not_mem_nil⟩
  | notify hpc hwake =>
    rw [h.wake] at hwake
    cases hwake
  | quiet hpc | peek hpc hk =>
    have hsent := h.sent
    rw [hpc] at hsent
    exact { h with sent := hsent }
  | nothing hpc => exact h.finish (by rw [hpc]; rfl)
  | release hpc =>
    have hto : ∀ nb, Event.sendto ∉ s.releases nb := fun nb => by simp [State.releases]
    have hret : ∀ nb, Event.returned ∉ s.releases nb := fun nb => by simp [State.releases]
    refine Silent.finish ?_ (by rw [hpc]; rfl)
    refine h.log rfl rfl rfl (hto _) (hret _) ?_
    intro hsent
    exact (h.sent hsent).append (hret _)
  | take hne => exact { h with }
  | publish hn => exact { h with }
  | complete hmem hroom => exact { h with }
  | setNeedsWakeup hflag =>
    rename_i b
    cases b with
    | false => exact { h with wake := rfl }
    | true =>
      refine absurd ?_ (hflag rfl)
      rw [h.flags]
      rfl

/-- On the default configuration no call of `send_packets` announces what it submitted, whatever
the rings hold and the kernel does: the submissions are announced only as long as no call has
returned. -/
theorem announced_iff_not_returned (tx : XskRingProd XdpDesc) (comp : XskRingCons Nat)
    (taken : Index) (hands : List XdpDesc) (acts : List Action) :
    ∀ t ∈ visited step (between none tx comp taken hands) acts,
      Announced t.log ↔ .returned ∉ t.log := by
  intro t ht
  have hstart : Silent (between none tx comp taken hands) :=
    ⟨rfl, rfl, List.not_mem_nil, nofun, nofun⟩
  have hsilent := visited_invariant (fun _ _ _ h hs => (step_cases hs).silent h) hstart acts t ht
  constructor
  · intro hann hret
    exact hsilent.returned hret hann
  · exact announced_of_not_returned

/-- One call, with the completion of an earlier descriptor to release. -/
theorem announced_iff_not_returned_one : ∃ t ∈ visited step
      (between none ⟨fun _ => ⟨0, 0⟩, 1, 1, 1⟩ ⟨fun _ => 0, 1, 0, 0⟩ 1 [])
      (List.replicate 6 (.send 0) ++ [.send 1, .send 0]),
    .returned ∈ t.log ∧ ¬Announced t.log := by
  have hmem := List.getElem_mem (l := visited step
    (between none ⟨fun _ => ⟨0, 0⟩, 1, 1, 1⟩ ⟨fun _ => 0, 1, 0, 0⟩ 1 [])
    (List.replicate 6 (.send 0) ++ [.send 1, .send 0])) (n := 8) (by decide)
  refine ⟨_, hmem, by decide, ?_⟩
  intro hann
  exact absurd ((announced_iff_not_returned _ _ _ _ _ _ hmem).mp hann) (by decide)

/-- One call on new rings: it submits and returns. -/
theorem submits_unannounced :
    ¬∀ t ∈ visited step (start none) (List.replicate 7 (.send 0)), Announced t.log := by
  intro h
  have hmem := List.getElem_mem (l := visited step (start none) (List.replicate 7 (.send 0)))
    (n := 7) (by decide)
  exact List.not_mem_nil (h _ hmem ⟨0, 60⟩ [] [] [] (by decide) List.not_mem_nil)

/-- From `s` on there is a run in which a call returns. -/
def CanReturn (s : State) : Prop := ∃ acts, ∃ t ∈ visited step s acts, .returned ∈ t.log

theorem CanReturn.of_step {s s' : State} {a : Action} (hs : step s a = some s')
    (h : CanReturn s') : CanReturn s := by
  obtain ⟨acts, t, ht, hret⟩ := h
  exact ⟨a :: acts, t, mem_visited_cons hs ht, hret⟩

theorem canReturn_finish (s : State) : CanReturn (s.finish true) := by
  refine ⟨[], _, self_mem_visited _ _, ?_⟩
  exact List.mem_append_right s.log (List.mem_singleton.mpr rfl)

theorem canReturn_of_peek {s : State} (hpc : s.pc = .peek true) : CanReturn s := by
  obtain ⟨k, hk⟩ : ∃ k, s.comp.Peeks BATCH_SIZE k := ⟨_, s.comp.peeks_min Nat.zero_lt_one⟩
  by_cases h0 : 0 < k
  · have hpeek : step s (.send k) =
        some { s with comp := s.comp.hold k, pc := .release true k } := by
      simp only [step, State.send, hpc, if_pos hk, if_pos h0]
    refine .of_step hpeek ?_
    exact .of_step (a := .send 0) rfl (canReturn_finish _)
  · have hpeek : step s (.send k) = some (s.finish true) := by
      simp only [step, State.send, hpc, if_pos hk, if_neg h0]
    exact .of_step hpeek (canReturn_finish s)

/-- With room in the tx ring a call returns without a step of the kernel. -/
theorem canReturn_of_room (config : Option XskSocketConfig) {tx : XskRingProd XdpDesc}
    (hroom : BATCH_SIZE ≤ tx.free) (comp : XskRingCons Nat) (taken : Index)
    (hands : List XdpDesc) : CanReturn (between config tx comp taken hands) := by
  have hres := XskRingProd.reserve_eq_some.mpr ⟨hroom, rfl, rfl⟩
  have hreserve : step { between config tx comp taken hands with pc := .reserve } (.send 0) =
      some { between config tx comp taken hands with
        tx := { tx with cachedProd := tx.cachedProd + BitVec.ofNat 32 BATCH_SIZE }
        pc := .fill tx.cachedProd 0 } := by
    simp only [step, State.send, between, hres]
  refine .of_step (a := .send 0) rfl ?_
  refine .of_step hreserve ?_
  -- the one descriptor, the end of the loop, the submission and the look at the flag
  refine .of_step (a := .send 0) rfl ?_
  refine .of_step (a := .send 0) rfl ?_
  refine .of_step (a := .send 0) rfl ?_
  refine .of_step (a := .send 0) rfl ?_
  exact canReturn_of_peek rfl

end SnippetsC.AfXdp.XdpSockTx
