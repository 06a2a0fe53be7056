import SnippetsC.Netlink.Receivers

namespace SnippetsC.Netlink

/-- A list of messages cut into non-empty datagrams of whole messages. -/
structure Partition (msgs : List WireMsg) where
  parts : List (List WireMsg)
  flatten_eq : parts.flatten = msgs
  ne_nil : ∀ part ∈ parts, part ≠ []
  fits : ∀ part ∈ parts, (WireMsg.encodeAll part).length ≤ 8192

/-- What the calls of `recvmsg` deliver; the buffer of call `i` held `stale i` before. -/
def deliver (stale : Nat → Mem) : List (List WireMsg) → List (Mem × Int)
  | [] => []
  | part :: parts =>
    recvmsg (stale 0) (WireMsg.encodeAll part) :: deliver (fun i => stale (i + 1)) parts

/-- The messages that precede the first one that stops `read_message`. -/
def beforeStop (xs : List WireMsg) : List WireMsg := xs.takeWhile fun x => decide ¬x.Stops

def HasStop (xs : List WireMsg) : Prop := ∃ x ∈ xs, x.Stops

instance (xs : List WireMsg) : Decidable (HasStop xs) :=
  inferInstanceAs (Decidable (∃ x ∈ xs, x.Stops))

theorem beforeStop_append {xs ys : List WireMsg} (h : ¬HasStop xs) :
    beforeStop (xs ++ ys) = xs ++ beforeStop ys := by
  apply List.takeWhile_append_of_pos
  intro x hx
  have hx' : ¬x.Stops := by
    intro hs
    exact h ⟨x, hx, hs⟩
  exact decide_eq_true hx'

theorem beforeStop_append_of_stop {xs ys : List WireMsg} (h : HasStop xs) :
    beforeStop (xs ++ ys) = beforeStop xs := by
  induction xs with
  | nil =>
    obtain ⟨x, hx, -⟩ := h
    cases hx
  | cons x xs ih =>
    by_cases hs : x.Stops
    · simp [beforeStop, hs]
    · have ht : HasStop xs := by
        obtain ⟨y, hy, hys⟩ := h
        rcases List.mem_cons.mp hy with rfl | hy
        · exact absurd hys hs
        · exact ⟨y, hy, hys⟩
      have hp (zs : List WireMsg) : beforeStop (x :: zs) = x :: beforeStop zs :=
        List.takeWhile_cons_of_pos (by simpa using hs)
      rw [List.cons_append, hp, hp, ih ht]

theorem beforeStop_of_not {xs : List WireMsg} (h : ¬HasStop xs) : beforeStop xs = xs := by
  have hp := @beforeStop_append xs [] h
  rw [List.append_nil] at hp
  exact hp.trans (List.append_nil xs)

/-- `read_message` goes on with the next datagram exactly when no message stopped it. -/
theorem returnCode_eq_zero_iff (done : Int) (hdone : done ≠ 0) (xs : List WireMsg) :
    returnCode done (xs.map WireMsg.toNlmsg) = 0 ↔ ¬HasStop xs := by
  induction xs with
  | nil =>
    constructor
    · rintro - ⟨x, hx, -⟩
      cases hx
    · intro _
      rfl
  | cons x xs ih =>
    have hcons : HasStop (x :: xs) ↔ x.Stops ∨ HasStop xs := by simp [HasStop]
    rw [hcons, not_or, ← ih, List.map_cons, returnCode]
    split_ifs with hd he
    · simp [hdone, Nlmsg.Stops, hd]
    · simp [Nlmsg.Stops, he]
    · simp [Nlmsg.Stops, hd, he]

theorem dispatched_flatMap {m : Mem} {parse : Mem → Nat → List Event}
    (hparse : ∀ nh, dispatched (parse m nh) = []) (ys : List (Nat × WireMsg)) :
    dispatched (ys.flatMap fun y => .parseMessage y.2.toNlmsg :: parse m y.1) =
      ys.map fun y => y.2.toNlmsg := by
  induction ys with
  | nil => rfl
  | cons y ys ih =>
    rw [List.flatMap_cons, dispatched_append, dispatched_parseMessage, hparse, ih]
    rfl

/-- One datagram: the messages before the first stop are dispatched. -/
theorem readMessage_part (stale : Mem) {part : List WireMsg} (hne : part ≠ [])
    (hfit : (WireMsg.encodeAll part).length ≤ 8192) :
    (GetLinks.readMessage (recvmsg stale (WireMsg.encodeAll part)).1
        (recvmsg stale (WireMsg.encodeAll part)).2).1 =
      returnCode 1 (part.map WireMsg.toNlmsg) ∧
    dispatched (GetLinks.readMessage (recvmsg stale (WireMsg.encodeAll part)).1
        (recvmsg stale (WireMsg.encodeAll part)).2).2 =
      (beforeStop part).map WireMsg.toNlmsg := by
  have hpos : 0 < (WireMsg.encodeAll part).length := by
    obtain ⟨x, xs, rfl⟩ := List.exists_cons_of_ne_nil hne
    have hx := x.record.bytes_pos
    have hl : (WireMsg.encodeAll (x :: xs)).length =
        x.record.bytes.length + (WireMsg.encodeAll xs).length := List.length_append
    omega
  have hloop := readLoop_encode 1
    (GetLinks.parseMessage (stale.write 0 (WireMsg.encodeAll part)))
    (Mem.holds_write stale 0 (WireMsg.encodeAll part)) (by omega)
  rw [recvmsg, List.take_of_length_le hfit, GetLinks.readMessage, readMessage, if_neg (by omega),
    hloop]
  refine ⟨rfl, ?_⟩
  rw [dispatched_flatMap (GetLinks.dispatched_parseMessage _), beforeStop]
  conv_rhs => rw [← placed_snd WireMsg.size 0 part, List.takeWhile_map, List.map_map]
  rfl

/-- The number of datagrams that come before the first one with a message that stops the dump. -/
def cleanParts (parts : List (List WireMsg)) : Nat :=
  (parts.takeWhile fun part => decide ¬HasStop part).length

theorem readMessages_deliver {parts : List (List WireMsg)} (hne : ∀ part ∈ parts, part ≠ [])
    (hfit : ∀ part ∈ parts, (WireMsg.encodeAll part).length ≤ 8192) (stale : Nat → Mem)
    (later : List (Mem × Int)) :
    let r := readMessages GetLinks.readMessage (deliver stale parts ++ later)
    let l := readMessages GetLinks.readMessage later
    (HasStop parts.flatten →
      dispatched r.events = (beforeStop parts.flatten).map WireMsg.toNlmsg ∧
        r.received = cleanParts parts + 1 ∧ r.result.isSome) ∧
    (¬HasStop parts.flatten →
      dispatched r.events = parts.flatten.map WireMsg.toNlmsg ++ dispatched l.events ∧
        r.received = parts.length + l.received ∧ r.result = l.result) := by
  induction parts generalizing stale with
  | nil =>
    constructor
    · rintro ⟨x, hx, -⟩
      cases hx
    · intro _
      exact ⟨rfl, (Nat.zero_add _).symm, rfl⟩
  | cons part parts ih =>
    obtain ⟨hcode, hdisp⟩ := readMessage_part (stale 0) (hne part List.mem_cons_self)
      (hfit part List.mem_cons_self)
    have ht := ih (fun q hq => hne q (List.mem_cons_of_mem _ hq))
      (fun q hq => hfit q (List.mem_cons_of_mem _ hq)) (fun i => stale (i + 1))
    have hiff := returnCode_eq_zero_iff 1 (by decide) part
    have happ : HasStop (part ++ parts.flatten) ↔ HasStop part ∨ HasStop parts.flatten := by
      simp only [HasStop, List.mem_append, or_and_right, exists_or]
    simp only [deliver, List.cons_append, readMessages, List.flatten_cons, hcode, happ]
    by_cases hs : HasStop part
    · have hc : ¬returnCode 1 (part.map WireMsg.toNlmsg) = 0 := by
        intro h
        exact hiff.mp h hs
      rw [if_neg hc]
      constructor
      · intro _
        refine ⟨?_, ?_, rfl⟩
        · rw [hdisp, beforeStop_append_of_stop hs]
        · simp [cleanParts, hs]
      · intro h
        exact absurd (Or.inl hs) h
    · have hc := hiff.mpr hs
      rw [if_pos hc]
      constructor
      · intro h
        obtain ⟨h1, h2, h3⟩ := ht.1 (h.resolve_left hs)
        refine ⟨?_, ?_, h3⟩
        · rw [dispatched_append, hdisp, h1, beforeStop_of_not hs, beforeStop_append hs,
            List.map_append]
        · simp only [h2, cleanParts]
          simp [hs]
      · intro h
        obtain ⟨h1, h2, h3⟩ := ht.2 (fun hp => h (Or.inr hp))
        refine ⟨?_, ?_, h3⟩
        · rw [dispatched_append, hdisp, h1, beforeStop_of_not hs, List.map_append,
            List.append_assoc]
        · simp only [h2, List.length_cons]
          omega

/-- However a dump is cut into datagrams, `get-links` dispatches the messages before the first
`NLMSG_DONE` or `NLMSG_ERROR`, and receives nothing after the datagram that holds it. -/
theorem getLinks_partition {msgs : List WireMsg} (P : Partition msgs) (stale : Nat → Mem) :
    dispatched (readMessages GetLinks.readMessage (deliver stale P.parts)).events =
      (beforeStop msgs).map WireMsg.toNlmsg ∧
    (HasStop msgs → ∀ later,
      let r := readMessages GetLinks.readMessage (deliver stale P.parts ++ later)
      dispatched r.events = (beforeStop msgs).map WireMsg.toNlmsg ∧
        r.received = cleanParts P.parts + 1 ∧ r.result.isSome) ∧
    ∀ (Q : Partition msgs) (stale' : Nat → Mem),
      dispatched (readMessages GetLinks.readMessage (deliver stale P.parts)).events =
        dispatched (readMessages GetLinks.readMessage (deliver stale' Q.parts)).events := by
  have hall (R : Partition msgs) (s : Nat → Mem) :
      dispatched (readMessages GetLinks.readMessage (deliver s R.parts)).events =
        (beforeStop msgs).map WireMsg.toNlmsg := by
    have h := readMessages_deliver R.ne_nil R.fits s []
    rw [List.append_nil, R.flatten_eq] at h
    by_cases hs : HasStop msgs
    · exact (h.1 hs).1
    · rw [beforeStop_of_not hs]
      exact (h.2 hs).1.trans (List.append_nil _)
  refine ⟨hall P stale, ?_, fun Q stale' => (hall P stale).trans (hall Q stale').symm⟩
  intro hs later
  have h := readMessages_deliver P.ne_nil P.fits stale later
  rw [P.flatten_eq] at h
  exact h.1 hs

/-- A link and the end of the dump, in two datagrams or in one. -/
theorem getLinks_partition_two :
    let link : WireMsg := ⟨⟨16, 2, 1, 0, List.replicate 16 0⟩, [], by decide, by decide⟩
    let done : WireMsg := ⟨⟨3, 2, 1, 0, List.replicate 4 0⟩, [], by decide, by decide⟩
    let read := fun parts =>
      dispatched (readMessages GetLinks.readMessage (deliver (fun _ _ => 0) parts)).events
    read [[link], [done]] = [link.toNlmsg] ∧ read [[link, done]] = read [[link], [done]] := by
  intro link done read
  let P : Partition [link, done] := ⟨[[link], [done]], rfl, by simp, by decide⟩
  let Q : Partition [link, done] := ⟨[[link, done]], rfl, by simp, by decide⟩
  exact ⟨(getLinks_partition P fun _ _ => 0).1, (getLinks_partition Q fun _ _ => 0).2.2 P _⟩

end SnippetsC.Netlink
