import SnippetsC.Netlink.Datagram
import SnippetsC.Netlink.Dump
import SnippetsC.Netlink.Listeners

namespace SnippetsC.Netlink

/-! The event listeners on any number of datagrams. -/

/-- An error comes before any other end. -/
def Fails (xs : List WireMsg) : Prop :=
  ∃ x ∈ xs.find? fun x => x.Stops, x.type.toNat = NLMSG_ERROR

instance (xs : List WireMsg) : Decidable (Fails xs) :=
  inferInstanceAs (Decidable (∃ x ∈ xs.find? _, _))

theorem returnCode_zero (xs : List WireMsg) :
    returnCode 0 (xs.map WireMsg.toNlmsg) = if Fails xs then -1 else 0 := by
  induction xs with
  | nil => rfl
  | cons x xs ih =>
    rw [List.map_cons, returnCode, ih]
    by_cases hdone : x.type.toNat = NLMSG_DONE
    · have hstop : x.Stops := Or.inl hdone
      have hne : NLMSG_DONE ≠ NLMSG_ERROR := by decide
      simp [Fails, hstop, hdone, hne]
    · by_cases herr : x.type.toNat = NLMSG_ERROR
      · have hstop : x.Stops := Or.inr herr
        have hne : NLMSG_ERROR ≠ NLMSG_DONE := by decide
        simp [Fails, hstop, herr, hne]
      · have hgo : ¬x.Stops := not_or.mpr ⟨hdone, herr⟩
        simp [Fails, hgo, hdone, herr]

/-! Which messages are handed to `parse_message`. -/

theorem dispatched_print (text : String) (es : List Event) :
    dispatched (.print text :: es) = dispatched es := rfl

theorem dispatched_prints {α : Type*} (text : α → String) (xs : List α) :
    dispatched (xs.map fun x => .print (text x)) = [] := by
  rw [dispatched, List.filterMap_map]
  exact List.filterMap_eq_nil_iff.mpr fun _ _ => rfl

theorem Watcher.dispatched_parseMessage (w : Watcher) (m : Mem) (nh : Nat) :
    dispatched (w.parseMessage m nh) = [] := by
  have hattrs (size : Nat) : dispatched (parseAttributes size m nh) = [] :=
    dispatched_parseRtas m _ _
  have hlines (flags : Nat) (texts : List (Nat × String)) :
      dispatched (IfFlags.flagLines flags texts) = [] := dispatched_prints _ _
  cases w with
  | ifAddrs =>
    simp only [parseMessage, IfAddrs.parseMessage, IfAddrs.parseAddrMessage]
    split_ifs <;> simp [dispatched_print, hattrs]
  | ifEvents verbose =>
    simp only [parseMessage, IfEvents.parseMessage, IfEvents.parseLinkMessage]
    split_ifs <;> simp [dispatched_print, hattrs]
  | ifFlags uapiDef =>
    simp only [parseMessage, IfFlags.parseMessage, IfFlags.parseLinkMessage]
    split_ifs <;> simp [dispatched_print, hlines]
  | ifRtas =>
    simp only [parseMessage, IfRtas.parseMessage, IfRtas.parseLinkMessage]
    split_ifs <;> simp [dispatched_print, hattrs]
  | ifStats =>
    simp only [parseMessage, IfStats.parseMessage, IfStats.parseLinkMessage]
    split_ifs <;> simp [hattrs]

theorem encodeAll_pos {part : List WireMsg} (hne : part ≠ []) :
    0 < (WireMsg.encodeAll part).length := by
  obtain ⟨x, xs, rfl⟩ := List.exists_cons_of_ne_nil hne
  have hx := x.record.bytes_pos
  have hlen : (WireMsg.encodeAll (x :: xs)).length =
      x.record.bytes.length + (WireMsg.encodeAll xs).length := List.length_append
  omega

/-- One datagram. -/
theorem readMessage_whole (done : Int) (parse : Mem → Nat → List Event) (stale : Mem)
    {part : List WireMsg} (hne : part ≠ []) (hfit : (WireMsg.encodeAll part).length ≤ 8192) :
    readMessage done parse (recvmsg stale (WireMsg.encodeAll part)).1
        (recvmsg stale (WireMsg.encodeAll part)).2 =
      readLoop done (parse (stale.write 0 (WireMsg.encodeAll part)))
        (stale.write 0 (WireMsg.encodeAll part)) 0 (WireMsg.encodeAll part).length := by
  have hpos := encodeAll_pos hne
  rw [recvmsg, List.take_of_length_le hfit, readMessage, if_neg (by omega)]

theorem Watcher.read_datagram (w : Watcher) (stale : Mem) {part : List WireMsg} (hne : part ≠ [])
    (hfit : (WireMsg.encodeAll part).length ≤ 8192) :
    let read := w.readMessage (recvmsg stale (WireMsg.encodeAll part)).1
      (recvmsg stale (WireMsg.encodeAll part)).2
    read.1 = (if Fails part then -1 else 0) ∧
      dispatched read.2 = (beforeStop part).map WireMsg.toNlmsg := by
  have hloop := readLoop_encode 0 (w.parseMessage (stale.write 0 (WireMsg.encodeAll part)))
    (Mem.holds_write stale 0 (WireMsg.encodeAll part)) (by omega)
  dsimp only
  rw [w.readMessage_eq, readMessage_whole 0 _ stale hne hfit, hloop]
  refine ⟨returnCode_zero part, ?_⟩
  rw [dispatched_flatMap (w.dispatched_parseMessage _), beforeStop]
  conv_rhs => rw [← placed_snd WireMsg.size 0 part, List.takeWhile_map, List.map_map]
  rfl

/-- How many datagrams come before the first one with an error. -/
def goodParts (parts : List (List WireMsg)) : Nat :=
  (parts.takeWhile fun part => decide ¬Fails part).length

section run

variable {δ γ : Type*} (wires : δ → List WireMsg)

/-- Datagrams of whole messages that fit the buffer. -/
def Whole (parts : List δ) : Prop :=
  ∀ part ∈ parts, wires part ≠ [] ∧ (WireMsg.encodeAll (wires part)).length ≤ 8192

instance (parts : List δ) : Decidable (Whole wires parts) :=
  inferInstanceAs (Decidable (∀ part ∈ parts, _))

/-- What is collected from the events of each datagram adds up until one of them fails. -/
theorem Watcher.collect (w : Watcher) {g : List Event → List γ} (hnil : g [] = [])
    (happ : ∀ es fs, g (es ++ fs) = g es ++ g fs) (body : δ → List γ) (parts : List δ)
    (hwhole : Whole wires parts)
    (hbody : ∀ part ∈ parts, ∀ stale, g (w.readMessage
      (recvmsg stale (WireMsg.encodeAll (wires part))).1
      (recvmsg stale (WireMsg.encodeAll (wires part))).2).2 = body part) (stale : Nat → Mem) :
    let good := goodParts (parts.map wires)
    let r := readMessages w.readMessage (deliver stale (parts.map wires))
    g r.events = (parts.take (good + 1)).flatMap body ∧
      r.received = min (good + 1) parts.length ∧
      r.result = if good < parts.length then some (-1) else none := by
  induction parts generalizing stale with
  | nil => exact ⟨hnil, rfl, rfl⟩
  | cons part parts ih =>
    rw [Whole, List.forall_mem_cons] at hwhole
    rw [List.forall_mem_cons] at hbody
    obtain ⟨hcode, -⟩ := w.read_datagram (stale 0) hwhole.1.1 hwhole.1.2
    obtain ⟨hevents, hreceived, hresult⟩ := ih hwhole.2 hbody.2 fun i => stale (i + 1)
    simp only [List.map_cons, deliver, readMessages, hcode]
    by_cases hfail : Fails (wires part)
    · have hgood : goodParts (wires part :: parts.map wires) = 0 := by simp [goodParts, hfail]
      rw [if_pos hfail, if_neg (by decide), hgood]
      refine ⟨?_, by simp, by simp⟩
      rw [hbody.1]
      simp
    · have hgood : goodParts (wires part :: parts.map wires) =
          goodParts (parts.map wires) + 1 := by simp [goodParts, hfail]
      rw [if_neg hfail, if_pos rfl, hgood]
      refine ⟨?_, ?_, ?_⟩
      · rw [happ, hbody.1, hevents]
        simp
      · simp only [hreceived, List.length_cons]
        omega
      · rw [hresult, List.length_cons]
        simp

end run

/-- An event listener handles in each datagram the messages before the first one that ends it. It
goes on until there is an error: whatever comes behind the end of a datagram is lost, but no later
datagram. -/
theorem watcher_dispatches (w : Watcher) (parts : List (List WireMsg)) (hwhole : Whole id parts)
    (stale : Nat → Mem) :
    let r := readMessages w.readMessage (deliver stale parts)
    dispatched r.events =
        (parts.take (goodParts parts + 1)).flatMap
          (fun part => (beforeStop part).map WireMsg.toNlmsg) ∧
      r.received = min (goodParts parts + 1) parts.length ∧
      r.result = if goodParts parts < parts.length then some (-1) else none := by
  have h := w.collect id dispatched_nil dispatched_append
    (fun part => (beforeStop part).map WireMsg.toNlmsg) parts hwhole
    (fun part hpart stale => (w.read_datagram stale (hwhole part hpart).1 (hwhole part hpart).2).2)
    stale
  rwa [List.map_id] at h

/-- A message that is only a header. -/
def bareMsg (type : UInt16) : WireMsg where
  type := type
  flags := 0
  seq := 0
  pid := 0
  payload := []
  pad := []
  fits := by decide
  pad_length := by decide

/-- An end in the first datagram, an error in the second, and a third that is not received. -/
theorem watcher_dispatches_three :
    let r := readMessages Watcher.ifRtas.readMessage (deliver (fun _ _ => 0)
      [[bareMsg 16, bareMsg 3, bareMsg 17], [bareMsg 20, bareMsg 2], [bareMsg 21]])
    dispatched r.events = [(bareMsg 16).toNlmsg, (bareMsg 20).toNlmsg] ∧ r.received = 2 ∧
      r.result = some (-1) := by
  have h := watcher_dispatches .ifRtas
    [[bareMsg 16, bareMsg 3, bareMsg 17], [bareMsg 20, bareMsg 2], [bareMsg 21]] (by decide)
    fun _ _ => 0
  exact ⟨h.1.trans (by decide), h.2.1.trans (by decide), h.2.2.trans (by decide)⟩

end SnippetsC.Netlink
