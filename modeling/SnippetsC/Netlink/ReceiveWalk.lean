import SnippetsC.Framework.Loop
import SnippetsC.Netlink.ReadMessage

namespace SnippetsC.Netlink

/-! The walk of `read_message` over its messages, turn by turn. -/

/-- A turn of the loop of `read_message`, from `nh` and `len`. -/
def readTurn (done : Int) (m : Mem) (s : Nat × Int) : Int ⊕ (Nat × Int) :=
  if NlmsgOk m s.1 s.2 then
    if nlmsgType m s.1 = NLMSG_DONE then .inl done
    else if nlmsgType m s.1 = NLMSG_ERROR then .inl (-1)
    else .inr (nlmsgNext m s.1, nlmsgRest m s.1 s.2)
  else .inl 0

/-- A turn of an attribute loop, from `rta` and `len`. -/
def rtaTurn (m : Mem) (s : Nat × Int) : Unit ⊕ (Nat × Int) :=
  if RtaOk m s.1 s.2 then .inr (rtaNext m s.1, rtaRest m s.1 s.2) else .inl ()

/-- `NLMSG_OK` looks at the header only if `len` leaves room for one. -/
def Inspects (s : Nat × Int) : Prop := (sizeofNlmsghdr : Int) ≤ s.2

/-- The message at `nh` ends the loop. -/
def StopsAt (m : Mem) (nh : Nat) : Prop :=
  nlmsgType m nh = NLMSG_DONE ∨ nlmsgType m nh = NLMSG_ERROR

instance (m : Mem) (nh : Nat) : Decidable (StopsAt m nh) := inferInstanceAs (Decidable (_ ∨ _))

/-- Where the messages start that are handed to `parse_message`. -/
def messageStarts (m : Mem) (nh : Nat) (len : Int) : List Nat :=
  if _h : NlmsgOk m nh len then
    if StopsAt m nh then [] else nh :: messageStarts m (nlmsgNext m nh) (nlmsgRest m nh len)
  else []
termination_by len.toNat
decreasing_by exact nlmsgRest_toNat_lt _h

theorem readTurn_inr {done : Int} {m : Mem} {s s' : Nat × Int}
    (h : readTurn done m s = .inr s') :
    NlmsgOk m s.1 s.2 ∧ s' = (nlmsgNext m s.1, nlmsgRest m s.1 s.2) := by
  unfold readTurn at h
  split_ifs at h with hok hd he
  cases h
  exact ⟨hok, rfl⟩

theorem rtaTurn_inr {m : Mem} {s s' : Nat × Int} (h : rtaTurn m s = .inr s') :
    RtaOk m s.1 s.2 ∧ s' = (rtaNext m s.1, rtaRest m s.1 s.2) := by
  unfold rtaTurn at h
  split_ifs at h with hok
  cases h
  exact ⟨hok, rfl⟩

theorem readTurn_ends (done : Int) (m : Mem) (s : Nat × Int) :
    ∃ r, Loop.result (readTurn done m) (s.2.toNat + 1) s = some r := by
  apply Loop.result_of_measure (fun s => s.2.toNat)
  · intro s s' h
    obtain ⟨hok, rfl⟩ := readTurn_inr h
    exact nlmsgRest_toNat_lt hok
  · exact Nat.lt_succ_self _

theorem rtaTurn_ends (m : Mem) (s : Nat × Int) :
    ∃ r, Loop.result (rtaTurn m) (s.2.toNat + 1) s = some r := by
  apply Loop.result_of_measure (fun s => s.2.toNat)
  · intro s s' h
    obtain ⟨hok, rfl⟩ := rtaTurn_inr h
    exact rtaRest_toNat_lt hok
  · exact Nat.lt_succ_self _

/-- The turns end with the value that the recursive definition returns. -/
theorem readLoop_result {done : Int} {parse : Nat → List Event} {m : Mem} {n nh : Nat} {len r : Int}
    (h : Loop.result (readTurn done m) n (nh, len) = some r) :
    (readLoop done parse m nh len).1 = r := by
  induction n generalizing nh len with
  | zero => cases h
  | succ n ih =>
    rw [Loop.result, readTurn] at h
    rw [readLoop]
    by_cases hok : NlmsgOk m nh len
    · rw [if_pos hok] at h
      rw [dif_pos hok]
      by_cases hd : nlmsgType m nh = NLMSG_DONE
      · rw [if_pos hd] at h
        rw [if_pos hd]
        exact Option.some.inj h
      · by_cases he : nlmsgType m nh = NLMSG_ERROR
        · rw [if_neg hd, if_pos he] at h
          rw [if_neg hd, if_pos he]
          exact Option.some.inj h
        · rw [if_neg hd, if_neg he] at h
          rw [if_neg hd, if_neg he]
          exact ih h
    · rw [if_neg hok] at h
      rw [dif_neg hok]
      exact Option.some.inj h

/-- The recursive definition of the attribute loop calls `parse_rta` in each turn that goes on. -/
theorem parseRtas_heads {m : Mem} {n rta : Nat} {len : Int}
    (h : Loop.result (rtaTurn m) n (rta, len) = some ()) :
    parseRtas m rta len =
      ((Loop.heads (rtaTurn m) n (rta, len)).filter fun s => decide (RtaOk m s.1 s.2)).map
        fun s => .parseRta s.1 (rtattrAt m s.1) := by
  induction n generalizing rta len with
  | zero => cases h
  | succ n ih =>
    rw [Loop.result, rtaTurn] at h
    rw [Loop.heads, rtaTurn, parseRtas]
    by_cases hok : RtaOk m rta len
    · rw [if_pos hok] at h
      rw [dif_pos hok, if_pos hok, List.filter_cons_of_pos (by simpa using hok), List.map_cons,
        ← ih h]
    · rw [dif_neg hok, if_neg hok, List.filter_cons_of_neg (by simpa using hok)]
      rfl

/-- `parse_message` is called for each message start, in order. -/
theorem readLoop_events (done : Int) (parse : Nat → List Event) (m : Mem) (nh : Nat) (len : Int) :
    (readLoop done parse m nh len).2 =
      (messageStarts m nh len).flatMap fun nh => .parseMessage (nlmsgAt m nh) :: parse nh := by
  induction nh, len using messageStarts.induct (m := m) with
  | case1 nh len hok hs =>
    rw [readLoop, dif_pos hok, messageStarts, dif_pos hok, if_pos hs]
    by_cases hd : nlmsgType m nh = NLMSG_DONE
    · rw [if_pos hd]
      rfl
    · rw [if_neg hd, if_pos (hs.resolve_left hd)]
      rfl
  | case2 nh len hok hs ih =>
    obtain ⟨hd, he⟩ := not_or.mp hs
    rw [readLoop, dif_pos hok, if_neg hd, if_neg he, messageStarts, dif_pos hok, if_neg hs,
      List.flatMap_cons, ← ih]
  | case3 nh len hok =>
    rw [readLoop, dif_neg hok, messageStarts, dif_neg hok]
    rfl

/-- The starts are those of the record walk up to the first message that stops it. -/
theorem messageStarts_eq {m : Mem} {nh : Nat} {len : Int} (hl : len < 2 ^ 31) :
    messageStarts m nh len =
      (nlmsgFormat.walk m nh len).takeWhile fun q => decide ¬StopsAt m q := by
  induction nh, len using messageStarts.induct (m := m) with
  | case1 nh len hok hs =>
    rw [messageStarts, dif_pos hok, if_pos hs, nlmsgFormat.walk_of_ok ((nlmsgOk_iff hl).mp hok),
      List.takeWhile_cons_of_neg (by simpa using hs)]
  | case2 nh len hok hs ih =>
    have hstep := nlmsgFormat.size_le_step m nh
    rw [messageStarts, dif_pos hok, if_neg hs, nlmsgFormat.walk_of_ok ((nlmsgOk_iff hl).mp hok),
      List.takeWhile_cons_of_pos (by simpa using hs), nlmsgNext_eq hok hl, nlmsgRest_eq hok hl]
    rw [nlmsgNext_eq hok hl, nlmsgRest_eq hok hl] at ih
    rw [ih (by omega)]
  | case3 nh len hok =>
    rw [messageStarts, dif_neg hok,
      nlmsgFormat.walk_of_not_ok fun h => hok ((nlmsgOk_iff hl).mpr h)]
    rfl

/-- The pointer and the length of a turn add up to the end of what was received. -/
theorem heads_within {done : Int} {m : Mem} {len : Int} (hl : len < 2 ^ 31) (n : Nat) :
    ∀ s ∈ Loop.heads (readTurn done m) n (0, len), (s.1 : Int) + s.2 = len ∧ s.2 < 2 ^ 31 := by
  apply Loop.heads_invariant
  · intro s s' hinv h
    obtain ⟨hsum, hlt⟩ := hinv
    obtain ⟨hok, rfl⟩ := readTurn_inr h
    have hstep := nlmsgFormat.size_le_step m s.1
    rw [nlmsgNext_eq hok hlt, nlmsgRest_eq hok hlt]
    constructor
    · omega
    · omega
  · exact ⟨by omega, hl⟩

theorem mem_messageStarts {m : Mem} {len : Int} (hl : len < 2 ^ 31) {nh : Nat}
    (h : nh ∈ messageStarts m 0 len) :
    4 ∣ nh ∧ 16 ≤ nlmsgLen m nh ∧ (nh + nlmsgLen m nh : Int) ≤ len := by
  rw [messageStarts_eq hl] at h
  obtain ⟨-, hdvd, hhdr, hle⟩ := nlmsgFormat.mem_walk ((List.takeWhile_sublist _).subset h)
  rw [nlmsgFormat_size] at hhdr hle
  exact ⟨hdvd, hhdr, by omega⟩

/-- The first message starts at the beginning of the buffer. -/
theorem messageStarts_head? {m : Mem} {len : Int} {nh : Nat}
    (h : nh ∈ (messageStarts m 0 len).head?) : nh = 0 := by
  rw [messageStarts] at h
  split_ifs at h
  · cases h
  · cases h
    rfl
  · cases h

/-- Each message starts where the one before it ends, up to the alignment. -/
theorem messageStarts_isChain {m : Mem} {len : Int} (hl : len < 2 ^ 31) :
    (messageStarts m 0 len).IsChain fun a b => b = alignUp 4 (a + nlmsgLen m a) := by
  have hstep : ∀ a b, a ∈ messageStarts m 0 len → b ∈ messageStarts m 0 len →
      b = a + nlmsgFormat.step m a → b = alignUp 4 (a + nlmsgLen m a) := by
    intro a b ha _ hb
    obtain ⟨hdvd, -, -⟩ := mem_messageStarts hl ha
    rw [hb, alignUp_add hdvd, Format.step, nlmsgFormat_size]
    rfl
  apply List.IsChain.imp_of_mem_imp hstep
  rw [messageStarts_eq hl]
  exact List.IsChain.prefix (nlmsgFormat.walk_isChain m 0 len) (List.takeWhile_prefix _)

theorem messageStarts_pairwise {m : Mem} {len : Int} (hl : len < 2 ^ 31) :
    (messageStarts m 0 len).Pairwise fun a b => a + nlmsgLen m a ≤ b := by
  have h := nlmsgFormat.walk_pairwise m 0 len
  simp only [nlmsgFormat_size] at h
  rw [messageStarts_eq hl]
  exact h.sublist (List.takeWhile_sublist _)

theorem readMessage_of_pos {done : Int} {parse : Mem → Nat → List Event} {m : Mem} {len : Int}
    (h : 0 < len) : readMessage done parse m len = readLoop done (parse m) m 0 len := by
  rw [readMessage, if_neg (Int.not_le.mpr h)]

/-- On any input the walk ends, stays inside what was received and takes the messages one by one;
so do the attribute loops end. -/
theorem receive_walk_safe (done : Int) (parse : Mem → Nat → List Event) (m : Mem) (len : Nat)
    (h₁ : 1 ≤ len) (h₂ : len ≤ 8192) :
    (∃ n, Loop.result (readTurn done m) n (0, len) = some (readMessage done parse m len).1 ∧
      ∀ s ∈ Loop.heads (readTurn done m) n (0, len), Inspects s → s.1 + sizeofNlmsghdr ≤ len) ∧
    (∀ rta (rest : Int), ∃ n, Loop.result (rtaTurn m) n (rta, rest) = some () ∧
      parseRtas m rta rest =
        ((Loop.heads (rtaTurn m) n (rta, rest)).filter fun s => decide (RtaOk m s.1 s.2)).map
          fun s => .parseRta s.1 (rtattrAt m s.1)) ∧
    (readMessage done parse m len).2 =
      ((messageStarts m 0 len).flatMap fun nh => .parseMessage (nlmsgAt m nh) :: parse m nh) ∧
    (∀ nh ∈ messageStarts m 0 len, 4 ∣ nh ∧ nh + nlmsgLen m nh ≤ len) ∧
    (∀ nh ∈ (messageStarts m 0 len).head?, nh = 0) ∧
    ((messageStarts m 0 len).IsChain fun a b => b = alignUp 4 (a + nlmsgLen m a)) ∧
    (messageStarts m 0 len).Pairwise fun a b => a + nlmsgLen m a ≤ b := by
  have hl : (len : Int) < 2 ^ 31 := by omega
  rw [readMessage_of_pos (by omega)]
  refine ⟨?_, ?_, readLoop_events done (parse m) m 0 len, ?_, ?_, messageStarts_isChain hl,
    messageStarts_pairwise hl⟩
  · obtain ⟨r, hr⟩ := readTurn_ends done m (0, len)
    refine ⟨(len : Int).toNat + 1, ?_, ?_⟩
    · rw [hr, readLoop_result hr]
    · intro s hs hin
      obtain ⟨hsum, -⟩ := heads_within hl _ s hs
      unfold Inspects at hin
      omega
  · intro rta rest
    obtain ⟨r, hr⟩ := rtaTurn_ends m (rta, rest)
    exact ⟨rest.toNat + 1, hr, parseRtas_heads hr⟩
  · intro nh hnh
    obtain ⟨hdvd, -, hle⟩ := mem_messageStarts hl hnh
    exact ⟨hdvd, by omega⟩
  · intro nh hnh
    exact messageStarts_head? hnh

/-- A message of 18 bytes, its padding and a second header, in memory otherwise filled with ones. -/
def unevenMessages : Mem :=
  Mem.write (fun _ => 0xff) 0 ([18, 0, 0, 0, 16, 0] ++ List.replicate 14 0 ++
    [16, 0, 0, 0, 17, 0] ++ List.replicate 10 0)

theorem receive_walk_safe_uneven : messageStarts unevenMessages 0 (41 : Nat) = [0, 20] ∧
    (messageStarts unevenMessages 0 (41 : Nat)).Pairwise fun a b =>
      a + nlmsgLen unevenMessages a ≤ b :=
  ⟨by decide +kernel,
    (receive_walk_safe 0 (fun _ _ => []) unevenMessages 41 (by decide) (by decide)).2.2.2.2.2.2⟩

end SnippetsC.Netlink
