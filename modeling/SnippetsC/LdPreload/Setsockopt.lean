import Mathlib.Data.List.Basic

namespace SnippetsC.LdPreload

/-! The preloaded `setsockopt`. -/

def IP_UNICAST_IF : Int32 := 50
def IPV6_UNICAST_IF : Int32 := 76
def SOL_SOCKET : Int32 := 1
def IPPROTO_IP : Int32 := 0
def IPPROTO_IPV6 : Int32 := 41

/-- The arguments of a call; `optionValue` is a pointer. -/
structure Call where
  socket : Int32
  level : Int32
  optionName : Int32
  optionValue : UInt64
  optionLen : UInt32
  deriving DecidableEq

/-- The original `setsockopt`, an arbitrary function of its own state and its arguments. -/
abbrev Original (σ : Type*) := σ → Call → Int32 × σ

/-- What the wrapper acts on: the state of the original, the calls it got, and standard output. -/
structure World (σ : Type*) where
  state : σ
  forwarded : List Call
  stdout : List String

variable {σ : Type*}

def World.printf (w : World σ) (line : String) : World σ := { w with stdout := w.stdout ++ [line] }

def World.forward (orig : Original σ) (w : World σ) (c : Call) : Int32 × World σ :=
  let r := orig w.state c
  (r.1, { w with state := r.2, forwarded := w.forwarded ++ [c] })

/-- The first line of output; `%d` prints the unsigned `option_len` as a signed number. -/
def callingText (c : Call) : String :=
  "calling setsockopt: socket " ++ toString c.socket ++ ", level " ++ toString c.level ++
    ", option_name " ++ toString c.optionName ++ ", option_len " ++ toString c.optionLen.toInt32 ++
    "\n"

def setsockopt (orig : Original σ) (w : World σ) (c : Call) : Int32 × World σ :=
  let w := w.printf (callingText c)
  if c.optionName = IP_UNICAST_IF then
    (0, w.printf "filtering sockopt IP_UNICAST_IF\n")
  else if c.optionName = IPV6_UNICAST_IF then
    (0, w.printf "filtering sockopt IPV6_UNICAST_IF\n")
  else w.forward orig c

/-- A program's calls one after the other, and what each of them returns. -/
def calls (orig : Original σ) : World σ → List Call → List Int32 × World σ
  | w, [] => ([], w)
  | w, c :: cs =>
    let r := setsockopt orig w c
    let rest := calls orig r.2 cs
    (r.1 :: rest.1, rest.2)

/-! What is meant: the calls that satisfy a predicate are removed, the others reach the original. -/

section replay

variable (removed : Call → Prop) [DecidablePred removed] (orig : Original σ)

/-- The results when removed calls return 0 and all others are answered by the original. -/
def replay : σ → List Call → List Int32
  | _, [] => []
  | s, c :: cs => if removed c then 0 :: replay s cs else (orig s c).1 :: replay (orig s c).2 cs

theorem replay_congr {p : Call → Prop} [DecidablePred p] (s : σ) {cs : List Call}
    (h : ∀ c ∈ cs, (removed c ↔ p c)) : replay removed orig s cs = replay p orig s cs := by
  induction cs generalizing s with
  | nil => rfl
  | cons c cs ih =>
    have hc := h c List.mem_cons_self
    have hcs : ∀ d ∈ cs, (removed d ↔ p d) := by
      intro d hd
      exact h d (List.mem_cons_of_mem c hd)
    rw [replay, replay, ih _ hcs, ih _ hcs]
    exact if_congr hc rfl rfl

end replay

/-- Either of the two options at the level it belongs to. -/
def UnicastIf (c : Call) : Prop :=
  (c.level = IPPROTO_IP ∧ c.optionName = IP_UNICAST_IF) ∨
    (c.level = IPPROTO_IPV6 ∧ c.optionName = IPV6_UNICAST_IF)

instance : DecidablePred UnicastIf := fun _ => inferInstanceAs (Decidable (_ ∨ _))

/-- What the wrapper removes: it looks at the option number alone. -/
def Filtered (c : Call) : Prop := c.optionName = IP_UNICAST_IF ∨ c.optionName = IPV6_UNICAST_IF

instance : DecidablePred Filtered := fun _ => inferInstanceAs (Decidable (_ ∨ _))

section run

variable (orig : Original σ) (w : World σ)

theorem setsockopt_of_filtered {c : Call} (h : Filtered c) :
    (setsockopt orig w c).1 = 0 ∧ (setsockopt orig w c).2.state = w.state ∧
      (setsockopt orig w c).2.forwarded = w.forwarded := by
  rw [setsockopt]
  split_ifs with h50 h76
  · exact ⟨rfl, rfl, rfl⟩
  · exact ⟨rfl, rfl, rfl⟩
  · rcases h with h | h
    · exact absurd h h50
    · exact absurd h h76

theorem setsockopt_of_not_filtered {c : Call} (h : ¬Filtered c) :
    (setsockopt orig w c).1 = (orig w.state c).1 ∧
      (setsockopt orig w c).2.state = (orig w.state c).2 ∧
      (setsockopt orig w c).2.forwarded = w.forwarded ++ [c] := by
  obtain ⟨h50, h76⟩ := not_or.mp h
  rw [setsockopt, if_neg h50, if_neg h76]
  exact ⟨rfl, rfl, rfl⟩

theorem calls_forwarded (cs : List Call) :
    (calls orig w cs).2.forwarded = w.forwarded ++ cs.filter (fun c => ¬Filtered c) := by
  induction cs generalizing w with
  | nil => exact (List.append_nil _).symm
  | cons c cs ih =>
    rw [calls, ih]
    by_cases h : Filtered c
    · obtain ⟨-, -, hfw⟩ := setsockopt_of_filtered orig w h
      rw [hfw, List.filter_cons_of_neg (by simpa using h)]
    · obtain ⟨-, -, hfw⟩ := setsockopt_of_not_filtered orig w h
      rw [hfw, List.filter_cons_of_pos (by simpa using h), List.append_assoc, List.singleton_append]

theorem calls_results (cs : List Call) :
    (calls orig w cs).1 = replay Filtered orig w.state cs := by
  induction cs generalizing w with
  | nil => rfl
  | cons c cs ih =>
    rw [calls, ih, replay]
    by_cases h : Filtered c
    · obtain ⟨hres, hst, -⟩ := setsockopt_of_filtered orig w h
      rw [if_pos h, hres, hst]
    · obtain ⟨hres, hst, -⟩ := setsockopt_of_not_filtered orig w h
      rw [if_neg h, hres, hst]

end run

/-- Exactly the two options are removed, and every caller gets the result it is due. -/
def RemovesExactly (orig : Original σ) (s : σ) (cs : List Call) : Prop :=
  let run := calls orig ⟨s, [], []⟩ cs
  run.2.forwarded = cs.filter (fun c => ¬UnicastIf c) ∧ run.1 = replay UnicastIf orig s cs

/-- The option number means one of the two options at the call's own level, or neither of them. -/
def Unambiguous (c : Call) : Prop :=
  (c.optionName = IP_UNICAST_IF → c.level = IPPROTO_IP) ∧
    (c.optionName = IPV6_UNICAST_IF → c.level = IPPROTO_IPV6)

theorem filtered_iff_unicastIf {c : Call} : (Filtered c ↔ UnicastIf c) ↔ Unambiguous c := by
  have hne : IP_UNICAST_IF ≠ IPV6_UNICAST_IF := by decide
  constructor
  · intro h
    constructor
    · intro h50
      rcases h.mp (Or.inl h50) with ⟨hl, -⟩ | ⟨-, h76⟩
      · exact hl
      · exact absurd (h50.symm.trans h76) hne
    · intro h76
      rcases h.mp (Or.inr h76) with ⟨-, h50⟩ | ⟨hl, -⟩
      · exact absurd (h50.symm.trans h76) hne
      · exact hl
  · intro h
    constructor
    · rintro (h50 | h76)
      · exact Or.inl ⟨h.1 h50, h50⟩
      · exact Or.inr ⟨h.2 h76, h76⟩
    · rintro (⟨-, h50⟩ | ⟨-, h76⟩)
      · exact Or.inl h50
      · exact Or.inr h76

/-- The wrapper does what it is meant to do exactly on programs that use the two option numbers at
no other level. -/
theorem setsockopt_removes_iff (orig : Original σ) (s : σ) (cs : List Call) :
    RemovesExactly orig s cs ↔ ∀ c ∈ cs, Unambiguous c := by
  rw [RemovesExactly, calls_forwarded, calls_results, List.nil_append]
  constructor
  · rintro ⟨hfw, -⟩ c hc
    apply filtered_iff_unicastIf.mp
    have hmem := congrArg (fun l => c ∈ l) hfw
    simp only [List.mem_filter, hc, true_and, decide_eq_true_eq] at hmem
    exact not_iff_not.mp (iff_of_eq hmem)
  · intro h
    have hiff : ∀ c ∈ cs, (Filtered c ↔ UnicastIf c) := by
      intro c hc
      exact filtered_iff_unicastIf.mpr (h c hc)
    refine ⟨?_, replay_congr Filtered orig s hiff⟩
    apply List.filter_congr
    intro c hc
    exact decide_eq_decide.mpr (not_congr (hiff c hc))

/-- `SO_ATTACH_BPF` has the number of `IP_UNICAST_IF`: it is swallowed, and success is reported. -/
theorem setsockopt_swallows_attach_bpf :
    ¬RemovesExactly (fun (s : Unit) _ => (-1, s)) () [⟨3, SOL_SOCKET, 50, 0x1000, 4⟩] := by
  rintro ⟨hfw, -⟩
  exact absurd hfw (by decide)

end SnippetsC.LdPreload
