import SnippetsC.Bpf.TcCommands
import SnippetsC.Framework.Simulation

namespace SnippetsC.Bpf

/-! The commands run one after the other, in any order and with any outcomes. -/

open Netlink (CString)

inductive Command where
  | addQdisc (stack : Mem) (calls : SendCalls) (argv : List CString)
  | delQdisc (stack : Mem) (calls : SendCalls) (argv : List CString)
  | addTcfilter (stack : Mem) (loadFd : Int32) (calls : SendCalls) (argv : List CString)
  | tcAttach (stack stack' : Mem) (calls : TcAttach.Calls) (argv : List CString)
  | tcAttach2 (calls : TcAttach2.Calls) (argv : List CString)
  | tcDetach (stack : Mem) (calls : SendCalls) (argv : List CString)
  | tcDetach2 (calls : TcDetach2.Calls) (argv : List CString)

instance (argv : List CString) (rc progFd : Int32) : Decidable (Loads argv rc progFd) :=
  inferInstanceAs (Decidable (_ ∧ _))

instance (calls : TcAttach.Calls) : Decidable (TcAttach.Connects calls) :=
  inferInstanceAs (Decidable (_ ∧ _))

namespace Command

def main (k : Kernel) : Command → Exit
  | addQdisc stack calls argv => AddQdisc.main stack calls argv k
  | delQdisc stack calls argv => DelQdisc.main stack calls argv k
  | addTcfilter stack loadFd calls argv => AddTcfilter.main stack loadFd calls argv k
  | tcAttach stack stack' calls argv => TcAttach.main stack stack' calls argv k
  | tcAttach2 calls argv => TcAttach2.main calls argv k
  | tcDetach stack calls argv => TcDetach.main stack calls argv k
  | tcDetach2 calls argv => TcDetach2.main calls argv k

/-- How many programs are loaded. -/
def loads : Command → Nat
  | addTcfilter _ loadFd _ argv => if 2 ≤ argv.length ∧ 0 ≤ loadFd then 1 else 0
  | tcAttach _ _ calls argv => if Loads argv calls.loadRc calls.progFd then 1 else 0
  | tcAttach2 calls argv => if Loads argv calls.loadRc calls.progFd then 1 else 0
  | _ => 0

end Command

/-- What can happen to a hook; a program that is attached is the one loaded last. -/
inductive Change where
  | create
  | destroy
  | attach
  deriving DecidableEq

/-- What a command does to a hook, and its exit code; `present` says whether the hook is there. -/
def Command.outcome (present : Bool) : Command → List Change × Int
  | addQdisc _ calls argv =>
    if argv.length < 2 then ([], -1) else (if calls.Sent then [.create] else [], 0)
  | delQdisc _ calls argv | tcDetach _ calls argv =>
    if argv.length < 2 then ([], -1) else (if calls.Sent then [.destroy] else [], 0)
  | addTcfilter _ loadFd calls argv =>
    if argv.length < 2 then ([], -1)
    else (if calls.Sent ∧ 0 ≤ loadFd then [.attach] else [], 0)
  | tcAttach _ _ calls argv =>
    if Loads argv calls.loadRc calls.progFd ∧ TcAttach.Connects calls then
      ((if calls.qdiscFound = true ∧ calls.qdiscOk = true then [.create] else []) ++
        (if calls.filterFound = true ∧ calls.filterOk = true then [.attach] else []), 0)
    else ([], -1)
  | tcAttach2 calls argv =>
    if Loads argv calls.loadRc calls.progFd ∧ calls.found = true ∧ present = false ∧
        calls.createRc = 0 then
      if calls.attachRc = 0 then ([.create, .attach], 0) else ([.create], -1)
    else ([], -1)
  | tcDetach2 calls argv =>
    if argv.length < 2 then ([], -1)
    else if calls.found = true ∧ present = true ∧ calls.destroyRc = 0 then ([.destroy], 0)
    else ([], -1)

/-- A change of the hook, with the program that is attached. -/
def TcHook.change (prog : Prog) (hook : TcHook) : Change → TcHook
  | .create => hook.create
  | .destroy => gone
  | .attach => hook.attach ⟨ingress, prog⟩

/-- Once a program is loaded, `tc-attach2` needs the hook to be absent. -/
theorem TcAttach2.main_eq (k : Kernel) {calls : Calls} {argv : List CString}
    (hl : Loads argv calls.loadRc calls.progFd) :
    (main calls argv k).code =
        (if calls.found = true ∧ k.hook.present = false ∧ calls.createRc = 0 ∧ calls.attachRc = 0
          then 0 else -1) ∧
      (main calls argv k).hook =
        if calls.found = true ∧ k.hook.present = false ∧ calls.createRc = 0 then
          if calls.attachRc = 0 then k.hook.create.attach ⟨ingress, k.progs⟩ else k.hook.create
        else k.hook := by
  obtain ⟨hcode, hhook⟩ := main_loaded k hl
  obtain ⟨hok, hend⟩ := attachBpf_follows calls (loadBpf calls.loadRc calls.progFd) k
  have hindex := ifNametoindex_eq_iff k calls.found
  simp only [hcode, hhook, hend, hok, script]
  by_cases hc : k.ifNametoindex calls.found = k.ifindex ∧ k.hook.present = false ∧
      calls.createRc = 0
  · rw [Script.run_some (if_pos hc)]
    rw [hindex] at hc
    by_cases ha : calls.attachRc = 0
    · rw [Script.run_some (if_pos ⟨rfl, ha⟩)]
      simp [hc, ha, Script.run]
    · rw [Script.run_checked (if_neg fun h => ha h.2) rfl]
      simp [hc, ha]
  · rw [Script.run_checked (if_neg hc) rfl]
    rw [hindex] at hc
    have hn : ¬(calls.found = true ∧ k.hook.present = false ∧ calls.createRc = 0 ∧
        calls.attachRc = 0) := fun h => hc ⟨h.1, h.2.1, h.2.2.1⟩
    simp only [if_neg hc, if_neg hn, Bool.false_eq_true, if_false, and_self]

/-- Each command does to the hook what its outcome says. -/
theorem Command.main_eq (k : Kernel) (c : Command) :
    (c.main k).hook = (c.outcome k.hook.present).1.foldl (TcHook.change k.progs) k.hook ∧
      (c.main k).code = (c.outcome k.hook.present).2 := by
  cases c with
  | addQdisc stack calls argv =>
    by_cases hargc : argv.length < 2
    · simp [main, outcome, hargc, AddQdisc.main, qdiscMain_short k]
    · by_cases hsent : calls.Sent <;>
        simp [main, outcome, hargc, hsent, AddQdisc.main_eq k stack hargc, TcHook.change]
  | delQdisc stack calls argv =>
    by_cases hargc : argv.length < 2
    · simp [main, outcome, hargc, DelQdisc.main, qdiscMain_short k]
    · by_cases hsent : calls.Sent <;>
        simp [main, outcome, hargc, hsent, DelQdisc.main_eq k stack hargc, TcHook.change]
  | tcDetach stack calls argv =>
    by_cases hargc : argv.length < 2
    · simp [main, outcome, hargc, TcDetach.main, qdiscMain_short k]
    · by_cases hsent : calls.Sent <;>
        simp [main, outcome, hargc, hsent, TcDetach.main_eq k stack hargc, TcHook.change]
  | addTcfilter stack loadFd calls argv =>
    by_cases hargc : argv.length < 2
    · simp [main, outcome, hargc, AddTcfilter.main]
    · by_cases hsent : calls.Sent ∧ 0 ≤ loadFd <;>
        simp [main, outcome, hargc, hsent, AddTcfilter.main_eq k stack hargc, TcHook.change]
  | tcAttach stack stack' calls argv =>
    by_cases h : Loads argv calls.loadRc calls.progFd ∧ TcAttach.Connects calls
    · simp only [main, TcAttach.main_sent stack stack' k h.1 h.2, TcAttach.sent, outcome, if_pos h]
      by_cases hq : calls.qdiscFound = true ∧ calls.qdiscOk = true <;>
        by_cases hf : calls.filterFound = true ∧ calls.filterOk = true <;>
        simp [hq, hf, TcHook.change]
    · obtain ⟨printed, hmain⟩ := TcAttach.main_failed stack stack' k h
      simp [main, outcome, hmain, h]
  | tcAttach2 calls argv =>
    by_cases hl : Loads argv calls.loadRc calls.progFd
    · obtain ⟨hcode, hhook⟩ := TcAttach2.main_eq k hl
      by_cases hc : calls.found = true ∧ k.hook.present = false ∧ calls.createRc = 0 <;>
        by_cases ha : calls.attachRc = 0 <;>
        simp [main, outcome, hcode, hhook, hl, hc, ha, TcHook.change]
    · obtain ⟨printed, hmain⟩ := TcAttach2.main_failed k hl
      simp [main, outcome, hmain, hl]
  | tcDetach2 calls argv =>
    by_cases hargc : argv.length < 2
    · simp [main, outcome, TcDetach2.main, hargc]
    · by_cases hd : calls.found = true ∧ k.hook.present = true ∧ calls.destroyRc = 0 <;>
        simp [main, outcome, TcDetach2.main_eq k hargc, hd, hargc, TcHook.change]

theorem Command.loads_of_attach {present : Bool} {c : Command}
    (h : Change.attach ∈ (c.outcome present).1) : c.loads = 1 := by
  cases c with
  | addTcfilter stack loadFd calls argv =>
    simp only [outcome] at h
    split_ifs at h with hargc hsent
    · exact absurd h (by simp)
    · exact if_pos ⟨Nat.not_lt.mp hargc, hsent.2⟩
    · exact absurd h (by simp)
  | tcAttach stack stack' calls argv =>
    simp only [outcome] at h
    split_ifs at h with hloads
    all_goals first | exact if_pos hloads.1 | exact absurd h (by simp)
  | tcAttach2 calls argv =>
    simp only [outcome] at h
    split_ifs at h with hloads
    all_goals first | exact if_pos hloads.1 | exact absurd h (by simp)
  | addQdisc stack calls argv =>
    simp only [outcome] at h
    split_ifs at h <;> exact absurd h (by simp)
  | delQdisc stack calls argv =>
    simp only [outcome] at h
    split_ifs at h <;> exact absurd h (by simp)
  | tcDetach stack calls argv =>
    simp only [outcome] at h
    split_ifs at h <;> exact absurd h (by simp)
  | tcDetach2 calls argv =>
    simp only [outcome] at h
    split_ifs at h <;> exact absurd h (by simp)

theorem TcHook.filters_change {prog : Prog} {hook : TcHook} {changes : List Change} {f : TcFilter}
    (hf : f ∈ (changes.foldl (change prog) hook).filters) :
    f ∈ hook.filters ∨ Change.attach ∈ changes ∧ f = ⟨ingress, prog⟩ := by
  induction changes generalizing hook with
  | nil => exact .inl hf
  | cons change changes ih =>
    rcases ih hf with hold | ⟨hmem, hnew⟩
    · cases change with
      | create => exact .inl hold
      | destroy => exact absurd hold List.not_mem_nil
      | attach =>
        simp only [TcHook.change, TcHook.attach] at hold
        split_ifs at hold with hpresent
        · rcases List.mem_cons.mp hold with hfirst | hrest
          · exact .inr ⟨List.mem_cons_self, hfirst⟩
          · exact .inl hrest
        · exact absurd hold List.not_mem_nil
    · exact .inr ⟨List.mem_cons_of_mem _ hmem, hnew⟩

/-- The kernel after a command. -/
def Kernel.perform (k : Kernel) (c : Command) : Kernel × Int where
  fst :=
    { k with
      hook := (c.main k).hook
      progs := k.progs + c.loads
      loaded := by
        intro f hf
        rw [(c.main_eq k).1] at hf
        rcases TcHook.filters_change hf with hold | ⟨hattach, rfl⟩
        · exact Nat.lt_add_right _ (k.loaded f hold)
        · rw [Command.loads_of_attach hattach]
          exact Nat.lt_succ_self _ }
  snd := (c.main k).code

/-! What the commands are for. -/

/-- The programs behind the hook if it is there, the newest first, and how many have been loaded. -/
structure Ingress where
  progs : Option (List Prog)
  loaded : Nat

namespace Ingress

/-- A program that is attached is put in front of the others. -/
def change (prog : Prog) (progs : Option (List Prog)) : Change → Option (List Prog)
  | .create => some (progs.getD [])
  | .destroy => none
  | .attach => progs.map (prog :: ·)

def perform (g : Ingress) (c : Command) : Ingress × Int :=
  let (changes, code) := c.outcome g.progs.isSome
  (⟨changes.foldl (change g.loaded) g.progs, g.loaded + c.loads⟩, code)

end Ingress

/-- The hook holds just these programs, on the ingress side. -/
structure TcHook.Shows (hook : TcHook) (progs : Option (List Prog)) : Prop where
  present : hook.present = progs.isSome
  filters : hook.filters = (progs.getD []).map fun p => ⟨ingress, p⟩

theorem TcHook.Shows.change {hook : TcHook} {progs : Option (List Prog)} (h : hook.Shows progs)
    (p : Prog) (change : Change) : (hook.change p change).Shows (Ingress.change p progs change) := by
  cases change with
  | create => exact ⟨rfl, h.filters⟩
  | destroy => exact ⟨rfl, rfl⟩
  | attach =>
    cases progs with
    | none =>
      have habsent : hook.present = false := h.present
      exact ⟨habsent, by simp [TcHook.change, TcHook.attach, Ingress.change, habsent]⟩
    | some ps =>
      have hpresent : hook.present = true := h.present
      refine ⟨hpresent, ?_⟩
      rw [TcHook.change, filters_attach hpresent, h.filters]
      rfl

theorem TcHook.Shows.changes {hook : TcHook} {progs : Option (List Prog)} (h : hook.Shows progs)
    (p : Prog) (changes : List Change) :
    (changes.foldl (TcHook.change p) hook).Shows (changes.foldl (Ingress.change p) progs) := by
  induction changes generalizing hook progs with
  | nil => exact h
  | cons change changes ih => exact ih (h.change p change)

structure Kernel.Shows (k : Kernel) (g : Ingress) : Prop where
  hook : k.hook.Shows g.progs
  progs : k.progs = g.loaded

theorem Kernel.Shows.perform {k : Kernel} {g : Ingress} (h : k.Shows g) (c : Command) :
    (k.perform c).1.Shows (g.perform c).1 ∧ (k.perform c).2 = (g.perform c).2 := by
  obtain ⟨hhook, hcode⟩ := c.main_eq k
  rw [h.hook.present, h.progs] at hhook
  rw [h.hook.present] at hcode
  refine ⟨⟨?_, congrArg (· + c.loads) h.progs⟩, hcode⟩
  change (c.main k).hook.Shows _
  rw [hhook]
  exact h.hook.changes _ _

/-- Any sequence of commands, with any outcomes, does to the hook what it does to the list of
programs behind it, and exits with the same codes. -/
theorem tc_refined {k : Kernel} {g : Ingress} (h : k.Shows g) (cs : List Command) :
    (respond Kernel.perform k cs).1.Shows (respond Ingress.perform g cs).1 ∧
      (respond Kernel.perform k cs).2 = (respond Ingress.perform g cs).2 :=
  respond_simulates (fun _ _ c hs => hs.perform c) h cs

/-- An interface without a hook. -/
def bare : Kernel := ⟨2, by decide, .gone, 0, fun _ hf => absurd hf List.not_mem_nil⟩

/-- The calls of a program all of whose calls succeed. -/
def allFine : SendCalls := ⟨3, 0, true, true⟩

/-- `tc-attach2` works once, `add-tcfilter` puts its program in front, `tc-detach` takes both off. -/
theorem tc_refined_bare :
    let argv : List CString := List.replicate 3 Netlink.bpf
    let attach2 : Command := .tcAttach2 ⟨0, 4, true, 0, 0⟩ argv
    let cs : List Command := [attach2, attach2, .addTcfilter (fun _ => 0) 4 allFine argv]
    (respond Kernel.perform bare cs).1.hook.filters = [⟨ingress, 2⟩, ⟨ingress, 0⟩] ∧
      (respond Kernel.perform bare (cs ++ [.tcDetach (fun _ => 0) allFine argv])).1.hook.filters =
        [] := by
  intro argv attach2 cs
  have hbare : bare.Shows ⟨none, 0⟩ := ⟨⟨rfl, rfl⟩, rfl⟩
  exact ⟨(tc_refined hbare cs).1.hook.filters, (tc_refined hbare _).1.hook.filters⟩

/-- No command both destroys the hook and attaches a program. -/
theorem Command.outcome_cases (present : Bool) (c : Command) :
    (c.outcome present).1 = [] ∨ (c.outcome present).1 = [.create] ∨
      (c.outcome present).1 = [.destroy] ∨ (c.outcome present).1 = [.attach] ∨
      (c.outcome present).1 = [.create, .attach] := by
  cases c <;> simp only [outcome] <;> split_ifs <;> simp

namespace Command

/-- The hook goes if it is there. -/
def Deletes (c : Command) : Prop := .destroy ∈ (c.outcome true).1

/-- The hook is made if it is not there. -/
def Creates (c : Command) : Prop := .create ∈ (c.outcome false).1

/-- The program that the command loads ends up behind the hook. -/
def Attaches (k : Kernel) (c : Command) : Prop :=
  .attach ∈ (c.outcome k.hook.present).1 ∧
    (k.hook.present = true ∨ .create ∈ (c.outcome k.hook.present).1)

instance (c : Command) : Decidable c.Deletes := inferInstanceAs (Decidable (_ ∈ _))
instance (c : Command) : Decidable c.Creates := inferInstanceAs (Decidable (_ ∈ _))
instance (k : Kernel) (c : Command) : Decidable (c.Attaches k) :=
  inferInstanceAs (Decidable (_ ∧ _))

theorem not_creates_of_deletes {c : Command} (h : c.Deletes) : ¬c.Creates := by
  cases c <;> simp only [Deletes, Creates, outcome] at h ⊢ <;> split_ifs at h ⊢ <;> simp_all

end Command

section run

variable (k : Kernel) (c : Command)

theorem present_perform :
    (k.perform c).1.hook.present = true ↔ k.hook.present = true ∧ ¬c.Deletes ∨ c.Creates := by
  have hnot := Command.not_creates_of_deletes (c := c)
  change (c.main k).hook.present = true ↔ _
  rw [(c.main_eq k).1]
  cases hp : k.hook.present with
  | true =>
    rw [Command.Deletes] at hnot ⊢
    rcases c.outcome_cases true with h | h | h | h | h <;> rw [h] at hnot ⊢ <;>
      simp_all [TcHook.change, TcHook.create, TcHook.attach, TcHook.gone]
  | false =>
    rw [Command.Creates]
    rcases c.outcome_cases false with h | h | h | h | h <;> rw [h] <;>
      simp [TcHook.change, TcHook.create, TcHook.attach, TcHook.gone, hp]

theorem mem_filters_perform (p : Prog) :
    ⟨ingress, p⟩ ∈ (k.perform c).1.hook.filters ↔
      ⟨ingress, p⟩ ∈ k.hook.filters ∧ ¬c.Deletes ∨ c.Attaches k ∧ k.progs = p := by
  change _ ∈ (c.main k).hook.filters ↔ _
  rw [(c.main_eq k).1, Command.Attaches]
  cases hp : k.hook.present with
  | true =>
    rw [Command.Deletes]
    rcases c.outcome_cases true with h | h | h | h | h <;> rw [h] <;>
      simp [TcHook.change, TcHook.create, TcHook.attach, TcHook.gone, hp, or_comm, eq_comm]
  | false =>
    rcases c.outcome_cases false with h | h | h | h | h <;> rw [h] <;>
      simp [TcHook.change, TcHook.create, TcHook.attach, TcHook.gone, hp, k.hook.filters_nil hp,
        eq_comm]

end run

/-- Behind any run a program is on the hook exactly if some command has attached it and none since
has deleted the hook. -/
theorem attached_iff {k : Kernel} {p : Prog} (hnew : ⟨ingress, p⟩ ∉ k.hook.filters)
    (cs : List Command) :
    ⟨ingress, p⟩ ∈ (respond Kernel.perform k cs).1.hook.filters ↔
      ∃ before c after, cs = before ++ c :: after ∧
        (c.Attaches (respond Kernel.perform k before).1 ∧
          (respond Kernel.perform k before).1.progs = p) ∧
        ∀ d ∈ after, ¬d.Deletes :=
  respond_since (fun k => ⟨ingress, p⟩ ∈ k.hook.filters) (fun k c => c.Attaches k ∧ k.progs = p)
    (fun c => ¬c.Deletes) (fun k c => mem_filters_perform k c p) hnew cs

/-- `add-qdisc`, then `add-tcfilter`. -/
theorem attached_iff_one :
    let argv : List CString := List.replicate 2 Netlink.bpf
    let addQdisc : Command := .addQdisc (fun _ => 0) allFine argv
    let addTcfilter : Command := .addTcfilter (fun _ => 0) 4 allFine argv
    ⟨ingress, 0⟩ ∈ (respond Kernel.perform bare [addQdisc, addTcfilter]).1.hook.filters := by
  intro argv addQdisc addTcfilter
  have hpresent : (bare.perform addQdisc).1.hook.present = true :=
    (present_perform bare addQdisc).mpr (.inr (by decide))
  refine (attached_iff List.not_mem_nil _).mpr ⟨[addQdisc], addTcfilter, [], rfl, ⟨?_, rfl⟩, ?_⟩
  · exact ⟨by rw [respond, respond, hpresent]; decide, .inl hpresent⟩
  · exact List.forall_mem_nil _

/-- Behind any run from an interface without a hook, `tc-attach2` succeeds exactly if its own calls
do and no command has made a hook that none has deleted since: one `tc-attach2` that fails halfway
is enough to lock out all others. -/
theorem attach2_succeeds_iff {k : Kernel} (hgone : k.hook.present = false) (cs : List Command)
    (calls : TcAttach2.Calls) (argv : List CString) :
    (TcAttach2.main calls argv (respond Kernel.perform k cs).1).code = 0 ↔
      (Loads argv calls.loadRc calls.progFd ∧ calls.found = true ∧ calls.createRc = 0 ∧
        calls.attachRc = 0) ∧
      ¬∃ before c after, cs = before ++ c :: after ∧ c.Creates ∧ ∀ d ∈ after, ¬d.Deletes := by
  have hpresent := respond_since (fun k : Kernel => k.hook.present = true) (fun _ c => c.Creates)
    (fun c => ¬c.Deletes) present_perform (by rw [hgone]; exact Bool.false_ne_true) cs
  rw [← hpresent, Bool.not_eq_true]
  by_cases hl : Loads argv calls.loadRc calls.progFd
  · rw [(TcAttach2.main_eq _ hl).1]
    split_ifs with h
    · exact iff_of_true rfl ⟨⟨hl, h.1, h.2.2⟩, h.2.1⟩
    · refine iff_of_false (by decide) ?_
      rintro ⟨⟨-, hfound, hrest⟩, habsent⟩
      exact h ⟨hfound, habsent, hrest⟩
  · obtain ⟨printed, hmain⟩ := TcAttach2.main_failed (respond Kernel.perform k cs).1 hl
    rw [hmain]
    exact iff_of_false (by decide : ¬(-1 : Int) = 0) fun h => hl h.1.1

/-- The second `tc-attach2` has no chance behind one that could not attach its program. -/
theorem attach2_succeeds_iff_two :
    let argv : List CString := List.replicate 3 Netlink.bpf
    let attach2 : Command := .tcAttach2 ⟨0, 4, true, 0, -22⟩ argv
    (TcAttach2.main ⟨0, 4, true, 0, 0⟩ argv bare).code = 0 ∧
      (TcAttach2.main ⟨0, 4, true, 0, 0⟩ argv (respond Kernel.perform bare [attach2]).1).code ≠ 0 := by
  intro argv attach2
  constructor
  · exact (attach2_succeeds_iff (k := bare) rfl [] _ argv).mpr ⟨by decide, by simp⟩
  · intro h
    exact ((attach2_succeeds_iff rfl [attach2] _ argv).mp h).2
      ⟨[], attach2, [], rfl, by decide, List.forall_mem_nil _⟩

end SnippetsC.Bpf
