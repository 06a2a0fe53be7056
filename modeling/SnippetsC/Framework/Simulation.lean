import Mathlib.Data.List.Basic
import Mathlib.Data.List.Induction
import Mathlib.Logic.Function.Basic

namespace SnippetsC

/-! Machines that take commands and answer them, and when one does what another says. -/

section simulation

variable {σ τ ι ω : Type*}

/-- The state after the commands, and the answers to them. -/
def respond (perform : σ → ι → σ × ω) (s : σ) : List ι → σ × List ω
  | [] => (s, [])
  | c :: cs =>
    ((respond perform (perform s c).1 cs).1,
      (perform s c).2 :: (respond perform (perform s c).1 cs).2)

theorem respond_append (perform : σ → ι → σ × ω) (s : σ) (cs ds : List ι) :
    (respond perform s (cs ++ ds)).1 = (respond perform (respond perform s cs).1 ds).1 := by
  induction cs generalizing s with
  | nil => rfl
  | cons c cs ih => exact ih (perform s c).1

/-- If related states stay related under each command, with the same answer, they do so under any
sequence of commands. -/
theorem respond_simulates {perform : σ → ι → σ × ω} {spec : τ → ι → τ × ω} {R : σ → τ → Prop}
    (hstep : ∀ s t c, R s t → R (perform s c).1 (spec t c).1 ∧ (perform s c).2 = (spec t c).2)
    {s : σ} {t : τ} (h : R s t) (cs : List ι) :
    R (respond perform s cs).1 (respond spec t cs).1 ∧
      (respond perform s cs).2 = (respond spec t cs).2 := by
  induction cs generalizing s t with
  | nil => exact ⟨h, rfl⟩
  | cons c cs ih =>
    obtain ⟨hnext, hanswer⟩ := hstep s t c h
    obtain ⟨hend, hrest⟩ := ih hnext
    exact ⟨hend, congrArg₂ List.cons hanswer hrest⟩

/-- What a command can make true, and only some commands leave true, holds behind a sequence of
commands exactly if one of them made it true and all later ones have left it. -/
theorem respond_since {perform : σ → ι → σ × ω} (P : σ → Prop) (Makes : σ → ι → Prop)
    (Keeps : ι → Prop) (hstep : ∀ s c, P (perform s c).1 ↔ P s ∧ Keeps c ∨ Makes s c) {s : σ}
    (h : ¬P s) (cs : List ι) :
    P (respond perform s cs).1 ↔ ∃ before c after, cs = before ++ c :: after ∧
      Makes (respond perform s before).1 c ∧ ∀ d ∈ after, Keeps d := by
  induction cs using List.reverseRecOn with
  | nil => simpa [respond] using h
  | append_singleton cs c ih =>
    rw [respond_append]
    change P (perform (respond perform s cs).1 c).1 ↔ _
    rw [hstep, ih]
    constructor
    · rintro (⟨⟨before, b, after, rfl, hmade, hkept⟩, hkeep⟩ | hmakes)
      · refine ⟨before, b, after ++ [c], by simp, hmade, ?_⟩
        intro d hd
        rcases List.mem_append.mp hd with hold | hnew
        · exact hkept d hold
        · exact List.mem_singleton.mp hnew ▸ hkeep
      · exact ⟨cs, c, [], rfl, hmakes, List.forall_mem_nil _⟩
    · rintro ⟨before, b, after, heq, hmade, hkept⟩
      rcases List.eq_nil_or_concat' after with rfl | ⟨after, d, rfl⟩
      · obtain ⟨rfl, hlast⟩ := List.append_inj' heq rfl
        exact .inr (List.singleton_inj.mp hlast ▸ hmade)
      · rw [← List.cons_append, ← List.append_assoc] at heq
        obtain ⟨rfl, hlast⟩ := List.append_inj' heq rfl
        cases List.singleton_inj.mp hlast
        exact .inl ⟨⟨before, b, after, rfl, hmade,
          fun e he => hkept e (List.mem_append_left _ he)⟩, hkept c (by simp)⟩

/-- If some commands put a new value in place, or none, and the others change the value that is
there, it is what the commands behind the last replacement have made of the new one. -/
theorem respond_replaced {α : Type*} {perform : Option α → ι → Option α × ω}
    (replace : ι → Option (Option α)) (change : ι → α → α)
    (hstep : ∀ v c, (perform v c).1 = (replace c).getD (v.map (change c))) (cs : List ι) (a : α) :
    (respond perform none cs).1 = some a ↔ ∃ before c after new, cs = before ++ c :: after ∧
      replace c = some (some new) ∧ (∀ d ∈ after, replace d = none) ∧
        a = after.foldl (fun v d => change d v) new := by
  induction cs using List.reverseRecOn generalizing a with
  | nil => simp [respond]
  | append_singleton cs c ih =>
    rw [respond_append]
    change (perform (respond perform none cs).1 c).1 = some a ↔ _
    rw [hstep]
    constructor
    · intro h
      cases hc : replace c with
      | some v =>
        rw [hc, Option.getD_some] at h
        exact ⟨cs, c, [], a, rfl, by rw [hc, h], List.forall_mem_nil _, rfl⟩
      | none =>
        rw [hc, Option.getD_none] at h
        obtain ⟨b, hb, rfl⟩ := Option.map_eq_some_iff.mp h
        obtain ⟨before, d, after, new, rfl, hnew, hkept, rfl⟩ := (ih b).mp hb
        refine ⟨before, d, after ++ [c], new, by simp, hnew, ?_, by simp⟩
        intro e he
        rcases List.mem_append.mp he with hold | hlast
        · exact hkept e hold
        · exact List.mem_singleton.mp hlast ▸ hc
    · rintro ⟨before, d, after, new, heq, hnew, hkept, rfl⟩
      rcases List.eq_nil_or_concat' after with rfl | ⟨after, e, rfl⟩
      · obtain ⟨rfl, hlast⟩ := List.append_inj' heq rfl
        rw [List.singleton_inj.mp hlast, hnew]
        rfl
      · rw [← List.cons_append, ← List.append_assoc] at heq
        obtain ⟨rfl, hlast⟩ := List.append_inj' heq rfl
        cases List.singleton_inj.mp hlast
        have hb := (ih _).mpr ⟨before, d, after, new, rfl, hnew,
          fun f hf => hkept f (List.mem_append_left _ hf), rfl⟩
        rw [hkept c (by simp), hb, List.foldl_append]
        rfl

end simulation

/-! Commands that each concern one entry of a table. -/

section table

variable {κ υ ι ω : Type*} [DecidableEq κ]

/-- Let a command change the entry it is about. -/
def onEntry (key : ι → κ) (apply : ι → υ → υ × ω) (r : κ → υ) (c : ι) : (κ → υ) × ω :=
  (Function.update r (key c) (apply c (r (key c))).1, (apply c (r (key c))).2)

variable {key : ι → κ} {apply : ι → υ → υ × ω}

theorem onEntry_self (r : κ → υ) (c : ι) :
    (onEntry key apply r c).1 (key c) = (apply c (r (key c))).1 := Function.update_self ..

theorem onEntry_of_ne (r : κ → υ) {c : ι} {k : κ} (h : key c ≠ k) :
    (onEntry key apply r c).1 k = r k := Function.update_of_ne (Ne.symm h) ..

end table

end SnippetsC
