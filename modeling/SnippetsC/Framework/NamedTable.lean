import Mathlib.Data.Option.Basic
import Mathlib.Logic.Function.Basic
import Mathlib.Tactic.Common

namespace SnippetsC

/-! A table whose entries have names of their own: it is searched by key and by name. -/

/-- An entry is found under its name, and nothing else is. -/
structure NamedTable (κ : Type*) {ν α : Type*} (name : α → ν) where
  entry : κ → Option α
  find : ν → Option κ
  find_eq_some : ∀ n k, find n = some k ↔ ∃ a, entry k = some a ∧ name a = n

namespace NamedTable

variable {κ ν α : Type*} {name : α → ν} (t : NamedTable κ name)

theorem entry_of_find {n : ν} {k : κ} (h : t.find n = some k) :
    ∃ a, t.entry k = some a ∧ name a = n := (t.find_eq_some n k).mp h

/-- Another entry has the name that the one at `k` is given. -/
def Taken (k : κ) (new : Option ν) : Prop := ∃ n ∈ new, t.find n ≠ none ∧ t.find n ≠ some k

variable [DecidableEq κ] [DecidableEq ν]

instance (k : κ) (new : Option ν) : Decidable (t.Taken k new) :=
  inferInstanceAs (Decidable (∃ n ∈ new, _))

/-- The names behind a change of the entry at `k`. -/
def findAfter (k : κ) (new : Option α) (n : ν) : Option κ :=
  if ∃ a ∈ new, name a = n then some k else if t.find n = some k then none else t.find n

theorem findAfter_eq_some {k : κ} {new : Option α} (h : ¬t.Taken k (new.map name)) (n : ν) (j : κ) :
    t.findAfter k new n = some j ↔ ∃ a, Function.update t.entry k new j = some a ∧ name a = n := by
  unfold findAfter
  by_cases hj : j = k
  · subst hj
    rw [Function.update_self]
    by_cases hnew : ∃ a ∈ new, name a = n
    · rw [if_pos hnew]
      exact iff_of_true rfl hnew
    · rw [if_neg hnew]
      refine iff_of_false ?_ hnew
      split_ifs with hold
      · exact not_false
      · exact hold
  · rw [Function.update_of_ne hj, ← t.find_eq_some]
    split_ifs with hnew hold
    · obtain ⟨a, ha, rfl⟩ := hnew
      refine iff_of_false (fun hk => hj (Option.some_inj.mp hk).symm) ?_
      intro hfind
      apply h
      refine ⟨name a, Option.mem_map_of_mem name ha, ?_, ?_⟩
      · rw [hfind]
        exact Option.some_ne_none j
      · rw [hfind]
        exact fun hk => hj (Option.some_inj.mp hk)
    · refine iff_of_false not_false ?_
      intro hfind
      exact hj (Option.some_inj.mp (hfind.symm.trans hold))
    · rfl

/-- Change the entry at `k`, unless its name is taken. -/
def put (k : κ) (new : Option α) : NamedTable κ name :=
  if h : t.Taken k (new.map name) then t
  else ⟨Function.update t.entry k new, t.findAfter k new, t.findAfter_eq_some h⟩

theorem put_of_taken {k : κ} {new : Option α} (h : t.Taken k (new.map name)) : t.put k new = t :=
  dif_pos h

theorem put_entry {k : κ} {new : Option α} (h : ¬t.Taken k (new.map name)) :
    (t.put k new).entry = Function.update t.entry k new := by
  rw [put, dif_neg h]

end NamedTable

end SnippetsC
