import Mathlib.Data.List.Perm.Basic

namespace SnippetsC

/-- Buffers that two parties pass round: posted by the first, taken by the second, and delivered
back. -/
structure Circulation (α : Type*) where
  posted : List α
  taken : List α
  delivered : List α

namespace Circulation

variable {α : Type*}

/-- Wherever a buffer is. -/
def all (c : Circulation α) : List α := c.posted ++ c.taken ++ c.delivered

/-- The first party posts the oldest delivered buffers again; the second takes the oldest posted
one, and delivers any it has. -/
inductive Move [DecidableEq α] : Circulation α → Circulation α → Prop where
  | stay (c : Circulation α) : Move c c
  | take (f : α) (ps ts ds : List α) : Move ⟨f :: ps, ts, ds⟩ ⟨ps, ts ++ [f], ds⟩
  | deliver {f : α} (ps : List α) {ts : List α} (ds : List α) (h : f ∈ ts) :
      Move ⟨ps, ts, ds⟩ ⟨ps, ts.erase f, ds ++ [f]⟩
  | repost (ps ts fs ds : List α) : Move ⟨ps, ts, fs ++ ds⟩ ⟨ps ++ fs, ts, ds⟩

theorem Move.all_perm [DecidableEq α] {c c' : Circulation α} (h : Move c c') :
    c'.all.Perm c.all := by
  cases h with
  | stay => exact .refl _
  | take f ps ts ds =>
    apply List.Perm.append_right
    rw [← List.append_assoc]
    exact List.perm_append_singleton f (ps ++ ts)
  | deliver ps ds h =>
    rename_i f ts
    have hts : (f :: ts.erase f).Perm ts := (List.perm_cons_erase h).symm
    simp only [all, List.append_assoc]
    apply List.Perm.append_left
    have hfront : (ts.erase f ++ (ds ++ [f])).Perm (f :: ts.erase f ++ ds) := by
      rw [← List.append_assoc]
      exact List.perm_append_singleton f (ts.erase f ++ ds)
    exact hfront.trans (hts.append_right ds)
  | repost ps ts fs ds =>
    simp only [all, List.append_assoc]
    apply List.Perm.append_left
    rw [← List.append_assoc, ← List.append_assoc]
    exact List.perm_append_comm.append_right ds

/-- What is still taken has not been delivered, when all buffers are distinct. -/
theorem not_mem_delivered {c : Circulation α} (h : c.all.Nodup) {f : α} (hf : f ∈ c.taken) :
    f ∉ c.delivered := by
  intro hd
  obtain ⟨_, _, hdisj⟩ := List.nodup_append.mp h
  exact hdisj f (List.mem_append_right _ hf) f hd rfl

end Circulation

end SnippetsC
