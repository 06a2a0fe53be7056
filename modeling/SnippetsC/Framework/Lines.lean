import SnippetsC.Framework.Printf
import Mathlib.Data.List.Nodup

namespace SnippetsC

/-! Text that consists of lines. -/

/-- A newline at the end and nowhere else. -/
def IsLine (s : String) : Prop := ∃ cs : List Char, '\n' ∉ cs ∧ s.toList = cs ++ ['\n']

/-- The lines can be read off the text. -/
theorem join_lines_injective {as bs : List String} (ha : ∀ a ∈ as, IsLine a)
    (hb : ∀ b ∈ bs, IsLine b) (h : String.join as = String.join bs) : as = bs := by
  induction as generalizing bs with
  | nil =>
    cases bs with
    | nil => rfl
    | cons b bs =>
      obtain ⟨cs, -, hcs⟩ := hb b List.mem_cons_self
      have hlist := congrArg String.toList h
      rw [String.join_cons, String.toList_append, hcs] at hlist
      simp at hlist
  | cons a as ih =>
    obtain ⟨cs, hnone, hcs⟩ := ha a List.mem_cons_self
    cases bs with
    | nil =>
      have hlist := congrArg String.toList h
      rw [String.join_cons, String.toList_append, hcs] at hlist
      simp at hlist
    | cons b bs =>
      obtain ⟨ds, hnone', hds⟩ := hb b List.mem_cons_self
      have hlist := congrArg String.toList h
      rw [String.join_cons, String.join_cons, String.toList_append, String.toList_append, hcs, hds,
        List.append_assoc, List.append_assoc] at hlist
      obtain ⟨hline, hrest⟩ := append_separator_inj hnone hnone' hlist
      rw [← hline, ← hcs, String.toList_inj] at hds
      rw [List.forall_mem_cons] at ha hb
      rw [← hds, ih ha.2 hb.2 (String.toList_inj.mp hrest)]

/-- Entries of a table that are kept can be read off their labels if no two entries share one. -/
theorem filter_labels_injective {κ : Type*} {table : List (κ × String)} {p q : κ × String → Bool}
    (hnodup : (table.map Prod.snd).Nodup)
    (h : (table.filter p).map Prod.snd = (table.filter q).map Prod.snd) :
    ∀ x ∈ table, p x = q x := by
  intro x hx
  have hiff : ∀ r : κ × String → Bool, x.2 ∈ (table.filter r).map Prod.snd ↔ r x = true := by
    intro r
    rw [List.mem_map]
    constructor
    · intro hmem
      obtain ⟨y, hy, hxy⟩ := hmem
      obtain ⟨hyt, hry⟩ := List.mem_filter.mp hy
      rw [← List.inj_on_of_nodup_map hnodup hyt hx hxy]
      exact hry
    · intro hr
      exact ⟨x, List.mem_filter.mpr ⟨hx, hr⟩, rfl⟩
  rw [Bool.eq_iff_iff, ← hiff p, ← hiff q, h]

section ends

variable {α : Type*} {u : α} {xs ys : List α} {b e b' e' : Bool}

/-- An entry that may stand behind a list without it. -/
theorem behind_injective (hx : u ∉ xs) (hy : u ∉ ys)
    (h : (xs ++ if e then [u] else []) = ys ++ if e' then [u] else []) : e = e' ∧ xs = ys := by
  cases e with
  | true =>
    cases e' with
    | true => exact ⟨rfl, List.append_cancel_right h⟩
    | false =>
      have hmem : u ∈ ys ++ [] := h ▸ List.mem_append_right xs List.mem_cons_self
      rw [List.append_nil] at hmem
      exact absurd hmem hy
  | false =>
    cases e' with
    | true =>
      have hmem : u ∈ xs ++ [] := h ▸ List.mem_append_right ys List.mem_cons_self
      rw [List.append_nil] at hmem
      exact absurd hmem hx
    | false => exact ⟨rfl, List.append_cancel_right h⟩

/-- What stands in front of one list and not of the other stands behind the other, alone. -/
theorem front_behind (hy : u ∉ ys)
    (h : (u :: (xs ++ if e then [u] else [])) = ys ++ if e' then [u] else []) :
    e' = true ∧ e = false ∧ xs = [] ∧ ys = [] := by
  cases ys with
  | cons y ys => exact absurd (List.mem_cons.mpr (.inl (List.cons.inj h).1)) hy
  | nil =>
    cases e' with
    | false => cases h
    | true =>
      obtain ⟨hxs, he⟩ := List.append_eq_nil_iff.mp (List.cons.inj h).2
      cases e with
      | true => cases he
      | false => exact ⟨rfl, rfl, hxs, rfl⟩

/-- An entry that may stand at both ends of a list without it: where it stands can be read off
unless it stands alone. -/
theorem ends_injective (hx : u ∉ xs) (hy : u ∉ ys)
    (h : (if b then [u] else []) ++ (xs ++ if e then [u] else []) =
      (if b' then [u] else []) ++ (ys ++ if e' then [u] else [])) :
    (b = b' ∧ e = e' ∧ xs = ys) ∨ (b = e' ∧ e = b' ∧ b ≠ e ∧ xs = [] ∧ ys = []) := by
  cases b with
  | true =>
    cases b' with
    | true => exact .inl ⟨rfl, behind_injective hx hy (List.append_cancel_left h)⟩
    | false =>
      obtain ⟨rfl, rfl, hxs, hys⟩ := front_behind hy h
      exact .inr ⟨rfl, rfl, Bool.noConfusion, hxs, hys⟩
  | false =>
    cases b' with
    | true =>
      obtain ⟨rfl, rfl, hys, hxs⟩ := front_behind hx h.symm
      exact .inr ⟨rfl, rfl, Bool.noConfusion, hxs, hys⟩
    | false => exact .inl ⟨rfl, behind_injective hx hy h⟩

end ends

end SnippetsC
