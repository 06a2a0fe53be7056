import SnippetsC.Framework.Transition

namespace SnippetsC

/-! Runs that get on by a measure on the states. -/

variable {σ α : Type*} {step : σ → α → Option σ} {inv done : σ → Prop} {Q : σ → α → Prop}
  {own : α → Bool} {m : σ → Nat}

theorem foldlM_cons_eq_some {s s' : σ} {a : α} {as : List α} :
    (a :: as).foldlM step s = some s' ↔ ∃ t, step s a = some t ∧ as.foldlM step t = some s' := by
  rw [List.foldlM_cons]
  exact Option.bind_eq_some_iff

theorem foldlM_invariant (inv : σ → Prop)
    (hinv : ∀ s a s', inv s → step s a = some s' → inv s') {s s' : σ} (hi : inv s)
    {as : List α} (hrun : as.foldlM step s = some s') : inv s' := by
  induction as generalizing s with
  | nil =>
    cases hrun
    exact hi
  | cons a as ih =>
    obtain ⟨t, ha, hrest⟩ := foldlM_cons_eq_some.mp hrun
    exact ih (hinv s a t hi ha) hrest

/-- A run that does not get stuck takes all of its actions. -/
theorem map_snd_departures {s s' : σ} {as : List α} (hrun : as.foldlM step s = some s') :
    (departures step s as).map Prod.snd = as := by
  induction as generalizing s with
  | nil => rfl
  | cons a as ih =>
    obtain ⟨t, ha, hrest⟩ := foldlM_cons_eq_some.mp hrun
    rw [departures, ha, List.map_cons, ih hrest]

theorem departures_invariant (hinv : ∀ s a s', inv s → step s a = some s' → inv s') {s : σ}
    (hi : inv s) (as : List α) : ∀ x ∈ departures step s as, inv x.1 := by
  induction as generalizing s with
  | nil => exact List.forall_mem_nil _
  | cons a as ih =>
    rw [departures]
    cases hs : step s a with
    | none => exact List.forall_mem_nil _
    | some s' => exact List.forall_mem_cons.mpr ⟨hi, ih (hinv s a s' hi hs)⟩

/-- If each of a party's own steps lowers the measure by one and the steps of others keep it, the
measure tells how many steps of its own the party has made, however the others come in between. -/
theorem foldlM_countdown (hinv : ∀ s a s', inv s → step s a = some s' → inv s')
    (hown : ∀ s a s', inv s → Q s a → own a = true → 0 < m s → step s a = some s' →
      m s' + 1 = m s)
    (hothers : ∀ s a s', inv s → own a = false → step s a = some s' → m s' = m s) {s s' : σ}
    (hi : inv s) {as : List α} (hrun : as.foldlM step s = some s')
    (hq : ∀ x ∈ departures step s as, Q x.1 x.2) (hle : as.countP own ≤ m s) :
    m s' + as.countP own = m s := by
  induction as generalizing s with
  | nil =>
    cases hrun
    rfl
  | cons a as ih =>
    obtain ⟨t, ha, hrest⟩ := foldlM_cons_eq_some.mp hrun
    have ht := hinv s a t hi ha
    rw [departures, ha] at hq
    obtain ⟨hqa, hqs⟩ := List.forall_mem_cons.mp hq
    cases hb : own a with
    | true =>
      rw [List.countP_cons_of_pos hb] at hle ⊢
      have hlow := hown s a t hi hqa hb (by omega) ha
      have hend := ih ht hrest hqs (by omega)
      omega
    | false =>
      rw [List.countP_cons_of_neg (by rw [hb]; exact Bool.false_ne_true)] at hle ⊢
      have hsame := hothers s a t hi hb ha
      rw [← hsame] at hle ⊢
      exact ih ht hrest hqs hle

/-- If every step lowers the measure until all is done, all is done after as many steps. -/
theorem foldlM_done (hinv : ∀ s a s', inv s → step s a = some s' → inv s')
    (hzero : ∀ s, inv s → m s = 0 → done s)
    (hdone : ∀ s a s', inv s → done s → step s a = some s' → done s')
    (hlow : ∀ s a s', inv s → ¬done s → step s a = some s' → m s' < m s) {s s' : σ}
    (hi : inv s) {as : List α} (hrun : as.foldlM step s = some s')
    (hlong : done s ∨ m s ≤ as.length) : done s' := by
  induction as generalizing s with
  | nil =>
    cases hrun
    exact hlong.elim id fun hle => hzero _ hi (Nat.le_zero.mp hle)
  | cons a as ih =>
    obtain ⟨t, ha, hrest⟩ := foldlM_cons_eq_some.mp hrun
    refine ih (hinv s a t hi ha) hrest ?_
    by_cases hd : done s
    · exact .inl (hdone s a t hi hd ha)
    · have hlt := hlow s a t hi hd ha
      have hle : m s ≤ as.length + 1 := hlong.resolve_left hd
      exact .inr (by omega)

end SnippetsC
