import Mathlib.Data.List.Basic
import Mathlib.Tactic.Common

namespace SnippetsC

/-- One component of a path. -/
abbrev Name := List UInt8

/-- A place in a tree of directories: the names from the place up to the root. -/
abbrev Place := List Name

/-- What is at a place. A symbolic link has a path. -/
inductive Kind where
  | dir
  | file
  | link (path : List UInt8)
  deriving DecidableEq

namespace Path

def slash : UInt8 := 0x2f
def dot : Name := [0x2e]
def dotdot : Name := [0x2e, 0x2e]

def components (path : List UInt8) : List Name := path.splitOn slash

/-- A component that is not the name of an entry. -/
def Special (c : Name) : Prop := c = [] ∨ c = dot ∨ c = dotdot

instance (c : Name) : Decidable (Special c) := inferInstanceAs (Decidable (_ ∨ _ ∨ _))

theorem components_append (as bs : List UInt8) :
    components (as ++ slash :: bs) = components as ++ components bs :=
  List.splitOn_append_cons_self as bs

theorem components_eq {as : List UInt8} (h : slash ∉ as) : components as = [as] :=
  List.splitOn_eq_singleton h

theorem components_ne_nil (as : List UInt8) : components as ≠ [] := List.splitOn_ne_nil slash as

theorem components_cons (a : UInt8) (as : List UInt8) : components (a :: as) =
    if a = slash then [] :: components as else (components as).modifyHead (a :: ·) := by
  rw [components, components, List.splitOn_eq_splitOnP, List.splitOnP_cons_eq_if_modifyHead,
    ← List.splitOn_eq_splitOnP]
  simp only [beq_iff_eq]

theorem mem_components {as : List UInt8} {c : Name} (h : c ∈ components as) :
    slash ∉ c ∧ c.length ≤ as.length := by
  induction as generalizing c with
  | nil =>
    rw [List.mem_singleton.mp h]
    exact ⟨List.not_mem_nil, Nat.le_refl _⟩
  | cons a as ih =>
    rw [components_cons] at h
    split_ifs at h with ha
    · rcases List.mem_cons.mp h with rfl | h
      · exact ⟨List.not_mem_nil, Nat.zero_le _⟩
      · obtain ⟨hs, hlen⟩ := ih h
        exact ⟨hs, Nat.le_trans hlen (Nat.le_succ _)⟩
    · -- the first component goes on with `a`
      obtain ⟨x, xs, hxs⟩ := List.exists_cons_of_ne_nil (components_ne_nil as)
      rw [hxs, List.modifyHead_cons] at h
      rw [hxs] at ih
      rcases List.mem_cons.mp h with rfl | h
      · obtain ⟨hs, hlen⟩ := ih List.mem_cons_self
        refine ⟨?_, Nat.succ_le_succ hlen⟩
        rintro (_ | ⟨_, hmem⟩)
        · exact ha rfl
        · exact hs hmem
      · obtain ⟨hs, hlen⟩ := ih (List.mem_cons_of_mem _ h)
        exact ⟨hs, Nat.le_trans hlen (Nat.le_succ _)⟩

/-- The components and the slashes between them make up the path. -/
theorem length_components (as : List UInt8) :
    (components as).flatten.length + (components as).length = as.length + 1 := by
  induction as with
  | nil => rfl
  | cons a as ih =>
    rw [components_cons]
    split_ifs with ha
    · rw [List.flatten_cons, List.nil_append, List.length_cons, List.length_cons]
      omega
    · obtain ⟨x, xs, hxs⟩ := List.exists_cons_of_ne_nil (components_ne_nil as)
      rw [hxs, List.flatten_cons, List.length_append, List.length_cons] at ih
      rw [hxs, List.modifyHead_cons, List.flatten_cons, List.length_append, List.length_cons,
        List.length_cons, List.length_cons]
      omega

theorem count_dotdot_le (as : List UInt8) :
    3 * (components as).count dotdot ≤ as.length + 1 := by
  rw [← length_components as]
  induction components as with
  | nil => exact Nat.le_refl _
  | cons c cs ih =>
    rw [List.flatten_cons, List.length_append, List.length_cons]
    by_cases hc : c = dotdot
    · subst hc
      have hlen : dotdot.length = 2 := rfl
      rw [List.count_cons_self, hlen]
      omega
    · rw [List.count_cons_of_ne hc]
      omega

/-! Where a path leads. -/

/-- Where the path of a link in directory `d` starts. -/
def start (d : Place) (path : List UInt8) : Place := if path.head? = some slash then [] else d

/-- The way along some components, each looked up in a directory; `follow` is how it goes on where
there is a link. -/
def walkWith (kind : Place → Option Kind) (follow : Place → List Name → Option Place) :
    Place → List Name → Option Place
  | d, [] => some d
  | d, c :: cs =>
    if kind d ≠ some .dir then none
    else if c = dotdot then walkWith kind follow d.tail cs
    else if c = [] ∨ c = dot then walkWith kind follow d cs
    else match kind (c :: d) with
      | none => none
      | some (.link s) => follow (start d s) (components s ++ cs)
      | some _ => walkWith kind follow (c :: d) cs

/-- The way along some components that follows at most `n` links. -/
def walk (kind : Place → Option Kind) : Nat → Place → List Name → Option Place
  | 0 => walkWith kind fun _ _ => none
  | n + 1 => walkWith kind (walk kind n)

/-- The ways that lead somewhere, step by step. -/
inductive Way (kind : Place → Option Kind) : Nat → Place → List Name → Place → Prop
  | done {n d} : Way kind n d [] d
  | up {n d cs q} (hd : kind d = some .dir) (h : Way kind n d.tail cs q) :
    Way kind n d (dotdot :: cs) q
  | stay {n d c cs q} (hd : kind d = some .dir) (hc : c = [] ∨ c = dot) (h : Way kind n d cs q) :
    Way kind n d (c :: cs) q
  | down {n d c cs q} (hd : kind d = some .dir) (hc : ¬Special c) (hk : kind (c :: d) = some .dir)
    (h : Way kind n (c :: d) cs q) : Way kind n d (c :: cs) q
  | file {n d c} (hd : kind d = some .dir) (hc : ¬Special c) (hk : kind (c :: d) = some .file) :
    Way kind n d [c] (c :: d)
  | link {n d c cs q s} (hd : kind d = some .dir) (hc : ¬Special c)
    (hk : kind (c :: d) = some (.link s)) (h : Way kind n (start d s) (components s ++ cs) q) :
    Way kind (n + 1) d (c :: cs) q

section walk

variable {kind kind' : Place → Option Kind} {n : Nat} {d q : Place} {c : Name} {cs : List Name}

theorem walk_nil (kind : Place → Option Kind) (n : Nat) (d : Place) : walk kind n d [] = some d := by
  cases n with
  | zero => rfl
  | succ n => rfl

theorem walk_cons (kind : Place → Option Kind) (n : Nat) (d : Place) (c : Name) (cs : List Name) :
    walk kind n d (c :: cs) =
      if kind d ≠ some .dir then none
      else if c = dotdot then walk kind n d.tail cs
      else if c = [] ∨ c = dot then walk kind n d cs
      else match kind (c :: d) with
        | none => none
        | some (.link s) =>
          match n with
          | 0 => none
          | n + 1 => walk kind n (start d s) (components s ++ cs)
        | some _ => walk kind n (c :: d) cs := by
  cases n with
  | zero => rfl
  | succ n => rfl

theorem walk_up (h : kind d = some .dir) : walk kind n d (dotdot :: cs) = walk kind n d.tail cs := by
  rw [walk_cons, if_neg (not_not.mpr h), if_pos rfl]

theorem walk_stay (h : kind d = some .dir) (hc : c = [] ∨ c = dot) :
    walk kind n d (c :: cs) = walk kind n d cs := by
  have hup : c ≠ dotdot := by
    rintro rfl
    exact absurd hc (by decide)
  rw [walk_cons, if_neg (not_not.mpr h), if_neg hup, if_pos hc]

/-- A component that names an entry. -/
theorem walk_entry (h : kind d = some .dir) (hc : ¬Special c) :
    walk kind n d (c :: cs) =
      match kind (c :: d) with
      | none => none
      | some (.link s) =>
        match n with
        | 0 => none
        | n + 1 => walk kind n (start d s) (components s ++ cs)
      | some _ => walk kind n (c :: d) cs := by
  rw [walk_cons, if_neg (not_not.mpr h), if_neg fun hup => hc (.inr (.inr hup)),
    if_neg fun hstay => hc (hstay.imp_right .inl)]

theorem way_of_walk (h : walk kind n d cs = some q) : Way kind n d cs q := by
  induction n using Nat.strongRecOn generalizing d cs with
  | _ n ihn =>
    induction cs generalizing d with
    | nil =>
      rw [walk_nil] at h
      cases h
      exact .done
    | cons c cs ih =>
      rw [walk_cons] at h
      split_ifs at h with hd hup hstay
      · subst hup
        exact .up (not_not.mp hd) (ih h)
      · exact .stay (not_not.mp hd) hstay (ih h)
      · have hsp : ¬Special c := by
          rintro (hc | hc | hc)
          · exact hstay (.inl hc)
          · exact hstay (.inr hc)
          · exact hup hc
        cases hk : kind (c :: d) with
        | none =>
          rw [hk] at h
          cases h
        | some k =>
          rw [hk] at h
          cases k with
          | dir => exact .down (not_not.mp hd) hsp hk (ih h)
          | file =>
            -- nothing is looked up in a file
            cases cs with
            | nil =>
              rw [walk_nil] at h
              cases h
              exact .file (not_not.mp hd) hsp hk
            | cons b bs =>
              rw [walk_cons, if_pos (by rw [hk]; decide)] at h
              cases h
          | link s =>
            cases n with
            | zero => cases h
            | succ m => exact .link (not_not.mp hd) hsp hk (ihn m (Nat.lt_succ_self m) h)

/-- The way to a directory is still there when only files have changed. -/
theorem walk_congr (h : ∀ p k, kind p = some k → k ≠ .file → kind' p = some k)
    (hw : walk kind n d cs = some q) (hq : kind q = some .dir) : walk kind' n d cs = some q := by
  replace hw := way_of_walk hw
  induction hw with
  | done => exact walk_nil _ _ _
  | up hd way ih =>
    rw [walk_up (h _ _ hd nofun)]
    exact ih hq
  | stay hd hc way ih =>
    rw [walk_stay (h _ _ hd nofun) hc]
    exact ih hq
  | down hd hc hk way ih =>
    rw [walk_entry (h _ _ hd nofun) hc, h _ _ hk nofun]
    exact ih hq
  | file hd hc hk =>
    rw [hk] at hq
    cases hq
  | link hd hc hk way ih =>
    rw [walk_entry (h _ _ hd nofun) hc, h _ _ hk nofun]
    exact ih hq

/-- A way to a directory goes on from there, with the links that are left. -/
theorem walk_append (hw : walk kind n d cs = some q) (hq : kind q = some .dir) :
    ∃ m, ∀ cs', walk kind n d (cs ++ cs') = walk kind m q cs' := by
  replace hw := way_of_walk hw
  induction hw with
  | done => exact ⟨_, fun _ => rfl⟩
  | up hd way ih =>
    obtain ⟨m, hm⟩ := ih hq
    refine ⟨m, fun cs' => ?_⟩
    rw [List.cons_append, walk_up hd, hm]
  | stay hd hc way ih =>
    obtain ⟨m, hm⟩ := ih hq
    refine ⟨m, fun cs' => ?_⟩
    rw [List.cons_append, walk_stay hd hc, hm]
  | down hd hc hk way ih =>
    obtain ⟨m, hm⟩ := ih hq
    refine ⟨m, fun cs' => ?_⟩
    rw [List.cons_append, walk_entry hd hc, hk]
    exact hm cs'
  | file hd hc hk =>
    rw [hk] at hq
    cases hq
  | link hd hc hk way ih =>
    obtain ⟨m, hm⟩ := ih hq
    refine ⟨m, fun cs' => ?_⟩
    rw [List.cons_append, walk_entry hd hc, hk, ← hm, List.append_assoc]

/-- From a directory, a way ends at a directory or a file. -/
theorem walk_ends (hroot : kind [] = some .dir)
    (htree : ∀ x p, kind (x :: p) ≠ none → kind p = some .dir) (hd : kind d = some .dir)
    (hw : walk kind n d cs = some q) : kind q = some .dir ∨ kind q = some .file := by
  replace hw := way_of_walk hw
  induction hw with
  | done => exact .inl hd
  | @up _ d _ _ hd' way ih =>
    refine ih ?_
    cases d with
    | nil => exact hroot
    | cons x p => exact htree x p (by rw [hd']; exact Option.some_ne_none _)
  | stay hd' hc way ih => exact ih hd
  | down hd' hc hk way ih => exact ih hk
  | file hd' hc hk => exact .inr hk
  | link hd' hc hk way ih =>
    refine ih ?_
    unfold start
    split_ifs
    · exact hroot
    · exact hd

end walk

end Path

end SnippetsC
