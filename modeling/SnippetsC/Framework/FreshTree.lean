import SnippetsC.Framework.FileTree

namespace SnippetsC

open SnippetsC.Path

/-! For every path, a file tree in which the path leads to a directory that it has not come through
before: whenever it goes up again, it has come down through a link to somewhere else. -/

namespace Path

/-- How far the components go up before anything else. -/
def ups : List Name → Nat
  | [] => 0
  | c :: cs => if c = dotdot then ups cs + 1 else if c = [] ∨ c = dot then ups cs else 0

theorem ups_le_count (cs : List Name) : ups cs ≤ cs.count dotdot := by
  induction cs with
  | nil => exact Nat.zero_le _
  | cons c cs ih =>
    rw [ups]
    split_ifs with hup hstay
    · rw [hup, List.count_cons_self]
      exact Nat.succ_le_succ ih
    · rw [List.count_cons_of_ne hup]
      exact ih
    · exact Nat.zero_le _

theorem ups_of_special {c : Name} (cs : List Name) (h : ¬Special c) : ups (c :: cs) = 0 := by
  rw [ups, if_neg fun hup => h (.inr (.inr hup)), if_neg fun hstay => h (hstay.imp_right .inl)]

/-- The path `/g/g/..` with `k` components. -/
def chainPath (g : Name) : Nat → List UInt8
  | 0 => []
  | k + 1 => slash :: (g ++ chainPath g k)

theorem components_chainPath {g : Name} (hg : slash ∉ g) (k : Nat) :
    components (g ++ chainPath g k) = List.replicate (k + 1) g := by
  induction k with
  | zero =>
    rw [chainPath, List.append_nil, components_eq hg]
    rfl
  | succ k ih =>
    rw [chainPath, components_append, ih, components_eq hg]
    rfl

section chain

variable {kind : Place → Option Kind} {g : Name} {n : Nat}

theorem walk_chain (hg : ¬Special g) (hchain : ∀ k, kind (List.replicate k g) = some .dir)
    (k m : Nat) (cs : List Name) :
    walk kind n (List.replicate k g) (List.replicate m g ++ cs) =
      walk kind n (List.replicate (k + m) g) cs := by
  induction m generalizing k with
  | zero => rfl
  | succ m ih =>
    rw [List.replicate_succ, List.cons_append, walk_entry (hchain k) hg, ← List.replicate_succ,
      hchain]
    change walk kind n (List.replicate (k + 1) g) _ = _
    rw [ih, Nat.add_right_comm, Nat.add_assoc]

/-- A link to somewhere down the chain. -/
theorem walk_chainPath (hg : ¬Special g) (hs : slash ∉ g)
    (hchain : ∀ k, kind (List.replicate k g) = some .dir) (d : Place) (m : Nat) (cs : List Name) :
    walk kind n (start d (chainPath g (m + 1))) (components (chainPath g (m + 1)) ++ cs) =
      walk kind n (List.replicate (m + 1) g) cs := by
  have hcomp : components (chainPath g (m + 1)) = [] :: List.replicate (m + 1) g := by
    rw [← components_chainPath hs m]
    exact components_append [] _
  have hstart : start d (chainPath g (m + 1)) = [] := if_pos rfl
  have hroot : kind [] = some .dir := hchain 0
  have hwalk := walk_chain (n := n) hg hchain 0 (m + 1) cs
  rw [hcomp, hstart, List.cons_append, walk_stay hroot (.inl rfl)]
  rwa [Nat.zero_add] at hwalk

end chain

/-- Below the `e`-th directory of the chain `/g/g/..` there is nothing but the chain, and behind
`xs` from there nothing at all. -/
structure Roomy (g : Name) (kind : Place → Option Kind) (e : Nat) (xs : Place) : Prop where
  tree : ∀ x p, kind (x :: p) ≠ none → kind p = some .dir
  chain : ∀ k, kind (List.replicate k g) = some .dir
  beyond : ∀ zs, kind (zs ++ List.replicate (e + 1) g) ≠ none → ∀ z ∈ zs, z = g
  behind : ∀ zs x, kind (zs ++ x :: (xs ++ List.replicate e g)) ≠ none → x = g ∧ xs = []
  off : ∀ x ∈ xs, x ≠ g

theorem roomy_chain (g : Name) :
    Roomy g (fun p => if ∀ x ∈ p, x = g then some .dir else none) 0 [] where
  tree := by
    intro x p h
    refine if_pos ?_
    by_contra hn
    exact h (if_neg fun hall => hn fun y hy => hall y (List.mem_cons_of_mem _ hy))
  chain k := if_pos fun _ hx => List.eq_of_mem_replicate hx
  beyond := by
    intro zs h z hz
    by_contra hn
    exact h (if_neg fun hall => hn (hall z (List.mem_append_left _ hz)))
  behind := by
    intro zs x h
    refine ⟨?_, rfl⟩
    by_contra hn
    exact h (if_neg fun hall => hn (hall x (by simp)))
  off := List.forall_mem_nil _

/-- An entry with another name is not on the chain further down. -/
theorem ne_beyond {g a : Name} {e : Nat} {xs zs : Place} (ha : a ≠ g) (hxs : ∀ x ∈ xs, x ≠ g) :
    zs ++ List.replicate (e + 1) g ≠ a :: (xs ++ List.replicate e g) := by
  intro h
  have hcount := congrArg (List.count g) h
  have hnone : xs.count g = 0 := List.count_eq_zero.mpr fun hg => hxs g hg rfl
  rw [List.count_append, List.count_cons_of_ne ha, List.count_append, hnone,
    List.count_replicate_self, List.count_replicate_self] at hcount
  omega

namespace Roomy

variable {g a : Name} {kind : Place → Option Kind} {e : Nat} {xs : Place}

/-- Where the components of the next step are looked up. -/
theorem dir (h : Roomy g kind e xs) (hxs : kind (xs ++ List.replicate e g) = some .dir)
    {n : Nat} (hn : n ≠ 0 → xs = []) : kind (xs ++ List.replicate (e + n) g) = some .dir := by
  by_cases hzero : n = 0
  · rw [hzero]
    exact hxs
  · rw [hn hzero]
    exact h.chain (e + n)

theorem new (h : Roomy g kind e xs) (ha : a ≠ g) :
    kind (a :: (xs ++ List.replicate e g)) = none := by
  by_contra hn
  exact ha (h.behind [] a hn).1

variable {k : Kind}

theorem tree_update (h : Roomy g kind e xs) (ha : a ≠ g)
    (hxs : kind (xs ++ List.replicate e g) = some .dir) (x : Name) (p : Place)
    (hp : Function.update kind (a :: (xs ++ List.replicate e g)) (some k) (x :: p) ≠ none) :
    Function.update kind (a :: (xs ++ List.replicate e g)) (some k) p = some .dir := by
  have hdir : kind p = some .dir := by
    by_cases hx : x :: p = a :: (xs ++ List.replicate e g)
    · rw [(List.cons.inj hx).2]
      exact hxs
    · rw [Function.update_of_ne hx] at hp
      exact h.tree x p hp
  rw [Function.update_of_ne, hdir]
  rintro rfl
  rw [h.new ha] at hdir
  cases hdir

theorem chain_update (h : Roomy g kind e xs) (ha : a ≠ g) (m : Nat) :
    Function.update kind (a :: (xs ++ List.replicate e g)) (some k) (List.replicate m g) =
      some .dir := by
  rw [Function.update_of_ne, h.chain]
  intro hp
  exact ha (List.eq_of_mem_replicate (hp ▸ List.mem_cons_self))

/-- One directory more. -/
theorem down (h : Roomy g kind e xs) (ha : a ≠ g)
    (hxs : kind (xs ++ List.replicate e g) = some .dir) :
    Roomy g (Function.update kind (a :: (xs ++ List.replicate e g)) (some .dir)) e (a :: xs) where
  tree := h.tree_update ha hxs
  chain := h.chain_update ha
  beyond := by
    intro zs hz
    rw [Function.update_of_ne (ne_beyond ha h.off)] at hz
    exact h.beyond zs hz
  behind := by
    intro zs x hz
    have hne : zs ++ x :: (a :: xs ++ List.replicate e g) ≠ a :: (xs ++ List.replicate e g) := by
      intro heq
      have hlen := congrArg List.length heq
      simp only [List.length_append, List.length_cons] at hlen
      omega
    rw [Function.update_of_ne hne] at hz
    have hback := h.behind (zs ++ [x]) a (by simpa using hz)
    exact absurd hback.1 ha
  off := List.forall_mem_cons.mpr ⟨ha, h.off⟩

/-- A link out of here: the chain further down is as empty as before. -/
theorem jump (h : Roomy g kind e xs) (ha : a ≠ g)
    (hxs : kind (xs ++ List.replicate e g) = some .dir) (path : List UInt8) :
    Roomy g (Function.update kind (a :: (xs ++ List.replicate e g)) (some (.link path)))
      (e + 1) [] := by
  have hbeyond (zs : Place) (hz : Function.update kind (a :: (xs ++ List.replicate e g))
      (some (.link path)) (zs ++ List.replicate (e + 1) g) ≠ none) : ∀ z ∈ zs, z = g := by
    rw [Function.update_of_ne (ne_beyond ha h.off)] at hz
    exact h.beyond zs hz
  refine ⟨h.tree_update ha hxs, h.chain_update ha, ?_, ?_, List.forall_mem_nil _⟩
  · intro zs hz z hmem
    refine hbeyond (zs ++ [g]) (by simpa [List.replicate_succ] using hz) z ?_
    exact List.mem_append_left _ hmem
  · intro zs x hz
    exact ⟨hbeyond (zs ++ [x]) (by simpa using hz) x (by simp), rfl⟩

end Roomy

/-- The entries that there were are still there; the way along `cs` leads to the directory `q`, in
which there is nothing but perhaps `g`. -/
structure LeadsTo (g : Name) (kind kind' : Place → Option Kind) (n : Nat) (d : Place)
    (cs : List Name) (q : Place) : Prop where
  keeps : ∀ p, kind p ≠ none → kind' p = kind p
  tree : ∀ x p, kind' (x :: p) ≠ none → kind' p = some .dir
  walk : walk kind' n d cs = some q
  dir : kind' q = some .dir
  empty : ∀ c ≠ g, kind' (c :: q) = none

theorem LeadsTo.of_dir {g : Name} {kind kind' : Place → Option Kind} {n : Nat} {d p q : Place}
    {cs : List Name} (h : LeadsTo g kind kind' n d cs q) (hp : kind p = some .dir) :
    kind' p = some .dir := by
  rw [h.keeps p (by rw [hp]; exact Option.some_ne_none _), hp]

/-- One step in front of a way, at a place that has been filled for it. -/
theorem LeadsTo.step {g : Name} {kind kind' : Place → Option Kind} {n m : Nat} {p d d' q : Place}
    {c : Name} {cs : List Name} {k : Kind}
    (h : LeadsTo g (Function.update kind p (some k)) kind' m d' cs q) (hp : kind p = none)
    (hwalk : kind' p = some k → Path.walk kind' m d' cs = some q →
      Path.walk kind' n d (c :: cs) = some q) :
    LeadsTo g kind kind' n d (c :: cs) q := by
  have hkept : kind' p = some k := by
    rw [h.keeps p (by rw [Function.update_self]; exact Option.some_ne_none k), Function.update_self]
  refine ⟨?_, h.tree, hwalk hkept h.walk, h.dir, h.empty⟩
  intro r hr
  have hne : r ≠ p := by
    rintro rfl
    exact hr hp
  rw [h.keeps r (by rwa [Function.update_of_ne hne]), Function.update_of_ne hne]

section step

variable {g c : Name} {kind kind' : Place → Option Kind} {e n : Nat} {xs d q : Place}
  {cs : List Name}

theorem LeadsTo.up (h : LeadsTo g kind kind' n d.tail cs q) (hd : kind d = some .dir) :
    LeadsTo g kind kind' n d (dotdot :: cs) q := by
  refine ⟨h.keeps, h.tree, ?_, h.dir, h.empty⟩
  rw [walk_up (h.of_dir hd)]
  exact h.walk

theorem LeadsTo.stay (h : LeadsTo g kind kind' n d cs q) (hd : kind d = some .dir)
    (hc : c = [] ∨ c = dot) : LeadsTo g kind kind' n d (c :: cs) q := by
  refine ⟨h.keeps, h.tree, ?_, h.dir, h.empty⟩
  rw [walk_stay (h.of_dir hd) hc]
  exact h.walk

/-- A directory is put in the way. -/
theorem LeadsTo.down (h : Roomy g kind e xs) (hc : c ≠ g) (hsp : ¬Special c)
    (hq : LeadsTo g (Function.update kind (c :: (xs ++ List.replicate e g)) (some .dir)) kind' n
      (c :: (xs ++ List.replicate e g)) cs q) :
    LeadsTo g kind kind' n (xs ++ List.replicate e g) (c :: cs) q := by
  refine hq.step (h.new hc) ?_
  intro hkept hwalk
  have hdir := hq.tree c _ (by rw [hkept]; exact Option.some_ne_none _)
  rw [walk_entry hdir hsp, hkept]
  exact hwalk

/-- A link to the chain is put in the way. -/
theorem LeadsTo.jump (hg : ¬Special g) (hs : slash ∉ g) (h : Roomy g kind e xs) (hc : c ≠ g)
    (hsp : ¬Special c) {m : Nat}
    (hq : LeadsTo g (Function.update kind (c :: (xs ++ List.replicate e g))
      (some (.link (chainPath g (m + 1))))) kind' n (List.replicate (m + 1) g) cs q) :
    LeadsTo g kind kind' (n + 1) (xs ++ List.replicate e g) (c :: cs) q := by
  refine hq.step (h.new hc) ?_
  intro hkept hwalk
  have hdir := hq.tree c _ (by rw [hkept]; exact Option.some_ne_none _)
  have hchain (k : Nat) : kind' (List.replicate k g) = some .dir := hq.of_dir (h.chain_update hc k)
  rw [walk_entry hdir hsp, hkept]
  exact (walk_chainPath hg hs hchain _ m cs).trans hwalk

end step

/-- Wherever there is room, directories and links can be put in the way so that it leads on to a
place of its own; there is a link only where the way turns to go up. -/
theorem Roomy.exists_leadsTo {g : Name} (hg : ¬Special g) (hs : slash ∉ g) {cs : List Name}
    (hcs : ∀ c ∈ cs, c ≠ g) {kind : Place → Option Kind} {e n : Nat} {xs : Place}
    (h : Roomy g kind e xs) (hxs : kind (xs ++ List.replicate e g) = some .dir)
    (hups : ups cs ≠ 0 → xs = []) (hn : cs.count dotdot ≤ n + ups cs) :
    ∃ kind' q, LeadsTo g kind kind' n (xs ++ List.replicate (e + ups cs) g) cs q := by
  induction cs generalizing kind e n xs with
  | nil =>
    exact ⟨kind, _, fun _ _ => rfl, h.tree, walk_nil _ _ _, hxs, fun c hc => h.new hc⟩
  | cons c cs ih =>
    obtain ⟨hc, hrest⟩ := List.forall_mem_cons.mp hcs
    by_cases hup : c = dotdot
    · subst hup
      have hsucc : ups (dotdot :: cs) = ups cs + 1 := if_pos rfl
      rw [hsucc] at hups hn
      rw [List.count_cons_self] at hn
      obtain rfl := hups (Nat.succ_ne_zero _)
      obtain ⟨kind', q, hq⟩ := ih hrest h hxs (fun _ => rfl) (n := n) (by omega)
      rw [hsucc]
      exact ⟨kind', q, hq.up (h.dir hxs fun _ => rfl)⟩
    by_cases hstay : c = [] ∨ c = dot
    · have hsame : ups (c :: cs) = ups cs := by rw [ups, if_neg hup, if_pos hstay]
      rw [hsame] at hups hn
      rw [List.count_cons_of_ne hup] at hn
      obtain ⟨kind', q, hq⟩ := ih hrest h hxs hups hn
      rw [hsame]
      exact ⟨kind', q, hq.stay (h.dir hxs hups) hstay⟩
    · have hsp : ¬Special c := by
        rintro (hc | hc | hc)
        · exact hstay (.inl hc)
        · exact hstay (.inr hc)
        · exact hup hc
      have hzero := ups_of_special cs hsp
      rw [hzero, List.count_cons_of_ne hup] at hn
      rw [hzero, Nat.add_zero]
      by_cases hturn : ups cs = 0
      · obtain ⟨kind', q, hq⟩ := ih hrest (h.down hc hxs) (Function.update_self ..)
          (fun hne => absurd hturn hne) (n := n) (by omega)
        rw [hturn] at hq
        exact ⟨kind', q, .down h hc hsp hq⟩
      · -- the way goes up from here, so it is led to where there is enough above it
        have hpos := ups_le_count cs
        obtain ⟨m, rfl⟩ : ∃ m, n = m + 1 := Nat.exists_eq_succ_of_ne_zero (by omega)
        have hj := h.jump hc hxs (chainPath g (e + ups cs + 1))
        obtain ⟨kind', q, hq⟩ := ih hrest hj (hj.chain (e + 1)) (fun _ => rfl) (n := m) (by omega)
        rw [Nat.add_right_comm e 1 (ups cs)] at hq
        exact ⟨kind', q, .jump hg hs h hc hsp hq⟩

end Path

/-- There is a file tree in which a way that does not begin upwards leads to a directory with
nothing in it, with the given mounts on it. -/
theorem FileTree.exists_walk {M : Type*} (len : Nat) (mounts : List M) {cs : List Name}
    (hlen : ∀ c ∈ cs, c.length ≤ len) (hups : ups cs = 0) (hn : cs.count dotdot ≤ MAXSYMLINKS) :
    ∃ (t : FileTree M) (q : Place), walk t.kind MAXSYMLINKS [] cs = some q ∧
      t.kind q = some .dir ∧ t.mounts q = mounts ∧
      ∀ c : Name, c.length ≤ len → t.kind (c :: q) = none := by
  -- a name that is not in the way
  let g : Name := List.replicate (len + 3) 0x67
  have hg : g.length = len + 3 := List.length_replicate
  have hne (c : Name) (hc : c.length ≤ len) : c ≠ g := by
    rintro rfl
    omega
  have hsp : ¬Special g := by
    rintro (h | h | h)
    all_goals
      rw [h] at hg
      simp [dot, dotdot] at hg
  have hslash : slash ∉ g := fun h => absurd (List.eq_of_mem_replicate h) (by decide)
  obtain ⟨kind, q, hq⟩ := (roomy_chain g).exists_leadsTo hsp hslash (n := MAXSYMLINKS)
    (fun c hc => hne c (hlen c hc)) ((roomy_chain g).chain 0) (fun _ => rfl) (by omega)
  rw [hups] at hq
  have hmounted (p : Place) (hp : Function.update (fun _ => []) q mounts p ≠ []) :
      kind p = some .dir ∨ kind p = some .file := by
    by_cases hpq : p = q
    · rw [hpq]
      exact .inl hq.dir
    · rw [Function.update_of_ne hpq] at hp
      exact absurd rfl hp
  let t : FileTree M :=
    { kind := kind
      mounts := Function.update (fun _ => []) q mounts
      root := hq.of_dir ((roomy_chain g).chain 0)
      parent_dir := hq.tree _ _
      mounted := hmounted _ }
  have hmounts : t.mounts q = mounts := Function.update_self q mounts fun _ => []
  exact ⟨t, q, hq.walk, hq.dir, hmounts, fun c hc => hq.empty c (hne c hc)⟩

end SnippetsC
