import SnippetsC.Framework.Path
import Mathlib.Data.List.Infix
import Mathlib.Data.Option.Basic
import Mathlib.Logic.Function.Basic
import Mathlib.Order.Basic

namespace SnippetsC

open SnippetsC.Path

/-- How many symbolic links the kernel follows on one path. -/
def MAXSYMLINKS : Nat := 40

/-- Directories, files and symbolic links below a root, and the mounts that are stacked on each. -/
@[ext] structure FileTree (M : Type*) where
  kind : Place → Option Kind
  mounts : Place → List M
  root : kind [] = some .dir
  parent_dir : ∀ {c p}, kind (c :: p) ≠ none → kind p = some .dir
  mounted : ∀ {p}, mounts p ≠ [] → kind p = some .dir ∨ kind p = some .file

namespace FileTree

variable {M : Type*} (t : FileTree M)

/-! Paths, all of them from the root. -/

/-- Where a path leads; links are followed, also at its end. -/
def target (path : List UInt8) : Option Place := walk t.kind MAXSYMLINKS [] (components path)

/-- The directory in which the last component of a path is looked up. -/
def directory (path : List UInt8) : Option Place :=
  (walk t.kind MAXSYMLINKS [] (components path).dropLast).filter fun d => t.kind d = some .dir

def lastComponent (path : List UInt8) : Name := (components path).getLast (components_ne_nil path)

/-- The last component of a path names an entry. -/
def NamesEntry (path : List UInt8) : Prop := ¬Special (lastComponent path)

instance (path : List UInt8) : Decidable (NamesEntry path) := inferInstanceAs (Decidable (¬_))

/-- The place of the entry that a path names; a link at its end is not followed. -/
def entry (path : List UInt8) : Option Place :=
  if NamesEntry path then (t.directory path).map (lastComponent path :: ·) else none

/-- `open` with `O_CREAT | O_EXCL` finds a directory and no entry of the name in it. -/
def Creatable (path : List UInt8) : Prop := ∃ p ∈ t.entry path, t.kind p = none

instance (path : List UInt8) : Decidable (t.Creatable path) :=
  inferInstanceAs (Decidable (∃ p ∈ t.entry path, _))

/-- The path leads to a file. -/
def LeadsToFile (path : List UInt8) : Prop := ∃ p ∈ t.target path, t.kind p = some .file

instance (path : List UInt8) : Decidable (t.LeadsToFile path) :=
  inferInstanceAs (Decidable (∃ p ∈ t.target path, _))

/-- The path leads to a mount. -/
def Mounted (path : List UInt8) : Prop := ∃ p ∈ t.target path, t.mounts p ≠ []

instance (path : List UInt8) : Decidable (t.Mounted path) :=
  inferInstanceAs (Decidable (∃ p ∈ t.target path, _))

/-- There is a file or a link, and nothing is mounted on it. -/
structure Loose (p : Place) : Prop where
  there : t.kind p ≠ none
  no_dir : t.kind p ≠ some .dir
  free : t.mounts p = []

instance (p : Place) : Decidable (t.Loose p) :=
  decidable_of_iff (t.kind p ≠ none ∧ t.kind p ≠ some .dir ∧ t.mounts p = [])
    ⟨fun h => ⟨h.1, h.2.1, h.2.2⟩, fun h => ⟨h.there, h.no_dir, h.free⟩⟩

/-- The path names a file or a link on which nothing is mounted. -/
def Removable (path : List UInt8) : Prop := ∃ p ∈ t.entry path, t.Loose p

instance (path : List UInt8) : Decidable (t.Removable path) :=
  inferInstanceAs (Decidable (∃ p ∈ t.entry path, _))

section paths

variable {t} {t' : FileTree M} {path : List UInt8} {p : Place}

theorem entry_eq_some : t.entry path = some p ↔
    NamesEntry path ∧ ∃ d, walk t.kind MAXSYMLINKS [] (components path).dropLast = some d ∧
      t.kind d = some .dir ∧ p = lastComponent path :: d := by
  rw [entry]
  split_ifs with hentry
  · rw [Option.map_eq_some_iff, and_iff_right hentry]
    simp only [directory, Option.filter_eq_some_iff, decide_eq_true_eq, and_assoc,
      eq_comm (a := p)]
  · exact iff_of_false nofun fun h => hentry h.1

/-- Changes to files do not change where an entry is. -/
theorem entry_congr (h : ∀ q k, t.kind q = some k → k ≠ .file → t'.kind q = some k)
    (hp : t.entry path = some p) : t'.entry path = some p := by
  obtain ⟨hentry, d, hwalk, hdir, rfl⟩ := entry_eq_some.mp hp
  exact entry_eq_some.mpr ⟨hentry, d, walk_congr h hwalk hdir, h d .dir hdir nofun, rfl⟩

/-- A path whose last component names an entry leads on from where that is looked up. -/
theorem target_of_entry (hp : t.entry path = some p) : ∃ d m, p = lastComponent path :: d ∧
    t.target path = walk t.kind m d [lastComponent path] ∧ t.kind d = some .dir ∧
    NamesEntry path := by
  obtain ⟨hentry, d, hwalk, hdir, rfl⟩ := entry_eq_some.mp hp
  have hsplit : components path = (components path).dropLast ++ [lastComponent path] :=
    (List.dropLast_append_getLast (components_ne_nil path)).symm
  obtain ⟨m, hm⟩ := walk_append hwalk hdir
  refine ⟨d, m, rfl, ?_, hdir, hentry⟩
  rw [← hm, ← hsplit, target]

theorem target_of_file (hp : t.entry path = some p) (hfile : t.kind p = some .file) :
    t.target path = some p := by
  obtain ⟨d, m, rfl, htarget, hdir, hentry⟩ := target_of_entry hp
  rw [htarget, walk_entry hdir hentry, hfile]
  exact walk_nil _ _ _

theorem target_of_none (hp : t.entry path = some p) (hnone : t.kind p = none) :
    t.target path = none := by
  obtain ⟨d, m, rfl, htarget, hdir, hentry⟩ := target_of_entry hp
  rw [htarget, walk_entry hdir hentry, hnone]

/-- Changes to files do not change where a path leads that leads to a directory. -/
theorem target_congr (h : ∀ q k, t.kind q = some k → k ≠ .file → t'.kind q = some k)
    (hp : t.target path = some p) (hdir : t.kind p = some .dir) : t'.target path = some p :=
  walk_congr h hp hdir

theorem target_ends (h : t.target path = some p) :
    t.kind p = some .dir ∨ t.kind p = some .file :=
  walk_ends t.root (fun _ _ => t.parent_dir) t.root h

theorem target_congr_kind (h : t'.kind = t.kind) : t'.target path = t.target path := by
  rw [target, target, h]

theorem entry_congr_kind (h : t'.kind = t.kind) : t'.entry path = t.entry path := by
  rw [entry, entry, directory, directory, h]

/-- Nothing is mounted where nothing is. -/
theorem mounts_of_kind_none (h : t.kind p = none) : t.mounts p = [] := by
  by_contra hm
  rcases t.mounted hm with hd | hf
  · rw [h] at hd
    cases hd
  · rw [h] at hf
    cases hf

end paths

/-! The changes, at a place. -/

/-- Nothing is there, but a directory above it. -/
structure Free (p : Place) : Prop where
  none : t.kind p = none
  parent : t.kind p.tail = some .dir

instance (p : Place) : Decidable (t.Free p) :=
  decidable_of_iff (t.kind p = none ∧ t.kind p.tail = some .dir)
    ⟨fun h => ⟨h.1, h.2⟩, fun h => ⟨h.none, h.parent⟩⟩

theorem Free.ne_of_some {t : FileTree M} {p q : Place} (h : t.Free p) {k : Kind}
    (hq : t.kind q = some k) : q ≠ p := by
  rintro rfl
  rw [h.none] at hq
  cases hq

theorem free_of_entry {t : FileTree M} {path : List UInt8} {p : Place}
    (hp : t.entry path = some p) (hnew : t.kind p = none) : t.Free p := by
  obtain ⟨-, d, -, hdir, rfl⟩ := entry_eq_some.mp hp
  exact ⟨hnew, hdir⟩

def create (p : Place) (h : t.Free p) : FileTree M where
  kind := Function.update t.kind p (some .file)
  mounts := t.mounts
  root := by rw [Function.update_of_ne (h.ne_of_some t.root), t.root]
  parent_dir := by
    intro c q hq
    have hdir : t.kind q = some .dir := by
      by_cases hp : c :: q = p
      · have hparent := h.parent
        rwa [← hp] at hparent
      · rw [Function.update_of_ne hp] at hq
        exact t.parent_dir hq
    rw [Function.update_of_ne (h.ne_of_some hdir), hdir]
  mounted := by
    intro q hq
    rcases t.mounted hq with hd | hf
    · rw [Function.update_of_ne (h.ne_of_some hd)]
      exact .inl hd
    · rw [Function.update_of_ne (h.ne_of_some hf)]
      exact .inr hf

def push (p : Place) (m : M) (h : t.kind p = some .file) : FileTree M where
  kind := t.kind
  mounts := Function.update t.mounts p (m :: t.mounts p)
  root := t.root
  parent_dir := t.parent_dir
  mounted := by
    intro q hq
    by_cases hp : q = p
    · rw [hp]
      exact .inr h
    · rw [Function.update_of_ne hp] at hq
      exact t.mounted hq

def pop (p : Place) : FileTree M where
  kind := t.kind
  mounts := Function.update t.mounts p (t.mounts p).tail
  root := t.root
  parent_dir := t.parent_dir
  mounted := by
    intro q hq
    by_cases hp : q = p
    · subst hp
      rw [Function.update_self] at hq
      refine t.mounted ?_
      intro hnil
      rw [hnil] at hq
      exact hq rfl
    · rw [Function.update_of_ne hp] at hq
      exact t.mounted hq

theorem Loose.ne_of_dir {t : FileTree M} {p q : Place} (h : t.Loose p)
    (hq : t.kind q = some .dir) : q ≠ p := by
  rintro rfl
  exact h.no_dir hq

def remove (p : Place) (h : t.Loose p) : FileTree M where
  kind := Function.update t.kind p none
  mounts := t.mounts
  root := by rw [Function.update_of_ne (h.ne_of_dir t.root), t.root]
  parent_dir := by
    intro c q hq
    have hne : c :: q ≠ p := by
      rintro rfl
      rw [Function.update_self] at hq
      exact hq rfl
    rw [Function.update_of_ne hne] at hq
    have hdir := t.parent_dir hq
    rw [Function.update_of_ne (h.ne_of_dir hdir), hdir]
  mounted := by
    intro q hq
    rw [Function.update_of_ne]
    · exact t.mounted hq
    · rintro rfl
      exact hq h.free

/-! The system calls. Each takes whether it succeeds where it can. -/

/-- `open(path, O_CREAT | O_EXCL)`. -/
def openExcl (path : List UInt8) (ok : Bool) : Option (FileTree M) :=
  (t.entry path).bind fun p => if h : ok = true ∧ t.Free p then some (t.create p h.2) else none

/-- `mount(source, path, type, MS_BIND, data)` of a file. -/
def bind (path : List UInt8) (source : M) (ok : Bool) : Option (FileTree M) :=
  (t.target path).bind fun p =>
    if h : ok = true ∧ t.kind p = some .file then some (t.push p source h.2) else none

/-- `umount2(path, MNT_DETACH)`. -/
def umount (path : List UInt8) (ok : Bool) : Option (FileTree M) :=
  (t.target path).bind fun p => if ok = true ∧ t.mounts p ≠ [] then some (t.pop p) else none

/-- `unlink(path)`. -/
def unlink (path : List UInt8) (ok : Bool) : Option (FileTree M) :=
  (t.entry path).bind fun p => if h : ok = true ∧ t.Loose p then some (t.remove p h.2) else none

section calls

variable {t} {t' : FileTree M} {path : List UInt8} {source : M} {ok : Bool}

theorem openExcl_spec (h : t.openExcl path ok = some t') : ∃ p,
    (ok = true ∧ t.entry path = some p ∧ t.kind p = none) ∧ t'.mounts = t.mounts ∧
      t'.kind = Function.update t.kind p (some .file) := by
  obtain ⟨p, hp, h⟩ := Option.bind_eq_some_iff.mp h
  split_ifs at h with hcan
  cases h
  exact ⟨p, ⟨hcan.1, hp, hcan.2.none⟩, rfl, rfl⟩

theorem bind_spec (h : t.bind path source ok = some t') : ∃ p,
    (ok = true ∧ t.target path = some p ∧ t.kind p = some .file) ∧ t'.kind = t.kind ∧
      t'.mounts = Function.update t.mounts p (source :: t.mounts p) := by
  obtain ⟨p, hp, h⟩ := Option.bind_eq_some_iff.mp h
  split_ifs at h with hcan
  cases h
  exact ⟨p, ⟨hcan.1, hp, hcan.2⟩, rfl, rfl⟩

theorem umount_spec (h : t.umount path ok = some t') : ∃ p,
    (ok = true ∧ t.target path = some p ∧ t.mounts p ≠ []) ∧ t'.kind = t.kind ∧
      t'.mounts = Function.update t.mounts p (t.mounts p).tail := by
  obtain ⟨p, hp, h⟩ := Option.bind_eq_some_iff.mp h
  split_ifs at h with hcan
  cases h
  exact ⟨p, ⟨hcan.1, hp, hcan.2⟩, rfl, rfl⟩

theorem unlink_spec (h : t.unlink path ok = some t') : ∃ p,
    (ok = true ∧ t.entry path = some p ∧ t.Loose p) ∧ t'.mounts = t.mounts ∧
      t'.kind = Function.update t.kind p none := by
  obtain ⟨p, hp, h⟩ := Option.bind_eq_some_iff.mp h
  split_ifs at h with hcan
  cases h
  exact ⟨p, ⟨hcan.1, hp, hcan.2⟩, rfl, rfl⟩

theorem openExcl_isSome : (t.openExcl path ok).isSome ↔ ok = true ∧ t.Creatable path := by
  rw [openExcl, Creatable]
  cases hp : t.entry path with
  | none => simp
  | some p =>
    have hfree : t.Free p ↔ t.kind p = none := ⟨Free.none, free_of_entry hp⟩
    rw [Option.bind_some, Option.isSome_dite, hfree]
    simp

theorem bind_isSome : (t.bind path source ok).isSome ↔ ok = true ∧ t.LeadsToFile path := by
  rw [bind, LeadsToFile]
  cases t.target path with
  | none => simp
  | some p =>
    rw [Option.bind_some, Option.isSome_dite]
    simp

theorem umount_isSome : (t.umount path ok).isSome ↔ ok = true ∧ t.Mounted path := by
  rw [umount, Mounted]
  cases t.target path with
  | none => simp
  | some p =>
    rw [Option.bind_some, Option.isSome_ite]
    simp

theorem unlink_isSome : (t.unlink path ok).isSome ↔ ok = true ∧ t.Removable path := by
  rw [unlink, Removable]
  cases t.entry path with
  | none => simp
  | some p =>
    rw [Option.bind_some, Option.isSome_dite]
    simp

/-- A file that `open` has created is found again. -/
theorem found_of_openExcl (h : t.openExcl path ok = some t') : ∃ p,
    t.entry path = some p ∧ t.kind p = none ∧ t'.entry path = some p ∧ t'.target path = some p ∧
      t'.kind p = some .file ∧ t'.mounts p = [] := by
  obtain ⟨p, ⟨-, hp, hnew⟩, hmounts, hkind⟩ := openExcl_spec h
  have hfile : t'.kind p = some .file := by rw [hkind, Function.update_self]
  have hp' : t'.entry path = some p := by
    refine entry_congr ?_ hp
    intro q k hq _
    rw [hkind, Function.update_of_ne ((free_of_entry hp hnew).ne_of_some hq), hq]
  refine ⟨p, hp, hnew, hp', target_of_file hp' hfile, hfile, ?_⟩
  rw [hmounts, mounts_of_kind_none hnew]

/-- `umount2` takes off the mount that `mount` has put on. -/
theorem umount_of_bind (h : t.bind path source ok = some t') : t'.umount path true = some t := by
  obtain ⟨p, ⟨-, hp, -⟩, hkind, hmounts⟩ := bind_spec h
  have hpushed : t'.mounts p = source :: t.mounts p := by rw [hmounts, Function.update_self]
  have hne : t'.mounts p ≠ [] := by
    rw [hpushed]
    exact List.cons_ne_nil _ _
  rw [umount, target_congr_kind hkind, hp, Option.bind_some, if_pos ⟨rfl, hne⟩, Option.some.injEq]
  apply FileTree.ext
  · exact hkind
  · change Function.update t'.mounts p (t'.mounts p).tail = _
    rw [hpushed, List.tail_cons, hmounts, Function.update_idem, Function.update_eq_self]

/-- `unlink` takes away the file that `open` has created. -/
theorem unlink_of_openExcl (h : t.openExcl path ok = some t') : t'.unlink path true = some t := by
  obtain ⟨p, ⟨-, hp, hnew⟩, hmounts, hkind⟩ := openExcl_spec h
  obtain ⟨q, hq, -, hp', -, hfile, hfree⟩ := found_of_openExcl h
  cases hp.symm.trans hq
  have hloose : t'.Loose p := ⟨by rw [hfile]; nofun, by rw [hfile]; nofun, hfree⟩
  rw [unlink, hp', Option.bind_some, dif_pos ⟨rfl, hloose⟩, Option.some.injEq]
  apply FileTree.ext
  · change Function.update t'.kind p none = _
    rw [hkind, Function.update_idem, ← hnew, Function.update_eq_self]
  · exact hmounts

end calls

/-- How much there is at each place: what it is, and its mounts. -/
def weight (t : FileTree M) (p : Place) : Nat :=
  (t.mounts p).length + if t.kind p = none then 0 else 1

section weight

variable {t} {t' : FileTree M} {path : List UInt8} {source : M} {ok : Bool}

theorem weight_lt (p : Place) (h : t.weight p < t'.weight p)
    (hsame : ∀ q ≠ p, t'.weight q = t.weight q) : t.weight < t'.weight := by
  refine Pi.lt_def.mpr ⟨?_, p, h⟩
  intro q
  by_cases hq : q = p
  · rw [hq]
    exact h.le
  · exact (hsame q hq).ge

theorem weight_openExcl (h : t.openExcl path ok = some t') : t.weight < t'.weight := by
  obtain ⟨p, ⟨-, -, hnew⟩, hmounts, hkind⟩ := openExcl_spec h
  refine weight_lt p ?_ ?_
  · simp [weight, hmounts, hkind, hnew]
  · intro q hq
    simp [weight, hmounts, hkind, hq]

theorem weight_bind (h : t.bind path source ok = some t') : t.weight < t'.weight := by
  obtain ⟨p, -, hkind, hmounts⟩ := bind_spec h
  refine weight_lt p ?_ ?_
  · simp [weight, hmounts, hkind]
  · intro q hq
    simp [weight, hmounts, hkind, hq]

theorem weight_umount (h : t.umount path ok = some t') : t'.weight < t.weight := by
  obtain ⟨p, ⟨-, -, hne⟩, hkind, hmounts⟩ := umount_spec h
  have hpos := List.length_pos_of_ne_nil hne
  refine weight_lt p ?_ ?_
  · simp only [weight, hmounts, hkind, Function.update_self, List.length_tail]
    omega
  · intro q hq
    simp [weight, hmounts, hkind, hq]

theorem weight_unlink (h : t.unlink path ok = some t') : t'.weight < t.weight := by
  obtain ⟨p, ⟨-, -, hloose⟩, hmounts, hkind⟩ := unlink_spec h
  refine weight_lt p ?_ ?_
  · simp [weight, hmounts, hkind, hloose.there]
  · intro q hq
    simp [weight, hmounts, hkind, hq]

end weight

/-- Just the directories down to `p`. -/
def downTo (p : Place) : FileTree M where
  kind q := if q <:+ p then some .dir else none
  mounts _ := []
  root := if_pos (List.nil_suffix)
  parent_dir := by
    intro c q h
    have hsuffix : c :: q <:+ p := by
      by_contra hn
      exact h (if_neg hn)
    exact if_pos ((List.suffix_cons c q).trans hsuffix)
  mounted h := absurd rfl h

end FileTree

end SnippetsC
