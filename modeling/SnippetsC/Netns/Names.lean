import SnippetsC.Framework.FreshTree
import SnippetsC.Netns.Commands

namespace SnippetsC.Netns

/-! Which file a name stands for, wherever symbolic links may lead. -/

open FileTree (NamesEntry lastComponent)
open Netlink (CString)
open SnippetsC.Path

inductive Command where
  | add
  | del
  deriving DecidableEq

/-- On some files, with some outcome of its system calls, the command creates, unmounts or unlinks
something for this name. -/
def Operates (name : CString) : Command → Prop
  | .add => ∃ calls argv files, argv[1]? = some name ∧ (AddNetns.main calls argv files).files ≠ files
  | .del => ∃ calls argv files, argv[1]? = some name ∧ (DelNetns.main calls argv files).files ≠ files

/-- Wherever `/var/run/netns` is, the path names a direct child of it whose last component is the
whole name. -/
def Child (name : CString) : Prop :=
  ∀ (files : FileTree NetNs) (d : Place), files.target varRunNetns = some d →
    files.kind d = some .dir → files.entry (netnsPath name) = some (name.chars :: d)

/-- A single component that fits the buffer. -/
def ValidName (name : CString) : Prop :=
  name.chars.length ≤ 84 ∧ slash ∉ name.chars ∧ ¬Special name.chars

instance (name : CString) : Decidable (ValidName name) := inferInstanceAs (Decidable (_ ∧ _ ∧ _))

/-- The path ends in a component that `open` does not create. -/
def Refused (name : CString) : Prop := ¬NamesEntry (netnsPath name)

instance (name : CString) : Decidable (Refused name) := inferInstanceAs (Decidable (¬_))

theorem netnsPath_eq (name : CString) :
    netnsPath name = varRunNetns ++ slash :: name.chars.take 84 := by
  rw [netnsPath, List.take_append]
  rfl

theorem components_netnsPath (name : CString) :
    components (netnsPath name) = components varRunNetns ++ components (name.chars.take 84) := by
  rw [netnsPath_eq, components_append]

theorem lastComponent_mem (name : CString) :
    lastComponent (netnsPath name) ∈ components (name.chars.take 84) := by
  have hne := components_ne_nil (name.chars.take 84)
  have hlast : lastComponent (netnsPath name) = (components (name.chars.take 84)).getLast hne := by
    simp only [lastComponent, components_netnsPath]
    exact List.getLast_append_of_ne_nil _ hne
  rw [hlast]
  exact List.getLast_mem hne

/-- Where the entry of a valid name is: the path has one component more than `/var/run/netns`. -/
theorem entry_of_valid {name : CString} (h : ValidName name) (files : FileTree NetNs) :
    files.entry (netnsPath name) =
      ((files.target varRunNetns).filter fun d => files.kind d = some .dir).map
        (name.chars :: ·) := by
  obtain ⟨hlen, hslash, hsp⟩ := h
  have hcomp : components (netnsPath name) = components varRunNetns ++ [name.chars] := by
    rw [components_netnsPath, List.take_of_length_le hlen, components_eq hslash]
  have hlast : lastComponent (netnsPath name) = name.chars := by
    simp only [lastComponent, hcomp, List.getLast_append_singleton]
  have hentry : NamesEntry (netnsPath name) := by
    rw [NamesEntry, hlast]
    exact hsp
  rw [FileTree.entry, if_pos hentry, hlast, FileTree.directory, hcomp, List.dropLast_concat,
    FileTree.target]

theorem child_iff (name : CString) : Child name ↔ ValidName name := by
  constructor
  · intro h
    have htarget : plainFiles.target varRunNetns = some (components varRunNetns).reverse.dropLast := by
      decide
    have hentry := FileTree.entry_eq_some.mp (h plainFiles _ htarget (by decide))
    obtain ⟨hnames, d, -, -, hplace⟩ := hentry
    have hlast : name.chars = lastComponent (netnsPath name) := (List.cons.inj hplace).1
    obtain ⟨hslash, hlen⟩ := mem_components (lastComponent_mem name)
    rw [ValidName, hlast]
    exact ⟨hlen.trans (List.length_take_le 84 _), hslash, hnames⟩
  · intro h files d htarget hdir
    rw [entry_of_valid h, htarget, Option.filter_some_pos (by simpa using hdir), Option.map_some]

/-! A tree for every path. -/

theorem netnsPath_length (name : CString) : (netnsPath name).length ≤ 99 := List.length_take_le 99 _

theorem count_dotdot (name : CString) :
    (components (netnsPath name)).count dotdot ≤ MAXSYMLINKS := by
  have hcount := count_dotdot_le (netnsPath name)
  have hlen := netnsPath_length name
  rw [MAXSYMLINKS]
  omega

theorem length_component {name : CString} {c : Name} (h : c ∈ components (netnsPath name)) :
    c.length ≤ 99 := (mem_components h).2.trans (netnsPath_length name)

/-- The path begins downwards. -/
theorem ups_netnsPath (cs : List Name) : ups (components varRunNetns ++ cs) = 0 := by
  have hdirs : components varRunNetns = [[], [0x76, 0x61, 0x72], [0x72, 0x75, 0x6e],
      [0x6e, 0x65, 0x74, 0x6e, 0x73]] := by decide
  rw [hdirs]
  rfl

/-- `umount2` takes any path: some tree has a mount there. -/
theorem operates_del (name : CString) : Operates name .del := by
  obtain ⟨files, p, hwalk, -, hmounts, -⟩ := FileTree.exists_walk 99 [(0 : NetNs)]
    (fun c hc => length_component hc) (by rw [components_netnsPath, ups_netnsPath])
    (count_dotdot name)
  have humount : files.umount (netnsPath name) true = some (files.pop p) := by
    rw [FileTree.umount, FileTree.target, hwalk, Option.bind_some, if_pos]
    rw [hmounts]
    exact ⟨rfl, List.cons_ne_nil 0 []⟩
  refine ⟨⟨true, false⟩, [name, name], files, rfl, ?_⟩
  have hmain : (DelNetns.main ⟨true, false⟩ [name, name] files).files = files.pop p := by
    cases hentry : (files.pop p).entry (netnsPath name) <;>
      simp [DelNetns.main, humount, FileTree.unlink, hentry]
  rw [hmain]
  intro h
  have hpop := congrArg (fun files => FileTree.mounts files p) h
  change Function.update files.mounts p _ p = _ at hpop
  rw [Function.update_self, hmounts] at hpop
  cases hpop

/-- `open` creates any entry: in some tree the path leads to a directory in which it is new. -/
theorem operates_add_iff (name : CString) : Operates name .add ↔ ¬Refused name := by
  rw [Refused, not_not]
  constructor
  · rintro ⟨calls, argv, files, hname, hne⟩
    simp only [AddNetns.main, hname] at hne
    cases hopen : files.openExcl (netnsPath name) calls.openOk with
    | none =>
      rw [hopen] at hne
      exact absurd rfl hne
    | some files' =>
      obtain ⟨p, ⟨-, hp, -⟩, -⟩ := FileTree.openExcl_spec hopen
      exact (FileTree.entry_eq_some.mp hp).1
  · intro hnames
    let cs := (components (netnsPath name)).dropLast
    have hsub : cs.Sublist (components (netnsPath name)) := List.dropLast_sublist _
    have hups : ups cs = 0 := by
      have hne := components_ne_nil (name.chars.take 84)
      change ups (components (netnsPath name)).dropLast = 0
      rw [components_netnsPath, List.dropLast_append_of_ne_nil hne, ups_netnsPath]
    obtain ⟨files, d, hwalk, hdir, -, hempty⟩ := FileTree.exists_walk 99 ([] : List NetNs)
      (fun c hc => length_component (hsub.subset hc)) hups
      ((hsub.count_le dotdot).trans (count_dotdot name))
    have hlast := length_component (List.getLast_mem (components_ne_nil (netnsPath name)))
    have hentry : files.entry (netnsPath name) = some (lastComponent (netnsPath name) :: d) :=
      FileTree.entry_eq_some.mpr ⟨hnames, d, hwalk, hdir, rfl⟩
    obtain ⟨files', hopen⟩ := Option.isSome_iff_exists.mp (FileTree.openExcl_isSome.mpr
      ⟨rfl, _, hentry, hempty _ hlast⟩)
    refine ⟨⟨true, none, true⟩, [name, name], files, rfl, ?_⟩
    have hmain : (AddNetns.main ⟨true, none, true⟩ [name, name] files).files = files' := by
      simp [AddNetns.main, hopen]
    rw [hmain]
    rintro rfl
    exact lt_irrefl _ (FileTree.weight_openExcl hopen)

/-- Names that a command may act on stand for files of their own exactly if they are valid. -/
theorem names_faithful_iff (c₁ c₂ : Command) (name₁ name₂ : CString) :
    ((Operates name₁ c₁ → Child name₁) ∧ (Operates name₂ c₂ → Child name₂) ∧
      (Operates name₁ c₁ → Operates name₂ c₂ → name₁ ≠ name₂ →
        netnsPath name₁ ≠ netnsPath name₂)) ↔
    (ValidName name₁ ∨ c₁ = .add ∧ Refused name₁) ∧
      (ValidName name₂ ∨ c₂ = .add ∧ Refused name₂) := by
  have hone : ∀ (c : Command) (name : CString),
      (Operates name c → Child name) ↔ ValidName name ∨ c = .add ∧ Refused name := by
    intro c name
    rw [child_iff]
    cases c with
    | add =>
      rw [operates_add_iff, eq_self, true_and, imp_iff_not_or, not_not, or_comm]
    | del =>
      have hop := operates_del name
      simp [hop]
  rw [← hone, ← hone]
  constructor
  · rintro ⟨h₁, h₂, -⟩
    exact ⟨h₁, h₂⟩
  · rintro ⟨h₁, h₂⟩
    refine ⟨h₁, h₂, ?_⟩
    intro hop₁ hop₂ hne hpath
    have hlen₁ := ((child_iff name₁).mp (h₁ hop₁)).1
    have hlen₂ := ((child_iff name₂).mp (h₂ hop₂)).1
    rw [netnsPath_eq, netnsPath_eq, List.take_of_length_le hlen₁,
      List.take_of_length_le hlen₂] at hpath
    have hchars : name₁.chars = name₂.chars := (List.cons.inj (List.append_cancel_left hpath)).2
    cases name₁
    cases name₂
    exact hne (by simpa using hchars)

/-- Two names that agree in their first 84 bytes share a file, and a name may lead out of the
directory. -/
theorem names_collide :
    let name₁ : CString := ⟨List.replicate 84 0x61 ++ [0x62], by decide⟩
    let name₂ : CString := ⟨List.replicate 84 0x61 ++ [0x63], by decide⟩
    let up : CString := ⟨[0x2e, 0x2e, 0x2f, 0x78], by decide⟩
    let outside : Place := [[0x78], [0x72, 0x75, 0x6e], [0x76, 0x61, 0x72]]
    (Operates name₁ .del ∧ Operates name₂ .del ∧ name₁ ≠ name₂ ∧
      netnsPath name₁ = netnsPath name₂) ∧
    (plainFiles.kind outside = none ∧
      (AddNetns.main ⟨true, none, true⟩ [up, up] plainFiles).files.kind outside = some .file ∧
      Operates up .add ∧ ¬Child up) := by
  intro name₁ name₂ up outside
  refine ⟨⟨operates_del _, operates_del _, by decide, by decide⟩, by decide +kernel,
    by decide +kernel, ?_, ?_⟩
  · rw [operates_add_iff]
    decide +kernel
  · rw [child_iff]
    decide

end SnippetsC.Netns
