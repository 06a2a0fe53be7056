import SnippetsC.Framework.Simulation
import SnippetsC.Netns.Names

namespace SnippetsC.Netns

/-! `add-netns` and `del-netns` run again and again: a registry of named network namespaces. -/

open Netlink (CString)
open SnippetsC.Path

/-- What a name stands for: nothing, a file on which nothing is mounted, or a namespace. -/
inductive Status where
  | absent
  | stale
  | bound (netns : NetNs)
  deriving DecidableEq

/-- A name with a file of its own. -/
abbrev NetnsName := { name : CString // ValidName name }

/-- A run of one of the commands, with its `argv[0]` and the outcomes of its system calls. -/
inductive Op where
  | add (prog : CString) (name : NetnsName) (calls : AddNetns.Calls)
  | del (prog : CString) (name : NetnsName) (calls : DelNetns.Calls)

namespace Op

def name : Op → NetnsName
  | add _ name _ | del _ name _ => name

/-- The command on the files. -/
def perform (files : FileTree NetNs) : Op → FileTree NetNs × Int
  | add prog name calls =>
    let exit := AddNetns.main calls [prog, name] files
    (exit.files, exit.code)
  | del prog name calls =>
    let exit := DelNetns.main calls [prog, name] files
    (exit.files, exit.code)

/-- The command on what its name stands for. -/
def apply : Op → Status → Status × Int
  | add _ _ calls, .absent =>
    if calls.openOk = false then (.absent, -1)
    else match calls.unshare, calls.mountOk with
      | some netns, true => (.bound netns, 0)
      | _, _ => (.stale, -1)
  | add _ _ _, st => (st, -1)
  | del _ _ _, .absent => (.absent, -1)
  | del _ _ calls, .stale => if calls.unlinkOk then (.absent, 0) else (.stale, -1)
  | del _ _ calls, .bound netns =>
    if calls.umountOk = false then (.bound netns, -1)
    else if calls.unlinkOk then (.absent, 0) else (.stale, -1)

end Op

/-- What every name stands for. -/
abbrev Registry := NetnsName → Status

def Registry.perform : Registry → Op → Registry × Int := onEntry Op.name Op.apply

/-- The file of a name in directory `d`. -/
def place (d : Place) (name : NetnsName) : Place := name.1.chars :: d

def Shows (files : FileTree NetNs) (p : Place) : Status → Prop
  | .absent => files.kind p = none
  | .stale => files.kind p = some .file ∧ files.mounts p = []
  | .bound netns => files.kind p = some .file ∧ files.mounts p = [netns]

instance (files : FileTree NetNs) (p : Place) : (st : Status) → Decidable (Shows files p st)
  | .absent => inferInstanceAs (Decidable (_ = _))
  | .stale => inferInstanceAs (Decidable (_ ∧ _))
  | .bound _ => inferInstanceAs (Decidable (_ ∧ _))

/-- `/var/run/netns` leads to the directory `d`, through links or not. -/
structure IsNetnsDir (files : FileTree NetNs) (d : Place) : Prop where
  leads : files.target varRunNetns = some d
  dir : files.kind d = some .dir

/-- It holds what the registry says. -/
structure Represents (files : FileTree NetNs) (d : Place) (r : Registry) : Prop
    extends IsNetnsDir files d where
  shows : ∀ name, Shows files (place d name) (r name)

theorem place_injective {d : Place} {name₁ name₂ : NetnsName} (h : place d name₁ = place d name₂) :
    name₁ = name₂ := by
  have hchars : name₁.1.chars = name₂.1.chars := (List.cons.inj h).1
  apply Subtype.ext
  cases h₁ : name₁.1
  cases h₂ : name₂.1
  simpa [h₁, h₂] using hchars

theorem IsNetnsDir.entry {files : FileTree NetNs} {d : Place} (h : IsNetnsDir files d)
    (name : NetnsName) : files.entry (netnsPath name) = some (place d name) :=
  (child_iff name.1).mpr name.2 files d h.leads h.dir

/-- The other names' files and everything else are left alone. -/
structure OnlyAt (p : Place) (files files' : FileTree NetNs) : Prop where
  kind : ∀ q ≠ p, files'.kind q = files.kind q
  mounts : ∀ q ≠ p, files'.mounts q = files.mounts q

theorem OnlyAt.refl (p : Place) (files : FileTree NetNs) : OnlyAt p files files :=
  ⟨fun _ _ => rfl, fun _ _ => rfl⟩

theorem OnlyAt.trans {p : Place} {files₁ files₂ files₃ : FileTree NetNs}
    (h : OnlyAt p files₁ files₂) (h' : OnlyAt p files₂ files₃) : OnlyAt p files₁ files₃ :=
  ⟨fun q hq => (h'.kind q hq).trans (h.kind q hq),
    fun q hq => (h'.mounts q hq).trans (h.mounts q hq)⟩

theorem OnlyAt.shows {p q : Place} {files files' : FileTree NetNs} (h : OnlyAt p files files')
    (hq : q ≠ p) (st : Status) : Shows files' q st ↔ Shows files q st := by
  cases st with
  | absent => simp [Shows, h.kind q hq]
  | stale => simp [Shows, h.kind q hq, h.mounts q hq]
  | bound netns => simp [Shows, h.kind q hq, h.mounts q hq]

/-- No directory and no link stands for a status. -/
theorem Shows.not_passed {files : FileTree NetNs} {p : Place} {st : Status}
    (h : Shows files p st) {k : Kind} (hk : k ≠ .file) : files.kind p ≠ some k := by
  cases st with
  | absent =>
    rw [show files.kind p = none from h]
    exact Option.some_ne_none k ∘ Eq.symm
  | stale =>
    rw [h.1]
    exact fun heq => hk (Option.some.inj heq).symm
  | bound netns =>
    rw [h.1]
    exact fun heq => hk (Option.some.inj heq).symm

/-- `/var/run/netns` stays where it is. -/
theorem OnlyAt.isNetnsDir {p d : Place} {files files' : FileTree NetNs} {st : Status}
    (h : OnlyAt p files files') (hp : Shows files p st) (hdir : IsNetnsDir files d) :
    IsNetnsDir files' d := by
  have hsame (q : Place) (k : Kind) (hq : files.kind q = some k) (hk : k ≠ .file) :
      files'.kind q = some k := by
    rw [h.kind q, hq]
    rintro rfl
    exact hp.not_passed hk hq
  exact ⟨FileTree.target_congr hsame hdir.leads hdir.dir, hsame d .dir hdir.dir nofun⟩

section calls

variable {files : FileTree NetNs} {path : List UInt8} {p : Place}

theorem openExcl_cases (hp : files.entry path = some p) (ok : Bool) :
    (files.openExcl path ok = none ∧ (ok = false ∨ files.kind p ≠ none)) ∨
      ∃ files', files.openExcl path ok = some files' ∧ ok = true ∧ files.kind p = none ∧
        Shows files' p .stale ∧ OnlyAt p files files' := by
  cases h : files.openExcl path ok with
  | none =>
    refine .inl ⟨rfl, ?_⟩
    have hnot := mt FileTree.openExcl_isSome.mpr (by rw [h]; exact Bool.false_ne_true)
    by_contra hcan
    simp only [not_or, Bool.not_eq_false, not_not] at hcan
    exact hnot ⟨hcan.1, p, hp, hcan.2⟩
  | some files' =>
    obtain ⟨_, ⟨hok, hp', hnew⟩, hmounts, hkind⟩ := FileTree.openExcl_spec h
    cases hp.symm.trans hp'
    refine .inr ⟨files', rfl, hok, hnew, ⟨?_, ?_⟩, ⟨?_, ?_⟩⟩
    · rw [hkind, Function.update_self]
    · rw [hmounts, FileTree.mounts_of_kind_none hnew]
    · intro q hq
      rw [hkind, Function.update_of_ne hq]
    · intro q _
      rw [hmounts]

theorem bind_cases (hp : files.entry path = some p) (hstale : Shows files p .stale)
    (netns : NetNs) (ok : Bool) :
    (files.bind path netns ok = none ∧ ok = false) ∨
      ∃ files', files.bind path netns ok = some files' ∧ ok = true ∧
        Shows files' p (.bound netns) ∧ OnlyAt p files files' := by
  obtain ⟨hfile, hfree⟩ := hstale
  have htarget := FileTree.target_of_file hp hfile
  cases h : files.bind path netns ok with
  | none =>
    refine .inl ⟨rfl, ?_⟩
    have hnot := mt FileTree.bind_isSome.mpr (by rw [h]; exact Bool.false_ne_true)
    by_contra hok
    exact hnot ⟨Bool.not_eq_false _ ▸ hok, p, htarget, hfile⟩
  | some files' =>
    obtain ⟨_, ⟨hok, hp', -⟩, hkind, hmounts⟩ := FileTree.bind_spec h
    cases htarget.symm.trans hp'
    refine .inr ⟨files', rfl, hok, ⟨?_, ?_⟩, ⟨?_, ?_⟩⟩
    · rw [hkind, hfile]
    · rw [hmounts, Function.update_self, hfree]
    · intro q _
      rw [hkind]
    · intro q hq
      rw [hmounts, Function.update_of_ne hq]

theorem umount_cases {st : Status} (hp : files.entry path = some p) (hst : Shows files p st)
    (ok : Bool) :
    (files.umount path ok = none ∧ (ok = false ∨ ∀ netns, st ≠ .bound netns)) ∨
      ∃ files' netns, files.umount path ok = some files' ∧ ok = true ∧ st = .bound netns ∧
        Shows files' p .stale ∧ OnlyAt p files files' := by
  cases h : files.umount path ok with
  | none =>
    refine .inl ⟨rfl, ?_⟩
    have hnot := mt FileTree.umount_isSome.mpr (by rw [h]; exact Bool.false_ne_true)
    by_contra hcan
    simp only [not_or, Bool.not_eq_false, not_forall, not_not] at hcan
    obtain ⟨hok, netns, rfl⟩ := hcan
    refine hnot ⟨hok, p, FileTree.target_of_file hp hst.1, ?_⟩
    rw [hst.2]
    exact List.cons_ne_nil netns []
  | some files' =>
    obtain ⟨q, ⟨hok, hq, hne⟩, hkind, hmounts⟩ := FileTree.umount_spec h
    cases st with
    | absent =>
      rw [FileTree.target_of_none hp hst] at hq
      cases hq
    | stale =>
      cases (FileTree.target_of_file hp hst.1).symm.trans hq
      exact absurd hst.2 hne
    | bound netns =>
      cases (FileTree.target_of_file hp hst.1).symm.trans hq
      refine .inr ⟨files', netns, rfl, hok, rfl, ⟨?_, ?_⟩, ⟨?_, ?_⟩⟩
      · rw [hkind, hst.1]
      · rw [hmounts, Function.update_self, hst.2]
        rfl
      · intro q _
        rw [hkind]
      · intro q hq
        rw [hmounts, Function.update_of_ne hq]

theorem unlink_cases (hp : files.entry path = some p) {st : Status} (hst : Shows files p st)
    (ok : Bool) :
    (files.unlink path ok = none ∧ ¬(st = .stale ∧ ok = true)) ∨
      ∃ files', files.unlink path ok = some files' ∧ (st = .stale ∧ ok = true) ∧
        Shows files' p .absent ∧ OnlyAt p files files' := by
  cases h : files.unlink path ok with
  | none =>
    refine .inl ⟨rfl, ?_⟩
    have hnot := mt FileTree.unlink_isSome.mpr (by rw [h]; exact Bool.false_ne_true)
    rintro ⟨rfl, hok⟩
    exact hnot ⟨hok, p, hp, by rw [hst.1]; nofun, by rw [hst.1]; nofun, hst.2⟩
  | some files' =>
    obtain ⟨_, ⟨hok, hp', hloose⟩, hmounts, hkind⟩ := FileTree.unlink_spec h
    cases hp.symm.trans hp'
    have hstale : st = .stale := by
      cases st with
      | absent => exact absurd hst hloose.there
      | stale => rfl
      | bound netns =>
        have hfree := hloose.free
        rw [hst.2] at hfree
        cases hfree
    refine .inr ⟨files', rfl, ⟨hstale, hok⟩, ?_, ?_, ?_⟩
    · rw [Shows, hkind, Function.update_self]
    · intro q hq
      rw [hkind, Function.update_of_ne hq]
    · intro q _
      rw [hmounts]

end calls

/-- A command does to the file of its name what it does to what the name stands for, exits with the
same code, and touches nothing else. -/
structure Agrees (op : Op) (files : FileTree NetNs) (p : Place) (st : Status) : Prop where
  shows : Shows (op.perform files).1 p (op.apply st).1
  code : (op.perform files).2 = (op.apply st).2
  only : OnlyAt p files (op.perform files).1

section agrees

variable {files : FileTree NetNs} {d : Place} {st : Status} (name : NetnsName)

theorem add_agrees (prog : CString) (calls : AddNetns.Calls) (hdir : IsNetnsDir files d)
    (h : Shows files (place d name) st) :
    Agrees (.add prog name calls) files (place d name) st := by
  rcases openExcl_cases (hdir.entry name) calls.openOk with
    ⟨hopen, hwhy⟩ | ⟨created, hopen, hok, hnew, hstale, honly⟩
  · have hexit : Op.perform files (.add prog name calls) = (files, -1) := by
      simp [Op.perform, AddNetns.main, hopen]
    have happly : (Op.add prog name calls).apply st = (st, -1) := by
      cases st with
      | absent =>
        have hfail : calls.openOk = false := hwhy.resolve_right (not_not.mpr h)
        simp [Op.apply, hfail]
      | stale => rfl
      | bound netns => rfl
    exact ⟨by rwa [hexit, happly], by rw [hexit, happly], by rw [hexit]; exact .refl _ _⟩
  · have hst : st = .absent := by
      cases st with
      | absent => rfl
      | stale =>
        rw [h.1] at hnew
        cases hnew
      | bound netns =>
        rw [h.1] at hnew
        cases hnew
    subst hst
    cases hns : calls.unshare with
    | none =>
      have hexit : Op.perform files (.add prog name calls) = (created, -1) := by
        simp [Op.perform, AddNetns.main, hopen, hns]
      have happly : (Op.add prog name calls).apply .absent = (.stale, -1) := by
        simp [Op.apply, hok, hns]
      exact ⟨by rwa [hexit, happly], by rw [hexit, happly], by rwa [hexit]⟩
    | some netns =>
      have hentry := (honly.isNetnsDir h hdir).entry name
      rcases bind_cases hentry hstale netns calls.mountOk with
        ⟨hbind, hfail⟩ | ⟨bound, hbind, hmount, hshows, honly'⟩
      · have hexit : Op.perform files (.add prog name calls) = (created, -1) := by
          simp [Op.perform, AddNetns.main, hopen, hns, hbind]
        have happly : (Op.add prog name calls).apply .absent = (.stale, -1) := by
          simp [Op.apply, hok, hns, hfail]
        exact ⟨by rwa [hexit, happly], by rw [hexit, happly], by rwa [hexit]⟩
      · have hexit : Op.perform files (.add prog name calls) = (bound, 0) := by
          simp [Op.perform, AddNetns.main, hopen, hns, hbind]
        have happly : (Op.add prog name calls).apply .absent = (.bound netns, 0) := by
          simp [Op.apply, hok, hns, hmount]
        exact ⟨by rwa [hexit, happly], by rw [hexit, happly],
          by rw [hexit]; exact honly.trans honly'⟩

/-- What `unlink` does after `umount2`, to a name that now stands for `st'`. -/
theorem unlink_agrees (prog : CString) (calls : DelNetns.Calls) {umounted : FileTree NetNs}
    (st' : Status)
    (humount : (files.umount (netnsPath name) calls.umountOk).getD files = umounted)
    (hdir : IsNetnsDir umounted d) (h : Shows umounted (place d name) st')
    (honly : OnlyAt (place d name) files umounted)
    (happly : (Op.del prog name calls).apply st =
      if st' = .stale ∧ calls.unlinkOk = true then (.absent, 0) else (st', -1)) :
    Agrees (.del prog name calls) files (place d name) st := by
  rcases unlink_cases (hdir.entry name) h calls.unlinkOk with
    ⟨hunlink, hnot⟩ | ⟨removed, hunlink, hcan, habsent, honly'⟩
  · have hexit : Op.perform files (.del prog name calls) = (umounted, -1) := by
      simp [Op.perform, DelNetns.main, humount, hunlink]
    rw [if_neg hnot] at happly
    exact ⟨by rwa [hexit, happly], by rw [hexit, happly], by rwa [hexit]⟩
  · have hexit : Op.perform files (.del prog name calls) = (removed, 0) := by
      simp [Op.perform, DelNetns.main, humount, hunlink]
    rw [if_pos hcan] at happly
    exact ⟨by rwa [hexit, happly], by rw [hexit, happly],
      by rw [hexit]; exact honly.trans honly'⟩

theorem del_agrees (prog : CString) (calls : DelNetns.Calls) (hdir : IsNetnsDir files d)
    (h : Shows files (place d name) st) :
    Agrees (.del prog name calls) files (place d name) st := by
  rcases umount_cases (hdir.entry name) h calls.umountOk with
    ⟨humount, hwhy⟩ | ⟨umounted, netns, humount, hok, rfl, hstale, honly⟩
  · refine unlink_agrees name prog calls st (by simp [humount]) hdir h (.refl _ _) ?_
    cases st with
    | absent => simp [Op.apply]
    | stale => cases hunlink : calls.unlinkOk <;> simp [Op.apply, hunlink]
    | bound netns =>
      have hfail : calls.umountOk = false := hwhy.resolve_right fun hne => hne netns rfl
      simp [Op.apply, hfail]
  · refine unlink_agrees name prog calls .stale (by simp [humount])
      (honly.isNetnsDir h hdir) hstale honly ?_
    cases hunlink : calls.unlinkOk <;> simp [Op.apply, hok, hunlink]

end agrees

theorem perform_agrees (op : Op) {files : FileTree NetNs} {d : Place} {st : Status}
    (hdir : IsNetnsDir files d) (h : Shows files (place d op.name) st) :
    Agrees op files (place d op.name) st := by
  cases op with
  | add prog name calls => exact add_agrees name prog calls hdir h
  | del prog name calls => exact del_agrees name prog calls hdir h

theorem Represents.step {files : FileTree NetNs} {d : Place} {r : Registry}
    (h : Represents files d r) (op : Op) :
    Represents (op.perform files).1 d (r.perform op).1 ∧
      (op.perform files).2 = (r.perform op).2 := by
  have hagrees := perform_agrees op h.toIsNetnsDir (h.shows op.name)
  have hdir := hagrees.only.isNetnsDir (h.shows op.name) h.toIsNetnsDir
  refine ⟨⟨hdir, ?_⟩, hagrees.code⟩
  intro name
  by_cases hname : op.name = name
  · subst hname
    rw [Registry.perform, onEntry_self]
    exact hagrees.shows
  · rw [Registry.perform, onEntry_of_ne r hname,
      hagrees.only.shows (fun hp => hname (place_injective hp).symm)]
    exact h.shows name

theorem Represents.run {files : FileTree NetNs} {d : Place} {r : Registry}
    (h : Represents files d r) (ops : List Op) :
    Represents (respond Op.perform files ops).1 d (respond Registry.perform r ops).1 ∧
      (respond Op.perform files ops).2 = (respond Registry.perform r ops).2 :=
  respond_simulates (R := fun files r => Represents files d r) (fun _ _ op hr => hr.step op) h ops

/-- Whatever is not the file of a name that the commands are run for stays as it is. -/
theorem Represents.frame {files : FileTree NetNs} {d : Place} {r : Registry}
    (h : Represents files d r) (ops : List Op) {p : Place} (hp : ∀ op ∈ ops, p ≠ place d op.name) :
    (respond Op.perform files ops).1.kind p = files.kind p ∧
      (respond Op.perform files ops).1.mounts p = files.mounts p := by
  induction ops generalizing files r with
  | nil => exact ⟨rfl, rfl⟩
  | cons op ops ih =>
    obtain ⟨hop, hops⟩ := List.forall_mem_cons.mp hp
    have honly := (perform_agrees op h.toIsNetnsDir (h.shows op.name)).only
    obtain ⟨hkind, hmounts⟩ := ih (h.step op).1 hops
    exact ⟨hkind.trans (honly.kind p hop), hmounts.trans (honly.mounts p hop)⟩

/-- Any sequence of runs, with any system calls failing, does to `/var/run/netns` what the registry
says, exits with the codes it says, and leaves everything else alone. -/
theorem registry_refined {files : FileTree NetNs} {d : Place} {r : Registry}
    (h : Represents files d r) (ops : List Op) :
    Represents (respond Op.perform files ops).1 d (respond Registry.perform r ops).1 ∧
      (respond Op.perform files ops).2 = (respond Registry.perform r ops).2 ∧
      ∀ p, (∀ op ∈ ops, p ≠ place d op.name) →
        (respond Op.perform files ops).1.kind p = files.kind p ∧
          (respond Op.perform files ops).1.mounts p = files.mounts p := by
  obtain ⟨hend, hcodes⟩ := h.run ops
  exact ⟨hend, hcodes, fun p hp => h.frame ops hp⟩

/-- `/var/run` is a link to `/run`, as it mostly is. -/
def linkedFiles : FileTree NetNs where
  kind p :=
    if p ∈ [[], [[0x76, 0x61, 0x72]], [[0x72, 0x75, 0x6e]],
      [[0x6e, 0x65, 0x74, 0x6e, 0x73], [0x72, 0x75, 0x6e]]] then some .dir
    else if p = [[0x72, 0x75, 0x6e], [0x76, 0x61, 0x72]] then some (.link [0x2f, 0x72, 0x75, 0x6e])
    else none
  mounts _ := []
  root := by decide
  parent_dir := by
    intro c p h
    split_ifs at h with hdir hlink
    · simp only [List.mem_cons, List.not_mem_nil, or_false, List.cons.injEq, reduceCtorEq,
        false_or] at hdir
      rcases hdir with ⟨-, rfl⟩ | ⟨-, rfl⟩ | ⟨-, rfl⟩
      all_goals decide
    · rw [(List.cons.inj hlink).2]
      decide
    · exact absurd rfl h
  mounted h := absurd rfl h

/-- The directory that `/var/run/netns` leads to there. -/
def linkedDir : Place := [[0x6e, 0x65, 0x74, 0x6e, 0x73], [0x72, 0x75, 0x6e]]

theorem represents_linkedFiles : Represents linkedFiles linkedDir fun _ => .absent where
  leads := by decide +kernel
  dir := by decide
  shows name := by
    have hdirs : place linkedDir name ∉ [[], [[0x76, 0x61, 0x72]], [[0x72, 0x75, 0x6e]],
        linkedDir] := by
      simp [place, linkedDir]
    have hlink : place linkedDir name ≠ [[0x72, 0x75, 0x6e], [0x76, 0x61, 0x72]] := by
      simp [place, linkedDir]
    exact (if_neg hdirs).trans (if_neg hlink)

/-- A name is added, cannot be added again, and is deleted in two tries. -/
theorem registry_refined_one :
    let name : NetnsName := ⟨⟨[0x61], by decide⟩, by decide⟩
    let ops : List Op := [.add name name ⟨true, some 7, true⟩, .add name name ⟨true, some 8, true⟩,
      .del name name ⟨true, false⟩, .del name name ⟨true, true⟩]
    (respond Op.perform linkedFiles ops).2 = [0, -1, -1, 0] := by
  intro name ops
  have hcodes := (registry_refined represents_linkedFiles ops).2.1
  rw [hcodes]
  decide

/-- A run that does not take the mount off the name's file. -/
def Op.KeepsMount (name : NetnsName) : Op → Prop
  | add _ _ _ => True
  | del _ name' calls => name' = name → calls.umountOk = false

instance (name : NetnsName) : (op : Op) → Decidable (op.KeepsMount name)
  | .add _ _ _ => isTrue trivial
  | .del _ _ _ => inferInstanceAs (Decidable (_ → _))

/-- How a name comes to stand for a namespace: it did before and its mount is kept, or it is added
just now. -/
theorem apply_bound_iff {op : Op} {st : Status} {netns : NetNs} :
    (op.apply st).1 = .bound netns ↔ (st = .bound netns ∧ op.KeepsMount op.name) ∨
      ∃ prog name calls, op = .add prog name calls ∧ (op.apply st).2 = 0 ∧
        calls.unshare = some netns := by
  cases op with
  | add prog name calls =>
    cases st with
    | absent =>
      cases hopen : calls.openOk with
      | false => simp [Op.apply, hopen]
      | true =>
        cases hns : calls.unshare with
        | none => simp [Op.apply, hopen, hns]
        | some made => cases hmount : calls.mountOk <;> simp [Op.apply, hopen, hns, hmount]
    | stale => simp [Op.apply]
    | bound old => simp [Op.apply, Op.KeepsMount]
  | del prog name calls =>
    cases st with
    | absent => simp [Op.apply]
    | stale => cases hunlink : calls.unlinkOk <;> simp [Op.apply, hunlink]
    | bound old =>
      cases humount : calls.umountOk with
      | false => simp [Op.apply, Op.KeepsMount, humount]
      | true =>
        cases hunlink : calls.unlinkOk <;>
          simp [Op.apply, Op.KeepsMount, Op.name, humount, hunlink]

namespace Registry

theorem perform_self (r : Registry) (op : Op) :
    (r.perform op).1 op.name = (op.apply (r op.name)).1 := onEntry_self r op

theorem perform_of_ne (r : Registry) {op : Op} {name : NetnsName} (h : op.name ≠ name) :
    (r.perform op).1 name = r name := onEntry_of_ne r h

theorem perform_code (r : Registry) (op : Op) :
    (r.perform op).2 = (op.apply (r op.name)).2 := rfl

end Registry

theorem keepsMount_of_ne {op : Op} {name : NetnsName} (h : op.name ≠ name) : op.KeepsMount name := by
  cases op with
  | add prog name' calls => trivial
  | del prog name' calls => exact fun hname => absurd hname h

/-- How a run brings a name to stand for a namespace. -/
theorem Registry.perform_bound_iff (r : Registry) (op : Op) (name : NetnsName) (netns : NetNs) :
    (r.perform op).1 name = .bound netns ↔ r name = .bound netns ∧ op.KeepsMount name ∨
      ∃ prog calls, op = .add prog name calls ∧ (r.perform op).2 = 0 ∧
        calls.unshare = some netns := by
  by_cases hname : op.name = name
  · subst hname
    rw [Registry.perform_self, apply_bound_iff, Registry.perform_code]
    constructor
    · rintro (hkept | ⟨prog, name, calls, rfl, hcode, hns⟩)
      · exact .inl hkept
      · exact .inr ⟨prog, calls, rfl, hcode, hns⟩
    · rintro (hkept | ⟨prog, calls, hop, hcode, hns⟩)
      · exact .inl hkept
      · exact .inr ⟨prog, _, calls, hop, hcode, hns⟩
  · rw [Registry.perform_of_ne r hname, and_iff_left (keepsMount_of_ne hname)]
    refine (or_iff_left ?_).symm
    rintro ⟨prog, calls, rfl, -⟩
    exact hname rfl

/-- A run of `add-netns` succeeded, and no run after it took the mount off; `code` is the exit code
of a run behind others. -/
def AddedSince (code : List Op → Op → Int) (name : NetnsName) (netns : NetNs) (ops : List Op) :
    Prop :=
  ∃ before prog calls after, ops = before ++ .add prog name calls :: after ∧
    code before (.add prog name calls) = 0 ∧ calls.unshare = some netns ∧
    ∀ op ∈ after, op.KeepsMount name

def Registry.code (r : Registry) (before : List Op) (op : Op) : Int :=
  ((respond Registry.perform r before).1.perform op).2

/-- The exit code of a command that is run behind others. -/
def exitCode (files : FileTree NetNs) (before : List Op) (op : Op) : Int :=
  (op.perform (respond Op.perform files before).1).2

theorem Represents.code {files : FileTree NetNs} {d : Place} {r : Registry}
    (h : Represents files d r) :
    exitCode files = r.code := by
  funext before op
  exact ((h.run before).1.step op).2

theorem bound_iff_addedSince {r : Registry} {name : NetnsName} {netns : NetNs}
    (h : r name ≠ .bound netns) (ops : List Op) :
    (respond Registry.perform r ops).1 name = .bound netns ↔
      AddedSince r.code name netns ops := by
  have hsince := respond_since (fun r : Registry => r name = .bound netns)
    (fun r op => ∃ prog calls, op = .add prog name calls ∧ (r.perform op).2 = 0 ∧
      calls.unshare = some netns) (Op.KeepsMount name)
    (fun r op => r.perform_bound_iff op name netns) h ops
  rw [hsince]
  constructor
  · rintro ⟨before, _, after, rfl, ⟨prog, calls, rfl, hcode, hns⟩, hkeep⟩
    exact ⟨before, prog, calls, after, rfl, hcode, hns, hkeep⟩
  · rintro ⟨before, prog, calls, after, rfl, hcode, hns, hkeep⟩
    exact ⟨before, _, after, rfl, ⟨prog, calls, rfl, hcode, hns⟩, hkeep⟩

theorem shows_unique {files : FileTree NetNs} {p : Place} {st st' : Status}
    (h : Shows files p st) (h' : Shows files p st') : st = st' := by
  cases st <;> cases st' <;> simp_all [Shows]

/-- After any sequence of runs a name's file carries just the namespace `netns`, exactly if a run of
`add-netns` has succeeded with that namespace and no run of `del-netns` since has taken it off. -/
theorem netns_bound_iff {files : FileTree NetNs} {d : Place} {r : Registry}
    (h : Represents files d r)
    {name : NetnsName} (hnew : ∀ netns, r name ≠ .bound netns) (ops : List Op) (netns : NetNs) :
    Shows (respond Op.perform files ops).1 (place d name) (.bound netns) ↔
      AddedSince (exitCode files) name netns ops := by
  rw [h.code, ← bound_iff_addedSince (hnew netns) ops]
  have hend := (h.run ops).1.shows name
  constructor
  · intro hshows
    exact shows_unique hend hshows
  · intro hbound
    rwa [hbound] at hend

/-- The namespace of the run that succeeded is the one that is there. -/
theorem netns_bound_iff_one :
    let name : NetnsName := ⟨⟨[0x61], by decide⟩, by decide⟩
    let ops : List Op := [.add name name ⟨true, some 7, true⟩, .add name name ⟨true, some 8, true⟩,
      .del name name ⟨false, true⟩]
    Shows (respond Op.perform linkedFiles ops).1 (place linkedDir name) (.bound 7) := by
  intro name ops
  refine (netns_bound_iff represents_linkedFiles (fun _ => nofun) ops 7).mpr ?_
  exact ⟨[], name, ⟨true, some 7, true⟩, _, rfl, by decide +kernel, rfl, by decide⟩

end SnippetsC.Netns
