import SnippetsC.Netns.Commands
import Mathlib.Order.OrderDual

namespace SnippetsC.Netns

/-! When a failing command has left the files and mounts as they were. -/

open Netlink (CString)
open SnippetsC.Path

namespace AddNetns

theorem moves_open (path : List UInt8) (ok : Bool) :
    Script.Moves FileTree.weight
      ⟨fun files : FileTree NetNs => files.openExcl path ok, true⟩ :=
  fun _ _ h => FileTree.weight_openExcl h

theorem silent_unshare (netns : Option NetNs) :
    Script.Silent ⟨fun files : FileTree NetNs => netns.map fun _ => files, true⟩ := by
  intro files files' h
  obtain ⟨_, -, rfl⟩ := Option.map_eq_some_iff.mp h
  rfl

theorem moves_mount (path : List UInt8) (netns : Option NetNs) (ok : Bool) :
    Script.Moves FileTree.weight
      ⟨fun files : FileTree NetNs => netns.bind fun netns => files.bind path netns ok, true⟩ := by
  intro files files' h
  obtain ⟨_, -, hbind⟩ := Option.bind_eq_some_iff.mp h
  exact FileTree.weight_bind hbind

/-- Behind a successful `open`, the script is at the mercy of the other two calls: the path they
need is there. -/
theorem run_rest {calls : Calls} {name : CString} {files files' : FileTree NetNs}
    (h : files.openExcl (netnsPath name) calls.openOk = some files') :
    (Script.run (script calls name).tail files').1 = true ↔
      calls.unshare ≠ none ∧ calls.mountOk = true := by
  obtain ⟨p, -, -, -, htarget, hfile, -⟩ := FileTree.found_of_openExcl h
  have hleads : files'.LeadsToFile (netnsPath name) := ⟨p, htarget, hfile⟩
  rw [script, List.tail_cons]
  cases hns : calls.unshare with
  | none =>
    rw [Script.run_checked rfl rfl]
    simp
  | some netns =>
    rw [Script.run_some rfl]
    cases hbind : files'.bind (netnsPath name) netns calls.mountOk with
    | none =>
      have hnot := mt FileTree.bind_isSome.mpr (by rw [hbind]; exact Bool.false_ne_true)
      rw [Script.run_checked hbind rfl]
      simpa [hleads] using hnot
    | some files'' =>
      have hok := FileTree.bind_isSome.mp (Option.isSome_of_eq_some hbind)
      rw [Script.run_some hbind]
      exact ⟨fun _ => ⟨Option.some_ne_none netns, hok.1⟩, fun _ => rfl⟩

theorem atomic_iff (calls : Calls) (name : CString) (files : FileTree NetNs) :
    Script.Atomic (script calls name) files ↔
      (calls.openOk = true ∧ files.Creatable (netnsPath name) →
        calls.unshare ≠ none ∧ calls.mountOk = true) := by
  cases hopen : files.openExcl (netnsPath name) calls.openOk with
  | none =>
    have hnot := mt FileTree.openExcl_isSome.mpr (by rw [hopen]; exact Bool.false_ne_true)
    exact ⟨fun _ hcan => absurd hcan hnot, fun _ => Script.atomic_of_checked hopen rfl⟩
  | some files' =>
    have hcan := FileTree.openExcl_isSome.mp (Option.isSome_of_eq_some hopen)
    have hrest : ∀ c ∈ (script calls name).tail,
        Script.Moves FileTree.weight c ∨ Script.Silent c := by
      intro c hc
      rcases List.mem_cons.mp hc with rfl | hc
      · exact .inr (silent_unshare _)
      · rw [List.mem_singleton.mp hc]
        exact .inl (moves_mount _ _ _)
    rw [← run_rest hopen]
    exact (Script.atomic_of_moves (moves_open _ _) hrest hopen).trans
      ⟨fun h _ => h, fun h => h hcan⟩

end AddNetns

namespace DelNetns

/-- The calls take things away. -/
def left (files : FileTree NetNs) : (Place → Nat)ᵒᵈ := OrderDual.toDual files.weight

theorem moves_umount (path : List UInt8) (ok : Bool) :
    Script.Moves left ⟨fun files : FileTree NetNs => files.umount path ok, false⟩ :=
  fun _ _ h => OrderDual.toDual_lt_toDual.mpr (FileTree.weight_umount h)

theorem moves_unlink (path : List UInt8) (ok : Bool) :
    Script.Moves left ⟨fun files : FileTree NetNs => files.unlink path ok, true⟩ :=
  fun _ _ h => OrderDual.toDual_lt_toDual.mpr (FileTree.weight_unlink h)

/-- What the path names goes away with one mount: a file with a single one, or a link to it. -/
def LastMount (files : FileTree NetNs) (path : List UInt8) : Prop :=
  ∃ p ∈ files.entry path, files.kind p ≠ none ∧ files.kind p ≠ some .dir ∧
    (files.kind p = some .file → (files.mounts p).length = 1)

instance (files : FileTree NetNs) (path : List UInt8) : Decidable (LastMount files path) :=
  inferInstanceAs (Decidable (∃ p ∈ files.entry path, _))

theorem removable_of_umount {files files' : FileTree NetNs} {path : List UInt8} {ok : Bool}
    (h : files.umount path ok = some files') : files'.Removable path ↔ LastMount files path := by
  obtain ⟨r, ⟨-, hr, hne⟩, hkind, hmounts⟩ := FileTree.umount_spec h
  have hpos := List.length_pos_of_ne_nil hne
  have hlast : (files.mounts r).tail = [] ↔ (files.mounts r).length = 1 := by
    rw [← List.length_eq_zero_iff, List.length_tail]
    omega
  have hfree {p : Place} (hp : files.entry path = some p) (hthere : files.kind p ≠ none)
      (hdir : files.kind p ≠ some .dir) :
      files'.mounts p = [] ↔ (files.kind p = some .file → (files.mounts p).length = 1) := by
    by_cases hfile : files.kind p = some .file
    · -- the mount was on the file itself
      cases (FileTree.target_of_file hp hfile).symm.trans hr
      rw [hmounts, Function.update_self, hlast]
      exact ⟨fun hone _ => hone, fun hone => hone hfile⟩
    · have hpr : p ≠ r := by
        rintro rfl
        exact (FileTree.target_ends hr).elim hdir hfile
      rw [hmounts, Function.update_of_ne hpr]
      refine iff_of_true ?_ fun hf => absurd hf hfile
      by_contra hm
      exact (files.mounted hm).elim hdir hfile
  rw [FileTree.Removable, LastMount, FileTree.entry_congr_kind hkind]
  constructor
  · rintro ⟨p, hp, hloose⟩
    have hthere := hloose.there
    have hdir := hloose.no_dir
    rw [hkind] at hthere hdir
    exact ⟨p, hp, hthere, hdir, (hfree hp hthere hdir).mp hloose.free⟩
  · rintro ⟨p, hp, hthere, hdir, hone⟩
    exact ⟨p, hp, by rwa [hkind], by rwa [hkind], (hfree hp hthere hdir).mpr hone⟩

theorem run_rest {calls : Calls} {name : CString} {files : FileTree NetNs} :
    (Script.run (script calls name).tail files).1 = true ↔
      calls.unlinkOk = true ∧ files.Removable (netnsPath name) := by
  rw [script, List.tail_cons, ← FileTree.unlink_isSome]
  cases hunlink : files.unlink (netnsPath name) calls.unlinkOk with
  | none =>
    rw [Script.run_checked hunlink rfl]
    rfl
  | some files' =>
    rw [Script.run_some hunlink]
    rfl

theorem atomic_iff (calls : Calls) (name : CString) (files : FileTree NetNs) :
    Script.Atomic (script calls name) files ↔
      (calls.umountOk = true ∧ files.Mounted (netnsPath name) →
        calls.unlinkOk = true ∧ LastMount files (netnsPath name)) := by
  have hrest : ∀ c ∈ (script calls name).tail, Script.Moves left c ∨ Script.Silent c := by
    intro c hc
    rw [List.mem_singleton.mp hc]
    exact .inl (moves_unlink _ _)
  cases humount : files.umount (netnsPath name) calls.umountOk with
  | none =>
    have hnot := mt FileTree.umount_isSome.mpr (by rw [humount]; exact Bool.false_ne_true)
    refine ⟨fun _ hcan => absurd hcan hnot, fun _ => ?_⟩
    -- only `unlink` is left, and when it fails it changes nothing
    refine (Script.atomic_of_unchecked humount rfl).mpr ?_
    cases hunlink : files.unlink (netnsPath name) calls.unlinkOk with
    | none => exact Script.atomic_of_checked hunlink rfl
    | some files' =>
      refine (Script.atomic_of_moves (moves_unlink _ _) ?_ hunlink).mpr rfl
      intro c hc
      cases hc
  | some files' =>
    have hcan := FileTree.umount_isSome.mp (Option.isSome_of_eq_some humount)
    rw [← removable_of_umount humount, ← run_rest]
    exact (Script.atomic_of_moves (moves_umount _ _) hrest humount).trans
      ⟨fun h _ => h, fun h => h hcan⟩

end DelNetns

/-- Exactly when a command that reports failure has left everything as it was, whatever fails. -/
theorem netns_atomic_iff (add : AddNetns.Calls) (del : DelNetns.Calls) (argv : List CString)
    (files : FileTree NetNs) :
    (((AddNetns.main add argv files).code ≠ 0 → (AddNetns.main add argv files).files = files) ↔
      ∀ name, argv[1]? = some name → add.openOk = true ∧ files.Creatable (netnsPath name) →
        add.unshare ≠ none ∧ add.mountOk = true) ∧
    (((DelNetns.main del argv files).code ≠ 0 → (DelNetns.main del argv files).files = files) ↔
      ∀ name, argv[1]? = some name → del.umountOk = true ∧ files.Mounted (netnsPath name) →
        del.unlinkOk = true ∧ DelNetns.LastMount files (netnsPath name)) := by
  cases h : argv[1]? with
  | none => simp [AddNetns.main, DelNetns.main, h]
  | some name =>
    have hadd := (AddNetns.main_follows add h files).atomic
    have hdel := (DelNetns.main_follows del h files).atomic
    rw [hadd, hdel, AddNetns.atomic_iff, DelNetns.atomic_iff]
    constructor
    · simp only [Option.some.injEq, forall_eq']
    · simp only [Option.some.injEq, forall_eq']

/-- A failing `unshare` leaves the file behind; a failing `unlink` leaves it without its mount. -/
theorem netns_leftovers :
    let name : CString := ⟨[0x61], by decide⟩
    let added := AddNetns.main ⟨true, some 7, true⟩ [name, name] plainFiles
    let failed := AddNetns.main ⟨true, none, true⟩ [name, name] plainFiles
    let kept := DelNetns.main ⟨true, false⟩ [name, name] added.files
    (failed.code = -1 ∧ failed.files ≠ plainFiles) ∧
      (kept.code = -1 ∧ kept.files ≠ added.files) := by
  intro name added failed kept
  let place : Place := [0x61] :: (components varRunNetns).reverse.dropLast
  have hfile : failed.files.kind place ≠ plainFiles.kind place := by decide +kernel
  have hmount : kept.files.mounts place ≠ added.files.mounts place := by decide +kernel
  refine ⟨⟨by decide +kernel, ?_⟩, by decide +kernel, ?_⟩
  · intro h
    exact hfile (by rw [h])
  · intro h
    exact hmount (by rw [h])

end SnippetsC.Netns
