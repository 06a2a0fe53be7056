import SnippetsC.Framework.FileTree
import SnippetsC.Framework.Script
import SnippetsC.Netlink.Request

namespace SnippetsC.Netns

open Netlink (CString)

/-! `add-netns` and `del-netns` on a file tree in which network namespaces can be mounted. -/

/-- The inode number of a network namespace. -/
abbrev NetNs := Nat

/-- The literal `/var/run/netns`. -/
def varRunNetns : List UInt8 :=
  [0x2f, 0x76, 0x61, 0x72, 0x2f, 0x72, 0x75, 0x6e, 0x2f, 0x6e, 0x65, 0x74, 0x6e, 0x73]

/-- `snprintf(netns_path, sizeof(netns_path), "%s/%s", "/var/run/netns", argv[1])`; the buffer has
100 bytes and the last one is the NUL. -/
def netnsPath (name : CString) : List UInt8 := (varRunNetns ++ Path.slash :: name.chars).take 99

/-- Nothing but the directory `/var/run/netns`, empty and reached without links. -/
def plainFiles : FileTree NetNs := .downTo (Path.components varRunNetns).reverse.dropLast

/-- What a command leaves behind. -/
structure Exit where
  code : Int
  printed : String
  files : FileTree NetNs

namespace AddNetns

/-- Whether the system calls succeed where they can, and the namespace `unshare` makes. -/
structure Calls where
  openOk : Bool
  unshare : Option NetNs
  mountOk : Bool

def main (calls : Calls) (argv : List CString) (files : FileTree NetNs) : Exit :=
  match argv[1]? with
  | none => ⟨-1, "", files⟩
  | some name =>
    match files.openExcl (netnsPath name) calls.openOk with
    | none => ⟨-1, "Error creating namespace file\n", files⟩
    | some files =>
      match calls.unshare with
      | none => ⟨-1, "Error creating namespace\n", files⟩
      | some netns =>
        match files.bind (netnsPath name) netns calls.mountOk with
        | none => ⟨-1, "Error binding /proc/self/ns/net to netns file\n", files⟩
        | some files => ⟨0, "", files⟩

/-- The calls in order; all of them are checked. -/
def script (calls : Calls) (name : CString) : List (Call (FileTree NetNs)) :=
  [⟨fun files => files.openExcl (netnsPath name) calls.openOk, true⟩,
    ⟨fun files => calls.unshare.map fun _ => files, true⟩,
    ⟨fun files => calls.unshare.bind fun netns =>
      files.bind (netnsPath name) netns calls.mountOk, true⟩]

end AddNetns

namespace DelNetns

structure Calls where
  umountOk : Bool
  unlinkOk : Bool

def main (calls : Calls) (argv : List CString) (files : FileTree NetNs) : Exit :=
  match argv[1]? with
  | none => ⟨-1, "", files⟩
  | some name =>
    -- the result of umount2 is not looked at
    let files := (files.umount (netnsPath name) calls.umountOk).getD files
    match files.unlink (netnsPath name) calls.unlinkOk with
    | none => ⟨-1, "Error removing namespace file\n", files⟩
    | some files => ⟨0, "", files⟩

def script (calls : Calls) (name : CString) : List (Call (FileTree NetNs)) :=
  [⟨fun files => files.umount (netnsPath name) calls.umountOk, false⟩,
    ⟨fun files => files.unlink (netnsPath name) calls.unlinkOk, true⟩]

end DelNetns

theorem failed_ne : ¬(-1 : Int) = 0 := by decide

theorem AddNetns.main_follows (calls : Calls) {argv : List CString} {name : CString}
    (h : argv[1]? = some name) (files : FileTree NetNs) :
    Script.Follows ((main calls argv files).code = 0) (main calls argv files).files
      (Script.run (script calls name) files) := by
  rw [main, script]
  cases hopen : files.openExcl (netnsPath name) calls.openOk with
  | none =>
    simp only [h, hopen]
    rw [Script.run_checked hopen rfl]
    exact Script.Follows.failed failed_ne files
  | some files' =>
    rw [Script.run_some hopen]
    cases hns : calls.unshare with
    | none =>
      simp only [h, hopen]
      rw [Script.run_checked rfl rfl]
      exact Script.Follows.failed failed_ne files'
    | some netns =>
      rw [Script.run_some rfl]
      cases hbind : files'.bind (netnsPath name) netns calls.mountOk with
      | none =>
        simp only [h, hopen, hbind]
        rw [Script.run_checked hbind rfl]
        exact Script.Follows.failed failed_ne files'
      | some files'' =>
        simp only [h, hopen, hbind]
        rw [Script.run_some hbind]
        exact Script.Follows.succeeded trivial files''

theorem DelNetns.main_follows (calls : Calls) {argv : List CString} {name : CString}
    (h : argv[1]? = some name) (files : FileTree NetNs) :
    Script.Follows ((main calls argv files).code = 0) (main calls argv files).files
      (Script.run (script calls name) files) := by
  rw [main, script, Script.run_unchecked rfl]
  cases hunlink : ((files.umount (netnsPath name) calls.umountOk).getD files).unlink
      (netnsPath name) calls.unlinkOk with
  | none =>
    simp only [h, hunlink]
    rw [Script.run_checked hunlink rfl]
    exact Script.Follows.failed failed_ne _
  | some files' =>
    simp only [h, hunlink]
    rw [Script.run_some hunlink]
    exact Script.Follows.succeeded trivial files'

end SnippetsC.Netns
