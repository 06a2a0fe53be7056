import SnippetsC.Netns.Commands

namespace SnippetsC.Netns

open Netlink (CString)

/-- What a successful run of `add-netns` has done. -/
theorem AddNetns.main_succeeds {calls : Calls} {argv : List CString} {files : FileTree NetNs}
    (h : (main calls argv files).code = 0) :
    ∃ name netns created, argv[1]? = some name ∧
      files.openExcl (netnsPath name) calls.openOk = some created ∧
      created.bind (netnsPath name) netns calls.mountOk = some (main calls argv files).files := by
  unfold main at h ⊢
  cases hname : argv[1]? with
  | none =>
    simp [hname] at h
  | some name =>
    simp only [hname] at h ⊢
    cases hopen : files.openExcl (netnsPath name) calls.openOk with
    | none =>
      simp [hopen] at h
    | some created =>
      simp only [hopen] at h ⊢
      cases hns : calls.unshare with
      | none =>
        simp [hns] at h
      | some netns =>
        simp only [hns] at h ⊢
        cases hbind : created.bind (netnsPath name) netns calls.mountOk with
        | none =>
          simp [hbind] at h
        | some bound => exact ⟨name, netns, created, rfl, hopen, hbind⟩

/-- `del-netns` takes back what `add-netns` has done, in the opposite order, and nothing else was
touched meanwhile. -/
theorem del_undoes_add (calls : AddNetns.Calls) (argv : List CString) (files : FileTree NetNs)
    (h : (AddNetns.main calls argv files).code = 0) :
    ∃ name p, argv[1]? = some name ∧ files.entry (netnsPath name) = some p ∧
      files.kind p = none ∧
      (∀ q ≠ p, (AddNetns.main calls argv files).files.kind q = files.kind q ∧
        (AddNetns.main calls argv files).files.mounts q = files.mounts q) ∧
      ∀ argv' : List CString, argv'[1]? = some name →
        DelNetns.main ⟨true, true⟩ argv' (AddNetns.main calls argv files).files =
          ⟨0, "", files⟩ := by
  obtain ⟨name, netns, created, hname, hopen, hbind⟩ := AddNetns.main_succeeds h
  obtain ⟨p, ⟨-, hp, hnew⟩, hmounts, hkind⟩ := FileTree.openExcl_spec hopen
  obtain ⟨_, hp₁, -, -, htarget, -, -⟩ := FileTree.found_of_openExcl hopen
  cases hp.symm.trans hp₁
  obtain ⟨_, ⟨-, hp₂, -⟩, hkind', hmounts'⟩ := FileTree.bind_spec hbind
  cases htarget.symm.trans hp₂
  refine ⟨name, p, hname, hp, hnew, ?_, ?_⟩
  · intro q hq
    rw [hkind', hkind, hmounts', hmounts]
    exact ⟨Function.update_of_ne hq _ _, Function.update_of_ne hq _ _⟩
  · intro argv' hname'
    simp only [DelNetns.main, hname', FileTree.umount_of_bind hbind, Option.getD_some,
      FileTree.unlink_of_openExcl hopen]

theorem del_undoes_add_one :
    let name : CString := ⟨[0x61], by decide⟩
    let added := AddNetns.main ⟨true, some 7, true⟩ [name, name] plainFiles
    added.code = 0 ∧
      DelNetns.main ⟨true, true⟩ [name, name] added.files = ⟨0, "", plainFiles⟩ := by
  intro name added
  have hcode : added.code = 0 := by decide +kernel
  obtain ⟨n, p, hn, -, -, -, hdel⟩ :=
    del_undoes_add ⟨true, some 7, true⟩ [name, name] plainFiles hcode
  exact ⟨hcode, hdel [name, name] hn⟩

end SnippetsC.Netns
