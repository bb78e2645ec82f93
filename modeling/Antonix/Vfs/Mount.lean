import Antonix.Vfs.Shape

/-! # Unmounting

`vfs_parse_url` sets its crossing flag for a path that ends at a mount point as well
as for one that goes through it, and `vfs_unmount_fs` takes every path with the flag
for one that is not there.  A path without the flag does not end at a mount point, so
that no call ever gets to the driver. -/

namespace Antonix.Vfs

open Transition

section

variable {s t : VfsState} {path : List Char} {ops : List (VfsCall × HResult)}

/-- What unmounting is for: the driver is finalized, and no path leads to it any more. -/
def UnmountLaw (s : VfsState) (path : List Char) (drv : Nat) : Prop :=
  ∃ hr t, vfsUnmountFs s path = .ok (hr, t) ∧ hr.succeeded = true ∧ drv ∈ t.finalized ∧
    ∀ other found, vfsParseUrl t other none none = .ok (.ok found) →
      (t.nodes found.node).fsDriver ≠ .mounted drv

theorem run_isVfsTree (run : Run VfsStep s ops t) (valid : IsVfsTree s) : IsVfsTree t :=
  run.invariant IsVfsTree (fun _ _ _ valid step => vfsStep_isVfsTree valid step) valid

/-- Every call of `vfs_unmount_fs` is refused. -/
theorem vfsUnmountFs_refused (valid : IsVfsTree s) (fits : NamesFit path) :
    ∃ hr, hr.failed = true ∧ vfsUnmountFs s path = .ok (hr, s) := by
  obtain ⟨outcome, parsed⟩ := parseUrl_returns (s := s) fits
  cases outcome with
  | error hr => exact ⟨.eInvalidArg, rfl, by simp [vfsUnmountFs, parsed, bind, Except.bind]⟩
  | ok found =>
    cases crossing : found.isCrossingMountpoint with
    | true =>
      exact ⟨.eInvalidArg, rfl, by simp [vfsUnmountFs, parsed, crossing, bind, Except.bind]⟩
    | false =>
      have inner : (s.nodes found.node).type &&& nodeTypeMountpoint = 0 :=
        not_not.mp (inner_of_parseUrl valid parsed crossing)
      exact ⟨.eFail, rfl, by simp [vfsUnmountFs, parsed, crossing, inner, bind, Except.bind]⟩

/-- The path of a mount that succeeded can be searched for. -/
theorem namesFit_of_mounted {fsCtor : Option FsConstructor} {storageDrv : Option (List Char)}
    {instanceAlloc : Option Nat} {alloc : ChildAlloc}
    (mounted : vfsMountFs s (some path) fsCtor storageDrv instanceAlloc alloc = .ok (.sOk, t)) :
    NamesFit path := by
  cases fsCtor with
  | none => cases mounted
  | some fsCtor =>
    cases storageDrv with
    | none => cases mounted
    | some storageDrv =>
      cases vfsMountFs_cases mounted with
      | inl unchanged => exact absurd unchanged.1 (by decide)
      | inr mounts =>
        obtain ⟨-, parent, name, drv, finds, -⟩ := mounts
        exact namesFit_of_free finds

end

/-- A file system that was mounted is never unmounted: in every run, at any time after a
`vfs_mount_fs` that returned `S_OK`, `vfs_unmount_fs` on its path fails and changes nothing. -/
theorem vfsUnmountFs_never {memory : Nat → VfsNode} {root drv : Nat} {s s' t : VfsState}
    {before after : List (VfsCall × HResult)} {path : List Char} {fsCtor : Option FsConstructor}
    {storageDrv : Option (List Char)} {alloc : ChildAlloc}
    (first : Run VfsStep (vfsInit memory root) before s)
    (mount : VfsStep s (.mountFs (some path) fsCtor storageDrv (some drv) alloc, .sOk) s')
    (later : Run VfsStep s' after t) :
    ¬ UnmountLaw t path drv ∧ ∃ hr, hr.failed = true ∧ vfsUnmountFs t path = .ok (hr, t) := by
  have valid : IsVfsTree t :=
    run_isVfsTree later (vfsStep_isVfsTree (run_isVfsTree first vfsInit_isVfsTree) mount)
  have mounted : vfsMountFs s (some path) fsCtor storageDrv (some drv) alloc = .ok (.sOk, s') :=
    mount.2
  obtain ⟨hr, failed, refused⟩ := vfsUnmountFs_refused valid (namesFit_of_mounted mounted)
  refine ⟨?_, hr, failed, refused⟩
  intro law
  obtain ⟨hr', t', called, succeeded, -⟩ := law
  rw [refused] at called
  obtain ⟨rfl, -⟩ := eq_of_returned called
  rw [HResult.failed, succeeded] at failed
  contradiction

/-- A file system at `/m`. -/
theorem vfsUnmountFs_never_m :
    ∃ s t, VfsStep s (.mountFs (some ['/', 'm']) (some fun _ => (.sOk, ⟨fun _ _ => .eFail, none⟩))
        (some ['d']) (some 7) ⟨some fun _ => 0, some 1⟩, .sOk) t ∧
      ¬ UnmountLaw t ['/', 'm'] 7 ∧
      ∃ hr, hr.failed = true ∧ vfsUnmountFs t ['/', 'm'] = .ok (hr, t) := by
  obtain ⟨t, mount⟩ : ∃ t, VfsStep (vfsInit (fun _ => .zeroed) 0)
      (.mountFs (some ['/', 'm']) (some fun _ => (.sOk, ⟨fun _ _ => .eFail, none⟩)) (some ['d'])
        (some 7) ⟨some fun _ => 0, some 1⟩, .sOk) t := ⟨_, vfsInit_fresh (by decide), rfl⟩
  exact ⟨_, t, mount, vfsUnmountFs_never (.nil _) mount (.nil t)⟩

/-- At once after the mount, `vfs_unmount_fs` does not find the path. -/
theorem unmount_after_mount :
    ∃ t, vfsMountFs (vfsInit (fun _ => .zeroed) 0) (some ['/', 'm'])
        (some fun _ => (.sOk, ⟨fun _ _ => .eFail, some .sOk⟩)) (some ['d']) (some 7)
        ⟨some fun _ => 0, some 1⟩ = .ok (.sOk, t) ∧
      vfsUnmountFs t ['/', 'm'] = .ok (.eInvalidArg, t) ∧ ¬ UnmountLaw t ['/', 'm'] 7 := by
  refine ⟨_, rfl, rfl, fun law => ?_⟩
  obtain ⟨hr, t, called, succeeded, -⟩ := law
  obtain ⟨rfl, -⟩ := eq_of_returned called
  contradiction

end Antonix.Vfs
