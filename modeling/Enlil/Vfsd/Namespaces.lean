import Enlil.Vfsd.Paths

/-! The mount namespaces of `user/vfsd.c`, and how a path is looked up in one. -/

namespace Enlil.Vfsd

open Enlil.Vfs (CString)

def vfsdMaxNamespaces : Nat := 32
def vfsdMaxNsMounts : Nat := 16
def vfsdRootNsId : Nat := 1

/-- A mount of a namespace. -/
structure NsMount where
  active : Bool
  readonly : Bool
  linuxCompat : Bool
  mountAt : CString
  backend : CString
  deriving DecidableEq, Repr

/-- A mount that was cleared. -/
def NsMount.none : NsMount := ⟨false, false, false, [], []⟩

structure Namespace where
  inUse : Bool
  nsId : Nat
  mounts : Nat → NsMount

/-- The kernel's calls for the server; an error is what a negative result says. -/
structure Boot (σ : Type) where
  openNow : σ → CString → UInt32 → σ × Except Errno Nat
  statNow : σ → Nat → σ × Except Errno UInt32
  closeNow : σ → Nat → σ × Except Errno Unit
  readNow : σ → Nat → Nat → σ × Except Errno (List UInt8)
  writeNow : σ → Nat → List UInt8 → σ × Except Errno Nat
  readdirNow : σ → Nat → σ × Except Errno (List UInt8)
  lseekNow : σ → Nat → Int → UInt32 → σ × Except Errno Nat

def root : CString := ['/']
def dev : CString := ['/', 'd', 'e', 'v']
def proc : CString := ['/', 'p', 'r', 'o', 'c']
def data : CString := ['/', 'd', 'a', 't', 'a']
def sysroot : CString := ['/', 's', 'y', 's', 'r', 'o', 'o', 't']
def lib : CString := ['/', 'l', 'i', 'b']
def usr : CString := ['/', 'u', 's', 'r']
def var : CString := ['/', 'v', 'a', 'r']
def tmp : CString := ['/', 't', 'm', 'p']
def binSh : CString := ['/', 'b', 'i', 'n', '/', 's', 'h']
def binBash : CString := ['/', 'b', 'i', 'n', '/', 'b', 'a', 's', 'h']

/-- The mounts a namespace starts with. -/
def seedMounts : List NsMount :=
  [⟨true, true, false, root, root⟩,
    ⟨true, false, false, dev, dev⟩,
    ⟨true, true, false, proc, proc⟩,
    ⟨true, false, false, data, data⟩,
    ⟨true, false, false, sysroot, sysroot⟩,
    ⟨true, true, true, lib, sysroot ++ lib⟩,
    ⟨true, true, true, usr, sysroot ++ usr⟩,
    ⟨true, false, false, var, data ++ var⟩,
    ⟨true, false, false, tmp, data ++ tmp⟩,
    ⟨true, true, true, binSh, binBash⟩]

/-- The namespace the server starts with. -/
def vfsdNamespaceSeed : Namespace where
  inUse := true
  nsId := vfsdRootNsId
  mounts := fun i => seedMounts.getD i .none

/-- A backend that is read-only by itself. -/
def vfsdBackendReadonly (backend : CString) : Bool := backend == root || backend == proc

/-- Changes one mount. -/
def Namespace.setMount (ns : Namespace) (i : Nat) (mount : NsMount) : Namespace :=
  { ns with mounts := Function.update ns.mounts i mount }

/-- The mount at a path. -/
def vfsdNamespaceMountExact (ns : Namespace) (mountAt : CString) : Option Nat :=
  (List.range vfsdMaxNsMounts).find? fun i => (ns.mounts i).active && (ns.mounts i).mountAt == mountAt

/-- The mounts a path lies on, one of them apart. -/
def candidates (ns : Namespace) (path : CString) (exclude : Option Nat) : List Nat :=
  (List.range vfsdMaxNsMounts).filter fun i =>
    (ns.mounts i).active && some i != exclude && vfsdPathHasPrefix path (ns.mounts i).mountAt

/-- The mount with the longest path a path lies on, one mount apart; the first of them where two are as long. -/
def vfsdNamespaceMountBestExcluding (ns : Namespace) (path : CString) (exclude : Option Nat) : Option Nat :=
  (candidates ns path exclude).argmax fun i => (ns.mounts i).mountAt.length

/-- The mount with the longest path a path lies on. -/
def vfsdNamespaceMountBest (ns : Namespace) (path : CString) : Option Nat :=
  vfsdNamespaceMountBestExcluding ns path none

/-- The path behind a mount. -/
def vfsdNamespaceMountJoin (mount : NsMount) (virtualPath : CString) : Except Errno CString :=
  match vfsdPathJoin mount.backend
      (if mount.mountAt = root then virtualPath else virtualPath.drop mount.mountAt.length) vfsdPathBytes with
  | .ok backend => .ok backend
  | .error _ => .error .enametoolong

/-- A path is missing, so that another mount may have it. -/
def isMissing (error : Errno) : Bool := error == .enoent || error == .enotdir

section

variable {σ α : Type} (boot : Boot σ) (ns : Namespace)

def vfsdBootPathStat (st : σ) (path : CString) : σ × Except Errno UInt32 :=
  match boot.openNow st path 0 with
  | (st, .error error) => (st, .error error)
  | (st, .ok handle) =>
    match boot.statNow st handle with
    | (st, result) => ((boot.closeNow st handle).1, result)

/--
Tries the mounts a path lies on, the longest first; behind a mount for Linux programs, another has its turn.

Only the mount tried last is left out next, so that two of them could have turns without end; `none` stands for this.
-/
def overMounts (virtualPath : CString) (attempt : σ → NsMount → CString → σ × Except Errno α) :
    Nat → σ → Option Nat → Errno → Option (σ × Except Errno α)
  | _, st, none, error => some (st, .error error)
  | 0, _, some _, _ => none
  | turns + 1, st, some i, _ =>
    match vfsdNamespaceMountJoin (ns.mounts i) virtualPath with
    | .error error => some (st, .error error)
    | .ok backend =>
      match attempt st (ns.mounts i) backend with
      | (st, .ok result) => some (st, .ok result)
      | (st, .error error) =>
        if (ns.mounts i).linuxCompat = false ∨ isMissing error = false then some (st, .error error)
        else overMounts virtualPath attempt turns st (vfsdNamespaceMountBestExcluding ns virtualPath (some i)) error

/-- The path behind the mount that has a path, and whether the mount is read-only and for Linux programs. -/
def vfsdNamespaceResolveExisting (st : σ) (virtualPath : CString) :
    Option (σ × Except Errno (CString × Bool × Bool)) :=
  overMounts ns virtualPath
    (fun st mount backend =>
      if mount.linuxCompat = false then (st, .ok (backend, mount.readonly, mount.linuxCompat))
      else
        match vfsdBootPathStat boot st backend with
        | (st, .ok _) => (st, .ok (backend, mount.readonly, mount.linuxCompat))
        | (st, .error error) => (st, .error error))
    vfsdMaxNsMounts st (vfsdNamespaceMountBest ns virtualPath) .enoent

/-- Opens a path behind the mount that has it. -/
def vfsdNamespaceOpenExisting (st : σ) (virtualPath : CString) (flags : UInt32) : Option (σ × Except Errno Nat) :=
  overMounts ns virtualPath (fun st _ backend => boot.openNow st backend flags) vfsdMaxNsMounts st
    (vfsdNamespaceMountBest ns virtualPath) .enoent

/-- The path behind the mount a path lies on, whether or not it is there. -/
def vfsdNamespaceResolve (virtualPath : CString) : Except Errno CString :=
  match vfsdNamespaceMountBest ns virtualPath with
  | none => .error .enoent
  | some i => vfsdNamespaceMountJoin (ns.mounts i) virtualPath

/-- Adds a mount at a path that has none. -/
def vfsdNamespaceMountAdd (mountAt backend : CString) (readonly linuxCompat : Bool) : Except Errno Namespace :=
  if (vfsdNamespaceMountExact ns mountAt).isSome then .error .ebusy
  else
    match (List.range vfsdMaxNsMounts).find? fun i => !(ns.mounts i).active with
    | none => .error .enospc
    | some i =>
      .ok (ns.setMount i
        ⟨true, readonly, linuxCompat, vfsdStrlcpy mountAt vfsdPathBytes, vfsdStrlcpy backend vfsdPathBytes⟩)

/-- Takes a mount away that no other lies below. -/
def vfsdNamespaceUmount (mountAt : CString) : Except Errno Namespace :=
  if mountAt = root then .error .ebusy
  else if (List.range vfsdMaxNsMounts).any fun i =>
      (ns.mounts i).active && (ns.mounts i).mountAt != mountAt && vfsdPathHasPrefix (ns.mounts i).mountAt mountAt then
    .error .ebusy
  else
    match vfsdNamespaceMountExact ns mountAt with
    | none => .error .enoent
    | some i => .ok (ns.setMount i .none)

end

end Enlil.Vfsd
