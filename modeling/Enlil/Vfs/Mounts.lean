import Enlil.Vfs.Paths

/-! The mount table of `kernel/vfs.c`, and what its calls make of a path. -/

namespace Enlil.Vfs

def oWronly : UInt32 := 1
def oRdwr : UInt32 := 2
def oCreat : UInt32 := 0x40
def oTrunc : UInt32 := 0x200
def oAppend : UInt32 := 0x400
def bindfsHandleMax : Nat := 32
def bindfsPathMax : Nat := 128

/-- The operations of a mount. -/
inductive Driver where
  | initrd
  /-- A mount that stands for one that is missing. -/
  | placefs
  | devfs
  /-- A mount of another path. -/
  | bindfs (base : CString)
  | ext4
  | procfs
  deriving DecidableEq

structure Mount where
  readonly : Bool
  path : CString
  driver : Driver
  deriving DecidableEq

/-- The mounts, with or without an initial archive and a disk with a file system on it. -/
def buildMountTable (initrdReady blkReady ext4Mounted : Bool) : List Mount :=
  [⟨true, ['/'], if initrdReady then .initrd else .placefs⟩,
    ⟨false, ['/', 'd', 'e', 'v'], .devfs⟩,
    ⟨true, ['/', 'l', 'i', 'b'], .bindfs ['/', 's', 'y', 's', 'r', 'o', 'o', 't', '/', 'l', 'i', 'b']⟩,
    ⟨true, ['/', 'l', 'i', 'b', '/', 'a', 'a', 'r', 'c', 'h', '6', '4', '-', 'l', 'i', 'n', 'u', 'x', '-', 'g', 'n', 'u'],
      .bindfs ['/', 's', 'y', 's', 'r', 'o', 'o', 't', '/', 'l', 'i', 'b', '/', 'a', 'a', 'r', 'c', 'h', '6', '4', '-', 'l',
        'i', 'n', 'u', 'x', '-', 'g', 'n', 'u']⟩,
    ⟨true, ['/', 'u', 's', 'r'], .bindfs ['/', 's', 'y', 's', 'r', 'o', 'o', 't', '/', 'u', 's', 'r']⟩,
    ⟨true, ['/', 'b', 'i', 'n', '/', 's', 'h'],
      .bindfs ['/', 's', 'y', 's', 'r', 'o', 'o', 't', '/', 'u', 's', 'r', '/', 'b', 'i', 'n', '/', 'b', 'a', 's', 'h']⟩] ++
  (if blkReady then
    if ext4Mounted then
      [⟨false, ['/', 'd', 'a', 't', 'a'], .ext4⟩,
        ⟨false, ['/', 's', 'y', 's', 'r', 'o', 'o', 't'], .ext4⟩,
        ⟨false, ['/', 'v', 'a', 'r'], .bindfs ['/', 'd', 'a', 't', 'a', '/', 'v', 'a', 'r']⟩,
        ⟨false, ['/', 't', 'm', 'p'], .bindfs ['/', 'd', 'a', 't', 'a', '/', 't', 'm', 'p']⟩]
    else [⟨true, ['/', 'd', 'a', 't', 'a'], .placefs⟩, ⟨true, ['/', 's', 'y', 's', 'r', 'o', 'o', 't'], .placefs⟩]
  else []) ++
  [⟨true, ['/', 'p', 'r', 'o', 'c'], .procfs⟩]

/-- What the disk finds at a path. -/
structure Inode where
  ino : UInt32
  mode : UInt32
  size : Nat

/-- The operations of a file system on a disk, which this layer only calls. Those that look do not change it. -/
structure Disk (β : Type) where
  lookupPath : β → CString → Except Errno Inode
  readlinkPath : β → CString → Except Errno CString
  createFile : β → CString → β × Except Errno Inode
  truncateInode : β → UInt32 → Nat → β × Except Errno Unit
  writeInodeData : β → UInt32 → Nat → List UInt8 → β × Except Errno Nat
  createDir : β → CString → UInt32 → β × Except Errno Unit
  removePath : β → CString → β × Except Errno Unit
  createSymlink : β → CString → CString → β × Except Errno Unit
  renamePath : β → CString → CString → β × Except Errno Unit
  setTimes : β → UInt32 → Option Nat → Option Nat → β × Except Errno Unit

/-- The mounts with what their operations rest on: the archive, the devices, the processes and the disk, and how many calls fit on the stack of the kernel. -/
structure Kernel (β : Type) where
  initrdReady : Bool
  blkReady : Bool
  ext4Mounted : Bool
  stack : Nat
  initrdMode : CString → Except Errno UInt32
  devfsMode : CString → Except Errno UInt32
  devfsWrite : List UInt8 → Except Errno Nat
  procfsMode : CString → Except Errno UInt32
  procfsLink : CString → Except Errno CString
  disk : Disk β

/-- An open file; that of a bind mount refers to a handle. -/
structure VfsFile where
  mount : Mount
  nodeId : UInt32
  flags : UInt32
  pos : Nat
  cookie : Nat

/-- A handle of the bind mounts, with the file behind it once that is open. -/
structure BindfsHandle where
  inUse : Bool
  file : Option VfsFile

/-- The files of the disk, and the handles of the bind mounts. -/
structure State (β : Type) where
  files : β
  bindfsHandles : Nat → BindfsHandle

def State.setHandle {β : Type} (s : State β) (i : Nat) (handle : BindfsHandle) : State β :=
  { s with bindfsHandles := Function.update s.bindfsHandles i handle }

/-- The mount of a path that matches most of it. -/
def pathMatchesMount (path mountPath : CString) : Bool :=
  if mountPath = ['/'] then path.head? == some '/'
  else mountPath.isPrefixOf path && (path[mountPath.length]?.isNone || path[mountPath.length]? == some '/')

def betterMount (path : CString) (best : Option Mount) (mount : Mount) : Option Mount :=
  if pathMatchesMount path mount.path && best.all fun best => decide (best.path.length ≤ mount.path.length) then some mount
  else best

def findMount (mounts : List Mount) (path : CString) : Option Mount := mounts.foldl (betterMount path) none

def Mount.isBind (mount : Mount) : Bool :=
  match mount.driver with
  | .bindfs _ => true
  | _ => false

/-- The mount of a path without one of the mounts, and with it without all bind mounts. -/
def findMountExcluding (mounts : List Mount) (path : CString) (exclude : Mount) : Option Mount :=
  findMount (mounts.filter fun mount => mount ≠ exclude && !(exclude.isBind && mount.isBind)) path

def relpathFromMount (mount : Mount) (path : CString) : CString :=
  if mount.path = ['/'] then path
  else if path.drop mount.path.length = [] then ['/']
  else path.drop mount.path.length

def wantsWrite (flags : UInt32) : Bool :=
  flags &&& 3 == oWronly || flags &&& 3 == oRdwr || flags &&& (oCreat ||| oTrunc ||| oAppend) != 0

/-- A file that is open for writing. -/
def writable (flags : UInt32) : Bool := flags &&& 3 == oWronly || flags &&& 3 == oRdwr

def bindfsResolveBackend (base relpath : CString) : Except Errno CString :=
  if relpath = [] ∨ relpath = ['/'] then .ok (base.take (bindfsPathMax - 1)) else vfsPathJoin base relpath bindfsPathMax

/-- A path below a mount, for another one to be asked for it. -/
def shadowedPath (mount : Mount) (relpath : CString) : Except Errno CString := vfsPathJoin mount.path relpath bindfsPathMax

/-- An answer that has another mount asked for the path. -/
def isAbsent : Errno → Bool
  | .enoent | .enotdir => true
  | _ => false

def ext4InternalJournalPath (relpath : CString) : Bool :=
  skipSlashes relpath = ['.', 'e', 'n', 'l', 'i', 'l', '-', 'j', 'o', 'u', 'r', 'n', 'a', 'l']

section

variable {β : Type} (k : Kernel β)

def Kernel.mounts : List Mount := buildMountTable k.initrdReady k.blkReady k.ext4Mounted

/-- The mode of what a place holder has at a path: a directory, or its one file. -/
def placefsMode (relpath : CString) : Except Errno UInt32 :=
  if relpath = [] ∨ relpath = ['/'] then .ok 0x4124
  else if relpath = ['/', 'R', 'E', 'A', 'D', 'M', 'E', '.', 'T', 'X', 'T'] then .ok 0x8124
  else .error .enoent

/-- The mode of what a mount that is no bind mount has at a path; a link is not followed. -/
def plainLstat (files : β) (mount : Mount) (relpath : CString) : Except Errno UInt32 :=
  match mount.driver with
  | .initrd => k.initrdMode relpath
  | .placefs => placefsMode relpath
  | .devfs => k.devfsMode relpath
  | .procfs => k.procfsMode relpath
  | .ext4 => (k.disk.lookupPath files relpath).map (·.mode)
  | .bindfs _ => .error .enosys

/-- Where the link at a path of such a mount leads. -/
def plainReadlink (files : β) (mount : Mount) (relpath : CString) : Except Errno CString :=
  match mount.driver with
  | .procfs => k.procfsLink relpath
  | .ext4 => k.disk.readlinkPath files relpath
  | _ => .error (if mount.readonly then .einval else .enosys)

/-- Where the link at a path of another mount leads, if the path is not behind its own. -/
def shadowedReadlink (files : β) (mount : Mount) (relpath : CString) : Except Errno CString :=
  match mount.driver with
  | .procfs => k.procfsLink relpath
  | .ext4 => k.disk.readlinkPath files relpath
  | _ => .error .enoent

/-- What looking at paths gives. -/
structure Lookups where
  lstat : CString → Except Errno UInt32
  readlink : CString → Except Errno CString

/-- A path with its links followed, as the lookups see them. -/
def Lookups.resolve (looks : Lookups) (followFinal allowMissingFinal : Bool) (path : CString) : Except Errno CString :=
  vfsResolvePathFlags looks.lstat looks.readlink (k.mounts.map (·.path)) followFinal allowMissingFinal path

/-- Looks at a path behind a bind mount, and if nothing is there at the same path of another mount. -/
def bindfsLook {α : Type} (mount : Mount) (base relpath : CString) (behind : CString → Except Errno α)
    (shadowed : Mount → CString → Except Errno α) : Except Errno α := do
  let backend ← bindfsResolveBackend base relpath
  match behind backend with
  | .ok found => .ok found
  | .error error =>
    if isAbsent error then
      match shadowedPath mount relpath with
      | .error _ => .error error
      | .ok path =>
        match findMountExcluding k.mounts path mount with
        | none => .error .enoent
        | some other => shadowed other (relpathFromMount other path)
    else .error error

/-- Looks at a path that has no mount, is behind a bind mount, or is on another mount. -/
def onMount {α : Type} (path : CString) (missing : Errno) (bind : Mount → CString → CString → Except Errno α)
    (plain : Mount → CString → Except Errno α) : Except Errno α :=
  if path.head? ≠ some '/' then .error .enoent
  else
    match findMount k.mounts path with
    | none => .error missing
    | some mount =>
      match mount.driver with
      | .bindfs base => bind mount base (relpathFromMount mount path)
      | _ => plain mount (relpathFromMount mount path)

/-- Looks at paths, with room for so many calls on the stack. -/
def looks (files : β) : Nat → Lookups
  | 0 => ⟨fun _ => .error .stack, fun _ => .error .stack⟩
  | depth + 1 =>
    let behind := (looks files depth).resolve k false false
    { lstat := fun path =>
        onMount k path .enoent
          (fun mount base relpath =>
            bindfsLook k mount base relpath (fun backend => behind backend >>= (looks files depth).lstat) (plainLstat k files))
          (plainLstat k files)
      readlink := fun path =>
        onMount k path .enosys
          (fun mount base relpath =>
            bindfsLook k mount base relpath (fun backend => behind backend >>= (looks files depth).readlink)
              (shadowedReadlink k files))
          (plainReadlink k files) }

/-- A path with its links followed. -/
def resolve (files : β) (followFinal allowMissingFinal : Bool) (path : CString) : Except Errno CString :=
  (looks k files k.stack).resolve k followFinal allowMissingFinal path

end

end Enlil.Vfs
