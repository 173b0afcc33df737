import Enlil.Vfs.Mounts

/-! The calls of `kernel/vfs.c` that may change files, with the operations of each kind of mount. -/

namespace Enlil.Vfs

def vfsUtimensNofollow : UInt32 := 1
def bindfsNodeProxy : UInt32 := 1

section

variable {β : Type} (k : Kernel β)

/-- A file of the disk that is open. -/
def ext4File (mount : Mount) (inode : Inode) (flags : UInt32) : VfsFile :=
  ⟨mount, inode.ino, flags, if flags &&& oAppend ≠ 0 then inode.size else 0, inode.mode.toNat⟩

def ext4OpenVfs (s : State β) (mount : Mount) (relpath : CString) (flags : UInt32) : State β × Except Errno VfsFile :=
  if k.ext4Mounted = false then (s, .error .eio)
  else if ext4InternalJournalPath relpath then (s, .error .enoent)
  else
    match k.disk.lookupPath s.files relpath with
    | .error error =>
      if error = .enoent ∧ flags &&& oCreat ≠ 0 then
        match k.disk.createFile s.files relpath with
        | (files, made) => ({ s with files }, made.map fun inode => ext4File mount inode flags)
      else (s, .error error)
    | .ok inode =>
      if isDir inode.mode = true ∧ writable flags = true then (s, .error .eisdir)
      else if flags &&& oTrunc ≠ 0 then
        if writable flags = false then (s, .error .einval)
        else if isDir inode.mode = true then (s, .error .eisdir)
        else
          match k.disk.truncateInode s.files inode.ino 0 with
          | (files, done) => ({ s with files }, done.map fun _ => ext4File mount { inode with size := 0 } flags)
      else (s, .ok (ext4File mount inode flags))

/-- Opens a file of a mount that is no bind mount. -/
def plainOpen (s : State β) (mount : Mount) (relpath : CString) (flags : UInt32) : State β × Except Errno VfsFile :=
  match mount.driver with
  | .ext4 => ext4OpenVfs k s mount relpath flags
  | .initrd =>
    if wantsWrite flags then (s, .error .erofs)
    else (s, (k.initrdMode relpath).map fun _ => ⟨mount, 0, flags, 0, 0⟩)
  | .placefs =>
    if wantsWrite flags = true ∧ relpath ≠ [] ∧ relpath ≠ ['/'] then (s, .error .erofs)
    else (s, (placefsMode relpath).map fun _ => ⟨mount, 0, flags, 0, 0⟩)
  | .procfs =>
    if flags &&& (oWronly ||| oRdwr ||| oCreat ||| oTrunc) ≠ 0 then (s, .error .erofs)
    else (s, (k.procfsMode relpath).map fun _ => ⟨mount, 0, flags, 0, 0⟩)
  | .devfs => (s, (k.devfsMode relpath).map fun _ => ⟨mount, 0, flags, 0, 0⟩)
  | .bindfs _ => (s, .error .enosys)

def bindfsHandleAlloc (s : State β) : Option Nat :=
  (List.range bindfsHandleMax).find? fun i => !(s.bindfsHandles i).inUse

def bindfsHandleGet (s : State β) (cookie : Nat) : Option Nat :=
  if cookie = 0 ∨ bindfsHandleMax < cookie ∨ (s.bindfsHandles (cookie - 1)).inUse = false then none else some (cookie - 1)

/-- Opens the path on another mount, if it is absent behind a bind mount. -/
def vfsOpenShadowed (s : State β) (mount : Mount) (relpath : CString) (flags : UInt32) (error : Errno) :
    State β × Except Errno VfsFile :=
  match shadowedPath mount relpath with
  | .error _ => (s, .error error)
  | .ok path =>
    match findMountExcluding k.mounts path mount with
    | none => (s, .error .enoent)
    | some other => plainOpen k s other (relpathFromMount other path) flags

/-- Asks another mount if what was opened behind a bind mount is absent. -/
def orShadowed (mount : Mount) (relpath : CString) (flags : UInt32) :
    State β × Except Errno VfsFile → State β × Except Errno VfsFile
  | (s, .ok file) => (s, .ok file)
  | (s, .error error) => if isAbsent error then vfsOpenShadowed k s mount relpath flags error else (s, .error error)

/-- Keeps the file behind a bind mount in its handle. -/
def bindfsBind (mount : Mount) (flags : UInt32) (i : Nat) : State β × Except Errno VfsFile → State β × Except Errno VfsFile
  | (s, .error error) => (s.setHandle i ⟨false, none⟩, .error error)
  | (s, .ok file) => (s.setHandle i ⟨true, some file⟩, .ok ⟨mount, bindfsNodeProxy, flags, 0, i + 1⟩)

/-- Opens a file of a bind mount, by opening a path elsewhere. -/
def bindfsOpen (openPath : State β → CString → UInt32 → State β × Except Errno VfsFile) (s : State β) (mount : Mount)
    (base relpath : CString) (flags : UInt32) : State β × Except Errno VfsFile :=
  match bindfsResolveBackend base relpath with
  | .error error => (s, .error error)
  | .ok backend =>
    match bindfsHandleAlloc s with
    | none => (s, .error .enfile)
    | some i =>
      bindfsBind mount flags i (orShadowed k mount relpath flags (openPath (s.setHandle i ⟨true, none⟩) backend flags))

def vfsOpen : Nat → State β → CString → UInt32 → State β × Except Errno VfsFile
  | 0, s, _, _ => (s, .error .stack)
  | depth + 1, s, path, flags =>
    match (looks k s.files (depth + 1)).resolve k true (flags &&& oCreat ≠ 0) path with
    | .error error => (s, .error error)
    | .ok resolved =>
      match findMount k.mounts resolved with
      | none => (s, .error .enoent)
      | some mount =>
        match mount.driver with
        | .bindfs base => bindfsOpen k (vfsOpen depth) s mount base (relpathFromMount mount resolved) flags
        | _ => plainOpen k s mount (relpathFromMount mount resolved) flags

def ext4WriteVfs (s : State β) (file : VfsFile) (data : List UInt8) (size : Nat) : State β × VfsFile × Except Errno Nat :=
  if writable file.flags = false then (s, file, .error .ebadf)
  else
    let pos := if file.flags &&& oAppend ≠ 0 then size else file.pos
    match k.disk.writeInodeData s.files file.nodeId pos data with
    | (files, .ok written) => ({ s with files }, { file with pos := pos + written }, .ok written)
    | (files, .error error) => ({ s with files }, file, .error error)

/-- Writes to an open file; a file that is appended to has this size. -/
def vfsWrite : Nat → State β → VfsFile → List UInt8 → Nat → State β × VfsFile × Except Errno Nat
  | 0, s, file, _, _ => (s, file, .error .stack)
  | depth + 1, s, file, data, size =>
    match file.mount.driver with
    | .ext4 => ext4WriteVfs k s file data size
    | .bindfs _ =>
      match bindfsHandleGet s file.cookie with
      | none => (s, file, .error .ebadf)
      | some i =>
        match (s.bindfsHandles i).file with
        | none => (s, file, .error .ebadf)
        | some inner =>
          match vfsWrite depth s { inner with pos := file.pos } data size with
          | (s, inner, result) => (s.setHandle i ⟨true, some inner⟩, { file with pos := inner.pos }, result)
    | .devfs => (s, file, k.devfsWrite data)
    | _ => (s, file, .error .erofs)

/-- Closes an open file, and with one of a bind mount its handle and the file behind it. -/
def vfsClose : Nat → State β → VfsFile → State β
  | 0, s, _ => s
  | depth + 1, s, file =>
    match file.mount.driver with
    | .bindfs _ =>
      match bindfsHandleGet s file.cookie with
      | none => s
      | some i =>
        match (s.bindfsHandles i).file with
        | none => s.setHandle i ⟨false, none⟩
        | some inner => (vfsClose depth s inner).setHandle i ⟨false, none⟩
    | _ => s

/-- The calls that change what is at one path. -/
inductive PathCall where
  | mkdir (mode : UInt32)
  | unlink
  | symlink (target : CString)
  | truncate (size : Nat)

/-- Whether a link at the end of the path is followed. -/
def PathCall.followFinal : PathCall → Bool
  | .truncate _ => true
  | _ => false

/-- Whether nothing needs to be at the path. -/
def PathCall.allowMissing : PathCall → Bool
  | .mkdir _ | .symlink _ => true
  | _ => false

/-- What such a call does on the disk. -/
def PathCall.onDisk (files : β) (relpath : CString) : PathCall → β × Except Errno Unit
  | .mkdir mode => k.disk.createDir files relpath mode
  | .unlink => k.disk.removePath files relpath
  | .symlink target => k.disk.createSymlink files relpath target
  | .truncate size =>
    match k.disk.lookupPath files relpath with
    | .error error => (files, .error error)
    | .ok inode => if isDir inode.mode then (files, .error .eisdir) else k.disk.truncateInode files inode.ino size

/-- The answer of a mount that has no such operation. -/
def unsupported (mount : Mount) : Errno := if mount.readonly then .erofs else .enosys

def pathCall (call : PathCall) : Nat → State β → CString → State β × Except Errno Unit
  | 0, s, _ => (s, .error .stack)
  | depth + 1, s, path =>
    match (looks k s.files (depth + 1)).resolve k call.followFinal call.allowMissing path with
    | .error error => (s, .error error)
    | .ok resolved =>
      match findMount k.mounts resolved with
      | none => (s, .error .enosys)
      | some mount =>
        match mount.driver with
        | .bindfs base =>
          match bindfsResolveBackend base (relpathFromMount mount resolved) with
          | .error error => (s, .error error)
          | .ok backend => pathCall call depth s backend
        | .ext4 =>
          if ext4InternalJournalPath (relpathFromMount mount resolved) then (s, .error .erofs)
          else
            match call.onDisk k s.files (relpathFromMount mount resolved) with
            | (files, result) => ({ s with files }, result)
        | _ => (s, .error (unsupported mount))

def vfsMkdir (depth : Nat) (s : State β) (path : CString) (mode : UInt32) : State β × Except Errno Unit :=
  pathCall k (.mkdir mode) depth s path

def vfsUnlink (depth : Nat) (s : State β) (path : CString) : State β × Except Errno Unit := pathCall k .unlink depth s path

def vfsSymlink (depth : Nat) (s : State β) (target path : CString) : State β × Except Errno Unit :=
  pathCall k (.symlink target) depth s path

def vfsTruncate (depth : Nat) (s : State β) (path : CString) (size : Nat) : State β × Except Errno Unit :=
  pathCall k (.truncate size) depth s path

def vfsRename : Nat → State β → CString → CString → State β × Except Errno Unit
  | 0, s, _, _ => (s, .error .stack)
  | depth + 1, s, oldPath, newPath =>
    match (looks k s.files (depth + 1)).resolve k false false oldPath with
    | .error error => (s, .error error)
    | .ok oldResolved =>
      match (looks k s.files (depth + 1)).resolve k false true newPath with
      | .error error => (s, .error error)
      | .ok newResolved =>
        match findMount k.mounts oldResolved, findMount k.mounts newResolved with
        | some mount, some newMount =>
          if mount ≠ newMount then (s, .error .exdev)
          else
            match mount.driver with
            | .bindfs base =>
              match bindfsResolveBackend base (relpathFromMount mount oldResolved),
                bindfsResolveBackend base (relpathFromMount mount newResolved) with
              | .error error, _ | .ok _, .error error => (s, .error error)
              | .ok oldBackend, .ok newBackend => vfsRename depth s oldBackend newBackend
            | .ext4 =>
              if ext4InternalJournalPath (relpathFromMount mount oldResolved) = true ∨
                  ext4InternalJournalPath (relpathFromMount mount newResolved) = true then (s, .error .erofs)
              else
                match k.disk.renamePath s.files (relpathFromMount mount oldResolved) (relpathFromMount mount newResolved) with
                | (files, result) => ({ s with files }, result)
            | _ => (s, .error (unsupported mount))
        | _, _ => (s, .error .enoent)

/-- The times of a file are set; what is given for them comes to none, one or both, or is no time. -/
def ext4UtimensVfs (s : State β) (relpath : CString) (times : Except Errno (Option Nat × Option Nat)) :
    State β × Except Errno Unit :=
  if ext4InternalJournalPath relpath then (s, .error .erofs)
  else
    match k.disk.lookupPath s.files relpath with
    | .error error => (s, .error error)
    | .ok inode =>
      match times with
      | .error error => (s, .error error)
      | .ok (none, none) => (s, .ok ())
      | .ok (atime, mtime) =>
        match k.disk.setTimes s.files inode.ino atime mtime with
        | (files, result) => ({ s with files }, result)

/-- Sets the times of a path on another mount, if it is absent behind a bind mount. -/
def vfsUtimensShadowed (s : State β) (mount : Mount) (relpath : CString) (times : Except Errno (Option Nat × Option Nat))
    (error : Errno) : State β × Except Errno Unit :=
  match shadowedPath mount relpath with
  | .error _ => (s, .error error)
  | .ok path =>
    match findMountExcluding k.mounts path mount with
    | none => (s, .error .enoent)
    | some other =>
      if other.readonly then (s, .error .erofs)
      else
        match other.driver with
        | .ext4 => ext4UtimensVfs k s (relpathFromMount other path) times
        | _ => (s, .error .enosys)

def vfsUtimens : Nat → State β → CString → Except Errno (Option Nat × Option Nat) → UInt32 → State β × Except Errno Unit
  | 0, s, _, _, _ => (s, .error .stack)
  | depth + 1, s, path, times, flags =>
    if flags &&& ~~~vfsUtimensNofollow ≠ 0 then (s, .error .einval)
    else
      match (looks k s.files (depth + 1)).resolve k (flags &&& vfsUtimensNofollow = 0) false path with
      | .error error => (s, .error error)
      | .ok resolved =>
        match findMount k.mounts resolved with
        | none => (s, .error .enoent)
        | some mount =>
          -- Only here a mount is asked first whether it may be changed.
          if mount.readonly then (s, .error .erofs)
          else
            match mount.driver with
            | .bindfs base =>
              match bindfsResolveBackend base (relpathFromMount mount resolved) with
              | .error error => (s, .error error)
              | .ok backend =>
                match vfsUtimens depth s backend times flags with
                | (s, .ok ()) => (s, .ok ())
                | (s, .error error) =>
                  if isAbsent error then vfsUtimensShadowed k s mount (relpathFromMount mount resolved) times error
                  else (s, .error error)
            | .ext4 => ext4UtimensVfs k s (relpathFromMount mount resolved) times
            | _ => (s, .error .enosys)

end

end Enlil.Vfs
