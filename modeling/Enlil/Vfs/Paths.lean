import Mathlib

/-! Paths of `kernel/vfs.c`, and how the links of a path are followed. -/

namespace Enlil.Vfs

/-- The bytes of a C string before its end. -/
abbrev CString := List Char

def vfsPathMax : Nat := 256
def vfsSymlinkMax : Nat := 16

inductive Errno where
  | enoent
  | eio
  | ebadf
  | enomem
  | exdev
  | enotdir
  | eisdir
  | einval
  | enfile
  | erofs
  | enosys
  | enametoolong
  | eloop
  /-- The call goes in circles until the stack of the kernel is used up, and does not return. -/
  | stack
  deriving DecidableEq, Repr

def sIfmt : UInt32 := 0xF000
def sIfdir : UInt32 := 0x4000
def sIflnk : UInt32 := 0xA000

def isDir (mode : UInt32) : Bool := mode &&& sIfmt == sIfdir
def isLink (mode : UInt32) : Bool := mode &&& sIfmt == sIflnk

/-- A path without the slashes at its start. -/
def skipSlashes (path : CString) : CString := path.dropWhile (· == '/')

/-- The first component of a path that does not start with a slash. -/
def component (path : CString) : CString := path.takeWhile (· != '/')

/-- What follows the first component and its slashes. -/
def afterComponent (path : CString) : CString := skipSlashes (path.dropWhile (· != '/'))

/-- A path below a base. -/
def vfsPathJoin (base rel : CString) (cap : Nat) : Except Errno CString :=
  if cap < 2 ∨ base = [] then .error .einval
  else if base ≠ ['/'] ∧ cap < base.length + 1 then .error .enametoolong
  else if skipSlashes rel = [] then .ok base
  else if base ≠ ['/'] ∧ cap ≤ base.length + 1 then .error .enametoolong
  else if cap ≤ (if base.getLast? = some '/' then base else base ++ ['/']).length + (skipSlashes rel).length then
    .error .enametoolong
  else .ok ((if base.getLast? = some '/' then base else base ++ ['/']) ++ skipSlashes rel)

/-- A path without its last component. -/
def vfsPathPopLast (path : CString) : CString :=
  if path.head? ≠ some '/' then path
  else if ((path.reverse.dropWhile (· == '/')).dropWhile (· != '/')).length ≤ 1 then ['/']
  else ((path.reverse.dropWhile (· == '/')).dropWhile (· != '/')).tail.reverse

/-- A path with one more component. -/
def vfsPathAppendComponent (path comp : CString) (cap : Nat) : Except Errno CString :=
  if comp = [] ∨ cap < 2 then .error .einval
  else if path.head? ≠ some '/' then .error .einval
  else if path ≠ ['/'] ∧ cap ≤ path.length + 1 then .error .enametoolong
  else if cap < (if path = ['/'] then path else path ++ ['/']).length + comp.length + 1 then .error .enametoolong
  else .ok ((if path = ['/'] then path else path ++ ['/']) ++ comp)

def vfsPathDirname (path : CString) (cap : Nat) : Except Errno CString :=
  if cap < 2 then .error .einval
  else if cap < path.length + 1 then .error .enametoolong
  else .ok (vfsPathPopLast path)

/-- Where a link leads, with what is left of the path behind it. -/
def vfsJoinSymlinkTarget (linkPath target remaining : CString) (cap : Nat) : Except Errno CString := do
  let base ←
    if target.head? = some '/' then
      if vfsPathMax < target.length + 1 then .error .enametoolong else .ok target
    else vfsPathDirname linkPath vfsPathMax >>= fun dir => vfsPathJoin dir target vfsPathMax
  if remaining = [] then if cap < base.length + 1 then .error .enametoolong else .ok base
  else vfsPathJoin base remaining cap

/-- Some mount lies below a path. -/
def vfsHasMountDescendant (mounts : List CString) (path : CString) : Bool :=
  path.head? == some '/' && mounts.any fun mount =>
    if path = ['/'] then mount != ['/'] else path.isPrefixOf mount && mount[path.length]? == some '/'

section

variable (lstat : CString → Except Errno UInt32) (readlink : CString → Except Errno CString) (mounts : List CString)
  (followFinal allowMissingFinal : Bool)

/-- Goes through the components of a path that are left; a link that is followed starts again with another path, unless too many were followed. -/
def walk (restart : Except Errno (CString → Except Errno CString)) : Nat → CString → CString → Except Errno CString
  | 0, _, resolved => .ok resolved
  | left + 1, pending, resolved =>
    if pending = [] then .ok resolved
    else if component pending = ['.'] then walk restart left (afterComponent pending) resolved
    else if component pending = ['.', '.'] then walk restart left (afterComponent pending) (vfsPathPopLast resolved)
    else
      match vfsPathAppendComponent resolved (component pending) vfsPathMax with
      | .error error => .error error
      | .ok resolved =>
        match lstat resolved with
        | .error error =>
          if error = .enoent ∧ afterComponent pending ≠ [] ∧ vfsHasMountDescendant mounts resolved = true then
            walk restart left (afterComponent pending) resolved
          else if error = .enoent ∧ afterComponent pending = [] ∧ allowMissingFinal = true then .ok resolved
          else .error error
        | .ok mode =>
          if isLink mode = true ∧ (afterComponent pending ≠ [] ∨ followFinal = true) then do
            let target ← readlink resolved
            let again ← restart
            let merged ← vfsJoinSymlinkTarget resolved target (afterComponent pending) vfsPathMax
            again merged
          else if afterComponent pending ≠ [] ∧ isDir mode = false then .error .enotdir
          else walk restart left (afterComponent pending) resolved

/-- Goes through a path from its start, and may follow so many links. -/
def walkFrom : Nat → CString → Except Errno CString
  | 0, pending =>
    walk lstat readlink mounts followFinal allowMissingFinal (.error .eloop) pending.length (skipSlashes pending) ['/']
  | links + 1, pending =>
    walk lstat readlink mounts followFinal allowMissingFinal (.ok (walkFrom links)) pending.length (skipSlashes pending) ['/']

/-- A path with its links followed. -/
def vfsResolvePathFlags (path : CString) : Except Errno CString :=
  if path.head? ≠ some '/' then .error .enoent
  else if vfsPathMax < path.length + 1 then .error .enametoolong
  else walkFrom lstat readlink mounts followFinal allowMissingFinal vfsSymlinkMax path

end

end Enlil.Vfs
