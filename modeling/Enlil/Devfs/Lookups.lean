import Enlil.Devfs.Pairs

/-! How the calls of `kernel/vfs.c` that look at a path come to ask for device files. -/

namespace Enlil.Devfs

open Vfs (CString Errno Kernel Mount component afterComponent vfsPathMax vfsSymlinkMax skipSlashes vfsPathPopLast
  vfsPathAppendComponent vfsJoinSymlinkTarget vfsHasMountDescendant isLink isDir isAbsent findMount findMountExcluding
  relpathFromMount bindfsResolveBackend shadowedPath ext4InternalJournalPath)

/-- A call that asks for the modes of device files, by their paths below the mount. -/
abbrev Look (α : Type) := Asks CString (Except Errno UInt32) (Except Errno α)

/-- Goes on unless there was an error. -/
def Look.thenLook {α β : Type} (first : Look α) (rest : α → Look β) : Look β :=
  first.bind fun
    | .error error => .done (.error error)
    | .ok value => rest value

section

variable (lstat : CString → Look UInt32) (readlink : CString → Look CString) (mounts : List CString)
  (followFinal allowMissingFinal : Bool)

/-- Goes through the components of a path that are left; a link that is followed starts again with another path, unless too many were followed. -/
def walk (restart : Except Errno (CString → Look CString)) : Nat → CString → CString → Look CString
  | 0, _, resolved => .done (.ok resolved)
  | left + 1, pending, resolved =>
    if pending = [] then .done (.ok resolved)
    else if component pending = ['.'] then walk restart left (afterComponent pending) resolved
    else if component pending = ['.', '.'] then walk restart left (afterComponent pending) (vfsPathPopLast resolved)
    else
      match vfsPathAppendComponent resolved (component pending) vfsPathMax with
      | .error error => .done (.error error)
      | .ok resolved =>
        (lstat resolved).bind fun
        | .error error =>
          if error = .enoent ∧ afterComponent pending ≠ [] ∧ vfsHasMountDescendant mounts resolved = true then
            walk restart left (afterComponent pending) resolved
          else if error = .enoent ∧ afterComponent pending = [] ∧ allowMissingFinal = true then .done (.ok resolved)
          else .done (.error error)
        | .ok mode =>
          if isLink mode = true ∧ (afterComponent pending ≠ [] ∨ followFinal = true) then
            (readlink resolved).thenLook fun target =>
              match restart with
              | .error error => .done (.error error)
              | .ok again =>
                match vfsJoinSymlinkTarget resolved target (afterComponent pending) vfsPathMax with
                | .error error => .done (.error error)
                | .ok merged => again merged
          else if afterComponent pending ≠ [] ∧ isDir mode = false then .done (.error .enotdir)
          else walk restart left (afterComponent pending) resolved

/-- Goes through a path from its start, and may follow so many links. -/
def walkFrom : Nat → CString → Look CString
  | 0, pending =>
    walk lstat readlink mounts followFinal allowMissingFinal (.error .eloop) pending.length (skipSlashes pending) ['/']
  | links + 1, pending =>
    walk lstat readlink mounts followFinal allowMissingFinal (.ok (walkFrom links)) pending.length (skipSlashes pending) ['/']

def vfsResolvePathFlags (path : CString) : Look CString :=
  if path.head? ≠ some '/' then .done (.error .enoent)
  else if vfsPathMax < path.length + 1 then .done (.error .enametoolong)
  else walkFrom lstat readlink mounts followFinal allowMissingFinal vfsSymlinkMax path

end

section

variable {β : Type} (k : Kernel β)

/-- What looking at paths asks for. -/
structure Looks where
  lstat : CString → Look UInt32
  readlink : CString → Look CString

def Looks.resolve (looks : Looks) (followFinal allowMissingFinal : Bool) (path : CString) : Look CString :=
  vfsResolvePathFlags looks.lstat looks.readlink (k.mounts.map (·.path)) followFinal allowMissingFinal path

/-- The mode of what a mount that is no bind mount has at a path: only device files have to be opened for it. -/
def plainLstat (files : β) (mount : Mount) (relpath : CString) : Look UInt32 :=
  match mount.driver with
  | .devfs => .ask relpath .done
  | _ => .done (Vfs.plainLstat k files mount relpath)

/-- Looks at a path behind a bind mount, and if nothing is there at the same path of another mount. -/
def bindfsLook {α : Type} (mount : Mount) (base relpath : CString) (behind : CString → Look α)
    (shadowed : Mount → CString → Look α) : Look α :=
  match bindfsResolveBackend base relpath with
  | .error error => .done (.error error)
  | .ok backend =>
    (behind backend).bind fun
    | .ok found => .done (.ok found)
    | .error error =>
      if isAbsent error then
        match shadowedPath mount relpath with
        | .error _ => .done (.error error)
        | .ok path =>
          match findMountExcluding k.mounts path mount with
          | none => .done (.error .enoent)
          | some other => shadowed other (relpathFromMount other path)
      else .done (.error error)

/-- Looks at a path that has no mount, is behind a bind mount, or is on another mount. -/
def onMount {α : Type} (path : CString) (missing : Errno) (bind : Mount → CString → CString → Look α)
    (plain : Mount → CString → Look α) : Look α :=
  if path.head? ≠ some '/' then .done (.error .enoent)
  else
    match findMount k.mounts path with
    | none => .done (.error missing)
    | some mount =>
      match mount.driver with
      | .bindfs base => bind mount base (relpathFromMount mount path)
      | _ => plain mount (relpathFromMount mount path)

/-- Looks at paths, with room for so many calls on the stack. -/
def looks (files : β) : Nat → Looks
  | 0 => ⟨fun _ => .done (.error .stack), fun _ => .done (.error .stack)⟩
  | depth + 1 =>
    let behind := (looks files depth).resolve k false false
    { lstat := fun path =>
        onMount k path .enoent
          (fun mount base relpath =>
            bindfsLook k mount base relpath (fun backend => (behind backend).thenLook (looks files depth).lstat)
              (plainLstat k files))
          (plainLstat k files)
      readlink := fun path =>
        onMount k path .enosys
          (fun mount base relpath =>
            bindfsLook k mount base relpath (fun backend => (behind backend).thenLook (looks files depth).readlink)
              fun mount relpath => .done (Vfs.shadowedReadlink k files mount relpath))
          fun mount relpath => .done (Vfs.plainReadlink k files mount relpath) }

/-- The mode of what is opened on a mount that is no bind mount, for it to be closed again. -/
def plainStat (files : β) (mount : Mount) (relpath : CString) : Look UInt32 :=
  match mount.driver with
  | .ext4 =>
    if k.ext4Mounted = false then .done (.error .eio)
    else if ext4InternalJournalPath relpath then .done (.error .enoent)
    else plainLstat k files mount relpath
  | _ => plainLstat k files mount relpath

/-- Opens a path, asks for its mode and closes it, with so many handles of the bind mounts free. -/
def openAndStat (files : β) : Nat → Nat → CString → Look UInt32
  | 0, _, _ => .done (.error .stack)
  | depth + 1, free, path =>
    ((looks k files (depth + 1)).resolve k true false path).thenLook fun resolved =>
      match findMount k.mounts resolved with
      | none => .done (.error .enoent)
      | some mount =>
        match mount.driver with
        | .bindfs base =>
          bindfsLook k mount base (relpathFromMount mount resolved)
            (fun backend => if free = 0 then .done (.error .enfile) else openAndStat files depth (free - 1) backend)
            (plainStat k files)
        | _ => plainStat k files mount (relpathFromMount mount resolved)

/-- The ways to look at a path. -/
inductive Lookup where
  | resolve (followFinal allowMissingFinal : Bool) (path : CString)
  | lstat (path : CString)
  | readlink (path : CString)
  | stat (free : Nat) (path : CString)

/-- What a lookup gives. -/
inductive Found where
  | path (path : CString)
  | mode (mode : UInt32)

/-- What a lookup asks for. -/
def Lookup.look (files : β) : Lookup → Look Found
  | .resolve followFinal allowMissingFinal path =>
    ((looks k files k.stack).resolve k followFinal allowMissingFinal path).thenLook fun path => .done (.ok (.path path))
  | .lstat path =>
    ((looks k files k.stack).resolve k false false path).thenLook fun path =>
      ((looks k files k.stack).lstat path).thenLook fun mode => .done (.ok (.mode mode))
  | .readlink path =>
    ((looks k files k.stack).resolve k false false path).thenLook fun path =>
      ((looks k files k.stack).readlink path).thenLook fun path => .done (.ok (.path path))
  | .stat free path => (openAndStat k files k.stack free path).thenLook fun mode => .done (.ok (.mode mode))

end

section

variable {α β : Type} (answers : CString → Except Errno UInt32) {k : Kernel β} {files : β}

theorem thenLook_result (first : Look α) (rest : α → Look β) :
    (first.thenLook rest).result answers = first.result answers >>= fun value => (rest value).result answers := by
  unfold Look.thenLook
  rw [Asks.result_bind]
  cases first.result answers <;> rfl

theorem walk_result (lstat : CString → Look UInt32) (readlink : CString → Look CString) (mounts : List CString)
    (followFinal allowMissingFinal : Bool) (restart : Except Errno (CString → Look CString)) (left : Nat) :
    ∀ pending resolved, (walk lstat readlink mounts followFinal allowMissingFinal restart left pending resolved).result answers =
      Vfs.walk (fun path => (lstat path).result answers) (fun path => (readlink path).result answers) mounts followFinal
        allowMissingFinal (restart.map fun again path => (again path).result answers) left pending resolved := by
  induction left with
  | zero => exact fun _ _ => rfl
  | succ left ih =>
    intro pending resolved
    unfold walk Vfs.walk
    split
    · rfl
    split
    · exact ih _ _
    split
    · exact ih _ _
    cases Vfs.vfsPathAppendComponent resolved (Vfs.component pending) Vfs.vfsPathMax with
    | error error => rfl
    | ok resolved =>
      dsimp only
      rw [Asks.result_bind]
      cases (lstat resolved).result answers with
      | error error =>
        dsimp only
        split
        · exact ih _ _
        split <;> rfl
      | ok mode =>
        dsimp only
        split
        · rw [thenLook_result]
          refine congrArg ((readlink resolved).result answers >>= ·) (funext fun target => ?_)
          cases restart with
          | error error => rfl
          | ok again =>
            show _ = (Vfs.vfsJoinSymlinkTarget resolved target (Vfs.afterComponent pending) Vfs.vfsPathMax >>= fun merged =>
              (again merged).result answers)
            cases Vfs.vfsJoinSymlinkTarget resolved target (Vfs.afterComponent pending) Vfs.vfsPathMax <;> rfl
        split
        · rfl
        · exact ih _ _

theorem walkFrom_result (lstat : CString → Look UInt32) (readlink : CString → Look CString) (mounts : List CString)
    (followFinal allowMissingFinal : Bool) (links : Nat) :
    ∀ path, (walkFrom lstat readlink mounts followFinal allowMissingFinal links path).result answers =
      Vfs.walkFrom (fun path => (lstat path).result answers) (fun path => (readlink path).result answers) mounts followFinal
        allowMissingFinal links path := by
  induction links with
  | zero => exact fun path => walk_result answers _ _ _ _ _ _ _ _ _
  | succ links ih =>
    intro path
    unfold walkFrom Vfs.walkFrom
    rw [walk_result]
    show Vfs.walk _ _ _ _ _ (.ok fun path => (walkFrom lstat readlink mounts followFinal allowMissingFinal links path).result answers)
      _ _ _ = _
    rw [funext ih]

theorem resolve_result (looks : Looks) (followFinal allowMissingFinal : Bool) (path : CString) :
    (looks.resolve k followFinal allowMissingFinal path).result answers =
      (Vfs.Lookups.mk (fun path => (looks.lstat path).result answers)
        fun path => (looks.readlink path).result answers).resolve k followFinal allowMissingFinal path := by
  unfold Looks.resolve Vfs.Lookups.resolve vfsResolvePathFlags Vfs.vfsResolvePathFlags
  split
  · rfl
  split
  · rfl
  · exact walkFrom_result answers _ _ _ _ _ _ path

theorem onMount_result (path : CString) (missing : Errno) (bind : Mount → CString → CString → Look α)
    (plain : Mount → CString → Look α) :
    (onMount k path missing bind plain).result answers =
      Vfs.onMount k path missing (fun mount base relpath => (bind mount base relpath).result answers)
        fun mount relpath => (plain mount relpath).result answers := by
  unfold onMount Vfs.onMount
  split
  · rfl
  cases Vfs.findMount k.mounts path with
  | none => rfl
  | some mount =>
    dsimp only
    cases mount.driver <;> rfl

theorem bindfsLook_result (mount : Mount) (base relpath : CString) (behind : CString → Look α)
    (shadowed : Mount → CString → Look α) :
    (bindfsLook k mount base relpath behind shadowed).result answers =
      Vfs.bindfsLook k mount base relpath (fun backend => (behind backend).result answers)
        fun mount relpath => (shadowed mount relpath).result answers := by
  unfold bindfsLook Vfs.bindfsLook
  cases Vfs.bindfsResolveBackend base relpath with
  | error error => rfl
  | ok backend =>
    dsimp only
    rw [Asks.result_bind]
    simp only [bind, Except.bind]
    cases (behind backend).result answers with
    | ok found => rfl
    | error error =>
      dsimp only
      split
      · cases Vfs.shadowedPath mount relpath with
        | error => rfl
        | ok path =>
          dsimp only
          cases Vfs.findMountExcluding k.mounts path mount <;> rfl
      · rfl

theorem plainLstat_result (mount : Mount) (relpath : CString) :
    (plainLstat k files mount relpath).result k.devfsMode = Vfs.plainLstat k files mount relpath := by
  unfold plainLstat
  cases driver : mount.driver <;> simp only [Asks.result_done]
  show k.devfsMode relpath = _
  unfold Vfs.plainLstat
  rw [driver]

theorem looks_result (depth : Nat) :
    (Vfs.Lookups.mk (fun path => ((looks k files depth).lstat path).result k.devfsMode)
      fun path => ((looks k files depth).readlink path).result k.devfsMode) = Vfs.looks k files depth := by
  induction depth with
  | zero => rfl
  | succ depth ih =>
    have behind (path : CString) : ((looks k files depth).resolve k false false path).result k.devfsMode =
        (Vfs.looks k files depth).resolve k false false path := by rw [resolve_result, ih]
    unfold looks Vfs.looks
    dsimp only
    simp only [onMount_result, bindfsLook_result, thenLook_result, behind, plainLstat_result, ← ih]
    rfl

end

end Enlil.Devfs
