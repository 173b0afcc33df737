import Enlil.Fd.Epoll

/-! Open file objects of `kernel/syscall.c`, the descriptor tables that refer to them, and the calls that change these. -/

namespace Enlil.Fd

def schedMaxTasks : Nat := 96
def fdObjectMax : Nat := schedMaxTasks * maxFd
def pipePoolMax : Nat := 32
def pipeBufSize : Nat := 4096

def oRdonly : UInt16 := 0
def oWronly : UInt16 := 1
def oNonblock : UInt16 := 0x800

inductive FdType where
  | free
  | vfs
  | vfsd
  | pipe
  | sock
  | epoll
  deriving DecidableEq, Repr

inductive PipeEnd where
  | read
  | write
  deriving DecidableEq, Repr

/-- An open file of the file system: its mount, its node, and which of all opens it comes from. -/
structure VfsFile where
  mount : Nat
  nodeId : UInt32
  opened : Nat
  deriving DecidableEq

structure FdObject where
  inUse : Bool
  type : FdType
  pipeEnd : PipeEnd
  flags : UInt16
  refcount : Nat
  remoteHandle : UInt32
  /-- The place of the pipe or the set of the object in its pool. -/
  pipe : Nat
  file : Option VfsFile
  /-- The number of the object among all objects made; the source does not have it. -/
  birth : Nat

/-- An object after it was cleared. -/
def FdObject.zero : FdObject := ⟨false, .free, .read, 0, 0, 0, 0, none, 0⟩

structure FdEntry where
  obj : Option Nat
  cloexec : Bool

/-- An entry after it was cleared. -/
def FdEntry.zero : FdEntry := ⟨none, false⟩

structure Pipe where
  inUse : Bool
  readers : Nat
  writers : Nat
  readPos : Nat
  writePos : Nat
  size : Nat
  buf : Nat → UInt8
  /-- The number of objects made before the pipe, which tells it from all others; the source does not have it. -/
  birth : Nat

/-- A pipe after it was cleared. -/
def Pipe.zero : Pipe := ⟨false, 0, 0, 0, 0, 0, fun _ => 0, 0⟩

/-- A pipe that has just been made. -/
def Pipe.new (birth : Nat) : Pipe := { Pipe.zero with inUse := true, readers := 1, writers := 1, birth }

/-- The descriptors of all processes, and what they refer to. -/
structure Fds where
  fdTables : Nat → Nat → FdEntry
  fdObjects : Nat → FdObject
  pipePool : Nat → Pipe
  epollPool : Nat → EpollSet
  /-- The process and the set of a task that waits in a set. -/
  epollWaits : Nat → Option (Nat × Nat)
  /-- How many objects have been made, and those whose last reference was dropped, with their places; the source has neither. -/
  born : Nat
  released : List (Nat × FdObject)

def Fds.setObject (s : Fds) (o : Nat) (obj : FdObject) : Fds :=
  { s with fdObjects := Function.update s.fdObjects o obj }

def Fds.setEntry (s : Fds) (idx fd : Nat) (entry : FdEntry) : Fds :=
  { s with fdTables := Function.update s.fdTables idx (Function.update (s.fdTables idx) fd entry) }

def Fds.setPipe (s : Fds) (place : Nat) (pipe : Pipe) : Fds :=
  { s with pipePool := Function.update s.pipePool place pipe }

def Fds.setWait (s : Fds) (task : Nat) (wait : Option (Nat × Nat)) : Fds :=
  { s with epollWaits := Function.update s.epollWaits task wait }

/-- No task of a process waits in a set. -/
def Fds.endWaits (s : Fds) (idx : Nat) : Fds :=
  { s with epollWaits := fun task => if (s.epollWaits task).any fun wait => wait.1 == idx then none else s.epollWaits task }

def Fds.setSet (s : Fds) (place : Nat) (set : EpollSet) : Fds :=
  { s with epollPool := Function.update s.epollPool place set }

/-- An object is noted as released. -/
def Fds.logRelease (s : Fds) (o : Nat) (obj : FdObject) : Fds := { s with released := s.released ++ [(o, obj)] }

/-- An object is made at a free place. -/
def Fds.makeObject (s : Fds) (o : Nat) (obj : FdObject) : Fds :=
  { s with fdObjects := Function.update s.fdObjects o { obj with inUse := true, birth := s.born }, born := s.born + 1 }

/-- The first object of the pool that is free. -/
def fdObjectAlloc (s : Fds) : Option Nat := (List.range fdObjectMax).find? fun o => !(s.fdObjects o).inUse

def fdPipeAlloc (s : Fds) : Option Nat := (List.range pipePoolMax).find? fun place => !(s.pipePool place).inUse

/-- The first free descriptor from a start on. -/
def fdAllocFrom (s : Fds) (idx start : Nat) : Option Nat :=
  (List.range maxFd).find? fun fd => start ≤ fd && (s.fdTables idx fd).obj.isNone

/-- The first free descriptor that is none of the standard ones. -/
def fdAlloc (s : Fds) (idx : Nat) : Option Nat := fdAllocFrom s idx 3

/-- The first free descriptor for the other end of a pipe. -/
def fdAllocOther (s : Fds) (idx fdR : Nat) : Option Nat :=
  (List.range maxFd).find? fun fd => 3 ≤ fd && fd != fdR && (s.fdTables idx fd).obj.isNone

/-- The object of a descriptor. -/
def fdGet (s : Fds) (idx fd : Nat) : Option Nat := if maxFd ≤ fd then none else (s.fdTables idx fd).obj

/-- A pipe loses the end that an object was. -/
def Pipe.closeEnd (pipe : Pipe) (pipeEnd : PipeEnd) : Pipe :=
  let closed := match pipeEnd with
    | .read => { pipe with readers := pipe.readers - 1 }
    | .write => { pipe with writers := pipe.writers - 1 }
  if closed.readers = 0 ∧ closed.writers = 0 then .zero else closed

/-- What an object refers to is released. -/
def fdResourceRelease (s : Fds) (obj : FdObject) : Fds :=
  match obj.type with
  | .pipe => if (s.pipePool obj.pipe).inUse then s.setPipe obj.pipe ((s.pipePool obj.pipe).closeEnd obj.pipeEnd) else s
  | .epoll => if (s.epollPool obj.pipe).inUse then s.setSet obj.pipe .zero else s
  | _ => s

/-- An object loses one reference, and is cleared with its last one. -/
def fdObjectPut (s : Fds) (o : Nat) : Fds :=
  let obj := s.fdObjects o
  if !obj.inUse || obj.refcount == 0 then s
  else if obj.refcount ≠ 1 then s.setObject o { obj with refcount := obj.refcount - 1 }
  else ((fdResourceRelease s obj).setObject o .zero).logRelease o obj

/-- A descriptor is closed. -/
def fdReleaseSlot (s : Fds) (idx fd : Nat) : Fds :=
  match (s.fdTables idx fd).obj with
  | none => s
  | some o => (fdObjectPut s o).setEntry idx fd .zero

/-- A descriptor refers to an object; what it referred to before is not looked at. -/
def fdAttachObject (s : Fds) (idx fd o : Nat) (cloexec : Bool) : Fds :=
  let obj := s.fdObjects o
  if !obj.inUse then s
  else (s.setObject o { obj with refcount := obj.refcount + 1 }).setEntry idx fd ⟨some o, cloexec⟩

/-- All descriptors of a process are closed. -/
def fdReleaseSlotIndex (s : Fds) (idx : Nat) : Fds := (List.range maxFd).foldl (fun s fd => fdReleaseSlot s idx fd) s

/-- A descriptor of another process is taken over. -/
def fdCloneEntry (dst src : Nat) (s : Fds) (fd : Nat) : Fds :=
  match (s.fdTables src fd).obj with
  | none => s.setEntry dst fd ⟨none, (s.fdTables src fd).cloexec⟩
  | some o => fdAttachObject (s.setEntry dst fd ⟨none, (s.fdTables src fd).cloexec⟩) dst fd o (s.fdTables src fd).cloexec

/-- A process gets the descriptors of another one. -/
def fdCloneTaskTable (s : Fds) (dst src : Nat) : Fds :=
  (List.range maxFd).foldl (fdCloneEntry dst src) (fdReleaseSlotIndex s dst)

/-- A descriptor is closed if the program that is loaded is not to have it. -/
def fdCloseCloexecSlot (idx : Nat) (s : Fds) (fd : Nat) : Fds :=
  if (s.fdTables idx fd).cloexec then fdReleaseSlot s idx fd else s

def fdCloseCloexecInSlot (s : Fds) (idx : Nat) : Fds := (List.range maxFd).foldl (fdCloseCloexecSlot idx) s

/-- What a call that opens a descriptor has got: a file, a file of the server, or a socket. -/
inductive Opened where
  | file (file : VfsFile)
  | remote (handle : UInt32) (shadow : VfsFile)
  | sock (handle : UInt32)

/-- The object of what was opened. -/
def Opened.object (flags : UInt16) : Opened → FdObject
  | .file opened => { FdObject.zero with type := .vfs, flags, file := some opened }
  | .remote handle shadow => { FdObject.zero with type := .vfsd, flags, remoteHandle := handle, file := some shadow }
  | .sock handle => { FdObject.zero with type := .sock, flags, remoteHandle := handle }

/-- What was opened is bound to a descriptor. -/
def fdBind (s : Fds) (idx fd : Nat) (opened : Opened) (flags : UInt16) (cloexec : Bool) :
    Fds × Except Errno Nat :=
  match fdObjectAlloc s with
  | none => (s, .error .enfile)
  | some o => (fdAttachObject (s.makeObject o (opened.object flags)) idx fd o cloexec, .ok fd)

/-- A standard descriptor of a process is bound, if its device can be opened. -/
def fdBindDefault (idx : Nat) (s : Fds) (device : Nat × Option VfsFile) : Fds :=
  match device.2 with
  | none => s
  | some opened => (fdBind s idx device.1 (.file opened) (if device.1 = 0 then oRdonly else oWronly) false).1

/-- The descriptors of a process are as at its start. -/
def fdResetSlotDefaults (s : Fds) (idx : Nat) (stdin stdout stderr : Option VfsFile) : Fds :=
  let cleared := (List.range maxFd).foldl (fun s fd => s.setEntry idx fd .zero) (fdReleaseSlotIndex s idx)
  [(0, stdin), (1, stdout), (2, stderr)].foldl (fdBindDefault idx) cleared

/-- The ends of a pipe. -/
def pipeObject (place : Nat) (pipeEnd : PipeEnd) : FdObject :=
  { FdObject.zero with
    type := .pipe, flags := if pipeEnd = .read then oRdonly else oWronly, pipe := place, pipeEnd }

/-- Makes a pipe; the descriptors are closed again if they cannot be stored for the caller. -/
def sysPipe (s : Fds) (idx : Nat) (stored : Bool) : Fds × Except Errno (Nat × Nat) :=
  match fdAlloc s idx with
  | none => (s, .error .enfile)
  | some fdR =>
    match fdAllocOther s idx fdR with
    | none => (s, .error .enfile)
    | some fdW =>
      match fdPipeAlloc s with
      | none => (s, .error .enfile)
      | some place =>
        match fdObjectAlloc s with
        | none => (s, .error .enfile)
        | some objR =>
          let reading := s.makeObject objR (pipeObject place .read)
          match fdObjectAlloc reading with
          | none => (s, .error .enfile)
          | some objW =>
            let made := (reading.makeObject objW (pipeObject place .write)).setPipe place (.new s.born)
            let bound := fdAttachObject (fdAttachObject made idx fdR objR false) idx fdW objW false
            if stored then (bound, .ok (fdR, fdW))
            else (fdReleaseSlot (fdReleaseSlot bound idx fdR) idx fdW, .error .efault)

/-- Makes a set. -/
def sysEpollCreate1 (s : Fds) (idx : Nat) (cloexec : Bool) : Fds × Except Errno Nat :=
  match fdAlloc s idx with
  | none => (s, .error .emfile)
  | some fd =>
    match fdObjectAlloc s with
    | none => (s, .error .enfile)
    | some o =>
      match epollSetAlloc s.epollPool with
      | none => (s, .error .enfile)
      | some place =>
        (fdAttachObject ((s.setSet place { EpollSet.zero with inUse := true }).makeObject o
          { FdObject.zero with type := .epoll, pipe := place }) idx fd o cloexec, .ok fd)

/-- What a call that changes a set is about: the object and the set of the first descriptor, and the object of the second. -/
def epollTarget (s : Fds) (idx epfd fd : Nat) : Except Errno (Nat × Nat × Nat) :=
  match fdGet s idx epfd with
  | none => .error .ebadf
  | some epobj =>
    if (s.fdObjects epobj).type ≠ .epoll then .error .einval
    else if maxFd ≤ fd then .error .ebadf
    else if fd = epfd then .error .einval
    else
      match fdGet s idx fd with
      | none => .error .ebadf
      | some target =>
        if !(s.epollPool (s.fdObjects epobj).pipe).inUse then .error .einval
        else .ok (epobj, (s.fdObjects epobj).pipe, target)

/-- Changes a set; the event is missing if it cannot be read. -/
def sysEpollCtl (s : Fds) (idx epfd : Nat) (op : EpollOp) (fd : Nat) (ev : Option EpollEvent) : Fds × Except Errno Unit :=
  match epollTarget s idx epfd fd with
  | .error error => (s, .error error)
  | .ok (_, place, target) =>
    match if op = .del then some ⟨0, 0⟩ else ev with
    | none => (s, .error .efault)
    | some ev =>
      if ev.events &&& ~~~epollSupported ≠ 0 then (s, .error .einval)
      else
        match epollCtl (s.epollPool place) op fd target (s.fdObjects target).birth ev with
        | .error error => (s, .error error)
        | .ok set => (s.setSet place set, .ok ())

/-- A task begins to wait in a set; it keeps the set, whatever becomes of the descriptor. -/
def sysEpollPwait (s : Fds) (task idx epfd : Nat) : Fds × Except Errno Unit :=
  match fdGet s idx epfd with
  | none => (s, .error .ebadf)
  | some epobj =>
    if (s.fdObjects epobj).type ≠ .epoll then (s, .error .einval)
    else if !(s.epollPool (s.fdObjects epobj).pipe).inUse then (s, .error .einval)
    else (s.setWait task (some (idx, (s.fdObjects epobj).pipe)), .ok ())

/-- Closes a descriptor. -/
def sysClose (s : Fds) (idx fd : Nat) : Fds × Except Errno Unit :=
  match fdGet s idx fd with
  | none => (s, .error .ebadf)
  | some _ => (fdReleaseSlot s idx fd, .ok ())

/-- Another descriptor, from a start on, refers to the same object. -/
def sysDupFrom (s : Fds) (idx oldfd start : Nat) (cloexec : Bool) : Fds × Except Errno Nat :=
  match fdGet s idx oldfd with
  | none => (s, .error .ebadf)
  | some o =>
    match fdAllocFrom s idx start with
    | none => (s, .error .enfile)
    | some newfd =>
      if !(s.fdObjects o).inUse then (s, .error .enfile) else (fdAttachObject s idx newfd o cloexec, .ok newfd)

def sysDup (s : Fds) (idx oldfd : Nat) : Fds × Except Errno Nat := sysDupFrom s idx oldfd 3 false

def sysFcntlDupfd (s : Fds) (idx fd arg : Nat) (cloexec : Bool) : Fds × Except Errno Nat :=
  match fdGet s idx fd with
  | none => (s, .error .ebadf)
  | some _ => if maxFd ≤ arg then (s, .error .einval) else sysDupFrom s idx fd arg cloexec

/-- A given descriptor refers to the same object. -/
def sysDup2 (s : Fds) (idx oldfd newfd : Nat) : Fds × Except Errno Nat :=
  match fdGet s idx oldfd with
  | none => (s, .error .ebadf)
  | some o =>
    if maxFd ≤ newfd then (s, .error .ebadf)
    else if oldfd = newfd then (s, .ok newfd)
    else
      let closed := fdReleaseSlot s idx newfd
      if !(closed.fdObjects o).inUse then (closed, .error .enfile)
      else (fdAttachObject closed idx newfd o false, .ok newfd)

/-- The calls that change descriptors, for a process; which descriptor a call binds was chosen when the call began. The tasks of a process that was in a slot before are gone when the slot is used again. -/
inductive Op where
  | bind (idx fd : Nat) (opened : Opened) (flags : UInt16) (cloexec : Bool)
  | pipe (idx : Nat) (stored : Bool)
  | epollCreate1 (idx : Nat) (cloexec : Bool)
  | epollCtl (idx epfd : Nat) (op : EpollOp) (fd : Nat) (ev : Option EpollEvent)
  | epollPwait (task idx epfd : Nat)
  /-- A call that waits in a set returns. -/
  | epollReturns (task : Nat)
  | close (idx fd : Nat)
  | dup (idx oldfd : Nat)
  | dup2 (idx oldfd newfd : Nat)
  | fcntlDupfd (idx fd arg : Nat) (cloexec : Bool)
  | fork (dst src : Nat)
  | execve (idx : Nat)
  | exit (idx : Nat) (stdin stdout stderr : Option VfsFile)

/-- The descriptors after a call. -/
def Op.after (s : Fds) : Op → Fds
  | .bind idx fd opened flags cloexec => (fdBind s idx fd opened flags cloexec).1
  | .pipe idx stored => (sysPipe s idx stored).1
  | .epollCreate1 idx cloexec => (sysEpollCreate1 s idx cloexec).1
  | .epollCtl idx epfd op fd ev => (sysEpollCtl s idx epfd op fd ev).1
  | .epollPwait task idx epfd => (sysEpollPwait s task idx epfd).1
  | .epollReturns task => s.setWait task none
  | .close idx fd => (sysClose s idx fd).1
  | .dup idx oldfd => (sysDup s idx oldfd).1
  | .dup2 idx oldfd newfd => (sysDup2 s idx oldfd newfd).1
  | .fcntlDupfd idx fd arg cloexec => (sysFcntlDupfd s idx fd arg cloexec).1
  | .fork dst src => fdCloneTaskTable (s.endWaits dst) dst src
  | .execve idx => fdCloseCloexecInSlot s idx
  | .exit idx stdin stdout stderr => fdResetSlotDefaults (s.endWaits idx) idx stdin stdout stderr

/-- The processes and descriptors of a call are those of the tables; a child is another process. -/
def Op.inside : Op → Prop
  | .bind idx fd .. => idx < schedMaxTasks ∧ fd < maxFd
  | .pipe idx _ | .epollCreate1 idx _ | .epollCtl idx .. | .close idx _ | .dup idx _ | .dup2 idx .. | .fcntlDupfd idx ..
  | .execve idx | .exit idx .. => idx < schedMaxTasks
  | .epollPwait _ idx _ => idx < schedMaxTasks
  | .epollReturns _ => True
  | .fork dst src => dst < schedMaxTasks ∧ src < schedMaxTasks ∧ dst ≠ src

instance : (op : Op) → Decidable op.inside
  | .bind .. => inferInstanceAs (Decidable (_ ∧ _))
  | .pipe .. | .epollCreate1 .. | .epollCtl .. | .close .. | .dup .. | .dup2 .. | .fcntlDupfd .. | .execve _
  | .exit .. | .epollPwait .. => inferInstanceAs (Decidable (_ < _))
  | .epollReturns _ => inferInstanceAs (Decidable True)
  | .fork .. => inferInstanceAs (Decidable (_ ∧ _ ∧ _))

/-- What each call does; one for a process that does not exist does nothing. -/
def exec (s : Fds) (op : Op) : Except Empty Fds := .ok (if op.inside then op.after s else s)

/-- Before the first process has its descriptors. -/
def boot : Fds := ⟨fun _ _ => .zero, fun _ => .zero, fun _ => .zero, fun _ => .zero, fun _ => none, 0, []⟩

end Enlil.Fd
