import Enlil.Lib.Run

/-! System calls of several tasks that take turns, and the two variables of `kernel/syscall.c` that all of them share. -/

namespace Enlil.Syscall

/-- The registers that a task has when it enters the kernel, and gets back when it leaves. -/
structure Frame where
  x : Nat → UInt64
  sp : UInt64
  pc : UInt64
  spsr : UInt64

/-- The frame with a result in its first register. -/
def Frame.setResult (frame : Frame) (ret : UInt64) : Frame := { frame with x := Function.update frame.x 0 ret }

/-- The errors that the calls below name themselves. -/
inductive Errno where
  | eio
  | enomem
  | efault
  | ebusy
  | enosys
  deriving DecidableEq, Repr

def Errno.code : Errno → UInt64
  | .eio => 5
  | .enomem => 12
  | .efault => 14
  | .ebusy => 16
  | .enosys => 38

/-- A result that reports an error. -/
def err (code : UInt64) : UInt64 := 0 - code

/-- What the loader makes of a program. -/
structure ElfImage where
  entry : UInt64
  userSp : UInt64
  argc : UInt64
  argv : UInt64
  envp : UInt64
  auxv : UInt64

/-- The part of a call that is left to do, as far as it touches the shared variables and the frames. -/
inductive Process where
  /-- The handler returns. -/
  | done (ret : UInt64)
  /-- Other tasks may run, any number of times, before the rest does. -/
  | yield (rest : Process)
  /-- The active frame is read; a frame is known by the task whose it is. -/
  | active (rest : Option Nat → Process)
  /-- A frame is overwritten. -/
  | store (place : Nat) (frame : Frame) (rest : Process)
  /-- The frame is declared replaced. -/
  | replaced (rest : Process)
  /-- The task ends in the call. -/
  | exits

/-- A call that touches neither the shared variables nor a frame. -/
inductive Plain where
  | done (ret : UInt64)
  | yield (rest : Plain)
  | exits

/-- What happens to a call of `execve` once it has its frame, in the order of the source. -/
structure Execve where
  /-- The caller shares its process with another thread. -/
  shared : Bool
  copyFits : Bool
  /-- The error code of the copy of the arguments, zero if there is none, and so on. -/
  copied : UInt64
  resolved : UInt64
  probed : UInt64
  /-- The image, if the loader returns one. -/
  loaded : Option ElfImage
  rebound : Bool

/-- The system calls, each with what its run depends on. -/
inductive Call where
  /-- A number that is not in the table. -/
  | unknown
  | execve (isUser : Bool) (outcome : Execve)
  /-- A return from a signal handler: the error code, or the frame that is restored. -/
  | sigreturn (restored : Except UInt64 Frame)
  /-- A fork or a clone: both copy the active frame before anything else, and then return a result. -/
  | fork (isUser : Bool) (ret : UInt64)
  | clone (isUser : Bool) (ret : UInt64)
  /-- Any other call. -/
  | other (body : Plain)

/-- The frame of a program that has just been loaded. -/
def execFrame (image : ElfImage) : Frame where
  x
    | 0 => image.argc
    | 1 => image.argv
    | 2 => image.envp
    | 3 => image.auxv
    | _ => 0
  sp := image.userSp
  pc := image.entry
  spsr := 0

/-- Goes on if there is no error. -/
def orError (code : UInt64) (rest : Process) : Process := if code ≠ 0 then .done (err code) else rest

/-- Replaces the program of the caller; resolving, probing and loading wait for the disk. -/
def sysExecve (isUser : Bool) (outcome : Execve) : Process :=
  .active fun frame =>
    match frame with
    | none => .done (err Errno.enosys.code)
    | some frame =>
      if !isUser then .done (err Errno.enosys.code)
      else if outcome.shared then .done (err Errno.ebusy.code)
      else if !outcome.copyFits then .done (err Errno.enomem.code)
      else
        .yield <| orError outcome.copied <|
        .yield <| orError outcome.resolved <|
        .yield <| orError outcome.probed <|
        .yield <|
          match outcome.loaded with
          | none => .done (err Errno.eio.code)
          | some image =>
            if !outcome.rebound then .done (err Errno.eio.code)
            else .yield <| .store frame (execFrame image) <| .replaced <| .done 0

/-- Returns from a signal handler. -/
def sysSigreturn (restored : Except UInt64 Frame) : Process :=
  .active fun frame =>
    match frame with
    | none => .done (err Errno.efault.code)
    | some frame =>
      match restored with
      | .error code => .done (err code)
      | .ok restored => .store frame restored <| .replaced <| .done 0

/-- Makes a new task with a copy of the active frame. -/
def sysFork (isUser : Bool) (ret : UInt64) : Process :=
  .active fun frame =>
    match frame with
    | none => .done (err Errno.enosys.code)
    | some _ => if !isUser then .done (err Errno.enosys.code) else .done ret

/-- Makes a new thread with a copy of the active frame. -/
def sysClone (isUser : Bool) (ret : UInt64) : Process := sysFork isUser ret

def Plain.process : Plain → Process
  | .done ret => .done ret
  | .yield rest => .yield rest.process
  | .exits => .exits

/-- The handler of a call. -/
def Call.handler : Call → Process
  | .unknown => .done (err Errno.enosys.code)
  | .execve isUser outcome => sysExecve isUser outcome
  | .sigreturn restored => sysSigreturn restored
  | .fork isUser ret => sysFork isUser ret
  | .clone isUser ret => sysClone isUser ret
  | .other body => body.process

/-- The shared variables, the frames of all tasks, and the calls that are waiting. -/
structure State where
  activeSyscallFrame : Option Nat
  activeSyscallReplaced : Bool
  frames : Nat → Frame
  /-- The call of a task that is in the kernel, and what is left of it. -/
  calls : Nat → Option (Call × Process)

/-- The end of the dispatcher: the result goes to the frame, unless it was replaced. -/
def syscallReturn (s : State) (task : Nat) (ret : UInt64) : State where
  activeSyscallFrame := none
  activeSyscallReplaced := false
  frames := if s.activeSyscallReplaced then s.frames
    else Function.update s.frames task ((s.frames task).setResult ret)
  calls := Function.update s.calls task none

/-- Runs the call of a task until it waits or is over. -/
def runProcess (s : State) (task : Nat) (call : Call) : Process → State
  | .done ret => syscallReturn s task ret
  | .yield rest => { s with calls := Function.update s.calls task (some (call, rest)) }
  | .active rest => runProcess s task call (rest s.activeSyscallFrame)
  | .store place frame rest => runProcess { s with frames := Function.update s.frames place frame } task call rest
  | .replaced rest => runProcess { s with activeSyscallReplaced := true } task call rest
  | .exits => { s with calls := Function.update s.calls task none }

/-- A task enters the kernel with a frame; a number that is not in the table does not touch the shared variables. -/
def syscallDispatch (s : State) (task : Nat) (frame : Frame) (call : Call) : State :=
  let s := { s with frames := Function.update s.frames task frame }
  match call with
  | .unknown => { s with frames := Function.update s.frames task (frame.setResult (err Errno.enosys.code)) }
  | call => runProcess { s with activeSyscallFrame := some task, activeSyscallReplaced := false } task call call.handler

/-- The turns that tasks take. -/
inductive Op where
  | enter (task : Nat) (frame : Frame) (call : Call)
  /-- A call that waited goes on. -/
  | resume (task : Nat)
  /-- A task that waits in a call is ended by another one. -/
  | kill (task : Nat)

/-- What each turn does; a task that waits in a call does not enter another one. -/
def exec (s : State) : Op → Except Empty State
  | .enter task frame call => .ok (if (s.calls task).isSome then s else syscallDispatch s task frame call)
  | .resume task =>
    match s.calls task with
    | none => .ok s
    | some (call, rest) => .ok (runProcess s task call rest)
  | .kill task => .ok { s with calls := Function.update s.calls task none }

/-- Before the first call. -/
def boot (frames : Nat → Frame) : State := ⟨none, false, frames, fun _ => none⟩

end Enlil.Syscall
