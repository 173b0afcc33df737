import Enlil.Sched.Task

/-! Creating tasks and processes, ending them and waiting for them. -/

namespace Enlil.Sched

/-- The errors the process calls return. -/
inductive Errno where
  | enosys
  | ebusy
  | enomem
  | eagain
  | einval
  | eperm
  | echild
  | efault
  deriving DecidableEq, Repr

/-- The ways the kernel stops for good. -/
inductive Halt where
  | panic (message : String)
  | spin
  deriving DecidableEq, Repr

/-- The process slot of a task that has none. -/
def noProcSlot : Nat := 0xFF

/-- Default priority of a task. -/
def prioNormal : UInt8 := 128

/-- Takes the next task of the pool, which never comes back to it. -/
def taskAlloc (s : State) : Option (Nat × State) :=
  if s.taskCount ≥ schedMaxTasks then none
  else
    let t : Tcb :=
      { pid := s.nextPid
        priority := prioNormal
        state := .ready
        ticksLeft := schedTickQuantum
        deadlineMs := 0
        isIdle := false
        isThread := false
        isRt := false
        donatedPriority := 0xFF
        isUser := false
        procSlot := noProcSlot
        exitCode := 0
        stopped := false
        stopReported := false }
    some (s.taskCount,
      { s with
        tcb := Function.update s.tcb s.taskCount t
        taskCount := s.taskCount + 1
        nextPid := (s.nextPid + 1) % 2 ^ 32 })

/-- The process of a task, if its slot is in use. -/
def procOf (s : State) (t : Nat) : Option Proc :=
  let slot := (s.tcb t).procSlot
  if slot < schedMaxTasks ∧ (s.procs slot).inUse = true then some (s.procs slot) else none

/-- The thread group of a task. -/
def tgidOf (s : State) (t : Nat) : Nat :=
  match procOf s t with
  | some proc => proc.tgid
  | none => (s.tcb t).pid

/-- The parent of a task's process. -/
def parentPidOf (s : State) (t : Nat) : Nat :=
  match procOf s t with
  | some proc => proc.parentPid
  | none => 0

/-- The process group of a task. -/
def pgidOf (s : State) (t : Nat) : Nat :=
  match procOf s t with
  | some proc => proc.pgid
  | none => 0

/-- The number of references on a task's process. -/
def procRefcount (s : State) (t : Nat) : Nat :=
  match procOf s t with
  | some proc => proc.refcount
  | none => 0

/-- Takes the first free process slot. -/
def procAlloc (s : State) (tgid parentPid pgid : Nat) : Option (Nat × State) :=
  match (List.range schedMaxTasks).find? fun i => !(s.procs i).inUse with
  | none => none
  | some slot =>
    some (slot, s.setProc slot fun _ =>
      { inUse := true
        tgid := tgid
        parentPid := parentPid
        pgid := pgid
        refcount := 1
        waitable := false
        waitExitCode := 0
        groupExiting := false
        groupExitCode := 0 })

/-- Adds a reference to a process. -/
def procRetain (s : State) (slot : Nat) : Option State :=
  if slot ≥ schedMaxTasks ∨ (s.procs slot).inUse = false then none
  else some (s.setProc slot fun proc => { proc with refcount := (proc.refcount + 1) % 2 ^ 16 })

/-- Notes that a whole process is ending, and with which code. -/
def procSetGroupExit (s : State) (slot : Nat) (code : Int) : State :=
  if slot ≥ schedMaxTasks ∨ (s.procs slot).inUse = false then s
  else s.setProc slot fun proc => { proc with groupExiting := true, groupExitCode := code }

/-- The task with a pid. -/
def schedTaskFind (s : State) (pid : Nat) : Option Nat :=
  (List.range s.taskCount).find? fun t => (s.tcb t).pid = pid

/-- The task a process is named after. -/
def procLeaderTask (s : State) (proc : Proc) : Option Nat :=
  if proc.tgid = 0 then none else schedTaskFind s proc.tgid

/-- Drops a reference to a process, which can be waited for when it was the last one. -/
def procRelease (s : State) (slot : Nat) (code : Int) : State :=
  if slot ≥ schedMaxTasks ∨ (s.procs slot).inUse = false ∨ (s.procs slot).refcount = 0 then s
  else
    let s := s.setProc slot fun proc => { proc with refcount := proc.refcount - 1 }
    if (s.procs slot).refcount ≠ 0 then s
    else
      let finalCode := if (s.procs slot).groupExiting then (s.procs slot).groupExitCode else code
      let s := s.setProc slot fun proc => { proc with waitable := true, waitExitCode := finalCode }
      match procLeaderTask s (s.procs slot) with
      | some leader => s.setTcb leader fun t => { t with exitCode := finalCode }
      | none => s

/-- Gives a task a process of its own. -/
def taskBindNewProcess (s : State) (t parentPid pgid : Nat) : Option State :=
  let pid := (s.tcb t).pid
  match procAlloc s pid parentPid (if pgid ≠ 0 then pgid else pid) with
  | none => none
  | some (slot, s) => some (s.setTcb t fun tcb => { tcb with procSlot := slot })

/-- Makes a task a thread of the process of another. -/
def taskBindSharedProcess (s : State) (t owner : Nat) : Option State :=
  match procOf s owner with
  | none => none
  | some _ =>
    match procRetain s (s.tcb owner).procSlot with
    | none => none
    | some s => some (s.setTcb t fun tcb => { tcb with procSlot := (s.tcb owner).procSlot })

/-- Takes a task from the pool, gives it a process and puts it into its run queue. -/
def spawn (s : State) (priority : UInt8) (isUser isThread : Bool) (bind : State → Nat → Option State)
    (noTask noProc : String) : Except Halt (Nat × State) :=
  match taskAlloc s with
  | none => .error (.panic noTask)
  | some (t, s) =>
    let s := s.setTcb t fun tcb => { tcb with priority := priority, isUser := isUser, isThread := isThread }
    match bind s t with
    | none => .error (.panic noProc)
    | some s => .ok (t, preemptIfUrgent (rqPush s t) t)

/-- Creates a kernel task. -/
def schedTaskCreate (s : State) (priority : UInt8) : Except Halt (Nat × State) :=
  spawn s priority false false (fun s t => taskBindNewProcess s t 0 (pgidOf s s.current))
    "[SCHED] PANIC: task pool esaurito\n" "[SCHED] PANIC: proc slot esauriti\n"

/-- Creates a user task. -/
def schedTaskCreateUser (s : State) (priority : UInt8) : Except Halt (Nat × State) :=
  spawn s priority true false (fun s t => taskBindNewProcess s t (tgidOf s s.current) (pgidOf s s.current))
    "[SCHED] PANIC: impossibile creare task user\n" "[SCHED] PANIC: proc slot user esauriti\n"

/-- Creates the child of a fork. -/
def schedTaskForkUser (s : State) (priority : UInt8) : Except Halt (Nat × State) :=
  spawn s priority true false (fun s t => taskBindNewProcess s t (tgidOf s s.current) (pgidOf s s.current))
    "[SCHED] PANIC: impossibile forkare task user\n" "[SCHED] PANIC: proc slot fork esauriti\n"

/-- Creates a thread of the current task's process. -/
def schedTaskCloneUserThread (s : State) (priority : UInt8) : Except Halt (Nat × State) :=
  spawn s priority true true (fun s t => taskBindSharedProcess s t s.current)
    "[SCHED] PANIC: impossibile clonare thread user\n" "[SCHED] PANIC: impossibile condividere proc slot\n"

/-- The system call that forks; `memory` says whether the address space could be cloned. -/
def sysFork (s : State) (memory : Bool) : Except Halt (Except Errno Nat × State) :=
  if !(s.tcb s.current).isUser then .ok (.error .enosys, s)
  else if (s.tcb s.current).isRt then .error (.panic "fork() vietato su task hard-RT")
  else if procRefcount s s.current > 1 then .ok (.error .ebusy, s)
  else if !memory then .ok (.error .enomem, s)
  else
    match schedTaskForkUser s (s.tcb s.current).priority with
    | .error halt => .error halt
    | .ok (child, s) => .ok (.ok (s.tcb child).pid, s)

/-- The system call that creates a thread; `refused` is what its checks of flags and addresses say. -/
def sysClone (s : State) (refused : Option Errno) : Except Halt (Except Errno Nat × State) :=
  if !(s.tcb s.current).isUser then .ok (.error .enosys, s)
  else if procRefcount s s.current ≥ schedMaxTasks then .ok (.error .eagain, s)
  else
    match refused with
    | some error => .ok (.error error, s)
    | none =>
      match schedTaskCloneUserThread s (s.tcb s.current).priority with
      | .error halt => .error halt
      | .ok (child, s) => .ok (.ok (s.tcb child).pid, s)

/-- What the clean-up of other subsystems asks of the scheduler. -/
inductive Cleanup where
  | unblock (t : Nat)
  | donate (t : Nat) (prio : UInt8)
  | clear (t : Nat)

/-- Carries out one such request. -/
def Cleanup.apply (s : State) : Cleanup → State
  | .unblock t => schedUnblock s t
  | .donate t prio => schedTaskDonatePriority s t prio
  | .clear t => schedTaskClearDonation s t

/-- The first part of ending a task: another task that is ready leaves its run queue. -/
def finishExitBegin (s : State) (t : Nat) (code : Int) : State :=
  let s := s.setTcb t fun tcb => { tcb with exitCode := code }
  if t ≠ s.current ∧ (s.tcb t).state = .ready then rqRemove s t (s.effPrio t) else s

/-- The last part of ending a task: it is no longer stopped, its process loses a reference, and it becomes a zombie. -/
def finishExitEnd (s : State) (t : Nat) (code : Int) : State :=
  let s := s.setTcb t fun tcb => { tcb with stopped := false, stopReported := false }
  (procRelease s (s.tcb t).procSlot code).setTcb t fun tcb => { tcb with state := .zombie }

/-- Ends a task, with the requests of the clean-up between the two parts. -/
def schedTaskFinishExit (s : State) (t : Nat) (code : Int) (cleanup : List Cleanup) : State :=
  finishExitEnd (cleanup.foldl Cleanup.apply (finishExitBegin s t code)) t code

/-- Ends the other tasks of the current process. -/
def schedTaskBeginExitGroup (s : State) (code : Int) (cleanup : Nat → List Cleanup) : State :=
  let slot := (s.tcb s.current).procSlot
  (List.range s.taskCount).foldl
    (fun s' t =>
      if t = s'.current ∨ (s'.tcb t).state = .zombie ∨ (s'.tcb t).procSlot ≠ slot then s'
      else schedTaskFinishExit s' t code (cleanup t))
    (procSetGroupExit s slot code)

/-- Ends the current task and switches away from it. -/
def schedTaskExitWithCode (s : State) (code : Int) (cleanup : List Cleanup) : Option State :=
  schedule (schedTaskFinishExit s s.current code cleanup)

/-- The system call that ends the whole process. -/
def sysExitGroup (s : State) (code : Int) (cleanup : Nat → List Cleanup) : Option State :=
  if !(s.tcb s.current).isUser then some s
  else schedTaskExitWithCode (schedTaskBeginExitGroup s code cleanup) code (cleanup s.current)

/-- Whether the process of a task can be waited for. -/
def schedTaskIsProcessWaitable (s : State) (t : Nat) : Bool :=
  match procOf s t with
  | some proc => (s.tcb t).pid = proc.tgid && proc.waitable
  | none => false

/-- Gives up the process slot of a task that was waited for. -/
def schedTaskMarkReaped (s : State) (t : Nat) : State :=
  match procOf s t with
  | some _ => s.setProc (s.tcb t).procSlot fun proc => { proc with waitable := false, inUse := false }
  | none => s

/-- Which children a caller waits for. -/
def waitMatch (s : State) (pidArg : Int) (t : Nat) : Bool :=
  if pidArg > 0 then pidArg = tgidOf s t
  else if pidArg = 0 then pgidOf s t = pgidOf s s.current
  else if pidArg = -1 then true
  else (pgidOf s t : Int) = -pidArg

/-- The status word of a process that ended by itself. -/
def exitStatus (code : Int) : Nat := (code % 256).toNat * 256

/-- What one look over the tasks for a child comes to. -/
inductive WaitResult where
  | reaped (pid status : Nat)
  | stopped (pid : Nat)
  | failed (error : Errno)
  /-- Children, but none to report. -/
  | later
  deriving DecidableEq

/-- Notes that the stop of a task has been reported, if there is one to report. -/
def signalTaskConsumeStopReport (s : State) (t : Nat) : Bool × State :=
  if (s.tcb t).stopped && !(s.tcb t).stopReported then
    (true, s.setTcb t fun tcb => { tcb with stopReported := true })
  else (false, s)

/--
One look over the tasks for a child to report.

`untraced` says whether the caller wants to know of stops, `stored` whether the status could be stored.
-/
def waitScan (s : State) (pidArg : Int) (untraced stored : Bool) : List Nat → Bool → WaitResult × State
  | [], matched => (if matched then .later else .failed .echild, s)
  | t :: rest, matched =>
    if (s.tcb t).isThread || parentPidOf s t ≠ tgidOf s s.current || !waitMatch s pidArg t then
      waitScan s pidArg untraced stored rest matched
    else if (s.tcb t).state = .zombie && schedTaskIsProcessWaitable s t then
      if stored then (.reaped (s.tcb t).pid (exitStatus (s.tcb t).exitCode), schedTaskMarkReaped s t)
      else (.failed .efault, s)
    else
      match untraced, signalTaskConsumeStopReport s t with
      | true, (true, s) => if stored then (.stopped (s.tcb t).pid, s) else (.failed .efault, s)
      | _, _ => waitScan s pidArg untraced stored rest true

/-- One round of the system call that waits for a child. -/
def sysWaitpid (s : State) (pidArg : Int) (untraced stored : Bool) : WaitResult × State :=
  waitScan s pidArg untraced stored (List.range s.taskCount) false

/-- The scheduler before it has any task. -/
def emptyState : State where
  tcb := fun _ => ⟨0, 0, .running, 0, 0, false, false, false, 0, false, 0, 0, false, false⟩
  taskCount := 0
  nextPid := 0
  procs := fun _ => ⟨false, 0, 0, 0, 0, false, 0, false, 0⟩
  readyBitmap := fun _ => 0
  runQueue := fun _ => []
  current := 0
  needResched := false

/-- The scheduler after its start, with the kernel task running and the idle task ready. -/
def schedInit : State :=
  let proc (tgid : Nat) : Proc := ⟨true, tgid, 0, tgid, 1, false, 0, false, 0⟩
  let kern : Tcb := ⟨0, prioKernel, .running, schedTickQuantum, 0, false, false, false, 0xFF, false, 0, 0, false, false⟩
  let idle : Tcb := ⟨1, prioIdle, .ready, 0xFF, 0, true, false, false, 0xFF, false, 1, 0, false, false⟩
  rqPush
    { emptyState with
      tcb := Function.update (Function.update emptyState.tcb 0 kern) 1 idle
      taskCount := 2
      nextPid := 2
      procs := Function.update (Function.update emptyState.procs 0 (proc 0)) 1 (proc 1) } 1

end Enlil.Sched
