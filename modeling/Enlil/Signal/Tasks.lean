import Enlil.Lib.Run
import Enlil.Sched.QueueRuns
import Enlil.Signal.Signal

/-! Signals among the tasks of the scheduler. -/

namespace Enlil.Signal

open Mmu

/--
The signal states and actions next to the scheduler.

The scheduler's own model keeps a copy of the two stop marks for its waiting parents, which nothing here reads.
-/
structure State where
  sched : Sched.State
  /-- The state of each task, by its pid modulo the size of the pool. -/
  st : Nat → SignalState
  /-- The actions of each process by its slot, and there by signal. -/
  actions : Nat → Nat → SigAction

/-- The ways in which the kernel stops for good. -/
abbrev Halt := Pmm.Halt ⊕ Sched.Halt

def signalSlotPid (pid : Nat) : Nat := pid % Sched.schedMaxTasks

/-- Where the signal state of a task is kept. -/
def State.slot (s : State) (t : Nat) : Nat := signalSlotPid (s.sched.tcb t).pid

/-- Where the actions of a task's process are kept. -/
def State.procSlot (s : State) (t : Nat) : Nat := (s.sched.tcb t).procSlot % Sched.schedMaxTasks

/-- Changes the signal state of a task. -/
def State.setSt (s : State) (t : Nat) (change : SignalState → SignalState) : State :=
  { s with st := Function.update s.st (s.slot t) (change (s.st (s.slot t))) }

/-- Replaces the actions of a task's process. -/
def State.setActions (s : State) (t : Nat) (actions : Nat → SigAction) : State :=
  { s with actions := Function.update s.actions (s.procSlot t) actions }

/-- The default action of every signal. -/
def resetActions : Nat → SigAction := fun _ => ⟨sigDfl, 0, 0⟩

/-- Everything cleared, with the scheduler started. -/
def signalInit : State := ⟨Sched.schedInit, fun _ => SignalState.zero, fun _ => resetActions⟩

/-- The signal side of a new task. -/
def signalTaskInit (s : State) (t parentPid : Nat) : State :=
  (s.setSt t fun _ => { SignalState.zero with parentPid }).setActions t resetActions

/-- The signal side of a forked task. -/
def signalTaskFork (s : State) (child parent : Nat) : State :=
  let src := s.st (s.slot parent)
  (s.setSt child fun _ =>
    { SignalState.zero with blocked := src.blocked, parentPid := Sched.tgidOf s.sched parent }).setActions child
      (s.actions (s.procSlot parent))

/-- The signal side of a new thread. -/
def signalTaskCloneThread (s : State) (child parent : Nat) : State :=
  let src := s.st (s.slot parent)
  s.setSt child fun _ => { SignalState.zero with blocked := src.blocked, parentPid := src.parentPid }

/-- The signal side of a task that starts another program. -/
def signalTaskResetForExec (s : State) (t : Nat) : State :=
  (s.setSt t fun st =>
    { SignalState.zero with blocked := signalStripUnmaskable st.blocked, parentPid := st.parentPid }).setActions t
      resetActions

/-- The signal side of a task that ends. -/
def signalTaskExit (s : State) (t : Nat) : State :=
  s.setSt t fun st =>
    { st with pending := 0, inHandler := false, stopped := false, stopReported := false, stopSig := 0 }

/-- Whether a task can be sent signals. -/
def receives (s : State) (t : Nat) : Bool := (s.sched.tcb t).isUser && (s.sched.tcb t).state ≠ .zombie

/-- The task that a signal to a process goes to: its leader, or else its first live task. -/
def signalFindProcessTarget (s : State) (tgid : Nat) : Option Nat :=
  if tgid = 0 then none
  else
    match Sched.schedTaskFind s.sched tgid with
    | some leader =>
      if receives s leader && Sched.tgidOf s.sched leader = tgid then some leader
      else (List.range s.sched.taskCount).find? fun t => receives s t && Sched.tgidOf s.sched t = tgid
    | none => (List.range s.sched.taskCount).find? fun t => receives s t && Sched.tgidOf s.sched t = tgid

/-- The checks of a target, and the target if it passes them. -/
def checkTarget (s : State) (task : Option Nat) (sig : Nat) : Except Errno Nat :=
  if !signalValid sig then .error .einval
  else
    match task with
    | none => .error .esrch
    | some t =>
      if !(s.sched.tcb t).isUser then .error .eperm
      else if (s.sched.tcb t).state = .zombie then .error .esrch
      else .ok t

/-- Notes a signal in the state of a task. -/
def post (s : State) (t sig : Nat) : State :=
  s.setSt t fun st => { st with pending := st.pending ||| signalBit sig }

/-- Notes the end or the stop of a child with its parent, which is a plain pending signal. -/
def signalChild (s : State) (parentPid : Nat) : State :=
  if parentPid = 0 then s
  else
    match checkTarget s (signalFindProcessTarget s parentPid) sigchld with
    | .error _ => s
    | .ok t => post s t sigchld

/-- Sends a signal to a task. -/
def signalSendTask (s : State) (task : Option Nat) (sig : Nat) : Except Errno Unit × State :=
  match checkTarget s task sig with
  | .error error => (.error error, s)
  | .ok t =>
    if sig = sigcont then
      let s := s.setSt t fun st =>
        { st with pending := st.pending &&& ~~~signalStopBits, stopped := false, stopReported := false, stopSig := 0 }
      let s := { s with sched := Sched.schedUnblock s.sched t }
      let s := post s t sigcont
      (.ok (), signalChild s (s.st (s.slot t)).parentPid)
    else
      let s := post s t sig
      if sig = sigkill ∧ (s.st (s.slot t)).stopped = true ∧ (s.sched.tcb t).state = .blocked then
        let s := s.setSt t fun st => { st with stopped := false }
        (.ok (), { s with sched := Sched.schedUnblock s.sched t })
      else (.ok (), s)

/-- Sends a signal to a process. -/
def signalSendPid (s : State) (pid sig : Nat) : Except Errno Unit × State :=
  signalSendTask s (signalFindProcessTarget s pid) sig

/-- Sends a signal to a thread of a process. -/
def signalSendTgkill (s : State) (tgid tid sig : Nat) : Except Errno Unit × State :=
  if !signalValid sig then (.error .einval, s)
  else if tgid = 0 ∨ tid = 0 then (.error .einval, s)
  else
    match Sched.schedTaskFind s.sched tid with
    | none => (.error .esrch, s)
    | some t =>
      if !receives s t || Sched.tgidOf s.sched t ≠ tgid then (.error .esrch, s)
      else signalSendTask s (some t) sig

/-- Sends a signal to the members of a process group among some tasks. -/
def sendMembers (s : State) (pgid sig : Nat) : List Nat → Bool × State
  | [] => (false, s)
  | t :: rest =>
    if receives s t && Sched.pgidOf s.sched t = pgid then
      let (sent, s) := signalSendTask s (some t) sig
      let (others, s) := sendMembers s pgid sig rest
      (sent matches .ok () || others, s)
    else sendMembers s pgid sig rest

/-- Sends a signal to a process group. -/
def signalSendPgrp (s : State) (pgid sig : Nat) : Except Errno Unit × State :=
  if pgid = 0 || !signalValid sig then (.error .einval, s)
  else
    let (delivered, s) := sendMembers s pgid sig (List.range s.sched.taskCount)
    (if delivered then .ok () else .error .esrch, s)

/-- Whether the last task of a process is ending. -/
def lastThread (s : State) (t : Nat) : Bool := Sched.procRefcount s.sched t = 1

/-- Ends a task, with the requests of the clean-up of other subsystems. -/
def finishExit (s : State) (t : Nat) (code : Int) (cleanup : List Sched.Cleanup) : State :=
  let s := { s with sched := cleanup.foldl Sched.Cleanup.apply (Sched.finishExitBegin s.sched t code) }
  let s := signalTaskExit s t
  let s := if lastThread s t then signalChild s (Sched.parentPidOf s.sched t) else s
  { s with sched := Sched.finishExitEnd s.sched t code }

/-- What a call finds with the current task besides its signals: its mode, its memory and its registers. -/
structure View where
  abiLinux : Bool
  mm : Option Mm
  frame : ExceptionFrame

/-- A task as its signal calls see it. -/
def State.context (s : State) (t : Nat) (view : View) : Context where
  st := s.st (s.slot t)
  actions := s.actions (s.procSlot t)
  isUser := (s.sched.tcb t).isUser
  abiLinux := view.abiLinux
  mm := view.mm
  frame := view.frame

/-- Puts back what a signal call left of the current task. -/
def State.restore (s : State) (t : Nat) (c : Context) : State := (s.setSt t fun _ => c.st).setActions t c.actions

/-- Carries out what a delivery decided for the current task, up to the switch to another one. -/
def settle (s : State) (outcome : Outcome) (cleanup : List Sched.Cleanup) : State :=
  match outcome with
  | .returned | .handler => s
  | .terminated sig => finishExit s s.sched.current (128 + sig) cleanup
  | .stopped _ =>
    let s := signalChild s (s.st (s.slot s.sched.current)).parentPid
    { s with sched := s.sched.setTcb s.sched.current fun tcb => { tcb with state := .blocked } }

/-- Delivers to the current task, up to the switch to another one. -/
def deliver (s : State) (view : View) (cleanup : List Sched.Cleanup) :
    Except Pmm.Halt (Outcome × Context × State) := do
  let (outcome, c) ← signalDeliverPending (s.context s.sched.current view)
  return (outcome, c, settle (s.restore s.sched.current c) outcome cleanup)

/-- The signal of a fault of user code by its exception class. -/
def faultSignal (ec : Nat) : Nat :=
  match ec with
  | 0x20 | 0x24 => 11
  | 0x2C => 8
  | 0x22 | 0x26 => 7
  | _ => 4

/-- Reports a stop of a task once. -/
def signalTaskConsumeStopReport (s : State) (t : Nat) : State :=
  let st := s.st (s.slot t)
  if !st.stopped || st.stopReported then s else s.setSt t fun st => { st with stopReported := true }

/-- What can happen, one atomic section at a time. -/
inductive Op where
  | createTask (priority : UInt8)
  | createUser (priority : UInt8)
  | fork (priority : UInt8)
  | cloneThread (priority : UInt8)
  | exec
  | finishExit (t : Nat) (code : Int) (cleanup : List Sched.Cleanup)
  /-- A section of the scheduler that creates no task, such as blocking in a system call. -/
  | turn (op : Sched.Op)
  | sendTask (task : Option Nat) (sig : Nat)
  | sendPid (pid sig : Nat)
  | sendTgkill (tgid tid sig : Nat)
  | sendPgrp (pgid sig : Nat)
  | sigaction (view : View) (sig : Nat) (act : Option SigAction)
  | sigprocmask (view : View) (how : How) (set : Option (BitVec 64))
  | sigreturn (view : View)
  | deliver (view : View) (cleanup : List Sched.Cleanup)
  | fault (ec : Nat)
  | consumeStopReport (t : Nat)

/-- A call of the scheduler's model inside this one. -/
def lift {α : Type} : Except Sched.Halt α → Except Halt α
  | .ok a => .ok a
  | .error halt => .error (.inr halt)

/-- A call of the memory model inside this one. -/
def liftMemory {α : Type} : Except Pmm.Halt α → Except Halt α
  | .ok a => .ok a
  | .error halt => .error (.inl halt)

/-- The parent that a new user task is given. -/
def newParent (s : Sched.State) : Nat := if (s.tcb s.current).isUser then Sched.tgidOf s s.current else 0

/-- Carries out one section. -/
def exec (s : State) : Op → Except Halt State
  | .createTask priority => do
    let (t, sched) ← lift (Sched.schedTaskCreate s.sched priority)
    return signalTaskInit { s with sched } t 0
  | .createUser priority => do
    let (t, sched) ← lift (Sched.schedTaskCreateUser s.sched priority)
    return signalTaskInit { s with sched } t (newParent s.sched)
  | .fork priority => do
    let (t, sched) ← lift (Sched.schedTaskForkUser s.sched priority)
    return signalTaskFork { s with sched } t sched.current
  | .cloneThread priority => do
    let (t, sched) ← lift (Sched.schedTaskCloneUserThread s.sched priority)
    return signalTaskCloneThread { s with sched } t sched.current
  | .exec => .ok (signalTaskResetForExec s s.sched.current)
  | .finishExit t code cleanup => .ok (finishExit s t code cleanup)
  | .turn op => do
    let sched ← lift (Sched.exec s.sched op)
    return { s with sched }
  | .sendTask task sig => .ok (signalSendTask s task sig).2
  | .sendPid pid sig => .ok (signalSendPid s pid sig).2
  | .sendTgkill tgid tid sig => .ok (signalSendTgkill s tgid tid sig).2
  | .sendPgrp pgid sig => .ok (signalSendPgrp s pgid sig).2
  | .sigaction view sig act =>
    .ok (s.restore s.sched.current (signalSigactionCurrent (s.context s.sched.current view) sig act).2)
  | .sigprocmask view how set =>
    .ok (s.restore s.sched.current (signalSigprocmaskCurrent (s.context s.sched.current view) how set).2)
  | .sigreturn view =>
    .ok (s.restore s.sched.current (signalSigreturnCurrent (s.context s.sched.current view)).2)
  | .deliver view cleanup => do
    let (_, _, s) ← liftMemory (deliver s view cleanup)
    return s
  | .fault ec =>
    .ok (signalSendTgkill s (Sched.tgidOf s.sched s.sched.current) (s.sched.tcb s.sched.current).pid
      (faultSignal ec)).2
  | .consumeStopReport t => .ok (signalTaskConsumeStopReport s t)

/-- Tasks are created and stopped by the sections that keep their signal states, and the tasks meant are those of the pool. -/
def Op.Valid (s : State) : Op → Prop
  | .turn op =>
    op.Valid s.sched ∧
      ¬ (op matches .createTask _ | .createUser _ | .forkUser _ | .cloneThread _ | .stop | .continue _ | .kill _)
  | .finishExit t _ _ | .sendTask (some t) _ | .consumeStopReport t => t < s.sched.taskCount
  | _ => True

end Enlil.Signal
