import Mathlib

/-! Tasks, processes and run queues, as `kernel/sched.c` keeps them. -/

namespace Enlil.Sched

/-- Size of the static task pool. -/
def schedMaxTasks : Nat := 96

/-- Ticks of a time slice. -/
def schedTickQuantum : UInt8 := 10

/-- Priority of the kernel task. -/
def prioKernel : UInt8 := 0

/-- Priority of the idle task. -/
def prioIdle : UInt8 := 255

/-- The state of a task control block. -/
inductive TaskState where
  | running
  | ready
  | blocked
  | zombie
  deriving DecidableEq, Repr

/-- A task control block, with the parts of the task's context that the scheduler decides by. -/
structure Tcb where
  pid : Nat
  priority : UInt8
  state : TaskState
  ticksLeft : UInt8
  deadlineMs : Nat
  isIdle : Bool
  isThread : Bool
  isRt : Bool
  donatedPriority : UInt8
  isUser : Bool
  procSlot : Nat
  exitCode : Int
  stopped : Bool
  stopReported : Bool

/-- The context that the tasks of one process share. -/
structure Proc where
  inUse : Bool
  tgid : Nat
  parentPid : Nat
  pgid : Nat
  refcount : Nat
  waitable : Bool
  waitExitCode : Int
  groupExiting : Bool
  groupExitCode : Int

/--
The scheduler's static data.

A run queue is the chain of tasks from its head to its tail, and tasks are named by their place in the pool.
-/
structure State where
  tcb : Nat → Tcb
  taskCount : Nat
  nextPid : Nat
  procs : Nat → Proc
  readyBitmap : Nat → BitVec 64
  runQueue : UInt8 → List Nat
  current : Nat
  needResched : Bool

/-- Changes one task. -/
def State.setTcb (s : State) (t : Nat) (change : Tcb → Tcb) : State :=
  { s with tcb := Function.update s.tcb t (change (s.tcb t)) }

/-- Changes one process. -/
def State.setProc (s : State) (slot : Nat) (change : Proc → Proc) : State :=
  { s with procs := Function.update s.procs slot (change (s.procs slot)) }

/-- The priority a task runs at: its own or a more urgent one donated to it. -/
def effPrioOf (t : Tcb) : UInt8 := if t.donatedPriority < t.priority then t.donatedPriority else t.priority

/-- The effective priority of a task of the pool. -/
def State.effPrio (s : State) (t : Nat) : UInt8 := effPrioOf (s.tcb t)

/-- Sets the bit of a priority. -/
def bitmapSet (bitmap : Nat → BitVec 64) (prio : UInt8) : Nat → BitVec 64 :=
  Function.update bitmap (prio.toNat / 64) (bitmap (prio.toNat / 64) ||| 1#64 <<< (prio.toNat % 64))

/-- Clears the bit of a priority. -/
def bitmapClear (bitmap : Nat → BitVec 64) (prio : UInt8) : Nat → BitVec 64 :=
  Function.update bitmap (prio.toNat / 64) (bitmap (prio.toNat / 64) &&& ~~~(1#64 <<< (prio.toNat % 64)))

/-- The bit of a priority. -/
def bitmapBit (bitmap : Nat → BitVec 64) (prio : Nat) : Bool := (bitmap (prio / 64)).getLsbD (prio % 64)

/-- Number of zero bits below the lowest set bit of a word that is not zero. -/
def ctz (word : BitVec 64) : Nat := (List.range 64).findIdx fun i => word.getLsbD i

/-- The most urgent priority with a set bit. -/
def bitmapFindFirst (bitmap : Nat → BitVec 64) : Option Nat :=
  (List.range 4).findSome? fun w => if bitmap w ≠ 0 then some (w * 64 + ctz (bitmap w)) else none

/-- Appends a task to the run queue of its effective priority. -/
def rqPush (s : State) (t : Nat) : State :=
  let p := s.effPrio t
  { s with
    runQueue := Function.update s.runQueue p (s.runQueue p ++ [t])
    readyBitmap := bitmapSet s.readyBitmap p }

/-- Replaces a run queue, and clears its bit when nothing is left in it. -/
def setQueue (s : State) (p : UInt8) (queue : List Nat) : State :=
  { s with
    runQueue := Function.update s.runQueue p queue
    readyBitmap := if queue = [] then bitmapClear s.readyBitmap p else s.readyBitmap }

/-- Takes the first task out of a run queue. -/
def rqPop (s : State) (p : UInt8) : Option Nat × State :=
  match s.runQueue p with
  | [] => (none, s)
  | t :: rest => (some t, setQueue s p rest)

/-- Takes a task out of a run queue, if it is there. -/
def rqRemove (s : State) (t : Nat) (p : UInt8) : State :=
  if t ∈ s.runQueue p then setQueue s p ((s.runQueue p).erase t) else s

/-- Asks for a reschedule when a task is more urgent than the current one. -/
def preemptIfUrgent (s : State) (t : Nat) : State :=
  if s.effPrio t < s.effPrio s.current then { s with needResched := true } else s

/-- Number of entries in all run queues. -/
def State.linked (s : State) : Nat :=
  ((List.range 256).map fun p => (s.runQueue (UInt8.ofNat p)).length).sum

/--
Takes the next task to run out of the queues, dropping stale entries.

The loop of the code has no bound; it spins forever when a bit is set over an empty queue, and gives nothing here then.
-/
def pickNext (prev : Nat) : Nat → State → Option (Option Nat × State)
  | 0, _ => none
  | fuel + 1, s =>
    match bitmapFindFirst s.readyBitmap with
    | none => some (none, s)
    | some p =>
      match rqPop s (UInt8.ofNat p) with
      | (none, s') => pickNext prev fuel s'
      | (some next, s') =>
        if next = prev ∨ (s'.tcb next).state ≠ .ready then pickNext prev fuel s' else some (some next, s')

/-- Puts a preempted task back into its queue. -/
def requeuePrev (s : State) : State :=
  if (s.tcb s.current).state = .running then
    rqPush (s.setTcb s.current fun t => { t with state := .ready }) s.current
  else s

/-- Gives a task a new time slice when its own is used up. -/
def refillTicks (t : Tcb) : Tcb := if t.ticksLeft = 0 then { t with ticksLeft := schedTickQuantum } else t

/-- Makes a task the running one. -/
def dispatch (s : State) (next : Nat) : State :=
  let s := (requeuePrev s).setTcb s.current refillTicks
  { s.setTcb next fun t => refillTicks { t with state := .running } with current := next }

/-- Picks the next task and switches to it. -/
def scheduleLocked (s : State) : Option State :=
  match pickNext s.current (s.linked + 1) s with
  | none => none
  | some (none, s') => some s'
  | some (some next, s') => some (dispatch s' next)

/-- Picks the next task from kernel code. -/
def schedule (s : State) : Option State := scheduleLocked s

/-- Picks the next task on the way out of an exception, if that was asked for. -/
def scheduleFromException (s : State) : Option State :=
  if s.needResched then scheduleLocked { s with needResched := false } else some s

/-- Gives up the processor. -/
def schedYield (s : State) : Option State :=
  scheduleLocked (s.setTcb s.current fun t => { t with ticksLeft := 0 })

/-- Blocks the current task. -/
def schedBlock (s : State) : Option State :=
  scheduleLocked (s.setTcb s.current fun t => { t with state := .blocked })

/-- Makes a blocked task ready. -/
def schedUnblock (s : State) (t : Nat) : State :=
  if (s.tcb t).state = .blocked then
    preemptIfUrgent
      (rqPush (s.setTcb t fun tcb => { tcb with state := .ready, ticksLeft := schedTickQuantum }) t) t
  else s

/-- The first part of stopping the current task by a signal: it is marked, and still runs. -/
def signalStopCurrent (s : State) : State :=
  s.setTcb s.current fun t => { t with state := .blocked, stopped := true, stopReported := false }

/-- Lets a stopped task go on, or keeps it from stopping. -/
def signalContinue (s : State) (t : Nat) : State :=
  if (s.tcb t).state = .zombie then s
  else schedUnblock (s.setTcb t fun tcb => { tcb with stopped := false, stopReported := false }) t

/-- Wakes a stopped task that is to be killed. -/
def signalKill (s : State) (t : Nat) : State :=
  if (s.tcb t).stopped ∧ (s.tcb t).state = .blocked then
    schedUnblock (s.setTcb t fun tcb => { tcb with stopped := false }) t
  else s

/-- The timer interrupt, which may also find an interval timer expired. -/
def schedTick (s : State) (jiffies : Nat) (timerExpired : Bool) : State :=
  let s := s.setTcb s.current fun t => { t with ticksLeft := if t.ticksLeft > 0 then t.ticksLeft - 1 else 0 }
  let t := s.tcb s.current
  let overrun := t.deadlineMs > 0 && jiffies > t.deadlineMs && !t.isIdle
  if t.ticksLeft = 0 || overrun || timerExpired then { s with needResched := true } else s

/-- Moves a ready task to the queue of a priority that has changed. -/
def requeue (s : State) (t : Nat) (oldEff : UInt8) : State :=
  if s.effPrio t ≠ oldEff ∧ (s.tcb t).state = .ready then rqPush (rqRemove s t oldEff) t else s

/-- Lends a task a more urgent priority. -/
def schedTaskDonatePriority (s : State) (t : Nat) (prio : UInt8) : State :=
  let oldEff := s.effPrio t
  let s := s.setTcb t fun tcb =>
    if tcb.donatedPriority = 0xFF ∨ prio < tcb.donatedPriority then { tcb with donatedPriority := prio } else tcb
  let s := requeue s t oldEff
  if t ≠ s.current then preemptIfUrgent s t else s

/-- Takes back what was lent to a task. -/
def schedTaskClearDonation (s : State) (t : Nat) : State :=
  let oldEff := s.effPrio t
  let s := s.setTcb t fun tcb => { tcb with donatedPriority := 0xFF }
  let s := requeue s t oldEff
  if t = s.current then
    match bitmapFindFirst s.readyBitmap with
    | some highest => if highest < (s.effPrio t).toNat then { s with needResched := true } else s
    | none => s
  else preemptIfUrgent s t

end Enlil.Sched
