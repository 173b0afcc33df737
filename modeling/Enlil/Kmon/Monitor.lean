import Enlil.Sched.QueueRuns

/-! Kernel monitors, as `kernel/kmon.c` keeps them over the scheduler. -/

namespace Enlil.Kmon

/-- Number of monitors. -/
def kmonMax : Nat := 64

/-- Number of records of waiting tasks. -/
def kmonMaxWaiters : Nat := 96

/-- Number of conditions of a monitor. -/
def kmonMaxCond : Nat := 8

def kmonHoare : UInt32 := 1
def kmonMesa : UInt32 := 2
def kmonRt : UInt32 := 4

/-- The errors the monitor calls return. -/
inductive Errno where
  | eperm
  | einval
  | enoent
  | ebusy
  | enospc
  | eintr
  | etimedout
  deriving DecidableEq, Repr

/-- The kind of queue a record of a waiting task is in. -/
inductive QueueKind where
  | none
  | enter
  | cond
  | urgent
  deriving DecidableEq, Repr

/-- A queue of a monitor. -/
inductive Queue where
  | enter
  | urgent
  | cond (i : Nat)
  deriving DecidableEq, Repr

/-- The record of a task that waits; `granted` tells that it was woken with the lock. -/
structure Waiter where
  active : Bool
  queueKind : QueueKind
  condIdx : Nat
  granted : Bool
  task : Nat
  mon : Nat

/-- A monitor; each queue is the chain of its records from the head to the tail. -/
structure Monitor where
  active : Bool
  handle : UInt32
  owner : Option Nat
  prioCeiling : UInt32
  entryCount : Nat
  flags : UInt32
  queue : Queue → List Nat

def Waiter.clear : Waiter := ⟨false, .none, 0, false, 0, 0⟩

def Monitor.clear : Monitor := ⟨false, 0, none, 0, 0, 0, fun _ => []⟩

/-- The calls that a task makes on a monitor. -/
inductive Call where
  | enter
  | exit
  | wait
  | signal
  | broadcast
  deriving DecidableEq, Repr

/-- How a call ends that has got the lock: an entry, or a wait with the reason why it ended early. -/
inductive Outcome where
  | entered
  | waited (reason : Option Errno)
  deriving DecidableEq, Repr

def Outcome.call : Outcome → Call
  | .entered => .enter
  | .waited _ => .wait

def Outcome.error : Outcome → Option Errno
  | .entered => none
  | .waited reason => reason

/-- How an entry ends that belongs to a wait, if there is a reason, or is a call of its own. -/
def outcomeOf : Option Errno → Outcome
  | none => .entered
  | some reason => .waited (some reason)

/--
Where a task is in its call, between two sections.

It is in one of the three loops, or about to block, or about to enter the section that ends a loop.
The reason carried by an entry is that of the wait it belongs to, if it belongs to one.
-/
inductive Place where
  | idle
  | entering (w mon : Nat) (within : Option Errno)
  | blocking (w mon : Nat) (within : Option Errno)
  | polling (w mon : Nat)
  | interrupting (w mon : Nat)
  | waiting (w mon : Nat) (handle : UInt32) (forever : Bool)
  | givingUp (w mon : Nat) (handle : UInt32) (reason : Errno)
  | reentering (handle : UInt32) (reason : Errno)
  | taking (w mon : Nat) (outcome : Outcome)
  deriving DecidableEq

/-- A call that has just returned, with the monitor it was about. -/
structure Return where
  task : Nat
  call : Call
  mon : Option Nat
  error : Option Errno
  deriving DecidableEq

/--
The static data of the monitors, the scheduler and where each task is in its call.

There is also what the tasks know: which monitors each is inside of, and which call has just returned.
-/
structure State where
  sched : Sched.State
  pool : Nat → Monitor
  waiters : Nat → Waiter
  nextHandle : UInt32
  place : Nat → Place
  inside : Nat → Nat → Bool
  returned : Option Return

/-- The ways in which a step does not come to an end. -/
inductive Halt where
  | panic (message : String)
  | sched (halt : Sched.Halt)
  | elsewhere
  deriving DecidableEq

def State.setMon (k : State) (slot : Nat) (change : Monitor → Monitor) : State :=
  { k with pool := Function.update k.pool slot (change (k.pool slot)) }

def State.setWaiter (k : State) (w : Nat) (change : Waiter → Waiter) : State :=
  { k with waiters := Function.update k.waiters w (change (k.waiters w)) }

def State.go (k : State) (t : Nat) (place : Place) : State := { k with place := Function.update k.place t place }

/-- A task gets to know that it is inside a monitor, or outside. -/
def State.setInside (k : State) (t slot : Nat) (inside : Bool) : State :=
  { k with inside := Function.update k.inside t (Function.update (k.inside t) slot inside) }

/-- A call returns. -/
def State.returns (k : State) (t : Nat) (call : Call) (mon : Option Nat) (error : Option Errno) : State :=
  { k.go t .idle with returned := some ⟨t, call, mon, error⟩ }

/-- Finds a monitor by its handle. -/
def find (k : State) (handle : UInt32) : Option Nat :=
  (List.range kmonMax).find? fun i => (k.pool i).active && (k.pool i).handle = handle

/-- Takes the first free slot for a monitor. -/
def alloc (k : State) : Option (Nat × State) :=
  match (List.range kmonMax).find? fun i => !(k.pool i).active with
  | none => none
  | some slot =>
    some (slot,
      { k.setMon slot fun _ => { Monitor.clear with active := true, handle := k.nextHandle } with
        nextHandle := if k.nextHandle + 1 = 0 then 1 else k.nextHandle + 1 })

/-- Takes the first free record for a waiting task. -/
def waiterAlloc (k : State) (slot task : Nat) (queueKind : QueueKind) (condIdx : Nat) : Option (Nat × State) :=
  match (List.range kmonMaxWaiters).find? fun w => !(k.waiters w).active with
  | none => none
  | some w => some (w, k.setWaiter w fun _ => ⟨true, queueKind, condIdx, false, task, slot⟩)

def waiterFree (k : State) (w : Nat) : State := k.setWaiter w fun _ => Waiter.clear

/-- The queue that a record says it is in. -/
def Waiter.queueIn (waiter : Waiter) : Option Queue :=
  match waiter.queueKind with
  | .enter => some .enter
  | .urgent => some .urgent
  | .cond => if waiter.condIdx < kmonMaxCond then some (.cond waiter.condIdx) else none
  | .none => none

def Monitor.setQueue (mon : Monitor) (q : Queue) (records : List Nat) : Monitor :=
  { mon with queue := Function.update mon.queue q records }

def pushTail (k : State) (slot : Nat) (q : Queue) (w : Nat) : State :=
  k.setMon slot fun mon => mon.setQueue q (mon.queue q ++ [w])

def queueRemove (k : State) (slot : Nat) (q : Option Queue) (w : Nat) : State :=
  match q with
  | some q => k.setMon slot fun mon => mon.setQueue q ((mon.queue q).erase w)
  | none => k

/-- The most urgent priority of the tasks in a queue, or the one there was before. -/
def bestPrio (k : State) (best : UInt8) (queue : List Nat) : UInt8 :=
  queue.foldl (fun best w =>
    if k.sched.effPrio (k.waiters w).task < best then k.sched.effPrio (k.waiters w).task else best) best

/-- The priority that a monitor lends to its owner; the least urgent one stands for none. -/
def lentPrio (k : State) (mon : Monitor) : UInt8 :=
  bestPrio k (bestPrio k (if mon.prioCeiling ≠ 0 then mon.prioCeiling.toUInt8 else 0xFF) (mon.queue .enter))
    (mon.queue .urgent)

/-- The scheduler after a monitor has lent a priority to its owner. -/
def lend (k : State) (slot : Nat) : Sched.State :=
  match (k.pool slot).owner with
  | none => k.sched
  | some owner =>
    if (k.pool slot).flags &&& kmonRt = 0 then k.sched
    else if lentPrio k (k.pool slot) ≠ 0xFF then
      Sched.schedTaskDonatePriority k.sched owner (lentPrio k (k.pool slot))
    else Sched.schedTaskClearDonation k.sched owner

/-- Lends the priority of the most urgent waiter to the owner of a monitor. -/
def refreshOwner (k : State) (slot : Nat) : State := { k with sched := lend k slot }

def assignOwner (k : State) (slot owner : Nat) : State :=
  refreshOwner (k.setMon slot fun mon => { mon with owner := some owner, entryCount := 1 }) slot

/-- Takes the record that the lock goes to next out of its queue. -/
def Monitor.popNext (mon : Monitor) : Option (Nat × Monitor) :=
  match mon.queue .urgent, mon.queue .enter with
  | w :: rest, _ => some (w, mon.setQueue .urgent rest)
  | [], w :: rest => some (w, mon.setQueue .enter rest)
  | [], [] => none

/-- Wakes a task if it is blocked. -/
def wake (k : State) (t : Nat) : State :=
  { k with sched := if (k.sched.tcb t).state = .blocked then Sched.schedUnblock k.sched t else k.sched }

/-- Takes back what a monitor has lent to a task. -/
def takeBack (k : State) (slot t : Nat) : State :=
  { k with
    sched := if (k.pool slot).flags &&& kmonRt ≠ 0 then Sched.schedTaskClearDonation k.sched t else k.sched }

/-- Hands the lock of a monitor to the next task, if one waits for it. -/
def release (k : State) (slot oldOwner : Nat) : State :=
  let k := takeBack k slot oldOwner
  match (k.pool slot).popNext with
  | some (w, mon) =>
    let k := (k.setMon slot fun _ => mon).setWaiter w fun waiter => { waiter with queueKind := .none, granted := true }
    wake (assignOwner k slot (k.waiters w).task) (k.waiters w).task
  | none => k.setMon slot fun mon => { mon with owner := none, entryCount := 0 }

/-- The first section of an entry of the current task. -/
def enterCommon (k : State) (handle : UInt32) (allowInterrupt : Bool) (within : Option Errno) : Except Halt State :=
  let t := k.sched.current
  let outcome := outcomeOf within
  match find k handle with
  | none => .ok (k.returns t outcome.call none (some .enoent))
  | some slot =>
    match (k.pool slot).owner with
    | none => .ok (((assignOwner k slot t).setInside t slot true).returns t outcome.call (some slot) outcome.error)
    | some owner =>
      if owner = t then .error (.panic "kmon: recursive enter")
      else
        match waiterAlloc k slot t .enter 0 with
        | none => .ok (k.returns t outcome.call (some slot) (some .enospc))
        | some (w, k) =>
          let k := refreshOwner (pushTail k slot .enter w) slot
          .ok (k.go t (if !allowInterrupt || !(k.sched.tcb t).isUser then .entering w slot within else .polling w slot))

/-- One pass through the loop of the current task: its tests, made outside of any section. -/
def poll (k : State) (signal expired : Bool) : Except Halt State :=
  let t := k.sched.current
  match k.place t with
  | .entering w slot within =>
    .ok (k.go t (if (k.waiters w).granted then .taking w slot (outcomeOf within) else .blocking w slot within))
  | .polling w slot =>
    .ok (if (k.waiters w).granted then k.go t (.taking w slot .entered)
      else if signal then k.go t (.interrupting w slot)
      else k)
  | .waiting w slot handle forever =>
    .ok (if (k.waiters w).granted then k.go t (.taking w slot (.waited none))
      else if signal then k.go t (.givingUp w slot handle .eintr)
      else if !forever && expired then k.go t (.givingUp w slot handle .etimedout)
      else k)
  | _ => .error .elsewhere

/-- The current task blocks, after a test that did not see the lock. -/
def block (k : State) : Except Halt State :=
  let t := k.sched.current
  match k.place t with
  | .blocking w slot within =>
    match Sched.schedBlock k.sched with
    | some sched => .ok ({ k with sched := sched }.go t (.entering w slot within))
    | none => .error (.sched .spin)
  | _ => .error .elsewhere

/-- The section that the current task is about to enter after its loop. -/
def finish (k : State) : Except Halt State :=
  let t := k.sched.current
  match k.place t with
  | .taking w slot outcome =>
    .ok (((waiterFree k w).setInside t slot true).returns t outcome.call (some slot) outcome.error)
  | .interrupting w slot =>
    let k := if (k.waiters w).active && !(k.waiters w).granted then
        refreshOwner (waiterFree (queueRemove k slot (some .enter) w) w) slot
      else k
    .ok (k.returns t .enter (some slot) (some .eintr))
  | .givingUp w slot handle reason =>
    let k := if (k.waiters w).active && !(k.waiters w).granted then waiterFree (queueRemove k slot (k.waiters w).queueIn w) w else k
    .ok (k.go t (.reentering handle reason))
  | .reentering handle reason => enterCommon k handle false (some reason)
  | _ => .error .elsewhere

/-- The flags of a new monitor, which is of one kind at least. -/
def flagsOf (flags : UInt32) : UInt32 :=
  let flags := if flags ≠ 0 then flags else kmonHoare
  if flags &&& (kmonHoare ||| kmonMesa) = 0 then flags ||| kmonHoare else flags

/-- Creates a monitor. -/
def create (k : State) (prioCeiling flags : UInt32) : Except Errno UInt32 × State :=
  if prioCeiling > 255 then (.error .einval, k)
  else
    match alloc k with
    | none => (.error .enospc, k)
    | some (slot, k) =>
      let k := k.setMon slot fun mon => { mon with prioCeiling := prioCeiling, flags := flagsOf flags }
      (.ok (k.pool slot).handle, k)

/-- A monitor that nobody uses. -/
def Monitor.unused (mon : Monitor) : Bool :=
  mon.owner.isNone && (mon.queue .enter).isEmpty && (mon.queue .urgent).isEmpty &&
    (List.range kmonMaxCond).all fun i => (mon.queue (.cond i)).isEmpty

/-- Destroys a monitor. -/
def destroy (k : State) (handle : UInt32) : Except Errno Unit × State :=
  match find k handle with
  | none => (.error .enoent, k)
  | some slot => if (k.pool slot).unused then (.ok (), k.setMon slot fun _ => Monitor.clear) else (.error .ebusy, k)

/-- The monitor of a handle, if the current task may act inside it. -/
def ownedBy (k : State) (handle : UInt32) : Except Errno Nat :=
  match find k handle with
  | none => .error .enoent
  | some slot =>
    if (k.pool slot).owner ≠ some k.sched.current ∨ (k.pool slot).entryCount = 0 then .error .eperm else .ok slot

/-- Leaves a monitor. -/
def exit (k : State) (handle : UInt32) : State :=
  let t := k.sched.current
  match ownedBy k handle with
  | .error error => k.returns t .exit (find k handle) (some error)
  | .ok slot =>
    let k := (k.setInside t slot false).setMon slot fun mon => { mon with entryCount := 0 }
    (release k slot t).returns t .exit (some slot) none

/-- The first section of a wait for a condition. -/
def wait (k : State) (handle : UInt32) (cond : Nat) (forever : Bool) : State :=
  let t := k.sched.current
  if cond ≥ kmonMaxCond then k.returns t .wait none (some .einval)
  else
    match ownedBy k handle with
    | .error error => k.returns t .wait (find k handle) (some error)
    | .ok slot =>
      match waiterAlloc k slot t .cond cond with
      | none => k.returns t .wait (some slot) (some .enospc)
      | some (w, k) =>
        let k := (pushTail k slot (.cond cond) w).setMon slot fun mon => { mon with entryCount := 0 }
        release ((k.setInside t slot false).go t (.waiting w slot handle forever)) slot t

/-- Lets the task of a record compete for the lock. -/
def enqueue (slot : Nat) (k : State) (w : Nat) : State :=
  pushTail (k.setWaiter w fun waiter => { waiter with queueKind := .enter, granted := false }) slot .enter w

/-- Signals a condition to the first task that waits for it. -/
def signal (k : State) (handle : UInt32) (cond : Nat) : State :=
  let t := k.sched.current
  if cond ≥ kmonMaxCond then k.returns t .signal none (some .einval)
  else
    match ownedBy k handle with
    | .error error => k.returns t .signal (find k handle) (some error)
    | .ok slot =>
      match (k.pool slot).queue (.cond cond) with
      | [] => k.returns t .signal (some slot) none
      | target :: rest =>
        let k := k.setMon slot fun mon => mon.setQueue (.cond cond) rest
        (refreshOwner (enqueue slot k target) slot).returns t .signal (some slot) none

/-- Signals a condition to all the tasks that wait for it; the first of them comes last. -/
def broadcast (k : State) (handle : UInt32) (cond : Nat) : State :=
  let t := k.sched.current
  if cond ≥ kmonMaxCond then k.returns t .broadcast none (some .einval)
  else
    match ownedBy k handle with
    | .error error => k.returns t .broadcast (find k handle) (some error)
    | .ok slot =>
      match (k.pool slot).queue (.cond cond) with
      | [] => k.returns t .broadcast (some slot) none
      | first :: rest =>
        let k := k.setMon slot fun mon => mon.setQueue (.cond cond) []
        (refreshOwner ((rest ++ [first]).foldl (enqueue slot) k) slot).returns t .broadcast (some slot) none

/-- The records of a task that ends. -/
def cleanupWaiter (t : Nat) (k : State) (w : Nat) : State :=
  if (k.waiters w).active && (k.waiters w).task = t then
    let slot := (k.waiters w).mon
    waiterFree (refreshOwner (queueRemove k slot (k.waiters w).queueIn w) slot) w
  else k

/-- The monitors that a task that ends holds. -/
def cleanupOwner (t : Nat) (k : State) (slot : Nat) : State :=
  if (k.pool slot).active ∧ (k.pool slot).owner = some t then
    release (k.setMon slot fun mon => { mon with entryCount := 0 }) slot t
  else k

/-- Forgets a task that ends; it never comes back to a call that it was in. -/
def taskCleanup (k : State) (t : Nat) : State :=
  let k := { k.go t .idle with inside := Function.update k.inside t fun _ => false }
  let k := (List.range kmonMaxWaiters).foldl (cleanupWaiter t) k
  (List.range kmonMax).foldl (cleanupOwner t) k

/-- A step of the current task, the end of a task, or a step of the scheduler. -/
inductive Op where
  | create (prioCeiling flags : UInt32)
  | destroy (handle : UInt32)
  | enter (handle : UInt32)
  | exit (handle : UInt32)
  | wait (handle : UInt32) (cond : Nat) (forever : Bool)
  | signal (handle : UInt32) (cond : Nat)
  | broadcast (handle : UInt32) (cond : Nat)
  | poll (signal expired : Bool)
  | block
  | finish
  | cleanup (t : Nat)
  | turn (op : Sched.Op)

/-- A call that the current task makes when it is in no other. -/
def fromIdle (k : State) (result : Except Halt State) : Except Halt State :=
  if k.place k.sched.current = .idle then result else .error .elsewhere

/-- The steps of the scheduler by which the current task stops to run of its own accord. -/
def stopsItself : Sched.Op → Bool
  | .block | .stop => true
  | _ => false

/-- A step of the scheduler; only a task that is in no call here blocks or stops by itself. -/
def turn (k : State) (op : Sched.Op) : Except Halt State :=
  match Sched.exec k.sched op with
  | .error halt => .error (.sched halt)
  | .ok sched => if stopsItself op then fromIdle k (.ok { k with sched := sched }) else .ok { k with sched := sched }

/-- Takes one step. -/
def perform (k : State) : Op → Except Halt State
  | .create prioCeiling flags => fromIdle k (.ok (create k prioCeiling flags).2)
  | .destroy handle => fromIdle k (.ok (destroy k handle).2)
  | .enter handle => fromIdle k (enterCommon k handle true none)
  | .exit handle => fromIdle k (.ok (exit k handle))
  | .wait handle cond forever => fromIdle k (.ok (wait k handle cond forever))
  | .signal handle cond => fromIdle k (.ok (signal k handle cond))
  | .broadcast handle cond => fromIdle k (.ok (broadcast k handle cond))
  | .poll signal expired => poll k signal expired
  | .block => block k
  | .finish => finish k
  | .cleanup t => .ok (taskCleanup k t)
  | .turn op => turn k op

/-- Takes one step, after which at most its own return is the last one. -/
def exec (k : State) (op : Op) : Except Halt State := perform { k with returned := none } op

/-- The monitors after their start. -/
def kmonInit : State where
  sched := Sched.schedInit
  pool := fun _ => Monitor.clear
  waiters := fun _ => Waiter.clear
  nextHandle := 1
  place := fun _ => .idle
  inside := fun _ _ => false
  returned := none

end Enlil.Kmon
