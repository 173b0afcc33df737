import Enlil.Fd.Objects

/-! The locks on files of `kernel/syscall.c`: their holders, and the calls that wait for them. -/

namespace Enlil.Flock

open Fd (schedMaxTasks maxFd)

def flockMaxLocks : Nat := 32
def flockMaxHolders : Nat := 16
def flockMaxWaiters : Nat := schedMaxTasks

inductive Errno where
  | eintr
  | eagain
  | enomem
  | ebusy
  | einval
  | edeadlk
  deriving DecidableEq

/-- What locks look at in an open file: whether it is one of a file system, and which. -/
structure LockObject where
  isFile : Bool
  mount : Option Nat
  nodeId : UInt32
  path : List UInt8

inductive WakeReason where
  | none
  | lock
  | intr
  deriving DecidableEq

/-- A lock on a file, with the open files that hold it. -/
structure FlockEntry where
  inUse : Bool
  exclusive : Bool
  mount : Option Nat
  nodeId : UInt32
  path : List UInt8
  holders : List Nat
  waitHead : Option Nat
  waitTail : Option Nat

/-- An entry after it was cleared. -/
def FlockEntry.zero : FlockEntry := ⟨false, false, none, 0, [], [], none, none⟩

structure FlockWaiter where
  inUse : Bool
  active : Bool
  exclusive : Bool
  wakeReason : WakeReason
  task : Nat
  obj : Nat
  entry : Nat
  next : Option Nat
  deriving DecidableEq

/-- A waiter after it was cleared. -/
def FlockWaiter.zero : FlockWaiter := ⟨false, false, false, .none, 0, 0, 0, none⟩

structure Locks where
  flockTable : Nat → FlockEntry
  flockWaiters : Nat → FlockWaiter

def Locks.setEntry (l : Locks) (e : Nat) (entry : FlockEntry) : Locks :=
  { l with flockTable := Function.update l.flockTable e entry }

def Locks.setWaiter (l : Locks) (w : Nat) (waiter : FlockWaiter) : Locks :=
  { l with flockWaiters := Function.update l.flockWaiters w waiter }

/-- The first waiter of a task. -/
def flockWaiterFindTask (l : Locks) (task : Nat) : Option Nat :=
  (List.range flockMaxWaiters).find? fun w => (l.flockWaiters w).inUse && (l.flockWaiters w).task == task

/-- A waiter for a task; one that the task still has is taken as it is, unless it is queued. -/
def flockWaiterAlloc (l : Locks) (task o e : Nat) (exclusive : Bool) : Option (Nat × Locks) :=
  match flockWaiterFindTask l task with
  | some w => if (l.flockWaiters w).active then none else some (w, l)
  | none =>
    match (List.range flockMaxWaiters).find? fun w => !(l.flockWaiters w).inUse with
    | none => none
    | some w => some (w, l.setWaiter w ⟨true, true, exclusive, .none, task, o, e, none⟩)

def flockWaiterReset (l : Locks) (w : Nat) : Locks := l.setWaiter w .zero

/-- A waiter comes last in the queue of an entry. -/
def flockWaitqPushTail (l : Locks) (e w : Nat) : Locks :=
  let ended := l.setWaiter w { l.flockWaiters w with next := none }
  match (l.flockTable e).waitTail with
  | some last =>
    (ended.setWaiter last { ended.flockWaiters last with next := some w }).setEntry e
      { l.flockTable e with waitTail := some w }
  | none => ended.setEntry e { l.flockTable e with waitHead := some w, waitTail := some w }

/-- A waiter is taken out of the queue of an entry, given the one before it. -/
def unlinkWaiter (l : Locks) (e : Nat) (prev : Option Nat) (cur : Nat) : Locks :=
  let linked := match prev with
    | some prev => l.setWaiter prev { l.flockWaiters prev with next := (l.flockWaiters cur).next }
    | none => l.setEntry e { l.flockTable e with waitHead := (l.flockWaiters cur).next }
  let ended := linked.setEntry e
    { linked.flockTable e with
      waitTail := if (linked.flockTable e).waitTail = some cur then prev else (linked.flockTable e).waitTail }
  ended.setWaiter cur { ended.flockWaiters cur with next := none, active := false }

/-- Looks for a waiter in a queue, and takes it out. -/
def removeLoop (e w : Nat) : Nat → Locks → Option Nat → Option Nat → Locks
  | 0, l, _, _ => l
  | _ + 1, l, _, none => l
  | turns + 1, l, prev, some cur =>
    if cur = w then unlinkWaiter l e prev cur else removeLoop e w turns l (some cur) (l.flockWaiters cur).next

/-- A queue has no more waiters than there are. -/
def flockWaitqRemove (l : Locks) (e w : Nat) : Locks :=
  removeLoop e w (flockMaxWaiters + 1) l none (l.flockTable e).waitHead

/-- The first waiter of an entry is taken out of its queue. -/
def flockWaitqPopHead (l : Locks) (e w : Nat) : Locks :=
  (l.setEntry e
    { l.flockTable e with
      waitHead := (l.flockWaiters w).next
      waitTail := if (l.flockWaiters w).next = none then none else (l.flockTable e).waitTail }).setWaiter w
    { l.flockWaiters w with next := none, active := false }

/-- Clears the waiters that an entry still has. -/
def clearLoop (e : Nat) : Nat → Locks → Locks
  | 0, l => l
  | turns + 1, l =>
    match (l.flockTable e).waitHead with
    | none => l
    | some w => clearLoop e turns (flockWaiterReset (flockWaitqPopHead l e w) w)

def flockEntryClear (l : Locks) (e : Nat) : Locks := (clearLoop e flockMaxWaiters l).setEntry e .zero

def flockObjectSupported (obj : LockObject) : Bool := obj.isFile && (obj.mount.isSome || obj.path ≠ [])

/-- An entry is for a file: one of the same mount and node, or, where one has no mount, of the same path. -/
def flockEntryMatches (entry : FlockEntry) (obj : LockObject) : Bool :=
  entry.inUse &&
    if entry.mount.isSome && obj.mount.isSome then entry.mount = obj.mount && entry.nodeId == obj.nodeId
    else if entry.path ≠ [] && obj.path ≠ [] then entry.path == obj.path
    else false

def flockHolderIndex (entry : FlockEntry) (o : Nat) : Option Nat := entry.holders.findIdx? (· == o)

def flockFindEntry (l : Locks) (obj : LockObject) : Option Nat :=
  (List.range flockMaxLocks).find? fun e => flockEntryMatches (l.flockTable e) obj

def flockAllocEntry (l : Locks) (obj : LockObject) : Option (Nat × Locks) :=
  if !flockObjectSupported obj then none
  else
    ((List.range flockMaxLocks).find? fun e => !(l.flockTable e).inUse).map fun e =>
      (e, l.setEntry e ⟨true, false, obj.mount, obj.nodeId, if obj.mount.isSome then [] else obj.path, [], none, none⟩)

def flockDropHolder (entry : FlockEntry) (idx : Nat) : FlockEntry :=
  { entry with
    holders := entry.holders.eraseIdx idx
    exclusive := entry.exclusive && !decide (1 < (entry.holders.eraseIdx idx).length) }

/-- The first waiter of an entry gets the lock, beside those that hold it already. -/
def grant (l : Locks) (e w : Nat) (holders : List Nat) : Locks :=
  let popped := flockWaitqPopHead l e w
  (popped.setEntry e
    { popped.flockTable e with
      holders := holders ++ [(l.flockWaiters w).obj], exclusive := (l.flockWaiters w).exclusive }).setWaiter w
    { popped.flockWaiters w with wakeReason := .lock }

/-- The waiters of an entry get the lock one after the other: one that wants it for itself, or those that share it. -/
def wakeLoop (e : Nat) : Nat → Locks → Locks
  | 0, l => l
  | turns + 1, l =>
    match (l.flockTable e).waitHead with
    | none => l
    | some w =>
      if (l.flockWaiters w).exclusive then grant l e w []
      else if flockMaxHolders ≤ (l.flockTable e).holders.length then l
      else
        let granted := grant l e w (l.flockTable e).holders
        if ((granted.flockTable e).waitHead).all fun w => (granted.flockWaiters w).exclusive then granted
        else wakeLoop e turns granted

def flockWakeWaiters (l : Locks) (e : Nat) : Locks :=
  if (l.flockTable e).inUse = false ∨ (l.flockTable e).holders ≠ [] then l else wakeLoop e schedMaxTasks l

/-- A holder of an entry gives the lock up, and those that wait get it. -/
def flockGiveUp (l : Locks) (e idx : Nat) : Locks :=
  let woken := flockWakeWaiters (l.setEntry e (flockDropHolder (l.flockTable e) idx)) e
  if (woken.flockTable e).holders = [] ∧ (woken.flockTable e).waitHead = none then flockEntryClear woken e else woken

/-- An object gives up the lock of an entry, if it holds it. -/
def flockReleaseEntry (o : Nat) (l : Locks) (e : Nat) : Locks :=
  if (l.flockTable e).inUse = false then l
  else
    match flockHolderIndex (l.flockTable e) o with
    | none => l
    | some idx => flockGiveUp l e idx

def flockReleaseObject (l : Locks) (o : Nat) : Locks := (List.range flockMaxLocks).foldl (flockReleaseEntry o) l

def flockUnlockObject (l : Locks) (obj : LockObject) (o : Nat) : Locks :=
  match flockFindEntry l obj with
  | none => l
  | some e => flockReleaseEntry o l e

/-- Tries to get the lock of an entry for an object. -/
def flockTryLockEntry (l : Locks) (e o : Nat) (exclusive : Bool) : Locks × Except Errno Unit :=
  let entry := l.flockTable e
  let held := (flockHolderIndex entry o).isSome
  if entry.waitHead.isSome && !held then (l, .error .eagain)
  else if exclusive then
    if held then
      if entry.holders.length = 1 then (l.setEntry e { entry with exclusive := true }, .ok ()) else (l, .error .eagain)
    else if entry.holders ≠ [] then (l, .error .eagain)
    else (l.setEntry e { entry with exclusive := true, holders := [o] }, .ok ())
  else if entry.exclusive then
    if held && entry.holders.length = 1 then (l.setEntry e { entry with exclusive := false }, .ok ())
    else (l, .error .eagain)
  else if held then (l, .ok ())
  else if flockMaxHolders ≤ entry.holders.length then (l, .error .enomem)
  else (l.setEntry e { entry with holders := entry.holders ++ [o] }, .ok ())

def flockTryLockObject (l : Locks) (obj : LockObject) (o : Nat) (exclusive : Bool) : Locks × Except Errno Unit :=
  if !flockObjectSupported obj then (l, .error .einval)
  else
    match flockFindEntry l obj with
    | some e => flockTryLockEntry l e o exclusive
    | none =>
      match flockAllocEntry l obj with
      | none => (l, .error .enomem)
      | some (e, l) => (l.setEntry e { l.flockTable e with exclusive, holders := [o] }, .ok ())

/-- What the search for a deadlock looks at beside the locks: the tasks, and the open files of their descriptors. -/
structure Tasks where
  count : Nat
  zombie : Nat → Bool
  procSlot : Nat → Nat
  fdTables : Nat → Nat → Option Nat
  le : count ≤ schedMaxTasks

/-- Whether some descriptor of a task is for an open file. -/
def flockTaskRefsObject (tasks : Tasks) (task o : Nat) : Bool :=
  decide (tasks.procSlot task < schedMaxTasks) &&
    (List.range maxFd).any fun fd => tasks.fdTables (tasks.procSlot task) fd == some o

/-- Whether some holder of a lock is an open file of a live task that a test accepts. -/
def someOwner (tasks : Tasks) (holders : List Nat) (test : Nat → Bool) : Bool :=
  holders.any fun o =>
    (List.range tasks.count).any fun owner => !tasks.zombie owner && flockTaskRefsObject tasks owner o && test owner

/-- The search from a task, with so many levels left. -/
def flockDeadlockReachesTask (l : Locks) (tasks : Tasks) (target : Nat) : Nat → Nat → Bool
  | 0, task => target == task
  | levels + 1, task =>
    target == task ||
      match flockWaiterFindTask l task with
      | none => false
      | some w =>
        (l.flockWaiters w).active &&
          someOwner tasks (l.flockTable (l.flockWaiters w).entry).holders (flockDeadlockReachesTask l tasks target levels)

/-- Whether a wait of a task for an entry would never end. -/
def flockDetectDeadlock (l : Locks) (tasks : Tasks) (current e : Nat) : Bool :=
  someOwner tasks (l.flockTable e).holders (flockDeadlockReachesTask l tasks current schedMaxTasks)

inductive LockMode where
  | sh
  | ex
  | un
  | other
  deriving DecidableEq

/-- What a call comes to: it returns, or its task waits for an entry with a waiter. -/
inductive Outcome where
  | returned (result : Except Errno Unit)
  | waits (e w : Nat)

/-- A call of a task, up to where it may have to wait. -/
def sysFlock (l : Locks) (tasks : Tasks) (task o : Nat) (obj : LockObject) (mode : LockMode) (nonblock : Bool) :
    Locks × Outcome :=
  if !obj.isFile then (l, .returned (.error .einval))
  else
    match mode with
    | .un => (flockUnlockObject l obj o, .returned (.ok ()))
    | .other => (l, .returned (.error .einval))
    | mode =>
      match flockTryLockObject l obj o (mode = .ex) with
      | (l, .ok _) => (l, .returned (.ok ()))
      | (l, .error error) =>
        if error ≠ .eagain then (l, .returned (.error error))
        else if nonblock then (l, .returned (.error .eagain))
        else
          match flockFindEntry l obj with
          | none => (l, .returned (.error .eagain))
          | some e =>
            if flockDetectDeadlock l tasks task e then (l, .returned (.error .edeadlk))
            else
              let l :=
                match flockHolderIndex (l.flockTable e) o with
                | some idx =>
                  if mode = .ex ∧ 1 < (l.flockTable e).holders.length then l.setEntry e (flockDropHolder (l.flockTable e) idx)
                  else l
                | none => l
              match flockWaiterAlloc l task o e (mode = .ex) with
              | none => (l, .returned (.error .ebusy))
              | some (w, l) => (flockWaitqPushTail l e w, .waits e w)

/-- A turn of the loop of a task that waits, which may have a signal. -/
def flockTurn (l : Locks) (e w : Nat) (pending : Bool) : Locks × Outcome :=
  match (l.flockWaiters w).wakeReason with
  | .lock => (flockWaiterReset l w, .returned (.ok ()))
  | .intr => (flockWaiterReset l w, .returned (.error .eintr))
  | .none =>
    if pending then
      (flockWaiterReset (if (l.flockWaiters w).active then flockWaitqRemove l e w else l) w, .returned (.error .eintr))
    else (l, .waits e w)

end Enlil.Flock
