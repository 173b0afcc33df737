import Enlil.Sched.QueueRuns

/-! Kernel semaphores, as `kernel/ksem.c` keeps them over the scheduler. -/

namespace Enlil.Ksem

/-- Number of semaphores. -/
def ksemMax : Nat := 64

/-- Number of records of waiting tasks. -/
def ksemMaxWaiters : Nat := 64

/-- Number of handle records. -/
def ksemMaxHandleRefs : Nat := Sched.schedMaxTasks * 16

/-- Room for a name and its end. -/
def ksemNameMax : Nat := 32

def ksemPrivate : UInt32 := 1
def ksemShared : UInt32 := 2
def ksemRt : UInt32 := 4
def ksemOneshot : UInt32 := 8

/-- The errors the semaphore calls return. -/
inductive Errno where
  | einval
  | enametoolong
  | enoent
  | eexist
  | enospc
  | enfile
  | eagain
  | eintr
  | etimedout
  deriving DecidableEq, Repr

/-- The record of a task that waits for a semaphore; `object` tells which semaphore the slot held then. -/
structure Waiter where
  active : Bool
  granted : Bool
  task : Nat
  sem : Nat
  object : Nat

/-- A semaphore; the queue is the chain of its waiters, and `object` a number that no other semaphore ever has. -/
structure Sem where
  id : Nat
  value : Int
  flags : UInt32
  refcount : Nat
  active : Bool
  named : Bool
  unlinked : Bool
  oneshotFired : Bool
  name : List UInt8
  ownerHint : Option Nat
  queue : List Nat
  object : Nat

/-- A handle of a process. -/
structure Ref where
  active : Bool
  ownerPid : Nat
  handle : Nat
  sem : Nat

def Waiter.clear : Waiter := ⟨false, false, 0, 0, 0⟩

def Sem.clear : Sem := ⟨0, 0, 0, 0, false, false, false, false, [], none, [], 0⟩

def Ref.clear : Ref := ⟨false, 0, 0, 0⟩

/-- Where a task is in a wait: in its loop, or about to enter the section that ends it. -/
inductive Wait where
  | idle
  | looping (w sem : Nat) (forever : Bool)
  | consuming (w sem : Nat)
  | interrupting (w sem : Nat)
  | timingOut (w sem : Nat)
  deriving DecidableEq

/-- What has happened to a semaphore so far. -/
structure Ledger where
  initial : Int
  posts : Nat
  successes : Nat

/-- A semaphore as it was when its slot was freed, with the number of handle records that referred to it. -/
structure Freed where
  sem : Sem
  handles : Nat

/-- The static data of the semaphores, the scheduler, where each task is in its wait, and the history. -/
structure State where
  sched : Sched.State
  pool : Nat → Sem
  waiters : Nat → Waiter
  refs : Nat → Ref
  nextId : Nat
  nextHandle : Nat
  wait : Nat → Wait
  nextObject : Nat
  ledger : Nat → Ledger
  freed : List Freed

def State.setSem (k : State) (slot : Nat) (change : Sem → Sem) : State :=
  { k with pool := Function.update k.pool slot (change (k.pool slot)) }

def State.setWaiter (k : State) (w : Nat) (change : Waiter → Waiter) : State :=
  { k with waiters := Function.update k.waiters w (change (k.waiters w)) }

def State.setRef (k : State) (i : Nat) (change : Ref → Ref) : State :=
  { k with refs := Function.update k.refs i (change (k.refs i)) }

def State.setWait (k : State) (t : Nat) (wait : Wait) : State :=
  { k with wait := Function.update k.wait t wait }

def State.note (k : State) (object : Nat) (change : Ledger → Ledger) : State :=
  { k with ledger := Function.update k.ledger object (change (k.ledger object)) }

/-- The handle records of a semaphore. -/
def State.handles (k : State) (slot : Nat) : Finset Nat :=
  (Finset.range ksemMaxHandleRefs).filter fun i => (k.refs i).active = true ∧ (k.refs i).sem = slot

/-- The process that the handles of a task belong to. -/
def ownerIdFor (s : Sched.State) (t : Nat) : Nat :=
  if !(s.tcb t).isUser then (s.tcb t).pid
  else if Sched.tgidOf s t ≠ 0 then Sched.tgidOf s t else (s.tcb t).pid

/-- The next number after a counter, which skips zero. -/
def bump (n : Nat) : Nat := if (n + 1) % 2 ^ 32 = 0 then 1 else (n + 1) % 2 ^ 32

/-- Compares two names, up to the room there is for one. -/
def nameEqual (a b : List UInt8) : Bool := a.take ksemNameMax = b.take ksemNameMax

/-- Checks that a name can be stored. -/
def nameCopy (name : List UInt8) : Except Errno (List UInt8) :=
  if name = [] then .error .einval
  else if name.length ≥ ksemNameMax then .error .enametoolong
  else .ok name

/-- A semaphore that can be found by its name. -/
def Sem.listed (sem : Sem) : Bool := sem.active && sem.named && !sem.unlinked

/-- Finds a semaphore by its name. -/
def findNamed (k : State) (name : List UInt8) : Option Nat :=
  (List.range ksemMax).find? fun i => (k.pool i).listed && nameEqual (k.pool i).name name

/-- Takes the first free slot for a semaphore. -/
def allocEntry (k : State) : Option (Nat × State) :=
  match (List.range ksemMax).find? fun i => !(k.pool i).active with
  | none => none
  | some slot =>
    some (slot,
      { k.setSem slot fun _ => { Sem.clear with active := true, id := k.nextId, object := k.nextObject } with
        nextId := bump k.nextId
        nextObject := k.nextObject + 1 })

/-- Takes the first free handle record for the current task. -/
def allocRef (k : State) (slot : Nat) : Option (Nat × State) :=
  match (List.range ksemMaxHandleRefs).find? fun i => !(k.refs i).active with
  | none => none
  | some i =>
    let ref : Ref := ⟨true, ownerIdFor k.sched k.sched.current, k.nextHandle, slot⟩
    some (k.nextHandle,
      { (k.setRef i fun _ => ref).setSem slot fun sem => { sem with refcount := (sem.refcount + 1) % 2 ^ 32 } with
        nextHandle := bump k.nextHandle })

/-- Finds the record of a handle. -/
def findRef (k : State) (ownerPid handle : Nat) : Option Nat :=
  (List.range ksemMaxHandleRefs).find? fun i =>
    (k.refs i).active && (k.refs i).ownerPid = ownerPid && (k.refs i).handle = handle

/-- The semaphore that a handle of the current task refers to. -/
def semOf (k : State) (handle : Nat) : Option Nat :=
  match findRef k (ownerIdFor k.sched k.sched.current) handle with
  | none => none
  | some i => if (k.pool (k.refs i).sem).active then some (k.refs i).sem else none

/-- Takes the first free record for a waiting task. -/
def allocWaiter (k : State) (task slot : Nat) : Option (Nat × State) :=
  match (List.range ksemMaxWaiters).find? fun w => !(k.waiters w).active with
  | none => none
  | some w => some (w, k.setWaiter w fun _ => ⟨true, false, task, slot, (k.pool slot).object⟩)

def freeWaiter (k : State) (w : Nat) : State := k.setWaiter w fun _ => Waiter.clear

def waitqPush (k : State) (slot w : Nat) : State := k.setSem slot fun sem => { sem with queue := sem.queue ++ [w] }

def waitqRemove (k : State) (slot w : Nat) : State := k.setSem slot fun sem => { sem with queue := sem.queue.erase w }

def clearDonation (k : State) (t : Nat) : State := { k with sched := Sched.schedTaskClearDonation k.sched t }

/-- The task a semaphore that lends priorities lends to. -/
def Sem.lendsTo (sem : Sem) : Option Nat := if sem.flags &&& ksemRt ≠ 0 then sem.ownerHint else none

/-- The most urgent priority of the waiters of a semaphore. -/
def bestPrio (k : State) (queue : List Nat) : UInt8 :=
  queue.foldl (fun best w =>
    if k.sched.effPrio (k.waiters w).task < best then k.sched.effPrio (k.waiters w).task else best) 0xFF

/-- Lends the priority of the most urgent waiter to the task that holds the semaphore. -/
def updatePi (k : State) (slot : Nat) : State :=
  match (k.pool slot).lendsTo with
  | none => k
  | some owner =>
    if bestPrio k (k.pool slot).queue ≠ 0xFF then
      { k with sched := Sched.schedTaskDonatePriority k.sched owner (bestPrio k (k.pool slot).queue) }
    else clearDonation k owner

/-- A semaphore that works once loses its name when it is used. -/
def markOneshot (sem : Sem) : Sem :=
  if sem.flags &&& ksemOneshot = 0 ∨ sem.oneshotFired then sem
  else { sem with oneshotFired := true, unlinked := true, named := false, name := [] }

def canDestroy (sem : Sem) : Bool :=
  sem.active && sem.queue.isEmpty && sem.refcount = 0 && !(sem.named && !sem.unlinked)

/-- Frees the slot of a semaphore. -/
def destroy (k : State) (slot : Nat) : State :=
  let record : Freed := ⟨k.pool slot, (k.handles slot).card⟩
  let k := match (k.pool slot).lendsTo with
    | none => k
    | some owner => clearDonation k owner
  { k.setSem slot fun _ => Sem.clear with freed := k.freed ++ [record] }

def destroyIfUnused (k : State) (slot : Nat) : State := if canDestroy (k.pool slot) then destroy k slot else k

/-- Gives up a handle record. -/
def dropRef (k : State) (i : Nat) : State :=
  if (k.refs i).active then
    let slot := (k.refs i).sem
    let k := k.setRef i fun _ => Ref.clear
    destroyIfUnused (k.setSem slot fun sem => { sem with refcount := sem.refcount - 1 }) slot
  else k

/-- What the first section of a wait comes to. -/
inductive Start where
  | ok
  | failed (error : Errno)
  | waits
  deriving DecidableEq

/-- Takes a token at once. -/
def takeToken (k : State) (slot : Nat) : State :=
  let t := k.sched.current
  let k := match (k.pool slot).lendsTo with
    | none => k
    | some owner => if owner ≠ t then clearDonation k owner else k
  let k := k.setSem slot fun sem =>
    { sem with
      value := sem.value - 1
      ownerHint := if sem.flags &&& ksemRt ≠ 0 then some t else sem.ownerHint }
  let k := k.note (k.pool slot).object fun ledger => { ledger with successes := ledger.successes + 1 }
  destroyIfUnused ((updatePi k slot).setSem slot markOneshot) slot

/-- The first section of a wait of the current task. -/
def waitStart (k : State) (handle : Nat) (forever tryOnly : Bool) : Start × State :=
  match semOf k handle with
  | none => (.failed .enoent, k)
  | some slot =>
    if (k.pool slot).value > 0 then (.ok, takeToken k slot)
    else if tryOnly then (.failed .eagain, k)
    else
      match allocWaiter k k.sched.current slot with
      | none => (.failed .enospc, k)
      | some (w, k) => (.waits, (updatePi (waitqPush k slot w) slot).setWait k.sched.current (.looping w slot forever))

/-- One pass through the loop of a wait: its tests, made outside of any section. -/
def waitPoll (k : State) (signal expired : Bool) : State :=
  match k.wait k.sched.current with
  | .looping w slot forever =>
    if (k.waiters w).granted then k.setWait k.sched.current (.consuming w slot)
    else if signal then k.setWait k.sched.current (.interrupting w slot)
    else if !forever && expired then k.setWait k.sched.current (.timingOut w slot)
    else k
  | _ => k

/-- Leaves the queue of a semaphore, unless a token has come in the meantime. -/
def giveUp (k : State) (w slot : Nat) : State :=
  if (k.waiters w).active && !(k.waiters w).granted then
    destroyIfUnused (freeWaiter (updatePi (waitqRemove k slot w) slot) w) slot
  else k

/-- The section that ends the wait of the current task, with what the wait returns. -/
def waitFinish (k : State) : Option (Except Errno Unit × State) :=
  let t := k.sched.current
  match k.wait t with
  | .consuming w slot =>
    let k := k.note (k.waiters w).object fun ledger => { ledger with successes := ledger.successes + 1 }
    some (.ok (), (destroyIfUnused (freeWaiter k w) slot).setWait t .idle)
  | .interrupting w slot => some (.error .eintr, (giveUp k w slot).setWait t .idle)
  | .timingOut w slot => some (.error .etimedout, (giveUp k w slot).setWait t .idle)
  | .idle | .looping _ _ _ => none

/-- Gives a token back, to the first waiter if there is one. -/
def post (k : State) (handle : Nat) : Except Errno Unit × State :=
  match semOf k handle with
  | none => (.error .enoent, k)
  | some slot =>
    let k := k.note (k.pool slot).object fun ledger => { ledger with posts := ledger.posts + 1 }
    let k := match (k.pool slot).queue with
      | w :: rest =>
        let next := (k.waiters w).task
        let k := match (k.pool slot).lendsTo with
          | none => k
          | some owner => if owner ≠ next then clearDonation k owner else k
        let k := k.setWaiter w fun waiter => { waiter with granted := true }
        updatePi
          (k.setSem slot fun sem =>
            { sem with
              queue := rest
              ownerHint := if sem.flags &&& ksemRt ≠ 0 then some next else sem.ownerHint }) slot
      | [] =>
        let k := match (k.pool slot).lendsTo with
          | none => k
          | some owner => clearDonation k owner
        k.setSem slot fun sem => { sem with value := (sem.value + 1).bmod (2 ^ 32), ownerHint := none }
    (.ok (), destroyIfUnused (k.setSem slot markOneshot) slot)

/-- Publishes a new semaphore by a first handle, or takes it back. -/
def publish (k : State) (slot : Nat) : Except Errno Nat × State :=
  let k := k.note (k.pool slot).object fun _ => ⟨(k.pool slot).value, 0, 0⟩
  match allocRef k slot with
  | none => (.error .enfile, k.setSem slot fun _ => Sem.clear)
  | some (handle, k) => (.ok handle, k)

/-- Creates a semaphore with a name. -/
def create (k : State) (name : List UInt8) (value flags : UInt32) : Except Errno Nat × State :=
  match findNamed k name with
  | some _ => (.error .eexist, k)
  | none =>
    match allocEntry k with
    | none => (.error .enospc, k)
    | some (slot, k) =>
      match nameCopy name with
      | .error error => (.error error, k.setSem slot fun _ => Sem.clear)
      | .ok name =>
        publish (k.setSem slot fun sem =>
          { sem with
            name := name
            named := true
            flags := (flags &&& ~~~ ksemPrivate) ||| ksemShared
            value := (value.toNat : Int).bmod (2 ^ 32) }) slot

/-- Creates a semaphore without a name. -/
def anon (k : State) (value flags : UInt32) : Except Errno Nat × State :=
  match allocEntry k with
  | none => (.error .enospc, k)
  | some (slot, k) =>
    publish (k.setSem slot fun sem =>
      { sem with
        named := false
        unlinked := true
        flags := (flags ||| ksemPrivate) &&& ~~~ ksemShared
        value := (value.toNat : Int).bmod (2 ^ 32) }) slot

/-- Opens a semaphore by its name. -/
def openNamed (k : State) (name : List UInt8) : Except Errno Nat × State :=
  match findNamed k name with
  | none => (.error .enoent, k)
  | some slot =>
    match allocRef k slot with
    | none => (.error .enfile, k)
    | some (handle, k) => (.ok handle, k)

/-- Closes a handle. -/
def close (k : State) (handle : Nat) : Except Errno Unit × State :=
  match findRef k (ownerIdFor k.sched k.sched.current) handle with
  | none => (.error .enoent, k)
  | some i => (.ok (), dropRef k i)

/-- Takes the name of a semaphore away. -/
def unlink (k : State) (name : List UInt8) : Except Errno Unit × State :=
  match findNamed k name with
  | none => (.error .enoent, k)
  | some slot =>
    (.ok (), destroyIfUnused
      (k.setSem slot fun sem => { sem with unlinked := true, named := false, name := [] }) slot)

/-- The waits of a task that ends. -/
def cleanupWaiter (t : Nat) (k : State) (w : Nat) : State :=
  if (k.waiters w).active && (k.waiters w).task = t then
    let slot := (k.waiters w).sem
    freeWaiter (destroyIfUnused (updatePi (waitqRemove k slot w) slot) slot) w
  else k

/-- The semaphores that a task that ends holds. -/
def cleanupOwner (t : Nat) (k : State) (slot : Nat) : State :=
  if (k.pool slot).active ∧ (k.pool slot).ownerHint = some t then
    let k := if (k.pool slot).flags &&& ksemRt ≠ 0 then clearDonation k t else k
    updatePi (k.setSem slot fun sem => { sem with ownerHint := none }) slot
  else k

/-- The handles of a task that ends, if no other task of its process is left. -/
def cleanupRef (t : Nat) (k : State) (i : Nat) : State :=
  if (k.refs i).active ∧ (k.refs i).ownerPid = ownerIdFor k.sched t ∧
      ((k.sched.tcb t).isUser = false ∨ Sched.procRefcount k.sched t ≤ 1) then dropRef k i
  else k

/-- Forgets a task that ends; it never comes back to a wait that it was in. -/
def taskCleanup (k : State) (t : Nat) : State :=
  let k := (List.range ksemMaxWaiters).foldl (cleanupWaiter t) k
  let k := (List.range ksemMax).foldl (cleanupOwner t) k
  let k := (List.range ksemMaxHandleRefs).foldl (cleanupRef t) k
  k.setWait t .idle

/-- The semaphores after their start. -/
def ksemInit : State where
  sched := Sched.schedInit
  pool := fun _ => Sem.clear
  waiters := fun _ => Waiter.clear
  refs := fun _ => Ref.clear
  nextId := 1
  nextHandle := 1
  wait := fun _ => .idle
  nextObject := 0
  ledger := fun _ => ⟨0, 0, 0⟩
  freed := []

/-- One atomic section, of the scheduler or the semaphores, or one pass through the loop of a wait. -/
inductive Op where
  | turn (op : Sched.Op)
  | create (name : List UInt8) (value flags : UInt32)
  | anon (value flags : UInt32)
  | openNamed (name : List UInt8)
  | close (handle : Nat)
  | unlink (name : List UInt8)
  | post (handle : Nat)
  | wait (handle : Nat) (forever tryOnly : Bool)
  | poll (signal expired : Bool)
  | finish
  | cleanup (t : Nat)

/-- Carries out one step of the current task, or of the exit of any task. -/
def exec (k : State) : Op → Except Sched.Halt State
  | .turn op =>
    match Sched.exec k.sched op with
    | .ok s => .ok { k with sched := s }
    | .error halt => .error halt
  | .create name value flags => .ok (create k name value flags).2
  | .anon value flags => .ok (anon k value flags).2
  | .openNamed name => .ok (openNamed k name).2
  | .close handle => .ok (close k handle).2
  | .unlink name => .ok (unlink k name).2
  | .post handle => .ok (post k handle).2
  | .wait handle forever tryOnly => .ok (waitStart k handle forever tryOnly).2
  | .poll signal expired => .ok (waitPoll k signal expired)
  | .finish =>
    match waitFinish k with
    | some (_, k) => .ok k
    | none => .ok k
  | .cleanup t => .ok (taskCleanup k t)

/-- A task makes one call at a time, and a task that ends is of the pool. -/
def Op.Valid (k : State) : Op → Prop
  | .turn op => op.Valid k.sched
  | .create _ _ _ | .anon _ _ | .openNamed _ | .close _ | .unlink _ | .post _ | .wait _ _ _ =>
    k.wait k.sched.current = .idle
  | .poll _ _ | .finish => True
  | .cleanup t => t < k.sched.taskCount

instance (k : State) (op : Op) : Decidable (op.Valid k) :=
  match op with
  | .turn op => inferInstanceAs (Decidable (op.Valid k.sched))
  | .create _ _ _ | .anon _ _ | .openNamed _ | .close _ | .unlink _ | .post _ | .wait _ _ _ =>
    inferInstanceAs (Decidable (k.wait k.sched.current = .idle))
  | .poll _ _ | .finish => inferInstanceAs (Decidable True)
  | .cleanup t => inferInstanceAs (Decidable (t < k.sched.taskCount))

end Enlil.Ksem
