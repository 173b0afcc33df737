import Enlil.Lib.LinkedQueue
import Enlil.Sched.Task

/-! The futex wait queues, as `kernel/futex.c` links them through the records of the tasks. -/

namespace Enlil.Futex

open Sched (schedMaxTasks)

/-- Number of wait queues. -/
def futexBucketCount : Nat := 256

/-- A task, by its place in the task pool; its wait record has the same place. -/
abbrev Task := Fin schedMaxTasks

/-- A wait queue, by its place in the table. -/
abbrev Bucket := Fin futexBucketCount

/-- What a task waits on: a word of the memory of a process. -/
structure Key where
  procSlot : UInt32
  uaddr : UInt64
  deriving DecidableEq

/-- The wait record of a task. -/
structure Waiter where
  next : Option Task
  task : Option Task
  key : Key
  queued : Bool
  woken : Bool

/-- The wait queues and the wait records. -/
structure Table where
  head : Bucket → Option Task
  tail : Bucket → Option Task
  waiters : Task → Waiter

/-- The queue of a word. -/
def futexHash (key : Key) : Bucket :=
  ⟨((key.uaddr >>> 2) ^^^ (key.procSlot.toUInt64 * 131)).toNat % futexBucketCount, Nat.mod_lt _ (by decide)⟩

/-- The links between the wait records. -/
def Table.links (t : Table) : Task → Option Task := fun w => (t.waiters w).next

/-- Replaces one wait record. -/
def Table.setWaiter (t : Table) (w : Task) (change : Waiter → Waiter) : Table :=
  { t with waiters := Function.update t.waiters w (change (t.waiters w)) }

/-- Replaces the links. -/
def Table.setLinks (t : Table) (next : Task → Option Task) : Table :=
  { t with waiters := fun w => { t.waiters w with next := next w } }

/-- A waiter is queued for a word. -/
def futexWaiterMatches (waiter : Waiter) (key : Key) : Bool := waiter.queued && waiter.key = key

/-- An unused wait record. -/
def futexWaiterReset : Waiter := ⟨none, none, ⟨0, 0⟩, false, false⟩

/-- Takes a waiter out of a queue, given the one before it. -/
def Table.unlink (t : Table) (b : Bucket) (prev : Option Task) (cur : Task) : Table :=
  { t.setLinks (unlinkNext t.links prev cur) with
    head := Function.update t.head b (unlinkHead t.links (t.head b) prev cur)
    tail := Function.update t.tail b (unlinkTail (t.tail b) prev cur) }

/-- Puts a waiter at the end of a queue. -/
def Table.link (t : Table) (b : Bucket) (w : Task) : Table :=
  match t.head b with
  | none =>
    { t.setLinks (Function.update t.links w none) with
      head := Function.update t.head b (some w)
      tail := Function.update t.tail b (some w) }
  | some _ => { t.setLinks (appendNext t.links (t.tail b) w) with tail := Function.update t.tail b (some w) }

/-- Puts a waiter at the end of a queue and marks it as queued. -/
def futexBucketAppend (b : Bucket) (w : Task) (t : Table) : Table :=
  (t.link b w).setWaiter w fun waiter => { waiter with queued := true }

/-- Looks for a waiter in a queue and takes it out. -/
def removeLoop (b : Bucket) (w : Task) : Nat → Table → Option Task → Option Task → Option Table
  | 0, _, _, _ => none
  | _ + 1, t, _, none => some t
  | fuel + 1, t, prev, some cur =>
    if cur = w then some ((t.unlink b prev cur).setWaiter w fun waiter => { waiter with queued := false })
    else removeLoop b w fuel t (some cur) (t.waiters cur).next

/-- Takes a waiter out of a queue. -/
def futexBucketRemove (b : Bucket) (w : Task) (t : Table) : Option Table :=
  removeLoop b w (schedMaxTasks + 1) t none (t.head b)

/-- Takes waiters for a word out of their queue, as many as asked for, and lists their tasks. -/
def wakeLoop (key : Key) (count : Nat) : Nat → Table → Option Task → Option Task → List (Option Task) →
    Option (List (Option Task) × Table)
  | 0, _, _, _, _ => none
  | _ + 1, t, _, none, woken => some (woken, t)
  | fuel + 1, t, prev, some cur, woken =>
    if woken.length < count then
      if futexWaiterMatches (t.waiters cur) key then
        wakeLoop key count fuel
          ((t.unlink (futexHash key) prev cur).setWaiter cur fun waiter => { waiter with queued := false, woken := true })
          prev (t.waiters cur).next (woken ++ [(t.waiters cur).task])
      else wakeLoop key count fuel t (some cur) (t.waiters cur).next woken
    else some (woken, t)

/-- Wakes waiters of a word in the order in which they came. -/
def futexWakeKeyLocked (key : Key) (count : Nat) (t : Table) : Option (List (Option Task) × Table) :=
  wakeLoop key count (2 * schedMaxTasks + 1) t none (t.head (futexHash key)) []

/-- Takes waiters for a word out of their queue, and puts more of them at the end of the queue of another word. -/
def requeueLoop (key : Key) (wakeCount requeueCount : Nat) (uaddr2 : UInt64) :
    Nat → Table → Option Task → Option Task → List (Option Task) → Nat → Option (List (Option Task) × Nat × Table)
  | 0, _, _, _, _, _ => none
  | _ + 1, t, _, none, woken, moved => some (woken, moved, t)
  | fuel + 1, t, prev, some cur, woken, moved =>
    if woken.length < wakeCount ∨ moved < requeueCount then
      if !futexWaiterMatches (t.waiters cur) key then
        requeueLoop key wakeCount requeueCount uaddr2 fuel t (some cur) (t.waiters cur).next woken moved
      else if woken.length < wakeCount then
        requeueLoop key wakeCount requeueCount uaddr2 fuel
          ((t.unlink (futexHash key) prev cur).setWaiter cur fun waiter => { waiter with queued := false, woken := true })
          prev (t.waiters cur).next (woken ++ [(t.waiters cur).task]) moved
      else if moved < requeueCount ∧ uaddr2 ≠ key.uaddr then
        requeueLoop key wakeCount requeueCount uaddr2 fuel
          (((t.unlink (futexHash key) prev cur).setWaiter cur fun waiter =>
            { waiter with key := { waiter.key with uaddr := uaddr2 } }).link (futexHash { key with uaddr := uaddr2 }) cur)
          prev (t.waiters cur).next woken (moved + 1)
      else requeueLoop key wakeCount requeueCount uaddr2 fuel t (some cur) (t.waiters cur).next woken moved
    else some (woken, moved, t)

/-- Wakes some waiters of a word and moves some more to another word. -/
def futexRequeueKeyLocked (key : Key) (wakeCount requeueCount : Nat) (uaddr2 : UInt64) (t : Table) :
    Option (List (Option Task) × Nat × Table) :=
  requeueLoop key wakeCount requeueCount uaddr2 (2 * schedMaxTasks + 1) t none (t.head (futexHash key)) [] 0

/-- The queues at boot. -/
def futexInit : Table := ⟨fun _ => none, fun _ => none, fun _ => futexWaiterReset⟩

/-- Follows links for some steps. -/
def walk (next : Task → Option Task) : Nat → Option Task → List Task
  | 0, _ => []
  | _ + 1, none => []
  | fuel + 1, some w => w :: walk next fuel (next w)

/-- The waiters of a queue in order. -/
def Table.bucketList (t : Table) (b : Bucket) : List Task := walk t.links schedMaxTasks (t.head b)

/-- The waiters of a word in order. -/
def Table.waitersOf (t : Table) (key : Key) : List Task :=
  (t.bucketList (futexHash key)).filter fun w => (t.waiters w).key = key

/-- The queues have given waiters: each queued task once, in the queue of its word. -/
structure Holds (t : Table) (lists : Bucket → List Task) : Prop where
  linked : ∀ b, Linked t.links (t.head b) (t.tail b) (lists b)
  member : ∀ b w, w ∈ lists b ↔ (t.waiters w).queued = true ∧ futexHash (t.waiters w).key = b
  own : ∀ w, (t.waiters w).queued = true → (t.waiters w).task = some w

/-- Each task is queued at most once, in the queue of its word. -/
def Sound (t : Table) : Prop := Holds t t.bucketList

end Enlil.Futex
