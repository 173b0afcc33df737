import Enlil.Sysv.Ids

/-! The calls of `kernel/sysv_ipc.c` on shared segments and semaphore sets. -/

namespace Enlil.Sysv

def shmMax : Nat := 64
def shmAttachMax : Nat := 256
def semsetMax : Nat := 32
def semPerSetMax : Nat := 16
def semValueMax : Int := 32767
def maxOrder : Nat := 11
def pageSize : UInt64 := 4096
def pageMask : UInt64 := ~~~(pageSize - 1)

def shmRdonly : UInt32 := 0o10000
def shmRnd : UInt32 := 0o20000
def semGetval : Int := 12
def semSetval : Int := 16

/-- A shared segment. -/
structure ShmSeg where
  pages : UInt32
  attachCount : Nat
  basePa : UInt64
  size : UInt64
  alignedSize : UInt64
  order : Nat

instance : Inhabited ShmSeg := ⟨0, 0, 0, 0, 0, 0⟩

/-- Where a process has attached a segment. -/
structure ShmAttach where
  procSlot : Nat
  segSlot : Nat
  addr : UInt64
  size : UInt64

/-- A set of semaphores. -/
structure SemSet where
  nsems : Nat
  waiterCount : Nat
  values : Nat → Int

instance : Inhabited SemSet := ⟨0, 0, fun _ => 0⟩

/-- One operation of a call on a set. -/
structure SemBuf where
  semNum : UInt16
  semOp : Int16
  semFlg : UInt16

/-- What a task that waits in an operation on a set keeps. -/
structure SemWait where
  slot : Nat
  ops : List SemBuf
  deadlineMs : Option Nat

structure State where
  shm : Slots ShmSeg
  attaches : Nat → Option ShmAttach
  sem : Slots SemSet
  waits : Nat → Option SemWait

/-- The least order of a block that holds the pages. -/
def pagesToOrder (pages : UInt32) : Nat :=
  if pages = 0 then maxOrder else ((List.range maxOrder).find? fun order => pages.toNat ≤ 2 ^ order).getD maxOrder

/-- The segment of a call; the address is what the page allocator returns, zero if it has no block. -/
def shmBody (size pa : UInt64) : Except Errno ShmSeg :=
  let aligned := (size + pageSize - 1) &&& pageMask
  let pages := (aligned / pageSize).toUInt32
  if maxOrder ≤ pagesToOrder pages then .error .enomem
  else if pa = 0 then .error .enomem
  else .ok ⟨pages, 0, pa, size, aligned, pagesToOrder pages⟩

/-- Finds or makes a segment, and returns its slot. -/
def shmgetSlot (s : State) (key : UInt32) (size : UInt64) (flags : UInt32) (pa : UInt64) :
    Except Errno (Slots ShmSeg × Nat) :=
  getSlot shmMax s.shm key flags (fun seg => !(size != 0 && seg.size < size)) (size != 0) (shmBody size pa)

/-- The slot that a call makes a segment in, if it makes one. -/
def shmgetMakes (s : State) (key : UInt32) (size : UInt64) (flags : UInt32) (pa : UInt64) : Option Nat :=
  makes shmMax s.shm key flags (fun seg => !(size != 0 && seg.size < size)) (size != 0) (shmBody size pa)

def shmIdFromSlot (s : State) (slot : Nat) : Int32 := idFromSlot slot (s.shm slot).seq
def shmSlotFromId (s : State) (id : Int32) : Option Nat := slotFromId shmMax s.shm id

/-- Finds or makes a segment, and returns its identifier. -/
def sysvShmget (s : State) (key : UInt32) (size : UInt64) (flags : UInt32) (pa : UInt64) : State × Except Errno Int32 :=
  match shmgetSlot s key size flags pa with
  | .error error => (s, .error error)
  | .ok (shm, slot) => ({ s with shm }, .ok (shmIdFromSlot { s with shm } slot))

/-- Frees a segment that is marked to be deleted once nothing has it attached. -/
def tryFreeShmSlot (s : State) (slot : Nat) : State :=
  { s with shm := tryFree shmMax (fun seg => seg.attachCount != 0) s.shm slot }

/-- Frees a set that is marked to be deleted once nothing waits for it. -/
def tryFreeSemSlot (s : State) (slot : Nat) : State :=
  { s with sem := tryFree semsetMax (fun set => set.waiterCount != 0) s.sem slot }

/-- Writes down where a process attaches a segment. -/
def allocAttachRecord (s : State) (record : ShmAttach) : Option State :=
  ((List.range shmAttachMax).find? fun i => (s.attaches i).isNone).map fun i =>
    { s with attaches := Function.update s.attaches i (some record) }

/-- The first record that a test accepts is removed. -/
def dropAttach (s : State) (test : ShmAttach → Bool) : State :=
  match (List.range shmAttachMax).find? fun i => (s.attaches i).any test with
  | none => s
  | some i => { s with attaches := Function.update s.attaches i none }

def findAttach (s : State) (procSlot : Nat) (addr : UInt64) : Option Nat :=
  (List.range shmAttachMax).find? fun i =>
    (s.attaches i).any fun record => record.procSlot == procSlot && record.addr == addr

/-- The body of a segment is changed in place. -/
def setShm (s : State) (slot : Nat) (f : ShmSeg → ShmSeg) : State :=
  { s with shm := Function.update s.shm slot { s.shm slot with body := f (s.shm slot).body } }

/-- The body of a set is changed in place. -/
def setSem (s : State) (slot : Nat) (f : SemSet → SemSet) : State :=
  { s with sem := Function.update s.sem slot { s.sem slot with body := f (s.sem slot).body } }

/-- The caller of a call: whether it is a user task with a space, and the slot of its process. -/
structure Caller where
  isUser : Bool
  hasSpace : Bool
  procSlot : Nat

/-- Attaches a segment; the last argument is where its pages are mapped, if they can be. -/
def sysvShmatCurrent (s : State) (caller : Caller) (shmid : Int32) (addr : UInt64) (flags : UInt32)
    (mapped : Option UInt64) : State × Except Errno UInt64 :=
  if !caller.isUser then (s, .error .einval)
  else if flags &&& ~~~(shmRdonly ||| shmRnd) ≠ 0 then (s, .error .einval)
  else
    match shmSlotFromId s shmid with
    | none => (s, .error .einval)
    | some slot =>
      let size := (s.shm slot).body.alignedSize
      let attached (s : State) : State := setShm s slot fun seg => { seg with attachCount := seg.attachCount + 1 }
      if (s.shm slot).markedDelete then (s, .error .eidrm)
      else if !caller.hasSpace then (s, .error .einval)
      else if addr ≠ 0 then
        let place := if flags &&& shmRnd ≠ 0 then addr &&& pageMask else addr
        if place &&& (pageSize - 1) ≠ 0 then (s, .error .einval)
        else
          match allocAttachRecord s ⟨caller.procSlot, slot, place, size⟩ with
          | none => (s, .error .enospc)
          | some s =>
            if mapped.isNone then
              (dropAttach s fun record =>
                record.procSlot == caller.procSlot && record.segSlot == slot && record.addr == place, .error .einval)
            else (attached s, .ok place)
      else
        match mapped with
        | none => (s, .error .enomem)
        | some place =>
          match allocAttachRecord s ⟨caller.procSlot, slot, place, size⟩ with
          | none => (s, .error .enospc)
          | some s => (attached s, .ok place)

/-- A segment loses one attachment. -/
def detachOne (s : State) (slot : Nat) : State :=
  if slot < shmMax ∧ (s.shm slot).inUse = true ∧ 0 < (s.shm slot).body.attachCount then
    setShm s slot fun seg => { seg with attachCount := seg.attachCount - 1 }
  else s

/-- Detaches the segment at an address. -/
def sysvShmdtCurrent (s : State) (caller : Caller) (addr : UInt64) : State × Except Errno Unit :=
  if !caller.isUser then (s, .error .einval)
  else if addr &&& (pageSize - 1) ≠ 0 then (s, .error .einval)
  else
    match findAttach s caller.procSlot addr with
    | none => (s, .error .einval)
    | some i =>
      match s.attaches i with
      | none => (s, .error .einval)
      | some record =>
        (tryFreeShmSlot (detachOne { s with attaches := Function.update s.attaches i none } record.segSlot)
          record.segSlot, .ok ())

/-- Controls a segment: it can only be marked to be deleted. -/
def sysvShmctl (s : State) (shmid : Int32) (cmd : Int) : State × Except Errno Unit :=
  match shmSlotFromId s shmid with
  | none => (s, .error .einval)
  | some slot =>
    if cmd = ipcRmid then
      (tryFreeShmSlot { s with shm := Function.update s.shm slot { s.shm slot with markedDelete := true } } slot, .ok ())
    else (s, .error .einval)

/-- The attachment in a record of a process goes, when the process ends or loads a program. -/
def cleanAttach (procSlot : Nat) (s : State) (i : Nat) : State :=
  match s.attaches i with
  | none => s
  | some record =>
    if record.procSlot ≠ procSlot then s
    else detachOne { s with attaches := Function.update s.attaches i none } record.segSlot

/-- A process ends or loads a program. -/
def sysvIpcProcCleanup (s : State) (procSlot : Nat) : State :=
  (List.range shmMax).foldl tryFreeShmSlot ((List.range shmAttachMax).foldl (cleanAttach procSlot) s)

/-- Finds or makes a set, and returns its slot. -/
def semgetSlot (s : State) (key : UInt32) (nsems flags : UInt32) : Except Errno (Slots SemSet × Nat) :=
  getSlot semsetMax s.sem key flags (fun set => !(nsems != 0 && set.nsems < nsems.toNat))
    (nsems != 0 && nsems.toNat ≤ semPerSetMax) (.ok ⟨nsems.toNat, 0, fun _ => 0⟩)

/-- The slot that a call makes a set in, if it makes one. -/
def semgetMakes (s : State) (key : UInt32) (nsems flags : UInt32) : Option Nat :=
  makes semsetMax s.sem key flags (fun set => !(nsems != 0 && set.nsems < nsems.toNat))
    (nsems != 0 && nsems.toNat ≤ semPerSetMax) (.ok ⟨nsems.toNat, 0, fun _ => 0⟩)

def semIdFromSlot (s : State) (slot : Nat) : Int32 := idFromSlot slot (s.sem slot).seq
def semSlotFromId (s : State) (id : Int32) : Option Nat := slotFromId semsetMax s.sem id

/-- Finds or makes a set, and returns its identifier. -/
def sysvSemget (s : State) (key : UInt32) (nsems flags : UInt32) : State × Except Errno Int32 :=
  match semgetSlot s key nsems flags with
  | .error error => (s, .error error)
  | .ok (sem, slot) => ({ s with sem }, .ok (semIdFromSlot { s with sem } slot))

/-- The values after all operations, none if one of them has to wait. -/
def semCanApply (nsems : Nat) : (Nat → Int) → List SemBuf → Except Errno (Option (Nat → Int))
  | values, [] => .ok (some values)
  | values, op :: ops =>
    let num := op.semNum.toNat
    let next := values num + op.semOp.toInt
    if nsems ≤ num then .error .einval
    else if op.semOp.toInt < 0 then
      if next < 0 then .ok none else semCanApply nsems (Function.update values num next) ops
    else if op.semOp.toInt = 0 then
      if values num ≠ 0 then .ok none else semCanApply nsems values ops
    else if semValueMax < next then .error .erange
    else semCanApply nsems (Function.update values num next) ops

/-- A task that waited does so no longer. -/
def SemSet.left (waiting : Bool) (set : SemSet) : SemSet :=
  if waiting && 0 < set.waiterCount then { set with waiterCount := set.waiterCount - 1 } else set

/-- A task that waits gives up. -/
def semGiveUp (s : State) (slot : Nat) : State :=
  tryFreeSemSlot (if (s.sem slot).inUse then setSem s slot (SemSet.left true) else s) slot

/-- One round of the loop of an operation on a set: what it returns, none if the task waits. -/
def semopRound (s : State) (wait : SemWait) (waiting : Bool) (nowMs : Nat) (interrupted : Bool) :
    State × Option (Except Errno Unit) :=
  let set := s.sem wait.slot
  if !set.inUse || set.markedDelete then
    if waiting && 0 < set.body.waiterCount then
      (tryFreeSemSlot (setSem s wait.slot (SemSet.left true)) wait.slot, some (.error .eidrm))
    else (s, some (.error .eidrm))
  else
    match semCanApply set.body.nsems set.body.values wait.ops with
    | .ok (some values) => (setSem s wait.slot fun set => { set.left waiting with values }, some (.ok ()))
    | .error error => (setSem s wait.slot (SemSet.left waiting), some (.error error))
    | .ok none =>
      if wait.ops.any fun op => op.semFlg &&& ipcNowait.toUInt16 != 0 then
        (setSem s wait.slot (SemSet.left waiting), some (.error .eagain))
      else
        let waits := if waiting then s else setSem s wait.slot fun set => { set with waiterCount := set.waiterCount + 1 }
        if interrupted then (semGiveUp waits wait.slot, some (.error .eintr))
        else if wait.deadlineMs.any fun deadline => decide (deadline ≤ nowMs) then
          (semGiveUp waits wait.slot, some (.error .etimedout))
        else (waits, none)

/-- The task waits if the round returned nothing. -/
def semopAfter (task : Nat) (wait : SemWait) (round : State × Option (Except Errno Unit)) :
    State × Option (Except Errno Unit) :=
  ({ round.1 with waits := Function.update round.1.waits task (if round.2.isNone then some wait else none) }, round.2)

/-- Applies operations to a set at once. -/
def sysvSemopCurrent (s : State) (task : Nat) (semid : Int32) (ops : List SemBuf) (timeoutMs : Option Nat) (nowMs : Nat)
    (interrupted : Bool) : State × Option (Except Errno Unit) :=
  if ops.length = 0 ∨ semPerSetMax < ops.length then (s, some (.error .einval))
  else
    match semSlotFromId s semid with
    | none => (s, some (.error .einval))
    | some slot =>
      let wait : SemWait := ⟨slot, ops, timeoutMs.map (nowMs + ·)⟩
      semopAfter task wait (semopRound s wait false nowMs interrupted)

/-- Controls a set. -/
def sysvSemctl (s : State) (semid : Int32) (semnum : UInt32) (cmd : Int) (arg : UInt64) : State × Except Errno Int :=
  match semSlotFromId s semid with
  | none => (s, .error .einval)
  | some slot =>
    let set := s.sem slot
    if cmd = ipcRmid then
      (tryFreeSemSlot { s with sem := Function.update s.sem slot { set with markedDelete := true } } slot, .ok 0)
    else if cmd = semGetval then
      if set.body.nsems ≤ semnum.toNat then (s, .error .einval) else (s, .ok (set.body.values semnum.toNat))
    else if cmd = semSetval then
      if set.body.nsems ≤ semnum.toNat ∨ semValueMax < arg.toNat then (s, .error .einval)
      else
        (setSem s slot fun set => { set with values := Function.update set.values semnum.toNat arg.toNat }, .ok 0)
    else (s, .error .einval)

end Enlil.Sysv
