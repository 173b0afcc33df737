import Enlil.Fd.Invariants
import Enlil.Fd.Pipes
import Enlil.Lib.Run

/-! The calls on pipes that are under way beside all calls on descriptors, and what went through each pipe. -/

namespace Enlil.Fd.Pipes

def oAppend : UInt16 := 0x400

/-- The most bytes that one call moves. -/
def transferMax : Nat := 4096

/-- What a call that waits has done so far, with what it was asked to do. -/
inductive Work where
  | read (count : Nat) (got : List UInt8)
  | write (data : List UInt8) (put : Nat)

/-- A call that waits; it keeps its object and its pipe, whatever becomes of the descriptor. -/
structure Waiter where
  obj : Nat
  place : Nat
  work : Work
  /-- The number of the call, and the pipe it was made on; the source does not have them. -/
  number : Nat
  birth : Nat

/-- The descriptors, the calls that wait, and for the proofs what every pipe has taken in and given out. -/
structure Traffic where
  fds : Fds
  /-- The call in which a task waits. -/
  waiters : Nat → Option Waiter
  /-- How many calls have been made. -/
  numbers : Nat
  /-- The bytes that were put in a pipe, each with the call that put it. -/
  written : Nat → List (Nat × UInt8)
  /-- The bytes that calls on a pipe have returned. -/
  read : Nat → List UInt8
  /-- The bytes that a call has reported as written. -/
  reported : Nat → Option (List UInt8)

/-- What a call returns, if it does not wait. -/
inductive Result where
  | waits
  /-- The call does not get as far as a pipe. -/
  | early (error : Option Errno)
  | read (place : Nat) (result : Except Errno (List UInt8))
  | write (place : Nat) (result : Except Errno Nat)

/-- Whether a call on an object may not wait. -/
def nonblocking (s : Fds) (o : Nat) : Bool := (s.fdObjects o).flags &&& oNonblock ≠ 0

/-- A call of a task waits, or no longer does. -/
def Traffic.setWaiter (s : Traffic) (task : Nat) (waiter : Option Waiter) : Traffic :=
  { s with waiters := Function.update s.waiters task waiter }

def Traffic.setPipe (s : Traffic) (place : Nat) (pipe : Pipe) : Traffic := { s with fds := s.fds.setPipe place pipe }

/-- A pipe has given out bytes. -/
def Traffic.logRead (s : Traffic) (birth : Nat) (bytes : List UInt8) : Traffic :=
  { s with read := Function.update s.read birth (s.read birth ++ bytes) }

/-- A pipe has taken in bytes of a call. -/
def Traffic.logWritten (s : Traffic) (birth number : Nat) (bytes : List UInt8) : Traffic :=
  { s with written := Function.update s.written birth (s.written birth ++ bytes.map fun byte => (number, byte)) }

/-- A call has reported bytes as written. -/
def Traffic.report (s : Traffic) (number : Nat) (bytes : List UInt8) : Traffic :=
  { s with reported := Function.update s.reported number (some bytes) }

/-- A round of a read, up to the bytes' being stored for the caller. -/
def readRound (s : Traffic) (task : Nat) (waiter : Waiter) (count : Nat) (got : List UInt8) (pending stored : Bool) :
    Traffic × Result :=
  match fdPipeRead (nonblocking s.fds waiter.obj) pending (count - got.length) (s.fds.pipePool waiter.place) got with
  | (pipe, got, .waits) =>
    ((s.setPipe waiter.place pipe).setWaiter task (some { waiter with work := .read count got }), .waits)
  | (pipe, _, .fails error) => ((s.setPipe waiter.place pipe).setWaiter task none, .read waiter.place (.error error))
  | (pipe, got, .returns) =>
    -- Bytes that cannot be stored for the caller are gone.
    if got ≠ [] ∧ stored = false then
      ((s.setPipe waiter.place pipe).setWaiter task none, .read waiter.place (.error .efault))
    else (((s.setPipe waiter.place pipe).setWaiter task none).logRead waiter.birth got, .read waiter.place (.ok got))

/-- A round of a write ends with so many bytes put in all. -/
def writeEnds (s : Traffic) (task : Nat) (waiter : Waiter) (data : List UInt8) (put : Nat) : Ending → Traffic × Result
  | .waits => (s.setWaiter task (some { waiter with work := .write data put }), .waits)
  | .fails error => ((s.setWaiter task none).report waiter.number [], .write waiter.place (.error error))
  | .returns => ((s.setWaiter task none).report waiter.number (data.take put), .write waiter.place (.ok put))

/-- A round of a write. -/
def writeRound (s : Traffic) (task : Nat) (waiter : Waiter) (data : List UInt8) (put : Nat) (pending resumed : Bool) :
    Traffic × Result :=
  match fdPipeWrite (nonblocking s.fds waiter.obj) pending resumed (data.drop put) (s.fds.pipePool waiter.place) put with
  | (pipe, put', ending) =>
    writeEnds ((s.setPipe waiter.place pipe).logWritten waiter.birth waiter.number ((data.drop put).take (put' - put)))
      task waiter data put' ending

/-- A call on the pipe of an object. -/
def Traffic.waiter (s : Traffic) (o : Nat) (work : Work) : Waiter :=
  ⟨o, (s.fds.fdObjects o).pipe, work, s.numbers, (s.fds.pipePool (s.fds.fdObjects o).pipe).birth⟩

/-- A call that reads from a descriptor; the buffer it takes first may be missing. Calls on other objects than pipes are not followed. -/
def sysRead (s : Traffic) (task idx fd : Nat) (buffer : Except Errno Unit) (count : Nat) (pending stored : Bool) :
    Traffic × Result :=
  match fdGet s.fds idx fd with
  | none => (s, .early (some .ebadf))
  | some o =>
    if count = 0 then (s, .early none)
    else
      match buffer with
      | .error error => (s, .early (some error))
      | .ok () =>
        if (s.fds.fdObjects o).type ≠ .pipe then (s, .early none)
        else if (s.fds.fdObjects o).pipeEnd ≠ .read ∨ (s.fds.pipePool (s.fds.fdObjects o).pipe).inUse = false then
          (s, .early (some .ebadf))
        else
          readRound { s with numbers := s.numbers + 1 } task (s.waiter o (.read (min count transferMax) []))
            (min count transferMax) [] pending stored

/-- A call that writes to a descriptor; the bytes it takes from the caller first may be missing. -/
def sysWrite (s : Traffic) (task idx fd : Nat) (buffer : Except Errno (List UInt8)) (pending : Bool) : Traffic × Result :=
  match fdGet s.fds idx fd with
  | none => (s, .early (some .ebadf))
  | some o =>
    match buffer with
    | .error error => (s, .early (some error))
    | .ok data =>
      if data = [] then (s, .early none)
      else if (s.fds.fdObjects o).type ≠ .pipe then (s, .early none)
      else if (s.fds.fdObjects o).pipeEnd ≠ .write ∨ (s.fds.pipePool (s.fds.fdObjects o).pipe).inUse = false then
        (s, .early (some .ebadf))
      else
        writeRound { s with numbers := s.numbers + 1 } task (s.waiter o (.write (data.take transferMax) 0))
          (data.take transferMax) 0 pending false

/-- A task that waits goes on. -/
def resume (s : Traffic) (task : Nat) (pending stored : Bool) : Traffic × Result :=
  match s.waiters task with
  | none => (s, .early none)
  | some waiter =>
    match waiter.work with
    | .read count got => readRound s task waiter count got pending stored
    | .write data put => writeRound s task waiter data put pending true

/-- Changes the flags of an object. -/
def sysFcntlSetfl (s : Fds) (idx fd : Nat) (arg : UInt16) : Fds :=
  match fdGet s idx fd with
  | none => s
  | some o =>
    let obj := s.fdObjects o
    s.setObject o { obj with flags := (obj.flags &&& 3) ||| (arg &&& (oAppend ||| oNonblock)) }

def sysIoctlFionbio (s : Fds) (idx fd : Nat) (enable : Bool) : Fds :=
  match fdGet s idx fd with
  | none => s
  | some o =>
    let obj := s.fdObjects o
    s.setObject o { obj with flags := if enable then obj.flags ||| oNonblock else obj.flags &&& ~~~oNonblock }

/-- The calls on descriptors, and the rounds of those on pipes; a call that goes through several buffers makes one call for each. -/
inductive Op where
  | fds (op : Fd.Op)
  | fcntlSetfl (idx fd : Nat) (arg : UInt16)
  | ioctlFionbio (idx fd : Nat) (enable : Bool)
  | read (task idx fd : Nat) (buffer : Except Errno Unit) (count : Nat) (pending stored : Bool)
  | write (task idx fd : Nat) (buffer : Except Errno (List UInt8)) (pending : Bool)
  | resume (task : Nat) (pending stored : Bool)
  /-- A task that waits is killed. -/
  | kill (task : Nat)

/-- What a call does and returns; a task that waits makes no other call. -/
def Op.step (s : Traffic) : Op → Traffic × Result
  | .fds op => (if op.inside then { s with fds := op.after s.fds } else s, .early none)
  | .fcntlSetfl idx fd arg => ({ s with fds := sysFcntlSetfl s.fds idx fd arg }, .early none)
  | .ioctlFionbio idx fd enable => ({ s with fds := sysIoctlFionbio s.fds idx fd enable }, .early none)
  | .read task idx fd buffer count pending stored =>
    if task < schedMaxTasks ∧ (s.waiters task).isNone then sysRead s task idx fd buffer count pending stored
    else (s, .early none)
  | .write task idx fd buffer pending =>
    if task < schedMaxTasks ∧ (s.waiters task).isNone then sysWrite s task idx fd buffer pending else (s, .early none)
  | .resume task pending stored => Pipes.resume s task pending stored
  | .kill task => (s.setWaiter task none, .early none)

def exec (s : Traffic) (op : Op) : Except Empty Traffic := .ok (op.step s).1

/-- Before the first process has its descriptors. -/
def boot : Traffic := ⟨Fd.boot, fun _ => none, 0, fun _ => [], fun _ => [], fun _ => none⟩

/-- The bytes that a pipe has taken in, in their order. -/
def Traffic.bytes (s : Traffic) (birth : Nat) : List UInt8 := (s.written birth).map Prod.snd

/-- The bytes that a pipe has taken in from a call. -/
def Traffic.sent (s : Traffic) (birth number : Nat) : List UInt8 :=
  ((s.written birth).filter fun entry => entry.1 == number).map Prod.snd

/-- An object is one end of the pipe at a place. -/
structure IsEnd (s : Fds) (o place : Nat) (pipeEnd : PipeEnd) : Prop where
  inUse : (s.fdObjects o).inUse = true
  type : (s.fdObjects o).type = .pipe
  pipe : (s.fdObjects o).pipe = place
  pipeEnd : (s.fdObjects o).pipeEnd = pipeEnd

/-- Every pipe gives its bytes out in the order in which it took them in, and knows how many it has; a call has put into one pipe just the bytes that it reports. -/
structure Fifo (s : Traffic) : Prop where
  inOrder : ∀ birth, s.read birth <+: s.bytes birth
  size : ∀ place, (s.fds.pipePool place).size ≤ pipeBufSize ∧
    ((s.fds.pipePool place).size : Int) ≡ (s.fds.pipePool place).writePos - (s.fds.pipePool place).readPos [ZMOD pipeBufSize]
  reported : ∀ number bytes, s.reported number = some bytes →
    ∃ birth, ∀ other, s.sent other number = if other = birth then bytes else []

/-- The end of a pipe is reported only if it is empty and has no writer, and a broken pipe only if it has no reader. -/
def Result.Honest (s : Traffic) : Result → Prop
  | .read place (.ok []) => (s.fds.pipePool place).size = 0 ∧ ∀ o, ¬ IsEnd s.fds o place .write
  | .write place (.error .epipe) => ∀ o, ¬ IsEnd s.fds o place .read
  | _ => True

/-- No call waits on the pipe at a place. -/
def Unawaited (s : Traffic) (place : Nat) : Prop :=
  ∀ task < schedMaxTasks, (s.waiters task).all fun waiter => waiter.place != place

instance (s : Traffic) (place : Nat) : Decidable (Unawaited s place) :=
  inferInstanceAs (Decidable (∀ task < schedMaxTasks, _))

/-- The bytes that a read can get from a pipe can be stored for its caller. -/
def Storable (s : Traffic) (place : Nat) (stored : Bool) : Prop := stored = true ∨ (s.fds.pipePool place).size = 0

instance (s : Traffic) (place : Nat) (stored : Bool) : Decidable (Storable s place stored) :=
  inferInstanceAs (Decidable (_ ∨ _))

/-- The condition on a call: a pipe is not made where a call still waits, a write does not go on with a pipe that was released, and bytes that are read can be stored. -/
def Careful (s : Traffic) : Op → Prop
  | .fds (.pipe _ _) => (fdPipeAlloc s.fds).all fun place => decide (Unawaited s place)
  | .read _ idx fd _ _ _ stored => (fdGet s.fds idx fd).all fun o => decide (Storable s (s.fds.fdObjects o).pipe stored)
  | .resume task _ stored => (s.waiters task).all fun waiter =>
      match waiter.work with
      | .read .. => decide (Storable s waiter.place stored)
      | .write .. => (s.fds.pipePool waiter.place).inUse
  | _ => True

instance (s : Traffic) : (op : Op) → Decidable (Careful s op)
  | .fds (.pipe _ _) | .read .. | .resume .. => inferInstanceAs (Decidable (_ = true))
  | .fds (.bind ..) | .fds (.epollCreate1 ..) | .fds (.epollCtl ..) | .fds (.epollPwait ..) | .fds (.epollReturns _)
  | .fds (.close ..) | .fds (.dup ..) | .fds (.dup2 ..) | .fds (.fcntlDupfd ..) | .fds (.fork ..) | .fds (.execve _)
  | .fds (.exit ..) | .fcntlSetfl .. | .ioctlFionbio .. | .write .. | .kill _ => inferInstanceAs (Decidable True)

end Enlil.Fd.Pipes
