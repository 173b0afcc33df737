import Enlil.Mmu.Space

/-! Signals of one task, as `kernel/signal.c` computes them. -/

namespace Enlil.Signal

open Mmu Pmm

/-- The number of signals. -/
def enlilosNsig : Nat := 64

def sigkill : Nat := 9
def sigchld : Nat := 17
def sigcont : Nat := 18
def sigstop : Nat := 19
def sigtstp : Nat := 20
def sigttin : Nat := 21
def sigttou : Nat := 22
def sigwinch : Nat := 28

/-- The handler that stands for the default action. -/
def sigDfl : BitVec 64 := 0

/-- The handler that stands for ignoring the signal. -/
def sigIgn : BitVec 64 := 1

/-- The signal is not blocked while its handler runs. -/
def saNodefer : BitVec 32 := 1#32 <<< 1

/-- The handler is taken away when it is called. -/
def saResethand : BitVec 32 := 1#32 <<< 2

/-- What a task does on a signal. -/
structure SigAction where
  saHandler : BitVec 64
  saMask : BitVec 64
  saFlags : BitVec 32
  deriving DecidableEq

/-- The signal state of a task. -/
structure SignalState where
  pending : BitVec 64
  blocked : BitVec 64
  parentPid : Nat
  inHandler : Bool
  stopped : Bool
  stopReported : Bool
  stopSig : Nat
  activeSig : Nat
  deriving DecidableEq

/-- A signal state with every field cleared. -/
def SignalState.zero : SignalState := ⟨0, 0, 0, false, false, false, 0, 0⟩

/-- The registers that an exception saves and its return restores. -/
structure ExceptionFrame where
  x : Fin 31 → BitVec 64
  sp : BitVec 64
  pc : BitVec 64
  spsr : BitVec 64
  esr : BitVec 64
  far : BitVec 64

/-- The number that marks a signal frame. -/
def sigframeMagic : BitVec 64 := 0x5349474652414D45

/-- What a delivery leaves on the user stack. -/
structure SignalUserFrame where
  magic : BitVec 64
  savedMask : BitVec 64
  deliveredSig : BitVec 64
  pad : BitVec 64
  savedFrame : ExceptionFrame

/-- Bytes of a signal frame. -/
def sigframeSize : Nat := 320

/-- The doublewords of an exception frame in their order in memory. -/
def ExceptionFrame.word (frame : ExceptionFrame) (i : Nat) : BitVec 64 :=
  if inside : i < 31 then frame.x ⟨i, inside⟩
  else
    match i - 31 with
    | 0 => frame.sp
    | 1 => frame.pc
    | 2 => frame.spsr
    | 3 => frame.esr
    | _ => frame.far

/-- The doublewords of a signal frame in their order in memory. -/
def SignalUserFrame.word (sigframe : SignalUserFrame) : Nat → BitVec 64
  | 0 => sigframe.magic
  | 1 => sigframe.savedMask
  | 2 => sigframe.deliveredSig
  | 3 => sigframe.pad
  | i + 4 => sigframe.savedFrame.word i

/-- A signal frame as bytes. -/
def SignalUserFrame.encode (sigframe : SignalUserFrame) : Bytes := fun p =>
  UInt8.ofNat ((sigframe.word (p / 8)).toNat / 256 ^ (p % 8))

/-- A doubleword of a signal frame in memory. -/
def frameWord (data : Bytes) (i : Nat) : BitVec 64 := BitVec.ofNat 64 (readLe data (8 * i) 8)

/-- Bytes read as a signal frame. -/
def decodeFrame (data : Bytes) : SignalUserFrame where
  magic := frameWord data 0
  savedMask := frameWord data 1
  deliveredSig := frameWord data 2
  pad := frameWord data 3
  savedFrame :=
    { x := fun i => frameWord data (4 + i)
      sp := frameWord data 35
      pc := frameWord data 36
      spsr := frameWord data 37
      esr := frameWord data 38
      far := frameWord data 39 }

/-- The bit of a signal. -/
def signalBit (sig : Nat) : BitVec 64 := BitVec.twoPow 64 (sig - 1)

def signalValid (sig : Nat) : Bool := 1 ≤ sig ∧ sig ≤ enlilosNsig

/-- The signals that no mask blocks. -/
def signalUnmaskableBits : BitVec 64 := signalBit sigkill ||| signalBit sigstop

/-- A mask without the signals that no mask blocks. -/
def signalStripUnmaskable (mask : BitVec 64) : BitVec 64 := mask &&& ~~~signalUnmaskableBits

def signalDefaultIgnore (sig : Nat) : Bool := sig = sigchld || sig = sigwinch

def signalDefaultStop (sig : Nat) : Bool := sig = sigstop || sig = sigtstp || sig = sigttin || sig = sigttou

def signalDefaultTerminate (sig : Nat) : Bool :=
  !(signalDefaultIgnore sig || signalDefaultStop sig || sig = sigcont)

def signalStopBits : BitVec 64 :=
  signalBit sigstop ||| signalBit sigtstp ||| signalBit sigttin ||| signalBit sigttou

/-- The pending signals that are not blocked. -/
def SignalState.ready (st : SignalState) : BitVec 64 :=
  (st.pending &&& ~~~(signalStripUnmaskable st.blocked)) ||| (st.pending &&& signalUnmaskableBits)

/-- The lowest ready signal. -/
def signalPickPending (st : SignalState) : Option Nat :=
  if st.ready = 0 then none else some (1 + Sched.ctz st.ready)

/-- The errors of the signal calls. -/
inductive Errno where
  | einval
  | esrch
  | eperm
  | efault
  deriving DecidableEq, Repr

/-- The task a signal call works for: its state, the actions of its process, its memory and its registers. -/
structure Context where
  st : SignalState
  /-- The action of each signal, numbered from one. -/
  actions : Nat → SigAction
  /-- Only user tasks get signals. -/
  isUser : Bool
  abiLinux : Bool
  /-- The address space of the task with the memory behind it, if it has one. -/
  mm : Option Mm
  frame : ExceptionFrame

/-- Where the handler returns to. -/
def trampolineOf (abiLinux : Bool) : BitVec 64 :=
  BitVec.ofNat 64 (if abiLinux then mmuUserSigtrampVa + 12 else mmuUserSigtrampVa)

/-- Where the signal frame goes: below the stack pointer, aligned to sixteen bytes. -/
def sigSp (frame : ExceptionFrame) : BitVec 64 := (frame.sp - BitVec.ofNat 64 sigframeSize) &&& ~~~0xF#64

/-- The signal frame that a delivery saves. -/
def sigframeOf (c : Context) (sig : Nat) : SignalUserFrame :=
  ⟨sigframeMagic, c.st.blocked, BitVec.ofNat 64 sig, 0, c.frame⟩

/-- The mask in force while a handler runs. -/
def handlerMask (blocked : BitVec 64) (sig : Nat) (act : SigAction) : BitVec 64 :=
  let mask := signalStripUnmaskable (blocked ||| act.saMask)
  if act.saFlags &&& saNodefer = 0 then mask ||| signalBit sig else mask

/-- The registers with which a handler starts. -/
def handlerFrame (c : Context) (sig : Nat) (act : SigAction) : ExceptionFrame :=
  { c.frame with
    x := fun i =>
      if i = 0 then BitVec.ofNat 64 sig
      else if i = 1 ∨ i = 2 then 0
      else if i = 30 then trampolineOf c.abiLinux
      else c.frame.x i
    sp := sigSp c.frame
    pc := act.saHandler }

/-- The state of a task whose handler has been called. -/
def Context.called (c : Context) (sig : Nat) (act : SigAction) : Context :=
  { c with
    st := { c.st with blocked := handlerMask c.st.blocked sig act, inHandler := true, activeSig := sig }
    actions :=
      if act.saFlags &&& saResethand ≠ 0 then
        Function.update c.actions sig { c.actions sig with saHandler := sigDfl }
      else c.actions
    frame := handlerFrame c sig act }

/-- Calls the handler of a signal, with the interrupted registers saved on the user stack. -/
def signalInstallUserFrame (c : Context) (sig : Nat) (act : SigAction) : Except Halt (Except Errno Unit × Context) :=
  if act.saHandler = sigDfl ∨ act.saHandler = sigIgn then .ok (.error .einval, c)
  else
    match c.mm with
    | none => .ok (.error .efault, c)
    | some mm =>
      if (sigSp c.frame).toNat < mmuUserBase ∨ mmuUserLimit ≤ (sigSp c.frame).toNat then .ok (.error .efault, c)
      else do
        let (copied, mm) ←
          copyToUser mm (sigSp c.frame).toNat (sigframeOf c sig).encode 0 sigframeSize (copySteps sigframeSize)
        let c := { c with mm := some mm }
        if copied then return (.ok (), c.called sig act) else return (.error .efault, c)

/-- How a call of the delivery ends for its task. -/
inductive Outcome where
  /-- Back to the interrupted code. -/
  | returned
  /-- Into a handler. -/
  | handler
  /-- The task ends by a signal. -/
  | terminated (sig : Nat)
  /-- The task stops, and the delivery goes on when it is continued. -/
  | stopped (sig : Nat)
  deriving DecidableEq

/-- Takes pending signals, lowest first, until one of them decides what happens to the task. -/
def deliverLoop (c : Context) : Nat → Except Halt (Outcome × Context)
  | 0 => .ok (.returned, c)
  | fuel + 1 =>
    match signalPickPending c.st with
    | none => .ok (.returned, c)
    | some sig =>
      let c := { c with st := { c.st with pending := c.st.pending &&& ~~~(signalBit sig) } }
      let act := c.actions sig
      if act.saHandler = sigIgn ∨ (act.saHandler = sigDfl ∧ signalDefaultIgnore sig) then deliverLoop c fuel
      else if act.saHandler = sigDfl then
        if sig = sigcont then
          deliverLoop { c with st := { c.st with stopped := false, stopReported := false, stopSig := 0 } } fuel
        else if signalDefaultStop sig then
          .ok (.stopped sig, { c with st := { c.st with stopped := true, stopReported := false, stopSig := sig } })
        else if signalDefaultTerminate sig then .ok (.terminated sig, c)
        else deliverLoop c fuel
      else do
        let (installed, c) ← signalInstallUserFrame c sig act
        match installed with
        | .ok () => return (.handler, c)
        | .error _ => return (.terminated sig, c)

/-- Delivers what is pending on the way back to user code. -/
def signalDeliverPending (c : Context) : Except Halt (Outcome × Context) :=
  -- Every round takes one pending signal, so one round more than there are signals is never needed.
  if !c.isUser || c.st.inHandler then .ok (.returned, c) else deliverLoop c (enlilosNsig + 1)

/-- Returns from a handler: the mask and the registers come back from the user stack. -/
def signalSigreturnCurrent (c : Context) : Except Errno Unit × Context :=
  if !c.isUser then (.error .eperm, c)
  else if !c.st.inHandler then (.error .einval, c)
  else
    match c.mm with
    | none => (.error .efault, c)
    | some mm =>
      match copyFromUser mm.space mm.memory c.frame.sp.toNat (fun _ => 0) 0 sigframeSize
          (copySteps sigframeSize) with
      | none => (.error .efault, c)
      | some data =>
        let sigframe := decodeFrame data
        if sigframe.magic ≠ sigframeMagic then (.error .einval, c)
        else
          (.ok (), { c with
            st := { c.st with
              blocked := signalStripUnmaskable sigframe.savedMask, inHandler := false, activeSig := 0 }
            frame := sigframe.savedFrame })

/-- Reads and changes what a process does on a signal. -/
def signalSigactionCurrent (c : Context) (sig : Nat) (act : Option SigAction) :
    Except Errno SigAction × Context :=
  if !c.isUser then (.error .eperm, c)
  else if !signalValid sig then (.error .einval, c)
  else
    let old := c.actions sig
    match act with
    | none => (.ok old, c)
    | some act =>
      if sig = sigkill ∨ sig = sigstop then (.error .einval, c)
      else
        (.ok old, { c with
          actions := Function.update c.actions sig { act with saMask := signalStripUnmaskable act.saMask } })

/-- The ways of changing a mask. -/
inductive How where
  | block
  | unblock
  | setmask
  | other
  deriving DecidableEq

/-- Reads and changes the mask of a task. -/
def signalSigprocmaskCurrent (c : Context) (how : How) (set : Option (BitVec 64)) :
    Except Errno (BitVec 64) × Context :=
  if !c.isUser then (.error .eperm, c)
  else
    let old := c.st.blocked
    let put (blocked : BitVec 64) : Except Errno (BitVec 64) × Context :=
      (.ok old, { c with st := { c.st with blocked } })
    match set, how with
    | none, _ => (.ok old, c)
    | some set, .block => put (old ||| signalStripUnmaskable set)
    | some set, .unblock => put (old &&& ~~~(signalStripUnmaskable set))
    | some set, .setmask => put (signalStripUnmaskable set)
    | some _, .other => (.error .einval, c)

end Enlil.Signal
