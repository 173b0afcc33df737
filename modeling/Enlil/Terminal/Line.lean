import Enlil.Lib.Ring

/-! A pseudo-terminal pair: its two rings, its line discipline and the calls on both sides, as `kernel/pty.c` has them. -/

namespace Enlil.Terminal

/-- Positions of each ring. -/
def ptyBufSize : Nat := 4096

/-- Bytes of a line that is being edited. -/
def ptyEditMax : Nat := 256

/-- A ring: bytes go in at the head and come out at the tail. -/
structure Ring where
  buf : Nat → UInt8
  head : Fin ptyBufSize
  tail : Fin ptyBufSize

/-- Both positions are the same. -/
def rbEmpty (ring : Ring) : Bool := ring.head = ring.tail

/-- The head would come to the tail. -/
def rbFull (ring : Ring) : Bool := (ring.head.val + 1) % ptyBufSize = ring.tail.val

/-- The position behind another one. -/
def next (position : Fin ptyBufSize) : Fin ptyBufSize :=
  ⟨(position.val + 1) % ptyBufSize, Nat.mod_lt _ (by decide)⟩

/-- Puts a byte at the head, if there is room. -/
def Ring.push (ring : Ring) (c : UInt8) : Option Ring :=
  if rbFull ring then none
  else some { ring with buf := Function.update ring.buf ring.head.val c, head := next ring.head }

/-- Takes the byte at the tail, if there is one. -/
def Ring.pop (ring : Ring) : Option (UInt8 × Ring) :=
  if rbEmpty ring then none else some (ring.buf ring.tail.val, { ring with tail := next ring.tail })

/-- A ring without bytes. -/
def emptyRing : Ring := ⟨fun _ => 0, ⟨0, by decide⟩, ⟨0, by decide⟩⟩

/-- The control characters that the line discipline knows. -/
inductive Cc where
  | vintr
  | veof
  | verase
  | vkill
  | vmin
  | vtime
  | vsusp
  deriving DecidableEq, Repr

/-- The terminal modes that the calls below read, and the control characters. -/
structure Termios where
  icrnl : Bool
  opost : Bool
  onlcr : Bool
  echo : Bool
  echoe : Bool
  icanon : Bool
  isig : Bool
  cc : Cc → UInt8

/-- The signals that the line discipline sends. -/
inductive Signal where
  | sigint
  | sigtstp
  deriving DecidableEq, Repr

/-- A pair in use. -/
structure Pty where
  masterOpen : Bool
  slaveOpen : Bool
  eofPending : Bool
  locked : Bool
  slaveSid : Nat
  slavePgid : Nat
  m2s : Ring
  s2m : Ring
  /-- The line that is being edited, without what was erased. -/
  edit : List UInt8
  termios : Termios
  /-- The tasks that wait for data. -/
  slaveReader : Option Nat
  masterReader : Option Nat
  /-- The signals sent to the foreground group, latest first. -/
  sent : List (Nat × Signal)

/-- Line feed. -/
def lf : UInt8 := 10

/-- Carriage return. -/
def cr : UInt8 := 13

/-- Backspace. -/
def bs : UInt8 := 8

/-- A byte for the slave; its reader is woken. -/
def m2sPush (p : Pty) (c : UInt8) : Bool × Pty :=
  match p.m2s.push c with
  | none => (false, p)
  | some m2s => (true, { p with m2s, slaveReader := none })

def m2sPop (p : Pty) : Option (UInt8 × Pty) := p.m2s.pop.map fun (c, m2s) => (c, { p with m2s })

/-- A byte for the master; its reader is woken. -/
def s2mPush (p : Pty) (c : UInt8) : Bool × Pty :=
  match p.s2m.push c with
  | none => (false, p)
  | some s2m => (true, { p with s2m, masterReader := none })

def s2mPop (p : Pty) : Option (UInt8 × Pty) := p.s2m.pop.map fun (c, s2m) => (c, { p with s2m })

/-- Puts bytes for the master one after the other, whether or not there is room. -/
def s2mPushes (p : Pty) (bytes : List UInt8) : Pty := bytes.foldl (fun p c => (s2mPush p c).2) p

/-- Puts bytes for the slave one after the other, whether or not there is room. -/
def m2sPushes (p : Pty) (bytes : List UInt8) : Pty := bytes.foldl (fun p c => (m2sPush p c).2) p

/-- Sends a signal to the foreground group, if there is one. -/
def signalForeground (p : Pty) (signal : Signal) : Pty :=
  if p.slavePgid ≠ 0 then { p with sent := (p.slavePgid, signal) :: p.sent } else p

/-- Echoes bytes, if the terminal echoes. -/
def echoBytes (p : Pty) (bytes : List UInt8) : Pty := if p.termios.echo then s2mPushes p bytes else p

/-- A signal character: the signal, its echo, and no line any more. -/
def ldSignal (p : Pty) (signal : Signal) (name : UInt8) : Pty :=
  { echoBytes (signalForeground p signal) [94, name, lf] with edit := [] }

/-- Erases the last byte of the line. -/
def ldErase (p : Pty) : Pty :=
  if p.termios.echoe then s2mPushes { p with edit := p.edit.dropLast } [bs, 32, bs]
  else { p with edit := p.edit.dropLast }

/-- Erases bytes of the line, so many of them. -/
def ldKill (p : Pty) : Nat → Pty
  | 0 => p
  | n + 1 => ldKill (ldErase p) n

/-- Puts a byte at the end of the line, if there is room. -/
def ldAppend (p : Pty) (c : UInt8) : Pty := if p.edit.length < ptyEditMax then { p with edit := p.edit ++ [c] } else p

/-- The echo of a new line. -/
def newlineEcho (t : Termios) : List UInt8 := if t.opost && t.onlcr then [cr, lf] else [lf]

/-- What input processing makes of a byte before the line discipline looks at it. -/
def inputOf (t : Termios) (c : UInt8) : UInt8 := if t.icrnl && c = cr then lf else c

/-- One byte of input goes through the line discipline. -/
def ldInput (p : Pty) (c : UInt8) : Pty :=
  if p.termios.isig && c = p.termios.cc .vintr then ldSignal p .sigint 67
  else if p.termios.isig && c = p.termios.cc .vsusp then ldSignal p .sigtstp 90
  else if p.termios.icanon then
    if c = p.termios.cc .verase ∨ c = bs then if p.edit.length = 0 then p else ldErase p
    else if c = p.termios.cc .vkill then ldKill p p.edit.length
    else if c = p.termios.cc .veof then
      if p.edit.length = 0 then { p with eofPending := true, slaveReader := none }
      else { m2sPushes p p.edit with edit := [] }
    else if c = lf then { m2sPushes (echoBytes p (newlineEcho p.termios)) (p.edit ++ [lf]) with edit := [] }
    else if c = 9 ∨ (32 ≤ c ∧ c < 127) then echoBytes (ldAppend p c) [c]
    else p
  else echoBytes (m2sPush p c).2 [c]

/-- One byte from the master goes through the line discipline. -/
def ptyLdByte (p : Pty) (c : UInt8) : Pty := ldInput p (inputOf p.termios c)

/-- Modes at the creation of a pair. -/
def ptyTermiosDefaults : Termios where
  icrnl := true
  opost := true
  onlcr := true
  echo := true
  echoe := true
  icanon := true
  isig := true
  cc
    | .vintr => 0x03
    | .veof => 0x04
    | .verase => 0x7F
    | .vkill => 0x15
    | .vmin => 1
    | .vtime => 0
    | .vsusp => 0x1A

/-- A new pair: the master is open and the slave locked. -/
def ptyAlloc : Pty :=
  ⟨true, false, false, true, 0, 0, emptyRing, emptyRing, [], ptyTermiosDefaults, none, none, []⟩

/-- Opens the slave for a group of a session. -/
def ptyOpenSlave (p : Pty) (pgid sid : Nat) : Pty :=
  { p with
    slaveOpen := true
    slavePgid := if pgid ≠ 0 then pgid else p.slavePgid
    slaveSid := if sid ≠ 0 then sid else p.slaveSid }

def ptyCloseMaster (p : Pty) : Pty := { p with masterOpen := false, slaveReader := none }

def ptyCloseSlave (p : Pty) : Pty :=
  { p with slaveOpen := false, slaveSid := 0, slavePgid := 0, masterReader := none }

/-- What a call reports. -/
inductive Reply where
  /-- A number of bytes was written. -/
  | wrote (count : Nat)
  /-- Bytes were read; none of them at the end of the file. -/
  | got (data : List UInt8)
  | eio
  | eagain
  /-- The caller sleeps until it is woken, and then tries again. -/
  | sleeps
  deriving DecidableEq

/-- Writes bytes on the master side. -/
def ptyMasterWrite (p : Pty) (data : List UInt8) : Reply × Pty :=
  if !p.slaveOpen then (.eio, p) else (.wrote data.length, data.foldl ptyLdByte p)

/-- Takes bytes for the master until enough are there or none is left. -/
def masterTake (p : Pty) : Nat → List UInt8 × Pty
  | 0 => ([], p)
  | n + 1 =>
    match s2mPop p with
    | none => ([], p)
    | some (c, p) =>
      let (rest, p) := masterTake p n
      (c :: rest, p)

/-- One turn of a read on the master side. -/
def masterReadTurn (p : Pty) (task count : Nat) (nonblock : Bool) : Reply × Pty :=
  let taken := masterTake p count
  if 0 < taken.1.length then (.got taken.1, taken.2)
  else if nonblock then (.eagain, taken.2)
  else if !p.slaveOpen then (.got [], taken.2)
  else (.sleeps, { taken.2 with masterReader := some task })

/-- Reads bytes on the master side. -/
def ptyMasterRead (p : Pty) (task count : Nat) (nonblock : Bool) : Reply × Pty :=
  if !p.masterOpen then (.eio, p) else masterReadTurn p task count nonblock

/-- The bytes that output processing makes of one byte. -/
def outputOf (t : Termios) (c : UInt8) : List UInt8 := if t.opost && t.onlcr && c = lf then [cr, c] else [c]

/-- Writes bytes on the slave side. -/
def ptySlaveWrite (p : Pty) (data : List UInt8) : Reply × Pty :=
  if !p.masterOpen then (.eio, p)
  else (.wrote data.length, data.foldl (fun p c => s2mPushes p (outputOf p.termios c)) p)

/-- Takes bytes for the slave until enough are there, a line ends or none is left. -/
def slaveTake (p : Pty) : Nat → List UInt8 × Pty
  | 0 => ([], p)
  | n + 1 =>
    match m2sPop p with
    | none => ([], p)
    | some (c, p) =>
      if p.termios.icanon && c = lf then ([c], p)
      else
        let (rest, p) := slaveTake p n
        (c :: rest, p)

/-- One turn of a read on the slave side. -/
def slaveReadTurn (p : Pty) (task count : Nat) (nonblock : Bool) : Reply × Pty :=
  if p.eofPending && rbEmpty p.m2s then (.got [], { p with eofPending := false })
  else
    let taken := slaveTake p count
    if 0 < taken.1.length then (.got taken.1, taken.2)
    else if nonblock then (.eagain, taken.2)
    else if !p.masterOpen then (.got [], taken.2)
    else (.sleeps, { taken.2 with slaveReader := some task })

/-- Reads bytes on the slave side, for a task of a group. -/
def ptySlaveRead (p : Pty) (task pgid count : Nat) (nonblock : Bool) : Reply × Pty :=
  if !p.slaveOpen then (.eio, p)
  else slaveReadTurn { p with slavePgid := if pgid ≠ 0 then pgid else p.slavePgid } task count nonblock

/-- When a change of modes is to take effect. -/
inductive Action where
  | tcsanow
  | tcsadrain
  | tcsaflush
  deriving DecidableEq, Repr

/-- A control character, or its default where it is zero and must not be. -/
def ccOrDefault (cc : Cc → UInt8) : Cc → UInt8
  | .verase => if cc .verase = 0 then 0x7F else cc .verase
  | .vintr => if cc .vintr = 0 then 0x03 else cc .vintr
  | .vsusp => if cc .vsusp = 0 then 0x1A else cc .vsusp
  | .vmin => if cc .vmin = 0 then 1 else cc .vmin
  | other => cc other

/-- Changes the modes; a flush forgets what the slave has not read. -/
def ptyTcsetattr (p : Pty) (action : Action) (t : Termios) : Pty :=
  let p := { p with termios := { t with cc := ccOrDefault t.cc } }
  if action = .tcsaflush then
    { p with m2s := { p.m2s with head := ⟨0, by decide⟩, tail := ⟨0, by decide⟩ }, edit := [], eofPending := false }
  else p

end Enlil.Terminal
