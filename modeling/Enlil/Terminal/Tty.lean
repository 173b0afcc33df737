import Enlil.Terminal.Canonical

/-! The console terminal: its line discipline and its reads, as `kernel/tty.c` has them. -/

namespace Enlil.Terminal

/-- Bytes of a line that is being edited. -/
def ttyEditMax : Nat := 256

/-- Positions of the ring of bytes that are ready, one of which is always free. -/
def ttyReadyMax : Nat := 512

inductive TtySignal where
  | sigint
  | sigtstp
  | sigttin
  deriving DecidableEq

/-- The terminal, with what it sent to the screen, to the serial line and to groups of processes. -/
structure Tty where
  edit : List UInt8
  /-- The bytes in the ring, oldest first. -/
  ready : List UInt8
  eofPending : Bool
  foregroundPgid : Nat
  sessionSid : Nat
  termios : Termios
  term80 : List UInt8
  uart : List UInt8
  sent : List (Nat × TtySignal)

def ttyReadyPush (s : Tty) (c : UInt8) : Bool × Tty :=
  if ttyReadyMax - 1 ≤ s.ready.length then (false, s) else (true, { s with ready := s.ready ++ [c] })

def ttyReadyPop (s : Tty) : Option (UInt8 × Tty) :=
  match s.ready with
  | [] => none
  | c :: ready => some (c, { s with ready })

def ttyEchoChar (s : Tty) (c : UInt8) : Tty :=
  { s with
    term80 := s.term80 ++ [c]
    uart := s.uart ++ if c = lf && s.termios.opost && s.termios.onlcr then [cr, c] else [c] }

def ttyEchoBackspace (s : Tty) : Tty := { s with term80 := s.term80 ++ [bs], uart := s.uart ++ [bs, 32, bs] }

/-- Who calls: a group of a session, and whether it is a user task. -/
structure TtyCaller where
  isUser : Bool
  pgid : Nat
  sid : Nat

/-- Which sessions, and which of their groups, have tasks. -/
structure Groups where
  hasSession : Nat → Bool
  hasPgrp : Nat → Nat → Bool

def ttyAdoptCurrentSession (s : Tty) (caller : TtyCaller) (groups : Groups) : Tty :=
  if caller.sid = 0 ∨ caller.pgid = 0 then s
  else if s.sessionSid = 0 ∨ groups.hasSession s.sessionSid = false then
    { s with sessionSid := caller.sid, foregroundPgid := caller.pgid }
  else if s.sessionSid = caller.sid ∧ groups.hasPgrp s.sessionSid s.foregroundPgid = false then
    { s with foregroundPgid := caller.pgid }
  else s

def ttyIsBackgroundCurrent (s : Tty) (caller : TtyCaller) (groups : Groups) : Bool :=
  caller.isUser && s.sessionSid ≠ 0 && caller.sid ≠ 0 && caller.sid = s.sessionSid &&
    !(caller.pgid = 0 || caller.pgid = s.foregroundPgid) && groups.hasPgrp s.sessionSid s.foregroundPgid

def ttySignalForeground (s : Tty) (signal : TtySignal) : Tty :=
  if s.foregroundPgid ≠ 0 then { s with sent := (s.foregroundPgid, signal) :: s.sent } else s

/-- Pushes bytes until one finds no room. -/
def ttyPushes (s : Tty) : List UInt8 → Tty
  | [] => s
  | c :: bytes =>
    match ttyReadyPush s c with
    | (true, s) => ttyPushes s bytes
    | (false, s) => s

def ttyCommitLine (s : Tty) : Tty := { (ttyReadyPush (ttyPushes s s.edit) lf).2 with edit := [] }

def ttyCommitPartialLine (s : Tty) : Tty := { ttyPushes s s.edit with edit := [] }

/-- A signal character: no line any more, the signal, and its echo. -/
def ttySignalChar (s : Tty) (signal : TtySignal) (name : UInt8) : Tty :=
  let s := ttySignalForeground { s with edit := [] } signal
  if s.termios.echo then ttyEchoChar { s with uart := s.uart ++ [94, name] } lf else s

/-- Erases the last byte of the line. -/
def ttyErase (s : Tty) : Tty :=
  let s := { s with edit := s.edit.dropLast }
  if s.termios.echoe then ttyEchoBackspace s else s

/-- Erases bytes of the line, so many of them. -/
def ttyKill (s : Tty) : Nat → Tty
  | 0 => s
  | n + 1 => ttyKill (ttyErase s) n

/-- One character of input, after carriage returns were made line feeds. -/
def ttyInput (s : Tty) (c : UInt8) : Tty :=
  if s.termios.isig && c = s.termios.cc .vintr then ttySignalChar s .sigint 67
  else if s.termios.isig && c = s.termios.cc .vsusp then ttySignalChar s .sigtstp 90
  else if s.termios.icanon then
    if c = s.termios.cc .verase ∨ c = bs then if s.edit.length = 0 then s else ttyErase s
    else if c = s.termios.cc .vkill then ttyKill s s.edit.length
    else if c = s.termios.cc .veof then
      if s.edit.length = 0 then { s with eofPending := true } else ttyCommitPartialLine s
    else if c = lf then ttyCommitLine (if s.termios.echo then ttyEchoChar s lf else s)
    else if c = 9 ∨ (32 ≤ c ∧ c < 127) then
      if s.edit.length < ttyEditMax then
        let s := { s with edit := s.edit ++ [c] }
        if s.termios.echo then ttyEchoChar s c else s
      else s
    else s
  else
    match ttyReadyPush s c with
    | (false, s) => s
    | (true, s) =>
      if s.termios.echo then if c = 0x7F ∨ c = bs then ttyEchoBackspace s else ttyEchoChar s c else s

def ttyHandleInputChar (s : Tty) (c : UInt8) : Tty := ttyInput s (inputOf s.termios c)

/-- The characters that the keyboard has at a time go through the line discipline. -/
def ttyPumpInput (s : Tty) (keys : List UInt8) : Tty := keys.foldl ttyHandleInputChar s

/-- The terminal at the start. -/
def ttyInit : Tty := ⟨[], [], false, 0, 0, ptyTermiosDefaults, [], [], []⟩

inductive TtyReply where
  /-- Bytes were read; none of them at the end of the file. -/
  | got (data : List UInt8)
  | efault
  | eintr
  /-- The caller yields, and then tries again. -/
  | yields
  deriving DecidableEq

/-- Takes bytes until enough are there, a line ends or none is left. -/
def ttyTake (s : Tty) : Nat → List UInt8 × Tty
  | 0 => ([], s)
  | n + 1 =>
    match ttyReadyPop s with
    | none => ([], s)
    | some (c, s) =>
      if s.termios.icanon && c = lf then ([c], s)
      else
        let (rest, s) := ttyTake s n
        (c :: rest, s)

/-- One turn of a read, at which the keyboard has some characters and the caller may have a signal. -/
def ttyRead (s : Tty) (caller : TtyCaller) (groups : Groups) (keys : List UInt8) (pending : Bool) (count : Nat) :
    TtyReply × Tty :=
  if count = 0 then (.efault, s)
  else
    let s := ttyAdoptCurrentSession s caller groups
    if ttyIsBackgroundCurrent s caller groups then
      (.eintr, if caller.pgid ≠ 0 then { s with sent := (caller.pgid, .sigttin) :: s.sent } else s)
    else
      let s := ttyPumpInput s keys
      if pending then (.eintr, s)
      else if s.eofPending && s.ready = [] then (.got [], { s with eofPending := false })
      else if s.ready = [] then (.yields, s)
      else
        let (data, s) := ttyTake s count
        (.got data, s)

end Enlil.Terminal
