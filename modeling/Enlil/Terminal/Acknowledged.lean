import Enlil.Lib.Run
import Enlil.Terminal.Line

/-! Runs on both sides of a pair, and when every byte that was reported as written is delivered. -/

namespace Enlil.Terminal

/-- Bytes in a ring. -/
def Ring.stored (ring : Ring) : Nat := (ring.head.val + ptyBufSize - ring.tail.val) % ptyBufSize

/-- The bytes in a ring, oldest first. -/
def Ring.contents (ring : Ring) : List UInt8 := window ptyBufSize ring.buf ring.tail.val ring.stored

/-- Bytes that a ring can still take. -/
def Ring.room (ring : Ring) : Nat := ptyBufSize - 1 - ring.stored

/-- What the line discipline echoes for a byte, with so many bytes on the line. -/
def echoOf (t : Termios) (length : Nat) (c : UInt8) : List UInt8 :=
  if t.isig && c = t.cc .vintr then if t.echo then [94, 67, lf] else []
  else if t.isig && c = t.cc .vsusp then if t.echo then [94, 90, lf] else []
  else if t.icanon then
    if c = t.cc .verase ∨ c = bs then if length ≠ 0 ∧ t.echoe = true then [bs, 32, bs] else []
    else if c = t.cc .vkill then if t.echoe then (List.replicate length [bs, 32, bs]).flatten else []
    else if c = t.cc .veof then []
    else if c = lf then if t.echo then newlineEcho t else []
    else if c = 9 ∨ (32 ≤ c ∧ c < 127) then if t.echo then [c] else []
    else []
  else if t.echo then [c] else []

/-- The line after a byte. -/
def lineOf (t : Termios) (edit : List UInt8) (c : UInt8) : List UInt8 :=
  if t.isig && (c = t.cc .vintr || c = t.cc .vsusp) then []
  else if t.icanon then
    if c = t.cc .verase ∨ c = bs then edit.dropLast
    else if c = t.cc .vkill ∨ c = t.cc .veof ∨ c = lf then []
    else if (c = 9 ∨ (32 ≤ c ∧ c < 127)) ∧ edit.length < ptyEditMax then edit ++ [c]
    else edit
  else edit

/-- What the line discipline echoes for bytes one after the other. -/
def echoAll (t : Termios) (edit : List UInt8) : List UInt8 → List UInt8
  | [] => []
  | c :: rest => echoOf t edit.length (inputOf t c) ++ echoAll t (lineOf t edit (inputOf t c)) rest

/-- Modes that pass every byte of the master on as it is. -/
def Termios.raw (t : Termios) : Bool := !t.icanon && !t.isig && !t.icrnl

/-- A pair with what was reported on both sides. -/
structure Session where
  pty : Pty
  /-- Every write on the master side so far was made in raw mode. -/
  raw : Bool
  /-- The processed bytes that were reported as written on the slave side, and the echo. -/
  slaveOut : List UInt8
  masterGot : List UInt8
  /-- The bytes that were reported as written on the master side. -/
  masterIn : List UInt8
  slaveGot : List UInt8

/-- The calls on both sides, and the turns of readers that were woken. -/
inductive Op where
  | openSlave (pgid sid : Nat)
  | closeMaster
  | closeSlave
  | masterWrite (data : List UInt8)
  | masterRead (task count : Nat) (nonblock : Bool)
  | masterWoken (task count : Nat)
  | slaveWrite (data : List UInt8)
  | slaveRead (task pgid count : Nat) (nonblock : Bool)
  | slaveWoken (task count : Nat)
  | setattr (action : Action) (t : Termios)

/-- The bytes that a call reports as read. -/
def Reply.data : Reply → List UInt8
  | .got data => data
  | _ => []

/-- A reader on the master side has had its turn. -/
def Session.masterRead (s : Session) (turn : Reply × Pty) : Session :=
  { s with pty := turn.2, masterGot := s.masterGot ++ turn.1.data }

/-- A reader on the slave side has had its turn. -/
def Session.slaveRead (s : Session) (turn : Reply × Pty) : Session :=
  { s with pty := turn.2, slaveGot := s.slaveGot ++ turn.1.data }

/-- What each call does. -/
def exec (s : Session) : Op → Except Empty Session
  | .openSlave pgid sid => .ok { s with pty := ptyOpenSlave s.pty pgid sid }
  | .closeMaster => .ok { s with pty := ptyCloseMaster s.pty }
  | .closeSlave => .ok { s with pty := ptyCloseSlave s.pty }
  | .masterWrite data =>
    match ptyMasterWrite s.pty data with
    | (.wrote _, pty) => .ok { s with
        pty, raw := s.raw && s.pty.termios.raw, masterIn := s.masterIn ++ data
        slaveOut := s.slaveOut ++ echoAll s.pty.termios s.pty.edit data }
    | (_, pty) => .ok { s with pty }
  | .masterRead task count nonblock => .ok (s.masterRead (ptyMasterRead s.pty task count nonblock))
  | .masterWoken task count =>
    .ok (s.masterRead (masterReadTurn { s.pty with masterReader := none } task count false))
  | .slaveWrite data =>
    match ptySlaveWrite s.pty data with
    | (.wrote _, pty) => .ok { s with pty, slaveOut := s.slaveOut ++ data.flatMap (outputOf s.pty.termios) }
    | (_, pty) => .ok { s with pty }
  | .slaveRead task pgid count nonblock => .ok (s.slaveRead (ptySlaveRead s.pty task pgid count nonblock))
  | .slaveWoken task count =>
    .ok (s.slaveRead (slaveReadTurn { s.pty with slaveReader := none } task count false))
  | .setattr action t => .ok { s with pty := ptyTcsetattr s.pty action t }

/-- A new pair, before anything was written. -/
def newSession : Session := ⟨ptyAlloc, true, [], [], [], []⟩

/-- Every byte that was reported as written was read or is in a ring: output and echo always, input if it was raw. -/
structure Session.Acknowledged (s : Session) : Prop where
  output : s.slaveOut = s.masterGot ++ s.pty.s2m.contents
  input : s.raw = true → s.masterIn = s.slaveGot ++ s.pty.m2s.contents

/-- The discipline of a run: a write fits in the ring, its echo too, and modes are changed without a flush. -/
def Fits (s : Session) : Op → Prop
  | .masterWrite data => s.pty.slaveOpen = true →
      (echoAll s.pty.termios s.pty.edit data).length ≤ s.pty.s2m.room ∧
        (s.pty.termios.raw = true → data.length ≤ s.pty.m2s.room)
  | .slaveWrite data => s.pty.masterOpen = true →
      (data.flatMap (outputOf s.pty.termios)).length ≤ s.pty.s2m.room
  | .setattr action _ => action ≠ .tcsaflush
  | _ => True

section

variable {ring ring' : Ring} {p : Pty} {c : UInt8} {bytes : List UInt8} {s s' : Session}

theorem Ring.stored_lt (ring : Ring) : ring.stored < ptyBufSize := Nat.mod_lt _ (by decide)

theorem Ring.head_eq (ring : Ring) : ring.head.val = (ring.tail.val + ring.stored) % ptyBufSize := by
  have head := ring.head.isLt
  have tail := ring.tail.isLt
  unfold Ring.stored ptyBufSize at *
  omega

@[simp] theorem Ring.contents_length (ring : Ring) : ring.contents.length = ring.stored := by
  simp [Ring.contents]

theorem rbFull_iff : rbFull ring = true ↔ ring.room = 0 := by
  have head := ring.head.isLt
  have tail := ring.tail.isLt
  simp only [rbFull, decide_eq_true_eq, Ring.room, Ring.stored]
  unfold ptyBufSize at *
  omega

theorem rbEmpty_iff : rbEmpty ring = true ↔ ring.stored = 0 := by
  have head := ring.head.isLt
  have tail := ring.tail.isLt
  simp only [rbEmpty, decide_eq_true_eq, Fin.ext_iff, Ring.stored]
  unfold ptyBufSize at *
  omega

theorem Ring.push_contents (room : ring.room ≠ 0) :
    ∃ ring', ring.push c = some ring' ∧ ring'.contents = ring.contents ++ [c] ∧ ring'.room + 1 = ring.room := by
  have notFull : rbFull ring = false := by
    rw [Bool.eq_false_iff, Ne, rbFull_iff]
    exact room
  have head := ring.head.isLt
  have tail := ring.tail.isLt
  have more : (Ring.mk (Function.update ring.buf ring.head.val c) (next ring.head) ring.tail).stored = ring.stored + 1 := by
    unfold Ring.room Ring.stored at *
    simp only [next]
    unfold ptyBufSize at *
    omega
  have fits : ring.stored < ptyBufSize := ring.stored_lt
  refine ⟨⟨Function.update ring.buf ring.head.val c, next ring.head, ring.tail⟩, by simp [Ring.push, notFull], ?_, ?_⟩
  · rw [Ring.contents, more, Ring.contents]
    dsimp only
    rw [ring.head_eq, window_push tail fits]
  · rw [Ring.room, more]
    unfold Ring.room at *
    omega

theorem Ring.push_full (full : ring.room = 0) : ring.push c = none := by
  simp [Ring.push, rbFull_iff.mpr full]

theorem Ring.pop_contents {rest : Ring} (popped : ring.pop = some (c, rest)) : ring.contents = c :: rest.contents := by
  unfold Ring.pop at popped
  split at popped
  · cases popped
  · rename_i some
    rw [rbEmpty_iff] at some
    cases popped
    have head := ring.head.isLt
    have tail := ring.tail.isLt
    have fewer : ring.stored = (Ring.mk ring.buf ring.head (next ring.tail)).stored + 1 := by
      unfold Ring.stored at *
      simp only [next]
      unfold ptyBufSize at *
      omega
    rw [Ring.contents, fewer]
    rfl

theorem s2mPushes_frame (bytes : List UInt8) : ∀ {p : Pty},
    (s2mPushes p bytes).m2s = p.m2s ∧ (s2mPushes p bytes).termios = p.termios ∧
      (s2mPushes p bytes).edit = p.edit ∧ (s2mPushes p bytes).slaveOpen = p.slaveOpen := by
  induction bytes with
  | nil => exact fun {_} => ⟨rfl, rfl, rfl, rfl⟩
  | cons c rest ih =>
    intro p
    have first : (s2mPush p c).2.m2s = p.m2s ∧ (s2mPush p c).2.termios = p.termios ∧
        (s2mPush p c).2.edit = p.edit ∧ (s2mPush p c).2.slaveOpen = p.slaveOpen := by
      unfold s2mPush
      split <;> exact ⟨rfl, rfl, rfl, rfl⟩
    obtain ⟨m2s, termios, edit, slaveOpen⟩ := @ih (s2mPush p c).2
    exact ⟨m2s.trans first.1, termios.trans first.2.1, edit.trans first.2.2.1, slaveOpen.trans first.2.2.2⟩

theorem m2sPushes_frame (bytes : List UInt8) : ∀ {p : Pty},
    (m2sPushes p bytes).s2m = p.s2m ∧ (m2sPushes p bytes).termios = p.termios ∧
      (m2sPushes p bytes).edit = p.edit ∧ (m2sPushes p bytes).slaveOpen = p.slaveOpen := by
  induction bytes with
  | nil => exact fun {_} => ⟨rfl, rfl, rfl, rfl⟩
  | cons c rest ih =>
    intro p
    have first : (m2sPush p c).2.s2m = p.s2m ∧ (m2sPush p c).2.termios = p.termios ∧
        (m2sPush p c).2.edit = p.edit ∧ (m2sPush p c).2.slaveOpen = p.slaveOpen := by
      unfold m2sPush
      split <;> exact ⟨rfl, rfl, rfl, rfl⟩
    obtain ⟨s2m, termios, edit, slaveOpen⟩ := @ih (m2sPush p c).2
    exact ⟨s2m.trans first.1, termios.trans first.2.1, edit.trans first.2.2.1, slaveOpen.trans first.2.2.2⟩

theorem s2mPushes_append (p : Pty) (first second : List UInt8) :
    s2mPushes p (first ++ second) = s2mPushes (s2mPushes p first) second := List.foldl_append ..

theorem s2mPushes_contents (bytes : List UInt8) : ∀ {p : Pty},
    (s2mPushes p bytes).s2m.contents = p.s2m.contents ++ bytes.take p.s2m.room := by
  induction bytes with
  | nil =>
    intro p
    simp [s2mPushes]
  | cons c rest ih =>
    intro p
    show (s2mPushes (s2mPush p c).2 rest).s2m.contents = _
    rw [ih]
    by_cases room : p.s2m.room = 0
    · simp [s2mPush, Ring.push_full room, room]
    · obtain ⟨ring', pushed, contents, less⟩ := @Ring.push_contents _ c room
      simp only [s2mPush, pushed]
      rw [contents, ← less, List.take_succ_cons, List.append_assoc]
      rfl

theorem m2sPushes_contents (bytes : List UInt8) : ∀ {p : Pty},
    (m2sPushes p bytes).m2s.contents = p.m2s.contents ++ bytes.take p.m2s.room := by
  induction bytes with
  | nil =>
    intro p
    simp [m2sPushes]
  | cons c rest ih =>
    intro p
    show (m2sPushes (m2sPush p c).2 rest).m2s.contents = _
    rw [ih]
    by_cases room : p.m2s.room = 0
    · simp [m2sPush, Ring.push_full room, room]
    · obtain ⟨ring', pushed, contents, less⟩ := @Ring.push_contents _ c room
      simp only [m2sPush, pushed]
      rw [contents, ← less, List.take_succ_cons, List.append_assoc]
      rfl

theorem s2mPushes_s2m {p q : Pty} (same : p.s2m = q.s2m) : (s2mPushes p bytes).s2m = (s2mPushes q bytes).s2m := by
  induction bytes generalizing p q with
  | nil => exact same
  | cons c rest ih =>
    refine ih ?_
    simp only [s2mPush, same]
    split
    · exact same
    · rfl

theorem m2sPushes_m2s {p q : Pty} (same : p.m2s = q.m2s) : (m2sPushes p bytes).m2s = (m2sPushes q bytes).m2s := by
  induction bytes generalizing p q with
  | nil => exact same
  | cons c rest ih =>
    refine ih ?_
    simp only [m2sPush, same]
    split
    · exact same
    · rfl

theorem ldKill_spec (n : Nat) : ∀ {p : Pty}, p.edit.length = n →
    (ldKill p n).s2m = (s2mPushes p (if p.termios.echoe then (List.replicate n [bs, 32, bs]).flatten else [])).s2m ∧
      (ldKill p n).m2s = p.m2s ∧ (ldKill p n).termios = p.termios ∧ (ldKill p n).slaveOpen = p.slaveOpen ∧
      (ldKill p n).edit = [] := by
  induction n with
  | zero =>
    intro p none
    refine ⟨by simp [ldKill, s2mPushes], rfl, rfl, rfl, List.eq_nil_of_length_eq_zero none⟩
  | succ n ih =>
    intro p length
    have shorter : (ldErase p).edit.length = n := by
      unfold ldErase
      split
      · rw [(s2mPushes_frame _).2.2.1]
        simp [length]
      · simp [length]
    obtain ⟨s2m, m2s, termios, slaveOpen, edit⟩ := ih shorter
    rw [ldKill]
    have frame : (ldErase p).m2s = p.m2s ∧ (ldErase p).termios = p.termios ∧ (ldErase p).slaveOpen = p.slaveOpen := by
      unfold ldErase
      split
      · obtain ⟨m2s, termios, _, slaveOpen⟩ := @s2mPushes_frame [bs, 32, bs] { p with edit := p.edit.dropLast }
        exact ⟨m2s, termios, slaveOpen⟩
      · exact ⟨rfl, rfl, rfl⟩
    refine ⟨?_, m2s.trans frame.1, termios.trans frame.2.1, slaveOpen.trans frame.2.2, edit⟩
    rw [s2m, frame.2.1]
    cases echoes : p.termios.echoe with
    | true =>
      have erased : ldErase p = s2mPushes { p with edit := p.edit.dropLast } [bs, 32, bs] := by
        simp [ldErase, echoes]
      simp only [if_true, List.replicate_succ, List.flatten_cons, s2mPushes_append, erased]
      exact s2mPushes_s2m (s2mPushes_s2m rfl)
    | false =>
      simp [ldErase, echoes, s2mPushes]

theorem echoBytes_spec (p : Pty) (bytes : List UInt8) :
    (echoBytes p bytes).s2m = (s2mPushes p (if p.termios.echo then bytes else [])).s2m ∧
      (echoBytes p bytes).m2s = p.m2s ∧ (echoBytes p bytes).termios = p.termios ∧
      (echoBytes p bytes).edit = p.edit ∧ (echoBytes p bytes).slaveOpen = p.slaveOpen := by
  unfold echoBytes
  split
  · exact ⟨rfl, s2mPushes_frame bytes⟩
  · exact ⟨rfl, rfl, rfl, rfl, rfl⟩

theorem ldSignal_spec (p : Pty) (signal : Signal) (name : UInt8) :
    (ldSignal p signal name).s2m = (s2mPushes p (if p.termios.echo then [94, name, lf] else [])).s2m ∧
      (ldSignal p signal name).termios = p.termios ∧ (ldSignal p signal name).slaveOpen = p.slaveOpen ∧
      (ldSignal p signal name).edit = [] := by
  have frame : (signalForeground p signal).s2m = p.s2m ∧ (signalForeground p signal).termios = p.termios ∧
      (signalForeground p signal).slaveOpen = p.slaveOpen := by
    unfold signalForeground
    split <;> exact ⟨rfl, rfl, rfl⟩
  obtain ⟨s2m, _, termios, _, slaveOpen⟩ := echoBytes_spec (signalForeground p signal) [94, name, lf]
  rw [frame.2.1] at s2m
  exact ⟨s2m.trans (s2mPushes_s2m frame.1), termios.trans frame.2.1, slaveOpen.trans frame.2.2, rfl⟩

theorem ldCanonical_spec (p : Pty) (c : UInt8) (canonical : p.termios.icanon = true)
    (interrupt : ¬(p.termios.isig && c = p.termios.cc .vintr) = true)
    (suspend : ¬(p.termios.isig && c = p.termios.cc .vsusp) = true) :
    (ldInput p c).s2m = (s2mPushes p (echoOf p.termios p.edit.length c)).s2m ∧
      (ldInput p c).termios = p.termios ∧ (ldInput p c).slaveOpen = p.slaveOpen ∧
      (ldInput p c).edit = lineOf p.termios p.edit c := by
  have unsignalled : ¬(p.termios.isig && (c = p.termios.cc .vintr || c = p.termios.cc .vsusp)) = true := by
    simp only [Bool.and_eq_true, decide_eq_true_eq, Bool.or_eq_true] at *
    tauto
  rw [ldInput, echoOf, lineOf, if_neg interrupt, if_neg suspend, if_pos canonical, if_neg interrupt, if_neg suspend,
    if_pos canonical, if_neg unsignalled, if_pos canonical]
  -- The cases follow the branches of the source, in its order.
  by_cases erase : c = p.termios.cc .verase ∨ c = bs
  · rw [if_pos erase, if_pos erase, if_pos erase]
    by_cases none : p.edit.length = 0
    · rw [if_pos none, List.eq_nil_of_length_eq_zero none]
      exact ⟨by simp [s2mPushes], rfl, rfl, rfl⟩
    · rw [if_neg none]
      unfold ldErase
      split
      · rename_i echoes
        obtain ⟨_, termios, edit, slaveOpen⟩ := @s2mPushes_frame [bs, 32, bs] { p with edit := p.edit.dropLast }
        rw [if_pos ⟨none, echoes⟩]
        exact ⟨s2mPushes_s2m rfl, termios, slaveOpen, edit⟩
      · rename_i silent
        rw [if_neg fun both => silent both.2]
        exact ⟨rfl, rfl, rfl, rfl⟩
  rw [if_neg erase, if_neg erase, if_neg erase]
  by_cases kill : c = p.termios.cc .vkill
  · rw [if_pos kill, if_pos kill, if_pos (Or.inl kill)]
    obtain ⟨s2m, _, termios, slaveOpen, edit⟩ := @ldKill_spec p.edit.length p rfl
    exact ⟨s2m, termios, slaveOpen, edit⟩
  rw [if_neg kill, if_neg kill]
  by_cases eof : c = p.termios.cc .veof
  · rw [if_pos eof, if_pos eof, if_pos (Or.inr (Or.inl eof))]
    split
    · rename_i none
      exact ⟨rfl, rfl, rfl, List.eq_nil_of_length_eq_zero none⟩
    · obtain ⟨s2m, termios, _, slaveOpen⟩ := @m2sPushes_frame p.edit p
      exact ⟨s2m, termios, slaveOpen, rfl⟩
  rw [if_neg eof, if_neg eof]
  by_cases newline : c = lf
  · rw [if_pos newline, if_pos newline, if_pos (Or.inr (Or.inr newline))]
    obtain ⟨s2m, _, termios, _, slaveOpen⟩ := echoBytes_spec p (newlineEcho p.termios)
    obtain ⟨s2m', termios', _, slaveOpen'⟩ := @m2sPushes_frame (p.edit ++ [lf]) (echoBytes p (newlineEcho p.termios))
    exact ⟨s2m'.trans s2m, termios'.trans termios, slaveOpen'.trans slaveOpen, rfl⟩
  rw [if_neg newline, if_neg newline, if_neg (show ¬(c = p.termios.cc .vkill ∨ c = p.termios.cc .veof ∨ c = lf) by tauto)]
  by_cases printable : c = 9 ∨ (32 ≤ c ∧ c < 127)
  · rw [if_pos printable, if_pos printable]
    have appended : (ldAppend p c).s2m = p.s2m ∧ (ldAppend p c).termios = p.termios ∧
        (ldAppend p c).slaveOpen = p.slaveOpen ∧
        (ldAppend p c).edit = if (c = 9 ∨ (32 ≤ c ∧ c < 127)) ∧ p.edit.length < ptyEditMax then p.edit ++ [c]
          else p.edit := by
      unfold ldAppend
      split
      · rename_i room
        exact ⟨rfl, rfl, rfl, by rw [if_pos ⟨printable, room⟩]⟩
      · rename_i full
        exact ⟨rfl, rfl, rfl, by rw [if_neg fun both => full both.2]⟩
    obtain ⟨s2m, _, termios, edit, slaveOpen⟩ := echoBytes_spec (ldAppend p c) [c]
    rw [appended.2.1] at s2m
    exact ⟨s2m.trans (s2mPushes_s2m appended.1), termios.trans appended.2.1, slaveOpen.trans appended.2.2.1,
      edit.trans appended.2.2.2⟩
  · rw [if_neg printable, if_neg printable, if_neg fun both => printable both.1]
    exact ⟨rfl, rfl, rfl, rfl⟩

theorem ptyLdByte_spec (p : Pty) (c : UInt8) :
    (ptyLdByte p c).s2m = (s2mPushes p (echoOf p.termios p.edit.length (inputOf p.termios c))).s2m ∧
      (ptyLdByte p c).termios = p.termios ∧ (ptyLdByte p c).slaveOpen = p.slaveOpen ∧
      (ptyLdByte p c).edit = lineOf p.termios p.edit (inputOf p.termios c) ∧
      (p.termios.raw = true → (ptyLdByte p c).m2s = (m2sPushes p [c]).m2s) := by
  have raw : p.termios.raw = true → p.termios.icanon = false ∧ p.termios.isig = false ∧ inputOf p.termios c = c := by
    intro raw
    simp only [Termios.raw, Bool.and_eq_true, Bool.not_eq_true'] at raw
    exact ⟨raw.1.1, raw.1.2, by simp [inputOf, raw.2]⟩
  rw [ptyLdByte]
  generalize inputOf p.termios c = input at *
  by_cases interrupt : (p.termios.isig && input = p.termios.cc .vintr) = true
  · have both : p.termios.isig = true ∧ input = p.termios.cc .vintr := by simpa using interrupt
    obtain ⟨s2m, termios, slaveOpen, edit⟩ := ldSignal_spec p .sigint 67
    rw [ldInput, if_pos interrupt, echoOf, if_pos interrupt]
    refine ⟨s2m, termios, slaveOpen, by rw [edit]; simp [lineOf, both], fun yes => ?_⟩
    rw [(raw yes).2.1] at both
    cases both.1
  by_cases suspend : (p.termios.isig && input = p.termios.cc .vsusp) = true
  · have both : p.termios.isig = true ∧ input = p.termios.cc .vsusp := by simpa using suspend
    obtain ⟨s2m, termios, slaveOpen, edit⟩ := ldSignal_spec p .sigtstp 90
    rw [ldInput, if_neg interrupt, if_pos suspend, echoOf, if_neg interrupt, if_pos suspend]
    refine ⟨s2m, termios, slaveOpen, by rw [edit]; simp [lineOf, both], fun yes => ?_⟩
    rw [(raw yes).2.1] at both
    cases both.1
  cases canonical : p.termios.icanon with
  | true =>
    obtain ⟨s2m, termios, slaveOpen, edit⟩ := ldCanonical_spec p input canonical interrupt suspend
    refine ⟨s2m, termios, slaveOpen, edit, fun yes => ?_⟩
    rw [(raw yes).1] at canonical
    cases canonical
  | false =>
    have unsignalled : ¬(p.termios.isig && (input = p.termios.cc .vintr || input = p.termios.cc .vsusp)) = true := by
      simp only [Bool.and_eq_true, decide_eq_true_eq, Bool.or_eq_true] at *
      tauto
    have passed : p.termios.icanon ≠ true := by simp [canonical]
    rw [ldInput, echoOf, lineOf, if_neg interrupt, if_neg suspend, if_neg passed, if_neg interrupt, if_neg suspend,
      if_neg passed, if_neg unsignalled, if_neg passed]
    obtain ⟨s2m, termios, edit, slaveOpen⟩ := @m2sPushes_frame [input] p
    obtain ⟨s2m', m2s', termios', edit', slaveOpen'⟩ := echoBytes_spec (m2sPush p input).2 [input]
    have same : (m2sPush p input).2.termios = p.termios := termios
    rw [same] at s2m'
    exact ⟨s2m'.trans (s2mPushes_s2m s2m), termios'.trans termios, slaveOpen'.trans slaveOpen, edit'.trans edit,
      fun yes => by rw [← (raw yes).2.2]; exact m2s'⟩

theorem ptyLdBytes_spec (data : List UInt8) : ∀ {p : Pty},
    (data.foldl ptyLdByte p).s2m = (s2mPushes p (echoAll p.termios p.edit data)).s2m ∧
      (p.termios.raw = true → (data.foldl ptyLdByte p).m2s = (m2sPushes p data).m2s) := by
  induction data with
  | nil => exact fun {_} => ⟨rfl, fun _ => rfl⟩
  | cons c rest ih =>
    intro p
    obtain ⟨s2m, termios, _, edit, m2s⟩ := ptyLdByte_spec p c
    obtain ⟨s2m', m2s'⟩ := @ih (ptyLdByte p c)
    rw [termios] at s2m' m2s'
    rw [edit] at s2m'
    refine ⟨?_, fun raw => ?_⟩
    · rw [List.foldl_cons, s2m', echoAll, s2mPushes_append]
      exact s2mPushes_s2m s2m
    · rw [List.foldl_cons, m2s' raw]
      exact m2sPushes_m2s (m2s raw)

theorem ptySlaveBytes_spec (data : List UInt8) : ∀ {p : Pty},
    data.foldl (fun p c => s2mPushes p (outputOf p.termios c)) p = s2mPushes p (data.flatMap (outputOf p.termios)) := by
  induction data with
  | nil => exact fun {_} => rfl
  | cons c rest ih =>
    intro p
    rw [List.foldl_cons, @ih (s2mPushes p (outputOf p.termios c)), (s2mPushes_frame _).2.1, List.flatMap_cons,
      s2mPushes_append]

theorem masterTake_spec (n : Nat) : ∀ {p : Pty}, p.s2m.contents = (masterTake p n).1 ++ (masterTake p n).2.s2m.contents ∧
    (masterTake p n).2.m2s = p.m2s := by
  induction n with
  | zero => exact fun {_} => ⟨rfl, rfl⟩
  | succ n ih =>
    intro p
    rw [masterTake, s2mPop]
    cases popped : p.s2m.pop with
    | none => exact ⟨rfl, rfl⟩
    | some front =>
      obtain ⟨c, rest⟩ := front
      obtain ⟨contents, m2s⟩ := @ih { p with s2m := rest }
      refine ⟨?_, m2s⟩
      rw [Ring.pop_contents popped, contents]
      rfl

theorem slaveTake_spec (n : Nat) : ∀ {p : Pty}, p.m2s.contents = (slaveTake p n).1 ++ (slaveTake p n).2.m2s.contents ∧
    (slaveTake p n).2.s2m = p.s2m := by
  induction n with
  | zero => exact fun {_} => ⟨rfl, rfl⟩
  | succ n ih =>
    intro p
    rw [slaveTake, m2sPop]
    cases popped : p.m2s.pop with
    | none => exact ⟨rfl, rfl⟩
    | some front =>
      obtain ⟨c, rest⟩ := front
      have first := Ring.pop_contents popped
      dsimp only [Option.map_some]
      split
      · exact ⟨first, rfl⟩
      · obtain ⟨contents, s2m⟩ := @ih { p with m2s := rest }
        refine ⟨?_, s2m⟩
        rw [first, contents]
        rfl

theorem masterReadTurn_spec (p : Pty) (task count : Nat) (nonblock : Bool) :
    p.s2m.contents = (masterReadTurn p task count nonblock).1.data ++
      (masterReadTurn p task count nonblock).2.s2m.contents ∧ (masterReadTurn p task count nonblock).2.m2s = p.m2s := by
  obtain ⟨contents, m2s⟩ := @masterTake_spec count p
  unfold masterReadTurn
  dsimp only
  split
  · exact ⟨contents, m2s⟩
  · rename_i none
    have empty : (masterTake p count).1 = [] := List.eq_nil_of_length_eq_zero (by omega)
    rw [empty] at contents
    split
    · exact ⟨contents, m2s⟩
    · split <;> exact ⟨contents, m2s⟩

theorem slaveReadTurn_spec (p : Pty) (task count : Nat) (nonblock : Bool) :
    p.m2s.contents = (slaveReadTurn p task count nonblock).1.data ++
      (slaveReadTurn p task count nonblock).2.m2s.contents ∧ (slaveReadTurn p task count nonblock).2.s2m = p.s2m := by
  obtain ⟨contents, s2m⟩ := @slaveTake_spec count p
  unfold slaveReadTurn
  split
  · exact ⟨rfl, rfl⟩
  · dsimp only
    split
    · exact ⟨contents, s2m⟩
    · rename_i none
      have empty : (slaveTake p count).1 = [] := List.eq_nil_of_length_eq_zero (by omega)
      rw [empty] at contents
      split
      · exact ⟨contents, s2m⟩
      · split <;> exact ⟨contents, s2m⟩

theorem Session.Acknowledged.masterRead (kept : s.Acknowledged) {q : Pty} (task count : Nat) (nonblock : Bool)
    (s2m : q.s2m = s.pty.s2m) (m2s : q.m2s = s.pty.m2s) :
    (s.masterRead (masterReadTurn q task count nonblock)).Acknowledged := by
  obtain ⟨contents, other⟩ := masterReadTurn_spec q task count nonblock
  rw [s2m] at contents
  refine ⟨?_, fun raw => ?_⟩
  · show s.slaveOut = s.masterGot ++ (masterReadTurn q task count nonblock).1.data ++
      (masterReadTurn q task count nonblock).2.s2m.contents
    rw [kept.output, contents, List.append_assoc]
  · show s.masterIn = s.slaveGot ++ (masterReadTurn q task count nonblock).2.m2s.contents
    rw [kept.input raw, other, m2s]

theorem Session.Acknowledged.slaveRead (kept : s.Acknowledged) {q : Pty} (task count : Nat) (nonblock : Bool)
    (s2m : q.s2m = s.pty.s2m) (m2s : q.m2s = s.pty.m2s) :
    (s.slaveRead (slaveReadTurn q task count nonblock)).Acknowledged := by
  obtain ⟨contents, other⟩ := slaveReadTurn_spec q task count nonblock
  rw [m2s] at contents
  refine ⟨?_, fun raw => ?_⟩
  · show s.slaveOut = s.masterGot ++ (slaveReadTurn q task count nonblock).2.s2m.contents
    rw [kept.output, other, s2m]
  · show s.masterIn = s.slaveGot ++ (slaveReadTurn q task count nonblock).1.data ++
      (slaveReadTurn q task count nonblock).2.m2s.contents
    rw [kept.input raw, contents, List.append_assoc]

theorem Session.Acknowledged.exec {op : Op} (kept : s.Acknowledged) (fits : Fits s op) (ran : exec s op = .ok s') :
    s'.Acknowledged := by
  have failed : ∀ reply : Reply, reply.data = [] → (s.masterRead (reply, s.pty)).Acknowledged ∧
      (s.slaveRead (reply, s.pty)).Acknowledged := by
    intro reply none
    simp only [Session.masterRead, Session.slaveRead, none, List.append_nil]
    exact ⟨kept, kept⟩
  cases op with
  | openSlave pgid sid =>
    cases ran
    exact ⟨kept.output, kept.input⟩
  | closeMaster =>
    cases ran
    exact ⟨kept.output, kept.input⟩
  | closeSlave =>
    cases ran
    exact ⟨kept.output, kept.input⟩
  | masterWrite data =>
    unfold Terminal.exec ptyMasterWrite at ran
    cases opened : s.pty.slaveOpen with
    | false =>
      simp only [opened] at ran
      cases ran
      exact kept
    | true =>
      simp only [opened] at ran
      cases ran
      obtain ⟨echo, through⟩ := fits opened
      obtain ⟨s2m, m2s⟩ := @ptyLdBytes_spec data s.pty
      refine ⟨?_, fun raw => ?_⟩
      · dsimp only
        rw [s2m, s2mPushes_contents, List.take_of_length_le echo, kept.output, List.append_assoc]
      · simp only [Bool.and_eq_true] at raw
        dsimp only
        rw [m2s raw.2, m2sPushes_contents, List.take_of_length_le (through raw.2), kept.input raw.1, List.append_assoc]
  | masterRead task count nonblock =>
    cases ran
    unfold ptyMasterRead
    split
    · exact (failed .eio rfl).1
    · exact kept.masterRead task count nonblock rfl rfl
  | masterWoken task count =>
    cases ran
    exact kept.masterRead task count false rfl rfl
  | slaveWrite data =>
    unfold Terminal.exec ptySlaveWrite at ran
    cases opened : s.pty.masterOpen with
    | false =>
      simp only [opened] at ran
      cases ran
      exact kept
    | true =>
      simp only [opened] at ran
      cases ran
      refine ⟨?_, fun raw => ?_⟩
      · dsimp only
        rw [ptySlaveBytes_spec, s2mPushes_contents, List.take_of_length_le (fits opened), kept.output, List.append_assoc]
      · dsimp only
        rw [ptySlaveBytes_spec, (s2mPushes_frame _).1]
        exact kept.input raw
  | slaveRead task pgid count nonblock =>
    cases ran
    unfold ptySlaveRead
    split
    · exact (failed .eio rfl).2
    · exact kept.slaveRead task count nonblock rfl rfl
  | slaveWoken task count =>
    cases ran
    exact kept.slaveRead task count false rfl rfl
  | setattr action t =>
    cases ran
    unfold ptyTcsetattr
    dsimp only
    rw [if_neg fits]
    exact ⟨kept.output, kept.input⟩

/-- In every run in which writes and their echo fit, no reported byte is lost, and each side reads a prefix of what was reported for it. -/
theorem run_acknowledged (run : Run exec Fits newSession s) :
    s.Acknowledged ∧ s.masterGot <+: s.slaveOut ∧ (s.raw = true → s.slaveGot <+: s.masterIn) := by
  have start : newSession.Acknowledged := ⟨rfl, fun _ => rfl⟩
  have kept : s.Acknowledged := Run.invariant start (fun kept fits ran => kept.exec fits ran) run
  exact ⟨kept, ⟨_, kept.output.symm⟩, fun raw => ⟨_, (kept.input raw).symm⟩⟩

theorem slaveWrite_kept_iff (kept : s.Acknowledged) (opened : s.pty.masterOpen = true) (data : List UInt8) :
    (∀ s', exec s (.slaveWrite data) = .ok s' → s'.Acknowledged) ↔
      (data.flatMap (outputOf s.pty.termios)).length ≤ s.pty.s2m.room := by
  have ran : exec s (.slaveWrite data) = .ok { s with
      pty := data.foldl (fun p c => s2mPushes p (outputOf p.termios c)) s.pty
      slaveOut := s.slaveOut ++ data.flatMap (outputOf s.pty.termios) } := by
    simp [exec, ptySlaveWrite, opened]
  refine ⟨fun all => ?_, fun fits s' ran =>
    @Session.Acknowledged.exec s s' (.slaveWrite data) kept (fun _ => fits) ran⟩
  have written := (all _ ran).output
  dsimp only at written
  rw [ptySlaveBytes_spec, s2mPushes_contents, kept.output, List.append_assoc, List.append_cancel_left_eq,
    List.append_cancel_left_eq] at written
  have lengths := congrArg List.length written
  rw [List.length_take] at lengths
  omega

end

/-- A line is written on the slave side, and read with its end processed. -/
theorem run_acknowledged_oneLine :
    ∃ s, Run exec Fits newSession s ∧ s.masterGot = [72, cr, lf] ∧ s.Acknowledged := by
  have written : Run exec Fits newSession _ := .call (.slaveWrite [72, lf]) .start (fun _ => by decide) rfl
  have read : Run exec Fits newSession _ := .call (.masterRead 1 8 true) written trivial rfl
  exact ⟨_, read, by decide, (run_acknowledged read).1⟩

/-- A write that is longer than the ring is reported as written whole. -/
theorem run_not_acknowledged :
    ¬ ∀ s, Run exec (fun _ _ => True) newSession s → s.Acknowledged := by
  intro claim
  have image : ((List.replicate ptyBufSize 97).flatMap (outputOf newSession.pty.termios)).length = ptyBufSize := by
    rw [List.flatMap_replicate]
    simp [newSession, ptyAlloc, ptyTermiosDefaults, outputOf, lf]
  have fits := (slaveWrite_kept_iff (claim _ .start) rfl (List.replicate ptyBufSize 97)).mp fun s' ran =>
    claim s' (.call (.slaveWrite (List.replicate ptyBufSize 97)) .start trivial ran)
  rw [image] at fits
  exact absurd fits (by decide)

end Enlil.Terminal
