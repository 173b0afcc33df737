import Enlil.Terminal.Acknowledged
import Enlil.Terminal.Tty

/-! Canonical reads of both terminals get what was typed, in its order, as long as the terminals can take it. -/

namespace Enlil.Terminal

/-- What was typed after one more character, if it is for the line. -/
def Typed.char (typed : Typed) (t : Termios) (c : UInt8) : Typed :=
  match keyOf t (inputOf t c) with
  | some key => typed.key key
  | none => typed

/-- A terminal can take a character, which is one for the line. -/
def Canon.TakesChar (cap editMax : Nat) (s : Canon) (t : Termios) (c : UInt8) : Prop :=
  match keyOf t (inputOf t c) with
  | some key => s.Takes cap editMax key
  | none => False

instance (cap editMax : Nat) (s : Canon) (t : Termios) (c : UInt8) : Decidable (s.TakesChar cap editMax t c) := by
  unfold Canon.TakesChar
  split <;> infer_instance

/-- A terminal with what was typed at it, what its reads have got, and what they should have got; a read that has to wait gets nothing yet. -/
structure Input (τ : Type) where
  term : τ
  typed : Typed
  got : List (Option (List UInt8))
  due : List (Option (List UInt8))

/-- A turn of a read. -/
def Input.read {τ : Type} (s : Input τ) (term : τ) (result : Option (List UInt8)) (count : Nat) : Input τ where
  term
  typed := (s.typed.read count).2
  got := s.got ++ [result]
  due := s.due ++ [(s.typed.read count).1]

/-- What a pair keeps for its slave. -/
def Pty.canon (p : Pty) : Canon := ⟨p.edit, p.m2s.contents, p.eofPending⟩

/-- What the console keeps. -/
def Tty.canon (s : Tty) : Canon := ⟨s.edit, s.ready, s.eofPending⟩

inductive PtyOp where
  /-- A character is typed at the master. -/
  | type (c : UInt8)
  | read (task pgid count : Nat) (nonblock : Bool)
  /-- A reader that slept tries again. -/
  | woken (task count : Nat)

/-- The data that a turn of a read of the slave returns. -/
def Reply.result : Reply → Option (List UInt8)
  | .got data => some data
  | _ => none

def ptyExec (s : Input Pty) : PtyOp → Except Empty (Input Pty)
  | .type c => .ok { s with term := (ptyMasterWrite s.term [c]).2, typed := s.typed.char s.term.termios c }
  | .read task pgid count nonblock =>
    let turn := ptySlaveRead s.term task pgid count nonblock
    .ok (s.read turn.2 turn.1.result count)
  | .woken task count =>
    let turn := slaveReadTurn { s.term with slaveReader := none } task count false
    .ok (s.read turn.2 turn.1.result count)

/-- Reads ask for something, and the pair can take what is typed. -/
def PtyFits (s : Input Pty) : PtyOp → Prop
  | .type c => s.term.canon.TakesChar (ptyBufSize - 1) ptyEditMax s.term.termios c
  | .read _ _ count _ | .woken _ count => 0 < count

/-- A pair with both ends open and some modes. -/
def newPtyInput (t : Termios) : Input Pty :=
  ⟨{ ptyOpenSlave ptyAlloc 1 1 with termios := t }, ⟨[], []⟩, [], []⟩

inductive TtyOp where
  /-- The characters that the keyboard has go through the line discipline. -/
  | poll (keys : List UInt8)
  | read (caller : TtyCaller) (groups : Groups) (keys : List UInt8) (pending : Bool) (count : Nat)

/-- What was typed after some more characters. -/
def Typed.chars (typed : Typed) (t : Termios) (keys : List UInt8) : Typed := keys.foldl (fun typed c => typed.char t c) typed

/-- Whether a read comes to the line discipline. -/
def readsOn (s : Tty) (caller : TtyCaller) (groups : Groups) (count : Nat) : Bool :=
  count ≠ 0 && !ttyIsBackgroundCurrent (ttyAdoptCurrentSession s caller groups) caller groups

def ttyExec (s : Input Tty) : TtyOp → Except Empty (Input Tty)
  | .poll keys => .ok { s with term := ttyPumpInput s.term keys, typed := s.typed.chars s.term.termios keys }
  | .read caller groups keys pending count =>
    let turn := ttyRead s.term caller groups keys pending count
    let s' := { s with term := turn.2 }
    -- A read in the background, and one that a signal interrupts, has no result.
    if !readsOn s.term caller groups count then .ok s'
    else
      let s' := { s' with typed := s.typed.chars s.term.termios keys }
      match turn.1 with
      | .got data => .ok (s'.read turn.2 (some data) count)
      | .yields => .ok (s'.read turn.2 none count)
      | _ => .ok s'

/-- The console can take characters, each after those before it. -/
def Tty.TakesAll (s : Tty) : List UInt8 → Prop
  | [] => True
  | c :: keys => s.canon.TakesChar (ttyReadyMax - 1) ttyEditMax s.termios c ∧ (ttyHandleInputChar s c).TakesAll keys

/-- The console can take what is typed when it looks at the keyboard. -/
def TtyFits (s : Input Tty) : TtyOp → Prop
  | .poll keys => s.term.TakesAll keys
  | .read caller groups keys _ count =>
    readsOn s.term caller groups count = true → (ttyAdoptCurrentSession s.term caller groups).TakesAll keys

/-- The console with some modes. -/
def newTtyInput (t : Termios) : Input Tty := ⟨{ ttyInit with termios := t }, ⟨[], []⟩, [], []⟩

section

variable {p q : Pty} {c : UInt8} {key : Key} {t : Termios}

theorem s2mPushes_eq (p : Pty) (bytes : List UInt8) :
    ∃ s2m reader, s2mPushes p bytes = { p with s2m, masterReader := reader } := by
  induction bytes generalizing p with
  | nil => exact ⟨p.s2m, p.masterReader, rfl⟩
  | cons c bytes ih =>
    obtain ⟨s2m, reader, same⟩ := ih (s2mPush p c).2
    refine ⟨s2m, reader, ?_⟩
    rw [show s2mPushes p (c :: bytes) = s2mPushes (s2mPush p c).2 bytes from rfl, same, s2mPush]
    split <;> rfl

theorem m2sPushes_eq (p : Pty) (bytes : List UInt8) :
    ∃ m2s reader, m2sPushes p bytes = { p with m2s, slaveReader := reader } := by
  induction bytes generalizing p with
  | nil => exact ⟨p.m2s, p.slaveReader, rfl⟩
  | cons c bytes ih =>
    obtain ⟨m2s, reader, same⟩ := ih (m2sPush p c).2
    refine ⟨m2s, reader, ?_⟩
    rw [show m2sPushes p (c :: bytes) = m2sPushes (m2sPush p c).2 bytes from rfl, same, m2sPush]
    split <;> rfl

/-- A step of a pair that follows a step of what it keeps, with its modes and its ends as they were. -/
structure Pty.Follows (p : Pty) (canon : Canon) (q : Pty) : Prop where
  canon : q.canon = canon
  termios : q.termios = p.termios
  masterOpen : q.masterOpen = p.masterOpen
  slaveOpen : q.slaveOpen = p.slaveOpen

theorem s2mPushes_follows (p : Pty) (bytes : List UInt8) : p.Follows p.canon (s2mPushes p bytes) := by
  obtain ⟨s2m, reader, same⟩ := s2mPushes_eq p bytes
  rw [same]
  exact ⟨rfl, rfl, rfl, rfl⟩

theorem echoBytes_follows (p : Pty) (bytes : List UInt8) : p.Follows p.canon (echoBytes p bytes) := by
  unfold echoBytes
  split
  · exact s2mPushes_follows p bytes
  · exact ⟨rfl, rfl, rfl, rfl⟩

theorem ldErase_follows (p : Pty) : p.Follows { p.canon with edit := p.edit.dropLast } (ldErase p) := by
  unfold ldErase
  split
  · obtain ⟨canon, termios, masterOpen, slaveOpen⟩ := s2mPushes_follows { p with edit := p.edit.dropLast } [bs, 32, bs]
    exact ⟨canon, termios, masterOpen, slaveOpen⟩
  · exact ⟨rfl, rfl, rfl, rfl⟩

theorem ldKill_follows (n : Nat) (count : p.edit.length = n) : p.Follows { p.canon with edit := [] } (ldKill p n) := by
  induction n generalizing p with
  | zero =>
    have empty : p.edit = [] := List.eq_nil_of_length_eq_zero count
    exact ⟨by rw [← empty]; rfl, rfl, rfl, rfl⟩
  | succ n ih =>
    have one := ldErase_follows p
    have fewer : (ldErase p).edit = p.edit.dropLast := congrArg Canon.edit one.canon
    obtain ⟨canon, termios, masterOpen, slaveOpen⟩ := ih (p := ldErase p) (by
      rw [fewer, List.length_dropLast, count]
      rfl)
    rw [ldKill]
    refine ⟨canon.trans ?_, termios.trans one.termios, masterOpen.trans one.masterOpen, slaveOpen.trans one.slaveOpen⟩
    rw [one.canon]

theorem m2sPushes_follows (p : Pty) (bytes : List UInt8) :
    p.Follows { p.canon with edit := [], ready := p.m2s.contents ++ bytes.take (ptyBufSize - 1 - p.m2s.contents.length) }
      { m2sPushes p bytes with edit := [] } := by
  have contents := m2sPushes_contents bytes (p := p)
  obtain ⟨m2s, reader, same⟩ := m2sPushes_eq p bytes
  rw [same] at contents ⊢
  rw [Ring.contents_length]
  exact ⟨congrArg (Canon.mk [] · p.eofPending) contents, rfl, rfl, rfl⟩

theorem no_signal (is : keyOf t c = some key) :
    (t.isig && decide (c = t.cc .vintr)) = false ∧ (t.isig && decide (c = t.cc .vsusp)) = false := by
  unfold keyOf at is
  split at is
  · cases is
  rename_i quiet
  cases signals : t.isig with
  | false => exact ⟨rfl, rfl⟩
  | true =>
    rw [signals, Bool.true_and, Bool.not_eq_true, Bool.or_eq_false_iff] at quiet
    exact quiet

theorem ldInput_follows (canonical : p.termios.icanon = true) (is : keyOf p.termios c = some key) :
    p.Follows (p.canon.key (ptyBufSize - 1) ptyEditMax key) (ldInput p c) := by
  obtain ⟨intr, susp⟩ := no_signal is
  unfold ldInput
  rw [intr, susp, canonical]
  simp only [Bool.false_eq_true, if_false, if_true]
  unfold keyOf at is
  split at is
  · cases is
  split at is
  · rename_i erase
    cases is
    rw [if_pos erase]
    split
    · rename_i none
      have empty : p.edit = [] := List.eq_nil_of_length_eq_zero none
      exact ⟨by simp [Canon.key, Pty.canon, empty], rfl, rfl, rfl⟩
    · exact ldErase_follows p
  rename_i erase
  rw [if_neg erase]
  split at is
  · rename_i kill
    cases is
    rw [if_pos kill]
    exact ldKill_follows p.edit.length rfl
  rename_i kill
  rw [if_neg kill]
  split at is
  · rename_i eof
    cases is
    rw [if_pos eof]
    split
    · rename_i none
      exact ⟨by simp [Canon.key, Pty.canon, none], rfl, rfl, rfl⟩
    · rename_i some
      obtain ⟨canon, termios, masterOpen, slaveOpen⟩ := m2sPushes_follows p p.edit
      refine ⟨canon.trans ?_, termios, masterOpen, slaveOpen⟩
      exact (if_neg some).symm
  rename_i eof
  rw [if_neg eof]
  split at is
  · rename_i newline
    cases is
    rw [if_pos newline]
    have echo := echoBytes_follows p (newlineEcho p.termios)
    obtain ⟨canon, termios, masterOpen, slaveOpen⟩ :=
      m2sPushes_follows (echoBytes p (newlineEcho p.termios)) (p.edit ++ [lf])
    have ready : (echoBytes p (newlineEcho p.termios)).m2s.contents = p.m2s.contents := congrArg Canon.ready echo.canon
    refine ⟨canon.trans ?_, termios.trans echo.termios, masterOpen.trans echo.masterOpen, slaveOpen.trans echo.slaveOpen⟩
    rw [ready, echo.canon]
    rfl
  rename_i newline
  rw [if_neg newline]
  split at is
  · rename_i proper
    cases is
    rw [if_pos proper]
    have echo := echoBytes_follows (ldAppend p c) [c]
    have appended : p.Follows (p.canon.key (ptyBufSize - 1) ptyEditMax (.ordinary c)) (ldAppend p c) := by
      unfold ldAppend
      split
      · rename_i room
        exact ⟨(if_pos room).symm, rfl, rfl, rfl⟩
      · rename_i full
        exact ⟨(if_neg full).symm, rfl, rfl, rfl⟩
    exact ⟨echo.canon.trans appended.canon, echo.termios.trans appended.termios,
      echo.masterOpen.trans appended.masterOpen, echo.slaveOpen.trans appended.slaveOpen⟩
  · cases is

theorem slaveTake_follows (canonical : p.termios.icanon = true) (n : Nat) :
    (slaveTake p n).1 = pieceOf lf n p.m2s.contents ∧
      p.Follows { p.canon with ready := p.m2s.contents.drop (pieceOf lf n p.m2s.contents).length } (slaveTake p n).2 := by
  induction n generalizing p with
  | zero => exact ⟨rfl, rfl, rfl, rfl, rfl⟩
  | succ n ih =>
    rw [slaveTake, m2sPop]
    cases popped : p.m2s.pop with
    | none =>
      have empty : p.m2s.contents = [] := by
        unfold Ring.pop at popped
        split at popped
        · rename_i none
          exact List.eq_nil_of_length_eq_zero ((Ring.contents_length _).trans (rbEmpty_iff.mp none))
        · cases popped
      have kept : p.canon = { p.canon with ready := [] } := by rw [Pty.canon, empty]
      dsimp only [Option.map_none]
      rw [empty]
      exact ⟨rfl, kept, rfl, rfl, rfl⟩
    | some front =>
      obtain ⟨c, rest⟩ := front
      rw [Ring.pop_contents popped]
      dsimp only [Option.map_some]
      rw [canonical, Bool.true_and, pieceOf]
      by_cases line : c = lf
      · rw [if_pos (decide_eq_true line), if_pos line, line]
        exact ⟨rfl, rfl, rfl, rfl, rfl⟩
      · rw [if_neg (by simpa using line), if_neg line]
        obtain ⟨data, canon, termios, masterOpen, slaveOpen⟩ := ih (p := { p with m2s := rest }) canonical
        exact ⟨congrArg (c :: ·) data, canon, termios, masterOpen, slaveOpen⟩

theorem slaveReadTurn_follows (canonical : p.termios.icanon = true) (opened : p.masterOpen = true) (task : Nat) {count : Nat}
    (some : 0 < count) (nonblock : Bool) :
    (slaveReadTurn p task count nonblock).1.result = (p.canon.read count).1 ∧
      p.Follows (p.canon.read count).2 (slaveReadTurn p task count nonblock).2 := by
  have ready : rbEmpty p.m2s = decide (p.m2s.contents = []) := by
    rw [Bool.eq_iff_iff, rbEmpty_iff, decide_eq_true_iff, ← Ring.contents_length, List.length_eq_zero_iff]
  obtain ⟨data, follows⟩ := slaveTake_follows canonical count
  have taken : 0 < (slaveTake p count).1.length ↔ p.m2s.contents ≠ [] := by
    rw [data, List.length_pos_iff]
    refine ⟨fun piece empty => ?_, pieceOf_ne_nil some⟩
    rw [empty] at piece
    cases count <;> exact piece rfl
  unfold slaveReadTurn Canon.read
  rw [ready]
  by_cases empty : p.m2s.contents = []
  · have nothing : p.canon.ready = [] := empty
    cases pending : p.eofPending with
    | true =>
      have same : p.canon.eof = true := pending
      simp only [empty, nothing, same, decide_true, Bool.and_self, if_true]
      exact ⟨rfl, by rw [Pty.canon, Pty.canon, empty], rfl, rfl, rfl⟩
    | false =>
      have same : p.canon.eof = false := pending
      have none : ¬ 0 < (slaveTake p count).1.length := fun more => taken.mp more empty
      have kept : p.Follows p.canon (slaveTake p count).2 := by
        obtain ⟨canon, termios, masterOpen, slaveOpen⟩ := follows
        refine ⟨canon.trans ?_, termios, masterOpen, slaveOpen⟩
        rw [empty, List.drop_nil, Pty.canon, empty]
      simp only [empty, nothing, same, decide_true, Bool.false_and, Bool.false_eq_true, if_false, if_true, if_neg none]
      split
      · exact ⟨rfl, kept⟩
      · rw [opened]
        obtain ⟨canon, termios, masterOpen, slaveOpen⟩ := kept
        exact ⟨rfl, canon, termios, masterOpen, slaveOpen⟩
  · have something : p.canon.ready ≠ [] := empty
    simp only [empty, something, decide_false, Bool.and_false, Bool.false_eq_true, if_false, if_pos (taken.mpr empty)]
    exact ⟨congrArg Option.some data, follows⟩

end

section

variable {s : Tty} {c : UInt8} {key : Key}

/-- A step of the console that follows a step of what it keeps, with its modes as they were. -/
structure Tty.Follows (s : Tty) (canon : Canon) (s' : Tty) : Prop where
  canon : s'.canon = canon
  termios : s'.termios = s.termios

theorem ttyPushes_eq (s : Tty) (bytes : List UInt8) :
    ttyPushes s bytes = { s with ready := s.ready ++ bytes.take (ttyReadyMax - 1 - s.ready.length) } := by
  induction bytes generalizing s with
  | nil => rw [ttyPushes, List.take_nil, List.append_nil]
  | cons c bytes ih =>
    rw [ttyPushes, ttyReadyPush]
    split
    · rename_i pushed
      split at pushed
      · cases pushed
      · rename_i room
        cases pushed
        obtain ⟨n, left⟩ : ∃ n, ttyReadyMax - 1 - s.ready.length = n + 1 := ⟨ttyReadyMax - 1 - s.ready.length - 1, by omega⟩
        have less : ttyReadyMax - 1 - (s.ready ++ [c]).length = n := by
          rw [List.length_append, List.length_singleton]
          omega
        rw [ih, left, List.take_succ_cons]
        dsimp only
        rw [less, List.append_assoc]
        rfl
    · rename_i pushed
      split at pushed
      · rename_i full
        cases pushed
        rw [Nat.sub_eq_zero_of_le full, List.take_zero, List.append_nil]
      · cases pushed

theorem ttyReadyPush_eq (s : Tty) (c : UInt8) :
    (ttyReadyPush s c).2 = { s with ready := s.ready ++ [c].take (ttyReadyMax - 1 - s.ready.length) } := by
  have one := ttyPushes_eq s [c]
  rw [ttyPushes] at one
  split at one
  · rename_i pushed
    rw [pushed]
    exact one
  · rename_i pushed
    rw [pushed]
    exact one

theorem ttyCommitLine_eq (s : Tty) :
    ttyCommitLine s =
      { s with edit := [], ready := s.ready ++ (s.edit ++ [lf]).take (ttyReadyMax - 1 - s.ready.length) } := by
  rw [ttyCommitLine, ttyReadyPush_eq, ttyPushes_eq]
  dsimp only
  have left : ttyReadyMax - 1 - (s.ready ++ s.edit.take (ttyReadyMax - 1 - s.ready.length)).length =
      ttyReadyMax - 1 - s.ready.length - s.edit.length := by
    rw [List.length_append, List.length_take]
    omega
  rw [left, List.append_assoc, List.take_append]

theorem ttyErase_follows (s : Tty) : s.Follows { s.canon with edit := s.edit.dropLast } (ttyErase s) := by
  unfold ttyErase
  dsimp only
  split <;> exact ⟨rfl, rfl⟩

theorem ttyKill_follows (n : Nat) (count : s.edit.length = n) : s.Follows { s.canon with edit := [] } (ttyKill s n) := by
  induction n generalizing s with
  | zero =>
    have empty : s.edit = [] := List.eq_nil_of_length_eq_zero count
    exact ⟨by rw [← empty]; rfl, rfl⟩
  | succ n ih =>
    have one := ttyErase_follows s
    have fewer : (ttyErase s).edit = s.edit.dropLast := congrArg Canon.edit one.canon
    obtain ⟨canon, termios⟩ := ih (s := ttyErase s) (by
      rw [fewer, List.length_dropLast, count]
      rfl)
    rw [ttyKill]
    refine ⟨canon.trans ?_, termios.trans one.termios⟩
    rw [one.canon]

theorem ttyInput_follows (canonical : s.termios.icanon = true) (is : keyOf s.termios c = some key) :
    s.Follows (s.canon.key (ttyReadyMax - 1) ttyEditMax key) (ttyInput s c) := by
  obtain ⟨intr, susp⟩ := no_signal is
  unfold ttyInput
  rw [intr, susp, canonical]
  simp only [Bool.false_eq_true, if_false, if_true]
  unfold keyOf at is
  split at is
  · cases is
  split at is
  · rename_i erase
    cases is
    rw [if_pos erase]
    split
    · rename_i none
      have empty : s.edit = [] := List.eq_nil_of_length_eq_zero none
      exact ⟨by simp [Canon.key, Tty.canon, empty], rfl⟩
    · exact ttyErase_follows s
  rename_i erase
  rw [if_neg erase]
  split at is
  · rename_i kill
    cases is
    rw [if_pos kill]
    exact ttyKill_follows s.edit.length rfl
  rename_i kill
  rw [if_neg kill]
  split at is
  · rename_i eof
    cases is
    rw [if_pos eof]
    split
    · rename_i none
      exact ⟨by simp [Canon.key, Tty.canon, none], rfl⟩
    · rename_i some
      rw [ttyCommitPartialLine, ttyPushes_eq]
      exact ⟨(if_neg some).symm, rfl⟩
  rename_i eof
  rw [if_neg eof]
  split at is
  · rename_i newline
    cases is
    rw [if_pos newline, ttyCommitLine_eq]
    split <;> exact ⟨rfl, rfl⟩
  rename_i newline
  rw [if_neg newline]
  split at is
  · rename_i proper
    cases is
    rw [if_pos proper]
    split
    · rename_i room
      split <;> exact ⟨(if_pos room).symm, rfl⟩
    · rename_i full
      exact ⟨(if_neg full).symm, rfl⟩
  · cases is

theorem ttyTake_follows (canonical : s.termios.icanon = true) (n : Nat) :
    (ttyTake s n).1 = pieceOf lf n s.ready ∧
      s.Follows { s.canon with ready := s.ready.drop (pieceOf lf n s.ready).length } (ttyTake s n).2 := by
  induction n generalizing s with
  | zero => exact ⟨rfl, rfl, rfl⟩
  | succ n ih =>
    rw [ttyTake, ttyReadyPop]
    cases front : s.ready with
    | nil =>
      have kept : s.canon = { s.canon with ready := [] } := by rw [Tty.canon, front]
      exact ⟨rfl, kept, rfl⟩
    | cons c ready =>
      dsimp only
      rw [canonical, Bool.true_and, pieceOf]
      by_cases line : c = lf
      · rw [if_pos (decide_eq_true line), if_pos line, line]
        exact ⟨rfl, rfl, rfl⟩
      · rw [if_neg (by simpa using line), if_neg line]
        obtain ⟨data, canon, termios⟩ := ih (s := { s with ready }) canonical
        exact ⟨congrArg (c :: ·) data, canon, termios⟩

theorem adopt_follows (s : Tty) (caller : TtyCaller) (groups : Groups) :
    s.Follows s.canon (ttyAdoptCurrentSession s caller groups) := by
  unfold ttyAdoptCurrentSession
  repeat' split
  all_goals exact ⟨rfl, rfl⟩

end

section

variable {s : Input Tty} {i : Input Pty} {t : Termios}

/-- The reads so far have got what they should, and the pair keeps what was typed. -/
structure PtyGood (t : Termios) (i : Input Pty) : Prop where
  same : i.got = i.due
  keeps : Keeps i.term.canon i.typed
  termios : i.term.termios = t
  masterOpen : i.term.masterOpen = true
  slaveOpen : i.term.slaveOpen = true

theorem Keeps.char {canon : Canon} {typed : Typed} {cap editMax : Nat} {c : UInt8} (keeps : Keeps canon typed)
    (takes : canon.TakesChar cap editMax t c) :
    ∃ key, keyOf t (inputOf t c) = some key ∧ Keeps (canon.key cap editMax key) (typed.char t c) := by
  unfold Canon.TakesChar at takes
  unfold Typed.char
  split at takes
  · rename_i key is
    refine ⟨key, is, ?_⟩
    exact keeps.key (fun d same => keyOf_ordinary (same ▸ is)) takes
  · cases takes

theorem PtyGood.read (good : PtyGood t i) (canonical : t.icanon = true) {p : Pty} (same : p.canon = i.term.canon)
    (termios : p.termios = t) (masterOpen : p.masterOpen = true) (slaveOpen : p.slaveOpen = true) (task : Nat) {count : Nat}
    (some : 0 < count) (nonblock : Bool) :
    PtyGood t (i.read (slaveReadTurn p task count nonblock).2 (slaveReadTurn p task count nonblock).1.result count) := by
  obtain ⟨result, canon, modes, master, slave⟩ :=
    slaveReadTurn_follows (by rw [termios]; exact canonical) masterOpen task some nonblock
  obtain ⟨first, keeps⟩ := good.keeps.read count
  rw [same] at result canon
  refine ⟨?_, ?_, modes.trans termios, master.trans masterOpen, slave.trans slaveOpen⟩
  · rw [Input.read, good.same, result, first]
  · rw [← canon] at keeps
    exact keeps

theorem PtyGood.exec (canonical : t.icanon = true) {i' : Input Pty} {op : PtyOp} (good : PtyGood t i) (fits : PtyFits i op)
    (ran : ptyExec i op = .ok i') : PtyGood t i' := by
  obtain ⟨same, keeps, termios, masterOpen, slaveOpen⟩ := good
  cases op with
  | type c =>
    cases ran
    obtain ⟨key, is, kept⟩ := keeps.char fits
    have typed : (ptyMasterWrite i.term [c]).2 = ptyLdByte i.term c := by
      rw [ptyMasterWrite, slaveOpen]
      rfl
    obtain ⟨canon, modes, master, slave⟩ := ldInput_follows (by rw [termios]; exact canonical) is
    refine ⟨same, ?_, ?_, ?_, ?_⟩
    · rw [typed, ptyLdByte, canon]
      exact kept
    · rw [typed]
      exact modes.trans termios
    · rw [typed]
      exact master.trans masterOpen
    · rw [typed]
      exact slave.trans slaveOpen
  | read task pgid count nonblock =>
    cases ran
    have opened : ptySlaveRead i.term task pgid count nonblock =
        slaveReadTurn { i.term with slavePgid := if pgid ≠ 0 then pgid else i.term.slavePgid } task count nonblock := by
      exact if_neg (by rw [slaveOpen]; decide)
    rw [opened]
    exact PtyGood.read (p := { i.term with slavePgid := if pgid ≠ 0 then pgid else i.term.slavePgid })
      ⟨same, keeps, termios, masterOpen, slaveOpen⟩ canonical rfl termios masterOpen slaveOpen task fits nonblock
  | woken task count =>
    cases ran
    exact PtyGood.read (p := { i.term with slaveReader := none })
      ⟨same, keeps, termios, masterOpen, slaveOpen⟩ canonical rfl termios masterOpen slaveOpen task fits false

theorem ttyRead_back {tty : Tty} {caller : TtyCaller} {groups : Groups} {count : Nat}
    (back : readsOn tty caller groups count = false) (keys : List UInt8) (pending : Bool) :
    tty.Follows tty.canon (ttyRead tty caller groups keys pending count).2 := by
  obtain ⟨adopted, modes⟩ := adopt_follows tty caller groups
  unfold ttyRead
  split
  · exact ⟨rfl, rfl⟩
  rename_i some
  have background : ttyIsBackgroundCurrent (ttyAdoptCurrentSession tty caller groups) caller groups = true := by
    unfold readsOn at back
    simpa [some] using back
  dsimp only
  rw [if_pos background]
  split <;> exact ⟨adopted, modes⟩

theorem ttyRead_on {tty : Tty} {caller : TtyCaller} {groups : Groups} {count : Nat}
    (comes : readsOn tty caller groups count = true) (keys : List UInt8) (pending : Bool) :
    ttyRead tty caller groups keys pending count =
      let s := ttyPumpInput (ttyAdoptCurrentSession tty caller groups) keys
      if pending then (.eintr, s)
      else if s.eofPending && s.ready = [] then (.got [], { s with eofPending := false })
      else if s.ready = [] then (.yields, s)
      else (.got (ttyTake s count).1, (ttyTake s count).2) := by
  unfold readsOn at comes
  simp only [Bool.and_eq_true, decide_eq_true_eq, Bool.not_eq_true'] at comes
  obtain ⟨some, foreground⟩ := comes
  rw [ttyRead, if_neg some]
  dsimp only
  rw [foreground, if_neg Bool.false_ne_true]

/-- The reads so far have got what they should, and the console keeps what was typed. -/
structure TtyGood (t : Termios) (s : Input Tty) : Prop where
  same : s.got = s.due
  keeps : Keeps s.term.canon s.typed
  termios : s.term.termios = t

theorem pump_keeps (canonical : t.icanon = true) (keys : List UInt8) {tty : Tty} {typed : Typed} (termios : tty.termios = t)
    (keeps : Keeps tty.canon typed) (takes : tty.TakesAll keys) :
    Keeps (ttyPumpInput tty keys).canon (typed.chars t keys) ∧ (ttyPumpInput tty keys).termios = t := by
  induction keys generalizing tty typed with
  | nil => exact ⟨keeps, termios⟩
  | cons c keys ih =>
    obtain ⟨first, later⟩ := takes
    rw [termios] at first
    obtain ⟨key, is, kept⟩ := keeps.char first
    rw [← termios] at is
    obtain ⟨canon, modes⟩ := ttyInput_follows (by rw [termios]; exact canonical) is
    rw [← canon] at kept
    exact ih (modes.trans termios) kept later

theorem TtyGood.exec (canonical : t.icanon = true) {s' : Input Tty} {op : TtyOp} (good : TtyGood t s) (fits : TtyFits s op)
    (ran : ttyExec s op = .ok s') : TtyGood t s' := by
  obtain ⟨same, keeps, termios⟩ := good
  cases op with
  | poll keys =>
    cases ran
    obtain ⟨kept, modes⟩ := pump_keeps canonical keys termios keeps fits
    rw [← termios] at kept
    exact ⟨same, kept, modes⟩
  | read caller groups keys pending count =>
    obtain ⟨adopted, modes⟩ := adopt_follows s.term caller groups
    rw [termios] at modes
    rw [← adopted] at keeps
    rw [ttyExec] at ran
    dsimp only at ran
    split at ran
    · -- The call comes back before it looks at the keyboard.
      rename_i back
      cases ran
      rw [Bool.not_eq_true'] at back
      obtain ⟨canon, modes'⟩ := ttyRead_back back keys pending
      refine ⟨same, ?_, modes'.trans termios⟩
      rw [adopted] at keeps
      rw [canon]
      exact keeps
    · rename_i comes
      rw [Bool.not_eq_true', Bool.not_eq_false] at comes
      obtain ⟨kept, modes'⟩ := pump_keeps canonical keys modes keeps (fits comes)
      rw [ttyRead_on comes, termios] at ran
      generalize ttyPumpInput (ttyAdoptCurrentSession s.term caller groups) keys = tty at *
      generalize s.typed.chars t keys = typed at *
      obtain ⟨first, rest⟩ := kept.read count
      dsimp only at ran
      cases pending with
      | true =>
        cases ran
        exact ⟨same, kept, modes'⟩
      | false =>
        simp only [Bool.false_eq_true, if_false] at ran
        unfold Canon.read at first rest
        by_cases empty : tty.ready = []
        · have nothing : tty.canon.ready = [] := empty
          cases ended : tty.eofPending with
          | true =>
            have flag : tty.canon.eof = true := ended
            simp only [ended, empty, decide_true, Bool.and_self, if_true] at ran
            simp only [flag, nothing, decide_true, Bool.and_self, if_true] at first rest
            cases ran
            exact ⟨by rw [Input.read, same, first], rest, modes'⟩
          | false =>
            have flag : tty.canon.eof = false := ended
            simp only [ended, empty, decide_true, Bool.false_and, Bool.false_eq_true, if_false, if_true] at ran
            simp only [flag, nothing, decide_true, Bool.false_and, Bool.false_eq_true, if_false, if_true] at first rest
            cases ran
            exact ⟨by rw [Input.read, same, first], rest, modes'⟩
        · have something : tty.canon.ready ≠ [] := empty
          obtain ⟨data, canon, modes''⟩ := ttyTake_follows (by rw [modes']; exact canonical) count
          simp only [empty, decide_false, Bool.and_false, Bool.false_eq_true, if_false] at ran
          simp only [something, decide_false, Bool.and_false, Bool.false_eq_true, if_false] at first rest
          cases ran
          refine ⟨?_, ?_, modes''.trans modes'⟩
          · rw [Input.read, same, data]
            exact congrArg (s.due ++ [·]) first
          · rw [Input.read, canon]
            exact rest

theorem keeps_nothing : Keeps ⟨[], [], false⟩ ⟨[], []⟩ := ⟨rfl, rfl, List.not_mem_nil⟩

theorem emptyRing_contents : emptyRing.contents = [] :=
  List.eq_nil_of_length_eq_zero ((Ring.contents_length emptyRing).trans (by decide))

theorem newPtyInput_keeps (t : Termios) : Keeps (newPtyInput t).term.canon (newPtyInput t).typed := by
  have ready : (newPtyInput t).term.canon = ⟨[], emptyRing.contents, false⟩ := rfl
  rw [ready, emptyRing_contents]
  exact keeps_nothing

/-- Canonical reads get the lines and the ends of file in the order in which they were typed, in every run in which the terminal can take what is typed. -/
theorem canonical_order (t : Termios) (canonical : t.icanon = true) :
    (∀ i, Run ptyExec PtyFits (newPtyInput t) i → i.got = i.due) ∧
    ∀ s, Run ttyExec TtyFits (newTtyInput t) s → s.got = s.due := by
  constructor
  · intro i run
    have good : PtyGood t i := run.invariant ⟨rfl, newPtyInput_keeps t, rfl, rfl, rfl⟩ fun good fits ran => good.exec canonical fits ran
    exact good.same
  · intro s run
    have good : TtyGood t s := run.invariant ⟨rfl, keeps_nothing, rfl⟩ fun good fits ran => good.exec canonical fits ran
    exact good.same

instance (i : Input Pty) (op : PtyOp) : Decidable (PtyFits i op) :=
  match op with
  | .type _ => inferInstanceAs (Decidable (Canon.TakesChar _ _ _ _ _))
  | .read _ _ count _ | .woken _ count => inferInstanceAs (Decidable (0 < count))

/-- A line, an end of file and another line. -/
def lineEofLine : List UInt8 := [0x61, 0x0A, 0x04, 0x62, 0x0A]

/-- A read of a hundred bytes by the only group, at which the keyboard has some characters. -/
def ttyReadKeys (keys : List UInt8) : TtyOp := .read ⟨true, 1, 1⟩ ⟨fun _ => true, fun _ _ => true⟩ keys false 100

/-- With a read after each of them the three come one after the other. -/
theorem canonical_order_read :
    ∃ i, Run ptyExec PtyFits (newPtyInput ptyTermiosDefaults) i ∧ i.due = [some [0x61, 0x0A], some [], some [0x62, 0x0A]] ∧
      i.got = i.due := by
  have found : (runList ptyExec PtyFits (newPtyInput ptyTermiosDefaults)
      [.type 0x61, .type 0x0A, .read 1 1 100 true, .type 0x04, .read 1 1 100 true, .type 0x62, .type 0x0A,
        .read 1 1 100 true]).any (fun i => decide (i.due = [some [0x61, 0x0A], some [], some [0x62, 0x0A]])) = true := by
    decide
  obtain ⟨i, run, due⟩ := runList_any found
  exact ⟨i, run, of_decide_eq_true due, (canonical_order ptyTermiosDefaults rfl).1 i run⟩

/-- Typed before the first read, the end of file comes after both lines, on both terminals. -/
theorem canonical_disorder :
    (∃ i, Run ptyExec (fun _ _ => True) (newPtyInput ptyTermiosDefaults) i ∧
      i.due = [some [0x61, 0x0A], some [], some [0x62, 0x0A]] ∧ i.got = [some [0x61, 0x0A], some [0x62, 0x0A], some []]) ∧
    ∃ s, Run ttyExec (fun _ _ => True) (newTtyInput ptyTermiosDefaults) s ∧
      s.due = [some [0x61, 0x0A], some [], some [0x62, 0x0A]] ∧ s.got = [some [0x61, 0x0A], some [0x62, 0x0A], some []] := by
  constructor
  · have found : (runList ptyExec (fun _ _ => True) (newPtyInput ptyTermiosDefaults)
        (lineEofLine.map .type ++ List.replicate 3 (.read 1 1 100 true))).any (fun i =>
          decide (i.due = [some [0x61, 0x0A], some [], some [0x62, 0x0A]] ∧
            i.got = [some [0x61, 0x0A], some [0x62, 0x0A], some []])) = true := by
      decide
    obtain ⟨i, run, seen⟩ := runList_any found
    exact ⟨i, run, of_decide_eq_true seen⟩
  · have found : (runList ttyExec (fun _ _ => True) (newTtyInput ptyTermiosDefaults)
        [ttyReadKeys lineEofLine, ttyReadKeys [], ttyReadKeys []]).any (fun s =>
          decide (s.due = [some [0x61, 0x0A], some [], some [0x62, 0x0A]] ∧
            s.got = [some [0x61, 0x0A], some [0x62, 0x0A], some []])) = true := by
      decide
    obtain ⟨s, run, seen⟩ := runList_any found
    exact ⟨s, run, of_decide_eq_true seen⟩

end

end Enlil.Terminal
