import Enlil.Lib.Run

/-! The text console of 80 columns and 25 rows of `kernel/term80.c`. -/

namespace Enlil.Term80

def term80Cols : UInt32 := 80
def term80Rows : UInt32 := 25

/-- Bytes of the buffer for the parameters of a control sequence. -/
def csiBufSize : Nat := 16

/-- Whether the bytes that come are part of an escape sequence. -/
inductive EscState where
  | none
  | esc
  | csi
  deriving DecidableEq

/-- The screen; a row has one cell more than columns, for the end of the string. -/
structure Screen where
  cells : Nat → Nat → UInt8
  row : UInt32
  col : UInt32
  active : Bool
  dirty : Bool
  escState : EscState
  csiBuf : List UInt8

def term80FillSpaces (row : Nat → UInt8) : Nat → UInt8 := fun i =>
  if i < term80Cols.toNat then 0x20 else if i = term80Cols.toNat then 0 else row i

/-- Some rows of a screen are filled with spaces. -/
def fillRows (cells : Nat → Nat → UInt8) (first past : Nat) : Nat → Nat → UInt8 := fun row =>
  if first ≤ row ∧ row < past then term80FillSpaces (cells row) else cells row

/-- Some columns of a row become spaces. -/
def fillCols (cells : Nat → Nat → UInt8) (row first past : Nat) : Nat → Nat → UInt8 := fun r col =>
  if r = row ∧ first ≤ col ∧ col < past then 0x20 else cells r col

def term80Scroll (s : Screen) : Screen :=
  let moved : Nat → Nat → UInt8 := fun row col =>
    if row + 1 < term80Rows.toNat ∧ col < term80Cols.toNat + 1 then s.cells (row + 1) col else s.cells row col
  { s with cells := fillRows moved (term80Rows.toNat - 1) term80Rows.toNat, row := term80Rows - 1 }

def term80Newline (s : Screen) : Screen :=
  let home := { s with col := 0 }
  if term80Rows ≤ s.row + 1 then term80Scroll home else { home with row := s.row + 1 }

def term80ParserReset (s : Screen) : Screen := { s with escState := .none, csiBuf := [] }

/-- Looks for a parameter in the rest of a control sequence; its value is kept in 32 bits. -/
def parseParamLoop (index default : UInt32) : List UInt8 → UInt32 → Bool → UInt32 → UInt32
  | [], current, seen, which => if which = index ∧ seen then current else default
  | ch :: rest, current, seen, which =>
    if 0x30 ≤ ch ∧ ch ≤ 0x39 then parseParamLoop index default rest (current * 10 + (ch.toUInt32 - 0x30)) true which
    else if ch = 0x3B then
      if which = index then if seen then current else default
      else parseParamLoop index default rest 0 false (which + 1)
    else parseParamLoop index default rest current seen which

def term80ParseParam (s : Screen) (index default : UInt32) : UInt32 := parseParamLoop index default s.csiBuf 0 false 0

def term80ClearToEol (s : Screen) : Screen :=
  { s with cells := fillCols s.cells s.row.toNat s.col.toNat term80Cols.toNat, dirty := true }

def term80ClearFromSol (s : Screen) : Screen :=
  { s with cells := fillCols s.cells s.row.toNat 0 (min (s.col.toNat + 1) term80Cols.toNat), dirty := true }

def term80ClearScreenFromCursor (s : Screen) : Screen :=
  let cleared := term80ClearToEol s
  { cleared with cells := fillRows cleared.cells (s.row.toNat + 1) term80Rows.toNat }

def term80ClearScreenToCursor (s : Screen) : Screen :=
  term80ClearFromSol { s with cells := fillRows s.cells 0 s.row.toNat }

def term80Clear (s : Screen) : Screen :=
  term80ParserReset { s with cells := fillRows s.cells 0 term80Rows.toNat, row := 0, col := 0, dirty := true }

/-- The place that a parameter names, counted from one. -/
def absolute (n count : UInt32) : UInt32 :=
  let n := if n = 0 then 1 else n
  if n - 1 < count then n - 1 else count - 1

/-- Carries out a control sequence; that of colours and unknown ones do nothing. -/
def term80HandleCsi (s : Screen) (final : UInt8) : Screen :=
  let n := term80ParseParam s 0 1
  if final = 0x41 then { s with row := if n > s.row then 0 else s.row - n, dirty := true }
  else if final = 0x42 then
    { s with row := if term80Rows ≤ s.row + n then term80Rows - 1 else s.row + n, dirty := true }
  else if final = 0x43 then
    { s with col := if term80Cols ≤ s.col + n then term80Cols - 1 else s.col + n, dirty := true }
  else if final = 0x44 then { s with col := if n > s.col then 0 else s.col - n, dirty := true }
  else if final = 0x47 then { s with col := absolute n term80Cols, dirty := true }
  else if final = 0x48 ∨ final = 0x66 then
    { s with
      row := absolute (term80ParseParam s 0 1) term80Rows
      col := absolute (term80ParseParam s 1 1) term80Cols
      dirty := true }
  else if final = 0x4A then
    if term80ParseParam s 0 0 = 0 then term80ClearScreenFromCursor s
    else if term80ParseParam s 0 0 = 1 then term80ClearScreenToCursor s
    else term80Clear s
  else if final = 0x4B then
    if term80ParseParam s 0 0 = 0 then term80ClearToEol s
    else if term80ParseParam s 0 0 = 1 then term80ClearFromSol s
    else { s with cells := fillRows s.cells s.row.toNat (s.row.toNat + 1), dirty := true }
  else s

def setCell (cells : Nat → Nat → UInt8) (row col : UInt32) (c : UInt8) : Nat → Nat → UInt8 := fun r k =>
  if r = row.toNat ∧ k = col.toNat then c else cells r k

def term80PutVisible (s : Screen) (c : UInt8) : Screen :=
  let c := if c < 32 ∨ 126 < c then 0x3F else c
  let put := { s with cells := setCell s.cells s.row s.col c }
  let moved := if term80Cols ≤ s.col + 1 then term80Newline put else { put with col := s.col + 1 }
  { moved with dirty := true }

/-- The bytes of an escape sequence after the first. -/
def putEscape (s : Screen) (c : UInt8) : Screen :=
  if s.escState = .esc then
    if c = 0x5B then { s with escState := .csi, csiBuf := [] } else term80ParserReset s
  else if 0x30 ≤ c ∧ c ≤ 0x39 ∨ c = 0x3B ∨ c = 0x3F then
    if s.csiBuf.length + 1 < csiBufSize then { s with csiBuf := s.csiBuf ++ [c] } else s
  else if 0x40 ≤ c ∧ c ≤ 0x7E then term80ParserReset (term80HandleCsi s c)
  else term80ParserReset s

/-- A byte outside escape sequences that is no tab. -/
def putPlain (s : Screen) (c : UInt8) : Screen :=
  if c = 0x0C then term80Clear s
  else if c = 0x0D then { s with col := 0, dirty := true }
  else if c = 0x0A then { term80Newline s with dirty := true }
  else if c = 0x08 ∨ c = 0x7F then
    if 0 < s.col then { s with cells := setCell s.cells s.row (s.col - 1) 0x20, col := s.col - 1, dirty := true }
    else { s with dirty := true }
  else if c = 0x1B then { s with escState := .esc }
  else term80PutVisible s c

/-- A tab puts spaces until the column is one at which tabs stop; it may go on for ever if that never comes. -/
def tabLoop : Nat → Screen → Option Screen
  | 0, _ => none
  | fuel + 1, s =>
    let put := putPlain s 0x20
    if put.col &&& 3 ≠ 0 then tabLoop fuel put else some put

def term80Putc (s : Screen) (c : UInt8) : Option Screen :=
  if s.active = false then some s
  else if s.escState ≠ .none then some (putEscape s c)
  else if c = 0x09 then tabLoop term80Cols.toNat s
  else some (putPlain s c)

def term80Write (s : Screen) (buf : List UInt8) : Option Screen := buf.foldlM term80Putc s

/-- The screen when the system starts. -/
def term80Init : Screen :=
  ⟨fillRows (fun _ _ => 0) 0 term80Rows.toNat, 0, 0, false, true, .none, []⟩

def term80Activate (s : Screen) : Screen :=
  term80ParserReset { s with cells := fillRows s.cells 0 term80Rows.toNat, row := 0, col := 0, active := true, dirty := true }

def term80Deactivate (s : Screen) : Screen := term80ParserReset { s with active := false, dirty := true }

inductive Op where
  | activate
  | deactivate
  | clear
  | putc (c : UInt8)
  | write (buf : List UInt8)
  | takeDirty

/-- What each call does; one that does not return has no state after it. -/
def exec (s : Screen) : Op → Except Unit Screen
  | .activate => .ok (term80Activate s)
  | .deactivate => .ok (term80Deactivate s)
  | .clear => .ok (term80Clear s)
  | .putc c => (term80Putc s c).elim (.error ()) .ok
  | .write buf => (term80Write s buf).elim (.error ()) .ok
  | .takeDirty => .ok { s with dirty := false }

end Enlil.Term80
