import Enlil.Lib.Records
import Enlil.Terminal.Line

/-! Canonical input: what lines and ends of file are typed, and how both terminals keep them until they are read. -/

namespace Enlil.Terminal

/-- What a typed character stands for in canonical mode. -/
inductive Key where
  | ordinary (c : UInt8)
  | erase
  | kill
  | newline
  | eof

/-- What a character stands for under some modes, if it is for the line at all. -/
def keyOf (t : Termios) (c : UInt8) : Option Key :=
  if t.isig && (c = t.cc .vintr || c = t.cc .vsusp) then none
  else if c = t.cc .verase ∨ c = bs then some .erase
  else if c = t.cc .vkill then some .kill
  else if c = t.cc .veof then some .eof
  else if c = lf then some .newline
  else if c = 9 ∨ (32 ≤ c ∧ c < 127) then some (.ordinary c)
  else none

/-- What was typed: the line that is being edited, and the records that were not read yet, an empty one for an end of file. -/
structure Typed where
  edit : List UInt8
  queue : List (List UInt8)

/-- A character is typed. -/
def Typed.key (typed : Typed) : Key → Typed
  | .ordinary c => { typed with edit := typed.edit ++ [c] }
  | .erase => { typed with edit := typed.edit.dropLast }
  | .kill => { typed with edit := [] }
  | .newline => ⟨[], typed.queue ++ [typed.edit ++ [lf]]⟩
  | .eof => ⟨[], typed.queue ++ [typed.edit]⟩

/-- A read of so many bytes gets the first record, or as much of it as it asks for. -/
def Typed.read (typed : Typed) (count : Nat) : Option (List UInt8) × Typed :=
  match typed.queue with
  | [] => (none, typed)
  | record :: queue =>
    (some (record.take count), { typed with queue := if record.length ≤ count then queue else record.drop count :: queue })

/-- What a terminal keeps: the line that is being edited, the bytes that are ready, and whether an end of file was typed. -/
structure Canon where
  edit : List UInt8
  ready : List UInt8
  eof : Bool

/-- A terminal takes a character, with room for so many bytes that are ready and so many of the line. -/
def Canon.key (cap editMax : Nat) (s : Canon) : Key → Canon
  | .ordinary c => if s.edit.length < editMax then { s with edit := s.edit ++ [c] } else s
  | .erase => { s with edit := s.edit.dropLast }
  | .kill => { s with edit := [] }
  | .newline => { s with edit := [], ready := s.ready ++ (s.edit ++ [lf]).take (cap - s.ready.length) }
  | .eof =>
    if s.edit.length = 0 then { s with eof := true }
    else { s with edit := [], ready := s.ready ++ s.edit.take (cap - s.ready.length) }

/-- A terminal is read: an end of file comes when nothing is ready any more. -/
def Canon.read (s : Canon) (count : Nat) : Option (List UInt8) × Canon :=
  if s.eof && s.ready = [] then (some [], { s with eof := false })
  else if s.ready = [] then (none, s)
  else (some (pieceOf lf count s.ready), { s with ready := s.ready.drop (pieceOf lf count s.ready).length })

/--
A terminal can take a character without losing what it is or where it comes in the order.

There is room for it; no end of file is pending when a record comes behind it; and the bytes that are ready end with a line, so that the record does not become part of one.
-/
def Canon.Takes (cap editMax : Nat) (s : Canon) : Key → Prop
  | .ordinary _ => s.edit.length < editMax
  | .erase | .kill => True
  | .newline => s.eof = false ∧ Ended lf s.ready ∧ s.ready.length + (s.edit.length + 1) ≤ cap
  | .eof => s.eof = false ∧ (s.edit ≠ [] → Ended lf s.ready ∧ s.ready.length + s.edit.length ≤ cap)

instance (cap editMax : Nat) (s : Canon) (key : Key) : Decidable (s.Takes cap editMax key) :=
  match key with
  | .ordinary _ => inferInstanceAs (Decidable (_ < _))
  | .erase | .kill => inferInstanceAs (Decidable True)
  | .newline => inferInstanceAs (Decidable (_ ∧ _))
  | .eof => inferInstanceAs (Decidable (_ ∧ _))

/-- What a terminal keeps is what was typed. -/
structure Keeps (s : Canon) (typed : Typed) : Prop where
  edit : s.edit = typed.edit
  queue : typed.queue = recordsOf lf s.ready ++ if s.eof then [[]] else []
  whole : lf ∉ s.edit

section

variable {cap editMax : Nat} {s : Canon} {typed : Typed}

theorem keyOf_ordinary {t : Termios} {c d : UInt8} (is : keyOf t c = some (.ordinary d)) : d ≠ lf := by
  unfold keyOf at is
  repeat' split at is
  all_goals cases is
  assumption

theorem Keeps.key (keeps : Keeps s typed) {key : Key} (proper : ∀ c, key = .ordinary c → c ≠ lf)
    (takes : s.Takes cap editMax key) : Keeps (s.key cap editMax key) (typed.key key) := by
  obtain ⟨edit, queue, whole⟩ := keeps
  cases key with
  | ordinary c =>
    have room : s.edit.length < editMax := takes
    rw [Canon.key, if_pos room]
    refine ⟨congrArg (· ++ [c]) edit, queue, fun member => ?_⟩
    rcases List.mem_append.mp member with before | last
    · exact whole before
    · exact proper c rfl (List.mem_singleton.mp last).symm
  | erase => exact ⟨congrArg List.dropLast edit, queue, fun member => whole (List.mem_of_mem_dropLast member)⟩
  | kill => exact ⟨rfl, queue, List.not_mem_nil⟩
  | newline =>
    obtain ⟨none, ended, room⟩ := takes
    -- The whole line comes behind the lines that are ready.
    have all : (s.edit ++ [lf]).take (cap - s.ready.length) = s.edit ++ [lf] :=
      List.take_of_length_le (by simp only [List.length_append, List.length_singleton]; omega)
    refine ⟨rfl, ?_, List.not_mem_nil⟩
    simp only [Canon.key, Typed.key, none, all, recordsOf_append ended, recordsOf_whole whole, queue, ← edit,
      Bool.false_eq_true, if_false, List.append_nil]
  | eof =>
    obtain ⟨none, partly⟩ := takes
    rw [Canon.key]
    split
    · rename_i empty
      have nothing : typed.edit = [] := edit ▸ List.eq_nil_of_length_eq_zero empty
      refine ⟨(List.eq_nil_of_length_eq_zero empty), ?_, whole⟩
      simp only [Typed.key, queue, nothing, none, Bool.false_eq_true, if_false, if_true, List.append_nil]
    · rename_i some
      have line : s.edit ≠ [] := fun none => some (List.length_eq_zero_iff.mpr none)
      obtain ⟨ended, room⟩ := partly line
      have all : s.edit.take (cap - s.ready.length) = s.edit := List.take_of_length_le (by omega)
      refine ⟨rfl, ?_, List.not_mem_nil⟩
      simp only [Typed.key, none, all, recordsOf_append ended, recordsOf_part whole line, queue, ← edit,
        Bool.false_eq_true, if_false, List.append_nil]

theorem Keeps.read (keeps : Keeps s typed) (count : Nat) :
    (s.read count).1 = (typed.read count).1 ∧ Keeps (s.read count).2 (typed.read count).2 := by
  obtain ⟨edit, queue, whole⟩ := keeps
  unfold Canon.read Typed.read
  by_cases empty : s.ready = []
  · rw [empty] at queue
    cases pending : s.eof with
    | true =>
      rw [pending] at queue
      have only : typed.queue = [[]] := queue
      rw [only]
      simp only [empty, decide_true, Bool.and_self, if_true, List.take_nil, List.length_nil, Nat.zero_le]
      exact ⟨trivial, edit, rfl, whole⟩
    | false =>
      rw [pending] at queue
      have none : typed.queue = [] := queue
      rw [none]
      simp only [empty, decide_true, Bool.false_and, Bool.false_eq_true, if_false, if_true]
      exact ⟨trivial, edit, by rw [none, empty, pending]; rfl, whole⟩
  · have later : (s.eof && decide (s.ready = [])) = false := by simp [empty]
    rw [later, if_neg empty, if_neg Bool.false_ne_true]
    cases found : recordsOf lf s.ready with
    | nil => exact absurd found (recordsOf_ne_nil empty)
    | cons record records =>
      rw [found] at queue
      have first : typed.queue = record :: (records ++ if s.eof then [[]] else []) := queue
      have piece := pieceOf_eq count found
      have left := recordsOf_drop count found
      rw [first, piece]
      refine ⟨rfl, edit, ?_, whole⟩
      dsimp only
      rw [left]
      split <;> rfl

end

end Enlil.Terminal
