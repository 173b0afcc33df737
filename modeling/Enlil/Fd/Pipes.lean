import Enlil.Fd.Objects
import Enlil.Lib.Ring

/-! Reads and writes of a pipe, one round after the other, and what a round does to the bytes in it. -/

namespace Enlil.Fd

/-- How a round of a call on a pipe ends. -/
inductive Ending where
  | returns
  | fails (error : Errno)
  /-- The task lets others run, and goes on with the call later. -/
  | waits
  deriving DecidableEq

/-- The oldest byte is taken out. -/
def Pipe.take (pipe : Pipe) : Pipe :=
  { pipe with readPos := (pipe.readPos + 1) % pipeBufSize, size := pipe.size - 1 }

/-- A byte is put in. -/
def Pipe.put (pipe : Pipe) (byte : UInt8) : Pipe :=
  { pipe with
    buf := Function.update pipe.buf pipe.writePos byte, writePos := (pipe.writePos + 1) % pipeBufSize, size := pipe.size + 1 }

/-- A round of a read: the bytes it has got, with so many more wanted. -/
def fdPipeRead (nonblock pending : Bool) : Nat → Pipe → List UInt8 → Pipe × List UInt8 × Ending
  | 0, pipe, got => (pipe, got, .returns)
  | count + 1, pipe, got =>
    if pipe.size = 0 then
      if pipe.writers = 0 then (pipe, got, .returns)
      else if nonblock then (pipe, got, if got = [] then .fails .eagain else .returns)
      else if pending then (pipe, got, if got = [] then .fails .eintr else .returns)
      else (pipe, got, .waits)
    -- The bytes that are there are returned at once, and to a call that may not wait one of them.
    else if pipe.take.size = 0 ∨ nonblock = true then (pipe.take, got ++ [pipe.buf pipe.readPos], .returns)
    else fdPipeRead nonblock pending count pipe.take (got ++ [pipe.buf pipe.readPos])

/-- A round of a write: how many bytes it has put, with these still to be put. -/
def fdPipeWrite (nonblock pending : Bool) (resumed : Bool) : List UInt8 → Pipe → Nat → Pipe × Nat × Ending
  | [], pipe, put => (pipe, put, .returns)
  | byte :: rest, pipe, put =>
    -- A call that goes on after it has waited looks for readers only if the pipe is still full.
    if pipe.readers = 0 ∧ (resumed = false ∨ pipeBufSize ≤ pipe.size) then
      (pipe, put, if put = 0 then .fails .epipe else .returns)
    else if pipeBufSize ≤ pipe.size then
      if nonblock then (pipe, put, if put = 0 then .fails .eagain else .returns)
      else if pending then (pipe, put, if put = 0 then .fails .eintr else .returns)
      else (pipe, put, .waits)
    else if nonblock then (pipe.put byte, put + 1, .returns)
    else fdPipeWrite nonblock pending false rest (pipe.put byte) (put + 1)

/-- The positions of a pipe fit its size. -/
structure Pipe.Placed (pipe : Pipe) : Prop where
  inside : pipe.readPos < pipeBufSize
  bound : pipe.size ≤ pipeBufSize
  next : pipe.writePos = (pipe.readPos + pipe.size) % pipeBufSize

/-- The bytes in a pipe, oldest first. -/
def Pipe.contents (pipe : Pipe) : List UInt8 := window pipeBufSize pipe.buf pipe.readPos pipe.size

/-- Two states of a pipe that differ in its bytes only. -/
structure Pipe.SameEnds (pipe pipe' : Pipe) : Prop where
  inUse : pipe'.inUse = pipe.inUse
  readers : pipe'.readers = pipe.readers
  writers : pipe'.writers = pipe.writers
  birth : pipe'.birth = pipe.birth

section

variable {pipe pipe' pipe'' : Pipe}

theorem Pipe.SameEnds.rfl : pipe.SameEnds pipe := ⟨Eq.refl _, Eq.refl _, Eq.refl _, Eq.refl _⟩

theorem Pipe.Placed.take (placed : pipe.Placed) (filled : pipe.size ≠ 0) :
    pipe.take.Placed ∧ pipe.contents = pipe.buf pipe.readPos :: pipe.take.contents := by
  obtain ⟨n, size⟩ := Nat.exists_eq_succ_of_ne_zero filled
  refine ⟨⟨Nat.mod_lt _ (by decide), ?_, ?_⟩, ?_⟩
  · exact (Nat.sub_le _ _).trans placed.bound
  · show pipe.writePos = ((pipe.readPos + 1) % pipeBufSize + (pipe.size - 1)) % pipeBufSize
    rw [placed.next, Nat.mod_add_mod, size]
    congr 1
    omega
  · show window _ _ _ _ = _ :: window _ _ _ (pipe.size - 1)
    rw [size]
    rfl

theorem Pipe.Placed.put (placed : pipe.Placed) (room : pipe.size < pipeBufSize) (byte : UInt8) :
    (pipe.put byte).Placed ∧ (pipe.put byte).contents = pipe.contents ++ [byte] := by
  refine ⟨⟨placed.inside, room, ?_⟩, ?_⟩
  · show (pipe.writePos + 1) % pipeBufSize = (pipe.readPos + (pipe.size + 1)) % pipeBufSize
    rw [placed.next, Nat.mod_add_mod, Nat.add_assoc]
  · show window _ (Function.update pipe.buf pipe.writePos byte) _ (pipe.size + 1) = _
    rw [placed.next]
    exact window_push placed.inside room byte

theorem Pipe.Placed.size_modEq (placed : pipe.Placed) :
    (pipe.size : Int) ≡ pipe.writePos - pipe.readPos [ZMOD pipeBufSize] := by
  have next : (pipe.writePos : Int) ≡ pipe.readPos + pipe.size [ZMOD pipeBufSize] := by
    rw [placed.next]
    push_cast
    exact Int.mod_modEq _ _
  have shifted := next.sub_right (pipe.readPos : Int)
  rw [add_sub_cancel_left] at shifted
  exact shifted.symm

theorem fdPipeRead_empty (nonblock pending : Bool) (count : Nat) (empty : pipe.size = 0) : ∃ ending,
    fdPipeRead nonblock pending (count + 1) pipe [] = (pipe, [], ending) ∧ (ending = .returns → pipe.writers = 0) := by
  rw [fdPipeRead, if_pos empty]
  split
  · rename_i closed
    exact ⟨_, rfl, fun _ => closed⟩
  split
  · exact ⟨_, rfl, nofun⟩
  split
  · exact ⟨_, rfl, nofun⟩
  · exact ⟨_, rfl, nofun⟩

theorem fdPipeRead_filled (nonblock pending : Bool) (count : Nat) (got : List UInt8) (placed : pipe.Placed)
    (filled : pipe.size ≠ 0) : ∃ taken pipe',
    fdPipeRead nonblock pending (count + 1) pipe got = (pipe', got ++ taken, .returns) ∧ taken ≠ [] ∧
      pipe.contents = taken ++ pipe'.contents ∧ pipe'.Placed ∧ pipe.SameEnds pipe' := by
  induction count generalizing pipe got with
  | zero =>
    obtain ⟨placed', contents⟩ := placed.take filled
    refine ⟨[pipe.buf pipe.readPos], pipe.take, ?_, nofun, contents, placed', ⟨rfl, rfl, rfl, rfl⟩⟩
    rw [fdPipeRead, if_neg filled]
    split <;> rfl
  | succ count ih =>
    obtain ⟨placed', contents⟩ := placed.take filled
    rw [fdPipeRead, if_neg filled]
    split
    · exact ⟨[pipe.buf pipe.readPos], pipe.take, rfl, nofun, contents, placed', ⟨rfl, rfl, rfl, rfl⟩⟩
    · rename_i more
      -- More bytes are there, so that the rest of the round does not wait either.
      obtain ⟨taken, pipe', ran, _, contents', placed'', same⟩ :=
        ih (got ++ [pipe.buf pipe.readPos]) placed' fun empty => more (.inl empty)
      refine ⟨pipe.buf pipe.readPos :: taken, pipe', ?_, nofun, ?_, placed'', ⟨same.1, same.2, same.3, same.4⟩⟩
      · rw [ran, List.append_assoc]
        rfl
      · rw [contents, contents']
        rfl

theorem fdPipeWrite_spec (nonblock pending resumed : Bool) (data : List UInt8) (put : Nat) (placed : pipe.Placed) : ∃ sent rest pipe' ending,
    fdPipeWrite nonblock pending resumed data pipe put = (pipe', put + sent.length, ending) ∧ data = sent ++ rest ∧
      pipe'.contents = pipe.contents ++ sent ∧ pipe'.Placed ∧ pipe.SameEnds pipe' ∧
      (∀ error, ending = .fails error → put + sent.length = 0) ∧ (ending = .fails .epipe → pipe.readers = 0) := by
  -- A round that puts nothing more.
  have stop (rest : List UInt8) (pipe : Pipe) (put : Nat) (ending : Ending) (placed : pipe.Placed)
      (none : ∀ error, ending = .fails error → put = 0) (closed : ending = .fails .epipe → pipe.readers = 0) :
      ∃ sent rest' pipe' ending', (pipe, put, ending) = (pipe', put + sent.length, ending') ∧ rest = sent ++ rest' ∧
        pipe'.contents = pipe.contents ++ sent ∧ pipe'.Placed ∧ pipe.SameEnds pipe' ∧
        (∀ error, ending' = .fails error → put + sent.length = 0) ∧ (ending' = .fails .epipe → pipe.readers = 0) :=
    ⟨[], rest, pipe, ending, rfl, rfl, (List.append_nil _).symm, placed, .rfl, none, closed⟩
  have error {put : Nat} {e : Errno} (error : Errno) (ended : (if put = 0 then Ending.fails e else .returns) = .fails error) :
      put = 0 := by
    by_contra put
    rw [if_neg put] at ended
    cases ended
  induction data generalizing pipe put resumed with
  | nil => exact stop _ _ _ _ placed nofun nofun
  | cons byte rest ih =>
    rw [fdPipeWrite]
    split
    · rename_i closed
      exact stop _ _ _ _ placed error fun _ => closed.1
    split
    · split
      · refine stop _ _ _ _ placed error fun ended => ?_
        split at ended <;> cases ended
      split
      · refine stop _ _ _ _ placed error fun ended => ?_
        split at ended <;> cases ended
      · exact stop _ _ _ _ placed nofun nofun
    rename_i notFull
    obtain ⟨placed', contents⟩ := placed.put (Nat.lt_of_not_le notFull) byte
    split
    · exact ⟨[byte], rest, pipe.put byte, .returns, rfl, rfl, contents, placed', ⟨rfl, rfl, rfl, rfl⟩, nofun, nofun⟩
    · obtain ⟨sent, rest', pipe', ending, ran, data, contents', placed'', same, none, closed⟩ :=
        ih false (put + 1) placed'
      have length : put + 1 + sent.length = put + (byte :: sent).length := by
        rw [List.length_cons]
        omega
      rw [length] at ran none
      refine ⟨byte :: sent, rest', pipe', ending, ran, by rw [data]; rfl, ?_, placed'', ⟨same.1, same.2, same.3, same.4⟩,
        none, closed⟩
      rw [contents', contents, List.append_assoc]
      rfl

end

end Enlil.Fd
