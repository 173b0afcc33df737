import Mathlib

/-! Frames in a stream, read in pieces of any length through a buffer of a fixed length. -/

namespace Enlil

/-- How frames are written: how long their headers are, and the size that a header gives to its frame. -/
structure Format (α : Type) where
  header : Nat
  size : List α → Nat
  header_pos : 0 < header
  size_append : ∀ {s : List α} (t : List α), header ≤ s.length → size (s ++ t) = size s

namespace Format

variable {α : Type} (f : Format α)

/-- A whole frame stands first. -/
def Complete (s : List α) : Prop := f.header ≤ s.length ∧ f.header ≤ f.size s ∧ f.size s ≤ s.length

/-- A header stands first whose frame would not even hold the header. -/
def Malformed (s : List α) : Prop := f.header ≤ s.length ∧ f.size s < f.header

instance (s : List α) : Decidable (f.Complete s) := inferInstanceAs (Decidable (_ ∧ _ ∧ _))

instance (s : List α) : Decidable (f.Malformed s) := inferInstanceAs (Decidable (_ ∧ _))

/-- The whole frames that a stream starts with. -/
def frames (s : List α) : List (List α) :=
  if _ : f.Complete s then s.take (f.size s) :: frames (s.drop (f.size s)) else []
termination_by s.length
decreasing_by
  have := f.header_pos
  simp only [Complete, List.length_drop] at *
  omega

/-- Takes the whole frames out of a buffer; a malformed header empties it. -/
def consume (buffer : List α) : List (List α) × List α :=
  if _ : f.Complete buffer then
    let rest := consume (buffer.drop (f.size buffer))
    (buffer.take (f.size buffer) :: rest.1, rest.2)
  else if f.Malformed buffer then ([], [])
  else ([], buffer)
termination_by buffer.length
decreasing_by
  have := f.header_pos
  simp only [Complete, List.length_drop] at *
  omega

/-- What is in the buffer, and what was not read yet. -/
structure Reader (α : Type) where
  buffer : List α
  unread : List α

variable (cap : Nat)

/-- Reads as much as there is room for, but not more than asked for, and takes the frames out. -/
def read (asked : Nat) (r : Reader α) : List (List α) × Reader α :=
  let count := min asked (cap - r.buffer.length)
  let taken := f.consume (r.buffer ++ r.unread.take count)
  (taken.1, ⟨taken.2, r.unread.drop count⟩)

/-- Reads one piece after the other. -/
def reads : List Nat → Reader α → List (List α) × Reader α
  | [], r => ([], r)
  | asked :: cuts, r =>
    let first := f.read cap asked r
    let rest := reads cuts first.2
    (first.1 ++ rest.1, rest.2)

/-- Nothing is left to take out of the buffer. -/
def Settled (buffer : List α) : Prop := ¬ f.Complete buffer ∧ ¬ f.Malformed buffer

/-- What was taken is seen to be what the part of a stream that was read starts with, and the rest can still be read. -/
def Follows {β : Type} (view : List α → β) (stream : List α) (result : List (List α) × Reader α) : Prop :=
  (∃ done, stream = done ++ result.2.unread ∧ result.1.map view = (f.frames done).map view) ∧
    f.Settled result.2.buffer ∧
    (result.2.unread ≠ [] → result.2.buffer.length < cap)

/-- No frame is larger than the buffer, and no frame follows a malformed header, wherever one starts to read behind it. -/
inductive Regular : List α → Prop where
  | short {s : List α} : s.length < f.header → Regular s
  | unfinished {s : List α} : f.header ≤ s.length → s.length < f.size s → s.length ≤ cap ∨ f.size s ≤ cap → Regular s
  | frame {s : List α} : f.Complete s → f.size s ≤ cap → Regular (s.drop (f.size s)) → Regular s
  | malformed {s : List α} : f.Malformed s →
      (∀ count, f.header ≤ count → count ≤ cap → Regular (s.drop count)) →
      (∀ count, f.header ≤ count → count ≤ cap → f.frames (s.drop count) = []) → Regular s

section

variable {f cap} {s t : List α} {β : Type} {view : List α → β}

theorem frames_complete (whole : f.Complete s) : f.frames s = s.take (f.size s) :: f.frames (s.drop (f.size s)) := by
  rw [frames, dif_pos whole]

theorem frames_eq_nil (not : ¬ f.Complete s) : f.frames s = [] := by
  rw [frames, dif_neg not]

theorem Complete.not_malformed (whole : f.Complete s) : ¬ f.Malformed s := fun bad => by
  have := whole.2.1
  have := bad.2
  omega

theorem Malformed.not_complete (bad : f.Malformed s) : ¬ f.Complete s := fun whole => whole.not_malformed bad

theorem Complete.append (whole : f.Complete s) (t : List α) : f.Complete (s ++ t) := by
  obtain ⟨header, size, room⟩ := whole
  rw [Complete, f.size_append t header, List.length_append]
  omega

theorem Malformed.append (bad : f.Malformed s) (t : List α) : f.Malformed (s ++ t) := by
  obtain ⟨header, size⟩ := bad
  rw [Malformed, f.size_append t header, List.length_append]
  omega

theorem Complete.size_pos (whole : f.Complete s) : 0 < f.size s := lt_of_lt_of_le f.header_pos whole.2.1

/-- Whole frames stay the first ones when more is appended. -/
theorem frames_prefix (s t : List α) : f.frames s <+: f.frames (s ++ t) := by
  induction long : s.length using Nat.strong_induction_on generalizing s with
  | _ length ih =>
    by_cases whole : f.Complete s
    · rw [frames_complete whole, frames_complete (whole.append t), f.size_append t whole.1,
        List.take_append_of_le_length whole.2.2, List.drop_append_of_le_length whole.2.2, List.prefix_cons_inj]
      refine ih _ ?_ _ rfl
      have := whole.size_pos
      rw [← long, List.length_drop]
      have := whole.2.2
      omega
    · rw [frames_eq_nil whole]
      exact List.nil_prefix

/-- Where a whole stream has no frame, no part that it starts with has one. -/
theorem frames_eq_nil_of_append (none : f.frames (s ++ t) = []) : f.frames s = [] := by
  have first := frames_prefix (f := f) s t
  rwa [none, List.prefix_nil] at first

theorem consume_complete (whole : f.Complete s) : f.consume s =
    (s.take (f.size s) :: (f.consume (s.drop (f.size s))).1, (f.consume (s.drop (f.size s))).2) := by
  rw [consume, dif_pos whole]

theorem consume_malformed (bad : f.Malformed s) : f.consume s = ([], []) := by
  rw [consume, dif_neg bad.not_complete, if_pos bad]

theorem consume_settled (settled : f.Settled s) : f.consume s = ([], s) := by
  rw [consume, dif_neg settled.1, if_neg settled.2]

theorem Settled.nil : f.Settled [] := by
  have := f.header_pos
  simp [Settled, Complete, Malformed]
  omega

/-- Taking frames out always goes on until nothing is left to take out. -/
theorem consume_settles (buffer : List α) : f.Settled (f.consume buffer).2 := by
  induction long : buffer.length using Nat.strong_induction_on generalizing buffer with
  | _ length ih =>
    by_cases whole : f.Complete buffer
    · rw [consume_complete whole]
      refine ih _ ?_ _ rfl
      have := whole.2.2
      have := whole.size_pos
      rw [List.length_drop]
      omega
    · by_cases bad : f.Malformed buffer
      · rw [consume_malformed bad]
        exact Settled.nil
      · rw [consume_settled ⟨whole, bad⟩]
        exact ⟨whole, bad⟩

/-- A regular stream that starts with a whole frame goes on regularly, and the frame has room. -/
theorem Regular.of_complete (regular : f.Regular cap s) (whole : f.Complete s) :
    f.size s ≤ cap ∧ f.Regular cap (s.drop (f.size s)) := by
  have := whole.1
  have := whole.2.2
  cases regular with
  | short few => omega
  | unfinished _ few _ => omega
  | frame _ room rest => exact ⟨room, rest⟩
  | malformed bad _ _ => exact absurd bad whole.not_malformed

theorem Regular.of_malformed (regular : f.Regular cap s) (bad : f.Malformed s) {count : Nat}
    (least : f.header ≤ count) (most : count ≤ cap) :
    f.Regular cap (s.drop count) ∧ f.frames (s.drop count) = [] := by
  have := bad.1
  have := bad.2
  cases regular with
  | short few => omega
  | unfinished _ few _ => omega
  | frame whole _ _ => exact absurd bad whole.not_malformed
  | malformed _ rest none => exact ⟨rest count least most, none count least most⟩

/-- Of a regular stream, what was taken out of a full or less than full buffer is what it starts with, whatever follows, and the rest is regular again. -/
theorem Regular.consume {buffer unread : List α} (regular : f.Regular cap (buffer ++ unread))
    (room : buffer.length ≤ cap) :
    f.Settled (f.consume buffer).2 ∧ (f.consume buffer).2.length ≤ cap ∧
      f.Regular cap ((f.consume buffer).2 ++ unread) ∧
      ∀ next more, unread = next ++ more →
        f.frames (buffer ++ next) = (f.consume buffer).1 ++ f.frames ((f.consume buffer).2 ++ next) := by
  induction long : buffer.length using Nat.strong_induction_on generalizing buffer with
  | _ length ih =>
    by_cases whole : f.Complete buffer
    · -- The first frame is taken, and the rest of the buffer is shorter.
      have fits := whole.2.2
      have pos := whole.size_pos
      have rest := (regular.of_complete (whole.append unread)).2
      rw [f.size_append unread whole.1, List.drop_append_of_le_length fits] at rest
      obtain ⟨settled, short, after, taken⟩ :=
        ih _ (by rw [List.length_drop]; omega) rest (by rw [List.length_drop]; omega) rfl
      rw [consume_complete whole]
      refine ⟨settled, short, after, fun next more split => ?_⟩
      rw [frames_complete (whole.append next), f.size_append next whole.1, List.take_append_of_le_length fits,
        List.drop_append_of_le_length fits, taken next more split, List.cons_append]
    · by_cases bad : f.Malformed buffer
      · -- The buffer is dropped as a whole, and no frame follows it.
        obtain ⟨after, none⟩ := regular.of_malformed (bad.append unread) bad.1 room
        rw [List.drop_left] at after none
        rw [consume_malformed bad]
        refine ⟨Settled.nil, Nat.zero_le _, after, fun next more split => ?_⟩
        rw [split] at none
        rw [frames_eq_nil (bad.append next).not_complete, List.nil_append, List.nil_append,
          frames_eq_nil_of_append none]
      · rw [consume_settled ⟨whole, bad⟩]
        exact ⟨⟨whole, bad⟩, room, regular, fun next more split => by simp⟩

/-- A settled buffer that is full before a regular stream ends holds the start of no frame. -/
theorem Regular.not_full {buffer unread : List α} (regular : f.Regular cap (buffer ++ unread))
    (settled : f.Settled buffer) (enough : f.header ≤ cap) (room : buffer.length ≤ cap) (more : unread ≠ []) :
    buffer.length < cap := by
  by_contra full
  have header : f.header ≤ buffer.length := by omega
  have pos := List.length_pos_iff.mpr more
  have size : buffer.length < f.size buffer := by
    by_contra small
    by_cases least : f.header ≤ f.size buffer
    · exact settled.1 ⟨header, least, by omega⟩
    · exact settled.2 ⟨header, by omega⟩
  have same := f.size_append unread header
  cases regular with
  | short few => rw [List.length_append] at few; omega
  | unfinished _ _ either => rw [List.length_append] at either; omega
  | frame whole fits _ => omega
  | malformed bad _ _ =>
    have := bad.2
    omega

/-- However a regular stream is cut, it is followed. -/
theorem Regular.follows (cuts : List Nat) {r : Reader α} (regular : f.Regular cap (r.buffer ++ r.unread))
    (settled : f.Settled r.buffer) (enough : f.header ≤ cap) (room : r.buffer.length ≤ cap) :
    (∃ done, r.unread = done ++ (f.reads cap cuts r).2.unread ∧
        (f.reads cap cuts r).1 = f.frames (r.buffer ++ done)) ∧
      f.Settled (f.reads cap cuts r).2.buffer ∧
      ((f.reads cap cuts r).2.unread ≠ [] → (f.reads cap cuts r).2.buffer.length < cap) := by
  induction cuts generalizing r with
  | nil =>
    refine ⟨⟨[], rfl, ?_⟩, settled, regular.not_full settled enough room⟩
    rw [List.append_nil, frames_eq_nil settled.1]
    rfl
  | cons asked cuts ih =>
    -- One piece is read; what is left of the buffer and of the stream is regular again.
    have cut : r.unread.take (min asked (cap - r.buffer.length)) ++
        r.unread.drop (min asked (cap - r.buffer.length)) = r.unread := List.take_append_drop _ _
    have piece : f.Regular cap ((r.buffer ++ r.unread.take (min asked (cap - r.buffer.length))) ++
        r.unread.drop (min asked (cap - r.buffer.length))) := by
      rw [List.append_assoc, cut]
      exact regular
    have length : (r.buffer ++ r.unread.take (min asked (cap - r.buffer.length))).length ≤ cap := by
      rw [List.length_append, List.length_take]
      omega
    obtain ⟨settled', room', regular', taken⟩ := piece.consume length
    obtain ⟨⟨done, split, seen⟩, last⟩ := ih (r := (f.read cap asked r).2) regular' settled' room'
    refine ⟨⟨r.unread.take (min asked (cap - r.buffer.length)) ++ done, ?_, ?_⟩, last⟩
    · show r.unread = _ ++ (f.reads cap cuts (f.read cap asked r).2).2.unread
      rw [List.append_assoc, ← split]
      exact cut.symm
    · show (f.read cap asked r).1 ++ (f.reads cap cuts (f.read cap asked r).2).1 = _
      rw [seen, ← List.append_assoc]
      exact (taken done _ split).symm

/-- What is read is taken from the front. -/
theorem read_fresh {asked : Nat} (least : asked ≤ cap) : f.read cap asked ⟨[], s⟩ =
    ((f.consume (s.take asked)).1, ⟨(f.consume (s.take asked)).2, s.drop asked⟩) := by
  simp [read, Nat.min_eq_left least]

/-- A header that is read with more behind it stays the same header. -/
theorem size_take {count : Nat} (header : f.header ≤ s.length) (least : f.header ≤ count) :
    f.size (s.take count) = f.size s := by
  have same := f.size_append (s.drop count) (s := s.take count) (by rw [List.length_take]; omega)
  rwa [List.take_append_drop, eq_comm] at same

theorem Malformed.take {count : Nat} (bad : f.Malformed s) (least : f.header ≤ count) : f.Malformed (s.take count) := by
  refine ⟨?_, ?_⟩
  · have := bad.1
    rw [List.length_take]
    omega
  · rw [size_take bad.1 least]
    exact bad.2

/-- The first frame alone is a whole frame of the same size. -/
theorem Complete.alone (whole : f.Complete s) :
    (s.take (f.size s)).length = f.size s ∧ f.size (s.take (f.size s)) = f.size s ∧ f.Complete (s.take (f.size s)) := by
  have size : f.size (s.take (f.size s)) = f.size s := size_take whole.1 whole.2.1
  have length : (s.take (f.size s)).length = f.size s := by
    rw [List.length_take]
    exact Nat.min_eq_left whole.2.2
  refine ⟨length, size, ?_⟩
  rw [Complete, length, size]
  exact ⟨whole.2.1, whole.2.1, le_refl _⟩

/-- A frame that is read alone is taken and leaves nothing. -/
theorem Complete.consume_take (whole : f.Complete s) :
    f.consume (s.take (f.size s)) = ([s.take (f.size s)], []) := by
  obtain ⟨length, size, alone⟩ := whole.alone
  rw [consume_complete alone, size, List.take_take, Nat.min_self, List.drop_take, Nat.sub_self, List.take_zero,
    consume_settled Settled.nil]

/-- Behind the first frame the other frames follow. -/
theorem Complete.frames_take (whole : f.Complete s) (t : List α) :
    f.frames (s.take (f.size s) ++ t) = [s.take (f.size s)] ++ f.frames t := by
  obtain ⟨length, size, alone⟩ := whole.alone
  rw [frames_complete (alone.append t), f.size_append t alone.1, size, List.take_left' length, List.drop_left' length]
  rfl

/-- A header whose frame has no room fills the buffer, and more is left to read. -/
theorem reads_large (header : f.header ≤ s.length) (enough : f.header ≤ cap) (large : cap < f.size s)
    (more : cap < s.length) :
    (f.reads cap [cap] ⟨[], s⟩).2.unread ≠ [] ∧ (f.reads cap [cap] ⟨[], s⟩).2.buffer.length = cap := by
  have length : (s.take cap).length = cap := by
    rw [List.length_take]
    omega
  have settled : f.Settled (s.take cap) := by
    have size := size_take header enough
    refine ⟨fun whole => ?_, fun bad => ?_⟩
    · have := whole.2.2
      omega
    · have := bad.2
      omega
  have read : f.reads cap [cap] ⟨[], s⟩ = ([], ⟨s.take cap, s.drop cap⟩) := by
    rw [reads, read_fresh (le_refl cap), consume_settled settled]
    rfl
  rw [read]
  exact ⟨by simpa using more, length⟩

/-- Reading only takes away from the front of what is unread. -/
theorem reads_unread (cap : Nat) (cuts : List Nat) (r : Reader α) :
    ∃ done, r.unread = done ++ (f.reads cap cuts r).2.unread := by
  induction cuts generalizing r with
  | nil => exact ⟨[], rfl⟩
  | cons asked cuts ih =>
    obtain ⟨done, split⟩ := ih (f.read cap asked r).2
    refine ⟨r.unread.take (min asked (cap - r.buffer.length)) ++ done, ?_⟩
    show r.unread = _ ++ (f.reads cap cuts (f.read cap asked r).2).2.unread
    rw [List.append_assoc, ← split]
    exact (List.take_append_drop _ _).symm

/-- Behind a first piece that leaves nothing in the buffer, reading starts afresh. -/
theorem reads_behind {count : Nat} {first : List (List α)} (least : count ≤ cap)
    (alone : f.consume (s.take count) = (first, [])) (cuts : List Nat) :
    f.reads cap (count :: cuts) ⟨[], s⟩ =
      (first ++ (f.reads cap cuts ⟨[], s.drop count⟩).1, (f.reads cap cuts ⟨[], s.drop count⟩).2) := by
  rw [reads, read_fresh least, alone]

/-- Behind such a piece the rest is followed from there. -/
theorem Follows.rest {count : Nat} {first : List (List α)} (least : count ≤ cap)
    (alone : f.consume (s.take count) = (first, []))
    (taken : ∀ done more, s.drop count = done ++ more → f.frames (s.take count ++ done) = first ++ f.frames done)
    {cuts : List Nat} (follows : f.Follows cap view s (f.reads cap (count :: cuts) ⟨[], s⟩)) :
    f.Follows cap view (s.drop count) (f.reads cap cuts ⟨[], s.drop count⟩) := by
  rw [reads_behind least alone] at follows
  obtain ⟨⟨done, split, seen⟩, last⟩ := follows
  obtain ⟨behind, rest⟩ := f.reads_unread cap cuts ⟨[], s.drop count⟩
  refine ⟨⟨behind, rest, ?_⟩, last⟩
  -- What was read in all is the first piece and what was read behind it.
  have whole : done = s.take count ++ behind := by
    have ends : done ++ (f.reads cap cuts ⟨[], s.drop count⟩).2.unread =
        s.take count ++ behind ++ (f.reads cap cuts ⟨[], s.drop count⟩).2.unread := by
      rw [List.append_assoc, ← rest, List.take_append_drop]
      exact split.symm
    exact List.append_cancel_right ends
  rw [whole, taken behind _ rest, List.map_append, List.map_append] at seen
  exact List.append_cancel_left seen

/-- A stream is followed however it is cut exactly if it is regular. -/
theorem follows_iff (view : List α → β) (enough : f.header ≤ cap) :
    (∀ cuts : List Nat, (∀ asked ∈ cuts, 0 < asked) → f.Follows cap view s (f.reads cap cuts ⟨[], s⟩)) ↔
      f.Regular cap s := by
  refine ⟨fun all => ?_, fun regular cuts _ => ?_⟩
  · induction long : s.length using Nat.strong_induction_on generalizing s with
    | _ length ih =>
      have pos := f.header_pos
      have large {t : List α} (header : f.header ≤ t.length) (follows : f.Follows cap view t (f.reads cap [cap] ⟨[], t⟩)) :
          t.length ≤ cap ∨ f.size t ≤ cap := by
        by_contra neither
        obtain ⟨more, full⟩ := reads_large header enough (by omega) (by omega)
        exact absurd (follows.2.2 more) (by omega)
      by_cases header : f.header ≤ s.length
      · have bound := large header (all [cap] (by simp; omega))
        by_cases bad : f.Malformed s
        · -- The header and as much behind it as fits is read at once, and dropped.
          have none (count : Nat) (least : f.header ≤ count) (most : count ≤ cap) :
              f.frames (s.drop count) = [] := by
            refine frames_eq_nil fun whole => ?_
            have alone := consume_malformed (bad.take least)
            have fits : f.size (s.drop count) ≤ cap := by
              by_contra much
              have room := whole.2.2
              obtain ⟨more, full⟩ := reads_large whole.1 enough (by omega) (by omega)
              have follows := all [count, cap] (by simp; omega)
              rw [reads_behind most alone] at follows
              exact absurd (follows.2.2 more) (by dsimp only; omega)
            have follows := all [count, f.size (s.drop count)] (by simp; exact ⟨by omega, whole.size_pos⟩)
            rw [reads_behind most alone, reads_behind fits whole.consume_take] at follows
            -- The frame behind the malformed header was taken, although the stream has none.
            obtain ⟨⟨done, split, seen⟩, _⟩ := follows
            have nothing : f.frames done = [] := by
              apply frames_eq_nil_of_append
              rw [← split]
              exact frames_eq_nil bad.not_complete
            rw [nothing] at seen
            simp at seen
          refine .malformed bad (fun count least most => ?_) none
          refine ih _ (by rw [List.length_drop]; omega) (fun cuts positive => ?_) rfl
          refine Follows.rest most (consume_malformed (bad.take least)) (fun done more split => ?_)
            (all (count :: cuts) (by simpa using ⟨by omega, positive⟩))
          have nothing := none count least most
          rw [split] at nothing
          rw [frames_eq_nil ((bad.take least).append done).not_complete, frames_eq_nil_of_append nothing]
          rfl
        · by_cases whole : f.Complete s
          · -- The first frame is read alone.
            have fits : f.size s ≤ cap := by
              have := whole.2.2
              omega
            refine .frame whole fits (ih _ ?_ (fun cuts positive => ?_) rfl)
            · have := whole.size_pos
              rw [List.length_drop]
              omega
            · exact Follows.rest fits whole.consume_take (fun done _ _ => whole.frames_take done)
                (all (f.size s :: cuts) (by simpa using ⟨whole.size_pos, positive⟩))
          · refine .unfinished header ?_ bound
            by_contra small
            exact whole ⟨header, by_contra fun least => bad ⟨header, by omega⟩, by omega⟩
      · exact .short (by omega)
  · obtain ⟨⟨done, split, seen⟩, last⟩ := Regular.follows cuts (r := ⟨[], s⟩) regular Settled.nil enough (Nat.zero_le _)
    exact ⟨⟨done, split, congrArg _ seen⟩, last⟩

end

end Format

end Enlil
