import Enlil.Libc.Malloc
import Enlil.Lib.Run

/-! Runs of calls to the heap: what the blocks that are handed out keep, and where a size runs past the end of the numbers. -/

namespace Enlil.Malloc

instance : Std.Symm Arena.Apart := ⟨fun _ _ => Or.symm⟩

section

variable {h h' : Heap} {arena prev p ptr size need : Nat} {a : Arena} {as : List Arena} {bs : List Block}

theorem InUse.locate (used : InUse p bs ptr size) :
    ∃ xs b ys, bs = xs ++ b :: ys ∧ b.free = false ∧ ptr = finish p xs + 32 ∧ size = b.size := by
  induction bs generalizing p with
  | nil => cases used
  | cons b bs ih =>
    rcases used with ⟨free, place, rfl⟩ | later
    · exact ⟨[], b, bs, rfl, free, place, rfl⟩
    · obtain ⟨xs, c, ys, rfl, free, place, same⟩ := ih later
      exact ⟨b :: xs, c, ys, rfl, free, place, same⟩

theorem Live.locate (live : Live as ptr size) :
    ∃ ls a rs xs b ys, as = ls ++ a :: rs ∧ a.blocks = xs ++ b :: ys ∧ b.free = false ∧
      ptr = finish (a.base + 16) xs + 32 ∧ size = b.size := by
  obtain ⟨a, inside, used⟩ := live
  obtain ⟨ls, rs, rfl⟩ := List.append_of_mem inside
  obtain ⟨xs, b, ys, blocks, free, place, same⟩ := used.locate
  exact ⟨ls, a, rs, xs, b, ys, rfl, blocks, free, place, same⟩

theorem Live.bounds (rep : Represents h as) (live : Live as ptr size) :
    64 ≤ ptr ∧ ptr + size ≤ 2 ^ 64 ∧ ∃ m ∈ h.maps, m.1 ≤ ptr ∧ ptr + size ≤ m.1 + m.2 := by
  obtain ⟨a, inside, used⟩ := live
  have there := rep.each a inside
  have bounds := used.bounds there
  have page := there.page
  have real := there.tail.room.real
  refine ⟨by omega, by omega, (a.base, a.len), ?_, by dsimp only; omega, bounds.2.1⟩
  rw [rep.mapped]
  exact List.mem_map_of_mem inside

theorem finish_aligned (seg : Seg h arena prev p bs) (start : p % 16 = 0) : finish p bs % 16 = 0 := by
  induction bs generalizing prev p with
  | nil => exact start
  | cons b bs ih =>
    have even := seg.1.aligned
    exact ih seg.2 (by omega)

theorem Live.head (rep : Represents h as) (live : Live as ptr size) :
    ptr % 16 = 0 ∧ h.magic (ptr - 32) = blockMagic ∧ h.size (ptr - 32) = size := by
  obtain ⟨ls, a, rs, xs, b, ys, rfl, blocks, free, rfl, rfl⟩ := live.locate
  have there := rep.each a (List.mem_append_right _ List.mem_cons_self)
  have tail := there.tail
  rw [blocks] at tail
  have head := tail.drop.seg.1
  have page := there.page
  have even := finish_aligned (seg_append.mp tail.seg).1 (by omega)
  rw [Nat.add_sub_cancel]
  exact ⟨by omega, head.magic_eq, head.size_eq⟩

theorem Live.apart {ptr' size' : Nat} (rep : Represents h as) (live : Live as ptr size) (live' : Live as ptr' size') :
    ptr = ptr' ∧ size = size' ∨ ptr + size ≤ ptr' ∨ ptr' + size' ≤ ptr := by
  obtain ⟨a, inside, used⟩ := live
  obtain ⟨c, inside', used'⟩ := live'
  by_cases same : a = c
  · subst same
    exact used.apart used'
  · have bounds := used.bounds (rep.each a inside)
    have bounds' := used'.bounds (rep.each c inside')
    have away := rep.apart.forall inside inside' same
    unfold Arena.Apart at away
    omega

theorem Seg.write (seg : Seg h arena prev p bs) (used : InUse p bs ptr size) (only : Local h h' ptr (ptr + size)) :
    Seg h' arena prev p bs := by
  induction bs generalizing prev p with
  | nil => trivial
  | cons b bs ih =>
    obtain ⟨head, later⟩ := seg
    rcases used with ⟨_, rfl, rfl⟩ | used
    · exact ⟨head.congr fun q _ high => only.mem q (.inl high), later.congr fun q low _ => only.mem q (.inr low)⟩
    · have inside := used.inside
      exact ⟨head.congr fun q _ high => only.mem q (by omega), ih later used⟩

theorem Represents.write (rep : Represents h as) (live : Live as ptr size) (only : Local h h' ptr (ptr + size)) :
    Represents h' as := by
  obtain ⟨a, inside, used⟩ := live
  have bounds := used.bounds (rep.each a inside)
  refine ⟨only.arenas.trans rep.listed, only.maps.trans rep.mapped, fun c member => ?_, rep.apart⟩
  have there := rep.each c member
  refine ⟨?_, there.page⟩
  by_cases same : a = c
  · subst same
    obtain ⟨room, above, seg, ends⟩ := there.tail
    refine ⟨⟨room.real, ?_, room.top⟩, above, seg.write used only, ends⟩
    have field : h'.mapLen a.base = h.mapLen a.base := readLe_congr fun q _ high => only.mem q (by omega)
    rw [mallocArenaEnd, field]
    exact room.end_eq
  · have away := rep.apart.forall inside member same
    unfold Arena.Apart at away
    exact there.tail.congr fun q low high => only.mem q (by omega)

theorem Represents.errno (rep : Represents h as) (e : Nat) : Represents { h with errno := e } as :=
  ⟨rep.listed, rep.mapped, fun a inside => ⟨(rep.each a inside).tail.congr fun _ _ _ => rfl, (rep.each a inside).page⟩, rep.apart⟩

theorem free_spec (rep : Represents h as) (live : Live as ptr size) :
    ∃ as', Represents (free h ptr) as' ∧ ∀ old got, Live as old got → old ≠ ptr →
      Live as' old got ∧ ∀ q, old ≤ q → q < old + got → (free h ptr).mem q = h.mem q := by
  have above := (live.bounds rep).1
  obtain ⟨ls, a, rs, xs, b, ys, rfl, blocks, used, rfl, rfl⟩ := live.locate
  have there := rep.each a (List.mem_append_right _ List.mem_cons_self)
  have tail := there.tail
  rw [blocks] at tail
  unfold free
  rw [if_neg (by omega), Nat.add_sub_cancel]
  obtain ⟨cs, joined, only, front, back⟩ := free_tail tail
  refine ⟨_, rep.update joined only, fun old got kept other => rep.keepsOne only kept fun inside => ?_⟩
  rw [blocks] at inside
  rcases inUse_append.mp inside with inside | ⟨_, same, _⟩ | inside
  · exact front old got inside
  · exact absurd same other
  · exact back old got inside

theorem shrink_spec (rep : Represents h as) (live : Live as ptr size) (fits : need ≤ size) (aligned : need % 16 = 0) :
    ∃ as' got, Represents ((mallocBlockSplit h (ptr - 32) need).setFree (ptr - 32) 0) as' ∧ Live as' ptr got ∧ need ≤ got ∧
      (∀ q, ptr ≤ q → q < ptr + need → ((mallocBlockSplit h (ptr - 32) need).setFree (ptr - 32) 0).mem q = h.mem q) ∧
      ∀ old got, Live as old got → old ≠ ptr → Live as' old got ∧
        ∀ q, old ≤ q → q < old + got → ((mallocBlockSplit h (ptr - 32) need).setFree (ptr - 32) 0).mem q = h.mem q := by
  obtain ⟨ls, a, rs, xs, b, ys, rfl, blocks, used, rfl, rfl⟩ := live.locate
  have there := rep.each a (List.mem_append_right _ List.mem_cons_self)
  have tail := there.tail
  rw [blocks] at tail
  have low : a.base + 16 ≤ finish (a.base + 16) xs := le_finish
  have ends : finish (finish (a.base + 16) xs) (cut ⟨b.size, false⟩ need) = finish (a.base + 16) xs + 32 + b.size :=
    finish_cut (b := ⟨b.size, false⟩) fits
  rw [Nat.add_sub_cancel]
  obtain ⟨shrunk, only, data, keeps⟩ := shrink_tail tail.drop fits aligned
  obtain ⟨whole, front⟩ := tail.splice shrunk only
  refine ⟨_, if b.size - need ≤ 32 + mallocAlign then b.size else need, rep.update whole (only.widen low le_rfl),
    ⟨_, List.mem_append_right _ List.mem_cons_self, inUse_append.mpr (.inr (inUse_append.mpr (.inl ?_)))⟩, ?_, data,
    fun old got kept other => rep.keepsOne (only.widen low le_rfl) kept fun inside => ?_⟩
  · unfold cut
    dsimp only
    split
    · exact .inl ⟨rfl, rfl, rfl⟩
    · exact .inl ⟨rfl, rfl, rfl⟩
  · split
    · exact fits
    · exact le_rfl
  · rw [blocks] at inside
    rcases inUse_append.mp inside with inside | ⟨_, same, _⟩ | inside
    · exact front old got inside
    · exact absurd same other
    · exact ⟨inUse_append.mpr (.inr (inUse_append.mpr (.inr (ends.symm ▸ inside)))), (keeps old got inside).2⟩

theorem noRoom_top (rep : Represents h as) (large : 2 ^ 64 - 64 < need) : NoRoom as need := by
  rintro a inside b member ⟨_, fits⟩
  obtain ⟨xs, ys, blocks⟩ := List.append_of_mem member
  have there := rep.each a inside
  have tail := there.tail
  rw [blocks] at tail
  have low : a.base + 16 ≤ finish (a.base + 16) xs := le_finish
  have bound := tail.drop.bound
  have real := tail.room.real
  have page := there.page
  omega

variable {mmap : Nat → Option Nat}

theorem malloc_spec (rep : Represents h as) (fresh : Fresh h.maps mmap) (fits : size < 2 ^ 64) :
    (mmap (arenaLen (needOf size)) = none ∧ NoRoom as (needOf size)) ∧ malloc h size mmap = ({ h with errno := enomem }, none) ∨
      ¬ (mmap (arenaLen (needOf size)) = none ∧ NoRoom as (needOf size)) ∧
        ∃ h' ptr got as', malloc h size mmap = (h', some ptr) ∧ Made h h' as ptr got as' ∧ (size ≤ sizeTop → size ≤ got) := by
  unfold malloc
  rcases mallocLocked_spec rep fresh fits with ⟨refused, failed⟩ | ⟨given, h', ptr, got, as', made, rest⟩
  · rw [failed]
    exact .inl ⟨refused, rfl⟩
  · rw [made]
    exact .inr ⟨given, h', ptr, got, as', rfl, rest⟩

theorem arenaLen_top (above : sizeTop < size) (fits : size < 2 ^ 64) : arenaLen (needOf size) = 65536 := by
  obtain ⟨aligned, bound, wraps, covers, _⟩ := needOf_spec fits
  unfold sizeTop at above
  have small : (16 + 32 + needOf size) % 2 ^ 64 < mallocArenaChunk := by
    unfold mallocArenaChunk
    omega
  rw [arenaLen, if_pos small]
  rfl

/-- When a size near the end of the numbers is refused. -/
def TopRefused (as : List Arena) (size : Nat) (mmap : Nat → Option Nat) : Prop :=
  mmap 65536 = none ∧ (size ≤ 2 ^ 64 - 16 ∨ NoRoom as 0)

theorem topRefused_iff (rep : Represents h as) (above : sizeTop < size) (fits : size < 2 ^ 64) :
    (mmap (arenaLen (needOf size)) = none ∧ NoRoom as (needOf size)) ↔ TopRefused as size mmap := by
  obtain ⟨aligned, bound, wraps, covers, _⟩ := needOf_spec fits
  unfold sizeTop at above
  rw [arenaLen_top above fits, TopRefused]
  refine and_congr_right fun _ => ?_
  by_cases fitting : size ≤ 2 ^ 64 - 16
  · exact iff_of_true (noRoom_top rep (by have := covers fitting; omega)) (.inl fitting)
  · rw [wraps (by omega)]
    exact ⟨.inr, fun either => either.resolve_left fitting⟩

/-- A block has so many bytes: its header says so, and they are mapped. -/
def Usable (h : Heap) (ptr size : Nat) : Prop := size ≤ h.size (ptr - 32) ∧ ∃ m ∈ h.maps, m.1 ≤ ptr ∧ ptr + size ≤ m.1 + m.2

theorem Live.usable {got : Nat} (rep : Represents h as) (live : Live as ptr got) (fits : size ≤ got) : Usable h ptr size := by
  obtain ⟨_, _, m, member, low, high⟩ := live.bounds rep
  exact ⟨(live.head rep).2.2 ▸ fits, m, member, low, by omega⟩

theorem not_usable_top (top : ∀ m ∈ h.maps, m.1 + m.2 ≤ 2 ^ 64) (low : 64 ≤ ptr) (above : sizeTop < size) : ¬ Usable h ptr size := by
  rintro ⟨_, m, member, _, high⟩
  have bound := top m member
  unfold sizeTop at above
  omega

theorem Represents.top (rep : Represents h as) : ∀ m ∈ h.maps, m.1 + m.2 ≤ 2 ^ 64 := by
  intro m member
  rw [rep.mapped] at member
  obtain ⟨a, inside, rfl⟩ := List.mem_map.mp member
  exact (rep.each a inside).tail.room.top

end

section

variable (h : Heap) (block : Nat)

theorem fixNext_maps : (fixNext h block).maps = h.maps := by
  unfold fixNext
  split <;> rfl

theorem mallocBlockSplit_maps (need : Nat) : (mallocBlockSplit h block need).maps = h.maps := by
  unfold mallocBlockSplit
  split
  · rfl
  dsimp only
  split
  · rfl
  · exact fixNext_maps _ _

theorem mallocBlockCoalesceWithNext_maps : (mallocBlockCoalesceWithNext h block).maps = h.maps := by
  unfold mallocBlockCoalesceWithNext
  split
  · rfl
  split
  · rfl
  · exact fixNext_maps _ _

theorem coalesceWithPrev_maps : (coalesceWithPrev h block).maps = h.maps := by
  unfold coalesceWithPrev
  split
  · split
    · exact (fixNext_maps _ _).trans (mallocBlockCoalesceWithNext_maps _ _)
    · exact fixNext_maps _ _
  · exact fixNext_maps _ _

theorem free_maps (ptr : Nat) : (free h ptr).maps = h.maps := by
  unfold free
  split
  · rfl
  unfold mallocBlockFreeLocked
  split
  · rfl
  · exact (coalesceWithPrev_maps _ _).trans (mallocBlockCoalesceWithNext_maps _ _)

end

section

variable {h h' : Heap} {ptr old size new got : Nat} {as as' : List Arena} {mmap : Nat → Option Nat}

theorem realloc_null : realloc h 0 size mmap = malloc h size mmap := if_pos rfl

theorem needOf_pos (some_size : 0 < size) : mallocAlignUp size mallocAlign = needOf size := by
  rw [needOf, if_neg (by omega)]

theorem realloc_fits (rep : Represents h as) (live : Live as ptr old) (some_size : 0 < size) (fits : needOf size ≤ old) :
    realloc h ptr size mmap = ((mallocBlockSplit h (ptr - 32) (needOf size)).setFree (ptr - 32) 0, some ptr) := by
  have above := (live.bounds rep).1
  obtain ⟨_, magic, size_eq⟩ := live.head rep
  unfold realloc
  rw [if_neg (by omega), if_neg (by omega)]
  dsimp only
  rw [needOf_pos some_size, if_pos ⟨magic, by rwa [size_eq]⟩]

theorem realloc_fails (rep : Represents h as) (live : Live as ptr old) (some_size : 0 < size) (short : ¬ needOf size ≤ old)
    (failed : malloc h size mmap = (h', none)) : realloc h ptr size mmap = (h', none) := by
  have above := (live.bounds rep).1
  obtain ⟨_, magic, size_eq⟩ := live.head rep
  unfold realloc
  rw [if_neg (by omega), if_neg (by omega)]
  dsimp only
  rw [needOf_pos some_size, if_neg (fun both => short (size_eq ▸ both.2)), failed]

/-- The heap after the data of a block was copied to the one that takes its place. -/
def copied (h : Heap) (ptr old new size : Nat) : Heap :=
  { h with mem := memcpy h.mem new h.mem ptr (if old < size then old else size) }

theorem realloc_moves (rep : Represents h as) (live : Live as ptr old) (some_size : 0 < size) (short : ¬ needOf size ≤ old)
    (given : malloc h size mmap = (h', some new)) (made : Made h h' as new got as') :
    realloc h ptr size mmap = (free (copied h' ptr old new size) ptr, some new) := by
  have above := (live.bounds rep).1
  obtain ⟨_, magic, size_eq⟩ := live.head rep
  obtain ⟨_, magic', size_eq'⟩ := (made.keeps ptr old live).1.head made.rep
  unfold realloc
  rw [if_neg (by omega), if_neg (by omega)]
  dsimp only
  rw [needOf_pos some_size, if_neg (fun both => short (size_eq ▸ both.2)), given]
  dsimp only
  rw [if_pos magic', size_eq', copied]

theorem realloc_spec (rep : Represents h as) (live : Live as ptr old) (fresh : Fresh h.maps mmap) (some_size : 0 < size)
    (small : size ≤ sizeTop) :
    realloc h ptr size mmap = ({ h with errno := enomem }, none) ∨
      ∃ h' new got as', realloc h ptr size mmap = (h', some new) ∧ Represents h' as' ∧ Live as' new got ∧ size ≤ got ∧
        (∀ i < min old size, h'.mem (new + i) = h.mem (ptr + i)) ∧
        ∀ other room, Live as other room → other ≠ ptr → Live as' other room ∧ other ≠ new ∧
          ∀ q, other ≤ q → q < other + room → h'.mem q = h.mem q := by
  have fits : size < 2 ^ 64 := small.trans_lt (by decide)
  obtain ⟨aligned, _, _, covers, _⟩ := needOf_spec fits
  have large := covers (small.trans (by decide))
  by_cases inPlace : needOf size ≤ old
  · rw [realloc_fits rep live some_size inPlace]
    obtain ⟨as', got, shrunk, kept, enough, data, others⟩ := shrink_spec rep live inPlace aligned
    refine .inr ⟨_, ptr, got, as', rfl, shrunk, kept, large.trans enough, fun i low => data _ (by omega) ?_,
      fun other room used away => ⟨(others other room used away).1, away, (others other room used away).2⟩⟩
    have := lt_of_lt_of_le low (min_le_right old size)
    omega
  rcases malloc_spec rep fresh fits with ⟨_, failed⟩ | ⟨_, h', new, got, as', given, made, enough⟩
  · exact .inl (realloc_fails rep live some_size inPlace failed)
  rw [realloc_moves rep live some_size inPlace given made]
  have enough := enough small
  have away := made.other ptr old live
  obtain ⟨liveNow, same⟩ := made.keeps ptr old live
  -- The copy stays inside of the new block, and the old one is apart from it.
  have only : Local h' (copied h' ptr old new size) new (new + got) :=
    ⟨rfl, rfl, fun q outside => if_neg (by split <;> omega)⟩
  have rep' := made.rep.write made.live only
  obtain ⟨as'', freed, others⟩ := free_spec rep' liveNow
  obtain ⟨liveNew, data⟩ := others new got made.live (Ne.symm away)
  refine .inr ⟨_, new, got, as'', rfl, freed, liveNew, enough, fun i low => ?_, fun other room used elsewhere => ?_⟩
  rotate_left
  · obtain ⟨usedNow, kept⟩ := made.keeps other room used
    obtain ⟨usedAfter, unfreed⟩ := others other room usedNow elsewhere
    have differ := made.other other room used
    refine ⟨usedAfter, differ, fun q start stop => (unfreed q start stop).trans ((only.mem q ?_).trans (kept q start stop))⟩
    have clear := (usedNow.apart made.rep made.live).resolve_left fun same => differ same.1
    omega
  have lowOld := lt_of_lt_of_le low (min_le_left old size)
  have lowSize := lt_of_lt_of_le low (min_le_right old size)
  refine (data _ (by omega) (by omega)).trans ((if_pos (by split <;> omega)).trans ?_)
  rw [Nat.add_sub_cancel_left]
  exact same _ (by omega) (by omega)

theorem realloc_top (rep : Represents h as) (live : Live as ptr old) (fresh : Fresh h.maps mmap) (above : sizeTop < size)
    (fits : size < 2 ^ 64) :
    (size ≤ 2 ^ 64 - 16 ∧ mmap 65536 = none) ∧ realloc h ptr size mmap = ({ h with errno := enomem }, none) ∨
      ¬ (size ≤ 2 ^ 64 - 16 ∧ mmap 65536 = none) ∧
        ∃ h' new, realloc h ptr size mmap = (h', some new) ∧ ¬ Usable h' new size := by
  obtain ⟨aligned, _, wraps, covers, _⟩ := needOf_spec fits
  have bounds := live.bounds rep
  have some_size : 0 < size := lt_of_le_of_lt (Nat.zero_le _) above
  by_cases fitting : size ≤ 2 ^ 64 - 16
  · have large := covers fitting
    unfold sizeTop at above
    have short : ¬ needOf size ≤ old := by omega
    have topped := @topRefused_iff h size as mmap rep above fits
    rcases malloc_spec rep fresh fits with ⟨refused, failed⟩ | ⟨given, h', new, got, as', made_eq, made, _⟩
    · exact .inl ⟨⟨fitting, (topped.mp refused).1⟩, realloc_fails rep live some_size short failed⟩
    · refine .inr ⟨fun both => given (topped.mpr ⟨both.2, .inl fitting⟩), _, new, realloc_moves rep live some_size short made_eq made, ?_⟩
      refine not_usable_top ?_ (made.live.bounds made.rep).1 above
      rw [free_maps]
      exact made.rep.top
  · refine .inr ⟨fun both => fitting both.1, _, ptr, realloc_fits rep live some_size (by rw [wraps (by omega)]; exact Nat.zero_le _), ?_⟩
    refine not_usable_top ?_ bounds.1 above
    change ∀ m ∈ (mallocBlockSplit h (ptr - 32) (needOf size)).maps, _
    rw [mallocBlockSplit_maps]
    exact rep.top

end

/-- The heap, with the blocks that are handed out and not freed, and the sizes that were asked for. -/
structure State where
  heap : Heap
  owned : List (Nat × Nat)

inductive Call where
  | malloc (size : Nat) (mmap : Nat → Option Nat)
  | calloc (nmemb size : Nat) (mmap : Nat → Option Nat)
  | realloc (ptr size : Nat) (mmap : Nat → Option Nat)
  | free (ptr : Nat)
  | write (p : Nat) (byte : UInt8)

def disown (owned : List (Nat × Nat)) (ptr : Nat) : List (Nat × Nat) := owned.filter fun o => o.1 ≠ ptr

/-- A block that is handed out is owned from then on. -/
def own (owned : List (Nat × Nat)) (size : Nat) : Heap × Option Nat → State
  | (h, none) => ⟨h, owned⟩
  | (h, some ptr) => ⟨h, (ptr, size) :: owned⟩

def Call.exec (s : State) : Call → State
  | .malloc size mmap => own s.owned size (Malloc.malloc s.heap size mmap)
  | .calloc nmemb size mmap => own s.owned (nmemb * size) (Malloc.calloc s.heap nmemb size mmap)
  | .realloc ptr size mmap =>
    match Malloc.realloc s.heap ptr size mmap with
    | (h, none) => ⟨h, if size = 0 then disown s.owned ptr else s.owned⟩
    | (h, some new) => ⟨h, (new, size) :: disown s.owned ptr⟩
  | .free ptr => ⟨Malloc.free s.heap ptr, disown s.owned ptr⟩
  | .write p byte => ⟨{ s.heap with mem := fun q => if q = p then byte else s.heap.mem q }, s.owned⟩

/-- The arguments are numbers of 64 bits and blocks that are owned, and the kernel keeps its promise. -/
def Call.Allowed (s : State) : Call → Prop
  | .malloc size mmap => size < 2 ^ 64 ∧ Fresh s.heap.maps mmap
  | .calloc nmemb size mmap => nmemb < 2 ^ 64 ∧ size < 2 ^ 64 ∧ Fresh s.heap.maps mmap
  | .realloc ptr size mmap => (ptr = 0 ∨ ∃ old, (ptr, old) ∈ s.owned) ∧ size < 2 ^ 64 ∧ Fresh s.heap.maps mmap
  | .free ptr => ptr = 0 ∨ ∃ old, (ptr, old) ∈ s.owned
  | .write p _ => ∃ o ∈ s.owned, o.1 ≤ p ∧ p < o.1 + o.2

/-- No size is near the end of the numbers, or memory is refused. -/
def SizeFits (as : List Arena) (size : Nat) (mmap : Nat → Option Nat) : Prop := size ≤ sizeTop ∨ TopRefused as size mmap

def Call.Fits (as : List Arena) : Call → Prop
  | .malloc size mmap => SizeFits as size mmap
  | .calloc nmemb size mmap => 2 ^ 64 ≤ nmemb * size ∨ SizeFits as (nmemb * size) mmap
  | .realloc ptr size mmap =>
    if ptr = 0 then SizeFits as size mmap else size ≤ sizeTop ∨ size ≤ 2 ^ 64 - 16 ∧ mmap 65536 = none
  | .free _ => True
  | .write _ _ => True

/-- A block that is returned has the bytes that were asked for. -/
def Enough (size : Nat) (result : Heap × Option Nat) : Prop := ∀ ptr, result.2 = some ptr → Usable result.1 ptr size

/-- What a call promises: enough bytes, or nothing, and then the old block stays. -/
def Call.Sufficient (s : State) : Call → Prop
  | .malloc size mmap => Enough size (Malloc.malloc s.heap size mmap)
  | .calloc nmemb size mmap => Enough (nmemb * size) (Malloc.calloc s.heap nmemb size mmap)
  | .realloc ptr size mmap =>
    Enough size (Malloc.realloc s.heap ptr size mmap) ∧ (size ≠ 0 → (Malloc.realloc s.heap ptr size mmap).2 = none →
      (Malloc.realloc s.heap ptr size mmap).1 = { s.heap with errno := enomem })
  | .free _ => True
  | .write _ _ => True

/-- The arenas are tiled, and what is owned is in use and large enough. -/
structure Sound (s : State) (as : List Arena) : Prop where
  rep : Represents s.heap as
  owned : ∀ o ∈ s.owned, ∃ got, Live as o.1 got ∧ o.2 ≤ got
  once : s.owned.Pairwise fun o o' => o.1 ≠ o'.1

section

variable {s : State} {h' : Heap} {as as' : List Arena} {ptr size got : Nat} {mmap : Nat → Option Nat}

theorem mem_disown {owned : List (Nat × Nat)} {o : Nat × Nat} : o ∈ disown owned ptr ↔ o ∈ owned ∧ o.1 ≠ ptr := by
  simp [disown]

theorem Sound.drop (sound : Sound s as) (rep : Represents h' as')
    (kept : ∀ old room, Live as old room → old ≠ ptr → Live as' old room) : Sound ⟨h', disown s.owned ptr⟩ as' where
  rep := rep
  owned := by
    intro o member
    obtain ⟨member, other⟩ := mem_disown.mp member
    obtain ⟨room, live, fits⟩ := sound.owned o member
    exact ⟨room, kept o.1 room live other, fits⟩
  once := sound.once.filter _

theorem Sound.add (sound : Sound s as) (live : Live as ptr got) (fits : size ≤ got) (other : ∀ o ∈ s.owned, o.1 ≠ ptr) :
    Sound ⟨s.heap, (ptr, size) :: s.owned⟩ as where
  rep := sound.rep
  owned := List.forall_mem_cons.mpr ⟨⟨got, live, fits⟩, sound.owned⟩
  once := List.pairwise_cons.mpr ⟨fun o member => (other o member).symm, sound.once⟩

theorem Sound.same (sound : Sound s as) (rep : Represents h' as) : Sound ⟨h', s.owned⟩ as := ⟨rep, sound.owned, sound.once⟩

theorem Sound.made (sound : Sound s as) (made : Made s.heap h' as ptr got as') (fits : size ≤ got) :
    Sound ⟨h', (ptr, size) :: s.owned⟩ as' := by
  have kept : Sound ⟨h', s.owned⟩ as' := by
    refine ⟨made.rep, fun o member => ?_, sound.once⟩
    obtain ⟨room, live, fits⟩ := sound.owned o member
    exact ⟨room, (made.keeps o.1 room live).1, fits⟩
  refine kept.add made.live fits fun o member => ?_
  obtain ⟨room, live, _⟩ := sound.owned o member
  exact made.other o.1 room live

theorem Sound.malloc (sound : Sound s as) (fresh : Fresh s.heap.maps mmap) (fits : size < 2 ^ 64) (good : SizeFits as size mmap) :
    Malloc.malloc s.heap size mmap = ({ s.heap with errno := enomem }, none) ∨
      ∃ h' ptr got as', Malloc.malloc s.heap size mmap = (h', some ptr) ∧ Made s.heap h' as ptr got as' ∧ size ≤ got := by
  rcases malloc_spec sound.rep fresh fits with ⟨_, failed⟩ | ⟨given, h', ptr, got, as', made_eq, made, enough⟩
  · exact .inl failed
  refine .inr ⟨h', ptr, got, as', made_eq, made, ?_⟩
  by_cases small : size ≤ sizeTop
  · exact enough small
  · exact absurd ((topRefused_iff sound.rep (Nat.lt_of_not_le small) fits).mpr (good.resolve_left small)) given

theorem enough_malloc (rep : Represents s.heap as) (fresh : Fresh s.heap.maps mmap) (fits : size < 2 ^ 64) :
    Enough size (Malloc.malloc s.heap size mmap) ↔ SizeFits as size mmap := by
  rcases malloc_spec rep fresh fits with ⟨refused, failed⟩ | ⟨given, h', ptr, got, as', made_eq, made, enough⟩
  · rw [failed]
    refine iff_of_true (fun _ none => nomatch none) ?_
    by_cases small : size ≤ sizeTop
    · exact .inl small
    · exact .inr ((topRefused_iff rep (Nat.lt_of_not_le small) fits).mp refused)
  · rw [made_eq]
    by_cases small : size ≤ sizeTop
    · refine iff_of_true (fun _ same => ?_) (.inl small)
      obtain rfl := Option.some.inj same
      exact made.live.usable made.rep (enough small)
    · have above := Nat.lt_of_not_le small
      refine iff_of_false (fun all => ?_) (not_or.mpr ⟨small, fun refused => given ((topRefused_iff rep above fits).mpr refused)⟩)
      exact not_usable_top made.rep.top (made.live.bounds made.rep).1 above (all ptr rfl)

theorem calloc_eq {nmemb : Nat} :
    calloc h' nmemb size mmap =
      if 2 ^ 64 ≤ nmemb * size then ({ h' with errno := enomem }, none)
      else match malloc h' (nmemb * size) mmap with
        | (h, none) => (h, none)
        | (h, some ptr) => ({ h with mem := fun p => if ptr ≤ p ∧ p < ptr + nmemb * size then 0 else h.mem p }, some ptr) := by
  have wraps : (nmemb ≠ 0 ∧ (2 ^ 64 - 1) / nmemb < size) ↔ 2 ^ 64 ≤ nmemb * size := by
    rcases Nat.eq_zero_or_pos nmemb with rfl | positive
    · rw [Nat.zero_mul]
      exact iff_of_false (fun both => both.1 rfl) (by decide)
    · rw [Nat.div_lt_iff_lt_mul positive, Nat.mul_comm size nmemb]
      omega
  unfold calloc
  by_cases large : 2 ^ 64 ≤ nmemb * size
  · rw [if_pos (wraps.mpr large), if_pos large]
  · rw [if_neg (mt wraps.mp large), Nat.mod_eq_of_lt (Nat.lt_of_not_le large)]
    exact (if_neg large).symm

theorem Sound.calloc {nmemb : Nat} (sound : Sound s as) (fresh : Fresh s.heap.maps mmap)
    (good : 2 ^ 64 ≤ nmemb * size ∨ SizeFits as (nmemb * size) mmap) :
    ∃ as', Sound (own s.owned (nmemb * size) (Malloc.calloc s.heap nmemb size mmap)) as' := by
  rw [calloc_eq]
  by_cases large : 2 ^ 64 ≤ nmemb * size
  · rw [if_pos large]
    exact ⟨as, sound.same (sound.rep.errno enomem)⟩
  rw [if_neg large]
  rcases sound.malloc fresh (Nat.lt_of_not_le large) (good.resolve_left large) with failed | ⟨h', ptr, got, as', made_eq, made, fits⟩
  · rw [failed]
    exact ⟨as, sound.same (sound.rep.errno enomem)⟩
  · rw [made_eq]
    refine ⟨as', (sound.made made fits).same (made.rep.write made.live ⟨rfl, rfl, fun q outside => if_neg (by omega)⟩)⟩

theorem Sound.realloc {old : Nat} (sound : Sound s as) (member : (ptr, old) ∈ s.owned) (fresh : Fresh s.heap.maps mmap)
    (fits : size < 2 ^ 64) (good : size ≤ sizeTop ∨ size ≤ 2 ^ 64 - 16 ∧ mmap 65536 = none) :
    ∃ as', Sound (Call.exec s (.realloc ptr size mmap)) as' := by
  obtain ⟨room, live, _⟩ := sound.owned _ member
  have above := (live.bounds sound.rep).1
  unfold Call.exec
  dsimp only
  rcases Nat.eq_zero_or_pos size with rfl | some_size
  · obtain ⟨as', freed, others⟩ := free_spec sound.rep live
    have done : Malloc.realloc s.heap ptr 0 mmap = (Malloc.free s.heap ptr, none) := by
      rw [Malloc.realloc, if_neg (by omega), if_pos rfl]
    rw [done]
    dsimp only
    rw [if_pos rfl]
    exact ⟨as', sound.drop freed fun old room used away => (others old room used away).1⟩
  have failed : Malloc.realloc s.heap ptr size mmap = ({ s.heap with errno := enomem }, none) →
      ∃ as', Sound (match Malloc.realloc s.heap ptr size mmap with
        | (h, none) => ⟨h, if size = 0 then disown s.owned ptr else s.owned⟩
        | (h, some new) => ⟨h, (new, size) :: disown s.owned ptr⟩) as' := by
    intro failed
    rw [failed]
    dsimp only
    rw [if_neg (by omega)]
    exact ⟨as, sound.same (sound.rep.errno enomem)⟩
  by_cases small : size ≤ sizeTop
  · rcases realloc_spec sound.rep live fresh some_size small with none | ⟨h', new, got, as', done, rep, liveNew, enough, _, others⟩
    · exact failed none
    · rw [done]
      have dropped : Sound ⟨h', disown s.owned ptr⟩ as' := sound.drop rep fun old room used away => (others old room used away).1
      refine ⟨as', dropped.add liveNew enough fun o inside => ?_⟩
      obtain ⟨inside, away⟩ := mem_disown.mp inside
      obtain ⟨room, used, _⟩ := sound.owned o inside
      exact (others o.1 room used away).2.1
  · rcases realloc_top sound.rep live fresh (Nat.lt_of_not_le small) fits with ⟨_, none⟩ | ⟨given, _⟩
    · exact failed none
    · exact absurd (good.resolve_left small) given

theorem Sound.exec {call : Call} (sound : Sound s as) (allowed : call.Allowed s) (fits : call.Fits as) :
    ∃ as', Sound (call.exec s) as' := by
  have made : ∀ size mmap, size < 2 ^ 64 → Fresh s.heap.maps mmap → SizeFits as size mmap →
      ∃ as', Sound (own s.owned size (Malloc.malloc s.heap size mmap)) as' := by
    intro size mmap range fresh good
    rcases sound.malloc fresh range good with failed | ⟨h', ptr, got, as', made_eq, made, fits⟩
    · rw [failed]
      exact ⟨as, sound.same (sound.rep.errno enomem)⟩
    · rw [made_eq]
      exact ⟨as', sound.made made fits⟩
  have dropNull : disown s.owned 0 = s.owned := by
    refine List.filter_eq_self.mpr fun o member => ?_
    obtain ⟨room, live, _⟩ := sound.owned o member
    have above := (live.bounds sound.rep).1
    exact decide_eq_true (by omega)
  cases call with
  | malloc size mmap => exact made size mmap allowed.1 allowed.2 fits
  | calloc nmemb size mmap => exact sound.calloc allowed.2.2 fits
  | realloc ptr size mmap =>
    obtain ⟨rfl | ⟨old, member⟩, range, fresh⟩ := allowed
    · rw [Call.Fits, if_pos rfl] at fits
      have alike : Call.exec s (.realloc 0 size mmap) = own s.owned size (Malloc.malloc s.heap size mmap) := by
        unfold Call.exec
        dsimp only
        rw [realloc_null]
        rcases Malloc.malloc s.heap size mmap with ⟨h, _ | new⟩ <;> simp [own, dropNull]
      rw [alike]
      exact made size mmap range fresh fits
    · obtain ⟨room, live, _⟩ := sound.owned _ member
      have above := (live.bounds sound.rep).1
      rw [Call.Fits, if_neg (by omega)] at fits
      exact sound.realloc member fresh range fits
  | free ptr =>
    rcases allowed with rfl | ⟨old, member⟩
    · unfold Call.exec Malloc.free
      dsimp only
      rw [if_pos rfl, dropNull]
      exact ⟨as, sound⟩
    · obtain ⟨room, live, _⟩ := sound.owned _ member
      obtain ⟨as', freed, others⟩ := free_spec sound.rep live
      exact ⟨as', sound.drop freed fun old room used away => (others old room used away).1⟩
  | write p byte =>
    obtain ⟨o, member, low, high⟩ := allowed
    obtain ⟨room, live, fits⟩ := sound.owned o member
    exact ⟨as, sound.same (sound.rep.write live ⟨rfl, rfl, fun q outside => if_neg (by omega)⟩)⟩

theorem NoRoom.transfer {h : Heap} {need : Nat} (rep : Represents h as) (rep' : Represents h as') (full : NoRoom as need) :
    NoRoom as' need := by
  rcases searchArenas_spec need rep'.each with ⟨_, small⟩ | ⟨_, _, _, _, _, _, _, _, _, _, found⟩
  · exact small
  · rw [← rep'.listed, rep.listed] at found
    rcases searchArenas_spec need rep.each with ⟨none, _⟩ | ⟨ls, a, rs, xs, b, ys, rfl, blocks, free, large, _⟩
    · rw [none] at found
      cases found
    · refine absurd ⟨free, large⟩ (full a (List.mem_append_right _ List.mem_cons_self) b ?_)
      rw [blocks]
      exact List.mem_append_right _ List.mem_cons_self

theorem Call.Fits.transfer {h : Heap} {call : Call} (rep : Represents h as) (rep' : Represents h as') (fits : call.Fits as) :
    call.Fits as' := by
  have size_fits : ∀ size mmap, SizeFits as size mmap → SizeFits as' size mmap := fun size mmap =>
    Or.imp_right (And.imp_right (Or.imp_right (NoRoom.transfer rep rep')))
  cases call with
  | malloc size mmap => exact size_fits size mmap fits
  | calloc nmemb size mmap => exact fits.imp_right (size_fits (nmemb * size) mmap)
  | realloc ptr size mmap =>
    unfold Call.Fits at *
    dsimp only at *
    split at fits
    · rename_i null
      rw [if_pos null]
      exact size_fits size mmap fits
    · rename_i real
      rw [if_neg real]
      exact fits
  | free ptr => trivial
  | write p byte => trivial

theorem Sound.sufficient_iff {call : Call} (sound : Sound s as) (allowed : call.Allowed s) : call.Sufficient s ↔ call.Fits as := by
  cases call with
  | malloc size mmap => exact enough_malloc sound.rep allowed.2 allowed.1
  | calloc nmemb size mmap =>
    unfold Call.Sufficient Call.Fits
    dsimp only
    rw [calloc_eq]
    by_cases large : 2 ^ 64 ≤ nmemb * size
    · rw [if_pos large]
      exact iff_of_true (fun _ none => nomatch none) (.inl large)
    · rw [if_neg large, or_iff_right large, ← enough_malloc sound.rep allowed.2.2 (Nat.lt_of_not_le large)]
      rcases malloc_spec sound.rep allowed.2.2 (Nat.lt_of_not_le large) with ⟨_, failed⟩ | ⟨_, h, ptr, got, as', given, made, _⟩
      · rw [failed]
      · rw [given]
        refine forall_congr' fun place => imp_congr_right fun same => ?_
        obtain rfl := Option.some.inj same
        have above := (made.live.bounds made.rep).1
        have header : Heap.size { h with mem := fun p => if ptr ≤ p ∧ p < ptr + nmemb * size then 0 else h.mem p } (ptr - 32) =
            h.size (ptr - 32) := readLe_congr fun p _ high => if_neg (by omega)
        unfold Usable
        rw [header]
  | realloc ptr size mmap =>
    obtain ⟨null | ⟨old, member⟩, range, fresh⟩ := allowed
    · subst null
      unfold Call.Sufficient Call.Fits
      dsimp only
      rw [if_pos rfl, realloc_null, ← enough_malloc sound.rep fresh range]
      refine and_iff_left fun _ none => ?_
      rcases malloc_spec sound.rep fresh range with ⟨_, failed⟩ | ⟨_, h, new, got, as', given, _⟩
      · rw [failed]
      · rw [given] at none
        cases none
    · obtain ⟨room, live, _⟩ := sound.owned _ member
      have above := (live.bounds sound.rep).1
      unfold Call.Sufficient Call.Fits
      dsimp only
      rw [if_neg (by omega)]
      rcases Nat.eq_zero_or_pos size with rfl | some_size
      · refine iff_of_true ⟨fun new same => ?_, fun positive => absurd rfl positive⟩ (.inl (Nat.zero_le _))
        rw [Malloc.realloc, if_neg (by omega), if_pos rfl] at same
        cases same
      by_cases small : size ≤ sizeTop
      · refine iff_of_true ?_ (.inl small)
        rcases realloc_spec sound.rep live fresh some_size small with none | ⟨h', new, got, as', done, rep, liveNew, enough, _⟩
        · rw [none]
          exact ⟨fun _ none => (nomatch none), fun _ _ => rfl⟩
        · rw [done]
          refine ⟨fun place same => ?_, fun _ none => (nomatch none)⟩
          obtain rfl := Option.some.inj same
          exact liveNew.usable rep enough
      rw [or_iff_right small]
      rcases realloc_top sound.rep live fresh (Nat.lt_of_not_le small) range with ⟨refused, none⟩ | ⟨given, h', new, done, short⟩
      · rw [none]
        exact iff_of_true ⟨fun _ none => (nomatch none), fun _ _ => rfl⟩ refused
      · rw [done]
        exact iff_of_false (fun both => short (both.1 new rfl)) given
  | free ptr => exact iff_of_true trivial trivial
  | write p byte => exact iff_of_true trivial trivial

end

/-- A process that has not called the heap. -/
def init (mem : Bytes) (errno : Nat) : State := ⟨⟨mem, [], [], errno⟩, []⟩

def exec (s : State) (call : Call) : Except Empty State := .ok (call.exec s)

/-- The sizes of the calls are below the middle of the numbers, for `calloc` the whole size, unless no number holds it. -/
def Call.Small : Call → Prop
  | .malloc size _ => size < 2 ^ 63
  | .calloc nmemb size _ => nmemb * size < 2 ^ 63 ∨ 2 ^ 64 ≤ nmemb * size
  | .realloc _ size _ => size < 2 ^ 63
  | .free _ => True
  | .write _ _ => True

section

variable {mem : Bytes} {errno : Nat} {s : State}

theorem init_sound : Sound (init mem errno) [] where
  rep := ⟨rfl, rfl, List.forall_mem_nil _, .nil⟩
  owned := List.forall_mem_nil _
  once := .nil

theorem sound_run (run : Run exec (fun s call => call.Allowed s ∧ ∃ as, Represents s.heap as ∧ call.Fits as) (init mem errno) s) :
    ∃ as, Sound s as := by
  have start : ∃ as, Sound (init mem errno) as := ⟨[], init_sound⟩
  refine @Run.invariant State _ _ _ _ (fun s => ∃ as, Sound s as) _ start ?_ _ run
  rintro s s' call ⟨as, sound⟩ ⟨allowed, as', rep, fits⟩ ⟨⟩
  exact sound.exec allowed (fits.transfer rep sound.rep)

/-- In a run of calls that fit, a call keeps its promise just when it fits. -/
theorem sufficient_iff_fits
    (run : Run exec (fun s call => call.Allowed s ∧ ∃ as, Represents s.heap as ∧ call.Fits as) (init mem errno) s) :
    ∃ as, Represents s.heap as ∧ ∀ call : Call, call.Allowed s → (call.Sufficient s ↔ call.Fits as) := by
  obtain ⟨as, sound⟩ := sound_run run
  exact ⟨as, sound.rep, fun call allowed => sound.sufficient_iff allowed⟩

theorem small_fits {call : Call} {as : List Arena} (small : call.Small) : call.Fits as := by
  have fits : ∀ size, size < 2 ^ 63 → size ≤ sizeTop := fun size below => below.le.trans (by decide)
  cases call with
  | malloc size mmap => exact .inl (fits size small)
  | calloc nmemb size mmap => exact small.symm.imp_right fun below => .inl (fits _ below)
  | realloc ptr size mmap =>
    unfold Call.Fits
    dsimp only
    split
    · exact .inl (fits size small)
    · exact .inl (fits size small)
  | free ptr => trivial
  | write p byte => trivial

/-- The heap in every run: its arenas are tiled, its blocks lie apart, and one that is resized keeps its data. -/
theorem heap_invariant (run : Run exec (fun s call => call.Allowed s ∧ call.Small) (init mem errno) s) :
    (∃ as, Represents s.heap as ∧ ∀ o ∈ s.owned, Live as o.1 (s.heap.size (o.1 - 32))) ∧
      (∀ o ∈ s.owned, o.1 % 16 = 0 ∧ o.2 ≤ s.heap.size (o.1 - 32)) ∧
      (s.owned.Pairwise fun o o' =>
        o.1 + s.heap.size (o.1 - 32) ≤ o'.1 ∨ o'.1 + s.heap.size (o'.1 - 32) ≤ o.1) ∧
      ∀ ptr old size mmap h' new, (ptr, old) ∈ s.owned → size < 2 ^ 63 → Fresh s.heap.maps mmap →
        realloc s.heap ptr size mmap = (h', some new) →
        ∀ i < min (s.heap.size (ptr - 32)) size, h'.mem (new + i) = s.heap.mem (ptr + i) := by
  obtain ⟨as, sound⟩ : ∃ as, Sound s as := by
    have start : ∃ as, Sound (init mem errno) as := ⟨[], init_sound⟩
    refine @Run.invariant State _ _ _ _ (fun s => ∃ as, Sound s as) _ start ?_ _ run
    rintro s s' call ⟨as, sound⟩ ⟨allowed, small⟩ ⟨⟩
    exact sound.exec allowed (small_fits small)
  have live : ∀ o ∈ s.owned, Live as o.1 (s.heap.size (o.1 - 32)) ∧ o.1 % 16 = 0 ∧ o.2 ≤ s.heap.size (o.1 - 32) := by
    intro o member
    obtain ⟨got, live, fits⟩ := sound.owned o member
    obtain ⟨aligned, _, size_eq⟩ := live.head sound.rep
    exact ⟨size_eq.symm ▸ live, aligned, size_eq.symm ▸ fits⟩
  refine ⟨⟨as, sound.rep, fun o member => (live o member).1⟩, fun o member => (live o member).2,
    sound.once.imp_of_mem fun {o o'} member member' apart => ?_, fun ptr old size mmap h' new member range fresh done i low => ?_⟩
  · exact ((live o member).1.apart sound.rep (live o' member').1).resolve_left fun same => apart same.1
  · have inUse := (live _ member).1
    rcases Nat.eq_zero_or_pos size with rfl | some_size
    · simp at low
    rcases realloc_spec sound.rep inUse fresh some_size (range.le.trans (by decide)) with none | ⟨_, _, _, _, moved, _, _, _, data, _⟩
    · rw [none] at done
      cases done
    · obtain ⟨rfl, same⟩ := Prod.mk.inj (moved.symm.trans done)
      obtain rfl := Option.some.inj same
      exact data i low

end

/-- The block that a call resizes or frees. -/
def Call.Takes (ptr : Nat) : Call → Prop
  | .realloc old _ _ => old = ptr
  | .free old => old = ptr
  | _ => False

/-- What a byte is after a call. -/
def Call.stored (s : State) (q : Nat) : Call → UInt8
  | .write p byte => if q = p then byte else s.heap.mem q
  | _ => s.heap.mem q

/-- What is owned and not taken stays owned, with what was stored in it. -/
def Untouched (s s' : State) (o : Nat × Nat) : Prop := o ∈ s'.owned ∧ ∀ q, o.1 ≤ q → q < o.1 + o.2 → s'.heap.mem q = s.heap.mem q

section

variable {s : State} {as : List Arena} {o : Nat × Nat} {ptr size : Nat} {mmap : Nat → Option Nat}

theorem Sound.keeps_malloc (sound : Sound s as) (fresh : Fresh s.heap.maps mmap) (fits : size < 2 ^ 64) (good : SizeFits as size mmap)
    (member : o ∈ s.owned) : Untouched s (own s.owned size (Malloc.malloc s.heap size mmap)) o := by
  rcases sound.malloc fresh fits good with failed | ⟨h', ptr, got, as', made_eq, made, enough⟩
  · rw [failed]
    exact ⟨member, fun _ _ _ => rfl⟩
  · rw [made_eq]
    obtain ⟨room, live, inside⟩ := sound.owned o member
    exact ⟨List.mem_cons_of_mem _ member, fun q low high => (made.keeps o.1 room live).2 q low (by omega)⟩

theorem Sound.keeps_calloc {nmemb : Nat} (sound : Sound s as) (fresh : Fresh s.heap.maps mmap)
    (good : 2 ^ 64 ≤ nmemb * size ∨ SizeFits as (nmemb * size) mmap) (member : o ∈ s.owned) :
    Untouched s (own s.owned (nmemb * size) (Malloc.calloc s.heap nmemb size mmap)) o := by
  rw [calloc_eq]
  by_cases large : 2 ^ 64 ≤ nmemb * size
  · rw [if_pos large]
    exact ⟨member, fun _ _ _ => rfl⟩
  rw [if_neg large]
  rcases sound.malloc fresh (Nat.lt_of_not_le large) (good.resolve_left large) with failed | ⟨h', ptr, got, as', made_eq, made, enough⟩
  · rw [failed]
    exact ⟨member, fun _ _ _ => rfl⟩
  · rw [made_eq]
    obtain ⟨room, live, inside⟩ := sound.owned o member
    obtain ⟨liveNow, same⟩ := made.keeps o.1 room live
    have differ := made.other o.1 room live
    -- The zeros are in the new block, and the old ones are apart from it.
    have clear := (liveNow.apart made.rep made.live).resolve_left fun same => differ same.1
    exact ⟨List.mem_cons_of_mem _ member, fun q low high => (if_neg (by omega)).trans (same q low (by omega))⟩

theorem Sound.keeps_realloc {old : Nat} (sound : Sound s as) (inside : (ptr, old) ∈ s.owned) (fresh : Fresh s.heap.maps mmap)
    (small : size ≤ sizeTop) (member : o ∈ s.owned) (differ : o.1 ≠ ptr) : Untouched s (Call.exec s (.realloc ptr size mmap)) o := by
  obtain ⟨was, live, _⟩ := sound.owned _ inside
  obtain ⟨room, used, fits⟩ := sound.owned o member
  have above := (live.bounds sound.rep).1
  have stays : o ∈ disown s.owned ptr := mem_disown.mpr ⟨member, differ⟩
  unfold Call.exec
  dsimp only
  rcases Nat.eq_zero_or_pos size with rfl | some_size
  · obtain ⟨_, _, others⟩ := free_spec sound.rep live
    have done : Malloc.realloc s.heap ptr 0 mmap = (Malloc.free s.heap ptr, none) := by
      rw [Malloc.realloc, if_neg (by omega), if_pos rfl]
    rw [done]
    exact ⟨stays, fun q low high => (others o.1 room used differ).2 q low (by omega)⟩
  rcases realloc_spec sound.rep live fresh some_size small with none | ⟨h', new, got, as', done, _, _, _, _, others⟩
  · rw [none]
    dsimp only
    rw [if_neg (by omega)]
    exact ⟨member, fun _ _ _ => rfl⟩
  · rw [done]
    exact ⟨List.mem_cons_of_mem _ stays, fun q low high => (others o.1 room used differ).2.2 q low (by omega)⟩

/-- In every run, a call leaves the blocks it does not take as they are, but for the byte that is written, and what `calloc` hands out is zero. -/
theorem run_contents {mem : Bytes} {errno : Nat} (call : Call)
    (run : Run exec (fun s call => call.Allowed s ∧ call.Small) (init mem errno) s) (allowed : call.Allowed s) (small : call.Small) :
    (∀ o ∈ s.owned, ¬ call.Takes o.1 → o ∈ (call.exec s).owned ∧
      ∀ q, o.1 ≤ q → q < o.1 + o.2 → (call.exec s).heap.mem q = call.stored s q) ∧
      ∀ nmemb size mmap h' ptr, call = .calloc nmemb size mmap → Malloc.calloc s.heap nmemb size mmap = (h', some ptr) →
        ∀ q, ptr ≤ q → q < ptr + nmemb * size → h'.mem q = 0 := by
  obtain ⟨as, sound⟩ : ∃ as, Sound s as := by
    refine @Run.invariant State _ _ _ _ (fun s => ∃ as, Sound s as) _ ⟨[], init_sound⟩ ?_ _ run
    rintro s s' call ⟨as, sound⟩ ⟨allowed, small⟩ ⟨⟩
    exact sound.exec allowed (small_fits small)
  have fits : call.Fits as := small_fits small
  refine ⟨fun o member left => ?_, ?_⟩
  · cases call with
    | malloc size mmap => exact sound.keeps_malloc allowed.2 allowed.1 fits member
    | calloc nmemb size mmap => exact sound.keeps_calloc allowed.2.2 fits member
    | realloc ptr size mmap =>
      obtain ⟨null | ⟨old, inside⟩, range, fresh⟩ := allowed
      · subst null
        have low : size ≤ sizeTop := small.le.trans (by decide)
        obtain ⟨kept, same⟩ := sound.keeps_malloc fresh range (.inl low) member
        have stays : o ∈ disown s.owned 0 := mem_disown.mpr ⟨member, fun null => left null.symm⟩
        unfold Call.exec
        dsimp only
        rw [realloc_null]
        rcases given : Malloc.malloc s.heap size mmap with ⟨h, _ | new⟩ <;> rw [given] at same
        · refine ⟨?_, same⟩
          dsimp only
          split
          · exact stays
          · exact member
        · exact ⟨List.mem_cons_of_mem _ stays, same⟩
      · exact sound.keeps_realloc inside fresh (small.le.trans (by decide)) member fun same => left same.symm
    | free ptr =>
      rcases allowed with rfl | ⟨old, inside⟩
      · exact ⟨mem_disown.mpr ⟨member, fun null => left null.symm⟩, fun _ _ _ => by rw [Call.exec, Malloc.free, if_pos rfl]; rfl⟩
      · obtain ⟨_, live, _⟩ := sound.owned _ inside
        obtain ⟨room, used, bound⟩ := sound.owned o member
        obtain ⟨_, _, others⟩ := free_spec sound.rep live
        have differ : o.1 ≠ ptr := fun same => left same.symm
        exact ⟨mem_disown.mpr ⟨member, differ⟩, fun q low high => (others o.1 room used differ).2 q low (by omega)⟩
    | write p byte => exact ⟨member, fun _ _ _ => rfl⟩
  · rintro nmemb size mmap h' ptr rfl given q low high
    rw [calloc_eq] at given
    split at given
    · cases given
    · split at given
      · cases given
      · obtain ⟨rfl, rfl⟩ : _ ∧ _ := ⟨(Prod.mk.inj given).1, Option.some.inj (Prod.mk.inj given).2⟩
        exact if_pos ⟨low, high⟩

end

/-- A kernel that maps one range, of up to 4 GiB. -/
def kernel (len : Nat) : Option Nat := if len = 0 ∨ 2 ^ 32 < len then none else some 0x10000000

theorem kernel_fresh : Fresh [] kernel := by
  have given : ∀ len base, kernel len = some base → 0 < len ∧ len ≤ 2 ^ 32 ∧ base = 0x10000000 := by
    intro len base mapped
    unfold kernel at mapped
    split at mapped
    · cases mapped
    · exact ⟨by omega, by omega, (Option.some.inj mapped).symm⟩
  refine ⟨fun len base mapped => (given len base mapped).1, fun len base mapped => ?_, fun len base mapped => ?_,
    fun len base _ => List.forall_mem_nil _⟩
  · obtain ⟨_, _, rfl⟩ := given len base mapped
    decide
  · obtain ⟨_, _, rfl⟩ := given len base mapped
    omega

theorem kernel_page : Call.Allowed (init (fun _ => 0) 0) (.malloc 4096 kernel) := ⟨by decide, kernel_fresh⟩

/-- A page is handed out. -/
theorem heap_invariant_page : ∃ as, Represents (Call.exec (init (fun _ => 0) 0) (.malloc 4096 kernel)).heap as ∧
    ∀ o ∈ (Call.exec (init (fun _ => 0) 0) (.malloc 4096 kernel)).owned,
      Live as o.1 ((Call.exec (init (fun _ => 0) 0) (.malloc 4096 kernel)).heap.size (o.1 - 32)) :=
  (heap_invariant (Run.start.call (.malloc 4096 kernel) ⟨kernel_page, (by decide : 4096 < 2 ^ 63)⟩ rfl)).1

theorem sufficient_iff_fits_page : ∃ as, Represents (Call.exec (init (fun _ => 0) 0) (.malloc 4096 kernel)).heap as ∧
    ∀ call : Call, call.Allowed (Call.exec (init (fun _ => 0) 0) (.malloc 4096 kernel)) →
      (call.Sufficient (Call.exec (init (fun _ => 0) 0) (.malloc 4096 kernel)) ↔ call.Fits as) :=
  sufficient_iff_fits (Run.start.call (.malloc 4096 kernel)
    ⟨kernel_page, [], init_sound.rep, .inl (by decide : 4096 ≤ sizeTop)⟩ rfl)

theorem run_contents_page :
    (Call.exec (Call.exec (init (fun _ => 0) 0) (.malloc 4096 kernel)) (.write 0x10000030 7)).heap.mem 0x10000030 = 7 ∧
      (Call.exec (Call.exec (init (fun _ => 0) 0) (.malloc 4096 kernel)) (.write 0x10000030 7)).heap.mem 0x10000031 =
        (Call.exec (init (fun _ => 0) 0) (.malloc 4096 kernel)).heap.mem 0x10000031 := by
  have contents := ((run_contents (.write 0x10000030 7)
    (Run.start.call (.malloc 4096 kernel) ⟨kernel_page, (by decide : 4096 < 2 ^ 63)⟩ rfl)
    ⟨(0x10000030, 4096), List.mem_singleton_self _, by decide, by decide⟩ trivial).1 (0x10000030, 4096)
    (List.mem_singleton_self _) id).2
  exact ⟨contents 0x10000030 (by decide) (by decide), contents 0x10000031 (by decide) (by decide)⟩

/-- The largest size gets a block of no bytes. -/
theorem malloc_largest : ¬ ∀ (s : State), Run exec (fun s call => call.Allowed s) (init (fun _ => 0) 0) s →
    ∀ call : Call, call.Allowed s → call.Sufficient s := by
  intro all
  have allowed : Call.Allowed (init (fun _ => 0) 0) (.malloc (2 ^ 64 - 1) kernel) := ⟨by decide, kernel_fresh⟩
  have fits : Call.Fits [] (.malloc (2 ^ 64 - 1) kernel) :=
    (init_sound.sufficient_iff allowed).mp (all _ .start _ allowed)
  rcases fits with small | ⟨refused, _⟩
  · exact absurd small (by decide)
  · exact absurd refused (by decide)

end Enlil.Malloc
