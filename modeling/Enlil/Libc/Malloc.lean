import Enlil.Lib.Memory

/-! The heap of `enlilos-musl/src/malloc.c`: arenas that are tiled by blocks, in the bytes of the memory. -/

namespace Enlil.Malloc

def mallocAlign : Nat := 16
def mallocPage : Nat := 4096
def mallocArenaChunk : Nat := 65536
def blockMagic : Nat := 0x4D414C4C
def enomem : Nat := 12

/-- The memory of a process, with the arenas from the last one made on, and what the kernel has mapped for them. -/
structure Heap where
  mem : Bytes
  arenas : List Nat
  maps : List (Nat × Nat)
  errno : Nat

/-- Rounds up in 64 bits. -/
def mallocAlignUp (value align : Nat) : Nat :=
  let sum := (value + align - 1) % 2 ^ 64
  sum - sum % align

/-- The fields of an arena and of a block; their headers take 16 and 32 bytes. -/
def Heap.mapLen (h : Heap) (arena : Nat) : Nat := readLe h.mem (arena + 8) 8

def Heap.arena (h : Heap) (block : Nat) : Nat := readLe h.mem block 8
def Heap.size (h : Heap) (block : Nat) : Nat := readLe h.mem (block + 8) 8
def Heap.prevSize (h : Heap) (block : Nat) : Nat := readLe h.mem (block + 16) 8
def Heap.free (h : Heap) (block : Nat) : Nat := readLe h.mem (block + 24) 4
def Heap.magic (h : Heap) (block : Nat) : Nat := readLe h.mem (block + 28) 4

def Heap.store (h : Heap) (p width value : Nat) : Heap := { h with mem := writeLe h.mem p width value }

def Heap.setSize (h : Heap) (block value : Nat) : Heap := h.store (block + 8) 8 value
def Heap.setPrevSize (h : Heap) (block value : Nat) : Heap := h.store (block + 16) 8 value
def Heap.setFree (h : Heap) (block value : Nat) : Heap := h.store (block + 24) 4 value

def mallocArenaEnd (h : Heap) (arena : Nat) : Nat := arena + h.mapLen arena

def mallocArenaFirst (arena : Nat) : Nat := arena + 16

def mallocBlockNext (h : Heap) (block : Nat) : Option Nat :=
  if block = 0 ∨ h.arena block = 0 then none
  else
    let next := block + 32 + h.size block
    if mallocArenaEnd h (h.arena block) < next + 32 then none else some next

def mallocBlockPrev (h : Heap) (block : Nat) : Option Nat :=
  if block = 0 ∨ h.arena block = 0 ∨ h.prevSize block = 0 then none
  else
    let prev := block - 32 - h.prevSize block
    if prev < mallocArenaFirst (h.arena block) then none else some prev

def mallocBlockInit (h : Heap) (block arena size prevSize freeFlag : Nat) : Heap :=
  let linked := (h.store block 8 arena).setSize block size
  ((linked.setPrevSize block prevSize).setFree block freeFlag).store (block + 28) 4 blockMagic

/-- Makes an arena of the memory that the kernel gives for a length, if it gives any. -/
def mallocArenaAlloc (h : Heap) (need : Nat) (mmap : Nat → Option Nat) : Heap × Option Nat :=
  let asked := (16 + 32 + need) % 2 ^ 64
  let mapLen := mallocAlignUp (if asked < mallocArenaChunk then mallocArenaChunk else asked) mallocPage
  match mmap mapLen with
  | none => ({ h with errno := enomem }, none)
  | some arena =>
    let mapped := { h with mem := fun p => if arena ≤ p ∧ p < arena + mapLen then 0 else h.mem p }
    let listed := { mapped.store (arena + 8) 8 mapLen with arenas := arena :: h.arenas, maps := (arena, mapLen) :: h.maps }
    (mallocBlockInit listed (mallocArenaFirst arena) arena (mapLen - 16 - 32) 0 1, some (mallocArenaFirst arena))

/-- Notes the size of a block in the block behind it. -/
def fixNext (h : Heap) (block : Nat) : Heap :=
  match mallocBlockNext h block with
  | some next => h.setPrevSize next (h.size block)
  | none => h

def mallocBlockSplit (h : Heap) (block need : Nat) : Heap :=
  if block = 0 ∨ h.size block < need then h
  else
    let remain := h.size block - need
    if remain ≤ 32 + mallocAlign then h
    else
      let next := block + 32 + need
      fixNext ((mallocBlockInit h next (h.arena block) (remain - 32) need 1).setSize block need) next

def mallocBlockCoalesceWithNext (h : Heap) (block : Nat) : Heap :=
  match mallocBlockNext h block with
  | none => h
  | some next =>
    if h.magic next ≠ blockMagic ∨ h.free next = 0 then h
    else fixNext (h.setSize block (h.size block + (32 + h.size next))) block

/-- Joins a free block with the one before it if that one is free, and notes the size in the block behind. -/
def coalesceWithPrev (h : Heap) (block : Nat) : Heap :=
  match mallocBlockPrev h block with
  | some prev =>
    if h.magic prev = blockMagic ∧ h.free prev ≠ 0 then fixNext (mallocBlockCoalesceWithNext h prev) prev
    else fixNext h block
  | none => fixNext h block

def mallocBlockFreeLocked (h : Heap) (block : Nat) : Heap :=
  if block = 0 ∨ h.magic block ≠ blockMagic then h
  else coalesceWithPrev (mallocBlockCoalesceWithNext (h.setFree block 1) block) block

/-- What a search over blocks comes to. -/
inductive Search where
  | found (block : Nat)
  | exhausted
  | corrupt

theorem mallocBlockNext_gt {h : Heap} {block next : Nat} (follows : mallocBlockNext h block = some next) : block < next := by
  unfold mallocBlockNext at follows
  split at follows
  · cases follows
  · dsimp only at follows
    split at follows
    · cases follows
    · obtain rfl := Option.some.inj follows
      omega

/-- Looks through an arena for a free block that is large enough. -/
def searchBlocks (h : Heap) (stop need block : Nat) : Search :=
  if block < stop then
    if h.magic block ≠ blockMagic then .corrupt
    else if h.free block = 0 ∨ h.size block < need then
      match _follows : mallocBlockNext h block with
      | some next => searchBlocks h stop need next
      | none => .exhausted
    else .found block
  else .exhausted
termination_by stop - block
decreasing_by
  have := mallocBlockNext_gt _follows
  omega

def searchArenas (h : Heap) (need : Nat) : List Nat → Search
  | [] => .exhausted
  | arena :: later =>
    match searchBlocks h (mallocArenaEnd h arena) need (mallocArenaFirst arena) with
    | .exhausted => searchArenas h need later
    | other => other

/-- Hands a block out. -/
def takeBlock (h : Heap) (block need : Nat) : Heap :=
  fixNext ((mallocBlockSplit h block need).setFree block 0) block

def mallocLocked (h : Heap) (size : Nat) (mmap : Nat → Option Nat) : Heap × Option Nat :=
  let need := mallocAlignUp (if size = 0 then 1 else size) mallocAlign
  match searchArenas h need h.arenas with
  | .corrupt => (h, none)
  | .found block => (takeBlock h block need, some (block + 32))
  | .exhausted =>
    match mallocArenaAlloc h need mmap with
    | (h, none) => (h, none)
    | (h, some block) => (takeBlock h block need, some (block + 32))

def malloc (h : Heap) (size : Nat) (mmap : Nat → Option Nat) : Heap × Option Nat :=
  match mallocLocked h size mmap with
  | (h, none) => ({ h with errno := enomem }, none)
  | (h, some ptr) => (h, some ptr)

def free (h : Heap) (ptr : Nat) : Heap := if ptr = 0 then h else mallocBlockFreeLocked h (ptr - 32)

def calloc (h : Heap) (nmemb size : Nat) (mmap : Nat → Option Nat) : Heap × Option Nat :=
  if nmemb ≠ 0 ∧ (2 ^ 64 - 1) / nmemb < size then ({ h with errno := enomem }, none)
  else
    let total := nmemb * size % 2 ^ 64
    match malloc h total mmap with
    | (h, none) => (h, none)
    | (h, some ptr) => ({ h with mem := fun p => if ptr ≤ p ∧ p < ptr + total then 0 else h.mem p }, some ptr)

def realloc (h : Heap) (ptr size : Nat) (mmap : Nat → Option Nat) : Heap × Option Nat :=
  if ptr = 0 then malloc h size mmap
  else if size = 0 then (free h ptr, none)
  else
    let need := mallocAlignUp size mallocAlign
    let block := ptr - 32
    if h.magic block = blockMagic ∧ need ≤ h.size block then ((mallocBlockSplit h block need).setFree block 0, some ptr)
    else
      match malloc h size mmap with
      | (h, none) => (h, none)
      | (h, some newPtr) =>
        let copied :=
          if h.magic block = blockMagic then
            { h with mem := memcpy h.mem newPtr h.mem ptr (if h.size block < size then h.size block else size) }
          else h
        (free copied ptr, some newPtr)

/-- A block of an arena. -/
structure Block where
  size : Nat
  free : Bool
  deriving DecidableEq

/-- Where blocks end that start at a place. -/
def finish (p : Nat) : List Block → Nat
  | [] => p
  | b :: later => finish (p + 32 + b.size) later

/-- The size of the last block, or of the one before. -/
def lastSize (prev : Nat) : List Block → Nat
  | [] => prev
  | b :: later => lastSize b.size later

/-- A place holds the header of a block. -/
structure HeadAt (h : Heap) (arena prev p : Nat) (b : Block) : Prop where
  arena_eq : h.arena p = arena
  size_eq : h.size p = b.size
  prev_eq : h.prevSize p = prev
  free_eq : h.free p = if b.free then 1 else 0
  magic_eq : h.magic p = blockMagic
  aligned : b.size % 16 = 0

/-- Blocks follow each other from a place on. -/
def Seg (h : Heap) (arena : Nat) : Nat → Nat → List Block → Prop
  | _, _, [] => True
  | prev, p, b :: later => HeadAt h arena prev p b ∧ Seg h arena b.size (p + 32 + b.size) later

/-- A block that is in use has its data at a place, and has a size. -/
def InUse : Nat → List Block → Nat → Nat → Prop
  | _, [], _, _ => False
  | p, b :: later, ptr, size => b.free = false ∧ ptr = p + 32 ∧ size = b.size ∨ InUse (p + 32 + b.size) later ptr size

/-- Nothing is changed outside a range. -/
structure Local (h h' : Heap) (p stop : Nat) : Prop where
  arenas : h'.arenas = h.arenas
  maps : h'.maps = h.maps
  mem : ∀ q, q < p ∨ stop ≤ q → h'.mem q = h.mem q

section

variable {h h' : Heap} {arena prev p width value : Nat} {b : Block} {bs cs : List Block}

theorem finish_append : finish p (bs ++ cs) = finish (finish p bs) cs := by
  induction bs generalizing p with
  | nil => rfl
  | cons b bs ih => exact ih

theorem le_finish : p ≤ finish p bs := by
  induction bs generalizing p with
  | nil => exact le_rfl
  | cons b bs ih => exact le_trans (by omega) ih

theorem lastSize_append : lastSize prev (bs ++ cs) = lastSize (lastSize prev bs) cs := by
  induction bs generalizing prev with
  | nil => rfl
  | cons b bs ih => exact ih

theorem seg_append : Seg h arena prev p (bs ++ cs) ↔
    Seg h arena prev p bs ∧ Seg h arena (lastSize prev bs) (finish p bs) cs := by
  induction bs generalizing prev p with
  | nil => exact ⟨fun seg => ⟨trivial, seg⟩, And.right⟩
  | cons b bs ih =>
    rw [List.cons_append, Seg, Seg, ih, and_assoc]
    rfl

theorem inUse_append {ptr size : Nat} :
    InUse p (bs ++ cs) ptr size ↔ InUse p bs ptr size ∨ InUse (finish p bs) cs ptr size := by
  induction bs generalizing p with
  | nil => simp [InUse, finish]
  | cons b bs ih =>
    rw [List.cons_append, InUse, InUse, ih, or_assoc]
    rfl

theorem InUse.inside {ptr size : Nat} (used : InUse p bs ptr size) : p + 32 ≤ ptr ∧ ptr + size ≤ finish p bs := by
  induction bs generalizing p with
  | nil => cases used
  | cons b bs ih =>
    rcases used with ⟨_, rfl, rfl⟩ | later
    · exact ⟨le_rfl, le_finish⟩
    · obtain ⟨low, high⟩ := ih later
      exact ⟨by omega, high⟩

theorem InUse.apart {ptr size ptr' size' : Nat} (used : InUse p bs ptr size) (used' : InUse p bs ptr' size') :
    ptr = ptr' ∧ size = size' ∨ ptr + size ≤ ptr' ∨ ptr' + size' ≤ ptr := by
  induction bs generalizing p with
  | nil => cases used
  | cons b bs ih =>
    rcases used with ⟨_, rfl, rfl⟩ | later <;> rcases used' with ⟨_, rfl, rfl⟩ | later'
    · exact .inl ⟨rfl, rfl⟩
    · have := later'.inside
      omega
    · have := later.inside
      omega
    · exact ih later later'

theorem HeadAt.congr (head : HeadAt h arena prev p b) (same : ∀ q, p ≤ q → q < p + 32 → h'.mem q = h.mem q) :
    HeadAt h' arena prev p b := by
  have field : ∀ off width, off + width ≤ 32 → readLe h'.mem (p + off) width = readLe h.mem (p + off) width :=
    fun off width inside => readLe_congr fun q low high => same q (by omega) (by omega)
  exact ⟨(field 0 8 (by decide)).trans head.arena_eq, (field 8 8 (by decide)).trans head.size_eq,
    (field 16 8 (by decide)).trans head.prev_eq, (field 24 4 (by decide)).trans head.free_eq,
    (field 28 4 (by decide)).trans head.magic_eq, head.aligned⟩

theorem Seg.congr (seg : Seg h arena prev p bs) (same : ∀ q, p ≤ q → q < finish p bs → h'.mem q = h.mem q) :
    Seg h' arena prev p bs := by
  induction bs generalizing prev p with
  | nil => trivial
  | cons b bs ih =>
    obtain ⟨head, later⟩ := seg
    have ends : p + 32 + b.size ≤ finish p (b :: bs) := le_finish
    exact ⟨head.congr fun q low high => same q low (by omega), ih later fun q low high => same q (by omega) high⟩

theorem store_local (h : Heap) (p width value : Nat) : Local h (h.store p width value) p (p + width) :=
  ⟨rfl, rfl, fun _ outside => writeLe_outside outside⟩

theorem Local.widen {r stop stop' : Nat} (only : Local h h' p stop) (low : r ≤ p) (high : stop ≤ stop') : Local h h' r stop' :=
  ⟨only.arenas, only.maps, fun q outside => only.mem q (by omega)⟩

theorem Local.trans {h'' : Heap} {stop : Nat} (first : Local h h' p stop) (second : Local h' h'' p stop) : Local h h'' p stop :=
  ⟨second.arenas.trans first.arenas, second.maps.trans first.maps, fun q outside => (second.mem q outside).trans (first.mem q outside)⟩

theorem HeadAt.setSize (head : HeadAt h arena prev p b) (fits : value < 2 ^ 64) (aligned : value % 16 = 0) :
    HeadAt (h.setSize p value) arena prev p ⟨value, b.free⟩ where
  arena_eq := (readLe_writeLe_apart (by omega)).trans head.arena_eq
  size_eq := (readLe_writeLe le_rfl).trans (Nat.mod_eq_of_lt fits)
  prev_eq := (readLe_writeLe_apart (by omega)).trans head.prev_eq
  free_eq := (readLe_writeLe_apart (by omega)).trans head.free_eq
  magic_eq := (readLe_writeLe_apart (by omega)).trans head.magic_eq
  aligned := aligned

theorem HeadAt.setPrevSize (head : HeadAt h arena prev p b) (fits : value < 2 ^ 64) :
    HeadAt (h.setPrevSize p value) arena value p b where
  arena_eq := (readLe_writeLe_apart (by omega)).trans head.arena_eq
  size_eq := (readLe_writeLe_apart (by omega)).trans head.size_eq
  prev_eq := (readLe_writeLe le_rfl).trans (Nat.mod_eq_of_lt fits)
  free_eq := (readLe_writeLe_apart (by omega)).trans head.free_eq
  magic_eq := (readLe_writeLe_apart (by omega)).trans head.magic_eq
  aligned := head.aligned

theorem HeadAt.setFree (head : HeadAt h arena prev p b) (flag : Bool) :
    HeadAt (h.setFree p (if flag then 1 else 0)) arena prev p ⟨b.size, flag⟩ where
  arena_eq := (readLe_writeLe_apart (by omega)).trans head.arena_eq
  size_eq := (readLe_writeLe_apart (by omega)).trans head.size_eq
  prev_eq := (readLe_writeLe_apart (by omega)).trans head.prev_eq
  free_eq := (readLe_writeLe le_rfl).trans (by cases flag <;> rfl)
  magic_eq := (readLe_writeLe_apart (by omega)).trans head.magic_eq
  aligned := head.aligned

theorem headAt_init {size prevSize : Nat} (arena_lt : arena < 2 ^ 64) (size_lt : size < 2 ^ 64) (prev_lt : prevSize < 2 ^ 64)
    (aligned : size % 16 = 0) : HeadAt (mallocBlockInit h p arena size prevSize 1) arena prevSize p ⟨size, true⟩ where
  arena_eq := by
    refine (readLe_writeLe_apart (by omega)).trans ((readLe_writeLe_apart (by omega)).trans
      ((readLe_writeLe_apart (by omega)).trans ((readLe_writeLe_apart (by omega)).trans ?_)))
    exact (readLe_writeLe le_rfl).trans (Nat.mod_eq_of_lt arena_lt)
  size_eq := by
    refine (readLe_writeLe_apart (by omega)).trans ((readLe_writeLe_apart (by omega)).trans
      ((readLe_writeLe_apart (by omega)).trans ?_))
    exact (readLe_writeLe le_rfl).trans (Nat.mod_eq_of_lt size_lt)
  prev_eq := by
    refine (readLe_writeLe_apart (by omega)).trans ((readLe_writeLe_apart (by omega)).trans ?_)
    exact (readLe_writeLe le_rfl).trans (Nat.mod_eq_of_lt prev_lt)
  free_eq := (readLe_writeLe_apart (by omega)).trans (readLe_writeLe le_rfl)
  magic_eq := readLe_writeLe le_rfl
  aligned := aligned

theorem init_local {size prevSize flag : Nat} : Local h (mallocBlockInit h p arena size prevSize flag) p (p + 32) := by
  have linked : Local h _ p (p + 32) := (store_local h p 8 arena).widen le_rfl (by omega)
  have sized := linked.trans ((store_local _ (p + 8) 8 size).widen (by omega) (by omega))
  have noted := sized.trans ((store_local _ (p + 16) 8 prevSize).widen (by omega) (by omega))
  have flagged := noted.trans ((store_local _ (p + 24) 4 flag).widen (by omega) (by omega))
  exact flagged.trans ((store_local _ (p + 28) 4 blockMagic).widen (by omega) (by omega))

end

/-- The room that an arena has. -/
structure Room (h : Heap) (arena stop : Nat) : Prop where
  real : arena ≠ 0
  end_eq : mallocArenaEnd h arena = stop
  top : stop ≤ 2 ^ 64

/-- Blocks that tile an arena from a place to its end. -/
structure Tail (h : Heap) (arena stop prev p : Nat) (bs : List Block) : Prop where
  room : Room h arena stop
  above : arena + 16 ≤ p
  seg : Seg h arena prev p bs
  stop_eq : finish p bs = stop

/-- The blocks behind a place that are in use stay there, with their data. -/
def Keeps (h h' : Heap) (p : Nat) (bs : List Block) (p' : Nat) (bs' : List Block) : Prop :=
  ∀ ptr size, InUse p bs ptr size → InUse p' bs' ptr size ∧ ∀ q, ptr ≤ q → q < ptr + size → h'.mem q = h.mem q

section

variable {h h' : Heap} {arena stop prev p need : Nat} {b : Block} {bs xs : List Block}

theorem Room.congr {r : Nat} (room : Room h arena stop) (only : Local h h' p r) (above : arena + 16 ≤ p) : Room h' arena stop where
  real := room.real
  end_eq := by
    have same : h'.mapLen arena = h.mapLen arena := readLe_congr fun q low high => only.mem q (by omega)
    rw [mallocArenaEnd, same]
    exact room.end_eq
  top := room.top

theorem Tail.bound (tail : Tail h arena stop prev p (b :: bs)) : p + 32 + b.size ≤ stop ∧ stop ≤ 2 ^ 64 := by
  have ends := tail.stop_eq
  have long : p + 32 + b.size ≤ finish (p + 32 + b.size) bs := le_finish
  exact ⟨ends ▸ long, tail.room.top⟩

theorem mallocBlockNext_eq (room : Room h arena stop) (above : arena + 16 ≤ p) (head : HeadAt h arena prev p b) :
    mallocBlockNext h p = if stop < p + 32 + b.size + 32 then none else some (p + 32 + b.size) := by
  have real := room.real
  unfold mallocBlockNext
  rw [if_neg (by rw [head.arena_eq]; omega), head.size_eq, head.arena_eq]
  dsimp only
  rw [room.end_eq]

theorem fixNext_tail {other : Nat} (room : Room h arena stop) (above : arena + 16 ≤ p) (head : HeadAt h arena prev p b)
    (later : Seg h arena other (p + 32 + b.size) bs) (ends : finish (p + 32 + b.size) bs = stop) :
    Tail (fixNext h p) arena stop prev p (b :: bs) ∧ Local h (fixNext h p) (p + 32 + b.size) stop ∧
      Keeps h (fixNext h p) (p + 32 + b.size) bs (p + 32 + b.size) bs := by
  have top := room.top
  unfold fixNext
  rw [mallocBlockNext_eq room above head]
  cases bs with
  | nil =>
    have ends : p + 32 + b.size = stop := ends
    rw [if_pos (by omega)]
    exact ⟨⟨room, above, ⟨head, trivial⟩, ends⟩, ⟨rfl, rfl, fun _ _ => rfl⟩, fun _ _ used => ⟨used, fun _ _ _ => rfl⟩⟩
  | cons c cs =>
    obtain ⟨next, rest⟩ := later
    have long : p + 32 + b.size + 32 + c.size ≤ stop := ends ▸ le_finish
    rw [if_neg (by omega)]
    dsimp only
    rw [head.size_eq]
    have only : Local h (h.setPrevSize (p + 32 + b.size) b.size) (p + 32 + b.size + 16) (p + 32 + b.size + 24) :=
      store_local h (p + 32 + b.size + 16) 8 b.size
    refine ⟨⟨room.congr only (by omega), above, ⟨head.congr fun q _ high => only.mem q (by omega), next.setPrevSize (by omega),
      rest.congr fun q low _ => only.mem q (by omega)⟩, ends⟩, only.widen (by omega) (by omega), fun ptr size used => ⟨used, fun q low _ => ?_⟩⟩
    have inside := used.inside
    exact only.mem q (by omega)

theorem setFree_tail (tail : Tail h arena stop prev p (b :: bs)) (flag : Bool) :
    Tail (h.setFree p (if flag then 1 else 0)) arena stop prev p (⟨b.size, flag⟩ :: bs) ∧
      Local h (h.setFree p (if flag then 1 else 0)) p (p + 32) := by
  obtain ⟨room, above, ⟨head, later⟩, ends⟩ := tail
  have only : Local h (h.setFree p (if flag then 1 else 0)) (p + 24) (p + 28) := store_local h (p + 24) 4 _
  exact ⟨⟨room.congr only (by omega), above, ⟨head.setFree flag, later.congr fun q low _ => only.mem q (by omega)⟩, ends⟩,
    only.widen (by omega) (by omega)⟩

/-- What is left of a block when it is split: it stays as it is if the rest is too small for a block. -/
def cut (b : Block) (need : Nat) : List Block :=
  if b.size - need ≤ 32 + mallocAlign then [b] else [⟨need, b.free⟩, ⟨b.size - need - 32, true⟩]

theorem finish_cut (fits : need ≤ b.size) : finish p (cut b need) = p + 32 + b.size := by
  unfold cut
  split
  · rfl
  · simp only [finish]
    omega

theorem split_tail (tail : Tail h arena stop prev p (b :: bs)) (fits : need ≤ b.size) (aligned : need % 16 = 0) :
    Tail (mallocBlockSplit h p need) arena stop prev p (cut b need ++ bs) ∧ Local h (mallocBlockSplit h p need) p stop ∧
      (∀ q, p + 32 ≤ q → q < p + 32 + need → (mallocBlockSplit h p need).mem q = h.mem q) ∧
      Keeps h (mallocBlockSplit h p need) (p + 32 + b.size) bs (p + 32 + b.size) bs := by
  have bound := tail.bound
  obtain ⟨room, above, ⟨head, later⟩, ends⟩ := tail
  have ends : finish (p + 32 + b.size) bs = stop := ends
  have real := room.real
  have even := head.aligned
  unfold mallocBlockSplit cut
  rw [if_neg (by rw [head.size_eq]; omega), head.size_eq, head.arena_eq]
  dsimp only
  by_cases small : b.size - need ≤ 32 + mallocAlign
  · rw [if_pos small, if_pos small]
    exact ⟨⟨room, above, ⟨head, later⟩, ends⟩, ⟨rfl, rfl, fun _ _ => rfl⟩, fun _ _ _ => rfl, fun _ _ used => ⟨used, fun _ _ _ => rfl⟩⟩
  rw [if_neg small, if_neg small]
  replace small : ¬ b.size - need ≤ 48 := small
  -- The rest becomes a block of its own, then the block is made smaller, then the block behind is told.
  generalize init_eq : mallocBlockInit h (p + 32 + need) arena (b.size - need - 32) need 1 = init
  have made : HeadAt init arena need (p + 32 + need) ⟨b.size - need - 32, true⟩ :=
    init_eq ▸ headAt_init (by omega) (by omega) (by omega) (by omega)
  have only : Local h init (p + 32 + need) (p + 32 + need + 32) := init_eq ▸ init_local
  have sizeOnly : Local init (init.setSize p need) (p + 8) (p + 16) := store_local init (p + 8) 8 need
  have headNow : HeadAt (init.setSize p need) arena prev p ⟨need, b.free⟩ :=
    (head.congr fun q _ high => only.mem q (by omega)).setSize (by omega) aligned
  have madeNow : HeadAt (init.setSize p need) arena need (p + 32 + need) ⟨b.size - need - 32, true⟩ :=
    made.congr fun q low _ => sizeOnly.mem q (by omega)
  have place : p + 32 + need + 32 + (b.size - need - 32) = p + 32 + b.size := by omega
  have laterNow : Seg (init.setSize p need) arena b.size (p + 32 + b.size) bs :=
    later.congr fun q low _ => (sizeOnly.mem q (by omega)).trans (only.mem q (by omega))
  have before : Local h (init.setSize p need) p (p + 32 + b.size) :=
    (only.widen (by omega) (by omega)).trans (sizeOnly.widen (by omega) (by omega))
  have roomNow : Room (init.setSize p need) arena stop := room.congr before above
  obtain ⟨tail, fixed, keeps⟩ := fixNext_tail roomNow (by omega) madeNow (place.symm ▸ laterNow) (place.symm ▸ ends)
  rw [place] at fixed keeps
  refine ⟨⟨roomNow.congr fixed (by omega), above, ⟨headNow.congr fun q _ high => fixed.mem q (by omega), tail.seg⟩, tail.stop_eq⟩,
    (before.widen le_rfl bound.1).trans (fixed.widen (by omega) le_rfl), fun q low high => ?_, fun ptr size used => ?_⟩
  · exact (fixed.mem q (by omega)).trans ((sizeOnly.mem q (by omega)).trans (only.mem q (by omega)))
  · have inside := used.inside
    exact ⟨(keeps ptr size used).1, fun q low high => ((keeps ptr size used).2 q low high).trans (before.mem q (by omega))⟩

theorem cut_eq (b : Block) (need : Nat) (flag : Bool) :
    ∃ first rest, cut b need = first :: rest ∧ first.free = b.free ∧ cut ⟨b.size, flag⟩ need = ⟨first.size, flag⟩ :: rest := by
  unfold cut
  by_cases small : b.size - need ≤ 32 + mallocAlign
  · rw [if_pos small, if_pos small]
    exact ⟨b, [], rfl, rfl, rfl⟩
  · rw [if_neg small, if_neg small]
    exact ⟨⟨need, b.free⟩, [⟨b.size - need - 32, true⟩], rfl, rfl, rfl⟩

theorem shrink_tail (tail : Tail h arena stop prev p (b :: bs)) (fits : need ≤ b.size) (aligned : need % 16 = 0) :
    Tail ((mallocBlockSplit h p need).setFree p 0) arena stop prev p (cut ⟨b.size, false⟩ need ++ bs) ∧
      Local h ((mallocBlockSplit h p need).setFree p 0) p stop ∧
      (∀ q, p + 32 ≤ q → q < p + 32 + need → ((mallocBlockSplit h p need).setFree p 0).mem q = h.mem q) ∧
      Keeps h ((mallocBlockSplit h p need).setFree p 0) (p + 32 + b.size) bs (p + 32 + b.size) bs := by
  have bound := tail.bound
  obtain ⟨tail, only, data, keeps⟩ := split_tail tail fits aligned
  obtain ⟨first, rest, cut_is, _, cut_used⟩ := cut_eq b need false
  rw [cut_is, List.cons_append] at tail
  obtain ⟨marked, flag⟩ := setFree_tail tail false
  rw [cut_used, List.cons_append]
  refine ⟨marked, only.trans (flag.widen le_rfl (by omega)), fun q low high => ?_, fun ptr size used => ?_⟩
  · exact (flag.mem q (by omega)).trans (data q low high)
  · have inside := used.inside
    exact ⟨used, fun q low high => (flag.mem q (by omega)).trans ((keeps ptr size used).2 q low high)⟩

theorem take_tail (tail : Tail h arena stop prev p (b :: bs)) (fits : need ≤ b.size) (aligned : need % 16 = 0) :
    Tail (takeBlock h p need) arena stop prev p (cut ⟨b.size, false⟩ need ++ bs) ∧ Local h (takeBlock h p need) p stop ∧
      Keeps h (takeBlock h p need) (p + 32 + b.size) bs (p + 32 + b.size) bs := by
  have bound := tail.bound
  obtain ⟨tail, only, data, keeps⟩ := shrink_tail tail fits aligned
  obtain ⟨first, rest, _, _, cut_used⟩ := cut_eq b need false
  have ends := finish_cut (p := p) (b := ⟨b.size, false⟩) fits
  rw [cut_used] at tail ends ⊢
  have ends : finish (p + 32 + first.size) rest = p + 32 + b.size := ends
  have long : p + 32 + first.size ≤ p + 32 + b.size := ends ▸ le_finish
  obtain ⟨fixed, fixOnly, fixKeeps⟩ := fixNext_tail tail.room tail.above tail.seg.1 tail.seg.2 tail.stop_eq
  refine ⟨fixed, only.trans (fixOnly.widen (by omega) le_rfl), fun ptr size used => ?_⟩
  have later : InUse (p + 32 + first.size) (rest ++ bs) ptr size := inUse_append.mpr (.inr (ends.symm ▸ used))
  exact ⟨used, fun q low high => ((fixKeeps ptr size later).2 q low high).trans ((keeps ptr size used).2 q low high)⟩

/-- A block joined with the one behind it if that one is free. -/
def merge (b : Block) : List Block → List Block
  | [] => [b]
  | c :: later => if c.free then ⟨b.size + (32 + c.size), b.free⟩ :: later else b :: c :: later

theorem merge_eq (b : Block) (bs : List Block) : ∃ first rest, merge b bs = first :: rest ∧ first.free = b.free := by
  cases bs with
  | nil => exact ⟨b, [], rfl, rfl⟩
  | cons c later =>
    rw [merge]
    split
    · exact ⟨_, later, rfl, rfl⟩
    · exact ⟨b, c :: later, rfl, rfl⟩

theorem coalesce_tail (tail : Tail h arena stop prev p (b :: bs)) :
    Tail (mallocBlockCoalesceWithNext h p) arena stop prev p (merge b bs) ∧
      Local h (mallocBlockCoalesceWithNext h p) p stop ∧
      Keeps h (mallocBlockCoalesceWithNext h p) (p + 32 + b.size) bs p (merge b bs) := by
  have bound := tail.bound
  obtain ⟨room, above, ⟨head, later⟩, ends⟩ := tail
  have ends : finish (p + 32 + b.size) bs = stop := ends
  have even := head.aligned
  have same : Tail h arena stop prev p (b :: bs) ∧ Local h h p stop ∧ Keeps h h (p + 32 + b.size) bs p (b :: bs) :=
    ⟨⟨room, above, ⟨head, later⟩, ends⟩, ⟨rfl, rfl, fun _ _ => rfl⟩, fun _ _ used => ⟨.inr used, fun _ _ _ => rfl⟩⟩
  unfold mallocBlockCoalesceWithNext
  rw [mallocBlockNext_eq room above head]
  cases bs with
  | nil =>
    have ends : p + 32 + b.size = stop := ends
    rw [if_pos (by omega)]
    exact same
  | cons c cs =>
    obtain ⟨next, rest⟩ := later
    have long : p + 32 + b.size + 32 + c.size ≤ stop := ends ▸ le_finish
    have evenNext := next.aligned
    rw [if_neg (by omega)]
    dsimp only
    rw [next.magic_eq, next.free_eq, next.size_eq, head.size_eq, merge]
    cases free : c.free with
    | false =>
      rw [if_pos (.inr rfl), if_neg Bool.false_ne_true]
      exact same
    | true =>
      rw [if_neg (by simp), if_pos rfl]
      have sized : HeadAt (h.setSize p (b.size + (32 + c.size))) arena prev p ⟨b.size + (32 + c.size), b.free⟩ :=
        head.setSize (by omega) (by omega)
      have only : Local h (h.setSize p (b.size + (32 + c.size))) (p + 8) (p + 16) := store_local h (p + 8) 8 _
      have place : p + 32 + b.size + 32 + c.size = p + 32 + (b.size + (32 + c.size)) := by omega
      have restNow : Seg (h.setSize p (b.size + (32 + c.size))) arena c.size (p + 32 + (b.size + (32 + c.size))) cs :=
        place ▸ rest.congr fun q low _ => only.mem q (by omega)
      have endsNow : finish (p + 32 + (b.size + (32 + c.size))) cs = stop := place ▸ ends
      obtain ⟨fixed, fixOnly, keeps⟩ := fixNext_tail (room.congr only (by omega)) above sized restNow endsNow
      refine ⟨fixed, (only.widen (by omega) (by omega)).trans (fixOnly.widen (by omega) le_rfl), fun ptr size used => ?_⟩
      rcases used with ⟨used, _⟩ | used
      · rw [free] at used
        cases used
      · have inside := used.inside
        have moved : InUse (p + 32 + (b.size + (32 + c.size))) cs ptr size := place ▸ used
        exact ⟨.inr moved, fun q low high => ((keeps ptr size moved).2 q low high).trans (only.mem q (by omega))⟩

theorem Tail.drop (tail : Tail h arena stop prev p (xs ++ bs)) : Tail h arena stop (lastSize prev xs) (finish p xs) bs where
  room := tail.room
  above := tail.above.trans le_finish
  seg := (seg_append.mp tail.seg).2
  stop_eq := finish_append.symm.trans tail.stop_eq

theorem Tail.splice {cs : List Block} (tail : Tail h arena stop prev p (xs ++ bs))
    (later : Tail h' arena stop (lastSize prev xs) (finish p xs) cs) (only : Local h h' (finish p xs) stop) :
    Tail h' arena stop prev p (xs ++ cs) ∧ Keeps h h' p xs p (xs ++ cs) := by
  have low : p ≤ finish p xs := le_finish
  refine ⟨⟨later.room, tail.above, seg_append.mpr ⟨?_, later.seg⟩, finish_append.trans later.stop_eq⟩, fun ptr size used => ?_⟩
  · exact (seg_append.mp tail.seg).1.congr fun q _ high => only.mem q (.inl high)
  · have inside := used.inside
    exact ⟨inUse_append.mpr (.inl used), fun q _ high => only.mem q (.inl (by omega))⟩

theorem Keeps.trans {h'' : Heap} {p' p'' : Nat} {cs ds : List Block} (first : Keeps h h' p bs p' cs)
    (second : Keeps h' h'' p' cs p'' ds) : Keeps h h'' p bs p'' ds := by
  intro ptr size used
  obtain ⟨used', same⟩ := first ptr size used
  obtain ⟨used'', same'⟩ := second ptr size used'
  exact ⟨used'', fun q low high => (same' q low high).trans (same q low high)⟩

theorem fixNext_free (tail : Tail h arena stop prev p (b :: bs)) (free : b.free = true) :
    Tail (fixNext h p) arena stop prev p (b :: bs) ∧ Local h (fixNext h p) p stop ∧
      Keeps h (fixNext h p) p (b :: bs) p (b :: bs) := by
  obtain ⟨fixed, only, keeps⟩ := fixNext_tail tail.room tail.above tail.seg.1 tail.seg.2 tail.stop_eq
  refine ⟨fixed, only.widen (by omega) le_rfl, fun ptr size used => ?_⟩
  rcases used with ⟨used, _⟩ | used
  · rw [free] at used
    cases used
  · exact ⟨.inr (keeps ptr size used).1, (keeps ptr size used).2⟩

theorem mallocBlockPrev_eq (room : Room h arena stop) (above : arena + 16 ≤ p) (head : HeadAt h arena prev p b) :
    mallocBlockPrev h p = if prev = 0 then none else if p - 32 - prev < arena + 16 then none else some (p - 32 - prev) := by
  have real := room.real
  unfold mallocBlockPrev
  rw [head.arena_eq, head.prev_eq]
  by_cases zero : prev = 0
  · rw [if_pos zero, if_pos (.inr (.inr zero))]
  · rw [if_neg zero, if_neg (by omega)]
    rfl

theorem coalesceWithPrev_tail (tail : Tail h arena stop 0 (arena + 16) (xs ++ b :: bs)) (free : b.free = true) :
    ∃ cs, Tail (coalesceWithPrev h (finish (arena + 16) xs)) arena stop 0 (arena + 16) cs ∧
      Local h (coalesceWithPrev h (finish (arena + 16) xs)) (arena + 16) stop ∧
      Keeps h (coalesceWithPrev h (finish (arena + 16) xs)) (arena + 16) (xs ++ b :: bs) (arena + 16) cs := by
  have here := tail.drop
  have low : arena + 16 ≤ finish (arena + 16) xs := le_finish
  -- Without a free block before it, the block stays as it is.
  have alone : ∃ cs, Tail (fixNext h (finish (arena + 16) xs)) arena stop 0 (arena + 16) cs ∧
      Local h (fixNext h (finish (arena + 16) xs)) (arena + 16) stop ∧
      Keeps h (fixNext h (finish (arena + 16) xs)) (arena + 16) (xs ++ b :: bs) (arena + 16) cs := by
    obtain ⟨fixed, only, later⟩ := fixNext_free here free
    obtain ⟨whole, front⟩ := tail.splice fixed only
    refine ⟨_, whole, only.widen low le_rfl, fun ptr size used => ?_⟩
    rcases inUse_append.mp used with used | used
    · exact front ptr size used
    · exact ⟨inUse_append.mpr (.inr (later ptr size used).1), (later ptr size used).2⟩
  unfold coalesceWithPrev
  rw [mallocBlockPrev_eq here.room here.above here.seg.1]
  rcases List.eq_nil_or_concat' xs with rfl | ⟨ys, a, rfl⟩
  · exact alone
  have last : lastSize 0 (ys ++ [a]) = a.size := lastSize_append
  have place : finish (arena + 16) (ys ++ [a]) = finish (arena + 16) ys + 32 + a.size := finish_append
  have lowFront : arena + 16 ≤ finish (arena + 16) ys := le_finish
  rw [last]
  by_cases zero : a.size = 0
  · rw [if_pos zero]
    exact alone
  have prev_eq : finish (arena + 16) (ys ++ [a]) - 32 - a.size = finish (arena + 16) ys := by omega
  have whole : Tail h arena stop 0 (arena + 16) (ys ++ a :: b :: bs) := by
    rw [List.append_assoc] at tail
    exact tail
  have before := whole.drop
  rw [if_neg zero, prev_eq, if_neg (by omega)]
  dsimp only
  rw [before.seg.1.magic_eq, before.seg.1.free_eq]
  by_cases freeFront : a.free = true
  · rw [if_pos ⟨rfl, by rw [freeFront]; decide⟩]
    obtain ⟨joined, joinOnly, joinKeeps⟩ := coalesce_tail before
    rw [merge, if_pos free] at joined joinKeeps
    obtain ⟨fixed, fixOnly, fixKeeps⟩ := fixNext_free joined freeFront
    have only := joinOnly.trans fixOnly
    obtain ⟨all, front⟩ := whole.splice fixed only
    refine ⟨_, all, only.widen lowFront le_rfl, fun ptr size used => ?_⟩
    rw [List.append_assoc] at used
    rcases inUse_append.mp used with used | used
    · exact front ptr size used
    · rcases used with ⟨used, _⟩ | used
      · rw [freeFront] at used
        cases used
      · have later := joinKeeps.trans fixKeeps ptr size used
        exact ⟨inUse_append.mpr (.inr later.1), later.2⟩
  · rw [if_neg (by simp [freeFront])]
    exact alone

theorem free_tail (tail : Tail h arena stop 0 (arena + 16) (xs ++ b :: bs)) :
    ∃ cs, Tail (mallocBlockFreeLocked h (finish (arena + 16) xs)) arena stop 0 (arena + 16) cs ∧
      Local h (mallocBlockFreeLocked h (finish (arena + 16) xs)) (arena + 16) stop ∧
      Keeps h (mallocBlockFreeLocked h (finish (arena + 16) xs)) (arena + 16) xs (arena + 16) cs ∧
      Keeps h (mallocBlockFreeLocked h (finish (arena + 16) xs)) (finish (arena + 16) xs + 32 + b.size) bs (arena + 16) cs := by
  have here := tail.drop
  have low : arena + 16 ≤ finish (arena + 16) xs := le_finish
  have bound := here.bound
  unfold mallocBlockFreeLocked
  rw [if_neg (by rw [here.seg.1.magic_eq]; omega)]
  obtain ⟨marked, flagOnly⟩ := setFree_tail here true
  obtain ⟨merged, mergeOnly, mergeKeeps⟩ := coalesce_tail marked
  rw [if_pos rfl] at flagOnly marked merged mergeOnly mergeKeeps
  have flagKeeps : Keeps h (h.setFree (finish (arena + 16) xs) 1) (finish (arena + 16) xs + 32 + b.size) bs
      (finish (arena + 16) xs + 32 + b.size) bs := fun ptr size used =>
    have inside := used.inside
    ⟨used, fun q _ _ => flagOnly.mem q (by omega)⟩
  have only := (flagOnly.widen le_rfl (by omega)).trans mergeOnly
  obtain ⟨whole, front⟩ := tail.splice merged only
  obtain ⟨first, rest, merge_is, free⟩ := merge_eq ⟨b.size, true⟩ bs
  rw [merge_is] at whole front mergeKeeps
  obtain ⟨cs, joined, joinOnly, joinKeeps⟩ := coalesceWithPrev_tail whole free
  have merging : Keeps (h.setFree (finish (arena + 16) xs) 1) _ (finish (arena + 16) xs + 32 + b.size) bs (arena + 16)
      (xs ++ first :: rest) := fun ptr size used =>
    ⟨inUse_append.mpr (.inr (mergeKeeps ptr size used).1), (mergeKeeps ptr size used).2⟩
  exact ⟨cs, joined, (only.widen low le_rfl).trans joinOnly, front.trans fun ptr size used => joinKeeps ptr size used,
    (flagKeeps.trans merging).trans joinKeeps⟩

theorem Tail.later (tail : Tail h arena stop prev p (b :: bs)) : Tail h arena stop b.size (p + 32 + b.size) bs where
  room := tail.room
  above := tail.above.trans (by omega)
  seg := tail.seg.2
  stop_eq := tail.stop_eq

theorem searchBlocks_spec (need : Nat) (tail : Tail h arena stop prev p bs) :
    searchBlocks h stop need p = .exhausted ∧ (∀ b ∈ bs, ¬ (b.free ∧ need ≤ b.size)) ∨
      ∃ xs b ys, bs = xs ++ b :: ys ∧ b.free ∧ need ≤ b.size ∧ searchBlocks h stop need p = .found (finish p xs) := by
  induction bs generalizing prev p with
  | nil =>
    have ends : p = stop := tail.stop_eq
    rw [searchBlocks, if_neg (by omega)]
    exact .inl ⟨rfl, List.forall_mem_nil _⟩
  | cons b bs ih =>
    have bound := tail.bound
    have head := tail.seg.1
    rw [searchBlocks, if_pos (by omega), head.magic_eq, head.free_eq, head.size_eq, if_neg (not_not.mpr rfl)]
    by_cases fits : b.free ∧ need ≤ b.size
    · rw [if_neg (by rw [fits.1]; simpa using fits.2)]
      exact .inr ⟨[], b, bs, rfl, fits.1, fits.2, rfl⟩
    have skips : (if b.free then 1 else 0) = 0 ∨ b.size < need := by
      by_cases free : b.free
      · exact .inr (Nat.lt_of_not_le fun large => fits ⟨free, large⟩)
      · exact .inl (if_neg free)
    rw [if_pos skips]
    have follows := mallocBlockNext_eq tail.room tail.above head
    have later := tail.later
    cases bs with
    | nil =>
      have ends : p + 32 + b.size = stop := tail.stop_eq
      rw [if_pos (by omega)] at follows
      split
      · rename_i next
        rw [follows] at next
        cases next
      · exact .inl ⟨rfl, List.forall_mem_singleton.mpr fits⟩
    | cons c cs =>
      have boundLater := later.bound
      rw [if_neg (by omega)] at follows
      split
      · rename_i next
        obtain rfl := Option.some.inj (follows.symm.trans next)
        rcases ih later with ⟨none, small⟩ | ⟨xs, found, ys, split, free, large, result⟩
        · exact .inl ⟨none, List.forall_mem_cons.mpr ⟨fits, small⟩⟩
        · exact .inr ⟨b :: xs, found, ys, by rw [split]; rfl, free, large, result⟩
      · rename_i none
        rw [follows] at none
        cases none

end

/-- An arena, with what the memory is given for. -/
structure Arena where
  base : Nat
  len : Nat
  blocks : List Block

/-- The blocks of an arena tile it exactly. -/
structure ArenaAt (h : Heap) (a : Arena) : Prop where
  tail : Tail h a.base (a.base + a.len) 0 (a.base + 16) a.blocks
  page : a.base % 16 = 0

def Arena.Apart (a b : Arena) : Prop := a.base + a.len ≤ b.base ∨ b.base + b.len ≤ a.base

/-- The heap invariant. -/
structure Represents (h : Heap) (arenas : List Arena) : Prop where
  listed : h.arenas = arenas.map Arena.base
  mapped : h.maps = arenas.map fun a => (a.base, a.len)
  each : ∀ a ∈ arenas, ArenaAt h a
  apart : arenas.Pairwise Arena.Apart

/-- A block of some arena is in use. -/
def Live (arenas : List Arena) (ptr size : Nat) : Prop := ∃ a ∈ arenas, InUse (a.base + 16) a.blocks ptr size

/-- Blocks that are in use stay, with their data. -/
def KeepsLive (h h' : Heap) (arenas arenas' : List Arena) : Prop :=
  ∀ ptr size, Live arenas ptr size → Live arenas' ptr size ∧ ∀ q, ptr ≤ q → q < ptr + size → h'.mem q = h.mem q

section

variable {h h' : Heap} {need : Nat} {a : Arena} {as ls rs : List Arena} {cs : List Block}

theorem Tail.congr {arena stop prev p : Nat} {bs : List Block} (tail : Tail h arena stop prev p bs)
    (same : ∀ q, arena ≤ q → q < stop → h'.mem q = h.mem q) : Tail h' arena stop prev p bs := by
  have low : p ≤ finish p bs := le_finish
  have above := tail.above
  have ends := tail.stop_eq
  refine ⟨⟨tail.room.real, ?_, tail.room.top⟩, above, tail.seg.congr fun q low high => same q (by omega) (by omega), ends⟩
  have field : h'.mapLen arena = h.mapLen arena := readLe_congr fun q low high => same q (by omega) (by omega)
  rw [mallocArenaEnd, field]
  exact tail.room.end_eq

theorem InUse.bounds {ptr size : Nat} (at' : ArenaAt h a) (used : InUse (a.base + 16) a.blocks ptr size) :
    a.base + 48 ≤ ptr ∧ ptr + size ≤ a.base + a.len ∧ a.base + a.len ≤ 2 ^ 64 := by
  have inside := used.inside
  have ends := at'.tail.stop_eq
  have top := at'.tail.room.top
  omega

theorem Represents.update (rep : Represents h (ls ++ a :: rs))
    (tail : Tail h' a.base (a.base + a.len) 0 (a.base + 16) cs) (only : Local h h' (a.base + 16) (a.base + a.len)) :
    Represents h' (ls ++ ⟨a.base, a.len, cs⟩ :: rs) := by
  have member : a ∈ ls ++ a :: rs := List.mem_append_right _ List.mem_cons_self
  have apart := rep.apart
  rw [List.pairwise_append, List.pairwise_cons] at apart
  obtain ⟨left, ⟨right, rest⟩, across⟩ := apart
  have other : ∀ c ∈ ls ++ a :: rs, a.Apart c ∨ c.Apart a → ArenaAt h' c := by
    intro c inside away
    have there := rep.each c inside
    refine ⟨there.tail.congr fun q low high => only.mem q ?_, there.page⟩
    unfold Arena.Apart at away
    omega
  constructor
  · rw [only.arenas, rep.listed]
    simp
  · rw [only.maps, rep.mapped]
    simp
  · intro c inside
    rcases List.mem_append.mp inside with front | inside
    · exact other c (List.mem_append_left _ front) (.inr (across c front a List.mem_cons_self))
    · rcases List.mem_cons.mp inside with rfl | back
      · exact ⟨tail, (rep.each a member).page⟩
      · exact other c (List.mem_append_right _ (List.mem_cons_of_mem _ back)) (.inl (right c back))
  · rw [List.pairwise_append, List.pairwise_cons]
    refine ⟨left, ⟨right, rest⟩, fun c front d later => ?_⟩
    rcases List.mem_cons.mp later with rfl | back
    · exact across c front a List.mem_cons_self
    · exact across c front d (List.mem_cons_of_mem _ back)

theorem Represents.keepsOne {ptr size : Nat} (rep : Represents h (ls ++ a :: rs)) (only : Local h h' (a.base + 16) (a.base + a.len))
    (live : Live (ls ++ a :: rs) ptr size)
    (kept : InUse (a.base + 16) a.blocks ptr size →
      InUse (a.base + 16) cs ptr size ∧ ∀ q, ptr ≤ q → q < ptr + size → h'.mem q = h.mem q) :
    Live (ls ++ ⟨a.base, a.len, cs⟩ :: rs) ptr size ∧ ∀ q, ptr ≤ q → q < ptr + size → h'.mem q = h.mem q := by
  have apart := rep.apart
  rw [List.pairwise_append, List.pairwise_cons] at apart
  obtain ⟨left, ⟨right, rest⟩, across⟩ := apart
  obtain ⟨c, inside, used⟩ := live
  have bounds := used.bounds (rep.each c inside)
  have other : a.Apart c ∨ c.Apart a → ∀ q, ptr ≤ q → q < ptr + size → h'.mem q = h.mem q := by
    intro away q low high
    unfold Arena.Apart at away
    exact only.mem q (by omega)
  rcases List.mem_append.mp inside with front | inside
  · exact ⟨⟨c, List.mem_append_left _ front, used⟩, other (.inr (across c front a List.mem_cons_self))⟩
  · rcases List.mem_cons.mp inside with rfl | back
    · exact ⟨⟨_, List.mem_append_right _ List.mem_cons_self, (kept used).1⟩, (kept used).2⟩
    · exact ⟨⟨c, List.mem_append_right _ (List.mem_cons_of_mem _ back), used⟩, other (.inl (right c back))⟩

theorem Represents.keepsLive (rep : Represents h (ls ++ a :: rs)) (only : Local h h' (a.base + 16) (a.base + a.len))
    (keeps : Keeps h h' (a.base + 16) a.blocks (a.base + 16) cs) :
    KeepsLive h h' (ls ++ a :: rs) (ls ++ ⟨a.base, a.len, cs⟩ :: rs) := fun ptr size live =>
  rep.keepsOne only live (keeps ptr size)

theorem searchArenas_spec (need : Nat) (each : ∀ a ∈ as, ArenaAt h a) :
    searchArenas h need (as.map Arena.base) = .exhausted ∧ (∀ a ∈ as, ∀ b ∈ a.blocks, ¬ (b.free ∧ need ≤ b.size)) ∨
      ∃ ls a rs xs b ys, as = ls ++ a :: rs ∧ a.blocks = xs ++ b :: ys ∧ b.free ∧ need ≤ b.size ∧
        searchArenas h need (as.map Arena.base) = .found (finish (a.base + 16) xs) := by
  induction as with
  | nil => exact .inl ⟨rfl, List.forall_mem_nil _⟩
  | cons a as ih =>
    have here := (each a List.mem_cons_self).tail
    rw [List.map_cons, searchArenas, here.room.end_eq]
    rcases searchBlocks_spec need here with ⟨none, small⟩ | ⟨xs, b, ys, split, free, large, result⟩
    · rw [show mallocArenaFirst a.base = a.base + 16 from rfl, none]
      rcases ih fun c later => each c (List.mem_cons_of_mem _ later) with
        ⟨none, rest⟩ | ⟨ls, c, rs, xs, b, ys, split, blocks, free, large, result⟩
      · exact .inl ⟨none, List.forall_mem_cons.mpr ⟨small, rest⟩⟩
      · exact .inr ⟨a :: ls, c, rs, xs, b, ys, by rw [split]; rfl, blocks, free, large, result⟩
    · rw [show mallocArenaFirst a.base = a.base + 16 from rfl, result]
      exact .inr ⟨[], a, as, xs, b, ys, rfl, split, free, large, rfl⟩

/-- The blocks that a block becomes when it is handed out, and the size of the first. -/
def hand (b : Block) (need : Nat) : List Block := if b.size < need then [⟨b.size, false⟩] else cut ⟨b.size, false⟩ need

def handed (b : Block) (need : Nat) : Nat := if b.size < need ∨ b.size - need ≤ 32 + mallocAlign then b.size else need

theorem hand_eq (b : Block) (need : Nat) : ∃ rest, hand b need = ⟨handed b need, false⟩ :: rest := by
  unfold hand handed
  by_cases short : b.size < need
  · rw [if_pos short, if_pos (.inl short)]
    exact ⟨[], rfl⟩
  rw [if_neg short, cut]
  by_cases small : b.size - need ≤ 32 + mallocAlign
  · rw [if_pos small, if_pos (.inr small)]
    exact ⟨[], rfl⟩
  · rw [if_neg small, if_neg (not_or.mpr ⟨short, small⟩)]
    exact ⟨_, rfl⟩

theorem hand_tail {arena stop prev p : Nat} {b : Block} {bs : List Block} (tail : Tail h arena stop prev p (b :: bs))
    (aligned : need % 16 = 0) :
    Tail (takeBlock h p need) arena stop prev p (hand b need ++ bs) ∧ Local h (takeBlock h p need) p stop ∧
      Keeps h (takeBlock h p need) (p + 32 + b.size) bs (p + 32 + b.size) bs ∧
      finish p (hand b need) = p + 32 + b.size := by
  unfold hand
  by_cases short : b.size < need
  · rw [if_pos short]
    have whole : mallocBlockSplit h p need = h := by
      rw [mallocBlockSplit, if_pos (.inr (by rwa [tail.seg.1.size_eq]))]
    obtain ⟨marked, flag⟩ := setFree_tail tail false
    obtain ⟨fixed, only, keeps⟩ := fixNext_tail marked.room marked.above marked.seg.1 marked.seg.2 marked.stop_eq
    have bound := tail.bound
    rw [takeBlock, whole]
    refine ⟨fixed, (flag.widen le_rfl (by omega)).trans (only.widen (by omega) le_rfl), fun ptr size used => ?_, rfl⟩
    have inside := used.inside
    exact ⟨used, fun q low high => ((keeps ptr size used).2 q low high).trans (flag.mem q (by omega))⟩
  · rw [if_neg short]
    obtain ⟨taken, only, keeps⟩ := take_tail tail (Nat.le_of_not_lt short) aligned
    exact ⟨taken, only, keeps, finish_cut (b := ⟨b.size, false⟩) (Nat.le_of_not_lt short)⟩

theorem takeBlock_spec {xs ys : List Block} {b : Block} (rep : Represents h (ls ++ a :: rs)) (blocks : a.blocks = xs ++ b :: ys)
    (free : b.free) (aligned : need % 16 = 0) :
    ∃ as, Represents (takeBlock h (finish (a.base + 16) xs) need) as ∧
      KeepsLive h (takeBlock h (finish (a.base + 16) xs) need) (ls ++ a :: rs) as ∧
      Live as (finish (a.base + 16) xs + 32) (handed b need) ∧
      ∀ ptr size, Live (ls ++ a :: rs) ptr size → ptr ≠ finish (a.base + 16) xs + 32 := by
  have member : a ∈ ls ++ a :: rs := List.mem_append_right _ List.mem_cons_self
  have there := rep.each a member
  have tail := there.tail
  rw [blocks] at tail
  have low : a.base + 16 ≤ finish (a.base + 16) xs := le_finish
  have bound := tail.drop.bound
  obtain ⟨taken, only, keeps, ends⟩ := hand_tail tail.drop aligned
  obtain ⟨whole, front⟩ := tail.splice taken only
  have onlyArena := only.widen low le_rfl
  obtain ⟨rest, hand_is⟩ := hand_eq b need
  have kept : Keeps h (takeBlock h (finish (a.base + 16) xs) need) (a.base + 16) a.blocks (a.base + 16)
      (xs ++ (hand b need ++ ys)) := by
    intro ptr size used
    rw [blocks] at used
    rcases inUse_append.mp used with used | ⟨used, _⟩ | used
    · exact front ptr size used
    · rw [free] at used
      cases used
    · refine ⟨inUse_append.mpr (.inr (inUse_append.mpr (.inr ?_))), (keeps ptr size used).2⟩
      rwa [ends]
  refine ⟨_, rep.update whole onlyArena, rep.keepsLive onlyArena kept, ?_, ?_⟩
  · refine ⟨_, List.mem_append_right _ List.mem_cons_self, inUse_append.mpr (.inr ?_)⟩
    rw [hand_is]
    exact .inl ⟨rfl, rfl, rfl⟩
  · rintro ptr size ⟨c, inside, used⟩ same
    have bounds := used.bounds (rep.each c inside)
    have apart := rep.apart
    rw [List.pairwise_append, List.pairwise_cons] at apart
    obtain ⟨left, ⟨right, _⟩, across⟩ := apart
    have away : a.Apart c ∨ c.Apart a → False := by
      unfold Arena.Apart
      omega
    rcases List.mem_append.mp inside with front | inside
    · exact away (.inr (across c front a List.mem_cons_self))
    · rcases List.mem_cons.mp inside with rfl | back
      · rw [blocks] at used
        rcases inUse_append.mp used with used | ⟨used, _⟩ | used
        · have inside := used.inside
          omega
        · rw [free] at used
          cases used
        · have inside := used.inside
          omega
      · exact away (.inl (right c back))

/-- What the kernel promises of the memory it maps: it is aligned, not empty, and new. -/
structure Fresh (maps : List (Nat × Nat)) (mmap : Nat → Option Nat) : Prop where
  some_len : ∀ len base, mmap len = some base → 0 < len
  page : ∀ len base, mmap len = some base → base % 4096 = 0 ∧ base ≠ 0
  top : ∀ len base, mmap len = some base → base + len ≤ 2 ^ 64
  apart : ∀ len base, mmap len = some base → ∀ m ∈ maps, m.1 + m.2 ≤ base ∨ base + len ≤ m.1

/-- The length that is asked for an arena. -/
def arenaLen (need : Nat) : Nat :=
  mallocAlignUp (if (16 + 32 + need) % 2 ^ 64 < mallocArenaChunk then mallocArenaChunk else (16 + 32 + need) % 2 ^ 64) mallocPage

theorem mallocAlignUp_page {value : Nat} (fits : value < 2 ^ 64) (some_len : 0 < mallocAlignUp value 4096) :
    value ≤ mallocAlignUp value 4096 ∧ mallocAlignUp value 4096 % 4096 = 0 := by
  unfold mallocAlignUp at *
  dsimp only at *
  omega

theorem arenaLen_spec (need : Nat) (some_len : 0 < arenaLen need) :
    65536 ≤ arenaLen need ∧ arenaLen need % 4096 = 0 ∧ (16 + 32 + need) % 2 ^ 64 ≤ arenaLen need := by
  unfold arenaLen mallocArenaChunk at *
  have fits : (16 + 32 + need) % 2 ^ 64 < 2 ^ 64 := Nat.mod_lt _ (by decide)
  split at some_len
  · rename_i small
    rw [if_pos small]
    have aligned := mallocAlignUp_page (by decide) some_len
    change 65536 ≤ mallocAlignUp 65536 4096 ∧ mallocAlignUp 65536 4096 % 4096 = 0 ∧ _ ≤ mallocAlignUp 65536 4096
    omega
  · rename_i large
    rw [if_neg large]
    have aligned := mallocAlignUp_page fits some_len
    exact ⟨(Nat.le_of_not_lt large).trans aligned.1, aligned.2, aligned.1⟩

theorem mallocArenaAlloc_none {mmap : Nat → Option Nat} (refused : mmap (arenaLen need) = none) :
    mallocArenaAlloc h need mmap = ({ h with errno := enomem }, none) := by
  unfold arenaLen at refused
  unfold mallocArenaAlloc
  dsimp only
  rw [refused]

/-- A new arena is one free block. -/
theorem mallocArenaAlloc_some {mmap : Nat → Option Nat} {base : Nat} (rep : Represents h as) (fresh : Fresh h.maps mmap)
    (given : mmap (arenaLen need) = some base) :
    (mallocArenaAlloc h need mmap).2 = some (base + 16) ∧
      (mallocArenaAlloc h need mmap).1.maps = (base, arenaLen need) :: h.maps ∧
      Represents (mallocArenaAlloc h need mmap).1 (⟨base, arenaLen need, [⟨arenaLen need - 48, true⟩]⟩ :: as) ∧
      KeepsLive h (mallocArenaAlloc h need mmap).1 as (⟨base, arenaLen need, [⟨arenaLen need - 48, true⟩]⟩ :: as) := by
  have some_len := fresh.some_len _ _ given
  obtain ⟨large, even, _⟩ := arenaLen_spec need some_len
  obtain ⟨page, real⟩ := fresh.page _ _ given
  have top := fresh.top _ _ given
  have apart := fresh.apart _ _ given
  have unfolded : mallocArenaAlloc h need mmap =
      (mallocBlockInit { Heap.store { h with mem := fun p => if base ≤ p ∧ p < base + arenaLen need then 0 else h.mem p }
        (base + 8) 8 (arenaLen need) with arenas := base :: h.arenas, maps := (base, arenaLen need) :: h.maps }
        (base + 16) base (arenaLen need - 16 - 32) 0 1, some (base + 16)) := by
    have given' := given
    unfold arenaLen at given'
    unfold mallocArenaAlloc
    dsimp only
    rw [given']
    rfl
  rw [unfolded]
  dsimp only
  generalize listed_eq : ({ Heap.store { h with mem := fun p => if base ≤ p ∧ p < base + arenaLen need then 0 else h.mem p }
        (base + 8) 8 (arenaLen need) with arenas := base :: h.arenas, maps := (base, arenaLen need) :: h.maps } : Heap) = listed
  have listed_mem : ∀ q, q < base ∨ base + arenaLen need ≤ q → listed.mem q = h.mem q := by
    intro q outside
    rw [← listed_eq]
    exact (writeLe_outside (by omega)).trans (if_neg (by omega))
  have len_eq : listed.mapLen base = arenaLen need := by
    rw [← listed_eq]
    exact (readLe_writeLe le_rfl).trans (Nat.mod_eq_of_lt (by omega))
  have arenas_eq : listed.arenas = base :: h.arenas := by rw [← listed_eq]
  have maps_eq : listed.maps = (base, arenaLen need) :: h.maps := by rw [← listed_eq]
  have size_eq : arenaLen need - 16 - 32 = arenaLen need - 48 := by omega
  rw [size_eq]
  have only : Local listed (mallocBlockInit listed (base + 16) base (arenaLen need - 48) 0 1) (base + 16) (base + 16 + 32) := init_local
  have head : HeadAt (mallocBlockInit listed (base + 16) base (arenaLen need - 48) 0 1) base 0 (base + 16) ⟨arenaLen need - 48, true⟩ :=
    headAt_init (by omega) (by omega) (by decide) (by omega)
  have outside : ∀ q, q < base ∨ base + arenaLen need ≤ q →
      (mallocBlockInit listed (base + 16) base (arenaLen need - 48) 0 1).mem q = h.mem q := fun q out =>
    (only.mem q (by omega)).trans (listed_mem q out)
  have mapLen_eq : (mallocBlockInit listed (base + 16) base (arenaLen need - 48) 0 1).mapLen base = arenaLen need :=
    (readLe_congr fun q low high => only.mem q (by omega)).trans len_eq
  have others : ∀ b ∈ as, b.base + b.len ≤ base ∨ base + arenaLen need ≤ b.base := by
    intro b inside
    refine apart (b.base, b.len) ?_
    rw [rep.mapped]
    exact List.mem_map_of_mem inside
  refine ⟨rfl, only.maps.trans maps_eq, ⟨?_, ?_, ?_, ?_⟩, ?_⟩
  · rw [only.arenas, arenas_eq, rep.listed]
    rfl
  · rw [only.maps, maps_eq, rep.mapped]
    rfl
  · refine List.forall_mem_cons.mpr ⟨⟨⟨⟨real, by rw [mallocArenaEnd, mapLen_eq], top⟩, le_rfl, ⟨head, trivial⟩, ?_⟩, ?_⟩, fun b inside => ?_⟩
    · simp only [finish]
      omega
    · change base % 16 = 0
      omega
    · have there := rep.each b inside
      have away := others b inside
      exact ⟨there.tail.congr fun q low high => outside q (by omega), there.page⟩
  · refine List.pairwise_cons.mpr ⟨fun b inside => ?_, rep.apart⟩
    have away := others b inside
    unfold Arena.Apart
    dsimp only
    omega
  · rintro ptr size ⟨b, inside, used⟩
    have bounds := used.bounds (rep.each b inside)
    have away := others b inside
    exact ⟨⟨b, List.mem_cons_of_mem _ inside, used⟩, fun q low high => outside q (by omega)⟩

/-- What a request is rounded up to. -/
def needOf (size : Nat) : Nat := mallocAlignUp (if size = 0 then 1 else size) mallocAlign

theorem needOf_spec {size : Nat} (fits : size < 2 ^ 64) :
    needOf size % 16 = 0 ∧ needOf size < 2 ^ 64 ∧ (2 ^ 64 - 16 < size → needOf size = 0) ∧
      (size ≤ 2 ^ 64 - 16 → size ≤ needOf size) ∧ (size ≤ 2 ^ 64 - 64 → needOf size ≤ 2 ^ 64 - 64) := by
  unfold needOf mallocAlignUp mallocAlign
  dsimp only
  split <;> omega

/-- What a call that makes a block does to the heap. -/
structure Made (h h' : Heap) (as : List Arena) (ptr got : Nat) (as' : List Arena) : Prop where
  rep : Represents h' as'
  keeps : KeepsLive h h' as as'
  live : Live as' ptr got
  other : ∀ old size, Live as old size → old ≠ ptr

/-- No block is free and large enough. -/
def NoRoom (as : List Arena) (need : Nat) : Prop := ∀ a ∈ as, ∀ b ∈ a.blocks, ¬ (b.free ∧ need ≤ b.size)

theorem madeOfArena {mmap : Nat → Option Nat} {base : Nat} (rep : Represents h as) (fresh : Fresh h.maps mmap)
    (given : mmap (arenaLen need) = some base) (aligned : need % 16 = 0) :
    ∃ as', Made h (takeBlock (mallocArenaAlloc h need mmap).1 (base + 16) need) as (base + 48)
      (handed ⟨arenaLen need - 48, true⟩ need) as' := by
  obtain ⟨_, _, made, kept⟩ := mallocArenaAlloc_some rep fresh given
  generalize (mallocArenaAlloc h need mmap).1 = grown at made kept ⊢
  generalize arena_eq : (⟨base, arenaLen need, [⟨arenaLen need - 48, true⟩]⟩ : Arena) = arena at made kept
  have base_eq : arena.base = base := by rw [← arena_eq]
  have blocks : arena.blocks = [] ++ ⟨arenaLen need - 48, true⟩ :: [] := by rw [← arena_eq, List.nil_append]
  have front : Represents grown ([] ++ arena :: as) := made
  obtain ⟨as', taken, keeps, live, other⟩ := takeBlock_spec front blocks rfl aligned
  rw [show finish (arena.base + 16) [] = base + 16 by rw [base_eq]; rfl] at taken keeps live other
  rw [List.nil_append] at keeps other
  refine ⟨as', taken, fun ptr size used => ?_, live, fun old size used => other old size (kept old size used).1⟩
  obtain ⟨used', same⟩ := kept ptr size used
  obtain ⟨used'', same'⟩ := keeps ptr size used'
  exact ⟨used'', fun q low high => (same' q low high).trans (same q low high)⟩

/-- The largest size that every call treats well: a longer one is rounded up past the end of the numbers. -/
def sizeTop : Nat := 2 ^ 64 - 64

theorem handed_ge {b : Block} (large : need ≤ b.size) : need ≤ handed b need := by
  unfold handed
  split
  · exact large
  · exact le_rfl

theorem mallocLocked_spec {size : Nat} {mmap : Nat → Option Nat} (rep : Represents h as) (fresh : Fresh h.maps mmap)
    (fits : size < 2 ^ 64) :
    (mmap (arenaLen (needOf size)) = none ∧ NoRoom as (needOf size)) ∧
        mallocLocked h size mmap = ({ h with errno := enomem }, none) ∨
      ¬ (mmap (arenaLen (needOf size)) = none ∧ NoRoom as (needOf size)) ∧
        ∃ h' ptr got as', mallocLocked h size mmap = (h', some ptr) ∧ Made h h' as ptr got as' ∧ (size ≤ sizeTop → size ≤ got) := by
  obtain ⟨aligned, _, _, covers, bounded⟩ := needOf_spec fits
  have enough : ∀ got, needOf size ≤ got → size ≤ sizeTop → size ≤ got := fun got large small =>
    (covers (small.trans (by decide))).trans large
  have unfolded : mallocLocked h size mmap = match searchArenas h (needOf size) (as.map Arena.base) with
      | .corrupt => (h, none)
      | .found block => (takeBlock h block (needOf size), some (block + 32))
      | .exhausted =>
        match mallocArenaAlloc h (needOf size) mmap with
        | (h, none) => (h, none)
        | (h, some block) => (takeBlock h block (needOf size), some (block + 32)) := by
    rw [← rep.listed]
    rfl
  rcases searchArenas_spec (needOf size) rep.each with ⟨none, small⟩ | ⟨ls, a, rs, xs, b, ys, rfl, blocks, free, large, result⟩
  · rw [none] at unfolded
    rcases given : mmap (arenaLen (needOf size)) with _ | base
    · rw [mallocArenaAlloc_none given] at unfolded
      exact .inl ⟨⟨rfl, small⟩, unfolded⟩
    · obtain ⟨as', made⟩ := madeOfArena rep fresh given aligned
      have found := (mallocArenaAlloc_some rep fresh given).1
      have room := arenaLen_spec (needOf size) (fresh.some_len _ _ given)
      generalize mallocArenaAlloc h (needOf size) mmap = grown at unfolded made found
      obtain ⟨grown, place⟩ := grown
      obtain rfl : place = some (base + 16) := found
      refine .inr ⟨fun refused => Option.some_ne_none _ refused.1, _, _, _, as', unfolded, made, fun small => ?_⟩
      refine enough _ (handed_ge ?_) small
      have := bounded small
      dsimp only
      omega
  · rw [result] at unfolded
    obtain ⟨as', taken, keeps, live, other⟩ := takeBlock_spec rep blocks free aligned
    refine .inr ⟨fun refused => refused.2 a (List.mem_append_right _ List.mem_cons_self) b ?_ ⟨free, large⟩,
      _, _, _, as', unfolded, ⟨taken, keeps, live, other⟩, enough _ (handed_ge large)⟩
    rw [blocks]
    exact List.mem_append_right _ List.mem_cons_self

end

end Enlil.Malloc
