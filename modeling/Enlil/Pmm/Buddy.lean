import Enlil.Lib.AlignedBlock

/-! The buddy page allocator, as `kernel/pmm.c` computes it. -/

namespace Enlil.Pmm

open AlignedBlock

/-- Bytes in one physical page. -/
def pageSize : Nat := 4096

/-- First managed physical address. -/
def pmmBase : Nat := 0x40000000

/-- First physical address past the managed range. -/
def pmmEnd : Nat := 0x60000000

/-- Number of managed pages. -/
def numPages : Nat := (pmmEnd - pmmBase) / pageSize

/-- Number of block orders, the largest block being `2 ^ (maxOrder - 1)` pages. -/
def maxOrder : Nat := 11

/-- The page index of a managed physical address. -/
def paToIdx (pa : Nat) : Nat := (pa - pmmBase) / pageSize

/-- The physical address of a page index. -/
def idxToPa (idx : Nat) : Nat := pmmBase + idx * pageSize

@[simp] theorem paToIdx_idxToPa (idx : Nat) : paToIdx (idxToPa idx) = idx := by
  unfold paToIdx idxToPa
  rw [Nat.add_sub_cancel_left]
  exact Nat.mul_div_cancel idx (by decide)

/-- An address with its offset inside the page cleared. -/
def pageMask (pa : Nat) : Nat := pa / pageSize * pageSize

/-- The page index of an address, which every call that takes an address computes first. -/
def pageOf (pa : Nat) : Nat := paToIdx (pageMask pa)

/-- The tag kept for each physical page. -/
inductive PageState where
  | free
  | alloc
  | reserved
  | slab
  deriving DecidableEq, Repr

/-- The ways in which a call does not come back to its caller. -/
inductive Halt where
  /-- A message on the serial line, then an endless wait. -/
  | panic (message : String)
  /-- Unlinking a node that is on no list follows whatever bytes the page holds. -/
  | strayUnlink
  deriving DecidableEq, Repr

/--
The allocator's static data.

A node of a free list lives in the first bytes of its block, so a list is kept as the page indices of its blocks, first node first.
-/
structure Buddy where
  pageState : Nat → PageState
  pageOrd : Nat → UInt8
  pageRefs : Nat → UInt16
  buddySent : Nat → List Nat
  buddyCount : Nat → UInt32
  totalFreePages : UInt32

/-- Zero-initialised static data with the sentinels closed on themselves. -/
def Buddy.empty : Buddy where
  pageState := fun _ => .free
  pageOrd := fun _ => 0
  pageRefs := fun _ => 0
  buddySent := fun _ => []
  buddyCount := fun _ => 0
  totalFreePages := 0

/-- Pages of a block of the given order, as the counter is updated with them. -/
def pagesOf (order : Nat) : UInt32 := UInt32.ofNat (1 <<< order)

/-- Tags the block's first page and pushes its node in front of the list of its order. -/
def buddyAddBlock (s : Buddy) (idx order : Nat) : Buddy :=
  { s with
    pageState := Function.update s.pageState idx .free
    pageOrd := Function.update s.pageOrd idx (UInt8.ofNat order)
    buddySent := Function.update s.buddySent order (idx :: s.buddySent order)
    buddyCount := Function.update s.buddyCount order (s.buddyCount order + 1)
    totalFreePages := s.totalFreePages + pagesOf order }

/-- Whether a node is linked in some free list. -/
def Buddy.linked (s : Buddy) (idx : Nat) : Bool :=
  (List.range maxOrder).any fun order => (s.buddySent order).contains idx

/-- Unlinks a node from the list it is on, whichever that is. -/
def listRemove (s : Buddy) (idx : Nat) : Except Halt Buddy :=
  -- The neighbours are found through the node, so the caller's order plays no part.
  if s.linked idx then
    .ok { s with buddySent := fun order => (s.buddySent order).erase idx }
  else .error .strayUnlink

/-- Takes a given block off its free list and tags it as allocated. -/
def buddyRemoveBlock (s : Buddy) (idx order : Nat) : Except Halt Buddy := do
  let s ← listRemove s idx
  return { s with
    buddyCount := Function.update s.buddyCount order (s.buddyCount order - 1)
    totalFreePages := s.totalFreePages - pagesOf order
    pageState := Function.update s.pageState idx .alloc
    pageOrd := Function.update s.pageOrd idx 0xFF }

/-- The smallest order from `order` on whose list is not empty, `maxOrder` if there is none. -/
def findOrder (s : Buddy) (order : Nat) : Nat → Nat
  | 0 => order
  | fuel + 1 =>
    if (s.buddySent order).isEmpty then findOrder s (order + 1) fuel else order

/-- Unlinks the first block of an order, with its counters. -/
def popBlock (s : Buddy) (found : Nat) : Nat × Buddy :=
  ((s.buddySent found).headD 0,
    { s with
      buddySent := Function.update s.buddySent found (s.buddySent found).tail
      buddyCount := Function.update s.buddyCount found (s.buddyCount found - 1)
      totalFreePages := s.totalFreePages - pagesOf found })

/-- Halves a block down to an order, giving each upper half back, for `steps` orders. -/
def splitBlock (s : Buddy) (idx order : Nat) : Nat → Buddy
  | 0 => s
  | steps + 1 =>
    -- The lower half stays in hand, so the base never moves.
    splitBlock (buddyAddBlock s (idx + 2 ^ (order + steps)) (order + steps)) idx order steps

/-- Marks one page of an allocated block. -/
def markAlloc (s : Buddy) (idx : Nat) : Buddy :=
  { s with
    pageState := Function.update s.pageState idx .alloc
    pageOrd := Function.update s.pageOrd idx 0xFF
    pageRefs := Function.update s.pageRefs idx 1 }

/-- Marks the pages of a block from its first one on. -/
def markBlock (s : Buddy) (idx : Nat) : Nat → Buddy
  | 0 => s
  | count + 1 => markAlloc (markBlock s idx count) (idx + count)

/-- The search, the pop and the split that the two allocation calls share. -/
def takeBlock (s : Buddy) (order : Nat) (message : String) : Except Halt (Nat × Buddy) :=
  let found := findOrder s order (maxOrder - order)
  if found = maxOrder then .error (.panic message)
  else
    let popped := popBlock s found
    .ok (popped.1, splitBlock popped.2 popped.1 order (found - order))

/-- Allocates one page and returns its address. -/
def physAllocPage (s : Buddy) : Except Halt (Nat × Buddy) := do
  let (idx, s) ← takeBlock s 0 "[PMM] PANIC: OOM — nessuna pagina libera\n"
  return (idxToPa idx, markAlloc s idx)

/-- Allocates `2 ^ order` contiguous pages and returns the address of the first. -/
def physAllocPages (s : Buddy) (order : Nat) : Except Halt (Nat × Buddy) := do
  if order ≥ maxOrder then throw (.panic "[PMM] PANIC: ordine troppo grande\n")
  let (idx, s) ← takeBlock s order "[PMM] PANIC: OOM — nessun blocco contiguo\n"
  return (idxToPa idx, markBlock s idx (1 <<< order))

/-- An address outside the managed range is ignored by the calls below. -/
def unmanaged (pa : Nat) : Bool := pa < pmmBase || pmmEnd ≤ pa

/-- A tag that makes retain and free leave the page alone. -/
def PageState.untouchable (state : PageState) : Bool := state = .reserved || state = .free

/-- Adds a reference to an allocated page, in a sixteen-bit counter. -/
def physRetainPage (s : Buddy) (pa : Nat) : Buddy :=
  if unmanaged pa then s
  else
    let idx := pageOf pa
    if (s.pageState idx).untouchable then s
    else if s.pageRefs idx = 0 then
      { s with pageRefs := Function.update s.pageRefs idx 1 }
    else { s with pageRefs := Function.update s.pageRefs idx (s.pageRefs idx + 1) }

/-- The reference counter of the page of an address. -/
def physPageRefcount (s : Buddy) (pa : Nat) : UInt32 :=
  if unmanaged pa then 0 else (s.pageRefs (pageOf pa)).toUInt32

/-- Whether the merge loop takes the buddy of the block in hand. -/
def mergeable (s : Buddy) (b order : Nat) : Bool :=
  !unmanaged (idxToPa b) && s.pageState b = .free && s.pageOrd b = UInt8.ofNat order &&
    s.pageRefs b = 0

/-- Merges the block in hand with its buddy for as long as the tags allow, for `fuel` orders. -/
def coalesce (s : Buddy) (idx order : Nat) : Nat → Except Halt (Buddy × Nat × Nat)
  | 0 => .ok (s, idx, order)
  | fuel + 1 =>
    let b := buddy idx order
    if mergeable s b order then do
      let s ← buddyRemoveBlock s b order
      coalesce s (min idx b) (order + 1) fuel
    else .ok (s, idx, order)

/-- Drops one reference to a page, and gives the page back when it was the last one. -/
def physFreePage (s : Buddy) (pa : Nat) : Except Halt Buddy :=
  if unmanaged pa then .ok s
  else
    let idx := pageOf pa
    if (s.pageState idx).untouchable then .ok s
    else if s.pageRefs idx > 1 then
      .ok { s with pageRefs := Function.update s.pageRefs idx (s.pageRefs idx - 1) }
    else do
      let s := { s with pageRefs := Function.update s.pageRefs idx 0 }
      let (s, idx, order) ← coalesce s idx 0 (maxOrder - 1)
      return buddyAddBlock s idx order

/-- Frees `count` pages one at a time, from the one at `pa` on. -/
def freeRun (s : Buddy) (pa : Nat) : Nat → Except Halt Buddy
  | 0 => .ok s
  | count + 1 => do
    let s ← freeRun s pa count
    physFreePage s (pa + count * pageSize)

/-- Frees the `2 ^ order` pages of a block. -/
def physFreePages (s : Buddy) (pa order : Nat) : Except Halt Buddy := freeRun s pa (1 <<< order)

end Enlil.Pmm
