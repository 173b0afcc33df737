import Enlil.Lib.Memory
import Enlil.Lib.SortedMap
import Enlil.Pmm.Buddy
import Enlil.Sched.Task

/-! Address spaces, their page tables and their extents, as `kernel/mmu.c` keeps them. -/

namespace Enlil.Mmu

open Pmm

/-- First address of the user window. -/
def mmuUserBase : Nat := 0x7FC0000000

/-- First address past the user window. -/
def mmuUserLimit : Nat := 0x8000000000

/-- First address past the user stack. -/
def mmuUserStackTop : Nat := 0x7FFF000000

/-- Bytes of the user stack. -/
def mmuUserStackSize : Nat := 8 * 1024 * 1024

/-- Address of the signal trampoline, the last page of the window. -/
def mmuUserSigtrampVa : Nat := mmuUserLimit - 0x1000

/-- Size of the static pool of spaces. -/
def mmuMaxSpaces : Nat := Sched.schedMaxTasks

/-- Table pages a space can track. -/
def mmuMaxSpaceTables : Nat := 16

/-- Extents a space can track. -/
def mmuMaxSpaceExtents : Nat := 1024

/-- What a mapping lets user code do besides reading. -/
structure Prot where
  write : Bool
  exec : Bool
  deriving DecidableEq, Repr

/-- A valid leaf descriptor: the page it maps, its access permission and its software bit. -/
structure Pte where
  pa : Nat
  /-- The permission field gives EL0 writes; otherwise it gives EL0 reads only. -/
  writable : Bool
  cow : Bool
  exec : Bool
  deriving DecidableEq, Repr

/-- A range of pages that was mapped in one piece. -/
structure Extent where
  va : Nat
  pa : Nat
  pages : Nat
  order : Nat
  deriving DecidableEq, Repr

/-- First address past an extent. -/
def Extent.stop (extent : Extent) : Nat := extent.va + extent.pages * pageSize

/--
An address space in use.

A table is kept under the part of the address that selects it, with the page it occupies, and the valid leaf descriptors are kept under their page numbers.
-/
structure Space where
  rootPa : Nat
  /-- Second-level tables by their index in the root. -/
  l2Tables : SortedMap Nat Nat
  /-- Third-level tables by the address bits from the twenty-first on. -/
  l3Tables : SortedMap Nat Nat
  leaves : SortedMap Nat Pte
  mmapBase : Nat
  extents : List Extent

/-- The index in the root of an address. -/
def l1Index (va : Nat) : Nat := va / 2 ^ 30 % 2 ^ 9

/-- The indices in the root and the second level of an address, as one number. -/
def l3Index (va : Nat) : Nat := va / 2 ^ 21 % 2 ^ 18

/-- All three indices of an address, as one number. -/
def pageIndex (va : Nat) : Nat := va / 2 ^ 12 % 2 ^ 27

/-- The address bits that a descriptor keeps. -/
def pteAddr (pa : Nat) : Nat := pa / pageSize * pageSize % 2 ^ 48

/-- The descriptor of a fresh user mapping. -/
def userLeaf (pa : Nat) (prot : Prot) : Pte := ⟨pteAddr pa, prot.write, false, prot.exec⟩

/-- Table pages tracked. -/
def Space.tableCount (space : Space) : Nat := space.l2Tables.size + space.l3Tables.size

/-- The entry of an address in the third level: none without a table, and then the descriptor if it is valid. -/
def mmuLookupPte (space : Space) (va : Nat) : Option (Option Pte) :=
  if (space.l2Tables.get? (l1Index va)).isSome && (space.l3Tables.get? (l3Index va)).isSome then
    some (space.leaves.get? (pageIndex va))
  else none

/-- The valid descriptor of an address. -/
def validPte (space : Space) (va : Nat) : Option Pte := (mmuLookupPte space va).join

/-- The number of leaves that map a page. -/
def mmuCountSpacePaMappings (space : Space) (pa : Nat) : Nat := space.leaves.count fun pte => pte.pa = pa

/-- The largest order whose block fits in the remaining pages, from an order on. -/
def largestOrderFit (remaining order : Nat) : Nat → Nat
  | 0 => order
  | fuel + 1 =>
    if order + 1 < maxOrder ∧ 2 ^ (order + 1) ≤ remaining then largestOrderFit remaining (order + 1) fuel
    else order

/-- Puts an extent behind the last one that does not start above it. -/
def spaceTrackExtent (space : Space) (extent : Extent) : Option Space :=
  if extent.pages = 0 ∨ mmuMaxSpaceExtents ≤ space.extents.length then none
  else
    some { space with
      extents := space.extents.rdropWhile (fun other => extent.va < other.va) ++
        extent :: space.extents.rtakeWhile (fun other => extent.va < other.va) }

/-- Whether an extent meets a range. -/
def Extent.overlaps (extent : Extent) (start size : Nat) : Bool :=
  !(extent.stop ≤ start || start + size ≤ extent.va)

/-- Forgets every extent that meets a range, whole. -/
def spaceReleaseOverlappingExtents (space : Space) (start size : Nat) : Space :=
  { space with extents := space.extents.filter fun extent => !extent.overlaps start size }

/-- Walks the extents with a cursor until the space in front of it is large enough. -/
def findGapFrom (size : Nat) (cursor : Nat) : List Extent → Option Nat
  | [] =>
    if cursor < mmuUserSigtrampVa ∧ size ≤ mmuUserSigtrampVa - cursor then some cursor else none
  | extent :: rest =>
    if extent.stop ≤ cursor then findGapFrom size cursor rest
    else if cursor < extent.va ∧ size ≤ extent.va - cursor then some cursor
    else findGapFrom size extent.stop rest

/-- The lowest gap between extents that holds a size. -/
def spaceFindFreeGap (space : Space) (size : Nat) : Option Nat :=
  findGapFrom size mmuUserBase space.extents

/-- One space with the allocator and the physical memory behind it. -/
structure Mm where
  buddy : Buddy
  memory : Bytes
  space : Space

/-- Puts a leaf descriptor in its table. -/
def Mm.setLeaf (mm : Mm) (page : Nat) (pte : Pte) : Mm :=
  { mm with space := { mm.space with leaves := mm.space.leaves.set page pte } }

/-- Clears a leaf descriptor. -/
def Mm.clearLeaf (mm : Mm) (page : Nat) : Mm :=
  { mm with space := { mm.space with leaves := mm.space.leaves.erase page } }

/-- Makes sure that an address has a second-level table. -/
def spaceEnsureL2 (mm : Mm) (va : Nat) : Except Halt (Bool × Mm) := do
  if (mm.space.l2Tables.get? (l1Index va)).isSome then return (true, mm)
  -- An invalid root entry and a block descriptor that has to be split both take a table page.
  let (pa, buddy) ← physAllocPage mm.buddy
  if mmuMaxSpaceTables ≤ mm.space.tableCount then
    let buddy ← physFreePage buddy pa
    return (false, { mm with buddy })
  return (true, { mm with
    buddy, space := { mm.space with l2Tables := mm.space.l2Tables.set (l1Index va) pa } })

/-- Makes sure that an address has a third-level table. -/
def spaceEnsureL3 (mm : Mm) (va : Nat) : Except Halt (Bool × Mm) := do
  let (found, mm) ← spaceEnsureL2 mm va
  if !found then return (false, mm)
  if (mm.space.l3Tables.get? (l3Index va)).isSome then return (true, mm)
  let (pa, buddy) ← physAllocPage mm.buddy
  if mmuMaxSpaceTables ≤ mm.space.tableCount then
    let buddy ← physFreePage buddy pa
    return (false, { mm with buddy })
  return (true, { mm with
    buddy, space := { mm.space with l3Tables := mm.space.l3Tables.set (l3Index va) pa } })

/-- Memory with `size` bytes from an address on cleared. -/
def memZero (memory : Bytes) (start size : Nat) : Bytes := fun p =>
  if start ≤ p ∧ p < start + size then 0 else memory p

/-- Adds a number of references to a page. -/
def retainTimes (buddy : Buddy) (pa : Nat) : Nat → Buddy
  | 0 => buddy
  | count + 1 => physRetainPage (retainTimes buddy pa count) pa

/-- Drops a number of references to a page. -/
def freeTimes (buddy : Buddy) (pa : Nat) : Nat → Except Halt Buddy
  | 0 => .ok buddy
  | count + 1 => do
    let buddy ← freeTimes buddy pa count
    physFreePage buddy pa

/-- The descriptor made writable for its user again, over a page. -/
def pteMakeUserRw (pte : Pte) (pa : Nat) : Pte := { pte with pa := pteAddr pa, writable := true, cow := false }

/-- What a rewrite with cleared software bits makes of one descriptor. -/
def rewritePte (oldPa newPa : Nat) (pte : Pte) : Pte :=
  if pte.pa ≠ oldPa then pte
  else if pte.cow then pteMakeUserRw pte newPa
  else { pte with pa := pteAddr newPa }

/-- Moves every mapping of a page to another page, with a reference for each but the first. -/
def mmuRewriteSpacePaMappings (mm : Mm) (oldPa newPa : Nat) : Nat × Mm :=
  let replaced := mmuCountSpacePaMappings mm.space oldPa
  (replaced,
    { mm with
      buddy := if newPa ≠ oldPa then retainTimes mm.buddy newPa (replaced - 1) else mm.buddy
      space := { mm.space with leaves := mm.space.leaves.mapValues (rewritePte oldPa newPa) } })

/-- Gives a space its own writable copy of a copy-on-write page, in place if it is the last user. -/
def mmuMakePrivatePage (mm : Mm) (va : Nat) (forceCopy : Bool) : Except Halt (Bool × Mm) :=
  match validPte mm.space va with
  | none => .ok (false, mm)
  | some pte =>
    if !pte.cow then .ok (pte.writable, mm)
    else if !forceCopy &&
        (physPageRefcount mm.buddy pte.pa).toNat ≤ mmuCountSpacePaMappings mm.space pte.pa then
      let (replaced, mm) := mmuRewriteSpacePaMappings mm pte.pa pte.pa
      .ok (decide (0 < replaced), mm)
    else do
      let (newPa, buddy) ← physAllocPage mm.buddy
      let mm := { mm with buddy, memory := memcpy mm.memory newPa mm.memory pte.pa pageSize }
      let (replaced, mm) := mmuRewriteSpacePaMappings mm pte.pa newPa
      if replaced = 0 then
        let buddy ← physFreePage mm.buddy newPa
        return (false, { mm with buddy })
      let buddy ← freeTimes mm.buddy pte.pa replaced
      return (true, { mm with buddy })

/-- Prepares the pages from an address on for a write, `count` of them. -/
def prepareWritePages (mm : Mm) (cur : Nat) : Nat → Except Halt (Bool × Mm)
  | 0 => .ok (true, mm)
  | count + 1 =>
    match mmuLookupPte mm.space cur with
    | none => .ok (false, mm)
    | some entry =>
      if entry.any Pte.cow then do
        let (done, mm) ← mmuMakePrivatePage mm cur false
        if done then prepareWritePages mm (cur + pageSize) count else return (false, mm)
      else if entry.any Pte.writable then prepareWritePages mm (cur + pageSize) count
      else .ok (false, mm)

/-- The number of pages from the page of an address to an end. -/
def pagesTo (va stop : Nat) : Nat := (stop - pageMask va + (pageSize - 1)) / pageSize

/-- Prepares a range for a write. -/
def mmuSpacePrepareWrite (mm : Mm) (va size : Nat) : Except Halt (Bool × Mm) :=
  if 2 ^ 64 ≤ va + size then .ok (false, mm)
  else prepareWritePages mm (pageMask va) (pagesTo va (va + size))

/-- Handles a permission fault of user code. -/
def mmuHandleUserFault (mm : Mm) (far : Nat) (wnr : Bool) : Except Halt (Bool × Mm) :=
  if !wnr then .ok (false, mm) else mmuMakePrivatePage mm (pageMask far) false

/-- A store of a user instruction: the hardware checks the permission, faults once, and tries again. -/
def userStore (mm : Mm) (va : Nat) (byte : UInt8) : Except Halt (Bool × Mm) := do
  let (handled, mm) ← if (validPte mm.space va).any Pte.writable then pure (true, mm)
    else mmuHandleUserFault mm va true
  match validPte mm.space va with
  | some pte =>
    if handled && pte.writable then
      return (true, { mm with memory := Function.update mm.memory (pte.pa + va % pageSize) byte })
    return (false, mm)
  | none => return (false, mm)

/-- Whether the pages from an address to an end follow each other in physical memory. -/
def contiguous (space : Space) (cur stop expected : Nat) : Nat → Bool
  | 0 => stop ≤ cur
  | fuel + 1 =>
    if stop ≤ cur then true
    else
      match validPte space cur with
      | none => false
      | some pte =>
        let chunk := min (pageSize - cur % pageSize) (stop - cur)
        pte.pa = pageMask expected && contiguous space (cur + chunk) stop (expected + chunk) fuel

/-- The physical address of a range that is mapped in one piece. -/
def mmuSpaceResolvePtr (space : Space) (va size : Nat) : Option Nat :=
  if 2 ^ 64 ≤ va + size ∨ size = 0 then none
  else
    match validPte space va with
    | none => none
    | some pte =>
      let resolved := pte.pa + va % pageSize
      let chunk := min (pageSize - va % pageSize) size
      if contiguous space (va + chunk) (va + size) (resolved + chunk) (size / pageSize + 1) then some resolved
      else none

/-- The bytes of one copy step: up to the end of the page, at most those that remain. -/
def chunkAt (va remaining : Nat) : Nat := min (pageSize - va % pageSize) remaining

/-- Copies user bytes to a kernel buffer, from `copied` on, page by page. -/
def copyFromUser (space : Space) (memory : Bytes) (uva : Nat) (out : Bytes) (copied size : Nat) :
    Nat → Option Bytes
  | 0 => if size ≤ copied then some out else none
  | fuel + 1 =>
    if size ≤ copied then some out
    else
      let cur := (uva + copied) % 2 ^ 64
      let chunk := chunkAt cur (size - copied)
      match mmuSpaceResolvePtr space cur chunk with
      | none => none
      | some src =>
        copyFromUser space memory uva (memcpy out copied memory src chunk) (copied + chunk) size fuel

/-- Copies kernel bytes to user memory, from `copied` on, breaking sharing page by page. -/
def copyToUser (mm : Mm) (uva : Nat) (data : Bytes) (copied size : Nat) : Nat → Except Halt (Bool × Mm)
  | 0 => .ok (decide (size ≤ copied), mm)
  | fuel + 1 =>
    if size ≤ copied then .ok (true, mm)
    else do
      let cur := (uva + copied) % 2 ^ 64
      let chunk := chunkAt cur (size - copied)
      let (ready, mm) ← mmuSpacePrepareWrite mm cur chunk
      if !ready then return (false, mm)
      match mmuSpaceResolvePtr mm.space cur chunk with
      | none => return (false, mm)
      | some dst =>
        copyToUser { mm with memory := memcpy mm.memory dst data copied chunk } uva data (copied + chunk) size
          fuel

/-- Steps that a copy of a size takes at most. -/
def copySteps (size : Nat) : Nat := size / pageSize + 2

end Enlil.Mmu
