import Enlil.Mmu.UserCopy

/-! Mapping, aliasing, unmapping and moving regions of one space, as `kernel/mmu.c` does it. -/

namespace Enlil.Mmu

open Pmm

/-- The checks of a region that is to be mapped or unmapped in the user window. -/
def inWindow (start size : Nat) : Bool :=
  size ≠ 0 && start % pageSize = 0 && size % pageSize = 0 && mmuUserBase ≤ start && start + size ≤ mmuUserLimit

/-- Maps the pages of an allocated block from an address on. -/
def mapUserPagesRaw (mm : Mm) (va pa : Nat) (prot : Prot) : Nat → Except Halt (Bool × Mm)
  | 0 => .ok (true, mm)
  | count + 1 => do
    let (found, mm) ← spaceEnsureL3 mm va
    if !found then return (false, mm)
    if (mm.space.leaves.get? (pageIndex va)).isSome then return (false, mm)
    mapUserPagesRaw (mm.setLeaf (pageIndex va) (userLeaf pa prot)) (va + pageSize) (pa + pageSize) prot count

/-- Allocates, clears, tracks and maps blocks until no page remains, in at most `fuel` blocks. -/
def mapBlocks (mm : Mm) (va remaining : Nat) (prot : Prot) : Nat → Except Halt (Bool × Mm)
  | 0 => .ok (decide (remaining = 0), mm)
  | fuel + 1 =>
    if remaining = 0 then .ok (true, mm)
    else do
      let order := largestOrderFit remaining 0 maxOrder
      let (pa, buddy) ← physAllocPages mm.buddy order
      let mm := { mm with buddy, memory := memZero mm.memory pa (2 ^ order * pageSize) }
      match spaceTrackExtent mm.space ⟨va, pa, 2 ^ order, order⟩ with
      | none => return (false, mm)
      | some space =>
        let (mapped, mm) ← mapUserPagesRaw { mm with space } va pa prot (2 ^ order)
        if mapped then mapBlocks mm (va + 2 ^ order * pageSize) (remaining - 2 ^ order) prot fuel
        else return (false, mm)

/-- Maps a region with fresh pages. -/
def mmuMapUserRegion (mm : Mm) (start size : Nat) (prot : Prot) : Except Halt (Bool × Mm) :=
  if !inWindow start size then .ok (false, mm) else mapBlocks mm start (size / pageSize) prot (size / pageSize)

/-- Maps the pages of other addresses a second time, `count` of them. -/
def aliasPages (mm : Mm) (dst src : Nat) (prot : Prot) : Nat → Except Halt (Bool × Mm)
  | 0 => .ok (true, mm)
  | count + 1 =>
    match validPte mm.space src with
    | none => .ok (false, mm)
    | some pte => do
      let (found, mm) ← spaceEnsureL3 mm dst
      if !found then return (false, mm)
      match mm.space.leaves.get? (pageIndex dst) with
      | some old =>
        if old.pa = pte.pa then aliasPages mm (dst + pageSize) (src + pageSize) prot count else return (false, mm)
      | none =>
        let mm := { mm with buddy := physRetainPage mm.buddy pte.pa }
        aliasPages (mm.setLeaf (pageIndex dst) ⟨pte.pa, prot.write, false, prot.exec⟩) (dst + pageSize)
          (src + pageSize) prot count

/-- Maps a region a second time, below the user window. -/
def mmuAliasUserRegion (mm : Mm) (aliasStart srcStart size : Nat) (prot : Prot) : Except Halt (Bool × Mm) :=
  if size = 0 ∨ aliasStart % pageSize ≠ 0 ∨ srcStart % pageSize ≠ 0 ∨ size % pageSize ≠ 0 ∨
      mmuUserBase ≤ aliasStart ∨ mmuUserBase < aliasStart + size then .ok (false, mm)
  else aliasPages mm aliasStart srcStart prot (size / pageSize)

/-- A size rounded up to whole pages, in a sixty-four-bit word. -/
def alignSize (size : Nat) : Nat := (size + (pageSize - 1)) % 2 ^ 64 / pageSize * pageSize

/-- Remembers the highest address that was mapped anywhere. -/
def raiseMmapBase (mm : Mm) (stop : Nat) : Mm :=
  if mm.space.mmapBase < stop then { mm with space := { mm.space with mmapBase := stop } } else mm

/-- Maps fresh pages in the lowest gap between the extents. -/
def mmuMapUserAnywhere (mm : Mm) (size : Nat) (prot : Prot) : Except Halt (Option Nat × Mm) :=
  if alignSize size = 0 then .ok (none, mm)
  else
    match spaceFindFreeGap mm.space (alignSize size) with
    | none => .ok (none, mm)
    | some start => do
      let (mapped, mm) ← mmuMapUserRegion mm start (alignSize size) prot
      if mapped then return (some start, raiseMmapBase mm (start + alignSize size)) else return (none, mm)

/-- Takes back the mappings of a failed mapping of given pages, last first. -/
def rollbackPhys (mm : Mm) (va : Nat) (retain : Bool) : Nat → Except Halt Mm
  | 0 => .ok mm
  | mapped + 1 =>
    match validPte mm.space (va + mapped * pageSize) with
    | none => rollbackPhys mm va retain mapped
    | some pte => do
      let mm := mm.clearLeaf (pageIndex (va + mapped * pageSize))
      let buddy ← if retain then physFreePage mm.buddy pte.pa else pure mm.buddy
      rollbackPhys { mm with buddy } va retain mapped

/-- Maps given physical pages, of which `mapped` are done and `count` are to be done. -/
def mapUserPagesPhys (mm : Mm) (va pa : Nat) (prot : Prot) (retain : Bool) (mapped : Nat) :
    Nat → Except Halt (Bool × Mm)
  | 0 => .ok (true, mm)
  | count + 1 => do
    let curVa := va + mapped * pageSize
    let curPa := pteAddr (pa + mapped * pageSize)
    let (found, mm) ← spaceEnsureL3 mm curVa
    if !found || (mm.space.leaves.get? (pageIndex curVa)).isSome then
      let mm ← rollbackPhys mm va retain mapped
      return (false, mm)
    let mm := { mm with buddy := if retain then physRetainPage mm.buddy curPa else mm.buddy }
    mapUserPagesPhys (mm.setLeaf (pageIndex curVa) (userLeaf curPa prot)) va pa prot retain (mapped + 1) count

/-- Maps a region to given physical pages. -/
def mmuMapUserPhysRegion (mm : Mm) (start pa size : Nat) (prot : Prot) (retain : Bool) : Except Halt (Bool × Mm) :=
  if !inWindow start size || pa % pageSize ≠ 0 then .ok (false, mm)
  else
    match spaceTrackExtent mm.space ⟨start, pa, size / pageSize, 0⟩ with
    | none => .ok (false, mm)
    | some space => do
      let (mapped, mm) ← mapUserPagesPhys { mm with space } start pa prot retain 0 (size / pageSize)
      if mapped then return (true, mm)
      else return (false, { mm with space := spaceReleaseOverlappingExtents mm.space start size })

/-- Maps given physical pages in the lowest gap between the extents. -/
def mmuMapUserPhysAnywhere (mm : Mm) (pa size : Nat) (prot : Prot) (retain : Bool) :
    Except Halt (Option Nat × Mm) :=
  if alignSize size = 0 then .ok (none, mm)
  else
    match spaceFindFreeGap mm.space (alignSize size) with
    | none => .ok (none, mm)
    | some start => do
      let (mapped, mm) ← mmuMapUserPhysRegion mm start pa (alignSize size) prot retain
      if mapped then return (some start, raiseMmapBase mm (start + alignSize size)) else return (none, mm)

/-- Clears the mappings of the pages from an address on, and drops their references. -/
def unmapPages (mm : Mm) (va : Nat) : Nat → Except Halt Mm
  | 0 => .ok mm
  | count + 1 =>
    match validPte mm.space va with
    | none => unmapPages mm (va + pageSize) count
    | some pte => do
      let mm := mm.clearLeaf (pageIndex va)
      let buddy ← physFreePage mm.buddy pte.pa
      unmapPages { mm with buddy } (va + pageSize) count

/-- Unmaps a region, and forgets every extent that meets it. -/
def mmuUnmapUserRegion (mm : Mm) (start size : Nat) : Except Halt (Bool × Mm) :=
  if !inWindow start size then .ok (false, mm)
  else do
    let mm ← unmapPages mm start (size / pageSize)
    return (true, { mm with space := spaceReleaseOverlappingExtents mm.space start size })

/-- The pages that a loop over a range visits: none if the end of the range wraps around. -/
def pagesOfRange (start size : Nat) : Nat := if 2 ^ 64 ≤ start + size then 0 else size / pageSize

/-- Whether no page of a range is mapped. -/
def mmuRegionIsFree (space : Space) (start size : Nat) : Bool :=
  (List.range (pagesOfRange start size)).all fun i => (validPte space (start + i * pageSize)).isNone

/-- Copies whole pages between two ranges of a space, skipping what is not mapped. -/
def mmuCopyUserPages (mm : Mm) (src dst : Nat) : Nat → Mm
  | 0 => mm
  | count + 1 =>
    let mm :=
      match validPte mm.space src, validPte mm.space dst with
      | some from', some to' => { mm with memory := memcpy mm.memory to'.pa mm.memory from'.pa pageSize }
      | _, _ => mm
    mmuCopyUserPages mm (src + pageSize) (dst + pageSize) count

/-- The errors of a move. -/
inductive RemapErrno where
  | einval
  | enomem
  deriving DecidableEq, Repr

/-- Moves the pages of a range to a new one that has just been mapped. -/
def moveRegion (mm : Mm) (oldAddr newAddr oldAligned : Nat) : Except Halt (Except RemapErrno Nat × Mm) := do
  let mm := mmuCopyUserPages mm oldAddr newAddr (oldAligned / pageSize)
  let (_, mm) ← mmuUnmapUserRegion mm oldAddr oldAligned
  return (.ok newAddr, mm)

/-- Shrinks, grows or moves a mapping. -/
def mmuRemapUserRegion (mm : Mm) (oldAddr oldSize newSize : Nat) (mayMove : Bool) (fixed : Option Nat) :
    Except Halt (Except RemapErrno Nat × Mm) :=
  let prot : Prot := ⟨true, false⟩
  let oldAligned := alignSize oldSize
  let newAligned := alignSize newSize
  if newSize = 0 ∨ oldAddr % pageSize ≠ 0 ∨ oldAddr < mmuUserBase ∨ mmuUserLimit ≤ oldAddr then
    .ok (.error .einval, mm)
  else if newAligned = oldAligned then .ok (.ok oldAddr, mm)
  else if newAligned < oldAligned then do
    let (_, mm) ← mmuUnmapUserRegion mm ((oldAddr + newAligned) % 2 ^ 64) (oldAligned - newAligned)
    return (.ok oldAddr, mm)
  else
    let extend := newAligned - oldAligned
    let extStart := (oldAddr + oldAligned) % 2 ^ 64
    if (extStart + extend) % 2 ^ 64 ≤ mmuUserSigtrampVa ∧ mmuRegionIsFree mm.space extStart extend = true then do
      let (mapped, mm) ← mmuMapUserRegion mm extStart extend prot
      if mapped then return (.ok oldAddr, mm) else return (.error .enomem, mm)
    else if !mayMove then .ok (.error .enomem, mm)
    else
      match fixed with
      | none => do
        let (found, mm) ← mmuMapUserAnywhere mm newAligned prot
        match found with
        | none => return (.error .enomem, mm)
        | some newAddr => moveRegion mm oldAddr newAddr oldAligned
      | some addr =>
        if addr % pageSize ≠ 0 ∨ addr < mmuUserBase ∨ mmuUserLimit < (addr + newAligned) % 2 ^ 64 then
          .ok (.error .einval, mm)
        else do
          let (_, mm) ← if mmuRegionIsFree mm.space addr newAligned then pure (true, mm)
            else mmuUnmapUserRegion mm addr newAligned
          let (mapped, mm) ← mmuMapUserRegion mm addr newAligned prot
          if mapped then moveRegion mm oldAddr addr oldAligned else return (.error .enomem, mm)

end Enlil.Mmu
