import Enlil.Mmu.Regions

/-! Page tables with their descriptors as words, as the hardware walks them and as `kernel/mmu.c` extends them. -/

namespace Enlil.Mmu.Walk

open Pmm

def pteValid : UInt64 := 1
def pteTable : UInt64 := 2
def pteAf : UInt64 := 0x400
def pteNg : UInt64 := 0x800
def ptePxn : UInt64 := 0x20000000000000
def pteUxn : UInt64 := 0x40000000000000
def pteAddrMask : UInt64 := 0x0000FFFFFFFFF000
def pteShInner : UInt64 := 0x300
def pteApAllRw : UInt64 := 0x40
def pteApAllRo : UInt64 := 0xC0

/-- The attribute index of ordinary memory, in its place in a descriptor. -/
def pteNormalWb : UInt64 := 0x4

/-- The descriptor of a gigabyte of device memory, without its address. -/
def pteDevice : UInt64 := 0x60000000000401

/-- The descriptor of a gigabyte of ordinary memory, without its address. -/
def pteKernelRwx : UInt64 := 0x40000000000705

/-- Whether a descriptor is valid. -/
def pteIsValid (desc : UInt64) : Bool := desc &&& pteValid != 0

/-- Whether a descriptor is that of a table, or in the last level of a page. -/
def pteIsTableDesc (desc : UInt64) : Bool := desc &&& (pteValid ||| pteTable) == (pteValid ||| pteTable)

/-- The descriptor of a table in a page. -/
def tableDesc (pa : Nat) : UInt64 := (UInt64.ofNat pa &&& pteAddrMask) ||| pteValid ||| pteTable

/-- The flags of a user page. -/
def userLeafFlags (prot : Prot) : UInt64 :=
  let flags := pteValid ||| pteTable ||| pteAf ||| pteShInner ||| pteNormalWb ||| pteNg ||| ptePxn
  let flags := if prot.write then flags ||| pteApAllRw else flags ||| pteApAllRo
  if prot.exec then flags else flags ||| pteUxn

/--
The descriptors of a space.

Those of the second and third level are kept under all the indices that lead to them, and count only below a table.
-/
structure Tables where
  root : Nat → UInt64
  l2 : Nat → UInt64
  l3 : Nat → UInt64

/-- The tables below one entry filled anew. -/
def filled (words : Nat → UInt64) (index : Nat) (fill : Nat → UInt64) : Nat → UInt64 := fun k =>
  if k / 2 ^ 9 = index then fill (k % 2 ^ 9) else words k

/-- The address that a descriptor of a block or page of a size gives to an address. -/
def outputAddr (desc : UInt64) (size va : Nat) : Nat := (desc &&& pteAddrMask).toNat / size * size + va % size

/-- The bits of a descriptor that are no address: access permissions, memory type and the others. -/
def attributes (desc : UInt64) : UInt64 := desc &&& ~~~pteAddrMask

/-- What the hardware makes of an address: the physical address and the attributes. -/
def translate (t : Tables) (va : Nat) : Option (Nat × UInt64) :=
  if 2 ^ 39 ≤ va then none
  else
    let d1 := t.root (l1Index va)
    if !pteIsValid d1 then none
    else if !pteIsTableDesc d1 then some (outputAddr d1 (2 ^ 30) va, attributes d1)
    else
      let d2 := t.l2 (l3Index va)
      if !pteIsValid d2 then none
      else if !pteIsTableDesc d2 then some (outputAddr d2 (2 ^ 21) va, attributes d2)
      else
        let d3 := t.l3 (pageIndex va)
        if pteIsTableDesc d3 then some (outputAddr d3 (2 ^ 12) va, attributes d3) else none

/-- A space with its tables, the allocator and the physical memory behind it. -/
structure Mm where
  buddy : Buddy
  memory : Bytes
  tables : Tables
  tablePages : List Nat
  extents : List Extent

def spaceTrackTable (mm : Mm) (pa : Nat) : Option Mm :=
  if mmuMaxSpaceTables ≤ mm.tablePages.length then none else some { mm with tablePages := mm.tablePages ++ [pa] }

/-- Takes a page for a table and puts it in its place, or gives it back if no more tables can be tracked. -/
def newTable (mm : Mm) (place : Tables → Nat → Tables) : Except Halt (Bool × Mm) := do
  let (pa, buddy) ← physAllocPage mm.buddy
  match spaceTrackTable { mm with buddy } pa with
  | none =>
    let buddy ← physFreePage buddy pa
    return (false, { mm with buddy })
  | some mm => return (true, { mm with tables := place mm.tables pa })

/-- The descriptors of the two-megabyte blocks that a gigabyte is split into. -/
def splitBlock (l1i : Nat) (desc : UInt64) (i : Nat) : UInt64 :=
  let blockPa := ((UInt64.ofNat l1i <<< 30) ||| (UInt64.ofNat i <<< 21)) &&& pteAddrMask
  blockPa ||| (desc &&& ~~~pteAddrMask)

/-- Makes sure that an address has a second-level table; a block of a gigabyte is split. -/
def spaceEnsureL2 (mm : Mm) (va : Nat) : Except Halt (Bool × Mm) :=
  let l1i := l1Index va
  let desc := mm.tables.root l1i
  if !pteIsValid desc then
    newTable mm fun t pa =>
      { t with root := Function.update t.root l1i (tableDesc pa), l2 := filled t.l2 l1i fun _ => 0 }
  else if pteIsTableDesc desc then .ok (true, mm)
  else
    newTable mm fun t pa =>
      { t with root := Function.update t.root l1i (tableDesc pa), l2 := filled t.l2 l1i (splitBlock l1i desc) }

/-- Makes sure that an address has a third-level table. -/
def spaceEnsureL3 (mm : Mm) (va : Nat) : Except Halt (Bool × Mm) := do
  let (found, mm) ← spaceEnsureL2 mm va
  if !found then return (false, mm)
  let desc := mm.tables.l2 (l3Index va)
  if !pteIsValid desc || !pteIsTableDesc desc then
    newTable mm fun t pa =>
      { t with l2 := Function.update t.l2 (l3Index va) (tableDesc pa), l3 := filled t.l3 (l3Index va) fun _ => 0 }
  else return (true, mm)

/-- The descriptor of an address in the third level, if there is a table. -/
def mmuLookupPte (t : Tables) (va : Nat) : Option UInt64 :=
  if pteIsTableDesc (t.root (l1Index va)) && pteIsTableDesc (t.l2 (l3Index va)) then some (t.l3 (pageIndex va)) else none

/-- Puts a descriptor in the third level. -/
def Mm.setLeaf (mm : Mm) (page : Nat) (desc : UInt64) : Mm :=
  { mm with tables := { mm.tables with l3 := Function.update mm.tables.l3 page desc } }

/-- Maps the pages of an allocated block from an address on. -/
def mapUserPagesRaw (mm : Mm) (va pa : Nat) (prot : Prot) : Nat → Except Halt (Bool × Mm)
  | 0 => .ok (true, mm)
  | count + 1 => do
    let (found, mm) ← spaceEnsureL3 mm va
    if !found then return (false, mm)
    if pteIsValid (mm.tables.l3 (pageIndex va)) then return (false, mm)
    mapUserPagesRaw (mm.setLeaf (pageIndex va) ((UInt64.ofNat pa &&& pteAddrMask) ||| userLeafFlags prot))
      (va + pageSize) (pa + pageSize) prot count

/-- Puts an extent behind the last one that does not start above it. -/
def spaceTrackExtent (mm : Mm) (extent : Extent) : Option Mm :=
  if extent.pages = 0 ∨ mmuMaxSpaceExtents ≤ mm.extents.length then none
  else
    some { mm with
      extents := mm.extents.rdropWhile (fun other => extent.va < other.va) ++
        extent :: mm.extents.rtakeWhile (fun other => extent.va < other.va) }

/-- Allocates, clears, tracks and maps blocks until no page remains, in at most `fuel` blocks. -/
def mapBlocks (mm : Mm) (va remaining : Nat) (prot : Prot) : Nat → Except Halt (Bool × Mm)
  | 0 => .ok (decide (remaining = 0), mm)
  | fuel + 1 =>
    if remaining = 0 then .ok (true, mm)
    else do
      let order := largestOrderFit remaining 0 maxOrder
      let (pa, buddy) ← physAllocPages mm.buddy order
      let mm := { mm with buddy, memory := memZero mm.memory pa (2 ^ order * pageSize) }
      match spaceTrackExtent mm ⟨va, pa, 2 ^ order, order⟩ with
      | none => return (false, mm)
      | some mm =>
        let (mapped, mm) ← mapUserPagesRaw mm va pa prot (2 ^ order)
        if mapped then mapBlocks mm (va + 2 ^ order * pageSize) (remaining - 2 ^ order) prot fuel
        else return (false, mm)

/-- Maps a region with fresh pages. -/
def mmuMapUserRegion (mm : Mm) (start size : Nat) (prot : Prot) : Except Halt (Bool × Mm) :=
  if !inWindow start size then .ok (false, mm) else mapBlocks mm start (size / pageSize) prot (size / pageSize)

/-- Maps the pages of other addresses a second time, `count` of them. -/
def aliasPages (mm : Mm) (dst src : Nat) (prot : Prot) : Nat → Except Halt (Bool × Mm)
  | 0 => .ok (true, mm)
  | count + 1 =>
    match mmuLookupPte mm.tables src with
    | none => .ok (false, mm)
    | some srcPte =>
      if !pteIsValid srcPte then .ok (false, mm)
      else do
        let (found, mm) ← spaceEnsureL3 mm dst
        if !found then return (false, mm)
        -- The pointer to the source descriptor is read again behind the new tables.
        let srcPa := mm.tables.l3 (pageIndex src) &&& pteAddrMask
        let old := mm.tables.l3 (pageIndex dst)
        if pteIsValid old then
          if old &&& pteAddrMask = srcPa then aliasPages mm (dst + pageSize) (src + pageSize) prot count
          else return (false, mm)
        else
          let mm := { mm with buddy := physRetainPage mm.buddy srcPa.toNat }
          aliasPages (mm.setLeaf (pageIndex dst) (srcPa ||| userLeafFlags prot)) (dst + pageSize) (src + pageSize) prot
            count

/-- Maps a region a second time, below the user window. -/
def mmuAliasUserRegion (mm : Mm) (aliasStart srcStart size : Nat) (prot : Prot) : Except Halt (Bool × Mm) :=
  if size = 0 ∨ aliasStart % pageSize ≠ 0 ∨ srcStart % pageSize ≠ 0 ∨ size % pageSize ≠ 0 ∨
      mmuUserBase ≤ aliasStart ∨ mmuUserBase < aliasStart + size then .ok (false, mm)
  else aliasPages mm aliasStart srcStart prot (size / pageSize)

/-- The root that a new space gets from the kernel: two blocks of a gigabyte each that map their own addresses. -/
def kernelTables : Tables where
  root := fun i => if i = 0 then pteDevice else if i = 1 then 0x40000000 ||| pteKernelRwx else 0
  l2 := fun _ => 0
  l3 := fun _ => 0

end Enlil.Mmu.Walk
