import Enlil.Mmu.Regions

/-! The pool of spaces: creation, the signal trampoline, copy-on-write clones and destruction. -/

namespace Enlil.Mmu

open Pmm

/-- The static data of the memory manager, with the allocator and the physical memory behind it. -/
structure State where
  buddy : Buddy
  memory : Bytes
  /-- The spaces in use, by their place in the pool. -/
  spaces : Nat → Option Space
  /-- The page of the signal trampoline, zero before it is allocated. -/
  signalTrampPa : Nat

/-- A space together with what is behind it. -/
def State.mm (s : State) (space : Space) : Mm := ⟨s.buddy, s.memory, space⟩

/-- Puts a space and what is behind it back. -/
def State.put (s : State) (i : Nat) (mm : Mm) : State :=
  { s with buddy := mm.buddy, memory := mm.memory, spaces := Function.update s.spaces i (some mm.space) }

/-- Runs a call on a space in use; a space that is not fails the call. -/
def onSpace {α : Type} (s : State) (i : Nat) (failed : α) (call : Mm → Except Halt (α × Mm)) :
    Except Halt (α × State) :=
  match s.spaces i with
  | none => .ok (failed, s)
  | some space => do
    let (result, mm) ← call (s.mm space)
    return (result, s.put i mm)

/-- A space with a root and nothing else. -/
def emptySpace (rootPa : Nat) : Space := ⟨rootPa, .empty, .empty, .empty, mmuUserBase, []⟩

/-- Takes the first free place of the pool for a space without mappings. -/
def mmuSpaceCreate (s : State) : Except Halt (Option Nat × State) :=
  match (List.range mmuMaxSpaces).find? fun i => (s.spaces i).isNone with
  | none => .ok (none, s)
  | some i => do
    let (pa, buddy) ← physAllocPage s.buddy
    return (some i, { s with buddy, spaces := Function.update s.spaces i (some (emptySpace pa)) })

/-- The instructions of the two trampolines. -/
def sigtrampCode : List Nat := [0xD2800268, 0xD4000001, 0xD4200000, 0xD2801168, 0xD4000001, 0xD4200000]

/-- Memory with words stored one after the other. -/
def storeWords (memory : Bytes) (pos : Nat) : List Nat → Bytes
  | [] => memory
  | word :: rest => storeWords (writeLe memory pos 4 word) (pos + 4) rest

/-- Maps the trampoline into a space, allocating its page the first time. -/
def mapTrampoline (s : State) (i : Nat) (space : Space) : Except Halt (Bool × State) :=
  -- A table for the region of the page is taken for a sign that the page is mapped.
  if (mmuLookupPte space mmuUserSigtrampVa).isSome then .ok (true, s)
  else do
    let s ← if s.signalTrampPa = 0 then do
        let (pa, buddy) ← physAllocPage s.buddy
        pure { s with
          buddy, signalTrampPa := pa, memory := storeWords (memZero s.memory pa pageSize) pa sigtrampCode }
      else pure { s with buddy := physRetainPage s.buddy s.signalTrampPa }
    let (mapped, mm) ← mapUserPagesRaw (s.mm space) mmuUserSigtrampVa s.signalTrampPa ⟨false, true⟩ 1
    if mapped then return (true, s.put i mm)
    let buddy ← physFreePage mm.buddy s.signalTrampPa
    return (false, s.put i { mm with buddy })

def mmuSpaceMapSignalTrampoline (s : State) (i : Nat) : Except Halt (Bool × State) :=
  match s.spaces i with
  | none => .ok (false, s)
  | some space => mapTrampoline s i space

/-- Frees pages one after the other. -/
def freeAll (buddy : Buddy) : List Nat → Except Halt Buddy
  | [] => .ok buddy
  | pa :: rest => do
    let buddy ← physFreePage buddy pa
    freeAll buddy rest

/-- The pages a space has, in the order in which its destruction drops them: below each table what it maps, then the table. -/
def Space.heldPages (space : Space) : List Nat :=
  (space.l2Tables.entries.flatMap fun l2 =>
    ((space.l3Tables.entries.filter fun l3 => l3.1 / 2 ^ 9 = l2.1).flatMap fun l3 =>
      ((space.leaves.entries.filter fun leaf => leaf.1 / 2 ^ 9 = l3.1).map fun leaf => leaf.2.pa) ++ [l3.2]) ++
    [l2.2]) ++ [space.rootPa]

/-- Drops everything a space has and frees its place. -/
def mmuSpaceDestroy (s : State) (i : Nat) : Except Halt State :=
  match s.spaces i with
  | none => .ok s
  | some space => do
    let buddy ← freeAll s.buddy space.heldPages
    return { s with buddy, spaces := Function.update s.spaces i none }

/-- A descriptor as both sides of a clone keep it: what was writable or shared is shared from now on. -/
def cowPte (pte : Pte) : Pte := if pte.writable || pte.cow then { pte with writable := false, cow := true } else pte

/-- Shares leaves of a parent with a child, with the parent's space changed along. -/
def cloneLeaves (child : Mm) (parent : Space) : List (Nat × Pte) → Except Halt (Bool × Mm × Space)
  | [] => .ok (true, child, parent)
  | (page, pte) :: rest => do
    let (found, child) ← spaceEnsureL3 child (page * pageSize)
    if !found then return (false, child, parent)
    let child := (child.setLeaf page (cowPte pte))
    cloneLeaves { child with buddy := physRetainPage child.buddy pte.pa }
      { parent with leaves := parent.leaves.set page (cowPte pte) } rest

/-- Gives the child its own copies of the pages from an address on, `count` of them. -/
def copyStack (child : Mm) (cur : Nat) : Nat → Except Halt Mm
  | 0 => .ok child
  | count + 1 =>
    if (mmuLookupPte child.space cur).isSome then do
      let (_, child) ← mmuMakePrivatePage child cur true
      copyStack child (cur + pageSize) count
    else copyStack child (cur + pageSize) count

/-- The pages of the stack from an address on that a clone copies at once. -/
def stackPages (stackCopyStart : Nat) : Nat :=
  if mmuUserStackTop - mmuUserStackSize ≤ stackCopyStart ∧ stackCopyStart < mmuUserStackTop then
    (mmuUserStackTop - pageMask stackCopyStart) / pageSize
  else 0

/-- Clones a space: parent and child share all pages until one of them writes. -/
def mmuSpaceCloneCow (s : State) (parent : Nat) (stackCopyStart : Nat) : Except Halt (Option Nat × State) :=
  match s.spaces parent with
  | none => .ok (none, s)
  | some parentSpace => do
    let (created, s) ← mmuSpaceCreate s
    match created with
    | none => return (none, s)
    | some i =>
      match s.spaces i with
      | none => return (none, s)
      | some space =>
        let child := { s.mm space with space := { space with mmapBase := parentSpace.mmapBase } }
        let (shared, child, parentSpace) ← cloneLeaves child parentSpace parentSpace.leaves.entries
        let s := { s with spaces := Function.update s.spaces parent (some parentSpace) }
        if !shared then
          let s ← mmuSpaceDestroy (s.put i child) i
          return (none, s)
        let child ← copyStack child (pageMask stackCopyStart) (stackPages stackCopyStart)
        return (some i, s.put i child)

/-- Writes kernel bytes to user memory, from `done` on, page by page. -/
def writeUserFrom (mm : Mm) (uva : Nat) (data : Bytes) (written size : Nat) : Nat → Except Halt (Bool × Mm)
  | 0 => .ok (decide (size ≤ written), mm)
  | fuel + 1 =>
    if size ≤ written then .ok (true, mm)
    else do
      let cur := (uva + written) % 2 ^ 64
      let chunk := chunkAt cur (size - written)
      let (ready, mm) ← mmuSpacePrepareWrite mm cur chunk
      if !ready then return (false, mm)
      match validPte mm.space cur with
      | none => return (false, mm)
      | some pte =>
        writeUserFrom { mm with memory := memcpy mm.memory (pte.pa + cur % pageSize) data written chunk } uva data
          (written + chunk) size fuel

/-- Writes kernel bytes to user memory. -/
def mmuWriteUser (mm : Mm) (uva : Nat) (data : Bytes) (size : Nat) : Except Halt (Bool × Mm) :=
  writeUserFrom mm uva data 0 size (copySteps size)

/-- Before any space exists, over an allocator and a memory. -/
def mmuInit (buddy : Buddy) (memory : Bytes) : State := ⟨buddy, memory, fun _ => none, 0⟩

end Enlil.Mmu
