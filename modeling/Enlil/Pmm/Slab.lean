import Enlil.Lib.Memory
import Enlil.Pmm.Buddy

/-! The slab heap over the buddy allocator, as `kernel/pmm.c` computes it. -/

namespace Enlil.Pmm

/-- Mark of a page header whose page is in use. -/
def slabMagicLive : Nat := 0xBA5E

/-- Mark of a page header whose pages were given back. -/
def slabMagicFree : Nat := 0xDEAD

/-- Class byte of a block that serves one large object. -/
def slabClassLarge : Nat := 0xFF

/-- The word written over both ends of a live slab object. -/
def slabCanaryWord : Nat := 0xDEADC0DE

/-- Bytes kept for the canary at each end of a slab object. -/
def slabRedzoneSz : Nat := 4

/-- Bytes of a page header: class, order, magic and four reserved bytes. -/
def slabHdrSize : Nat := 8

/-- Number of slab classes. -/
def slabNumClasses : Nat := 7

/-- Object sizes of the slab classes. -/
def slabSizes : List Nat := [32, 64, 128, 256, 512, 1024, 2048]

/-- The object size of a class. -/
def slabSize (ci : Nat) : Nat := slabSizes.getD ci 0

/-- Bytes of an object that its client may use. -/
def slabUsableSize (ci : Nat) : Nat := slabSize ci - 2 * slabRedzoneSz

/-- One slab cache, its free list linked through the first eight bytes of each free object. -/
structure SlabCache where
  freeHead : Nat
  objSize : Nat
  freeCount : UInt32
  totalCount : UInt32

/-- Physical memory with the two allocators' static data. -/
structure Heap where
  buddy : Buddy
  mem : Bytes
  slabCaches : Nat → SlabCache

/-- The class byte of a page header. -/
def hdrClass (mem : Bytes) (pa : Nat) : Nat := readLe mem pa 1

/-- The second byte of a page header, the order of a large block. -/
def hdrAux (mem : Bytes) (pa : Nat) : Nat := readLe mem (pa + 1) 1

/-- The magic of a page header. -/
def hdrMagic (mem : Bytes) (pa : Nat) : Nat := readLe mem (pa + 2) 2

/-- The link in a free object. -/
def nextOf (mem : Bytes) (raw : Nat) : Nat := readLe mem raw 8

/-- The object a client pointer points into. -/
def slabRawFromUserPtr (ptr : Nat) : Nat := ptr - slabRedzoneSz

/-- The pointer a client gets for an object. -/
def slabUserFromRaw (raw : Nat) : Nat := raw + slabRedzoneSz

/-- Writes the canary over both ends of an object. -/
def slabWriteCanaries (h : Heap) (ci raw : Nat) : Heap :=
  let head := writeLe h.mem raw 4 slabCanaryWord
  { h with
    mem := writeLe head (raw + (h.slabCaches ci).objSize - slabRedzoneSz) 4 slabCanaryWord }

/-- Whether both canaries of the object under a client pointer are in place. -/
def slabValidateCanaries (h : Heap) (ptr ci : Nat) : Bool :=
  let slot := slabRawFromUserPtr ptr
  readLe h.mem slot 4 = slabCanaryWord &&
    readLe h.mem (slot + (h.slabCaches ci).objSize - slabRedzoneSz) 4 = slabCanaryWord

/-- The smallest class whose usable bytes hold a request, none for a large one. -/
def slabClassFor (size : UInt32) : Option Nat :=
  (List.range slabNumClasses).find? fun i => size.toNat ≤ slabUsableSize i

/-- Pushes an object in front of the free list of its class. -/
def pushFree (h : Heap) (ci raw : Nat) : Heap :=
  let cache := h.slabCaches ci
  { h with
    mem := writeLe h.mem raw 8 cache.freeHead
    slabCaches := Function.update h.slabCaches ci
      { cache with freeHead := raw, freeCount := cache.freeCount + 1 } }

/-- Counts an object that a refill made. -/
def countObject (h : Heap) (ci : Nat) : Heap :=
  let cache := h.slabCaches ci
  { h with slabCaches := Function.update h.slabCaches ci { cache with totalCount := cache.totalCount + 1 } }

/-- Pushes the objects of a page from an offset on for as long as one more fits. -/
def carve (h : Heap) (ci pa offset : Nat) : Nat → Heap
  | 0 => h
  | fuel + 1 =>
    let objSize := (h.slabCaches ci).objSize
    if pa + offset + objSize ≤ pa + pageSize then
      carve (countObject (pushFree h ci (pa + offset)) ci) ci pa (offset + objSize) fuel
    else h

/-- Writes the three named fields of a page header. -/
def writeHdr (mem : Bytes) (pa cls aux magic : Nat) : Bytes :=
  writeLe (writeLe (writeLe mem pa 1 cls) (pa + 1) 1 aux) (pa + 2) 2 magic

/-- Takes a page from the buddy allocator and makes it objects of a class. -/
def slabRefill (h : Heap) (ci : Nat) : Except Halt Heap := do
  let (pa, b) ← physAllocPage h.buddy
  if pa = 0 then return { h with buddy := b }
  let h : Heap :=
    { h with
      buddy := { b with pageState := Function.update b.pageState (paToIdx pa) .slab }
      mem := writeHdr h.mem pa ci 0 slabMagicLive }
  let objSize := (h.slabCaches ci).objSize
  -- The first object starts at the first multiple of its size after the header.
  let offset := (slabHdrSize + objSize - 1) / objSize * objSize
  -- An object has at least one byte, so a page never holds more objects than bytes.
  return carve h ci pa offset pageSize

/-- The smallest order from `order` on whose block has the given number of pages. -/
def largeOrder (pages order : Nat) : Nat → Nat
  | 0 => order
  | fuel + 1 => if 1 <<< order < pages then largeOrder pages (order + 1) fuel else order

/-- Pages of a large request with its header, in thirty-two bit arithmetic. -/
def largePages (size : UInt32) : UInt32 :=
  let need := size + UInt32.ofNat slabHdrSize
  (need + UInt32.ofNat pageSize - 1) >>> 12

/-- The message of a class that stays empty after a refill. -/
def slabOomMessage (size : UInt32) : String :=
  "[PMM] PANIC: slab OOM per size " ++ toString size.toNat ++ " — chiama slab_warm() al boot\n"

/-- Refills a class whose free list is empty. -/
def slabFilled (h : Heap) (ci : Nat) : Except Halt Heap :=
  if (h.slabCaches ci).freeHead = 0 then slabRefill h ci else .ok h

/-- Allocates from a slab class, which is refilled first when its list is empty. -/
def kmallocSlab (h : Heap) (size : UInt32) (ci : Nat) : Except Halt (Nat × Heap) := do
  let h ← slabFilled h ci
  let cache := h.slabCaches ci
  let raw := cache.freeHead
  if raw = 0 then throw (.panic (slabOomMessage size))
  let h : Heap :=
    { h with
      slabCaches := Function.update h.slabCaches ci
        { cache with freeHead := nextOf h.mem raw, freeCount := cache.freeCount - 1 } }
  return (slabUserFromRaw raw, slabWriteCanaries h ci raw)

/-- Allocates whole pages for a request no class holds. -/
def kmallocLarge (h : Heap) (size : UInt32) : Except Halt (Nat × Heap) := do
  -- A request has less than 2 ^ 20 pages, so the loop ends within the fuel.
  let order := largeOrder (largePages size).toNat 0 20
  if order ≥ maxOrder then throw (.panic "[PMM] PANIC: kmalloc richiesta troppo grande\n")
  let (pa, b) ← physAllocPages h.buddy order
  let mem := writeHdr h.mem pa slabClassLarge order slabMagicLive
  return (pa + slabHdrSize, { h with buddy := b, mem := writeLe mem (pa + 4) 4 0 })

/-- Allocates memory for a request, null for an empty one. -/
def kmalloc (h : Heap) (size : UInt32) : Except Halt (Nat × Heap) :=
  if size = 0 then .ok (0, h)
  else
    match slabClassFor size with
    | some ci => kmallocSlab h size ci
    | none => kmallocLarge h size

/-- Gives an object back, a large one to the buddy allocator and a slab one to its free list. -/
def kfree (h : Heap) (ptr : Nat) : Except Halt Heap :=
  if ptr = 0 then .ok h
  else
    let pa := pageMask ptr
    if hdrMagic h.mem pa = slabMagicFree then
      .error (.panic "[PMM] PANIC: kfree — double-free rilevato\n")
    else if hdrMagic h.mem pa ≠ slabMagicLive then
      .error (.panic "[PMM] PANIC: kfree — magic corrotto (heap overflow?)\n")
    else if hdrClass h.mem pa = slabClassLarge then do
      let order := hdrAux h.mem pa
      let mem := writeLe h.mem (pa + 2) 2 slabMagicFree
      let b ← physFreePages h.buddy pa order
      return { h with buddy := b, mem := mem }
    else if hdrClass h.mem pa ≥ slabNumClasses then
      .error (.panic "[PMM] PANIC: kfree — class_idx invalido\n")
    else
      let ci := hdrClass h.mem pa
      if slabValidateCanaries h ptr ci then .ok (pushFree h ci (slabRawFromUserPtr ptr))
      else .error (.panic "heap/slab canary corrotto")

/-- Whether a pointer is a live object whose canaries are in place. -/
def pmmDebugCheckPtr (h : Heap) (ptr : Nat) : Bool :=
  if ptr = 0 then false
  else
    let pa := pageMask ptr
    if hdrMagic h.mem pa ≠ slabMagicLive then false
    else if hdrClass h.mem pa = slabClassLarge then true
    else if hdrClass h.mem pa ≥ slabNumClasses then false
    else slabValidateCanaries h ptr (hdrClass h.mem pa)

/-- Refills a class while it has fewer free objects than wanted, at most `fuel` times. -/
def warmLoop (h : Heap) (ci : Nat) (count : UInt32) : Nat → Except Halt Heap
  | 0 => .ok h
  | fuel + 1 =>
    if (h.slabCaches ci).freeCount < count then do
      let h ← slabRefill h ci
      warmLoop h ci count fuel
    else .ok h

/-- Fills a class up to a number of free objects. -/
def slabWarm (h : Heap) (size count : UInt32) : Except Halt Heap :=
  match slabClassFor size with
  -- Every refill adds an object, so the loop needs no more rounds than objects.
  | some ci => warmLoop h ci count count.toNat
  | none => .ok h

end Enlil.Pmm
