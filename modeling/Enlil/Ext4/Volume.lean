import Enlil.Lib.Machine
import Enlil.Lib.Memory
import Enlil.Lib.Redo

/-! A mounted volume: its geometry, its block device, its caches and its journal state. -/

namespace Enlil.Ext4

/-- Number of slots of the block cache. -/
def blockCacheSlots : Nat := 8

/-- Number of slots of the inode cache. -/
def inodeCacheSlots : Nat := 16

/-- Most blocks in one transaction. -/
def journalMaxTxBlocks : Nat := blockCacheSlots + inodeCacheSlots

/-- Bytes of the inode structure the code works on. -/
def inodeStructSize : Nat := 132

/-- The errors the file system returns. -/
inductive Errno where
  | eio
  | einval
  | efault
  | enospc
  | enoent
  | eexist
  | enotdir
  | eisdir
  | enotempty
  | enametoolong
  | efbig
  | erofs
  deriving DecidableEq, Repr

/--
How the block device behaves.

Each transfer has a number.
A failing read leaves arbitrary bytes in its buffer, a failing write leaves the block as it was.
-/
structure Device where
  readFault : Nat → Option Bytes
  writeFault : Nat → Bool
  flushFault : Nat → Bool

/-- No read fails. -/
def Device.ReadsOk (d : Device) : Prop := ∀ t, d.readFault t = none

/-- No write and no flush fails. -/
def Device.WritesOk (d : Device) : Prop := ∀ t, d.writeFault t = false ∧ d.flushFault t = false

/-- What the mount learns from a superblock it accepts. -/
structure Volume where
  blockSize : Nat
  inodeSize : Nat
  inodesPerGroup : Nat
  groupCount : Nat
  descSize : Nat
  checksumSeed : UInt32
  device : Device
  blockSizes : blockSize = 1024 ∨ blockSize = 2048 ∨ blockSize = 4096
  inodeSizes : 128 ≤ inodeSize ∧ inodeSize ≤ 512
  someInodes : 0 < inodesPerGroup
  descSizes : 32 ≤ descSize ∧ descSize ≤ 64

/-- Device sectors in a block. -/
def Volume.sectorsPerBlock (v : Volume) : Nat := v.blockSize / 512

/-- The first sector of a block, in sixty-four bit arithmetic. -/
def Volume.sector (v : Volume) (blockNo : Nat) : Nat := blockNo * v.sectorsPerBlock % 2 ^ 64

/-- One slot of the block cache. -/
structure BlockSlot where
  valid : Bool
  dirty : Bool
  blockNo : Nat
  stamp : UInt32
  data : Bytes

/--
One slot of the inode cache, with the decoded structure and the bytes it came from.

The number under which the bytes were last filled in is kept to say whose they are; the code has no such field.
-/
structure InodeSlot where
  valid : Bool
  dirty : Bool
  ino : Nat
  stamp : UInt32
  inode : Bytes
  raw : Bytes
  rawIno : Nat

/-- The journal's place on the disk and the progress of the commit. -/
structure JournalState where
  ready : Bool
  inCommit : Bool
  sequence : UInt32
  physBlocks : Nat → Nat

/-- One block of a transaction. -/
structure TxnEntry where
  targetBlock : Nat
  dataCrc : UInt32
  data : Bytes

/--
The file system's static data over the disk.

Blocks on the disk are found by their first sector.
Two things are kept that the code does not have: the log of the raw writes that reached the disk, to say what a crash leaves, and a mark that a slot in use was filled with a failed transfer or a block got a second slot.
-/
structure State where
  mounted : Bool
  status : String
  clock : UInt32
  journal : JournalState
  blocks : Fin blockCacheSlots → BlockSlot
  inodes : Fin inodeCacheSlots → InodeSlot
  txn : List TxnEntry
  disk : Nat → Bytes
  tick : Nat
  log : List (Nat × Bytes)
  spoiled : Bool

/-- A file system call. -/
abbrev Call (α : Type) := Machine State Errno α

/-- One bit of the remainder of the Castagnoli polynomial, low bit first. -/
def crcBit (crc : UInt32) : UInt32 :=
  if crc &&& 1 ≠ 0 then (crc >>> 1) ^^^ 0x82F63B78 else crc >>> 1

/-- One byte of the remainder. -/
def crcByte (crc : UInt32) (byte : UInt8) : UInt32 := Nat.iterate crcBit 8 (crc ^^^ byte.toUInt32)

/-- The remainder over `len` bytes of a buffer from a position on. -/
def crc32cFrom (crc : UInt32) (buf : Bytes) (pos : Nat) : Nat → UInt32
  | 0 => crc
  | len + 1 => crc32cFrom (crcByte crc (buf pos)) buf (pos + 1) len

/-- The remainder over the first `len` bytes of a buffer. -/
def crc32cRaw (crc : UInt32) (buf : Bytes) (len : Nat) : UInt32 := crc32cFrom crc buf 0 len

open Machine

/-- Reads a block, giving whether it worked and what the buffer holds afterwards. -/
def blkReadSync (v : Volume) (blockNo : Nat) : Call (Bool × Bytes) := do
  let s ← get
  modify fun s => { s with tick := s.tick + 1 }
  match v.device.readFault s.tick with
  | some garbage => return (false, garbage)
  | none => return (true, s.disk (v.sector blockNo))

/-- Reads a block into a buffer of the caller. -/
def rawBlockRead (v : Volume) (blockNo : Nat) : Call Bytes := do
  let (ok, data) ← blkReadSync v blockNo
  if ok then return data else fail .eio

/-- Writes a block. -/
def rawBlockWrite (v : Volume) (blockNo : Nat) (data : Bytes) : Call Unit := do
  let s ← get
  modify fun s => { s with tick := s.tick + 1 }
  if v.device.writeFault s.tick then fail .eio
  else
    modify fun s =>
      { s with
        disk := Function.update s.disk (v.sector blockNo) data
        log := s.log ++ [(v.sector blockNo, data)] }

/-- Waits for the device's own cache. -/
def blkFlushSync (v : Volume) : Call Unit := do
  let s ← get
  modify fun s => { s with tick := s.tick + 1 }
  if v.device.flushFault s.tick then fail .eio else return ()

end Enlil.Ext4
