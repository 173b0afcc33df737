import Enlil.Ext4.Volume

/-! The block and inode caches, as `kernel/ext4.c` fills and evicts them. -/

namespace Enlil.Ext4

open Machine

/-- Replaces one slot of the block cache. -/
def State.setBlock (s : State) (i : Fin blockCacheSlots) (slot : BlockSlot) : State :=
  { s with blocks := Function.update s.blocks i slot }

/-- Replaces one slot of the inode cache. -/
def State.setInode (s : State) (i : Fin inodeCacheSlots) (slot : InodeSlot) : State :=
  { s with inodes := Function.update s.inodes i slot }

/-- The slot that holds a block. -/
def findBlockSlot (s : State) (blockNo : Nat) : Option (Fin blockCacheSlots) :=
  (List.finRange blockCacheSlots).find? fun i => (s.blocks i).valid && (s.blocks i).blockNo = blockNo

/-- The slot that holds an inode. -/
def findInodeSlot (s : State) (ino : Nat) : Option (Fin inodeCacheSlots) :=
  (List.finRange inodeCacheSlots).find? fun i => (s.inodes i).valid && (s.inodes i).ino = ino

/-- The first unused slot, else the one with the smallest stamp below the bound, the earliest of those. -/
def pickVictim {ι : Type} (valid : ι → Bool) (stamp : ι → UInt32) :
    List ι → UInt32 → Option ι → Option ι
  | [], _, victim => victim
  | i :: rest, oldest, victim =>
    if !valid i then some i
    else if stamp i < oldest then pickVictim valid stamp rest (stamp i) (some i)
    else pickVictim valid stamp rest oldest victim

/-- The block slot a load would refill. -/
def blockVictim (s : State) : Option (Fin blockCacheSlots) :=
  pickVictim (fun i => (s.blocks i).valid) (fun i => (s.blocks i).stamp)
    (List.finRange blockCacheSlots) 0xFFFFFFFF none

/-- The inode slot a load would refill. -/
def inodeVictim (s : State) : Option (Fin inodeCacheSlots) :=
  pickVictim (fun i => (s.inodes i).valid) (fun i => (s.inodes i).stamp)
    (List.finRange inodeCacheSlots) 0xFFFFFFFF none

/-- Advances the clock and stamps a block slot with it. -/
def touchBlock (i : Fin blockCacheSlots) (s : State) : State :=
  { s with clock := s.clock + 1 }.setBlock i { s.blocks i with stamp := s.clock + 1 }

section

-- The caches commit what they evict, and the commit loads through the caches.
variable (v : Volume) (commit : Call Unit)

/-- Commits everything when the block slot to refill is dirty. -/
def evictBlock (i : Fin blockCacheSlots) : Call Unit := do
  let s ← get
  if (s.blocks i).valid && (s.blocks i).dirty then orFail .eio commit else return ()

/-- Whether filling a slot with a block goes wrong: a failed transfer into a slot in use, or a second slot for the block. -/
def spoils (s : State) (i : Fin blockCacheSlots) (blockNo : Nat) (ok : Bool) : Bool :=
  if ok then
    (List.finRange blockCacheSlots).any fun j => j ≠ i && (s.blocks j).valid && (s.blocks j).blockNo = blockNo
  else (s.blocks i).valid

/-- A slot after a transfer into it, which keeps its old number when the transfer failed. -/
def fillBlock (i : Fin blockCacheSlots) (blockNo : Nat) (ok : Bool) (data : Bytes) (s : State) : State :=
  let s' := { s with spoiled := s.spoiled || spoils s i blockNo ok }
  if ok then touchBlock i (s'.setBlock i ⟨true, false, blockNo, (s.blocks i).stamp, data⟩)
  else s'.setBlock i { s.blocks i with data := data }

/-- Reads a block straight into a slot. -/
def refillBlock (i : Fin blockCacheSlots) (blockNo : Nat) : Call (Fin blockCacheSlots) := do
  let (ok, data) ← blkReadSync v blockNo
  modify (fillBlock i blockNo ok data)
  if ok then return i else fail .eio

/-- Finds or loads a block. -/
def cacheLoad (blockNo : Nat) : Call (Fin blockCacheSlots) := do
  let s ← get
  if s.mounted then
    match findBlockSlot s blockNo with
    | some i => do
      modify (touchBlock i)
      return i
    | none =>
      match blockVictim s with
      | some i => do
        evictBlock commit i
        refillBlock v i blockNo
      | none => fail .eio
  else fail .eio

/-- The bytes of a block, for reading. -/
def cacheGet (blockNo : Nat) : Call Bytes := do
  let i ← cacheLoad v commit blockNo
  let s ← get
  return (s.blocks i).data

/-- The slot of a block, for writing. -/
def cacheGetMut (blockNo : Nat) : Call (Fin blockCacheSlots) := do
  let i ← cacheLoad v commit blockNo
  modify fun s => s.setBlock i { s.blocks i with dirty := true }
  return i

/-- Changes the bytes of a block in the cache. -/
def cacheUpdate (blockNo : Nat) (change : Bytes → Bytes) : Call Unit := do
  let i ← cacheGetMut v commit blockNo
  modify fun s => s.setBlock i { s.blocks i with data := change (s.blocks i).data }

/--
Reads bytes of the volume block by block into a buffer.

The buffer comes back in every case, because a caller may read straight into a structure it keeps.
-/
def readBytesLoop (offset : Nat) (buf : Bytes) (done count : Nat) :
    Nat → Call (Except Errno Unit × Bytes)
  | 0 => return (.ok (), buf)
  | fuel + 1 =>
    if count = 0 then return (.ok (), buf)
    else do
      let blockOff := offset % v.blockSize
      let chunk := min (v.blockSize - blockOff) count
      match ← attempt (cacheGet v commit (offset / v.blockSize)) with
      | .error error => return (.error error, buf)
      | .ok block =>
        readBytesLoop ((offset + chunk) % 2 ^ 64) (memcpy buf done block blockOff chunk) (done + chunk)
          (count - chunk) fuel

/-- Reads `count` bytes of the volume over a buffer. -/
def readBytes (offset : Nat) (buf : Bytes) (count : Nat) : Call (Except Errno Unit × Bytes) := do
  let s ← get
  -- Every round of the loop reads at least one byte.
  if s.mounted then readBytesLoop v commit offset buf 0 count count
  else return (.error .eio, buf)

/-- Where the descriptor of a group is on the volume. -/
def groupDescOffset (group : Nat) : Nat :=
  (if v.blockSize = 1024 then 2 else 1) * v.blockSize + group * v.descSize

/-- The bytes of a group descriptor, through the cache. -/
def readGroupDesc (group : Nat) : Call Bytes := do
  if group ≥ v.groupCount then fail .eio
  else
    let (result, raw) ← readBytes v commit (groupDescOffset v group) (fun _ => 0) v.descSize
    match result with
    | .ok _ => return raw
    | .error _ => fail .eio

/-- The block of the inode table that a descriptor names. -/
def inodeTable (gd : Bytes) : Nat := readLe gd 8 4 + readLe gd 40 4 * 2 ^ 32

/-- The number of an inode from zero on, in thirty-two bit arithmetic. -/
def inodeIndex (ino : Nat) : Nat := (ino + (2 ^ 32 - 1)) % 2 ^ 32

/-- The group of an inode. -/
def inodeGroup (ino : Nat) : Nat := inodeIndex ino / v.inodesPerGroup

/-- Where an inode is on the volume, by the descriptor of its group. -/
def inodeOffset (gd : Bytes) (ino : Nat) : Nat :=
  (inodeTable gd * v.blockSize + inodeIndex ino % v.inodesPerGroup * v.inodeSize) % 2 ^ 64

/-- The bytes of a group descriptor, past the cache. -/
def readGroupDescUncached (group : Nat) : Call Bytes := do
  if group ≥ v.groupCount then fail .einval
  else
    let offset := groupDescOffset v group
    let blockOff := offset % v.blockSize
    let block ← rawBlockRead v (offset / v.blockSize)
    if blockOff + v.descSize ≤ v.blockSize then
      return memcpy (fun _ => 0) 0 block blockOff v.descSize
    else
      let first := v.blockSize - blockOff
      let block2 ← rawBlockRead v (offset / v.blockSize + 1)
      return memcpy (memcpy (fun _ => 0) 0 block blockOff first) first block2 0 (v.descSize - first)

/-- Stamps an inode slot with the advanced clock. -/
def touchInode (i : Fin inodeCacheSlots) (s : State) : State :=
  { s with clock := s.clock + 1 }.setInode i { s.inodes i with stamp := s.clock + 1 }

/-- Commits everything when the inode slot to refill is dirty. -/
def evictInode (i : Fin inodeCacheSlots) : Call Unit := do
  let s ← get
  if (s.inodes i).valid && (s.inodes i).dirty then orFail .eio commit else return ()

/-- An inode slot after bytes were read into it, which keeps its old number when a read failed. -/
def fillInode (v : Volume) (i : Fin inodeCacheSlots) (ino : Nat) (ok : Bool) (raw : Bytes) (s : State) : State :=
  if ok then
    touchInode i (s.setInode i
      ⟨true, false, ino, (s.inodes i).stamp, memcpy (fun _ => 0) 0 raw 0 (min v.inodeSize inodeStructSize), raw, ino⟩)
  else s.setInode i { s.inodes i with raw := raw, rawIno := ino }

/-- Reads an inode straight into a slot. -/
def refillInode (i : Fin inodeCacheSlots) (ino : Nat) : Call Bytes := do
  if ino = 0 then fail .eio
  else
    let gd ← orFail .eio (readGroupDescUncached v (inodeGroup v ino))
    let (result, raw) ← readBytes v commit (inodeOffset v gd ino) (fun _ => 0) v.inodeSize
    match result with
    | .error _ => do
      modify (fillInode v i ino false raw)
      fail .eio
    | .ok _ => do
      modify (fillInode v i ino true raw)
      return memcpy (fun _ => 0) 0 raw 0 (min v.inodeSize inodeStructSize)

/-- Finds or loads an inode. -/
def loadInode (ino : Nat) : Call Bytes := do
  let s ← get
  if s.mounted then
    match findInodeSlot s ino with
    | some i => do
      modify (touchInode i)
      return (s.inodes i).inode
    | none =>
      match inodeVictim s with
      | some i => do
        evictInode commit i
        refillInode v commit i ino
      | none => fail .eio
  else fail .eio

/-- A slot of an inode with the inode changed. -/
def InodeSlot.change (slot : InodeSlot) (inode : Bytes) : InodeSlot :=
  { slot with inode := inode, raw := memcpy slot.raw 0 inode 0 inodeStructSize, dirty := true }

/-- A slot taken over for a changed inode. -/
def InodeSlot.takeOver (slot : InodeSlot) (ino : Nat) (inode : Bytes) : InodeSlot :=
  ⟨true, true, ino, slot.stamp, inode, memcpy (fun _ => 0) 0 inode 0 inodeStructSize, ino⟩

/-- Puts a changed inode into the cache. -/
def markInodeDirty (ino : Nat) (inode : Bytes) : Call Unit := do
  let s ← get
  match findInodeSlot s ino with
  | some i => modify fun s => touchInode i (s.setInode i ((s.inodes i).change inode))
  | none =>
    match inodeVictim s with
    | some i => do
      evictInode commit i
      modify fun s => touchInode i (s.setInode i ((s.inodes i).takeOver ino inode))
    | none => fail .eio

end

end Enlil.Ext4
