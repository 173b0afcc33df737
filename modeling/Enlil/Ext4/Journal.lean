import Enlil.Ext4.Cache

/-! The redo journal: building a transaction, committing it and replaying it after a crash. -/

namespace Enlil.Ext4

open Machine

/-- Magic number of a journal header. -/
def journalMagic : Nat := 0x454A4E4C

/-- Version of the journal format. -/
def journalVersion : Nat := 1

/-- State of a header with nothing to replay. -/
def journalStateClean : Nat := 0

/-- State of a header whose transaction has to be replayed. -/
def journalStatePending : Nat := 1

/-- Bytes of a journal header before its entries. -/
def journalHeaderSize : Nat := 32

/-- Bytes of one entry of a journal header. -/
def journalEntrySize : Nat := 16

/-- Position of the checksum in a journal header. -/
def journalHeaderCrcOff : Nat := 24

/-- The checksum of a block. -/
def journalBlockCrc (v : Volume) (buf : Bytes) : UInt32 := crc32cRaw 0xFFFFFFFF buf v.blockSize

/-- Whether something in the caches has to be committed. -/
def hasDirtyInternal (s : State) : Bool :=
  ((List.finRange blockCacheSlots).any fun i => (s.blocks i).valid && (s.blocks i).dirty) ||
    (List.finRange inodeCacheSlots).any fun i => (s.inodes i).valid && (s.inodes i).dirty

/-- The place of a block in a transaction. -/
def txnFindBlock (txn : List TxnEntry) (blockNo : Nat) : Option Nat :=
  txn.findIdx? fun entry => entry.targetBlock = blockNo

/-- Changes the bytes of one block of the transaction. -/
def setTxnData (idx : Nat) (change : Bytes → Bytes) (s : State) : State :=
  { s with txn := s.txn.modify idx fun entry => { entry with data := change entry.data } }

/-- Fills in the checksum of an inode before it goes to the disk. -/
def inodeRawUpdateChecksum (v : Volume) (slot : InodeSlot) : InodeSlot :=
  let zeroed := writeLe (writeLe slot.inode 124 2 0) 130 2 0
  let raw := memcpy slot.raw 0 zeroed 0 inodeStructSize
  let crc := crc32cRaw v.checksumSeed (writeLe (fun _ => 0) 0 4 slot.ino) 4
  let crc := crc32cRaw crc (memcpy (fun _ => 0) 0 slot.inode 100 4) 4
  let crc := crc32cRaw crc raw v.inodeSize
  let inode := writeLe (writeLe zeroed 124 2 crc.toNat) 130 2 (crc.toNat / 2 ^ 16)
  { slot with inode := inode, raw := memcpy raw 0 inode 0 inodeStructSize }

/-- Writes the entries of a journal header from a position on. -/
def packEntries (block : Bytes) (pos : Nat) : List TxnEntry → Bytes
  | [] => block
  | entry :: rest =>
    packEntries
      (writeLe (writeLe (writeLe block pos 8 entry.targetBlock) (pos + 8) 4 entry.dataCrc.toNat) (pos + 12) 4 0)
      (pos + journalEntrySize) rest

/-- A journal header without its checksum. -/
def headerFields (v : Volume) (txn : List TxnEntry) (state sequence : Nat) : Bytes :=
  let block := writeLe (fun _ => 0) 0 4 journalMagic
  let block := writeLe block 4 4 journalVersion
  let block := writeLe block 8 4 state
  let block := writeLe block 12 4 txn.length
  let block := writeLe block 16 4 v.blockSize
  let block := writeLe block 20 4 sequence
  packEntries block journalHeaderSize txn

/-- The journal header of a transaction. -/
def journalPackHeader (v : Volume) (txn : List TxnEntry) (state sequence : Nat) : Bytes :=
  let block := headerFields v txn state sequence
  writeLe block journalHeaderCrcOff 4 (crc32cRaw 0xFFFFFFFF block v.blockSize).toNat

section

variable (v : Volume)

/-- What a block holds now, in the cache or else on the disk. -/
def txnSource (blockNo : Nat) : Call Bytes := do
  let s ← get
  match findBlockSlot s blockNo with
  | some i => return (s.blocks i).data
  | none => rawBlockRead v blockNo

/-- The place of a block in the transaction, which it joins if it is not there. -/
def txnGetOrLoad (blockNo : Nat) : Call Nat := do
  let s ← get
  match txnFindBlock s.txn blockNo with
  | some idx => return idx
  | none =>
    if s.txn.length ≥ journalMaxTxBlocks then fail .enospc
    else do
      let data ← txnSource v blockNo
      modify fun s => { s with txn := s.txn ++ [⟨blockNo, 0, data⟩] }
      return s.txn.length

/-- Puts the bytes of an inode into the blocks of the transaction that hold them. -/
def txnApplyInodeRaw (offset : Nat) (raw : Bytes) (done rawLen : Nat) : Nat → Call Unit
  | 0 => return ()
  | fuel + 1 =>
    if done < rawLen then do
      let blockOff := offset % v.blockSize
      let chunk := min (v.blockSize - blockOff) (rawLen - done)
      let idx ← txnGetOrLoad v (offset / v.blockSize)
      modify (setTxnData idx fun data => memcpy data blockOff raw done chunk)
      txnApplyInodeRaw ((offset + chunk) % 2 ^ 64) raw (done + chunk) rawLen fuel
    else return ()

/-- Puts a dirty block slot into the transaction. -/
def txnAddDirtyBlock (i : Fin blockCacheSlots) : Call Unit := do
  let s ← get
  if (s.blocks i).valid && (s.blocks i).dirty then do
    let idx ← txnGetOrLoad v (s.blocks i).blockNo
    modify (setTxnData idx fun _ => (s.blocks i).data)
  else return ()

/-- Puts a dirty inode slot into the transaction. -/
def txnAddDirtyInode (commit : Call Unit) (i : Fin inodeCacheSlots) : Call Unit := do
  let s ← get
  if (s.inodes i).valid && (s.inodes i).dirty then do
    let ino := (s.inodes i).ino
    let gd ← readGroupDesc v commit (inodeGroup v ino)
    modify fun s => s.setInode i (inodeRawUpdateChecksum v (s.inodes i))
    let s ← get
    txnApplyInodeRaw v (inodeOffset v gd ino) (s.inodes i).raw 0 (min v.inodeSize 512) 512
  else return ()

/-- Builds the transaction of everything that is dirty. -/
def txnBuild (commit : Call Unit) : Call Unit := do
  modify fun s => { s with txn := [] }
  forEach (List.finRange blockCacheSlots) (txnAddDirtyBlock v)
  forEach (List.finRange inodeCacheSlots) (txnAddDirtyInode v commit)

/-- Marks every valid slot as clean. -/
def txnClearDirtyFlags (s : State) : State :=
  { s with
    blocks := fun i => if (s.blocks i).valid then { s.blocks i with dirty := false } else s.blocks i
    inodes := fun i => if (s.inodes i).valid then { s.inodes i with dirty := false } else s.inodes i }

/-- Brings the cached copies of a block that was written in line with it. -/
def refreshSlots (entry : TxnEntry) (s : State) : State :=
  { s with
    blocks := fun i =>
      if (s.blocks i).valid && (s.blocks i).blockNo = entry.targetBlock then
        { s.blocks i with data := entry.data, dirty := false }
      else s.blocks i }

/-- Writes the blocks of the transaction in place. -/
def txnApplyToDisk : Call Unit := do
  let s ← get
  forEach s.txn fun entry => do
    rawBlockWrite v entry.targetBlock entry.data
    modify (refreshSlots entry)
  blkFlushSync v

/-- Wipes the journal header. -/
def journalClearDisk : Call Unit := do
  let s ← get
  if s.journal.ready then do
    rawBlockWrite v (s.journal.physBlocks 0) fun _ => 0
    blkFlushSync v
  else return ()

/-- Writes the blocks of the transaction into the journal, with their checksums. -/
def journalWriteBlock (i : Nat) : Call Unit := do
  modify fun s => { s with txn := s.txn.modify i fun entry => { entry with dataCrc := journalBlockCrc v entry.data } }
  let s ← get
  match s.txn[i]? with
  | some entry => rawBlockWrite v (s.journal.physBlocks (i + 1)) entry.data
  | none => return ()

/-- Writes the transaction into the journal and then its header. -/
def journalWriteTxn : Call Unit := do
  let s ← get
  if !s.journal.ready then fail .eio
  else if s.txn.length > journalMaxTxBlocks then fail .enospc
  else do
    forEach (List.range s.txn.length) (journalWriteBlock v)
    modify fun s => { s with journal := { s.journal with sequence := s.journal.sequence + 1 } }
    let s ← get
    rawBlockWrite v (s.journal.physBlocks 0)
      (journalPackHeader v s.txn journalStatePending s.journal.sequence.toNat)
    blkFlushSync v

/-- Runs a journal step only when there is a journal. -/
def whenReady (step : Call Unit) : Call Unit := do
  let s ← get
  if s.journal.ready then step else return ()

/-- Takes a built transaction through the journal to its place. -/
def commitThrough : Call Unit := do
  whenReady (journalWriteTxn v)
  txnApplyToDisk v
  whenReady (journalClearDisk v)
  modify txnClearDirtyFlags

/-- Sets the flag that keeps commits from starting another one. -/
def setInCommit (inCommit : Bool) (s : State) : State :=
  { s with journal := { s.journal with inCommit := inCommit } }

/-- Commits a built transaction, with the flag set on the way. -/
def commitTxn : Call Unit := do
  modify (setInCommit true)
  andFinally (commitThrough v) (setInCommit false)

/-- Commits everything that is dirty, with a given commit for the loads on the way. -/
def commitStep (commit : Call Unit) : Call Unit := do
  let s ← get
  if !s.mounted then fail .eio
  else if !hasDirtyInternal s then blkFlushSync v
  else if s.journal.inCommit then fail .eio
  else do
    txnBuild v commit
    commitTxn v

/-- Commits everything that is dirty, with at most `depth` commits inside each other. -/
def commitPending : Nat → Call Unit
  | 0 => stuck
  | depth + 1 => commitStep v (commitPending depth)

/-- Gives up on the volume with a message. -/
def setError (message : String) (s : State) : State := { s with mounted := false, status := message }

/-- Forgets everything cached. -/
def cacheInvalidate (s : State) : State :=
  { s with
    blocks := fun i => { s.blocks i with valid := false }
    inodes := fun i => { s.inodes i with valid := false }
    clock := 1 }

/-- The block an entry of a journal header belongs to. -/
def headerTarget (header : Bytes) (i : Nat) : Nat := readLe header (journalHeaderSize + i * journalEntrySize) 8

/-- The checksum an entry of a journal header gives. -/
def headerDataCrc (header : Bytes) (i : Nat) : Nat :=
  readLe header (journalHeaderSize + i * journalEntrySize + 8) 4

/-- Replays one block of a pending transaction. -/
def recoverBlock (header : Bytes) (i : Nat) : Call Unit := do
  let s ← get
  let data ← rawBlockRead v (s.journal.physBlocks (i + 1))
  if (journalBlockCrc v data).toNat ≠ headerDataCrc header i then do
    modify (setError "dati journal custom corrotti")
    fail .eio
  else rawBlockWrite v (headerTarget header i) data

/-- Whether a header is one this code writes for this volume, its checksum apart. -/
def headerKnown (header : Bytes) : Bool :=
  readLe header 0 4 = journalMagic && readLe header 4 4 = journalVersion &&
    readLe header 16 4 = v.blockSize && readLe header 12 4 ≤ journalMaxTxBlocks

/-- Whether the checksum of a header is right. -/
def headerCrcOk (header : Bytes) : Bool :=
  (crc32cRaw 0xFFFFFFFF (writeLe header journalHeaderCrcOff 4 0) v.blockSize).toNat =
    readLe header journalHeaderCrcOff 4

/-- Replays the pending transaction of the journal, if there is one. -/
def journalRecoverIfNeeded : Call Unit := do
  let s ← get
  if !s.journal.ready then return ()
  else do
    let header ← rawBlockRead v (s.journal.physBlocks 0)
    if readLe header 0 4 = 0 ∧ readLe header 8 4 = journalStateClean then return ()
    else if !headerKnown v header then do
      modify (setError "journal custom corrotto")
      fail .eio
    else if !headerCrcOk v header then do
      modify (setError "checksum journal custom non valida")
      fail .eio
    else if readLe header 8 4 ≠ journalStatePending ∨ readLe header 12 4 = 0 then return ()
    else do
      forEach (List.range (readLe header 12 4)) (recoverBlock v header)
      blkFlushSync v
      journalClearDisk v
      modify cacheInvalidate

end

end Enlil.Ext4
