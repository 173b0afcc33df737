import Enlil.Lib.Memory
import Enlil.Mmu.Space

/-! File mappings: the areas of `kernel/vmm.c`, and the calls of `kernel/syscall.c` that make, write back and remove them. -/

namespace Enlil.Vmm

open Pmm (pageSize)
open Mmu (mmuUserBase mmuUserLimit)

def vmaMaxPerTask : Nat := 16
def mmapMaxPages : Nat := 1024

def oWronly : UInt32 := 1
def oRdwr : UInt32 := 2
def oAppend : UInt32 := 0x400

def protWrite : UInt32 := 2
def protExec : UInt32 := 4
def mapShared : UInt32 := 1
def mapAnonymous : UInt32 := 0x20

def vmaFlagShared : UInt32 := 1
def vmaFlagWrite : UInt32 := 2
def vmaFlagExec : UInt32 := 4

inductive Errno where
  | ebadf
  | einval
  | enomem
  | enospc
  deriving DecidableEq, Repr

/-! ## Files -/

/-- A regular file: how long it is, the bytes at its positions, and how long its inode lets it grow. -/
structure DiskFile where
  size : Nat
  data : Bytes
  capacity : Nat
  fits : size ≤ capacity
  counted : capacity < 2 ^ 64

/-- The handle of an open file; that of a remote file may have no mount behind it. -/
structure VfsFile where
  mounted : Bool
  node : Nat
  flags : UInt32
  pos : UInt64

def VfsFile.writes (file : VfsFile) : Bool := file.flags &&& 3 == oWronly || file.flags &&& 3 == oRdwr

def VfsFile.appends (file : VfsFile) : Bool := file.flags &&& oAppend != 0

/-- Reads into a memory. -/
def vfsRead (files : Nat → DiskFile) (file : VfsFile) (memory : Bytes) (dst count : Nat) : Except Errno Nat × Bytes :=
  if file.mounted = false then (.error .ebadf, memory)
  else if (files file.node).size ≤ file.pos.toNat then (.ok 0, memory)
  else
    let count := min count ((files file.node).size - file.pos.toNat)
    (.ok count, memcpy memory dst (files file.node).data file.pos.toNat count)

/-- A file with bytes written at a position, as many as its inode has room for. -/
def DiskFile.write (f : DiskFile) (pos : Nat) (memory : Bytes) (src count : Nat) (inside : pos ≤ f.capacity) : DiskFile where
  size := max f.size (pos + min count (f.capacity - pos))
  data := memcpy f.data pos memory src (min count (f.capacity - pos))
  capacity := f.capacity
  fits := by
    have fits := f.fits
    omega
  counted := f.counted

/-- Writes to a file that is open for it, at the position of the handle or at the end. -/
def ext4WriteVfs (f : DiskFile) (file : VfsFile) (memory : Bytes) (src count : Nat) : Except Errno Nat × DiskFile :=
  if file.writes = false then (.error .ebadf, f)
  else
    let pos := if file.appends = true then f.size else file.pos.toNat
    if inside : pos ≤ f.capacity then
      if min count (f.capacity - pos) = 0 then (.error .enospc, f)
      else (.ok (min count (f.capacity - pos)), f.write pos memory src count inside)
    else (.error .enospc, f)

def vfsWrite (files : Nat → DiskFile) (file : VfsFile) (memory : Bytes) (src count : Nat) :
    Except Errno Nat × (Nat → DiskFile) :=
  if file.mounted = false then (.error .ebadf, files)
  else
    ((ext4WriteVfs (files file.node) file memory src count).1,
      Function.update files file.node (ext4WriteVfs (files file.node) file memory src count).2)

/-! ## Areas -/

structure VmArea where
  start : Nat
  size : Nat
  flags : UInt32
  fileOffset : UInt64
  file : VfsFile

def VmArea.covers (area : VmArea) (va : Nat) : Bool := area.start ≤ va && va < area.start + area.size

/-- What a process has mapped: the slots of its areas, the frames of its pages, and its memory. -/
structure Process where
  pool : List (Option VmArea)
  pages : Nat → Option Nat
  memory : Bytes

/-- Takes the first free slot. -/
def vmmMapFile (pool : List (Option VmArea)) (area : VmArea) : Except Errno (List (Option VmArea)) :=
  if area.size = 0 then .error .einval
  else
    match pool.findIdx? (·.isNone) with
    | none => .error .enomem
    | some slot => .ok (pool.set slot (some area))

/-- The first area over an address. -/
def vmmFind (pool : List (Option VmArea)) (va : Nat) : Option VmArea :=
  pool.findSome? fun slot => slot.filter (·.covers va)

/-- Some bytes of a space are mapped, and follow one another in physical memory. -/
def mmuSpaceResolvePtr (pages : Nat → Option Nat) (va size : Nat) : Bool :=
  (List.range ((va + size - 1) / pageSize + 1 - va / pageSize)).all fun i =>
    match pages (va / pageSize), pages (va / pageSize + i) with
    | some first, some frame => frame == first + i
    | _, _ => false

/-- One page of an area is written to its file, if it is there. -/
def writeBackPage (p : Process) (area : VmArea) (files : Nat → DiskFile) (cur : Nat) : Nat → DiskFile :=
  if mmuSpaceResolvePtr p.pages cur pageSize = true then
    (vfsWrite files { area.file with pos := area.fileOffset + UInt64.ofNat (cur - area.start) } p.memory cur pageSize).2
  else files

/-- The pages of an area from an address to another are written to its file. -/
def writeBack (p : Process) (area : VmArea) (files : Nat → DiskFile) (first last : Nat) : Nat → DiskFile :=
  (List.range ((last - first + (pageSize - 1)) / pageSize)).foldl
    (fun files i => writeBackPage p area files (first + i * pageSize)) files

def vmmMsync (p : Process) (files : Nat → DiskFile) (va size : Nat) : Except Errno Unit × (Nat → DiskFile) :=
  if size = 0 then (.error .einval, files)
  else
    match vmmFind p.pool va with
    | none => (.error .einval, files)
    | some area =>
      if area.flags &&& vmaFlagShared = 0 ∨ area.flags &&& vmaFlagWrite = 0 then (.ok (), files)
      else (.ok (), writeBack p area files (max va area.start) (min ((va + size) % 2 ^ 64) (area.start + area.size)))

/-- Writes back and forgets the first area over an address, whole. -/
def vmmUnmapRange (p : Process) (files : Nat → DiskFile) (va : Nat) : Except Errno (List (Option VmArea)) × (Nat → DiskFile) :=
  match p.pool.findIdx? (fun slot => (slot.filter (·.covers va)).isSome) with
  | none => (.error .einval, files)
  | some slot =>
    match (p.pool[slot]?).join with
    | none => (.error .einval, files)
    | some area => (.ok (p.pool.set slot none), (vmmMsync p files area.start area.size).2)

/-! ## Calls -/

/-- A range of a space where nothing is mapped, as `mmu_map_user_anywhere` finds it, and the frames it maps there. -/
structure Gap (pages : Nat → Option Nat) (count : Nat) where
  page : Nat
  frames : Nat → Nat
  low : mmuUserBase ≤ page * pageSize
  high : (page + count) * pageSize ≤ mmuUserLimit
  free : ∀ n, page ≤ n → n < page + count → pages n = none

/-- How many pages a mapping of some length takes; the sum is one of 64 bits. -/
def pageCount (length : UInt64) : Nat := (length.toNat + (pageSize - 1)) % 2 ^ 64 / pageSize

/-- A space with zeroed pages mapped in a gap. -/
def Process.map (p : Process) {count : Nat} (gap : Gap p.pages count) : Process :=
  { p with
    pages := fun n => if gap.page ≤ n ∧ n < gap.page + count then some (gap.frames (n - gap.page)) else p.pages n
    memory := fun a => if gap.page * pageSize ≤ a ∧ a < (gap.page + count) * pageSize then 0 else p.memory a }

/-- One page of a file is read to where it is mapped, if the page is there. -/
def loadPage (files : Nat → DiskFile) (file : VfsFile) (offset : UInt64) (pages : Nat → Option Nat) (va : Nat) (memory : Bytes)
    (i : Nat) : Bytes :=
  if mmuSpaceResolvePtr pages (va + i * pageSize) pageSize = true then
    (vfsRead files { file with pos := offset + UInt64.ofNat (i * pageSize) } memory (va + i * pageSize) pageSize).2
  else memory

def areaFlags (prot flags : UInt32) : UInt32 :=
  (if flags &&& mapShared ≠ 0 then vmaFlagShared else 0) ||| (if prot &&& protWrite ≠ 0 then vmaFlagWrite else 0) |||
    (if prot &&& protExec ≠ 0 then vmaFlagExec else 0)

/-- Maps a file, or nothing; where no slot is free for the area, the mapping is made without one. -/
def sysMmap (p : Process) (files : Nat → DiskFile) (length : UInt64) (prot flags : UInt32) (file : Option VfsFile) (offset : UInt64)
    (gap : Option (Gap p.pages (pageCount length))) : Option (Process × Nat) :=
  if length = 0 then none
  else if pageCount length = 0 ∨ mmapMaxPages < pageCount length then none
  else if flags &&& mapAnonymous ≠ 0 then gap.map fun gap => (p.map gap, gap.page * pageSize)
  else
    match file, gap with
    | some file, some gap =>
      let q := p.map gap
      let va := gap.page * pageSize
      let memory := (List.range (pageCount length)).foldl (loadPage files file offset q.pages va) q.memory
      let area := { start := va, size := pageCount length * pageSize, flags := areaFlags prot flags, fileOffset := offset, file := file }
      some ({ q with
        memory := memory
        pool := match vmmMapFile q.pool area with | .ok pool => pool | .error _ => q.pool }, va)
    | _, _ => none

/-- Unmaps some pages, those of an area over the first of them after they are written back. -/
def sysMunmap (p : Process) (files : Nat → DiskFile) (addr length : UInt64) : Except Errno Process × (Nat → DiskFile) :=
  let last := (addr + length + UInt64.ofNat (pageSize - 1)).toNat / pageSize * pageSize
  if addr = 0 ∨ length = 0 then (.error .einval, files)
  else if addr.toNat < mmuUserBase ∨ mmuUserLimit ≤ addr.toNat then (.error .einval, files)
  else if addr.toNat % pageSize ≠ 0 then (.error .einval, files)
  else if last < addr.toNat ∨ mmuUserLimit < last then (.error .einval, files)
  else if last = addr.toNat then (.error .einval, files)
  else
    let (removed, files) := vmmUnmapRange p files addr.toNat
    (.ok { p with
      pool := match removed with | .ok pool => pool | .error _ => p.pool
      pages := fun n => if addr.toNat / pageSize ≤ n ∧ n < last / pageSize then none else p.pages n }, files)

def sysMsync (p : Process) (files : Nat → DiskFile) (addr length : UInt64) : Except Errno Unit × (Nat → DiskFile) :=
  if addr = 0 ∨ length = 0 then (.error .einval, files)
  else if addr.toNat < mmuUserBase ∨ mmuUserLimit ≤ addr.toNat then (.error .einval, files)
  else vmmMsync p files addr.toNat length.toNat

/-- The program stores bytes, one after the other. -/
def Process.store (p : Process) (stores : List (Nat × UInt8)) : Process :=
  { p with memory := stores.foldl (fun memory s => Function.update memory s.1 s.2) p.memory }

/-- The two calls that write a mapping back. -/
inductive Sync where
  | msync
  | munmap

/-- The files after a mapping was written back. -/
def Sync.files (sync : Sync) (p : Process) (files : Nat → DiskFile) (va length : UInt64) : Nat → DiskFile :=
  match sync with
  | .msync => (sysMsync p files va length).2
  | .munmap => (sysMunmap p files va length).2

end Enlil.Vmm
