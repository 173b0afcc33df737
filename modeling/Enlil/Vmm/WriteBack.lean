import Enlil.Vmm.Areas

/-! What a shared file mapping does to its file when it is written back. -/

namespace Enlil.Vmm

open Pmm (pageSize)
open Mmu (mmuUserBase mmuUserLimit)

/-- The byte stored last at an address. -/
def lastStore (stores : List (Nat × UInt8)) (a : Nat) : Option UInt8 :=
  stores.foldl (fun last s => if s.1 = a then some s.2 else last) none

/-- A file has kept its length, and its bytes but for those stored in a mapping of it. -/
structure WrittenBack (before after : DiskFile) (offset va size : Nat) (stores : List (Nat × UInt8)) : Prop where
  length : after.size = before.size
  data : ∀ x, x < before.size → after.data x =
    if offset ≤ x ∧ x < offset + size then (lastStore stores (va + (x - offset))).getD (before.data x) else before.data x

/-- Where a page of a mapping goes in its file; positions are numbers of 64 bits. -/
def place (f : DiskFile) (file : VfsFile) (offset : UInt64) (i : Nat) : Nat :=
  if file.appends = true then f.size else (offset.toNat + i * pageSize) % 2 ^ 64

/-- A page of a mapping that has an area is written to its file. -/
def Lands (f : DiskFile) (file : VfsFile) (offset : UInt64) (i : Nat) : Prop :=
  file.mounted = true ∧ file.writes = true ∧ place f file offset i < f.capacity

/-- The bytes stored in a page are those of the file from a position on. -/
def SameBytes (f : DiskFile) (stores : List (Nat × UInt8)) (va pos : Nat) : Prop :=
  ∀ k < pageSize, pos + k < f.size → ∀ byte, lastStore stores (va + k) = some byte → f.data (pos + k) = byte

section

variable {f : DiskFile} {file : VfsFile} {files : Nat → DiskFile} {p q : Process} {area : VmArea} {offset : UInt64}
  {stores : List (Nat × UInt8)} {va : Nat}

theorem lastStore_append (stores : List (Nat × UInt8)) (s : Nat × UInt8) (a : Nat) :
    lastStore (stores ++ [s]) a = if s.1 = a then some s.2 else lastStore stores a := by
  simp [lastStore]

theorem store_memory (p : Process) (stores : List (Nat × UInt8)) (a : Nat) :
    (p.store stores).memory a = (lastStore stores a).getD (p.memory a) := by
  induction stores using List.reverseRecOn with
  | nil => rfl
  | append_singleton stores s ih =>
    rw [lastStore_append]
    rw [Process.store] at ih ⊢
    simp only [List.foldl_append, List.foldl_cons, List.foldl_nil] at ih ⊢
    by_cases same : s.1 = a
    · rw [if_pos same, ← same, Function.update_self]
      rfl
    · rw [if_neg same, Function.update_of_ne (Ne.symm same)]
      exact ih

/-! ## Loading -/

theorem mmuSpaceResolvePtr_page {pages : Nat → Option Nat} {n : Nat} (mapped : (pages n).isSome) :
    mmuSpaceResolvePtr pages (n * pageSize) pageSize = true := by
  obtain ⟨frame, found⟩ := Option.isSome_iff_exists.mp mapped
  have first : n * pageSize / pageSize = n := Nat.mul_div_cancel _ (by decide)
  have count : (n * pageSize + pageSize - 1) / pageSize + 1 - n = 1 := by
    simp only [pageSize]
    omega
  rw [mmuSpaceResolvePtr, first, count]
  simp [found]

theorem ofNat_page (offset : UInt64) (i : Nat) :
    (offset + UInt64.ofNat (i * pageSize)).toNat = (offset.toNat + i * pageSize) % 2 ^ 64 := by
  rw [UInt64.toNat_add, UInt64.toNat_ofNat']
  omega

theorem load_memory (files : Nat → DiskFile) (offset : UInt64) {pages : Nat → Option Nat} {page count : Nat} (mapped : ∀ i < count, (pages (page + i)).isSome)
    (mounted : file.mounted = true) (memory : Bytes) {done : Nat} (within : done ≤ count) :
    (∀ i < done, ∀ k < pageSize, (List.range done).foldl (loadPage files file offset pages (page * pageSize)) memory
        ((page + i) * pageSize + k) =
      if (offset.toNat + i * pageSize) % 2 ^ 64 + k < (files file.node).size then
        (files file.node).data ((offset.toNat + i * pageSize) % 2 ^ 64 + k)
      else memory ((page + i) * pageSize + k)) ∧
    ∀ a, (page + done) * pageSize ≤ a →
      (List.range done).foldl (loadPage files file offset pages (page * pageSize)) memory a = memory a := by
  induction done with
  | zero => exact ⟨nofun, fun _ _ => rfl⟩
  | succ done ih =>
    obtain ⟨loaded, others⟩ := ih (by omega)
    have address : page * pageSize + done * pageSize = (page + done) * pageSize := (Nat.add_mul _ _ _).symm
    -- What the page is read to: its bytes below the end of the file, and nothing else.
    have page_read (a : Nat) : (List.range (done + 1)).foldl (loadPage files file offset pages (page * pageSize)) memory a =
        if (page + done) * pageSize ≤ a ∧ a < (page + done) * pageSize + pageSize ∧
            (offset.toNat + done * pageSize) % 2 ^ 64 + (a - (page + done) * pageSize) < (files file.node).size then
          (files file.node).data ((offset.toNat + done * pageSize) % 2 ^ 64 + (a - (page + done) * pageSize))
        else (List.range done).foldl (loadPage files file offset pages (page * pageSize)) memory a := by
      rw [List.range_succ, List.foldl_append, List.foldl_cons, List.foldl_nil, loadPage, address,
        if_pos (mmuSpaceResolvePtr_page (mapped done (by omega))), vfsRead, if_neg (by simp [mounted])]
      simp only [ofNat_page]
      split
      · rw [if_neg (by omega)]
      · simp only [memcpy]
        split
        · rw [if_pos (by omega)]
        · rw [if_neg (by omega)]
    refine ⟨fun i less k inside => ?_, fun a behind => ?_⟩
    · rw [page_read]
      rcases Nat.lt_succ_iff_lt_or_eq.mp less with less | rfl
      · have before : (page + i) * pageSize + pageSize ≤ (page + done) * pageSize := by
          rw [← Nat.succ_mul]
          exact Nat.mul_le_mul_right _ (by omega)
        rw [if_neg (by omega), loaded i less k inside]
      · have offset_in : (page + i) * pageSize + k - (page + i) * pageSize = k := by omega
        rw [offset_in, others _ (by omega)]
        split
        · rw [if_pos (by omega)]
        · rw [if_neg (by omega)]
    · have more : (page + done) * pageSize + pageSize ≤ a := by
        rw [← Nat.succ_mul]
        exact behind
      rw [page_read, if_neg (by omega), others a (by omega)]

/-! ## Writing back -/

/-- What writing back one page of a mapping does to its file. -/
def writePage (file : VfsFile) (offset : UInt64) (memory : Bytes) (va : Nat) (f : DiskFile) (i : Nat) : DiskFile :=
  if file.mounted = false then f
  else (ext4WriteVfs f { file with pos := offset + UInt64.ofNat (i * pageSize) } memory (va + i * pageSize) pageSize).2

theorem writeBack_node (p : Process) (area : VmArea) (files : Nat → DiskFile) (count : Nat)
    (mapped : ∀ i < count, mmuSpaceResolvePtr p.pages (area.start + i * pageSize) pageSize = true) {done : Nat} (within : done ≤ count) :
    (List.range done).foldl (fun files i => writeBackPage p area files (area.start + i * pageSize)) files area.file.node =
      (List.range done).foldl (writePage area.file area.fileOffset p.memory area.start) (files area.file.node) := by
  induction done with
  | zero => rfl
  | succ done ih =>
    have skipped : area.start + done * pageSize - area.start = done * pageSize := by omega
    rw [List.range_succ, List.foldl_append, List.foldl_append, List.foldl_cons, List.foldl_nil, List.foldl_cons, List.foldl_nil,
      ← ih (by omega), writeBackPage, if_pos (mapped done (by omega)), skipped, vfsWrite, writePage]
    split
    · rfl
    · simp

/-- Where a write goes. -/
def writePlace (f : DiskFile) (file : VfsFile) : Nat := if file.appends = true then f.size else file.pos.toNat

theorem ext4WriteVfs_writes {memory : Bytes} {src count : Nat} (some_byte : count ≠ 0) (writes : file.writes = true)
    (inside : writePlace f file < f.capacity) :
    (ext4WriteVfs f file memory src count).2.size =
        max f.size (writePlace f file + min count (f.capacity - writePlace f file)) ∧
      (ext4WriteVfs f file memory src count).2.data =
        memcpy f.data (writePlace f file) memory src (min count (f.capacity - writePlace f file)) ∧
      (ext4WriteVfs f file memory src count).2.capacity = f.capacity := by
  unfold writePlace at *
  rw [ext4WriteVfs, if_neg (by simp [writes])]
  simp only
  rw [dif_pos inside.le, if_neg (by omega)]
  exact ⟨rfl, rfl, rfl⟩

theorem ext4WriteVfs_fails {memory : Bytes} {src count : Nat} (fails : file.writes = false ∨ f.capacity ≤ writePlace f file) :
    (ext4WriteVfs f file memory src count).2 = f := by
  unfold writePlace at fails
  rw [ext4WriteVfs]
  split
  · rfl
  · rename_i writes
    have outside := fails.resolve_left writes
    simp only
    by_cases inside : (if file.appends = true then f.size else file.pos.toNat) ≤ f.capacity
    · rw [dif_pos inside, if_pos (by omega)]
    · rw [dif_neg inside]

theorem writePlace_place (f : DiskFile) (file : VfsFile) (offset : UInt64) (i : Nat) :
    writePlace f { file with pos := offset + UInt64.ofNat (i * pageSize) } = place f file offset i := by
  rw [place, ← ofNat_page]
  rfl

theorem writePage_lands (memory : Bytes) (va : Nat) {i : Nat} (lands : Lands f file offset i) :
    (writePage file offset memory va f i).size =
        max f.size (place f file offset i + min pageSize (f.capacity - place f file offset i)) ∧
      (writePage file offset memory va f i).data =
        memcpy f.data (place f file offset i) memory (va + i * pageSize) (min pageSize (f.capacity - place f file offset i)) ∧
      (writePage file offset memory va f i).capacity = f.capacity := by
  obtain ⟨mounted, writes, inside⟩ := lands
  rw [← writePlace_place] at inside ⊢
  rw [writePage, if_neg (by simp [mounted])]
  exact ext4WriteVfs_writes (by decide) writes inside

theorem writePage_misses {memory : Bytes} {i : Nat} (misses : ¬Lands f file offset i) : writePage file offset memory va f i = f := by
  rw [writePage]
  split
  · rfl
  · rename_i mounted
    refine ext4WriteVfs_fails ?_
    rw [writePlace_place]
    by_contra lands
    rw [not_or, not_le] at lands
    exact misses ⟨by simpa using mounted, eq_true_of_ne_false lands.1, lands.2⟩

theorem writePage_size (memory : Bytes) (i : Nat) : f.size ≤ (writePage file offset memory va f i).size := by
  by_cases lands : Lands f file offset i
  · rw [(writePage_lands memory va lands).1]
    exact Nat.le_max_left _ _
  · rw [writePage_misses lands]

theorem writePage_capacity (memory : Bytes) (i : Nat) : (writePage file offset memory va f i).capacity = f.capacity := by
  by_cases lands : Lands f file offset i
  · exact (writePage_lands memory va lands).2.2
  · rw [writePage_misses lands]

theorem place_congr {f' : DiskFile} (size : f'.size = f.size) (i : Nat) : place f' file offset i = place f file offset i := by
  rw [place, place, size]

theorem lands_congr {f' : DiskFile} (size : f'.size = f.size) (capacity : f'.capacity = f.capacity) (i : Nat) :
    Lands f' file offset i ↔ Lands f file offset i := by
  rw [Lands, Lands, place_congr size, capacity]

theorem writePages_grow (file : VfsFile) (offset : UInt64) (va : Nat) (memory : Bytes) (f : DiskFile) {done count : Nat} (within : done ≤ count) :
    ((List.range done).foldl (writePage file offset memory va) f).size ≤
      ((List.range count).foldl (writePage file offset memory va) f).size := by
  induction count with
  | zero => rw [Nat.le_zero.mp within]
  | succ count ih =>
    rcases Nat.le_succ_iff.mp within with less | rfl
    · rw [List.range_succ, List.foldl_append, List.foldl_cons, List.foldl_nil]
      exact (ih less).trans (writePage_size memory count)
    · exact Nat.le_refl _

theorem writePages_capacity (file : VfsFile) (offset : UInt64) (va : Nat) (memory : Bytes) (f : DiskFile) (count : Nat) :
    ((List.range count).foldl (writePage file offset memory va) f).capacity = f.capacity := by
  induction count with
  | zero => rfl
  | succ count ih =>
    rw [List.range_succ, List.foldl_append, List.foldl_cons, List.foldl_nil, writePage_capacity, ih]

theorem writePages_inside {memory : Bytes} {count i : Nat}
    (kept : ((List.range count).foldl (writePage file offset memory va) f).size = f.size) (less : i < count)
    (lands : Lands f file offset i) : min (place f file offset i + pageSize) f.capacity ≤ f.size := by
  have before := writePages_grow file offset va memory f (Nat.zero_le i)
  have after := writePages_grow file offset va memory f (Nat.succ_le_of_lt less)
  have capacity := writePages_capacity file offset va memory f i
  rw [List.range_succ, List.foldl_append, List.foldl_cons, List.foldl_nil] at after
  rw [List.range_zero, List.foldl_nil] at before
  have size_le := @writePage_size ((List.range i).foldl (writePage file offset memory va) f) file offset va memory i
  have same : ((List.range i).foldl (writePage file offset memory va) f).size = f.size := by omega
  have lands' := (lands_congr same capacity i).mpr lands
  have grown := (writePage_lands memory va lands').1
  rw [place_congr same, capacity] at grown
  have inside := lands.2.2
  omega

theorem writePage_inside (memory : Bytes) (va : Nat) {i : Nat} (lands : Lands f file offset i)
    (inside : min (place f file offset i + pageSize) f.capacity ≤ f.size) :
    file.appends = false ∧ (writePage file offset memory va f i).size = f.size ∧
      ∀ x, x < f.size → (writePage file offset memory va f i).data x =
        if place f file offset i ≤ x ∧ x < place f file offset i + pageSize then
          memory (va + i * pageSize + (x - place f file offset i))
        else f.data x := by
  obtain ⟨size, data, _⟩ := writePage_lands memory va lands
  have below := lands.2.2
  have fits := f.fits
  refine ⟨?_, ?_, fun x less => ?_⟩
  · -- What is appended starts at the end, and has no room inside.
    by_contra appends
    rw [place, if_pos (by simpa using appends)] at below inside
    simp only [pageSize] at inside
    omega
  · rw [size]
    omega
  · rw [data, memcpy]
    split
    · rw [if_pos (by omega)]
    · rw [if_neg (by omega)]

theorem place_apart {i j k x : Nat} (appends : file.appends = false) (less : i < j) (bound : j < mmapMaxPages) (inside : k < pageSize)
    (here : place f file offset i + k = x) : ¬(place f file offset j ≤ x ∧ x < place f file offset j + pageSize) := by
  rw [place, if_neg (by simp [appends])] at here ⊢
  simp only [mmapMaxPages, pageSize] at *
  omega

theorem writePages_spec (memory : Bytes) (va : Nat) {count : Nat} (bound : count ≤ mmapMaxPages)
    (inside : ∀ i < count, Lands f file offset i → min (place f file offset i + pageSize) f.capacity ≤ f.size) {done : Nat}
    (within : done ≤ count) :
    ((List.range done).foldl (writePage file offset memory va) f).size = f.size ∧
      (∀ i < done, Lands f file offset i → ∀ k < pageSize, place f file offset i + k < f.size →
        ((List.range done).foldl (writePage file offset memory va) f).data (place f file offset i + k) =
          memory (va + i * pageSize + k)) ∧
      ∀ x, x < f.size →
        (∀ i < done, Lands f file offset i → ¬(place f file offset i ≤ x ∧ x < place f file offset i + pageSize)) →
        ((List.range done).foldl (writePage file offset memory va) f).data x = f.data x := by
  induction done with
  | zero => exact ⟨rfl, nofun, fun _ _ _ => rfl⟩
  | succ done ih =>
    obtain ⟨size, landed, others⟩ := ih (by omega)
    have capacity := writePages_capacity file offset va memory f done
    rw [List.range_succ, List.foldl_append, List.foldl_cons, List.foldl_nil]
    by_cases lands : Lands f file offset done
    · have here := inside done (by omega) lands
      obtain ⟨appends, size', data⟩ := writePage_inside memory va ((lands_congr size capacity done).mpr lands)
        (by rw [place_congr size, capacity, size]; exact here)
      rw [place_congr size, size] at data
      rw [size] at size'
      refine ⟨size', fun i less there k low high => ?_, fun x less outside => ?_⟩
      · rw [data _ high]
        rcases Nat.lt_succ_iff_lt_or_eq.mp less with less | rfl
        · rw [if_neg (place_apart appends less (by omega) low rfl)]
          exact landed i less there k low high
        · rw [if_pos (by omega), Nat.add_sub_cancel_left]
      · rw [data x less, if_neg (outside done (by omega) lands)]
        exact others x less fun i before => outside i (by omega)
    · rw [writePage_misses (fun there => lands ((lands_congr size capacity done).mp there))]
      refine ⟨size, fun i less there => ?_, fun x less outside => others x less fun i before => outside i (by omega)⟩
      rcases Nat.lt_succ_iff_lt_or_eq.mp less with less | rfl
      · exact landed i less there
      · exact absurd there lands

end

/-! ## When a mapping is written back as it should be -/

/-- A page of a mapping is written to its file when the mapping has an area and the page a place. -/
def PageLands (pool : List (Option VmArea)) (f : DiskFile) (file : VfsFile) (offset : UInt64) (i : Nat) : Prop :=
  none ∈ pool ∧ Lands f file offset i

/-- What a page of a mapping must not do for its file to come out right: what is stored in it must be lost or go elsewhere only where
it changes nothing. -/
structure PageKept (pool : List (Option VmArea)) (f : DiskFile) (file : VfsFile) (offset : UInt64) (va : Nat)
    (stores : List (Nat × UInt8)) (i : Nat) : Prop where
  /-- A page that is written does not reach past the end of the file, unless the file cannot grow. -/
  inside : PageLands pool f file offset i → min (place f file offset i + pageSize) f.capacity ≤ f.size
  /-- A page that is written to the start of the file, its offset being too large for 64 bits, holds what is there. -/
  wrapped : PageLands pool f file offset i → 2 ^ 64 ≤ offset.toNat + i * pageSize →
    SameBytes f stores (va + i * pageSize) (place f file offset i)
  /-- A page that is not written holds what the file has at its offset. -/
  missed : ¬PageLands pool f file offset i → SameBytes f stores (va + i * pageSize) (offset.toNat + i * pageSize)

/-- What writing back so many pages does to a file. -/
structure Effect (pool : List (Option VmArea)) (f after : DiskFile) (file : VfsFile) (offset : UInt64) (va : Nat) (memory : Bytes)
    (count : Nat) : Prop where
  inside : after.size = f.size → ∀ i < count, PageLands pool f file offset i →
    min (place f file offset i + pageSize) f.capacity ≤ f.size
  kept : (∀ i < count, PageLands pool f file offset i → min (place f file offset i + pageSize) f.capacity ≤ f.size) →
    after.size = f.size ∧
    (∀ i < count, PageLands pool f file offset i → file.appends = false ∧ ∀ k < pageSize, place f file offset i + k < f.size →
      after.data (place f file offset i + k) = memory (va + i * pageSize + k)) ∧
    ∀ x, x < f.size →
      (∀ i < count, PageLands pool f file offset i → ¬(place f file offset i ≤ x ∧ x < place f file offset i + pageSize)) →
      after.data x = f.data x

section

variable {pool : List (Option VmArea)} {f after : DiskFile} {file : VfsFile} {offset : UInt64} {va count : Nat} {memory : Bytes}
  {stores : List (Nat × UInt8)}

theorem Effect.unregistered (full : none ∉ pool) : Effect pool f f file offset va memory count where
  inside _ _ _ lands := absurd lands.1 full
  kept _ := ⟨rfl, fun _ _ lands => absurd lands.1 full, fun _ _ _ => rfl⟩

theorem Effect.registered (free : none ∈ pool) (bound : count ≤ mmapMaxPages) :
    Effect pool f ((List.range count).foldl (writePage file offset memory va) f) file offset va memory count where
  inside kept i less lands := writePages_inside kept less lands.2
  kept inside := by
    obtain ⟨size, landed, others⟩ := writePages_spec memory va bound
      (fun i less lands => inside i less ⟨free, lands⟩) (Nat.le_refl count)
    refine ⟨size, fun i less lands => ⟨?_, landed i less lands.2⟩, fun x less outside => ?_⟩
    · exact (writePage_inside memory va lands.2 (inside i less lands)).1
    · exact others x less fun i before lands => outside i before ⟨free, lands⟩

theorem place_eq {i : Nat} (appends : file.appends = false) : place f file offset i = (offset.toNat + i * pageSize) % 2 ^ 64 := by
  rw [place, if_neg (by simp [appends])]

theorem Effect.writtenBack_iff (effect : Effect pool f after file offset va memory count) (bound : count ≤ mmapMaxPages)
    (loaded : ∀ i < count, PageLands pool f file offset i → file.appends = false → ∀ k < pageSize, place f file offset i + k < f.size →
      memory (va + i * pageSize + k) = (lastStore stores (va + i * pageSize + k)).getD (f.data (place f file offset i + k))) :
    WrittenBack f after offset.toNat va (count * pageSize) stores ↔ ∀ i < count, PageKept pool f file offset va stores i := by
  have fits := f.fits
  have counted := f.counted
  have offset_lt := offset.toNat_lt
  constructor
  · intro written i less
    have inside := effect.inside written.length
    obtain ⟨_, landed, others⟩ := effect.kept inside
    refine ⟨inside i less, fun lands wraps k low high byte stored => ?_, fun misses k low high byte stored => ?_⟩
    · obtain ⟨appends, data⟩ := landed i less lands
      have new := written.data _ high
      rw [data k low high, loaded i less lands appends k low high, stored] at new
      rw [if_neg] at new
      · exact new.symm
      · rw [place_eq appends]
        simp only [mmapMaxPages, pageSize] at *
        omega
    · have new := written.data _ high
      have here : offset.toNat ≤ offset.toNat + i * pageSize + k ∧
          offset.toNat + i * pageSize + k < offset.toNat + count * pageSize := by
        simp only [pageSize] at *
        omega
      have address : va + (offset.toNat + i * pageSize + k - offset.toNat) = va + i * pageSize + k := by omega
      rw [if_pos here, address, stored] at new
      refine Eq.trans (others _ high fun j before lands => ?_).symm new
      obtain ⟨appends, _⟩ := landed j before lands
      have other : j ≠ i := fun same => misses (same ▸ lands)
      rw [place_eq appends]
      simp only [mmapMaxPages, pageSize] at *
      omega
  · intro kept
    obtain ⟨size, landed, others⟩ := effect.kept fun i less => (kept i less).inside
    refine ⟨size, fun x less => ?_⟩
    by_cases covered : ∃ i < count, PageLands pool f file offset i ∧ place f file offset i ≤ x ∧ x < place f file offset i + pageSize
    · obtain ⟨i, before, lands, low, high⟩ := covered
      obtain ⟨appends, data⟩ := landed i before lands
      obtain ⟨k, rfl⟩ := Nat.exists_eq_add_of_le low
      have inside : k < pageSize := by omega
      rw [data k inside less, loaded i before lands appends k inside less]
      by_cases wraps : 2 ^ 64 ≤ offset.toNat + i * pageSize
      · -- The page went to the start of the file, and nothing stored there may differ.
        have same := (kept i before).wrapped lands wraps k inside less
        rw [if_neg]
        · cases stored : lastStore stores (va + i * pageSize + k) with
          | none => rfl
          | some byte => exact (same byte stored).symm
        · rw [place_eq appends]
          simp only [mmapMaxPages, pageSize] at *
          omega
      · have exact_place : place f file offset i = offset.toNat + i * pageSize := by
          rw [place_eq appends]
          exact Nat.mod_eq_of_lt (by omega)
        have address : va + (offset.toNat + i * pageSize + k - offset.toNat) = va + i * pageSize + k := by omega
        rw [exact_place, if_pos, address]
        simp only [pageSize] at *
        omega
    · rw [others x less fun i before lands inside => covered ⟨i, before, lands, inside⟩]
      split
      · rename_i here
        -- The byte belongs to a page that was not written.
        have before : (x - offset.toNat) / pageSize < count := by
          simp only [pageSize] at *
          omega
        have split : offset.toNat + (x - offset.toNat) / pageSize * pageSize + (x - offset.toNat) % pageSize = x := by
          simp only [pageSize] at *
          omega
        have address : va + (x - offset.toNat) / pageSize * pageSize + (x - offset.toNat) % pageSize = va + (x - offset.toNat) := by
          simp only [pageSize] at *
          omega
        have low : (x - offset.toNat) % pageSize < pageSize := Nat.mod_lt _ (by decide)
        have misses : ¬PageLands pool f file offset ((x - offset.toNat) / pageSize) := by
          intro lands
          obtain ⟨appends, _⟩ := landed _ before lands
          refine covered ⟨_, before, lands, ?_⟩
          rw [place_eq appends]
          simp only [pageSize] at *
          omega
        have same := (kept _ before).missed misses _ low (by rw [split]; exact less)
        rw [split, address] at same
        cases stored : lastStore stores (va + (x - offset.toNat)) with
        | none => rfl
        | some byte => exact same byte stored
      · rfl

end

end Enlil.Vmm
