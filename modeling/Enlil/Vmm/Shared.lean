import Enlil.Vmm.WriteBack

/-! Shared mappings from `mmap` to `msync` or `munmap`: when the file gets what was stored in them, and nothing else. -/

namespace Enlil.Vmm

open Pmm (pageSize)
open Mmu (mmuUserBase mmuUserLimit)

section

variable {p q : Process} {files : Nat → DiskFile} {pool : List (Option VmArea)} {area : VmArea} {length offset : UInt64}
  {prot flags : UInt32} {file : VfsFile} {va : Nat} {stores : List (Nat × UInt8)}

theorem vmmFind_only (mem : some area ∈ pool) (covers : area.covers va = true)
    (only : ∀ other, some other ∈ pool → other.covers va = true → other = area) : vmmFind pool va = some area := by
  cases found : vmmFind pool va with
  | none =>
    have missed := List.findSome?_eq_none_iff.mp found _ mem
    simp [covers] at missed
  | some other =>
    obtain ⟨slot, mem, taken⟩ := List.exists_of_findSome?_eq_some found
    obtain ⟨rfl, covers⟩ := Option.filter_eq_some_iff.mp taken
    rw [only other mem covers]

theorem vmmFind_none (apart : ∀ other, some other ∈ pool → other.covers va = false) : vmmFind pool va = none := by
  refine List.findSome?_eq_none_iff.mpr fun slot mem => ?_
  cases slot with
  | none => rfl
  | some other => simp [apart other mem]

theorem vmmUnmapRange_files (mem : some area ∈ p.pool) (covers : area.covers va = true)
    (only : ∀ other, some other ∈ p.pool → other.covers va = true → other = area) :
    (vmmUnmapRange p files va).2 = (vmmMsync p files area.start area.size).2 := by
  rw [vmmUnmapRange]
  cases found : p.pool.findIdx? (fun slot => (slot.filter (·.covers va)).isSome) with
  | none =>
    have missed := List.findIdx?_eq_none_iff.mp found _ mem
    simp [covers] at missed
  | some slot =>
    obtain ⟨inside, taken, _⟩ := List.findIdx?_eq_some_iff_getElem.mp found
    obtain ⟨other, kept⟩ := Option.isSome_iff_exists.mp taken
    obtain ⟨there, covers⟩ := Option.filter_eq_some_iff.mp kept
    have same := only other (there ▸ List.getElem_mem inside) covers
    simp only [List.getElem?_eq_getElem inside, there, Option.join_some, same]

theorem vmmUnmapRange_pool (files : Nat → DiskFile) (mem : some area ∈ p.pool) (covers : area.covers va = true)
    (only : ∀ other, some other ∈ p.pool → other.covers va = true → other = area) :
    ∃ slot, p.pool[slot]? = some (some area) ∧ (vmmUnmapRange p files va).1 = .ok (p.pool.set slot none) := by
  rw [vmmUnmapRange]
  cases found : p.pool.findIdx? (fun slot => (slot.filter (·.covers va)).isSome) with
  | none =>
    have missed := List.findIdx?_eq_none_iff.mp found _ mem
    simp [covers] at missed
  | some slot =>
    obtain ⟨inside, taken, _⟩ := List.findIdx?_eq_some_iff_getElem.mp found
    obtain ⟨other, kept⟩ := Option.isSome_iff_exists.mp taken
    obtain ⟨there, covers⟩ := Option.filter_eq_some_iff.mp kept
    have same := only other (there ▸ List.getElem_mem inside) covers
    refine ⟨slot, ?_, ?_⟩
    · rw [List.getElem?_eq_getElem inside, there, same]
    · simp only [List.getElem?_eq_getElem inside, there, Option.join_some]

theorem vmmUnmapRange_none (apart : ∀ other, some other ∈ p.pool → other.covers va = false) :
    (vmmUnmapRange p files va).2 = files := by
  rw [vmmUnmapRange]
  cases found : p.pool.findIdx? (fun slot => (slot.filter (·.covers va)).isSome) with
  | none => rfl
  | some slot =>
    obtain ⟨inside, taken, _⟩ := List.findIdx?_eq_some_iff_getElem.mp found
    obtain ⟨other, kept⟩ := Option.isSome_iff_exists.mp taken
    obtain ⟨there, covers⟩ := Option.filter_eq_some_iff.mp kept
    rw [apart other (there ▸ List.getElem_mem inside)] at covers
    cases covers

theorem areaFlags_shared (shared : flags &&& mapShared ≠ 0) (writes : prot &&& protWrite ≠ 0) :
    ¬(areaFlags prot flags &&& vmaFlagShared = 0 ∨ areaFlags prot flags &&& vmaFlagWrite = 0) := by
  rw [areaFlags, if_pos shared, if_pos writes]
  split <;> decide

theorem vmmMsync_files (found : vmmFind p.pool area.start = some area)
    (synced : ¬(area.flags &&& vmaFlagShared = 0 ∨ area.flags &&& vmaFlagWrite = 0)) {size : Nat} (some_byte : size ≠ 0) :
    (vmmMsync p files area.start size).2 =
      writeBack p area files area.start (min ((area.start + size) % 2 ^ 64) (area.start + area.size)) := by
  rw [vmmMsync, if_neg some_byte, found]
  simp only [if_neg synced, Nat.max_self]

/-! ## Mapping -/

theorem vmmMapFile_full (area : VmArea) (full : none ∉ pool) : ∃ error, vmmMapFile pool area = .error error := by
  have none_free : pool.findIdx? (·.isNone) = none := by
    refine List.findIdx?_eq_none_iff.mpr fun slot mem => ?_
    cases slot with
    | none => exact absurd mem full
    | some area => rfl
  rw [vmmMapFile, none_free]
  split
  · exact ⟨_, rfl⟩
  · exact ⟨_, rfl⟩

theorem vmmMapFile_free (area : VmArea) (free : none ∈ pool) (some_byte : area.size ≠ 0) :
    ∃ slot < pool.length, vmmMapFile pool area = .ok (pool.set slot (some area)) := by
  rw [vmmMapFile, if_neg some_byte]
  cases found : pool.findIdx? (·.isNone) with
  | none =>
    have missed := List.findIdx?_eq_none_iff.mp found _ free
    cases missed
  | some slot =>
    obtain ⟨inside, _⟩ := List.findIdx?_eq_some_iff_getElem.mp found
    exact ⟨slot, inside, rfl⟩

/-- The area of a mapping. -/
def mappingArea (file : VfsFile) (page : Nat) (length : UInt64) (prot flags : UInt32) (offset : UInt64) : VmArea :=
  { start := page * pageSize, size := pageCount length * pageSize, flags := areaFlags prot flags, fileOffset := offset, file := file }

/-- Some pages in the window of the programs. -/
structure InWindow (length : UInt64) (page : Nat) : Prop where
  some_length : length ≠ 0
  some_page : 0 < pageCount length
  low : mmuUserBase ≤ page * pageSize
  high : (page + pageCount length) * pageSize ≤ mmuUserLimit

/-- A file that was mapped: the pages hold it, and an area stands for them if a slot was free. -/
structure Mapped (p q : Process) (files : Nat → DiskFile) (file : VfsFile) (length offset : UInt64) (prot flags : UInt32)
    (page : Nat) : Prop extends InWindow length page where
  bound : pageCount length ≤ mmapMaxPages
  free : ∀ n, page ≤ n → n < page + pageCount length → p.pages n = none
  pages : ∀ i < pageCount length, (q.pages (page + i)).isSome
  others : ∀ n, (p.pages n).isSome → (q.pages n).isSome
  loaded : file.mounted = true → ∀ i < pageCount length, ∀ k < pageSize,
    (offset.toNat + i * pageSize) % 2 ^ 64 + k < (files file.node).size →
    q.memory (page * pageSize + i * pageSize + k) = (files file.node).data ((offset.toNat + i * pageSize) % 2 ^ 64 + k)
  full : none ∉ p.pool → q.pool = p.pool
  registered : none ∈ p.pool → ∃ slot < p.pool.length, q.pool = p.pool.set slot (some (mappingArea file page length prot flags offset))

/-- What `mmap` makes of a file. -/
theorem sysMmap_mapped {gap : Option (Gap p.pages (pageCount length))} (backed : flags &&& mapAnonymous = 0)
    (mapped : sysMmap p files length prot flags (some file) offset gap = some (q, va)) :
    ∃ page, va = page * pageSize ∧ Mapped p q files file length offset prot flags page := by
  unfold sysMmap at mapped
  by_cases empty : length = 0
  · rw [if_pos empty] at mapped
    cases mapped
  by_cases large : pageCount length = 0 ∨ mmapMaxPages < pageCount length
  · rw [if_neg empty, if_pos large] at mapped
    cases mapped
  rw [if_neg empty, if_neg large, if_neg fun anonymous => anonymous backed] at mapped
  cases gap with
  | none => cases mapped
  | some gap =>
    rw [not_or, not_lt] at large
    have some_page := Nat.pos_of_ne_zero large.1
    obtain ⟨rfl, rfl⟩ := Prod.mk.inj (Option.some.inj mapped)
    have pages : ∀ i < pageCount length, ((p.map gap).pages (gap.page + i)).isSome := by
      intro i less
      simp [Process.map, less]
    have others : ∀ n, (p.pages n).isSome → ((p.map gap).pages n).isSome := by
      intro n there
      simp only [Process.map]
      split
      · rfl
      · exact there
    refine ⟨gap.page, rfl, ⟨empty, some_page, gap.low, gap.high⟩, large.2, gap.free, pages, others, ?_, ?_, ?_⟩
    · intro mounted i less k low high
      have read := (load_memory files offset pages mounted (p.map gap).memory (Nat.le_refl _)).1 i less k low
      rw [if_pos high, Nat.add_mul] at read
      exact read
    · intro full
      obtain ⟨error, refused⟩ := vmmMapFile_full (mappingArea file gap.page length prot flags offset) full
      dsimp only
      erw [refused]
      rfl
    · intro free
      have some_byte : pageCount length * pageSize ≠ 0 := Nat.mul_ne_zero large.1 (by decide)
      obtain ⟨slot, inside, taken⟩ := vmmMapFile_free (mappingArea file gap.page length prot flags offset) free some_byte
      refine ⟨slot, inside, ?_⟩
      dsimp only
      erw [taken]

/-! ## Processes -/

/-- Every area of a process lies over pages that are mapped, and no two of them over one address. -/
structure Process.Held (p : Process) : Prop where
  mapped : ∀ area, some area ∈ p.pool → ∀ va, area.covers va = true → (p.pages (va / pageSize)).isSome
  once : ∀ {j k : Nat} {x y : VmArea} {va : Nat}, p.pool[j]? = some (some x) → p.pool[k]? = some (some y) → x.covers va = true → y.covers va = true → j = k

theorem Process.Held.only {p : Process} (held : p.Held) {x y : VmArea} {va : Nat} (first : some x ∈ p.pool) (second : some y ∈ p.pool)
    (here : x.covers va = true) (there : y.covers va = true) : x = y := by
  obtain ⟨j, first⟩ := List.mem_iff_getElem?.mp first
  obtain ⟨k, second⟩ := List.mem_iff_getElem?.mp second
  obtain rfl := held.once first second here there
  rw [first] at second
  exact Option.some.inj (Option.some.inj second)

/-- A process that has mapped what it likes, stored to its memory, and removed mappings of files as a whole. -/
inductive Reached : Process → Prop
  | start (pages : Nat → Option Nat) (memory : Bytes) :
    Reached { pool := List.replicate vmaMaxPerTask none, pages := pages, memory := memory }
  | mmap {p q : Process} {files : Nat → DiskFile} {length : UInt64} {prot flags : UInt32} {file : Option VfsFile} {offset : UInt64}
    {gap : Option (Gap p.pages (pageCount length))} {va : Nat} :
    Reached p → sysMmap p files length prot flags file offset gap = some (q, va) → Reached q
  | store {p : Process} (stores : List (Nat × UInt8)) : Reached p → Reached (p.store stores)
  | munmap {p q : Process} {area : VmArea} {files : Nat → DiskFile} {page : Nat} {length : UInt64} :
    Reached p → some area ∈ p.pool → area.start = page * pageSize → area.size = pageCount length * pageSize → InWindow length page →
    (sysMunmap p files (UInt64.ofNat (page * pageSize)) length).1 = .ok q → Reached q

/-! ## Writing back a mapping -/

variable {page : Nat}

theorem toNat_page (inside : InWindow length page) : (UInt64.ofNat (page * pageSize)).toNat = page * pageSize := by
  have high := inside.high
  rw [UInt64.toNat_ofNat']
  simp only [pageSize, mmuUserLimit] at *
  omega

theorem length_pages (inside : InWindow length page) :
    length.toNat + (pageSize - 1) < 2 ^ 64 ∧ pageCount length = (length.toNat + (pageSize - 1)) / pageSize := by
  have some_page := inside.some_page
  have less := length.toNat_lt
  simp only [pageCount, pageSize] at *
  omega

theorem sysMsync_files (inside : InWindow length page) :
    (sysMsync p files (UInt64.ofNat (page * pageSize)) length).2 = (vmmMsync p files (page * pageSize) length.toNat).2 := by
  have start := toNat_page inside
  obtain ⟨some_length, some_page, low, high⟩ := inside
  have some_addr : UInt64.ofNat (page * pageSize) ≠ 0 := by
    intro zero
    rw [zero] at start
    rw [← start] at low
    cases low
  rw [sysMsync, if_neg (not_or.mpr ⟨some_addr, some_length⟩), start, if_neg]
  simp only [pageSize, mmuUserLimit] at *
  omega

theorem sysMunmap_eq (inside : InWindow length page) :
    sysMunmap p files (UInt64.ofNat (page * pageSize)) length =
      (.ok { p with
        pool := match (vmmUnmapRange p files (page * pageSize)).1 with | .ok pool => pool | .error _ => p.pool
        pages := fun n => if page ≤ n ∧ n < page + pageCount length then none else p.pages n },
      (vmmUnmapRange p files (page * pageSize)).2) := by
  have start := toNat_page inside
  obtain ⟨fits, count⟩ := length_pages inside
  obtain ⟨some_length, some_page, low, high⟩ := inside
  have some_addr : UInt64.ofNat (page * pageSize) ≠ 0 := by
    intro zero
    rw [zero] at start
    rw [← start] at low
    cases low
  have within : ¬(page * pageSize < mmuUserBase ∨ mmuUserLimit ≤ page * pageSize) := by
    simp only [pageSize, mmuUserLimit] at *
    omega
  have bounded : ¬((page + pageCount length) * pageSize < page * pageSize ∨
      mmuUserLimit < (page + pageCount length) * pageSize) :=
    not_or.mpr ⟨Nat.not_lt.mpr (Nat.mul_le_mul_right _ (Nat.le_add_right _ _)), Nat.not_lt.mpr high⟩
  have last : (UInt64.ofNat (page * pageSize) + length + UInt64.ofNat (pageSize - 1)).toNat / pageSize * pageSize =
      (page + pageCount length) * pageSize := by
    rw [UInt64.toNat_add, UInt64.toNat_add, start, UInt64.toNat_ofNat', count]
    simp only [pageSize, mmuUserLimit] at *
    omega
  have aligned : ¬page * pageSize % pageSize ≠ 0 := by
    rw [Nat.mul_mod_left]
    exact fun nonzero => nonzero rfl
  have grows : (page + pageCount length) * pageSize ≠ page * pageSize :=
    Nat.ne_of_gt (Nat.mul_lt_mul_of_pos_right (by omega) (by decide))
  have first_page : page * pageSize / pageSize = page := Nat.mul_div_cancel _ (by decide)
  have last_page : (page + pageCount length) * pageSize / pageSize = page + pageCount length :=
    Nat.mul_div_cancel _ (by decide)
  simp only [sysMunmap, last, start, if_neg (not_or.mpr ⟨some_addr, some_length⟩), if_neg within, if_neg aligned,
    if_neg bounded, if_neg grows, first_page, last_page]
  all_goals rfl

theorem writeBack_whole (inside : InWindow length page) (start : area.start = page * pageSize)
    (pages : ∀ i < pageCount length, (p.pages (page + i)).isSome) {last : Nat} (low : page * pageSize + length.toNat ≤ last)
    (high : last ≤ (page + pageCount length) * pageSize) :
    writeBack p area files area.start last area.file.node =
      (List.range (pageCount length)).foldl (writePage area.file area.fileOffset p.memory area.start) (files area.file.node) := by
  obtain ⟨fits, count⟩ := length_pages inside
  have whole : (last - area.start + (pageSize - 1)) / pageSize = pageCount length := by
    rw [start]
    simp only [pageSize] at *
    omega
  rw [writeBack, whole]
  refine writeBack_node p area files _ (fun i less => ?_) (Nat.le_refl _)
  rw [start, ← Nat.add_mul]
  exact mmuSpaceResolvePtr_page (pages i less)

theorem Sync.files_area (sync : Sync) (files : Nat → DiskFile) (inside : InWindow length page) (mem : some area ∈ p.pool)
    (only : ∀ other, some other ∈ p.pool → other.covers (page * pageSize) = true → other = area)
    (start : area.start = page * pageSize) (size : area.size = pageCount length * pageSize)
    (synced : ¬(area.flags &&& vmaFlagShared = 0 ∨ area.flags &&& vmaFlagWrite = 0))
    (pages : ∀ i < pageCount length, (p.pages (page + i)).isSome) :
    sync.files p files (UInt64.ofNat (page * pageSize)) length area.file.node =
      (List.range (pageCount length)).foldl (writePage area.file area.fileOffset p.memory area.start) (files area.file.node) := by
  obtain ⟨fits, count⟩ := length_pages inside
  have some_page := inside.some_page
  have high : page * pageSize + pageCount length * pageSize ≤ mmuUserLimit := Nat.add_mul _ _ _ ▸ inside.high
  have limit : mmuUserLimit < 2 ^ 64 := by decide
  have length_le : length.toNat ≤ pageCount length * pageSize := by
    simp only [pageSize] at *
    omega
  have some_length : length.toNat ≠ 0 := fun zero => inside.some_length (UInt64.toNat_inj.mp zero)
  have covers : area.covers (page * pageSize) = true := by
    have some_byte : 0 < pageCount length * pageSize := Nat.mul_pos some_page (by decide)
    simp only [VmArea.covers, start, size, Bool.and_eq_true, decide_eq_true_eq]
    omega
  have found : vmmFind p.pool area.start = some area := by
    rw [start]
    exact vmmFind_only mem covers only
  cases sync with
  | msync =>
    rw [Sync.files, sysMsync_files inside, ← start, vmmMsync_files found synced some_length, size, start,
      Nat.mod_eq_of_lt (by omega), ← start]
    refine writeBack_whole inside start pages ?_ ?_
    · omega
    · rw [Nat.add_mul]
      omega
  | munmap =>
    rw [Sync.files, sysMunmap_eq inside, vmmUnmapRange_files mem covers only,
      vmmMsync_files found synced (by rw [size]; exact Nat.mul_ne_zero some_page.ne' (by decide)), size, start,
      Nat.mod_eq_of_lt (by omega), ← start]
    refine writeBack_whole inside start pages ?_ ?_
    · omega
    · rw [Nat.add_mul]
      omega

theorem Sync.files_none (sync : Sync) (inside : InWindow length page)
    (apart : ∀ other, some other ∈ p.pool → other.covers (page * pageSize) = false) :
    sync.files p files (UInt64.ofNat (page * pageSize)) length = files := by
  cases sync with
  | msync =>
    rw [Sync.files, sysMsync_files inside, vmmMsync, vmmFind_none apart]
    split <;> rfl
  | munmap => rw [Sync.files, sysMunmap_eq inside, vmmUnmapRange_none apart]

/-! ## What processes reach -/

theorem covers_page {page count : Nat} (start : area.start = page * pageSize) (size : area.size = count * pageSize) :
    area.covers va = true ↔ page ≤ va / pageSize ∧ va / pageSize < page + count := by
  simp only [VmArea.covers, start, size, Bool.and_eq_true, decide_eq_true_eq, pageSize]
  omega

theorem Mapped.held {page : Nat} (mapped : Mapped p q files file length offset prot flags page) (held : p.Held) : q.Held := by
  by_cases free : none ∈ p.pool
  · obtain ⟨slot, inside, pool⟩ := mapped.registered free
    have new {va : Nat} := @covers_page (mappingArea file page length prot flags offset) va page (pageCount length) rfl rfl
    -- No area was over the pages before, as none of them was mapped.
    have apart : ∀ x, some x ∈ p.pool → ∀ va, x.covers va = true →
        (mappingArea file page length prot flags offset).covers va = true → False := by
      intro x mem va covers here
      obtain ⟨low, high⟩ := new.mp here
      have there := held.mapped x mem va covers
      rw [mapped.free _ low high] at there
      cases there
    refine ⟨fun x mem va covers => ?_, fun {j k x y va} first second here there => ?_⟩
    · rw [pool] at mem
      rcases List.mem_or_eq_of_mem_set mem with old | same
      · exact mapped.others _ (held.mapped x old va covers)
      · cases same
        obtain ⟨low, high⟩ := new.mp covers
        have page_mapped := mapped.pages (va / pageSize - page) (by omega)
        rwa [Nat.add_sub_cancel' low] at page_mapped
    · rw [pool, List.getElem?_set] at first second
      split at first
      · rename_i same
        split at second
        · rename_i same'
          exact same.symm.trans same'
        · cases first
          exact (apart y (List.mem_of_getElem? second) va there here).elim
      · split at second
        · cases second
          exact (apart x (List.mem_of_getElem? first) va here there).elim
        · exact held.once first second here there
  · have pool := mapped.full free
    refine ⟨fun x mem va covers => ?_, fun first second => ?_⟩
    · rw [pool] at mem
      exact mapped.others _ (held.mapped x mem va covers)
    · rw [pool] at first second
      exact held.once first second

theorem Process.Held.map (held : p.Held) {count : Nat} (gap : Gap p.pages count) : (p.map gap).Held where
  mapped area mem va covers := by
    simp only [Process.map]
    split
    · rfl
    · exact held.mapped area mem va covers
  once := held.once

theorem sysMmap_held {file : Option VfsFile} {gap : Option (Gap p.pages (pageCount length))} (held : p.Held)
    (mapped : sysMmap p files length prot flags file offset gap = some (q, va)) : q.Held := by
  by_cases backed : flags &&& mapAnonymous = 0
  · cases file with
    | none =>
      unfold sysMmap at mapped
      split_ifs at mapped
      exact absurd backed ‹_›
    | some file =>
      obtain ⟨page, _, mapped⟩ := sysMmap_mapped backed mapped
      exact mapped.held held
  · unfold sysMmap at mapped
    rw [if_pos backed] at mapped
    split_ifs at mapped
    obtain ⟨gap, _, made⟩ := Option.map_eq_some_iff.mp mapped
    obtain ⟨rfl, _⟩ := Prod.mk.inj made
    exact held.map gap

theorem sysMunmap_held {page : Nat} (held : p.Held) (mem : some area ∈ p.pool) (start : area.start = page * pageSize)
    (size : area.size = pageCount length * pageSize) (inside : InWindow length page)
    (removed : (sysMunmap p files (UInt64.ofNat (page * pageSize)) length).1 = .ok q) : q.Held := by
  have whole {va : Nat} := @covers_page area va page (pageCount length) start size
  have some_page := inside.some_page
  have covers : area.covers (page * pageSize) = true := by
    rw [whole, Nat.mul_div_cancel _ (by decide)]
    omega
  obtain ⟨slot, there, pool⟩ := vmmUnmapRange_pool files mem covers fun other other_mem here => held.only other_mem mem here covers
  rw [sysMunmap_eq inside, pool] at removed
  obtain rfl := Except.ok.inj removed
  have old {j : Nat} {x : VmArea} (first : (p.pool.set slot none)[j]? = some (some x)) : j ≠ slot ∧ p.pool[j]? = some (some x) := by
    rw [List.getElem?_set] at first
    split at first
    · split at first <;> cases first
    · rename_i other
      exact ⟨Ne.symm other, first⟩
  refine ⟨fun x mem' va here => ?_, fun first second => held.once (old first).2 (old second).2⟩
  obtain ⟨j, first⟩ := List.mem_iff_getElem?.mp mem'
  obtain ⟨other, first⟩ := old first
  have mapped := held.mapped x (List.mem_of_getElem? first) va here
  -- A page that goes is one of the area that goes, so no other area is over it.
  have stays : ¬(page ≤ va / pageSize ∧ va / pageSize < page + pageCount length) :=
    fun gone => other (held.once first there here (whole.mpr gone))
  simpa only [if_neg stays] using mapped

theorem Reached.held (reached : Reached p) : p.Held := by
  induction reached with
  | start pages memory =>
    refine ⟨fun area mem => ?_, fun {j k x y va} first => ?_⟩
    · cases List.eq_of_mem_replicate mem
    · cases List.eq_of_mem_replicate (List.mem_of_getElem? first)
  | mmap _ mapped held => exact sysMmap_held held mapped
  | store stores _ held => exact ⟨held.mapped, held.once⟩
  | munmap _ mem start size inside removed held => exact sysMunmap_held held mem start size inside removed

/-! ## Shared mappings -/

theorem Mapped.effect (mapped : Mapped p q files file length offset prot flags page) (held : p.Held) (shared : flags &&& mapShared ≠ 0)
    (writes : prot &&& protWrite ≠ 0) (stores : List (Nat × UInt8)) (sync : Sync) :
    Effect p.pool (files file.node) (sync.files (q.store stores) files (UInt64.ofNat (page * pageSize)) length file.node) file offset
      (page * pageSize) (q.store stores).memory (pageCount length) := by
  have first : ∀ {other : VmArea}, some other ∈ p.pool → other.covers (page * pageSize) = false := by
    intro other mem
    by_contra covers
    have there := held.mapped other mem _ (eq_true_of_ne_false covers)
    rw [Nat.mul_div_cancel _ (by decide), mapped.free page (Nat.le_refl _) (Nat.lt_add_of_pos_right mapped.some_page)] at there
    cases there
  by_cases free : none ∈ p.pool
  · obtain ⟨slot, inside, pool⟩ := mapped.registered free
    have pool : (q.store stores).pool = p.pool.set slot (some (mappingArea file page length prot flags offset)) := pool
    have mem : some (mappingArea file page length prot flags offset) ∈ (q.store stores).pool := by
      rw [pool]
      exact List.mem_set inside _
    have only : ∀ other, some other ∈ (q.store stores).pool → other.covers (page * pageSize) = true →
        other = mappingArea file page length prot flags offset := by
      intro other there covers
      rw [pool] at there
      rcases List.mem_or_eq_of_mem_set there with old | same
      · rw [first old] at covers
        cases covers
      · exact Option.some.inj same
    have synced := Sync.files_area sync files mapped.toInWindow mem only rfl rfl (areaFlags_shared shared writes) mapped.pages
    exact synced ▸ Effect.registered free mapped.bound
  · have pool : (q.store stores).pool = p.pool := mapped.full free
    rw [Sync.files_none sync mapped.toInWindow fun other mem => first (pool ▸ mem)]
    exact Effect.unregistered free

theorem pageKept_inside {f : DiskFile} {pool : List (Option VmArea)} {count i : Nat} (free : none ∈ pool) (mounted : file.mounted = true)
    (may_write : file.writes = true) (appends : file.appends = false) (inside : offset.toNat + count * pageSize ≤ f.size) (less : i < count) :
    PageKept pool f file offset va stores i := by
  have fits := f.fits
  have counted := f.counted
  have here : place f file offset i = offset.toNat + i * pageSize := by
    rw [place_eq appends]
    simp only [pageSize] at *
    omega
  have lands : PageLands pool f file offset i := by
    refine ⟨free, mounted, may_write, ?_⟩
    rw [here]
    simp only [pageSize] at *
    omega
  refine ⟨fun _ => ?_, fun _ wraps => ?_, fun misses => absurd lands misses⟩
  · rw [here]
    simp only [pageSize] at *
    omega
  · simp only [pageSize] at *
    omega

end

/-! ## Runs -/

/-- A file of so many zeros. -/
def zeros (size : Nat) (fits : size ≤ 65536) : DiskFile :=
  { size := size, data := fun _ => 0, capacity := 65536, fits := fits, counted := by decide }

/-- A process with nothing mapped. -/
def emptyProcess : Process := { pool := List.replicate vmaMaxPerTask none, pages := fun _ => none, memory := fun _ => 0 }

/-- The first page of its window. -/
def firstGap : Gap emptyProcess.pages (pageCount 4096) where
  page := mmuUserBase / pageSize
  frames n := n
  low := by decide
  high := by decide
  free _ _ _ := rfl

/-- A handle for reading and writing. -/
def rdwrFile : VfsFile := { mounted := true, node := 0, flags := oRdwr, pos := 0 }

end Enlil.Vmm
