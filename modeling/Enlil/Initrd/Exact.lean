import Enlil.Initrd.Parser

/-! The table of a well-formed archive: its records in their order, or none where a directory does not come first. -/

namespace Enlil.Initrd

open Newc (slice slice_append slice_slice padded Record Archive)
open Vfs (isDir)

/-- A name that a node can have. -/
def Relative (name : List UInt8) : Prop := name ≠ [] ∧ name.head? ≠ some slash ∧ name.getLast? ≠ some slash

/-- A record that the parser's arithmetic has room for. -/
def Fits (record : Record) : Prop := Relative record.name ∧ record.bytes.length < 2 ^ 32

/-- The first record with a name. -/
def place (records : List Record) (path : List UInt8) : Option Nat := records.findIdx? (·.name == path)

/-- A record whose directory comes before it, if it has one. -/
def Placed (before : List Record) (record : Record) : Prop :=
  ∀ path base, record.name = path ++ slash :: base → slash ∉ base →
    ∃ index directory, place before path = some index ∧ before[index]? = some directory ∧
      isDir (UInt32.ofNat directory.mode) = true

/-- Records that each come after their directories. -/
def Rooted (records : List Record) : Prop :=
  ∀ index record, records[index]? = some record → Placed (records.take index) record

/-- The node of a record. -/
structure Holds (blob : List UInt8) (entry : Entry) (record : Record) : Prop where
  name : cString blob entry.name = record.name
  data : slice blob entry.data entry.size.toNat = record.data
  size : entry.size.toNat = record.data.length
  mode : entry.mode.toNat = record.mode

/-- The parent of a record is the root, or the first record before it with the name of its directory. -/
def ParentOf (before : List Record) (record : Record) (parent : UInt16) : Prop :=
  (slash ∉ record.name → parent = initrdParentRoot) ∧
    ∀ path base, record.name = path ++ slash :: base → slash ∉ base →
      ∃ index, place before path = some index ∧ parent = UInt16.ofNat index

/-- A table with one node for each record, in their order. -/
structure Exact (blob : List UInt8) (entries : List Entry) (records : List Record) : Prop where
  holds : List.Forall₂ (Holds blob) entries records
  parents : ∀ index entry record, entries[index]? = some entry → records[index]? = some record →
    ParentOf (records.take index) record entry.parent

/-- What the parser reads at a record. -/
structure Fields (blob : List UInt8) (p : Nat) (record : Record) : Prop where
  magic : slice blob p 6 = Newc.magic
  mode : initrdParseHex (slice blob (p + 14) 8) = some (UInt32.ofNat record.mode)
  modeSmall : record.mode < 2 ^ 32
  filesize : initrdParseHex (slice blob (p + 54) 8) = some (UInt32.ofNat record.data.length)
  filesizeSmall : record.data.length < 2 ^ 32
  namesize : initrdParseHex (slice blob (p + 94) 8) = some (UInt32.ofNat (record.name.length + 1))
  namesizeSmall : record.name.length + 1 < 2 ^ 32
  name : slice blob (p + 110) record.name.length = record.name
  terminated : blob[p + 110 + record.name.length]? = some 0
  data : slice blob (p + record.dataStart) record.data.length = record.data
  inside : p + record.bytes.length ≤ blob.length

theorem slice_part {before middle after : List UInt8} {start count : Nat} (starts : start = before.length)
    (ends : count = middle.length) : slice (before ++ middle ++ after) start count = middle := by
  subst starts ends
  exact slice_append before middle after

theorem Fields.of_bytes (before after : List UInt8) (record : Record) :
    Fields (before ++ record.bytes ++ after) before.length record := by
  have full := record.headerFull
  have namePadded := record.namePadded
  unfold Newc.headerLength at full namePadded
  have header : slice (before ++ record.bytes ++ after) before.length 110 = record.header := by
    have split : before ++ record.bytes ++ after =
        before ++ record.header ++ (record.name ++ [0] ++ record.namePad ++ (record.data ++ record.dataPad) ++ after) := by
      simp [Record.bytes]
    rw [split]
    exact slice_part rfl full.symm
  have part : ∀ start count, start + count ≤ 110 →
      slice (before ++ record.bytes ++ after) (before.length + start) count = slice record.header start count := by
    intro start count fits
    rw [← header, slice_slice fits]
  have eight : ∀ start, start + 8 ≤ 110 → (slice record.header start 8).length = 8 :=
    fun start fits => slice_length (by omega)
  have digits : ∀ start value, start + 8 ≤ 110 → Newc.number (slice record.header start 8) = some value →
      initrdParseHex (slice (before ++ record.bytes ++ after) (before.length + start) 8) = some (UInt32.ofNat value) ∧
        value < 2 ^ 32 := by
    intro start value fits number
    obtain ⟨same, small⟩ := initrdParseHex_eq (by rw [eight start fits] : (slice record.header start 8).length ≤ 8)
    rw [part start 8 fits, same, number]
    have := small value number
    rw [eight start fits] at this
    exact ⟨rfl, by omega⟩
  have named : slice (before ++ record.bytes ++ after) (before.length + 110) record.name.length = record.name := by
    have split : before ++ record.bytes ++ after =
        (before ++ record.header) ++ record.name ++
          ([0] ++ record.namePad ++ (record.data ++ record.dataPad) ++ after) := by
      simp [Record.bytes]
    rw [split]
    exact slice_part (by rw [List.length_append, full]) rfl
  refine ⟨?_, (digits 14 _ (by omega) record.headerMode).1, (digits 14 _ (by omega) record.headerMode).2,
    (digits 54 _ (by omega) record.headerFileSize).1, (digits 54 _ (by omega) record.headerFileSize).2,
    (digits 94 _ (by omega) record.headerNameSize).1, (digits 94 _ (by omega) record.headerNameSize).2, named, ?_, ?_, ?_⟩
  · have := part 0 6 (by omega)
    rw [Nat.add_zero] at this
    rw [this, record.headerMagic]
  · have split : before ++ record.bytes ++ after =
        (before ++ record.header ++ record.name) ++
          (0 :: (record.namePad ++ (record.data ++ record.dataPad) ++ after)) := by
      simp [Record.bytes]
    rw [split, List.getElem?_append_right (by simp [full, Nat.add_assoc])]
    have : before.length + 110 + record.name.length - (before ++ record.header ++ record.name).length = 0 := by
      simp [full, Nat.add_assoc]
    rw [this, List.getElem?_cons_zero]
  · have split : before ++ record.bytes ++ after =
        (before ++ (record.header ++ (record.name ++ [0] ++ record.namePad))) ++ record.data ++
          (record.dataPad ++ after) := by
      simp [Record.bytes]
    rw [split]
    refine slice_part ?_ rfl
    unfold Record.dataStart Newc.headerLength
    rw [← namePadded]
    simp only [List.length_append, List.length_singleton, full]
    omega
  · simp only [List.length_append]
    omega

theorem Fields.string {blob : List UInt8} {p : Nat} {record : Record} (fields : Fields blob p record) :
    cString blob (p + 110) = record.name := by
  rw [cString_eq (by rw [fields.name]; exact record.nameText) fields.terminated, fields.name]

theorem findIdx?_holds {blob : List UInt8} {entries : List Entry} {records : List Record}
    (holds : List.Forall₂ (Holds blob) entries records) (path : List UInt8) :
    entries.findIdx? (fun entry => cString blob entry.name == path) = place records path := by
  unfold place
  induction holds with
  | nil => rfl
  | cons here _ ih => rw [List.findIdx?_cons, List.findIdx?_cons, here.name, ih]

theorem initrdParentFromName_flat {blob : List UInt8} {entries : List Entry} {name : List UInt8} (flat : slash ∉ name) :
    initrdParentFromName blob entries name = .root := by
  unfold initrdParentFromName
  rw [lastSlash_flat flat]

theorem initrdParentFromName_split {blob : List UInt8} {entries : List Entry} {records : List Record}
    {path base : List UInt8} (named : ∀ entry ∈ entries, entry.Named blob)
    (holds : List.Forall₂ (Holds blob) entries records) (proper : path ≠ []) (flat : slash ∉ base) :
    initrdParentFromName blob entries (path ++ slash :: base) =
      match place records path with
      | none => .missing
      | some index => .entry index := by
  unfold initrdParentFromName
  rw [lastSlash_split flat]
  cases length : path.length with
  | zero => exact absurd (List.length_eq_zero_iff.mp length) proper
  | succ n =>
    simp only
    rw [← length, List.take_left, initrdFindEntryExact_eq named]
    cases found : place records path <;> simp only [findIdx?_holds holds, found]

theorem place_lt {records : List Record} {path : List UInt8} {index : Nat} (found : place records path = some index) :
    index < records.length :=
  (List.findIdx?_eq_some_iff_getElem.mp found).1

/-- The node of a record at a place. -/
def nodeAt (p : Nat) (record : Record) (parent : UInt16) : Entry :=
  { name := p + 110, data := p + record.dataStart, mode := UInt32.ofNat record.mode,
    size := UInt32.ofNat record.data.length, parent, nameLen := UInt16.ofNat record.name.length, valid := true }

theorem initrdParseRecord_trailer {blob : List UInt8} {entries : List Entry} {p : Nat} {record : Record}
    (fields : Fields blob p record) (trailer : record.name = Newc.trailerName) :
    initrdParseRecord blob entries p = .ok none := by
  have ten : record.name.length = 10 := by rw [trailer]; rfl
  have inside := fields.inside
  rw [Record.bytes_length, Record.dataStart, ten] at inside
  have bound := fields.filesizeSmall
  have namesize : (UInt32.ofNat (record.name.length + 1)) = 11 := by rw [ten]; rfl
  have aligned : (initrdAlign4 (cpioHeaderLen + 11)).toNat = 124 := by decide
  have size : (UInt32.ofNat record.data.length).toNat = record.data.length := by
    rw [UInt32.toNat_ofNat', Nat.mod_eq_of_lt bound]
  have starts : padded (Newc.headerLength + (10 + 1)) = 124 := by decide
  have ended := fields.terminated
  rw [ten] at ended
  have string := fields.string
  unfold initrdParseRecord
  rw [if_neg (not_not.mpr fields.magic), fields.mode, fields.filesize, fields.namesize]
  simp only
  have header : cpioHeaderLen.toNat = 110 := rfl
  have eleven : (11 : UInt32).toNat = 11 := rfl
  have length : record.data.length ≤ padded record.data.length := by unfold padded; omega
  rw [namesize, aligned, size, header, eleven]
  rw [if_neg (by rw [not_or]; exact ⟨by decide, by omega⟩), if_neg (not_not.mpr (by rw [← ended]; rfl)),
    if_neg (by omega), if_pos (string.trans trailer)]

/-- What becomes of a record that passes every check but those of its directory. -/
def underParent (entries : List Entry) (p : Nat) (record : Record) : Found → Except Refusal (Option (Entry × Nat))
  | .missing => .error .parentMissing
  | .root => .ok (some (nodeAt p record initrdParentRoot, p + record.bytes.length))
  | .entry index =>
    if (entries[index]?.map (isDir ·.mode)) = some true then
      .ok (some (nodeAt p record (UInt16.ofNat index), p + record.bytes.length))
    else .error .parentNotDirectory

theorem initrdParseRecord_record {blob : List UInt8} {entries : List Entry} {records : List Record} {p : Nat}
    {record : Record} (fields : Fields blob p record) (fits : Fits record) (other : record.name ≠ Newc.trailerName)
    (named : ∀ entry ∈ entries, entry.Named blob) (holds : List.Forall₂ (Holds blob) entries records)
    (room : entries.length < initrdMaxEntries) :
    (Placed records record → ∃ entry, initrdParseRecord blob entries p = .ok (some (entry, p + record.bytes.length)) ∧
      Holds blob entry record) ∧
    (¬Placed records record → ∃ refusal, initrdParseRecord blob entries p = .error refusal) := by
  obtain ⟨⟨some_, head, last⟩, short⟩ := fits
  rw [Record.bytes_length] at short
  have inside := fields.inside
  rw [Record.bytes_length] at inside
  have starts : record.dataStart = padded (110 + (record.name.length + 1)) := rfl
  have lower : 110 + (record.name.length + 1) ≤ record.dataStart := by rw [starts, padded]; omega
  have lengths : record.data.length ≤ padded record.data.length := by unfold padded; omega
  -- Every sum of the header's numbers is below the width of its type.
  have namesize : (UInt32.ofNat (record.name.length + 1)).toNat = record.name.length + 1 := by
    rw [UInt32.toNat_ofNat', Nat.mod_eq_of_lt fields.namesizeSmall]
  have filesize : (UInt32.ofNat record.data.length).toNat = record.data.length := by
    rw [UInt32.toNat_ofNat', Nat.mod_eq_of_lt fields.filesizeSmall]
  have sum : (cpioHeaderLen + UInt32.ofNat (record.name.length + 1)).toNat = 110 + (record.name.length + 1) := by
    rw [UInt32.toNat_add, namesize]
    exact Nat.mod_eq_of_lt (by show 110 + (record.name.length + 1) < 2 ^ 32; omega)
  have dataStart : (initrdAlign4 (cpioHeaderLen + UInt32.ofNat (record.name.length + 1))).toNat = record.dataStart := by
    have multiple : record.dataStart % 4 = 0 := by rw [starts, padded]; omega
    have dataMultiple : padded record.data.length % 4 = 0 := by rw [padded]; omega
    rw [initrdAlign4_toNat, sum, starts]
    rw [sum]
    omega
  have next : (initrdAlign4 (initrdAlign4 (cpioHeaderLen + UInt32.ofNat (record.name.length + 1)) +
      UInt32.ofNat record.data.length)).toNat = record.bytes.length := by
    have multiple : record.dataStart % 4 = 0 := by rw [starts, padded]; omega
    have dataMultiple : padded record.data.length % 4 = 0 := by rw [padded]; omega
    have wide : (initrdAlign4 (cpioHeaderLen + UInt32.ofNat (record.name.length + 1)) +
        UInt32.ofNat record.data.length).toNat = record.dataStart + record.data.length := by
      rw [UInt32.toNat_add, dataStart, filesize]
      exact Nat.mod_eq_of_lt (by omega)
    rw [initrdAlign4_toNat, wide, Record.bytes_length]
    · unfold padded
      omega
    · rw [wide]
      unfold padded at short dataMultiple
      omega
  have header : cpioHeaderLen.toNat = 110 := rfl
  have valid : initrdValidateName record.name = true := by
    unfold initrdValidateName
    simp [some_, head, last, record.nameText]
  have string := fields.string
  -- The record passes every check but those of its directory.
  have read : initrdParseRecord blob entries p =
      underParent entries p record (initrdParentFromName blob entries record.name) := by
    unfold initrdParseRecord
    rw [if_neg (not_not.mpr fields.magic), fields.mode, fields.filesize, fields.namesize]
    simp only
    rw [dataStart, next, filesize, namesize, header]
    have nonzero : UInt32.ofNat (record.name.length + 1) ≠ 0 := by
      intro zero
      rw [zero] at namesize
      cases namesize
    rw [if_neg (by rw [not_or]; exact ⟨nonzero, by omega⟩),
      if_neg (not_not.mpr (by rw [← fields.terminated]; congr 1)), if_neg (by omega),
      if_neg (by rw [string]; exact other), if_neg (by omega), Nat.add_sub_cancel, fields.name,
      if_neg (not_not.mpr valid)]
    rfl
  have holding : ∀ parent, Holds blob (nodeAt p record parent) record := by
    intro parent
    refine ⟨string, ?_, filesize, ?_⟩
    · show slice blob (p + record.dataStart) (UInt32.ofNat record.data.length).toNat = _
      rw [filesize, fields.data]
    · show (UInt32.ofNat record.mode).toNat = _
      rw [UInt32.toNat_ofNat', Nat.mod_eq_of_lt fields.modeSmall]
  by_cases flat : slash ∉ record.name
  · -- A name without a slash needs no directory.
    have rootless : ∀ path base, record.name ≠ path ++ slash :: base := by
      intro path base equal
      rw [equal] at flat
      simp at flat
    rw [initrdParentFromName_flat flat] at read
    refine ⟨fun _ => ⟨_, read, holding _⟩,
      fun unplaced => absurd (fun path base equal => absurd equal (rootless path base)) unplaced⟩
  · obtain ⟨path, base, equal, baseFlat⟩ := exists_split (not_not.mp flat)
    have proper : path ≠ [] := by
      rintro rfl
      rw [equal] at head
      exact head rfl
    have unique : ∀ path' base', record.name = path' ++ slash :: base' → slash ∉ base' → path' = path := by
      intro path' base' equal' flat'
      have length := @lastSlash_split path' _ flat'
      rw [← equal', equal, lastSlash_split baseFlat, Option.some.injEq] at length
      exact ((List.append_inj (equal'.symm.trans equal) length.symm).1)
    have search := initrdParentFromName_split named holds proper baseFlat
    rw [← equal] at search
    rw [search] at read
    cases found : place records path with
    | none =>
      rw [found] at read
      refine ⟨fun placed => ?_, fun _ => ⟨_, read⟩⟩
      obtain ⟨index, directory, here, -⟩ := placed path base equal baseFlat
      rw [found] at here
      cases here
    | some index =>
      rw [found] at read
      simp only [underParent] at read
      have below := place_lt found
      have same := holds.length_eq
      have pair := List.forall₂_iff_get.mp holds
      have mode : entries[index]?.map (isDir ·.mode) = records[index]?.map fun record =>
          isDir (UInt32.ofNat record.mode) := by
        rw [List.getElem?_eq_getElem (by omega), List.getElem?_eq_getElem below]
        have kept := (pair.2 index (by omega) below).mode
        simp only [List.get_eq_getElem] at kept
        rw [Option.map_some, Option.map_some, ← kept, UInt32.ofNat_toNat]
      rw [mode] at read
      refine ⟨fun placed => ?_, fun unplaced => ?_⟩
      · obtain ⟨index', directory, here, held, dir⟩ := placed path base equal baseFlat
        rw [found] at here
        cases here
        rw [held, Option.map_some, dir, if_pos rfl] at read
        exact ⟨_, read, holding _⟩
      · rw [if_neg] at read
        · exact ⟨_, read⟩
        · intro dir
          obtain ⟨directory, held, isDirectory⟩ := Option.map_eq_some_iff.mp dir
          refine unplaced fun path' base' equal' flat' => ?_
          rw [unique path' base' equal' flat']
          exact ⟨index, directory, found, held, isDirectory⟩

theorem Exact.of_sound {blob : List UInt8} {entries : List Entry} {records : List Record} (sound : Sound blob entries)
    (holds : List.Forall₂ (Holds blob) entries records) : Exact blob entries records := by
  refine ⟨holds, fun index entry record held recorded => ?_⟩
  have linked := sound.linked index entry held
  obtain ⟨here, same⟩ := List.getElem?_eq_some_iff.mp held
  obtain ⟨there, same'⟩ := List.getElem?_eq_some_iff.mp recorded
  have pair := (List.forall₂_iff_get.mp holds).2 index here there
  simp only [List.get_eq_getElem, same, same'] at pair
  rw [pair.name] at linked
  refine ⟨linked.1, fun path base equal flat => ?_⟩
  obtain ⟨place, found, parent⟩ := linked.2 path base equal flat
  rw [findIdx?_holds (List.forall₂_take index holds)] at found
  exact ⟨place, found, parent⟩

theorem initrdParseLoop_archive {archive : Archive} (done rest : List Record) {entries : List Entry} {turns : Nat}
    (whole : archive.records = done ++ rest) (fits : ∀ record ∈ rest, Fits record)
    (few : archive.records.length ≤ initrdMaxEntries) (sound : Sound archive.bytes entries)
    (holds : List.Forall₂ (Holds archive.bytes) entries done) (rooted : Rooted done) (enough : rest.length < turns) :
    ∃ table refusal, initrdParseLoop archive.bytes turns (done.flatMap Record.bytes).length entries = some (table, refusal) ∧
      (refusal = none ↔ Rooted archive.records) ∧ (refusal = none → Exact archive.bytes table archive.records) := by
  induction rest generalizing done entries turns with
  | nil =>
    -- What follows the records is the one that ends them.
    obtain ⟨turns, rfl⟩ : ∃ fewer, turns = fewer + 1 := ⟨turns - 1, by rw [List.length_nil] at enough; omega⟩
    rw [List.append_nil] at whole
    have fields := Fields.of_bytes (archive.records.flatMap Record.bytes) archive.rest archive.trailer
    have inside := fields.inside
    rw [Record.bytes_length, Record.dataStart, padded, Newc.headerLength] at inside
    rw [← whole] at rooted holds ⊢
    refine ⟨entries, none, ?_, ⟨fun _ => rooted, fun _ => rfl⟩, fun _ => Exact.of_sound sound holds⟩
    unfold initrdParseLoop
    rw [if_pos (by show _ + 110 ≤ _; unfold Archive.bytes; omega)]
    unfold Archive.bytes
    rw [initrdParseRecord_trailer fields archive.trailerNamed]
  | cons record rest ih =>
    obtain ⟨turns, rfl⟩ : ∃ fewer, turns = fewer + 1 := ⟨turns - 1, by rw [List.length_cons] at enough; omega⟩
    have split : archive.bytes = done.flatMap Record.bytes ++ record.bytes ++
        (rest.flatMap Record.bytes ++ archive.trailer.bytes ++ archive.rest) := by
      unfold Archive.bytes
      rw [whole]
      simp
    have fields := Fields.of_bytes (done.flatMap Record.bytes)
      (rest.flatMap Record.bytes ++ archive.trailer.bytes ++ archive.rest) record
    rw [← split] at fields
    have inside := fields.inside
    rw [Record.bytes_length, Record.dataStart, padded, Newc.headerLength] at inside
    have room : entries.length < initrdMaxEntries := by
      have := holds.length_eq
      rw [whole, List.length_append, List.length_cons] at few
      omega
    have other := archive.named record (by rw [whole]; simp)
    obtain ⟨taken, refused⟩ :=
      initrdParseRecord_record fields (fits record (by simp)) other sound.named holds room
    unfold initrdParseLoop
    rw [if_pos (by show _ + 110 ≤ _; omega)]
    by_cases placed : Placed done record
    · obtain ⟨entry, read, holding⟩ := taken placed
      rw [read]
      have length : (done.flatMap Record.bytes).length + record.bytes.length =
          ((done ++ [record]).flatMap Record.bytes).length := by simp
      simp only [length]
      refine ih (done ++ [record]) (by rw [whole]; simp) (fun other member => fits other (by simp [member]))
        (sound.add (initrdParseRecord_taken sound.named read)) ?_ ?_ (by rw [List.length_cons] at enough; omega)
      · exact List.rel_append holds (List.forall₂_cons.mpr ⟨holding, .nil⟩)
      · intro index last held
        by_cases old : index < done.length
        · rw [List.getElem?_append_left old] at held
          rw [List.take_append_of_le_length (by omega)]
          exact rooted index last held
        · rw [List.getElem?_append_right (by omega)] at held
          obtain ⟨here, same⟩ := List.getElem?_eq_some_iff.mp held
          rw [List.length_singleton] at here
          have end_ : index = done.length := by omega
          subst end_
          simp only [Nat.sub_self, List.getElem_cons_zero] at same
          rw [List.take_left]
          exact same ▸ placed
    · obtain ⟨refusal, read⟩ := refused placed
      rw [read]
      refine ⟨entries, some refusal, rfl, ⟨by rintro ⟨⟩, fun all => absurd ?_ placed⟩, by rintro ⟨⟩⟩
      have here := all done.length record (by rw [whole, List.getElem?_append_right (Nat.le_refl _)]; simp)
      rwa [whole, List.take_left] at here

end Enlil.Initrd
