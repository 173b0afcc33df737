import Enlil.Initrd.Exact

/-! What reading a directory gives: each of its children once, in the order of the archive. -/

namespace Enlil.Initrd

open Newc (slice slice_append slice_slice padded Record Archive)
open Vfs (Errno isDir)

/-- What is left of a name below a directory, which is the root for no name. -/
def baseIn (directory name : List UInt8) : Option (List UInt8) :=
  if directory = [] then (if slash ∈ name then none else some name)
  else if (directory ++ [slash]).isPrefixOf name ∧ slash ∉ name.drop (directory.length + 1) then
    some (name.drop (directory.length + 1))
  else none

theorem baseIn_eq_some {directory name base : List UInt8} (proper : directory ≠ []) :
    baseIn directory name = some base ↔ name = directory ++ slash :: base ∧ slash ∉ base := by
  unfold baseIn
  rw [if_neg proper]
  constructor
  · intro below
    split at below
    · rename_i here
      cases below
      obtain ⟨rest, equal⟩ := List.isPrefixOf_iff_prefix.mp here.1
      have left : name.drop (directory.length + 1) = rest := by
        rw [← equal]
        have : (directory ++ [slash]).length = directory.length + 1 := by simp
        rw [← this, List.drop_left]
      rw [left]
      refine ⟨by rw [← equal]; simp, left ▸ here.2⟩
    · cases below
  · rintro ⟨rfl, flat⟩
    have left : (directory ++ slash :: base).drop (directory.length + 1) = base := by simp
    have here : (directory ++ [slash]).isPrefixOf (directory ++ slash :: base) = true :=
      List.isPrefixOf_iff_prefix.mpr ⟨base, by simp⟩
    rw [left, if_pos ⟨here, flat⟩]

/-- The results of reading a directory some number of times. -/
def listing (blob : List UInt8) (s : State) : Nat → VfsFile → List (Except Errno Dirent)
  | 0, _ => []
  | calls + 1, file =>
    (initrdReaddir blob s file).2 :: listing blob s calls (initrdReaddir blob s file).1

/-- The directory entry of a node. -/
def direntOf (blob : List UInt8) (entry : Entry) : Dirent :=
  initrdDirentFill blob (initrdChildName blob entry) entry.mode

def childrenFrom (entries : List Entry) (parent : UInt16) (dirIndex : Nat) : List (Entry × Nat) :=
  (entries.zipIdx.drop dirIndex).filter fun child => child.1.valid && child.1.parent == parent

theorem nextChild_some {entries : List Entry} {parent : UInt16} {dirIndex index : Nat} {entry : Entry}
    (found : nextChild entries parent dirIndex = some (index, entry)) :
    childrenFrom entries parent dirIndex = (entry, index) :: childrenFrom entries parent (index + 1) := by
  unfold nextChild at found
  obtain ⟨child, search, same⟩ := Option.map_eq_some_iff.mp found
  have pair : child = (entry, index) := Prod.swap_injective same
  rw [pair] at search
  obtain ⟨holds, before, after, split, none⟩ := List.find?_eq_some_iff_append.mp search
  have here : entries.zipIdx[dirIndex + before.length]? = some (entry, index) := by
    rw [← List.getElem?_drop, split, List.getElem?_append_right (Nat.le_refl _)]
    simp
  have place : index = dirIndex + before.length := by
    rw [List.getElem?_zipIdx] at here
    obtain ⟨_, -, same⟩ := Option.map_eq_some_iff.mp here
    exact ((Prod.mk.inj same).2.symm).trans (Nat.zero_add _)
  have rest : entries.zipIdx.drop (index + 1) = after := by
    have : (entries.zipIdx.drop dirIndex).drop (before.length + 1) = after := by
      rw [split]
      simp
    rw [← this, List.drop_drop, place]
    congr 1
  unfold childrenFrom
  rw [rest, split, List.filter_append, List.filter_cons_of_pos (by simpa using holds)]
  rw [List.filter_eq_nil_iff.mpr (fun other member => by simpa [imp_iff_not_or] using none other member),
    List.nil_append]

theorem nextChild_none {entries : List Entry} {parent : UInt16} {dirIndex : Nat}
    (found : nextChild entries parent dirIndex = none) : childrenFrom entries parent dirIndex = [] := by
  unfold nextChild at found
  rw [Option.map_eq_none_iff, List.find?_eq_none] at found
  exact List.filter_eq_nil_iff.mpr found

theorem initrdDirectory_dirIndex (s : State) (file : VfsFile) (dirIndex : Nat) :
    initrdDirectory s { file with dirIndex } = initrdDirectory s file := rfl

/-- The results of calls that give what is left of a directory, and then that there is no more. -/
def thenEnd (results : List Dirent) (calls : Nat) : List (Except Errno Dirent) :=
  (results.map Except.ok ++ List.replicate calls (Except.error Errno.enoent)).take calls

theorem thenEnd_nil (calls : Nat) : thenEnd [] calls = List.replicate calls (.error .enoent) := by
  simp [thenEnd]

theorem thenEnd_cons (result : Dirent) (results : List Dirent) (calls : Nat) :
    thenEnd (result :: results) (calls + 1) = .ok result :: thenEnd results calls := by
  unfold thenEnd
  rw [List.map_cons, List.cons_append, List.take_succ_cons, List.replicate_succ', ← List.append_assoc,
    List.take_append_of_le_length (by simp)]

theorem listing_eq {blob : List UInt8} {s : State} {file : VfsFile} {parent : UInt16} (calls : Nat)
    (directory : initrdDirectory s file = .ok parent) :
    listing blob s calls file =
      thenEnd ((childrenFrom s.entries parent file.dirIndex).map fun child => direntOf blob child.1) calls := by
  induction calls generalizing file with
  | zero => rfl
  | succ calls ih =>
    unfold listing initrdReaddir
    rw [directory]
    cases found : nextChild s.entries parent file.dirIndex with
    | none =>
      simp only [found]
      rw [@ih { file with dirIndex := max file.dirIndex s.entries.length }
        (by rw [initrdDirectory_dirIndex]; exact directory), nextChild_none found]
      have past : childrenFrom s.entries parent (max file.dirIndex s.entries.length) = [] := by
        unfold childrenFrom
        rw [List.drop_eq_nil_of_le (by rw [List.length_zipIdx]; omega)]
        rfl
      rw [past, List.map_nil, thenEnd_nil, thenEnd_nil, List.replicate_succ]
    | some child =>
      obtain ⟨index, entry⟩ := child
      simp only [found]
      rw [@ih { file with dirIndex := index + 1 } (by rw [initrdDirectory_dirIndex]; exact directory),
        nextChild_some found, List.map_cons, thenEnd_cons]
      rfl

theorem findIdx?_take {blob : List UInt8} {entries : List Entry} {path : List UInt8} {count index first : Nat}
    (before : (entries.take count).findIdx? (fun entry => cString blob entry.name == path) = some index)
    (whole : entries.findIdx? (fun entry => cString blob entry.name == path) = some first) : index = first := by
  have longer : entries.findIdx? (fun entry => cString blob entry.name == path) = some index := by
    conv_lhs => rw [← List.take_append_drop count entries]
    rw [List.findIdx?_append, before]
    rfl
  rw [longer] at whole
  exact Option.some.inj whole

theorem Sound.root_child {blob : List UInt8} {entries : List Entry} (sound : Sound blob entries) {index : Nat}
    {entry : Entry} (held : entries[index]? = some entry) :
    entry.parent = initrdParentRoot ↔ slash ∉ cString blob entry.name := by
  have few := sound.few
  unfold initrdMaxEntries at few
  have linked := sound.linked index entry held
  refine ⟨fun root slashed => ?_, linked.1⟩
  obtain ⟨path, base, equal, flat⟩ := exists_split slashed
  obtain ⟨place, found, parent⟩ := linked.2 path base equal flat
  have below := (List.findIdx?_eq_some_iff_getElem.mp found).1
  rw [List.length_take] at below
  -- A place in the table is below the value that stands for the root.
  have numbers := congrArg UInt16.toNat (parent.symm.trans root)
  rw [UInt16.toNat_ofNat', Nat.mod_eq_of_lt (by omega)] at numbers
  have : initrdParentRoot.toNat = 65535 := rfl
  omega

theorem Sound.child {blob : List UInt8} {entries : List Entry} (sound : Sound blob entries) {path : List UInt8}
    {first index : Nat} {entry : Entry}
    (directory : entries.findIdx? (fun entry => cString blob entry.name == path) = some first)
    (held : entries[index]? = some entry) :
    entry.parent = UInt16.ofNat first ↔ ∃ base, cString blob entry.name = path ++ slash :: base ∧ slash ∉ base := by
  have few := sound.few
  unfold initrdMaxEntries at few
  have linked := sound.linked index entry held
  obtain ⟨inside, named, -⟩ := List.findIdx?_eq_some_iff_getElem.mp directory
  have small : (UInt16.ofNat first).toNat = first := by
    rw [UInt16.toNat_ofNat', Nat.mod_eq_of_lt (by omega)]
  constructor
  · intro parent
    by_cases flat : slash ∈ cString blob entry.name
    · obtain ⟨path', base, equal, flat'⟩ := exists_split flat
      obtain ⟨place, found, parent'⟩ := linked.2 path' base equal flat'
      obtain ⟨below, named', -⟩ := List.findIdx?_eq_some_iff_getElem.mp found
      rw [List.length_take] at below
      have numbers := congrArg UInt16.toNat (parent.symm.trans parent')
      rw [small, UInt16.toNat_ofNat', Nat.mod_eq_of_lt (by omega)] at numbers
      subst numbers
      rw [List.getElem_take, beq_iff_eq] at named'
      rw [beq_iff_eq] at named
      exact ⟨base, by rw [equal, ← named, named'], flat'⟩
    · have root := linked.1 flat
      have numbers := congrArg UInt16.toNat (parent.symm.trans root)
      rw [small] at numbers
      have : initrdParentRoot.toNat = 65535 := rfl
      omega
  · rintro ⟨base, equal, flat⟩
    obtain ⟨place, found, parent⟩ := linked.2 path base equal flat
    rw [parent, findIdx?_take found directory]

theorem childrenFrom_eq {entries : List Entry} {parent : UInt16} (below : Entry → Option (List UInt8))
    (valid : ∀ entry ∈ entries, entry.valid = true)
    (same : ∀ entry ∈ entries, entry.parent = parent ↔ (below entry).isSome = true) (named : Entry → Dirent) :
    (childrenFrom entries parent 0).map (fun child => named child.1) =
      entries.filterMap fun entry => (below entry).map fun _ => named entry := by
  have general : ∀ (entries : List Entry) (start : Nat), (∀ entry ∈ entries, entry.valid = true) →
      (∀ entry ∈ entries, entry.parent = parent ↔ (below entry).isSome = true) →
      ((entries.zipIdx start).filter fun child => child.1.valid && child.1.parent == parent).map
        (fun child => named child.1) = entries.filterMap fun entry => (below entry).map fun _ => named entry := by
    intro entries
    induction entries with
    | nil => intro start _ _; rfl
    | cons entry entries ih =>
      intro start valid same
      have rest := ih (start + 1) (fun other member => valid other (by simp [member]))
        fun other member => same other (by simp [member])
      rw [List.zipIdx_cons, List.filterMap_cons]
      cases found : below entry with
      | none =>
        have other : entry.parent ≠ parent := fun equal => by
          have := (same entry (by simp)).mp equal
          rw [found] at this
          cases this
        rw [List.filter_cons_of_neg (by simp [other]), rest]
        rfl
      | some base =>
        have equal := (same entry (by simp)).mpr (by rw [found]; rfl)
        rw [List.filter_cons_of_pos (by simp [equal, valid entry]), List.map_cons, rest]
        rfl
  exact general entries 0 valid same

theorem listing_children {blob : List UInt8} {s : State} {relpath : List UInt8} {flags : UInt32} {file : VfsFile}
    {parent : UInt16} (sound : Sound blob s.entries) (opened : initrdOpen blob s relpath flags = .ok file)
    (directory : initrdDirectory s file = .ok parent) (calls : Nat) :
    listing blob s calls file = thenEnd (s.entries.filterMap fun entry =>
      (baseIn (relpath.dropWhile (· == slash)) (cString blob entry.name)).map fun _ => direntOf blob entry) calls := by
  have few := sound.few
  unfold initrdMaxEntries at few
  have valid : ∀ entry ∈ s.entries, entry.valid = true := fun entry member => (sound.named entry member).1
  unfold initrdOpen at opened
  split_ifs at opened
  unfold initrdFindPath at opened
  by_cases root : relpath.dropWhile (· == slash) = []
  · rw [if_pos root] at opened
    cases opened
    have : parent = initrdParentRoot := by cases directory; rfl
    subst this
    rw [listing_eq calls directory, root]
    congr 1
    refine childrenFrom_eq (fun entry => baseIn [] (cString blob entry.name)) valid ?_ (direntOf blob)
    intro entry member
    obtain ⟨index, inside, rfl⟩ := List.getElem_of_mem member
    rw [sound.root_child (List.getElem?_eq_getElem inside)]
    unfold baseIn
    simp
  · rw [if_neg root, initrdFindEntryExact_eq sound.named] at opened
    cases search : s.entries.findIdx?
        (fun entry => cString blob entry.name == relpath.dropWhile (· == slash)) with
    | none =>
      rw [search] at opened
      cases opened
    | some first =>
      rw [search] at opened
      have inside := (List.findIdx?_eq_some_iff_getElem.mp search).1
      simp only [List.getElem?_eq_getElem inside] at opened
      cases opened
      -- A node's number is never that of the root.
      have notRoot : UInt32.ofNat first + 2 ≠ initrdRootNode := by
        intro same
        have numbers := congrArg UInt32.toNat same
        rw [UInt32.toNat_add, UInt32.toNat_ofNat', Nat.mod_eq_of_lt (by omega : first < 2 ^ 32)] at numbers
        have two : (2 : UInt32).toNat = 2 := rfl
        have one : initrdRootNode.toNat = 1 := rfl
        rw [two, one, Nat.mod_eq_of_lt (by omega)] at numbers
        omega
      have here : parent = UInt16.ofNat first := by
        unfold initrdDirectory initrdFileBind initrdFileReset at directory
        rw [if_neg notRoot, if_neg (by simp)] at directory
        simp only [Nat.add_sub_cancel, List.getElem?_eq_getElem inside] at directory
        split at directory
        · cases directory
          rfl
        · cases directory
      subst here
      rw [listing_eq calls directory]
      congr 1
      refine childrenFrom_eq (fun entry => baseIn (relpath.dropWhile (· == slash)) (cString blob entry.name))
        valid ?_ (direntOf blob)
      intro entry member
      obtain ⟨index, inside, rfl⟩ := List.getElem_of_mem member
      rw [sound.child search (List.getElem?_eq_getElem inside), Option.isSome_iff_exists]
      exact ⟨fun ⟨base, below⟩ => ⟨base, (baseIn_eq_some root).mpr below⟩,
        fun ⟨base, below⟩ => ⟨base, (baseIn_eq_some root).mp below⟩⟩

theorem takeWhile_drop {holds : UInt8 → Bool} {bytes : List UInt8} {count : Nat}
    (within : count ≤ (bytes.takeWhile holds).length) :
    (bytes.drop count).takeWhile holds = (bytes.takeWhile holds).drop count := by
  induction count generalizing bytes with
  | zero => rfl
  | succ count ih =>
    cases bytes with
    | nil => rfl
    | cons byte bytes =>
      by_cases here : holds byte = true
      · rw [List.takeWhile_cons_of_pos here, List.length_cons] at within
        rw [List.takeWhile_cons_of_pos here, List.drop_succ_cons, List.drop_succ_cons]
        exact ih (by omega)
      · rw [List.takeWhile_cons_of_neg here] at within
        cases within

theorem direntOf_name {blob : List UInt8} {entry : Entry} {directory base : List UInt8} (named : entry.Named blob)
    (short : (cString blob entry.name).length < 2 ^ 16) (below : baseIn directory (cString blob entry.name) = some base) :
    (direntOf blob entry).name = base.take (vfsNameMax - 1) := by
  have length : entry.nameLen.toNat = (cString blob entry.name).length := by
    rw [named.2, UInt16.toNat_ofNat', Nat.mod_eq_of_lt short]
  have whole : slice blob entry.name (cString blob entry.name).length = cString blob entry.name :=
    (List.prefix_iff_eq_take.mp (List.takeWhile_prefix _)).symm
  unfold direntOf initrdDirentFill initrdChildName
  rw [length, whole]
  by_cases root : directory = []
  · rw [baseIn, if_pos root] at below
    split at below
    · cases below
    · rename_i flat
      rw [lastSlash_flat flat, ← Option.some.inj below]
  · obtain ⟨equal, flat⟩ := (baseIn_eq_some root).mp below
    have split := @lastSlash_split directory _ flat
    rw [← equal] at split
    rw [split]
    have last : cString blob (entry.name + directory.length + 1) = base := by
      have within : directory.length + 1 ≤ (cString blob entry.name).length := by
        rw [equal]
        simp
      have dropped := takeWhile_drop within
      rw [List.drop_drop] at dropped
      unfold cString at equal ⊢
      rw [Nat.add_assoc, dropped, equal]
      simp
    rw [last]

/-- What is opened as a directory gives each node below its path once, in the order of the table, and then no more. -/
def Lists (blob : List UInt8) (s : State) : Prop :=
  ∀ relpath flags file parent, initrdOpen blob s relpath flags = .ok file → initrdDirectory s file = .ok parent →
    ∀ calls, listing blob s calls file = thenEnd (s.entries.filterMap fun entry =>
      (baseIn (relpath.dropWhile (· == slash)) (cString blob entry.name)).map fun _ => direntOf blob entry) calls

/-- The entry that a node is given by has its mode and its last component, if the field for its length has room for it. -/
def NamesChildren (blob : List UInt8) (entries : List Entry) : Prop :=
  ∀ entry ∈ entries, (direntOf blob entry).mode = entry.mode ∧
    ((cString blob entry.name).length < 2 ^ 16 → ∀ directory base,
      baseIn directory (cString blob entry.name) = some base → (direntOf blob entry).name = base.take (vfsNameMax - 1))

/-- Any bytes end the parser, and leave no table or a sound one. The bytes of an archive leave the table of its records
if each comes after its directory, and no table if one does not. -/
theorem initrdInit_exact :
    (∀ blob : List UInt8, ∃ s ready, (∀ turns, initrdMaxEntries < turns → initrdInit blob turns initrdBoot = some (s, ready)) ∧
      s.ready = ready ∧ Sound blob s.entries ∧ Lists blob s ∧ NamesChildren blob s.entries) ∧
    (∀ archive : Archive, archive.records.length ≤ initrdMaxEntries → (∀ record ∈ archive.records, Fits record) →
      ∃ s ready, (∀ turns, initrdMaxEntries < turns → initrdInit archive.bytes turns initrdBoot = some (s, ready)) ∧
        s.ready = ready ∧ (ready = true ↔ Rooted archive.records) ∧
        (ready = true → Exact archive.bytes s.entries archive.records)) := by
  -- What the loop ends with in the fewest turns it ends with in more.
  have ends : ∀ (blob : List UInt8) table refusal,
      initrdParseLoop blob (initrdMaxEntries + 1) 0 [] = some (table, refusal) →
      ∃ s : State, s.entries = table ∧ s.ready = refusal.isNone ∧
        ∀ turns, initrdMaxEntries < turns → initrdInit blob turns initrdBoot = some (s, refusal.isNone) := by
    intro blob table refusal read
    have more : ∀ turns, initrdMaxEntries < turns → initrdParseLoop blob turns 0 [] = some (table, refusal) := by
      intro turns enough
      obtain ⟨extra, rfl⟩ := Nat.exists_eq_add_of_le (Nat.succ_le_of_lt enough)
      exact initrdParseLoop_more read
    cases refusal with
    | none =>
      refine ⟨{ entries := table, ready := true, attempted := true, status := initrdStatusOk blob table.length },
        rfl, rfl, fun turns enough => ?_⟩
      rw [initrdInit, if_neg (by simp [initrdBoot]), initrdParseArchive, more turns enough]
      rfl
    | some refusal =>
      refine ⟨{ entries := table, ready := false, attempted := true, status := refusal.status },
        rfl, rfl, fun turns enough => ?_⟩
      rw [initrdInit, if_neg (by simp [initrdBoot]), initrdParseArchive, more turns enough]
      rfl
  constructor
  · intro blob
    obtain ⟨⟨table, refusal⟩, read⟩ : ∃ outcome, initrdParseLoop blob (initrdMaxEntries + 1) 0 [] = some outcome :=
      initrdParseLoop_ends (Sound.nil blob) (by simp)
    obtain ⟨s, rfl, ready, init⟩ := ends blob table refusal read
    have sound := initrdParseLoop_sound (Sound.nil blob) read
    exact ⟨s, refusal.isNone, init, ready, sound,
      fun relpath flags file parent opened directory calls => listing_children sound opened directory calls,
      fun entry member => ⟨rfl, fun short directory base below => direntOf_name (sound.named entry member) short below⟩⟩
  · intro archive few fits
    obtain ⟨table, refusal, read, rooted, exact_⟩ :=
      @initrdParseLoop_archive archive [] archive.records [] (initrdMaxEntries + 1) rfl fits few (Sound.nil _) .nil
        (by intro index record held; cases held) (by omega)
    obtain ⟨s, rfl, ready, init⟩ := ends archive.bytes table refusal read
    refine ⟨s, refusal.isNone, init, ready, ?_, fun taken => exact_ (Option.isNone_iff_eq_none.mp taken)⟩
    rw [Option.isNone_iff_eq_none]
    exact rooted

/-- Eight digits of a number below sixteen. -/
def eightDigits (value : UInt8) : List UInt8 := [48, 48, 48, 48, 48, 48, 48, 48 + value]

/-- A file below a directory that is not in the archive. -/
def orphan : Record :=
  { header := Newc.magic ++ eightDigits 0 ++ [48, 48, 48, 48, 56, 49, 97, 52] ++ (List.replicate 4 (eightDigits 0)).flatten ++
      eightDigits 2 ++ (List.replicate 4 (eightDigits 0)).flatten ++ eightDigits 4 ++ eightDigits 0
    name := [97, 47, 98]
    namePad := [0, 0]
    mode := 0x81a4
    data := [104, 105]
    dataPad := [0, 0]
    headerFull := by decide
    headerMagic := by decide
    headerMode := by decide
    headerFileSize := by decide
    headerNameSize := by decide
    nameText := by decide
    namePadded := by decide
    dataPadded := by decide }

def trailer : Record :=
  { header := Newc.magic ++ (List.replicate 11 (eightDigits 0)).flatten ++ [48, 48, 48, 48, 48, 48, 48, 98] ++ eightDigits 0
    name := Newc.trailerName
    namePad := [0, 0, 0]
    mode := 0
    data := []
    dataPad := []
    headerFull := by decide
    headerMagic := by decide
    headerMode := by decide
    headerFileSize := by decide
    headerNameSize := by decide
    nameText := by decide
    namePadded := by decide
    dataPadded := by decide }

def orphaned : Archive :=
  { records := [orphan], trailer, rest := [], trailerNamed := rfl, named := by decide }

/-- An archive of one file in a directory is refused, and no directory is made for it. -/
theorem initrdInit_orphaned :
    ¬∀ archive : Archive, archive.records.length ≤ initrdMaxEntries → (∀ record ∈ archive.records, Fits record) →
      ∃ s turns, initrdInit archive.bytes turns initrdBoot = some (s, true) ∧
        ∀ record ∈ archive.records, ∃ entry ∈ s.entries, Holds archive.bytes entry record := by
  intro taken
  have short : orphan.bytes.length < 2 ^ 32 := by decide
  obtain ⟨s, turns, read, -⟩ := taken orphaned (by decide) (by
    intro record member
    rw [List.mem_singleton.mp member]
    exact ⟨⟨by decide, by decide, by decide⟩, short⟩)
  have refused : ∀ turns, (initrdInit orphaned.bytes (turns + 1) initrdBoot).map (·.2) = some false := by
    intro turns
    have first : initrdParseRecord orphaned.bytes [] 0 = .error .parentMissing := by decide +kernel
    have room : 0 + cpioHeaderLen.toNat ≤ orphaned.bytes.length := by decide +kernel
    rw [initrdInit, if_neg (by simp [initrdBoot]), initrdParseArchive, initrdParseLoop, if_pos room, first]
    rfl
  cases turns with
  | zero => cases read
  | succ turns =>
    have := refused turns
    rw [read] at this
    cases this

end Enlil.Initrd
