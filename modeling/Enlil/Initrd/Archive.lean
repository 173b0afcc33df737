import Enlil.Lib.Newc
import Enlil.Vfs.Mounts

/-! The embedded archive of `kernel/initrd.c`: its parser, and the operations on the table it fills. -/

namespace Enlil.Initrd

open Newc (slice)
open Vfs (Errno sIfmt sIfdir isDir)

def initrdMaxEntries : Nat := 192
def initrdRootNode : UInt32 := 1
def initrdParentRoot : UInt16 := 0xFFFF
def cpioHeaderLen : UInt32 := 110
def vfsNameMax : Nat := 32
def slash : UInt8 := 47

/-- A node of the table, whose name and data are places in the archive. -/
structure Entry where
  name : Nat
  data : Nat
  mode : UInt32
  size : UInt32
  parent : UInt16
  nameLen : UInt16
  valid : Bool
  deriving DecidableEq

/-- Why an archive is not taken. -/
inductive Refusal where
  | magic
  | header
  | namesize
  | unterminated
  | beyondEnd
  | tooMany
  | name
  | parentMissing
  | parentNotDirectory
  | noTrailer
  deriving DecidableEq

def Refusal.status : Refusal → String
  | .magic => "initrd: magic CPIO non valido"
  | .header => "initrd: header CPIO corrotto"
  | .namesize => "initrd: namesize non valido"
  | .unterminated => "initrd: nome entry non terminato"
  | .beyondEnd => "initrd: file oltre fine archivio"
  | .tooMany => "initrd: troppe entry"
  | .name => "initrd: path entry non valido"
  | .parentMissing => "initrd: parent directory mancante"
  | .parentNotDirectory => "initrd: parent non directory"
  | .noTrailer => "initrd: trailer CPIO assente"

/-- The bytes from a place to the next zero. -/
def cString (blob : List UInt8) (start : Nat) : List UInt8 := (blob.drop start).takeWhile (· != 0)

/-- Whether a C string is the bytes of a name of known length. -/
def initrdNameeq : List UInt8 → List UInt8 → Bool
  | [], [] => true
  | byte :: name, other :: string => byte == other && initrdNameeq name string
  | _, _ => false

def initrdAlign4 (value : UInt32) : UInt32 := (value + 3) &&& ~~~3

def initrdHexValue (byte : UInt8) : Option UInt32 :=
  if 48 ≤ byte.toNat ∧ byte.toNat ≤ 57 then some (UInt32.ofNat (byte.toNat - 48))
  else if 97 ≤ byte.toNat ∧ byte.toNat ≤ 102 then some (UInt32.ofNat (10 + (byte.toNat - 97)))
  else if 65 ≤ byte.toNat ∧ byte.toNat ≤ 70 then some (UInt32.ofNat (10 + (byte.toNat - 65)))
  else none

def initrdParseHex (digits : List UInt8) : Option UInt32 :=
  digits.foldlM (fun value byte => (initrdHexValue byte).map ((value <<< 4) ||| ·)) 0

def initrdFindEntryExact (blob : List UInt8) (entries : List Entry) (path : List UInt8) : Option Nat :=
  entries.findIdx? fun entry =>
    entry.valid && (entry.nameLen == UInt16.ofNat path.length && initrdNameeq path (cString blob entry.name))

/-- What a path names. -/
inductive Found where
  | root
  | missing
  | entry (index : Nat)
  deriving DecidableEq

def initrdFindPath (blob : List UInt8) (entries : List Entry) (relpath : List UInt8) : Found :=
  if relpath.dropWhile (· == slash) = [] then .root
  else match initrdFindEntryExact blob entries (relpath.dropWhile (· == slash)) with
    | none => .missing
    | some index => .entry index

def initrdValidateName (name : List UInt8) : Bool :=
  name ≠ [] && name.head? ≠ some slash && (!name.contains 0 && name.getLast? ≠ some slash)

/-- The place of the last slash before a place. -/
def lastSlash (name : List UInt8) : Nat → Option Nat
  | 0 => none
  | place + 1 => if name[place]? = some slash then some place else lastSlash name place

def initrdParentFromName (blob : List UInt8) (entries : List Entry) (name : List UInt8) : Found :=
  match lastSlash name name.length with
  | none => .root
  | some 0 => .missing
  | some place => match initrdFindEntryExact blob entries (name.take place) with
    | none => .missing
    | some index => .entry index

/-- One record of the archive: the node it makes and the place of the next one, or nothing for the last record. -/
def initrdParseRecord (blob : List UInt8) (entries : List Entry) (p : Nat) : Except Refusal (Option (Entry × Nat)) :=
  if slice blob p 6 ≠ Newc.magic then .error .magic
  else match initrdParseHex (slice blob (p + 14) 8), initrdParseHex (slice blob (p + 54) 8),
      initrdParseHex (slice blob (p + 94) 8) with
    | some mode, some filesize, some namesize =>
      -- Pointers do not wrap, so what is added to one is added without a bound.
      if namesize = 0 ∨ blob.length < p + cpioHeaderLen.toNat + namesize.toNat then .error .namesize
      else if blob[p + cpioHeaderLen.toNat + namesize.toNat - 1]? ≠ some 0 then .error .unterminated
      else if blob.length < p + (initrdAlign4 (cpioHeaderLen + namesize)).toNat + filesize.toNat then .error .beyondEnd
      else if cString blob (p + cpioHeaderLen.toNat) = Newc.trailerName then .ok none
      else if initrdMaxEntries ≤ entries.length then .error .tooMany
      else if ¬initrdValidateName (slice blob (p + cpioHeaderLen.toNat) (namesize.toNat - 1)) then .error .name
      else
        let entry (parent : UInt16) : Entry :=
          { name := p + cpioHeaderLen.toNat, data := p + (initrdAlign4 (cpioHeaderLen + namesize)).toNat, mode,
            size := filesize, parent, nameLen := UInt16.ofNat (namesize.toNat - 1), valid := true }
        let next := p + (initrdAlign4 (initrdAlign4 (cpioHeaderLen + namesize) + filesize)).toNat
        match initrdParentFromName blob entries (slice blob (p + cpioHeaderLen.toNat) (namesize.toNat - 1)) with
        | .missing => .error .parentMissing
        | .root => .ok (some (entry initrdParentRoot, next))
        | .entry index =>
          if (entries[index]?.map (isDir ·.mode)) = some true then .ok (some (entry (UInt16.ofNat index), next))
          else .error .parentNotDirectory
    | _, _, _ => .error .header

/-- The loop over the records, with the nodes so far and why it stops. It is nothing while the loop still runs. -/
def initrdParseLoop (blob : List UInt8) : Nat → Nat → List Entry → Option (List Entry × Option Refusal)
  | 0, _, _ => none
  | turns + 1, p, entries =>
    if p + cpioHeaderLen.toNat ≤ blob.length then
      match initrdParseRecord blob entries p with
      | .error refusal => some (entries, some refusal)
      | .ok none => some (entries, none)
      | .ok (some (entry, next)) => initrdParseLoop blob turns next (entries ++ [entry])
    else some (entries, some .noTrailer)

/-- The table and what is known about it. -/
structure State where
  entries : List Entry
  ready : Bool
  attempted : Bool
  status : String

def initrdBoot : State := { entries := [], ready := false, attempted := false, status := "" }

def initrdStatusOk (blob : List UInt8) (count : Nat) : String :=
  "initrd cpio pronto (entries=" ++ toString count ++ ", bytes=" ++ toString (UInt32.ofNat blob.length).toNat ++ ")"

def initrdParseArchive (blob : List UInt8) (turns : Nat) (s : State) : Option (State × Bool) :=
  (initrdParseLoop blob turns 0 []).map fun
    | (entries, none) => ({ s with entries, ready := true, status := initrdStatusOk blob entries.length }, true)
    | (entries, some refusal) => ({ s with entries, status := refusal.status }, false)

def initrdInit (blob : List UInt8) (turns : Nat) (s : State) : Option (State × Bool) :=
  if s.attempted then some (s, s.ready)
  else initrdParseArchive blob turns { s with attempted := true, ready := false }

/-- A file of the archive that is open. -/
structure VfsFile where
  nodeId : UInt32
  flags : UInt32
  pos : Nat
  sizeHint : Nat
  dirIndex : Nat
  cookie : Nat
  deriving DecidableEq

def initrdFileReset (nodeId flags : UInt32) : VfsFile :=
  { nodeId, flags, pos := 0, sizeHint := 0, dirIndex := 0, cookie := 0 }

def initrdFileBind (entry : Entry) (nodeId flags : UInt32) (index : Nat) : VfsFile :=
  { initrdFileReset nodeId flags with cookie := index + 1, sizeHint := entry.size.toNat }

def initrdWantsWrite (flags : UInt32) : Bool := Vfs.wantsWrite flags

def initrdOpen (blob : List UInt8) (s : State) (relpath : List UInt8) (flags : UInt32) : Except Errno VfsFile :=
  if !s.ready then .error .eio
  else if initrdWantsWrite flags then .error .erofs
  else match initrdFindPath blob s.entries relpath with
    | .root => .ok (initrdFileReset initrdRootNode flags)
    | .missing => .error .enoent
    | .entry index => match s.entries[index]? with
      | none => .error .enoent
      | some entry => .ok (initrdFileBind entry (UInt32.ofNat index + 2) flags index)

def initrdRead (blob : List UInt8) (s : State) (file : VfsFile) (count : Nat) : VfsFile × Except Errno (List UInt8) :=
  if file.nodeId = initrdRootNode then (file, .error .eisdir)
  else if file.cookie = 0 then (file, .error .ebadf)
  else match s.entries[file.cookie - 1]? with
    | none => (file, .error .ebadf)
    | some entry =>
      if isDir entry.mode then (file, .error .eisdir)
      else if entry.size.toNat ≤ file.pos then (file, .ok [])
      else ({ file with pos := file.pos + min count (entry.size.toNat - file.pos) },
        .ok (slice blob (entry.data + file.pos) (min count (entry.size.toNat - file.pos))))

structure Dirent where
  name : List UInt8
  mode : UInt32
  deriving DecidableEq

def initrdDirentFill (blob : List UInt8) (name : Nat) (mode : UInt32) : Dirent :=
  { name := (cString blob name).take (vfsNameMax - 1), mode }

/-- Where the last component of a name starts. -/
def initrdChildName (blob : List UInt8) (entry : Entry) : Nat :=
  match lastSlash (slice blob entry.name entry.nameLen.toNat) entry.nameLen.toNat with
  | none => entry.name
  | some place => entry.name + place + 1

/-- The first entry from a place on that has a parent, with its place. -/
def nextChild (entries : List Entry) (parent : UInt16) (dirIndex : Nat) : Option (Nat × Entry) :=
  ((entries.zipIdx.drop dirIndex).find? fun child => child.1.valid && child.1.parent == parent).map Prod.swap

/-- The parent that a directory's entries have. -/
def initrdDirectory (s : State) (file : VfsFile) : Except Errno UInt16 :=
  if file.nodeId = initrdRootNode then .ok initrdParentRoot
  else if file.cookie = 0 then .error .ebadf
  else match s.entries[file.cookie - 1]? with
    | none => .error .ebadf
    | some entry => if isDir entry.mode then .ok (UInt16.ofNat (file.cookie - 1)) else .error .enotdir

def initrdReaddir (blob : List UInt8) (s : State) (file : VfsFile) : VfsFile × Except Errno Dirent :=
  match initrdDirectory s file with
  | .error error => (file, .error error)
  | .ok parent => match nextChild s.entries parent file.dirIndex with
    | none => ({ file with dirIndex := max file.dirIndex s.entries.length }, .error .enoent)
    | some (index, entry) =>
      ({ file with dirIndex := index + 1 }, .ok (initrdDirentFill blob (initrdChildName blob entry) entry.mode))

end Enlil.Initrd

/-! Names of the archive: where they end, where they split, and which node they find. -/

namespace Enlil.Initrd

open Newc (slice)

theorem initrdNameeq_iff (name string : List UInt8) : initrdNameeq name string ↔ name = string := by
  induction name generalizing string with
  | nil => cases string <;> simp [initrdNameeq]
  | cons byte name ih => cases string <;> simp [initrdNameeq, ih]

theorem cString_eq {blob : List UInt8} {start count : Nat} (text : 0 ∉ slice blob start count)
    (ended : blob[start + count]? = some 0) : cString blob start = slice blob start count := by
  have inside : start + count < blob.length := by
    by_contra beyond
    rw [List.getElem?_eq_none (by omega)] at ended
    cases ended
  have split : blob.drop start = slice blob start count ++ (0 :: blob.drop (start + count + 1)) := by
    conv_lhs => rw [← List.take_append_drop count (blob.drop start)]
    rw [List.drop_drop, List.drop_eq_getElem_cons inside]
    rw [List.getElem?_eq_getElem inside, Option.some.injEq] at ended
    rw [ended]
    rfl
  rw [cString, split, List.takeWhile_append_of_pos (fun byte member => by
    simpa using fun zero : byte = 0 => text (zero ▸ member))]
  simp

theorem lastSlash_some {name : List UInt8} {n place : Nat} (found : lastSlash name n = some place) :
    place < n ∧ name[place]? = some slash ∧ ∀ later, place < later → later < n → name[later]? ≠ some slash := by
  induction n with
  | zero => cases found
  | succ n ih =>
    unfold lastSlash at found
    split at found
    · rename_i here
      cases found
      exact ⟨by omega, here, fun later _ _ => by omega⟩
    · rename_i other
      obtain ⟨below, here, none⟩ := ih found
      refine ⟨by omega, here, fun later above inside => ?_⟩
      by_cases last : later = n
      · exact last ▸ other
      · exact none later above (by omega)

theorem lastSlash_none {name : List UInt8} {n : Nat} (found : lastSlash name n = none) :
    ∀ place, place < n → name[place]? ≠ some slash := by
  induction n with
  | zero => intro place inside; omega
  | succ n ih =>
    unfold lastSlash at found
    split at found
    · cases found
    · rename_i other
      intro place inside
      by_cases last : place = n
      · exact last ▸ other
      · exact ih found place (by omega)

theorem lastSlash_flat {name : List UInt8} (flat : slash ∉ name) : lastSlash name name.length = none := by
  cases found : lastSlash name name.length with
  | none => rfl
  | some place => exact absurd (List.mem_of_getElem? (lastSlash_some found).2.1) flat

theorem lastSlash_split {parent base : List UInt8} (flat : slash ∉ base) :
    lastSlash (parent ++ slash :: base) (parent ++ slash :: base).length = some parent.length := by
  have here : (parent ++ slash :: base)[parent.length]? = some slash := by simp
  cases found : lastSlash (parent ++ slash :: base) (parent ++ slash :: base).length with
  | none =>
    refine absurd here (lastSlash_none found parent.length ?_)
    simp
  | some place =>
    obtain ⟨inside, slashed, none⟩ := lastSlash_some found
    -- A slash after the split would be one of the last component.
    have notAfter : ¬parent.length < place := by
      intro after
      rw [List.getElem?_append_right (by omega)] at slashed
      obtain ⟨more, rfl⟩ : ∃ more, place = parent.length + 1 + more := ⟨place - parent.length - 1, by omega⟩
      have : parent.length + 1 + more - parent.length = more + 1 := by omega
      rw [this, List.getElem?_cons_succ] at slashed
      exact flat (List.mem_of_getElem? slashed)
    have notBefore : ¬place < parent.length := by
      intro before
      refine none parent.length before ?_ here
      simp
    have : place = parent.length := by omega
    rw [this]

theorem exists_split {name : List UInt8} (slashed : slash ∈ name) :
    ∃ parent base, name = parent ++ slash :: base ∧ slash ∉ base := by
  induction name with
  | nil => cases slashed
  | cons byte name ih =>
    by_cases inRest : slash ∈ name
    · obtain ⟨parent, base, rfl, flat⟩ := ih inRest
      exact ⟨byte :: parent, base, rfl, flat⟩
    · rcases List.mem_cons.mp slashed with rfl | inRest'
      · exact ⟨[], name, rfl, inRest⟩
      · exact absurd inRest' inRest

/-- An entry that keeps the length of its name, as far as the field is wide. -/
def Entry.Named (blob : List UInt8) (entry : Entry) : Prop :=
  entry.valid = true ∧ entry.nameLen = UInt16.ofNat (cString blob entry.name).length

theorem initrdFindEntryExact_eq {blob : List UInt8} {entries : List Entry} (named : ∀ entry ∈ entries, entry.Named blob)
    (path : List UInt8) :
    initrdFindEntryExact blob entries path = entries.findIdx? fun entry => cString blob entry.name == path := by
  induction entries with
  | nil => rfl
  | cons entry entries ih =>
    obtain ⟨valid, length⟩ := named entry (by simp)
    have rest := ih fun other member => named other (by simp [member])
    unfold initrdFindEntryExact at rest ⊢
    have same : (entry.valid && (entry.nameLen == UInt16.ofNat path.length &&
        initrdNameeq path (cString blob entry.name))) = (cString blob entry.name == path) := by
      rw [valid, length]
      by_cases equal : cString blob entry.name = path
      · simp [equal, (initrdNameeq_iff path path).mpr rfl]
      · have other : ¬initrdNameeq path (cString blob entry.name) = true := fun holds =>
          equal ((initrdNameeq_iff _ _).mp holds).symm
        simp [equal, other]
    rw [List.findIdx?_cons, List.findIdx?_cons, same, rest]

end Enlil.Initrd
