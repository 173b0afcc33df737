import Mathlib

/-! Listings of directories: `sys_linux_getdents64` of `kernel/syscall.c`, over any kind of directory. -/

namespace Enlil.Fd

/-- Bytes of a name in an entry, with the zero behind it. -/
def vfsNameMax : Nat := 32

/-- An entry of a directory, as a file system gives it. -/
structure VfsDirent where
  name : List UInt8
  mode : UInt32
  fits : name.length < vfsNameMax
  terminated : 0 ∉ name

inductive DirErrno where
  | ebadf
  | efault
  | enoent
  /-- Another one that the file system or the memory of the caller answers with. -/
  | answered (code : Nat)
  deriving DecidableEq

/-- A record in the buffer of the caller. -/
structure LinuxDirent64 where
  dIno : UInt64
  dOff : UInt64
  dReclen : Nat
  dType : Nat
  dName : List UInt8

/-- An open directory: what reading one entry does and gives, and the index that is kept of it. -/
structure DirReader (σ : Type) where
  readdir : σ → σ × Except DirErrno VfsDirent
  dirIndex : σ → UInt32

def linuxDtypeFromMode (mode : UInt32) : Nat :=
  if mode &&& 0o170000 = 0o010000 then 1
  else if mode &&& 0o170000 = 0o020000 then 2
  else if mode &&& 0o170000 = 0o040000 then 4
  else if mode &&& 0o170000 = 0o100000 then 8
  else if mode &&& 0o170000 = 0o120000 then 10
  else 0

/-- The length of the record of an entry: what is before the name, the name and its zero, rounded up to eight bytes. -/
def reclen (entry : VfsDirent) : Nat := (19 + entry.name.length + 1 + 7) / 8 * 8

/-- The record of an entry, made when the directory has an index. -/
def linuxDirent (index : UInt32) (entry : VfsDirent) : LinuxDirent64 where
  dIno := (index + 1).toUInt64
  dOff := index.toUInt64
  dReclen := reclen entry
  dType := linuxDtypeFromMode entry.mode
  dName := entry.name

/-- The descriptor of a call: not open, open for something that is no file, or a file. -/
inductive DirFd where
  | closed
  | other
  | file
  deriving DecidableEq

/-- What a call is given: its buffer, and whether storing so many bytes at a place in it fails. -/
structure DirCall where
  bufUva : UInt64
  count : UInt32
  storeBytes : Nat → Nat → Option DirErrno

variable {σ : Type}

/-- Whether the loop goes on, with the sum taken in thirty-two bits. -/
def goesOn (count : UInt32) (copied : Nat) : Bool := (copied + 24) % 2 ^ 32 ≤ count.toNat

/-- The turns of the loop, with the records so far. Every turn stores a byte, so there are no more turns than bytes. -/
def getdentsLoop (dir : DirReader σ) (fd : DirFd) (call : DirCall) :
    Nat → σ → Nat → List LinuxDirent64 → σ × List LinuxDirent64 × Except DirErrno Nat
  | 0, s, copied, records => (s, records, .ok copied)
  | turns + 1, s, copied, records =>
    if !goesOn call.count copied then (s, records, .ok copied)
    else if fd ≠ .file then (s, records, .error .ebadf)
    else
      match dir.readdir s with
      | (s, .error .enoent) => (s, records, .ok copied)
      | (s, .error error) => (s, records, .error error)
      | (s, .ok entry) =>
        -- The directory has moved on to the next entry, whether or not this one fits.
        if call.count.toNat < copied + reclen entry then (s, records, .ok copied)
        else
          match call.storeBytes copied (reclen entry) with
          | some error => (s, records, .error error)
          | none =>
            getdentsLoop dir fd call turns s (copied + reclen entry) (records ++ [linuxDirent (dir.dirIndex s) entry])

/-- Stores records of the next entries of a directory in a buffer. -/
def sysLinuxGetdents64 (dir : DirReader σ) (fd : DirFd) (call : DirCall) (s : σ) :
    σ × List LinuxDirent64 × Except DirErrno Nat :=
  if fd = .closed then (s, [], .error .ebadf)
  else if call.bufUva = 0 then (s, [], .error .efault)
  else if call.count < 24 then (s, [], .ok 0)
  else getdentsLoop dir fd call (call.count.toNat + 1) s 0 []

/-- Nothing is left to read, however often it is tried. -/
def AtEnd (dir : DirReader σ) (s : σ) : Prop :=
  ∀ n, (dir.readdir ((fun s => (dir.readdir s).1)^[n] s)).2 = .error .enoent

/-- A directory lists these entries, one after the other, and then ends. -/
inductive Lists (dir : DirReader σ) : σ → List VfsDirent → Prop where
  | done {s : σ} (ends : AtEnd dir s) : Lists dir s []
  | entry {s t : σ} {entry : VfsDirent} {entries : List VfsDirent} (read : dir.readdir s = (t, .ok entry))
      (rest : Lists dir t entries) : Lists dir s (entry :: entries)

/-- The next record, if there is one, fits in the buffer of a call. -/
def Ample (dir : DirReader σ) (s : σ) (call : DirCall) : Prop :=
  ∀ t entry, dir.readdir s = (t, .ok entry) → reclen entry ≤ call.count.toNat

/-- A listing of a directory: calls with ample buffers until one returns zero, and the records that they return. -/
inductive Listing (dir : DirReader σ) (fd : DirFd) : σ → List DirCall → List LinuxDirent64 → Prop where
  | last {s t : σ} {call : DirCall} {records : List LinuxDirent64} (ample : Ample dir s call)
      (returned : sysLinuxGetdents64 dir fd call s = (t, records, .ok 0)) : Listing dir fd s [call] records
  | more {s t : σ} {call : DirCall} {calls : List DirCall} {records later : List LinuxDirent64} {n : Nat}
      (ample : Ample dir s call) (returned : sysLinuxGetdents64 dir fd call s = (t, records, .ok n)) (some : n ≠ 0)
      (rest : Listing dir fd t calls later) : Listing dir fd s (call :: calls) (records ++ later)

/-- Storing the entries that fit in a buffer, one comes that does not, with twenty-four bytes or more left for it. -/
inductive Drops (dir : DirReader σ) (count : UInt32) : σ → Nat → Prop where
  | here {s t : σ} {copied : Nat} {entry : VfsDirent} (more : goesOn count copied = true)
      (read : dir.readdir s = (t, .ok entry)) (large : count.toNat < copied + reclen entry) : Drops dir count s copied
  | later {s t : σ} {copied : Nat} {entry : VfsDirent} (more : goesOn count copied = true)
      (read : dir.readdir s = (t, .ok entry)) (fits : copied + reclen entry ≤ count.toNat)
      (rest : Drops dir count t (copied + reclen entry)) : Drops dir count s copied

/-- No call of a listing comes to an entry that does not fit in what is left of its buffer. -/
def Unbroken (dir : DirReader σ) (fd : DirFd) : σ → List DirCall → Prop
  | _, [] => True
  | s, call :: calls => ¬ Drops dir call.count s 0 ∧ Unbroken dir fd (sysLinuxGetdents64 dir fd call s).1 calls

section

variable {dir : DirReader σ} {fd : DirFd} {call : DirCall} {s t : σ} {entries : List VfsDirent}

theorem reclen_ge (entry : VfsDirent) : 24 ≤ reclen entry := by
  unfold reclen
  omega

theorem AtEnd.next (ends : AtEnd dir s) : AtEnd dir (dir.readdir s).1 := fun n => ends (n + 1)

theorem AtEnd.readdir (ends : AtEnd dir s) : dir.readdir s = ((dir.readdir s).1, .error .enoent) :=
  Prod.ext rfl (ends 0)

/-- What a call that succeeds has taken from the entries of a directory, and what it has left of them. -/
def Takes (dir : DirReader σ) (count : UInt32) (s : σ) (copied : Nat) (entries taken : List VfsDirent) (t : σ) : Prop :=
  (¬ Drops dir count s copied ∧ ∃ rest, entries = taken ++ rest ∧ Lists dir t rest) ∨
    (Drops dir count s copied ∧ ∃ entry rest, entries = taken ++ entry :: rest ∧ Lists dir t rest)

theorem getdentsLoop_takes {turns copied n : Nat} {records out : List LinuxDirent64} (lists : Lists dir s entries)
    (enough : call.count.toNat < copied + turns) (le : copied ≤ call.count.toNat)
    (returned : getdentsLoop dir fd call turns s copied records = (t, out, .ok n)) :
    ∃ taken, out.map LinuxDirent64.dName = records.map LinuxDirent64.dName ++ taken.map VfsDirent.name ∧
      n = copied + (taken.map reclen).sum ∧ Takes dir call.count s copied entries taken t := by
  induction turns generalizing s copied records entries with
  | zero => omega
  | succ turns ih =>
    unfold getdentsLoop at returned
    split at returned
    · rename_i full
      have none : ¬ Drops dir call.count s copied := by
        intro drops
        cases drops with
        | here more _ _ => simp [more] at full
        | later more _ _ _ => simp [more] at full
      cases returned
      exact ⟨[], by simp, rfl, .inl ⟨none, entries, rfl, lists⟩⟩
    rename_i more
    rw [Bool.not_eq_true', Bool.not_eq_false] at more
    split at returned
    · cases returned
    cases lists with
    | done ends =>
      rw [ends.readdir] at returned
      have none : ¬ Drops dir call.count s copied := by
        intro drops
        cases drops with
        | here _ read _ => cases ends.readdir.symm.trans read
        | later _ read _ _ => cases ends.readdir.symm.trans read
      cases returned
      exact ⟨[], by simp, rfl, .inl ⟨none, [], rfl, .done ends.next⟩⟩
    | entry read rest =>
      rename_i next entry entries
      rw [read] at returned
      dsimp only at returned
      split at returned
      · rename_i large
        cases returned
        exact ⟨[], by simp, rfl, .inr ⟨.here more read large, entry, entries, rfl, rest⟩⟩
      rename_i fits
      split at returned
      · cases returned
      have some := reclen_ge entry
      obtain ⟨taken, names, sum, left⟩ := ih rest (by omega) (by omega) returned
      refine ⟨entry :: taken, ?_, ?_, ?_⟩
      · rw [names]
        simp [linuxDirent]
      · rw [sum, List.map_cons, List.sum_cons, Nat.add_assoc]
      · rcases left with ⟨kept, others, split, later⟩ | ⟨drops, lost, others, split, later⟩
        · refine .inl ⟨fun drops => ?_, others, by rw [split]; rfl, later⟩
          cases drops with
          | here _ read' large =>
            cases read.symm.trans read'
            omega
          | later _ read' _ drops =>
            cases read.symm.trans read'
            exact kept drops
        · exact .inr ⟨.later more read (by omega) drops, lost, others, by rw [split]; rfl, later⟩

theorem not_drops_of_small {count : UInt32} (small : count < 24) : ¬ Drops dir count s 0 := by
  have full : goesOn count 0 = false := by
    rw [UInt32.lt_iff_toNat_lt] at small
    change count.toNat < 24 at small
    rw [goesOn, decide_eq_false_iff_not]
    omega
  intro drops
  cases drops with
  | here more _ _ => cases full.symm.trans more
  | later more _ _ _ => cases full.symm.trans more

theorem call_takes {n : Nat} {out : List LinuxDirent64} (lists : Lists dir s entries)
    (returned : sysLinuxGetdents64 dir fd call s = (t, out, .ok n)) :
    ∃ taken, out.map LinuxDirent64.dName = taken.map VfsDirent.name ∧ n = (taken.map reclen).sum ∧
      Takes dir call.count s 0 entries taken t := by
  unfold sysLinuxGetdents64 at returned
  split at returned
  · cases returned
  split at returned
  · cases returned
  split at returned
  · rename_i small
    have none := @not_drops_of_small σ dir s _ small
    cases returned
    exact ⟨[], rfl, rfl, .inl ⟨none, entries, rfl, lists⟩⟩
  · obtain ⟨taken, names, sum, takes⟩ := getdentsLoop_takes lists (by omega) (Nat.zero_le _) returned
    exact ⟨taken, names, sum.trans (Nat.zero_add _), takes⟩

theorem call_some {n : Nat} {entry : VfsDirent} {out : List LinuxDirent64} (lists : Lists dir s (entry :: entries))
    (ample : Ample dir s call) (returned : sysLinuxGetdents64 dir fd call s = (t, out, .ok n)) : n ≠ 0 := by
  cases lists with
  | entry read rest =>
    have size := ample _ _ read
    have some := reclen_ge entry
    have large : ¬ call.count < 24 := by
      rw [UInt32.lt_iff_toNat_lt]
      change ¬ call.count.toNat < 24
      omega
    have more : goesOn call.count 0 = true := by
      rw [goesOn, decide_eq_true_iff]
      omega
    unfold sysLinuxGetdents64 at returned
    split at returned
    · cases returned
    split at returned
    · cases returned
    rw [getdentsLoop, more, read] at returned
    simp only [Bool.not_true, Bool.false_eq_true, if_false, Nat.zero_add] at returned
    split at returned
    · cases returned
    rw [if_neg (not_lt.mpr size)] at returned
    split at returned
    · cases returned
    -- The first record is stored, and the number only grows from there.
    obtain ⟨taken, _, sum, _⟩ := getdentsLoop_takes rest (by omega) size returned
    omega

theorem listing_length {calls : List DirCall} {records : List LinuxDirent64} (listing : Listing dir fd s calls records)
    (lists : Lists dir s entries) : records.length ≤ entries.length := by
  induction listing generalizing entries with
  | last _ returned =>
    obtain ⟨taken, names, _, ⟨_, rest, split, _⟩ | ⟨_, _, rest, split, _⟩⟩ := call_takes lists returned
    all_goals
      have size := congrArg List.length names
      rw [List.length_map, List.length_map] at size
      rw [split, List.length_append]
      omega
  | more _ returned _ _ ih =>
    obtain ⟨taken, names, _, ⟨_, rest, split, later⟩ | ⟨_, _, rest, split, later⟩⟩ := call_takes lists returned
    all_goals
      have size := congrArg List.length names
      rw [List.length_map, List.length_map] at size
      have most := ih later
      simp only [split, List.length_append, List.length_cons]
      omega

/-- A listing names every entry of the directory once, in its order, if and only if no call comes to an entry that does not fit. -/
theorem listing_complete_iff {calls : List DirCall} {records : List LinuxDirent64} (lists : Lists dir s entries)
    (listing : Listing dir fd s calls records) :
    records.map LinuxDirent64.dName = entries.map VfsDirent.name ↔ Unbroken dir fd s calls := by
  induction listing generalizing entries with
  | last ample returned =>
    cases lists with
    | done ends =>
      obtain ⟨taken, names, _, ⟨kept, rest, split, _⟩ | ⟨_, _, rest, split, _⟩⟩ := call_takes (.done ends) returned
      · obtain ⟨rfl, _⟩ := List.append_eq_nil_iff.mp split.symm
        exact ⟨fun _ => ⟨kept, trivial⟩, fun _ => names⟩
      · simp at split
    | entry read rest => exact absurd rfl (call_some (.entry read rest) ample returned)
  | more ample returned some listing ih =>
    rw [Unbroken, returned]
    obtain ⟨taken, names, _, ⟨kept, rest, split, later⟩ | ⟨drops, _, rest, split, later⟩⟩ := call_takes lists returned
    · rw [List.map_append, names, split, List.map_append, List.append_cancel_left_eq, ih later]
      exact ⟨fun unbroken => ⟨kept, unbroken⟩, fun both => both.2⟩
    · -- A dropped entry is missing for good.
      refine ⟨fun same => ?_, fun both => absurd drops both.1⟩
      have size := congrArg List.length same
      have first := congrArg List.length names
      have most := listing_length listing later
      rw [split] at size
      simp only [List.length_map, List.length_append, List.length_cons] at size first
      omega

/-- A directory whose entries are read from a list. -/
def listReader : DirReader (List VfsDirent) where
  readdir
    | [] => ([], .error .enoent)
    | entry :: entries => (entries, .ok entry)
  dirIndex entries := UInt32.ofNat (100 - entries.length)

theorem listReader_lists (entries : List VfsDirent) : Lists listReader entries entries := by
  induction entries with
  | nil =>
    refine .done fun n => ?_
    have stays : (fun s => (listReader.readdir s).1)^[n] [] = [] := Function.iterate_fixed rfl n
    rw [stays]
    rfl
  | cons entry entries ih => exact .entry rfl ih

/-- The current directory and a file called `document`. -/
def twoEntries : List VfsDirent :=
  [⟨[0x2E], 0o040755, by decide, by decide⟩, ⟨[0x64, 0x6F, 0x63, 0x75, 0x6D, 0x65, 0x6E, 0x74], 0o100644, by decide, by decide⟩]

/-- A buffer of some bytes that can be stored to. -/
def roomFor (count : UInt32) : DirCall := ⟨0x1000, count, fun _ _ => none⟩

theorem twoEntries_ample {count : UInt32} (large : 32 ≤ count.toNat) : Ample listReader twoEntries (roomFor count) := by
  intro t entry read
  cases read
  exact le_trans (by decide) large

theorem nil_ample (count : UInt32) : Ample listReader [] (roomFor count) := by
  intro t entry read
  cases read

/-- Two calls with room for sixty-four bytes list both entries, and so no call drops one. -/
theorem listing_roomy : Unbroken listReader .file twoEntries [roomFor 64, roomFor 64] :=
  (listing_complete_iff (listReader_lists twoEntries)
    (.more (twoEntries_ample (by decide)) rfl (by decide) (.last (nil_ample 64) rfl))).mp rfl

/-- Two calls with room for fifty bytes, which is more than each record takes, return the first entry and then the end. -/
theorem listing_loses :
    ∃ records, Listing listReader .file twoEntries [roomFor 50, roomFor 50] records ∧
      records.map LinuxDirent64.dName = [[0x2E]] ∧
      records.map LinuxDirent64.dName ≠ twoEntries.map VfsDirent.name :=
  ⟨_, .more (twoEntries_ample (by decide)) rfl (by decide) (.last (nil_ample 50) rfl), rfl, by decide⟩

end

end Enlil.Fd
