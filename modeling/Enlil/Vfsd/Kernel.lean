import Enlil.Vfs.Handles
import Enlil.Vfsd.Effects

/-! The calls of `kernel/syscall.c` that the server opens and changes files with. -/

namespace Enlil.Vfsd

open Enlil.Vfs (CString Kernel VfsFile Behind Safe Opened bindfsHandleGet wantsWrite reaches vfsOpen vfsWrite vfsRead vfsClose)

def vfsdHandleMax : Nat := 64

/-- The server's number for an error of the kernel; a call that does not return is taken for one that fails. -/
def Errno.ofKernel : Vfs.Errno → Errno
  | .enoent => .enoent
  | .eio => .eio
  | .enotdir => .enotdir
  | .einval => .einval
  | .enosys => .enosys
  | .enametoolong => .enametoolong
  | .ebadf => .kernel 9
  | .enomem => .enomem
  | .exdev => .kernel 18
  | .eisdir => .kernel 21
  | .enfile => .kernel 23
  | .erofs => .kernel 30
  | .eloop => .kernel 40
  | .stack => .kernel 0

/-- The parts of the kernel that only look at files. -/
structure Readers (β : Type) where
  read : β → VfsFile → Nat → Except Vfs.Errno (List UInt8)
  readdir : Vfs.Session β → Nat → Except Errno (List UInt8)
  stat : Vfs.Session β → Nat → Except Errno UInt32
  /-- Where a file is after it was moved in. -/
  seek : Vfs.Session β → Nat → Int → UInt32 → Except Errno Nat
  /-- The size of a file that is appended to. -/
  size : Vfs.Session β → Nat → Nat

section

variable {β : Type} (k : Kernel β) (readers : Readers β) (s : Vfs.Session β)

def vfsSrvHandleGet (handle : Nat) : Option VfsFile :=
  if handle = 0 ∨ vfsdHandleMax < handle then none else s.opened (handle - 1)

/-- Changes the open file of a handle. -/
def setFile (handle : Nat) (state : Vfs.State β) (file : Option VfsFile) : Vfs.Session β :=
  ⟨state, Function.update s.opened (handle - 1) file⟩

def vfsSrvHandleAlloc : Option Nat := (List.range vfsdHandleMax).find? fun slot => (s.opened slot).isNone

def sysVfsBootOpen (path : CString) (flags : UInt32) : Vfs.Session β × Except Errno Nat :=
  match vfsOpen k k.stack s.state path flags with
  | (state, .error error) => ({ s with state }, .error (.ofKernel error))
  | (state, .ok file) =>
    match vfsSrvHandleAlloc s with
    | none => ({ s with state := vfsClose k.stack state file }, .error (.kernel 23))
    | some slot => (setFile s (slot + 1) state (some file), .ok (slot + 1))

def sysVfsBootRead (handle count : Nat) : Vfs.Session β × Except Errno (List UInt8) :=
  match vfsSrvHandleGet s handle with
  | none => (s, .error (.kernel 9))
  | some file =>
    match vfsRead readers.read k.stack s.state file count with
    | (state, file, .ok bytes) => (setFile s handle state (some file), .ok bytes)
    | (state, file, .error error) => (setFile s handle state (some file), .error (.ofKernel error))

def sysVfsBootWrite (handle : Nat) (data : List UInt8) : Vfs.Session β × Except Errno Nat :=
  match vfsSrvHandleGet s handle with
  | none => (s, .error (.kernel 9))
  | some file =>
    match vfsWrite k k.stack s.state file data (readers.size s handle) with
    | (state, file, .ok written) => (setFile s handle state (some file), .ok written)
    | (state, file, .error error) => (setFile s handle state (some file), .error (.ofKernel error))

def sysVfsBootClose (handle : Nat) : Vfs.Session β × Except Errno Unit :=
  match vfsSrvHandleGet s handle with
  | none => (s, .error (.kernel 9))
  | some file =>
    if file.mount.isBind = true ∧ bindfsHandleGet s.state file.cookie = none then (s, .error (.kernel 9))
    else (setFile s handle (vfsClose k.stack s.state file) none, .ok ())

def sysVfsBootLseek (handle : Nat) (offset : Int) (whence : UInt32) : Vfs.Session β × Except Errno Nat :=
  match vfsSrvHandleGet s handle with
  | none => (s, .error (.kernel 9))
  | some file =>
    match readers.seek s handle offset whence with
    | .error error => (s, .error error)
    | .ok pos => (setFile s handle s.state (some { file with pos }), .ok pos)

/-- The calls of the server, which is the one owner of its open files. -/
def kernelBoot : Boot (Vfs.Session β) where
  openNow := sysVfsBootOpen k
  statNow s handle := (s, if (vfsSrvHandleGet s handle).isSome then readers.stat s handle else .error (.kernel 9))
  closeNow := sysVfsBootClose k
  readNow := sysVfsBootRead k readers
  writeNow := sysVfsBootWrite k readers
  readdirNow s handle := (s, if (vfsSrvHandleGet s handle).isSome then readers.readdir s handle else .error (.kernel 9))
  lseekNow := sysVfsBootLseek readers

/-- The handles of the bind mounts behind each open file, which no two of them share; a file that is guarded cannot be written to the disk. -/
structure Chained (guarded : Nat → Bool) (chain : Nat → List Nat) : Prop where
  behind : ∀ slot file, s.opened slot = some file → ∃ mount flags, Behind s.state file (chain slot) mount flags ∧
    (chain slot).Nodup ∧ (guarded (slot + 1) = true → Safe mount flags)
  apart : ∀ slot other, slot ≠ other → (s.opened slot).isSome = true → (s.opened other).isSome = true →
    (chain slot).Disjoint (chain other)

variable {k readers s} {s' : Vfs.Session β} {guarded : Nat → Bool} {chain : Nat → List Nat} {slot handle : Nat} {file : VfsFile}

theorem Chained.inUse (chained : Chained s guarded chain) (open_ : s.opened slot = some file) :
    ∀ i ∈ chain slot, (s.state.bindfsHandles i).inUse = true := by
  obtain ⟨mount, flags, behind, -⟩ := chained.behind slot file open_
  exact behind.inUse

theorem Chained.kept (chained : Chained s guarded chain) (state : Vfs.State β)
    (kept : ∀ slot file, s.opened slot = some file → ∀ i ∈ chain slot, state.bindfsHandles i = s.state.bindfsHandles i) :
    Chained { s with state } guarded chain := by
  refine ⟨fun slot file open_ => ?_, chained.apart⟩
  obtain ⟨mount, flags, behind, once, safe⟩ := chained.behind slot file open_
  exact ⟨mount, flags, behind.same (kept slot file open_), once, safe⟩

theorem Chained.setFile (chained : Chained s guarded chain) {state : Vfs.State β} {handles : List Nat} {mount : Vfs.Mount}
    {flags : UInt32} {guard : Bool}
    (kept : ∀ other file, other ≠ slot → s.opened other = some file → ∀ i ∈ chain other,
      state.bindfsHandles i = s.state.bindfsHandles i)
    (behind : Behind state file handles mount flags) (once : handles.Nodup) (safe : guard = true → Safe mount flags)
    (apart : ∀ other, other ≠ slot → (s.opened other).isSome = true → handles.Disjoint (chain other)) :
    Chained (setFile s (slot + 1) state (some file)) (Function.update guarded (slot + 1) guard)
      (Function.update chain slot handles) := by
  unfold Vfsd.setFile
  rw [Nat.add_sub_cancel]
  constructor
  · intro other file' open_
    dsimp only at open_ ⊢
    by_cases here : other = slot
    · subst here
      rw [Function.update_self] at open_ ⊢
      cases open_
      exact ⟨mount, flags, behind, once, by rw [Function.update_self]; exact safe⟩
    · rw [Function.update_of_ne here] at open_ ⊢
      obtain ⟨mount', flags', behind', once', safe'⟩ := chained.behind other file' open_
      exact ⟨mount', flags', behind'.same (kept other file' here open_), once',
        by rw [Function.update_of_ne (by omega)]; exact safe'⟩
  · intro one other differ
    dsimp only
    by_cases here : one = slot <;> by_cases there : other = slot
    · exact absurd (here.trans there.symm) differ
    · subst here
      rw [Function.update_self, Function.update_self, Function.update_of_ne there, Function.update_of_ne there]
      exact fun _ open_ => apart other there open_
    · subst there
      rw [Function.update_self, Function.update_self, Function.update_of_ne here, Function.update_of_ne here]
      exact fun open_ _ => (apart one here open_).symm
    · rw [Function.update_of_ne here, Function.update_of_ne here, Function.update_of_ne there, Function.update_of_ne there]
      exact chained.apart one other differ

theorem Chained.unguard {guards : Bool} (chained : Chained s (Function.update guarded (slot + 1) guards) chain) (closed : s.opened slot = none) :
    Chained s guarded chain := by
  refine ⟨fun other file open_ => ?_, chained.apart⟩
  obtain ⟨mount, flags, behind, once, safe⟩ := chained.behind other file open_
  refine ⟨mount, flags, behind, once, fun guards => safe ?_⟩
  have differ : other ≠ slot := by
    rintro rfl
    rw [closed] at open_
    cases open_
  rwa [Function.update_of_ne (by omega)]

/-- The open files have handles of their own, and those that are guarded cannot be written to the disk. -/
def Guards (s : Vfs.Session β) (guarded : Nat → Bool) : Prop := ∃ chain, Chained s guarded chain

theorem vfsSrvHandleGet_some (got : vfsSrvHandleGet s handle = some file) :
    ∃ slot, handle = slot + 1 ∧ slot < vfsdHandleMax ∧ s.opened slot = some file := by
  unfold vfsSrvHandleGet at got
  split at got
  · cases got
  · rename_i inside
    rw [not_or] at inside
    exact ⟨handle - 1, by omega, by omega, got⟩

/-- An open that is safe: it asks for no writing, or does not lead to the disk. -/
def OpensSafely (k : Kernel β) (s : Vfs.Session β) (path : CString) (flags : UInt32) : Prop :=
  wantsWrite flags = false ∨ reaches k k.stack s.state.files path flags = false

theorem Guards.open {path : CString} {flags : UInt32} {result : Except Errno Nat} (guards : Guards s guarded)
    (ran : sysVfsBootOpen k s path flags = (s', result)) :
    (OpensSafely k s path flags → s'.state.files = s.state.files) ∧
      (∀ error, result = .error error → Guards s' guarded) ∧
      ∀ handle, result = .ok handle → (∃ slot file, handle = slot + 1 ∧ slot < vfsdHandleMax ∧ s'.opened slot = some file) ∧
        ∀ guard, (guard = true → OpensSafely k s path flags) → Guards s' (Function.update guarded handle guard) := by
  obtain ⟨chain, chained⟩ := guards
  have opened : Opened s.state flags (OpensSafely k s path flags) (vfsOpen k k.stack s.state path flags) :=
    Vfs.vfsOpen_opened s.state path flags
  unfold sysVfsBootOpen at ran
  split at ran
  · rename_i state error found
    rw [found] at opened
    cases ran
    refine ⟨opened.files, fun _ _ => ⟨chain, chained.kept state fun slot file open_ i member => ?_⟩, nofun⟩
    exact opened.kept i (chained.inUse open_ i member)
  · rename_i state file found
    rw [found] at opened
    obtain ⟨handles, mount, behind, once, fresh, safe⟩ := opened.behind file rfl
    split at ran
    · cases ran
      obtain ⟨others, files⟩ := Vfs.vfsClose_behind k.stack behind
      refine ⟨fun safe => files.trans (opened.files safe), fun _ _ => ⟨chain, chained.kept _ fun slot file open_ i member => ?_⟩,
        nofun⟩
      have used := chained.inUse open_ i member
      rw [others i fun new => by rw [fresh i new] at used; cases used]
      exact opened.kept i used
    · rename_i slot free
      cases ran
      have inside := List.mem_range.mp (List.mem_of_find?_eq_some free)
      refine ⟨opened.files, nofun, fun handle same => ?_⟩
      cases same
      refine ⟨⟨slot, file, rfl, inside, ?_⟩, fun guard allowed => ?_⟩
      · show Function.update s.opened (slot + 1 - 1) (some file) slot = some file
        rw [Nat.add_sub_cancel, Function.update_self]
      · refine ⟨_, chained.setFile (fun other file' _ open_ i member => opened.kept i (chained.inUse open_ i member)) behind once
          (fun guards => safe (allowed guards)) fun other _ open_ i new old => ?_⟩
        -- What is behind a new file was not in use.
        obtain ⟨file', open_⟩ := Option.isSome_iff_exists.mp open_
        have used := chained.inUse open_ i old
        rw [fresh i new] at used
        cases used

theorem Guards.change {state : Vfs.State β} {file' : VfsFile} (chained : Chained s guarded chain) (open_ : s.opened slot = some file)
    (step : ∀ mount flags, Behind s.state file (chain slot) mount flags → (chain slot).Nodup →
      (∀ i, i ∉ chain slot → state.bindfsHandles i = s.state.bindfsHandles i) ∧ Behind state file' (chain slot) mount flags) :
    Guards (Vfsd.setFile s (slot + 1) state (some file')) guarded := by
  obtain ⟨mount, flags, behind, once, safe⟩ := chained.behind slot file open_
  obtain ⟨others, behind'⟩ := step mount flags behind once
  have changed : Chained (Vfsd.setFile s (slot + 1) state (some file')) _ _ :=
    chained.setFile (fun other file'' differ open_' i member =>
      others i fun here => chained.apart other slot differ (by rw [open_']; rfl) (by rw [open_]; rfl) member here) behind' once safe
      fun other differ open_' => chained.apart slot other differ.symm (by rw [open_]; rfl) open_'
  rw [Function.update_eq_self] at changed
  exact ⟨_, changed⟩

theorem Guards.read {count : Nat} {result : Except Errno (List UInt8)} (guards : Guards s guarded)
    (ran : sysVfsBootRead k readers s handle count = (s', result)) : Guards s' guarded ∧ s'.state.files = s.state.files := by
  unfold sysVfsBootRead at ran
  split at ran
  · cases ran
    exact ⟨guards, rfl⟩
  rename_i file got
  obtain ⟨slot, rfl, -, open_⟩ := vfsSrvHandleGet_some got
  obtain ⟨chain, chained⟩ := guards
  obtain ⟨mount, flags, behind, once, -⟩ := chained.behind slot file open_
  have reads := Vfs.vfsRead_behind k.stack readers.read count behind once
  have changed : Guards (Vfsd.setFile s (slot + 1) (vfsRead readers.read k.stack s.state file count).1
      (some (vfsRead readers.read k.stack s.state file count).2.1)) guarded :=
    Guards.change chained open_ fun mount flags behind once =>
      ⟨(Vfs.vfsRead_behind _ readers.read count behind once).1, (Vfs.vfsRead_behind _ readers.read count behind once).2.1⟩
  split at ran
  all_goals
    rename_i found
    rw [found] at changed reads
    cases ran
    exact ⟨changed, reads.2.2⟩

theorem Guards.write {data : List UInt8} {result : Except Errno Nat} (guards : Guards s guarded)
    (ran : sysVfsBootWrite k readers s handle data = (s', result)) :
    Guards s' guarded ∧ (guarded handle = true → s'.state.files = s.state.files) := by
  unfold sysVfsBootWrite at ran
  split at ran
  · cases ran
    exact ⟨guards, fun _ => rfl⟩
  rename_i file got
  obtain ⟨slot, rfl, -, open_⟩ := vfsSrvHandleGet_some got
  obtain ⟨chain, chained⟩ := guards
  obtain ⟨mount, flags, behind, once, safe⟩ := chained.behind slot file open_
  have writes := @Vfs.vfsWrite_behind β k s.state file _ mount flags k.stack data (readers.size s (slot + 1)) behind once
  have changed : Guards (Vfsd.setFile s (slot + 1) (vfsWrite k k.stack s.state file data (readers.size s (slot + 1))).1
      (some (vfsWrite k k.stack s.state file data (readers.size s (slot + 1))).2.1)) guarded :=
    Guards.change chained open_ fun mount flags behind once =>
      ⟨(Vfs.vfsWrite_behind _ data _ behind once).1, (Vfs.vfsWrite_behind _ data _ behind once).2.1⟩
  split at ran
  all_goals
    rename_i found
    rw [found] at changed writes
    cases ran
    exact ⟨changed, fun guards => writes.2.2 (safe guards)⟩

theorem Guards.seek {offset : Int} {whence : UInt32} {result : Except Errno Nat} (guards : Guards s guarded)
    (ran : sysVfsBootLseek readers s handle offset whence = (s', result)) :
    Guards s' guarded ∧ s'.state.files = s.state.files := by
  unfold sysVfsBootLseek at ran
  split at ran
  · cases ran
    exact ⟨guards, rfl⟩
  rename_i file got
  obtain ⟨slot, rfl, -, open_⟩ := vfsSrvHandleGet_some got
  obtain ⟨chain, chained⟩ := guards
  split at ran
  · cases ran
    exact ⟨⟨chain, chained⟩, rfl⟩
  · cases ran
    exact ⟨Guards.change chained open_ fun mount flags behind _ => ⟨fun _ _ => rfl, behind.setPos _⟩, rfl⟩

theorem Guards.close {result : Except Errno Unit} (guards : Guards s guarded)
    (ran : sysVfsBootClose k s handle = (s', result)) :
    Guards s' guarded ∧ s'.state.files = s.state.files ∧
      ((vfsSrvHandleGet s handle).isSome = true → s'.opened (handle - 1) = none) := by
  unfold sysVfsBootClose at ran
  split at ran
  · rename_i missing
    cases ran
    exact ⟨guards, rfl, fun there => by rw [missing] at there; cases there⟩
  rename_i file got
  obtain ⟨slot, rfl, -, open_⟩ := vfsSrvHandleGet_some got
  obtain ⟨chain, chained⟩ := guards
  obtain ⟨mount, flags, behind, -, -⟩ := chained.behind slot file open_
  split at ran
  · -- A file of a bind mount has its handle.
    rename_i lost
    generalize chain slot = handles at behind
    cases behind with
    | plain plain => rw [plain] at lost; cases lost.1
    | bind _ found => rw [lost.2] at found; cases found
  · cases ran
    obtain ⟨others, files⟩ := Vfs.vfsClose_behind k.stack behind
    refine ⟨⟨chain, fun other file' open_' => ?_, fun one other differ one_ other_ => ?_⟩, files, fun _ => ?_⟩
    · unfold Vfsd.setFile at open_' ⊢
      rw [Nat.add_sub_cancel] at open_' ⊢
      dsimp only at open_' ⊢
      by_cases here : other = slot
      · rw [here, Function.update_self] at open_'
        cases open_'
      · rw [Function.update_of_ne here] at open_'
        obtain ⟨mount', flags', behind', once', safe'⟩ := chained.behind other file' open_'
        refine ⟨mount', flags', behind'.same fun i member => others i fun mine => ?_, once', safe'⟩
        exact chained.apart other slot here (by rw [open_']; rfl) (by rw [open_]; rfl) member mine
    · -- What is open still was open before.
      have before : ∀ other, ((Vfsd.setFile s (slot + 1) (vfsClose k.stack s.state file) none).opened other).isSome = true →
          (s.opened other).isSome = true := by
        intro other there
        unfold Vfsd.setFile at there
        rw [Nat.add_sub_cancel] at there
        dsimp only at there
        by_cases here : other = slot
        · rw [here, Function.update_self] at there
          cases there
        · rwa [Function.update_of_ne here] at there
      exact chained.apart one other differ (before one one_) (before other other_)
    · unfold Vfsd.setFile
      dsimp only
      rw [Function.update_self]

theorem Guards.stat {path : CString} {result : Except Errno UInt32} (guards : Guards s guarded)
    (ran : vfsdBootPathStat (kernelBoot k readers) s path = (s', result)) :
    Guards s' guarded ∧ s'.state.files = s.state.files := by
  have reads : OpensSafely k s path 0 := .inl (by decide)
  unfold vfsdBootPathStat at ran
  split at ran
  · rename_i s₁ error opened
    cases ran
    obtain ⟨files, failed, -⟩ := guards.open opened
    exact ⟨failed error rfl, files reads⟩
  · rename_i s₁ handle opened
    obtain ⟨files, -, made⟩ := guards.open opened
    obtain ⟨⟨slot, file, rfl, inside, open_⟩, guarded'⟩ := made handle rfl
    have guards' := guarded' true fun _ => reads
    dsimp only [kernelBoot] at ran
    cases closed : sysVfsBootClose k s₁ (slot + 1) with
    | mk s₂ closing =>
      rw [closed] at ran
      cases ran
      obtain ⟨⟨chain, chained⟩, files', gone⟩ := guards'.close closed
      refine ⟨⟨chain, chained.unguard (gone ?_)⟩, files'.trans (files reads)⟩
      unfold vfsSrvHandleGet
      rw [if_neg (by unfold vfsdHandleMax at *; omega), Nat.add_sub_cancel, open_]
      rfl

end

end Enlil.Vfsd
