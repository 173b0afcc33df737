import Enlil.Lib.Run
import Enlil.Vfs.Calls

/-! Runs of calls on paths of read-only mounts, and when they leave the files of the disk as they are. -/

namespace Enlil.Vfs

/-- The files of the disk, and those that calls have opened. -/
structure Session (β : Type) where
  state : State β
  opened : Nat → Option VfsFile

/-- The calls that may change files; each open file has a slot of its own. -/
inductive Op where
  | open (slot : Nat) (path : CString) (flags : UInt32)
  | write (slot : Nat) (data : List UInt8) (size : Nat)
  | close (slot : Nat)
  | mkdir (path : CString) (mode : UInt32)
  | unlink (path : CString)
  | symlink (target path : CString)
  | truncate (path : CString) (size : Nat)
  | rename (oldPath newPath : CString)
  | utimens (path : CString) (times : Except Errno (Option Nat × Option Nat)) (flags : UInt32)

section

variable {β : Type} (k : Kernel β)

/-- The files after a call. -/
def Op.after (s : Session β) : Op → Session β
  | .open slot path flags =>
    match vfsOpen k k.stack s.state path flags with
    | (state, .ok file) => ⟨state, Function.update s.opened slot (some file)⟩
    | (state, .error _) => { s with state }
  | .write slot data size =>
    match s.opened slot with
    | none => s
    | some file =>
      match vfsWrite k k.stack s.state file data size with
      | (state, file, _) => ⟨state, Function.update s.opened slot (some file)⟩
  | .close slot =>
    match s.opened slot with
    | none => s
    | some file => ⟨vfsClose k.stack s.state file, Function.update s.opened slot none⟩
  | .mkdir path mode => { s with state := (vfsMkdir k k.stack s.state path mode).1 }
  | .unlink path => { s with state := (vfsUnlink k k.stack s.state path).1 }
  | .symlink target path => { s with state := (vfsSymlink k k.stack s.state target path).1 }
  | .truncate path size => { s with state := (vfsTruncate k k.stack s.state path size).1 }
  | .rename oldPath newPath => { s with state := (vfsRename k k.stack s.state oldPath newPath).1 }
  | .utimens path times flags => { s with state := (vfsUtimens k k.stack s.state path times flags).1 }

def exec (s : Session β) (op : Op) : Except Empty (Session β) := .ok (op.after k s)

/-- Before any file is open. -/
def boot (files : β) : Session β := ⟨⟨files, fun _ => ⟨false, none⟩⟩, fun _ => none⟩

/-- The mount that matches most of a path is read-only. -/
def OnReadonly (path : CString) : Prop := (findMount k.mounts path).any (·.readonly) = true

/-- The paths of a call are all on read-only mounts. -/
def Op.OnReadonly : Op → Prop
  | .open _ path _ | .mkdir path _ | .unlink path | .symlink _ path | .truncate path _ | .utimens path _ _ =>
    Vfs.OnReadonly k path
  | .rename oldPath newPath => Vfs.OnReadonly k oldPath ∧ Vfs.OnReadonly k newPath
  | .write .. | .close _ => True

/-- The links of a path lead to a read-only mount, and one that is allowed. -/
def Leads (s : Session β) (followFinal allowMissing : Bool) (path : CString) (allowed : Mount → Bool) : Prop :=
  (match (looks k s.state.files k.stack).resolve k followFinal allowMissing path with
  | .error _ => true
  | .ok resolved => (findMount k.mounts resolved).all fun mount => mount.readonly && allowed mount) = true

/-- The condition on a call: its paths and their links lead to read-only mounts, and only times are to be changed, or a file is to be opened for reading, if one of these is a bind mount. -/
def Careful (s : Session β) (op : Op) : Prop :=
  op.OnReadonly k ∧
    match op with
    | .open _ path flags => Leads k s true (flags &&& oCreat ≠ 0) path fun mount => !mount.isBind || !wantsWrite flags
    | .mkdir path _ | .symlink _ path => Leads k s false true path fun mount => !mount.isBind
    | .unlink path => Leads k s false false path fun mount => !mount.isBind
    | .truncate path _ => Leads k s true false path fun mount => !mount.isBind
    | .rename oldPath _ => Leads k s false false oldPath fun mount => !mount.isBind
    | .utimens path _ flags => Leads k s (flags &&& vfsUtimensNofollow = 0) false path fun _ => true
    | .write .. | .close _ => True

instance (path : CString) : Decidable (OnReadonly k path) := inferInstanceAs (Decidable (_ = true))

instance : (op : Op) → Decidable (op.OnReadonly k)
  | .open .. | .mkdir .. | .unlink _ | .symlink .. | .truncate .. | .utimens .. => inferInstanceAs (Decidable (OnReadonly k _))
  | .rename .. => inferInstanceAs (Decidable (_ ∧ _))
  | .write .. | .close _ => inferInstanceAs (Decidable True)

instance (s : Session β) (followFinal allowMissing : Bool) (path : CString) (allowed : Mount → Bool) :
    Decidable (Leads k s followFinal allowMissing path allowed) := inferInstanceAs (Decidable (_ = true))

instance (s : Session β) : (op : Op) → Decidable (Careful k s op)
  | .open .. | .mkdir .. | .unlink _ | .symlink .. | .truncate .. | .utimens .. | .rename .. =>
    inferInstanceAs (Decidable (_ ∧ Leads k ..))
  | .write .. | .close _ => inferInstanceAs (Decidable (_ ∧ True))

variable {k} {s : State β} {depth : Nat}

/-- No file behind a bind mount is open for writing. -/
def Reading (s : State β) : Prop := ∀ i file, (s.bindfsHandles i).file = some file → writable file.flags = false

/-- A file that writes to leave the disk as it is. -/
def Harmless (file : VfsFile) : Prop := file.mount.driver = .ext4 → writable file.flags = false

theorem Reading.setHandle (reading : Reading s) {i : Nat} {handle : BindfsHandle}
    (reads : ∀ file, handle.file = some file → writable file.flags = false) : Reading (s.setHandle i handle) := by
  intro j file found
  dsimp only [State.setHandle] at found
  by_cases here : j = i
  · rw [here, Function.update_self] at found
    exact reads file found
  · rw [Function.update_of_ne here] at found
    exact reading j file found

theorem readonly_driver {mount : Mount} (found : mount ∈ k.mounts) (readonly : mount.readonly = true) :
    mount.driver ≠ .ext4 := by
  unfold Kernel.mounts at found
  revert mount
  cases k.initrdReady <;> cases k.blkReady <;> cases k.ext4Mounted <;> decide

theorem findMount_mem {mounts : List Mount} {path : CString} {mount : Mount} (found : findMount mounts path = some mount) :
    mount ∈ mounts := by
  have fold (best : Option Mount) (result : mounts.foldl (betterMount path) best = some mount) :
      best = some mount ∨ mount ∈ mounts := by
    clear found
    induction mounts generalizing best with
    | nil => exact .inl result
    | cons first rest ih =>
      rcases ih _ result with same | member
      · unfold betterMount at same
        split at same
        · cases same
          exact .inr List.mem_cons_self
        · exact .inl same
      · exact .inr (List.mem_cons_of_mem _ member)
  exact (fold none found).resolve_left nofun

theorem wantsWrite_false {flags : UInt32} (reads : wantsWrite flags = false) :
    writable flags = false ∧ flags &&& oCreat = 0 ∧ flags &&& oTrunc = 0 := by
  simp only [wantsWrite, Bool.or_eq_false_iff, bne_eq_false_iff_eq] at reads
  obtain ⟨⟨notWronly, notRdwr⟩, none⟩ := reads
  have part (bit : UInt32) (within : (oCreat ||| oTrunc ||| oAppend) &&& bit = bit) : flags &&& bit = 0 := by
    rw [← within, ← UInt32.and_assoc, none, UInt32.zero_and]
  refine ⟨?_, part oCreat (by decide), part oTrunc (by decide)⟩
  unfold writable
  rw [notWronly, notRdwr]
  rfl

theorem ext4OpenVfs_reads (s : State β) (mount : Mount) (relpath : CString) {flags : UInt32} (reads : wantsWrite flags = false) :
    (ext4OpenVfs k s mount relpath flags).1 = s ∧
      ∀ file, (ext4OpenVfs k s mount relpath flags).2 = .ok file → writable file.flags = false := by
  obtain ⟨notWritable, notCreat, notTrunc⟩ := wantsWrite_false reads
  unfold ext4OpenVfs
  split
  · exact ⟨rfl, nofun⟩
  split
  · exact ⟨rfl, nofun⟩
  split
  · rw [if_neg fun both => both.2 notCreat]
    exact ⟨rfl, nofun⟩
  · split
    · exact ⟨rfl, nofun⟩
    rw [if_neg fun trunc => trunc notTrunc]
    refine ⟨rfl, fun file opened => ?_⟩
    cases opened
    exact notWritable

theorem plainOpen_other (s : State β) {mount : Mount} (relpath : CString) (flags : UInt32) (other : mount.driver ≠ .ext4) :
    (plainOpen k s mount relpath flags).1 = s ∧
      ∀ file, (plainOpen k s mount relpath flags).2 = .ok file → file.mount = mount ∧ file.flags = flags := by
  -- A mount that has something at the path.
  have found (result : Except Errno UInt32) (file : VfsFile)
      (opened : (result.map fun _ => (⟨mount, 0, flags, 0, 0⟩ : VfsFile)) = .ok file) : file.mount = mount ∧ file.flags = flags := by
    cases result with
    | error error => cases opened
    | ok mode =>
      cases opened
      exact ⟨rfl, rfl⟩
  unfold plainOpen
  split
  · rename_i isDisk
    exact absurd isDisk other
  · split
    · exact ⟨rfl, nofun⟩
    · exact ⟨rfl, found _⟩
  · split
    · exact ⟨rfl, nofun⟩
    · exact ⟨rfl, found _⟩
  · split
    · exact ⟨rfl, nofun⟩
    · exact ⟨rfl, found _⟩
  · exact ⟨rfl, found _⟩
  · exact ⟨rfl, nofun⟩

theorem plainOpen_reads (s : State β) (mount : Mount) (relpath : CString) {flags : UInt32} (reads : wantsWrite flags = false) :
    (plainOpen k s mount relpath flags).1 = s ∧
      ∀ file, (plainOpen k s mount relpath flags).2 = .ok file → writable file.flags = false := by
  by_cases disk : mount.driver = .ext4
  · unfold plainOpen
    rw [disk]
    exact ext4OpenVfs_reads s mount relpath reads
  · obtain ⟨same, opens⟩ := plainOpen_other s relpath flags disk
    exact ⟨same, fun file opened => by rw [(opens file opened).2]; exact (wantsWrite_false reads).1⟩

/-- What opening a file for reading comes to. -/
structure Opens (s : State β) (result : State β × Except Errno VfsFile) : Prop where
  files : result.1.files = s.files
  reading : Reading s → Reading result.1
  file : ∀ file, result.2 = .ok file → writable file.flags = false

theorem Opens.same {result : State β × Except Errno VfsFile} (same : result.1 = s)
    (file : ∀ file, result.2 = .ok file → writable file.flags = false) : Opens s result :=
  ⟨by rw [same], fun reading => by rw [same]; exact reading, file⟩

theorem vfsOpenShadowed_reads (s : State β) (mount : Mount) (relpath : CString) {flags : UInt32} (error : Errno)
    (reads : wantsWrite flags = false) : Opens s (vfsOpenShadowed k s mount relpath flags error) := by
  unfold vfsOpenShadowed
  split
  · exact .same rfl nofun
  split
  · exact .same rfl nofun
  · obtain ⟨same, opens⟩ := plainOpen_reads (k := k) s _ _ reads
    exact .same same opens

theorem Opens.orShadowed {flags : UInt32} (reads : wantsWrite flags = false) {result : State β × Except Errno VfsFile}
    (opens : Opens s result) (mount : Mount) (relpath : CString) : Opens s (orShadowed k mount relpath flags result) := by
  obtain ⟨s', opened⟩ := result
  cases opened with
  | ok file => exact opens
  | error error =>
    unfold Vfs.orShadowed
    dsimp only
    split
    · have shadowed := vfsOpenShadowed_reads (k := k) s' mount relpath error reads
      exact ⟨shadowed.files.trans opens.files, fun reading => shadowed.reading (opens.reading reading), shadowed.file⟩
    · exact opens

theorem Opens.bind {flags : UInt32} (reads : wantsWrite flags = false) {result : State β × Except Errno VfsFile}
    (opens : Opens s result) (mount : Mount) (i : Nat) : Opens s (bindfsBind mount flags i result) := by
  obtain ⟨s', opened⟩ := result
  cases opened with
  | ok file =>
    refine ⟨opens.files, fun reading => (opens.reading reading).setHandle fun other same => ?_, fun other same => ?_⟩
    · cases same
      exact opens.file _ rfl
    · cases same
      exact (wantsWrite_false reads).1
  | error error => exact ⟨opens.files, fun reading => (opens.reading reading).setHandle nofun, nofun⟩

theorem vfsOpen_reads {flags : UInt32} (reads : wantsWrite flags = false) (s : State β) (path : CString) :
    Opens s (vfsOpen k depth s path flags) := by
  induction depth generalizing s path with
  | zero => exact .same rfl nofun
  | succ depth ih =>
    rw [vfsOpen]
    split
    · exact .same rfl nofun
    split
    · exact .same rfl nofun
    rename_i mount _
    split
    · unfold bindfsOpen
      split
      · exact .same rfl nofun
      rename_i backend _
      split
      · exact .same rfl nofun
      rename_i i _
      refine Opens.bind reads (Opens.orShadowed reads ?_ _ _) _ _
      have opens := ih (s.setHandle i ⟨true, none⟩) backend
      exact ⟨opens.files, fun reading => opens.reading (reading.setHandle nofun), opens.file⟩
    · obtain ⟨same, opens⟩ := plainOpen_reads (k := k) s _ _ reads
      exact .same same opens

theorem vfsWrite_harmless (s : State β) (file : VfsFile) (data : List UInt8) (size : Nat) (reading : Reading s)
    (harmless : Harmless file) :
    (vfsWrite k depth s file data size).1.files = s.files ∧ Reading (vfsWrite k depth s file data size).1 ∧
      (vfsWrite k depth s file data size).2.1.mount = file.mount ∧
      (vfsWrite k depth s file data size).2.1.flags = file.flags := by
  induction depth generalizing s file with
  | zero => exact ⟨rfl, reading, rfl, rfl⟩
  | succ depth ih =>
    rw [vfsWrite]
    split
    · rename_i disk
      unfold ext4WriteVfs
      rw [if_pos (harmless disk)]
      exact ⟨rfl, reading, rfl, rfl⟩
    · split
      · exact ⟨rfl, reading, rfl, rfl⟩
      rename_i i _
      split
      · exact ⟨rfl, reading, rfl, rfl⟩
      rename_i inner found
      have reads := reading i inner found
      obtain ⟨files, reading', mount, flags⟩ := ih s { inner with pos := file.pos } reading fun _ => reads
      refine ⟨files, reading'.setHandle fun other same => ?_, rfl, rfl⟩
      cases same
      rw [flags]
      exact reads
    · exact ⟨rfl, reading, rfl, rfl⟩
    · exact ⟨rfl, reading, rfl, rfl⟩

theorem vfsClose_keeps (s : State β) (file : VfsFile) (reading : Reading s) :
    (vfsClose depth s file).files = s.files ∧ Reading (vfsClose depth s file) := by
  induction depth generalizing s file with
  | zero => exact ⟨rfl, reading⟩
  | succ depth ih =>
    rw [vfsClose]
    split
    · split
      · exact ⟨rfl, reading⟩
      split
      · exact ⟨rfl, reading.setHandle nofun⟩
      · obtain ⟨files, reading'⟩ := ih s _ reading
        exact ⟨files, reading'.setHandle nofun⟩
    · exact ⟨rfl, reading⟩

theorem Leads.mount {s : Session β} {followFinal allowMissing : Bool} {path resolved : CString} {allowed : Mount → Bool}
    (leads : Leads k s followFinal allowMissing path allowed)
    (resolves : (looks k s.state.files k.stack).resolve k followFinal allowMissing path = .ok resolved) {mount : Mount}
    (found : findMount k.mounts resolved = some mount) :
    mount.readonly = true ∧ mount.driver ≠ .ext4 ∧ allowed mount = true := by
  unfold Leads at leads
  rw [resolves] at leads
  simp only [found, Option.all_some, Bool.and_eq_true] at leads
  exact ⟨leads.1, readonly_driver (findMount_mem found) leads.1, leads.2⟩

theorem pathCall_careful {s : Session β} (call : PathCall) {path : CString}
    (leads : Leads k s call.followFinal call.allowMissing path fun mount => !mount.isBind) :
    (pathCall k call k.stack s.state path).1 = s.state := by
  cases stack : k.stack with
  | zero => rfl
  | succ depth =>
    rw [pathCall]
    split
    · rfl
    rename_i resolved resolves
    split
    · rfl
    rename_i mount found
    obtain ⟨_, notDisk, notBind⟩ := leads.mount (stack ▸ resolves) found
    split
    · rename_i base bind
      simp [Mount.isBind, bind] at notBind
    · rename_i disk
      exact absurd disk notDisk
    · rfl

theorem vfsRename_careful {s : Session β} {oldPath newPath : CString}
    (leads : Leads k s false false oldPath fun mount => !mount.isBind) :
    (vfsRename k k.stack s.state oldPath newPath).1 = s.state := by
  cases stack : k.stack with
  | zero => rfl
  | succ depth =>
    rw [vfsRename]
    split
    · rfl
    rename_i resolved resolves
    split
    · rfl
    split
    · rename_i mount newMount found _
      split
      · rfl
      obtain ⟨_, notDisk, notBind⟩ := leads.mount (stack ▸ resolves) found
      split
      · rename_i base bind
        simp [Mount.isBind, bind] at notBind
      · rename_i disk
        exact absurd disk notDisk
      · rfl
    · rfl

theorem vfsUtimens_careful {s : Session β} {path : CString} {times : Except Errno (Option Nat × Option Nat)} {flags : UInt32}
    (leads : Leads k s (flags &&& vfsUtimensNofollow = 0) false path fun _ => true) :
    (vfsUtimens k k.stack s.state path times flags).1 = s.state := by
  cases stack : k.stack with
  | zero => rfl
  | succ depth =>
    rw [vfsUtimens]
    split
    · rfl
    split
    · rfl
    rename_i resolved resolves
    split
    · rfl
    rename_i mount found
    rw [if_pos (leads.mount (stack ▸ resolves) found).1]

theorem vfsOpen_careful {s : Session β} {path : CString} {flags : UInt32} (reading : Reading s.state)
    (leads : Leads k s true (flags &&& oCreat ≠ 0) path fun mount => !mount.isBind || !wantsWrite flags) :
    (vfsOpen k k.stack s.state path flags).1.files = s.state.files ∧ Reading (vfsOpen k k.stack s.state path flags).1 ∧
      ∀ file, (vfsOpen k k.stack s.state path flags).2 = .ok file → Harmless file := by
  by_cases reads : wantsWrite flags = false
  · have opens : Opens s.state (vfsOpen k k.stack s.state path flags) := vfsOpen_reads reads s.state path
    exact ⟨opens.files, opens.reading reading, fun file opened _ => opens.file file opened⟩
  cases stack : k.stack with
  | zero => exact ⟨rfl, reading, nofun⟩
  | succ depth =>
    rw [vfsOpen]
    split
    · exact ⟨rfl, reading, nofun⟩
    rename_i resolved resolves
    split
    · exact ⟨rfl, reading, nofun⟩
    rename_i mount found
    obtain ⟨_, notDisk, notBind⟩ := leads.mount (stack ▸ resolves) found
    have notBind : mount.isBind = false := by simpa [reads] using notBind
    split
    · rename_i base bind
      simp [Mount.isBind, bind] at notBind
    · obtain ⟨same, opens⟩ := plainOpen_other (k := k) s.state (relpathFromMount mount resolved) flags notDisk
      refine ⟨by rw [same], by rw [same]; exact reading, fun file opened disk => ?_⟩
      rw [(opens file opened).1] at disk
      exact absurd disk notDisk

/-- The files of the disk are as they were, and no open file can change them. -/
structure Intact (files : β) (s : Session β) : Prop where
  files : s.state.files = files
  reading : Reading s.state
  harmless : ∀ slot file, s.opened slot = some file → Harmless file

theorem Intact.sameState {files : β} {s : Session β} (intact : Intact files s) {state : State β} (same : state = s.state) :
    Intact files { s with state } := by
  subst same
  exact intact

theorem Intact.setSlot {files : β} {s : Session β} (intact : Intact files s) {state : State β} (same : state.files = s.state.files)
    (reading : Reading state) {slot : Nat} {kept : Option VfsFile} (harmless : ∀ file, kept = some file → Harmless file) :
    Intact files ⟨state, Function.update s.opened slot kept⟩ := by
  refine ⟨same.trans intact.files, reading, fun other file found => ?_⟩
  dsimp only at found
  by_cases here : other = slot
  · rw [here, Function.update_self] at found
    exact harmless file found
  · rw [Function.update_of_ne here] at found
    exact intact.harmless other file found

theorem Intact.after {files : β} {s : Session β} (intact : Intact files s) {op : Op} (careful : Careful k s op) :
    Intact files (op.after k s) := by
  obtain ⟨_, careful⟩ := careful
  cases op with
  | «open» slot path flags =>
    obtain ⟨same, reading, harmless⟩ := vfsOpen_careful intact.reading careful
    simp only [Op.after]
    split
    · rename_i state file opened
      rw [opened] at same reading harmless
      refine intact.setSlot same reading fun other kept => ?_
      cases kept
      exact harmless _ rfl
    · rename_i state error opened
      rw [opened] at same reading
      exact ⟨same.trans intact.files, reading, intact.harmless⟩
  | write slot data size =>
    simp only [Op.after]
    split
    · exact intact
    · rename_i file found
      obtain ⟨same, reading, mount, flags⟩ :=
        @vfsWrite_harmless β k k.stack s.state file data size intact.reading (intact.harmless slot file found)
      refine intact.setSlot same reading fun other kept => ?_
      cases kept
      unfold Harmless
      rw [mount, flags]
      exact intact.harmless slot file found
  | close slot =>
    simp only [Op.after]
    split
    · exact intact
    · rename_i file found
      obtain ⟨same, reading⟩ : _ ∧ Reading (vfsClose k.stack s.state file) := vfsClose_keeps s.state file intact.reading
      exact intact.setSlot same reading nofun
  | mkdir path mode => exact intact.sameState (pathCall_careful _ careful)
  | unlink path => exact intact.sameState (pathCall_careful _ careful)
  | symlink target path => exact intact.sameState (pathCall_careful _ careful)
  | truncate path size => exact intact.sameState (pathCall_careful _ careful)
  | rename oldPath newPath => exact intact.sameState (vfsRename_careful careful)
  | utimens path times flags => exact intact.sameState (vfsUtimens_careful careful)

/-- In every run of calls on read-only mounts in which bind mounts are only read, or asked to set times, no file of the disk changes. -/
theorem run_unchanged {files : β} {s : Session β} (run : Run (exec k) (Careful k) (boot files) s) : s.state.files = files := by
  have intact : Intact files s := by
    induction run with
    | start => exact ⟨rfl, fun _ => nofun, fun _ => nofun⟩
    | call op _ careful ran ih =>
      cases ran
      exact ih.after careful
  exact intact.files

end

/-- A disk that has only directories. -/
def directories : Disk (List CString) where
  lookupPath files path := if path = ['/'] ∨ files.contains path then .ok ⟨2, sIfdir, 0⟩ else .error .enoent
  readlinkPath _ _ := .error .einval
  createFile files path := (path :: files, .ok ⟨2, 0x8000, 0⟩)
  truncateInode files _ _ := (files, .error .eisdir)
  writeInodeData files _ _ _ := (files, .error .eisdir)
  createDir files path _ := (path :: files, .ok ())
  removePath files path := (files.erase path, .ok ())
  createSymlink files _ _ := (files, .error .einval)
  renamePath files oldPath newPath := (newPath :: files.erase oldPath, .ok ())
  setTimes files _ _ _ := (files, .ok ())

/-- A machine that has started with such a disk. -/
def mounted : Kernel (List CString) where
  initrdReady := true
  blkReady := true
  ext4Mounted := true
  stack := 3
  initrdMode path := if path = ['/'] then .ok sIfdir else .error .enoent
  devfsMode _ := .error .enoent
  devfsWrite data := .ok data.length
  procfsMode _ := .error .enoent
  procfsLink _ := .error .einval
  disk := directories

def usr : CString := ['/', 'u', 's', 'r']
def usrBin : CString := ['/', 'u', 's', 'r', '/', 'b', 'i', 'n']

/-- A directory of a read-only mount is opened for reading, and a call asks for times to be set there and for a directory on the archive. -/
def readUsr : List Op :=
  [.open 0 usr 0, .write 0 [1] 0, .utimens usr (.ok (some 0, none)) 0, .mkdir ['/', 'x'] 0]

theorem run_unchanged_readUsr : ∃ s, Run (exec mounted) (Careful mounted) (boot [usr]) s ∧
    (s.opened 0).isSome = true ∧ s.state.files = [usr] := by
  have found : (runList (exec mounted) (Careful mounted) (boot [usr]) readUsr).any (fun s => (s.opened 0).isSome) = true := by
    decide
  obtain ⟨s, run, seen⟩ := runList_any found
  exact ⟨s, run, seen, run_unchanged run⟩

/-- A directory that is made on the read-only mount of `/usr` is made on the disk. -/
theorem run_changed : ¬ ∀ s, Run (exec mounted) (fun _ op => op.OnReadonly mounted) (boot [usr]) s → s.state.files = [usr] := by
  intro claim
  have found : (runList (exec mounted) (fun _ op => op.OnReadonly mounted) (boot [usr]) [.mkdir usrBin 0x1ED]).any
      (fun s => s.state.files == [usrBin, usr]) = true := by decide
  obtain ⟨s, run, seen⟩ := runList_any found
  rw [claim s run] at seen
  exact absurd seen (by decide)

end Enlil.Vfs
