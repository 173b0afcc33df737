import Enlil.Vfs.Readonly

/-! The handles behind an open file of a bind mount: which of them a call touches, and when a path leads to the disk. -/

namespace Enlil.Vfs

section

variable {β : Type} (k : Kernel β)

/-- A path leads through bind mounts to the disk, as an open with these flags follows it. -/
def reaches : Nat → β → CString → UInt32 → Bool
  | 0, _, _, _ => false
  | depth + 1, files, path, flags =>
    match (looks k files (depth + 1)).resolve k true (flags &&& oCreat ≠ 0) path with
    | .error _ => false
    | .ok resolved =>
      match findMount k.mounts resolved with
      | none => false
      | some mount =>
        match mount.driver with
        | .ext4 => true
        | .bindfs base =>
          match bindfsResolveBackend base (relpathFromMount mount resolved) with
          | .error _ => false
          | .ok backend => reaches depth files backend flags
        | _ => false

/-- Reads from an open file, of which the reader sees the one behind all handles. -/
def vfsRead (read : β → VfsFile → Nat → Except Errno (List UInt8)) :
    Nat → State β → VfsFile → Nat → State β × VfsFile × Except Errno (List UInt8)
  | 0, s, file, _ => (s, file, .error .stack)
  | depth + 1, s, file, count =>
    match file.mount.driver with
    | .bindfs _ =>
      match bindfsHandleGet s file.cookie with
      | none => (s, file, .error .ebadf)
      | some i =>
        match (s.bindfsHandles i).file with
        | none => (s, file, .error .ebadf)
        | some inner =>
          match vfsRead read depth s { inner with pos := file.pos } count with
          | (s, inner, result) => (s.setHandle i ⟨true, some inner⟩, { file with pos := inner.pos }, result)
    | _ =>
      match read s.files file count with
      | .ok bytes => (s, { file with pos := file.pos + bytes.length }, .ok bytes)
      | .error error => (s, file, .error error)

/-- The handles behind an open file, one after the other, and what the last file is open for on which mount. -/
inductive Behind (s : State β) : VfsFile → List Nat → Mount → UInt32 → Prop where
  | plain {file : VfsFile} (plain : file.mount.isBind = false) : Behind s file [] file.mount file.flags
  | bind {file inner : VfsFile} {i : Nat} {rest : List Nat} {mount : Mount} {flags : UInt32} (bound : file.mount.isBind = true)
    (got : bindfsHandleGet s file.cookie = some i) (found : (s.bindfsHandles i).file = some inner)
    (behind : Behind s inner rest mount flags) : Behind s file (i :: rest) mount flags

variable {k} {s s' : State β} {file : VfsFile} {handles : List Nat} {mount : Mount} {flags : UInt32} {depth : Nat}

theorem bindfsHandleGet_some {cookie i : Nat} (got : bindfsHandleGet s cookie = some i) :
    cookie = i + 1 ∧ i < bindfsHandleMax ∧ (s.bindfsHandles i).inUse = true := by
  unfold bindfsHandleGet at got
  split at got
  · cases got
  · rename_i open_
    cases got
    rw [not_or, not_or] at open_
    obtain ⟨nonzero, within, used⟩ := open_
    exact ⟨by omega, by omega, by simpa using used⟩

theorem bindfsHandleGet_succ {i : Nat} (inside : i < bindfsHandleMax) (used : (s.bindfsHandles i).inUse = true) :
    bindfsHandleGet s (i + 1) = some i := by
  unfold bindfsHandleGet
  rw [if_neg (by rw [not_or, not_or]; exact ⟨by omega, by omega, by rw [Nat.add_sub_cancel, used]; nofun⟩),
    Nat.add_sub_cancel]

theorem Behind.same (behind : Behind s file handles mount flags)
    (same : ∀ i ∈ handles, s'.bindfsHandles i = s.bindfsHandles i) : Behind s' file handles mount flags := by
  induction behind with
  | plain plain => exact .plain plain
  | bind bound got found _ ih =>
    obtain ⟨cookie, inside, used⟩ := bindfsHandleGet_some got
    have here := same _ List.mem_cons_self
    refine .bind bound ?_ (by rw [here]; exact found) (ih fun i member => same i (List.mem_cons_of_mem _ member))
    rw [cookie]
    exact bindfsHandleGet_succ inside (by rw [here]; exact used)

theorem Behind.setPos (behind : Behind s file handles mount flags) (pos : Nat) :
    Behind s { file with pos } handles mount flags := by
  cases behind with
  | plain plain => exact @Behind.plain β s { file with pos } plain
  | bind bound got found behind => exact @Behind.bind β s { file with pos } _ _ _ _ _ bound got found behind

theorem Behind.inUse (behind : Behind s file handles mount flags) : ∀ i ∈ handles, (s.bindfsHandles i).inUse = true := by
  induction behind with
  | plain => nofun
  | bind _ got _ _ ih =>
    intro j member
    rcases List.mem_cons.mp member with rfl | member
    · exact (bindfsHandleGet_some got).2.2
    · exact ih j member

theorem setHandle_ne {i j : Nat} (other : j ≠ i) (handle : BindfsHandle) :
    (s.setHandle i handle).bindfsHandles j = s.bindfsHandles j := Function.update_of_ne other _ _

theorem setHandle_self (i : Nat) (handle : BindfsHandle) : (s.setHandle i handle).bindfsHandles i = handle :=
  Function.update_self _ _ _

theorem Behind.rebind {inner : VfsFile} {i : Nat} {rest : List Nat} (bound : file.mount.isBind = true)
    (cookie : file.cookie = i + 1) (inside : i < bindfsHandleMax) (behind : Behind s inner rest mount flags) (apart : i ∉ rest) :
    Behind (s.setHandle i ⟨true, some inner⟩) file (i :: rest) mount flags := by
  refine .bind bound ?_ (by rw [setHandle_self]) (behind.same fun j member => setHandle_ne (ne_of_mem_of_not_mem member apart) _)
  rw [cookie]
  exact bindfsHandleGet_succ inside (by rw [setHandle_self])

theorem isBind_driver {base : CString} (driver : mount.driver = .bindfs base) : mount.isBind = true := by
  unfold Mount.isBind
  rw [driver]

theorem isBind_base (bound : mount.isBind = true) : ∃ base, mount.driver = .bindfs base := by
  unfold Mount.isBind at bound
  split at bound
  · rename_i base driver
    exact ⟨base, driver⟩
  · cases bound

/-- What is the last of the files behind one, on the disk, and open for writing is what a write can harm. -/
def Safe (mount : Mount) (flags : UInt32) : Prop := mount.driver = .ext4 → writable flags = false

theorem vfsWrite_behind (depth : Nat) (data : List UInt8) (size : Nat) (behind : Behind s file handles mount flags)
    (once : handles.Nodup) :
    (∀ i, i ∉ handles → (vfsWrite k depth s file data size).1.bindfsHandles i = s.bindfsHandles i) ∧
      Behind (vfsWrite k depth s file data size).1 (vfsWrite k depth s file data size).2.1 handles mount flags ∧
      (Safe mount flags → (vfsWrite k depth s file data size).1.files = s.files) := by
  induction depth generalizing s file handles with
  | zero => exact ⟨fun _ _ => rfl, behind, fun _ => rfl⟩
  | succ depth ih =>
    rw [vfsWrite]
    cases behind with
    | plain plain =>
      split
      · rename_i disk
        unfold ext4WriteVfs
        split
        · exact ⟨fun _ _ => rfl, .plain plain, fun _ => rfl⟩
        · rename_i writes
          have harms : ¬Safe file.mount file.flags := fun safe => writes (safe disk)
          dsimp only
          split
          · exact ⟨fun _ _ => rfl, @Behind.plain β _ { file with pos := _ } plain, fun safe => absurd safe harms⟩
          · exact ⟨fun _ _ => rfl, .plain plain, fun safe => absurd safe harms⟩
      · rename_i base driver
        rw [isBind_driver driver] at plain
        cases plain
      · exact ⟨fun _ _ => rfl, .plain plain, fun _ => rfl⟩
      · exact ⟨fun _ _ => rfl, .plain plain, fun _ => rfl⟩
    | @bind _ inner i rest _ _ bound got found behind =>
      obtain ⟨apart, once⟩ := List.nodup_cons.mp once
      obtain ⟨cookie, inside, used⟩ := bindfsHandleGet_some got
      obtain ⟨base, driver⟩ := isBind_base bound
      simp only [driver, got, found]
      obtain ⟨others, behind', files⟩ := ih (behind.setPos file.pos) once
      refine ⟨fun j outside => ?_, (Behind.rebind bound cookie inside behind' apart).setPos _, files⟩
      rw [List.mem_cons, not_or] at outside
      rw [setHandle_ne outside.1]
      exact others j outside.2

theorem vfsRead_behind (depth : Nat) (read : β → VfsFile → Nat → Except Errno (List UInt8)) (count : Nat)
    (behind : Behind s file handles mount flags) (once : handles.Nodup) :
    (∀ i, i ∉ handles → (vfsRead read depth s file count).1.bindfsHandles i = s.bindfsHandles i) ∧
      Behind (vfsRead read depth s file count).1 (vfsRead read depth s file count).2.1 handles mount flags ∧
      (vfsRead read depth s file count).1.files = s.files := by
  induction depth generalizing s file handles with
  | zero => exact ⟨fun _ _ => rfl, behind, rfl⟩
  | succ depth ih =>
    rw [vfsRead]
    cases behind with
    | plain plain =>
      split
      · rename_i base driver
        rw [isBind_driver driver] at plain
        cases plain
      · split
        · exact ⟨fun _ _ => rfl, @Behind.plain β _ { file with pos := _ } plain, rfl⟩
        · exact ⟨fun _ _ => rfl, .plain plain, rfl⟩
    | @bind _ inner i rest _ _ bound got found behind =>
      obtain ⟨apart, once⟩ := List.nodup_cons.mp once
      obtain ⟨cookie, inside, used⟩ := bindfsHandleGet_some got
      obtain ⟨base, driver⟩ := isBind_base bound
      simp only [driver, got, found]
      obtain ⟨others, behind', files⟩ := ih (behind.setPos file.pos) once
      refine ⟨fun j outside => ?_, (Behind.rebind bound cookie inside behind' apart).setPos _, files⟩
      rw [List.mem_cons, not_or] at outside
      rw [setHandle_ne outside.1]
      exact others j outside.2

theorem vfsClose_behind (depth : Nat) (behind : Behind s file handles mount flags) :
    (∀ i, i ∉ handles → (vfsClose depth s file).bindfsHandles i = s.bindfsHandles i) ∧
      (vfsClose depth s file).files = s.files := by
  induction depth generalizing s file handles with
  | zero => exact ⟨fun _ _ => rfl, rfl⟩
  | succ depth ih =>
    rw [vfsClose]
    cases behind with
    | plain plain =>
      split
      · rename_i base driver
        rw [isBind_driver driver] at plain
        cases plain
      · exact ⟨fun _ _ => rfl, rfl⟩
    | @bind _ inner i rest _ _ bound got found behind =>
      obtain ⟨base, driver⟩ := isBind_base bound
      simp only [driver, got, found]
      obtain ⟨others, files⟩ := ih behind
      refine ⟨fun j outside => ?_, files⟩
      rw [List.mem_cons, not_or] at outside
      rw [setHandle_ne outside.1]
      exact others j outside.2

theorem findMount_matches {mounts : List Mount} {path : CString} (found : findMount mounts path = some mount) :
    pathMatchesMount path mount.path = true := by
  have fold (best : Option Mount) (good : ∀ best' ∈ best, pathMatchesMount path best'.path = true)
      (result : mounts.foldl (betterMount path) best = some mount) : pathMatchesMount path mount.path = true := by
    clear found
    induction mounts generalizing best with
    | nil => exact good mount result
    | cons first rest ih =>
      refine ih _ (fun best' member => ?_) result
      unfold betterMount at member
      split at member
      · rename_i better
        cases member
        exact (Bool.and_eq_true_iff.mp better).1
      · exact good best' member
  exact fold none nofun found

theorem prefix_vfsPathJoin {base rel path : CString} {cap : Nat} (joined : vfsPathJoin base rel cap = .ok path) :
    base <+: path := by
  unfold vfsPathJoin at joined
  split_ifs at joined <;> cases joined
  · exact List.prefix_rfl
  · exact List.prefix_append _ _
  · rw [List.append_assoc]
    exact List.prefix_append _ _

theorem bind_apart {bind disk : Mount} (there : bind ∈ k.mounts) (bound : bind.isBind = true) (here : disk ∈ k.mounts)
    (isDisk : disk.driver = .ext4) : disk.path ≠ ['/'] ∧ ¬bind.path <+: disk.path ∧ ¬disk.path <+: bind.path := by
  have all : ∀ bind ∈ k.mounts, bind.isBind = true → ∀ disk ∈ k.mounts, disk.driver = .ext4 →
      disk.path ≠ ['/'] ∧ ¬bind.path <+: disk.path ∧ ¬disk.path <+: bind.path := by
    unfold Kernel.mounts
    cases k.initrdReady <;> cases k.blkReady <;> cases k.ext4Mounted <;> decide
  exact all bind there bound disk here isDisk

theorem shadowed_notDisk {other : Mount} {relpath path : CString} (there : mount ∈ k.mounts) (bound : mount.isBind = true)
    (shadowed : shadowedPath mount relpath = .ok path) (found : findMountExcluding k.mounts path mount = some other) :
    other.driver ≠ .ext4 ∧ other.isBind = false := by
  have member := List.mem_filter.mp (findMount_mem found)
  obtain ⟨here, kept⟩ := member
  refine ⟨fun disk => ?_, ?_⟩
  · obtain ⟨proper, apart, apart'⟩ := bind_apart there bound here disk
    have matching := findMount_matches found
    unfold pathMatchesMount at matching
    rw [if_neg proper, Bool.and_eq_true, List.isPrefixOf_iff_prefix] at matching
    rcases List.prefix_or_prefix_of_prefix (prefix_vfsPathJoin shadowed) matching.1 with below | below
    · exact apart below
    · exact apart' below
  · simp only [bound, Bool.true_and, Bool.and_eq_true, Bool.not_eq_true'] at kept
    exact kept.2

/-- What an open comes to: the handles in use are as they were, and those behind the file are new. -/
structure Opened (s : State β) (flags : UInt32) (safe : Prop) (result : State β × Except Errno VfsFile) : Prop where
  kept : ∀ i, (s.bindfsHandles i).inUse = true → result.1.bindfsHandles i = s.bindfsHandles i
  behind : ∀ file, result.2 = .ok file → ∃ handles mount, Behind result.1 file handles mount flags ∧ handles.Nodup ∧
    (∀ i ∈ handles, (s.bindfsHandles i).inUse = false) ∧ (safe → Safe mount flags)
  files : safe → result.1.files = s.files

theorem Opened.failed {safe : Prop} (error : Errno) : Opened s flags safe (s, .error error) :=
  ⟨fun _ _ => rfl, nofun, fun _ => rfl⟩

theorem ext4OpenVfs_plain (s : State β) (mount : Mount) (relpath : CString) (flags : UInt32) :
    (ext4OpenVfs k s mount relpath flags).1.bindfsHandles = s.bindfsHandles ∧
      ∀ file, (ext4OpenVfs k s mount relpath flags).2 = .ok file → file.mount = mount ∧ file.flags = flags := by
  -- What is opened is a file of this mount, made or found.
  have made (result : Except Errno Inode) (file : VfsFile) (opened : (result.map fun inode => ext4File mount inode flags) = .ok file) :
      file.mount = mount ∧ file.flags = flags := by
    cases result with
    | error error => cases opened
    | ok inode =>
      cases opened
      exact ⟨rfl, rfl⟩
  unfold ext4OpenVfs
  split
  · exact ⟨rfl, nofun⟩
  split
  · exact ⟨rfl, nofun⟩
  split
  · split
    · exact ⟨rfl, made _⟩
    · exact ⟨rfl, nofun⟩
  · rename_i inode _
    split
    · exact ⟨rfl, nofun⟩
    split
    · split
      · exact ⟨rfl, nofun⟩
      split
      · exact ⟨rfl, nofun⟩
      · dsimp only
        refine ⟨rfl, fun file opened => ?_⟩
        generalize (k.disk.truncateInode s.files inode.ino 0).2 = result at opened
        cases result with
        | error error => cases opened
        | ok done =>
          cases opened
          exact ⟨rfl, rfl⟩
    · exact ⟨rfl, made (.ok inode)⟩

theorem plainOpen_opened (s : State β) {mount : Mount} (relpath : CString) (flags : UInt32) (plain : mount.isBind = false)
    {safe : Prop} (away : safe → wantsWrite flags = false ∨ mount.driver ≠ .ext4) :
    Opened s flags safe (plainOpen k s mount relpath flags) := by
  have opens : (plainOpen k s mount relpath flags).1.bindfsHandles = s.bindfsHandles ∧
      ∀ file, (plainOpen k s mount relpath flags).2 = .ok file → file.mount = mount ∧ file.flags = flags := by
    by_cases disk : mount.driver = .ext4
    · unfold plainOpen
      rw [disk]
      exact ext4OpenVfs_plain s mount relpath flags
    · obtain ⟨same, opens⟩ := plainOpen_other (k := k) s relpath flags disk
      exact ⟨by rw [same], opens⟩
  refine ⟨fun i _ => by rw [opens.1], fun file opened => ?_, fun safe => ?_⟩
  · obtain ⟨same, sameFlags⟩ := opens.2 file opened
    refine ⟨[], mount, ?_, List.nodup_nil, nofun, fun safe disk => ?_⟩
    · have := @Behind.plain β (plainOpen k s mount relpath flags).1 file (by rw [same]; exact plain)
      rwa [same, sameFlags] at this
    · rcases away safe with reads | other
      · exact (wantsWrite_false reads).1
      · exact absurd disk other
  · rcases away safe with reads | other
    · rw [(plainOpen_reads s mount relpath reads).1]
    · rw [(plainOpen_other s relpath flags other).1]

theorem Opened.orShadowed {safe : Prop} {result : State β × Except Errno VfsFile} (opened : Opened s flags safe result)
    (there : mount ∈ k.mounts) (bound : mount.isBind = true) (relpath : CString) :
    Opened s flags safe (orShadowed k mount relpath flags result) := by
  obtain ⟨s', answer⟩ := result
  cases answer with
  | ok file => exact opened
  | error error =>
    unfold Vfs.orShadowed
    dsimp only
    split
    · unfold vfsOpenShadowed
      split
      · exact ⟨opened.kept, nofun, opened.files⟩
      rename_i path shadowed
      split
      · exact ⟨opened.kept, nofun, opened.files⟩
      rename_i other found
      obtain ⟨notDisk, plain⟩ := shadowed_notDisk there bound shadowed found
      have opens : Opened s' flags safe (plainOpen k s' other (relpathFromMount other path) flags) :=
        plainOpen_opened s' _ flags plain fun _ => .inr notDisk
      have same := (plainOpen_other (k := k) s' (relpathFromMount other path) flags notDisk).1
      refine ⟨fun i used => ?_, fun file result => ?_, fun safe => ?_⟩
      · rw [same]
        exact opened.kept i used
      · -- A file of another mount has no handle.
        obtain ⟨handles, mount', behind, once, -, harmless⟩ := opens.behind file result
        have isOther := ((plainOpen_other (k := k) s' (relpathFromMount other path) flags notDisk).2 file result).1
        cases behind with
        | plain => exact ⟨[], _, .plain (by rw [isOther]; exact plain), List.nodup_nil, nofun, harmless⟩
        | bind bound => rw [isOther, plain] at bound; cases bound
      · rw [same]
        exact opened.files safe
    · exact opened

theorem bindfsHandleAlloc_free {i : Nat} (found : bindfsHandleAlloc s = some i) :
    i < bindfsHandleMax ∧ (s.bindfsHandles i).inUse = false := by
  have free := List.find?_some found
  exact ⟨List.mem_range.mp (List.mem_of_find?_eq_some found), by simpa using free⟩

theorem Opened.bind {safe : Prop} {i : Nat} {result : State β × Except Errno VfsFile} (bound : mount.isBind = true)
    (inside : i < bindfsHandleMax) (free : (s.bindfsHandles i).inUse = false)
    (opened : Opened (s.setHandle i ⟨true, none⟩) flags safe result) : Opened s flags safe (bindfsBind mount flags i result) := by
  obtain ⟨s', answer⟩ := result
  have apart : ∀ j, (s.bindfsHandles j).inUse = true → j ≠ i := by
    rintro j used rfl
    rw [free] at used
    cases used
  have kept : ∀ j, (s.bindfsHandles j).inUse = true → s'.bindfsHandles j = s.bindfsHandles j := by
    intro j used
    have same := setHandle_ne (s := s) (apart j used) ⟨true, none⟩
    rw [opened.kept j (by rw [same]; exact used), same]
  cases answer with
  | error error =>
    refine ⟨fun j used => ?_, nofun, opened.files⟩
    show (s'.setHandle i ⟨false, none⟩).bindfsHandles j = _
    rw [setHandle_ne (apart j used), kept j used]
  | ok file =>
    obtain ⟨handles, last, behind, once, fresh, harmless⟩ := opened.behind file rfl
    have notHere : i ∉ handles := fun member => by
      have := fresh i member
      rw [setHandle_self] at this
      cases this
    refine ⟨fun j used => ?_, fun other same => ?_, opened.files⟩
    · show (s'.setHandle i ⟨true, some file⟩).bindfsHandles j = _
      rw [setHandle_ne (apart j used), kept j used]
    · cases same
      refine ⟨i :: handles, last, behind.rebind bound rfl inside notHere, List.nodup_cons.mpr ⟨notHere, once⟩, ?_, harmless⟩
      intro j member
      rcases List.mem_cons.mp member with rfl | member
      · exact free
      · have := fresh j member
        rwa [setHandle_ne (ne_of_mem_of_not_mem member notHere)] at this

theorem vfsOpen_opened (s : State β) (path : CString) (flags : UInt32) :
    Opened s flags (wantsWrite flags = false ∨ reaches k depth s.files path flags = false) (vfsOpen k depth s path flags) := by
  induction depth generalizing s path with
  | zero => exact .failed _
  | succ depth ih =>
    rw [vfsOpen, reaches]
    cases (looks k s.files (depth + 1)).resolve k true (flags &&& oCreat ≠ 0) path with
    | error error => exact .failed _
    | ok resolved =>
      dsimp only
      cases found : findMount k.mounts resolved with
      | none => exact .failed _
      | some mount =>
        have there := findMount_mem found
        -- A mount that is no bind mount opens the file itself.
        have plain (isPlain : mount.isBind = false) {safe : Prop} (away : safe → wantsWrite flags = false ∨ mount.driver ≠ .ext4) :
            Opened s flags safe (plainOpen k s mount (relpathFromMount mount resolved) flags) :=
          plainOpen_opened s _ flags isPlain away
        have isPlain (other : ∀ base, mount.driver ≠ .bindfs base) : mount.isBind = false := by
          cases bound : mount.isBind with
          | false => rfl
          | true =>
            obtain ⟨base, driver⟩ := isBind_base bound
            exact absurd driver (other base)
        cases driver : mount.driver with
        | bindfs base =>
          simp only [driver]
          have bound := isBind_driver driver
          unfold bindfsOpen
          cases bindfsResolveBackend base (relpathFromMount mount resolved) with
          | error error => exact .failed _
          | ok backend =>
            dsimp only
            cases alloc : bindfsHandleAlloc s with
            | none => exact .failed _
            | some i =>
              obtain ⟨inside, free⟩ := bindfsHandleAlloc_free alloc
              exact Opened.bind bound inside free ((ih (s.setHandle i ⟨true, none⟩) backend).orShadowed there bound _)
        | ext4 =>
          simp only [driver]
          exact plain (isPlain (by rw [driver]; rintro _ ⟨⟩)) fun safe => safe.imp_right (by rintro ⟨⟩)
        | initrd | placefs | devfs | procfs =>
          simp only [driver]
          exact plain (isPlain (by rw [driver]; rintro _ ⟨⟩)) fun _ => .inr (by rw [driver]; rintro ⟨⟩)

end

end Enlil.Vfs
