import Enlil.Fd.Objects

/-! What holds of the descriptors throughout a run, if the few changes that calls are made of keep it. -/

namespace Enlil.Fd

/-- A property that the changes keep that all calls but those on sets are made of; pipes are made at places that allow it, only with `opens` is anything opened, and only with `covers` is a descriptor bound that is not free. -/
structure Kept (Inv : Fds → Prop) (may : Nat → Prop) (opens covers : Prop) : Prop where
  bind {s : Fds} {idx fd : Nat} : Inv s → opens → idx < schedMaxTasks → fd < maxFd →
    ((s.fdTables idx fd).obj = none ∨ covers) → ∀ opened flags cloexec, Inv (fdBind s idx fd opened flags cloexec).1
  pipe {s : Fds} {idx fdR fdW objR objW place : Nat} : Inv s → fdPipeAlloc s = some place → may place →
    (s.fdObjects objR).inUse = false →
    ((s.makeObject objR (pipeObject place .read)).fdObjects objW).inUse = false → idx < schedMaxTasks →
    fdR < maxFd → fdW < maxFd → fdW ≠ fdR → (s.fdTables idx fdR).obj = none → (s.fdTables idx fdW).obj = none →
    Inv (fdAttachObject (fdAttachObject
      (((s.makeObject objR (pipeObject place .read)).makeObject objW (pipeObject place .write)).setPipe place (.new s.born))
      idx fdR objR false) idx fdW objW false)
  epoll {s : Fds} {idx fd o place : Nat} : Inv s → o < fdObjectMax → (s.fdObjects o).inUse = false →
    (s.epollPool place).inUse = false → idx < schedMaxTasks → fd < maxFd → (s.fdTables idx fd).obj = none → ∀ cloexec,
    Inv (fdAttachObject ((s.setSet place { EpollSet.zero with inUse := true }).makeObject o
      { FdObject.zero with type := .epoll, pipe := place }) idx fd o cloexec)
  attach {s : Fds} {idx fd o : Nat} : Inv s → idx < schedMaxTasks → fd < maxFd → (s.fdTables idx fd).obj = none →
    ∀ cloexec, Inv (fdAttachObject s idx fd o cloexec)
  release {s : Fds} {idx fd : Nat} : Inv s → Inv (fdReleaseSlot s idx fd)
  waits {s : Fds} {waits : Nat → Option (Nat × Nat)} : Inv s → Inv { s with epollWaits := waits }
  clear {s : Fds} {idx fd : Nat} {cloexec : Bool} : Inv s → (s.fdTables idx fd).obj = none →
    Inv (s.setEntry idx fd ⟨none, cloexec⟩)

/-- A property that the single changes keep, wherever objects are made and descriptors are bound. -/
structure Closed (Inv : Fds → Prop) (may : Nat → Prop) : Prop where
  make {s : Fds} {o : Nat} {obj : FdObject} : Inv s → o < fdObjectMax → (s.fdObjects o).inUse = false → obj.refcount = 0 →
    obj.type ≠ .epoll → obj.type ≠ .pipe → Inv (s.makeObject o obj)
  makePipe {s : Fds} {objR objW place : Nat} : Inv s → fdPipeAlloc s = some place → may place →
    (s.fdObjects objR).inUse = false →
    ((s.makeObject objR (pipeObject place .read)).fdObjects objW).inUse = false →
    Inv (((s.makeObject objR (pipeObject place .read)).makeObject objW (pipeObject place .write)).setPipe place (.new s.born))
  makeEpoll {s : Fds} {o place : Nat} : Inv s → o < fdObjectMax → (s.fdObjects o).inUse = false →
    (s.epollPool place).inUse = false →
    Inv ((s.setSet place { EpollSet.zero with inUse := true }).makeObject o
      { FdObject.zero with type := .epoll, pipe := place })
  attach {s : Fds} {idx fd o : Nat} : Inv s → idx < schedMaxTasks → fd < maxFd → ∀ cloexec,
    Inv (fdAttachObject s idx fd o cloexec)
  release {s : Fds} {idx fd : Nat} : Inv s → Inv (fdReleaseSlot s idx fd)
  waits {s : Fds} {waits : Nat → Option (Nat × Nat)} : Inv s → Inv { s with epollWaits := waits }
  clear {s : Fds} {idx fd : Nat} {cloexec : Bool} : Inv s → Inv (s.setEntry idx fd ⟨none, cloexec⟩)

section

variable {Inv : Fds → Prop} {may : Nat → Prop} {opens covers : Prop} {s : Fds} {idx fd o : Nat} {op : Op}

theorem fdObjectAlloc_spec (found : fdObjectAlloc s = some o) : o < fdObjectMax ∧ (s.fdObjects o).inUse = false := by
  have member := List.mem_of_find?_eq_some found
  have free := List.find?_some found
  exact ⟨List.mem_range.mp member, by simpa using free⟩

theorem fdAllocFrom_spec {start : Nat} (found : fdAllocFrom s idx start = some fd) :
    fd < maxFd ∧ start ≤ fd ∧ (s.fdTables idx fd).obj = none := by
  have member := List.mem_of_find?_eq_some found
  have free := List.find?_some found
  simp only [Bool.and_eq_true, decide_eq_true_eq, Option.isNone_iff_eq_none] at free
  exact ⟨List.mem_range.mp member, free⟩

theorem fdGet_spec (found : fdGet s idx fd = some o) : fd < maxFd ∧ (s.fdTables idx fd).obj = some o := by
  unfold fdGet at found
  split at found
  · cases found
  · exact ⟨by omega, found⟩

theorem foldl_keeps {β : Type} {f : Fds → β → Fds} {items : List β} (step : ∀ s, ∀ item ∈ items, Inv s → Inv (f s item))
    (inv : Inv s) : Inv (items.foldl f s) := by
  induction items generalizing s with
  | nil => exact inv
  | cons item items ih =>
    exact ih (fun s item member => step s item (List.mem_cons_of_mem _ member)) (step s item List.mem_cons_self inv)

theorem foldl_range {f : Fds → Nat → Fds} {Upto : Nat → Fds → Prop} {count : Nat}
    (step : ∀ n < count, ∀ s, Upto n s → Upto (n + 1) (f s n)) (start : Upto 0 s) :
    Upto count ((List.range count).foldl f s) := by
  induction count with
  | zero => exact start
  | succ count ih =>
    rw [List.range_succ, List.foldl_append]
    exact step count (Nat.lt_succ_self count) _ (ih fun n below => step n (by omega))

theorem setEntry_obj (s : Fds) (idx fd : Nat) (entry : FdEntry) (idx' fd' : Nat) :
    ((s.setEntry idx fd entry).fdTables idx' fd').obj =
      if idx' = idx ∧ fd' = fd then entry.obj else (s.fdTables idx' fd').obj := by
  dsimp only [Fds.setEntry]
  by_cases here : idx' = idx
  · subst here
    rw [Function.update_self]
    by_cases same : fd' = fd
    · rw [same, Function.update_self, if_pos ⟨rfl, rfl⟩]
    · rw [Function.update_of_ne same, if_neg fun both => same both.2]
  · rw [Function.update_of_ne here, if_neg fun both => here both.1]

theorem fdObjectPut_tables (s : Fds) (o : Nat) : (fdObjectPut s o).fdTables = s.fdTables := by
  unfold fdObjectPut fdResourceRelease
  dsimp only
  repeat' split
  all_goals rfl

theorem release_obj (s : Fds) (idx fd idx' fd' : Nat) : ((fdReleaseSlot s idx fd).fdTables idx' fd').obj =
    if idx' = idx ∧ fd' = fd then none else (s.fdTables idx' fd').obj := by
  unfold fdReleaseSlot
  split
  · rename_i free
    split
    · rename_i here
      rw [here.1, here.2, free]
    · rfl
  · rw [setEntry_obj, fdObjectPut_tables]
    rfl

theorem attach_obj_ne (s : Fds) (o : Nat) (cloexec : Bool) {idx' fd' : Nat} (differ : idx' ≠ idx ∨ fd' ≠ fd) :
    ((fdAttachObject s idx fd o cloexec).fdTables idx' fd').obj = (s.fdTables idx' fd').obj := by
  unfold fdAttachObject
  dsimp only
  split
  · rfl
  · rw [setEntry_obj, if_neg (by omega)]
    rfl

theorem bind_obj_ne (s : Fds) (opened : Opened) (flags : UInt16) (cloexec : Bool) {idx' fd' : Nat}
    (differ : idx' ≠ idx ∨ fd' ≠ fd) :
    ((fdBind s idx fd opened flags cloexec).1.fdTables idx' fd').obj = (s.fdTables idx' fd').obj := by
  unfold fdBind
  split
  · rfl
  · exact attach_obj_ne _ _ _ differ

theorem releaseIndex_free (s : Fds) (idx : Nat) : ∀ fd < maxFd, ((fdReleaseSlotIndex s idx).fdTables idx fd).obj = none := by
  unfold fdReleaseSlotIndex
  generalize maxFd = count
  refine @foldl_range s _ (fun n s => ∀ fd < n, (s.fdTables idx fd).obj = none) count (fun n _ s free fd below => ?_) nofun
  rw [release_obj]
  split
  · rfl
  · exact free fd (by omega)

theorem Kept.releaseIndex (kept : Kept Inv may opens covers) (inv : Inv s) : Inv (fdReleaseSlotIndex s idx) :=
  foldl_keeps (fun _ _ _ => kept.release) inv

theorem Opened.object_spec (opened : Opened) (flags : UInt16) :
    (opened.object flags).refcount = 0 ∧ (opened.object flags).type ≠ .epoll ∧ (opened.object flags).type ≠ .pipe := by
  cases opened <;> exact ⟨rfl, nofun, nofun⟩

theorem Kept.bindDefault (kept : Kept Inv may opens covers) (inv : Inv s) (device : Nat × Option VfsFile) (may : opens)
    (inIdx : idx < schedMaxTasks) (inFd : device.1 < maxFd) (free : (s.fdTables idx device.1).obj = none) :
    Inv (fdBindDefault idx s device) := by
  unfold fdBindDefault
  split
  · exact inv
  · exact kept.bind inv may inIdx inFd (.inl free) _ _ _

theorem fdAllocOther_spec {fdR fdW : Nat} (found : fdAllocOther s idx fdR = some fdW) :
    fdW < maxFd ∧ fdW ≠ fdR ∧ (s.fdTables idx fdW).obj = none := by
  have member := List.mem_of_find?_eq_some found
  have free := List.find?_some found
  simp only [Bool.and_eq_true, bne_iff_ne, ne_eq, Option.isNone_iff_eq_none] at free
  exact ⟨List.mem_range.mp member, free.1.2, free.2⟩

theorem Kept.sysPipe (kept : Kept Inv may opens covers) (inv : Inv s) (inIdx : idx < schedMaxTasks) (stored : Bool)
    (allowed : ∀ place, fdPipeAlloc s = some place → may place) : Inv (sysPipe s idx stored).1 := by
  unfold Fd.sysPipe
  split
  · exact inv
  rename_i fdR freeR
  split
  · exact inv
  rename_i fdW freeW
  split
  · exact inv
  rename_i place freePipe
  split
  · exact inv
  rename_i objR unusedR
  dsimp only
  split
  · exact inv
  rename_i objW unusedW
  obtain ⟨inR, _, noneR⟩ := fdAllocFrom_spec freeR
  obtain ⟨inW, differ, noneW⟩ := fdAllocOther_spec freeW
  have bound := kept.pipe inv freePipe (allowed place freePipe) (fdObjectAlloc_spec unusedR).2
    (fdObjectAlloc_spec unusedW).2 inIdx inR inW differ noneR noneW
  split
  · exact bound
  · exact kept.release (kept.release bound)

theorem Kept.epollCreate1 (kept : Kept Inv may opens covers) (inv : Inv s) (inIdx : idx < schedMaxTasks) (cloexec : Bool) :
    Inv (sysEpollCreate1 s idx cloexec).1 := by
  unfold sysEpollCreate1
  split
  · exact inv
  rename_i fd freeFd
  split
  · exact inv
  rename_i o free
  split
  · exact inv
  rename_i place freeSet
  obtain ⟨inside, unused⟩ := fdObjectAlloc_spec free
  obtain ⟨inFd, _, none⟩ := fdAllocFrom_spec freeFd
  exact kept.epoll inv inside unused (epollSetAlloc_spec freeSet) inIdx inFd none cloexec

theorem Kept.dupFrom (kept : Kept Inv may opens covers) (inv : Inv s) (inIdx : idx < schedMaxTasks) (oldfd start : Nat)
    (cloexec : Bool) : Inv (sysDupFrom s idx oldfd start cloexec).1 := by
  unfold sysDupFrom
  split
  · exact inv
  split
  · exact inv
  rename_i newfd free
  obtain ⟨inFd, _, none⟩ := fdAllocFrom_spec free
  split
  · exact inv
  · exact kept.attach inv inIdx inFd none _

theorem Kept.dup2 (kept : Kept Inv may opens covers) (inv : Inv s) (inIdx : idx < schedMaxTasks) (oldfd newfd : Nat) :
    Inv (sysDup2 s idx oldfd newfd).1 := by
  unfold sysDup2
  split
  · exact inv
  split
  · exact inv
  rename_i inside
  split
  · exact inv
  dsimp only
  split
  · exact kept.release inv
  · refine kept.attach (kept.release inv) inIdx (by omega) ?_ _
    rw [release_obj, if_pos ⟨rfl, rfl⟩]

theorem Kept.fork (kept : Kept Inv may opens covers) (inv : Inv s) {dst src : Nat} (inDst : dst < schedMaxTasks) :
    Inv (fdCloneTaskTable s dst src) := by
  -- The descriptors that were not gone through yet are still closed.
  refine (@foldl_range _ (fdCloneEntry dst src) (fun n s => Inv s ∧ ∀ fd < maxFd, n ≤ fd → (s.fdTables dst fd).obj = none) maxFd
    (fun n below s both => ?_) ⟨kept.releaseIndex inv, fun fd inFd _ => releaseIndex_free s dst fd inFd⟩).1
  obtain ⟨inv, free⟩ := both
  have cleared : Inv (s.setEntry dst n ⟨none, (s.fdTables src n).cloexec⟩) := kept.clear inv (free n below le_rfl)
  have others (fd : Nat) (inFd : fd < maxFd) (above : n + 1 ≤ fd) (cloexec : Bool) :
      ((s.setEntry dst n ⟨none, cloexec⟩).fdTables dst fd).obj = none := by
    rw [setEntry_obj, if_neg (by omega)]
    exact free fd inFd (by omega)
  unfold fdCloneEntry
  split
  · exact ⟨cleared, fun fd inFd above => others fd inFd above _⟩
  · refine ⟨kept.attach cleared inDst below ?_ _, fun fd inFd above => ?_⟩
    · rw [setEntry_obj, if_pos ⟨rfl, rfl⟩]
    · rw [attach_obj_ne _ _ _ (.inr (by omega))]
      exact others fd inFd above _

theorem Kept.execve (kept : Kept Inv may opens covers) (inv : Inv s) : Inv (fdCloseCloexecInSlot s idx) := by
  refine foldl_keeps (fun s fd _ inv => ?_) inv
  unfold fdCloseCloexecSlot
  split
  · exact kept.release inv
  · exact inv

theorem Kept.cleared (kept : Kept Inv may opens covers) (inv : Inv s) (idx : Nat) :
    Inv ((List.range maxFd).foldl (fun s fd => s.setEntry idx fd .zero) (fdReleaseSlotIndex s idx)) ∧
      ∀ fd < maxFd, (((List.range maxFd).foldl (fun s fd => s.setEntry idx fd .zero)
        (fdReleaseSlotIndex s idx)).fdTables idx fd).obj = none := by
  refine @foldl_keeps (fun s => Inv s ∧ ∀ fd < maxFd, (s.fdTables idx fd).obj = none) _ _ _ _ (fun s fd member both => ?_)
    ⟨kept.releaseIndex inv, releaseIndex_free s idx⟩
  obtain ⟨inv, free⟩ := both
  refine ⟨kept.clear inv (free fd (List.mem_range.mp member)), fun fd' inFd => ?_⟩
  rw [setEntry_obj]
  split
  · rfl
  · exact free fd' inFd

theorem bindDefault_obj_ne (s : Fds) (device : Nat × Option VfsFile) {fd : Nat} (differ : fd ≠ device.1) :
    ((fdBindDefault idx s device).fdTables idx fd).obj = (s.fdTables idx fd).obj := by
  unfold fdBindDefault
  split
  · rfl
  · exact bind_obj_ne _ _ _ _ (.inr differ)

theorem Kept.reset (kept : Kept Inv may opens covers) (inv : Inv s) (may : opens) (inIdx : idx < schedMaxTasks)
    (stdin stdout stderr : Option VfsFile) : Inv (fdResetSlotDefaults s idx stdin stdout stderr) := by
  obtain ⟨cleared, free⟩ := kept.cleared inv idx
  have three : 2 < maxFd := by decide
  have first := kept.bindDefault cleared (0, stdin) may inIdx (by omega) (free 0 (by omega))
  have second := kept.bindDefault first (1, stdout) may inIdx (by omega)
    (by rw [bindDefault_obj_ne _ _ (by omega)]; exact free 1 (by omega))
  exact kept.bindDefault second (2, stderr) may inIdx three
    (by rw [bindDefault_obj_ne _ _ (by omega), bindDefault_obj_ne _ _ (by omega)]; exact free 2 three)

/-- A call opens something. -/
def Op.opening : Op → Prop
  | .bind .. | .exit .. => True
  | _ => False

/-- The descriptor that a call chose when it began is bound though it may not be free any more. -/
def Op.covering (s : Fds) : Op → Prop
  | .bind idx fd .. => (s.fdTables idx fd).obj ≠ none
  | _ => False

theorem Kept.after (kept : Kept Inv may opens covers) (inv : Inv s) (inside : op.inside)
    (allowed : ∀ idx stored, op = .pipe idx stored → ∀ place, fdPipeAlloc s = some place → may place)
    (opening : op.opening → opens) (covering : op.covering s → covers)
    (ctl : ∀ idx epfd command fd ev, op = .epollCtl idx epfd command fd ev → Inv (sysEpollCtl s idx epfd command fd ev).1) :
    Inv (op.after s) := by
  cases op with
  | bind idx fd opened flags cloexec =>
    simp only [Op.inside] at inside
    exact kept.bind inv (opening trivial) inside.1 inside.2 (or_iff_not_imp_left.mpr covering) _ _ _
  | pipe idx stored =>
    simp only [Op.inside] at inside
    exact kept.sysPipe inv inside stored (allowed idx stored rfl)
  | epollCreate1 idx cloexec =>
    simp only [Op.inside] at inside
    exact kept.epollCreate1 inv inside cloexec
  | epollCtl idx epfd command fd ev => exact ctl idx epfd command fd ev rfl
  | close idx fd =>
    show Inv (sysClose s idx fd).1
    unfold sysClose
    split
    · exact inv
    · exact kept.release inv
  | dup idx oldfd =>
    simp only [Op.inside] at inside
    exact kept.dupFrom inv inside oldfd 3 false
  | dup2 idx oldfd newfd =>
    simp only [Op.inside] at inside
    exact kept.dup2 inv inside oldfd newfd
  | fcntlDupfd idx fd arg cloexec =>
    simp only [Op.inside] at inside
    show Inv (sysFcntlDupfd s idx fd arg cloexec).1
    unfold sysFcntlDupfd
    split
    · exact inv
    split
    · exact inv
    · exact kept.dupFrom inv inside fd arg cloexec
  | epollPwait task idx epfd =>
    show Inv (sysEpollPwait s task idx epfd).1
    unfold sysEpollPwait
    split
    · exact inv
    split
    · exact inv
    split
    · exact inv
    · exact kept.waits inv
  | epollReturns task => exact kept.waits inv
  | fork dst src =>
    simp only [Op.inside] at inside
    exact kept.fork (kept.waits inv) inside.1
  | execve idx => exact kept.execve inv
  | exit idx stdin stdout stderr =>
    simp only [Op.inside] at inside
    exact kept.reset (kept.waits inv) (opening trivial) inside stdin stdout stderr

theorem Closed.kept (closed : Closed Inv may) : Kept Inv may True True where
  bind inv _ inIdx inFd _ opened flags cloexec := by
    unfold fdBind
    split
    · exact inv
    · rename_i o free
      obtain ⟨inside, unused⟩ := fdObjectAlloc_spec free
      have plain := opened.object_spec flags
      exact closed.attach (closed.make inv inside unused plain.1 plain.2.1 plain.2.2) inIdx inFd _
  pipe inv found allowed unusedR unusedW inIdx inR inW _ _ _ :=
    closed.attach (closed.attach (closed.makePipe inv found allowed unusedR unusedW) inIdx inR false) inIdx inW false
  epoll inv inside unused freeSet inIdx inFd _ cloexec :=
    closed.attach (closed.makeEpoll inv inside unused freeSet) inIdx inFd cloexec
  attach inv inIdx inFd _ cloexec := closed.attach inv inIdx inFd cloexec
  release inv := closed.release inv
  waits inv := closed.waits inv
  clear inv _ := closed.clear inv

theorem Closed.after (closed : Closed Inv may) (inv : Inv s) (inside : op.inside)
    (allowed : ∀ idx stored, op = .pipe idx stored → ∀ place, fdPipeAlloc s = some place → may place)
    (ctl : ∀ idx epfd command fd ev, op = .epollCtl idx epfd command fd ev → Inv (sysEpollCtl s idx epfd command fd ev).1) :
    Inv (op.after s) :=
  closed.kept.after inv inside allowed (fun _ => trivial) (fun _ => trivial) ctl

theorem sysEpollCtl_spec (s : Fds) (idx epfd : Nat) (command : EpollOp) (fd : Nat) (ev : Option EpollEvent) :
    (sysEpollCtl s idx epfd command fd ev).1 = s ∨
      ∃ epobj place target event set, epollTarget s idx epfd fd = .ok (epobj, place, target) ∧
        epollCtl (s.epollPool place) command fd target (s.fdObjects target).birth event = .ok set ∧
        (sysEpollCtl s idx epfd command fd ev).1 = s.setSet place set ∧
        (sysEpollCtl s idx epfd command fd ev).2 = .ok () := by
  unfold sysEpollCtl
  split
  · exact .inl rfl
  · rename_i epobj place target found
    split
    · exact .inl rfl
    split
    · exact .inl rfl
    split
    · exact .inl rfl
    · rename_i set changed
      exact .inr ⟨epobj, place, target, _, set, found, changed, rfl, rfl⟩

theorem epollTarget_spec {epfd epobj place target : Nat} (found : epollTarget s idx epfd fd = .ok (epobj, place, target)) :
    fdGet s idx epfd = some epobj ∧ fdGet s idx fd = some target ∧ fd ≠ epfd ∧
      (s.fdObjects epobj).type = .epoll ∧ (s.fdObjects epobj).pipe = place ∧ (s.epollPool place).inUse = true := by
  unfold epollTarget at found
  split at found
  · cases found
  rename_i obj gotEp
  split at found
  · cases found
  rename_i type
  split at found
  · cases found
  split at found
  · cases found
  rename_i differ
  split at found
  · cases found
  rename_i got
  split at found
  · cases found
  rename_i used
  cases found
  exact ⟨gotEp, got, differ, not_not.mp type, rfl, by simpa using used⟩

end

end Enlil.Fd
