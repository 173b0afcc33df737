import Enlil.Fd.References

/-! Interests of epoll sets, and the objects that are later opened under their descriptors. -/

namespace Enlil.Fd

/-- A process has a descriptor of a set, or a task of it waits in the set. -/
def Reaches (s : Fds) (idx place : Nat) : Prop :=
  (∃ fd o, (s.fdTables idx fd).obj = some o ∧ (s.fdObjects o).type = .epoll ∧ (s.fdObjects o).pipe = place) ∨
    ∃ task, s.epollWaits task = some (idx, place)

/-- An interest was registered for the object that is now at the place. -/
def Interest.isFor (s : Fds) (it : Interest) (o : Nat) : Prop := o = it.obj ∧ (s.fdObjects o).birth = it.birth

/-- In every process that reaches a set, the descriptors of its interests refer to the objects they were registered for, or to none. -/
def Current (s : Fds) : Prop :=
  ∀ idx place, Reaches s idx place → ∀ slot, ((s.epollPool place).interests slot).inUse = true →
    ∀ o, (s.fdTables idx ((s.epollPool place).interests slot).fd).obj = some o →
      ((s.epollPool place).interests slot).isFor s o

/-- An interest is only ever reported for the object it was registered for, and only that object keeps another one from being added. -/
structure InterestsDie (s : Fds) : Prop where
  reported : ∀ idx place slot o, Reaches s idx place → ((s.epollPool place).interests slot).inUse = true →
    fdGet s idx ((s.epollPool place).interests slot).fd = some o → ((s.epollPool place).interests slot).isFor s o
  added : ∀ idx epfd fd ev, (sysEpollCtl s idx epfd .add fd ev).2 = .error .eexist →
    ∃ epobj place target slot, epollTarget s idx epfd fd = .ok (epobj, place, target) ∧
      ((s.epollPool place).interests slot).inUse = true ∧ ((s.epollPool place).interests slot).fd = fd ∧
      ((s.epollPool place).interests slot).isFor s target

/-- A process reaches a set that has an interest in a descriptor, and not for the given object. -/
def LeftOver (s : Fds) (idx fd : Nat) (keep : Option Nat) : Prop :=
  ∃ place slot, Reaches s idx place ∧ ((s.epollPool place).interests slot).inUse = true ∧
    ((s.epollPool place).interests slot).fd = fd ∧ ∀ o, keep = some o → ¬ ((s.epollPool place).interests slot).isFor s o

/-- What a duplicate binds. -/
def dupBinds (s : Fds) (idx oldfd start : Nat) : List (Nat × Nat × Option Nat) :=
  match fdGet s idx oldfd, fdAllocFrom s idx start with
  | some o, some newfd => [(idx, newfd, some o)]
  | _, _ => []

/-- The descriptors that a call binds, with the object if it exists already. -/
def Op.binds (s : Fds) : Op → List (Nat × Nat × Option Nat)
  | .bind idx fd .. => [(idx, fd, none)]
  | .pipe idx _ =>
    match fdAlloc s idx with
    | none => []
    | some fdR => (idx, fdR, none) :: ((fdAllocOther s idx fdR).map fun fdW => (idx, fdW, none)).toList
  | .epollCreate1 idx _ => ((fdAlloc s idx).map fun fd => (idx, fd, none)).toList
  | .dup idx oldfd => dupBinds s idx oldfd 3
  | .dup2 idx oldfd newfd =>
    match fdGet s idx oldfd with
    | none => []
    | some o => if newfd < maxFd ∧ oldfd ≠ newfd then [(idx, newfd, some o)] else []
  | .fcntlDupfd idx fd arg _ => dupBinds s idx fd arg
  | _ => []

/-- The condition on a call: no set that the process reaches has an interest left over in a descriptor that the call binds; and an interest is put into a set only if every process that reaches the set has the same object, or none, under the descriptor. -/
structure NothingLeft (s : Fds) (op : Op) : Prop where
  binds : ∀ bound ∈ op.binds s, ¬ LeftOver s bound.1 bound.2.1 bound.2.2
  shared : ∀ idx epfd command fd ev, op = .epollCtl idx epfd command fd ev →
    ∀ epobj place target, epollTarget s idx epfd fd = .ok (epobj, place, target) → command ≠ .del →
      (sysEpollCtl s idx epfd command fd ev).2 = .ok () →
      ∀ other o, Reaches s other place → (s.fdTables other fd).obj = some o → o = target

/-- Descriptors are closed, objects made that none refers to, interests removed and waits ended. -/
structure Shrinks (s s' : Fds) : Prop where
  entry : ∀ idx fd o, (s'.fdTables idx fd).obj = some o → (s.fdTables idx fd).obj = some o ∧
    (s'.fdObjects o).birth = (s.fdObjects o).birth ∧ (s'.fdObjects o).type = (s.fdObjects o).type ∧
    (s'.fdObjects o).pipe = (s.fdObjects o).pipe
  interest : ∀ place slot, ((s'.epollPool place).interests slot).inUse = true →
    (s'.epollPool place).interests slot = (s.epollPool place).interests slot
  waits : ∀ task wait, s'.epollWaits task = some wait → s.epollWaits task = some wait

section

variable {s s' s'' : Fds} {idx fd o place : Nat} {op : Op} {keep : Option Nat}

theorem Shrinks.refl (s : Fds) : Shrinks s s :=
  ⟨fun _ _ _ found => ⟨found, rfl, rfl, rfl⟩, fun _ _ _ => rfl, fun _ _ found => found⟩

theorem Shrinks.trans (first : Shrinks s s') (second : Shrinks s' s'') : Shrinks s s'' := by
  refine ⟨fun idx fd o found => ?_, fun place slot used => ?_, fun task wait found => ?_⟩
  · obtain ⟨found', birth', type', pipe'⟩ := second.entry idx fd o found
    obtain ⟨found'', birth, type, pipe⟩ := first.entry idx fd o found'
    exact ⟨found'', birth'.trans birth, type'.trans type, pipe'.trans pipe⟩
  · have same := second.interest place slot used
    rw [same] at used ⊢
    exact first.interest place slot used
  · exact first.waits task wait (second.waits task wait found)

theorem Shrinks.reaches (shrinks : Shrinks s s') (reaches : Reaches s' idx place) : Reaches s idx place := by
  rcases reaches with ⟨fd, o, found, type, pipe⟩ | ⟨task, waits⟩
  · obtain ⟨found', _, type', pipe'⟩ := shrinks.entry idx fd o found
    exact .inl ⟨fd, o, found', type' ▸ type, pipe' ▸ pipe⟩
  · exact .inr ⟨task, shrinks.waits task _ waits⟩

theorem Current.shrinks (current : Current s) (shrinks : Shrinks s s') : Current s' := by
  intro idx place reaches slot used o found
  have same := shrinks.interest place slot used
  rw [same] at used found ⊢
  obtain ⟨found', birth, _⟩ := shrinks.entry idx _ o found
  obtain ⟨place', birth'⟩ := current idx place (shrinks.reaches reaches) slot used o found'
  exact ⟨place', birth.trans birth'⟩

theorem LeftOver.shrinks (left : LeftOver s' idx fd keep) (shrinks : Shrinks s s')
    (kept : ∀ o, keep = some o → (s'.fdObjects o).birth = (s.fdObjects o).birth) : LeftOver s idx fd keep := by
  obtain ⟨place, slot, reaches, used, same, other⟩ := left
  have old := shrinks.interest place slot used
  rw [old] at used same other
  refine ⟨place, slot, shrinks.reaches reaches, used, same, fun o here ⟨at', birth⟩ => ?_⟩
  exact other o here ⟨at', (kept o here).trans birth⟩

theorem Counted.shrinks_release (counted : Counted s) : Shrinks s (fdReleaseSlot s idx fd) := by
  unfold fdReleaseSlot
  split
  · exact .refl s
  rename_i o found
  have member : (idx, fd) ∈ refs s o := mem_refs.mpr ⟨counted.inside idx fd o found, found⟩
  have positive : 0 < (s.fdObjects o).refcount := (Finset.card_pos.mpr ⟨_, member⟩).trans_le (counted.count o)
  obtain ⟨tables, objects, waits, pool⟩ := fdObjectPut_spec s (counted.used found) positive
  refine ⟨fun idx' fd' o' found' => ?_, fun place slot used => ?_, fun task wait found => ?_⟩
  · rw [setEntry_obj, tables] at found'
    split at found'
    · cases found'
    rename_i apart
    refine ⟨found', ?_⟩
    show ((fdObjectPut s o).fdObjects o').birth = _ ∧ ((fdObjectPut s o).fdObjects o').type = _ ∧
      ((fdObjectPut s o).fdObjects o').pipe = _
    rw [objects]
    by_cases here : o' = o
    · subst here
      -- Another descriptor refers to the object, so this was not its last reference.
      have more : (s.fdObjects o').refcount ≠ 1 := by
        intro last
        have both : ({(idx, fd), (idx', fd')} : Finset (Nat × Nat)) ⊆ refs s o' := by
          intro entry either
          rcases Finset.mem_insert.mp either with rfl | rest
          · exact member
          · rw [Finset.mem_singleton.mp rest]
            exact mem_refs.mpr ⟨counted.inside idx' fd' o' found', found'⟩
        have two : ({(idx, fd), (idx', fd')} : Finset (Nat × Nat)).card = 2 :=
          Finset.card_pair fun same => apart (by cases same; exact ⟨rfl, rfl⟩)
        have few := (Finset.card_le_card both).trans (counted.count o')
        omega
      rw [Function.update_self, if_neg more]
      exact ⟨rfl, rfl, rfl⟩
    · rw [Function.update_of_ne here]
      exact ⟨rfl, rfl, rfl⟩
  · have used : (((fdObjectPut s o).epollPool place).interests slot).inUse = true := used
    show ((fdObjectPut s o).epollPool place).interests slot = _
    rcases pool place with same | cleared
    · rw [same]
    · rw [cleared] at used
      cases used
  · have found : (fdObjectPut s o).epollWaits task = some wait := found
    rwa [waits] at found

theorem shrinks_clear (s : Fds) (idx fd : Nat) (cloexec : Bool) : Shrinks s (s.setEntry idx fd ⟨none, cloexec⟩) := by
  refine ⟨fun idx' fd' o found => ?_, fun _ _ _ => rfl, fun _ _ found => found⟩
  rw [setEntry_obj] at found
  split at found
  · cases found
  · exact ⟨found, rfl, rfl, rfl⟩

theorem Counted.shrinks_make (counted : Counted s) (obj : FdObject) (unused : (s.fdObjects o).inUse = false) :
    Shrinks s (s.makeObject o obj) := by
  refine ⟨fun idx fd other found => ⟨found, ?_⟩, fun _ _ _ => rfl, fun _ _ found => found⟩
  have used := counted.used (s := s) found
  have differ : other ≠ o := fun same => by
    rw [same, unused] at used
    cases used
  dsimp only [Fds.makeObject]
  rw [Function.update_of_ne differ]
  exact ⟨rfl, rfl, rfl⟩

theorem shrinks_endWaits (s : Fds) (idx : Nat) : Shrinks s (s.endWaits idx) := by
  refine ⟨fun _ _ _ found => ⟨found, rfl, rfl, rfl⟩, fun _ _ _ => rfl, fun task wait found => ?_⟩
  dsimp only [Fds.endWaits] at found
  split at found
  · cases found
  · exact found

/-- What a descriptor may come to refer to: an object for which the interests in the descriptor were registered; and if it is a set, its interests are in what the other descriptors of the process refer to. -/
structure Fits (s : Fds) (idx fd o : Nat) : Prop where
  number : ∀ place, Reaches s idx place ∨ ((s.fdObjects o).type = .epoll ∧ (s.fdObjects o).pipe = place) →
    ∀ slot, ((s.epollPool place).interests slot).inUse = true → ((s.epollPool place).interests slot).fd = fd →
      ((s.epollPool place).interests slot).isFor s o
  joined : (s.fdObjects o).type = .epoll → ∀ slot,
    ((s.epollPool (s.fdObjects o).pipe).interests slot).inUse = true →
    ∀ other, (s.fdTables idx ((s.epollPool (s.fdObjects o).pipe).interests slot).fd).obj = some other →
      ((s.epollPool (s.fdObjects o).pipe).interests slot).isFor s other

theorem attach_objects (s : Fds) (idx fd o : Nat) (cloexec : Bool) (other : Nat) :
    ((fdAttachObject s idx fd o cloexec).fdObjects other).birth = (s.fdObjects other).birth ∧
      ((fdAttachObject s idx fd o cloexec).fdObjects other).type = (s.fdObjects other).type ∧
      ((fdAttachObject s idx fd o cloexec).fdObjects other).pipe = (s.fdObjects other).pipe ∧
      ((fdAttachObject s idx fd o cloexec).fdObjects other).inUse = (s.fdObjects other).inUse := by
  unfold fdAttachObject
  dsimp only
  split
  · exact ⟨rfl, rfl, rfl, rfl⟩
  · dsimp only [Fds.setEntry, Fds.setObject]
    by_cases here : other = o
    · rw [here, Function.update_self]
      exact ⟨rfl, rfl, rfl, rfl⟩
    · rw [Function.update_of_ne here]
      exact ⟨rfl, rfl, rfl, rfl⟩

theorem attach_pool (s : Fds) (idx fd o : Nat) (cloexec : Bool) :
    (fdAttachObject s idx fd o cloexec).epollPool = s.epollPool ∧
      (fdAttachObject s idx fd o cloexec).epollWaits = s.epollWaits := by
  unfold fdAttachObject
  dsimp only
  split <;> exact ⟨rfl, rfl⟩

theorem attach_entry (used : (s.fdObjects o).inUse = true) (cloexec : Bool) (idx' fd' : Nat) :
    ((fdAttachObject s idx fd o cloexec).fdTables idx' fd').obj =
      if idx' = idx ∧ fd' = fd then some o else (s.fdTables idx' fd').obj := by
  unfold fdAttachObject
  dsimp only
  rw [if_neg (by simp [used])]
  exact setEntry_obj _ idx fd _ idx' fd'

theorem attach_reaches (used : (s.fdObjects o).inUse = true) {cloexec : Bool} {idx' : Nat}
    (reaches : Reaches (fdAttachObject s idx fd o cloexec) idx' place) :
    Reaches s idx' place ∨ (idx' = idx ∧ (s.fdObjects o).type = .epoll ∧ (s.fdObjects o).pipe = place) := by
  rcases reaches with ⟨fd', o', found, type, pipe⟩ | ⟨task, waits⟩
  · obtain ⟨_, type', pipe', _⟩ := attach_objects s idx fd o cloexec o'
    rw [type'] at type
    rw [pipe'] at pipe
    rw [attach_entry used] at found
    split at found
    · rename_i here
      cases found
      exact .inr ⟨here.1, type, pipe⟩
    · exact .inl (.inl ⟨fd', o', found, type, pipe⟩)
  · rw [(attach_pool s idx fd o cloexec).2] at waits
    exact .inl (.inr ⟨task, waits⟩)

theorem Current.attach (current : Current s) (used : (s.fdObjects o).inUse = true) (fits : Fits s idx fd o) (cloexec : Bool) :
    Current (fdAttachObject s idx fd o cloexec) := by
  intro idx' place reaches slot shown other found
  rw [(attach_pool s idx fd o cloexec).1] at shown found ⊢
  have birth := (attach_objects s idx fd o cloexec other).1
  rw [attach_entry used] at found
  have reached := attach_reaches used reaches
  suffices ((s.epollPool place).interests slot).isFor s other from ⟨this.1, birth.trans this.2⟩
  split at found
  · rename_i here
    cases found
    refine fits.number place ?_ slot shown here.2
    rw [here.1] at reached
    exact reached.imp_right fun mine => mine.2
  · rcases reached with old | ⟨rfl, type, pipe⟩
    · exact current idx' place old slot shown other found
    · subst pipe
      exact fits.joined type slot shown other found

/-- What holds throughout a run whose calls leave nothing over. -/
structure Sound (s : Fds) : Prop where
  counted : Counted s
  current : Current s

theorem Sound.shrinks (sound : Sound s) (counted : Counted s') (shrinks : Shrinks s s') : Sound s' :=
  ⟨counted, sound.current.shrinks shrinks⟩

theorem Sound.release (sound : Sound s) : Sound (fdReleaseSlot s idx fd) :=
  sound.shrinks sound.counted.release sound.counted.shrinks_release

theorem Sound.attach (sound : Sound s) (inIdx : idx < schedMaxTasks) (inFd : fd < maxFd)
    (used : (s.fdObjects o).inUse = true) (fits : Fits s idx fd o) (cloexec : Bool) :
    Sound (fdAttachObject s idx fd o cloexec) :=
  ⟨sound.counted.attach inIdx inFd cloexec, sound.current.attach used fits cloexec⟩

theorem Fits.new (left : ¬ LeftOver s idx fd none) (plain : (s.fdObjects o).type ≠ .epoll) : Fits s idx fd o where
  number place reached slot shown same := by
    rcases reached with old | set
    · exact absurd ⟨place, slot, old, shown, same, nofun⟩ left
    · exact absurd set.1 plain
  joined set := absurd set plain

theorem Fits.again (current : Current s) {oldfd : Nat} (found : (s.fdTables idx oldfd).obj = some o)
    (left : ¬ LeftOver s idx fd (some o)) : Fits s idx fd o where
  number place reached slot shown same := by
    by_contra other
    refine left ⟨place, slot, ?_, shown, same, fun o' here => ?_⟩
    · rcases reached with old | ⟨type, pipe⟩
      · exact old
      · exact .inl ⟨oldfd, o, found, type, pipe⟩
    · cases here
      exact other
  joined set slot shown other found' :=
    current idx _ (.inl ⟨oldfd, o, found, set, rfl⟩) slot shown other found'

theorem LeftOver.of_attach {idx' fd' : Nat} {cloexec : Bool} (used : (s.fdObjects o).inUse = true)
    (plain : (s.fdObjects o).type ≠ .epoll) (left : LeftOver (fdAttachObject s idx fd o cloexec) idx' fd' none) :
    LeftOver s idx' fd' none := by
  obtain ⟨place, slot, reaches, shown, same, _⟩ := left
  rw [(attach_pool s idx fd o cloexec).1] at shown same
  rcases attach_reaches used reaches with old | ⟨_, set, _⟩
  · exact ⟨place, slot, old, shown, same, nofun⟩
  · exact absurd set plain

theorem made_self (s : Fds) (o : Nat) (obj : FdObject) :
    ((s.makeObject o obj).fdObjects o).inUse = true ∧ ((s.makeObject o obj).fdObjects o).type = obj.type ∧
      ((s.makeObject o obj).fdObjects o).pipe = obj.pipe := by
  dsimp only [Fds.makeObject]
  rw [Function.update_self]
  exact ⟨rfl, rfl, rfl⟩

theorem makeObject_tables (s : Fds) (o : Nat) (obj : FdObject) : (s.makeObject o obj).fdTables = s.fdTables := rfl

theorem Sound.bind (sound : Sound s) (inIdx : idx < schedMaxTasks) (inFd : fd < maxFd) {opened : Opened} {flags : UInt16}
    {cloexec : Bool} (left : ¬ LeftOver s idx fd none) : Sound (fdBind s idx fd opened flags cloexec).1 := by
  unfold fdBind
  split
  · exact sound
  rename_i o free
  have unused := (fdObjectAlloc_spec free).2
  have shrinks := sound.counted.shrinks_make (opened.object flags) unused
  obtain ⟨used, type, _⟩ := made_self s o (opened.object flags)
  refine (sound.shrinks (sound.counted.make unused) shrinks).attach inIdx inFd used (.new ?_ ?_) cloexec
  · exact fun rest => left (rest.shrinks shrinks nofun)
  · rw [type]
    exact (opened.object_spec flags).2.1

theorem Sound.pipe (sound : Sound s) (inIdx : idx < schedMaxTasks) {stored : Bool}
    (left : ∀ bound ∈ (Op.pipe idx stored).binds s, ¬ LeftOver s bound.1 bound.2.1 bound.2.2) :
    Sound (sysPipe s idx stored).1 := by
  unfold sysPipe
  split
  · exact sound
  rename_i fdR freeR
  split
  · exact sound
  rename_i fdW freeW
  split
  · exact sound
  rename_i place freePipe
  split
  · exact sound
  rename_i objR allocR
  dsimp only
  split
  · exact sound
  rename_i objW allocW
  have leftR : ¬ LeftOver s idx fdR none := left (idx, fdR, none) (by simp [Op.binds, freeR])
  have leftW : ¬ LeftOver s idx fdW none := left (idx, fdW, none) (by simp [Op.binds, freeR, freeW])
  have inR := (fdAllocFrom_spec freeR).1
  have inW := List.mem_range.mp (List.mem_of_find?_eq_some freeW)
  -- The two objects are made, and then bound one after the other.
  have unusedR := (fdObjectAlloc_spec allocR).2
  have unusedW := (fdObjectAlloc_spec allocW).2
  have shrinksR := sound.counted.shrinks_make (pipeObject place .read) unusedR
  have soundR := sound.shrinks (sound.counted.make unusedR) shrinksR
  have shrinksW := soundR.counted.shrinks_make (pipeObject place .write) unusedW
  have soundW := soundR.shrinks (soundR.counted.make unusedW) shrinksW
  generalize ready : ((s.makeObject objR (pipeObject place .read)).makeObject objW (pipeObject place .write)).setPipe place
    (.new s.born) = made
  have stays : Shrinks ((s.makeObject objR (pipeObject place .read)).makeObject objW (pipeObject place .write)) made := by
    rw [← ready]
    exact ⟨fun _ _ _ found => ⟨found, rfl, rfl, rfl⟩, fun _ _ _ => rfl, fun _ _ found => found⟩
  have soundMade : Sound made := soundW.shrinks (by rw [← ready]; exact soundW.counted.same rfl rfl) stays
  have shrinks := (shrinksR.trans shrinksW).trans stays
  have differ : objR ≠ objW := fun same => by
    rw [← same, (made_self s objR (pipeObject place .read)).1] at unusedW
    cases unusedW
  have objects (o : Nat) : made.fdObjects o =
      ((s.makeObject objR (pipeObject place .read)).makeObject objW (pipeObject place .write)).fdObjects o := by
    rw [← ready]
    rfl
  have selfW := made_self (s.makeObject objR (pipeObject place .read)) objW (pipeObject place .write)
  have selfR := made_self s objR (pipeObject place .read)
  have keptR : made.fdObjects objR = (s.makeObject objR (pipeObject place .read)).fdObjects objR := by
    rw [objects]
    exact Function.update_of_ne differ ..
  have first := @Sound.attach _ idx fdR objR soundMade inIdx inR (by rw [keptR]; exact selfR.1)
    (.new (fun rest => leftR (rest.shrinks shrinks nofun)) (by rw [keptR, selfR.2.1]; nofun)) false
  obtain ⟨_, typeW, _, usedW⟩ := attach_objects made idx fdR objR false objW
  have second := @Sound.attach _ idx fdW objW first inIdx inW (by rw [usedW, objects]; exact selfW.1)
    (.new (fun rest => leftW ((rest.of_attach (by rw [keptR]; exact selfR.1) (by rw [keptR, selfR.2.1]; nofun)).shrinks
      shrinks nofun)) (by rw [typeW, objects, selfW.2.1]; nofun)) false
  split
  · exact second
  · exact second.release.release

theorem Sound.epollCreate1 (sound : Sound s) (inIdx : idx < schedMaxTasks) {cloexec : Bool}
    (left : ∀ bound ∈ (Op.epollCreate1 idx cloexec).binds s, ¬ LeftOver s bound.1 bound.2.1 bound.2.2) :
    Sound (sysEpollCreate1 s idx cloexec).1 := by
  unfold sysEpollCreate1
  split
  · exact sound
  rename_i fd freeFd
  split
  · exact sound
  rename_i o alloc
  split
  · exact sound
  rename_i place freeSet
  have leftFd : ¬ LeftOver s idx fd none := left (idx, fd, none) (by simp [Op.binds, freeFd])
  have unused := (fdObjectAlloc_spec alloc).2
  -- The new set has no interests.
  have empty : Shrinks s (s.setSet place { EpollSet.zero with inUse := true }) := by
    refine ⟨fun _ _ _ found => ⟨found, rfl, rfl, rfl⟩, fun other slot used => ?_, fun _ _ found => found⟩
    dsimp only [Fds.setSet] at used ⊢
    by_cases here : other = place
    · rw [here, Function.update_self] at used
      cases used
    · rw [Function.update_of_ne here]
  have soundSet : Sound (s.setSet place { EpollSet.zero with inUse := true }) :=
    sound.shrinks (sound.counted.same rfl rfl) empty
  have shrinks := soundSet.counted.shrinks_make { FdObject.zero with type := .epoll, pipe := place } unused
  have soundMade := soundSet.shrinks (soundSet.counted.make unused) shrinks
  obtain ⟨used, type, pipe⟩ := made_self (s.setSet place { EpollSet.zero with inUse := true }) o
    { FdObject.zero with type := .epoll, pipe := place }
  have fresh (slot : Nat) : ¬ (((s.setSet place { EpollSet.zero with inUse := true }).epollPool place).interests slot).inUse =
      true := by
    dsimp only [Fds.setSet]
    rw [Function.update_self]
    nofun
  refine soundMade.attach inIdx (fdAllocFrom_spec freeFd).1 used ⟨fun place' reached slot shown same => ?_,
    fun _ slot shown => ?_⟩ cloexec
  · rcases reached with old | ⟨_, mine⟩
    · have rest : LeftOver ((s.setSet place { EpollSet.zero with inUse := true }).makeObject o
          { FdObject.zero with type := .epoll, pipe := place }) idx fd none := ⟨place', slot, old, shown, same, nofun⟩
      exact absurd (rest.shrinks (empty.trans shrinks) nofun) leftFd
    · rw [pipe] at mine
      cases mine
      exact absurd shown (fresh slot)
  · rw [pipe] at shown
    exact absurd shown (fresh slot)

theorem Sound.dupFrom (sound : Sound s) (inIdx : idx < schedMaxTasks) {oldfd start : Nat} {cloexec : Bool}
    (left : ∀ bound ∈ dupBinds s idx oldfd start, ¬ LeftOver s bound.1 bound.2.1 bound.2.2) :
    Sound (sysDupFrom s idx oldfd start cloexec).1 := by
  unfold sysDupFrom
  split
  · exact sound
  rename_i o found
  split
  · exact sound
  rename_i newfd free
  split
  · exact sound
  rename_i used
  have leftFd : ¬ LeftOver s idx newfd (some o) := left (idx, newfd, some o) (by simp [dupBinds, found, free])
  exact sound.attach inIdx (fdAllocFrom_spec free).1 (by simpa using used)
    (.again sound.current (fdGet_spec found).2 leftFd) cloexec

theorem release_entry (s : Fds) (idx fd idx' fd' : Nat) (counted : Counted s) :
    ((fdReleaseSlot s idx fd).fdTables idx' fd').obj =
      if idx' = idx ∧ fd' = fd then none else (s.fdTables idx' fd').obj := by
  unfold fdReleaseSlot
  split
  · rename_i empty
    split
    · rename_i here
      rw [here.1, here.2, empty]
    · rfl
  · rename_i o found
    have member : (idx, fd) ∈ refs s o := mem_refs.mpr ⟨counted.inside idx fd o found, found⟩
    have positive : 0 < (s.fdObjects o).refcount := (Finset.card_pos.mpr ⟨_, member⟩).trans_le (counted.count o)
    rw [setEntry_obj, (fdObjectPut_spec s (counted.used found) positive).1]
    rfl

theorem Sound.dup2 (sound : Sound s) (inIdx : idx < schedMaxTasks) {oldfd newfd : Nat}
    (left : ∀ bound ∈ (Op.dup2 idx oldfd newfd).binds s, ¬ LeftOver s bound.1 bound.2.1 bound.2.2) :
    Sound (sysDup2 s idx oldfd newfd).1 := by
  unfold sysDup2
  split
  · exact sound
  rename_i o found
  split
  · exact sound
  rename_i inside
  split
  · exact sound
  rename_i differ
  have leftFd : ¬ LeftOver s idx newfd (some o) := left (idx, newfd, some o) (by
    simp [Op.binds, found, differ]
    omega)
  have closed : Sound (fdReleaseSlot s idx newfd) := sound.release
  have still : ((fdReleaseSlot s idx newfd).fdTables idx oldfd).obj = some o := by
    rw [release_entry s _ _ _ _ sound.counted, if_neg fun both => differ both.2]
    exact (fdGet_spec found).2
  have shrinks : Shrinks s (fdReleaseSlot s idx newfd) := sound.counted.shrinks_release
  dsimp only
  split
  · exact closed
  · refine closed.attach inIdx (by omega) (closed.counted.used still) (.again closed.current still ?_) false
    refine fun rest => leftFd (rest.shrinks shrinks fun o' here => ?_)
    cases here
    exact (shrinks.entry _ _ _ still).2.1

theorem releaseIndex_sound (idx : Nat) {inv : Fds → Prop} (sound : Sound s) (holds : inv s)
    (step : ∀ s fd, Sound s → inv s → inv (fdReleaseSlot s idx fd)) :
    Sound (fdReleaseSlotIndex s idx) ∧ inv (fdReleaseSlotIndex s idx) :=
  @foldl_keeps (fun s => Sound s ∧ inv s) _ _ _ _ (fun s fd _ both => ⟨both.1.release, step s fd both.1 both.2⟩) ⟨sound, holds⟩

theorem foldl_release_empty (idx : Nat) (fds : List Nat) (counted : Counted s) :
    Counted (fds.foldl (fun s fd => fdReleaseSlot s idx fd) s) ∧
      ∀ fd, fd ∈ fds ∨ (s.fdTables idx fd).obj = none →
        ((fds.foldl (fun s fd => fdReleaseSlot s idx fd) s).fdTables idx fd).obj = none := by
  induction fds generalizing s with
  | nil => exact ⟨counted, fun fd either => either.resolve_left nofun⟩
  | cons first fds ih =>
    obtain ⟨counted', closed⟩ := ih (s := fdReleaseSlot s idx first) counted.release
    refine ⟨counted', fun fd either => closed fd ?_⟩
    rw [release_entry s idx first idx fd counted]
    by_cases here : fd = first
    · exact .inr (if_pos ⟨rfl, here⟩)
    · rw [if_neg fun both => here both.2]
      exact either.imp_left fun member => (List.mem_cons.mp member).resolve_left here

theorem releaseIndex_empty (counted : Counted s) (idx fd : Nat) : ((fdReleaseSlotIndex s idx).fdTables idx fd).obj = none := by
  have passed : ∀ fd < maxFd, fd ∈ List.range maxFd := fun fd inside => List.mem_range.mpr inside
  unfold fdReleaseSlotIndex
  generalize List.range maxFd = fds at passed ⊢
  obtain ⟨counted', closed⟩ := foldl_release_empty idx fds counted
  cases found : ((fds.foldl (fun s fd => fdReleaseSlot s idx fd) s).fdTables idx fd).obj with
  | none => rfl
  | some o =>
    rw [closed fd (.inl (passed fd (counted'.inside idx fd o found).2))] at found
    cases found

/-- A process has no descriptor of a set, and no task that waits in one. -/
def Isolated (s : Fds) (idx : Nat) : Prop := ∀ place, ¬ Reaches s idx place

theorem Isolated.not_left (isolated : Isolated s idx) : ¬ LeftOver s idx fd keep :=
  fun ⟨place, _, reaches, _⟩ => isolated place reaches

theorem fdBind_isolated (isolated : Isolated s idx) (counted : Counted s) {opened : Opened} {flags : UInt16} {cloexec : Bool} :
    Isolated (fdBind s idx fd opened flags cloexec).1 idx := by
  unfold fdBind
  split
  · exact isolated
  rename_i o free
  have unused := (fdObjectAlloc_spec free).2
  obtain ⟨used, type, _⟩ := made_self s o (opened.object flags)
  intro place reaches
  rcases attach_reaches used reaches with old | ⟨_, set, _⟩
  · exact isolated place ((counted.shrinks_make _ unused).reaches old)
  · rw [type] at set
    exact (opened.object_spec flags).2.1 set

/-- No task of a process waits in a set. -/
def Idle (idx : Nat) (s : Fds) : Prop := ∀ task place, s.epollWaits task ≠ some (idx, place)

theorem endWaits_idle (s : Fds) (idx : Nat) : Idle idx (s.endWaits idx) := by
  intro task place waits
  dsimp only [Fds.endWaits] at waits
  split at waits
  · cases waits
  · rename_i other
    rw [waits] at other
    simp at other

theorem Sound.idle_release {idx' : Nat} (sound : Sound s) (idle : Idle idx' s) : Idle idx' (fdReleaseSlot s idx fd) :=
  fun task place waits => idle task place (sound.counted.shrinks_release.waits task _ waits)

theorem Sound.exit (sound : Sound s) (inIdx : idx < schedMaxTasks) (stdin stdout stderr : Option VfsFile) :
    Sound (fdResetSlotDefaults (s.endWaits idx) idx stdin stdout stderr) := by
  have soundEnd : Sound (s.endWaits idx) := sound.shrinks (sound.counted.same rfl rfl) (shrinks_endWaits s idx)
  obtain ⟨soundClosed, noWait⟩ := releaseIndex_sound idx soundEnd (endWaits_idle s idx) fun s fd => Sound.idle_release
  have closed := releaseIndex_empty soundEnd.counted idx
  have isolated : Isolated (fdReleaseSlotIndex (s.endWaits idx) idx) idx := by
    rintro place (⟨fd, o, found, _⟩ | ⟨task, waits⟩)
    · rw [closed fd] at found
      cases found
    · exact noWait task place waits
  unfold fdResetSlotDefaults
  dsimp only
  -- No set is reached before the standard descriptors are bound, nor after.
  refine (@foldl_keeps (fun s => Sound s ∧ Isolated s idx) _ _ _ _ (fun s device member both => ?_)
    (@foldl_keeps (fun s => Sound s ∧ Isolated s idx) _ _ _ _ (fun s fd _ both => ?_) ⟨soundClosed, isolated⟩)).1
  · unfold fdBindDefault
    split
    · exact both
    · have inside : device.1 < maxFd := by
        simp only [List.mem_cons, List.not_mem_nil, or_false] at member
        rcases member with rfl | rfl | rfl <;> simp [maxFd]
      exact ⟨both.1.bind inIdx inside both.2.not_left, fdBind_isolated both.2 both.1.counted⟩
  · have shrinks := shrinks_clear s idx fd false
    exact ⟨both.1.shrinks (both.1.counted.clear false) shrinks, fun place reaches => both.2 place (shrinks.reaches reaches)⟩

/-- While a child gets its descriptors, those it has are those of its parent. -/
structure Copies (s : Fds) (dst src : Nat) : Prop where
  sound : Sound s
  entry : ∀ fd o, (s.fdTables dst fd).obj = some o → (s.fdTables src fd).obj = some o
  idle : Idle dst s

theorem Copies.clear {dst src : Nat} (copies : Copies s dst src) (differ : dst ≠ src) (fd : Nat) (cloexec : Bool) :
    Copies (s.setEntry dst fd ⟨none, cloexec⟩) dst src := by
  have shrinks := shrinks_clear s dst fd cloexec
  refine ⟨copies.sound.shrinks (copies.sound.counted.clear cloexec) shrinks, fun fd' o found => ?_, copies.idle⟩
  rw [setEntry_obj, if_neg fun both => differ both.1.symm]
  exact copies.entry fd' o (shrinks.entry dst fd' o found).1

theorem Copies.cloneEntry {dst src : Nat} (copies : Copies s dst src) (differ : dst ≠ src) (inDst : dst < schedMaxTasks)
    (inFd : fd < maxFd) : Copies (fdCloneEntry dst src s fd) dst src := by
  unfold fdCloneEntry
  split
  · exact copies.clear differ fd _
  rename_i o found
  have cleared := copies.clear differ fd (s.fdTables src fd).cloexec
  have still : ((s.setEntry dst fd ⟨none, (s.fdTables src fd).cloexec⟩).fdTables src fd).obj = some o := by
    rw [setEntry_obj, if_neg fun both => differ both.1.symm]
    exact found
  generalize s.setEntry dst fd ⟨none, (s.fdTables src fd).cloexec⟩ = s' at cleared still
  have used := cleared.sound.counted.used still
  -- What the child reaches its parent reaches, under the same descriptors.
  have reaches (place : Nat) (reached : Reaches s' dst place) : Reaches s' src place := by
    rcases reached with ⟨fd', o', found', set⟩ | ⟨task, waits⟩
    · exact .inl ⟨fd', o', cleared.entry fd' o' found', set⟩
    · exact absurd waits (cleared.idle task place)
  have fits : Fits s' dst fd o := by
    refine ⟨fun place reached slot shown same => ?_, fun set slot shown other found' => ?_⟩
    · refine cleared.sound.current src place ?_ slot shown o (same ▸ still)
      rcases reached with old | ⟨type, pipe⟩
      · exact reaches place old
      · exact .inl ⟨fd, o, still, type, pipe⟩
    · exact cleared.sound.current src _ (.inl ⟨fd, o, still, set, rfl⟩) slot shown other (cleared.entry _ other found')
  refine ⟨cleared.sound.attach inDst inFd used fits _, fun fd' o' found' => ?_, fun task place waits => ?_⟩
  · rw [attach_entry used] at found' ⊢
    rw [if_neg fun both => differ both.1.symm]
    split at found'
    · rename_i here
      cases found'
      rw [here.2]
      exact still
    · exact cleared.entry fd' o' found'
  · rw [(attach_pool s' dst fd o _).2] at waits
    exact cleared.idle task place waits

theorem Sound.fork (sound : Sound s) {dst src : Nat} (inDst : dst < schedMaxTasks) (differ : dst ≠ src) :
    Sound (fdCloneTaskTable (s.endWaits dst) dst src) := by
  have soundEnd : Sound (s.endWaits dst) := sound.shrinks (sound.counted.same rfl rfl) (shrinks_endWaits s dst)
  obtain ⟨soundClosed, noWait⟩ := releaseIndex_sound dst soundEnd (endWaits_idle s dst) fun s fd => Sound.idle_release
  have closed := releaseIndex_empty soundEnd.counted dst
  have start : Copies (fdReleaseSlotIndex (s.endWaits dst) dst) dst src := by
    refine ⟨soundClosed, fun fd o found => ?_, noWait⟩
    rw [closed fd] at found
    cases found
  exact (@foldl_keeps (fun s => Copies s dst src) _ _ _ _
    (fun s fd member copies => copies.cloneEntry differ inDst (List.mem_range.mp member)) start).sound

theorem Sound.ctl (sound : Sound s) {epfd : Nat} {command : EpollOp} {ev : Option EpollEvent}
    (left : NothingLeft s (.epollCtl idx epfd command fd ev)) : Sound (sysEpollCtl s idx epfd command fd ev).1 := by
  rcases sysEpollCtl_spec s idx epfd command fd ev with
    same | ⟨epobj, place, target, event, set, found, changed, after, result⟩
  · rw [same]
    exact sound
  obtain ⟨slot, interest, rfl, kind⟩ := epollCtl_spec changed
  rw [after]
  refine ⟨sound.counted.same rfl rfl, fun other place' reaches slot' shown o refers => ?_⟩
  have reaches : Reaches s other place' := reaches
  by_cases here : place' = place
  · subst here
    have pool : (s.setSet place' ((s.epollPool place').put slot interest)).epollPool place' =
        (s.epollPool place').put slot interest := Function.update_self ..
    rw [pool] at shown refers ⊢
    by_cases put : slot' = slot
    · subst put
      rw [EpollSet.put_self] at shown refers ⊢
      rcases kind with rfl | ⟨notDel, _, rfl⟩
      · cases shown
      · have same := left.shared idx epfd command fd ev rfl epobj place' target found notDel result other o reaches refers
        rw [same]
        exact ⟨rfl, rfl⟩
    · rw [EpollSet.put_of_ne _ _ put] at shown refers ⊢
      exact sound.current other place' reaches slot' shown o refers
  · have pool : (s.setSet place ((s.epollPool place).put slot interest)).epollPool place' = s.epollPool place' :=
      Function.update_of_ne here ..
    rw [pool] at shown refers ⊢
    exact sound.current other place' reaches slot' shown o refers

theorem Sound.pwait (sound : Sound s) (task epfd : Nat) : Sound (sysEpollPwait s task idx epfd).1 := by
  unfold sysEpollPwait
  split
  · exact sound
  rename_i epobj found
  split
  · exact sound
  rename_i set
  split
  · exact sound
  refine ⟨sound.counted.same rfl rfl, fun other place reaches slot shown o refers =>
    sound.current other place ?_ slot shown o refers⟩
  rcases reaches with open' | ⟨task', waits⟩
  · exact .inl open'
  · dsimp only [Fds.setWait] at waits
    by_cases here : task' = task
    · rw [here, Function.update_self] at waits
      cases waits
      exact .inl ⟨epfd, epobj, (fdGet_spec found).2, not_not.mp set, rfl⟩
    · rw [Function.update_of_ne here] at waits
      exact .inr ⟨task', waits⟩

theorem run_sound (run : Run exec NothingLeft boot s) : Sound s := by
  have start : Sound boot := by
    refine ⟨run_counted .start, fun idx place reaches slot shown => ?_⟩
    cases shown
  refine Run.invariant start (fun {s s' op} sound left ran => ?_) run
  cases ran
  split
  · rename_i inside
    cases op with
    | bind idx fd opened flags cloexec =>
      simp only [Op.inside] at inside
      exact sound.bind inside.1 inside.2 (left.binds (idx, fd, none) List.mem_cons_self)
    | pipe idx stored => exact sound.pipe (by simpa only [Op.inside] using inside) left.binds
    | epollCreate1 idx cloexec => exact sound.epollCreate1 (by simpa only [Op.inside] using inside) left.binds
    | epollCtl idx epfd command fd ev => exact sound.ctl left
    | epollPwait task idx epfd => exact sound.pwait task epfd
    | epollReturns task =>
      refine sound.shrinks (sound.counted.same rfl rfl)
        ⟨fun _ _ _ found => ⟨found, rfl, rfl, rfl⟩, fun _ _ _ => rfl, fun other wait waits => ?_⟩
      dsimp only [Op.after, Fds.setWait] at waits
      by_cases here : other = task
      · rw [here, Function.update_self] at waits
        cases waits
      · rwa [Function.update_of_ne here] at waits
    | close idx fd =>
      show Sound (sysClose s idx fd).1
      unfold sysClose
      split
      · exact sound
      · exact sound.release
    | dup idx oldfd => exact sound.dupFrom (by simpa only [Op.inside] using inside) left.binds
    | dup2 idx oldfd newfd => exact sound.dup2 (by simpa only [Op.inside] using inside) left.binds
    | fcntlDupfd idx fd arg cloexec =>
      show Sound (sysFcntlDupfd s idx fd arg cloexec).1
      unfold sysFcntlDupfd
      split
      · exact sound
      split
      · exact sound
      · exact sound.dupFrom (by simpa only [Op.inside] using inside) left.binds
    | fork dst src =>
      simp only [Op.inside] at inside
      exact sound.fork inside.1 inside.2.2
    | execve idx =>
      refine foldl_keeps (fun s fd _ sound => ?_) sound
      unfold fdCloseCloexecSlot
      split
      · exact sound.release
      · exact sound
    | exit idx stdin stdout stderr => exact sound.exit (by simpa only [Op.inside] using inside) stdin stdout stderr
  · exact sound

theorem sysEpollCtl_exists {epfd : Nat} {command : EpollOp} {ev : Option EpollEvent}
    (failed : (sysEpollCtl s idx epfd command fd ev).2 = .error .eexist) :
    ∃ epobj place target slot, epollTarget s idx epfd fd = .ok (epobj, place, target) ∧
      ((s.epollPool place).interests slot).inUse = true ∧ ((s.epollPool place).interests slot).fd = fd := by
  unfold sysEpollCtl at failed
  split at failed
  · rename_i error found
    cases failed
    unfold epollTarget at found
    repeat' split at found
    all_goals cases found
  rename_i epobj place target found
  split at failed
  · cases failed
  split at failed
  · cases failed
  split at failed
  · rename_i error changed
    cases failed
    unfold epollCtl at changed
    split at changed
    · rename_i slot there _
      obtain ⟨_, shown, same⟩ := epollFindInterest_spec there
      exact ⟨epobj, place, target, slot, found, shown, same⟩
    · split at changed <;> cases changed
    all_goals cases changed
  · cases failed

/-- In every run whose calls leave nothing over, interests die with their files. -/
theorem run_interestsDie (run : Run exec NothingLeft boot s) : InterestsDie s := by
  have current := (run_sound run).current
  refine ⟨fun idx place slot o reaches shown got => current idx place reaches slot shown o (fdGet_spec got).2,
    fun idx epfd fd ev failed => ?_⟩
  obtain ⟨epobj, place, target, slot, found, shown, same⟩ := sysEpollCtl_exists failed
  obtain ⟨gotEp, got, _, set, pipe, _⟩ := epollTarget_spec found
  have reaches : Reaches s idx place := .inl ⟨epfd, epobj, (fdGet_spec gotEp).2, set, pipe⟩
  refine ⟨epobj, place, target, slot, found, shown, same, current idx place reaches slot shown target ?_⟩
  rw [same]
  exact (fdGet_spec got).2

end

theorem fdBind_made {s : Fds} {idx fd o : Nat} {opened : Opened} {flags : UInt16} {cloexec : Bool}
    (free : fdObjectAlloc s = some o) : (fdBind s idx fd opened flags cloexec).1 =
      fdAttachObject (s.makeObject o (opened.object flags)) idx fd o cloexec := by
  unfold fdBind
  rw [free]

/-- A set, and a file that is opened after it. -/
def setAndFile : Fds := (Op.bind 0 4 (.file ⟨0, 1, 0⟩) 0 false).after ((Op.epollCreate1 0 false).after boot)

/-- A set gets an interest in a file. -/
theorem run_interestsDie_watchedFile :
    ∃ s, Run exec NothingLeft boot s ∧ ((s.epollPool 0).interests 0).inUse = true ∧
      ((s.epollPool 0).interests 0).isFor s 1 := by
  -- The new set has no interest, so that none is left over when the file is opened.
  have createdIs : (Op.epollCreate1 0 false).after boot =
      fdAttachObject ((boot.setSet 0 { EpollSet.zero with inUse := true }).makeObject 0
        { FdObject.zero with type := .epoll, pipe := 0 }) 0 3 0 false := by
    show (sysEpollCreate1 boot 0 false).1 = _
    rw [sysEpollCreate1, show fdAlloc boot 0 = some 3 by decide +kernel, show fdObjectAlloc boot = some 0 by decide +kernel,
      show epollSetAlloc boot.epollPool = some 0 by decide +kernel]
  have pool : ((Op.epollCreate1 0 false).after boot).epollPool =
      Function.update boot.epollPool 0 { EpollSet.zero with inUse := true } := by
    rw [createdIs, (attach_pool _ _ _ _ _).1]
    rfl
  have none (place slot : Nat) :
      ((((Op.epollCreate1 0 false).after boot).epollPool place).interests slot).inUse = false := by
    rw [pool]
    by_cases here : place = 0
    · rw [here, Function.update_self]
      rfl
    · rw [Function.update_of_ne here]
      rfl
  have made : Run exec NothingLeft boot ((Op.epollCreate1 0 false).after boot) :=
    .call (.epollCreate1 0 false) .start ⟨fun _ _ ⟨_, _, _, shown, _⟩ => (nomatch shown), nofun⟩ rfl
  have opened : Run exec NothingLeft boot setAndFile :=
    .call (.bind 0 4 (.file ⟨0, 1, 0⟩) 0 false) made
      ⟨fun _ _ ⟨place, slot, _, shown, _⟩ => (nomatch (none place slot).symm.trans shown), nofun⟩ rfl
  -- Only the file is under the descriptor, in any process.
  have openedIs : setAndFile = fdAttachObject (((Op.epollCreate1 0 false).after boot).makeObject 1
      (Opened.object 0 (.file ⟨0, 1, 0⟩))) 0 4 1 false := by
    have free : fdObjectAlloc ((Op.epollCreate1 0 false).after boot) = some 1 := by decide +kernel
    exact fdBind_made free
  have entry (other o : Nat) (found : (setAndFile.fdTables other 4).obj = some o) : o = 1 := by
    rw [openedIs, attach_entry (made_self _ 1 _).1] at found
    split at found
    · exact (Option.some.inj found).symm
    · rw [makeObject_tables, createdIs, attach_entry (made_self _ 0 _).1, if_neg (by simp)] at found
      cases found
  have target : epollTarget setAndFile 0 3 4 = .ok (0, 0, 1) := by decide +kernel
  have asked : Run exec NothingLeft boot ((Op.epollCtl 0 3 .add 4 (some ⟨linuxPollin, 0⟩)).after setAndFile) := by
    refine .call (.epollCtl 0 3 .add 4 (some ⟨linuxPollin, 0⟩)) opened ⟨nofun, fun idx epfd command fd ev same => ?_⟩ rfl
    cases same
    intro epobj place aim found _ _ other o _ refers
    cases target.symm.trans found
    exact entry other o refers
  refine ⟨_, asked, by decide +kernel, ?_⟩
  exact (run_interestsDie asked).reported 0 0 0 1 (.inl ⟨3, 0, by decide +kernel, by decide +kernel, by decide +kernel⟩)
    (by decide +kernel) (by decide +kernel)

/-- A file that is opened under the descriptor of a closed one gets its object, and its interest. -/
def reopened : List Op :=
  [.epollCreate1 0 false, .bind 0 4 (.file ⟨0, 1, 0⟩) 0 false, .epollCtl 0 3 .add 4 (some ⟨linuxPollin, 0⟩), .close 0 4,
    .bind 0 4 (.file ⟨0, 2, 1⟩) 0 false]

theorem run_not_interestsDie : ¬ ∀ s, Run exec (fun _ _ => True) boot s → InterestsDie s := by
  intro claim
  have found : (runList exec (fun _ _ => True) boot reopened).any (fun s =>
      (s.fdTables 0 3).obj == some 0 && decide ((s.fdObjects 0).type = .epoll) && (s.fdObjects 0).pipe == 0 &&
        ((s.epollPool 0).interests 0).inUse && fdGet s 0 ((s.epollPool 0).interests 0).fd == some 1 &&
        (s.fdObjects 1).birth != ((s.epollPool 0).interests 0).birth) = true := by
    decide +kernel
  obtain ⟨s, run, seen⟩ := runList_any found
  simp only [Bool.and_eq_true, decide_eq_true_eq, beq_iff_eq, bne_iff_ne] at seen
  obtain ⟨⟨⟨⟨⟨entry, type⟩, pipe⟩, shown⟩, got⟩, other⟩ := seen
  exact other ((claim s run).reported 0 0 0 1 (.inl ⟨3, 0, entry, type, pipe⟩) shown got).2

end Enlil.Fd
