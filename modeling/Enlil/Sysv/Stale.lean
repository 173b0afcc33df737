import Enlil.Sysv.Calls

/-! Identifiers of System V objects that no longer exist, and the objects made later in their slots. -/

namespace Enlil.Sysv

/-- An identifier that a call returned, with the object it was for: its slot, and its number among the objects of the slot. -/
structure Issued where
  id : Int32
  slot : Nat
  generation : Nat

/-- What has happened to a table: how many objects each slot has had, and the identifiers that were returned. -/
structure Book where
  made : Nat → Nat
  issued : List Issued

/-- The objects that a call makes are counted. -/
def Book.count {α : Type} (book : Book) (before after : Slots α) : Book :=
  { book with made := fun slot => if (after slot).inUse && !(before slot).inUse then book.made slot + 1 else book.made slot }

/-- A call returns the identifier of the object in a slot. -/
def Book.issue (book : Book) (id : Int32) (slot : Nat) : Book :=
  { book with issued := book.issued ++ [⟨id, slot, book.made slot⟩] }

/-- The tables, and what has happened to them. -/
structure Session where
  state : State
  shmBook : Book
  semBook : Book

/-- The calls. -/
inductive Op where
  | shmget (key : UInt32) (size : UInt64) (flags : UInt32) (pa : UInt64)
  | shmat (caller : Caller) (shmid : Int32) (addr : UInt64) (flags : UInt32) (mapped : Option UInt64)
  | shmdt (caller : Caller) (addr : UInt64)
  | shmctl (shmid : Int32) (cmd : Int)
  | semget (key nsems flags : UInt32)
  | semop (task : Nat) (semid : Int32) (ops : List SemBuf) (timeoutMs : Option Nat) (nowMs : Nat) (interrupted : Bool)
  /-- A task that waits in an operation is scheduled again. -/
  | semopWoken (task nowMs : Nat) (interrupted : Bool)
  | semctl (semid : Int32) (semnum : UInt32) (cmd : Int) (arg : UInt64)
  /-- A process ends or loads a program. -/
  | exit (procSlot : Nat)
  /-- A task that waits in an operation is ended by another one. -/
  | kill (task : Nat)

/-- The state after a call. -/
def Op.after (s : State) : Op → State
  | .shmget key size flags pa => (sysvShmget s key size flags pa).1
  | .shmat caller shmid addr flags mapped => (sysvShmatCurrent s caller shmid addr flags mapped).1
  | .shmdt caller addr => (sysvShmdtCurrent s caller addr).1
  | .shmctl shmid cmd => (sysvShmctl s shmid cmd).1
  | .semget key nsems flags => (sysvSemget s key nsems flags).1
  | .semop task semid ops timeoutMs nowMs interrupted =>
    (sysvSemopCurrent s task semid ops timeoutMs nowMs interrupted).1
  | .semopWoken task nowMs interrupted =>
    match s.waits task with
    | none => s
    | some wait => (semopAfter task wait (semopRound s wait true nowMs interrupted)).1
  | .semctl semid semnum cmd arg => (sysvSemctl s semid semnum cmd arg).1
  | .exit procSlot => sysvIpcProcCleanup s procSlot
  | .kill task => { s with waits := Function.update s.waits task none }

/-- The segment whose identifier a call returns. -/
def Op.shmIssue (s : State) : Op → Option Nat
  | .shmget key size flags pa => (shmgetSlot s key size flags pa).toOption.map Prod.snd
  | _ => none

/-- The set whose identifier a call returns. -/
def Op.semIssue (s : State) : Op → Option Nat
  | .semget key nsems flags => (semgetSlot s key nsems flags).toOption.map Prod.snd
  | _ => none

/-- The segment that a call makes. -/
def Op.shmMakes (s : State) : Op → Option Nat
  | .shmget key size flags pa => shmgetMakes s key size flags pa
  | _ => none

/-- The set that a call makes. -/
def Op.semMakes (s : State) : Op → Option Nat
  | .semget key nsems flags => semgetMakes s key nsems flags
  | _ => none

/-- The books after a call. -/
def Book.after {α : Type} (book : Book) (before after : Slots α) (issue : Option Nat) : Book :=
  match issue with
  | none => book.count before after
  | some slot => (book.count before after).issue (idFromSlot slot (after slot).seq) slot

/-- What each call does; one that fails changes what its source changes. -/
def exec (s : Session) (op : Op) : Except Empty Session :=
  .ok {
    state := op.after s.state
    shmBook := s.shmBook.after s.state.shm (op.after s.state).shm (op.shmIssue s.state)
    semBook := s.semBook.after s.state.sem (op.after s.state).sem (op.semIssue s.state) }

/-- Before the first call. -/
def boot : Session where
  state := ⟨fun _ => vacant, fun _ => none, fun _ => vacant, fun _ => none⟩
  shmBook := ⟨fun _ => 0, []⟩
  semBook := ⟨fun _ => 0, []⟩

/-- How many objects a slot may have before its sequence numbers repeat. -/
def seqRange : Nat := 0xFFFF

section

variable {α : Type} {max slot : Nat} {slots slots' later : Slots α} {book : Book} {issue : Option Nat}

/-- Identifiers and objects in use correspond, and a returned identifier resolves to the object it was returned for or to none. -/
structure Book.Resolves (book : Book) (max : Nat) (slots : Slots α) : Prop where
  slotFromId : ∀ slot < max, (slots slot).inUse = true →
    Sysv.slotFromId max slots (idFromSlot slot (slots slot).seq) = some slot
  idFromSlot : ∀ id slot, Sysv.slotFromId max slots id = some slot →
    slot < max ∧ (slots slot).inUse = true ∧ idFromSlot slot (slots slot).seq = id
  stale : ∀ issued ∈ book.issued, ∀ slot, Sysv.slotFromId max slots issued.id = some slot →
    slot = issued.slot ∧ (book.made slot < issued.generation + seqRange → book.made slot = issued.generation)

/-- Objects are changed in place, or their slots cleared. -/
def Retires (slots slots' : Slots α) : Prop :=
  ∀ slot, ((slots' slot).inUse = (slots slot).inUse ∧ (slots' slot).seq = (slots slot).seq) ∨
    ((slots' slot).inUse = false ∧ (slots' slot).seq = 0)

theorem Retires.refl (slots : Slots α) : Retires slots slots := fun _ => .inl ⟨rfl, rfl⟩

theorem Retires.trans (first : Retires slots slots') (second : Retires slots' later) : Retires slots later := fun slot => by
  rcases second slot with ⟨used, seq⟩ | cleared
  · rcases first slot with ⟨used', seq'⟩ | ⟨used', seq'⟩
    · exact .inl ⟨used.trans used', seq.trans seq'⟩
    · exact .inr ⟨used.trans used', seq.trans seq'⟩
  · exact .inr cleared

theorem Retires.update {value : Slot α} (same : value.inUse = (slots slot).inUse ∧ value.seq = (slots slot).seq) :
    Retires slots (Function.update slots slot value) := fun other => by
  by_cases here : other = slot
  · subst here
    rw [Function.update_self]
    exact .inl same
  · rw [Function.update_of_ne here]
    exact .inl ⟨rfl, rfl⟩

theorem Retires.tryFree [Inhabited α] (max : Nat) (busy : α → Bool) (slots : Slots α) (slot : Nat) :
    Retires slots (tryFree max busy slots slot) := by
  unfold Sysv.tryFree
  split
  · exact .refl slots
  split
  · exact .refl slots
  intro other
  by_cases here : other = slot
  · subst here
    rw [Function.update_self]
    exact .inr ⟨rfl, rfl⟩
  · rw [Function.update_of_ne here]
    exact .inl ⟨rfl, rfl⟩

/-- What a call does to a table if it makes an object in the slot, if any, and the object whose identifier it returns. -/
inductive Change (max : Nat) (slots : Slots α) (makes : Option Nat) : Slots α → Option Nat → Prop where
  | retires {slots' : Slots α} (retires : Retires slots slots') : Change max slots makes slots' none
  | found {slot : Nat} (inside : slot < max) (used : (slots slot).inUse = true) : Change max slots makes slots (some slot)
  | made {slot : Nat} {key : UInt32} {body : α} (taken : makes = some slot) (free : freeSlot max slots = some slot) :
    Change max slots makes (Function.update slots slot ⟨true, false, nextSeq (slots slot).seq, key, body⟩) (some slot)

end

section

variable {s s' later : State} {caller : Caller} {addr : UInt64} {slot : Nat}

/-- A call changes objects in place and clears slots, in both tables. -/
structure State.Retires (s s' : State) : Prop where
  shm : Sysv.Retires s.shm s'.shm
  sem : Sysv.Retires s.sem s'.sem

theorem State.Retires.refl (s : State) : s.Retires s := ⟨.refl _, .refl _⟩

theorem State.Retires.trans (first : s.Retires s') (second : s'.Retires later) : s.Retires later :=
  ⟨first.shm.trans second.shm, first.sem.trans second.sem⟩

theorem State.Retires.of_eq (shm : s'.shm = s.shm) (sem : s'.sem = s.sem) : s.Retires s' :=
  ⟨shm ▸ .refl _, sem ▸ .refl _⟩

theorem setShm_retires (s : State) (slot : Nat) (f : ShmSeg → ShmSeg) : s.Retires (setShm s slot f) :=
  ⟨.update ⟨rfl, rfl⟩, .refl _⟩

theorem setSem_retires (s : State) (slot : Nat) (f : SemSet → SemSet) : s.Retires (setSem s slot f) :=
  ⟨.refl _, .update ⟨rfl, rfl⟩⟩

theorem tryFreeShmSlot_retires (s : State) (slot : Nat) : s.Retires (tryFreeShmSlot s slot) :=
  ⟨.tryFree shmMax _ s.shm slot, .refl _⟩

theorem tryFreeSemSlot_retires (s : State) (slot : Nat) : s.Retires (tryFreeSemSlot s slot) :=
  ⟨.refl _, .tryFree semsetMax _ s.sem slot⟩

theorem dropAttach_retires (s : State) (test : ShmAttach → Bool) : s.Retires (dropAttach s test) := by
  unfold dropAttach
  split
  · exact .refl s
  · exact .of_eq rfl rfl

theorem allocAttachRecord_retires {record : ShmAttach} (got : allocAttachRecord s record = some s') : s.Retires s' := by
  obtain ⟨i, _, same⟩ := Option.map_eq_some_iff.mp got
  rw [← same]
  exact .of_eq rfl rfl

theorem shmat_retires (shmid : Int32) (flags : UInt32) (mapped : Option UInt64) :
    s.Retires (sysvShmatCurrent s caller shmid addr flags mapped).1 := by
  unfold sysvShmatCurrent
  refine iteInduction (motive := fun r : State × Except Errno UInt64 => s.Retires r.1) (fun _ => .refl _) fun _ => ?_
  refine iteInduction (motive := fun r : State × Except Errno UInt64 => s.Retires r.1) (fun _ => .refl _) fun _ => ?_
  split
  · exact .refl _
  rename_i slot found
  refine iteInduction (motive := fun r : State × Except Errno UInt64 => s.Retires r.1) (fun _ => .refl _) fun _ => ?_
  refine iteInduction (motive := fun r : State × Except Errno UInt64 => s.Retires r.1) (fun _ => .refl _) fun _ => ?_
  -- The segment is attached where the caller wants it, or anywhere.
  refine iteInduction (motive := fun r : State × Except Errno UInt64 => s.Retires r.1) (fun _ => ?_) fun _ => ?_
  · dsimp only
    generalize (if flags &&& shmRnd ≠ 0 then addr &&& pageMask else addr) = place
    split
    · exact .refl _
    split
    · exact .refl _
    rename_i recorded got
    split
    · exact (allocAttachRecord_retires got).trans (dropAttach_retires _ _)
    · refine (allocAttachRecord_retires got).trans ?_
      dsimp only
      exact setShm_retires recorded slot _
  · split
    · exact .refl _
    split
    · exact .refl _
    rename_i recorded got
    refine (allocAttachRecord_retires got).trans ?_
    dsimp only
    exact setShm_retires recorded slot _

theorem detachOne_retires (s : State) (slot : Nat) : s.Retires (detachOne s slot) := by
  unfold detachOne
  split
  · exact setShm_retires _ _ _
  · exact .refl _

theorem shmdt_retires : s.Retires (sysvShmdtCurrent s caller addr).1 := by
  unfold sysvShmdtCurrent
  split
  · exact .refl _
  split
  · exact .refl _
  split
  · exact .refl _
  split
  · exact .refl _
  · rename_i i _ _ record _
    have gone : s.Retires { s with attaches := Function.update s.attaches i none } := .of_eq rfl rfl
    exact (gone.trans (detachOne_retires _ record.segSlot)).trans (tryFreeShmSlot_retires _ _)

theorem shmctl_retires (shmid : Int32) (cmd : Int) : s.Retires (sysvShmctl s shmid cmd).1 := by
  unfold sysvShmctl
  split
  · exact .refl _
  split
  · refine State.Retires.trans ?_ (tryFreeShmSlot_retires _ _)
    exact ⟨.update ⟨rfl, rfl⟩, .refl _⟩
  · exact .refl _

theorem foldl_retires {β : Type} {f : State → β → State} (step : ∀ (s : State) item, s.Retires (f s item))
    (items : List β) (s : State) : s.Retires (items.foldl f s) := by
  induction items generalizing s with
  | nil => exact .refl _
  | cons item items ih => exact (step s item).trans (ih _)

theorem cleanAttach_retires (procSlot : Nat) (s : State) (i : Nat) : s.Retires (cleanAttach procSlot s i) := by
  unfold cleanAttach
  split
  · exact .refl _
  split
  · exact .refl _
  · rename_i record _ _
    have gone : s.Retires { s with attaches := Function.update s.attaches i none } := .of_eq rfl rfl
    exact gone.trans (detachOne_retires _ record.segSlot)

theorem procCleanup_retires (procSlot : Nat) : s.Retires (sysvIpcProcCleanup s procSlot) :=
  (foldl_retires (cleanAttach_retires procSlot) _ s).trans (foldl_retires tryFreeShmSlot_retires _ _)

theorem semGiveUp_retires (s : State) (slot : Nat) : s.Retires (semGiveUp s slot) := by
  unfold semGiveUp
  split
  · exact (setSem_retires s slot _).trans (tryFreeSemSlot_retires _ _)
  · exact tryFreeSemSlot_retires s slot

theorem semopRound_retires (wait : SemWait) (waiting : Bool) (nowMs : Nat) (interrupted : Bool) :
    s.Retires (semopRound s wait waiting nowMs interrupted).1 := by
  unfold semopRound
  dsimp only
  split
  · split
    · exact (setSem_retires s wait.slot _).trans (tryFreeSemSlot_retires _ _)
    · exact .refl _
  split
  · dsimp only
    exact setSem_retires s wait.slot _
  · exact setSem_retires s wait.slot _
  split
  · exact setSem_retires s wait.slot _
  -- The task waits, and gives up at once if it is interrupted or its time is over.
  have waits : s.Retires (if waiting then s else setSem s wait.slot fun set =>
      { set with waiterCount := set.waiterCount + 1 }) := by
    split
    · exact .refl _
    · exact setSem_retires _ _ _
  split
  · exact waits.trans (semGiveUp_retires _ _)
  split
  · exact waits.trans (semGiveUp_retires _ _)
  · exact waits

theorem semop_retires (task : Nat) (semid : Int32) (ops : List SemBuf) (timeoutMs : Option Nat) (nowMs : Nat)
    (interrupted : Bool) : s.Retires (sysvSemopCurrent s task semid ops timeoutMs nowMs interrupted).1 := by
  unfold sysvSemopCurrent
  split
  · exact .refl _
  split
  · exact .refl _
  · rename_i slot _
    exact (semopRound_retires ⟨slot, ops, timeoutMs.map (nowMs + ·)⟩ false nowMs interrupted).trans (.of_eq rfl rfl)

theorem semctl_retires (semid : Int32) (semnum : UInt32) (cmd : Int) (arg : UInt64) :
    s.Retires (sysvSemctl s semid semnum cmd arg).1 := by
  unfold sysvSemctl
  split
  · exact .refl _
  dsimp only
  split
  · refine State.Retires.trans ?_ (tryFreeSemSlot_retires _ _)
    exact ⟨.refl _, .update ⟨rfl, rfl⟩⟩
  split
  · split <;> exact .refl _
  split
  · split
    · exact .refl _
    · dsimp only
      exact setSem_retires s _ _
  · exact .refl _

theorem semopWoken_retires (task nowMs : Nat) (interrupted : Bool) :
    s.Retires ((Op.semopWoken task nowMs interrupted).after s) := by
  rw [Op.after]
  split
  · exact .refl _
  · rename_i wait _
    exact (semopRound_retires wait true nowMs interrupted).trans (.of_eq rfl rfl)

theorem shm_change (s : State) (op : Op) : Change shmMax s.shm (op.shmMakes s) (op.after s).shm (op.shmIssue s) := by
  cases op with
  | shmget key size flags pa =>
    simp only [Op.after, Op.shmIssue, sysvShmget]
    cases got : shmgetSlot s key size flags pa with
    | error => exact .retires (.refl _)
    | ok result =>
      obtain ⟨shm, slot⟩ := result
      rcases getSlot_spec got with ⟨rfl, inside, used⟩ | ⟨makes, free, body, rfl⟩
      · exact .found inside used
      · exact .made makes free
  | semget key nsems flags =>
    simp only [Op.after, Op.shmIssue, sysvSemget]
    split <;> exact .retires (.refl _)
  | shmat caller shmid addr flags mapped => exact .retires (shmat_retires shmid flags mapped).shm
  | shmdt caller addr => exact .retires shmdt_retires.shm
  | shmctl shmid cmd => exact .retires (shmctl_retires shmid cmd).shm
  | semop task semid ops timeoutMs nowMs interrupted => exact .retires (semop_retires ..).shm
  | semopWoken task nowMs interrupted => exact .retires (semopWoken_retires ..).shm
  | semctl semid semnum cmd arg => exact .retires (semctl_retires ..).shm
  | exit procSlot => exact .retires (procCleanup_retires procSlot).shm
  | kill task => exact .retires (.refl _)

theorem sem_change (s : State) (op : Op) : Change semsetMax s.sem (op.semMakes s) (op.after s).sem (op.semIssue s) := by
  cases op with
  | semget key nsems flags =>
    simp only [Op.after, Op.semIssue, sysvSemget]
    cases got : semgetSlot s key nsems flags with
    | error => exact .retires (.refl _)
    | ok result =>
      obtain ⟨sem, slot⟩ := result
      rcases getSlot_spec got with ⟨rfl, inside, used⟩ | ⟨makes, free, body, rfl⟩
      · exact .found inside used
      · exact .made makes free
  | shmget key size flags pa =>
    simp only [Op.after, Op.semIssue, sysvShmget]
    split <;> exact .retires (.refl _)
  | shmat caller shmid addr flags mapped => exact .retires (shmat_retires shmid flags mapped).sem
  | shmdt caller addr => exact .retires shmdt_retires.sem
  | shmctl shmid cmd => exact .retires (shmctl_retires shmid cmd).sem
  | semop task semid ops timeoutMs nowMs interrupted => exact .retires (semop_retires ..).sem
  | semopWoken task nowMs interrupted => exact .retires (semopWoken_retires ..).sem
  | semctl semid semnum cmd arg => exact .retires (semctl_retires ..).sem
  | exit procSlot => exact .retires (procCleanup_retires procSlot).sem
  | kill task => exact .retires (.refl _)

end

section

variable {α : Type} {max slot : Nat} {slots slots' : Slots α} {book : Book} {makes issue : Option Nat}

/-- A slot in use has the first sequence number, and one that is free has none: whatever clears a slot clears its number too. -/
def Sequenced (slots : Slots α) : Prop := ∀ slot, (slots slot).seq = if (slots slot).inUse then 1 else 0

theorem Sequenced.change (sequenced : Sequenced slots) (change : Change max slots makes slots' issue) : Sequenced slots' := by
  cases change with
  | retires retires =>
    intro slot
    rcases retires slot with ⟨used, seq⟩ | ⟨used, seq⟩
    · rw [used, seq, sequenced slot]
    · rw [used, seq]
      rfl
  | found => exact sequenced
  | made taken free =>
    rename_i slot key body
    intro other
    by_cases here : other = slot
    · subst here
      rw [Function.update_self]
      dsimp only
      rw [sequenced other, (freeSlot_spec free).2]
      rfl
    · rw [Function.update_of_ne here, sequenced other]

/-- A slot has had at most one object, and one that is in use has had one; identifiers were returned for first objects. -/
structure Book.Single (book : Book) (max : Nat) (slots : Slots α) : Prop where
  used : ∀ slot, (slots slot).inUse = true → book.made slot = 1
  free : ∀ slot, book.made slot ≤ 1
  issued : ∀ issued ∈ book.issued, issued.slot < max ∧ issued.id = idFromSlot issued.slot 1 ∧ issued.generation = 1

theorem Book.Single.change (single : book.Single max slots) (sequenced : Sequenced slots)
    (change : Change max slots makes slots' issue) (unused : ∀ slot, makes = some slot → book.made slot = 0) :
    (book.after slots slots' issue).Single max slots' := by
  cases change with
  | retires retires =>
    -- No slot is taken, so nothing is counted.
    have same : (book.count slots slots').made = book.made := by
      funext slot
      rcases retires slot with ⟨used, _⟩ | ⟨used, _⟩ <;> simp [Book.count, used]
    refine ⟨fun slot used => ?_, fun slot => ?_, single.issued⟩
    · show (book.count slots slots').made slot = 1
      rw [same]
      rcases retires slot with ⟨used', _⟩ | ⟨used', _⟩
      · exact single.used slot (used' ▸ used)
      · rw [used'] at used
        cases used
    · show (book.count slots slots').made slot ≤ 1
      rw [same]
      exact single.free slot
  | found inside used =>
    rename_i slot
    have same : (book.count slots slots).made = book.made := by
      funext slot
      cases (slots slot).inUse <;> simp [Book.count]
    refine ⟨fun slot used => ?_, fun slot => ?_, fun issued member => ?_⟩
    · show (book.count slots slots).made slot = 1
      rw [same]
      exact single.used slot used
    · show (book.count slots slots).made slot ≤ 1
      rw [same]
      exact single.free slot
    · rcases List.mem_append.mp member with old | new
      · exact single.issued issued old
      · rw [List.mem_singleton.mp new]
        dsimp only
        rw [sequenced slot, used, same]
        exact ⟨inside, rfl, single.used slot used⟩
  | made taken free =>
    rename_i slot key body
    obtain ⟨inside, empty⟩ := freeSlot_spec free
    have unmade := unused slot taken
    have counted (slots' : Slots α) (same : slots' = Function.update slots slot
        ⟨true, false, nextSeq (slots slot).seq, key, body⟩) :
        (book.count slots slots').made = Function.update book.made slot 1 := by
      funext other
      by_cases here : other = slot
      · subst here
        simp [same, Book.count, empty, unmade]
      · cases used : (slots other).inUse <;> simp [same, Book.count, Function.update_of_ne here, used]
    generalize same : Function.update slots slot ⟨true, false, nextSeq (slots slot).seq, key, body⟩ = slots'
    refine ⟨fun other used => ?_, fun other => ?_, fun issued member => ?_⟩
    · show (book.count slots slots').made other = 1
      rw [counted slots' same.symm]
      by_cases here : other = slot
      · rw [here, Function.update_self]
      · rw [Function.update_of_ne here]
        rw [← same, Function.update_of_ne here] at used
        exact single.used other used
    · show (book.count slots slots').made other ≤ 1
      rw [counted slots' same.symm]
      by_cases here : other = slot
      · rw [here, Function.update_self]
      · rw [Function.update_of_ne here]
        exact single.free other
    · rcases List.mem_append.mp member with old | new
      · exact single.issued issued old
      · rw [List.mem_singleton.mp new]
        dsimp only
        rw [counted slots' same.symm, Function.update_self, ← same, Function.update_self]
        dsimp only
        rw [sequenced slot, empty]
        exact ⟨inside, rfl, rfl⟩

theorem Book.Single.resolves (single : book.Single max slots) (sequenced : Sequenced slots) (small : max ≤ 0xFFFF) :
    book.Resolves max slots where
  slotFromId slot inside used :=
    slotFromId_idFromSlot inside small used (by rw [sequenced slot, used]; decide)
  idFromSlot id slot found := by
    obtain ⟨_, _, inside, used, _⟩ := slotFromId_some_iff.mp found
    exact ⟨inside, used, idFromSlot_slotFromId small found⟩
  stale issued member slot found := by
    obtain ⟨inside, id, generation⟩ := single.issued issued member
    obtain ⟨_, low, _, used, _⟩ := slotFromId_some_iff.mp found
    rw [id, idFromSlot_toNat (by omega) (by decide)] at low
    exact ⟨by omega, fun _ => (single.used slot used).trans generation.symm⟩

end

section

variable {s s' : Session} {op : Op}

/-- The condition on a call: a slot that it makes an object in has had none before. -/
def NewSlot (s : Session) (op : Op) : Prop :=
  (∀ slot, op.shmMakes s.state = some slot → s.shmBook.made slot = 0) ∧
    ∀ slot, op.semMakes s.state = some slot → s.semBook.made slot = 0

theorem run_sequenced (run : Run exec (fun _ _ => True) boot s) : Sequenced s.state.shm ∧ Sequenced s.state.sem := by
  induction run with
  | start => exact ⟨fun _ => rfl, fun _ => rfl⟩
  | call op _ _ ran ih =>
    cases ran
    exact ⟨ih.1.change (shm_change _ op), ih.2.change (sem_change _ op)⟩

theorem run_single (run : Run exec NewSlot boot s) :
    s.shmBook.Single shmMax s.state.shm ∧ s.semBook.Single semsetMax s.state.sem := by
  induction run with
  | start => exact ⟨⟨nofun, fun _ => Nat.zero_le 1, nofun⟩, ⟨nofun, fun _ => Nat.zero_le 1, nofun⟩⟩
  | call op before unused ran ih =>
    obtain ⟨shm, sem⟩ := run_sequenced (before.mono fun _ _ _ => trivial)
    cases ran
    exact ⟨ih.1.change shm (shm_change _ op) unused.1, ih.2.change sem (sem_change _ op) unused.2⟩

/-- In every run in which objects are made in new slots only, identifiers do not alias. -/
theorem run_resolves (run : Run exec NewSlot boot s) :
    s.shmBook.Resolves shmMax s.state.shm ∧ s.semBook.Resolves semsetMax s.state.sem := by
  obtain ⟨shm, sem⟩ := run_sequenced (run.mono fun _ _ _ => trivial)
  obtain ⟨shmSingle, semSingle⟩ := run_single run
  exact ⟨shmSingle.resolves shm (by decide), semSingle.resolves sem (by decide)⟩

end

/-- A segment is made and destroyed, and another one made. -/
def remade : List Op :=
  [.shmget ipcPrivate 4096 0 0x1000, .shmctl (idFromSlot 0 1) ipcRmid, .shmget ipcPrivate 4096 0 0x2000]

/-- Two segments exist at once, and a set. -/
theorem run_resolves_twoSegments :
    ∃ s, Run exec NewSlot boot s ∧ s.shmBook.issued.length = 2 ∧
      s.shmBook.Resolves shmMax s.state.shm ∧ s.semBook.Resolves semsetMax s.state.sem := by
  have first : Run exec NewSlot boot _ :=
    .call (.shmget ipcPrivate 4096 0 0x1000) .start ⟨fun _ _ => rfl, nofun⟩ rfl
  have next (slot : Nat) (made : (Op.shmget ipcPrivate 8192 0 0x2000).shmMakes
      ((Op.shmget ipcPrivate 4096 0 0x1000).after boot.state) = some slot) : slot = 1 :=
    Option.some.inj (made.symm.trans (by decide +kernel))
  have second : Run exec NewSlot boot _ :=
    .call (.shmget ipcPrivate 8192 0 0x2000) first ⟨fun slot made => next slot made ▸ rfl, nofun⟩ rfl
  exact ⟨_, second, rfl, run_resolves second⟩

/-- The identifier of a segment that was destroyed resolves to the next one. -/
theorem run_not_resolves :
    ¬ ∀ s, Run exec (fun _ _ => True) boot s →
      s.shmBook.Resolves shmMax s.state.shm ∧ s.semBook.Resolves semsetMax s.state.sem := by
  intro claim
  have found : (runList exec (fun _ _ => True) boot remade).any (fun s =>
      s.shmBook.issued.head?.any fun issued =>
        slotFromId shmMax s.state.shm issued.id == some 0 && issued.generation == 1 && s.shmBook.made 0 == 2) = true := by
    decide +kernel
  obtain ⟨s, run, seen⟩ := runList_any found
  obtain ⟨issued, head, seen⟩ := (Option.any_eq_true _ _).mp seen
  simp only [Bool.and_eq_true, beq_iff_eq] at seen
  obtain ⟨⟨resolved, generation⟩, made⟩ := seen
  have same := ((claim s run).1.stale issued (List.mem_of_head? head) 0 resolved).2
  rw [made, generation] at same
  exact absurd (same (by decide)) (by decide)

end Enlil.Sysv
