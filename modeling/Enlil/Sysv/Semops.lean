import Enlil.Sysv.Stale

/-! Operations on semaphore sets happen all together or not at all, and semaphores stay in their range. -/

namespace Enlil.Sysv

/-- One operation may be carried out at a value: it takes away no more than is there, adds no more than fits, or finds zero. -/
def Feasible (value : Int) (op : SemBuf) : Prop :=
  (op.semOp.toInt < 0 → 0 ≤ value + op.semOp.toInt) ∧ (0 < op.semOp.toInt → value + op.semOp.toInt ≤ semValueMax) ∧
    (op.semOp.toInt = 0 → value = 0)

/-- Operations carried out one after the other, each at the values that the ones before it leave. -/
inductive Performs (nsems : Nat) : (Nat → Int) → List SemBuf → (Nat → Int) → Prop where
  | nil (values : Nat → Int) : Performs nsems values [] values
  | cons {values final : Nat → Int} {op : SemBuf} {ops : List SemBuf} (inside : op.semNum.toNat < nsems)
      (feasible : Feasible (values op.semNum.toNat) op)
      (rest : Performs nsems
        (Function.update values op.semNum.toNat (values op.semNum.toNat + op.semOp.toInt)) ops final) :
      Performs nsems values (op :: ops) final

/-- A value that a semaphore may have. -/
def InRange (value : Int) : Prop := 0 ≤ value ∧ value ≤ semValueMax

section

variable {nsems : Nat} {values final : Nat → Int} {ops : List SemBuf}

theorem semCanApply_performs (applied : semCanApply nsems values ops = .ok (some final)) :
    Performs nsems values ops final := by
  induction ops generalizing values with
  | nil =>
    cases applied
    exact .nil _
  | cons op ops ih =>
    simp only [semCanApply] at applied
    split at applied
    · cases applied
    rename_i inside
    split at applied
    · -- Taking away must leave at least zero.
      split at applied
      · cases applied
      rename_i enough
      exact .cons (Nat.lt_of_not_le inside) ⟨fun _ => by omega, fun _ => by omega, fun _ => by omega⟩ (ih applied)
    split at applied
    · -- Waiting for zero changes nothing.
      rename_i zero
      split at applied
      · cases applied
      rename_i none
      have still : Function.update values op.semNum.toNat (values op.semNum.toNat + op.semOp.toInt) = values := by
        rw [zero, Int.add_zero, Function.update_eq_self]
      refine .cons (Nat.lt_of_not_le inside) ⟨fun _ => by omega, fun _ => by omega, fun _ => by simpa using none⟩ ?_
      rw [still]
      exact ih applied
    · -- Adding must not go above the maximum.
      split at applied
      · cases applied
      rename_i less zero most
      exact .cons (Nat.lt_of_not_le inside) ⟨fun _ => by omega, fun _ => by omega, fun _ => by omega⟩ (ih applied)

theorem Performs.semCanApply (performs : Performs nsems values ops final) :
    Sysv.semCanApply nsems values ops = .ok (some final) := by
  induction performs with
  | nil => rfl
  | cons inside feasible _ ih =>
    rename_i values final op ops _
    obtain ⟨less, more, zero⟩ := feasible
    rw [Sysv.semCanApply]
    rw [if_neg (Nat.not_le.mpr inside)]
    split
    · rename_i negative
      rw [if_neg (not_lt.mpr (less negative))]
      exact ih
    split
    · rename_i still
      have same : Function.update values op.semNum.toNat (values op.semNum.toNat + op.semOp.toInt) = values := by
        rw [still, Int.add_zero, Function.update_eq_self]
      rw [if_neg (not_not.mpr (zero still)), ← ih, same]
    · rename_i taken none
      rw [if_neg (not_lt.mpr (more (by omega)))]
      exact ih

theorem Performs.inRange (performs : Performs nsems values ops final) (before : ∀ num, InRange (values num)) :
    ∀ num, InRange (final num) := by
  induction performs with
  | nil => exact before
  | cons _ feasible _ ih =>
    rename_i values op ops _ _
    refine ih fun num => ?_
    by_cases here : num = op.semNum.toNat
    · obtain ⟨low, high⟩ := before op.semNum.toNat
      obtain ⟨less, more, _⟩ := feasible
      rw [here, Function.update_self]
      unfold InRange
      omega
    · rw [Function.update_of_ne here]
      exact before num

end

/-- The operations were carried out on the set in a slot, and nothing happened to the others. -/
structure Applied (s : State) (slot : Nat) (ops : List SemBuf) (s' : State) : Prop where
  performs : Performs (s.sem slot).body.nsems (s.sem slot).body.values ops (s'.sem slot).body.values
  live : (s.sem slot).inUse = true ∧ (s'.sem slot).inUse = true
  others : ∀ other, other ≠ slot → s'.sem other = s.sem other

/-- No set has other values than before, and a set is gone only if it had been removed. -/
structure Untouched (s s' : State) : Prop where
  kept : ∀ slot, (s'.sem slot).inUse = true → (s.sem slot).inUse = true ∧
    (s'.sem slot).markedDelete = (s.sem slot).markedDelete ∧ (s'.sem slot).body.values = (s.sem slot).body.values
  gone : ∀ slot, (s.sem slot).inUse = true → (s'.sem slot).inUse = true ∨ (s.sem slot).markedDelete = true

/-- A round or a call on a set carries out all operations and reports success, or leaves every value as it was. -/
def AllOrNothing (s : State) (slot : Nat) (ops : List SemBuf) (result : State × Option (Except Errno Unit)) : Prop :=
  match result.2 with
  | some (.ok _) => Applied s slot ops result.1
  | _ => Untouched s result.1

section

variable {s s' later : State} {slot : Nat}

theorem Untouched.of_eq (same : s'.sem = s.sem) : Untouched s s' where
  kept slot used := by
    rw [same] at used ⊢
    exact ⟨used, rfl, rfl⟩
  gone slot used := by
    rw [same]
    exact .inl used

theorem Untouched.trans (first : Untouched s s') (second : Untouched s' later) : Untouched s later where
  kept slot used := by
    obtain ⟨used', marked', values'⟩ := second.kept slot used
    obtain ⟨used, marked, values⟩ := first.kept slot used'
    exact ⟨used, marked'.trans marked, values'.trans values⟩
  gone slot used := by
    rcases first.gone slot used with used' | marked
    · rcases second.gone slot used' with used'' | marked'
      · exact .inl used''
      · exact .inr ((first.kept slot used').2.1 ▸ marked')
    · exact .inr marked

theorem setSem_untouched (s : State) (slot : Nat) {f : SemSet → SemSet} (same : ∀ set, (f set).values = set.values) :
    Untouched s (setSem s slot f) where
  kept other used := by
    by_cases here : other = slot
    · subst here
      simp only [setSem, Function.update_self] at used ⊢
      exact ⟨used, trivial, same _⟩
    · simp only [setSem, Function.update_of_ne here] at used ⊢
      exact ⟨used, trivial, trivial⟩
  gone other used := by
    by_cases here : other = slot
    · subst here
      simp only [setSem, Function.update_self]
      exact .inl used
    · simp only [setSem, Function.update_of_ne here]
      exact .inl used

theorem tryFreeSemSlot_untouched (s : State) (slot : Nat) : Untouched s (tryFreeSemSlot s slot) := by
  unfold tryFreeSemSlot tryFree
  split
  · exact .of_eq rfl
  split
  · exact .of_eq rfl
  rename_i removed
  simp only [Bool.or_eq_true, Bool.not_eq_true', not_or, Bool.not_eq_false] at removed
  constructor
  · intro other used
    by_cases here : other = slot
    · subst here
      simp only [Function.update_self, vacant] at used
      cases used
    · simp only [Function.update_of_ne here] at used ⊢
      exact ⟨used, trivial, trivial⟩
  · intro other used
    by_cases here : other = slot
    · subst here
      exact .inr removed.1.2
    · simp only [Function.update_of_ne here]
      exact .inl used

theorem left_values (waiting : Bool) (set : SemSet) : (set.left waiting).values = set.values := by
  unfold SemSet.left
  split <;> rfl

theorem semGiveUp_untouched (s : State) (slot : Nat) : Untouched s (semGiveUp s slot) := by
  unfold semGiveUp
  split
  · exact (setSem_untouched s slot (left_values true)).trans (tryFreeSemSlot_untouched _ _)
  · exact tryFreeSemSlot_untouched s slot

theorem semopRound_allOrNothing (s : State) (wait : SemWait) (waiting : Bool) (nowMs : Nat) (interrupted : Bool) :
    AllOrNothing s wait.slot wait.ops (semopRound s wait waiting nowMs interrupted) := by
  unfold semopRound
  dsimp only
  split
  · -- The set was removed.
    split
    · exact (setSem_untouched s wait.slot (left_values true)).trans (tryFreeSemSlot_untouched _ _)
    · exact .of_eq rfl
  rename_i live
  simp only [Bool.or_eq_true, Bool.not_eq_true', not_or, Bool.not_eq_false] at live
  split
  · -- All operations could be carried out.
    rename_i applied
    refine ⟨?_, ⟨live.1, ?_⟩, fun other apart => ?_⟩
    · simp only [setSem, Function.update_self]
      exact semCanApply_performs applied
    · simp only [setSem, Function.update_self]
      exact live.1
    · simp only [setSem, Function.update_of_ne apart]
  · exact setSem_untouched s wait.slot (left_values waiting)
  split
  · exact setSem_untouched s wait.slot (left_values waiting)
  -- The task waits, and gives up at once if it is interrupted or its time is over.
  have waits : Untouched s (if waiting then s else setSem s wait.slot fun set =>
      { set with waiterCount := set.waiterCount + 1 }) := by
    split
    · exact .of_eq rfl
    · exact setSem_untouched s wait.slot fun _ => rfl
  split
  · exact waits.trans (semGiveUp_untouched _ _)
  split
  · exact waits.trans (semGiveUp_untouched _ _)
  · exact waits

theorem semopRound_succeeds_iff (s : State) (wait : SemWait) (waiting : Bool) (nowMs : Nat) (interrupted : Bool) :
    (semopRound s wait waiting nowMs interrupted).2 = some (.ok ()) ↔ (s.sem wait.slot).inUse = true ∧
      (s.sem wait.slot).markedDelete = false ∧
      ∃ final, Performs (s.sem wait.slot).body.nsems (s.sem wait.slot).body.values wait.ops final := by
  constructor
  · intro succeeds
    unfold semopRound at succeeds
    dsimp only at succeeds
    split at succeeds
    · split at succeeds <;> cases succeeds
    rename_i live
    simp only [Bool.or_eq_true, Bool.not_eq_true', not_or, Bool.not_eq_false, Bool.not_eq_true] at live
    split at succeeds
    · rename_i final applied
      exact ⟨live.1, live.2, final, semCanApply_performs applied⟩
    · cases succeeds
    split at succeeds
    · cases succeeds
    split at succeeds
    · cases succeeds
    split at succeeds <;> cases succeeds
  · rintro ⟨used, kept, final, performs⟩
    unfold semopRound
    simp only [used, kept, Bool.not_true, Bool.or_self, Bool.false_eq_true, if_false, performs.semCanApply]

theorem semopAfter_allOrNothing {wait : SemWait} {round : State × Option (Except Errno Unit)} (task : Nat)
    (holds : AllOrNothing s wait.slot wait.ops round) : AllOrNothing s wait.slot wait.ops (semopAfter task wait round) := by
  obtain ⟨after, outcome⟩ := round
  unfold AllOrNothing semopAfter at *
  dsimp only at holds ⊢
  split at holds
  · exact ⟨holds.performs, holds.live, holds.others⟩
  · exact holds.trans (.of_eq rfl)

end

/-- The set that a call is for; the call fails where there is none. -/
def semopSlot (s : State) (semid : Int32) : Nat := (semSlotFromId s semid).getD semsetMax

section

variable {s : State}

theorem semop_allOrNothing (s : State) (task : Nat) (semid : Int32) (ops : List SemBuf) (timeoutMs : Option Nat) (nowMs : Nat)
    (interrupted : Bool) :
    AllOrNothing s (semopSlot s semid) ops (sysvSemopCurrent s task semid ops timeoutMs nowMs interrupted) := by
  unfold sysvSemopCurrent semopSlot
  split
  · exact .of_eq rfl
  split
  · exact .of_eq rfl
  · rename_i slot found
    rw [found]
    exact semopAfter_allOrNothing task (semopRound_allOrNothing s ⟨slot, ops, _⟩ false nowMs interrupted)

theorem semop_succeeds_iff (s : State) (task : Nat) (semid : Int32) (ops : List SemBuf) (timeoutMs : Option Nat) (nowMs : Nat)
    (interrupted : Bool) :
    (sysvSemopCurrent s task semid ops timeoutMs nowMs interrupted).2 = some (.ok ()) ↔
      (0 < ops.length ∧ ops.length ≤ semPerSetMax) ∧
      ∃ slot, semSlotFromId s semid = some slot ∧ (s.sem slot).markedDelete = false ∧
        ∃ final, Performs (s.sem slot).body.nsems (s.sem slot).body.values ops final := by
  constructor
  · intro succeeds
    unfold sysvSemopCurrent at succeeds
    split at succeeds
    · cases succeeds
    rename_i size
    split at succeeds
    · cases succeeds
    rename_i slot found
    obtain ⟨_, kept, performs⟩ := (semopRound_succeeds_iff s ⟨slot, ops, _⟩ false nowMs interrupted).mp succeeds
    exact ⟨by omega, slot, found, kept, performs⟩
  · rintro ⟨size, slot, found, kept, performs⟩
    have used : (s.sem slot).inUse = true := by
      obtain ⟨_, _, _, used, _⟩ := slotFromId_some_iff.mp found
      exact used
    unfold sysvSemopCurrent
    rw [if_neg (by omega), found]
    exact (semopRound_succeeds_iff s ⟨slot, ops, _⟩ false nowMs interrupted).mpr ⟨used, kept, performs⟩

/-- All values of all sets are in their range. -/
def Bounded (s : State) : Prop := ∀ slot num, (s.sem slot).inUse = true → InRange ((s.sem slot).body.values num)

theorem Bounded.untouched {s' : State} (bounded : Bounded s) (untouched : Untouched s s') : Bounded s' := by
  intro slot num used
  obtain ⟨used, _, values⟩ := untouched.kept slot used
  rw [values]
  exact bounded slot num used

theorem Bounded.allOrNothing {slot : Nat} {ops : List SemBuf} {result : State × Option (Except Errno Unit)}
    (bounded : Bounded s) (holds : AllOrNothing s slot ops result) : Bounded result.1 := by
  unfold AllOrNothing at holds
  split at holds
  · intro other num used
    by_cases here : other = slot
    · subst here
      exact holds.performs.inRange (fun num => bounded other num holds.live.1) num
    · rw [holds.others other here] at used ⊢
      exact bounded other num used
  · exact bounded.untouched holds

theorem Bounded.semget (bounded : Bounded s) (key nsems flags : UInt32) : Bounded (sysvSemget s key nsems flags).1 := by
  unfold sysvSemget
  split
  · exact bounded
  rename_i sem slot got
  rw [semgetSlot, getSlot] at got
  split at got
  · cases got
  · cases got
    exact bounded
  · simp only [create] at got
    split at got
    · cases got
    split at got
    · cases got
    · cases got
      intro other num used
      dsimp only at used ⊢
      by_cases here : other = slot
      · subst here
        rw [Function.update_self]
        exact ⟨le_rfl, Int.natCast_nonneg _⟩
      · rw [Function.update_of_ne here] at used ⊢
        exact bounded other num used

theorem Bounded.semctl (bounded : Bounded s) (semid : Int32) (semnum : UInt32) (cmd : Int) (arg : UInt64) :
    Bounded (sysvSemctl s semid semnum cmd arg).1 := by
  unfold sysvSemctl
  split
  · exact bounded
  rename_i slot _
  dsimp only
  split
  · -- A set that is marked keeps its values as long as it is there.
    refine Bounded.untouched (fun other num used => ?_) (tryFreeSemSlot_untouched _ _)
    by_cases here : other = slot
    · subst here
      simp only [Function.update_self] at used ⊢
      exact bounded other num used
    · simp only [Function.update_of_ne here] at used ⊢
      exact bounded other num used
  split
  · split <;> exact bounded
  split
  · split
    · exact bounded
    rename_i inside
    push Not at inside
    intro other num used
    by_cases here : other = slot
    · subst here
      simp only [setSem, Function.update_self] at used ⊢
      by_cases same : num = semnum.toNat
      · rw [same, Function.update_self]
        exact ⟨Int.natCast_nonneg _, inside.2⟩
      · rw [Function.update_of_ne same]
        exact bounded other num used
    · simp only [setSem, Function.update_of_ne here] at used ⊢
      exact bounded other num used
  · exact bounded

theorem shmat_sem (caller : Caller) (shmid : Int32) (addr : UInt64) (flags : UInt32) (mapped : Option UInt64) :
    (sysvShmatCurrent s caller shmid addr flags mapped).1.sem = s.sem := by
  have recorded : ∀ (record : ShmAttach) (s' : State), allocAttachRecord s record = some s' → s'.sem = s.sem := by
    intro record s' got
    obtain ⟨i, _, same⟩ := Option.map_eq_some_iff.mp got
    rw [← same]
  have dropped : ∀ (s : State) (test : ShmAttach → Bool), (dropAttach s test).sem = s.sem := by
    intro s test
    unfold dropAttach
    split <;> rfl
  unfold sysvShmatCurrent
  refine iteInduction (motive := fun r : State × Except Errno UInt64 => r.1.sem = s.sem) (fun _ => rfl) fun _ => ?_
  refine iteInduction (motive := fun r : State × Except Errno UInt64 => r.1.sem = s.sem) (fun _ => rfl) fun _ => ?_
  split
  · rfl
  refine iteInduction (motive := fun r : State × Except Errno UInt64 => r.1.sem = s.sem) (fun _ => rfl) fun _ => ?_
  refine iteInduction (motive := fun r : State × Except Errno UInt64 => r.1.sem = s.sem) (fun _ => rfl) fun _ => ?_
  refine iteInduction (motive := fun r : State × Except Errno UInt64 => r.1.sem = s.sem) (fun _ => ?_) fun _ => ?_
  · dsimp only
    generalize (if flags &&& shmRnd ≠ 0 then addr &&& pageMask else addr) = place
    split
    · rfl
    split
    · rfl
    rename_i after got
    split
    · exact (dropped _ _).trans (recorded _ after got)
    · exact recorded _ after got
  · split
    · rfl
    split
    · rfl
    rename_i after got
    exact recorded _ after got

theorem detachOne_sem (s : State) (slot : Nat) : (detachOne s slot).sem = s.sem := by
  unfold detachOne
  split <;> rfl

theorem shmdt_sem (caller : Caller) (addr : UInt64) : (sysvShmdtCurrent s caller addr).1.sem = s.sem := by
  unfold sysvShmdtCurrent
  split
  · rfl
  split
  · rfl
  split
  · rfl
  split
  · rfl
  · exact detachOne_sem _ _

theorem shmctl_sem (shmid : Int32) (cmd : Int) : (sysvShmctl s shmid cmd).1.sem = s.sem := by
  unfold sysvShmctl
  split
  · rfl
  split <;> rfl

theorem foldl_sem {β : Type} {f : State → β → State} (step : ∀ (s : State) item, (f s item).sem = s.sem) (items : List β) :
    ∀ s : State, (items.foldl f s).sem = s.sem := by
  induction items with
  | nil => exact fun _ => rfl
  | cons item items ih => exact fun s => (ih _).trans (step s item)

theorem cleanAttach_sem (procSlot : Nat) (s : State) (i : Nat) : (cleanAttach procSlot s i).sem = s.sem := by
  unfold cleanAttach
  split
  · rfl
  split
  · rfl
  · exact detachOne_sem _ _

theorem procCleanup_sem (procSlot : Nat) : (sysvIpcProcCleanup s procSlot).sem = s.sem := by
  unfold sysvIpcProcCleanup
  rw [foldl_sem (f := tryFreeShmSlot) fun _ _ => rfl, foldl_sem (cleanAttach_sem procSlot)]

theorem Bounded.after (bounded : Bounded s) (op : Op) : Bounded (op.after s) := by
  have same : ∀ {s' : State}, s'.sem = s.sem → Bounded s' := fun same => bounded.untouched (.of_eq same)
  cases op with
  | shmget key size flags pa =>
    refine same ?_
    rw [Op.after, sysvShmget]
    split <;> rfl
  | shmat caller shmid addr flags mapped => exact same (shmat_sem caller shmid addr flags mapped)
  | shmdt caller addr => exact same (shmdt_sem caller addr)
  | shmctl shmid cmd => exact same (shmctl_sem shmid cmd)
  | semget key nsems flags => exact bounded.semget key nsems flags
  | semop task semid ops timeoutMs nowMs interrupted =>
    exact bounded.allOrNothing (semop_allOrNothing s task semid ops timeoutMs nowMs interrupted)
  | semopWoken task nowMs interrupted =>
    rw [Op.after]
    split
    · exact bounded
    · rename_i wait _
      exact bounded.allOrNothing (semopAfter_allOrNothing task (semopRound_allOrNothing s wait true nowMs interrupted))
  | semctl semid semnum cmd arg => exact bounded.semctl semid semnum cmd arg
  | exit procSlot => exact same (procCleanup_sem procSlot)
  | kill task => exact same rfl

theorem run_bounded {session : Session} (run : Run exec (fun _ _ => True) boot session) : Bounded session.state := by
  refine @Run.invariant Session _ _ _ _ (fun session => Bounded session.state) _ ?_ ?_ _ run
  · exact fun _ _ used => nomatch used
  · intro session after op bounded _ returned
    cases returned
    exact bounded.after op

/--
Operations on a set happen all together or not at all.

A call succeeds exactly if its operations can be carried out one after the other on the set it names; then the set has the values that they leave, and otherwise every value is as it was.
The same holds of every later round of a task that waits in a call, from whatever values it finds then.
In every run of the calls the values stay in their range.
-/
theorem semop_atomic :
    (∀ s task semid ops timeoutMs nowMs interrupted,
      AllOrNothing s (semopSlot s semid) ops (sysvSemopCurrent s task semid ops timeoutMs nowMs interrupted) ∧
      ((sysvSemopCurrent s task semid ops timeoutMs nowMs interrupted).2 = some (.ok ()) ↔
        (0 < ops.length ∧ ops.length ≤ semPerSetMax) ∧
        ∃ slot, semSlotFromId s semid = some slot ∧ (s.sem slot).markedDelete = false ∧
          ∃ final, Performs (s.sem slot).body.nsems (s.sem slot).body.values ops final)) ∧
    (∀ s task wait nowMs interrupted,
      AllOrNothing s wait.slot wait.ops (semopAfter task wait (semopRound s wait true nowMs interrupted)) ∧
      ((semopAfter task wait (semopRound s wait true nowMs interrupted)).2 = some (.ok ()) ↔
        (s.sem wait.slot).inUse = true ∧ (s.sem wait.slot).markedDelete = false ∧
        ∃ final, Performs (s.sem wait.slot).body.nsems (s.sem wait.slot).body.values wait.ops final)) ∧
    ∀ session, Run exec (fun _ _ => True) boot session → Bounded session.state := by
  refine ⟨fun s task semid ops timeoutMs nowMs interrupted => ⟨?_, ?_⟩, fun s task wait nowMs interrupted => ⟨?_, ?_⟩,
    fun _ run => run_bounded run⟩
  · exact semop_allOrNothing s task semid ops timeoutMs nowMs interrupted
  · exact semop_succeeds_iff s task semid ops timeoutMs nowMs interrupted
  · exact semopAfter_allOrNothing task (semopRound_allOrNothing s wait true nowMs interrupted)
  · exact semopRound_succeeds_iff s wait true nowMs interrupted

end

end Enlil.Sysv
