import Enlil.Flock.Locks
import Enlil.Lib.Reach
import Enlil.Lib.Run

/-! The search for deadlocks finds exactly the cycles of tasks that wait for each other. -/

namespace Enlil.Flock

open Fd (schedMaxTasks maxFd)

/-- The locks, and for each task that waits the entry and the waiter of its loop. -/
structure Session where
  locks : Locks
  waits : Nat → Option (Nat × Nat)

inductive Op where
  | flock (tasks : Tasks) (task o : Nat) (obj : LockObject) (mode : LockMode) (nonblock : Bool)
  | turn (task : Nat) (pending : Bool)
  /-- The last descriptor of an open file is closed. -/
  | release (o : Nat)
  /-- A task ends where it waits. -/
  | kill (task : Nat)

/-- A call, or a turn of one, leaves its task waiting or not. -/
def Session.settle (s : Session) (task : Nat) (out : Locks × Outcome) : Session where
  locks := out.1
  waits := Function.update s.waits task <|
    match out.2 with
    | .returned _ => none
    | .waits e w => some (e, w)

/-- What each step does; a task that waits makes no other call. -/
def exec (s : Session) : Op → Except Empty Session
  | .flock tasks task o obj mode nonblock =>
    match s.waits task with
    | some _ => .ok s
    | none => .ok (s.settle task (sysFlock s.locks tasks task o obj mode nonblock))
  | .turn task pending =>
    match s.waits task with
    | none => .ok s
    | some (e, w) => .ok (s.settle task (flockTurn s.locks e w pending))
  | .release o => .ok { s with locks := flockReleaseObject s.locks o }
  | .kill task => .ok { s with waits := Function.update s.waits task none }

def boot : Session := ⟨⟨fun _ => .zero, fun _ => .zero⟩, fun _ => none⟩

/-- A live task has a descriptor for an open file that holds an entry. -/
def Owns (l : Locks) (tasks : Tasks) (e owner : Nat) : Prop :=
  owner < tasks.count ∧ tasks.zombie owner = false ∧
    ∃ o ∈ (l.flockTable e).holders, flockTaskRefsObject tasks owner o = true

/-- A task is queued for an entry that another one owns. -/
def WaitsFor (l : Locks) (tasks : Tasks) (task owner : Nat) : Prop :=
  ∃ w < flockMaxWaiters, (l.flockWaiters w).inUse = true ∧ (l.flockWaiters w).active = true ∧
    (l.flockWaiters w).task = task ∧ Owns l tasks (l.flockWaiters w).entry owner

/-- A wait of a task for an entry closes a cycle of tasks, each of which waits for the next. -/
def ClosesCycle (l : Locks) (tasks : Tasks) (current e : Nat) : Prop :=
  ∃ owner, Owns l tasks e owner ∧
    Relation.ReflTransGen (fun task next => WaitsFor l tasks task next ∨ (task = current ∧ Owns l tasks e next)) owner current

/-- No task has two waiters, and all waiters are among those that are looked at. -/
structure OneWaiter (l : Locks) : Prop where
  one : ∀ w w', (l.flockWaiters w).inUse = true → (l.flockWaiters w').inUse = true →
    (l.flockWaiters w).task = (l.flockWaiters w').task → w = w'
  bound : ∀ w, (l.flockWaiters w).inUse = true → w < flockMaxWaiters

/-- Waiters are made for no task. -/
def MakesNone (l l' : Locks) : Prop :=
  ∀ w, (l'.flockWaiters w).inUse = true → (l.flockWaiters w).inUse = true ∧ (l'.flockWaiters w).task = (l.flockWaiters w).task

section

variable {l l' later : Locks} {e w : Nat}

theorem OneWaiter.of_makesNone (one : OneWaiter l) (none : MakesNone l l') : OneWaiter l' where
  one w w' used used' same := by
    obtain ⟨before, task⟩ := none w used
    obtain ⟨before', task'⟩ := none w' used'
    exact one.one w w' before before' (task.symm.trans (same.trans task'))
  bound w used := one.bound w (none w used).1

theorem MakesNone.refl (l : Locks) : MakesNone l l := fun _ used => ⟨used, rfl⟩

theorem MakesNone.trans (first : MakesNone l l') (second : MakesNone l' later) : MakesNone l later := by
  intro w used
  obtain ⟨used', task'⟩ := second w used
  obtain ⟨before, task⟩ := first w used'
  exact ⟨before, task'.trans task⟩

theorem MakesNone.setEntry (none : MakesNone l l') {entry : FlockEntry} : MakesNone l (l'.setEntry e entry) := none

theorem setWaiter_waiters (l : Locks) (w : Nat) (waiter : FlockWaiter) (other : Nat) :
    (l.setWaiter w waiter).flockWaiters other = if other = w then waiter else l.flockWaiters other := by
  unfold Locks.setWaiter
  by_cases here : other = w
  · rw [if_pos here, here]
    exact Function.update_self ..
  · rw [if_neg here]
    exact Function.update_of_ne here ..

theorem MakesNone.setWaiter (none : MakesNone l l') {waiter : FlockWaiter}
    (kept : waiter.inUse = true → (l'.flockWaiters w).inUse = true ∧ waiter.task = (l'.flockWaiters w).task) :
    MakesNone l (l'.setWaiter w waiter) := by
  refine none.trans fun other used => ?_
  rw [setWaiter_waiters] at used ⊢
  split at used
  · rename_i here
    rw [if_pos here, here]
    exact kept used
  · rename_i apart
    rw [if_neg apart]
    exact ⟨used, rfl⟩

theorem reset_makesNone (l : Locks) (w : Nat) : MakesNone l (flockWaiterReset l w) := .setWaiter (.refl l) nofun

theorem push_makesNone (l : Locks) (e w : Nat) : MakesNone l (flockWaitqPushTail l e w) := by
  have ended : MakesNone l (l.setWaiter w { l.flockWaiters w with next := none }) := .setWaiter (.refl l) fun used => ⟨used, rfl⟩
  unfold flockWaitqPushTail
  dsimp only
  split
  · refine .setEntry (.setWaiter ended ?_)
    exact fun used => ⟨used, rfl⟩
  · exact .setEntry ended

theorem unlink_makesNone (l : Locks) (e : Nat) (prev : Option Nat) (cur : Nat) : MakesNone l (unlinkWaiter l e prev cur) := by
  unfold unlinkWaiter
  refine .setWaiter (.setEntry ?_) fun used => ⟨used, rfl⟩
  split
  · exact .setWaiter (.refl l) fun used => ⟨used, rfl⟩
  · exact .setEntry (.refl l)

theorem removeLoop_makesNone (e w turns : Nat) (l : Locks) (prev place : Option Nat) :
    MakesNone l (removeLoop e w turns l prev place) := by
  induction turns generalizing prev place with
  | zero => exact .refl l
  | succ turns ih =>
    cases place with
    | none => exact .refl l
    | some cur =>
      rw [removeLoop]
      split
      · exact unlink_makesNone _ _ _ _
      · exact ih _ _

theorem popHead_makesNone (l : Locks) (e w : Nat) : MakesNone l (flockWaitqPopHead l e w) :=
  .setWaiter (.setEntry (.refl l)) fun used => ⟨used, rfl⟩

theorem clearLoop_makesNone (e turns : Nat) (l : Locks) : MakesNone l (clearLoop e turns l) := by
  induction turns generalizing l with
  | zero => exact .refl l
  | succ turns ih =>
    rw [clearLoop]
    split
    · exact .refl l
    · exact (popHead_makesNone _ _ _).trans ((reset_makesNone _ _).trans (ih _))

theorem clear_makesNone (l : Locks) (e : Nat) : MakesNone l (flockEntryClear l e) :=
  .setEntry (clearLoop_makesNone e flockMaxWaiters l)

theorem grant_makesNone (l : Locks) (e w : Nat) (holders : List Nat) : MakesNone l (grant l e w holders) :=
  .setWaiter (.setEntry (popHead_makesNone l e w)) fun used => ⟨used, rfl⟩

theorem wakeLoop_makesNone (e turns : Nat) (l : Locks) : MakesNone l (wakeLoop e turns l) := by
  induction turns generalizing l with
  | zero => exact .refl l
  | succ turns ih =>
    rw [wakeLoop]
    split
    · exact .refl l
    split
    · exact grant_makesNone _ _ _ _
    split
    · exact .refl l
    dsimp only
    split
    · exact grant_makesNone _ _ _ _
    · exact (grant_makesNone _ _ _ _).trans (ih _)

theorem giveUp_makesNone (l : Locks) (e idx : Nat) : MakesNone l (flockGiveUp l e idx) := by
  have woken : MakesNone l (flockWakeWaiters (l.setEntry e (flockDropHolder (l.flockTable e) idx)) e) := by
    have dropped : MakesNone l (l.setEntry e (flockDropHolder (l.flockTable e) idx)) := .setEntry (.refl l)
    unfold flockWakeWaiters
    split
    · exact dropped
    · exact dropped.trans (wakeLoop_makesNone _ _ _)
  unfold flockGiveUp
  dsimp only
  split
  · exact woken.trans (clear_makesNone _ _)
  · exact woken

theorem releaseEntry_makesNone (o : Nat) (l : Locks) (e : Nat) : MakesNone l (flockReleaseEntry o l e) := by
  unfold flockReleaseEntry
  split
  · exact .refl l
  split
  · exact .refl l
  · exact giveUp_makesNone _ _ _

theorem releaseObject_makesNone (l : Locks) (o : Nat) : MakesNone l (flockReleaseObject l o) := by
  unfold flockReleaseObject
  generalize List.range flockMaxLocks = entries
  induction entries generalizing l with
  | nil => exact .refl l
  | cons e entries ih => exact (releaseEntry_makesNone o l e).trans (ih _)

theorem unlock_makesNone (l : Locks) (obj : LockObject) (o : Nat) : MakesNone l (flockUnlockObject l obj o) := by
  unfold flockUnlockObject
  split
  · exact .refl l
  · exact releaseEntry_makesNone _ _ _

theorem tryLock_makesNone (l : Locks) (obj : LockObject) (o : Nat) (exclusive : Bool) :
    MakesNone l (flockTryLockObject l obj o exclusive).1 := by
  -- Whatever it comes to, the try changes at most one entry.
  have entry : ∀ e, MakesNone l (flockTryLockEntry l e o exclusive).1 := by
    intro e
    unfold flockTryLockEntry
    dsimp only
    repeat' split
    all_goals exact MakesNone.refl l
  unfold flockTryLockObject
  split
  · exact .refl l
  split
  · exact entry _
  split
  · exact .refl l
  · rename_i e made alloc
    have fresh : MakesNone l made := by
      unfold flockAllocEntry at alloc
      split at alloc
      · cases alloc
      · obtain ⟨_, _, same⟩ := Option.map_eq_some_iff.mp alloc
        cases same
        exact .setEntry (.refl l)
    exact fresh.setEntry

theorem flockWaiterFindTask_eq_some_iff (one : OneWaiter l) {task : Nat} :
    flockWaiterFindTask l task = some w ↔ (l.flockWaiters w).inUse = true ∧ (l.flockWaiters w).task = task := by
  constructor
  · intro found
    simpa using List.find?_some found
  · rintro ⟨used, rfl⟩
    cases found : flockWaiterFindTask l (l.flockWaiters w).task with
    | none =>
      have missed := List.find?_eq_none.mp found w (List.mem_range.mpr (one.bound w used))
      simp [used] at missed
    | some other =>
      have kept : (l.flockWaiters other).inUse = true ∧ (l.flockWaiters other).task = (l.flockWaiters w).task := by
        simpa using List.find?_some found
      rw [one.one other w kept.1 used kept.2]

theorem OneWaiter.alloc {task o : Nat} {exclusive : Bool} (one : OneWaiter l)
    (made : flockWaiterAlloc l task o e exclusive = some (w, l')) : OneWaiter l' := by
  unfold flockWaiterAlloc at made
  split at made
  · split at made <;> cases made
    exact one
  rename_i missing
  split at made
  · cases made
  rename_i free
  cases made
  have fresh : ∀ other, (l.flockWaiters other).inUse = true → (l.flockWaiters other).task ≠ task := by
    intro other used same
    rw [(flockWaiterFindTask_eq_some_iff one).mpr ⟨used, same⟩] at missing
    cases missing
  constructor
  · intro first second used used' same
    rw [setWaiter_waiters] at used used'
    rw [setWaiter_waiters, setWaiter_waiters] at same
    by_cases here : first = w <;> by_cases here' : second = w
    · rw [here, here']
    · rw [if_pos here, if_neg here'] at same
      rw [if_neg here'] at used'
      exact absurd same.symm (fresh second used')
    · rw [if_neg here, if_pos here'] at same
      rw [if_neg here] at used
      exact absurd same (fresh first used)
    · rw [if_neg here, if_neg here'] at same
      rw [if_neg here] at used
      rw [if_neg here'] at used'
      exact one.one first second used used' same
  · intro other used
    rw [setWaiter_waiters] at used
    split at used
    · rename_i here
      rw [here]
      exact List.mem_range.mp (List.mem_of_find?_eq_some free)
    · exact one.bound other used

theorem OneWaiter.after_try {task o e : Nat} {exclusive : Bool} (one : OneWaiter l) :
    OneWaiter (match flockWaiterAlloc l task o e exclusive with
      | none => (l, Outcome.returned (.error .ebusy))
      | some (w, l) => (flockWaitqPushTail l e w, .waits e w)).1 := by
  split
  · exact one
  · rename_i w made alloc
    exact (one.alloc alloc).of_makesNone (push_makesNone _ _ _)

theorem OneWaiter.sysFlock {tasks : Tasks} {task o : Nat} {obj : LockObject} {mode : LockMode} {nonblock : Bool}
    (one : OneWaiter l) : OneWaiter (sysFlock l tasks task o obj mode nonblock).1 := by
  have tried : ∀ exclusive, OneWaiter (flockTryLockObject l obj o exclusive).1 := fun exclusive =>
    one.of_makesNone (tryLock_makesNone l obj o exclusive)
  unfold Flock.sysFlock
  split
  · exact one
  split
  · exact one.of_makesNone (unlock_makesNone _ _ _)
  · exact one
  specialize tried (mode = .ex)
  split
  · rename_i after _ out
    rw [out] at tried
    exact tried
  rename_i after error out
  rw [out] at tried
  split
  · exact tried
  split
  · exact tried
  split
  · exact tried
  split
  · exact tried
  dsimp only
  refine OneWaiter.after_try ?_
  split
  · split
    · exact tried.of_makesNone (.setEntry (.refl _))
    · exact tried
  · exact tried

theorem OneWaiter.turn {pending : Bool} (one : OneWaiter l) : OneWaiter (flockTurn l e w pending).1 := by
  unfold flockTurn
  split
  · exact one.of_makesNone (reset_makesNone _ _)
  · exact one.of_makesNone (reset_makesNone _ _)
  split
  · refine one.of_makesNone (MakesNone.trans ?_ (reset_makesNone _ _))
    split
    · exact removeLoop_makesNone _ _ _ _ _ _
    · exact .refl l
  · exact one

theorem run_oneWaiter {s : Session} (run : Run exec (fun _ _ => True) boot s) : OneWaiter s.locks := by
  have start : OneWaiter boot.locks := ⟨fun _ _ used => absurd used Bool.false_ne_true, fun _ used => absurd used Bool.false_ne_true⟩
  refine @Run.invariant Session _ _ _ _ (fun s : Session => OneWaiter s.locks) _ start ?_ _ run
  intro s s' op one _ returned
  cases op with
  | flock tasks task o obj mode nonblock =>
    rw [exec] at returned
    split at returned <;> cases returned
    · exact one
    · exact one.sysFlock
  | turn task pending =>
    rw [exec] at returned
    split at returned <;> cases returned
    · exact one
    · exact one.turn
  | release o =>
    cases returned
    exact one.of_makesNone (releaseObject_makesNone _ _)
  | kill task =>
    cases returned
    exact one

theorem someOwner_iff {tasks : Tasks} {test : Nat → Bool} :
    someOwner tasks (l.flockTable e).holders test = true ↔ ∃ owner, Owns l tasks e owner ∧ test owner = true := by
  simp only [someOwner, List.any_eq_true, List.mem_range, Bool.and_eq_true, Bool.not_eq_true']
  constructor
  · rintro ⟨o, member, owner, inside, ⟨live, refs⟩, accepted⟩
    exact ⟨owner, ⟨inside, live, o, member, refs⟩, accepted⟩
  · rintro ⟨owner, ⟨inside, live, o, member, refs⟩, accepted⟩
    exact ⟨o, member, owner, inside, ⟨live, refs⟩, accepted⟩

theorem reaches_iff (one : OneWaiter l) {tasks : Tasks} {target : Nat} (levels task : Nat) :
    flockDeadlockReachesTask l tasks target levels task = true ↔ Within (WaitsFor l tasks) levels task target := by
  induction levels generalizing task with
  | zero =>
    rw [flockDeadlockReachesTask, beq_iff_eq]
    exact eq_comm
  | succ levels ih =>
    rw [flockDeadlockReachesTask, Bool.or_eq_true, beq_iff_eq]
    refine or_congr eq_comm ?_
    constructor
    · intro found
      split at found
      · cases found
      rename_i w waiter
      rw [Bool.and_eq_true, someOwner_iff] at found
      obtain ⟨active, owner, owns, reached⟩ := found
      obtain ⟨used, same⟩ := (flockWaiterFindTask_eq_some_iff one).mp waiter
      exact ⟨owner, ⟨w, one.bound w used, used, active, same, owns⟩, (ih owner).mp reached⟩
    · rintro ⟨owner, ⟨w, _, used, active, same, owns⟩, rest⟩
      rw [(flockWaiterFindTask_eq_some_iff one).mpr ⟨used, same⟩]
      dsimp only
      rw [Bool.and_eq_true, someOwner_iff]
      exact ⟨active, owner, owns, (ih owner).mpr rest⟩

theorem path_without {tasks : Tasks} {current first : Nat}
    (path : Relation.ReflTransGen (fun task next => WaitsFor l tasks task next ∨ (task = current ∧ Owns l tasks e next))
      first current) : Relation.ReflTransGen (WaitsFor l tasks) first current := by
  induction path using Relation.ReflTransGen.head_induction_on with
  | refl => exact .refl
  | head edge _ ih =>
    rcases edge with old | ⟨rfl, _⟩
    · exact .head old ih
    · exact .refl

theorem detect_iff (one : OneWaiter l) (tasks : Tasks) (current e : Nat) :
    flockDetectDeadlock l tasks current e = true ↔ ClosesCycle l tasks current e := by
  rw [flockDetectDeadlock, someOwner_iff]
  constructor
  · rintro ⟨owner, owns, reached⟩
    have path := ((reaches_iff one _ _).mp reached).reflTransGen
    exact ⟨owner, owns, Relation.ReflTransGen.mono (fun _ _ => .inl) _ _ path⟩
  · rintro ⟨owner, owns, path⟩
    refine ⟨owner, owns, (reaches_iff one _ _).mpr ?_⟩
    -- There are no more live tasks than levels, and all that wait for each other are among them.
    have inside : ∀ task next, WaitsFor l tasks task next → next ∈ Finset.range tasks.count := by
      rintro task next ⟨_, _, _, _, _, less, _⟩
      exact Finset.mem_range.mpr less
    have within := within_card (Finset.range tasks.count) inside (Finset.mem_range.mpr owns.1) (path_without path)
    rw [Finset.card_range] at within
    exact within.mono tasks.le

/-- Two processes, each with a descriptor for its own open file of two files. -/
def twoTasks : Tasks where
  count := 2
  zombie _ := false
  procSlot task := task
  fdTables slot fd := if fd < 2 then some (10 * slot + fd) else none
  le := by decide

/-- The open files with an even number are of one file, the others of another. -/
def twoFiles (o : Nat) : LockObject := ⟨true, some 1, UInt32.ofNat (o % 2), []⟩

/-- Each task locks one file, and one of them waits for the other. -/
def crossed : List Op :=
  [.flock twoTasks 0 0 (twoFiles 0) .ex false, .flock twoTasks 1 11 (twoFiles 11) .ex false,
    .flock twoTasks 0 1 (twoFiles 1) .ex false]

end

end Enlil.Flock
