import Enlil.Lib.Run
import Enlil.Futex.Requeue

/-! The futex calls: each wakes, moves and leaves exactly the waiters it should, in the order in which they came. -/

namespace Enlil.Futex

open Sched (schedMaxTasks)

/-- The errors of the futex calls. -/
inductive Errno where
  | eperm
  | einval
  | efault
  | eagain
  deriving DecidableEq, Repr

/-- The lowest user address. -/
def mmuUserBase : UInt64 := 0x7FC0000000

/-- One past the highest user address. -/
def mmuUserLimit : UInt64 := 0x8000000000

/-- The futex table and which tasks are blocked. -/
structure Kernel where
  table : Table
  blocked : Task → Bool

/-- Checks the address of a word. -/
def futexValidateUaddr (isUser : Bool) (uaddr : UInt64) : Except Errno Unit :=
  if !isUser then .error .eperm
  else if uaddr &&& 3 ≠ 0 then .error .einval
  else if uaddr < mmuUserBase || uaddr + 4 > mmuUserLimit then .error .efault
  else .ok ()

/-- Unblocks the tasks of a list that are blocked. -/
def unblockAll : List (Option Task) → (Task → Bool) → Task → Bool
  | [], blocked => blocked
  | none :: rest, blocked => unblockAll rest blocked
  | some w :: rest, blocked => unblockAll rest (if blocked w then Function.update blocked w false else blocked)

/-- Wakes waiters of a word and unblocks their tasks. -/
def wakeAndUnblock (key : Key) (count : Nat) (k : Kernel) : Option (Nat × Kernel) :=
  (futexWakeKeyLocked key count k.table).map fun (woken, t) => (woken.length, ⟨t, unblockAll woken k.blocked⟩)

/-- Wakes waiters of a word of the calling process. -/
def futexWakeCurrent (isUser : Bool) (key : Key) (count : Nat) (k : Kernel) : Option (Except Errno Nat × Kernel) :=
  match futexValidateUaddr isUser key.uaddr with
  | .error error => some (.error error, k)
  | .ok _ =>
    if count = 0 then some (.ok 0, k)
    else (wakeAndUnblock key count k).map fun (woke, k') => (.ok woke, k')

/-- Wakes waiters of a word of a process, for the kernel. -/
def futexWakeTaskUaddr (key : Key) (count : Nat) (k : Kernel) : Option (Nat × Kernel) :=
  if key.uaddr = 0 ∨ count = 0 then some (0, k) else wakeAndUnblock key count k

/-- Wakes waiters of a word and moves more of them to another word, if the word still has an expected value. -/
def futexRequeueCurrent (isUser : Bool) (key : Key) (wakeCount requeueCount : Nat) (uaddr2 : UInt64)
    (load : Key → Option UInt32) (expected : Option UInt32) (k : Kernel) : Option (Except Errno Nat × Kernel) :=
  match futexValidateUaddr isUser key.uaddr, futexValidateUaddr isUser uaddr2 with
  | .error error, _ => some (.error error, k)
  | _, .error error => some (.error error, k)
  | .ok _, .ok _ =>
    let compared : Except Errno Unit :=
      match expected with
      | none => .ok ()
      | some value =>
        match load key with
        | none => .error .efault
        | some current => if current ≠ value then .error .eagain else .ok ()
    match compared with
    | .error error => some (.error error, k)
    | .ok _ =>
      (futexRequeueKeyLocked key wakeCount requeueCount uaddr2 k.table).map fun (woken, moved, t) =>
        let count := woken.length + moved
        (.ok count, ⟨t, if wakeCount > 0 then unblockAll (woken.take (min count wakeCount)) k.blocked else k.blocked⟩)

/-- Takes a task's record out of its queue, if it is in one. -/
def futexDequeue (w : Task) (t : Table) : Option Table :=
  if (t.waiters w).queued then futexBucketRemove (futexHash (t.waiters w).key) w t else some t

/-- The part of a wait that puts the caller into the queue of a word. -/
def futexWaitEnqueue (w : Task) (key : Key) (t : Table) : Option Table :=
  (futexDequeue w t).map fun t =>
    futexBucketAppend (futexHash key) w
      (t.setWaiter w fun waiter => { waiter with task := some w, key := key, woken := false })

/-- The part of a wait after the caller runs again, giving whether it was woken by a wake-up. -/
def futexWaitLeave (w : Task) (t : Table) : Option (Bool × Table) :=
  (futexDequeue w t).map fun t => ((t.waiters w).woken, t.setWaiter w fun _ => futexWaiterReset)

/-- Takes a task that exits out of its queue. -/
def futexTaskCleanup (w : Task) (t : Table) : Option Table :=
  (futexDequeue w t).map fun t => t.setWaiter w fun _ => futexWaiterReset

section

variable {t : Table} {lists : Bucket → List Task} {b : Bucket} {w : Task} {key : Key}

theorem Holds.removeLoop (holds : Holds t lists) (fuel : Nat) {passed : List Task} :
    ∀ {ahead after : List Task}, lists b = passed ++ (ahead ++ w :: after) → ahead.length < fuel →
      Futex.removeLoop b w fuel t passed.getLast? (ahead ++ w :: after).head? =
        some ((t.unlink b (passed ++ ahead).getLast? w).setWaiter w fun waiter => { waiter with queued := false }) := by
  induction fuel generalizing passed with
  | zero =>
    intro ahead after _ enough
    omega
  | succ fuel ih =>
    intro ahead after place enough
    cases ahead with
    | nil =>
      rw [List.nil_append, List.head?_cons, Futex.removeLoop, if_pos rfl, List.append_nil]
    | cons first more =>
      have different : first ≠ w := by
        have nodup := (holds.linked b).nodup
        rw [place] at nodup
        have later := (List.nodup_append.mp nodup).2.1
        rw [List.cons_append, List.nodup_cons] at later
        rintro rfl
        exact later.1 (by simp)
      have next : (t.waiters first).next = (more ++ w :: after).head? := by
        have path := (holds.linked b).path
        rw [place, List.cons_append] at path
        exact path.next_eq
      have split : lists b = (passed ++ [first]) ++ (more ++ w :: after) := by
        rw [place]
        simp
      have further := ih split (by simp at enough; omega)
      rw [List.getLast?_append, List.getLast?_singleton, Option.some_or, List.append_assoc] at further
      rw [List.cons_append, List.head?_cons, Futex.removeLoop, if_neg different, next]
      exact further

/-- What is left after a task was taken out of its queue. -/
structure Left (w : Task) (start t : Table) : Prop where
  sound : Sound t
  idle : (t.waiters w).queued = false
  flags : ∀ node, (t.waiters node).woken = (start.waiters node).woken
  waiters : ∀ key, t.waitersOf key = (start.waitersOf key).filter (· ≠ w)

theorem Sound.dequeue (sound : Sound t) (w : Task) : ∃ t', futexDequeue w t = some t' ∧ Left w t t' := by
  rw [futexDequeue]
  by_cases queued : (t.waiters w).queued = true
  · rw [if_pos queued]
    have inside : w ∈ t.bucketList (futexHash (t.waiters w).key) := (sound.member _ w).mpr ⟨queued, rfl⟩
    obtain ⟨before, after, place⟩ := List.append_of_mem inside
    have bound := length_le (sound.linked (futexHash (t.waiters w).key)).nodup
    rw [place, List.length_append, List.length_cons] at bound
    have split : t.bucketList (futexHash (t.waiters w).key) = [] ++ (before ++ w :: after) := place
    have ran := sound.removeLoop (schedMaxTasks + 1) split (by omega)
    have start := (sound.linked (futexHash (t.waiters w).key)).path.start_eq
    rw [← place, ← start] at ran
    have nodup := (sound.linked (futexHash (t.waiters w).key)).nodup
    rw [place, List.nodup_middle, List.nodup_cons, List.mem_append, not_or] at nodup
    have holds : Holds ((t.unlink (futexHash (t.waiters w).key) before.getLast? w).setWaiter w
        fun waiter => { waiter with queued := false })
        (Function.update t.bucketList (futexHash (t.waiters w).key) (before ++ after)) :=
      sound.leave place (fun _ => rfl) fun _ => rfl
    have keys : ∀ node, (((t.unlink (futexHash (t.waiters w).key) before.getLast? w).setWaiter w
        fun waiter => { waiter with queued := false }).waiters node).key = (t.waiters node).key := by
      intro node
      by_cases own : node = w
      · subst own
        rw [setWaiter_self]
        rfl
      · rw [setWaiter_other own]
        rfl
    refine ⟨_, ran, ?_, ?_, ?_, ?_⟩
    · exact holds.sound
    · rw [setWaiter_self]
    · intro node
      by_cases own : node = w
      · subst own
        rw [setWaiter_self]
        rfl
      · rw [setWaiter_other own]
        rfl
    · intro key
      rw [List.nil_append, holds.waitersOf_eq, Holds.waitersOf_eq sound]
      simp only [keys]
      by_cases same : futexHash key = futexHash (t.waiters w).key
      · rw [same, Function.update_self, place, List.filter_comm]
        congr 1
        have first : before.filter (· ≠ w) = before := by
          rw [List.filter_eq_self]
          intro node member
          simp only [ne_eq, decide_not, Bool.not_eq_eq_eq_not, Bool.not_true, decide_eq_false_iff_not]
          rintro rfl
          exact nodup.1.1 member
        have second : after.filter (· ≠ w) = after := by
          rw [List.filter_eq_self]
          intro node member
          simp only [ne_eq, decide_not, Bool.not_eq_eq_eq_not, Bool.not_true, decide_eq_false_iff_not]
          rintro rfl
          exact nodup.1.2 member
        rw [List.filter_append, List.filter_cons_of_neg (by simp), first, second]
      · rw [Function.update_of_ne same, List.filter_filter]
        apply List.filter_congr
        intro node member
        have different : node ≠ w := by
          rintro rfl
          exact same (Holds.apart sound member inside)
        simp [different]
  · rw [if_neg queued]
    refine ⟨t, rfl, sound, by simpa using queued, fun _ => rfl, fun key => ?_⟩
    symm
    rw [List.filter_eq_self]
    intro node member
    have waiting := (Holds.mem_waitersOf sound).mp member
    simp only [ne_eq, decide_not, Bool.not_eq_eq_eq_not, Bool.not_true, decide_eq_false_iff_not]
    rintro rfl
    exact queued waiting.1

theorem Sound.setIdle (sound : Sound t) (idle : (t.waiters w).queued = false) {change : Waiter → Waiter}
    (quiet : ∀ waiter, waiter.queued = false → (change waiter).queued = false) :
    Sound (t.setWaiter w change) ∧ ∀ key, (t.setWaiter w change).waitersOf key = t.waitersOf key := by
  have absent : ∀ b, w ∉ t.bucketList b := by
    intro b member
    rw [sound.member, idle] at member
    cases member.1
  have holds : Holds (t.setWaiter w change) t.bucketList := by
    refine ⟨fun b => ?_, fun b node => ?_, fun node queued => ?_⟩
    · apply (sound.linked b).congr
      intro node member
      have different : node ≠ w := by
        rintro rfl
        exact absent b member
      rw [Table.links, setWaiter_other different]
      rfl
    · by_cases own : node = w
      · subst own
        rw [setWaiter_self, quiet _ idle]
        constructor
        · intro member
          exact absurd member (absent b)
        · rintro ⟨never, -⟩
          cases never
      · rw [setWaiter_other own]
        exact sound.member b node
    · by_cases own : node = w
      · subst own
        rw [setWaiter_self, quiet _ idle] at queued
        cases queued
      · rw [setWaiter_other own] at queued ⊢
        exact sound.own node queued
  refine ⟨holds.sound, fun key => ?_⟩
  rw [holds.waitersOf_eq, Holds.waitersOf_eq sound]
  apply List.filter_congr
  intro node member
  have different : node ≠ w := by
    rintro rfl
    exact absent _ member
  rw [setWaiter_other different]

theorem Sound.reset (sound : Sound t) (w : Task) :
    (∃ t', futexWaitLeave w t = some ((t.waiters w).woken, t') ∧ futexTaskCleanup w t = some t' ∧ Sound t' ∧
      ∀ key, t'.waitersOf key = (t.waitersOf key).filter (· ≠ w)) := by
  obtain ⟨t', taken, left⟩ := sound.dequeue w
  have quiet : ∀ waiter : Waiter, waiter.queued = false → ((fun _ => futexWaiterReset) waiter).queued = false :=
    fun _ _ => rfl
  obtain ⟨reset, same⟩ := left.sound.setIdle left.idle quiet
  refine ⟨t'.setWaiter w fun _ => futexWaiterReset, ?_, ?_, reset, fun key => ?_⟩
  · rw [futexWaitLeave, taken, Option.map_some, left.flags]
  · rw [futexTaskCleanup, taken, Option.map_some]
  · rw [same key]
    exact left.waiters key

theorem Sound.enqueue (sound : Sound t) (w : Task) (key : Key) :
    ∃ t', futexWaitEnqueue w key t = some t' ∧ Sound t' ∧
      t'.waitersOf key = (t.waitersOf key).filter (· ≠ w) ++ [w] ∧
      (∀ other, other ≠ key → t'.waitersOf other = (t.waitersOf other).filter (· ≠ w)) ∧
      (t'.waiters w).woken = false ∧ ∀ other, other ≠ w → (t'.waiters other).woken = (t.waiters other).woken := by
  obtain ⟨t1, taken, left⟩ := sound.dequeue w
  have holds : Holds (futexBucketAppend (futexHash key) w
      (t1.setWaiter w fun waiter => { waiter with task := some w, key := key, woken := false }))
      (Function.update t1.bucketList (futexHash key) (t1.bucketList (futexHash key) ++ [w])) :=
    Holds.join left.sound left.idle (fun _ => rfl) (fun _ => rfl) fun _ => rfl
  have absent : ∀ b, w ∉ t1.bucketList b := by
    intro b member
    rw [left.sound.member, left.idle] at member
    cases member.1
  -- The record of the task names the word, the others are as they were.
  have record : ∀ node, ((futexBucketAppend (futexHash key) w
      (t1.setWaiter w fun waiter => { waiter with task := some w, key := key, woken := false })).waiters node).key =
        (if node = w then key else (t1.waiters node).key) ∧
      ((futexBucketAppend (futexHash key) w
        (t1.setWaiter w fun waiter => { waiter with task := some w, key := key, woken := false })).waiters node).woken =
        (if node = w then false else (t1.waiters node).woken) := by
    intro node
    obtain ⟨next, linked⟩ := link_waiters
      (t1.setWaiter w fun waiter => { waiter with task := some w, key := key, woken := false }) (futexHash key) w node
    rw [futexBucketAppend]
    by_cases own : node = w
    · subst own
      rw [setWaiter_self, linked, setWaiter_self, if_pos rfl, if_pos rfl]
      exact ⟨rfl, rfl⟩
    · rw [setWaiter_other own, linked, setWaiter_other own, if_neg own, if_neg own]
      exact ⟨rfl, rfl⟩
  have rest : ∀ other b, ((t1.bucketList b).filter fun node => (if node = w then key else (t1.waiters node).key) = other) =
      (t1.bucketList b).filter fun node => (t1.waiters node).key = other := by
    intro other b
    apply List.filter_congr
    intro node member
    have different : node ≠ w := by
      rintro rfl
      exact absent b member
    rw [if_neg different]
  refine ⟨_, by rw [futexWaitEnqueue, taken, Option.map_some], holds.sound, ?_, fun other apart => ?_, ?_, fun other apart => ?_⟩
  · rw [holds.waitersOf_eq]
    simp only [record]
    rw [Function.update_self, List.filter_append, rest, ← Holds.waitersOf_eq left.sound, left.waiters key]
    simp
  · rw [holds.waitersOf_eq]
    simp only [record]
    by_cases same : futexHash other = futexHash key
    · rw [same, Function.update_self, List.filter_append, rest, ← left.waiters other, Holds.waitersOf_eq left.sound, same]
      simp [apart.symm]
    · rw [Function.update_of_ne same, rest, ← Holds.waitersOf_eq left.sound, left.waiters other]
  · rw [(record w).2, if_pos rfl]
  · rw [(record other).2, if_neg apart, left.flags]

end

theorem unblockAll_apply (tasks : List Task) (blocked : Task → Bool) (w : Task) :
    unblockAll (tasks.map some) blocked w = (blocked w && !decide (w ∈ tasks)) := by
  induction tasks generalizing blocked with
  | nil => simp [unblockAll]
  | cons first rest ih =>
    rw [List.map_cons, unblockAll, ih]
    by_cases own : w = first
    · subst own
      cases state : blocked w with
      | true => simp
      | false => simp [state]
    · cases state : blocked first with
      | true => simp [own]
      | false => simp [own]

section

variable {k : Kernel}

theorem wakeAndUnblock_exact (sound : Sound k.table) (key : Key) (count : Nat) :
    ∃ k', wakeAndUnblock key count k = some (min count (k.table.waitersOf key).length, k') ∧
      Woken key count k.table k'.table ∧
      ∀ w, k'.blocked w = (k.blocked w && !decide (w ∈ (k.table.waitersOf key).take count)) := by
  obtain ⟨t, ran, woken⟩ := sound.wake key count
  refine ⟨⟨t, unblockAll (((k.table.waitersOf key).take count).map some) k.blocked⟩, ?_, woken, fun w => ?_⟩
  · rw [wakeAndUnblock, ran, Option.map_some]
    dsimp only
    rw [List.length_map, List.length_take]
  · exact unblockAll_apply _ _ w

theorem Sound.wakeNone (sound : Sound k.table) (key : Key) : Woken key 0 k.table k.table where
  sound := sound
  source := rfl
  others _ _ := rfl
  flags _ := rfl

theorem futexWakeCurrent_exact (sound : Sound k.table) {isUser : Bool} {key : Key} (count : Nat)
    (valid : futexValidateUaddr isUser key.uaddr = .ok ()) :
    ∃ k', futexWakeCurrent isUser key count k = some (.ok (min count (k.table.waitersOf key).length), k') ∧
      Woken key count k.table k'.table ∧
      ∀ w, k'.blocked w = (k.blocked w && !decide (w ∈ (k.table.waitersOf key).take count)) := by
  rw [futexWakeCurrent, valid]
  dsimp only
  by_cases none : count = 0
  · subst none
    refine ⟨k, ?_, sound.wakeNone key, fun w => ?_⟩
    · rw [if_pos rfl, Nat.zero_min]
    · simp
  · rw [if_neg none]
    obtain ⟨k', ran, exact_⟩ := wakeAndUnblock_exact sound key count
    exact ⟨k', by rw [ran, Option.map_some], exact_⟩

theorem futexRequeueCurrent_exact (sound : Sound k.table) {isUser : Bool} {key : Key} (wakeCount requeueCount : Nat)
    {uaddr2 : UInt64} {load : Key → Option UInt32} {expected : Option UInt32}
    (valid : futexValidateUaddr isUser key.uaddr = .ok ()) (valid' : futexValidateUaddr isUser uaddr2 = .ok ())
    (agrees : expected = none ∨ load key = expected) :
    ∃ k' woken moved, futexRequeueCurrent isUser key wakeCount requeueCount uaddr2 load expected k =
        some (.ok (woken.length + moved.length), k') ∧
      Requeued key wakeCount requeueCount uaddr2 k.table k'.table woken moved ∧
      ∀ w, k'.blocked w = (k.blocked w && !decide (w ∈ woken)) := by
  obtain ⟨t, woken, moved, ran, done⟩ := sound.requeue key wakeCount requeueCount uaddr2
  have few : woken.length ≤ wakeCount := by
    rw [done.first]
    exact List.length_take_le _ _
  refine ⟨⟨t, if wakeCount > 0 then
    unblockAll ((woken.map some).take (min ((woken.map some).length + moved.length) wakeCount)) k.blocked else k.blocked⟩,
    woken, moved, ?_, done, fun w => ?_⟩
  · have compared : (match expected with
        | none => (.ok () : Except Errno Unit)
        | some value =>
          match load key with
          | none => .error .efault
          | some current => if current ≠ value then .error .eagain else .ok ()) = .ok () := by
      rcases agrees with rfl | same
      · rfl
      · cases expected with
        | none => rfl
        | some value => simp [same]
    unfold futexRequeueCurrent
    rw [valid, valid']
    dsimp only
    rw [compared]
    dsimp only
    rw [ran, Option.map_some]
    dsimp only
    rw [List.length_map]
  · -- Everyone who was woken is among those that are unblocked.
    dsimp only
    rw [List.length_map, List.take_of_length_le (by rw [List.length_map]; omega)]
    by_cases some : wakeCount > 0
    · rw [if_pos some, unblockAll_apply]
    · have none : woken = [] := List.length_eq_zero_iff.mp (by omega)
      rw [if_neg some, none]
      simp

/--
From every table in which each task is queued at most once, in the queue of its word:
waking takes the first waiters of the word, requeueing takes the first and moves the next ones in order,
joining, leaving and exiting concern one task only, and each leaves such a table again.
-/
theorem futex_calls_exact (sound : Sound k.table) :
    (∀ isUser key count, futexValidateUaddr isUser key.uaddr = .ok () →
      ∃ k', futexWakeCurrent isUser key count k = some (.ok (min count (k.table.waitersOf key).length), k') ∧
        Woken key count k.table k'.table ∧
        ∀ w, k'.blocked w = (k.blocked w && !decide (w ∈ (k.table.waitersOf key).take count))) ∧
    (∀ isUser key wakeCount requeueCount uaddr2 load expected, futexValidateUaddr isUser key.uaddr = .ok () →
      futexValidateUaddr isUser uaddr2 = .ok () → (expected = none ∨ load key = expected) →
      ∃ k' woken moved, futexRequeueCurrent isUser key wakeCount requeueCount uaddr2 load expected k =
          some (.ok (woken.length + moved.length), k') ∧
        Requeued key wakeCount requeueCount uaddr2 k.table k'.table woken moved ∧
        ∀ w, k'.blocked w = (k.blocked w && !decide (w ∈ woken))) ∧
    (∀ w, ∃ t, futexWaitLeave w k.table = some ((k.table.waiters w).woken, t) ∧ futexTaskCleanup w k.table = some t ∧
      Sound t ∧ ∀ key, t.waitersOf key = (k.table.waitersOf key).filter (· ≠ w)) ∧
    ∀ w key, ∃ t, futexWaitEnqueue w key k.table = some t ∧ Sound t ∧
      t.waitersOf key = (k.table.waitersOf key).filter (· ≠ w) ++ [w] ∧
      ∀ other, other ≠ key → t.waitersOf other = (k.table.waitersOf other).filter (· ≠ w) := by
  refine ⟨fun isUser key count valid => ?_, fun isUser key wakeCount requeueCount uaddr2 load expected valid valid' agrees => ?_,
    fun w => sound.reset w, fun w key => ?_⟩
  · exact futexWakeCurrent_exact sound count valid
  · exact futexRequeueCurrent_exact sound wakeCount requeueCount valid valid' agrees
  · obtain ⟨t, ran, sound', own, others, -⟩ := sound.enqueue w key
    exact ⟨t, ran, sound', own, others⟩

end

theorem sound_init : Sound futexInit := by
  have empty : futexInit.bucketList = fun _ => [] := rfl
  rw [Sound, empty]
  refine ⟨fun b => ⟨rfl, rfl, List.nodup_nil⟩, fun b w => ?_, fun w queued => ?_⟩
  · constructor
    · intro member
      cases member
    · rintro ⟨never, -⟩
      cases never
  · cases queued

/-- A word of the first process. -/
def someWord : Key := ⟨1, 0x7FC0001000⟩

/-- Two tasks wait on a word, and waking one of them wakes the first. -/
theorem futex_calls_exact_two : ∃ k k' : Kernel, Sound k.table ∧
    k.table.waitersOf someWord = [⟨3, by decide⟩, ⟨2, by decide⟩] ∧
    futexWakeCurrent true someWord 1 k = some (.ok 1, k') ∧ k'.table.waitersOf someWord = [⟨2, by decide⟩] := by
  obtain ⟨t1, -, sound1, first, -⟩ := sound_init.enqueue ⟨3, by decide⟩ someWord
  obtain ⟨t2, -, sound2, second, -⟩ := sound1.enqueue ⟨2, by decide⟩ someWord
  have two : t2.waitersOf someWord = [⟨3, by decide⟩, ⟨2, by decide⟩] := by
    rw [second, first]
    rfl
  obtain ⟨k', ran, woken, -⟩ := (futex_calls_exact (k := ⟨t2, fun _ => true⟩) sound2).1 true someWord 1 (by decide)
  refine ⟨⟨t2, fun _ => true⟩, k', sound2, two, ?_, ?_⟩
  · rw [ran, two]
    rfl
  · rw [woken.source, two]
    rfl

end Enlil.Futex
