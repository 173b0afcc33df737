import Enlil.Futex.Queues

/-! The loop that wakes and moves waiters, followed step by step through the queue it changes. -/

namespace Enlil.Futex

open Sched (schedMaxTasks)

/-- The table after a waiter was moved to another word. -/
def Table.move (t : Table) (prev : Option Task) (w : Task) (key : Key) (uaddr2 : UInt64) : Table :=
  ((t.unlink (futexHash key) prev w).setWaiter w fun waiter =>
    { waiter with key := { waiter.key with uaddr := uaddr2 } }).link (futexHash { key with uaddr := uaddr2 }) w

/-- The table after a waiter was woken. -/
def Table.wake (t : Table) (prev : Option Task) (w : Task) (key : Key) : Table :=
  (t.unlink (futexHash key) prev w).setWaiter w fun waiter => { waiter with queued := false, woken := true }

section

variable {t : Table} {lists : Bucket → List Task} {w : Task} {before after : List Task} {key : Key} {uaddr2 : UInt64}

/-- The queues after a waiter was moved to another word. -/
def movedLists (lists : Bucket → List Task) (before after : List Task) (w : Task) (key : Key) (uaddr2 : UInt64) :
    Bucket → List Task := fun b =>
  Function.update lists (futexHash key) (before ++ after) b ++
    if b = futexHash { key with uaddr := uaddr2 } then [w] else []

theorem Holds.moved (holds : Holds t lists) (place : lists (futexHash key) = before ++ w :: after)
    (named : (t.waiters w).key = key) :
    Holds (t.move before.getLast? w key uaddr2) (movedLists lists before after w key uaddr2) := by
  have moved := holds.move place uaddr2
  rw [named] at moved
  have same : movedLists lists before after w key uaddr2 = Function.update
      (Function.update lists (futexHash key) (before ++ after)) (futexHash { key with uaddr := uaddr2 })
      (Function.update lists (futexHash key) (before ++ after) (futexHash { key with uaddr := uaddr2 }) ++ [w]) := by
    funext b
    rw [movedLists]
    by_cases target : b = futexHash { key with uaddr := uaddr2 }
    · subst target
      rw [if_pos rfl, Function.update_self]
    · rw [if_neg target, Function.update_of_ne target, List.append_nil]
  rw [same]
  exact moved

theorem move_key_eq (named : (t.waiters w).key = key) {prev : Option Task} (node : Task) :
    ((t.move prev w key uaddr2).waiters node).key =
      if node = w then { key with uaddr := uaddr2 } else (t.waiters node).key := by
  rw [Table.move, move_key, named]

theorem Holds.not_mem_without (holds : Holds t lists) (place : lists (futexHash key) = before ++ w :: after) (b : Bucket) :
    w ∉ Function.update lists (futexHash key) (before ++ after) b := by
  have nodup := (holds.linked (futexHash key)).nodup
  rw [place, List.nodup_middle, List.nodup_cons] at nodup
  have inside : w ∈ lists (futexHash key) := by rw [place]; simp
  by_cases same : b = futexHash key
  · subst same
    rw [Function.update_self]
    exact nodup.1
  · rw [Function.update_of_ne same]
    intro member
    exact same (holds.apart member inside)

theorem Holds.filter_without (holds : Holds t lists) (place : lists (futexHash key) = before ++ w :: after)
    (named : (t.waiters w).key = key) {prev : Option Task} (other : Key) (b : Bucket) :
    (Function.update lists (futexHash key) (before ++ after) b).filter
        (fun node => ((t.move prev w key uaddr2).waiters node).key = other) =
      (Function.update lists (futexHash key) (before ++ after) b).filter fun node => (t.waiters node).key = other := by
  have absent := holds.not_mem_without place b
  apply List.filter_congr
  intro node member
  have different : node ≠ w := by
    rintro rfl
    exact absent member
  rw [move_key_eq named, if_neg different]

theorem Holds.waitersOf_moved (holds : Holds t lists) (place : lists (futexHash key) = before ++ w :: after)
    (named : (t.waiters w).key = key) {other : Key} (apart : other ≠ key) :
    (t.move before.getLast? w key uaddr2).waitersOf other =
      t.waitersOf other ++ if other = { key with uaddr := uaddr2 } then [w] else [] := by
  rw [(holds.moved place named).waitersOf_eq, holds.waitersOf_eq, movedLists, List.filter_append,
    holds.filter_without place named]
  have without : (Function.update lists (futexHash key) (before ++ after) (futexHash other)).filter
      (fun node => (t.waiters node).key = other) = (lists (futexHash other)).filter fun node => (t.waiters node).key = other := by
    by_cases same : futexHash other = futexHash key
    · rw [same, Function.update_self, place, List.filter_append, List.filter_append, List.filter_cons_of_neg]
      rw [named]
      simpa using apart.symm
    · rw [Function.update_of_ne same]
  rw [without]
  congr 1
  by_cases target : other = { key with uaddr := uaddr2 }
  · rw [if_pos target, if_pos (by rw [target])]
    simp [move_key_eq named, target]
  · rw [if_neg target]
    split
    · simp [move_key_eq named, Ne.symm target]
    · rfl

/-- Where the loop is: what it has woken and moved, what it has passed, and what is still before it. -/
structure Progress (key : Key) (wakeCount requeueCount : Nat) (uaddr2 : UInt64) (start t : Table)
    (lists : Bucket → List Task) (woken moved before rest : List Task) : Prop where
  holds : Holds t lists
  place : lists (futexHash key) = before ++ rest
  split : start.waitersOf key = woken ++ (moved ++ (before ++ rest).filter fun w => (t.waiters w).key = key)
  target : uaddr2 ≠ key.uaddr → t.waitersOf { key with uaddr := uaddr2 } = start.waitersOf { key with uaddr := uaddr2 } ++ moved
  others : ∀ other, other ≠ key → other ≠ { key with uaddr := uaddr2 } → t.waitersOf other = start.waitersOf other
  flags : ∀ w, (t.waiters w).woken = (decide (w ∈ woken) || (start.waiters w).woken)
  few : woken.length ≤ wakeCount ∧ moved.length ≤ requeueCount
  passed : (before.filter fun w => (t.waiters w).key = key) ≠ [] → woken.length = wakeCount ∧ uaddr2 = key.uaddr
  later : moved ≠ [] → woken.length = wakeCount ∧ uaddr2 ≠ key.uaddr

section

variable {wakeCount requeueCount : Nat} {start : Table} {woken moved rest : List Task}

theorem Progress.pass (progress : Progress key wakeCount requeueCount uaddr2 start t lists woken moved before (w :: rest))
    (kept : (t.waiters w).key = key → woken.length = wakeCount ∧ uaddr2 = key.uaddr) :
    Progress key wakeCount requeueCount uaddr2 start t lists woken moved (before ++ [w]) rest := by
  refine { progress with place := ?_, split := ?_, passed := ?_ }
  · rw [progress.place]
    simp
  · rw [progress.split]
    simp
  · intro some
    rw [List.filter_append] at some
    by_cases named : (t.waiters w).key = key
    · exact kept named
    · apply progress.passed
      simpa [named] using some

theorem wake_key {prev : Option Task} (node : Task) :
    ((t.wake prev w key).waiters node).key = (t.waiters node).key := by
  rw [Table.wake]
  by_cases own : node = w
  · subst own
    rw [setWaiter_self]
    rfl
  · rw [setWaiter_other own]
    rfl

theorem Progress.wake (progress : Progress key wakeCount requeueCount uaddr2 start t lists woken moved before (w :: rest))
    (named : (t.waiters w).key = key) (more : woken.length < wakeCount) :
    Progress key wakeCount requeueCount uaddr2 start (t.wake before.getLast? w key)
      (Function.update lists (futexHash key) (before ++ rest)) (woken ++ [w]) moved before rest := by
  -- Nothing was moved or passed yet, so this is the next waiter of the word.
  have none : moved = [] := by
    by_contra some
    have full := (progress.later some).1
    omega
  have behind : (before.filter fun w => (t.waiters w).key = key) = [] := by
    by_contra some
    have full := (progress.passed some).1
    omega
  have same : ∀ other, other ≠ key → (t.wake before.getLast? w key).waitersOf other = t.waitersOf other := by
    intro other apart
    rw [← named] at apart
    rw [Table.wake]
    refine progress.holds.waitersOf_leave progress.place ?_ ?_ ?_ apart
    · intro waiter
      rfl
    · intro waiter
      rfl
    · intro waiter
      rfl
  refine ⟨?_, ?_, ?_, ?_, ?_, ?_, ?_, ?_, ?_⟩
  · rw [Table.wake]
    refine progress.holds.leave progress.place ?_ ?_
    · intro waiter
      rfl
    · intro waiter
      rfl
  · rw [Function.update_self]
  · rw [progress.split, none]
    simp only [wake_key, List.filter_append, behind, List.nil_append, List.append_assoc]
    rw [List.filter_cons_of_pos (by simpa using named)]
    rfl
  · intro different
    have apart : ({ key with uaddr := uaddr2 } : Key) ≠ key := by
      intro equal
      exact different (congrArg Key.uaddr equal)
    rw [same _ apart]
    exact progress.target different
  · intro other first second
    rw [same other first]
    exact progress.others other first second
  · intro node
    rw [Table.wake]
    by_cases own : node = w
    · subst own
      simp
    · rw [setWaiter_other own]
      simp [own, progress.flags]
  · rw [List.length_append, List.length_singleton]
    exact ⟨by omega, progress.few.2⟩
  · intro some
    simp only [wake_key] at some
    exact absurd behind some
  · intro some
    exact absurd none some

theorem Progress.move (progress : Progress key wakeCount requeueCount uaddr2 start t lists woken moved before (w :: rest))
    (named : (t.waiters w).key = key) (full : woken.length = wakeCount) (more : moved.length < requeueCount)
    (different : uaddr2 ≠ key.uaddr) :
    Progress key wakeCount requeueCount uaddr2 start (t.move before.getLast? w key uaddr2)
      (movedLists lists before rest w key uaddr2) woken (moved ++ [w]) before
      (rest ++ if futexHash key = futexHash { key with uaddr := uaddr2 } then [w] else []) := by
  have apart : ({ key with uaddr := uaddr2 } : Key) ≠ key := by
    intro equal
    exact different (congrArg Key.uaddr equal)
  have behind : (before.filter fun w => (t.waiters w).key = key) = [] := by
    by_contra some
    exact different (progress.passed some).2
  have without : ∀ part : List Task, w ∉ part →
      (part.filter fun node => ((t.move before.getLast? w key uaddr2).waiters node).key = key) =
        part.filter fun node => (t.waiters node).key = key := by
    intro part absent
    apply List.filter_congr
    intro node member
    have other : node ≠ w := by
      rintro rfl
      exact absent member
    rw [move_key_eq named, if_neg other]
  have absent := progress.holds.not_mem_without progress.place (futexHash key)
  rw [Function.update_self, List.mem_append, not_or] at absent
  refine ⟨?_, ?_, ?_, ?_, ?_, ?_, ?_, ?_, ?_⟩
  · exact progress.holds.moved progress.place named
  · rw [movedLists, Function.update_self, List.append_assoc]
  · -- The waiter that was moved is no longer one of the word.
    have end_ : ((if futexHash key = futexHash { key with uaddr := uaddr2 } then [w] else []).filter
        fun node => ((t.move before.getLast? w key uaddr2).waiters node).key = key) = [] := by
      split
      · simp [move_key_eq named, apart]
      · rfl
    rw [List.filter_append, List.filter_append, end_, without before absent.1, without rest absent.2, behind,
      progress.split, List.filter_append, behind, List.filter_cons_of_pos (by simpa using named)]
    simp
  · intro _
    rw [progress.holds.waitersOf_moved progress.place named apart, if_pos rfl, progress.target different, List.append_assoc]
  · intro other first second
    rw [progress.holds.waitersOf_moved progress.place named first, if_neg second, List.append_nil]
    exact progress.others other first second
  · intro node
    obtain ⟨next, record⟩ := link_waiters ((t.unlink (futexHash key) before.getLast? w).setWaiter w fun waiter =>
      { waiter with key := { waiter.key with uaddr := uaddr2 } }) (futexHash { key with uaddr := uaddr2 }) w node
    rw [Table.move, record]
    by_cases own : node = w
    · subst own
      rw [setWaiter_self]
      exact progress.flags node
    · rw [setWaiter_other own]
      exact progress.flags node
  · rw [List.length_append, List.length_singleton]
    exact ⟨progress.few.1, by omega⟩
  · intro some
    rw [without before absent.1] at some
    exact absurd behind some
  · intro _
    exact ⟨full, different⟩

/-- What the loop leaves when it ends. -/
structure Requeued (key : Key) (wakeCount requeueCount : Nat) (uaddr2 : UInt64) (start t : Table) (woken moved : List Task) :
    Prop where
  sound : Sound t
  first : woken = (start.waitersOf key).take wakeCount
  second : moved = if uaddr2 = key.uaddr then [] else ((start.waitersOf key).drop wakeCount).take requeueCount
  source : t.waitersOf key = (start.waitersOf key).drop (woken.length + moved.length)
  target : uaddr2 ≠ key.uaddr → t.waitersOf { key with uaddr := uaddr2 } = start.waitersOf { key with uaddr := uaddr2 } ++ moved
  others : ∀ other, other ≠ key → other ≠ { key with uaddr := uaddr2 } → t.waitersOf other = start.waitersOf other
  flags : ∀ w, (t.waiters w).woken = (decide (w ∈ woken) || (start.waiters w).woken)

theorem Progress.done (progress : Progress key wakeCount requeueCount uaddr2 start t lists woken moved before rest)
    (final : rest = [] ∨ (wakeCount ≤ woken.length ∧ requeueCount ≤ moved.length)) :
    Requeued key wakeCount requeueCount uaddr2 start t woken moved := by
  have few := progress.few
  have split := progress.split
  have left : t.waitersOf key = (before ++ rest).filter fun w => (t.waiters w).key = key := by
    rw [progress.holds.waitersOf_eq, progress.place]
  rw [← left] at split
  -- If the loop has not woken enough, there is nothing left of the word.
  have short : woken.length < wakeCount → moved = [] ∧ t.waitersOf key = [] := by
    intro more
    have none : moved = [] := by
      by_contra some
      have full := (progress.later some).1
      omega
    have behind : (before.filter fun w => (t.waiters w).key = key) = [] := by
      by_contra some
      have full := (progress.passed some).1
      omega
    rcases final with rfl | full
    · refine ⟨none, ?_⟩
      rw [left, List.append_nil, behind]
    · omega
  refine ⟨progress.holds.sound, ?_, ?_, ?_, progress.target, progress.others, progress.flags⟩
  · rw [split]
    rcases Nat.lt_or_ge woken.length wakeCount with more | enough
    · obtain ⟨none, nothing⟩ := short more
      rw [none, nothing, List.append_nil, List.append_nil, List.take_of_length_le (by omega)]
    · rw [List.take_append_of_le_length (by omega), List.take_of_length_le (by omega)]
  · by_cases same : uaddr2 = key.uaddr
    · rw [if_pos same]
      by_contra some
      exact (progress.later some).2 same
    · rw [if_neg same, split]
      rcases Nat.lt_or_ge woken.length wakeCount with more | enough
      · obtain ⟨none, nothing⟩ := short more
        rw [none, nothing, List.append_nil, List.append_nil, List.drop_eq_nil_of_le (by omega), List.take_nil]
      · have full : woken.length = wakeCount := by omega
        rw [← full, List.drop_left]
        rcases final with rfl | ⟨-, enough'⟩
        · -- Everything of the word was moved.
          have nothing : t.waitersOf key = [] := by
            rw [left, List.append_nil]
            by_contra some
            exact same (progress.passed some).2
          rw [nothing, List.append_nil, List.take_of_length_le few.2]
        · rw [List.take_append_of_le_length (by omega), List.take_of_length_le few.2]
  · rw [split, ← List.append_assoc, List.drop_append_of_le_length (by simp), List.drop_eq_nil_of_le (by simp), List.nil_append]

theorem Progress.requeueLoop (fuel : Nat) :
    ∀ {t : Table} {lists : Bucket → List Task} {woken moved before rest : List Task},
      Progress key wakeCount requeueCount uaddr2 start t lists woken moved before rest →
      rest.length + (rest.filter fun w => (t.waiters w).key = key).length < fuel →
      ∃ t' woken' moved', Futex.requeueLoop key wakeCount requeueCount uaddr2 fuel t before.getLast? rest.head?
          (woken.map some) moved.length = some (woken'.map some, moved'.length, t') ∧
        Requeued key wakeCount requeueCount uaddr2 start t' woken' moved' := by
  induction fuel with
  | zero =>
    intro t lists woken moved before rest _ enough
    omega
  | succ fuel ih =>
    intro t lists woken moved before rest progress enough
    cases rest with
    | nil => exact ⟨t, woken, moved, rfl, progress.done (.inl rfl)⟩
    | cons w rest =>
      have inside : w ∈ lists (futexHash key) := by rw [progress.place]; simp
      have queued := ((progress.holds.member (futexHash key) w).mp inside).1
      have next : (t.waiters w).next = rest.head? := by
        have path := (progress.holds.linked (futexHash key)).path
        rw [progress.place] at path
        exact path.next_eq
      have prev : (before ++ [w]).getLast? = some w := by simp
      rw [List.head?_cons, Futex.requeueLoop, List.length_map, next]
      by_cases more : woken.length < wakeCount ∨ moved.length < requeueCount
      · rw [if_pos more]
        by_cases named : (t.waiters w).key = key
        · have matching : futexWaiterMatches (t.waiters w) key = true := by simp [futexWaiterMatches, queued, named]
          rw [if_neg (by simp [matching])]
          rw [List.filter_cons_of_pos (by simpa using named), List.length_cons, List.length_cons] at enough
          by_cases wake : woken.length < wakeCount
          · rw [if_pos wake, progress.holds.own w queued]
            have further := progress.wake named wake
            obtain ⟨t', woken', moved', ran, done⟩ := ih further (by simp only [wake_key]; omega)
            rw [List.map_append] at ran
            exact ⟨t', woken', moved', ran, done⟩
          · rw [if_neg wake]
            by_cases move : moved.length < requeueCount ∧ uaddr2 ≠ key.uaddr
            · rw [if_pos move]
              have full : woken.length = wakeCount := by
                have few := progress.few
                omega
              have further := progress.move named full move.1 move.2
              have count : moved.length + 1 = (moved ++ [w]).length := by simp
              rw [count]
              cases rest with
              | nil =>
                -- The waiter that was moved may now be last in this queue, but the loop has already looked past it.
                obtain ⟨fuel, rfl⟩ : ∃ less, fuel = less + 1 := ⟨fuel - 1, by omega⟩
                refine ⟨_, woken, moved ++ [w], rfl, ?_⟩
                rw [List.nil_append] at further
                split at further
                · have passed := further.pass fun same => by
                    rw [move_key_eq named, if_pos rfl] at same
                    exact absurd (congrArg Key.uaddr same) move.2
                  exact passed.done (.inl rfl)
                · exact further.done (.inl rfl)
              | cons second more =>
                have absent := progress.holds.not_mem_without progress.place (futexHash key)
                rw [Function.update_self, List.mem_append, not_or] at absent
                have ends : ∀ last : List Task, (second :: more).head? = (second :: more ++ last).head? := fun _ => rfl
                rw [ends]
                apply ih further
                have shorter : ((if futexHash key = futexHash { key with uaddr := uaddr2 } then [w] else []).filter
                    fun node => ((t.move before.getLast? w key uaddr2).waiters node).key = key).length = 0 ∧
                    (if futexHash key = futexHash { key with uaddr := uaddr2 } then [w] else []).length ≤ 1 := by
                  split
                  · refine ⟨?_, le_rfl⟩
                    rw [List.length_eq_zero_iff, List.filter_eq_nil_iff]
                    intro node only
                    rw [List.mem_singleton] at only
                    rw [decide_eq_true_eq, move_key_eq named, if_pos only]
                    intro same
                    exact absurd (congrArg Key.uaddr same) move.2
                  · exact ⟨rfl, Nat.zero_le _⟩
                have kept : ((second :: more).filter
                    fun node => ((t.move before.getLast? w key uaddr2).waiters node).key = key) =
                    (second :: more).filter fun node => (t.waiters node).key = key := by
                  apply List.filter_congr
                  intro node member
                  have other : node ≠ w := by
                    rintro rfl
                    exact absent.2 member
                  rw [move_key_eq named, if_neg other]
                rw [List.length_append, List.filter_append, List.length_append, kept]
                omega
            · rw [if_neg move, ← prev]
              refine ih (progress.pass fun _ => ?_) (by omega)
              have few := progress.few
              refine ⟨by omega, ?_⟩
              by_contra different
              exact move ⟨by omega, different⟩
        · have other : futexWaiterMatches (t.waiters w) key = false := by simp [futexWaiterMatches, named]
          rw [if_pos (by simp [other]), ← prev]
          rw [List.filter_cons_of_neg (by simpa using named), List.length_cons] at enough
          exact ih (progress.pass fun same => absurd same named) (by omega)
      · rw [if_neg more]
        exact ⟨t, woken, moved, rfl, progress.done (.inr (by omega))⟩

end

theorem Sound.requeue (sound : Sound t) (key : Key) (wakeCount requeueCount : Nat) (uaddr2 : UInt64) :
    ∃ t' woken moved, futexRequeueKeyLocked key wakeCount requeueCount uaddr2 t =
        some (woken.map some, moved.length, t') ∧ Requeued key wakeCount requeueCount uaddr2 t t' woken moved := by
  have progress : Progress key wakeCount requeueCount uaddr2 t t t.bucketList [] [] [] (t.bucketList (futexHash key)) :=
    { holds := sound
      place := rfl
      split := rfl
      target := fun _ => (List.append_nil _).symm
      others := fun _ _ _ => rfl
      flags := fun _ => rfl
      few := ⟨Nat.zero_le _, Nat.zero_le _⟩
      passed := fun some => absurd rfl some
      later := fun some => absurd rfl some }
  have bound := length_le (sound.linked (futexHash key)).nodup
  have part := List.length_filter_le (fun w => decide ((t.waiters w).key = key)) (t.bucketList (futexHash key))
  obtain ⟨t', woken, moved, ran, done⟩ := progress.requeueLoop (2 * schedMaxTasks + 1) (by omega)
  refine ⟨t', woken, moved, ?_, done⟩
  rw [← (sound.linked (futexHash key)).path.start_eq] at ran
  exact ran

theorem wakeLoop_eq (key : Key) (count fuel : Nat) (t : Table) (prev cur : Option Task) (woken : List (Option Task)) :
    wakeLoop key count fuel t prev cur woken =
      (requeueLoop key count 0 key.uaddr fuel t prev cur woken 0).map fun result => (result.1, result.2.2) := by
  induction fuel generalizing t prev cur woken with
  | zero => rfl
  | succ fuel ih =>
    cases cur with
    | none => rfl
    | some cur =>
      rw [wakeLoop, requeueLoop]
      by_cases more : woken.length < count
      · have either : woken.length < count ∨ 0 < 0 := .inl more
        rw [if_pos more, if_pos either]
        by_cases matching : futexWaiterMatches (t.waiters cur) key = true
        · rw [if_pos matching, if_neg (by simp [matching]), if_pos more]
          exact ih _ _ _ _
        · rw [if_neg matching, if_pos (by simpa using matching)]
          exact ih _ _ _ _
      · rw [if_neg more, if_neg (by omega)]
        rfl

/-- What a wake-up leaves. -/
structure Woken (key : Key) (count : Nat) (start t : Table) : Prop where
  sound : Sound t
  source : t.waitersOf key = (start.waitersOf key).drop count
  others : ∀ other, other ≠ key → t.waitersOf other = start.waitersOf other
  flags : ∀ w, (t.waiters w).woken = (decide (w ∈ (start.waitersOf key).take count) || (start.waiters w).woken)

theorem Sound.wake (sound : Sound t) (key : Key) (count : Nat) :
    ∃ t', futexWakeKeyLocked key count t = some (((t.waitersOf key).take count).map some, t') ∧ Woken key count t t' := by
  obtain ⟨t', woken, moved, ran, done⟩ := sound.requeue key count 0 key.uaddr
  have none : moved = [] := by
    rw [done.second, if_pos rfl]
  have first := done.first
  have self : ({ key with uaddr := key.uaddr } : Key) = key := rfl
  refine ⟨t', ?_, done.sound, ?_, ?_, ?_⟩
  · rw [futexWakeKeyLocked, wakeLoop_eq]
    rw [futexRequeueKeyLocked] at ran
    rw [ran, ← first]
    rfl
  · rw [done.source, none, first, List.length_nil, Nat.add_zero, List.length_take]
    rcases Nat.le_total count (t.waitersOf key).length with small | large
    · rw [Nat.min_eq_left small]
    · rw [Nat.min_eq_right large, List.drop_length, List.drop_eq_nil_of_le large]
  · intro other apart
    exact done.others other apart (by rw [self]; exact apart)
  · intro w
    rw [done.flags w, first]

end

end Enlil.Futex
