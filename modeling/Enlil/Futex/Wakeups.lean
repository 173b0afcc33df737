import Enlil.Futex.Calls

/-! Waiters and wakers of words in any order of their steps: when a wake-up can be lost. -/

namespace Enlil.Futex

open Sched (schedMaxTasks)

/-- Where a task is: between the sections of a wait, or between the steps of a store and a wake-up. -/
inductive Place where
  | idle
  | compared (key : Key) (expected : UInt32)
  | enqueued
  | sleeping
  | stored (key : Key) (call : Nat)
  | waking (call : Nat) (tasks : List (Option Task))
  | gone
  deriving DecidableEq

/-- What is remembered of a wait: its word, the value it expects, and the value and its writer when it was queued. -/
structure Wait where
  key : Key
  expected : UInt32
  seen : UInt32
  writer : Option Nat

/--
The futex table, the blocked tasks, the words and the places of the tasks.

To speak about wake-ups there are also the last writer of each word, the waits, and for each call of a waker whom it
took out of the queue and whether it has returned.
-/
structure System where
  table : Table
  blocked : Task → Bool
  memory : Key → UInt32
  place : Task → Place
  writer : Key → Option Nat
  nextCall : Nat
  waits : Task → Wait
  woke : Nat → Option (List (Option Task))
  returned : Nat → Bool

/-- A step of a task, or a signal to one. -/
inductive Step where
  | compare (w : Task) (key : Key) (expected : UInt32)
  | enqueue (w : Task)
  | block (w : Task)
  | leave (w : Task)
  | store (u : Task) (key : Key) (value : UInt32)
  | wake (u : Task)
  | unblock (u : Task)
  | interrupt (w : Task)
  | exit (w : Task)

/-- A task goes on. -/
def System.go (s : System) (w : Task) (place : Place) : System := { s with place := Function.update s.place w place }

/-- Takes a step, if it is the task's next one. -/
def step (s : System) : Step → Except Unit System
  | .compare w key expected =>
    if s.place w = .idle then
      if s.memory key = expected then .ok (s.go w (.compared key expected)) else .ok s
    else .error ()
  | .enqueue w =>
    match s.place w with
    | .compared key expected =>
      match futexWaitEnqueue w key s.table with
      | some t =>
        .ok ({ s with
          table := t
          waits := Function.update s.waits w ⟨key, expected, s.memory key, s.writer key⟩ }.go w .enqueued)
      | none => .error ()
    | _ => .error ()
  | .block w =>
    if s.place w = .enqueued then .ok ({ s with blocked := Function.update s.blocked w true }.go w .sleeping)
    else .error ()
  | .leave w =>
    if s.place w = .sleeping ∧ s.blocked w = false then
      match futexWaitLeave w s.table with
      | some (_, t) => .ok ({ s with table := t }.go w .idle)
      | none => .error ()
    else .error ()
  | .store u key value =>
    if s.place u = .idle then
      .ok ({ s with
        memory := Function.update s.memory key value
        writer := Function.update s.writer key (some s.nextCall)
        nextCall := s.nextCall + 1 }.go u (.stored key s.nextCall))
    else .error ()
  | .wake u =>
    match s.place u with
    | .stored key call =>
      match futexWakeKeyLocked key 1 s.table with
      | some (tasks, t) =>
        .ok ({ s with table := t, woke := Function.update s.woke call (some tasks) }.go u (.waking call tasks))
      | none => .error ()
    | _ => .error ()
  | .unblock u =>
    match s.place u with
    | .waking call tasks =>
      .ok ({ s with
        blocked := unblockAll tasks s.blocked
        returned := Function.update s.returned call true }.go u .idle)
    | _ => .error ()
  | .interrupt w => .ok { s with blocked := Function.update s.blocked w false }
  | .exit w =>
    match futexTaskCleanup w s.table with
    | some t => .ok ({ s with table := t, blocked := Function.update s.blocked w false }.go w .gone)
    | none => .error ()

/--
A wake-up was lost.

A waiter is blocked in the queue, the word differed from what it expected when it was queued, and the call of the waker
that had written the word has returned without waking anyone else.
-/
def Lost (s : System) : Prop :=
  ∃ w call, s.place w = .sleeping ∧ s.blocked w = true ∧ (s.table.waiters w).queued = true ∧
    (s.waits w).seen ≠ (s.waits w).expected ∧ (s.waits w).writer = some call ∧ s.returned call = true ∧
    ∀ tasks, s.woke call = some tasks → ∀ other, some other ∈ tasks → other = w

/-- A task between its comparison of the word and its queueing still expects the value of the word. -/
def Place.Current (key : Key) (value : UInt32) : Place → Prop
  | .compared key' expected => key' = key → value = expected
  | _ => True

instance (key : Key) (value : UInt32) : (place : Place) → Decidable (place.Current key value)
  | .compared key' expected => inferInstanceAs (Decidable (key' = key → value = expected))
  | .idle | .enqueued | .sleeping | .stored .. | .waking .. | .gone => .isTrue trivial

/-- No wake-up is made while a waiter has compared the word, has not yet queued, and the word has changed meanwhile. -/
def Orderly (s : System) : Step → Prop
  | .wake u =>
    match s.place u with
    | .stored key _ => ∀ w, (s.place w).Current key (s.memory key)
    | _ => True
  | _ => True

instance (s : System) : (op : Step) → Decidable (Orderly s op)
  | .wake u =>
    match here : s.place u with
    | .stored key _ =>
      decidable_of_iff (∀ w, (s.place w).Current key (s.memory key)) (by rw [Orderly, here])
    | .idle | .compared .. | .enqueued | .sleeping | .waking .. | .gone => .isTrue (by rw [Orderly, here]; trivial)
  | .compare .. | .enqueue _ | .block _ | .leave _ | .store .. | .unblock _ | .interrupt _ | .exit _ => .isTrue trivial

/-- The places at boot, with any words. -/
def atRest (memory : Key → UInt32) : System where
  table := futexInit
  blocked _ := false
  memory := memory
  place _ := .idle
  writer _ := none
  nextCall := 0
  waits _ := ⟨⟨0, 0⟩, 0, 0, none⟩
  woke _ := none
  returned _ := false

/-- What holds as long as wake-ups are orderly. -/
structure Watched (s : System) : Prop where
  sound : Sound s.table
  queued : ∀ w, (s.table.waiters w).queued = true → (s.table.waiters w).key = (s.waits w).key
  compared : ∀ w key expected, s.place w = .compared key expected → s.memory key ≠ expected →
    ∃ call, s.writer key = some call ∧ s.woke call = none
  late : ∀ w, (s.table.waiters w).queued = true → (s.waits w).seen ≠ (s.waits w).expected →
    ∃ call, (s.waits w).writer = some call ∧
      (s.woke call = none ∨ ∃ tasks other, s.woke call = some tasks ∧ some other ∈ tasks ∧ other ≠ w)
  callers : ∀ u key call, s.place u = .stored key call → call < s.nextCall ∧
    (∀ key', s.writer key' = some call → key' = key) ∧
    ∀ w, (s.table.waiters w).queued = true → (s.waits w).writer = some call → (s.waits w).key = key
  writers : ∀ key call, s.writer key = some call → call < s.nextCall
  seers : ∀ w call, (s.table.waiters w).queued = true → (s.waits w).writer = some call → call < s.nextCall
  numbers : ∀ call, s.woke call ≠ none → call < s.nextCall
  waking : ∀ u call tasks, s.place u = .waking call tasks → s.woke call ≠ none
  returned : ∀ call, s.returned call = true → s.woke call ≠ none

theorem Watched.kept {s : System} (watched : Watched s) : ¬ Lost s := by
  rintro ⟨w, call, -, -, queued, late, writer, returned, nobody⟩
  obtain ⟨call', same, rest⟩ := watched.late w queued late
  rw [writer] at same
  cases same
  rcases rest with none | ⟨tasks, other, woke, member, different⟩
  · exact watched.returned call returned none
  · exact different (nobody tasks woke other member)

/-- A place that says nothing about a word or a call. -/
def Place.Plain : Place → Prop
  | .compared .. => False
  | .stored .. => False
  | .waking .. => False
  | _ => True

section

variable {s s' : System} {t : Table} {w : Task}

@[simp] theorem go_self {place : Place} : (s.go w place).place w = place := by
  simp [System.go]

@[simp] theorem go_other {place : Place} {u : Task} (other : u ≠ w) : (s.go w place).place u = s.place u := by
  simp [System.go, other]

theorem still_queued {t t' : Table} (sound : Sound t) (sound' : Sound t')
    (fewer : ∀ key, ∀ w ∈ t'.waitersOf key, w ∈ t.waitersOf key) (w : Task) (queued : (t'.waiters w).queued = true) :
    (t.waiters w).queued = true ∧ (t.waiters w).key = (t'.waiters w).key := by
  have member : w ∈ t'.waitersOf (t'.waiters w).key := (Holds.mem_waitersOf sound').mpr ⟨queued, rfl⟩
  exact (Holds.mem_waitersOf sound).mp (fewer _ w member)

theorem Watched.shrink (watched : Watched s) (sound : Sound t)
    (fewer : ∀ key, ∀ w ∈ t.waitersOf key, w ∈ s.table.waitersOf key) : Watched { s with table := t } := by
  have still := still_queued watched.sound sound fewer
  refine { watched with sound := sound, queued := ?_, late := ?_, callers := ?_, seers := ?_ }
  · intro w queued
    obtain ⟨before, same⟩ := still w queued
    show (t.waiters w).key = (s.waits w).key
    rw [← same]
    exact watched.queued w before
  · intro w queued
    exact watched.late w (still w queued).1
  · intro u key call stored
    obtain ⟨small, writers, seers⟩ := watched.callers u key call stored
    exact ⟨small, writers, fun w queued => seers w (still w queued).1⟩
  · intro w call queued
    exact watched.seers w call (still w queued).1

theorem Watched.go (watched : Watched s) {place : Place} (plain : place.Plain) : Watched (s.go w place) := by
  -- The other places are as they were.
  have before : ∀ u place', ¬ place'.Plain → (s.go w place).place u = place' → s.place u = place' := by
    intro u place' special here
    by_cases own : u = w
    · subst own
      rw [go_self] at here
      rw [here] at plain
      exact absurd plain special
    · rwa [go_other own] at here
  refine { watched with compared := ?_, callers := ?_, waking := ?_ }
  · intro u key expected here
    exact watched.compared u key expected (before u _ (fun plain => plain) here)
  · intro u key call here
    exact watched.callers u key call (before u _ (fun plain => plain) here)
  · intro u call tasks here
    exact watched.waking u call tasks (before u _ (fun plain => plain) here)

theorem Watched.compare (watched : Watched s) {key : Key} {expected : UInt32} (same : s.memory key = expected) :
    Watched (s.go w (.compared key expected)) := by
  refine { watched with compared := ?_, callers := ?_, waking := ?_ }
  · intro u key' expected' here changed
    by_cases own : u = w
    · subst own
      rw [go_self] at here
      cases here
      exact absurd same changed
    · rw [go_other own] at here
      exact watched.compared u key' expected' here changed
  · intro u key' call here
    by_cases own : u = w
    · subst own
      rw [go_self] at here
      cases here
    · rw [go_other own] at here
      exact watched.callers u key' call here
  · intro u call tasks here
    by_cases own : u = w
    · subst own
      rw [go_self] at here
      cases here
    · rw [go_other own] at here
      exact watched.waking u call tasks here

/-- A waker stores a value. -/
theorem Watched.store (watched : Watched s) (key : Key) (value : UInt32) :
    Watched ({ s with
      memory := Function.update s.memory key value
      writer := Function.update s.writer key (some s.nextCall)
      nextCall := s.nextCall + 1 }.go w (.stored key s.nextCall)) := by
  have unused : s.woke s.nextCall = none := by
    by_contra some
    exact absurd (watched.numbers s.nextCall some) (Nat.lt_irrefl _)
  refine ⟨watched.sound, watched.queued, ?_, watched.late, ?_, ?_, ?_, ?_, ?_, watched.returned⟩
  · intro u key' expected here changed
    dsimp only [System.go] at changed ⊢
    by_cases own : u = w
    · subst own
      rw [go_self] at here
      cases here
    · rw [go_other own] at here
      by_cases same : key' = key
      · subst same
        exact ⟨s.nextCall, Function.update_self _ _ _, unused⟩
      · rw [Function.update_of_ne same] at changed ⊢
        exact watched.compared u key' expected here changed
  · intro u key' call here
    dsimp only [System.go]
    by_cases own : u = w
    · subst own
      rw [go_self] at here
      cases here
      refine ⟨Nat.lt_succ_self _, fun key' written => ?_, fun v queued seen => ?_⟩
      · by_contra other
        rw [Function.update_of_ne other] at written
        exact absurd (watched.writers key' _ written) (Nat.lt_irrefl _)
      · exact absurd (watched.seers v _ queued seen) (Nat.lt_irrefl _)
    · rw [go_other own] at here
      obtain ⟨small, writers, seers⟩ := watched.callers u key' call here
      refine ⟨Nat.lt_succ_of_lt small, fun other written => ?_, seers⟩
      by_cases same : other = key
      · subst same
        rw [Function.update_self] at written
        cases written
        exact absurd small (Nat.lt_irrefl _)
      · rw [Function.update_of_ne same] at written
        exact writers other written
  · intro key' call written
    dsimp only [System.go] at written ⊢
    by_cases same : key' = key
    · subst same
      rw [Function.update_self] at written
      cases written
      exact Nat.lt_succ_self _
    · rw [Function.update_of_ne same] at written
      exact Nat.lt_succ_of_lt (watched.writers key' call written)
  · intro v call queued seen
    exact Nat.lt_succ_of_lt (watched.seers v call queued seen)
  · intro call some
    exact Nat.lt_succ_of_lt (watched.numbers call some)
  · intro u call tasks here
    by_cases own : u = w
    · subst own
      rw [go_self] at here
      cases here
    · rw [go_other own] at here
      exact watched.waking u call tasks here

theorem Watched.enqueue (watched : Watched s) {key : Key} {expected : UInt32} (here : s.place w = .compared key expected)
    (sound : Sound t) (own : t.waitersOf key = (s.table.waitersOf key).filter (· ≠ w) ++ [w])
    (others : ∀ other, other ≠ key → t.waitersOf other = (s.table.waitersOf other).filter (· ≠ w)) :
    Watched ({ s with
      table := t
      waits := Function.update s.waits w ⟨key, expected, s.memory key, s.writer key⟩ }.go w .enqueued) := by
  -- The waiter itself is queued for the word, the others as before.
  have self : (t.waiters w).queued = true → (t.waiters w).key = key := by
    intro queued
    have member : w ∈ t.waitersOf (t.waiters w).key := (Holds.mem_waitersOf sound).mpr ⟨queued, rfl⟩
    by_contra different
    rw [others _ different] at member
    simp at member
  have still : ∀ u, u ≠ w → (t.waiters u).queued = true →
      (s.table.waiters u).queued = true ∧ (s.table.waiters u).key = (t.waiters u).key := by
    intro u apart queued
    have member : u ∈ t.waitersOf (t.waiters u).key := (Holds.mem_waitersOf sound).mpr ⟨queued, rfl⟩
    apply (Holds.mem_waitersOf watched.sound).mp
    by_cases same : (t.waiters u).key = key
    · rw [same, own] at member
      rw [same]
      simpa [apart] using member
    · rw [others _ same] at member
      simpa [apart] using member
  have moved : Watched (s.go w .enqueued) := watched.go trivial
  refine ⟨sound, ?_, moved.compared, ?_, ?_, watched.writers, ?_, watched.numbers, moved.waking, watched.returned⟩
  · intro u queued
    dsimp only [System.go] at queued ⊢
    by_cases same : u = w
    · subst same
      rw [Function.update_self]
      exact self queued
    · obtain ⟨before, named⟩ := still u same queued
      rw [Function.update_of_ne same, ← named]
      exact watched.queued u before
  · intro u queued changed
    dsimp only [System.go] at queued changed ⊢
    by_cases same : u = w
    · subst same
      rw [Function.update_self] at changed ⊢
      obtain ⟨call, written, pending⟩ := watched.compared u key expected here changed
      exact ⟨call, written, .inl pending⟩
    · rw [Function.update_of_ne same] at changed ⊢
      exact watched.late u (still u same queued).1 changed
  · intro u key' call stored
    obtain ⟨small, writers, seers⟩ := moved.callers u key' call stored
    refine ⟨small, writers, fun v queued seen => ?_⟩
    dsimp only [System.go] at queued seen ⊢
    by_cases same : v = w
    · subst same
      rw [Function.update_self] at seen ⊢
      exact writers key seen
    · rw [Function.update_of_ne same] at seen ⊢
      exact seers v (still v same queued).1 seen
  · intro v call queued seen
    dsimp only [System.go] at queued seen ⊢
    by_cases same : v = w
    · subst same
      rw [Function.update_self] at seen
      exact watched.writers key call seen
    · rw [Function.update_of_ne same] at seen
      exact watched.seers v call (still v same queued).1 seen

theorem Watched.wake (watched : Watched s) {key : Key} {call : Nat} (here : s.place w = .stored key call)
    (orderly : Orderly s (.wake w)) (woken : Woken key 1 s.table t) :
    Watched ({ s with
      table := t
      woke := Function.update s.woke call (some (((s.table.waitersOf key).take 1).map some)) }.go w
        (.waking call (((s.table.waitersOf key).take 1).map some))) := by
  have fewer : ∀ key', ∀ u ∈ t.waitersOf key', u ∈ s.table.waitersOf key' := by
    intro key' u member
    by_cases same : key' = key
    · subst same
      rw [woken.source] at member
      exact List.mem_of_mem_drop member
    · rw [woken.others key' same] at member
      exact member
  have still := still_queued watched.sound woken.sound fewer
  obtain ⟨small, writers, seers⟩ := watched.callers w key call here
  have shrunk := watched.shrink woken.sound fewer
  have place : ∀ u place', place' ≠ .waking call (((s.table.waitersOf key).take 1).map some) →
      (s.go w (.waking call (((s.table.waitersOf key).take 1).map some))).place u = place' → s.place u = place' := by
    intro u place' special there
    by_cases own : u = w
    · subst own
      rw [go_self] at there
      exact absurd there.symm special
    · rwa [go_other own] at there
  refine ⟨woken.sound, shrunk.queued, ?_, ?_, ?_, watched.writers, shrunk.seers, ?_, ?_, ?_⟩
  · intro u key' expected there changed
    have compared := place u _ (by simp) there
    obtain ⟨call', written, pending⟩ := watched.compared u key' expected compared changed
    refine ⟨call', written, ?_⟩
    have different : call' ≠ call := by
      rintro rfl
      have same := writers key' written
      subst same
      rw [Orderly, here] at orderly
      have current := orderly u
      rw [compared] at current
      exact changed (current rfl)
    show Function.update s.woke call _ call' = none
    rw [Function.update_of_ne different]
    exact pending
  · intro u queued changed
    obtain ⟨before, named⟩ := still u queued
    obtain ⟨call', seen, rest⟩ := watched.late u before changed
    refine ⟨call', seen, ?_⟩
    show Function.update s.woke call _ call' = none ∨
      ∃ tasks other, Function.update s.woke call _ call' = some tasks ∧ some other ∈ tasks ∧ other ≠ u
    by_cases same : call' = call
    · subst same
      -- The waiter is still queued, so the first one in the queue was another.
      have word : (t.waiters u).key = key := by
        rw [← named, watched.queued u before]
        exact seers u before seen
      have left : u ∈ t.waitersOf key := (Holds.mem_waitersOf woken.sound).mpr ⟨queued, word⟩
      rw [woken.source] at left
      have nodup : (s.table.waitersOf key).Nodup := (watched.sound.linked (futexHash key)).nodup.filter _
      rw [Function.update_self]
      cases all : s.table.waitersOf key with
      | nil =>
        rw [all] at left
        cases left
      | cons first more =>
        rw [all] at left nodup
        refine .inr ⟨[some first], first, rfl, by simp, ?_⟩
        rintro rfl
        exact (List.nodup_cons.mp nodup).1 left
    · rw [Function.update_of_ne same]
      exact rest
  · intro u key' call' there
    have stored := place u _ (by simp) there
    obtain ⟨small', writers', seers'⟩ := watched.callers u key' call' stored
    exact ⟨small', writers', fun v queued => seers' v (still v queued).1⟩
  · intro call' some
    by_cases same : call' = call
    · subst same
      exact small
    · apply watched.numbers call'
      intro pending
      apply some
      show Function.update s.woke call _ call' = none
      rw [Function.update_of_ne same]
      exact pending
  · intro u call' tasks there
    show Function.update s.woke call _ call' ≠ none
    by_cases same : call' = call
    · subst same
      rw [Function.update_self]
      simp
    · rw [Function.update_of_ne same]
      apply watched.waking u call' tasks
      apply place u _ _ there
      intro equal
      cases equal
      exact same rfl
  · intro call' done
    show Function.update s.woke call _ call' ≠ none
    by_cases same : call' = call
    · subst same
      rw [Function.update_self]
      simp
    · rw [Function.update_of_ne same]
      exact watched.returned call' done

theorem Watched.step {op : Step} (watched : Watched s) (orderly : Orderly s op) (done : Futex.step s op = .ok s') :
    Watched s' := by
  cases op with
  | compare w key expected =>
    rw [Futex.step] at done
    split at done
    · split at done
      · rename_i same
        cases done
        exact watched.compare same
      · cases done
        exact watched
    · cases done
  | enqueue w =>
    rw [Futex.step] at done
    split at done
    · rename_i key expected here
      obtain ⟨t, ran, sound, own, others, -⟩ := watched.sound.enqueue w key
      rw [ran] at done
      cases done
      exact watched.enqueue here sound own others
    · cases done
  | block w =>
    rw [Futex.step] at done
    split at done
    · cases done
      refine Watched.go ?_ (show Place.sleeping.Plain from trivial)
      exact { watched with }
    · cases done
  | leave w =>
    rw [Futex.step] at done
    split at done
    · obtain ⟨t, ran, -, sound, less⟩ := watched.sound.reset w
      rw [ran] at done
      cases done
      refine Watched.go ?_ (show Place.idle.Plain from trivial)
      apply watched.shrink sound
      intro key u member
      rw [less key] at member
      exact List.mem_of_mem_filter member
    · cases done
  | store u key value =>
    rw [Futex.step] at done
    split at done
    · cases done
      exact watched.store key value
    · cases done
  | wake u =>
    rw [Futex.step] at done
    split at done
    · rename_i key call here
      obtain ⟨t, ran, woken⟩ := watched.sound.wake key 1
      rw [ran] at done
      cases done
      exact watched.wake here orderly woken
    · cases done
  | unblock u =>
    rw [Futex.step] at done
    split at done
    · rename_i call tasks here
      cases done
      refine Watched.go ?_ (show Place.idle.Plain from trivial)
      refine { watched with returned := ?_ }
      intro call' done
      dsimp only at done
      by_cases same : call' = call
      · subst same
        exact watched.waking u call' tasks here
      · rw [Function.update_of_ne same] at done
        exact watched.returned call' done
    · cases done
  | interrupt w =>
    cases done
    exact { watched with }
  | exit w =>
    rw [Futex.step] at done
    obtain ⟨t, -, ran, sound, less⟩ := watched.sound.reset w
    rw [ran] at done
    cases done
    refine Watched.go ?_ (show Place.gone.Plain from trivial)
    have shrunk : Watched { s with table := t } := by
      apply watched.shrink sound
      intro key u member
      rw [less key] at member
      exact List.mem_of_mem_filter member
    exact { shrunk with }

end

theorem watched_atRest (memory : Key → UInt32) : Watched (atRest memory) := by
  refine ⟨sound_init, ?_, ?_, ?_, ?_, ?_, ?_, ?_, ?_, ?_⟩
  · intro w queued
    cases queued
  · intro w key expected here
    cases here
  · intro w queued
    cases queued
  · intro u key call here
    cases here
  · intro key call written
    cases written
  · intro w call queued
    cases queued
  · intro call some
    exact absurd rfl some
  · intro u call tasks here
    cases here
  · intro call done
    cases done

/-- In every run with orderly wake-ups, no wake-up is lost. -/
theorem run_no_lost_wakeup {memory : Key → UInt32} {s : System} (run : Run step Orderly (atRest memory) s) : ¬ Lost s :=
  (run.invariant (watched_atRest memory) fun watched orderly done => watched.step orderly done).kept

/-- A waiter that queues in time is blocked until the one that changes its word wakes it. -/
theorem run_no_lost_wakeup_in_time : ∃ s, Run step Orderly (atRest fun _ => 0) s ∧
    (s.returned 0 = true ∧ s.place ⟨0, by decide⟩ = .sleeping ∧ (s.waits ⟨0, by decide⟩).key = ⟨1, 64⟩) ∧ ¬ Lost s := by
  have found : (runList step Orderly (atRest fun _ => 0)
      [.compare ⟨0, by decide⟩ ⟨1, 64⟩ 0, .enqueue ⟨0, by decide⟩, .block ⟨0, by decide⟩,
        .store ⟨1, by decide⟩ ⟨1, 64⟩ 1, .wake ⟨1, by decide⟩, .unblock ⟨1, by decide⟩]).any
      (fun s => decide (s.returned 0 = true ∧ s.place ⟨0, by decide⟩ = .sleeping ∧
        (s.waits ⟨0, by decide⟩).key = ⟨1, 64⟩)) = true := by
    decide
  obtain ⟨s, run, seen⟩ := runList_any found
  exact ⟨s, run, of_decide_eq_true seen, run_no_lost_wakeup run⟩

/-- The word is changed and its queue woken between a waiter's comparison and its queueing: the waiter sleeps on. -/
theorem changed_before_queued_lost : ∃ s, Run step (fun _ _ => True) (atRest fun _ => 0) s ∧ Lost s := by
  have found : (runList step (fun _ _ => True) (atRest fun _ => 0)
      [.compare ⟨0, by decide⟩ ⟨1, 64⟩ 0, .store ⟨1, by decide⟩ ⟨1, 64⟩ 1, .wake ⟨1, by decide⟩,
        .unblock ⟨1, by decide⟩, .enqueue ⟨0, by decide⟩, .block ⟨0, by decide⟩]).any
      (fun s => decide (s.place ⟨0, by decide⟩ = .sleeping ∧ s.blocked ⟨0, by decide⟩ = true ∧
        (s.table.waiters ⟨0, by decide⟩).queued = true ∧
        (s.waits ⟨0, by decide⟩).seen ≠ (s.waits ⟨0, by decide⟩).expected ∧
        (s.waits ⟨0, by decide⟩).writer = some 0 ∧ s.returned 0 = true ∧ s.woke 0 = some [])) = true := by
    decide
  obtain ⟨s, run, seen⟩ := runList_any found
  obtain ⟨sleeping, blocked, queued, late, writer, returned, nobody⟩ := of_decide_eq_true seen
  refine ⟨s, run, ⟨0, by decide⟩, 0, sleeping, blocked, queued, late, writer, returned, ?_⟩
  intro tasks woke other member
  rw [nobody] at woke
  cases woke
  cases member

end Enlil.Futex
