import Enlil.Lib.Run

/-! The mutex of `src/pthread.c` in the C library: the atomic steps of lock, trylock and unlock by any number of threads. -/

namespace Enlil.Pthread

/-- Where a thread is in the calls of one mutex. -/
inductive Place where
  /-- Not in a call, and not the holder. -/
  | outside
  /-- In the loop of a lock, before its load. -/
  | load
  /-- In the loop, after the mutex was seen free. -/
  | takeFree
  /-- In the loop, after the mutex was seen held without waiters. -/
  | markHeld
  /-- In the loop, before the wait. -/
  | wait
  | asleep
  | holds
  /-- In an unlock, before the wake. -/
  | wake
  deriving DecidableEq, Repr

/-- A place where a thread is about to wake another one, or awake in the loop of a lock. -/
def Place.busy : Place → Bool
  | .load | .takeFree | .markHeld | .wait | .wake => true
  | _ => false

/-- The word of a mutex, and where each thread is. -/
structure Mutex (ι : Type) where
  state : Int
  place : ι → Place

section

variable {ι : Type} [DecidableEq ι]

def Mutex.goes (m : Mutex ι) (i : ι) (place : Place) : Mutex ι := { m with place := Function.update m.place i place }

/-- A mutex after `pthread_mutex_init`. -/
def pthreadMutexInit : Mutex ι := ⟨0, fun _ => .outside⟩

/-- One atomic step of a thread. -/
inductive MutexStep (ι : Type) where
  | lock (i : ι)
  | trylock (i : ι)
  | unlock (i : ι)
  /-- A thread goes on in the loop of a lock. -/
  | goOn (i : ι)
  /-- A wake that reaches these threads. -/
  | wake (i : ι) (woken : List ι)
  /-- A wait ends although nobody woke the thread. -/
  | interrupt (i : ι)

/-- The exchange from free to held that `pthread_mutex_lock` and `pthread_mutex_trylock` start with. -/
def tryTake (m : Mutex ι) (i : ι) (failed : Place) : Mutex ι :=
  if m.place i ≠ .outside then m
  else if m.state = 0 then { m with state := 1 }.goes i .holds
  else m.goes i failed

/-- A step in the loop of `pthread_mutex_lock`. -/
def lockLoop (m : Mutex ι) (i : ι) : Mutex ι :=
  match m.place i with
  | .load => m.goes i (if m.state = 0 then .takeFree else if m.state = 1 then .markHeld else .wait)
  | .takeFree => if m.state = 0 then { m with state := 2 }.goes i .holds else m.goes i .load
  | .markHeld => { m with state := if m.state = 1 then 2 else m.state }.goes i .wait
  -- The kernel compares the word and puts the thread to sleep in one step.
  | .wait => if m.state = 2 then m.goes i .asleep else m.goes i .load
  | _ => m

/-- The exchange of `pthread_mutex_unlock`. -/
def unlockExchange (m : Mutex ι) (i : ι) : Mutex ι :=
  if m.place i ≠ .holds then m
  else { m with state := 0 }.goes i (if m.state = 2 then .wake else .outside)

/-- The wake of `pthread_mutex_unlock`: the threads that it reaches go on in their loops. -/
def unlockWake (m : Mutex ι) (i : ι) (woken : List ι) : Mutex ι :=
  if m.place i ≠ .wake then m
  else { m with place := fun j => if j ∈ woken ∧ m.place j = Place.asleep then .load else m.place j }.goes i .outside

def Mutex.exec (m : Mutex ι) : MutexStep ι → Except Empty (Mutex ι)
  | .lock i => .ok (tryTake m i .load)
  | .trylock i => .ok (tryTake m i .outside)
  | .unlock i => .ok (unlockExchange m i)
  | .goOn i => .ok (lockLoop m i)
  | .wake i woken => .ok (unlockWake m i woken)
  | .interrupt i => .ok (if m.place i = .asleep then m.goes i .load else m)

/-- The discipline of a run: unlocks are made by the holder, and the kernel's wake reaches a sleeping thread if there is one. -/
def Mutex.Allowed (m : Mutex ι) : MutexStep ι → Prop
  | .unlock i => m.place i = .holds
  | .wake _ woken => (∃ j, m.place j = .asleep) → ∃ j ∈ woken, m.place j = .asleep
  | _ => True

/-- At most one thread holds the mutex. -/
def Mutex.Exclusive (m : Mutex ι) : Prop := ∀ i j, m.place i = .holds → m.place j = .holds → i = j

/-- Some thread sleeps although the mutex is free or held without waiters, and nobody will see to it. -/
def Mutex.Stuck (m : Mutex ι) : Prop :=
  (∃ i, m.place i = .asleep) ∧ (m.state = 0 ∨ m.state = 1) ∧ ∀ j, (m.place j).busy = false

/-- What holds between the steps: the word is that of a free mutex exactly if nobody holds it, and a thread that sleeps has its word marked or somebody who will see to it. -/
structure Mutex.Intact (m : Mutex ι) : Prop where
  exclusive : m.Exclusive
  word : m.state = 0 ∨ m.state = 1 ∨ m.state = 2
  free : ∀ i, m.place i = .holds → m.state ≠ 0
  held : m.state ≠ 0 → ∃ i, m.place i = .holds
  watched : ∀ i, m.place i = .asleep → m.state = 2 ∨ ∃ j, (m.place j).busy = true

variable {m : Mutex ι} {i j : ι} {place : Place}

@[simp] theorem goes_state : (m.goes i place).state = m.state := rfl

@[simp] theorem goes_self : (m.goes i place).place i = place := Function.update_self _ _ _

theorem goes_ne (other : j ≠ i) : (m.goes i place).place j = m.place j := Function.update_of_ne other _ _

theorem Mutex.Intact.goes (intact : m.Intact) {state : Int} (marked : state = m.state ∨ (m.state = 1 ∧ state = 2))
    (before : m.place i ≠ .holds) (after : place ≠ .holds) (seen : place.busy = true ∨ (place = .asleep ∧ state = 2)) :
    ({ m with state }.goes i place).Intact := by
  have same (a : ι) : ({ m with state }.goes i place).place a = .holds ↔ m.place a = .holds := by
    by_cases here : a = i
    · subst here
      rw [goes_self]
      exact iff_of_false after before
    · rw [goes_ne here]
  have zero : state = 0 ↔ m.state = 0 := by omega
  refine ⟨fun a b holdsA holdsB => ?_, ?_, fun a holds => ?_, fun taken => ?_, fun a asleep => ?_⟩
  · exact intact.exclusive a b ((same a).mp holdsA) ((same b).mp holdsB)
  · have := intact.word
    show state = 0 ∨ state = 1 ∨ state = 2
    omega
  · exact fun none => intact.free a ((same a).mp holds) (zero.mp none)
  · obtain ⟨a, holds⟩ := intact.held fun none => taken (zero.mpr none)
    exact ⟨a, (same a).mpr holds⟩
  · rcases seen with busy | ⟨_, two⟩
    · exact .inr ⟨i, by rw [goes_self]; exact busy⟩
    · exact .inl two

theorem Mutex.Intact.takes (intact : m.Intact) (none : m.state = 0) {state : Int}
    (seen : (state = 1 ∧ m.place i = .outside) ∨ state = 2) : ({ m with state }.goes i .holds).Intact := by
  have nobody (a : ι) (holds : m.place a = .holds) : False := intact.free a holds none
  have only (a : ι) (holds : ({ m with state }.goes i .holds).place a = .holds) : a = i := by
    by_contra other
    rw [goes_ne other] at holds
    exact nobody a holds
  refine ⟨fun a b holdsA holdsB => (only a holdsA).trans (only b holdsB).symm, ?_, fun _ _ => ?_,
    fun _ => ⟨i, goes_self⟩, fun a asleep => ?_⟩
  · show state = 0 ∨ state = 1 ∨ state = 2
    omega
  · show state ≠ 0
    omega
  · rcases seen with ⟨_, outside⟩ | two
    · have other : a ≠ i := fun same => by rw [same, goes_self] at asleep; cases asleep
      rw [goes_ne other] at asleep
      obtain two | ⟨b, busy⟩ := intact.watched a asleep
      · omega
      · have away : b ≠ i := fun same => by rw [same, outside] at busy; cases busy
        exact .inr ⟨b, by rw [goes_ne away]; exact busy⟩
    · exact .inl two

theorem Mutex.Intact.frees (intact : m.Intact) (holder : m.place i = .holds) :
    ({ m with state := 0 }.goes i (if m.state = 2 then .wake else .outside)).Intact := by
  have nobody (a : ι) : ({ m with state := 0 }.goes i (if m.state = 2 then .wake else .outside)).place a ≠ .holds := by
    by_cases here : a = i
    · subst here
      rw [goes_self]
      split <;> nofun
    · rw [goes_ne here]
      exact fun holds => here (intact.exclusive a i holds holder)
  refine ⟨fun a _ holds => absurd holds (nobody a), .inl rfl, fun a holds => absurd holds (nobody a),
    fun taken => absurd rfl taken, fun a asleep => .inr ?_⟩
  by_cases two : m.state = 2
  · exact ⟨i, by rw [goes_self, if_pos two]; rfl⟩
  · rw [if_neg two] at asleep ⊢
    have other : a ≠ i := fun same => by rw [same, goes_self] at asleep; cases asleep
    rw [goes_ne other] at asleep
    obtain ⟨b, busy⟩ := (intact.watched a asleep).resolve_left two
    have away : b ≠ i := fun same => by rw [same, holder] at busy; cases busy
    exact ⟨b, by rw [goes_ne away]; exact busy⟩

theorem Mutex.Intact.wakes (intact : m.Intact) {woken : List ι} (waking : m.place i = .wake)
    (reached : (∃ j, m.place j = .asleep) → ∃ j ∈ woken, m.place j = .asleep) : (unlockWake m i woken).Intact := by
  have elsewhere (a : ι) (other : a ≠ i) : (unlockWake m i woken).place a =
      if a ∈ woken ∧ m.place a = .asleep then .load else m.place a := by
    rw [unlockWake, if_neg (not_not.mpr waking), goes_ne other]
  have here : (unlockWake m i woken).place i = .outside := by
    rw [unlockWake, if_neg (not_not.mpr waking), goes_self]
  have word : (unlockWake m i woken).state = m.state := by
    rw [unlockWake, if_neg (not_not.mpr waking)]
    rfl
  have same (a : ι) : (unlockWake m i woken).place a = .holds ↔ m.place a = .holds := by
    by_cases other : a = i
    · subst other
      rw [here, waking]
      exact iff_of_false nofun nofun
    · rw [elsewhere a other]
      split
      · rename_i slept
        rw [slept.2]
        exact iff_of_false nofun nofun
      · rfl
  refine ⟨fun a b holdsA holdsB => intact.exclusive a b ((same a).mp holdsA) ((same b).mp holdsB), ?_,
    fun a holds => ?_, fun taken => ?_, fun a asleep => .inr ?_⟩
  · rw [word]
    exact intact.word
  · rw [word]
    exact intact.free a ((same a).mp holds)
  · obtain ⟨a, holds⟩ := intact.held (word ▸ taken)
    exact ⟨a, (same a).mpr holds⟩
  · have slept : m.place a = .asleep := by
      by_cases other : a = i
      · rw [other, here] at asleep
        cases asleep
      · rw [elsewhere a other] at asleep
        split at asleep
        · cases asleep
        · exact asleep
    -- One of the sleepers was reached, and is in the loop of its lock now.
    obtain ⟨b, member, sleeps⟩ := reached ⟨a, slept⟩
    have other : b ≠ i := fun same => by rw [same, waking] at sleeps; cases sleeps
    exact ⟨b, by rw [elsewhere b other, if_pos ⟨member, sleeps⟩]; rfl⟩

theorem Mutex.Intact.exec {m' : Mutex ι} {step : MutexStep ι} (intact : m.Intact) (allowed : m.Allowed step)
    (ran : m.exec step = .ok m') : m'.Intact := by
  have fast (i : ι) {failed : Place} (either : failed = .load ∨ failed = .outside) : (tryTake m i failed).Intact := by
    unfold tryTake
    split
    · exact intact
    rename_i outside
    rw [not_not] at outside
    split
    · rename_i free
      exact intact.takes free (.inl ⟨rfl, outside⟩)
    · rcases either with rfl | rfl
      · exact intact.goes (.inl rfl) (by rw [outside]; nofun) nofun (.inl rfl)
      · have stays : m.goes i .outside = m := by
          unfold Mutex.goes
          rw [← outside, Function.update_eq_self]
        rw [stays]
        exact intact
  cases step with
  | lock i =>
    cases ran
    exact fast i (.inl rfl)
  | trylock i =>
    cases ran
    exact fast i (.inr rfl)
  | unlock i =>
    cases ran
    have holder : m.place i = .holds := allowed
    rw [unlockExchange, if_neg (not_not.mpr holder)]
    exact intact.frees holder
  | goOn i =>
    cases ran
    have stays {place : Place} (at_i : m.place i ≠ .holds) (after : place ≠ .holds) (busy : place.busy = true) :
        (m.goes i place).Intact := intact.goes (.inl rfl) at_i after (.inl busy)
    unfold lockLoop
    split
    · rename_i at_i
      refine stays (by rw [at_i]; nofun) ?_ ?_
      · split_ifs <;> nofun
      · split_ifs <;> rfl
    · rename_i at_i
      split
      · rename_i free
        exact intact.takes free (.inr rfl)
      · exact stays (by rw [at_i]; nofun) nofun rfl
    · rename_i at_i
      refine intact.goes ?_ (by rw [at_i]; nofun) nofun (.inl rfl)
      split
      · exact .inr ⟨‹_›, rfl⟩
      · exact .inl rfl
    · rename_i at_i
      split
      · rename_i two
        exact intact.goes (.inl rfl) (by rw [at_i]; nofun) nofun (.inr ⟨rfl, two⟩)
      · exact stays (by rw [at_i]; nofun) nofun rfl
    · exact intact
  | wake i woken =>
    cases ran
    by_cases waking : m.place i = .wake
    · exact intact.wakes waking allowed
    · rw [unlockWake, if_pos waking]
      exact intact
  | interrupt i =>
    cases ran
    split
    · rename_i asleep
      exact intact.goes (.inl rfl) (by rw [asleep]; nofun) nofun (.inl rfl)
    · exact intact

omit [DecidableEq ι] in
theorem pthreadMutexInit_intact : (pthreadMutexInit : Mutex ι).Intact :=
  ⟨fun _ _ => nofun, .inl rfl, fun _ => nofun, fun taken => absurd rfl taken, fun _ => nofun⟩

/-- In every run at most one thread holds the mutex, and nobody sleeps on it forgotten. -/
theorem run_exclusive_not_stuck (run : Run Mutex.exec Mutex.Allowed pthreadMutexInit m) : m.Exclusive ∧ ¬ m.Stuck := by
  have intact : m.Intact := run.invariant pthreadMutexInit_intact fun intact allowed ran => intact.exec allowed ran
  refine ⟨intact.exclusive, fun ⟨⟨i, asleep⟩, unmarked, nobody⟩ => ?_⟩
  rcases intact.watched i asleep with two | ⟨j, busy⟩
  · omega
  · rw [nobody j] at busy
    cases busy

end

instance (m : Mutex Bool) (step : MutexStep Bool) : Decidable (m.Allowed step) :=
  match step with
  | .unlock i => inferInstanceAs (Decidable (m.place i = .holds))
  | .wake _ woken => inferInstanceAs (Decidable ((∃ j, m.place j = .asleep) → ∃ j ∈ woken, m.place j = .asleep))
  | .lock _ | .trylock _ | .goOn _ | .interrupt _ => inferInstanceAs (Decidable True)

/-- A second thread goes to sleep, and the first one frees the mutex. -/
def contended : List (MutexStep Bool) :=
  [.lock false, .lock true, .goOn true, .goOn true, .goOn true, .unlock false]

theorem run_exclusive_not_stuck_contended : ∃ m : Mutex Bool, m.place true = .asleep ∧ m.state = 0 ∧ m.Exclusive ∧ ¬ m.Stuck := by
  have found : (runList Mutex.exec Mutex.Allowed pthreadMutexInit contended).any
      (fun m => m.place true == .asleep && m.state == 0) = true := by decide
  obtain ⟨m, run, seen⟩ := runList_any found
  rw [Bool.and_eq_true, beq_iff_eq, beq_iff_eq] at seen
  exact ⟨m, seen.1, seen.2, run_exclusive_not_stuck run⟩

end Enlil.Pthread
