import Enlil.Lib.Run

/-! How `src/pthread.c` in the C library learns that a thread has exited: the word of its id, which the creator, the new thread's start and the kernel all write. -/

namespace Enlil.Pthread

/-- The next step of `pthread_create`. -/
inductive Creator where
  | clone
  | store
  | list
  | publish
  | returned
  deriving DecidableEq, Repr

inductive Child where
  | unborn
  /-- Cloned, but not scheduled yet. -/
  | ready
  | running
  | exited
  deriving DecidableEq, Repr

/-- The next step of the call that joins the thread. -/
inductive Joiner where
  | none
  | load
  /-- Before the wait, with the id that was loaded. -/
  | wait (tid : Nat)
  | asleep
  | joined
  deriving DecidableEq, Repr

/-- A thread object with those that work on it. -/
structure Thread where
  /-- The word that says whether the thread is there. -/
  tid : Nat
  /-- The id that `clone` gave to the thread. -/
  id : Nat
  detachFlag : Bool
  joinedFlag : Bool
  listedFlag : Bool
  freed : Bool
  creator : Creator
  child : Child
  joiner : Joiner

/-- An object in `pthread_create` before the call of `clone`. -/
def newThread (detached : Bool) : Thread := ⟨0, 0, detached, false, false, false, .clone, .unborn, .none⟩

inductive ThreadStep where
  /-- `pthread_create` goes on; a clone gives this id. -/
  | create (tid : Nat)
  /-- The thread is scheduled for the first time. -/
  | start
  | exit
  | detach
  | join
  /-- `pthread_join` goes on. -/
  | goOn
  /-- The wait of `pthread_join` ends although nobody woke it. -/
  | interrupt
  | reap
  deriving DecidableEq

/-- A detached thread is put on the list, once. -/
def detachedListAdd (t : Thread) : Thread := if t.listedFlag then t else { t with listedFlag := true }

/-- A thread on the list is freed if its word is zero. -/
def reapDetached (t : Thread) : Thread :=
  if t.listedFlag ∧ t.tid = 0 then { t with listedFlag := false, freed := true } else t

/-- A step of `pthread_create`. -/
def pthreadCreate (t : Thread) (tid : Nat) : Thread :=
  match t.creator with
  | .clone => { t with id := tid, child := .ready, creator := .store }
  | .store => { t with tid := t.id, creator := .list }
  | .list => { (if t.detachFlag then detachedListAdd t else t) with creator := .publish }
  | .publish => { t with creator := .returned }
  | .returned => t

/-- The kernel writes the id before the thread runs. -/
def taskBootstrap (t : Thread) : Thread := if t.child = .ready then { t with tid := t.id, child := .running } else t

/-- The kernel clears the word and wakes one that waits for it. -/
def taskFinishExit (t : Thread) : Thread :=
  if t.child = .ready ∨ t.child = .running then
    { t with tid := 0, child := .exited, joiner := if t.joiner = .asleep then .load else t.joiner }
  else t

def pthreadDetach (t : Thread) : Thread :=
  if t.joinedFlag ∨ t.detachFlag then t else reapDetached (detachedListAdd { t with detachFlag := true })

def pthreadJoin (t : Thread) : Thread :=
  if t.detachFlag ∨ t.joinedFlag then t else { t with joinedFlag := true, joiner := .load }

/-- A step in the loop of `pthread_join`, which frees the thread behind it. -/
def joinLoop (t : Thread) : Thread :=
  match t.joiner with
  | .load => if t.tid = 0 then { t with joiner := .joined, freed := true } else { t with joiner := .wait t.tid }
  | .wait tid => { t with joiner := if t.tid = tid then .asleep else .load }
  | _ => t

def Thread.exec (t : Thread) : ThreadStep → Except Empty Thread
  | .create tid => .ok (pthreadCreate t tid)
  | .start => .ok (taskBootstrap t)
  | .exit => .ok (taskFinishExit t)
  | .detach => .ok (pthreadDetach t)
  | .join => .ok (pthreadJoin t)
  | .goOn => .ok (joinLoop t)
  | .interrupt => .ok (if t.joiner = .asleep then { t with joiner := .load } else t)
  | .reap => .ok (reapDetached t)

/-- Somebody may have the handle: it was published, or the thread itself runs and may ask for it. -/
def Thread.known (t : Thread) : Prop := t.creator = .returned ∨ t.child = .running ∨ t.child = .exited

instance (t : Thread) : Decidable t.known := inferInstanceAs (Decidable (_ ∨ _))

/-- What a run may do: ids are not zero, and a handle is used where there is one, for an object that is still there. -/
def Thread.Allowed (t : Thread) : ThreadStep → Prop
  | .create tid => tid ≠ 0
  | .detach | .join => t.known ∧ t.freed = false
  | _ => True

/-- The creator has stored the id. -/
def Thread.stored (t : Thread) : Prop := t.creator ≠ .clone ∧ t.creator ≠ .store

instance (t : Thread) : Decidable t.stored := inferInstanceAs (Decidable (_ ∧ _))

/-- The discipline of a run: besides, the thread does not exit before its creator has stored its id. -/
def Thread.Ordered (t : Thread) (step : ThreadStep) : Prop := t.Allowed step ∧ (step = .exit → t.stored)

/-- The exit of a thread is seen: its word is zero when it was created, nobody sleeps for it, it is not freed before, and a detached one is freed by the next reap. -/
structure Thread.Observed (t : Thread) : Prop where
  cleared : t.child = .exited → t.creator = .returned → t.tid = 0
  awake : t.child = .exited → t.joiner ≠ .asleep
  freed : t.freed = true → t.child = .exited
  reaped : t.child = .exited → t.creator = .returned → t.detachFlag = true → (reapDetached t).freed = true

/-- What holds between the steps of an ordered run. -/
structure Thread.Intact (t : Thread) : Prop where
  unborn : t.creator = .clone ↔ t.child = .unborn
  id : t.creator ≠ .clone → t.id ≠ 0
  exited : t.child = .exited → t.stored ∧ t.tid = 0
  word : t.child ≠ .exited → t.child = .running ∨ t.stored → t.tid = t.id
  freed : t.freed = true → t.child = .exited
  /-- Who waits for the thread has a handle. -/
  waits : t.joiner ≠ .none → t.joinedFlag = true ∧ (t.child = .running ∨ t.stored)
  asleep : t.joiner = .asleep → t.child ≠ .exited
  loaded : ∀ tid, t.joiner = .wait tid → tid ≠ 0
  /-- What is on the list is detached, and was stored or runs. -/
  listed : t.listedFlag = true → t.detachFlag = true ∧ (t.child = .running ∨ t.stored)
  apart : t.detachFlag = true → t.joinedFlag = false
  detached : t.detachFlag = true → t.creator = .publish ∨ t.creator = .returned → t.listedFlag = true ∨ t.freed = true

section

variable {t t' : Thread}

theorem Thread.Intact.observed (intact : t.Intact) : t.Observed where
  cleared exited _ := (intact.exited exited).2
  awake exited asleep := intact.asleep asleep exited
  freed := intact.freed
  reaped exited returned detached := by
    unfold reapDetached
    rcases intact.detached detached (.inr returned) with listed | freed
    · rw [if_pos ⟨listed, (intact.exited exited).2⟩]
    · split
      · rfl
      · exact freed

theorem Thread.Intact.zero (intact : t.Intact) (seen : t.child = .running ∨ t.stored) (zero : t.tid = 0) :
    t.child = .exited := by
  by_contra live
  have word := intact.word live seen
  have some : t.creator ≠ .clone := by
    rcases seen with running | stored
    · exact fun unborn => by rw [intact.unborn.mp unborn] at running; cases running
    · exact stored.1
  exact intact.id some (word ▸ zero)

theorem newThread_intact (detached : Bool) : (newThread detached).Intact where
  unborn := ⟨fun _ => rfl, fun _ => rfl⟩
  id none := absurd rfl none
  exited := nofun
  word _ seen := seen.elim nofun fun stored => absurd rfl stored.1
  freed := nofun
  waits none := absurd rfl none
  asleep := nofun
  loaded _ := nofun
  listed := nofun
  apart _ := rfl
  detached _ either := either.elim nofun nofun

theorem Thread.Intact.list (intact : t.Intact) (place : t.creator = .list) :
    { (if t.detachFlag then detachedListAdd t else t) with creator := .publish }.Intact := by
  obtain ⟨unborn, id, exited, word, freed, waits, asleep, loaded, listed, apart, detached⟩ := intact
  have added : (if t.detachFlag then detachedListAdd t else t) = { t with listedFlag := t.detachFlag || t.listedFlag } := by
    unfold detachedListAdd
    cases t with
    | mk tid id detachFlag joinedFlag listedFlag freed creator child joiner => cases detachFlag <;> cases listedFlag <;> rfl
  rw [added]
  constructor <;> first | assumption | grind -ring -linarith [Thread.stored]

theorem Thread.Intact.create (intact : t.Intact) {tid : Nat} (some : tid ≠ 0) : (pthreadCreate t tid).Intact := by
  unfold pthreadCreate
  split
  · obtain ⟨unborn, id, exited, word, freed, waits, asleep, loaded, listed, apart, detached⟩ := intact
    constructor <;> first | assumption | grind -ring -linarith [Thread.stored]
  · obtain ⟨unborn, id, exited, word, freed, waits, asleep, loaded, listed, apart, detached⟩ := intact
    constructor <;> first | assumption | grind -ring -linarith [Thread.stored]
  · exact intact.list ‹_›
  · obtain ⟨unborn, id, exited, word, freed, waits, asleep, loaded, listed, apart, detached⟩ := intact
    constructor <;> first | assumption | grind -ring -linarith [Thread.stored]
  · exact intact

theorem Thread.Intact.start (intact : t.Intact) : (taskBootstrap t).Intact := by
  obtain ⟨unborn, id, exited, word, freed, waits, asleep, loaded, listed, apart, detached⟩ := intact
  unfold taskBootstrap
  split
  · constructor <;> first | assumption | grind -ring -linarith [Thread.stored]
  · constructor <;> assumption

theorem Thread.Intact.exit (intact : t.Intact) (stored : t.stored) : (taskFinishExit t).Intact := by
  obtain ⟨unborn, id, exited, word, freed, waits, asleep, loaded, listed, apart, detached⟩ := intact
  unfold taskFinishExit
  split
  · constructor <;> first | assumption | grind -ring -linarith [Thread.stored]
  · constructor <;> assumption

theorem Thread.Intact.goOn (intact : t.Intact) : (joinLoop t).Intact := by
  have zero := @Thread.Intact.zero t intact
  obtain ⟨unborn, id, exited, word, freed, waits, asleep, loaded, listed, apart, detached⟩ := intact
  unfold joinLoop
  split
  · split
    · constructor <;> first | assumption | grind -ring -linarith [Thread.stored]
    · constructor <;> first | assumption | grind -ring -linarith [Thread.stored]
  · constructor <;> first | assumption | grind -ring -linarith [Thread.stored]
  · constructor <;> assumption

theorem Thread.Intact.reap (intact : t.Intact) : (reapDetached t).Intact := by
  have zero := @Thread.Intact.zero t intact
  obtain ⟨unborn, id, exited, word, freed, waits, asleep, loaded, listed, apart, detached⟩ := intact
  unfold reapDetached
  split
  · constructor <;> first | assumption | grind -ring -linarith [Thread.stored]
  · constructor <;> assumption

theorem Thread.Intact.detach (intact : t.Intact) (known : t.known) : (pthreadDetach t).Intact := by
  unfold pthreadDetach
  split
  · exact intact
  · refine Thread.Intact.reap ?_
    obtain ⟨unborn, id, exited, word, freed, waits, asleep, loaded, listed, apart, detached⟩ := intact
    unfold detachedListAdd
    unfold Thread.known at known
    split
    · constructor <;> first | assumption | grind -ring -linarith [Thread.stored]
    · constructor <;> first | assumption | grind -ring -linarith [Thread.stored]

theorem Thread.Intact.join (intact : t.Intact) (known : t.known) : (pthreadJoin t).Intact := by
  unfold pthreadJoin
  split
  · exact intact
  · obtain ⟨unborn, id, exited, word, freed, waits, asleep, loaded, listed, apart, detached⟩ := intact
    unfold Thread.known at known
    constructor <;> first | assumption | grind -ring -linarith [Thread.stored]

theorem Thread.Intact.exec {step : ThreadStep} (intact : t.Intact) (ordered : t.Ordered step)
    (ran : t.exec step = .ok t') : t'.Intact := by
  obtain ⟨allowed, stored⟩ := ordered
  cases step with
  | create tid =>
    cases ran
    exact intact.create allowed
  | start =>
    cases ran
    exact intact.start
  | exit =>
    cases ran
    exact intact.exit (stored rfl)
  | detach =>
    cases ran
    exact intact.detach allowed.1
  | join =>
    cases ran
    exact intact.join allowed.1
  | goOn =>
    cases ran
    exact intact.goOn
  | interrupt =>
    cases ran
    obtain ⟨unborn, id, exited, word, freed, waits, asleep, loaded, listed, apart, detached⟩ := intact
    split
    · constructor <;> first | assumption | grind -ring -linarith [Thread.stored]
    · constructor <;> assumption
  | reap =>
    cases ran
    exact intact.reap

/-- A thread that exited before its id was stored: it has an id, and once that is stored its word stays so. -/
def Thread.Missed (t : Thread) : Prop := t.child = .exited ∧ t.id ≠ 0 ∧ (t.creator = .store ∨ (t.stored ∧ t.tid = t.id))

theorem Thread.Missed.exec {step : ThreadStep} (missed : t.Missed) (ran : t.exec step = .ok t') : t'.Missed := by
  obtain ⟨exited, id, word⟩ := missed
  unfold Thread.Missed
  cases step with
  | create tid =>
    cases ran
    unfold pthreadCreate detachedListAdd
    split <;> grind [Thread.stored]
  | start =>
    cases ran
    unfold taskBootstrap
    grind [Thread.stored]
  | exit =>
    cases ran
    unfold taskFinishExit
    grind [Thread.stored]
  | detach =>
    cases ran
    unfold pthreadDetach reapDetached detachedListAdd
    grind [Thread.stored]
  | join =>
    cases ran
    unfold pthreadJoin
    grind [Thread.stored]
  | goOn =>
    cases ran
    unfold joinLoop
    grind [Thread.stored]
  | interrupt =>
    cases ran
    grind [Thread.stored]
  | reap =>
    cases ran
    unfold reapDetached
    grind [Thread.stored]

/-- A thread that was cloned has an id. -/
def Thread.Named (t : Thread) : Prop := t.creator ≠ .clone → t.id ≠ 0

theorem Thread.Named.exec {step : ThreadStep} (named : t.Named) (allowed : t.Allowed step) (ran : t.exec step = .ok t') :
    t'.Named := by
  unfold Thread.Named at *
  cases step with
  | create tid =>
    have some : tid ≠ 0 := allowed
    cases ran
    unfold pthreadCreate detachedListAdd
    split <;> grind
  | start =>
    cases ran
    unfold taskBootstrap
    grind
  | exit =>
    cases ran
    unfold taskFinishExit
    grind
  | detach =>
    cases ran
    unfold pthreadDetach reapDetached detachedListAdd
    grind
  | join =>
    cases ran
    unfold pthreadJoin
    grind
  | goOn =>
    cases ran
    unfold joinLoop
    grind
  | interrupt =>
    cases ran
    grind
  | reap =>
    cases ran
    unfold reapDetached
    grind

/-- If a thread does not exit before its creator has stored its id, its exit is seen; if it does, its exit is not seen once it was created. -/
theorem run_observed (detached : Bool) :
    (∀ t, Run Thread.exec Thread.Ordered (newThread detached) t → t.Observed) ∧
    ∀ t t', Run Thread.exec Thread.Allowed (newThread detached) t → t.child = .exited → t.creator = .store →
      Run Thread.exec Thread.Allowed t t' → t'.creator = .returned → ¬ t'.Observed := by
  constructor
  · intro t run
    have intact : t.Intact := run.invariant (newThread_intact detached) fun intact ordered ran => intact.exec ordered ran
    exact intact.observed
  · intro t t' run exited place rest returned observed
    have named : t.Named := run.invariant (fun none => absurd rfl none) fun named allowed ran => named.exec allowed ran
    have missed : t'.Missed := by
      refine rest.invariant ⟨exited, named (by rw [place]; nofun), .inl place⟩ fun missed _ ran => missed.exec ran
    obtain ⟨exited, id, early | ⟨_, word⟩⟩ := missed
    · rw [returned] at early
      cases early
    · exact id (word ▸ observed.cleared exited returned)

end

instance (t : Thread) (step : ThreadStep) : Decidable (t.Allowed step) :=
  match step with
  | .create tid => inferInstanceAs (Decidable (tid ≠ 0))
  | .detach | .join => inferInstanceAs (Decidable (t.known ∧ t.freed = false))
  | .start | .exit | .goOn | .interrupt | .reap => inferInstanceAs (Decidable True)

/-- A thread runs and exits before `clone` has returned to its creator, which then stores the id and publishes the handle. -/
def shortLived : List ThreadStep := [.create 7, .start, .exit, .create 7, .create 7, .create 7]

/-- The exit of such a thread is not seen. -/
theorem run_not_observed : ¬ ∀ t, Run Thread.exec Thread.Allowed (newThread false) t → t.Observed := by
  intro claim
  have found : (runList Thread.exec Thread.Allowed (newThread false) shortLived).any
      (fun t => t.child == .exited && t.creator == .returned && t.tid == 7) = true := by decide
  obtain ⟨t, run, seen⟩ := runList_any found
  simp only [Bool.and_eq_true, beq_iff_eq] at seen
  have zero := (claim t run).cleared seen.1.1 seen.1.2
  rw [seen.2] at zero
  cases zero

end Enlil.Pthread
