import Enlil.Kmon.Monitor

/-! What each section of the monitor calls can do. -/

namespace Enlil.Kmon

/-- The record a task waits with, and the monitor it waits for. -/
def Place.record : Place → Option (Nat × Nat)
  | .idle | .reentering .. => none
  | .entering w slot _ | .blocking w slot _ | .polling w slot | .interrupting w slot | .waiting w slot _ _
  | .givingUp w slot _ _ | .taking w slot _ => some (w, slot)

section

variable {k k' : State} {slot w t i : Nat} {q : Queue} {handle : UInt32}

@[simp] theorem go_place_self {place : Place} : (k.go t place).place t = place := by
  simp [State.go]

@[simp] theorem go_place_other {place : Place} {u : Nat} (other : u ≠ t) : (k.go t place).place u = k.place u := by
  simp [State.go, other]

@[simp] theorem setMon_self {f : Monitor → Monitor} : (k.setMon slot f).pool slot = f (k.pool slot) := by
  simp [State.setMon]

@[simp] theorem setMon_other {f : Monitor → Monitor} {other : Nat} (apart : other ≠ slot) :
    (k.setMon slot f).pool other = k.pool other := by
  simp [State.setMon, apart]

@[simp] theorem setWaiter_self {f : Waiter → Waiter} : (k.setWaiter w f).waiters w = f (k.waiters w) := by
  simp [State.setWaiter]

@[simp] theorem setWaiter_other {f : Waiter → Waiter} {other : Nat} (apart : other ≠ w) :
    (k.setWaiter w f).waiters other = k.waiters other := by
  simp [State.setWaiter, apart]

@[simp] theorem setQueue_self {mon : Monitor} {records : List Nat} : (mon.setQueue q records).queue q = records := by
  simp [Monitor.setQueue]

@[simp] theorem setQueue_other {mon : Monitor} {records : List Nat} {q' : Queue} (apart : q' ≠ q) :
    (mon.setQueue q records).queue q' = mon.queue q' := by
  simp [Monitor.setQueue, apart]

theorem setInside_true {u s : Nat} (inside : (k.setInside t slot true).inside u s = true) :
    u = t ∧ s = slot ∨ k.inside u s = true := by
  by_cases own : u = t
  · subst own
    by_cases same : s = slot
    · exact .inl ⟨rfl, same⟩
    · simp only [State.setInside, Function.update_self, Function.update_of_ne same] at inside
      exact .inr inside
  · simp only [State.setInside, Function.update_of_ne own] at inside
    exact .inr inside

theorem setInside_false {u s : Nat} (inside : (k.setInside t slot false).inside u s = true) :
    k.inside u s = true ∧ ¬ (u = t ∧ s = slot) := by
  by_cases own : u = t
  · subst own
    by_cases same : s = slot
    · subst same
      simp [State.setInside] at inside
    · simp only [State.setInside, Function.update_self, Function.update_of_ne same] at inside
      exact ⟨inside, fun both => same both.2⟩
  · simp only [State.setInside, Function.update_of_ne own] at inside
    exact ⟨inside, fun both => own both.1⟩

theorem setMon_owner {f : Monitor → Monitor} (same : (f (k.pool slot)).owner = (k.pool slot).owner) (s : Nat) :
    ((k.setMon slot f).pool s).owner = (k.pool s).owner := by
  by_cases own : s = slot
  · rw [own, setMon_self, same]
  · rw [setMon_other own]

theorem setMon_active {f : Monitor → Monitor} (same : (f (k.pool slot)).active = (k.pool slot).active) (s : Nat) :
    ((k.setMon slot f).pool s).active = (k.pool s).active := by
  by_cases own : s = slot
  · rw [own, setMon_self, same]
  · rw [setMon_other own]

theorem pushTail_owner (k : State) (slot : Nat) (q : Queue) (w s : Nat) :
    ((pushTail k slot q w).pool s).owner = (k.pool s).owner :=
  setMon_owner rfl s

theorem pushTail_active (k : State) (slot : Nat) (q : Queue) (w s : Nat) :
    ((pushTail k slot q w).pool s).active = (k.pool s).active :=
  setMon_active rfl s

theorem pushTail_queue (k : State) (slot : Nat) (q : Queue) (w s : Nat) (q' : Queue) :
    ((pushTail k slot q w).pool s).queue q' =
    if s = slot ∧ q' = q then (k.pool s).queue q' ++ [w] else (k.pool s).queue q' := by
  rw [pushTail]
  by_cases own : s = slot
  · subst own
    rw [setMon_self]
    by_cases same : q' = q
    · subst same
      simp
    · simp [same]
  · rw [setMon_other own]
    simp [own]

theorem queueRemove_owner {from' : Option Queue} (s : Nat) :
    ((queueRemove k slot from' w).pool s).owner = (k.pool s).owner := by
  unfold queueRemove
  split
  · exact setMon_owner rfl s
  · rfl

theorem queueRemove_active {from' : Option Queue} (s : Nat) :
    ((queueRemove k slot from' w).pool s).active = (k.pool s).active := by
  unfold queueRemove
  split
  · exact setMon_active rfl s
  · rfl

theorem queueRemove_frame (k : State) (slot : Nat) (from' : Option Queue) (w : Nat) :
    (queueRemove k slot from' w).waiters = k.waiters ∧
    (queueRemove k slot from' w).place = k.place ∧ (queueRemove k slot from' w).inside = k.inside := by
  unfold queueRemove
  split <;> exact ⟨rfl, rfl, rfl⟩

theorem queueRemove_queue {from' : Option Queue} {s v : Nat} (member : v ∈ ((queueRemove k slot from' w).pool s).queue q) :
    v ∈ (k.pool s).queue q := by
  unfold queueRemove at member
  split at member
  · rename_i left
    by_cases own : s = slot
    · subst own
      rw [setMon_self] at member
      by_cases same : q = left
      · subst same
        rw [setQueue_self] at member
        exact List.mem_of_mem_erase member
      · rw [setQueue_other same] at member
        exact member
    · rw [setMon_other own] at member
      exact member
  · exact member

theorem queueRemove_sched {from' : Option Queue} : (queueRemove k slot from' w).sched = k.sched := by
  unfold queueRemove
  split <;> rfl

/-- The records that compete for the lock of a monitor after a signal. -/
def signalled (ws : List Nat) (waiters : Nat → Waiter) (w : Nat) : Waiter :=
  if w ∈ ws then { waiters w with queueKind := .enter, granted := false } else waiters w

theorem foldl_enqueue (ws : List Nat) (k : State) : ws.foldl (enqueue slot) k =
    { k with
      pool := Function.update k.pool slot ((k.pool slot).setQueue .enter ((k.pool slot).queue .enter ++ ws))
      waiters := signalled ws k.waiters } := by
  -- The list is taken from its end, where the last record joins.
  induction ws using List.reverseRecOn with
  | nil =>
    have none : signalled [] k.waiters = k.waiters := by
      funext v
      simp [signalled]
    simp [none, Monitor.setQueue]
  | append_singleton ws w ih =>
    rw [List.foldl_append, ih, List.foldl_cons, List.foldl_nil, enqueue, pushTail]
    simp only [State.setMon, State.setWaiter, Function.update_self, Function.update_idem, Monitor.setQueue,
      List.append_assoc, State.mk.injEq, true_and, and_true]
    funext v
    by_cases own : v = w
    · subst own
      rw [Function.update_self]
      by_cases member : v ∈ ws <;> simp [signalled, member]
    · rw [Function.update_of_ne own]
      simp [signalled, own]

theorem foldl_enqueue_frame {ws : List Nat} : (ws.foldl (enqueue slot) k).place = k.place := by
  rw [foldl_enqueue]

/-- The lock of a monitor went to the first task of a queue. -/
structure Handed (k : State) (slot : Nat) (q : Queue) (w : Nat) (rest : List Nat) (k' : State) : Prop where
  first : (k.pool slot).queue q = w :: rest
  pool : k'.pool = Function.update k.pool slot
    { (k.pool slot).setQueue q rest with owner := some (k.waiters w).task, entryCount := 1 }
  waiters : k'.waiters = Function.update k.waiters w { k.waiters w with queueKind := .none, granted := true }
  place : k'.place = k.place
  inside : k'.inside = k.inside

/-- Nobody waited for the lock of a monitor. -/
structure Vacated (k : State) (slot : Nat) (k' : State) : Prop where
  pool : k'.pool = Function.update k.pool slot { k.pool slot with owner := none, entryCount := 0 }
  waiters : k'.waiters = k.waiters
  place : k'.place = k.place
  inside : k'.inside = k.inside

theorem popNext_some {mon mon' : Monitor} (popped : mon.popNext = some (w, mon')) :
    ∃ q rest, (q = .urgent ∨ mon.queue .urgent = [] ∧ q = .enter) ∧ mon.queue q = w :: rest ∧
      mon' = mon.setQueue q rest := by
  rw [Monitor.popNext] at popped
  split at popped
  · rename_i first
    cases popped
    exact ⟨.urgent, _, .inl rfl, first, rfl⟩
  · rename_i none first
    cases popped
    exact ⟨.enter, _, .inr ⟨none, rfl⟩, first, rfl⟩
  · cases popped

theorem release_cases (k : State) (slot t : Nat) : Vacated k slot (release k slot t) ∨
    ∃ q w rest, (q = .urgent ∨ (k.pool slot).queue .urgent = [] ∧ q = .enter) ∧
      Handed k slot q w rest (release k slot t) := by
  have same : (takeBack k slot t).pool = k.pool := rfl
  cases popped : (k.pool slot).popNext with
  | none =>
    left
    rw [release, same, popped]
    exact ⟨rfl, rfl, rfl, rfl⟩
  | some pair =>
    obtain ⟨w, mon⟩ := pair
    obtain ⟨q, rest, which, first, rfl⟩ := popNext_some popped
    refine .inr ⟨q, w, rest, which, ?_⟩
    rw [release, same, popped]
    refine ⟨first, ?_, rfl, rfl, rfl⟩
    simp [wake, assignOwner, refreshOwner, State.setMon, State.setWaiter, takeBack, Function.update_idem]

theorem release_place : (release k slot t).place = k.place := by
  rcases release_cases k slot t with vacated | ⟨_, _, _, -, handed⟩
  · exact vacated.place
  · exact handed.place

theorem release_returned : (release k slot t).returned = k.returned := by
  rw [release]
  dsimp only
  split <;> rfl

theorem release_inside : (release k slot t).inside = k.inside := by
  rcases release_cases k slot t with vacated | ⟨_, _, _, -, handed⟩
  · exact vacated.inside
  · exact handed.inside

theorem release_queue {s v : Nat} (member : v ∈ ((release k slot t).pool s).queue q) : v ∈ (k.pool s).queue q := by
  rcases release_cases k slot t with vacated | ⟨q', w, rest, -, handed⟩
  · rw [vacated.pool] at member
    by_cases own : s = slot
    · subst own
      rw [Function.update_self] at member
      exact member
    · rw [Function.update_of_ne own] at member
      exact member
  · rw [handed.pool] at member
    by_cases own : s = slot
    · subst own
      rw [Function.update_self] at member
      by_cases same : q = q'
      · subst same
        rw [handed.first]
        simp only [setQueue_self] at member
        exact List.mem_cons_of_mem _ member
      · simp only [setQueue_other same] at member
        exact member
    · rw [Function.update_of_ne own] at member
      exact member

theorem release_task (v : Nat) : ((release k slot t).waiters v).task = (k.waiters v).task := by
  rcases release_cases k slot t with vacated | ⟨q', w, rest, -, handed⟩
  · rw [vacated.waiters]
  · rw [handed.waiters]
    by_cases own : v = w
    · rw [own, Function.update_self]
    · rw [Function.update_of_ne own]

theorem find_some (found : find k handle = some slot) :
    slot < kmonMax ∧ (k.pool slot).active = true ∧ (k.pool slot).handle = handle := by
  have range := List.mem_range.mp (List.mem_of_find?_eq_some found)
  have both := List.find?_some found
  rw [Bool.and_eq_true, decide_eq_true_eq] at both
  exact ⟨range, both.1, both.2⟩

theorem waiterAlloc_some {queueKind : QueueKind} (got : waiterAlloc k slot t queueKind i = some (w, k')) :
    w < kmonMaxWaiters ∧ (k.waiters w).active = false ∧
      k' = k.setWaiter w fun _ => ⟨true, queueKind, i, false, t, slot⟩ := by
  rw [waiterAlloc] at got
  split at got
  · cases got
  · rename_i w' found
    cases got
    refine ⟨List.mem_range.mp (List.mem_of_find?_eq_some found), ?_, rfl⟩
    simpa using List.find?_some found

theorem ownedBy_ok (owned : ownedBy k handle = .ok slot) :
    find k handle = some slot ∧ (k.pool slot).owner = some k.sched.current := by
  rw [ownedBy] at owned
  split at owned
  · cases owned
  · rename_i slot' found
    split at owned
    · cases owned
    · rename_i allowed
      cases owned
      rw [not_or, not_not] at allowed
      exact ⟨found, allowed.1⟩

theorem cleanupWaiter_frame (k : State) (t w : Nat) : (cleanupWaiter t k w).place = k.place ∧
    (cleanupWaiter t k w).inside = k.inside ∧ (cleanupWaiter t k w).returned = k.returned ∧
    (∀ v, ((cleanupWaiter t k w).waiters v).active = true →
      (cleanupWaiter t k w).waiters v = k.waiters v ∧ (v = w → (k.waiters v).task ≠ t)) := by
  rw [cleanupWaiter]
  split
  · obtain ⟨waiters, places, inside⟩ := queueRemove_frame k (k.waiters w).mon (k.waiters w).queueIn w
    have cleared : (waiterFree (refreshOwner (queueRemove k (k.waiters w).mon (k.waiters w).queueIn w)
        (k.waiters w).mon) w).waiters = Function.update k.waiters w Waiter.clear := by
      show Function.update (queueRemove k _ _ w).waiters w _ = _
      rw [waiters]
    refine ⟨places, inside, ?_, ?_⟩
    · show (queueRemove k _ _ w).returned = _
      unfold queueRemove
      split <;> rfl
    · intro v active
      dsimp only at active ⊢
      rw [cleared] at active ⊢
      by_cases own : v = w
      · subst own
        rw [Function.update_self] at active
        cases active
      · rw [Function.update_of_ne own]
        exact ⟨rfl, fun same => absurd same own⟩
  · rename_i other
    refine ⟨rfl, rfl, rfl, fun v active => ⟨rfl, ?_⟩⟩
    rintro rfl
    simpa [active] using other

theorem cleanupWaiter_queue {s v : Nat} (member : v ∈ ((cleanupWaiter t k w).pool s).queue q) :
    v ∈ (k.pool s).queue q := by
  rw [cleanupWaiter] at member
  split at member
  · exact queueRemove_queue member
  · exact member

theorem cleanupOwner_frame (k : State) (t slot : Nat) : (cleanupOwner t k slot).place = k.place ∧
    (cleanupOwner t k slot).inside = k.inside ∧ (cleanupOwner t k slot).returned = k.returned := by
  rw [cleanupOwner]
  split
  · exact ⟨release_place, release_inside, release_returned⟩
  · exact ⟨rfl, rfl, rfl⟩

theorem create_cases (k : State) (prioCeiling flags : UInt32) : (create k prioCeiling flags).2 = k ∨
    ∃ slot mon nextHandle, slot < kmonMax ∧ (k.pool slot).active = false ∧ mon.active = true ∧ mon.handle = k.nextHandle ∧
      mon.owner = none ∧ mon.queue = (fun _ => []) ∧
      (create k prioCeiling flags).2 = { k.setMon slot fun _ => mon with nextHandle := nextHandle } := by
  rw [create]
  split
  · exact .inl rfl
  · split
    · exact .inl rfl
    · rename_i slot k1 got
      rw [alloc] at got
      split at got
      · cases got
      · rename_i slot' found
        cases got
        refine .inr ⟨slot, { Monitor.clear with
          active := true
          handle := k.nextHandle
          prioCeiling := prioCeiling
          flags := flagsOf flags }, if k.nextHandle + 1 = 0 then 1 else k.nextHandle + 1,
          List.mem_range.mp (List.mem_of_find?_eq_some found), by simpa using List.find?_some found, rfl, rfl, rfl, rfl, ?_⟩
        dsimp only [State.setMon]
        rw [Function.update_self, Function.update_idem]

theorem destroy_cases (k : State) (handle : UInt32) : (destroy k handle).2 = k ∨
    ∃ slot, (k.pool slot).unused = true ∧ (destroy k handle).2 = k.setMon slot fun _ => Monitor.clear := by
  rw [destroy]
  split
  · exact .inl rfl
  · rename_i slot found
    split
    · rename_i unused
      exact .inr ⟨slot, unused, rfl⟩
    · exact .inl rfl

/-- Where a pass through a loop leads. -/
inductive Polled (k : State) : Place → Prop where
  | seen {w slot : Nat} (outcome : Outcome) : (k.place k.sched.current).record = some (w, slot) →
      (k.waiters w).granted = true → Polled k (.taking w slot outcome)
  | unseen {w slot : Nat} {within : Option Errno} : k.place k.sched.current = .entering w slot within →
      (k.waiters w).granted = false → Polled k (.blocking w slot within)
  | signal {w slot : Nat} : k.place k.sched.current = .polling w slot → (k.waiters w).granted = false →
      Polled k (.interrupting w slot)
  | giveUp {w slot : Nat} {handle : UInt32} {forever : Bool} (reason : Errno) :
      k.place k.sched.current = .waiting w slot handle forever → (k.waiters w).granted = false →
      Polled k (.givingUp w slot handle reason)

theorem poll_cases {signal expired : Bool} (done : poll k signal expired = .ok k') :
    k' = k ∨ ∃ place, Polled k place ∧ k' = k.go k.sched.current place := by
  rw [poll] at done
  split at done
  · rename_i w slot within here
    cases done
    split
    · rename_i granted
      exact .inr ⟨_, .seen _ (by rw [here]; rfl) granted, rfl⟩
    · rename_i waiting
      exact .inr ⟨_, .unseen here (by simpa using waiting), rfl⟩
  · rename_i w slot here
    cases done
    split
    · rename_i granted
      exact .inr ⟨_, .seen _ (by rw [here]; rfl) granted, rfl⟩
    · rename_i waiting
      split
      · exact .inr ⟨_, .signal here (by simpa using waiting), rfl⟩
      · exact .inl rfl
  · rename_i w slot handle forever here
    cases done
    split
    · rename_i granted
      exact .inr ⟨_, .seen _ (by rw [here]; rfl) granted, rfl⟩
    · rename_i waiting
      split
      · exact .inr ⟨_, .giveUp _ here (by simpa using waiting), rfl⟩
      · split
        · exact .inr ⟨_, .giveUp _ here (by simpa using waiting), rfl⟩
        · exact .inl rfl
  · cases done

theorem fromIdle_ok {result : Except Halt State} (done : fromIdle k result = .ok k') :
    k.place k.sched.current = .idle ∧ result = .ok k' := by
  rw [fromIdle] at done
  split at done
  · rename_i idle
    exact ⟨idle, done⟩
  · cases done

theorem turn_ok {op : Sched.Op} (done : turn k op = .ok k') :
    ∃ sched, Sched.exec k.sched op = .ok sched ∧ k' = { k with sched := sched } ∧
      (stopsItself op = true → k.place k.sched.current = .idle) := by
  rw [turn] at done
  split at done
  · cases done
  · rename_i sched ran
    split at done
    · obtain ⟨idle, same⟩ := fromIdle_ok done
      cases same
      exact ⟨sched, ran, rfl, fun _ => idle⟩
    · rename_i goesOn
      cases done
      exact ⟨sched, ran, rfl, fun stops => absurd stops goesOn⟩

/-- What the first section of an entry comes to. -/
inductive Entered (k : State) (handle : UInt32) (within : Option Errno) : State → Prop where
  | failed {mon : Option Nat} {error : Errno} : error ≠ .etimedout →
      (∀ slot, mon = some slot → (k.pool slot).owner ≠ some k.sched.current) →
      Entered k handle within (k.returns k.sched.current (outcomeOf within).call mon (some error))
  | took {slot : Nat} : find k handle = some slot → (k.pool slot).owner = none →
      Entered k handle within (((assignOwner k slot k.sched.current).setInside k.sched.current slot true).returns
        k.sched.current (outcomeOf within).call (some slot) (outcomeOf within).error)
  | queued {slot w : Nat} {place : Place} : find k handle = some slot →
      (k.pool slot).owner ≠ some k.sched.current → w < kmonMaxWaiters → (k.waiters w).active = false →
      (place = .entering w slot within ∨ place = .polling w slot ∧ within = none ∧
        ((lend (pushTail (k.setWaiter w fun _ => ⟨true, .enter, 0, false, k.sched.current, slot⟩) slot .enter w)
          slot).tcb k.sched.current).isUser = true) →
      Entered k handle within ((refreshOwner
        (pushTail (k.setWaiter w fun _ => ⟨true, .enter, 0, false, k.sched.current, slot⟩) slot .enter w) slot).go
          k.sched.current place)

theorem enterCommon_cases {within : Option Errno} (done : enterCommon k handle within.isNone within = .ok k') :
    Entered k handle within k' := by
  rw [enterCommon] at done
  dsimp only at done
  split at done
  · cases done
    refine .failed (by simp) ?_
    intro slot named
    cases named
  · rename_i slot found
    split at done
    · rename_i unowned
      cases done
      exact .took found unowned
    · rename_i owner owned
      split at done
      · cases done
      · rename_i other
        have outside : (k.pool slot).owner ≠ some k.sched.current := by
          rw [owned]
          exact fun same => other (Option.some.inj same)
        split at done
        · cases done
          refine .failed (by simp) ?_
          rintro _ ⟨⟩
          exact outside
        · rename_i w k1 got
          obtain ⟨small, free, rfl⟩ := waiterAlloc_some got
          cases done
          refine .queued found outside small free ?_
          split
          · exact .inl rfl
          · rename_i interruptible
            simp only [Bool.or_eq_true, Bool.not_eq_true', not_or, Bool.not_eq_false, Option.isNone_iff_eq_none]
              at interruptible
            exact .inr ⟨rfl, interruptible⟩

theorem enterCommon_panic {allowInterrupt : Bool} {within : Option Errno} {message : String}
    (panics : enterCommon k handle allowInterrupt within = .error (.panic message)) :
    ∃ slot, find k handle = some slot ∧ (k.pool slot).owner = some k.sched.current := by
  rw [enterCommon] at panics
  dsimp only at panics
  split at panics
  · cases panics
  · rename_i slot found
    split at panics
    · cases panics
    · rename_i owner owned
      split at panics
      · rename_i own
        exact ⟨slot, found, by rw [owned, own]⟩
      · split at panics <;> cases panics

/-- What an exit comes to. -/
inductive Exited (k : State) (handle : UInt32) : State → Prop where
  | failed {mon : Option Nat} {error : Errno} : Exited k handle (k.returns k.sched.current .exit mon (some error))
  | left {slot : Nat} : find k handle = some slot → (k.pool slot).owner = some k.sched.current →
      Exited k handle ((release ((k.setInside k.sched.current slot false).setMon slot fun mon =>
        { mon with entryCount := 0 }) slot k.sched.current).returns k.sched.current .exit (some slot) none)

theorem exit_cases (k : State) (handle : UInt32) : Exited k handle (exit k handle) := by
  rw [exit]
  dsimp only
  split
  · exact .failed
  · rename_i slot owned
    obtain ⟨found, owner⟩ := ownedBy_ok owned
    exact .left found owner

/-- The state in which a waiting task releases its monitor: it is queued already, and still the owner. -/
def waitsFor (k : State) (handle : UInt32) (cond : Nat) (forever : Bool) (slot w : Nat) : State :=
  (((pushTail (k.setWaiter w fun _ => ⟨true, .cond, cond, false, k.sched.current, slot⟩) slot (.cond cond) w).setMon slot
    fun mon => { mon with entryCount := 0 }).setInside k.sched.current slot false).go k.sched.current
      (.waiting w slot handle forever)

/-- What the first section of a wait comes to. -/
inductive WaitBegun (k : State) (handle : UInt32) (cond : Nat) (forever : Bool) : State → Prop where
  | failed {mon : Option Nat} {error : Errno} : error ≠ .etimedout →
      WaitBegun k handle cond forever (k.returns k.sched.current .wait mon (some error))
  | begun {slot w : Nat} : find k handle = some slot → (k.pool slot).owner = some k.sched.current →
      cond < kmonMaxCond → w < kmonMaxWaiters → (k.waiters w).active = false →
      WaitBegun k handle cond forever (release (waitsFor k handle cond forever slot w) slot k.sched.current)

theorem wait_cases (k : State) (handle : UInt32) (cond : Nat) (forever : Bool) :
    WaitBegun k handle cond forever (wait k handle cond forever) := by
  rw [wait]
  dsimp only
  split
  · exact .failed (by simp)
  · rename_i small
    split
    · rename_i error failed
      refine .failed ?_
      rintro rfl
      rw [ownedBy] at failed
      split at failed
      · cases failed
      · split at failed <;> cases failed
    · rename_i slot owned
      obtain ⟨found, owner⟩ := ownedBy_ok owned
      split
      · exact .failed (by simp)
      · rename_i w k1 got
        obtain ⟨range, free, rfl⟩ := waiterAlloc_some got
        exact .begun found owner (Nat.lt_of_not_le small) range free

/-- What a signal or a broadcast comes to: some records move from the queue of the condition to the queue to enter. -/
inductive Signalled (k : State) (call : Call) (cond : Nat) : State → Prop where
  | quiet {mon : Option Nat} {error : Option Errno} :
      Signalled k call cond (k.returns k.sched.current call mon error)
  | moved {slot : Nat} {ws rest : List Nat} : (ws ++ rest).Perm ((k.pool slot).queue (.cond cond)) →
      Signalled k call cond ((refreshOwner (ws.foldl (enqueue slot)
        (k.setMon slot fun mon => mon.setQueue (.cond cond) rest)) slot).returns k.sched.current call (some slot) none)

theorem signal_cases (k : State) (handle : UInt32) (cond : Nat) : Signalled k .signal cond (signal k handle cond) := by
  rw [signal]
  dsimp only
  split
  · exact .quiet
  · split
    · exact .quiet
    · rename_i slot owned
      split
      · exact .quiet
      · rename_i target rest waiting
        refine @Signalled.moved k .signal cond slot [target] rest ?_
        rw [waiting]
        exact List.Perm.refl _

theorem broadcast_cases (k : State) (handle : UInt32) (cond : Nat) :
    Signalled k .broadcast cond (broadcast k handle cond) := by
  rw [broadcast]
  dsimp only
  split
  · exact .quiet
  · split
    · exact .quiet
    · rename_i slot owned
      split
      · exact .quiet
      · rename_i first rest waiting
        refine @Signalled.moved k .broadcast cond slot (rest ++ [first]) [] ?_
        rw [waiting, List.append_nil]
        exact List.perm_append_singleton first rest

/-- What the section at the end of a loop comes to. -/
inductive Finished (k : State) : State → Prop where
  | took {w slot : Nat} {outcome : Outcome} : k.place k.sched.current = .taking w slot outcome →
      Finished k (((waiterFree k w).setInside k.sched.current slot true).returns k.sched.current outcome.call (some slot)
        outcome.error)
  | interrupted {w slot : Nat} : k.place k.sched.current = .interrupting w slot → (k.waiters w).granted = false →
      Finished k ((refreshOwner (waiterFree (queueRemove k slot (some .enter) w) w) slot).returns k.sched.current .enter
        (some slot) (some .eintr))
  | interruptedLate {w slot : Nat} : k.place k.sched.current = .interrupting w slot →
      ((k.waiters w).active = true → (k.waiters w).granted = true) →
      Finished k (k.returns k.sched.current .enter (some slot) (some .eintr))
  | gaveUp {w slot : Nat} {handle : UInt32} {reason : Errno} :
      k.place k.sched.current = .givingUp w slot handle reason → (k.waiters w).granted = false →
      Finished k ((waiterFree (queueRemove k slot (k.waiters w).queueIn w) w).go k.sched.current
        (.reentering handle reason))
  | gaveUpLate {w slot : Nat} {handle : UInt32} {reason : Errno} :
      k.place k.sched.current = .givingUp w slot handle reason →
      ((k.waiters w).active = true → (k.waiters w).granted = true) →
      Finished k (k.go k.sched.current (.reentering handle reason))
  | reentered {handle : UInt32} {reason : Errno} {k' : State} :
      k.place k.sched.current = .reentering handle reason → Entered k handle (some reason) k' → Finished k k'

theorem finish_cases (done : finish k = .ok k') : Finished k k' := by
  rw [finish] at done
  split at done
  · rename_i here
    cases done
    exact .took here
  · rename_i here
    cases done
    split
    · rename_i both
      rw [Bool.and_eq_true, Bool.not_eq_true'] at both
      exact .interrupted here both.2
    · rename_i late
      exact .interruptedLate here fun active => by simpa [active] using late
  · rename_i here
    cases done
    split
    · rename_i both
      rw [Bool.and_eq_true, Bool.not_eq_true'] at both
      exact .gaveUp here both.2
    · rename_i late
      exact .gaveUpLate here fun active => by simpa [active] using late
  · rename_i here
    exact .reentered here (enterCommon_cases done)
  · cases done

theorem block_cases (done : block k = .ok k') :
    ∃ w slot within sched, k.place k.sched.current = .blocking w slot within ∧
      Sched.schedBlock k.sched = some sched ∧
      k' = { k with sched := sched }.go k.sched.current (.entering w slot within) := by
  rw [block] at done
  split at done
  · rename_i w slot within here
    split at done
    · rename_i sched ran
      cases done
      exact ⟨w, slot, within, sched, here, ran, rfl⟩
    · cases done
  · cases done

end

end Enlil.Kmon
