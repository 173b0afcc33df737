import Enlil.Kmon.Exclusion

/-! A broadcast against signals of the same condition one after the other. -/

namespace Enlil.Kmon

/-- Signals of a condition, one after the other. -/
def signals (k : State) (handle : UInt32) (cond : Nat) : Nat → State
  | 0 => k
  | n + 1 => signal (signals k handle cond n) handle cond

/-- The tasks that wait in a queue, from the head to the tail. -/
def State.tasksIn (k : State) (slot : Nat) (q : Queue) : List Nat :=
  ((k.pool slot).queue q).map fun w => (k.waiters w).task

/-- Two states agree about the owner of a monitor and the tasks that wait to enter it, and nobody waits for a condition in either. -/
structure Agree (slot cond : Nat) (k k' : State) : Prop where
  owner : (k.pool slot).owner = (k'.pool slot).owner
  enter : k.tasksIn slot .enter = k'.tasksIn slot .enter
  drained : k.tasksIn slot (.cond cond) = [] ∧ k'.tasksIn slot (.cond cond) = []

/-- Some records have moved from the queue of a condition to the end of the queue to enter, and others are left. -/
structure Moved (k : State) (slot cond : Nat) (moved left : List Nat) (k' : State) : Prop where
  current : k'.sched.current = k.sched.current
  pool : k'.pool = Function.update k.pool slot
    (((k.pool slot).setQueue (.cond cond) left).setQueue .enter ((k.pool slot).queue .enter ++ moved))
  task : ∀ w, (k'.waiters w).task = (k.waiters w).task

section

variable {k k' k'' : State} {slot cond : Nat} {handle : UInt32} {ws moved moved' left left' : List Nat}

theorem lend_current : (lend k slot).current = k.sched.current := by
  unfold lend
  split
  · rfl
  · split
    · rfl
    · split
      · exact (Sched.quiet_donate _).current
      · exact Sched.quiet_clear.current

theorem Moved.enqueued (k : State) (slot cond : Nat) (ws left : List Nat) (call : Call) (mon : Option Nat)
    (error : Option Errno) : Moved k slot cond ws left ((refreshOwner (ws.foldl (enqueue slot)
      (k.setMon slot fun mon => mon.setQueue (.cond cond) left)) slot).returns k.sched.current call mon error) where
  current := by
    refine lend_current.trans ?_
    rw [foldl_enqueue]
    rfl
  pool := by
    show (ws.foldl (enqueue slot) _).pool = _
    rw [foldl_enqueue, setMon_self, setQueue_other (by simp)]
    simp only [State.setMon, Function.update_idem]
  task w := by
    show ((ws.foldl (enqueue slot) _).waiters w).task = _
    rw [foldl_enqueue]
    show (signalled ws k.waiters w).task = _
    unfold signalled
    split <;> rfl

theorem Moved.none (empty : (k.pool slot).queue (.cond cond) = []) (call : Call) (mon : Option Nat)
    (error : Option Errno) : Moved k slot cond [] [] (k.returns k.sched.current call mon error) where
  current := rfl
  pool := by
    have same : ((k.pool slot).setQueue (.cond cond) []).setQueue .enter ((k.pool slot).queue .enter ++ []) =
        k.pool slot := by
      rw [List.append_nil, ← empty]
      simp [Monitor.setQueue]
    rw [same, Function.update_eq_self]
    rfl
  task _ := rfl

theorem Moved.queue (move : Moved k slot cond moved left k') : (k'.pool slot).queue (.cond cond) = left ∧
    (k'.pool slot).queue .enter = (k.pool slot).queue .enter ++ moved := by
  rw [move.pool, Function.update_self]
  exact ⟨by rw [setQueue_other (by simp), setQueue_self], setQueue_self ..⟩

theorem Moved.owner (move : Moved k slot cond moved left k') : (k'.pool slot).owner = (k.pool slot).owner := by
  rw [move.pool, Function.update_self]
  rfl

theorem Moved.trans (first : Moved k slot cond moved left k') (second : Moved k' slot cond moved' left' k'') :
    Moved k slot cond (moved ++ moved') left' k'' where
  current := second.current.trans first.current
  pool := by
    rw [second.pool, first.queue.2, first.pool, Function.update_self, Function.update_idem]
    congr 1
    simp only [Monitor.setQueue, Monitor.mk.injEq, true_and, List.append_assoc]
    funext q
    by_cases enter : q = .enter
    · simp [enter]
    · by_cases same : q = .cond cond
      · simp [same]
      · simp [enter, same]
  task w := (second.task w).trans (first.task w)

theorem Moved.owned (move : Moved k slot cond moved left k') (owned : ownedBy k handle = .ok slot) :
    ownedBy k' handle = .ok slot := by
  -- A monitor is found by what a move leaves alone.
  have same (s : Nat) : (k'.pool s).active = (k.pool s).active ∧ (k'.pool s).handle = (k.pool s).handle ∧
      (k'.pool s).owner = (k.pool s).owner ∧ (k'.pool s).entryCount = (k.pool s).entryCount := by
    rw [move.pool]
    by_cases own : s = slot
    · rw [own, Function.update_self]
      exact ⟨rfl, rfl, rfl, rfl⟩
    · rw [Function.update_of_ne own]
      exact ⟨rfl, rfl, rfl, rfl⟩
  have found : find k' handle = find k handle := by
    unfold find
    congr 1
    funext s
    rw [(same s).1, (same s).2.1]
  rw [← owned, ownedBy, ownedBy, found]
  cases find k handle with
  | none => rfl
  | some s =>
    dsimp only
    rw [(same s).2.2.1, (same s).2.2.2, move.current]

theorem signal_moved (small : cond < kmonMaxCond) (owned : ownedBy k handle = .ok slot) :
    Moved k slot cond (((k.pool slot).queue (.cond cond)).take 1) (((k.pool slot).queue (.cond cond)).drop 1)
      (signal k handle cond) := by
  rw [signal, if_neg (Nat.not_le.mpr small), owned]
  dsimp only
  cases waiting : (k.pool slot).queue (.cond cond) with
  | nil => exact .none waiting ..
  | cons target rest => exact .enqueued k slot cond [target] rest ..

theorem broadcast_moved (small : cond < kmonMaxCond) (owned : ownedBy k handle = .ok slot) :
    Moved k slot cond (((k.pool slot).queue (.cond cond)).rotate 1) [] (broadcast k handle cond) := by
  rw [broadcast, if_neg (Nat.not_le.mpr small), owned]
  dsimp only
  cases waiting : (k.pool slot).queue (.cond cond) with
  | nil => exact .none waiting ..
  | cons first rest =>
    rw [List.rotate_cons_succ, List.rotate_zero]
    exact .enqueued k slot cond (rest ++ [first]) [] ..

theorem signals_moved (small : cond < kmonMaxCond) (owned : ownedBy k handle = .ok slot) (n : Nat) :
    Moved k slot cond (((k.pool slot).queue (.cond cond)).take n) (((k.pool slot).queue (.cond cond)).drop n)
      (signals k handle cond n) := by
  induction n with
  | zero =>
    refine ⟨rfl, ?_, fun _ => rfl⟩
    show k.pool = _
    rw [List.take_zero, List.drop_zero, List.append_nil]
    simp [Monitor.setQueue]
  | succ n ih =>
    have next := signal_moved small (ih.owned owned)
    rw [ih.queue.1] at next
    have both := ih.trans next
    rwa [← List.take_add, List.drop_drop] at both

theorem Moved.enter (move : Moved k slot cond moved left k') :
    k'.tasksIn slot .enter = k.tasksIn slot .enter ++ moved.map fun w => (k.waiters w).task := by
  rw [State.tasksIn, move.queue.2, List.map_append]
  simp only [move.task]
  rfl

theorem rotate_one_eq_self (l : List Nat) : l.rotate 1 = l ↔ ∀ a ∈ l, ∀ b ∈ l, a = b := by
  rw [List.rotate_one_eq_self_iff_eq_replicate]
  constructor
  · rintro ⟨c, same⟩ a first b second
    rw [same] at first second
    exact (List.eq_of_mem_replicate first).trans (List.eq_of_mem_replicate second).symm
  · intro all
    cases l with
    | nil => exact ⟨0, rfl⟩
    | cons a rest => exact ⟨a, List.eq_replicate_iff.mpr ⟨rfl, fun b member => all b member a List.mem_cons_self⟩⟩

end

theorem moved_agrees {k : State} {handle : UInt32} {slot cond : Nat} (small : cond < kmonMaxCond)
    (owned : ownedBy k handle = .ok slot) :
    Agree slot cond (broadcast k handle cond) (signals k handle cond (k.tasksIn slot (.cond cond)).length) ↔
      ∀ t ∈ k.tasksIn slot (.cond cond), ∀ u ∈ k.tasksIn slot (.cond cond), t = u := by
  have count : (k.tasksIn slot (.cond cond)).length = ((k.pool slot).queue (.cond cond)).length := List.length_map ..
  have cast := broadcast_moved small owned
  have one := signals_moved small owned ((k.pool slot).queue (.cond cond)).length
  rw [List.take_length, List.drop_length] at one
  have tasks : (broadcast k handle cond).tasksIn slot .enter =
      (signals k handle cond ((k.pool slot).queue (.cond cond)).length).tasksIn slot .enter ↔
      (k.tasksIn slot (.cond cond)).rotate 1 = k.tasksIn slot (.cond cond) := by
    rw [cast.enter, one.enter, List.append_cancel_left_eq, List.map_rotate]
    rfl
  rw [count, ← rotate_one_eq_self, ← tasks]
  refine ⟨Agree.enter, fun same => ⟨cast.owner.trans one.owner.symm, same, ?_, ?_⟩⟩
  · rw [State.tasksIn, cast.queue.1, List.map_nil]
  · rw [State.tasksIn, one.queue.1, List.map_nil]

/--
A broadcast leaves a monitor as signals do that are made until nobody waits for the condition, exactly if no two tasks wait for it.

The number of signals is the least after which nobody waits.
-/
theorem broadcast_agrees {k : State} {handle : UInt32} {slot cond : Nat} (small : cond < kmonMaxCond)
    (owned : ownedBy k handle = .ok slot) :
    (∀ n, (signals k handle cond n).tasksIn slot (.cond cond) = [] ↔ (k.tasksIn slot (.cond cond)).length ≤ n) ∧
      (Agree slot cond (broadcast k handle cond) (signals k handle cond (k.tasksIn slot (.cond cond)).length) ↔
        ∀ t ∈ k.tasksIn slot (.cond cond), ∀ u ∈ k.tasksIn slot (.cond cond), t = u) := by
  refine ⟨fun n => ?_, moved_agrees small owned⟩
  have count : (k.tasksIn slot (.cond cond)).length = ((k.pool slot).queue (.cond cond)).length := List.length_map ..
  rw [count, State.tasksIn, (signals_moved small owned n).queue.1, List.map_eq_nil_iff, List.drop_eq_nil_iff]

/-- Two tasks wait for a condition, and a third one is in the monitor. -/
def twoWaiting : List Op :=
  [.turn (.createUser 64), .turn (.createUser 64), .turn (.createUser 64), .turn .block, .create 0 1, .enter 1,
    .wait 1 0 true, .turn .yield, .enter 1, .wait 1 0 true, .turn .yield, .enter 1]

/-- One task waits for a condition, and another one is in the monitor. -/
def oneWaiting : List Op :=
  [.turn (.createUser 64), .turn (.createUser 64), .turn .block, .create 0 1, .enter 1, .wait 1 0 true, .turn .yield, .enter 1]

theorem broadcasts_seen :
    (runList exec Settled kmonInit twoWaiting).any (fun k => decide (k.tasksIn 0 (.cond 0) = [2, 3] ∧
      (broadcast k 1 0).tasksIn 0 .enter = [3, 2] ∧ (signals k 1 0 2).tasksIn 0 .enter = [2, 3])) = true ∧
    (runList exec Settled kmonInit oneWaiting).any (fun k => decide (k.tasksIn 0 (.cond 0) = [2] ∧
      find k 1 = some 0 ∧ (k.pool 0).owner = some k.sched.current ∧ (k.pool 0).entryCount = 1)) = true := by
  decide +kernel

/-- The first of two waiting tasks comes last after a broadcast. -/
theorem broadcast_reorders : ∃ k, Run exec Settled kmonInit k ∧ k.tasksIn 0 (.cond 0) = [2, 3] ∧
    (broadcast k 1 0).tasksIn 0 .enter = [3, 2] ∧ (signals k 1 0 2).tasksIn 0 .enter = [2, 3] ∧
    ¬ Agree 0 0 (broadcast k 1 0) (signals k 1 0 2) := by
  obtain ⟨k, run, seen⟩ := runList_any broadcasts_seen.1
  obtain ⟨waiting, cast, one⟩ := of_decide_eq_true seen
  refine ⟨k, run, waiting, cast, one, fun agree => ?_⟩
  have same := agree.enter
  rw [cast, one] at same
  cases same

theorem broadcast_agrees_one : ∃ k, Run exec Settled kmonInit k ∧ k.tasksIn 0 (.cond 0) = [2] ∧
    Agree 0 0 (broadcast k 1 0) (signals k 1 0 1) := by
  obtain ⟨k, run, seen⟩ := runList_any broadcasts_seen.2
  obtain ⟨waiting, found, owner, entered⟩ := of_decide_eq_true seen
  have owned : ownedBy k 1 = .ok 0 := by
    rw [ownedBy, found]
    exact if_neg (by simp [owner, entered])
  have agrees := (broadcast_agrees (show 0 < kmonMaxCond by decide) owned).2
  rw [waiting] at agrees
  exact ⟨k, run, waiting, agrees.mpr (by simp)⟩

theorem run_sound {k : State} (run : Run exec Settled kmonInit k) : Sound k := by
  have both : Sound k ∧ Lawful k := by
    induction run with
    | start => exact ⟨sound_kmonInit, lawful_none rfl⟩
    | call op _ settled done ih => exact ih.1.step settled done
  exact both.1

/-- In a settled run no task waits for a condition twice, so a broadcast is like the signals exactly if one task waits at most. -/
theorem run_broadcast_agrees {k : State} (run : Run exec Settled kmonInit k) {handle : UInt32} {slot cond : Nat}
    (small : cond < kmonMaxCond) (owned : ownedBy k handle = .ok slot) :
    Agree slot cond (broadcast k handle cond) (signals k handle cond (k.tasksIn slot (.cond cond)).length) ↔
      (k.tasksIn slot (.cond cond)).length ≤ 1 := by
  have kept := (run_sound run).kept
  -- A task is at one place at a time, which tells its record.
  have once : (k.tasksIn slot (.cond cond)).Nodup := by
    refine (kept.once slot (.cond cond)).map_on fun w first v second same => ?_
    have here := (kept.queued slot _ w first).placed.resolve_left nofun
    have there := (kept.queued slot _ v second).placed.resolve_left nofun
    rw [same, there, Option.some.injEq, Prod.mk.injEq] at here
    exact here.1.symm
  refine (moved_agrees small owned).trans ⟨fun all => ?_, fun few t first u second => ?_⟩
  · rcases waiting : k.tasksIn slot (.cond cond) with _ | ⟨t, _ | ⟨u, rest⟩⟩
    · exact Nat.zero_le 1
    · exact le_refl 1
    · rw [waiting] at once all
      have same := all t List.mem_cons_self u (List.mem_cons_of_mem _ List.mem_cons_self)
      rw [same] at once
      exact absurd List.mem_cons_self (List.nodup_cons.mp once).1
  · obtain ⟨i, small, rfl⟩ := List.getElem_of_mem first
    obtain ⟨j, small', rfl⟩ := List.getElem_of_mem second
    congr 1
    omega

theorem run_broadcast_agrees_one : ∃ k, Run exec Settled kmonInit k ∧ k.tasksIn 0 (.cond 0) = [2] ∧
    Agree 0 0 (broadcast k 1 0) (signals k 1 0 (k.tasksIn 0 (.cond 0)).length) := by
  obtain ⟨k, run, seen⟩ := runList_any broadcasts_seen.2
  obtain ⟨waiting, found, owner, entered⟩ := of_decide_eq_true seen
  have owned : ownedBy k 1 = .ok 0 := by
    rw [ownedBy, found]
    exact if_neg (by simp [owner, entered])
  exact ⟨k, run, waiting, (run_broadcast_agrees run (by decide) owned).mpr (by simp [waiting])⟩

end Enlil.Kmon
