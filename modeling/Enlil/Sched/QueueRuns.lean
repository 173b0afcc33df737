import Enlil.Lib.Run
import Enlil.Sched.QueueCalls

/-! Which runs of the scheduler keep every ready task in its queue. -/

namespace Enlil.Sched

/-- One atomic section of the scheduler. -/
inductive Op where
  | createTask (priority : UInt8)
  | createUser (priority : UInt8)
  | forkUser (priority : UInt8)
  | cloneThread (priority : UInt8)
  | schedule
  | exception
  | yield
  | block
  | unblock (t : Nat)
  | stop
  | continue (t : Nat)
  | kill (t : Nat)
  | tick (jiffies : Nat) (timerExpired : Bool)
  | donate (t : Nat) (prio : UInt8)
  | clear (t : Nat)
  | exitBegin (t : Nat) (code : Int)
  | exitEnd (t : Nat) (code : Int)

/-- A loop that does not end stops the kernel. -/
def orSpin : Option State → Except Halt State
  | some s => .ok s
  | none => .error .spin

theorem orSpin_ok {s : State} {result : Option State} (returned : orSpin result = .ok s) : result = some s := by
  cases result with
  | none => cases returned
  | some s =>
    cases returned
    rfl

/-- Forgets which task was created. -/
def created : Except Halt (Nat × State) → Except Halt State
  | .ok (_, s) => .ok s
  | .error halt => .error halt

/-- Carries out one section. -/
def exec (s : State) : Op → Except Halt State
  | .createTask priority => created (schedTaskCreate s priority)
  | .createUser priority => created (schedTaskCreateUser s priority)
  | .forkUser priority => created (schedTaskForkUser s priority)
  | .cloneThread priority => created (schedTaskCloneUserThread s priority)
  | .schedule => orSpin (schedule s)
  | .exception => orSpin (scheduleFromException s)
  | .yield => orSpin (schedYield s)
  | .block => orSpin (schedBlock s)
  | .unblock t => .ok (schedUnblock s t)
  | .stop => .ok (signalStopCurrent s)
  | .continue t => .ok (signalContinue s t)
  | .kill t => .ok (signalKill s t)
  | .tick jiffies timerExpired => .ok (schedTick s jiffies timerExpired)
  | .donate t prio => .ok (schedTaskDonatePriority s t prio)
  | .clear t => .ok (schedTaskClearDonation s t)
  | .exitBegin t code => .ok (finishExitBegin s t code)
  | .exitEnd t code => .ok (finishExitEnd s t code)

/-- The task a section is about is one of the pool. -/
def Op.Valid (s : State) : Op → Prop
  | .unblock t | .continue t | .kill t | .donate t _ | .clear t | .exitBegin t _ | .exitEnd t _ => t < s.taskCount
  | _ => True

/--
The sections that keep the queues right.

A task that was made ready while it ran must not be the one a switch would drop, and must be it when it blocks;
it cannot be marked as stopped.
A task is not ended while it is ready.
-/
def Op.Safe (s : State) : Op → Prop
  | .schedule | .yield => ¬ AtFront s
  | .exception => s.needResched = true → ¬ AtFront s
  | .block => (s.tcb s.current).state = .ready → AtFront s
  | .stop => (s.tcb s.current).state ≠ .ready
  | .exitBegin t _ => t = s.current ∨ (s.tcb t).state ≠ .ready
  | .exitEnd t _ => (s.tcb t).state ≠ .ready
  | _ => True

instance (s : State) (op : Op) : Decidable (op.Valid s) :=
  match op with
  | .unblock t | .continue t | .kill t | .donate t _ | .clear t | .exitBegin t _ | .exitEnd t _ =>
    inferInstanceAs (Decidable (t < s.taskCount))
  | .createTask _ | .createUser _ | .forkUser _ | .cloneThread _ | .schedule | .exception | .yield | .block | .stop
  | .tick _ _ => inferInstanceAs (Decidable True)

instance (s : State) (op : Op) : Decidable (op.Safe s) :=
  match op with
  | .schedule | .yield => inferInstanceAs (Decidable (¬ AtFront s))
  | .exception => inferInstanceAs (Decidable (s.needResched = true → ¬ AtFront s))
  | .block => inferInstanceAs (Decidable ((s.tcb s.current).state = .ready → AtFront s))
  | .stop => inferInstanceAs (Decidable ((s.tcb s.current).state ≠ .ready))
  | .exitBegin t _ => inferInstanceAs (Decidable (t = s.current ∨ (s.tcb t).state ≠ .ready))
  | .exitEnd t _ => inferInstanceAs (Decidable ((s.tcb t).state ≠ .ready))
  | .createTask _ | .createUser _ | .forkUser _ | .cloneThread _ | .unblock _ | .continue _ | .kill _ | .tick _ _
  | .donate _ _ | .clear _ => inferInstanceAs (Decidable True)

section

variable {s s' : State} {t : Nat}

theorem setTcb_id : s.setTcb t id = s := by
  simp [State.setTcb]

theorem atFront_resched (asked : Bool) : AtFront { s with needResched := asked } ↔ AtFront s := by
  unfold AtFront takeFirst
  dsimp only
  cases bitmapFindFirst s.readyBitmap with
  | none => rfl
  | some p => cases queue : s.runQueue (UInt8.ofNat p) <;> simp [queue]

theorem exec_switch (queues : Queues ∅ s) (op : Op) (switches : op = .schedule ∨ op = .yield) :
    ∃ s' f, exec s op = .ok s' ∧ Switch s ∅ f s' ∧ (f (s.tcb s.current)).state = (s.tcb s.current).state ∧
      effPrioOf (f (s.tcb s.current)) = effPrioOf (s.tcb s.current) := by
  rcases switches with rfl | rfl
  · obtain ⟨s', switched, switch⟩ := scheduleLocked_switch queues id
    rw [setTcb_id] at switched
    exact ⟨s', id, by simp [exec, schedule, switched, orSpin], switch, rfl, rfl⟩
  · obtain ⟨s', switched, switch⟩ := scheduleLocked_switch queues fun t => { t with ticksLeft := 0 }
    exact ⟨s', _, by simp [exec, schedYield, switched, orSpin], switch, rfl, rfl⟩

theorem exec_exception (queues : Queues ∅ s) (asked : s.needResched = true) :
    ∃ s', exec s .exception = .ok s' ∧ Switch { s with needResched := false } ∅ id s' := by
  have queues' : Queues ∅ { s with needResched := false } :=
    ⟨queues.bit, queues.once, queues.ready, queues.member⟩
  obtain ⟨s', switched, switch⟩ := scheduleLocked_switch queues' id
  rw [setTcb_id] at switched
  exact ⟨s', by simp [exec, scheduleFromException, asked, switched, orSpin], switch⟩

theorem exec_block (queues : Queues ∅ s) :
    ∃ s', exec s .block = .ok s' ∧ Switch s ∅ (fun t => { t with state := .blocked }) s' := by
  obtain ⟨s', switched, switch⟩ := scheduleLocked_switch queues fun t => { t with state := .blocked }
  exact ⟨s', by simp [exec, schedBlock, switched, orSpin], switch⟩

theorem created_ok {result : Except Halt (Nat × State)} (returned : created result = .ok s') :
    ∃ t, result = .ok (t, s') := by
  unfold created at returned
  split at returned
  · cases returned
    exact ⟨_, rfl⟩
  · cases returned

theorem exec_sane {op : Op} (queues : Queues ∅ s) (sane : Sane s) (returned : exec s op = .ok s') : Sane s' := by
  cases op with
  | createTask priority =>
    obtain ⟨t, spawned⟩ := created_ok returned
    exact sane.spawn binds_new spawned
  | createUser priority =>
    obtain ⟨t, spawned⟩ := created_ok returned
    exact sane.spawn binds_new spawned
  | forkUser priority =>
    obtain ⟨t, spawned⟩ := created_ok returned
    exact sane.spawn binds_new spawned
  | cloneThread priority =>
    obtain ⟨t, spawned⟩ := created_ok returned
    exact sane.spawn binds_shared spawned
  | schedule =>
    obtain ⟨after, f, executed, switch, -⟩ := exec_switch queues .schedule (.inl rfl)
    cases executed.symm.trans returned
    exact switch.sane sane
  | exception =>
    by_cases asked : s.needResched = true
    · obtain ⟨after, executed, switch⟩ := exec_exception queues asked
      cases executed.symm.trans returned
      exact switch.sane ⟨sane.inside, sane.running⟩
    · simp only [exec, scheduleFromException, asked, orSpin] at returned
      cases returned
      exact sane
  | yield =>
    obtain ⟨after, f, executed, switch, -⟩ := exec_switch queues .yield (.inr rfl)
    cases executed.symm.trans returned
    exact switch.sane sane
  | block =>
    obtain ⟨after, executed, switch⟩ := exec_block queues
    cases executed.symm.trans returned
    exact switch.sane sane
  | unblock t =>
    cases returned
    exact quiet_unblock.sane sane
  | stop =>
    cases returned
    exact sane.change (.inl rfl)
  | «continue» t =>
    cases returned
    unfold signalContinue
    split
    · exact sane
    · exact ((quiet_setTcb id).trans quiet_unblock).sane sane
  | kill t =>
    cases returned
    unfold signalKill
    split
    · exact ((quiet_setTcb id).trans quiet_unblock).sane sane
    · exact sane
  | tick jiffies timerExpired =>
    cases returned
    exact (quiet_tick jiffies timerExpired).sane sane
  | donate t prio =>
    cases returned
    exact (quiet_donate prio).sane sane
  | clear t =>
    cases returned
    exact quiet_clear.sane sane
  | exitBegin t code =>
    cases returned
    exact (quiet_exitBegin code).sane sane
  | exitEnd t code =>
    cases returned
    exact (quiet_exitEnd code).sane sane

theorem exec_queues_iff {op : Op} (queues : Queues ∅ s) (sane : Sane s) (valid : op.Valid s)
    (returned : exec s op = .ok s') : Queues ∅ s' ↔ op.Safe s := by
  cases op with
  | createTask priority =>
    obtain ⟨t, spawned⟩ := created_ok returned
    exact iff_of_true (queues.spawn binds_new spawned) trivial
  | createUser priority =>
    obtain ⟨t, spawned⟩ := created_ok returned
    exact iff_of_true (queues.spawn binds_new spawned) trivial
  | forkUser priority =>
    obtain ⟨t, spawned⟩ := created_ok returned
    exact iff_of_true (queues.spawn binds_new spawned) trivial
  | cloneThread priority =>
    obtain ⟨t, spawned⟩ := created_ok returned
    exact iff_of_true (queues.spawn binds_shared spawned) trivial
  | schedule =>
    obtain ⟨after, f, executed, switch, state, prio⟩ := exec_switch queues .schedule (.inl rfl)
    cases executed.symm.trans returned
    exact switch.queues_iff queues sane state prio
  | exception =>
    by_cases asked : s.needResched = true
    · obtain ⟨after, executed, switch⟩ := exec_exception queues asked
      cases executed.symm.trans returned
      have kept := switch.queues_iff ⟨queues.bit, queues.once, queues.ready, queues.member⟩
        ⟨sane.inside, sane.running⟩ rfl rfl
      rw [kept, atFront_resched]
      exact ⟨fun behind _ => behind, fun safe => safe asked⟩
    · simp only [exec, scheduleFromException, asked, orSpin] at returned
      cases returned
      exact iff_of_true queues fun same => absurd same asked
  | yield =>
    obtain ⟨after, f, executed, switch, state, prio⟩ := exec_switch queues .yield (.inr rfl)
    cases executed.symm.trans returned
    exact switch.queues_iff queues sane state prio
  | block =>
    obtain ⟨after, executed, switch⟩ := exec_block queues
    cases executed.symm.trans returned
    exact switch.block_iff queues sane
  | unblock t =>
    cases returned
    exact iff_of_true (queues.unblock valid) trivial
  | stop =>
    cases returned
    by_cases ready : (s.tcb s.current).state = .ready
    · have linked := queues.ready _ sane.inside (Set.notMem_empty _) ready
      exact iff_of_false (Queues.stale (t := s.current) linked (by simp [signalStopCurrent])) (not_not_intro ready)
    · have marked := (queues.hold ready).change (Set.mem_insert _ _)
        fun t => { t with state := .blocked, stopped := true, stopReported := false }
      exact iff_of_true (marked.free (by simp)) ready
  | «continue» t =>
    cases returned
    refine iff_of_true ?_ trivial
    unfold signalContinue
    split
    · exact queues
    · exact (queues.keep (f := fun tcb => { tcb with stopped := false, stopReported := false }) rfl rfl).unblock valid
  | kill t =>
    cases returned
    refine iff_of_true ?_ trivial
    unfold signalKill
    split
    · exact (queues.keep (f := fun tcb => { tcb with stopped := false }) rfl rfl).unblock valid
    · exact queues
  | tick jiffies timerExpired =>
    cases returned
    exact iff_of_true (queues.tick jiffies timerExpired) trivial
  | donate t prio =>
    cases returned
    exact iff_of_true (queues.donate valid prio) trivial
  | clear t =>
    cases returned
    exact iff_of_true (queues.clear valid) trivial
  | exitBegin t code =>
    cases returned
    exact finishExitBegin_iff queues valid code
  | exitEnd t code =>
    cases returned
    exact finishExitEnd_iff queues valid code

/-- No section loops forever. -/
theorem exec_ends (queues : Queues ∅ s) (op : Op) : exec s op ≠ .error .spin := by
  have spawned : ∀ {priority isUser isThread bind noTask noProc},
      created (spawn s priority isUser isThread bind noTask noProc) ≠ .error .spin := by
    intro priority isUser isThread bind noTask noProc
    unfold spawn created
    dsimp only
    split
    · simp
    · rename_i halt stuck
      split at stuck
      · cases stuck
        simp
      · split at stuck
        · cases stuck
          simp
        · cases stuck
  cases op with
  | createTask priority => exact spawned
  | createUser priority => exact spawned
  | forkUser priority => exact spawned
  | cloneThread priority => exact spawned
  | schedule =>
    obtain ⟨after, f, executed, -⟩ := exec_switch queues .schedule (.inl rfl)
    simp [executed]
  | exception =>
    by_cases asked : s.needResched = true
    · obtain ⟨after, executed, -⟩ := exec_exception queues asked
      simp [executed]
    · simp [exec, scheduleFromException, asked, orSpin]
  | yield =>
    obtain ⟨after, f, executed, -⟩ := exec_switch queues .yield (.inr rfl)
    simp [executed]
  | block =>
    obtain ⟨after, executed, -⟩ := exec_block queues
    simp [executed]
  | unblock t | stop | «continue» t | kill t | tick jiffies timerExpired | donate t prio | clear t => simp [exec]
  | exitBegin t code | exitEnd t code => simp [exec]

theorem schedInit_queues : Queues ∅ schedInit ∧ Sane schedInit := by
  constructor
  · -- Before the idle task is pushed there is nothing in the queues.
    apply Queues.push
    · refine ⟨fun p => by simp [emptyState, bitmapBit], fun p => by simp [emptyState], fun t small free ready => ?_,
        fun p t linked => by simp [emptyState] at linked⟩
      have first : t = 0 := by
        have bound : t < 2 := small
        have apart : t ≠ 1 := by simpa using free
        omega
      subst first
      simp [Function.update] at ready
    · exact Set.notMem_empty 1
    · decide
    · rfl
  · refine ⟨by decide, fun t small running => ?_⟩
    have bound : t < 2 := small
    have apart : t ≠ 1 := by
      rintro rfl
      cases running
    show t = 0
    omega

theorem run_intact (run : Run exec (fun s op => op.Valid s ∧ op.Safe s) schedInit s) : Queues ∅ s ∧ Sane s := by
  induction run with
  | start => exact schedInit_queues
  | call op _ allowed returned ih =>
    obtain ⟨queues, sane⟩ := ih
    exact ⟨(exec_queues_iff queues sane allowed.1 returned).mpr allowed.2, exec_sane queues sane returned⟩

/--
In a run of safe sections every ready task is in the queue of its priority, and the next section leaves it so
exactly when it is safe too.
-/
theorem run_queues_exact (run : Run exec (fun s op => op.Valid s ∧ op.Safe s) schedInit s) :
    Queues ∅ s ∧
      ∀ op, op.Valid s → exec s op ≠ .error .spin ∧ ∀ s', exec s op = .ok s' → (Queues ∅ s' ↔ op.Safe s) := by
  obtain ⟨queues, sane⟩ := run_intact run
  exact ⟨queues, fun op valid => ⟨exec_ends queues op, fun s' returned => exec_queues_iff queues sane valid returned⟩⟩

end

/-- A user task lends its priority to a thread of its process. -/
def lentPriority : List Op :=
  [.createUser 100, .block, .cloneThread 100, .donate 3 50]

theorem run_queues_exact_lent : ∃ s, Run exec (fun s op => op.Valid s ∧ op.Safe s) schedInit s ∧ s.runQueue 50 = [3] ∧
    Queues ∅ s ∧
      ∀ op, op.Valid s → exec s op ≠ .error .spin ∧ ∀ s', exec s op = .ok s' → (Queues ∅ s' ↔ op.Safe s) := by
  have lent : (runList exec (fun s op => op.Valid s ∧ op.Safe s) schedInit lentPriority).any
      (fun s => s.runQueue 50 = [3]) = true := by
    decide +kernel
  obtain ⟨s, run, seen⟩ := runList_any lent
  exact ⟨s, run, of_decide_eq_true seen, run_queues_exact run⟩

/-- The user task ends its whole process, and the clean-up of the thread takes the lent priority back. -/
def lentThenEnded : List Op :=
  lentPriority ++ [.exitBegin 3 0, .clear 3, .exitEnd 3 0]

/--
Ending a process can leave a zombie in a run queue.

The thread is taken out of its queue, put back when its lent priority is cleared, and then marked as a zombie there.
-/
theorem ended_thread_still_linked : ¬ ∀ s, Run exec (fun s op => op.Valid s) schedInit s → Queues ∅ s := by
  intro always
  have bad : (runList exec (fun s op => op.Valid s) schedInit lentThenEnded).any
      (fun s => s.runQueue 100 = [3] ∧ (s.tcb 3).state = .zombie) = true := by
    decide +kernel
  obtain ⟨s, run, seen⟩ := runList_any bad
  obtain ⟨queue, zombie⟩ := of_decide_eq_true seen
  have linked : 3 ∈ s.runQueue 100 := by simp [queue]
  exact Queues.stale linked (by simp [zombie]) (always s run)

end Enlil.Sched
