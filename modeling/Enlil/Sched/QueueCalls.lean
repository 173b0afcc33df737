import Enlil.Sched.Dispatch

/-! What each section of the scheduler does to the run queues. -/

namespace Enlil.Sched

section

variable {s s' : State} {out : Set Nat} {t : Nat}

theorem Queues.preempt (queues : Queues out s) : Queues out (preemptIfUrgent s t) := by
  unfold preemptIfUrgent
  split
  · exact ⟨queues.bit, queues.once, queues.ready, queues.member⟩
  · exact queues

theorem Queues.unblock (queues : Queues ∅ s) (inside : t < s.taskCount) : Queues ∅ (schedUnblock s t) := by
  unfold schedUnblock
  split
  · rename_i blocked
    have idle : (s.tcb t).state ≠ .ready := by simp [blocked]
    have held := (queues.hold idle).change (Set.mem_insert t ∅)
      fun tcb => { tcb with state := .ready, ticksLeft := schedTickQuantum }
    exact (held.push (Set.notMem_empty t) inside (by simp)).preempt
  · exact queues

theorem rqRemove_setTcb (change : Tcb → Tcb) (p : UInt8) :
    rqRemove (s.setTcb t change) t p = (rqRemove s t p).setTcb t change := by
  unfold rqRemove
  split <;> simp_all [State.setTcb, setQueue]

theorem Queues.requeue (queues : Queues ∅ s) (inside : t < s.taskCount) {f : Tcb → Tcb}
    (state : (f (s.tcb t)).state = (s.tcb t).state) :
    Queues ∅ (requeue (s.setTcb t f) t (s.effPrio t)) := by
  unfold Sched.requeue
  split
  · rename_i moved
    rw [rqRemove_setTcb]
    have held := (queues.remove t).change (Set.mem_insert t ∅) f
    apply held.push (Set.notMem_empty t)
    · have same : (rqRemove s t (s.effPrio t)).taskCount = s.taskCount := by unfold rqRemove; split <;> rfl
      exact same ▸ inside
    · rw [← rqRemove_setTcb]
      have same : (rqRemove (s.setTcb t f) t (s.effPrio t)).tcb = (s.setTcb t f).tcb := by
        unfold rqRemove
        split <;> rfl
      rw [same]
      exact moved.2
  · rename_i stays
    by_cases same : (s.setTcb t f).effPrio t = s.effPrio t
    · -- The priority is what it was.
      exact queues.keep state (by simpa [State.effPrio] using same)
    · -- The task is not ready, before the f and after it.
      have idle : ((s.setTcb t f).tcb t).state ≠ .ready := fun ready => stays ⟨same, ready⟩
      have before : (s.tcb t).state ≠ .ready := by
        rw [setTcb_self, state] at idle
        exact idle
      exact ((queues.hold before).change (Set.mem_insert t ∅) f).free idle

theorem Queues.donate (queues : Queues ∅ s) (inside : t < s.taskCount) (prio : UInt8) :
    Queues ∅ (schedTaskDonatePriority s t prio) := by
  unfold schedTaskDonatePriority
  have moved := queues.requeue inside (f := fun tcb =>
    if tcb.donatedPriority = 0xFF ∨ prio < tcb.donatedPriority then { tcb with donatedPriority := prio } else tcb)
    (by split <;> rfl)
  dsimp only
  split
  · exact moved.preempt
  · exact moved

theorem Queues.clear (queues : Queues ∅ s) (inside : t < s.taskCount) : Queues ∅ (schedTaskClearDonation s t) := by
  unfold schedTaskClearDonation
  have moved := queues.requeue inside (f := fun tcb => { tcb with donatedPriority := 0xFF }) rfl
  dsimp only
  split
  · split
    · split
      · exact ⟨moved.bit, moved.once, moved.ready, moved.member⟩
      · exact moved
    · exact moved
  · exact moved.preempt

theorem Queues.tick (queues : Queues ∅ s) (jiffies : Nat) (timerExpired : Bool) :
    Queues ∅ (schedTick s jiffies timerExpired) := by
  have counted := queues.keep (t := s.current)
    (f := fun t => { t with ticksLeft := if t.ticksLeft > 0 then t.ticksLeft - 1 else 0 }) rfl rfl
  unfold schedTick
  dsimp only
  split
  · exact ⟨counted.bit, counted.once, counted.ready, counted.member⟩
  · exact counted

/-- The state in which a new task has been taken from the pool. -/
def withFresh (s : State) (priority : UInt8) (isUser isThread : Bool) : State :=
  { s with
    tcb := Function.update s.tcb s.taskCount
      { pid := s.nextPid
        priority := priority
        state := .ready
        ticksLeft := schedTickQuantum
        deadlineMs := 0
        isIdle := false
        isThread := isThread
        isRt := false
        donatedPriority := 0xFF
        isUser := isUser
        procSlot := noProcSlot
        exitCode := 0
        stopped := false
        stopReported := false }
    taskCount := s.taskCount + 1
    nextPid := (s.nextPid + 1) % 2 ^ 32 }

theorem spawn_ok {priority : UInt8} {isUser isThread : Bool} {bind : State → Nat → Option State}
    {noTask noProc : String} (returned : spawn s priority isUser isThread bind noTask noProc = .ok (t, s')) :
    s.taskCount < schedMaxTasks ∧ t = s.taskCount ∧
      ∃ bound, bind (withFresh s priority isUser isThread) t = some bound ∧
        s' = preemptIfUrgent (rqPush bound t) t := by
  unfold spawn taskAlloc at returned
  by_cases full : s.taskCount ≥ schedMaxTasks
  · simp [full] at returned
  · simp only [if_neg full] at returned
    split at returned
    · cases returned
    · rename_i bound bind'
      cases returned
      refine ⟨by omega, rfl, bound, ?_, rfl⟩
      rw [← bind']
      simp [withFresh, State.setTcb]

/-- Binding a task to a process changes the processes and the process slot of the task. -/
def Binds (s : State) (t : Nat) (s' : State) : Prop :=
  ∃ procs slot, s' = State.setTcb { s with procs := procs } t fun tcb => { tcb with procSlot := slot }

theorem binds_new {parentPid pgid : Nat} (bound : taskBindNewProcess s t parentPid pgid = some s') :
    Binds s t s' := by
  unfold taskBindNewProcess procAlloc at bound
  cases free : (List.range schedMaxTasks).find? fun i => !(s.procs i).inUse with
  | none => simp [free] at bound
  | some slot =>
    simp only [free, Option.some.injEq] at bound
    exact ⟨_, slot, bound.symm⟩

theorem binds_shared {owner : Nat} (bound : taskBindSharedProcess s t owner = some s') : Binds s t s' := by
  unfold taskBindSharedProcess procRetain at bound
  split at bound
  · cases bound
  · split at bound
    · cases bound
    · rename_i retained
      split at retained
      · cases retained
      · cases retained
        cases bound
        exact ⟨_, _, rfl⟩

theorem Queues.spawn {priority : UInt8} {isUser isThread : Bool} {bind : State → Nat → Option State}
    {noTask noProc : String} (queues : Queues ∅ s)
    (binds : ∀ {s t s'}, bind s t = some s' → Binds s t s')
    (returned : spawn s priority isUser isThread bind noTask noProc = .ok (t, s')) : Queues ∅ s' := by
  obtain ⟨-, rfl, bound, bind', rfl⟩ := spawn_ok returned
  obtain ⟨procs, slot, rfl⟩ := binds bind'
  -- The new task is beyond all tasks that the queues hold.
  have fresh : Queues (insert s.taskCount ∅) (withFresh s priority isUser isThread) := by
    refine ⟨queues.bit, queues.once, fun other inside free ready => ?_, fun p other linked => ?_⟩
    · have apart : other ≠ s.taskCount := fun same => free (by simp [same])
      have small : other < s.taskCount := by
        have bound : other < s.taskCount + 1 := inside
        omega
      have before := queues.ready other small (Set.notMem_empty other) (by simpa [withFresh, apart] using ready)
      simpa [withFresh, State.effPrio, apart] using before
    · obtain ⟨inside, -, ready, prio⟩ := queues.member p other linked
      have apart : other ≠ s.taskCount := by omega
      exact ⟨Nat.lt_succ_of_lt inside, by simp [apart], by simpa [withFresh, apart] using ready,
        by simpa [withFresh, State.effPrio, apart] using prio⟩
  have bare : Queues (insert s.taskCount ∅) { withFresh s priority isUser isThread with procs := procs } :=
    ⟨fresh.bit, fresh.once, fresh.ready, fresh.member⟩
  have held := bare.change (Set.mem_insert s.taskCount ∅) fun tcb => { tcb with procSlot := slot }
  exact (held.push (Set.notMem_empty _) (Nat.lt_succ_self _) (by simp [withFresh])).preempt

/-- The current task is one of the pool, and no other task is marked as running. -/
structure Sane (s : State) : Prop where
  inside : s.current < s.taskCount
  running : ∀ t < s.taskCount, (s.tcb t).state = .running → t = s.current

theorem Sane.dispatch (sane : Sane s) {next : Nat} (inside : next < s.taskCount) : Sane (Sched.dispatch s next) := by
  refine ⟨by simpa using inside, fun t small running => ?_⟩
  rw [dispatch_current]
  rw [dispatch_state] at running
  split at running
  · assumption
  · split at running
    · cases running
    · rename_i apart
      exact absurd ⟨sane.running t (by simpa using small) running, running⟩ apart

theorem Sane.change (sane : Sane s) {change : Tcb → Tcb}
    (quiet : t = s.current ∨ (change (s.tcb t)).state ≠ .running) : Sane (s.setTcb t change) := by
  refine ⟨sane.inside, fun other small running => ?_⟩
  by_cases same : other = t
  · subst same
    rcases quiet with same | idle
    · exact same
    · exact absurd (by simpa using running) idle
  · exact sane.running other small (by simpa [same] using running)

theorem Sane.requeued (sane : Sane s) {q : State} (frame : SameTasks s q) : Sane q ∧ q.current = s.current := by
  obtain ⟨runQueue, readyBitmap, rfl⟩ := frame
  exact ⟨⟨sane.inside, sane.running⟩, rfl⟩

theorem Chosen.sane {next : Nat} {q : State} {change : Tcb → Tcb} (chosen : Chosen s out next q) (sane : Sane s) :
    Sane (dispatch (q.setTcb s.current change) next) := by
  obtain ⟨sane', same⟩ := sane.requeued chosen.frame
  have inside : next < q.taskCount := by
    obtain ⟨runQueue, readyBitmap, rfl⟩ := chosen.frame
    exact chosen.inside
  exact (sane'.change (.inl same.symm)).dispatch inside

theorem Switch.sane {change : Tcb → Tcb} (switch : Switch s out change s') (sane : Sane s) : Sane s' := by
  cases switch with
  | stay => exact sane.change (.inl rfl)
  | next _ chosen => exact chosen.sane sane
  | dropped _ _ frame =>
    obtain ⟨sane', same⟩ := sane.requeued frame
    exact sane'.change (.inl same.symm)
  | droppedNext _ chosen => exact chosen.sane sane

theorem Switch.queues_iff {change : Tcb → Tcb} (switch : Switch s ∅ change s') (queues : Queues ∅ s) (sane : Sane s)
    (state : (change (s.tcb s.current)).state = (s.tcb s.current).state)
    (prio : effPrioOf (change (s.tcb s.current)) = effPrioOf (s.tcb s.current)) :
    Queues ∅ s' ↔ ¬ AtFront s := by
  cases switch with
  | stay behind => exact iff_of_true (queues.keep state prio) behind
  | next behind chosen =>
    obtain ⟨other, -, -, taken, runQueue, readyBitmap, rfl⟩ := chosen
    exact iff_of_true ((taken.keep state prio).dispatch sane.inside other fun _ => Set.notMem_empty _) behind
  | dropped front taken frame =>
    obtain ⟨runQueue, readyBitmap, rfl⟩ := frame
    have ready := (front.ready queues).2
    refine iff_of_false ?_ (not_not_intro front)
    exact (taken.keep state prio).lost sane.inside (by simpa [state] using ready)
  | droppedNext front chosen =>
    obtain ⟨other, -, -, taken, runQueue, readyBitmap, rfl⟩ := chosen
    have ready := (front.ready queues).2
    have kept := taken.keep state prio
    have still : (change (s.tcb s.current)).state = .ready := state.trans ready
    -- The dropped task is ready, so it is not put back, and it stays ready.
    have idle : ((State.setTcb { s with runQueue := runQueue, readyBitmap := readyBitmap } s.current change).tcb
        s.current).state ≠ .running := by
      simp [still]
    have after := kept.dispatch sane.inside other fun running => absurd running idle
    refine iff_of_false (after.lost (by simpa using sane.inside) ?_) (not_not_intro front)
    rw [dispatch_state, if_neg other]
    simp [State.setTcb, still]

theorem Switch.block_iff (switch : Switch s ∅ (fun t => { t with state := .blocked }) s') (queues : Queues ∅ s)
    (sane : Sane s) : Queues ∅ s' ↔ ((s.tcb s.current).state = .ready → AtFront s) := by
  by_cases ready : (s.tcb s.current).state = .ready
  · have linked := queues.ready _ sane.inside (Set.notMem_empty _) ready
    cases switch with
    | stay _ empty => simp [takeFirst_none queues empty] at linked
    | next behind chosen =>
      -- The current task keeps its place in the queue, and is no longer ready.
      obtain ⟨other, -, -, taken, runQueue, readyBitmap, rfl⟩ := chosen
      refine iff_of_false ?_ fun safe => behind (safe ready)
      have still := taken.ready s.current sane.inside (by simpa using other) ready
      apply Queues.stale (p := s.effPrio s.current) (t := s.current)
      · rw [dispatch_runQueue (by simp)]
        exact still
      · rw [dispatch_state, if_neg other]
        simp
    | dropped front taken frame =>
      obtain ⟨runQueue, readyBitmap, rfl⟩ := frame
      exact iff_of_true ((taken.change (Set.mem_insert _ _) _).free (by simp)) fun _ => front
    | droppedNext front chosen =>
      obtain ⟨other, -, -, taken, runQueue, readyBitmap, rfl⟩ := chosen
      have changed := taken.change (t := s.current) (by simp) fun t => { t with state := .blocked }
      have after := changed.dispatch sane.inside other fun running => by simp at running
      refine iff_of_true (after.free ?_) fun _ => front
      rw [dispatch_state, if_neg other]
      simp
  · -- A task that is not ready is in no queue, so it can be marked as blocked.
    refine iff_of_true ?_ fun same => absurd same ready
    cases switch with
    | stay => exact ((queues.hold ready).change (Set.mem_insert _ _) _).free (by simp)
    | next _ chosen =>
      obtain ⟨other, -, -, taken, runQueue, readyBitmap, rfl⟩ := chosen
      have changed := ((taken.hold (t := s.current) ready).change (Set.mem_insert _ _)
        fun t => { t with state := .blocked }).free (by simp)
      exact changed.dispatch sane.inside other fun _ => Set.notMem_empty _
    | dropped front => exact absurd (front.ready queues).2 ready
    | droppedNext front => exact absurd (front.ready queues).2 ready

theorem finishExitBegin_iff (queues : Queues ∅ s) (inside : t < s.taskCount) (code : Int) :
    Queues ∅ (finishExitBegin s t code) ↔ (t = s.current ∨ (s.tcb t).state ≠ .ready) := by
  have noted := queues.keep (t := t) (f := fun tcb => { tcb with exitCode := code }) rfl rfl
  unfold finishExitBegin
  dsimp only
  split
  · rename_i leaves
    obtain ⟨other, ready⟩ := leaves
    have before : (s.tcb t).state = .ready := by simpa using ready
    refine iff_of_false ?_ (by rintro (same | idle); exacts [other same, idle before])
    apply (noted.remove t).lost
    · unfold rqRemove
      split <;> exact inside
    · unfold rqRemove
      split <;> exact ready
  · rename_i stays
    refine iff_of_true noted ?_
    by_contra leaves
    push Not at leaves
    exact stays ⟨leaves.1, by simpa using leaves.2⟩

theorem procRelease_frame (s : State) (slot : Nat) (code : Int) : ∃ procs,
    procRelease s slot code = { s with procs := procs } ∨
      ∃ leader final, procRelease s slot code =
        State.setTcb { s with procs := procs } leader fun t => { t with exitCode := final } := by
  unfold procRelease
  dsimp only
  split
  · exact ⟨s.procs, .inl rfl⟩
  · split
    · exact ⟨_, .inl rfl⟩
    · split
      · exact ⟨_, .inr ⟨_, _, rfl⟩⟩
      · exact ⟨_, .inl rfl⟩

theorem Queues.release (queues : Queues out s) (slot : Nat) (code : Int) : Queues out (procRelease s slot code) := by
  obtain ⟨procs, same | ⟨leader, final, same⟩⟩ := procRelease_frame s slot code
  · rw [same]
    exact ⟨queues.bit, queues.once, queues.ready, queues.member⟩
  · rw [same]
    have bare : Queues out { s with procs := procs } := ⟨queues.bit, queues.once, queues.ready, queues.member⟩
    exact bare.keep rfl rfl

theorem finishExitEnd_iff (queues : Queues ∅ s) (inside : t < s.taskCount) (code : Int) :
    Queues ∅ (finishExitEnd s t code) ↔ (s.tcb t).state ≠ .ready := by
  unfold finishExitEnd
  dsimp only
  by_cases ready : (s.tcb t).state = .ready
  · have linked := queues.ready t inside (Set.notMem_empty t) ready
    refine iff_of_false (Queues.stale (p := s.effPrio t) (t := t) ?_ (by simp)) (not_not_intro ready)
    rw [setTcb_runQueue]
    obtain ⟨procs, same | ⟨leader, final, same⟩⟩ := procRelease_frame
      (s.setTcb t fun tcb => { tcb with stopped := false, stopReported := false })
      ((s.setTcb t fun tcb => { tcb with stopped := false, stopReported := false }).tcb t).procSlot code
    · rw [same]
      exact linked
    · rw [same]
      exact linked
  · have held := (((queues.hold ready).change (Set.mem_insert t ∅)
      fun tcb => { tcb with stopped := false, stopReported := false }).release
        ((s.setTcb t fun tcb => { tcb with stopped := false, stopReported := false }).tcb t).procSlot code).change
        (Set.mem_insert t ∅) fun tcb => { tcb with state := .zombie }
    exact iff_of_true (held.free (by simp)) ready

/-- A section that does not switch, and marks no task as running. -/
structure Quiet (s s' : State) : Prop where
  current : s'.current = s.current
  taskCount : s'.taskCount = s.taskCount
  running : ∀ t, (s'.tcb t).state = .running → (s.tcb t).state = .running

theorem Quiet.trans {s'' : State} (first : Quiet s s') (second : Quiet s' s'') : Quiet s s'' :=
  ⟨second.current.trans first.current, second.taskCount.trans first.taskCount,
    fun t running => first.running t (second.running t running)⟩

theorem Quiet.sane (quiet : Quiet s s') (sane : Sane s) : Sane s' := by
  refine ⟨by rw [quiet.current, quiet.taskCount]; exact sane.inside, fun t small running => ?_⟩
  rw [quiet.current]
  exact sane.running t (quiet.taskCount ▸ small) (quiet.running t running)

theorem quiet_setTcb {f : Tcb → Tcb}
    (quiet : (f (s.tcb t)).state = .running → (s.tcb t).state = .running) : Quiet s (s.setTcb t f) := by
  refine ⟨rfl, rfl, fun other running => ?_⟩
  by_cases same : other = t
  · subst same
    exact quiet (by simpa using running)
  · simpa [same] using running

theorem quiet_preempt : Quiet s (preemptIfUrgent s t) := by
  unfold preemptIfUrgent
  split <;> exact ⟨rfl, rfl, fun _ => id⟩

theorem quiet_remove (p : UInt8) : Quiet s (rqRemove s t p) := by
  unfold rqRemove
  split <;> exact ⟨rfl, rfl, fun _ => id⟩

theorem quiet_push : Quiet s (rqPush s t) := ⟨rfl, rfl, fun _ => id⟩

theorem quiet_unblock : Quiet s (schedUnblock s t) := by
  unfold schedUnblock
  split
  · exact (quiet_setTcb (by simp)).trans (quiet_push.trans quiet_preempt)
  · exact ⟨rfl, rfl, fun _ => id⟩

theorem quiet_requeue (p : UInt8) : Quiet s (requeue s t p) := by
  unfold requeue
  split
  · exact (quiet_remove p).trans quiet_push
  · exact ⟨rfl, rfl, fun _ => id⟩

theorem quiet_donate (prio : UInt8) : Quiet s (schedTaskDonatePriority s t prio) := by
  have moved := (quiet_setTcb (s := s) (t := t) (f := fun tcb =>
    if tcb.donatedPriority = 0xFF ∨ prio < tcb.donatedPriority then { tcb with donatedPriority := prio } else tcb)
    (by split <;> exact id)).trans (quiet_requeue (t := t) (s.effPrio t))
  unfold schedTaskDonatePriority
  dsimp only
  split
  · exact moved.trans quiet_preempt
  · exact moved

theorem quiet_clear : Quiet s (schedTaskClearDonation s t) := by
  have moved := (quiet_setTcb (s := s) (t := t) (f := fun tcb => { tcb with donatedPriority := 0xFF })
    id).trans (quiet_requeue (t := t) (s.effPrio t))
  unfold schedTaskClearDonation
  dsimp only
  split
  · split
    · split
      · exact ⟨moved.current, moved.taskCount, moved.running⟩
      · exact moved
    · exact moved
  · exact moved.trans quiet_preempt

theorem quiet_tick (jiffies : Nat) (timerExpired : Bool) : Quiet s (schedTick s jiffies timerExpired) := by
  have counted := quiet_setTcb (s := s) (t := s.current)
    (f := fun t => { t with ticksLeft := if t.ticksLeft > 0 then t.ticksLeft - 1 else 0 }) id
  unfold schedTick
  dsimp only
  split
  · exact ⟨counted.current, counted.taskCount, counted.running⟩
  · exact counted

theorem quiet_release (slot : Nat) (code : Int) : Quiet s (procRelease s slot code) := by
  obtain ⟨procs, same | ⟨leader, final, same⟩⟩ := procRelease_frame s slot code
  · rw [same]
    exact ⟨rfl, rfl, fun _ => id⟩
  · rw [same]
    have bare : Quiet s { s with procs := procs } := ⟨rfl, rfl, fun _ => id⟩
    exact bare.trans (quiet_setTcb id)

theorem quiet_exitBegin (code : Int) : Quiet s (finishExitBegin s t code) := by
  have noted := quiet_setTcb (s := s) (t := t) (f := fun tcb => { tcb with exitCode := code }) id
  unfold finishExitBegin
  dsimp only
  split
  · exact noted.trans (quiet_remove _)
  · exact noted

theorem quiet_exitEnd (code : Int) : Quiet s (finishExitEnd s t code) :=
  (quiet_setTcb id).trans ((quiet_release _ code).trans
    (quiet_setTcb (f := fun tcb => { tcb with state := .zombie }) (by simp)))

theorem Sane.spawn {priority : UInt8} {isUser isThread : Bool} {bind : State → Nat → Option State}
    {noTask noProc : String} (sane : Sane s) (binds : ∀ {s t s'}, bind s t = some s' → Binds s t s')
    (returned : Sched.spawn s priority isUser isThread bind noTask noProc = .ok (t, s')) : Sane s' := by
  obtain ⟨-, rfl, bound, bind', rfl⟩ := spawn_ok returned
  obtain ⟨procs, slot, rfl⟩ := binds bind'
  have fresh : Sane (withFresh s priority isUser isThread) := by
    refine ⟨Nat.lt_succ_of_lt sane.inside, fun other small running => ?_⟩
    have apart : other ≠ s.taskCount := by
      rintro rfl
      simp [withFresh] at running
    have inside : other < s.taskCount := by
      have bound : other < s.taskCount + 1 := small
      omega
    exact sane.running other inside (by simpa [withFresh, apart] using running)
  have bare : Sane { withFresh s priority isUser isThread with procs := procs } := ⟨fresh.inside, fresh.running⟩
  exact ((quiet_setTcb id).trans (quiet_push.trans quiet_preempt)).sane bare

end

end Enlil.Sched
