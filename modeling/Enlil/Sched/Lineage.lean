import Enlil.Sched.ProcessRuns

/-! A task that has not ended keeps its process, and a process its number and its parent. -/

namespace Enlil.Sched

/-- The tasks that have not ended are as old tasks of the same processes as before, or new. -/
structure Kin (s s' : State) : Prop where
  grown : s.taskCount ≤ s'.taskCount
  alive : ∀ t < s.taskCount, (s'.tcb t).state ≠ .zombie → (s.tcb t).state ≠ .zombie
  slot : ∀ t < s.taskCount, (s'.tcb t).state ≠ .zombie → (s'.tcb t).procSlot = (s.tcb t).procSlot
  proc : ∀ t < s.taskCount, (s'.tcb t).state ≠ .zombie →
    (s'.procs (s.tcb t).procSlot).tgid = (s.procs (s.tcb t).procSlot).tgid ∧
      (s'.procs (s.tcb t).procSlot).parentPid = (s.procs (s.tcb t).procSlot).parentPid

section

variable {s s' s'' : State} {log : List Event} {t : Nat}

theorem Kin.refl (s : State) : Kin s s := ⟨le_refl _, fun _ _ => id, fun _ _ _ => rfl, fun _ _ _ => ⟨rfl, rfl⟩⟩

theorem Kin.trans (first : Kin s s') (second : Kin s' s'') : Kin s s'' := by
  have alive : ∀ t < s.taskCount, (s''.tcb t).state ≠ .zombie → (s'.tcb t).state ≠ .zombie := fun t inside =>
    second.alive t (lt_of_lt_of_le inside first.grown)
  refine ⟨first.grown.trans second.grown, fun t inside lives => first.alive t inside (alive t inside lives),
    fun t inside lives => ?_, fun t inside lives => ?_⟩
  · rw [second.slot t (lt_of_lt_of_le inside first.grown) lives, first.slot t inside (alive t inside lives)]
  · have later := second.proc t (lt_of_lt_of_le inside first.grown) lives
    have earlier := first.proc t inside (alive t inside lives)
    rw [first.slot t inside (alive t inside lives)] at later
    exact ⟨later.1.trans earlier.1, later.2.trans earlier.2⟩

theorem Kin.sched (frame : SchedOnly s s') : Kin s s' := by
  refine ⟨frame.taskCount.ge, fun t _ lives => ?_, fun t _ _ => (frame.task t).procSlot, fun t _ _ => ?_⟩
  · rwa [Ne, (frame.task t).zombie] at lives
  · rw [frame.procs]
    exact ⟨rfl, rfl⟩

theorem Counted.adopt_kin (counted : Counted s) {priority : UInt8} {isUser isThread : Bool} {slot : Nat} {proc : Proc}
    (apart : (s.procs slot).inUse = false ∨ proc.tgid = (s.procs slot).tgid ∧ proc.parentPid = (s.procs slot).parentPid) :
    Kin s (Sched.adopt s priority isUser isThread slot proc) := by
  refine ⟨Nat.le_succ _, fun t inside lives => ?_, fun t inside _ => ?_, fun t inside lives => ?_⟩
  · rwa [adopt_tcb inside.ne] at lives
  · rw [adopt_tcb inside.ne]
  · rw [adopt_tcb inside.ne] at lives
    rw [adopt_procs]
    split
    · rename_i own
      -- The slot of a task that has not ended is in use.
      rcases apart with free | same
      · rw [← own, (counted.held t inside lives).2] at free
        cases free
      · rw [own]
        exact same
    · exact ⟨rfl, rfl⟩

theorem Counted.spawnNew_kin (counted : Counted s) (parentPid pgid : State → Nat) {priority : UInt8}
    {isUser isThread : Bool} {noTask noProc : String}
    (returned : spawn s priority isUser isThread (fun s t => taskBindNewProcess s t (parentPid s) (pgid s))
      noTask noProc = .ok (t, s')) : Kin s s' := by
  obtain ⟨_, rfl, bound, bind, rfl⟩ := spawn_ok returned
  obtain ⟨slot, _, free, pgid', rfl⟩ := bindNew_adopt bind
  exact (counted.adopt_kin (.inl free)).trans (.sched ((schedOnly_push (Nat.lt_succ_self _)).trans schedOnly_preempt))

theorem Counted.spawnShared_kin (counted : Counted s) {priority : UInt8} {isUser isThread : Bool}
    {noTask noProc : String} (returned : spawn s priority isUser isThread (fun s t => taskBindSharedProcess s t s.current)
      noTask noProc = .ok (t, s')) : Kin s s' := by
  obtain ⟨_, rfl, bound, bind, rfl⟩ := spawn_ok returned
  obtain ⟨_, _, rfl⟩ := bindShared_adopt counted.bounded.current bind
  refine Kin.trans ?_ (.sched ((schedOnly_push (Nat.lt_succ_self _)).trans schedOnly_preempt))
  exact counted.adopt_kin (.inr ⟨rfl, rfl⟩)

theorem bounded_release (bounded : Bounded s) (slot : Nat) (code : Int) : Bounded (procRelease s slot code) := by
  obtain ⟨procs, same | ⟨leader, final, same⟩⟩ := procRelease_frame s slot code
  · rw [same]
    exact ⟨bounded.current, bounded.linked⟩
  · rw [same]
    exact ⟨bounded.current, bounded.linked⟩

theorem finish_kin (bounded : Bounded s) {cleanup : List Cleanup}
    (valid : ∀ request ∈ cleanup, request.task < s.taskCount) (code : Int) :
    Kin s (schedTaskFinishExit s t code cleanup) ∧ Bounded (schedTaskFinishExit s t code cleanup) ∧
      (schedTaskFinishExit s t code cleanup).taskCount = s.taskCount ∧
      (schedTaskFinishExit s t code cleanup).current = s.current := by
  have begun : SchedOnly (s.setTcb t fun tcb => { tcb with exitCode := code }) (finishExitBegin s t code) := by
    unfold finishExitBegin
    dsimp only
    split
    · exact schedOnly_remove _
    · exact SchedOnly.refl _
  obtain ⟨cleaned, current⟩ := cleanup_frame (s := finishExitBegin s t code) fun request member =>
    lt_of_lt_of_eq (valid request member) begun.taskCount.symm
  have forgotten := begun.trans cleaned
  have released := ends_release (s := (cleanup.foldl Cleanup.apply (finishExitBegin s t code)).setTcb t fun tcb =>
    { tcb with stopped := false, stopReported := false }) (t := t)
    (((cleanup.foldl Cleanup.apply (finishExitBegin s t code)).setTcb t fun tcb =>
      { tcb with stopped := false, stopReported := false }).tcb t).procSlot code
  have dead : ((schedTaskFinishExit s t code cleanup).tcb t).state = .zombie := by simp [schedTaskFinishExit, finishExitEnd]
  have others : ∀ other, ((schedTaskFinishExit s t code cleanup).tcb other).state ≠ .zombie → other ≠ t := by
    rintro other lives rfl
    exact lives dead
  have task : ∀ other, other ≠ t → ((schedTaskFinishExit s t code cleanup).tcb other).procSlot = (s.tcb other).procSlot ∧
      (((schedTaskFinishExit s t code cleanup).tcb other).state = .zombie ↔ (s.tcb other).state = .zombie) := by
    intro other apart
    obtain ⟨own, zombie⟩ := released.task other apart
    have before := forgotten.task other
    simp only [setTcb_other _ apart] at own zombie before
    refine ⟨Eq.trans ?_ (own.trans before.procSlot), Iff.trans ?_ (zombie.trans before.zombie)⟩
    · simp [schedTaskFinishExit, finishExitEnd, apart]
    · simp [schedTaskFinishExit, finishExitEnd, apart]
  have procs : ∀ slot, SameProc (s.procs slot) ((schedTaskFinishExit s t code cleanup).procs slot) := fun slot => by
    have proc := released.proc slot
    rw [setTcb_procs, forgotten.procs] at proc
    exact proc
  refine ⟨⟨(released.taskCount.trans forgotten.taskCount).ge, fun other _ lives => ?_, fun other _ lives =>
      (task other (others other lives)).1, fun other _ _ => ⟨(procs _).tgid, (procs _).parentPid⟩⟩, ?_,
    released.taskCount.trans forgotten.taskCount,
    released.current.trans (current.trans (quiet_exitBegin code).current)⟩
  · exact fun zombie => lives ((task other (others other lives)).2.mpr zombie)
  · have kept := bounded_release (s := (cleanup.foldl Cleanup.apply (finishExitBegin s t code)).setTcb t fun tcb =>
        { tcb with stopped := false, stopReported := false })
      ⟨(forgotten.bounded ⟨bounded.current, bounded.linked⟩).current, (forgotten.bounded ⟨bounded.current, bounded.linked⟩).linked⟩
    exact ⟨(kept _ code).current, (kept _ code).linked⟩

theorem kin_setProc (slot : Nat) {g : Proc → Proc} (tgid : (g (s.procs slot)).tgid = (s.procs slot).tgid)
    (parentPid : (g (s.procs slot)).parentPid = (s.procs slot).parentPid) : Kin s (s.setProc slot g) := by
  refine ⟨le_refl _, fun _ _ => id, fun _ _ _ => rfl, fun t _ _ => ?_⟩
  by_cases own : (s.tcb t).procSlot = slot
  · rw [own, setProc_self]
    exact ⟨tgid, parentPid⟩
  · rw [setProc_other g own]
    exact ⟨rfl, rfl⟩

theorem setGroupExit_kin (slot : Nat) (code : Int) (bounded : Bounded s) :
    Kin s (procSetGroupExit s slot code) ∧ Bounded (procSetGroupExit s slot code) ∧
      (procSetGroupExit s slot code).taskCount = s.taskCount ∧ (procSetGroupExit s slot code).current = s.current := by
  unfold procSetGroupExit
  split
  · exact ⟨.refl s, bounded, rfl, rfl⟩
  · exact ⟨kin_setProc slot rfl rfl, ⟨bounded.current, bounded.linked⟩, rfl, rfl⟩

theorem endOthers_kin (bounded : Bounded s) {cleanup : Nat → List Cleanup} (code : Int) (slot : Nat) (ts : List Nat)
    (inside : ∀ t ∈ ts, t < s.taskCount) (valid : ∀ t < s.taskCount, ∀ request ∈ cleanup t, request.task < s.taskCount) :
    let s' := ts.foldl
      (fun s' t =>
        if t = s'.current ∨ (s'.tcb t).state = .zombie ∨ (s'.tcb t).procSlot ≠ slot then s'
        else schedTaskFinishExit s' t code (cleanup t)) s
    Kin s s' ∧ Bounded s' ∧ s'.taskCount = s.taskCount ∧ s'.current = s.current := by
  induction ts generalizing s with
  | nil => exact ⟨.refl s, bounded, rfl, rfl⟩
  | cons t rest ih =>
    rw [List.foldl_cons]
    split
    · exact ih bounded (fun other member => inside other (by simp [member])) valid
    · obtain ⟨kin, bounded', count, current⟩ := finish_kin (t := t) bounded (valid t (inside t (by simp))) code
      obtain ⟨kin', bounded'', count', current'⟩ := ih bounded'
        (fun other member => lt_of_lt_of_eq (inside other (by simp [member])) count.symm) (by rw [count]; exact valid)
      exact ⟨kin.trans kin', bounded'', count'.trans count, current'.trans current⟩

theorem exit_kin (bounded : Bounded s) {cleanup : List Cleanup} (valid : ∀ request ∈ cleanup, request.task < s.taskCount)
    {code : Int} (returned : schedTaskExitWithCode s code cleanup = some s') : Kin s s' := by
  obtain ⟨kin, bounded', _, _⟩ := finish_kin (t := s.current) bounded valid code
  exact kin.trans (.sched (schedOnly_schedule bounded' returned))

theorem exitGroup_kin (bounded : Bounded s) {cleanup : Nat → List Cleanup}
    (valid : ∀ t < s.taskCount, ∀ request ∈ cleanup t, request.task < s.taskCount) {code : Int}
    (returned : sysExitGroup s code cleanup = some s') : Kin s s' := by
  unfold sysExitGroup at returned
  split at returned
  · cases returned
    exact .refl s
  obtain ⟨marked, bounded', count, current⟩ := setGroupExit_kin (s.tcb s.current).procSlot code bounded
  obtain ⟨kin, bounded'', count', current'⟩ := endOthers_kin bounded' code (s.tcb s.current).procSlot
    (List.range s.taskCount) (fun t member => by rw [count]; simpa using member) (by rw [count]; exact valid)
  refine (marked.trans kin).trans (exit_kin bounded'' ?_ returned)
  rw [count', count]
  exact valid s.current bounded.current

theorem Counted.waited_kin (counted : Counted s) {ts : List Nat} (inside : ∀ t ∈ ts, t < s.taskCount) {result : WaitResult}
    (waited : Waited s ts (result, s')) : Kin s s' := by
  have reported : ∀ t, Kin s (s.setTcb t fun tcb => { tcb with stopReported := true }) := fun t =>
    .sched (schedOnly_setTcb ⟨rfl, rfl, rfl, rfl, rfl, rfl, Iff.rfl, fun _ => id⟩)
  cases waited with
  | reaped t member waits parent =>
    obtain ⟨small, used, _, waitable⟩ := counted.waitable_slot (inside t member) waits
    have marked : schedTaskMarkReaped s t =
        s.setProc (s.tcb t).procSlot fun proc => { proc with waitable := false, inUse := false } := by
      simp [schedTaskMarkReaped, procOf, small, used]
    rw [marked]
    exact kin_setProc _ rfl rfl
  | stopped t member stops => exact reported t
  | unstored t member stops => exact reported t
  | failed error => exact .refl s
  | later => exact .refl s

theorem Intact.step_kin (intact : Intact s log) {op : Op} (valid : op.Valid s) (whole : op.Whole s)
    (returned : exec s op = .ok s') : Kin s s' := by
  by_cases creates : op.Creates
  · cases op with
    | createTask priority =>
      obtain ⟨t, spawned⟩ := created_ok returned
      exact intact.counted.spawnNew_kin (fun _ => 0) (fun s => pgidOf s s.current) spawned
    | createUser priority =>
      obtain ⟨t, spawned⟩ := created_ok returned
      exact intact.counted.spawnNew_kin (fun s => tgidOf s s.current) (fun s => pgidOf s s.current) spawned
    | _ => cases creates
  · exact .sched (schedOnly_step intact.counted.bounded valid whole creates returned)

theorem Counted.fork_kin (counted : Counted s) {memory : Bool} {result : Except Errno Nat}
    (returned : sysFork s memory = .ok (result, s')) : Kin s s' := by
  unfold sysFork at returned
  repeat' split at returned
  · cases returned
    exact .refl s
  · cases returned
  · cases returned
    exact .refl s
  · cases returned
    exact .refl s
  · cases returned
  · rename_i child s'' spawned
    cases returned
    exact counted.spawnNew_kin (fun s => tgidOf s s.current) (fun s => pgidOf s s.current) spawned

theorem Counted.clone_kin (counted : Counted s) {refused : Option Errno} {result : Except Errno Nat}
    (returned : sysClone s refused = .ok (result, s')) : Kin s s' := by
  unfold sysClone at returned
  repeat' split at returned
  · cases returned
    exact .refl s
  · cases returned
    exact .refl s
  · cases returned
    exact .refl s
  · cases returned
  · rename_i child s'' spawned
    cases returned
    exact counted.spawnShared_kin spawned

theorem Kin.tgidOf (kin : Kin s s') (counted : Counted s) (counted' : Counted s') (inside : t < s.taskCount)
    (lives : (s'.tcb t).state ≠ .zombie) :
    Sched.tgidOf s' t = Sched.tgidOf s t ∧ parentPidOf s' t = parentPidOf s t := by
  have alive := kin.alive t inside lives
  have now := counted'.procOf_live (lt_of_lt_of_le inside kin.grown) lives
  have before := counted.procOf_live inside alive
  have same := kin.proc t inside lives
  rw [kin.slot t inside lives] at now
  simp [Sched.tgidOf, parentPidOf, now, before, same]

end

theorem Intact.call_kin {r r' : Session} (intact : Intact r.sched r.log) {call : Call} (valid : call.Valid r)
    (returned : call.exec r = .ok r') : Kin r.sched r'.sched := by
  cases call with
  | step op =>
    simp only [Call.exec] at returned
    split at returned
    · rename_i s ran
      cases returned
      exact intact.step_kin valid.1 valid.2 ran
    · cases returned
  | fork memory =>
    simp only [Call.exec] at returned
    split at returned
    · rename_i result s ran
      cases returned
      exact intact.counted.fork_kin ran
    · cases returned
  | clone refused =>
    simp only [Call.exec] at returned
    split at returned
    · rename_i result s ran
      cases returned
      exact intact.counted.clone_kin ran
    · cases returned
  | exit code cleanup =>
    simp only [Call.exec] at returned
    split at returned
    · rename_i s ran
      cases returned
      exact exit_kin intact.counted.bounded valid.2 ran
    · cases returned
  | exitGroup code cleanup =>
    simp only [Call.exec] at returned
    split at returned
    · split at returned
      · rename_i s ran
        cases returned
        exact exitGroup_kin intact.counted.bounded valid.2 ran
      · cases returned
    · cases returned
      exact .refl _
  | waitpid pidArg untraced stored =>
    have waited := waitScan_waited (s := r.sched) pidArg untraced stored (List.range r.sched.taskCount) false
    simp only [Call.exec, sysWaitpid] at returned
    cases scanned : waitScan r.sched pidArg untraced stored (List.range r.sched.taskCount) false with
    | mk result s =>
      rw [scanned] at returned waited
      cases returned
      exact intact.counted.waited_kin (fun t member => by simpa using member) waited

end Enlil.Sched
