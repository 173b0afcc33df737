import Enlil.Sched.ProcessLog

/-! Every run of forks, thread creations, exits and waits keeps its processes and their history in step. -/

namespace Enlil.Sched

/-- A call that changes tasks or processes. -/
inductive Call where
  | step (op : Op)
  | fork (memory : Bool)
  | clone (refused : Option Errno)
  | exit (code : Int) (cleanup : List Cleanup)
  | exitGroup (code : Int) (cleanup : Nat → List Cleanup)
  | waitpid (pidArg : Int) (untraced stored : Bool)

/-- The state of a run, with what has happened so far. -/
structure Session where
  sched : State
  log : List Event

/-- What a look for a child adds to the history. -/
def WaitResult.events : WaitResult → List Event
  | .reaped pid status => [.reaped pid status]
  | .stopped pid => [.stopped pid]
  | .failed _ | .later => []

/-- Carries out one call. -/
def Call.exec (r : Session) : Call → Except Halt Session
  | .step op =>
    match Sched.exec r.sched op with
    | .ok s => .ok { r with sched := s }
    | .error halt => .error halt
  | .fork memory =>
    match sysFork r.sched memory with
    | .ok (_, s) => .ok { r with sched := s }
    | .error halt => .error halt
  | .clone refused =>
    match sysClone r.sched refused with
    | .ok (_, s) => .ok { r with sched := s }
    | .error halt => .error halt
  | .exit code cleanup =>
    match schedTaskExitWithCode r.sched code cleanup with
    | some s => .ok ⟨s, r.log ++ [.exit (tgidOf r.sched r.sched.current) code]⟩
    | none => .error .spin
  | .exitGroup code cleanup =>
    if (r.sched.tcb r.sched.current).isUser then
      match sysExitGroup r.sched code cleanup with
      | some s => .ok ⟨s, r.log ++ [.exitGroup (tgidOf r.sched r.sched.current) code]⟩
      | none => .error .spin
    else .ok r
  | .waitpid pidArg untraced stored =>
    match sysWaitpid r.sched pidArg untraced stored with
    | (result, s) => .ok ⟨s, r.log ++ result.events⟩

/-- The task a clean-up request is about. -/
def Cleanup.task : Cleanup → Nat
  | .unblock t | .donate t _ | .clear t => t

/-- The current task has not ended. -/
def State.Awake (s : State) : Prop := (s.tcb s.current).state ≠ .zombie

instance (s : State) : Decidable s.Awake := inferInstanceAs (Decidable (¬ _))

/-- The sections that are not parts of other calls; those that are made by a task need one that has not ended. -/
def Op.Whole (s : State) : Op → Prop
  | .forkUser _ | .cloneThread _ | .exitBegin _ _ | .exitEnd _ _ => False
  | .createTask _ | .createUser _ | .yield | .block | .stop => s.Awake
  | .schedule | .exception | .unblock _ | .continue _ | .kill _ | .tick _ _ | .donate _ _ | .clear _ => True

/-- Calls are about tasks of the pool, and made by a task that has not ended. -/
def Call.Valid (r : Session) : Call → Prop
  | .step op => op.Valid r.sched ∧ op.Whole r.sched
  | .fork _ | .clone _ | .waitpid _ _ _ => r.sched.Awake
  | .exit _ cleanup => r.sched.Awake ∧ ∀ request ∈ cleanup, request.task < r.sched.taskCount
  | .exitGroup _ cleanup =>
    r.sched.Awake ∧ ∀ t < r.sched.taskCount, ∀ request ∈ cleanup t, request.task < r.sched.taskCount

instance (s : State) (op : Op) : Decidable (op.Whole s) :=
  match op with
  | .forkUser _ | .cloneThread _ | .exitBegin _ _ | .exitEnd _ _ => inferInstanceAs (Decidable False)
  | .createTask _ | .createUser _ | .yield | .block | .stop => inferInstanceAs (Decidable s.Awake)
  | .schedule | .exception | .unblock _ | .continue _ | .kill _ | .tick _ _ | .donate _ _ | .clear _ =>
    inferInstanceAs (Decidable True)

instance (r : Session) (call : Call) : Decidable (call.Valid r) :=
  match call with
  | .step op => inferInstanceAs (Decidable (op.Valid r.sched ∧ op.Whole r.sched))
  | .fork _ | .clone _ | .waitpid _ _ _ => inferInstanceAs (Decidable r.sched.Awake)
  | .exit _ cleanup =>
    inferInstanceAs (Decidable (r.sched.Awake ∧ ∀ request ∈ cleanup, request.task < r.sched.taskCount))
  | .exitGroup _ cleanup =>
    inferInstanceAs (Decidable (r.sched.Awake ∧ ∀ t < r.sched.taskCount, ∀ request ∈ cleanup t,
      request.task < r.sched.taskCount))

/-- The processes are counted right and have the history that the log says. -/
structure Intact (s : State) (log : List Event) : Prop where
  counted : Counted s
  logged : Logged s log

section

variable {s s' : State} {log : List Event} {t : Nat}

theorem Intact.sched (intact : Intact s log) (frame : SchedOnly s s') : Intact s' log :=
  ⟨intact.counted.sched frame, intact.logged.sched frame⟩

theorem bindNew_adopt {priority : UInt8} {isUser isThread : Bool} {parentPid pgid : Nat} {bound : State}
    (bind : taskBindNewProcess (withFresh s priority isUser isThread) s.taskCount parentPid pgid = some bound) :
    ∃ slot < schedMaxTasks, (s.procs slot).inUse = false ∧ ∃ pgid',
      bound = adopt s priority isUser isThread slot (Proc.fresh s.nextPid parentPid pgid') := by
  unfold taskBindNewProcess procAlloc at bind
  cases free : (List.range schedMaxTasks).find? fun i => !((withFresh s priority isUser isThread).procs i).inUse with
  | none => simp [free] at bind
  | some slot =>
    have member := List.mem_of_find?_eq_some free
    have unused := List.find?_some free
    simp only [free, Option.some.injEq] at bind
    refine ⟨slot, by simpa using member, by simpa [withFresh] using unused,
      if pgid ≠ 0 then pgid else s.nextPid, ?_⟩
    rw [← bind]
    simp [adopt, Proc.fresh, withFresh]

theorem bindShared_adopt {priority : UInt8} {isUser isThread : Bool} {bound : State}
    (inside : s.current < s.taskCount)
    (bind : taskBindSharedProcess (withFresh s priority isUser isThread) s.taskCount s.current = some bound) :
    (s.tcb s.current).procSlot < schedMaxTasks ∧ (s.procs (s.tcb s.current).procSlot).inUse = true ∧
      bound = adopt s priority isUser isThread (s.tcb s.current).procSlot
        { s.procs (s.tcb s.current).procSlot with
          refcount := ((s.procs (s.tcb s.current).procSlot).refcount + 1) % 2 ^ 16 } := by
  have same : (withFresh s priority isUser isThread).tcb s.current = s.tcb s.current := by
    simp [withFresh, inside.ne]
  have procs : (withFresh s priority isUser isThread).procs = s.procs := rfl
  unfold taskBindSharedProcess procRetain procOf at bind
  simp only [same, procs] at bind
  by_cases used : (s.tcb s.current).procSlot < schedMaxTasks ∧ (s.procs (s.tcb s.current).procSlot).inUse = true
  · have guard : ¬ ((s.tcb s.current).procSlot ≥ schedMaxTasks ∨ (s.procs (s.tcb s.current).procSlot).inUse = false) := by
      simp [used.2]
      exact used.1
    rw [if_pos used, if_neg guard] at bind
    refine ⟨used.1, used.2, ?_⟩
    simp only [Option.some.injEq] at bind
    rw [← bind]
    simp [adopt, same, State.setProc, procs]
  · rw [if_neg used] at bind
    cases bind

theorem Intact.spawnNew (intact : Intact s log) (parentPid pgid : State → Nat) {priority : UInt8}
    {isUser isThread : Bool} {noTask noProc : String}
    (returned : spawn s priority isUser isThread (fun s t => taskBindNewProcess s t (parentPid s) (pgid s))
      noTask noProc = .ok (t, s')) : Intact s' log := by
  obtain ⟨counted, logged⟩ := intact
  obtain ⟨space, rfl, bound, bind, rfl⟩ := spawn_ok returned
  obtain ⟨slot, inside, free, pgid', rfl⟩ := bindNew_adopt bind
  have adopted : Intact (adopt s priority isUser isThread slot
      (Proc.fresh s.nextPid (parentPid (withFresh s priority isUser isThread)) pgid')) log := by
    refine ⟨counted.adopt space inside rfl ?_ rfl (.inl counted.next), logged.adoptNew counted⟩
    simp [counted.live_free free, Proc.fresh]
  exact adopted.sched ((schedOnly_push (Nat.lt_succ_self _)).trans schedOnly_preempt)

theorem Intact.spawnShared (intact : Intact s log) {priority : UInt8} {isUser isThread : Bool}
    {noTask noProc : String} (awake : s.Awake)
    (returned : spawn s priority isUser isThread (fun s t => taskBindSharedProcess s t s.current)
      noTask noProc = .ok (t, s')) : Intact s' log := by
  obtain ⟨counted, logged⟩ := intact
  obtain ⟨space, rfl, bound, bind, rfl⟩ := spawn_ok returned
  have current := counted.bounded.current
  obtain ⟨inside, used, rfl⟩ := bindShared_adopt current bind
  have idle := counted.not_waitable current awake
  have count : (s.procs (s.tcb s.current).procSlot).refcount ≤ s.taskCount := by
    rw [counted.refcount _ inside]
    exact le_trans (Finset.card_filter_le _ _) (by simp)
  have adopted : Intact (adopt s priority isUser isThread (s.tcb s.current).procSlot
      { s.procs (s.tcb s.current).procSlot with
        refcount := ((s.procs (s.tcb s.current).procSlot).refcount + 1) % 2 ^ 16 }) log := by
    refine ⟨counted.adopt space inside used ?_ idle (.inr (counted.leader _ inside used)),
      logged.adoptShared counted ⟨rfl, rfl, rfl, rfl, rfl⟩ idle⟩
    rw [← counted.refcount _ inside]
    apply Nat.mod_eq_of_lt
    unfold schedMaxTasks at space
    omega
  exact adopted.sched ((schedOnly_push (Nat.lt_succ_self _)).trans schedOnly_preempt)

theorem cleanup_frame {cleanup : List Cleanup} (valid : ∀ request ∈ cleanup, request.task < s.taskCount) :
    SchedOnly s (cleanup.foldl Cleanup.apply s) ∧ (cleanup.foldl Cleanup.apply s).current = s.current := by
  induction cleanup generalizing s with
  | nil => exact ⟨SchedOnly.refl s, rfl⟩
  | cons request rest ih =>
    have inside := valid request (by simp)
    have first : SchedOnly s (request.apply s) ∧ (request.apply s).current = s.current := by
      cases request with
      | unblock t => exact ⟨schedOnly_unblock inside, quiet_unblock.current⟩
      | donate t prio => exact ⟨schedOnly_donate inside prio, (quiet_donate prio).current⟩
      | clear t => exact ⟨schedOnly_clear inside, quiet_clear.current⟩
    obtain ⟨frame, current⟩ := ih (s := request.apply s) fun other member => by
      rw [first.1.taskCount]
      exact valid other (by simp [member])
    exact ⟨first.1.trans frame, current.trans first.2⟩

/-- What the end of a task leaves alone. -/
structure Ends (s : State) (t : Nat) (s' : State) : Prop where
  taskCount : s'.taskCount = s.taskCount
  current : s'.current = s.current
  task : ∀ other, other ≠ t → (s'.tcb other).procSlot = (s.tcb other).procSlot ∧
    ((s'.tcb other).state = .zombie ↔ (s.tcb other).state = .zombie)
  proc : ∀ slot, SameProc (s.procs slot) (s'.procs slot)

theorem SameProc.refl (proc : Proc) : SameProc proc proc := ⟨rfl, rfl, rfl, rfl, rfl⟩

theorem sameProc_set (slot : Nat) {g : Proc → Proc} (same : SameProc (s.procs slot) (g (s.procs slot))) (other : Nat) :
    SameProc (s.procs other) ((s.setProc slot g).procs other) := by
  by_cases own : other = slot
  · subst own
    rw [setProc_self]
    exact same
  · rw [setProc_other g own]
    exact SameProc.refl _

theorem SameProc.trans {a b c : Proc} (first : SameProc a b) (second : SameProc b c) : SameProc a c :=
  ⟨second.inUse.trans first.inUse, second.tgid.trans first.tgid, second.parentPid.trans first.parentPid,
    second.groupExiting.trans first.groupExiting, second.groupExitCode.trans first.groupExitCode⟩

theorem procRelease_proc (slot : Nat) (code : Int) (other : Nat) :
    SameProc (s.procs other) ((procRelease s slot code).procs other) := by
  have first := sameProc_set (s := s) slot (g := fun proc => { proc with refcount := proc.refcount - 1 })
    ⟨rfl, rfl, rfl, rfl, rfl⟩ other
  unfold procRelease
  dsimp only
  split
  · exact SameProc.refl _
  · split
    · exact first
    · split
      · rw [setTcb_procs]
        exact first.trans (sameProc_set _ ⟨rfl, rfl, rfl, rfl, rfl⟩ other)
      · exact first.trans (sameProc_set _ ⟨rfl, rfl, rfl, rfl, rfl⟩ other)

theorem ends_release (slot : Nat) (code : Int) :
    Ends s t ((procRelease s slot code).setTcb t fun tcb => { tcb with state := .zombie }) := by
  have task : ∀ other, ((procRelease s slot code).tcb other).procSlot = (s.tcb other).procSlot ∧
      ((procRelease s slot code).tcb other).state = (s.tcb other).state := by
    intro other
    obtain ⟨procs, same | ⟨leader, final, same⟩⟩ := procRelease_frame s slot code
    · rw [same]
      exact ⟨rfl, rfl⟩
    · rw [same]
      by_cases own : other = leader
      · simp [own]
      · simp [own]
  refine ⟨(quiet_release slot code).taskCount, (quiet_release slot code).current, fun other apart => ?_,
    fun other => procRelease_proc slot code other⟩
  rw [setTcb_other _ apart, (task other).1, (task other).2]
  exact ⟨rfl, Iff.rfl⟩

theorem Intact.finishEnd (intact : Intact s log) (inside : t < s.taskCount) (alive : (s.tcb t).state ≠ .zombie)
    {code : Int} (noted : finalCode log (s.procs (s.tcb t).procSlot).tgid =
      some ((s.procs (s.tcb t).procSlot).finalCode code)) :
    Intact (finishExitEnd s t code) log ∧ Ends s t (finishExitEnd s t code) := by
  obtain ⟨counted, logged⟩ := intact
  unfold finishExitEnd
  dsimp only
  have calm : Intact (s.setTcb t fun tcb => { tcb with stopped := false, stopReported := false }) log :=
    ⟨counted.keep (fun _ => rfl) (fun _ => rfl) (fun _ => rfl) (fun _ stops => (by cases stops)) fun _ => rfl,
      logged.change (fun slot small used waits => counted.leader_ne inside alive small used waits) fun _ => rfl⟩
  have task : ∀ other, ((s.setTcb t fun tcb => { tcb with stopped := false, stopReported := false }).tcb other).procSlot =
      (s.tcb other).procSlot := by
    intro other
    by_cases own : other = t
    · simp [own]
    · simp [own]
  have lives : ((s.setTcb t fun tcb => { tcb with stopped := false, stopReported := false }).tcb t).state ≠ .zombie := by
    simpa using alive
  refine ⟨⟨calm.counted.releaseZombie inside lives (by simp) code,
    calm.logged.releaseZombie calm.counted inside lives (by rw [task]; exact noted)⟩, ?_⟩
  have released := ends_release (s := s.setTcb t fun tcb => { tcb with stopped := false, stopReported := false }) (t := t)
    ((s.setTcb t fun tcb => { tcb with stopped := false, stopReported := false }).tcb t).procSlot code
  refine ⟨released.taskCount, released.current, fun other apart => ?_, released.proc⟩
  obtain ⟨own, dead⟩ := released.task other apart
  exact ⟨own.trans (task other), by rw [dead, setTcb_state rfl]⟩

theorem Intact.finish (intact : Intact s log) (inside : t < s.taskCount) (alive : (s.tcb t).state ≠ .zombie)
    {cleanup : List Cleanup} (valid : ∀ request ∈ cleanup, request.task < s.taskCount) {code : Int}
    (noted : finalCode log (s.procs (s.tcb t).procSlot).tgid =
      some ((s.procs (s.tcb t).procSlot).finalCode code)) :
    Intact (schedTaskFinishExit s t code cleanup) log ∧ Ends s t (schedTaskFinishExit s t code cleanup) := by
  obtain ⟨counted, logged⟩ := intact
  -- The task has its code, and leaves its queue.
  have coded : Intact (s.setTcb t fun tcb => { tcb with exitCode := code }) log := by
    refine ⟨counted.keep (fun _ => rfl) (fun _ => rfl) (fun _ => rfl) (fun _ => id) fun _ => rfl,
      logged.change (fun slot small used waits => counted.leader_ne inside alive small used waits) fun _ => rfl⟩
  have begun : SchedOnly (s.setTcb t fun tcb => { tcb with exitCode := code }) (finishExitBegin s t code) := by
    unfold finishExitBegin
    dsimp only
    split
    · exact schedOnly_remove _
    · exact SchedOnly.refl _
  -- Then the other subsystems forget it.
  obtain ⟨cleaned, current⟩ := cleanup_frame (s := finishExitBegin s t code) fun request member =>
    lt_of_lt_of_eq (valid request member) begun.taskCount.symm
  have forgotten := begun.trans cleaned
  have procs := forgotten.procs
  have slot : ((cleanup.foldl Cleanup.apply (finishExitBegin s t code)).tcb t).procSlot = (s.tcb t).procSlot :=
    (forgotten.task t).procSlot.trans (by simp)
  have alive' : ((cleanup.foldl Cleanup.apply (finishExitBegin s t code)).tcb t).state ≠ .zombie := by
    rw [Ne, (forgotten.task t).zombie]
    simpa using alive
  -- Last its process loses a reference.
  obtain ⟨intact', ends⟩ := (coded.sched forgotten).finishEnd (lt_of_lt_of_eq inside forgotten.taskCount.symm) alive'
    (by rw [slot, procs]; exact noted)
  refine ⟨intact', ends.taskCount.trans forgotten.taskCount,
    ends.current.trans (current.trans (quiet_exitBegin code).current), fun other apart => ?_, fun slot => ?_⟩
  · obtain ⟨own, dead⟩ := ends.task other apart
    have before := forgotten.task other
    rw [setTcb_other _ apart] at before
    exact ⟨own.trans before.procSlot, dead.trans before.zombie⟩
  · have proc := ends.proc slot
    rw [procs] at proc
    exact proc

theorem Counted.procOf_live (counted : Counted s) (inside : t < s.taskCount) (alive : (s.tcb t).state ≠ .zombie) :
    procOf s t = some (s.procs (s.tcb t).procSlot) := by
  obtain ⟨small, used⟩ := counted.held t inside alive
  simp [procOf, small, used]

theorem Counted.tgidOf_live (counted : Counted s) (inside : t < s.taskCount) (alive : (s.tcb t).state ≠ .zombie) :
    tgidOf s t = (s.procs (s.tcb t).procSlot).tgid := by
  simp [tgidOf, counted.procOf_live inside alive]

theorem Logged.noted_group (logged : Logged s log) {slot : Nat} (small : slot < schedMaxTasks)
    (used : (s.procs slot).inUse = true) (ending : (s.procs slot).groupExiting = true) (code : Int) :
    finalCode log (s.procs slot).tgid = some ((s.procs slot).finalCode code) := by
  have group := logged.group slot small used
  rw [if_pos ending] at group
  simp [finalCode, group, Proc.finalCode, ending]

theorem Logged.noted_exit (logged : Logged s log) {slot : Nat} (small : slot < schedMaxTasks)
    (used : (s.procs slot).inUse = true) (code : Int) :
    finalCode (log ++ [.exit (s.procs slot).tgid code]) (s.procs slot).tgid =
      some ((s.procs slot).finalCode code) := by
  have group := logged.group slot small used
  rw [finalCode_append, group]
  by_cases ending : (s.procs slot).groupExiting = true
  · simp [Event.groupCode, Proc.finalCode, ending]
  · simp [Event.groupCode, Event.taskCode, Proc.finalCode, ending]

theorem Intact.exit (intact : Intact s log) (awake : s.Awake) {cleanup : List Cleanup}
    (valid : ∀ request ∈ cleanup, request.task < s.taskCount) {code : Int}
    (returned : schedTaskExitWithCode s code cleanup = some s') :
    Intact s' (log ++ [.exit (tgidOf s s.current) code]) := by
  have inside := intact.counted.bounded.current
  obtain ⟨small, used⟩ := intact.counted.held _ inside awake
  rw [intact.counted.tgidOf_live inside awake]
  have noted : Intact s (log ++ [.exit (s.procs (s.tcb s.current).procSlot).tgid code]) :=
    ⟨intact.counted, intact.logged.note intact.counted inside awake code⟩
  obtain ⟨ended, -⟩ := noted.finish inside awake valid (intact.logged.noted_exit small used code)
  exact ended.sched (schedOnly_schedule ended.counted.bounded returned)

theorem Intact.endOthers (intact : Intact s log) (cleanup : Nat → List Cleanup) (code : Int) {slot : Nat}
    (small : slot < schedMaxTasks) (ts : List Nat) (inside : ∀ t ∈ ts, t < s.taskCount)
    (valid : ∀ t < s.taskCount, ∀ request ∈ cleanup t, request.task < s.taskCount)
    (used : (s.procs slot).inUse = true) (ending : (s.procs slot).groupExiting = true) :
    let s' := ts.foldl
      (fun s' t =>
        if t = s'.current ∨ (s'.tcb t).state = .zombie ∨ (s'.tcb t).procSlot ≠ slot then s'
        else schedTaskFinishExit s' t code (cleanup t)) s
    Intact s' log ∧ s'.taskCount = s.taskCount ∧ s'.current = s.current ∧
      ((s'.tcb s.current).procSlot = (s.tcb s.current).procSlot) ∧
      ((s'.tcb s.current).state = .zombie ↔ (s.tcb s.current).state = .zombie) ∧
      SameProc (s.procs slot) (s'.procs slot) := by
  induction ts generalizing s with
  | nil => exact ⟨intact, rfl, rfl, rfl, Iff.rfl, SameProc.refl _⟩
  | cons t rest ih =>
    rw [List.foldl_cons]
    split
    · exact ih intact (fun other member => inside other (by simp [member])) valid used ending
    · rename_i sibling
      push Not at sibling
      obtain ⟨other, alive, own⟩ := sibling
      have here := inside t (by simp)
      obtain ⟨intact', ends⟩ := intact.finish here alive (valid t here)
        (by rw [own]; exact intact.logged.noted_group small used ending code)
      obtain ⟨after, count, current, task, dead, proc⟩ := ih intact'
        (fun other member => lt_of_lt_of_eq (inside other (by simp [member])) ends.taskCount.symm)
        (by rw [ends.taskCount]; exact valid) ((ends.proc slot).inUse.trans used)
        ((ends.proc slot).groupExiting.trans ending)
      rw [ends.current] at current task dead
      obtain ⟨task', dead'⟩ := ends.task s.current other.symm
      exact ⟨after, count.trans ends.taskCount, current, task.trans task', dead.trans dead', (ends.proc slot).trans proc⟩

/-- A whole process ends. -/
theorem Intact.exitGroup (intact : Intact s log) (awake : s.Awake) {cleanup : Nat → List Cleanup}
    (valid : ∀ t < s.taskCount, ∀ request ∈ cleanup t, request.task < s.taskCount) {code : Int}
    (user : (s.tcb s.current).isUser = true) (returned : sysExitGroup s code cleanup = some s') :
    Intact s' (log ++ [.exitGroup (tgidOf s s.current) code]) := by
  have inside := intact.counted.bounded.current
  obtain ⟨small, used⟩ := intact.counted.held _ inside awake
  rw [intact.counted.tgidOf_live inside awake]
  have guard : ¬ ((s.tcb s.current).procSlot ≥ schedMaxTasks ∨ (s.procs (s.tcb s.current).procSlot).inUse = false) := by
    simp [used]
    omega
  have marked : Intact (procSetGroupExit s (s.tcb s.current).procSlot code)
      (log ++ [.exitGroup (s.procs (s.tcb s.current).procSlot).tgid code]) := by
    refine ⟨?_, intact.logged.groupExit intact.counted inside awake code⟩
    rw [procSetGroupExit, if_neg guard]
    exact intact.counted.keepProc rfl rfl rfl rfl
  have tasks : (procSetGroupExit s (s.tcb s.current).procSlot code).taskCount = s.taskCount ∧
      (procSetGroupExit s (s.tcb s.current).procSlot code).current = s.current ∧
      (procSetGroupExit s (s.tcb s.current).procSlot code).tcb = s.tcb := by
    rw [procSetGroupExit, if_neg guard]
    exact ⟨rfl, rfl, rfl⟩
  have proc : ((procSetGroupExit s (s.tcb s.current).procSlot code).procs (s.tcb s.current).procSlot).inUse = true ∧
      ((procSetGroupExit s (s.tcb s.current).procSlot code).procs (s.tcb s.current).procSlot).groupExiting = true := by
    rw [procSetGroupExit, if_neg guard, setProc_self]
    exact ⟨used, rfl⟩
  -- The siblings end first, and the caller is still there after them.
  obtain ⟨others, count, current, slot, dead, same⟩ := marked.endOthers cleanup code small
    (List.range s.taskCount) (fun t member => by rw [tasks.1]; simpa using member)
    (by rw [tasks.1]; exact valid) proc.1 proc.2
  rw [tasks.1] at count
  rw [tasks.2.1] at current slot dead
  rw [tasks.2.2] at slot dead
  have begun : schedTaskExitWithCode (schedTaskBeginExitGroup s code cleanup) code (cleanup s.current) = some s' := by
    simpa [sysExitGroup, user] using returned
  have others : Intact (schedTaskBeginExitGroup s code cleanup)
      (log ++ [.exitGroup (s.procs (s.tcb s.current).procSlot).tgid code]) := others
  have current : (schedTaskBeginExitGroup s code cleanup).current = s.current := current
  have slot : ((schedTaskBeginExitGroup s code cleanup).tcb s.current).procSlot = (s.tcb s.current).procSlot := slot
  have alive : ((schedTaskBeginExitGroup s code cleanup).tcb s.current).state ≠ .zombie := fun zombie =>
    awake (dead.mp zombie)
  have noted := others.logged.noted_group small (same.inUse.trans proc.1) (same.groupExiting.trans proc.2) code
  unfold schedTaskExitWithCode at begun
  rw [current] at begun
  obtain ⟨ended, -⟩ := others.finish (t := s.current) (lt_of_lt_of_eq inside count.symm) alive
    (fun request member => lt_of_lt_of_eq (valid _ inside request member) count.symm) (by rw [slot]; exact noted)
  exact ended.sched (schedOnly_schedule ended.counted.bounded begun)

/-- What a look over some tasks for a child can come to. -/
inductive Waited (s : State) (ts : List Nat) : WaitResult × State → Prop where
  | reaped (t : Nat) : t ∈ ts → schedTaskIsProcessWaitable s t = true → parentPidOf s t = tgidOf s s.current →
      Waited s ts (.reaped (s.tcb t).pid (exitStatus (s.tcb t).exitCode), schedTaskMarkReaped s t)
  | stopped (t : Nat) : t ∈ ts → (s.tcb t).stopped = true →
      Waited s ts (.stopped (s.tcb t).pid, s.setTcb t fun tcb => { tcb with stopReported := true })
  | unstored (t : Nat) : t ∈ ts → (s.tcb t).stopped = true →
      Waited s ts (.failed .efault, s.setTcb t fun tcb => { tcb with stopReported := true })
  | failed (error : Errno) : Waited s ts (.failed error, s)
  | later : Waited s ts (.later, s)

theorem Waited.cons {ts : List Nat} {outcome : WaitResult × State} (t : Nat) (waited : Waited s ts outcome) :
    Waited s (t :: ts) outcome := by
  cases waited with
  | reaped t member waits parent => exact .reaped t (List.mem_cons_of_mem _ member) waits parent
  | stopped t member stops => exact .stopped t (List.mem_cons_of_mem _ member) stops
  | unstored t member stops => exact .unstored t (List.mem_cons_of_mem _ member) stops
  | failed error => exact .failed error
  | later => exact .later

theorem waitScan_waited (pidArg : Int) (untraced stored : Bool) (ts : List Nat) (matched : Bool) :
    Waited s ts (waitScan s pidArg untraced stored ts matched) := by
  induction ts generalizing matched with
  | nil =>
    rw [waitScan]
    cases matched
    · exact .failed _
    · exact .later
  | cons t rest ih =>
    unfold waitScan
    split
    · exact (ih matched).cons t
    · rename_i child
      have parent : parentPidOf s t = tgidOf s s.current := by
        by_contra other
        simp [other] at child
      split
      · rename_i dead
        have waits : schedTaskIsProcessWaitable s t = true := by
          rw [Bool.and_eq_true] at dead
          exact dead.2
        split
        · exact .reaped t (List.mem_cons_self ..) waits parent
        · exact .failed _
      · split
        · rename_i s' report
          unfold signalTaskConsumeStopReport at report
          split at report
          · rename_i stops
            have stops : (s.tcb t).stopped = true := by
              rw [Bool.and_eq_true] at stops
              exact stops.1
            cases report
            split
            · have pid : ((s.setTcb t fun tcb => { tcb with stopReported := true }).tcb t).pid = (s.tcb t).pid := by simp
              rw [pid]
              exact .stopped t (List.mem_cons_self ..) stops
            · exact .unstored t (List.mem_cons_self ..) stops
          · cases report
        · exact (ih true).cons t

theorem Counted.waitable_slot (counted : Counted s) (inside : t < s.taskCount)
    (waits : schedTaskIsProcessWaitable s t = true) :
    (s.tcb t).procSlot < schedMaxTasks ∧ (s.procs (s.tcb t).procSlot).inUse = true ∧
      (s.procs (s.tcb t).procSlot).tgid = t ∧ (s.procs (s.tcb t).procSlot).waitable = true := by
  unfold schedTaskIsProcessWaitable procOf at waits
  by_cases used : (s.tcb t).procSlot < schedMaxTasks ∧ (s.procs (s.tcb t).procSlot).inUse = true
  · simp only [if_pos used, Bool.and_eq_true, decide_eq_true_eq] at waits
    rw [counted.pid t inside] at waits
    exact ⟨used.1, used.2, waits.1.symm, waits.2⟩
  · simp [if_neg used] at waits

theorem Intact.named (intact : Intact s log) (awake : s.Awake) (inside : t < s.taskCount)
    (waits : schedTaskIsProcessWaitable s t = true) (parent : parentPidOf s t = tgidOf s s.current) : t ≠ 0 := by
  obtain ⟨counted, logged⟩ := intact
  rintro rfl
  obtain ⟨small, used, leads, waitable⟩ := counted.waitable_slot inside waits
  have current := counted.bounded.current
  obtain ⟨small', used'⟩ := counted.held _ current awake
  -- The caller would be a task of that process, which has none left.
  have none : parentPidOf s 0 = 0 := by
    simpa [parentPidOf, procOf, small, used] using logged.root _ small used leads
  rw [none, counted.tgidOf_live current awake] at parent
  have same := counted.tgid_inj small small' used used' (leads.trans parent)
  have idle := counted.not_waitable current awake
  rw [← same, waitable] at idle
  cases idle

theorem Intact.waited (intact : Intact s log) (awake : s.Awake) {ts : List Nat} (inside : ∀ t ∈ ts, t < s.taskCount)
    {result : WaitResult} (waited : Waited s ts (result, s')) :
    Intact s' (log ++ result.events) ∧ ∀ pid, result = .stopped pid → (s.tcb pid).state ≠ .zombie := by
  have reported : ∀ t, t < s.taskCount → (s.tcb t).stopped = true → (s.tcb t).state ≠ .zombie ∧
      Intact (s.setTcb t fun tcb => { tcb with stopReported := true }) log := by
    intro t small stops
    have alive : (s.tcb t).state ≠ .zombie := by
      intro dead
      rw [intact.counted.still t small dead] at stops
      cases stops
    refine ⟨alive, intact.counted.keep (fun _ => rfl) (fun _ => rfl) (fun _ => rfl) (fun _ => id) fun _ => rfl,
      intact.logged.change (fun slot small' used waits => ?_) fun _ => rfl⟩
    exact intact.counted.leader_ne small alive small' used waits
  cases waited with
  | reaped t member waits parent =>
    obtain ⟨small, used, leads, waitable⟩ := intact.counted.waitable_slot (inside t member) waits
    have named := intact.named awake (inside t member) waits parent
    have marked : schedTaskMarkReaped s t =
        s.setProc (s.tcb t).procSlot fun proc => { proc with waitable := false, inUse := false } := by
      simp [schedTaskMarkReaped, procOf, small, used]
    have logged := intact.logged.reap intact.counted small used waitable (by rw [leads]; exact named)
    rw [leads] at logged
    rw [marked, intact.counted.pid t (inside t member)]
    exact ⟨⟨intact.counted.reap small used waitable, logged⟩, fun pid none => (by cases none)⟩
  | stopped t member stops =>
    obtain ⟨alive, intact'⟩ := reported t (inside t member) stops
    rw [intact.counted.pid t (inside t member)]
    refine ⟨⟨intact'.counted, intact'.logged.stopped (inside t member) (by rw [setTcb_state rfl]; exact alive)⟩,
      fun pid same => ?_⟩
    cases same
    exact alive
  | unstored t member stops =>
    refine ⟨?_, fun pid none => (by cases none)⟩
    simpa [WaitResult.events] using (reported t (inside t member) stops).2
  | failed error => exact ⟨by simpa [WaitResult.events] using intact, fun pid none => (by cases none)⟩
  | later => exact ⟨by simpa [WaitResult.events] using intact, fun pid none => (by cases none)⟩

/-- The sections that create a task. -/
def Op.Creates : Op → Prop
  | .createTask _ | .createUser _ => True
  | _ => False

theorem schedOnly_step (bounded : Bounded s) {op : Op} (valid : op.Valid s) (whole : op.Whole s) (plain : ¬ op.Creates)
    (returned : exec s op = .ok s') : SchedOnly s s' := by
  cases op with
  | createTask priority => exact absurd trivial plain
  | createUser priority => exact absurd trivial plain
  | forkUser priority => cases whole
  | cloneThread priority => cases whole
  | schedule => exact schedOnly_schedule bounded (orSpin_ok returned)
  | exception =>
    have ran := orSpin_ok returned
    unfold scheduleFromException at ran
    split at ran
    · have asked := schedOnly_resched (s := s) false
      exact asked.trans (schedOnly_schedule (asked.bounded bounded) ran)
    · cases ran
      exact SchedOnly.refl s
  | yield =>
    have given := schedOnly_setTcb (s := s) (t := s.current) (f := fun t => { t with ticksLeft := 0 })
      ⟨rfl, rfl, rfl, rfl, rfl, rfl, Iff.rfl, fun _ => id⟩
    exact given.trans (schedOnly_schedule (given.bounded bounded) (orSpin_ok returned))
  | block =>
    have blocked := schedOnly_turn (s := s) (t := s.current) (f := fun t => { t with state := .blocked })
      (fun _ => ⟨rfl, rfl, rfl, rfl, rfl, rfl, Iff.rfl, fun _ => id⟩) whole (by simp)
    exact blocked.trans (schedOnly_schedule (blocked.bounded bounded) (orSpin_ok returned))
  | unblock t =>
    cases returned
    exact schedOnly_unblock valid
  | stop =>
    cases returned
    refine schedOnly_turn (fun task => ?_) whole (by simp)
    exact ⟨rfl, rfl, rfl, rfl, rfl, rfl, Iff.rfl, fun dead => by cases dead⟩
  | «continue» t =>
    cases returned
    unfold signalContinue
    split
    · exact SchedOnly.refl s
    · have freed := schedOnly_setTcb (s := s) (t := t)
        (f := fun tcb => { tcb with stopped := false, stopReported := false })
        ⟨rfl, rfl, rfl, rfl, rfl, rfl, Iff.rfl, fun _ stops => by cases stops⟩
      exact freed.trans (schedOnly_unblock (by exact valid))
  | kill t =>
    cases returned
    unfold signalKill
    split
    · have freed := schedOnly_setTcb (s := s) (t := t) (f := fun tcb => { tcb with stopped := false })
        ⟨rfl, rfl, rfl, rfl, rfl, rfl, Iff.rfl, fun _ stops => by cases stops⟩
      exact freed.trans (schedOnly_unblock (by exact valid))
    · exact SchedOnly.refl s
  | tick jiffies timerExpired =>
    cases returned
    exact schedOnly_tick jiffies timerExpired
  | donate t prio =>
    cases returned
    exact schedOnly_donate valid prio
  | clear t =>
    cases returned
    exact schedOnly_clear valid
  | exitBegin t code => cases whole
  | exitEnd t code => cases whole

theorem Intact.step (intact : Intact s log) {op : Op} (valid : op.Valid s) (whole : op.Whole s)
    (returned : exec s op = .ok s') : Intact s' log := by
  by_cases creates : op.Creates
  · cases op with
    | createTask priority =>
      obtain ⟨t, spawned⟩ := created_ok returned
      exact intact.spawnNew (fun _ => 0) (fun s => pgidOf s s.current) spawned
    | createUser priority =>
      obtain ⟨t, spawned⟩ := created_ok returned
      exact intact.spawnNew (fun s => tgidOf s s.current) (fun s => pgidOf s s.current) spawned
    | _ => cases creates
  · exact intact.sched (schedOnly_step intact.counted.bounded valid whole creates returned)

theorem Intact.fork (intact : Intact s log) {memory : Bool} {result : Except Errno Nat}
    (returned : sysFork s memory = .ok (result, s')) : Intact s' log := by
  unfold sysFork at returned
  repeat' split at returned
  · cases returned
    exact intact
  · cases returned
  · cases returned
    exact intact
  · cases returned
    exact intact
  · cases returned
  · rename_i child s'' spawned
    cases returned
    exact intact.spawnNew (fun s => tgidOf s s.current) (fun s => pgidOf s s.current) spawned

theorem Intact.clone (intact : Intact s log) (awake : s.Awake) {refused : Option Errno} {result : Except Errno Nat}
    (returned : sysClone s refused = .ok (result, s')) : Intact s' log := by
  unfold sysClone at returned
  repeat' split at returned
  · cases returned
    exact intact
  · cases returned
    exact intact
  · cases returned
    exact intact
  · cases returned
  · rename_i child s'' spawned
    cases returned
    exact intact.spawnShared awake spawned

end

section

variable {r r' : Session}

theorem Intact.call (intact : Intact r.sched r.log) {call : Call} (valid : call.Valid r)
    (returned : call.exec r = .ok r') : Intact r'.sched r'.log := by
  cases call with
  | step op =>
    simp only [Call.exec] at returned
    split at returned
    · rename_i s ran
      cases returned
      exact intact.step valid.1 valid.2 ran
    · cases returned
  | fork memory =>
    simp only [Call.exec] at returned
    split at returned
    · rename_i result s ran
      cases returned
      exact intact.fork ran
    · cases returned
  | clone refused =>
    simp only [Call.exec] at returned
    split at returned
    · rename_i result s ran
      cases returned
      exact intact.clone valid ran
    · cases returned
  | exit code cleanup =>
    simp only [Call.exec] at returned
    split at returned
    · rename_i s ran
      cases returned
      exact intact.exit valid.1 valid.2 ran
    · cases returned
  | exitGroup code cleanup =>
    simp only [Call.exec] at returned
    split at returned
    · rename_i user
      split at returned
      · rename_i s ran
        cases returned
        exact intact.exitGroup valid.1 valid.2 user ran
      · cases returned
    · cases returned
      exact intact
  | waitpid pidArg untraced stored =>
    have waited := waitScan_waited (s := r.sched) pidArg untraced stored (List.range r.sched.taskCount) false
    simp only [Call.exec, sysWaitpid] at returned
    cases scanned : waitScan r.sched pidArg untraced stored (List.range r.sched.taskCount) false with
    | mk result s =>
      rw [scanned] at returned waited
      cases returned
      exact (intact.waited valid (fun t member => by simpa using member) waited).1

theorem schedInit_intact : Intact schedInit [] := by
  constructor
  · refine ⟨⟨by decide, fun p t linked => ?_⟩, by decide, rfl, by decide, by decide, by decide, by decide, by decide,
      by decide, by decide, by decide⟩
    have bounded := schedInit_queues.1.member p t linked
    exact bounded.1
  · refine ⟨fun event member => (by cases member), by decide, by decide, by decide,
      fun slot small used status member => (by cases member), fun pid status member => (by cases member), ?_⟩
    intro before pid status after split
    simp at split

theorem run_intact_processes (run : Run (fun r call => Call.exec r call) (fun r call => call.Valid r) ⟨schedInit, []⟩ r) :
    Intact r.sched r.log := by
  induction run with
  | start => exact schedInit_intact
  | call call _ valid returned ih => exact ih.call valid returned

end

/-- A user task forks; the leader of the child ends with 5, a thread of it ends the child with 7, and the parent waits. -/
def forkedChild : List Call :=
  [.step (.createUser 100), .step .block, .fork true, .step .yield, .clone none, .exit 5 [], .step .yield,
    .exitGroup 7 fun _ => [], .waitpid (-1) false true]

end Enlil.Sched
