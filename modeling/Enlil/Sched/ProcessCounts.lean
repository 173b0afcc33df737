import Enlil.Sched.Lifetime

/-! The references to a process are as many as its tasks that have not ended. -/

namespace Enlil.Sched

/-- The tasks of a process slot that have not ended. -/
def State.live (s : State) (slot : Nat) : Finset Nat :=
  (Finset.range s.taskCount).filter fun t => (s.tcb t).procSlot = slot ∧ (s.tcb t).state ≠ .zombie

/--
The process slots and the tasks fit together.

A task is named by its place in the pool, and the slot of a process by the task that started it; a zombie may keep
the number of a slot that has been given to another process.
-/
structure Counted (s : State) : Prop where
  bounded : Bounded s
  room : s.taskCount ≤ schedMaxTasks
  next : s.nextPid = s.taskCount
  pid : ∀ t < s.taskCount, (s.tcb t).pid = t
  refcount : ∀ slot < schedMaxTasks, (s.procs slot).refcount = (s.live slot).card
  held : ∀ t < s.taskCount, (s.tcb t).state ≠ .zombie →
    (s.tcb t).procSlot < schedMaxTasks ∧ (s.procs (s.tcb t).procSlot).inUse = true
  leader : ∀ slot < schedMaxTasks, (s.procs slot).inUse = true →
    (s.procs slot).tgid < s.taskCount ∧ (s.tcb (s.procs slot).tgid).procSlot = slot
  waitable : ∀ slot < schedMaxTasks, (s.procs slot).inUse = true →
    ((s.procs slot).waitable = true ↔ (s.procs slot).refcount = 0)
  free : ∀ slot < schedMaxTasks, (s.procs slot).inUse = false → (s.procs slot).waitable = false
  still : ∀ t < s.taskCount, (s.tcb t).state = .zombie → (s.tcb t).stopped = false
  plain : ∀ t < s.taskCount, (s.tcb t).isRt = false

section

variable {s s' : State} {t slot : Nat} {f : Tcb → Tcb}

@[simp] theorem mem_live : t ∈ s.live slot ↔ t < s.taskCount ∧ (s.tcb t).procSlot = slot ∧ (s.tcb t).state ≠ .zombie := by
  simp [State.live]

theorem live_congr (taskCount : s'.taskCount = s.taskCount)
    (task : ∀ t < s.taskCount, (s'.tcb t).procSlot = (s.tcb t).procSlot ∧
      ((s'.tcb t).state = .zombie ↔ (s.tcb t).state = .zombie)) : s'.live slot = s.live slot := by
  ext t
  rw [mem_live, mem_live, taskCount]
  constructor
  · rintro ⟨inside, own, alive⟩
    exact ⟨inside, (task t inside).1 ▸ own, fun dead => alive ((task t inside).2.mpr dead)⟩
  · rintro ⟨inside, own, alive⟩
    exact ⟨inside, (task t inside).1.trans own, fun dead => alive ((task t inside).2.mp dead)⟩

theorem Counted.live_free (counted : Counted s) (free : (s.procs slot).inUse = false) : s.live slot = ∅ := by
  ext t
  simp only [mem_live, Finset.notMem_empty, iff_false]
  rintro ⟨inside, rfl, alive⟩
  have used := (counted.held t inside alive).2
  rw [free] at used
  cases used

theorem Counted.sched (counted : Counted s) (frame : SchedOnly s s') : Counted s' := by
  have live : ∀ slot, s'.live slot = s.live slot := fun slot =>
    live_congr frame.taskCount fun t _ => ⟨(frame.task t).procSlot, (frame.task t).zombie⟩
  refine ⟨frame.bounded counted.bounded, frame.taskCount ▸ counted.room,
    by rw [frame.nextPid, frame.taskCount]; exact counted.next, fun t inside => ?_, fun slot small => ?_,
    fun t inside alive => ?_, fun slot small used => ?_, fun slot small used => ?_, fun slot small free => ?_,
    fun t inside dead => ?_, fun t inside => ?_⟩
  · rw [(frame.task t).pid]
    exact counted.pid t (frame.taskCount ▸ inside)
  · rw [frame.procs, live]
    exact counted.refcount slot small
  · rw [(frame.task t).procSlot, frame.procs]
    exact counted.held t (frame.taskCount ▸ inside) fun dead => alive ((frame.task t).zombie.mpr dead)
  · rw [frame.procs] at used ⊢
    rw [frame.taskCount, (frame.task _).procSlot]
    exact counted.leader slot small used
  · rw [frame.procs] at used ⊢
    exact counted.waitable slot small used
  · rw [frame.procs] at free ⊢
    exact counted.free slot small free
  · have before := (frame.task t).zombie.mp dead
    by_contra stopped
    have was := (frame.task t).still before (by simpa using stopped)
    rw [counted.still t (frame.taskCount ▸ inside) before] at was
    cases was
  · rw [(frame.task t).isRt]
    exact counted.plain t (frame.taskCount ▸ inside)

theorem Counted.keep (counted : Counted s) (pid : ∀ task, (f task).pid = task.pid)
    (procSlot : ∀ task, (f task).procSlot = task.procSlot) (state : ∀ task, (f task).state = task.state)
    (stopped : ∀ task, (f task).stopped = true → task.stopped = true) (isRt : ∀ task, (f task).isRt = task.isRt) :
    Counted (s.setTcb t f) := by
  have task : ∀ other, ((s.setTcb t f).tcb other).pid = (s.tcb other).pid ∧
      ((s.setTcb t f).tcb other).procSlot = (s.tcb other).procSlot ∧
      ((s.setTcb t f).tcb other).state = (s.tcb other).state ∧
      (((s.setTcb t f).tcb other).stopped = true → (s.tcb other).stopped = true) ∧
      ((s.setTcb t f).tcb other).isRt = (s.tcb other).isRt := by
    intro other
    by_cases own : other = t
    · subst own
      rw [setTcb_self]
      exact ⟨pid _, procSlot _, state _, stopped _, isRt _⟩
    · rw [setTcb_other f own]
      exact ⟨rfl, rfl, rfl, id, rfl⟩
  have live : ∀ slot, (s.setTcb t f).live slot = s.live slot := fun slot =>
    live_congr rfl fun t _ => ⟨(task t).2.1, by rw [(task t).2.2.1]⟩
  refine ⟨⟨counted.bounded.current, counted.bounded.linked⟩, counted.room, counted.next, fun t inside => ?_,
    fun slot small => ?_, fun t inside alive => ?_, fun slot small used => ?_, counted.waitable, counted.free,
    fun t inside dead => ?_, fun t inside => ?_⟩
  · rw [(task t).1]
    exact counted.pid t inside
  · rw [live]
    exact counted.refcount slot small
  · rw [(task t).2.1]
    exact counted.held t inside ((task t).2.2.1 ▸ alive)
  · rw [(task _).2.1]
    exact counted.leader slot small used
  · by_contra stops
    have before := (task t).2.2.2.1 (by simpa using stops)
    rw [counted.still t inside ((task t).2.2.1 ▸ dead)] at before
    cases before
  · rw [(task t).2.2.2.2]
    exact counted.plain t inside

theorem Counted.refcount_pos (counted : Counted s) (inside : t < s.taskCount) (alive : (s.tcb t).state ≠ .zombie) :
    (s.procs (s.tcb t).procSlot).refcount ≠ 0 := by
  rw [counted.refcount _ (counted.held t inside alive).1]
  exact Finset.card_ne_zero_of_mem (mem_live.mpr ⟨inside, rfl, alive⟩)

theorem Counted.find (counted : Counted s) (inside : t < s.taskCount) : schedTaskFind s t = some t := by
  unfold schedTaskFind
  apply List.find?_range_eq_some.mpr
  refine ⟨by simpa using counted.pid t inside, by simpa using inside, fun other below => ?_⟩
  have pid := counted.pid other (by omega)
  simp [pid]
  omega

/-- The exit code a process ends with. -/
def Proc.finalCode (proc : Proc) (code : Int) : Int := if proc.groupExiting then proc.groupExitCode else code

/-- A process that loses its last reference. -/
def Proc.ended (proc : Proc) (code : Int) : Proc :=
  { proc with refcount := 0, waitable := true, waitExitCode := proc.finalCode code }

theorem procRelease_more (inside : slot < schedMaxTasks) (used : (s.procs slot).inUse = true)
    (more : 2 ≤ (s.procs slot).refcount) (code : Int) :
    procRelease s slot code = s.setProc slot fun proc => { proc with refcount := proc.refcount - 1 } := by
  have guard : ¬ (slot ≥ schedMaxTasks ∨ (s.procs slot).inUse = false ∨ (s.procs slot).refcount = 0) := by
    simp [used]
    omega
  have rest : (s.procs slot).refcount - 1 ≠ 0 := by omega
  unfold procRelease
  rw [if_neg guard]
  simp [State.setProc, rest]

theorem procRelease_last (counted : Counted s) (inside : slot < schedMaxTasks) (used : (s.procs slot).inUse = true)
    (last : (s.procs slot).refcount = 1) (code : Int) :
    procRelease s slot code =
      if (s.procs slot).tgid = 0 then s.setProc slot fun proc => proc.ended code
      else (s.setProc slot fun proc => proc.ended code).setTcb (s.procs slot).tgid fun t =>
        { t with exitCode := (s.procs slot).finalCode code } := by
  have guard : ¬ (slot ≥ schedMaxTasks ∨ (s.procs slot).inUse = false ∨ (s.procs slot).refcount = 0) := by
    simp [used, last]
    omega
  have found := counted.find (counted.leader slot inside used).1
  unfold procRelease
  rw [if_neg guard]
  by_cases kernel : (s.procs slot).tgid = 0
  · simp [State.setProc, last, procLeaderTask, kernel, Proc.ended, Proc.finalCode]
  · have same : ∀ procs, schedTaskFind { s with procs := procs } (s.procs slot).tgid = some (s.procs slot).tgid :=
      fun _ => found
    simp [State.setProc, last, procLeaderTask, kernel, same, Proc.ended, Proc.finalCode]

@[simp] theorem setProc_tcb (change : Proc → Proc) : (s.setProc slot change).tcb = s.tcb := rfl

@[simp] theorem setProc_taskCount (change : Proc → Proc) : (s.setProc slot change).taskCount = s.taskCount := rfl

@[simp] theorem setTcb_procs : (s.setTcb t f).procs = s.procs := rfl

@[simp] theorem setProc_self (change : Proc → Proc) : (s.setProc slot change).procs slot = change (s.procs slot) := by
  simp [State.setProc]

@[simp] theorem setProc_other {other : Nat} (change : Proc → Proc) (apart : other ≠ slot) :
    (s.setProc slot change).procs other = s.procs other := by
  simp [State.setProc, apart]

theorem live_zombie (change : Proc → Proc) (slot' : Nat) :
    ((s.setProc slot change).setTcb t fun tcb => { tcb with state := .zombie }).live slot' = (s.live slot').erase t := by
  ext other
  rw [Finset.mem_erase, mem_live, mem_live]
  by_cases own : other = t
  · subst own
    simp
  · simp [own]

theorem Counted.endTask (counted : Counted s) (inside : t < s.taskCount) (alive : (s.tcb t).state ≠ .zombie)
    (calm : (s.tcb t).stopped = false) {g : Proc → Proc} (used : ∀ proc, (g proc).inUse = proc.inUse)
    (tgid : ∀ proc, (g proc).tgid = proc.tgid)
    (one : (g (s.procs (s.tcb t).procSlot)).refcount = (s.procs (s.tcb t).procSlot).refcount - 1)
    (waits : ((g (s.procs (s.tcb t).procSlot)).waitable = true ↔ (g (s.procs (s.tcb t).procSlot)).refcount = 0)) :
    Counted ((s.setProc (s.tcb t).procSlot g).setTcb t fun tcb => { tcb with state := .zombie }) := by
  obtain ⟨small, inUse⟩ := counted.held t inside alive
  have member : t ∈ s.live (s.tcb t).procSlot := mem_live.mpr ⟨inside, rfl, alive⟩
  have procs : ∀ slot, ((s.setProc (s.tcb t).procSlot g).procs slot).inUse = (s.procs slot).inUse ∧
      ((s.setProc (s.tcb t).procSlot g).procs slot).tgid = (s.procs slot).tgid := by
    intro slot
    by_cases own : slot = (s.tcb t).procSlot
    · subst own
      simp [used, tgid]
    · simp [own]
  have slots : ∀ other, ((s.setTcb t fun tcb => { tcb with state := .zombie }).tcb other).procSlot =
      (s.tcb other).procSlot := by
    intro other
    by_cases own : other = t
    · subst own
      simp
    · simp [own]
  refine ⟨⟨counted.bounded.current, counted.bounded.linked⟩, counted.room, counted.next, fun other small' => ?_,
    fun slot small' => ?_, fun other small' alive' => ?_, fun slot small' used' => ?_, fun slot small' used' => ?_,
    fun slot small' free => ?_, fun other small' dead => ?_, fun other small' => ?_⟩
  · by_cases own : other = t
    · subst own
      simpa using counted.pid other small'
    · simpa [own] using counted.pid other small'
  · rw [live_zombie, setTcb_procs]
    by_cases own : slot = (s.tcb t).procSlot
    · subst own
      rw [setProc_self, one, counted.refcount _ small', Finset.card_erase_of_mem member]
    · have absent : t ∉ s.live slot := fun live => own (mem_live.mp live).2.1.symm
      rw [setProc_other _ own, Finset.erase_eq_of_notMem absent]
      exact counted.refcount slot small'
  · have apart : other ≠ t := by
      rintro rfl
      simp at alive'
    have before := counted.held other small' (by simpa [apart] using alive')
    simpa [apart, (procs _).1] using before
  · rw [setTcb_procs, (procs slot).1] at used'
    have before := counted.leader slot small' used'
    rw [setTcb_procs, (procs slot).2]
    exact ⟨before.1, (slots _).trans before.2⟩
  · rw [setTcb_procs] at used' ⊢
    by_cases own : slot = (s.tcb t).procSlot
    · subst own
      simpa using waits
    · rw [setProc_other _ own] at used' ⊢
      exact counted.waitable slot small' used'
  · rw [setTcb_procs, (procs slot).1] at free
    have apart : slot ≠ (s.tcb t).procSlot := by
      rintro rfl
      rw [inUse] at free
      cases free
    rw [setTcb_procs, setProc_other _ apart]
    exact counted.free slot small' free
  · by_cases own : other = t
    · subst own
      simpa using calm
    · simpa [own] using counted.still other small' (by simpa [own] using dead)
  · by_cases own : other = t
    · subst own
      simpa using counted.plain other small'
    · simpa [own] using counted.plain other small'

theorem Counted.releaseZombie (counted : Counted s) (inside : t < s.taskCount) (alive : (s.tcb t).state ≠ .zombie)
    (calm : (s.tcb t).stopped = false) (code : Int) :
    Counted ((procRelease s (s.tcb t).procSlot code).setTcb t fun tcb => { tcb with state := .zombie }) := by
  obtain ⟨small, used⟩ := counted.held t inside alive
  have some := counted.refcount_pos inside alive
  by_cases last : (s.procs (s.tcb t).procSlot).refcount = 1
  · rw [procRelease_last counted small used last]
    split
    · apply counted.endTask inside alive calm
      · exact fun _ => rfl
      · exact fun _ => rfl
      · simp [Proc.ended, last]
      · simp [Proc.ended]
    · -- Writing the exit code of the leader first makes no difference.
      have coded := counted.keep (t := (s.procs (s.tcb t).procSlot).tgid)
        (f := fun tcb => { tcb with exitCode := (s.procs (s.tcb t).procSlot).finalCode code })
        (fun _ => rfl) (fun _ => rfl) (fun _ => rfl) (fun _ => id) (fun _ => rfl)
      have same : ∀ other, ((s.setTcb (s.procs (s.tcb t).procSlot).tgid fun tcb =>
          { tcb with exitCode := (s.procs (s.tcb t).procSlot).finalCode code }).tcb other).procSlot =
            (s.tcb other).procSlot ∧ ((s.setTcb (s.procs (s.tcb t).procSlot).tgid fun tcb =>
          { tcb with exitCode := (s.procs (s.tcb t).procSlot).finalCode code }).tcb other).stopped =
            (s.tcb other).stopped := by
        intro other
        by_cases own : other = (s.procs (s.tcb t).procSlot).tgid
        · rw [own]
          simp
        · simp [own]
      have ended := coded.endTask (t := t) (g := fun proc => proc.ended code) inside
        (by rw [setTcb_state rfl]; exact alive) (by rw [(same t).2]; exact calm) (fun _ => rfl) (fun _ => rfl)
        (by rw [(same t).1]; simp [Proc.ended, last]) (by simp [Proc.ended])
      rw [(same t).1] at ended
      exact ended
  · have more : 2 ≤ (s.procs (s.tcb t).procSlot).refcount := by omega
    have idle : (s.procs (s.tcb t).procSlot).waitable = false := by
      by_contra waits
      exact some ((counted.waitable _ small used).mp (by simpa using waits))
    rw [procRelease_more small used more]
    apply counted.endTask inside alive calm
    · exact fun _ => rfl
    · exact fun _ => rfl
    · rfl
    · simp [idle]
      omega

theorem Counted.keepProc (counted : Counted s) {g : Proc → Proc} (inUse : (g (s.procs slot)).inUse = (s.procs slot).inUse)
    (tgid : (g (s.procs slot)).tgid = (s.procs slot).tgid)
    (refcount : (g (s.procs slot)).refcount = (s.procs slot).refcount)
    (waitable : (g (s.procs slot)).waitable = (s.procs slot).waitable) : Counted (s.setProc slot g) := by
  have same : ∀ other, ((s.setProc slot g).procs other).inUse = (s.procs other).inUse ∧
      ((s.setProc slot g).procs other).tgid = (s.procs other).tgid ∧
      ((s.setProc slot g).procs other).refcount = (s.procs other).refcount ∧
      ((s.setProc slot g).procs other).waitable = (s.procs other).waitable := by
    intro other
    by_cases own : other = slot
    · subst own
      rw [setProc_self]
      exact ⟨inUse, tgid, refcount, waitable⟩
    · rw [setProc_other g own]
      exact ⟨rfl, rfl, rfl, rfl⟩
  refine ⟨⟨counted.bounded.current, counted.bounded.linked⟩, counted.room, counted.next, counted.pid,
    fun other small => ?_, fun t inside alive => ?_, fun other small used => ?_, fun other small used => ?_,
    fun other small free => ?_, counted.still, counted.plain⟩
  · rw [(same other).2.2.1]
    exact counted.refcount other small
  · rw [(same _).1]
    exact counted.held t inside alive
  · rw [(same other).1] at used
    rw [(same other).2.1]
    exact counted.leader other small used
  · rw [(same other).1] at used
    rw [(same other).2.2.1, (same other).2.2.2]
    exact counted.waitable other small used
  · rw [(same other).1] at free
    rw [(same other).2.2.2]
    exact counted.free other small free

theorem Counted.reap (counted : Counted s) (inside : slot < schedMaxTasks) (used : (s.procs slot).inUse = true)
    (waits : (s.procs slot).waitable = true) :
    Counted (s.setProc slot fun proc => { proc with waitable := false, inUse := false }) := by
  have none := (counted.waitable slot inside used).mp waits
  -- Nothing that still runs refers to the slot.
  have apart : ∀ t < s.taskCount, (s.tcb t).state ≠ .zombie → (s.tcb t).procSlot ≠ slot := by
    rintro t small alive rfl
    exact counted.refcount_pos small alive none
  refine ⟨⟨counted.bounded.current, counted.bounded.linked⟩, counted.room, counted.next, counted.pid,
    fun other small => ?_, fun t small alive => ?_, fun other small used' => ?_, fun other small used' => ?_,
    fun other small free => ?_, counted.still, counted.plain⟩
  · by_cases own : other = slot
    · subst own
      rw [setProc_self]
      exact counted.refcount other small
    · rw [setProc_other _ own]
      exact counted.refcount other small
  · rw [setProc_tcb, setProc_other _ (apart t small alive)]
    exact counted.held t small alive
  · by_cases own : other = slot
    · subst own
      simp at used'
    · rw [setProc_other _ own] at used' ⊢
      exact counted.leader other small used'
  · by_cases own : other = slot
    · subst own
      simp at used'
    · rw [setProc_other _ own] at used' ⊢
      exact counted.waitable other small used'
  · by_cases own : other = slot
    · subst own
      simp
    · rw [setProc_other _ own] at free ⊢
      exact counted.free other small free

/-- A new task that is given to a process, of its own or another's. -/
def adopt (s : State) (priority : UInt8) (isUser isThread : Bool) (slot : Nat) (proc : Proc) : State :=
  ((withFresh s priority isUser isThread).setProc slot fun _ => proc).setTcb s.taskCount fun tcb =>
    { tcb with procSlot := slot }

@[simp] theorem adopt_fresh {priority : UInt8} {isUser isThread : Bool} {proc : Proc} :
    ((adopt s priority isUser isThread slot proc).tcb s.taskCount).procSlot = slot ∧
      ((adopt s priority isUser isThread slot proc).tcb s.taskCount).state = .ready ∧
      ((adopt s priority isUser isThread slot proc).tcb s.taskCount).pid = s.nextPid ∧
      ((adopt s priority isUser isThread slot proc).tcb s.taskCount).stopped = false ∧
      ((adopt s priority isUser isThread slot proc).tcb s.taskCount).isRt = false := by
  simp [adopt, withFresh]

theorem adopt_tcb {priority : UInt8} {isUser isThread : Bool} {proc : Proc} (old : t ≠ s.taskCount) :
    (adopt s priority isUser isThread slot proc).tcb t = s.tcb t := by
  simp [adopt, old, withFresh]

theorem adopt_procs {priority : UInt8} {isUser isThread : Bool} {proc : Proc} (other : Nat) :
    (adopt s priority isUser isThread slot proc).procs other = if other = slot then proc else s.procs other := by
  by_cases own : other = slot
  · subst own
    simp [adopt]
  · simp only [adopt, setTcb_procs, setProc_other _ own, if_neg own]
    rfl

theorem adopt_taskCount {priority : UInt8} {isUser isThread : Bool} {proc : Proc} :
    (adopt s priority isUser isThread slot proc).taskCount = s.taskCount + 1 := rfl

theorem live_adopt {priority : UInt8} {isUser isThread : Bool} {proc : Proc} (other : Nat) :
    (adopt s priority isUser isThread slot proc).live other =
      if other = slot then insert s.taskCount (s.live other) else s.live other := by
  ext t
  rw [mem_live, adopt_taskCount]
  by_cases fresh : t = s.taskCount
  · subst fresh
    have absent : s.taskCount ∉ s.live other := by simp
    by_cases own : other = slot
    · simp [own]
    · simpa [own] using Ne.symm own
  · rw [adopt_tcb fresh]
    have small : t < s.taskCount + 1 ↔ t < s.taskCount := by omega
    split <;> simp [fresh, small]

theorem Counted.adopt (counted : Counted s) {priority : UInt8} {isUser isThread : Bool} {proc : Proc}
    (space : s.taskCount < schedMaxTasks) (inside : slot < schedMaxTasks) (used : proc.inUse = true)
    (refcount : proc.refcount = (s.live slot).card + 1) (idle : proc.waitable = false)
    (led : proc.tgid = s.taskCount ∨ proc.tgid < s.taskCount ∧ (s.tcb proc.tgid).procSlot = slot) :
    Counted (Sched.adopt s priority isUser isThread slot proc) := by
  have old : ∀ {t}, t < s.taskCount + 1 → t ≠ s.taskCount → t < s.taskCount := by omega
  refine ⟨⟨Nat.lt_succ_of_lt counted.bounded.current, fun p t linked => ?_⟩, space, ?_, fun t small => ?_,
    fun other small => ?_, fun t small alive => ?_, fun other small used' => ?_, fun other small used' => ?_,
    fun other small free => ?_, fun t small dead => ?_, fun t small => ?_⟩
  · exact Nat.lt_succ_of_lt (counted.bounded.linked p t linked)
  · show (s.nextPid + 1) % 2 ^ 32 = s.taskCount + 1
    rw [counted.next]
    apply Nat.mod_eq_of_lt
    have room := counted.room
    unfold schedMaxTasks at room
    omega
  · by_cases fresh : t = s.taskCount
    · subst fresh
      simp [counted.next]
    · rw [adopt_tcb fresh]
      exact counted.pid t (old small fresh)
  · rw [adopt_procs, live_adopt]
    by_cases own : other = slot
    · subst own
      rw [if_pos rfl, if_pos rfl, Finset.card_insert_of_notMem (by simp), refcount]
    · rw [if_neg own, if_neg own]
      exact counted.refcount other small
  · by_cases fresh : t = s.taskCount
    · subst fresh
      rw [adopt_fresh.1, adopt_procs, if_pos rfl]
      exact ⟨inside, used⟩
    · rw [adopt_tcb fresh] at alive ⊢
      obtain ⟨small', used'⟩ := counted.held t (old small fresh) alive
      refine ⟨small', ?_⟩
      rw [adopt_procs]
      split <;> assumption
  · rw [adopt_procs] at used' ⊢
    by_cases own : other = slot
    · subst own
      rw [if_pos rfl]
      rcases led with fresh | ⟨inside', leads⟩
      · rw [fresh]
        exact ⟨Nat.lt_succ_self _, adopt_fresh.1⟩
      · rw [adopt_tcb (by omega)]
        exact ⟨Nat.lt_succ_of_lt inside', leads⟩
    · rw [if_neg own] at used' ⊢
      obtain ⟨inside', leads⟩ := counted.leader other small used'
      rw [adopt_tcb (by omega)]
      exact ⟨Nat.lt_succ_of_lt inside', leads⟩
  · rw [adopt_procs] at used' ⊢
    by_cases own : other = slot
    · subst own
      rw [if_pos rfl]
      simp [idle, refcount]
    · rw [if_neg own] at used' ⊢
      exact counted.waitable other small used'
  · rw [adopt_procs] at free ⊢
    by_cases own : other = slot
    · rw [if_pos own]
      exact idle
    · rw [if_neg own] at free ⊢
      exact counted.free other small free
  · by_cases fresh : t = s.taskCount
    · subst fresh
      simp
    · rw [adopt_tcb fresh] at dead ⊢
      exact counted.still t (old small fresh) dead
  · by_cases fresh : t = s.taskCount
    · subst fresh
      simp
    · rw [adopt_tcb fresh]
      exact counted.plain t (old small fresh)

/-- The process of a new process's first task. -/
def Proc.fresh (tgid parentPid pgid : Nat) : Proc where
  inUse := true
  tgid := tgid
  parentPid := parentPid
  pgid := pgid
  refcount := 1
  waitable := false
  waitExitCode := 0
  groupExiting := false
  groupExitCode := 0

end

end Enlil.Sched
