import Enlil.Syscall.Dispatch

/-! Every system call does to its own frame what it would do with the shared variables for itself, and to no other frame anything. -/

namespace Enlil.Syscall

/-- Where a call is after a turn. -/
inductive Outcome where
  | waits (rest : Process)
  /-- The handler has returned, and may have set the frame itself. -/
  | returns (ret : UInt64) (set : Option Frame)
  | ends

/-- A turn of a call that has the shared variables for itself. -/
def Process.alone (task : Nat) (set : Option Frame) : Process → Outcome
  | .done ret => .returns ret set
  | .yield rest => .waits rest
  | .active rest => (rest (some task)).alone task set
  | .store _ frame rest => rest.alone task (some frame)
  | .replaced rest => rest.alone task set
  | .exits => .ends

/-- What becomes of the frame of the caller. -/
def Outcome.frameAfter (frame : Frame) : Outcome → Frame
  | .returns ret none => frame.setResult ret
  | .returns _ (some set) => set
  | _ => frame

/-- What is left of a call after a turn. -/
def Outcome.left (call : Call) : Outcome → Option (Call × Process)
  | .waits rest => some (call, rest)
  | _ => none

/-- The frames that a call may set itself: a program that was loaded, or a frame that was restored. -/
def Call.sets : Call → Frame → Prop
  | .execve _ outcome, frame => ∃ image, outcome.loaded = some image ∧ frame = execFrame image
  | .sigreturn restored, frame => restored = .ok frame
  | _, _ => False

/-- The task whose turn it is. -/
def Op.task : Op → Nat
  | .enter task .. => task
  | .resume task => task
  | .kill task => task

/-- The frame and the part of a call that a turn runs. -/
def State.pending (s : State) : Op → Option (Frame × Call × Process)
  | .enter task frame call => if (s.calls task).isSome then none else some (frame, call, call.handler)
  | .resume task => (s.calls task).map fun waiting => (s.frames task, waiting)
  | .kill _ => none

/-- What may be left of a call that has waited: it does not look at the active frame any more, and sets its own frame last. -/
def Later (task : Nat) (call : Call) : Process → Prop
  | .done _ => True
  | .yield rest => Later task call rest
  | .active _ => False
  | .store place frame rest => place = task ∧ call.sets frame ∧ rest = .replaced (.done 0)
  | .replaced _ => False
  | .exits => True

/-- What a call may be at first: it looks at the active frame before it waits. -/
def Entry (task : Nat) (call : Call) : Process → Prop
  | .active rest => Entry task call (rest (some task))
  | rest => Later task call rest

section

variable {task : Nat} {call : Call} {rest : Process} {s s' : State} {op : Op} {frames : Nat → Frame}

theorem Later.entry (later : Later task call rest) : Entry task call rest := by
  cases rest with
  | active => exact later.elim
  | _ => exact later

theorem orError_later {code : UInt64} (later : Later task call rest) : Later task call (orError code rest) := by
  unfold orError
  split
  · trivial
  · exact later

theorem Plain.later (body : Plain) : Later task call body.process := by
  induction body with
  | done => trivial
  | yield rest ih => exact ih
  | exits => trivial

theorem handler_entry (task : Nat) (call : Call) : Entry task call call.handler := by
  have copies : ∀ isUser ret, Entry task call (sysFork isUser ret) := fun isUser ret => by
    cases isUser <;> trivial
  cases call with
  | unknown => trivial
  | execve isUser outcome =>
    show Entry task _ (sysExecve isUser outcome)
    rw [sysExecve, Entry]
    split
    · trivial
    · rename_i frame own
      cases own
      split
      · trivial
      split
      · trivial
      split
      · trivial
      -- Each phase after the frame was read may wait, and only the last one sets the frame.
      refine orError_later (orError_later (orError_later ?_))
      show Later task _ _
      split
      · trivial
      · rename_i image loaded
        split
        · trivial
        · exact ⟨rfl, ⟨image, loaded, rfl⟩, rfl⟩
  | sigreturn restored =>
    cases restored with
    | error => trivial
    | ok frame => exact ⟨rfl, rfl, rfl⟩
  | fork isUser ret => exact copies isUser ret
  | clone isUser ret => exact copies isUser ret
  | other body =>
    exact (Plain.later body).entry

/-- What a turn of a call does to the state. -/
structure Turn (s s' : State) (task : Nat) (frame : Frame) (call : Call) (outcome : Outcome) : Prop where
  frames : s'.frames = Function.update s.frames task (outcome.frameAfter frame)
  calls : s'.calls = Function.update s.calls task (outcome.left call)
  plain : s'.activeSyscallReplaced = false
  set : ∀ ret frame, outcome = .returns ret (some frame) → call.sets frame
  later : ∀ rest, outcome = .waits rest → Later task call rest

theorem Later.turn (later : Later task call rest) (plain : s.activeSyscallReplaced = false) :
    Turn s (runProcess s task call rest) task (s.frames task) call (rest.alone task none) := by
  cases rest with
  | done ret => exact ⟨by simp [runProcess, syscallReturn, plain, Process.alone, Outcome.frameAfter], rfl, rfl, nofun, nofun⟩
  | yield rest =>
    refine ⟨(Function.update_eq_self task s.frames).symm, rfl, plain, nofun, fun rest' same => ?_⟩
    cases same
    exact later
  | active => exact later.elim
  | store place frame rest =>
    obtain ⟨rfl, sets, rfl⟩ := later
    refine ⟨rfl, rfl, rfl, fun ret frame' same => ?_, nofun⟩
    cases same
    exact sets
  | replaced => exact later.elim
  | exits => exact ⟨(Function.update_eq_self task s.frames).symm, rfl, plain, nofun, nofun⟩

theorem Entry.turn (entry : Entry task call rest) (plain : s.activeSyscallReplaced = false)
    (mine : s.activeSyscallFrame = some task) :
    Turn s (runProcess s task call rest) task (s.frames task) call (rest.alone task none) := by
  induction rest with
  | active rest ih =>
    rw [runProcess, mine, Process.alone]
    exact ih _ entry
  | done ret => exact @Later.turn task call (.done ret) s entry plain
  | yield rest => exact @Later.turn task call (.yield rest) s entry plain
  | store place frame rest => exact @Later.turn task call (.store place frame rest) s entry plain
  | replaced rest => exact @Later.turn task call (.replaced rest) s entry plain
  | exits => exact @Later.turn task call (.exits) s entry plain

theorem syscallDispatch_known {frame : Frame} (known : call ≠ .unknown) :
    syscallDispatch s task frame call =
      runProcess ⟨some task, false, Function.update s.frames task frame, s.calls⟩ task call call.handler := by
  cases call with
  | unknown => exact absurd rfl known
  | _ => rfl

/-- Between turns the frame is not declared replaced, and whatever waits follows the rules. -/
structure Orderly (s : State) : Prop where
  plain : s.activeSyscallReplaced = false
  later : ∀ task call rest, s.calls task = some (call, rest) → Later task call rest

/-- A turn of a pending call. -/
theorem Orderly.turn (orderly : Orderly s) {frame : Frame} (pending : s.pending op = some (frame, call, rest))
    (ran : exec s op = .ok s') :
    Turn { s with frames := Function.update s.frames op.task frame } s' op.task frame call (rest.alone op.task none) := by
  cases op with
  | enter task entered made =>
    simp only [State.pending] at pending
    split at pending
    · cases pending
    · rename_i idle
      cases pending
      cases ran
      rw [if_neg idle]
      by_cases known : call = .unknown
      · subst known
        have none : s.calls task = none := by simpa using idle
        exact ⟨by simp [Op.task, syscallDispatch, Call.handler, Process.alone, Outcome.frameAfter],
          by simp [Op.task, syscallDispatch, Call.handler, Process.alone, Outcome.left, ← none],
          orderly.plain, nofun, nofun⟩
      · have turn := Entry.turn (handler_entry task call)
          (s := ⟨some task, false, Function.update s.frames task frame, s.calls⟩) rfl rfl
        have own : (Function.update s.frames task frame) task = frame := Function.update_self _ _ _
        rw [syscallDispatch_known known]
        simp only [own] at turn
        exact ⟨turn.frames, turn.calls, turn.plain, turn.set, turn.later⟩
  | resume task =>
    obtain ⟨waiting, found, same⟩ := Option.map_eq_some_iff.mp pending
    cases same
    rw [exec, found] at ran
    cases ran
    have turn := (orderly.later _ _ _ found).turn orderly.plain
    show Turn { s with frames := Function.update s.frames task (s.frames task) } _ task _ _ _
    rw [Function.update_eq_self]
    exact turn
  | kill task => cases pending

theorem exec_idle (idle : s.pending op = none) (ran : exec s op = .ok s') :
    s'.frames = s.frames ∧ s'.activeSyscallReplaced = s.activeSyscallReplaced ∧
      ∀ task waiting, s'.calls task = some waiting → s.calls task = some waiting := by
  cases op with
  | enter task frame call =>
    simp only [State.pending] at idle
    split at idle
    · rename_i busy
      simp only [exec, if_pos busy] at ran
      cases ran
      exact ⟨rfl, rfl, fun _ _ found => found⟩
    · cases idle
  | resume task =>
    have none := Option.map_eq_none_iff.mp idle
    rw [exec, none] at ran
    cases ran
    exact ⟨rfl, rfl, fun _ _ found => found⟩
  | kill task =>
    cases ran
    refine ⟨rfl, rfl, fun other waiting found => ?_⟩
    dsimp only at found
    by_cases same : other = task
    · subst same
      rw [Function.update_self] at found
      cases found
    · rwa [Function.update_of_ne same] at found

theorem Orderly.exec (orderly : Orderly s) (ran : exec s op = .ok s') : Orderly s' := by
  cases pending : s.pending op with
  | none =>
    obtain ⟨_, replaced, calls⟩ := exec_idle pending ran
    exact ⟨replaced.trans orderly.plain, fun task call rest found => orderly.later task call rest (calls task _ found)⟩
  | some run =>
    obtain ⟨frame, call, rest⟩ := run
    have turn := orderly.turn pending ran
    refine ⟨turn.plain, fun task call' rest' found => ?_⟩
    rw [turn.calls] at found
    by_cases same : task = op.task
    · subst same
      rw [Function.update_self] at found
      cases outcome : rest.alone op.task none with
      | waits left =>
        rw [outcome] at found
        cases found
        exact turn.later _ outcome
      | returns => rw [outcome] at found; cases found
      | ends => rw [outcome] at found; cases found
    · rw [Function.update_of_ne same] at found
      exact orderly.later task call' rest' found

theorem run_orderly (run : Run exec (fun _ _ => True) (boot frames) s) : Orderly s :=
  Run.invariant (⟨rfl, nofun⟩ : Orderly (boot frames)) (fun orderly _ ran => orderly.exec ran) run

/-- In every run, whatever turns the tasks take, a turn of a call changes the frame of its own task only, and that one as the call would do with the shared variables for itself: it gets the result, unless the call was a load of a program or a return from a signal handler that set it. -/
theorem run_results_own (run : Run exec (fun _ _ => True) (boot frames) s) (ran : exec s op = .ok s') :
    (s.pending op = none → s'.frames = s.frames) ∧
      ∀ frame call rest, s.pending op = some (frame, call, rest) →
        s'.frames = Function.update s.frames op.task ((rest.alone op.task none).frameAfter frame) ∧
          ∀ ret set, rest.alone op.task none = .returns ret (some set) → call.sets set := by
  have orderly := run_orderly run
  refine ⟨fun idle => (exec_idle idle ran).1, fun frame call rest pending => ?_⟩
  have turn := orderly.turn pending ran
  refine ⟨?_, turn.set⟩
  rw [turn.frames, Function.update_idem]

end

/-- A frame of zeros. -/
def zeroFrame : Frame := ⟨fun _ => 0, 0, 0, 0⟩

/-- A program that is loaded without an error. -/
def loads : Execve := ⟨false, true, 0, 0, 0, some ⟨4096, 8192, 1, 0, 0, 0⟩, true⟩

/-- A call returns while another task waits in the load of a program. -/
theorem run_results_own_interleaved :
    ∃ s s', Run exec (fun _ _ => True) (boot fun _ => zeroFrame) s ∧ exec s (.resume 2) = .ok s' ∧
      s'.frames = Function.update s.frames 2 (zeroFrame.setResult 7) ∧ (s.calls 1).isSome = true := by
  have loading : Run exec (fun _ _ => True) (boot fun _ => zeroFrame)
      (syscallDispatch (boot fun _ => zeroFrame) 1 zeroFrame (.execve true loads)) :=
    .call (.enter 1 zeroFrame (.execve true loads)) .start trivial rfl
  have waiting : Run exec (fun _ _ => True) (boot fun _ => zeroFrame) (syscallDispatch
      (syscallDispatch (boot fun _ => zeroFrame) 1 zeroFrame (.execve true loads)) 2 zeroFrame
      (.other (.yield (.done 7)))) :=
    .call (.enter 2 zeroFrame (.other (.yield (.done 7)))) loading trivial rfl
  refine ⟨_, _, waiting, rfl, ?_, rfl⟩
  exact ((@run_results_own _ _ (.resume 2) _ waiting rfl).2 zeroFrame _ (.done 7) rfl).1

end Enlil.Syscall
