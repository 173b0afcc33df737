import Enlil.Fd.TrafficRuns

/-! What calls on pipes report as written, and what every run of them gives. -/

namespace Enlil.Fd.Pipes

section

variable {s : Traffic} {idx fd o task count put : Nat} {waiter : Waiter} {pending stored resumed : Bool}

/-- What a call has put so far. -/
def Work.sent : Work → List UInt8
  | .read _ _ => []
  | .write data put => data.take put

/-- The call of a task has reported nothing, and has put what it knows in its pipe. -/
structure Active (s : Traffic) (task : Nat) (waiter : Waiter) : Prop where
  old : waiter.number < s.numbers
  silent : s.reported waiter.number = none
  sent : ∀ birth, s.sent birth waiter.number = if birth = waiter.birth then waiter.work.sent else []
  single : ∀ other waiter', s.waiters other = some waiter' → waiter'.number = waiter.number → other = task

/-- Every call has put into one pipe just the bytes that it knows of, or has reported. -/
structure Accounts (s : Traffic) : Prop where
  fresh : ∀ number, s.numbers ≤ number → s.reported number = none ∧ ∀ birth, s.sent birth number = []
  active : ∀ task waiter, s.waiters task = some waiter → Active s task waiter
  reported : ∀ number bytes, s.reported number = some bytes →
    ∃ birth, ∀ other, s.sent other number = if other = birth then bytes else []

theorem Accounts.round (accounts : Accounts s) (active : Active s task waiter) {s' : Traffic} {moved : List UInt8}
    (numbers : s'.numbers = s.numbers)
    (sent : ∀ other number, s'.sent other number =
      s.sent other number ++ if other = waiter.birth ∧ number = waiter.number then moved else [])
    (waiters : ∀ other waiter', s'.waiters other = some waiter' → (other ≠ task ∧ s.waiters other = some waiter') ∨
      (other = task ∧ waiter'.number = waiter.number ∧ waiter'.birth = waiter.birth ∧
        waiter'.work.sent = waiter.work.sent ++ moved ∧ s'.reported waiter.number = none))
    (reported : ∀ number bytes, s'.reported number = some bytes → s.reported number = some bytes ∨
      (number = waiter.number ∧ bytes = waiter.work.sent ++ moved)) : Accounts s' := by
  have silent {number : Nat} (before : s.reported number = none) (differ : number ≠ waiter.number) :
      s'.reported number = none := by
    cases found : s'.reported number with
    | none => rfl
    | some bytes =>
      rcases reported number bytes found with old | ⟨same, _⟩
      · rw [before] at old
        cases old
      · exact absurd same differ
  have others {other number : Nat} (differ : number ≠ waiter.number) : s'.sent other number = s.sent other number := by
    rw [sent, if_neg fun both => differ both.2, List.append_nil]
  have mine (other : Nat) : s'.sent other waiter.number = if other = waiter.birth then waiter.work.sent ++ moved else [] := by
    rw [sent, active.sent]
    by_cases here : other = waiter.birth
    · rw [if_pos here, if_pos here, if_pos ⟨here, rfl⟩]
    · rw [if_neg here, if_neg here, if_neg fun both => here both.1]
      rfl
  refine ⟨fun number later => ?_, fun other waiter' waits => ?_, fun number bytes found => ?_⟩
  · rw [numbers] at later
    have differ : number ≠ waiter.number := (active.old.trans_le later).ne'
    obtain ⟨none, nothing⟩ := accounts.fresh number later
    exact ⟨silent none differ, fun birth => (others differ).trans (nothing birth)⟩
  · rcases waiters other waiter' waits with ⟨apart, before⟩ | ⟨rfl, isNumber, isBirth, isSent, none⟩
    · obtain ⟨old, quiet, sent', single⟩ := accounts.active other waiter' before
      have differ : waiter'.number ≠ waiter.number := fun same => apart (active.single other waiter' before same)
      refine ⟨numbers ▸ old, silent quiet differ, fun birth => (others differ).trans (sent' birth), fun o w found same => ?_⟩
      rcases waiters o w found with ⟨_, before'⟩ | ⟨_, isNumber', _⟩
      · exact single o w before' same
      · exact absurd (same.symm.trans isNumber') differ
    · refine ⟨by rw [isNumber, numbers]; exact active.old, by rw [isNumber]; exact none, fun birth => ?_, fun o w found same => ?_⟩
      · rw [isNumber, mine, isBirth, isSent]
      · rcases waiters o w found with ⟨_, before'⟩ | ⟨isTask, _⟩
        · exact active.single o w before' (same.trans isNumber)
        · exact isTask
  · rcases reported number bytes found with old | ⟨rfl, rfl⟩
    · have differ : number ≠ waiter.number := by
        rintro rfl
        rw [active.silent] at old
        cases old
      obtain ⟨birth, all⟩ := accounts.reported number bytes old
      exact ⟨birth, fun other => (others differ).trans (all other)⟩
    · exact ⟨waiter.birth, mine⟩

theorem sent_logWritten (s : Traffic) (birth number : Nat) (bytes : List UInt8) (other number' : Nat) :
    (s.logWritten birth number bytes).sent other number' =
      s.sent other number' ++ if other = birth ∧ number' = number then bytes else [] := by
  unfold Traffic.sent Traffic.logWritten
  dsimp only
  by_cases here : other = birth
  · subst here
    rw [Function.update_self, List.filter_append, List.map_append, List.filter_map, List.map_map]
    by_cases same : number' = number
    · subst same
      simp [Function.comp_def]
    · have differ : ¬ number = number' := fun equal => same equal.symm
      simp [Function.comp_def, same, differ]
  · rw [Function.update_of_ne here, if_neg fun both => here both.1, List.append_nil]

theorem Accounts.readRound (accounts : Accounts s) (active : Active s task waiter) {got : List UInt8}
    (work : waiter.work.sent = []) : Accounts (readRound s task waiter count got pending stored).1 := by
  -- A read puts no bytes and reports none.
  have still {s' : Traffic} (numbers : s'.numbers = s.numbers) (written : s'.written = s.written)
      (reported : s'.reported = s.reported)
      (waiters : ∀ other waiter', s'.waiters other = some waiter' → (other ≠ task ∧ s.waiters other = some waiter') ∨
        (other = task ∧ ∃ count got, { waiter with work := .read count got } = waiter')) : Accounts s' := by
    refine @Accounts.round _ _ _ accounts active s' [] numbers (fun other number => ?_) (fun other waiter' waits => ?_)
      fun number bytes found => ?_
    · rw [ite_self, List.append_nil]
      unfold Traffic.sent
      rw [written]
    · refine (waiters other waiter' waits).imp_right fun ⟨isTask, count, got, same⟩ => ⟨isTask, ?_⟩
      subst same
      rw [work, reported]
      exact ⟨rfl, rfl, rfl, active.silent⟩
    · rw [reported] at found
      exact .inl found
  unfold Pipes.readRound
  split
  · rename_i pipe got' _
    refine still rfl rfl rfl fun other waiter' waits => (setWaiter_waits waits).imp_right fun ⟨isTask, same⟩ => ⟨isTask, ?_⟩
    cases same
    exact ⟨count, got', rfl⟩
  · refine still rfl rfl rfl fun other waiter' waits => (setWaiter_waits waits).imp_right fun both => ?_
    cases both.2
  · split
    · refine still rfl rfl rfl fun other waiter' waits => (setWaiter_waits waits).imp_right fun both => ?_
      cases both.2
    · refine still rfl rfl rfl fun other waiter' waits => (setWaiter_waits waits).imp_right fun both => ?_
      cases both.2

theorem Accounts.writeRound (accounts : Accounts s) (active : Active s task waiter) {data : List UInt8}
    (work : waiter.work = .write data put) (placed : (s.fds.pipePool waiter.place).Placed) :
    Accounts (writeRound s task waiter data put pending resumed).1 := by
  obtain ⟨sent, rest, pipe, ending, ran, split, _, _, _, nothing, _⟩ :=
    writeRound_spec s task waiter data put pending resumed placed
  rw [ran]
  have total : data.take (put + sent.length) = waiter.work.sent ++ sent := by
    rw [work, List.take_add, split, List.take_left]
    rfl
  generalize logged : (s.setPipe waiter.place pipe).logWritten waiter.birth waiter.number sent = middle
  have reportedMiddle : middle.reported = s.reported := by rw [← logged]; rfl
  obtain ⟨_, written, _, waiters⟩ := writeEnds_spec middle task waiter data (put + sent.length) ending
  have numbers : (writeEnds middle task waiter data (put + sent.length) ending).1.numbers = s.numbers := by
    rw [← logged]
    cases ending <;> rfl
  refine @Accounts.round _ _ _ accounts active _ sent numbers (fun other number => ?_) (fun other waiter' waits => ?_)
    fun number bytes found => ?_
  · unfold Traffic.sent
    rw [written, ← logged]
    exact sent_logWritten (s.setPipe waiter.place pipe) _ _ _ _ _
  · rcases waiters other waiter' waits with ⟨apart, before⟩ | ⟨isTask, rfl, rfl⟩
    · rw [← logged] at before
      exact .inl ⟨apart, before⟩
    · refine .inr ⟨isTask, rfl, rfl, total, ?_⟩
      show middle.reported waiter.number = none
      rw [reportedMiddle]
      exact active.silent
  · cases ending with
    | waits => exact .inl (reportedMiddle ▸ found)
    | fails error =>
      have found : Function.update middle.reported waiter.number (some []) number = some bytes := found
      by_cases same : number = waiter.number
      · rw [same, Function.update_self] at found
        cases found
        rw [nothing error rfl] at total
        exact .inr ⟨same, total⟩
      · rw [Function.update_of_ne same, reportedMiddle] at found
        exact .inl found
    | returns =>
      have found : Function.update middle.reported waiter.number (some (data.take (put + sent.length))) number = some bytes :=
        found
      by_cases same : number = waiter.number
      · rw [same, Function.update_self] at found
        cases found
        exact .inr ⟨same, total⟩
      · rw [Function.update_of_ne same, reportedMiddle] at found
        exact .inl found

theorem Accounts.newCall (accounts : Accounts s) (work : Work) (nothing : work.sent = []) :
    Accounts { s with numbers := s.numbers + 1 } ∧ Active { s with numbers := s.numbers + 1 } task (s.waiter o work) := by
  refine ⟨⟨fun number later => accounts.fresh number (Nat.le_of_succ_le later), fun other waiter' waits => ?_,
    accounts.reported⟩, ?_⟩
  · obtain ⟨old, silent, sent, single⟩ := accounts.active other waiter' waits
    exact ⟨Nat.lt_succ_of_lt old, silent, sent, single⟩
  · obtain ⟨silent, empty⟩ := accounts.fresh s.numbers le_rfl
    refine ⟨Nat.lt_succ_self _, silent, fun birth => ?_, fun other waiter' waits same => ?_⟩
    · rw [show (s.waiter o work).work.sent = [] from nothing, ite_self]
      exact empty birth
    · exact absurd same (accounts.active other waiter' waits).old.ne

theorem Accounts.endWait (accounts : Accounts s) (task : Nat) : Accounts (s.setWaiter task none) := by
  refine ⟨accounts.fresh, fun other waiter' waits => ?_, accounts.reported⟩
  rcases setWaiter_waits waits with ⟨_, before⟩ | ⟨_, none⟩
  · obtain ⟨old, silent, sent, single⟩ := accounts.active other waiter' before
    refine ⟨old, silent, sent, fun o w found same => ?_⟩
    rcases setWaiter_waits found with ⟨_, before'⟩ | ⟨_, none⟩
    · exact single o w before' same
    · cases none
  · cases none

theorem Accounts.kept (accounts : Accounts s) (fds : Fds) : Accounts { s with fds } :=
  ⟨accounts.fresh, fun other waiter' waits =>
    let ⟨old, silent, sent, single⟩ := accounts.active other waiter' waits
    ⟨old, silent, sent, single⟩, accounts.reported⟩

theorem Accounts.step (accounts : Accounts s) (held : Held s) (op : Op) : Accounts (op.step s).1 := by
  cases op with
  | fds op =>
    simp only [Op.step]
    split
    · exact accounts.kept _
    · exact accounts
  | fcntlSetfl idx fd arg => exact accounts.kept _
  | ioctlFionbio idx fd enable => exact accounts.kept _
  | read task idx fd buffer count pending stored =>
    simp only [Op.step]
    split
    · unfold sysRead
      split
      · exact accounts
      split
      · exact accounts
      split
      · exact accounts
      split
      · exact accounts
      split
      · exact accounts
      · obtain ⟨counted, active⟩ := accounts.newCall (.read (min count transferMax) []) rfl
        exact counted.readRound active rfl
    · exact accounts
  | write task idx fd buffer pending =>
    simp only [Op.step]
    split
    · unfold sysWrite
      split
      · exact accounts
      split
      · exact accounts
      rename_i data
      split
      · exact accounts
      split
      · exact accounts
      split
      · exact accounts
      · obtain ⟨counted, active⟩ := accounts.newCall (.write (data.take transferMax) 0) rfl
        exact counted.writeRound active rfl (held.placed _)
    · exact accounts
  | resume task pending stored =>
    simp only [Op.step]
    unfold Pipes.resume
    split
    · exact accounts
    rename_i waiter waits
    have active := accounts.active task waiter waits
    split
    · rename_i work
      exact accounts.readRound active (by rw [work]; rfl)
    · rename_i work
      exact accounts.writeRound active work (held.placed _)
  | kill task => exact accounts.endWait task

theorem run_held (run : Run exec Careful boot s) : Held s ∧ Accounts s := by
  induction run with
  | start => exact ⟨held_boot, ⟨fun _ _ => ⟨rfl, fun _ => rfl⟩, fun _ _ => nofun, fun _ _ => nofun⟩⟩
  | call op _ careful ran ih =>
    cases ran
    exact ⟨(ih.1.step careful).1, ih.2.step ih.1 op⟩

/-- In every run in which a pipe is not made or written to under a call that waits for another, and bytes that are read can be stored, every pipe is first in, first out, and its ends are reported as they are. -/
theorem run_fifo (run : Run exec Careful boot s) :
    Fifo s ∧ ∀ op, Careful s op → (op.step s).2.Honest s := by
  obtain ⟨held, accounts⟩ := run_held run
  exact ⟨⟨held.inOrder, fun place => ⟨(held.placed place).bound, (held.placed place).size_modEq⟩, accounts.reported⟩,
    fun op careful => (held.step careful).2⟩

end

/-- A task waits to read a pipe while another one writes to it; then the writer's end is closed. -/
def readAndClose : List Op :=
  [.fds (.pipe 0 true), .read 1 0 3 (.ok ()) 4 false true, .write 2 0 4 (.ok [7, 8]) false, .resume 1 false true,
    .fds (.close 0 4)]

/-- The reader gets what was written, and is told of the end after that. -/
theorem run_fifo_readAndClose :
    ∃ s, Run exec Careful boot s ∧ s.read 0 = [7, 8] ∧ Fifo s ∧
      ((Op.read 1 0 3 (.ok ()) 4 false true).step s).2.Honest s := by
  have found : (runList exec Careful boot readAndClose).any (fun s => s.read 0 == [7, 8]) = true := by decide +kernel
  obtain ⟨s, run, seen⟩ := runList_any found
  obtain ⟨fifo, honest⟩ := run_fifo run
  refine ⟨s, run, by simpa using seen, fifo, honest _ ?_⟩
  simp only [Careful, Storable, true_or, decide_true]
  cases fdGet s.fds 0 3 <;> rfl

/-- A task waits to read a pipe that is closed meanwhile, and another pipe is made at its place. -/
def readAnother : List Op :=
  [.fds (.pipe 0 true), .read 1 0 3 (.ok ()) 1 false true, .fds (.close 0 3), .fds (.close 0 4), .fds (.pipe 0 true),
    .write 2 0 4 (.ok [7]) false, .resume 1 false true]

/-- The task gets a byte that was never put in the pipe that it reads. -/
theorem run_not_fifo : ¬ ∀ s, Run exec (fun _ _ => True) boot s → Fifo s := by
  intro claim
  have found : (runList exec (fun _ _ => True) boot readAnother).any (fun s => s.read 0 == [7] && s.bytes 0 == []) = true := by
    decide +kernel
  obtain ⟨s, run, seen⟩ := runList_any found
  simp only [Bool.and_eq_true, beq_iff_eq] at seen
  have ordered := (claim s run).inOrder 0
  rw [seen.1, seen.2] at ordered
  exact absurd (List.prefix_nil.mp ordered) nofun

end Enlil.Fd.Pipes
