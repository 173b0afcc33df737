import Enlil.Fd.Epoll

/-! Edges that calls of `epoll_pwait` see, and the events that they return. -/

namespace Enlil.Fd.Edges

/-- A call of `epoll_pwait` that runs. -/
structure Wait where
  set : Nat
  maxevents : Nat
  /-- The interest that the scan has come to. -/
  index : Nat
  /-- Whether the interest was found in use, and its object is being asked. -/
  asking : Bool
  scan : Scan

structure State where
  epollPool : Nat → EpollSet
  waits : Nat → Option Wait

/-- What has become of the edge that an interest was marked for. -/
inductive Mark where
  | none
  /-- A running call has the event for its caller. -/
  | held (task : Nat) (event : EpollEvent)
  /-- A call has returned the event. -/
  | returned (event : EpollEvent)
  | lost

/-- The sets and calls, and what has become of the last edge of each interest. -/
structure Session where
  state : State
  marks : Nat → Nat → Mark

/-- What callers and the system do. -/
inductive Op where
  | create
  /-- The last descriptor of a set is closed. -/
  | destroy (set : Nat)
  | ctl (set : Nat) (op : EpollOp) (fd target birth : Nat) (ev : EpollEvent)
  | pwait (task set : Nat) (maxevents : Int)
  /-- The scan of a call comes to its next interest. -/
  | next (task : Nat)
  /-- The object of the interest has been asked; what it shows is arbitrary. -/
  | shown (task : Nat) (revents : UInt16)
  /-- The scan is over: the events are stored for the caller, or the call ends or scans again. -/
  | scanned (task : Nat) (stored again : Bool)

/-- A scan begins. -/
def Wait.begin (set maxevents : Nat) : Wait := ⟨set, maxevents, 0, false, ⟨0, []⟩⟩

/-- The events of a call that are given to its caller. -/
def Wait.outcome (wait : Wait) : List EpollEvent := wait.scan.events.take (min wait.scan.ready wait.maxevents)

/-- The mark of an interest that was reported: its event is held by the call, if there was room for it. -/
def Wait.mark (wait : Wait) (task : Nat) (it : Interest) (revents : UInt16) : Mark :=
  if wait.scan.ready < wait.maxevents then .held task ⟨revents.toUInt32, it.data⟩ else .lost

/-- The mark after a call has given its events to the caller. -/
def Mark.settle (task : Nat) (given : List EpollEvent) : Mark → Mark
  | .held holder event => if holder = task then (if event ∈ given then .returned event else .lost) else .held holder event
  | mark => mark

def Session.setWait (s : Session) (task : Nat) (wait : Option Wait) : Session :=
  { s with state := { s.state with waits := Function.update s.state.waits task wait } }

def Session.setSet (s : Session) (place : Nat) (set : EpollSet) : Session :=
  { s with state := { s.state with epollPool := Function.update s.state.epollPool place set } }

def Session.setMark (s : Session) (place slot : Nat) (mark : Mark) : Session :=
  { s with marks := Function.update s.marks place (Function.update (s.marks place) slot mark) }

/-- The interest that the scan of a call has come to. -/
def Session.interest (s : Session) (wait : Wait) : Interest := (s.state.epollPool wait.set).interests wait.index

/-- The call after its scan has dealt with an interest. -/
def Wait.step (wait : Wait) (it : Interest) (revents : UInt16) : Wait :=
  { wait with index := wait.index + 1, asking := false, scan := (scanInterest it revents wait.maxevents true wait.scan).2 }

/-- An object has been asked for an interest of a call. -/
def shown (s : Session) (task : Nat) (wait : Wait) (revents : UInt16) : Session :=
  let it := s.interest wait
  let seen := (s.setSet wait.set ((s.state.epollPool wait.set).put wait.index
    (scanInterest it revents wait.maxevents true wait.scan).1)).setWait task (some (wait.step it revents))
  if it.reports revents then seen.setMark wait.set wait.index (wait.mark task it revents) else seen

/-- The scan of a call is over. -/
def scanned (s : Session) (task : Nat) (wait : Wait) (stored again : Bool) : Session :=
  if 0 < wait.scan.ready then
    ⟨{ s.state with waits := Function.update s.state.waits task none },
      fun set slot => (s.marks set slot).settle task (if stored then wait.outcome else [])⟩
  else s.setWait task (if again then some (.begin wait.set wait.maxevents) else none)

/-- What each step does; a step that does not apply does nothing. -/
def exec (s : Session) : Op → Except Empty Session
  | .create =>
    match epollSetAlloc s.state.epollPool with
    | none => .ok s
    | some place => .ok (s.setSet place { EpollSet.zero with inUse := true })
  | .destroy place => .ok (s.setSet place .zero)
  | .ctl place op fd target birth ev =>
    match epollCtl (s.state.epollPool place) op fd target birth ev with
    | .error _ => .ok s
    | .ok set => .ok (s.setSet place set)
  | .pwait task set maxevents =>
    .ok (if (s.state.waits task).isSome ∨ maxevents ≤ 0 ∨ maxFd < maxevents ∨ (s.state.epollPool set).inUse = false then s
      else s.setWait task (some (.begin set maxevents.toNat)))
  | .next task =>
    match s.state.waits task with
    | none => .ok s
    | some wait =>
      if wait.asking ∨ epollInterestMax ≤ wait.index then .ok s
      else if ((s.state.epollPool wait.set).interests wait.index).inUse then
        .ok (s.setWait task (some { wait with asking := true }))
      else .ok (s.setWait task (some { wait with index := wait.index + 1 }))
  | .shown task revents =>
    match s.state.waits task with
    | none => .ok s
    | some wait => .ok (if wait.asking then shown s task wait revents else s)
  | .scanned task stored again =>
    match s.state.waits task with
    | none => .ok s
    | some wait => .ok (if wait.index = epollInterestMax then scanned s task wait stored again else s)

/-- Before the first call. -/
def boot : Session := ⟨⟨fun _ => .zero, fun _ => none⟩, fun _ _ => .none⟩

/-- An interest is marked for an edge that it was seen to have. -/
def Interest.marked (it : Interest) : Prop := it.edgeTriggered = true ∧ it.lastReady = true

/-- An event was returned to a caller, or a call that runs is going to. -/
inductive Mark.Kept (waits : Nat → Option Wait) : Mark → Prop where
  | returned (event : EpollEvent) : Kept waits (.returned event)
  | held {task : Nat} {event : EpollEvent} {wait : Wait} : waits task = some wait → event ∈ wait.outcome →
    Kept waits (.held task event)

/-- No interest is marked for an edge that is not returned. -/
def Session.Kept (s : Session) : Prop :=
  ∀ set slot, Interest.marked ((s.state.epollPool set).interests slot) → (s.marks set slot).Kept s.state.waits

/-- A call has the event of an edge. -/
def Session.Holds (s : Session) (task : Nat) : Prop :=
  ∃ set slot event, Interest.marked ((s.state.epollPool set).interests slot) ∧ s.marks set slot = .held task event

/-- The condition on a step: a scan that sees an edge has room for its event, and events of edges can be stored for the caller. -/
def Room (s : Session) : Op → Prop
  | .shown task revents => ∀ wait, s.state.waits task = some wait → wait.asking = true →
    (s.interest wait).edgeTriggered = true → (s.interest wait).reports revents = true →
    wait.scan.ready < wait.maxevents
  | .scanned task stored _ => ∀ wait, s.state.waits task = some wait → wait.index = epollInterestMax →
    stored = true ∨ ¬ s.Holds task
  | _ => True

/-- A call keeps the events it has room for, and what it holds for an interest is among them. -/
structure Sound (s : Session) : Prop where
  full : ∀ task wait, s.state.waits task = some wait →
    wait.scan.events.length = min wait.scan.ready wait.maxevents
  held : ∀ set slot task event, s.marks set slot = .held task event →
    ∃ wait, s.state.waits task = some wait ∧ event ∈ wait.scan.events

section

variable {s s' : Session} {op : Op} {task place slot : Nat} {wait : Wait} {set : EpollSet} {revents : UInt16}
  {it : Interest} {stored again : Bool}

theorem Sound.outcome (sound : Sound s) (here : s.state.waits task = some wait) : wait.outcome = wait.scan.events := by
  rw [Wait.outcome, ← sound.full task wait here, List.take_length]

theorem Sound.setSet (sound : Sound s) : Sound (s.setSet place set) := ⟨sound.full, sound.held⟩

theorem Sound.setWait (sound : Sound s) {next : Option Wait}
    (full : ∀ wait, next = some wait → wait.scan.events.length = min wait.scan.ready wait.maxevents)
    (more : ∀ set slot event, s.marks set slot = .held task event → ∃ wait, next = some wait ∧ event ∈ wait.scan.events) :
    Sound (s.setWait task next) where
  full other wait here := by
    dsimp only [Session.setWait] at here
    by_cases same : other = task
    · subst same
      rw [Function.update_self] at here
      exact full wait here
    · rw [Function.update_of_ne same] at here
      exact sound.full other wait here
  held set slot other event marked := by
    dsimp only [Session.setWait] at marked ⊢
    by_cases same : other = task
    · subst same
      rw [Function.update_self]
      exact more set slot event marked
    · rw [Function.update_of_ne same]
      exact sound.held set slot other event marked

theorem Sound.setMark (sound : Sound s) {mark : Mark}
    (held : ∀ task event, mark = .held task event → ∃ wait, s.state.waits task = some wait ∧ event ∈ wait.scan.events) :
    Sound (s.setMark place slot mark) where
  full := sound.full
  held set slot' task event marked := by
    dsimp only [Session.setMark] at marked ⊢
    by_cases here : set = place
    · subst here
      rw [Function.update_self] at marked
      by_cases same : slot' = slot
      · subst same
        rw [Function.update_self] at marked
        exact held task event marked
      · rw [Function.update_of_ne same] at marked
        exact sound.held set slot' task event marked
    · rw [Function.update_of_ne here] at marked
      exact sound.held set slot' task event marked

theorem Wait.step_events (wait : Wait) (it : Interest) (revents : UInt16) :
    wait.scan.events <+: (wait.step it revents).scan.events := by
  rw [Wait.step, scanInterest_consume]
  split
  · dsimp only
    split
    · exact List.prefix_append _ _
    · exact List.prefix_rfl
  · exact List.prefix_rfl

theorem Sound.shown (sound : Sound s) (here : s.state.waits task = some wait) :
    Sound (Edges.shown s task wait revents) := by
  have full := sound.full task wait here
  have stepped : Sound ((s.setSet wait.set ((s.state.epollPool wait.set).put wait.index
      (scanInterest (s.interest wait) revents wait.maxevents true wait.scan).1)).setWait task
        (some (wait.step (s.interest wait) revents))) := by
    refine sound.setSet.setWait (fun wait' same => ?_) fun set slot event marked => ?_
    · cases same
      rw [Wait.step, scanInterest_consume]
      split
      · dsimp only
        split
        · simp only [List.length_append, List.length_singleton]
          omega
        · omega
      · exact full
    · obtain ⟨wait', same, member⟩ := sound.held set slot task event marked
      rw [here] at same
      cases same
      exact ⟨_, rfl, (wait.step_events _ _).subset member⟩
  unfold Edges.shown
  dsimp only
  split
  · rename_i reported
    refine stepped.setMark fun holder event held => ?_
    unfold Wait.mark at held
    split at held
    · rename_i room
      cases held
      refine ⟨_, Function.update_self .., ?_⟩
      rw [Wait.step, scanInterest_consume, if_pos reported]
      dsimp only
      rw [if_pos room]
      exact List.mem_append_right _ List.mem_cons_self
    · cases held
  · exact stepped

theorem Mark.settle_held {given : List EpollEvent} {mark : Mark} {other : Nat} {event : EpollEvent} :
    mark.settle task given = .held other event ↔ mark = .held other event ∧ other ≠ task := by
  cases mark with
  | held holder found =>
    rw [Mark.settle]
    by_cases same : holder = task
    · rw [if_pos same]
      refine ⟨fun settled => ?_, fun ⟨mine, differ⟩ => ?_⟩
      · split at settled <;> cases settled
      · cases mine
        exact absurd same differ
    · rw [if_neg same]
      refine ⟨fun settled => ?_, fun ⟨mine, _⟩ => mine⟩
      cases settled
      exact ⟨rfl, same⟩
  | _ => exact ⟨nofun, nofun⟩

theorem Sound.scanned (sound : Sound s) (here : s.state.waits task = some wait) :
    Sound (Edges.scanned s task wait stored again) := by
  unfold Edges.scanned
  split
  · refine ⟨fun other wait' there => ?_, fun set slot other event marked => ?_⟩
    · dsimp only at there
      by_cases same : other = task
      · subst same
        rw [Function.update_self] at there
        cases there
      · rw [Function.update_of_ne same] at there
        exact sound.full other wait' there
    · dsimp only at marked ⊢
      obtain ⟨mark, differ⟩ := Mark.settle_held.mp marked
      rw [Function.update_of_ne differ]
      exact sound.held set slot other event mark
  · rename_i empty
    -- A call that has found nothing holds nothing.
    have nothing : wait.scan.events = [] := by
      have full := sound.full task wait here
      exact List.eq_nil_of_length_eq_zero (by omega)
    refine sound.setWait (fun wait' same => ?_) fun set slot event marked => ?_
    · split at same
      · cases same
        rfl
      · cases same
    · obtain ⟨wait', same, member⟩ := sound.held set slot task event marked
      rw [here] at same
      cases same
      rw [nothing] at member
      cases member

theorem run_sound (run : Run exec (fun _ _ => True) boot s) : Sound s := by
  have start : Sound boot := ⟨nofun, nofun⟩
  refine Run.invariant start (fun {s s' op} sound _ ran => ?_) run
  cases op with
  | create =>
    rw [exec] at ran
    split at ran
    · cases ran
      exact sound
    · cases ran
      exact sound.setSet
  | destroy place =>
    cases ran
    exact sound.setSet
  | ctl place op fd target birth ev =>
    rw [exec] at ran
    split at ran
    · cases ran
      exact sound
    · cases ran
      exact sound.setSet
  | pwait task set maxevents =>
    cases ran
    split
    · exact sound
    · rename_i idle
      have none : s.state.waits task = none := by simpa using (not_or.mp idle).1
      refine sound.setWait (fun wait same => ?_) fun set slot event marked => ?_
      · cases same
        exact (Nat.zero_min _).symm
      · obtain ⟨wait, here, _⟩ := sound.held set slot task event marked
        rw [none] at here
        cases here
  | next task =>
    rw [exec] at ran
    split at ran
    · cases ran
      exact sound
    rename_i wait here
    have goes (wait' : Wait) (same : wait'.scan = wait.scan) (bound : wait'.maxevents = wait.maxevents) :
        Sound (s.setWait task (some wait')) := by
      refine sound.setWait (fun wait'' last => ?_) fun set slot event marked => ?_
      · cases last
        rw [same, bound]
        exact sound.full task wait here
      · obtain ⟨wait'', there, member⟩ := sound.held set slot task event marked
        rw [here] at there
        cases there
        exact ⟨wait', rfl, same ▸ member⟩
    split at ran
    · cases ran
      exact sound
    split at ran
    · cases ran
      exact goes _ rfl rfl
    · cases ran
      exact goes _ rfl rfl
  | shown task revents =>
    rw [exec] at ran
    split at ran
    · cases ran
      exact sound
    · rename_i wait here
      cases ran
      split
      · exact sound.shown here
      · exact sound
  | scanned task stored again =>
    rw [exec] at ran
    split at ran
    · cases ran
      exact sound
    · rename_i wait here
      cases ran
      split
      · exact sound.scanned here
      · exact sound

/-- The event of a mark was returned or is held by a call. -/
def Mark.kept : Mark → Bool
  | .held .. => true
  | .returned _ => true
  | _ => false

theorem Sound.kept_iff (sound : Sound s) (set : Nat) : (s.marks set slot).Kept s.state.waits ↔ (s.marks set slot).kept = true := by
  cases mark : s.marks set slot with
  | held task event =>
    obtain ⟨wait, here, member⟩ := sound.held set slot task event mark
    exact ⟨fun _ => rfl, fun _ => .held here (sound.outcome here ▸ member)⟩
  | returned event => exact ⟨fun _ => rfl, fun _ => .returned event⟩
  | none => exact ⟨nofun, nofun⟩
  | lost => exact ⟨nofun, nofun⟩

/-- No interest is marked for an edge whose event is neither returned nor held. -/
def Session.Marked (s : Session) : Prop :=
  ∀ set slot, Interest.marked ((s.state.epollPool set).interests slot) → (s.marks set slot).kept = true

theorem Sound.kept (sound : Sound s) : s.Kept ↔ s.Marked :=
  forall_congr' fun set => forall_congr' fun _ => imp_congr_right fun _ => sound.kept_iff set

theorem Session.Marked.setSet (kept : s.Marked)
    (old : ∀ slot, Interest.marked (set.interests slot) → Interest.marked ((s.state.epollPool place).interests slot)) :
    (s.setSet place set).Marked := by
  intro other slot marked
  dsimp only [Session.setSet] at marked ⊢
  by_cases here : other = place
  · subst here
    rw [Function.update_self] at marked
    exact kept other slot (old slot marked)
  · rw [Function.update_of_ne here] at marked
    exact kept other slot marked

theorem epollCtl_marked {set' : EpollSet} {op : EpollOp} {fd target birth : Nat} {ev : EpollEvent}
    (changed : epollCtl set op fd target birth ev = .ok set') (marked : Interest.marked (set'.interests slot)) :
    Interest.marked (set.interests slot) := by
  obtain ⟨place, interest, same, kind⟩ := epollCtl_spec changed
  subst same
  dsimp only [EpollSet.put] at marked
  by_cases here : slot = place
  · subst here
    rw [Function.update_self] at marked
    rcases kind with rfl | ⟨_, _, rfl⟩
    · cases marked.1
    · cases marked.2
  · rwa [Function.update_of_ne here] at marked

theorem shown_interest (s : Session) (task : Nat) (wait : Wait) (revents : UInt16) (set slot : Nat) :
    ((shown s task wait revents).state.epollPool set).interests slot =
      if set = wait.set ∧ slot = wait.index then { s.interest wait with lastReady := revents != 0 }
      else (s.state.epollPool set).interests slot := by
  have pool : (shown s task wait revents).state.epollPool = Function.update s.state.epollPool wait.set
      ((s.state.epollPool wait.set).put wait.index { s.interest wait with lastReady := revents != 0 }) := by
    unfold shown
    dsimp only
    rw [scanInterest_consume]
    split <;> rfl
  rw [pool]
  by_cases here : set = wait.set
  · subst here
    rw [Function.update_self, EpollSet.put]
    by_cases same : slot = wait.index
    · rw [if_pos ⟨rfl, same⟩, same]
      exact Function.update_self ..
    · rw [if_neg fun both => same both.2]
      exact Function.update_of_ne same ..
  · rw [Function.update_of_ne here, if_neg fun both => here both.1]

theorem shown_mark (s : Session) (task : Nat) (wait : Wait) (revents : UInt16) (set slot : Nat) :
    (shown s task wait revents).marks set slot =
      if (set = wait.set ∧ slot = wait.index) ∧ (s.interest wait).reports revents = true then
        wait.mark task (s.interest wait) revents
      else s.marks set slot := by
  unfold shown
  dsimp only
  split
  · rename_i reported
    dsimp only [Session.setMark]
    by_cases here : set = wait.set
    · subst here
      rw [Function.update_self]
      by_cases same : slot = wait.index
      · rw [if_pos ⟨⟨rfl, same⟩, reported⟩, same]
        exact Function.update_self ..
      · rw [if_neg fun both => same both.1.2]
        exact Function.update_of_ne same ..
    · rw [Function.update_of_ne here, if_neg fun both => here both.1.1]
      rfl
  · rename_i silent
    rw [if_neg fun both => silent both.2]
    rfl

theorem Session.Marked.shown_iff (kept : s.Marked) :
    (shown s task wait revents).Marked ↔
      ((s.interest wait).edgeTriggered = true → (s.interest wait).reports revents = true →
        wait.scan.ready < wait.maxevents) := by
  refine ⟨fun after edge reported => ?_, fun room set slot marked => ?_⟩
  · by_contra full
    have seen : (revents != 0) = true := (Bool.and_eq_true_iff.mp reported).1
    have held := after wait.set wait.index (by
      rw [shown_interest, if_pos ⟨rfl, rfl⟩]
      exact ⟨edge, seen⟩)
    rw [shown_mark, if_pos ⟨⟨rfl, rfl⟩, reported⟩, Wait.mark, if_neg full] at held
    cases held
  · rw [shown_interest] at marked
    rw [shown_mark]
    by_cases here : set = wait.set ∧ slot = wait.index
    · rw [if_pos here] at marked
      by_cases reported : (s.interest wait).reports revents = true
      · rw [if_pos ⟨here, reported⟩, Wait.mark, if_pos (room marked.1 reported)]
        rfl
      · rw [if_neg fun both => reported both.2]
        -- The interest shows something and is not reported, so it was marked before.
        obtain ⟨edge, seen⟩ := marked
        obtain ⟨rfl, rfl⟩ := here
        refine kept wait.set wait.index ⟨edge, ?_⟩
        have seen' : (revents != 0) = true := seen
        have edge' : (s.interest wait).edgeTriggered = true := edge
        have before : (s.interest wait).lastReady = true := by simpa [Interest.reports, seen', edge'] using reported
        exact before
    · rw [if_neg here] at marked
      rw [if_neg fun both => here both.1]
      exact kept set slot marked

theorem Session.Marked.scanned_iff (kept : s.Marked) (sound : Sound s) (here : s.state.waits task = some wait) :
    (scanned s task wait stored again).Marked ↔ stored = true ∨ ¬ s.Holds task := by
  unfold scanned
  split
  · rename_i found
    refine ⟨fun after => ?_, fun ends set slot marked => ?_⟩
    · refine or_iff_not_imp_left.mpr fun failed => ?_
      rintro ⟨set, slot, event, marked, mark⟩
      have settled := after set slot marked
      simp [mark, Mark.settle, failed, Mark.kept] at settled
    · have old := kept set slot marked
      dsimp only at marked ⊢
      cases mark : s.marks set slot with
      | none => rw [mark] at old; cases old
      | lost => rw [mark] at old; cases old
      | returned => rfl
      | held holder event =>
        rw [Mark.settle]
        by_cases mine : holder = task
        · subst mine
          have given : stored = true := ends.resolve_right fun none => none ⟨set, slot, event, marked, mark⟩
          obtain ⟨wait', same, member⟩ := sound.held set slot holder event mark
          rw [here] at same
          cases same
          rw [if_pos rfl, given, if_pos (by simpa [sound.outcome here] using member)]
          rfl
        · rw [if_neg mine]
          rfl
  · rename_i empty
    refine ⟨fun _ => .inr ?_, fun _ set slot marked => kept set slot marked⟩
    rintro ⟨set, slot, event, _, mark⟩
    obtain ⟨wait', same, member⟩ := sound.held set slot task event mark
    rw [here] at same
    cases same
    have full := sound.full task wait here
    have some := List.length_pos_of_mem member
    omega

theorem exec_marked_iff (kept : s.Marked) (sound : Sound s) (ran : exec s op = .ok s') : s'.Marked ↔ Room s op := by
  cases op with
  | create =>
    refine iff_of_true ?_ trivial
    rw [exec] at ran
    split at ran
    · cases ran
      exact kept
    · cases ran
      exact kept.setSet fun slot marked => nomatch marked.1
  | destroy place =>
    cases ran
    exact iff_of_true (kept.setSet fun slot marked => nomatch marked.1) trivial
  | ctl place op fd target birth ev =>
    refine iff_of_true ?_ trivial
    rw [exec] at ran
    split at ran
    · cases ran
      exact kept
    · rename_i changed
      cases ran
      exact kept.setSet fun slot marked => epollCtl_marked changed marked
  | pwait task set maxevents =>
    cases ran
    refine iff_of_true ?_ trivial
    split <;> exact kept
  | next task =>
    refine iff_of_true ?_ trivial
    rw [exec] at ran
    split at ran
    · cases ran
      exact kept
    split at ran
    · cases ran
      exact kept
    split at ran <;> cases ran <;> exact kept
  | shown task revents =>
    rw [exec] at ran
    split at ran
    · rename_i none
      cases ran
      exact iff_of_true kept fun wait here => nomatch none.symm.trans here
    · rename_i wait here
      cases ran
      by_cases asking : wait.asking = true
      · rw [if_pos asking, kept.shown_iff]
        refine ⟨fun room wait' same _ => ?_, fun room => room wait here asking⟩
        cases here.symm.trans same
        exact room
      · rw [if_neg asking]
        refine iff_of_true kept fun wait' same asks => ?_
        cases here.symm.trans same
        exact absurd asks asking
  | scanned task stored again =>
    rw [exec] at ran
    split at ran
    · rename_i none
      cases ran
      exact iff_of_true kept fun wait here => nomatch none.symm.trans here
    · rename_i wait here
      cases ran
      by_cases last : wait.index = epollInterestMax
      · rw [if_pos last, kept.scanned_iff sound here]
        refine ⟨fun ends wait' same _ => ends, fun ends => ends wait here last⟩
      · rw [if_neg last]
        refine iff_of_true kept fun wait' same ends => ?_
        cases here.symm.trans same
        exact absurd ends last

/-- In every run in which edges find room and their events are stored, every edge that a call sees is returned by it. -/
theorem run_kept (run : Run exec Room boot s) : s.Kept := by
  have kept : s.Marked := by
    induction run with
    | start => exact fun _ _ marked => nomatch marked.1
    | call op before room ran ih =>
      exact (exec_marked_iff ih (run_sound (before.mono fun _ _ _ => trivial)) ran).mpr room
  exact (run_sound (run.mono fun _ _ _ => trivial)).kept.mpr kept

end

/-- An edge-triggered interest that asks for input. -/
def edgeInput (data : UInt64) : EpollEvent := ⟨linuxEpollet ||| linuxPollin, data⟩

/-- Two edge-triggered interests turn ready, and a call scans them. -/
def twoEdges (maxevents : Int) : List Op :=
  [.create, .ctl 0 .add 3 0 0 (edgeInput 1), .ctl 0 .add 4 1 1 (edgeInput 2), .pwait 7 0 maxevents,
    .next 7, .shown 7 1, .next 7, .shown 7 1]

/-- A call with room for one event sees an edge, and holds its event. -/
theorem run_kept_oneEdge :
    ∃ s, Run exec Room boot s ∧ Interest.marked ((s.state.epollPool 0).interests 0) ∧ s.Kept := by
  have asked : Run exec Room boot _ :=
    .call (.next 7) (.call (.pwait 7 0 1) (.call (.ctl 0 .add 3 0 0 (edgeInput 1)) (.call .create .start trivial rfl)
      trivial rfl) trivial rfl) trivial rfl
  have room : Run exec Room boot _ := .call (.shown 7 1) asked (fun wait here _ _ _ => by cases here; decide) rfl
  exact ⟨_, room, ⟨by decide, by decide⟩, run_kept room⟩

/-- A call with room for one event sees two edges, and marks both interests. -/
theorem run_not_kept : ¬ ∀ s, Run exec (fun _ _ => True) boot s → s.Kept := by
  intro claim
  have found : (runList exec (fun _ _ => True) boot (twoEdges 1)).any (fun s =>
      ((s.state.epollPool 0).interests 1).edgeTriggered && ((s.state.epollPool 0).interests 1).lastReady &&
        !(s.marks 0 1).kept) = true := by
    decide
  obtain ⟨s, run, seen⟩ := runList_any found
  simp only [Bool.and_eq_true, Bool.not_eq_true'] at seen
  have kept := (run_sound run).kept.mp (claim s run) 0 1 seen.1
  rw [seen.2] at kept
  cases kept

end Enlil.Fd.Edges
