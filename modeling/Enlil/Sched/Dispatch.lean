import Enlil.Sched.RunQueue

/-! Picking the next task: what it takes out of the queues and what it leaves there. -/

namespace Enlil.Sched

/-- Takes the most urgent task out of the queues. -/
def takeFirst (s : State) : Option (Nat × State) :=
  match bitmapFindFirst s.readyBitmap with
  | none => none
  | some p =>
    match s.runQueue (UInt8.ofNat p) with
    | [] => none
    | t :: rest => some (t, setQueue s (UInt8.ofNat p) rest)

/-- The task to run after `prev`, with the queues it was taken out of. -/
def choose (s : State) (prev : Nat) : Option Nat × State :=
  match takeFirst s with
  | none => (none, s)
  | some (t, s') =>
    if t = prev then
      match takeFirst s' with
      | none => (none, s')
      | some (next, s'') => (some next, s'')
    else (some t, s')

section

variable {s s' : State} {out : Set Nat} {t prev next : Nat} {p : UInt8}

theorem Queues.found (queues : Queues out s) {prio : Nat} (found : bitmapFindFirst s.readyBitmap = some prio) :
    (UInt8.ofNat prio).toNat = prio ∧ s.runQueue (UInt8.ofNat prio) ≠ [] ∧
      ∀ q : UInt8, q.toNat < prio → s.runQueue q = [] := by
  obtain ⟨small, set, clear⟩ := bitmapFindFirst_some found
  have same : (UInt8.ofNat prio).toNat = prio := by
    simpa [UInt8.toNat_ofNat] using Nat.mod_eq_of_lt small
  refine ⟨same, (queues.bit _).mp (by rw [same]; exact set), fun q urgent => ?_⟩
  by_contra some
  have bit := (queues.bit q).mpr some
  rw [clear _ urgent] at bit
  cases bit

theorem takeFirst_none (queues : Queues out s) (missing : takeFirst s = none) (p : UInt8) :
    s.runQueue p = [] := by
  unfold takeFirst at missing
  split at missing
  · rename_i none
    by_contra some
    have bit := (queues.bit p).mpr some
    rw [bitmapFindFirst_none none p.toNat_lt] at bit
    cases bit
  · rename_i prio found
    split at missing
    · rename_i empty
      exact absurd empty (queues.found found).2.1
    · cases missing

theorem takeFirst_some (queues : Queues out s) (taken : takeFirst s = some (t, s')) :
    ∃ p rest, s.runQueue p = t :: rest ∧ s' = setQueue s p rest ∧ ∀ q < p, s.runQueue q = [] := by
  unfold takeFirst at taken
  split at taken
  · cases taken
  · rename_i prio found
    obtain ⟨same, -, urgent⟩ := queues.found found
    split at taken
    · cases taken
    · rename_i first rest queue
      cases taken
      refine ⟨_, rest, queue, rfl, fun q below => urgent q ?_⟩
      rw [← same]
      exact UInt8.lt_iff_toNat_lt.mp below

theorem takeFirst_queues (queues : Queues out s) (taken : takeFirst s = some (t, s')) :
    Queues (insert t out) s' := by
  obtain ⟨p, rest, first, rfl, -⟩ := takeFirst_some queues taken
  exact queues.pop first

theorem takeFirst_member (queues : Queues out s) (taken : takeFirst s = some (t, s')) :
    t < s.taskCount ∧ t ∉ out ∧ (s.tcb t).state = .ready := by
  obtain ⟨p, rest, first, -⟩ := takeFirst_some queues taken
  obtain ⟨inside, free, ready, -⟩ := queues.member p t (by simp [first])
  exact ⟨inside, free, ready⟩

/-- Two states differ in nothing but the queues. -/
def SameTasks (s s' : State) : Prop :=
  ∃ runQueue readyBitmap, s' = { s with runQueue := runQueue, readyBitmap := readyBitmap }

theorem takeFirst_frame (taken : takeFirst s = some (t, s')) : SameTasks s s' := by
  unfold takeFirst at taken
  split at taken
  · cases taken
  · split at taken
    · cases taken
    · cases taken
      exact ⟨_, _, rfl⟩

theorem linked_pos (some : s.runQueue p ≠ []) : 0 < s.linked := by
  apply List.sum_pos_iff_exists_pos_nat.mpr
  refine ⟨(s.runQueue p).length, List.mem_map.mpr ⟨p.toNat, ?_, ?_⟩, List.length_pos_of_ne_nil some⟩
  · exact List.mem_range.mpr p.toNat_lt
  · simp

theorem pickNext_round (queues : Queues out s) (change : Tcb → Tcb) (fuel : Nat) :
    pickNext prev (fuel + 1) (s.setTcb prev change) =
      match takeFirst s with
      | none => some (none, s.setTcb prev change)
      | some (t, s') =>
        if t = prev then pickNext prev fuel (s'.setTcb prev change) else some (some t, s'.setTcb prev change) := by
  have same : (s.setTcb prev change).readyBitmap = s.readyBitmap := rfl
  rw [pickNext, same, takeFirst]
  cases found : bitmapFindFirst s.readyBitmap with
  | none => rfl
  | some prio =>
    have queue : (s.setTcb prev change).runQueue = s.runQueue := rfl
    simp only [rqPop, queue]
    cases first : s.runQueue (UInt8.ofNat prio) with
    | nil => exact absurd first (queues.found found).2.1
    | cons t rest =>
      have ready : (s.tcb t).state = .ready := (queues.member (UInt8.ofNat prio) t (by simp [first])).2.2.1
      by_cases own : t = prev
      · simp only [own, true_or, if_true]
        rfl
      · -- A task other than the previous one is ready, so the entry is not stale.
        have fresh : ((s.setTcb prev change).tcb t).state = .ready := by
          rw [setTcb_other change own]
          exact ready
        have stale : ¬ (t = prev ∨ ((setQueue (s.setTcb prev change) (UInt8.ofNat prio) rest).tcb t).state ≠ .ready) := by
          rintro (same | idle)
          · exact own same
          · exact idle fresh
        simp only [if_neg stale, if_neg own]
        rfl

theorem pickNext_eq (queues : Queues out s) (change : Tcb → Tcb) :
    pickNext prev ((s.setTcb prev change).linked + 1) (s.setTcb prev change) =
      some ((choose s prev).1, (choose s prev).2.setTcb prev change) := by
  rw [pickNext_round queues, choose]
  cases taken : takeFirst s with
  | none => rfl
  | some first =>
    obtain ⟨t, s'⟩ := first
    by_cases own : t = prev
    · -- The entry of the previous task is dropped, and it was the only one.
      subst own
      obtain ⟨p, rest, queue, -⟩ := takeFirst_some queues taken
      obtain ⟨fuel, more⟩ : ∃ fuel, (s.setTcb t change).linked = fuel + 1 :=
        Nat.exists_eq_succ_of_ne_zero (linked_pos (s := s) (p := p) (by simp [queue])).ne'
      have queues' := takeFirst_queues queues taken
      simp only [if_true, more, pickNext_round queues']
      cases again : takeFirst s' with
      | none => rfl
      | some second =>
        obtain ⟨next, s''⟩ := second
        have other : next ≠ t := fun same =>
          (takeFirst_member queues' again).2.1 (same ▸ Set.mem_insert t out)
        simp [other]
    · simp [own]

theorem scheduleLocked_eq (queues : Queues out s) (change : Tcb → Tcb) :
    scheduleLocked (s.setTcb s.current change) =
      some (match choose s s.current with
        | (none, s') => s'.setTcb s.current change
        | (some next, s') => dispatch (s'.setTcb s.current change) next) := by
  have same : (s.setTcb s.current change).current = s.current := rfl
  rw [scheduleLocked, same, pickNext_eq queues]
  cases choose s s.current with
  | mk next s' => cases next <;> rfl

theorem Queues.dispatch (queues : Queues (insert next out) s) (inside : s.current < s.taskCount)
    (other : s.current ≠ next) (free : (s.tcb s.current).state = .running → s.current ∉ out) :
    Queues out (Sched.dispatch s next) := by
  have requeued : Queues (insert next out) (requeuePrev s) := by
    unfold requeuePrev
    split
    · rename_i running
      -- A running task is in no queue, so it can be marked and then pushed.
      have idle : (s.tcb s.current).state ≠ .ready := by simp [running]
      have held := (queues.hold idle).change (Set.mem_insert _ _) fun t => { t with state := .ready }
      exact held.push (by simp [other, free running]) inside (by simp)
    · exact queues
  have filled := requeued.keep (t := s.current) (f := refillTicks)
    (by unfold refillTicks; split <;> rfl) (by unfold refillTicks; split <;> rfl)
  have marked := filled.change (Set.mem_insert next out) fun t => refillTicks { t with state := .running }
  have running : ((((requeuePrev s).setTcb s.current refillTicks).setTcb next fun t =>
      refillTicks { t with state := .running }).tcb next).state ≠ .ready := by
    rw [setTcb_self]
    unfold refillTicks
    split <;> simp
  have done := marked.free running
  exact ⟨done.bit, done.once, done.ready, done.member⟩

theorem Queues.lost (queues : Queues (insert t out) s) (inside : t < s.taskCount)
    (ready : (s.tcb t).state = .ready) : ¬ Queues ∅ s := by
  intro whole
  have linked := whole.ready t inside (Set.notMem_empty t) ready
  exact (queues.member _ t linked).2.1 (Set.mem_insert t out)

theorem Queues.stale (linked : t ∈ s.runQueue p) (idle : (s.tcb t).state ≠ .ready) : ¬ Queues ∅ s :=
  fun whole => idle (whole.member p t linked).2.2.1

/-- The current task heads the most urgent queue. -/
def AtFront (s : State) : Prop := (takeFirst s).map Prod.fst = some s.current

instance : Decidable (AtFront s) := inferInstanceAs (Decidable (_ = _))

theorem AtFront.ready (queues : Queues out s) (front : AtFront s) :
    s.current ∉ out ∧ (s.tcb s.current).state = .ready := by
  unfold AtFront at front
  cases taken : takeFirst s with
  | none => simp [taken] at front
  | some first =>
    obtain ⟨t, s'⟩ := first
    have same : t = s.current := by simpa [taken] using front
    subst same
    exact (takeFirst_member queues taken).2

/-- A task that was chosen to run next, with the queues it was taken out of. -/
structure Chosen (s : State) (out : Set Nat) (next : Nat) (s' : State) : Prop where
  other : s.current ≠ next
  inside : next < s.taskCount
  ready : (s.tcb next).state = .ready
  queues : Queues (insert next out) s'
  frame : SameTasks s s'

theorem takeFirst_chosen (queues : Queues out s) (taken : takeFirst s = some (next, s'))
    (other : s.current ≠ next) : Chosen s out next s' := by
  obtain ⟨inside, -, ready⟩ := takeFirst_member queues taken
  exact ⟨other, inside, ready, takeFirst_queues queues taken, takeFirst_frame taken⟩

theorem choose_behind (queues : Queues out s) (behind : ¬ AtFront s) :
    (choose s s.current = (none, s) ∧ takeFirst s = none) ∨
      ∃ next s', choose s s.current = (some next, s') ∧ Chosen s out next s' := by
  unfold choose
  cases taken : takeFirst s with
  | none => exact .inl ⟨rfl, rfl⟩
  | some first =>
    obtain ⟨t, s'⟩ := first
    have other : t ≠ s.current := fun same => behind (by simp [AtFront, taken, same])
    exact .inr ⟨t, s', by simp [other], takeFirst_chosen queues taken other.symm⟩

theorem choose_front (queues : Queues out s) (front : AtFront s) :
    (∃ s', choose s s.current = (none, s') ∧ Queues (insert s.current out) s' ∧ SameTasks s s') ∨
      ∃ next s', choose s s.current = (some next, s') ∧ Chosen s (insert s.current out) next s' := by
  unfold choose
  cases taken : takeFirst s with
  | none => simp [AtFront, taken] at front
  | some first =>
    obtain ⟨t, s'⟩ := first
    have same : t = s.current := by simpa [AtFront, taken] using front
    subst same
    have queues' := takeFirst_queues queues taken
    obtain ⟨runQueue, readyBitmap, rfl⟩ := takeFirst_frame taken
    cases again : takeFirst { s with runQueue := runQueue, readyBitmap := readyBitmap } with
    | none => exact .inl ⟨_, by simp [again], queues', _, _, rfl⟩
    | some second =>
      obtain ⟨next, s''⟩ := second
      have other : s.current ≠ next := fun same =>
        (takeFirst_member queues' again).2.1 (same ▸ Set.mem_insert _ out)
      obtain ⟨-, inside, ready, last, runQueue', readyBitmap', rfl⟩ := takeFirst_chosen queues' again other
      exact .inr ⟨next, _, by simp [again], other, inside, ready, last, _, _, rfl⟩

/-- The ways a switch can go, with the tasks it takes out of the queues. -/
inductive Switch (s : State) (out : Set Nat) (change : Tcb → Tcb) : State → Prop where
  | stay : ¬ AtFront s → takeFirst s = none → Switch s out change (s.setTcb s.current change)
  | next {next : Nat} {q : State} : ¬ AtFront s → Chosen s out next q →
      Switch s out change (dispatch (q.setTcb s.current change) next)
  | dropped {q : State} : AtFront s → Queues (insert s.current out) q → SameTasks s q →
      Switch s out change (q.setTcb s.current change)
  | droppedNext {next : Nat} {q : State} : AtFront s → Chosen s (insert s.current out) next q →
      Switch s out change (dispatch (q.setTcb s.current change) next)

theorem scheduleLocked_switch (queues : Queues out s) (change : Tcb → Tcb) :
    ∃ s', scheduleLocked (s.setTcb s.current change) = some s' ∧ Switch s out change s' := by
  rw [scheduleLocked_eq queues]
  by_cases front : AtFront s
  · rcases choose_front queues front with ⟨q, chose, queues', frame⟩ | ⟨next, q, chose, chosen⟩
    · exact ⟨_, rfl, by rw [chose]; exact .dropped front queues' frame⟩
    · exact ⟨_, rfl, by rw [chose]; exact .droppedNext front chosen⟩
  · rcases choose_behind queues front with ⟨chose, empty⟩ | ⟨next, q, chose, chosen⟩
    · exact ⟨_, rfl, by rw [chose]; exact .stay front empty⟩
    · exact ⟨_, rfl, by rw [chose]; exact .next front chosen⟩

@[simp] theorem refillTicks_state (t : Tcb) : (refillTicks t).state = t.state := by
  unfold refillTicks
  split <;> rfl

@[simp] theorem refillTicks_effPrio (t : Tcb) : effPrioOf (refillTicks t) = effPrioOf t := by
  unfold refillTicks
  split <;> rfl

@[simp] theorem requeuePrev_taskCount : (requeuePrev s).taskCount = s.taskCount := by
  unfold requeuePrev
  split <;> rfl

@[simp] theorem dispatch_taskCount : (dispatch s next).taskCount = s.taskCount := requeuePrev_taskCount

@[simp] theorem dispatch_current : (dispatch s next).current = next := rfl

theorem requeuePrev_tcb : (requeuePrev s).tcb =
    if (s.tcb s.current).state = .running then
      (s.setTcb s.current fun t => { t with state := .ready }).tcb
    else s.tcb := by
  unfold requeuePrev
  split <;> rfl

theorem dispatch_state (t : Nat) : ((dispatch s next).tcb t).state =
    if t = next then .running
    else if t = s.current ∧ (s.tcb t).state = .running then .ready
    else (s.tcb t).state := by
  by_cases first : t = next
  · subst first
    simp [dispatch]
  · by_cases second : t = s.current
    · subst second
      by_cases running : (s.tcb s.current).state = .running
      · simp [dispatch, first, requeuePrev_tcb, running]
      · simp [dispatch, first, requeuePrev_tcb, running]
    · by_cases running : (s.tcb s.current).state = .running
      · simp [dispatch, first, second, requeuePrev_tcb, running]
      · simp [dispatch, first, second, requeuePrev_tcb, running]

@[simp] theorem requeuePrev_effPrio (t : Nat) : (requeuePrev s).effPrio t = s.effPrio t := by
  unfold requeuePrev
  split
  · exact setTcb_effPrio (s := s) (f := fun t => { t with state := .ready }) rfl t
  · rfl

@[simp] theorem dispatch_effPrio (t : Nat) : (dispatch s next).effPrio t = s.effPrio t := by
  show (((requeuePrev s).setTcb s.current refillTicks).setTcb next fun t =>
    refillTicks { t with state := .running }).effPrio t = s.effPrio t
  rw [setTcb_effPrio, setTcb_effPrio, requeuePrev_effPrio]
  · exact refillTicks_effPrio _
  · exact refillTicks_effPrio _

theorem dispatch_runQueue (idle : (s.tcb s.current).state ≠ .running) :
    (dispatch s next).runQueue = s.runQueue := by
  simp [dispatch, requeuePrev, idle, State.setTcb]

end

end Enlil.Sched
