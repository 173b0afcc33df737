import Enlil.Kmon.Clients
import Enlil.Sched.Turns

/-! Which runs never leave a task asleep that has been given a lock. -/

namespace Enlil.Kmon

/-- A lock was given to a task that sleeps: its record says so and it owns the monitor, but nobody will wake it. -/
def LostGrant (k : State) : Prop :=
  ∃ w, (k.waiters w).active = true ∧ (k.waiters w).granted = true ∧
    (k.pool (k.waiters w).mon).owner = some (k.waiters w).task ∧ (k.sched.tcb (k.waiters w).task).state = .blocked

/-- A task that has tested its record and is about to block. -/
def Place.isBlocking : Place → Bool
  | .blocking .. => true
  | _ => false

/-- The record that the lock of a monitor goes to next. -/
def Monitor.next (mon : Monitor) : Option Nat := (mon.queue .urgent ++ mon.queue .enter).head?

/-- No task that waits for a monitor of a task is about to block. -/
def Calm (t : Nat) (k : State) : Prop :=
  ∀ slot < kmonMax, (k.pool slot).owner = some t →
    ∀ w ∈ (k.pool slot).queue .urgent ++ (k.pool slot).queue .enter, (k.place (k.waiters w).task).isBlocking = false

/--
No lock is handed to a task that is about to block, and nobody gives up when the lock has just come.

For a task that ends, no task that waits for one of its monitors is about to block.
-/
def Prompt (k : State) : Op → Prop
  | .exit handle | .wait handle _ _ =>
    ∀ slot ∈ find k handle, (k.pool slot).owner = some k.sched.current → ∀ w ∈ (k.pool slot).next,
      (k.place (k.waiters w).task).isBlocking = false
  | .cleanup t => Calm t k
  | .finish =>
    match k.place k.sched.current with
    | .interrupting w _ | .givingUp w _ _ _ => (k.waiters w).granted = false
    | _ => True
  | _ => True

instance (k : State) : (op : Op) → Decidable (Prompt k op)
  | .exit handle => inferInstanceAs (Decidable (∀ slot ∈ find k handle, (k.pool slot).owner = some k.sched.current →
      ∀ w ∈ (k.pool slot).next, (k.place (k.waiters w).task).isBlocking = false))
  | .wait handle _ _ => inferInstanceAs (Decidable (∀ slot ∈ find k handle, (k.pool slot).owner = some k.sched.current →
      ∀ w ∈ (k.pool slot).next, (k.place (k.waiters w).task).isBlocking = false))
  | .cleanup t => inferInstanceAs (Decidable (∀ slot < kmonMax, (k.pool slot).owner = some t →
      ∀ w ∈ (k.pool slot).queue .urgent ++ (k.pool slot).queue .enter, (k.place (k.waiters w).task).isBlocking = false))
  | .finish =>
    match here : k.place k.sched.current with
    | .interrupting w _ | .givingUp w _ _ _ => decidable_of_iff ((k.waiters w).granted = false) (by rw [Prompt, here])
    | .idle | .entering .. | .blocking .. | .polling .. | .waiting .. | .reentering .. | .taking .. =>
      .isTrue (by rw [Prompt, here]; trivial)
  | .create .. | .destroy _ | .enter _ | .signal .. | .broadcast .. | .poll .. | .block | .turn _ => .isTrue trivial

/-- A task that has been given a lock is awake, and it will test its record before it blocks. -/
structure Awake (leaving : Option Nat) (k : State) : Prop where
  owned : ∀ w, (k.waiters w).active = true → w < kmonMaxWaiters ∧
    (leaving = some (k.waiters w).task ∨ (k.place (k.waiters w).task).record = some (w, (k.waiters w).mon))
  awake : ∀ w, (k.waiters w).active = true → (k.waiters w).granted = true →
    (k.sched.tcb (k.waiters w).task).state ≠ .blocked ∧ (k.place (k.waiters w).task).isBlocking = false

/-- Whoever is awake stays awake. -/
def StaysAwake (s s' : Sched.State) : Prop := ∀ t, (s.tcb t).state ≠ .blocked → (s'.tcb t).state ≠ .blocked

section

variable {k k' : State} {leaving : Option Nat} {slot w t : Nat} {q : Queue} {handle : UInt32}

theorem staysAwake_donate (s : Sched.State) (t : Nat) (prio : UInt8) :
    StaysAwake s (Sched.schedTaskDonatePriority s t prio) := by
  intro u awake
  by_cases own : u = t
  · rw [own, (Sched.mild_donate t prio).2, ← own]
    exact awake
  · exact ((Sched.mild_donate t prio).1 u own).awake awake

theorem staysAwake_clear (s : Sched.State) (t : Nat) : StaysAwake s (Sched.schedTaskClearDonation s t) := by
  intro u awake
  by_cases own : u = t
  · rw [own, (Sched.mild_clear t).2, ← own]
    exact awake
  · exact ((Sched.mild_clear t).1 u own).awake awake

theorem staysAwake_lend : StaysAwake k.sched (lend k slot) := by
  unfold lend
  split
  · exact fun _ => id
  · split
    · exact fun _ => id
    · split
      · exact staysAwake_donate _ _ _
      · exact staysAwake_clear _ _

theorem staysAwake_assign : StaysAwake k.sched (assignOwner k slot t).sched := by
  have lent : StaysAwake (k.setMon slot fun mon => { mon with owner := some t, entryCount := 1 }).sched
    (lend (k.setMon slot fun mon => { mon with owner := some t, entryCount := 1 }) slot) := staysAwake_lend
  exact lent

theorem staysAwake_takeBack : StaysAwake k.sched (takeBack k slot t).sched := by
  unfold takeBack
  dsimp only
  split
  · exact staysAwake_clear _ _
  · exact fun _ => id

theorem staysAwake_wake : StaysAwake k.sched (wake k t).sched := by
  unfold wake
  dsimp only
  split
  · exact fun u awake => (@Sched.mild_unblock _ ∅ t u (Set.notMem_empty u)).awake awake
  · exact fun _ => id

theorem wake_awake : ((wake k t).sched.tcb t).state ≠ .blocked := by
  unfold wake
  dsimp only
  split
  · exact Sched.unblock_awake t
  · rename_i awake
    exact awake

theorem release_awake (k : State) (slot t : Nat) : StaysAwake k.sched (release k slot t).sched ∧
    ∀ w rest, (k.pool slot).queue .urgent ++ (k.pool slot).queue .enter = w :: rest →
      ((release k slot t).sched.tcb (k.waiters w).task).state ≠ .blocked := by
  have same : (takeBack k slot t).pool = k.pool := rfl
  have back : StaysAwake k.sched (takeBack k slot t).sched := staysAwake_takeBack
  cases popped : (k.pool slot).popNext with
  | none =>
    rw [release, same, popped]
    refine ⟨back, fun w rest some => ?_⟩
    unfold Monitor.popNext at popped
    split at popped
    · cases popped
    · cases popped
    · rename_i urgent enter
      rw [urgent, enter] at some
      cases some
  | some pair =>
    obtain ⟨w, mon⟩ := pair
    rw [release, same, popped]
    let given := ((takeBack k slot t).setMon slot fun _ => mon).setWaiter w fun waiter =>
      { waiter with queueKind := .none, granted := true }
    have task : (given.waiters w).task = (k.waiters w).task := by
      show ((State.setWaiter _ w _).waiters w).task = _
      rw [setWaiter_self]
      rfl
    have lent : StaysAwake given.sched (assignOwner given slot (given.waiters w).task).sched := staysAwake_assign
    refine ⟨fun u awake => staysAwake_wake u (lent u (back u awake)), fun v rest some => ?_⟩
    have first : v = w := by
      obtain ⟨q, rest', which, here, -⟩ := popNext_some popped
      rcases which with rfl | ⟨none, rfl⟩
      · rw [here] at some
        cases some
        rfl
      · rw [none, here] at some
        cases some
        rfl
    rw [first, ← task]
    exact wake_awake

theorem Awake.keep (awake : Awake leaving k) (places : k'.place = k.place)
    (records : ∀ w, (k'.waiters w).active = true → (k.waiters w).active = true ∧
      (k'.waiters w).task = (k.waiters w).task ∧ (k'.waiters w).mon = (k.waiters w).mon ∧
      ((k'.waiters w).granted = true → (k.waiters w).granted = true))
    (states : StaysAwake k.sched k'.sched) : Awake leaving k' := by
  constructor
  · intro w active
    obtain ⟨before, task, mon, -⟩ := records w active
    rw [places, task, mon]
    exact awake.owned w before
  · intro w active granted
    obtain ⟨before, task, -, earlier⟩ := records w active
    obtain ⟨up, calm⟩ := awake.awake w before (earlier granted)
    rw [places, task]
    exact ⟨states _ up, calm⟩

theorem Awake.sched (awake : Awake leaving k) {sched : Sched.State} (states : StaysAwake k.sched sched) :
    Awake leaving { k with sched := sched } :=
  awake.keep rfl (fun _ active => ⟨active, rfl, rfl, id⟩) states

theorem Awake.go (awake : Awake leaving k) (t : Nat) (place : Place) (same : place.record = (k.place t).record)
    (late : place.isBlocking = true → ∀ w slot, place.record = some (w, slot) → (k.waiters w).granted = false)
    (kept : leaving ≠ some t) (places : k'.place = Function.update k.place t place) (waiters : k'.waiters = k.waiters)
    (states : StaysAwake k.sched k'.sched) : Awake leaving k' := by
  constructor
  · intro w active
    rw [waiters] at active ⊢
    obtain ⟨small, placed⟩ := awake.owned w active
    refine ⟨small, placed.imp_right fun here => ?_⟩
    rw [places]
    by_cases own : (k.waiters w).task = t
    · rw [own, Function.update_self, same, ← own]
      exact here
    · rw [Function.update_of_ne own]
      exact here
  · intro w active granted
    rw [waiters] at active granted ⊢
    obtain ⟨up, calm⟩ := awake.awake w active granted
    refine ⟨states _ up, ?_⟩
    rw [places]
    by_cases own : (k.waiters w).task = t
    · rw [own, Function.update_self]
      by_contra blocking
      rw [Bool.not_eq_false] at blocking
      -- The record that has the lock is the one the task waits with.
      have here := (awake.owned w active).2.resolve_left (by rw [own]; exact kept)
      rw [own, ← same] at here
      rw [late blocking w _ here] at granted
      cases granted
    · rw [Function.update_of_ne own]
      exact calm

theorem Awake.returns (awake : Awake none k) (nothing : (k.place t).record = none) (call : Call) (mon : Option Nat)
    (error : Option Errno) : Awake none (k.returns t call mon error) := by
  refine awake.go t .idle nothing.symm ?_ (by simp) rfl rfl fun _ => id
  intro blocking
  cases blocking

theorem Awake.forget (awake : Awake none k) (place : Place) (here : (k.place t).record = some (w, slot))
    (places : k'.place = Function.update k.place t place) (waiters : k'.waiters = Function.update k.waiters w Waiter.clear)
    (states : StaysAwake k.sched k'.sched) : Awake none k' := by
  have still : ∀ v, (k'.waiters v).active = true → v ≠ w ∧ k'.waiters v = k.waiters v := by
    intro v active
    rw [waiters] at active ⊢
    by_cases own : v = w
    · rw [own, Function.update_self] at active
      cases active
    · exact ⟨own, Function.update_of_ne own _ _⟩
  -- The task waited with no other record.
  have others : ∀ v, (k'.waiters v).active = true → (k.waiters v).task ≠ t := by
    intro v active same
    obtain ⟨different, unchanged⟩ := still v active
    rw [unchanged] at active
    have placed := (awake.owned v active).2.resolve_left (by simp)
    rw [same, here] at placed
    cases placed
    exact different rfl
  constructor
  · intro v active
    obtain ⟨different, unchanged⟩ := still v active
    have other := others v active
    rw [unchanged] at active ⊢
    rw [places, Function.update_of_ne other]
    exact awake.owned v active
  · intro v active granted
    obtain ⟨different, unchanged⟩ := still v active
    have other := others v active
    rw [unchanged] at active granted ⊢
    rw [places, Function.update_of_ne other]
    obtain ⟨up, calm⟩ := awake.awake v active granted
    exact ⟨states _ up, calm⟩

theorem Awake.push (awake : Awake none k) (nothing : (k.place t).record = none) {waiter : Waiter} {place : Place}
    (range : w < kmonMaxWaiters) (ref : waiter.task = t ∧ waiter.mon = slot ∧ waiter.granted = false)
    (there : place.record = some (w, slot)) (places : k'.place = Function.update k.place t place)
    (waiters : k'.waiters = Function.update k.waiters w waiter) (states : StaysAwake k.sched k'.sched) :
    Awake none k' := by
  obtain ⟨task, mon, waiting⟩ := ref
  have others : ∀ v, (k.waiters v).active = true → (k.waiters v).task ≠ t := by
    intro v active same
    have placed := (awake.owned v active).2.resolve_left (by simp)
    rw [same, nothing] at placed
    cases placed
  constructor
  · intro v active
    rw [waiters] at active ⊢
    rw [places]
    by_cases own : v = w
    · subst own
      rw [Function.update_self, task, mon, Function.update_self]
      exact ⟨range, .inr there⟩
    · rw [Function.update_of_ne own] at active ⊢
      rw [Function.update_of_ne (others v active)]
      exact awake.owned v active
  · intro v active granted
    rw [waiters] at active granted ⊢
    rw [places]
    by_cases own : v = w
    · subst own
      rw [Function.update_self, waiting] at granted
      cases granted
    · rw [Function.update_of_ne own] at active granted ⊢
      rw [Function.update_of_ne (others v active)]
      obtain ⟨up, calm⟩ := awake.awake v active granted
      exact ⟨states _ up, calm⟩

theorem Awake.release (awake : Awake leaving k)
    (prompt : ∀ w ∈ (k.pool slot).next, (k.place (k.waiters w).task).isBlocking = false) :
    Awake leaving (release k slot t) := by
  obtain ⟨states, given⟩ := release_awake k slot t
  rcases release_cases k slot t with vacated | ⟨q, w, rest, which, handed⟩
  · refine awake.keep vacated.place ?_ states
    intro v active
    rw [vacated.waiters] at active ⊢
    exact ⟨active, rfl, rfl, id⟩
  · have first : ∃ others, (k.pool slot).queue .urgent ++ (k.pool slot).queue .enter = w :: others := by
      rcases which with rfl | ⟨none, rfl⟩
      · exact ⟨rest ++ (k.pool slot).queue .enter, by rw [handed.first, List.cons_append]⟩
      · exact ⟨rest, by rw [none, handed.first, List.nil_append]⟩
    obtain ⟨others, first⟩ := first
    have unchanged : ∀ v, ((Kmon.release k slot t).waiters v).active = (k.waiters v).active ∧
        ((Kmon.release k slot t).waiters v).task = (k.waiters v).task ∧
        ((Kmon.release k slot t).waiters v).mon = (k.waiters v).mon := by
      intro v
      rw [handed.waiters]
      by_cases own : v = w
      · rw [own, Function.update_self]
        exact ⟨rfl, rfl, rfl⟩
      · rw [Function.update_of_ne own]
        exact ⟨rfl, rfl, rfl⟩
    constructor
    · intro v active
      obtain ⟨used, task, mon⟩ := unchanged v
      rw [used] at active
      rw [task, mon, handed.place]
      exact awake.owned v active
    · intro v active granted
      obtain ⟨used, task, -⟩ := unchanged v
      rw [used] at active
      rw [task, handed.place]
      by_cases own : v = w
      · subst own
        refine ⟨given v others first, prompt v ?_⟩
        rw [Monitor.next, first]
        rfl
      · rw [handed.waiters, Function.update_of_ne own] at granted
        obtain ⟨up, calm⟩ := awake.awake v active granted
        exact ⟨states _ up, calm⟩

theorem Awake.entered (awake : Awake none k) {within : Option Errno} (nothing : (k.place k.sched.current).record = none)
    (entered : Entered k handle within k') : Awake none k' := by
  cases entered with
  | failed other outside => exact awake.returns nothing _ _ _
  | @took slot found unowned =>
    have taken : Awake none ((assignOwner k slot k.sched.current).setInside k.sched.current slot true) :=
      awake.keep rfl (fun _ active => ⟨active, rfl, rfl, id⟩) staysAwake_assign
    exact taken.returns nothing _ _ _
  | @queued slot w place found outside small free which =>
    have there : place.record = some (w, slot) := by
      rcases which with rfl | ⟨rfl, -⟩ <;> rfl
    let joined := pushTail (k.setWaiter w fun _ => ⟨true, .enter, 0, false, k.sched.current, slot⟩) slot .enter w
    have states : StaysAwake joined.sched (lend joined slot) := staysAwake_lend
    exact awake.push nothing small ⟨rfl, rfl, rfl⟩ there rfl rfl states

theorem Awake.polled (awake : Awake none k) {place : Place} (polled : Polled k place) :
    Awake none (k.go k.sched.current place) := by
  cases polled with
  | @seen w slot outcome here granted =>
    exact awake.go k.sched.current (.taking w slot outcome) here.symm (fun blocking => by cases blocking) (by simp) rfl rfl fun _ => id
  | unseen here waiting =>
    refine awake.go k.sched.current _ (by rw [here]; rfl) ?_ (by simp) rfl rfl fun _ => id
    rintro - v s ⟨⟩
    exact waiting
  | signal here waiting =>
    exact awake.go k.sched.current _ (by rw [here]; rfl) (fun blocking => by cases blocking) (by simp) rfl rfl fun _ => id
  | giveUp reason here waiting =>
    exact awake.go k.sched.current _ (by rw [here]; rfl) (fun blocking => by cases blocking) (by simp) rfl rfl fun _ => id

theorem Awake.block (awake : Awake none k) (done : block k = .ok k') : Awake none k' := by
  obtain ⟨w, slot, within, sched, here, blocked, rfl⟩ := block_cases done
  have others : ∀ v, (k.waiters v).active = true → (k.waiters v).granted = true →
      (k.waiters v).task ≠ k.sched.current := by
    intro v active granted same
    have calm := (awake.awake v active granted).2
    rw [same, here] at calm
    cases calm
  constructor
  · intro v active
    obtain ⟨small, placed⟩ := awake.owned v active
    refine ⟨small, placed.imp_right fun there => ?_⟩
    show (Function.update k.place k.sched.current _ (k.waiters v).task).record = _
    by_cases own : (k.waiters v).task = k.sched.current
    · rw [own, Function.update_self]
      rw [own, here] at there
      exact there
    · rw [Function.update_of_ne own]
      exact there
  · intro v active granted
    obtain ⟨up, calm⟩ := awake.awake v active granted
    have other := others v active granted
    refine ⟨(Sched.mild_block blocked _ other).awake up, ?_⟩
    show (Function.update k.place k.sched.current _ (k.waiters v).task).isBlocking = false
    rw [Function.update_of_ne other]
    exact calm

theorem Awake.finished (awake : Awake none k) (kept : Kept none k) (prompt : Prompt k .finish)
    (finished : Finished k k') : Awake none k' := by
  rw [Prompt] at prompt
  cases finished with
  | @took w slot outcome here =>
    have record : (k.place k.sched.current).record = some (w, slot) := by rw [here]; rfl
    exact awake.forget .idle record rfl rfl fun _ => id
  | @interrupted w slot here waiting =>
    have record : (k.place k.sched.current).record = some (w, slot) := by rw [here]; rfl
    obtain ⟨waiters, places, -⟩ := queueRemove_frame k slot (some .enter) w
    let left := waiterFree (queueRemove k slot (some .enter) w) w
    have states : StaysAwake left.sched (lend left slot) := staysAwake_lend
    refine awake.forget .idle record ?_ ?_ states
    · show Function.update (queueRemove k slot (some .enter) w).place k.sched.current .idle = _
      rw [places]
    · show Function.update (queueRemove k slot (some .enter) w).waiters w _ = _
      rw [waiters]
  | @interruptedLate w slot here late =>
    have record : (k.place k.sched.current).record = some (w, slot) := by rw [here]; rfl
    have granted := late (kept.ref _ w slot record).active
    rw [here] at prompt
    rw [prompt] at granted
    cases granted
  | @gaveUp w slot handle reason here waiting =>
    have record : (k.place k.sched.current).record = some (w, slot) := by rw [here]; rfl
    obtain ⟨waiters, places, -⟩ := queueRemove_frame k slot (k.waiters w).queueIn w
    refine awake.forget (.reentering handle reason) record ?_ ?_ ?_
    · show Function.update (queueRemove k slot (k.waiters w).queueIn w).place k.sched.current _ = _
      rw [places]
    · show Function.update (queueRemove k slot (k.waiters w).queueIn w).waiters w _ = _
      rw [waiters]
    · show StaysAwake k.sched (queueRemove k slot (k.waiters w).queueIn w).sched
      rw [queueRemove_sched]
      exact fun _ => id
  | @gaveUpLate w slot handle reason here late =>
    have record : (k.place k.sched.current).record = some (w, slot) := by rw [here]; rfl
    have granted := late (kept.ref _ w slot record).active
    rw [here] at prompt
    rw [prompt] at granted
    cases granted
  | reentered here entered => exact awake.entered (by rw [here]; rfl) entered

theorem Awake.exited (awake : Awake none k) (idle : k.place k.sched.current = .idle) (prompt : Prompt k (.exit handle))
    (exited : Exited k handle k') : Awake none k' := by
  have nothing : (k.place k.sched.current).record = none := by rw [idle]; rfl
  cases exited with
  | failed => exact awake.returns nothing _ _ _
  | @left slot found owner =>
    let out := (k.setInside k.sched.current slot false).setMon slot fun mon => { mon with entryCount := 0 }
    have start : Awake none out := ⟨awake.owned, awake.awake⟩
    have next : (out.pool slot).next = (k.pool slot).next := by
      show Monitor.next ((State.setMon _ slot _).pool slot) = _
      rw [setMon_self]
      rfl
    have released : Awake none (Kmon.release out slot k.sched.current) := by
      refine start.release ?_
      rw [next]
      exact prompt slot found owner
    refine released.returns ?_ _ _ _
    rw [release_place]
    exact nothing

theorem Awake.waitBegun (awake : Awake none k) (idle : k.place k.sched.current = .idle) {cond : Nat} {forever : Bool}
    (prompt : Prompt k (.wait handle cond forever)) (begun : WaitBegun k handle cond forever k') : Awake none k' := by
  have nothing : (k.place k.sched.current).record = none := by rw [idle]; rfl
  cases begun with
  | failed => exact awake.returns nothing _ _ _
  | @begun slot w found owner small range free =>
    have queued : Awake none (waitsFor k handle cond forever slot w) := by
      refine awake.push nothing range ⟨rfl, rfl, rfl⟩ ?_ rfl rfl fun _ => id
      rfl
    refine queued.release ?_
    -- The queue of a condition is not one that the lock comes from.
    have next : ((waitsFor k handle cond forever slot w).pool slot).next = (k.pool slot).next := by
      simp [waitsFor, State.go, State.setInside, Monitor.next, pushTail, State.setWaiter]
    rw [next]
    intro v first
    have calm := prompt slot found owner v first
    show (Function.update k.place k.sched.current _ (Function.update k.waiters w _ v).task).isBlocking = false
    by_cases own : v = w
    · rw [own, Function.update_self, Function.update_self]
      rfl
    · rw [Function.update_of_ne own]
      by_cases same : (k.waiters v).task = k.sched.current
      · rw [same, Function.update_self]
        rfl
      · rw [Function.update_of_ne same]
        exact calm

theorem Awake.signalled (awake : Awake none k) (idle : k.place k.sched.current = .idle) {call : Call} {cond : Nat}
    (signalled : Signalled k call cond k') : Awake none k' := by
  have nothing : (k.place k.sched.current).record = none := by rw [idle]; rfl
  cases signalled with
  | quiet => exact awake.returns nothing _ _ _
  | @moved slot ws rest perm =>
    have joined : Awake none (ws.foldl (enqueue slot) (k.setMon slot fun mon => mon.setQueue (.cond cond) rest)) := by
      rw [foldl_enqueue]
      refine awake.keep rfl ?_ fun _ => id
      intro w active
      dsimp only [Kmon.signalled] at active ⊢
      split at active
      · rename_i joins
        rw [if_pos joins]
        exact ⟨active, rfl, rfl, fun granted => by cases granted⟩
      · rename_i stays
        rw [if_neg stays]
        exact ⟨active, rfl, rfl, id⟩
    have lent : Awake none (refreshOwner (ws.foldl (enqueue slot)
        (k.setMon slot fun mon => mon.setQueue (.cond cond) rest)) slot) := joined.sched staysAwake_lend
    refine lent.returns ?_ _ _ _
    show ((ws.foldl (enqueue slot) _).place _).record = none
    rw [foldl_enqueue_frame]
    exact nothing

theorem Awake.create (awake : Awake none k) (prioCeiling flags : UInt32) : Awake none (create k prioCeiling flags).2 := by
  rcases create_cases k prioCeiling flags with same | ⟨_, _, _, -, -, -, -, -, -, made⟩
  · rw [same]
    exact awake
  · rw [made]
    exact awake.keep rfl (fun _ active => ⟨active, rfl, rfl, id⟩) fun _ => id

theorem Awake.destroy (awake : Awake none k) (handle : UInt32) : Awake none (destroy k handle).2 := by
  rcases destroy_cases k handle with same | ⟨_, -, emptied⟩
  · rw [same]
    exact awake
  · rw [emptied]
    exact awake.keep rfl (fun _ active => ⟨active, rfl, rfl, id⟩) fun _ => id

theorem Awake.begin (awake : Awake none k) (t : Nat) :
    Awake (some t) { k.go t .idle with inside := Function.update k.inside t fun _ => false } := by
  constructor
  · intro w active
    obtain ⟨small, placed⟩ := awake.owned w active
    refine ⟨small, ?_⟩
    by_cases own : (k.waiters w).task = t
    · exact .inl (congrArg some own.symm)
    · right
      show ((k.go t .idle).place (k.waiters w).task).record = _
      rw [go_place_other own]
      exact placed.resolve_left (by simp)
  · intro w active granted
    obtain ⟨up, calm⟩ := awake.awake w active granted
    refine ⟨up, ?_⟩
    show ((k.go t .idle).place (k.waiters w).task).isBlocking = false
    by_cases own : (k.waiters w).task = t
    · rw [own, go_place_self]
      rfl
    · rw [go_place_other own]
      exact calm

theorem staysAwake_cleanupWaiter (w : Nat) : StaysAwake k.sched (cleanupWaiter t k w).sched := by
  rw [cleanupWaiter]
  split
  · have lent := @staysAwake_lend (queueRemove k (k.waiters w).mon (k.waiters w).queueIn w) (k.waiters w).mon
    rw [queueRemove_sched] at lent
    exact lent
  · exact fun _ => id

theorem Awake.cleanupWaiter (awake : Awake leaving k) (t w : Nat) : Awake leaving (cleanupWaiter t k w) := by
  obtain ⟨place, -, -, records⟩ := cleanupWaiter_frame k t w
  refine awake.keep place ?_ (staysAwake_cleanupWaiter w)
  intro v active
  obtain ⟨same, -⟩ := records v active
  rw [same] at active ⊢
  exact ⟨active, rfl, rfl, id⟩

theorem Awake.cleanupWaiters (awake : Awake leaving k) (t : Nat) (ws : List Nat) :
    Awake leaving (ws.foldl (Kmon.cleanupWaiter t) k) := by
  induction ws generalizing k with
  | nil => exact awake
  | cons w ws ih => exact ih (awake.cleanupWaiter t w)

theorem Calm.keep (calm : Calm t k) (places : k'.place = k.place)
    (owners : ∀ s, (k'.pool s).owner = some t → (k.pool s).owner = some t)
    (queued : ∀ s q w, w ∈ (k'.pool s).queue q → w ∈ (k.pool s).queue q ∧ (k'.waiters w).task = (k.waiters w).task) :
    Calm t k' := by
  intro slot small owner w member
  have before : w ∈ (k.pool slot).queue .urgent ++ (k.pool slot).queue .enter ∧
      (k'.waiters w).task = (k.waiters w).task := by
    rcases List.mem_append.mp member with urgent | enter
    · obtain ⟨old, task⟩ := queued slot _ w urgent
      exact ⟨List.mem_append_left _ old, task⟩
    · obtain ⟨old, task⟩ := queued slot _ w enter
      exact ⟨List.mem_append_right _ old, task⟩
  rw [places, before.2]
  exact calm slot small (owners slot owner) w before.1

theorem Calm.begin (calm : Calm t k) :
    Calm t { k.go t .idle with inside := Function.update k.inside t fun _ => false } := by
  intro slot small owner w member
  have before := calm slot small owner w member
  show ((k.go t .idle).place (k.waiters w).task).isBlocking = false
  by_cases own : (k.waiters w).task = t
  · rw [own, go_place_self]
    rfl
  · rw [go_place_other own]
    exact before

theorem Calm.cleanupWaiters (ws : List Nat) :
    ∀ {k : State}, Calm t k → Kept (some t) k → Apart none k → (k.place t).record = none →
      Calm t (ws.foldl (cleanupWaiter t) k) := by
  induction ws with
  | nil => exact fun calm _ _ _ => calm
  | cons w ws ih =>
    intro k calm kept apart nothing
    obtain ⟨kept', apart'⟩ := kept.cleanupWaiter apart nothing w
    obtain ⟨place, -, -, records⟩ := cleanupWaiter_frame k t w
    obtain ⟨-, owners, -⟩ := cleanupWaiter_keeps k t w
    refine ih (calm.keep place (fun s => ?_) fun s q v member => ⟨cleanupWaiter_queue member, ?_⟩) kept' apart' ?_
    · rw [owners]
      exact id
    · -- A record that is still queued is still in use, and so it is not the one that was given back.
      rw [(records v (kept'.queued s q v member).active).1]
    · rw [place]
      exact nothing

theorem Calm.cleanupOwner (calm : Calm t k) (slot : Nat) : Calm t (cleanupOwner t k slot) := by
  rw [Kmon.cleanupOwner]
  split
  · rename_i both
    let out := k.setMon slot fun mon => { mon with entryCount := 0 }
    have queues : ∀ s, (out.pool s).queue = (k.pool s).queue := by
      intro s
      by_cases own : s = slot
      · rw [own]
        show (Function.update k.pool slot _ slot).queue = _
        rw [Function.update_self]
      · show (Function.update k.pool slot _ s).queue = _
        rw [Function.update_of_ne own]
    have start : Calm t out := by
      refine calm.keep rfl (fun s => ?_) fun s q w member => ⟨?_, rfl⟩
      · rw [setMon_owner rfl]
        exact id
      · rw [← queues]
        exact member
    have owner : (out.pool slot).owner = some t := (setMon_owner rfl slot).trans both.2
    refine start.keep release_place (fun s owned => ?_) fun s q w member => ⟨release_queue member, release_task w⟩
    by_cases own : s = slot
    · rw [own]
      exact owner
    · rw [release_elsewhere own] at owned
      exact owned
  · exact calm

theorem Awake.cleanupOwner (awake : Awake leaving k) (calm : Calm t k) (small : slot < kmonMax) :
    Awake leaving (cleanupOwner t k slot) := by
  rw [Kmon.cleanupOwner]
  split
  · rename_i both
    let out := k.setMon slot fun mon => { mon with entryCount := 0 }
    have start : Awake leaving out := awake.keep rfl (fun _ active => ⟨active, rfl, rfl, id⟩) fun _ => id
    have next : (out.pool slot).next = (k.pool slot).next := by
      show Monitor.next ((State.setMon _ slot _).pool slot) = _
      rw [setMon_self]
      rfl
    refine start.release ?_
    rw [next]
    intro w first
    exact calm slot small both.2 w (List.mem_of_mem_head? first)
  · exact awake

theorem Awake.cleanupOwners (slots : List Nat) (small : ∀ slot ∈ slots, slot < kmonMax) (awake : Awake leaving k)
    (calm : Calm t k) : Awake leaving (slots.foldl (Kmon.cleanupOwner t) k) := by
  -- One monitor goes on after the other.
  induction slots generalizing k with
  | nil => exact awake
  | cons slot slots ih =>
    have first := awake.cleanupOwner calm (small slot List.mem_cons_self)
    exact ih (fun s member => small s (List.mem_cons_of_mem _ member)) first (calm.cleanupOwner slot)

theorem Awake.end (awake : Awake (some t) k)
    (others : ∀ w < kmonMaxWaiters, (k.waiters w).active = true → (k.waiters w).task ≠ t) : Awake none k := by
  refine ⟨fun w active => ?_, awake.awake⟩
  obtain ⟨small, placed⟩ := awake.owned w active
  refine ⟨small, .inr (placed.resolve_left ?_)⟩
  intro leaves
  exact others w small active (Option.some.inj leaves).symm

theorem Awake.taskCleanup (awake : Awake none k) (sound : Sound k) (calm : Calm t k) : Awake none (taskCleanup k t) := by
  let begun := { k.go t .idle with inside := Function.update k.inside t fun _ => false }
  have nothing : (begun.place t).record = none := by
    show ((k.go t .idle).place t).record = none
    rw [go_place_self]
    rfl
  have apart : Apart none begun := sound.apart.go fun w slot here => by cases here
  obtain ⟨-, -, -, -, -, waiters⟩ :=
    Kept.cleanupWaiters (List.range kmonMaxWaiters) (sound.kept.begin t) apart nothing
  have left : Awake none ((List.range kmonMaxWaiters).foldl (Kmon.cleanupWaiter t) begun) := by
    refine ((awake.begin t).cleanupWaiters t _).end ?_
    intro w small active
    obtain ⟨same, other⟩ := waiters w active
    rw [same]
    exact other (List.mem_range.mpr small)
  have calm' : Calm t ((List.range kmonMaxWaiters).foldl (Kmon.cleanupWaiter t) begun) :=
    calm.begin.cleanupWaiters _ (sound.kept.begin t) apart nothing
  exact left.cleanupOwners _ (fun slot => List.mem_range.mp) calm'

theorem Awake.turn (awake : Awake none k) {op : Sched.Op} (done : turn k op = .ok k') : Awake none k' := by
  obtain ⟨sched, ran, rfl, stops⟩ := turn_ok done
  refine ⟨awake.owned, fun w active granted => ?_⟩
  obtain ⟨up, calm⟩ := awake.awake w active granted
  refine ⟨Sched.exec_awake ran up ?_, calm⟩
  intro sleeps own
  have idle : k.place k.sched.current = .idle := by
    apply stops
    rcases sleeps with rfl | rfl <;> rfl
  have placed := (awake.owned w active).2.resolve_left (by simp)
  rw [own, idle] at placed
  cases placed

theorem Prompt.settled {op : Op} (prompt : Prompt k op) : Settled k op := by
  cases op with
  | finish =>
    rw [Prompt] at prompt
    rw [Settled]
    split
    · rename_i here
      rw [here] at prompt
      exact prompt
    · trivial
  | _ => trivial

theorem Awake.step {op : Op} (awake : Awake none k) (sound : Sound k) (prompt : Prompt k op)
    (done : exec k op = .ok k') : Awake none k' := by
  have start : Awake none { k with returned := none } := ⟨awake.owned, awake.awake⟩
  have sound' : Sound { k with returned := none } := ⟨{ sound.kept with }, sound.apart⟩
  rw [exec] at done
  cases op with
  | create prioCeiling flags =>
    obtain ⟨-, same⟩ := fromIdle_ok done
    cases same
    exact start.create prioCeiling flags
  | destroy handle =>
    obtain ⟨-, same⟩ := fromIdle_ok done
    cases same
    exact start.destroy handle
  | enter handle =>
    obtain ⟨idle, entered⟩ := fromIdle_ok done
    exact start.entered (by rw [idle]; rfl) (enterCommon_cases entered)
  | exit handle =>
    obtain ⟨idle, same⟩ := fromIdle_ok done
    cases same
    exact start.exited idle prompt (exit_cases _ handle)
  | wait handle cond forever =>
    obtain ⟨idle, same⟩ := fromIdle_ok done
    cases same
    exact start.waitBegun idle prompt (wait_cases _ handle cond forever)
  | signal handle cond =>
    obtain ⟨idle, same⟩ := fromIdle_ok done
    cases same
    exact start.signalled idle (signal_cases _ handle cond)
  | broadcast handle cond =>
    obtain ⟨idle, same⟩ := fromIdle_ok done
    cases same
    exact start.signalled idle (broadcast_cases _ handle cond)
  | poll signal expired =>
    rcases poll_cases done with rfl | ⟨place, polled, rfl⟩
    · exact start
    · exact start.polled polled
  | block => exact start.block done
  | finish => exact start.finished sound'.kept prompt (finish_cases done)
  | cleanup t =>
    rw [← Except.ok.inj done]
    exact start.taskCleanup sound' prompt
  | turn op => exact start.turn done

end

theorem awake_kmonInit : Awake none kmonInit := by
  constructor
  · intro w active
    cases active
  · intro w active
    cases active

/-- In every prompt run, no lock is given to a task that sleeps on. -/
theorem run_no_lost_grant {k : State} (run : Run exec Prompt kmonInit k) : ¬ LostGrant k := by
  have both : Sound k ∧ Awake none k := by
    induction run with
    | start => exact ⟨sound_kmonInit, awake_kmonInit⟩
    | call op _ prompt done ih => exact ⟨(ih.1.step prompt.settled done).1, ih.2.step ih.1 prompt done⟩
  rintro ⟨w, active, granted, -, asleep⟩
  exact (both.2.awake w active granted).1 asleep

/-- A kernel task goes to sleep before the owner of the monitor leaves, and wakes up as its owner. -/
def grantedAsleep : List Op :=
  [.turn (.createTask 64), .turn (.createTask 64), .turn .block, .create 0 1, .enter 1, .turn .yield, .enter 1,
    .poll false false, .block, .exit 1]

/-- The same, but the owner leaves between the test of the other task and its going to sleep. -/
def grantedTooEarly : List Op :=
  [.turn (.createTask 64), .turn (.createTask 64), .turn .block, .create 0 1, .enter 1, .turn .yield, .enter 1,
    .poll false false, .turn (.tick 0 true), .turn .exception, .exit 1, .turn .yield, .block]

theorem grants_seen :
    (runList exec Prompt kmonInit grantedAsleep).any
      (fun k => (k.waiters 0).granted = true ∧ (k.pool 0).owner = some 3) = true ∧
    (runList exec (fun k _ => (k.sched.tcb k.sched.current).isUser = false) kmonInit grantedTooEarly).any
      (fun k => (k.waiters 0).active = true ∧ (k.waiters 0).granted = true ∧
        (k.pool (k.waiters 0).mon).owner = some (k.waiters 0).task ∧
        (k.sched.tcb (k.waiters 0).task).state = .blocked) = true := by
  decide +kernel

theorem run_no_lost_grant_grantedAsleep : ∃ k, Run exec Prompt kmonInit k ∧
    ((k.waiters 0).granted = true ∧ (k.pool 0).owner = some 3) ∧ ¬ LostGrant k := by
  obtain ⟨k, run, seen⟩ := runList_any grants_seen.1
  exact ⟨k, run, of_decide_eq_true seen, run_no_lost_grant run⟩

/-- Even if all tasks are kernel tasks, a lock can be given to a task that then goes to sleep. -/
theorem late_block_loses_grant :
    ¬ ∀ k, Run exec (fun k _ => (k.sched.tcb k.sched.current).isUser = false) kmonInit k → ¬ LostGrant k := by
  intro never
  obtain ⟨k, run, seen⟩ := runList_any grants_seen.2
  exact never k run ⟨0, of_decide_eq_true seen⟩

end Enlil.Kmon
