import Enlil.Kmon.Exclusion

/-! Which runs of well-behaved tasks never reach the panic for entering a monitor twice. -/

namespace Enlil.Kmon

/-- A task enters a monitor only from outside, and makes the other calls only from inside. -/
def Polite (k : State) : Op → Prop
  | .enter handle => ∀ slot ∈ find k handle, k.inside k.sched.current slot = false
  | .exit handle | .wait handle _ _ | .signal handle _ | .broadcast handle _ =>
    ∃ slot ∈ find k handle, k.inside k.sched.current slot = true
  | _ => True

instance (k : State) : (op : Op) → Decidable (Polite k op)
  | .enter handle => inferInstanceAs (Decidable (∀ slot ∈ find k handle, k.inside k.sched.current slot = false))
  | .exit handle | .wait handle _ _ | .signal handle _ | .broadcast handle _ =>
    inferInstanceAs (Decidable (∃ slot ∈ find k handle, k.inside k.sched.current slot = true))
  | .create .. | .destroy _ | .poll .. | .block | .finish | .cleanup _ | .turn _ => .isTrue trivial

/--
Nobody gives up, for a signal or for the time, when the lock has just come.

Neither does the counter of the handles come round to one that a monitor still has.
-/
def Patient (k : State) : Op → Prop
  | .finish =>
    match k.place k.sched.current with
    | .interrupting w _ | .givingUp w _ _ _ => (k.waiters w).granted = false
    | _ => True
  | .create _ _ => ∀ slot < kmonMax, (k.pool slot).active = true → (k.pool slot).handle ≠ k.nextHandle
  | _ => True

instance (k : State) : (op : Op) → Decidable (Patient k op)
  | .finish =>
    match here : k.place k.sched.current with
    | .interrupting w _ | .givingUp w _ _ _ => decidable_of_iff ((k.waiters w).granted = false) (by rw [Patient, here])
    | .idle | .entering .. | .blocking .. | .polling .. | .waiting .. | .reentering .. | .taking .. =>
      .isTrue (by rw [Patient, here]; trivial)
  | .create _ _ => inferInstanceAs (Decidable (∀ slot < kmonMax, _ → _))
  | .destroy _ | .enter _ | .exit _ | .wait .. | .signal .. | .broadcast .. | .poll .. | .block | .cleanup _ | .turn _ =>
    .isTrue trivial

theorem Patient.settled {k : State} {op : Op} (patient : Patient k op) : Settled k op := by
  cases op with
  | finish =>
    rw [Settled]
    rw [Patient] at patient
    split
    · rename_i w slot here
      rw [here] at patient
      exact patient
    · trivial
  | create | destroy | enter | exit | wait | signal | broadcast | poll | block | cleanup | turn => trivial

/-- The handle by which a waiting task will come back to the monitor. -/
def Place.handle : Place → Option UInt32
  | .waiting _ _ handle _ | .givingUp _ _ handle _ | .reentering handle _ => some handle
  | _ => none

/-- The owner of a monitor knows it, or is about to see it, unless it is about to end. -/
def Known (leaving : Option Nat) (k : State) (slot : Nat) : Prop :=
  ∀ t, (k.pool slot).owner = some t → leaving = some t ∨ k.inside t slot = true ∨
    ∃ w, (k.place t).record = some (w, slot) ∧ (k.waiters w).granted = true

/-- The monitors keep their names. -/
def SameNames (k k' : State) : Prop :=
  ∀ slot, (k'.pool slot).active = (k.pool slot).active ∧ (k'.pool slot).handle = (k.pool slot).handle

/-- What tasks and monitors know of each other. -/
structure Client (k : State) : Prop where
  known : ∀ slot, Known none k slot
  range : ∀ slot, (k.pool slot).active = true → slot < kmonMax
  names : ∀ a b, (k.pool a).active = true → (k.pool b).active = true → (k.pool a).handle = (k.pool b).handle → a = b
  pending : ∀ t handle, (k.place t).handle = some handle → ∀ slot, (k.pool slot).active = true →
    (k.pool slot).handle = handle → k.inside t slot = false

section

variable {k k' : State} {leaving : Option Nat} {slot w t : Nat} {q : Queue} {handle : UInt32}

theorem Known.frame (known : Known leaving k slot) (owner : (k'.pool slot).owner = (k.pool slot).owner)
    (inside : ∀ t, k.inside t slot = true → k'.inside t slot = true)
    (records : ∀ t w, (k.place t).record = some (w, slot) → (k.waiters w).granted = true →
      (k'.place t).record = some (w, slot) ∧ (k'.waiters w).granted = true) : Known leaving k' slot := by
  intro t owned
  rw [owner] at owned
  rcases known t owned with leaves | knows | ⟨w, here, granted⟩
  · exact .inl leaves
  · exact .inr (.inl (inside t knows))
  · exact .inr (.inr ⟨w, records t w here granted⟩)

theorem known_release (kept : Kept none k) (known : ∀ s, s ≠ slot → Known leaving k s) (s : Nat) :
    Known leaving (release k slot t) s := by
  rcases release_cases k slot t with vacated | ⟨q, w, rest, -, handed⟩
  · by_cases own : s = slot
    · subst own
      intro u owned
      rw [vacated.pool, Function.update_self] at owned
      cases owned
    · refine (known s own).frame ?_ ?_ ?_
      · rw [vacated.pool, Function.update_of_ne own]
      · rw [vacated.inside]
        exact fun _ => id
      · rw [vacated.place, vacated.waiters]
        exact fun _ _ here granted => ⟨here, granted⟩
  · by_cases own : s = slot
    · subst own
      intro u owned
      rw [handed.pool, Function.update_self] at owned
      cases owned
      -- The record taken out of the queue tells its task.
      have head := kept.queued s q w (by rw [handed.first]; exact List.mem_cons_self)
      refine .inr (.inr ⟨w, ?_, ?_⟩)
      · rw [handed.place]
        exact head.placed.resolve_left (by simp)
      · rw [handed.waiters, Function.update_self]
    · refine (known s own).frame ?_ ?_ ?_
      · rw [handed.pool, Function.update_of_ne own]
      · rw [handed.inside]
        exact fun _ => id
      · intro u v here granted
        rw [handed.place, handed.waiters]
        refine ⟨here, ?_⟩
        by_cases same : v = w
        · rw [same, Function.update_self]
        · rw [Function.update_of_ne same]
          exact granted

theorem SameNames.trans {k₁ k₂ k₃ : State} (first : SameNames k₁ k₂) (second : SameNames k₂ k₃) : SameNames k₁ k₃ :=
  fun slot => ⟨(second slot).1.trans (first slot).1, (second slot).2.trans (first slot).2⟩

theorem sameNames_setMon {f : Monitor → Monitor}
    (same : (f (k.pool slot)).active = (k.pool slot).active ∧ (f (k.pool slot)).handle = (k.pool slot).handle) :
    SameNames k (k.setMon slot f) := by
  intro s
  by_cases own : s = slot
  · rw [own, setMon_self]
    exact same
  · rw [setMon_other own]
    exact ⟨rfl, rfl⟩

theorem sameNames_release : SameNames k (release k slot t) := by
  intro s
  rcases release_cases k slot t with vacated | ⟨q, w, rest, -, handed⟩
  · rw [vacated.pool]
    by_cases own : s = slot
    · rw [own, Function.update_self]
      exact ⟨rfl, rfl⟩
    · rw [Function.update_of_ne own]
      exact ⟨rfl, rfl⟩
  · rw [handed.pool]
    by_cases own : s = slot
    · rw [own, Function.update_self]
      exact ⟨rfl, rfl⟩
    · rw [Function.update_of_ne own]
      exact ⟨rfl, rfl⟩

theorem sameNames_queueRemove {from' : Option Queue} : SameNames k (queueRemove k slot from' w) := by
  unfold queueRemove
  split
  · exact sameNames_setMon ⟨rfl, rfl⟩
  · exact fun _ => ⟨rfl, rfl⟩

theorem Client.keep (client : Client k) (same : SameNames k k') (known : ∀ slot, Known none k' slot)
    (pending : ∀ t handle, (k'.place t).handle = some handle →
      ((k.place t).handle = some handle ∧ ∀ slot, k'.inside t slot = true → k.inside t slot = true) ∨
      ∀ slot, (k.pool slot).active = true → (k.pool slot).handle = handle → k'.inside t slot = false) : Client k' := by
  refine ⟨known, ?_, ?_, ?_⟩
  · intro slot active
    rw [(same slot).1] at active
    exact client.range slot active
  · intro a b first second equal
    rw [(same a).1] at first
    rw [(same b).1] at second
    rw [(same a).2, (same b).2] at equal
    exact client.names a b first second equal
  · intro t handle waits slot active named
    rw [(same slot).1] at active
    rw [(same slot).2] at named
    rcases pending t handle waits with ⟨before, less⟩ | outside
    · by_contra inside
      have outside := client.pending t handle before slot active named
      rw [less slot (by simpa using inside)] at outside
      cases outside
    · exact outside slot active named

theorem pending_go (t : Nat) (place : Place) (places : k'.place = Function.update k.place t place) (nowhere : place.handle = none)
    (inside : ∀ u, u ≠ t → k'.inside u = k.inside u) (u : Nat) (handle : UInt32)
    (waits : (k'.place u).handle = some handle) :
    (k.place u).handle = some handle ∧ ∀ slot, k'.inside u slot = true → k.inside u slot = true := by
  rw [places] at waits
  by_cases own : u = t
  · rw [own, Function.update_self, nowhere] at waits
    cases waits
  · rw [Function.update_of_ne own] at waits
    exact ⟨waits, by rw [inside u own]; exact fun _ => id⟩

theorem records_go {place : Place} (places : k'.place = Function.update k.place t place)
    (own : ∀ w, (k.place t).record = some (w, slot) → (k.waiters w).granted = true →
      place.record = some (w, slot) ∧ (k'.waiters w).granted = true)
    (others : ∀ u w, u ≠ t → (k.place u).record = some (w, slot) → (k.waiters w).granted = true →
      (k'.waiters w).granted = true) (u w : Nat) (here : (k.place u).record = some (w, slot))
    (granted : (k.waiters w).granted = true) :
    (k'.place u).record = some (w, slot) ∧ (k'.waiters w).granted = true := by
  rw [places]
  by_cases same : u = t
  · subst same
    rw [Function.update_self]
    exact own w here granted
  · rw [Function.update_of_ne same]
    exact ⟨here, others u w same here granted⟩

theorem Client.returns (client : Client k) (nothing : (k.place t).record = none) (call : Call) (mon : Option Nat)
    (error : Option Errno) : Client (k.returns t call mon error) := by
  refine client.keep (fun _ => ⟨rfl, rfl⟩) ?_ ?_
  · intro slot
    refine (client.known slot).frame rfl (fun _ => id) (records_go rfl ?_ fun _ _ _ _ => id)
    intro w here
    rw [nothing] at here
    cases here
  · intro u handle waits
    refine .inl (pending_go t .idle ?_ rfl ?_ u handle waits)
    · rfl
    · intro _ _
      rfl

theorem setInside_others {inside : Bool} {u : Nat} (other : u ≠ t) : (k.setInside t slot inside).inside u = k.inside u := by
  simp [State.setInside, other]

theorem setInside_elsewhere {inside : Bool} {s : Nat} (other : s ≠ slot) (u : Nat) :
    (k.setInside t slot inside).inside u s = k.inside u s := by
  by_cases own : u = t
  · subst own
    simp [State.setInside, other]
  · rw [setInside_others own]

theorem Client.entered (client : Client k) (kept : Kept none k) {within : Option Errno}
    (nothing : (k.place k.sched.current).record = none) (entered : Entered k handle within k') : Client k' := by
  have unreferred : ∀ w slot, (k.place k.sched.current).record ≠ some (w, slot) := by
    intro w slot here
    rw [nothing] at here
    cases here
  cases entered with
  | failed other outside => exact client.returns nothing _ _ _
  | @took slot found unowned =>
    have names : SameNames k (k.setMon slot fun mon => { mon with owner := some k.sched.current, entryCount := 1 }) :=
      sameNames_setMon ⟨rfl, rfl⟩
    let taken := k.setMon slot fun mon => { mon with owner := some k.sched.current, entryCount := 1 }
    refine client.keep names ?_ ?_
    · intro s
      by_cases own : s = slot
      · subst own
        intro u owned
        change (taken.pool s).owner = some u at owned
        rw [setMon_self] at owned
        cases owned
        exact .inr (.inl setInside_self)
      · have same : taken.pool s = k.pool s := setMon_other own
        refine (client.known s).frame (congrArg Monitor.owner same) ?_
          (records_go rfl (fun w here => absurd here (unreferred w s)) fun _ _ _ _ => id)
        intro u inside
        exact (setInside_elsewhere own u).trans inside
    · intro u handle waits
      refine .inl (pending_go k.sched.current .idle ?_ rfl ?_ u handle waits)
      · rfl
      · intro v other
        exact setInside_others other
  | @queued slot w place found outside small free which =>
    have names : SameNames k (pushTail k slot .enter w) := sameNames_setMon ⟨rfl, rfl⟩
    refine client.keep names ?_ ?_
    · intro s
      refine (client.known s).frame (pushTail_owner (k.setWaiter w fun _ => _) slot .enter w s) (fun _ => id)
        (records_go rfl (fun v here => absurd here (unreferred v s)) ?_)
      intro u v _ here granted
      have different : v ≠ w := by
        rintro rfl
        exact kept.unreferred free here
      show ((k.setWaiter w fun _ => _).waiters v).granted = true
      rw [setWaiter_other different]
      exact granted
    · intro u handle waits
      refine .inl (pending_go k.sched.current place ?_ ?_ ?_ u handle waits)
      · rfl
      · rcases which with rfl | ⟨rfl, -⟩ <;> rfl
      · intro _ _
        rfl

theorem Client.polled (client : Client k) {place : Place} (polled : Polled k place) :
    Client (k.go k.sched.current place) := by
  have record : place.record = (k.place k.sched.current).record := by
    cases polled with
    | seen outcome here granted => exact here.symm
    | unseen here waiting => rw [here]; rfl
    | signal here waiting => rw [here]; rfl
    | giveUp reason here waiting => rw [here]; rfl
  have handle : ∀ handle, place.handle = some handle → (k.place k.sched.current).handle = some handle := by
    cases polled with
    | seen outcome here granted => exact fun _ none => by cases none
    | unseen here waiting => exact fun _ none => by cases none
    | signal here waiting => exact fun _ none => by cases none
    | giveUp reason here waiting => exact fun _ same => by rw [here]; exact same
  refine client.keep (fun _ => ⟨rfl, rfl⟩) ?_ ?_
  · intro slot
    refine (client.known slot).frame rfl (fun _ => id) (records_go rfl ?_ fun _ _ _ _ => id)
    exact fun w here granted => ⟨record.trans here, granted⟩
  · intro u h waits
    refine .inl ⟨?_, fun _ => id⟩
    by_cases own : u = k.sched.current
    · subst own
      rw [go_place_self] at waits
      exact handle h waits
    · rwa [go_place_other own] at waits

theorem known_leave (place : Place) (kept : Kept none k) (known : ∀ s, Known none k s) (here : (k.place t).record = some (w, slot))
    (waiting : (k.waiters w).granted = false) (places : k'.place = Function.update k.place t place)
    (owners : ∀ s, (k'.pool s).owner = (k.pool s).owner) (inside : k'.inside = k.inside)
    (waiters : k'.waiters = Function.update k.waiters w Waiter.clear) (s : Nat) : Known none k' s := by
  refine (known s).frame (owners s) (by rw [inside]; exact fun _ => id) (records_go places ?_ ?_)
  · intro v there granted
    rw [here] at there
    cases there
    rw [waiting] at granted
    cases granted
  · intro u v other there granted
    have different : v ≠ w := by
      rintro rfl
      exact other ((kept.ref u v s there).task.symm.trans (kept.ref t v slot here).task)
    rw [waiters, Function.update_of_ne different]
    exact granted

theorem Client.finished (client : Client k) (sound : Sound k) (patient : Patient k .finish) (finished : Finished k k') :
    Client k' := by
  rw [Patient] at patient
  cases finished with
  | @took w slot outcome here =>
    have record : (k.place k.sched.current).record = some (w, slot) := by rw [here]; rfl
    have ref := sound.kept.ref _ w slot record
    refine client.keep (fun _ => ⟨rfl, rfl⟩) ?_ ?_
    · intro s
      by_cases own : s = slot
      · subst own
        have fits := sound.kept.fits _ w s record
        rw [here] at fits
        intro u owned
        change (k.pool s).owner = some u at owned
        rw [ref.held fits] at owned
        cases owned
        exact .inr (.inl setInside_self)
      · refine (client.known s).frame rfl ?_ (records_go rfl ?_ ?_)
        · intro u inside
          exact (setInside_elsewhere own u).trans inside
        · intro v there
          rw [record] at there
          cases there
          exact absurd rfl own
        · intro u v other there granted
          have different : v ≠ w := by
            rintro rfl
            exact other ((sound.kept.ref u v s there).task.symm.trans ref.task)
          show ((k.setWaiter w fun _ => Waiter.clear).waiters v).granted = true
          rw [setWaiter_other different]
          exact granted
    · intro u handle waits
      refine .inl (pending_go k.sched.current .idle ?_ rfl ?_ u handle waits)
      · rfl
      · intro v other
        exact setInside_others other
  | @interrupted w slot here waiting =>
    have record : (k.place k.sched.current).record = some (w, slot) := by rw [here]; rfl
    obtain ⟨waiters, places, inside⟩ := queueRemove_frame k slot (some .enter) w
    have places' : Function.update (queueRemove k slot (some .enter) w).place k.sched.current .idle =
        Function.update k.place k.sched.current .idle := by rw [places]
    have cleared : Function.update (queueRemove k slot (some .enter) w).waiters w Waiter.clear =
        Function.update k.waiters w Waiter.clear := by rw [waiters]
    have names : SameNames k (queueRemove k slot (some .enter) w) := sameNames_queueRemove
    refine client.keep names ?_ ?_
    · intro s
      refine known_leave .idle sound.kept client.known record waiting ?_ ?_ ?_ ?_ s
      · exact places'
      · intro s
        show ((queueRemove k slot (some .enter) w).pool s).owner = _
        exact queueRemove_owner s
      · exact inside
      · exact cleared
    · intro u handle waits
      refine .inl (pending_go k.sched.current .idle places' rfl ?_ u handle waits)
      intro v _
      exact congrFun inside v
  | @interruptedLate w slot here late =>
    have record : (k.place k.sched.current).record = some (w, slot) := by rw [here]; rfl
    have granted := late (sound.kept.ref _ w slot record).active
    rw [here] at patient
    rw [patient] at granted
    cases granted
  | @gaveUp w slot handle reason here waiting =>
    have record : (k.place k.sched.current).record = some (w, slot) := by rw [here]; rfl
    obtain ⟨waiters, places, inside⟩ := queueRemove_frame k slot (k.waiters w).queueIn w
    have places' : Function.update (queueRemove k slot (k.waiters w).queueIn w).place k.sched.current
        (.reentering handle reason) = Function.update k.place k.sched.current (.reentering handle reason) := by
      rw [places]
    have cleared : Function.update (queueRemove k slot (k.waiters w).queueIn w).waiters w Waiter.clear =
        Function.update k.waiters w Waiter.clear := by rw [waiters]
    have names : SameNames k (queueRemove k slot (k.waiters w).queueIn w) := sameNames_queueRemove
    refine client.keep names ?_ ?_
    · intro s
      refine known_leave (.reentering handle reason) sound.kept client.known record waiting ?_ ?_ ?_ ?_ s
      · exact places'
      · exact fun s => queueRemove_owner s
      · exact inside
      · exact cleared
    · intro u h waits
      left
      change (Function.update (queueRemove k slot (k.waiters w).queueIn w).place k.sched.current
        (.reentering handle reason) u).handle = some h at waits
      rw [places'] at waits
      refine ⟨?_, ?_⟩
      · by_cases own : u = k.sched.current
        · subst own
          rw [Function.update_self] at waits
          rw [here]
          exact waits
        · rwa [Function.update_of_ne own] at waits
      · intro s
        show (queueRemove k slot (k.waiters w).queueIn w).inside u s = true → _
        rw [inside]
        exact id
  | @gaveUpLate w slot handle reason here late =>
    have record : (k.place k.sched.current).record = some (w, slot) := by rw [here]; rfl
    have granted := late (sound.kept.ref _ w slot record).active
    rw [here] at patient
    rw [patient] at granted
    cases granted
  | reentered here entered => exact client.entered sound.kept (by rw [here]; rfl) entered

theorem Client.exited (client : Client k) (sound : Sound k) (idle : k.place k.sched.current = .idle)
    (exited : Exited k handle k') : Client k' := by
  have nothing : (k.place k.sched.current).record = none := by rw [idle]; rfl
  cases exited with
  | failed => exact client.returns nothing _ _ _
  | @left slot found owner =>
    let out := (k.setInside k.sched.current slot false).setMon slot fun mon => { mon with entryCount := 0 }
    have kept : Kept none out := by
      refine (sound.kept.goesOut _ slot).reshape rfl (fun _ => rfl) ?_
      intro _
      exact sound.kept.used slot (by rw [owner]; simp)
    have names : SameNames k out := sameNames_setMon (k := k.setInside k.sched.current slot false) ⟨rfl, rfl⟩
    have others : ∀ s, s ≠ slot → Known none out s := by
      intro s own
      have same : out.pool s = k.pool s := setMon_other own
      refine (client.known s).frame (congrArg Monitor.owner same) ?_ fun _ _ here granted => ⟨here, granted⟩
      intro u inside
      exact (setInside_elsewhere own u).trans inside
    have after : Client (release out slot k.sched.current) := by
      refine client.keep (names.trans sameNames_release) (known_release kept others) ?_
      intro u handle waits
      left
      rw [release_place] at waits
      refine ⟨waits, fun s inside => ?_⟩
      rw [release_inside] at inside
      exact (setInside_false inside).1
    refine after.returns ?_ _ _ _
    rw [release_place]
    exact nothing

theorem Client.waitBegun (client : Client k) (sound : Sound k) (idle : k.place k.sched.current = .idle)
    {cond : Nat} {forever : Bool} (begun : WaitBegun k handle cond forever k') : Client k' := by
  have nothing : (k.place k.sched.current).record = none := by rw [idle]; rfl
  cases begun with
  | failed other => exact client.returns nothing _ _ _
  | @begun slot w found owner small range free =>
    obtain ⟨kept, -, -⟩ := sound.waitsFor nothing forever found owner small range free
    obtain ⟨-, active, named⟩ := find_some found
    let joined := pushTail (k.setWaiter w fun _ => ⟨true, .cond, cond, false, k.sched.current, slot⟩) slot (.cond cond) w
    have first : SameNames k joined := sameNames_setMon (k := k.setWaiter w fun _ => _) ⟨rfl, rfl⟩
    have names : SameNames k (waitsFor k handle cond forever slot w) :=
      first.trans (sameNames_setMon (k := joined) (f := fun mon => { mon with entryCount := 0 }) ⟨rfl, rfl⟩)
    have others : ∀ s, s ≠ slot → Known none (waitsFor k handle cond forever slot w) s := by
      intro s own
      have same : (joined.setMon slot fun mon => { mon with entryCount := 0 }).pool s = k.pool s := by
        rw [setMon_other own]
        exact setMon_other own
      refine (client.known s).frame (congrArg Monitor.owner same) ?_ (records_go rfl ?_ ?_)
      · intro u inside
        exact (setInside_elsewhere own u).trans inside
      · intro v here
        rw [nothing] at here
        cases here
      · intro u v _ here granted
        have different : v ≠ w := by
          rintro rfl
          exact sound.kept.unreferred free here
        show ((k.setWaiter w fun _ => _).waiters v).granted = true
        rw [setWaiter_other different]
        exact granted
    refine client.keep (names.trans sameNames_release) (known_release kept others) ?_
    intro u h waits
    rw [release_place] at waits
    rw [release_inside]
    by_cases own : u = k.sched.current
    · -- The monitor it waits for is the only one of this name, and it is outside of it now.
      right
      subst own
      intro s inUse same
      change (Function.update k.place k.sched.current (.waiting w slot handle forever) k.sched.current).handle = _ at waits
      rw [Function.update_self] at waits
      cases waits
      rw [client.names s slot inUse active (same.trans named.symm)]
      exact setInside_self
    · left
      change (Function.update k.place k.sched.current (.waiting w slot handle forever) u).handle = _ at waits
      rw [Function.update_of_ne own] at waits
      exact ⟨waits, fun s inside => (setInside_false inside).1⟩

theorem Client.signalled (client : Client k) (sound : Sound k) (idle : k.place k.sched.current = .idle) {call : Call}
    {cond : Nat} (signalled : Signalled k call cond k') : Client k' := by
  have nothing : (k.place k.sched.current).record = none := by rw [idle]; rfl
  cases signalled with
  | quiet => exact client.returns nothing _ _ _
  | @moved slot ws rest permuted =>
    let before := k.setMon slot fun mon => mon.setQueue (.cond cond) rest
    have first : SameNames k before := sameNames_setMon ⟨rfl, rfl⟩
    have names : SameNames k (ws.foldl (enqueue slot) before) := by
      rw [foldl_enqueue]
      exact first.trans (sameNames_setMon (k := before) (f := fun mon => mon.setQueue .enter _) ⟨rfl, rfl⟩)
    have owners : ∀ s, ((ws.foldl (enqueue slot) before).pool s).owner = (k.pool s).owner := by
      intro s
      rw [foldl_enqueue]
      have again : ((before.setMon slot fun mon => mon.setQueue .enter (mon.queue .enter ++ ws)).pool s).owner =
        (before.pool s).owner := setMon_owner rfl s
      exact again.trans (setMon_owner rfl s)
    have after : Client (refreshOwner (ws.foldl (enqueue slot) before) slot) := by
      refine client.keep names ?_ ?_
      · intro s
        refine (client.known s).frame (owners s) ?_ ?_
        · intro u inside
          show (ws.foldl (enqueue slot) before).inside u s = true
          rw [foldl_enqueue]
          exact inside
        · intro u v here granted
          show ((ws.foldl (enqueue slot) before).place u).record = _ ∧
            ((ws.foldl (enqueue slot) before).waiters v).granted = true
          rw [foldl_enqueue]
          refine ⟨here, ?_⟩
          show (signalled ws k.waiters v).granted = true
          -- A record with the lock is in no queue, so it does not move.
          have stays : v ∉ ws := by
            intro member
            have queued : v ∈ (k.pool slot).queue (.cond cond) := permuted.mem_iff.mp (List.mem_append_left _ member)
            exact sound.kept.granted_unqueued granted queued
          rw [Kmon.signalled, if_neg stays]
          exact granted
      · intro u h waits
        left
        change ((ws.foldl (enqueue slot) before).place u).handle = some h at waits
        rw [foldl_enqueue] at waits
        refine ⟨waits, fun s inside => ?_⟩
        change (ws.foldl (enqueue slot) before).inside u s = true at inside
        rw [foldl_enqueue] at inside
        exact inside
    refine after.returns ?_ _ _ _
    show ((ws.foldl (enqueue slot) before).place _).record = none
    rw [foldl_enqueue]
    exact nothing

theorem Client.create (client : Client k) (sound : Sound k) (prioCeiling flags : UInt32)
    (patient : Patient k (.create prioCeiling flags)) : Client (create k prioCeiling flags).2 := by
  rcases create_cases k prioCeiling flags with
    same | ⟨slot, mon, nextHandle, small, free, active, named, owner, queue, made⟩
  · rw [same]
    exact client
  · rw [made]
    have here : (k.setMon slot fun _ => mon).pool slot = mon := setMon_self
    have there : ∀ s, s ≠ slot → (k.setMon slot fun _ => mon).pool s = k.pool s := fun s => setMon_other
    have fresh : ∀ s, (k.pool s).active = true → (k.pool s).handle ≠ mon.handle := by
      intro s inUse
      rw [named]
      exact patient s (client.range s inUse) inUse
    refine ⟨?_, ?_, ?_, ?_⟩
    · intro s
      by_cases own : s = slot
      · subst own
        intro u owned
        change ((k.setMon s fun _ => mon).pool s).owner = some u at owned
        rw [here, owner] at owned
        cases owned
      · exact (client.known s).frame (congrArg Monitor.owner (there s own)) (fun _ => id)
          fun _ _ here granted => ⟨here, granted⟩
    · intro s inUse
      by_cases own : s = slot
      · rw [own]
        exact small
      · change ((k.setMon slot fun _ => mon).pool s).active = true at inUse
        rw [there s own] at inUse
        exact client.range s inUse
    · intro a b first second equal
      change ((k.setMon slot fun _ => mon).pool a).active = true at first
      change ((k.setMon slot fun _ => mon).pool b).active = true at second
      change ((k.setMon slot fun _ => mon).pool a).handle = ((k.setMon slot fun _ => mon).pool b).handle at equal
      by_cases ownA : a = slot
      · by_cases ownB : b = slot
        · rw [ownA, ownB]
        · rw [ownA, here, there b ownB] at equal
          rw [there b ownB] at second
          exact absurd equal.symm (fresh b second)
      · rw [there a ownA] at first equal
        by_cases ownB : b = slot
        · rw [ownB, here] at equal
          exact absurd equal (fresh a first)
        · rw [there b ownB] at second equal
          exact client.names a b first second equal
    · intro u handle waits s inUse same
      by_cases own : s = slot
      · subst own
        -- Nobody can be inside a monitor that was not there before.
        by_contra inside
        rw [Bool.not_eq_false] at inside
        have owned := sound.kept.inside u s inside
        rw [(sound.kept.unused free).1] at owned
        cases owned
      · change ((k.setMon slot fun _ => mon).pool s).active = true at inUse
        change ((k.setMon slot fun _ => mon).pool s).handle = handle at same
        rw [there s own] at inUse same
        exact client.pending u handle waits s inUse same

theorem Client.destroy (client : Client k) (handle : UInt32) : Client (destroy k handle).2 := by
  rcases destroy_cases k handle with same | ⟨slot, unused, emptied⟩
  · rw [same]
    exact client
  · rw [emptied]
    have here : (k.setMon slot fun _ => Monitor.clear).pool slot = Monitor.clear := setMon_self
    have there : ∀ s, s ≠ slot → (k.setMon slot fun _ => Monitor.clear).pool s = k.pool s := fun s => setMon_other
    have still : ∀ s, ((k.setMon slot fun _ => Monitor.clear).pool s).active = true → s ≠ slot := by
      rintro s active rfl
      rw [here] at active
      cases active
    refine ⟨?_, ?_, ?_, ?_⟩
    · intro s
      by_cases own : s = slot
      · subst own
        intro u owned
        rw [here] at owned
        cases owned
      · exact (client.known s).frame (congrArg Monitor.owner (there s own)) (fun _ => id)
          fun _ _ here granted => ⟨here, granted⟩
    · intro s inUse
      have apart := still s inUse
      rw [there s apart] at inUse
      exact client.range s inUse
    · intro a b first second equal
      have apartA := still a first
      have apartB := still b second
      rw [there a apartA] at first equal
      rw [there b apartB] at second equal
      exact client.names a b first second equal
    · intro u h waits s inUse same
      have apart := still s inUse
      rw [there s apart] at inUse same
      exact client.pending u h waits s inUse same

theorem cleanupWaiter_keeps (k : State) (t w : Nat) : SameNames k (cleanupWaiter t k w) ∧
    (∀ s, ((cleanupWaiter t k w).pool s).owner = (k.pool s).owner) ∧
    ∀ v, (k.waiters v).task ≠ t → (cleanupWaiter t k w).waiters v = k.waiters v := by
  rw [cleanupWaiter]
  split
  · rename_i both
    rw [Bool.and_eq_true, decide_eq_true_eq] at both
    obtain ⟨waiters, -, -⟩ := queueRemove_frame k (k.waiters w).mon (k.waiters w).queueIn w
    have names : SameNames k (queueRemove k (k.waiters w).mon (k.waiters w).queueIn w) := sameNames_queueRemove
    refine ⟨names, fun s => queueRemove_owner s, fun v other => ?_⟩
    have different : v ≠ w := by
      rintro rfl
      exact other both.2
    show Function.update (queueRemove k _ _ w).waiters w _ v = _
    rw [Function.update_of_ne different, waiters]
  · exact ⟨fun _ => ⟨rfl, rfl⟩, fun _ => rfl, fun _ _ => rfl⟩

theorem known_cleanupWaiters (ws : List Nat) :
    ∀ {k : State}, (∀ s, Known (some t) k s) → (∀ u w s, (k.place u).record = some (w, s) → (k.waiters w).task ≠ t) →
      (∀ s, Known (some t) (ws.foldl (cleanupWaiter t) k) s) ∧ SameNames k (ws.foldl (cleanupWaiter t) k) := by
  induction ws with
  | nil => exact fun known _ => ⟨known, fun _ => ⟨rfl, rfl⟩⟩
  | cons w ws ih =>
    intro k known others
    obtain ⟨place, inside, -, -⟩ := cleanupWaiter_frame k t w
    obtain ⟨names, owners, waiters⟩ := cleanupWaiter_keeps k t w
    have known' : ∀ s, Known (some t) (cleanupWaiter t k w) s := by
      intro s
      refine (known s).frame (owners s) (by rw [inside]; exact fun _ => id) ?_
      intro u v here granted
      rw [place, waiters v (others u v s here)]
      exact ⟨here, granted⟩
    have others' : ∀ u v s, ((cleanupWaiter t k w).place u).record = some (v, s) →
        ((cleanupWaiter t k w).waiters v).task ≠ t := by
      intro u v s here
      rw [place] at here
      rw [waiters v (others u v s here)]
      exact others u v s here
    obtain ⟨known'', names'⟩ := ih known' others'
    rw [List.foldl_cons]
    exact ⟨known'', names.trans names'⟩

theorem release_elsewhere {s : Nat} (other : s ≠ slot) : (release k slot t).pool s = k.pool s := by
  rcases release_cases k slot t with vacated | ⟨q, w, rest, -, handed⟩
  · rw [vacated.pool, Function.update_of_ne other]
  · rw [handed.pool, Function.update_of_ne other]

theorem release_owner {u : Nat} (kept : Kept none k) (nothing : (k.place t).record = none) :
    ((release k slot u).pool slot).owner ≠ some t := by
  intro owned
  rcases release_cases k slot u with vacated | ⟨q, w, rest, -, handed⟩
  · rw [vacated.pool, Function.update_self] at owned
    cases owned
  · rw [handed.pool, Function.update_self] at owned
    have same : (k.waiters w).task = t := Option.some.inj owned
    have head := kept.queued slot q w (by rw [handed.first]; exact List.mem_cons_self)
    have placed := head.placed.resolve_left (by simp)
    rw [same, nothing] at placed
    cases placed

theorem known_cleanupOwner (sound : Sound k) (nothing : (k.place t).record = none) (known : ∀ s, Known (some t) k s) :
    (∀ s, Known (some t) (cleanupOwner t k slot) s) ∧ SameNames k (cleanupOwner t k slot) ∧
      ∀ s, ((cleanupOwner t k slot).pool s).owner = some t → (k.pool s).owner = some t ∧ s ≠ slot := by
  rw [cleanupOwner]
  split
  · rename_i both
    obtain ⟨active, -⟩ := both
    let out := k.setMon slot fun mon => { mon with entryCount := 0 }
    have kept : Kept none out := sound.kept.reshape rfl (fun _ => rfl) fun _ => active
    have names : SameNames k out := sameNames_setMon ⟨rfl, rfl⟩
    have known' : ∀ s, s ≠ slot → Known (some t) out s := by
      intro s own
      have same : out.pool s = k.pool s := setMon_other own
      exact (known s).frame (congrArg Monitor.owner same) (fun _ => id) fun _ _ here granted => ⟨here, granted⟩
    refine ⟨known_release kept known', names.trans sameNames_release, fun s owned => ?_⟩
    by_cases own : s = slot
    · rw [own] at owned
      exact absurd owned (release_owner kept nothing)
    · rw [release_elsewhere own, setMon_other own] at owned
      exact ⟨owned, own⟩
  · rename_i other
    refine ⟨known, fun _ => ⟨rfl, rfl⟩, fun s owned => ⟨owned, ?_⟩⟩
    rintro rfl
    exact other ⟨sound.kept.used s (by rw [owned]; simp), owned⟩

theorem known_cleanupOwners (slots : List Nat) :
    ∀ {k : State}, Sound k → (k.place t).record = none → (∀ s, k.inside t s = false) → (∀ s, Known (some t) k s) →
      (∀ s, Known (some t) (slots.foldl (cleanupOwner t) k) s) ∧ SameNames k (slots.foldl (cleanupOwner t) k) ∧
      (∀ s, ((slots.foldl (cleanupOwner t) k).pool s).owner = some t → (k.pool s).owner = some t ∧ s ∉ slots) ∧
      (slots.foldl (cleanupOwner t) k).place = k.place ∧ (slots.foldl (cleanupOwner t) k).inside = k.inside := by
  induction slots with
  | nil => exact fun _ _ _ known => ⟨known, fun _ => ⟨rfl, rfl⟩, fun s owned => ⟨owned, by simp⟩, rfl, rfl⟩
  | cons slot slots ih =>
    intro k sound nothing outside known
    obtain ⟨place, inside, -⟩ := cleanupOwner_frame k t slot
    obtain ⟨known', names, gone⟩ : _ ∧ SameNames k (cleanupOwner t k slot) ∧ _ := known_cleanupOwner sound nothing known
    obtain ⟨known'', names', gone', place', inside'⟩ := ih (sound.cleanupOwner nothing outside slot)
      (by rw [place]; exact nothing) (by rw [inside]; exact outside) known'
    rw [List.foldl_cons]
    refine ⟨known'', names.trans names', fun s owned => ?_, place'.trans place, inside'.trans inside⟩
    obtain ⟨before, later⟩ := gone' s owned
    obtain ⟨before', now⟩ := gone s before
    exact ⟨before', by simp [now, later]⟩

theorem Client.taskCleanup (client : Client k) (sound : Sound k) (t : Nat) : Client (taskCleanup k t) := by
  let begun := { k.go t .idle with inside := Function.update k.inside t fun _ => false }
  have nothing : (begun.place t).record = none := by
    show ((k.go t .idle).place t).record = none
    rw [go_place_self]
    rfl
  have apart : Apart none begun := sound.apart.go fun w slot here => by cases here
  have before : ∀ u, u ≠ t → begun.place u = k.place u := fun u => go_place_other
  have inside : ∀ u s, begun.inside u s = true → u ≠ t ∧ k.inside u s = true := by
    intro u s known
    change Function.update k.inside t (fun _ => false) u s = true at known
    by_cases own : u = t
    · subst own
      rw [Function.update_self] at known
      cases known
    · rw [Function.update_of_ne own] at known
      exact ⟨own, known⟩
  have known : ∀ s, Known (some t) begun s := by
    intro s u owned
    by_cases own : u = t
    · exact .inl (congrArg some own.symm)
    · right
      rcases client.known s u owned with leaves | knows | ⟨w, here, granted⟩
      · cases leaves
      · left
        show Function.update k.inside t _ u s = true
        rw [Function.update_of_ne own]
        exact knows
      · exact .inr ⟨w, by rw [before u own]; exact here, granted⟩
  have others : ∀ u w s, (begun.place u).record = some (w, s) → (begun.waiters w).task ≠ t := by
    intro u w s here same
    have ref := (sound.kept.begin t).ref u w s here
    rw [← ref.task.symm.trans same] at nothing
    rw [nothing] at here
    cases here
  -- First the records of the task are given back, then its monitors are released.
  obtain ⟨kept, apart', place, inside', -, waiters⟩ :=
    Kept.cleanupWaiters (List.range kmonMaxWaiters) (sound.kept.begin t) apart nothing
  obtain ⟨known', names⟩ := known_cleanupWaiters (List.range kmonMaxWaiters) known others
  have sound' : Sound ((List.range kmonMaxWaiters).foldl (cleanupWaiter t) begun) := by
    refine ⟨kept.end ?_, apart'⟩
    intro w small active
    obtain ⟨same, other⟩ := waiters w active
    rw [same]
    exact other (List.mem_range.mpr small)
  obtain ⟨known'', names', gone, place', inside''⟩ := known_cleanupOwners (List.range kmonMax) sound'
    (by rw [place]; exact nothing) (by rw [inside']; intro s; simp) known'
  have first : SameNames k begun := fun _ => ⟨rfl, rfl⟩
  have whole : Kmon.taskCleanup k t = (List.range kmonMax).foldl (cleanupOwner t)
      ((List.range kmonMaxWaiters).foldl (cleanupWaiter t) begun) := rfl
  rw [whole]
  refine client.keep (first.trans (names.trans names')) ?_ ?_
  · intro s u owned
    rcases known'' s u owned with leaves | rest
    · -- The task that ends owns nothing any more.
      cases leaves
      obtain ⟨before, late⟩ := gone s owned
      have active : (((List.range kmonMaxWaiters).foldl (cleanupWaiter t) begun).pool s).active = true :=
        sound'.kept.used s (by rw [before]; simp)
      rw [(names s).1] at active
      exact absurd (List.mem_range.mpr (client.range s active)) late
    · exact .inr rest
  · intro u handle waits
    left
    rw [place'.trans place] at waits
    have own : u ≠ t := by
      rintro rfl
      change ((k.go u .idle).place u).handle = some handle at waits
      rw [go_place_self] at waits
      cases waits
    rw [before u own] at waits
    refine ⟨waits, fun s knows => ?_⟩
    rw [inside''.trans inside'] at knows
    exact (inside u s knows).2

theorem Client.step {op : Op} (client : Client k) (sound : Sound k) (patient : Patient k op)
    (done : exec k op = .ok k') : Client k' := by
  have start : Sound { k with returned := none } := ⟨{ sound.kept with }, sound.apart⟩
  have client' : Client { k with returned := none } := { client with }
  have patient' : Patient { k with returned := none } op := by
    cases op <;> exact patient
  rw [exec] at done
  cases op with
  | create prioCeiling flags =>
    obtain ⟨-, same⟩ := fromIdle_ok done
    cases same
    exact client'.create start prioCeiling flags patient'
  | destroy handle =>
    obtain ⟨-, same⟩ := fromIdle_ok done
    cases same
    exact client'.destroy handle
  | enter handle =>
    obtain ⟨idle, entered⟩ := fromIdle_ok done
    exact client'.entered start.kept (by rw [idle]; rfl) (enterCommon_cases entered)
  | exit handle =>
    obtain ⟨idle, same⟩ := fromIdle_ok done
    cases same
    exact client'.exited start idle (exit_cases _ handle)
  | wait handle cond forever =>
    obtain ⟨idle, same⟩ := fromIdle_ok done
    cases same
    exact client'.waitBegun start idle (wait_cases _ handle cond forever)
  | signal handle cond =>
    obtain ⟨idle, same⟩ := fromIdle_ok done
    cases same
    exact client'.signalled start idle (signal_cases _ handle cond)
  | broadcast handle cond =>
    obtain ⟨idle, same⟩ := fromIdle_ok done
    cases same
    exact client'.signalled start idle (broadcast_cases _ handle cond)
  | poll signal expired =>
    rcases poll_cases done with rfl | ⟨place, polled, rfl⟩
    · exact client'
    · exact client'.polled polled
  | block =>
    obtain ⟨w, slot, within, sched, here, -, rfl⟩ := block_cases done
    refine client'.keep (fun _ => ⟨rfl, rfl⟩) ?_ ?_
    · intro s
      refine (client'.known s).frame rfl (fun _ => id) (records_go rfl ?_ fun _ _ _ _ => id)
      intro v there granted
      rw [here] at there
      exact ⟨there, granted⟩
    · intro u h waits
      refine .inl (pending_go k.sched.current (.entering w slot within) ?_ rfl ?_ u h waits)
      · rfl
      · intro _ _
        rfl
  | finish => exact client'.finished start patient' (finish_cases done)
  | cleanup t =>
    rw [← Except.ok.inj done]
    exact client'.taskCleanup start t
  | turn op =>
    obtain ⟨sched, -, rfl, -⟩ := turn_ok done
    exact { client' with }

theorem fromIdle_panic {result : Except Halt State} {message : String}
    (panics : fromIdle k result = .error (.panic message)) :
    k.place k.sched.current = .idle ∧ result = .error (.panic message) := by
  rw [fromIdle] at panics
  split at panics
  · rename_i idle
    exact ⟨idle, panics⟩
  · cases panics

theorem Client.enters (client : Client k) (nothing : (k.place k.sched.current).record = none)
    (outside : ∀ slot, find k handle = some slot → k.inside k.sched.current slot = false) {allowInterrupt : Bool}
    {within : Option Errno} (message : String) :
    enterCommon k handle allowInterrupt within ≠ .error (.panic message) := by
  intro panics
  obtain ⟨slot, found, owned⟩ := enterCommon_panic panics
  rcases client.known slot _ owned with leaves | inside | ⟨w, here, -⟩
  · cases leaves
  · rw [outside slot found] at inside
    cases inside
  · rw [nothing] at here
    cases here

theorem Client.no_panic {op : Op} (client : Client k) (polite : Polite k op) (message : String) :
    exec k op ≠ .error (.panic message) := by
  have client' : Client { k with returned := none } := { client with }
  intro panics
  rw [exec] at panics
  cases op with
  | create | destroy | exit | wait | signal | broadcast =>
    obtain ⟨-, impossible⟩ := fromIdle_panic panics
    cases impossible
  | enter handle =>
    obtain ⟨idle, panics'⟩ := fromIdle_panic panics
    exact client'.enters (by rw [idle]; rfl) polite message panics'
  | poll signal expired =>
    rw [perform, poll] at panics
    split at panics <;> cases panics
  | block =>
    rw [perform, block] at panics
    split at panics
    · split at panics <;> cases panics
    · cases panics
  | finish =>
    rw [perform, finish] at panics
    split at panics
    · cases panics
    · cases panics
    · cases panics
    · rename_i handle reason here
      refine client'.enters (by rw [here]; rfl) ?_ message panics
      intro slot found
      obtain ⟨-, active, named⟩ := find_some found
      exact client'.pending _ handle (by rw [here]; rfl) slot active named
    · cases panics
  | cleanup t => cases panics
  | turn op =>
    rw [perform, turn] at panics
    split at panics
    · cases panics
    · split at panics
      · obtain ⟨-, impossible⟩ := fromIdle_panic panics
        cases impossible
      · cases panics

end

theorem client_kmonInit : Client kmonInit := by
  refine ⟨?_, ?_, ?_, ?_⟩
  · intro slot t owned
    cases owned
  · intro slot active
    cases active
  · intro a b active
    cases active
  · intro t handle waits
    cases waits

theorem run_client {k : State} (run : Run exec Patient kmonInit k) : Sound k ∧ Client k := by
  induction run with
  | start => exact ⟨sound_kmonInit, client_kmonInit⟩
  | call op _ patient done ih => exact ⟨(ih.1.step patient.settled done).1, ih.2.step ih.1 patient done⟩

/-- In every run of well-behaved and patient tasks, no step panics. -/
theorem run_no_panic {k : State} (run : Run exec (fun k op => Polite k op ∧ Patient k op) kmonInit k) {op : Op}
    (polite : Polite k op) (message : String) : exec k op ≠ .error (.panic message) :=
  (run_client (run.mono fun _ _ => And.right)).2.no_panic polite message

/-- A task waits for a condition until its time is over, comes back and leaves. -/
def waitedTooLong : List Op :=
  [.turn (.createUser 64), .turn .block, .create 0 1, .enter 1, .wait 1 0 false, .poll false true, .finish, .finish,
    .exit 1]

/-- The condition is signalled and the lock handed over just when the waiting task has found its time to be over. -/
def signalledTooLate : List Op :=
  [.turn (.createUser 64), .turn (.createUser 64), .turn .block, .create 0 1, .enter 1, .wait 1 0 false, .turn .yield,
    .enter 1, .signal 1 0, .turn (.tick 0 true), .turn .exception, .poll false true, .turn (.tick 0 true),
    .turn .exception, .exit 1, .turn .yield, .finish]

def panicked : Except Halt State → Bool
  | .error (.panic _) => true
  | _ => false

theorem waits_seen :
    (runList exec (fun k op => Polite k op ∧ Patient k op) kmonInit waitedTooLong).any
      (fun k => k.returned = some ⟨2, .exit, some 0, none⟩ ∧ Polite k (.enter 1)) = true ∧
    (runList exec Polite kmonInit signalledTooLate).any
      (fun k => Polite k .finish ∧ panicked (exec k .finish) = true) = true := by
  decide +kernel

theorem run_no_panic_waitedTooLong : ∃ k, Run exec (fun k op => Polite k op ∧ Patient k op) kmonInit k ∧
    k.returned = some ⟨2, .exit, some 0, none⟩ ∧ ∀ message, exec k (.enter 1) ≠ .error (.panic message) := by
  obtain ⟨k, run, seen⟩ := runList_any waits_seen.1
  obtain ⟨returned, polite⟩ := of_decide_eq_true seen
  exact ⟨k, run, returned, run_no_panic run polite⟩

/-- Well-behaved tasks can panic the kernel: a wait whose time is over enters a monitor that it already owns. -/
theorem late_signal_panics : ¬ ∀ k, Run exec Polite kmonInit k → ∀ op, Polite k op →
    ∀ message, exec k op ≠ .error (.panic message) := by
  intro never
  obtain ⟨k, run, seen⟩ := runList_any waits_seen.2
  obtain ⟨polite, panics⟩ := of_decide_eq_true seen
  cases happened : exec k .finish with
  | ok k' =>
    rw [happened] at panics
    cases panics
  | error halt =>
    rw [happened] at panics
    cases halt with
    | panic message => exact never k run .finish polite message happened
    | sched halt => cases panics
    | elsewhere => cases panics

end Enlil.Kmon
