import Enlil.Kmon.Ownership

/-! Which runs of the monitor calls keep to the law of ownership. -/

namespace Enlil.Kmon

/-- A task that waits for a lock does not own the monitor, up to one that is just being released. -/
def Apart (except : Option Nat) (k : State) : Prop :=
  ∀ t w slot, (k.place t).record = some (w, slot) → (k.waiters w).granted = false → except ≠ some slot →
    (k.pool slot).owner ≠ some t

/-- A task is in one of the queues of a monitor. -/
def State.Waits (k : State) (t slot : Nat) : Prop := ∃ q, ∃ w ∈ (k.pool slot).queue q, (k.waiters w).task = t

/--
What a return tells about the monitor.

An entry succeeds exactly if its task owns the monitor then, and a task whose entry fails is not queued either.
A wait that ends as it should or in time leaves its task as the owner.
-/
def Return.Lawful (k : State) (r : Return) : Prop :=
  match r.call with
  | .enter =>
    (r.error = none ↔ ∃ slot, r.mon = some slot ∧ (k.pool slot).owner = some r.task) ∧
      (r.error ≠ none → ∀ slot, r.mon = some slot → (k.pool slot).owner ≠ some r.task ∧ ¬ k.Waits r.task slot)
  | .wait =>
    r.error = none ∨ r.error = some .etimedout → ∃ slot, r.mon = some slot ∧ (k.pool slot).owner = some r.task
  | .exit | .signal | .broadcast => True

/-- No entry is given up by a signal when its task has just got the lock. -/
def Settled (k : State) : Op → Prop
  | .finish =>
    match k.place k.sched.current with
    | .interrupting w _ => (k.waiters w).granted = false
    | _ => True
  | _ => True

instance (k : State) : (op : Op) → Decidable (Settled k op)
  | .finish =>
    match here : k.place k.sched.current with
    | .interrupting w _ => decidable_of_iff ((k.waiters w).granted = false) (by rw [Settled, here])
    | .idle | .entering .. | .blocking .. | .polling .. | .waiting .. | .givingUp .. | .reentering .. | .taking .. =>
      .isTrue (by rw [Settled, here]; trivial)
  | .create .. | .destroy _ | .enter _ | .exit _ | .wait .. | .signal .. | .broadcast .. | .poll .. | .block
  | .cleanup _ | .turn _ => .isTrue trivial

/-- The call that has just returned keeps to the law. -/
def Lawful (k : State) : Prop := ∀ r, k.returned = some r → r.Lawful k

/-- What holds between any two steps. -/
structure Sound (k : State) : Prop where
  kept : Kept none k
  apart : Apart none k

section

variable {k k' : State} {leaving except : Option Nat} {slot w t i : Nat} {q : Queue} {handle : UInt32}

theorem Kept.returns (kept : Kept leaving k) (nothing : (k.place t).record = none) (call : Call) (mon : Option Nat)
    (error : Option Errno) : Kept leaving (k.returns t call mon error) := by
  have gone : Kept leaving (k.go t .idle) := by
    refine kept.go ?_ ?_ ?_
    · intro w slot here
      cases here
    · intro w slot here
      rw [nothing] at here
      cases here
    · intro w slot here
      cases here
  exact { gone with }

theorem Apart.go (apart : Apart except k) {place : Place}
    (there : ∀ w slot, place.record = some (w, slot) → (k.place t).record = some (w, slot)) :
    Apart except (k.go t place) := by
  intro u w slot here
  by_cases own : u = t
  · subst own
    rw [go_place_self] at here
    exact apart u w slot (there w slot here)
  · rw [go_place_other own] at here
    exact apart u w slot here

theorem Apart.returns (apart : Apart except k) (call : Call) (mon : Option Nat) (error : Option Errno) :
    Apart except (k.returns t call mon error) := by
  have gone : Apart except (k.go t .idle) := by
    refine apart.go ?_
    intro w slot here
    cases here
  exact gone

theorem Sound.returns (sound : Sound k) (nothing : (k.place t).record = none) (call : Call) (mon : Option Nat)
    (error : Option Errno) : Sound (k.returns t call mon error) :=
  ⟨sound.kept.returns nothing call mon error, sound.apart.returns call mon error⟩

theorem Apart.acquire (apart : Apart except k) (nothing : (k.place t).record = none) {f : Monitor → Monitor}
    (owner : (f (k.pool slot)).owner = some t) : Apart except (k.setMon slot f) := by
  intro u w s here waiting other
  by_cases own : s = slot
  · subst own
    rw [setMon_self, owner]
    intro same
    cases same
    have none : (k.place t).record = some (w, s) := here
    rw [nothing] at none
    cases none
  · rw [setMon_other own]
    exact apart u w s here waiting other

theorem Apart.push (apart : Apart except k) (kept : Kept leaving k) (free : (k.waiters w).active = false)
    {waiter : Waiter} {place : Place} (there : place.record = some (w, slot))
    (owner : except ≠ some slot → (k.pool slot).owner ≠ some t) :
    Apart except ((pushTail (k.setWaiter w fun _ => waiter) slot q w).go t place) := by
  intro u v s placed waiting other
  change ((k.setWaiter w fun _ => waiter).waiters v).granted = false at waiting
  show ((pushTail (k.setWaiter w fun _ => waiter) slot q w).pool s).owner ≠ some u
  rw [pushTail_owner]
  by_cases own : u = t
  · subst own
    rw [go_place_self, there] at placed
    cases placed
    exact owner other
  · rw [go_place_other own] at placed
    have different : v ≠ w := by
      rintro rfl
      exact kept.unreferred free placed
    rw [setWaiter_other different] at waiting
    exact apart u v s placed waiting other

theorem Apart.forget (apart : Apart except k) (owners : ∀ s, (k'.pool s).owner = (k.pool s).owner)
    (waiters : k'.waiters = Function.update k.waiters w Waiter.clear) (gone : ∀ t s, (k'.place t).record ≠ some (w, s))
    (places : ∀ t, k'.place t = k.place t ∨ (k'.place t).record = none) : Apart except k' := by
  intro u v s placed waiting other
  have different : v ≠ w := by
    rintro rfl
    exact gone u s placed
  rw [waiters, Function.update_of_ne different] at waiting
  rw [owners]
  rcases places u with same | none
  · rw [same] at placed
    exact apart u v s placed waiting other
  · rw [none] at placed
    cases placed

theorem Sound.release (kept : Kept none k) (apart : Apart (some slot) k) (released : Released k slot) :
    Sound (release k slot t) := by
  rcases release_cases k slot t with vacated | ⟨q, w, rest, -, handed⟩
  · refine ⟨kept.vacate released vacated, ?_⟩
    intro u v s placed waiting _
    rw [vacated.place] at placed
    rw [vacated.waiters] at waiting
    by_cases own : s = slot
    · subst own
      rw [vacated.pool, Function.update_self]
      intro owned
      cases owned
    · rw [vacated.pool, Function.update_of_ne own]
      exact apart u v s placed waiting fun same => own (Option.some.inj same).symm
  · refine ⟨kept.hand released handed, ?_⟩
    intro u v s placed waiting _
    rw [handed.place] at placed
    have different : v ≠ w := by
      rintro rfl
      rw [handed.waiters, Function.update_self] at waiting
      cases waiting
    rw [handed.waiters, Function.update_of_ne different] at waiting
    by_cases own : s = slot
    · subst own
      rw [handed.pool, Function.update_self]
      intro owned
      have same : (k.waiters w).task = u := Option.some.inj owned
      -- The new owner waits with the record that was taken out of the queue, and with no other.
      have head := kept.queued s q w (by rw [handed.first]; exact List.mem_cons_self)
      rcases head.placed with leaves | here
      · cases leaves
      · rw [same, placed] at here
        cases here
        exact different rfl
    · rw [handed.pool, Function.update_of_ne own]
      exact apart u v s placed waiting fun same => own (Option.some.inj same).symm

theorem Kept.not_waits (kept : Kept none k) (nothing : (k.place t).record = none) : ¬ k.Waits t slot := by
  rintro ⟨q, w, member, task⟩
  rcases (kept.queued slot q w member).placed with leaves | placed
  · cases leaves
  · rw [task, nothing] at placed
    cases placed

theorem lawful_none (none : k.returned = none) : Lawful k := by
  intro r returned
  rw [none] at returned
  cases returned

theorem lawful_wait_error {mon : Option Nat} {error : Errno} (other : error ≠ .etimedout) :
    Lawful (k.returns t .wait mon (some error)) := by
  rintro _ ⟨⟩
  rintro (none | early)
  · cases none
  · cases early
    exact absurd rfl other

theorem lawful_enter_error {mon : Option Nat} {error : Errno}
    (outside : ∀ slot, mon = some slot → (k.pool slot).owner ≠ some t)
    (unqueued : ∀ slot, ¬ k.Waits t slot) : Lawful (k.returns t .enter mon (some error)) := by
  rintro _ ⟨⟩
  refine ⟨⟨fun none => ?_, fun owns => ?_⟩, fun _ slot named => ⟨outside slot named, unqueued slot⟩⟩
  · cases none
  · obtain ⟨slot, named, owner⟩ := owns
    exact absurd owner (outside slot named)

theorem lawful_owner {outcome : Outcome} (owner : (k.pool slot).owner = some t) :
    Lawful (k.returns t outcome.call (some slot) outcome.error) := by
  rintro _ ⟨⟩
  cases outcome with
  | entered => exact ⟨⟨fun _ => ⟨slot, rfl, owner⟩, fun _ => rfl⟩, fun failed => absurd rfl failed⟩
  | waited reason => exact fun _ => ⟨slot, rfl, owner⟩

theorem lawful_error (within : Option Errno) {mon : Option Nat} {error : Errno} (other : error ≠ .etimedout)
    (outside : ∀ slot, mon = some slot → (k.pool slot).owner ≠ some t) (unqueued : ∀ slot, ¬ k.Waits t slot) :
    Lawful (k.returns t (outcomeOf within).call mon (some error)) := by
  cases within with
  | none => exact lawful_enter_error outside unqueued
  | some reason => exact lawful_wait_error other

theorem Sound.entered (sound : Sound k) (fresh : k.returned = none) {within : Option Errno}
    (nothing : (k.place k.sched.current).record = none) (entered : Entered k handle within k') : Sound k' ∧ Lawful k' := by
  cases entered with
  | failed other outside =>
    exact ⟨sound.returns nothing _ _ _, lawful_error within other outside fun slot => sound.kept.not_waits nothing⟩
  | @took slot found unowned =>
    obtain ⟨-, active, -⟩ := find_some found
    let taken := k.setMon slot fun mon => { mon with owner := some k.sched.current, entryCount := 1 }
    have owner : (taken.pool slot).owner = some k.sched.current := by
      show ((k.setMon slot _).pool slot).owner = _
      rw [setMon_self]
    have kept : Kept none taken := sound.kept.acquire unowned active rfl rfl rfl
    have apart : Apart none taken := sound.apart.acquire nothing rfl
    have sound' : Sound ((assignOwner k slot k.sched.current).setInside k.sched.current slot true) :=
      ⟨{ kept.comesIn owner with }, apart⟩
    exact ⟨sound'.returns nothing _ _ _, lawful_owner owner⟩
  | @queued slot w place found outside small free which =>
    obtain ⟨-, active, -⟩ := find_some found
    have there : place.record = some (w, slot) := by
      rcases which with rfl | ⟨rfl, -⟩ <;> rfl
    have fits : place.Fits ⟨true, .enter, 0, false, k.sched.current, slot⟩ := by
      rcases which with rfl | ⟨rfl, -⟩
      · trivial
      · exact fun _ => rfl
    have kept := sound.kept.push nothing free active rfl there fits ⟨small, rfl, rfl, rfl, rfl⟩
    have apart : Apart none ((pushTail (k.setWaiter w fun _ => ⟨true, .enter, 0, false, k.sched.current, slot⟩)
      slot .enter w).go k.sched.current place) := sound.apart.push sound.kept free there fun _ => outside
    exact ⟨⟨{ kept with }, apart⟩, lawful_none fresh⟩

theorem Sound.go (sound : Sound k) {place : Place} (same : place.record = (k.place t).record)
    (fits : ∀ w slot, place.record = some (w, slot) → place.Fits (k.waiters w)) : Sound (k.go t place) := by
  refine ⟨sound.kept.go ?_ ?_ fits, sound.apart.go ?_⟩
  · intro w slot here
    rwa [← same]
  · intro w slot here _
    rwa [same]
  · intro w slot here
    rwa [← same]

theorem Sound.polled (sound : Sound k) {place : Place} (polled : Polled k place) :
    Sound (k.go k.sched.current place) := by
  cases polled with
  | seen outcome here granted => exact sound.go here.symm (by rintro _ _ ⟨⟩; exact granted)
  | unseen here waiting => exact sound.go (by rw [here]; rfl) (by rintro _ _ ⟨⟩; trivial)
  | signal here waiting =>
    have fits := sound.kept.fits _ _ _ (by rw [here]; rfl)
    rw [here] at fits
    exact sound.go (by rw [here]; rfl) (by rintro _ _ ⟨⟩; exact fits)
  | giveUp reason here waiting => exact sound.go (by rw [here]; rfl) (by rintro _ _ ⟨⟩; trivial)

theorem Sound.block (sound : Sound k) (done : block k = .ok k') : Sound k' ∧ k'.returned = k.returned := by
  obtain ⟨w, slot, within, sched, here, -, rfl⟩ := block_cases done
  have moved : Sound { k with sched := sched } := ⟨{ sound.kept with }, sound.apart⟩
  refine ⟨moved.go ?_ ?_, rfl⟩
  · show _ = (k.place k.sched.current).record
    rw [here]
    rfl
  · rintro _ _ ⟨⟩
    trivial

theorem Sound.leave (sound : Sound k) (here : (k.place t).record = some (w, slot)) {place : Place}
    (nothing : place.record = none) : Sound ((waiterFree (queueRemove k slot (k.waiters w).queueIn w) w).go t place) := by
  have ref := sound.kept.ref t w slot here
  obtain ⟨waiters, places, inside⟩ := queueRemove_frame k slot (k.waiters w).queueIn w
  -- Only this task waited with the record.
  have gone : ∀ u s, (Function.update k.place t place u).record ≠ some (w, s) := by
    intro u s there
    by_cases own : u = t
    · subst own
      rw [Function.update_self, nothing] at there
      cases there
    · rw [Function.update_of_ne own] at there
      exact own ((sound.kept.ref u w s there).task.symm.trans ref.task)
  have places' : ∀ u, Function.update k.place t place u = k.place u ∨
      (∃ s, (k.place u).record = some (w, s)) ∧ (Function.update k.place t place u).record = none := by
    intro u
    by_cases own : u = t
    · subst own
      rw [Function.update_self]
      exact .inr ⟨⟨slot, here⟩, nothing⟩
    · exact .inl (Function.update_of_ne own _ _)
  have placed : ((waiterFree (queueRemove k slot (k.waiters w).queueIn w) w).go t place).place =
      Function.update k.place t place := by
    show Function.update (queueRemove k slot (k.waiters w).queueIn w).place t place = _
    rw [places]
  have cleared : ((waiterFree (queueRemove k slot (k.waiters w).queueIn w) w).go t place).waiters =
      Function.update k.waiters w Waiter.clear := by
    show Function.update (queueRemove k slot (k.waiters w).queueIn w).waiters w _ = _
    rw [waiters]
  constructor
  · refine sound.kept.forget (fun s => queueRemove_owner s) (fun s => queueRemove_active s)
      (fun s q => sound.kept.removed ref.mon s q) cleared inside ?_ ?_
    · rw [placed]
      exact gone
    · rw [placed]
      exact places'
  · refine sound.apart.forget (fun s => queueRemove_owner s) cleared ?_ ?_
    · rw [placed]
      exact gone
    · rw [placed]
      exact fun u => (places' u).imp_right And.right

theorem Sound.take (sound : Sound k) (here : (k.place t).record = some (w, slot)) (granted : (k.waiters w).granted = true) :
    Sound (((waiterFree k w).setInside t slot true).go t .idle) ∧ (k.pool slot).owner = some t := by
  have ref := sound.kept.ref t w slot here
  have owner := ref.held granted
  have gone : ∀ u s, (((waiterFree k w).go t .idle).place u).record ≠ some (w, s) := by
    intro u s there
    by_cases own : u = t
    · subst own
      rw [go_place_self] at there
      cases there
    · rw [go_place_other own] at there
      exact own ((sound.kept.ref u w s there).task.symm.trans ref.task)
  have places : ∀ u, ((waiterFree k w).go t .idle).place u = k.place u ∨
      (∃ s, (k.place u).record = some (w, s)) ∧ (((waiterFree k w).go t .idle).place u).record = none := by
    intro u
    by_cases own : u = t
    · subst own
      exact .inr ⟨⟨slot, here⟩, by rw [go_place_self]; rfl⟩
    · exact .inl (go_place_other own)
  have kept : Kept none ((waiterFree k w).go t .idle) := by
    refine sound.kept.forget (fun _ => rfl) (fun _ => rfl) ?_ rfl rfl gone places
    intro s q
    exact (List.erase_of_not_mem (sound.kept.granted_unqueued granted)).symm
  have apart : Apart none ((waiterFree k w).go t .idle) :=
    sound.apart.forget (fun _ => rfl) rfl gone fun u => (places u).imp_right And.right
  exact ⟨⟨{ kept.comesIn owner with }, apart⟩, owner⟩

theorem queueRemove_returned {from' : Option Queue} : (queueRemove k slot from' w).returned = k.returned := by
  unfold queueRemove
  split <;> rfl

theorem Sound.finished (sound : Sound k) (fresh : k.returned = none)
    (settled : ∀ w slot, k.place k.sched.current = .interrupting w slot → (k.waiters w).granted = false)
    (finished : Finished k k') : Sound k' ∧ Lawful k' := by
  cases finished with
  | @took w slot outcome here =>
    have record : (k.place k.sched.current).record = some (w, slot) := by rw [here]; rfl
    have fits := sound.kept.fits _ w slot record
    rw [here] at fits
    obtain ⟨sound', owner⟩ := sound.take record fits
    exact ⟨⟨{ sound'.kept with }, sound'.apart⟩, lawful_owner owner⟩
  | @interrupted w slot here waiting =>
    have record : (k.place k.sched.current).record = some (w, slot) := by rw [here]; rfl
    have fits := sound.kept.fits _ w slot record
    rw [here] at fits
    have queue : (k.waiters w).queueIn = some .enter := fits waiting
    have left : Sound ((waiterFree (queueRemove k slot (k.waiters w).queueIn w) w).go k.sched.current .idle) :=
      sound.leave record rfl
    rw [queue] at left
    refine ⟨⟨{ left.kept with }, left.apart⟩, lawful_enter_error ?_ ?_⟩
    · rintro _ ⟨⟩
      show ((queueRemove k slot (some .enter) w).pool slot).owner ≠ _
      rw [queueRemove_owner]
      exact sound.apart _ w slot record waiting (by simp)
    · intro s
      exact left.kept.not_waits (by rw [go_place_self]; rfl)
  | @interruptedLate w slot here late =>
    have record : (k.place k.sched.current).record = some (w, slot) := by rw [here]; rfl
    have granted := late (sound.kept.ref _ w slot record).active
    rw [settled w slot here] at granted
    cases granted
  | @gaveUp w slot handle reason here waiting =>
    have record : (k.place k.sched.current).record = some (w, slot) := by rw [here]; rfl
    exact ⟨sound.leave record rfl, lawful_none (queueRemove_returned.trans fresh)⟩
  | @gaveUpLate w slot handle reason here late =>
    have record : (k.place k.sched.current).record = some (w, slot) := by rw [here]; rfl
    have granted := late (sound.kept.ref _ w slot record).active
    -- The record stays behind with the lock.
    refine ⟨⟨sound.kept.go ?_ ?_ ?_, sound.apart.go ?_⟩, lawful_none fresh⟩
    · intro v s there
      cases there
    · intro v s there waiting
      rw [record] at there
      cases there
      rw [granted] at waiting
      cases waiting
    · intro v s there
      cases there
    · intro v s there
      cases there
  | reentered here entered => exact sound.entered fresh (by rw [here]; rfl) entered

theorem Kept.unused (kept : Kept leaving k) (free : (k.pool slot).active = false) :
    (k.pool slot).owner = none ∧ ∀ q, (k.pool slot).queue q = [] := by
  constructor
  · by_contra owned
    have used := kept.used slot owned
    rw [free] at used
    cases used
  · intro q
    apply List.eq_nil_iff_forall_not_mem.mpr
    intro w member
    have used := (kept.queued slot q w member).inUse
    rw [free] at used
    cases used

theorem Kept.destroyable (kept : Kept leaving k) (unused : (k.pool slot).unused = true) :
    (k.pool slot).owner = none ∧ ∀ q, (k.pool slot).queue q = [] := by
  rw [Monitor.unused] at unused
  simp only [Bool.and_eq_true, Option.isNone_iff_eq_none, List.isEmpty_iff, List.all_eq_true, List.mem_range] at unused
  obtain ⟨⟨⟨owner, enter⟩, urgent⟩, conds⟩ := unused
  refine ⟨owner, fun q => ?_⟩
  cases q with
  | enter => exact enter
  | urgent => exact urgent
  | cond i =>
    by_cases inside : i < kmonMaxCond
    · exact conds i inside
    · -- No record can name a condition that does not exist.
      apply List.eq_nil_iff_forall_not_mem.mpr
      intro w member
      have queue := (kept.queued slot (.cond i) w member).queue
      rw [Waiter.queueIn] at queue
      split at queue
      · cases queue
      · cases queue
      · split at queue
        · rename_i small
          cases queue
          exact inside small
        · cases queue
      · cases queue

theorem Sound.renew (sound : Sound k) (empty : (k.pool slot).owner = none ∧ ∀ q, (k.pool slot).queue q = [])
    {f : Monitor → Monitor} (owner : (f (k.pool slot)).owner = none) (queue : ∀ q, (f (k.pool slot)).queue q = []) :
    Sound (k.setMon slot f) := by
  have same : (f (k.pool slot)).owner = (k.pool slot).owner := owner.trans empty.1.symm
  refine ⟨sound.kept.reshape same (fun q => (queue q).trans (empty.2 q).symm) ?_, ?_⟩
  · rintro (owned | ⟨q, some⟩)
    · exact absurd empty.1 owned
    · exact absurd (empty.2 q) some
  · intro t w s here waiting other
    rw [setMon_owner same]
    exact sound.apart t w s here waiting other

theorem Sound.create (sound : Sound k) (prioCeiling flags : UInt32) : Sound (create k prioCeiling flags).2 := by
  rcases create_cases k prioCeiling flags with same | ⟨slot, mon, nextHandle, -, free, -, -, owner, queue, made⟩
  · rw [same]
    exact sound
  · have renewed : Sound (k.setMon slot fun _ => mon) :=
      sound.renew (sound.kept.unused free) owner fun q => by rw [queue]
    rw [made]
    exact ⟨{ renewed.kept with }, renewed.apart⟩

theorem Sound.destroy (sound : Sound k) (handle : UInt32) : Sound (destroy k handle).2 := by
  rcases destroy_cases k handle with same | ⟨slot, unused, emptied⟩
  · rw [same]
    exact sound
  · rw [emptied]
    exact sound.renew (f := fun _ => Monitor.clear) (sound.kept.destroyable unused) rfl fun _ => rfl

theorem Kept.releasing (kept : Kept leaving k) (owner : (k.pool slot).owner = some t)
    (elsewhere : ∀ w, (k.place t).record = some (w, slot) → (k.waiters w).granted = false)
    (outside : k.inside t slot = false) : Released k slot := by
  constructor
  · intro u w placed
    by_contra granted
    have same := (kept.ref u w slot placed).held (by simpa using granted)
    rw [owner] at same
    cases same
    rw [elsewhere w placed] at granted
    exact granted rfl
  · intro u
    by_contra inside
    have same := kept.inside u slot (by simpa using inside)
    rw [owner] at same
    cases same
    rw [outside] at inside
    exact inside rfl

theorem Apart.weaken (apart : Apart none k) : Apart except k :=
  fun t w slot here waiting _ => apart t w slot here waiting (by simp)

@[simp] theorem setInside_self {inside : Bool} : (k.setInside t slot inside).inside t slot = inside := by
  simp [State.setInside]

theorem Sound.exited (sound : Sound k) (idle : k.place k.sched.current = .idle) (exited : Exited k handle k') :
    Sound k' := by
  have nothing : (k.place k.sched.current).record = none := by rw [idle]; rfl
  cases exited with
  | failed => exact sound.returns nothing _ _ _
  | @left slot found owner =>
    let out := (k.setInside k.sched.current slot false).setMon slot fun mon => { mon with entryCount := 0 }
    have kept : Kept none out := by
      refine (sound.kept.goesOut _ slot).reshape rfl (fun _ => rfl) ?_
      intro _
      exact sound.kept.used slot (by rw [owner]; simp)
    have same : ∀ s, (out.pool s).owner = (k.pool s).owner := setMon_owner rfl
    have apart : Apart none out := by
      intro u w s here waiting other
      rw [same]
      exact sound.apart u w s here waiting other
    have released : Released out slot := by
      refine kept.releasing ((same slot).trans owner) ?_ setInside_self
      intro w here
      change (k.place k.sched.current).record = _ at here
      rw [nothing] at here
      cases here
    have after : Sound (Kmon.release out slot k.sched.current) := Sound.release kept apart.weaken released
    refine after.returns ?_ _ _ _
    rw [release_place]
    exact nothing

theorem Sound.waitsFor (sound : Sound k) (nothing : (k.place k.sched.current).record = none) {cond : Nat}
    (forever : Bool) (found : find k handle = some slot) (owner : (k.pool slot).owner = some k.sched.current)
    (small : cond < kmonMaxCond) (range : w < kmonMaxWaiters) (free : (k.waiters w).active = false) :
    Kept none (waitsFor k handle cond forever slot w) ∧ Apart (some slot) (waitsFor k handle cond forever slot w) ∧
      Released (waitsFor k handle cond forever slot w) slot := by
  obtain ⟨-, active, -⟩ := find_some found
  let waiter : Waiter := ⟨true, .cond, cond, false, k.sched.current, slot⟩
  let joined := (pushTail (k.setWaiter w fun _ => waiter) slot (.cond cond) w).go k.sched.current
    (.waiting w slot handle forever)
  have queue : waiter.queueIn = some (.cond cond) := by
    simp only [waiter, Waiter.queueIn, if_pos small]
  have kept : Kept none joined :=
    sound.kept.push nothing free active queue rfl trivial ⟨range, rfl, rfl, rfl, rfl⟩
  have apart : Apart (some slot) joined :=
    sound.apart.weaken.push sound.kept free rfl fun other => absurd rfl other
  have before : ∀ s, (joined.pool s).owner = (k.pool s).owner :=
    pushTail_owner (k.setWaiter w fun _ => waiter) slot (.cond cond) w
  have same : ∀ s, ((Kmon.waitsFor k handle cond forever slot w).pool s).owner = (k.pool s).owner := by
    intro s
    have unchanged : ((joined.setMon slot fun mon => { mon with entryCount := 0 }).pool s).owner =
      (joined.pool s).owner := setMon_owner rfl s
    exact unchanged.trans (before s)
  have out : Kept none (joined.setMon slot fun mon => { mon with entryCount := 0 }) := by
    refine kept.reshape rfl (fun _ => rfl) ?_
    intro _
    exact (pushTail_active (k.setWaiter w fun _ => waiter) slot _ w slot).trans active
  have kept' : Kept none (Kmon.waitsFor k handle cond forever slot w) :=
    { out.goesOut k.sched.current slot with }
  refine ⟨kept', ?_, kept'.releasing ((same slot).trans owner) ?_ setInside_self⟩
  · intro u v s here waiting other
    rw [same, ← before]
    exact apart u v s here waiting other
  · intro v here
    change (joined.place k.sched.current).record = _ at here
    rw [go_place_self] at here
    cases here
    show ((k.setWaiter w fun _ => waiter).waiters w).granted = false
    rw [setWaiter_self]

theorem Sound.waitBegun (sound : Sound k) (fresh : k.returned = none) (idle : k.place k.sched.current = .idle)
    {cond : Nat} {forever : Bool} (begun : WaitBegun k handle cond forever k') : Sound k' ∧ Lawful k' := by
  have nothing : (k.place k.sched.current).record = none := by rw [idle]; rfl
  cases begun with
  | failed other => exact ⟨sound.returns nothing _ _ _, lawful_wait_error other⟩
  | begun found owner small range free =>
    obtain ⟨kept, apart, released⟩ := sound.waitsFor nothing forever found owner small range free
    exact ⟨Sound.release kept apart released, lawful_none (release_returned.trans fresh)⟩

theorem Apart.move (apart : Apart except k) {ws : List Nat} (owners : ∀ s, (k'.pool s).owner = (k.pool s).owner)
    (waiting : ∀ w ∈ ws, (k.waiters w).granted = false) (waiters : k'.waiters = signalled ws k.waiters)
    (place : k'.place = k.place) : Apart except k' := by
  intro u v s here ungranted other
  rw [place] at here
  rw [owners]
  refine apart u v s here ?_ other
  by_cases member : v ∈ ws
  · exact waiting v member
  · rwa [waiters, signalled, if_neg member] at ungranted

theorem Sound.move (sound : Sound k) {ws rest : List Nat} (nodup : (ws ++ rest).Nodup)
    (members : ∀ w, w ∈ (k.pool slot).queue (.cond i) ↔ w ∈ ws ∨ w ∈ rest) :
    Sound (ws.foldl (enqueue slot) (k.setMon slot fun mon => mon.setQueue (.cond i) rest)) := by
  rw [foldl_enqueue]
  have shape : Function.update (k.setMon slot fun mon => mon.setQueue (.cond i) rest).pool slot
      (((k.setMon slot fun mon => mon.setQueue (.cond i) rest).pool slot).setQueue .enter
        (((k.setMon slot fun mon => mon.setQueue (.cond i) rest).pool slot).queue .enter ++ ws)) =
      Function.update k.pool slot
        (((k.pool slot).setQueue (.cond i) rest).setQueue .enter ((k.pool slot).queue .enter ++ ws)) := by
    rw [setMon_self, setQueue_other (by simp)]
    simp only [State.setMon, Function.update_idem]
  constructor
  · exact sound.kept.move nodup members rfl shape rfl rfl rfl
  · refine sound.apart.move ?_ ?_ rfl rfl
    · intro s
      refine (congrArg Monitor.owner (congrFun shape s)).trans ?_
      by_cases own : s = slot
      · rw [own, Function.update_self]
        rfl
      · rw [Function.update_of_ne own]
    · intro w member
      exact (sound.kept.queued slot (.cond i) w ((members w).mpr (.inl member))).waiting

theorem lawful_other {call : Call} (other : call ≠ .enter ∧ call ≠ .wait) {mon : Option Nat} {error : Option Errno} :
    Lawful (k.returns t call mon error) := by
  rintro _ ⟨⟩
  cases call with
  | enter => exact absurd rfl other.1
  | wait => exact absurd rfl other.2
  | exit | signal | broadcast => trivial

theorem Sound.signalled (sound : Sound k) (idle : k.place k.sched.current = .idle) {call : Call} {cond : Nat}
    (signalled : Signalled k call cond k') : Sound k' := by
  have nothing : (k.place k.sched.current).record = none := by rw [idle]; rfl
  cases signalled with
  | quiet => exact sound.returns nothing _ _ _
  | @moved slot ws rest permuted =>
    have moved : Sound (ws.foldl (enqueue slot) (k.setMon slot fun mon => mon.setQueue (.cond cond) rest)) := by
      refine sound.move (permuted.nodup_iff.mpr (sound.kept.once slot (.cond cond))) ?_
      intro w
      rw [← permuted.mem_iff, List.mem_append]
    have lent : Sound (refreshOwner (ws.foldl (enqueue slot)
        (k.setMon slot fun mon => mon.setQueue (.cond cond) rest)) slot) :=
      ⟨{ moved.kept with }, moved.apart⟩
    refine lent.returns ?_ _ _ _
    show ((ws.foldl (enqueue slot) _).place _).record = none
    rw [foldl_enqueue_frame]
    exact nothing

theorem Exited.lawful (exited : Exited k handle k') : Lawful k' := by
  cases exited with
  | failed => exact lawful_other (by simp)
  | left => exact lawful_other (by simp)

theorem Signalled.lawful {call : Call} {cond : Nat} (other : call ≠ .enter ∧ call ≠ .wait)
    (signalled : Signalled k call cond k') : Lawful k' := by
  cases signalled with
  | quiet => exact lawful_other other
  | moved => exact lawful_other other

theorem Kept.begin (kept : Kept none k) (t : Nat) :
    Kept (some t) { k.go t .idle with inside := Function.update k.inside t fun _ => false } := by
  have old : ∀ u w slot, ((k.go t .idle).place u).record = some (w, slot) → u ≠ t ∧ k.place u = (k.go t .idle).place u := by
    intro u w slot here
    by_cases own : u = t
    · subst own
      rw [go_place_self] at here
      cases here
    · exact ⟨own, (go_place_other own).symm⟩
  refine ⟨?_, ?_, kept.once, ?_, ?_, kept.used⟩
  · intro u w slot here
    obtain ⟨-, same⟩ := old u w slot here
    exact kept.ref u w slot (by rw [same]; exact here)
  · intro slot q w member
    have queued := kept.queued slot q w member
    refine { queued with placed := ?_ }
    by_cases own : (k.waiters w).task = t
    · exact .inl (congrArg some own.symm)
    · right
      show ((k.go t .idle).place (k.waiters w).task).record = _
      rw [go_place_other own]
      exact queued.placed.resolve_left (by simp)
  · intro u w slot here
    obtain ⟨-, same⟩ := old u w slot here
    have fits := kept.fits u w slot (by rw [same]; exact here)
    rw [same] at fits
    exact fits
  · intro u slot inside
    by_cases own : u = t
    · subst own
      simp at inside
    · dsimp only at inside
      rw [Function.update_of_ne own] at inside
      exact kept.inside u slot inside

theorem Kept.cleanupWaiter (kept : Kept (some t) k) (apart : Apart none k) (nothing : (k.place t).record = none) (w : Nat) :
    Kept (some t) (cleanupWaiter t k w) ∧ Apart none (cleanupWaiter t k w) := by
  rw [Kmon.cleanupWaiter]
  split
  · rename_i both
    rw [Bool.and_eq_true, decide_eq_true_eq] at both
    obtain ⟨-, task⟩ := both
    obtain ⟨waiters, places, inside⟩ := queueRemove_frame k (k.waiters w).mon (k.waiters w).queueIn w
    -- The task no longer refers to its records, and nobody else ever did.
    have gone : ∀ u s, (k.place u).record ≠ some (w, s) := by
      intro u s here
      have same := (kept.ref u w s here).task.symm.trans task
      rw [same, nothing] at here
      cases here
    have cleared : Function.update (queueRemove k (k.waiters w).mon (k.waiters w).queueIn w).waiters w Waiter.clear =
        Function.update k.waiters w Waiter.clear := by
      rw [waiters]
    constructor
    · refine kept.forget (fun s => queueRemove_owner s) (fun s => queueRemove_active s)
        (fun s q => kept.removed rfl s q) cleared inside ?_ ?_
      · intro u s
        show ((queueRemove k _ _ w).place u).record ≠ _
        rw [places]
        exact gone u s
      · intro u
        left
        show (queueRemove k _ _ w).place u = _
        rw [places]
    · refine apart.forget (fun s => queueRemove_owner s) cleared ?_ ?_
      · intro u s
        show ((queueRemove k _ _ w).place u).record ≠ _
        rw [places]
        exact gone u s
      · intro u
        left
        show (queueRemove k _ _ w).place u = _
        rw [places]
  · exact ⟨kept, apart⟩

theorem Kept.cleanupWaiters (ws : List Nat) :
    ∀ {k : State}, Kept (some t) k → Apart none k → (k.place t).record = none →
      Kept (some t) (ws.foldl (Kmon.cleanupWaiter t) k) ∧ Apart none (ws.foldl (Kmon.cleanupWaiter t) k) ∧
      (ws.foldl (Kmon.cleanupWaiter t) k).place = k.place ∧ (ws.foldl (Kmon.cleanupWaiter t) k).inside = k.inside ∧
      (ws.foldl (Kmon.cleanupWaiter t) k).returned = k.returned ∧
      ∀ v, ((ws.foldl (Kmon.cleanupWaiter t) k).waiters v).active = true →
        (ws.foldl (Kmon.cleanupWaiter t) k).waiters v = k.waiters v ∧ (v ∈ ws → (k.waiters v).task ≠ t) := by
  -- One record is given back after the other.
  induction ws with
  | nil => exact fun kept apart _ => ⟨kept, apart, rfl, rfl, rfl, fun v _ => ⟨rfl, by simp⟩⟩
  | cons w ws ih =>
    intro k kept apart nothing
    obtain ⟨place, inside, returned, waiters⟩ := cleanupWaiter_frame k t w
    obtain ⟨kept', apart'⟩ := kept.cleanupWaiter apart nothing w
    obtain ⟨kept'', apart'', place', inside', returned', waiters'⟩ := ih kept' apart' (by rw [place]; exact nothing)
    rw [List.foldl_cons]
    refine ⟨kept'', apart'', place'.trans place, inside'.trans inside, returned'.trans returned, fun v active => ?_⟩
    obtain ⟨same, later⟩ := waiters' v active
    rw [same] at active ⊢
    obtain ⟨same', now⟩ := waiters v active
    rw [same'] at later ⊢
    refine ⟨rfl, fun member => ?_⟩
    rcases List.mem_cons.mp member with first | rest
    · exact now first
    · exact later rest

theorem Sound.cleanupOwner (sound : Sound k) (nothing : (k.place t).record = none) (outside : ∀ s, k.inside t s = false)
    (slot : Nat) : Sound (cleanupOwner t k slot) := by
  rw [Kmon.cleanupOwner]
  split
  · rename_i both
    obtain ⟨active, owner⟩ := both
    let out := k.setMon slot fun mon => { mon with entryCount := 0 }
    have same : ∀ s, (out.pool s).owner = (k.pool s).owner := setMon_owner rfl
    have kept : Kept none out := sound.kept.reshape rfl (fun _ => rfl) fun _ => active
    have apart : Apart none out := by
      intro u w s here waiting other
      rw [same]
      exact sound.apart u w s here waiting other
    refine Sound.release kept apart.weaken (kept.releasing ((same slot).trans owner) ?_ (outside slot))
    intro w here
    change (k.place t).record = _ at here
    rw [nothing] at here
    cases here
  · exact sound

theorem Sound.cleanupOwners (slots : List Nat) :
    ∀ {k : State}, Sound k → (k.place t).record = none → (∀ s, k.inside t s = false) →
      Sound (slots.foldl (Kmon.cleanupOwner t) k) ∧ (slots.foldl (Kmon.cleanupOwner t) k).returned = k.returned := by
  -- One monitor is released after the other.
  induction slots with
  | nil => exact fun sound _ _ => ⟨sound, rfl⟩
  | cons slot slots ih =>
    intro k sound nothing outside
    obtain ⟨place, inside, returned⟩ := cleanupOwner_frame k t slot
    obtain ⟨sound', returned'⟩ := ih (sound.cleanupOwner nothing outside slot) (by rw [place]; exact nothing)
      (by rw [inside]; exact outside)
    rw [List.foldl_cons]
    exact ⟨sound', returned'.trans returned⟩

theorem Kept.end (kept : Kept (some t) k) (others : ∀ w < kmonMaxWaiters, (k.waiters w).active = true → (k.waiters w).task ≠ t) :
    Kept none k := by
  refine { kept with queued := ?_ }
  intro slot q w member
  have queued := kept.queued slot q w member
  refine { queued with placed := .inr ?_ }
  apply queued.placed.resolve_left
  intro leaves
  exact others w queued.small queued.active (Option.some.inj leaves).symm

theorem Sound.taskCleanup (sound : Sound k) (t : Nat) :
    Sound (taskCleanup k t) ∧ (taskCleanup k t).returned = k.returned := by
  let begun := { k.go t .idle with inside := Function.update k.inside t fun _ => false }
  have nothing : (begun.place t).record = none := by
    show ((k.go t .idle).place t).record = none
    rw [go_place_self]
    rfl
  have apart : Apart none begun := sound.apart.go fun w slot here => by cases here
  obtain ⟨kept, apart', place, inside, returned, waiters⟩ :=
    Kept.cleanupWaiters (List.range kmonMaxWaiters) (sound.kept.begin t) apart nothing
  have sound' : Sound ((List.range kmonMaxWaiters).foldl (Kmon.cleanupWaiter t) begun) := by
    refine ⟨kept.end ?_, apart'⟩
    intro w small active
    obtain ⟨same, other⟩ := waiters w active
    rw [same]
    exact other (List.mem_range.mpr small)
  obtain ⟨sound'', returned'⟩ := Sound.cleanupOwners (List.range kmonMax) sound'
    (by rw [place]; exact nothing) (by rw [inside]; intro s; simp)
  exact ⟨sound'', returned'.trans returned⟩

theorem Sound.step {op : Op} (sound : Sound k) (settled : Settled k op) (done : exec k op = .ok k') :
    Sound k' ∧ Lawful k' := by
  have start : Sound { k with returned := none } := ⟨{ sound.kept with }, sound.apart⟩
  rw [exec] at done
  cases op with
  | create prioCeiling flags =>
    obtain ⟨-, same⟩ := fromIdle_ok done
    cases same
    refine ⟨start.create prioCeiling flags, lawful_none ?_⟩
    rcases create_cases { k with returned := none } prioCeiling flags with same | ⟨_, _, _, -, -, -, -, -, -, made⟩
    · rw [same]
    · rw [made]
      rfl
  | destroy handle =>
    obtain ⟨-, same⟩ := fromIdle_ok done
    cases same
    refine ⟨start.destroy handle, lawful_none ?_⟩
    rcases destroy_cases { k with returned := none } handle with same | ⟨_, -, emptied⟩
    · rw [same]
    · rw [emptied]
      rfl
  | enter handle =>
    obtain ⟨idle, entered⟩ := fromIdle_ok done
    exact start.entered rfl (by rw [idle]; rfl) (enterCommon_cases entered)
  | exit handle =>
    obtain ⟨idle, same⟩ := fromIdle_ok done
    cases same
    have exited := exit_cases { k with returned := none } handle
    exact ⟨start.exited idle exited, exited.lawful⟩
  | wait handle cond forever =>
    obtain ⟨idle, same⟩ := fromIdle_ok done
    cases same
    exact start.waitBegun rfl idle (wait_cases _ handle cond forever)
  | signal handle cond =>
    obtain ⟨idle, same⟩ := fromIdle_ok done
    cases same
    have signalled := signal_cases { k with returned := none } handle cond
    exact ⟨start.signalled idle signalled, signalled.lawful (by simp)⟩
  | broadcast handle cond =>
    obtain ⟨idle, same⟩ := fromIdle_ok done
    cases same
    have signalled := broadcast_cases { k with returned := none } handle cond
    exact ⟨start.signalled idle signalled, signalled.lawful (by simp)⟩
  | poll signal expired =>
    rcases poll_cases done with rfl | ⟨place, polled, rfl⟩
    · exact ⟨start, lawful_none rfl⟩
    · exact ⟨start.polled polled, lawful_none rfl⟩
  | block =>
    obtain ⟨sound', returned⟩ := start.block done
    exact ⟨sound', lawful_none returned⟩
  | finish =>
    refine start.finished rfl ?_ (finish_cases done)
    intro w slot here
    have settled' : Settled { k with returned := none } .finish := settled
    rw [Settled, here] at settled'
    exact settled'
  | cleanup t =>
    rw [← Except.ok.inj done]
    obtain ⟨sound', returned⟩ := start.taskCleanup t
    exact ⟨sound', lawful_none returned⟩
  | turn op =>
    obtain ⟨sched, -, rfl, -⟩ := turn_ok done
    exact ⟨⟨{ start.kept with }, start.apart⟩, lawful_none rfl⟩

end

theorem sound_kmonInit : Sound kmonInit := by
  refine ⟨⟨?_, ?_, ?_, ?_, ?_, ?_⟩, ?_⟩
  · intro t w slot here
    cases here
  · intro slot q w member
    cases member
  · intro slot q
    exact List.nodup_nil
  · intro t w slot here
    cases here
  · intro t slot inside
    cases inside
  · intro slot owned
    exact absurd rfl owned
  · intro t w slot here
    cases here

/--
In every settled run, at most one task is inside a monitor and it is the owner, and every return is lawful.

This is about all orders of entries, exits, waits with and without a time limit, signals of conditions, signals to
tasks, and ends of tasks.
-/
theorem run_ownership {k : State} (run : Run exec Settled kmonInit k) :
    (∀ slot t, k.inside t slot = true → (k.pool slot).owner = some t) ∧
      (∀ slot t u, k.inside t slot = true → k.inside u slot = true → t = u) ∧ Lawful k := by
  have both : Sound k ∧ Lawful k := by
    induction run with
    | start => exact ⟨sound_kmonInit, lawful_none rfl⟩
    | call op _ settled done ih => exact ih.1.step settled done
  obtain ⟨sound, lawful⟩ := both
  refine ⟨fun slot t => sound.kept.inside t slot, fun slot t u first second => ?_, lawful⟩
  have same := (sound.kept.inside t slot first).symm.trans (sound.kept.inside u slot second)
  exact Option.some.inj same

/-- A user task waits to enter a monitor and gets it when its owner leaves. -/
def enteredInTurn : List Op :=
  [.turn (.createUser 64), .turn (.createUser 64), .turn .block, .create 0 1, .enter 1, .turn .yield, .enter 1,
    .poll false false, .turn .yield, .exit 1, .turn .yield, .poll false false, .finish]

/-- The same, but a signal comes to the waiting task, and the owner leaves between the test and what follows from it. -/
def interruptedAsOwner : List Op :=
  [.turn (.createUser 64), .turn (.createUser 64), .turn .block, .create 0 1, .enter 1, .turn .yield, .enter 1,
    .poll true false, .turn (.tick 0 true), .turn .exception, .exit 1, .turn .yield, .finish]

theorem entries_seen :
    (runList exec Settled kmonInit enteredInTurn).any
      (fun k => k.returned = some ⟨3, .enter, some 0, none⟩) = true ∧
    (runList exec (fun _ _ => True) kmonInit interruptedAsOwner).any
      (fun k => k.returned = some ⟨3, .enter, some 0, some .eintr⟩ ∧ (k.pool 0).owner = some 3) = true := by
  decide +kernel

theorem run_ownership_enteredInTurn : ∃ k, Run exec Settled kmonInit k ∧
    k.returned = some ⟨3, .enter, some 0, none⟩ ∧ Lawful k := by
  obtain ⟨k, run, seen⟩ := runList_any entries_seen.1
  exact ⟨k, run, of_decide_eq_true seen, (run_ownership run).2.2⟩

/-- An entry that a signal interrupts can fail although its task owns the monitor then. -/
theorem interrupted_entry_owns : ¬ ∀ k, Run exec (fun _ _ => True) kmonInit k → Lawful k := by
  intro always
  obtain ⟨k, run, seen⟩ := runList_any entries_seen.2
  obtain ⟨returned, owner⟩ := of_decide_eq_true seen
  have lawful := always k run _ returned
  exact (lawful.2 (by simp) 0 rfl).1 owner

end Enlil.Kmon
