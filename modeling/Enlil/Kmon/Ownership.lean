import Enlil.Kmon.Sections

/-! The records of the waiting tasks agree with the queues and the owner of each monitor. -/

namespace Enlil.Kmon

/-- What a task has found out about its record: it has the lock, or else it can only be in the queue to enter. -/
def Place.Fits (waiter : Waiter) : Place → Prop
  | .taking .. => waiter.granted = true
  | .polling .. | .interrupting .. => waiter.granted = false → waiter.queueIn = some .enter
  | _ => True

/-- A record that a task waits with: it is in the queue it names, or the task owns the monitor. -/
structure Ref (pool : Nat → Monitor) (waiters : Nat → Waiter) (t w slot : Nat) : Prop where
  small : w < kmonMaxWaiters
  active : (waiters w).active = true
  task : (waiters w).task = t
  mon : (waiters w).mon = slot
  held : (waiters w).granted = true → (pool slot).owner = some t
  waits : (waiters w).granted = false → ∃ q, (waiters w).queueIn = some q ∧ w ∈ (pool slot).queue q

/-- A record in a queue: its task waits with it, unless it is the task that is about to end. -/
structure Queued (leaving : Option Nat) (pool : Nat → Monitor) (waiters : Nat → Waiter) (place : Nat → Place)
    (slot : Nat) (q : Queue) (w : Nat) : Prop where
  inUse : (pool slot).active = true
  small : w < kmonMaxWaiters
  active : (waiters w).active = true
  waiting : (waiters w).granted = false
  mon : (waiters w).mon = slot
  queue : (waiters w).queueIn = some q
  placed : leaving = some (waiters w).task ∨ (place (waiters w).task).record = some (w, slot)

/-- Records, queues and owners agree. -/
structure Kept (leaving : Option Nat) (k : State) : Prop where
  ref : ∀ t w slot, (k.place t).record = some (w, slot) → Ref k.pool k.waiters t w slot
  queued : ∀ slot q w, w ∈ (k.pool slot).queue q → Queued leaving k.pool k.waiters k.place slot q w
  once : ∀ slot q, ((k.pool slot).queue q).Nodup
  fits : ∀ t w slot, (k.place t).record = some (w, slot) → (k.place t).Fits (k.waiters w)
  inside : ∀ t slot, k.inside t slot = true → (k.pool slot).owner = some t
  used : ∀ slot, (k.pool slot).owner ≠ none → (k.pool slot).active = true

section

variable {k k' : State} {leaving : Option Nat} {slot w t i : Nat} {q : Queue}

theorem Place.fits_granted {place : Place} {waiter : Waiter} (granted : waiter.granted = true) : place.Fits waiter := by
  cases place <;> simp [Place.Fits, granted]

theorem Place.Fits.enter {place : Place} {waiter : Waiter} (fits : place.Fits waiter) (waiting : waiter.granted = false) :
    place.Fits { waiter with queueKind := .enter, granted := false } := by
  cases place with
  | taking =>
    rw [Place.Fits, waiting] at fits
    cases fits
  | polling | interrupting => exact fun _ => rfl
  | idle | entering | blocking | waiting | givingUp | reentering => trivial

theorem Kept.unqueued (kept : Kept leaving k) (free : (k.waiters w).active = false) : w ∉ (k.pool slot).queue q := by
  intro member
  have active := (kept.queued slot q w member).active
  rw [free] at active
  cases active

theorem Kept.unreferred (kept : Kept leaving k) (free : (k.waiters w).active = false) :
    (k.place t).record ≠ some (w, slot) := by
  intro here
  have active := (kept.ref t w slot here).active
  rw [free] at active
  cases active

theorem Kept.granted_unqueued (kept : Kept leaving k) (granted : (k.waiters w).granted = true) :
    w ∉ (k.pool slot).queue q := by
  intro member
  have waiting := (kept.queued slot q w member).waiting
  rw [granted] at waiting
  cases waiting

theorem Kept.reshape (kept : Kept leaving k) {f : Monitor → Monitor}
    (owner : (f (k.pool slot)).owner = (k.pool slot).owner)
    (queue : ∀ q, (f (k.pool slot)).queue q = (k.pool slot).queue q)
    (active : (k.pool slot).owner ≠ none ∨ (∃ q, (k.pool slot).queue q ≠ []) → (f (k.pool slot)).active = true) :
    Kept leaving (k.setMon slot f) := by
  -- Owners and queues are as before.
  have owners : ∀ s, ((k.setMon slot f).pool s).owner = (k.pool s).owner := by
    intro s
    by_cases same : s = slot
    · rw [same, setMon_self, owner]
    · rw [setMon_other same]
  have queues : ∀ s q, ((k.setMon slot f).pool s).queue q = (k.pool s).queue q := by
    intro s q
    by_cases same : s = slot
    · rw [same, setMon_self, queue]
    · rw [setMon_other same]
  refine ⟨?_, ?_, ?_, kept.fits, ?_, ?_⟩
  · intro t w s here
    have ref := kept.ref t w s here
    refine { ref with held := ?_, waits := ?_ }
    · rw [owners]
      exact ref.held
    · intro waiting
      obtain ⟨q, named, member⟩ := ref.waits waiting
      exact ⟨q, named, by rwa [queues]⟩
  · intro s q w member
    rw [queues] at member
    have queued := kept.queued s q w member
    refine { queued with inUse := ?_ }
    by_cases same : s = slot
    · subst same
      rw [setMon_self]
      exact active (.inr ⟨q, List.ne_nil_of_mem member⟩)
    · rw [setMon_other same]
      exact queued.inUse
  · intro s q
    rw [queues]
    exact kept.once s q
  · intro t s inside
    rw [owners]
    exact kept.inside t s inside
  · intro s owned
    rw [owners] at owned
    by_cases same : s = slot
    · subst same
      rw [setMon_self]
      exact active (.inl owned)
    · rw [setMon_other same]
      exact kept.used s owned

theorem Kept.go (kept : Kept leaving k) {place : Place}
    (there : ∀ w slot, place.record = some (w, slot) → (k.place t).record = some (w, slot))
    (before : ∀ w slot, (k.place t).record = some (w, slot) → (k.waiters w).granted = false →
      place.record = some (w, slot))
    (fits : ∀ w slot, place.record = some (w, slot) → place.Fits (k.waiters w)) :
    Kept leaving (k.go t place) := by
  have old : ∀ u w slot, ((k.go t place).place u).record = some (w, slot) → (k.place u).record = some (w, slot) := by
    intro u w slot here
    by_cases own : u = t
    · subst own
      rw [go_place_self] at here
      exact there w slot here
    · rwa [go_place_other own] at here
  refine { kept with ref := ?_, queued := ?_, fits := ?_ }
  · intro u w slot here
    exact kept.ref u w slot (old u w slot here)
  · intro slot q w member
    have queued := kept.queued slot q w member
    refine { queued with placed := ?_ }
    rcases queued.placed with leaves | placed
    · exact .inl leaves
    · right
      by_cases own : (k.waiters w).task = t
      · show ((k.go t place).place (k.waiters w).task).record = _
        rw [own, go_place_self]
        rw [own] at placed
        exact before w slot placed queued.waiting
      · show ((k.go t place).place (k.waiters w).task).record = _
        rw [go_place_other own]
        exact placed
  · intro u w slot here
    by_cases own : u = t
    · subst own
      rw [go_place_self] at here ⊢
      exact fits w slot here
    · rw [go_place_other own] at here ⊢
      exact kept.fits u w slot here

theorem Kept.acquire (kept : Kept leaving k) (unowned : (k.pool slot).owner = none)
    (active : (k.pool slot).active = true) {f : Monitor → Monitor} (owner : (f (k.pool slot)).owner = some t)
    (queue : (f (k.pool slot)).queue = (k.pool slot).queue) (same : (f (k.pool slot)).active = (k.pool slot).active) :
    Kept leaving (k.setMon slot f) := by
  have queues : ∀ s q, ((k.setMon slot f).pool s).queue q = (k.pool s).queue q := by
    intro s q
    by_cases same : s = slot
    · rw [same, setMon_self, queue]
    · rw [setMon_other same]
  -- Nobody has been given this lock or is inside the monitor.
  have apart : ∀ s u, (k.pool s).owner = some u → s ≠ slot := by
    rintro s u owned rfl
    rw [unowned] at owned
    cases owned
  refine ⟨?_, ?_, ?_, kept.fits, ?_, ?_⟩
  · intro u w s here
    have ref := kept.ref u w s here
    refine { ref with held := ?_, waits := ?_ }
    · intro granted
      have owned := ref.held granted
      rwa [setMon_other (apart s u owned)]
    · intro waiting
      obtain ⟨q, named, member⟩ := ref.waits waiting
      exact ⟨q, named, by rwa [queues]⟩
  · intro s q w member
    rw [queues] at member
    have queued := kept.queued s q w member
    refine { queued with inUse := ?_ }
    by_cases own : s = slot
    · rw [own, setMon_self, same, active]
    · rw [setMon_other own]
      exact queued.inUse
  · intro s q
    rw [queues]
    exact kept.once s q
  · intro u s inside
    have owned := kept.inside u s inside
    rwa [setMon_other (apart s u owned)]
  · intro s owned
    by_cases own : s = slot
    · rw [own, setMon_self, same, active]
    · rw [setMon_other own] at owned ⊢
      exact kept.used s owned

theorem Kept.comesIn (kept : Kept leaving k) (owner : (k.pool slot).owner = some t) :
    Kept leaving (k.setInside t slot true) := by
  refine { kept with inside := ?_ }
  intro u s inside
  rcases setInside_true inside with ⟨rfl, rfl⟩ | before
  · exact owner
  · exact kept.inside u s before

theorem Kept.goesOut (kept : Kept leaving k) (t slot : Nat) : Kept leaving (k.setInside t slot false) := by
  refine { kept with inside := ?_ }
  intro u s inside
  exact kept.inside u s (setInside_false inside).1

theorem Kept.push (kept : Kept leaving k) (nothing : (k.place t).record = none) (free : (k.waiters w).active = false)
    (inUse : (k.pool slot).active = true) {waiter : Waiter} (queue : waiter.queueIn = some q) {place : Place}
    (there : place.record = some (w, slot)) (fits : place.Fits waiter)
    (ref : w < kmonMaxWaiters ∧ waiter.active = true ∧ waiter.granted = false ∧ waiter.task = t ∧ waiter.mon = slot) :
    Kept leaving ((pushTail (k.setWaiter w fun _ => waiter) slot q w).go t place) := by
  obtain ⟨small, active, waiting, task, mon⟩ := ref
  have owners := pushTail_owner (k.setWaiter w fun _ => waiter) slot q w
  have actives := pushTail_active (k.setWaiter w fun _ => waiter) slot q w
  have queues := pushTail_queue (k.setWaiter w fun _ => waiter) slot q w
  have here : (k.setWaiter w fun _ => waiter).waiters w = waiter := setWaiter_self
  have there' : ∀ v, v ≠ w → (k.setWaiter w fun _ => waiter).waiters v = k.waiters v := fun v apart => setWaiter_other apart
  refine ⟨?_, ?_, ?_, ?_, ?_, ?_⟩
  · intro u v s placed
    show Ref (pushTail (k.setWaiter w fun _ => waiter) slot q w).pool (k.setWaiter w fun _ => waiter).waiters u v s
    by_cases own : u = t
    · subst own
      rw [go_place_self, there] at placed
      cases placed
      refine ⟨small, by rw [here, active], by rw [here, task], by rw [here, mon], ?_, ?_⟩
      · rw [here, waiting]
        intro granted
        cases granted
      · intro _
        refine ⟨q, by rw [here, queue], ?_⟩
        rw [queues]
        simp
    · rw [go_place_other own] at placed
      have apart : v ≠ w := by
        rintro rfl
        exact kept.unreferred free placed
      have ref := kept.ref u v s placed
      refine ⟨ref.small, ?_, ?_, ?_, ?_, ?_⟩
      · rw [there' v apart]
        exact ref.active
      · rw [there' v apart]
        exact ref.task
      · rw [there' v apart]
        exact ref.mon
      · rw [there' v apart]
        intro granted
        exact (owners s).trans (ref.held granted)
      · rw [there' v apart]
        intro still
        obtain ⟨q', named, member⟩ := ref.waits still
        refine ⟨q', named, ?_⟩
        rw [queues]
        split
        · exact List.mem_append_left _ member
        · exact member
  · intro s q' v member
    show Queued leaving (pushTail (k.setWaiter w fun _ => waiter) slot q w).pool (k.setWaiter w fun _ => waiter).waiters
      (k.go t place).place s q' v
    change v ∈ ((pushTail (k.setWaiter w fun _ => waiter) slot q w).pool s).queue q' at member
    rw [queues] at member
    by_cases own : v = w
    · subst own
      split at member
      · rename_i both
        obtain ⟨rfl, rfl⟩ := both
        refine ⟨(actives s).trans inUse, small, by rw [here, active], by rw [here, waiting], by rw [here, mon],
          by rw [here, queue], .inr ?_⟩
        rw [here, task, go_place_self, there]
      · exact absurd member (kept.unqueued free)
    · have before : v ∈ (k.pool s).queue q' := by
        split at member
        · exact (List.mem_append.mp member).resolve_right (by simpa using own)
        · exact member
      have queued := kept.queued s q' v before
      refine ⟨(actives s).trans queued.inUse, queued.small, ?_, ?_, ?_, ?_, ?_⟩ <;> rw [there' v own]
      · exact queued.active
      · exact queued.waiting
      · exact queued.mon
      · exact queued.queue
      · rcases queued.placed with leaves | placed
        · exact .inl leaves
        · right
          have apart : (k.waiters v).task ≠ t := by
            intro same
            rw [same, nothing] at placed
            cases placed
          rw [go_place_other apart]
          exact placed
  · intro s q'
    show (((pushTail (k.setWaiter w fun _ => waiter) slot q w).pool s).queue q').Nodup
    rw [queues]
    split
    · refine List.Nodup.append (kept.once s q') (List.nodup_singleton w) ?_
      intro v old new
      rw [List.mem_singleton.mp new] at old
      exact kept.unqueued free old
    · exact kept.once s q'
  · intro u v s placed
    show ((k.go t place).place u).Fits ((k.setWaiter w fun _ => waiter).waiters v)
    by_cases own : u = t
    · subst own
      rw [go_place_self] at placed ⊢
      rw [there] at placed
      cases placed
      rw [here]
      exact fits
    · rw [go_place_other own] at placed ⊢
      have apart : v ≠ w := by
        rintro rfl
        exact kept.unreferred free placed
      rw [there' v apart]
      exact kept.fits u v s placed
  · intro u s inside
    exact (owners s).trans (kept.inside u s inside)
  · intro s owned
    exact (actives s).trans (kept.used s fun none => owned ((owners s).trans none))

theorem Kept.forget (kept : Kept leaving k) (owners : ∀ s, (k'.pool s).owner = (k.pool s).owner)
    (actives : ∀ s, (k'.pool s).active = (k.pool s).active)
    (queues : ∀ s q, (k'.pool s).queue q = ((k.pool s).queue q).erase w)
    (waiters : k'.waiters = Function.update k.waiters w Waiter.clear) (inside : k'.inside = k.inside)
    (gone : ∀ t s, (k'.place t).record ≠ some (w, s))
    (places : ∀ t, k'.place t = k.place t ∨ (∃ s, (k.place t).record = some (w, s)) ∧ (k'.place t).record = none) :
    Kept leaving k' := by
  have there : ∀ v, v ≠ w → k'.waiters v = k.waiters v := by
    intro v apart
    rw [waiters, Function.update_of_ne apart]
  have same : ∀ u v s, (k'.place u).record = some (v, s) → k'.place u = k.place u ∧ v ≠ w := by
    intro u v s placed
    refine ⟨?_, ?_⟩
    · rcases places u with same | ⟨-, none⟩
      · exact same
      · rw [none] at placed
        cases placed
    · rintro rfl
      exact gone u s placed
  refine ⟨?_, ?_, ?_, ?_, ?_, ?_⟩
  · intro u v s placed
    obtain ⟨before, apart⟩ := same u v s placed
    rw [before] at placed
    have ref := kept.ref u v s placed
    refine ⟨ref.small, ?_, ?_, ?_, ?_, ?_⟩ <;> rw [there v apart]
    · exact ref.active
    · exact ref.task
    · exact ref.mon
    · rw [owners]
      exact ref.held
    · intro waiting
      obtain ⟨q, named, member⟩ := ref.waits waiting
      refine ⟨q, named, ?_⟩
      rw [queues]
      exact (List.mem_erase_of_ne apart).mpr member
  · intro s q v member
    rw [queues] at member
    have apart : v ≠ w := by
      rintro rfl
      exact (kept.once s q).not_mem_erase member
    have queued := kept.queued s q v (List.mem_of_mem_erase member)
    refine ⟨(actives s).trans queued.inUse, queued.small, ?_, ?_, ?_, ?_, ?_⟩ <;> rw [there v apart]
    · exact queued.active
    · exact queued.waiting
    · exact queued.mon
    · exact queued.queue
    · rcases queued.placed with leaves | placed
      · exact .inl leaves
      · right
        rcases places (k.waiters v).task with same | ⟨⟨s', other⟩, -⟩
        · rw [same]
          exact placed
        · rw [placed] at other
          cases other
          exact absurd rfl apart
  · intro s q
    rw [queues]
    exact (kept.once s q).erase w
  · intro u v s placed
    obtain ⟨before, apart⟩ := same u v s placed
    rw [before] at placed ⊢
    rw [there v apart]
    exact kept.fits u v s placed
  · intro u s
    rw [inside, owners]
    exact kept.inside u s
  · intro s
    rw [owners, actives]
    exact kept.used s

/-- The state of a monitor whose owner is about to go: nobody else has its lock, and nobody is inside. -/
structure Released (k : State) (slot : Nat) : Prop where
  ungranted : ∀ u w, (k.place u).record = some (w, slot) → (k.waiters w).granted = false
  outside : ∀ u, k.inside u slot = false

theorem Kept.vacate (kept : Kept leaving k) (released : Released k slot) (vacated : Vacated k slot k') :
    Kept leaving k' := by
  have there : ∀ s, s ≠ slot → k'.pool s = k.pool s := by
    intro s apart
    rw [vacated.pool, Function.update_of_ne apart]
  have here : k'.pool slot = { k.pool slot with owner := none, entryCount := 0 } := by
    rw [vacated.pool, Function.update_self]
  have queues : ∀ s, (k'.pool s).queue = (k.pool s).queue ∧ (k'.pool s).active = (k.pool s).active := by
    intro s
    by_cases own : s = slot
    · rw [own, here]
      exact ⟨rfl, rfl⟩
    · rw [there s own]
      exact ⟨rfl, rfl⟩
  refine ⟨?_, ?_, ?_, ?_, ?_, ?_⟩
  · intro u v s placed
    rw [vacated.place] at placed
    have ref := kept.ref u v s placed
    rw [vacated.waiters]
    refine { ref with held := ?_, waits := ?_ }
    · intro granted
      have apart : s ≠ slot := by
        rintro rfl
        rw [released.ungranted u v placed] at granted
        cases granted
      rw [there s apart]
      exact ref.held granted
    · rw [(queues s).1]
      exact ref.waits
  · intro s q v member
    rw [(queues s).1] at member
    have queued := kept.queued s q v member
    rw [vacated.waiters, vacated.place]
    exact { queued with inUse := (queues s).2.trans queued.inUse }
  · intro s q
    rw [(queues s).1]
    exact kept.once s q
  · rw [vacated.place, vacated.waiters]
    exact kept.fits
  · intro u s inside
    rw [vacated.inside] at inside
    have apart : s ≠ slot := by
      rintro rfl
      rw [released.outside u] at inside
      cases inside
    rw [there s apart]
    exact kept.inside u s inside
  · intro s owned
    by_cases own : s = slot
    · rw [own, here] at owned
      exact absurd rfl owned
    · rw [there s own] at owned ⊢
      exact kept.used s owned

theorem Kept.hand (kept : Kept leaving k) (released : Released k slot) {rest : List Nat}
    (handed : Handed k slot q w rest k') : Kept leaving k' := by
  have there : ∀ s, s ≠ slot → k'.pool s = k.pool s := by
    intro s apart
    rw [handed.pool, Function.update_of_ne apart]
  have here : k'.pool slot =
      { (k.pool slot).setQueue q rest with owner := some (k.waiters w).task, entryCount := 1 } := by
    rw [handed.pool, Function.update_self]
  have head := kept.queued slot q w (by rw [handed.first]; exact List.mem_cons_self)
  have nodup : (w :: rest).Nodup := by
    rw [← handed.first]
    exact kept.once slot q
  -- The queue loses its first record, the others are as before.
  have popped : (k'.pool slot).queue q = rest := by
    rw [here]
    exact setQueue_self
  have kept' : ∀ s q', (s, q') ≠ (slot, q) → (k'.pool s).queue q' = (k.pool s).queue q' := by
    intro s q' apart
    by_cases own : s = slot
    · subst own
      rw [here]
      exact setQueue_other fun same => apart (by rw [same])
    · rw [there s own]
  have queues : ∀ s q' v, v ∈ (k'.pool s).queue q' ↔ v ∈ (k.pool s).queue q' ∧ v ≠ w := by
    intro s q' v
    by_cases own : (s, q') = (slot, q)
    · cases own
      rw [popped, handed.first, List.mem_cons]
      constructor
      · intro member
        refine ⟨.inr member, ?_⟩
        rintro rfl
        exact (List.nodup_cons.mp nodup).1 member
      · rintro ⟨rfl | member, apart⟩
        · exact absurd rfl apart
        · exact member
    · rw [kept' s q' own]
      refine ⟨fun member => ⟨member, ?_⟩, And.left⟩
      rintro rfl
      have other := kept.queued s q' v member
      apply own
      have sameSlot := other.mon.symm.trans head.mon
      have sameQueue := Option.some.inj (other.queue.symm.trans head.queue)
      rw [sameSlot, sameQueue]
  have given : k'.waiters w = { k.waiters w with queueKind := .none, granted := true } := by
    rw [handed.waiters, Function.update_self]
  have ungiven : ∀ v, v ≠ w → k'.waiters v = k.waiters v := by
    intro v apart
    rw [handed.waiters, Function.update_of_ne apart]
  have actives : ∀ s, (k'.pool s).active = (k.pool s).active := by
    intro s
    by_cases own : s = slot
    · rw [own, here]
      rfl
    · rw [there s own]
  refine ⟨?_, ?_, ?_, ?_, ?_, ?_⟩
  · intro u v s placed
    rw [handed.place] at placed
    have ref := kept.ref u v s placed
    by_cases own : v = w
    · subst own
      -- The task that was given the lock is its new owner.
      have same : s = slot := ref.mon.symm.trans head.mon
      subst same
      refine ⟨ref.small, by rw [given]; exact ref.active, by rw [given]; exact ref.task, by rw [given]; exact ref.mon,
        ?_, ?_⟩
      · intro _
        rw [here, ref.task]
      · rw [given]
        intro granted
        cases granted
    · refine ⟨ref.small, ?_, ?_, ?_, ?_, ?_⟩ <;> rw [ungiven v own]
      · exact ref.active
      · exact ref.task
      · exact ref.mon
      · intro granted
        have apart : s ≠ slot := by
          rintro rfl
          rw [released.ungranted u v placed] at granted
          cases granted
        rw [there s apart]
        exact ref.held granted
      · intro waiting
        obtain ⟨q', named, member⟩ := ref.waits waiting
        exact ⟨q', named, (queues s q' v).mpr ⟨member, own⟩⟩
  · intro s q' v member
    obtain ⟨before, apart⟩ := (queues s q' v).mp member
    have queued := kept.queued s q' v before
    rw [handed.place]
    refine ⟨(actives s).trans queued.inUse, queued.small, ?_, ?_, ?_, ?_, ?_⟩ <;> rw [ungiven v apart]
    · exact queued.active
    · exact queued.waiting
    · exact queued.mon
    · exact queued.queue
    · exact queued.placed
  · intro s q'
    by_cases own : (s, q') = (slot, q)
    · cases own
      rw [popped]
      exact (List.nodup_cons.mp nodup).2
    · rw [kept' s q' own]
      exact kept.once s q'
  · intro u v s placed
    rw [handed.place] at placed ⊢
    by_cases own : v = w
    · subst own
      rw [given]
      exact Place.fits_granted rfl
    · rw [ungiven v own]
      exact kept.fits u v s placed
  · intro u s inside
    rw [handed.inside] at inside
    have apart : s ≠ slot := by
      rintro rfl
      rw [released.outside u] at inside
      cases inside
    rw [there s apart]
    exact kept.inside u s inside
  · intro s owned
    by_cases own : s = slot
    · rw [own, actives]
      exact head.inUse
    · rw [there s own] at owned ⊢
      exact kept.used s owned

theorem Kept.removed (kept : Kept leaving k) (mon : (k.waiters w).mon = slot) (s : Nat) (q : Queue) :
    ((queueRemove k slot (k.waiters w).queueIn w).pool s).queue q = ((k.pool s).queue q).erase w := by
  -- A queue that the record does not name does not hold it.
  have untouched : ¬ (s = slot ∧ (k.waiters w).queueIn = some q) → ((k.pool s).queue q).erase w = (k.pool s).queue q := by
    intro other
    apply List.erase_of_not_mem
    intro member
    have queued := kept.queued s q w member
    exact other ⟨queued.mon.symm.trans mon, queued.queue⟩
  unfold queueRemove
  split
  · rename_i q' named
    by_cases own : s = slot
    · subst own
      rw [setMon_self]
      by_cases same : q = q'
      · subst same
        rw [setQueue_self]
      · rw [setQueue_other same, untouched]
        rintro ⟨-, other⟩
        rw [named] at other
        cases other
        exact same rfl
    · rw [setMon_other own, untouched]
      exact fun both => own both.1
  · rename_i named
    rw [untouched]
    rintro ⟨-, other⟩
    rw [named] at other
    cases other

theorem Kept.move (kept : Kept leaving k) {ws rest : List Nat} (nodup : (ws ++ rest).Nodup)
    (members : ∀ w, w ∈ (k.pool slot).queue (.cond i) ↔ w ∈ ws ∨ w ∈ rest) {mon : Monitor}
    (shape : mon = ((k.pool slot).setQueue (.cond i) rest).setQueue .enter ((k.pool slot).queue .enter ++ ws))
    (pool : k'.pool = Function.update k.pool slot mon) (waiters : k'.waiters = signalled ws k.waiters)
    (place : k'.place = k.place) (inside : k'.inside = k.inside) : Kept leaving k' := by
  obtain ⟨nodupMoved, nodupRest, disjoint⟩ := List.nodup_append.mp nodup
  have moving : ∀ w, w ∈ ws → Queued leaving k.pool k.waiters k.place slot (.cond i) w :=
    fun w member => kept.queued slot (.cond i) w ((members w).mpr (.inl member))
  have there : ∀ s, s ≠ slot → k'.pool s = k.pool s := by
    intro s apart
    rw [pool, Function.update_of_ne apart]
  have here : k'.pool slot = mon := by
    rw [pool, Function.update_self]
  have same : ∀ s, (k'.pool s).owner = (k.pool s).owner ∧ (k'.pool s).active = (k.pool s).active := by
    intro s
    by_cases own : s = slot
    · rw [own, here, shape]
      exact ⟨rfl, rfl⟩
    · rw [there s own]
      exact ⟨rfl, rfl⟩
  -- A record that moves is in the queue to enter and nowhere else.
  have queues : ∀ s q v, v ∈ (k'.pool s).queue q ↔
      if v ∈ ws then s = slot ∧ q = .enter else v ∈ (k.pool s).queue q := by
    intro s q v
    by_cases own : s = slot
    · subst own
      rw [here, shape]
      by_cases enter : q = .enter
      · subst enter
        rw [setQueue_self, List.mem_append]
        by_cases member : v ∈ ws <;> simp [member]
      · rw [setQueue_other enter]
        by_cases cond : q = .cond i
        · subst cond
          rw [setQueue_self]
          by_cases member : v ∈ ws
          · simp only [member, if_true, true_and, enter, iff_false]
            exact fun other => disjoint v member v other rfl
          · simp only [member, if_false]
            rw [members v]
            simp [member]
        · rw [setQueue_other cond]
          by_cases member : v ∈ ws
          · simp only [member, if_true, true_and, enter, iff_false]
            intro other
            have queue := (kept.queued s q v other).queue.symm.trans (moving v member).queue
            exact cond (Option.some.inj queue)
          · simp [member]
    · rw [there s own]
      by_cases member : v ∈ ws
      · simp only [member, if_true, own, false_and, iff_false]
        intro other
        exact own ((kept.queued s q v other).mon.symm.trans (moving v member).mon)
      · simp [member]
  refine ⟨?_, ?_, ?_, ?_, ?_, ?_⟩
  · intro u v s placed
    rw [place] at placed
    have ref := kept.ref u v s placed
    by_cases member : v ∈ ws
    · have changed : k'.waiters v = { k.waiters v with queueKind := .enter, granted := false } := by
        rw [waiters, signalled, if_pos member]
      have own : s = slot := ref.mon.symm.trans (moving v member).mon
      refine ⟨ref.small, ?_, ?_, ?_, ?_, ?_⟩ <;> rw [changed]
      · exact ref.active
      · exact ref.task
      · exact ref.mon
      · intro granted
        cases granted
      · intro _
        exact ⟨.enter, rfl, (queues s .enter v).mpr (by simp [member, own])⟩
    · have unchanged : k'.waiters v = k.waiters v := by
        rw [waiters, signalled, if_neg member]
      refine ⟨ref.small, ?_, ?_, ?_, ?_, ?_⟩ <;> rw [unchanged]
      · exact ref.active
      · exact ref.task
      · exact ref.mon
      · rw [(same s).1]
        exact ref.held
      · intro waiting
        obtain ⟨q, named, before⟩ := ref.waits waiting
        exact ⟨q, named, (queues s q v).mpr (by simpa [member] using before)⟩
  · intro s q v member
    rw [queues] at member
    rw [place]
    by_cases moves : v ∈ ws
    · rw [if_pos moves] at member
      obtain ⟨rfl, rfl⟩ := member
      have queued := moving v moves
      have changed : k'.waiters v = { k.waiters v with queueKind := .enter, granted := false } := by
        rw [waiters, signalled, if_pos moves]
      refine ⟨(same s).2.trans queued.inUse, queued.small, ?_, ?_, ?_, ?_, ?_⟩ <;> rw [changed]
      · exact queued.active
      · exact queued.mon
      · rfl
      · exact queued.placed
    · rw [if_neg moves] at member
      have queued := kept.queued s q v member
      have unchanged : k'.waiters v = k.waiters v := by
        rw [waiters, signalled, if_neg moves]
      refine ⟨(same s).2.trans queued.inUse, queued.small, ?_, ?_, ?_, ?_, ?_⟩ <;> rw [unchanged]
      · exact queued.active
      · exact queued.waiting
      · exact queued.mon
      · exact queued.queue
      · exact queued.placed
  · intro s q
    by_cases own : s = slot
    · subst own
      rw [here, shape]
      by_cases enter : q = .enter
      · subst enter
        rw [setQueue_self]
        refine List.Nodup.append (kept.once s .enter) nodupMoved ?_
        intro v before moves
        have queue := (kept.queued s .enter v before).queue.symm.trans (moving v moves).queue
        cases queue
      · rw [setQueue_other enter]
        by_cases cond : q = .cond i
        · subst cond
          rw [setQueue_self]
          exact nodupRest
        · rw [setQueue_other cond]
          exact kept.once s q
    · rw [there s own]
      exact kept.once s q
  · intro u v s placed
    rw [place] at placed ⊢
    have fits := kept.fits u v s placed
    rw [waiters, signalled]
    split
    · rename_i moves
      exact fits.enter (moving v moves).waiting
    · exact fits
  · intro u s
    rw [inside, (same s).1]
    exact kept.inside u s
  · intro s
    rw [(same s).1, (same s).2]
    exact kept.used s

end

end Enlil.Kmon
