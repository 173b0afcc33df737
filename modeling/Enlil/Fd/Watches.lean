import Enlil.Fd.Invariants
import Enlil.Lib.Reach

/-! Whether a poll of a descriptor ends: sets that watch sets. -/

namespace Enlil.Fd

/-- What an interest shows, if the objects can be asked. -/
def epollInterestRevents (s : Fds) (idx : Nat) (ask : Nat → Option UInt16) (it : Interest) : Option UInt16 :=
  match fdGet s idx it.fd with
  | none => some (linuxPollerr ||| linuxPollhup).toUInt16
  | some o =>
    if o ≠ it.obj then some (linuxPollerr ||| linuxPollhup).toUInt16
    else
      (ask o).map fun ready =>
        let requested := (it.events &&& (linuxPollin ||| linuxPollpri ||| linuxPollout)).toUInt16
        let revents := ready &&& (requested ||| (linuxPollerr ||| linuxPollhup ||| linuxPollnval).toUInt16)
        if ready &&& linuxPollnval.toUInt16 ≠ 0 then revents ||| (linuxPollerr ||| linuxPollhup).toUInt16 else revents

/-- The next interest of a scan that does not consume. -/
def epollPeek (s : Fds) (idx : Nat) (ask : Nat → Option UInt16) (set : EpollSet) (ready i : Nat) : Option Nat :=
  if (set.interests i).inUse then
    (epollInterestRevents s idx ask (set.interests i)).map fun revents =>
      (scanInterest (set.interests i) revents 0 false ⟨ready, []⟩).2.ready
  else some ready

/-- Whether a set has an interest to report. -/
def epollSetHasReady (s : Fds) (idx : Nat) (ask : Nat → Option UInt16) (set : EpollSet) : Option Bool :=
  ((List.range epollInterestMax).foldlM (epollPeek s idx ask set) 0).map fun ready => decide (0 < ready)

/-- What an object shows; the recursion may go as deep as the fuel, and what objects other than sets show is arbitrary. -/
def fdPollReadyMask (s : Fds) (idx : Nat) (plain : Nat → UInt16) : Nat → Nat → Option UInt16
  | 0, _ => none
  | fuel + 1, o =>
    if (s.fdObjects o).type = .epoll then
      if !(s.epollPool (s.fdObjects o).pipe).inUse then some linuxPollnval.toUInt16
      else
        (epollSetHasReady s idx (fdPollReadyMask s idx plain fuel) (s.epollPool (s.fdObjects o).pipe)).map fun ready =>
          if ready then linuxPollin.toUInt16 else 0
    else some (plain o)

/-- An object is a set that has an interest in another one. -/
def Watches (s : Fds) (o target : Nat) : Prop :=
  (s.fdObjects o).type = .epoll ∧ (s.epollPool (s.fdObjects o).pipe).inUse = true ∧
    ∃ slot < epollInterestMax, ((s.epollPool (s.fdObjects o).pipe).interests slot).inUse = true ∧
      ((s.epollPool (s.fdObjects o).pipe).interests slot).obj = target

/-- The condition on a call: an interest that it puts into a set is not in an object from which the set is watched. -/
def NoLoop (s : Fds) : Op → Prop
  | .epollCtl idx epfd command fd ev => ∀ epobj place target, epollTarget s idx epfd fd = .ok (epobj, place, target) →
    command ≠ .del → (sysEpollCtl s idx epfd command fd ev).2 = .ok () →
    ¬ Relation.ReflTransGen (Watches s) target epobj
  | _ => True

/-- Every set belongs to one object, and what objects watch does not lead back to them. -/
structure Wired (s : Fds) : Prop where
  owned : ∀ o o', (s.fdObjects o).type = .epoll → (s.fdObjects o').type = .epoll →
    (s.fdObjects o).pipe = (s.fdObjects o').pipe → o = o'
  live : ∀ o, (s.fdObjects o).type = .epoll → (s.epollPool (s.fdObjects o).pipe).inUse = true
  free : ∀ o, (s.fdObjects o).inUse = false → (s.fdObjects o).type ≠ .epoll
  grounded : Grounded (Watches s)

section

variable {s s' : Fds} {idx fd o : Nat} {op : Op}

/-- What the properties above read of the objects. -/
structure SameSets (s s' : Fds) : Prop where
  type : ∀ o, (s'.fdObjects o).type = (s.fdObjects o).type
  pipe : ∀ o, (s'.fdObjects o).pipe = (s.fdObjects o).pipe
  inUse : ∀ o, (s'.fdObjects o).inUse = (s.fdObjects o).inUse
  epollPool : s'.epollPool = s.epollPool

theorem Wired.same (wired : Wired s) (same : SameSets s s') : Wired s' where
  owned o o' := by
    rw [same.type, same.type, same.pipe, same.pipe]
    exact wired.owned o o'
  live o := by
    rw [same.type, same.pipe, same.epollPool]
    exact wired.live o
  free o := by
    rw [same.type, same.inUse]
    exact wired.free o
  grounded := wired.grounded.mono fun x y edge => by
    unfold Watches at edge ⊢
    rwa [same.type, same.pipe, same.epollPool] at edge

theorem setEntry_same (s : Fds) (idx fd : Nat) (entry : FdEntry) : SameSets s (s.setEntry idx fd entry) :=
  ⟨fun _ => rfl, fun _ => rfl, fun _ => rfl, rfl⟩

theorem setObject_same {obj : FdObject} (type : obj.type = (s.fdObjects o).type) (pipe : obj.pipe = (s.fdObjects o).pipe)
    (inUse : obj.inUse = (s.fdObjects o).inUse) : SameSets s (s.setObject o obj) := by
  refine ⟨fun other => ?_, fun other => ?_, fun other => ?_, rfl⟩ <;>
    (dsimp only [Fds.setObject]; by_cases here : other = o)
  · rw [here, Function.update_self, type]
  · rw [Function.update_of_ne here]
  · rw [here, Function.update_self, pipe]
  · rw [Function.update_of_ne here]
  · rw [here, Function.update_self, inUse]
  · rw [Function.update_of_ne here]

theorem Wired.make (wired : Wired s) {obj : FdObject} (type : obj.type ≠ .epoll) : Wired (s.makeObject o obj) := by
  have other (x : Nat) (set : ((s.makeObject o obj).fdObjects x).type = .epoll) :
      (s.makeObject o obj).fdObjects x = s.fdObjects x := by
    dsimp only [Fds.makeObject] at set ⊢
    by_cases here : x = o
    · rw [here, Function.update_self] at set
      exact absurd set type
    · rw [Function.update_of_ne here]
  refine ⟨fun x y setX setY same => ?_, fun x setX => ?_, fun x unused setX => ?_, wired.grounded.mono fun x y edge => ?_⟩
  · rw [other x setX, other y setY] at same
    exact wired.owned x y (other x setX ▸ setX) (other y setY ▸ setY) same
  · have live := wired.live x (other x setX ▸ setX)
    rw [other x setX]
    exact live
  · exact wired.free x (other x setX ▸ unused) (other x setX ▸ setX)
  · have old := other x edge.1
    unfold Watches at edge
    rw [old] at edge
    exact edge

theorem Wired.makeEpoll (wired : Wired s) {place : Nat} (freeSet : (s.epollPool place).inUse = false) :
    Wired ((s.setSet place { EpollSet.zero with inUse := true }).makeObject o
      { FdObject.zero with type := .epoll, pipe := place }) := by
  generalize made : (s.setSet place { EpollSet.zero with inUse := true }).makeObject o
    { FdObject.zero with type := .epoll, pipe := place } = s'
  have new : (s'.fdObjects o).pipe = place ∧ (s'.fdObjects o).inUse = true := by
    rw [← made]
    simp [Fds.makeObject, Fds.setSet]
  have fresh : s'.epollPool place = { EpollSet.zero with inUse := true } := by
    rw [← made]
    exact Function.update_self ..
  -- The other sets are as they were, since the new one had no owner.
  have old (x : Nat) (differ : x ≠ o) : s'.fdObjects x = s.fdObjects x := by
    rw [← made]
    exact Function.update_of_ne differ ..
  have apart (x : Nat) (differ : x ≠ o) (set : (s'.fdObjects x).type = .epoll) : (s'.fdObjects x).pipe ≠ place := by
    rw [old x differ] at set ⊢
    intro same
    have live := wired.live x set
    rw [same, freeSet] at live
    cases live
  have kept (other : Nat) (differ : other ≠ place) : s'.epollPool other = s.epollPool other := by
    rw [← made]
    exact Function.update_of_ne differ ..
  refine ⟨fun x y setX setY same => ?_, fun x setX => ?_, fun x unused setX => ?_, wired.grounded.mono fun x y edge => ?_⟩
  · by_cases hereX : x = o
    · by_cases hereY : y = o
      · exact hereX.trans hereY.symm
      · exact absurd (same.symm.trans (hereX ▸ new.1)) (apart y hereY setY)
    · by_cases hereY : y = o
      · exact absurd (same.trans (hereY ▸ new.1)) (apart x hereX setX)
      · rw [old x hereX, old y hereY] at same
        exact wired.owned x y (old x hereX ▸ setX) (old y hereY ▸ setY) same
  · by_cases here : x = o
    · rw [here, new.1, fresh]
    · rw [kept _ (apart x here setX), old x here]
      exact wired.live x (old x here ▸ setX)
  · by_cases here : x = o
    · rw [here, new.2] at unused
      cases unused
    · rw [old x here] at unused setX
      exact wired.free x unused setX
  · obtain ⟨setX, used, slot, bound, interest, same⟩ := edge
    by_cases here : x = o
    · rw [here, new.1, fresh] at interest
      cases interest
    · rw [kept _ (apart x here setX), old x here] at used interest same
      exact ⟨old x here ▸ setX, used, slot, bound, interest, same⟩

theorem Wired.cleared (wired : Wired s) (cleared : s'.fdObjects = Function.update s.fdObjects o .zero)
    (pool : ∀ place, s'.epollPool place = s.epollPool place ∨
      ((s.fdObjects o).type = .epoll ∧ place = (s.fdObjects o).pipe)) : Wired s' := by
  have other (x : Nat) (set : (s'.fdObjects x).type = .epoll) : x ≠ o ∧ s'.fdObjects x = s.fdObjects x := by
    rw [cleared] at set ⊢
    by_cases here : x = o
    · rw [here, Function.update_self] at set
      cases set
    · exact ⟨here, Function.update_of_ne here ..⟩
  have kept (x : Nat) (set : (s'.fdObjects x).type = .epoll) :
      s'.epollPool (s'.fdObjects x).pipe = s.epollPool (s.fdObjects x).pipe := by
    obtain ⟨differ, same⟩ := other x set
    rw [same] at set ⊢
    rcases pool (s.fdObjects x).pipe with old | ⟨owner, place⟩
    · exact old
    · exact absurd (wired.owned x o set owner place) differ
  refine ⟨fun x y setX setY same => ?_, fun x setX => ?_, fun x unused setX => ?_, wired.grounded.mono fun x y edge => ?_⟩
  · obtain ⟨_, oldX⟩ := other x setX
    obtain ⟨_, oldY⟩ := other y setY
    rw [oldX, oldY] at same
    exact wired.owned x y (oldX ▸ setX) (oldY ▸ setY) same
  · rw [kept x setX]
    exact wired.live x ((other x setX).2 ▸ setX)
  · obtain ⟨_, oldX⟩ := other x setX
    rw [oldX] at unused setX
    exact wired.free x unused setX
  · obtain ⟨setX, used, slot, bound, interest, same⟩ := edge
    rw [kept x setX] at used interest same
    exact ⟨(other x setX).2 ▸ setX, used, slot, bound, interest, same⟩

theorem fdResourceRelease_spec (s : Fds) (o : Nat) :
    (fdResourceRelease s (s.fdObjects o)).fdObjects = s.fdObjects ∧
      (fdResourceRelease s (s.fdObjects o)).fdTables = s.fdTables ∧
      (fdResourceRelease s (s.fdObjects o)).born = s.born ∧
      ∀ place, (fdResourceRelease s (s.fdObjects o)).epollPool place = s.epollPool place ∨
        ((s.fdObjects o).type = .epoll ∧ place = (s.fdObjects o).pipe ∧
          (fdResourceRelease s (s.fdObjects o)).epollPool place = .zero) := by
  unfold fdResourceRelease
  split
  · split <;> exact ⟨rfl, rfl, rfl, fun _ => .inl rfl⟩
  · rename_i set
    split
    · refine ⟨rfl, rfl, rfl, fun place => ?_⟩
      dsimp only [Fds.setSet]
      by_cases here : place = (s.fdObjects o).pipe
      · rw [here, Function.update_self]
        exact .inr ⟨set, rfl, rfl⟩
      · rw [Function.update_of_ne here]
        exact .inl rfl
    · exact ⟨rfl, rfl, rfl, fun _ => .inl rfl⟩
  · exact ⟨rfl, rfl, rfl, fun _ => .inl rfl⟩

theorem Wired.put (wired : Wired s) (o : Nat) : Wired (fdObjectPut s o) := by
  unfold fdObjectPut
  dsimp only
  split
  · exact wired
  split
  · exact wired.same (setObject_same rfl rfl rfl)
  · obtain ⟨objects, _, _, pool⟩ := fdResourceRelease_spec s o
    refine wired.cleared (o := o) ?_ fun place => ?_
    · dsimp only [Fds.logRelease, Fds.setObject]
      rw [objects]
    · exact (pool place).imp_right fun ⟨set, same, _⟩ => ⟨set, same⟩

theorem wired_closed : Closed Wired fun _ => True where
  make wired _ _ _ type _ := wired.make type
  makePipe {_ objR objW place} wired _ _ _ _ := by
    have reading := @Wired.make _ objR wired (pipeObject place .read) nofun
    have both := @Wired.make _ objW reading (pipeObject place .write) nofun
    exact both.same ⟨fun _ => rfl, fun _ => rfl, fun _ => rfl, rfl⟩
  makeEpoll wired _ _ freeSet := wired.makeEpoll freeSet
  attach {s idx fd o} wired _ _ cloexec := by
    unfold fdAttachObject
    dsimp only
    split
    · exact wired
    · refine Wired.same ?_ (setEntry_same _ _ _ _)
      exact wired.same (setObject_same rfl rfl rfl)
  release {s idx fd} wired := by
    unfold fdReleaseSlot
    split
    · exact wired
    · exact (wired.put _).same (setEntry_same _ _ _ _)
  waits wired := wired.same ⟨fun _ => rfl, fun _ => rfl, fun _ => rfl, rfl⟩
  clear wired := wired.same (setEntry_same _ _ _ _)

theorem Wired.ctl (wired : Wired s) {epfd : Nat} {command : EpollOp} {ev : Option EpollEvent}
    (noLoop : NoLoop s (.epollCtl idx epfd command fd ev)) : Wired (sysEpollCtl s idx epfd command fd ev).1 := by
  rcases sysEpollCtl_spec s idx epfd command fd ev with
    same | ⟨epobj, place, target, event, set, found, changed, after, result⟩
  · rw [same]
    exact wired
  obtain ⟨_, _, _, setEp, pipeEp, used⟩ := epollTarget_spec found
  obtain ⟨slot, interest, rfl, kind⟩ := epollCtl_spec changed
  have apart := noLoop epobj place target found
  rw [after]
  generalize stored : s.setSet place ((s.epollPool place).put slot interest) = s'
  have objects : s'.fdObjects = s.fdObjects := by rw [← stored]; rfl
  have here : s'.epollPool place = (s.epollPool place).put slot interest := by
    rw [← stored]
    exact Function.update_self ..
  have kept (other : Nat) (differ : other ≠ place) : s'.epollPool other = s.epollPool other := by
    rw [← stored]
    exact Function.update_of_ne differ ..
  have inUse (other : Nat) : (s'.epollPool other).inUse = (s.epollPool other).inUse := by
    by_cases same : other = place
    · rw [same, here]
      rfl
    · rw [kept other same]
  refine ⟨?_, fun x setX => ?_, ?_, ?_⟩
  · rw [objects]
    exact wired.owned
  · rw [objects] at setX ⊢
    rw [inUse]
    exact wired.live x setX
  · rw [objects]
    exact wired.free
  -- Every edge is an old one, or the one of the interest that was put.
  have edges (x y : Nat) (edge : Watches s' x y) : Watches s x y ∨ (x = epobj ∧ interest.inUse = true ∧ interest.obj = y) := by
    obtain ⟨setX, usedX, i, bound, shown, same⟩ := edge
    rw [objects] at setX usedX shown same
    by_cases mine : (s.fdObjects x).pipe = place
    · rw [mine, here] at shown same
      by_cases put : i = slot
      · rw [put, EpollSet.put_self] at shown same
        exact .inr ⟨wired.owned x epobj setX setEp (mine.trans pipeEp.symm), shown, same⟩
      · rw [EpollSet.put_of_ne _ _ put] at shown same
        rw [← mine] at used shown same
        exact .inl ⟨setX, used, i, bound, shown, same⟩
    · rw [kept _ mine] at usedX shown same
      exact .inl ⟨setX, usedX, i, bound, shown, same⟩
  rcases kind with rfl | ⟨notDel, _, rfl⟩
  · refine wired.grounded.mono fun x y edge => ?_
    rcases edges x y edge with old | ⟨_, empty, _⟩
    · exact old
    · cases empty
  · refine wired.grounded.insert (apart notDel result) fun x y edge => ?_
    exact (edges x y edge).imp_right fun ⟨mine, _, same⟩ => ⟨mine, same.symm⟩

theorem run_wired (run : Run exec NoLoop boot s) : Wired s := by
  have start : Wired boot := by
    refine ⟨nofun, nofun, nofun, ⟨fun x => ⟨x, fun y edge => ?_⟩⟩⟩
    cases edge.1
  refine Run.invariant start (fun {s s' op} wired noLoop ran => ?_) run
  cases ran
  split
  · rename_i inside
    refine wired_closed.after wired inside (fun _ _ _ _ _ => trivial) fun idx epfd command fd ev same => ?_
    subst same
    exact wired.ctl noLoop
  · exact wired

theorem foldlM_some {f : Nat → Nat → Option Nat} {items : List Nat} (each : ∀ ready, ∀ i ∈ items, (f ready i).isSome = true)
    (start : Nat) : (items.foldlM f start).isSome = true := by
  induction items generalizing start with
  | nil => rfl
  | cons i items ih =>
    obtain ⟨ready, asked⟩ := Option.isSome_iff_exists.mp (each start i List.mem_cons_self)
    rw [List.foldlM_cons, asked]
    exact ih (fun ready i member => each ready i (List.mem_cons_of_mem _ member)) ready

theorem fdPollReadyMask_succ (plain : Nat → UInt16) (fuel : Nat)
    (each : ∀ target, Watches s o target → (fdPollReadyMask s idx plain fuel target).isSome = true) :
    (fdPollReadyMask s idx plain (fuel + 1) o).isSome = true := by
  rw [fdPollReadyMask]
  split
  · rename_i set
    split
    · rfl
    rename_i used
    rw [Option.isSome_map, epollSetHasReady, Option.isSome_map]
    refine foldlM_some (fun ready i member => ?_) 0
    unfold epollPeek
    split
    · rename_i shown
      rw [Option.isSome_map]
      unfold epollInterestRevents
      split
      · rfl
      split
      · rfl
      · rename_i target _ same
        rw [Option.isSome_map]
        exact each target ⟨set, by simpa using used, i, List.mem_range.mp member, shown, (not_not.mp same).symm⟩
    · rfl
  · rfl

theorem plain_reaches {target : Nat} (plain : (s.fdObjects o).type ≠ .epoll)
    (path : Relation.ReflTransGen (Watches s) o target) : target = o := by
  rcases path.cases_head with same | ⟨_, edge, _⟩
  · exact same.symm
  · exact absurd edge.1 plain

theorem Wired.polls (wired : Wired s) (idx : Nat) (plain : Nat → UInt16) (o : Nat) :
    ∃ depth, ∀ fuel, depth ≤ fuel → (fdPollReadyMask s idx plain fuel o).isSome = true := by
  induction o using wired.grounded.induction with
  | h o ih =>
    -- Every slot of the set has a depth at which its object can be polled, and the largest one does for all.
    have slots (slot : Nat) : ∃ depth, ∀ target, Watches s o target →
        ((s.epollPool (s.fdObjects o).pipe).interests slot).obj = target →
        ∀ fuel, depth ≤ fuel → (fdPollReadyMask s idx plain fuel target).isSome = true := by
      by_cases watched : Watches s o ((s.epollPool (s.fdObjects o).pipe).interests slot).obj
      · obtain ⟨depth, polled⟩ := ih _ watched
        exact ⟨depth, fun target _ same => same ▸ polled⟩
      · exact ⟨0, fun target watches same => absurd (same ▸ watches) watched⟩
    choose depth polled using slots
    refine ⟨(Finset.range epollInterestMax).sup depth + 1, fun fuel deep => ?_⟩
    obtain ⟨less, rfl⟩ : ∃ less, fuel = less + 1 := ⟨fuel - 1, by omega⟩
    refine fdPollReadyMask_succ plain less fun target watches => ?_
    obtain ⟨_, _, slot, bound, _, same⟩ := id watches
    have within : depth slot ≤ (Finset.range epollInterestMax).sup depth :=
      Finset.le_sup (Finset.mem_range.mpr bound)
    exact polled slot target watches same less (by omega)

/-- In every run whose calls close no loop, what sets watch has no cycle, and every poll ends. -/
theorem run_polls (run : Run exec NoLoop boot s) :
    (∀ o, ¬ Relation.TransGen (Watches s) o o) ∧
      ∀ idx plain o, ∃ fuel mask, fdPollReadyMask s idx plain fuel o = some mask := by
  have wired := run_wired run
  refine ⟨wired.grounded.acyclic, fun idx plain o => ?_⟩
  obtain ⟨depth, polled⟩ := wired.polls idx plain o
  exact ⟨depth, Option.isSome_iff_exists.mp (polled depth le_rfl)⟩

end

/-- A set is made, its descriptor is duplicated, and the set gets an interest in the duplicate. -/
def ownLoop : List Op :=
  [.epollCreate1 0 false, .dup 0 3, .epollCtl 0 3 .add 4 (some ⟨linuxPollin, 0⟩)]

/-- A set gets an interest in a pipe, and can be polled. -/
theorem run_polls_watchedPipe :
    ∃ s, Run exec NoLoop boot s ∧ Watches s 0 1 ∧ (∀ o, ¬ Relation.TransGen (Watches s) o o) ∧
      ∀ idx plain o, ∃ fuel mask, fdPollReadyMask s idx plain fuel o = some mask := by
  have made : Run exec NoLoop boot ((Op.pipe 0 true).after ((Op.epollCreate1 0 false).after boot)) :=
    .call (.pipe 0 true) (.call (.epollCreate1 0 false) .start trivial rfl) trivial rfl
  have target : epollTarget ((Op.pipe 0 true).after ((Op.epollCreate1 0 false).after boot)) 0 3 4 = .ok (0, 0, 1) := by
    decide +kernel
  have watched : Run exec NoLoop boot ((Op.epollCtl 0 3 .add 4 (some ⟨linuxPollin, 0⟩)).after
      ((Op.pipe 0 true).after ((Op.epollCreate1 0 false).after boot))) := by
    refine .call (.epollCtl 0 3 .add 4 (some ⟨linuxPollin, 0⟩)) made (fun epobj place other found _ _ path => ?_) rfl
    cases target.symm.trans found
    exact absurd (plain_reaches (by decide +kernel) path) (by decide)
  exact ⟨_, watched, ⟨by decide +kernel, by decide +kernel, 0, by decide, by decide +kernel, by decide +kernel⟩,
    run_polls watched⟩

/-- A set that has an interest in itself is polled for ever. -/
theorem run_not_polls :
    ¬ ∀ s, Run exec (fun _ _ => True) boot s →
      (∀ o, ¬ Relation.TransGen (Watches s) o o) ∧
        ∀ idx plain o, ∃ fuel mask, fdPollReadyMask s idx plain fuel o = some mask := by
  intro claim
  have found : (runList exec (fun _ _ => True) boot ownLoop).any (fun s =>
      decide ((s.fdObjects 0).type = .epoll) && (s.fdObjects 0).pipe == 0 && (s.epollPool 0).inUse &&
        ((s.epollPool 0).interests 0).inUse && ((s.epollPool 0).interests 0).obj == 0 &&
        fdGet s 0 ((s.epollPool 0).interests 0).fd == some 0) = true := by
    decide +kernel
  obtain ⟨s, run, seen⟩ := runList_any found
  simp only [Bool.and_eq_true, decide_eq_true_eq, beq_iff_eq] at seen
  obtain ⟨⟨⟨⟨⟨type, pipe⟩, used⟩, interest⟩, obj⟩, got⟩ := seen
  obtain ⟨fuel, mask, ended⟩ := (claim s run).2 0 (fun _ => 0) 0
  have endless : fdPollReadyMask s 0 (fun _ => 0) fuel 0 = none := by
    clear ended
    induction fuel with
    | zero => rfl
    | succ fuel ih =>
      rw [fdPollReadyMask, if_pos type, pipe, used]
      simp only [Bool.not_true, Bool.false_eq_true, if_false]
      have asked (ready : Nat) : epollPeek s 0 (fdPollReadyMask s 0 (fun _ => 0) fuel) (s.epollPool 0) ready 0 = none := by
        simp [epollPeek, interest, epollInterestRevents, got, obj, ih]
      rw [epollSetHasReady, show epollInterestMax = 63 + 1 from rfl, List.range_succ_eq_map, List.foldlM_cons, asked]
      rfl
  rw [endless] at ended
  cases ended

end Enlil.Fd
