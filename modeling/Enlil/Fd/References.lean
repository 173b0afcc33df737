import Enlil.Fd.Watches

/-! Open file objects and the descriptors that refer to them. -/

namespace Enlil.Fd

/-- The descriptors that refer to an object. -/
def refs (s : Fds) (o : Nat) : Finset (Nat × Nat) :=
  (Finset.range schedMaxTasks ×ˢ Finset.range maxFd).filter fun place => (s.fdTables place.1 place.2).obj = some o

/-- Every descriptor that refers to an object is counted in it. -/
structure Counted (s : Fds) : Prop where
  inside : ∀ idx fd o, (s.fdTables idx fd).obj = some o → idx < schedMaxTasks ∧ fd < maxFd
  count : ∀ o, (refs s o).card ≤ (s.fdObjects o).refcount
  free : ∀ o, (s.fdObjects o).inUse = false → (s.fdObjects o).refcount = 0

section

variable {s s' : Fds} {idx fd o : Nat}

theorem mem_refs : (idx, fd) ∈ refs s o ↔ (idx < schedMaxTasks ∧ fd < maxFd) ∧ (s.fdTables idx fd).obj = some o := by
  simp [refs]

attribute [irreducible] refs

theorem refs_congr (tables : s'.fdTables = s.fdTables) (o : Nat) : refs s' o = refs s o := by
  ext ⟨idx, fd⟩
  rw [mem_refs, mem_refs, tables]

theorem Counted.used (counted : Counted s) (found : (s.fdTables idx fd).obj = some o) : (s.fdObjects o).inUse = true := by
  by_contra unused
  have none : (refs s o).card = 0 := by
    have count := counted.count o
    have free := counted.free o (by simpa using unused)
    omega
  have member : (idx, fd) ∈ refs s o := mem_refs.mpr ⟨counted.inside idx fd o found, found⟩
  rw [Finset.card_eq_zero.mp none] at member
  cases member

theorem refs_clear (s : Fds) (idx fd : Nat) (cloexec : Bool) (o : Nat) :
    refs (s.setEntry idx fd ⟨none, cloexec⟩) o = (refs s o).erase (idx, fd) := by
  ext ⟨idx', fd'⟩
  rw [Finset.mem_erase, mem_refs, mem_refs, setEntry_obj]
  by_cases here : idx' = idx ∧ fd' = fd
  · simp [here]
  · simp [here]

theorem refs_set (s : Fds) (idx fd : Nat) (cloexec : Bool) (o o' : Nat) :
    refs (s.setEntry idx fd ⟨some o, cloexec⟩) o' ⊆ if o' = o then insert (idx, fd) (refs s o') else refs s o' := by
  intro ⟨idx', fd'⟩ member
  rw [mem_refs, setEntry_obj] at member
  by_cases here : idx' = idx ∧ fd' = fd
  · rw [if_pos here] at member
    obtain ⟨rfl, rfl⟩ := here
    rw [if_pos (Option.some.inj member.2).symm]
    exact Finset.mem_insert_self _ _
  · rw [if_neg here] at member
    split
    · exact Finset.mem_insert_of_mem (mem_refs.mpr member)
    · exact mem_refs.mpr member

theorem Counted.same (counted : Counted s) (tables : s'.fdTables = s.fdTables) (objects : s'.fdObjects = s.fdObjects) :
    Counted s' := by
  refine ⟨?_, fun o => ?_, ?_⟩
  · rw [tables]
    exact counted.inside
  · rw [refs_congr tables, objects]
    exact counted.count o
  · rw [objects]
    exact counted.free

theorem Counted.clear (counted : Counted s) (cloexec : Bool) : Counted (s.setEntry idx fd ⟨none, cloexec⟩) := by
  refine ⟨fun idx' fd' o found => ?_, fun o => ?_, counted.free⟩
  · rw [setEntry_obj] at found
    split at found
    · cases found
    · exact counted.inside idx' fd' o found
  · rw [refs_clear]
    exact (Finset.card_erase_le).trans (counted.count o)

theorem Counted.make (counted : Counted s) {obj : FdObject} (unused : (s.fdObjects o).inUse = false) :
    Counted (s.makeObject o obj) := by
  refine ⟨counted.inside, fun other => ?_, fun other free => ?_⟩
  · have count := counted.count other
    rw [@refs_congr s (s.makeObject o obj) rfl]
    dsimp only [Fds.makeObject]
    by_cases here : other = o
    · subst here
      rw [counted.free other unused] at count
      exact count.trans (Nat.zero_le _)
    · rw [Function.update_of_ne here]
      exact count
  · dsimp only [Fds.makeObject] at free ⊢
    by_cases here : other = o
    · rw [here, Function.update_self] at free
      cases free
    · rw [Function.update_of_ne here] at free ⊢
      exact counted.free other free

theorem Counted.attach (counted : Counted s) (inIdx : idx < schedMaxTasks) (inFd : fd < maxFd) (cloexec : Bool) :
    Counted (fdAttachObject s idx fd o cloexec) := by
  unfold fdAttachObject
  dsimp only
  split
  · exact counted
  rename_i used
  refine ⟨fun idx' fd' o' found => ?_, fun other => ?_, fun other free => ?_⟩
  · rw [setEntry_obj] at found
    split at found
    · rename_i here
      exact ⟨here.1 ▸ inIdx, here.2 ▸ inFd⟩
    · exact counted.inside idx' fd' o' found
  · have less := Finset.card_le_card (refs_set (s.setObject o { s.fdObjects o with refcount := (s.fdObjects o).refcount + 1 })
      idx fd cloexec o other)
    have count := counted.count other
    refine less.trans ?_
    rw [@refs_congr s (s.setObject o _) rfl]
    dsimp only [Fds.setEntry, Fds.setObject]
    by_cases here : other = o
    · subst here
      rw [if_pos rfl, Function.update_self]
      refine (Finset.card_insert_le _ _).trans ?_
      exact Nat.add_le_add_right count 1
    · rw [if_neg here, Function.update_of_ne here]
      exact count
  · dsimp only [Fds.setEntry, Fds.setObject] at free ⊢
    by_cases here : other = o
    · rw [here, Function.update_self] at free
      dsimp only at free
      simp [free] at used
    · rw [Function.update_of_ne here] at free ⊢
      exact counted.free other free

theorem fdObjectPut_spec (s : Fds) {o : Nat} (used : (s.fdObjects o).inUse = true) (some : 0 < (s.fdObjects o).refcount) :
    (fdObjectPut s o).fdTables = s.fdTables ∧
      (fdObjectPut s o).fdObjects = Function.update s.fdObjects o
        (if (s.fdObjects o).refcount = 1 then .zero else { s.fdObjects o with refcount := (s.fdObjects o).refcount - 1 }) ∧
      (fdObjectPut s o).epollWaits = s.epollWaits ∧
      ∀ place, (fdObjectPut s o).epollPool place = s.epollPool place ∨ (fdObjectPut s o).epollPool place = .zero := by
  have nonzero : ((s.fdObjects o).refcount == 0) = false := by
    rw [beq_eq_false_iff_ne]
    omega
  unfold fdObjectPut
  dsimp only
  rw [used, nonzero]
  simp only [Bool.not_true, Bool.or_self, Bool.false_eq_true, if_false]
  split
  · exact ⟨rfl, rfl, rfl, fun _ => .inl rfl⟩
  · rename_i last
    obtain ⟨objects, tables, _, pool⟩ := fdResourceRelease_spec s o
    refine ⟨tables, ?_, ?_, fun place => (pool place).imp_right fun cleared => cleared.2.2⟩
    · rw [if_pos (not_not.mp last)]
      dsimp only [Fds.logRelease, Fds.setObject]
      rw [objects]
    · dsimp only [Fds.logRelease, Fds.setObject]
      unfold fdResourceRelease
      split
      · split <;> rfl
      · split <;> rfl
      · rfl

theorem Counted.release (counted : Counted s) : Counted (fdReleaseSlot s idx fd) := by
  unfold fdReleaseSlot
  split
  · exact counted
  rename_i o found
  have member : (idx, fd) ∈ refs s o := mem_refs.mpr ⟨counted.inside idx fd o found, found⟩
  have some : 0 < (s.fdObjects o).refcount :=
    (Finset.card_pos.mpr ⟨_, member⟩).trans_le (counted.count o)
  obtain ⟨tables, objects, _, _⟩ := fdObjectPut_spec s (counted.used found) some
  have erased (other : Nat) : refs ((fdObjectPut s o).setEntry idx fd .zero) other = (refs s other).erase (idx, fd) := by
    rw [FdEntry.zero, refs_clear, refs_congr tables]
  refine ⟨fun idx' fd' o' found' => ?_, fun other => ?_, fun other free => ?_⟩
  · rw [setEntry_obj, tables] at found'
    split at found'
    · cases found'
    · exact counted.inside idx' fd' o' found'
  · rw [erased]
    show _ ≤ ((fdObjectPut s o).fdObjects other).refcount
    have count := counted.count other
    rw [objects]
    by_cases here : other = o
    · subst here
      rw [Function.update_self, Finset.card_erase_of_mem member]
      split
      · rename_i last
        show _ ≤ 0
        omega
      · exact Nat.sub_le_sub_right count 1
    · rw [Function.update_of_ne here]
      exact Finset.card_erase_le.trans count
  · have free : ((fdObjectPut s o).fdObjects other).inUse = false := free
    show ((fdObjectPut s o).fdObjects other).refcount = 0
    rw [objects] at free ⊢
    by_cases here : other = o
    · subst here
      rw [Function.update_self] at free ⊢
      split at free
      · rename_i last
        rw [if_pos last]
        rfl
      · dsimp only at free
        rw [counted.used found] at free
        cases free
    · rw [Function.update_of_ne here] at free ⊢
      exact counted.free other free

theorem counted_closed : Closed Counted fun _ => True where
  make counted _ unused _ _ _ := counted.make unused
  makePipe counted _ _ unusedR unusedW := ((counted.make unusedR).make unusedW).same rfl rfl
  makeEpoll {s _ place} counted _ unused _ :=
    (@Counted.same s (s.setSet place { EpollSet.zero with inUse := true }) counted rfl rfl).make unused
  attach counted inIdx inFd cloexec := counted.attach inIdx inFd cloexec
  release counted := counted.release
  waits counted := counted.same rfl rfl
  clear counted := counted.clear _

theorem run_counted (run : Run exec (fun _ _ => True) boot s) : Counted s := by
  have start : Counted boot := by
    refine ⟨nofun, fun o => ?_, fun _ _ => rfl⟩
    have none : refs boot o = ∅ := by
      ext ⟨idx, fd⟩
      simp [mem_refs, boot, FdEntry.zero]
    rw [none]
    exact Nat.zero_le _
  refine Run.invariant start (fun {s s' op} counted _ ran => ?_) run
  cases ran
  split
  · rename_i inside
    refine counted_closed.after counted inside (fun _ _ _ _ _ => trivial) fun idx epfd command fd ev same => ?_
    rcases sysEpollCtl_spec s idx epfd command fd ev with
      same | ⟨_, _, _, _, _, _, _, after, _⟩
    · rw [same]
      exact counted
    · rw [after]
      exact counted.same rfl rfl
  · exact counted

end

end Enlil.Fd
