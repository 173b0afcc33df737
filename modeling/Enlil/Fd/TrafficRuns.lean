import Enlil.Fd.Traffic

/-! Runs of all calls on pipes, and when every pipe gives out its bytes in the order in which it took them in. -/

namespace Enlil.Fd.Pipes

/-- How many ends of a kind a pipe counts. -/
def holders (pipe : Pipe) : PipeEnd → Nat
  | .read => pipe.readers
  | .write => pipe.writers

/-- What a task waits for is left to do, and it is in the pipe of the call that it waits on, if that still exists. -/
structure Waiting (s : Traffic) (task : Nat) (waiter : Waiter) : Prop where
  task : task < schedMaxTasks
  old : waiter.birth < s.fds.born
  same : (s.fds.pipePool waiter.place).inUse = true → (s.fds.pipePool waiter.place).birth = waiter.birth
  untouched : ∀ count got, waiter.work = .read count got → got = [] ∧ 0 < count

/-- What holds of the pipes and of what went through them. -/
structure Held (s : Traffic) : Prop where
  placed : ∀ place, (s.fds.pipePool place).Placed
  unused : ∀ place, (s.fds.pipePool place).inUse = false → (s.fds.pipePool place).size = 0
  young : ∀ place, (s.fds.pipePool place).inUse = true → (s.fds.pipePool place).birth < s.fds.born
  apart : ∀ place place', (s.fds.pipePool place).inUse = true → (s.fds.pipePool place').inUse = true →
    (s.fds.pipePool place).birth = (s.fds.pipePool place').birth → place = place'
  ends : ∀ {o place pipeEnd}, IsEnd s.fds o place pipeEnd →
    (s.fds.pipePool place).inUse = true ∧ 0 < holders (s.fds.pipePool place) pipeEnd
  single : ∀ {o o' place pipeEnd}, IsEnd s.fds o place pipeEnd → IsEnd s.fds o' place pipeEnd → o = o'
  contents : ∀ place, (s.fds.pipePool place).inUse = true → s.bytes (s.fds.pipePool place).birth =
    s.read (s.fds.pipePool place).birth ++ (s.fds.pipePool place).contents
  fresh : ∀ birth, s.fds.born ≤ birth → s.bytes birth = [] ∧ s.read birth = []
  inOrder : ∀ birth, s.read birth <+: s.bytes birth
  waiting : ∀ task waiter, s.waiters task = some waiter → Waiting s task waiter

section

variable {s : Traffic} {fds : Fds} {idx fd o place : Nat}

theorem Held.kept (held : Held s) (ends : ∀ {o place pipeEnd}, IsEnd fds o place pipeEnd → IsEnd s.fds o place pipeEnd)
    (pool : fds.pipePool = s.fds.pipePool) (born : s.fds.born ≤ fds.born) : Held { s with fds } where
  placed place := by
    show (fds.pipePool place).Placed
    rw [pool]
    exact held.placed place
  unused place unused := by
    have unused : (fds.pipePool place).inUse = false := unused
    show (fds.pipePool place).size = 0
    rw [pool] at unused ⊢
    exact held.unused place unused
  young place used := by
    have used : (fds.pipePool place).inUse = true := used
    show (fds.pipePool place).birth < fds.born
    rw [pool] at used ⊢
    exact (held.young place used).trans_le born
  apart place place' used used' same := by
    have used : (fds.pipePool place).inUse = true := used
    have used' : (fds.pipePool place').inUse = true := used'
    have same : (fds.pipePool place).birth = (fds.pipePool place').birth := same
    rw [pool] at used used' same
    exact held.apart place place' used used' same
  ends isEnd := by
    show (fds.pipePool _).inUse = true ∧ 0 < holders (fds.pipePool _) _
    rw [pool]
    exact held.ends (ends isEnd)
  single isEnd isEnd' := held.single (ends isEnd) (ends isEnd')
  contents place used := by
    have used : (fds.pipePool place).inUse = true := used
    show s.bytes (fds.pipePool place).birth = s.read (fds.pipePool place).birth ++ (fds.pipePool place).contents
    rw [pool] at used ⊢
    exact held.contents place used
  fresh birth later := held.fresh birth (born.trans later)
  inOrder := held.inOrder
  waiting task waiter waits := by
    obtain ⟨inside, old, same, untouched⟩ := held.waiting task waiter waits
    refine ⟨inside, old.trans_le born, fun used => ?_, untouched⟩
    have used : (fds.pipePool waiter.place).inUse = true := used
    show (fds.pipePool waiter.place).birth = waiter.birth
    rw [pool] at used ⊢
    exact same used

theorem isEnd_set {obj : FdObject} {other place : Nat} {otherEnd : PipeEnd}
    (isEnd : IsEnd (fds.setObject o obj) other place otherEnd) (inUse : obj.inUse = true → (fds.fdObjects o).inUse = true)
    (type : obj.type = (fds.fdObjects o).type) (pipe : obj.pipe = (fds.fdObjects o).pipe)
    (pipeEnd : obj.pipeEnd = (fds.fdObjects o).pipeEnd) : IsEnd fds other place otherEnd := by
  obtain ⟨used, type', pipe', pipeEnd'⟩ := isEnd
  dsimp only [Fds.setObject] at used type' pipe' pipeEnd'
  by_cases here : other = o
  · subst here
    rw [Function.update_self] at used type' pipe' pipeEnd'
    exact ⟨inUse used, type ▸ type', pipe ▸ pipe', pipeEnd ▸ pipeEnd'⟩
  · rw [Function.update_of_ne here] at used type' pipe' pipeEnd'
    exact ⟨used, type', pipe', pipeEnd'⟩

theorem isEnd_place {s' : Fds} {obj : FdObject} (updated : s'.fdObjects = Function.update fds.fdObjects o obj)
    (none : obj.inUse = false ∨ obj.type ≠ .pipe) {other place : Nat} {otherEnd : PipeEnd}
    (isEnd : IsEnd s' other place otherEnd) : other ≠ o ∧ IsEnd fds other place otherEnd := by
  obtain ⟨used, type', pipe', pipeEnd'⟩ := isEnd
  rw [updated] at used type' pipe' pipeEnd'
  have differ : other ≠ o := by
    rintro rfl
    rw [Function.update_self] at used type'
    rcases none with unused | differ
    · rw [unused] at used
      cases used
    · exact differ type'
  rw [Function.update_of_ne differ] at used type' pipe' pipeEnd'
  exact ⟨differ, used, type', pipe', pipeEnd'⟩

theorem isEnd_make {obj : FdObject} {other place : Nat} {otherEnd : PipeEnd}
    (isEnd : IsEnd (fds.makeObject o obj) other place otherEnd) (plain : obj.type ≠ .pipe) : IsEnd fds other place otherEnd :=
  (isEnd_place rfl (.inr (by exact plain)) isEnd).2

theorem closeEnd_spec (pipe : Pipe) (pipeEnd : PipeEnd) :
    (pipe.closeEnd pipeEnd = .zero ∧ ∀ other ≠ pipeEnd, holders pipe other = 0) ∨
      ∃ readers writers, pipe.closeEnd pipeEnd = { pipe with readers, writers } ∧
        ∀ other ≠ pipeEnd, holders { pipe with readers, writers } other = holders pipe other := by
  cases pipeEnd with
  | read =>
    simp only [Pipe.closeEnd]
    split
    · rename_i none
      refine .inl ⟨rfl, fun other differ => ?_⟩
      cases other
      · exact absurd rfl differ
      · exact none.2
    · refine .inr ⟨_, _, rfl, fun other differ => ?_⟩
      cases other
      · exact absurd rfl differ
      · rfl
  | write =>
    simp only [Pipe.closeEnd]
    split
    · rename_i none
      refine .inl ⟨rfl, fun other differ => ?_⟩
      cases other
      · exact none.1
      · exact absurd rfl differ
    · refine .inr ⟨_, _, rfl, fun other differ => ?_⟩
      cases other
      · rfl
      · exact absurd rfl differ

theorem zero_placed : Pipe.zero.Placed := ⟨by decide, by decide, by decide⟩

theorem Held.close (held : Held s) {pipeEnd : PipeEnd} (isEnd : IsEnd s.fds o place pipeEnd) :
    Held { s with fds := (s.fds.setPipe place ((s.fds.pipePool place).closeEnd pipeEnd)).setObject o .zero } := by
  generalize closed : (s.fds.setPipe place ((s.fds.pipePool place).closeEnd pipeEnd)).setObject o .zero = fds
  have objects : fds.fdObjects = Function.update s.fds.fdObjects o .zero := by
    rw [← closed]
    rfl
  have born : fds.born = s.fds.born := by
    rw [← closed]
    rfl
  have here : fds.pipePool place = (s.fds.pipePool place).closeEnd pipeEnd := by
    rw [← closed]
    exact Function.update_self ..
  have elsewhere (other : Nat) (differ : other ≠ place) : fds.pipePool other = s.fds.pipePool other := by
    rw [← closed]
    exact Function.update_of_ne differ ..
  have old {o' place' : Nat} {pipeEnd' : PipeEnd} (isEnd' : IsEnd fds o' place' pipeEnd') :
      o' ≠ o ∧ IsEnd s.fds o' place' pipeEnd' := isEnd_place objects (.inl rfl) isEnd'
  -- An end of the pipe that is left is the other one.
  have other {o' : Nat} {pipeEnd' : PipeEnd} (isEnd' : IsEnd fds o' place pipeEnd') : pipeEnd' ≠ pipeEnd := by
    rintro rfl
    exact (old isEnd').1 (held.single (old isEnd').2 isEnd)
  have pool (p : Nat) : (fds.pipePool p).inUse = false ∧ fds.pipePool p = .zero ∨
      (fds.pipePool p).inUse = (s.fds.pipePool p).inUse ∧ (fds.pipePool p).birth = (s.fds.pipePool p).birth ∧
        (fds.pipePool p).contents = (s.fds.pipePool p).contents ∧ (fds.pipePool p).size = (s.fds.pipePool p).size ∧
        (fds.pipePool p).Placed := by
    by_cases same : p = place
    · subst same
      rw [here]
      rcases closeEnd_spec (s.fds.pipePool p) pipeEnd with ⟨zero, _⟩ | ⟨readers, writers, kept, _⟩
      · rw [zero]
        exact .inl ⟨rfl, rfl⟩
      · rw [kept]
        have placed := held.placed p
        exact .inr ⟨rfl, rfl, rfl, rfl, ⟨placed.inside, placed.bound, placed.next⟩⟩
    · rw [elsewhere p same]
      exact .inr ⟨rfl, rfl, rfl, rfl, held.placed p⟩
  have usedOld {p : Nat} (used : (fds.pipePool p).inUse = true) : (s.fds.pipePool p).inUse = true ∧
      (fds.pipePool p).birth = (s.fds.pipePool p).birth ∧ (fds.pipePool p).contents = (s.fds.pipePool p).contents := by
    rcases pool p with ⟨unused, _⟩ | ⟨inUse, birth, contents, _⟩
    · rw [unused] at used
      cases used
    · exact ⟨inUse ▸ used, birth, contents⟩
  refine ⟨fun p => ?_, fun p unused => ?_, fun p used => ?_, fun p p' used used' same => ?_, fun {o' p e} isEnd' => ?_,
    fun isEnd' isEnd'' => held.single (old isEnd').2 (old isEnd'').2, fun p used => ?_, fun birth later => ?_, held.inOrder,
    fun task waiter waits => ?_⟩
  · rcases pool p with ⟨_, zero⟩ | ⟨_, _, _, _, placed⟩
    · show (fds.pipePool p).Placed
      rw [zero]
      exact zero_placed
    · exact placed
  · rcases pool p with ⟨_, zero⟩ | ⟨inUse, _, _, size, _⟩
    · show (fds.pipePool p).size = 0
      rw [zero]
      rfl
    · exact size.trans (held.unused p (inUse.symm.trans unused))
  · obtain ⟨used, birth, _⟩ := usedOld used
    show (fds.pipePool p).birth < fds.born
    rw [birth, born]
    exact held.young p used
  · obtain ⟨used, birth, _⟩ := usedOld used
    obtain ⟨used', birth', _⟩ := usedOld used'
    exact held.apart p p' used used' (birth.symm.trans (same.trans birth'))
  · obtain ⟨used, held'⟩ := held.ends (old isEnd').2
    show (fds.pipePool p).inUse = true ∧ 0 < holders (fds.pipePool p) e
    by_cases same : p = place
    · subst same
      rw [here]
      rcases closeEnd_spec (s.fds.pipePool p) pipeEnd with ⟨_, none⟩ | ⟨readers, writers, kept, counts⟩
      · rw [none e (other isEnd')] at held'
        cases held'
      · rw [kept]
        exact ⟨used, by rw [counts e (other isEnd')]; exact held'⟩
    · rw [elsewhere p same]
      exact ⟨used, held'⟩
  · obtain ⟨used, birth, contents⟩ := usedOld used
    show s.bytes (fds.pipePool p).birth = s.read (fds.pipePool p).birth ++ (fds.pipePool p).contents
    rw [birth, contents]
    exact held.contents p used
  · exact held.fresh birth (born ▸ later)
  · obtain ⟨inside, young, same, untouched⟩ := held.waiting task waiter waits
    refine ⟨inside, ?_, fun used => ?_, untouched⟩
    · show waiter.birth < fds.born
      rwa [born]
    · obtain ⟨used, birth, _⟩ := usedOld used
      exact birth.trans (same used)

theorem Held.objectPut (held : Held s) (o : Nat) : Held { s with fds := fdObjectPut s.fds o } := by
  unfold fdObjectPut
  dsimp only
  split
  · exact held
  rename_i live
  split
  · exact held.kept (fun isEnd => isEnd_set isEnd id rfl rfl rfl) rfl le_rfl
  have logged {fds : Fds} (held : Held { s with fds }) (obj : FdObject) : Held { s with fds := fds.logRelease o obj } :=
    held.kept (fun isEnd => ⟨isEnd.1, isEnd.2, isEnd.3, isEnd.4⟩) rfl le_rfl
  refine logged ?_ _
  unfold fdResourceRelease
  have plain (fds : Fds) (objects : fds.fdObjects = s.fds.fdObjects) (pool : fds.pipePool = s.fds.pipePool)
      (born : fds.born = s.fds.born) : Held { s with fds := fds.setObject o .zero } := by
    refine held.kept (fun isEnd => ?_) pool born.ge
    have placed : (fds.setObject o .zero).fdObjects = Function.update s.fds.fdObjects o .zero := by
      rw [← objects]
      rfl
    exact (isEnd_place placed (.inl rfl) isEnd).2
  split
  · rename_i type
    split
    · refine held.close ⟨?_, type, rfl, rfl⟩
      simp only [Bool.or_eq_true, Bool.not_eq_true', not_or, Bool.not_eq_false] at live
      exact live.1
    · exact plain _ rfl rfl rfl
  · split
    · exact plain _ rfl rfl rfl
    · exact plain _ rfl rfl rfl
  · exact plain _ rfl rfl rfl

theorem Held.makePipe (held : Held s) {objR objW : Nat} (free : (s.fds.pipePool place).inUse = false)
    (unawaited : Unawaited s place) (unused : (s.fds.fdObjects objR).inUse = false)
    (unusedW : ((s.fds.makeObject objR (pipeObject place .read)).fdObjects objW).inUse = false) :
    Held { s with
      fds := (((s.fds.makeObject objR (pipeObject place .read)).makeObject objW (pipeObject place .write)).setPipe place
        (.new s.fds.born)) } := by
  generalize made : ((s.fds.makeObject objR (pipeObject place .read)).makeObject objW (pipeObject place .write)).setPipe
    place (.new s.fds.born) = fds
  have born : fds.born = s.fds.born + 2 := by
    rw [← made]
    rfl
  have here : fds.pipePool place = .new s.fds.born := by
    rw [← made]
    exact Function.update_self ..
  have elsewhere (other : Nat) (differ : other ≠ place) : fds.pipePool other = s.fds.pipePool other := by
    rw [← made]
    exact Function.update_of_ne differ ..
  -- Every end is one of the two, or one of before at another place.
  have ends {o p : Nat} {e : PipeEnd} (isEnd : IsEnd fds o p e) :
      (p = place ∧ o = if e = .read then objR else objW) ∨ (p ≠ place ∧ IsEnd s.fds o p e) := by
    obtain ⟨used, type, pipe, pipeEnd⟩ := isEnd
    rw [← made] at used type pipe pipeEnd
    dsimp only [Fds.makeObject, Fds.setPipe] at used type pipe pipeEnd
    by_cases isW : o = objW
    · subst isW
      rw [Function.update_self] at pipe pipeEnd
      subst pipe pipeEnd
      exact .inl ⟨rfl, rfl⟩
    rw [Function.update_of_ne isW] at used type pipe pipeEnd
    by_cases isR : o = objR
    · subst isR
      rw [Function.update_self] at pipe pipeEnd
      subst pipe pipeEnd
      exact .inl ⟨rfl, rfl⟩
    rw [Function.update_of_ne isR] at used type pipe pipeEnd
    have old : IsEnd s.fds o p e := ⟨used, type, pipe, pipeEnd⟩
    refine .inr ⟨?_, old⟩
    rintro rfl
    rw [(held.ends old).1] at free
    cases free
  refine ⟨fun p => ?_, fun p unused => ?_, fun p used => ?_, fun p p' used used' same => ?_, fun {o p e} isEnd => ?_,
    fun {o o' p e} isEnd isEnd' => ?_, fun p used => ?_, fun birth later => held.fresh birth ?_, held.inOrder,
    fun task waiter waits => ?_⟩
  all_goals dsimp only at *
  · by_cases same : p = place
    · rw [same, here]
      exact ⟨zero_placed.inside, zero_placed.bound, zero_placed.next⟩
    · rw [elsewhere p same]
      exact held.placed p
  · by_cases same : p = place
    · rw [same, here]
      rfl
    · rw [elsewhere p same] at unused ⊢
      exact held.unused p unused
  · rw [born]
    by_cases same : p = place
    · rw [same, here]
      exact Nat.lt_add_of_pos_right (by decide)
    · rw [elsewhere p same] at used ⊢
      exact (held.young p used).trans_le (Nat.le_add_right _ _)
  · by_cases isP : p = place <;> by_cases isP' : p' = place
    · rw [isP, isP']
    · rw [elsewhere p' isP'] at used' same
      rw [isP, here] at same
      exact absurd (held.young p' used') (same ▸ Nat.lt_irrefl s.fds.born)
    · rw [elsewhere p isP] at used same
      rw [isP', here] at same
      exact absurd (held.young p used) (same ▸ Nat.lt_irrefl s.fds.born)
    · rw [elsewhere p isP] at used same
      rw [elsewhere p' isP'] at used' same
      exact held.apart p p' used used' same
  · rcases ends isEnd with ⟨same, _⟩ | ⟨differ, old⟩
    · rw [same, here]
      cases e <;> exact ⟨rfl, Nat.one_pos⟩
    · rw [elsewhere p differ]
      exact held.ends old
  · rcases ends isEnd with ⟨same, is⟩ | ⟨differ, old⟩
    · rcases ends isEnd' with ⟨_, is'⟩ | ⟨differ', _⟩
      · rw [is, is']
      · exact absurd same differ'
    · rcases ends isEnd' with ⟨same', _⟩ | ⟨_, old'⟩
      · exact absurd same' differ
      · exact held.single old old'
  · by_cases same : p = place
    · rw [same, here]
      obtain ⟨noneIn, noneOut⟩ := held.fresh s.fds.born le_rfl
      show s.bytes s.fds.born = s.read s.fds.born ++ []
      rw [noneIn, noneOut]
      rfl
    · rw [elsewhere p same] at used ⊢
      exact held.contents p used
  · rw [born] at later
    omega
  · obtain ⟨inside, old, same, untouched⟩ := held.waiting task waiter waits
    have differ : waiter.place ≠ place := by
      have awaited := unawaited task inside
      rw [waits] at awaited
      simpa using awaited
    refine ⟨inside, ?_, fun used => ?_, untouched⟩
    · show waiter.birth < fds.born
      omega
    · have used : (fds.pipePool waiter.place).inUse = true := used
      show (fds.pipePool waiter.place).birth = waiter.birth
      rw [elsewhere _ differ] at used ⊢
      exact same used

theorem held_closed (s : Traffic) : Closed (fun fds => Held { s with fds }) (Unawaited s) where
  make {fds o obj} held _ unused _ _ plain :=
    held.kept (fun isEnd => isEnd_make isEnd plain) rfl (Nat.le_succ _)
  makePipe {fds objR objW place} held free unawaited unused unusedW := by
    have free := List.find?_some free
    exact held.makePipe (by simpa using free) unawaited unused unusedW
  makeEpoll {fds o place} held _ _ _ := by
    refine held.kept (fun isEnd => ?_) rfl (Nat.le_succ _)
    obtain ⟨used, type, pipe, pipeEnd⟩ := isEnd_make isEnd nofun
    exact ⟨used, type, pipe, pipeEnd⟩
  attach {fds idx fd o} held _ _ cloexec := by
    unfold fdAttachObject
    dsimp only
    split
    · exact held
    · have counted : Held { s with fds := fds.setObject o { fds.fdObjects o with refcount := (fds.fdObjects o).refcount + 1 } } :=
        held.kept (fun isEnd => isEnd_set isEnd id rfl rfl rfl) rfl le_rfl
      exact counted.kept (fun isEnd => ⟨isEnd.1, isEnd.2, isEnd.3, isEnd.4⟩) rfl le_rfl
  release {fds idx fd} held := by
    unfold fdReleaseSlot
    split
    · exact held
    · rename_i o _
      exact (held.objectPut o).kept (fun isEnd => ⟨isEnd.1, isEnd.2, isEnd.3, isEnd.4⟩) rfl le_rfl
  waits held := held.kept (fun isEnd => ⟨isEnd.1, isEnd.2, isEnd.3, isEnd.4⟩) rfl le_rfl
  clear held := held.kept (fun isEnd => ⟨isEnd.1, isEnd.2, isEnd.3, isEnd.4⟩) rfl le_rfl

theorem Held.move (held : Held s) {s' : Traffic} {birth : Nat} {pipe : Pipe}
    (same : (s.fds.pipePool place).SameEnds pipe) (placed : pipe.Placed) (empty : pipe.inUse = false → pipe.size = 0)
    (fds : s'.fds = s.fds.setPipe place pipe) (old : birth < s.fds.born)
    (mine : (s.fds.pipePool place).inUse = true → (s.fds.pipePool place).birth = birth)
    (others : ∀ other, other ≠ birth ∨ (s.fds.pipePool place).inUse = false →
      s'.bytes other = s.bytes other ∧ s'.read other = s.read other)
    (contents : (s.fds.pipePool place).inUse = true → s'.bytes birth = s'.read birth ++ pipe.contents)
    (inOrder : s'.read birth <+: s'.bytes birth)
    (waiters : ∀ task waiter, s'.waiters task = some waiter → s.waiters task = some waiter ∨
      (task < schedMaxTasks ∧ waiter.place = place ∧ waiter.birth = birth ∧
        ∀ count got, waiter.work = .read count got → got = [] ∧ 0 < count)) : Held s' := by
  have born : s'.fds.born = s.fds.born := by rw [fds]; rfl
  have here : s'.fds.pipePool place = pipe := by
    rw [fds]
    exact Function.update_self ..
  have elsewhere (other : Nat) (differ : other ≠ place) : s'.fds.pipePool other = s.fds.pipePool other := by
    rw [fds]
    exact Function.update_of_ne differ ..
  have pool (p : Nat) : (s'.fds.pipePool p).inUse = (s.fds.pipePool p).inUse ∧
      (s'.fds.pipePool p).birth = (s.fds.pipePool p).birth ∧ ∀ e, holders (s'.fds.pipePool p) e = holders (s.fds.pipePool p) e := by
    by_cases isHere : p = place
    · rw [isHere, here]
      refine ⟨same.inUse, same.birth, fun e => ?_⟩
      cases e
      · exact same.readers
      · exact same.writers
    · rw [elsewhere p isHere]
      exact ⟨rfl, rfl, fun _ => rfl⟩
  have isEnd {o p : Nat} {e : PipeEnd} (isEnd : IsEnd s'.fds o p e) : IsEnd s.fds o p e := by
    rw [fds] at isEnd
    exact ⟨isEnd.1, isEnd.2, isEnd.3, isEnd.4⟩
  refine ⟨fun p => ?_, fun p unused => ?_, fun p used => ?_, fun p p' used used' equal => ?_, fun {o p e} isEnd' => ?_,
    fun isEnd' isEnd'' => held.single (isEnd isEnd') (isEnd isEnd''), fun p used => ?_, fun b later => ?_, fun b => ?_,
    fun task waiter waits => ?_⟩
  · by_cases isHere : p = place
    · rw [isHere, here]
      exact placed
    · rw [elsewhere p isHere]
      exact held.placed p
  · by_cases isHere : p = place
    · rw [isHere, here] at unused ⊢
      exact empty unused
    · rw [elsewhere p isHere] at unused ⊢
      exact held.unused p unused
  · rw [(pool p).1] at used
    rw [(pool p).2.1, born]
    exact held.young p used
  · rw [(pool p).1] at used
    rw [(pool p').1] at used'
    rw [(pool p).2.1, (pool p').2.1] at equal
    exact held.apart p p' used used' equal
  · rw [(pool p).1, (pool p).2.2]
    exact held.ends (isEnd isEnd')
  · rw [(pool p).1] at used
    by_cases isHere : p = place
    · subst isHere
      rw [(pool p).2.1, mine used, here]
      exact contents used
    · -- No other pipe in use has the birth of this one.
      rw [elsewhere p isHere]
      have differ : (s.fds.pipePool p).birth ≠ birth ∨ (s.fds.pipePool place).inUse = false := by
        by_cases used' : (s.fds.pipePool place).inUse = true
        · exact .inl fun equal => isHere (held.apart p place used used' (equal.trans (mine used').symm))
        · exact .inr (by simpa using used')
      rw [(others _ differ).1, (others _ differ).2]
      exact held.contents p used
  · rw [born] at later
    have differ : b ≠ birth := by omega
    rw [(others b (.inl differ)).1, (others b (.inl differ)).2]
    exact held.fresh b later
  · by_cases isBirth : b = birth
    · rw [isBirth]
      exact inOrder
    · rw [(others b (.inl isBirth)).1, (others b (.inl isBirth)).2]
      exact held.inOrder b
  · rcases waiters task waiter waits with before | ⟨inside, isPlace, isBirth, untouched⟩
    · obtain ⟨inside, young, equal, untouched⟩ := held.waiting task waiter before
      refine ⟨inside, born ▸ young, fun used => ?_, untouched⟩
      rw [(pool _).1] at used
      rw [(pool _).2.1]
      exact equal used
    · refine ⟨inside, ?_, fun used => ?_, untouched⟩
      · rw [isBirth, born]
        exact old
      · rw [isPlace] at used ⊢
        rw [(pool _).1] at used
        rw [(pool _).2.1, isBirth]
        exact mine used

variable {task count put : Nat} {waiter : Waiter} {pending stored resumed : Bool}

theorem bytes_logWritten (s : Traffic) (birth number : Nat) (bytes : List UInt8) (other : Nat) :
    (s.logWritten birth number bytes).bytes other = s.bytes other ++ if other = birth then bytes else [] := by
  unfold Traffic.bytes Traffic.logWritten
  dsimp only
  by_cases here : other = birth
  · subst here
    rw [Function.update_self, if_pos rfl, List.map_append, List.map_map]
    congr 1
    exact List.map_id _
  · rw [Function.update_of_ne here, if_neg here, List.append_nil]

theorem read_logRead (s : Traffic) (birth : Nat) (bytes : List UInt8) (other : Nat) :
    (s.logRead birth bytes).read other = s.read other ++ if other = birth then bytes else [] := by
  unfold Traffic.logRead
  dsimp only
  by_cases here : other = birth
  · subst here
    rw [Function.update_self, if_pos rfl]
  · rw [Function.update_of_ne here, if_neg here, List.append_nil]

theorem setWaiter_waits {s : Traffic} {waits : Option Waiter} {other : Nat} {found : Waiter}
    (isThere : (s.setWaiter task waits).waiters other = some found) :
    (other ≠ task ∧ s.waiters other = some found) ∨ (other = task ∧ waits = some found) := by
  dsimp only [Traffic.setWaiter] at isThere
  by_cases same : other = task
  · rw [same, Function.update_self] at isThere
    exact .inr ⟨same, isThere⟩
  · rw [Function.update_of_ne same] at isThere
    exact .inl ⟨same, isThere⟩

theorem Held.noEnd (held : Held s) {pipeEnd : PipeEnd} (none : holders (s.fds.pipePool place) pipeEnd = 0) (o : Nat) :
    ¬ IsEnd s.fds o place pipeEnd := by
  intro isEnd
  have some := (held.ends isEnd).2
  omega

theorem Held.readRound (held : Held s) (waiting : Waiting s task waiter) (positive : 0 < count)
    (storable : Storable s waiter.place stored) :
    Held (readRound s task waiter count [] pending stored).1 ∧
      (readRound s task waiter count [] pending stored).2.Honest s := by
  obtain ⟨n, rfl⟩ := Nat.exists_eq_succ_of_ne_zero positive.ne'
  obtain ⟨inside, old, mine, _⟩ := waiting
  unfold Pipes.readRound
  rw [List.length_nil, Nat.sub_zero]
  by_cases empty : (s.fds.pipePool waiter.place).size = 0
  · obtain ⟨ending, ran, closed⟩ := fdPipeRead_empty (nonblocking s.fds waiter.obj) pending n empty
    rw [ran]
    -- Nothing has moved, whether the call goes on later or not.
    have still {s' : Traffic} (fds : s'.fds = s.fds.setPipe waiter.place (s.fds.pipePool waiter.place))
        (same : ∀ other, s'.bytes other = s.bytes other ∧ s'.read other = s.read other)
        (waiters : ∀ task' waiter', s'.waiters task' = some waiter' → s.waiters task' = some waiter' ∨
          (task' < schedMaxTasks ∧ waiter'.place = waiter.place ∧ waiter'.birth = waiter.birth ∧
            ∀ count got, waiter'.work = .read count got → got = [] ∧ 0 < count)) : Held s' := by
      refine held.move .rfl (held.placed _) (held.unused _) fds old mine (fun other _ => same other) (fun used => ?_) ?_
        waiters
      · rw [(same _).1, (same _).2, ← mine used]
        exact held.contents _ used
      · rw [(same _).1, (same _).2]
        exact held.inOrder _
    cases ending with
    | returns =>
      dsimp only
      rw [if_neg fun both => both.1 rfl]
      refine ⟨still rfl (fun other => ⟨rfl, ?_⟩) fun task' waiter' waits => ?_, empty, held.noEnd (closed rfl)⟩
      · rw [read_logRead, ite_self, List.append_nil]
        rfl
      · rcases setWaiter_waits waits with ⟨_, before⟩ | ⟨_, none⟩
        · exact .inl before
        · cases none
    | fails error =>
      refine ⟨still rfl (fun _ => ⟨rfl, rfl⟩) fun task' waiter' waits => ?_, trivial⟩
      rcases setWaiter_waits waits with ⟨_, before⟩ | ⟨_, none⟩
      · exact .inl before
      · cases none
    | waits =>
      refine ⟨still rfl (fun _ => ⟨rfl, rfl⟩) fun task' waiter' waits => ?_, trivial⟩
      rcases setWaiter_waits waits with ⟨_, before⟩ | ⟨isTask, same⟩
      · exact .inl before
      · cases same
        refine .inr ⟨isTask ▸ inside, rfl, rfl, fun count got work => ?_⟩
        cases work
        exact ⟨rfl, positive⟩
  · obtain ⟨taken, pipe, ran, nonempty, contents, placed, same⟩ :=
      fdPipeRead_filled (nonblocking s.fds waiter.obj) pending n [] (held.placed _) empty
    have used : (s.fds.pipePool waiter.place).inUse = true := by
      by_contra unused
      exact empty (held.unused _ (by simpa using unused))
    rw [ran]
    dsimp only
    rw [List.nil_append, if_neg fun both => by simpa [both.2] using storable.resolve_right empty]
    have entered := held.contents _ used
    rw [mine used, contents, ← List.append_assoc] at entered
    refine ⟨held.move same placed (fun unused => ?_) rfl old mine (fun other apart => ?_) (fun _ => ?_) ?_
      fun task' waiter' waits => ?_, ?_⟩
    · rw [same.inUse, used] at unused
      cases unused
    · have differ : other ≠ waiter.birth := apart.resolve_right (by simp [used])
      rw [read_logRead, if_neg differ, List.append_nil]
      exact ⟨rfl, rfl⟩
    · rw [read_logRead, if_pos rfl]
      exact entered
    · rw [read_logRead, if_pos rfl]
      exact ⟨pipe.contents, entered.symm⟩
    · rcases setWaiter_waits waits with ⟨_, before⟩ | ⟨_, none⟩
      · exact .inl before
      · cases none
    · cases taken with
      | nil => exact absurd rfl nonempty
      | cons => trivial

theorem writeRound_spec (s : Traffic) (task : Nat) (waiter : Waiter) (data : List UInt8) (put : Nat) (pending resumed : Bool)
    (placed : (s.fds.pipePool waiter.place).Placed) : ∃ sent rest pipe ending,
      writeRound s task waiter data put pending resumed =
        writeEnds ((s.setPipe waiter.place pipe).logWritten waiter.birth waiter.number sent) task waiter data
          (put + sent.length) ending ∧
      data.drop put = sent ++ rest ∧ pipe.contents = (s.fds.pipePool waiter.place).contents ++ sent ∧ pipe.Placed ∧
      (s.fds.pipePool waiter.place).SameEnds pipe ∧ (∀ error, ending = .fails error → put + sent.length = 0) ∧
      (ending = .fails .epipe → (s.fds.pipePool waiter.place).readers = 0) := by
  obtain ⟨sent, rest, pipe, ending, ran, split, others⟩ :=
    fdPipeWrite_spec (nonblocking s.fds waiter.obj) pending resumed (data.drop put) put placed
  refine ⟨sent, rest, pipe, ending, ?_, split, others⟩
  have moved : (data.drop put).take (put + sent.length - put) = sent := by
    rw [split, Nat.add_sub_cancel_left, List.take_left]
  unfold writeRound
  rw [ran]
  dsimp only
  rw [moved]

theorem writeEnds_spec (s : Traffic) (task : Nat) (waiter : Waiter) (data : List UInt8) (put : Nat) (ending : Ending) :
    (writeEnds s task waiter data put ending).1.fds = s.fds ∧ (writeEnds s task waiter data put ending).1.written = s.written ∧
      (writeEnds s task waiter data put ending).1.read = s.read ∧
      ∀ task' waiter', (writeEnds s task waiter data put ending).1.waiters task' = some waiter' →
        (task' ≠ task ∧ s.waiters task' = some waiter') ∨
          (task' = task ∧ waiter' = { waiter with work := .write data put } ∧ ending = .waits) := by
  cases ending with
  | waits =>
    refine ⟨rfl, rfl, rfl, fun task' waiter' waits => (setWaiter_waits waits).imp_right fun both => ⟨both.1, ?_, rfl⟩⟩
    cases both.2
    rfl
  | fails error =>
    refine ⟨rfl, rfl, rfl, fun task' waiter' waits => .inl ((setWaiter_waits waits).resolve_right ?_)⟩
    exact fun both => nomatch both.2
  | returns =>
    refine ⟨rfl, rfl, rfl, fun task' waiter' waits => .inl ((setWaiter_waits waits).resolve_right ?_)⟩
    exact fun both => nomatch both.2

theorem Held.writeRound (held : Held s) (waiting : Waiting s task waiter) (data : List UInt8) (put : Nat)
    (used : (s.fds.pipePool waiter.place).inUse = true) :
    Held (writeRound s task waiter data put pending resumed).1 ∧
      (writeRound s task waiter data put pending resumed).2.Honest s := by
  obtain ⟨inside, old, mine, _⟩ := waiting
  obtain ⟨sent, rest, pipe, ending, ran, _, contents, placed, same, _, closed⟩ :=
    writeRound_spec s task waiter data put pending resumed (held.placed _)
  rw [ran]
  generalize moved : (s.setPipe waiter.place pipe).logWritten waiter.birth waiter.number sent = middle
  obtain ⟨fds, written, read, waiters⟩ := writeEnds_spec middle task waiter data (put + sent.length) ending
  have bytes (other : Nat) : (writeEnds middle task waiter data (put + sent.length) ending).1.bytes other =
      s.bytes other ++ if other = waiter.birth then sent else [] := by
    unfold Traffic.bytes
    rw [written, ← moved]
    exact bytes_logWritten (s.setPipe waiter.place pipe) _ _ _ _
  have reads : (writeEnds middle task waiter data (put + sent.length) ending).1.read = s.read := by
    rw [read, ← moved]
    rfl
  have entered := held.contents _ used
  rw [mine used] at entered
  refine ⟨held.move same placed (fun unused => ?_) ?_ old mine (fun other apart => ?_) (fun _ => ?_) ?_
    fun task' waiter' waits => ?_, ?_⟩
  · rw [same.inUse, used] at unused
    cases unused
  · rw [fds, ← moved]
    rfl
  · have differ : other ≠ waiter.birth := apart.resolve_right (by simp [used])
    rw [bytes, if_neg differ, List.append_nil, reads]
    exact ⟨rfl, rfl⟩
  · rw [bytes, if_pos rfl, reads, entered, contents, List.append_assoc]
  · rw [bytes, reads]
    exact (held.inOrder _).trans (List.prefix_append _ _)
  · rcases waiters task' waiter' waits with ⟨_, before⟩ | ⟨isTask, isWaiter, _⟩
    · rw [← moved] at before
      exact .inl before
    · rw [isTask, isWaiter]
      exact .inr ⟨inside, rfl, rfl, nofun⟩
  · cases ending with
    | waits => trivial
    | returns => trivial
    | fails error =>
      by_cases broken : error = .epipe
      · subst broken
        exact held.noEnd (closed rfl)
      · cases error <;> trivial

theorem Held.newWaiter (held : Held s) {work : Work} (inside : task < schedMaxTasks)
    (used : (s.fds.pipePool (s.fds.fdObjects o).pipe).inUse = true)
    (untouched : ∀ count got, work = .read count got → got = [] ∧ 0 < count) : Waiting s task (s.waiter o work) :=
  ⟨inside, held.young _ used, fun _ => rfl, untouched⟩

theorem Held.counted (held : Held s) (numbers : Nat) : Held { s with numbers } :=
  ⟨held.placed, held.unused, held.young, held.apart, held.ends, held.single, held.contents, held.fresh, held.inOrder,
    fun task waiter waits =>
      let ⟨inside, old, same, untouched⟩ := held.waiting task waiter waits
      ⟨inside, old, same, untouched⟩⟩

theorem Held.endWait (held : Held s) (task : Nat) : Held (s.setWaiter task none) := by
  refine ⟨held.placed, held.unused, held.young, held.apart, held.ends, held.single, held.contents, held.fresh, held.inOrder,
    fun task' waiter waits => ?_⟩
  rcases setWaiter_waits waits with ⟨_, before⟩ | ⟨_, none⟩
  · obtain ⟨inside, old, same, untouched⟩ := held.waiting task' waiter before
    exact ⟨inside, old, same, untouched⟩
  · cases none

theorem Held.setfl (held : Held s) (idx fd : Nat) (arg : UInt16) : Held { s with fds := sysFcntlSetfl s.fds idx fd arg } := by
  unfold sysFcntlSetfl
  split
  · exact held
  · exact held.kept (fun isEnd => isEnd_set isEnd id rfl rfl rfl) rfl le_rfl

theorem Held.fionbio (held : Held s) (idx fd : Nat) (enable : Bool) :
    Held { s with fds := sysIoctlFionbio s.fds idx fd enable } := by
  unfold sysIoctlFionbio
  split
  · exact held
  · exact held.kept (fun isEnd => isEnd_set isEnd id rfl rfl rfl) rfl le_rfl

theorem Held.sysRead (held : Held s) {buffer : Except Errno Unit} (inside : task < schedMaxTasks)
    (careful : Careful s (.read task idx fd buffer count pending stored)) :
    Held (sysRead s task idx fd buffer count pending stored).1 ∧
      (sysRead s task idx fd buffer count pending stored).2.Honest s := by
  unfold Pipes.sysRead
  split
  · exact ⟨held, trivial⟩
  rename_i o found
  split
  · exact ⟨held, trivial⟩
  rename_i wanted
  split
  · exact ⟨held, trivial⟩
  split
  · exact ⟨held, trivial⟩
  split
  · exact ⟨held, trivial⟩
  rename_i ready
  have used : (s.fds.pipePool (s.fds.fdObjects o).pipe).inUse = true := by
    by_contra unused
    exact ready (.inr (by simpa using unused))
  have positive : 0 < min count transferMax := lt_min (Nat.pos_of_ne_zero wanted) (by decide)
  have waiting := @held.newWaiter _ _ _ (.read (min count transferMax) []) inside used fun count got work => by
    cases work
    exact ⟨rfl, positive⟩
  have storable : Storable s (s.fds.fdObjects o).pipe stored := by
    simp only [Careful, found, Option.all_some, decide_eq_true_eq] at careful
    exact careful
  exact (held.counted (s.numbers + 1)).readRound ⟨waiting.1, waiting.2, waiting.3, waiting.4⟩ positive storable

theorem Held.sysWrite (held : Held s) {buffer : Except Errno (List UInt8)} (inside : task < schedMaxTasks) :
    Held (sysWrite s task idx fd buffer pending).1 ∧ (sysWrite s task idx fd buffer pending).2.Honest s := by
  unfold Pipes.sysWrite
  split
  · exact ⟨held, trivial⟩
  rename_i o found
  split
  · exact ⟨held, trivial⟩
  rename_i data
  split
  · exact ⟨held, trivial⟩
  split
  · exact ⟨held, trivial⟩
  split
  · exact ⟨held, trivial⟩
  rename_i ready
  have used : (s.fds.pipePool (s.fds.fdObjects o).pipe).inUse = true := by
    by_contra unused
    exact ready (.inr (by simpa using unused))
  have waiting := @held.newWaiter _ _ _ (.write (data.take transferMax) 0) inside used nofun
  exact (held.counted (s.numbers + 1)).writeRound ⟨waiting.1, waiting.2, waiting.3, waiting.4⟩ _ 0 used

theorem Held.resume (held : Held s) (careful : Careful s (.resume task pending stored)) :
    Held (resume s task pending stored).1 ∧ (resume s task pending stored).2.Honest s := by
  unfold Pipes.resume
  split
  · exact ⟨held, trivial⟩
  rename_i waiter waits
  have waiting := held.waiting task waiter waits
  simp only [Careful, waits, Option.all_some] at careful
  split
  · rename_i count got work
    obtain ⟨rfl, positive⟩ := waiting.untouched count got work
    rw [work] at careful
    exact held.readRound waiting positive (by simpa using careful)
  · rename_i data put work
    rw [work] at careful
    exact held.writeRound waiting data put careful

theorem Held.step (held : Held s) {op : Op} (careful : Careful s op) : Held (op.step s).1 ∧ (op.step s).2.Honest s := by
  cases op with
  | fds op =>
    simp only [Op.step]
    split
    · rename_i inside
      refine ⟨(held_closed s).after held inside (fun idx stored isPipe place free => ?_) fun idx epfd command fd ev _ => ?_,
        trivial⟩
      · subst isPipe
        simpa [Careful, free] using careful
      · rcases sysEpollCtl_spec s.fds idx epfd command fd ev with same | ⟨_, _, _, _, _, _, _, same, _⟩
        · rw [same]
          exact held
        · rw [same]
          exact held.kept (fun isEnd => ⟨isEnd.1, isEnd.2, isEnd.3, isEnd.4⟩) rfl le_rfl
    · exact ⟨held, trivial⟩
  | fcntlSetfl idx fd arg => exact ⟨held.setfl idx fd arg, trivial⟩
  | ioctlFionbio idx fd enable => exact ⟨held.fionbio idx fd enable, trivial⟩
  | read task idx fd buffer count pending stored =>
    simp only [Op.step]
    split
    · rename_i inside
      exact held.sysRead inside.1 careful
    · exact ⟨held, trivial⟩
  | write task idx fd buffer pending =>
    simp only [Op.step]
    split
    · rename_i inside
      exact held.sysWrite inside.1
    · exact ⟨held, trivial⟩
  | resume task pending stored => exact held.resume careful
  | kill task => exact ⟨held.endWait task, trivial⟩

theorem held_boot : Held boot where
  placed _ := zero_placed
  unused _ _ := rfl
  young _ := nofun
  apart _ _ := nofun
  ends isEnd := nomatch isEnd.inUse
  single isEnd := nomatch isEnd.inUse
  contents _ := nofun
  fresh _ _ := ⟨rfl, rfl⟩
  inOrder _ := List.prefix_refl _
  waiting _ _ := nofun

end

end Enlil.Fd.Pipes
