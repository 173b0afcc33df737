import Enlil.Ext4.JournalWrites

/-! One pass over the calls that go through the caches, for every property their single steps keep. -/

namespace Enlil.Ext4

open Machine

/-- What holds after a call that gave a value, and after one that failed. -/
def Kept {α : Type} (I E : State → Prop) : Except Errno α → State → Prop
  | .ok _, s => I s
  | .error _, s => E s

/-- What holds after bytes were read, by what came of it. -/
def KeptBytes (I E : State → Prop) : Except Errno (Except Errno Unit × Bytes) → State → Prop
  | .ok (.ok _, _), s => I s
  | .ok (.error _, _), s => E s
  | .error _, s => E s

/--
A property that every single step of the caches keeps.

A failed transfer into a slot may leave less.
-/
structure Stable (v : Volume) (I E : State → Prop) : Prop where
  weaken : ∀ {s}, I s → E s
  tick : ∀ {s}, I s → I { s with tick := s.tick + 1 }
  touch : ∀ {s i}, I s → I (touchBlock i s)
  fill : ∀ {s i blockNo}, I s → ¬ ((s.blocks i).valid = true ∧ (s.blocks i).dirty = true) →
    I (fillBlock i blockNo true (s.disk (v.sector blockNo)) s)
  torn : ∀ {s i blockNo garbage}, I s → ¬ ((s.blocks i).valid = true ∧ (s.blocks i).dirty = true) →
    E (fillBlock i blockNo false garbage s)
  txn : ∀ {s txn}, I s → (∀ entry ∈ s.txn, ∃ entry' ∈ txn, entry'.targetBlock = entry.targetBlock) →
    (s.txn.length ≤ journalMaxTxBlocks → txn.length ≤ journalMaxTxBlocks) → I { s with txn := txn }
  checksum : ∀ {s i}, I s → I (s.setInode i (inodeRawUpdateChecksum v (s.inodes i)))

/-- What the caches rely on when they commit before a refill. -/
def Commits (lost : Prop) (I E : State → Prop) (commit : Call Unit) : Prop :=
  ∀ s, I s → wp lost commit (Kept (fun s' => I s' ∧ Clean s') E) s

section

variable {v : Volume} {lost : Prop} {commit : Call Unit} {I E : State → Prop} {s : State}

theorem Stable.rawBlockRead (stable : Stable v I E) {blockNo : Nat} (holds : I s) :
    wp lost (rawBlockRead v blockNo) (Kept I E) s := by
  simp only [Ext4.rawBlockRead, blkReadSync, wp_bind, wp_get, wp_modify]
  cases v.device.readFault s.tick with
  | none => simpa [Kept] using stable.tick holds
  | some garbage => simpa [Kept] using stable.weaken (stable.tick holds)

theorem Stable.refillBlock (stable : Stable v I E) {i : Fin blockCacheSlots} {blockNo : Nat} (holds : I s)
    (clean : ¬ ((s.blocks i).valid = true ∧ (s.blocks i).dirty = true)) :
    wp lost (refillBlock v i blockNo) (Kept I E) s := by
  simp only [Ext4.refillBlock, blkReadSync, wp_bind, wp_get, wp_modify]
  have ticked := stable.tick holds
  cases v.device.readFault s.tick with
  | none => simpa [Kept] using @stable.fill _ i blockNo ticked clean
  | some garbage => simpa [Kept] using @stable.torn _ i blockNo garbage ticked clean

theorem Commits.evictBlock (commits : Commits lost I E commit)
    {i : Fin blockCacheSlots} (holds : I s) :
    wp lost (evictBlock commit i)
      (Kept (fun s' => I s' ∧ ¬ ((s'.blocks i).valid = true ∧ (s'.blocks i).dirty = true)) E) s := by
  rw [Ext4.evictBlock, wp_bind, wp_get]
  dsimp only
  rw [wp_ite]
  refine ⟨fun _ => ?_, fun clean => ⟨holds, by simpa using clean⟩⟩
  rw [wp_orFail]
  refine wp_mono (commits s holds) fun outcome s' kept => ?_
  cases outcome with
  | ok _ => exact ⟨kept.1, kept.2.1 i⟩
  | error _ => exact kept

theorem Stable.cacheLoad (stable : Stable v I E) (commits : Commits lost I E commit) {blockNo : Nat}
    (holds : I s) : wp lost (cacheLoad v commit blockNo) (Kept I E) s := by
  rw [Ext4.cacheLoad, wp_bind, wp_get]
  dsimp only
  rw [wp_ite]
  refine ⟨fun _ => ?_, fun _ => stable.weaken holds⟩
  cases findBlockSlot s blockNo with
  | some i => exact stable.touch holds
  | none =>
    cases blockVictim s with
    | none => exact stable.weaken holds
    | some i =>
      dsimp only
      rw [wp_bind]
      refine wp_mono (commits.evictBlock holds) fun outcome s' kept => ?_
      cases outcome with
      | ok _ => exact stable.refillBlock kept.1 kept.2
      | error _ => exact kept

theorem Stable.cacheGet (stable : Stable v I E) (commits : Commits lost I E commit) {blockNo : Nat}
    (holds : I s) : wp lost (cacheGet v commit blockNo) (Kept I E) s := by
  rw [Ext4.cacheGet, wp_bind]
  refine wp_mono (stable.cacheLoad commits holds) fun outcome s' kept => ?_
  cases outcome with
  | ok _ => exact kept
  | error _ => exact kept

theorem Stable.readBytesLoop (stable : Stable v I E) (commits : Commits lost I E commit) (fuel : Nat) :
    ∀ {s : State} {offset : Nat} {buf : Bytes} {done count : Nat}, I s →
      wp lost (readBytesLoop v commit offset buf done count fuel) (KeptBytes I E) s := by
  induction fuel with
  | zero => intro s offset buf done count holds; exact holds
  | succ fuel ih =>
    intro s offset buf done count holds
    rw [Ext4.readBytesLoop, wp_ite]
    refine ⟨fun _ => holds, fun _ => ?_⟩
    dsimp only
    rw [wp_bind, wp_attempt]
    refine wp_mono (stable.cacheGet commits holds) fun outcome s' kept => ?_
    cases outcome with
    | ok block => exact ih kept
    | error _ => exact kept

theorem Stable.readBytes (stable : Stable v I E) (commits : Commits lost I E commit) {offset count : Nat}
    {buf : Bytes} (holds : I s) : wp lost (readBytes v commit offset buf count) (KeptBytes I E) s := by
  rw [Ext4.readBytes, wp_bind, wp_get]
  dsimp only
  rw [wp_ite]
  exact ⟨fun _ => stable.readBytesLoop commits count holds, fun _ => stable.weaken holds⟩

theorem Stable.readGroupDesc (stable : Stable v I E) (commits : Commits lost I E commit) {group : Nat}
    (holds : I s) : wp lost (readGroupDesc v commit group) (Kept I E) s := by
  rw [Ext4.readGroupDesc, wp_ite]
  refine ⟨fun _ => stable.weaken holds, fun _ => ?_⟩
  rw [wp_bind]
  refine wp_mono (stable.readBytes commits holds) fun outcome s' kept => ?_
  match outcome, kept with
  | .ok (.ok _, _), kept => exact kept
  | .ok (.error _, _), kept => exact kept
  | .error _, kept => exact kept

theorem Stable.txnSource (stable : Stable v I E) {blockNo : Nat} (holds : I s) :
    wp lost (txnSource v blockNo) (Kept (fun s' => I s' ∧ s'.txn = s.txn) E) s := by
  rw [Ext4.txnSource, wp_bind, wp_get]
  dsimp only
  cases findBlockSlot s blockNo with
  | some i => exact ⟨holds, rfl⟩
  | none =>
    simp only [Ext4.rawBlockRead, blkReadSync, wp_bind, wp_get, wp_modify]
    cases v.device.readFault s.tick with
    | none => simpa [Kept] using stable.tick holds
    | some garbage => simpa [Kept] using stable.weaken (stable.tick holds)

theorem Stable.txnGetOrLoad (stable : Stable v I E) (blockNo : Nat) (holds : I s) :
    wp lost (txnGetOrLoad v blockNo)
      (Kept (fun s' => I s' ∧ ∃ entry ∈ s'.txn, entry.targetBlock = blockNo) E) s := by
  rw [Ext4.txnGetOrLoad, wp_bind, wp_get]
  dsimp only
  cases found : txnFindBlock s.txn blockNo with
  | some idx =>
    obtain ⟨inside, same, _⟩ := List.findIdx?_eq_some_iff_getElem.mp found
    exact ⟨holds, s.txn[idx], List.getElem_mem inside, by simpa using same⟩
  | none =>
    dsimp only
    rw [wp_ite]
    refine ⟨fun _ => stable.weaken holds, fun room => ?_⟩
    rw [wp_bind]
    refine wp_mono (stable.txnSource holds) fun outcome s' kept => ?_
    cases outcome with
    | error _ => exact kept
    | ok data =>
      obtain ⟨holds', same⟩ := kept
      refine ⟨stable.txn holds' (fun entry member => ⟨entry, by simp [member], rfl⟩) fun _ => ?_, ?_⟩
      · simp only [same, List.length_append, List.length_singleton]
        omega
      · exact ⟨⟨blockNo, 0, data⟩, by simp, rfl⟩

theorem setTxnData_targets (idx : Nat) (change : Bytes → Bytes) {entry : TxnEntry} (member : entry ∈ s.txn) :
    ∃ entry' ∈ (setTxnData idx change s).txn, entry'.targetBlock = entry.targetBlock := by
  -- The changed entry keeps its target, and the others are as they were.
  obtain ⟨j, found⟩ := List.getElem?_of_mem member
  have changed := List.getElem?_modify (fun entry : TxnEntry => { entry with data := change entry.data }) idx s.txn j
  rw [found] at changed
  refine ⟨_, List.mem_of_getElem? changed, ?_⟩
  split <;> rfl

theorem Stable.setTxnData (stable : Stable v I E) (idx : Nat) (change : Bytes → Bytes) (holds : I s) :
    I (setTxnData idx change s) :=
  stable.txn holds (fun _ member => setTxnData_targets idx change member) fun small => by simpa using small

theorem Stable.txnApplyInodeRaw (stable : Stable v I E) (fuel : Nat) :
    ∀ {s : State} {offset : Nat} {raw : Bytes} {done rawLen : Nat}, I s →
      wp lost (txnApplyInodeRaw v offset raw done rawLen fuel) (Kept I E) s := by
  induction fuel with
  | zero => intro s offset raw done rawLen holds; exact holds
  | succ fuel ih =>
    intro s offset raw done rawLen holds
    rw [Ext4.txnApplyInodeRaw, wp_ite]
    refine ⟨fun _ => ?_, fun _ => holds⟩
    dsimp only
    rw [wp_bind]
    refine wp_mono (stable.txnGetOrLoad _ holds) fun outcome s' kept => ?_
    cases outcome with
    | error _ => exact kept
    | ok idx => exact ih (stable.setTxnData _ _ kept.1)

theorem Stable.txnAddDirtyInode (stable : Stable v I E) (commits : Commits lost I E commit)
    {i : Fin inodeCacheSlots} (holds : I s) : wp lost (txnAddDirtyInode v commit i) (Kept I E) s := by
  rw [Ext4.txnAddDirtyInode, wp_bind, wp_get]
  dsimp only
  rw [wp_ite]
  refine ⟨fun _ => ?_, fun _ => holds⟩
  rw [wp_bind]
  refine wp_mono (stable.readGroupDesc commits holds) fun outcome s' kept => ?_
  cases outcome with
  | error _ => exact kept
  | ok gd =>
    dsimp only
    rw [wp_bind, wp_modify]
    dsimp only
    rw [wp_bind, wp_get]
    exact stable.txnApplyInodeRaw _ (stable.checksum kept)

/-- Every dirty slot of a list is in the transaction. -/
def Covered (seen : List (Fin blockCacheSlots)) (s : State) : Prop :=
  ∀ i ∈ seen, (s.blocks i).valid = true ∧ (s.blocks i).dirty = true →
    ∃ entry ∈ s.txn, entry.targetBlock = (s.blocks i).blockNo

/-- A slot with something to commit has a given number. -/
def Numbered (i : Fin blockCacheSlots) (blockNo : Nat) (s : State) : Prop :=
  (s.blocks i).valid = true ∧ (s.blocks i).dirty = true → (s.blocks i).blockNo = blockNo

theorem fillBlock_blocks {i j : Fin blockCacheSlots} {blockNo : Nat} {data : Bytes}
    (dirty : ((fillBlock i blockNo true data s).blocks j).valid = true ∧
      ((fillBlock i blockNo true data s).blocks j).dirty = true) :
    (s.blocks j).valid = true ∧ (s.blocks j).dirty = true ∧
      ((fillBlock i blockNo true data s).blocks j).blockNo = (s.blocks j).blockNo := by
  by_cases same : j = i
  · subst same
    simp [fillBlock, touchBlock, State.setBlock] at dirty
  · simpa [fillBlock, touchBlock, State.setBlock, same] using dirty

theorem touchBlock_blocks {i j : Fin blockCacheSlots} :
    ((touchBlock i s).blocks j).valid = (s.blocks j).valid ∧
      ((touchBlock i s).blocks j).dirty = (s.blocks j).dirty ∧
      ((touchBlock i s).blocks j).blockNo = (s.blocks j).blockNo := by
  by_cases same : j = i
  · subst same
    simp [touchBlock, State.setBlock]
  · simp [touchBlock, State.setBlock, same]

theorem Stable.covered (stable : Stable v I E) (seen : List (Fin blockCacheSlots)) :
    Stable v (fun s => I s ∧ Covered seen s) E where
  weaken holds := stable.weaken holds.1
  tick holds := ⟨stable.tick holds.1, holds.2⟩
  touch := by
    intro s i holds
    refine ⟨stable.touch holds.1, fun j member dirty => ?_⟩
    obtain ⟨valid, dirty', number⟩ := touchBlock_blocks (s := s) (i := i) (j := j)
    rw [number]
    exact holds.2 j member (by rwa [valid, dirty'] at dirty)
  fill := by
    intro s i blockNo holds clean
    refine ⟨stable.fill holds.1 clean, fun j member dirty => ?_⟩
    obtain ⟨valid, dirty', number⟩ := fillBlock_blocks dirty
    rw [number]
    exact holds.2 j member ⟨valid, dirty'⟩
  torn holds clean := stable.torn holds.1 clean
  txn := by
    intro s txn holds kept small
    refine ⟨stable.txn holds.1 kept small, fun j member dirty => ?_⟩
    obtain ⟨entry, inTxn, target⟩ := holds.2 j member dirty
    obtain ⟨entry', inTxn', target'⟩ := kept entry inTxn
    exact ⟨entry', inTxn', target'.trans target⟩
  checksum holds := ⟨stable.checksum holds.1, holds.2⟩

theorem Stable.numbered (stable : Stable v I E) (i : Fin blockCacheSlots) (blockNo : Nat) :
    Stable v (fun s => I s ∧ Numbered i blockNo s) E where
  weaken holds := stable.weaken holds.1
  tick holds := ⟨stable.tick holds.1, holds.2⟩
  touch := by
    intro s j holds
    refine ⟨stable.touch holds.1, fun dirty => ?_⟩
    obtain ⟨valid, dirty', number⟩ := touchBlock_blocks (s := s) (i := j) (j := i)
    rw [number]
    exact holds.2 (by rwa [valid, dirty'] at dirty)
  fill := by
    intro s j number holds clean
    refine ⟨stable.fill holds.1 clean, fun dirty => ?_⟩
    obtain ⟨valid, dirty', same⟩ := fillBlock_blocks dirty
    rw [same]
    exact holds.2 ⟨valid, dirty'⟩
  torn holds clean := stable.torn holds.1 clean
  txn holds kept small := ⟨stable.txn holds.1 kept small, holds.2⟩
  checksum holds := ⟨stable.checksum holds.1, holds.2⟩

theorem Commits.covered (commits : Commits lost I E commit) (seen : List (Fin blockCacheSlots)) :
    Commits lost (fun s => I s ∧ Covered seen s) E commit := by
  intro s holds
  refine wp_mono (commits s holds.1) fun outcome s' kept => ?_
  cases outcome with
  | error _ => exact kept
  | ok _ => exact ⟨⟨kept.1, fun i _ dirty => absurd dirty (kept.2.1 i)⟩, kept.2⟩

theorem Stable.txnAddDirtyBlock (stable : Stable v I E) {i : Fin blockCacheSlots}
    {seen : List (Fin blockCacheSlots)} (holds : I s ∧ Covered seen s) :
    wp lost (txnAddDirtyBlock v i) (Kept (fun s' => I s' ∧ Covered (i :: seen) s') E) s := by
  rw [Ext4.txnAddDirtyBlock, wp_bind, wp_get]
  dsimp only
  rw [wp_ite]
  refine ⟨fun _ => ?_, fun clean => ⟨holds.1, fun j member dirty => ?_⟩⟩
  · -- The slot keeps its number while its block joins the transaction.
    have stable' := (stable.covered seen).numbered i (s.blocks i).blockNo
    rw [wp_bind]
    refine wp_mono (stable'.txnGetOrLoad (s.blocks i).blockNo ⟨holds, fun _ => rfl⟩)
      fun outcome s' kept => ?_
    cases outcome with
    | error _ => exact kept
    | ok idx =>
      obtain ⟨⟨⟨kept, covered⟩, numbered⟩, entry, member, target⟩ := kept
      obtain ⟨entry', member', target'⟩ := setTxnData_targets idx
        (fun _ => (s.blocks i).data) member
      have after := (stable.covered seen).setTxnData idx (fun _ => (s.blocks i).data)
        ⟨kept, covered⟩
      refine ⟨after.1, fun j inSeen dirty => ?_⟩
      rcases List.mem_cons.mp inSeen with rfl | old
      · exact ⟨entry', member', (target'.trans target).trans (numbered dirty).symm⟩
      · exact after.2 j old dirty
  · rcases List.mem_cons.mp member with rfl | old
    · simp [dirty] at clean
    · exact holds.2 j old dirty

theorem Stable.txnBuild (stable : Stable v I E) (commits : Commits lost I E commit)
    (start : I { s with txn := [] }) :
    wp lost (txnBuild v commit)
      (Kept (fun s' => I s' ∧ Covered (List.finRange blockCacheSlots) s') E) s := by
  rw [Ext4.txnBuild, wp_bind, wp_modify]
  dsimp only
  rw [wp_bind]
  -- The slots already passed are covered, and loading for the inodes keeps them so.
  refine wp_forEach (fun rest s => I s ∧
    ∃ seen, Covered seen s ∧ ∀ i, i ∈ seen ∨ i ∈ rest) ⟨start, [], by simp [Covered], by simp⟩ ?_ ?_
  · rintro i rest s ⟨holds, seen, covered, all⟩
    refine wp_mono (stable.txnAddDirtyBlock ⟨holds, covered⟩) fun outcome s' kept => ?_
    cases outcome with
    | error _ => exact kept
    | ok _ =>
      refine ⟨kept.1, i :: seen, kept.2, fun j => ?_⟩
      have := all j
      simp only [List.mem_cons] at this ⊢
      tauto
  · rintro s ⟨holds, seen, covered, all⟩
    have every : Covered (List.finRange blockCacheSlots) s := by
      intro i _ dirty
      exact covered i (by simpa using all i) dirty
    refine wp_forEach (fun _ s => I s ∧ Covered (List.finRange blockCacheSlots) s) ⟨holds, every⟩ ?_
      fun s kept => kept
    intro i rest s kept
    refine wp_mono ((stable.covered _).txnAddDirtyInode (commits.covered _) kept) fun outcome s' kept => ?_
    cases outcome with
    | error _ => exact kept
    | ok _ => exact kept

theorem clean_of_hasDirtyInternal (none : hasDirtyInternal s = false) : Clean s := by
  simp only [hasDirtyInternal, Bool.or_eq_false_iff, List.any_eq_false] at none
  exact ⟨fun i => by simpa using none.1 i (List.mem_finRange i),
    fun i => by simpa using none.2 i (List.mem_finRange i)⟩

theorem Stable.flushed (stable : Stable v I E) (holds : I s) (clean : Clean s) :
    wp lost (blkFlushSync v) (Kept (fun s' => I s' ∧ Clean s') E) s := by
  have ticked := stable.tick holds
  simp only [blkFlushSync, wp_bind, wp_get, wp_modify, wp_ite, wp_fail, wp_pure]
  exact ⟨fun _ => stable.weaken ticked, fun _ => ⟨ticked, clean⟩⟩

theorem Stable.commitPending (stable : Stable v I E) (start : ∀ {s}, I s → I { s with txn := [] })
    (through : ∀ s, I s → Covered (List.finRange blockCacheSlots) s →
      wp True (commitTxn v) (Kept (fun s' => I s' ∧ Clean s') E) s) (depth : Nat) :
    Commits True I E (commitPending v depth) := by
  induction depth with
  | zero => intro s _; exact trivial
  | succ depth ih =>
    intro s holds
    rw [Ext4.commitPending, commitStep, wp_bind, wp_get]
    dsimp only
    rw [wp_ite]
    refine ⟨fun _ => stable.weaken holds, fun _ => ?_⟩
    rw [wp_ite]
    refine ⟨fun clean => ?_, fun _ => ?_⟩
    · exact stable.flushed holds (clean_of_hasDirtyInternal (by simpa using clean))
    · rw [wp_ite]
      refine ⟨fun _ => stable.weaken holds, fun _ => ?_⟩
      rw [wp_bind]
      refine wp_mono (stable.txnBuild ih (start holds)) fun outcome s' kept => ?_
      cases outcome with
      | error _ => exact kept
      | ok _ => exact through s' kept.1 kept.2

end

end Enlil.Ext4
