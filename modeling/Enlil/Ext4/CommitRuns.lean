import Enlil.Lib.Run
import Enlil.Ext4.JournalCrash
import Enlil.Ext4.Stable

/-! Runs of a mounted volume, the commits in them, and what a crash leaves of each commit. -/

namespace Enlil.Ext4

open Machine

/-- The calls that other code makes on the caches. -/
inductive Op where
  | get (blockNo : Nat)
  /-- A block got for writing, and the bytes then written. -/
  | update (blockNo : Nat) (change : Bytes → Bytes)
  | load (ino : Nat)
  | mark (ino : Nat) (inode : Bytes)
  | sync

/-- One call, with commits inside it nested at most `depth` deep. -/
def Op.call (v : Volume) (depth : Nat) : Op → Call Unit
  | .get blockNo => do
    let _ ← cacheGet v (commitPending v depth) blockNo
    return ()
  | .update blockNo change => cacheUpdate v (commitPending v depth) blockNo change
  | .load ino => do
    let _ ← loadInode v (commitPending v depth) ino
    return ()
  | .mark ino inode => markInodeDirty (commitPending v depth) ino inode
  | .sync => commitPending v depth

/-- The state after a call that came back, with or without an error. -/
def exec (v : Volume) (s : State) (step : Nat × Op) : Except Unit State :=
  match step.2.call v step.1 s with
  | some (_, s') => .ok s'
  | none => .error ()

theorem exec_ok {v : Volume} {s s' : State} {step : Nat × Op} (returned : exec v s step = .ok s') :
    ∃ outcome, step.2.call v step.1 s = some (outcome, s') := by
  unfold exec at returned
  split at returned
  · rename_i outcome s₁ result
    exact ⟨outcome, by rw [result, Except.ok.inj returned]⟩
  · cases returned

/--
A property that the calls on the caches keep.

It is kept by each single step, and no change of a slot at the end of a call takes more than `J` from it.
-/
structure Steady (v : Volume) (I E J : State → Prop) : Prop extends Stable v I E where
  slots : ∀ {s blocks inodes clock}, I s → J { s with blocks := blocks, inodes := inodes, clock := clock }
  slotsTorn : ∀ {s inodes}, E s → E { s with inodes := inodes }

section

variable {v : Volume} {commit : Call Unit} {I E J : State → Prop} {s : State}

theorem Commits.evictInode (commits : Commits True I E commit) {i : Fin inodeCacheSlots} (holds : I s) :
    wp True (evictInode commit i) (Kept I E) s := by
  rw [Ext4.evictInode, wp_bind, wp_get]
  dsimp only
  rw [wp_ite]
  refine ⟨fun _ => ?_, fun _ => holds⟩
  rw [wp_orFail]
  refine wp_mono (commits s holds) fun outcome s' kept => ?_
  cases outcome with
  | ok _ => exact kept.1
  | error _ => exact kept

theorem Stable.readGroupDescUncached (stable : Stable v I E) {group : Nat} (holds : I s) :
    wp True (readGroupDescUncached v group) (Kept I E) s := by
  rw [Ext4.readGroupDescUncached, wp_ite]
  refine ⟨fun _ => stable.weaken holds, fun _ => ?_⟩
  rw [wp_bind]
  refine wp_mono (stable.rawBlockRead holds) fun outcome s' kept => ?_
  cases outcome with
  | error _ => exact kept
  | ok block =>
    dsimp only
    rw [wp_ite]
    refine ⟨fun _ => kept, fun _ => ?_⟩
    -- The descriptor goes over the end of its block.
    rw [wp_bind]
    refine wp_mono (stable.rawBlockRead kept) fun outcome s' kept => ?_
    cases outcome with
    | error _ => exact kept
    | ok block2 => exact kept

theorem Steady.refillInode (steady : Steady v I E J) (commits : Commits True I E commit)
    {i : Fin inodeCacheSlots} {ino : Nat} (holds : I s) :
    wp True (refillInode v commit i ino) (Kept J E) s := by
  have stable := steady.toStable
  rw [Ext4.refillInode, wp_ite]
  refine ⟨fun _ => stable.weaken holds, fun _ => ?_⟩
  rw [wp_bind, wp_orFail]
  refine wp_mono (stable.readGroupDescUncached holds) fun outcome s₁ kept => ?_
  cases outcome with
  | error _ => exact kept
  | ok gd =>
    dsimp only
    rw [wp_bind]
    refine wp_mono (stable.readBytes commits kept) fun outcome s₂ kept => ?_
    match outcome, kept with
    | .error _, kept => exact kept
    | .ok (.error _, raw), kept => exact steady.slotsTorn (s := s₂) kept
    | .ok (.ok _, raw), kept => exact steady.slots (s := s₂) kept

theorem Steady.loadInode (steady : Steady v I E J) (commits : Commits True I E commit) {ino : Nat}
    (holds : I s) : wp True (loadInode v commit ino) (Kept J E) s := by
  rw [Ext4.loadInode, wp_bind, wp_get]
  dsimp only
  rw [wp_ite]
  refine ⟨fun _ => ?_, fun _ => steady.weaken holds⟩
  cases findInodeSlot s ino with
  | some i => exact steady.slots (s := s) holds
  | none =>
    cases inodeVictim s with
    | none => exact steady.weaken holds
    | some i =>
      dsimp only
      rw [wp_bind]
      refine wp_mono (commits.evictInode holds) fun outcome s' kept => ?_
      cases outcome with
      | error _ => exact kept
      | ok _ => exact steady.refillInode commits kept

theorem Steady.markInodeDirty (steady : Steady v I E J) (commits : Commits True I E commit) {ino : Nat}
    {inode : Bytes} (holds : I s) : wp True (markInodeDirty commit ino inode) (Kept J E) s := by
  rw [Ext4.markInodeDirty, wp_bind, wp_get]
  dsimp only
  cases findInodeSlot s ino with
  | some i => exact steady.slots (s := s) holds
  | none =>
    cases inodeVictim s with
    | none => exact steady.weaken holds
    | some i =>
      dsimp only
      rw [wp_bind]
      refine wp_mono (commits.evictInode holds) fun outcome s' kept => ?_
      cases outcome with
      | error _ => exact kept
      | ok _ => exact steady.slots (s := s') kept

theorem Steady.cacheUpdate (steady : Steady v I E J) (commits : Commits True I E commit) {blockNo : Nat}
    {change : Bytes → Bytes} (holds : I s) : wp True (cacheUpdate v commit blockNo change) (Kept J E) s := by
  rw [Ext4.cacheUpdate, cacheGetMut, wp_bind, wp_bind]
  refine wp_mono (steady.cacheLoad commits holds) fun outcome s' kept => ?_
  cases outcome with
  | error _ => exact kept
  | ok i => exact steady.slots (s := s') kept

theorem Steady.call (steady : Steady v I E J) {depth : Nat} (commits : Commits True I E (commitPending v depth))
    (op : Op) (holds : I s) : wp True (op.call v depth) (Kept J E) s := by
  cases op with
  | get blockNo =>
    rw [Op.call, wp_bind]
    refine wp_mono (steady.cacheGet commits holds) fun outcome s' kept => ?_
    cases outcome with
    | error _ => exact kept
    | ok _ => exact steady.slots kept
  | update blockNo change => exact steady.cacheUpdate commits holds
  | load ino =>
    rw [Op.call, wp_bind]
    refine wp_mono (steady.loadInode commits holds) fun outcome s' kept => ?_
    cases outcome with
    | error _ => exact kept
    | ok _ => exact kept
  | mark ino inode => exact steady.markInodeDirty commits holds
  | sync =>
    refine wp_mono (commits s holds) fun outcome s' kept => ?_
    cases outcome with
    | error _ => exact kept
    | ok _ => exact steady.slots kept.1

end

/-- A commit that came to write its transaction, and the writes it made before it ended or failed. -/
structure Attempt where
  txn : List TxnEntry
  sequence : Nat
  done : List (Nat × Bytes)

/-- The writes an attempt set out to make. -/
def Attempt.plan (v : Volume) (phys : Nat → Nat) (attempt : Attempt) : List (Nat × Bytes) :=
  commitPlan v phys attempt.txn attempt.sequence

/-- The disk after the writes of some attempts. -/
def after (disk : Nat → Bytes) (attempts : List Attempt) : Nat → Bytes := patch disk (attempts.flatMap Attempt.done)

/--
The raw writes since a given state are those of a list of attempts.

Each attempt found a journal that asked for no replay.
-/
structure Logged (v : Volume) (phys : Nat → Nat) (base : State) (attempts : List Attempt) (s : State) : Prop where
  place : s.journal.physBlocks = phys
  ready : s.journal.ready = true
  small : s.txn.length ≤ journalMaxTxBlocks
  log : s.log = base.log ++ attempts.flatMap Attempt.done
  disk : s.disk = after base.disk attempts
  each : ∀ earlier attempt later, attempts = earlier ++ attempt :: later →
    Quiet v phys (after base.disk earlier) ∧ attempt.txn.length ≤ journalMaxTxBlocks ∧
      attempt.done <+: attempt.plan v phys ∧ (v.device.WritesOk → attempt.done = attempt.plan v phys)

/-- The writes since a given state come from attempts, and the journal asks for no replay. -/
def Settled (v : Volume) (phys : Nat → Nat) (base s : State) : Prop :=
  (∃ attempts, Logged v phys base attempts s) ∧ Quiet v phys s.disk

/-- The writes since a given state come from attempts, the last of which may have failed. -/
def Attempted (v : Volume) (phys : Nat → Nat) (base s : State) : Prop :=
  (∃ attempts, Logged v phys base attempts s) ∧ (v.device.WritesOk → Quiet v phys s.disk)

section

variable {v : Volume} {phys : Nat → Nat} {base s : State} {attempts : List Attempt}

theorem Logged.congr {s' : State} (logged : Logged v phys base attempts s) (journal : s'.journal = s.journal)
    (disk : s'.disk = s.disk) (log : s'.log = s.log)
    (small : s.txn.length ≤ journalMaxTxBlocks → s'.txn.length ≤ journalMaxTxBlocks) :
    Logged v phys base attempts s' :=
  ⟨journal ▸ logged.place, journal ▸ logged.ready, small logged.small, log ▸ logged.log, disk ▸ logged.disk,
    logged.each⟩

theorem steady_settled : Steady v (Settled v phys base) (Attempted v phys base) (Settled v phys base) where
  weaken holds := ⟨holds.1, fun _ => holds.2⟩
  tick := fun ⟨⟨attempts, logged⟩, quiet⟩ => ⟨⟨attempts, logged.congr rfl rfl rfl id⟩, quiet⟩
  touch := fun ⟨⟨attempts, logged⟩, quiet⟩ => ⟨⟨attempts, logged.congr rfl rfl rfl id⟩, quiet⟩
  fill := fun ⟨⟨attempts, logged⟩, quiet⟩ _ => ⟨⟨attempts, logged.congr rfl rfl rfl id⟩, quiet⟩
  torn := fun ⟨⟨attempts, logged⟩, quiet⟩ _ => ⟨⟨attempts, logged.congr rfl rfl rfl id⟩, fun _ => quiet⟩
  txn := fun ⟨⟨attempts, logged⟩, quiet⟩ _ small => ⟨⟨attempts, logged.congr rfl rfl rfl small⟩, quiet⟩
  checksum := fun ⟨⟨attempts, logged⟩, quiet⟩ => ⟨⟨attempts, logged.congr rfl rfl rfl id⟩, quiet⟩
  slots := fun ⟨⟨attempts, logged⟩, quiet⟩ => ⟨⟨attempts, logged.congr rfl rfl rfl id⟩, quiet⟩
  slotsTorn := fun ⟨⟨attempts, logged⟩, quiet⟩ => ⟨⟨attempts, logged.congr rfl rfl rfl id⟩, quiet⟩

theorem after_concat {disk : Nat → Bytes} {attempt : Attempt} :
    after disk (attempts ++ [attempt]) = patch (after disk attempts) attempt.done := by
  simp [after, patch_append]

/-- The attempt to commit the transaction a state holds. -/
def State.attempt (s : State) (done : List (Nat × Bytes)) : Attempt := ⟨s.txn, (s.journal.sequence + 1).toNat, done⟩

theorem Logged.commitTxn {lost : Prop} (logged : Logged v phys base attempts s) (quiet : Quiet v phys s.disk) :
    wp lost (commitTxn v) (fun outcome s' =>
      (∃ done, Logged v phys base (attempts ++ [s.attempt done]) s') ∧
        (outcome = .ok () → Quiet v phys s'.disk ∧ Clean s') ∧
        (v.device.WritesOk → outcome = .ok ())) s := by
  have written : wp lost (Ext4.commitTxn v) (Writes v True s _ Clean) s := writes_commitTxn logged.ready logged.small
  refine wp_mono written ?_
  rintro outcome s' ⟨done, cut, disk, log, place, ready, size, all, only⟩
  rw [logged.place] at cut all
  refine ⟨⟨done, ?_⟩, fun ok => ?_, fun writes => only writes trivial⟩
  · refine ⟨place.trans logged.place, ready.trans logged.ready, size ▸ logged.small, ?_, ?_, ?_⟩
    · simp [log, logged.log, State.attempt]
    · rw [after_concat, disk, logged.disk]
      rfl
    · intro earlier attempt later split
      rcases split_concat split with ⟨rfl, rfl⟩ | ⟨later', before⟩
      · rw [← logged.disk]
        exact ⟨quiet, logged.small, cut, fun writes => (all (only writes trivial)).1⟩
      · exact logged.each earlier attempt later' before
  · obtain ⟨rfl, clean⟩ := all ok
    exact ⟨disk ▸ commitPlan_quiet, clean⟩

theorem commits_settled (v : Volume) (phys : Nat → Nat) (base : State) (depth : Nat) :
    Commits True (Settled v phys base) (Attempted v phys base) (commitPending v depth) := by
  refine steady_settled.toStable.commitPending ?_ ?_ depth
  · rintro s ⟨⟨attempts, logged⟩, quiet⟩
    exact ⟨⟨attempts, logged.congr rfl rfl rfl fun _ => Nat.zero_le _⟩, quiet⟩
  · rintro s ⟨⟨attempts, logged⟩, quiet⟩ _
    refine wp_mono (logged.commitTxn quiet) ?_
    rintro outcome s' ⟨⟨done, logged'⟩, settled, only⟩
    cases outcome with
    | ok _ => exact ⟨⟨⟨_, logged'⟩, (settled rfl).1⟩, (settled rfl).2⟩
    | error _ => exact ⟨⟨_, logged'⟩, fun writes => by cases only writes⟩

/-- A mount found the journal, and its recovery ran to its end. -/
def Mounted (v : Volume) (phys : Nat → Nat) (start : State) : Prop :=
  ∃ disk boot, Booted phys disk boot ∧ boot.txn.length ≤ journalMaxTxBlocks ∧
    journalRecoverIfNeeded v boot = some (.ok (), start)

theorem Mounted.settled (mounted : Mounted v phys s) : Settled v phys s s := by
  obtain ⟨disk, boot, booted, small, returned⟩ := mounted
  obtain ⟨quiet, journal, txn⟩ :=
    wp_result (recover_settles (v := v) booted.place booted.ready) returned rfl
  refine ⟨⟨[], ⟨?_, ?_, ?_, by simp, rfl, by simp⟩⟩, quiet⟩
  · rw [journal, booted.place]
  · rw [journal, booted.ready]
  · rw [txn]
    exact small

theorem settled_of_run {start : State} {allowed : State → Nat × Op → Prop} (writes : v.device.WritesOk)
    (mounted : Mounted v phys start) (run : Run (exec v) allowed start s) : Settled v phys start s := by
  refine run.invariant mounted.settled ?_
  rintro s s' ⟨depth, op⟩ settled _ returned
  obtain ⟨outcome, result⟩ := exec_ok returned
  have kept := wp_result (steady_settled.call (commits_settled v phys _ depth) op settled) result
  cases outcome with
  | ok _ => exact kept
  | error _ => exact ⟨kept.1, kept.2 writes⟩

theorem Logged.standing {earlier later : List Attempt} {attempt : Attempt} {cut : List (Nat × Bytes)}
    (logged : Logged v phys base attempts s) (distinct : Distinct v phys)
    (split : attempts = earlier ++ attempt :: later) (outside : Outside v phys attempt.txn)
    (part : cut <+: attempt.done) :
    Standing v phys attempt.txn (after base.disk earlier)
      (patch (after base.disk earlier) (inPlacePlan v attempt.txn)) (patch (after base.disk earlier) cut) := by
  obtain ⟨quiet, small, planned, _⟩ := logged.each earlier attempt later split
  exact commitPlan_cut distinct small outside quiet (part.trans planned)

theorem Logged.commitPending {depth : Nat} {b c : State} {outcome : Except Errno Unit} (writes : v.device.WritesOk)
    (settled : Settled v phys s s) (mounted : s.mounted = true) (dirty : hasDirtyInternal s = true)
    (idle : s.journal.inCommit = false) (built : txnBuild v (commitPending v depth) s = some (.ok (), b))
    (called : commitPending v (depth + 1) s = some (outcome, c)) :
    outcome = .ok () ∧ ∃ nested done, b.log = s.log ++ nested.flatMap Attempt.done ∧
      Logged v phys s (nested ++ [b.attempt done]) c := by
  have start : Settled v phys s { s with txn := [] } := by
    obtain ⟨⟨attempts, logged⟩, quiet⟩ := settled
    exact ⟨⟨attempts, logged.congr rfl rfl rfl fun _ => Nat.zero_le _⟩, quiet⟩
  obtain ⟨⟨⟨nested, logged⟩, quiet⟩, _⟩ :=
    wp_result (steady_settled.toStable.txnBuild (commits_settled v phys _ depth) start) built
  -- What is left of the call is the way of the built transaction to the disk.
  have rest : Ext4.commitTxn v b = some (outcome, c) := by
    simp [← called, Ext4.commitPending, commitStep, Bind.bind, Machine.get, mounted, dirty, idle, built]
  obtain ⟨⟨done, logged'⟩, _, only⟩ := wp_result (logged.commitTxn quiet) rest
  exact ⟨only writes, nested, done, logged.log, logged'⟩

end

/-- Wherever an attempt is cut, the first recovery that ends leaves the contents before it or those after it. -/
def Attempt.Atomic (v : Volume) (phys : Nat → Nat) (before : Nat → Bytes) (attempt : Attempt) : Prop :=
  ∀ cut, cut <+: attempt.done → Mountable v phys (patch before cut) ∧
    ∀ disk', Recovered v phys (patch before cut) disk' →
      SameOutside v phys disk' before ∨ SameOutside v phys disk' (patch before attempt.done)

theorem Logged.atomic {v : Volume} {phys : Nat → Nat} {base s : State} {attempts earlier later : List Attempt}
    {attempt : Attempt} (logged : Logged v phys base attempts s) (writes : v.device.WritesOk)
    (distinct : Distinct v phys) (split : attempts = earlier ++ attempt :: later)
    (outside : Outside v phys attempt.txn) : attempt.Atomic v phys (after base.disk earlier) := by
  intro cut part
  have standing := logged.standing distinct split outside part
  obtain ⟨_, small, _, whole⟩ := logged.each earlier attempt later split
  refine ⟨standing.mountable small outside, fun disk' recovered => ?_⟩
  rcases standing.recovered small outside recovered with before | behind
  · exact Or.inl before
  · -- Outside the journal the whole attempt comes to its writes in place.
    refine Or.inr fun sector notJournal => (behind sector notJournal).trans ?_
    rw [whole writes]
    exact (commitPlan_outside small sector notJournal).symm

/--
Commits are atomic under crashes.

Every raw write of a commit belongs to an attempt to commit a built transaction.
-/
theorem commit_crash_atomic {v : Volume} {phys : Nat → Nat} {start s c : State} {depth : Nat}
    {outcome : Except Errno Unit} (writes : v.device.WritesOk) (distinct : Distinct v phys)
    (mounted : Mounted v phys start) (run : Run (exec v) (fun _ _ => True) start s)
    (called : commitPending v (depth + 1) s = some (outcome, c)) :
    ∃ attempts : List Attempt, c.log = s.log ++ attempts.flatMap Attempt.done ∧ c.disk = after s.disk attempts ∧
      (∀ b, s.mounted = true → hasDirtyInternal s = true → s.journal.inCommit = false →
        txnBuild v (commitPending v depth) s = some (.ok (), b) →
        outcome = .ok () ∧ ∃ nested done, b.log = s.log ++ nested.flatMap Attempt.done ∧
          attempts = nested ++ [b.attempt done]) ∧
      ∀ earlier attempt later, attempts = earlier ++ attempt :: later → Outside v phys attempt.txn →
        attempt.Atomic v phys (after s.disk earlier) := by
  have settled : Settled v phys s s := by
    obtain ⟨⟨_, logged⟩, quiet⟩ := settled_of_run writes mounted run
    exact ⟨⟨[], ⟨logged.place, logged.ready, logged.small, by simp, rfl, by simp⟩⟩, quiet⟩
  by_cases builds : ∃ b, s.mounted = true ∧ hasDirtyInternal s = true ∧ s.journal.inCommit = false ∧
      txnBuild v (commitPending v depth) s = some (.ok (), b)
  · obtain ⟨b, ready, dirty, idle, built⟩ := builds
    obtain ⟨ok, nested, done, log, logged⟩ := Logged.commitPending writes settled ready dirty idle built called
    refine ⟨_, logged.log, logged.disk, fun b' _ _ _ built' => ⟨ok, nested, done, ?_⟩,
      fun earlier attempt later split outside => logged.atomic writes distinct split outside⟩
    obtain rfl : b = b' := by simpa [built] using built'
    exact ⟨log, rfl⟩
  · -- The call has nothing of its own to write, but a build that failed may have committed on the way.
    have kept := wp_result (commits_settled v phys s (depth + 1) s settled) called
    have logged : ∃ attempts, Logged v phys s attempts c := by
      cases outcome with
      | ok _ => exact kept.1.1
      | error _ => exact kept.1
    obtain ⟨attempts, logged⟩ := logged
    exact ⟨attempts, logged.log, logged.disk,
      fun b ready dirty idle built => absurd ⟨b, ready, dirty, idle, built⟩ builds,
      fun earlier attempt later split outside => logged.atomic writes distinct split outside⟩

/-- The state after a list of calls that all came back. -/
def session (v : Volume) (s : State) (steps : List (Nat × Op)) : Except Unit State := steps.foldlM (exec v) s

theorem run_session {v : Volume} {steps : List (Nat × Op)} :
    ∀ {start s s' : State}, Run (exec v) (fun _ _ => True) start s → session v s steps = .ok s' →
      Run (exec v) (fun _ _ => True) start s' := by
  induction steps with
  | nil =>
    intro start s s' run returned
    obtain rfl := Except.ok.inj returned
    exact run
  | cons step rest ih =>
    intro start s s' run returned
    rw [session, List.foldlM_cons] at returned
    obtain ⟨s₁, first, later⟩ := bind_ok returned
    exact ih (.call step run trivial first) later

/-- A volume of blocks of 1024 bytes with one group. -/
def tinyVolume (device : Device) : Volume where
  blockSize := 1024
  inodeSize := 128
  inodesPerGroup := 64
  groupCount := 1
  descSize := 32
  checksumSeed := 0
  device := device
  blockSizes := by decide
  inodeSizes := by decide
  someInodes := by decide
  descSizes := by decide

/-- The places of the journal of the tiny volume. -/
def tinyPlaces (i : Nat) : Nat := 100 + i

/-- The tiny volume when its journal was found, its disk all zero. -/
def tinyBoot : State where
  mounted := true
  status := ""
  clock := 1
  journal := ⟨true, false, 0, tinyPlaces⟩
  blocks := fun _ => ⟨false, false, 0, 0, fun _ => 0⟩
  inodes := fun _ => ⟨false, false, 0, 0, fun _ => 0, fun _ => 0, 0⟩
  txn := []
  disk := fun _ _ => 0
  tick := 0
  log := []
  spoiled := false

/-- The tiny volume after its mount. -/
def tinyStart : State := { tinyBoot with tick := 1 }

/-- A device that always works. -/
def goodDevice : Device := ⟨fun _ => none, fun _ => false, fun _ => false⟩

theorem tiny_distinct (device : Device) : Distinct (tinyVolume device) tinyPlaces := by
  intro i small j small' same
  simp only [Volume.sector, Volume.sectorsPerBlock, tinyVolume, tinyPlaces, journalMaxTxBlocks, blockCacheSlots,
    inodeCacheSlots] at same small small'
  omega

theorem tiny_mounted {device : Device} (reads : device.readFault 0 = none) :
    Mounted (tinyVolume device) tinyPlaces tinyStart := by
  refine ⟨_, tinyBoot, ⟨rfl, rfl, rfl⟩, by decide, ?_⟩
  -- The header is all zero, so there is nothing to replay.
  have clean : wp False (journalRecoverIfNeeded (tinyVolume device))
      (fun outcome s' => outcome = .ok () ∧ s' = tinyStart) tinyBoot := by
    rw [journalRecoverIfNeeded, wp_bind, wp_get]
    dsimp only
    rw [if_neg (by decide), wp_bind]
    have fault : (tinyVolume device).device.readFault tinyBoot.tick = none := reads
    simp only [rawBlockRead, blkReadSync, wp_bind, wp_get, wp_modify, fault, wp_pure, if_true]
    rw [if_pos ⟨rfl, rfl⟩]
    exact ⟨rfl, rfl⟩
  obtain ⟨outcome, s', returned, rfl, rfl⟩ := wp_total clean
  exact returned

/-- One block of the tiny volume is changed and then committed. -/
theorem commit_crash_atomic_oneUpdate :
    ∃ s c attempts, commitPending (tinyVolume goodDevice) 1 s = some (.ok (), c) ∧ hasDirtyInternal s = true ∧
      c.log = s.log ++ attempts.flatMap Attempt.done ∧
      ∀ earlier attempt later, attempts = earlier ++ attempt :: later →
        Outside (tinyVolume goodDevice) tinyPlaces attempt.txn →
        attempt.Atomic (tinyVolume goodDevice) tinyPlaces (after s.disk earlier) := by
  have committed : ((session (tinyVolume goodDevice) tinyStart [(1, .update 50 fun _ _ => 1)]).toOption.any fun s =>
      hasDirtyInternal s && (commitPending (tinyVolume goodDevice) 1 s).any (·.1.isOk)) = true := by decide
  cases returned : session (tinyVolume goodDevice) tinyStart [(1, .update 50 fun _ _ => 1)] with
  | error _ =>
    rw [returned] at committed
    cases committed
  | ok s =>
    rw [returned] at committed
    obtain ⟨dirty, whole⟩ := Bool.and_eq_true_iff.mp committed
    obtain ⟨⟨outcome, c⟩, called, good⟩ := (Option.any_eq_true _ _).mp whole
    cases outcome with
    | error _ => cases good
    | ok _ =>
      obtain ⟨attempts, log, _, _, atomic⟩ := commit_crash_atomic (fun _ => ⟨rfl, rfl⟩) (tiny_distinct goodDevice)
        (tiny_mounted rfl) (run_session .start returned) called
      exact ⟨s, c, attempts, called, dirty, log, atomic⟩

end Enlil.Ext4
