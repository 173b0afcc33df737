import Enlil.Ext4.CommitRuns

/-! Runs with write errors: what a commit that failed leaves for the next ones. -/

namespace Enlil.Ext4

open Machine

/-- Whether a call finds in its cache what it asks for. -/
def Op.cached (s : State) : Op → Bool
  | .get blockNo => (findBlockSlot s blockNo).isSome
  | .update blockNo _ => (findBlockSlot s blockNo).isSome
  | .load ino => (findInodeSlot s ino).isSome
  | .mark ino _ => (findInodeSlot s ino).isSome
  | .sync => false

/-- Whether a call may commit: something is dirty, and the call does not find what it asks for. -/
def Op.mayCommit (s : State) (op : Op) : Bool := hasDirtyInternal s && !op.cached s

/-- No commit is started while the header of an earlier one still asks for a replay. -/
def Patient (v : Volume) (phys : Nat → Nat) (s : State) (step : Nat × Op) : Prop :=
  Quiet v phys s.disk ∨ step.2.mayCommit s = false

section

variable {v : Volume} {phys : Nat → Nat} {base s : State} {attempts : List Attempt}

/-- The writes since a given state come from attempts, and nothing is to be committed. -/
def Idle (v : Volume) (phys : Nat → Nat) (base : State) (attempts : List Attempt) (s : State) : Prop :=
  Logged v phys base attempts s ∧ Clean s

theorem Clean.fill {i : Fin blockCacheSlots} {blockNo : Nat} {data : Bytes} (clean : Clean s) :
    Clean (fillBlock i blockNo true data s) :=
  ⟨fun _ dirty => clean.1 _ ⟨(fillBlock_blocks dirty).1, (fillBlock_blocks dirty).2.1⟩, clean.2⟩

theorem steady_idle :
    Steady v (Idle v phys base attempts) (Logged v phys base attempts) (Logged v phys base attempts) where
  weaken idle := idle.1
  tick idle := ⟨idle.1.congr rfl rfl rfl id, idle.2⟩
  touch := by
    intro s i idle
    refine ⟨idle.1.congr rfl rfl rfl id, fun j dirty => idle.2.1 j ?_, idle.2.2⟩
    obtain ⟨valid, dirty', _⟩ := touchBlock_blocks (s := s) (i := i) (j := j)
    rwa [valid, dirty'] at dirty
  fill idle _ := ⟨idle.1.congr rfl rfl rfl id, idle.2.fill⟩
  torn idle _ := idle.1.congr rfl rfl rfl id
  txn idle _ small := ⟨idle.1.congr rfl rfl rfl small, idle.2⟩
  checksum := by
    intro s i idle
    refine ⟨idle.1.congr rfl rfl rfl id, idle.2.1, fun j dirty => idle.2.2 j ?_⟩
    by_cases same : j = i
    · subst same
      simpa [State.setInode, inodeRawUpdateChecksum] using dirty
    · simpa [State.setInode, same] using dirty
  slots idle := idle.1.congr rfl rfl rfl id
  slotsTorn logged := logged.congr rfl rfl rfl id

theorem Clean.hasDirtyInternal (clean : Clean s) : hasDirtyInternal s = false := by
  simp only [Ext4.hasDirtyInternal, Bool.or_eq_false_iff, List.any_eq_false]
  exact ⟨fun i _ => by simpa using clean.1 i, fun i _ => by simpa using clean.2 i⟩

theorem commits_idle (depth : Nat) :
    Commits True (Idle v phys base attempts) (Logged v phys base attempts) (commitPending v depth) := by
  intro s idle
  cases depth with
  | zero => exact trivial
  | succ depth =>
    rw [Ext4.commitPending, commitStep, wp_bind, wp_get]
    dsimp only
    rw [wp_ite]
    refine ⟨fun _ => idle.1, fun _ => ?_⟩
    rw [if_pos (by simp [idle.2.hasDirtyInternal])]
    refine wp_mono (steady_idle.flushed idle idle.2) fun outcome s' kept => ?_
    cases outcome with
    | ok _ => exact kept
    | error _ => exact kept

theorem Logged.call_cached {depth : Nat} {op : Op} (logged : Logged v phys base attempts s)
    (cached : op.cached s = true) : wp True (op.call v depth) (fun _ s' => Logged v phys base attempts s') s := by
  have load : ∀ blockNo, (findBlockSlot s blockNo).isSome = true →
      wp True (cacheLoad v (Ext4.commitPending v depth) blockNo) (fun _ s' => Logged v phys base attempts s') s := by
    intro blockNo found
    obtain ⟨i, slot⟩ := Option.isSome_iff_exists.mp found
    rw [cacheLoad, wp_bind, wp_get]
    simp only [slot, wp_ite, wp_bind, wp_modify, wp_pure, wp_fail]
    exact ⟨fun _ => logged.congr rfl rfl rfl id, fun _ => logged⟩
  cases op with
  | get blockNo =>
    simp only [Op.call, cacheGet, wp_bind]
    refine wp_mono (load blockNo cached) fun outcome s' kept => ?_
    cases outcome with
    | ok _ => exact kept
    | error _ => exact kept
  | update blockNo change =>
    simp only [Op.call, cacheUpdate, cacheGetMut, wp_bind]
    refine wp_mono (load blockNo cached) fun outcome s' kept => ?_
    cases outcome with
    | ok _ => exact kept.congr rfl rfl rfl id
    | error _ => exact kept
  | load ino =>
    obtain ⟨i, slot⟩ := Option.isSome_iff_exists.mp cached
    simp only [Op.call, loadInode, wp_bind, wp_get, slot, wp_ite, wp_modify, wp_pure, wp_fail]
    exact ⟨fun _ => logged.congr rfl rfl rfl id, fun _ => logged⟩
  | mark ino inode =>
    obtain ⟨i, slot⟩ := Option.isSome_iff_exists.mp cached
    simp only [Op.call, markInodeDirty, wp_bind, wp_get, slot, wp_modify]
    exact logged.congr rfl rfl rfl id
  | sync => cases cached

theorem Logged.call_calm {depth : Nat} {op : Op} (logged : Logged v phys base attempts s)
    (calm : op.mayCommit s = false) : wp True (op.call v depth) (fun _ s' => Logged v phys base attempts s') s := by
  rcases Bool.and_eq_false_iff.mp calm with clean | cached
  · refine wp_mono (steady_idle.call (commits_idle depth) op ⟨logged, clean_of_hasDirtyInternal clean⟩)
      fun outcome s' kept => ?_
    cases outcome with
    | ok _ => exact kept
    | error _ => exact kept
  · exact logged.call_cached (by simpa using cached)

theorem attempted_of_run {start : State} (mounted : Mounted v phys start)
    (run : Run (exec v) (Patient v phys) start s) : Attempted v phys start s := by
  refine run.invariant (steady_settled.weaken mounted.settled) ?_
  rintro s s' ⟨depth, op⟩ ⟨⟨attempts, logged⟩, quiet⟩ patient returned
  obtain ⟨outcome, result⟩ := exec_ok returned
  rcases patient with now | calm
  · have kept := wp_result (steady_settled.call (commits_settled v phys _ depth) op ⟨⟨attempts, logged⟩, now⟩) result
    cases outcome with
    | ok _ => exact steady_settled.weaken kept
    | error _ => exact kept
  · have logged' := wp_result (logged.call_calm calm) result
    refine ⟨⟨attempts, logged'⟩, fun writes => ?_⟩
    rw [logged'.disk, ← logged.disk]
    exact quiet writes

def inPlace (v : Volume) (attempts : List Attempt) : List (Nat × Bytes) :=
  attempts.flatMap fun attempt => inPlacePlan v attempt.txn

/-- A disk holds, outside the journal, a starting disk with whole transactions of some attempts applied. -/
def Whole (v : Volume) (phys : Nat → Nat) (disk : Nat → Bytes) (attempts : List Attempt) (disk' : Nat → Bytes) : Prop :=
  ∃ applied, applied.Sublist attempts ∧ SameOutside v phys disk' (patch disk (inPlace v applied))

theorem Whole.step {disk before disk' : Nat → Bytes} {attempt : Attempt} (whole : Whole v phys disk attempts before)
    (side : SameOutside v phys disk' before ∨
      SameOutside v phys disk' (patch before (inPlacePlan v attempt.txn))) :
    Whole v phys disk (attempts ++ [attempt]) disk' := by
  obtain ⟨applied, sub, same⟩ := whole
  rcases side with before' | behind
  · exact ⟨applied, sub.trans (List.sublist_append_left _ _), fun sector apart =>
      (before' sector apart).trans (same sector apart)⟩
  · refine ⟨applied ++ [attempt], List.Sublist.append sub (List.Sublist.refl _), fun sector apart => ?_⟩
    rw [behind sector apart, inPlace, List.flatMap_append, patch_append, List.flatMap_singleton]
    exact patch_congr _ (fun cell outside _ => same cell outside) apart

theorem Logged.whole (logged : Logged v phys base attempts s) (distinct : Distinct v phys)
    (outside : ∀ attempt ∈ attempts, Outside v phys attempt.txn) (earlier : List Attempt) :
    ∀ attempt later, attempts = earlier ++ attempt :: later →
      Whole v phys base.disk earlier (after base.disk earlier) := by
  -- Each attempt before this one left the journal quiet, and so stands on one side.
  induction earlier using List.reverseRecOn with
  | nil => exact fun _ _ _ => ⟨[], List.Sublist.refl _, fun _ _ => rfl⟩
  | append_singleton earlier last ih =>
    intro attempt later split
    have split' : attempts = earlier ++ last :: (attempt :: later) := by simpa using split
    have ours : Outside v phys last.txn := outside last (by simp [split'])
    obtain ⟨_, small, _⟩ := logged.each _ _ _ split'
    have standing := logged.standing distinct split' ours List.prefix_rfl
    rw [← after_concat] at standing
    exact (ih last _ split').step (standing.side small ours (logged.each _ _ _ split).1)

end

/--
After write errors the next mount finds whole transactions only, in every run that waits.

Waiting means that no commit is started while the header of a failed one still asks for a replay.
The recovered disk is the one at the start of the attempt that was cut, or that one with all of the attempt applied.
-/
theorem patient_runs_recover {v : Volume} {phys : Nat → Nat} {start s : State} (distinct : Distinct v phys)
    (mounted : Mounted v phys start) (run : Run (exec v) (Patient v phys) start s) :
    ∃ attempts : List Attempt, s.log = start.log ++ attempts.flatMap Attempt.done ∧
      s.disk = after start.disk attempts ∧
      ((∀ attempt ∈ attempts, Outside v phys attempt.txn) →
        ∀ cut, cut <+: attempts.flatMap Attempt.done →
          Mountable v phys (patch start.disk cut) ∧
          ∃ earlier, earlier <+: attempts ∧ earlier.flatMap Attempt.done <+: cut ∧
            Whole v phys start.disk earlier (after start.disk earlier) ∧
            ∀ disk', Recovered v phys (patch start.disk cut) disk' →
              SameOutside v phys disk' (after start.disk earlier) ∨
              ∃ attempt, earlier ++ [attempt] <+: attempts ∧
                SameOutside v phys disk' (patch (after start.disk earlier) (inPlacePlan v attempt.txn))) := by
  obtain ⟨⟨attempts, logged⟩, _⟩ := attempted_of_run mounted run
  refine ⟨attempts, logged.log, logged.disk, fun outside cut within => ?_⟩
  rcases prefix_flatMap_split within with rfl | ⟨earlier, attempt, later, part, split, inPart, rfl⟩
  · -- Nothing was written since the mount.
    have quiet := mounted.settled.2
    refine ⟨Mountable.of_quiet quiet, [], List.nil_prefix, List.prefix_rfl,
      ⟨[], List.Sublist.refl _, fun _ _ => rfl⟩, fun disk' recovered => Or.inl fun _ _ => ?_⟩
    rw [recovered.of_quiet quiet]
    rfl
  · have ours : Outside v phys attempt.txn := outside attempt (by simp [split])
    obtain ⟨_, small, _⟩ := logged.each _ _ _ split
    have standing := logged.standing distinct split ours inPart
    rw [patch_append]
    refine ⟨standing.mountable small ours, earlier, ⟨_, split.symm⟩, List.prefix_append _ _,
      logged.whole distinct outside earlier attempt later split, fun disk' recovered => ?_⟩
    rcases standing.recovered small ours recovered with before | behind
    · exact Or.inl before
    · exact Or.inr ⟨attempt, ⟨later, by simp [split]⟩, behind⟩

def failingWrite (t : Nat) : Device := ⟨fun _ => none, fun i => i == t, fun _ => false⟩

/-- A commit that fails in place on the tiny volume is the end of a patient run. -/
theorem patient_runs_recover_failedWrite :
    ∃ s attempts, Run (exec (tinyVolume (failingWrite 5))) (Patient (tinyVolume (failingWrite 5)) tinyPlaces) tinyStart s ∧
      s.log.length = 2 ∧ s.log = tinyStart.log ++ attempts.flatMap Attempt.done ∧ s.disk = after tinyStart.disk attempts := by
  have returned : (match exec (tinyVolume (failingWrite 5)) tinyStart (1, .update 50 fun _ _ => 1) with
      | .ok s => match exec (tinyVolume (failingWrite 5)) s (1, .sync) with
        | .ok s' => s'.log.length == 2
        | .error _ => false
      | .error _ => false) = true := by decide
  split at returned
  · rename_i s first
    split at returned
    · rename_i s' second
      have mounted : Mounted (tinyVolume (failingWrite 5)) tinyPlaces tinyStart := tiny_mounted rfl
      obtain ⟨⟨attempts, logged⟩, quiet⟩ := mounted.settled
      have calm : Op.mayCommit tinyStart (.update 50 fun _ _ => 1) = false := by decide
      -- The update leaves the disk as it was, so the commit finds a quiet journal.
      obtain ⟨_, updated⟩ := exec_ok first
      have same : s.disk = tinyStart.disk := by
        rw [(wp_result (logged.call_calm calm) updated).disk, ← logged.disk]
      have run : Run _ (Patient (tinyVolume (failingWrite 5)) tinyPlaces) tinyStart s' :=
        .call (1, .sync) (.call (1, .update 50 fun _ _ => 1) .start (Or.inr calm) first) (Or.inl (same ▸ quiet)) second
      obtain ⟨attempts', log, disk, _⟩ := patient_runs_recover (tiny_distinct _) mounted run
      exact ⟨s', attempts', run, by simpa using returned, log, disk⟩
    · cases returned
  · cases returned

theorem crcBit_toBitVec (crc : UInt32) :
    (crcBit crc).toBitVec = crc.toBitVec >>> 1 ^^^ if crc.toBitVec.getLsbD 0 then 0x82F63B78#32 else 0#32 := by
  have low : (crc &&& 1 ≠ 0) ↔ crc.toBitVec.getLsbD 0 = true := by
    rw [← UInt32.toBitVec_inj.ne, UInt32.toBitVec_and]
    show crc.toBitVec &&& 1#32 ≠ 0#32 ↔ _
    rw [BitVec.and_one_eq_setWidth_ofBool_getLsbD]
    cases crc.toBitVec.getLsbD 0 <;> decide
  rw [crcBit]
  by_cases odd : crc.toBitVec.getLsbD 0 = true
  · rw [if_pos (low.mpr odd), if_pos odd]
    rfl
  · rw [if_neg (fun one => odd (low.mp one)), if_neg odd, BitVec.xor_zero]
    rfl

theorem crcBit_injective : Function.Injective crcBit := by
  intro crc crc' same
  have bits := congrArg UInt32.toBitVec same
  rw [crcBit_toBitVec, crcBit_toBitVec] at bits
  -- The top bit of the polynomial shows the bit that was shifted out.
  have low : crc.toBitVec.getLsbD 0 = crc'.toBitVec.getLsbD 0 := by
    have top := congrArg (fun x => x.getLsbD 31) bits
    simp only [BitVec.getLsbD_xor, BitVec.getLsbD_ushiftRight] at top
    revert top
    cases crc.toBitVec.getLsbD 0 <;> cases crc'.toBitVec.getLsbD 0 <;> simp
  rw [low] at bits
  have high := (BitVec.xor_left_inj _).mp bits
  refine UInt32.toBitVec_inj.mp (BitVec.eq_of_getLsbD_eq fun i small => ?_)
  cases i with
  | zero => exact low
  | succ i =>
    have bit := congrArg (fun x => x.getLsbD i) high
    simpa [BitVec.getLsbD_ushiftRight, Nat.add_comm] using bit

theorem crc32cFrom_injective (buf : Bytes) (pos len : Nat) : Function.Injective (crc32cFrom · buf pos len) := by
  induction len generalizing pos with
  | zero => exact fun _ _ same => same
  | succ len ih =>
    intro crc crc' same
    exact (UInt32.xor_left_inj _).mp ((crcBit_injective.iterate 8) (ih (pos + 1) same))

theorem crc32cFrom_congr {buf buf' : Bytes} (len : Nat) :
    ∀ {crc : UInt32} {pos : Nat}, (∀ i, pos ≤ i → buf i = buf' i) →
      crc32cFrom crc buf pos len = crc32cFrom crc buf' pos len := by
  induction len with
  | zero => exact fun _ => rfl
  | succ len ih =>
    intro crc pos same
    rw [crc32cFrom, crc32cFrom, same pos (Nat.le_refl pos)]
    exact ih fun i later => same i (by omega)

theorem crc32cFrom_changed {crc : UInt32} {buf buf' : Bytes} {pos : Nat} (len : Nat) (changed : buf pos ≠ buf' pos)
    (rest : ∀ i, pos + 1 ≤ i → buf i = buf' i) :
    crc32cFrom crc buf pos (len + 1) ≠ crc32cFrom crc buf' pos (len + 1) := by
  rw [crc32cFrom, crc32cFrom, crc32cFrom_congr len rest]
  intro same
  have bytes := (crcBit_injective.iterate 8) (crc32cFrom_injective buf' (pos + 1) len same)
  exact changed (UInt8.toUInt32_inj.mp ((UInt32.xor_right_inj _).mp bytes))

theorem recover_overwritten {v : Volume} {phys : Nat → Nat} {s : State} {entry : TxnEntry} (txn : List TxnEntry)
    (sequence : Nat) (reads : v.device.ReadsOk) (place : s.journal.physBlocks = phys) (ready : s.journal.ready = true)
    (small : txn.length ≤ journalMaxTxBlocks) (first : txn[0]? = some entry)
    (header : s.disk (v.sector (phys 0)) = pendingHeader v txn sequence)
    (changed : journalBlockCrc v (s.disk (v.sector (phys 1))) ≠ journalBlockCrc v entry.data) :
    ∃ s', journalRecoverIfNeeded v s = some (.error .eio, s') ∧ s'.mounted = false ∧
      s'.status = "dati journal custom corrotti" := by
  have rejected : wp False (journalRecoverIfNeeded v) (fun outcome s' => outcome = .error .eio ∧ s'.mounted = false ∧
      s'.status = "dati journal custom corrotti") s := by
    have count : (txn.map (TxnEntry.stamp v)).length = txn.length := List.length_map _
    have nonempty : 0 < txn.length := (List.getElem?_eq_some_iff.mp first).1
    obtain ⟨known, stateField, countField⟩ := header_fields v (txn.map (TxnEntry.stamp v)) journalStatePending
      sequence (by rwa [count]) (by decide)
    obtain ⟨_, crc⟩ := header_entry v journalStatePending sequence
      (show (txn.map (TxnEntry.stamp v))[0]? = some (entry.stamp v) by simp [first])
    rw [count] at countField
    rw [journalRecoverIfNeeded, wp_bind, wp_get]
    dsimp only
    rw [if_neg (by simp [ready]), wp_bind]
    refine wp_rawBlockRead (fun fault => absurd reads fault) ?_
    dsimp only
    rw [place, header, pendingHeader]
    rw [if_neg (by rw [stateField]; simp [journalStatePending, journalStateClean]), if_neg (by simp [known]),
      if_neg (by simp [headerCrcOk_pack]), if_neg (by rw [stateField, countField]; omega), countField, wp_bind]
    -- The loop ends in its first round.
    obtain ⟨n, size⟩ : ∃ n, txn.length = n + 1 := ⟨txn.length - 1, by omega⟩
    rw [size, List.range_succ_eq_map, forEach, wp_bind, recoverBlock, wp_bind, wp_get]
    dsimp only
    rw [wp_bind]
    refine wp_rawBlockRead (fun fault => absurd reads fault) ?_
    dsimp only
    rw [place, crc, if_pos]
    · exact ⟨rfl, rfl, rfl⟩
    · exact fun same => changed (UInt32.toNat_inj.mp same)
  obtain ⟨outcome, s', returned, rfl, rest⟩ := wp_total rejected
  exact ⟨s', returned, rest⟩

/-- The calls that lead to a rejected journal: a commit that fails in place, and another one after it. -/
def poisoning : List (Nat × Op) :=
  [(1, .update 50 fun _ _ => 1), (1, .sync), (1, .update 50 fun _ i => if i = 0 then 2 else 1), (1, .sync)]

theorem poisoning_log : (match session (tinyVolume (failingWrite 5)) tinyStart poisoning with
    | .ok s => s.log.take 3
    | .error _ => []) =
    [(202, fun _ => 1), (200, pendingHeader (tinyVolume (failingWrite 5)) [⟨50, 0, fun _ => 1⟩] 1),
      (202, fun i => if i = 0 then 2 else 1)] := by rfl

/-- A commit that failed in place and a second one that was cut leave a journal that the next mount rejects. -/
theorem failed_commit_poisons_journal :
    ∃ s cut, Run (exec (tinyVolume (failingWrite 5))) (fun _ _ => True) tinyStart s ∧
      Mounted (tinyVolume (failingWrite 5)) tinyPlaces tinyStart ∧ Distinct (tinyVolume (failingWrite 5)) tinyPlaces ∧
      tinyStart.log ++ cut <+: s.log ∧
      ∀ boot, Booted tinyPlaces (patch tinyStart.disk cut) boot →
        ∃ s', journalRecoverIfNeeded (tinyVolume goodDevice) boot = some (.error .eio, s') ∧ s'.mounted = false ∧
          s'.status = "dati journal custom corrotti" := by
  have log := poisoning_log
  split at log
  · rename_i s returned
    refine ⟨s, s.log.take 3, run_session .start returned, tiny_mounted rfl, tiny_distinct _, List.take_prefix 3 s.log,
      fun boot booted => ?_⟩
    rw [log] at booted
    refine recover_overwritten [⟨50, 0, fun _ => 1⟩] 1 (fun _ => rfl) booted.place booted.ready (by decide) rfl ?_ ?_
    · rw [booted.disk]
      rfl
    · have overwritten : boot.disk ((tinyVolume goodDevice).sector (tinyPlaces 1)) = fun i => if i = 0 then 2 else 1 := by
        rw [booted.disk]
        rfl
      have size : (tinyVolume goodDevice).blockSize = 1023 + 1 := rfl
      rw [overwritten, journalBlockCrc, journalBlockCrc, crc32cRaw, crc32cRaw, size]
      exact crc32cFrom_changed 1023 (by decide) fun i later => if_neg (by omega)
  · cases log

end Enlil.Ext4
