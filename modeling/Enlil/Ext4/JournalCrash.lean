import Enlil.Ext4.JournalHeader

/-! A commit that is cut anywhere, and recoveries that are cut anywhere, leave all of the commit or none of it. -/

namespace Enlil.Ext4

open Machine

/-- A sector belongs to the journal file. -/
def InJournal (v : Volume) (phys : Nat → Nat) (sector : Nat) : Prop :=
  ∃ i ≤ journalMaxTxBlocks, sector = v.sector (phys i)

/-- Two disks agree outside the journal. -/
def SameOutside (v : Volume) (phys : Nat → Nat) (disk disk' : Nat → Bytes) : Prop :=
  ∀ sector, ¬ InJournal v phys sector → disk sector = disk' sector

/-- The journal file has a block of its own for each of its places. -/
def Distinct (v : Volume) (phys : Nat → Nat) : Prop :=
  ∀ i ≤ journalMaxTxBlocks, ∀ j ≤ journalMaxTxBlocks, v.sector (phys i) = v.sector (phys j) → i = j

/-- The header on the disk asks for no replay. -/
def Quiet (v : Volume) (phys : Nat → Nat) (disk : Nat → Bytes) : Prop :=
  let header := disk (v.sector (phys 0))
  (readLe header 0 4 = 0 ∧ readLe header 8 4 = journalStateClean) ∨
    (headerKnown v header = true ∧ headerCrcOk v header = true ∧
      (readLe header 8 4 ≠ journalStatePending ∨ readLe header 12 4 = 0))

/-- The journal on the disk holds a whole transaction and a header that asks for its replay. -/
structure Pending (v : Volume) (phys : Nat → Nat) (txn : List TxnEntry) (disk : Nat → Bytes) : Prop where
  header : ∃ sequence, disk (v.sector (phys 0)) = pendingHeader v txn sequence
  data : ∀ {i entry}, txn[i]? = some entry → disk (v.sector (phys (i + 1))) = entry.data

/-- No block of a transaction belongs into the journal. -/
def Outside (v : Volume) (phys : Nat → Nat) (txn : List TxnEntry) : Prop :=
  ∀ entry ∈ txn, ¬ InJournal v phys (v.sector entry.targetBlock)

theorem quiet_of_zero {v : Volume} {phys : Nat → Nat} {disk : Nat → Bytes}
    (zero : disk (v.sector (phys 0)) = fun _ => 0) : Quiet v phys disk := by
  left
  rw [zero]
  exact ⟨rfl, rfl⟩

section

variable {v : Volume} {lost : Prop} {phys : Nat → Nat} {txn : List TxnEntry} {s : State}

theorem inJournal_header : InJournal v phys (v.sector (phys 0)) := ⟨0, by decide, rfl⟩

theorem inJournal_data {i : Nat} (bound : i < journalMaxTxBlocks) : InJournal v phys (v.sector (phys (i + 1))) :=
  ⟨i + 1, by omega, rfl⟩

theorem wp_rawBlockRead {blockNo : Nat} {post : Except Errno Bytes → State → Prop}
    (fails : ¬ v.device.ReadsOk → post (.error .eio) { s with tick := s.tick + 1 })
    (works : post (.ok (s.disk (v.sector blockNo))) { s with tick := s.tick + 1 }) :
    wp lost (rawBlockRead v blockNo) post s := by
  simp only [rawBlockRead, blkReadSync, wp_bind, wp_get, wp_modify]
  cases fault : v.device.readFault s.tick with
  | none => simpa using works
  | some garbage =>
    have faulty : ¬ v.device.ReadsOk := fun reads => by simp [reads s.tick] at fault
    simpa using fails faulty

theorem recover_quiet (place : s.journal.physBlocks = phys) (quiet : Quiet v phys s.disk) :
    wp lost (journalRecoverIfNeeded v) (Writes v v.device.ReadsOk s [] fun _ => True) s := by
  rw [journalRecoverIfNeeded, wp_bind, wp_get]
  dsimp only
  rw [wp_ite]
  refine ⟨fun _ => wp_pure.mpr (Writes.nothing ⟨rfl, rfl, rfl, rfl, rfl⟩ trivial), fun _ => ?_⟩
  rw [wp_bind]
  refine wp_rawBlockRead (fun fault => Writes.stopped (fun _ => fault) ⟨rfl, rfl, rfl, rfl, rfl⟩) ?_
  dsimp only
  rw [place]
  rcases quiet with clean | ⟨known, crc, settled⟩
  · rw [if_pos clean]
    exact wp_pure.mpr (Writes.nothing ⟨rfl, rfl, rfl, rfl, rfl⟩ trivial)
  · -- The header is one of ours, but there is nothing in it to replay.
    rw [wp_ite]
    refine ⟨fun _ => wp_pure.mpr (Writes.nothing ⟨rfl, rfl, rfl, rfl, rfl⟩ trivial), fun _ => ?_⟩
    rw [if_neg (by simp [known]), if_neg (by simp [crc]), if_pos settled]
    exact wp_pure.mpr (Writes.nothing ⟨rfl, rfl, rfl, rfl, rfl⟩ trivial)

/-- The journal while a transaction is replayed: its blocks are still there. -/
structure Replaying (v : Volume) (phys : Nat → Nat) (txn : List TxnEntry) (rest : List Nat) (s : State) :
    Prop where
  place : s.journal.physBlocks = phys
  ready : s.journal.ready = true
  left : ∀ i ∈ rest, i < txn.length
  data : ∀ {i entry}, txn[i]? = some entry → s.disk (v.sector (phys (i + 1))) = entry.data

theorem recover_block {sequence : Nat} (small : txn.length ≤ journalMaxTxBlocks)
    (outside : Outside v phys txn) (i : Nat) (rest : List Nat) (replaying : Replaying v phys txn (i :: rest) s) :
    wp lost (recoverBlock v (pendingHeader v txn sequence) i)
      (Writes v v.device.ReadsOk s (txn[i]?.toList.map fun entry => (v.sector entry.targetBlock, entry.data))
        (Replaying v phys txn rest)) s := by
  have bound : i < txn.length := replaying.left i (by simp)
  obtain ⟨entry, found⟩ : ∃ entry, txn[i]? = some entry := ⟨txn[i], by simp [bound]⟩
  have stamped : (txn.map (TxnEntry.stamp v))[i]? = some (entry.stamp v) := by simp [found]
  obtain ⟨target, crc⟩ := header_entry v journalStatePending sequence stamped
  have member : entry ∈ txn := List.mem_of_getElem? found
  rw [recoverBlock, wp_bind, wp_get]
  dsimp only
  rw [wp_bind, replaying.place]
  refine wp_rawBlockRead (fun fault => Writes.stopped (fun _ => fault) ⟨rfl, rfl, rfl, rfl, rfl⟩) ?_
  dsimp only
  rw [replaying.data found, pendingHeader, crc, if_neg (by simp [TxnEntry.stamp]), found, target]
  simp only [TxnEntry.stamp, Option.toList_some, List.map_cons, List.map_nil]
  rw [← sector_mod v entry.targetBlock]
  refine wp_mono (writes_rawBlockWrite (Replaying v phys txn rest) ?_) fun _ _ written => written
  refine ⟨replaying.place, replaying.ready, fun j later => replaying.left j (by simp [later]), ?_⟩
  -- The write goes to the sector of the block, and no journal block is there.
  intro j other foundOther
  have inside : j < txn.length := (List.getElem?_eq_some_iff.mp foundOther).1
  rw [sector_mod]
  dsimp only
  rw [Function.update_of_ne, replaying.data foundOther]
  intro same
  exact outside entry member ⟨j + 1, by omega, same.symm⟩

theorem recover_pending (place : s.journal.physBlocks = phys) (ready : s.journal.ready = true)
    (small : txn.length ≤ journalMaxTxBlocks) (some : txn ≠ []) (outside : Outside v phys txn)
    (pending : Pending v phys txn s.disk) :
    wp lost (journalRecoverIfNeeded v)
      (Writes v v.device.ReadsOk s (inPlacePlan v txn ++ [(v.sector (phys 0), fun _ => 0)]) fun _ => True) s := by
  obtain ⟨sequence, header⟩ := pending.header
  have count : (txn.map (TxnEntry.stamp v)).length = txn.length := List.length_map _
  obtain ⟨known, stateField, countField⟩ := header_fields v
    (txn.map (TxnEntry.stamp v)) journalStatePending sequence (by rwa [count]) (by decide)
  rw [count] at countField
  rw [journalRecoverIfNeeded, wp_bind, wp_get]
  dsimp only
  rw [if_neg (by simp [ready]), wp_bind]
  refine wp_rawBlockRead (fun fault => Writes.stopped (fun _ => fault) ⟨rfl, rfl, rfl, rfl, rfl⟩) ?_
  dsimp only
  rw [place, header, pendingHeader]
  rw [if_neg (by rw [stateField]; simp [journalStatePending, journalStateClean]), if_neg (by simp [known]),
    if_neg (by simp [headerCrcOk_pack]), if_neg (by simp [stateField, countField, some]), countField]
  have start : Replaying v phys txn (List.range txn.length) { s with tick := s.tick + 1 } :=
    ⟨place, ready, fun i inside => List.mem_range.mp inside, fun found => pending.data found⟩
  have loop : wp lost (forEach (List.range txn.length) (recoverBlock v (pendingHeader v txn sequence)))
      (Writes v v.device.ReadsOk { s with tick := s.tick + 1 } (inPlacePlan v txn) (Replaying v phys txn [])) _ :=
    flatMap_range txn _ ▸ writes_forEach (Replaying v phys txn) (fun i rest s => recover_block small outside i rest)
      (List.range txn.length) start
  show wp lost _ (Writes v v.device.ReadsOk { s with tick := s.tick + 1 }
    (inPlacePlan v txn ++ ([] ++ [(v.sector (phys 0), fun _ => 0)])) fun _ => True) _
  refine Writes.then loop ?_
  intro s₁ replaying _ _
  refine Writes.then (writes_blkFlushSync (Replaying v phys txn [])
    ⟨replaying.place, replaying.ready, replaying.left, replaying.data⟩) fun s₂ replaying₂ _ _ => ?_
  rw [← List.append_nil [_], ← replaying₂.place]
  exact Writes.then (writes_journalClearDisk replaying₂.ready) fun s₃ _ _ _ =>
    wp_modify.mpr (Writes.nothing ⟨rfl, rfl, rfl, rfl, rfl⟩ trivial)

/-- The state a recovery starts from: the journal was found, and the disk is what the crash left. -/
structure Booted (phys : Nat → Nat) (disk : Nat → Bytes) (s : State) : Prop where
  place : s.journal.physBlocks = phys
  ready : s.journal.ready = true
  disk : s.disk = disk

/-- The same volume on a device that behaves in another way. -/
def Volume.on (v : Volume) (device : Device) : Volume := { v with device := device }

/--
What a disk becomes by recoveries that are cut anywhere, up to the first one that runs to its end.

The device may behave differently in each of them.
-/
inductive Recovered (v : Volume) (phys : Nat → Nat) : (Nat → Bytes) → (Nat → Bytes) → Prop where
  | finished {disk : Nat → Bytes} {s s' : State} (device : Device) : Booted phys disk s →
      journalRecoverIfNeeded (v.on device) s = some (.ok (), s') → Recovered v phys disk s'.disk
  | cut {disk disk' : Nat → Bytes} {s s' : State} {outcome : Except Errno Unit} {writes done : List (Nat × Bytes)}
      (device : Device) : Booted phys disk s → journalRecoverIfNeeded (v.on device) s = some (outcome, s') →
      s'.log = s.log ++ writes → done <+: writes → Recovered v phys (patch disk done) disk' →
      Recovered v phys disk disk'

theorem Recovered.of_quiet {disk disk' : Nat → Bytes} (recovered : Recovered v phys disk disk')
    (quiet : Quiet v phys disk) : disk' = disk := by
  induction recovered with
  | finished device booted returned =>
    obtain ⟨done, _, disk', _, _, _, _, all, _⟩ :=
      wp_result (recover_quiet (v := v.on device) booted.place (booted.disk ▸ quiet)) returned
    rw [disk', (all rfl).1, booted.disk]
    rfl
  | cut device booted returned log cut _ ih =>
    obtain ⟨done', prefix', _, log', _⟩ :=
      wp_result (recover_quiet (v := v.on device) booted.place (booted.disk ▸ quiet)) returned
    -- There was nothing to write, so nothing was cut off.
    obtain rfl := List.prefix_nil.mp prefix'
    obtain rfl := List.append_cancel_left (log.symm.trans log')
    obtain rfl := List.prefix_nil.mp cut
    exact ih quiet

/-- What a pending transaction and a disk around it come to. -/
structure InFlight (v : Volume) (phys : Nat → Nat) (txn : List TxnEntry) (after disk : Nat → Bytes) : Prop where
  pending : Pending v phys txn disk
  result : SameOutside v phys (patch disk (inPlacePlan v txn)) after

theorem InFlight.cut {after disk : Nat → Bytes} {done : List (Nat × Bytes)}
    (small : txn.length ≤ journalMaxTxBlocks) (outside : Outside v phys txn)
    (flight : InFlight v phys txn after disk) (prefix' : done <+: inPlacePlan v txn) :
    InFlight v phys txn after (patch disk done) := by
  -- Every write goes outside the journal, and the whole log writes over its own part.
  have apart : ∀ write ∈ done, ¬ InJournal v phys write.1 := by
    intro write member
    obtain ⟨entry, inTxn, rfl⟩ := List.mem_map.mp (prefix'.subset member)
    exact outside entry inTxn
  have journal : ∀ {sector}, InJournal v phys sector → patch disk done sector = disk sector := by
    intro sector inside
    refine patch_outside fun write member same => apart write member ?_
    rwa [same]
  refine ⟨⟨?_, ?_⟩, ?_⟩
  · obtain ⟨sequence, header⟩ := flight.pending.header
    exact ⟨sequence, (journal inJournal_header).trans header⟩
  · intro i entry found
    have inside : i < txn.length := (List.getElem?_eq_some_iff.mp found).1
    rw [journal (inJournal_data (by omega)), flight.pending.data found]
  · intro sector notJournal
    rw [← flight.result sector notJournal]
    refine patch_congr (fun _ => True) (fun cell _ untouched => ?_) trivial
    exact patch_outside fun write member => untouched write (prefix'.subset member)

theorem Recovered.of_pending {after disk disk' : Nat → Bytes} (recovered : Recovered v phys disk disk')
    (small : txn.length ≤ journalMaxTxBlocks) (some : txn ≠ []) (outside : Outside v phys txn)
    (flight : InFlight v phys txn after disk) : SameOutside v phys disk' after := by
  -- After the whole replay the header is wiped and every block is in its place.
  have replayed : ∀ {disk : Nat → Bytes}, InFlight v phys txn after disk →
      Quiet v phys (patch disk (inPlacePlan v txn ++ [(v.sector (phys 0), fun _ => 0)])) ∧
        SameOutside v phys (patch disk (inPlacePlan v txn ++ [(v.sector (phys 0), fun _ => 0)])) after := by
    intro disk flight
    rw [patch_append]
    constructor
    · exact quiet_of_zero (by simp [patch])
    · intro sector notJournal
      rw [← flight.result sector notJournal, patch_outside]
      intro write member same
      obtain rfl := List.mem_singleton.mp member
      exact notJournal (same ▸ inJournal_header)
  induction recovered with
  | @finished disk s s' device booted returned =>
    obtain ⟨done, _, disk', _, _, _, _, all, _⟩ := wp_result
      (recover_pending (v := v.on device) booted.place booted.ready small some outside
        (booted.disk ▸ ⟨flight.pending.header, flight.pending.data⟩)) returned
    rw [disk', (all rfl).1, booted.disk]
    exact (replayed flight).2
  | cut device booted returned log cut rest ih =>
    obtain ⟨done', prefix', _, log', _⟩ := wp_result
      (recover_pending (v := v.on device) booted.place booted.ready small some outside
        (booted.disk ▸ ⟨flight.pending.header, flight.pending.data⟩)) returned
    obtain rfl := List.append_cancel_left (log.symm.trans log')
    -- The cut recovery wiped the header or left the transaction in flight.
    rcases List.prefix_concat_iff.mp (cut.trans prefix') with rfl | part
    · rw [rest.of_quiet (replayed flight).1]
      exact (replayed flight).2
    · exact ih (flight.cut small outside part)

theorem mem_journalPlan {write : Nat × Bytes} :
    write ∈ journalPlan v phys txn ↔
      ∃ i entry, txn[i]? = some entry ∧ write = (v.sector (phys (i + 1)), entry.data) := by
  simp only [journalPlan, journalWriteAt, List.mem_flatMap, List.mem_range, List.mem_map, Option.mem_toList]
  constructor
  · rintro ⟨i, _, entry, found, rfl⟩
    exact ⟨i, entry, found, rfl⟩
  · rintro ⟨i, entry, found, rfl⟩
    exact ⟨i, (List.getElem?_eq_some_iff.mp found).1, entry, found, rfl⟩

/-- Where a disk stands after a cut commit: nothing of it, all of it, or all of it in the journal. -/
inductive Standing (v : Volume) (phys : Nat → Nat) (txn : List TxnEntry) (before after disk : Nat → Bytes) : Prop where
  | untouched : Quiet v phys disk → SameOutside v phys disk before → Standing v phys txn before after disk
  | inFlight : InFlight v phys txn after disk → Standing v phys txn before after disk
  | settled : Quiet v phys disk → SameOutside v phys disk after → Standing v phys txn before after disk

theorem journalPlan_outside {before : Nat → Bytes} {header : Bytes} (small : txn.length ≤ journalMaxTxBlocks) :
    SameOutside v phys (patch before (journalPlan v phys txn ++ [(v.sector (phys 0), header)])) before := by
  intro sector notJournal
  refine patch_outside fun write member same => notJournal (same ▸ ?_)
  rcases List.mem_append.mp member with inData | inHeader
  · obtain ⟨i, entry, found, rfl⟩ := mem_journalPlan.mp inData
    have inside : i < txn.length := (List.getElem?_eq_some_iff.mp found).1
    exact inJournal_data (by omega)
  · obtain rfl := List.mem_singleton.mp inHeader
    exact inJournal_header

theorem commitPlan_outside {before : Nat → Bytes} {sequence : Nat} (small : txn.length ≤ journalMaxTxBlocks) :
    SameOutside v phys (patch before (commitPlan v phys txn sequence)) (patch before (inPlacePlan v txn)) := by
  intro sector notJournal
  rw [commitPlan, patch_append, patch_outside, patch_append]
  · exact patch_congr _ (fun cell apart _ => journalPlan_outside small cell apart) notJournal
  · intro write member same
    obtain rfl := List.mem_singleton.mp member
    exact notJournal (same ▸ inJournal_header)

theorem commitPlan_quiet {before : Nat → Bytes} {sequence : Nat} :
    Quiet v phys (patch before (commitPlan v phys txn sequence)) := by
  rw [commitPlan, patch_append]
  exact quiet_of_zero (by simp [patch])

theorem commitPlan_flight (before : Nat → Bytes) (sequence : Nat) (distinct : Distinct v phys)
    (small : txn.length ≤ journalMaxTxBlocks) :
    InFlight v phys txn (patch before (inPlacePlan v txn))
      (patch before (journalPlan v phys txn ++ [(v.sector (phys 0), pendingHeader v txn sequence)])) := by
  refine ⟨⟨⟨sequence, by simp [patch_append, patch]⟩, ?_⟩, ?_⟩
  · intro i entry found
    have inside : i < txn.length := (List.getElem?_eq_some_iff.mp found).1
    have write : (v.sector (phys (i + 1)), entry.data) ∈ journalPlan v phys txn :=
      mem_journalPlan.mpr ⟨i, entry, found, rfl⟩
    rw [patch_append, patch_outside]
    · refine patch_value ⟨_, write, rfl⟩ fun other member same => ?_
      -- One place of the journal belongs to one block of the transaction.
      obtain ⟨j, entry', found', rfl⟩ := mem_journalPlan.mp member
      have inside' : j < txn.length := (List.getElem?_eq_some_iff.mp found').1
      obtain rfl : j = i := by
        have := distinct (j + 1) (by omega) (i + 1) (by omega) same
        omega
      obtain rfl : entry' = entry := by simpa [found] using found'.symm
      rfl
    · intro other member same
      obtain rfl := List.mem_singleton.mp member
      have := distinct 0 (by decide) (i + 1) (by omega) same
      omega
  · intro sector notJournal
    exact patch_congr _ (fun cell apart _ => journalPlan_outside small cell apart) notJournal

theorem commitPlan_cut {before : Nat → Bytes} {sequence : Nat} {done : List (Nat × Bytes)}
    (distinct : Distinct v phys) (small : txn.length ≤ journalMaxTxBlocks) (outside : Outside v phys txn)
    (quiet : Quiet v phys before) (cut : done <+: commitPlan v phys txn sequence) :
    Standing v phys txn before (patch before (inPlacePlan v txn)) (patch before done) := by
  have flight := commitPlan_flight before sequence distinct small
  rcases List.prefix_concat_iff.mp cut with rfl | part
  · -- The commit went through.
    exact .settled commitPlan_quiet (commitPlan_outside small)
  · rcases prefix_append_split part with early | ⟨rest, inPlace, rfl⟩
    · rcases List.prefix_concat_iff.mp early with rfl | beforeHeader
      · exact .inFlight flight
      · -- Until the header is written only journal blocks behind it change, and the header is the old one.
        have data : ∀ {write}, write ∈ done → InJournal v phys write.1 ∧ write.1 ≠ v.sector (phys 0) := by
          intro write member
          obtain ⟨i, entry, found, rfl⟩ := mem_journalPlan.mp (beforeHeader.subset member)
          have inside : i < txn.length := (List.getElem?_eq_some_iff.mp found).1
          refine ⟨inJournal_data (by omega), fun same => ?_⟩
          have := distinct (i + 1) (by omega) 0 (by decide) same
          omega
        have header : patch before done (v.sector (phys 0)) = before (v.sector (phys 0)) :=
          patch_outside fun write member => (data member).2
        refine .untouched (by simpa only [Quiet, header] using quiet) fun sector notJournal => ?_
        exact patch_outside fun write member same => notJournal (same ▸ (data member).1)
    · rw [patch_append]
      exact .inFlight (flight.cut small outside inPlace)

theorem InFlight.quiet_of_nil {after disk : Nat → Bytes} (flight : InFlight v phys [] after disk) :
    Quiet v phys disk ∧ SameOutside v phys disk after := by
  obtain ⟨sequence, header⟩ := flight.pending.header
  obtain ⟨known, _, count⟩ := header_fields v ([].map (TxnEntry.stamp v))
    journalStatePending sequence (by simp) (by decide)
  refine ⟨Or.inr ?_, flight.result⟩
  rw [header]
  exact ⟨known, headerCrcOk_pack, Or.inr count⟩

theorem Standing.recovered {before after disk disk' : Nat → Bytes} (small : txn.length ≤ journalMaxTxBlocks)
    (outside : Outside v phys txn) (standing : Standing v phys txn before after disk)
    (recovered : Recovered v phys disk disk') :
    SameOutside v phys disk' before ∨ SameOutside v phys disk' after := by
  cases standing with
  | untouched quiet same =>
    rw [recovered.of_quiet quiet]
    exact Or.inl same
  | settled quiet same =>
    rw [recovered.of_quiet quiet]
    exact Or.inr same
  | inFlight flight =>
    by_cases some : txn = []
    · subst some
      rw [recovered.of_quiet flight.quiet_of_nil.1]
      exact Or.inr flight.quiet_of_nil.2
    · exact Or.inr (recovered.of_pending small some outside flight)

/-- A recovery on a device that works returns. -/
def Mountable (v : Volume) (phys : Nat → Nat) (disk : Nat → Bytes) : Prop :=
  ∀ device : Device, device.ReadsOk → device.WritesOk → ∀ boot, Booted phys disk boot →
    ∃ s', journalRecoverIfNeeded (v.on device) boot = some (.ok (), s')

theorem Mountable.of_quiet {disk : Nat → Bytes} (quiet : Quiet v phys disk) : Mountable v phys disk := by
  intro device reads writes boot booted
  obtain ⟨outcome, s', returned, done, _, _, _, _, _, _, _, only⟩ :=
    wp_total (recover_quiet (v := v.on device) booted.place (booted.disk ▸ quiet))
  exact ⟨s', by rw [returned, only writes reads]⟩

theorem Standing.mountable {before after disk : Nat → Bytes} (small : txn.length ≤ journalMaxTxBlocks)
    (outside : Outside v phys txn) (standing : Standing v phys txn before after disk) : Mountable v phys disk := by
  cases standing with
  | untouched quiet _ => exact Mountable.of_quiet quiet
  | settled quiet _ => exact Mountable.of_quiet quiet
  | inFlight flight =>
    by_cases some : txn = []
    · subst some
      exact Mountable.of_quiet flight.quiet_of_nil.1
    · intro device reads writes boot booted
      obtain ⟨outcome, s', returned, done, _, _, _, _, _, _, _, only⟩ :=
        wp_total (recover_pending (v := v.on device) booted.place booted.ready small some outside
          (booted.disk ▸ ⟨flight.pending.header, flight.pending.data⟩))
      exact ⟨s', by rw [returned, only writes reads]⟩

theorem Standing.side {before after disk : Nat → Bytes} (small : txn.length ≤ journalMaxTxBlocks)
    (outside : Outside v phys txn) (standing : Standing v phys txn before after disk) (quiet : Quiet v phys disk) :
    SameOutside v phys disk before ∨ SameOutside v phys disk after := by
  cases standing with
  | untouched _ same => exact Or.inl same
  | settled _ same => exact Or.inr same
  | inFlight flight =>
    by_cases some : txn = []
    · subst some
      exact Or.inr flight.quiet_of_nil.2
    · -- A pending header with entries is not quiet.
      obtain ⟨sequence, header⟩ := flight.pending.header
      obtain ⟨known, state, count⟩ := header_fields v (txn.map (TxnEntry.stamp v))
        journalStatePending sequence (by rwa [List.length_map]) (by decide)
      rw [Quiet, header, pendingHeader] at quiet
      rcases quiet with ⟨_, clean⟩ | ⟨_, _, other | empty⟩
      · rw [state] at clean
        cases clean
      · exact absurd state other
      · rw [count, List.length_map] at empty
        exact absurd (List.length_eq_zero_iff.mp empty) some

theorem recover_settles (place : s.journal.physBlocks = phys) (ready : s.journal.ready = true) :
    wp lost (journalRecoverIfNeeded v) (fun outcome s' => outcome = .ok () →
      Quiet v phys s'.disk ∧ s'.journal = s.journal ∧ s'.txn = s.txn) s := by
  rw [journalRecoverIfNeeded, wp_bind, wp_get]
  dsimp only
  rw [if_neg (by simp [ready]), wp_bind]
  refine wp_rawBlockRead (fun _ ok => (by cases ok)) ?_
  dsimp only
  rw [place, wp_ite]
  refine ⟨fun clean _ => ⟨Or.inl clean, rfl, rfl⟩, fun _ => ?_⟩
  rw [wp_ite]
  refine ⟨fun _ ok => (by cases ok), fun known => ?_⟩
  rw [wp_ite]
  refine ⟨fun _ ok => (by cases ok), fun crc => ?_⟩
  rw [wp_ite]
  refine ⟨fun settled _ => ⟨Or.inr ⟨by simpa using known, by simpa using crc, settled⟩, rfl, rfl⟩, fun _ => ?_⟩
  -- The replay leaves the journal's place and the transaction alone, and then the header is wiped.
  rw [wp_bind]
  refine wp_forEach (fun _ s' => s'.journal = s.journal ∧ s'.txn = s.txn) ⟨rfl, rfl⟩ ?_ ?_
  · rintro i rest s₁ same
    rw [recoverBlock, wp_bind, wp_get]
    dsimp only
    rw [wp_bind]
    refine wp_rawBlockRead (fun _ ok => (by cases ok)) ?_
    simp only [wp_ite, wp_bind, wp_modify, wp_fail, rawBlockWrite, wp_get]
    exact ⟨fun _ ok => (by cases ok), fun _ => ⟨fun _ ok => (by cases ok), fun _ => same⟩⟩
  · rintro s₁ ⟨journal, txn⟩
    simp only [blkFlushSync, journalClearDisk, rawBlockWrite, wp_bind, wp_get, wp_modify, wp_ite, wp_fail, wp_pure]
    refine ⟨fun _ ok => (by cases ok), fun _ => ⟨fun _ => ⟨fun _ ok => (by cases ok), fun _ =>
      ⟨fun _ ok => (by cases ok), fun _ _ => ⟨quiet_of_zero ?_, journal, txn⟩⟩⟩, fun notReady => ?_⟩⟩
    · simp [cacheInvalidate, journal, place]
    · simp [journal, ready] at notReady

end

end Enlil.Ext4
