import Enlil.Ext4.Journal

/-! Which raw writes a commit and a recovery make, in which order, wherever an error stops them. -/

namespace Enlil.Ext4

open Machine

/-- Two states with the same disk, the same writes so far, the journal at the same place and as large a transaction. -/
structure SameStore (s s' : State) : Prop where
  disk : s'.disk = s.disk
  log : s'.log = s.log
  place : s'.journal.physBlocks = s.journal.physBlocks
  ready : s'.journal.ready = s.journal.ready
  size : s'.txn.length = s.txn.length

/--
A call that follows a plan of raw writes.

Whatever its outcome it made the writes of a prefix of the plan, and all of them when it returned without an error.
When other things are in order, only a failing write or flush stops it.
-/
def Writes (v : Volume) (calm : Prop) (s : State) (plan : List (Nat × Bytes)) (final : State → Prop) (outcome : Except Errno Unit)
    (s' : State) : Prop :=
  ∃ done, done <+: plan ∧ s'.disk = patch s.disk done ∧ s'.log = s.log ++ done ∧
    s'.journal.physBlocks = s.journal.physBlocks ∧ s'.journal.ready = s.journal.ready ∧
    s'.txn.length = s.txn.length ∧
    (outcome = .ok () → done = plan ∧ final s') ∧ (v.device.WritesOk → calm → outcome = .ok ())

section

variable {v : Volume} {lost calm : Prop} {s : State} {plan plan' : List (Nat × Bytes)}
  {final final' : State → Prop}

theorem Writes.nothing {s' : State} (same : SameStore s s') (holds : final s') :
    Writes v calm s [] final (.ok ()) s' :=
  ⟨[], List.nil_prefix, by simpa [patch] using same.disk, by simpa using same.log, same.place, same.ready,
    same.size, fun _ => ⟨rfl, holds⟩, fun _ _ => rfl⟩

theorem Writes.stopped {error : Errno} {s' : State} (fault : v.device.WritesOk → ¬ calm)
    (same : SameStore s s') : Writes v calm s plan final (.error error) s' :=
  ⟨[], List.nil_prefix, by simpa [patch] using same.disk, by simpa using same.log, same.place, same.ready,
    same.size, fun ok => (by cases ok), fun writes calm => absurd calm (fault writes)⟩

theorem writes_rawBlockWrite {blockNo : Nat} {data : Bytes} (final : State → Prop)
    (holds : final
      { s with
        tick := s.tick + 1
        disk := Function.update s.disk (v.sector blockNo) data
        log := s.log ++ [(v.sector blockNo, data)] }) :
    wp lost (rawBlockWrite v blockNo data) (Writes v calm s [(v.sector blockNo, data)] final) s := by
  simp only [rawBlockWrite, wp_bind, wp_get, wp_modify, wp_ite, wp_fail]
  refine ⟨fun fault => Writes.stopped (fun writes => ?_) ⟨rfl, rfl, rfl, rfl, rfl⟩, fun _ => ?_⟩
  · simp [(writes s.tick).1] at fault
  · exact ⟨_, List.prefix_rfl, rfl, rfl, rfl, rfl, rfl, fun _ => ⟨rfl, holds⟩, fun _ _ => rfl⟩

theorem writes_blkFlushSync (final : State → Prop) (holds : final { s with tick := s.tick + 1 }) :
    wp lost (blkFlushSync v) (Writes v calm s [] final) s := by
  simp only [blkFlushSync, wp_bind, wp_get, wp_modify, wp_ite, wp_fail, wp_pure]
  refine ⟨fun fault => Writes.stopped (fun writes => ?_) ⟨rfl, rfl, rfl, rfl, rfl⟩, fun _ => ?_⟩
  · simp [(writes s.tick).2] at fault
  · exact Writes.nothing ⟨rfl, rfl, rfl, rfl, rfl⟩ holds

theorem Writes.then {first : Call Unit} {rest : Unit → Call Unit}
    (holds : wp lost first (Writes v calm s plan final) s)
    (next : ∀ s', final s' → s'.journal.physBlocks = s.journal.physBlocks →
      s'.journal.ready = s.journal.ready → wp lost (rest ()) (Writes v calm s' plan' final') s') :
    wp lost (first >>= rest) (Writes v calm s (plan ++ plan') final') s := by
  rw [wp_bind]
  refine wp_mono holds ?_
  rintro outcome s₁ ⟨done, cut, disk, log, phys, ready, size, all, only⟩
  cases outcome with
  | error error =>
    refine ⟨done, cut.trans (List.prefix_append _ _), disk, log, phys, ready, size, fun ok => (by cases ok), ?_⟩
    exact fun writes calm => by cases only writes calm
  | ok value =>
    obtain ⟨rfl, holds₁⟩ := all rfl
    refine wp_mono (next s₁ holds₁ phys ready) ?_
    rintro outcome s₂ ⟨done', cut', disk', log', phys', ready', size', all', only'⟩
    refine ⟨done ++ done', ?_, ?_, ?_, phys'.trans phys, ready'.trans ready, size'.trans size, ?_, only'⟩
    · exact (List.prefix_append_right_inj done).mpr cut'
    · rw [disk', disk, patch_append]
    · rw [log', log, List.append_assoc]
    · intro ok
      obtain ⟨rfl, holds'⟩ := all' ok
      exact ⟨rfl, holds'⟩

theorem Writes.after {change : State → State} {rest : Unit → Call Unit}
    (same : SameStore s (change s))
    (holds : wp lost (rest ()) (Writes v calm (change s) plan final) (change s)) :
    wp lost (modify change >>= rest) (Writes v calm s plan final) s := by
  rw [wp_bind, wp_modify]
  refine wp_mono holds ?_
  rintro outcome s' ⟨done, cut, disk, log, place, ready, size, all, only⟩
  exact ⟨done, cut, same.disk ▸ disk, same.log ▸ log, same.place ▸ place, same.ready ▸ ready,
    same.size ▸ size, all, only⟩

theorem Writes.finally {program : Call Unit} {change : State → State} (same : ∀ s, SameStore s (change s))
    (holds : wp lost program (Writes v calm s plan fun s' => final (change s')) s) :
    wp lost (andFinally program change) (Writes v calm s plan final) s := by
  rw [wp_andFinally]
  refine wp_mono holds ?_
  rintro outcome s' ⟨done, cut, disk, log, place, ready, size, all, only⟩
  exact ⟨done, cut, (same s').disk.trans disk, (same s').log.trans log, (same s').place.trans place,
    (same s').ready.trans ready, (same s').size.trans size, all, only⟩

theorem wp_whenReady {step : Call Unit} {post : Except Errno Unit → State → Prop}
    (ready : s.journal.ready = true) : wp lost (whenReady step) post s ↔ wp lost step post s := by
  rw [whenReady, wp_bind, wp_get]
  dsimp only
  rw [if_pos ready]

theorem writes_forEach {β : Type} {body : β → Call Unit} {plan : β → List (Nat × Bytes)}
    (inv : List β → State → Prop)
    (round : ∀ x rest s, inv (x :: rest) s → wp lost (body x) (Writes v calm s (plan x) (inv rest)) s) (xs : List β) :
    ∀ {s : State}, inv xs s → wp lost (forEach xs body) (Writes v calm s (xs.flatMap plan) (inv [])) s := by
  induction xs with
  | nil => intro s holds; exact Writes.nothing ⟨rfl, rfl, rfl, rfl, rfl⟩ holds
  | cons x rest ih =>
    intro s holds
    rw [forEach, List.flatMap_cons]
    exact Writes.then (round x rest s holds) fun s' kept _ _ => ih kept

end

theorem flatMap_range {α β : Type} (xs : List α) (f : α → β) :
    ((List.range xs.length).flatMap fun i => xs[i]?.toList.map f) = xs.map f := by
  induction xs with
  | nil => rfl
  | cons x rest ih =>
    rw [List.length_cons, List.range_succ_eq_map, List.flatMap_cons, List.flatMap_map, List.map_cons, ← ih]
    simp

/-- An entry with the checksum of its block filled in. -/
def TxnEntry.stamp (v : Volume) (entry : TxnEntry) : TxnEntry :=
  { entry with dataCrc := journalBlockCrc v entry.data }

/-- The write of one block of a transaction into the journal. -/
def journalWriteAt (v : Volume) (phys : Nat → Nat) (txn : List TxnEntry) (i : Nat) : List (Nat × Bytes) :=
  txn[i]?.toList.map fun entry => (v.sector (phys (i + 1)), entry.data)

/-- The writes of a transaction into the journal, before its header. -/
def journalPlan (v : Volume) (phys : Nat → Nat) (txn : List TxnEntry) : List (Nat × Bytes) :=
  (List.range txn.length).flatMap (journalWriteAt v phys txn)

/-- The header of a pending transaction. -/
def pendingHeader (v : Volume) (txn : List TxnEntry) (sequence : Nat) : Bytes :=
  journalPackHeader v (txn.map (TxnEntry.stamp v)) journalStatePending sequence

/-- The writes of a transaction in place. -/
def inPlacePlan (v : Volume) (txn : List TxnEntry) : List (Nat × Bytes) :=
  txn.map fun entry => (v.sector entry.targetBlock, entry.data)

/-- All writes of a commit through the journal. -/
def commitPlan (v : Volume) (phys : Nat → Nat) (txn : List TxnEntry) (sequence : Nat) : List (Nat × Bytes) :=
  journalPlan v phys txn ++ [(v.sector (phys 0), pendingHeader v txn sequence)] ++ inPlacePlan v txn ++
    [(v.sector (phys 0), fun _ => 0)]

section

variable {v : Volume} {lost calm : Prop} {s : State}

/-- The transaction while some of its blocks are still to be written into the journal. -/
structure Stamping (v : Volume) (s₀ : State) (rest : List Nat) (s : State) : Prop where
  txn : ∀ i : Nat, s.txn[i]? = s₀.txn[i]?.map fun entry => if i ∈ rest then entry else entry.stamp v
  nodup : rest.Nodup
  journal : s.journal = s₀.journal

theorem writes_journalWriteBlock {s₀ : State} (i : Nat) (rest : List Nat) (stamping : Stamping v s₀ (i :: rest) s) :
    wp lost (journalWriteBlock v i)
      (Writes v calm s (journalWriteAt v s₀.journal.physBlocks s₀.txn i) (Stamping v s₀ rest)) s := by
  obtain ⟨fresh, nodup⟩ := List.nodup_cons.mp stamping.nodup
  let stamped : State := { s with txn := s.txn.modify i (TxnEntry.stamp v) }
  have next : Stamping v s₀ rest stamped := by
    refine ⟨fun j => ?_, nodup, stamping.journal⟩
    rw [List.getElem?_modify, stamping.txn j, Option.map_eq_map, Option.map_map]
    congr 1
    funext entry
    by_cases same : i = j
    · subst same
      simp [fresh]
    · simp [same, Ne.symm same]
  rw [journalWriteBlock]
  refine Writes.after ⟨rfl, rfl, rfl, rfl, List.length_modify ..⟩ ?_
  show wp lost _ _ stamped
  rw [wp_bind, wp_get]
  dsimp only
  -- The block itself is the one the transaction was built with.
  have entry := next.txn i
  simp only [fresh, if_false] at entry
  rw [entry, journalWriteAt]
  cases s₀.txn[i]? with
  | none => exact Writes.nothing ⟨rfl, rfl, rfl, rfl, rfl⟩ next
  | some entry =>
    simp only [Option.map_some, TxnEntry.stamp, ← stamping.journal, Option.toList_some, List.map_cons, List.map_nil]
    exact writes_rawBlockWrite (Stamping v s₀ rest) ⟨next.txn, next.nodup, next.journal⟩

theorem writes_journalWriteTxn (ready : s.journal.ready = true) (small : s.txn.length ≤ journalMaxTxBlocks) :
    wp lost (journalWriteTxn v)
      (Writes v calm s
        (journalPlan v s.journal.physBlocks s.txn ++
          [(v.sector (s.journal.physBlocks 0), pendingHeader v s.txn (s.journal.sequence + 1).toNat)])
        fun s' => s'.txn = s.txn.map (TxnEntry.stamp v)) s := by
  rw [journalWriteTxn, wp_bind, wp_get]
  dsimp only
  rw [if_neg (by simp [ready]), if_neg (by omega)]
  have start : Stamping v s (List.range s.txn.length) s := by
    refine ⟨fun i => ?_, List.nodup_range, rfl⟩
    by_cases inside : i < s.txn.length
    · simp [inside]
    · simp [inside]
  refine Writes.then (writes_forEach (Stamping v s) (fun i rest s => writes_journalWriteBlock i rest) _ start) ?_
  intro s₁ stamped _ _
  have txn : s₁.txn = s.txn.map (TxnEntry.stamp v) := by
    refine List.ext_getElem? fun i => ?_
    simp [stamped.txn i]
  refine Writes.after ⟨rfl, rfl, rfl, rfl, rfl⟩ ?_
  rw [wp_bind, wp_get]
  dsimp only
  rw [stamped.journal, txn, ← List.append_nil [_]]
  refine Writes.then (writes_rawBlockWrite (fun s' => s'.txn = s.txn.map (TxnEntry.stamp v)) rfl) ?_
  exact fun s₂ kept _ _ => writes_blkFlushSync _ kept

theorem writes_txnApplyToDisk :
    wp lost (txnApplyToDisk v) (Writes v calm s (inPlacePlan v s.txn) fun s' => s'.txn = s.txn) s := by
  rw [txnApplyToDisk, wp_bind, wp_get]
  dsimp only
  rw [inPlacePlan, List.map_eq_flatMap, ← List.append_nil (List.flatMap _ _)]
  refine Writes.then (writes_forEach (fun _ s' => s'.txn = s.txn) ?_ _ rfl) fun s' kept _ _ =>
    writes_blkFlushSync _ kept
  intro entry rest s₁ kept
  rw [← List.append_nil [_]]
  exact Writes.then (writes_rawBlockWrite (fun s' => s'.txn = s.txn) kept) fun s' kept' _ _ =>
    wp_modify.mpr (Writes.nothing ⟨rfl, rfl, rfl, rfl, rfl⟩ kept')

theorem writes_journalClearDisk (ready : s.journal.ready = true) :
    wp lost (journalClearDisk v)
      (Writes v calm s [(v.sector (s.journal.physBlocks 0), fun _ => 0)] fun s' => s'.txn = s.txn) s := by
  rw [journalClearDisk, wp_bind, wp_get]
  dsimp only
  rw [if_pos ready, ← List.append_nil [_]]
  exact Writes.then (writes_rawBlockWrite (fun s' => s'.txn = s.txn) rfl) fun s' kept _ _ =>
    writes_blkFlushSync _ kept

/-- No slot has to be committed. -/
def Clean (s : State) : Prop :=
  (∀ i, ¬ ((s.blocks i).valid = true ∧ (s.blocks i).dirty = true)) ∧
    ∀ i, ¬ ((s.inodes i).valid = true ∧ (s.inodes i).dirty = true)

theorem clean_txnClearDirtyFlags : Clean (txnClearDirtyFlags s) := by
  refine ⟨fun i => ?_, fun i => ?_⟩
  · by_cases valid : (s.blocks i).valid = true <;> simp [txnClearDirtyFlags, valid]
  · by_cases valid : (s.inodes i).valid = true <;> simp [txnClearDirtyFlags, valid]

theorem writes_commitThrough (ready : s.journal.ready = true) (small : s.txn.length ≤ journalMaxTxBlocks) :
    wp lost (commitThrough v)
      (Writes v calm s (commitPlan v s.journal.physBlocks s.txn (s.journal.sequence + 1).toNat)
        Clean) s := by
  rw [commitThrough, commitPlan, List.append_assoc]
  refine Writes.then ((wp_whenReady ready).mpr (writes_journalWriteTxn ready small)) fun s₁ stamped phys₁ ready₁ => ?_
  have inPlace : inPlacePlan v s.txn = inPlacePlan v s₁.txn := by
    simp [inPlacePlan, stamped, TxnEntry.stamp]
  rw [inPlace]
  refine Writes.then writes_txnApplyToDisk fun s₂ same₂ phys₂ ready₂ => ?_
  have header : s.journal.physBlocks 0 = s₂.journal.physBlocks 0 := by rw [phys₂, phys₁]
  rw [header, ← List.append_nil [_]]
  have ready' : s₂.journal.ready = true := by rw [ready₂, ready₁]; exact ready
  refine Writes.then ((wp_whenReady ready').mpr (writes_journalClearDisk ready')) fun s₃ _ _ _ => ?_
  exact wp_modify.mpr (Writes.nothing ⟨rfl, rfl, rfl, rfl, rfl⟩ clean_txnClearDirtyFlags)

theorem writes_commitTxn (ready : s.journal.ready = true) (small : s.txn.length ≤ journalMaxTxBlocks) :
    wp lost (commitTxn v)
      (Writes v calm s (commitPlan v s.journal.physBlocks s.txn (s.journal.sequence + 1).toNat)
        Clean) s := by
  refine Writes.after ⟨rfl, rfl, rfl, rfl, rfl⟩ ?_
  refine Writes.finally (fun _ => ⟨rfl, rfl, rfl, rfl, rfl⟩) ?_
  exact writes_commitThrough (s := setInCommit true s) ready small

end

end Enlil.Ext4
