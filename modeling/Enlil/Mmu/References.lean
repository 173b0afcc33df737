import Enlil.Mmu.Sessions

/-! The reference counters of physical pages count the leaf descriptors that map them. -/

namespace Enlil.Mmu

open Pmm AlignedBlock

/-- The references of the kernel itself to a page: what it holds, and the tables it keeps. -/
def Session.kernelRefs (s : Session) (page : Nat) : Nat :=
  s.held page + ∑ i ∈ Finset.range mmuMaxSpaces, (s.state.spaces i).elim 0 fun space => tableRefs space page

/-- The valid leaf descriptors, over all spaces, that map a page. -/
def Session.mappings (s : Session) (page : Nat) : Nat :=
  ∑ i ∈ Finset.range mmuMaxSpaces, (s.state.spaces i).elim 0 fun space => leafRefs space page

/-- A page on a free list. -/
def Listed (buddy : Buddy) (page : Nat) : Prop := ∃ order idx, buddy.FreeBlock order idx ∧ Covers idx order page

/-- Every page that is not on a free list has its references counted, and no descriptor maps a page that is. -/
structure Session.Exact (reserved : Nat → Bool) (s : Session) : Prop where
  counted : ∀ page, Pooled reserved page → ¬ Listed s.state.buddy page →
    (s.state.buddy.pageRefs page).toNat = s.kernelRefs page + s.mappings page
  mapped : ∀ {i space va pte page}, s.state.spaces i = some space → validPte space va = some pte →
    holds pte.pa page = true → ¬ Listed s.state.buddy page

/-- What the callers promise: pages given to a mapping are retained by it and the kernel's own, and the kernel frees what it holds. -/
def Lawful (reserved : Nat → Bool) (s : Session) : Op → Prop
  | .mapPhys _ _ pa size _ retain => retain = true ∧ ∀ k < size / pageSize, ∀ page,
      holds (pteAddr (pa + k * pageSize)) page = true → Pooled reserved page → s.held page ≠ 0
  | .mapPhysAnywhere _ pa size _ retain => retain = true ∧ ∀ k < alignSize size / pageSize, ∀ page,
      holds (pteAddr (pa + k * pageSize)) page = true → Pooled reserved page → s.held page ≠ 0
  | .kernelFree pa => ∀ page, holds pa page = true → Pooled reserved page → s.held page ≠ 0
  | _ => True

section

variable {reserved : Nat → Bool} {blocks : List (Nat × Nat)} {memory : Bytes} {s : Session}

theorem Session.refs_eq (s : Session) (page : Nat) : s.refs page = s.kernelRefs page + s.mappings page := by
  have each : ∀ i, s.state.refsAt i page =
      ((s.state.spaces i).elim 0 fun space => tableRefs space page) +
        (s.state.spaces i).elim 0 fun space => leafRefs space page := fun i => by
    unfold State.refsAt spaceRefs
    cases s.state.spaces i <;> simp [Nat.add_comm]
  simp only [Session.refs, Session.kernelRefs, Session.mappings, State.allRefs, each, Finset.sum_add_distrib]
  omega

theorem Accounted.exact {shared : Nat → Prop} (accounted : Accounted reserved shared s.held s.state) :
    s.Exact reserved := by
  refine ⟨fun page pooled out => ?_, fun {i space va pte page} here present held => ?_⟩
  · have some : s.held page + s.state.allRefs page ≠ 0 := fun zero =>
      out ((accounted.ledger.listed page).mpr ⟨(holders_pool pooled).mpr zero, id⟩)
    rw [accounted.ledger.refs pooled some, ← Session.refs_eq]
    rfl
  · rintro ⟨order, idx, free, covers⟩
    have zero := (accounted.ledger.unlisted free covers).2
    rw [(accounted.tidy here).validPte_eq] at present
    have referred := spaceRefs_pos present held
    rw [← refsAt_some here] at referred
    have among : s.state.refsAt i page ≤ s.state.allRefs page := refsAt_le_all (accounted.slots here)
    omega

theorem boot_accounted (tiles : Tiles reserved blocks) (shared : Nat → Prop) (memory : Bytes) :
    Accounted reserved shared (bootSession reserved blocks memory).held (bootSession reserved blocks memory).state :=
  ⟨nofun, (boot_ledger tiles).congr fun page _ => by simp [bootSession, mmuInit, State.allRefs, State.refsAt],
    nofun, nofun⟩

theorem boot_placed : TrampolinePlaced (bootSession reserved blocks memory).state := fun some => absurd rfl some

theorem run_accounted (tiles : Tiles reserved blocks)
    (run : Run exec (Allowed reserved) (bootSession reserved blocks memory) s) :
    Accounted reserved (fun _ => True) s.held s.state ∧ TrampolinePlaced s.state := by
  -- Isolation is no concern here, so every page counts as shared.
  have step : ∀ {s s' : Session} {op : Op},
      Accounted reserved (fun _ => True) s.held s.state ∧ TrampolinePlaced s.state → Allowed reserved s op →
      exec s op = .ok s' → Accounted reserved (fun _ => True) s'.held s'.state ∧ TrampolinePlaced s'.state := by
    intro s s' op inv allow returned
    refine exec_accounted inv.1 inv.2 allow ?_ returned
    cases op with
    | trampoline i => exact fun _ _ _ _ _ _ own => absurd trivial own.2
    | mapPhys => exact fun _ _ _ _ => trivial
    | mapPhysAnywhere => exact fun _ _ _ _ => trivial
    | aliasRegion => exact fun _ _ _ _ _ _ _ _ _ own => absurd trivial own.2
    | _ => trivial
  exact (Run.invariant ⟨boot_accounted tiles _ memory, boot_placed⟩ step run :
    (fun s : Session => Accounted reserved (fun _ => True) s.held s.state ∧ TrampolinePlaced s.state) s)

/-- In every run under the discipline the counters are exact. -/
theorem run_exact (tiles : Tiles reserved blocks)
    (run : Run exec (Allowed reserved) (bootSession reserved blocks memory) s) : s.Exact reserved :=
  (run_accounted tiles run).1.exact

end

/-- The calls that promise nothing, as a test. -/
def Op.plain : Op → Bool
  | .mapPhys .. | .mapPhysAnywhere .. | .kernelFree _ => false
  | _ => true

theorem Op.plain_lawful {reserved : Nat → Bool} {s : Session} {op : Op} (plain : op.plain = true) :
    Lawful reserved s op := by
  cases op <;> trivial

/-- The kernel's memory at boot, all bytes zero. -/
def emptyBoot : Session := bootSession kernelReserved largestBlocks fun _ => 0

/-- The only space with the trampoline is destroyed, and then another space maps the trampoline. -/
def staleTrampoline : List Op := [.create, .create, .trampoline 1, .create, .destroy 1, .trampoline 2]

/-- Whether the trampoline of the third space maps a page that starts a free block. -/
def Session.mapsFreePage (s : Session) : Bool :=
  match s.state.spaces 2 with
  | none => false
  | some space =>
    match validPte space mmuUserSigtrampVa with
    | none => false
    | some pte => !unmanaged pte.pa && (List.range maxOrder).any fun order =>
        (s.state.buddy.buddySent order).contains (pageOf pte.pa)

theorem staleTrampoline_found :
    ∃ s, Run exec (fun _ op => op.plain = true) emptyBoot s ∧ s.mapsFreePage = true := by
  have found : (runList exec (fun _ op => op.plain = true) emptyBoot staleTrampoline).any Session.mapsFreePage = true := by
    decide +kernel
  exact runList_any found

/-- Without the discipline a descriptor maps a page of the free lists. -/
theorem run_not_exact :
    ¬ ∀ (reserved : Nat → Bool) (blocks : List (Nat × Nat)) (memory : Bytes), Tiles reserved blocks →
      ∀ s, Run exec (Lawful reserved) (bootSession reserved blocks memory) s → s.Exact reserved := by
  intro claim
  obtain ⟨s, run, found⟩ := staleTrampoline_found
  have exact := claim _ _ _ largestBlocks_tiles s (run.mono fun _ _ plain => Op.plain_lawful plain)
  unfold Session.mapsFreePage at found
  split at found
  · cases found
  · rename_i space here
    split at found
    · cases found
    · rename_i pte present
      simp only [Bool.and_eq_true, Bool.not_eq_true', List.any_eq_true, List.contains_iff_mem] at found
      obtain ⟨managed, order, _, free⟩ := found
      exact exact.mapped here present (show holds pte.pa (pageOf pte.pa) = true by simp [holds, managed])
        ⟨order, pageOf pte.pa, free, covers_base _ _⟩

/-- The calls that make a first space and map one page in it. -/
def firstSpace : List Op := [.create, .trampoline 0, .map 0 mmuUserBase pageSize ⟨true, false⟩]

/-- A test for the discipline on calls that make a first space. -/
def Session.starting (s : Session) : Op → Bool
  | .create => true
  | .trampoline _ => s.state.signalTrampPa = 0
  | .map i start size _ => size = pageSize && (s.state.spaces i).all fun space =>
      (space.leaves.get? (pageIndex start)).isNone &&
        space.tableCount + tablesNeeded space.has2 space.has3 start 1 ≤ mmuMaxSpaceTables &&
        space.extents.length < mmuMaxSpaceExtents
  | .clone parent _ => (s.state.spaces parent).all fun space => space.leaves.entries.all fun entry =>
      s.refs (pageOf entry.2.pa) + leafRefs space (pageOf entry.2.pa) ≤ 65535
  | _ => false

theorem Session.starting_allowed {reserved : Nat → Bool} {s : Session} {op : Op} (starting : s.starting op = true) :
    Allowed reserved s op := by
  cases op with
  | trampoline i => exact fun _ _ _ some => absurd (by simpa [Session.starting] using starting) some
  | map i start size prot =>
    simp only [Session.starting, Bool.and_eq_true, decide_eq_true_eq] at starting
    obtain ⟨rfl, free⟩ := starting
    intro space here _
    rw [here] at free
    simp only [Option.all_some, Bool.and_eq_true, decide_eq_true_eq, Option.isNone_iff_eq_none] at free
    obtain ⟨⟨leaf, tables⟩, extents⟩ := free
    refine ⟨fun i below => ?_, tables, ?_⟩
    · have zero : i = 0 := by
        simp only [pageSize, Nat.div_self (show 0 < 4096 by decide)] at below
        omega
      rw [zero, Nat.zero_mul, Nat.add_zero]
      exact leaf
    · have blocks : blocksNeeded (pageSize / pageSize) (pageSize / pageSize) = 1 := by decide
      rw [blocks]
      omega
  | clone parent start =>
    intro space here page _ mapped
    obtain ⟨index, pte, leaf, held⟩ := SortedMap.exists_of_count_pos (Nat.pos_of_ne_zero mapped)
    simp only [Session.starting, here, Option.all_some, List.all_eq_true, decide_eq_true_eq] at starting
    have room := starting _ (SortedMap.get?_eq_some.mp leaf)
    simp only [holds, Bool.and_eq_true, decide_eq_true_eq] at held
    rwa [held.2] at room
  | create => trivial
  | _ => cases starting

/-- A first space with its trampoline and one page is reached by a run under the discipline. -/
theorem run_exact_firstSpace :
    ∃ s, Run exec (Allowed kernelReserved) emptyBoot s ∧
      (s.state.spaces 0).any (fun space => (validPte space mmuUserBase).isSome) = true ∧ s.Exact kernelReserved := by
  have found : (runList exec (fun s op => s.starting op = true) emptyBoot firstSpace).any
      (fun s => (s.state.spaces 0).any fun space => (validPte space mmuUserBase).isSome) = true := by
    decide +kernel
  obtain ⟨s, run, mapped⟩ := runList_any found
  have lawful := run.mono fun _ _ starting => @Session.starting_allowed kernelReserved _ _ starting
  exact ⟨s, lawful, mapped, run_exact largestBlocks_tiles lawful⟩

end Enlil.Mmu
