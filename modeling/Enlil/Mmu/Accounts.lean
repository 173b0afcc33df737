import Enlil.Mmu.Spaces
import Enlil.Pmm.Ledger

/-! The references that a space holds, and the spaces whose references the allocator has counted. -/

namespace Enlil.Mmu

open Pmm

/-- Whether an address lies in a managed page. -/
def holds (pa page : Nat) : Bool := !unmanaged pa && pageOf pa = page

/-- The leaves of a space that map a page. -/
def leafRefs (space : Space) (page : Nat) : Nat := space.leaves.count fun pte => holds pte.pa page

/-- The tables of a space that occupy a page. -/
def tableRefs (space : Space) (page : Nat) : Nat :=
  (space.l2Tables.count fun pa => holds pa page) + (space.l3Tables.count fun pa => holds pa page) +
    refOf space.rootPa page

/-- The references of a space to a page. -/
def spaceRefs (space : Space) (page : Nat) : Nat := leafRefs space page + tableRefs space page

/-- Every table hangs below another one, and every leaf is in a table and maps a whole page. -/
structure Tidy (space : Space) : Prop where
  tables : space.tableCount ≤ mmuMaxSpaceTables
  parent : ∀ {index pa}, space.l3Tables.get? index = some pa → (space.l2Tables.get? (index / 2 ^ 9)).isSome
  backed : ∀ {page pte}, space.leaves.get? page = some pte →
    page < 2 ^ 27 ∧ (space.l3Tables.get? (page / 2 ^ 9)).isSome ∧ pteAddr pte.pa = pte.pa

/-- A page handed out that was not given to several spaces on purpose. -/
def Private (reserved : Nat → Bool) (shared : Nat → Prop) (page : Nat) : Prop := Pooled reserved page ∧ ¬ shared page

/-- A private page that a space may write is referenced by nobody else. -/
def Sole (reserved : Nat → Bool) (shared : Nat → Prop) (outer : Nat → Nat) (space : Space) : Prop :=
  ∀ {index pte page}, space.leaves.get? index = some pte → pte.writable = true → holds pte.pa page = true →
    Private reserved shared page → outer page = 0

/-- A space whose references, with those of all others and those that a call has in hand, are the ones the allocator has counted. -/
structure Settled (reserved : Nat → Bool) (shared : Nat → Prop) (outer hand : Nat → Nat) (mm : Mm) : Prop where
  ledger : Ledger reserved (fun page => outer page + hand page + spaceRefs mm.space page) mm.buddy
  tidy : Tidy mm.space
  sole : Sole reserved shared outer mm.space

/-- What a call on one space leaves alone: the bytes of the private pages that others refer to, and who refers to them. -/
structure Apart (reserved : Nat → Bool) (shared : Nat → Prop) (outer : Nat → Nat) (mm mm' : Mm) : Prop where
  bytes : ∀ page, Private reserved shared page → outer page ≠ 0 → ∀ offset < pageSize,
    mm'.memory (idxToPa page + offset) = mm.memory (idxToPa page + offset)
  refs : ∀ page, Private reserved shared page → outer page ≠ 0 → spaceRefs mm'.space page ≠ 0 →
    spaceRefs mm.space page ≠ 0

section

variable {reserved : Nat → Bool} {shared : Nat → Prop} {outer hand : Nat → Nat} {mm mm' mm₂ : Mm} {space : Space}
  {va pa page : Nat} {pte : Pte} {found : Bool} {buddy : Buddy}

theorem refOf_eq (pa page : Nat) : refOf pa page = (holds pa page).toNat := by
  unfold refOf holds
  by_cases managed : unmanaged pa = false <;> by_cases same : pageOf pa = page <;> simp [managed, same]

theorem holds_pteAddr (whole : pteAddr pa = pa) : holds pa page = true ↔ pa = idxToPa page ∧ page < numPages := by
  simp only [holds, Bool.and_eq_true, Bool.not_eq_true', decide_eq_true_eq, unmanaged, Bool.or_eq_false_iff,
    decide_eq_false_iff_not, pteAddr] at *
  simp only [pageOf, paToIdx, pageMask, idxToPa, numPages, pmmBase, pmmEnd, pageSize] at *
  omega

theorem pteAddr_idxToPa (inside : page < numPages) : pteAddr (idxToPa page) = idxToPa page := by
  simp only [pteAddr, idxToPa, numPages, pmmBase, pmmEnd, pageSize] at *
  omega

@[simp] theorem pteAddr_pteAddr (pa : Nat) : pteAddr (pteAddr pa) = pteAddr pa := by
  simp only [pteAddr, pageSize]
  omega

@[simp] theorem pageIndex_div (va : Nat) : pageIndex va / 2 ^ 9 = l3Index va := by
  unfold pageIndex l3Index
  omega

@[simp] theorem l3Index_div (va : Nat) : l3Index va / 2 ^ 9 = l1Index va := by
  unfold l3Index l1Index
  omega

theorem pageIndex_lt (va : Nat) : pageIndex va < 2 ^ 27 := by
  unfold pageIndex
  omega

theorem Tidy.validPte_eq (tidy : Tidy space) (va : Nat) : validPte space va = space.leaves.get? (pageIndex va) := by
  unfold validPte mmuLookupPte
  split
  · rfl
  · rename_i absent
    cases leaf : space.leaves.get? (pageIndex va) with
    | none => rfl
    | some pte =>
      obtain ⟨_, table, _⟩ := tidy.backed leaf
      rw [pageIndex_div] at table
      obtain ⟨l3, found⟩ := Option.isSome_iff_exists.mp table
      have upper := tidy.parent found
      rw [l3Index_div] at upper
      simp [table, upper] at absent

theorem Apart.refl (mm : Mm) : Apart reserved shared outer mm mm :=
  ⟨fun _ _ _ _ _ => rfl, fun _ _ _ some => some⟩

theorem Apart.trans (first : Apart reserved shared outer mm mm') (second : Apart reserved shared outer mm' mm₂) :
    Apart reserved shared outer mm mm₂ :=
  ⟨fun page own some offset inside => (second.bytes page own some offset inside).trans (first.bytes page own some offset inside),
    fun page own some some' => first.refs page own some (second.refs page own some some')⟩

theorem Settled.fresh (settled : Settled reserved shared outer hand mm) (ran : physAllocPage mm.buddy = .ok (pa, buddy)) :
    ∃ page, pa = idxToPa page ∧ Pooled reserved page ∧ outer page = 0 ∧ hand page = 0 ∧
      spaceRefs mm.space page = 0 ∧
      Ledger reserved (fun page => outer page + hand page + spaceRefs mm.space page + refOf pa page) buddy := by
  obtain ⟨⟨page, rfl, inside⟩, unheld, ledger⟩ := settled.ledger.allocPage ran
  have here : refsOf (idxToPa page) 1 page ≠ 0 := by
    rw [refsOf_eq 1 inside]
    simp
  obtain ⟨pooled, zero⟩ := unheld page here
  exact ⟨page, rfl, pooled, by omega, by omega, by omega, ledger⟩

theorem spaceRefs_setL2 {index : Nat} (absent : space.l2Tables.get? index = none) (pa page : Nat) :
    spaceRefs { space with l2Tables := space.l2Tables.set index pa } page = spaceRefs space page + refOf pa page := by
  simp only [spaceRefs, leafRefs, tableRefs, SortedMap.count_set_new _ _ absent, refOf_eq]
  omega

theorem spaceRefs_setL3 {index : Nat} (absent : space.l3Tables.get? index = none) (pa page : Nat) :
    spaceRefs { space with l3Tables := space.l3Tables.set index pa } page = spaceRefs space page + refOf pa page := by
  simp only [spaceRefs, leafRefs, tableRefs, SortedMap.count_set_new _ _ absent, refOf_eq]
  omega

theorem spaceEnsureL2_cases (ran : spaceEnsureL2 mm va = .ok (found, mm')) :
    ((mm.space.l2Tables.get? (l1Index va)).isSome ∧ found = true ∧ mm' = mm) ∨
    (mm.space.l2Tables.get? (l1Index va) = none ∧ ∃ pa buddy, physAllocPage mm.buddy = .ok (pa, buddy) ∧
      ((mmuMaxSpaceTables ≤ mm.space.tableCount ∧ found = false ∧
          ∃ freed, physFreePage buddy pa = .ok freed ∧ mm' = { mm with buddy := freed }) ∨
        (mm.space.tableCount < mmuMaxSpaceTables ∧ found = true ∧
          mm' = { mm with buddy, space := { mm.space with l2Tables := mm.space.l2Tables.set (l1Index va) pa } }))) := by
  unfold spaceEnsureL2 at ran
  split at ran
  · rename_i present
    cases ran
    exact Or.inl ⟨present, rfl, rfl⟩
  · rename_i absent
    obtain ⟨⟨pa, buddy⟩, allocated, ran⟩ := bind_ok ran
    refine Or.inr ⟨by simpa using absent, pa, buddy, allocated, ?_⟩
    dsimp only at ran
    split at ran
    · rename_i full
      obtain ⟨freed, back, ran⟩ := bind_ok ran
      cases ran
      exact Or.inl ⟨full, rfl, freed, back, rfl⟩
    · rename_i room
      cases ran
      exact Or.inr ⟨by omega, rfl, rfl⟩

theorem spaceEnsureL3_cases (ran : spaceEnsureL3 mm va = .ok (found, mm')) :
    ∃ found₂ mm₂, spaceEnsureL2 mm va = .ok (found₂, mm₂) ∧
      ((found₂ = false ∧ found = false ∧ mm' = mm₂) ∨
       (found₂ = true ∧ (mm₂.space.l3Tables.get? (l3Index va)).isSome ∧ found = true ∧ mm' = mm₂) ∨
       (found₂ = true ∧ mm₂.space.l3Tables.get? (l3Index va) = none ∧
          ∃ pa buddy, physAllocPage mm₂.buddy = .ok (pa, buddy) ∧
        ((mmuMaxSpaceTables ≤ mm₂.space.tableCount ∧ found = false ∧
            ∃ freed, physFreePage buddy pa = .ok freed ∧ mm' = { mm₂ with buddy := freed }) ∨
          (mm₂.space.tableCount < mmuMaxSpaceTables ∧ found = true ∧
            mm' = { mm₂ with
              buddy, space := { mm₂.space with l3Tables := mm₂.space.l3Tables.set (l3Index va) pa } })))) := by
  unfold spaceEnsureL3 at ran
  obtain ⟨⟨found₂, mm₂⟩, upper, ran⟩ := bind_ok ran
  refine ⟨found₂, mm₂, upper, ?_⟩
  dsimp only at ran
  cases found₂ with
  | false =>
    cases ran
    exact Or.inl ⟨rfl, rfl, rfl⟩
  | true =>
    refine Or.inr ?_
    simp only [Bool.not_true, Bool.false_eq_true, if_false] at ran
    split at ran
    · rename_i present
      cases ran
      exact Or.inl ⟨rfl, present, rfl, rfl⟩
    · rename_i absent
      obtain ⟨⟨pa, buddy⟩, allocated, ran⟩ := bind_ok ran
      refine Or.inr ⟨rfl, by simpa using absent, pa, buddy, allocated, ?_⟩
      dsimp only at ran
      split at ran
      · rename_i full
        obtain ⟨freed, back, ran⟩ := bind_ok ran
        cases ran
        exact Or.inl ⟨full, rfl, freed, back, rfl⟩
      · rename_i room
        cases ran
        exact Or.inr ⟨by omega, rfl, rfl⟩

theorem Settled.returned {freed : Buddy} (settled : Settled reserved shared outer hand mm)
    (allocated : physAllocPage mm.buddy = .ok (pa, buddy)) (back : physFreePage buddy pa = .ok freed) :
    Settled reserved shared outer hand { mm with buddy := freed } := by
  obtain ⟨_, _, _, _, _, _, ledger⟩ := settled.fresh allocated
  exact ⟨ledger.freed back, settled.tidy, settled.sole⟩

theorem Settled.addTable {tables : Space} (settled : Settled reserved shared outer hand mm)
    (allocated : physAllocPage mm.buddy = .ok (pa, buddy)) (tidy : Tidy tables)
    (leaves : tables.leaves = mm.space.leaves)
    (refs : ∀ page, spaceRefs tables page = spaceRefs mm.space page + refOf pa page) :
    Settled reserved shared outer hand { mm with buddy, space := tables } ∧
      Apart reserved shared outer mm { mm with buddy, space := tables } ∧
      ∀ page, outer page + spaceRefs mm.space page ≠ 0 → spaceRefs tables page = spaceRefs mm.space page := by
  obtain ⟨table, rfl, pooled, unheld, _, unused, ledger⟩ := settled.fresh allocated
  refine ⟨⟨ledger.congr fun page _ => ?_, tidy, ?_⟩, ⟨fun _ _ _ _ _ => rfl, fun page _ some here => ?_⟩,
    fun page used => ?_⟩
  · simp only [refs page, Nat.add_assoc]
  · intro index pte page leaf writable here own
    rw [leaves] at leaf
    exact settled.sole leaf writable here own
  · -- The page of the table is one that nobody else refers to.
    have other : pageOf (idxToPa table) ≠ page := by
      rintro rfl
      rw [pageOf_idxToPa] at some
      exact some unheld
    simpa only [refs page, refOf_other other, Nat.add_zero] using here
  · have other : pageOf (idxToPa table) ≠ page := by
      rintro rfl
      rw [pageOf_idxToPa] at used
      omega
    rw [refs page, refOf_other other, Nat.add_zero]

theorem Settled.ensureL2 (settled : Settled reserved shared outer hand mm) (ran : spaceEnsureL2 mm va = .ok (found, mm')) :
    Settled reserved shared outer hand mm' ∧ Apart reserved shared outer mm mm' ∧
      (∀ page, outer page + spaceRefs mm.space page ≠ 0 → spaceRefs mm'.space page = spaceRefs mm.space page) ∧
      (found = true → (mm'.space.l2Tables.get? (l1Index va)).isSome) := by
  rcases spaceEnsureL2_cases ran with ⟨present, rfl, rfl⟩ | ⟨absent, pa, buddy, allocated,
    ⟨_, rfl, freed, back, rfl⟩ | ⟨room, rfl, rfl⟩⟩
  · exact ⟨settled, .refl _, fun _ _ => rfl, fun _ => present⟩
  · exact ⟨settled.returned allocated back, ⟨fun _ _ _ _ _ => rfl, fun _ _ _ some => some⟩, fun _ _ => rfl,
      fun no => by cases no⟩
  · have tidy : Tidy { mm.space with l2Tables := mm.space.l2Tables.set (l1Index va) pa } := by
      refine ⟨?_, fun {index table} below => ?_, settled.tidy.backed⟩
      · simp only [Space.tableCount, SortedMap.size_set_new _ absent] at *
        omega
      · have upper := settled.tidy.parent below
        simp only [SortedMap.get?_set]
        split
        · rfl
        · exact upper
    obtain ⟨settled', apart, refs⟩ := settled.addTable allocated tidy rfl (spaceRefs_setL2 absent pa)
    exact ⟨settled', apart, refs, fun _ => by simp⟩

theorem spaceEnsureL3_frame (ran : spaceEnsureL3 mm va = .ok (found, mm')) :
    mm'.memory = mm.memory ∧ mm'.space.leaves = mm.space.leaves ∧ mm'.space.extents = mm.space.extents ∧
      mm'.space.mmapBase = mm.space.mmapBase := by
  obtain ⟨found₂, mm₂, upper, rest⟩ := spaceEnsureL3_cases ran
  have first : mm₂.memory = mm.memory ∧ mm₂.space.leaves = mm.space.leaves ∧
      mm₂.space.extents = mm.space.extents ∧ mm₂.space.mmapBase = mm.space.mmapBase := by
    rcases spaceEnsureL2_cases upper with ⟨_, _, rfl⟩ | ⟨_, _, _, _, ⟨_, _, _, _, rfl⟩ | ⟨_, _, rfl⟩⟩ <;> simp
  rcases rest with ⟨_, _, rfl⟩ | ⟨_, _, _, rfl⟩ | ⟨_, _, _, _, _, ⟨_, _, _, _, rfl⟩ | ⟨_, _, rfl⟩⟩ <;> exact first

theorem Settled.ensureL3 (settled : Settled reserved shared outer hand mm) (ran : spaceEnsureL3 mm va = .ok (found, mm')) :
    Settled reserved shared outer hand mm' ∧ Apart reserved shared outer mm mm' ∧
      (∀ page, outer page + spaceRefs mm.space page ≠ 0 → spaceRefs mm'.space page = spaceRefs mm.space page) ∧
      (found = true → (mm'.space.l3Tables.get? (l3Index va)).isSome) := by
  obtain ⟨found₂, mm₂, upper, rest⟩ := spaceEnsureL3_cases ran
  obtain ⟨settled₂, apart₂, refs₂, table⟩ := settled.ensureL2 upper
  rcases rest with ⟨_, rfl, rfl⟩ | ⟨_, present, rfl, rfl⟩ | ⟨rfl, absent, pa, buddy, allocated,
    ⟨_, rfl, freed, back, rfl⟩ | ⟨room, rfl, rfl⟩⟩
  · exact ⟨settled₂, apart₂, refs₂, fun no => by cases no⟩
  · exact ⟨settled₂, apart₂, refs₂, fun _ => present⟩
  · exact ⟨settled₂.returned allocated back,
      apart₂.trans ⟨fun _ _ _ _ _ => rfl, fun _ _ _ some => some⟩, refs₂, fun no => by cases no⟩
  · have tidy : Tidy { mm₂.space with l3Tables := mm₂.space.l3Tables.set (l3Index va) pa } := by
      refine ⟨?_, fun {index table'} below => ?_, fun {index pte} leaf => ?_⟩
      · simp only [Space.tableCount, SortedMap.size_set_new _ absent] at *
        omega
      · rw [SortedMap.get?_set] at below
        split at below
        · rename_i same
          rw [same, l3Index_div]
          exact table rfl
        · exact settled₂.tidy.parent below
      · obtain ⟨low, present, whole⟩ := settled₂.tidy.backed leaf
        refine ⟨low, ?_, whole⟩
        simp only [SortedMap.get?_set]
        split
        · rfl
        · exact present
    obtain ⟨settled', apart, refs⟩ := settled₂.addTable allocated tidy rfl (spaceRefs_setL3 absent pa)
    refine ⟨settled', apart₂.trans apart, fun page used => ?_, fun _ => by simp⟩
    have same := refs₂ page used
    rw [← same]
    exact refs page (by rw [same]; exact used)

end

end Enlil.Mmu
