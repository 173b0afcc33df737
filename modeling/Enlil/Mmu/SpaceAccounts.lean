import Enlil.Mmu.CopyOnWrite

/-! All spaces together: the allocator has counted the references of each, and the calls on one leave the others apart. -/

namespace Enlil.Mmu

open Pmm

/-- The references to a page of the space at a place of the pool. -/
def State.refsAt (s : State) (i page : Nat) : Nat := (s.spaces i).elim 0 fun space => spaceRefs space page

/-- The references to a page of all spaces. -/
def State.allRefs (s : State) (page : Nat) : Nat := ∑ i ∈ Finset.range mmuMaxSpaces, s.refsAt i page

/-- The references to a page that are not of one space: what the kernel holds, and the other spaces. -/
def State.outerRefs (s : State) (held : Nat → Nat) (i page : Nat) : Nat :=
  held page + ∑ j ∈ (Finset.range mmuMaxSpaces).erase i, s.refsAt j page

/-- The allocator's counters are the references of the kernel and of the spaces. -/
structure Accounted (reserved : Nat → Bool) (shared : Nat → Prop) (held : Nat → Nat) (s : State) : Prop where
  slots : ∀ {i space}, s.spaces i = some space → i < mmuMaxSpaces
  ledger : Ledger reserved (fun page => held page + s.allRefs page) s.buddy
  tidy : ∀ {i space}, s.spaces i = some space → Tidy space
  sole : ∀ {i space}, s.spaces i = some space → Sole reserved shared (s.outerRefs held i) space

section

variable {reserved : Nat → Bool} {shared : Nat → Prop} {held : Nat → Nat} {s s' : State} {mm' : Mm} {space : Space}
  {i j page pa : Nat} {buddy : Buddy}

theorem refsAt_some (here : s.spaces i = some space) (page : Nat) : s.refsAt i page = spaceRefs space page := by
  rw [State.refsAt, here, Option.elim_some]

theorem refsAt_none (free : s.spaces i = none) (page : Nat) : s.refsAt i page = 0 := by
  rw [State.refsAt, free, Option.elim_none]

theorem allRefs_split (inside : i < mmuMaxSpaces) (held : Nat → Nat) (page : Nat) :
    held page + s.allRefs page = s.outerRefs held i page + s.refsAt i page := by
  rw [State.allRefs, State.outerRefs, ← Finset.add_sum_erase _ _ (Finset.mem_range.mpr inside)]
  omega

theorem outerRefs_congr (same : ∀ j, j ≠ i → s'.spaces j = s.spaces j) (page : Nat) :
    s'.outerRefs held i page = s.outerRefs held i page := by
  unfold State.outerRefs
  congr 1
  refine Finset.sum_congr rfl fun j member => ?_
  rw [State.refsAt, State.refsAt, same j (Finset.mem_erase.mp member).1]

theorem refsAt_le_outer (apart : j ≠ i) (inside : j < mmuMaxSpaces) (page : Nat) :
    s.refsAt j page ≤ s.outerRefs held i page := by
  have single := Finset.single_le_sum (f := fun j => s.refsAt j page) (fun _ _ => Nat.zero_le _)
    (Finset.mem_erase.mpr ⟨apart, Finset.mem_range.mpr inside⟩)
  unfold State.outerRefs
  omega

theorem outerRefs_eq_zero : s.outerRefs held i page = 0 ↔
    held page = 0 ∧ ∀ j, j ≠ i → j < mmuMaxSpaces → s.refsAt j page = 0 := by
  simp only [State.outerRefs, Nat.add_eq_zero_iff, Finset.sum_eq_zero_iff, Finset.mem_erase, Finset.mem_range, and_imp,
    ne_eq]

theorem Accounted.settled (accounted : Accounted reserved shared held s) (here : s.spaces i = some space) :
    Settled reserved shared (s.outerRefs held i) (fun _ => 0) (s.mm space) := by
  refine ⟨accounted.ledger.congr fun page _ => ?_, accounted.tidy here, accounted.sole here⟩
  rw [allRefs_split (accounted.slots here), refsAt_some here]
  rfl

theorem put_spaces_of_ne (s : State) (mm' : Mm) (apart : j ≠ i) : (s.put i mm').spaces j = s.spaces j :=
  Function.update_of_ne apart _ _

theorem put_spaces_self (s : State) (i : Nat) (mm' : Mm) : (s.put i mm').spaces i = some mm'.space :=
  Function.update_self _ _ _

theorem Accounted.replace (accounted : Accounted reserved shared held s) (here : s.spaces i = some space)
    (settled : Settled reserved shared (s.outerRefs held i) (fun _ => 0) mm')
    (refs : ∀ page, Private reserved shared page → s.outerRefs held i page ≠ 0 → spaceRefs mm'.space page ≠ 0 →
      spaceRefs space page ≠ 0 ∨ ∀ j other index pte, j ≠ i → s.spaces j = some other →
        other.leaves.get? index = some pte → holds pte.pa page = true → pte.writable = false) :
    Accounted reserved shared held (s.put i mm') := by
  have inside := accounted.slots here
  have same : ∀ page, (s.put i mm').outerRefs held i page = s.outerRefs held i page :=
    outerRefs_congr fun j => put_spaces_of_ne s mm'
  refine ⟨fun {j other} found => ?_, settled.ledger.congr fun page _ => ?_, fun {j other} found => ?_,
    ?_⟩
  · by_cases mine : j = i
    · exact mine ▸ inside
    · rw [put_spaces_of_ne s mm' mine] at found
      exact accounted.slots found
  · rw [allRefs_split inside, same, refsAt_some (put_spaces_self s i mm')]
    omega
  · by_cases mine : j = i
    · subst mine
      rw [put_spaces_self] at found
      cases found
      exact settled.tidy
    · rw [put_spaces_of_ne s mm' mine] at found
      exact accounted.tidy found
  · intro j other found index pte page leaf writable holds own
    by_cases mine : j = i
    · subst mine
      rw [put_spaces_self] at found
      cases found
      rw [same]
      exact settled.sole leaf writable holds own
    · rw [put_spaces_of_ne s mm' mine] at found
      -- The page is of this other space alone, so the call has not begun to refer to it.
      have alone := accounted.sole found leaf writable holds own
      obtain ⟨kernel, others⟩ := outerRefs_eq_zero.mp alone
      have referred := spaceRefs_pos leaf holds
      have outside : s.outerRefs held i page ≠ 0 := by
        have part := @refsAt_le_outer held s _ _ mine (accounted.slots found) page
        rw [refsAt_some found] at part
        omega
      refine outerRefs_eq_zero.mpr ⟨kernel, fun k apart' bound => ?_⟩
      by_cases its : k = i
      · subst its
        rw [refsAt_some (put_spaces_self s k mm')]
        by_contra now
        rcases refs page own outside now with before | readOnly
        · rw [← refsAt_some here] at before
          exact before (others k apart' bound)
        · rw [readOnly j other index pte mine found leaf holds] at writable
          cases writable
      · rw [State.refsAt, put_spaces_of_ne s mm' its]
        exact others k apart' bound

theorem Accounted.put (accounted : Accounted reserved shared held s) (here : s.spaces i = some space)
    (settled : Settled reserved shared (s.outerRefs held i) (fun _ => 0) mm')
    (apart : Apart reserved shared (s.outerRefs held i) (s.mm space) mm') :
    Accounted reserved shared held (s.put i mm') :=
  accounted.replace here settled fun page own outside now => Or.inl (apart.refs page own outside now)

theorem Accounted.reprotect (accounted : Accounted reserved shared held s) {space' : Space}
    (here : s.spaces i = some space) (others : ∀ j, j ≠ i → s'.spaces j = s.spaces j)
    (mine : s'.spaces i = some space') (ledger : Ledger reserved (fun page => held page + s.allRefs page) s'.buddy)
    (tidy : Tidy space') (same : ∀ page, spaceRefs space' page = spaceRefs space page)
    (weaker : ∀ {index pte}, space'.leaves.get? index = some pte → pte.writable = true →
      space.leaves.get? index = some pte) : Accounted reserved shared held s' := by
  have inside := accounted.slots here
  have refs : ∀ j page, s'.refsAt j page = s.refsAt j page := fun j page => by
    by_cases its : j = i
    · rw [its, refsAt_some mine, refsAt_some here, same]
    · rw [State.refsAt, State.refsAt, others j its]
  have outer : ∀ j page, s'.outerRefs held j page = s.outerRefs held j page := fun j page => by
    simp only [State.outerRefs, refs]
  refine ⟨fun {j other} found => ?_, ledger.congr fun page _ => ?_, fun {j other} found => ?_, ?_⟩
  · by_cases its : j = i
    · exact its ▸ inside
    · rw [others j its] at found
      exact accounted.slots found
  · simp only [State.allRefs, refs]
  · by_cases its : j = i
    · subst its
      cases mine.symm.trans found
      exact tidy
    · rw [others j its] at found
      exact accounted.tidy found
  · intro j other found index pte page leaf writable here' own
    rw [outer]
    by_cases its : j = i
    · subst its
      cases mine.symm.trans found
      exact accounted.sole here (weaker leaf writable) writable here' own
    · rw [others j its] at found
      exact accounted.sole found leaf writable here' own

theorem Accounted.slot (accounted : Accounted reserved shared held s) {slot : Option Space}
    (others : ∀ j, j ≠ i → s'.spaces j = s.spaces j) (mine : s'.spaces i = slot) (inside : i < mmuMaxSpaces)
    (ledger : Ledger reserved (fun page => held page + s'.allRefs page) s'.buddy)
    (tidy : ∀ space, slot = some space → Tidy space)
    (sole : ∀ space, slot = some space → Sole reserved shared (s.outerRefs held i) space)
    (fresh : ∀ page, Private reserved shared page → s.refsAt i page = 0 → s'.refsAt i page ≠ 0 →
      s.outerRefs held i page = 0) : Accounted reserved shared held s' := by
  refine ⟨fun {j space} found => ?_, ledger, fun {j space} found => ?_, ?_⟩
  · by_cases same : j = i
    · exact same ▸ inside
    · rw [others j same] at found
      exact accounted.slots found
  · by_cases same : j = i
    · subst same
      exact tidy space (mine.symm.trans found)
    · rw [others j same] at found
      exact accounted.tidy found
  · intro j space found index pte page leaf writable here own
    by_cases same : j = i
    · subst same
      rw [outerRefs_congr others]
      exact sole space (mine.symm.trans found) leaf writable here own
    · rw [others j same] at found
      obtain ⟨kernel, rest⟩ := outerRefs_eq_zero.mp (accounted.sole found leaf writable here own)
      have referred := spaceRefs_pos leaf here
      refine outerRefs_eq_zero.mpr ⟨kernel, fun k apart bound => ?_⟩
      by_cases its : k = i
      · subst its
        by_contra now
        have outside := fresh page own (rest k apart bound) now
        have part := @refsAt_le_outer held s _ _ same (accounted.slots found) page
        rw [refsAt_some found] at part
        omega
      · rw [State.refsAt, others k its]
        exact rest k apart bound

theorem spaceRefs_empty (rootPa page : Nat) : spaceRefs (emptySpace rootPa) page = refOf rootPa page := by
  simp [spaceRefs, leafRefs, tableRefs, emptySpace, SortedMap.count, SortedMap.empty]

theorem emptySpace_tidy (rootPa : Nat) : Tidy (emptySpace rootPa) := by
  refine ⟨by simp [Space.tableCount, emptySpace, SortedMap.size, SortedMap.empty, mmuMaxSpaceTables], ?_, ?_⟩ <;>
    · intro _ _ found
      simp [emptySpace] at found

theorem mmuSpaceCreate_cases {created : Option Nat} (ran : mmuSpaceCreate s = .ok (created, s')) :
    (created = none ∧ s' = s) ∨
    ∃ i pa buddy, created = some i ∧ i < mmuMaxSpaces ∧ s.spaces i = none ∧ physAllocPage s.buddy = .ok (pa, buddy) ∧
      s' = { s with buddy, spaces := Function.update s.spaces i (some (emptySpace pa)) } := by
  unfold mmuSpaceCreate at ran
  split at ran
  · cases ran
    exact Or.inl ⟨rfl, rfl⟩
  · rename_i i first
    obtain ⟨⟨pa, buddy⟩, allocated, ran⟩ := bind_ok ran
    cases ran
    have free := List.find?_some first
    have inside := List.mem_of_find?_eq_some first
    exact Or.inr ⟨i, pa, buddy, rfl, List.mem_range.mp inside, by simpa using free, allocated, rfl⟩

theorem Accounted.fresh (accounted : Accounted reserved shared held s)
    (allocated : physAllocPage s.buddy = .ok (pa, buddy)) :
    ∃ page, pa = idxToPa page ∧ Pooled reserved page ∧ held page = 0 ∧ s.allRefs page = 0 ∧
      Ledger reserved (fun page => held page + s.allRefs page + refOf pa page) buddy := by
  obtain ⟨⟨page, rfl, inside⟩, unheld, ledger⟩ := accounted.ledger.allocPage allocated
  obtain ⟨pooled, zero⟩ := unheld page (by rw [refsOf_eq 1 inside]; simp)
  exact ⟨page, rfl, pooled, by omega, by omega, ledger⟩

theorem outerRefs_of_unreferred (inside : i < mmuMaxSpaces) (kernel : held page = 0) (none : s.allRefs page = 0) :
    s.outerRefs held i page = 0 ∧ s.refsAt i page = 0 := by
  have whole := allRefs_split (s := s) inside held page
  omega

theorem Accounted.mmuSpaceCreate {created : Option Nat} (accounted : Accounted reserved shared held s)
    (ran : mmuSpaceCreate s = .ok (created, s')) : Accounted reserved shared held s' := by
  rcases mmuSpaceCreate_cases ran with ⟨_, rfl⟩ | ⟨i, pa, buddy, _, inside, free, allocated, after⟩
  · exact accounted
  · obtain ⟨root, rfl, pooled, kernel, unreferred, ledger⟩ := accounted.fresh allocated
    have mine : s'.spaces i = some (emptySpace (idxToPa root)) := by
      rw [after]
      exact Function.update_self _ _ _
    have others : ∀ j, j ≠ i → s'.spaces j = s.spaces j := fun j apart => by
      rw [after]
      exact Function.update_of_ne apart _ _
    refine accounted.slot others mine inside ?_ ?_ ?_ fun page _ _ now => ?_
    · have store : s'.buddy = buddy := by rw [after]
      rw [store]
      refine ledger.congr fun page _ => ?_
      rw [allRefs_split inside, allRefs_split inside, outerRefs_congr others, refsAt_none free, refsAt_some mine,
        spaceRefs_empty]
      omega
    · intro space same
      cases same
      exact emptySpace_tidy _
    · intro space same index pte page leaf
      cases same
      simp [emptySpace] at leaf
    · rw [refsAt_some mine, spaceRefs_empty] at now
      have same : page = root := by
        by_contra apart
        exact now (refOf_other (by rw [pageOf_idxToPa]; exact Ne.symm apart))
      subst same
      exact (outerRefs_of_unreferred inside kernel unreferred).1

/-- References to a list of pages. -/
def listRefs (pas : List Nat) (page : Nat) : Nat := (pas.map fun pa => refOf pa page).sum

theorem listRefs_append (first second : List Nat) (page : Nat) :
    listRefs (first ++ second) page = listRefs first page + listRefs second page := by
  simp [listRefs]

theorem listRefs_flatMap {α : Type} (items : List α) (pages : α → List Nat) (page : Nat) :
    listRefs (items.flatMap pages) page = (items.map fun item => listRefs (pages item) page).sum := by
  induction items with
  | nil => rfl
  | cons item rest ih => rw [List.flatMap_cons, listRefs_append, ih, List.map_cons, List.sum_cons]

theorem listRefs_singleton (pa page : Nat) : listRefs [pa] page = refOf pa page := by simp [listRefs]

theorem freeAll_ledger (pas : List Nat) : ∀ {count : Nat → Nat} {buddy freed : Buddy},
    Ledger reserved (fun page => count page + listRefs pas page) buddy → freeAll buddy pas = .ok freed →
    Ledger reserved count freed := by
  induction pas with
  | nil =>
    intro count buddy freed ledger ran
    cases ran
    exact ledger
  | cons pa rest ih =>
    intro count buddy freed ledger ran
    rw [freeAll] at ran
    obtain ⟨first, dropped, ran⟩ := bind_ok ran
    have head : Ledger reserved (fun page => (count page + listRefs rest page) + refOf pa page) buddy :=
      ledger.congr fun page _ => by
        simp only [listRefs, List.map_cons, List.sum_cons]
        omega
    exact ih (head.freed dropped) ran

theorem count_holds {α : Type} (m : SortedMap Nat α) (address : α → Nat) (page : Nat) :
    m.count (fun value => holds (address value) page) = (m.entries.map fun entry => refOf (address entry.2) page).sum := by
  unfold SortedMap.count
  induction m.entries with
  | nil => rfl
  | cons entry rest ih =>
    rw [List.countP_cons, List.map_cons, List.sum_cons, ih, refOf_eq]
    by_cases here : holds (address entry.2) page = true <;> simp [here, Nat.add_comm]

theorem Tidy.heldPages_refs (tidy : Tidy space) (page : Nat) :
    listRefs space.heldPages page = spaceRefs space page := by
  have upper : space.l2Tables.count (fun pa => holds pa page) =
      (space.l2Tables.entries.map fun l2 => refOf l2.2 page).sum := count_holds space.l2Tables id page
  have lower : space.l3Tables.count (fun pa => holds pa page) =
      (space.l3Tables.entries.map fun l3 => refOf l3.2 page).sum := count_holds space.l3Tables id page
  -- The leaves of each table, and then the tables of each table, are all of them.
  have leaves : (space.l3Tables.entries.map fun l3 =>
      listRefs ((space.leaves.entries.filter fun leaf => leaf.1 / 2 ^ 9 = l3.1).map fun leaf => leaf.2.pa) page).sum =
      leafRefs space page := by
    rw [leafRefs, count_holds, ← SortedMap.sum_children space.leaves.entries (fun leaf => leaf.1 / 2 ^ 9)
      (fun leaf => refOf leaf.2.pa page) fun leaf member => (tidy.backed (SortedMap.get?_eq_some.mpr member)).2.1]
    simp only [listRefs, List.map_map, Function.comp_def]
  have tables := SortedMap.sum_children (m := space.l2Tables) space.l3Tables.entries (fun l3 => l3.1 / 2 ^ 9) (fun l3 =>
      listRefs ((space.leaves.entries.filter fun leaf => leaf.1 / 2 ^ 9 = l3.1).map fun leaf => leaf.2.pa) page +
        refOf l3.2 page) fun l3 member => tidy.parent (SortedMap.get?_eq_some.mpr member)
  simp only [List.sum_map_add, leaves, ← lower] at tables
  simp only [Space.heldPages, listRefs_append, listRefs_flatMap, listRefs_singleton, List.sum_map_add, ← upper]
  unfold spaceRefs tableRefs
  omega

theorem Accounted.mmuSpaceDestroy (accounted : Accounted reserved shared held s)
    (ran : mmuSpaceDestroy s i = .ok s') : Accounted reserved shared held s' := by
  unfold Mmu.mmuSpaceDestroy at ran
  split at ran
  · cases ran
    exact accounted
  · rename_i space here
    obtain ⟨freed, dropped, ran⟩ := bind_ok ran
    have after : s' = { s with buddy := freed, spaces := Function.update s.spaces i none } := (Except.ok.inj ran).symm
    have inside := accounted.slots here
    have others : ∀ j, j ≠ i → s'.spaces j = s.spaces j := fun j apart => by
      rw [after]
      exact Function.update_of_ne apart _ _
    have mine : s'.spaces i = none := by
      rw [after]
      exact Function.update_self _ _ _
    have ledger : Ledger reserved (s.outerRefs held i) freed :=
      freeAll_ledger space.heldPages (accounted.ledger.congr fun page _ => by
        rw [allRefs_split inside, refsAt_some here, (accounted.tidy here).heldPages_refs]) dropped
    refine accounted.slot others mine inside ?_ nofun nofun fun page _ _ now => absurd (refsAt_none mine page) now
    have store : s'.buddy = freed := by rw [after]
    rw [store]
    exact ledger.congr fun page _ => by
      rw [allRefs_split inside, outerRefs_congr others, refsAt_none mine, Nat.add_zero]

end

end Enlil.Mmu
