import Enlil.Mmu.Mappings

/-! When a region can be mapped to its end: no page is mapped yet, and tables and extents are left. -/

namespace Enlil.Mmu

open Pmm

/-- Which second-level tables a space has. -/
def Space.has2 (space : Space) (index : Nat) : Bool := (space.l2Tables.get? index).isSome

/-- Which third-level tables a space has. -/
def Space.has3 (space : Space) (index : Nat) : Bool := (space.l3Tables.get? index).isSome

/-- Tables that are missing for the pages from an address on. -/
def tablesNeeded (has2 has3 : Nat → Bool) (va : Nat) : Nat → Nat
  | 0 => 0
  | count + 1 =>
    (!has2 (l1Index va)).toNat + (!has3 (l3Index va)).toNat +
      tablesNeeded (Function.update has2 (l1Index va) true) (Function.update has3 (l3Index va) true)
        (va + pageSize) count

/-- Blocks into which a number of pages is cut. -/
def blocksNeeded (remaining : Nat) : Nat → Nat
  | 0 => 0
  | fuel + 1 =>
    if remaining = 0 then 0 else 1 + blocksNeeded (remaining - 2 ^ largestOrderFit remaining 0 maxOrder) fuel

/-- Nothing is in the way of mapping pages from an address on, in blocks of which `fuel` are tried. -/
structure Fits (space : Space) (va pages fuel : Nat) : Prop where
  free : ∀ i < pages, space.leaves.get? (pageIndex (va + i * pageSize)) = none
  tables : space.tableCount + tablesNeeded space.has2 space.has3 va pages ≤ mmuMaxSpaceTables
  extents : space.extents.length + blocksNeeded pages fuel ≤ mmuMaxSpaceExtents

section

variable {mm mm' : Mm} {space : Space} {va pa : Nat} {found : Bool} {prot : Prot}

theorem spaceEnsureL3_fits (room : mm.space.tableCount + (!mm.space.has2 (l1Index va)).toNat +
      (!mm.space.has3 (l3Index va)).toNat ≤ mmuMaxSpaceTables)
    (ran : spaceEnsureL3 mm va = .ok (found, mm')) :
    found = true ∧ mm'.space.has2 = Function.update mm.space.has2 (l1Index va) true ∧
      mm'.space.has3 = Function.update mm.space.has3 (l3Index va) true ∧
      mm'.space.tableCount = mm.space.tableCount + (!mm.space.has2 (l1Index va)).toNat +
        (!mm.space.has3 (l3Index va)).toNat := by
  obtain ⟨found₂, mm₂, upper, rest⟩ := spaceEnsureL3_cases ran
  have first : found₂ = true ∧ mm₂.space.has2 = Function.update mm.space.has2 (l1Index va) true ∧
      mm₂.space.l3Tables = mm.space.l3Tables ∧
      mm₂.space.tableCount = mm.space.tableCount + (!mm.space.has2 (l1Index va)).toNat := by
    rcases spaceEnsureL2_cases upper with ⟨present, rfl, rfl⟩ | ⟨absent, pa, buddy, _, ⟨full, _, _⟩ | ⟨_, rfl, rfl⟩⟩
    · refine ⟨rfl, ?_, rfl, by simp [Space.has2, present]⟩
      rw [Function.update_eq_self_iff.mpr]
      exact present.symm
    · have missing : mm.space.has2 (l1Index va) = false := by simp [Space.has2, absent]
      rw [missing] at room
      simp only [Bool.not_false, Bool.toNat_true] at room
      omega
    · refine ⟨rfl, ?_, rfl, ?_⟩
      · funext index
        simp only [Space.has2, SortedMap.get?_set, Function.update_apply]
        split <;> rfl
      · simp [Space.tableCount, Space.has2, SortedMap.size_set_new _ absent, absent]
        omega
  obtain ⟨rfl, has2, same3, count⟩ := first
  have has3 : mm₂.space.has3 = mm.space.has3 := by
    funext index
    rw [Space.has3, Space.has3, same3]
  rcases rest with ⟨no, _, _⟩ | ⟨_, present, rfl, rfl⟩ | ⟨_, absent, pa, buddy, _, ⟨full, _, _⟩ | ⟨_, rfl, rfl⟩⟩
  · cases no
  · refine ⟨rfl, has2, ?_, ?_⟩
    · rw [has3, Function.update_eq_self_iff.mpr]
      rw [← has3]
      exact present.symm
    · rw [← has3, count]
      simp [Space.has3, present]
  · have missing : mm.space.has3 (l3Index va) = false := by
      rw [← has3]
      simp [Space.has3, absent]
    rw [missing, ← count] at room
    simp only [Bool.not_false, Bool.toNat_true] at room
    omega
  · have missing : mm₂.space.has3 (l3Index va) = false := by simp [Space.has3, absent]
    refine ⟨rfl, has2, ?_, ?_⟩
    · rw [← has3]
      funext index
      simp only [Space.has3, SortedMap.get?_set, Function.update_apply]
      split <;> rfl
    · rw [← count, ← has3, missing]
      simp only [Space.tableCount, SortedMap.size_set_new _ absent, Bool.not_false, Bool.toNat_true]
      omega

theorem pageIndex_apart {i : Nat} (positive : 0 < i) (bound : i < 2 ^ 27) :
    pageIndex (va + i * pageSize) ≠ pageIndex va := by
  unfold pageIndex pageSize
  omega

theorem mapUserPagesRaw_fits (n rest : Nat) : ∀ {mm : Mm} {va pa : Nat},
    mapUserPagesRaw mm va pa prot n = .ok (found, mm') → n + rest ≤ 2 ^ 27 →
    (∀ i < n + rest, mm.space.leaves.get? (pageIndex (va + i * pageSize)) = none) →
    mm.space.tableCount + tablesNeeded mm.space.has2 mm.space.has3 va (n + rest) ≤ mmuMaxSpaceTables →
    found = true ∧ mm'.space.extents = mm.space.extents ∧
      (∀ i < rest, mm'.space.leaves.get? (pageIndex (va + n * pageSize + i * pageSize)) = none) ∧
      mm'.space.tableCount + tablesNeeded mm'.space.has2 mm'.space.has3 (va + n * pageSize) rest ≤
        mmuMaxSpaceTables := by
  induction n with
  | zero =>
    intro mm va pa ran _ free tables
    cases ran
    rw [Nat.zero_add] at free tables
    rw [Nat.zero_mul, Nat.add_zero]
    exact ⟨rfl, rfl, free, tables⟩
  | succ n ih =>
    intro mm va pa ran bound free tables
    rw [mapUserPagesRaw] at ran
    obtain ⟨⟨ready, mm₁⟩, ensured, ran⟩ := bind_ok ran
    rw [show n + 1 + rest = n + rest + 1 by omega, tablesNeeded] at tables
    obtain ⟨rfl, has2, has3, count⟩ := spaceEnsureL3_fits (by omega) ensured
    obtain ⟨_, leaves, extents, _⟩ := spaceEnsureL3_frame ensured
    have here : mm₁.space.leaves.get? (pageIndex va) = none := by simpa [leaves] using free 0 (by omega)
    simp only [Bool.not_true, Bool.false_eq_true, if_false, here, Option.isSome_none] at ran
    have next : ∀ i, va + pageSize + i * pageSize = va + (i + 1) * pageSize := fun i => by ring
    obtain ⟨done, extents', free', tables'⟩ := ih ran (by omega) (fun i below => by
        simp only [Mm.setLeaf, next]
        rw [SortedMap.get?_set_of_ne _ _ (pageIndex_apart (by omega) (by omega)), leaves]
        exact free (i + 1) (by omega)) (by
        have same2 : (mm₁.setLeaf (pageIndex va) (userLeaf pa prot)).space.has2 = mm₁.space.has2 := rfl
        have same3 : (mm₁.setLeaf (pageIndex va) (userLeaf pa prot)).space.has3 = mm₁.space.has3 := rfl
        have same : (mm₁.setLeaf (pageIndex va) (userLeaf pa prot)).space.tableCount = mm₁.space.tableCount := rfl
        rw [same2, same3, same, has2, has3, count]
        omega)
    rw [next] at free' tables'
    exact ⟨done, extents'.trans extents, free', tables'⟩

theorem largestOrderFit_le {remaining order : Nat} (fuel : Nat) (fits : 2 ^ order ≤ remaining) :
    2 ^ largestOrderFit remaining order fuel ≤ remaining := by
  induction fuel generalizing order with
  | zero => exact fits
  | succ fuel ih =>
    rw [largestOrderFit]
    split
    · rename_i larger
      exact ih larger.2
    · exact fits

theorem spaceTrackExtent_length {extent : Extent} {space' : Space}
    (tracked : spaceTrackExtent space extent = some space') :
    space'.extents.length = space.extents.length + 1 := by
  obtain ⟨_, _, rfl⟩ := spaceTrackExtent_cases tracked
  have whole := congrArg List.length
    (List.rdropWhile_append_rtakeWhile (p := fun other : Extent => decide (extent.va < other.va)) (l := space.extents))
  simp only [List.length_append, List.length_cons] at *
  omega

theorem mapBlocks_fits (fuel : Nat) : ∀ {mm : Mm} {va remaining : Nat}, remaining ≤ fuel → remaining ≤ 2 ^ 27 →
    Fits mm.space va remaining fuel → mapBlocks mm va remaining prot fuel = .ok (found, mm') → found = true := by
  induction fuel with
  | zero =>
    intro mm va remaining bound _ _ ran
    rw [mapBlocks, Except.ok.injEq, Prod.mk.injEq] at ran
    rw [← ran.1]
    simpa using bound
  | succ fuel ih =>
    intro mm va remaining bound window fits ran
    rw [mapBlocks] at ran
    split at ran
    · cases ran
      rfl
    · rename_i more
      have size := largestOrderFit_le maxOrder (show 2 ^ 0 ≤ remaining by omega)
      have extents := fits.extents
      rw [blocksNeeded, if_neg more] at extents
      obtain ⟨⟨pa, buddy⟩, allocated, ran⟩ := bind_ok ran
      dsimp only at ran
      have positive := Nat.two_pow_pos (largestOrderFit remaining 0 maxOrder)
      generalize largestOrderFit remaining 0 maxOrder = order at *
      split at ran
      · rename_i full
        unfold spaceTrackExtent at full
        split at full
        · dsimp only at *
          omega
        · cases full
      · rename_i space tracked
        have length := spaceTrackExtent_length tracked
        obtain ⟨_, _, rfl⟩ := spaceTrackExtent_cases tracked
        obtain ⟨⟨mapped, mm₁⟩, raw, ran⟩ := bind_ok ran
        obtain ⟨rest, rfl⟩ : ∃ rest, remaining = 2 ^ order + rest := ⟨remaining - 2 ^ order, by omega⟩
        obtain ⟨rfl, extents', free, tables⟩ := mapUserPagesRaw_fits (2 ^ order) rest raw window fits.free fits.tables
        rw [Nat.add_sub_cancel_left] at ran extents
        refine ih (by omega) (by omega) ⟨free, tables, ?_⟩ ran
        rw [extents', length]
        omega

end

end Enlil.Mmu
