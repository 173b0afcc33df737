import Enlil.Mmu.CopyOnWrite

/-! What the kernel writes to user memory is what user code then reads. -/

namespace Enlil.Mmu

open Pmm

section

variable {reserved : Nat → Bool} {shared : Nat → Prop} {outer hand : Nat → Nat} {mm mm' : Mm} {va uva : Nat}
  {pte : Pte} {found : Bool} {data : Bytes}

theorem pteAddr_aligned {pa : Nat} (whole : pteAddr pa = pa) : pa % pageSize = 0 := by
  rw [← whole]
  simp only [pteAddr, pageSize]
  omega

theorem Settled.makePrivate_reads {forceCopy : Bool} (settled : Settled reserved shared outer (fun _ => 0) mm)
    (ran : Mmu.mmuMakePrivatePage mm va forceCopy = .ok (found, mm')) (other : Nat) :
    userByte mm'.space mm'.memory other = userByte mm.space mm.memory other := by
  have tidy := (settled.mmuMakePrivatePage ran).1.tidy
  unfold Mmu.mmuMakePrivatePage at ran
  split at ran
  · cases ran
    rfl
  · rename_i pte present
    split at ran
    · cases ran
      rfl
    · rw [settled.tidy.validPte_eq] at present
      obtain ⟨_, _, whole⟩ := settled.tidy.backed present
      have offset : other % pageSize < pageSize := Nat.mod_lt _ (by decide)
      split at ran
      · simp only [mmuRewriteSpacePaMappings, ne_eq, not_true_eq_false, if_false] at ran
        cases ran
        -- In place every descriptor keeps its page.
        rw [userByte, userByte, tidy.validPte_eq, settled.tidy.validPte_eq]
        simp only [SortedMap.get?_mapValues, Option.map_map]
        congr 1
        funext leaf
        simp only [Function.comp_apply, rewritePte_pa, whole]
        split
        · rename_i same
          rw [same]
        · rfl
      · obtain ⟨⟨newPa, buddy⟩, allocated, ran⟩ := bind_ok ran
        dsimp only [mmuRewriteSpacePaMappings] at ran
        obtain ⟨copy, rfl, pooled, _, _, unused, _⟩ := settled.fresh allocated
        have wholeCopy := pteAddr_idxToPa pooled.1
        rw [if_neg (mappings_pos present).ne'] at ran
        obtain ⟨freed, _, ran⟩ := bind_ok ran
        cases ran
        rw [userByte, userByte, tidy.validPte_eq, settled.tidy.validPte_eq]
        simp only [SortedMap.get?_mapValues]
        cases leaf : mm.space.leaves.get? (pageIndex other) with
        | none => rfl
        | some seen =>
          simp only [Option.map_some, Option.some.injEq, rewritePte_pa, wholeCopy]
          by_cases same : seen.pa = pte.pa
          · rw [if_pos same, memcpy, if_pos (by omega), same]
            congr 1
            omega
          · -- Another page is not the copy, which nobody mapped before.
            rw [if_neg same, memcpy, if_neg]
            obtain ⟨_, _, wholeSeen⟩ := settled.tidy.backed leaf
            have aligned := pteAddr_aligned wholeSeen
            have alignedCopy := pteAddr_aligned wholeCopy
            have apart : seen.pa ≠ idxToPa copy := fun equal =>
              spaceRefs_pos leaf ((holds_pteAddr wholeSeen).mpr ⟨equal, pooled.1⟩) unused
            unfold pageSize at *
            omega

theorem Settled.prepareWrite_reads (n : Nat) : ∀ {mm : Mm} {cur : Nat},
    Settled reserved shared outer (fun _ => 0) mm → Mmu.prepareWritePages mm cur n = .ok (found, mm') →
    ∀ other, userByte mm'.space mm'.memory other = userByte mm.space mm.memory other := by
  induction n with
  | zero =>
    intro mm cur settled ran other
    cases ran
    rfl
  | succ n ih =>
    intro mm cur settled ran other
    rw [Mmu.prepareWritePages] at ran
    split at ran
    · cases ran
      rfl
    · split at ran
      · obtain ⟨⟨done, mm₁⟩, made, ran⟩ := bind_ok ran
        have first := settled.makePrivate_reads made other
        obtain ⟨settled₁, _, _⟩ := settled.mmuMakePrivatePage made
        cases done with
        | true => exact (ih settled₁ ran other).trans first
        | false =>
          cases ran
          exact first
      · split at ran
        · exact ih settled ran other
        · cases ran
          rfl

theorem Settled.copyToUser_reads {size : Nat} (small : size ≤ pageSize) (fuel : Nat) : ∀ {mm : Mm} {copied : Nat},
    Settled reserved shared outer (fun _ => 0) mm → copied ≤ size → uva + copied < 2 ^ 64 →
    (∀ p < copied, userByte mm.space mm.memory (uva + p) = some (data p)) →
    copyToUser mm uva data copied size fuel = .ok (true, mm') → UserReads mm'.space mm'.memory uva size data := by
  induction fuel with
  | zero =>
    intro mm copied settled reached low reads ran
    rw [copyToUser, Except.ok.injEq, Prod.mk.injEq, decide_eq_true_eq] at ran
    obtain ⟨done, rfl⟩ := ran
    obtain rfl : copied = size := by omega
    exact ⟨low, reads⟩
  | succ fuel ih =>
    intro mm copied settled reached low reads ran
    rw [copyToUser] at ran
    split at ran
    · cases ran
      obtain rfl : copied = size := by omega
      exact ⟨low, reads⟩
    · dsimp only at ran
      rw [Nat.mod_eq_of_lt low] at ran
      obtain ⟨positive, fits, inside, _⟩ := @chunkAt_bounds (uva + copied) _ (show 0 < size - copied by omega)
      generalize chunkAt (uva + copied) (size - copied) = chunk at *
      obtain ⟨⟨ready, mm₁⟩, prepared, ran⟩ := bind_ok ran
      obtain ⟨settled₁, _, writable⟩ := settled.prepareWrite_chunk positive inside prepared
      cases ready with
      | false => cases ran
      | true =>
        simp only [Bool.not_true, Bool.false_eq_true, if_false] at ran
        have kept : ∀ other, userByte mm₁.space mm₁.memory other = userByte mm.space mm.memory other := by
          intro other
          unfold Mmu.mmuSpacePrepareWrite at prepared
          split at prepared
          · cases prepared
          · exact settled.prepareWrite_reads _ prepared other
        rw [resolve_chunk positive inside] at ran
        split at ran
        · cases ran
        · rename_i dst resolved
          split at resolved
          · rename_i below
            obtain ⟨pte, present, rfl⟩ := Option.map_eq_some_iff.mp resolved
            have may : pte.writable = true := by
              have ready := writable rfl
              rwa [present] at ready
            obtain ⟨settled₂, _⟩ := @Settled.writePage _ _ _ _ _ _ _ (memcpy mm₁.memory
              (pte.pa + (uva + copied) % pageSize) data copied chunk) settled₁ present may fun p outside => by
                rw [memcpy, if_neg (by omega)]
            refine ih settled₂ (by omega) (by omega) (fun p before => ?_) ran
            rw [userByte]
            dsimp only
            by_cases now : copied ≤ p
            · -- A byte of this step, in the page that was resolved.
              have same : (uva + p) / pageSize = (uva + copied) / pageSize := by
                unfold pageSize at *
                omega
              have offset : (uva + p) % pageSize = (uva + copied) % pageSize + (p - copied) := by
                unfold pageSize at *
                omega
              rw [validPte_samePage same, present, Option.map_some, offset, memcpy, if_pos (by omega)]
              congr 2
              omega
            · -- An earlier byte, whose place in its page is another one.
              have earlier := (kept (uva + p)).trans (reads p (by omega))
              rw [userByte] at earlier
              obtain ⟨seen, mapped, byte⟩ := Option.map_eq_some_iff.mp earlier
              rw [mapped, Option.map_some, memcpy, if_neg, byte]
              rw [settled₁.tidy.validPte_eq] at mapped present
              have alignedSeen := pteAddr_aligned (settled₁.tidy.backed mapped).2.2
              have aligned := pteAddr_aligned (settled₁.tidy.backed present).2.2
              unfold pageSize at *
              omega
          · cases resolved

end

end Enlil.Mmu
