import Enlil.Mmu.Space

/-! What the kernel reads from user memory. -/

namespace Enlil.Mmu

open Pmm

/-- The byte that user code sees at an address. -/
def userByte (space : Space) (memory : Bytes) (va : Nat) : Option UInt8 :=
  (validPte space va).map fun pte => memory (pte.pa + va % pageSize)

/-- User code sees the bytes of a buffer from an address on. -/
def UserReads (space : Space) (memory : Bytes) (va size : Nat) (data : Bytes) : Prop :=
  va + size < 2 ^ 64 ∧ ∀ p < size, userByte space memory (va + p) = some (data p)

section

variable {space : Space} {memory : Bytes} {va size chunk : Nat}

theorem validPte_samePage {other : Nat} (same : va / pageSize = other / pageSize) :
    validPte space va = validPte space other := by
  have page : va / 2 ^ 12 = other / 2 ^ 12 := same
  have first : l1Index va = l1Index other := by
    unfold l1Index
    omega
  have second : l3Index va = l3Index other := by
    unfold l3Index
    omega
  have third : pageIndex va = pageIndex other := by
    unfold pageIndex
    omega
  rw [validPte, validPte, mmuLookupPte, mmuLookupPte, first, second, third]

theorem resolve_chunk (positive : 0 < chunk) (inside : va % pageSize + chunk ≤ pageSize) :
    mmuSpaceResolvePtr space va chunk =
      if va + chunk < 2 ^ 64 then (validPte space va).map fun pte => pte.pa + va % pageSize else none := by
  have whole : min (pageSize - va % pageSize) chunk = chunk := by omega
  unfold mmuSpaceResolvePtr
  split_ifs with wraps low low
  · omega
  · rfl
  · cases found : validPte space va with
    | none => rfl
    | some pte =>
      have done : ∀ fuel expected, contiguous space (va + chunk) (va + chunk) expected fuel = true := by
        intro fuel expected
        cases fuel <;> simp [contiguous]
      simp [whole, done]
  · omega

theorem resolve_reads {src : Nat} (positive : 0 < chunk) (inside : va % pageSize + chunk ≤ pageSize)
    (resolved : mmuSpaceResolvePtr space va chunk = some src) :
    va + chunk < 2 ^ 64 ∧ ∀ p < chunk, userByte space memory (va + p) = some (memory (src + p)) := by
  rw [resolve_chunk positive inside] at resolved
  split at resolved
  · rename_i low
    obtain ⟨pte, found, rfl⟩ := Option.map_eq_some_iff.mp resolved
    refine ⟨low, fun p below => ?_⟩
    -- The range stays inside the page of its first byte.
    have same : (va + p) / pageSize = va / pageSize := by
      unfold pageSize at *
      omega
    have offset : (va + p) % pageSize = va % pageSize + p := by
      unfold pageSize at *
      omega
    rw [userByte, validPte_samePage same, found, offset, Option.map_some, Nat.add_assoc]
  · cases resolved

theorem resolve_mapped (positive : 0 < chunk) (inside : va % pageSize + chunk ≤ pageSize)
    (low : va + chunk < 2 ^ 64) (mapped : (userByte space memory va).isSome) :
    ∃ src, mmuSpaceResolvePtr space va chunk = some src := by
  rw [resolve_chunk positive inside, if_pos low]
  simpa [userByte, Option.isSome_iff_exists] using mapped

theorem chunkAt_bounds {remaining : Nat} (more : 0 < remaining) :
    0 < chunkAt va remaining ∧ chunkAt va remaining ≤ remaining ∧
      va % pageSize + chunkAt va remaining ≤ pageSize ∧
      (chunkAt va remaining = remaining ∨ va % pageSize + chunkAt va remaining = pageSize) := by
  unfold chunkAt pageSize
  omega

theorem copyFromUser_reads {uva : Nat} {data : Bytes} (fuel : Nat) : ∀ {copied : Nat} {out : Bytes},
    copied ≤ size → uva + copied < 2 ^ 64 → copyFromUser space memory uva out copied size fuel = some data →
    uva + size < 2 ^ 64 ∧ (∀ p, copied ≤ p → p < size → userByte space memory (uva + p) = some (data p)) ∧
      ∀ p < copied, data p = out p := by
  induction fuel with
  | zero =>
    intro copied out reached low ran
    rw [copyFromUser] at ran
    split at ran <;> cases ran
    exact ⟨by omega, fun p after before => by omega, fun p _ => rfl⟩
  | succ fuel ih =>
    intro copied out reached low ran
    rw [copyFromUser] at ran
    split at ran
    · cases ran
      exact ⟨by omega, fun p after before => by omega, fun p _ => rfl⟩
    · dsimp only at ran
      rw [Nat.mod_eq_of_lt low] at ran
      obtain ⟨positive, fits, inside, _⟩ := @chunkAt_bounds (uva + copied) _ (show 0 < size - copied by omega)
      generalize chunkAt (uva + copied) (size - copied) = chunk at *
      split at ran
      · cases ran
      · rename_i src resolved
        obtain ⟨below, reads⟩ : _ ∧ ∀ p < chunk, userByte space memory (uva + copied + p) = some (memory (src + p)) :=
          resolve_reads positive inside resolved
        obtain ⟨whole, later, earlier⟩ := ih (by omega) (by omega) ran
        refine ⟨whole, fun p after before => ?_, fun p before => ?_⟩
        · -- A byte of this step was put into the buffer now, and later steps leave it there.
          by_cases now : p < copied + chunk
          · have byte := reads (p - copied) (by omega)
            rw [show uva + copied + (p - copied) = uva + p by omega] at byte
            rw [byte, earlier p now, memcpy, if_pos ⟨after, now⟩]
          · exact later p (by omega) before
        · rw [earlier p (by omega), memcpy, if_neg (by omega)]

theorem copyFromUser_total {uva : Nat} (whole : uva + size < 2 ^ 64) (fuel : Nat) : ∀ {copied : Nat} {out : Bytes},
    copied ≤ size → copied = size ∨ (uva + copied) % pageSize + (size - copied) ≤ fuel * pageSize →
    (∀ p, copied ≤ p → p < size → (userByte space memory (uva + p)).isSome) →
    ∃ data, copyFromUser space memory uva out copied size fuel = some data := by
  induction fuel with
  | zero =>
    intro copied out reached bound mapped
    exact ⟨out, by rw [copyFromUser, if_pos (by omega)]⟩
  | succ fuel ih =>
    intro copied out reached bound mapped
    rw [copyFromUser]
    split
    · exact ⟨out, rfl⟩
    · dsimp only
      rw [Nat.mod_eq_of_lt (show uva + copied < 2 ^ 64 by omega)]
      obtain ⟨positive, fits, inside, reach⟩ := @chunkAt_bounds (uva + copied) _ (show 0 < size - copied by omega)
      generalize chunkAt (uva + copied) (size - copied) = chunk at *
      obtain ⟨src, resolved⟩ := resolve_mapped positive inside (by omega) (mapped copied (Nat.le_refl _) (by omega))
      rw [resolved]
      refine ih (by omega) ?_ fun p after before => mapped p (by omega) before
      -- Either this was the last step, or the next one starts at the beginning of a page.
      unfold pageSize at *
      omega

theorem copyFromUser_some {uva : Nat} {out : Bytes} (low : uva < 2 ^ 64) {data : Bytes} :
    UserReads space memory uva size data →
      ∃ copy, copyFromUser space memory uva out 0 size (copySteps size) = some copy ∧
        ∀ p < size, copy p = data p := by
  rintro ⟨whole, reads⟩
  have bound : 0 = size ∨ (uva + 0) % pageSize + (size - 0) ≤ copySteps size * pageSize := by
    unfold copySteps pageSize
    omega
  obtain ⟨copy, ran⟩ : ∃ data, copyFromUser space memory uva out 0 size (copySteps size) = some data :=
    copyFromUser_total whole (copySteps size) (Nat.zero_le _) bound fun p _ before => by rw [reads p before]; rfl
  obtain ⟨_, later, _⟩ := copyFromUser_reads (copySteps size) (Nat.zero_le _) low ran
  refine ⟨copy, ran, fun p before => ?_⟩
  exact Option.some.inj ((later p (Nat.zero_le _) before).symm.trans (reads p before))

theorem copyFromUser_userReads {uva : Nat} {out data : Bytes} (low : uva < 2 ^ 64)
    (ran : copyFromUser space memory uva out 0 size (copySteps size) = some data) :
    UserReads space memory uva size data := by
  obtain ⟨whole, later, _⟩ := copyFromUser_reads (copySteps size) (Nat.zero_le _) low ran
  exact ⟨whole, fun p before => later p (Nat.zero_le _) before⟩

end

end Enlil.Mmu
