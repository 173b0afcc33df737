import Enlil.Pmm.Buddy
import Enlil.Lib.AlignedBlock

/-! How `kernel/pmm.c` hands a range of memory to the buddy allocator at the start: which blocks it cuts the range into. -/

namespace Enlil.Pmm

open AlignedBlock (Aligned)

/-- The order that is chosen for a block at a page, so many steps up from an order that fits. -/
def rangeOrder (idx start stop : Nat) : Nat → Nat → Nat
  | 0, order => order
  | fuel + 1, order =>
    if idx &&& (1 <<< (order + 1)) ≠ 0 then order
    else if stop < start + pageSize <<< (order + 1) then order
    else rangeOrder idx start stop fuel (order + 1)

/-- The order of the block that is cut off at the start of a range. -/
def firstOrder (start stop : Nat) : Nat := rangeOrder (paToIdx start) start stop (maxOrder - 1) 0

theorem lt_add_block (start order : Nat) : start < start + pageSize <<< order := by
  rw [Nat.shiftLeft_eq]
  exact Nat.lt_add_of_pos_right (Nat.mul_pos (by decide) (Nat.two_pow_pos order))

/-- Adds a range of addresses to the free lists. -/
def pmmFreeRange (s : Buddy) (start stop : Nat) : Buddy :=
  if start < stop then
    pmmFreeRange (buddyAddBlock s (paToIdx start) (firstOrder start stop)) (start + pageSize <<< firstOrder start stop) stop
  else s
termination_by stop - start
decreasing_by
  have := lt_add_block start (firstOrder start stop)
  omega

/-- The blocks that are added for a range, by their first pages and orders. -/
def rangeBlocks (start stop : Nat) : List (Nat × Nat) :=
  if start < stop then
    (paToIdx start, firstOrder start stop) :: rangeBlocks (start + pageSize <<< firstOrder start stop) stop
  else []
termination_by stop - start
decreasing_by
  have := lt_add_block start (firstOrder start stop)
  omega

/-- Adds blocks one after the other. -/
def addBlocks (s : Buddy) (blocks : List (Nat × Nat)) : Buddy :=
  blocks.foldl (fun s block => buddyAddBlock s block.1 block.2) s

/-- The pages of a block. -/
def blockPages (block : Nat × Nat) : List Nat := List.range' block.1 (2 ^ block.2)

section

variable {i e : Nat}

theorem idxToPa_lt {idx idx' : Nat} : idxToPa idx < idxToPa idx' ↔ idx < idx' := by
  unfold idxToPa pageSize
  omega

theorem idxToPa_block (idx order : Nat) : idxToPa idx + pageSize <<< order = idxToPa (idx + 2 ^ order) := by
  rw [Nat.shiftLeft_eq]
  unfold idxToPa
  ring

theorem and_one_shiftLeft (idx bit : Nat) : idx &&& (1 <<< bit) ≠ 0 ↔ idx.testBit bit = true := by
  rw [Nat.one_shiftLeft, Nat.and_two_pow]
  cases idx.testBit bit <;> simp

theorem rangeOrder_succ (fuel order : Nat) : rangeOrder i (idxToPa i) (idxToPa e) (fuel + 1) order =
    if i.testBit (order + 1) = true then order
    else if e < i + 2 ^ (order + 1) then order
    else rangeOrder i (idxToPa i) (idxToPa e) fuel (order + 1) := by
  rw [rangeOrder]
  simp only [and_one_shiftLeft, idxToPa_block, idxToPa_lt]

theorem rangeOrder_spec (fuel : Nat) : ∀ {order : Nat}, i + 2 ^ order ≤ e →
    (∀ bit, 1 ≤ bit → bit ≤ order → i.testBit bit = false) →
    order ≤ rangeOrder i (idxToPa i) (idxToPa e) fuel order ∧
      rangeOrder i (idxToPa i) (idxToPa e) fuel order ≤ order + fuel ∧
      i + 2 ^ rangeOrder i (idxToPa i) (idxToPa e) fuel order ≤ e ∧
      ∀ bit, 1 ≤ bit → bit ≤ rangeOrder i (idxToPa i) (idxToPa e) fuel order → i.testBit bit = false := by
  induction fuel with
  | zero => exact fun fits clear => ⟨le_refl _, le_refl _, fits, clear⟩
  | succ fuel ih =>
    intro order fits clear
    rw [rangeOrder_succ]
    by_cases set : i.testBit (order + 1) = true
    · rw [if_pos set]
      exact ⟨le_refl _, Nat.le_add_right _ _, fits, clear⟩
    rw [if_neg set]
    by_cases beyond : e < i + 2 ^ (order + 1)
    · rw [if_pos beyond]
      exact ⟨le_refl _, Nat.le_add_right _ _, fits, clear⟩
    · rw [if_neg beyond]
      obtain ⟨above, below, fits, clear⟩ := @ih (order + 1) (Nat.le_of_not_lt beyond) fun bit low high => by
        rcases Nat.lt_or_ge order bit with last | earlier
        · rw [show bit = order + 1 by omega]
          exact Bool.eq_false_iff.mpr set
        · exact clear bit low earlier
      exact ⟨by omega, by omega, fits, clear⟩

theorem firstOrder_spec (left : i < e) :
    firstOrder (idxToPa i) (idxToPa e) < maxOrder ∧ i + 2 ^ firstOrder (idxToPa i) (idxToPa e) ≤ e ∧
      ∀ bit, 1 ≤ bit → bit ≤ firstOrder (idxToPa i) (idxToPa e) → i.testBit bit = false := by
  obtain ⟨_, below, fits, clear⟩ := @rangeOrder_spec i e (maxOrder - 1) 0 (by simpa using left) fun bit low high => by omega
  unfold firstOrder
  rw [paToIdx_idxToPa]
  exact ⟨by unfold maxOrder at *; omega, fits, clear⟩

theorem firstOrder_zero_iff :
    firstOrder (idxToPa i) (idxToPa e) = 0 ↔ i.testBit 1 = true ∨ e < i + 2 := by
  unfold firstOrder
  rw [paToIdx_idxToPa, show maxOrder - 1 = 9 + 1 from rfl, rangeOrder_succ]
  by_cases set : i.testBit (0 + 1) = true
  · rw [if_pos set]
    exact ⟨fun _ => .inl set, fun _ => rfl⟩
  rw [if_neg set]
  by_cases beyond : e < i + 2 ^ (0 + 1)
  · rw [if_pos beyond]
    exact ⟨fun _ => .inr beyond, fun _ => rfl⟩
  · rw [if_neg beyond]
    obtain ⟨above, _⟩ := @rangeOrder_spec i e 9 1 (Nat.le_of_not_lt beyond) fun bit low high => by
      rw [show bit = 1 by omega]
      exact Bool.eq_false_iff.mpr set
    exact iff_of_false (Nat.one_le_iff_ne_zero.mp above) fun either => either.elim set beyond

theorem rangeBlocks_cons (left : i < e) : rangeBlocks (idxToPa i) (idxToPa e) =
    (i, firstOrder (idxToPa i) (idxToPa e)) ::
      rangeBlocks (idxToPa (i + 2 ^ firstOrder (idxToPa i) (idxToPa e))) (idxToPa e) := by
  rw [rangeBlocks, if_pos (idxToPa_lt.mpr left), paToIdx_idxToPa, idxToPa_block]

theorem rangeBlocks_nil (done : e ≤ i) : rangeBlocks (idxToPa i) (idxToPa e) = [] := by
  rw [rangeBlocks, if_neg (by rw [idxToPa_lt]; omega)]

theorem rangeBlocks_induction {motive : Nat → List (Nat × Nat) → Prop} (nil : ∀ i, e ≤ i → motive i [])
    (cons : ∀ i, i < e → ∀ rest, motive (i + 2 ^ firstOrder (idxToPa i) (idxToPa e)) rest →
      motive i ((i, firstOrder (idxToPa i) (idxToPa e)) :: rest)) (i : Nat) :
    motive i (rangeBlocks (idxToPa i) (idxToPa e)) := by
  induction _size : e - i using Nat.strong_induction_on generalizing i with
  | _ left ih =>
    rcases Nat.lt_or_ge i e with more | done
    · rw [rangeBlocks_cons more]
      refine cons i more _ (ih _ ?_ _ rfl)
      have := Nat.two_pow_pos (firstOrder (idxToPa i) (idxToPa e))
      omega
    · rw [rangeBlocks_nil done]
      exact nil i done

theorem pmmFreeRange_eq (s : Buddy) (start stop : Nat) : pmmFreeRange s start stop = addBlocks s (rangeBlocks start stop) := by
  fun_induction pmmFreeRange s start stop with
  | case1 s start left ih =>
    rw [rangeBlocks, if_pos left, ih]
    unfold addBlocks
    rw [List.foldl_cons]
  | case2 s start done =>
    rw [rangeBlocks, if_neg done]
    unfold addBlocks
    rw [List.foldl_nil]

theorem rangeBlocks_pages (i : Nat) : (rangeBlocks (idxToPa i) (idxToPa e)).flatMap blockPages = List.range' i (e - i) := by
  refine rangeBlocks_induction (motive := fun i blocks => blocks.flatMap blockPages = List.range' i (e - i)) ?_ ?_ i
  · intro i done
    rw [Nat.sub_eq_zero_of_le done]
    rfl
  · intro i left rest ih
    obtain ⟨_, fits, _⟩ := firstOrder_spec left
    rw [List.flatMap_cons, ih]
    show List.range' i (2 ^ firstOrder (idxToPa i) (idxToPa e)) ++ _ = _
    rw [List.range'_append_1]
    congr 1
    omega

theorem rangeBlocks_order (i : Nat) : ∀ block ∈ rangeBlocks (idxToPa i) (idxToPa e), block.2 < maxOrder := by
  refine rangeBlocks_induction (motive := fun _ blocks => ∀ block ∈ blocks, block.2 < maxOrder) ?_ ?_ i
  · exact fun _ _ => nofun
  · intro i left rest ih block member
    rcases List.mem_cons.mp member with rfl | member
    · exact (firstOrder_spec left).1
    · exact ih block member

theorem aligned_of_clear {order : Nat} (even : i.testBit 0 = false)
    (clear : ∀ bit, 1 ≤ bit → bit ≤ order → i.testBit bit = false) : Aligned i (order + 1) := by
  refine Nat.dvd_of_mod_eq_zero (Nat.eq_of_testBit_eq fun bit => ?_)
  rw [Nat.testBit_mod_two_pow, Nat.zero_testBit]
  rcases Nat.lt_or_ge bit (order + 1) with low | high
  · cases bit with
    | zero => rw [even, Bool.and_false]
    | succ bit => rw [clear (bit + 1) (by omega) (by omega), Bool.and_false]
  · rw [decide_eq_false (by omega), Bool.false_and]

/-- A range starts at a page from which a block would be cut off that is not aligned. -/
def StartsOdd (i e : Nat) : Prop := i % 4 = 1 ∧ i + 2 ≤ e

theorem firstOrder_aligned (left : i < e) (good : ¬ StartsOdd i e) :
    Aligned i (firstOrder (idxToPa i) (idxToPa e)) ∧
      ¬ StartsOdd (i + 2 ^ firstOrder (idxToPa i) (idxToPa e)) e := by
  obtain ⟨_, fits, clear⟩ := firstOrder_spec left
  have single := @firstOrder_zero_iff i e
  have second : i.testBit 1 = true ↔ i % 4 = 2 ∨ i % 4 = 3 := by
    rw [Nat.testBit_eq_decide_div_mod_eq, decide_eq_true_eq]
    omega
  generalize firstOrder (idxToPa i) (idxToPa e) = order at *
  unfold StartsOdd at *
  cases order with
  | zero =>
    -- One page is taken: the last one, or one behind which an aligned or the last page of four follows.
    refine ⟨AlignedBlock.aligned_zero i, ?_⟩
    have := single.mp rfl
    rw [second] at this
    omega
  | succ order =>
    have more : ¬ (i.testBit 1 = true ∨ e < i + 2) := fun either => Nat.succ_ne_zero order (single.mpr either)
    rw [second] at more
    have even : i.testBit 0 = false := by
      rw [Nat.testBit_zero, decide_eq_false_iff_not]
      omega
    have twice := aligned_of_clear even clear
    refine ⟨twice.mono (Nat.le_succ _), ?_⟩
    obtain ⟨half, size⟩ : 2 ∣ i + 2 ^ (order + 1) := Nat.dvd_add (by omega) (Nat.pow_dvd_pow 2 (by omega : 1 ≤ order + 1))
    omega

theorem rangeBlocks_aligned (i : Nat) :
    ¬ StartsOdd i e → ∀ block ∈ rangeBlocks (idxToPa i) (idxToPa e), Aligned block.1 block.2 := by
  refine rangeBlocks_induction (motive := fun i blocks => ¬ StartsOdd i e → ∀ block ∈ blocks, Aligned block.1 block.2) ?_ ?_ i
  · exact fun _ _ _ => nofun
  · intro i left rest ih good block member
    obtain ⟨aligned, next⟩ := firstOrder_aligned left good
    rcases List.mem_cons.mp member with rfl | member
    · exact aligned
    · exact ih next block member

theorem rangeBlocks_startsOdd (odd : StartsOdd i e) :
    ¬ ∀ block ∈ rangeBlocks (idxToPa i) (idxToPa e), Aligned block.1 block.2 := by
  intro aligned
  obtain ⟨one, two⟩ := odd
  have left : i < e := by omega
  rw [rangeBlocks_cons left] at aligned
  have first := aligned _ List.mem_cons_self
  have more : firstOrder (idxToPa i) (idxToPa e) ≠ 0 := by
    rw [Ne, firstOrder_zero_iff, Nat.testBit_eq_decide_div_mod_eq, decide_eq_true_eq]
    omega
  obtain ⟨half, even⟩ := first.mono (Nat.one_le_iff_ne_zero.mpr more)
  dsimp only at even
  omega

end

/-- A range that is cut into blocks: they are added, they are the pages of the range, and each starts at a multiple of its size. -/
def FreesExactly (start stop : Nat) : Prop :=
  (∀ s, pmmFreeRange s start stop = addBlocks s (rangeBlocks start stop)) ∧
    (rangeBlocks start stop).flatMap blockPages = List.range' (paToIdx start) (paToIdx stop - paToIdx start) ∧
    ∀ block ∈ rangeBlocks start stop, block.2 < maxOrder ∧ Aligned block.1 block.2

/-- A range of whole pages in managed memory is cut into blocks at multiples of their sizes exactly if its first page is not the second of four with another one of the range behind it. -/
theorem pmmFreeRange_exact_iff {start stop : Nat} (low : pmmBase ≤ start) (high : stop ≤ pmmEnd) (first : pageSize ∣ start)
    (last : pageSize ∣ stop) (ordered : start ≤ stop) :
    FreesExactly start stop ↔ ¬ (paToIdx start % 4 = 1 ∧ start + 2 * pageSize ≤ stop) := by
  have place {pa : Nat} (low : pmmBase ≤ pa) (whole : pageSize ∣ pa) : pa = idxToPa (paToIdx pa) := by
    unfold idxToPa paToIdx
    rw [Nat.div_mul_cancel (Nat.dvd_sub whole (by decide)), Nat.add_sub_cancel' low]
  obtain ⟨i, rfl⟩ : ∃ i, start = idxToPa i := ⟨_, place low first⟩
  obtain ⟨e, rfl⟩ : ∃ e, stop = idxToPa e := ⟨_, place (low.trans ordered) last⟩
  have room : idxToPa i + 2 * pageSize ≤ idxToPa e ↔ i + 2 ≤ e := by
    unfold idxToPa pageSize
    omega
  rw [room, paToIdx_idxToPa]
  constructor
  · exact fun exact odd => rangeBlocks_startsOdd odd fun block member => (exact.2.2 block member).2
  · intro good
    refine ⟨fun s => pmmFreeRange_eq s _ _, ?_, fun block member => ?_⟩
    · rw [paToIdx_idxToPa, paToIdx_idxToPa]
      exact rangeBlocks_pages i
    · exact ⟨rangeBlocks_order i block member, rangeBlocks_aligned i good block member⟩

/-- Memory that starts at a multiple of four pages. -/
theorem pmmFreeRange_exact_iff_boot : FreesExactly 0x41000000 pmmEnd ↔
    ¬ (paToIdx 0x41000000 % 4 = 1 ∧ 0x41000000 + 2 * pageSize ≤ pmmEnd) :=
  pmmFreeRange_exact_iff (by decide) (by decide) (by decide) (by decide) (by decide)

/-- Two pages from the second one on become one block, which does not start at a multiple of its size. -/
theorem pmmFreeRange_misaligned : ¬ FreesExactly (pmmBase + pageSize) (pmmBase + 3 * pageSize) := by
  intro exact
  have blocks : rangeBlocks (pmmBase + pageSize) (pmmBase + 3 * pageSize) = [(1, 1)] := by
    rw [rangeBlocks, if_pos (by decide), rangeBlocks, if_neg (by decide)]
    decide
  have aligned := (exact.2.2 (1, 1) (by rw [blocks]; exact List.mem_cons_self)).2
  exact absurd aligned (by decide)

end Enlil.Pmm
