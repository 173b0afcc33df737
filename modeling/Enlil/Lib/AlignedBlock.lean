import Mathlib

/-! Size-aligned power-of-two blocks: any two of them are nested or disjoint. -/

namespace Enlil.AlignedBlock

/-- The positions of the block of `2 ^ order` indices that starts at `base`. -/
def Covers (base order index : Nat) : Prop :=
  -- The right endpoint is exclusive.
  base ≤ index ∧ index < base + 2 ^ order

instance (base order index : Nat) : Decidable (Covers base order index) :=
  inferInstanceAs (Decidable (_ ∧ _))

/-- A block is aligned when it starts at a multiple of its own size. -/
def Aligned (base order : Nat) : Prop := 2 ^ order ∣ base

instance (base order : Nat) : Decidable (Aligned base order) :=
  inferInstanceAs (Decidable (_ ∣ _))

/-- The partner of a block: the index with the bit of the block's size flipped. -/
def buddy (base order : Nat) : Nat := base ^^^ (1 <<< order)

/-- Every block covers the position it starts at. -/
theorem covers_base (base order : Nat) : Covers base order base := by
  -- A power of two is positive, so the block is not empty.
  have size := Nat.two_pow_pos order
  exact ⟨Nat.le_refl _, by omega⟩

/-- A block of order zero is its base alone. -/
theorem covers_zero {base index : Nat} : Covers base 0 index ↔ index = base := by
  unfold Covers
  omega

/-- Every index is aligned at order zero. -/
theorem aligned_zero (base : Nat) : Aligned base 0 := by
  simp [Aligned]

/-- Alignment at an order gives alignment at every smaller one. -/
theorem Aligned.mono {base small large : Nat} (aligned : Aligned base large)
    (order : small ≤ large) : Aligned base small :=
  -- The smaller size divides the larger one.
  (Nat.pow_dvd_pow 2 order).trans aligned

/-- An aligned block that meets a block at least as large lies inside it. -/
theorem nested {inner outer small large index : Nat} (innerAligned : Aligned inner small)
    (outerAligned : Aligned outer large) (order : small ≤ large)
    (inInner : Covers inner small index) (inOuter : Covers outer large index) {other : Nat}
    (inside : Covers inner small other) : Covers outer large other := by
  -- Both ends of the outer block are multiples of the inner size, so neither falls inside the inner one.
  obtain ⟨i, rfl⟩ := innerAligned
  obtain ⟨j, rfl⟩ := outerAligned.mono order
  obtain ⟨k, size⟩ := Nat.pow_dvd_pow 2 order
  unfold Covers at *
  rw [size] at inOuter ⊢
  have positive := Nat.two_pow_pos small
  generalize 2 ^ small = unit at *
  have lower : j ≤ i := by
    by_contra below
    have : unit * (i + 1) ≤ unit * j := Nat.mul_le_mul_left _ (by omega)
    rw [Nat.mul_add] at this
    omega
  have upper : i + 1 ≤ j + k := by
    by_contra above
    have : unit * (j + k) ≤ unit * i := Nat.mul_le_mul_left _ (by omega)
    rw [Nat.mul_add] at this
    omega
  have low : unit * j ≤ unit * i := Nat.mul_le_mul_left _ lower
  have high : unit * (i + 1) ≤ unit * (j + k) := Nat.mul_le_mul_left _ upper
  rw [Nat.mul_add, Nat.mul_add] at high
  omega

/-- A block no larger than the alignment of a position it covers starts there. -/
theorem base_of_covers {base position small large : Nat} (aligned : Aligned base small)
    (positionAligned : Aligned position large) (order : small ≤ large)
    (covers : Covers base small position) : base = position := by
  -- Two multiples of one size closer than that size are equal.
  have size := Nat.two_pow_pos small
  have inside : Covers base small (position + (2 ^ small - 1)) :=
    nested (positionAligned.mono order) aligned (Nat.le_refl small)
      (covers_base position small) covers ⟨by omega, by omega⟩
  unfold Covers at covers inside
  omega

/-- A block of the next order is its two halves. -/
theorem covers_succ {base order index : Nat} :
    Covers base (order + 1) index ↔ Covers base order index ∨ Covers (base + 2 ^ order) order index := by
  unfold Covers
  rw [Nat.pow_succ]
  omega

/-- The upper half of an aligned block is aligned at its own order. -/
theorem Aligned.upper {base order : Nat} (aligned : Aligned base (order + 1)) :
    Aligned (base + 2 ^ order) order :=
  Nat.dvd_add (aligned.mono (Nat.le_succ _)) (Nat.dvd_refl _)

/-- The halves of a block do not meet. -/
theorem halves_disjoint {base order index : Nat} (lower : Covers base order index)
    (upper : Covers (base + 2 ^ order) order index) : False := by
  unfold Covers at *
  omega

/-- The buddy of an aligned block is the other half of the block one order up. -/
theorem buddy_cases {base order : Nat} (aligned : Aligned base order) :
    (Aligned base (order + 1) ∧ buddy base order = base + 2 ^ order) ∨
      (2 ^ order ≤ base ∧ Aligned (base - 2 ^ order) (order + 1) ∧
        buddy base order = base - 2 ^ order) := by
  -- Dividing by the block size turns the flipped bit into the parity of the quotient.
  obtain ⟨quotient, rfl⟩ := aligned
  have shifted : buddy (2 ^ order * quotient) order = 2 ^ order * (quotient ^^^ 1) := by
    unfold buddy
    rw [Nat.mul_comm, ← Nat.shiftLeft_eq, ← Nat.shiftLeft_xor_distrib, Nat.shiftLeft_eq, Nat.mul_comm]
  rcases Nat.even_or_odd quotient with even | odd
  · left
    refine ⟨?_, by rw [shifted, Nat.xor_one_of_even even, Nat.mul_add, Nat.mul_one]⟩
    unfold Aligned
    rw [Nat.pow_succ]
    exact Nat.mul_dvd_mul_left _ even.two_dvd
  · right
    have positive := odd.pos
    have smaller : 2 ^ order * quotient - 2 ^ order = 2 ^ order * (quotient - 1) := by
      rw [Nat.mul_sub, Nat.mul_one]
    refine ⟨Nat.le_mul_of_pos_right _ positive, ?_, ?_⟩
    · unfold Aligned
      rw [smaller, Nat.pow_succ]
      exact Nat.mul_dvd_mul_left _ (Nat.Odd.sub_odd odd odd_one).two_dvd
    · rw [shifted, Nat.xor_one_of_odd odd, smaller]

/-- The buddy of an aligned block is aligned at the same order. -/
theorem buddy_aligned {base order : Nat} (aligned : Aligned base order) :
    Aligned (buddy base order) order := by
  rcases buddy_cases aligned with ⟨_, same⟩ | ⟨_, below, same⟩
  · rw [same]
    exact Nat.dvd_add aligned (Nat.dvd_refl _)
  · rw [same]
    exact below.mono (Nat.le_succ _)

/-- The lower of two buddies is aligned one order up. -/
theorem min_buddy_aligned {base order : Nat} (aligned : Aligned base order) :
    Aligned (min base (buddy base order)) (order + 1) := by
  rcases buddy_cases aligned with ⟨up, same⟩ | ⟨_, below, same⟩
  · rwa [same, Nat.min_eq_left (Nat.le_add_right _ _)]
  · rwa [same, Nat.min_eq_right (Nat.sub_le _ _)]

/-- The merged block covers exactly what the two buddies cover. -/
theorem covers_merge {base order index : Nat} (aligned : Aligned base order) :
    Covers (min base (buddy base order)) (order + 1) index ↔
      Covers base order index ∨ Covers (buddy base order) order index := by
  -- Whichever of the two is lower is the base of the merged block.
  rcases buddy_cases aligned with ⟨_, same⟩ | ⟨room, _, same⟩
  · rw [same, Nat.min_eq_left (Nat.le_add_right _ _), covers_succ]
  · rw [same, Nat.min_eq_right (Nat.sub_le _ _), covers_succ, Nat.sub_add_cancel room, or_comm]

/-- A block and its buddy do not meet. -/
theorem buddy_disjoint {base order index : Nat} (aligned : Aligned base order)
    (own : Covers base order index) (other : Covers (buddy base order) order index) : False := by
  rcases buddy_cases aligned with ⟨_, same⟩ | ⟨room, _, same⟩
  · rw [same] at other
    exact halves_disjoint own other
  · rw [same] at other
    exact halves_disjoint other (by rwa [Nat.sub_add_cancel room])

/-- A larger aligned block that meets the buddy of a block covers the block itself. -/
theorem covers_of_covers_buddy {base order outer large index : Nat} (aligned : Aligned base order)
    (outerAligned : Aligned outer large) (larger : order < large)
    (inBuddy : Covers (buddy base order) order index) (inOuter : Covers outer large index) :
    Covers outer large base := by
  -- The merged block is nested in the outer one, and the block is half of it.
  exact nested (min_buddy_aligned aligned) outerAligned larger
    ((covers_merge aligned).mpr (Or.inr inBuddy)) inOuter
    ((covers_merge aligned).mpr (Or.inl (covers_base base order)))

end Enlil.AlignedBlock
