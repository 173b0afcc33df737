import Mathlib

/-! Logs of whole-cell writes, and why applying one again after a part of it changes nothing. -/

namespace Enlil

section

variable {α β : Type} [DecidableEq α]

/-- A store after a list of writes, the first one first. -/
def patch (store : α → β) : List (α × β) → α → β
  | [] => store
  | write :: rest => patch (Function.update store write.1 write.2) rest

/-- Writes made one after the other are the writes of the two lists in a row. -/
theorem patch_append (store : α → β) (first second : List (α × β)) :
    patch store (first ++ second) = patch (patch store first) second := by
  induction first generalizing store with
  | nil => rfl
  | cons write rest ih => exact ih _

/-- A cell that is not written keeps its contents. -/
theorem patch_outside {store : α → β} {writes : List (α × β)} {cell : α}
    (outside : ∀ write ∈ writes, write.1 ≠ cell) : patch store writes cell = store cell := by
  induction writes generalizing store with
  | nil => rfl
  | cons write rest ih =>
    rw [patch, ih fun later member => outside later (by simp [member])]
    exact Function.update_of_ne (outside write (by simp)).symm _ _

/-- A cell that is written does not depend on what it held before. -/
theorem patch_inside {store store' : α → β} {writes : List (α × β)} {cell : α}
    (inside : ∃ write ∈ writes, write.1 = cell) : patch store writes cell = patch store' writes cell := by
  induction writes generalizing store store' with
  | nil => simp at inside
  | cons write rest ih =>
    by_cases later : ∃ other ∈ rest, other.1 = cell
    · exact ih later
    · -- The first write is the only one to this cell.
      have outside : ∀ other ∈ rest, other.1 ≠ cell := fun other member same => later ⟨other, member, same⟩
      obtain ⟨other, member, same⟩ := inside
      rcases List.mem_cons.mp member with rfl | inRest
      · rw [patch, patch, patch_outside outside, patch_outside outside, ← same,
          Function.update_self, Function.update_self]
      · exact absurd same (outside other inRest)

/-- A cell to which a log writes one value only holds that value after it. -/
theorem patch_value {store : α → β} {writes : List (α × β)} {cell : α} {value : β}
    (inside : ∃ write ∈ writes, write.1 = cell) (only : ∀ write ∈ writes, write.1 = cell → write.2 = value) :
    patch store writes cell = value := by
  induction writes generalizing store with
  | nil => simp at inside
  | cons write rest ih =>
    have onlyRest : ∀ other ∈ rest, other.1 = cell → other.2 = value := fun other member =>
      only other (by simp [member])
    by_cases later : ∃ other ∈ rest, other.1 = cell
    · exact ih later onlyRest
    · -- The first write is the only one to this cell.
      have outside : ∀ other ∈ rest, other.1 ≠ cell := fun other member same => later ⟨other, member, same⟩
      obtain ⟨other, member, same⟩ := inside
      rcases List.mem_cons.mp member with rfl | inRest
      · rw [patch, patch_outside outside, ← same, Function.update_self]
        exact only other (by simp) same
      · exact absurd same (outside other inRest)

/-- Stores that agree wherever a log does not write agree after the log. -/
theorem patch_congr {store store' : α → β} {writes : List (α × β)} (cells : α → Prop)
    (same : ∀ cell, cells cell → (∀ write ∈ writes, write.1 ≠ cell) → store cell = store' cell)
    {cell : α} (cared : cells cell) : patch store writes cell = patch store' writes cell := by
  by_cases inside : ∃ write ∈ writes, write.1 = cell
  · exact patch_inside inside
  · have outside : ∀ write ∈ writes, write.1 ≠ cell := fun write member equal => inside ⟨write, member, equal⟩
    rw [patch_outside outside, patch_outside outside, same cell cared outside]

end

/-- A part of two lists in a row ends in the first one, or takes all of it and a part of the second. -/
theorem prefix_append_split {α : Type} {cut first second : List α} (within : cut <+: first ++ second) :
    cut <+: first ∨ ∃ rest, rest <+: second ∧ cut = first ++ rest := by
  rcases Nat.le_total cut.length first.length with short | long
  · exact Or.inl (List.prefix_of_prefix_length_le within (List.prefix_append first second) short)
  · obtain ⟨rest, rfl⟩ := List.prefix_of_prefix_length_le (List.prefix_append first second) within long
    exact Or.inr ⟨rest, (List.prefix_append_right_inj first).mp within, rfl⟩

/-- A part of lists in a row is empty, or ends in one of them and takes all before it. -/
theorem prefix_flatMap_split {α β : Type} {f : α → List β} {xs : List α} {cut : List β} (within : cut <+: xs.flatMap f) :
    cut = [] ∨ ∃ earlier x later part, xs = earlier ++ x :: later ∧ part <+: f x ∧ cut = earlier.flatMap f ++ part := by
  induction xs generalizing cut with
  | nil => exact Or.inl (List.prefix_nil.mp within)
  | cons x xs ih =>
    right
    rcases prefix_append_split within with first | ⟨rest, later, rfl⟩
    · exact ⟨[], x, xs, cut, rfl, first, rfl⟩
    · rcases ih later with rfl | ⟨earlier, y, later', part, rfl, inPart, rfl⟩
      · exact ⟨[], x, xs, f x, rfl, List.prefix_rfl, by simp⟩
      · exact ⟨x :: earlier, y, later', part, rfl, inPart, by simp⟩

/-- A place in a list with one more element is that element's or a place in the list. -/
theorem split_concat {α : Type} {xs earlier later : List α} {x y : α} (split : xs ++ [x] = earlier ++ y :: later) :
    (earlier = xs ∧ y = x) ∨ ∃ later', xs = earlier ++ y :: later' := by
  rcases List.eq_nil_or_concat later with rfl | ⟨later', z, rfl⟩
  · obtain ⟨same, last⟩ := List.append_inj' split rfl
    exact Or.inl ⟨same.symm, (List.cons.inj last).1.symm⟩
  · have regroup : earlier ++ y :: (later' ++ [z]) = (earlier ++ y :: later') ++ [z] := by simp
    rw [List.concat_eq_append, regroup] at split
    exact Or.inr ⟨later', (List.append_inj' split rfl).1⟩

end Enlil
