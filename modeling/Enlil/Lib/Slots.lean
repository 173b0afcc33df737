import Mathlib

/-! Slots of a table, each held by one holder as long as it is in use. -/

namespace Enlil

/-- The slots that the holders refer to are the ones in use, and no slot is referred to twice. -/
structure Owned {ι : Type} (alive : Nat → Bool) (limit : Nat) (slots : ι → List Nat) : Prop where
  live : ∀ {i slot}, slot ∈ slots i → slot < limit ∧ alive slot = true
  once : ∀ i, (slots i).Nodup
  apart : ∀ {i j slot}, slot ∈ slots i → slot ∈ slots j → i = j
  held : ∀ {slot}, alive slot = true → ∃ i, slot ∈ slots i

namespace Owned

variable {ι : Type} {alive alive' : Nat → Bool} {limit : Nat} {slots slots' : ι → List Nat} {i : ι} {slot : Nat}

/-- Nothing is in use at the start. -/
theorem empty (none : ∀ slot, alive slot = false) (nothing : ∀ i, slots i = []) : Owned alive limit slots where
  live member := by simp [nothing] at member
  once i := by simp [nothing]
  apart member := by simp [nothing] at member
  held used := by simp [none] at used

/-- The same slots may be written in another way. -/
theorem congr (owned : Owned alive limit slots) (used : ∀ slot, alive' slot = alive slot)
    (same : ∀ i, slots' i = slots i) : Owned alive' limit slots' := by
  rw [funext used, funext same]
  exact owned

/-- A holder takes a free slot. -/
theorem take (owned : Owned alive limit slots) (inside : slot < limit) (free : alive slot = false)
    (used : ∀ other, alive' other = if other = slot then true else alive other)
    (taken : slots' i = slots i ++ [slot]) (others : ∀ j, j ≠ i → slots' j = slots j) :
    Owned alive' limit slots' := by
  have fresh {j : ι} : slot ∉ slots j := fun member =>
    absurd (owned.live member).2 (by simp [free])
  have cases_mem {j : ι} {other : Nat} (member : other ∈ slots' j) : other ∈ slots j ∨ (j = i ∧ other = slot) := by
    by_cases same : j = i
    · subst same
      rw [taken, List.mem_append, List.mem_singleton] at member
      exact member.imp id fun equal => ⟨rfl, equal⟩
    · rw [others j same] at member
      exact .inl member
  refine ⟨fun {j other} member => ?_, fun j => ?_, fun {j k other} left right => ?_, fun {other} alive => ?_⟩
  · rcases cases_mem member with old | ⟨_, rfl⟩
    · have := owned.live old
      refine ⟨this.1, ?_⟩
      rw [used]
      split
      · rfl
      · exact this.2
    · exact ⟨inside, by rw [used, if_pos rfl]⟩
  · by_cases same : j = i
    · subst same
      rw [taken]
      exact (owned.once j).append (List.nodup_singleton slot) (by simpa using fresh)
    · rw [others j same]
      exact owned.once j
  · rcases cases_mem left with old | ⟨rfl, rfl⟩ <;> rcases cases_mem right with old' | ⟨rfl, equal⟩
    · exact owned.apart old old'
    · subst equal
      exact absurd old fresh
    · exact absurd old' fresh
    · rfl
  · rw [used] at alive
    split at alive
    · rename_i equal
      refine ⟨i, ?_⟩
      rw [taken, equal]
      exact List.mem_append_right _ (List.mem_singleton_self _)
    · obtain ⟨j, member⟩ := owned.held alive
      refine ⟨j, ?_⟩
      by_cases same : j = i
      · subst same
        rw [taken]
        exact List.mem_append_left _ member
      · rw [others j same]
        exact member

/-- A holder gives a slot back. -/
theorem free (owned : Owned alive limit slots) (given : (slots i).Perm (slot :: slots' i))
    (unused : ∀ other, alive' other = if other = slot then false else alive other)
    (others : ∀ j, j ≠ i → slots' j = slots j) : Owned alive' limit slots' := by
  have here : slot ∈ slots i := given.mem_iff.mpr List.mem_cons_self
  have once : (slot :: slots' i).Nodup := given.nodup_iff.mp (owned.once i)
  have old {j : ι} {other : Nat} (member : other ∈ slots' j) : other ∈ slots j ∧ other ≠ slot := by
    by_cases same : j = i
    · subst same
      exact ⟨given.mem_iff.mpr (List.mem_cons_of_mem _ member), fun equal => (List.nodup_cons.mp once).1 (equal ▸ member)⟩
    · rw [others j same] at member
      exact ⟨member, fun equal => same (owned.apart member (equal ▸ here))⟩
  refine ⟨fun {j other} member => ?_, fun j => ?_, fun left right => owned.apart (old left).1 (old right).1,
    fun {other} alive => ?_⟩
  · have := owned.live (old member).1
    rw [unused, if_neg (old member).2]
    exact this
  · by_cases same : j = i
    · subst same
      exact (List.nodup_cons.mp once).2
    · rw [others j same]
      exact owned.once j
  · rw [unused] at alive
    split at alive
    · cases alive
    · rename_i differ
      obtain ⟨j, member⟩ := owned.held alive
      refine ⟨j, ?_⟩
      by_cases same : j = i
      · subst same
        exact (List.mem_cons.mp (given.mem_iff.mp member)).resolve_left differ
      · rw [others j same]
        exact member

/-- A holder gives all its slots back. -/
theorem leave (owned : Owned alive limit slots) (nothing : slots' i = [])
    (unused : ∀ other, alive' other = true ↔ alive other = true ∧ other ∉ slots i)
    (others : ∀ j, j ≠ i → slots' j = slots j) : Owned alive' limit slots' := by
  have old {j : ι} {other : Nat} (member : other ∈ slots' j) : other ∈ slots j ∧ other ∉ slots i := by
    by_cases same : j = i
    · subst same
      rw [nothing] at member
      cases member
    · rw [others j same] at member
      exact ⟨member, fun here => same (owned.apart member here)⟩
  refine ⟨fun {j other} member => ?_, fun j => ?_, fun left right => owned.apart (old left).1 (old right).1,
    fun {other} alive => ?_⟩
  · have := owned.live (old member).1
    exact ⟨this.1, (unused other).mpr ⟨this.2, (old member).2⟩⟩
  · by_cases same : j = i
    · subst same
      rw [nothing]
      exact List.nodup_nil
    · rw [others j same]
      exact owned.once j
  · obtain ⟨used, differ⟩ := (unused other).mp alive
    obtain ⟨j, member⟩ := owned.held used
    refine ⟨j, ?_⟩
    rw [others j fun same => differ (same ▸ member)]
    exact member

end Owned

end Enlil
