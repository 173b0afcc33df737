import Mathlib

/-! Finite maps kept as a list of entries in increasing order of their keys. -/

namespace Enlil

/-- A finite map whose entries are listed by increasing key. -/
structure SortedMap (κ α : Type) [LinearOrder κ] where
  entries : List (κ × α)
  sorted : entries.Pairwise fun first second => first.1 < second.1

namespace SortedMap

variable {κ α β : Type} [LinearOrder κ]

/-- The map without entries. -/
def empty : SortedMap κ α := ⟨[], .nil⟩

/-- The value at a key. -/
def get? (m : SortedMap κ α) (key : κ) : Option α :=
  (m.entries.find? fun entry => entry.1 = key).map Prod.snd

/-- Puts an entry in its place, over the one that has its key. -/
def insertEntry (key : κ) (value : α) : List (κ × α) → List (κ × α)
  | [] => [(key, value)]
  | entry :: rest =>
    if key < entry.1 then (key, value) :: entry :: rest
    else if key = entry.1 then (key, value) :: rest
    else entry :: insertEntry key value rest

/-- Every entry after an insertion is the new one or was there before. -/
theorem mem_insertEntry {key : κ} {value : α} {entry : κ × α} {entries : List (κ × α)}
    (member : entry ∈ insertEntry key value entries) : entry = (key, value) ∨ entry ∈ entries := by
  induction entries with
  | nil => exact Or.inl (by simpa [insertEntry] using member)
  | cons head rest ih =>
    rw [insertEntry] at member
    split_ifs at member <;> grind

/-- An insertion keeps the order of the keys. -/
theorem insertEntry_sorted {key : κ} {value : α} {entries : List (κ × α)}
    (sorted : entries.Pairwise fun first second => first.1 < second.1) :
    (insertEntry key value entries).Pairwise fun first second => first.1 < second.1 := by
  induction entries with
  | nil => simp [insertEntry]
  | cons head rest ih =>
    obtain ⟨below, restSorted⟩ := List.pairwise_cons.mp sorted
    rw [insertEntry]
    split_ifs with before same
    · refine List.pairwise_cons.mpr ⟨fun entry member => ?_, sorted⟩
      rcases List.mem_cons.mp member with rfl | member
      · exact before
      · exact before.trans (below entry member)
    · exact List.pairwise_cons.mpr ⟨fun entry member => by simpa [same] using below entry member, restSorted⟩
    · -- The new entry goes behind the head, and so does every entry that was there.
      have after : head.1 < key := lt_of_le_of_ne (not_lt.mp before) (Ne.symm same)
      refine List.pairwise_cons.mpr ⟨fun entry member => ?_, ih restSorted⟩
      rcases mem_insertEntry member with rfl | member
      · exact after
      · exact below entry member

/-- The map with a value at a key. -/
def set (m : SortedMap κ α) (key : κ) (value : α) : SortedMap κ α :=
  ⟨insertEntry key value m.entries, insertEntry_sorted m.sorted⟩

/-- The map without an entry at a key. -/
def erase (m : SortedMap κ α) (key : κ) : SortedMap κ α :=
  ⟨m.entries.filter fun entry => entry.1 ≠ key, m.sorted.filter _⟩

/-- The map with every value changed. -/
def mapValues (m : SortedMap κ α) (change : α → β) : SortedMap κ β :=
  ⟨m.entries.map fun entry => (entry.1, change entry.2), List.pairwise_map.mpr m.sorted⟩

/-- The number of entries. -/
def size (m : SortedMap κ α) : Nat := m.entries.length

/-- The number of entries whose value passes a test. -/
def count (m : SortedMap κ α) (test : α → Bool) : Nat := m.entries.countP fun entry => test entry.2

/-- A key is looked up by its entry. -/
theorem get?_eq_some {m : SortedMap κ α} {key : κ} {value : α} :
    m.get? key = some value ↔ (key, value) ∈ m.entries := by
  obtain ⟨entries, sorted⟩ := m
  simp only [get?]
  induction entries with
  | nil => simp
  | cons head rest ih =>
    obtain ⟨below, restSorted⟩ := List.pairwise_cons.mp sorted
    by_cases same : head.1 = key
    · -- No later entry has the key of the head.
      have absent : ∀ value, (key, value) ∉ rest := fun value member =>
        absurd (below _ member) (by simp [same])
      simp only [List.find?_cons, same, decide_true, Option.map_some, Option.some.injEq, List.mem_cons,
        absent, or_false]
      constructor
      · rintro rfl
        exact Prod.ext same.symm rfl
      · intro entry
        exact (congrArg Prod.snd entry).symm
    · simp only [List.find?_cons, same, decide_false, ih restSorted, List.mem_cons]
      constructor
      · exact Or.inr
      · rintro (entry | member)
        · exact absurd (congrArg Prod.fst entry).symm same
        · exact member

/-- A key without an entry. -/
theorem get?_eq_none {m : SortedMap κ α} {key : κ} :
    m.get? key = none ↔ ∀ value, (key, value) ∉ m.entries := by
  constructor
  · intro absent value member
    rw [get?_eq_some.mpr member] at absent
    cases absent
  · intro absent
    cases found : m.get? key with
    | none => rfl
    | some value => exact absurd (get?_eq_some.mp found) (absent value)

/-- The value just set. -/
@[simp] theorem get?_set_self (m : SortedMap κ α) (key : κ) (value : α) :
    (m.set key value).get? key = some value := by
  obtain ⟨entries, sorted⟩ := m
  simp only [get?, set]
  induction entries with
  | nil => simp [insertEntry]
  | cons head rest ih =>
    rw [insertEntry]
    split_ifs with before same
    · simp
    · simp
    · simpa [Ne.symm same] using ih (List.pairwise_cons.mp sorted).2

/-- The other keys keep their values. -/
theorem get?_set_of_ne (m : SortedMap κ α) {key other : κ} (value : α) (apart : other ≠ key) :
    (m.set key value).get? other = m.get? other := by
  obtain ⟨entries, sorted⟩ := m
  simp only [get?, set]
  induction entries with
  | nil => simp [insertEntry, Ne.symm apart]
  | cons head rest ih =>
    rw [insertEntry]
    split_ifs with before same
    · simp [Ne.symm apart]
    · simp [← same, Ne.symm apart]
    · simp only [List.find?_cons]
      split
      · rfl
      · exact ih (List.pairwise_cons.mp sorted).2

/-- A lookup after a value was set. -/
theorem get?_set (m : SortedMap κ α) (key other : κ) (value : α) :
    (m.set key value).get? other = if other = key then some value else m.get? other := by
  split
  · rename_i same
    rw [same, get?_set_self]
  · rename_i apart
    exact get?_set_of_ne m value apart

/-- A lookup after an entry was erased. -/
theorem get?_erase (m : SortedMap κ α) (key other : κ) :
    (m.erase key).get? other = if other = key then none else m.get? other := by
  split
  · rename_i same
    refine get?_eq_none.mpr fun value member => ?_
    simp [erase, same] at member
  · rename_i apart
    refine Option.ext fun value => ?_
    rw [get?_eq_some, get?_eq_some]
    simp [erase, apart]

/-- A lookup after every value was changed. -/
@[simp] theorem get?_mapValues (m : SortedMap κ α) (change : α → β) (key : κ) :
    (m.mapValues change).get? key = (m.get? key).map change := by
  simp only [get?, mapValues, List.find?_map, Function.comp_def, Option.map_map]

/-- The empty map has no values. -/
@[simp] theorem get?_empty (key : κ) : (empty : SortedMap κ α).get? key = none := rfl

/-- A new key adds its value to a count. -/
theorem count_set_new {m : SortedMap κ α} {key : κ} (value : α) (test : α → Bool)
    (absent : m.get? key = none) :
    (m.set key value).count test = m.count test + (test value).toNat := by
  replace absent := get?_eq_none.mp absent
  obtain ⟨entries, sorted⟩ := m
  simp only [count, set] at *
  induction entries with
  | nil => cases tested : test value <;> simp [insertEntry, tested]
  | cons head rest ih =>
    rw [insertEntry]
    split_ifs with before same
    · cases tested : test value <;> simp [tested, List.countP_cons]
    · exact absurd (by rw [same]; exact List.mem_cons_self) (absent head.2)
    · rw [List.countP_cons, List.countP_cons, ih (List.pairwise_cons.mp sorted).2
        fun value member => absent value (List.mem_cons_of_mem _ member)]
      omega

/-- A value that is set over another one takes its place in a count. -/
theorem count_set_old {m : SortedMap κ α} {key : κ} {old : α} (value : α) (test : α → Bool)
    (present : m.get? key = some old) :
    (m.set key value).count test + (test old).toNat = m.count test + (test value).toNat := by
  replace present := get?_eq_some.mp present
  obtain ⟨entries, sorted⟩ := m
  simp only [count, set] at *
  induction entries with
  | nil => cases present
  | cons head rest ih =>
    obtain ⟨below, restSorted⟩ := List.pairwise_cons.mp sorted
    rw [insertEntry]
    rcases List.mem_cons.mp present with rfl | member
    · rw [if_neg (lt_irrefl _), if_pos rfl, List.countP_cons, List.countP_cons]
      cases test old <;> cases test value <;> simp
    · have before := below _ member
      rw [if_neg before.asymm, if_neg before.ne', List.countP_cons, List.countP_cons]
      have := ih restSorted member
      omega

/-- A new key adds one entry. -/
theorem size_set_new {m : SortedMap κ α} {key : κ} (value : α) (absent : m.get? key = none) :
    (m.set key value).size = m.size + 1 := by
  simpa [count, size] using count_set_new value (fun _ => true) absent

/-- An erased entry takes its value out of a count. -/
theorem count_erase {m : SortedMap κ α} {key : κ} {value : α} (test : α → Bool)
    (present : m.get? key = some value) :
    (m.erase key).count test + (test value).toNat = m.count test := by
  replace present := get?_eq_some.mp present
  obtain ⟨entries, sorted⟩ := m
  simp only [count, erase] at *
  induction entries with
  | nil => cases present
  | cons head rest ih =>
    obtain ⟨below, restSorted⟩ := List.pairwise_cons.mp sorted
    rcases List.mem_cons.mp present with rfl | member
    · -- The entry was the head, and the rest has larger keys.
      have others : rest.filter (fun entry => decide (entry.1 ≠ key)) = rest :=
        List.filter_eq_self.mpr fun entry member => by
          simpa using (below entry member).ne'
      rw [List.filter_cons_of_neg (by simp), others, List.countP_cons]
      cases test value <;> simp
    · have apart : head.1 ≠ key := (below _ member).ne
      rw [List.filter_cons_of_pos (by simpa using apart), List.countP_cons, List.countP_cons]
      have := ih restSorted member
      omega

/-- A count after every value was changed. -/
theorem count_mapValues (m : SortedMap κ α) (change : α → β) (test : β → Bool) :
    (m.mapValues change).count test = m.count fun value => test (change value) := by
  simp [count, mapValues, List.countP_map, Function.comp_def]

/-- A counted value is somewhere in the map. -/
theorem exists_of_count_pos {m : SortedMap κ α} {test : α → Bool} (positive : 0 < m.count test) :
    ∃ key value, m.get? key = some value ∧ test value = true := by
  obtain ⟨entry, member, passes⟩ := List.countP_pos_iff.mp positive
  exact ⟨entry.1, entry.2, get?_eq_some.mpr member, passes⟩

/-- A value of the map that passes is counted. -/
theorem count_pos {m : SortedMap κ α} {test : α → Bool} {key : κ} {value : α}
    (present : m.get? key = some value) (passes : test value = true) : 0 < m.count test :=
  List.countP_pos_iff.mpr ⟨_, get?_eq_some.mp present, passes⟩

/-- One key of the map picks its value out of a sum. -/
theorem sum_pick {m : SortedMap κ α} {key : κ} (present : (m.get? key).isSome) (value : Nat) :
    (m.entries.map fun entry => if key = entry.1 then value else 0).sum = value := by
  obtain ⟨found, isFound⟩ := Option.isSome_iff_exists.mp present
  replace present := get?_eq_some.mp isFound
  clear isFound
  obtain ⟨entries, sorted⟩ := m
  dsimp only at *
  induction entries with
  | nil => cases present
  | cons head rest ih =>
    obtain ⟨below, restSorted⟩ := List.pairwise_cons.mp sorted
    rw [List.map_cons, List.sum_cons]
    rcases List.mem_cons.mp present with rfl | member
    · -- The key of the head comes only once.
      have others : (rest.map fun entry => if key = entry.1 then value else 0).sum = 0 :=
        List.sum_eq_zero fun number inRest => by
          obtain ⟨entry, member, rfl⟩ := List.mem_map.mp inRest
          exact if_neg (below entry member).ne
      rw [if_pos rfl, others, Nat.add_zero]
    · have apart : key ≠ head.1 := (below _ member).ne'
      rw [if_neg apart, ih restSorted member, Nat.zero_add]

/-- A sum over children, taken parent by parent, is the sum over all of them. -/
theorem sum_children {m : SortedMap κ α} (children : List β) (parent : β → κ) (value : β → Nat)
    (known : ∀ child ∈ children, (m.get? (parent child)).isSome) :
    (m.entries.map fun entry => ((children.filter fun child => parent child = entry.1).map value).sum).sum =
      (children.map value).sum := by
  induction children with
  | nil => simp
  | cons child rest ih =>
    have split : ∀ entry : κ × α, (((child :: rest).filter fun child => parent child = entry.1).map value).sum =
        (if parent child = entry.1 then value child else 0) +
          ((rest.filter fun child => parent child = entry.1).map value).sum := by
      intro entry
      rw [List.filter_cons]
      split <;> simp_all
    rw [List.map_congr_left fun entry _ => split entry, List.sum_map_add, sum_pick (known child List.mem_cons_self),
      ih fun child member => known child (List.mem_cons_of_mem _ member), List.map_cons, List.sum_cons]

end SortedMap

end Enlil
