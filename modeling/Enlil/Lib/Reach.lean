import Mathlib
import Mathlib.Order.WellFounded
import Mathlib.Logic.Relation

/-! Paths of a relation, and how long they have to be if there are only so many places. -/

namespace Enlil

section

variable {α : Type*} {r : α → α → Prop} {a b c : α}

/-- A path of at most so many edges. -/
def Within (r : α → α → Prop) : Nat → α → α → Prop
  | 0, a, b => a = b
  | n + 1, a, b => a = b ∨ ∃ c, r a c ∧ Within r n c b

theorem Within.refl (r : α → α → Prop) (n : Nat) (a : α) : Within r n a a := by
  cases n with
  | zero => rfl
  | succ n => exact .inl rfl

theorem Within.succ {n : Nat} (within : Within r n a b) : Within r (n + 1) a b := by
  induction n generalizing a with
  | zero => exact .inl within
  | succ n ih =>
    rcases within with same | ⟨c, edge, rest⟩
    · exact .inl same
    · exact .inr ⟨c, edge, ih rest⟩

theorem Within.mono {m n : Nat} (le : m ≤ n) (within : Within r m a b) : Within r n a b := by
  induction le with
  | refl => exact within
  | step _ ih => exact ih.succ

theorem Within.reflTransGen {n : Nat} (within : Within r n a b) : Relation.ReflTransGen r a b := by
  induction n generalizing a with
  | zero =>
    cases within
    exact .refl
  | succ n ih =>
    rcases within with rfl | ⟨c, edge, rest⟩
    · exact .refl
    · exact .head edge (ih rest)

theorem exists_within (path : Relation.ReflTransGen r a b) : ∃ n, Within r n a b := by
  induction path using Relation.ReflTransGen.head_induction_on with
  | refl => exact ⟨0, rfl⟩
  | head edge _ ih =>
    obtain ⟨n, rest⟩ := ih
    exact ⟨n + 1, .inr ⟨_, edge, rest⟩⟩

open Classical in
/-- A path whose edges all end at one of some places need not have more edges than there are places. -/
theorem within_card (places : Finset α) (ends : ∀ x y, r x y → y ∈ places) (inside : a ∈ places)
    (path : Relation.ReflTransGen r a b) : Within r places.card a b := by
  let near (n : Nat) : Finset α := places.filter fun x => Within r n x b
  have grows : ∀ n, near n ⊆ near (n + 1) := by
    intro n x member
    obtain ⟨place, within⟩ := Finset.mem_filter.mp member
    exact Finset.mem_filter.mpr ⟨place, within.succ⟩
  have mono : Monotone fun n => (near n).card := monotone_nat_of_le_succ fun n => Finset.card_le_card (grows n)
  -- Once no place is added by one more edge, none is ever added.
  have stays : ∀ n, (near n).card = (near (n + 1)).card → (near (n + 1)).card = (near (n + 2)).card := by
    intro n same
    have still : near n = near (n + 1) := Finset.eq_of_subset_of_card_le (grows n) same.ge
    refine congrArg Finset.card (Finset.Subset.antisymm (grows (n + 1)) fun x member => ?_)
    obtain ⟨place, rfl | ⟨y, edge, rest⟩⟩ := Finset.mem_filter.mp member
    · exact Finset.mem_filter.mpr ⟨place, .refl r _ _⟩
    · have next : y ∈ near n := still ▸ Finset.mem_filter.mpr ⟨ends _ _ edge, rest⟩
      exact Finset.mem_filter.mpr ⟨place, .inr ⟨y, edge, (Finset.mem_filter.mp next).2⟩⟩
  obtain ⟨n, within⟩ := exists_within path
  rcases Nat.le_total n places.card with short | long
  · exact within.mono short
  · have bound : ∀ n, (near n).card ≤ places.card := fun n => Finset.card_filter_le _ _
    have settled : (near n).card = (near places.card).card := Nat.stabilises_of_monotone mono bound stays long
    have less : near places.card ⊆ near n := by
      intro x member
      obtain ⟨place, early⟩ := Finset.mem_filter.mp member
      exact Finset.mem_filter.mpr ⟨place, early.mono long⟩
    have all : near places.card = near n := Finset.eq_of_subset_of_card_le less settled.le
    exact (Finset.mem_filter.mp (all ▸ Finset.mem_filter.mpr ⟨inside, within⟩ : a ∈ near places.card)).2

end

end Enlil

/-! Relations without infinite paths, and the edges that may be added to them. -/

namespace Enlil

section

variable {α : Type*} {r r' : α → α → Prop} {a b : α}

/-- Every path of the relation ends. -/
def Grounded (r : α → α → Prop) : Prop := WellFounded fun y x => r x y

theorem Grounded.mono (grounded : Grounded r) (less : ∀ x y, r' x y → r x y) : Grounded r' :=
  Subrelation.wf (fun {y x} => less x y) grounded

/-- A relation whose paths end has no cycle. -/
theorem Grounded.acyclic (grounded : Grounded r) (x : α) : ¬ Relation.TransGen r x x := by
  intro cycle
  have back : Relation.TransGen (fun y x => r x y) x x := Relation.transGen_swap.mpr cycle
  exact grounded.transGen.irrefl.irrefl x back

/-- Paths still end after an edge is added, unless its end leads to its start. -/
theorem Grounded.insert (grounded : Grounded r) (apart : ¬ Relation.ReflTransGen r b a)
    (only : ∀ x y, r' x y → r x y ∨ (x = a ∧ y = b)) : Grounded r' := by
  -- First from what the end leads to, where the new edge does not start.
  have behind : ∀ x, Relation.ReflTransGen r b x → Acc (fun y x => r' x y) x := by
    intro x
    induction x using grounded.induction with
    | h x ih =>
      intro reached
      refine Acc.intro x fun y edge => ?_
      rcases only x y edge with old | ⟨rfl, rfl⟩
      · exact ih y old (reached.tail old)
      · exact absurd reached apart
  refine ⟨fun x => ?_⟩
  induction x using grounded.induction with
  | h x ih =>
    refine Acc.intro x fun y edge => ?_
    rcases only x y edge with old | ⟨rfl, rfl⟩
    · exact ih y old
    · exact behind _ .refl

end

end Enlil
